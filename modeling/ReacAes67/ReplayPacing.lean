import ReacAes67.Feeder
import ReacAes67.PcapReplay

set_option autoImplicit false

/-!
# The pace of a replay

`rx_loop` goes through a capture file again and again. It hands a frame on when
as much time has passed since the first frame of the pass as lies between their
timestamps.
-/

namespace ReacAes67

/-- A frame handed on when the monotonic clock shows `ns`; its turn reads `readNs` off it. -/
structure PacedFrame where
  buf : List UInt8
  tsUsec : UInt64
  readNs : Nat
  ns : Nat
deriving DecidableEq, Repr

-- The locals of `rx_loop` on a file, the clock, and the frames of each pass over the file.
structure Replay where
  ps : PcapSource
  pcapFirstTs : UInt64
  wallFirstNs : UInt64
  clockNs : Nat
  finished : List (List PacedFrame)
  pass : List PacedFrame

/-- How long a turn takes until it reads the clock, and how much later than asked it wakes up. -/
structure TurnTime where
  reading : Nat
  late : Nat

def PcapOutcome.tsUsec : PcapOutcome → UInt64
  | .eof => 0
  | .error => 0
  | .record _ _ tsUsec => tsUsec

-- `clock_nanosleep` returns at once when the target is in the past.
def Replay.handOn (r : Replay) (buf : List UInt8) (pcapTs : UInt64) (now late : Nat) : Replay :=
  if pcapTs = 0 then
    { r with clockNs := now + late, pass := r.pass ++ [⟨buf, pcapTs, now, now + late⟩] }
  else
    let base := if r.wallFirstNs = 0 then (pcapTs, UInt64.ofNat now) else (r.pcapFirstTs, r.wallFirstNs)
    let target := base.2 + (pcapTs - base.1) * 1000
    let ns := max now target.toNat + late
    { r with
      pcapFirstTs := base.1
      wallFirstNs := base.2
      clockNs := ns
      pass := r.pass ++ [⟨buf, pcapTs, now, ns⟩] }

/-- One turn of `rx_loop` on the file `file`, which it opens again at the end. -/
def replayTurn (long : LongWidth) (fuel : Nat) (file : List UInt8) (r : Replay) (time : TurnTime) :
    Option Replay := do
  let (outcome, ps) ← pcapSourceNext long rxFrameBytes fuel r.ps
  let n := outcome.ret long
  let now := r.clockNs + time.reading
  if n = 0 then
    return { r with
      ps := (pcapSourceOpen file).getD ps
      wallFirstNs := 0
      clockNs := now
      finished := r.finished ++ [r.pass]
      pass := [] }
  else if n ≤ 0 then return { r with ps := ps, clockNs := now }
  else if !isReac outcome.buf then return { r with ps := ps, clockNs := now }
  else return { r with ps := ps }.handOn outcome.buf outcome.tsUsec now time.late

def replayTurns (long : LongWidth) (fuel : Nat) (file : List UInt8) (r : Replay) (turns : List TurnTime) :
    Option Replay :=
  turns.foldlM (replayTurn long fuel file) r

def replayStart (ps : PcapSource) (startNs : Nat) : Replay :=
  { ps := ps, pcapFirstTs := 0, wallFirstNs := 0, clockNs := startNs, finished := [], pass := [] }

/-! ## What a pass hands on, and when -/

-- An empty record ends a pass as the end of the file does.
def passRecords (records : List PcapRecord) : List PcapRecord :=
  ((fitting rxFrameBytes records).takeWhile fun r => !r.body.isEmpty).filter fun r => isReac r.body

def PacedFrame.content (f : PacedFrame) : List UInt8 × UInt64 := (f.buf, f.tsUsec)

def PcapRecord.content (r : PcapRecord) : List UInt8 × UInt64 :=
  (r.body, r.sec.toUInt64 * 1000000 + r.usec.toUInt64)

def timed (pass : List PacedFrame) : List PacedFrame := pass.filter fun f => f.tsUsec ≠ 0

/-- From the reading at the first timed frame of the pass on no frame comes before its time. One that its
timestamp puts further back than the clock had run by then is slept on for centuries: the target wraps
around. -/
def Paced (pass : List PacedFrame) : Prop :=
  ∀ first rest, timed pass = first :: rest → first.readNs < 2 ^ 63 → ∀ f ∈ first :: rest,
    (first.tsUsec ≤ f.tsUsec → first.readNs + (f.tsUsec.toNat - first.tsUsec.toNat) * 1000 ≤ f.ns) ∧
      (f.tsUsec < first.tsUsec → first.readNs < (first.tsUsec.toNat - f.tsUsec.toNat) * 1000 → 2 ^ 63 ≤ f.ns)

/-- The clock goes on from `startNs`: it is read, and the frame is handed on before it is read for the next. -/
structure Clocked (startNs : Nat) (handed : List PacedFrame) : Prop where
  since : ∀ f ∈ handed, startNs ≤ f.readNs ∧ f.readNs ≤ f.ns
  ordered : handed.Pairwise fun earlier later => earlier.ns ≤ later.readNs

def Replay.handed (r : Replay) : List PacedFrame := r.finished.flatten ++ r.pass

/-- What has been handed on after `turned` turns: a pass takes at most one for each record and one for the
end. -/
structure Replay.Replays (r : Replay) (startNs : Nat) (records : List PcapRecord) (turned : Nat) : Prop where
  advanced : turned / (records.length + 1) ≤ r.finished.length
  passes : ∀ pass ∈ r.finished, pass.map PacedFrame.content = (passRecords records).map PcapRecord.content
  current : r.pass.map PacedFrame.content <+: (passRecords records).map PcapRecord.content
  clocked : Clocked startNs r.handed
  paced : ∀ pass ∈ r.finished ++ [r.pass], Paced pass

-- `time_t` seconds and microseconds of a record fit far below the width of the clock.
theorem content_short (r : PcapRecord) : r.content.2.toNat < 2 ^ 52 := by
  have sec := r.sec.toNat_lt
  have usec := r.usec.toNat_lt
  simp only [PcapRecord.content, UInt64.toNat_add, UInt64.toNat_mul, UInt32.toNat_toUInt64, UInt64.reduceToNat]
  rw [Nat.mod_eq_of_lt (show r.sec.toNat * 1000000 < 2 ^ 64 by omega), Nat.mod_eq_of_lt (by omega)]
  omega

theorem target_toNat {wall first ts : UInt64} (early : wall.toNat < 2 ^ 63) (firstShort : first.toNat < 2 ^ 52)
    (short : ts.toNat < 2 ^ 52) :
    (first ≤ ts → (wall + (ts - first) * 1000).toNat = wall.toNat + (ts.toNat - first.toNat) * 1000) ∧
      (ts < first → wall.toNat < (first.toNat - ts.toNat) * 1000 →
        2 ^ 63 ≤ (wall + (ts - first) * 1000).toNat) := by
  simp only [UInt64.le_iff_toNat_le, UInt64.lt_iff_toNat_lt, UInt64.toNat_add, UInt64.toNat_mul,
    UInt64.toNat_sub, UInt64.reduceToNat]
  omega

/-- The pass under way, and the base that its frames were paced by. -/
structure Replay.Keeps (r : Replay) : Prop where
  running : 0 < r.clockNs
  short : ∀ f ∈ r.pass, f.tsUsec.toNat < 2 ^ 52
  base : match timed r.pass with
    | [] => r.wallFirstNs = 0
    | first :: rest => first.readNs < 2 ^ 63 →
      r.pcapFirstTs = first.tsUsec ∧ r.wallFirstNs ≠ 0 ∧ r.wallFirstNs.toNat = first.readNs ∧
        ∀ f ∈ first :: rest, (r.wallFirstNs + (f.tsUsec - first.tsUsec) * 1000).toNat ≤ f.ns

theorem Replay.Keeps.paced {r : Replay} (keeps : r.Keeps) : Paced r.pass := by
  intro first rest timedPass early
  have base := keeps.base
  rw [timedPass] at base
  obtain ⟨_, _, wall, late⟩ := base early
  intro f member
  have inside (g : PacedFrame) (member : g ∈ first :: rest) : g ∈ r.pass :=
    List.mem_of_mem_filter (timedPass ▸ member : g ∈ timed r.pass)
  obtain ⟨onward, back⟩ := target_toNat (wall.trans_lt early)
    (keeps.short first (inside first (by simp))) (keeps.short f (inside f member))
  have reached := late f member
  rw [wall] at onward back
  exact ⟨fun after => (onward after).symm.le.trans reached, fun before far => (back before far).trans reached⟩

theorem timed_snoc (pass : List PacedFrame) (f : PacedFrame) :
    timed (pass ++ [f]) = if f.tsUsec = 0 then timed pass else timed pass ++ [f] := by
  by_cases zero : f.tsUsec = 0 <;> simp [timed, zero]

theorem Replay.Keeps.handOn {r : Replay} (keeps : r.Keeps) (ps : PcapSource) (buf : List UInt8)
    {pcapTs : UInt64} (small : pcapTs.toNat < 2 ^ 52) (reading late : Nat) :
    ({ r with ps := ps }.handOn buf pcapTs (r.clockNs + reading) late).Keeps := by
  have running := keeps.running
  have base := keeps.base
  have shorts (ns : Nat) : ∀ f ∈ r.pass ++ [(⟨buf, pcapTs, r.clockNs + reading, ns⟩ : PacedFrame)],
      f.tsUsec.toNat < 2 ^ 52 := List.forall_mem_append.mpr ⟨keeps.short, List.forall_mem_singleton.mpr small⟩
  unfold Replay.handOn
  split
  next zero =>
    refine ⟨by dsimp only; omega, shorts _, ?_⟩
    dsimp only
    rw [timed_snoc, if_pos zero]
    exact base
  next moving =>
    dsimp only
    generalize same : (if r.wallFirstNs = 0 then (pcapTs, UInt64.ofNat (r.clockNs + reading))
      else (r.pcapFirstTs, r.wallFirstNs)) = start
    generalize woken : max (r.clockNs + reading) (start.2 + (pcapTs - start.1) * 1000).toNat + late = ns
    have reached : (start.2 + (pcapTs - start.1) * 1000).toNat ≤ ns := by omega
    refine ⟨by dsimp only; omega, shorts ns, ?_⟩
    dsimp only
    rw [timed_snoc, if_neg moving]
    cases before : timed r.pass with
    | nil =>
      -- the first frame of a pass sets the base
      rw [before] at base
      rw [if_pos base] at same
      subst same
      intro early
      have now : (UInt64.ofNat (r.clockNs + reading)).toNat = r.clockNs + reading :=
        UInt64.toNat_ofNat_of_lt' (by dsimp only [UInt64.size] at early ⊢; omega)
      refine ⟨rfl, fun zero => ?_, now, fun f member => ?_⟩
      next =>
        rw [show (UInt64.ofNat (r.clockNs + reading)) = 0 from zero] at now
        simp at now
        omega
      next =>
        obtain rfl := List.mem_singleton.mp member
        exact reached
    | cons first rest =>
      rw [before] at base
      intro early
      obtain ⟨ts, set, wall, waited⟩ := base early
      rw [if_neg set] at same
      subst same
      refine ⟨ts, set, wall, fun f member => ?_⟩
      rcases List.mem_append.mp (show f ∈ (first :: rest) ++ [⟨buf, pcapTs, _, ns⟩] from member) with old | new
      next => exact waited f old
      next =>
        obtain rfl := List.mem_singleton.mp new
        rw [← ts]
        exact reached

theorem Replay.Keeps.wait {r : Replay} (keeps : r.Keeps) (ps : PcapSource) (reading : Nat) :
    { r with ps := ps, clockNs := r.clockNs + reading }.Keeps where
  running := Nat.add_pos_left keeps.running reading
  short := keeps.short
  base := keeps.base

/-- The frames handed on are in the past. -/
structure Replay.InTime (r : Replay) (startNs : Nat) : Prop where
  started : startNs ≤ r.clockNs
  past : ∀ f ∈ r.handed, f.ns ≤ r.clockNs
  clocked : Clocked startNs r.handed

theorem Replay.InTime.onward {r r' : Replay} {startNs : Nat} (time : r.InTime startNs)
    (same : r'.handed = r.handed) (later : r.clockNs ≤ r'.clockNs) : r'.InTime startNs where
  started := time.started.trans later
  past := by
    rw [same]
    exact fun f member => (time.past f member).trans later
  clocked := same ▸ time.clocked

theorem Replay.InTime.frame {r r' : Replay} {startNs : Nat} (time : r.InTime startNs) {f : PacedFrame}
    (last : r'.handed = r.handed ++ [f]) (read : r.clockNs ≤ f.readNs ∧ f.readNs ≤ f.ns)
    (handedOn : r'.clockNs = f.ns) : r'.InTime startNs where
  started := by
    have started := time.started
    omega
  past := by
    rw [last, handedOn]
    exact List.forall_mem_append.mpr ⟨fun g member => (time.past g member).trans (read.1.trans read.2),
      List.forall_mem_singleton.mpr le_rfl⟩
  clocked := by
    rw [last]
    exact {
      since := List.forall_mem_append.mpr ⟨time.clocked.since,
        List.forall_mem_singleton.mpr ⟨time.started.trans read.1, read.2⟩⟩
      ordered := List.pairwise_append.mpr ⟨time.clocked.ordered, List.pairwise_singleton _ _,
        fun earlier member later same => by
          obtain rfl := List.mem_singleton.mp same
          exact (time.past earlier member).trans read.1⟩ }

theorem passRecords_next (records : List PcapRecord) :
    passRecords records = match nextRecord rxFrameBytes records with
      | none => []
      | some (r, rest) =>
        if r.body.isEmpty then [] else if isReac r.body then r :: passRecords rest else passRecords rest := by
  rw [passRecords, fitting_nextRecord]
  cases nextRecord rxFrameBytes records with
  | none => rfl
  | some found =>
    obtain ⟨r, rest⟩ := found
    cases empty : r.body.isEmpty with
    | true => simp [empty]
    | false => cases reac : isReac r.body <;> simp [empty, reac, passRecords]

/-- After `turned` turns: what the pass has handed on is what comes before the position in the file. -/
structure Replay.Holds (r : Replay) (startNs : Nat) (swap : Bool) (records : List PcapRecord) (turned : Nat) :
    Prop where
  keeps : r.Keeps
  time : r.InTime startNs
  place : ∃ rest, r.ps.Before swap rest ∧ (∀ x ∈ rest, x ∈ records) ∧ rest.length ≤ records.length ∧
    turned + rest.length ≤ r.finished.length * (records.length + 1) + records.length ∧
    r.pass.map PacedFrame.content ++ (passRecords rest).map PcapRecord.content =
      (passRecords records).map PcapRecord.content
  passes : ∀ pass ∈ r.finished, pass.map PacedFrame.content = (passRecords records).map PcapRecord.content
  paced : ∀ pass ∈ r.finished, Paced pass

section Turns

variable {long : LongWidth} {fuel : Nat} {swap : Bool} {header : PcapHeader} {records : List PcapRecord}
  {r : Replay} {startNs turned : Nat}

-- The file is opened again when the pass has handed on all it can.
theorem Replay.Holds.rewind (holds : r.Holds startNs swap records turned) (header : PcapHeader)
    (ps : PcapSource)
    (reading : Nat)
    (whole : r.pass.map PacedFrame.content = (passRecords records).map PcapRecord.content) :
    Replay.Holds { r with
      ps := (pcapSourceOpen (pcapFile swap header records)).getD ps
      wallFirstNs := 0
      clockNs := r.clockNs + reading
      finished := r.finished ++ [r.pass]
      pass := [] } startNs swap records (turned + 1) := by
  obtain ⟨again, opened, swapped, rest⟩ := pcapSourceOpen_file swap header records
  obtain ⟨left, _, _, shorter, advanced, _⟩ := holds.place
  exact {
    keeps := ⟨Nat.add_pos_left holds.keeps.running reading, List.forall_mem_nil _, rfl⟩
    time := holds.time.onward (by simp [Replay.handed]) (Nat.le_add_right _ _)
    place := by
      rw [opened]
      refine ⟨records, ⟨swapped, rest⟩, fun x member => member, Nat.le_refl _, ?_, rfl⟩
      rw [List.length_append, List.length_singleton, Nat.add_mul]
      omega
    passes := List.forall_mem_append.mpr ⟨holds.passes, List.forall_mem_singleton.mpr whole⟩
    paced := List.forall_mem_append.mpr ⟨holds.paced, List.forall_mem_singleton.mpr holds.keeps.paced⟩ }

theorem handOn_log (r : Replay) (buf : List UInt8) (pcapTs : UInt64) (now late : Nat) :
    (r.handOn buf pcapTs now late).ps = r.ps ∧ (r.handOn buf pcapTs now late).finished = r.finished ∧
      now ≤ (r.handOn buf pcapTs now late).clockNs ∧ (r.handOn buf pcapTs now late).pass =
        r.pass ++ [⟨buf, pcapTs, now, (r.handOn buf pcapTs now late).clockNs⟩] := by
  unfold Replay.handOn
  split
  next => exact ⟨rfl, rfl, Nat.le_add_right _ _, rfl⟩
  next => exact ⟨rfl, rfl, (Nat.le_max_left _ _).trans (Nat.le_add_right _ _), rfl⟩

theorem Replay.InTime.handOn (time : r.InTime startNs) (ps : PcapSource) (buf : List UInt8) (pcapTs : UInt64)
    (reading late : Nat) :
    ({ r with ps := ps }.handOn buf pcapTs (r.clockNs + reading) late).InTime startNs := by
  let r' := { r with ps := ps }.handOn buf pcapTs (r.clockNs + reading) late
  obtain ⟨_, finished, read, pass⟩ := handOn_log { r with ps := ps } buf pcapTs (r.clockNs + reading) late
  have handed : r'.handed = r.handed ++ [⟨buf, pcapTs, r.clockNs + reading, r'.clockNs⟩] := by
    rw [Replay.handed, finished, pass]
    exact (List.append_assoc _ _ _).symm
  exact time.frame handed ⟨Nat.le_add_right _ _, read⟩ rfl

theorem Replay.Holds.turn (holds : r.Holds startNs swap records turned) (header : PcapHeader)
    (fits : LengthsFit long records) (enough : records.length < fuel) (time : TurnTime) :
    ∃ r', replayTurn long fuel (pcapFile swap header records) r time = some r' ∧
      r'.Holds startNs swap records (turned + 1) := by
  obtain ⟨rest, before, inside, shorter, advanced, handed⟩ := holds.place
  have called := pcapSourceNext_before rxFrameBytes r.ps rest before (fits.of_mem inside) fuel (by omega)
  rw [passRecords_next] at handed
  cases found : nextRecord rxFrameBytes rest with
  | none =>
    simp only [found, List.map_nil, List.append_nil] at called handed
    obtain ⟨ps', ended, _⟩ := called
    refine ⟨_, ?_, holds.rewind header ps' time.reading handed⟩
    simp [replayTurn, ended, PcapOutcome.ret]
  | some next =>
    obtain ⟨record, later⟩ := next
    simp only [found] at called handed
    obtain ⟨ps', here, before'⟩ := called
    obtain ⟨fewer, member, within⟩ := nextRecord_shorter found
    have ret : record.outcome.ret long = record.body.length :=
      ofUInt32_incl (fits.at (inside record member))
    have place : later.length ≤ records.length := by omega
    have onward : turned + 1 + later.length ≤ r.finished.length * (records.length + 1) + records.length := by
      omega
    cases empty : record.body.isEmpty with
    | true =>
      rw [empty, if_pos rfl, List.map_nil, List.append_nil] at handed
      have none : record.body.length = 0 := by simpa using empty
      refine ⟨_, ?_, holds.rewind header ps' time.reading handed⟩
      simp [replayTurn, here, ret, none]
    | false =>
      have positive : 0 < record.body.length := by
        rw [List.length_pos_iff]
        simpa using empty
      rw [empty, if_neg (by decide)] at handed
      have goes : ¬ record.outcome.ret long ≤ 0 := by omega
      have more : ¬ record.outcome.ret long = 0 := by omega
      have buf : record.outcome.buf = record.body := rfl
      cases reac : isReac record.body with
      | false =>
        rw [reac, if_neg (by decide)] at handed
        refine ⟨_, ?_, holds.keeps.wait ps' time.reading, holds.time.onward rfl (Nat.le_add_right _ _),
          ⟨later, before', fun x later => inside x (within x later), place, onward, handed⟩, holds.passes,
          holds.paced⟩
        simp [replayTurn, here, goes, more, buf, reac]
      | true =>
        rw [reac, if_pos rfl, List.map_cons, ← List.singleton_append, ← List.append_assoc] at handed
        have ts : record.outcome.tsUsec = record.content.2 := rfl
        have keeps := holds.keeps.handOn ps' record.body (content_short record) time.reading time.late
        obtain ⟨ps, finished, _, pass⟩ := handOn_log { r with ps := ps' } record.body record.content.2
          (r.clockNs + time.reading) time.late
        refine ⟨_, ?_, keeps, holds.time.handOn ps' _ _ _ _,
          ⟨later, ?_, fun x later => inside x (within x later), place, ?_, ?_⟩, ?_, ?_⟩
        next => simp [replayTurn, here, goes, more, buf, reac, ts]
        next =>
          rw [ps]
          exact before'
        next =>
          rw [finished]
          exact onward
        next =>
          rw [pass, List.map_append]
          exact handed
        next =>
          rw [finished]
          exact holds.passes
        next =>
          rw [finished]
          exact holds.paced

theorem Replay.Holds.run (holds : r.Holds startNs swap records turned) (header : PcapHeader)
    (fits : LengthsFit long records) (enough : records.length < fuel) (turns : List TurnTime) :
    ∃ r', replayTurns long fuel (pcapFile swap header records) r turns = some r' ∧
      r'.Holds startNs swap records (turned + turns.length) := by
  induction turns generalizing r turned with
  | nil => exact ⟨r, rfl, holds⟩
  | cons time turns ih =>
    obtain ⟨middle, made, next⟩ := holds.turn header fits enough time
    obtain ⟨last, ran, final⟩ := ih next
    refine ⟨last, ?_, ?_⟩
    next =>
      rw [replayTurns, List.foldlM_cons, made]
      exact ran
    next =>
      rw [List.length_cons, Nat.add_comm turns.length, ← Nat.add_assoc]
      exact final

theorem Replay.Holds.replays (holds : r.Holds startNs swap records turned) :
    r.Replays startNs records turned := by
  obtain ⟨rest, _, _, _, advanced, handed⟩ := holds.place
  exact {
    advanced := by
      have room : turned < (r.finished.length + 1) * (records.length + 1) := by
        rw [Nat.add_mul]
        omega
      exact Nat.lt_succ_iff.mp (Nat.div_lt_of_lt_mul (by rwa [Nat.mul_comm]))
    passes := holds.passes
    current := ⟨_, handed⟩
    clocked := holds.time.clocked
    paced := List.forall_mem_append.mpr ⟨holds.paced, List.forall_mem_singleton.mpr holds.keeps.paced⟩ }

end Turns

/-- However long the turns take, pass follows pass, and each hands on the same frames, none before its time. -/
theorem replay_paced (long : LongWidth) (swap : Bool) (header : PcapHeader) (records : List PcapRecord)
    (fits : LengthsFit long records) (fuel : Nat) (enough : records.length < fuel) (startNs : Nat)
    (running : 0 < startNs) (turns : List TurnTime) :
    ∃ ps r, pcapSourceOpen (pcapFile swap header records) = some ps ∧
      replayTurns long fuel (pcapFile swap header records) (replayStart ps startNs) turns = some r ∧
      r.Replays startNs records turns.length := by
  obtain ⟨ps, opened, swapped, rest⟩ := pcapSourceOpen_file swap header records
  have start : (replayStart ps startNs).Holds startNs swap records 0 := {
    keeps := ⟨running, List.forall_mem_nil _, rfl⟩
    time := ⟨le_rfl, List.forall_mem_nil _, List.forall_mem_nil _, List.Pairwise.nil⟩
    place := ⟨records, ⟨swapped, rest⟩, fun x member => member, Nat.le_refl _, by simp [replayStart], rfl⟩
    passes := List.forall_mem_nil _
    paced := List.forall_mem_nil _ }
  obtain ⟨r, ran, final⟩ := start.run header fits enough turns
  rw [Nat.zero_add] at final
  exact ⟨ps, r, opened, ran, final.replays⟩

theorem silentFrame_short (counter : UInt16) : (silentFrame counter).length < 2 ^ 32 := by
  rw [silentFrame, wireFrame_length]
  decide

def silentRecord (sec : UInt32) : PcapRecord := ⟨sec, 0, 1492, silentFrame 7, silentFrame_short 7⟩

-- Two frames a second apart, then the end of the file and the first of them again.
theorem replay_paced_twoPasses :
    let records := [silentRecord 1, silentRecord 2]
    ∃ ps r, pcapSourceOpen (pcapFile false captureHeader records) = some ps ∧
      replayTurns .long64 3 (pcapFile false captureHeader records) (replayStart ps 5000)
        [⟨10, 0⟩, ⟨10, 70⟩, ⟨10, 0⟩, ⟨10, 0⟩] = some r ∧ r.Replays 5000 records 4 ∧
      r.handed.map (fun f => (f.readNs, f.ns)) =
        [(5010, 5010), (5020, 1000005080), (1000005100, 1000005100)] := by
  intro records
  obtain ⟨ps, r, opened, ran, replays⟩ := replay_paced .long64 false captureHeader records (.inl rfl) 3
    (Nat.lt_succ_self 2) 5000 (by decide) [⟨10, 0⟩, ⟨10, 70⟩, ⟨10, 0⟩, ⟨10, 0⟩]
  have times : ((pcapSourceOpen (pcapFile false captureHeader records)).bind fun ps =>
      replayTurns .long64 3 (pcapFile false captureHeader records) (replayStart ps 5000)
        [⟨10, 0⟩, ⟨10, 70⟩, ⟨10, 0⟩, ⟨10, 0⟩]).map (fun r => r.handed.map fun f => (f.readNs, f.ns)) =
      some [(5010, 5010), (5020, 1000005080), (1000005100, 1000005100)] := by decide +kernel
  rw [opened, Option.bind_some, ran] at times
  exact ⟨ps, r, opened, ran, replays, Option.some.inj times⟩

end ReacAes67
