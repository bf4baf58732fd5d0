import ReacAes67.DaemonRuns
import ReacAes67.PcapTruncation
import ReacAes67.Shared.Fields

set_option autoImplicit false

/-!
# The cross-check of the decoder

`cross_verify.py` decodes a capture by itself and compares what it finds with
what `--dump-samples` prints for the same file. A script that ends with an
exception exits with 1, as one that finds a difference does.
-/

namespace ReacAes67

open BoundedLoop Endian Fields SampleBlock TextLines

-- The counter of a frame and its samples, channel by channel.
abbrev CheckedFrame := Int × List Int

/-! ## The decoder of the script -/

-- One field of `struct.unpack`
def unpackU32 (little : Bool) (bytes : List UInt8) : Nat :=
  let field := bytes.take 4
  (if little then field.reverse else field).foldl (fun value byte => value * 256 + byte.toNat) 0

-- An index behind the end is an exception.
def pySample (audio : List UInt8) (sp : Nat) : Option Int := do
  let b0 ← audio[sp]?
  let b1 ← audio[sp + 1]?
  let b2 ← audio[sp + 2]?
  let v := b0.toNat ||| b1.toNat <<< 8 ||| b2.toNat <<< 16
  return if v &&& 0x800000 ≠ 0 then (v : Int) - 0x1000000 else v

-- The inner `none` is a record that is passed over.
def pyFrame (nCh ns : Nat) (raw : List UInt8) : Option (Option CheckedFrame) := do
  let type0 ← raw[12]?
  if type0 ≠ 0x88 then return none
  else
    let type1 ← raw[13]?
    if type1 ≠ 0x19 then return none
    else
      let low ← raw[14]?
      let high ← raw[15]?
      let audio := (raw.drop 50).take (nCh * ns * 3)
      let samples ← (grid nCh ns).mapM fun cell => pySample audio ((cell.2 * nCh + cell.1) * 3)
      return some (((low.toNat ||| high.toNat <<< 8 : Nat) : Int), samples)

def pyTurn (nCh ns : Nat) (little : Bool) (st : List CheckedFrame × FileStream.Stream) :
    (List CheckedFrame × FileStream.Stream) ⊕ Option (List CheckedFrame) :=
  let ph := st.2.fread 16
  if ph.1.length < 16 then .inr (some st.1)
  else
    let incl := unpackU32 little (ph.1.drop 8)
    let raw := ph.2.fread incl
    if raw.1.length < incl then .inr (some st.1)
    else
      match pyFrame nCh ns raw.1 with
      | none => .inr none
      | some none => .inl (st.1, raw.2)
      | some (some frame) => .inl (st.1 ++ [frame], raw.2)

-- The inner `none` is an exception.
def pyDecodeFrames (nCh ns fuel : Nat) (file : List UInt8) : Option (Option (List CheckedFrame)) :=
  let gh := ({ bytes := file, pos := 0 } : FileStream.Stream).fread 24
  if gh.1.length < 4 then some none
  else loop (fun st => some (pyTurn nCh ns (unpackU32 true gh.1 = 0xA1B2C3D4) st)) fuel ([], gh.2)

/-! ## What the script reads of the process -/

-- `str.split` and `str.strip`
def isPySpace (c : Char) : Bool :=
  let n := c.toNat
  decide (9 ≤ n ∧ n ≤ 13 ∨ 28 ≤ n ∧ n ≤ 32 ∨ n = 133 ∨ n = 160 ∨ n = 5760 ∨ 8192 ≤ n ∧ n ≤ 8202 ∨ n = 8232 ∨
    n = 8233 ∨ n = 8239 ∨ n = 8287 ∨ n = 12288)

-- `str.splitlines`, in a text whose line ends are single characters
def isPyBreak (c : Char) : Bool :=
  let n := c.toNat
  decide (10 ≤ n ∧ n ≤ 13 ∨ 28 ≤ n ∧ n ≤ 30 ∨ n = 133 ∨ n = 8232 ∨ n = 8233)

-- `int` takes more than a sign and digits, none of which the process prints.
def cDecodeLine (line : List Char) : Option CheckedFrame := do
  let head := line.takeWhile (· ≠ ':')
  let rest := (line.dropWhile (· ≠ ':')).drop 1
  let seq ← (words isPySpace head)[3]? >>= readWhole
  let samples ← (if strip isPySpace rest = [] then some [] else (words isPySpace rest).mapM readWhole)
  return (seq, samples)

def cDecodeFrames (out : List Char) : Option (List CheckedFrame) :=
  (lines isPyBreak (strip isPySpace out)).mapM cDecodeLine

def dumpArguments (path : List Char) : List (List Char) := ["--pcap".toList, path, "--dump-samples".toList]

/-- The exit code of the script; `none` if it does not end. -/
def crossVerify (host : Host) (env : Surroundings) (path : List Char) : Option Nat :=
  match env.file path with
  | none => some 1
  | some file => do
    match ← pyDecodeFrames 40 12 env.fuel file with
    | none => return 1
    | some py =>
      let run ← mainProcess host env (dumpArguments path)
      if run.rc ≠ 0 then return 1
      else
        match cDecodeFrames run.printed with
        | none => return 1
        | some c =>
          if py.length ≠ c.length then return 1
          else return if (py.zip c).all (fun pair => pair.1 = pair.2) then 0 else 1

/-! ## Records -/

/-- Both sides decode the record, or both pass over it. -/
def Comparable (raw : List UInt8) : Prop :=
  (reacFrameInspect raw).valid = true ∨
    captureBytes < raw.length ∧ ¬(raw.getD 12 0 = 0x88 ∧ raw.getD 13 0 = 0x19)

instance (raw : List UInt8) : Decidable (Comparable raw) :=
  inferInstanceAs (Decidable (_ ∨ _))

-- What the script makes of the records.
def pyFrames (nCh ns : Nat) : List PcapRecord → Option (List CheckedFrame)
  | [] => some []
  | r :: records =>
    match pyFrame nCh ns r.body with
    | none => none
    | some none => pyFrames nCh ns records
    | some (some frame) => (pyFrames nCh ns records).map (frame :: ·)

-- The bodies that the process prints a line for: an empty record ends its loop.
def printedBodies (cap : Nat) : List PcapRecord → List (List UInt8)
  | [] => []
  | r :: records =>
    if cap < r.body.length then printedBodies cap records
    else if r.body = [] then []
    else r.body :: printedBodies cap records

-- The samples that the process prints for a frame, and what the script reads back from its line.
def dumpedSamples (mode : ReacMode) (raw : List UInt8) : List Int :=
  (List.range (mode.nChannels * mode.samplesPerPkt)).map fun i => sampleValue ((decoded mode raw).sample i)

def dumpedFrame (mode : ReacMode) (raw : List UInt8) : Option CheckedFrame :=
  if (reacFrameInspect raw).valid then some ((reacFrameInspect raw).counter.toNat, dumpedSamples mode raw)
  else none

/-! ## One record -/

section Record

variable {raw : List UInt8}

theorem getElem?_of_lt {i : Nat} (inside : i < raw.length) : raw[i]? = some (raw.getD i 0) := by
  rw [List.getD_eq_getElem?_getD, List.getElem?_eq_getElem inside, Option.getD_some]

theorem pySample_audio {mode : ReacMode} (fills : mode.FillsFrame) (length : raw.length = reacFrameBytes)
    {ch s : Nat} (channel : ch < mode.nChannels) (time : s < mode.samplesPerPkt) :
    pySample ((raw.drop 50).take (mode.nChannels * mode.samplesPerPkt * 3)) ((s * mode.nChannels + ch) * 3) =
      some (sampleValue (audioSlot mode raw ch s)) := by
  have inside := rowMajor_lt time channel
  have audio := fills.audio
  simp only [reacResolution, reacAudioBytes] at audio
  rw [Nat.mul_comm mode.samplesPerPkt] at inside
  have byte {k : Nat} (small : k < 3) :
      ((raw.drop 50).take (mode.nChannels * mode.samplesPerPkt * 3))[(s * mode.nChannels + ch) * 3 + k]? =
        some (raw.getD (50 + ((s * mode.nChannels + ch) * 3 + k)) 0) := by
    rw [List.getElem?_take_of_lt (by omega), List.getElem?_drop]
    exact getElem?_of_lt (by rw [length, reacFrameBytes]; omega)
  have first := byte (k := 0) (by omega)
  rw [Nat.add_zero] at first
  simp only [pySample, first, byte (k := 1) (by omega), byte (k := 2) (by omega), Option.bind_eq_bind,
    Option.bind_some]
  rfl

theorem grid_positions (rows cols : Nat) :
    (grid rows cols).map (fun cell => cell.1 * cols + cell.2) = List.range (rows * cols) := by
  induction rows with
  | zero => simp [grid]
  | succ rows ih =>
    have next : grid (rows + 1) cols = grid rows cols ++ (List.range cols).map fun c => (rows, c) := by
      simp [grid, SProd.sprod, List.product, List.range_succ]
    rw [next, List.map_append, ih, Nat.add_mul, Nat.one_mul, List.range_add, List.map_map]
    rfl

/-- A frame that the process decodes is decoded by the script to the same counter and samples. -/
theorem pyFrame_valid {mode : ReacMode} (fills : mode.FillsFrame)
    (valid : (reacFrameInspect raw).valid = true) :
    ∃ frame, pyFrame mode.nChannels mode.samplesPerPkt raw = some (some frame) ∧
      dumpedFrame mode raw = some frame := by
  obtain ⟨length, type0, type1, _, _, inspected⟩ := reacFrameInspect_valid valid
  have inside : ∀ i, i < 16 → raw[i]? = some (raw.getD i 0) := fun i small =>
    getElem?_of_lt (by rw [length, reacFrameBytes]; omega)
  have samples : (grid mode.nChannels mode.samplesPerPkt).mapM (fun cell =>
        pySample ((raw.drop 50).take (mode.nChannels * mode.samplesPerPkt * 3))
          ((cell.2 * mode.nChannels + cell.1) * 3)) =
      some (dumpedSamples mode raw) := by
    rw [dumpedSamples, ← grid_positions, List.map_map, CInt.mapM_eq_some_iff, List.forall₂_map_right_iff,
      List.forall₂_same]
    intro cell member
    obtain ⟨channel, time⟩ := mem_grid.mp member
    rw [pySample_audio fills length channel time, Function.comp_apply, decoded_sample mode raw channel time]
  have counter : (raw.getD 14 0).toNat ||| (raw.getD 15 0).toNat <<< 8 =
      (le16 (raw.getD 14 0) (raw.getD 15 0)).toNat := by
    rw [le16_toNat]
    exact or_shiftLeft _ (raw.getD 14 0).toNat_lt
  refine ⟨_, ?_, by rw [dumpedFrame, if_pos valid, inspected]⟩
  simp only [pyFrame, inside 12 (by decide), inside 13 (by decide), inside 14 (by decide),
    inside 15 (by decide), type0, type1, samples, counter, Option.bind_eq_bind, Option.bind_some, ne_eq,
    not_true_eq_false, if_false]
  rfl

-- An oversized record of another type has bytes 12 and 13, and the script passes over it.
theorem pyFrame_other (nCh ns : Nat) (long : captureBytes < raw.length)
    (other : ¬(raw.getD 12 0 = 0x88 ∧ raw.getD 13 0 = 0x19)) : pyFrame nCh ns raw = some none := by
  have inside : ∀ i, i < 16 → raw[i]? = some (raw.getD i 0) := fun i small =>
    getElem?_of_lt (by rw [captureBytes] at long; omega)
  by_cases type0 : raw.getD 12 0 = 0x88
  next =>
    have type1 : ¬ raw.getD 13 0 = 0x19 := fun type1 => other ⟨type0, type1⟩
    simp only [pyFrame, inside 12 (by decide), inside 13 (by decide), type0, type1, Option.bind_eq_bind,
      Option.bind_some, ne_eq, not_true_eq_false, if_false, not_false_eq_true, if_true]
    rfl
  next =>
    simp only [pyFrame, inside 12 (by decide), type0, Option.bind_eq_bind, Option.bind_some, ne_eq,
      not_false_eq_true, if_true]
    rfl

-- Of a record of the type, the script makes a frame or an exception.
theorem pyFrame_typed {nCh ns : Nat} (long : captureBytes < raw.length)
    (typed : raw.getD 12 0 = 0x88 ∧ raw.getD 13 0 = 0x19) : pyFrame nCh ns raw ≠ some none := by
  have inside : ∀ i, i < 16 → raw[i]? = some (raw.getD i 0) := fun i small =>
    getElem?_of_lt (by rw [captureBytes] at long; omega)
  intro passed
  simp only [pyFrame, inside 12 (by decide), inside 13 (by decide), inside 14 (by decide),
    inside 15 (by decide), typed, Option.bind_eq_bind, Option.bind_some, ne_eq, not_true_eq_false, if_false,
    Option.bind_eq_some_iff] at passed
  obtain ⟨samples, _, passed⟩ := passed
  cases passed

end Record

/-! ## The file -/

section File

variable {swap : Bool} {tail : List UInt8} {cut : CutPlace}

theorem unpackU32_putU32 (v : UInt32) (rest : List UInt8) :
    unpackU32 (!swap) (putU32 swap v ++ rest) = v.toNat := by
  have value := le32_toNat v.toUInt8 (v >>> 8).toUInt8 (v >>> 16).toUInt8 (v >>> 24).toUInt8
  rw [le32_bytes] at value
  cases swap <;> simp only [unpackU32, putU32, List.reverse_cons, List.reverse_nil, List.nil_append,
    List.cons_append, List.take_succ_cons, List.take_zero, List.foldl_cons, List.foldl_nil, Bool.not_false,
    Bool.not_true, if_true, if_false, Bool.false_eq_true] <;> omega

theorem unpackU32_append (little : Bool) {field : List UInt8} (length : field.length = 4)
    (rest : List UInt8) : unpackU32 little (field ++ rest) = unpackU32 little field := by
  rw [unpackU32, unpackU32, List.take_left' length, List.take_of_length_le length.le]

theorem magic_order (header : PcapHeader) :
    decide (unpackU32 true (header.encode swap) = 0xA1B2C3D4) = !swap := by
  simp only [PcapHeader.encode, List.append_assoc, unpackU32_append true (putU32_length swap pcapMagic)]
  cases swap <;> decide

theorem unpackU32_incl (r : PcapRecord) : unpackU32 (!swap) ((r.header swap).drop 8) = r.body.length := by
  have field : (r.header swap).drop 8 = putU32 swap r.incl ++ putU32 swap r.origLen := by
    cases swap <;> rfl
  rw [field, unpackU32_putU32, r.incl_toNat]

theorem inOrder (f : FileStream.Stream) : (⟨f, swap⟩ : PcapSource).swapped = swap := rfl

theorem pyTurn_record (nCh ns : Nat) (frames : List CheckedFrame) {f : FileStream.Stream} (r : PcapRecord)
    {back : List UInt8} (here : f.rest = r.header swap ++ (r.body ++ back)) :
    ∃ f' : FileStream.Stream, f'.rest = back ∧ pyTurn nCh ns (!swap) (frames, f) =
      match pyFrame nCh ns r.body with
      | none => .inr none
      | some none => .inl (frames, f')
      | some (some frame) => .inl (frames ++ [frame], f') := by
  obtain ⟨header, full, _, body⟩ := recordHeader r (inOrder f) here
  obtain ⟨read, left⟩ := FileStream.Stream.fread_append body
  refine ⟨_, left, ?_⟩
  simp only [pyTurn]
  rw [if_neg (by simp only at full; omega)]
  simp only at header
  simp only [header, unpackU32_incl, read, Nat.lt_irrefl, if_false]

theorem pyTurn_tail {nCh ns : Nat} {frames : List CheckedFrame} {f : FileStream.Stream} (here : f.rest = tail)
    (leaves : cut.Leaves swap tail) : pyTurn nCh ns (!swap) (frames, f) = .inr (some frames) := by
  cases cut with
  | boundary =>
    obtain rfl : tail = [] := leaves
    simp [pyTurn, FileStream.Stream.fread, here]
  | header => simp [pyTurn, FileStream.Stream.fread, here, leaves.2]
  | body r =>
    obtain ⟨part, rfl, short⟩ := leaves
    obtain ⟨header, full, _, body⟩ := recordHeader r (inOrder f) here
    simp only at header full body
    have less : ((f.fread 16).2.fread r.body.length).1.length < r.body.length := by
      rw [FileStream.Stream.fread, body]
      simp only [List.length_take]
      omega
    simp only [pyTurn, full, Nat.lt_irrefl, if_false]
    rw [header, unpackU32_incl, if_pos less]

theorem pyLoop_records {nCh ns fuel : Nat} {frames : List CheckedFrame} {f : FileStream.Stream}
    (records : List PcapRecord) (here : f.rest = records.flatMap (PcapRecord.encode swap) ++ tail)
    (leaves : cut.Leaves swap tail) (enough : records.length < fuel) :
    loop (fun st => some (pyTurn nCh ns (!swap) st)) fuel (frames, f) =
      some ((pyFrames nCh ns records).map (frames ++ ·)) := by
  obtain ⟨fuel, rfl⟩ : ∃ spare, fuel = spare + 1 := ⟨fuel - 1, by omega⟩
  induction records generalizing frames f fuel with
  | nil =>
    rw [loop_leave (congrArg some (pyTurn_tail here leaves))]
    simp [pyFrames]
  | cons r records ih =>
    rw [List.flatMap_cons, PcapRecord.encode, List.append_assoc, List.append_assoc] at here
    obtain ⟨f', left, turn⟩ := pyTurn_record nCh ns frames r here
    rw [List.length_cons] at enough
    obtain ⟨spare, rfl⟩ : ∃ spare, fuel = spare + 1 := ⟨fuel - 1, by omega⟩
    rw [pyFrames]
    cases made : pyFrame nCh ns r.body with
    | none =>
      rw [made] at turn
      rw [loop_leave (congrArg some turn)]
      rfl
    | some frame =>
      cases frame with
      | none =>
        rw [made] at turn
        rw [loop_continue (congrArg some turn)]
        exact ih left spare (by omega)
      | some frame =>
        rw [made] at turn
        rw [loop_continue (congrArg some turn), ih left spare (by omega)]
        simp [Option.map_map, Function.comp_def]

theorem cutAt_fewer (records : List PcapRecord) (k : Nat) : (cutAt records k).1.length ≤ records.length := by
  induction records generalizing k with
  | nil => exact le_refl _
  | cons r records ih =>
    rw [cutAt]
    split
    next => exact Nat.succ_le_succ (ih _)
    next =>
      split
      next => exact Nat.zero_le _
      next => split <;> exact Nat.zero_le _

theorem pyDecodeFrames_cut {nCh ns fuel : Nat} (header : PcapHeader) (records : List PcapRecord) (k : Nat)
    (enough : records.length < fuel) :
    pyDecodeFrames nCh ns fuel ((pcapFile swap header records).take (24 + k)) =
      some (pyFrames nCh ns (cutAt records k).1) := by
  obtain ⟨tail, cut, leaves⟩ := cutAt_take swap records k
  have kept : (pcapFile swap header records).take (24 + k) =
      header.encode swap ++ (records.flatMap (PcapRecord.encode swap)).take k := by
    rw [pcapFile, List.take_append, header.encode_length,
      List.take_of_length_le (by rw [header.encode_length]; omega), Nat.add_sub_cancel_left]
  have here : ({ bytes := header.encode swap ++ (records.flatMap (PcapRecord.encode swap)).take k, pos := 0 } :
      FileStream.Stream).rest = header.encode swap ++ (records.flatMap (PcapRecord.encode swap)).take k := rfl
  obtain ⟨read, left⟩ := FileStream.Stream.fread_append here
  rw [header.encode_length] at read left
  have fewer := cutAt_fewer records k
  rw [pyDecodeFrames, kept]
  simp only [read, header.encode_length, magic_order]
  rw [if_neg (by decide), pyLoop_records _ (left.trans cut) leaves (by omega)]
  simp

end File

/-! ## The process -/

section Reader

variable {long : LongWidth} {cap : Nat} {swap : Bool} {tail : List UInt8} {cut : CutPlace}

-- A frame too large for the buffer costs one turn of the inner loop.
theorem readLoop_skip {stops : Int → Bool} {inner outer : Nat} {seen : List (List UInt8)}
    {ps ps' : PcapSource} {result : List (List UInt8) × PcapSource}
    (skips : pcapIteration long cap ps = .inl ps')
    (done : loop (readTurn stops long cap inner) outer (seen, ps') = some result) :
    loop (readTurn stops long cap (inner + 1)) outer (seen, ps) = some result := by
  have turn : readTurn stops long cap (inner + 1) (seen, ps) = readTurn stops long cap inner (seen, ps') := by
    have next : pcapSourceNext long cap (inner + 1) ps = pcapSourceNext long cap inner ps' :=
      loop_continue (congrArg some skips) inner
    simp only [readTurn, next]
  cases outer with
  | zero => cases done
  | succ outer =>
    rw [loop] at done ⊢
    rw [turn]
    cases made : readTurn stops long cap inner (seen, ps') with
    | none => simp [made] at done
    | some next =>
      cases next with
      | inl s =>
        simp only [made] at done ⊢
        exact loop_mono (fun _ _ turn => readTurn_mono (Nat.le_succ inner) turn) le_rfl done
      | inr r => simpa [made] using done

theorem pcapWhile_records (inner outer : Nat) (seen : List (List UInt8)) {ps : PcapSource}
    (records : List PcapRecord) (place : ps.At swap records tail) (leaves : cut.Leaves swap tail)
    (cutFits : ∀ r, cut = .body r → long = .long64 ∨ r.body.length < 2 ^ 31)
    (fits : LengthsFit long records) (enough : records.length + 2 ≤ inner ∧ records.length + 1 ≤ outer) :
    ∃ ps', loop (readTurn (fun n => !decide (n > 0)) long cap inner) outer (seen, ps) =
      some (seen ++ printedBodies cap records, ps') := by
  obtain ⟨outer, rfl⟩ : ∃ spare, outer = spare + 1 := ⟨outer - 1, by omega⟩
  induction records generalizing inner outer seen ps with
  | nil =>
    obtain ⟨ps', last⟩ : ∃ ps', pcapSourceNext long cap 2 ps = some (cut.seen cap, ps') :=
      pcapSourceNext_tail place leaves cutFits
    have more := pcapSourceNext_mono (show 2 ≤ inner by omega) last
    have ended : ¬ (cut.seen cap).ret long > 0 := by
      cases cut with
      | boundary => simp [CutPlace.seen, PcapOutcome.ret]
      | header => simp [CutPlace.seen, PcapOutcome.ret]
      | body r =>
        simp only [CutPlace.seen]
        split <;> simp [PcapOutcome.ret]
    refine ⟨ps', loop_leave ?_ outer⟩
    simp [readTurn, more, ended, printedBodies]
  | cons r records ih =>
    rw [List.length_cons] at enough
    have rest := fits.of_mem (fun x => List.mem_cons_of_mem r)
    obtain ⟨inner, rfl⟩ : ∃ spare, inner = spare + 1 := ⟨inner - 1, by omega⟩
    rw [printedBodies]
    by_cases large : cap < r.body.length
    next =>
      obtain ⟨middle, skips, next⟩ := pcapIteration_skip long cap r records place large (fits.at (by simp))
      obtain ⟨ps', later⟩ := ih inner seen next rest outer (by omega)
      exact ⟨ps', by rw [if_pos large]; exact readLoop_skip skips later⟩
    next =>
      obtain ⟨middle, leave, next⟩ := pcapIteration_record long cap r records place (Nat.not_lt.mp large)
      have called : pcapSourceNext long cap (inner + 1) ps = some (r.outcome, middle) :=
        loop_leave (congrArg some leave) inner
      have ret := PcapRecord.outcome_ret (fits.at (r := r) (by simp))
      rw [if_neg large]
      by_cases empty : r.body = []
      next =>
        refine ⟨middle, loop_leave ?_ outer⟩
        simp [readTurn, called, ret, empty]
      next =>
        obtain ⟨outer, rfl⟩ : ∃ spare, outer = spare + 1 := ⟨outer - 1, by omega⟩
        obtain ⟨ps', later⟩ := ih (inner + 1) (seen ++ [r.body]) next rest outer (by omega)
        have positive := List.length_pos_iff.mpr empty
        have kept : r.outcome.buf = r.body := rfl
        refine ⟨ps', ?_⟩
        have goes : readTurn (fun n => !decide (n > 0)) long cap (inner + 1) (seen, ps) =
            some (.inl (seen ++ [r.body], middle)) := by
          simp [readTurn, called, ret, kept, empty]
        rw [if_neg empty, loop_continue goes, later]
        simp

theorem pcapWhile_cut {fuel : Nat} (cap : Nat) (swap : Bool) (header : PcapHeader)
    (records : List PcapRecord) (k : Nat)
    (fits : LengthsFit long ((cutAt records k).1 ++ (cutAt records k).2.cutRecord))
    (enough : records.length + 2 ≤ fuel) :
    ∃ ps ps', pcapSourceOpen ((pcapFile swap header records).take (24 + k)) = some ps ∧
      pcapWhile long cap fuel ps = some (printedBodies cap (cutAt records k).1, ps') := by
  obtain ⟨tail, cut, leaves⟩ := cutAt_take swap records k
  obtain ⟨ps, opened, swapped, rest⟩ := pcapSourceOpen_cut swap header records k
  have fewer := cutAt_fewer records k
  have last (r : PcapRecord) (inBody : (cutAt records k).2 = .body r) :
      long = .long64 ∨ r.body.length < 2 ^ 31 := by
    refine fits.at (List.mem_append_right _ ?_)
    rw [inBody]
    exact List.mem_singleton_self r
  obtain ⟨ps', read⟩ := pcapWhile_records fuel fuel [] (cutAt records k).1
    ⟨swapped, rest.trans cut⟩ leaves last
    (fits.of_mem fun r member => List.mem_append_left _ member) (by omega)
  exact ⟨ps, ps', opened, read⟩

-- A file that ends inside its header cannot be opened.
theorem pcapSourceOpen_headless {file : List UInt8} (short : file.length < 24) :
    pcapSourceOpen file = none := by
  have part : (({ bytes := file, pos := 0 } : FileStream.Stream).fread 24).1.length ≠ 24 := by
    rw [FileStream.Stream.fread_length]
    dsimp only
    omega
  simp only [pcapSourceOpen, if_pos part]

end Reader

/-! ## The printed report -/

section Report

/-- Printed between white space and colons. -/
structure Field (text : List Char) : Prop where
  filled : text ≠ []
  chars : ∀ c ∈ text, 33 ≤ c.toNat ∧ c.toNat < 127 ∧ c ≠ ':'

theorem Field.solid {text : List Char} (field : Field text) : Solid isPySpace text where
  filled := field.filled
  unspaced c member := by
    have char := field.chars c member
    simp only [isPySpace, decide_eq_false_iff_not]
    omega

theorem literal_field (text : List Char) (filled : text ≠ [])
    (chars : text.all (fun c => 33 ≤ c.toNat ∧ c.toNat < 127 ∧ c ≠ ':') = true) : Field text :=
  ⟨filled, fun c member => by simpa using List.all_eq_true.mp chars c member⟩

theorem decimal_field (i : Int) : Field (decimal i) where
  filled := List.length_pos_iff.mp (decimal_length_pos i)
  chars := by
    have digits (n : Nat) : ∀ c ∈ Nat.toDigits 10 n, 33 ≤ c.toNat ∧ c.toNat < 127 ∧ c ≠ ':' := by
      intro c member
      have digit := Nat.isDigit_of_mem_toDigits (by decide) (by decide) member
      have noColon : c ≠ ':' := fun same => absurd (same ▸ digit) (by decide)
      simp only [Char.isDigit, Bool.and_eq_true, decide_eq_true_eq] at digit
      have low : 48 ≤ c.toNat := digit.1
      have high : c.toNat ≤ 57 := digit.2
      exact ⟨by omega, by omega, noColon⟩
    cases i with
    | ofNat n => exact digits n
    | negSucc n => exact List.forall_mem_cons.mpr ⟨by decide, digits (n + 1)⟩

-- A line of the process: fields before the colon and fields behind it.
def reportLine (heads fields : List (List Char)) : List Char :=
  "frame".toList ++ heads.flatMap (' ' :: ·) ++ ':' :: fields.flatMap (' ' :: ·)

section Line

variable {heads fields : List (List Char)} (inHead : ∀ field ∈ heads, Field field)
  (behind : ∀ field ∈ fields, Field field)

include inHead in
theorem head_chars : ∀ c ∈ "frame".toList ++ heads.flatMap (' ' :: ·),
    32 ≤ c.toNat ∧ c.toNat < 127 ∧ c ≠ ':' := by
  intro c member
  obtain word | member := List.mem_append.mp member
  next =>
    have char := (literal_field "frame".toList (by decide) (by decide)).chars c word
    exact ⟨by omega, char.2⟩
  next =>
    obtain ⟨field, inside, member⟩ := List.mem_flatMap.mp member
    obtain rfl | member := List.mem_cons.mp member
    next => decide
    next =>
      have char := (inHead field inside).chars c member
      exact ⟨by omega, char.2⟩

include inHead behind in
theorem reportLine_tidy : Tidy isPySpace isPyBreak (reportLine heads fields) where
  first := ⟨'f', _, rfl, by decide⟩
  last := by
    have colon : Ends isPySpace ("frame".toList ++ heads.flatMap (' ' :: ·) ++ [':']) :=
      ⟨_, ':', rfl, by decide⟩
    have line := colon.fields fun field member => (behind field member).solid
    rwa [List.append_assoc] at line
  unbroken := by
    have graphic : ∀ c ∈ reportLine heads fields, 32 ≤ c.toNat ∧ c.toNat < 127 := by
      intro c member
      obtain front | back := List.mem_append.mp member
      next =>
        have char := head_chars inHead c front
        exact ⟨char.1, char.2.1⟩
      next =>
        obtain rfl | back := List.mem_cons.mp back
        next => decide
        next =>
          obtain ⟨field, inside, member⟩ := List.mem_flatMap.mp back
          obtain rfl | member := List.mem_cons.mp member
          next => decide
          next =>
            have char := (behind field inside).chars c member
            omega
    intro c member
    have char := graphic c member
    simp only [isPyBreak, decide_eq_false_iff_not]
    omega

include inHead behind in
/-- The script looks at the fourth field and at those behind the colon. -/
theorem cDecodeLine_report : cDecodeLine (reportLine heads fields) = do
    let seq ← heads[2]? >>= readWhole
    let samples ← fields.mapM readWhole
    return (seq, samples) := by
  have noColon : ∀ c ∈ "frame".toList ++ heads.flatMap (' ' :: ·), decide (c ≠ ':') = true := fun c member =>
    decide_eq_true (head_chars inHead c member).2.2
  have front : (reportLine heads fields).takeWhile (fun c => decide (c ≠ ':')) =
      "frame".toList ++ heads.flatMap (' ' :: ·) := by
    rw [reportLine, List.takeWhile_append_of_pos noColon, List.takeWhile_cons_of_neg (by simp),
      List.append_nil]
  have back : ((reportLine heads fields).dropWhile fun c => decide (c ≠ ':')).drop 1 =
      fields.flatMap (' ' :: ·) := by
    rw [reportLine, List.dropWhile_append_of_pos noColon, List.dropWhile_cons_of_neg (by simp)]
    rfl
  have heading : words isPySpace ("frame".toList ++ heads.flatMap (' ' :: ·)) = "frame".toList :: heads :=
    words_fields rfl (List.forall_mem_cons.mpr
      ⟨(literal_field _ (by decide) (by decide)).solid, fun field member => (inHead field member).solid⟩)
  have samples : (if strip isPySpace (fields.flatMap (' ' :: ·)) = [] then some []
      else (words isPySpace (fields.flatMap (' ' :: ·))).mapM readWhole) = fields.mapM readWhole := by
    split
    next blank =>
      rw [strip_spaced (fun field member => (behind field member).solid) blank]
      rfl
    next => rw [words_spaced rfl fun field member => (behind field member).solid]
  simp only [cDecodeLine, front, back, heading, samples, List.getElem?_cons_succ]

end Line

variable {mode : ReacMode} {raw : List UInt8}

-- A line of the process without its end.
def dumpLine (mode : ReacMode) (frame : Nat) (raw : List UInt8) : List Char :=
  if (reacFrameInspect raw).valid then
    reportLine [decimal frame, "seq".toList, decimal (reacFrameInspect raw).counter.toNat]
      ((dumpedSamples mode raw).map decimal)
  else reportLine [decimal frame] ["MALFORMED".toList]

theorem dumpFrame_line (mode : ReacMode) (frame : Nat) (raw : List UInt8) :
    dumpFrame mode frame raw = dumpLine mode frame raw ++ ['\n'] := by
  cases valid : (reacFrameInspect raw).valid with
  | false =>
    rw [dumpFrame, reacDecode_malformed mode _ valid, dumpLine, if_neg (by simp [valid])]
    simp [reportLine]
  | true =>
    rw [dumpFrame, reacDecode_valid mode valid, dumpLine, if_pos valid]
    simp [reportLine, dumpedSamples, List.flatMap_map]

theorem dumpLine_fields (mode : ReacMode) (frame : Nat) (raw : List UInt8) :
    (∀ field ∈ [decimal frame, "seq".toList, decimal (reacFrameInspect raw).counter.toNat], Field field) ∧
      (∀ field ∈ (dumpedSamples mode raw).map decimal, Field field) ∧
      ∀ field ∈ ["MALFORMED".toList], Field field := by
  refine ⟨?_, fun field member => ?_, ?_⟩
  next =>
    simp only [List.forall_mem_cons]
    exact ⟨decimal_field _, literal_field _ (by decide) (by decide), decimal_field _, nofun⟩
  next =>
    obtain ⟨value, _, rfl⟩ := List.mem_map.mp member
    exact decimal_field value
  next =>
    simp only [List.forall_mem_cons]
    exact ⟨literal_field _ (by decide) (by decide), nofun⟩

theorem dumpLine_tidy (mode : ReacMode) (frame : Nat) (raw : List UInt8) :
    Tidy isPySpace isPyBreak (dumpLine mode frame raw) := by
  obtain ⟨heads, numbers, malformed⟩ := dumpLine_fields mode frame raw
  unfold dumpLine
  split
  next => exact reportLine_tidy heads numbers
  next => exact reportLine_tidy (fun field member => heads field (by simp_all)) malformed

/-- The script reads the frame back from its line, and an exception from a malformed one. -/
theorem cDecodeLine_dump (mode : ReacMode) (frame : Nat) (raw : List UInt8) :
    cDecodeLine (dumpLine mode frame raw) = dumpedFrame mode raw := by
  obtain ⟨heads, numbers, malformed⟩ := dumpLine_fields mode frame raw
  unfold dumpLine dumpedFrame
  split
  next =>
    have values : ((dumpedSamples mode raw).map decimal).mapM readWhole = some (dumpedSamples mode raw) := by
      rw [CInt.mapM_eq_some_iff, List.forall₂_map_left_iff, List.forall₂_same]
      exact fun value _ => readWhole_decimal value
    rw [cDecodeLine_report heads numbers, values]
    simp only [List.getElem?_cons_succ, List.getElem?_cons_zero, Option.bind_eq_bind, Option.bind_some,
      readWhole_decimal]
    rfl
  next =>
    rw [cDecodeLine_report (fun field member => heads field (by simp_all)) malformed]
    rfl

theorem mapM_mapIdx {α β γ : Type} (bodies : List α) (line : Nat → α → β) (read : β → Option γ)
    (read' : α → Option γ) (same : ∀ frame raw, read (line frame raw) = read' raw) :
    (bodies.mapIdx line).mapM read = bodies.mapM read' := by
  induction bodies generalizing line with
  | nil => rfl
  | cons raw bodies ih =>
    rw [List.mapIdx_cons, List.mapM_cons, List.mapM_cons, same, ih _ fun frame raw => same (frame + 1) raw]

/-- The whole report of the process reads back as its frames, unless one of them is malformed. -/
theorem cDecodeFrames_dump (mode : ReacMode) (bodies : List (List UInt8)) :
    cDecodeFrames (bodies.mapIdx (dumpFrame mode)).flatten = bodies.mapM (dumpedFrame mode) := by
  have report : (bodies.mapIdx (dumpFrame mode)).flatten =
      (bodies.mapIdx (dumpLine mode)).flatMap fun line => line ++ ['\n'] := by
    rw [List.flatMap_def, List.mapIdx_eq_zipIdx_map, List.mapIdx_eq_zipIdx_map, List.map_map]
    simp only [Function.comp_def, dumpFrame_line]
  have tidy : ∀ line ∈ bodies.mapIdx (dumpLine mode), Tidy isPySpace isPyBreak line := by
    intro line member
    obtain ⟨i, inside, rfl⟩ := List.mem_mapIdx.mp member
    exact dumpLine_tidy mode i _
  rw [cDecodeFrames, report, lines_strip rfl rfl tidy]
  exact mapM_mapIdx bodies _ _ _ (cDecodeLine_dump mode)

end Report

/-! ## The comparison -/

section Compare

variable {mode : ReacMode} {records : List PcapRecord}

theorem pyFrame_dumped (fills : mode.FillsFrame) {raw : List UInt8} {frame : CheckedFrame}
    (dumped : dumpedFrame mode raw = some frame) :
    pyFrame mode.nChannels mode.samplesPerPkt raw = some (some frame) := by
  cases valid : (reacFrameInspect raw).valid with
  | false => simp [dumpedFrame, valid] at dumped
  | true =>
    obtain ⟨found, script, process⟩ := pyFrame_valid fills valid
    rwa [Option.some.inj (dumped.symm.trans process)]

-- The script finds at least what the process prints, if none of that is malformed.
theorem pyFrames_longer (fills : mode.FillsFrame) {py c : List CheckedFrame}
    (script : pyFrames mode.nChannels mode.samplesPerPkt records = some py)
    (process : (printedBodies captureBytes records).mapM (dumpedFrame mode) = some c) :
    c.length ≤ py.length := by
  induction records generalizing py c with
  | nil =>
    cases process
    exact Nat.zero_le _
  | cons r records ih =>
    rw [printedBodies] at process
    rw [pyFrames] at script
    by_cases large : captureBytes < r.body.length
    next =>
      rw [if_pos large] at process
      split at script
      next => cases script
      next => exact ih script process
      next =>
        obtain ⟨rest, onward, rfl⟩ := Option.map_eq_some_iff.mp script
        exact (ih onward process).trans (Nat.le_succ _)
    next =>
      rw [if_neg large] at process
      by_cases empty : r.body = []
      next =>
        rw [if_pos empty] at process
        cases process
        exact Nat.zero_le _
      next =>
        rw [if_neg empty, List.mapM_cons] at process
        simp only [Option.bind_eq_bind, Option.bind_eq_some_iff] at process
        obtain ⟨frame, dumped, rest, process, same⟩ := process
        cases same
        rw [pyFrame_dumped fills dumped] at script
        obtain ⟨later, onward, rfl⟩ := Option.map_eq_some_iff.mp script
        exact Nat.succ_le_succ (ih onward process)

theorem comparable_iff (fills : mode.FillsFrame) :
    (∃ frames, pyFrames mode.nChannels mode.samplesPerPkt records = some frames ∧
        (printedBodies captureBytes records).mapM (dumpedFrame mode) = some frames) ↔
      ∀ r ∈ records, Comparable r.body := by
  induction records with
  | nil => simp [pyFrames, printedBodies]
  | cons r records ih =>
    rw [List.forall_mem_cons, ← ih, pyFrames, printedBodies]
    by_cases large : captureBytes < r.body.length
    next =>
      have invalid : ¬ (reacFrameInspect r.body).valid = true := by
        intro valid
        have length := (reacFrameInspect_valid valid).1
        rw [length] at large
        exact absurd large (by decide)
      rw [if_pos large]
      by_cases typed : r.body.getD 12 0 = 0x88 ∧ r.body.getD 13 0 = 0x19
      next =>
        have other : ¬ Comparable r.body := fun comparable =>
          comparable.elim invalid fun passed => passed.2 typed
        refine ⟨fun ⟨frames, script, process⟩ => ?_, fun both => absurd both.1 other⟩
        -- The script finds a frame more than the process prints.
        split at script
        next => cases script
        next passed => exact absurd passed (pyFrame_typed large typed)
        next =>
          obtain ⟨rest, onward, rfl⟩ := Option.map_eq_some_iff.mp script
          have longer := pyFrames_longer fills onward process
          rw [List.length_cons] at longer
          omega
      next =>
        rw [pyFrame_other _ _ large typed]
        exact (and_iff_right (.inr ⟨large, typed⟩)).symm
    next =>
      rw [if_neg large]
      cases valid : (reacFrameInspect r.body).valid with
      | true =>
        obtain ⟨frame, script, process⟩ := pyFrame_valid fills valid
        have filled : r.body ≠ [] := by
          intro empty
          rw [empty] at valid
          exact absurd valid (by decide)
        have comparable : Comparable r.body := .inl valid
        rw [script, if_neg filled, List.mapM_cons, process]
        simp only [Option.bind_eq_bind, Option.bind_some, comparable, true_and]
        constructor
        next =>
          rintro ⟨frames, script, process⟩
          obtain ⟨rest, onward, rfl⟩ := Option.map_eq_some_iff.mp script
          obtain ⟨rest', printed, same⟩ := Option.bind_eq_some_iff.mp process
          cases same
          exact ⟨rest, onward, printed⟩
        next =>
          rintro ⟨rest, script, process⟩
          refine ⟨frame :: rest, by rw [script]; rfl, ?_⟩
          rw [process]
          rfl
      | false =>
        have other : ¬ Comparable r.body := by
          rintro (valid' | passed)
          next => exact absurd (valid.symm.trans valid') (by decide)
          next => exact large passed.1
        refine ⟨fun ⟨frames, script, process⟩ => ?_, fun both => absurd both.1 other⟩
        by_cases empty : r.body = []
        next =>
          rw [empty] at script
          cases script
        next =>
          have malformed : dumpedFrame mode r.body = none := by simp [dumpedFrame, valid]
          rw [if_neg empty, List.mapM_cons, malformed] at process
          cases process

end Compare

/-! ## The script -/

theorem zip_all_eq {α : Type} [DecidableEq α] {left right : List α} (same : left.length = right.length) :
    (left.zip right).all (fun pair => pair.1 = pair.2) = true ↔ left = right := by
  have each : List.Forall₂ (· = ·) left right ↔ left = right := by rw [List.forall₂_eq_eq_eq]
  rw [← each, List.forall₂_iff_zip, List.all_eq_true]
  simp [same]

section Script

variable {host : Host} {env : Surroundings}

theorem mainProcess_dumps (modes : host.LibreacModes) {path : List Char} {file : List UInt8}
    (given : env.file path = some file) {ps ps' : PcapSource} {bodies : List (List UInt8)}
    (opened : pcapSourceOpen file = some ps)
    (read : pcapWhile env.long captureBytes env.fuel ps = some (bodies, ps'))
    (few : bodies.length ≤ 2147483647) :
    ∃ run, mainProcess host env (dumpArguments path) = some run ∧ run.rc = 0 ∧
      run.printed = (bodies.mapIdx (dumpFrame (broadcastMode 48000))).flatten := by
  let s : Settings := { pcap := some path, doDump := true }
  have parsed : parseArgs env.long {} (dumpArguments path) = .settings s := rfl
  have mode : s.danteOptions.mode host = broadcastMode 48000 := modes.standard 48000 (by decide)
  have counted : CInt.checked bodies.length = some (bodies.length : Int) :=
    CInt.checked_eq_some.mpr ⟨⟨by omega, Int.ofNat_le.mpr few⟩, rfl⟩
  rw [mainProcess_settings parsed, resolveRate_offline rfl]
  simp only [dispatch, s, dumpSamples, given, opened, read, mode, Option.bind_eq_bind, Option.bind_some,
    counted]
  exact ⟨_, rfl, rfl, rfl⟩

theorem mainProcess_unopened {path : List Char} {file : List UInt8} (given : env.file path = some file)
    (closed : pcapSourceOpen file = none) :
    ∃ run, mainProcess host env (dumpArguments path) = some run ∧ run.rc = 1 := by
  let s : Settings := { pcap := some path, doDump := true }
  have parsed : parseArgs env.long {} (dumpArguments path) = .settings s := rfl
  rw [mainProcess_settings parsed, resolveRate_offline rfl]
  simp only [dispatch, s, dumpSamples, given, closed]
  exact ⟨_, rfl, rfl⟩

-- Without a whole header the process fails, if the script comes to start it.
theorem crossVerify_headless {path : List Char} {file : List UInt8} (given : env.file path = some file)
    (short : file.length < 24) (fuel : 0 < env.fuel) : crossVerify host env path = some 1 := by
  obtain ⟨whole, behind⟩ := FileStream.Stream.fread_all { bytes := file, pos := 0 } short.le
  have magic : (({ bytes := file, pos := 0 } : FileStream.Stream).fread 24).1.length = file.length :=
    congrArg List.length whole
  obtain ⟨spare, enough⟩ : ∃ spare, env.fuel = spare + 1 := ⟨env.fuel - 1, by omega⟩
  obtain ⟨run, done, failed⟩ : ∃ run, mainProcess host env (dumpArguments path) = some run ∧ run.rc = 1 :=
    mainProcess_unopened given (pcapSourceOpen_headless short)
  by_cases noMagic : file.length < 4
  next =>
    simp only [crossVerify, given, pyDecodeFrames, magic, if_pos noMagic]
    rfl
  next =>
    have nothing (little : Bool) :
        loop (fun st => some (pyTurn 40 12 little st)) env.fuel
          ([], (({ bytes := file, pos := 0 } : FileStream.Stream).fread 24).2) = some (some []) := by
      have turn : pyTurn 40 12 (!!little) ([], (({ bytes := file, pos := 0 } : FileStream.Stream).fread 24).2) =
          .inr (some []) := pyTurn_tail behind (show CutPlace.boundary.Leaves (!little) [] from rfl)
      rw [Bool.not_not] at turn
      rw [enough]
      exact loop_leave (congrArg some turn) spare
    simp only [crossVerify, given, pyDecodeFrames, magic, if_neg noMagic, nothing, Option.bind_eq_bind,
      Option.bind_some, done, failed]
    rfl

-- The process prints at most one line for each record.
theorem printedBodies_length (cap : Nat) (records : List PcapRecord) :
    (printedBodies cap records).length ≤ records.length := by
  induction records with
  | nil => exact le_refl _
  | cons r records ih =>
    rw [printedBodies]
    split
    next => exact ih.trans (Nat.le_succ _)
    next =>
      split
      next => exact Nat.zero_le _
      next => exact Nat.succ_le_succ ih

theorem crossVerify_records (modes : host.LibreacModes) {path : List Char} (swap : Bool) (header : PcapHeader)
    (records : List PcapRecord) (k : Nat)
    (file : env.file path = some ((pcapFile swap header records).take (24 + k)))
    (fits : LengthsFit env.long ((cutAt records k).1 ++ (cutAt records k).2.cutRecord))
    (few : (cutAt records k).1.length ≤ 2147483647) (enough : records.length + 2 ≤ env.fuel) :
    ∃ code, crossVerify host env path = some code ∧
      (code = 0 ↔ ∀ r ∈ (cutAt records k).1, Comparable r.body) := by
  have fills := broadcastMode_fillsFrame 48000
  obtain ⟨ps, ps', opened, read⟩ := pcapWhile_cut captureBytes swap header records k fits enough
  obtain ⟨run, done, complete, printed⟩ :=
    mainProcess_dumps modes file opened read ((printedBodies_length _ _).trans few)
  have script : pyDecodeFrames 40 12 env.fuel ((pcapFile swap header records).take (24 + k)) =
      some (pyFrames 40 12 (cutAt records k).1) := pyDecodeFrames_cut header records k (by omega)
  have process := cDecodeFrames_dump (broadcastMode 48000) (printedBodies captureBytes (cutAt records k).1)
  rw [← printed] at process
  rw [← comparable_iff fills]
  have width : pyFrames (broadcastMode 48000).nChannels (broadcastMode 48000).samplesPerPkt
      (cutAt records k).1 = pyFrames 40 12 (cutAt records k).1 := rfl
  rw [width, ← process]
  simp only [crossVerify, file, script, Option.bind_eq_bind, Option.bind_some]
  cases found : pyFrames 40 12 (cutAt records k).1 with
  | none => exact ⟨1, rfl, by simp⟩
  | some py =>
    simp only [done, complete, Option.bind_some, ne_eq, not_true_eq_false, if_false]
    cases decoded : cDecodeFrames run.printed with
    | none => exact ⟨1, rfl, by simp⟩
    | some c =>
      have agree : (∃ frames, some py = some frames ∧ some c = some frames) ↔ py = c := by
        constructor
        next =>
          rintro ⟨_, ⟨⟩, ⟨⟩⟩
          rfl
        next =>
          rintro rfl
          exact ⟨_, rfl, rfl⟩
      rw [agree]
      by_cases same : py.length = c.length
      next =>
        refine ⟨_, if_neg (not_not.mpr same), ?_⟩
        rw [← zip_all_eq same]
        generalize List.all _ _ = all
        cases all <;> simp
      next => exact ⟨1, if_pos same, by simpa using fun equal => same (congrArg List.length equal)⟩

/-- The script succeeds exactly on the captures whose header is whole and whose complete records both sides
decode or pass over, wherever the capture is cut. A length or a number of records beyond the reader's types is
left out. -/
theorem crossVerify_iff (modes : host.LibreacModes) {path : List Char} (swap : Bool) (header : PcapHeader)
    (records : List PcapRecord) (k : Nat)
    (file : env.file path = some ((pcapFile swap header records).take k))
    (fits : LengthsFit env.long ((cutAt records (k - 24)).1 ++ (cutAt records (k - 24)).2.cutRecord))
    (few : (cutAt records (k - 24)).1.length ≤ 2147483647) (enough : records.length + 2 ≤ env.fuel) :
    ∃ code, crossVerify host env path = some code ∧
      (code = 0 ↔ 24 ≤ k ∧ ∀ r ∈ (cutAt records (k - 24)).1, Comparable r.body) := by
  by_cases headed : 24 ≤ k
  next =>
    obtain ⟨behind, rfl⟩ : ∃ behind, k = 24 + behind := ⟨k - 24, by omega⟩
    rw [Nat.add_sub_cancel_left] at fits few ⊢
    obtain ⟨code, ends, agrees⟩ := crossVerify_records modes swap header records behind file fits few enough
    exact ⟨code, ends, by simpa using agrees⟩
  next =>
    have short : ((pcapFile swap header records).take k).length < 24 := by
      rw [List.length_take]
      omega
    exact ⟨1, crossVerify_headless file short (by omega), by simp [headed]⟩

theorem wireFrame_short (macs : Fin 12 → UInt8) (counter : UInt16) (audio : Block) :
    (wireFrame macs counter audio).length < 2 ^ 32 := by
  rw [wireFrame_length]; decide

-- A frame and a packet of another type that is too long for the buffer, cut inside a third record.
def mixedRecords : List PcapRecord :=
  [⟨0, 0, 1492, wireFrame (fun _ => 0) 7 (fun i => UInt8.ofNat i), wireFrame_short _ _ _⟩,
    jumboRecord, jumboRecord]

def mixedSurroundings : Surroundings :=
  { busySurroundings with
    file := fun _ => some ((pcapFile true captureHeader mixedRecords).take 6024)
    fuel := 5 }

theorem crossVerify_iff_mixed : crossVerify libreacHost mixedSurroundings "f".toList = some 0 := by
  obtain ⟨code, ends, agrees⟩ := crossVerify_iff libreacHost_modes true captureHeader mixedRecords 6024
    (show mixedSurroundings.file "f".toList = some _ from rfl) (.inl rfl) (by decide +kernel) (by decide)
  have comparable : ∀ r ∈ (cutAt mixedRecords 6000).1, Comparable r.body := by decide +kernel
  rw [ends, agrees.mpr ⟨by decide, comparable⟩]

end Script

end ReacAes67
