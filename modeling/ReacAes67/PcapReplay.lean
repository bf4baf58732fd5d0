import ReacAes67.PcapSource

set_option autoImplicit false

/-!
# Replaying a well-formed capture

Reading a well-formed file record by record yields the records that fit the
buffer. The caller loops take the length 0 for the end of the file, so they
see all of them only when no empty record comes before a frame.
-/

namespace ReacAes67

open Endian FileStream BoundedLoop

structure PcapRecord where
  sec : UInt32
  usec : UInt32
  origLen : UInt32
  body : List UInt8
  short : body.length < 2 ^ 32

structure PcapHeader where
  versionMajor : UInt16
  versionMinor : UInt16
  thiszone : UInt32
  sigfigs : UInt32
  snaplen : UInt32
  network : UInt32

def putU16 (swap : Bool) (v : UInt16) : List UInt8 :=
  let bytes := [v.toUInt8, (v >>> 8).toUInt8]
  if swap then bytes.reverse else bytes

def putU32 (swap : Bool) (v : UInt32) : List UInt8 :=
  let bytes := [v.toUInt8, (v >>> 8).toUInt8, (v >>> 16).toUInt8, (v >>> 24).toUInt8]
  if swap then bytes.reverse else bytes

def PcapRecord.incl (r : PcapRecord) : UInt32 := UInt32.ofNat r.body.length

def PcapRecord.header (swap : Bool) (r : PcapRecord) : List UInt8 :=
  putU32 swap r.sec ++ putU32 swap r.usec ++ putU32 swap r.incl ++ putU32 swap r.origLen

def PcapRecord.encode (swap : Bool) (r : PcapRecord) : List UInt8 := r.header swap ++ r.body

def PcapHeader.encode (swap : Bool) (h : PcapHeader) : List UInt8 :=
  putU32 swap pcapMagic ++ putU16 swap h.versionMajor ++ putU16 swap h.versionMinor ++
    putU32 swap h.thiszone ++ putU32 swap h.sigfigs ++ putU32 swap h.snaplen ++ putU32 swap h.network

def pcapFile (swap : Bool) (h : PcapHeader) (records : List PcapRecord) : List UInt8 :=
  h.encode swap ++ records.flatMap (PcapRecord.encode swap)

def PcapRecord.outcome (r : PcapRecord) : PcapOutcome :=
  .record r.incl r.body (r.sec.toUInt64 * 1000000 + r.usec.toUInt64)

@[simp] theorem putU32_length (swap : Bool) (v : UInt32) : (putU32 swap v).length = 4 := by
  cases swap <;> rfl

@[simp] theorem putU16_length (swap : Bool) (v : UInt16) : (putU16 swap v).length = 2 := by
  cases swap <;> rfl

theorem rdU32_putU32 (swap : Bool) (v : UInt32) (rest : List UInt8) :
    rdU32 (putU32 swap v ++ rest) swap = v := by
  cases swap with
  | false => exact le32_bytes v
  | true =>
    change bswap32 (le32 (v >>> 24).toUInt8 (v >>> 16).toUInt8 (v >>> 8).toUInt8 v.toUInt8) = v
    rw [bswap32_le32, le32_bytes]

theorem PcapRecord.header_length (swap : Bool) (r : PcapRecord) : (r.header swap).length = 16 := by
  simp [PcapRecord.header]

theorem PcapRecord.header_fields (swap : Bool) (r : PcapRecord) :
    rdU32 (r.header swap) swap = r.sec ∧ rdU32 ((r.header swap).drop 4) swap = r.usec ∧
      rdU32 ((r.header swap).drop 8) swap = r.incl := by
  have drop4 : (r.header swap).drop 4 =
      putU32 swap r.usec ++ (putU32 swap r.incl ++ putU32 swap r.origLen) := by
    simp only [PcapRecord.header, List.append_assoc]
    rw [List.drop_left' (putU32_length swap r.sec)]
  have drop8 : (r.header swap).drop 8 = putU32 swap r.incl ++ putU32 swap r.origLen := by
    rw [show 8 = 4 + 4 from rfl, ← List.drop_drop, drop4,
      List.drop_left' (putU32_length swap r.usec)]
  refine ⟨?_, ?_, ?_⟩
  · simp only [PcapRecord.header, List.append_assoc]
    exact rdU32_putU32 swap r.sec _
  · rw [drop4]
    exact rdU32_putU32 swap r.usec _
  · rw [drop8]
    exact rdU32_putU32 swap r.incl _

theorem PcapRecord.incl_toNat (r : PcapRecord) : r.incl.toNat = r.body.length := by
  rw [PcapRecord.incl, UInt32.toNat_ofNat_of_lt' r.short]

theorem PcapHeader.encode_length (swap : Bool) (h : PcapHeader) : (h.encode swap).length = 24 := by
  simp [PcapHeader.encode]

theorem pcapSourceOpen_header (swap : Bool) (h : PcapHeader) (data : List UInt8) :
    ∃ ps, pcapSourceOpen (h.encode swap ++ data) = some ps ∧ ps.swapped = swap ∧ ps.f.rest = data := by
  have length := h.encode_length swap
  have here : ({ bytes := h.encode swap ++ data, pos := 0 } : Stream).rest = h.encode swap ++ data := rfl
  obtain ⟨read, left⟩ := Stream.fread_append here
  rw [length] at read left
  have magic : rdU32 (h.encode swap) false = if swap then pcapMagicSwap else pcapMagic := by
    have first : rdU32 (h.encode swap) false = rdU32 (putU32 swap pcapMagic) false := by
      cases swap <;> rfl
    rw [first]
    cases swap <;> decide
  refine ⟨⟨_, swap⟩, ?_, rfl, left⟩
  have different : pcapMagicSwap ≠ pcapMagic := by decide
  cases swap <;> simp [pcapSourceOpen, read, length, magic, different]

theorem pcapSourceOpen_file (swap : Bool) (h : PcapHeader) (records : List PcapRecord) :
    ∃ ps, pcapSourceOpen (pcapFile swap h records) = some ps ∧ ps.swapped = swap ∧
      ps.f.rest = records.flatMap (PcapRecord.encode swap) :=
  pcapSourceOpen_header swap h (records.flatMap (PcapRecord.encode swap))

-- The reader stands before `records` of a file in byte order `swap`.
structure PcapSource.Before (ps : PcapSource) (swap : Bool) (records : List PcapRecord) : Prop where
  swapped : ps.swapped = swap
  rest : ps.f.rest = records.flatMap (PcapRecord.encode swap)

-- The reader stands before `records` and then before the bytes `tail`.
structure PcapSource.At (ps : PcapSource) (swap : Bool) (records : List PcapRecord) (tail : List UInt8) :
    Prop where
  swapped : ps.swapped = swap
  rest : ps.f.rest = records.flatMap (PcapRecord.encode swap) ++ tail

theorem PcapSource.before_iff_at {ps : PcapSource} {swap : Bool} {records : List PcapRecord} :
    ps.Before swap records ↔ ps.At swap records [] := by
  constructor
  · exact fun before => ⟨before.swapped, by rw [before.rest, List.append_nil]⟩
  · exact fun place => ⟨place.swapped, by rw [place.rest, List.append_nil]⟩

-- Lengths survive the conversion to `long`.
def LengthsFit (long : LongWidth) (records : List PcapRecord) : Prop :=
  long = .long64 ∨ ∀ r ∈ records, r.body.length < 2 ^ 31

theorem ofUInt32_incl {long : LongWidth} {r : PcapRecord}
    (fits : long = .long64 ∨ r.body.length < 2 ^ 31) : long.ofUInt32 r.incl = r.body.length := by
  have value := r.incl_toNat
  rcases ofUInt32_cases long r.incl with ⟨same, -⟩ | ⟨narrow, large, -⟩
  · rw [same, value]
  · rcases fits with wide | short
    · exact absurd (narrow.symm.trans wide) (by decide)
    · omega

section Reading

variable (long : LongWidth) (cap : Nat) {swap : Bool} {ps : PcapSource} {tail : List UInt8}

theorem pcapIteration_end (place : ps.At swap [] []) :
    ∃ ps', pcapIteration long cap ps = .inr (.eof, ps') ∧ ps'.At swap [] [] := by
  have empty : ps.f.rest = [] := place.rest
  have read : (ps.f.fread 16).1 = [] := by rw [Stream.fread, empty, List.take_nil]
  have left : (ps.f.fread 16).2.rest = [] := by
    simp [Stream.fread, empty]
  refine ⟨{ ps with f := (ps.f.fread 16).2 }, ?_, place.swapped, left⟩
  simp only [pcapIteration, read, List.length_nil, if_true]

-- A record header at the position, and what follows it.
theorem recordHeader (r : PcapRecord) {back : List UInt8} (swapped : ps.swapped = swap)
    (here : ps.f.rest = r.header swap ++ back) :
    (ps.f.fread 16).1 = r.header swap ∧ (ps.f.fread 16).1.length = 16 ∧ ps.incl = r.incl ∧
      (ps.f.fread 16).2.rest = back := by
  obtain ⟨header, body⟩ := Stream.fread_append here
  rw [r.header_length] at header body
  refine ⟨header, by rw [header, r.header_length], ?_, body⟩
  rw [PcapSource.incl, header, swapped, (r.header_fields swap).2.2]

theorem PcapSource.At.header (r : PcapRecord) (back : List PcapRecord)
    (place : ps.At swap (r :: back) tail) :
    (ps.f.fread 16).1 = r.header swap ∧ (ps.f.fread 16).1.length = 16 ∧ ps.incl = r.incl ∧
      (ps.f.fread 16).2.rest = r.body ++ (back.flatMap (PcapRecord.encode swap) ++ tail) := by
  apply recordHeader r place.swapped
  rw [place.rest, List.flatMap_cons, PcapRecord.encode, List.append_assoc, List.append_assoc]

theorem pcapIteration_record (r : PcapRecord) (back : List PcapRecord)
    (place : ps.At swap (r :: back) tail) (fits : r.body.length ≤ cap) :
    ∃ ps', pcapIteration long cap ps = .inr (r.outcome, ps') ∧ ps'.At swap back tail := by
  obtain ⟨header, full, incl, body⟩ := place.header r back
  obtain ⟨read, left⟩ := Stream.fread_append body
  obtain ⟨sec, usec, -⟩ := r.header_fields swap
  refine ⟨{ ps with f := ((ps.f.fread 16).2.fread r.body.length).2 }, ?_, place.swapped, left⟩
  rw [pcapIteration_header long cap full, incl, r.incl_toNat, if_neg (by omega)]
  simp only [read, if_true, header, place.swapped, sec, usec, PcapRecord.outcome]

theorem pcapIteration_skip (r : PcapRecord) (back : List PcapRecord)
    (place : ps.At swap (r :: back) tail) (large : cap < r.body.length)
    (fits : long = .long64 ∨ r.body.length < 2 ^ 31) :
    ∃ ps', pcapIteration long cap ps = .inl ps' ∧ ps'.At swap back tail := by
  obtain ⟨-, full, incl, body⟩ := place.header r back
  obtain ⟨f, seek, left⟩ := Stream.fseekCur_append body
  refine ⟨{ ps with f := f }, ?_, place.swapped, left⟩
  rw [pcapIteration_header long cap full, incl, r.incl_toNat, if_pos large, ofUInt32_incl fits, seek]

end Reading

/-- The first record that fits the buffer and what follows it. -/
def nextRecord (cap : Nat) : List PcapRecord → Option (PcapRecord × List PcapRecord)
  | [] => none
  | r :: rest => if r.body.length ≤ cap then some (r, rest) else nextRecord cap rest

def fitting (cap : Nat) (records : List PcapRecord) : List PcapRecord :=
  records.filter fun r => r.body.length ≤ cap

theorem fitting_nextRecord (cap : Nat) (records : List PcapRecord) :
    fitting cap records = match nextRecord cap records with
      | none => []
      | some (r, rest) => r :: fitting cap rest := by
  induction records with
  | nil => rfl
  | cons r rest ih =>
    by_cases fits : r.body.length ≤ cap
    · simp [fitting, nextRecord, fits]
    · simpa [fitting, nextRecord, fits] using ih

theorem nextRecord_shorter {cap : Nat} {records rest : List PcapRecord} {r : PcapRecord}
    (found : nextRecord cap records = some (r, rest)) :
    rest.length < records.length ∧ r ∈ records ∧ ∀ x ∈ rest, x ∈ records := by
  induction records with
  | nil => cases found
  | cons first back ih =>
    rw [nextRecord] at found
    split at found
    · obtain ⟨rfl, rfl⟩ := Prod.mk.inj (Option.some.inj found)
      exact ⟨by simp, by simp, fun x member => List.mem_cons_of_mem _ member⟩
    · obtain ⟨shorter, member, later⟩ := ih found
      exact ⟨by simp only [List.length_cons]; omega, List.mem_cons_of_mem _ member,
        fun x inside => List.mem_cons_of_mem _ (later x inside)⟩

theorem LengthsFit.of_mem {long : LongWidth} {left right : List PcapRecord}
    (fits : LengthsFit long left) (inside : ∀ r ∈ right, r ∈ left) : LengthsFit long right :=
  fits.imp id fun small r member => small r (inside r member)

theorem LengthsFit.at {long : LongWidth} {records : List PcapRecord} (fits : LengthsFit long records)
    {r : PcapRecord} (member : r ∈ records) : long = .long64 ∨ r.body.length < 2 ^ 31 :=
  fits.imp id fun small => small r member

-- A call skips to the next record that fits and returns it, or comes to stand before the tail.
theorem pcapSourceNext_at {long : LongWidth} (cap : Nat) {swap : Bool} {tail : List UInt8} (ps : PcapSource)
    (records : List PcapRecord) (place : ps.At swap records tail) (fits : LengthsFit long records)
    (fuel : Nat) :
    match nextRecord cap records with
    | none => ∃ ps', pcapSourceNext long cap (fuel + records.length) ps = pcapSourceNext long cap fuel ps' ∧
        ps'.At swap [] tail
    | some (r, rest) => ∃ ps', pcapSourceNext long cap (fuel + records.length) ps = some (r.outcome, ps') ∧
        ps'.At swap rest tail := by
  induction records generalizing ps with
  | nil => exact ⟨ps, rfl, place⟩
  | cons r back ih =>
    rw [List.length_cons, ← Nat.add_assoc]
    by_cases small : r.body.length ≤ cap
    · obtain ⟨ps', leaves, next⟩ := pcapIteration_record long cap r back place small
      simp only [nextRecord, if_pos small]
      exact ⟨ps', loop_leave (congrArg some leaves) _, next⟩
    · obtain ⟨ps', goes, next⟩ := pcapIteration_skip long cap r back place (not_le.mp small)
        (fits.at (by simp))
      have later := ih ps' next (fits.of_mem fun x => List.mem_cons_of_mem r)
      have skip : pcapSourceNext long cap (fuel + back.length + 1) ps =
          pcapSourceNext long cap (fuel + back.length) ps' := loop_continue (congrArg some goes) _
      simp only [nextRecord, if_neg small, skip]
      exact later

/-- A call skips to the next record that fits and returns it, or the end of the file. -/
theorem pcapSourceNext_before {long : LongWidth} (cap : Nat) {swap : Bool} (ps : PcapSource)
    (records : List PcapRecord) (before : ps.Before swap records) (fits : LengthsFit long records)
    (fuel : Nat) (enough : records.length < fuel) :
    match nextRecord cap records with
    | none => ∃ ps', pcapSourceNext long cap fuel ps = some (.eof, ps') ∧ ps'.Before swap []
    | some (r, rest) => ∃ ps', pcapSourceNext long cap fuel ps = some (r.outcome, ps') ∧
        ps'.Before swap rest := by
  obtain ⟨spare, rfl⟩ : ∃ spare, fuel = spare + 1 + records.length := ⟨fuel - 1 - records.length, by omega⟩
  have called := pcapSourceNext_at cap ps records (PcapSource.before_iff_at.mp before) fits (spare + 1)
  cases found : nextRecord cap records with
  | none =>
    simp only [found] at called
    obtain ⟨middle, skipped, place⟩ := called
    obtain ⟨ps', leaves, next⟩ := pcapIteration_end long cap place
    exact ⟨ps', skipped.trans (loop_leave (congrArg some leaves) spare), PcapSource.before_iff_at.mpr next⟩
  | some found' =>
    simp only [found] at called
    obtain ⟨ps', here, next⟩ := called
    exact ⟨ps', here, PcapSource.before_iff_at.mpr next⟩

theorem pcapSourceNext_mono {long : LongWidth} {cap fuel more : Nat} (le : fuel ≤ more)
    {ps : PcapSource} {r : PcapOutcome × PcapSource} (done : pcapSourceNext long cap fuel ps = some r) :
    pcapSourceNext long cap more ps = some r :=
  loop_mono (fun _ _ same => same) le done

theorem pcapSourceNext_unique {long : LongWidth} {cap fuel fuel' : Nat} {ps : PcapSource}
    {r r' : PcapOutcome × PcapSource} (left : pcapSourceNext long cap fuel ps = some r)
    (right : pcapSourceNext long cap fuel' ps = some r') : r = r' := by
  have left' := pcapSourceNext_mono (Nat.le_max_left fuel fuel') left
  have right' := pcapSourceNext_mono (Nat.le_max_right fuel fuel') right
  exact Option.some.inj (left'.symm.trans right')

theorem readTurn_mono {stops : Int → Bool} {long : LongWidth} {cap fuel more : Nat} (le : fuel ≤ more)
    {st : List (List UInt8) × PcapSource}
    {next : (List (List UInt8) × PcapSource) ⊕ (List (List UInt8) × PcapSource)}
    (done : readTurn stops long cap fuel st = some next) :
    readTurn stops long cap more st = some next := by
  cases called : pcapSourceNext long cap fuel st.2 with
  | none => simp [readTurn, called] at done
  | some r =>
    rw [← done, readTurn, readTurn, called, pcapSourceNext_mono le called]

theorem readLoop_mono {stops : Int → Bool} {long : LongWidth} {cap fuel more : Nat} (le : fuel ≤ more)
    {st r : List (List UInt8) × PcapSource}
    (done : loop (readTurn stops long cap fuel) fuel st = some r) :
    loop (readTurn stops long cap more) more st = some r :=
  loop_mono (fun _ _ turn => readTurn_mono le turn) le done

theorem readFrames_unique {stops : Int → Bool} {long : LongWidth} {cap fuel fuel' : Nat}
    {ps : PcapSource} {r r' : List (List UInt8) × PcapSource}
    (left : readFrames stops long cap fuel ps = some r)
    (right : readFrames stops long cap fuel' ps = some r') : r = r' := by
  have left' := readLoop_mono (Nat.le_max_left fuel fuel') left
  have right' := readLoop_mono (Nat.le_max_right fuel fuel') right
  exact Option.some.inj (left'.symm.trans right')

/-- Any number of calls gives `outcomes` and then the end of the file. -/
def Yields (long : LongWidth) (cap : Nat) (ps : PcapSource) (outcomes : List PcapOutcome) : Prop :=
  ∀ calls, ∃ fuel ps', pcapCalls long cap fuel calls ps =
    some ((outcomes ++ List.replicate calls PcapOutcome.eof).take calls, ps')

theorem Yields.next {long : LongWidth} {cap : Nat} {ps : PcapSource} {outcomes : List PcapOutcome}
    (yields : Yields long cap ps outcomes) :
    ∃ fuel ps', pcapSourceNext long cap fuel ps = some (outcomes.headD .eof, ps') := by
  obtain ⟨fuel, last, called⟩ := yields 1
  cases first : pcapSourceNext long cap fuel ps with
  | none => simp [pcapCalls, first] at called
  | some r =>
    have same : r.1 = outcomes.headD .eof := by
      have lists := congrArg (Option.map Prod.fst) called
      cases outcomes <;> simpa [pcapCalls, first] using lists
    exact ⟨fuel, r.2, by rw [first, ← same]⟩

theorem Yields.tail {long : LongWidth} {cap fuel : Nat} {ps ps' : PcapSource} {outcome first : PcapOutcome}
    {outcomes : List PcapOutcome} (yields : Yields long cap ps (outcome :: outcomes))
    (called : pcapSourceNext long cap fuel ps = some (first, ps')) : Yields long cap ps' outcomes := by
  intro calls
  obtain ⟨fuel', last, all⟩ := yields (calls + 1)
  rw [pcapCalls] at all
  cases again : pcapSourceNext long cap fuel' ps with
  | none => simp [again] at all
  | some r =>
    obtain ⟨-, rfl⟩ := Prod.mk.inj (pcapSourceNext_unique called again)
    cases later : pcapCalls long cap fuel' calls r.2 with
    | none => simp [again, later] at all
    | some rest =>
      have same : r.1 = outcome ∧
          rest.1 = (outcomes ++ List.replicate (calls + 1) PcapOutcome.eof).take calls := by
        have lists := congrArg (Option.map Prod.fst) all
        simpa [again, later] using lists
      refine ⟨fuel', rest.2, later.trans ?_⟩
      rw [← Prod.mk.eta (p := rest), same.2, List.replicate_succ', ← List.append_assoc,
        List.take_append_of_le_length (by simp)]

-- The frames a caller's loop processes when the calls give `outcomes` and then the end.
def processed (stops : Int → Bool) (long : LongWidth) (outcomes : List PcapOutcome) : List (List UInt8) :=
  ((outcomes.takeWhile fun o => !stops (o.ret long)).filter fun o => 0 < o.ret long).map PcapOutcome.buf

theorem readLoop_yields (stops : Int → Bool) {long : LongWidth} {cap : Nat} (atEof : stops 0 = true)
    (outcomes : List PcapOutcome) (frames : List (List UInt8)) (ps : PcapSource)
    (yields : Yields long cap ps outcomes) :
    ∃ fuel ps', loop (readTurn stops long cap fuel) fuel (frames, ps) =
      some (frames ++ processed stops long outcomes, ps') := by
  induction outcomes generalizing frames ps with
  | nil =>
    obtain ⟨fuel, ps', called⟩ := yields.next
    have more := pcapSourceNext_mono (Nat.le_succ fuel) called
    refine ⟨fuel + 1, ps', loop_leave ?_ fuel⟩
    simp [readTurn, more, PcapOutcome.ret, atEof, processed]
  | cons outcome back ih =>
    obtain ⟨fuel, ps', called⟩ := yields.next
    rw [List.headD_cons] at called
    cases stop : stops (outcome.ret long) with
    | true =>
      have more := pcapSourceNext_mono (Nat.le_succ fuel) called
      refine ⟨fuel + 1, ps', loop_leave ?_ fuel⟩
      simp [readTurn, more, stop, processed]
    | false =>
      have keeps : processed stops long (outcome :: back) =
          (if 0 < outcome.ret long then [outcome.buf] else []) ++ processed stops long back := by
        by_cases positive : 0 < outcome.ret long <;> simp [processed, stop, positive]
      obtain ⟨fuel', last, later⟩ :=
        ih (frames ++ if 0 < outcome.ret long then [outcome.buf] else []) ps' (yields.tail called)
      have more := pcapSourceNext_mono (show fuel ≤ max fuel fuel' + 1 by omega) called
      have rest := readLoop_mono (show fuel' ≤ max fuel fuel' by omega) later
      refine ⟨max fuel fuel' + 1, last, ?_⟩
      have wider := loop_mono (fun _ _ turn => readTurn_mono (Nat.le_succ _) turn) le_rfl rest
      rw [keeps, ← List.append_assoc, ← wider]
      refine loop_continue ?_ _
      by_cases positive : 0 < outcome.ret long <;> simp [readTurn, more, stop, positive]

theorem yields_before {long : LongWidth} (cap : Nat) {swap : Bool} (ps : PcapSource)
    (records : List PcapRecord) (before : ps.Before swap records) (fits : LengthsFit long records)
    (calls fuel : Nat) (enough : records.length < fuel) :
    ∃ ps', pcapCalls long cap fuel calls ps = some
      (((fitting cap records).map PcapRecord.outcome ++ List.replicate calls PcapOutcome.eof).take calls,
        ps') := by
  induction calls generalizing ps records with
  | zero => exact ⟨ps, rfl⟩
  | succ calls ih =>
    have called := pcapSourceNext_before cap ps records before fits fuel enough
    rw [fitting_nextRecord]
    cases found : nextRecord cap records with
    | none =>
      simp only [found] at called
      obtain ⟨ps', here, next⟩ := called
      obtain ⟨last, later⟩ := ih ps' [] next (fits.of_mem (by simp)) (by simp; omega)
      refine ⟨last, ?_⟩
      simp [pcapCalls, here, later, fitting, List.replicate_succ]
    | some found' =>
      obtain ⟨r, rest⟩ := found'
      simp only [found] at called
      obtain ⟨ps', here, next⟩ := called
      obtain ⟨shorter, -, inside⟩ := nextRecord_shorter found
      obtain ⟨last, later⟩ := ih ps' rest next (fits.of_mem inside) (by omega)
      refine ⟨last, ?_⟩
      simp [pcapCalls, here, later, List.replicate_succ', ← List.append_assoc, List.take_append]

/-- No empty record comes before a non-empty one. -/
def FramesFirst (records : List PcapRecord) : Prop :=
  records.Pairwise fun early late => early.body = [] → late.body = []

-- The non-empty records that fit the buffer.
def frames (cap : Nat) (records : List PcapRecord) : List (List UInt8) :=
  ((fitting cap records).filter fun r => r.body ≠ []).map PcapRecord.body

theorem PcapRecord.outcome_ret {long : LongWidth} {r : PcapRecord}
    (fits : long = .long64 ∨ r.body.length < 2 ^ 31) : r.outcome.ret long = r.body.length :=
  ofUInt32_incl fits

theorem PcapRecord.fits_of_ret {long : LongWidth} {r : PcapRecord} (positive : 0 < r.outcome.ret long) :
    r.body ≠ [] ∧ (long = .long64 ∨ r.body.length < 2 ^ 31) := by
  have value := r.incl_toNat
  have bound := r.short
  change 0 < long.ofUInt32 r.incl at positive
  rw [← List.length_pos_iff]
  rcases ofUInt32_cases long r.incl with ⟨same, fits⟩ | ⟨-, large, wraps⟩
  · exact ⟨by omega, by rwa [value] at fits⟩
  · omega

/-- What follows the first return that stops the loop is lost, so it must be empty. -/
theorem framesFirst_of_processed {long : LongWidth} {records : List PcapRecord}
    (all : processed (fun n => !decide (n > 0)) long (records.map PcapRecord.outcome) =
      (records.filter fun r => r.body ≠ []).map PcapRecord.body) :
    FramesFirst records ∧ LengthsFit long records := by
  induction records with
  | nil => exact ⟨List.Pairwise.nil, .inr (by simp)⟩
  | cons r back ih =>
    by_cases positive : 0 < r.outcome.ret long
    · obtain ⟨nonempty, short⟩ := PcapRecord.fits_of_ret positive
      have same : r.outcome.buf = r.body := rfl
      have later : processed (fun n => !decide (n > 0)) long (back.map PcapRecord.outcome) =
          (back.filter fun r => r.body ≠ []).map PcapRecord.body := by
        simpa [processed, positive, nonempty, same] using all
      obtain ⟨first, fits⟩ := ih later
      refine ⟨List.pairwise_cons.mpr ⟨fun _ _ empty => absurd empty nonempty, first⟩, ?_⟩
      rcases short with wide | short
      · exact .inl wide
      · exact fits.imp id fun small => List.forall_mem_cons.mpr ⟨short, small⟩
    · have stopped :
          processed (fun n => !decide (n > 0)) long ((r :: back).map PcapRecord.outcome) = [] := by
        simp [processed, positive]
      have none : ∀ x ∈ r :: back, x.body = [] := by
        have none := List.map_eq_nil_iff.mp (all.symm.trans stopped)
        simpa [List.filter_eq_nil_iff] using none
      refine ⟨List.pairwise_of_forall_mem_list fun _ _ late member _ => none late member, .inr ?_⟩
      intro x member
      simp [none x member]

theorem FramesFirst.processed {long : LongWidth} {stops : Int → Bool} {records : List PcapRecord}
    (first : FramesFirst records) (fits : LengthsFit long records)
    (stopsAt : ∀ n : Nat, stops n = decide (n = 0)) :
    processed stops long (records.map PcapRecord.outcome) =
      (records.filter fun r => r.body ≠ []).map PcapRecord.body := by
  induction records with
  | nil => rfl
  | cons r back ih =>
    obtain ⟨after, later⟩ := List.pairwise_cons.mp first
    have ret := PcapRecord.outcome_ret (fits.at (List.mem_cons_self))
    have rest := ih later (fits.of_mem fun x => List.mem_cons_of_mem r)
    have same : r.outcome.buf = r.body := rfl
    by_cases empty : r.body = []
    · have none : ∀ x ∈ back, x.body = [] := fun late member => after late member empty
      have zero : stops 0 = true := by simpa using stopsAt 0
      have left : ReacAes67.processed stops long ((r :: back).map PcapRecord.outcome) = [] := by
        simp [ReacAes67.processed, ret, empty, zero]
      have right : (r :: back).filter (fun r => r.body ≠ []) = [] := by
        simpa [List.filter_eq_nil_iff, empty] using none
      rw [left, right, List.map_nil]
    · have some : stops r.body.length = false := by simpa [empty] using stopsAt r.body.length
      have positive : 0 < r.body.length := List.length_pos_iff.mpr empty
      simpa [ReacAes67.processed, ret, empty, some, positive, same] using rest

/-- The calls deliver the records that fit and the callers' loops process every frame of the file. -/
structure ReplayComplete (long : LongWidth) (cap : Nat) (header : PcapHeader) (records : List PcapRecord) :
    Prop where
  calls : ∀ calls, ∃ fuel, ∀ swap, ∃ ps ps',
    pcapSourceOpen (pcapFile swap header records) = some ps ∧
      pcapCalls long cap fuel calls ps = some
        (((fitting cap records).map PcapRecord.outcome ++ List.replicate calls PcapOutcome.eof).take calls,
          ps')
  whileLoop : ∀ swap, ∃ fuel ps ps', pcapSourceOpen (pcapFile swap header records) = some ps ∧
    pcapWhile long cap fuel ps = some (frames cap records, ps')
  rxLoop : ∀ swap, ∃ fuel ps ps', pcapSourceOpen (pcapFile swap header records) = some ps ∧
    rxPass long cap fuel ps = some (frames cap records, ps')

section Replay

variable {long : LongWidth} {cap : Nat} {header : PcapHeader} {records : List PcapRecord}

theorem replayComplete_of_framesFirst (fits : LengthsFit long records)
    (first : FramesFirst (fitting cap records)) : ReplayComplete long cap header records := by
  have inside : ∀ r ∈ fitting cap records, r ∈ records := fun r member => (List.mem_filter.mp member).1
  have loops : ∀ (stops : Int → Bool) (_ : ∀ n : Nat, stops n = decide (n = 0)) (swap : Bool),
      ∃ fuel ps ps', pcapSourceOpen (pcapFile swap header records) = some ps ∧
        readFrames stops long cap fuel ps = some (frames cap records, ps') := by
    intro stops stopsAt swap
    obtain ⟨ps, opened, swapped, rest⟩ := pcapSourceOpen_file swap header records
    have yields : Yields long cap ps ((fitting cap records).map PcapRecord.outcome) := fun calls =>
      ⟨records.length + 1, yields_before cap ps records ⟨swapped, rest⟩ fits calls _ (Nat.lt_succ_self _)⟩
    obtain ⟨fuel, ps', read⟩ := readLoop_yields stops (by simpa using stopsAt 0) _ [] ps yields
    refine ⟨fuel, ps, ps', opened, read.trans ?_⟩
    rw [List.nil_append, first.processed (fits.of_mem inside) stopsAt, frames]
  refine ⟨fun calls => ⟨records.length + 1, fun swap => ?_⟩, loops (fun n => !decide (n > 0)) ?_,
    loops (fun n => n == 0) ?_⟩
  · obtain ⟨ps, opened, swapped, rest⟩ := pcapSourceOpen_file swap header records
    obtain ⟨ps', called⟩ :=
      yields_before cap ps records ⟨swapped, rest⟩ fits calls _ (Nat.lt_succ_self _)
    exact ⟨ps, ps', opened, called⟩
  · intro n
    simp [Nat.pos_iff_ne_zero]
  · intro n
    rw [beq_eq_decide]
    simp

theorem ReplayComplete.framesFirst (complete : ReplayComplete long cap header records) :
    FramesFirst (fitting cap records) ∧ LengthsFit long (fitting cap records) := by
  obtain ⟨fuel, ps, ps', opened, read⟩ := complete.whileLoop false
  have yields : Yields long cap ps ((fitting cap records).map PcapRecord.outcome) := by
    intro calls
    obtain ⟨fuel', called⟩ := complete.calls calls
    obtain ⟨again, last, opened', outcomes⟩ := called false
    obtain rfl : ps = again := Option.some.inj (opened.symm.trans opened')
    exact ⟨fuel', last, outcomes⟩
  obtain ⟨fuel', last, read'⟩ :=
    readLoop_yields (fun n => !decide (n > 0)) (by simp) _ [] ps yields
  have same := congrArg Prod.fst (readFrames_unique read' read)
  exact framesFirst_of_processed (by simpa [frames] using same)

end Replay

theorem pcapReplay_complete (long : LongWidth) (cap : Nat) (header : PcapHeader)
    (records : List PcapRecord) :
    (ReplayComplete long cap header records →
        FramesFirst (fitting cap records) ∧ LengthsFit long (fitting cap records)) ∧
      (FramesFirst (fitting cap records) → LengthsFit long records →
        ReplayComplete long cap header records) :=
  ⟨ReplayComplete.framesFirst, fun first fits => replayComplete_of_framesFirst fits first⟩

def captureHeader : PcapHeader := ⟨2, 4, 0, 0, 65535, 1⟩

-- Two frames with one between them that the buffer does not hold, and an empty record at the end.
def framesBeforeEmpty : List PcapRecord :=
  [⟨1, 0, 64, List.replicate 64 1, by decide⟩, ⟨1, 250, 3000, List.replicate 100 2, by decide⟩,
    ⟨1, 500, 60, List.replicate 60 3, by decide⟩, ⟨1, 750, 0, [], by decide⟩]

theorem pcapReplay_complete_twoFrames :
    ReplayComplete .long32 80 captureHeader framesBeforeEmpty ∧
      frames 80 framesBeforeEmpty = [List.replicate 64 1, List.replicate 60 3] := by
  constructor
  next =>
    exact (pcapReplay_complete .long32 80 captureHeader framesBeforeEmpty).2
      (by simp [FramesFirst, fitting, framesBeforeEmpty]) (.inr (by simp [framesBeforeEmpty]))
  next => decide

-- An empty record before a frame of 64 bytes.
def emptyBeforeFrame : List PcapRecord :=
  [⟨0, 0, 0, [], by decide⟩, ⟨0, 0, 64, List.replicate 64 0, by decide⟩]

theorem pcapReplay_not_complete : ¬ ReplayComplete .long64 2048 captureHeader emptyBeforeFrame := by
  intro complete
  have first := complete.framesFirst.1
  have fit : fitting 2048 emptyBeforeFrame = emptyBeforeFrame := by
    simp [fitting, emptyBeforeFrame]
  rw [fit] at first
  simp [FramesFirst, emptyBeforeFrame] at first

end ReacAes67
