import ReacAes67.PcapReplay

set_option autoImplicit false

/-!
# Cut captures

A capture file that ends early should give its complete records and then an
error, unless it ends between two records. The reader notices missing bytes
where it reads them, but not where it seeks over them.
-/

namespace ReacAes67

open FileStream BoundedLoop

/-- Where the end of a cut file lies. -/
inductive CutPlace where
  | boundary
  | header
  | body (r : PcapRecord)

-- The complete records before a cut `k` bytes behind the global header, and the place of the cut.
def cutAt : List PcapRecord → Nat → List PcapRecord × CutPlace
  | [], _ => ([], .boundary)
  | r :: back, k =>
    if 16 + r.body.length ≤ k then
      let rest := cutAt back (k - (16 + r.body.length))
      (r :: rest.1, rest.2)
    else if k = 0 then ([], .boundary)
    else if k < 16 then ([], .header)
    else ([], .body r)

-- The record whose body is cut.
def CutPlace.cutRecord : CutPlace → List PcapRecord
  | .boundary => []
  | .header => []
  | .body r => [r]

def CutPlace.verdict : CutPlace → PcapOutcome
  | .boundary => .eof
  | .header => .error
  | .body _ => .error

-- The verdict the reader gives: it seeks over the body of a record that is too long.
def CutPlace.seen (cap : Nat) : CutPlace → PcapOutcome
  | .boundary => .eof
  | .header => .error
  | .body r => if cap < r.body.length then .eof else .error

/-- The reader delivers the complete records that fit and then tells the end of the file from a cut. -/
def CutReported (long : LongWidth) (cap : Nat) (swap : Bool) (header : PcapHeader)
    (records : List PcapRecord) (k : Nat) : Prop :=
  let cut := cutAt records k
  ∃ fuel ps ps', pcapSourceOpen ((pcapFile swap header records).take (24 + k)) = some ps ∧
    pcapCalls long cap fuel ((fitting cap cut.1).length + 1) ps =
      some ((fitting cap cut.1).map PcapRecord.outcome ++ [cut.2.verdict], ps')

/-- What lies between the last complete record and the end of the file. -/
def CutPlace.Leaves (swap : Bool) : CutPlace → List UInt8 → Prop
  | .boundary, tail => tail = []
  | .header, tail => 0 < tail.length ∧ tail.length < 16
  | .body r, tail => ∃ part, tail = r.header swap ++ part ∧ part.length < r.body.length

theorem PcapRecord.encode_length (swap : Bool) (r : PcapRecord) :
    (r.encode swap).length = 16 + r.body.length := by
  rw [PcapRecord.encode, List.length_append, r.header_length]

theorem cutAt_take (swap : Bool) (records : List PcapRecord) (k : Nat) :
    ∃ tail, (records.flatMap (PcapRecord.encode swap)).take k =
        (cutAt records k).1.flatMap (PcapRecord.encode swap) ++ tail ∧
      (cutAt records k).2.Leaves swap tail := by
  induction records generalizing k with
  | nil => exact ⟨[], by simp [cutAt], rfl⟩
  | cons r back ih =>
    have size := r.encode_length swap
    rw [List.flatMap_cons]
    by_cases whole : 16 + r.body.length ≤ k
    next =>
      obtain ⟨tail, taken, leaves⟩ := ih (k - (16 + r.body.length))
      refine ⟨tail, ?_, by simpa [cutAt, whole] using leaves⟩
      rw [List.take_append, List.take_of_length_le (by omega), size, taken]
      simp [cutAt, whole]
    next =>
      refine ⟨(r.encode swap).take k, ?_, ?_⟩
      · rw [List.take_append_of_le_length (by omega)]
        simp only [cutAt, whole, if_false]
        split <;> [rfl; split <;> rfl]
      · simp only [cutAt, whole, if_false]
        split
        next zero => simp [zero, CutPlace.Leaves]
        next more =>
          split
          next inHeader =>
            simp only [CutPlace.Leaves, List.length_take, size]
            omega
          next inBody =>
            refine ⟨r.body.take (k - 16), ?_, ?_⟩
            · rw [PcapRecord.encode, List.take_append, r.header_length,
                List.take_of_length_le (by rw [r.header_length]; omega)]
            · rw [List.length_take]
              omega

section Tail

variable {long : LongWidth} {cap : Nat} {swap : Bool} {ps : PcapSource}

theorem pcapIteration_shortHeader {tail : List UInt8} (place : ps.At swap [] tail) (some : 0 < tail.length)
    (short : tail.length < 16) : ∃ ps', pcapIteration long cap ps = .inr (.error, ps') := by
  have here : ps.f.rest = tail := place.rest
  have read : (ps.f.fread 16).1 = tail := by
    rw [Stream.fread, here, List.take_of_length_le (by omega)]
  refine ⟨{ ps with f := (ps.f.fread 16).2 }, ?_⟩
  simp only [pcapIteration, read]
  rw [if_neg (by omega), if_pos (by omega)]

theorem pcapIteration_shortBody (r : PcapRecord) {part : List UInt8}
    (place : ps.At swap [] (r.header swap ++ part)) (short : part.length < r.body.length)
    (small : r.body.length ≤ cap) : ∃ ps', pcapIteration long cap ps = .inr (.error, ps') := by
  obtain ⟨-, full, incl, body⟩ := recordHeader r place.swapped place.rest
  have missing : ((ps.f.fread 16).2.fread r.body.length).1.length ≠ r.body.length := by
    rw [Stream.fread, body, List.length_take]
    omega
  rw [pcapIteration_header long cap full, incl, r.incl_toNat, if_neg (by omega)]
  simp only [missing, if_false]
  exact ⟨_, rfl⟩

-- The seek ends beyond the end of the file, where the next turn reads nothing.
theorem pcapIteration_shortSkip (r : PcapRecord) {part : List UInt8}
    (place : ps.At swap [] (r.header swap ++ part)) (short : part.length < r.body.length)
    (large : cap < r.body.length) (fits : long = .long64 ∨ r.body.length < 2 ^ 31) :
    ∃ ps', pcapIteration long cap ps = .inl ps' ∧ ps'.At swap [] [] := by
  obtain ⟨-, full, incl, body⟩ := recordHeader r place.swapped place.rest
  rw [pcapIteration_header long cap full, incl, r.incl_toNat, if_pos large, ofUInt32_incl fits,
    Stream.fseekCur_forward]
  refine ⟨_, rfl, place.swapped, ?_⟩
  rw [Stream.rest_skip, body]
  exact List.drop_of_length_le short.le

theorem pcapSourceNext_tail {tail : List UInt8} (place : ps.At swap [] tail) {cut : CutPlace}
    (leaves : cut.Leaves swap tail)
    (fits : ∀ r, cut = .body r → long = .long64 ∨ r.body.length < 2 ^ 31) :
    ∃ ps', pcapSourceNext long cap 2 ps = some (cut.seen cap, ps') := by
  cases cut with
  | boundary =>
    obtain rfl : tail = [] := leaves
    obtain ⟨ps', leave, -⟩ := pcapIteration_end long cap place
    exact ⟨ps', loop_leave (congrArg some leave) 1⟩
  | header =>
    obtain ⟨ps', leave⟩ := pcapIteration_shortHeader place leaves.1 leaves.2
    exact ⟨ps', loop_leave (congrArg some leave) 1⟩
  | body r =>
    obtain ⟨part, rfl, short⟩ := leaves
    by_cases large : cap < r.body.length
    next =>
      obtain ⟨middle, skip, next⟩ := pcapIteration_shortSkip r place short large (fits r rfl)
      obtain ⟨ps', leave, -⟩ := pcapIteration_end long cap next
      have skipped : pcapSourceNext long cap 2 ps = pcapSourceNext long cap 1 middle :=
        loop_continue (congrArg some skip) 1
      refine ⟨ps', ?_⟩
      rw [CutPlace.seen, if_pos large, skipped]
      exact loop_leave (congrArg some leave) 0
    next =>
      obtain ⟨ps', leave⟩ := pcapIteration_shortBody r place short (Nat.not_lt.mp large)
      refine ⟨ps', ?_⟩
      rw [CutPlace.seen, if_neg large]
      exact loop_leave (congrArg some leave) 1

end Tail

-- The complete records that fit come first, one a call; the next call comes to the tail.
theorem pcapCalls_at {long : LongWidth} {cap : Nat} {swap : Bool} {tail : List UInt8} {cut : CutPlace}
    (leaves : cut.Leaves swap tail)
    (cutFits : ∀ r, cut = .body r → long = .long64 ∨ r.body.length < 2 ^ 31) (n : Nat) {fuel : Nat}
    {ps : PcapSource} {records : List PcapRecord} (count : (fitting cap records).length = n)
    (place : ps.At swap records tail) (fits : LengthsFit long records)
    (enough : records.length + 2 ≤ fuel) :
    ∃ ps', pcapCalls long cap fuel (n + 1) ps =
      some ((fitting cap records).map PcapRecord.outcome ++ [cut.seen cap], ps') := by
  induction n generalizing ps records with
  | zero =>
    obtain ⟨spare, rfl⟩ : ∃ spare, fuel = spare + 2 + records.length := ⟨fuel - 2 - records.length, by omega⟩
    have called := pcapSourceNext_at cap ps records place fits (spare + 2)
    have none : fitting cap records = [] := List.length_eq_zero_iff.mp count
    cases found : nextRecord cap records with
    | some found' =>
      rw [fitting_nextRecord, found] at none
      cases none
    | none =>
      simp only [found] at called
      obtain ⟨middle, skipped, next⟩ := called
      obtain ⟨ps', last⟩ : ∃ ps', pcapSourceNext long cap 2 middle = some (cut.seen cap, ps') :=
        pcapSourceNext_tail next leaves cutFits
      have more := pcapSourceNext_mono (Nat.le_add_left 2 spare) last
      exact ⟨ps', by simp [pcapCalls, skipped, more, none]⟩
  | succ n ih =>
    obtain ⟨spare, rfl⟩ : ∃ spare, fuel = spare + records.length := ⟨fuel - records.length, by omega⟩
    have called := pcapSourceNext_at cap ps records place fits spare
    rw [fitting_nextRecord] at count ⊢
    cases found : nextRecord cap records with
    | none =>
      rw [found] at count
      cases count
    | some found' =>
      obtain ⟨r, rest⟩ := found'
      simp only [found] at called count ⊢
      obtain ⟨middle, here, next⟩ := called
      obtain ⟨shorter, -, inside⟩ := nextRecord_shorter found
      obtain ⟨ps', later⟩ := ih (Nat.succ.inj count) next (fits.of_mem inside) (by omega)
      refine ⟨ps', ?_⟩
      rw [pcapCalls, here]
      simp only [Option.bind_eq_bind, Option.bind_some, later]
      rfl

theorem pcapSourceOpen_cut (swap : Bool) (header : PcapHeader) (records : List PcapRecord) (k : Nat) :
    ∃ ps, pcapSourceOpen ((pcapFile swap header records).take (24 + k)) = some ps ∧ ps.swapped = swap ∧
      ps.f.rest = (records.flatMap (PcapRecord.encode swap)).take k := by
  have kept : (pcapFile swap header records).take (24 + k) =
      header.encode swap ++ (records.flatMap (PcapRecord.encode swap)).take k := by
    rw [pcapFile, List.take_append, header.encode_length,
      List.take_of_length_le (by rw [header.encode_length]; omega), Nat.add_sub_cancel_left]
  rw [kept]
  exact pcapSourceOpen_header swap header _

theorem cutFile_calls {long : LongWidth} {records : List PcapRecord} {k : Nat}
    (fits : LengthsFit long ((cutAt records k).1 ++ (cutAt records k).2.cutRecord)) (cap : Nat) (swap : Bool)
    (header : PcapHeader) :
    let cut := cutAt records k
    ∃ fuel ps ps', pcapSourceOpen ((pcapFile swap header records).take (24 + k)) = some ps ∧
      pcapCalls long cap fuel ((fitting cap cut.1).length + 1) ps =
        some ((fitting cap cut.1).map PcapRecord.outcome ++ [cut.2.seen cap], ps') := by
  intro cut
  obtain ⟨tail, taken, leaves⟩ := cutAt_take swap records k
  obtain ⟨ps, opened, swapped, rest⟩ := pcapSourceOpen_cut swap header records k
  have whole : LengthsFit long cut.1 := fits.of_mem fun r member => List.mem_append_left _ member
  have last (r : PcapRecord) (inBody : cut.2 = .body r) : long = .long64 ∨ r.body.length < 2 ^ 31 := by
    refine fits.at (List.mem_append_right _ ?_)
    rw [show (cutAt records k).2 = .body r from inBody]
    exact List.mem_singleton_self r
  obtain ⟨ps', called⟩ := pcapCalls_at leaves last _ rfl ⟨swapped, rest.trans taken⟩ whole (Nat.le_refl _)
  exact ⟨_, ps, ps', opened, called⟩

theorem pcapCalls_mono {long : LongWidth} {cap fuel more : Nat} (le : fuel ≤ more) {calls : Nat}
    {ps : PcapSource} {result : List PcapOutcome × PcapSource}
    (done : pcapCalls long cap fuel calls ps = some result) :
    pcapCalls long cap more calls ps = some result := by
  induction calls generalizing ps result with
  | zero => exact done
  | succ calls ih =>
    rw [pcapCalls] at done ⊢
    cases first : pcapSourceNext long cap fuel ps with
    | none => simp [first] at done
    | some next =>
      cases later : pcapCalls long cap fuel calls next.2 with
      | none => simp [first, later] at done
      | some rest =>
        rw [← done, first, pcapSourceNext_mono le first]
        simp [later, ih later]

theorem pcapCalls_unique {long : LongWidth} {cap fuel fuel' calls : Nat} {ps : PcapSource}
    {r r' : List PcapOutcome × PcapSource} (left : pcapCalls long cap fuel calls ps = some r)
    (right : pcapCalls long cap fuel' calls ps = some r') : r = r' := by
  have left' := pcapCalls_mono (Nat.le_max_left fuel fuel') left
  have right' := pcapCalls_mono (Nat.le_max_right fuel fuel') right
  exact Option.some.inj (left'.symm.trans right')

theorem cutReported_seen {long : LongWidth} {records : List PcapRecord} {k : Nat}
    (fits : LengthsFit long ((cutAt records k).1 ++ (cutAt records k).2.cutRecord)) {cap : Nat} {swap : Bool}
    {header : PcapHeader} :
    CutReported long cap swap header records k ↔
      (cutAt records k).2.seen cap = (cutAt records k).2.verdict := by
  obtain ⟨fuel, ps, ps', opened, called⟩ := cutFile_calls fits cap swap header
  constructor
  next =>
    rintro ⟨fuel', again, last, opened', called'⟩
    obtain rfl : ps = again := Option.some.inj (opened.symm.trans opened')
    have same := congrArg Prod.fst (pcapCalls_unique called called')
    exact List.singleton_inj.mp (List.append_cancel_left same)
  next =>
    intro same
    rw [same] at called
    exact ⟨fuel, ps, ps', opened, called⟩

theorem seen_eq_verdict_iff (cap : Nat) (cut : CutPlace) :
    cut.seen cap = cut.verdict ↔ ∀ r, cut = .body r → r.body.length ≤ cap := by
  cases cut with
  | boundary => simp [CutPlace.seen, CutPlace.verdict]
  | header => simp [CutPlace.seen, CutPlace.verdict]
  | body r =>
    by_cases large : cap < r.body.length
    next => simp [CutPlace.seen, CutPlace.verdict, large]
    next =>
      have small := Nat.not_lt.mp large
      simp [CutPlace.seen, CutPlace.verdict, small]

/-- A cut is reported exactly when it does not fall inside the body of a record longer than the buffer. -/
theorem cutReported_iff {long : LongWidth} {records : List PcapRecord} {k : Nat}
    (fits : LengthsFit long ((cutAt records k).1 ++ (cutAt records k).2.cutRecord)) (cap : Nat) (swap : Bool)
    (header : PcapHeader) :
    CutReported long cap swap header records k ↔
      ∀ r, (cutAt records k).2 = .body r → r.body.length ≤ cap :=
  (cutReported_seen fits).trans (seen_eq_verdict_iff cap _)

-- A jumbo packet of 4000 bytes that ends after 10.
def jumboRecord : PcapRecord := ⟨0, 0, 4000, List.replicate 4000 0, by rw [List.length_replicate]; omega⟩

theorem jumboRecord_length : jumboRecord.body.length = 4000 := List.length_replicate

theorem cutReported_jumbo : ¬ CutReported .long64 2048 false captureHeader [jumboRecord] 26 := by
  have inBody : (cutAt [jumboRecord] 26).2 = .body jumboRecord := by
    rw [cutAt, jumboRecord_length]
    rfl
  rw [cutReported_seen (.inl rfl), inBody, seen_eq_verdict_iff]
  intro small
  have short := small jumboRecord rfl
  rw [jumboRecord_length] at short
  omega

-- A record that a 32-bit `long` cannot hold the length of.
def hugeRecord : PcapRecord :=
  ⟨0, 0, 0, List.replicate (2 ^ 31) 0, by rw [List.length_replicate]; omega⟩

-- The jumbo packet cut inside its header, with the other record behind the cut.
theorem cutReported_jumboHeader :
    CutReported .long32 2048 false captureHeader [jumboRecord, hugeRecord] 10 := by
  have place : cutAt [jumboRecord, hugeRecord] 10 = ([], .header) := by
    rw [cutAt, jumboRecord_length]
    rfl
  have fits : LengthsFit .long32 ((cutAt [jumboRecord, hugeRecord] 10).1 ++
      (cutAt [jumboRecord, hugeRecord] 10).2.cutRecord) := by
    rw [place]
    exact .inr fun r member => absurd member List.not_mem_nil
  apply (cutReported_iff fits 2048 false captureHeader).mpr
  intro r inBody
  rw [place] at inBody
  cases inBody

end ReacAes67
