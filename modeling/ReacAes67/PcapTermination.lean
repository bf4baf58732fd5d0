import Mathlib.Logic.Relation
import ReacAes67.PcapSource

set_option autoImplicit false

/-!
# Progress of the pcap reader

Every turn of the reader moves the position forwards, except where a length does
not fit the C type `long` and the seek over an oversized frame goes backwards.
-/

namespace ReacAes67

open FileStream BoundedLoop Relation

/-- The states at the start of each turn, also when a caller goes on after the end or an error. -/
inductive PcapTurn (long : LongWidth) (cap : Nat) (ps ps' : PcapSource) : Prop where
  | skip (goes : pcapIteration long cap ps = .inl ps')
  | done (outcome : PcapOutcome) (leaves : pcapIteration long cap ps = .inr (outcome, ps'))

abbrev PcapReached (long : LongWidth) (cap : Nat) : PcapSource → PcapSource → Prop :=
  ReflTransGen (PcapTurn long cap)

def PcapSource.HasHeader (ps : PcapSource) : Prop := ps.f.pos + 16 ≤ ps.f.bytes.length

/-- The seek over the frame at the position does not move forwards. -/
structure SeeksBack (long : LongWidth) (cap : Nat) (ps : PcapSource) : Prop where
  narrow : long = .long32
  header : ps.HasHeader
  oversized : cap < ps.incl.toNat
  negative : 2 ^ 31 ≤ ps.incl.toNat
  backwards : ps.incl.toNat + 16 ≤ 2 ^ 32
  inside : 2 ^ 32 ≤ ps.f.pos + 16 + ps.incl.toNat

instance (long : LongWidth) (cap : Nat) (ps : PcapSource) : Decidable (SeeksBack long cap ps) :=
  decidable_of_iff (long = .long32 ∧ ps.f.pos + 16 ≤ ps.f.bytes.length ∧ cap < ps.incl.toNat ∧
      2 ^ 31 ≤ ps.incl.toNat ∧ ps.incl.toNat + 16 ≤ 2 ^ 32 ∧ 2 ^ 32 ≤ ps.f.pos + 16 + ps.incl.toNat)
    ⟨fun ⟨narrow, header, oversized, negative, backwards, inside⟩ =>
        ⟨narrow, header, oversized, negative, backwards, inside⟩,
      fun back => ⟨back.narrow, back.header, back.oversized, back.negative, back.backwards, back.inside⟩⟩

theorem header_length (ps : PcapSource) : (ps.f.fread 16).1.length = 16 ↔ ps.HasHeader := by
  rw [Stream.fread_length, PcapSource.HasHeader]
  omega

section Turn

variable {long : LongWidth} {cap : Nat} {ps ps' : PcapSource}

/-- A turn ends the reading, skips the frame at the position or reads it. -/
theorem pcapIteration_cases (long : LongWidth) (cap : Nat) (ps : PcapSource) :
    (∃ outcome ps', pcapIteration long cap ps = .inr (outcome, ps') ∧
        (outcome = .eof ∨ outcome = .error)) ∨
      (ps.HasHeader ∧ cap < ps.incl.toNat ∧ ∃ ps', pcapIteration long cap ps = .inl ps' ∧
        ps'.f.bytes = ps.f.bytes ∧ (ps'.f.pos : Int) = ps.f.pos + 16 + long.ofUInt32 ps.incl) ∨
      (ps.HasHeader ∧ ∃ buf ts ps', pcapIteration long cap ps = .inr (.record ps.incl buf ts, ps') ∧
        ps'.f.bytes = ps.f.bytes ∧ ps'.f.pos = ps.f.pos + 16 + ps.incl.toNat) := by
  by_cases full : (ps.f.fread 16).1.length = 16
  · have header := (header_length ps).mp full
    have moved : (ps.f.fread 16).2.pos = ps.f.pos + 16 := by rw [Stream.fread_pos, full]
    have turn := pcapIteration_header long cap full
    by_cases oversized : cap < ps.incl.toNat
    · rw [if_pos oversized] at turn
      cases seek : (ps.f.fread 16).2.fseekCur (long.ofUInt32 ps.incl) with
      | none => exact .inl ⟨.error, _, by rw [turn, seek], .inr rfl⟩
      | some f =>
        obtain ⟨inside, moves⟩ := Stream.fseekCur_eq_some.mp seek
        refine .inr (.inl ⟨header, oversized, { ps with f := f }, by rw [turn, seek], ?_⟩)
        rw [moved] at inside moves
        exact ⟨by rw [moves]; rfl, by rw [moves]; simpa using Int.toNat_of_nonneg inside⟩
    · rw [if_neg oversized] at turn
      by_cases whole : ((ps.f.fread 16).2.fread ps.incl.toNat).1.length = ps.incl.toNat
      · rw [if_pos whole] at turn
        refine .inr (.inr ⟨header, _, _, _, turn, rfl, ?_⟩)
        rw [← moved]
        exact (Stream.fread_pos _ _).trans (congrArg _ whole)
      · rw [if_neg whole] at turn
        exact .inl ⟨.error, _, turn, .inr rfl⟩
  · by_cases none : (ps.f.fread 16).1.length = 0
    · exact .inl ⟨.eof, { ps with f := (ps.f.fread 16).2 }, by simp [pcapIteration, none], .inl rfl⟩
    · exact .inl ⟨.error, { ps with f := (ps.f.fread 16).2 }, by simp [pcapIteration, none, full], .inr rfl⟩

theorem pcapIteration_skips (goes : pcapIteration long cap ps = .inl ps') :
    ps.HasHeader ∧ cap < ps.incl.toNat ∧ ps'.f.bytes = ps.f.bytes ∧
      (ps'.f.pos : Int) = ps.f.pos + 16 + long.ofUInt32 ps.incl := by
  rcases pcapIteration_cases long cap ps with
    ⟨_, _, leaves, _⟩ | ⟨header, oversized, _, skips, fields⟩ | ⟨_, _, _, _, leaves, _⟩
  · cases goes.symm.trans leaves
  · cases goes.symm.trans skips
    exact ⟨header, oversized, fields⟩
  · cases goes.symm.trans leaves

theorem pcapIteration_reads {incl : UInt32} {buf : List UInt8} {ts : UInt64}
    (leaves : pcapIteration long cap ps = .inr (.record incl buf ts, ps')) :
    ps.HasHeader ∧ ps'.f.bytes = ps.f.bytes ∧ ps'.f.pos = ps.f.pos + 16 + ps.incl.toNat := by
  rcases pcapIteration_cases long cap ps with
    ⟨_, _, ends, last⟩ | ⟨_, _, _, skips, _⟩ | ⟨header, _, _, _, reads, fields⟩
  · cases leaves.symm.trans ends
    rcases last with eof | error
    · cases eof
    · cases error
  · cases leaves.symm.trans skips
  · cases leaves.symm.trans reads
    exact ⟨header, fields⟩

/-- A skip that does not seek back moves the position forwards. -/
theorem pcapIteration_skips_forward (goes : pcapIteration long cap ps = .inl ps')
    (forward : ¬ SeeksBack long cap ps) : ps.f.pos < ps'.f.pos := by
  obtain ⟨header, oversized, -, moved⟩ := pcapIteration_skips goes
  by_contra stays
  have bound := ps.incl.toNat_lt
  rcases ofUInt32_cases long ps.incl with ⟨same, -⟩ | ⟨narrow, negative, wraps⟩
  · omega
  · exact forward ⟨narrow, header, oversized, negative, by omega, by omega⟩

theorem SeeksBack.stays (back : SeeksBack long cap ps) :
    ∃ ps', pcapIteration long cap ps = .inl ps' ∧ ps'.f.pos ≤ ps.f.pos := by
  obtain ⟨narrow, header, oversized, negative, backwards, inside⟩ := back
  have full := (header_length ps).mpr header
  have wraps : long.ofUInt32 ps.incl = (ps.incl.toNat : Int) - 2 ^ 32 := by
    rcases ofUInt32_cases long ps.incl with ⟨-, wide | short⟩ | ⟨-, -, wraps⟩
    · exact absurd (narrow.symm.trans wide) (by decide)
    · omega
    · exact wraps
  have seek : ∃ f, (ps.f.fread 16).2.fseekCur (long.ofUInt32 ps.incl) = some f ∧ f.pos ≤ ps.f.pos := by
    refine ⟨_, Stream.fseekCur_eq_some.mpr ⟨?_, rfl⟩, ?_⟩ <;> simp only [Stream.fread_pos, full] <;> omega
  obtain ⟨f, seek, le⟩ := seek
  refine ⟨{ ps with f := f }, ?_, le⟩
  simp only [PcapSource.incl] at oversized seek
  simp [pcapIteration, full, oversized, seek]

end Turn

/-- Every call returns, every record read or skipped moves the position forwards, and reading record
after record comes to the end of the file or an error. -/
structure Progresses (long : LongWidth) (cap : Nat) (opened : PcapSource) : Prop where
  returns : ∀ ps, PcapReached long cap opened ps →
    ∃ fuel result, pcapSourceNext long cap fuel ps = some result
  skips : ∀ ps ps', PcapReached long cap opened ps → pcapIteration long cap ps = .inl ps' →
    ps.f.pos < ps'.f.pos
  reads : ∀ ps ps' incl buf ts, PcapReached long cap opened ps →
    pcapIteration long cap ps = .inr (.record incl buf ts, ps') → ps.f.pos < ps'.f.pos
  ends : ∀ ps, PcapReached long cap opened ps →
    ∃ fuel last ps', readToEnd long cap fuel ps = some (last, ps') ∧ (last = .eof ∨ last = .error)

-- How much of the file is left.
def PcapSource.left (ps : PcapSource) : Nat := ps.f.bytes.length - ps.f.pos

section Run

variable {long : LongWidth} {cap : Nat} {opened : PcapSource}
  (forward : ∀ ps, PcapReached long cap opened ps → ¬ SeeksBack long cap ps)
include forward

theorem skip_lowers {ps ps' : PcapSource} (reached : PcapReached long cap opened ps)
    (goes : pcapIteration long cap ps = .inl ps') :
    PcapReached long cap opened ps' ∧ ps'.left < ps.left := by
  obtain ⟨header, -, same, -⟩ := pcapIteration_skips goes
  have later := pcapIteration_skips_forward goes (forward ps reached)
  refine ⟨reached.tail (.skip goes), ?_⟩
  rw [PcapSource.HasHeader] at header
  rw [PcapSource.left, PcapSource.left, same]
  omega

theorem pcapSourceNext_returns {ps : PcapSource} (reached : PcapReached long cap opened ps) {fuel : Nat}
    (enough : ps.left < fuel) : ∃ result, pcapSourceNext long cap fuel ps = some result :=
  loop_measured (fun ps => some (pcapIteration long cap ps)) (PcapReached long cap opened) PcapSource.left
    (fun _ _ => Option.some_ne_none _)
    (fun _ _ reached goes => skip_lowers forward reached (Option.some.inj goes)) fuel ps reached enough

theorem record_lowers {ps ps' : PcapSource} {incl : UInt32} {buf : List UInt8} {ts : UInt64} {fuel : Nat}
    (reached : PcapReached long cap opened ps)
    (called : pcapSourceNext long cap fuel ps = some (.record incl buf ts, ps')) :
    PcapReached long cap opened ps' ∧ ps'.left < ps.left := by
  obtain ⟨last, ⟨reached, le⟩, leaves⟩ := loop_last (fun ps => some (pcapIteration long cap ps))
    (fun last => PcapReached long cap opened last ∧ last.left ≤ ps.left)
    (fun s s' ⟨reached, le⟩ goes => by
      obtain ⟨reached', lower⟩ := skip_lowers forward reached (Option.some.inj goes)
      exact ⟨reached', by omega⟩)
    ⟨reached, le_rfl⟩ called
  have leaves := Option.some.inj leaves
  obtain ⟨header, same, moved⟩ := pcapIteration_reads leaves
  refine ⟨reached.tail (.done _ leaves), ?_⟩
  rw [PcapSource.HasHeader] at header
  rw [PcapSource.left] at le ⊢
  rw [same, moved]
  omega

theorem readToEnd_ends {ps : PcapSource} (reached : PcapReached long cap opened ps) :
    ∃ last ps', readToEnd long cap (ps.left + 1) ps = some (last, ps') ∧ (last = .eof ∨ last = .error) := by
  let Inv := fun s => PcapReached long cap opened s ∧ s.left < ps.left + 1
  have record (s s' : PcapSource) (holds : Inv s)
      (goes : readRecord long cap (ps.left + 1) s = some (.inl s')) : Inv s' ∧ s'.left < s.left := by
    rw [readRecord] at goes
    split at goes
    next => cases goes
    next called =>
      obtain rfl := Sum.inl.inj (Option.some.inj goes)
      obtain ⟨reached', lower⟩ := record_lowers forward holds.1 called
      exact ⟨⟨reached', lower.trans holds.2⟩, lower⟩
    next => cases goes
  have finishes (s : PcapSource) (holds : Inv s) : readRecord long cap (ps.left + 1) s ≠ none := by
    obtain ⟨result, called⟩ := pcapSourceNext_returns forward holds.1 holds.2
    rw [readRecord, called]
    split <;> simp_all
  obtain ⟨⟨outcome, ps'⟩, ended⟩ := loop_measured _ Inv PcapSource.left finishes record (ps.left + 1) ps
    ⟨reached, Nat.lt_succ_self _⟩ (Nat.lt_succ_self _)
  obtain ⟨last, -, leaves⟩ := loop_last _ Inv (fun s s' holds goes => (record s s' holds goes).1)
    ⟨reached, Nat.lt_succ_self _⟩ ended
  refine ⟨outcome, ps', ended, ?_⟩
  rw [readRecord] at leaves
  cases outcome with
  | eof => exact .inl rfl
  | error => exact .inr rfl
  | record incl buf ts =>
    split at leaves
    next => cases leaves
    next => cases leaves
    next result notRecord called =>
      obtain rfl := Sum.inr.inj (Option.some.inj leaves)
      exact absurd rfl (notRecord incl buf ts ps')

theorem progresses_of_forward : Progresses long cap opened where
  returns ps reached := ⟨ps.left + 1, pcapSourceNext_returns forward reached (Nat.lt_succ_self _)⟩
  skips ps _ reached goes := pcapIteration_skips_forward goes (forward ps reached)
  reads ps ps' incl buf ts _ leaves := by
    obtain ⟨-, -, moved⟩ := pcapIteration_reads leaves
    omega
  ends ps reached := ⟨ps.left + 1, readToEnd_ends forward reached⟩

end Run

theorem pcapSourceNext_progresses (long : LongWidth) (cap : Nat) (opened : PcapSource) :
    Progresses long cap opened ↔
      ∀ ps, PcapReached long cap opened ps → ¬ SeeksBack long cap ps := by
  constructor
  next =>
    intro progresses ps reached back
    obtain ⟨ps', goes, stays⟩ := back.stays
    exact absurd (progresses.skips ps ps' reached goes) (not_lt.mpr stays)
  next => exact progresses_of_forward

-- A global header and one record header with the length 2 ^ 32 - 16.
def seekingFile : List UInt8 :=
  [0xd4, 0xc3, 0xb2, 0xa1, 2, 0, 4, 0, 0, 0, 0, 0, 0, 0, 0, 0, 0, 0, 4, 0, 1, 0, 0, 0,
    0, 0, 0, 0, 0, 0, 0, 0, 0xf0, 0xff, 0xff, 0xff, 0, 0, 0, 0]

-- Records of two, six and one byte: a buffer of four does not hold the second one.
def mixedFile : List UInt8 :=
  [0xd4, 0xc3, 0xb2, 0xa1, 2, 0, 4, 0, 0, 0, 0, 0, 0, 0, 0, 0, 0, 0, 4, 0, 1, 0, 0, 0] ++
    [1, 0, 0, 0, 0, 0, 0, 0, 2, 0, 0, 0, 2, 0, 0, 0] ++ [0x10, 0x20] ++
    [1, 0, 0, 0, 1, 0, 0, 0, 6, 0, 0, 0, 6, 0, 0, 0] ++ [1, 2, 3, 4, 5, 6] ++
    [1, 0, 0, 0, 2, 0, 0, 0, 1, 0, 0, 0, 1, 0, 0, 0] ++ [0x30]

theorem pcapSourceNext_progresses_mixed :
    Progresses .long32 4 ⟨⟨mixedFile, 24⟩, false⟩ ∧ Progresses .long64 4 ⟨⟨seekingFile, 24⟩, false⟩ := by
  constructor
  next =>
    refine (pcapSourceNext_progresses .long32 4 ⟨⟨mixedFile, 24⟩, false⟩).mpr fun ps reached => ?_
    let visited := [24, 42, 64, 81].map fun pos => (⟨⟨mixedFile, pos⟩, false⟩ : PcapSource)
    have stays : ∀ ps ∈ visited, (pcapIteration .long32 4 ps).elim id Prod.snd ∈ visited := by decide
    have inside : ps ∈ visited := by
      induction reached with
      | refl => decide
      | tail _ step ih =>
        have next := stays _ ih
        cases step with
        | skip goes => rwa [goes] at next
        | done _ leaves => rwa [leaves] at next
    have forward : ∀ ps ∈ visited, ¬ SeeksBack .long32 4 ps := by decide
    exact forward ps inside
  next =>
    exact (pcapSourceNext_progresses .long64 4 ⟨⟨seekingFile, 24⟩, false⟩).mpr
      fun _ _ back => absurd back.narrow (by decide)

theorem pcapSourceNext_loops : ∃ opened, pcapSourceOpen seekingFile = some opened ∧
    (∀ fuel, pcapSourceNext .long32 2048 fuel opened = none) ∧ ¬ Progresses .long32 2048 opened := by
  have stays : pcapIteration .long32 2048 ⟨⟨seekingFile, 24⟩, false⟩ = .inl ⟨⟨seekingFile, 24⟩, false⟩ := by
    decide
  have loops : ∀ fuel, pcapSourceNext .long32 2048 fuel ⟨⟨seekingFile, 24⟩, false⟩ = none :=
    loop_stuck (congrArg some stays)
  refine ⟨⟨⟨seekingFile, 24⟩, false⟩, by decide, loops, fun progresses => ?_⟩
  obtain ⟨fuel, result, returned⟩ := progresses.returns _ .refl
  exact absurd ((loops fuel).symm.trans returned) (by simp)

end ReacAes67
