import ReacAes67.RingCalls
import ReacAes67.Shared.Mealy

set_option autoImplicit false

/-!
# What the ring's header promises

A write appends the block it was given and counts what it refuses; a ring holds
the number of frames it was created for.
-/

namespace ReacAes67

open MaskedIndex BoundedFifo

variable {α : Type}

/-- A write of `n` samples a channel from a source laid out as `planar[c*n + s]`. -/
structure WriteContract (r : ReacRing α) (planar : Nat → α) (n : UInt32) : Prop where
  appended : ∀ c, c < r.channels.toNat → stored (reacRingWrite r planar n).1 c =
    stored r c ++
      (List.range (reacRingWrite r planar n).2.toNat).map fun s => planar (c * n.toNat + s)
  overruns : (reacRingWrite r planar n).1.overruns =
    r.overruns + UInt64.ofNat (n.toNat - (reacRingWrite r planar n).2.toNat)

section Write

variable {r : ReacRing α} {k : Nat} {q : RowFifo α k}

theorem reacRingWrite_stored (holds : r.Holds k q) (planar : Nat → α) (n : UInt32) {c : Nat}
    (channel : c < r.channels.toNat) :
    stored (reacRingWrite r planar n).1 c = stored r c ++
      (List.range (reacRingWrite r planar n).2.toNat).map fun s =>
        planar (c * (clampedLength r n).toNat + s) := by
  obtain ⟨ring, granted, channels, _⟩ := reacRingWrite_holds holds planar n
  have after := ring.stored (c := c) (by rw [channels]; exact channel)
  rw [after, holds.stored channel, granted]
  simp only [Fifo.push, List.drop_append_of_le_length q.taken_le, List.map_append, planarRows,
    List.map_map]
  rfl

theorem writeContract_of_fits (holds : r.Holds k q) (planar : Nat → α) {n : UInt32}
    (fits : n ≤ r.mask) : WriteContract r planar n := by
  have whole : clampedLength r n = n := if_neg (UInt32.not_lt.mpr fits)
  obtain ⟨_, granted, _, overruns⟩ := reacRingWrite_holds holds planar n
  constructor
  next =>
    intro c channel
    have appended := reacRingWrite_stored holds planar n channel
    rwa [whole] at appended
  next => rw [overruns, granted, whole]

-- The first clamp drops samples that no counter sees.
theorem reacRingWrite_uncounted (holds : r.Holds k q) (planar : Nat → α) {n : UInt32}
    (exceeds : r.mask < n) :
    (reacRingWrite r planar n).1.overruns ≠
      r.overruns + UInt64.ofNat (n.toNat - (reacRingWrite r planar n).2.toNat) := by
  obtain ⟨_, granted, _, overruns⟩ := reacRingWrite_holds holds planar n
  have clamped : clampedLength r n = r.mask := if_pos exceeds
  have less := UInt32.le_iff_toNat_le.mp (grantedLength_le r n)
  have above := UInt32.lt_iff_toNat_lt.mp exceeds
  have bound := n.toNat_lt
  rw [overruns, granted, clamped]
  rw [clamped] at less
  intro same
  have counts := congrArg UInt64.toNat ((UInt64.add_right_inj r.overruns).mp same)
  rw [UInt64.toNat_ofNat', UInt64.toNat_ofNat', Nat.mod_eq_of_lt (by omega),
    Nat.mod_eq_of_lt (by omega)] at counts
  omega

end Write

/-- The contract of a write holds exactly for blocks that are no longer than the ring's mask. -/
theorem reacRingWrite_contract_iff (r : ReacRing α) (k : Nat) (formed : r.WellFormed k)
    (planar : Nat → α) (n : UInt32) : WriteContract r planar n ↔ n ≤ r.mask := by
  obtain ⟨q, holds⟩ := formed.holds
  constructor
  next =>
    intro contract
    by_contra exceeds
    exact reacRingWrite_uncounted holds planar (UInt32.not_le.mp exceeds) contract.overruns
  next => exact writeContract_of_fits holds planar

theorem reacRingWrite_contract_threeRows : WriteContract freshRing id 3 :=
  (reacRingWrite_contract_iff freshRing 2 ⟨by decide, by decide, by decide, by decide, by decide⟩
    id 3).mpr (by decide)

-- The samples of channel 1 are taken from index 3 on, inside the block of channel 0.
theorem reacRingWrite_contract_oversize : ¬WriteContract freshRing id 5 := by
  intro contract
  have channels := contract.appended 1 (by decide)
  exact absurd channels (by decide)

def writeCall (r : ReacRing α) (write : (Nat → α) × UInt32) : ReacRing α × List UInt32 :=
  let result := reacRingWrite r write.1 write.2
  (result.1, [result.2])

def requestedRows (writes : List ((Nat → α) × UInt32)) : List (Nat → α) :=
  writes.flatMap fun write => planarRows write.1 write.2 write.2

/-- A ring created for `n` frames takes `n` of them in any writes and gives them back. -/
structure HoldsRequested (α : Type) [Zero α] (channels n : UInt32) : Prop where
  power : ∃ k, (reacRingInit channels n : ReacRing α).capacity.toNat = 2 ^ k
  -- one slot stays empty
  able : n.toNat < (reacRingInit channels n : ReacRing α).capacity.toNat
  smallest : ∀ k, n.toNat < 2 ^ k → (reacRingInit channels n : ReacRing α).capacity.toNat ≤ 2 ^ k
  accepts : ∀ writes : List ((Nat → α) × UInt32), (requestedRows writes).length = n.toNat →
    let run := Mealy.run writeCall (reacRingInit channels n) writes
    run.2 = writes.map (·.2) ∧ run.1.overruns = 0 ∧
      ∀ mem : Nat → Nat → α, let read := reacRingReadPlanar run.1 id channels n mem
        read.2.2 = n ∧ ∀ c s row, c < channels.toNat → (requestedRows writes)[s]? = some row →
          read.2.1 c s = row c

theorem nextPow2_log2 {v : UInt32} (large : 2 ≤ v.toNat) (bound : v.toNat ≤ 2 ^ 31) :
    (nextPow2 v).toNat = 2 ^ ((v.toNat - 1).log2 + 1) := by
  have two : ¬v < 2 := UInt32.not_lt.mpr large
  have below : (v - 1).toNat = v.toNat - 1 :=
    UInt32.toNat_sub_of_le v 1 (UInt32.le_iff_toNat_le.mpr (Nat.le_of_succ_le large))
  have top : (v.toNat - 1).log2 < 31 := (Nat.log2_lt (by omega)).mpr (by omega)
  have size : 2 ^ ((v.toNat - 1).log2 + 1) ≤ 2 ^ 31 := Nat.pow_le_pow_right (by omega) top
  have positive := Nat.two_pow_pos ((v.toNat - 1).log2 + 1)
  rw [nextPow2, if_neg two, UInt32.toNat_add, BitSmear.smear_toNat (by omega), below,
    UInt32.toNat_one, Nat.sub_add_cancel positive]
  omega

/-- The rounding leaves room for the empty slot unless the request is already a power of two. -/
theorem nextPow2_smallest {v : UInt32} (positive : 1 ≤ v.toNat) (bound : v.toNat < 2 ^ 31)
    (free : v = 1 ∨ ∀ k, v.toNat ≠ 2 ^ k) :
    v.toNat < (nextPow2 v).toNat ∧ ∀ k, v.toNat < 2 ^ k → (nextPow2 v).toNat ≤ 2 ^ k := by
  by_cases one : v = 1
  next =>
    subst one
    refine ⟨by decide, fun k above => ?_⟩
    cases k with
    | zero => simp at above
    | succ k =>
      have two : (nextPow2 1).toNat = 2 ^ 1 := by decide
      rw [two]
      exact Nat.pow_le_pow_right (by decide) (by omega)
  next =>
    have other : v.toNat ≠ 1 := fun same => one (UInt32.toNat_inj.mp same)
    have value := nextPow2_log2 (v := v) (by omega) (by omega)
    have inexact := (free.resolve_left one) ((v.toNat - 1).log2 + 1)
    have under : v.toNat - 1 < 2 ^ ((v.toNat - 1).log2 + 1) := Nat.lt_log2_self
    rw [value]
    refine ⟨by omega, fun k above => ?_⟩
    apply Nat.pow_le_pow_right (by decide)
    exact (Nat.log2_lt (by omega)).mpr (by omega)

theorem nextPow2_power {v : UInt32} {k : Nat} (power : v.toNat = 2 ^ k) (larger : v ≠ 1)
    (bound : v.toNat < 2 ^ 31) : (nextPow2 v).toNat = v.toNat := by
  have positive : 1 ≤ k := by
    cases k with
    | zero => exact absurd (UInt32.toNat_inj.mp (by simpa using power)) larger
    | succ k => omega
  have large : 2 ^ 1 ≤ 2 ^ k := Nat.pow_le_pow_right (by decide) positive
  have double : 2 ^ k = 2 ^ (k - 1) * 2 := by
    rw [← Nat.pow_succ]
    congr 1
    omega
  have top : (2 ^ k - 1).log2 = k - 1 := by
    rw [Nat.log2_eq_iff (by omega)]
    omega
  rw [nextPow2_log2 (by omega) (by omega), power, top]
  congr 1
  omega

section Accepts

variable {r : ReacRing α} {k : Nat}

theorem granted_whole {q : RowFifo α k} (holds : r.Holds k q) {n : UInt32}
    (room : q.accepted.length + n.toNat ≤ q.taken + (2 ^ k - 1)) :
    clampedLength r n = n ∧ grantedLength r n = n := by
  have free := holds.writable
  have low := q.taken_le
  simp only [Fifo.unread] at free
  have fits : n ≤ r.mask := by
    rw [UInt32.le_iff_toNat_le, holds.mask]
    omega
  have whole : clampedLength r n = n := if_neg (UInt32.not_lt.mpr fits)
  refine ⟨whole, UInt32.toNat_inj.mp ?_⟩
  rw [grantedLength_toNat, whole]
  omega

theorem writeCalls_granted {q : RowFifo α k} (holds : r.Holds k q) (writes : List ((Nat → α) × UInt32))
    (room : q.accepted.length + (requestedRows writes).length ≤ q.taken + (2 ^ k - 1)) :
    let run := Mealy.run writeCall r writes
    run.2 = writes.map (·.2) ∧ run.1.overruns = r.overruns ∧ run.1.channels = r.channels ∧
      ∃ q' : RowFifo α k, run.1.Holds k q' ∧ q'.accepted = q.accepted ++ requestedRows writes ∧
        q'.taken = q.taken := by
  induction writes generalizing r q with
  | nil => exact ⟨rfl, rfl, rfl, q, holds, by simp [requestedRows], rfl⟩
  | cons write rest ih =>
    have split : requestedRows (write :: rest) =
        planarRows write.1 write.2 write.2 ++ requestedRows rest := rfl
    rw [split, List.length_append, planarRows_length] at room
    obtain ⟨whole, all⟩ := granted_whole holds (n := write.2) (by omega)
    obtain ⟨ring, granted, channels, overruns⟩ := reacRingWrite_holds holds write.1 write.2
    have pushed : (q.push _ (holds.granted_room write.1 write.2)).accepted =
        q.accepted ++ planarRows write.1 write.2 write.2 := by
      simp only [Fifo.push, whole, all]
    have enough : (q.push _ (holds.granted_room write.1 write.2)).accepted.length +
        (requestedRows rest).length ≤ q.taken + (2 ^ k - 1) := by
      rw [pushed, List.length_append, planarRows_length]
      omega
    obtain ⟨results, total, sameChannels, q', after, accepted, taken⟩ := ih ring enough
    refine ⟨?_, ?_, sameChannels.trans channels, q', after, ?_, taken⟩
    next => simp only [Mealy.run_cons, writeCall, granted, all, results, List.map_cons,
      List.singleton_append]
    next =>
      rw [all, whole, Nat.sub_self] at overruns
      exact total.trans (by rw [overruns]; simp)
    next => rw [accepted, pushed, split, List.append_assoc]

end Accepts

theorem reacRingInit_holds [Zero α] (channels : UInt32) {n : UInt32} (bound : n.toNat ≤ 2 ^ 31) :
    ∃ k, (reacRingInit channels n : ReacRing α).capacity.toNat = 2 ^ k ∧
      (reacRingInit channels n : ReacRing α).Holds k Fifo.empty := by
  obtain ⟨k, fresh⟩ := reacRingInit_fresh (α := α) channels bound
  exact ⟨k, fresh.capacity, fresh.holds.ring⟩

theorem holdsRequested_of_able [Zero α] (channels : UInt32) {n : UInt32} (bound : n.toNat ≤ 2 ^ 31)
    (able : n.toNat < (reacRingInit channels n : ReacRing α).capacity.toNat)
    (writes : List ((Nat → α) × UInt32)) (total : (requestedRows writes).length = n.toNat) :
    let run := Mealy.run writeCall (reacRingInit channels n) writes
    run.2 = writes.map (·.2) ∧ run.1.overruns = 0 ∧
      ∀ mem : Nat → Nat → α, let read := reacRingReadPlanar run.1 id channels n mem
        read.2.2 = n ∧ ∀ c s row, c < channels.toNat → (requestedRows writes)[s]? = some row →
          read.2.1 c s = row c := by
  intro run
  obtain ⟨k, capacity, holds⟩ := reacRingInit_holds (α := α) channels bound
  rw [capacity] at able
  obtain ⟨results, overruns, sameChannels, q, after, accepted, taken⟩ :=
    writeCalls_granted holds writes (by rw [total]; simp only [Fifo.empty, List.length_nil]; omega)
  have rows : q.accepted = requestedRows writes := accepted
  have none : q.taken = 0 := taken
  have same : run.1.channels = channels := sameChannels
  refine ⟨results, overruns, fun mem => ?_⟩
  have delivered : deliveredLength run.1 n = n := by
    apply UInt32.toNat_inj.mp
    rw [after.delivered, Fifo.unread, rows, none, total]
    omega
  obtain ⟨_, real, _, _, content⟩ := reacRingReadPlanar_holds after (id : Nat → Nat)
    channels (by rw [same]; exact UInt32.le_refl _) n mem
  refine ⟨real.trans delivered, fun c s row channel member => ?_⟩
  have inside : s < n.toNat := by
    have bound := (List.getElem?_eq_some_iff.mp member).1
    omega
  rw [same] at content
  refine (content c channel (fun c' _ equal => equal) s inside).1 row ?_ ?_
  next => rw [delivered]; exact inside
  next => rw [none, Nat.zero_add, rows]; exact member

/-- A ring holds what it was asked to hold unless that is a power of two above one. -/
theorem reacRingInit_holdsRequested_iff (α : Type) [Zero α] (channels n : UInt32)
    (positive : 1 ≤ n.toNat) (bound : n.toNat < 2 ^ 31) :
    HoldsRequested α channels n ↔ n = 1 ∨ ∀ k, n.toNat ≠ 2 ^ k := by
  constructor
  next =>
    intro holds
    by_contra exact
    obtain ⟨larger, power⟩ := not_or.mp exact
    obtain ⟨k, power⟩ := not_forall_not.mp power
    have able := holds.able
    have capacity : (reacRingInit channels n : ReacRing α).capacity.toNat = n.toNat :=
      nextPow2_power power larger bound
    omega
  next =>
    intro free
    obtain ⟨able, smallest⟩ := nextPow2_smallest positive bound free
    obtain ⟨k, capacity, _⟩ := reacRingInit_holds (α := α) channels bound.le
    exact ⟨⟨k, capacity⟩, able, smallest, holdsRequested_of_able channels bound.le able⟩

theorem reacRingInit_holdsRequested_hundred : HoldsRequested Nat 4 100 :=
  (reacRingInit_holdsRequested_iff Nat 4 100 (by decide) (by decide)).mpr (.inr fun k same => by
    have low : k < 7 := (Nat.pow_lt_pow_iff_right (by decide)).mp (by rw [← same]; decide : 2 ^ k < 2 ^ 7)
    have high : 6 < k := (Nat.pow_lt_pow_iff_right (by decide)).mp (by rw [← same]; decide : 2 ^ 6 < 2 ^ k)
    omega)

-- One write of four samples is cut to three, and the lost one is not counted.
theorem reacRingInit_holdsRequested_four : ¬HoldsRequested Nat 2 4 := by
  intro holds
  have results := (holds.accepts [(id, 4)] (by decide)).1
  exact absurd results (by decide)

end ReacAes67
