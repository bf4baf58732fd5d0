import Mathlib.Data.Nat.Bitwise

set_option autoImplicit false

/-!
# Smearing the highest bit

Doubling shifts set every bit below the highest one, which gives one less than
the next power of two.
-/

namespace BitSmear

/-- A bit of `w` is set when `v` has one at most `m - 1` places above it. -/
def Covers (m v w : Nat) : Prop := ∀ i, w.testBit i = true ↔ ∃ d < m, v.testBit (i + d) = true

theorem covers_self (v : Nat) : Covers 1 v v := by
  intro i
  simp

theorem Covers.double {m v w : Nat} (covers : Covers m v w) : Covers (m + m) v (w ||| w >>> m) := by
  intro i
  rw [Nat.testBit_or, Nat.testBit_shiftRight, Bool.or_eq_true, covers i, covers (m + i)]
  constructor
  next =>
    rintro (⟨d, near, bit⟩ | ⟨d, near, bit⟩)
    · exact ⟨d, by omega, bit⟩
    · exact ⟨m + d, by omega, by rwa [← Nat.add_assoc, Nat.add_comm i m]⟩
  next =>
    rintro ⟨d, near, bit⟩
    by_cases low : d < m
    · exact .inl ⟨d, low, bit⟩
    · exact .inr ⟨d - m, by omega, by rwa [show m + i + (d - m) = i + d by omega]⟩

theorem Covers.ones {m v w : Nat} (covers : Covers m v w) (positive : v ≠ 0) (bound : v < 2 ^ m) :
    w = 2 ^ (v.log2 + 1) - 1 := by
  apply Nat.eq_of_testBit_eq
  intro i
  rw [Nat.testBit_two_pow_sub_one, Bool.eq_iff_iff, covers i, decide_eq_true_iff]
  have top : v.log2 < m := (Nat.log2_lt positive).mpr bound
  constructor
  next =>
    rintro ⟨d, _, bit⟩
    have low := Nat.ge_two_pow_of_testBit bit
    have under := (Nat.le_log2 positive).mpr low
    omega
  next =>
    intro low
    refine ⟨v.log2 - i, by omega, ?_⟩
    rw [show i + (v.log2 - i) = v.log2 by omega]
    exact Nat.testBit_log2 positive

def smear (v : UInt32) : UInt32 :=
  let v := v ||| v >>> 1
  let v := v ||| v >>> 2
  let v := v ||| v >>> 4
  let v := v ||| v >>> 8
  v ||| v >>> 16

theorem smear_toNat {v : UInt32} (positive : v.toNat ≠ 0) :
    (smear v).toNat = 2 ^ (v.toNat.log2 + 1) - 1 := by
  have covers := (((((covers_self v.toNat).double).double).double).double).double
  refine Covers.ones ?_ positive v.toNat_lt
  simpa [smear, UInt32.toNat_or, UInt32.toNat_shiftRight] using covers

end BitSmear
