import Mathlib.Data.Nat.ModEq
import Mathlib.Tactic.Ring

set_option autoImplicit false

/-!
# Masked cursors

A cursor into a buffer of `2 ^ k` slots holds an unbounded position modulo the
size. Differences and sums of cursors are taken in machine words and masked.
-/

namespace MaskedIndex

/-- The cursor `x` stands at position `p` of a buffer of `2 ^ k` slots. -/
def Points (k : Nat) (x : UInt32) (p : Nat) : Prop := x.toNat = p % 2 ^ k

theorem and_mask {k : Nat} {mask : UInt32} (ones : mask.toNat = 2 ^ k - 1) (x : UInt32) :
    (x &&& mask).toNat = x.toNat % 2 ^ k := by
  rw [UInt32.toNat_and, ones, Nat.and_two_pow_sub_one_eq_mod]

theorem wrap_mod {k : Nat} (small : k ≤ 32) (p : Nat) : p % 2 ^ 32 % 2 ^ k = p % 2 ^ k :=
  Nat.mod_mod_of_dvd p (Nat.pow_dvd_pow 2 small)

section Cursor

variable {k : Nat} {mask x y : UInt32} {p q : Nat}

theorem Points.advance (small : k ≤ 32) (ones : mask.toNat = 2 ^ k - 1) (at' : Points k x p)
    (d : UInt32) : Points k ((x + d) &&& mask) (p + d.toNat) := by
  unfold Points at *
  rw [and_mask ones, UInt32.toNat_add, wrap_mod small, at', Nat.mod_add_mod]

theorem Points.next (small : k ≤ 32) (ones : mask.toNat = 2 ^ k - 1) (at' : Points k x p) :
    Points k ((x + 1) &&& mask) (p + 1) :=
  at'.advance small ones 1

theorem Points.distance (small : k ≤ 32) (ones : mask.toNat = 2 ^ k - 1) (atX : Points k x p)
    (atY : Points k y q) (ahead : q ≤ p) (near : p - q < 2 ^ k) :
    ((x - y) &&& mask).toNat = p - q := by
  unfold Points at *
  rw [and_mask ones, UInt32.toNat_sub, wrap_mod small, atX, atY]
  have bound : q % 2 ^ k < 2 ^ k := Nat.mod_lt q (Nat.two_pow_pos k)
  have size : 2 ^ k ≤ 2 ^ 32 := Nat.pow_le_pow_right (by omega) small
  have whole : 2 ^ k ∣ 2 ^ 32 := Nat.pow_dvd_pow 2 small
  have congruent : 2 ^ 32 - q % 2 ^ k + p % 2 ^ k ≡ p - q [MOD 2 ^ k] := by
    apply Nat.ModEq.add_right_cancel' q
    rw [Nat.sub_add_cancel ahead]
    calc 2 ^ 32 - q % 2 ^ k + p % 2 ^ k + q
        ≡ 2 ^ 32 - q % 2 ^ k + p % 2 ^ k + q % 2 ^ k [MOD 2 ^ k] :=
          Nat.ModEq.add_left _ (Nat.mod_modEq q _).symm
      _ = 2 ^ 32 + p % 2 ^ k := by omega
      _ ≡ 0 + p % 2 ^ k [MOD 2 ^ k] := Nat.ModEq.add_right _ (Nat.modEq_zero_iff_dvd.mpr whole)
      _ ≡ p [MOD 2 ^ k] := by rw [Nat.zero_add]; exact Nat.mod_modEq p _
  rw [congruent, Nat.mod_eq_of_lt near]

theorem positions_distinct {n : Nat} (before : p < q) (near : q - p < n) : p % n ≠ q % n := by
  intro same
  have divides : n ∣ q - p := (Nat.modEq_iff_dvd' before.le).mp same
  exact absurd (Nat.le_of_dvd (by omega) divides) (by omega)

end Cursor

end MaskedIndex
