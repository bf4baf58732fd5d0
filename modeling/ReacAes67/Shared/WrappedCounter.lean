import Mathlib.Data.Nat.ModEq

set_option autoImplicit false

/-!
# Wrapped counters

A counter of a machine word takes `m` values and starts again. What is due at
every multiple of `p` that it shows is due at a wrap too, so it is never due too
seldom.
-/

namespace WrappedCounter

variable {m p : Nat}

-- Whether the counter shows a multiple of `p` after `n` steps.
def due (m p n : Nat) : Bool := n % m % p = 0

/-- How often that was so in the first `n` steps. -/
def dues (m p n : Nat) : Nat := n / m * ((m + p - 1) / p) + n % m / p

@[simp] theorem dues_zero : dues m p 0 = 0 := by simp [dues]

theorem dues_succ (wraps : 0 < m) (moves : 0 < p) (n : Nat) :
    dues m p (n + 1) = dues m p n + if due m p (n + 1) then 1 else 0 := by
  have inside := Nat.mod_lt n wraps
  have parts := Nat.div_add_mod n m
  by_cases last : n % m + 1 = m
  next =>
    have wrapped : (n + 1) / m = n / m + 1 ∧ (n + 1) % m = 0 := by
      refine (Nat.div_mod_unique wraps).mpr ⟨?_, wraps⟩
      rw [Nat.mul_succ]
      omega
    have multiples : (m + p - 1) / p = n % m / p + 1 := by
      have split : m + p - 1 = n % m + p := by omega
      rw [split, Nat.add_div_right _ moves]
    simp [dues, due, wrapped, multiples, Nat.succ_mul, Nat.add_assoc]
  next =>
    have onward : (n + 1) / m = n / m ∧ (n + 1) % m = n % m + 1 :=
      (Nat.div_mod_unique wraps).mpr ⟨by omega, by omega⟩
    simp only [dues, due, onward, Nat.succ_div, Nat.dvd_iff_mod_eq_zero, decide_eq_true_eq, Nat.add_assoc]

/-- Not less often than with a counter that never wraps. -/
theorem div_le_dues (moves : 0 < p) (n : Nat) : n / p ≤ dues m p n := by
  have enough : m ≤ p * ((m + p - 1) / p) := by
    have parts := Nat.div_add_mod (m + p - 1) p
    have rest := Nat.mod_lt (m + p - 1) moves
    omega
  calc n / p = (m * (n / m) + n % m) / p := by rw [Nat.div_add_mod]
    _ ≤ (p * ((m + p - 1) / p) * (n / m) + n % m) / p :=
      Nat.div_le_div_right (Nat.add_le_add_right (Nat.mul_le_mul_right _ enough) _)
    _ = dues m p n := by rw [Nat.mul_assoc, Nat.mul_add_div moves, Nat.mul_comm, dues]

end WrappedCounter
