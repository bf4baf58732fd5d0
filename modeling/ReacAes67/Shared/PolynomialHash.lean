import Mathlib.Data.Nat.Digits.Defs
import Mathlib.Data.Int.ModEq

set_option autoImplicit false

/-!
# Polynomial hashes

A hash that multiplies by a base and adds the next byte reads its text as a
number whose digits are the bytes, the first byte the highest. Modulo a number
that is prime to the base, a change within a text is a change of the value of
the part that changed.
-/

namespace PolynomialHash

def value (b : Nat) (xs : List Nat) : Nat := Nat.ofDigits b xs.reverse

variable {b M : Nat}

theorem value_append (xs ys : List Nat) :
    value b (xs ++ ys) = b ^ ys.length * value b xs + value b ys := by
  rw [value, List.reverse_append, Nat.ofDigits_append, List.length_reverse, Nat.add_comm]
  rfl

theorem value_singleton (x : Nat) : value b [x] = x := Nat.ofDigits_singleton

theorem value_cons (x : Nat) (xs : List Nat) : value b (x :: xs) = b ^ xs.length * x + value b xs := by
  have split := value_append (b := b) [x] xs
  rwa [value_singleton] at split

theorem foldl_eq_value (start : Nat) (xs : List Nat) :
    xs.foldl (fun h x => h * b + x) start = value b (start :: xs) := by
  induction xs generalizing start with
  | nil => exact (value_singleton start).symm
  | cons x xs ih =>
    rw [List.foldl_cons, ih, value_cons, value_cons, value_cons, List.length_cons, Nat.pow_succ]
    ring

-- The part before a change does not matter, nor does the part after it when it can be divided out.
theorem value_congr_iff (coprime : M.Coprime b) {left right : List Nat} (length : left.length = right.length)
    (before after : List Nat) :
    value b (before ++ left ++ after) ≡ value b (before ++ right ++ after) [MOD M] ↔
      value b left ≡ value b right [MOD M] := by
  rw [value_append, value_append, value_append, value_append, length]
  constructor
  next =>
    intro same
    have shifted := Nat.ModEq.cancel_left_of_coprime (coprime.pow_right after.length)
      (Nat.ModEq.add_right_cancel' _ same)
    exact Nat.ModEq.add_left_cancel' _ shifted
  next =>
    intro same
    exact ((same.add_left _).mul_left _).add_right _

end PolynomialHash
