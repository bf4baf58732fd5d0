import Mathlib.Data.List.Forall2

set_option autoImplicit false

/-!
# Checked signed arithmetic

Arithmetic on 32-bit signed values where an overflow is undefined: the result
is `none` when the mathematical value does not fit.
-/

namespace CInt

def InRange (x : Int) : Prop := -2147483648 ≤ x ∧ x ≤ 2147483647

instance (x : Int) : Decidable (InRange x) := inferInstanceAs (Decidable (_ ∧ _))

def checked (x : Int) : Option Int := if InRange x then some x else none

def add (a b : Int) : Option Int := checked (a + b)
def sub (a b : Int) : Option Int := checked (a - b)
def mul (a b : Int) : Option Int := checked (a * b)
def div (a b : Int) : Option Int := if b = 0 then none else checked (a.tdiv b)

@[simp] theorem checked_eq_some {x y : Int} : checked x = some y ↔ InRange x ∧ x = y := by
  unfold checked
  split <;> simp [*]

-- A traversal succeeds exactly when every step does, and then it is a map.
theorem mapM_eq_some_iff {α β : Type} (f : α → Option β) (xs : List α) (ys : List β) :
    xs.mapM f = some ys ↔ List.Forall₂ (fun x y => f x = some y) xs ys := by
  induction xs generalizing ys with
  | nil => cases ys <;> simp [pure]
  | cons x xs ih =>
    rw [List.mapM_cons]
    cases head : f x with
    | none => cases ys <;> simp [head]
    | some y =>
      cases tail : xs.mapM f with
      | none => cases ys <;> simp [head, ← ih, tail]
      | some rest => cases ys <;> simp [head, ← ih, tail]

end CInt
