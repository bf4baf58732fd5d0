import Mathlib.Data.List.Forall2

set_option autoImplicit false

/-!
# Machines that put out a list at every step

A machine is a step function from a state and an input to the next state and
the outputs of that step. A run concatenates the outputs of its steps.
-/

namespace Mealy

variable {S T I J M O P : Type}

def run (step : S → I → S × List O) : S → List I → S × List O
  | s, [] => (s, [])
  | s, x :: xs =>
    let next := step s x
    let rest := run step next.1 xs
    (rest.1, next.2 ++ rest.2)

@[simp] theorem run_nil (step : S → I → S × List O) (s : S) : run step s [] = (s, []) := rfl

@[simp] theorem run_cons (step : S → I → S × List O) (s : S) (x : I) (xs : List I) :
    run step s (x :: xs) =
      ((run step (step s x).1 xs).1, (step s x).2 ++ (run step (step s x).1 xs).2) := rfl

theorem run_append (step : S → I → S × List O) (s : S) (xs ys : List I) :
    run step s (xs ++ ys) =
      ((run step (run step s xs).1 ys).1, (run step s xs).2 ++ (run step (run step s xs).1 ys).2) := by
  induction xs generalizing s with
  | nil => simp
  | cons x xs ih => simp [ih]

theorem run_map (step : S → I → S × List O) (f : J → I) (s : S) (xs : List J) :
    run step s (xs.map f) = run (fun s x => step s (f x)) s xs := by
  induction xs generalizing s with
  | nil => rfl
  | cons x xs ih => simp [ih]

-- Inputs that neither move the machine nor make it put out anything may be left out.
theorem run_filter (step : S → I → S × List O) (p : I → Bool)
    (idle : ∀ s x, p x = false → step s x = (s, [])) (s : S) (xs : List I) :
    run step s (xs.filter p) = run step s xs := by
  induction xs generalizing s with
  | nil => rfl
  | cons x xs ih =>
    cases kept : p x with
    | false => simp [kept, idle s x kept, ih]
    | true => simp [kept, ih]

-- A step that is itself a run of smaller steps, the invariant holding wherever it is taken.
theorem run_flatMap (step : S → I → S × List O) (small : S → J → S × List O) (items : I → List J)
    (Inv : S → Prop) (keeps : ∀ s x, Inv s → Inv (small s x).1)
    (splits : ∀ s x, Inv s → step s x = run small s (items x)) (s : S) (start : Inv s) (xs : List I) :
    run step s xs = run small s (xs.flatMap items) := by
  have kept (s : S) (start : Inv s) (ys : List J) : Inv (run small s ys).1 := by
    induction ys generalizing s with
    | nil => exact start
    | cons y ys ih => exact ih _ (keeps s y start)
  induction xs generalizing s with
  | nil => rfl
  | cons x xs ih =>
    have whole := splits s x start
    have later := ih (step s x).1 (by rw [whole]; exact kept s start (items x))
    rw [run_cons, later, List.flatMap_cons, run_append, whole]

theorem run_invariant (step : S → I → S × List O) (Inv : S → List O → Prop)
    (keeps : ∀ s out x, Inv s out → Inv (step s x).1 (out ++ (step s x).2))
    (s : S) (out : List O) (start : Inv s out) (xs : List I) :
    Inv (run step s xs).1 (out ++ (run step s xs).2) := by
  induction xs generalizing s out with
  | nil => simpa using start
  | cons x xs ih =>
    have next := ih (step s x).1 (out ++ (step s x).2) (keeps s out x start)
    simpa using next

/-- Two machines whose steps respect a relation produce related outputs from related inputs. -/
theorem run_related (stepLeft : S → I → S × List O) (stepRight : T → J → T × List P)
    (State : S → T → Prop) (Input : I → J → Prop) (Output : O → P → Prop)
    (step : ∀ s t x y, State s t → Input x y →
      State (stepLeft s x).1 (stepRight t y).1 ∧
        List.Forall₂ Output (stepLeft s x).2 (stepRight t y).2)
    (s : S) (t : T) (start : State s t) (xs : List I) (ys : List J)
    (inputs : List.Forall₂ Input xs ys) :
    State (run stepLeft s xs).1 (run stepRight t ys).1 ∧
      List.Forall₂ Output (run stepLeft s xs).2 (run stepRight t ys).2 := by
  induction inputs generalizing s t with
  | nil => exact ⟨start, .nil⟩
  | cons pair _ ih =>
    obtain ⟨next, now⟩ := step s t _ _ start pair
    obtain ⟨final, later⟩ := ih _ _ next
    exact ⟨final, List.rel_append now later⟩

/-- Feeding one machine's outputs to a second, step by step or after the whole run, is the same. -/
theorem run_pipe (front : S → I → S × List M) (back : T → M → T × List O) (s : S) (t : T)
    (xs : List I) :
    run (fun st x =>
        let middle := front st.1 x
        let final := run back st.2 middle.2
        ((middle.1, final.1), final.2)) (s, t) xs =
      (((run front s xs).1, (run back t (run front s xs).2).1), (run back t (run front s xs).2).2) := by
  induction xs generalizing s t with
  | nil => rfl
  | cons x xs ih => simp [ih, run_append]

end Mealy
