import Mathlib.Logic.Relation

set_option autoImplicit false

/-!
# Loops with fuel

A loop runs a body that goes on with a new state, leaves with a result, or does
not finish itself. `none` means that the fuel was not enough.
-/

namespace BoundedLoop

variable {S R : Type}

def loop (body : S → Option (S ⊕ R)) : Nat → S → Option R
  | 0, _ => none
  | fuel + 1, s =>
    match body s with
    | none => none
    | some (.inl s') => loop body fuel s'
    | some (.inr r) => some r

theorem loop_continue {body : S → Option (S ⊕ R)} {s s' : S} (goes : body s = some (.inl s'))
    (fuel : Nat) : loop body (fuel + 1) s = loop body fuel s' := by
  rw [loop, goes]

theorem loop_leave {body : S → Option (S ⊕ R)} {s : S} {r : R} (leaves : body s = some (.inr r))
    (fuel : Nat) : loop body (fuel + 1) s = some r := by
  rw [loop, leaves]

/-- More fuel, inside the body or around it, changes no result. -/
theorem loop_mono {body more : S → Option (S ⊕ R)}
    (agrees : ∀ s next, body s = some next → more s = some next) {fuel fuel' : Nat} (le : fuel ≤ fuel')
    {s : S} {r : R} (done : loop body fuel s = some r) : loop more fuel' s = some r := by
  induction fuel generalizing s fuel' with
  | zero => cases done
  | succ fuel ih =>
    obtain ⟨fuel', rfl⟩ : ∃ extra, fuel' = extra + 1 := ⟨fuel' - 1, by omega⟩
    rw [loop] at done ⊢
    cases turn : body s with
    | none => simp [turn] at done
    | some next =>
      rw [agrees s next turn]
      cases next with
      | inl s' =>
        simp only [turn] at done ⊢
        exact ih (by omega) done
      | inr r' => simpa [turn] using done

/-- The result comes from a last turn, and what the turns before it keep holds there. -/
theorem loop_last (body : S → Option (S ⊕ R)) (Inv : S → Prop)
    (keeps : ∀ s s', Inv s → body s = some (.inl s') → Inv s') {fuel : Nat} {s : S} {r : R}
    (holds : Inv s) (done : loop body fuel s = some r) : ∃ last, Inv last ∧ body last = some (.inr r) := by
  induction fuel generalizing s with
  | zero => cases done
  | succ fuel ih =>
    rw [loop] at done
    cases turn : body s with
    | none => simp [turn] at done
    | some next =>
      cases next with
      | inl s' =>
        simp only [turn] at done
        exact ih (keeps s s' holds turn) done
      | inr r' =>
        obtain rfl : r' = r := by simpa [turn] using done
        exact ⟨s, holds, turn⟩

/-- A measure that every turn lowers is fuel enough. -/
theorem loop_measured (body : S → Option (S ⊕ R)) (Inv : S → Prop) (measure : S → Nat)
    (finishes : ∀ s, Inv s → body s ≠ none)
    (lowers : ∀ s s', Inv s → body s = some (.inl s') → Inv s' ∧ measure s' < measure s)
    (fuel : Nat) (s : S) (holds : Inv s) (enough : measure s < fuel) :
    ∃ r, loop body fuel s = some r := by
  induction fuel generalizing s with
  | zero => cases enough
  | succ fuel ih =>
    cases turn : body s with
    | none => exact absurd turn (finishes s holds)
    | some next =>
      cases next with
      | inl s' =>
        obtain ⟨holds', lower⟩ := lowers s s' holds turn
        rw [loop_continue turn]
        exact ih s' holds' (by omega)
      | inr r => exact ⟨r, loop_leave turn fuel⟩

/-- A loop whose turns are those of another one under a view of its states. -/
theorem loop_map {T Q : Type} {body : S → Option (S ⊕ R)} (seen : T → Option (T ⊕ Q)) (view : S → T)
    (out : R → Q)
    (agrees : ∀ s, (body s).map (Sum.map view out) = seen (view s)) (fuel : Nat) (s : S) :
    (loop body fuel s).map out = loop seen fuel (view s) := by
  induction fuel generalizing s with
  | zero => rfl
  | succ fuel ih =>
    rw [loop, loop, ← agrees s]
    cases body s with
    | none => rfl
    | some next =>
      cases next with
      | inl s' => exact ih s'
      | inr r => rfl

theorem loop_stuck {body : S → Option (S ⊕ R)} {s : S} (stays : body s = some (.inl s)) (fuel : Nat) :
    loop body fuel s = none := by
  induction fuel with
  | zero => rfl
  | succ fuel ih => rw [loop_continue stays, ih]

end BoundedLoop
