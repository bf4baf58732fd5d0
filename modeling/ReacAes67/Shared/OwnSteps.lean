import Mathlib.Logic.Function.Iterate

set_option autoImplicit false

/-!
# One party running alone

What a step function reaches when nothing else moves: a loop counted by its
turns, and a measure that every step lowers until the party is done.
-/

namespace OwnSteps

variable {σ τ : Type} {step : σ → σ}

def Reaches (step : σ → σ) (s s' : σ) : Prop := ∃ n, step^[n] s = s'

theorem Reaches.refl (s : σ) : Reaches step s s := ⟨0, rfl⟩

theorem Reaches.head {s s' : σ} (rest : Reaches step (step s) s') : Reaches step s s' := by
  obtain ⟨n, reached⟩ := rest
  exact ⟨n + 1, reached⟩

theorem Reaches.trans {s middle s' : σ} (first : Reaches step s middle) (rest : Reaches step middle s') :
    Reaches step s s' := by
  obtain ⟨n, rfl⟩ := first
  obtain ⟨m, rfl⟩ := rest
  exact ⟨m + n, Function.iterate_add_apply step m n s⟩

theorem Reaches.tail {s middle s' : σ} (first : Reaches step s middle) (last : step middle = s') :
    Reaches step s s' := by
  subst last
  exact first.trans (Reaches.refl _).head

-- The turns of a counted loop.
theorem Reaches.turns (turn : Nat → σ) {n : Nat} (next : ∀ i, i < n → Reaches step (turn i) (turn (i + 1))) :
    Reaches step (turn 0) (turn n) := by
  induction n with
  | zero => exact .refl _
  | succ n ih => exact (ih fun i inside => next i (by omega)).trans (next n (by omega))

-- What every step keeps holds where they lead.
theorem Reaches.keeps {s s' : σ} (reached : Reaches step s s') (Inv : σ → Prop)
    (kept : ∀ s, Inv s → Inv (step s)) (start : Inv s) : Inv s' := by
  obtain ⟨n, rfl⟩ := reached
  exact Function.Iterate.rec Inv start kept n

section Within

variable {inner : σ → σ} {outer : τ → τ} {done : σ → Prop}

-- A party as a part of a larger one.
theorem Reaches.lift (f : σ → τ) (step : ∀ s, outer (f s) = f (inner s)) {s s' : σ}
    (reached : Reaches inner s s') : Reaches outer (f s) (f s') := by
  obtain ⟨n, rfl⟩ := reached
  have part : Function.Semiconj f inner outer := fun s => (step s).symm
  exact ⟨n, ((part.iterate_right n) s).symm⟩

/-- A party inside a larger one, which shows as `f` while it runs and as `g` when it is done. -/
theorem Reaches.within (f g : σ → τ) (Inv : σ → Prop) (kept : ∀ s, Inv s → Inv (inner s))
    (stays : ∀ s, done s → inner s = s)
    (inside : ∀ s, Inv s → ¬ done (inner s) → outer (f s) = f (inner s))
    (leaves : ∀ s, Inv s → done (inner s) → outer (f s) = g (inner s))
    {s s' : σ} (reached : Reaches inner s s') (start : Inv s) (busy : ¬ done s) (ended : done s') :
    Reaches outer (f s) (g s') := by
  obtain ⟨n, rfl⟩ := reached
  induction n generalizing s with
  | zero => exact absurd ended busy
  | succ n ih =>
    rw [Function.iterate_succ_apply] at ended ⊢
    by_cases last : done (inner s)
    next =>
      rw [Function.iterate_fixed (stays _ last)]
      exact (Reaches.refl _).tail (leaves s start last)
    next =>
      apply Reaches.head
      rw [inside s start last]
      exact ih (kept s start) last ended

end Within

/-- A measure that every step lowers until the party is done. -/
theorem reaches_done (done : σ → Prop) (measure : σ → Nat)
    (lowers : ∀ s, ¬ done s → measure (step s) < measure s) (s : σ) : ∃ s', Reaches step s s' ∧ done s' := by
  induction bound : measure s using Nat.strongRecOn generalizing s with
  | ind n ih =>
    by_cases finished : done s
    next => exact ⟨s, .refl s, finished⟩
    next =>
      obtain ⟨s', rest, finished'⟩ := ih _ (bound ▸ lowers s finished) (step s) rfl
      exact ⟨s', rest.head, finished'⟩

end OwnSteps
