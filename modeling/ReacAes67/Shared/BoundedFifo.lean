import Mathlib.Data.List.TakeDrop

set_option autoImplicit false

/-!
# A bounded FIFO with its history

The queue keeps everything it ever accepted and how much of it was taken, so
that losing, repeating or reordering an entry cannot be expressed.
-/

namespace BoundedFifo

structure Fifo (ρ : Type) (bound : Nat) where
  accepted : List ρ
  taken : Nat
  taken_le : taken ≤ accepted.length
  unread_le : accepted.length ≤ taken + bound

variable {ρ : Type} {bound : Nat}

namespace Fifo

def empty : Fifo ρ bound := ⟨[], 0, Nat.le_refl 0, Nat.zero_le _⟩

def unread (q : Fifo ρ bound) : Nat := q.accepted.length - q.taken

def push (q : Fifo ρ bound) (rows : List ρ)
    (room : q.accepted.length + rows.length ≤ q.taken + bound) : Fifo ρ bound :=
  { accepted := q.accepted ++ rows
    taken := q.taken
    taken_le := by
      have bounded := q.taken_le
      rw [List.length_append]
      omega
    unread_le := by
      rw [List.length_append]
      exact room }

def take (q : Fifo ρ bound) (n : Nat) (available : q.taken + n ≤ q.accepted.length) :
    Fifo ρ bound :=
  { accepted := q.accepted
    taken := q.taken + n
    taken_le := available
    unread_le := by
      have bounded := q.unread_le
      omega }

def front (q : Fifo ρ bound) (n : Nat) : List ρ := (q.accepted.drop q.taken).take n

theorem unread_le_bound (q : Fifo ρ bound) : q.unread ≤ bound := by
  have bounded := q.unread_le
  unfold unread
  omega

-- What was taken before and the front that is taken now are what is taken after.
theorem taken_append_front (q : Fifo ρ bound) (n : Nat) :
    q.accepted.take q.taken ++ q.front n = q.accepted.take (q.taken + n) := by
  rw [front, List.take_add]

theorem front_length (q : Fifo ρ bound) {n : Nat} (available : q.taken + n ≤ q.accepted.length) :
    (q.front n).length = n := by
  rw [front, List.length_take, List.length_drop]
  omega

theorem front_getElem? (q : Fifo ρ bound) {n i : Nat} (inside : i < n) :
    (q.front n)[i]? = q.accepted[q.taken + i]? := by
  rw [front, List.getElem?_take_of_lt inside, List.getElem?_drop]

/-- Rows that show the front's entries through `view` are the front through `view`. -/
theorem map_eq_front {β : Type} (q : Fifo ρ bound) {n : Nat}
    (available : q.taken + n ≤ q.accepted.length) (view : ρ → β) (rows : Nat → ρ)
    (same : ∀ i row, i < n → q.accepted[q.taken + i]? = some row → view (rows i) = view row) :
    ((List.range n).map rows).map view = (q.front n).map view := by
  apply List.ext_getElem
  · rw [List.length_map, List.length_map, List.length_range, List.length_map,
      q.front_length available]
  · intro i inLeft inRight
    have inside : i < n := by simpa using inLeft
    have member := q.front_getElem? inside
    rw [List.getElem?_eq_getElem (by rw [q.front_length available]; exact inside)] at member
    simp only [List.getElem_map, List.getElem_range]
    exact same i _ inside member.symm

theorem push_take (q : Fifo ρ bound) (rows : List ρ)
    (room : q.accepted.length + rows.length ≤ q.taken + bound) :
    (q.push rows room).accepted.take q.taken = q.accepted.take q.taken :=
  List.take_append_of_le_length q.taken_le

theorem push_nil (q : Fifo ρ bound) (room : q.accepted.length + 0 ≤ q.taken + bound) :
    q.push [] room = q := by
  obtain ⟨accepted, taken, low, high⟩ := q
  simp [push]

/-- One move of the queue, or none. -/
inductive Moves : Fifo ρ bound → Fifo ρ bound → Prop
  | stay (q : Fifo ρ bound) : Moves q q
  | push (q : Fifo ρ bound) (rows : List ρ)
      (room : q.accepted.length + rows.length ≤ q.taken + bound) : Moves q (q.push rows room)
  | take (q : Fifo ρ bound) (n : Nat) (available : q.taken + n ≤ q.accepted.length) :
      Moves q (q.take n available)

end Fifo

end BoundedFifo
