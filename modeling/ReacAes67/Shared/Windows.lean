import Mathlib.Data.List.Forall2
import Mathlib.Tactic.Ring

set_option autoImplicit false

/-!
# Windows of a stream

A stream cut into consecutive windows of equal length, the way a buffer that is
flushed when full cuts it: an unfinished last window is not a window.
-/

namespace Windows

variable {α β : Type}

def windows (n : Nat) : List α → List α → List (List α)
  | _, [] => []
  | buffered, x :: xs =>
    if buffered.length + 1 < n then windows n (buffered ++ [x]) xs
    else (buffered ++ [x]) :: windows n [] xs

theorem windows_length (n : Nat) (positive : 0 < n) (buffered xs : List α)
    (room : buffered.length < n) :
    (windows n buffered xs).length = (buffered.length + xs.length) / n := by
  induction xs generalizing buffered with
  | nil => simpa [windows] using (Nat.div_eq_of_lt room).symm
  | cons x xs ih =>
    by_cases more : buffered.length + 1 < n
    · have later := ih (buffered ++ [x]) (by simpa using more)
      simp only [windows, if_pos more, later, List.length_append, List.length_cons, List.length_nil]
      congr 1
      omega
    · have full : buffered.length + (x :: xs).length = xs.length + n := by
        rw [List.length_cons]
        omega
      simp only [windows, if_neg more, List.length_cons] at full ⊢
      rw [full, Nat.add_div_right _ positive, ih [] positive, List.length_nil, Nat.zero_add]

theorem windows_getElem? (n : Nat) (positive : 0 < n) (buffered xs : List α)
    (room : buffered.length < n) (k : Nat) (inside : (k + 1) * n ≤ buffered.length + xs.length) :
    (windows n buffered xs)[k]? = some (((buffered ++ xs).drop (k * n)).take n) := by
  induction xs generalizing buffered k with
  | nil =>
    have least : n ≤ (k + 1) * n := Nat.le_mul_of_pos_left n (Nat.succ_pos k)
    rw [List.length_nil] at inside
    omega
  | cons x xs ih =>
    rw [List.length_cons] at inside
    by_cases more : buffered.length + 1 < n
    · have later := ih (buffered ++ [x]) (by simpa using more) k (by simp; omega)
      simpa only [windows, if_pos more, List.append_assoc, List.singleton_append] using later
    · have full : (buffered ++ [x]).length = n := by
        simp
        omega
      have split : buffered ++ x :: xs = (buffered ++ [x]) ++ xs := by simp
      simp only [windows, if_neg more, split]
      cases k with
      | zero => rw [List.getElem?_cons_zero, Nat.zero_mul, List.drop_zero, List.take_left' full]
      | succ k =>
        have position : (k + 1) * n = (buffered ++ [x]).length + k * n := by rw [full]; ring
        have enough : (k + 1) * n ≤ ([] : List α).length + xs.length := by
          have total : (k + 1 + 1) * n = (k + 1) * n + n := by ring
          rw [List.length_nil]
          omega
        rw [List.getElem?_cons_succ, ih [] positive k enough, position, List.nil_append,
          List.drop_length_add_append]

-- What is still buffered when the stream ends.
def rest (n : Nat) : List α → List α → List α
  | buffered, [] => buffered
  | buffered, x :: xs =>
    if buffered.length + 1 < n then rest n (buffered ++ [x]) xs else rest n [] xs

theorem rest_eq_drop (n : Nat) (positive : 0 < n) (buffered xs : List α) (room : buffered.length < n) :
    rest n buffered xs = (buffered ++ xs).drop ((buffered.length + xs.length) / n * n) := by
  induction xs generalizing buffered with
  | nil => simp [rest, Nat.div_eq_of_lt room]
  | cons x xs ih =>
    by_cases more : buffered.length + 1 < n
    · have later := ih (buffered ++ [x]) (by simpa using more)
      have total : (buffered ++ [x]).length + xs.length = buffered.length + (x :: xs).length := by
        simp
        omega
      simpa only [rest, if_pos more, List.append_assoc, List.singleton_append, total] using later
    · have full : (buffered ++ [x]).length = n := by
        simp
        omega
      have total : buffered.length + (x :: xs).length = xs.length + n := by
        rw [List.length_cons]
        omega
      have split : buffered ++ x :: xs = (buffered ++ [x]) ++ xs := by simp
      have position : (xs.length / n + 1) * n = (buffered ++ [x]).length + xs.length / n * n := by
        rw [full]
        ring
      simp only [rest, if_neg more]
      rw [total, Nat.add_div_right _ positive, split, position, List.drop_length_add_append,
        ih [] positive, List.length_nil, Nat.zero_add, List.nil_append]

theorem rest_length (n : Nat) (positive : 0 < n) (xs : List α) : (rest n [] xs).length = xs.length % n := by
  have division := Nat.div_add_mod' xs.length n
  rw [rest_eq_drop n positive [] xs positive, List.length_drop, List.length_nil, Nat.zero_add,
    List.nil_append]
  omega

theorem windows_one (xs : List α) : windows 1 [] xs = xs.map fun x => [x] := by
  induction xs with
  | nil => rfl
  | cons x xs ih => simp [windows, ih]

theorem windows_related {R : α → β → Prop} (n : Nat) {left : List α} {right : List β}
    (buffered : List.Forall₂ R left right) {xs : List α} {ys : List β}
    (streams : List.Forall₂ R xs ys) :
    List.Forall₂ (List.Forall₂ R) (windows n left xs) (windows n right ys) := by
  induction streams generalizing left right with
  | nil => exact .nil
  | cons pair _ ih =>
    have longer := List.rel_append buffered (.cons pair .nil)
    simp only [windows, buffered.length_eq]
    split
    · exact ih longer
    · exact .cons longer (ih .nil)

theorem zipIdx_related {R : α → β → Prop} {xs : List α} {ys : List β}
    (related : List.Forall₂ R xs ys) (n : Nat) :
    List.Forall₂ (fun left right => R left.1 right.1 ∧ left.2 = right.2) (xs.zipIdx n)
      (ys.zipIdx n) := by
  induction related generalizing n with
  | nil => exact .nil
  | cons pair _ ih => exact .cons ⟨pair, rfl⟩ (ih (n + 1))

-- Of a list whose entries carry their own positions, one position selects one entry.
theorem filter_mapIdx_position (position : β → Nat) (g : Nat → α → β) (offset : Nat)
    (placed : ∀ i a, position (g i a) = offset + i) (xs : List α) {i : Nat} {a : α}
    (member : xs[i]? = some a) :
    (xs.mapIdx g).filter (fun b => position b = offset + i) = [g i a] := by
  induction xs generalizing g offset i with
  | nil => simp at member
  | cons x xs ih =>
    rw [List.mapIdx_cons]
    cases i with
    | zero =>
      obtain rfl : x = a := by simpa using member
      have others : (xs.mapIdx fun i => g (i + 1)).filter (fun b => position b = offset + 0) = [] := by
        rw [List.filter_eq_nil_iff]
        intro b later
        obtain ⟨j, inside, rfl⟩ := List.mem_iff_getElem.mp later
        simp [placed]
      rw [List.filter_cons_of_pos (by simp [placed]), others]
    | succ i =>
      have later := ih (fun i => g (i + 1)) (offset + 1) (fun j b => by rw [placed]; omega)
        (by simpa using member)
      rw [List.filter_cons_of_neg (by simp [placed])]
      rw [← later]
      congr 1
      funext b
      congr 1
      ring_nf

-- Equal pieces put together again.
theorem flatMap_pieces (n count : Nat) (stream : List α) :
    (List.range count).flatMap (fun k => (stream.drop (k * n)).take n) = stream.take (count * n) := by
  induction count with
  | zero => simp
  | succ count ih =>
    rw [List.range_succ, List.flatMap_append, ih, List.flatMap_singleton, Nat.succ_mul, List.take_add]

end Windows
