import ReacAes67.Shared.MaskedIndex

set_option autoImplicit false

/-!
# A ring of recent values

Written round and round, a ring of `n` slots keeps the newest `n` values of a
stream. Reading backwards from the write position takes a signed remainder.
-/

namespace HistoryRing

variable {α : Type}

/-- The newest `n` values of the stream `xs` lie in their slots, value `i` in slot `i % n`. -/
def Keeps (n : Nat) (slots : Nat → α) (xs : List α) : Prop :=
  ∀ i, i < xs.length → xs.length ≤ i + n → xs[i]? = some (slots (i % n))

theorem keeps_nil (n : Nat) (slots : Nat → α) : Keeps n slots [] := by
  intro i inside
  exact absurd inside (Nat.not_lt_zero i)

theorem Keeps.push {n : Nat} {slots : Nat → α} {xs : List α} (keeps : Keeps n slots xs) (x : α) :
    Keeps n (fun i => if i = xs.length % n then x else slots i) (xs ++ [x]) := by
  intro i inside recent
  rw [List.length_append, List.length_singleton] at inside recent
  by_cases newest : i = xs.length
  next => simp [newest]
  next =>
    have older : i < xs.length := by omega
    have apart : i % n ≠ xs.length % n := MaskedIndex.positions_distinct older (by omega)
    simpa [apart, List.getElem?_append_left older] using keeps i older (by omega)

-- The C remainder of a negative number is negative; one correction makes it a slot.
theorem signed_slot {n head back : Nat} (bound : head < n) (near : back < n) :
    let idx := ((head : Int) - 1 - back).tmod n
    (if idx < 0 then idx + n else idx).toNat = (n + head - 1 - back) % n := by
  intro idx
  by_cases ahead : back + 1 ≤ head
  next =>
    have plain : idx = (head : Int) - 1 - back := Int.tmod_eq_of_lt (by omega) (by omega)
    have slot : n + head - 1 - back = head - 1 - back + n := by omega
    rw [plain, if_neg (by omega), slot, Nat.add_mod_right, Nat.mod_eq_of_lt (by omega)]
    omega
  next =>
    by_cases bottom : n + head - 1 - back = 0
    next =>
      have turn : (head : Int) - 1 - back = -n := by omega
      have wrapped : idx = 0 := by simp only [idx, turn, Int.neg_tmod, Int.tmod_self, Int.neg_zero]
      simp [wrapped, bottom]
    next =>
      have flipped : (head : Int) - 1 - back = -(back + 1 - head) := by omega
      have plain : idx = (head : Int) - 1 - back := by
        simp only [idx]
        rw [flipped, Int.neg_tmod, Int.tmod_eq_of_lt (by omega) (by omega)]
      rw [plain, if_pos (by omega), Nat.mod_eq_of_lt (by omega)]
      omega

theorem back_slot {n len back : Nat} (inside : back < len) (near : back < n) :
    (n + len % n - 1 - back) % n = (len - 1 - back) % n := by
  have whole := Nat.div_add_mod len n
  generalize len % n = head at whole
  by_cases ahead : back + 1 ≤ head
  next =>
    have left : n + head - 1 - back = n * 1 + (head - 1 - back) := by omega
    have right : len - 1 - back = n * (len / n) + (head - 1 - back) := by omega
    rw [left, right, Nat.mul_add_mod, Nat.mul_add_mod]
  next =>
    cases turns : len / n with
    | zero =>
      rw [turns, Nat.mul_zero] at whole
      omega
    | succ turns' =>
      rw [turns, Nat.mul_succ] at whole
      have right : len - 1 - back = n * turns' + (n + head - 1 - back) := by omega
      rw [right, Nat.mul_add_mod]

end HistoryRing
