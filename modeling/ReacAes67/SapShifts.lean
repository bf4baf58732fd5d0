import Mathlib.Tactic.Ring
import ReacAes67.Packetizer
import ReacAes67.SapHash

set_option autoImplicit false

/-!
# Steps of printed numbers

The descriptions of two flows differ in three printed numbers: the flow's, the
last octet of the group and, for the last flow, the channel count. While each of
them keeps its width, the hashes differ by the steps of the three numbers, each
at its place, and these steps do not cancel.
-/

namespace ReacAes67

open PolynomialHash TextLines

section Digits

def digitsValue (text : List Char) : Nat := value 31 (text.map Char.toNat)

theorem digitsValue_append (left right : List Char) :
    digitsValue (left ++ right) = 31 ^ right.length * digitsValue left + digitsValue right := by
  have split := value_append (b := 31) (left.map Char.toNat) (right.map Char.toNat)
  simpa [digitsValue] using split

def numberWidth (n : Nat) : Nat := if n < 10 then 1 else if n < 100 then 2 else 3

-- The characters' code of the digit 0 is 48.
def widthValue : Nat → Nat
  | 1 => 48
  | 2 => 48 * 31 + 48
  | _ => (48 * 31 + 48) * 31 + 48

theorem decimal_width : ∀ n : Nat, n < 256 → (decimal n).length = numberWidth n := by decide +kernel

theorem decimal_short {n : Nat} (small : n < 100) : (decimal n).length ≤ 2 := by
  rw [decimal_width n (by omega), numberWidth]
  split
  next => omega
  next => exact Nat.le_refl 2

theorem same_digits {m n : Nat} (mSmall : m < 100) (nSmall : n < 100)
    (widths : (decimal m).length = (decimal n).length) : 10 ≤ m ↔ 10 ≤ n := by
  rw [decimal_width m (by omega), decimal_width n (by omega)] at widths
  simp only [numberWidth, mSmall, nSmall, if_true] at widths
  split at widths <;> split at widths <;> omega

theorem digitsValue_decimal : ∀ n : Nat, n < 256 →
    digitsValue (decimal n) = widthValue (numberWidth n) + (651 * (n / 100) + 21 * (n / 10) + n) := by
  decide +kernel

def firstDigit (n : Nat) : Nat := if n < 10 then n else n / 10

theorem digitsValue_first : ∀ n : Nat, n < 41 → digitsValue ((decimal n).take 1) = 48 + firstDigit n := by
  decide +kernel

/-- How the value of a number's digits grows when its width does not. -/
theorem digitsValue_grows {m n : Nat} (less : m ≤ n) (small : n < 256)
    (widths : (decimal m).length = (decimal n).length) :
    digitsValue (decimal n) =
      digitsValue (decimal m) + (651 * (n / 100 - m / 100) + 21 * (n / 10 - m / 10) + (n - m)) := by
  rw [decimal_width m (by omega), decimal_width n small] at widths
  rw [digitsValue_decimal m (by omega), digitsValue_decimal n small, widths]
  omega

/-- What the printed part of a flow's number can change by, modulo 2^16. -/
def numberShifts (m n : Nat) : List Nat :=
  [0, 65536 + firstDigit n - firstDigit m, 21 * (n / 10 - m / 10) + (n - m)]

theorem number_shift {m n : Nat} (less : m < n) (small : n < 41) (kept : Nat)
    (widths : ((decimal m).take kept).length = ((decimal n).take kept).length) :
    ∃ S ∈ numberShifts m n,
      digitsValue ((decimal n).take kept) ≡ digitsValue ((decimal m).take kept) + S [MOD 65536] := by
  have mWidth := decimal_short (by omega : m < 100)
  have nWidth := decimal_short (by omega : n < 100)
  match kept with
  | 0 => exact ⟨0, by simp [numberShifts], by simp [Nat.ModEq]⟩
  | 1 =>
    refine ⟨65536 + firstDigit n - firstDigit m, by simp [numberShifts], ?_⟩
    have digit : firstDigit m ≤ 40 := by
      simp only [firstDigit]
      split <;> omega
    rw [digitsValue_first m (by omega), digitsValue_first n small, Nat.ModEq]
    omega
  | kept + 2 =>
    rw [List.take_of_length_le (by omega), List.take_of_length_le (by omega)] at widths ⊢
    refine ⟨21 * (n / 10 - m / 10) + (n - m), by simp [numberShifts], ?_⟩
    rw [digitsValue_grows less.le (by omega) widths, Nat.ModEq]
    omega

end Digits

section Layout

variable {k m : Nat}

/-- The flow number stands `k` places before the last octet, the octet `m` before the channel count. -/
theorem layout_congr {x y n x' y' n' between rest S O E : Nat} (number : x' ≡ x + S [MOD 65536])
    (octet : y' = y + O) (channels : n = n' + E)
    (same : 31 ^ m * (31 ^ k * x + between + y) + (rest + n) ≡
      31 ^ m * (31 ^ k * x' + between + y') + (rest + n') [MOD 65536]) :
    31 ^ m * (31 ^ k * S + O) % 65536 = E % 65536 := by
  have moved : 31 ^ m * (31 ^ k * x' + between + y') + (rest + n') ≡
      31 ^ m * (31 ^ k * (x + S) + between + (y + O)) + (rest + n') [MOD 65536] := by
    rw [octet]
    exact ((((number.mul_left _).add_right _).add_right _).mul_left _).add_right _
  have grouped := same.trans moved
  have left : 31 ^ m * (31 ^ k * x + between + y) + (rest + n) =
      31 ^ m * (31 ^ k * x + between + y) + (rest + n') + E := by
    rw [channels]
    ring
  have right : 31 ^ m * (31 ^ k * (x + S) + between + (y + O)) + (rest + n') =
      31 ^ m * (31 ^ k * x + between + y) + (rest + n') + 31 ^ m * (31 ^ k * S + O) := by ring
  rw [left, right] at grouped
  exact (Nat.ModEq.add_left_cancel' _ grouped).symm

theorem digitsValue_places (number between octet rest channels : List Char) :
    digitsValue (number ++ between ++ octet ++ rest ++ channels) =
      31 ^ (rest.length + channels.length) * (31 ^ (between.length + octet.length) * digitsValue number +
        31 ^ octet.length * digitsValue between + digitsValue octet) +
        (31 ^ channels.length * digitsValue rest + digitsValue channels) := by
  rw [digitsValue_append, digitsValue_append, digitsValue_append, digitsValue_append, pow_add, pow_add]
  ring

theorem places_congr (before between rest after : List Char)
    {number octet channels number' octet' channels' : List Char} {S O E : Nat}
    (numberWidths : number.length = number'.length) (octetWidths : octet.length = octet'.length)
    (channelWidths : channels.length = channels'.length)
    (numberShift : digitsValue number' ≡ digitsValue number + S [MOD 65536])
    (octetShift : digitsValue octet' = digitsValue octet + O)
    (channelShift : digitsValue channels = digitsValue channels' + E)
    (same : textValue (before ++ (number ++ between ++ octet ++ rest ++ channels) ++ after) ≡
      textValue (before ++ (number' ++ between ++ octet' ++ rest ++ channels') ++ after) [MOD 65536]) :
    31 ^ (rest.length + channels.length) * (31 ^ (between.length + octet.length) * S + O) % 65536 =
      E % 65536 := by
  have length : (number ++ between ++ octet ++ rest ++ channels).length =
      (number' ++ between ++ octet' ++ rest ++ channels').length := by
    simp only [List.length_append]
    omega
  have values : digitsValue (number ++ between ++ octet ++ rest ++ channels) ≡
      digitsValue (number' ++ between ++ octet' ++ rest ++ channels') [MOD 65536] :=
    (textValue_congr_iff length before after).mp same
  rw [digitsValue_places, digitsValue_places, ← octetWidths, ← channelWidths] at values
  exact layout_congr numberShift octetShift channelShift values

/-- What the last octet can grow by over `D` flows. -/
def octetShift (D tens hundreds : Nat) : Nat := 651 * hundreds + 21 * tens + D

theorem octet_shift {a b : Nat} (less : a < b) (near : b < a + 40) :
    ∃ tens ∈ [(b - a) / 10, (b - a) / 10 + 1], ∃ hundreds < 2,
      651 * (b / 100 - a / 100) + 21 * (b / 10 - a / 10) + (b - a) = octetShift (b - a) tens hundreds := by
  refine ⟨b / 10 - a / 10, ?_, b / 100 - a / 100, by omega, rfl⟩
  simp only [List.mem_cons, List.not_mem_nil, or_false]
  omega

-- With one printed digit the step of the number is never the octet's step with the opposite sign.
theorem first_apart : ∀ k < 9, ∀ t < 17,
    31 ^ (k + 18) * (65528 + t) % 65536 < 64762 ∨
      64884 < 31 ^ (k + 18) * (65528 + t) % 65536 ∧ 31 ^ (k + 18) * (65528 + t) % 65536 < 65413 := by
  decide +kernel

theorem whole_apart : ∀ k < 9, ∀ D < 40, 0 < D → ∀ tens ∈ [D / 10, D / 10 + 1], ∀ hundreds < 2,
    ∀ c ∈ [D / 10, D / 10 + 1],
      (31 ^ (k + 18) * (21 * c + D) + octetShift D tens hundreds) % 65536 ≠ 0 := by
  decide +kernel

theorem steps_apart {i j tens hundreds S : Nat} (less : i < j) (small : j < 40) (inside : k < 9)
    (tensStep : tens ∈ [(j - i) / 10, (j - i) / 10 + 1]) (hundredsStep : hundreds < 2)
    (shift : S ∈ numberShifts (i + 1) (j + 1)) :
    (31 ^ (k + 18) * S + octetShift (j - i) tens hundreds) % 65536 ≠ 0 := by
  have positive : 0 < octetShift (j - i) tens hundreds ∧ 21 * tens + (j - i) ≤ 123 := by
    simp only [List.mem_cons, List.not_mem_nil, or_false] at tensStep
    simp only [octetShift]
    omega
  simp only [numberShifts, List.mem_cons, List.not_mem_nil, or_false] at shift
  rcases shift with rfl | rfl | rfl
  next =>
    simp only [octetShift] at positive ⊢
    omega
  next =>
    have digits (n : Nat) (lower : 0 < n) (upper : n < 41) : 1 ≤ firstDigit n ∧ firstDigit n ≤ 9 := by
      simp only [firstDigit]
      split <;> omega
    have old := digits (i + 1) (by omega) (by omega)
    have new := digits (j + 1) (by omega) (by omega)
    have apart := first_apart k inside (8 + firstDigit (j + 1) - firstDigit (i + 1)) (by omega)
    have same : 65528 + (8 + firstDigit (j + 1) - firstDigit (i + 1)) =
        65536 + firstDigit (j + 1) - firstDigit (i + 1) := by omega
    rw [same] at apart
    simp only [octetShift] at positive ⊢
    rcases (by omega : hundreds = 0 ∨ hundreds = 1) with rfl | rfl
    next => omega
    next => omega
  next =>
    have tensDigit : (j + 1) / 10 - (i + 1) / 10 ∈ [(j - i) / 10, (j - i) / 10 + 1] := by
      simp only [List.mem_cons, List.not_mem_nil, or_false]
      omega
    have apart := whole_apart k inside (j - i) (by omega) (by omega) tens tensStep hundreds hundredsStep
      ((j + 1) / 10 - (i + 1) / 10) tensDigit
    rwa [Nat.add_sub_add_right]

def lastWidth (w : Nat) : Nat := 40 - (flowCount 40 w - 1) * w

def lastStep (w : Nat) : Nat := 21 * (w / 10 - lastWidth w / 10) + (w - lastWidth w)

/-- The octet ends 18 to 26 characters after the flow number and the channel count 54 to 73 after the
octet: there the steps of the first two do not amount to the step of the third. -/
def Apart (S O E : Nat) : Prop :=
  ∀ k < 9, (31 ^ (k + 18) * S + O) % 32 = E % 32 ∨ (31 ^ (k + 18) * S + O + E) % 32 = 0 →
    ∀ m < 20, 31 ^ (m + 54) * (31 ^ (k + 18) * S + O) % 65536 ≠ E

instance (S O E : Nat) : Decidable (Apart S O E) :=
  inferInstanceAs (Decidable (∀ k < 9, _ → ∀ m < 20, _))

def StepsApart (i j E : Nat) : Prop :=
  ∀ tens ∈ [(j - i) / 10, (j - i) / 10 + 1], ∀ hundreds < 2, ∀ S ∈ numberShifts (i + 1) (j + 1),
    Apart S (octetShift (j - i) tens hundreds) E

instance (i j E : Nat) : Decidable (StepsApart i j E) :=
  inferInstanceAs (Decidable (∀ tens ∈ [(j - i) / 10, (j - i) / 10 + 1], ∀ hundreds < 2,
    ∀ S ∈ numberShifts (i + 1) (j + 1), Apart S (octetShift (j - i) tens hundreds) E))

theorem last_apart : ∀ w < 40, 0 < w → lastWidth w < w → (10 ≤ w ↔ 10 ≤ lastWidth w) →
    ∀ i < flowCount 40 w - 1, StepsApart i (flowCount 40 w - 1) (lastStep w) := by
  decide +kernel

theorem pow_mod_32 (m : Nat) : 31 ^ m % 32 = 1 ∨ 31 ^ m % 32 = 31 := by
  induction m with
  | zero => exact Or.inl rfl
  | succ m ih =>
    rw [Nat.pow_succ, Nat.mul_mod]
    rcases ih with one | minus
    next => simp [one]
    next => simp [minus]

-- 31 is -1 modulo 32, so only values equal to `E` up to the sign have to be compared.
theorem Apart.ne {S O E : Nat} (apart : Apart S O E) (places : k < 9) (rest : m < 20) :
    31 ^ (m + 54) * (31 ^ (k + 18) * S + O) % 65536 ≠ E := by
  intro same
  refine apart k places ?_ m rest same
  generalize 31 ^ (k + 18) * S + O = v at same ⊢
  have low : 31 ^ (m + 54) * v % 32 = E % 32 := by omega
  rw [Nat.mul_mod] at low
  rcases pow_mod_32 (m + 54) with one | minus
  next =>
    rw [one] at low
    omega
  next =>
    rw [minus] at low
    omega

end Layout

end ReacAes67
