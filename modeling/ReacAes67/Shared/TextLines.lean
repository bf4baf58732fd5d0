import Mathlib.Logic.Basic

set_option autoImplicit false

/-!
# Texts read line by line

A text is a list of characters. A reader splits it into lines, looks at each
line for itself and lets a later line override what an earlier one said, so
only the last lines of a text count.
-/

namespace TextLines

def isBreak (c : Char) : Bool := c == '\r' || c == '\n'

def endLine (line : List Char) : List Char := line ++ ['\r', '\n']

def Unbroken (text : List Char) : Prop := ∀ c ∈ text, isBreak c = false

instance (text : List Char) : Decidable (Unbroken text) :=
  inferInstanceAs (Decidable (∀ c ∈ text, isBreak c = false))

theorem Unbroken.append {left right : List Char} (first : Unbroken left) (second : Unbroken right) :
    Unbroken (left ++ right) := List.forall_mem_append.mpr ⟨first, second⟩

theorem Unbroken.take {text : List Char} (unbroken : Unbroken text) (n : Nat) :
    Unbroken (text.take n) := fun c member => unbroken c (List.mem_of_mem_take member)

/-- Characters that stand in any string and end no line. -/
def Graphic (text : List Char) : Prop := ∀ c ∈ text, 32 ≤ c.toNat ∧ c.toNat < 127

theorem Graphic.append {left right : List Char} (first : Graphic left) (second : Graphic right) :
    Graphic (left ++ right) := List.forall_mem_append.mpr ⟨first, second⟩

theorem Graphic.unbroken {text : List Char} (graphic : Graphic text) : Unbroken text := by
  intro c member
  have printed := (graphic c member).1
  simp only [isBreak, Bool.or_eq_false_iff, beq_eq_false_iff_ne]
  constructor <;> rintro rfl <;> exact absurd printed (by decide)

theorem literal_graphic (text : List Char)
    (printed : text.all (fun c => decide (32 ≤ c.toNat) && decide (c.toNat < 127)) = true) :
    Graphic text := by
  intro c member
  simpa using List.all_eq_true.mp printed c member

/-- `%d` of a C integer. -/
def decimal : Int → List Char
  | .ofNat n => Nat.toDigits 10 n
  | .negSucc n => '-' :: Nat.toDigits 10 (n + 1)

theorem toDigits_graphic (n : Nat) : Graphic (Nat.toDigits 10 n) := by
  intro c member
  have digit := Nat.isDigit_of_mem_toDigits (by decide) (by decide) member
  simp only [Char.isDigit, Bool.and_eq_true, decide_eq_true_eq] at digit
  have low : 48 ≤ c.toNat := digit.1
  have high : c.toNat ≤ 57 := digit.2
  omega

theorem decimal_graphic (i : Int) : Graphic (decimal i) := by
  cases i with
  | ofNat n => exact toDigits_graphic n
  | negSucc n => exact List.forall_mem_cons.mpr ⟨by decide, toDigits_graphic (n + 1)⟩

theorem decimal_unbroken (i : Int) : Unbroken (decimal i) := (decimal_graphic i).unbroken

theorem decimal_length_pos (i : Int) : 0 < (decimal i).length := by
  cases i with
  | ofNat n => exact Nat.length_toDigits_pos
  | negSucc n => exact Nat.succ_pos _

def readNat (text : List Char) : Option (Nat × List Char) :=
  let digits := text.takeWhile Char.isDigit
  if digits = [] then none else some (Nat.ofDigitChars 10 digits 0, text.dropWhile Char.isDigit)

theorem span_decimal (n : Nat) (rest : List Char) (stop : ∀ c ∈ rest.head?, c.isDigit = false) :
    (decimal n ++ rest).takeWhile Char.isDigit = Nat.toDigits 10 n ∧
      (decimal n ++ rest).dropWhile Char.isDigit = rest := by
  have digits : ∀ c ∈ Nat.toDigits 10 n, c.isDigit = true := fun c member =>
    Nat.isDigit_of_mem_toDigits (by decide) (by decide) member
  have ended : rest.takeWhile Char.isDigit = [] ∧ rest.dropWhile Char.isDigit = rest := by
    cases rest with
    | nil => exact ⟨rfl, rfl⟩
    | cons c rest => simp [stop c (by simp)]
  have text : decimal n = Nat.toDigits 10 n := rfl
  rw [text, List.takeWhile_append_of_pos digits, List.dropWhile_append_of_pos digits, ended.1, ended.2]
  exact ⟨List.append_nil _, rfl⟩

theorem readNat_decimal (n : Nat) (rest : List Char) (stop : ∀ c ∈ rest.head?, c.isDigit = false) :
    readNat (decimal n ++ rest) = some (n, rest) := by
  have span := span_decimal n rest stop
  rw [readNat, span.1, span.2, if_neg Nat.toDigits_ne_nil, Nat.ofDigitChars_ten_toDigits]

theorem readNat_last (n : Nat) : readNat (decimal n) = some (n, []) := by
  have number := readNat_decimal n [] (by simp)
  rwa [List.append_nil] at number

/-- A number with its sign. -/
def readInt : List Char → Option (Int × List Char)
  | '-' :: rest => (readNat rest).map fun (n, rest) => (-n, rest)
  | text => (readNat text).map fun (n, rest) => (n, rest)

theorem readInt_unsigned {text : List Char} (sign : text.head? ≠ some '-') :
    readInt text = (readNat text).map fun (n, rest) => ((n : Int), rest) := by
  unfold readInt
  split
  next rest => exact absurd rfl sign
  next => rfl

theorem toDigits_head (n : Nat) (rest : List Char) : (Nat.toDigits 10 n ++ rest).head? ≠ some '-' := by
  cases digits : Nat.toDigits 10 n with
  | nil => exact absurd digits Nat.toDigits_ne_nil
  | cons d ds =>
    have digit : d.isDigit = true :=
      Nat.isDigit_of_mem_toDigits (by decide) (by decide) (digits ▸ List.mem_cons_self)
    intro sign
    have dash : d = '-' := by simpa using sign
    subst dash
    exact absurd digit (by decide)

theorem readInt_decimal (i : Int) (rest : List Char) (stop : ∀ c ∈ rest.head?, c.isDigit = false) :
    readInt (decimal i ++ rest) = some (i, rest) := by
  cases i with
  | ofNat n =>
    have number := readNat_decimal n rest stop
    exact (readInt_unsigned (toDigits_head n rest)).trans (congrArg (Option.map _) number)
  | negSucc n =>
    have number := readNat_decimal (n + 1 : Nat) rest stop
    have magnitude : readNat (Nat.toDigits 10 (n + 1) ++ rest) = some (n + 1, rest) := number
    have signed : readInt (decimal (Int.negSucc n) ++ rest) =
        (readNat (Nat.toDigits 10 (n + 1) ++ rest)).map fun (n, rest) => (-(n : Int), rest) := rfl
    rw [signed, magnitude]
    rfl

-- A number with nothing after it.
def readWhole (text : List Char) : Option Int := do
  let (i, rest) ← readInt text
  if rest = [] then some i else none

theorem readWhole_decimal (i : Int) : readWhole (decimal i) = some i := by
  have number := readInt_decimal i [] (by simp)
  rw [List.append_nil] at number
  simp [readWhole, number]

-- The two characters of a line end leave an empty line between them.
theorem splitOnP_break (text rest : List Char) :
    (text ++ '\r' :: '\n' :: rest).splitOnP isBreak =
      text.splitOnP isBreak ++ [] :: rest.splitOnP isBreak := by
  have between : ('\n' :: rest).splitOnP isBreak = [] :: rest.splitOnP isBreak := by
    have split : ([] ++ '\n' :: rest).splitOnP isBreak = [].splitOnP isBreak ++ rest.splitOnP isBreak :=
      List.splitOnP_append_cons [] rest rfl
    exact split
  rw [List.splitOnP_append_cons _ _ rfl, between]

def linesOf (text : List Char) : List (List Char) :=
  (text.splitOnP isBreak).filter fun line => !line.isEmpty

theorem linesOf_endLine {line : List Char} (unbroken : Unbroken line) (filled : line ≠ [])
    (rest : List Char) : linesOf (endLine line ++ rest) = line :: linesOf rest := by
  have split := splitOnP_break line rest
  rw [List.splitOnP_eq_singleton unbroken] at split
  simp [linesOf, endLine, split, filled]

/-- Lines that can be told apart again once they are printed. -/
def Separable (lines : List (List Char)) : Prop := ∀ line ∈ lines, Unbroken line ∧ line ≠ []

theorem Separable.linesOf {lines : List (List Char)} (separable : Separable lines) :
    linesOf (lines.flatMap endLine) = lines := by
  induction lines with
  | nil => rfl
  | cons line lines ih =>
    have first := separable line List.mem_cons_self
    have rest := ih fun line member => separable line (List.mem_cons_of_mem _ member)
    rw [List.flatMap_cons, linesOf_endLine first.1 first.2, rest]

section Scan

variable {F : Type} (read : F → List Char → F)

def scan (fields : F) (text : List Char) : F := (text.splitOnP isBreak).foldl read fields

theorem scan_line (fields : F) {line : List Char} (unbroken : Unbroken line) :
    scan read fields line = read fields line := by
  rw [scan, List.splitOnP_eq_singleton unbroken]
  rfl

theorem scan_append (silent : ∀ fields, read fields [] = fields) (fields : F) (text rest : List Char) :
    scan read fields (text ++ '\r' :: '\n' :: rest) = scan read (scan read fields text) rest := by
  rw [scan, splitOnP_break, List.foldl_append, List.foldl_cons, silent]
  rfl

theorem scan_endLine (silent : ∀ fields, read fields [] = fields) (fields : F) (line rest : List Char) :
    scan read fields (endLine line ++ rest) = scan read (scan read fields line) rest := by
  have split := scan_append read silent fields line rest
  simpa [endLine] using split

theorem scan_flatMap (silent : ∀ fields, read fields [] = fields) (fields : F) (lines : List (List Char)) :
    scan read fields (lines.flatMap endLine) = lines.foldl (scan read) fields := by
  induction lines generalizing fields with
  | nil => exact silent fields
  | cons line lines ih => rw [List.flatMap_cons, scan_endLine read silent, ih, List.foldl_cons]

end Scan

end TextLines
