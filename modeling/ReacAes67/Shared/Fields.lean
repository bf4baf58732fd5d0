import Mathlib.Data.List.Basic
import Mathlib.Data.List.TakeWhile

set_option autoImplicit false

/-!
# Texts read field by field

A report is a text of lines, and a line is a text of fields with white space
between them. What separates lines and fields is a parameter.
-/

namespace Fields

def strip (space : Char → Bool) (text : List Char) : List Char :=
  ((text.dropWhile space).reverse.dropWhile space).reverse

def words (space : Char → Bool) (text : List Char) : List (List Char) :=
  (text.splitOnP space).filter fun word => !word.isEmpty

-- A text that ends with a line break has no empty line behind it.
def lines (isBreak : Char → Bool) (text : List Char) : List (List Char) :=
  let parts := text.splitOnP isBreak
  if parts.getLast? = some [] then parts.dropLast else parts

section Words

variable {space : Char → Bool}

/-- A word that stands for itself between white space. -/
structure Solid (space : Char → Bool) (word : List Char) : Prop where
  filled : word ≠ []
  unspaced : ∀ c ∈ word, space c = false

theorem splitOnP_fields (isSpace : space ' ' = true) {word : List Char} (fields : List (List Char))
    (unspaced : ∀ field ∈ word :: fields, ∀ c ∈ field, space c = false) :
    (word ++ fields.flatMap fun field => ' ' :: field).splitOnP space = word :: fields := by
  induction fields generalizing word with
  | nil => simpa using List.splitOnP_eq_singleton (unspaced word List.mem_cons_self)
  | cons field fields ih =>
    have later := ih fun other member => unspaced other (List.mem_cons_of_mem _ member)
    rw [List.flatMap_cons, List.cons_append,
      List.splitOnP_append_cons_of_forall_mem (unspaced word List.mem_cons_self) _ isSpace, later]

theorem words_fields (isSpace : space ' ' = true) {word : List Char} {fields : List (List Char)}
    (solid : ∀ field ∈ word :: fields, Solid space field) :
    words space (word ++ fields.flatMap fun field => ' ' :: field) = word :: fields := by
  rw [words, splitOnP_fields isSpace fields fun field member => (solid field member).unspaced]
  exact List.filter_eq_self.mpr fun field member => by simpa using (solid field member).filled

theorem words_spaced (isSpace : space ' ' = true) {fields : List (List Char)}
    (solid : ∀ field ∈ fields, Solid space field) :
    words space (fields.flatMap fun field => ' ' :: field) = fields := by
  cases fields with
  | nil => rfl
  | cons word fields =>
    have unspaced : ∀ field ∈ [] :: word :: fields, ∀ c ∈ field, space c = false := by
      rintro field member c inside
      obtain rfl | member := List.mem_cons.mp member
      next => cases inside
      next => exact (solid field member).unspaced c inside
    have split := splitOnP_fields isSpace (word :: fields) unspaced
    rw [List.nil_append] at split
    rw [words, split, List.filter_cons_of_neg (by simp)]
    exact List.filter_eq_self.mpr fun field member => by simpa using (solid field member).filled

/-- A text whose last character is no white space. -/
def Ends (space : Char → Bool) (text : List Char) : Prop := ∃ front c, text = front ++ [c] ∧ space c = false

theorem Ends.fields {text : List Char} (ends : Ends space text) {fields : List (List Char)}
    (solid : ∀ field ∈ fields, Solid space field) :
    Ends space (text ++ fields.flatMap fun field => ' ' :: field) := by
  obtain rfl | ⟨front, last, rfl⟩ := List.eq_nil_or_concat' fields
  next => simpa using ends
  next =>
    have own := solid last (by simp)
    obtain rfl | ⟨before, c, rfl⟩ := List.eq_nil_or_concat' last
    next => exact absurd rfl own.filled
    next =>
      refine ⟨text ++ (front.flatMap fun field => ' ' :: field) ++ ' ' :: before, c, ?_, ?_⟩
      next => simp
      next => exact own.unspaced c (by simp)

theorem strip_eq_nil {text : List Char} (blank : strip space text = []) : ∀ c ∈ text, space c = true := by
  have back := List.dropWhile_eq_nil_iff.mp (List.reverse_eq_nil_iff.mp blank)
  apply List.dropWhile_eq_nil_iff.mp
  cases left : text.dropWhile space with
  | nil => rfl
  | cons c rest =>
    have stops := List.head?_dropWhile_not space text
    rw [left, List.head?_cons] at stops
    exact absurd (back c (by simp [left])) (by simpa using stops)

theorem strip_spaced {fields : List (List Char)} (solid : ∀ field ∈ fields, Solid space field)
    (blank : strip space (fields.flatMap fun field => ' ' :: field) = []) : fields = [] := by
  cases fields with
  | nil => rfl
  | cons word fields =>
    obtain ⟨filled, unspaced⟩ := solid word List.mem_cons_self
    obtain ⟨c, inside⟩ := List.exists_mem_of_ne_nil word filled
    have spaced := strip_eq_nil blank c (by simp [inside])
    exact absurd (spaced.symm.trans (unspaced c inside)) (by decide)

end Words

section Lines

variable {space isBreak : Char → Bool}

/-- A line that a stripped text keeps as it is. -/
structure Tidy (space isBreak : Char → Bool) (line : List Char) : Prop where
  first : ∃ c rest, line = c :: rest ∧ space c = false
  last : Ends space line
  unbroken : ∀ c ∈ line, isBreak c = false

theorem splitOnP_lines (ends : isBreak '\n' = true) (front : List (List Char)) {last : List Char}
    (unbroken : ∀ line ∈ front ++ [last], ∀ c ∈ line, isBreak c = false) :
    ((front.flatMap fun line => line ++ ['\n']) ++ last).splitOnP isBreak = front ++ [last] := by
  induction front with
  | nil => simpa using List.splitOnP_eq_singleton (unbroken last (by simp))
  | cons line front ih =>
    have later := ih fun other member => unbroken other (by simp_all)
    rw [List.flatMap_cons, List.append_assoc, List.append_assoc, List.singleton_append,
      List.splitOnP_append_cons_of_forall_mem (unbroken line (by simp)) _ ends, later]
    rfl

/-- Every line comes back, without the line break behind the last. -/
theorem lines_strip (isSpace : space '\n' = true) (ends : isBreak '\n' = true) {report : List (List Char)}
    (tidy : ∀ line ∈ report, Tidy space isBreak line) :
    lines isBreak (strip space (report.flatMap fun line => line ++ ['\n'])) = report := by
  obtain rfl | ⟨front, last, rfl⟩ := List.eq_nil_or_concat' report
  next => rfl
  next =>
    let text := (front.flatMap fun line => line ++ ['\n']) ++ last
    have whole : ((front ++ [last]).flatMap fun line => line ++ ['\n']) = text ++ ['\n'] := by simp [text]
    have head : ∃ c rest, text = c :: rest ∧ space c = false := by
      cases front with
      | nil => exact (tidy last (by simp)).first
      | cons line front =>
        obtain ⟨c, rest, rfl, solid⟩ := (tidy line (by simp)).first
        exact ⟨c, _, rfl, solid⟩
    have stripped : strip space (text ++ ['\n']) = text := by
      obtain ⟨c, rest, start, solid⟩ := head
      obtain ⟨before, d, same, ended⟩ := (tidy last (by simp)).last
      have back : (text ++ ['\n']).reverse =
          '\n' :: d :: ((front.flatMap fun line => line ++ ['\n']) ++ before).reverse := by
        simp [text, same]
      have kept : (text ++ ['\n']).dropWhile space = text ++ ['\n'] := by
        rw [start, List.cons_append, List.dropWhile_cons_of_neg (by simp [solid])]
      rw [strip, kept, back, List.dropWhile_cons_of_pos isSpace, List.dropWhile_cons_of_neg (by simp [ended])]
      simp [text, same]
    have filled : last ≠ [] := by
      obtain ⟨c, rest, rfl, _⟩ := (tidy last (by simp)).first
      exact List.cons_ne_nil _ _
    rw [whole, stripped, lines, splitOnP_lines ends front fun line member => (tidy line member).unbroken]
    simp [filled]

end Lines

end Fields
