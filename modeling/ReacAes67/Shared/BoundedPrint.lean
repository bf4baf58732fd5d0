import Mathlib.Logic.Basic

set_option autoImplicit false

/-!
# Text printed into a buffer

Memory is read one byte at an address. A bounded print writes what fits of its
text with a zero after it and returns the length of the whole text, as an int.
A sequence of prints, each at the end of the one before, is a computation over
texts in which every step either appends all of its text or ends the sequence.
-/

namespace BoundedPrint

abbrev Memory := Nat → Char

def intMax : Nat := 2147483647

/-- The bytes of a C string. -/
def CString (text : List Char) : Prop := ∀ c ∈ text, 0 < c.toNat ∧ c.toNat < 256

theorem CString.append {left right : List Char} (first : CString left) (second : CString right) :
    CString (left ++ right) := List.forall_mem_append.mpr ⟨first, second⟩

def store (mem : Memory) (off : Nat) (text : List Char) : Memory := fun i =>
  if i < off then mem i else (text[i - off]?).getD (mem i)

theorem store_before {mem : Memory} {off i : Nat} (text : List Char) (before : i < off) :
    store mem off text i = mem i := if_pos before

theorem store_after {mem : Memory} {off i : Nat} {text : List Char} (after : off + text.length ≤ i) :
    store mem off text i = mem i := by
  have outside : text[i - off]? = none := List.getElem?_eq_none (by omega)
  rw [store, if_neg (by omega), outside]
  rfl

theorem store_at (mem : Memory) (off : Nat) {text : List Char} {i : Nat} (inside : i < text.length) :
    store mem off text (off + i) = text[i] := by
  have index : text[off + i - off]? = some text[i] := by
    rw [Nat.add_sub_cancel_left]
    exact List.getElem?_eq_getElem inside
  rw [store, if_neg (by omega), index]
  rfl

/-- Memory starts with a text. -/
def Holds (mem : Memory) (text : List Char) : Prop := ∀ i (inside : i < text.length), mem i = text[i]

/-- Memory starts with a text and a zero. -/
structure Terminated (mem : Memory) (text : List Char) : Prop where
  holds : Holds mem text
  ended : mem text.length = '\x00'

theorem holds_nil (mem : Memory) : Holds mem [] := fun i inside => absurd inside (by simp)

theorem Holds.append {mem : Memory} {out : List Char} (holds : Holds mem out) (text : List Char) :
    Holds (store mem out.length text) (out ++ text) := by
  intro i inside
  rw [List.length_append] at inside
  by_cases old : i < out.length
  next => rw [store_before text old, holds i old, List.getElem_append_left old]
  next =>
    obtain ⟨k, rfl⟩ := Nat.exists_eq_add_of_le (Nat.le_of_not_lt old)
    rw [store_at mem out.length (by omega : k < text.length), List.getElem_append_right (by omega)]
    simp

theorem Holds.terminate {mem : Memory} {out : List Char} (holds : Holds mem out) (text : List Char) :
    Terminated (store mem out.length (text ++ ['\x00'])) (out ++ text) := by
  have whole := holds.append (text ++ ['\x00'])
  rw [← List.append_assoc] at whole
  constructor
  next =>
    intro i inside
    rw [whole i (by rw [List.length_append]; omega), List.getElem_append_left inside]
  next =>
    rw [whole (out ++ text).length (by simp), List.getElem_append_right (Nat.le_refl _)]
    simp

def snprintf (mem : Memory) (off size : Nat) (text : List Char) : Int × Memory :=
  (if text.length > intMax then -1 else text.length,
   if size = 0 then mem else store mem off (text.take (size - 1) ++ ['\x00']))

theorem snprintf_outside {mem : Memory} {off size i : Nat} (text : List Char) (outside : off + size ≤ i) :
    (snprintf mem off size text).2 i = mem i := by
  simp only [snprintf]
  split
  next => rfl
  next positive =>
    apply store_after
    rw [List.length_append, List.length_take, List.length_singleton]
    omega

-- One print at offset `off` of a buffer of `cap` bytes, and the offset after it.
def printStage (cap off : Nat) (text : List Char) (mem : Memory) : Option Nat × Memory :=
  let (n, mem) := snprintf mem off (cap - off) text
  if n < 0 ∨ n.toNat ≥ cap - off then (none, mem) else (some (off + n.toNat), mem)

def andThen (first : Option Nat × Memory) (more : Nat → Memory → Option Nat × Memory) :
    Option Nat × Memory :=
  match first with
  | (some off, mem) => more off mem
  | (none, mem) => (none, mem)

-- The same print over texts.
def snprintfAppend (cap : Nat) (out text : List Char) : Option (List Char) :=
  if text.length > intMax ∨ text.length ≥ cap - out.length then none else some (out ++ text)

theorem snprintfAppend_eq_some {cap : Nat} {out text whole : List Char} :
    snprintfAppend cap out text = some whole ↔
      text.length ≤ intMax ∧ (out ++ text).length < cap ∧ whole = out ++ text := by
  rw [List.length_append]
  constructor
  next =>
    intro appended
    rw [snprintfAppend] at appended
    split at appended
    next => cases appended
    next fits => exact ⟨by omega, by omega, (Option.some.inj appended).symm⟩
  next =>
    rintro ⟨short, room, rfl⟩
    exact if_neg (by omega)

theorem printStage_offset (cap off : Nat) (text : List Char) (mem : Memory) :
    (printStage cap off text mem).1 =
      if text.length > intMax ∨ text.length ≥ cap - off then none else some (off + text.length) := by
  by_cases long : text.length > intMax
  next => simp [printStage, snprintf, long]
  next =>
    by_cases full : text.length ≥ cap - off
    next => simp [printStage, snprintf, long, full]
    next =>
      have nonneg : ¬((text.length : Int) < 0) := by omega
      simp [printStage, snprintf, long, full, nonneg]

theorem printStage_memory (cap off : Nat) (text : List Char) (mem : Memory) :
    (printStage cap off text mem).2 = (snprintf mem off (cap - off) text).2 := by
  simp only [printStage]
  split <;> rfl

/-- A print into memory does what a computation over texts does: the length and a terminated
text, or nothing, and no byte beyond the buffer is written. -/
structure Prints (cap : Nat) (mem : Memory) (printed : Option Nat × Memory) (text : Option (List Char)) :
    Prop where
  length : printed.1 = text.map List.length
  terminated : ∀ whole ∈ text, Terminated printed.2 whole
  outside : ∀ i, cap ≤ i → printed.2 i = mem i

section Stages

variable {cap : Nat} {mem : Memory}

theorem Prints.stage {out : List Char} (holds : Holds mem out) (inside : out.length ≤ cap)
    (text : List Char) :
    Prints cap mem (printStage cap out.length text mem) (snprintfAppend cap out text) := by
  constructor
  next =>
    rw [printStage_offset, snprintfAppend]
    split <;> simp
  next =>
    intro whole appended
    rw [snprintfAppend] at appended
    split at appended
    next => cases appended
    next fits =>
      obtain rfl := Option.some.inj appended
      have room : cap - out.length ≠ 0 := by omega
      have all : text.take (cap - out.length - 1) = text := List.take_of_length_le (by omega)
      rw [printStage_memory, snprintf, if_neg room, all]
      exact holds.terminate text
  next =>
    intro i outside
    rw [printStage_memory]
    exact snprintf_outside text (by omega)

theorem Prints.pure {out : List Char} (terminated : Terminated mem out) :
    Prints cap mem (some out.length, mem) (some out) where
  length := rfl
  terminated := by
    rintro whole ⟨⟩
    exact terminated
  outside _ _ := rfl

theorem Prints.andThen {first : Option Nat × Memory} {text : Option (List Char)}
    (printed : Prints cap mem first text) {more : Nat → Memory → Option Nat × Memory}
    {moreText : List Char → Option (List Char)}
    (continues : ∀ out ∈ text, ∀ mem, Terminated mem out →
      Prints cap mem (more out.length mem) (moreText out)) :
    Prints cap mem (andThen first more) (text.bind moreText) := by
  obtain ⟨offset, after⟩ := first
  cases text with
  | none =>
    obtain rfl : offset = none := printed.length
    exact ⟨rfl, by simp, printed.outside⟩
  | some out =>
    obtain rfl : offset = some out.length := printed.length
    have rest := continues out rfl after (printed.terminated out rfl)
    exact ⟨rest.length, rest.terminated, fun i outside =>
      (rest.outside i outside).trans (printed.outside i outside)⟩

end Stages

end BoundedPrint
