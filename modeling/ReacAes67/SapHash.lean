import ReacAes67.SdpGrammar
import ReacAes67.Shared.PolynomialHash

set_option autoImplicit false

/-!
# The message id hash

A receiver parses an announcement again only when its message id hash changes.
`sap_hash` takes a polynomial hash of the description modulo 2^16 and replaces
the value 0, which is not a hash, by 1.
-/

namespace ReacAes67

open BoundedPrint PolynomialHash TextLines

/-- The description read as a number in base 31, after the initial value of the hash. -/
def textValue (text : List Char) : Nat := value 31 (0x1234 :: text.map Char.toNat)

/-- The value 0 that is replaced meets the value 1 that is not. -/
def Merged (s t : List Char) : Prop := textValue s % 65536 = 0 ∧ textValue t % 65536 = 1

theorem foldl_toNat {start : UInt16} {n : Nat} (same : start.toNat = n % 65536) (text : List Char) :
    (text.foldl (fun (h : UInt16) c => h * 31 + UInt16.ofNat c.toNat) start).toNat =
      (text.map Char.toNat).foldl (fun h x => h * 31 + x) n % 65536 := by
  induction text generalizing start n with
  | nil => exact same
  | cons c text ih =>
    have step : (start * 31 + UInt16.ofNat c.toNat).toNat = (n * 31 + c.toNat) % 65536 := by
      simp [same, Nat.add_mod, Nat.mul_mod]
    exact ih step

theorem sapHash_toNat (text : List Char) :
    (sapHash text).toNat = if textValue text % 65536 = 0 then 1 else textValue text % 65536 := by
  have initial : (0x1234 : UInt16).toNat = 0x1234 % 65536 := rfl
  have raw := foldl_toNat initial text
  rw [foldl_eq_value] at raw
  unfold sapHash
  simp only [textValue, ← raw, ← UInt16.toNat_inj]
  split
  next zero => exact (if_pos zero).symm
  next nonzero => exact (if_neg nonzero).symm

theorem sapHash_ne_zero (text : List Char) : sapHash text ≠ 0 := by
  intro zero
  have value := sapHash_toNat text
  rw [zero] at value
  split at value
  next => cases value
  next nonzero => exact nonzero value.symm

theorem sapHash_eq_iff (s t : List Char) :
    sapHash s = sapHash t ↔ textValue s ≡ textValue t [MOD 65536] ∨ Merged s t ∨ Merged t s := by
  rw [← UInt16.toNat_inj, sapHash_toNat, sapHash_toNat, Nat.ModEq, Merged, Merged]
  split <;> split <;> omega

theorem textValue_congr_iff {left right : List Char} (length : left.length = right.length)
    (before after : List Char) :
    textValue (before ++ left ++ after) ≡ textValue (before ++ right ++ after) [MOD 65536] ↔
      value 31 (left.map Char.toNat) ≡ value 31 (right.map Char.toNat) [MOD 65536] := by
  have lengths : (left.map Char.toNat).length = (right.map Char.toNat).length := by simpa using length
  have congr := value_congr_iff (M := 65536) (b := 31) (by decide) lengths (0x1234 :: before.map Char.toNat)
    (after.map Char.toNat)
  simpa [textValue] using congr

theorem textValue_edit (before after : List Char) (x y : Char) :
    (textValue (before ++ [y] ++ after) : Int) =
      textValue (before ++ [x] ++ after) + 31 ^ after.length * ((y.toNat : Int) - x.toNat) := by
  have split (c : Char) : textValue (before ++ [c] ++ after) = 31 ^ after.length *
      (31 * value 31 (0x1234 :: before.map Char.toNat) + c.toNat) + value 31 (after.map Char.toNat) := by
    have whole := value_append (b := 31) (0x1234 :: before.map Char.toNat ++ [c.toNat]) (after.map Char.toNat)
    have last := value_append (b := 31) (0x1234 :: before.map Char.toNat) [c.toNat]
    rw [value_singleton, List.length_singleton, Nat.pow_one] at last
    rw [last] at whole
    simpa [textValue] using whole
  rw [split x, split y]
  push_cast
  ring

/-- Only an edit by one particular amount at its distance from the end can be hidden. -/
theorem Merged.edit {before after : List Char} {x y : Char}
    (merged : Merged (before ++ [x] ++ after) (before ++ [y] ++ after)) :
    31 ^ after.length * ((y.toNat : Int) - x.toNat) ≡ 1 [ZMOD 65536] := by
  have change := textValue_edit before after x y
  obtain ⟨zero, one⟩ := merged
  unfold Int.ModEq
  omega

/-- A changed character changes the hash, except where the replaced value meets the value 1. -/
theorem sapHash_edit_iff (before after : List Char) (x y : Char) (old : CString (before ++ [x] ++ after))
    (new : CString (before ++ [y] ++ after)) (edited : x ≠ y) :
    (sapHash (before ++ [x] ++ after) ≠ sapHash (before ++ [y] ++ after) ∧
        sapHash (before ++ [x] ++ after) ≠ 0 ∧ sapHash (before ++ [y] ++ after) ≠ 0) ↔
      ¬Merged (before ++ [x] ++ after) (before ++ [y] ++ after) ∧
        ¬Merged (before ++ [y] ++ after) (before ++ [x] ++ after) := by
  have xByte := (old x (by simp)).2
  have yByte := (new y (by simp)).2
  have differ : ¬textValue (before ++ [x] ++ after) ≡ textValue (before ++ [y] ++ after) [MOD 65536] := by
    have one : [x].length = [y].length := rfl
    rw [textValue_congr_iff one]
    intro same
    have bytes : x.toNat % 65536 = y.toNat % 65536 := by
      simpa [value_singleton, Nat.ModEq] using same
    exact edited (Char.toNat_inj.mp (by omega))
  rw [ne_eq, sapHash_eq_iff]
  constructor
  next =>
    rintro ⟨kept, -, -⟩
    exact ⟨fun merged => kept (Or.inr (Or.inl merged)), fun merged => kept (Or.inr (Or.inr merged))⟩
  next =>
    rintro ⟨forward, backward⟩
    refine ⟨?_, sapHash_ne_zero _, sapHash_ne_zero _⟩
    rintro (same | merged | merged)
    next => exact differ same
    next => exact forward merged
    next => exact backward merged

def announcedAs (name : List Char) : SdpParams :=
  { sessionName := name, originIp := "0.0.0.0".toList, mcastIp := "239.69.1.10".toList, mcastPort := 5004
    payloadType := 97, rate := 48000, channels := 40, ttl := 1, ptimeMs := 0
    tsRefclk := none, mediaclkDirect := 0 }

theorem sapHash_edit_iff_named :
    sapHash ("s=REAC-".toList ++ ['A'] ++ "\r\n".toList) ≠
      sapHash ("s=REAC-".toList ++ ['B'] ++ "\r\n".toList) :=
  ((sapHash_edit_iff "s=REAC-".toList "\r\n".toList 'A' 'B' (literal_cString _ (by decide))
    (literal_cString _ (by decide)) (by decide)).mpr
      ⟨by unfold Merged; decide +kernel, by unfold Merged; decide +kernel⟩).1

-- 478 bytes before the end of the description.
def editedName (c : Char) : List Char := "REAC-".toList ++ [c] ++ List.replicate 367 '-' ++ "bfdn".toList

theorem sapHash_edited_names :
    ∃ before after, sdpBuild 768 (announcedAs (editedName 'o')) = some (before ++ ['o'] ++ after) ∧
      sdpBuild 768 (announcedAs (editedName '0')) = some (before ++ ['0'] ++ after) ∧
      CString (before ++ ['o'] ++ after) ∧ CString (before ++ ['0'] ++ after) ∧
      sapHash (before ++ ['o'] ++ after) = sapHash (before ++ ['0'] ++ after) := by
  refine ⟨(sdpText (announcedAs (editedName 'o'))).take 36, (sdpText (announcedAs (editedName 'o'))).drop 37,
    by decide +kernel, by decide +kernel, literal_cString _ (by decide +kernel),
    literal_cString _ (by decide +kernel), by decide +kernel⟩

end ReacAes67
