import Mathlib.Tactic.Ring

set_option autoImplicit false

/-!
# Bytes and machine words

Words assembled from bytes with shifts and ors, and the bytes shifts cut from
words. The `toNat` lemmas turn both sides into arithmetic.
-/

namespace Endian

def le16 (b0 b1 : UInt8) : UInt16 := b0.toUInt16 ||| (b1.toUInt16 <<< 8)

def le32 (b0 b1 b2 b3 : UInt8) : UInt32 :=
  b0.toUInt32 ||| (b1.toUInt32 <<< 8) ||| (b2.toUInt32 <<< 16) ||| (b3.toUInt32 <<< 24)

def bswap32 (v : UInt32) : UInt32 :=
  le32 (v >>> 24).toUInt8 (v >>> 16).toUInt8 (v >>> 8).toUInt8 v.toUInt8

theorem or_shiftLeft {low k : Nat} (high : Nat) (fits : low < 2 ^ k) :
    low ||| high <<< k = low + 2 ^ k * high := by
  rw [Nat.or_comm, ← Nat.shiftLeft_add_eq_or_of_lt fits, Nat.shiftLeft_eq]
  ring

theorem le16_toNat (b0 b1 : UInt8) : (le16 b0 b1).toNat = b0.toNat + 256 * b1.toNat := by
  have bound0 := b0.toNat_lt
  have bound1 := b1.toNat_lt
  have inside : b1.toNat <<< 8 < 65536 := by rw [Nat.shiftLeft_eq]; omega
  have words : (le16 b0 b1).toNat = b0.toNat ||| b1.toNat <<< 8 := by
    simp [le16, Nat.mod_eq_of_lt inside]
  rw [words]
  exact or_shiftLeft b1.toNat bound0

theorem le32_toNat (b0 b1 b2 b3 : UInt8) :
    (le32 b0 b1 b2 b3).toNat =
      b0.toNat + 256 * b1.toNat + 65536 * b2.toNat + 16777216 * b3.toNat := by
  have bound0 := b0.toNat_lt
  have bound1 := b1.toNat_lt
  have bound2 := b2.toNat_lt
  have shifted (b : UInt8) {k : Nat} (small : k ≤ 24) :
      b.toNat <<< k % 4294967296 = b.toNat <<< k := by
    apply Nat.mod_eq_of_lt
    have bound := b.toNat_lt
    rw [Nat.shiftLeft_eq]
    calc b.toNat * 2 ^ k ≤ b.toNat * 2 ^ 24 :=
          Nat.mul_le_mul_left _ (Nat.pow_le_pow_right (by omega) small)
      _ < 4294967296 := by omega
  have words : (le32 b0 b1 b2 b3).toNat =
      b0.toNat ||| b1.toNat <<< 8 ||| b2.toNat <<< 16 ||| b3.toNat <<< 24 := by
    simp [le32, shifted]
  have low : b0.toNat ||| b1.toNat <<< 8 = b0.toNat + 256 * b1.toNat :=
    or_shiftLeft b1.toNat bound0
  have middle : b0.toNat + 256 * b1.toNat ||| b2.toNat <<< 16 =
      b0.toNat + 256 * b1.toNat + 65536 * b2.toNat :=
    or_shiftLeft b2.toNat (by omega)
  rw [words, low, middle]
  exact or_shiftLeft b3.toNat (by omega)

theorem le16_bytes (v : UInt16) : le16 v.toUInt8 (v >>> 8).toUInt8 = v := by
  apply UInt16.toNat_inj.mp
  have bound := v.toNat_lt
  rw [le16_toNat]
  simp [Nat.shiftRight_eq_div_pow]
  omega

theorem le16_low (b0 b1 : UInt8) : (le16 b0 b1).toUInt8 = b0 := by
  apply UInt8.toNat_inj.mp
  have bound := b0.toNat_lt
  rw [UInt16.toNat_toUInt8, le16_toNat]
  omega

theorem le16_high (b0 b1 : UInt8) : (le16 b0 b1 >>> 8).toUInt8 = b1 := by
  apply UInt8.toNat_inj.mp
  have bound0 := b0.toNat_lt
  have bound1 := b1.toNat_lt
  have shifted : (le16 b0 b1 >>> 8).toNat = (le16 b0 b1).toNat / 256 := by
    simp [Nat.shiftRight_eq_div_pow]
  rw [UInt16.toNat_toUInt8, shifted, le16_toNat]
  omega

theorem le32_bytes (v : UInt32) :
    le32 v.toUInt8 (v >>> 8).toUInt8 (v >>> 16).toUInt8 (v >>> 24).toUInt8 = v := by
  apply UInt32.toNat_inj.mp
  have bound := v.toNat_lt
  rw [le32_toNat]
  simp [Nat.shiftRight_eq_div_pow]
  omega

theorem and_mask_byte (low : Nat) : low % 256 &&& 255 = low % 256 % 256 :=
  Nat.and_two_pow_sub_one_eq_mod (low % 256) 8

@[simp] theorem toUInt8_and_mask16 (v : UInt16) : (v &&& 0xff).toUInt8 = v.toUInt8 := by
  apply UInt8.toNat_inj.mp
  simp [and_mask_byte]

@[simp] theorem toUInt8_and_mask32 (v : UInt32) : (v &&& 0xff).toUInt8 = v.toUInt8 := by
  apply UInt8.toNat_inj.mp
  simp [and_mask_byte]

theorem bswap32_le32 (b0 b1 b2 b3 : UInt8) :
    bswap32 (le32 b0 b1 b2 b3) = le32 b3 b2 b1 b0 := by
  have value := le32_toNat b0 b1 b2 b3
  have bound0 := b0.toNat_lt
  have bound1 := b1.toNat_lt
  have bound2 := b2.toNat_lt
  have bound3 := b3.toNat_lt
  have cut0 : (le32 b0 b1 b2 b3).toUInt8 = b0 := by
    apply UInt8.toNat_inj.mp
    simp only [UInt32.toNat_toUInt8]
    omega
  have cut (k : UInt32) (p : Nat) (b : UInt8) (amount : k.toNat % 32 = p)
      (digit : (le32 b0 b1 b2 b3).toNat / 2 ^ p % 256 = b.toNat) :
      (le32 b0 b1 b2 b3 >>> k).toUInt8 = b := by
    apply UInt8.toNat_inj.mp
    simp only [UInt32.toNat_toUInt8, UInt32.toNat_shiftRight, Nat.shiftRight_eq_div_pow, amount,
      digit]
  simp only [bswap32, cut0, cut 8 8 b1 rfl (by omega), cut 16 16 b2 rfl (by omega),
    cut 24 24 b3 rfl (by omega)]

end Endian
