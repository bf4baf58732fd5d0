import Mathlib.Data.Nat.Bitwise
import ReacAes67.Plc

set_option autoImplicit false

/-!
# Signed 24-bit samples

What `load24` reads is a 24-bit two's complement number, and within that range
`store24` writes the same number back without its clamp.
-/

namespace ReacAes67

open SampleBlock

def Signed24 (x : Int) : Prop := plcMin ≤ x ∧ x ≤ plcMax

def unsigned24 (p : Sample) : Nat := p.b0.toNat + p.b1.toNat * 256 + p.b2.toNat * 65536

-- The low three bytes of a number, least significant first.
def pack24 (x : Int) : Sample :=
  ⟨UInt8.ofInt x, UInt8.ofInt (x >>> (8 : Nat)), UInt8.ofInt (x >>> (16 : Nat))⟩

theorem unsigned24_lt (p : Sample) : unsigned24 p < 2 ^ 24 := by
  have low := p.b0.toNat_lt
  have mid := p.b1.toNat_lt
  have high := p.b2.toNat_lt
  simp only [unsigned24]
  omega

theorem unsigned24_or (p : Sample) :
    p.b0.toNat ||| p.b1.toNat <<< 8 ||| p.b2.toNat <<< 16 = unsigned24 p := by
  have low : p.b0.toNat < 2 ^ 8 := p.b0.toNat_lt
  have mid : p.b1.toNat < 2 ^ 8 := p.b1.toNat_lt
  have pair : p.b0.toNat ||| p.b1.toNat <<< 8 = p.b1.toNat <<< 8 + p.b0.toNat := by
    rw [Nat.or_comm, Nat.shiftLeft_add_eq_or_of_lt low]
  have small : p.b1.toNat <<< 8 + p.b0.toNat < 2 ^ 16 := by
    rw [Nat.shiftLeft_eq]
    omega
  rw [pair, Nat.or_comm, ← Nat.shiftLeft_add_eq_or_of_lt small, Nat.shiftLeft_eq, Nat.shiftLeft_eq,
    unsigned24]
  omega

theorem signBit {v : Nat} (bound : v < 2 ^ 24) : v &&& 0x800000 ≠ 0 ↔ 2 ^ 23 ≤ v := by
  rw [show 0x800000 = 2 ^ 23 from rfl, Nat.and_two_pow]
  constructor
  next =>
    intro set
    cases bit : v.testBit 23 with
    | false => simp [bit] at set
    | true => exact Nat.ge_two_pow_of_testBit bit
  next =>
    intro high
    simp [Nat.testBit_of_two_pow_le_and_two_pow_add_one_gt high bound]

theorem load24_eq (p : Sample) :
    load24 p =
      if 2 ^ 23 ≤ unsigned24 p then (unsigned24 p : Int) - 0x1000000 else (unsigned24 p : Int) := by
  simp only [load24, unsigned24_or, signBit (unsigned24_lt p)]

theorem load24_signed (p : Sample) : Signed24 (load24 p) := by
  have bound := unsigned24_lt p
  rw [load24_eq, Signed24, plcMin, plcMax]
  split <;> omega

theorem store24_signed {x : Int} (inside : Signed24 x) : store24 x = pack24 x := by
  have low := inside.1
  have high := inside.2
  rw [store24, if_neg (by omega), if_neg (by omega), pack24]

theorem ofInt_toNat (x : Int) : ((UInt8.ofInt x).toNat : Int) = x % 256 := by
  have low := Int.emod_nonneg x (b := 256) (by decide)
  have high := Int.emod_lt_of_pos x (b := 256) (by decide)
  rw [UInt8.ofInt, UInt8.toNat_ofNat']
  omega

theorem load24_pack24 {x : Int} (inside : Signed24 x) : load24 (pack24 x) = x := by
  have low := inside.1
  have high := inside.2
  have bytes : (unsigned24 (pack24 x) : Int) = x % 2 ^ 24 := by
    simp only [unsigned24, pack24, Nat.cast_add, Nat.cast_mul, ofInt_toNat, Int.shiftRight_eq_div_pow]
    omega
  rw [plcMin] at low
  rw [plcMax] at high
  rw [load24_eq]
  split <;> omega

theorem pack24_load24 (p : Sample) : pack24 (load24 p) = p := by
  have low := p.b0.toNat_lt
  have mid := p.b1.toNat_lt
  have high := p.b2.toNat_lt
  have value : load24 p = unsigned24 p ∨ load24 p = unsigned24 p - 0x1000000 := by
    rw [load24_eq]
    split <;> simp
  have byte (x : Int) (b : UInt8) (same : x % 256 = b.toNat) : UInt8.ofInt x = b := by
    have digit := ofInt_toNat x
    apply UInt8.toNat_inj.mp
    omega
  simp only [unsigned24, Nat.cast_add, Nat.cast_mul] at value
  simp only [pack24, Int.shiftRight_eq_div_pow, byte (load24 p) p.b0 (by omega),
    byte (load24 p / (2 ^ 8 : Nat)) p.b1 (by omega), byte (load24 p / (2 ^ 16 : Nat)) p.b2 (by omega)]

end ReacAes67
