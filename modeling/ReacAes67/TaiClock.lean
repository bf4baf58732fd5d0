import Mathlib.Data.Rat.Floor
import Mathlib.Tactic.NormNum
import ReacAes67.DanteSession

set_option autoImplicit false

/-!
# Timestamps from the TAI clock

`tai_to_rtp_ts` splits an instant into seconds and nanoseconds, lets the 64-bit
product wrap and rounds the second part alone. The result is still the nearest
sample count of the whole instant modulo 2 ^ 32.
-/

namespace ReacAes67

def taiNanos (taiSec : UInt64) (taiNsec : UInt32) : Nat := taiSec.toNat * 1000000000 + taiNsec.toNat

-- Whole seconds are whole samples, so they pass through the rounding.
theorem sampleCount_taiNanos (rate : Nat) (taiSec : UInt64) (taiNsec : UInt32) :
    sampleCount rate (taiNanos taiSec taiNsec) =
      taiSec.toNat * rate + (taiNsec.toNat * rate + 500000000) / 1000000000 := by
  have whole : taiNanos taiSec taiNsec * rate + 500000000 =
      (taiNsec.toNat * rate + 500000000) + 1000000000 * (taiSec.toNat * rate) := by
    rw [taiNanos]
    ring
  rw [sampleCount, whole, Nat.add_mul_div_left _ _ (by omega), Nat.add_comm]

theorem taiToRtpTs_taiNanos {rate : Nat} (bound : rate < 2 ^ 31) (taiSec : UInt64) (taiNsec : UInt32) :
    taiToRtpTs taiSec taiNsec rate = UInt32.ofNat (sampleCount rate (taiNanos taiSec taiNsec)) := by
  apply UInt32.toNat.inj
  rw [taiToRtpTs_toNat bound, sampleCount_taiNanos, UInt32.toNat_ofNat']

theorem sampleCount_floor (rate t : Nat) :
    (sampleCount rate t : Int) = ⌊((t * rate : Nat) : ℚ) / 1000000000 + 1 / 2⌋ := by
  have nearest : ((t * rate : Nat) : ℚ) / 1000000000 + 1 / 2 =
      ((t * rate + 500000000 : Nat) : ℚ) / ((1000000000 : Nat) : ℚ) := by
    push_cast
    ring
  rw [nearest, Rat.floor_natCast_div_natCast, sampleCount]
  rfl

theorem sampleCount_advance {rate t t' m : Nat} (periods : t' * rate = t * rate + m * 1000000000) :
    sampleCount rate t' = sampleCount rate t + m := by
  have shifted : t' * rate + 500000000 = t * rate + 500000000 + m * 1000000000 := by omega
  rw [sampleCount, sampleCount, shifted, Nat.add_mul_div_right _ _ (by omega)]

theorem sampleCount_near {rate t t' n : Nat} (later : t ≤ t') (near : t' * rate < t * rate + n * 1000000000) :
    sampleCount rate t ≤ sampleCount rate t' ∧ sampleCount rate t' ≤ sampleCount rate t + n := by
  have ordered : t * rate ≤ t' * rate := Nat.mul_le_mul_right rate later
  simp only [sampleCount]
  omega

/-- `right` is behind `left` on the circle of 2 ^ 32 timestamps: going back is the shorter way. -/
def Behind (left right : UInt32) : Prop := (left - right).toNat < (right - left).toNat

theorem ofNat_notBehind {low high : Nat} (ordered : low ≤ high) (near : high ≤ low + 2 ^ 31) :
    (UInt32.ofNat high - UInt32.ofNat low).toNat = high - low ∧
      ¬ Behind (UInt32.ofNat low) (UInt32.ofNat high) := by
  simp only [Behind, UInt32.toNat_sub, UInt32.toNat_ofNat']
  omega

/-- The timestamp is the nearest sample count of the instant modulo 2 ^ 32, advances by `m` over `m` sample
periods, and does not fall behind that of an earlier instant less than 2 ^ 31 samples away. -/
theorem taiToRtpTs_exact {rate : Nat} (bound : rate ≤ 192000) :
    (∀ taiSec taiNsec,
      ((taiToRtpTs taiSec taiNsec rate).toNat : Int) =
        ⌊((taiNanos taiSec taiNsec * rate : Nat) : ℚ) / 1000000000 + 1 / 2⌋ % 2 ^ 32) ∧
    (∀ taiSec taiNsec taiSec' taiNsec' duration m, duration * rate = m * 1000000000 →
      taiNanos taiSec' taiNsec' = taiNanos taiSec taiNsec + duration →
      taiToRtpTs taiSec' taiNsec' rate = taiToRtpTs taiSec taiNsec rate + UInt32.ofNat m) ∧
    (∀ taiSec taiNsec taiSec' taiNsec', taiNanos taiSec taiNsec ≤ taiNanos taiSec' taiNsec' →
      (taiNanos taiSec' taiNsec' - taiNanos taiSec taiNsec) * rate < 2 ^ 31 * 1000000000 →
      ¬ Behind (taiToRtpTs taiSec taiNsec rate) (taiToRtpTs taiSec' taiNsec' rate)) := by
  have word : rate < 2 ^ 31 := by omega
  refine ⟨?_, ?_, ?_⟩
  next =>
    intro taiSec taiNsec
    rw [taiToRtpTs_taiNanos word, ← sampleCount_floor, UInt32.toNat_ofNat']
    rfl
  next =>
    intro taiSec taiNsec taiSec' taiNsec' duration m periods advanced
    have shifted : taiNanos taiSec' taiNsec' * rate = taiNanos taiSec taiNsec * rate + m * 1000000000 := by
      rw [advanced, Nat.add_mul, periods]
    rw [taiToRtpTs_taiNanos word, taiToRtpTs_taiNanos word, sampleCount_advance shifted, UInt32.ofNat_add]
  next =>
    intro taiSec taiNsec taiSec' taiNsec' later near
    have close : taiNanos taiSec' taiNsec' * rate < taiNanos taiSec taiNsec * rate + 2 ^ 31 * 1000000000 := by
      rw [Nat.sub_mul] at near
      omega
    obtain ⟨ordered, distance⟩ := sampleCount_near later close
    rw [taiToRtpTs_taiNanos word, taiToRtpTs_taiNanos word]
    exact (ofNat_notBehind ordered distance).2

-- One millisecond over a second boundary, and the last instant the clock can show.
theorem taiToRtpTs_exact_48k :
    ((taiToRtpTs 18446744073709551615 999999999 48000).toNat : Int) =
        ⌊((taiNanos 18446744073709551615 999999999 * 48000 : Nat) : ℚ) / 1000000000 + 1 / 2⌋ % 2 ^ 32 ∧
      taiToRtpTs 8 500000 48000 = taiToRtpTs 7 999500000 48000 + UInt32.ofNat 48 ∧
      ¬ Behind (taiToRtpTs 89478 0 48000) (taiToRtpTs 89479 0 48000) := by
  obtain ⟨nearest, advances, onward⟩ := taiToRtpTs_exact (show 48000 ≤ 192000 by decide)
  exact ⟨nearest 18446744073709551615 999999999, advances 7 999500000 8 500000 1000000 48 rfl rfl,
    onward 89478 0 89479 0 (by decide) (by decide)⟩

end ReacAes67
