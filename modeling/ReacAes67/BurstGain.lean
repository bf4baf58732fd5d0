import ReacAes67.MediaClock
import ReacAes67.PlcHistory
import ReacAes67.Shared.CInt

set_option autoImplicit false

/-!
# The gain of a loss burst

Full gain for a fifth of the fade, then a straight line down to nothing. The
line is a product of machine integers, which only some tunings keep in range.
-/

namespace ReacAes67

/-- `burst_gain_q15` with every operation checked. -/
def burstGainChecked (st : Plc) (k : Int) : Option Int :=
  if k ≤ st.fadeFlatPackets then some q15
  else if k ≥ st.fadePackets then some 0
  else do
    let span ← CInt.sub st.fadePackets st.fadeFlatPackets
    let into ← CInt.sub k st.fadeFlatPackets
    let left ← CInt.sub span into
    let product ← CInt.mul q15 left
    CInt.div product span

-- The gain on the falling part of the line, as an exact quotient.
def fadeGain (st : Plc) (k : Int) : Int :=
  q15 * (st.fadePackets - k) / (st.fadePackets - st.fadeFlatPackets)

section Line

variable {st : Plc} {k : Int}

theorem fadeGain_bounds (after : st.fadeFlatPackets < k) (before : k < st.fadePackets) :
    0 ≤ fadeGain st k ∧ fadeGain st k < q15 := by
  have span : 0 < st.fadePackets - st.fadeFlatPackets := by omega
  constructor
  next => exact Int.ediv_nonneg (mul_nonneg (by decide) (by omega)) span.le
  next =>
    rw [fadeGain, Int.ediv_lt_iff_lt_mul span]
    exact mul_lt_mul_of_pos_left (by omega) (by decide)

theorem fadeGain_falls {later : Int} (after : st.fadeFlatPackets < k) (order : k ≤ later)
    (before : later < st.fadePackets) : fadeGain st later ≤ fadeGain st k := by
  apply Int.ediv_le_ediv (by omega)
  exact mul_le_mul_of_nonneg_left (by omega) (by decide)

theorem burstGainQ15_fade (after : st.fadeFlatPackets < k) (before : k < st.fadePackets)
    (fits : q15 * (st.fadePackets - k) < 2 ^ 31) : burstGainQ15 st k = fadeGain st k := by
  have positive : 0 ≤ q15 * (st.fadePackets - k) := mul_nonneg (by decide) (by omega)
  have left : st.fadePackets - st.fadeFlatPackets - (k - st.fadeFlatPackets) = st.fadePackets - k := by
    omega
  simp only [burstGainQ15, left]
  rw [if_neg (by omega), if_neg (by omega), toInt32_inside (by omega) fits,
    Int.tdiv_eq_ediv_of_nonneg positive, fadeGain]

-- A wrapped product is divided by a span of more than 2 ^ 16 packets.
theorem burstGainQ15_range (st : Plc) (k : Int) :
    -32767 ≤ burstGainQ15 st k ∧ burstGainQ15 st k ≤ 32768 := by
  by_cases flat : k ≤ st.fadeFlatPackets
  next => simp [burstGainQ15, flat, q15]
  by_cases silent : st.fadePackets ≤ k
  next => simp [burstGainQ15, flat, silent]
  by_cases fits : q15 * (st.fadePackets - k) < 2 ^ 31
  next =>
    have bounds : 0 ≤ fadeGain st k ∧ fadeGain st k < q15 := fadeGain_bounds (by omega) (by omega)
    rw [burstGainQ15_fade (by omega) (by omega) fits]
    rw [q15] at bounds
    omega
  next =>
    have left : st.fadePackets - st.fadeFlatPackets - (k - st.fadeFlatPackets) = st.fadePackets - k := by
      omega
    simp only [burstGainQ15, left]
    rw [if_neg flat, if_neg silent]
    rw [q15] at fits
    generalize hx : toInt32 (q15 * (st.fadePackets - k)) = x
    have low : -2 ^ 31 ≤ x := hx ▸ Int.le_bmod (by decide)
    have high : x < 2 ^ 31 := hx ▸ Int.bmod_lt (by decide)
    have span : 65537 ≤ st.fadePackets - st.fadeFlatPackets := by omega
    generalize st.fadePackets - st.fadeFlatPackets = d at span
    have size : (x.tdiv d).natAbs ≤ 32767 := by
      rw [Int.natAbs_tdiv]
      calc x.natAbs / d.natAbs ≤ 2 ^ 31 / d.natAbs := Nat.div_le_div_right (by omega)
        _ ≤ 2 ^ 31 / 65537 := Nat.div_le_div_left (by omega) (by decide)
        _ ≤ 32767 := by decide
    omega

theorem burstGainQ15_flat (flat : k ≤ st.fadeFlatPackets) : burstGainQ15 st k = q15 := by
  simp [burstGainQ15, flat]

theorem Plc.Tuned.flat_lt (tuned : st.Tuned) : st.fadeFlatPackets < st.fadePackets := by
  have fade := tuned.fade
  rw [tuned.flat, Int.tdiv_eq_ediv_of_nonneg fade.le]
  omega

theorem burstGainQ15_silent (tuned : st.Tuned) (silent : st.fadePackets ≤ k) :
    burstGainQ15 st k = 0 := by
  have flat := tuned.flat_lt
  simp only [burstGainQ15]
  rw [if_neg (by omega), if_pos silent]

-- The product of the line at `k` does not overflow, if `k` is on the line at all.
def Plc.FitsAt (st : Plc) (k : Int) : Prop :=
  st.fadeFlatPackets < k → k < st.fadePackets → q15 * (st.fadePackets - k) < 2 ^ 31

theorem Plc.FitsAt.bounds (fits : st.FitsAt k) :
    0 ≤ burstGainQ15 st k ∧ burstGainQ15 st k ≤ q15 := by
  by_cases flat : k ≤ st.fadeFlatPackets
  next => simp [burstGainQ15, flat, q15]
  by_cases silent : st.fadePackets ≤ k
  next => simp [burstGainQ15, flat, silent, q15]
  have bounds : 0 ≤ fadeGain st k ∧ fadeGain st k < q15 := fadeGain_bounds (by omega) (by omega)
  rw [burstGainQ15_fade (by omega) (by omega) (fits (by omega) (by omega))]
  exact ⟨bounds.1, bounds.2.le⟩

theorem Plc.FitsAt.falls (fits : st.FitsAt k) {later : Int} (fitsLater : st.FitsAt later)
    (order : k ≤ later) : burstGainQ15 st later ≤ burstGainQ15 st k := by
  by_cases flat : k ≤ st.fadeFlatPackets
  next => simpa [burstGainQ15_flat flat] using fitsLater.bounds.2
  by_cases silent : st.fadePackets ≤ later
  next =>
    have none : burstGainQ15 st later = 0 := by
      simp only [burstGainQ15]
      rw [if_neg (by omega), if_pos silent]
    simpa [none] using fits.bounds.1
  rw [burstGainQ15_fade (by omega) (by omega) (fits (by omega) (by omega)),
    burstGainQ15_fade (by omega) (by omega) (fitsLater (by omega) (by omega))]
  exact fadeGain_falls (by omega) order (by omega)

end Line

-- No product along the whole line overflows.
def Plc.LineFits (st : Plc) : Prop := CInt.InRange (q15 * (st.fadePackets - st.fadeFlatPackets))

theorem Plc.LineFits.at {st : Plc} (line : st.LineFits) (k : Int) : st.FitsAt k := by
  intro after _
  have high := line.2
  simp only [q15] at high ⊢
  omega

theorem burstGainChecked_sound {st : Plc} {k g : Int} (result : burstGainChecked st k = some g) :
    burstGainQ15 st k = g := by
  simp only [burstGainChecked] at result
  by_cases flat : k ≤ st.fadeFlatPackets
  next =>
    rw [if_pos flat] at result
    simpa [burstGainQ15, flat] using result
  by_cases silent : st.fadePackets ≤ k
  next =>
    rw [if_neg flat, if_pos silent] at result
    simpa [burstGainQ15, flat, silent] using result
  rw [if_neg flat, if_neg silent] at result
  simp only [CInt.sub, CInt.mul, CInt.div, Option.bind_eq_bind, Option.bind_eq_some_iff,
    CInt.checked_eq_some] at result
  obtain ⟨_, ⟨_, rfl⟩, _, ⟨_, rfl⟩, _, ⟨_, rfl⟩, _, ⟨inRange, rfl⟩, quotient⟩ := result
  simp only [burstGainQ15]
  rw [if_neg flat, if_neg silent, toInt32_inside inRange.1 (Int.lt_of_le_sub_one inRange.2)]
  split at quotient
  next => simp at quotient
  next => exact (CInt.checked_eq_some.mp quotient).2

-- One counter gap can produce the loss indices up to 32766 and no others.
theorem lossIndex_iff (i : Nat) :
    (∃ mc counter, i < (mediaClockOnPacket mc counter).2.silencePackets) ↔ i ≤ 32766 := by
  constructor
  next =>
    rintro ⟨mc, counter, lost⟩
    exact Nat.le_of_lt_succ (lost.trans_le (mediaClockOnPacket_silencePackets_le mc counter))
  next =>
    intro limit
    refine ⟨{ mediaClockInit 12 with started := true }, 32768, ?_⟩
    rw [mediaClockOnPacket_started rfl]
    have gap : lostBefore (mediaClockInit 12).lastCounter 32768 = 32767 := by decide
    exact Nat.lt_of_le_of_lt limit (by rw [gap]; decide)

/-- What the gain of every loss one counter gap can hold has to be. -/
structure GainSound (st : Plc) (gain : Int → Int) : Prop where
  defined : ∀ k, 0 ≤ k → k ≤ 32766 → burstGainChecked st k = some (gain k)
  bounded : ∀ k, 0 ≤ k → k ≤ 32766 → 0 ≤ gain k ∧ gain k ≤ 32768
  falling : ∀ k later, 0 ≤ k → k ≤ later → later ≤ 32766 → gain later ≤ gain k
  silent : ∀ k, 0 ≤ k → k ≤ 32766 → st.fadePackets ≤ k → st.fadeFlatPackets < k → gain k = 0

theorem burstGainChecked_line {st : Plc} (tuned : st.Tuned) {k : Int}
    (after : st.fadeFlatPackets < k) (before : k < st.fadePackets) (limit : k ≤ 32766) :
    burstGainChecked st k =
      if q15 * (st.fadePackets - k) < 2 ^ 31 then some (fadeGain st k) else none := by
  have fade := tuned.fade
  have flat := tuned.flat
  rw [Int.tdiv_eq_ediv_of_nonneg fade.le] at flat
  have left : st.fadePackets - st.fadeFlatPackets - (k - st.fadeFlatPackets) = st.fadePackets - k := by
    omega
  have positive : 0 ≤ q15 * (st.fadePackets - k) := mul_nonneg (by decide) (by omega)
  have bounds := fadeGain_bounds after before
  have spanRange : CInt.InRange (st.fadePackets - st.fadeFlatPackets) := by
    constructor <;> omega
  have intoRange : CInt.InRange (k - st.fadeFlatPackets) := by constructor <;> omega
  have leftRange : CInt.InRange (st.fadePackets - k) := by constructor <;> omega
  simp only [burstGainChecked, CInt.sub, CInt.mul, CInt.div, CInt.checked]
  rw [if_neg (by omega), if_neg (by omega)]
  simp only [spanRange, intoRange, if_true, Option.bind_eq_bind, Option.bind_some, left, leftRange]
  by_cases fits : q15 * (st.fadePackets - k) < 2 ^ 31
  next =>
    have productRange : CInt.InRange (q15 * (st.fadePackets - k)) := by constructor <;> omega
    have nonzero : st.fadePackets - st.fadeFlatPackets ≠ 0 := by omega
    have quotient : (q15 * (st.fadePackets - k)).tdiv (st.fadePackets - st.fadeFlatPackets) =
        fadeGain st k := Int.tdiv_eq_ediv_of_nonneg positive
    have gainRange : CInt.InRange (fadeGain st k) := by
      rw [q15] at bounds
      constructor <;> omega
    rw [if_pos fits]
    simp [productRange, nonzero, quotient, gainRange]
  next =>
    have overflow : ¬CInt.InRange (q15 * (st.fadePackets - k)) := fun inRange => by
      have high := inRange.2
      omega
    rw [if_neg fits]
    simp [overflow]

theorem gainSound_of_fits {st : Plc} (tuned : st.Tuned) (fits : ∀ k, k ≤ 32766 → st.FitsAt k) :
    GainSound st (burstGainQ15 st) where
  defined := by
    intro k _ limit
    by_cases flat : k ≤ st.fadeFlatPackets
    next => simp [burstGainChecked, burstGainQ15, flat]
    by_cases silent : st.fadePackets ≤ k
    next => simp [burstGainChecked, burstGainQ15, flat, silent]
    have product := fits k limit (by omega) (by omega)
    have exact := burstGainChecked_line tuned (by omega) (by omega) limit
    rw [if_pos product] at exact
    rw [exact, burstGainChecked_sound exact]
  bounded := fun k _ limit => (fits k limit).bounds
  falling := fun k later _ order limit => (fits k (order.trans limit)).falls (fits later limit) order
  silent := fun k _ _ above _ => burstGainQ15_silent tuned above

theorem burstGainChecked_overflow {st : Plc} (tuned : st.Tuned) (low : 81921 ≤ st.fadePackets)
    (high : st.fadePackets ≤ 163829) :
    burstGainChecked st (st.fadeFlatPackets + 1) = none := by
  have flat := tuned.flat
  rw [Int.tdiv_eq_ediv_of_nonneg tuned.fade.le] at flat
  rw [burstGainChecked_line tuned (by omega) (by omega) (by omega), if_neg]
  rw [q15]
  omega

theorem plcInit_fadePackets (mode : ReacMode) {fade : Int} (accepted : 0 < fade) (plcXfade : Int) :
    (plcInit mode fade plcXfade).fadePackets = fade := by
  simp [plcInit, accepted]

/-- The gain of every loss of a gap is sound exactly outside one range of fade lengths. -/
theorem burstGain_sound_iff (mode : ReacMode) (fade plcXfade : Int) (accepted : 0 < fade) :
    (∃ gain, GainSound (plcInit mode fade plcXfade) gain) ↔ fade ≤ 81920 ∨ 163830 ≤ fade := by
  have tuned := plcInit_tuned mode fade plcXfade
  have packets := plcInit_fadePackets mode accepted plcXfade
  have flat := tuned.flat
  rw [Int.tdiv_eq_ediv_of_nonneg tuned.fade.le] at flat
  constructor
  next =>
    rintro ⟨gain, sound⟩
    by_contra inside
    have defined := sound.defined ((plcInit mode fade plcXfade).fadeFlatPackets + 1) (by omega)
      (by omega)
    rw [burstGainChecked_overflow tuned (by omega) (by omega)] at defined
    exact absurd defined (by simp)
  next =>
    intro outside
    refine ⟨_, gainSound_of_fits tuned fun k limit after before => ?_⟩
    rw [q15]
    omega

theorem burstGain_sound_default : ∃ gain, GainSound (plcInit reacMode48k 200 0) gain :=
  (burstGain_sound_iff reacMode48k 200 0 (by decide)).mpr (.inl (by decide))

-- The gap of one counter reaches the loss whose product overflows.
theorem burstGain_not_sound :
    (¬∃ gain, GainSound (plcInit reacMode48k 100000 0) gain) ∧
      burstGainChecked (plcInit reacMode48k 100000 0) 20001 = none ∧
      ∃ mc counter, 20001 < (mediaClockOnPacket mc counter).2.silencePackets := by
  have overflow : burstGainChecked (plcInit reacMode48k 100000 0) 20001 = none := by decide
  refine ⟨?_, overflow, (lossIndex_iff 20001).mpr (by decide)⟩
  rintro ⟨gain, sound⟩
  have defined := sound.defined 20001 (by decide) (by decide)
  simp [overflow] at defined

end ReacAes67
