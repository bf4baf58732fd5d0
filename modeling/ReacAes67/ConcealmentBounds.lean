import ReacAes67.LastFrame

set_option autoImplicit false

/-!
# Bounds on synthesized samples

A concealed sample lies between samples that were heard. In a burst it only
shrinks, and from the end of the fade on it is zero.
-/

namespace ReacAes67

open SampleBlock

def observed (st : Plc) (packets : List Block) : Plc := packets.foldl plcObserve st

theorem observed_setup (st : Plc) (packets : List Block) : (observed st packets).SameSetup st := by
  induction packets generalizing st with
  | nil => exact Plc.SameSetup.refl st
  | cons pcm rest ih =>
    have later := ih (plcObserve st pcm)
    exact ⟨later.samples, later.nChannels, later.xfadeW, later.fadePackets, later.fadeFlatPackets⟩

theorem observed_records (st : Plc) {ch : Nat} (channel : ch < st.nChannels) {xs : List Int}
    (records : (st.ch ch).Records xs) (packets : List Block) :
    ((observed st packets).ch ch).Records
      (xs ++ packets.flatMap (frameSamples st.samples ch)) := by
  induction packets generalizing st xs with
  | nil => simpa [observed] using records
  | cons pcm rest ih =>
    have later := ih (plcObserve st pcm) channel (plcObserve_records channel records pcm)
    simpa [observed, plcObserve] using later

theorem frameChannel_blank (samples ch : Nat) : frameChannel samples ch Block.blank = fun _ => 0 := by
  have silent : load24 ⟨0, 0, 0⟩ = 0 := by decide
  exact funext fun _ => silent

-- With nothing heard yet the previous packet counts as silence.
theorem concealSample_observed (mode : ReacMode) (limit : mode.samplesPerPkt ≤ plcHistSamples)
    (plcFadePkts plcXfade : Int) (packets : List Block) {ch s : Nat} (channel : ch < mode.nChannels)
    (time : s < mode.samplesPerPkt) (lossIndex : Nat) :
    let start := plcInit mode plcFadePkts plcXfade
    let st := observed start packets
    concealSample st (st.ch ch) (burstGainQ15 st lossIndex) lossIndex s =
      lastFrameSample start (frameChannel mode.samplesPerPkt ch (packets.getLastD Block.blank))
        lossIndex s := by
  intro start st
  have setup := observed_setup start packets
  have records := observed_records start channel (plcInit_records mode plcFadePkts plcXfade ch)
    packets
  rw [concealSample_congr setup]
  cases packets using List.reverseRecOn with
  | nil =>
    have empty : (start.ch ch).filled = 0 := rfl
    simp [st, observed, concealSample, concealTier, empty, lastFrameSample, frameChannel_blank,
      FixedPoint.blend, FixedPoint.scale]
  | append_singleton older pcm =>
    rw [List.nil_append, List.flatMap_append, List.flatMap_singleton] at records
    rw [List.getLastD_concat]
    exact concealSample_lastFrame start limit records lossIndex time

section Sample

variable (st : Plc) (frame : Nat → Int)

theorem lastFrameSample_first_between (s : Nat) :
    min (frame (st.samples - 1)) (frame s) ≤ lastFrameSample st frame 0 s ∧
      lastFrameSample st frame 0 s ≤ max (frame (st.samples - 1)) (frame s) := by
  simp only [lastFrameSample, if_true]
  split
  next inside =>
    have weight := xfadeWeight_bounds inside
    exact FixedPoint.blend_between (by decide) weight.1 weight.2
  next => exact ⟨min_le_right _ _, le_max_right _ _⟩

variable {st frame}

theorem lastFrameSample_first_step (inside : 0 < st.xfadeW) :
    |lastFrameSample st frame 0 0 - frame (st.samples - 1)| ≤
      |frame 0 - frame (st.samples - 1)| / (st.xfadeW + 1) + 1 := by
  have weight := xfadeWeight_bounds (w := st.xfadeW) (s := 0) inside
  simp only [lastFrameSample, if_true, Nat.cast_zero, if_pos inside]
  exact FixedPoint.blend_step (by decide) weight.1 (by omega) (Int.ediv_mul_le _ (by omega))

theorem lastFrameSample_burst (line : st.LineFits) {lossIndex : Nat} (later : 1 ≤ lossIndex)
    (s : Nat) :
    (0 ≤ frame s → 0 ≤ lastFrameSample st frame lossIndex s) ∧
      (frame s ≤ 0 → lastFrameSample st frame lossIndex s ≤ 0) ∧
      |lastFrameSample st frame lossIndex s| ≤ |frame s| ∧
      |lastFrameSample st frame (lossIndex + 1) s| ≤ |lastFrameSample st frame lossIndex s| := by
  have gain := (line.at lossIndex).bounds
  have next := (line.at (lossIndex + 1 : Nat)).bounds
  have falls := (line.at lossIndex).falls (line.at (lossIndex + 1 : Nat)) (by omega)
  have sign := FixedPoint.scale_sign (q := 2 ^ 15) (by decide) (x := frame s) gain.1
  have size := FixedPoint.scale_abs (q := 2 ^ 15) (by decide) (x := frame s) gain.1 gain.2
  have decay := FixedPoint.scale_abs (q := 2 ^ 15) (by decide) (x := frame s) next.1 falls
  rw [show q15 = 2 ^ 15 from rfl, FixedPoint.scale_whole (by decide)] at size
  simp only [lastFrameSample]
  rw [if_neg (by omega), if_neg (by omega)]
  exact ⟨sign.1, sign.2, size, decay⟩

theorem lastFrameSample_silent (tuned : st.Tuned) {lossIndex : Nat}
    (silent : st.fadePackets ≤ lossIndex) (s : Nat) : lastFrameSample st frame lossIndex s = 0 := by
  have fade := tuned.fade
  simp only [lastFrameSample]
  rw [if_neg (by omega), burstGainQ15_silent tuned silent, FixedPoint.scale_none]

end Sample

/-- No concealed sample is louder than what was heard, and a burst fades out. -/
theorem plcConceal_bounds (mode : ReacMode) (limit : mode.samplesPerPkt ≤ plcHistSamples)
    (plcFadePkts plcXfade : Int) (line : (plcInit mode plcFadePkts plcXfade).LineFits)
    (packets : List Block) (out : Block) (ch s : Nat) (channel : ch < mode.nChannels)
    (time : s < mode.samplesPerPkt) :
    let st := observed (plcInit mode plcFadePkts plcXfade) packets
    let frame := frameChannel mode.samplesPerPkt ch (packets.getLastD Block.blank)
    let last := frame (mode.samplesPerPkt - 1)
    let output := fun lossIndex : Nat =>
      load24 ((plcConceal st out lossIndex).2.sample (ch * mode.samplesPerPkt + s))
    (min last (frame s) ≤ output 0 ∧ output 0 ≤ max last (frame s)) ∧
      (s = 0 → |output 0 - last| ≤ |frame 0 - last| / (st.xfadeW + 1) + 1) ∧
      (∀ lossIndex : Nat, 1 ≤ lossIndex →
        (0 ≤ frame s → 0 ≤ output lossIndex) ∧ (frame s ≤ 0 → output lossIndex ≤ 0) ∧
        |output lossIndex| ≤ |frame s| ∧ |output (lossIndex + 1)| ≤ |output lossIndex|) ∧
      (∀ lossIndex : Nat, st.fadePackets ≤ lossIndex → output lossIndex = 0) ∧
      (∀ lossIndex : Nat,
        Signed24 (concealSample st (st.ch ch) (burstGainQ15 st lossIndex) lossIndex s)) := by
  intro st frame last output
  let start := plcInit mode plcFadePkts plcXfade
  have setup := observed_setup start packets
  have tuned := plcInit_tuned mode plcFadePkts plcXfade
  have sample (lossIndex : Nat) := concealSample_observed mode limit plcFadePkts plcXfade packets
    channel time lossIndex
  have signed (lossIndex : Nat) := lastFrameSample_signed start frame
    (fun _ => load24_signed _) lossIndex s
  have value (lossIndex : Nat) : output lossIndex = lastFrameSample start frame lossIndex s := by
    have position : st.samples = mode.samplesPerPkt := setup.samples
    have stored : (plcConceal st out lossIndex).2.sample (ch * st.samples + s) = _ :=
      plcConceal_sample st out lossIndex (by rw [setup.nChannels]; exact channel)
        (by rw [position]; exact time)
    rw [position] at stored
    simp only [output, stored]
    rw [sample lossIndex, store24_signed (signed lossIndex), load24_pack24 (signed lossIndex)]
  simp only [value]
  refine ⟨lastFrameSample_first_between start frame s, ?_, ?_, ?_, ?_⟩
  next =>
    rintro rfl
    rw [setup.xfadeW]
    exact lastFrameSample_first_step (tuned.xfade time)
  next => exact fun lossIndex later => lastFrameSample_burst line later s
  next =>
    intro lossIndex silent
    rw [setup.fadePackets] at silent
    exact lastFrameSample_silent tuned silent s
  next =>
    intro lossIndex
    rw [sample lossIndex]
    exact signed lossIndex

-- Bytes that count up: channel 3 of such a packet jumps from one side of zero to the other.
theorem plcConceal_bounds_ramp :
    let st := observed (plcInit reacMode48k 200 8) [UInt8.ofNat]
    let output := fun lossIndex : Nat => load24 ((plcConceal st Block.blank lossIndex).2.sample (3 * 12 + 0))
    (-7369075 ≤ output 0 ∧ output 0 ≤ 7236972) ∧
      |output 0 - -7369075| ≤ 1622895 ∧
      (∀ lossIndex : Nat, 1 ≤ lossIndex →
        0 ≤ output lossIndex ∧ |output lossIndex| ≤ 7236972 ∧ |output (lossIndex + 1)| ≤ |output lossIndex|) ∧
      ∀ lossIndex : Nat, (200 : Int) ≤ lossIndex → output lossIndex = 0 := by
  have first : frameChannel reacMode48k.samplesPerPkt 3 ([UInt8.ofNat].getLastD Block.blank) 0 = 7236972 := by
    decide
  have last : frameChannel reacMode48k.samplesPerPkt 3 ([UInt8.ofNat].getLastD Block.blank)
      (reacMode48k.samplesPerPkt - 1) = -7369075 := by decide
  obtain ⟨first_between, step, burst, silent, _⟩ := plcConceal_bounds reacMode48k (by decide) 200 8
    ⟨by decide, by decide⟩ [UInt8.ofNat] Block.blank 3 0 (by decide) (by decide)
  rw [first, last] at first_between step
  refine ⟨first_between, step rfl, fun lossIndex later => ?_, silent⟩
  obtain ⟨positive, _, quieter, falls⟩ := burst lossIndex later
  rw [first] at positive quieter
  exact ⟨positive (by decide), quieter, falls⟩

end ReacAes67
