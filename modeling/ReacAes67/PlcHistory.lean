import ReacAes67.Sample24
import ReacAes67.Shared.FixedPoint
import ReacAes67.Shared.HistoryRing

set_option autoImplicit false

/-!
# The concealment history

A channel's ring holds the newest of the samples pushed to it, whatever phase
its head is in, so after an observed packet the samples read back are those of
that packet and a synthesized sample depends on nothing else.
-/

namespace ReacAes67

open SampleBlock

/-- The channel's ring after the samples `xs`, oldest first. -/
structure PlcChan.Records (c : PlcChan) (xs : List Int) : Prop where
  slots : HistoryRing.Keeps plcHistSamples c.hist xs
  head : c.head = xs.length % plcHistSamples
  filled : c.filled = min xs.length plcHistSamples

def frameSamples (samples ch : Nat) (pcm : Block) : List Int :=
  (List.range samples).map fun s => load24 (pcm.sample (ch * samples + s))

@[simp] theorem frameSamples_length (samples ch : Nat) (pcm : Block) :
    (frameSamples samples ch pcm).length = samples := by
  simp [frameSamples]

theorem histPush_records {c : PlcChan} {xs : List Int} (records : c.Records xs) (v : Int) :
    (histPush c v).Records (xs ++ [v]) where
  slots := by
    simpa only [histPush, records.head] using records.slots.push v
  head := by simp [histPush, records.head]
  filled := by
    have filled := records.filled
    simp only [histPush, List.length_append, List.length_singleton]
    split <;> omega

theorem histPush_all {c : PlcChan} {xs : List Int} (records : c.Records xs) (vs : List Int) :
    (vs.foldl histPush c).Records (xs ++ vs) := by
  induction vs generalizing c xs with
  | nil => simpa using records
  | cons v rest ih => simpa using ih (histPush_records records v)

theorem plcInit_records (mode : ReacMode) (plcFadePkts plcXfade : Int) (ch : Nat) :
    ((plcInit mode plcFadePkts plcXfade).ch ch).Records [] :=
  ⟨HistoryRing.keeps_nil _ _, rfl, rfl⟩

theorem plcObserve_records {st : Plc} {ch : Nat} (channel : ch < st.nChannels) {xs : List Int}
    (records : (st.ch ch).Records xs) (pcm : Block) :
    ((plcObserve st pcm).ch ch).Records (xs ++ frameSamples st.samples ch pcm) := by
  have pushed := histPush_all records (frameSamples st.samples ch pcm)
  rw [frameSamples, List.foldl_map] at pushed
  simpa [plcObserve, channel, frameSamples] using pushed

theorem PlcChan.Records.histAt {c : PlcChan} {xs : List Int} (records : c.Records xs) (back : Nat)
    (inside : back < xs.length) (near : back < plcHistSamples) :
    xs[xs.length - 1 - back]? = some (histAt c back) := by
  have filled := records.filled
  have slot := HistoryRing.signed_slot (Nat.mod_lt xs.length (by decide : 0 < plcHistSamples)) near
  have kept := records.slots (xs.length - 1 - back) (by omega) (by omega)
  simp only [ReacAes67.histAt, records.head, slot, HistoryRing.back_slot inside near]
  rw [if_neg (by omega), kept]

-- The newest frame is read back sample by sample.
theorem PlcChan.Records.histAt_frame {c : PlcChan} {older : List Int} {samples ch : Nat} {pcm : Block}
    (records : c.Records (older ++ frameSamples samples ch pcm)) (limit : samples ≤ plcHistSamples)
    {s : Nat} (time : s < samples) :
    ReacAes67.histAt c (samples - 1 - s) = load24 (pcm.sample (ch * samples + s)) := by
  have read := records.histAt (samples - 1 - s) (by simp; omega) (by omega)
  have position : (older ++ frameSamples samples ch pcm).length - 1 - (samples - 1 - s) =
      older.length + s := by
    simp
    omega
  rw [position, List.getElem?_append_right (Nat.le_add_right _ _), Nat.add_sub_cancel_left] at read
  simpa [frameSamples, time] using read.symm

theorem PlcChan.Records.concealTier {c : PlcChan} {older : List Int} {st : Plc} {ch : Nat}
    {pcm : Block} (records : c.Records (older ++ frameSamples st.samples ch pcm))
    (positive : 0 < st.samples) (limit : st.samples ≤ plcHistSamples) (lossIndex : Nat) :
    ReacAes67.concealTier st c lossIndex = if lossIndex = 0 then .repeatXfade else .burstFade := by
  have filled := records.filled
  rw [List.length_append, frameSamples_length] at filled
  simp only [ReacAes67.concealTier]
  rw [if_neg (by omega), if_neg (by omega)]

-- What `plc_init` makes of any tuning.
structure Plc.Tuned (st : Plc) : Prop where
  flat : st.fadeFlatPackets = st.fadePackets.tdiv 5
  fade : 0 < st.fadePackets
  xfade : 0 < st.samples → 0 < st.xfadeW
  xfadeLimit : st.xfadeW ≤ st.samples

theorem plcInit_tuned (mode : ReacMode) (plcFadePkts plcXfade : Int) :
    (plcInit mode plcFadePkts plcXfade).Tuned where
  flat := rfl
  fade := by
    simp only [plcInit]
    split <;> omega
  xfade := by
    simp only [plcInit]
    intro positive
    split <;> split <;> (try split) <;> omega
  xfadeLimit := by
    simp only [plcInit]
    split <;> omega

theorem Plc.Tuned.observe {st : Plc} (tuned : st.Tuned) (pcm : Block) : (plcObserve st pcm).Tuned :=
  ⟨tuned.flat, tuned.fade, tuned.xfade, tuned.xfadeLimit⟩

theorem toInt32_inside {x : Int} (low : -2 ^ 31 ≤ x) (high : x < 2 ^ 31) : toInt32 x = x := by
  apply Int.bmod_eq_of_le_mul_two <;> omega

theorem toInt32_signed {x : Int} (inside : Signed24 x) : toInt32 x = x := by
  have low := inside.1
  have high := inside.2
  simp only [plcMin, plcMax] at low high
  exact toInt32_inside (by omega) (by omega)

end ReacAes67
