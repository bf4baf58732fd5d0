import Mathlib.Algebra.Order.Ring.Abs
import ReacAes67.BurstGain
import ReacAes67.GaplessStream

set_option autoImplicit false

/-!
# Concealment from the last frame alone

A reference that keeps nothing but the PCM of the most recent valid frame
produces the concealment packets of the pipeline, byte for byte.
-/

namespace ReacAes67

open SampleBlock

variable {σ : Type}

-- The tuning is that of `st`; the channels of `st` are not looked at.
def lastFrameSample (st : Plc) (frame : Nat → Int) (lossIndex s : Nat) : Int :=
  if lossIndex = 0 then
    if (s : Int) < st.xfadeW then
      FixedPoint.blend (2 ^ 15) (frame (st.samples - 1)) (frame s)
        (((s : Int) + 1) * 2 ^ 15 / (st.xfadeW + 1))
    else frame s
  else FixedPoint.scale (2 ^ 15) (frame s) (burstGainQ15 st lossIndex)

def frameChannel (samples ch : Nat) (pcm : Block) (s : Nat) : Int :=
  load24 (pcm.sample (ch * samples + s))

def lastFrameFill (st : Plc) (last : Block) (lossIndex : Nat) : Block :=
  Block.blank.store (grid st.nChannels st.samples) (fun cell => cell.1 * st.samples + cell.2)
    (fun cell => pack24 (lastFrameSample st (frameChannel st.samples cell.1 last) lossIndex cell.2))

theorem scale_signed {x g : Int} (sample : Signed24 x) (low : -32767 ≤ g) (high : g ≤ 32768) :
    Signed24 (FixedPoint.scale (2 ^ 15) x g) := by
  obtain ⟨bottom, top⟩ := sample
  simp only [plcMin, plcMax] at bottom top
  have size : |x * g| ≤ 8388608 * 32768 := by
    rw [abs_mul]
    exact mul_le_mul (abs_le.mpr (by omega)) (abs_le.mpr (by omega)) (abs_nonneg g) (by decide)
  constructor
  next =>
    rw [FixedPoint.scale, Int.le_ediv_iff_mul_le (by decide), plcMin]
    have least := (abs_le.mp size).1
    omega
  next =>
    have most : x * g < (8388607 + 1) * 2 ^ 15 := by
      rcases le_total 0 g with sign | sign
      next =>
        have step := mul_le_mul_of_nonneg_right top sign
        omega
      next =>
        have step := mul_le_mul_of_nonpos_right bottom sign
        omega
    have below := Int.ediv_lt_of_lt_mul (by decide : (0 : Int) < 2 ^ 15) most
    rw [FixedPoint.scale, plcMax]
    omega

theorem blend_signed {x y a : Int} (first : Signed24 x) (second : Signed24 y) (low : 0 ≤ a)
    (high : a ≤ 2 ^ 15) : Signed24 (FixedPoint.blend (2 ^ 15) x y a) := by
  have between := FixedPoint.blend_between (q := 2 ^ 15) (by decide) (x := x) (y := y) low high
  exact ⟨(le_min first.1 second.1).trans between.1, between.2.trans (max_le first.2 second.2)⟩

theorem xfadeWeight_bounds {w : Int} {s : Nat} (inside : (s : Int) < w) :
    0 ≤ ((s : Int) + 1) * 2 ^ 15 / (w + 1) ∧ ((s : Int) + 1) * 2 ^ 15 / (w + 1) ≤ 2 ^ 15 := by
  constructor
  next => exact Int.ediv_nonneg (by omega) (by omega)
  next => exact Int.ediv_le_of_le_mul (by omega) (by omega)

theorem lastFrameSample_signed (st : Plc) (frame : Nat → Int) (signed : ∀ s, Signed24 (frame s))
    (lossIndex s : Nat) : Signed24 (lastFrameSample st frame lossIndex s) := by
  simp only [lastFrameSample]
  split
  next =>
    split
    next inside =>
      have weight := xfadeWeight_bounds inside
      exact blend_signed (signed _) (signed _) weight.1 weight.2
    next => exact signed s
  next =>
    have gain := burstGainQ15_range st lossIndex
    exact scale_signed (signed s) gain.1 gain.2

theorem frameChannel_lastFrameFill (st : Plc) (last : Block) (lossIndex : Nat) {ch s : Nat}
    (channel : ch < st.nChannels) (time : s < st.samples) :
    frameChannel st.samples ch (lastFrameFill st last lossIndex) s =
      lastFrameSample st (frameChannel st.samples ch last) lossIndex s := by
  have signed := lastFrameSample_signed st (frameChannel st.samples ch last) (fun _ => load24_signed _)
    lossIndex s
  rw [frameChannel, lastFrameFill, sample_store_grid _ _ _ _ channel time, load24_pack24 signed]

theorem concealSample_lastFrame (st : Plc) (limit : st.samples ≤ plcHistSamples) {c : PlcChan}
    {older : List Int} {ch : Nat} {pcm : Block}
    (records : c.Records (older ++ frameSamples st.samples ch pcm)) (lossIndex : Nat) {s : Nat}
    (time : s < st.samples) :
    concealSample st c (burstGainQ15 st lossIndex) lossIndex s =
      lastFrameSample st (frameChannel st.samples ch pcm) lossIndex s := by
  have signed := lastFrameSample_signed st (frameChannel st.samples ch pcm)
    (fun _ => load24_signed _) lossIndex s
  have sub := records.histAt_frame limit time
  have last := records.histAt_frame limit (s := st.samples - 1) (by omega)
  rw [show st.samples - 1 - (st.samples - 1) = 0 by omega] at last
  simp only [concealSample, records.concealTier (by omega) limit, sub, last]
  by_cases first : lossIndex = 0
  next =>
    simp only [lastFrameSample, if_pos first] at signed ⊢
    by_cases inside : (s : Int) < st.xfadeW
    next =>
      have weight : (((s : Int) + 1) * q15).tdiv (st.xfadeW + 1) =
          ((s : Int) + 1) * 2 ^ 15 / (st.xfadeW + 1) :=
        Int.tdiv_eq_ediv_of_nonneg (mul_nonneg (by omega) (by decide))
      simp only [if_pos inside] at signed ⊢
      rw [weight, Int.shiftRight_eq_div_pow]
      exact toInt32_signed signed
    next => simp [inside, frameChannel]
  next =>
    simp only [lastFrameSample, if_neg first] at signed ⊢
    rw [Int.shiftRight_eq_div_pow]
    exact toInt32_signed signed

structure LastFrame where
  clock : MediaClock
  last : Option Block

def LastFrame.fill (mode : ReacMode) (tuning : Plc) (f : LastFrame) (step : MediaClockStep) : List Pcm :=
  match f.last with
  | none => []
  | some last => (List.range step.silencePackets).map fun i =>
    { planar := lastFrameFill tuning last i
      rtpTs := step.rtpTs -
        UInt32.ofNat (step.silencePackets - i) * UInt32.ofNat mode.samplesPerPkt
      concealed := true }

def LastFrame.onFrame (mode : ReacMode) (tuning : Plc) (f : LastFrame) (raw : List UInt8) :
    LastFrame × List Pcm :=
  let frame := reacFrameInspect raw
  if frame.valid then
    let accounted := mediaClockOnPacket f.clock frame.counter
    (⟨accounted.1, some (decoded mode raw)⟩,
      f.fill mode tuning accounted.2 ++ [realPcm mode raw accounted.2])
  else (f, [])

/-- The ring state of the pipeline and the one frame of the reference. -/
structure LastFrame.Matches (tuning : Plc) (front : Front) (f : LastFrame) : Prop where
  clock : front.clock = f.clock
  setup : front.plc.SameSetup tuning
  heard : front.clock.started = true → f.last.isSome
  history : ∀ ch, ch < tuning.nChannels → ∃ older, (front.plc.ch ch).Records
    (older ++ f.last.elim [] (frameSamples tuning.samples ch))

theorem Plc.SameSetup.eq {left right : Plc} (same : left.SameSetup right) :
    left = { right with ch := left.ch } := by
  obtain ⟨samples, nChannels, xfadeW, fade, flat⟩ := same
  cases left
  cases right
  simp_all

theorem plcConceal_lastFrame (st : Plc) (limit : st.samples ≤ plcHistSamples) {last : Block}
    (history : ∀ ch, ch < st.nChannels → ∃ older, (st.ch ch).Records
      (older ++ frameSamples st.samples ch last)) (lossIndex : Nat) :
    (plcConceal st Block.blank lossIndex).2 = lastFrameFill st last lossIndex := by
  apply Block.store_congr
  intro cell member
  obtain ⟨channel, time⟩ := mem_grid.mp member
  obtain ⟨older, records⟩ := history cell.1 channel
  rw [concealSample_lastFrame st limit records lossIndex time]
  exact store24_signed (lastFrameSample_signed st _ (fun _ => load24_signed _) lossIndex cell.2)

section Simulation

variable (mode : ReacMode) {tuning : Plc} {front : Front} {f : LastFrame}

theorem LastFrame.Matches.fills (matching : f.Matches tuning front)
    (limit : tuning.samples ≤ plcHistSamples) (counter : UInt16) :
    let step := (mediaClockOnPacket f.clock counter).2
    (List.range step.silencePackets).map (concealPcm mode front.plc step) =
      f.fill mode tuning step := by
  intro step
  cases last : f.last with
  | none =>
    have fresh : f.clock.started = false := by
      have heard := matching.heard
      rw [matching.clock, last] at heard
      simpa using heard
    have none : step.silencePackets = 0 := by simp [step, mediaClockOnPacket_first fresh]
    simp [LastFrame.fill, last, none]
  | some frame =>
    have history := matching.history
    have setup := matching.setup
    simp only [LastFrame.fill, last]
    apply List.map_congr_left
    intro i _
    simp only [concealPcm, Pcm.mk.injEq, and_true]
    simp only [last, Option.elim_some] at history
    rw [setup.eq]
    exact plcConceal_lastFrame { tuning with ch := front.plc.ch } limit history i

theorem LastFrame.Matches.onFrame (matching : f.Matches tuning front)
    (limit : tuning.samples ≤ plcHistSamples) (raw : List UInt8) :
    (LastFrame.onFrame mode tuning f raw).1.Matches tuning (Front.onFrame mode front raw).1 ∧
      (Front.onFrame mode front raw).2 = (LastFrame.onFrame mode tuning f raw).2 := by
  cases valid : (reacFrameInspect raw).valid with
  | false =>
    simp only [Front.onFrame, LastFrame.onFrame, valid, Bool.false_eq_true, if_false, and_true]
    exact matching
  | true =>
    have fills := matching.fills mode limit (reacFrameInspect raw).counter
    have setup := matching.setup
    simp only [Front.onFrame, LastFrame.onFrame, valid, if_true, matching.clock]
    have same : (plcObserve front.plc (decoded mode raw)).SameSetup tuning :=
      ⟨setup.samples, setup.nChannels, setup.xfadeW, setup.fadePackets, setup.fadeFlatPackets⟩
    refine ⟨⟨rfl, same, fun _ => rfl, fun ch channel => ?_⟩, ?_⟩
    next =>
      obtain ⟨older, records⟩ := matching.history ch channel
      rw [← setup.nChannels] at channel
      have pushed := plcObserve_records channel records (decoded mode raw)
      rw [setup.samples] at pushed
      exact ⟨_, pushed⟩
    next => rw [fills]

end Simulation

def lastFrameStream (mode : ReacMode) (tuning : Plc) (f : LastFrame) (frames : List (List UInt8)) :
    List Pcm :=
  (Mealy.run (LastFrame.onFrame mode tuning) f frames).2

theorem pcmStream_lastFrame (mode : ReacMode) {tuning : Plc} (limit : tuning.samples ≤ plcHistSamples)
    {front : Front} {f : LastFrame} (matching : f.Matches tuning front)
    (frames : List (List UInt8)) :
    pcmStream mode front frames = lastFrameStream mode tuning f frames := by
  have related := Mealy.run_related (Front.onFrame mode) (LastFrame.onFrame mode tuning)
    (fun front f => f.Matches tuning front) Eq Eq (by
      rintro front f raw _ matching rfl
      obtain ⟨next, out⟩ := matching.onFrame mode limit raw
      exact ⟨next, by rw [List.forall₂_eq_eq_eq]; exact out⟩)
    front f matching frames frames (by rw [List.forall₂_eq_eq_eq])
  rw [List.forall₂_eq_eq_eq] at related
  exact related.2

theorem plcInit_matches (mode : ReacMode) (plcFadePkts plcXfade : Int) (anchor : UInt32) :
    LastFrame.Matches (plcInit mode plcFadePkts plcXfade)
      ⟨mediaClockInitAnchored mode.samplesPerPkt anchor, plcInit mode plcFadePkts plcXfade⟩
      ⟨mediaClockInitAnchored mode.samplesPerPkt anchor, none⟩ where
  clock := rfl
  setup := Plc.SameSetup.refl _
  heard := by simp [mediaClockInitAnchored]
  history := fun ch _ => ⟨[], plcInit_records mode plcFadePkts plcXfade ch⟩

def UsualTier (tier : PlcTier) : Prop := tier = .repeatXfade ∨ tier = .burstFade

theorem raise_usual (tiers : List PlcTier) (usual : ∀ tier ∈ tiers, UsualTier tier) (start : PlcTier)
    (first : UsualTier start) : UsualTier (tiers.foldl PlcTier.raise start) := by
  induction tiers generalizing start with
  | nil => exact first
  | cons tier rest ih =>
    have raised : UsualTier (start.raise tier) := by
      rw [PlcTier.raise]
      split
      next => exact usual tier (by simp)
      next => exact first
    exact ih (fun other member => usual other (by simp [member])) _ raised

theorem plcConceal_usual {st : Plc} {lossIndex : Nat}
    (usual : ∀ ch, ch < st.nChannels → UsualTier (concealTier st (st.ch ch) lossIndex)) :
    UsualTier (plcConceal st Block.blank lossIndex).1 := by
  have raised := raise_usual
    ((List.range st.nChannels).map fun ch => concealTier st (st.ch ch) lossIndex)
    (by simpa using usual) .repeatXfade (.inl rfl)
  rwa [List.foldl_map] at raised

-- Once a frame was heard, the two tiers for a short history stay out of reach.
theorem LastFrame.Matches.usual {tuning : Plc} {front : Front} {f : LastFrame}
    (matching : f.Matches tuning front) (positive : 0 < tuning.samples)
    (limit : tuning.samples ≤ plcHistSamples) {counter : UInt16} {i ch : Nat}
    (lost : i < (mediaClockOnPacket front.clock counter).2.silencePackets)
    (channel : ch < tuning.nChannels) :
    concealTier front.plc (front.plc.ch ch) i = if i = 0 then .repeatXfade else .burstFade := by
  have started : front.clock.started = true := by
    by_contra fresh
    rw [mediaClockOnPacket_first (by simpa using fresh)] at lost
    exact absurd lost (Nat.not_lt_zero i)
  obtain ⟨last, heard⟩ := Option.isSome_iff_exists.mp (matching.heard started)
  obtain ⟨older, records⟩ := matching.history ch channel
  have samples := matching.setup.samples
  rw [← samples] at positive limit
  rw [heard, ← samples] at records
  exact PlcChan.Records.concealTier records positive limit i

def Pipeline.UsualTiers (pl : Pipeline σ) : Prop := ∀ tier, pl.stats.lastTier = some tier → UsualTier tier

theorem emitPcm_lastTier (pl : Pipeline σ) (planar : Block) (ts : UInt32) (concealed : Bool) :
    (emitPcm pl planar ts concealed).1.stats.lastTier = pl.stats.lastTier := by
  obtain ⟨mode, clock, rtp, plc, stats, pcmSink, pcmCtx⟩ := pl
  cases concealed <;> cases pcmSink <;> rfl

theorem concealLoop_usual (step : MediaClockStep) (pl : Pipeline σ) (start : pl.UsualTiers)
    (indices : List Nat) (usual : ∀ i ∈ indices, UsualTier (plcConceal pl.plc Block.blank i).1) :
    (Mealy.run (concealOne step) pl indices).1.UsualTiers := by
  induction indices generalizing pl with
  | nil => exact start
  | cons i rest ih =>
    have plc : (concealOne step pl i).1.plc = pl.plc := (emitPcm_stage _
      (concealPcm pl.mode pl.plc step i)).1.plc
    have now : (concealOne step pl i).1.UsualTiers := by
      intro tier last
      rw [concealOne, emitPcm_lastTier] at last
      rw [← Option.some.inj last]
      exact usual i (by simp)
    exact ih _ now (fun j member => by
      rw [plc]
      exact usual j (by simp [member]))

theorem pipelineOnFrame_usual (pl : Pipeline σ) (raw : List UInt8) (start : pl.UsualTiers)
    (usual : ∀ i, i < (mediaClockOnPacket pl.clock (reacFrameInspect raw).counter).2.silencePackets →
      UsualTier (plcConceal pl.plc Block.blank i).1) :
    (pipelineOnFrame pl raw).2.1.UsualTiers := by
  cases valid : (reacFrameInspect raw).valid with
  | false =>
    rw [pipelineOnFrame, reacDecode_malformed pl.mode Block.blank valid]
    exact start
  | true =>
    rw [pipelineOnFrame, reacDecode_valid pl.mode valid]
    intro tier last
    simp only [emitPcm_lastTier] at last
    refine concealLoop_usual _ _ ?_ _ ?_ tier last
    next => exact start
    next =>
      intro i member
      exact usual i (List.mem_range.mp member)

/-- What every state of a run shares with the reference. -/
structure Pipeline.Remembers (pl : Pipeline σ) (mode : ReacMode) (tuning : Plc) (f : LastFrame) : Prop where
  mode : pl.mode = mode
  matching : f.Matches tuning pl.front
  tiers : pl.UsualTiers

theorem Pipeline.Remembers.onFrame {pl : Pipeline σ} {mode : ReacMode} {tuning : Plc} {f : LastFrame}
    (remembers : pl.Remembers mode tuning f) (positive : 0 < tuning.samples)
    (limit : tuning.samples ≤ plcHistSamples) (raw : List UInt8) :
    (pipelineOnFrame pl raw).2.1.Remembers mode tuning (LastFrame.onFrame mode tuning f raw).1 := by
  obtain ⟨keptMode, _, front, _⟩ := pipelineOnFrame_stages pl raw
  obtain ⟨next, _⟩ := remembers.matching.onFrame pl.mode limit raw
  have sameMode := remembers.mode
  refine ⟨keptMode.trans sameMode, ?_, ?_⟩
  next =>
    rw [front, ← sameMode]
    exact next
  next =>
    apply pipelineOnFrame_usual pl raw remembers.tiers
    intro i lost
    apply plcConceal_usual
    intro ch channel
    have setup := remembers.matching.setup
    have channel' : ch < tuning.nChannels := by rwa [← setup.nChannels]
    have tier := remembers.matching.usual positive limit lost channel'
    change concealTier pl.plc (pl.plc.ch ch) i = _ at tier
    rw [tier]
    by_cases first : i = 0
    next => exact .inl (if_pos first)
    next => exact .inr (if_neg first)

/-- The concealment ring of the pipeline is the memory of one frame. -/
theorem plc_refines_lastFrame (mode : ReacMode) (positive : 1 ≤ mode.samplesPerPkt)
    (limit : mode.samplesPerPkt ≤ 24) (payloadType : UInt8) (ssrc : UInt32)
    (plcXfade plcFadePkts : Int) (anchor : Option UInt32) (pcmSink : Option (PcmSink σ)) (ctx : σ)
    (frames : List (List UInt8)) :
    let pl := pipelineSetPcmSink
      (startPipeline mode payloadType ssrc plcXfade plcFadePkts anchor) pcmSink ctx
    let run := pipelineRun pl frames
    let reference := Mealy.run (Back.onPcm mode pcmSink) pl.back
      (lastFrameStream mode (plcInit mode plcFadePkts plcXfade) ⟨pl.clock, none⟩ frames)
    run.2 = reference.2 ∧ run.1.back = reference.1 ∧
      (run.1.stats.lastTier = none ∨ run.1.stats.lastTier = some .repeatXfade ∨
        run.1.stats.lastTier = some .burstFade) ∧
      ∀ counter i ch, i < (mediaClockOnPacket run.1.clock counter).2.silencePackets →
        ch < mode.nChannels →
        concealTier run.1.plc (run.1.plc.ch ch) i = if i = 0 then .repeatXfade else .burstFade := by
  intro pl run reference
  let tuning := plcInit mode plcFadePkts plcXfade
  have modeKept : pl.mode = mode :=
    startPipeline_mode mode payloadType ssrc plcXfade plcFadePkts anchor
  have startFront : pl.front = ⟨mediaClockInitAnchored mode.samplesPerPkt (anchor.getD 0), tuning⟩ :=
    startPipeline_front mode payloadType ssrc plcXfade plcFadePkts anchor
  have clock : pl.clock = mediaClockInitAnchored mode.samplesPerPkt (anchor.getD 0) :=
    congrArg Front.clock startFront
  have matching : LastFrame.Matches tuning pl.front ⟨pl.clock, none⟩ := by
    rw [startFront, clock]
    exact plcInit_matches mode plcFadePkts plcXfade (anchor.getD 0)
  have samples : tuning.samples ≤ plcHistSamples := limit.trans (by decide)
  have fresh : pl.UsualTiers := by
    intro tier last
    have none : pl.stats.lastTier = none := by
      cases anchor <;> rfl
    rw [none] at last
    exact absurd last (by simp)
  obtain ⟨_, back, out⟩ := pipelineRun_stages pl frames
  have sink : pl.pcmSink = pcmSink := rfl
  rw [modeKept, sink, pcmStream_lastFrame mode samples matching] at back out
  obtain ⟨f, remembers⟩ := Mealy.run_invariant (fun pl raw => (pipelineOnFrame pl raw).2)
    (fun next _ => ∃ f, next.Remembers mode tuning f)
    (fun next _ raw ⟨f, remembers⟩ => ⟨_, remembers.onFrame positive samples raw⟩)
    pl [] ⟨_, modeKept, matching, fresh⟩ frames
  refine ⟨out, back, ?_, ?_⟩
  next =>
    cases last : run.1.stats.lastTier with
    | none => exact .inl rfl
    | some tier =>
      rcases remembers.tiers tier last with same | same
      next => exact .inr (.inl (congrArg some same))
      next => exact .inr (.inr (congrArg some same))
  next =>
    intro counter i ch lost channel
    exact remembers.matching.usual positive samples lost channel

-- Two lost packets after one of bytes that count up: the first sample of channel 3 in each packet.
theorem plc_refines_lastFrame_twoLost :
    let pl := pipelineSetPcmSink (startPipeline reacMode48k 97 1 0 2 none) (none : Option (PcmSink Unit)) ()
    let frames := [wireFrame (fun _ => 0xff) 3 UInt8.ofNat, wireFrame (fun _ => 0xff) 6 UInt8.ofNat]
    let reference := lastFrameStream reacMode48k (plcInit reacMode48k 2 0) ⟨pl.clock, none⟩ frames
    (pipelineRun pl frames).2 = (Mealy.run (Back.onPcm reacMode48k none) pl.back reference).2 ∧
      reference.map (fun pcm => frameChannel 12 3 pcm.planar 0) = [723465, 3062843, 361732, 723465] := by
  intro pl frames reference
  refine ⟨(plc_refines_lastFrame reacMode48k (by decide) (by decide) 97 1 0 2 none none () _).1, ?_⟩
  let tuning := plcInit reacMode48k 2 0
  have heard (counter : UInt16) {s : Nat} (time : s < 12) :
      frameChannel 12 3 (decoded reacMode48k (wireFrame (fun _ => 0xff) counter UInt8.ofNat)) s =
        load24 (Block.sample UInt8.ofNat (s * 40 + 3)) := by
    have slot : (decoded reacMode48k _).sample (3 * 12 + s) = _ :=
      decoded_sample reacMode48k (wireFrame (fun _ => 0xff) counter UInt8.ofNat) (by decide) time
    rw [wireFrame_audioSlot _ reacMode48k_fillsFrame.fits _ _ _ (by decide) time] at slot
    exact congrArg load24 slot
  have filled (last : Block) (lossIndex : Nat) : frameChannel 12 3 (lastFrameFill tuning last lossIndex) 0 =
      lastFrameSample tuning (frameChannel 12 3 last) lossIndex 0 :=
    frameChannel_lastFrameFill tuning last lossIndex (by decide) (by decide)
  have samples : tuning.samples - 1 = 11 := rfl
  have clock : pl.clock = mediaClockInit 12 := rfl
  simp [reference, frames, clock, lastFrameStream, LastFrame.onFrame, LastFrame.fill, wireFrame_inspect,
    mediaClockInit, mediaClockInitAnchored, mediaClockOnPacket_first, mediaClockOnPacket_started, lostBefore,
    counterGap, realPcm, List.range_succ, heard]
  rw [filled, filled]
  simp only [lastFrameSample, samples, heard, Nat.lt_add_one, Nat.zero_lt_succ]
  decide
end ReacAes67
