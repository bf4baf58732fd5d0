import ReacAes67.Pipeline

set_option autoImplicit false

/-!
# The pipeline as two stages

Decoding, clock and concealment turn frames into a stream of planar packets
that does not depend on where they go; packet building or a sink consumes that
stream. Both output configurations are runs of a back stage over one stream.
-/

namespace ReacAes67

open SampleBlock

variable {σ : Type}

/-- One call of `emit_pcm`: a planar packet, real or synthesized. -/
structure Pcm where
  planar : Block
  rtpTs : UInt32
  concealed : Bool

structure Front where
  clock : MediaClock
  plc : Plc

structure Back (σ : Type) where
  rtp : RtpParams
  ctx : σ

def Pipeline.front (pl : Pipeline σ) : Front := ⟨pl.clock, pl.plc⟩
def Pipeline.back (pl : Pipeline σ) : Back σ := ⟨pl.rtp, pl.pcmCtx⟩

def concealPcm (mode : ReacMode) (plc : Plc) (step : MediaClockStep) (i : Nat) : Pcm :=
  { planar := (plcConceal plc Block.blank i).2
    rtpTs := step.rtpTs -
      UInt32.ofNat (step.silencePackets - i) * UInt32.ofNat mode.samplesPerPkt
    concealed := true }

def realPcm (mode : ReacMode) (raw : List UInt8) (step : MediaClockStep) : Pcm :=
  ⟨decoded mode raw, step.rtpTs, false⟩

def Front.onFrame (mode : ReacMode) (f : Front) (raw : List UInt8) : Front × List Pcm :=
  let frame := reacFrameInspect raw
  if frame.valid then
    let accounted := mediaClockOnPacket f.clock frame.counter
    let step := accounted.2
    (⟨accounted.1, plcObserve f.plc (decoded mode raw)⟩,
      (List.range step.silencePackets).map (concealPcm mode f.plc step) ++ [realPcm mode raw step])
  else (f, [])

def Back.onPcm (mode : ReacMode) (pcmSink : Option (PcmSink σ)) (b : Back σ) (pcm : Pcm) :
    Back σ × List Emitted :=
  match pcmSink with
  | some sink => ({ b with ctx := sink b.ctx pcm.planar pcm.rtpTs pcm.concealed }, [])
  | none =>
    let rtp := { b.rtp with timestamp := pcm.rtpTs }
    ({ b with rtp := { rtp with seq := rtp.seq + 1 } },
      match rtpL24Build pktCapacity rtp pcm.planar mode with
      | some buf => [⟨buf, pcm.concealed⟩]
      | none => [])

def pcmStream (mode : ReacMode) (f : Front) (frames : List (List UInt8)) : List Pcm :=
  (Mealy.run (Front.onFrame mode) f frames).2

-- What emitting a packet never touches.
structure Pipeline.SameFront (left right : Pipeline σ) : Prop where
  mode : left.mode = right.mode
  clock : left.clock = right.clock
  plc : left.plc = right.plc
  pcmSink : left.pcmSink = right.pcmSink
  lossTotal : left.stats.lossTotal = right.stats.lossTotal

theorem emitPcm_stage (pl : Pipeline σ) (pcm : Pcm) :
    let sent := emitPcm pl pcm.planar pcm.rtpTs pcm.concealed
    let stage := Back.onPcm pl.mode pl.pcmSink pl.back pcm
    sent.1.SameFront pl ∧ sent.1.back = stage.1 ∧ sent.2 = stage.2 := by
  obtain ⟨mode, clock, rtp, plc, stats, pcmSink, pcmCtx⟩ := pl
  obtain ⟨planar, ts, concealed⟩ := pcm
  cases concealed <;> cases pcmSink <;> exact ⟨⟨rfl, rfl, rfl, rfl, rfl⟩, rfl, rfl⟩

theorem concealLoop_stage (pl : Pipeline σ) (step : MediaClockStep) (indices : List Nat) :
    let filled := Mealy.run (concealOne step) pl indices
    let stage := Mealy.run (Back.onPcm pl.mode pl.pcmSink) pl.back
      (indices.map (concealPcm pl.mode pl.plc step))
    filled.1.SameFront pl ∧ filled.1.back = stage.1 ∧ filled.2 = stage.2 := by
  induction indices generalizing pl with
  | nil => exact ⟨⟨rfl, rfl, rfl, rfl, rfl⟩, rfl, rfl⟩
  | cons i rest ih =>
    let marked : Pipeline σ := { pl with
      stats := { pl.stats with lastTier := some (plcConceal pl.plc Block.blank i).1 } }
    obtain ⟨same, ctx, out⟩ := emitPcm_stage marked (concealPcm pl.mode pl.plc step i)
    obtain ⟨restSame, restCtx, restOut⟩ := ih (concealOne step pl i).1
    have next : (concealOne step pl i).1.SameFront pl :=
      ⟨same.mode, same.clock, same.plc, same.pcmSink, same.lossTotal⟩
    have nextBack : (concealOne step pl i).1.back =
        (Back.onPcm pl.mode pl.pcmSink pl.back (concealPcm pl.mode pl.plc step i)).1 := ctx
    have nextOut : (concealOne step pl i).2 =
        (Back.onPcm pl.mode pl.pcmSink pl.back (concealPcm pl.mode pl.plc step i)).2 := out
    rw [next.mode, next.pcmSink, next.plc, nextBack] at restCtx restOut
    simp only [Mealy.run_cons, List.map_cons]
    refine ⟨⟨?_, ?_, ?_, ?_, ?_⟩, restCtx, by rw [nextOut, restOut]⟩
    · exact restSame.mode.trans next.mode
    · exact restSame.clock.trans next.clock
    · exact restSame.plc.trans next.plc
    · exact restSame.pcmSink.trans next.pcmSink
    · exact restSame.lossTotal.trans next.lossTotal

-- The pipeline that the concealment loop starts from, the clock having accounted for the frame.
def countLost (pl : Pipeline σ) (accounted : MediaClock × MediaClockStep) : Pipeline σ :=
  { pl with
    clock := accounted.1
    stats := { pl.stats with lossTotal := pl.stats.lossTotal + accounted.2.silencePackets } }

theorem pipelineOnFrame_stages (pl : Pipeline σ) (raw : List UInt8) :
    let next := (pipelineOnFrame pl raw).2
    let front := Front.onFrame pl.mode pl.front raw
    let back := Mealy.run (Back.onPcm pl.mode pl.pcmSink) pl.back front.2
    next.1.mode = pl.mode ∧ next.1.pcmSink = pl.pcmSink ∧ next.1.front = front.1 ∧
      next.1.back = back.1 ∧ next.2 = back.2 := by
  cases valid : (reacFrameInspect raw).valid with
  | false =>
    rw [pipelineOnFrame, reacDecode_malformed pl.mode Block.blank valid, Front.onFrame, valid]
    exact ⟨rfl, rfl, rfl, rfl, rfl⟩
  | true =>
    let accounted := mediaClockOnPacket pl.clock (reacFrameInspect raw).counter
    let counted := countLost pl accounted
    obtain ⟨same, ctx, out⟩ :=
      concealLoop_stage counted accounted.2 (List.range accounted.2.silencePackets)
    let filled := Mealy.run (concealOne accounted.2) counted (List.range accounted.2.silencePackets)
    obtain ⟨lastSame, lastCtx, lastOut⟩ := emitPcm_stage filled.1 (realPcm pl.mode raw accounted.2)
    have filledMode : filled.1.mode = pl.mode := same.mode
    have filledSink : filled.1.pcmSink = pl.pcmSink := same.pcmSink
    rw [filledMode, filledSink, show filled.1.back = _ from ctx] at lastCtx lastOut
    simp only [pipelineOnFrame, reacDecode_valid pl.mode valid, Front.onFrame, valid, if_true,
      Mealy.run_append, Mealy.run_cons, Mealy.run_nil, List.append_nil]
    refine ⟨lastSame.mode.trans filledMode, lastSame.pcmSink.trans filledSink, ?_, lastCtx, ?_⟩
    · have clock : (emitPcm filled.1 (decoded pl.mode raw) accounted.2.rtpTs false).1.clock =
          accounted.1 := lastSame.clock.trans same.clock
      have plc : (emitPcm filled.1 (decoded pl.mode raw) accounted.2.rtpTs false).1.plc =
          pl.plc := lastSame.plc.trans same.plc
      exact congrArg₂ Front.mk clock (congrArg (plcObserve · (decoded pl.mode raw)) plc)
    · exact congrArg₂ (· ++ ·) out lastOut

-- The pipeline's loss statistic and the clock's own total count the same packets.
theorem pipelineOnFrame_lossTotal (pl : Pipeline σ) (raw : List UInt8) :
    (pipelineOnFrame pl raw).2.1.stats.lossTotal + pl.clock.totalLost =
      pl.stats.lossTotal + (pipelineOnFrame pl raw).2.1.clock.totalLost := by
  cases valid : (reacFrameInspect raw).valid with
  | false => rw [pipelineOnFrame, reacDecode_malformed pl.mode Block.blank valid]
  | true =>
    let accounted := mediaClockOnPacket pl.clock (reacFrameInspect raw).counter
    let counted := countLost pl accounted
    let filled := Mealy.run (concealOne accounted.2) counted (List.range accounted.2.silencePackets)
    obtain ⟨same, _⟩ :=
      concealLoop_stage counted accounted.2 (List.range accounted.2.silencePackets)
    obtain ⟨lastSame, _⟩ := emitPcm_stage filled.1 (realPcm pl.mode raw accounted.2)
    have lossTotal : (pipelineOnFrame pl raw).2.1.stats.lossTotal =
        pl.stats.lossTotal + accounted.2.silencePackets := by
      rw [pipelineOnFrame, reacDecode_valid pl.mode valid]
      exact lastSame.lossTotal.trans same.lossTotal
    have totalLost : (pipelineOnFrame pl raw).2.1.clock.totalLost =
        pl.clock.totalLost + accounted.2.silencePackets := by
      rw [pipelineOnFrame, reacDecode_valid pl.mode valid]
      exact (congrArg MediaClock.totalLost (lastSame.clock.trans same.clock)).trans
        (mediaClockOnPacket_totalLost pl.clock _)
    rw [lossTotal, totalLost]
    omega

theorem pipelineRun_lossTotal (pl : Pipeline σ) (frames : List (List UInt8)) :
    (pipelineRun pl frames).1.stats.lossTotal + pl.clock.totalLost =
      pl.stats.lossTotal + (pipelineRun pl frames).1.clock.totalLost :=
  Mealy.run_invariant (fun pl raw => (pipelineOnFrame pl raw).2)
    (fun next _ => next.stats.lossTotal + pl.clock.totalLost =
      pl.stats.lossTotal + next.clock.totalLost)
    (fun next _ raw keeps => by
      have step := pipelineOnFrame_lossTotal next raw
      omega) pl [] rfl frames

-- The run is the back stage over the PCM stream; neither stage sees the other's state.
theorem pipelineRun_stages (pl : Pipeline σ) (frames : List (List UInt8)) :
    let back := Mealy.run (Back.onPcm pl.mode pl.pcmSink) pl.back
      (pcmStream pl.mode pl.front frames)
    (pipelineRun pl frames).1.front = (Mealy.run (Front.onFrame pl.mode) pl.front frames).1 ∧
      (pipelineRun pl frames).1.back = back.1 ∧ (pipelineRun pl frames).2 = back.2 := by
  let piped : Front × Back σ → List UInt8 → (Front × Back σ) × List Emitted := fun st raw =>
    let middle := Front.onFrame pl.mode st.1 raw
    let final := Mealy.run (Back.onPcm pl.mode pl.pcmSink) st.2 middle.2
    ((middle.1, final.1), final.2)
  have related := Mealy.run_related (fun pl raw => (pipelineOnFrame pl raw).2) piped
    (fun left right => left.mode = pl.mode ∧ left.pcmSink = pl.pcmSink ∧
      left.front = right.1 ∧ left.back = right.2) Eq Eq (by
      rintro left ⟨front, back⟩ raw _ ⟨mode, sink, sameFront, sameBack⟩ rfl
      obtain ⟨nextMode, nextSink, nextFront, nextBack, out⟩ := pipelineOnFrame_stages left raw
      rw [mode, sink, sameFront, sameBack] at *
      exact ⟨⟨nextMode, nextSink, nextFront, nextBack⟩, by rw [List.forall₂_eq_eq_eq]; exact out⟩)
    pl (pl.front, pl.back) ⟨rfl, rfl, rfl, rfl⟩ frames frames (by rw [List.forall₂_eq_eq_eq])
  rw [List.forall₂_eq_eq_eq] at related
  obtain ⟨⟨_, _, front, back⟩, out⟩ := related
  have split := Mealy.run_pipe (Front.onFrame pl.mode) (Back.onPcm pl.mode pl.pcmSink) pl.front
    pl.back frames
  change Mealy.run piped (pl.front, pl.back) frames = _ at split
  rw [split] at front back out
  exact ⟨front, back, out⟩

end ReacAes67
