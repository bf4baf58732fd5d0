import ReacAes67.SlotFidelity

set_option autoImplicit false

/-!
# The statistics account for every call

The counters of the pipeline are updated by the clock step, by `emit_pcm` and
by the rejection of a frame. They add up after every call, and a rejected frame
leaves no other trace.
-/

namespace ReacAes67

open SampleBlock

variable {σ : Type}

/-- The counters against the packets put out so far, in order. -/
structure Pipeline.Tallies (pl : Pipeline σ) (pcms : List Pcm) : Prop where
  packets : pl.stats.packets + pl.stats.concealed = pcms.length
  concealed : pl.stats.concealed = pcms.countP (·.concealed)
  seq : pl.pcmSink = none → pl.rtp.seq = UInt16.ofNat pcms.length
  lastSeq : pl.pcmSink = none → pcms ≠ [] → pl.stats.lastSeq + 1 = pl.rtp.seq

section Emit

variable (pl : Pipeline σ) (planar : Block) (ts : UInt32) (concealed : Bool)

theorem emitPcm_packets : (emitPcm pl planar ts concealed).1.stats.packets =
    pl.stats.packets + if concealed then 0 else 1 := by
  cases concealed <;> cases sink : pl.pcmSink <;> simp [emitPcm, sink]

theorem emitPcm_concealed : (emitPcm pl planar ts concealed).1.stats.concealed =
    pl.stats.concealed + if concealed then 1 else 0 := by
  cases concealed <;> cases sink : pl.pcmSink <;> simp [emitPcm, sink]

theorem emitPcm_malformed :
    (emitPcm pl planar ts concealed).1.stats.malformed = pl.stats.malformed := by
  cases concealed <;> cases sink : pl.pcmSink <;> simp [emitPcm, sink]

theorem emitPcm_seq (direct : pl.pcmSink = none) :
    (emitPcm pl planar ts concealed).1.rtp.seq = pl.rtp.seq + 1 ∧
      (emitPcm pl planar ts concealed).1.stats.lastSeq = pl.rtp.seq := by
  cases concealed <;> simp [emitPcm, direct]

end Emit

theorem emitPcm_tallies {pl : Pipeline σ} {pcms : List Pcm} (tallies : pl.Tallies pcms) (pcm : Pcm) :
    (emitPcm pl pcm.planar pcm.rtpTs pcm.concealed).1.Tallies (pcms ++ [pcm]) := by
  have sink := (emitPcm_stage pl pcm).1.pcmSink
  have packets := tallies.packets
  have concealed := tallies.concealed
  have seq (direct : (emitPcm pl pcm.planar pcm.rtpTs pcm.concealed).1.pcmSink = none) :=
    emitPcm_seq pl pcm.planar pcm.rtpTs pcm.concealed (sink.symm.trans direct)
  constructor
  next =>
    rw [emitPcm_packets, emitPcm_concealed, List.length_append, List.length_singleton]
    split <;> omega
  next =>
    rw [emitPcm_concealed, List.countP_append, List.countP_singleton, concealed]
  next =>
    intro direct
    rw [(seq direct).1, tallies.seq (sink.symm.trans direct)]
    simp [UInt16.ofNat_add]
  next =>
    intro direct _
    rw [(seq direct).1, (seq direct).2]

theorem concealLoop_tallies {pl : Pipeline σ} {pcms : List Pcm} (tallies : pl.Tallies pcms)
    (step : MediaClockStep) (indices : List Nat) :
    (Mealy.run (concealOne step) pl indices).1.Tallies
      (pcms ++ indices.map (concealPcm pl.mode pl.plc step)) := by
  induction indices generalizing pl pcms with
  | nil => simpa using tallies
  | cons i indices ih =>
    let marked : Pipeline σ := { pl with
      stats := { pl.stats with lastTier := some (plcConceal pl.plc Block.blank i).1 } }
    have same := (emitPcm_stage marked (concealPcm pl.mode pl.plc step i)).1
    have untouched : marked.Tallies pcms :=
      ⟨tallies.packets, tallies.concealed, tallies.seq, tallies.lastSeq⟩
    have later := ih (emitPcm_tallies untouched (concealPcm pl.mode pl.plc step i))
    rw [same.mode, same.plc, List.append_assoc] at later
    exact later

theorem concealLoop_malformed (pl : Pipeline σ) (step : MediaClockStep) (indices : List Nat) :
    (Mealy.run (concealOne step) pl indices).1.stats.malformed = pl.stats.malformed := by
  induction indices generalizing pl with
  | nil => rfl
  | cons i indices ih =>
    rw [Mealy.run_cons, ih]
    exact emitPcm_malformed _ _ _ true

theorem pipelineOnFrame_tallies {pl : Pipeline σ} {pcms : List Pcm} (tallies : pl.Tallies pcms)
    (raw : List UInt8) :
    (pipelineOnFrame pl raw).2.1.Tallies (pcms ++ (Front.onFrame pl.mode pl.front raw).2) := by
  cases valid : (reacFrameInspect raw).valid with
  | false =>
    rw [pipelineOnFrame, reacDecode_malformed pl.mode Block.blank valid, Front.onFrame, valid]
    exact ⟨by simpa using tallies.packets, by simpa using tallies.concealed, by simpa using tallies.seq,
      by simpa using tallies.lastSeq⟩
  | true =>
    let accounted := mediaClockOnPacket pl.clock (reacFrameInspect raw).counter
    let counted := countLost pl accounted
    have untouched : counted.Tallies pcms :=
      ⟨tallies.packets, tallies.concealed, tallies.seq, tallies.lastSeq⟩
    have filled :=
      concealLoop_tallies untouched accounted.2 (List.range accounted.2.silencePackets)
    have sent := emitPcm_tallies filled (realPcm pl.mode raw accounted.2)
    rw [List.append_assoc] at sent
    simp only [pipelineOnFrame, reacDecode_valid pl.mode valid, Front.onFrame, valid, if_true]
    exact ⟨sent.packets, sent.concealed, sent.seq, sent.lastSeq⟩

theorem pipelineRun_tallies {pl : Pipeline σ} {pcms : List Pcm} (tallies : pl.Tallies pcms)
    (frames : List (List UInt8)) :
    (pipelineRun pl frames).1.Tallies (pcms ++ pcmStream pl.mode pl.front frames) := by
  induction frames generalizing pl pcms with
  | nil => simpa [pipelineRun, pcmStream] using tallies
  | cons raw frames ih =>
    obtain ⟨mode, _, front, _⟩ := pipelineOnFrame_stages pl raw
    have later := ih (pipelineOnFrame_tallies tallies raw)
    rw [mode, front, List.append_assoc] at later
    exact later

theorem pipelineRun_pcmSink (pl : Pipeline σ) (frames : List (List UInt8)) :
    (pipelineRun pl frames).1.pcmSink = pl.pcmSink :=
  Mealy.run_invariant (fun pl raw => (pipelineOnFrame pl raw).2)
    (fun later _ => later.pcmSink = pl.pcmSink)
    (fun later _ raw same => (pipelineOnFrame_stages later raw).2.1.trans same) pl [] rfl frames

-- A frame is refused for its own bytes, whatever came before it, and then only counted.
theorem pipelineOnFrame_refused (pl : Pipeline σ) (raw : List UInt8) :
    (pipelineOnFrame pl raw).1 = -1 ↔ (reacFrameInspect raw).valid = false := by
  cases valid : (reacFrameInspect raw).valid with
  | false => simp [pipelineOnFrame, reacDecode_malformed pl.mode Block.blank valid]
  | true => simp [pipelineOnFrame, reacDecode_valid pl.mode valid]

theorem pipelineOnFrame_atomic {pl : Pipeline σ} {raw : List UInt8}
    (refused : (pipelineOnFrame pl raw).1 = -1) :
    (pipelineOnFrame pl raw).2 =
      ({ pl with stats := { pl.stats with malformed := pl.stats.malformed + 1 } }, []) := by
  rw [pipelineOnFrame_refused] at refused
  rw [pipelineOnFrame, reacDecode_malformed pl.mode Block.blank refused]

theorem pipelineOnFrame_malformed (pl : Pipeline σ) (raw : List UInt8) :
    (pipelineOnFrame pl raw).2.1.stats.malformed =
      pl.stats.malformed + if (reacFrameInspect raw).valid then 0 else 1 := by
  cases valid : (reacFrameInspect raw).valid with
  | false => simp [pipelineOnFrame, reacDecode_malformed pl.mode Block.blank valid]
  | true =>
    simp only [pipelineOnFrame, reacDecode_valid pl.mode valid, emitPcm_malformed, concealLoop_malformed]
    rfl

theorem Front.onFrame_real (mode : ReacMode) (f : Front) (raw : List UInt8) :
    (Front.onFrame mode f raw).2.countP (!·.concealed) = if (reacFrameInspect raw).valid then 1 else 0 := by
  cases valid : (reacFrameInspect raw).valid with
  | false => simp [Front.onFrame, valid]
  | true =>
    have fills (step : MediaClockStep) :
        ((List.range step.silencePackets).map (concealPcm mode f.plc step)).countP (!·.concealed) = 0 := by
      simp [List.countP_eq_zero, concealPcm]
    simp only [Front.onFrame, valid, if_true, List.countP_append, fills]
    rfl

-- Every call either puts out one real packet or counts one malformed frame.
theorem pipelineRun_calls (pl : Pipeline σ) (frames : List (List UInt8)) :
    (pcmStream pl.mode pl.front frames).countP (!·.concealed) + (pipelineRun pl frames).1.stats.malformed =
      pl.stats.malformed + frames.length := by
  induction frames generalizing pl with
  | nil => simp [pcmStream, pipelineRun]
  | cons raw frames ih =>
    obtain ⟨mode, _, front, _⟩ := pipelineOnFrame_stages pl raw
    have later := ih (pipelineOnFrame pl raw).2.1
    rw [mode, front, pipelineOnFrame_malformed] at later
    have now := Front.onFrame_real pl.mode pl.front raw
    have kept : (if (reacFrameInspect raw).valid then 1 else 0) +
        (if (reacFrameInspect raw).valid then 0 else 1) = 1 := by split <;> rfl
    simp only [pcmStream, pipelineRun] at later ⊢
    simp only [Mealy.run_cons, List.countP_append, List.length_cons, now]
    omega

/-- The balance of the counters after `calls` calls that put out packets with these flags. -/
structure Pipeline.Conserves (pl : Pipeline σ) (calls : Nat) (flags : List Bool) : Prop where
  calls : pl.stats.packets + pl.stats.malformed = calls
  lossTotal : pl.stats.concealed = pl.stats.lossTotal
  totalLost : pl.stats.lossTotal = pl.clock.totalLost
  emitted : pl.stats.packets + pl.stats.concealed = flags.length
  flagged : flags.countP id = pl.stats.concealed

structure Pipeline.Unused (pl : Pipeline σ) : Prop where
  tallies : pl.Tallies []
  lossTotal : pl.stats.lossTotal = 0
  totalLost : pl.clock.totalLost = 0
  malformed : pl.stats.malformed = 0

theorem startPipeline_unused {τ : Type} (mode : ReacMode) (payloadType : UInt8) (ssrc : UInt32)
    (plcXfade plcFadePkts : Int) (anchor : Option UInt32) (pcmSink : Option (PcmSink τ)) (ctx : τ) :
    (startPipeline mode payloadType ssrc plcXfade plcFadePkts anchor).Unused ∧
      (pipelineSetPcmSink (startPipeline mode payloadType ssrc plcXfade plcFadePkts anchor) pcmSink
        ctx).Unused := by
  cases anchor <;>
    exact ⟨⟨⟨rfl, rfl, fun _ => rfl, fun _ empty => absurd rfl empty⟩, rfl, rfl, rfl⟩,
      ⟨rfl, rfl, fun _ => rfl, fun _ empty => absurd rfl empty⟩, rfl, rfl, rfl⟩

theorem pipelineRun_conserved {pl : Pipeline σ} (unused : pl.Unused) (frames : List (List UInt8)) :
    (pipelineRun pl frames).1.Conserves frames.length
      ((pcmStream pl.mode pl.front frames).map (·.concealed)) := by
  have tallies := pipelineRun_tallies unused.tallies frames
  rw [List.nil_append] at tallies
  have calls := pipelineRun_calls pl frames
  have clock := congrArg Front.clock (pipelineRun_stages pl frames).1
  have lost : (pcmStream pl.mode pl.front frames).countP (·.concealed) =
      (pipelineRun pl frames).1.clock.totalLost := by
    have concealed := pcmStream_concealed pl.mode pl.front frames
    rw [← clock] at concealed
    simpa only [Pipeline.front, unused.totalLost, Nat.add_zero] using concealed
  have counted := pipelineRun_lossTotal pl frames
  have split : (pcmStream pl.mode pl.front frames).length =
      (pcmStream pl.mode pl.front frames).countP (·.concealed) +
        (pcmStream pl.mode pl.front frames).countP (!·.concealed) := by
    have parts := List.length_eq_countP_add_countP Pcm.concealed (l := pcmStream pl.mode pl.front frames)
    simpa using parts
  have packets := tallies.packets
  have concealed := tallies.concealed
  rw [unused.totalLost, unused.lossTotal] at counted
  rw [unused.malformed] at calls
  exact {
    calls := by omega
    lossTotal := by omega
    totalLost := by omega
    emitted := by rw [List.length_map, packets]
    flagged := by rw [List.countP_map, concealed]; rfl }

theorem pipelineRun_totalLost_le (pl : Pipeline σ) (frames : List (List UInt8)) :
    (pipelineRun pl frames).1.clock.totalLost ≤ pl.clock.totalLost + 32767 * frames.length := by
  induction frames generalizing pl with
  | nil => exact Nat.le_refl _
  | cons raw frames ih =>
    have later := ih (pipelineOnFrame pl raw).2.1
    have now : (pipelineOnFrame pl raw).2.1.clock.totalLost ≤ pl.clock.totalLost + 32767 := by
      have clock := congrArg Front.clock (pipelineOnFrame_stages pl raw).2.2.1
      simp only [Pipeline.front] at clock
      rw [clock]
      cases valid : (reacFrameInspect raw).valid with
      | false => simp [Front.onFrame, valid]
      | true =>
        simp only [Front.onFrame, valid, if_true, mediaClockOnPacket_totalLost]
        exact Nat.add_le_add_left (mediaClockOnPacket_silencePackets_le _ _) _
    rw [List.length_cons, Nat.mul_succ]
    exact later.trans (by omega)

/-- No counter has come to the end of its 64 bits. -/
structure Pipeline.Unwrapped (pl : Pipeline σ) : Prop where
  packets : pl.stats.packets < 2 ^ 64
  concealed : pl.stats.concealed < 2 ^ 64
  lossTotal : pl.stats.lossTotal < 2 ^ 64
  malformed : pl.stats.malformed < 2 ^ 64
  totalLost : pl.clock.totalLost < 2 ^ 64

theorem pipelineRun_unwrapped {pl : Pipeline σ} (unused : pl.Unused) {frames : List (List UInt8)}
    (few : frames.length < 2 ^ 48) : (pipelineRun pl frames).1.Unwrapped := by
  obtain ⟨calls, lossTotal, totalLost, -, -⟩ := pipelineRun_conserved unused frames
  have lost := pipelineRun_totalLost_le pl frames
  rw [unused.totalLost] at lost
  constructor <;> omega

def wellFormed (frames : List (List UInt8)) : List (List UInt8) :=
  frames.filter fun raw => (reacFrameInspect raw).valid

theorem pcmStream_wellFormed (mode : ReacMode) (f : Front) (frames : List (List UInt8)) :
    pcmStream mode f (wellFormed frames) = pcmStream mode f frames := by
  have same := Mealy.run_filter (Front.onFrame mode) (fun raw => (reacFrameInspect raw).valid)
    (fun f raw invalid => by rw [Front.onFrame, invalid]; rfl) f frames
  exact congrArg Prod.snd same

theorem Back.run_sink (mode : ReacMode) (sink : PcmSink σ) (b : Back σ) (pcms : List Pcm) :
    (Mealy.run (Back.onPcm mode (some sink)) b pcms).1.ctx =
      pcms.foldl (fun ctx pcm => sink ctx pcm.planar pcm.rtpTs pcm.concealed) b.ctx := by
  induction pcms generalizing b with
  | nil => rfl
  | cons pcm pcms ih => simp [Back.onPcm, ih]

theorem pipelineRun_delivered (pl : Pipeline σ) {sink : PcmSink σ} (delivers : pl.pcmSink = some sink)
    (frames : List (List UInt8)) :
    (pipelineRun pl frames).1.pcmCtx =
      (pcmStream pl.mode pl.front frames).foldl
        (fun ctx pcm => sink ctx pcm.planar pcm.rtpTs pcm.concealed) pl.pcmCtx := by
  obtain ⟨_, back, _⟩ := pipelineRun_stages pl frames
  rw [delivers] at back
  exact (congrArg Back.ctx back).trans (Back.run_sink pl.mode sink pl.back _)

theorem pipelineRun_wellFormed (pl : Pipeline σ) (frames : List (List UInt8)) :
    (pipelineRun pl (wellFormed frames)).2 = (pipelineRun pl frames).2 ∧
      (pipelineRun pl (wellFormed frames)).1.pcmCtx = (pipelineRun pl frames).1.pcmCtx := by
  obtain ⟨_, backAll, outAll⟩ := pipelineRun_stages pl frames
  obtain ⟨_, back, out⟩ := pipelineRun_stages pl (wellFormed frames)
  rw [pcmStream_wellFormed] at back out
  exact ⟨out.trans outAll.symm, congrArg Back.ctx (back.trans backAll.symm)⟩

theorem defaultPackets_flags (mode : ReacMode) (rtp : RtpParams) (pcms : List Pcm) :
    (pcms.mapIdx (defaultPacket mode rtp)).map Emitted.concealed = pcms.map Pcm.concealed := by
  apply List.ext_getElem
  next => simp
  next => simp [defaultPacket]

/-- The sequence number of the last packet on the wire, in the statistics and in its header. -/
structure LastSeq (stats : PipelineStats) (e : Emitted) : Prop where
  counted : stats.lastSeq.toNat = (stats.packets + stats.concealed - 1) % 2 ^ 16
  header : ∃ header payload, parseRtp e.buf = some (header, payload) ∧
    header.sequenceNumber = stats.lastSeq

theorem pipelineRun_lastSeq {pl : Pipeline σ} (fits : pl.mode.Fits) (direct : pl.pcmSink = none)
    (unused : pl.Unused) (frames : List (List UInt8)) {e : Emitted}
    (last : (pipelineRun pl frames).2.getLast? = some e) : LastSeq (pipelineRun pl frames).1.stats e := by
  have tallies := pipelineRun_tallies unused.tallies frames
  have first : pl.rtp.seq = 0 := unused.tallies.seq direct
  rw [List.nil_append] at tallies
  rw [pipelineRun_default fits direct, List.getLast?_eq_getElem?, List.length_mapIdx, List.getElem?_mapIdx,
    Option.map_eq_some_iff] at last
  obtain ⟨pcm, member, rfl⟩ := last
  have some : 0 < (pcmStream pl.mode pl.front frames).length :=
    Nat.lt_of_le_of_lt (Nat.zero_le _) (List.getElem?_eq_some_iff.mp member).1
  have sent : (pipelineRun pl frames).1.pcmSink = none := (pipelineRun_pcmSink pl frames).trans direct
  have following := tallies.lastSeq sent (List.ne_nil_of_length_pos some)
  rw [tallies.seq sent] at following
  have value : (pipelineRun pl frames).1.stats.lastSeq.toNat =
      ((pcmStream pl.mode pl.front frames).length - 1) % 2 ^ 16 := by
    have words := congrArg UInt16.toNat following
    have bound := (pipelineRun pl frames).1.stats.lastSeq.toNat_lt
    simp only [UInt16.toNat_add, UInt16.toNat_ofNat', UInt16.toNat_one] at words
    omega
  constructor
  next => rw [tallies.packets, value]
  next =>
    refine ⟨_, _, parseRtp_flowPacket _ _ _ _ _, ?_⟩
    apply UInt16.toNat_inj.mp
    rw [value]
    simp [RtpParams.header, first]

/-- The counters balance after every run, and refused frames do not show in what is sent. -/
theorem pipelineRun_conserves (mode : ReacMode) (fits : mode.Fits) (payloadType : UInt8) (ssrc : UInt32)
    (plcXfade plcFadePkts : Int) (anchor : Option UInt32) (sink : PcmSink σ) (ctx : σ)
    (frames : List (List UInt8)) :
    let start := startPipeline mode payloadType ssrc plcXfade plcFadePkts anchor
    let direct := pipelineRun start frames
    let sinking := pipelineSetPcmSink start (some sink) ctx
    let delivered := pipelineRun sinking frames
    let calls := pcmStream mode start.front frames
    direct.1.Conserves frames.length (direct.2.map Emitted.concealed) ∧
      (∀ e, direct.2.getLast? = some e → LastSeq direct.1.stats e) ∧
      delivered.1.Conserves frames.length (calls.map Pcm.concealed) ∧
      delivered.1.pcmCtx =
        calls.foldl (fun ctx pcm => sink ctx pcm.planar pcm.rtpTs pcm.concealed) ctx ∧
      (∀ raw, (pipelineOnFrame direct.1 raw).1 = -1 → (pipelineOnFrame direct.1 raw).2 =
        ({ direct.1 with
           stats := { direct.1.stats with malformed := direct.1.stats.malformed + 1 } }, [])) ∧
      (∀ raw, (pipelineOnFrame delivered.1 raw).1 = -1 → (pipelineOnFrame delivered.1 raw).2 =
        ({ delivered.1 with
           stats := { delivered.1.stats with malformed := delivered.1.stats.malformed + 1 } }, [])) ∧
      (pipelineRun start (wellFormed frames)).2 = direct.2 ∧
      (pipelineRun sinking (wellFormed frames)).1.pcmCtx = delivered.1.pcmCtx := by
  intro start direct sinking delivered calls
  have modeKept : start.mode = mode := startPipeline_mode mode payloadType ssrc plcXfade plcFadePkts anchor
  have noSink : start.pcmSink = none :=
    startPipeline_pcmSink mode payloadType ssrc plcXfade plcFadePkts anchor
  obtain ⟨unused, sinkUnused⟩ :=
    startPipeline_unused mode payloadType ssrc plcXfade plcFadePkts anchor (some sink) ctx
  have startFits : start.mode.Fits := by rwa [modeKept]
  have out : direct.2 =
      (pcmStream start.mode start.front frames).mapIdx (defaultPacket start.mode start.rtp) :=
    pipelineRun_default startFits noSink frames
  have flags : direct.2.map Emitted.concealed =
      (pcmStream start.mode start.front frames).map Pcm.concealed := by
    rw [out, defaultPackets_flags]
  have sinkMode : sinking.mode = mode := modeKept
  have sinkCalls : pcmStream sinking.mode sinking.front frames = calls := by
    rw [sinkMode]
    rfl
  have conserved := pipelineRun_conserved unused frames
  have sinkConserved := pipelineRun_conserved sinkUnused frames
  have context := pipelineRun_delivered sinking rfl frames
  rw [sinkCalls] at context
  rw [← flags] at conserved
  refine ⟨conserved, ?_, ?_, context, fun raw => pipelineOnFrame_atomic, fun raw => pipelineOnFrame_atomic,
    (pipelineRun_wellFormed start frames).1, (pipelineRun_wellFormed sinking frames).2⟩
  next =>
    intro e last
    exact pipelineRun_lastSeq startFits noSink unused frames last
  next =>
    rw [← sinkCalls]
    exact sinkConserved

theorem pipelineRun_conserves_lossyCapture :
    let start := startPipeline reacMode48k 97 1 0 0 none
    (pipelineRun start lossyCapture).1.Conserves lossyCapture.length
        ((pipelineRun start lossyCapture).2.map Emitted.concealed) ∧
      (pipelineRun start (wellFormed lossyCapture)).2 = (pipelineRun start lossyCapture).2 := by
  intro start
  have conserves := pipelineRun_conserves reacMode48k reacMode48k_fillsFrame.fits 97 1 0 0 none
    (fun (ctx : Unit) _ _ _ => ctx) () lossyCapture
  exact ⟨conserves.1, conserves.2.2.2.2.2.2.1⟩

end ReacAes67
