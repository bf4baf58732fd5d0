import ReacAes67.GaplessStream
import Mathlib.Data.List.Chain

set_option autoImplicit false

/-!
# Slots of a lossy wire and packets of the stream

A source numbers its frames by slots. When an order-preserving wire loses some
of them, the packet stream still has one packet for each slot: the audio of a
delivered slot, concealment for a lost one.
-/

namespace ReacAes67

open SampleBlock

def NumberedFrom (base : UInt16) (frames : Nat → List UInt8) : Prop :=
  ∀ slot, reacFrameInspect (frames slot) = ⟨base + UInt16.ofNat slot, true⟩

structure SlotPcm (mode : ReacMode) (frames : Nat → List UInt8) (delivered : List Nat)
    (slot : Nat) (pcm : Pcm) : Prop where
  real : slot ∈ delivered → pcm.concealed = false ∧ pcm.planar = decoded mode (frames slot)
  lost : slot ∉ delivered → pcm.concealed = true

theorem SlotPcm.of_same {mode : ReacMode} {frames : Nat → List UInt8} {left right : List Nat}
    {slot : Nat} {pcm : Pcm} (same : slot ∈ left ↔ slot ∈ right)
    (holds : SlotPcm mode frames left slot pcm) : SlotPcm mode frames right slot pcm :=
  ⟨fun member => holds.real (same.mpr member),
    fun missing => holds.lost (fun member => missing (same.mp member))⟩

theorem slotPcm_widen {mode : ReacMode} {frames : Nat → List UInt8} {left right slots : List Nat}
    {pcms : List Pcm} (holds : List.Forall₂ (SlotPcm mode frames left) slots pcms)
    (same : ∀ slot ∈ slots, slot ∈ left ↔ slot ∈ right) :
    List.Forall₂ (SlotPcm mode frames right) slots pcms :=
  ((List.forall₂_and_left _ _).mpr ⟨same, holds⟩).imp fun _ _ pair => pair.2.of_same pair.1

section Wire

variable (mode : ReacMode) {base : UInt16} {frames : Nat → List UInt8}

theorem Front.onFrame_firstSlot (numbered : NumberedFrom base frames) {f : Front}
    (fresh : f.clock.started = false) (slot : Nat) :
    let next := Front.onFrame mode f (frames slot)
    next.1.clock.AtSlot base slot ∧
      List.Forall₂ (SlotPcm mode frames [slot]) [slot] next.2 := by
  have next := mediaClockOnPacket_firstSlot fresh base slot
  have lost := congrArg (·.2.silencePackets) (mediaClockOnPacket_first fresh (base + UInt16.ofNat slot))
  simp only [Front.onFrame, numbered slot, if_true, lost]
  refine ⟨next, .cons ⟨fun _ => ⟨rfl, rfl⟩, fun missing => ?_⟩ .nil⟩
  exact absurd (List.mem_singleton_self slot) missing

theorem Front.onFrame_slot (numbered : NumberedFrom base frames) {f : Front} {high slot : Nat}
    (position : f.clock.AtSlot base high) (above : high < slot) (near : slot ≤ high + 32768) :
    let next := Front.onFrame mode f (frames slot)
    next.1.clock.AtSlot base slot ∧
      List.Forall₂ (SlotPcm mode frames [slot]) (List.range' (high + 1) (slot - high)) next.2 := by
  obtain ⟨gap, rfl⟩ : ∃ gap, slot = high + 1 + gap := ⟨slot - high - 1, by omega⟩
  obtain ⟨lost, next⟩ := mediaClockOnPacket_ahead position above near
  have gapLost : high + 1 + gap - high - 1 = gap := by omega
  simp only [Front.onFrame, numbered (high + 1 + gap), if_true, lost, gapLost]
  refine ⟨next, ?_⟩
  rw [show high + 1 + gap - high = gap + 1 by omega, List.range'_1_concat]
  refine List.rel_append ?_ (.cons ⟨fun _ => ⟨rfl, rfl⟩, fun missing => ?_⟩ .nil)
  · rw [List.range'_eq_map_range, List.forall₂_map_left_iff, List.forall₂_map_right_iff,
      List.forall₂_same]
    intro i member
    have inside := List.mem_range.mp member
    refine ⟨fun delivered => ?_, fun _ => rfl⟩
    have same := List.mem_singleton.mp delivered
    omega
  · exact absurd (List.mem_singleton_self _) missing

def IncreasingNear (slot next : Nat) : Prop := slot < next ∧ next ≤ slot + 32768

theorem chain_above {high : Nat} {rest : List Nat} (chain : List.IsChain IncreasingNear (high :: rest)) :
    ∀ slot ∈ rest, high < slot := by
  have increasing : List.IsChain (· < ·) (high :: rest) := chain.imp fun _ _ pair => pair.1
  intro slot member
  exact increasing.rel_cons member

theorem chain_last {high : Nat} {rest : List Nat}
    (chain : List.IsChain IncreasingNear (high :: rest)) : high ≤ rest.getLastD high := by
  induction rest generalizing high with
  | nil => exact le_refl high
  | cons slot rest ih =>
    rw [List.isChain_cons_cons] at chain
    rw [List.getLastD_cons]
    have later := ih chain.2
    have now := chain.1.1
    omega

theorem pcmStream_laterSlots (numbered : NumberedFrom base frames) (f : Front) (high : Nat)
    (position : f.clock.AtSlot base high) (rest : List Nat)
    (chain : List.IsChain IncreasingNear (high :: rest)) :
    List.Forall₂ (SlotPcm mode frames rest) (List.range' (high + 1) (rest.getLastD high - high))
      (pcmStream mode f (rest.map frames)) := by
  induction rest generalizing f high with
  | nil => simp [pcmStream]
  | cons slot rest ih =>
    rw [List.isChain_cons_cons] at chain
    obtain ⟨⟨above, near⟩, chain⟩ := chain
    obtain ⟨next, now⟩ := Front.onFrame_slot mode numbered position above near
    have later := ih _ slot next chain
    have last := chain_last chain
    have ranges : List.range' (high + 1) (rest.getLastD slot - high) =
        List.range' (high + 1) (slot - high) ++
          List.range' (slot + 1) (rest.getLastD slot - slot) := by
      rw [show slot + 1 = high + 1 + (slot - high) by omega, List.range'_append_1]
      congr 1
      omega
    rw [List.getLastD_cons, ranges]
    simp only [pcmStream, List.map_cons, Mealy.run_cons]
    have above' := chain_above chain
    refine List.rel_append (slotPcm_widen now ?_) (slotPcm_widen later ?_)
    · intro j member
      have inside := List.mem_range'_1.mp member
      have early : j ∉ rest := fun member => absurd (above' j member) (by omega)
      simp [early]
    · intro j member
      have inside := List.mem_range'_1.mp member
      have late : j ≠ slot := by omega
      simp [late]

theorem pcmStream_slots (numbered : NumberedFrom base frames) {f : Front}
    (fresh : f.clock.started = false) (first : Nat) (rest : List Nat)
    (chain : List.IsChain IncreasingNear (first :: rest)) :
    List.Forall₂ (SlotPcm mode frames (first :: rest))
      (List.range' first (rest.getLastD first - first + 1))
      (pcmStream mode f ((first :: rest).map frames)) := by
  obtain ⟨next, now⟩ := Front.onFrame_firstSlot mode numbered fresh first
  have later := pcmStream_laterSlots mode numbered _ first next rest chain
  have above := chain_above chain
  rw [List.range'_succ, ← List.singleton_append]
  refine List.rel_append (slotPcm_widen now ?_) (slotPcm_widen later ?_)
  · intro j member
    have equal := List.mem_singleton.mp member
    simp [equal]
  · intro j member
    have inside := List.mem_range'_1.mp member
    have late : j ≠ first := by omega
    simp [late]

end Wire

-- A frame conceals as many packets as the clock counts lost.
theorem Front.onFrame_concealed (mode : ReacMode) (f : Front) (raw : List UInt8) :
    (Front.onFrame mode f raw).2.countP (·.concealed) + f.clock.totalLost =
      (Front.onFrame mode f raw).1.clock.totalLost := by
  cases valid : (reacFrameInspect raw).valid with
  | false => simp [Front.onFrame, valid]
  | true =>
    have lost := mediaClockOnPacket_totalLost f.clock (reacFrameInspect raw).counter
    have all (step : MediaClockStep) :
        ((List.range step.silencePackets).map (concealPcm mode f.plc step)).countP
          (·.concealed) = step.silencePackets := by
      have every : (Pcm.concealed ∘ concealPcm mode f.plc step) = fun _ => true := rfl
      rw [List.countP_map, every, List.countP_true, List.length_range]
    simp only [Front.onFrame, valid, if_true, List.countP_append, all, lost]
    simp [realPcm]
    omega

theorem pcmStream_concealed (mode : ReacMode) (f : Front) (frames : List (List UInt8)) :
    (pcmStream mode f frames).countP (·.concealed) + f.clock.totalLost =
      (Mealy.run (Front.onFrame mode) f frames).1.clock.totalLost := by
  induction frames generalizing f with
  | nil => simp [pcmStream]
  | cons raw rest ih =>
    have now := Front.onFrame_concealed mode f raw
    have later := ih (Front.onFrame mode f raw).1
    simp only [pcmStream] at later
    simp only [pcmStream, Mealy.run_cons, List.countP_append]
    omega

theorem slotPcm_countP {mode : ReacMode} {frames : Nat → List UInt8} {delivered slots : List Nat}
    {pcms : List Pcm} (holds : List.Forall₂ (SlotPcm mode frames delivered) slots pcms) :
    slots.countP (fun slot => slot ∉ delivered) = pcms.countP (·.concealed) := by
  induction holds with
  | nil => rfl
  | @cons slot pcm _ _ pair _ ih =>
    rw [List.countP_cons, List.countP_cons, ih]
    by_cases member : slot ∈ delivered
    · simp [member, (pair.real member).1]
    · simp [member, pair.lost member]

theorem startPipeline_lossTotal (mode : ReacMode) (payloadType : UInt8) (ssrc : UInt32)
    (plcXfade plcFadePkts : Int) (anchor : Option UInt32) (frames : List (List UInt8)) :
    (pipelineRun (startPipeline mode payloadType ssrc plcXfade plcFadePkts anchor)
        frames).1.stats.lossTotal =
      (pcmStream mode ⟨mediaClockInitAnchored mode.samplesPerPkt (anchor.getD 0),
        plcInit mode plcFadePkts plcXfade⟩ frames).countP (·.concealed) := by
  have pl := startPipeline_front mode payloadType ssrc plcXfade plcFadePkts anchor
  have counted := pipelineRun_lossTotal
    (startPipeline mode payloadType ssrc plcXfade plcFadePkts anchor) frames
  have clock := congrArg Front.clock (pipelineRun_stages
    (startPipeline mode payloadType ssrc plcXfade plcFadePkts anchor) frames).1
  rw [pl, startPipeline_mode] at clock
  have concealed := pcmStream_concealed mode ⟨mediaClockInitAnchored mode.samplesPerPkt
    (anchor.getD 0), plcInit mode plcFadePkts plcXfade⟩ frames
  rw [← clock] at concealed
  have fresh : (startPipeline mode payloadType ssrc plcXfade plcFadePkts anchor).stats.lossTotal = 0 ∧
      (startPipeline mode payloadType ssrc plcXfade plcFadePkts anchor).clock.totalLost = 0 := by
    cases anchor <;> exact ⟨rfl, rfl⟩
  simp only [Pipeline.front, mediaClockInitAnchored] at concealed
  rw [fresh.1, fresh.2] at counted
  simp only [mediaClockInitAnchored]
  omega

-- The packet of a slot carries the frame's own audio, or is marked as concealment.
theorem SlotPcm.packet {mode : ReacMode} {frames : Nat → List UInt8} {delivered : List Nat} {slot : Nat}
    {pcm : Pcm} (holds : SlotPcm mode frames delivered slot pcm) (rtp : RtpParams) (k : Nat) :
    (slot ∈ delivered → (defaultPacket mode rtp k pcm).concealed = false ∧
        ∀ ch s, ch < mode.nChannels → s < mode.samplesPerPkt →
          payloadSample (defaultPacket mode rtp k pcm).buf (s * mode.nChannels + ch) =
            (audioSlot mode (frames slot) ch s).swap) ∧
      (slot ∉ delivered → (defaultPacket mode rtp k pcm).concealed = true) := by
  refine ⟨fun member => ?_, holds.lost⟩
  obtain ⟨flag, audio⟩ := holds.real member
  refine ⟨flag, fun ch s channel time => ?_⟩
  simp only [defaultPacket]
  rw [flowPacket_sample _ _ _ time channel, audio, Nat.zero_add, decoded_sample mode _ channel time]

/-- One packet a slot: delivered slots with their own audio, lost slots concealed. -/
theorem pipelineRun_slots (mode : ReacMode) (fits : mode.Fits) (payloadType : UInt8)
    (ssrc : UInt32) (plcXfade plcFadePkts : Int) (anchor : Option UInt32) (base : UInt16)
    (frames : Nat → List UInt8) (numbered : NumberedFrom base frames) (first : Nat)
    (rest : List Nat) (chain : List.IsChain IncreasingNear (first :: rest)) :
    let delivered := first :: rest
    let last := rest.getLastD first
    let run := pipelineRun (startPipeline mode payloadType ssrc plcXfade plcFadePkts anchor)
      (delivered.map frames)
    run.2.length = last - first + 1 ∧
      (∀ slot, first ≤ slot → slot ≤ last → ∃ e, run.2[slot - first]? = some e ∧
        (∃ header payload, parseRtp e.buf = some (header, payload) ∧
          header.timestamp.toNat =
            ((anchor.getD 0).toNat + (slot - first) * mode.samplesPerPkt) % 2 ^ 32) ∧
        e.buf.length = rtpHeaderLen + mode.nChannels * mode.samplesPerPkt * 3 ∧
        (slot ∈ delivered → e.concealed = false ∧
          ∀ ch s, ch < mode.nChannels → s < mode.samplesPerPkt →
            payloadSample e.buf (s * mode.nChannels + ch) =
              (audioSlot mode (frames slot) ch s).swap) ∧
        (slot ∉ delivered → e.concealed = true)) ∧
      run.1.stats.lossTotal =
        (List.range' first (last - first + 1)).countP (fun slot => slot ∉ delivered) := by
  intro delivered last run
  let start : Front := ⟨mediaClockInitAnchored mode.samplesPerPkt (anchor.getD 0),
    plcInit mode plcFadePkts plcXfade⟩
  have slots : List.Forall₂ (SlotPcm mode frames delivered)
      (List.range' first (last - first + 1)) (pcmStream mode start (delivered.map frames)) :=
    pcmStream_slots mode numbered rfl first rest chain
  have out : run.2 = (pcmStream mode start (delivered.map frames)).mapIdx
      (defaultPacket mode ⟨payloadType, 0, 0, ssrc⟩) :=
    startPipeline_default fits payloadType ssrc plcXfade plcFadePkts anchor _
  have length := slots.length_eq
  rw [List.length_range'] at length
  refine ⟨by rw [out, List.length_mapIdx, length], ?_, ?_⟩
  · intro slot low high
    have inside : slot - first < (pcmStream mode start (delivered.map frames)).length := by omega
    have pair := slots.get (by rw [List.length_range']; omega) inside
    have position : first + (slot - first) = slot := by omega
    simp only [List.get_eq_getElem, List.getElem_range', Nat.one_mul, position] at pair
    have stamp := pcmStream_stamped mode (anchor.getD 0) (plcInit mode plcFadePkts plcXfade)
      (delivered.map frames) _ _ (List.getElem?_eq_getElem inside)
    obtain ⟨real, lost⟩ := pair.packet ⟨payloadType, 0, 0, ssrc⟩ (slot - first)
    refine ⟨_, by rw [out, List.getElem?_mapIdx, List.getElem?_eq_getElem inside]; rfl,
      ⟨_, _, parseRtp_flowPacket _ _ _ _ _, ?_⟩, flowPacket_length _ _ _ _ _, real, lost⟩
    simp only [RtpParams.header]
    rw [stamp, packetTs_toNat, Nat.zero_add]
  · rw [slotPcm_countP slots]
    exact startPipeline_lossTotal mode payloadType ssrc plcXfade plcFadePkts anchor _

def silentSource (base : UInt16) (slot : Nat) : List UInt8 :=
  wireFrame (fun _ => 0xff) (base + UInt16.ofNat slot) Block.blank

theorem silentSource_numbered (base : UInt16) : NumberedFrom base (silentSource base) :=
  fun slot => wireFrame_inspect _ (base + UInt16.ofNat slot) _

theorem pipelineRun_slots_oneLost :
    let run := pipelineRun (startPipeline reacMode48k 97 1 0 0 none)
      ([3, 5].map (silentSource 65531))
    run.2.length = 3 ∧ run.1.stats.lossTotal = 1 := by
  obtain ⟨length, _, lost⟩ := pipelineRun_slots reacMode48k reacMode48k_fillsFrame.fits 97 1 0 0 none
    65531 (silentSource 65531) (silentSource_numbered 65531) 3 [5] (by simp [IncreasingNear])
  exact ⟨length, lost⟩

end ReacAes67
