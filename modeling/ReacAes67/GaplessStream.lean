import ReacAes67.PcmStream

set_option autoImplicit false

/-!
# The packet stream has no gaps

In the default configuration the k-th packet handed to the emit callback is the
k-th packet of the PCM stream behind a header with sequence number and
timestamp of slot k, whatever counters the frames carry.
-/

namespace ReacAes67

open SampleBlock

variable {σ : Type}

def startPipeline (mode : ReacMode) (payloadType : UInt8) (ssrc : UInt32)
    (plcXfade plcFadePkts : Int) (anchor : Option UInt32) : Pipeline Unit :=
  let pl := pipelineInitEx mode payloadType ssrc plcXfade plcFadePkts
  match anchor with
  | some a => pipelineAnchor pl a
  | none => pl

theorem startPipeline_mode (mode : ReacMode) (payloadType : UInt8) (ssrc : UInt32)
    (plcXfade plcFadePkts : Int) (anchor : Option UInt32) :
    (startPipeline mode payloadType ssrc plcXfade plcFadePkts anchor).mode = mode := by
  cases anchor <;> rfl

theorem startPipeline_pcmSink (mode : ReacMode) (payloadType : UInt8) (ssrc : UInt32)
    (plcXfade plcFadePkts : Int) (anchor : Option UInt32) :
    (startPipeline mode payloadType ssrc plcXfade plcFadePkts anchor).pcmSink = none := by
  cases anchor <;> rfl

theorem startPipeline_rtp (mode : ReacMode) (payloadType : UInt8) (ssrc : UInt32)
    (plcXfade plcFadePkts : Int) (anchor : Option UInt32) :
    (startPipeline mode payloadType ssrc plcXfade plcFadePkts anchor).rtp =
      { payloadType := payloadType, seq := 0, timestamp := 0, ssrc := ssrc } := by
  cases anchor <;> rfl

theorem startPipeline_front (mode : ReacMode) (payloadType : UInt8) (ssrc : UInt32)
    (plcXfade plcFadePkts : Int) (anchor : Option UInt32) :
    (startPipeline mode payloadType ssrc plcXfade plcFadePkts anchor).front =
      { clock := mediaClockInitAnchored mode.samplesPerPkt (anchor.getD 0)
        plc := plcInit mode plcFadePkts plcXfade } := by
  cases anchor <;> rfl

def defaultPacket (mode : ReacMode) (rtp : RtpParams) (k : Nat) (pcm : Pcm) : Emitted :=
  let rtp := { rtp with seq := rtp.seq + UInt16.ofNat k, timestamp := pcm.rtpTs }
  ⟨flowPacket rtp pcm.planar 0 mode.nChannels mode.samplesPerPkt, pcm.concealed⟩

theorem fits_pktCapacity {mode : ReacMode} (fits : mode.Fits) :
    rtpHeaderLen + mode.slots * 3 ≤ pktCapacity := by
  have slots := fits.slots_le
  simp only [rtpHeaderLen, pktCapacity, reacMaxChannels]
  omega

theorem Back.run_default {mode : ReacMode} (fits : mode.Fits) (b : Back σ) (pcms : List Pcm) :
    (Mealy.run (Back.onPcm mode none) b pcms).2 = pcms.mapIdx (defaultPacket mode b.rtp) := by
  induction pcms generalizing b with
  | nil => rfl
  | cons pcm rest ih =>
    have built := rtpL24Build_fits { b.rtp with timestamp := pcm.rtpTs } pcm.planar fits
      (fits_pktCapacity fits)
    have shifted : defaultPacket mode { b.rtp with timestamp := pcm.rtpTs, seq := b.rtp.seq + 1 } =
        fun k => defaultPacket mode b.rtp (k + 1) := by
      funext k pcm
      simp only [defaultPacket]
      rw [Nat.add_comm k 1, UInt16.ofNat_add, ← UInt16.add_assoc]
      rfl
    simp only [Mealy.run_cons, List.mapIdx_cons, Back.onPcm, built, ih]
    rw [shifted]
    simp [defaultPacket]

theorem pipelineRun_default {pl : Pipeline σ} (fits : pl.mode.Fits) (direct : pl.pcmSink = none)
    (frames : List (List UInt8)) :
    (pipelineRun pl frames).2 =
      (pcmStream pl.mode pl.front frames).mapIdx (defaultPacket pl.mode pl.rtp) := by
  obtain ⟨_, _, out⟩ := pipelineRun_stages pl frames
  rw [out, direct]
  exact Back.run_default fits pl.back _

theorem startPipeline_default {mode : ReacMode} (fits : mode.Fits) (payloadType : UInt8)
    (ssrc : UInt32) (plcXfade plcFadePkts : Int) (anchor : Option UInt32)
    (frames : List (List UInt8)) :
    (pipelineRun (startPipeline mode payloadType ssrc plcXfade plcFadePkts anchor) frames).2 =
      (pcmStream mode ⟨mediaClockInitAnchored mode.samplesPerPkt (anchor.getD 0),
          plcInit mode plcFadePkts plcXfade⟩ frames).mapIdx
        (defaultPacket mode ⟨payloadType, 0, 0, ssrc⟩) := by
  have modeKept := startPipeline_mode mode payloadType ssrc plcXfade plcFadePkts anchor
  rw [pipelineRun_default (by rw [modeKept]; exact fits)
    (startPipeline_pcmSink mode payloadType ssrc plcXfade plcFadePkts anchor), modeKept,
    startPipeline_front, startPipeline_rtp]

-- Every packet of a list stands on the slot its position gives, counting from `count`.
def Stamped (anchor : UInt32) (samplesPerPkt count : Nat) (pcms : List Pcm) : Prop :=
  ∀ i pcm, pcms[i]? = some pcm → pcm.rtpTs = packetTs anchor samplesPerPkt (count + i)

theorem Stamped.append {anchor : UInt32} {samplesPerPkt count : Nat} {front back : List Pcm}
    (earlier : Stamped anchor samplesPerPkt count front)
    (later : Stamped anchor samplesPerPkt (count + front.length) back) :
    Stamped anchor samplesPerPkt count (front ++ back) := by
  intro i pcm member
  rcases Nat.lt_or_ge i front.length with inFront | inBack
  · rw [List.getElem?_append_left inFront] at member
    exact earlier i pcm member
  · rw [List.getElem?_append_right inBack] at member
    rw [later _ pcm member]
    congr 1
    omega

theorem concealPcm_stamped {mode : ReacMode} {anchor : UInt32} {count : Nat} (plc : Plc)
    {step : MediaClockStep}
    (stamp : step.rtpTs = packetTs anchor mode.samplesPerPkt (count + step.silencePackets)) :
    Stamped anchor mode.samplesPerPkt count
      ((List.range step.silencePackets).map (concealPcm mode plc step)) := by
  intro i pcm member
  have inside : i < step.silencePackets := by
    have bound := (List.getElem?_eq_some_iff.mp member).1
    simpa using bound
  rw [List.getElem?_map, List.getElem?_range inside, Option.map_some, Option.some.injEq] at member
  have back : count + step.silencePackets = count + i + (step.silencePackets - i) := by omega
  calc pcm.rtpTs
      = step.rtpTs - UInt32.ofNat ((step.silencePackets - i) * mode.samplesPerPkt) := by
        rw [← member, concealPcm, UInt32.ofNat_mul]
    _ = packetTs anchor mode.samplesPerPkt (count + i) := by rw [stamp, back, packetTs_sub]

theorem Front.onFrame_stamped {mode : ReacMode} {f : Front} {anchor : UInt32} {count : Nat}
    (position : f.clock.At anchor mode.samplesPerPkt count) (raw : List UInt8) :
    let next := Front.onFrame mode f raw
    next.1.clock.At anchor mode.samplesPerPkt (count + next.2.length) ∧
      Stamped anchor mode.samplesPerPkt count next.2 := by
  cases valid : (reacFrameInspect raw).valid with
  | false =>
    simp only [Front.onFrame, valid]
    refine ⟨position, fun _ _ member => ?_⟩
    cases member
  | true =>
    obtain ⟨stamp, next⟩ := mediaClockOnPacket_at position (reacFrameInspect raw).counter
    simp only [Front.onFrame, valid, if_true]
    constructor
    · simpa [Nat.add_assoc] using next
    · apply Stamped.append (concealPcm_stamped f.plc stamp)
      intro i pcm member
      obtain ⟨rfl, rfl⟩ : i = 0 ∧ realPcm mode raw _ = pcm := by
        cases i with
        | zero => simpa using member
        | succ i => simp at member
      simpa [realPcm] using stamp

theorem pcmStream_stamped (mode : ReacMode) (anchor : UInt32) (plc : Plc)
    (frames : List (List UInt8)) :
    Stamped anchor mode.samplesPerPkt 0
      (pcmStream mode ⟨mediaClockInitAnchored mode.samplesPerPkt anchor, plc⟩ frames) := by
  have invariant := Mealy.run_invariant (Front.onFrame mode)
    (fun f pcms => f.clock.At anchor mode.samplesPerPkt pcms.length ∧
      Stamped anchor mode.samplesPerPkt 0 pcms)
    (fun f pcms raw keeps => by
      obtain ⟨next, stamped⟩ := Front.onFrame_stamped keeps.1 raw
      exact ⟨by simpa using next, keeps.2.append (by simpa using stamped)⟩)
    ⟨mediaClockInitAnchored mode.samplesPerPkt anchor, plc⟩ []
    ⟨mediaClockInitAnchored_at mode.samplesPerPkt anchor, fun _ _ member => nomatch member⟩ frames
  exact invariant.2

theorem pipelineRun_gapless (mode : ReacMode) (fills : mode.FillsFrame) (payloadType : UInt8)
    (ssrc : UInt32) (plcXfade plcFadePkts : Int) (anchor : Option UInt32)
    (frames : List (List UInt8)) (k : Nat) (e : Emitted)
    (emitted : (pipelineRun
      (startPipeline mode payloadType ssrc plcXfade plcFadePkts anchor) frames).2[k]? = some e) :
    e.buf.length = 1452 ∧ ∃ header payload,
      parseRtp e.buf = some (header, payload) ∧ header.version = 2 ∧
      header.sequenceNumber.toNat = k % 2 ^ 16 ∧
      header.timestamp.toNat =
        ((anchor.getD 0).toNat + k * mode.samplesPerPkt) % 2 ^ 32 := by
  rw [startPipeline_default fills.fits, List.getElem?_mapIdx, Option.map_eq_some_iff] at emitted
  obtain ⟨pcm, member, rfl⟩ := emitted
  have stamp := pcmStream_stamped mode (anchor.getD 0) (plcInit mode plcFadePkts plcXfade) frames
    k pcm member
  refine ⟨?_, _, _, parseRtp_flowPacket _ _ _ _ _, rfl, ?_, ?_⟩
  · have audio := fills.audio
    simp only [reacResolution, reacAudioBytes] at audio
    simp [defaultPacket, rtpHeaderLen, audio]
  · simp [RtpParams.header]
  · simp only [RtpParams.header]
    rw [stamp, packetTs_toNat, Nat.zero_add]

def lossyCapture : List (List UInt8) :=
  [wireFrame (fun _ => 0xff) 65535 Block.blank, [], wireFrame (fun _ => 0xff) 1 Block.blank]

theorem pipelineRun_gapless_lossyCapture :
    ∃ e, (pipelineRun (startPipeline reacMode48k 97 1 0 0 (some 1000)) lossyCapture).2[2]? = some e ∧
      e.buf.length = 1452 ∧ ∃ header payload,
        parseRtp e.buf = some (header, payload) ∧ header.version = 2 ∧
        header.sequenceNumber.toNat = 2 % 2 ^ 16 ∧
        header.timestamp.toNat = (1000 + 2 * 12) % 2 ^ 32 := by
  have malformed : reacFrameInspect [] = ⟨0, false⟩ := by decide
  have bound : 2 < (pipelineRun (startPipeline reacMode48k 97 1 0 0 (some 1000))
      lossyCapture).2.length := by
    rw [startPipeline_default reacMode48k_fillsFrame.fits, List.length_mapIdx]
    simp [pcmStream, lossyCapture, Front.onFrame, wireFrame_inspect, malformed,
      mediaClockOnPacket_first, mediaClockOnPacket_started, mediaClockInitAnchored, lostBefore,
      counterGap]
  have emitted := List.getElem?_eq_getElem bound
  exact ⟨_, emitted, pipelineRun_gapless reacMode48k reacMode48k_fillsFrame 97 1 0 0 (some 1000)
    lossyCapture 2 _ emitted⟩

end ReacAes67
