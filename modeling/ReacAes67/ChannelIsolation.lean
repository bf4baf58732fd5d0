import ReacAes67.DantePath

set_option autoImplicit false

/-!
# Channels do not influence each other

Two runs over frames that agree on validity, counter and the audio of some
channels send packets that agree on headers, lengths, flags and the samples of
those channels, concealment included.
-/

namespace ReacAes67

open SampleBlock Windows

def FramesAgree (mode : ReacMode) (shared : Nat → Prop) (left right : List UInt8) : Prop :=
  reacFrameInspect left = reacFrameInspect right ∧
    ((reacFrameInspect left).valid = true → ∀ c s, shared c → s < mode.samplesPerPkt →
      audioSlot mode left c s = audioSlot mode right c s)

structure PcmAgree (mode : ReacMode) (shared : Nat → Prop) (left right : Pcm) : Prop where
  rtpTs : left.rtpTs = right.rtpTs
  concealed : left.concealed = right.concealed
  audio : ∀ c s, shared c → c < mode.nChannels → s < mode.samplesPerPkt →
    left.planar.sample (c * mode.samplesPerPkt + s) =
      right.planar.sample (c * mode.samplesPerPkt + s)

structure FrontAgree (mode : ReacMode) (shared : Nat → Prop) (left right : Front) : Prop where
  clock : left.clock = right.clock
  setup : left.plc.SameSetup right.plc
  samples : left.plc.samples = mode.samplesPerPkt
  nChannels : left.plc.nChannels = mode.nChannels
  history : ∀ c, shared c → c < mode.nChannels → left.plc.ch c = right.plc.ch c

section Runs

variable {mode : ReacMode} {shared : Nat → Prop}

theorem FrontAgree.start (mode : ReacMode) (shared : Nat → Prop) (clock : MediaClock)
    (fadePackets xfadeW : Int) :
    FrontAgree mode shared ⟨clock, plcInit mode fadePackets xfadeW⟩
      ⟨clock, plcInit mode fadePackets xfadeW⟩ :=
  ⟨rfl, Plc.SameSetup.refl _, rfl, rfl, fun _ _ _ => rfl⟩

theorem concealPcm_agree {left right : Front} (agree : FrontAgree mode shared left right)
    (step : MediaClockStep) (i : Nat) :
    PcmAgree mode shared (concealPcm mode left.plc step i) (concealPcm mode right.plc step i) := by
  refine ⟨rfl, rfl, fun c s member channel time => ?_⟩
  have leftSample := plcConceal_sample left.plc Block.blank i
    (by rw [agree.nChannels]; exact channel) (by rw [agree.samples]; exact time)
  have rightSample := plcConceal_sample right.plc Block.blank i
    (by rw [← agree.setup.nChannels, agree.nChannels]; exact channel)
    (by rw [← agree.setup.samples, agree.samples]; exact time)
  rw [← agree.setup.samples, agree.samples] at rightSample
  rw [agree.samples] at leftSample
  simp only [concealPcm]
  rw [leftSample, rightSample, agree.history c member channel, concealSample_congr agree.setup]

theorem Front.onFrame_agree {left right : Front} (agree : FrontAgree mode shared left right)
    {rawLeft rawRight : List UInt8} (frames : FramesAgree mode shared rawLeft rawRight) :
    FrontAgree mode shared (Front.onFrame mode left rawLeft).1 (Front.onFrame mode right rawRight).1 ∧
      List.Forall₂ (PcmAgree mode shared) (Front.onFrame mode left rawLeft).2
        (Front.onFrame mode right rawRight).2 := by
  obtain ⟨inspected, audio⟩ := frames
  simp only [Front.onFrame, ← inspected]
  cases valid : (reacFrameInspect rawLeft).valid with
  | false => exact ⟨agree, .nil⟩
  | true =>
    have same : ∀ c s, shared c → c < mode.nChannels → s < mode.samplesPerPkt →
        (decoded mode rawLeft).sample (c * mode.samplesPerPkt + s) =
          (decoded mode rawRight).sample (c * mode.samplesPerPkt + s) := by
      intro c s member channel time
      rw [decoded_sample mode _ channel time, decoded_sample mode _ channel time,
        audio valid c s member time]
    simp only [if_true, agree.clock]
    refine ⟨⟨rfl, agree.setup.observe _ _, agree.samples, agree.nChannels, ?_⟩, ?_⟩
    · intro c member channel
      apply plcObserve_channel agree.setup (agree.history c member channel)
      rw [agree.samples]
      exact fun s time => same c s member channel time
    · refine List.rel_append ?_ (.cons ⟨rfl, rfl, same⟩ .nil)
      rw [List.forall₂_map_left_iff, List.forall₂_map_right_iff, List.forall₂_same]
      exact fun i _ => concealPcm_agree agree _ i

theorem pcmStream_agree {left right : Front} (agree : FrontAgree mode shared left right)
    {framesLeft framesRight : List (List UInt8)}
    (frames : List.Forall₂ (FramesAgree mode shared) framesLeft framesRight) :
    List.Forall₂ (PcmAgree mode shared) (pcmStream mode left framesLeft)
      (pcmStream mode right framesRight) :=
  (Mealy.run_related (Front.onFrame mode) (Front.onFrame mode) (FrontAgree mode shared)
    (FramesAgree mode shared) (PcmAgree mode shared)
    (fun _ _ _ _ agree frames => Front.onFrame_agree agree frames) left right agree framesLeft
    framesRight frames).2

end Runs

-- Same header bytes, length and flag, and the same samples of the shared channels.
structure PacketsAgree (mode : ReacMode) (shared : Nat → Prop) (left right : Emitted) : Prop where
  header : left.buf.take rtpHeaderLen = right.buf.take rtpHeaderLen
  length : left.buf.length = right.buf.length
  concealed : left.concealed = right.concealed
  audio : ∀ c s, shared c → c < mode.nChannels → s < mode.samplesPerPkt →
    payloadSample left.buf (s * mode.nChannels + c) =
      payloadSample right.buf (s * mode.nChannels + c)

theorem flowPacket_header (p : RtpParams) (planarPcm : Block) (chStart flowNch nSamples : Nat) :
    (flowPacket p planarPcm chStart flowNch nSamples).take rtpHeaderLen = writeRtpHeader p := by
  rw [flowPacket, ← writeRtpHeader_length p, List.take_left]

theorem defaultPacket_agree {mode : ReacMode} {shared : Nat → Prop} (rtp : RtpParams) (k : Nat)
    {left right : Pcm} (agree : PcmAgree mode shared left right) :
    PacketsAgree mode shared (defaultPacket mode rtp k left) (defaultPacket mode rtp k right) := by
  constructor
  · simp only [defaultPacket, flowPacket_header, agree.rtpTs]
  · simp only [defaultPacket, flowPacket_length]
  · exact agree.concealed
  · intro c s member channel time
    simp only [defaultPacket]
    rw [flowPacket_sample _ _ _ time channel, flowPacket_sample _ _ _ time channel, Nat.zero_add,
      agree.audio c s member channel time]

def ReacFlow.Carries (fl : ReacFlow) (c : Nat) : Prop :=
  fl.chStart ≤ c ∧ (c : Int) < fl.chStart + fl.nCh

theorem pcmAgree_any {mode : ReacMode} {shared : Nat → Prop} {left right : List Pcm}
    (windows : List.Forall₂ (PcmAgree mode shared) left right) :
    left.any (·.concealed) = right.any (·.concealed) := by
  induction windows with
  | nil => rfl
  | cons pair _ ih => simp only [List.any_cons, pair.concealed, ih]

theorem pcmAgree_getElem? {mode : ReacMode} {shared : Nat → Prop} {left right : List Pcm}
    (windows : List.Forall₂ (PcmAgree mode shared) left right) {g : Nat} (inside : g < left.length) :
    ∃ pcmLeft pcmRight, left[g]? = some pcmLeft ∧ right[g]? = some pcmRight ∧
      PcmAgree mode shared pcmLeft pcmRight := by
  have inside' : g < right.length := windows.length_eq ▸ inside
  exact ⟨_, _, List.getElem?_eq_getElem inside, List.getElem?_eq_getElem inside',
    windows.get inside inside'⟩

theorem WindowPacket.determined {mode : ReacMode} {fpp i k : Nat} {fl : ReacFlow}
    (slice : fl.Slice mode.nChannels) {left right : List Pcm} {pktLeft pktRight : FlowPacket}
    (windows : List.Forall₂ (PcmAgree mode fl.Carries) left right)
    (carriesLeft : WindowPacket mode fpp i fl left k pktLeft)
    (carriesRight : WindowPacket mode fpp i fl right k pktRight) : pktLeft = pktRight := by
  obtain ⟨firstLeft, planarLeft, startLeft, holdsLeft, bufLeft⟩ := carriesLeft.built
  obtain ⟨firstRight, planarRight, startRight, holdsRight, bufRight⟩ := carriesRight.built
  have nonempty : 0 < left.length := by
    cases left with
    | nil => simp at startLeft
    | cons => simp
  obtain ⟨headLeft, headRight, atLeft, atRight, heads⟩ := pcmAgree_getElem? windows nonempty
  rw [← List.head?_eq_getElem?] at atLeft atRight
  have firsts : firstLeft.rtpTs = firstRight.rtpTs := by
    rw [← Option.some.inj (atLeft.symm.trans startLeft),
      ← Option.some.inj (atRight.symm.trans startRight), heads.rtpTs]
  have index : pktLeft.flowIndex = pktRight.flowIndex := by
    rw [carriesLeft.index, carriesRight.index]
  have concealed : pktLeft.concealed = pktRight.concealed := by
    rw [carriesLeft.concealed, carriesRight.concealed, pcmAgree_any windows]
  have buf : pktLeft.buf = pktRight.buf := by
    rw [bufLeft, bufRight, firsts]
    apply flowPacket_congr
    intro fc t channel time
    obtain ⟨frame, sample, split⟩ := rowMajor_split time
    have carried : fl.Carries (fl.chStart.toNat + fc) := by
      have start := slice.start
      constructor <;> omega
    have inMode : fl.chStart.toNat + fc < mode.nChannels := by
      have inside := slice.inside
      have carried := carried.2
      omega
    obtain ⟨pcmLeft, pcmRight, memberLeft, memberRight, agree⟩ :=
      pcmAgree_getElem? windows (carriesLeft.full.symm ▸ frame)
    rw [split, holdsLeft _ pcmLeft memberLeft _ _ inMode sample,
      holdsRight _ pcmRight memberRight _ _ inMode sample, agree.audio _ _ carried inMode sample]
  cases pktLeft
  cases pktRight
  simp only at index concealed buf
  rw [index, concealed, buf]

theorem windowPackets_determined {mode : ReacMode} {fpp i : Nat} {fl : ReacFlow}
    (slice : fl.Slice mode.nChannels) {left right : List (List Pcm × Nat)}
    {sentLeft sentRight : List FlowPacket}
    (windows : List.Forall₂
      (fun l r => List.Forall₂ (PcmAgree mode fl.Carries) l.1 r.1 ∧ l.2 = r.2) left right)
    (carriesLeft : List.Forall₂ (fun wk pkt => WindowPacket mode fpp i fl wk.1 wk.2 pkt) left sentLeft)
    (carriesRight : List.Forall₂ (fun wk pkt => WindowPacket mode fpp i fl wk.1 wk.2 pkt) right
      sentRight) : sentLeft = sentRight := by
  induction windows generalizing sentLeft sentRight with
  | nil =>
    cases carriesLeft
    cases carriesRight
    rfl
  | cons pair _ ih =>
    cases carriesLeft with
    | cons headLeft tailLeft =>
      cases carriesRight with
      | cons headRight tailRight =>
        rw [pair.2] at headLeft
        rw [headLeft.determined slice pair.1 headRight, ih tailLeft tailRight]

/-- A channel's packets depend on that channel alone; a flow's packets on the flow's channels. -/
theorem pipelineRun_channelIsolation (mode : ReacMode) (fits : mode.Fits) (payloadType : UInt8)
    (ssrc : UInt32) (plcXfade plcFadePkts : Int) (anchor : Option UInt32)
    (left right : List (List UInt8)) :
    (∀ c, c < mode.nChannels → List.Forall₂ (FramesAgree mode (· = c)) left right →
      let pl := startPipeline mode payloadType ssrc plcXfade plcFadePkts anchor
      List.Forall₂ (PacketsAgree mode (· = c)) (pipelineRun pl left).2 (pipelineRun pl right).2) ∧
      (∀ (fpp : Nat) (max chPerFlow n : Int) (flows : List ReacFlow) (memory memory' : Block)
          (i : Nat) (fl : ReacFlow), 1 ≤ fpp → fpp ≤ 4 → 0 ≤ n →
        danteBuildFlows max mode.nChannels chPerFlow payloadType ssrc = some (n, flows) →
        flows[i]? = some fl → List.Forall₂ (FramesAgree mode fl.Carries) left right →
        let sent := fun memory frames =>
          (danteSent (dantePipeline mode payloadType ssrc plcXfade plcFadePkts anchor
            (packetizerInit mode fpp flows memory)) frames).filter fun pkt => pkt.flowIndex = i
        sent memory left = sent memory' right) := by
  let start : Front := ⟨mediaClockInitAnchored mode.samplesPerPkt (anchor.getD 0),
    plcInit mode plcFadePkts plcXfade⟩
  have streams (shared : Nat → Prop) (frames : List.Forall₂ (FramesAgree mode shared) left right) :
      List.Forall₂ (PcmAgree mode shared) (pcmStream mode start left) (pcmStream mode start right) :=
    pcmStream_agree (FrontAgree.start mode shared _ plcFadePkts plcXfade) frames
  constructor
  · intro c channel frames pl
    simp only [pl, startPipeline_default fits]
    rw [List.mapIdx_eq_zipIdx_map, List.mapIdx_eq_zipIdx_map, List.forall₂_map_left_iff,
      List.forall₂_map_right_iff]
    refine (zipIdx_related (streams _ frames) 0).imp fun ⟨pcmLeft, k⟩ ⟨pcmRight, k'⟩ pair => ?_
    obtain ⟨agree, rfl⟩ : PcmAgree mode (· = c) pcmLeft pcmRight ∧ k = k' := pair
    exact defaultPacket_agree _ k agree
  · intro fpp max chPerFlow n flows memory memory' i fl least few accepted produced member frames sent
    have slices := danteBuildFlows_slices accepted produced
    have own (memory : Block) (frames : List (List UInt8)) :=
      (packetize_windows fits least few (fun fl member => (slices fl member).1) _ [] 0
        (packetizerInit_buffers mode flows memory least few) least (pcmStream mode start frames)).2
        i fl member
    simp only [sent, dantePipeline_sent]
    exact windowPackets_determined (slices fl (List.mem_of_getElem? member)).1
      (zipIdx_related (windows_related fpp .nil (streams _ frames)) 0) (own memory left)
      (own memory' right)

-- Two captures with a gap whose frames differ in the first sample of channel 1.
def loudCapture (level : Sample) : List (List UInt8) :=
  [5, 8].map fun counter => wireFrame (fun _ => 0xff) counter (Block.blank.setSample 1 level)

theorem loudCapture_agree (shared : Nat → Prop) (quiet : ¬ shared 1)
    (inMode : ∀ c, shared c → c < reacMode48k.nChannels) (left right : Sample) :
    List.Forall₂ (FramesAgree reacMode48k shared) (loudCapture left) (loudCapture right) := by
  rw [loudCapture, loudCapture, List.forall₂_map_left_iff, List.forall₂_map_right_iff,
    List.forall₂_same]
  intro counter _
  refine ⟨by rw [wireFrame_inspect, wireFrame_inspect], fun _ c s member time => ?_⟩
  have channel := inMode c member
  have different : 1 ≠ s * reacMode48k.nChannels + c := by
    have notOne : c ≠ 1 := fun same => quiet (same ▸ member)
    simp only [reacMode48k]
    omega
  rw [wireFrame_audioSlot _ reacMode48k_fillsFrame.fits _ _ _ channel time,
    wireFrame_audioSlot _ reacMode48k_fillsFrame.fits _ _ _ channel time,
    Block.sample_setSample_ne _ _ different, Block.sample_setSample_ne _ _ different]

theorem pipelineRun_channelIsolation_loud :
    List.Forall₂ (PacketsAgree reacMode48k (· = 0))
        (pipelineRun (startPipeline reacMode48k 96 0x5000 0 0 none) (loudCapture ⟨0, 0, 0⟩)).2
        (pipelineRun (startPipeline reacMode48k 96 0x5000 0 0 none) (loudCapture ⟨1, 2, 3⟩)).2 ∧
      (danteSent (dantePipeline reacMode48k 96 0x5000 0 0 none
          (packetizerInit reacMode48k (2 : Nat) eightWideFlows Block.blank))
          (loudCapture ⟨0, 0, 0⟩)).filter (fun pkt => pkt.flowIndex = 1) =
        (danteSent (dantePipeline reacMode48k 96 0x5000 0 0 none
          (packetizerInit reacMode48k (2 : Nat) eightWideFlows Block.blank))
          (loudCapture ⟨1, 2, 3⟩)).filter (fun pkt => pkt.flowIndex = 1) := by
  obtain ⟨packets, flows⟩ := pipelineRun_channelIsolation reacMode48k reacMode48k_fillsFrame.fits 96
    0x5000 0 0 none (loudCapture ⟨0, 0, 0⟩) (loudCapture ⟨1, 2, 3⟩)
  constructor
  · exact packets 0 (by decide)
      (loudCapture_agree _ (by decide) (fun c same => by simp [same, reacMode48k]) _ _)
  · exact flows 2 40 8 5 eightWideFlows Block.blank Block.blank 1
      (danteFlow 40 8 96 0x5000 1) (by decide) (by decide) (by decide) (by decide) rfl
      (loudCapture_agree _ (by simp [ReacFlow.Carries, danteFlow])
        (fun c carried => by simp [ReacFlow.Carries, danteFlow, reacMode48k] at carried ⊢; omega) _ _)

end ReacAes67
