import ReacAes67.GaplessStream
import ReacAes67.Packetizer

set_option autoImplicit false

/-!
# The Dante path re-frames the default path

The packetizer consumes the same PCM stream as the default path. Each flow
sends one packet for each full window of that stream, with its own sequence
numbers and the channel slice of the window's frames.
-/

namespace ReacAes67

open SampleBlock Windows

def HoldsFrames (mode : ReacMode) (fpp : Nat) (planar : Block) (window : List Pcm) : Prop :=
  ∀ g pcm, window[g]? = some pcm → ∀ c s, c < mode.nChannels → s < mode.samplesPerPkt →
    planar.sample (c * (fpp * mode.samplesPerPkt) + (g * mode.samplesPerPkt + s)) =
      pcm.planar.sample (c * mode.samplesPerPkt + s)

/-- The packetizer after `done` flushed windows, with the frames of `window` buffered. -/
structure Packetizer.Buffers (pk : Packetizer) (mode : ReacMode) (fpp : Nat)
    (flows : List ReacFlow) (window : List Pcm) (done : Nat) : Prop where
  ofMode : pk.mode = mode
  perPacket : pk.framesPerPacket = fpp
  buffered : pk.framesBuffered = window.length
  table : pk.flows = flows.map fun fl => { fl with seq := fl.seq + UInt16.ofNat done }
  stamp : ∀ first, window.head? = some first → pk.pendingTs = first.rtpTs
  flag : window ≠ [] → pk.pendingConcealed = window.any (·.concealed)
  frames : HoldsFrames mode fpp pk.planar window

-- Packet `k` of a flow, built from window `k` of the stream.
structure WindowPacket (mode : ReacMode) (fpp i : Nat) (fl : ReacFlow) (window : List Pcm)
    (k : Nat) (pkt : FlowPacket) : Prop where
  full : window.length = fpp
  index : pkt.flowIndex = i
  concealed : pkt.concealed = window.any (·.concealed)
  built : ∃ first planar, window.head? = some first ∧ HoldsFrames mode fpp planar window ∧
    pkt.buf = flowPacket ⟨fl.payloadType, fl.seq + UInt16.ofNat k, first.rtpTs, fl.ssrc⟩ planar
      fl.chStart.toNat fl.nCh.toNat (fpp * mode.samplesPerPkt)

section Packetize

variable {mode : ReacMode} {fpp : Nat} {flows : List ReacFlow}

theorem packetizerInit_buffers (mode : ReacMode) (flows : List ReacFlow) (planar : Block)
    (least : 1 ≤ fpp) (most : fpp ≤ 4) :
    (packetizerInit mode fpp flows planar).Buffers mode fpp flows [] 0 := by
  rw [packetizerInit_framesPerPacket mode flows planar least most]
  constructor <;> simp [HoldsFrames]

theorem packetizerFill_buffers {pk : Packetizer} {window : List Pcm} {done : Nat}
    (buffers : pk.Buffers mode fpp flows window done) (room : window.length < fpp) (pcm : Pcm) :
    (packetizerFill pk pcm.planar pcm.rtpTs pcm.concealed).Buffers mode fpp flows
      (window ++ [pcm]) done := by
  have planar (opened : Packetizer) (sameMode : opened.mode = mode)
      (sameFpp : opened.framesPerPacket = fpp) (sameCount : opened.framesBuffered = window.length)
      (samePlanar : opened.planar = pk.planar) :
      HoldsFrames mode fpp (appendFrame opened pcm.planar) (window ++ [pcm]) := by
    intro g frame member c s channel time
    have inside : g < window.length + 1 := by
      have bound := (List.getElem?_eq_some_iff.mp member).1
      simpa using bound
    have cell : g * mode.samplesPerPkt + s < fpp * mode.samplesPerPkt := rowMajor_lt (by omega) time
    have appended := appendFrame_sample opened pcm.planar (by omega)
      (by rw [sameMode]; exact channel) (by rw [sameFpp, sameMode]; exact cell)
    simp only [sameMode, sameFpp, sameCount, samePlanar] at appended
    rw [appended]
    rcases Nat.lt_or_ge g window.length with earlier | last
    · have rows : (g + 1) * mode.samplesPerPkt ≤ window.length * mode.samplesPerPkt :=
        Nat.mul_le_mul_right _ earlier
      rw [Nat.add_mul, Nat.one_mul] at rows
      rw [if_neg (by omega)]
      rw [List.getElem?_append_left earlier] at member
      exact buffers.frames g frame member c s channel time
    · obtain rfl : g = window.length := by omega
      obtain rfl : pcm = frame := by simpa using member
      rw [if_pos (by omega)]
      congr 1
      omega
  rcases List.eq_nil_or_concat window with empty | ⟨front, last, split⟩
  · subst empty
    have count : pk.framesBuffered = 0 := buffers.buffered
    constructor
    all_goals simp only [packetizerFill, count, if_true, List.nil_append]
    · exact buffers.ofMode
    · exact buffers.perPacket
    · rfl
    · exact buffers.table
    · simp
    · simp
    · exact planar _ buffers.ofMode buffers.perPacket rfl rfl
  · have nonempty : window ≠ [] := by simp [split]
    have count : ¬ pk.framesBuffered = 0 := by simp [buffers.buffered, nonempty]
    constructor
    all_goals simp only [packetizerFill, if_neg count]
    · exact buffers.ofMode
    · exact buffers.perPacket
    · simp [buffers.buffered]
    · exact buffers.table
    · intro first member
      rw [List.head?_append_of_ne_nil _ nonempty] at member
      exact buffers.stamp first member
    · simp [buffers.flag nonempty]
    · exact planar pk buffers.ofMode buffers.perPacket buffers.buffered rfl

def sentPacket (pk : Packetizer) (i : Nat) (fl : ReacFlow) : FlowPacket :=
  ⟨i, flowPacket (flowParams fl pk.pendingTs) pk.planar fl.chStart.toNat fl.nCh.toNat
    (pk.framesPerPacket * pk.mode.samplesPerPkt), pk.pendingConcealed⟩

theorem buildFlows_slices {pk : Packetizer} (fits : pk.mode.Fits) (some : 0 < pk.framesPerPacket)
    (few : pk.framesPerPacket ≤ 4) (slices : ∀ fl ∈ pk.flows, fl.Slice pk.mode.nChannels) :
    (pk.flows.mapIdx (buildFlow pk)).map (·.1) =
        pk.flows.map (fun fl => { fl with seq := fl.seq + 1 }) ∧
      (pk.flows.mapIdx (buildFlow pk)).flatMap (·.2) = pk.flows.mapIdx (sentPacket pk) := by
  have built : pk.flows.mapIdx (buildFlow pk) = pk.flows.mapIdx fun i fl =>
      ({ fl with seq := fl.seq + 1 }, [sentPacket pk i fl]) := by
    rw [List.mapIdx_eq_mapIdx_iff]
    intro i inside
    exact buildFlow_slice fits some few i (slices _ (List.getElem_mem inside))
  rw [built]
  constructor
  · rw [List.mapIdx_eq_zipIdx_map, List.map_map]
    conv => rhs; rw [← List.zipIdx_map_fst 0 pk.flows, List.map_map]
    rfl
  · rw [List.mapIdx_eq_zipIdx_map, List.mapIdx_eq_zipIdx_map, List.flatMap_map, List.map_eq_flatMap]

theorem packetizerPush_buffers {pk : Packetizer} {window : List Pcm} {done : Nat}
    (buffers : pk.Buffers mode fpp flows window done) (room : window.length + 1 < fpp) (pcm : Pcm) :
    (packetizerPush pk pcm.planar pcm.rtpTs pcm.concealed).1.Buffers mode fpp flows
        (window ++ [pcm]) done ∧
      (packetizerPush pk pcm.planar pcm.rtpTs pcm.concealed).2 = [] := by
  have filled := packetizerFill_buffers buffers (by omega) pcm
  have more : (packetizerFill pk pcm.planar pcm.rtpTs pcm.concealed).framesBuffered <
      (packetizerFill pk pcm.planar pcm.rtpTs pcm.concealed).framesPerPacket := by
    rw [filled.buffered, filled.perPacket]
    simpa using room
  simp only [packetizerPush, if_pos more]
  exact ⟨filled, trivial⟩

theorem packetizerPush_flushes (fits : mode.Fits) (few : fpp ≤ 4)
    (slices : ∀ fl ∈ flows, fl.Slice mode.nChannels) {pk : Packetizer} {window : List Pcm}
    {done : Nat} (buffers : pk.Buffers mode fpp flows window done) (last : window.length + 1 = fpp)
    (pcm : Pcm) :
    let next := packetizerPush pk pcm.planar pcm.rtpTs pcm.concealed
    next.1.Buffers mode fpp flows [] (done + 1) ∧
      (∀ pkt ∈ next.2, pkt.flowIndex < flows.length) ∧
      ∀ i fl, flows[i]? = some fl → ∃ pkt, WindowPacket mode fpp i fl (window ++ [pcm]) done pkt ∧
        next.2.filter (fun sent => sent.flowIndex = i) = [pkt] := by
  have filled := packetizerFill_buffers buffers (by omega) pcm
  generalize fill : packetizerFill pk pcm.planar pcm.rtpTs pcm.concealed = pk' at filled
  have full : ¬ pk'.framesBuffered < pk'.framesPerPacket := by
    rw [filled.buffered, filled.perPacket]
    simp [last]
  have slices' : ∀ fl ∈ pk'.flows, fl.Slice pk'.mode.nChannels := by
    rw [filled.table, filled.ofMode]
    intro fl member
    obtain ⟨fl', inside, rfl⟩ := List.mem_map.mp member
    have slice := slices fl' inside
    exact ⟨slice.start, slice.width, slice.inside⟩
  obtain ⟨nextFlows, sent⟩ := buildFlows_slices (by rw [filled.ofMode]; exact fits)
    (by rw [filled.perPacket]; omega) (by rw [filled.perPacket]; exact few) slices'
  have pushed : packetizerPush pk pcm.planar pcm.rtpTs pcm.concealed =
      ({ pk' with flows := pk'.flows.map (fun fl => { fl with seq := fl.seq + 1 })
                  framesBuffered := 0 }, pk'.flows.mapIdx (sentPacket pk')) := by
    rw [← nextFlows, ← sent]
    simp only [packetizerPush, fill, if_neg full]
  simp only [pushed]
  have advance : (fun fl : ReacFlow => { fl with seq := fl.seq + 1 }) ∘
      (fun fl : ReacFlow => { fl with seq := fl.seq + UInt16.ofNat done }) =
        fun fl : ReacFlow => { fl with seq := fl.seq + UInt16.ofNat (done + 1) } := by
    funext fl
    simp [UInt16.ofNat_add, UInt16.add_assoc]
  refine ⟨⟨filled.ofMode, filled.perPacket, rfl, ?_, by simp, by simp, by simp [HoldsFrames]⟩, ?_, ?_⟩
  · change pk'.flows.map _ = _
    rw [filled.table, List.map_map, advance]
  · intro pkt member
    obtain ⟨i, inside, rfl⟩ := List.mem_mapIdx.mp member
    rw [filled.table, List.length_map] at inside
    exact inside
  · intro i fl member
    have member' : pk'.flows[i]? = some { fl with seq := fl.seq + UInt16.ofNat done } := by
      rw [filled.table, List.getElem?_map, member]
      rfl
    have selected := filter_mapIdx_position FlowPacket.flowIndex (sentPacket pk') 0
      (fun j fl => (Nat.zero_add j).symm) pk'.flows member'
    rw [Nat.zero_add] at selected
    refine ⟨_, ⟨by simpa using last, rfl, filled.flag (by simp), ?_⟩, selected⟩
    obtain ⟨first, start⟩ : ∃ first, (window ++ [pcm]).head? = some first := by
      cases window <;> exact ⟨_, rfl⟩
    refine ⟨first, pk'.planar, start, filled.frames, ?_⟩
    simp only [sentPacket, flowParams, filled.perPacket, filled.ofMode, filled.stamp first start]

def packetize (pk : Packetizer) (pcms : List Pcm) : Packetizer × List FlowPacket :=
  Mealy.run (fun pk pcm => packetizerPush pk pcm.planar pcm.rtpTs pcm.concealed) pk pcms

@[simp] theorem packetize_nil (pk : Packetizer) : packetize pk [] = (pk, []) := rfl

@[simp] theorem packetize_cons (pk : Packetizer) (pcm : Pcm) (rest : List Pcm) :
    packetize pk (pcm :: rest) =
      let next := packetizerPush pk pcm.planar pcm.rtpTs pcm.concealed
      ((packetize next.1 rest).1, next.2 ++ (packetize next.1 rest).2) := rfl

theorem packetize_windows (fits : mode.Fits) (least : 1 ≤ fpp) (few : fpp ≤ 4)
    (slices : ∀ fl ∈ flows, fl.Slice mode.nChannels) (pk : Packetizer) (window : List Pcm)
    (done : Nat) (buffers : pk.Buffers mode fpp flows window done) (room : window.length < fpp)
    (pcms : List Pcm) :
    (∀ pkt ∈ (packetize pk pcms).2, pkt.flowIndex < flows.length) ∧
      ∀ i fl, flows[i]? = some fl →
        List.Forall₂ (fun wk pkt => WindowPacket mode fpp i fl wk.1 wk.2 pkt)
          ((windows fpp window pcms).zipIdx done)
          ((packetize pk pcms).2.filter fun sent => sent.flowIndex = i) := by
  induction pcms generalizing pk window done with
  | nil => exact ⟨by simp, fun i fl _ => .nil⟩
  | cons pcm rest ih =>
    simp only [packetize_cons, List.filter_append]
    by_cases more : window.length + 1 < fpp
    · obtain ⟨next, silent⟩ := packetizerPush_buffers buffers more pcm
      have later := ih _ (window ++ [pcm]) done next (by simpa using more)
      simpa only [windows, if_pos more, silent, List.nil_append, List.filter_nil] using later
    · obtain ⟨next, known, sent⟩ := packetizerPush_flushes fits few slices buffers (by omega) pcm
      obtain ⟨knownLater, later⟩ := ih _ [] (done + 1) next least
      simp only [windows, if_neg more, List.zipIdx_cons]
      refine ⟨fun pkt member => ?_, fun i fl member => ?_⟩
      · rcases List.mem_append.mp member with now | after
        · exact known pkt now
        · exact knownLater pkt after
      · obtain ⟨pkt, carries, only⟩ := sent i fl member
        rw [only]
        exact .cons carries (later i fl member)

end Packetize

theorem Back.run_dante (mode : ReacMode) (b : Back DanteSinkCtx) (pcms : List Pcm) :
    (Mealy.run (Back.onPcm mode (some dantePcmSink)) b pcms).1.ctx =
      ⟨(packetize b.ctx.pk pcms).1, b.ctx.sent ++ (packetize b.ctx.pk pcms).2⟩ := by
  induction pcms generalizing b with
  | nil => simp
  | cons pcm rest ih => simp [ih, Back.onPcm, dantePcmSink]

def dantePipeline (mode : ReacMode) (payloadType : UInt8) (ssrc : UInt32)
    (plcXfade plcFadePkts : Int) (anchor : Option UInt32) (pk : Packetizer) :
    Pipeline DanteSinkCtx :=
  pipelineSetPcmSink (startPipeline mode payloadType ssrc plcXfade plcFadePkts anchor)
    (some dantePcmSink) ⟨pk, []⟩

def danteSent (pl : Pipeline DanteSinkCtx) (frames : List (List UInt8)) : List FlowPacket :=
  (pipelineRun pl frames).1.pcmCtx.sent

theorem dantePipeline_sent (mode : ReacMode) (payloadType : UInt8) (ssrc : UInt32)
    (plcXfade plcFadePkts : Int) (anchor : Option UInt32) (pk : Packetizer)
    (frames : List (List UInt8)) :
    danteSent (dantePipeline mode payloadType ssrc plcXfade plcFadePkts anchor pk) frames =
      (packetize pk (pcmStream mode ⟨mediaClockInitAnchored mode.samplesPerPkt (anchor.getD 0),
        plcInit mode plcFadePkts plcXfade⟩ frames)).2 := by
  let pl := dantePipeline mode payloadType ssrc plcXfade plcFadePkts anchor pk
  have kept : pl.mode = mode := startPipeline_mode mode payloadType ssrc plcXfade plcFadePkts anchor
  have front : pl.front = ⟨mediaClockInitAnchored mode.samplesPerPkt (anchor.getD 0),
      plcInit mode plcFadePkts plcXfade⟩ :=
    startPipeline_front mode payloadType ssrc plcXfade plcFadePkts anchor
  have back := congrArg Back.ctx (pipelineRun_stages pl frames).2.1
  change _ = (Mealy.run (Back.onPcm pl.mode (some dantePcmSink)) pl.back _).1.ctx at back
  rw [Back.run_dante, kept, front] at back
  exact congrArg DanteSinkCtx.sent back

/-- Packet `k` of a flow against packets `fpp * k` to `fpp * k + fpp - 1` of the default path. -/
structure ReframedPacket (mode : ReacMode) (fpp : Nat) (fl : ReacFlow) (plain : List Emitted)
    (k : Nat) (pkt : FlowPacket) : Prop where
  header : ∃ first plainHeader plainPayload header payload, plain[fpp * k]? = some first ∧
    parseRtp first.buf = some (plainHeader, plainPayload) ∧
    parseRtp pkt.buf = some (header, payload) ∧
    header.sequenceNumber.toNat = k % 2 ^ 16 ∧ header.ssrc = fl.ssrc ∧
    header.payloadType = fl.payloadType.toNat % 128 ∧ header.timestamp = plainHeader.timestamp
  length : pkt.buf.length = rtpHeaderLen + fl.nCh.toNat * (fpp * mode.samplesPerPkt) * 3
  samples : ∀ g, g < fpp → ∃ e, plain[fpp * k + g]? = some e ∧
    ∀ s fc, s < mode.samplesPerPkt → fc < fl.nCh.toNat →
      payloadSample pkt.buf ((g * mode.samplesPerPkt + s) * fl.nCh.toNat + fc) =
        payloadSample e.buf (s * mode.nChannels + (fl.chStart.toNat + fc))
  concealed : pkt.concealed = true ↔
    ∃ g e, g < fpp ∧ plain[fpp * k + g]? = some e ∧ e.concealed = true

theorem window_getElem? (pcms : List Pcm) {fpp k g : Nat} (inside : g < fpp) :
    ((pcms.drop (k * fpp)).take fpp)[g]? = pcms[fpp * k + g]? := by
  rw [List.getElem?_take_of_lt inside, List.getElem?_drop, Nat.mul_comm]

theorem WindowPacket.reframes {mode : ReacMode} {fpp i k : Nat} {fl : ReacFlow} {pkt : FlowPacket}
    {pcms : List Pcm} (least : 1 ≤ fpp) (fresh : fl.seq = 0) (slice : fl.Slice mode.nChannels)
    (full : (k + 1) * fpp ≤ pcms.length) (rtp : RtpParams)
    (carries : WindowPacket mode fpp i fl ((pcms.drop (k * fpp)).take fpp) k pkt) :
    ReframedPacket mode fpp fl (pcms.mapIdx (defaultPacket mode rtp)) k pkt := by
  obtain ⟨first, planar, start, holds, buf⟩ := carries.built
  have bound : fpp * k + fpp ≤ pcms.length := by
    rw [Nat.mul_comm fpp k, ← Nat.succ_mul]
    exact full
  have plain (g : Nat) (pcm : Pcm) (member : pcms[fpp * k + g]? = some pcm) :
      (pcms.mapIdx (defaultPacket mode rtp))[fpp * k + g]? =
        some (defaultPacket mode rtp (fpp * k + g) pcm) := by
    rw [List.getElem?_mapIdx, member]
    rfl
  have firstMember : pcms[fpp * k + 0]? = some first := by
    rw [← window_getElem? pcms (by omega), ← List.head?_eq_getElem?, start]
  have atFirst := plain 0 first firstMember
  rw [Nat.add_zero] at atFirst
  have windowMember {g : Nat} (inside : g < fpp) :
      ∃ pcm, pcms[fpp * k + g]? = some pcm ∧ ((pcms.drop (k * fpp)).take fpp)[g]? = some pcm := by
    have exists' : fpp * k + g < pcms.length := by omega
    exact ⟨_, List.getElem?_eq_getElem exists', by
      rw [window_getElem? pcms inside, List.getElem?_eq_getElem exists']⟩
  constructor
  · have parsed := parseRtp_flowPacket
      ⟨fl.payloadType, fl.seq + UInt16.ofNat k, first.rtpTs, fl.ssrc⟩ planar fl.chStart.toNat
      fl.nCh.toNat (fpp * mode.samplesPerPkt)
    rw [← buf, fresh] at parsed
    exact ⟨_, _, _, _, _, atFirst, parseRtp_flowPacket _ _ _ _ _, parsed,
      by simp [RtpParams.header], rfl, rfl, rfl⟩
  · rw [buf, flowPacket_length]
  · intro g inside
    obtain ⟨pcm, member, inWindow⟩ := windowMember inside
    refine ⟨_, plain g pcm member, fun s fc time channel => ?_⟩
    have position : g * mode.samplesPerPkt + s < fpp * mode.samplesPerPkt := rowMajor_lt inside time
    have inMode : fl.chStart.toNat + fc < mode.nChannels := by
      have start := slice.start
      have inside := slice.inside
      omega
    simp only [defaultPacket]
    rw [buf, flowPacket_sample _ _ _ position channel, flowPacket_sample _ _ _ time inMode,
      Nat.zero_add, holds g pcm inWindow _ s inMode time]
  · rw [carries.concealed, List.any_eq_true]
    constructor
    · rintro ⟨pcm, member, flag⟩
      obtain ⟨g, inside, rfl⟩ := List.mem_iff_getElem.mp member
      rw [List.length_take, List.length_drop] at inside
      have member' : pcms[fpp * k + g]? = some ((pcms.drop (k * fpp)).take fpp)[g] := by
        rw [← window_getElem? pcms (by omega), List.getElem?_eq_getElem]
      exact ⟨g, _, by omega, plain g _ member', flag⟩
    · rintro ⟨g, e, inside, member, flag⟩
      obtain ⟨pcm, atSlot, inWindow⟩ := windowMember inside
      obtain rfl : defaultPacket mode rtp (fpp * k + g) pcm = e :=
        Option.some.inj ((plain g pcm atSlot).symm.trans member)
      exact ⟨pcm, List.mem_of_getElem? inWindow, flag⟩

theorem packetize_reframes {mode : ReacMode} {fpp : Nat} {flows : List ReacFlow} (fits : mode.Fits)
    (least : 1 ≤ fpp) (few : fpp ≤ 4)
    (slices : ∀ fl ∈ flows, fl.Slice mode.nChannels ∧ fl.seq = 0) (memory : Block)
    (pcms : List Pcm) (rtp : RtpParams) :
    let sent := (packetize (packetizerInit mode fpp flows memory) pcms).2
    (∀ pkt ∈ sent, pkt.flowIndex < flows.length) ∧
      ∀ i fl, flows[i]? = some fl →
        (sent.filter fun pkt => pkt.flowIndex = i).length = pcms.length / fpp ∧
        ∀ k, k < pcms.length / fpp → ∃ pkt,
          (sent.filter fun pkt => pkt.flowIndex = i)[k]? = some pkt ∧
          ReframedPacket mode fpp fl (pcms.mapIdx (defaultPacket mode rtp)) k pkt := by
  intro sent
  obtain ⟨known, own⟩ := packetize_windows fits least few (fun fl member => (slices fl member).1)
    (packetizerInit mode fpp flows memory) [] 0 (packetizerInit_buffers mode flows memory least few)
    least pcms
  refine ⟨known, fun i fl member => ?_⟩
  have carried := own i fl member
  have count := carried.length_eq
  rw [List.length_zipIdx, windows_length fpp least [] pcms least, List.length_nil, Nat.zero_add]
    at count
  refine ⟨count.symm, fun k inside => ?_⟩
  have complete : (k + 1) * fpp ≤ pcms.length := (Nat.le_div_iff_mul_le least).mp inside
  have window := windows_getElem? fpp least [] pcms least k (by simpa using complete)
  rw [List.nil_append] at window
  have left : k < ((windows fpp [] pcms).zipIdx 0).length := by
    rw [List.length_zipIdx]
    exact (List.getElem?_eq_some_iff.mp window).1
  have right : k < (sent.filter fun pkt => pkt.flowIndex = i).length := lt_of_lt_of_eq inside count
  have carries := carried.get left right
  simp only [List.get_eq_getElem, List.getElem_zipIdx, Nat.zero_add,
    (List.getElem?_eq_some_iff.mp window).2] at carries
  obtain ⟨slice, fresh⟩ := slices fl (List.mem_of_getElem? member)
  exact ⟨_, List.getElem?_eq_getElem right, carries.reframes least fresh slice complete rtp⟩

/-- Frame by frame with a single all-channel flow, the packetizer rebuilds the default packets. -/
theorem packetize_single {mode : ReacMode} (fits : mode.Fits) (payloadType : UInt8)
    (ssrc : UInt32) (memory : Block) (pcms : List Pcm) :
    (packetize (packetizerInit mode 1 [⟨0, mode.nChannels, payloadType, ssrc, 0⟩] memory)
        pcms).2.map (fun pkt => (⟨pkt.buf, pkt.concealed⟩ : Emitted)) =
      pcms.mapIdx (defaultPacket mode ⟨payloadType, 0, 0, ssrc⟩) := by
  let all : ReacFlow := ⟨0, mode.nChannels, payloadType, ssrc, 0⟩
  have whole : all.Slice mode.nChannels :=
    ⟨le_refl 0, Int.natCast_pos.mpr fits.channels, (Int.zero_add _).le⟩
  have start : (packetizerInit mode 1 [all] memory).Buffers mode 1 [all] [] 0 :=
    packetizerInit_buffers mode [all] memory (le_refl 1) (by decide)
  obtain ⟨known, own⟩ := packetize_windows fits (le_refl 1) (by omega)
    (fun fl member => by rw [List.mem_singleton.mp member]; exact whole) _ [] 0 start Nat.one_pos pcms
  have carried := own 0 all rfl
  have only : ∀ pkt ∈ (packetize (packetizerInit mode 1 [all] memory) pcms).2,
      pkt.flowIndex = 0 := fun pkt member => Nat.lt_one_iff.mp (known pkt member)
  rw [windows_one, List.filter_eq_self.mpr (by simpa using only), List.zipIdx_map,
    List.forall₂_map_left_iff] at carried
  have same : List.Forall₂ Eq ((pcms.zipIdx).map fun p =>
        defaultPacket mode ⟨payloadType, 0, 0, ssrc⟩ p.2 p.1)
      ((packetize (packetizerInit mode 1 [all] memory) pcms).2.map
        fun pkt => (⟨pkt.buf, pkt.concealed⟩ : Emitted)) := by
    rw [List.forall₂_map_left_iff, List.forall₂_map_right_iff]
    refine carried.imp fun ⟨pcm, k⟩ pkt carries => ?_
    obtain ⟨first, planar, start, holds, buf⟩ := carries.built
    obtain rfl : pcm = first := by simpa using start
    have flag : pkt.concealed = pcm.concealed := by simpa using carries.concealed
    simp only [Nat.one_mul] at buf
    rw [buf, flag]
    simp only [defaultPacket, all, Emitted.mk.injEq, and_true, Int.toNat_natCast, Int.toNat_zero]
    apply flowPacket_congr
    intro c s channel time
    have frame := holds 0 pcm rfl c s channel time
    rw [Nat.zero_add]
    simpa using frame.symm
  rw [List.forall₂_eq_eq_eq] at same
  rw [List.mapIdx_eq_zipIdx_map]
  exact same.symm

/-- Every flow of a produced table re-frames the default path; together the flows carry each channel
once; the one-frame all-channel table reproduces the default path. -/
theorem dantePath_reframes (mode : ReacMode) (fits : mode.Fits) (plcXfade plcFadePkts : Int)
    (anchor : Option UInt32) (frames : List (List UInt8)) (payloadType : UInt8) (ssrc : UInt32)
    (fpp : Nat) (least : 1 ≤ fpp) (few : fpp ≤ 4) (max chPerFlow n : Int) (flowPt : UInt8)
    (ssrcBase : UInt32) (flows : List ReacFlow) (accepted : 0 ≤ n)
    (produced : danteBuildFlows max mode.nChannels chPerFlow flowPt ssrcBase = some (n, flows))
    (memory : Block) :
    let plain := (pipelineRun
      (startPipeline mode payloadType ssrc plcXfade plcFadePkts anchor) frames).2
    let sent := danteSent (dantePipeline mode flowPt ssrcBase plcXfade plcFadePkts anchor
      (packetizerInit mode fpp flows memory)) frames
    (∀ i fl, flows[i]? = some fl →
      (sent.filter fun pkt => pkt.flowIndex = i).length = plain.length / fpp ∧
      ∀ k, k < plain.length / fpp → ∃ pkt,
        (sent.filter fun pkt => pkt.flowIndex = i)[k]? = some pkt ∧
        ReframedPacket mode fpp fl plain k pkt) ∧
      (∀ pkt ∈ sent, pkt.flowIndex < flows.length) ∧
      (∀ c, c < mode.nChannels → ∃! cell : Nat × Nat, ∃ fl, flows[cell.1]? = some fl ∧
        (cell.2 : Int) < fl.nCh ∧ fl.chStart + cell.2 = c) ∧
      (fpp = 1 → flows.length = 1 → flowPt = payloadType → ssrcBase = ssrc →
        sent.map (fun pkt => (⟨pkt.buf, pkt.concealed⟩ : Emitted)) = plain) := by
  intro plain sent
  obtain ⟨positive, table⟩ := danteBuildFlows_table accepted produced
  have width : 0 < chPerFlow.toNat := by omega
  let pcms := pcmStream mode ⟨mediaClockInitAnchored mode.samplesPerPkt (anchor.getD 0),
    plcInit mode plcFadePkts plcXfade⟩ frames
  have plainPcms : plain = pcms.mapIdx (defaultPacket mode ⟨payloadType, 0, 0, ssrc⟩) :=
    startPipeline_default fits payloadType ssrc plcXfade plcFadePkts anchor frames
  have sentPcms : sent = (packetize (packetizerInit mode fpp flows memory) pcms).2 :=
    dantePipeline_sent mode flowPt ssrcBase plcXfade plcFadePkts anchor _ frames
  have slices := danteBuildFlows_slices accepted produced
  obtain ⟨known, own⟩ := packetize_reframes fits least few slices memory pcms
    ⟨payloadType, 0, 0, ssrc⟩
  refine ⟨?_, ?_, ?_, ?_⟩
  · rw [plainPcms, sentPcms, List.length_mapIdx]
    exact own
  · rw [sentPcms]
    exact known
  · intro c channel
    rw [table]
    exact danteTable_partition flowPt ssrcBase width channel
  · rintro rfl one rfl rfl
    rw [table] at one
    rw [plainPcms, sentPcms, table, danteTable_single width one]
    exact packetize_single fits flowPt ssrcBase memory pcms

def eightWideFlows : List ReacFlow := (List.range 5).map (danteFlow 40 8 96 0x5000)

theorem dantePath_reframes_eightWide :
    let plain := (pipelineRun (startPipeline reacMode48k 97 1 0 0 (some 1000)) lossyCapture).2
    let sent := danteSent (dantePipeline reacMode48k 96 0x5000 0 0 (some 1000)
      (packetizerInit reacMode48k (2 : Nat) eightWideFlows Block.blank)) lossyCapture
    (sent.filter fun pkt => pkt.flowIndex = 4).length = plain.length / 2 := by
  have reframed := dantePath_reframes reacMode48k reacMode48k_fillsFrame.fits 0 0 (some 1000)
    lossyCapture 97 1 2 (by decide) (by decide) 40 8 5 96 0x5000 eightWideFlows (by decide)
    (by decide) Block.blank
  exact (reframed.1 4 _ rfl).1

end ReacAes67
