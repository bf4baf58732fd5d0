import ReacAes67.DanteSession
import ReacAes67.Sdp
import ReacAes67.SourceNode

set_option autoImplicit false

/-!
# Announced streams

`main` announces the stream of the default profile, or each flow of the Dante
profile, by a description built from its options. The packets are built from
the same options on a path of their own.
-/

namespace ReacAes67

open SampleBlock TextLines Windows

def isSpace (c : Char) : Bool := c == ' ' || (9 ≤ c.toNat && c.toNat ≤ 13)

-- `%u` of `sscanf`: a number too large for `unsigned long` is read as the largest.
def scanUnsigned (text : List Char) : Option (UInt32 × List Char) :=
  let (negative, digits) :=
    match text.dropWhile isSpace with
    | '-' :: rest => (true, rest)
    | '+' :: rest => (false, rest)
    | rest => (false, rest)
  match readNat digits with
  | some (value, rest) =>
    if value ≥ 2 ^ 64 then some (0xffffffff, rest)
    else if negative then some (-UInt32.ofNat value, rest)
    else some (UInt32.ofNat value, rest)
  | none => none

def scanDot : List Char → Option (List Char)
  | '.' :: rest => some rest
  | _ => none

-- `sscanf` with "%u.%u.%u.%u".
def scanIpv4 (base : List Char) : Option (UInt32 × UInt32 × UInt32 × UInt32) := do
  let (a, rest) ← scanUnsigned base
  let (b, rest) ← scanUnsigned (← scanDot rest)
  let (c, rest) ← scanUnsigned (← scanDot rest)
  let (d, _) ← scanUnsigned (← scanDot rest)
  return (a, b, c, d)

def ipv4AddOctet (base : List Char) (add : Nat) : Option (List Char) := do
  let (a, b, c, d) ← scanIpv4 base
  if a > 255 ∨ b > 255 ∨ c > 255 ∨ d > 255 then none
  else
    let last := d + UInt32.ofNat add
    if last > 255 then none
    else
      some (decimal a.toNat ++ ['.'] ++ decimal b.toNat ++ ['.'] ++ decimal c.toNat ++ ['.'] ++
        decimal last.toNat)

def sapMcastAddr : List Char := "224.0.0.56".toList
def sapMcastAddrDante : List Char := "239.255.255.255".toList
def sapPort : UInt16 := 9875

def placeholderClock : List Char := "00-00-00-00-00-00-00-00".toList

/-- The options that reach a stream or its description, with the defaults of `main`. -/
structure Options where
  profileDante : Bool := false
  rate : Int := 48000
  pt : Option Int := none
  ssrc : UInt32 := 0x11223344
  name : Option (List Char) := none
  origin : List Char := "0.0.0.0".toList
  ttl : Int := 1
  plcXfade : Int := 0
  plcFade : Int := 0
  doSap : Bool := true
  udpIp : List Char
  udpPort : UInt16
  aes67Base : List Char := "239.69.10.0".toList
  rtpPort : UInt16 := 5004
  chPerFlow : Int := 8
  gmid : List Char := placeholderClock
  ptpDomain : Int := 0

/-- What is not in the repository: the modes of libreac, the address parser and the sockets. -/
structure Host where
  reacModeFor : Int → ReacMode
  inetPton : List Char → Option (Fin 4 → UInt8)
  sendOpen : List Char → UInt16 → Bool

/-- One mode for each standard rate, each of 40 channels, and one of them for any other rate. -/
structure Host.LibreacModes (host : Host) : Prop where
  standard : ∀ rate ∈ standardRates, host.reacModeFor rate = broadcastMode rate
  known : ∀ rate, ∃ r ∈ standardRates, host.reacModeFor rate = broadcastMode r

def Options.mode (host : Host) (o : Options) : ReacMode :=
  host.reacModeFor (if o.profileDante then 48000 else o.rate)

def Options.payloadType (o : Options) : UInt8 :=
  match o.pt with
  | some v => UInt8.ofInt v
  | none => if o.profileDante then 96 else 97

def announcedName (o : Options) : List Char := o.name.getD "REAC".toList

def sapAnnouncerStart (host : Host) (name mcastIp : List Char) (mcastPort : UInt16)
    (pt rate channels ttl : Int) (originIp : List Char) : Option SapPacket := do
  let sp : SdpParams :=
    { sessionName := name, originIp := originIp, mcastIp := mcastIp, mcastPort := mcastPort.toNat
      payloadType := pt, rate := rate, channels := channels, ttl := ttl
      ptimeMs := 0, tsRefclk := none, mediaclkDirect := 0 }
  let sdp ← sdpBuild 768 sp
  let pkt ← sapBuild host.inetPton 1024 sp.originIp (sapHash sdp) sdp
  if host.sendOpen sapMcastAddr sapPort then some pkt else none

def plainAnnouncement (host : Host) (o : Options) : Option SapPacket :=
  let mode := o.mode host
  if host.sendOpen o.udpIp o.udpPort && o.doSap then
    sapAnnouncerStart host (announcedName o) o.udpIp o.udpPort o.payloadType.toNat mode.sampleRate
      mode.nChannels o.ttl o.origin
  else none

def danteFlowOpen (host : Host) (o : Options) (i : Nat) : Bool :=
  match ipv4AddOctet o.aes67Base i with
  | some fip => host.sendOpen fip o.rtpPort
  | none => false

-- The flows of `run_dante` once every sender is open.
def danteFlows (host : Host) (o : Options) : Option (List ReacFlow) := do
  let (n, flows) ← danteBuildFlows reacMaxChannels (o.mode host).nChannels o.chPerFlow o.payloadType o.ssrc
  if n < 0 then none
  else if (List.range flows.length).all (danteFlowOpen host o) then some flows else none

-- char nm[64] and char gmstr[80]
def danteFlowSdp (host : Host) (o : Options) (i : Nat) (fl : ReacFlow) (fip : List Char) : SdpParams :=
  { sessionName := (announcedName o ++ ['-'] ++ decimal (i + 1)).take 63
    originIp := o.origin
    mcastIp := fip
    mcastPort := o.rtpPort.toNat
    payloadType := fl.payloadType.toNat
    rate := (o.mode host).sampleRate
    channels := fl.nCh
    ttl := o.ttl
    ptimeMs := 1
    tsRefclk := some ((o.gmid ++ [':'] ++ decimal o.ptpDomain).take 79)
    mediaclkDirect := 0 }

def danteAnnouncement (host : Host) (o : Options) (i : Nat) : Option SapPacket := do
  let flows ← danteFlows host o
  let fl ← flows[i]?
  if o.doSap && host.sendOpen sapMcastAddrDante sapPort then
    let fip ← ipv4AddOctet o.aes67Base i
    let sdp ← sdpBuild 768 (danteFlowSdp host o i fl fip)
    sapBuild host.inetPton 1024 o.origin (sapHash sdp) sdp
  else none

inductive Stream where
  | plain
  | flow (i : Nat)
deriving DecidableEq, Repr

def announced (host : Host) (o : Options) : Stream → Option SapPacket
  | .plain => if o.profileDante then none else plainAnnouncement host o
  | .flow i => if o.profileDante then danteAnnouncement host o i else none

-- One turn of the loop of `run_gen_tone`, with the block the generator filled.
def genToneStep (mode : ReacMode) (rtp : RtpParams) (pcm : Block) : RtpParams × List (List UInt8) :=
  ({ rtp with
     seq := rtp.seq + 1
     timestamp := rtp.timestamp + UInt32.ofNat mode.samplesPerPkt },
    (rtpL24Build pktCapacity rtp pcm mode).toList)

inductive MediaSource where
  | captured (frames : List (List UInt8))
  | tone (blocks : List Block)

def plainPackets (host : Host) (o : Options) : MediaSource → List (List UInt8)
  | .captured frames =>
    (pipelineRun (startPipeline (o.mode host) o.payloadType o.ssrc o.plcXfade o.plcFade none)
      frames).2.map (·.buf)
  | .tone blocks => (Mealy.run (genToneStep (o.mode host)) ⟨o.payloadType, 0, 0, o.ssrc⟩ blocks).2

def flowPackets (host : Host) (o : Options) (now : Option Nat) (memory : Block) (i : Nat)
    (frames : List (List UInt8)) : List (List UInt8) :=
  match danteFlows host o,
    runDanteStart (o.mode host) ⟨o.chPerFlow, o.payloadType, o.ssrc⟩ now memory with
  | some _, some (.ok pl) => ((danteSent pl frames).filter fun pkt => pkt.flowIndex = i).map (·.buf)
  | _, _ => []

/-- The packets sent on a stream: of the default profile, or of one flow of the Dante profile. -/
def sentOn (host : Host) (o : Options) (now : Option Nat) (memory : Block) :
    Stream → MediaSource → List (List UInt8)
  | .plain, source => if o.profileDante then [] else plainPackets host o source
  | .flow i, .captured frames => if o.profileDante then flowPackets host o now memory i frames else []
  | .flow _, .tone _ => []

/-- The receiver of the description knows the packet's payload type and length. -/
def Agrees (sdp : List Char) (pkt : List UInt8) : Prop :=
  ∃ media header payload, parseSdp sdp = some media ∧ parseRtp pkt = some (header, payload) ∧
    media.payloadType = header.payloadType ∧
    payload.length = 3 * media.channels * (media.rate * media.ptime / 1000)

theorem agrees_flowPacket {sdp : List Char} {media : SdpMedia} (parsed : parseSdp sdp = some media)
    (p : RtpParams) (planar : Block) (chStart flowNch nSamples : Nat) :
    Agrees sdp (flowPacket p planar chStart flowNch nSamples) ↔
      media.payloadType = p.payloadType.toNat % 128 ∧
        flowNch * nSamples * 3 = 3 * media.channels * (media.rate * media.ptime / 1000) := by
  have packet := parseRtp_flowPacket p planar chStart flowNch nSamples
  have length : ((flowPacket p planar chStart flowNch nSamples).drop rtpHeaderLen).length =
      flowNch * nSamples * 3 := by simp
  constructor
  next =>
    rintro ⟨media', header, payload, parsed', packet', sameType, sameLength⟩
    obtain rfl := Option.some.inj (parsed.symm.trans parsed')
    obtain ⟨rfl, rfl⟩ := Prod.mk.inj (Option.some.inj (packet.symm.trans packet'))
    exact ⟨sameType, length.symm.trans sameLength⟩
  next =>
    rintro ⟨sameType, sameLength⟩
    exact ⟨media, _, _, parsed, packet, sameType, length.trans sameLength⟩

theorem sapBuild_sdp {inetPton : List Char → Option (Fin 4 → UInt8)} {cap : Nat} {originIp sdp : List Char}
    {msgIdHash : UInt16} {sap : SapPacket} (built : sapBuild inetPton cap originIp msgIdHash sdp = some sap) :
    sap.sdp = sdp := by
  simp only [sapBuild, Option.bind_eq_bind, Option.bind_eq_some_iff] at built
  obtain ⟨addr, _, built⟩ := built
  split at built
  next => cases built
  next => rw [← Option.some.inj built]

section Described

variable {host : Host} {o : Options} {sap : SapPacket}

theorem plainAnnouncement_media (made : plainAnnouncement host o = some sap) :
    parseSdp sap.sdp =
      some ⟨o.payloadType.toNat, (o.mode host).sampleRate, (o.mode host).nChannels, 1⟩ := by
  by_cases wanted : host.sendOpen o.udpIp o.udpPort && o.doSap
  next =>
    simp only [plainAnnouncement, if_pos wanted, sapAnnouncerStart, Option.bind_eq_bind,
      Option.bind_eq_some_iff] at made
    obtain ⟨sdp, built, packet, wrapped, made⟩ := made
    split at made
    next =>
      obtain rfl := Option.some.inj made
      rw [sapBuild_sdp wrapped]
      refine parseSdp_sdpBuild o.udpPort.toNat ⟨rfl, rfl, rfl, rfl, rfl, ?_⟩ built
      intro clock absent
      cases absent
    next => cases made
  next => simp [plainAnnouncement, wanted] at made

theorem danteClock_unbroken (clock : Unbroken o.gmid) :
    Unbroken ((o.gmid ++ [':'] ++ decimal o.ptpDomain).take 79) :=
  ((clock.append (literal_unbroken [':'] (by decide))).append (decimal_unbroken _)).take 79

theorem danteAnnouncement_media {i : Nat} (clock : Unbroken o.gmid)
    (made : danteAnnouncement host o i = some sap) :
    ∃ flows fl, danteFlows host o = some flows ∧ flows[i]? = some fl ∧
      (0 ≤ fl.nCh → parseSdp sap.sdp =
        some ⟨fl.payloadType.toNat, (o.mode host).sampleRate, fl.nCh.toNat, 1⟩) := by
  simp only [danteAnnouncement, Option.bind_eq_bind, Option.bind_eq_some_iff] at made
  obtain ⟨flows, opened, fl, member, made⟩ := made
  refine ⟨flows, fl, opened, member, fun width => ?_⟩
  split at made
  next =>
    simp only [Option.bind_eq_some_iff] at made
    obtain ⟨fip, _, sdp, built, wrapped⟩ := made
    rw [sapBuild_sdp wrapped]
    refine parseSdp_sdpBuild o.rtpPort.toNat ⟨rfl, rfl, rfl, (Int.toNat_of_nonneg width).symm, rfl, ?_⟩ built
    rintro text ⟨rfl⟩
    exact danteClock_unbroken clock
  next => cases made

end Described

section Plain

variable {host : Host} {o : Options}

theorem genTone_flowPacket {mode : ReacMode} (fits : mode.Fits) (rtp : RtpParams) (blocks : List Block) :
    ∀ pkt ∈ (Mealy.run (genToneStep mode) rtp blocks).2, ∃ p planar, p.payloadType = rtp.payloadType ∧
      pkt = flowPacket p planar 0 mode.nChannels mode.samplesPerPkt := by
  induction blocks generalizing rtp with
  | nil => simp
  | cons pcm rest ih =>
    intro pkt member
    have built := rtpL24Build_fits rtp pcm fits (fits_pktCapacity fits)
    simp only [Mealy.run_cons, genToneStep, built, Option.toList_some, List.singleton_append,
      List.mem_cons] at member
    rcases member with now | later
    next => exact ⟨rtp, pcm, rfl, now⟩
    next =>
      have after := ih _ pkt later
      simpa using after

theorem plainPackets_flowPacket (fits : (o.mode host).Fits) (source : MediaSource) :
    ∀ pkt ∈ plainPackets host o source, ∃ p planar, p.payloadType = o.payloadType ∧
      pkt = flowPacket p planar 0 (o.mode host).nChannels (o.mode host).samplesPerPkt := by
  cases source with
  | captured frames =>
    intro pkt member
    rw [plainPackets, startPipeline_default fits] at member
    obtain ⟨e, sent, rfl⟩ := List.mem_map.mp member
    obtain ⟨k, inside, rfl⟩ := List.mem_mapIdx.mp sent
    exact ⟨_, _, rfl, rfl⟩
  | tone blocks => exact genTone_flowPacket fits ⟨o.payloadType, 0, 0, o.ssrc⟩ blocks

theorem plainPackets_sends (fits : (o.mode host).Fits) :
    ∃ pkt, pkt ∈ plainPackets host o (.captured ((List.range 1).map (silentSource 0))) := by
  have length := pcmStream_lossFree_length (o.mode host) (silentSource_numbered 0) (f :=
    ⟨mediaClockInitAnchored (o.mode host).samplesPerPkt ((none : Option UInt32).getD 0),
      plcInit (o.mode host) o.plcFade o.plcXfade⟩) rfl 1
  apply List.exists_mem_of_ne_nil
  rw [plainPackets, startPipeline_default fits]
  intro empty
  have none := congrArg List.length empty
  rw [List.length_map, List.length_mapIdx, length] at none
  cases none

theorem plainPackets_disagree (modes : host.LibreacModes) {sap : SapPacket}
    (made : plainAnnouncement host o = some sap) (source : MediaSource) :
    ∀ pkt ∈ plainPackets host o source, ¬ Agrees sap.sdp pkt := by
  intro pkt member agrees
  obtain ⟨rate, standard, mode⟩ := modes.known (if o.profileDante then 48000 else o.rate)
  have broadcast : o.mode host = broadcastMode rate := mode
  have described := plainAnnouncement_media made
  obtain ⟨p, planar, _, rfl⟩ :=
    plainPackets_flowPacket (by rw [broadcast]; exact (broadcastMode_fillsFrame rate).fits) source pkt member
  have length := ((agrees_flowPacket described p planar _ _ _).mp agrees).2
  -- 12 samples of each channel, where 1 ms of them is announced
  simp only [broadcast, broadcastMode, reacMaxChannels, reacSamplesPerPkt] at length
  simp only [standardRates, List.mem_cons, List.not_mem_nil, or_false] at standard
  omega

end Plain

section Dante

variable {host : Host} {o : Options} {flows : List ReacFlow}

theorem danteFlows_built (opened : danteFlows host o = some flows) : ∃ n, 0 ≤ n ∧
    danteBuildFlows reacMaxChannels (o.mode host).nChannels o.chPerFlow o.payloadType o.ssrc =
      some (n, flows) := by
  simp only [danteFlows, Option.bind_eq_bind, Option.bind_eq_some_iff] at opened
  obtain ⟨⟨n, table⟩, built, opened⟩ := opened
  split at opened
  next => cases opened
  next accepted =>
    split at opened
    next =>
      cases opened
      exact ⟨n, by omega, built⟩
    next => cases opened

theorem danteFlows_payloadType (opened : danteFlows host o = some flows) {i : Nat} {fl : ReacFlow}
    (member : flows[i]? = some fl) : fl.payloadType = o.payloadType := by
  obtain ⟨n, accepted, built⟩ := danteFlows_built opened
  obtain ⟨_, rfl⟩ := danteBuildFlows_table accepted built
  obtain ⟨_, rfl⟩ := danteTable_getElem?.mp member
  rfl

theorem flowPackets_packetize (opened : danteFlows host o = some flows) (now : Option Nat)
    (memory : Block) (i : Nat) (frames : List (List UInt8)) :
    flowPackets host o now memory i frames =
      ((packetize (packetizerInit (o.mode host) 4 flows memory) (pcmStream (o.mode host)
        ⟨mediaClockInitAnchored (o.mode host).samplesPerPkt (danteAnchor (o.mode host) now),
          plcInit (o.mode host) 0 0⟩ frames)).2.filter fun pkt => pkt.flowIndex = i).map (·.buf) := by
  obtain ⟨n, accepted, built⟩ := danteFlows_built opened
  have started : runDanteStart (o.mode host) ⟨o.chPerFlow, o.payloadType, o.ssrc⟩ now memory =
      some (.ok (dantePipeline (o.mode host) o.payloadType o.ssrc 0 0
        (some (danteAnchor (o.mode host) now)) (packetizerInit (o.mode host) 4 flows memory))) := by
    simp only [runDanteStart, built, Option.bind_eq_bind, Option.bind_some, if_neg (not_lt.mpr accepted)]
    rfl
  simp only [flowPackets, opened, started, dantePipeline_sent, Option.getD_some]

-- Each window of four frames of the stream is one packet of the flow.
theorem flowPackets_windows (fits : (o.mode host).Fits) (opened : danteFlows host o = some flows)
    (now : Option Nat) (memory : Block) {i : Nat} {fl : ReacFlow} (member : flows[i]? = some fl)
    (frames : List (List UInt8)) :
    List.Forall₂ (fun _ pkt => ∃ p planar, p.payloadType = fl.payloadType ∧
        pkt = flowPacket p planar fl.chStart.toNat fl.nCh.toNat (4 * (o.mode host).samplesPerPkt))
      (windows 4 [] (pcmStream (o.mode host) ⟨mediaClockInitAnchored (o.mode host).samplesPerPkt
        (danteAnchor (o.mode host) now), plcInit (o.mode host) 0 0⟩ frames))
      (flowPackets host o now memory i frames) := by
  obtain ⟨n, accepted, built⟩ := danteFlows_built opened
  have slices := danteBuildFlows_slices accepted built
  have start : (packetizerInit (o.mode host) 4 flows memory).Buffers (o.mode host) 4 flows [] 0 :=
    packetizerInit_buffers (o.mode host) flows memory (by decide) (by decide)
  have carried := (packetize_windows fits (by decide) (by decide) (fun fl inside => (slices fl inside).1)
    _ [] 0 start (by decide) (pcmStream (o.mode host) ⟨mediaClockInitAnchored (o.mode host).samplesPerPkt
      (danteAnchor (o.mode host) now), plcInit (o.mode host) 0 0⟩ frames)).2 i fl member
  rw [flowPackets_packetize opened, List.forall₂_map_right_iff]
  conv => arg 2; rw [← List.zipIdx_map_fst 0 (windows 4 [] _)]
  rw [List.forall₂_map_left_iff]
  refine carried.imp fun wk pkt carries => ?_
  obtain ⟨first, planar, _, _, buf⟩ := carries.built
  exact ⟨_, planar, rfl, buf⟩

theorem flowPackets_flowPacket (fits : (o.mode host).Fits) (opened : danteFlows host o = some flows)
    (now : Option Nat) (memory : Block) {i : Nat} {fl : ReacFlow} (member : flows[i]? = some fl)
    (frames : List (List UInt8)) :
    ∀ pkt ∈ flowPackets host o now memory i frames, ∃ p planar, p.payloadType = fl.payloadType ∧
      pkt = flowPacket p planar fl.chStart.toNat fl.nCh.toNat (4 * (o.mode host).samplesPerPkt) := by
  intro pkt sent
  have carried := flowPackets_windows fits opened now memory member frames
  obtain ⟨k, inside, rfl⟩ := List.mem_iff_getElem.mp sent
  exact carried.get (carried.length_eq ▸ inside) inside

theorem flowPackets_sends (fits : (o.mode host).Fits) (opened : danteFlows host o = some flows)
    (now : Option Nat) (memory : Block) {i : Nat} {fl : ReacFlow} (member : flows[i]? = some fl) :
    ∃ pkt, pkt ∈ flowPackets host o now memory i ((List.range 4).map (silentSource 0)) := by
  have length := pcmStream_lossFree_length (o.mode host) (silentSource_numbered 0) (f :=
    ⟨mediaClockInitAnchored (o.mode host).samplesPerPkt (danteAnchor (o.mode host) now),
      plcInit (o.mode host) 0 0⟩) rfl 4
  have carried := flowPackets_windows fits opened now memory member ((List.range 4).map (silentSource 0))
  have count := carried.length_eq
  rw [windows_length 4 (by decide) [] _ (by decide), length] at count
  exact List.exists_mem_of_length_pos (by omega)

-- Four frames are the announced packet time; the payload type is announced whole and sent in 7 bits.
theorem flowPackets_agree (modes : host.LibreacModes) (profile : o.profileDante = true)
    (clock : Unbroken o.gmid) {sap : SapPacket} {i : Nat} (made : danteAnnouncement host o i = some sap) :
    ∃ flows fl, danteFlows host o = some flows ∧ flows[i]? = some fl ∧
      ∀ now memory frames, ∀ pkt ∈ flowPackets host o now memory i frames,
        (Agrees sap.sdp pkt ↔ o.payloadType.toNat < 128) := by
  obtain ⟨flows, fl, opened, member, described⟩ := danteAnnouncement_media clock made
  refine ⟨flows, fl, opened, member, fun now memory frames pkt sent => ?_⟩
  have broadcast : o.mode host = broadcastMode 48000 := by
    rw [Options.mode, if_pos profile]
    exact modes.standard 48000 (by decide)
  obtain ⟨n, accepted, built⟩ := danteFlows_built opened
  have width := (danteBuildFlows_slices accepted built fl (List.mem_of_getElem? member)).1.width
  have samePt := danteFlows_payloadType opened member
  obtain ⟨p, planar, ownPt, rfl⟩ := flowPackets_flowPacket
    (by rw [broadcast]; exact (broadcastMode_fillsFrame 48000).fits) opened now memory member frames pkt sent
  rw [agrees_flowPacket (described width.le), ownPt, samePt, broadcast]
  simp only [broadcastMode, reacSamplesPerPkt]
  omega

end Dante

section Profiles

variable {host : Host} {o : Options}

theorem announced_plain (profile : o.profileDante = false) :
    announced host o .plain = plainAnnouncement host o := by simp [announced, profile]

theorem announced_flow (profile : o.profileDante = true) (i : Nat) :
    announced host o (.flow i) = danteAnnouncement host o i := by simp [announced, profile]

theorem sentOn_plain (profile : o.profileDante = false) (now : Option Nat) (memory : Block)
    (source : MediaSource) : sentOn host o now memory .plain source = plainPackets host o source := by
  simp [sentOn, profile]

theorem sentOn_flow (profile : o.profileDante = true) (now : Option Nat) (memory : Block) (i : Nat)
    (frames : List (List UInt8)) :
    sentOn host o now memory (.flow i) (.captured frames) = flowPackets host o now memory i frames := by
  simp [sentOn, profile]

end Profiles

/-- In the Dante profile the clock identity is taken as one line. -/
theorem announcement_agrees_iff (host : Host) (modes : host.LibreacModes) (o : Options)
    (clock : o.profileDante = true → Unbroken o.gmid) (stream : Stream) (sap : SapPacket)
    (made : announced host o stream = some sap) :
    (∀ now memory source, ∀ pkt ∈ sentOn host o now memory stream source, Agrees sap.sdp pkt) ↔
      o.profileDante = true ∧ o.payloadType.toNat < 128 := by
  have fits : (o.mode host).Fits := by
    obtain ⟨rate, _, mode⟩ := modes.known (if o.profileDante then 48000 else o.rate)
    rw [Options.mode, mode]
    exact (broadcastMode_fillsFrame rate).fits
  cases profile : o.profileDante with
  | false =>
    cases stream with
    | plain =>
      rw [announced_plain profile] at made
      constructor
      next =>
        intro agree
        obtain ⟨pkt, sent⟩ := plainPackets_sends fits
        have agrees := agree none Block.blank _ pkt (by rw [sentOn_plain profile]; exact sent)
        exact absurd agrees (plainPackets_disagree modes made _ pkt sent)
      next =>
        rintro ⟨dante, _⟩
        cases dante
    | flow i => simp [announced, profile] at made
  | true =>
    cases stream with
    | plain => simp [announced, profile] at made
    | flow i =>
      rw [announced_flow profile] at made
      obtain ⟨flows, fl, opened, member, agree⟩ := flowPackets_agree modes profile (clock profile) made
      constructor
      next =>
        intro all
        obtain ⟨pkt, sent⟩ := flowPackets_sends fits opened none Block.blank member
        have agrees := all none Block.blank (.captured _) pkt (by rw [sentOn_flow profile]; exact sent)
        exact ⟨rfl, (agree none Block.blank _ pkt sent).mp agrees⟩
      next =>
        rintro ⟨_, inRange⟩ now memory source pkt sent
        cases source with
        | captured frames =>
          rw [sentOn_flow profile] at sent
          exact (agree now memory frames pkt sent).mpr inRange
        | tone blocks => cases sent

def libreacHost : Host where
  reacModeFor rate :=
    if rate = 44100 then broadcastMode 44100
    else if rate = 96000 then broadcastMode 96000
    else broadcastMode 48000
  inetPton text := if text = "0.0.0.0".toList then some (fun _ => 0) else none
  sendOpen _ _ := true

theorem libreacHost_modes : libreacHost.LibreacModes where
  standard rate member := by
    simp only [standardRates, List.mem_cons, List.not_mem_nil, or_false] at member
    rcases member with rfl | rfl | rfl <;> rfl
  known rate := by
    simp only [libreacHost]
    split
    next => exact ⟨44100, by decide, rfl⟩
    next =>
      split
      next => exact ⟨96000, by decide, rfl⟩
      next => exact ⟨48000, by decide, rfl⟩

def udpOptions : Options := { udpIp := "239.69.0.1".toList, udpPort := 5004 }

def sevenWideOptions : Options := { udpOptions with profileDante := true, chPerFlow := 7 }

-- The last flow has five of the forty channels.
theorem placeholderClock_unbroken : Unbroken placeholderClock := literal_unbroken _ (by decide)

theorem announcement_agrees_iff_lastFlow :
    ∃ sap, announced libreacHost sevenWideOptions (.flow 5) = some sap ∧
      ∀ now memory source, ∀ pkt ∈ sentOn libreacHost sevenWideOptions now memory (.flow 5) source,
        Agrees sap.sdp pkt := by
  have fits : (announced libreacHost sevenWideOptions (.flow 5)).isSome = true := by decide +kernel
  obtain ⟨sap, made⟩ := Option.isSome_iff_exists.mp fits
  have agree := announcement_agrees_iff libreacHost libreacHost_modes sevenWideOptions
    (fun _ => placeholderClock_unbroken) (.flow 5) sap made
  exact ⟨sap, made, agree.mpr ⟨rfl, by decide⟩⟩

def wideTypeOptions : Options := { sevenWideOptions with pt := some 200 }

-- One frame of the default profile, and the first packet of a Dante flow with payload type 200.
theorem announcement_not_agrees :
    (∃ sap, announced libreacHost udpOptions .plain = some sap ∧
      ∃ pkt ∈ sentOn libreacHost udpOptions none Block.blank .plain
          (.captured ((List.range 1).map (silentSource 0))), ¬ Agrees sap.sdp pkt) ∧
      ∃ sap, announced libreacHost wideTypeOptions (.flow 5) = some sap ∧
        ∃ pkt ∈ sentOn libreacHost wideTypeOptions none Block.blank (.flow 5)
          (.captured ((List.range 4).map (silentSource 0))), ¬ Agrees sap.sdp pkt := by
  have profile : udpOptions.profileDante = false := rfl
  have danteProfile : wideTypeOptions.profileDante = true := rfl
  have mode : udpOptions.mode libreacHost = broadcastMode 48000 := rfl
  have danteMode : wideTypeOptions.mode libreacHost = broadcastMode 48000 := rfl
  have fits := (broadcastMode_fillsFrame 48000).fits
  constructor
  next =>
    have described : (announced libreacHost udpOptions .plain).isSome = true := by decide +kernel
    obtain ⟨sap, made⟩ := Option.isSome_iff_exists.mp described
    obtain ⟨pkt, sent⟩ := plainPackets_sends (o := udpOptions) (by rw [mode]; exact fits)
    rw [announced_plain profile] at made
    rw [announced_plain profile, sentOn_plain profile]
    exact ⟨sap, made, pkt, sent, plainPackets_disagree libreacHost_modes made _ pkt sent⟩
  next =>
    have described : (announced libreacHost wideTypeOptions (.flow 5)).isSome = true := by decide +kernel
    obtain ⟨sap, made⟩ := Option.isSome_iff_exists.mp described
    rw [announced_flow danteProfile] at made
    obtain ⟨flows, fl, opened, member, agree⟩ := 
      flowPackets_agree libreacHost_modes danteProfile placeholderClock_unbroken made
    obtain ⟨pkt, sent⟩ := flowPackets_sends (by rw [danteMode]; exact fits) opened none Block.blank member
    have tooLarge : ¬ wideTypeOptions.payloadType.toNat < 128 := by decide
    rw [announced_flow danteProfile, sentOn_flow danteProfile]
    exact ⟨sap, made, pkt, sent, fun agrees => tooLarge ((agree none Block.blank _ pkt sent).mp agrees)⟩

end ReacAes67
