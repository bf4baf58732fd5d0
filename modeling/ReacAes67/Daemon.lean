import ReacAes67.Destinations
import ReacAes67.PlainDelivery

set_option autoImplicit false

/-!
# The daemon

`main` reads its arguments, settles the rate and goes one way: it prints
descriptions or samples, counts packets, or sends.
-/

namespace ReacAes67

open BoundedPrint Handles TextLines

structure ProcessRun where
  rc : Int
  trace : Trace
  printed : List Char

def Settings.payloadType (s : Settings) : UInt8 := if s.profileDante && !s.ptSet then 96 else s.pt

def Settings.options (s : Settings) (ip : List Char) (port : UInt16) : Options :=
  { profileDante := s.profileDante
    rate := s.rate
    pt := some s.payloadType.toNat
    ssrc := s.ssrc
    name := s.name
    origin := s.origin
    ttl := s.ttl
    plcXfade := s.plcXfade
    plcFade := s.plcFade
    doSap := s.doSap
    udpIp := ip
    udpPort := port
    aes67Base := s.aes67Base
    rtpPort := s.rtpPort
    chPerFlow := s.chPerFlow
    gmid := s.gmid
    ptpDomain := s.ptpDomain }

-- The flows of the Dante profile do not go to `--udp`.
def Settings.danteOptions (s : Settings) : Options := s.options [] 0

def Settings.danteLaunch (s : Settings) (countOnly : Bool) : DanteLaunch :=
  { pcap := s.pcap
    iface := if countOnly then none else s.iface
    egress := s.ifaceEgress
    mediaDscp := s.mediaDscp
    countOnly := countOnly }

def Settings.plainLaunch (s : Settings) (udp : List Char) : PlainLaunch :=
  { pcap := s.pcap
    iface := s.iface
    egress := s.ifaceEgress
    udp := udp
    mediaDscp := s.mediaDscp
    bcastOnly := s.bcastOnly
    genTone := s.genTone
    toneFreq := s.toneFreq
    toneDetune := s.toneDetune }

-- `--rate auto` listens for a while before anything else is opened.
def resolveRate (env : Surroundings) (s : Settings) : Settings × Trace :=
  match s.iface with
  | some ifname =>
    if s.rateAuto && !s.profileDante && (env.capture ifname).isSome then
      (if 0 < env.detectRate ifname then { s with rate := env.detectRate ifname } else s,
        [.opened .capture (.packetSocket ifname), .used .capture (.detected (env.detectRate ifname)),
          .closed .capture])
    else (s, [])
  | none => (s, [])

/-! ## Printing -/

-- "# flow %d  %s  ch %d-%d\r\n"
def flowHeader (i : Nat) (fl : ReacFlow) (fip : List Char) : List Char :=
  "# flow ".toList ++ decimal i ++ "  ".toList ++ fip ++ "  ch ".toList ++ decimal fl.chStart ++ "-".toList ++
    decimal (fl.chStart + fl.nCh - 1) ++ "\r\n".toList

def printFlow (host : Host) (o : Options) (i : Nat) (fl : ReacFlow) : Except Int (List Char) :=
  match ipv4AddOctet o.aes67Base i with
  | none => .error 2
  | some fip =>
    match sdpBuild 1024 (danteFlowSdp host o i fl fip) with
    | none => .error 1
    | some sdp => .ok (flowHeader i fl fip ++ sdp ++ "\r\n".toList)

-- What was printed before a flow fails stays printed.
def printFlows (host : Host) (o : Options) : List (ReacFlow × Nat) → Int × List Char
  | [] => (0, [])
  | (fl, i) :: flows =>
    match printFlow host o i fl with
    | .error rc => (rc, [])
    | .ok text =>
      let rest := printFlows host o flows
      (rest.1, text ++ rest.2)

def printDante (host : Host) (o : Options) : Option ProcessRun := do
  let (n, flows) ← danteBuildFlows reacMaxChannels (o.mode host).nChannels o.chPerFlow o.payloadType o.ssrc
  if n < 0 then return ⟨2, [], []⟩
  else
    let printed := printFlows host o (flows.zipIdx 0)
    return ⟨printed.1, [], printed.2⟩

def plainSdp (host : Host) (o : Options) : SdpParams :=
  let mode := o.mode host
  { sessionName := announcedName o, originIp := o.origin, mcastIp := o.udpIp, mcastPort := o.udpPort.toNat
    payloadType := o.payloadType.toNat, rate := mode.sampleRate, channels := mode.nChannels, ttl := o.ttl
    ptimeMs := 0, tsRefclk := none, mediaclkDirect := 0 }

def printPlain (host : Host) (s : Settings) : Option ProcessRun :=
  match s.udp with
  | none => some ⟨2, [], []⟩
  | some udp => do
    match ← parseIpport 64 udp with
    | none => return ⟨2, [], []⟩
    | some (ip, port) =>
      match sdpBuild 1024 (plainSdp host (s.options ip port)) with
      | none => return ⟨1, [], []⟩
      | some text => return ⟨0, [], text⟩

-- `v |= ~0xffffff` below the sign bit of 24 bits
def sampleValue (p : SampleBlock.Sample) : Int :=
  let v := p.b0.toNat ||| p.b1.toNat <<< 8 ||| p.b2.toNat <<< 16
  if v &&& 0x800000 ≠ 0 then (v : Int) - 0x1000000 else v

def dumpFrame (mode : ReacMode) (frame : Nat) (buf : List UInt8) : List Char :=
  match reacDecode buf mode SampleBlock.Block.blank with
  | none => "frame ".toList ++ decimal frame ++ ": MALFORMED\n".toList
  | some (ns, pcm) =>
    "frame ".toList ++ decimal frame ++ " seq ".toList ++ decimal (reacFrameInspect buf).counter.toNat ++
      ":".toList ++
      (List.range (mode.nChannels * ns)).flatMap (fun i => ' ' :: decimal (sampleValue (pcm.sample i))) ++
      "\n".toList

def dumpSamples (env : Surroundings) (mode : ReacMode) (path : List Char) : Option ProcessRun :=
  match env.file path with
  | none => some ⟨1, [], []⟩
  | some bytes =>
    match pcapSourceOpen bytes with
    | none => some ⟨1, replayTrace path [], []⟩
    | some ps => do
      let (frames, _) ← pcapWhile env.long captureBytes env.fuel ps
      -- `frame` is an `int`
      let _ ← CInt.checked frames.length
      return {
        rc := 0
        trace := replayTrace path (frames.map (fun buf => takeRecord (some buf)) ++ [takeRecord none])
        printed := (frames.mapIdx (dumpFrame mode)).flatten }

/-! ## Counting -/

def countPlain (env : Surroundings) (mode : ReacMode) (pt : UInt8) (ssrc : UInt32) (path : List Char) :
    Option ProcessRun := do
  let run ← replayRun env (fun _ _ => []) (pipelineInit mode pt ssrc) path
  let emitted := (pipelineRun (pipelineInit mode pt ssrc) run.fed).2
  let total ← CInt.checked emitted.length
  let concealed ← CInt.checked (emitted.countP (·.concealed))
  return ⟨run.rc, run.trace, "rtp_packets ".toList ++ decimal total ++ " concealed ".toList ++
    decimal concealed ++ "\n".toList⟩

def countDante (host : Host) (s : Settings) (env : Surroundings) : Option ProcessRun := do
  let o := s.danteOptions
  let (n, _) ← danteBuildFlows reacMaxChannels (o.mode host).nChannels o.chPerFlow o.payloadType o.ssrc
  let run ← runDante host o (s.danteLaunch true) env
  return ⟨run.rc, run.trace, if n < 0 then [] else
    "rtp_packets ".toList ++ decimal run.count ++ " flows ".toList ++ decimal n ++ "\n".toList⟩

/-! ## The ways of the process -/

def sendDante (host : Host) (s : Settings) (env : Surroundings) : Option ProcessRun :=
  if s.pcap.isNone && s.iface.isNone then some ⟨2, [], []⟩
  else (runDante host s.danteOptions (s.danteLaunch false) env).map fun run => ⟨run.rc, run.trace, []⟩

def sendPlain (host : Host) (s : Settings) (env : Surroundings) : Option ProcessRun :=
  match s.udp with
  | none => some ⟨2, [], []⟩
  | some udp => do
    match ← parseIpport 64 udp with
    | none => return ⟨2, [], []⟩
    | some (ip, port) =>
      let run ← runPlain host (s.options ip port) (s.plainLaunch udp) env
      return ⟨run.rc, run.trace, []⟩

def dispatch (host : Host) (env : Surroundings) (s : Settings) : Option ProcessRun :=
  if s.doSdp then
    if s.profileDante then printDante host s.danteOptions else printPlain host s
  else if s.doDump then
    match s.pcap with
    | none => some ⟨2, [], []⟩
    | some path => dumpSamples env (s.danteOptions.mode host) path
  else if s.doCount then
    match s.pcap with
    | none => some ⟨2, [], []⟩
    | some path =>
      if s.profileDante then countDante host s env
      else countPlain env (s.danteOptions.mode host) s.payloadType s.ssrc path
  else if s.profileDante then sendDante host s env
  else sendPlain host s env

/-- `none` for what C leaves undefined and for what does not end. -/
def mainProcess (host : Host) (env : Surroundings) (argv : List (List Char)) : Option ProcessRun :=
  match parseArgs env.long {} argv with
  | .undefined => none
  | .unknown _ => some ⟨2, [], []⟩
  | .settings s =>
    let (s, listened) := resolveRate env s
    (dispatch host env s).map fun run => { run with trace := listened ++ run.trace }

end ReacAes67
