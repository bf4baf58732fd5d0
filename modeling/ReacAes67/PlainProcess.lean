import ReacAes67.Process

set_option autoImplicit false

/-!
# The process of the default profile

With one destination the process replays a file, listens to an interface or
generates a tone. The media socket is open around all three, and a listening
process runs either in the event loop of its bus or in a loop of its own.
-/

namespace ReacAes67

open BoundedLoop Handles SampleBlock WrappedCounter

variable {σ : Type}

/-- What `main` passes on next to the options of its stream. -/
structure PlainLaunch where
  pcap : Option (List Char)
  iface : Option (List Char)
  egress : Option (List Char)
  udp : List Char
  mediaDscp : Int
  bcastOnly : Bool
  genTone : Bool
  toneFreq : Int
  toneDetune : Int

structure PlainRun where
  rc : Int
  trace : Trace
  source : MediaSource

-- `emit_udp`
def emitUdp (emitted : List Emitted) : Trace := emitted.map fun e => sendPacket (.media 0) e.buf

def plainOnFrame (pl : Pipeline σ) (buf : List UInt8) : Trace := emitUdp (pipelineOnFrame pl buf).2.2

def runPcap (env : Surroundings) (mode : ReacMode) (pt : UInt8) (ssrc : UInt32) (path : List Char) :
    Option PlainRun := do
  let run ← replayRun env plainOnFrame (pipelineInit mode pt ssrc) path
  return ⟨run.rc, run.trace, .captured run.fed⟩

/-! ## Listening -/

def plainRound (sap : Option SapPacket) : Trace := announceAll sap.toList

def plainSapOpen (o : Options) (egress : Option (List Char)) (sap : Option SapPacket) : Trace :=
  if sap.isSome then [.opened .sap (aes67Sender sapMcastAddr sapPort o.ttl egress)] else []

def plainSapClose (sap : Option SapPacket) : Trace := if sap.isSome then [.closed .sap] else []

-- The announcer is open while `sent` goes out, and announces once at its start.
def aroundSap (o : Options) (egress : Option (List Char)) (sap : Option SapPacket) (sent : Trace) : Trace :=
  plainSapOpen o egress sap ++ plainRound sap ++ sent ++ plainSapClose sap

-- "%08x"
def hex8 (v : UInt32) : List Char :=
  let digits := Nat.toDigits 16 v.toNat
  List.replicate (8 - digits.length) '0' ++ digits

-- One turn of the loop in `listen_on_readable`. A socket without anything to read is an idle one.
def drainTurn (bcastOnly : Bool) (s : Traced σ) : Traced σ ⊕ Traced σ :=
  match s.live.capture true with
  | none => .inr { s with trace := s.trace ++ [receive .idle] }
  | some (.frame buf, live) =>
    let read := s.trace ++ [receive (.frame buf)]
    if !frameWanted bcastOnly buf then .inl { live := live, trace := read }
    else
      .inl { live := { live.onFrame buf with counted := live.counted + 1 }
             trace := read ++ plainOnFrame live.pl buf }
  | some (result, live) => .inr { live := live, trace := s.trace ++ [receive result] }

def drain (bcastOnly : Bool) (live : Live σ) : Option (Traced σ) :=
  loop (fun s => some (drainTurn bcastOnly s)) (live.script.length + 1) ⟨live, []⟩

-- One callback of the event loop. The drain of a readable socket ends by itself, so there is always a
-- next state.
def loopStep (bcastOnly : Bool) (round : Trace) (s : Listening σ) : LoopEvent → Listening σ × Trace
  | .readable arrived =>
    match drain bcastOnly { s.live with script := s.live.script ++ arrived } with
    | some drained => ({ s with live := drained.live }, drained.trace)
    | none => (s, [])
  | .publish => ({ s with us := listenOnPublish s }, round)
  | .status => (s, [.used .bus (.reply (statusCb s.us))])

-- A listening process with its capture open and its object on the bus.
def listenStart (host : Host) (o : Options) (cfg : PlainLaunch) (long : LongWidth) (ifname : List Char)
    (script : List RecvEvent) : Listening Unit :=
  let mode := o.mode host
  { live := Live.start long (pipelineInitEx mode o.payloadType o.ssrc o.plcXfade o.plcFade) script
    us := ubusStatsStart (o.name.getD ifname) ifname mode.sampleRate mode.nChannels cfg.udp (hex8 o.ssrc) }

-- What it does then, in the loop of its bus or in its own.
def listenLoop (cfg : PlainLaunch) (env : Surroundings) (round : Trace) (start : Listening Unit) :
    Option (Trace × List (List UInt8)) :=
  match env.eventLoop with
  | some events =>
    let run := Mealy.run (loopStep cfg.bcastOnly round) start events
    some (.used .capture (.nonblock true) :: run.2, run.1.live.passed)
  | none =>
    (capturedLoop (frameWanted cfg.bcastOnly) plainOnFrame round env.gStop ⟨start.live, []⟩).map fun s =>
      (.used .capture (.nonblock true) :: .used .capture (.nonblock false) :: s.trace, s.live.passed)

def onBus (env : Surroundings) (us : UbusStats) (inner : Trace) : Trace :=
  if env.eventLoop.isSome then .opened .bus (.busObject us.objname) :: inner ++ [.closed .bus] else inner

def runListen (host : Host) (o : Options) (cfg : PlainLaunch) (env : Surroundings) (ifname : List Char) :
    Option PlainRun :=
  match env.capture ifname with
  | none => some ⟨1, [], .captured []⟩
  | some script => do
    let start := listenStart host o cfg env.long ifname script
    let sap := plainAnnouncement host o
    let (sent, fed) ← listenLoop cfg env (plainRound sap) start
    let inner := onBus env start.us (aroundSap o cfg.egress sap sent)
    return ⟨0, .opened .capture (.packetSocket ifname) :: inner ++ [.closed .capture], .captured fed⟩

/-! ## The tone -/

structure ToneRun where
  rtp : RtpParams
  blocks : List Block
  trace : Trace

def genToneTurn (long : LongWidth) (mode : ReacMode) (tone : Nat → Block) (round : Trace) (gStop : Nat → Bool)
    (s : ToneRun) : ToneRun ⊕ ToneRun :=
  if gStop s.blocks.length then .inr s
  else
    let pcm := tone s.blocks.length
    let next := genToneStep mode s.rtp pcm
    let count := s.blocks.length + 1
    .inl { rtp := next.1
           blocks := s.blocks ++ [pcm]
           trace := s.trace ++ next.2.map (sendPacket (.media 0)) ++
             if 0 < pps mode ∧ due (2 ^ long.bits) (pps mode) count then round else [] }

def runGenTone (host : Host) (o : Options) (cfg : PlainLaunch) (env : Surroundings) : Option PlainRun := do
  let mode := o.mode host
  let sap := plainAnnouncement host o
  let s ← loop (fun s => some (genToneTurn env.long mode (env.tone cfg.toneFreq cfg.toneDetune) (plainRound sap)
    env.gStop s)) env.fuel ⟨⟨o.payloadType, 0, 0, o.ssrc⟩, [], []⟩
  return ⟨0, aroundSap o cfg.egress sap s.trace, .tone s.blocks⟩

/-! ## The whole process -/

def plainSender (o : Options) (cfg : PlainLaunch) : Opening := aes67Sender o.udpIp o.udpPort o.ttl cfg.egress

def plainInner (host : Host) (o : Options) (cfg : PlainLaunch) (env : Surroundings) : Option PlainRun :=
  if cfg.genTone then runGenTone host o cfg env
  else
    match cfg.iface, cfg.pcap with
    | some ifname, _ => runListen host o cfg env ifname
    | none, some path => runPcap env (o.mode host) o.payloadType o.ssrc path
    | none, none => some ⟨2, [], .captured []⟩

-- `main` from the opening of its media socket on.
def runPlain (host : Host) (o : Options) (cfg : PlainLaunch) (env : Surroundings) : Option PlainRun :=
  if host.sendOpen o.udpIp o.udpPort then do
    let inner ← plainInner host o cfg env
    return { inner with
      trace := .opened (.media 0) (plainSender o cfg) :: .used (.media 0) (.tos (dscpTos cfg.mediaDscp)) ::
        inner.trace ++ [.closed (.media 0)] }
  else some ⟨1, [], .captured []⟩

end ReacAes67
