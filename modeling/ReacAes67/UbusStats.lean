import ReacAes67.CaptureLoops

set_option autoImplicit false

/-!
# The status object

A live stream registers an object on the bus. Its status method answers from the
latest snapshot, which a timer takes; the counters are never read directly.
-/

namespace ReacAes67

def tierName : Option PlcTier → List Char
  | some .repeatXfade => "crossfade".toList
  | some .burstFade => "burst_fade".toList
  | some .holdLast => "hold_last".toList
  | some .silence => "silence".toList
  | none => "clean".toList

structure UbusStats where
  objname : List Char
  name : List Char
  iface : List Char
  mcast : List Char
  ssrc : List Char
  rate : Int
  channels : Int
  stats : PipelineStats
  pps : Int
  uptime : UInt32

structure StatusReply where
  name : List Char
  iface : List Char
  rate : Int
  channels : Int
  mcast : List Char
  ssrc : List Char
  running : Bool
  uptimeS : UInt32
  packetsPerSec : Int
  rtpSeq : UInt16
  lossTotal : Nat
  packets : Nat
  concealed : Nat
  plcTier : List Char
deriving DecidableEq, Repr

def statusCb (h : UbusStats) : StatusReply :=
  { name := h.name
    iface := h.iface
    rate := h.rate
    channels := h.channels
    mcast := h.mcast
    ssrc := h.ssrc
    running := true
    uptimeS := h.uptime
    packetsPerSec := h.pps
    rtpSeq := h.stats.lastSeq
    lossTotal := h.stats.lossTotal
    packets := h.stats.packets
    concealed := h.stats.concealed
    plcTier := tierName h.stats.lastTier }

-- `calloc` leaves zeros, and tier 0 is the first one.
def ubusStatsStart (name iface : List Char) (rate channels : Int) (mcast ssrc : List Char) : UbusStats :=
  { objname := ("reac-aes67.".toList ++ name.take 31).take 63
    name := name.take 31
    iface := iface.take 15
    mcast := mcast.take 31
    ssrc := ssrc.take 15
    rate := rate
    channels := channels
    stats := ⟨0, 0, 0, 0, 0, some .repeatXfade⟩
    pps := 0
    uptime := 0 }

def ubusStatsUpdate (h : UbusStats) (s : PipelineStats) (packetsPerSec : Int) (uptimeS : UInt32) : UbusStats :=
  { h with stats := s, pps := packetsPerSec, uptime := uptimeS }

/-- A callback of the event loop: the capture socket has become readable, the timer has run out, or
somebody asks for the status. -/
inductive LoopEvent where
  | readable (arrived : List RecvEvent)
  | publish
  | status
deriving DecidableEq, Repr

/-- A listening process inside its event loop. -/
structure Listening (σ : Type) where
  live : Live σ
  us : UbusStats

variable {σ : Type}

def listenOnPublish (s : Listening σ) : UbusStats :=
  let pps := pps s.live.pl.mode
  ubusStatsUpdate s.us s.live.pl.stats pps (UInt32.ofNat (s.live.shown / if pps ≠ 0 then pps else 1))

end ReacAes67
