import ReacAes67.MediaClock
import ReacAes67.Plc
import ReacAes67.RtpL24
import ReacAes67.Shared.Mealy

set_option autoImplicit false

/-!
# The REAC to RTP pipeline

`pipeline_on_frame` decodes a frame, accounts it on the media clock, emits
concealment for the packets lost before it and then the packet itself.
-/

namespace ReacAes67

open SampleBlock

variable {σ τ : Type}

-- The `uint64_t` counters are numbers: `pipelineRun_unwrapped` keeps them below 2 ^ 64.
structure PipelineStats where
  packets : Nat
  concealed : Nat
  lossTotal : Nat
  malformed : Nat
  lastSeq : UInt16
  lastTier : Option PlcTier
deriving DecidableEq, Repr

-- A sink is called with its context, the planar block, its timestamp and the concealed flag;
-- what the call does to the context is its result.
abbrev PcmSink (σ : Type) := σ → Block → UInt32 → Bool → σ

structure Pipeline (σ : Type) where
  mode : ReacMode
  clock : MediaClock
  rtp : RtpParams
  plc : Plc
  stats : PipelineStats
  pcmSink : Option (PcmSink σ)
  pcmCtx : σ

/-- One call of the emit callback. -/
structure Emitted where
  buf : List UInt8
  concealed : Bool
deriving DecidableEq, Repr

def pipelineInitEx (mode : ReacMode) (payloadType : UInt8) (ssrc : UInt32)
    (plcXfade plcFadePkts : Int) : Pipeline Unit :=
  { mode := mode
    clock := mediaClockInit mode.samplesPerPkt
    rtp := { payloadType := payloadType, seq := 0, timestamp := 0, ssrc := ssrc }
    plc := plcInit mode plcFadePkts plcXfade
    stats := { packets := 0, concealed := 0, lossTotal := 0, malformed := 0
               lastSeq := 0, lastTier := none }
    pcmSink := none
    pcmCtx := () }

def pipelineInit (mode : ReacMode) (payloadType : UInt8) (ssrc : UInt32) : Pipeline Unit :=
  pipelineInitEx mode payloadType ssrc 0 0

def pipelineSetPcmSink (pl : Pipeline σ) (fn : Option (PcmSink τ)) (ctx : τ) : Pipeline τ :=
  { mode := pl.mode, clock := pl.clock, rtp := pl.rtp, plc := pl.plc, stats := pl.stats
    pcmSink := fn, pcmCtx := ctx }

def pipelineAnchor (pl : Pipeline σ) (anchor : UInt32) : Pipeline σ :=
  { pl with clock := mediaClockInitAnchored pl.mode.samplesPerPkt anchor }

-- uint8_t pkt[RTP_HEADER_LEN + REAC_MAX_CHANNELS * 24 * 3]
def pktCapacity : Nat := rtpHeaderLen + reacMaxChannels * 24 * 3

def emitPcm (pl : Pipeline σ) (planar : Block) (ts : UInt32) (concealed : Bool) :
    Pipeline σ × List Emitted :=
  let sent : Pipeline σ × List Emitted :=
    match pl.pcmSink with
    | some sink => ({ pl with pcmCtx := sink pl.pcmCtx planar ts concealed }, [])
    | none =>
      let rtp := { pl.rtp with timestamp := ts }
      let out :=
        match rtpL24Build pktCapacity rtp planar pl.mode with
        | some buf => [⟨buf, concealed⟩]
        | none => []
      ({ pl with
         rtp := { rtp with seq := rtp.seq + 1 }
         stats := { pl.stats with lastSeq := rtp.seq } }, out)
  let stats := sent.1.stats
  if concealed then
    ({ sent.1 with stats := { stats with concealed := stats.concealed + 1 } }, sent.2)
  else
    ({ sent.1 with stats := { stats with packets := stats.packets + 1 } }, sent.2)

-- Body of the concealment loop for the lost packet with index `i` in its burst.
def concealOne (step : MediaClockStep) (pl : Pipeline σ) (i : Nat) : Pipeline σ × List Emitted :=
  let cts := step.rtpTs -
    UInt32.ofNat (step.silencePackets - i) * UInt32.ofNat pl.mode.samplesPerPkt
  let fill := plcConceal pl.plc Block.blank i
  emitPcm { pl with stats := { pl.stats with lastTier := some fill.1 } } fill.2 cts true

/-- The result code is 0, or -1 for a malformed frame. -/
def pipelineOnFrame (pl : Pipeline σ) (raw : List UInt8) : Int × (Pipeline σ × List Emitted) :=
  match reacDecode raw pl.mode Block.blank with
  | none => (-1, ({ pl with stats := { pl.stats with malformed := pl.stats.malformed + 1 } }, []))
  | some (_, pcm) =>
    let f := reacFrameInspect raw
    let accounted := mediaClockOnPacket pl.clock f.counter
    let step := accounted.2
    let counted := { pl with
      clock := accounted.1
      stats := { pl.stats with lossTotal := pl.stats.lossTotal + step.silencePackets } }
    let filled := Mealy.run (concealOne step) counted (List.range step.silencePackets)
    let sent := emitPcm filled.1 pcm step.rtpTs false
    (0, ({ sent.1 with plc := plcObserve sent.1.plc pcm }, filled.2 ++ sent.2))

def pipelineRun (pl : Pipeline σ) (frames : List (List UInt8)) : Pipeline σ × List Emitted :=
  Mealy.run (fun pl raw => (pipelineOnFrame pl raw).2) pl frames

end ReacAes67
