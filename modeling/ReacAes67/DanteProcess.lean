import ReacAes67.Process
import ReacAes67.SapFlows
import Mathlib.Data.List.TakeWhile

set_option autoImplicit false

/-!
# The Dante process

`run_dante` opens one sender for each flow and one for the announcements, feeds
the pipeline from a file or a live capture, and closes what it opened, whatever
has failed.
-/

namespace ReacAes67

open Handles SampleBlock

/-- What `run_dante` is called with, next to the options of its streams. -/
structure DanteLaunch where
  pcap : Option (List Char)
  iface : Option (List Char)
  egress : Option (List Char)
  mediaDscp : Int
  countOnly : Bool

structure DanteRun where
  rc : Int
  trace : Trace
  fed : List (List UInt8)
  count : Int

-- `dante_emit`; there are no senders when the packets are only counted.
def danteEmit (senders : Nat) (pkts : List FlowPacket) : Trace :=
  (pkts.filter fun pkt => pkt.flowIndex < senders).map fun pkt => sendPacket (.media pkt.flowIndex) pkt.buf

-- What the sink's callback sends while one frame goes through the pipeline.
def danteOnFrame (senders : Nat) (pl : Pipeline DanteSinkCtx) (buf : List UInt8) : Trace :=
  danteEmit senders ((pipelineOnFrame pl buf).2.1.pcmCtx.sent.drop pl.pcmCtx.sent.length)

def flowSender (o : Options) (cfg : DanteLaunch) (i : Nat) : Opening :=
  aes67Sender ((ipv4AddOctet o.aes67Base i).getD []) o.rtpPort o.ttl cfg.egress

def openFlow (o : Options) (cfg : DanteLaunch) (i : Nat) : Trace :=
  [.opened (.media i) (flowSender o cfg i), .used (.media i) (.tos (dscpTos cfg.mediaDscp))]

def closeFlows (opened : List Nat) : Trace := (opened.map Descriptor.media).map .closed

def danteSapPacket (host : Host) (o : Options) (i : Nat) (fl : ReacFlow) : Option SapPacket := do
  let fip ← ipv4AddOctet o.aes67Base i
  let sdp ← sdpBuild 768 (danteFlowSdp host o i fl fip)
  sapBuild host.inetPton 1024 o.origin (sapHash sdp) sdp

-- `dante_sap_announce` skips a flow without an announcement.
def danteSapAnnounce (host : Host) (o : Options) (flows : List ReacFlow) : Trace :=
  announceAll ((flows.zipIdx 0).filterMap fun fl => danteSapPacket host o fl.2 fl.1)

def dantePipelineOf (mode : ReacMode) (o : Options) (flows : List ReacFlow) (env : Surroundings) :
    Pipeline DanteSinkCtx :=
  pipelineSetPcmSink
    (pipelineAnchor (pipelineInit mode o.payloadType o.ssrc) (danteAnchor mode env.now))
    (some dantePcmSink) ⟨packetizerInit mode 4 flows env.memory, []⟩

/-- The part of `run_dante` between its first announcement and its clean-up. -/
def danteFeed (env : Surroundings) (cfg : DanteLaunch) (senders : Nat) (round : Trace)
    (pl : Pipeline DanteSinkCtx) : Option (SourceRun DanteSinkCtx) :=
  match cfg.pcap, cfg.iface with
  | some path, _ => replayRun env (danteOnFrame senders) pl path
  | none, some ifname => captureRun env (fun _ => true) (danteOnFrame senders) round pl ifname
  | none, none => some ⟨0, [], [], pl⟩

-- The flows that get a sender.
def danteWanted (cfg : DanteLaunch) (flows : List ReacFlow) : List Nat :=
  if cfg.countOnly then [] else List.range flows.length

def danteSapOk (host : Host) (o : Options) (cfg : DanteLaunch) : Bool :=
  !cfg.countOnly && o.doSap && host.sendOpen sapMcastAddrDante sapPort

def danteRound (host : Host) (o : Options) (cfg : DanteLaunch) (flows : List ReacFlow) : Trace :=
  if danteSapOk host o cfg then danteSapAnnounce host o flows else []

def danteSapOpen (host : Host) (o : Options) (cfg : DanteLaunch) : Trace :=
  if danteSapOk host o cfg then [.opened .sap (aes67Sender sapMcastAddrDante sapPort o.ttl cfg.egress)] else []

def danteSapClose (host : Host) (o : Options) (cfg : DanteLaunch) : Trace :=
  if danteSapOk host o cfg then [.closed .sap] else []

/-- `none` where the flow table or the count of packets overflows or the replay does not end. -/
def runDante (host : Host) (o : Options) (cfg : DanteLaunch) (env : Surroundings) : Option DanteRun := do
  let mode := o.mode host
  let (n, flows) ← danteBuildFlows reacMaxChannels mode.nChannels o.chPerFlow o.payloadType o.ssrc
  if n < 0 then return ⟨2, [], [], 0⟩
  else
    let opened := (danteWanted cfg flows).takeWhile (danteFlowOpen host o)
    if opened.length < (danteWanted cfg flows).length then
      return ⟨1, opened.flatMap (openFlow o cfg) ++ closeFlows opened, [], 0⟩
    else
      let round := danteRound host o cfg flows
      let run ← danteFeed env cfg opened.length round (dantePipelineOf mode o flows env)
      -- `dante_emit` counts every packet, sent or not
      let count ← CInt.checked run.pl.pcmCtx.sent.length
      return {
        rc := run.rc
        trace := opened.flatMap (openFlow o cfg) ++
          (danteSapOpen host o cfg ++ round ++ run.trace ++ danteSapClose host o cfg) ++ closeFlows opened
        fed := run.fed
        count := count }

section Balance

variable {o : Options} {cfg : DanteLaunch} {env : Surroundings}

-- The sockets that are open while frames are fed.
def danteSockets (senders : Nat) (sapOk : Bool) : Set Descriptor :=
  {d | (∃ i < senders, d = .media i) ∨ sapOk = true ∧ d = .sap}

theorem danteOnFrame_emits (senders : Nat) {sapOk : Bool} {round : Trace}
    (sapOnly : UsesOnly (danteSockets senders sapOk ∩ {.sap}) round) :
    Emits (danteSockets senders sapOk) (danteOnFrame senders) round where
  media pl buf := by
    intro event member
    obtain ⟨pkt, kept, rfl⟩ := List.mem_map.mp member
    have inside : pkt.flowIndex < senders := by simpa using (List.mem_filter.mp kept).2
    exact ⟨.media pkt.flowIndex, ⟨.inl ⟨_, inside, rfl⟩, by simp⟩, _, rfl⟩
  sap := sapOnly

theorem openFlows_runs (o : Options) (cfg : DanteLaunch) {opened : List Nat} (distinct : opened.Nodup) :
    Runs ∅ (opened.flatMap (openFlow o cfg)) {d | d ∈ opened.map Descriptor.media} := by
  have sockets : (opened.map Descriptor.media).Nodup :=
    distinct.map fun _ _ same => Descriptor.media.inj same
  have own (i : Nat) :
      UsesOnly {Descriptor.media i} ([.used (.media i) (.tos (dscpTos cfg.mediaDscp))] : Trace) :=
    fun event member => ⟨.media i, rfl, _, List.mem_singleton.mp member⟩
  have run := Runs.openAll (flowSender o cfg) own sockets fun _ _ => Set.notMem_empty _
  rw [Set.empty_union] at run
  exact run

theorem closeFlows_runs {opened : List Nat} (distinct : opened.Nodup) :
    Runs {d | d ∈ opened.map Descriptor.media} (closeFlows opened) ∅ := by
  have sockets : (opened.map Descriptor.media).Nodup :=
    distinct.map fun _ _ same => Descriptor.media.inj same
  have run := Runs.closeAll (S := ∅) (ο := Opening) (μ := Action) sockets fun _ _ => Set.notMem_empty _
  rw [Set.empty_union] at run
  exact run

theorem danteFeed_sends {senders : Nat} {sapOk : Bool} {round : Trace} {pl : Pipeline DanteSinkCtx}
    {run : SourceRun DanteSinkCtx} (emits : Emits (danteSockets senders sapOk) (danteOnFrame senders) round)
    (done : danteFeed env cfg senders round pl = some run) :
    run.Sends (danteSockets senders sapOk) (danteOnFrame senders) round pl := by
  have noReplay : Descriptor.replay ∉ danteSockets senders sapOk := by simp [danteSockets]
  have noCapture : Descriptor.capture ∉ danteSockets senders sapOk := by simp [danteSockets]
  unfold danteFeed at done
  split at done
  next path _ _ => exact (replayRun_sends emits noReplay done).1
  next ifname _ _ => exact (captureRun_sends emits noCapture done).1
  next =>
    cases done
    exact .none (.inl rfl) .nil (fun _ _ _ => rfl) fun _ _ => rfl

end Balance

section Run

variable {host : Host} {o : Options} {cfg : DanteLaunch} {env : Surroundings} {run : DanteRun}

/-- A run that got as far as its frames. -/
structure DanteFed (host : Host) (o : Options) (cfg : DanteLaunch) (env : Surroundings) (flows : List ReacFlow)
    (run : DanteRun) (source : SourceRun DanteSinkCtx) : Prop where
  opened : (danteWanted cfg flows).all (danteFlowOpen host o) = true
  fed : danteFeed env cfg (danteWanted cfg flows).length (danteRound host o cfg flows)
    (dantePipelineOf (o.mode host) o flows env) = some source
  counted : CInt.InRange source.pl.pcmCtx.sent.length
  outcome : run = {
    rc := source.rc
    trace := (danteWanted cfg flows).flatMap (openFlow o cfg) ++
      (danteSapOpen host o cfg ++ danteRound host o cfg flows ++ source.trace ++ danteSapClose host o cfg) ++
      closeFlows (danteWanted cfg flows)
    fed := source.fed
    count := source.pl.pcmCtx.sent.length }

theorem takeWhile_short {xs : List Nat} {p : Nat → Bool} (whole : ¬ (xs.takeWhile p).length < xs.length) :
    xs.takeWhile p = xs ∧ xs.all p = true := by
  have same : xs.takeWhile p = xs :=
    (List.takeWhile_prefix p).eq_of_length (le_antisymm (List.takeWhile_prefix p).length_le (not_lt.mp whole))
  exact ⟨same, List.all_eq_true.mpr fun x member => List.takeWhile_eq_self_iff.mp same x member⟩

-- The table is refused, a sender cannot be opened, or frames are fed.
theorem runDante_cases (done : runDante host o cfg env = some run) :
    ∃ n flows, danteBuildFlows reacMaxChannels (o.mode host).nChannels o.chPerFlow o.payloadType o.ssrc =
        some (n, flows) ∧
      (n < 0 ∧ run = ⟨2, [], [], 0⟩ ∨
        0 ≤ n ∧ (∃ opened, opened = (danteWanted cfg flows).takeWhile (danteFlowOpen host o) ∧
          opened.length < (danteWanted cfg flows).length ∧
          run = ⟨1, opened.flatMap (openFlow o cfg) ++ closeFlows opened, [], 0⟩) ∨
        0 ≤ n ∧ ∃ source, DanteFed host o cfg env flows run source) := by
  simp only [runDante, Option.bind_eq_bind, Option.bind_eq_some_iff] at done
  obtain ⟨⟨n, flows⟩, built, done⟩ := done
  refine ⟨n, flows, built, ?_⟩
  simp only at done
  by_cases refused : n < 0
  next =>
    rw [if_pos refused] at done
    exact .inl ⟨refused, (Option.some.inj done).symm⟩
  next =>
    rw [if_neg refused] at done
    by_cases short : ((danteWanted cfg flows).takeWhile (danteFlowOpen host o)).length <
        (danteWanted cfg flows).length
    next =>
      rw [if_pos short] at done
      exact .inr (.inl ⟨by omega, _, rfl, short, (Option.some.inj done).symm⟩)
    next =>
      obtain ⟨whole, opened⟩ := takeWhile_short short
      rw [if_neg short, whole] at done
      simp only [Option.bind_eq_some_iff, CInt.checked_eq_some] at done
      obtain ⟨source, fed, _, ⟨counted, rfl⟩, done⟩ := done
      exact .inr (.inr ⟨by omega, source, opened, fed, counted, (Option.some.inj done).symm⟩)

theorem danteWanted_range (cfg : DanteLaunch) (flows : List ReacFlow) :
    danteWanted cfg flows = List.range (danteWanted cfg flows).length := by
  unfold danteWanted
  split <;> simp

theorem danteWanted_nodup (cfg : DanteLaunch) (flows : List ReacFlow) : (danteWanted cfg flows).Nodup := by
  rw [danteWanted_range]
  exact List.nodup_range

theorem danteSockets_flows (senders : Nat) :
    danteSockets senders false = {d | d ∈ (List.range senders).map Descriptor.media} := by
  ext d
  simp [danteSockets, eq_comm]

theorem danteSockets_sap (senders : Nat) :
    danteSockets senders true = insert .sap (danteSockets senders false) := by
  ext d
  simp [danteSockets, or_comm]

theorem danteSapAnnounce_uses (host : Host) (o : Options) (flows : List ReacFlow) {S : Set Descriptor}
    (isOpen : .sap ∈ S) : UsesOnly (S ∩ {.sap}) (danteSapAnnounce host o flows) := by
  intro event member
  obtain ⟨pkt, _, rfl⟩ := List.mem_map.mp member
  exact ⟨.sap, ⟨isOpen, rfl⟩, _, rfl⟩

theorem danteRound_emits (host : Host) (o : Options) (cfg : DanteLaunch) (flows : List ReacFlow)
    (senders : Nat) : Emits (danteSockets senders (danteSapOk host o cfg)) (danteOnFrame senders)
      (danteRound host o cfg flows) := by
  apply danteOnFrame_emits
  unfold danteRound
  cases sapOk : danteSapOk host o cfg with
  | false => exact fun _ member => absurd member List.not_mem_nil
  | true => exact danteSapAnnounce_uses host o flows (.inr ⟨rfl, rfl⟩)

theorem DanteFed.runs {flows : List ReacFlow} {source : SourceRun DanteSinkCtx}
    (fed : DanteFed host o cfg env flows run source) :
    Runs ∅ run.trace ∅ := by
  let senders := (danteWanted cfg flows).length
  have emits := danteRound_emits host o cfg flows senders
  have sends := danteFeed_sends emits fed.fed
  have opening := openFlows_runs o cfg (danteWanted_nodup cfg flows)
  have closing := closeFlows_runs (danteWanted_nodup cfg flows)
  have sockets : {d | d ∈ (danteWanted cfg flows).map Descriptor.media} = danteSockets senders false := by
    rw [danteSockets_flows, ← danteWanted_range]
  rw [sockets] at opening closing
  rw [fed.outcome]
  refine (opening.append ?_).append closing
  have uses := (emits.sap.mono Set.inter_subset_left).runs.append sends.runs
  unfold danteSapOpen danteSapClose
  cases sapOk : danteSapOk host o cfg with
  | false =>
    rw [sapOk] at uses
    simpa using uses
  | true =>
    have fresh : Descriptor.sap ∉ danteSockets senders false := by simp [danteSockets]
    rw [sapOk, danteSockets_sap] at uses
    simpa using Runs.bracket fresh uses

/-- Whatever fails, the process closes what it opened and sends on nothing that is not open. -/
theorem runDante_balanced (done : runDante host o cfg env = some run) : Runs ∅ run.trace ∅ := by
  obtain ⟨n, flows, _, ⟨_, rfl⟩ | ⟨_, opened, part, _, rfl⟩ | ⟨_, source, fed⟩⟩ := runDante_cases done
  next => exact .nil
  next =>
    have distinct : opened.Nodup := by
      rw [part]
      exact (danteWanted_nodup cfg flows).sublist (List.takeWhile_sublist _)
    exact (openFlows_runs o cfg distinct).append (closeFlows_runs distinct)
  next => exact fed.runs

end Run

end ReacAes67
