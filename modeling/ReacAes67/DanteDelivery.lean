import Mathlib.Algebra.BigOperators.Group.Finset.Piecewise
import ReacAes67.DanteProcess

set_option autoImplicit false

/-!
# What a Dante process delivers

Every flow has a socket of its own, opened once, that carries the flow's packets
and nothing else. The announcements go out in whole rounds.
-/

namespace ReacAes67

open Handles SampleBlock

theorem usesOf_danteEmit (senders i : Nat) (pkts : List FlowPacket) :
    usesOf (.media i) (danteEmit senders pkts) =
      if i < senders then (pkts.filter fun pkt => pkt.flowIndex = i).map fun pkt => .datagram pkt.buf
      else [] := by
  induction pkts with
  | nil => simp [danteEmit]
  | cons pkt pkts ih =>
    have split : danteEmit senders (pkt :: pkts) =
        (if pkt.flowIndex < senders then [sendPacket (.media pkt.flowIndex) pkt.buf] else []) ++
          danteEmit senders pkts := by
      by_cases inside : pkt.flowIndex < senders <;> simp [danteEmit, inside]
    rw [split, usesOf_append, ih]
    by_cases same : pkt.flowIndex = i
    next =>
      subst same
      by_cases inside : pkt.flowIndex < senders <;> simp [inside, sendPacket, usesOf_used]
    next =>
      by_cases inside : pkt.flowIndex < senders <;> simp [inside, same, sendPacket, usesOf_used]

-- The sink only ever appends to what it has sent.
theorem danteSink_appends {pl : Pipeline DanteSinkCtx} (sink : pl.pcmSink = some dantePcmSink)
    (buf : List UInt8) : (pipelineOnFrame pl buf).2.1.pcmSink = some dantePcmSink ∧
      ∃ sent, (pipelineOnFrame pl buf).2.1.pcmCtx.sent = pl.pcmCtx.sent ++ sent := by
  obtain ⟨_, sameSink, _, back, _⟩ := pipelineOnFrame_stages pl buf
  have ctx := congrArg (fun b : Back DanteSinkCtx => b.ctx.sent) back
  simp only [sink, Back.run_dante] at ctx
  exact ⟨sameSink.trans sink, _, ctx⟩

/-- The callback sends what the sink sends, as far as there are senders for it. -/
theorem danteOnFrame_run (senders : Nat) (pl : Pipeline DanteSinkCtx)
    (sink : pl.pcmSink = some dantePcmSink) (frames : List (List UInt8)) :
    ∃ sent, danteSent pl frames = pl.pcmCtx.sent ++ sent ∧
      (Mealy.run (sendOnFrame (danteOnFrame senders)) pl frames).2 = danteEmit senders sent := by
  induction frames generalizing pl with
  | nil => exact ⟨[], (List.append_nil _).symm, rfl⟩
  | cons buf frames ih =>
    obtain ⟨sameSink, now, here⟩ := danteSink_appends sink buf
    obtain ⟨later, sent, emitted⟩ := ih _ sameSink
    have onward : danteSent pl (buf :: frames) = danteSent (pipelineOnFrame pl buf).2.1 frames := rfl
    refine ⟨now ++ later, ?_, ?_⟩
    next => rw [onward, sent, here, List.append_assoc]
    next =>
      rw [Mealy.run_cons, sendOnFrame, emitted, danteOnFrame, here, List.drop_left]
      simp [danteEmit]

section Delivery

variable {host : Host} {o : Options} {cfg : DanteLaunch} {env : Surroundings} {run : DanteRun}
  {flows : List ReacFlow}

/-- Where the frames come from: the records of a file, or all that arrives on an interface before the process is
stopped or the socket fails. -/
def DanteSource (cfg : DanteLaunch) (env : Surroundings) (fed : List (List UInt8)) : Prop :=
  match cfg.pcap, cfg.iface with
  | some path, _ => replayFrames env path = some fed
  | none, some ifname => fed = reacFrames (untilStop env.gStop 0 ((env.capture ifname).getD []))
  | none, none => fed = []

theorem DanteFed.sourced {source : SourceRun DanteSinkCtx}
    (fed : DanteFed host o cfg env flows run source) : DanteSource cfg env run.fed := by
  have done := fed.fed
  have same : run.fed = source.fed := by rw [fed.outcome]
  rw [same]
  unfold danteFeed at done
  unfold DanteSource
  cases pcap : cfg.pcap with
  | some path =>
    simp only [pcap] at done ⊢
    exact replayRun_fed done
  | none =>
    cases iface : cfg.iface with
    | some ifname =>
      simp only [pcap, iface] at done ⊢
      exact (captureRun_fed false done).trans (List.filter_eq_self.mpr fun _ _ => rfl)
    | none =>
      simp only [pcap, iface] at done ⊢
      cases done
      rfl

theorem dantePipelineOf_sent (env : Surroundings) (opened : danteFlows host o = some flows)
    (frames : List (List UInt8)) (i : Nat) :
    ((danteSent (dantePipelineOf (o.mode host) o flows env) frames).filter fun pkt => pkt.flowIndex = i).map
      (·.buf) = flowPackets host o env.now env.memory i frames := by
  have same : dantePipelineOf (o.mode host) o flows env =
      dantePipeline (o.mode host) o.payloadType o.ssrc 0 0 (some (danteAnchor (o.mode host) env.now))
        (packetizerInit (o.mode host) 4 flows env.memory) := rfl
  rw [flowPackets_packetize opened, same, dantePipeline_sent, Option.getD_some]

-- Every packet belongs to a flow of the table.
theorem dantePipelineOf_known (modes : host.LibreacModes) {n : Int} (accepted : 0 ≤ n)
    (built : danteBuildFlows reacMaxChannels (o.mode host).nChannels o.chPerFlow o.payloadType o.ssrc =
      some (n, flows)) (frames : List (List UInt8)) :
    ∀ pkt ∈ danteSent (dantePipelineOf (o.mode host) o flows env) frames, pkt.flowIndex < flows.length := by
  have fits : (o.mode host).Fits := by
    obtain ⟨rate, _, mode⟩ := modes.known (if o.profileDante then 48000 else o.rate)
    rw [Options.mode, mode]
    exact (broadcastMode_fillsFrame rate).fits
  have slices := danteBuildFlows_slices accepted built
  have start : (packetizerInit (o.mode host) 4 flows env.memory).Buffers (o.mode host) 4 flows [] 0 :=
    packetizerInit_buffers (o.mode host) flows env.memory (by decide) (by decide)
  have same : dantePipelineOf (o.mode host) o flows env =
      dantePipeline (o.mode host) o.payloadType o.ssrc 0 0 (some (danteAnchor (o.mode host) env.now))
        (packetizerInit (o.mode host) 4 flows env.memory) := rfl
  rw [same, dantePipeline_sent]
  exact (packetize_windows fits (by decide) (by decide) (fun fl inside => (slices fl inside).1) _ [] 0 start
    (by decide) _).1

theorem length_eq_sum_filter {n : Nat} {pkts : List FlowPacket} (known : ∀ pkt ∈ pkts, pkt.flowIndex < n) :
    pkts.length = ∑ i ∈ Finset.range n, (pkts.filter fun pkt => pkt.flowIndex = i).length := by
  induction pkts with
  | nil => simp
  | cons pkt pkts ih =>
    have own (i : Nat) : ((pkt :: pkts).filter fun pkt => pkt.flowIndex = i).length =
        (if pkt.flowIndex = i then 1 else 0) + (pkts.filter fun pkt => pkt.flowIndex = i).length := by
      by_cases same : pkt.flowIndex = i
      next => simp [same, Nat.add_comm]
      next => simp [same]
    have here : pkt.flowIndex ∈ Finset.range n := Finset.mem_range.mpr (known pkt List.mem_cons_self)
    simp only [own, Finset.sum_add_distrib, Finset.sum_ite_eq, if_pos here]
    rw [← ih fun later member => known later (List.mem_cons_of_mem _ member), List.length_cons, Nat.add_comm]

theorem danteWanted_sending (sends : cfg.countOnly = false) (flows : List ReacFlow) :
    danteWanted cfg flows = List.range flows.length := by
  simp [danteWanted, sends]

theorem range_flatMap_own {α : Type} {f : Nat → List α} {i : Nat} (others : ∀ j, j ≠ i → f j = []) (n : Nat) :
    (List.range n).flatMap f = if i < n then f i else [] := by
  induction n with
  | zero => rfl
  | succ n ih =>
    rw [List.range_succ, List.flatMap_append, ih, List.flatMap_singleton]
    by_cases same : n = i
    next =>
      subst same
      simp
    next =>
      rw [others n same, List.append_nil]
      by_cases inside : i < n
      next => rw [if_pos inside, if_pos (Nat.lt_succ_of_lt inside)]
      next => rw [if_neg inside, if_neg (by omega)]

theorem usesOf_openFlows (i n : Nat) :
    usesOf (.media i) ((List.range n).flatMap (openFlow o cfg)) =
      if i < n then [.tos (dscpTos cfg.mediaDscp)] else [] := by
  rw [usesOf_flatMap, range_flatMap_own (i := i) fun j other => by simp [openFlow, usesOf_used, other]]
  simp [openFlow, usesOf_used]

theorem openingsOf_openFlows (i n : Nat) :
    openingsOf (.media i) ((List.range n).flatMap (openFlow o cfg)) =
      if i < n then [flowSender o cfg i] else [] := by
  rw [openingsOf_flatMap,
    range_flatMap_own (i := i) fun j other => by simp [openFlow, openingsOf_opened, other]]
  simp [openFlow, openingsOf_opened]

theorem filterMap_zipIdx {α β : Type} (f : Nat → α → Option β) (xs : List α) (k : Nat) :
    (xs.zipIdx k).filterMap (fun x => f x.2 x.1) =
      (List.range xs.length).filterMap fun i => xs[i]?.bind (f (k + i)) := by
  induction xs generalizing k with
  | nil => rfl
  | cons x xs ih =>
    have later : (fun i => (x :: xs)[i]?.bind (f (k + i))) ∘ Nat.succ =
        fun i => xs[i]?.bind (f (k + 1 + i)) := by
      funext i
      simp [Nat.add_assoc, Nat.add_comm 1 i]
    rw [List.length_cons, List.range_succ_eq_map, List.filterMap_cons, List.filterMap_map, later, ← ih (k + 1)]
    rfl

-- The announcements of one round.
def danteSapPackets (host : Host) (o : Options) (flows : List ReacFlow) : List SapPacket :=
  (List.range flows.length).filterMap (danteAnnouncement host o)

theorem danteRound_uses (sends : cfg.countOnly = false) (opened : danteFlows host o = some flows) :
    usesOf .sap (danteRound host o cfg flows) =
      (danteSapPackets host o flows).map fun pkt => .datagram pkt.bytes := by
  have alone (pkts : List SapPacket) :
      usesOf .sap (announceAll pkts) = pkts.map fun pkt => .datagram pkt.bytes := by
    simp [announceAll, sendPacket, usesOf, List.filterMap_map]
  unfold danteRound danteSapPackets
  cases sapOk : danteSapOk host o cfg with
  | false =>
    have quiet : (o.doSap && host.sendOpen sapMcastAddrDante sapPort) = false := by
      simpa [danteSapOk, sends] using sapOk
    have none : (List.range flows.length).filterMap (danteAnnouncement host o) = [] := by
      rw [List.filterMap_eq_nil_iff]
      intro i inside
      simp [danteAnnouncement, opened, quiet]
    simp [none]
  | true =>
    have wanted : (o.doSap && host.sendOpen sapMcastAddrDante sapPort) = true := by
      simpa [danteSapOk, sends] using sapOk
    have each : (flows.zipIdx 0).filterMap (fun fl => danteSapPacket host o fl.2 fl.1) =
        (List.range flows.length).filterMap (danteAnnouncement host o) := by
      rw [filterMap_zipIdx]
      apply List.filterMap_congr
      intro i inside
      simp only [danteAnnouncement, opened, Option.bind_eq_bind, Option.bind_some, wanted, if_true,
        Nat.zero_add]
      rfl
    simp only [if_true, danteSapAnnounce, alone, each]

/-- Each flow has one socket, to its own group, which carries its packets. The announcements are made in whole
rounds: one at the start, none during a replay and at least one for each second of frames of a live source. -/
structure DanteDelivery (host : Host) (o : Options) (cfg : DanteLaunch) (env : Surroundings)
    (flows : List ReacFlow) (run : DanteRun) : Prop where
  source : DanteSource cfg env run.fed
  code : run.rc = 0 ∨ run.rc = 1 ∧ run.fed = []
  sockets : ∀ i, openingsOf (.media i) run.trace = if i < flows.length then [flowSender o cfg i] else []
  media : ∀ i < flows.length, usesOf (.media i) run.trace =
    .tos (dscpTos cfg.mediaDscp) :: (flowPackets host o env.now env.memory i run.fed).map .datagram
  announcements : ∃ rounds, usesOf .sap run.trace = (List.replicate (rounds + 1)
      ((danteSapPackets host o flows).map fun pkt => .datagram pkt.bytes)).flatten ∧
    if cfg.pcap.isSome then rounds = 0 else run.fed.length / pps (o.mode host) ≤ rounds

theorem dantePipelineOf_count (modes : host.LibreacModes) (opened : danteFlows host o = some flows)
    (frames : List (List UInt8)) :
    (danteSent (dantePipelineOf (o.mode host) o flows env) frames).length =
      ∑ i ∈ Finset.range flows.length, (flowPackets host o env.now env.memory i frames).length := by
  obtain ⟨n, accepted, built⟩ := danteFlows_built opened
  rw [length_eq_sum_filter (dantePipelineOf_known modes accepted built frames)]
  apply Finset.sum_congr rfl
  intro i _
  rw [← dantePipelineOf_sent env opened, List.length_map]

theorem danteFeed_rounds {senders : Nat} {sapOk : Bool} {round : Trace} {pl : Pipeline DanteSinkCtx}
    {source : SourceRun DanteSinkCtx} (emits : Emits (danteSockets senders sapOk) (danteOnFrame senders) round)
    (done : danteFeed env cfg senders round pl = some source) :
    ∃ rounds, usesOf .sap source.trace = (List.replicate rounds (usesOf .sap round)).flatten ∧
      if cfg.pcap.isSome then rounds = 0 else source.fed.length / pps pl.mode ≤ rounds := by
  have noCapture : Descriptor.capture ∉ danteSockets senders sapOk := by simp [danteSockets]
  have noReplay : Descriptor.replay ∉ danteSockets senders sapOk := by simp [danteSockets]
  unfold danteFeed at done
  cases pcap : cfg.pcap with
  | some path =>
    simp only [pcap] at done
    exact ⟨0, (replayRun_sends emits noReplay done).2, rfl⟩
  | none =>
    simp only [Option.isSome_none, Bool.false_eq_true, if_false]
    cases iface : cfg.iface with
    | some ifname =>
      simp only [pcap, iface] at done
      obtain ⟨rounds, sent, often⟩ := (captureRun_sends emits noCapture done).2
      exact ⟨rounds, sent, often⟩
    | none =>
      simp only [pcap, iface] at done
      cases done
      exact ⟨0, rfl, by simp⟩

theorem danteFlows_opened (opened : danteFlows host o = some flows) :
    (List.range flows.length).all (danteFlowOpen host o) = true := by
  simp only [danteFlows, Option.bind_eq_bind, Option.bind_eq_some_iff] at opened
  obtain ⟨⟨n, table⟩, _, opened⟩ := opened
  split at opened
  next => cases opened
  next =>
    split at opened
    next all =>
      cases opened
      exact all
    next => cases opened

theorem DanteFed.table {source : SourceRun DanteSinkCtx} (fed : DanteFed host o cfg env flows run source)
    (sends : cfg.countOnly = false) {n : Int} (accepted : 0 ≤ n)
    (built : danteBuildFlows reacMaxChannels (o.mode host).nChannels o.chPerFlow o.payloadType o.ssrc =
      some (n, flows)) : danteFlows host o = some flows := by
  have opened := fed.opened
  rw [danteWanted_sending sends] at opened
  simp only [danteFlows, built, Option.bind_eq_bind, Option.bind_some, if_neg (not_lt.mpr accepted), opened,
    if_true]

@[simp] theorem usesOf_danteSapOpen (d : Descriptor) : usesOf d (danteSapOpen host o cfg) = [] := by
  unfold danteSapOpen
  split <;> rfl

@[simp] theorem usesOf_danteSapClose (d : Descriptor) : usesOf d (danteSapClose host o cfg) = [] := by
  unfold danteSapClose
  split <;> rfl

@[simp] theorem openingsOf_danteSapOpen (i : Nat) : openingsOf (.media i) (danteSapOpen host o cfg) = [] := by
  unfold danteSapOpen
  split <;> rfl

@[simp] theorem openingsOf_danteSapClose (d : Descriptor) : openingsOf d (danteSapClose host o cfg) = [] := by
  unfold danteSapClose
  split <;> rfl

-- Opening, feeding and closing in one list, for the handles that the feeding leaves open.
theorem DanteFed.trace_sending {source : SourceRun DanteSinkCtx}
    (fed : DanteFed host o cfg env flows run source) (sends : cfg.countOnly = false) :
    run.trace = (List.range flows.length).flatMap (openFlow o cfg) ++
      (danteSapOpen host o cfg ++ danteRound host o cfg flows ++ source.trace ++ danteSapClose host o cfg) ++
      ((List.range flows.length).map Descriptor.media).map .closed := by
  rw [fed.outcome, danteWanted_sending sends]
  rfl

theorem DanteFed.delivers {source : SourceRun DanteSinkCtx} (fed : DanteFed host o cfg env flows run source)
    (sends : cfg.countOnly = false) (opened : danteFlows host o = some flows) :
    DanteDelivery host o cfg env flows run := by
  have senders : (danteWanted cfg flows).length = flows.length := by
    rw [danteWanted_sending sends, List.length_range]
  have emits := danteRound_emits host o cfg flows flows.length
  have done := fed.fed
  rw [senders] at done
  have sent := danteFeed_sends emits done
  obtain ⟨rounds, announced, often⟩ := danteFeed_rounds emits done
  have same : run.fed = source.fed := by rw [fed.outcome]
  have traced := fed.trace_sending sends
  obtain ⟨packets, whole, emitted⟩ := danteOnFrame_run flows.length
    (dantePipelineOf (o.mode host) o flows env) rfl source.fed
  have fromNothing : danteSent (dantePipelineOf (o.mode host) o flows env) source.fed = packets := whole
  have roundOnly (i : Nat) : usesOf (.media i) (danteRound host o cfg flows) = [] :=
    emits.sap.usesOf_other fun inside => Descriptor.noConfusion inside.2
  constructor
  next => exact fed.sourced
  next =>
    rw [fed.outcome]
    exact sent.code
  next =>
    intro i
    have none : openingsOf (.media i) (danteRound host o cfg flows) = [] := emits.sap.openingsOf _
    have silent : openingsOf (.media i) source.trace = [] := sent.opensNone _ nofun nofun
    rw [traced]
    simp only [openingsOf_append, openingsOf_openFlows, openingsOf_danteSapOpen, none, silent,
      openingsOf_danteSapClose, openingsOf_map_closed, List.append_nil]
  next =>
    intro i inside
    have carried : usesOf (.media i) source.trace =
        (packets.filter fun pkt => pkt.flowIndex = i).map fun pkt => .datagram pkt.buf := by
      rw [sent.media (.media i) nofun nofun nofun, emitted, usesOf_danteEmit, if_pos inside]
    rw [traced, same, ← dantePipelineOf_sent env opened, fromNothing]
    simp only [usesOf_append, usesOf_openFlows, if_pos inside, usesOf_danteSapOpen, roundOnly, carried,
      usesOf_danteSapClose, usesOf_map_closed, List.append_nil, List.nil_append, List.singleton_append]
    rw [List.map_map]
    rfl
  next =>
    refine ⟨rounds, ?_, ?_⟩
    next =>
      have tos : usesOf .sap ((List.range flows.length).flatMap (openFlow o cfg)) = [] := by
        rw [usesOf_flatMap]
        simp [openFlow, usesOf_used]
      rw [traced, ← danteRound_uses sends opened]
      simp only [usesOf_append, tos, usesOf_danteSapOpen, announced, usesOf_danteSapClose, usesOf_map_closed,
        List.append_nil, List.nil_append, List.replicate_succ, List.flatten_cons]
    next =>
      rw [same]
      exact often

theorem openFlows_silent (opened : List Nat) (d : Descriptor) (bytes : List UInt8) :
    sendPacket d bytes ∉ opened.flatMap (openFlow o cfg) ++ closeFlows opened := by
  simp [openFlow, closeFlows, sendPacket]

/-- Either every flow is delivered, or the process fails before it sends anything. -/
theorem runDante_delivers (sends : cfg.countOnly = false)
    (done : runDante host o cfg env = some run) :
    match danteFlows host o with
    | none => (run.rc = 1 ∨ run.rc = 2) ∧ run.fed = [] ∧ ∀ d bytes, sendPacket d bytes ∉ run.trace
    | some flows => DanteDelivery host o cfg env flows run := by
  obtain ⟨n, flows, built, ⟨refused, rfl⟩ | ⟨accepted, opened, part, short, rfl⟩ | ⟨accepted, source, fed⟩⟩ :=
    runDante_cases done
  next =>
    have none : danteFlows host o = none := by
      simp only [danteFlows, built, Option.bind_eq_bind, Option.bind_some, if_pos refused]
    rw [none]
    exact ⟨.inr rfl, rfl, fun _ _ => List.not_mem_nil⟩
  next =>
    have failed : ((List.range flows.length).all (danteFlowOpen host o)) = false := by
      rw [part, danteWanted_sending sends] at short
      rw [← Bool.not_eq_true, List.all_eq_true]
      intro all
      rw [List.takeWhile_eq_self_iff.mpr all] at short
      exact lt_irrefl _ short
    have none : danteFlows host o = none := by
      simp only [danteFlows, built, Option.bind_eq_bind, Option.bind_some, if_neg (not_lt.mpr accepted), failed,
        Bool.false_eq_true, if_false]
    rw [none]
    exact ⟨.inl rfl, rfl, openFlows_silent opened⟩
  next =>
    have opened := fed.table sends accepted built
    rw [opened]
    exact fed.delivers sends opened

theorem DanteDelivery.datagrams (delivery : DanteDelivery host o cfg env flows run) {i : Nat}
    (inside : i < flows.length) :
    datagramsOf (.media i) run.trace = flowPackets host o env.now env.memory i run.fed := by
  rw [datagramsOf, delivery.media i inside, List.filterMap_cons_none rfl, List.filterMap_map]
  exact List.filterMap_some

theorem danteOnFrame_nothing (pl : Pipeline DanteSinkCtx) (buf : List UInt8) : danteOnFrame 0 pl buf = [] := by
  simp [danteOnFrame, danteEmit]

-- Counting a file sends nothing.
theorem DanteFed.counts {source : SourceRun DanteSinkCtx} (fed : DanteFed host o cfg env flows run source)
    (counts : cfg.countOnly = true) {path : List Char} (pcap : cfg.pcap = some path) :
    run.count = (danteSent (dantePipelineOf (o.mode host) o flows env) run.fed).length ∧
      ∀ d, datagramsOf d run.trace = [] := by
  have wanted : danteWanted cfg flows = [] := by simp [danteWanted, counts]
  have sapOk : danteSapOk host o cfg = false := by simp [danteSapOk, counts]
  have round : danteRound host o cfg flows = [] := by simp [danteRound, sapOk]
  have emits := danteRound_emits host o cfg flows 0
  have done := fed.fed
  rw [wanted, List.length_nil] at done
  have sent := danteFeed_sends emits done
  constructor
  next =>
    rw [fed.outcome, ← sent.pipeline]
    rfl
  next =>
    have traced : run.trace = source.trace := by
      rw [fed.outcome, wanted, round]
      simp [danteSapOpen, danteSapClose, sapOk, closeFlows]
    simp only [danteFeed, pcap] at done
    rw [traced]
    exact replayRun_silent danteOnFrame_nothing done

theorem runDante_replays {flows : List ReacFlow} {n : Int} (accepted : 0 ≤ n)
    (built : danteBuildFlows reacMaxChannels (o.mode host).nChannels o.chPerFlow o.payloadType o.ssrc =
      some (n, flows)) (counts : cfg.countOnly = true) {path : List Char} (pcap : cfg.pcap = some path)
    {source : SourceRun DanteSinkCtx}
    (done : replayRun env (danteOnFrame 0) (dantePipelineOf (o.mode host) o flows env) path = some source)
    (counted : CInt.InRange source.pl.pcmCtx.sent.length) :
    ∃ run, runDante host o cfg env = some run ∧ run.rc = source.rc ∧ run.fed = source.fed := by
  have wanted : danteWanted cfg flows = [] := by simp [danteWanted, counts]
  have fed : danteFeed env cfg 0 (danteRound host o cfg flows) (dantePipelineOf (o.mode host) o flows env) =
      some source := by
    rw [danteFeed, pcap]
    exact done
  have count : CInt.checked source.pl.pcmCtx.sent.length = some (source.pl.pcmCtx.sent.length : Int) :=
    CInt.checked_eq_some.mpr ⟨counted, rfl⟩
  simp only [runDante, built, Option.bind_eq_bind, Option.bind_some, if_neg (not_lt.mpr accepted), wanted,
    List.takeWhile_nil, List.length_nil, lt_irrefl, if_false, fed, count]
  exact ⟨_, rfl, rfl, rfl⟩

-- Counting a file sends nothing, and its count is the number of packets that sending it sends.
theorem runDante_counts (cfg cfg' : DanteLaunch) (modes : host.LibreacModes)
    (opened : danteFlows host o = some flows)
    {path : List Char} (pcap : cfg.pcap = some path) (sends : cfg.countOnly = false)
    (done : runDante host o cfg env = some run) (counts : cfg'.countOnly = true)
    (same : cfg'.pcap = some path) :
    ∃ counted, runDante host o cfg' env = some counted ∧ counted.rc = run.rc ∧
      (∀ d, datagramsOf d counted.trace = []) ∧ CInt.InRange counted.count ∧
      counted.count = (∑ i ∈ Finset.range flows.length, (datagramsOf (.media i) run.trace).length : Nat) := by
  have delivery := runDante_delivers sends done
  rw [opened] at delivery
  simp only at delivery
  obtain ⟨n, accepted, built⟩ := danteFlows_built opened
  obtain ⟨n', flows', built', ⟨refused, -⟩ | ⟨-, _, part, short, rfl⟩ | ⟨-, source, fed⟩⟩ := runDante_cases done
  next =>
    obtain ⟨rfl, -⟩ := Prod.mk.inj (Option.some.inj (built'.symm.trans built))
    exact absurd refused (not_lt.mpr accepted)
  next =>
    obtain ⟨-, rfl⟩ := Prod.mk.inj (Option.some.inj (built'.symm.trans built))
    have whole := List.takeWhile_eq_self_iff.mpr (List.all_eq_true.mp (danteFlows_opened opened))
    rw [part, danteWanted_sending sends, whole] at short
    exact absurd short (lt_irrefl _)
  next =>
    obtain ⟨-, rfl⟩ := Prod.mk.inj (Option.some.inj (built'.symm.trans built))
    have replayed := fed.fed
    simp only [danteFeed, pcap] at replayed
    obtain ⟨source', replayed', code, frames⟩ := replayRun_same replayed (danteOnFrame 0)
    have fits : CInt.InRange source'.pl.pcmCtx.sent.length := by
      have samePl : source'.pl = source.pl := by
        rw [← replayRun_pipeline replayed', ← replayRun_pipeline replayed, frames]
      rw [samePl]
      exact fed.counted
    obtain ⟨counted, done', code', frames'⟩ := runDante_replays accepted built counts same replayed' fits
    refine ⟨counted, done', ?_, ?_⟩
    next => rw [code', code, fed.outcome]
    obtain ⟨_, _, built', ⟨refused, -⟩ | ⟨-, _, part, short, -⟩ | ⟨-, _, fed'⟩⟩ := runDante_cases done'
    next =>
      obtain ⟨rfl, -⟩ := Prod.mk.inj (Option.some.inj (built'.symm.trans built))
      exact absurd refused (not_lt.mpr accepted)
    next => simp [danteWanted, counts] at short
    next =>
      obtain ⟨-, rfl⟩ := Prod.mk.inj (Option.some.inj (built'.symm.trans built))
      obtain ⟨count, silent⟩ := fed'.counts counts same
      have same : counted.fed = run.fed := by rw [frames', frames, fed.outcome]
      refine ⟨silent, by rw [fed'.outcome]; exact fed'.counted, ?_⟩
      rw [count, same, dantePipelineOf_count modes opened]
      refine congrArg Nat.cast (Finset.sum_congr rfl fun i inside => ?_)
      rw [delivery.datagrams (Finset.mem_range.mp inside)]

end Delivery

end ReacAes67
