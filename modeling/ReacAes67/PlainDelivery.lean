import ReacAes67.ListenService

set_option autoImplicit false

/-!
# What a process of the default profile delivers

The media socket carries the packets of the source and nothing else, whichever
of the sources it is, and is closed again on every way out.
-/

namespace ReacAes67

open BoundedLoop Handles SampleBlock WrappedCounter

variable {σ : Type} {S : Set Descriptor} {round : Trace}

-- What is handed to the pipeline's callback, over a whole run.
theorem plainOnFrame_run (pl : Pipeline σ) (frames : List (List UInt8)) :
    (Mealy.run (sendOnFrame plainOnFrame) pl frames).2 = emitUdp (pipelineRun pl frames).2 := by
  induction frames generalizing pl with
  | nil => rfl
  | cons buf frames ih =>
    have split : emitUdp (pipelineRun pl (buf :: frames)).2 =
        emitUdp (pipelineOnFrame pl buf).2.2 ++ emitUdp (pipelineRun (pipelineOnFrame pl buf).2.1 frames).2 :=
      List.map_append
    rw [split, ← ih]
    rfl

theorem Serving.emits (serving : Serving S round) : Emits S (plainOnFrame (σ := σ)) round where
  media pl buf := (emitUdp_uses _).mono (Set.singleton_subset_iff.mpr ⟨serving.media, by simp⟩)
  sap := serving.sap

/-- Sent for what is left open: packets on the media socket, whole rounds on the announcing one. -/
structure SendsOut (S : Set Descriptor) (round trace : Trace) (packets : List (List UInt8))
    (rounds : Nat) : Prop where
  uses : UsesOnly S trace
  media : usesOf (.media 0) trace = packets.map .datagram
  sap : usesOf .sap trace = (List.replicate rounds (usesOf .sap round)).flatten

/-- What a listening process reads: what its callbacks find, or without a bus all that arrives before it is
stopped or its socket fails. -/
def listenReads (env : Surroundings) (script : List RecvEvent) : List RecvEvent :=
  match env.eventLoop with
  | some events => callbackReads script events
  | none => untilStop env.gStop 0 script

theorem listenLoop_sends {cfg : PlainLaunch} {env : Surroundings} {pl : Pipeline Unit}
    {script : List RecvEvent} {us : UbusStats} {sent : Trace} {fed : List (List UInt8)}
    (serving : Serving S round) (bus : env.eventLoop.isSome → .bus ∈ S) (capture : .capture ∈ S)
    (done : listenLoop cfg env round ⟨Live.start env.long pl script, us⟩ = some (sent, fed)) :
    (∃ rounds, SendsOut S round sent ((pipelineRun pl fed).2.map (·.buf)) rounds ∧
      match env.eventLoop with
      | some events => rounds = events.count .publish
      | none => fed.length / pps pl.mode ≤ rounds) ∧
      fed = (reacFrames (listenReads env script)).filter (frameWanted cfg.bcastOnly) := by
  have media (on : Bool) (trace : Trace) :
      usesOf (.media 0) (.used .capture (.nonblock on) :: trace) = usesOf (.media 0) trace := by
        simp [usesOf_used]
  have sap (on : Bool) (trace : Trace) :
      usesOf .sap (.used .capture (.nonblock on) :: trace) = usesOf .sap trace := by simp [usesOf_used]
  have inserted : insert .capture S = S := Set.insert_eq_of_mem capture
  have setting (on : Bool) {trace : Trace} (uses : UsesOnly S trace) :
      UsesOnly S (.used .capture (.nonblock on) :: trace) :=
    List.forall_mem_cons.mpr ⟨⟨.capture, capture, _, rfl⟩, uses⟩
  unfold listenLoop at done
  cases loop : env.eventLoop with
  | some events =>
    simp only [loop, Option.some.injEq, Prod.mk.injEq] at done
    obtain ⟨rfl, rfl⟩ := done
    have started : (Live.start env.long pl script).Drains cfg.bcastOnly pl :=
      ⟨Live.start_follows env.long pl script, rfl⟩
    have sends := loopRun_sends env.long cfg.bcastOnly serving (bus (by simp [loop])) pl script us events
    have uses := sends.uses
    rw [inserted] at uses
    refine ⟨⟨events.count .publish, ⟨setting true uses, ?_, ?_⟩, rfl⟩, ?_⟩
    next =>
      rw [media, sends.media, sends.drains.follows.output, List.map_map]
      rfl
    next =>
      rw [sap]
      exact loopRun_rounds started round events
    next =>
      rw [listenReads, loop, sends.drains.follows.passed]
      exact congrArg _ (loopRun_reads started round events)
  | none =>
    simp only [loop, Option.map_eq_some_iff, Prod.mk.injEq] at done
    obtain ⟨s, ended, rfl, rfl⟩ := done
    obtain ⟨s', ended', sends⟩ := capturedLoop_sends serving.emits env.gStop
      (.start env.long (frameWanted cfg.bcastOnly) pl script)
    obtain rfl : s' = s := Option.some.inj (ended'.symm.trans ended)
    have uses := sends.uses
    rw [inserted] at uses
    refine ⟨⟨_, ⟨setting true (setting false uses), ?_, ?_⟩, sends.often⟩, ?_⟩
    next =>
      rw [media, media, sends.media (.media 0) (by simp) (by simp), plainOnFrame_run, usesOf_emitUdp,
        List.map_map]
      rfl
    next => rw [sap, sap, sends.sap]
    next =>
      rw [listenReads, loop]
      exact capturedLoop_passes env.long cfg.bcastOnly plainOnFrame round env.gStop pl script ended

section Tone

variable {long : LongWidth} {mode : ReacMode} {tone : Nat → Block} {gStop : Nat → Bool} {first : RtpParams}

/-- What has been sent for the blocks filled so far. -/
structure ToneRun.Sends (s : ToneRun) (S : Set Descriptor) (long : LongWidth) (mode : ReacMode)
    (tone : Nat → Block) (round : Trace) (gStop : Nat → Bool) (first : RtpParams) : Prop where
  blocks : s.blocks = (List.range s.blocks.length).map tone
  running : ∀ k < s.blocks.length, gStop k = false
  rtp : s.rtp = (Mealy.run (genToneStep mode) first s.blocks).1
  sent : SendsOut S round s.trace (Mealy.run (genToneStep mode) first s.blocks).2
    (if 0 < pps mode then dues (2 ^ long.bits) (pps mode) s.blocks.length else 0)

theorem toneRun_start (pt : UInt8) (ssrc : UInt32) :
    (⟨⟨pt, 0, 0, ssrc⟩, [], []⟩ : ToneRun).Sends S long mode tone round gStop ⟨pt, 0, 0, ssrc⟩ where
  blocks := rfl
  running _ inside := absurd inside (Nat.not_lt_zero _)
  rtp := rfl
  sent := ⟨fun _ member => absurd member List.not_mem_nil, rfl, by simp⟩

theorem genToneTurn_sends (serving : Serving S round) {s s' : ToneRun}
    (sends : s.Sends S long mode tone round gStop first)
    (goes : genToneTurn long mode tone round gStop s = .inl s') :
    s'.Sends S long mode tone round gStop first := by
  unfold genToneTurn at goes
  split at goes
  next => cases goes
  next goesOn =>
    obtain rfl := Sum.inl.inj goes
    have packets : UsesOnly {Descriptor.media 0}
        ((genToneStep mode s.rtp (tone s.blocks.length)).2.map (sendPacket (.media 0))) := by
      intro event member
      obtain ⟨bytes, _, rfl⟩ := List.mem_map.mp member
      exact ⟨_, rfl, _, rfl⟩
    have datagrams (pkts : List (List UInt8)) :
        usesOf (.media 0) (pkts.map (sendPacket (.media 0))) = pkts.map .datagram := by
      simp [sendPacket, usesOf, List.filterMap_map, Function.comp_def]
    have roundOnly : UsesOnly (S ∩ {.sap})
        (if 0 < pps mode ∧ due (2 ^ long.bits) (pps mode) (s.blocks.length + 1) then round else []) := by
      split
      next => exact serving.sap
      next => exact fun _ member => absurd member List.not_mem_nil
    refine ⟨?_, ?_, ?_, ?_, ?_, ?_⟩
    next =>
      simp only [List.length_append, List.length_singleton, List.range_succ, List.map_append, List.map_cons,
        List.map_nil]
      rw [← sends.blocks]
    next =>
      intro k inside
      rw [List.length_append, List.length_singleton, Nat.lt_succ_iff_lt_or_eq] at inside
      obtain before | rfl := inside
      next => exact sends.running k before
      next => exact Bool.eq_false_of_not_eq_true goesOn
    next => rw [Mealy.run_append, ← sends.rtp]; rfl
    next =>
      have sent := sends.sent.uses.append (packets.mono (Set.singleton_subset_iff.mpr serving.media))
      exact sent.append (roundOnly.mono Set.inter_subset_left)
    next =>
      have silent := roundOnly.usesOf_other (h := .media 0) fun inside => Descriptor.noConfusion inside.2
      simp only [usesOf_append, sends.sent.media, datagrams, silent, Mealy.run_append, ← sends.rtp,
        List.append_nil, List.map_append, Mealy.run_cons, Mealy.run_nil]
    next =>
      have quiet := packets.usesOf_other (h := .sap) (by simp)
      simp only [usesOf_append, sends.sent.sap, quiet, List.append_nil, List.length_append,
        List.length_singleton]
      by_cases moving : 0 < pps mode
      next =>
        rw [if_pos moving, if_pos moving, dues_succ (Nat.two_pow_pos _) moving]
        by_cases last : due (2 ^ long.bits) (pps mode) (s.blocks.length + 1) = true
        next => simp [moving, last, List.replicate_succ']
        next => simp [last]
      next => simp [moving]

theorem genToneLoop_sends (serving : Serving S round) {fuel : Nat} {start s : ToneRun}
    (sends : start.Sends S long mode tone round gStop first)
    (done : loop (fun s => some (genToneTurn long mode tone round gStop s)) fuel start = some s) :
    s.Sends S long mode tone round gStop first ∧ gStop s.blocks.length = true := by
  obtain ⟨last, sends, leaves⟩ := loop_last (fun s => some (genToneTurn long mode tone round gStop s))
    (·.Sends S long mode tone round gStop first)
    (fun s s' sends goes => genToneTurn_sends serving sends (Option.some.inj goes)) sends done
  have left := Option.some.inj leaves
  unfold genToneTurn at left
  split at left
  next stopped =>
    obtain rfl := Sum.inr.inj left
    exact ⟨sends, stopped⟩
  next => cases left

end Tone

section Bracket

variable {B : Set Descriptor} {o : Options} {egress : Option (List Char)} {sap : Option SapPacket}
  {env : Surroundings} {us : UbusStats} {inner sent : Trace}

def withSap (B : Set Descriptor) (sap : Option SapPacket) : Set Descriptor :=
  if sap.isSome then insert .sap B else B

def withBus (B : Set Descriptor) (env : Surroundings) : Set Descriptor :=
  if env.eventLoop.isSome then insert .bus B else B

theorem mem_insertIf {d : Descriptor} (inside : d ∈ B) (e : Descriptor) (isOpen : Bool) :
    d ∈ if isOpen then insert e B else B := by
  split
  next => exact Set.mem_insert_of_mem _ inside
  next => exact inside

theorem plainRound_uses (isMedia : .media 0 ∈ B) (sap : Option SapPacket) :
    Serving (withSap B sap) (plainRound sap) where
  media := mem_insertIf isMedia _ _
  sap := by
    cases sap with
    | none => exact fun _ member => absurd member List.not_mem_nil
    | some pkt =>
      intro event member
      exact ⟨.sap, ⟨Set.mem_insert _ _, rfl⟩, _, List.mem_singleton.mp member⟩

theorem aroundSap_runs (noSap : .sap ∉ B) (serving : Serving (withSap B sap) (plainRound sap))
    (uses : UsesOnly (withSap B sap) sent) : Runs B (aroundSap o egress sap sent) B := by
  have inside := ((serving.sap.mono Set.inter_subset_left).append uses).runs
  unfold aroundSap plainSapOpen plainSapClose
  cases sap with
  | none => simpa [withSap] using inside
  | some pkt =>
    have bracket :
        Runs B (.opened .sap (aes67Sender sapMcastAddr sapPort o.ttl egress) :: _ ++ [.closed .sap]) B :=
      Runs.bracket noSap inside
    simpa using bracket

theorem onBus_runs (noBus : .bus ∉ B) (inside : Runs (withBus B env) inner (withBus B env)) :
    Runs B (onBus env us inner) B := by
  unfold onBus withBus at *
  split
  next bus =>
    rw [if_pos bus] at inside
    exact Runs.bracket noBus inside
  next bus =>
    rw [if_neg bus] at inside
    exact inside

theorem usesOf_aroundSap (d : Descriptor) :
    usesOf d (aroundSap o egress sap sent) = usesOf d (plainRound sap) ++ usesOf d sent := by
  unfold aroundSap plainSapOpen plainSapClose
  cases sap <;> simp

theorem openingsOf_aroundSap (i : Nat) : openingsOf (.media i) (aroundSap o egress sap sent) =
    openingsOf (.media i) (plainRound sap) ++ openingsOf (.media i) sent := by
  unfold aroundSap plainSapOpen plainSapClose
  cases sap <;> simp [openingsOf_opened]

theorem usesOf_onBus (d : Descriptor) : usesOf d (onBus env us inner) = usesOf d inner := by
  unfold onBus
  split <;> simp

theorem openingsOf_onBus
    (i : Nat) : openingsOf (.media i) (onBus env us inner) = openingsOf (.media i) inner := by
  unfold onBus
  split <;> simp [openingsOf_opened]

end Bracket

section Inner

variable {host : Host} {o : Options} {cfg : PlainLaunch} {env : Surroundings} {run : PlainRun}

-- A replay and a tone know nothing of the concealment options.
def sendingOptions (o : Options) (cfg : PlainLaunch) : Options :=
  if cfg.genTone = false ∧ cfg.iface.isSome then o else { o with plcXfade := 0, plcFade := 0 }

def MediaSource.length : MediaSource → Nat
  | .captured frames => frames.length
  | .tone blocks => blocks.length

/-- Where a source comes from: the tone until it is stopped, the wanted frames that are read from an interface,
or the records of a file. -/
def PlainSource (cfg : PlainLaunch) (env : Surroundings) : MediaSource → Prop
  | .tone blocks => cfg.genTone = true ∧ ∃ n, env.gStop n = true ∧ (∀ k < n, env.gStop k = false) ∧
      blocks = (List.range n).map (env.tone cfg.toneFreq cfg.toneDetune)
  | .captured frames => cfg.genTone = false ∧
      match cfg.iface, cfg.pcap with
      | some ifname, _ =>
        match env.capture ifname with
        | some script => frames = (reacFrames (listenReads env script)).filter (frameWanted cfg.bcastOnly)
        | none => frames = []
      | none, some path => replayFrames env path = some frames
      | none, none => frames = []

def PlainLaunch.Sourceless (cfg : PlainLaunch) : Prop :=
  cfg.genTone = false ∧ cfg.iface = none ∧ cfg.pcap = none

/-- How often a source announces: never during a replay, else once at its start and then with every publish of
an event loop, or without one at least once for each second of what it sends. -/
def PlainRounds (cfg : PlainLaunch) (env : Surroundings) (mode : ReacMode) (source : MediaSource)
    (rounds : Nat) : Prop :=
  if cfg.genTone = false ∧ cfg.iface = none then rounds = 0
  else
    match if cfg.genTone then none else env.eventLoop with
    | some events => rounds = events.count .publish + 1
    | none => source.length / pps mode + 1 ≤ rounds

/-- A source while the media socket is open. -/
structure PlainRun.Inner (run : PlainRun) (host : Host) (o : Options) (cfg : PlainLaunch) (env : Surroundings) :
    Prop where
  source : PlainSource cfg env run.source
  runs : Runs {.media 0} run.trace {.media 0}
  code : run.rc = 0 ∨ run.rc = 1 ∧ run.source = .captured [] ∨
    run.rc = 2 ∧ cfg.Sourceless ∧ run.trace = [] ∧ run.source = .captured []
  opensNone : ∀ i, openingsOf (.media i) run.trace = []
  media : usesOf (.media 0) run.trace = (plainPackets host (sendingOptions o cfg) run.source).map .datagram
  announcements : ∃ rounds, usesOf .sap run.trace =
      (List.replicate rounds ((plainAnnouncement host o).toList.map fun pkt => .datagram pkt.bytes)).flatten ∧
    (run.rc = 0 → PlainRounds cfg env (o.mode host) run.source rounds)

theorem plainRound_packets (sap : Option SapPacket) :
    usesOf .sap (plainRound sap) = sap.toList.map fun pkt => .datagram pkt.bytes := by
  cases sap with
  | none => rfl
  | some pkt => simp [plainRound, announceAll, sendPacket, usesOf_used]

theorem runGenTone_inner (tone : cfg.genTone = true) (done : runGenTone host o cfg env = some run) :
    run.Inner host o cfg env := by
  simp only [runGenTone, Option.bind_eq_bind, Option.bind_eq_some_iff] at done
  obtain ⟨s, ended, done⟩ := done
  obtain rfl := Option.some.inj done
  have serving := plainRound_uses (B := {.media 0}) rfl (plainAnnouncement host o)
  obtain ⟨sends, stopped⟩ := genToneLoop_sends serving (toneRun_start o.payloadType o.ssrc) ended
  have roundOnly (i : Nat) : usesOf (.media i) (plainRound (plainAnnouncement host o)) = [] :=
    serving.sap.usesOf_other fun inside => nomatch inside.2
  constructor
  next => exact ⟨tone, _, stopped, sends.running, sends.blocks⟩
  next => exact aroundSap_runs (by simp) serving sends.sent.uses
  next => exact .inl rfl
  next =>
    intro i
    rw [openingsOf_aroundSap, serving.sap.openingsOf, sends.sent.uses.openingsOf, List.append_nil]
  next =>
    rw [usesOf_aroundSap, roundOnly, List.nil_append, sends.sent.media, sendingOptions, if_neg (by simp [tone])]
    rfl
  next =>
    refine ⟨(if 0 < pps (o.mode host) then dues (2 ^ env.long.bits) (pps (o.mode host)) s.blocks.length
      else 0) + 1, ?_, fun _ => ?_⟩
    next => rw [usesOf_aroundSap, sends.sent.sap, plainRound_packets, List.replicate_succ, List.flatten_cons]
    next =>
      rw [PlainRounds, if_neg (by simp [tone]), if_pos tone]
      refine Nat.succ_le_succ ?_
      split
      next moving => exact div_le_dues moving _
      next still => simp [MediaSource.length, Nat.eq_zero_of_not_pos still]

theorem runPcap_inner {path : List Char} (replays : cfg.genTone = false ∧ cfg.iface = none)
    (pcap : cfg.pcap = some path)
    (done : runPcap env (o.mode host) o.payloadType o.ssrc path = some run) : run.Inner host o cfg env := by
  simp only [runPcap, Option.bind_eq_bind, Option.bind_eq_some_iff] at done
  obtain ⟨source, replayed, done⟩ := done
  obtain rfl := Option.some.inj done
  have serving : Serving {Descriptor.media 0} [] := ⟨rfl, fun _ member => absurd member List.not_mem_nil⟩
  obtain ⟨sends, silent⟩ := replayRun_sends serving.emits (by simp) replayed
  constructor
  next =>
    rw [PlainSource, replays.2, pcap]
    exact ⟨replays.1, replayRun_fed replayed⟩
  next => exact sends.runs
  next => exact sends.code.imp_right fun failed => .inl ⟨failed.1, congrArg MediaSource.captured failed.2⟩
  next => exact fun i => sends.opensNone _ nofun nofun
  next =>
    rw [sends.media (.media 0) nofun nofun nofun, plainOnFrame_run, usesOf_emitUdp, sendingOptions,
      if_neg (by simp [replays.2]), plainPackets, List.map_map]
    rfl
  next =>
    refine ⟨0, silent, fun _ => ?_⟩
    rw [PlainRounds, if_pos replays]

theorem runListen_inner {ifname : List Char} (listens : cfg.genTone = false ∧ cfg.iface = some ifname)
    (done : runListen host o cfg env ifname = some run) : run.Inner host o cfg env := by
  unfold runListen at done
  cases script : env.capture ifname with
  | none =>
    simp only [script, Option.some.injEq] at done
    rw [← done]
    have source : PlainSource cfg env (.captured []) := by
      rw [PlainSource, listens.2]
      simp [script, listens.1]
    exact ⟨source, .nil, .inr (.inl ⟨rfl, rfl⟩), fun _ => rfl, rfl, 0, rfl,
      fun refused => absurd refused (by decide)⟩
  | some events =>
    simp only [script, Option.bind_eq_bind, Option.bind_eq_some_iff] at done
    obtain ⟨⟨sent, fed⟩, looped, done⟩ := done
    obtain rfl := Option.some.inj done
    let B := withBus (insert .capture {Descriptor.media 0}) env
    have isMedia : .media 0 ∈ B := mem_insertIf (by simp) _ _
    have noSap : .sap ∉ B := by
      simp only [B, withBus]
      split <;> simp
    have serving := plainRound_uses isMedia (plainAnnouncement host o)
    have bus (loops : env.eventLoop.isSome) : .bus ∈ withSap B (plainAnnouncement host o) :=
      mem_insertIf (by simp [B, withBus, loops]) _ _
    have capture : .capture ∈ withSap B (plainAnnouncement host o) :=
      mem_insertIf (mem_insertIf (by simp) _ _) _ _
    obtain ⟨⟨rounds, sends, often⟩, passed⟩ := listenLoop_sends serving bus capture looped
    have roundOnly (i : Nat) : usesOf (.media i) (plainRound (plainAnnouncement host o)) = [] :=
      serving.sap.usesOf_other fun inside => nomatch inside.2
    constructor
    next =>
      rw [PlainSource, listens.2]
      simp only [script]
      exact ⟨listens.1, passed⟩
    next => exact Runs.bracket (by simp) (onBus_runs (by simp) (aroundSap_runs noSap serving sends.uses))
    next => exact .inl rfl
    next =>
      intro i
      simp only [List.cons_append, openingsOf_opened, openingsOf_append, openingsOf_onBus, openingsOf_aroundSap,
        serving.sap.openingsOf, sends.uses.openingsOf]
      rfl
    next =>
      have same : sendingOptions o cfg = o := if_pos ⟨listens.1, by simp [listens.2]⟩
      simp only [List.cons_append, usesOf_opened, usesOf_append, usesOf_onBus, usesOf_aroundSap, roundOnly,
        sends.media, same]
      simp only [usesOf_closed, usesOf_nil, List.append_nil, List.nil_append]
      rfl
    next =>
      refine ⟨rounds + 1, ?_, fun _ => ?_⟩
      next =>
        simp only [List.cons_append, usesOf_opened, usesOf_append, usesOf_onBus, usesOf_aroundSap, sends.sap,
          usesOf_closed, usesOf_nil, List.append_nil, plainRound_packets, List.replicate_succ,
          List.flatten_cons]
      next =>
        rw [PlainRounds, if_neg (by simp [listens.2]), if_neg (by simp [listens.1])]
        cases loops : env.eventLoop with
        | some events =>
          rw [loops] at often
          exact congrArg (· + 1) often
        | none =>
          rw [loops] at often
          exact Nat.succ_le_succ often

theorem plainInner_inner (done : plainInner host o cfg env = some run) : run.Inner host o cfg env := by
  unfold plainInner at done
  cases tone : cfg.genTone with
  | true =>
    rw [if_pos tone] at done
    exact runGenTone_inner tone done
  | false =>
    rw [if_neg (by simp [tone])] at done
    cases iface : cfg.iface with
    | some ifname =>
      simp only [iface] at done
      exact runListen_inner ⟨tone, iface⟩ done
    | none =>
      cases pcap : cfg.pcap with
      | some path =>
        simp only [iface, pcap] at done
        exact runPcap_inner ⟨tone, iface⟩ pcap done
      | none =>
        simp only [iface, pcap, Option.some.injEq] at done
        rw [← done]
        have source : PlainSource cfg env (.captured []) := by
          rw [PlainSource, iface, pcap]
          exact ⟨tone, rfl⟩
        exact ⟨source, .nil, .inr (.inr ⟨rfl, ⟨tone, iface, pcap⟩, rfl, rfl⟩), fun _ => rfl, rfl, 0, rfl,
          fun refused => absurd refused (by decide)⟩

/-- One socket, to the destination of the command line, with the packets of the source, and whole
announcements of it. -/
structure PlainDelivery (host : Host) (o : Options) (cfg : PlainLaunch) (env : Surroundings) (run : PlainRun) :
    Prop where
  source : PlainSource cfg env run.source
  code : run.rc = 0 ∨ run.rc = 1 ∧ run.source = .captured [] ∨
    run.rc = 2 ∧ cfg.Sourceless ∧ run.source = .captured [] ∧ ∀ d bytes, sendPacket d bytes ∉ run.trace
  sockets : ∀ i, openingsOf (.media i) run.trace = if i = 0 then [plainSender o cfg] else []
  media : usesOf (.media 0) run.trace =
    .tos (dscpTos cfg.mediaDscp) :: (plainPackets host (sendingOptions o cfg) run.source).map .datagram
  announcements : ∃ rounds, usesOf .sap run.trace =
      (List.replicate rounds ((plainAnnouncement host o).toList.map fun pkt => .datagram pkt.bytes)).flatten ∧
    (run.rc = 0 → PlainRounds cfg env (o.mode host) run.source rounds)

theorem runPlain_delivers (done : runPlain host o cfg env = some run) :
    Runs ∅ run.trace ∅ ∧
      if host.sendOpen o.udpIp o.udpPort then PlainDelivery host o cfg env run
      else run.rc = 1 ∧ run.trace = [] := by
  unfold runPlain at done
  cases isOpen : host.sendOpen o.udpIp o.udpPort with
  | false =>
    simp only [isOpen, Bool.false_eq_true, if_false, Option.some.injEq] at done ⊢
    rw [← done]
    exact ⟨.nil, rfl, rfl⟩
  | true =>
    simp only [isOpen, if_true, Option.bind_eq_bind, Option.bind_eq_some_iff] at done ⊢
    obtain ⟨inner, sent, done⟩ := done
    obtain rfl := Option.some.inj done
    have sends := plainInner_inner sent
    have single : insert (Descriptor.media 0) ∅ = ({.media 0} : Set Descriptor) := by simp
    constructor
    next =>
      refine Runs.bracket (S := ∅) (Set.notMem_empty _) ?_
      rw [single]
      exact .used rfl sends.runs
    next =>
      constructor
      next => exact sends.source
      next =>
        refine sends.code.imp_right (Or.imp_right fun refused => ?_)
        obtain ⟨code, sourceless, silent, nothing⟩ := refused
        refine ⟨code, sourceless, nothing, fun d bytes => ?_⟩
        simp [silent, sendPacket]
      next =>
        intro i
        simp only [List.cons_append, openingsOf_opened, openingsOf_used, openingsOf_append, sends.opensNone,
          openingsOf_closed, openingsOf_nil, List.append_nil, Descriptor.media.injEq, eq_comm (a := 0)]
      next =>
        simp only [List.cons_append, usesOf_opened, usesOf_used, if_true, usesOf_append, sends.media,
          usesOf_closed, usesOf_nil, List.append_nil]
      next =>
        obtain ⟨rounds, announced, often⟩ := sends.announcements
        refine ⟨rounds, ?_, often⟩
        simp only [List.cons_append, usesOf_opened, usesOf_used, usesOf_append, announced, usesOf_closed,
          usesOf_nil, List.append_nil]
        rfl

end Inner

end ReacAes67
