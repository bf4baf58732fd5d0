import ReacAes67.LastFrame
import ReacAes67.PlainProcess
import ReacAes67.Statistics

set_option autoImplicit false

/-!
# The service of a listening process

The event loop may make its callbacks in any order. Whatever that is, the media
socket carries what the frames drained so far produce, and a status is that of
the moment of the last publish.
-/

namespace ReacAes67

open BoundedLoop Handles

variable {σ : Type} {origin : Pipeline σ} {bcastOnly : Bool}

-- The drain with its effects is the drain.
theorem drainTurn_listen (bcastOnly : Bool) (s : Traced σ) :
    (drainTurn bcastOnly s).map Traced.live Traced.live = listenTurn bcastOnly s.live := by
  simp only [drainTurn, listenTurn]
  cases s.live.capture true with
  | none => rfl
  | some found =>
    obtain ⟨result, live⟩ := found
    cases result with
    | idle => rfl
    | error => rfl
    | frame buf => by_cases wants : frameWanted bcastOnly buf = true <;> simp [wants]

theorem drain_listen (bcastOnly : Bool) (live : Live σ) :
    (drain bcastOnly live).map Traced.live = listenOnReadable bcastOnly live := by
  have turns (s : Traced σ) : (some (drainTurn bcastOnly s)).map (Sum.map Traced.live Traced.live) =
      some (listenTurn bcastOnly s.live) := congrArg some (drainTurn_listen bcastOnly s)
  exact loop_map (fun s => some (listenTurn bcastOnly s)) Traced.live Traced.live turns _ ⟨live, []⟩

/-- A live process whose counter has counted each of its frames once. -/
structure Live.Drains (s : Live σ) (bcastOnly : Bool) (origin : Pipeline σ) : Prop where
  follows : s.Follows (frameWanted bcastOnly) origin
  counted : s.counted = s.passed.length

/-- The part of a drain that has been made: what it has sent is what it has put out. -/
structure Traced.Drains (s : Traced σ) (bcastOnly : Bool) (origin : Pipeline σ) (before : List Emitted) :
    Prop where
  drains : s.live.Drains bcastOnly origin
  uses : UsesOnly {.media 0, .capture} s.trace
  media : (before.map fun e => .datagram e.buf) ++ usesOf (.media 0) s.trace =
    s.live.emitted.map fun e => .datagram e.buf

theorem media_receive (result : CaptureResult) : usesOf (.media 0) [receive result] = [] := by
  simp [receive, usesOf_used]

theorem emitUdp_uses (emitted : List Emitted) : UsesOnly {Descriptor.media 0} (emitUdp emitted) := by
  intro event member
  obtain ⟨e, _, rfl⟩ := List.mem_map.mp member
  exact ⟨_, rfl, _, rfl⟩

@[simp] theorem usesOf_emitUdp (emitted : List Emitted) :
    usesOf (.media 0) (emitUdp emitted) = emitted.map fun e => .datagram e.buf := by
  simp [emitUdp, sendPacket, usesOf, List.filterMap_map]

section Drain

variable {s s' : Traced σ} {before : List Emitted}

-- A call that gives nothing to feed.
theorem Traced.Drains.read (drained : s.Drains bcastOnly origin before) {live : Live σ}
    (follows : live.Follows (frameWanted bcastOnly) origin)
    (kept : live.counted = s.live.counted ∧ live.passed = s.live.passed ∧ live.emitted = s.live.emitted)
    (result : CaptureResult) :
    (⟨live, s.trace ++ [receive result]⟩ : Traced σ).Drains bcastOnly origin before where
  drains := ⟨follows, by rw [kept.1, kept.2.1]; exact drained.drains.counted⟩
  uses := drained.uses.append fun event member => ⟨.capture, by simp, _, List.mem_singleton.mp member⟩
  media := by
    rw [usesOf_append, media_receive, List.append_nil, drained.media, kept.2.2]

theorem Live.capture_emitted {s s' : Live σ} {nonblock : Bool} {result : CaptureResult}
    (next : s.capture nonblock = some (result, s')) : s'.emitted = s.emitted := by
  obtain ⟨_, _, same⟩ := Option.map_eq_some_iff.mp next
  cases same
  rfl

theorem drainTurn_drains (drained : s.Drains bcastOnly origin before) :
    (∀ s', drainTurn bcastOnly s = .inl s' →
        s'.Drains bcastOnly origin before ∧ s'.live.script.length < s.live.script.length) ∧
      ∀ s', drainTurn bcastOnly s = .inr s' → s'.Drains bcastOnly origin before := by
  cases next : s.live.capture true with
  | none =>
    simpa [drainTurn, next] using drained.read drained.drains.follows ⟨rfl, rfl, rfl⟩ .idle
  | some found =>
    obtain ⟨result, live⟩ := found
    obtain ⟨samePl, _, _, counted, passed⟩ := Live.capture_kept next
    have emitted := Live.capture_emitted next
    have shorter := Live.capture_shorter next
    cases result with
    | idle =>
      simpa [drainTurn, next] using
        drained.read (drained.drains.follows.idle next rfl) ⟨counted, passed, emitted⟩ .idle
    | error =>
      simpa [drainTurn, next] using
        drained.read (drained.drains.follows.idle next rfl) ⟨counted, passed, emitted⟩ .error
    | frame buf =>
      cases wants : frameWanted bcastOnly buf with
      | false =>
        have skipped :=
          drained.read (drained.drains.follows.skip next wants) ⟨counted, passed, emitted⟩ (.frame buf)
        simpa [drainTurn, next, wants] using ⟨skipped, shorter⟩
      | true =>
        have follows := drained.drains.follows.feed next wants
        have fed : (⟨{ live.onFrame buf with counted := live.counted + 1 },
            s.trace ++ [receive (.frame buf)] ++ plainOnFrame live.pl buf⟩ : Traced σ).Drains bcastOnly origin
              before := {
          drains := ⟨⟨follows.passed, follows.output⟩, by
            simp [Live.onFrame, counted, passed, drained.drains.counted]⟩
          uses := (drained.uses.append fun event member =>
            ⟨.capture, by simp, _, List.mem_singleton.mp member⟩).append
              ((emitUdp_uses _).mono (by simp))
          media := by
            rw [usesOf_append, usesOf_append, media_receive, List.append_nil, ← List.append_assoc,
              drained.media, plainOnFrame, usesOf_emitUdp, ← List.map_append, ← emitted]
            rfl }
        simpa [drainTurn, next, wants, -List.append_assoc] using ⟨fed, shorter⟩

theorem drain_drains {live : Live σ} (drains : live.Drains bcastOnly origin) :
    ∃ s, drain bcastOnly live = some s ∧ s.Drains bcastOnly origin live.emitted := by
  have start : (⟨live, []⟩ : Traced σ).Drains bcastOnly origin live.emitted :=
    ⟨drains, fun _ member => absurd member List.not_mem_nil, List.append_nil _⟩
  obtain ⟨s, ended⟩ := loop_measured (fun s => some (drainTurn bcastOnly s))
    (·.Drains bcastOnly origin live.emitted) (·.live.script.length) (fun _ _ => Option.some_ne_none _)
    (fun s s' drained goes => (drainTurn_drains drained).1 s' (Option.some.inj goes)) _ _ start
    (Nat.lt_succ_self _)
  obtain ⟨last, drained, leaves⟩ := loop_last (fun s => some (drainTurn bcastOnly s))
    (·.Drains bcastOnly origin live.emitted)
    (fun s s' drained goes => ((drainTurn_drains drained).1 s' (Option.some.inj goes)).1) start ended
  exact ⟨s, ended, (drainTurn_drains drained).2 s (Option.some.inj leaves)⟩

-- A drain reads up to the first call that gives no frame, and leaves the rest on the socket.
theorem drain_reads {live : Live σ} {s : Traced σ} (drained : drain bcastOnly live = some s) :
    s.live.captured = live.captured ++ reacFrames (untilIdle 1 live.script) ∧
      s.live.script = live.script.drop (untilIdle 1 live.script).length := by
  have ended := drain_listen bcastOnly live
  rw [drained, Option.map_some] at ended
  constructor
  next =>
    obtain ⟨last, awaits, leaves⟩ := loop_last (fun s => some (listenTurn bcastOnly s))
      (fun s => s.captured ++ reacFrames (untilIdle 1 s.script) =
        live.captured ++ reacFrames (untilIdle 1 live.script))
      (fun s s' awaits goes => (listenTurn_awaits awaits).1 s' (Option.some.inj goes)) rfl ended.symm
    have captured := (listenTurn_awaits awaits).2 s.live (Option.some.inj leaves)
    have nothing : reacFrames (untilIdle 0 s.live.script) = [] := by cases s.live.script <;> rfl
    rwa [nothing, List.append_nil] at captured
  next =>
    obtain ⟨last, left, leaves⟩ := loop_last (fun s => some (listenTurn bcastOnly s))
      (fun s => s.script.drop (untilIdle 1 s.script).length =
        live.script.drop (untilIdle 1 live.script).length)
      (fun s s' left goes => (listenTurn_left left).1 s' (Option.some.inj goes)) rfl ended.symm
    exact (listenTurn_left left).2 s.live (Option.some.inj leaves)

theorem listenTurn_long (bcastOnly : Bool) (s : Live σ) :
    ((listenTurn bcastOnly s).elim id id).long = s.long := by
  cases next : s.capture true with
  | none => simp [listenTurn, next]
  | some found =>
    obtain ⟨result, live⟩ := found
    have same := (Live.capture_kept next).2.1
    cases result with
    | idle => simpa [listenTurn, next] using same
    | error => simpa [listenTurn, next] using same
    | frame buf =>
      by_cases wants : frameWanted bcastOnly buf = true <;>
        simp [listenTurn, next, wants, Live.onFrame, same]

theorem drain_long {live : Live σ} {s : Traced σ} (drained : drain bcastOnly live = some s) :
    s.live.long = live.long := by
  have ended := drain_listen bcastOnly live
  rw [drained, Option.map_some] at ended
  have turn {s t : Live σ} (goes : listenTurn bcastOnly s = .inl t ∨ listenTurn bcastOnly s = .inr t) :
      t.long = s.long := by
    have same := listenTurn_long bcastOnly s
    rcases goes with goes | goes <;> rwa [goes] at same
  obtain ⟨last, same, leaves⟩ := loop_last (fun s => some (listenTurn bcastOnly s)) (·.long = live.long)
    (fun s s' same goes => (turn (.inl (Option.some.inj goes))).trans same) rfl ended.symm
  exact (turn (.inr (Option.some.inj leaves))).trans same

end Drain

/-! ## Any order of callbacks -/

section Loop

variable {S : Set Descriptor} {round : Trace}

/-- The state and the trace of an event loop that has made some callbacks. -/
structure Listening.Sends (s : Listening σ) (trace : Trace) (S : Set Descriptor) (bcastOnly : Bool)
    (origin : Pipeline σ) : Prop where
  drains : s.live.Drains bcastOnly origin
  uses : UsesOnly (insert .capture S) trace
  media : usesOf (.media 0) trace = s.live.emitted.map fun e => .datagram e.buf

/-- The sockets and the bus of a listening process. -/
structure Serving (S : Set Descriptor) (round : Trace) : Prop where
  media : .media 0 ∈ S
  sap : UsesOnly (S ∩ {.sap}) round

theorem Listening.Sends.start (long : LongWidth) (bcastOnly : Bool) (pl : Pipeline σ) (script : List RecvEvent)
    (us : UbusStats) : (⟨Live.start long pl script, us⟩ : Listening σ).Sends [] S bcastOnly pl where
  drains := ⟨Live.start_follows long pl script, rfl⟩
  uses := fun _ member => absurd member List.not_mem_nil
  media := rfl

-- A drain from a moment of the loop ends.
theorem loopStep_readable {s : Listening σ} (drains : s.live.Drains bcastOnly origin) (round : Trace)
    (arrived : List RecvEvent) :
    ∃ drained, drain bcastOnly { s.live with script := s.live.script ++ arrived } = some drained ∧
      loopStep bcastOnly round s (.readable arrived) = ({ s with live := drained.live }, drained.trace) ∧
      drained.Drains bcastOnly origin s.live.emitted := by
  have ready : ({ s.live with script := s.live.script ++ arrived } : Live σ).Drains bcastOnly origin :=
    ⟨⟨drains.follows.passed, drains.follows.output⟩, drains.counted⟩
  obtain ⟨drained, ended, sends⟩ := drain_drains ready
  exact ⟨drained, ended, by simp only [loopStep, ended], sends⟩

theorem loopStep_sends (serving : Serving S round) (bus : .bus ∈ S) {s : Listening σ} {trace : Trace}
    (sends : s.Sends trace S bcastOnly origin) (event : LoopEvent) :
    (loopStep bcastOnly round s event).1.Sends (trace ++ (loopStep bcastOnly round s event).2) S bcastOnly
      origin := by
  cases event with
  | readable arrived =>
    obtain ⟨drained, _, stepped, drains⟩ := loopStep_readable sends.drains round arrived
    rw [stepped]
    exact {
      drains := drains.drains
      uses := sends.uses.append (drains.uses.mono (by
        rintro d (rfl | rfl)
        · exact Set.mem_insert_of_mem _ serving.media
        · exact Set.mem_insert _ _))
      media := by rw [usesOf_append, sends.media, drains.media] }
  | publish =>
    have quiet : usesOf (.media 0) round = [] := serving.sap.usesOf_other fun inside => nomatch inside.2
    exact {
      drains := sends.drains
      uses := sends.uses.append (serving.sap.mono (Set.inter_subset_left.trans (Set.subset_insert _ _)))
      media := by rw [usesOf_append, sends.media, loopStep, quiet, List.append_nil] }
  | status =>
    exact {
      drains := sends.drains
      uses := sends.uses.append fun event member =>
        ⟨.bus, Set.mem_insert_of_mem _ bus, _, List.mem_singleton.mp member⟩
      media := by
        rw [usesOf_append, sends.media]
        simp [loopStep, usesOf_used] }

theorem loopRun_sends (long : LongWidth) (bcastOnly : Bool) (serving : Serving S round) (bus : .bus ∈ S)
    (pl : Pipeline σ) (script : List RecvEvent) (us : UbusStats) (events : List LoopEvent) :
    let run := Mealy.run (loopStep bcastOnly round) ⟨Live.start long pl script, us⟩ events
    run.1.Sends run.2 S bcastOnly pl :=
  Mealy.run_invariant (loopStep bcastOnly round) (fun s trace => s.Sends trace S bcastOnly pl)
    (fun _ _ event sends => loopStep_sends serving bus sends event) _ []
    (.start long bcastOnly pl script us) events

/-- What the callbacks of an event loop read, each up to the first call that gives no frame. -/
def callbackReads : List RecvEvent → List LoopEvent → List RecvEvent
  | _, [] => []
  | waiting, .readable arrived :: events =>
    let read := untilIdle 1 (waiting ++ arrived)
    read ++ callbackReads ((waiting ++ arrived).drop read.length) events
  | waiting, _ :: events => callbackReads waiting events

theorem loopRun_reads {s : Listening σ} (drains : s.live.Drains bcastOnly origin) (round : Trace)
    (events : List LoopEvent) : (Mealy.run (loopStep bcastOnly round) s events).1.live.captured =
      s.live.captured ++ reacFrames (callbackReads s.live.script events) := by
  induction events generalizing s with
  | nil => exact (List.append_nil _).symm
  | cons event events ih =>
    cases event with
    | readable arrived =>
      obtain ⟨drained, ended, stepped, sends⟩ := loopStep_readable drains round arrived
      obtain ⟨captured, left⟩ := drain_reads ended
      have later := ih (s := { s with live := drained.live }) sends.drains
      rw [Mealy.run_cons, stepped]
      simp only at later ⊢
      rw [later, captured, left, callbackReads, reacFrames, reacFrames, reacFrames, List.filterMap_append,
        List.append_assoc]
    | publish => exact ih (s := { s with us := listenOnPublish s }) drains
    | status => exact ih drains

-- The announcements go out with every publish.
theorem loopRun_rounds {s : Listening σ} (drains : s.live.Drains bcastOnly origin) (round : Trace)
    (events : List LoopEvent) : usesOf .sap (Mealy.run (loopStep bcastOnly round) s events).2 =
      (List.replicate (events.count .publish) (usesOf .sap round)).flatten := by
  induction events generalizing s with
  | nil => rfl
  | cons event events ih =>
    rw [Mealy.run_cons, usesOf_append, List.count_cons]
    cases event with
    | readable arrived =>
      obtain ⟨drained, _, stepped, sends⟩ := loopStep_readable drains round arrived
      have silent : usesOf .sap drained.trace = [] := sends.uses.usesOf_other (by simp)
      rw [stepped]
      simpa [silent] using ih (s := { s with live := drained.live }) sends.drains
    | publish =>
      simpa [loopStep, List.replicate_succ] using
        congrArg (usesOf .sap round ++ ·) (ih (s := { s with us := listenOnPublish s }) drains)
    | status => simpa [loopStep, usesOf_used] using ih drains

end Loop

/-! ## What a status says -/

section Tier

theorem concealLoop_lastTier (pl : Pipeline σ) (step : MediaClockStep) (indices : List Nat) :
    (Mealy.run (concealOne step) pl indices).1.stats.lastTier = none ↔
      indices = [] ∧ pl.stats.lastTier = none := by
  induction indices generalizing pl with
  | nil => simp
  | cons i indices ih => simp [ih, concealOne, emitPcm_lastTier]

/-- A tier has been used exactly when something has been lost. -/
def Pipeline.TierKnown (pl : Pipeline σ) : Prop := pl.stats.lastTier = none ↔ pl.stats.lossTotal = 0

theorem pipelineOnFrame_tier {pl : Pipeline σ} (known : pl.TierKnown) (raw : List UInt8) :
    (pipelineOnFrame pl raw).2.1.TierKnown := by
  cases valid : (reacFrameInspect raw).valid with
  | false =>
    rw [pipelineOnFrame, reacDecode_malformed pl.mode SampleBlock.Block.blank valid]
    exact known
  | true =>
    let accounted := mediaClockOnPacket pl.clock (reacFrameInspect raw).counter
    let counted := countLost pl accounted
    obtain ⟨same, _⟩ := concealLoop_stage counted accounted.2 (List.range accounted.2.silencePackets)
    let filled := Mealy.run (concealOne accounted.2) counted (List.range accounted.2.silencePackets)
    obtain ⟨lastSame, _⟩ := emitPcm_stage filled.1 (realPcm pl.mode raw accounted.2)
    have tier : (pipelineOnFrame pl raw).2.1.stats.lastTier = filled.1.stats.lastTier := by
      rw [pipelineOnFrame, reacDecode_valid pl.mode valid]
      exact emitPcm_lastTier _ _ _ _
    have lossTotal : (pipelineOnFrame pl raw).2.1.stats.lossTotal =
        pl.stats.lossTotal + accounted.2.silencePackets := by
      rw [pipelineOnFrame, reacDecode_valid pl.mode valid]
      exact lastSame.lossTotal.trans same.lossTotal
    have before : counted.stats.lastTier = none ↔ pl.stats.lossTotal = 0 := known
    rw [Pipeline.TierKnown, tier, lossTotal, concealLoop_lastTier, before, List.range_eq_nil]
    omega

theorem pipelineRun_tier {pl : Pipeline σ} (known : pl.TierKnown) (frames : List (List UInt8)) :
    (pipelineRun pl frames).1.TierKnown :=
  Mealy.run_invariant (fun pl raw => (pipelineOnFrame pl raw).2) (fun pl _ => pl.TierKnown)
    (fun _ _ raw known => pipelineOnFrame_tier known raw) pl [] known frames

theorem tierName_clean (tier : Option PlcTier) : tierName tier = "clean".toList ↔ tier = none := by
  cases tier with
  | none => exact iff_of_true rfl rfl
  | some tier => cases tier <;> exact iff_of_false (by decide) nofun

end Tier

section Status

variable {round : Trace}

-- Only a publish takes a new snapshot.
theorem loopRun_us (bcastOnly : Bool) (round : Trace) (s : Listening σ) {events : List LoopEvent}
    (quiet : .publish ∉ events) : (Mealy.run (loopStep bcastOnly round) s events).1.us = s.us := by
  induction events generalizing s with
  | nil => rfl
  | cons event events ih =>
    rw [Mealy.run_cons, ih _ fun later => quiet (List.mem_cons_of_mem _ later)]
    cases event with
    | readable arrived =>
      simp only [loopStep]
      split <;> rfl
    | publish => exact absurd List.mem_cons_self quiet
    | status => rfl

theorem loopRun_long (bcastOnly : Bool) (round : Trace) (s : Listening σ) (events : List LoopEvent) :
    (Mealy.run (loopStep bcastOnly round) s events).1.live.long = s.live.long := by
  induction events generalizing s with
  | nil => rfl
  | cons event events ih =>
    rw [Mealy.run_cons, ih]
    cases event with
    | readable arrived =>
      simp only [loopStep]
      split
      next drained => exact (drain_long drained :)
      next => rfl
    | publish => rfl
    | status => rfl

/-- A status of a stream that has fed its pipeline `fed` and put `carried` on its media socket. -/
structure StatusReply.Reports (r : StatusReply) (long : LongWidth) (mode : ReacMode)
    (fed carried : List (List UInt8)) : Prop where
  packets : r.packets = (wellFormed fed).length
  sent : r.packets + r.concealed = carried.length
  losses : r.concealed = r.lossTotal
  rtpSeq : ∀ pkt, carried.getLast? = some pkt →
    ∃ header payload, parseRtp pkt = some (header, payload) ∧ header.sequenceNumber = r.rtpSeq
  packetsPerSec : r.packetsPerSec = pps mode
  uptime : r.uptimeS = UInt32.ofNat (fed.length % 2 ^ long.bits / pps mode)
  tier : r.plcTier = "clean".toList ↔ r.lossTotal = 0

theorem pipelineRun_malformed (pl : Pipeline σ) (frames : List (List UInt8)) :
    (pipelineRun pl frames).1.stats.malformed =
      pl.stats.malformed + frames.countP fun raw => !(reacFrameInspect raw).valid := by
  induction frames generalizing pl with
  | nil => rfl
  | cons raw frames ih =>
    have onward : (pipelineRun pl (raw :: frames)).1 = (pipelineRun (pipelineOnFrame pl raw).2.1 frames).1 :=
      rfl
    rw [onward, ih, pipelineOnFrame_malformed, List.countP_cons]
    cases (reacFrameInspect raw).valid <;> simp [Nat.add_assoc, Nat.add_comm 1]

-- The packet counter counts the frames that were decoded.
theorem pipelineRun_packets {pl : Pipeline σ} (unused : pl.Unused) (frames : List (List UInt8)) :
    (pipelineRun pl frames).1.stats.packets = (wellFormed frames).length := by
  have calls := (pipelineRun_conserved unused frames).calls
  have malformed := pipelineRun_malformed pl frames
  have parts := List.length_eq_countP_add_countP (fun raw => (reacFrameInspect raw).valid) (l := frames)
  rw [wellFormed, ← List.countP_eq_length_filter]
  rw [unused.malformed] at malformed
  simp only [Bool.not_eq_true, Bool.decide_eq_false] at parts
  omega

theorem snapshot_reports (pl : Pipeline Unit) (fits : pl.mode.Fits) (moving : pps pl.mode ≠ 0)
    (direct : pl.pcmSink = none) (unused : pl.Unused) (known : pl.TierKnown) {s : Listening Unit}
    {trace : Trace} {S : Set Descriptor} (sends : s.Sends trace S bcastOnly pl) :
    (statusCb (listenOnPublish s)).Reports s.live.long pl.mode s.live.passed
    (datagramsOf (.media 0) trace) := by
  have output := sends.drains.follows.output
  have carried : datagramsOf (.media 0) trace = (pipelineRun pl s.live.passed).2.map (·.buf) := by
    rw [datagramsOf, sends.media, output, List.filterMap_map]
    exact congrFun (List.filterMap_eq_map (f := Emitted.buf)) s.live.emitted
  have stats : s.live.pl.stats = (pipelineRun pl s.live.passed).1.stats := by rw [output]
  have mode : s.live.pl.mode = pl.mode := by
    rw [← pipelineRun_mode pl s.live.passed, output]
  have conserved := pipelineRun_conserved unused s.live.passed
  have flags : (pcmStream pl.mode pl.front s.live.passed).length = (pipelineRun pl s.live.passed).2.length := by
    rw [pipelineRun_default fits direct, List.length_mapIdx]
  have packets : (statusCb (listenOnPublish s)).packets = (pipelineRun pl s.live.passed).1.stats.packets :=
    congrArg PipelineStats.packets stats
  have concealed : (statusCb (listenOnPublish s)).concealed =
      (pipelineRun pl s.live.passed).1.stats.concealed :=
    congrArg PipelineStats.concealed stats
  have lossTotal : (statusCb (listenOnPublish s)).lossTotal =
      (pipelineRun pl s.live.passed).1.stats.lossTotal :=
    congrArg PipelineStats.lossTotal stats
  constructor
  next => rw [packets, pipelineRun_packets unused]
  next => rw [packets, concealed, conserved.emitted, List.length_map, flags, carried, List.length_map]
  next => rw [concealed, lossTotal, conserved.lossTotal]
  next =>
    intro pkt last
    rw [carried, List.getLast?_map, Option.map_eq_some_iff] at last
    obtain ⟨e, last, rfl⟩ := last
    obtain ⟨header, payload, parsed, number⟩ := (pipelineRun_lastSeq fits direct unused _ last).header
    exact ⟨header, payload, parsed, number.trans (congrArg PipelineStats.lastSeq stats).symm⟩
  next =>
    have rate : (statusCb (listenOnPublish s)).packetsPerSec = pps s.live.pl.mode := rfl
    rw [rate, mode]
  next =>
    have seconds : (statusCb (listenOnPublish s)).uptimeS =
        UInt32.ofNat (s.live.shown / if pps s.live.pl.mode ≠ 0 then pps s.live.pl.mode else 1) := rfl
    rw [seconds, mode, if_pos moving, Live.shown, sends.drains.counted]
  next =>
    have tier : (statusCb (listenOnPublish s)).plcTier = tierName s.live.pl.stats.lastTier := rfl
    rw [tier, stats, tierName_clean, lossTotal]
    exact pipelineRun_tier known s.live.passed

-- A snapshot that `calloc` has made.
structure StatusReply.Zeroed (r : StatusReply) : Prop where
  packets : r.packets = 0
  concealed : r.concealed = 0
  lossTotal : r.lossTotal = 0
  rtpSeq : r.rtpSeq = 0
  packetsPerSec : r.packetsPerSec = 0
  uptime : r.uptimeS = 0
  tier : r.plcTier = "crossfade".toList

/-- Whatever the order of the callbacks, a status tells what had been sent at the last publish, and before the
first one nothing but a tier that has not been used. -/
theorem eventLoop_status {host : Host} (modes : host.LibreacModes) (o : Options) (cfg : PlainLaunch)
    (long : LongWidth) (ifname : List Char) (script : List RecvEvent) (round : Trace)
    (sapOnly : UsesOnly {Descriptor.sap} round) :
    let run := Mealy.run (loopStep cfg.bcastOnly round) (listenStart host o cfg long ifname script)
    let fed events := (reacFrames (callbackReads script events)).filter (frameWanted cfg.bcastOnly)
    (∀ before between, .publish ∉ between →
      ∃ r, (run (before ++ .publish :: between ++ [.status])).2 =
          (run (before ++ .publish :: between)).2 ++ [.used .bus (.reply r)] ∧
        r.Reports long (o.mode host) (fed before) (datagramsOf (.media 0) (run before).2)) ∧
      ∀ events, .publish ∉ events →
        ∃ r, (run (events ++ [.status])).2 = (run events).2 ++ [.used .bus (.reply r)] ∧ r.Zeroed := by
  intro run fed
  let start := listenStart host o cfg long ifname script
  have asked (events : List LoopEvent) :
      (run (events ++ [.status])).2 = (run events).2 ++ [.used .bus (.reply (statusCb (run events).1.us))] := by
    have onward := congrArg Prod.snd (Mealy.run_append (loopStep cfg.bcastOnly round) start events [.status])
    exact onward
  constructor
  next =>
    intro before between quiet
    obtain ⟨rate, standard, mode⟩ := modes.known (if o.profileDante then 48000 else o.rate)
    have broadcast : o.mode host = broadcastMode rate := mode
    let pl := pipelineInitEx (o.mode host) o.payloadType o.ssrc o.plcXfade o.plcFade
    have fits : (o.mode host).Fits := by
      rw [broadcast]
      exact (broadcastMode_fillsFrame rate).fits
    have moving : pps (o.mode host) ≠ 0 := by
      rw [broadcast]
      exact pps_broadcastMode standard
    have unused : pl.Unused :=
      (startPipeline_unused (o.mode host) o.payloadType o.ssrc o.plcXfade o.plcFade none
      (none : Option (PcmSink Unit)) ()).1
    have serving : Serving {Descriptor.media 0, .sap, .bus} round := by
      refine ⟨by simp, sapOnly.mono ?_⟩
      intro d inside
      obtain rfl : d = .sap := inside
      simp
    have sends := loopRun_sends long cfg.bcastOnly serving (by simp) pl script start.us before
    have reports := snapshot_reports pl fits moving rfl unused (iff_of_true rfl rfl) sends
    have reads : (run before).1.live.captured = reacFrames (callbackReads script before) :=
      loopRun_reads (s := start) ⟨Live.start_follows long pl script, rfl⟩ round before
    have passed : (run before).1.live.passed = fed before :=
      sends.drains.follows.passed.trans (congrArg (List.filter _) reads)
    have sameLong : (run before).1.live.long = long := loopRun_long cfg.bcastOnly round start before
    have us : (run (before ++ .publish :: between)).1.us = listenOnPublish (run before).1 := by
      have onward := congrArg Prod.fst
        (Mealy.run_append (loopStep cfg.bcastOnly round) start before (.publish :: between))
      have same : (run (before ++ .publish :: between)).1 = (Mealy.run (loopStep cfg.bcastOnly round)
          { (run before).1 with us := listenOnPublish (run before).1 } between).1 := onward
      rw [same, loopRun_us _ _ _ quiet]
    refine ⟨_, asked _, ?_⟩
    rw [us, ← passed, ← sameLong]
    exact reports
  next =>
    intro events quiet
    have us : (run events).1.us = start.us := loopRun_us _ _ _ quiet
    refine ⟨_, asked events, ?_⟩
    rw [us]
    exact ⟨rfl, rfl, rfl, rfl, rfl, rfl, rfl⟩

def listenLaunch : PlainLaunch :=
  { pcap := none, iface := some "eth0".toList, egress := none, udp := "239.69.0.1:5004".toList, mediaDscp := 34
    bcastOnly := true, genTone := false, toneFreq := 440, toneDetune := 0 }

-- A frame of either direction before the publish and one between it and the question.
theorem eventLoop_status_published :
    let round : Trace := [sendPacket .sap [0x20]]
    let run := Mealy.run (loopStep listenLaunch.bcastOnly round)
      (listenStart libreacHost udpOptions listenLaunch .long32 "eth0".toList [.received unicastFrame])
    let before := [.readable [.received masterFrame], .publish, .readable [.received masterFrame]]
    ∃ r, (run (before ++ [.status])).2 = (run before).2 ++ [.used .bus (.reply r)] ∧ r.packets = 1 ∧
      r.packetsPerSec = 4000 := by
  intro round run before
  have sapOnly : UsesOnly {Descriptor.sap} round := fun event member =>
    ⟨.sap, rfl, _, List.mem_singleton.mp member⟩
  obtain ⟨r, asked, reports⟩ :=
    (eventLoop_status libreacHost_modes udpOptions listenLaunch .long32 "eth0".toList
    [.received unicastFrame] round sapOnly).1 [.readable [.received masterFrame]] [.readable
    [.received masterFrame]]
    (by simp)
  have read : callbackReads [.received unicastFrame] [.readable [.received masterFrame]] =
      [.received unicastFrame, .received masterFrame] := by
    simp [callbackReads, untilIdle, reacFrame_valid unicastFrame_valid]
  have packets := reports.packets
  simp only [read, reacFrames_valid unicastFrame_valid, reacFrames_valid masterFrame_valid] at packets
  refine ⟨r, asked, packets.trans ?_, reports.packetsPerSec⟩
  have wanted : [unicastFrame, masterFrame].filter (frameWanted true) = [masterFrame] := by
    simp [unicastFrame_unwanted, masterFrame_wanted]
  have none : reacFrames [] = [] := rfl
  rw [none, listenLaunch, wanted]
  simp [wellFormed, masterFrame_valid]

end Status

end ReacAes67
