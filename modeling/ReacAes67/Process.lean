import ReacAes67.CommandLine
import ReacAes67.SapGrammar
import ReacAes67.Shared.Handles
import ReacAes67.UbusStats

set_option autoImplicit false

/-!
# Senders and sources of a process

What the daemon opens, reads, sends and closes, in order. A sender is bound to
one group, port and TTL when it is opened; a live loop sends what its pipeline
emits and repeats the announcements once a second or when it is idle.
-/

namespace ReacAes67

open BoundedLoop Handles WrappedCounter

variable {σ : Type}

inductive Descriptor where
  | media (flow : Nat)
  | sap
  | capture
  | replay
  | bus
deriving DecidableEq, Repr

inductive Opening where
  | sender (ip : List Char) (port : UInt16) (ttl : UInt8) (egress : Option (List Char))
  | packetSocket (ifname : List Char)
  | file (path : List Char)
  | busObject (name : List Char)
deriving DecidableEq, Repr

inductive Action where
  | datagram (bytes : List UInt8)
  | tos (value : Nat)
  | reply (status : StatusReply)
  | nonblock (on : Bool)
  | received (result : CaptureResult)
  | detected (rate : Int)
  | header
  | record (buf : Option (List UInt8))
deriving DecidableEq, Repr

abbrev Trace := List (Event Descriptor Opening Action)

-- unsigned char t = (unsigned char)(ttl < 1 ? 1 : ttl)
def multicastTtl (ttl : Int) : UInt8 := UInt8.ofInt (if ttl < 1 then 1 else ttl)

-- (dscp & 0x3f) << 2
def dscpTos (dscp : Int) : Nat := ((BitVec.ofInt 32 dscp &&& 0x3f) <<< 2).toNat

-- An empty interface name pins nothing.
def aes67Sender (ip : List Char) (port : UInt16) (ttl : Int) (ifname : Option (List Char)) : Opening :=
  .sender ip port (multicastTtl ttl) (ifname.filter fun name => !name.isEmpty)

def sendPacket (d : Descriptor) (bytes : List UInt8) : Event Descriptor Opening Action :=
  .used d (.datagram bytes)

-- One call of `reac_capture_next`.
def receive (result : CaptureResult) : Event Descriptor Opening Action := .used .capture (.received result)

-- One call of `pcap_source_next`; without a record it is the last one.
def takeRecord (buf : Option (List UInt8)) : Event Descriptor Opening Action := .used .replay (.record buf)

def datagramsOf (d : Descriptor) (trace : Trace) : List (List UInt8) :=
  (usesOf d trace).filterMap fun
    | .datagram bytes => some bytes
    | _ => none

theorem datagramsOf_eq_nil {d : Descriptor} {trace : Trace} :
    datagramsOf d trace = [] ↔ ∀ bytes, sendPacket d bytes ∉ trace := by
  have carried (bytes : List UInt8) : Action.datagram bytes ∈ usesOf d trace ↔ sendPacket d bytes ∈ trace := by
    constructor
    next =>
      intro member
      obtain ⟨event, inside, same⟩ := List.mem_filterMap.mp member
      cases event with
      | used k what =>
        simp only [Option.ite_none_right_eq_some, Option.some.injEq] at same
        obtain ⟨rfl, rfl⟩ := same
        exact inside
      | opened => cases same
      | closed => cases same
    next => exact fun member => List.mem_filterMap.mpr ⟨_, member, if_pos rfl⟩
  rw [datagramsOf, List.filterMap_eq_nil_iff]
  constructor
  next => exact fun none bytes member => absurd (none _ ((carried bytes).mpr member)) (Option.some_ne_none _)
  next =>
    intro none action member
    cases action with
    | datagram bytes => exact absurd ((carried bytes).mp member) (none bytes)
    | tos | reply | nonblock | received | detected | header | record => rfl

theorem datagramsOf_silent {d : Descriptor} {trace : Trace} (silent : usesOf d trace = []) :
    datagramsOf d trace = [] := by rw [datagramsOf, silent, List.filterMap_nil]

-- The announcements go out one after the other on the socket for them.
def announceAll (pkts : List SapPacket) : Trace := pkts.map fun pkt => sendPacket .sap pkt.bytes

/-- A live process with what it has done so far. -/
structure Traced (σ : Type) where
  live : Live σ
  trace : Trace

-- Whether the frame just fed is the last one of a second.
def announcesNow (fed : Live σ) : Bool :=
  pps fed.pl.mode ≠ 0 && ({ fed with counted := fed.counted + 1 } : Live σ).due

/-- One turn of a blocking capture loop; `emit` is what the pipeline's callback sends for a frame. -/
def capturedTurn (wanted : List UInt8 → Bool) (emit : Pipeline σ → List UInt8 → Trace) (announce : Trace)
    (gStop : Nat → Bool) (s : Traced σ) : Traced σ ⊕ Traced σ :=
  if gStop s.live.turn then .inr s
  else
    match ({ s.live with turn := s.live.turn + 1 }).capture false with
    | none => .inr s
    | some (.error, live) => .inr { live := live, trace := s.trace ++ [receive .error] }
    | some (.idle, live) => .inl { live := live.announce, trace := s.trace ++ [receive .idle] ++ announce }
    | some (.frame buf, live) =>
      let read := s.trace ++ [receive (.frame buf)]
      if !wanted buf then .inl { live := live, trace := read }
      else
        let fed := live.onFrame buf
        .inl { live := fed.count
               trace := read ++ emit live.pl buf ++ if announcesNow fed then announce else [] }

def capturedLoop (wanted : List UInt8 → Bool) (emit : Pipeline σ → List UInt8 → Trace) (announce : Trace)
    (gStop : Nat → Bool) (s : Traced σ) : Option (Traced σ) :=
  loop (fun s => some (capturedTurn wanted emit announce gStop s)) (s.live.script.length + 1) s

-- The loop of `run_listen` with its effects; that of `run_dante` is the one without a filter.
theorem capturedTurn_fallback (bcastOnly : Bool) (emit : Pipeline σ → List UInt8 → Trace) (announce : Trace)
    (gStop : Nat → Bool) (s : Traced σ) :
    (capturedTurn (frameWanted bcastOnly) emit announce gStop s).map Traced.live Traced.live =
      fallbackTurn bcastOnly gStop s.live := by
  simp only [capturedTurn, fallbackTurn]
  cases gStop s.live.turn with
  | true => rfl
  | false =>
    cases ({ s.live with turn := s.live.turn + 1 } : Live σ).capture false with
    | none => rfl
    | some found =>
      obtain ⟨result, live⟩ := found
      cases result with
      | idle => rfl
      | error => rfl
      | frame buf => by_cases wants : frameWanted bcastOnly buf = true <;> simp [wants]

theorem capturedLoop_fallback (bcastOnly : Bool) (emit : Pipeline σ → List UInt8 → Trace) (announce : Trace)
    (gStop : Nat → Bool) (s : Traced σ) :
    (capturedLoop (frameWanted bcastOnly) emit announce gStop s).map Traced.live =
      runListenFallback bcastOnly gStop s.live := by
  have turns (s : Traced σ) : (some (capturedTurn (frameWanted bcastOnly) emit announce gStop s)).map
      (Sum.map Traced.live Traced.live) = some (fallbackTurn bcastOnly gStop s.live) :=
    congrArg some (capturedTurn_fallback bcastOnly emit announce gStop s)
  exact loop_map (fun s => some (fallbackTurn bcastOnly gStop s)) Traced.live Traced.live turns _ s

theorem Live.count_announced (s : Live σ) :
    s.count.announced = s.announced + if announcesNow s then 1 else 0 := by
  by_cases still : pps s.pl.mode = 0
  next => simp [Live.count, announcesNow, still]
  next =>
    by_cases second : ({ s with counted := s.counted + 1 } : Live σ).due = true <;>
      simp [Live.count, announcesNow, Live.announce, still, second]

/-- The announcements that are due for the frames counted have been made. -/
def Live.Cadence (s : Live σ) : Prop :=
  dues (2 ^ s.long.bits) (pps s.pl.mode) s.counted ≤ s.announced

theorem Live.Cadence.count {s : Live σ} (moving : pps s.pl.mode ≠ 0) (cadence : s.Cadence) :
    s.count.Cadence ∧ s.count.counted = s.counted + 1 := by
  have counted : s.count.counted = s.counted + 1 ∧ s.count.long = s.long ∧ s.count.pl = s.pl := by
    simp only [Live.count, moving, if_false, Live.announce]
    split <;> exact ⟨rfl, rfl, rfl⟩
  refine ⟨?_, counted.1⟩
  unfold Live.Cadence at cadence ⊢
  rw [counted.1, counted.2.1, counted.2.2, Live.count_announced, announcesNow, Live.due,
    dues_succ (Nat.two_pow_pos _) (Nat.pos_of_ne_zero moving)]
  simp only [ne_eq, moving, not_false_eq_true, decide_true, Bool.true_and]
  omega

theorem Live.count_passed (s : Live σ) : s.count.passed = s.passed := by
  obtain ⟨_, _, same⟩ := s.count_eq
  rw [same]

theorem Live.capture_kept {s s' : Live σ} {nonblock : Bool} {result : CaptureResult}
    (next : s.capture nonblock = some (result, s')) :
    s'.pl = s.pl ∧ s'.long = s.long ∧ s'.announced = s.announced ∧ s'.counted = s.counted ∧
      s'.passed = s.passed := by
  obtain ⟨_, _, same⟩ := Option.map_eq_some_iff.mp next
  cases same
  exact ⟨rfl, rfl, rfl, rfl, rfl⟩

-- What the callback sends while the pipeline is fed.
def sendOnFrame (emit : Pipeline σ → List UInt8 → Trace) (pl : Pipeline σ) (buf : List UInt8) :
    Pipeline σ × Trace :=
  ((pipelineOnFrame pl buf).2.1, emit pl buf)

theorem sendOnFrame_run (emit : Pipeline σ → List UInt8 → Trace) (pl : Pipeline σ)
    (frames : List (List UInt8)) :
    (Mealy.run (sendOnFrame emit) pl frames).1 = (pipelineRun pl frames).1 := by
  induction frames generalizing pl with
  | nil => rfl
  | cons buf frames ih => exact ih _

theorem pipelineRun_mode (pl : Pipeline σ) (frames : List (List UInt8)) :
    (pipelineRun pl frames).1.mode = pl.mode :=
  Mealy.run_invariant (fun pl raw => (pipelineOnFrame pl raw).2) (fun later _ => later.mode = pl.mode)
    (fun later _ raw same => (pipelineOnFrame_stages later raw).1.trans same) pl [] rfl frames

theorem pps_broadcastMode {rate : Nat} (standard : rate ∈ standardRates) : pps (broadcastMode rate) ≠ 0 := by
  simp only [standardRates, List.mem_cons, List.not_mem_nil, or_false] at standard
  rcases standard with rfl | rfl | rfl <;> decide

/-- The callback keeps to the media sockets of `S`, the announcements to the socket for them. -/
structure Emits (S : Set Descriptor) (emit : Pipeline σ → List UInt8 → Trace) (round : Trace) : Prop where
  media : ∀ pl buf, UsesOnly (S \ {.sap}) (emit pl buf)
  sap : UsesOnly (S ∩ {.sap}) round

/-- The media sockets carry what the frames fed so far produce, the announcing one whole rounds, at
least one for each second of frames. -/
structure Traced.Sends (s : Traced σ) (S : Set Descriptor) (wanted : List UInt8 → Bool)
    (emit : Pipeline σ → List UInt8 → Trace) (round : Trace) (origin : Pipeline σ) : Prop where
  follows : s.live.Follows wanted origin
  uses : UsesOnly (insert .capture S) s.trace
  media : ∀ d, d ≠ .sap → d ≠ .capture →
    usesOf d s.trace = usesOf d (Mealy.run (sendOnFrame emit) origin s.live.passed).2
  sap : usesOf .sap s.trace = (List.replicate s.live.announced (usesOf .sap round)).flatten
  cadence : pps origin.mode ≠ 0 → s.live.counted = s.live.passed.length ∧ s.live.Cadence

section Loop

variable {S : Set Descriptor} {wanted : List UInt8 → Bool} {emit : Pipeline σ → List UInt8 → Trace}
  {round : Trace} {origin : Pipeline σ} {s : Traced σ}

theorem Traced.Sends.start (long : LongWidth) (wanted : List UInt8 → Bool) (pl : Pipeline σ)
    (script : List RecvEvent) : (⟨Live.start long pl script, []⟩ : Traced σ).Sends S wanted emit round pl where
  follows := Live.start_follows long pl script
  uses := fun _ member => absurd member List.not_mem_nil
  media _ _ _ := rfl
  sap := rfl
  cadence _ := ⟨rfl, by simp [Live.Cadence, Live.start]⟩

-- At least one announcement for each second of frames.
theorem Traced.Sends.often (sends : s.Sends S wanted emit round origin) :
    s.live.passed.length / pps origin.mode ≤ s.live.announced := by
  rcases Nat.eq_zero_or_pos (pps origin.mode) with still | moving
  next => simp [still]
  next =>
    obtain ⟨counted, cadence⟩ := sends.cadence (Nat.ne_of_gt moving)
    have mode : s.live.pl.mode = origin.mode := by
      rw [← pipelineRun_mode origin s.live.passed, sends.follows.output]
    rw [Live.Cadence, mode, counted] at cadence
    exact (div_le_dues moving _).trans cadence

theorem Traced.Sends.read (sends : s.Sends S wanted emit round origin) (result : CaptureResult) :
    ({ s with trace := s.trace ++ [receive result] } : Traced σ).Sends S wanted emit round origin where
  follows := sends.follows
  uses := sends.uses.append fun event member =>
    ⟨.capture, Set.mem_insert _ _, _, List.mem_singleton.mp member⟩
  media d other noCapture := by
    rw [usesOf_append, sends.media d other noCapture, receive, usesOf_used, if_neg noCapture.symm, usesOf_nil,
      List.append_nil]
  sap := by rw [usesOf_append, sends.sap, receive, usesOf_used, if_neg nofun, usesOf_nil, List.append_nil]
  cadence := sends.cadence

theorem Traced.Sends.onward (sends : s.Sends S wanted emit round origin) {live : Live σ}
    (follows : live.Follows wanted origin)
    (kept : live.pl = s.live.pl ∧ live.long = s.live.long ∧ live.announced = s.live.announced ∧
      live.counted = s.live.counted ∧ live.passed = s.live.passed) :
    ({ s with live := live } : Traced σ).Sends S wanted emit round origin where
  follows := follows
  uses := sends.uses
  media d other noCapture := by
    rw [kept.2.2.2.2]
    exact sends.media d other noCapture
  sap := by
    rw [kept.2.2.1]
    exact sends.sap
  cadence moving := by
    obtain ⟨samePl, sameLong, sameAnnounced, sameCounted, samePassed⟩ := kept
    rw [Live.Cadence, samePl, sameLong, sameAnnounced, sameCounted, samePassed]
    exact sends.cadence moving

theorem Traced.Sends.announce (emits : Emits S emit round) (sends : s.Sends S wanted emit round origin) :
    ({ live := s.live.announce, trace := s.trace ++ round } : Traced σ).Sends S wanted emit round origin where
  follows := sends.follows.announce
  uses := sends.uses.append (emits.sap.mono (Set.inter_subset_left.trans (Set.subset_insert _ _)))
  media d other noCapture := by
    rw [usesOf_append, emits.sap.usesOf_other fun inside => other inside.2, List.append_nil]
    exact sends.media d other noCapture
  sap := by
    rw [usesOf_append, sends.sap, Live.announce, List.replicate_succ', List.flatten_append]
    simp
  cadence moving := by
    obtain ⟨counted, often⟩ := sends.cadence moving
    exact ⟨counted, often.trans (Nat.le_succ _)⟩

-- A frame fed, and the round of announcements if it is the last one of a second.
theorem Traced.Sends.feed (emits : Emits S emit round) (sends : s.Sends S wanted emit round origin)
    {live : Live σ} (kept : live.pl = s.live.pl ∧ live.long = s.live.long ∧
      live.announced = s.live.announced ∧ live.counted = s.live.counted ∧ live.passed = s.live.passed)
    {buf : List UInt8} (follows : (live.onFrame buf).Follows wanted origin) :
    ({ live := (live.onFrame buf).count
       trace := s.trace ++ emit live.pl buf ++ if announcesNow (live.onFrame buf) then round else [] } :
      Traced σ).Sends S wanted emit round origin := by
  obtain ⟨samePl, sameLong, sameAnnounced, sameCounted, samePassed⟩ := kept
  have quiet : usesOf .sap (emit live.pl buf) = [] :=
    (emits.media _ _).usesOf_other fun inside => inside.2 rfl
  have fedTo : (Mealy.run (sendOnFrame emit) origin s.live.passed).1 = live.pl := by
    rw [sendOnFrame_run, sends.follows.output, samePl]
  have roundOnly : UsesOnly (S ∩ {.sap}) (if announcesNow (live.onFrame buf) then round else []) := by
    split
    next => exact emits.sap
    next => exact fun _ member => absurd member List.not_mem_nil
  have mode : (live.onFrame buf).pl.mode = origin.mode := by
    have reached : (live.onFrame buf).pl = (pipelineRun origin (live.onFrame buf).passed).1 :=
      (congrArg Prod.fst follows.output).symm
    rw [reached, pipelineRun_mode]
  exact {
    follows := follows.count
    uses := (sends.uses.append ((emits.media _ _).mono (Set.sdiff_subset.trans (Set.subset_insert _ _)))).append
      (roundOnly.mono (Set.inter_subset_left.trans (Set.subset_insert _ _)))
    media := fun d other noCapture => by
      rw [usesOf_append, usesOf_append, sends.media d other noCapture,
        roundOnly.usesOf_other fun inside => other inside.2, List.append_nil, Live.count_passed, Live.onFrame,
        samePassed, Mealy.run_append, usesOf_append, fedTo, Mealy.run_cons, Mealy.run_nil]
      simp [sendOnFrame]
    sap := by
      rw [usesOf_append, usesOf_append, quiet, List.append_nil, sends.sap, Live.count_announced,
        ← sameAnnounced]
      split <;> simp [Live.onFrame, List.replicate_succ']
    cadence := fun moving => by
      obtain ⟨counted, cadence⟩ := sends.cadence moving
      have before : s.live.pl.mode = origin.mode := by
        rw [← pipelineRun_mode origin s.live.passed, sends.follows.output]
      have fed : (live.onFrame buf).Cadence := by
        rw [Live.Cadence, before, ← sameLong, ← sameCounted, ← sameAnnounced, ← mode] at cadence
        exact cadence
      obtain ⟨more, onward⟩ := fed.count (by rwa [mode])
      rw [onward, Live.count_passed]
      exact ⟨by simp [Live.onFrame, sameCounted, samePassed, counted], more⟩ }

theorem capturedTurn_sends (emits : Emits S emit round) (gStop : Nat → Bool)
    (sends : s.Sends S wanted emit round origin) :
    (∀ s', capturedTurn wanted emit round gStop s = .inl s' →
        s'.Sends S wanted emit round origin ∧ s'.live.script.length < s.live.script.length) ∧
      ∀ s', capturedTurn wanted emit round gStop s = .inr s' → s'.Sends S wanted emit round origin := by
  cases stop : gStop s.live.turn with
  | true => simpa [capturedTurn, stop] using sends
  | false =>
    cases next : ({ s.live with turn := s.live.turn + 1 } : Live σ).capture false with
    | none => simpa [capturedTurn, stop, next] using sends
    | some found =>
      obtain ⟨result, live⟩ := found
      have shorter := Live.capture_shorter next
      have kept := Live.capture_kept next
      have entered : ({ s.live with turn := s.live.turn + 1 } : Live σ).Follows wanted origin :=
        ⟨sends.follows.passed, sends.follows.output⟩
      cases result with
      | error =>
        simpa [capturedTurn, stop, next] using (sends.read .error).onward (entered.idle next rfl) kept
      | idle =>
        have idle := ((sends.read .idle).onward (entered.idle next rfl) kept).announce emits
        simpa [capturedTurn, stop, next, -List.append_assoc] using ⟨idle, shorter⟩
      | frame buf =>
        cases wants : wanted buf with
        | false =>
          simpa [capturedTurn, stop, next, wants] using
            ⟨(sends.read (.frame buf)).onward (entered.skip next wants) kept, shorter⟩
        | true =>
          have fed := (sends.read (.frame buf)).feed emits kept (entered.feed next wants)
          simpa [capturedTurn, stop, next, wants, -List.append_assoc] using ⟨fed, shorter⟩

-- The loop ends, and what it sent is what its turns sent.
theorem capturedLoop_sends (emits : Emits S emit round) (gStop : Nat → Bool)
    (sends : s.Sends S wanted emit round origin) :
    ∃ s', capturedLoop wanted emit round gStop s = some s' ∧ s'.Sends S wanted emit round origin := by
  obtain ⟨s', ended⟩ := loop_measured (fun s => some (capturedTurn wanted emit round gStop s))
    (·.Sends S wanted emit round origin) (·.live.script.length) (fun _ _ => Option.some_ne_none _)
    (fun s s' sends goes => (capturedTurn_sends emits gStop sends).1 s' (Option.some.inj goes)) _ s sends
    (Nat.lt_succ_self _)
  obtain ⟨last, sends, leaves⟩ := loop_last (fun s => some (capturedTurn wanted emit round gStop s))
    (·.Sends S wanted emit round origin)
    (fun s s' sends goes => ((capturedTurn_sends emits gStop sends).1 s' (Option.some.inj goes)).1) sends ended
  exact ⟨s', ended, (capturedTurn_sends emits gStop sends).2 s' (Option.some.inj leaves)⟩

theorem sendOnFrame_uses (emits : Emits S emit round) (pl : Pipeline σ) (frames : List (List UInt8)) :
    UsesOnly S (Mealy.run (sendOnFrame emit) pl frames).2 :=
  Mealy.run_invariant (sendOnFrame emit) (fun _ sent => UsesOnly S sent)
    (fun pl _ buf uses => uses.append ((emits.media pl buf).mono Set.sdiff_subset)) pl []
    (fun _ member => absurd member List.not_mem_nil) frames

end Loop

/-! ## The sources of frames -/

/-- What a process finds around it. A file or an interface that cannot be opened has no contents, and
there is no event loop without a bus. The blocks of the tone are those its generator fills. -/
structure Surroundings where
  now : Option Nat
  memory : SampleBlock.Block
  file : List Char → Option (List UInt8)
  capture : List Char → Option (List RecvEvent)
  detectRate : List Char → Int
  eventLoop : Option (List LoopEvent)
  tone : Int → Int → Nat → SampleBlock.Block
  gStop : Nat → Bool
  long : LongWidth
  fuel : Nat

/-- A source read to its end: the exit code, the frames that went into the pipeline, and the pipeline. -/
structure SourceRun (σ : Type) where
  rc : Int
  trace : Trace
  fed : List (List UInt8)
  pl : Pipeline σ

-- `pcap_source_open` reads the header, and closes the file again when it refuses it.
def replayTrace (path : List Char) (inner : Trace) : Trace :=
  .opened .replay (.file path) :: .used .replay .header :: inner ++ [.closed .replay]

def readThen (emit : Pipeline σ → List UInt8 → Trace) (pl : Pipeline σ) (buf : List UInt8) : Trace :=
  takeRecord (some buf) :: emit pl buf

def replayRun (env : Surroundings) (emit : Pipeline σ → List UInt8 → Trace) (pl : Pipeline σ)
    (path : List Char) : Option (SourceRun σ) :=
  match env.file path with
  | none => some ⟨1, [], [], pl⟩
  | some bytes =>
    match pcapSourceOpen bytes with
    | none => some ⟨1, replayTrace path [], [], pl⟩
    | some ps => do
      let (frames, _) ← pcapWhile env.long captureBytes env.fuel ps
      let run := Mealy.run (sendOnFrame (readThen emit)) pl frames
      return ⟨0, replayTrace path (run.2 ++ [takeRecord none]), frames, run.1⟩

def captureRun (env : Surroundings) (wanted : List UInt8 → Bool) (emit : Pipeline σ → List UInt8 → Trace)
    (round : Trace) (pl : Pipeline σ) (ifname : List Char) : Option (SourceRun σ) :=
  match env.capture ifname with
  | none => some ⟨1, [], [], pl⟩
  | some script => do
    let s ← capturedLoop wanted emit round env.gStop ⟨Live.start env.long pl script, []⟩
    return {
      rc := 0
      trace := .opened .capture (.packetSocket ifname) :: (.used .capture (.nonblock false) :: s.trace) ++
        [.closed .capture]
      fed := s.live.passed
      pl := s.live.pl }

-- The frames of the file's records.
def replayFrames (env : Surroundings) (path : List Char) : Option (List (List UInt8)) :=
  match (env.file path).bind pcapSourceOpen with
  | none => some []
  | some ps => (pcapWhile env.long captureBytes env.fuel ps).map Prod.fst

/-- The source is open only while the run lasts, the media sockets carry what its frames produce, and the
announcements are repeated at least once for each second of a live source. -/
structure SourceRun.Sends (run : SourceRun σ) (S : Set Descriptor) (emit : Pipeline σ → List UInt8 → Trace)
    (round : Trace) (origin : Pipeline σ) : Prop where
  runs : Runs S run.trace S
  code : run.rc = 0 ∨ run.rc = 1 ∧ run.fed = []
  opensNone : ∀ d, d ≠ .replay → d ≠ .capture → openingsOf d run.trace = []
  pipeline : (pipelineRun origin run.fed).1 = run.pl
  media : ∀ d, d ≠ .sap → d ≠ .capture → d ≠ .replay →
    usesOf d run.trace = usesOf d (Mealy.run (sendOnFrame emit) origin run.fed).2
  sap : ∃ rounds, usesOf .sap run.trace = (List.replicate rounds (usesOf .sap round)).flatten

section Source

variable {S : Set Descriptor} {wanted : List UInt8 → Bool} {emit : Pipeline σ → List UInt8 → Trace}
  {round : Trace} {env : Surroundings} {pl : Pipeline σ} {run : SourceRun σ}

theorem SourceRun.Sends.none {rc : Int} (code : rc = 0 ∨ rc = 1) {trace : Trace} (runs : Runs S trace S)
    (opensNone : ∀ d, d ≠ .replay → d ≠ .capture → openingsOf d trace = [])
    (quiet : ∀ d, d ≠ .replay → usesOf d trace = []) :
    (⟨rc, trace, [], pl⟩ : SourceRun σ).Sends S emit round pl where
  runs := runs
  code := code.imp_right fun failed => ⟨failed, rfl⟩
  opensNone := opensNone
  pipeline := rfl
  media d _ _ noReplay := quiet d noReplay
  sap := ⟨0, quiet .sap nofun⟩

theorem replayRun_fed {path : List Char} (done : replayRun env emit pl path = some run) :
    replayFrames env path = some run.fed := by
  unfold replayRun at done
  unfold replayFrames
  cases contents : env.file path with
  | none =>
    simp only [contents, Option.some.injEq] at done
    rw [← done]
    rfl
  | some bytes =>
    cases opened : pcapSourceOpen bytes with
    | none =>
      simp only [contents, opened, Option.some.injEq] at done
      simp only [Option.bind_some, opened, ← done]
    | some ps =>
      simp only [contents, opened, Option.bind_eq_bind, Option.bind_eq_some_iff] at done
      obtain ⟨⟨frames, after⟩, read, done⟩ := done
      simp only [Option.bind_some, opened, read, Option.map_some, ← Option.some.inj done]

-- What is sent makes no difference to what is read.
theorem replayRun_same {path : List Char} (done : replayRun env emit pl path = some run)
    (emit' : Pipeline σ → List UInt8 → Trace) :
    ∃ run', replayRun env emit' pl path = some run' ∧ run'.rc = run.rc ∧ run'.fed = run.fed := by
  unfold replayRun at done ⊢
  cases contents : env.file path with
  | none =>
    simp only [contents, Option.some.injEq] at done
    exact ⟨_, rfl, by simp [← done], by simp [← done]⟩
  | some bytes =>
    cases opened : pcapSourceOpen bytes with
    | none =>
      simp only [contents, opened, Option.some.injEq] at done
      simp only [opened]
      exact ⟨_, rfl, by simp [← done], by simp [← done]⟩
    | some ps =>
      simp only [contents, opened, Option.bind_eq_bind, Option.bind_eq_some_iff] at done
      obtain ⟨⟨frames, after⟩, read, done⟩ := done
      simp only [opened, read, Option.bind_eq_bind, Option.bind_some]
      exact ⟨_, rfl, by simp [← Option.some.inj done], by simp [← Option.some.inj done]⟩

theorem capturedLoop_passes (long : LongWidth) (bcastOnly : Bool) (emit : Pipeline σ → List UInt8 → Trace)
    (round : Trace)
    (gStop : Nat → Bool) (pl : Pipeline σ) (script : List RecvEvent) {s : Traced σ}
    (ended : capturedLoop (frameWanted bcastOnly) emit round gStop ⟨Live.start long pl script, []⟩ = some s) :
    s.live.passed = (reacFrames (untilStop gStop 0 script)).filter (frameWanted bcastOnly) := by
  have seen := capturedLoop_fallback bcastOnly emit round gStop ⟨Live.start long pl script, []⟩
  obtain ⟨live, done, passes⟩ := runListenFallback_passes long bcastOnly gStop pl script
  rw [ended, Option.map_some, done] at seen
  rw [Option.some.inj seen]
  exact passes.passed

-- Everything is fed that arrives before the loop is stopped or its socket fails.
theorem captureRun_fed (bcastOnly : Bool) {ifname : List Char}
    (done : captureRun env (frameWanted bcastOnly) emit round pl ifname = some run) :
    run.fed =
      (reacFrames (untilStop env.gStop 0 ((env.capture ifname).getD []))).filter (frameWanted bcastOnly) := by
  unfold captureRun at done
  cases script : env.capture ifname with
  | none =>
    simp only [script, Option.some.injEq] at done
    rw [← done]
    rfl
  | some events =>
    simp only [script, Option.bind_eq_bind, Option.bind_eq_some_iff] at done
    obtain ⟨s, ended, done⟩ := done
    rw [← Option.some.inj done]
    exact capturedLoop_passes env.long bcastOnly emit round env.gStop pl events ended

theorem replayRun_pipeline {path : List Char} (done : replayRun env emit pl path = some run) :
    (pipelineRun pl run.fed).1 = run.pl := by
  unfold replayRun at done
  cases contents : env.file path with
  | none =>
    simp only [contents, Option.some.injEq] at done
    rw [← done]
    rfl
  | some bytes =>
    cases opened : pcapSourceOpen bytes with
    | none =>
      simp only [contents, opened, Option.some.injEq] at done
      rw [← done]
      rfl
    | some ps =>
      simp only [contents, opened, Option.bind_eq_bind, Option.bind_eq_some_iff] at done
      obtain ⟨⟨frames, after⟩, _, done⟩ := done
      rw [← Option.some.inj done]
      exact (sendOnFrame_run (readThen emit) pl frames).symm

theorem header_uses (S : Set Descriptor) {inner : Trace} (uses : UsesOnly (insert .replay S) inner) :
    UsesOnly (insert .replay S) (.used .replay .header :: inner) :=
  List.forall_mem_cons.mpr ⟨⟨.replay, Set.mem_insert _ _, _, rfl⟩, uses⟩

theorem replayTrace_runs (closed : .replay ∉ S) (path : List Char) {inner : Trace}
    (uses : UsesOnly (insert .replay S) inner) : Runs S (replayTrace path inner) S :=
  Runs.bracket closed (header_uses S uses).runs

theorem openingsOf_replayTrace {d : Descriptor} (noReplay : d ≠ .replay) (path : List Char) {inner : Trace}
    (uses : UsesOnly (insert .replay S) inner) : openingsOf d (replayTrace path inner) = [] :=
  openingsOf_bracket _ noReplay.symm (header_uses S uses)

theorem usesOf_replayTrace {d : Descriptor} (noReplay : d ≠ .replay) (path : List Char) (inner : Trace) :
    usesOf d (replayTrace path inner) = usesOf d inner := by
  simp [replayTrace, usesOf_used, noReplay.symm]

-- With its reads a replay uses the file too.
theorem Emits.reading (emits : Emits S emit round) : Emits (insert .replay S) (readThen emit) round where
  media pl buf := List.forall_mem_cons.mpr ⟨⟨.replay, by simp, _, rfl⟩,
    (emits.media pl buf).mono (Set.sdiff_subset_sdiff_left (Set.subset_insert _ _))⟩
  sap := emits.sap.mono (Set.inter_subset_inter_left _ (Set.subset_insert _ _))

theorem usesOf_readThen {d : Descriptor} (noReplay : d ≠ .replay) (emit : Pipeline σ → List UInt8 → Trace)
    (pl : Pipeline σ) (frames : List (List UInt8)) :
    usesOf d (Mealy.run (sendOnFrame (readThen emit)) pl frames).2 =
      usesOf d (Mealy.run (sendOnFrame emit) pl frames).2 := by
  induction frames generalizing pl with
  | nil => rfl
  | cons buf frames ih =>
    have here : usesOf d (readThen emit pl buf) = usesOf d (emit pl buf) := by
      rw [readThen, takeRecord, usesOf_used, if_neg noReplay.symm]
    rw [Mealy.run_cons, Mealy.run_cons, usesOf_append, usesOf_append]
    exact congrArg₂ _ here (ih _)

theorem replayRun_sends (emits : Emits S emit round) (closed : .replay ∉ S) {path : List Char}
    (done : replayRun env emit pl path = some run) :
    run.Sends S emit round pl ∧ usesOf .sap run.trace = [] := by
  unfold replayRun at done
  cases contents : env.file path with
  | none =>
    simp only [contents, Option.some.injEq] at done
    rw [← done]
    exact ⟨.none (.inr rfl) .nil (fun _ _ _ => rfl) fun _ _ => rfl, rfl⟩
  | some bytes =>
    have nothing : UsesOnly (insert .replay S) ([] : Trace) := fun _ member => absurd member List.not_mem_nil
    cases opened : pcapSourceOpen bytes with
    | none =>
      simp only [contents, opened, Option.some.injEq] at done
      rw [← done]
      exact ⟨.none (.inr rfl) (replayTrace_runs closed path nothing)
        (fun d noReplay _ => openingsOf_replayTrace noReplay path nothing)
        fun d noReplay => usesOf_replayTrace noReplay path [], usesOf_replayTrace (d := .sap) nofun path []⟩
    | some ps =>
      simp only [contents, opened, Option.bind_eq_bind, Option.bind_eq_some_iff] at done
      obtain ⟨⟨frames, after⟩, _, done⟩ := done
      rw [← Option.some.inj done]
      have last : UsesOnly (insert .replay S) [takeRecord none] := fun event member =>
        ⟨.replay, Set.mem_insert _ _, _, List.mem_singleton.mp member⟩
      have sent := (sendOnFrame_uses emits.reading pl frames).append last
      have uses {d : Descriptor} (noReplay : d ≠ .replay) : usesOf d (replayTrace path
          ((Mealy.run (sendOnFrame (readThen emit)) pl frames).2 ++ [takeRecord none])) =
            usesOf d (Mealy.run (sendOnFrame emit) pl frames).2 := by
        rw [usesOf_replayTrace noReplay, usesOf_append, usesOf_readThen noReplay, takeRecord, usesOf_used,
          if_neg noReplay.symm, usesOf_nil, List.append_nil]
      have quiet : usesOf .sap (Mealy.run (sendOnFrame emit) pl frames).2 = [] :=
        Mealy.run_invariant (sendOnFrame emit) (fun _ sent => usesOf .sap sent = [])
          (fun pl sent buf none => by
            rw [usesOf_append, none, sendOnFrame, (emits.media pl buf).usesOf_other fun inside => inside.2 rfl]
            rfl) pl [] rfl frames
      have unannounced := (uses (d := .sap) nofun).trans quiet
      exact ⟨{
        runs := replayTrace_runs closed path sent
        code := .inl rfl
        opensNone := fun d noReplay _ => openingsOf_replayTrace noReplay path sent
        pipeline := (sendOnFrame_run (readThen emit) pl frames).symm
        media := fun d _ _ noReplay => uses noReplay
        sap := ⟨0, unannounced⟩ }, unannounced⟩

-- A replay that only counts reads the file and sends nothing.
theorem replayRun_silent (nothing : ∀ pl buf, emit pl buf = []) {path : List Char}
    (done : replayRun env emit pl path = some run) (d : Descriptor) : datagramsOf d run.trace = [] := by
  rw [datagramsOf_eq_nil]
  intro bytes
  have reads (pl : Pipeline σ) (frames : List (List UInt8)) :
      sendPacket d bytes ∉ (Mealy.run (sendOnFrame (readThen emit)) pl frames).2 := by
    induction frames generalizing pl with
    | nil => exact List.not_mem_nil
    | cons buf frames ih =>
      have here : sendPacket d bytes ∉ readThen emit pl buf := by
        simp [readThen, nothing, takeRecord, sendPacket]
      rw [Mealy.run_cons, List.mem_append, not_or]
      exact ⟨here, ih _⟩
  unfold replayRun at done
  cases contents : env.file path with
  | none =>
    simp only [contents, Option.some.injEq] at done
    simp [← done]
  | some bytes =>
    cases opened : pcapSourceOpen bytes with
    | none =>
      simp only [contents, opened, Option.some.injEq] at done
      simp [← done, replayTrace, sendPacket]
    | some ps =>
      simp only [contents, opened, Option.bind_eq_bind, Option.bind_eq_some_iff] at done
      obtain ⟨⟨frames, after⟩, _, done⟩ := done
      have quiet := reads pl frames
      rw [← Option.some.inj done]
      simpa [replayTrace, takeRecord, sendPacket] using quiet

theorem captureRun_sends (emits : Emits S emit round) (closed : .capture ∉ S) {ifname : List Char}
    (done : captureRun env wanted emit round pl ifname = some run) :
    run.Sends S emit round pl ∧
      ∃ rounds, usesOf .sap run.trace = (List.replicate rounds (usesOf .sap round)).flatten ∧
        run.fed.length / pps pl.mode ≤ rounds := by
  unfold captureRun at done
  cases script : env.capture ifname with
  | none =>
    simp only [script, Option.some.injEq] at done
    rw [← done]
    exact ⟨.none (.inr rfl) .nil (fun _ _ _ => rfl) fun _ _ => rfl, 0, rfl, by simp⟩
  | some events =>
    simp only [script, Option.bind_eq_bind, Option.bind_eq_some_iff] at done
    obtain ⟨s, ended, done⟩ := done
    obtain ⟨s', ended', sends⟩ := capturedLoop_sends emits env.gStop (.start env.long wanted pl events)
    obtain rfl : s' = s := Option.some.inj (ended'.symm.trans ended)
    rw [← Option.some.inj done]
    have inside : UsesOnly (insert .capture S) (.used .capture (.nonblock false) :: s'.trace) :=
      List.forall_mem_cons.mpr ⟨⟨.capture, Set.mem_insert _ _, _, rfl⟩, sends.uses⟩
    have uses {d : Descriptor} (noCapture : d ≠ .capture) :
        usesOf d (.opened .capture (.packetSocket ifname) :: (.used .capture (.nonblock false) :: s'.trace) ++
          [.closed .capture]) = usesOf d s'.trace := by
      simp [usesOf_used, noCapture.symm]
    have rounds := (uses (d := .sap) nofun).trans sends.sap
    refine ⟨{
      runs := Runs.bracket closed inside.runs
      code := .inl rfl
      opensNone := fun d _ noCapture => openingsOf_bracket _ noCapture.symm inside
      pipeline := congrArg Prod.fst sends.follows.output
      media := fun d other noCapture _ => (uses noCapture).trans (sends.media d other noCapture)
      sap := ⟨_, rounds⟩ }, s'.live.announced, rounds, sends.often⟩

end Source

end ReacAes67
