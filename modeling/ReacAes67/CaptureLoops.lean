import ReacAes67.DanteSession
import ReacAes67.PcapSource
import ReacAes67.Shared.WrappedCounter

set_option autoImplicit false

/-!
# The live capture loops

The event-loop callback, the fallback loop and the Dante loop read one packet
socket and feed the pipeline. The first two drop unicast frames on request.
-/

namespace ReacAes67

open BoundedLoop WrappedCounter

variable {σ : Type}

/-- What `recv` on the capture socket does next. -/
inductive RecvEvent where
  | received (bytes : List UInt8)
  | interrupted
  | wouldBlock
  | failed
deriving DecidableEq, Repr

inductive CaptureResult where
  | frame (buf : List UInt8)
  | idle
  | error
deriving DecidableEq, Repr

def captureBytes : Nat := 2048

def isReac (buf : List UInt8) : Bool :=
  14 ≤ buf.length && buf.getD 12 0 == 0x88 && buf.getD 13 0 == 0x19

-- `none` when `recv` has nothing more to return.
def reacCaptureNext (nonblock : Bool) : List RecvEvent → Option (CaptureResult × List RecvEvent)
  | [] => none
  | .received bytes :: script =>
    let buf := bytes.take captureBytes
    if isReac buf then some (.frame buf, script)
    else if nonblock then some (.idle, script)
    else reacCaptureNext nonblock script
  | .interrupted :: script => some (.idle, script)
  | .wouldBlock :: script => some (.idle, script)
  | .failed :: script => some (.error, script)

def RecvEvent.reacFrame : RecvEvent → Option (List UInt8)
  | .received bytes => if isReac (bytes.take captureBytes) then some (bytes.take captureBytes) else none
  | _ => none

-- The REAC frames among what arrives, each cut to the buffer of the loops.
def reacFrames (script : List RecvEvent) : List (List UInt8) := script.filterMap RecvEvent.reacFrame

-- What ends a blocking `reac_capture_next`.
def RecvEvent.returns : RecvEvent → Bool
  | .received bytes => isReac (bytes.take captureBytes)
  | _ => true

/-- What a blocking loop reads before it is stopped or its socket fails. -/
def untilStop (gStop : Nat → Bool) : Nat → List RecvEvent → List RecvEvent
  | _, [] => []
  | turn, event :: script =>
    if gStop turn ∨ event = .failed then []
    else event :: untilStop gStop (if event.returns then turn + 1 else turn) script

/-- What so many callbacks of the event loop read, each of them until no REAC frame is ready. -/
def untilIdle : Nat → List RecvEvent → List RecvEvent
  | _, [] => []
  | callbacks, event :: script =>
    if callbacks = 0 then []
    else event :: untilIdle (if event.reacFrame.isSome then callbacks else callbacks - 1) script

def frameWanted (bcastOnly : Bool) (b : List UInt8) : Bool :=
  if !bcastOnly then true
  else if b.length < 6 then false
  else (b.getD 0 0 &&& b.getD 1 0 &&& b.getD 2 0 &&& b.getD 3 0 &&& b.getD 4 0 &&& b.getD 5 0) == 0xff

/-- A process that captures: its socket, its pipeline and what has passed through both. Its counter is an
`unsigned long`, which is read only through `Live.shown` and `Live.due`. -/
structure Live (σ : Type) where
  long : LongWidth
  script : List RecvEvent
  turn : Nat
  pl : Pipeline σ
  counted : Nat
  announced : Nat
  captured : List (List UInt8)
  passed : List (List UInt8)
  emitted : List Emitted

def Live.start (long : LongWidth) (pl : Pipeline σ) (script : List RecvEvent) : Live σ :=
  { long := long, script := script, turn := 0, pl := pl, counted := 0, announced := 0
    captured := [], passed := [], emitted := [] }

def CaptureResult.frames : CaptureResult → List (List UInt8)
  | .frame buf => [buf]
  | _ => []

def Live.capture (nonblock : Bool) (s : Live σ) : Option (CaptureResult × Live σ) :=
  (reacCaptureNext nonblock s.script).map fun next =>
    (next.1, { s with script := next.2, captured := s.captured ++ next.1.frames })

def Live.onFrame (s : Live σ) (buf : List UInt8) : Live σ :=
  let next := (pipelineOnFrame s.pl buf).2
  { s with pl := next.1, passed := s.passed ++ [buf], emitted := s.emitted ++ next.2 }

def Live.announce (s : Live σ) : Live σ := { s with announced := s.announced + 1 }

-- Frames per second; the loops announce once for so many frames.
def pps (mode : ReacMode) : Nat := mode.sampleRate / mode.samplesPerPkt

-- What an `unsigned long` shows after so many steps.
def Live.shown (s : Live σ) : Nat := s.counted % 2 ^ s.long.bits

def Live.due (s : Live σ) : Bool := WrappedCounter.due (2 ^ s.long.bits) (pps s.pl.mode) s.counted

def Live.count (s : Live σ) : Live σ :=
  if pps s.pl.mode = 0 then s
  else
    let s := { s with counted := s.counted + 1 }
    if s.due then s.announce else s

def listenTurn (bcastOnly : Bool) (s : Live σ) : Live σ ⊕ Live σ :=
  match s.capture true with
  | none => .inr s
  | some (.frame buf, s) =>
    if !frameWanted bcastOnly buf then .inl s
    else .inl { s.onFrame buf with counted := s.counted + 1 }
  | some (_, s) => .inr s

def listenOnReadable (bcastOnly : Bool) (s : Live σ) : Option (Live σ) :=
  loop (fun s => some (listenTurn bcastOnly s)) (s.script.length + 1) s

-- The event loop calls back whenever the socket is readable.
def ubusStatsRun (bcastOnly : Bool) : Nat → Live σ → Option (Live σ)
  | 0, s => some s
  | callbacks + 1, s => (listenOnReadable bcastOnly s).bind (ubusStatsRun bcastOnly callbacks)

-- `gStop` is what a turn finds in the stop flag, which a signal may set at any moment.
def fallbackTurn (bcastOnly : Bool) (gStop : Nat → Bool) (s : Live σ) : Live σ ⊕ Live σ :=
  if gStop s.turn then .inr s
  else
    match ({ s with turn := s.turn + 1 }).capture false with
    | none => .inr s
    | some (.error, s) => .inr s
    | some (.idle, s) => .inl s.announce
    | some (.frame buf, s) =>
      if !frameWanted bcastOnly buf then .inl s
      else .inl (s.onFrame buf).count

def runListenFallback (bcastOnly : Bool) (gStop : Nat → Bool) (s : Live σ) : Option (Live σ) :=
  loop (fun s => some (fallbackTurn bcastOnly gStop s)) (s.script.length + 1) s

def danteTurn (gStop : Nat → Bool) (s : Live σ) : Live σ ⊕ Live σ :=
  if gStop s.turn then .inr s
  else
    match ({ s with turn := s.turn + 1 }).capture false with
    | none => .inr s
    | some (.error, s) => .inr s
    | some (.idle, s) => .inl s.announce
    | some (.frame buf, s) => .inl (s.onFrame buf).count

def runDanteLoop (gStop : Nat → Bool) (s : Live σ) : Option (Live σ) :=
  loop (fun s => some (danteTurn gStop s)) (s.script.length + 1) s

theorem and_eq_ff (x y : UInt8) : x &&& y = 0xff ↔ x = 0xff ∧ y = 0xff := by
  simp only [← UInt8.toBitVec_inj, UInt8.toBitVec_and]
  exact BitVec.and_eq_allOnes_iff

def toBroadcast (b : List UInt8) : Prop := b.take 6 = List.replicate 6 0xff

instance (b : List UInt8) : Decidable (toBroadcast b) := inferInstanceAs (Decidable (_ = _))

-- Which frames are to reach the pipeline: all, or with the flag those to the broadcast address.
def selected (bcastOnly : Bool) (b : List UInt8) : Bool := !bcastOnly || toBroadcast b

theorem frameWanted_broadcast (b : List UInt8) : frameWanted true b = true ↔ toBroadcast b := by
  rw [toBroadcast]
  match b with
  | [] | [_] | [_, _] | [_, _, _] | [_, _, _, _] | [_, _, _, _, _] => simp [frameWanted]
  | a :: b :: c :: d :: e :: f :: rest =>
    simp [frameWanted, and_eq_ff, List.replicate, and_assoc]

theorem frameWanted_selected : frameWanted = selected := by
  funext bcastOnly b
  cases bcastOnly with
  | false => rfl
  | true =>
    rw [Bool.eq_iff_iff, frameWanted_broadcast]
    simp [selected]

theorem reacCaptureNext_shorter {nonblock : Bool} {script rest : List RecvEvent} {result : CaptureResult}
    (next : reacCaptureNext nonblock script = some (result, rest)) : rest.length < script.length := by
  induction script with
  | nil => cases next
  | cons event back ih =>
    have here : rest = back ∨ reacCaptureNext nonblock back = some (result, rest) := by
      cases event with
      | received bytes =>
        simp only [reacCaptureNext] at next
        split at next
        · cases next; exact .inl rfl
        · split at next
          · cases next; exact .inl rfl
          · exact .inr next
      | _ => cases next; exact .inl rfl
    rw [List.length_cons]
    rcases here with rfl | later
    · exact Nat.lt_succ_self _
    · exact (ih later).trans (Nat.lt_succ_self _)

/-- The frames passed on are the wanted ones of those captured, and the output is theirs. -/
structure Live.Follows (s : Live σ) (wanted : List UInt8 → Bool) (origin : Pipeline σ) : Prop where
  passed : s.passed = s.captured.filter wanted
  output : pipelineRun origin s.passed = (s.pl, s.emitted)

section Follow

variable {wanted : List UInt8 → Bool} {origin : Pipeline σ} {s s' : Live σ} {buf : List UInt8}

theorem Live.start_follows (long : LongWidth) (pl : Pipeline σ) (script : List RecvEvent) :
    (Live.start long pl script).Follows wanted pl := ⟨rfl, rfl⟩

theorem Live.Follows.idle (follows : s.Follows wanted origin) {result : CaptureResult} {nonblock : Bool}
    (next : s.capture nonblock = some (result, s')) (nothing : result.frames = []) :
    s'.Follows wanted origin := by
  obtain ⟨_, _, same⟩ := Option.map_eq_some_iff.mp next
  cases same
  exact ⟨by simpa [nothing] using follows.passed, follows.output⟩

theorem Live.Follows.skip (follows : s.Follows wanted origin) {nonblock : Bool}
    (next : s.capture nonblock = some (.frame buf, s')) (unwanted : wanted buf = false) :
    s'.Follows wanted origin := by
  obtain ⟨⟨result, rest⟩, _, same⟩ := Option.map_eq_some_iff.mp next
  cases same
  exact ⟨by simpa [CaptureResult.frames, unwanted] using follows.passed, follows.output⟩

theorem Live.Follows.feed (follows : s.Follows wanted origin) {nonblock : Bool}
    (next : s.capture nonblock = some (.frame buf, s')) (wants : wanted buf = true) :
    (s'.onFrame buf).Follows wanted origin := by
  obtain ⟨⟨result, rest⟩, _, same⟩ := Option.map_eq_some_iff.mp next
  cases same
  refine ⟨?_, ?_⟩
  · simpa [Live.onFrame, CaptureResult.frames, wants] using follows.passed
  · have output := follows.output
    simp only [pipelineRun] at output ⊢
    simp only [Live.onFrame, Mealy.run_append, output, Mealy.run_cons, Mealy.run_nil, List.append_nil]

theorem Live.Follows.announce (follows : s.Follows wanted origin) : s.announce.Follows wanted origin :=
  ⟨follows.passed, follows.output⟩

theorem Live.count_eq (s : Live σ) :
    ∃ counted announced, s.count = { s with counted := counted, announced := announced } := by
  simp only [Live.count, Live.announce]
  split
  · exact ⟨_, _, rfl⟩
  · split <;> exact ⟨_, _, rfl⟩

theorem Live.Follows.count (follows : s.Follows wanted origin) : s.count.Follows wanted origin := by
  obtain ⟨_, _, same⟩ := s.count_eq
  rw [same]
  exact ⟨follows.passed, follows.output⟩

@[simp] theorem Live.count_script (s : Live σ) : s.count.script = s.script := by
  obtain ⟨_, _, same⟩ := s.count_eq
  rw [same]

@[simp] theorem Live.count_captured (s : Live σ) : s.count.captured = s.captured := by
  obtain ⟨_, _, same⟩ := s.count_eq
  rw [same]

@[simp] theorem Live.onFrame_script (s : Live σ) (buf : List UInt8) : (s.onFrame buf).script = s.script := rfl

@[simp] theorem Live.onFrame_captured (s : Live σ) (buf : List UInt8) :
    (s.onFrame buf).captured = s.captured := rfl

theorem Live.capture_shorter {nonblock : Bool} {result : CaptureResult}
    (next : s.capture nonblock = some (result, s')) : s'.script.length < s.script.length := by
  obtain ⟨⟨result, rest⟩, read, same⟩ := Option.map_eq_some_iff.mp next
  cases same
  exact reacCaptureNext_shorter read

/-- One turn keeps the pipeline behind the wanted frames, and a turn that goes on has read something. -/
def TurnFollows (wanted : List UInt8 → Bool) (origin : Pipeline σ) (turn : Live σ → Live σ ⊕ Live σ) :
    Prop :=
  ∀ s : Live σ, s.Follows wanted origin →
    (∀ s', turn s = .inl s' → s'.Follows wanted origin ∧ s'.script.length < s.script.length) ∧
      ∀ s', turn s = .inr s' → s'.Follows wanted origin

theorem TurnFollows.loop {turn : Live σ → Live σ ⊕ Live σ} (keeps : TurnFollows wanted origin turn)
    (follows : s.Follows wanted origin) :
    ∃ s', loop (fun s => some (turn s)) (s.script.length + 1) s = some s' ∧ s'.Follows wanted origin := by
  obtain ⟨s', ended⟩ := loop_measured (fun s => some (turn s)) (·.Follows wanted origin)
    (·.script.length) (fun _ _ => Option.some_ne_none _)
    (fun s s' follows goes => (keeps s follows).1 s' (Option.some.inj goes)) _ s follows
    (Nat.lt_succ_self _)
  obtain ⟨last, follows, leaves⟩ := loop_last (fun s => some (turn s)) (·.Follows wanted origin)
    (fun s s' follows goes => ((keeps s follows).1 s' (Option.some.inj goes)).1) follows ended
  exact ⟨s', ended, (keeps last follows).2 s' (Option.some.inj leaves)⟩

theorem listenTurn_follows (bcastOnly : Bool) (origin : Pipeline σ) :
    TurnFollows (frameWanted bcastOnly) origin (listenTurn bcastOnly) := by
  intro s follows
  cases next : s.capture true with
  | none => simpa [listenTurn, next] using follows
  | some found =>
    obtain ⟨result, s'⟩ := found
    have shorter := Live.capture_shorter next
    cases result with
    | frame buf =>
      cases wants : frameWanted bcastOnly buf with
      | false => simpa [listenTurn, next, wants] using ⟨follows.skip next wants, shorter⟩
      | true =>
        have fed := follows.feed next wants
        simpa [listenTurn, next, wants] using ⟨⟨fed.passed, fed.output⟩, shorter⟩
    | idle => simpa [listenTurn, next] using follows.idle next rfl
    | error => simpa [listenTurn, next] using follows.idle next rfl

theorem fallbackTurn_follows (bcastOnly : Bool) (gStop : Nat → Bool) (origin : Pipeline σ) :
    TurnFollows (frameWanted bcastOnly) origin (fallbackTurn bcastOnly gStop) := by
  intro s follows
  cases stop : gStop s.turn with
  | true => simpa [fallbackTurn, stop] using follows
  | false =>
    have entered : ({ s with turn := s.turn + 1 } : Live σ).Follows (frameWanted bcastOnly) origin :=
      ⟨follows.passed, follows.output⟩
    cases next : ({ s with turn := s.turn + 1 } : Live σ).capture false with
    | none => simpa [fallbackTurn, stop, next] using follows
    | some found =>
      obtain ⟨result, s'⟩ := found
      have shorter := Live.capture_shorter next
      cases result with
      | frame buf =>
        cases wants : frameWanted bcastOnly buf with
        | false => simpa [fallbackTurn, stop, next, wants] using ⟨entered.skip next wants, shorter⟩
        | true =>
          have fed := (entered.feed next wants).count
          simpa [fallbackTurn, stop, next, wants, Live.count_script] using ⟨fed, shorter⟩
      | idle => simpa [fallbackTurn, stop, next] using ⟨(entered.idle next rfl).announce, shorter⟩
      | error => simpa [fallbackTurn, stop, next] using entered.idle next rfl

-- The Dante loop is the fallback loop without the flag.
theorem danteTurn_unfiltered (gStop : Nat → Bool) (s : Live σ) :
    danteTurn gStop s = fallbackTurn false gStop s := by
  simp only [danteTurn, fallbackTurn, frameWanted]
  rfl

end Follow

/-- What reached the pipeline are the wanted REAC frames of what was read, and the output is theirs. -/
structure Live.Passes (s : Live σ) (wanted : List UInt8 → Bool) (origin : Pipeline σ) (read : List RecvEvent) :
    Prop where
  passed : s.passed = (reacFrames read).filter wanted
  output : pipelineRun origin s.passed = (s.pl, s.emitted)

theorem Live.Follows.passes {s : Live σ} {wanted : List UInt8 → Bool} {origin : Pipeline σ}
    (follows : s.Follows wanted origin) {read : List RecvEvent} (captured : s.captured = reacFrames read) :
    s.Passes wanted origin read :=
  ⟨captured ▸ follows.passed, follows.output⟩

section Read

variable {s s' : Live σ} {bcastOnly : Bool} {gStop : Nat → Bool} {whole : List (List UInt8)}

theorem untilStop_sublist (gStop : Nat → Bool) (turn : Nat) (script : List RecvEvent) :
    (untilStop gStop turn script).Sublist script := by
  induction script generalizing turn with
  | nil => exact .slnil
  | cons event script ih =>
    rw [untilStop]
    split
    next => exact List.nil_sublist _
    next => exact (ih _).cons_cons event

theorem untilStop_all {gStop : Nat → Bool} (running : ∀ turn, gStop turn = false) {script : List RecvEvent}
    (sound : .failed ∉ script) (turn : Nat) : untilStop gStop turn script = script := by
  induction script generalizing turn with
  | nil => rfl
  | cons event script ih =>
    have goesOn : ¬ (gStop turn = true ∨ event = .failed) := by
      rintro (stopped | rfl)
      next => simp [running] at stopped
      next => exact sound List.mem_cons_self
    rw [untilStop, if_neg goesOn, ih fun member => sound (List.mem_cons_of_mem _ member)]

theorem untilIdle_all {callbacks : Nat} {script : List RecvEvent} (enough : script.length ≤ callbacks) :
    untilIdle callbacks script = script := by
  induction script generalizing callbacks with
  | nil => rfl
  | cons event script ih =>
    rw [List.length_cons] at enough
    have some : callbacks ≠ 0 := by omega
    rw [untilIdle, if_neg some, ih]
    split <;> omega

-- Where one blocking call stands in what the loop reads.
theorem reacCaptureNext_untilStop {turn : Nat} (running : gStop turn = false) {script rest : List RecvEvent}
    {result : CaptureResult} (next : reacCaptureNext false script = some (result, rest)) :
    reacFrames (untilStop gStop turn script) =
      if result = .error then [] else result.frames ++ reacFrames (untilStop gStop (turn + 1) rest) := by
  induction script with
  | nil => cases next
  | cons event script ih =>
    rw [untilStop, running]
    cases event with
    | received bytes =>
      by_cases reac : isReac (bytes.take captureBytes) = true
      next =>
        rw [reacCaptureNext, if_pos reac] at next
        cases next
        simp [reacFrames, RecvEvent.reacFrame, RecvEvent.returns, reac, CaptureResult.frames]
      next =>
        rw [reacCaptureNext, if_neg reac] at next
        rw [← ih next]
        simp [reacFrames, RecvEvent.reacFrame, RecvEvent.returns, reac]
    | interrupted =>
      cases next
      simp [reacFrames, RecvEvent.returns, CaptureResult.frames]
      rfl
    | wouldBlock =>
      cases next
      simp [reacFrames, RecvEvent.returns, CaptureResult.frames]
      rfl
    | failed =>
      cases next
      simp [reacFrames]

theorem reacCaptureNext_frames {nonblock : Bool} {script rest : List RecvEvent} {result : CaptureResult}
    (next : reacCaptureNext nonblock script = some (result, rest)) :
    result.frames ++ reacFrames rest = reacFrames script := by
  induction script with
  | nil => cases next
  | cons event script ih =>
    cases event with
    | received bytes =>
      simp only [reacCaptureNext] at next
      by_cases reac : isReac (bytes.take captureBytes) = true
      next =>
        rw [if_pos reac] at next
        cases next
        simp [reacFrames, RecvEvent.reacFrame, reac, CaptureResult.frames]
      next =>
        have skipped : reacFrames (.received bytes :: script) = reacFrames script := by
          simp [reacFrames, RecvEvent.reacFrame, reac]
        rw [if_neg reac] at next
        rw [skipped]
        split at next
        next =>
          cases next
          rfl
        next => exact ih next
    | interrupted =>
      cases next
      rfl
    | wouldBlock =>
      cases next
      rfl
    | failed =>
      cases next
      rfl

theorem reacCaptureNext_none {nonblock : Bool} {script : List RecvEvent}
    (none : reacCaptureNext nonblock script = none) : reacFrames script = [] := by
  induction script with
  | nil => rfl
  | cons event script ih =>
    cases event with
    | received bytes =>
      simp only [reacCaptureNext] at none
      split at none
      next => cases none
      next other =>
        split at none
        next => cases none
        next => simpa [reacFrames, RecvEvent.reacFrame, other] using ih none
    | interrupted => cases none
    | wouldBlock => cases none
    | failed => cases none

-- The frames captured so far and those still to be read before the loop ends.
def Live.Awaits (s : Live σ) (gStop : Nat → Bool) (whole : List (List UInt8)) : Prop :=
  s.captured ++ reacFrames (untilStop gStop s.turn s.script) = whole

theorem Live.Awaits.count (awaits : s.Awaits gStop whole) : s.count.Awaits gStop whole := by
  obtain ⟨_, _, same⟩ := s.count_eq
  rw [same]
  exact awaits

theorem fallbackTurn_awaits (awaits : s.Awaits gStop whole) :
    (∀ s', fallbackTurn bcastOnly gStop s = .inl s' → s'.Awaits gStop whole) ∧
      ∀ s', fallbackTurn bcastOnly gStop s = .inr s' → s'.captured = whole := by
  unfold Live.Awaits at awaits
  cases stop : gStop s.turn with
  | true =>
    have stopped : untilStop gStop s.turn s.script = [] := by
      cases s.script with
      | nil => rfl
      | cons => simp [untilStop, stop]
    rw [stopped] at awaits
    simpa [fallbackTurn, stop, reacFrames] using awaits
  | false =>
    cases next : ({ s with turn := s.turn + 1 } : Live σ).capture false with
    | none =>
      have nothing := reacCaptureNext_none (Option.map_eq_none_iff.mp next)
      have frames := (untilStop_sublist gStop s.turn s.script).filterMap RecvEvent.reacFrame
      rw [show s.script.filterMap RecvEvent.reacFrame = [] from nothing, List.sublist_nil] at frames
      rw [reacFrames, frames] at awaits
      simpa [fallbackTurn, stop, next] using awaits
    | some found =>
      obtain ⟨result, live⟩ := found
      obtain ⟨⟨result, rest⟩, read, same⟩ := Option.map_eq_some_iff.mp next
      cases same
      rw [reacCaptureNext_untilStop stop read] at awaits
      cases result with
      | idle => simpa [fallbackTurn, stop, next, Live.Awaits, Live.announce, CaptureResult.frames] using awaits
      | error => simpa [fallbackTurn, stop, next, CaptureResult.frames] using awaits
      | frame buf =>
        have onward : ({ s with turn := s.turn + 1, script := rest, captured := s.captured ++ [buf] } :
            Live σ).Awaits gStop whole := by
          simpa [Live.Awaits, CaptureResult.frames] using awaits
        cases wants : frameWanted bcastOnly buf with
        | false => simpa [fallbackTurn, stop, next, wants, CaptureResult.frames] using onward
        | true =>
          have fed : (({ s with turn := s.turn + 1, script := rest, captured := s.captured ++ [buf] } :
              Live σ).onFrame buf).count.Awaits gStop whole := Live.Awaits.count onward
          simpa [fallbackTurn, stop, next, wants, CaptureResult.frames] using fed

/-- A blocking loop passes the wanted ones of all frames that arrive before it is stopped or its socket
fails. -/
theorem runListenFallback_passes (long : LongWidth) (bcastOnly : Bool) (gStop : Nat → Bool) (pl : Pipeline σ)
    (script : List RecvEvent) : ∃ s, runListenFallback bcastOnly gStop (Live.start long pl script) = some s ∧
      s.Passes (frameWanted bcastOnly) pl (untilStop gStop 0 script) := by
  obtain ⟨s, ended, follows⟩ :=
    (fallbackTurn_follows bcastOnly gStop pl).loop (Live.start_follows long pl script)
  obtain ⟨last, awaits, leaves⟩ := loop_last (fun s => some (fallbackTurn bcastOnly gStop s))
    (·.Awaits gStop (reacFrames (untilStop gStop 0 script)))
    (fun s s' awaits goes => (fallbackTurn_awaits awaits).1 s' (Option.some.inj goes))
    (by simp [Live.Awaits, Live.start]) ended
  exact ⟨s, ended, follows.passes ((fallbackTurn_awaits awaits).2 s (Option.some.inj leaves))⟩

-- Where one call on the non-blocking socket stands in what the callbacks read.
theorem reacCaptureNext_untilIdle {callbacks : Nat} {script rest : List RecvEvent} {result : CaptureResult}
    (next : reacCaptureNext true script = some (result, rest)) :
    reacFrames (untilIdle (callbacks + 1) script) =
      result.frames ++ reacFrames (untilIdle (callbacks + result.frames.length) rest) := by
  cases script with
  | nil => cases next
  | cons event script =>
    cases event with
    | received bytes =>
      by_cases reac : isReac (bytes.take captureBytes) = true
      next =>
        rw [reacCaptureNext, if_pos reac] at next
        cases next
        simp [untilIdle, reacFrames, RecvEvent.reacFrame, reac, CaptureResult.frames]
      next =>
        rw [reacCaptureNext, if_neg reac] at next
        cases next
        simp [untilIdle, reacFrames, RecvEvent.reacFrame, reac, CaptureResult.frames]
    | interrupted =>
      cases next
      rfl
    | wouldBlock =>
      cases next
      rfl
    | failed =>
      cases next
      rfl

-- Within a callback: the frames captured so far and those that it and the later ones still read.
theorem listenTurn_awaits {callbacks : Nat}
    (awaits : s.captured ++ reacFrames (untilIdle (callbacks + 1) s.script) = whole) :
    (∀ s', listenTurn bcastOnly s = .inl s' →
        s'.captured ++ reacFrames (untilIdle (callbacks + 1) s'.script) = whole) ∧
      ∀ s', listenTurn bcastOnly s = .inr s' →
        s'.captured ++ reacFrames (untilIdle callbacks s'.script) = whole := by
  cases next : s.capture true with
  | none =>
    have empty : s.script = [] := by
      cases script : s.script with
      | nil => rfl
      | cons event rest =>
        rw [Live.capture, script, Option.map_eq_none_iff] at next
        cases event <;> simp [reacCaptureNext] at next
        split at next <;> cases next
    have frames : reacFrames (untilIdle callbacks s.script) =
        reacFrames (untilIdle (callbacks + 1) s.script) := by
      rw [empty]
      cases callbacks <;> rfl
    simpa [listenTurn, next, frames] using awaits
  | some found =>
    obtain ⟨result, live⟩ := found
    obtain ⟨⟨result, rest⟩, read, same⟩ := Option.map_eq_some_iff.mp next
    cases same
    rw [reacCaptureNext_untilIdle read, ← List.append_assoc] at awaits
    cases result with
    | idle => simpa [listenTurn, next, CaptureResult.frames] using awaits
    | error => simpa [listenTurn, next, CaptureResult.frames] using awaits
    | frame buf =>
      cases wants : frameWanted bcastOnly buf with
      | false => simpa [listenTurn, next, wants, CaptureResult.frames] using awaits
      | true => simpa [listenTurn, next, wants, CaptureResult.frames, Live.onFrame] using awaits

-- Where a callback stops reading.
theorem reacCaptureNext_left {script rest : List RecvEvent} {result : CaptureResult}
    (next : reacCaptureNext true script = some (result, rest)) :
    script.drop (untilIdle 1 script).length =
      if result.frames = [] then rest else rest.drop (untilIdle 1 rest).length := by
  have stopped (script : List RecvEvent) : untilIdle 0 script = [] := by cases script <;> rfl
  cases script with
  | nil => cases next
  | cons event script =>
    cases event with
    | received bytes =>
      by_cases reac : isReac (bytes.take captureBytes) = true
      next =>
        rw [reacCaptureNext, if_pos reac] at next
        cases next
        simp [untilIdle, RecvEvent.reacFrame, reac, CaptureResult.frames]
      next =>
        rw [reacCaptureNext, if_neg reac] at next
        cases next
        simp [untilIdle, RecvEvent.reacFrame, reac, CaptureResult.frames, stopped]
    | interrupted | wouldBlock | failed =>
      cases next
      simp [untilIdle, RecvEvent.reacFrame, CaptureResult.frames, stopped]

theorem listenTurn_left {left : List RecvEvent} (leaves : s.script.drop (untilIdle 1 s.script).length = left) :
    (∀ s', listenTurn bcastOnly s = .inl s' → s'.script.drop (untilIdle 1 s'.script).length = left) ∧
      ∀ s', listenTurn bcastOnly s = .inr s' → s'.script = left := by
  cases next : s.capture true with
  | none =>
    have empty : s.script = [] := by
      cases script : s.script with
      | nil => rfl
      | cons event rest =>
        rw [Live.capture, script, Option.map_eq_none_iff] at next
        cases event <;> simp [reacCaptureNext] at next
        split at next <;> cases next
    rw [empty] at leaves
    simpa [listenTurn, next, empty] using leaves
  | some found =>
    obtain ⟨result, live⟩ := found
    obtain ⟨⟨result, rest⟩, read, same⟩ := Option.map_eq_some_iff.mp next
    cases same
    rw [reacCaptureNext_left read] at leaves
    cases result with
    | idle => simpa [listenTurn, next, CaptureResult.frames] using leaves
    | error => simpa [listenTurn, next, CaptureResult.frames] using leaves
    | frame buf =>
      cases wants : frameWanted bcastOnly buf with
      | false => simpa [listenTurn, next, wants, CaptureResult.frames] using leaves
      | true => simpa [listenTurn, next, wants, CaptureResult.frames, Live.onFrame] using leaves

theorem ubusStatsRun_captured (callbacks : Nat) (origin : Pipeline σ)
    (follows : s.Follows (frameWanted bcastOnly) origin) :
    ∃ s', ubusStatsRun bcastOnly callbacks s = some s' ∧ s'.Follows (frameWanted bcastOnly) origin ∧
      s'.captured = s.captured ++ reacFrames (untilIdle callbacks s.script) := by
  induction callbacks generalizing s with
  | zero =>
    refine ⟨s, rfl, follows, ?_⟩
    cases s.script with
    | nil => exact (List.append_nil _).symm
    | cons => simp [untilIdle, reacFrames]
  | succ callbacks ih =>
    obtain ⟨s', drained, follows'⟩ := (listenTurn_follows bcastOnly origin).loop follows
    obtain ⟨last, awaits, leaves⟩ := loop_last (fun s => some (listenTurn bcastOnly s))
      (fun live => live.captured ++ reacFrames (untilIdle (callbacks + 1) live.script) =
        s.captured ++ reacFrames (untilIdle (callbacks + 1) s.script))
      (fun s s' awaits goes => (listenTurn_awaits awaits).1 s' (Option.some.inj goes)) rfl drained
    obtain ⟨final, ended, follows'', captured⟩ := ih follows'
    refine ⟨final, ?_, follows'', captured.trans ((listenTurn_awaits awaits).2 s' (Option.some.inj leaves))⟩
    rw [ubusStatsRun, listenOnReadable, drained, Option.bind_some, ended]

/-- The event loop passes the wanted ones of all frames that its callbacks find. -/
theorem ubusStatsRun_passes (long : LongWidth) (bcastOnly : Bool) (callbacks : Nat) (pl : Pipeline σ)
    (script : List RecvEvent) :
    ∃ s, ubusStatsRun bcastOnly callbacks (Live.start long pl script) = some s ∧
      s.Passes (frameWanted bcastOnly) pl (untilIdle callbacks script) := by
  obtain ⟨s, ended, follows, captured⟩ := ubusStatsRun_captured callbacks pl (Live.start_follows long pl script)
  exact ⟨s, ended, follows.passes (captured.trans (List.nil_append _))⟩

end Read

/-- The Dante loop passes every frame, so it filters when there is nothing to drop. -/
theorem runDanteLoop_passes (long : LongWidth) (bcastOnly : Bool) (gStop : Nat → Bool) (pl : Pipeline σ)
    (script : List RecvEvent) :
    ∃ s, runDanteLoop gStop (Live.start long pl script) = some s ∧
      s.passed = reacFrames (untilStop gStop 0 script) ∧
      (s.Passes (selected bcastOnly) pl (untilStop gStop 0 script) ↔
        bcastOnly = false ∨ ∀ buf ∈ reacFrames (untilStop gStop 0 script), toBroadcast buf) := by
  have same : runDanteLoop gStop (Live.start long pl script) =
      runListenFallback false gStop (Live.start long pl script) := by
    simp only [runDanteLoop, runListenFallback, danteTurn_unfiltered]
  obtain ⟨s, ended, passes⟩ := runListenFallback_passes long false gStop pl script
  have all := List.filter_eq_self.mpr fun buf (_ : buf ∈ reacFrames (untilStop gStop 0 script)) =>
    (rfl : frameWanted false buf = true)
  have passed := passes.passed.trans all
  refine ⟨s, same.trans ended, passed, ?_⟩
  have filters : s.Passes (selected bcastOnly) pl (untilStop gStop 0 script) ↔
      ∀ buf ∈ reacFrames (untilStop gStop 0 script), selected bcastOnly buf = true := by
    rw [← List.filter_eq_self]
    exact ⟨fun filtered => filtered.passed.symm.trans passed, fun filtered =>
      ⟨passed.trans filtered.symm, passes.output⟩⟩
  rw [filters]
  cases bcastOnly <;> simp [selected]

/-- The two listening paths pass the selected ones of all frames they read; the Dante loop does so when
every frame it reads is a broadcast or the flag is off. -/
theorem captureLoops_follow {τ : Type} (long : LongWidth) (bcastOnly : Bool) (callbacks : Nat)
    (gStop : Nat → Bool) (pl : Pipeline σ) (dante : Pipeline τ) (script : List RecvEvent) :
    (∃ s, ubusStatsRun bcastOnly callbacks (Live.start long pl script) = some s ∧
        s.Passes (selected bcastOnly) pl (untilIdle callbacks script)) ∧
      (∃ s, runListenFallback bcastOnly gStop (Live.start long pl script) = some s ∧
        s.Passes (selected bcastOnly) pl (untilStop gStop 0 script)) ∧
      (∃ s, runDanteLoop gStop (Live.start long dante script) = some s ∧
        (s.Passes (selected bcastOnly) dante (untilStop gStop 0 script) ↔
          bcastOnly = false ∨ ∀ buf ∈ reacFrames (untilStop gStop 0 script), toBroadcast buf)) ∧
      -- with callbacks enough, and no stop and no failure, all three read everything
      (script.length ≤ callbacks → untilIdle callbacks script = script) ∧
      ((∀ turn, gStop turn = false) → .failed ∉ script → untilStop gStop 0 script = script) := by
  obtain ⟨s, ended, _, filters⟩ := runDanteLoop_passes long bcastOnly gStop dante script
  refine ⟨?_, ?_, ⟨s, ended, filters⟩, untilIdle_all, fun running sound => untilStop_all running sound 0⟩
  next =>
    rw [← frameWanted_selected]
    exact ubusStatsRun_passes long bcastOnly callbacks pl script
  next =>
    rw [← frameWanted_selected]
    exact runListenFallback_passes long bcastOnly gStop pl script

theorem reacCaptureNext_valid {raw : List UInt8} (valid : (reacFrameInspect raw).valid = true)
    (nonblock : Bool) (script : List RecvEvent) :
    reacCaptureNext nonblock (.received raw :: script) = some (.frame raw, script) := by
  have fields : raw.length = reacFrameBytes ∧ raw.getD 12 0 = 0x88 ∧ raw.getD 13 0 = 0x19 := by
    unfold reacFrameInspect at valid
    split at valid
    · cases valid
    · split at valid
      · cases valid
      · rename_i length ethertype
        exact ⟨not_not.mp length, by simpa [not_or] using ethertype⟩
  obtain ⟨length, high, low⟩ := fields
  have whole : raw.take captureBytes = raw := List.take_of_length_le (by rw [length]; decide)
  have reac : isReac raw = true := by rw [isReac, length, high, low]; decide
  simp only [reacCaptureNext, whole, reac, if_true]

theorem reacFrame_valid {raw : List UInt8} (valid : (reacFrameInspect raw).valid = true) :
    (RecvEvent.received raw).reacFrame = some raw := by
  have captured := reacCaptureNext_valid valid true []
  simp only [reacCaptureNext] at captured
  split at captured
  next reac =>
    obtain ⟨same, -⟩ := Prod.mk.inj (Option.some.inj captured)
    rw [RecvEvent.reacFrame, if_pos reac, CaptureResult.frame.inj same]
  next => cases captured

theorem reacFrames_valid {raw : List UInt8} (valid : (reacFrameInspect raw).valid = true)
    (script : List RecvEvent) : reacFrames (.received raw :: script) = raw :: reacFrames script :=
  (reacCaptureNext_frames (reacCaptureNext_valid valid true script)).symm

-- A frame of a box to the address of the master.
def unicastFrame : List UInt8 := wireFrame (fun _ => 0x02) 0 SampleBlock.Block.blank

theorem unicastFrame_valid : (reacFrameInspect unicastFrame).valid = true :=
  congrArg (·.valid) (wireFrame_inspect _ 0 _)

theorem unicastFrame_unwanted : frameWanted true unicastFrame = false := by
  rw [Bool.eq_false_iff, Ne, frameWanted_broadcast]
  have destination : unicastFrame.take 6 = List.replicate 6 0x02 := rfl
  rw [toBroadcast, destination]
  decide

theorem captureLoops_unicast : ∃ pl s s',
    runDanteStart reacMode48k eightWideCfg none SampleBlock.Block.blank = some (.ok pl) ∧
      runDanteLoop (fun _ => false) (Live.start .long64 pl [.received unicastFrame]) = some s ∧
      ubusStatsRun true 1 (Live.start .long64 pl [.received unicastFrame]) = some s' ∧
      s.passed = [unicastFrame] ∧ s'.passed = [] ∧ ¬ s.Passes (selected true) pl [.received unicastFrame] := by
  obtain ⟨pl, started⟩ := eightWideCfg_starts none
  have whole : untilStop (fun _ => false) 0 [.received unicastFrame] = [.received unicastFrame] :=
    untilStop_all (fun _ => rfl) (by simp) 0
  obtain ⟨s, ended, passed, -⟩ := runDanteLoop_passes .long64 true (fun _ => false) pl [.received unicastFrame]
  obtain ⟨s', drained, passes'⟩ := ubusStatsRun_passes .long64 true 1 pl [.received unicastFrame]
  have dropped : [unicastFrame].filter (frameWanted true) = [] := by simp [unicastFrame_unwanted]
  have frames : reacFrames [.received unicastFrame] = [unicastFrame] := reacFrames_valid unicastFrame_valid []
  rw [whole, frames] at passed
  refine ⟨pl, s, s', started, ended, drained, passed, ?_, ?_⟩
  next => rw [passes'.passed, untilIdle_all (Nat.le_refl 1), frames, dropped]
  next =>
    intro passes
    have filtered := passes.passed
    rw [passed, frames, ← frameWanted_selected, dropped] at filtered
    cases filtered

def masterFrame : List UInt8 := wireFrame (fun _ => 0xff) 0 SampleBlock.Block.blank

theorem masterFrame_valid : (reacFrameInspect masterFrame).valid = true :=
  congrArg (·.valid) (wireFrame_inspect _ 0 _)

theorem masterFrame_wanted : frameWanted true masterFrame = true :=
  (frameWanted_broadcast masterFrame).mpr rfl

-- A frame of either direction, a signal in between and a frame that is too short at the end.
def mixedScript : List RecvEvent := [.received unicastFrame, .interrupted, .received masterFrame, .received []]

theorem mixedScript_reac : reacFrames mixedScript = [unicastFrame, masterFrame] := by
  have signal (script : List RecvEvent) : reacFrames (.interrupted :: script) = reacFrames script := rfl
  have short : reacFrames [.received []] = [] := rfl
  rw [mixedScript, reacFrames_valid unicastFrame_valid, signal, reacFrames_valid masterFrame_valid, short]

theorem captureLoops_follow_mixed : ∃ s s' : Live Unit,
    ubusStatsRun true 4 (Live.start .long64 (pipelineInit reacMode48k 97 1) mixedScript) = some s ∧
      runListenFallback true (fun _ => false)
        (Live.start .long64 (pipelineInit reacMode48k 97 1) mixedScript) = some s' ∧
      s.passed = [masterFrame] ∧ s'.passed = [masterFrame] ∧
      s.emitted = (pipelineRun (pipelineInit reacMode48k 97 1) [masterFrame]).2 := by
  obtain ⟨⟨s, ended, passes⟩, ⟨s', ended', passes'⟩, _, all, whole⟩ := captureLoops_follow .long64 true 4
    (fun _ => false) (pipelineInit reacMode48k 97 1) (pipelineInit reacMode48k 97 1) mixedScript
  have wanted : [unicastFrame, masterFrame].filter (selected true) = [masterFrame] := by
    rw [← frameWanted_selected]
    simp [unicastFrame_unwanted, masterFrame_wanted]
  have passed := passes.passed
  have passed' := passes'.passed
  rw [all (by decide), mixedScript_reac, wanted] at passed
  rw [whole (fun _ => rfl) (by simp [mixedScript]), mixedScript_reac, wanted] at passed'
  refine ⟨s, s', ended, ended', passed, passed', ?_⟩
  rw [← passed, passes.output]

end ReacAes67
