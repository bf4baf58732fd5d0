import ReacAes67.Feeder
import ReacAes67.ReacPw
import ReacAes67.RingCalls

set_option autoImplicit false

/-!
# What the two threads get done

Neither thread of the capture node waits for the other: its own steps end what
it is in, and when it starts afresh it moves all there is to move.
-/

namespace ReacAes67

open SampleBlock BoundedFifo OwnSteps

variable {α : Type}

/-- Either thread ends what it is in, whatever the other one is in the middle of. A frame is then fed as far as
the ring has room, and a cycle hears as much as there is. -/
structure PwWorld.Progresses [Zero α] (toFloat : Sample → α) (mode : ReacMode) (w : PwWorld α) : Prop where
  feeder : ∃ w', Reaches (pwStep toFloat mode · .feeder) w w' ∧ w'.feeding = none
  graph : ∃ w', Reaches (pwStep toFloat mode · .graph) w w' ∧ w'.processing = .idle
  feeds : ∀ buf, w.feeding = none → wellFormedFrame buf = true → ∃ w' took,
    Reaches (pwStep toFloat mode · .feeder) (pwStep toFloat mode w (.frame buf)) w' ∧ w'.feeding = none ∧
      w'.fed = w.fed ++ [buf] ∧ granted w'.ring.log = granted w.ring.log ++ [took] ∧
      took.toNat = min 12 (w.ring.ring.mask.toNat - (reacRingReadable w.ring.ring).toNat)
  rejects : ∀ buf, w.feeding = none → isReac buf = true → wellFormedFrame buf = false →
    pwStep toFloat mode w (.frame buf) = { w with taken := w.taken ++ [buf], framesBad := w.framesBad + 1 }
  hears : ∀ duration linked dst, w.processing = .idle → (∃ c < reacMaxChannels, linked c = true) →
    ∃ w' real out,
      Reaches (pwStep toFloat mode · .graph) (pwStep toFloat mode w (.process duration linked dst)) w' ∧
      w'.processing = .idle ∧ w'.heard = w.heard ++ [⟨clampQuantum duration, real, linked, out⟩] ∧
      real.toNat = min (reacRingReadable w.ring.ring).toNat (clampQuantum duration).toNat

theorem producerStep_idle (r : RingWorld α) (idle : r.producer = .idle) : producerStep r = r := by
  simp [producerStep, idle]

theorem consumerStep_idle [Zero α] (r : RingWorld α) (idle : r.consumer = .idle) : consumerStep r = r := by
  simp [consumerStep, idle]

-- A reader only ever adds to the log.
theorem consumerStep_log [Zero α] (r : RingWorld α) : ∃ more, (consumerStep r).log = r.log ++ more := by
  unfold consumerStep
  split <;> (try dsimp only) <;> (try split) <;> (try split) <;> (try split) <;>
    first
    | exact ⟨_, rfl⟩
    | exact ⟨[], (List.append_nil _).symm⟩

section Calls

variable {w : PwWorld α} {r : RingWorld α}

-- The write of a frame, seen from the feeder.
theorem feederStep_writes {buf : List UInt8} (feeding : w.feeding = some buf) (busy : w.ring.producer ≠ .idle)
    (reached : Reaches producerStep w.ring r) (ended : r.producer = .idle) :
    Reaches feederStep w
      { w with ring := r, feeding := none, fed := w.fed ++ [buf], framesOk := w.framesOk + 1 } := by
  let during (s : RingWorld α) : PwWorld α := { w with ring := s }
  let after (s : RingWorld α) : PwWorld α :=
    { w with ring := s, feeding := none, fed := w.fed ++ [buf], framesOk := w.framesOk + 1 }
  have step (s : RingWorld α) : feederStep (during s) =
      if (producerStep s).producer.isIdle then after (producerStep s) else during (producerStep s) := by
    simp only [feederStep, during, after, feeding]
  refine reached.within during after (fun _ => True) (fun _ _ => trivial) producerStep_idle ?_ ?_ trivial
    busy ended
  next =>
    intro s _ inside
    rw [step, if_neg (by rwa [Producer.isIdle_iff])]
  next =>
    intro s _ last
    rw [step, if_pos (by rwa [Producer.isIdle_iff])]

variable [Zero α] {linked : Nat → Bool}

-- The trim of a cycle, after which the same cycle reads.
theorem graphStep_trims {nframes : UInt32} {dst : Nat → Nat → α}
    (width : w.ring.ring.channels = UInt32.ofNat reacMaxChannels)
    (processing : w.processing = .trimming nframes linked dst) (busy : w.ring.consumer ≠ .idle)
    (reached : Reaches consumerStep w.ring r) (ended : r.consumer = .idle) :
    Reaches graphStep w
      { w with
        ring := { r with consumer := .readHead r.ring.channels nframes dst }
        processing := .reading linked } := by
  let during (s : RingWorld α) : PwWorld α := { w with ring := s }
  let after (s : RingWorld α) : PwWorld α :=
    { w with
      ring := { s with consumer := .readHead s.ring.channels nframes dst }
      processing := .reading linked }
  have step (s : RingWorld α) (wide : (consumerStep s).ring.channels = UInt32.ofNat reacMaxChannels) :
      graphStep (during s) =
        if (consumerStep s).consumer.isIdle then after (consumerStep s) else during (consumerStep s) := by
    simp only [graphStep, during, after, processing, wide, UInt32.lt_irrefl, if_false]
  have kept (s : RingWorld α) (wide : s.ring.channels = UInt32.ofNat reacMaxChannels) :
      (consumerStep s).ring.channels = UInt32.ofNat reacMaxChannels := (consumerStep_frame s).2.trans wide
  refine reached.within during after (fun s => s.ring.channels = UInt32.ofNat reacMaxChannels) kept
    consumerStep_idle ?_ ?_ width busy ended
  next =>
    intro s wide inside
    rw [step s (kept s wide), if_neg (by rwa [Consumer.isIdle_iff])]
  next =>
    intro s wide last
    rw [step s (kept s wide), if_pos (by rwa [Consumer.isIdle_iff])]

-- Its read, which ends the cycle.
theorem graphStep_reads (processing : w.processing = .reading linked) (busy : w.ring.consumer ≠ .idle)
    (reached : Reaches consumerStep w.ring r) (ended : r.consumer = .idle) :
    Reaches graphStep w
      { w with
        ring := r
        processing := .idle
        heard := w.heard ++ (r.log.drop w.ring.log.length).filterMap (RingEvent.heard linked) } := by
  let heard (s : RingWorld α) := w.heard ++ (s.log.drop w.ring.log.length).filterMap (RingEvent.heard linked)
  let during (s : RingWorld α) : PwWorld α := { w with ring := s, heard := heard s }
  let after (s : RingWorld α) : PwWorld α := { w with ring := s, processing := .idle, heard := heard s }
  have grown (s : RingWorld α) (longer : ∃ more, s.log = w.ring.log ++ more) :
      heard s ++ ((consumerStep s).log.drop s.log.length).filterMap (RingEvent.heard linked) =
        heard (consumerStep s) := by
    obtain ⟨earlier, before⟩ := longer
    obtain ⟨more, logged⟩ := consumerStep_log s
    have here : (consumerStep s).log.drop s.log.length = more := by rw [logged, List.drop_left]
    have since : s.log.drop w.ring.log.length = earlier := by rw [before, List.drop_left]
    have all : (consumerStep s).log.drop w.ring.log.length = earlier ++ more := by
      rw [logged, before, List.append_assoc, List.drop_left]
    simp only [heard, here, since, all, List.append_assoc, List.filterMap_append]
  have step (s : RingWorld α) (longer : ∃ more, s.log = w.ring.log ++ more) : graphStep (during s) =
      if (consumerStep s).consumer.isIdle then after (consumerStep s) else during (consumerStep s) := by
    have place : (during s).processing = .reading linked := processing
    have more : (during s).heard ++
        ((consumerStep (during s).ring).log.drop (during s).ring.log.length).filterMap
          (RingEvent.heard linked) = heard (consumerStep s) := grown s longer
    simp only [graphStep, place, more]
    cases (consumerStep s).consumer.isIdle <;> simp [during, after, processing]
  have kept (s : RingWorld α) (longer : ∃ more, s.log = w.ring.log ++ more) :
      ∃ more, (consumerStep s).log = w.ring.log ++ more := by
    obtain ⟨earlier, before⟩ := longer
    obtain ⟨more, logged⟩ := consumerStep_log s
    exact ⟨earlier ++ more, by rw [logged, before, List.append_assoc]⟩
  have start : during w.ring = w := by simp [during, heard]
  have whole : Reaches graphStep (during w.ring) (after r) := by
    refine reached.within during after (fun s => ∃ more, s.log = w.ring.log ++ more) kept
      consumerStep_idle ?_ ?_
      ⟨[], (List.append_nil _).symm⟩ busy ended
    next =>
      intro s longer inside
      rw [step s longer, if_neg (by rwa [Consumer.isIdle_iff])]
    next =>
      intro s longer last
      rw [step s longer, if_pos (by rwa [Consumer.isIdle_iff])]
  rwa [start] at whole

end Calls

section Progress

variable [Zero α] {toFloat : Sample → α} {sampleRate : Nat} {w : PwWorld α} {k : Nat}

omit [Zero α] in
theorem Feeding.busy {mode : ReacMode} {buf : List UInt8} {p : Producer α}
    (feeding : Feeding toFloat mode (some buf) p) :
    p ≠ .idle := by
  rintro rfl
  cases feeding

theorem feeder_feeds (holds : w.Holds toFloat (broadcastMode sampleRate) k) {buf : List UInt8}
    (waiting : w.feeding = none) (good : wellFormedFrame buf = true) : ∃ w' took,
      Reaches feederStep (takeFrame toFloat (broadcastMode sampleRate) w buf) w' ∧ w'.feeding = none ∧
        w'.fed = w.fed ++ [buf] ∧ granted w'.ring.log = granted w.ring.log ++ [took] ∧
        took.toNat = min 12 (w.ring.ring.mask.toNat - (reacRingReadable w.ring.ring).toNat) := by
  obtain ⟨q, ring⟩ := holds.ring
  have idle : w.ring.producer = .idle := by
    have feeding := holds.feeding
    rwa [waiting] at feeding
  have fits : (12 : UInt32) ≤ w.ring.ring.mask := by
    rw [UInt32.le_iff_toNat_le, ring.ring.mask]
    exact holds.block
  let planar := fun i => toFloat ((decoded (broadcastMode sampleRate) buf).sample i)
  obtain ⟨r, took, reached, ended, logged, count⟩ := ring.progresses.writes planar 12 idle fits
  let started (n : UInt32) : PwWorld α :=
    { w with
      ring := { w.ring with producer := .loadHead planar n }
      feeding := some buf
      taken := w.taken ++ [buf] }
  have starts : takeFrame toFloat (broadcastMode sampleRate) w buf = started 12 := by
    have reac : isReac buf = true := (valid_isReac good).1
    simp only [takeFrame, reac, Bool.not_true, Bool.false_eq_true, if_false, reacDecode_valid _ good]
    exact congrArg started (if_neg (UInt32.not_lt.mpr fits))
  have fed := feederStep_writes (w := started 12) rfl nofun reached ended
  rw [starts]
  refine ⟨_, took, fed, rfl, rfl, ?_, count⟩
  rw [logged, granted_snoc]
  rfl

theorem feeder_ends (holds : w.Holds toFloat (broadcastMode sampleRate) k) :
    ∃ w', Reaches feederStep w w' ∧ w'.feeding = none := by
  cases feeding : w.feeding with
  | none => exact ⟨w, .refl w, feeding⟩
  | some buf =>
    have busy := holds.feeding
    rw [feeding] at busy
    obtain ⟨r, reached, ended⟩ := producer_ends w.ring
    exact ⟨_, feederStep_writes feeding busy.busy reached ended, rfl⟩

theorem graph_ends (holds : w.Holds toFloat (broadcastMode sampleRate) k) :
    ∃ w', Reaches graphStep w w' ∧ w'.processing = .idle := by
  have reads (w : PwWorld α) {linked : Nat → Bool} (processing : w.processing = .reading linked)
      (busy : w.ring.consumer ≠ .idle) : ∃ w', Reaches graphStep w w' ∧ w'.processing = .idle := by
    obtain ⟨r, reached, ended⟩ := consumer_ends w.ring
    exact ⟨_, graphStep_reads processing busy reached ended, rfl⟩
  have inCall := holds.processing
  cases processing : w.processing with
  | idle => exact ⟨w, .refl w, processing⟩
  | trimming nframes linked dst =>
    have busy : w.ring.consumer ≠ .idle := by
      intro idle
      rw [processing, idle] at inCall
      cases inCall
    obtain ⟨r, reached, ended⟩ := consumer_ends w.ring
    have trimmed := graphStep_trims holds.width processing busy reached ended
    obtain ⟨w', later, last⟩ := reads
      { w with
        ring := { r with consumer := .readHead r.ring.channels nframes dst }
        processing := .reading linked }
      rfl nofun
    exact ⟨w', trimmed.trans later, last⟩
  | reading linked =>
    have busy : w.ring.consumer ≠ .idle := by
      intro idle
      rw [processing, idle] at inCall
      cases inCall
    exact reads w processing busy

theorem graph_hears (holds : w.Holds toFloat (broadcastMode sampleRate) k) (duration : UInt64)
    {linked : Nat → Bool} (dst : Nat → Nat → α) (waiting : w.processing = .idle)
    (some_port : ∃ c < reacMaxChannels, linked c = true) : ∃ w' real out,
      Reaches graphStep (startCycle w duration linked dst) w' ∧ w'.processing = .idle ∧
        w'.heard = w.heard ++ [⟨clampQuantum duration, real, linked, out⟩] ∧
        real.toNat = min (reacRingReadable w.ring.ring).toNat (clampQuantum duration).toNat := by
  obtain ⟨q, ring⟩ := holds.ring
  have idle : w.ring.consumer = .idle := by
    have processing := holds.processing
    rwa [waiting] at processing
  let nframes := clampQuantum duration
  let started : PwWorld α :=
    { w with
      ring := { w.ring with consumer := .trimHead (nframes * 4) }
      processing := .trimming nframes linked dst }
  have starts : startCycle w duration linked dst = started := by
    have ports : ¬ (List.range reacMaxChannels).countP (fun c => linked c) = 0 := by
      obtain ⟨c, channel, isLinked⟩ := some_port
      rw [List.countP_eq_zero]
      exact fun none => none c (List.mem_range.mpr channel) isLinked
    simp only [startCycle, if_neg ports]
    rfl
  obtain ⟨r, trims, ended, kept⟩ := ring.progresses.trims (nframes * 4) idle
  obtain ⟨q', ring'⟩ : ∃ q' : RowFifo α k, r.Holds k q' :=
    trims.keeps (fun s => ∃ q' : RowFifo α k, s.Holds k q')
      (fun s ⟨q, holds⟩ => (consumerStep_holds holds).imp fun _ next => next.2)
      ⟨q, ring.moveConsumer trivial (by rw [idle]; rfl)⟩
  obtain ⟨r', real, out, reads, ended', logged, count⟩ := ring'.progresses.reads nframes dst ended
  have trimmed := graphStep_trims (w := started) holds.width rfl nofun trims ended
  have read := graphStep_reads (w := { started with
    ring := { r with consumer := .readHead r.ring.channels nframes dst }, processing := .reading linked })
    rfl nofun reads ended'
  rw [starts]
  refine ⟨_, real, out, trimmed.trans read, rfl, ?_, ?_⟩
  next =>
    dsimp only
    rw [logged, List.drop_left]
    rfl
  next =>
    have small := clampQuantum_le duration
    have four : (nframes * 4).toNat = nframes.toNat * 4 := by
      rw [UInt32.toNat_mul]
      exact Nat.mod_eq_of_lt (by simp only [nframes, UInt32.reduceToNat]; omega)
    have all : (clampQuantum duration).toNat = nframes.toNat := rfl
    rw [count, kept, four, all]
    omega

theorem PwWorld.Holds.progresses (holds : w.Holds toFloat (broadcastMode sampleRate) k) :
    w.Progresses toFloat (broadcastMode sampleRate) where
  feeder := feeder_ends holds
  graph := graph_ends holds
  feeds buf waiting good := by
    simp only [ReacAes67.pwStep, waiting]
    exact feeder_feeds holds waiting good
  rejects buf waiting reac bad := by
    have malformed := reacDecode_malformed (broadcastMode sampleRate) Block.blank bad
    simp [ReacAes67.pwStep, waiting, ReacAes67.takeFrame, reac, malformed]
  hears duration linked dst waiting some_port := by
    simp only [ReacAes67.pwStep, waiting]
    exact graph_hears holds duration dst waiting some_port

theorem pwRun_progresses (toFloat : Sample → α) (standard : sampleRate ∈ standardRates)
    (events : List (PwEvent α)) :
    (pwRun toFloat (broadcastMode sampleRate) (pwStart sampleRate) events).Progresses toFloat
      (broadcastMode sampleRate) := by
  obtain ⟨k, holds⟩ := pwStart_holds toFloat standard
  exact (holds.pwRun events).progresses

end Progress

end ReacAes67
