import ReacAes67.CaptureLoops
import ReacAes67.SourceNode

set_option autoImplicit false

/-!
# The two threads of the capture node

The feeder thread decodes frames and writes them to the ring, the graph's
thread trims the ring and reads a quantum from it. Either may be stopped at
any access to the ring while the other goes on.
-/

namespace ReacAes67

open SampleBlock MaskedIndex BoundedFifo

variable {α : Type}

/-- Where `on_process` of the source stands: which call on the ring it is in. -/
inductive Processing (α : Type) where
  | idle
  | trimming (nframes : UInt32) (linked : Nat → Bool) (dst : Nat → Nat → α)
  | reading (linked : Nat → Bool)

/-- What a cycle handed to the graph; the ring had `real` samples for it. -/
structure Heard (α : Type) where
  nframes : UInt32
  real : UInt32
  linked : Nat → Bool
  port : Nat → Nat → α

-- `feeding` is the frame whose samples `feed_frame` writes, `fed` those it has written.
structure PwWorld (α : Type) where
  ring : RingWorld α
  feeding : Option (List UInt8)
  processing : Processing α
  framesOk : Nat
  framesBad : Nat
  taken : List (List UInt8)
  fed : List (List UInt8)
  heard : List (Heard α)

inductive PwEvent (α : Type) where
  | frame (buf : List UInt8)
  | feeder
  | process (duration : UInt64) (linked : Nat → Bool) (dst : Nat → Nat → α)
  | graph

def Producer.isIdle : Producer α → Bool
  | .idle => true
  | _ => false

def Consumer.isIdle : Consumer α → Bool
  | .idle => true
  | _ => false

-- An unlinked port reads into the scratch buffer, which nobody looks at.
def RingEvent.heard (linked : Nat → Bool) : RingEvent α → Option (Heard α)
  | .delivered n real out => some ⟨n, real, linked, out⟩
  | .wrote _ _ _ => none
  | .discarded _ => none

section Threads

variable (toFloat : Sample → α) (mode : ReacMode)

/-- `rx_loop` with a frame of the wire, up to the first access of `reac_ring_write`. -/
def takeFrame (w : PwWorld α) (buf : List UInt8) : PwWorld α :=
  if !isReac buf then w
  else
    let w := { w with taken := w.taken ++ [buf] }
    match reacDecode buf mode Block.blank with
    | none => { w with framesBad := w.framesBad + 1 }
    | some (ns, s24) =>
      let planar := fun i => toFloat (s24.sample i)
      let n := UInt32.ofNat ns
      { w with
        ring := { w.ring with
          producer := .loadHead planar (if n > w.ring.ring.mask then w.ring.ring.mask else n) }
        feeding := some buf }

def feederStep (w : PwWorld α) : PwWorld α :=
  match w.feeding with
  | none => w
  | some buf =>
    let ring := producerStep w.ring
    if ring.producer.isIdle then
      { w with ring := ring, feeding := none, fed := w.fed ++ [buf], framesOk := w.framesOk + 1 }
    else { w with ring := ring }

/-- `on_process` up to the first access of `reac_ring_trim`. -/
def startCycle (w : PwWorld α) (duration : UInt64) (linked : Nat → Bool) (dst : Nat → Nat → α) : PwWorld α :=
  let nframes := clampQuantum duration
  let gotPorts := (List.range reacMaxChannels).countP fun c => linked c
  if gotPorts = 0 then w
  else
    { w with
      ring := { w.ring with consumer := .trimHead (nframes * 4) }
      processing := .trimming nframes linked dst }

def graphStep [Zero α] (w : PwWorld α) : PwWorld α :=
  match w.processing with
  | .idle => w
  | .trimming nframes linked dst =>
    let ring := consumerStep w.ring
    if ring.consumer.isIdle then
      let channels := UInt32.ofNat reacMaxChannels
      let nch := if channels < ring.ring.channels then channels else ring.ring.channels
      { w with
        ring := { ring with consumer := .readHead nch nframes dst }
        processing := .reading linked }
    else { w with ring := ring }
  | .reading linked =>
    let ring := consumerStep w.ring
    { w with
      ring := ring
      processing := if ring.consumer.isIdle then .idle else .reading linked
      heard := w.heard ++ (ring.log.drop w.ring.log.length).filterMap (RingEvent.heard linked) }

-- A thread that is inside a call takes no new one.
def pwStep [Zero α] (w : PwWorld α) : PwEvent α → PwWorld α
  | .frame buf =>
    match w.feeding with
    | none => takeFrame toFloat mode w buf
    | some _ => w
  | .feeder => feederStep w
  | .process duration linked dst =>
    match w.processing with
    | .idle => startCycle w duration linked dst
    | .trimming _ _ _ => w
    | .reading _ => w
  | .graph => graphStep w

def pwRun [Zero α] (w : PwWorld α) (events : List (PwEvent α)) : PwWorld α :=
  events.foldl (pwStep toFloat mode) w

end Threads

def pwStart [Zero α] (sampleRate : Nat) : PwWorld α :=
  { ring := ⟨reacRxRing sampleRate, .idle, .idle, []⟩
    feeding := none, processing := .idle, framesOk := 0, framesBad := 0, taken := [], fed := [], heard := [] }

/-- Every linked port got the samples `start .. start + real` of the stream, then zeros. -/
structure Heard.Hears [Zero α] (h : Heard α) (stream : List (Nat → α)) (start : Nat) : Prop where
  short : h.real ≤ h.nframes
  inside : start + h.real.toNat ≤ stream.length
  samples : ∀ c s row, c < reacMaxChannels → h.linked c = true → s < h.real.toNat →
    stream[start + s]? = some row → h.port c s = row c
  silence : ∀ c s, c < reacMaxChannels → h.linked c = true → h.real.toNat ≤ s → s < h.nframes.toNat →
    h.port c s = 0

/-- The cycles hear ranges of the stream one after the other, the last one up to `upto`. -/
inductive InOrder [Zero α] (stream : List (Nat → α)) : List (Heard α) → Nat → Prop
  | nil : InOrder stream [] 0
  | snoc {earlier : List (Heard α)} {upto start : Nat} {h : Heard α}
      (before : InOrder stream earlier upto) (onward : upto ≤ start) (hears : h.Hears stream start) :
      InOrder stream (earlier ++ [h]) (start + h.real.toNat)

def frameRows (toFloat : Sample → α) (mode : ReacMode) (buf : List UInt8) : List (Nat → α) :=
  planarRows (fun i => toFloat ((decoded mode buf).sample i)) 12 12

-- How many samples of each frame the ring took.
def RingEvent.granted : RingEvent α → Option UInt32
  | .wrote _ _ w => some w
  | .delivered _ _ _ => none
  | .discarded _ => none

def granted (log : List (RingEvent α)) : List UInt32 := log.filterMap RingEvent.granted

def wellFormedFrame (buf : List UInt8) : Bool := (reacFrameInspect buf).valid

def shortfall (log : List (RingEvent α)) : Nat := ((granted log).map fun w => 12 - w.toNat).sum

def zeros (heard : List (Heard α)) : Nat := (heard.map fun h => h.nframes.toNat - h.real.toNat).sum

/-- What the graph has heard, what the ring was given for it and how the losses were counted. -/
structure PwWorld.Plays [Zero α] (toFloat : Sample → α) (mode : ReacMode) (w : PwWorld α) : Prop where
  heard : ∃ upto, InOrder (accepted w.ring.log) w.heard upto
  stream : accepted w.ring.log = (w.fed.zip (granted w.ring.log)).flatMap fun p =>
    (frameRows toFloat mode p.1).take p.2.toNat
  grants : (granted w.ring.log).length = w.fed.length ∧ ∀ g ∈ granted w.ring.log, g ≤ 12
  frames : w.taken.filter wellFormedFrame = w.fed ++ w.feeding.toList
  ok : w.framesOk = w.fed.length
  bad : w.framesBad = w.taken.countP fun buf => !wellFormedFrame buf
  overruns : w.feeding = none → w.ring.ring.overruns = UInt64.ofNat (shortfall w.ring.log)
  underruns : w.ring.consumer = .idle → w.ring.ring.underruns = UInt64.ofNat (zeros w.heard)
  apart : ∀ c s pos, ReadsSlot w.ring c s pos → ¬ Writes w.ring pos

section Stream

variable [Zero α] {stream : List (Nat → α)} {h : Heard α} {start : Nat}

theorem Heard.Hears.extend (hears : h.Hears stream start) (later : List (Nat → α)) :
    h.Hears (stream ++ later) start where
  short := hears.short
  inside := by
    have inside := hears.inside
    rw [List.length_append]
    omega
  samples := by
    intro c s row channel linked sample member
    have inside := hears.inside
    rw [List.getElem?_append_left (by omega)] at member
    exact hears.samples c s row channel linked sample member
  silence := hears.silence

theorem InOrder.extend {heard : List (Heard α)} {upto : Nat} (inOrder : InOrder stream heard upto)
    (later : List (Nat → α)) : InOrder (stream ++ later) heard upto := by
  induction inOrder with
  | nil => exact .nil
  | snoc _ onward hears ih => exact .snoc ih onward (hears.extend later)

end Stream

/-! ## What one access of a thread does to the log -/

-- The samples a write was called with, and how many of them.
def Producer.args : Producer α → Option ((Nat → α) × UInt32)
  | .idle => none
  | .loadHead planar n => some (planar, n)
  | .loadTail planar n _ => some (planar, n)
  | .overrun planar n _ => some (planar, n)
  | .reload planar n _ => some (planar, n)
  | .copy planar n _ _ _ _ _ => some (planar, n)

def Consumer.trims : Consumer α → Bool
  | .trimHead _ => true
  | .trimTail _ _ => true
  | .trimReload _ _ => true
  | .trimStore _ _ _ => true
  | _ => false

def Consumer.reads : Consumer α → Bool
  | .readHead _ _ _ => true
  | .readTail _ _ _ _ => true
  | .readReload _ _ _ _ => true
  | .readCopy _ _ _ _ _ _ _ _ => true
  | .readCount _ _ => true
  | _ => false

theorem Consumer.isIdle_iff {p : Consumer α} : p.isIdle = true ↔ p = .idle := by
  cases p <;> simp [Consumer.isIdle]

theorem Producer.isIdle_iff {p : Producer α} : p.isIdle = true ↔ p = .idle := by
  cases p <;> simp [Producer.isIdle]

section Accesses

variable (w : RingWorld α)

theorem producerStep_frame :
    (producerStep w).consumer = w.consumer ∧ (producerStep w).ring.channels = w.ring.channels := by
  unfold producerStep
  split <;> (try dsimp only) <;> (try split) <;> (try split) <;> exact ⟨rfl, rfl⟩

theorem consumerStep_frame [Zero α] :
    (consumerStep w).producer = w.producer ∧ (consumerStep w).ring.channels = w.ring.channels := by
  unfold consumerStep
  split <;> (try dsimp only) <;> (try split) <;> (try split) <;> (try split) <;> exact ⟨rfl, rfl⟩

/-- A write goes on with its samples or logs how many of them it stored. -/
theorem producerStep_args {planar : Nat → α} {n : UInt32} (busy : w.producer.args = some (planar, n)) :
    ((producerStep w).producer.args = some (planar, n) ∧ (producerStep w).log = w.log) ∨
      (producerStep w).producer = .idle ∧ ∃ take, (producerStep w).log = w.log ++ [.wrote planar n take] := by
  unfold producerStep
  cases control : w.producer with
  | idle => simp [control, Producer.args] at busy
  | loadHead planar' n' =>
    simp only [control, Producer.args, Option.some.injEq, Prod.mk.injEq] at busy
    simp [Producer.args, busy]
  | loadTail planar' n' h =>
    simp only [control, Producer.args, Option.some.injEq, Prod.mk.injEq] at busy
    dsimp only
    split <;> simp [Producer.args, busy]
  | overrun planar' n' free =>
    simp only [control, Producer.args, Option.some.injEq, Prod.mk.injEq] at busy
    obtain ⟨rfl, rfl⟩ := busy
    dsimp only
    split
    next => exact .inr ⟨rfl, 0, rfl⟩
    next => exact .inl ⟨rfl, rfl⟩
  | reload planar' n' take =>
    simp only [control, Producer.args, Option.some.injEq, Prod.mk.injEq] at busy
    simp [Producer.args, busy]
  | copy planar' n' take h c s pos =>
    simp only [control, Producer.args, Option.some.injEq, Prod.mk.injEq] at busy
    obtain ⟨rfl, rfl⟩ := busy
    dsimp only
    split
    next => split <;> exact .inl ⟨rfl, rfl⟩
    next => exact .inr ⟨rfl, take, rfl⟩

theorem consumerStep_trims [Zero α] (trims : w.consumer.trims = true) :
    ((consumerStep w).consumer.trims = true ∨ (consumerStep w).consumer = .idle) ∧
      ((consumerStep w).log = w.log ∨ ∃ rows, (consumerStep w).log = w.log ++ [.discarded rows]) := by
  unfold consumerStep
  cases control : w.consumer with
  | trimHead keep => exact ⟨.inl rfl, .inl rfl⟩
  | trimTail keep h =>
    dsimp only
    split
    next => exact ⟨.inr rfl, .inl rfl⟩
    next => exact ⟨.inl rfl, .inl rfl⟩
  | trimReload keep drop => exact ⟨.inl rfl, .inl rfl⟩
  | trimStore keep drop t => exact ⟨.inr rfl, .inr ⟨_, rfl⟩⟩
  | _ => simp [control, Consumer.trims] at trims

/-- A read goes on, or logs what it delivered from where the queue stood. -/
theorem consumerStep_reads [Zero α] {k : Nat} {q : RowFifo α k} (holds : w.Holds k q)
    (width : w.ring.channels = UInt32.ofNat reacMaxChannels) (reads : w.consumer.reads = true) :
    ((consumerStep w).consumer.reads = true ∨ (consumerStep w).consumer = .idle) ∧
      ((consumerStep w).log = w.log ∨ ∃ n real out, (consumerStep w).log = w.log ++ [.delivered n real out] ∧
        ∀ linked, (⟨n, real, linked, out⟩ : Heard α).Hears (accepted w.log) (consumed w.log).length) := by
  have content := holds.consumer
  unfold consumerStep
  cases control : w.consumer with
  | readHead nch n out => exact ⟨.inl rfl, .inl rfl⟩
  | readTail nch n out h => exact ⟨.inl rfl, .inl rfl⟩
  | readReload nch n real out => exact ⟨.inl rfl, .inl rfl⟩
  | readCopy nch n real t c s pos out =>
    dsimp only
    split
    next =>
      split
      next => exact ⟨.inl rfl, .inl rfl⟩
      next => split <;> exact ⟨.inl rfl, .inl rfl⟩
    next finished =>
      refine ⟨?_, .inr ⟨n, real, out, rfl, fun linked => ?_⟩⟩
      next =>
        dsimp only
        split
        next => exact .inl rfl
        next => exact .inr rfl
      next =>
        rw [control] at content
        obtain ⟨rfl, short, inside, _, _, _, copied⟩ := content
        rw [holds.log.accepted, holds.log.count]
        have every : w.ring.channels.toNat = reacMaxChannels := by rw [width]; rfl
        have before (c' s' : Nat) (channel : c' < reacMaxChannels) : Copied c s c' s' := .inl (by omega)
        have short' := UInt32.le_iff_toNat_le.mp short
        constructor
        next => exact short
        next => exact inside
        next =>
          intro c' s' row channel _ sample member
          exact (copied c' s' (channel.trans_eq every.symm) (lt_of_lt_of_le sample short')
            (before c' s' channel)).1 sample row member
        next =>
          intro c' s' channel _ late sample
          exact (copied c' s' (channel.trans_eq every.symm) sample (before c' s' channel)).2 late
  | readCount n real => exact ⟨.inr rfl, .inl rfl⟩
  | _ => simp [control, Consumer.reads] at reads

end Accesses

section Logs

variable (log : List (RingEvent α))

@[simp] theorem granted_snoc (e : RingEvent α) : granted (log ++ [e]) = granted log ++ e.granted.toList := by
  cases e <;> simp [granted, RingEvent.granted]

theorem shortfall_snoc (e : RingEvent α) :
    shortfall (log ++ [e]) = shortfall log + (e.granted.toList.map fun w => 12 - w.toNat).sum := by
  simp [shortfall]

@[simp] theorem zeros_snoc (heard : List (Heard α)) (h : Heard α) :
    zeros (heard ++ [h]) = zeros heard + (h.nframes.toNat - h.real.toNat) := by
  simp [zeros]

end Logs

/-! ## The invariant of both threads -/

-- The call a thread is in, and the place in its program that it was made from.
def InCall (processing : Processing α) (p : Consumer α) : Prop :=
  match processing with
  | .idle => p = .idle
  | .trimming _ _ _ => p.trims = true
  | .reading _ => p.reads = true

def Feeding (toFloat : Sample → α) (mode : ReacMode) (feeding : Option (List UInt8)) (p : Producer α) : Prop :=
  match feeding with
  | none => p = .idle
  | some buf => p.args = some ((fun i => toFloat ((decoded mode buf).sample i)), 12)

structure PwWorld.Holds [Zero α] (toFloat : Sample → α) (mode : ReacMode) (w : PwWorld α) (k : Nat) : Prop where
  ring : ∃ q : RowFifo α k, w.ring.Holds k q
  width : w.ring.ring.channels = UInt32.ofNat reacMaxChannels
  block : reacSamplesPerPkt ≤ 2 ^ k - 1
  feeding : Feeding toFloat mode w.feeding w.ring.producer
  processing : InCall w.processing w.ring.consumer
  heard : ∃ upto, upto ≤ (consumed w.ring.log).length ∧ InOrder (accepted w.ring.log) w.heard upto
  stream : accepted w.ring.log = (w.fed.zip (granted w.ring.log)).flatMap fun p =>
    (frameRows toFloat mode p.1).take p.2.toNat
  grants : (granted w.ring.log).length = w.fed.length ∧ ∀ g ∈ granted w.ring.log, g ≤ 12
  frames : w.taken.filter wellFormedFrame = w.fed ++ w.feeding.toList
  ok : w.framesOk = w.fed.length
  bad : w.framesBad = w.taken.countP fun buf => !wellFormedFrame buf
  refusals : refused w.ring.log = shortfall w.ring.log
  zeroed : zeroFilled w.ring.log = zeros w.heard

section Invariant

variable [Zero α] {toFloat : Sample → α} {sampleRate : Nat} {w : PwWorld α} {k : Nat}

theorem pwStart_holds (toFloat : Sample → α) (standard : sampleRate ∈ standardRates) :
    ∃ k, (pwStart sampleRate : PwWorld α).Holds toFloat (broadcastMode sampleRate) k := by
  have depth : (UInt32.ofNat (sampleRate / 4)).toNat ≤ 2 ^ 31 ∧
      reacSamplesPerPkt ≤ (nextPow2 (UInt32.ofNat (sampleRate / 4)) - 1).toNat := by
    simp only [standardRates, List.mem_cons, List.not_mem_nil, or_false] at standard
    rcases standard with rfl | rfl | rfl <;> decide
  obtain ⟨k, fresh⟩ := reacRingInit_fresh (α := α) (UInt32.ofNat reacMaxChannels) depth.1
  have holds := fresh.holds
  have mask := holds.ring.mask
  refine ⟨k, ⟨_, holds⟩, rfl, by rw [← mask]; exact depth.2, rfl, rfl, ⟨0, Nat.le_refl 0, .nil⟩, rfl,
    ⟨rfl, fun g member => ?_⟩, rfl, rfl, rfl, rfl, rfl⟩
  cases member

theorem PwWorld.Holds.takeFrame (holds : w.Holds toFloat (broadcastMode sampleRate) k)
    (waiting : w.feeding = none) (buf : List UInt8) :
    (takeFrame toFloat (broadcastMode sampleRate) w buf).Holds toFloat (broadcastMode sampleRate) k := by
  obtain ⟨q, ring⟩ := holds.ring
  have idle : w.ring.producer = .idle := by
    have feeding := holds.feeding
    rwa [waiting] at feeding
  have frames := holds.frames
  rw [waiting] at frames
  unfold ReacAes67.takeFrame
  split
  next => exact holds
  next =>
    cases valid : (reacFrameInspect buf).valid with
    | false =>
      have bad : wellFormedFrame buf = false := valid
      rw [reacDecode_malformed _ _ valid]
      exact { holds with
        frames := by simpa [bad, waiting] using frames
        bad := by simp [holds.bad, bad] }
    | true =>
      have good : wellFormedFrame buf = true := valid
      have fits : ¬ (12 : UInt32) > w.ring.ring.mask := by
        rw [gt_iff_lt, UInt32.lt_iff_toNat_lt, ring.ring.mask]
        exact Nat.not_lt.mpr holds.block
      rw [reacDecode_valid _ valid]
      exact { holds with
        ring := ⟨q, ring.moveProducer trivial (by rw [idle]; rfl)⟩
        feeding := by
          simp only [Feeding, Producer.args, Option.some.injEq, Prod.mk.injEq, true_and]
          exact if_neg fits
        frames := by simpa [good] using frames
        bad := by simp [holds.bad, good] }

theorem PwWorld.Holds.feederStep (holds : w.Holds toFloat (broadcastMode sampleRate) k) :
    (feederStep w).Holds toFloat (broadcastMode sampleRate) k := by
  obtain ⟨q, ring⟩ := holds.ring
  obtain ⟨q', _, next⟩ := producerStep_holds ring
  obtain ⟨sameConsumer, sameChannels⟩ := producerStep_frame w.ring
  obtain ⟨upto, read, inOrder⟩ := holds.heard
  unfold ReacAes67.feederStep
  cases feeding : w.feeding with
  | none => exact holds
  | some buf =>
    have busy := holds.feeding
    rw [feeding] at busy
    have processing := sameConsumer ▸ holds.processing
    have width := sameChannels.trans holds.width
    rcases producerStep_args w.ring busy with ⟨goes, sameLog⟩ | ⟨idle, take, wrote⟩
    next =>
      have inside : ¬ (producerStep w.ring).producer.isIdle = true := by
        rw [Producer.isIdle_iff]
        intro idle
        rw [idle] at goes
        cases goes
      dsimp only
      rw [if_neg inside]
      exact { holds with
        ring := ⟨q', next⟩
        width := width
        feeding := goes
        processing := processing
        frames := by rw [← feeding]; exact holds.frames
        heard := ⟨upto, by rw [sameLog]; exact read, by rw [sameLog]; exact inOrder⟩
        stream := by rw [sameLog]; exact holds.stream
        grants := by rw [sameLog]; exact holds.grants
        refusals := by rw [sameLog]; exact holds.refusals
        zeroed := by rw [sameLog]; exact holds.zeroed }
    next =>
      dsimp only
      rw [if_pos (Producer.isIdle_iff.mpr idle)]
      have logged := List.mem_append_right w.ring.log (List.mem_singleton_self
        (RingEvent.wrote (fun i => toFloat ((decoded (broadcastMode sampleRate) buf).sample i)) 12 take))
      have short : take ≤ 12 := next.log.granted _ 12 take (by rw [wrote]; exact logged)
      have block : (RingEvent.wrote (fun i => toFloat ((decoded (broadcastMode sampleRate) buf).sample i)) 12
          take).accepted = (frameRows toFloat (broadcastMode sampleRate) buf).take take.toNat :=
        planarRows_take (fun i => toFloat ((decoded (broadcastMode sampleRate) buf).sample i)) 12 short
      have counts := holds.grants.1
      exact {
        ring := ⟨q', next⟩
        width := width
        block := holds.block
        feeding := idle
        processing := processing
        heard := by
          refine ⟨upto, ?_, ?_⟩
          next => simpa [wrote, RingEvent.consumed] using read
          next =>
            rw [wrote, accepted_snoc]
            exact inOrder.extend _
        stream := by
          rw [wrote, accepted_snoc, granted_snoc, holds.stream, block]
          simp [RingEvent.granted, List.zip_append counts.symm]
        grants := by
          rw [wrote, granted_snoc]
          exact ⟨by simp [RingEvent.granted, counts],
            List.forall_mem_append.mpr ⟨holds.grants.2, List.forall_mem_singleton.mpr short⟩⟩
        frames := by simpa [feeding] using holds.frames
        ok := by simp [holds.ok]
        bad := holds.bad
        refusals := by
          rw [wrote, refused_snoc, shortfall_snoc, holds.refusals]
          simp [RingEvent.refused, RingEvent.granted]
        zeroed := by
          rw [wrote, zeroFilled_snoc, holds.zeroed]
          rfl }

theorem PwWorld.Holds.startCycle (holds : w.Holds toFloat (broadcastMode sampleRate) k)
    (waiting : w.processing = .idle) (duration : UInt64) (linked : Nat → Bool) (dst : Nat → Nat → α) :
    (startCycle w duration linked dst).Holds toFloat (broadcastMode sampleRate) k := by
  obtain ⟨q, ring⟩ := holds.ring
  have idle := holds.processing
  rw [waiting] at idle
  unfold ReacAes67.startCycle
  dsimp only
  split
  next => exact holds
  next =>
    exact { holds with
      ring := ⟨q, ring.moveConsumer trivial (by rw [show w.ring.consumer = .idle from idle]; rfl)⟩
      processing := rfl }

-- A trim takes samples off the queue that no cycle hears.
theorem PwWorld.Holds.trimmed (holds : w.Holds toFloat (broadcastMode sampleRate) k)
    (logged : (consumerStep w.ring).log = w.ring.log ∨
      ∃ rows, (consumerStep w.ring).log = w.ring.log ++ [.discarded rows])
    {p : Processing α} (inCall : InCall p (consumerStep w.ring).consumer) :
    { w with ring := consumerStep w.ring, processing := p }.Holds toFloat (broadcastMode sampleRate) k := by
  obtain ⟨q, ring⟩ := holds.ring
  obtain ⟨q', _, next⟩ := consumerStep_holds ring
  obtain ⟨sameProducer, sameChannels⟩ := consumerStep_frame w.ring
  obtain ⟨upto, read, inOrder⟩ := holds.heard
  have kept : accepted (consumerStep w.ring).log = accepted w.ring.log ∧
      granted (consumerStep w.ring).log = granted w.ring.log ∧
      (consumed w.ring.log).length ≤ (consumed (consumerStep w.ring).log).length ∧
      refused (consumerStep w.ring).log = refused w.ring.log ∧
      zeroFilled (consumerStep w.ring).log = zeroFilled w.ring.log := by
    rcases logged with same | ⟨rows, more⟩
    next => simp [same]
    next => simp [more, RingEvent.accepted, RingEvent.granted, RingEvent.refused, RingEvent.zeroFilled]
  obtain ⟨sameAccepted, sameGranted, onward, sameRefused, sameZeroed⟩ := kept
  exact { holds with
    ring := ⟨q', next⟩
    width := sameChannels.trans holds.width
    feeding := by rw [show (consumerStep w.ring).producer = _ from sameProducer]; exact holds.feeding
    processing := inCall
    heard := ⟨upto, read.trans onward, by rw [sameAccepted]; exact inOrder⟩
    stream := by rw [sameAccepted, sameGranted]; exact holds.stream
    grants := by rw [sameGranted]; exact holds.grants
    refusals := by rw [sameRefused, shortfall, sameGranted]; exact holds.refusals
    zeroed := sameZeroed.trans holds.zeroed }

theorem PwWorld.Holds.startRead (holds : w.Holds toFloat (broadcastMode sampleRate) k)
    (waiting : w.processing = .idle) (nframes : UInt32) (linked : Nat → Bool) (dst : Nat → Nat → α) :
    let channels := UInt32.ofNat reacMaxChannels
    let nch := if channels < w.ring.ring.channels then channels else w.ring.ring.channels
    { w with
      ring := { w.ring with consumer := .readHead nch nframes dst }
      processing := .reading linked }.Holds toFloat (broadcastMode sampleRate) k := by
  intro channels nch
  obtain ⟨q, ring⟩ := holds.ring
  have idle := holds.processing
  rw [waiting] at idle
  have all : nch = w.ring.ring.channels := by
    simp only [nch, channels, holds.width]
    exact if_neg (UInt32.lt_irrefl _)
  exact { holds with
    ring := ⟨q, ring.moveConsumer all (by rw [show w.ring.consumer = .idle from idle]; rfl)⟩
    processing := rfl }

theorem PwWorld.Holds.delivered (holds : w.Holds toFloat (broadcastMode sampleRate) k) {linked : Nat → Bool}
    {n real : UInt32} {out : Nat → Nat → α}
    (logged : (consumerStep w.ring).log = w.ring.log ++ [.delivered n real out])
    (hears : (⟨n, real, linked, out⟩ : Heard α).Hears (accepted w.ring.log) (consumed w.ring.log).length)
    {p : Processing α} (inCall : InCall p (consumerStep w.ring).consumer) :
    { w with
      ring := consumerStep w.ring
      processing := p
      heard :=
        w.heard ++ [(⟨n, real, linked, out⟩ : Heard α)] }.Holds toFloat (broadcastMode sampleRate) k := by
  obtain ⟨q, ring⟩ := holds.ring
  obtain ⟨q', _, next⟩ := consumerStep_holds ring
  obtain ⟨sameProducer, sameChannels⟩ := consumerStep_frame w.ring
  obtain ⟨upto, read, inOrder⟩ := holds.heard
  have sameAccepted : accepted (consumerStep w.ring).log = accepted w.ring.log := by
    simp [logged, RingEvent.accepted]
  have sameGranted : granted (consumerStep w.ring).log = granted w.ring.log := by
    simp [logged, RingEvent.granted]
  exact { holds with
    ring := ⟨q', next⟩
    width := sameChannels.trans holds.width
    feeding := by rw [show (consumerStep w.ring).producer = _ from sameProducer]; exact holds.feeding
    processing := inCall
    heard := by
      rw [sameAccepted]
      refine ⟨_, ?_, .snoc inOrder read hears⟩
      simp [logged, RingEvent.consumed]
    stream := by rw [sameAccepted, sameGranted]; exact holds.stream
    grants := by rw [sameGranted]; exact holds.grants
    refusals := by
      rw [shortfall, sameGranted, logged, refused_snoc]
      exact holds.refusals
    zeroed := by
      rw [logged, zeroFilled_snoc, zeros_snoc, holds.zeroed]
      rfl }

theorem PwWorld.Holds.graphStep (holds : w.Holds toFloat (broadcastMode sampleRate) k) :
    (graphStep w).Holds toFloat (broadcastMode sampleRate) k := by
  obtain ⟨q, ring⟩ := holds.ring
  have processing := holds.processing
  unfold ReacAes67.graphStep
  cases place : w.processing with
  | idle => exact holds
  | trimming nframes linked dst =>
    rw [place] at processing
    obtain ⟨goes, logged⟩ := consumerStep_trims w.ring processing
    dsimp only
    split
    next finished =>
      have idle := Consumer.isIdle_iff.mp finished
      exact (holds.trimmed logged (p := .idle) idle).startRead rfl nframes linked dst
    next more =>
      rcases goes with inside | idle
      next =>
        rw [← place]
        exact holds.trimmed logged (by rw [place]; exact inside)
      next => exact absurd (Consumer.isIdle_iff.mpr idle) more
  | reading linked =>
    rw [place] at processing
    obtain ⟨goes, logged⟩ := consumerStep_reads w.ring ring holds.width processing
    have inCall : InCall (if (consumerStep w.ring).consumer.isIdle then .idle else .reading linked)
        (consumerStep w.ring).consumer := by
      split
      next finished => exact Consumer.isIdle_iff.mp finished
      next more => exact goes.resolve_right fun idle => more (Consumer.isIdle_iff.mpr idle)
    rcases logged with same | ⟨n, real, out, delivered, hears⟩
    next => simpa [same] using holds.trimmed (.inl same) inCall
    next => simpa [delivered, RingEvent.heard] using holds.delivered delivered (hears linked) inCall

theorem PwWorld.Holds.pwStep (holds : w.Holds toFloat (broadcastMode sampleRate) k) (event : PwEvent α) :
    (pwStep toFloat (broadcastMode sampleRate) w event).Holds toFloat (broadcastMode sampleRate) k := by
  cases event with
  | frame buf =>
    simp only [ReacAes67.pwStep]
    split
    next waiting => exact holds.takeFrame waiting buf
    next => exact holds
  | feeder => exact holds.feederStep
  | process duration linked dst =>
    simp only [ReacAes67.pwStep]
    split
    next waiting => exact holds.startCycle waiting duration linked dst
    next => exact holds
    next => exact holds
  | graph => exact holds.graphStep

theorem PwWorld.Holds.pwRun (holds : w.Holds toFloat (broadcastMode sampleRate) k)
    (events : List (PwEvent α)) :
    (pwRun toFloat (broadcastMode sampleRate) w events).Holds toFloat (broadcastMode sampleRate) k := by
  induction events generalizing w with
  | nil => exact holds
  | cons event events ih => exact ih (holds.pwStep event)

-- A read copies slots that were published, a write fills free ones.
theorem RingWorld.Holds.apart {w : RingWorld α} {q : RowFifo α k} (holds : w.Holds k q) {c s : Nat}
    {pos : UInt32} (readsSlot : ReadsSlot w c s pos) : ¬ Writes w pos := by
  obtain ⟨nch, n, real, t, out, control, _, sample⟩ := readsSlot
  have consumer := holds.consumer
  rw [control] at consumer
  obtain ⟨_, _, available, _, _, cursor, _⟩ := consumer
  rw [Nat.min_eq_left sample.le] at cursor
  exact holds.notWrites cursor (by omega)

theorem PwWorld.Holds.plays (holds : w.Holds toFloat (broadcastMode sampleRate) k) :
    w.Plays toFloat (broadcastMode sampleRate) := by
  obtain ⟨q, ring⟩ := holds.ring
  obtain ⟨upto, _, inOrder⟩ := holds.heard
  exact { holds with
    heard := ⟨upto, inOrder⟩
    overruns := by
      intro waiting
      have idle := holds.feeding
      rw [waiting] at idle
      have overruns := ring.overruns
      rw [show w.ring.producer = .idle from idle, holds.refusals] at overruns
      exact overruns
    underruns := by
      intro idle
      have underruns := ring.underruns
      rw [idle, holds.zeroed] at underruns
      simpa [Consumer.pending] using underruns
    apart := fun c s pos => ring.apart }

theorem pwRun_plays (toFloat : Sample → α) (standard : sampleRate ∈ standardRates) (events : List (PwEvent α)) :
    (pwRun toFloat (broadcastMode sampleRate) (pwStart sampleRate) events).Plays toFloat
      (broadcastMode sampleRate) := by
  obtain ⟨k, holds⟩ := pwStart_holds toFloat standard
  exact (holds.pwRun events).plays

end Invariant

end ReacAes67
