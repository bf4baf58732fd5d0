import ReacAes67.Shared.OwnSteps
import ReacAes67.RingOps

set_option autoImplicit false

/-!
# The threads' steps and the calls they make up

A thread that runs alone ends every call. What its steps come to then is the
call as a function, whatever the other thread is in the middle of.
-/

namespace ReacAes67

open MaskedIndex BoundedFifo OwnSteps

variable {α : Type}

section Write

variable (w : RingWorld α) (planar : Nat → α) (n take h : UInt32)

-- In front of channel `c`, sample `s` of the copy.
def copying (c s : Nat) (st : ReacRing α × UInt32) : RingWorld α :=
  { w with ring := st.1, producer := .copy planar n take h c s st.2 }

-- The copy changes slots only.
theorem writeSamples_frame (r : ReacRing α) (c count : Nat) :
    ∃ buf, ((List.range count).foldl (writeSample planar n.toNat c) (r, h)).1 = { r with buf := buf } := by
  induction count with
  | zero => exact ⟨r.buf, rfl⟩
  | succ count ih =>
    obtain ⟨buf, same⟩ := ih
    rw [List.range_succ, List.foldl_append, List.foldl_cons, List.foldl_nil, writeSample, same]
    exact ⟨_, rfl⟩

theorem writeChannels_frame (r : ReacRing α) (count : Nat) :
    ∃ buf, (List.range count).foldl (writeChannel planar n take h) r = { r with buf := buf } := by
  induction count with
  | zero => exact ⟨r.buf, rfl⟩
  | succ count ih =>
    obtain ⟨buf, same⟩ := ih
    obtain ⟨buf', more⟩ := writeSamples_frame planar n h { r with buf := buf } count take.toNat
    rw [List.range_succ, List.foldl_append, List.foldl_cons, List.foldl_nil, writeChannel, same, more]
    exact ⟨_, rfl⟩

theorem producer_copiesChannel {c : Nat} (r : ReacRing α) (channel : c < r.channels.toNat) :
    Reaches producerStep (copying w planar n take h c 0 (r, h))
      (copying w planar n take h (c + 1) 0 (writeChannel planar n take h r c, h)) := by
  let turn (s : Nat) := (List.range s).foldl (writeSample planar n.toNat c) (r, h)
  have width (s : Nat) : (turn s).1.channels = r.channels := by
    obtain ⟨buf, same⟩ := writeSamples_frame planar n h r c s
    simp only [turn, same]
  have samples : Reaches producerStep (copying w planar n take h c 0 (turn 0))
      (copying w planar n take h c take.toNat (turn take.toNat)) := by
    apply Reaches.turns fun s => copying w planar n take h c s (turn s)
    intro s sample
    refine (Reaches.refl _).tail ?_
    simp only [copying, producerStep, width s, if_pos channel, if_pos sample]
    simp only [turn, List.range_succ, List.foldl_append]
    rfl
  refine samples.tail ?_
  simp only [copying, producerStep, width, if_pos channel, if_neg (Nat.lt_irrefl _)]
  rfl

-- From the second load of the head to the store that publishes the rows.
theorem producer_stores (control : w.producer = .reload planar n take) :
    Reaches producerStep w { w with
      ring := storeRows planar n take w.ring
      producer := .idle
      log := w.log ++ [.wrote planar n take] } := by
  let turn (c : Nat) := (List.range c).foldl (writeChannel planar n take w.ring.head) w.ring
  have frame (c : Nat) := writeChannels_frame planar n take w.ring.head w.ring c
  have width (c : Nat) : (turn c).channels = w.ring.channels := by
    obtain ⟨buf, same⟩ := frame c
    simp only [turn, same]
  have channels : Reaches producerStep (copying w planar n take w.ring.head 0 0 (turn 0, w.ring.head))
      (copying w planar n take w.ring.head w.ring.channels.toNat 0
        (turn w.ring.channels.toNat, w.ring.head)) := by
    apply Reaches.turns fun c => copying w planar n take w.ring.head c 0 (turn c, w.ring.head)
    intro c channel
    have copied := producer_copiesChannel w planar n take w.ring.head (turn c)
      (by rw [width c]; exact channel)
    simpa [turn, List.range_succ] using copied
  have entered : producerStep w = copying w planar n take w.ring.head 0 0 (turn 0, w.ring.head) := by
    simp only [producerStep, control]
    rfl
  refine Reaches.head ((entered ▸ channels).tail ?_)
  obtain ⟨buf, same⟩ := frame w.ring.channels.toNat
  simp only [copying, producerStep, storeRows, turn, same, if_neg (Nat.lt_irrefl _)]

/-- A write that runs alone is `reac_ring_write`. -/
theorem producer_writes (w : RingWorld α) (planar : Nat → α) (n : UInt32) :
    Reaches producerStep { w with producer := .loadHead planar (clampedLength w.ring n) } { w with
      ring := (reacRingWrite w.ring planar n).1
      producer := .idle
      log := w.log ++ [.wrote planar (clampedLength w.ring n) (reacRingWrite w.ring planar n).2] } := by
  have clamped : (if n > w.ring.mask then w.ring.mask else n) = clampedLength w.ring n := rfl
  have free : w.ring.mask - ((w.ring.head - w.ring.tail) &&& w.ring.mask) = reacRingWritable w.ring := rfl
  refine Reaches.head (Reaches.head ?_)
  simp only [producerStep, reacRingWrite, clamped, free]
  by_cases more : clampedLength w.ring n > reacRingWritable w.ring
  next =>
    simp only [if_pos more]
    apply Reaches.head
    by_cases full : reacRingWritable w.ring = 0
    next =>
      simp only [producerStep, full, if_true]
      exact .refl _
    next =>
      simp only [producerStep, if_neg full]
      exact producer_stores _ _ _ _ rfl
  next =>
    simp only [if_neg more]
    exact producer_stores _ _ _ _ rfl

end Write

section Read

variable [Zero α] (w : RingWorld α) (nch n real t : UInt32)

-- In front of channel `c`, sample `s` of the copy.
def reading (c s : Nat) (st : (Nat → Nat → α) × UInt32) : RingWorld α :=
  { w with consumer := .readCopy nch n real t c s st.2 st.1 }

theorem consumer_copiesChannel (less : real ≤ n) {c : Nat} (channel : c < nch.toNat) (mem : Nat → Nat → α) :
    Reaches consumerStep (reading w nch n real t c 0 (mem, t))
      (reading w nch n real t (c + 1) 0 (readChannel w.ring id real n t mem c, t)) := by
  have below := UInt32.le_iff_toNat_le.mp less
  let turn (s : Nat) := (List.range s).foldl (readSample w.ring c c) (mem, t)
  let zeroed (s : Nat) :=
    (List.range' real.toNat s).foldl (fun mem s => setMem mem c s 0) (turn real.toNat).1
  have samples : Reaches consumerStep (reading w nch n real t c 0 (turn 0))
      (reading w nch n real t c real.toNat (turn real.toNat)) := by
    apply Reaches.turns fun s => reading w nch n real t c s (turn s)
    intro s sample
    refine (Reaches.refl _).tail ?_
    simp only [reading, consumerStep, if_pos channel, if_pos sample]
    simp only [turn, List.range_succ, List.foldl_append]
    rfl
  have zeros : Reaches consumerStep (reading w nch n real t c real.toNat (turn real.toNat))
      (reading w nch n real t c (real.toNat + (n.toNat - real.toNat))
        (zeroed (n.toNat - real.toNat), (turn real.toNat).2)) := by
    apply Reaches.turns fun s => reading w nch n real t c (real.toNat + s) (zeroed s, (turn real.toNat).2)
    intro s inside
    refine (Reaches.refl _).tail ?_
    have past : ¬ real.toNat + s < real.toNat := by omega
    have sample : real.toNat + s < n.toNat := by omega
    simp only [reading, consumerStep, if_pos channel, if_neg past, if_pos sample]
    simp only [zeroed, List.range'_concat, List.foldl_append, Nat.one_mul]
    rfl
  rw [Nat.add_sub_cancel' below] at zeros
  refine (samples.trans zeros).tail ?_
  simp only [reading, consumerStep, if_pos channel, if_neg (Nat.not_lt.mpr below), if_neg (Nat.lt_irrefl _)]
  rfl

/-- A read that runs alone is `reac_ring_read_planar`. -/
theorem consumer_reads (channels : UInt32) (dst : Nat → Nat → α) :
    let read := reacRingReadPlanar w.ring id channels n dst
    Reaches consumerStep { w with
        consumer := .readHead (if channels < w.ring.channels then channels else w.ring.channels) n dst }
      { w with
        ring := read.1
        consumer := .idle
        log := w.log ++ [.delivered n read.2.2 read.2.1] } := by
  intro read
  let nch := if channels < w.ring.channels then channels else w.ring.channels
  let real := deliveredLength w.ring n
  let turn (c : Nat) := (List.range c).foldl (readChannel w.ring id real n w.ring.tail) dst
  have less : real ≤ n := deliveredLength_le w.ring n
  have copies : Reaches consumerStep (reading w nch n real w.ring.tail 0 0 (turn 0, w.ring.tail))
      (reading w nch n real w.ring.tail nch.toNat 0 (turn nch.toNat, w.ring.tail)) := by
    apply Reaches.turns fun c => reading w nch n real w.ring.tail c 0 (turn c, w.ring.tail)
    intro c channel
    have copied := consumer_copiesChannel w nch n real w.ring.tail less channel (turn c)
    simpa [turn, List.range_succ] using copied
  refine Reaches.head (Reaches.head (Reaches.head (copies.trans (Reaches.head ?_))))
  simp only [reading, consumerStep, if_neg (Nat.lt_irrefl _)]
  by_cases short : real < n
  next =>
    have result : read = ({ w.ring with
        tail := (w.ring.tail + real) &&& w.ring.mask
        underruns := w.ring.underruns + (n - real).toUInt64 }, turn nch.toNat, real) := if_pos short
    simp only [if_pos short, result]
    exact (Reaches.refl _).tail rfl
  next =>
    have result : read = ({ w.ring with tail := (w.ring.tail + real) &&& w.ring.mask }, turn nch.toNat, real) :=
      if_neg short
    simp only [if_neg short, result]
    exact .refl _

-- What a trim that runs alone takes off the queue.
def trimmedRows (r : ReacRing α) (keep : UInt32) : List (Nat → α) :=
  (List.range (reacRingTrim r keep).2.toNat).map fun s c =>
    r.slot c (((r.tail + UInt32.ofNat s) &&& r.mask).toNat)

/-- A trim that runs alone is `reac_ring_trim`. -/
theorem consumer_trims (keep : UInt32) :
    Reaches consumerStep { w with consumer := .trimHead keep } { w with
      ring := (reacRingTrim w.ring keep).1
      consumer := .idle
      log := if reacRingReadable w.ring ≤ keep then w.log else
        w.log ++ [.discarded (trimmedRows w.ring keep)] } := by
  have avail : (w.ring.head - w.ring.tail) &&& w.ring.mask = reacRingReadable w.ring := rfl
  by_cases short : reacRingReadable w.ring ≤ keep
  next =>
    refine Reaches.head ((Reaches.refl _).tail ?_)
    simp only [consumerStep, reacRingTrim, avail, if_pos short]
  next =>
    refine Reaches.head (Reaches.head (Reaches.head ((Reaches.refl _).tail ?_)))
    simp only [consumerStep, reacRingTrim, trimmedRows, avail, if_neg short]

end Read

section Ends

-- No more steps of its own than these before the thread is out of its call.
def Producer.remaining (channels : Nat) : Producer α → Nat
  | .idle => 0
  | .loadHead _ n => channels * (n.toNat + 1) + n.toNat + 5
  | .loadTail _ n _ => channels * (n.toNat + 1) + n.toNat + 4
  | .overrun _ _ free => channels * (free.toNat + 1) + free.toNat + 3
  | .reload _ _ take => channels * (take.toNat + 1) + take.toNat + 2
  | .copy _ _ take _ c s _ => (channels - c) * (take.toNat + 1) + (take.toNat - s) + 1

def Consumer.remaining : Consumer α → Nat
  | .idle => 0
  | .readHead nch n _ => nch.toNat * (n.toNat + n.toNat + 1) + (n.toNat + n.toNat) + 6
  | .readTail nch n _ _ => nch.toNat * (n.toNat + n.toNat + 1) + (n.toNat + n.toNat) + 5
  | .readReload nch n real _ => nch.toNat * (n.toNat + real.toNat + 1) + (n.toNat + real.toNat) + 4
  | .readCopy nch n real _ c s _ _ =>
    (nch.toNat - c) * (n.toNat + real.toNat + 1) + (n.toNat + real.toNat - s) + 3
  | .readCount _ _ => 1
  | .trimHead _ => 4
  | .trimTail _ _ => 3
  | .trimReload _ _ => 2
  | .trimStore _ _ _ => 1

theorem copyTurns_lower {channels c n : Nat} (inside : c < channels) (s : Nat) :
    (channels - (c + 1)) * (n + 1) + n < (channels - c) * (n + 1) + (n - s) := by
  have split : (channels - c) * (n + 1) = (channels - (c + 1)) * (n + 1) + (n + 1) := by
    rw [show channels - c = channels - (c + 1) + 1 by omega, Nat.add_mul, Nat.one_mul]
  omega

theorem producerStep_lowers (w : RingWorld α) (busy : w.producer ≠ .idle) :
    (producerStep w).producer.remaining (producerStep w).ring.channels.toNat <
      w.producer.remaining w.ring.channels.toNat := by
  cases control : w.producer with
  | idle => exact absurd control busy
  | loadHead planar n =>
    simp only [producerStep, control, Producer.remaining]
    omega
  | loadTail planar n h =>
    simp only [producerStep, control]
    split
    next more =>
      have less := UInt32.lt_iff_toNat_lt.mp more
      have turns := Nat.mul_le_mul_left w.ring.channels.toNat (Nat.succ_le_succ less.le)
      simp only [Producer.remaining, Nat.succ_eq_add_one] at turns ⊢
      omega
    next =>
      simp only [Producer.remaining]
      omega
  | overrun planar n free =>
    simp only [producerStep, control]
    split
    next =>
      simp only [Producer.remaining]
      omega
    next =>
      simp only [Producer.remaining]
      omega
  | reload planar n take =>
    simp only [producerStep, control, Producer.remaining, Nat.sub_zero]
    omega
  | copy planar n take h c s pos =>
    simp only [producerStep, control]
    split
    next channel =>
      split
      next sample =>
        simp only [Producer.remaining, ReacRing.setSlot]
        omega
      next =>
        have lower := copyTurns_lower (n := take.toNat) channel s
        simp only [Producer.remaining, Nat.sub_zero]
        omega
    next =>
      simp only [Producer.remaining]
      omega

theorem consumerStep_lowers [Zero α] (w : RingWorld α) (busy : w.consumer ≠ .idle) :
    (consumerStep w).consumer.remaining < w.consumer.remaining := by
  cases control : w.consumer with
  | idle => exact absurd control busy
  | readHead nch n out =>
    simp only [consumerStep, control, Consumer.remaining]
    omega
  | readTail nch n out h =>
    simp only [consumerStep, control, Consumer.remaining]
    have less : (if (h - w.ring.tail) &&& w.ring.mask < n then (h - w.ring.tail) &&& w.ring.mask
        else n).toNat ≤ n.toNat := by
      split
      next short => exact (UInt32.lt_iff_toNat_lt.mp short).le
      next => exact Nat.le_refl _
    have turns := Nat.mul_le_mul_left nch.toNat (Nat.succ_le_succ (Nat.add_le_add_left less n.toNat))
    simp only [Nat.succ_eq_add_one] at turns
    omega
  | readReload nch n real out =>
    simp only [consumerStep, control, Consumer.remaining, Nat.sub_zero]
    omega
  | readCopy nch n real t c s pos out =>
    simp only [consumerStep, control]
    split
    next channel =>
      split
      next sample =>
        simp only [Consumer.remaining]
        omega
      next =>
        split
        next =>
          simp only [Consumer.remaining]
          omega
        next =>
          have lower := copyTurns_lower (n := n.toNat + real.toNat) channel s
          simp only [Consumer.remaining, Nat.sub_zero]
          omega
    next =>
      split
      next =>
        simp only [Consumer.remaining]
        omega
      next =>
        simp only [Consumer.remaining]
        omega
  | readCount n real => simp [consumerStep, control, Consumer.remaining]
  | trimHead keep => simp [consumerStep, control, Consumer.remaining]
  | trimTail keep h =>
    simp only [consumerStep, control]
    split
    next => simp [Consumer.remaining]
    next => simp [Consumer.remaining]
  | trimReload keep drop => simp [consumerStep, control, Consumer.remaining]
  | trimStore keep drop t => simp [consumerStep, control, Consumer.remaining]

/-- Neither thread waits for the other: whatever it is in the middle of, its own steps end it. -/
theorem producer_ends (w : RingWorld α) : ∃ w', Reaches producerStep w w' ∧ w'.producer = .idle :=
  reaches_done _ (fun w : RingWorld α => w.producer.remaining w.ring.channels.toNat) producerStep_lowers w

theorem consumer_ends [Zero α] (w : RingWorld α) :
    ∃ w', Reaches consumerStep w w' ∧ w'.consumer = .idle :=
  reaches_done _ (fun w : RingWorld α => w.consumer.remaining) consumerStep_lowers w

end Ends

/-- Every call ends by its thread's own steps, and one that runs alone misses no row it could move. -/
structure RingWorld.Progresses [Zero α] (w : RingWorld α) : Prop where
  producer : ∃ w', Reaches producerStep w w' ∧ w'.producer = .idle
  consumer : ∃ w', Reaches consumerStep w w' ∧ w'.consumer = .idle
  writes : ∀ planar n, w.producer = .idle → n ≤ w.ring.mask → ∃ w' granted,
    Reaches producerStep { w with producer := .loadHead planar n } w' ∧ w'.producer = .idle ∧
      w'.log = w.log ++ [.wrote planar n granted] ∧
      granted.toNat = min n.toNat (w.ring.mask.toNat - (reacRingReadable w.ring).toNat)
  reads : ∀ n dst, w.consumer = .idle → ∃ w' real out,
    Reaches consumerStep { w with consumer := .readHead w.ring.channels n dst } w' ∧
      w'.consumer = .idle ∧ w'.log = w.log ++ [.delivered n real out] ∧
      real.toNat = min (reacRingReadable w.ring).toNat n.toNat
  trims : ∀ keep, w.consumer = .idle → ∃ w',
    Reaches consumerStep { w with consumer := .trimHead keep } w' ∧ w'.consumer = .idle ∧
      (reacRingReadable w'.ring).toNat = min (reacRingReadable w.ring).toNat keep.toNat

theorem RingWorld.Holds.progresses [Zero α] {w : RingWorld α} {k : Nat} {q : RowFifo α k}
    (holds : w.Holds k q) : w.Progresses where
  producer := producer_ends w
  consumer := consumer_ends w
  writes := by
    intro planar n _ fits
    have whole : clampedLength w.ring n = n := if_neg (UInt32.not_lt.mpr fits)
    obtain ⟨_, granted, _⟩ := reacRingWrite_holds holds.ring planar n
    have count := grantedLength_toNat w.ring n
    have called := producer_writes w planar n
    rw [whole] at called count
    refine ⟨_, _, called, rfl, rfl, ?_⟩
    rw [granted, count, holds.ring.writable, holds.ring.readable, holds.ring.mask]
  reads := by
    intro n dst _
    have called := consumer_reads w n w.ring.channels dst
    rw [if_neg (UInt32.lt_irrefl _)] at called
    obtain ⟨_, real, _⟩ := reacRingReadPlanar_holds holds.ring id w.ring.channels (UInt32.le_refl _) n dst
    refine ⟨_, _, _, called, rfl, rfl, ?_⟩
    rw [real, holds.ring.delivered, holds.ring.readable]
  trims := by
    intro keep _
    obtain ⟨⟨_, trimmed⟩, _⟩ := reacRingTrim_holds holds.ring keep
    refine ⟨_, consumer_trims w keep, rfl, ?_⟩
    have low := q.taken_le
    rw [trimmed.readable, holds.ring.readable]
    simp only [Fifo.unread, Fifo.take]
    omega

/-- In every state that any interleaving reaches from a fresh ring. -/
theorem ring_boundedFifo [Zero α] (k : Nat) (start w : RingWorld α) (fresh : start.Fresh k)
    (run : Relation.ReflTransGen RingStep start w) :
    ((reacRingReadable w.ring).toNat = (accepted w.log).length - (consumed w.log).length ∧
      (consumed w.log).length ≤ (accepted w.log).length ∧
      reacRingReadable w.ring ≤ w.ring.mask) ∧
    (∀ c s pos, ReadsSlot w c s pos → ¬ Writes w pos ∧
      pos.toNat = ((consumed w.log).length + s) % w.ring.capacity.toNat ∧
      ∃ row, (accepted w.log)[(consumed w.log).length + s]? = some row ∧
        w.ring.slot c pos.toNat = row c) ∧
    (∀ c, c < w.ring.channels.toNat →
      (consumed w.log).map (fun row => row c) <+: (accepted w.log).map fun row => row c) ∧
    (∀ planar n granted, RingEvent.wrote planar n granted ∈ w.log → granted ≤ n) ∧
    (w.producer = .idle → w.ring.overruns = UInt64.ofNat (refused w.log)) ∧
    (w.consumer = .idle → w.ring.underruns = UInt64.ofNat (zeroFilled w.log)) ∧
    (∀ n real out, RingEvent.delivered n real out ∈ w.log → real ≤ n ∧
      ∀ c s, c < w.ring.channels.toNat → real.toNat ≤ s → s < n.toNat → out c s = 0) ∧
    (∀ keep drop t, w.consumer = .trimStore keep drop t →
      (reacRingReadable w.ring).toNat ≥ keep.toNat + drop.toNat) ∧
    w.Progresses := by
  obtain ⟨q, holds⟩ := ringRun_holds fresh run
  have readable := holds.ring.readable
  have low := q.taken_le
  have high := q.unread_le
  rw [holds.log.accepted, holds.log.count, holds.ring.capacity]
  refine ⟨⟨readable, low, ?_⟩, ?_, ?_, holds.log.granted, ?_, ?_, holds.log.silent, ?_, holds.progresses⟩
  · rw [UInt32.le_iff_toNat_le, readable, holds.ring.mask]
    exact q.unread_le_bound
  · rintro c s pos ⟨nch, n, real, t, out, control, channel, sample⟩
    have consumer := holds.consumer
    rw [control] at consumer
    obtain ⟨rfl, _, available, _, _, at', _⟩ := consumer
    rw [Nat.min_eq_left sample.le] at at'
    have member := List.getElem?_eq_getElem (show q.taken + s < q.accepted.length by omega)
    exact ⟨holds.notWrites at' (by omega), at', _, member, holds.slot_read at' channel _ member⟩
  · intro c channel
    rw [holds.log.consumed c channel]
    exact (List.take_prefix q.taken q.accepted).map _
  · intro idle
    rw [holds.overruns, idle]
    rfl
  · intro idle
    have underruns := holds.underruns
    rw [idle] at underruns
    simpa [Consumer.pending] using underruns
  · intro keep drop t control
    have consumer := holds.consumer
    rw [control] at consumer
    have kept := consumer.1
    rw [readable, Fifo.unread]
    omega

-- `true` is a step of the producer.
def interleave [Zero α] (turns : List Bool) (w : RingWorld α) : RingWorld α :=
  turns.foldl (fun w turn => if turn then producerStep w else consumerStep w) w

theorem interleave_run [Zero α] (turns : List Bool) (w : RingWorld α) :
    Relation.ReflTransGen RingStep w (interleave turns w) := by
  induction turns generalizing w with
  | nil => exact .refl
  | cons turn turns ih =>
    cases turn with
    | true => exact (Relation.ReflTransGen.single (.producer w)).trans (ih (producerStep w))
    | false => exact (Relation.ReflTransGen.single (.consumer w)).trans (ih (consumerStep w))

def alternating : Nat → List Bool
  | 0 => []
  | n + 1 => true :: false :: alternating n

def freshRing : ReacRing Nat :=
  { buf := fun _ => 0, capacity := 4, mask := 3, channels := 2, head := 0, tail := 0
    underruns := 0, overruns := 0 }

def idleWorld : RingWorld Nat := ⟨freshRing, .idle, .idle, []⟩

-- Two rows are in the ring; a write of two more and a read of three are both in their copies.
def bothCopy : RingWorld Nat :=
  let filled := interleave (List.replicate 12 true) { idleWorld with producer := .loadHead (· + 7) 2 }
  interleave (alternating 4)
    { filled with producer := .loadHead (· + 20) 2, consumer := .readHead 2 3 fun _ _ => 0 }

-- The same after both, with a trim that overlaps a third write.
def overlapped : RingWorld Nat :=
  interleave (alternating 12)
    { interleave (alternating 11) bothCopy with producer := .loadHead (· + 30) 2, consumer := .trimHead 0 }

theorem bothCopy_run : Relation.ReflTransGen RingStep idleWorld bothCopy := by
  have filled := (Relation.ReflTransGen.single (.write idleWorld (· + 7) 2 rfl (by decide))).trans
    (interleave_run (List.replicate 12 true) _)
  have write := filled.tail (.write _ (· + 20) 2 (by rfl) (by decide))
  have read := write.tail (.read _ 2 3 (fun _ _ => 0) (by rfl) (by decide))
  exact read.trans (interleave_run (alternating 4) _)

theorem overlapped_run : Relation.ReflTransGen RingStep idleWorld overlapped := by
  have both := bothCopy_run.trans (interleave_run (alternating 11) _)
  have write := both.tail (.write _ (· + 30) 2 (by rfl) (by decide))
  have trim := write.tail (.trim _ 0 (by rfl))
  exact trim.trans (interleave_run (alternating 12) _)

theorem ring_boundedFifo_overlapped :
    (ReadsSlot bothCopy 0 1 1 ∧ Writes bothCopy 2 ∧ ¬ Writes bothCopy 1) ∧
      (accepted overlapped.log).map (fun row => row 1) = [9, 10, 22, 32, 33] ∧
      (consumed overlapped.log).map (fun row => row 1) = [9, 10, 22] ∧
      (consumed overlapped.log).map (fun row => row 1) <+: (accepted overlapped.log).map (fun row => row 1) ∧
      overlapped.ring.overruns = UInt64.ofNat 1 ∧ overlapped.ring.underruns = UInt64.ofNat 1 := by
  have fresh : idleWorld.Fresh 2 := ⟨by decide, rfl, rfl, rfl, rfl, rfl, rfl, rfl, rfl, rfl⟩
  have reads : ReadsSlot bothCopy 0 1 1 := ⟨2, 3, 2, 0, _, rfl, by decide, by decide⟩
  obtain ⟨_, apart, _⟩ := ring_boundedFifo 2 idleWorld bothCopy fresh bothCopy_run
  obtain ⟨_, _, inOrder, _, overruns, underruns, _⟩ :=
    ring_boundedFifo 2 idleWorld overlapped fresh overlapped_run
  have writes : Writes bothCopy 2 := ⟨_, 2, 1, 2, 0, 0, 2, 0, rfl, by decide, by decide⟩
  exact ⟨⟨reads, writes, (apart 0 1 1 reads).1⟩, rfl, rfl, inOrder 1 (by decide), overruns rfl, underruns rfl⟩

end ReacAes67
