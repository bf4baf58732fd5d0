import ReacAes67.Ring
import ReacAes67.Shared.SampleBlock

set_option autoImplicit false

/-!
# The sample ring is a bounded FIFO

Whatever the order of the two threads' steps, the cursors and the slots between
them represent a bounded FIFO of rows; each step of the ring is one move of
that queue or none.
-/

namespace ReacAes67

open MaskedIndex BoundedFifo

variable {α : Type}

abbrev RowFifo (α : Type) (k : Nat) := Fifo (Nat → α) (2 ^ k - 1)

/-- The cursors point at the queue's ends and the slots between them hold its unread rows. -/
structure ReacRing.Holds (r : ReacRing α) (k : Nat) (q : RowFifo α k) : Prop where
  small : k < 32
  capacity : r.capacity.toNat = 2 ^ k
  mask : r.mask.toNat = 2 ^ k - 1
  head : Points k r.head q.accepted.length
  tail : Points k r.tail q.taken
  content : ∀ j row, q.taken ≤ j → q.accepted[j]? = some row → ∀ c, c < r.channels.toNat →
    r.slot c (j % 2 ^ k) = row c

-- Cells of the copy loops before channel `c`, sample `s`.
def Copied (c s c' s' : Nat) : Prop := c' < c ∨ c' = c ∧ s' < s

theorem not_copied_start (c' s' : Nat) : ¬ Copied 0 0 c' s' := by
  unfold Copied
  omega

-- A channel whose samples are all copied is behind the cursor like the ones before it.
theorem Copied.of_nextChannel {c s c' s' : Nat} (copied : Copied (c + 1) 0 c' s') (last : s' < s) :
    Copied c s c' s' := by
  unfold Copied at *
  omega

-- The cell the cursor stands at, or an earlier one.
theorem Copied.of_nextSample {c s c' s' : Nat} (copied : Copied c (s + 1) c' s')
    (different : ¬ (c' = c ∧ s' = s)) : Copied c s c' s' := by
  unfold Copied at *
  omega

def Producer.Holds (r : ReacRing α) (k : Nat) (q : RowFifo α k) : Producer α → Prop
  | .idle => True
  | .loadHead _ _ => True
  | .loadTail _ _ h => Points k h q.accepted.length
  | .overrun _ n free => free < n ∧ q.accepted.length + free.toNat ≤ q.taken + (2 ^ k - 1)
  | .reload _ n take => take ≤ n ∧ q.accepted.length + take.toNat ≤ q.taken + (2 ^ k - 1)
  | .copy planar n take h c s pos =>
    take ≤ n ∧ q.accepted.length + take.toNat ≤ q.taken + (2 ^ k - 1) ∧
      Points k h q.accepted.length ∧ s ≤ take.toNat ∧ Points k pos (q.accepted.length + s) ∧
      ∀ c' s', c' < r.channels.toNat → s' < take.toNat → Copied c s c' s' →
        r.slot c' ((q.accepted.length + s') % 2 ^ k) = planar (c' * n.toNat + s')

def Consumer.Holds [Zero α] (channels : UInt32) (k : Nat) (q : RowFifo α k) : Consumer α → Prop
  | .idle => True
  | .readHead nch _ _ => nch = channels
  | .readTail nch _ _ h =>
    nch = channels ∧ ∃ seen, Points k h seen ∧ q.taken ≤ seen ∧ seen ≤ q.accepted.length
  | .readReload nch n real _ =>
    nch = channels ∧ real ≤ n ∧ q.taken + real.toNat ≤ q.accepted.length
  | .readCopy nch n real t c s pos out =>
    nch = channels ∧ real ≤ n ∧ q.taken + real.toNat ≤ q.accepted.length ∧
      Points k t q.taken ∧ s ≤ n.toNat ∧ Points k pos (q.taken + min s real.toNat) ∧
      ∀ c' s', c' < channels.toNat → s' < n.toNat → Copied c s c' s' →
        (s' < real.toNat → ∀ row, q.accepted[q.taken + s']? = some row → out c' s' = row c') ∧
        (real.toNat ≤ s' → out c' s' = 0)
  | .readCount n real => real < n
  | .trimHead _ => True
  | .trimTail _ h => ∃ seen, Points k h seen ∧ q.taken ≤ seen ∧ seen ≤ q.accepted.length
  | .trimReload keep drop => q.taken + keep.toNat + drop.toNat ≤ q.accepted.length
  | .trimStore keep drop t =>
    q.taken + keep.toNat + drop.toNat ≤ q.accepted.length ∧ Points k t q.taken

-- Refused by the write under way and counted, but not yet logged.
def Producer.pending : Producer α → Nat
  | .reload _ n take => n.toNat - take.toNat
  | .copy _ n take _ _ _ _ => n.toNat - take.toNat
  | _ => 0

-- Zero-filled by a logged read that has not counted them yet.
def Consumer.pending : Consumer α → Nat
  | .readCount n real => n.toNat - real.toNat
  | _ => 0

structure LogHolds [Zero α] (channels : Nat) {k : Nat} (q : RowFifo α k)
    (log : List (RingEvent α)) : Prop where
  accepted : accepted log = q.accepted
  count : (consumed log).length = q.taken
  consumed : ∀ c, c < channels →
    (consumed log).map (fun row => row c) = (q.accepted.take q.taken).map fun row => row c
  silent : ∀ n real out, RingEvent.delivered n real out ∈ log → real ≤ n ∧
    ∀ c s, c < channels → real.toNat ≤ s → s < n.toNat → out c s = 0
  granted : ∀ planar n w, RingEvent.wrote planar n w ∈ log → w ≤ n

structure RingWorld.Holds [Zero α] (w : RingWorld α) (k : Nat) (q : RowFifo α k) : Prop where
  ring : w.ring.Holds k q
  producer : w.producer.Holds w.ring k q
  consumer : w.consumer.Holds w.ring.channels k q
  log : LogHolds w.ring.channels.toNat q w.log
  overruns : w.ring.overruns = UInt64.ofNat (refused w.log + w.producer.pending)
  underruns : w.ring.underruns + UInt64.ofNat w.consumer.pending = UInt64.ofNat (zeroFilled w.log)

section Log

variable (log : List (RingEvent α)) (e : RingEvent α)

@[simp] theorem accepted_snoc : accepted (log ++ [e]) = accepted log ++ e.accepted := by
  simp [accepted]

@[simp] theorem consumed_snoc : consumed (log ++ [e]) = consumed log ++ e.consumed := by
  simp [consumed]

@[simp] theorem refused_snoc : refused (log ++ [e]) = refused log + e.refused := by
  simp [refused]

@[simp] theorem zeroFilled_snoc : zeroFilled (log ++ [e]) = zeroFilled log + e.zeroFilled := by
  simp [zeroFilled]

end Log

section LogSteps

variable [Zero α] {channels k : Nat} {q : RowFifo α k} {log : List (RingEvent α)}

theorem LogHolds.write (holds : LogHolds channels q log) (planar : Nat → α) (n w : UInt32)
    (less : w ≤ n) (room : q.accepted.length + (RingEvent.wrote planar n w).accepted.length ≤
      q.taken + (2 ^ k - 1)) :
    LogHolds channels (q.push (RingEvent.wrote planar n w).accepted room)
      (log ++ [.wrote planar n w]) := by
  constructor
  · rw [accepted_snoc, holds.accepted]
    rfl
  · rw [consumed_snoc, List.length_append, holds.count]
    rfl
  · intro c channel
    have taken := q.push_take _ room
    simp only [consumed_snoc, RingEvent.consumed, List.append_nil]
    rw [holds.consumed c channel]
    exact congrArg _ taken.symm
  · intro n' real out member
    exact holds.silent n' real out (by simpa using member)
  · intro planar' n' w' member
    rcases List.mem_append.mp member with old | new
    · exact holds.granted planar' n' w' old
    · obtain ⟨_, rfl, rfl⟩ := RingEvent.wrote.inj (List.mem_singleton.mp new)
      exact less

theorem LogHolds.consume (holds : LogHolds channels q log) {n : Nat}
    (available : q.taken + n ≤ q.accepted.length) (e : RingEvent α) (reads : e.accepted = [])
    (count : e.consumed.length = n)
    (front : ∀ c, c < channels →
      e.consumed.map (fun row => row c) = (q.front n).map fun row => row c)
    (silent : ∀ n real out, e = .delivered n real out → real ≤ n ∧
      ∀ c s, c < channels → real.toNat ≤ s → s < n.toNat → out c s = 0) :
    LogHolds channels (q.take n available) (log ++ [e]) := by
  constructor
  · rw [accepted_snoc, holds.accepted, reads, List.append_nil]
    rfl
  · rw [consumed_snoc, List.length_append, holds.count, count]
    rfl
  · intro c channel
    rw [consumed_snoc, List.map_append, holds.consumed c channel, front c channel, ← List.map_append,
      q.taken_append_front]
    rfl
  · intro n' real out member
    rcases List.mem_append.mp member with old | new
    · exact holds.silent n' real out old
    · exact silent n' real out (List.mem_singleton.mp new).symm
  · intro planar n' w member
    rcases List.mem_append.mp member with old | new
    · exact holds.granted planar n' w old
    · rw [← List.mem_singleton.mp new] at reads
      have none : w.toNat = 0 := by simpa [RingEvent.accepted] using reads
      rw [UInt32.le_iff_toNat_le, none]
      exact Nat.zero_le _

end LogSteps

section Ring

variable {r : ReacRing α} {k : Nat} {q : RowFifo α k}

theorem getElem?_push {rows : List (Nat → α)}
    {room : q.accepted.length + rows.length ≤ q.taken + (2 ^ k - 1)} {j : Nat}
    (inside : j < q.accepted.length) : (q.push rows room).accepted[j]? = q.accepted[j]? :=
  List.getElem?_append_left inside

theorem ReacRing.slot_setSlot (r : ReacRing α) {c c' pos pos' : Nat} (v : α)
    (inside : pos < r.capacity.toNat) (inside' : pos' < r.capacity.toNat) :
    (r.setSlot c pos v).slot c' pos' = if c' = c ∧ pos' = pos then v else r.slot c' pos' := by
  by_cases same : c' = c ∧ pos' = pos
  · obtain ⟨rfl, rfl⟩ := same
    simp [ReacRing.slot, ReacRing.setSlot]
  · have different : c' * r.capacity.toNat + pos' ≠ c * r.capacity.toNat + pos := fun equal =>
      same (SampleBlock.rowMajor_inj inside' inside equal)
    simp [ReacRing.slot, ReacRing.setSlot, same, different]

theorem ReacRing.Holds.size (holds : r.Holds k q) (p : Nat) : p % 2 ^ k < r.capacity.toNat := by
  rw [holds.capacity]
  exact Nat.mod_lt p (Nat.two_pow_pos k)

theorem lt_ringSize {p : Nat} (room : p ≤ q.taken + (2 ^ k - 1)) : p - q.taken < 2 ^ k := by
  have positive := Nat.two_pow_pos k
  omega

theorem ReacRing.Holds.stale (holds : r.Holds k q) {h : UInt32} {seen : Nat}
    (at' : Points k h seen) (low : q.taken ≤ seen) (high : seen ≤ q.accepted.length) :
    ((h - r.tail) &&& r.mask).toNat = seen - q.taken := by
  have bounded := q.unread_le
  exact at'.distance holds.small.le holds.mask holds.tail low (lt_ringSize (by omega))

theorem ReacRing.Holds.readable (holds : r.Holds k q) :
    (reacRingReadable r).toNat = q.unread :=
  holds.stale holds.head q.taken_le (le_refl _)

theorem ReacRing.Holds.counters (holds : r.Holds k q) (overruns underruns : UInt64) :
    { r with overruns := overruns, underruns := underruns }.Holds k q :=
  ⟨holds.small, holds.capacity, holds.mask, holds.head, holds.tail, holds.content⟩

theorem ReacRing.Holds.setSlot (holds : r.Holds k q) {pos c : Nat} (v : α)
    (free : q.accepted.length ≤ pos) (room : pos < q.taken + 2 ^ k) :
    (r.setSlot c (pos % 2 ^ k) v).Holds k q := by
  refine ⟨holds.small, holds.capacity, holds.mask, holds.head, holds.tail, ?_⟩
  intro j row unread member c' channel
  have inside : j < q.accepted.length := (List.getElem?_eq_some_iff.mp member).1
  have apart : j % 2 ^ k ≠ pos % 2 ^ k := positions_distinct (by omega) (by omega)
  rw [r.slot_setSlot v (holds.size pos) (holds.size j), if_neg (fun same => apart same.2)]
  exact holds.content j row unread member c' channel

theorem ReacRing.Holds.publish (holds : r.Holds k q) {h take : UInt32}
    (at' : Points k h q.accepted.length) (rows : List (Nat → α)) (count : rows.length = take.toNat)
    (room : q.accepted.length + rows.length ≤ q.taken + (2 ^ k - 1))
    (written : ∀ s row, rows[s]? = some row → ∀ c, c < r.channels.toNat →
      r.slot c ((q.accepted.length + s) % 2 ^ k) = row c) :
    { r with head := (h + take) &&& r.mask }.Holds k (q.push rows room) := by
  have head := at'.advance holds.small.le holds.mask take
  rw [← count, ← List.length_append] at head
  refine ⟨holds.small, holds.capacity, holds.mask, head, holds.tail, ?_⟩
  intro j row unread member c channel
  rcases Nat.lt_or_ge j q.accepted.length with old | new
  · rw [getElem?_push old] at member
    exact holds.content j row unread member c channel
  · simp only [Fifo.push] at member
    rw [List.getElem?_append_right new] at member
    have cell := written _ row member c channel
    rwa [Nat.add_sub_cancel' new] at cell

theorem ReacRing.Holds.consume (holds : r.Holds k q) {t n : UInt32} (at' : Points k t q.taken)
    (available : q.taken + n.toNat ≤ q.accepted.length) :
    { r with tail := (t + n) &&& r.mask }.Holds k (q.take n.toNat available) := by
  have tail := at'.advance holds.small.le holds.mask n
  refine ⟨holds.small, holds.capacity, holds.mask, holds.head, tail, ?_⟩
  intro j row unread member c channel
  simp only [Fifo.take] at unread
  exact holds.content j row (by omega) member c channel

end Ring

section Frames

variable {r : ReacRing α} {k : Nat} {q : RowFifo α k}

theorem Producer.Holds.startCopy {planar : Nat → α} {n take h : UInt32}
    (holds : (Producer.reload planar n take).Holds r k q) (at' : Points k h q.accepted.length) :
    (Producer.copy planar n take h 0 0 h).Holds r k q :=
  ⟨holds.1, holds.2, at', Nat.zero_le _, at', fun c' s' _ _ copied => absurd copied (not_copied_start c' s')⟩

theorem Producer.Holds.nextChannel {planar : Nat → α} {n take h pos : UInt32} {c s : Nat}
    (holds : (Producer.copy planar n take h c s pos).Holds r k q) (last : ¬ s < take.toNat) :
    (Producer.copy planar n take h (c + 1) 0 h).Holds r k q := by
  obtain ⟨less, room, start, _, _, written⟩ := holds
  refine ⟨less, room, start, Nat.zero_le _, start, ?_⟩
  intro c' s' channel sample copied
  exact written c' s' channel sample (copied.of_nextChannel (by omega))

-- The producer's knowledge survives a move of the tail, the consumer's a move of the head.
theorem Producer.Holds.take {p : Producer α} (holds : p.Holds r k q) (n : Nat)
    (available : q.taken + n ≤ q.accepted.length) (tail : UInt32) :
    p.Holds { r with tail := tail } k (q.take n available) := by
  cases p with
  | idle => trivial
  | loadHead => trivial
  | loadTail => exact holds
  | overrun planar n free =>
    obtain ⟨less, room⟩ := holds
    exact ⟨less, by simp only [Fifo.take]; omega⟩
  | reload planar n take =>
    obtain ⟨less, room⟩ := holds
    exact ⟨less, by simp only [Fifo.take]; omega⟩
  | copy planar n take h c s pos =>
    obtain ⟨less, room, rest⟩ := holds
    exact ⟨less, by simp only [Fifo.take]; omega, rest⟩

theorem Consumer.Holds.push [Zero α] {channels : UInt32} {p : Consumer α}
    (holds : p.Holds channels k q) (rows : List (Nat → α))
    (room : q.accepted.length + rows.length ≤ q.taken + (2 ^ k - 1)) :
    p.Holds channels k (q.push rows room) := by
  have longer : q.accepted.length ≤ (q.push rows room).accepted.length := by
    simp [Fifo.push]
  cases p with
  | idle => trivial
  | readHead => exact holds
  | readTail nch n out h =>
    obtain ⟨all, seen, at', low, high⟩ := holds
    exact ⟨all, seen, at', low, high.trans longer⟩
  | readReload nch n real out =>
    obtain ⟨all, less, available⟩ := holds
    exact ⟨all, less, available.trans longer⟩
  | readCopy nch n real t c s pos out =>
    obtain ⟨all, less, available, start, inside, at', done⟩ := holds
    refine ⟨all, less, available.trans longer, start, inside, at', ?_⟩
    intro c' s' channel sample copied
    obtain ⟨real', silent⟩ := done c' s' channel sample copied
    refine ⟨fun small row member => real' small row ?_, silent⟩
    rwa [getElem?_push (by simp only [Fifo.push]; omega)] at member
  | readCount => exact holds
  | trimHead => trivial
  | trimTail keep h =>
    obtain ⟨seen, at', low, high⟩ := holds
    exact ⟨seen, at', low, high.trans longer⟩
  | trimReload keep drop => exact holds.trans longer
  | trimStore keep drop t => exact ⟨holds.1.trans longer, holds.2⟩

end Frames

theorem toUInt64_sub {a b : UInt32} (less : b ≤ a) :
    (a - b).toUInt64 = UInt64.ofNat (a.toNat - b.toNat) := by
  have bound := a.toNat_lt
  apply UInt64.toNat_inj.mp
  rw [UInt32.toNat_toUInt64, UInt32.toNat_sub_of_le _ _ less, UInt64.toNat_ofNat']
  omega

section ProducerSteps

variable [Zero α] {w : RingWorld α} {k : Nat} {q : RowFifo α k}

theorem RingWorld.Holds.moveProducer (holds : w.Holds k q) {p : Producer α}
    (moved : p.Holds w.ring k q) (same : p.pending = w.producer.pending) :
    { w with producer := p }.Holds k q :=
  ⟨holds.ring, moved, holds.consumer, holds.log, by rw [same]; exact holds.overruns, holds.underruns⟩

-- What the producer takes for free is free: the consumer can only make more room.
theorem RingWorld.Holds.freeSlots (holds : w.Holds k q) {h : UInt32} (at' : Points k h q.accepted.length) :
    (w.ring.mask - ((h - w.ring.tail) &&& w.ring.mask)).toNat =
      2 ^ k - 1 - (q.accepted.length - q.taken) := by
  have unread := holds.ring.stale at' q.taken_le (le_refl _)
  have mask := holds.ring.mask
  have high := q.unread_le
  have within : (h - w.ring.tail) &&& w.ring.mask ≤ w.ring.mask := by
    rw [UInt32.le_iff_toNat_le, unread, mask]
    omega
  rw [UInt32.toNat_sub_of_le _ _ within, unread, mask]

theorem RingWorld.Holds.copyCell (holds : w.Holds k q) {planar : Nat → α} {n take h pos : UInt32}
    {c s : Nat} (control : w.producer = .copy planar n take h c s pos)
    (channel : c < w.ring.channels.toNat) (sample : s < take.toNat) :
    { w with
      ring := w.ring.setSlot c pos.toNat (planar (c * n.toNat + s))
      producer := .copy planar n take h c (s + 1) ((pos + 1) &&& w.ring.mask) }.Holds k q := by
  have producer := holds.producer
  rw [control] at producer
  obtain ⟨less, room, start, _, at', written⟩ := producer
  have low := q.taken_le
  have free : q.accepted.length + s < q.taken + 2 ^ k := by
    have positive := Nat.two_pow_pos k
    omega
  have cell : pos.toNat = (q.accepted.length + s) % 2 ^ k := at'
  rw [cell]
  refine ⟨holds.ring.setSlot _ (Nat.le_add_right _ s) free, ?_, holds.consumer, holds.log, ?_,
    holds.underruns⟩
  · refine ⟨less, room, start, sample, at'.next holds.ring.small.le holds.ring.mask, ?_⟩
    intro c' s' channel' sample' copied
    rw [w.ring.slot_setSlot _ (holds.ring.size _) (holds.ring.size _)]
    by_cases same : c' = c ∧ s' = s
    · obtain ⟨rfl, rfl⟩ := same
      simp
    · have earlier := copied.of_nextSample same
      have old := written c' s' channel' sample' earlier
      by_cases row : c' = c
      · have before : s' < s := by
          unfold Copied at earlier
          omega
        have apart : (q.accepted.length + s') % 2 ^ k ≠ (q.accepted.length + s) % 2 ^ k :=
          positions_distinct (by omega) (by omega)
        rw [if_neg (fun hit => apart hit.2)]
        exact old
      · rw [if_neg (fun hit => row hit.1)]
        exact old
  · have overruns := holds.overruns
    rw [control] at overruns
    exact overruns

theorem RingWorld.Holds.publish (holds : w.Holds k q) {planar : Nat → α} {n take h pos : UInt32}
    {c s : Nat} (control : w.producer = .copy planar n take h c s pos)
    (finished : ¬ c < w.ring.channels.toNat) :
    ∃ q', q.Moves q' ∧ RingWorld.Holds { w with
      ring := { w.ring with head := (h + take) &&& w.ring.mask }
      producer := .idle
      log := w.log ++ [.wrote planar n take] } k q' := by
  have producer := holds.producer
  rw [control] at producer
  obtain ⟨less, room, start, _, _, written⟩ := producer
  let rows : List (Nat → α) := (List.range take.toNat).map fun s c => planar (c * n.toNat + s)
  have count : rows.length = take.toNat := by simp [rows]
  have room' : q.accepted.length + rows.length ≤ q.taken + (2 ^ k - 1) := by omega
  have content : ∀ s row, rows[s]? = some row → ∀ c', c' < w.ring.channels.toNat →
      w.ring.slot c' ((q.accepted.length + s) % 2 ^ k) = row c' := by
    intro s' row member c' channel
    have inside : s' < take.toNat := by
      have bound := (List.getElem?_eq_some_iff.mp member).1
      omega
    have value : row = fun c => planar (c * n.toNat + s') := by
      simpa [rows, List.getElem?_range inside] using member.symm
    rw [written c' s' channel inside (Or.inl (by omega)), value]
  refine ⟨_, .push q rows room', holds.ring.publish start rows count room' content, trivial,
    holds.consumer.push rows room', ?_, ?_, ?_⟩
  · exact holds.log.write planar n take less room'
  · have overruns := holds.overruns
    rw [control] at overruns
    simp only [refused_snoc, RingEvent.refused, Producer.pending, Nat.add_zero] at overruns ⊢
    exact overruns
  · simpa [RingEvent.zeroFilled] using holds.underruns

theorem RingWorld.Holds.overrun (holds : w.Holds k q) {planar : Nat → α} {n free : UInt32}
    (control : w.producer = .overrun planar n free) :
    w.ring.overruns + (n - free).toUInt64 =
      UInt64.ofNat (refused w.log + (n.toNat - free.toNat)) := by
  have producer := holds.producer
  have overruns := holds.overruns
  rw [control] at producer overruns
  have none : (Producer.overrun planar n free).pending = 0 := rfl
  rw [overruns, none, Nat.add_zero, toUInt64_sub (UInt32.le_of_lt producer.1), UInt64.ofNat_add]

theorem producerStep_holds (holds : w.Holds k q) :
    ∃ q', q.Moves q' ∧ (producerStep w).Holds k q' := by
  have producer := holds.producer
  cases control : w.producer with
  | idle =>
    simp only [producerStep, control]
    exact ⟨q, .stay q, holds⟩
  | loadHead planar n =>
    simp only [producerStep, control]
    exact ⟨q, .stay q, holds.moveProducer holds.ring.head (by rw [control]; rfl)⟩
  | loadTail planar n h =>
    rw [control] at producer
    have free := holds.freeSlots producer
    have low := q.taken_le
    have high := q.unread_le
    simp only [producerStep, control]
    split
    · rename_i more
      refine ⟨q, .stay q, holds.moveProducer ⟨more, ?_⟩ (by rw [control]; rfl)⟩
      omega
    · rename_i enough
      refine ⟨q, .stay q, holds.moveProducer ⟨UInt32.le_refl n, ?_⟩ ?_⟩
      · rw [UInt32.not_lt, UInt32.le_iff_toNat_le] at enough
        omega
      · rw [control]
        simp [Producer.pending]
  | overrun planar n free =>
    have counted := holds.overrun control
    rw [control] at producer
    obtain ⟨less, room⟩ := producer
    simp only [producerStep, control]
    have ring := holds.ring.counters (w.ring.overruns + (n - free).toUInt64) w.ring.underruns
    split
    · rename_i empty
      have log : LogHolds w.ring.channels.toNat (q.push [] q.unread_le)
          (w.log ++ [.wrote planar n 0]) := holds.log.write planar n 0 UInt32.zero_le q.unread_le
      rw [q.push_nil] at log
      refine ⟨q, .stay q, ring, trivial, holds.consumer, log, ?_, ?_⟩
      · simpa [RingEvent.refused, Producer.pending, empty] using counted
      · simpa [RingEvent.zeroFilled] using holds.underruns
    · exact ⟨q, .stay q, ring, ⟨UInt32.le_of_lt less, room⟩, holds.consumer, holds.log, counted,
        holds.underruns⟩
  | reload planar n take =>
    rw [control] at producer
    simp only [producerStep, control]
    exact ⟨q, .stay q, holds.moveProducer (producer.startCopy holds.ring.head) (by rw [control]; rfl)⟩
  | copy planar n take h c s pos =>
    simp only [producerStep, control]
    split
    · rename_i channel
      split
      · rename_i sample
        exact ⟨q, .stay q, holds.copyCell control channel sample⟩
      · rename_i last
        rw [control] at producer
        exact ⟨q, .stay q, holds.moveProducer (producer.nextChannel last) (by rw [control]; rfl)⟩
    · rename_i finished
      exact holds.publish control finished

end ProducerSteps

section ConsumerSteps

variable [Zero α] {w : RingWorld α} {k : Nat} {q : RowFifo α k}

theorem RingWorld.Holds.moveConsumer (holds : w.Holds k q) {p : Consumer α}
    (moved : p.Holds w.ring.channels k q) (same : p.pending = w.consumer.pending) :
    { w with consumer := p }.Holds k q :=
  ⟨holds.ring, holds.producer, moved, holds.log, holds.overruns, by rw [same]; exact holds.underruns⟩

-- The slot under the copy cursor holds the row the cursor stands at.
theorem RingWorld.Holds.slot_read (holds : w.Holds k q) {pos : UInt32} {s c : Nat}
    (at' : Points k pos (q.taken + s)) (channel : c < w.ring.channels.toNat) (row : Nat → α)
    (member : q.accepted[q.taken + s]? = some row) :
    w.ring.slot c pos.toNat = row c := by
  have cell : pos.toNat = (q.taken + s) % 2 ^ k := at'
  rw [cell]
  exact holds.ring.content _ row (Nat.le_add_right _ _) member c channel

omit [Zero α] in
theorem setOut_apply (out : Nat → Nat → α) (c s c' s' : Nat) (v : α) :
    setOut out c s v c' s' = if c' = c ∧ s' = s then v else out c' s' := rfl

theorem Consumer.Holds.copied {channels : UInt32} {nch n real t pos pos' : UInt32} {c s : Nat}
    {out : Nat → Nat → α} (holds : (Consumer.readCopy nch n real t c s pos out).Holds channels k q)
    (v : α) (inside : s < n.toNat) (next : Points k pos' (q.taken + min (s + 1) real.toNat))
    (value : (s < real.toNat → ∀ row, q.accepted[q.taken + s]? = some row → v = row c) ∧
      (real.toNat ≤ s → v = 0)) :
    (Consumer.readCopy nch n real t c (s + 1) pos' (setOut out c s v)).Holds channels k q := by
  obtain ⟨all, less, available, start, _, _, done⟩ := holds
  refine ⟨all, less, available, start, inside, next, ?_⟩
  intro c' s' channel sample copied
  rw [setOut_apply]
  by_cases same : c' = c ∧ s' = s
  · obtain ⟨rfl, rfl⟩ := same
    simpa using value
  · rw [if_neg same]
    exact done c' s' channel sample (copied.of_nextSample same)

theorem Consumer.Holds.startCopy {channels : UInt32} {nch n real t : UInt32} {out : Nat → Nat → α}
    (holds : (Consumer.readReload nch n real out).Holds channels k q) (at' : Points k t q.taken) :
    (Consumer.readCopy nch n real t 0 0 t out).Holds channels k q :=
  ⟨holds.1, holds.2.1, holds.2.2, at', Nat.zero_le _, by simpa using at',
    fun c' s' _ _ copied => absurd copied (not_copied_start c' s')⟩

theorem Consumer.Holds.nextChannel {channels : UInt32} {nch n real t pos : UInt32} {c s : Nat}
    {out : Nat → Nat → α} (holds : (Consumer.readCopy nch n real t c s pos out).Holds channels k q)
    (last : ¬ s < n.toNat) : (Consumer.readCopy nch n real t (c + 1) 0 t out).Holds channels k q := by
  obtain ⟨all, less, available, start, _, _, done⟩ := holds
  refine ⟨all, less, available, start, Nat.zero_le _, by simpa using start, ?_⟩
  intro c' s' channel sample copied
  exact done c' s' channel sample (copied.of_nextChannel (by omega))

-- One sample of the copy loop: a row of the ring, or silence behind the last real row.
theorem RingWorld.Holds.copyOut (holds : w.Holds k q) {nch n real t pos : UInt32} {c s : Nat}
    {out : Nat → Nat → α} (consumer : (Consumer.readCopy nch n real t c s pos out).Holds w.ring.channels k q)
    (channel : c < nch.toNat) :
    (s < real.toNat → (Consumer.readCopy nch n real t c (s + 1) ((pos + 1) &&& w.ring.mask)
        (setOut out c s (w.ring.slot c pos.toNat))).Holds w.ring.channels k q) ∧
      (¬ s < real.toNat → s < n.toNat →
        (Consumer.readCopy nch n real t c (s + 1) pos (setOut out c s 0)).Holds w.ring.channels k q) := by
  obtain ⟨all, less, -, -, -, at', -⟩ := id consumer
  refine ⟨fun sample => ?_, fun zero inside => ?_⟩
  · rw [Nat.min_eq_left sample.le] at at'
    have next : Points k ((pos + 1) &&& w.ring.mask) (q.taken + min (s + 1) real.toNat) := by
      rw [Nat.min_eq_left sample]
      exact at'.next holds.ring.small.le holds.ring.mask
    refine consumer.copied _ (lt_of_lt_of_le sample (UInt32.le_iff_toNat_le.mp less)) next ⟨?_, ?_⟩
    · exact fun _ row member => holds.slot_read at' (all ▸ channel) row member
    · exact fun late => absurd sample (not_lt.mpr late)
  · have next : Points k pos (q.taken + min (s + 1) real.toNat) := by
      rw [Nat.min_eq_right (by omega)]
      rwa [Nat.min_eq_right (by omega)] at at'
    exact consumer.copied 0 inside next ⟨fun early => absurd early zero, fun _ => rfl⟩

theorem RingWorld.Holds.deliver (holds : w.Holds k q) {nch n real t pos : UInt32} {c s : Nat}
    {out : Nat → Nat → α} (control : w.consumer = .readCopy nch n real t c s pos out)
    (finished : ¬ c < nch.toNat) :
    ∃ q', q.Moves q' ∧ RingWorld.Holds { w with
      ring := { w.ring with tail := (t + real) &&& w.ring.mask }
      consumer := if real < n then .readCount n real else .idle
      log := w.log ++ [.delivered n real out] } k q' := by
  have consumer := holds.consumer
  have underruns := holds.underruns
  rw [control] at consumer underruns
  obtain ⟨all, less, available, start, _, _, done⟩ := consumer
  subst all
  have moved : Consumer.Holds w.ring.channels k (q.take real.toNat available)
      (if real < n then .readCount n real else .idle) := by
    split
    · assumption
    · trivial
  have front : ∀ c', c' < w.ring.channels.toNat →
      (RingEvent.delivered n real out).consumed.map (fun row => row c') =
        (q.front real.toNat).map fun row => row c' := by
    intro c' channel
    apply q.map_eq_front available (fun row => row c')
    intro s' row inside member
    have bound := UInt32.le_iff_toNat_le.mp less
    exact (done c' s' channel (by omega) (Or.inl (by omega))).1 inside row member
  have silent : ∀ n' real' out', RingEvent.delivered n real out = .delivered n' real' out' →
      real' ≤ n' ∧ ∀ c' s', c' < w.ring.channels.toNat → real'.toNat ≤ s' → s' < n'.toNat →
        out' c' s' = 0 := by
    rintro n' real' out' ⟨⟩
    exact ⟨less, fun c' s' channel low inside =>
      (done c' s' channel inside (Or.inl (by omega))).2 low⟩
  refine ⟨_, .take q real.toNat available, holds.ring.consume start available,
    holds.producer.take real.toNat available _, moved,
    holds.log.consume available _ rfl (by simp [RingEvent.consumed]) front silent, ?_, ?_⟩
  · simpa [RingEvent.refused] using holds.overruns
  · have zero : (Consumer.readCopy w.ring.channels n real t c s pos out).pending = 0 := rfl
    have pending : (if real < n then Consumer.readCount n real else .idle : Consumer α).pending =
        n.toNat - real.toNat := by
      split
      · rfl
      · rename_i enough
        rw [UInt32.not_lt, UInt32.le_iff_toNat_le] at enough
        simp only [Consumer.pending]
        omega
    rw [zero] at underruns
    rw [pending, zeroFilled_snoc, UInt64.ofNat_add, ← underruns]
    simp [RingEvent.zeroFilled]

theorem RingWorld.Holds.discard (holds : w.Holds k q) {keep drop t : UInt32}
    (control : w.consumer = .trimStore keep drop t) :
    ∃ q', q.Moves q' ∧ RingWorld.Holds { w with
      ring := { w.ring with tail := (t + drop) &&& w.ring.mask }
      consumer := .idle
      log := w.log ++ [.discarded ((List.range drop.toNat).map fun s c =>
        w.ring.slot c (((t + UInt32.ofNat s) &&& w.ring.mask).toNat))] } k q' := by
  have consumer := holds.consumer
  have underruns := holds.underruns
  rw [control] at consumer underruns
  obtain ⟨kept, start⟩ := consumer
  have available : q.taken + drop.toNat ≤ q.accepted.length := by omega
  refine ⟨_, .take q drop.toNat available, holds.ring.consume start available,
    holds.producer.take drop.toNat available _, trivial,
    holds.log.consume available _ rfl (by simp [RingEvent.consumed]) ?_ (by simp), ?_, ?_⟩
  · intro c channel
    apply q.map_eq_front available (fun row => row c)
    intro s row inside member
    have cursor := start.advance holds.ring.small.le holds.ring.mask (UInt32.ofNat s)
    rw [UInt32.toNat_ofNat_of_lt' (inside.trans drop.toNat_lt)] at cursor
    exact holds.slot_read cursor channel row member
  · simpa [RingEvent.refused] using holds.overruns
  · simpa [RingEvent.zeroFilled, Consumer.pending] using underruns

theorem consumerStep_holds (holds : w.Holds k q) :
    ∃ q', q.Moves q' ∧ (consumerStep w).Holds k q' := by
  have consumer := holds.consumer
  have taken := q.taken_le
  cases control : w.consumer with
  | idle =>
    simp only [consumerStep, control]
    exact ⟨q, .stay q, holds⟩
  | readHead nch n out =>
    rw [control] at consumer
    simp only [consumerStep, control]
    exact ⟨q, .stay q, holds.moveConsumer
      ⟨consumer, _, holds.ring.head, q.taken_le, le_refl _⟩ (by rw [control]; rfl)⟩
  | readTail nch n out h =>
    rw [control] at consumer
    obtain ⟨all, seen, at', low, high⟩ := consumer
    have avail := holds.ring.stale at' low high
    simp only [consumerStep, control]
    refine ⟨q, .stay q, holds.moveConsumer ⟨all, ?_, ?_⟩ (by rw [control]; rfl)⟩
    · split
      · rename_i less
        exact UInt32.le_of_lt less
      · exact UInt32.le_refl n
    · split
      · omega
      · rename_i enough
        rw [UInt32.not_lt, UInt32.le_iff_toNat_le] at enough
        omega
  | readReload nch n real out =>
    rw [control] at consumer
    simp only [consumerStep, control]
    exact ⟨q, .stay q, holds.moveConsumer (consumer.startCopy holds.ring.tail) (by rw [control]; rfl)⟩
  | readCopy nch n real t c s pos out =>
    rw [control] at consumer
    simp only [consumerStep, control]
    split
    · rename_i channel
      obtain ⟨row, silence⟩ := holds.copyOut consumer channel
      split
      · rename_i sample
        exact ⟨q, .stay q, holds.moveConsumer (row sample) (by rw [control]; rfl)⟩
      · rename_i zero
        split
        · rename_i inside
          exact ⟨q, .stay q, holds.moveConsumer (silence zero inside) (by rw [control]; rfl)⟩
        · rename_i last
          exact ⟨q, .stay q, holds.moveConsumer (consumer.nextChannel last) (by rw [control]; rfl)⟩
    · rename_i finished
      exact holds.deliver control finished
  | readCount n real =>
    have underruns := holds.underruns
    rw [control] at consumer underruns
    have ring := holds.ring.counters w.ring.overruns (w.ring.underruns + (n - real).toUInt64)
    simp only [consumerStep, control]
    refine ⟨q, .stay q, ring, holds.producer, trivial, holds.log, holds.overruns, ?_⟩
    rw [toUInt64_sub (UInt32.le_of_lt consumer), ← underruns]
    simp [Consumer.pending]
  | trimHead keep =>
    simp only [consumerStep, control]
    exact ⟨q, .stay q, holds.moveConsumer ⟨_, holds.ring.head, q.taken_le, le_refl _⟩
      (by rw [control]; rfl)⟩
  | trimTail keep h =>
    rw [control] at consumer
    obtain ⟨seen, at', low, high⟩ := consumer
    have avail := holds.ring.stale at' low high
    simp only [consumerStep, control]
    split
    · exact ⟨q, .stay q, holds.moveConsumer trivial (by rw [control]; rfl)⟩
    · rename_i more
      rw [UInt32.not_le] at more
      have drop := UInt32.toNat_sub_of_le _ _ (UInt32.le_of_lt more)
      have above := UInt32.lt_iff_toNat_lt.mp more
      refine ⟨q, .stay q, holds.moveConsumer ?_ (by rw [control]; rfl)⟩
      simp only [Consumer.Holds]
      omega
  | trimReload keep drop =>
    rw [control] at consumer
    simp only [consumerStep, control]
    exact ⟨q, .stay q, holds.moveConsumer ⟨consumer, holds.ring.tail⟩ (by rw [control]; rfl)⟩
  | trimStore keep drop t =>
    simp only [consumerStep, control]
    exact holds.discard control

end ConsumerSteps

section Runs

variable [Zero α] {w w' : RingWorld α} {k : Nat} {q : RowFifo α k}

/-- Each step of either thread is one move of the queue the ring represents, or none. -/
theorem ringStep_holds (step : RingStep w w') (holds : w.Holds k q) :
    ∃ q', q.Moves q' ∧ w'.Holds k q' := by
  cases step with
  | write planar n idle fits =>
    exact ⟨q, .stay q, holds.moveProducer trivial (by rw [idle]; rfl)⟩
  | read channels n dst idle all =>
    refine ⟨q, .stay q, holds.moveConsumer ?_ (by rw [idle]; rfl)⟩
    exact if_neg (UInt32.not_lt.mpr all)
  | trim keep idle => exact ⟨q, .stay q, holds.moveConsumer trivial (by rw [idle]; rfl)⟩
  | producer => exact producerStep_holds holds
  | consumer => exact consumerStep_holds holds

theorem RingWorld.Fresh.holds (fresh : w.Fresh k) : w.Holds k Fifo.empty := by
  have mask : w.ring.mask.toNat = 2 ^ k - 1 := by
    have positive := Nat.two_pow_pos k
    have one : (1 : UInt32) ≤ w.ring.capacity := by
      rw [UInt32.le_iff_toNat_le, fresh.capacity]
      exact positive
    rw [fresh.mask, UInt32.toNat_sub_of_le _ _ one, fresh.capacity]
    rfl
  constructor
  · refine ⟨fresh.small, fresh.capacity, mask, ?_, ?_, fun j row _ member => ?_⟩
    · simp [Points, fresh.head, Fifo.empty]
    · simp [Points, fresh.tail, Fifo.empty]
    · cases member
  · rw [fresh.producer]
    trivial
  · rw [fresh.consumer]
    trivial
  · rw [fresh.log]
    refine ⟨rfl, rfl, fun _ _ => rfl, fun _ _ _ member => ?_, fun _ _ _ member => ?_⟩
    · cases member
    · cases member
  · rw [fresh.overruns, fresh.log, fresh.producer]
    rfl
  · rw [fresh.underruns, fresh.log, fresh.consumer]
    rfl

theorem ringRun_holds (fresh : w.Fresh k) (run : Relation.ReflTransGen RingStep w w') :
    ∃ q, w'.Holds k q := by
  induction run with
  | refl => exact ⟨_, fresh.holds⟩
  | tail _ step ih =>
    obtain ⟨q, holds⟩ := ih
    obtain ⟨q', _, next⟩ := ringStep_holds step holds
    exact ⟨q', next⟩

end Runs

-- The next step of the consumer copies slot `pos` of channel `c` for sample `s` of its read.
def ReadsSlot (w : RingWorld α) (c s : Nat) (pos : UInt32) : Prop :=
  ∃ nch n real t out, w.consumer = .readCopy nch n real t c s pos out ∧ c < nch.toNat ∧
    s < real.toNat

-- Slots that the write under way fills before it publishes them.
def Writes (w : RingWorld α) (pos : UInt32) : Prop :=
  ∃ planar n take h c s next j, w.producer = .copy planar n take h c s next ∧ j < take.toNat ∧
    pos = (h + UInt32.ofNat j) &&& w.ring.mask

theorem RingWorld.Holds.notWrites [Zero α] {w : RingWorld α} {k : Nat} {q : RowFifo α k}
    (holds : w.Holds k q) {pos : UInt32} {s : Nat} (at' : Points k pos (q.taken + s))
    (published : q.taken + s < q.accepted.length) : ¬ Writes w pos := by
  rintro ⟨planar, n, take, h, c, s', next, j, control, inside, rfl⟩
  have producer := holds.producer
  rw [control] at producer
  obtain ⟨_, room, start, _⟩ := producer
  have cursor := start.advance holds.ring.small.le holds.ring.mask (UInt32.ofNat j)
  rw [UInt32.toNat_ofNat_of_lt' (inside.trans take.toNat_lt)] at cursor
  have positive := Nat.two_pow_pos k
  exact positions_distinct (by omega) (by omega) (at'.symm.trans cursor)

end ReacAes67
