import Mathlib.Logic.Relation
import ReacAes67.Shared.BitSmear
import ReacAes67.Shared.BoundedFifo
import ReacAes67.Shared.MaskedIndex

set_option autoImplicit false

/-!
# The sample ring

One producer and one consumer thread share a planar ring through two cursors.
Every access to shared memory is a step of its own: a call is a sequence of
them, with the locals it keeps between two steps in its control state.
-/

namespace ReacAes67

variable {α : Type}

structure ReacRing (α : Type) where
  buf : Nat → α
  capacity : UInt32
  mask : UInt32
  channels : UInt32
  head : UInt32
  tail : UInt32
  underruns : UInt64
  overruns : UInt64

def nextPow2 (v : UInt32) : UInt32 := if v < 2 then 2 else BitSmear.smear (v - 1) + 1

-- The allocation succeeds.
def reacRingInit [Zero α] (channels capacityFrames : UInt32) : ReacRing α :=
  let cap := nextPow2 capacityFrames
  { buf := fun _ => 0, capacity := cap, mask := cap - 1, channels := channels
    head := 0, tail := 0, underruns := 0, overruns := 0 }

def ReacRing.slot (r : ReacRing α) (c pos : Nat) : α := r.buf (c * r.capacity.toNat + pos)

def ReacRing.setSlot (r : ReacRing α) (c pos : Nat) (v : α) : ReacRing α :=
  { r with buf := fun i => if i = c * r.capacity.toNat + pos then v else r.buf i }

def reacRingReadable (r : ReacRing α) : UInt32 := (r.head - r.tail) &&& r.mask

def reacRingWritable (r : ReacRing α) : UInt32 := r.mask - reacRingReadable r

-- `planar` is the caller's source; `n` is the stride, the count asked for after clamping.
inductive Producer (α : Type) where
  | idle
  | loadHead (planar : Nat → α) (n : UInt32)
  | loadTail (planar : Nat → α) (n h : UInt32)
  | overrun (planar : Nat → α) (n free : UInt32)
  | reload (planar : Nat → α) (n w : UInt32)
  | copy (planar : Nat → α) (n w h : UInt32) (c s : Nat) (pos : UInt32)

-- `out` holds the caller's destination buffers, one a channel.
inductive Consumer (α : Type) where
  | idle
  | readHead (nch n : UInt32) (out : Nat → Nat → α)
  | readTail (nch n : UInt32) (out : Nat → Nat → α) (h : UInt32)
  | readReload (nch n real : UInt32) (out : Nat → Nat → α)
  | readCopy (nch n real t : UInt32) (c s : Nat) (pos : UInt32) (out : Nat → Nat → α)
  | readCount (n real : UInt32)
  | trimHead (keep : UInt32)
  | trimTail (keep h : UInt32)
  | trimReload (keep drop : UInt32)
  | trimStore (keep drop t : UInt32)

/-- What a finished call did to the stream of samples. -/
inductive RingEvent (α : Type) where
  | wrote (planar : Nat → α) (n w : UInt32)
  | delivered (n real : UInt32) (out : Nat → Nat → α)
  | discarded (rows : List (Nat → α))

structure RingWorld (α : Type) where
  ring : ReacRing α
  producer : Producer α
  consumer : Consumer α
  log : List (RingEvent α)

-- A row is one sample instant, the sample of every channel.
def RingEvent.accepted : RingEvent α → List (Nat → α)
  | .wrote planar n w => (List.range w.toNat).map fun s c => planar (c * n.toNat + s)
  | .delivered _ _ _ => []
  | .discarded _ => []

def RingEvent.consumed : RingEvent α → List (Nat → α)
  | .wrote _ _ _ => []
  | .delivered _ real out => (List.range real.toNat).map fun s c => out c s
  | .discarded rows => rows

def RingEvent.refused : RingEvent α → Nat
  | .wrote _ n w => n.toNat - w.toNat
  | .delivered _ _ _ => 0
  | .discarded _ => 0

def RingEvent.zeroFilled : RingEvent α → Nat
  | .wrote _ _ _ => 0
  | .delivered n real _ => n.toNat - real.toNat
  | .discarded _ => 0

def accepted (log : List (RingEvent α)) : List (Nat → α) := log.flatMap RingEvent.accepted
def consumed (log : List (RingEvent α)) : List (Nat → α) := log.flatMap RingEvent.consumed
def refused (log : List (RingEvent α)) : Nat := (log.map RingEvent.refused).sum
def zeroFilled (log : List (RingEvent α)) : Nat := (log.map RingEvent.zeroFilled).sum

/-- `reac_ring_write` up to its next access to shared memory. -/
def producerStep (w : RingWorld α) : RingWorld α :=
  match w.producer with
  | .idle => w
  | .loadHead planar n => { w with producer := .loadTail planar n w.ring.head }
  | .loadTail planar n h =>
    let free := w.ring.mask - ((h - w.ring.tail) &&& w.ring.mask)
    if n > free then { w with producer := .overrun planar n free }
    else { w with producer := .reload planar n n }
  | .overrun planar n free =>
    let counted := { w with
      ring := { w.ring with overruns := w.ring.overruns + (n - free).toUInt64 } }
    if free = 0 then { counted with producer := .idle, log := w.log ++ [.wrote planar n 0] }
    else { counted with producer := .reload planar n free }
  | .reload planar n take =>
    { w with producer := .copy planar n take w.ring.head 0 0 w.ring.head }
  | .copy planar n take h c s pos =>
    if c < w.ring.channels.toNat then
      if s < take.toNat then
        { w with
          ring := w.ring.setSlot c pos.toNat (planar (c * n.toNat + s))
          producer := .copy planar n take h c (s + 1) ((pos + 1) &&& w.ring.mask) }
      else { w with producer := .copy planar n take h (c + 1) 0 h }
    else
      { w with
        ring := { w.ring with head := (h + take) &&& w.ring.mask }
        producer := .idle
        log := w.log ++ [.wrote planar n take] }

def setOut (out : Nat → Nat → α) (c s : Nat) (v : α) : Nat → Nat → α :=
  fun c' s' => if c' = c ∧ s' = s then v else out c' s'

/-- `reac_ring_read_planar` or `reac_ring_trim` up to its next access to shared memory. -/
def consumerStep [Zero α] (w : RingWorld α) : RingWorld α :=
  match w.consumer with
  | .idle => w
  | .readHead nch n out => { w with consumer := .readTail nch n out w.ring.head }
  | .readTail nch n out h =>
    let avail := (h - w.ring.tail) &&& w.ring.mask
    { w with consumer := .readReload nch n (if avail < n then avail else n) out }
  | .readReload nch n real out =>
    { w with consumer := .readCopy nch n real w.ring.tail 0 0 w.ring.tail out }
  | .readCopy nch n real t c s pos out =>
    if c < nch.toNat then
      if s < real.toNat then
        { w with consumer := .readCopy nch n real t c (s + 1) ((pos + 1) &&& w.ring.mask)
                   (setOut out c s (w.ring.slot c pos.toNat)) }
      else if s < n.toNat then
        { w with consumer := .readCopy nch n real t c (s + 1) pos (setOut out c s 0) }
      else { w with consumer := .readCopy nch n real t (c + 1) 0 t out }
    else
      { w with
        ring := { w.ring with tail := (t + real) &&& w.ring.mask }
        consumer := if real < n then .readCount n real else .idle
        log := w.log ++ [.delivered n real out] }
  | .readCount n real =>
    { w with
      ring := { w.ring with underruns := w.ring.underruns + (n - real).toUInt64 }
      consumer := .idle }
  | .trimHead keep => { w with consumer := .trimTail keep w.ring.head }
  | .trimTail keep h =>
    let avail := (h - w.ring.tail) &&& w.ring.mask
    if avail ≤ keep then { w with consumer := .idle }
    else { w with consumer := .trimReload keep (avail - keep) }
  | .trimReload keep drop => { w with consumer := .trimStore keep drop w.ring.tail }
  | .trimStore _ drop t =>
    { w with
      ring := { w.ring with tail := (t + drop) &&& w.ring.mask }
      consumer := .idle
      log := w.log ++ [.discarded ((List.range drop.toNat).map fun s c =>
        w.ring.slot c (((t + UInt32.ofNat s) &&& w.ring.mask).toNat))] }

/-- A thread starts a call, or takes the next step of the one it is in. -/
inductive RingStep [Zero α] : RingWorld α → RingWorld α → Prop
  | write (w : RingWorld α) (planar : Nat → α) (n : UInt32) (idle : w.producer = .idle)
      (fits : n ≤ w.ring.mask) :
      RingStep w { w with
        producer := .loadHead planar (if n > w.ring.mask then w.ring.mask else n) }
  | read (w : RingWorld α) (channels n : UInt32) (dst : Nat → Nat → α) (idle : w.consumer = .idle)
      (all : w.ring.channels ≤ channels) :
      RingStep w { w with
        consumer := .readHead (if channels < w.ring.channels then channels else w.ring.channels)
          n dst }
  | trim (w : RingWorld α) (keep : UInt32) (idle : w.consumer = .idle) :
      RingStep w { w with consumer := .trimHead keep }
  | producer (w : RingWorld α) : RingStep w (producerStep w)
  | consumer (w : RingWorld α) : RingStep w (consumerStep w)

-- A ring of a power of two slots after `reac_ring_init`, with both threads outside any call.
structure RingWorld.Fresh (w : RingWorld α) (k : Nat) : Prop where
  small : k < 32
  capacity : w.ring.capacity.toNat = 2 ^ k
  mask : w.ring.mask = w.ring.capacity - 1
  head : w.ring.head = 0
  tail : w.ring.tail = 0
  underruns : w.ring.underruns = 0
  overruns : w.ring.overruns = 0
  producer : w.producer = .idle
  consumer : w.consumer = .idle
  log : w.log = []

theorem nextPow2_toNat {v : UInt32} (bound : v.toNat ≤ 2 ^ 31) :
    ∃ k, k < 32 ∧ (nextPow2 v).toNat = 2 ^ k := by
  rw [nextPow2]
  split
  next => exact ⟨1, by decide, rfl⟩
  next large =>
    have large : 2 ≤ v.toNat := UInt32.not_lt.mp large
    have one : 1 ≤ v := UInt32.le_iff_toNat_le.mpr (Nat.le_of_succ_le large)
    have below : (v - 1).toNat = v.toNat - 1 := UInt32.toNat_sub_of_le v 1 one
    have top : (v - 1).toNat.log2 < 31 := (Nat.log2_lt (by omega)).mpr (by omega)
    have size : 2 ^ ((v - 1).toNat.log2 + 1) ≤ 2 ^ 31 := Nat.pow_le_pow_right (by omega) top
    have positive := Nat.two_pow_pos ((v - 1).toNat.log2 + 1)
    refine ⟨(v - 1).toNat.log2 + 1, by omega, ?_⟩
    rw [UInt32.toNat_add, BitSmear.smear_toNat (by omega), UInt32.toNat_one, Nat.sub_add_cancel positive]
    omega

/-- What `reac_ring_init` sets up, before either thread has called. -/
theorem reacRingInit_fresh [Zero α] (channels : UInt32) {capacityFrames : UInt32}
    (bound : capacityFrames.toNat ≤ 2 ^ 31) :
    ∃ k, (⟨reacRingInit channels capacityFrames, .idle, .idle, []⟩ : RingWorld α).Fresh k := by
  obtain ⟨k, small, capacity⟩ := nextPow2_toNat bound
  exact ⟨k, small, capacity, rfl, rfl, rfl, rfl, rfl, rfl, rfl, rfl⟩

end ReacAes67
