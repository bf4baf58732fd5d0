import ReacAes67.Frame
import ReacAes67.RingContract

set_option autoImplicit false

/-!
# The capture node

The receive thread feeds decoded frames to the ring and the graph's process
callback takes one quantum out of it for all ports at once. Calls of the two
come in any order.
-/

namespace ReacAes67

open SampleBlock MaskedIndex BoundedFifo

variable {α : Type}

def reacMaxQuantum : UInt32 := 8192

def standardRates : List Nat := [44100, 48000, 96000]

inductive SourceBuffer where
  | port (channel : Nat)
  | scratch
deriving DecidableEq

structure SourceNode (α : Type) where
  ring : ReacRing α
  memory : SourceBuffer → Nat → α

/-- What one process cycle handed to the graph. -/
structure Cycle (α : Type) where
  nframes : UInt32
  linked : Nat → Bool
  port : Nat → Nat → α
  unread : UInt32

inductive SourceEvent where
  | feed (frame : List UInt8)
  | cycle (duration : UInt64) (linked : Nat → Bool)

inductive SourceRecord (α : Type) where
  | fed (rows : List (Nat → α)) (w : UInt32)
  | played (cycle : Cycle α)

-- The ring that `reac_rx_open` sizes for a rate, about 250 ms.
def reacRxRing [Zero α] (sampleRate : Nat) : ReacRing α :=
  reacRingInit (UInt32.ofNat reacMaxChannels) (UInt32.ofNat (sampleRate / 4))

def feedFrame (toFloat : Sample → α) (mode : ReacMode) (ring : ReacRing α) (frame : List UInt8) :
    ReacRing α × List (SourceRecord α) :=
  match reacDecode frame mode Block.blank with
  | none => (ring, [])
  | some (ns, s24) =>
    let planar := fun i => toFloat (s24.sample i)
    let written := reacRingWrite ring planar (UInt32.ofNat ns)
    (written.1, [.fed (planarRows planar (UInt32.ofNat ns) (UInt32.ofNat ns)) written.2])

def clampQuantum (duration : UInt64) : UInt32 :=
  let nframes := duration.toUInt32
  if nframes > reacMaxQuantum then reacMaxQuantum else nframes

/-- `on_process` of the source. -/
def sourceProcess [Zero α] (n : SourceNode α) (duration : UInt64) (linked : Nat → Bool) :
    SourceNode α × List (SourceRecord α) :=
  let nframes := clampQuantum duration
  let dst := fun c => if linked c then SourceBuffer.port c else SourceBuffer.scratch
  let gotPorts := (List.range reacMaxChannels).countP fun c => linked c
  if gotPorts = 0 then (n, [])
  else
    let trimmed := (reacRingTrim n.ring (nframes * 4)).1
    let read := reacRingReadPlanar trimmed dst (UInt32.ofNat reacMaxChannels) nframes n.memory
    (⟨read.1, read.2.1⟩,
      [.played ⟨nframes, linked, fun c => read.2.1 (.port c), reacRingReadable read.1⟩])

def sourceStep [Zero α] (toFloat : Sample → α) (mode : ReacMode) (n : SourceNode α) :
    SourceEvent → SourceNode α × List (SourceRecord α)
  | .feed frame =>
    let fed := feedFrame toFloat mode n.ring frame
    ({ n with ring := fed.1 }, fed.2)
  | .cycle duration linked => sourceProcess n duration linked

def SourceRecord.rows : SourceRecord α → List (Nat → α)
  | .fed rows _ => rows
  | .played _ => []

def SourceRecord.accepted : SourceRecord α → List (Nat → α)
  | .fed rows w => rows.take w.toNat
  | .played _ => []

def SourceRecord.cycle : SourceRecord α → Option (Cycle α)
  | .fed _ _ => none
  | .played cycle => some cycle

-- All samples the feeder offered, and those of them that the ring took.
def fedStream (log : List (SourceRecord α)) : List (Nat → α) := log.flatMap SourceRecord.rows
def sourceStream (log : List (SourceRecord α)) : List (Nat → α) := log.flatMap SourceRecord.accepted
def cycles (log : List (SourceRecord α)) : List (Cycle α) := log.filterMap SourceRecord.cycle

/-- Every linked port got the samples `start .. start + real` of the stream, then zeros. -/
structure Cycle.Delivers [Zero α] (cycle : Cycle α) (stream : List (Nat → α)) (start real : Nat) :
    Prop where
  short : real ≤ cycle.nframes.toNat
  inside : start + real ≤ stream.length
  samples : ∀ c s row, c < reacMaxChannels → cycle.linked c = true → s < real →
    stream[start + s]? = some row → cycle.port c s = row c
  silence : ∀ c s, c < reacMaxChannels → cycle.linked c = true → real ≤ s →
    s < cycle.nframes.toNat → cycle.port c s = 0
  latency : cycle.unread.toNat ≤ 3 * cycle.nframes.toNat

/-- The cycles deliver ranges of the stream one after the other, the last one up to `upto`. -/
inductive Aligned [Zero α] (stream : List (Nat → α)) : List (Cycle α) → Nat → Prop
  | nil : Aligned stream [] 0
  | snoc {earlier : List (Cycle α)} {upto start real : Nat} {cycle : Cycle α}
      (before : Aligned stream earlier upto) (onward : upto ≤ start)
      (delivers : cycle.Delivers stream start real) :
      Aligned stream (earlier ++ [cycle]) (start + real)

theorem Cycle.Delivers.extend [Zero α] {cycle : Cycle α} {stream : List (Nat → α)} {start real : Nat}
    (delivers : cycle.Delivers stream start real) (later : List (Nat → α)) :
    cycle.Delivers (stream ++ later) start real where
  short := delivers.short
  inside := by
    have inside := delivers.inside
    rw [List.length_append]
    omega
  samples := by
    intro c s row channel linked sample member
    have inside := delivers.inside
    rw [List.getElem?_append_left (by omega)] at member
    exact delivers.samples c s row channel linked sample member
  silence := delivers.silence
  latency := delivers.latency

theorem Aligned.extend [Zero α] {stream : List (Nat → α)} {played : List (Cycle α)} {upto : Nat}
    (aligned : Aligned stream played upto) (later : List (Nat → α)) :
    Aligned (stream ++ later) played upto := by
  induction aligned with
  | nil => exact .nil
  | snoc _ onward delivers ih => exact .snoc ih onward (delivers.extend later)

theorem planarRows_take (planar : Nat → α) (stride : UInt32) {take n : UInt32} (less : take ≤ n) :
    planarRows planar stride take = (planarRows planar stride n).take take.toNat := by
  have below := UInt32.le_iff_toNat_le.mp less
  rw [planarRows, planarRows, ← List.map_take, List.take_range, Nat.min_eq_left below]

section Log

variable (log : List (SourceRecord α)) (rows : List (Nat → α)) (w : UInt32) (cycle : Cycle α)

@[simp] theorem sourceStream_fed :
    sourceStream (log ++ [.fed rows w]) = sourceStream log ++ rows.take w.toNat := by
  simp [sourceStream, SourceRecord.accepted]

@[simp] theorem sourceStream_played : sourceStream (log ++ [.played cycle]) = sourceStream log := by
  simp [sourceStream, SourceRecord.accepted]

@[simp] theorem fedStream_fed : fedStream (log ++ [.fed rows w]) = fedStream log ++ rows := by
  simp [fedStream, SourceRecord.rows]

@[simp] theorem fedStream_played : fedStream (log ++ [.played cycle]) = fedStream log := by
  simp [fedStream, SourceRecord.rows]

@[simp] theorem cycles_fed : cycles (log ++ [.fed rows w]) = cycles log := by
  simp [cycles, SourceRecord.cycle]

@[simp] theorem cycles_played : cycles (log ++ [.played cycle]) = cycles log ++ [cycle] := by
  simp [cycles, SourceRecord.cycle]

end Log

/-- What holds between any two calls. -/
structure SourceNode.Holds [Zero α] (n : SourceNode α) (k : Nat) (log : List (SourceRecord α)) :
    Prop where
  fifo : ∃ q : RowFifo α k, n.ring.Holds k q ∧ q.accepted = sourceStream log ∧
    Aligned (sourceStream log) (cycles log) q.taken
  channels : n.ring.channels = UInt32.ofNat reacMaxChannels
  block : reacSamplesPerPkt ≤ 2 ^ k - 1
  sublist : (sourceStream log).Sublist (fedStream log)

theorem SourceNode.Holds.feed [Zero α] {n : SourceNode α} {k : Nat} {log : List (SourceRecord α)}
    (holds : n.Holds k log) (toFloat : Sample → α) (sampleRate : Nat) (frame : List UInt8) :
    let fed := feedFrame toFloat (broadcastMode sampleRate) n.ring frame
    ({ n with ring := fed.1 } : SourceNode α).Holds k (log ++ fed.2) := by
  intro fed
  cases valid : (reacFrameInspect frame).valid with
  | false =>
    have none : fed = (n.ring, []) := by
      simp only [fed, feedFrame, reacDecode_malformed _ Block.blank valid]
    rw [none, List.append_nil]
    exact holds
  | true =>
    obtain ⟨q, ring, accepted, aligned⟩ := holds.fifo
    let planar := fun i => toFloat ((decoded (broadcastMode sampleRate) frame).sample i)
    have block : fed = ((reacRingWrite n.ring planar 12).1,
        [.fed (planarRows planar 12 12) (reacRingWrite n.ring planar 12).2]) := by
      simp only [fed, feedFrame, reacDecode_valid _ valid]
      rfl
    have fits : (12 : UInt32) ≤ n.ring.mask := by
      rw [UInt32.le_iff_toNat_le, ring.mask]
      exact holds.block
    have whole : clampedLength n.ring 12 = 12 := if_neg (UInt32.not_lt.mpr fits)
    obtain ⟨pushed, granted, channels, _⟩ := reacRingWrite_holds ring planar 12
    have taken := planarRows_take planar 12 (grantedLength_le n.ring 12)
    rw [whole] at taken
    rw [granted] at block
    rw [block]
    refine ⟨⟨q.push _ (ring.granted_room planar 12), pushed, ?_, ?_⟩,
      channels.trans holds.channels, holds.block, ?_⟩
    next => simp only [sourceStream_fed, Fifo.push, whole, accepted, taken]
    next =>
      rw [sourceStream_fed, cycles_fed]
      exact aligned.extend _
    next =>
      rw [sourceStream_fed, fedStream_fed]
      exact holds.sublist.append (List.take_sublist _ _)

theorem clampQuantum_le (duration : UInt64) : (clampQuantum duration).toNat ≤ 8192 := by
  simp only [clampQuantum]
  split
  next => decide
  next within => exact UInt32.le_iff_toNat_le.mp (UInt32.not_lt.mp within)

-- The trim leaves at most four quanta and the read takes one of them.
theorem Fifo.unread_quantum {bound : Nat} (q : Fifo (Nat → α) bound) {n : Nat}
    (kept : q.taken + (q.unread - n * 4) ≤ q.accepted.length) :
    let trimmed := q.take (q.unread - n * 4) kept
    ∀ available, (trimmed.take (min trimmed.unread n) available).unread ≤ 3 * n := by
  intro trimmed available
  simp only [trimmed, Fifo.unread, Fifo.take] at *
  omega

-- Trim and read of one cycle, on a ring of all channels.
theorem ReacRing.Holds.played [Zero α] {ring : ReacRing α} {k : Nat} {q : RowFifo α k}
    (holds : ring.Holds k q)
    (width : ring.channels = UInt32.ofNat reacMaxChannels) {nframes : UInt32} (small : nframes.toNat ≤ 8192)
    (linked : Nat → Bool) (memory : SourceBuffer → Nat → α) :
    let dst := fun c => if linked c then SourceBuffer.port c else SourceBuffer.scratch
    let trimmed := (reacRingTrim ring (nframes * 4)).1
    let result := reacRingReadPlanar trimmed dst (UInt32.ofNat reacMaxChannels) nframes memory
    ∃ (q' : RowFifo α k) (start real : Nat), result.1.Holds k q' ∧ q'.accepted = q.accepted ∧
      result.1.channels = ring.channels ∧ start = q.taken + (q.unread - nframes.toNat * 4) ∧
      real = min q.unread nframes.toNat ∧ q'.taken = start + real ∧
      (∀ c, linked c = false → result.2.1 (.port c) = memory (.port c)) ∧
      Cycle.Delivers ⟨nframes, linked, fun c => result.2.1 (.port c), reacRingReadable result.1⟩
        q.accepted start real := by
  intro dst trimmed result
  have quantum : (nframes * 4).toNat = nframes.toNat * 4 := by
    rw [UInt32.toNat_mul]
    exact Nat.mod_eq_of_lt (by simp; omega)
  obtain ⟨⟨kept, afterTrim⟩, trimChannels⟩ := reacRingTrim_holds holds (nframes * 4)
  rw [quantum] at kept
  simp only [quantum] at afterTrim
  have own : trimmed.channels = UInt32.ofNat reacMaxChannels := trimChannels.trans width
  have every : trimmed.channels.toNat = reacMaxChannels := by rw [own]; rfl
  obtain ⟨⟨available, afterRead⟩, _, readChannels, others, content⟩ := reacRingReadPlanar_holds afterTrim dst
    (UInt32.ofNat reacMaxChannels) (by rw [own]; exact UInt32.le_refl _) nframes memory
  have length := afterTrim.delivered nframes
  have linkedDst (c : Nat) (isLinked : linked c = true) : dst c = .port c := if_pos isLinked
  -- unlinked channels share the scratch buffer, a linked one has its port to itself
  have alone (c : Nat) (isLinked : linked c = true) :
      ∀ c', c' < trimmed.channels.toNat → dst c' = dst c → c' = c := by
    intro c' _ same
    rw [linkedDst c isLinked] at same
    by_cases linked' : linked c' = true
    next => simpa [linkedDst c' linked'] using same
    next => simp [dst, linked'] at same
  have plane (c s : Nat) (channel : c < reacMaxChannels) (isLinked : linked c = true)
      (inside : s < nframes.toNat) :=
    content c (channel.trans_eq every.symm) (alone c isLinked) s inside
  refine ⟨_, (q.take _ kept).taken, (deliveredLength trimmed nframes).toNat, afterRead, rfl,
    readChannels.trans trimChannels, rfl, ?_, rfl, ?_, ?_⟩
  next =>
    rw [length]
    simp only [Fifo.unread, Fifo.take]
    omega
  next =>
    intro c unlinked
    refine others (.port c) fun c' _ same => ?_
    by_cases linked' : linked c' = true
    next =>
      rw [linkedDst c' linked', SourceBuffer.port.injEq] at same
      rw [same, unlinked] at linked'
      cases linked'
    next => simp [dst, linked'] at same
  constructor
  next => exact length.le.trans (Nat.min_le_right _ _)
  next => exact available
  next =>
    intro c s row channel isLinked sample member
    have quantumSample : s < nframes.toNat := by
      rw [length] at sample
      omega
    have value := (plane c s channel isLinked quantumSample).1 row sample member
    rwa [linkedDst c isLinked] at value
  next =>
    intro c s channel isLinked late quantumSample
    have value := (plane c s channel isLinked quantumSample).2 late
    rwa [linkedDst c isLinked] at value
  next =>
    have unread := afterRead.readable
    have bound := Fifo.unread_quantum q kept
    simp only [length] at available unread
    rw [unread]
    exact bound available

theorem SourceNode.Holds.cycle [Zero α] {n : SourceNode α} {k : Nat} {log : List (SourceRecord α)}
    (holds : n.Holds k log) (duration : UInt64) (linked : Nat → Bool) :
    let played := sourceProcess n duration linked
    played.1.Holds k (log ++ played.2) := by
  intro played
  by_cases ports : (List.range reacMaxChannels).countP (fun c => linked c) = 0
  next =>
    have skipped : played = (n, []) := by simp only [played, sourceProcess, if_pos ports]
    rw [skipped, List.append_nil]
    exact holds
  next =>
    obtain ⟨q, ring, accepted, aligned⟩ := holds.fifo
    obtain ⟨q', start, real, after, same, channels, onward, _, taken, _, delivers⟩ :=
      ring.played holds.channels (clampQuantum_le duration) linked n.memory
    rw [accepted] at same delivers
    simp only [played, sourceProcess, if_neg ports]
    refine ⟨⟨q', after, ?_, ?_⟩, channels.trans holds.channels, holds.block, ?_⟩
    next => rw [sourceStream_played, same]
    next =>
      rw [sourceStream_played, cycles_played, taken]
      exact .snoc aligned (by omega) delivers
    next =>
      rw [sourceStream_played, fedStream_played]
      exact holds.sublist

/-- What the next call does to the node, and what the graph hears of it. -/
structure SourceNode.Serves [Zero α] (toFloat : Sample → α) (mode : ReacMode) (n : SourceNode α)
    (log : List (SourceRecord α)) : Prop where
  feeds : ∀ frame, (reacFrameInspect frame).valid = true → ∃ ring w,
    let planar := fun i => toFloat ((decoded mode frame).sample i)
    sourceStep toFloat mode n (.feed frame) =
        ({ n with ring := ring }, [.fed (planarRows planar 12 12) w]) ∧
      w.toNat = min 12 (n.ring.mask.toNat - (reacRingReadable n.ring).toNat) ∧
      ∀ c, c < reacMaxChannels → stored ring c =
        stored n.ring c ++ (List.range w.toNat).map fun s => planar (c * 12 + s)
  malformed : ∀ frame, (reacFrameInspect frame).valid = false →
    sourceStep toFloat mode n (.feed frame) = (n, [])
  plays : ∀ duration linked, (∃ c, c < reacMaxChannels ∧ linked c = true) → ∃ n' start real,
    let nframes := clampQuantum duration
    let cycle : Cycle α := ⟨nframes, linked, fun c => n'.memory (.port c), reacRingReadable n'.ring⟩
    sourceStep toFloat mode n (.cycle duration linked) = (n', [.played cycle]) ∧
      cycle.Delivers (sourceStream log) start real ∧
      real = min (reacRingReadable n.ring).toNat nframes.toNat ∧
      -- a trim to four quanta, then the read
      real + cycle.unread.toNat = min (reacRingReadable n.ring).toNat (nframes.toNat * 4) ∧
      start + real + cycle.unread.toNat = (sourceStream log).length ∧
      ∀ c, linked c = false → n'.memory (.port c) = n.memory (.port c)
  skips : ∀ duration linked, (∀ c, c < reacMaxChannels → linked c = false) →
    sourceStep toFloat mode n (.cycle duration linked) = (n, [])

theorem SourceNode.Holds.serves [Zero α] {n : SourceNode α} {k : Nat} {log : List (SourceRecord α)}
    (holds : n.Holds k log) (toFloat : Sample → α) (sampleRate : Nat) :
    n.Serves toFloat (broadcastMode sampleRate) log where
  feeds := by
    intro frame valid
    obtain ⟨q, ring, _⟩ := holds.fifo
    have fits : (12 : UInt32) ≤ n.ring.mask := by
      rw [UInt32.le_iff_toNat_le, ring.mask]
      exact holds.block
    have whole : clampedLength n.ring 12 = 12 := if_neg (UInt32.not_lt.mpr fits)
    let planar := fun i => toFloat ((decoded (broadcastMode sampleRate) frame).sample i)
    obtain ⟨_, granted, _⟩ := reacRingWrite_holds ring planar 12
    refine ⟨(reacRingWrite n.ring planar 12).1, (reacRingWrite n.ring planar 12).2, ?_, ?_, ?_⟩
    next =>
      simp only [sourceStep, feedFrame, reacDecode_valid _ valid]
      rfl
    next =>
      rw [granted, grantedLength_toNat, whole, ring.writable, ring.readable, ring.mask]
      rfl
    next =>
      intro c channel
      have appended := reacRingWrite_stored ring planar 12 (c := c) (by rw [holds.channels]; exact channel)
      rwa [whole] at appended
  malformed := by
    intro frame invalid
    simp only [sourceStep, feedFrame, reacDecode_malformed _ Block.blank invalid]
  plays := by
    intro duration linked ⟨c, channel, isLinked⟩
    obtain ⟨q, ring, accepted, _⟩ := holds.fifo
    have ports : ¬ (List.range reacMaxChannels).countP (fun c => linked c) = 0 := by
      rw [List.countP_eq_zero]
      exact fun none => none c (List.mem_range.mpr channel) isLinked
    obtain ⟨q', start, real, after, same, _, onward, count, taken, others, delivers⟩ :=
      ring.played holds.channels (clampQuantum_le duration) linked n.memory
    have low := q.taken_le
    have unread := after.readable
    refine ⟨_, start, real, if_neg ports, ?_⟩
    rw [← accepted, ring.readable]
    refine ⟨delivers, count, ?_, ?_, others⟩
    next =>
      rw [unread]
      simp only [Fifo.unread, same, taken] at count onward ⊢
      omega
    next =>
      rw [unread]
      have inside := delivers.inside
      simp only [Fifo.unread, same, taken] at count onward ⊢
      omega
  skips := by
    intro duration linked none
    have ports : (List.range reacMaxChannels).countP (fun c => linked c) = 0 := by
      rw [List.countP_eq_zero]
      intro c member
      simp [none c (List.mem_range.mp member)]
    simp only [sourceStep, sourceProcess, if_pos ports]

def sourceRun [Zero α] (toFloat : Sample → α) (sampleRate : Nat) (memory : SourceBuffer → Nat → α)
    (events : List SourceEvent) : SourceNode α × List (SourceRecord α) :=
  Mealy.run (sourceStep toFloat (broadcastMode sampleRate)) ⟨reacRxRing sampleRate, memory⟩ events

theorem reacRxRing_holds [Zero α] {sampleRate : Nat} (standard : sampleRate ∈ standardRates) :
    ∃ k, (reacRxRing sampleRate : ReacRing α).Holds k Fifo.empty ∧ reacSamplesPerPkt ≤ 2 ^ k - 1 := by
  have depth : (UInt32.ofNat (sampleRate / 4)).toNat ≤ 2 ^ 31 ∧
      reacSamplesPerPkt ≤ (nextPow2 (UInt32.ofNat (sampleRate / 4)) - 1).toNat := by
    simp only [standardRates, List.mem_cons, List.not_mem_nil, or_false] at standard
    rcases standard with rfl | rfl | rfl <;> decide
  obtain ⟨k, _, holds⟩ := reacRingInit_holds (α := α) (UInt32.ofNat reacMaxChannels) depth.1
  have mask := holds.mask
  exact ⟨k, holds, by rw [← mask]; exact depth.2⟩

/-- One stream for all ports: no cycle repeats, reorders or shifts a sample on any of them. -/
theorem sourceNode_aligned [Zero α] (toFloat : Sample → α) (sampleRate : Nat)
    (standard : sampleRate ∈ standardRates) (memory : SourceBuffer → Nat → α)
    (events : List SourceEvent) :
    let run := sourceRun toFloat sampleRate memory events
    (∃ upto, Aligned (sourceStream run.2) (cycles run.2) upto ∧
      upto + (reacRingReadable run.1.ring).toNat = (sourceStream run.2).length) ∧
      (sourceStream run.2).Sublist (fedStream run.2) ∧
      run.1.ring.mask = (reacRxRing sampleRate : ReacRing α).mask ∧
      run.1.Serves toFloat (broadcastMode sampleRate) run.2 := by
  intro run
  obtain ⟨k, ring, block⟩ := reacRxRing_holds (α := α) standard
  have start : (⟨reacRxRing sampleRate, memory⟩ : SourceNode α).Holds k [] :=
    ⟨⟨Fifo.empty, ring, rfl, .nil⟩, rfl, block, .slnil⟩
  have final := Mealy.run_invariant (sourceStep toFloat (broadcastMode sampleRate))
    (fun n log => n.Holds k log)
    (fun n log event holds => by
      cases event with
      | feed frame => exact holds.feed toFloat sampleRate frame
      | cycle duration linked => exact holds.cycle duration linked) _ [] start events
  rw [List.nil_append] at final
  obtain ⟨q, after, accepted, aligned⟩ := final.fifo
  have mask := after.mask.trans ring.mask.symm
  refine ⟨⟨q.taken, aligned, ?_⟩, final.sublist, UInt32.toNat_inj.mp mask,
    final.serves toFloat sampleRate⟩
  have low := q.taken_le
  have unread : (reacRingReadable run.1.ring).toNat = q.unread := after.readable
  have length : (sourceStream run.2).length = q.accepted.length := congrArg List.length accepted.symm
  rw [unread, length, Fifo.unread]
  omega

def countingFrame (counter : UInt16) : List UInt8 := wireFrame (fun _ => 0xff) counter fun i => UInt8.ofNat i

-- Two quanta of 8 and 20 samples out of two frames, on other ports each time.
def relinked : List SourceEvent :=
  [.feed (countingFrame 3), .cycle 8 fun c => c = 2, .feed (countingFrame 4), .cycle 64 fun _ => false,
    .cycle 20 fun c => c ≠ 2]

theorem sourceNode_aligned_relinked :
    let log := (sourceRun (fun x => x.b0.toNat) 48000 (fun _ _ => 0) relinked).2
    (cycles log).map (fun cycle => (cycle.nframes, cycle.unread)) = [(8, 4), (20, 0)] ∧
      (cycles log).map (fun cycle => (cycle.port 2 0, cycle.port 3 15, cycle.port 3 16)) =
        [(6, 0, 0), (6, 49, 0)] ∧
      Aligned (sourceStream log) (cycles log) 24 := by
  obtain ⟨⟨upto, aligned, reaches⟩, _⟩ :=
    sourceNode_aligned (fun x => x.b0.toNat) 48000 (by decide) (fun _ _ => 0) relinked
  have unread : (reacRingReadable
      (sourceRun (fun x => x.b0.toNat) 48000 (fun _ _ => 0) relinked).1.ring).toNat = 0 := by decide +kernel
  have length : (sourceStream
      (sourceRun (fun x => x.b0.toNat) 48000 (fun _ _ => 0) relinked).2).length = 24 := by decide +kernel
  rw [unread, length] at reaches
  obtain rfl : upto = 24 := reaches
  exact ⟨by decide +kernel, by decide +kernel, aligned⟩

end ReacAes67
