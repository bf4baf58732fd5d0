import ReacAes67.RingInterleaving

set_option autoImplicit false

/-!
# Ring calls that run to their end

The three calls of the ring as functions, for one call at a time. A write
pushes rows to the FIFO the ring represents, a read takes its front, a trim
drops it.
-/

namespace ReacAes67

open MaskedIndex BoundedFifo

variable {α : Type}

-- slot[pos] = src[s]; pos = (pos + 1) & mask
def writeSample (planar : Nat → α) (stride c : Nat) (st : ReacRing α × UInt32) (s : Nat) :
    ReacRing α × UInt32 :=
  (st.1.setSlot c st.2.toNat (planar (c * stride + s)), (st.2 + 1) &&& st.1.mask)

def writeChannel (planar : Nat → α) (stride take h : UInt32) (r : ReacRing α) (c : Nat) :
    ReacRing α :=
  ((List.range take.toNat).foldl (writeSample planar stride.toNat c) (r, h)).1

def storeRows (planar : Nat → α) (stride take : UInt32) (r : ReacRing α) : ReacRing α :=
  let h := r.head
  let copied := (List.range r.channels.toNat).foldl (writeChannel planar stride take h) r
  { copied with head := (h + take) &&& r.mask }

/-- `reac_ring_write`: the ring afterwards and the frames actually written. -/
def reacRingWrite (r : ReacRing α) (planar : Nat → α) (n : UInt32) : ReacRing α × UInt32 :=
  let n := if n > r.mask then r.mask else n
  let stride := n
  let freeSlots := reacRingWritable r
  if n > freeSlots then
    let counted := { r with overruns := r.overruns + (n - freeSlots).toUInt64 }
    if freeSlots = 0 then (counted, 0)
    else (storeRows planar stride freeSlots counted, freeSlots)
  else (storeRows planar stride n r, n)

section Store

variable {start : ReacRing α} {k : Nat} {q : RowFifo α k} {planar : Nat → α} {stride take : UInt32}

/-- The ring in the middle of the copy loops, in front of channel `c`, sample `s`. -/
structure Storing (start : ReacRing α) (k : Nat) (q : RowFifo α k) (planar : Nat → α)
    (stride take : UInt32) (c s : Nat) (r : ReacRing α) : Prop where
  holds : r.Holds k q
  same : ∃ buf, r = { start with buf := buf }
  written : ∀ c' s', c' < start.channels.toNat → s' < take.toNat → Copied c s c' s' →
    r.slot c' ((q.accepted.length + s') % 2 ^ k) = planar (c' * stride.toNat + s')

theorem Storing.writeSample {r : ReacRing α} {c s : Nat} {pos : UInt32}
    (storing : Storing start k q planar stride take c s r) (at' : Points k pos (q.accepted.length + s))
    (sample : s < take.toNat) (room : q.accepted.length + take.toNat ≤ q.taken + (2 ^ k - 1)) :
    Storing start k q planar stride take c (s + 1)
      (ReacAes67.writeSample planar stride.toNat c (r, pos) s).1 := by
  have positive := Nat.two_pow_pos k
  have cell : pos.toNat = (q.accepted.length + s) % 2 ^ k := at'
  have holds := storing.holds
  simp only [ReacAes67.writeSample, cell]
  refine ⟨holds.setSlot _ (Nat.le_add_right _ s) (by omega), ?_, ?_⟩
  next =>
    obtain ⟨buf, rfl⟩ := storing.same
    exact ⟨_, rfl⟩
  next =>
    intro c' s' channel' sample' copied
    rw [r.slot_setSlot _ (holds.size _) (holds.size _)]
    by_cases same : c' = c ∧ s' = s
    next => simp [same.1, same.2]
    next =>
      have old := storing.written c' s' channel' sample' (copied.of_nextSample same)
      by_cases row : c' = c
      next =>
        have low := q.taken_le
        have apart : (q.accepted.length + s') % 2 ^ k ≠ (q.accepted.length + s) % 2 ^ k := by
          rcases Nat.lt_or_gt_of_ne (fun equal => same ⟨row, equal⟩ : s' ≠ s) with before | after
          next => exact positions_distinct (by omega) (by omega)
          next => exact (positions_distinct (by omega) (by omega)).symm
        simpa [apart] using old
      next => simpa [row] using old

theorem Storing.samples {r : ReacRing α} {c : Nat} {h : UInt32}
    (storing : Storing start k q planar stride take c 0 r) (at' : Points k h q.accepted.length)
    (room : q.accepted.length + take.toNat ≤ q.taken + (2 ^ k - 1)) {s : Nat} (part : s ≤ take.toNat) :
    let st := (List.range s).foldl (ReacAes67.writeSample planar stride.toNat c) (r, h)
    Storing start k q planar stride take c s st.1 ∧ Points k st.2 (q.accepted.length + s) := by
  induction s with
  | zero => exact ⟨storing, at'⟩
  | succ s ih =>
    obtain ⟨earlier, position⟩ := ih (by omega)
    rw [List.range_succ, List.foldl_append]
    refine ⟨earlier.writeSample position part room, ?_⟩
    exact position.next earlier.holds.small.le earlier.holds.mask

theorem Storing.channels {r : ReacRing α} {h : UInt32}
    (storing : Storing start k q planar stride take 0 0 r) (at' : Points k h q.accepted.length)
    (room : q.accepted.length + take.toNat ≤ q.taken + (2 ^ k - 1)) (c : Nat) :
    Storing start k q planar stride take c 0
      ((List.range c).foldl (writeChannel planar stride take h) r) := by
  induction c with
  | zero => exact storing
  | succ c ih =>
    rw [List.range_succ, List.foldl_append]
    obtain ⟨done, _⟩ := ih.samples at' room (Nat.le_refl take.toNat)
    refine ⟨done.holds, done.same, fun c' s' channel' sample' copied => ?_⟩
    exact done.written c' s' channel' sample' (copied.of_nextChannel sample')

def planarRows (planar : Nat → α) (stride take : UInt32) : List (Nat → α) :=
  (List.range take.toNat).map fun s c => planar (c * stride.toNat + s)

@[simp] theorem planarRows_length (planar : Nat → α) (stride take : UInt32) :
    (planarRows planar stride take).length = take.toNat := by
  simp [planarRows]

theorem storeRows_holds (holds : start.Holds k q)
    (room : q.accepted.length + (planarRows planar stride take).length ≤ q.taken + (2 ^ k - 1)) :
    (storeRows planar stride take start).Holds k (q.push (planarRows planar stride take) room) ∧
      ∃ buf, storeRows planar stride take start =
        { start with buf := buf, head := (start.head + take) &&& start.mask } := by
  have begun : Storing start k q planar stride take 0 0 start :=
    ⟨holds, ⟨_, rfl⟩, fun c' s' _ _ copied => absurd copied (not_copied_start c' s')⟩
  have stored := begun.channels holds.head (by simpa using room) start.channels.toNat
  obtain ⟨buf, same⟩ := stored.same
  have ring := stored.holds
  have written := stored.written
  rw [same] at ring written
  constructor
  next =>
    simp only [storeRows, same]
    apply ring.publish holds.head _ (planarRows_length _ _ _) room
    intro s row member c channel
    have inside : s < take.toNat := by
      have bound := (List.getElem?_eq_some_iff.mp member).1
      simpa using bound
    have value : row = fun c => planar (c * stride.toNat + s) := by
      simpa [planarRows, List.getElem?_range inside] using member.symm
    rw [written c s channel inside (Or.inl (by omega)), value]
  next => exact ⟨buf, by simp only [storeRows, same]⟩

end Store

section Write

variable {r : ReacRing α} {k : Nat} {q : RowFifo α k}

theorem ReacRing.Holds.writable (holds : r.Holds k q) :
    (reacRingWritable r).toNat = 2 ^ k - 1 - q.unread := by
  have unread := holds.readable
  have within : reacRingReadable r ≤ r.mask := by
    rw [UInt32.le_iff_toNat_le, unread, holds.mask]
    exact q.unread_le_bound
  rw [reacRingWritable, UInt32.toNat_sub_of_le _ _ within, unread, holds.mask]

-- The length of the source block after the first clamp, which is also its stride.
def clampedLength (r : ReacRing α) (n : UInt32) : UInt32 := if n > r.mask then r.mask else n

def grantedLength (r : ReacRing α) (n : UInt32) : UInt32 :=
  if clampedLength r n > reacRingWritable r then reacRingWritable r else clampedLength r n

theorem grantedLength_le (r : ReacRing α) (n : UInt32) : grantedLength r n ≤ clampedLength r n := by
  rw [grantedLength]
  split
  next more => exact UInt32.le_of_lt more
  next => exact UInt32.le_refl _

theorem grantedLength_toNat (r : ReacRing α) (n : UInt32) :
    (grantedLength r n).toNat = min (clampedLength r n).toNat (reacRingWritable r).toNat := by
  rw [grantedLength]
  split
  next more =>
    have above := UInt32.lt_iff_toNat_lt.mp more
    omega
  next enough =>
    have below := UInt32.le_iff_toNat_le.mp (UInt32.not_lt.mp enough)
    omega

theorem ReacRing.Holds.granted_room (holds : r.Holds k q) (planar : Nat → α) (n : UInt32) :
    q.accepted.length + (planarRows planar (clampedLength r n) (grantedLength r n)).length ≤
      q.taken + (2 ^ k - 1) := by
  have granted := grantedLength_toNat r n
  have free := holds.writable
  have low := q.taken_le
  have high := q.unread_le
  simp only [Fifo.unread] at free
  rw [planarRows_length]
  omega

/-- A write pushes as many of its rows as fit and counts the others. -/
theorem reacRingWrite_holds (holds : r.Holds k q) (planar : Nat → α) (n : UInt32) :
    (reacRingWrite r planar n).1.Holds k (q.push _ (holds.granted_room planar n)) ∧
      (reacRingWrite r planar n).2 = grantedLength r n ∧
      (reacRingWrite r planar n).1.channels = r.channels ∧
      (reacRingWrite r planar n).1.overruns =
        r.overruns + UInt64.ofNat ((clampedLength r n).toNat - (grantedLength r n).toNat) := by
  have room := holds.granted_room planar n
  have clamped : (if n > r.mask then r.mask else n) = clampedLength r n := rfl
  by_cases more : clampedLength r n > reacRingWritable r
  next =>
    have granted : grantedLength r n = reacRingWritable r := if_pos more
    have counted := holds.counters (r.overruns + (clampedLength r n - reacRingWritable r).toUInt64)
      r.underruns
    have lost := toUInt64_sub (UInt32.le_of_lt more)
    by_cases full : reacRingWritable r = 0
    next =>
      have result : reacRingWrite r planar n =
          ({ r with overruns := r.overruns + (clampedLength r n - reacRingWritable r).toUInt64 }, 0) := by
        simp only [reacRingWrite, clamped, if_pos more, if_pos full]
      have unchanged : q.push _ room = q := by
        have rows : planarRows planar (clampedLength r n) (grantedLength r n) = [] := by
          simp [planarRows, granted, full]
        simp only [rows, q.push_nil]
      rw [result, unchanged, granted]
      exact ⟨counted, full.symm, rfl, congrArg (r.overruns + ·) lost⟩
    next =>
      have result : reacRingWrite r planar n = (storeRows planar (clampedLength r n) (grantedLength r n)
          { r with overruns := r.overruns + (clampedLength r n - reacRingWritable r).toUInt64 },
          grantedLength r n) := by
        simp only [reacRingWrite, clamped, if_pos more, if_neg full, granted]
      obtain ⟨ring, buf, same⟩ := storeRows_holds counted room
      rw [result]
      refine ⟨ring, rfl, by rw [same], ?_⟩
      rw [same, lost, granted]
  next =>
    have granted : grantedLength r n = clampedLength r n := if_neg more
    have result : reacRingWrite r planar n =
        (storeRows planar (clampedLength r n) (grantedLength r n) r, grantedLength r n) := by
      simp only [reacRingWrite, clamped, if_neg more, granted]
    obtain ⟨ring, buf, same⟩ := storeRows_holds holds room
    rw [result]
    refine ⟨ring, rfl, by rw [same], ?_⟩
    rw [same, granted, Nat.sub_self]
    simp

end Write

section Contract

-- The unread samples of a channel, oldest first.
def stored (r : ReacRing α) (c : Nat) : List α :=
  (List.range (reacRingReadable r).toNat).map fun i =>
    r.slot c (((r.tail + UInt32.ofNat i) &&& r.mask).toNat)

theorem ReacRing.Holds.stored {r : ReacRing α} {k : Nat} {q : RowFifo α k} (holds : r.Holds k q)
    {c : Nat} (channel : c < r.channels.toNat) :
    ReacAes67.stored r c = (q.accepted.drop q.taken).map fun row => row c := by
  have unread := holds.readable
  have low := q.taken_le
  apply List.ext_getElem
  next => simp [ReacAes67.stored, unread, Fifo.unread]
  intro i inLeft inRight
  have inside : i < q.accepted.length - q.taken := by simpa using inRight
  have small : i < 2 ^ 32 := by
    have bound := (reacRingReadable r).toNat_lt
    rw [unread, Fifo.unread] at bound
    omega
  have cursor : (((r.tail + UInt32.ofNat i) &&& r.mask).toNat) = (q.taken + i) % 2 ^ k := by
    have moved := holds.tail.advance holds.small.le holds.mask (UInt32.ofNat i)
    rwa [UInt32.toNat_ofNat_of_lt' small] at moved
  have member := List.getElem?_eq_getElem (show q.taken + i < q.accepted.length by omega)
  have cell := holds.content (q.taken + i) _ (Nat.le_add_right _ _) member c channel
  simp only [ReacAes67.stored, List.getElem_map, List.getElem_range, List.getElem_drop, cursor, cell]

/-- A ring between two calls: a power of two of slots and both cursors inside. -/
structure ReacRing.WellFormed (r : ReacRing α) (k : Nat) : Prop where
  small : k < 32
  capacity : r.capacity.toNat = 2 ^ k
  mask : r.mask.toNat = 2 ^ k - 1
  head : r.head.toNat < 2 ^ k
  tail : r.tail.toNat < 2 ^ k

-- Any such ring represents a FIFO: rows read off its slots, counted from the tail.
theorem ReacRing.WellFormed.holds {r : ReacRing α} {k : Nat} (formed : r.WellFormed k) :
    ∃ q : RowFifo α k, r.Holds k q := by
  have unread : (reacRingReadable r).toNat = (r.head.toNat + 2 ^ k - r.tail.toNat) % 2 ^ k := by
    have size : 2 ^ k ≤ 2 ^ 32 := Nat.pow_le_pow_right (by omega) formed.small.le
    have head := formed.head
    have tail := formed.tail
    rw [reacRingReadable, and_mask formed.mask, UInt32.toNat_sub, wrap_mod formed.small.le]
    have whole : 2 ^ 32 = 2 ^ k + 2 ^ k * (2 ^ (32 - k) - 1) := by
      have split : 2 ^ 32 = 2 ^ k * 2 ^ (32 - k) := by
        rw [← Nat.pow_add]
        congr 1
        have small := formed.small
        omega
      have positive := Nat.two_pow_pos (32 - k)
      rw [split, Nat.mul_sub, Nat.mul_one, Nat.add_sub_cancel' (Nat.le_mul_of_pos_right _ positive)]
    have turned : 2 ^ 32 - r.tail.toNat + r.head.toNat =
        r.head.toNat + 2 ^ k - r.tail.toNat + 2 ^ k * (2 ^ (32 - k) - 1) := by omega
    rw [turned, Nat.add_mul_mod_self_left]
  let rows : List (Nat → α) := (List.range (r.tail.toNat + (reacRingReadable r).toNat)).map
    fun j c => r.slot c (j % 2 ^ k)
  have length : rows.length = r.tail.toNat + (reacRingReadable r).toNat := by simp [rows]
  have positive := Nat.two_pow_pos k
  have less : (reacRingReadable r).toNat < 2 ^ k := by
    rw [unread]
    exact Nat.mod_lt _ positive
  refine ⟨⟨rows, r.tail.toNat, by omega, by omega⟩, formed.small, formed.capacity, formed.mask, ?_, ?_, ?_⟩
  next =>
    have head := formed.head
    have tail := formed.tail
    rw [Points, length, unread, Nat.add_mod_mod,
      show r.tail.toNat + (r.head.toNat + 2 ^ k - r.tail.toNat) = r.head.toNat + 2 ^ k by omega,
      Nat.add_mod_right, Nat.mod_eq_of_lt head]
  next => exact (Nat.mod_eq_of_lt formed.tail).symm
  next =>
    intro j row _ member c _
    have inside := (List.getElem?_eq_some_iff.mp member).1
    rw [length] at inside
    simp only [rows, List.getElem?_map, List.getElem?_range inside, Option.map_some,
      Option.some.injEq] at member
    rw [← member]

end Contract

section Read

variable {δ : Type} [DecidableEq δ]

def setMem (mem : δ → Nat → α) (d : δ) (s : Nat) (v : α) : δ → Nat → α :=
  fun d' s' => if d' = d ∧ s' = s then v else mem d' s'

-- out[s] = slot[pos]; pos = (pos + 1) & mask
def readSample (r : ReacRing α) (c : Nat) (out : δ) (st : (δ → Nat → α) × UInt32) (s : Nat) :
    (δ → Nat → α) × UInt32 :=
  (setMem st.1 out s (r.slot c st.2.toNat), (st.2 + 1) &&& r.mask)

def readChannel [Zero α] (r : ReacRing α) (dst : Nat → δ) (real n t : UInt32) (mem : δ → Nat → α)
    (c : Nat) : δ → Nat → α :=
  let copied := ((List.range real.toNat).foldl (readSample r c (dst c)) (mem, t)).1
  (List.range' real.toNat (n.toNat - real.toNat)).foldl (fun mem s => setMem mem (dst c) s 0) copied

/-- `reac_ring_read_planar` into the buffers `dst`: the ring, the memory, the real frames. -/
def reacRingReadPlanar [Zero α] (r : ReacRing α) (dst : Nat → δ) (channels n : UInt32)
    (mem : δ → Nat → α) : ReacRing α × (δ → Nat → α) × UInt32 :=
  let avail := reacRingReadable r
  let real := if avail < n then avail else n
  let t := r.tail
  let nch := if channels < r.channels then channels else r.channels
  let copied := (List.range nch.toNat).foldl (readChannel r dst real n t) mem
  let moved := { r with tail := (t + real) &&& r.mask }
  if real < n then
    ({ moved with underruns := moved.underruns + (n - real).toUInt64 }, copied, real)
  else (moved, copied, real)

/-- `reac_ring_trim`: the ring afterwards and the frames dropped. -/
def reacRingTrim (r : ReacRing α) (keep : UInt32) : ReacRing α × UInt32 :=
  let avail := reacRingReadable r
  if avail ≤ keep then (r, 0)
  else
    let drop := avail - keep
    ({ r with tail := (r.tail + drop) &&& r.mask }, drop)

theorem setMem_apply (mem : δ → Nat → α) (d : δ) (s : Nat) (v : α) (d' : δ) (s' : Nat) :
    setMem mem d s v d' s' = if d' = d ∧ s' = s then v else mem d' s' := rfl

theorem readSample_fold {r : ReacRing α} {k : Nat} {q : RowFifo α k} (holds : r.Holds k q) (c : Nat)
    (out : δ) (mem : δ → Nat → α) {t : UInt32} (at' : Points k t q.taken) (real : Nat) :
    let st := (List.range real).foldl (readSample r c out) (mem, t)
    Points k st.2 (q.taken + real) ∧ ∀ d s,
      st.1 d s = if d = out ∧ s < real then r.slot c ((q.taken + s) % 2 ^ k) else mem d s := by
  induction real with
  | zero => exact ⟨at', fun d s => by simp⟩
  | succ real ih =>
    obtain ⟨position, before⟩ := ih
    rw [List.range_succ, List.foldl_append]
    refine ⟨position.next holds.small.le holds.mask, fun d s => ?_⟩
    have cell : ((List.range real).foldl (readSample r c out) (mem, t)).2.toNat =
        (q.taken + real) % 2 ^ k := position
    simp only [List.foldl_cons, List.foldl_nil, readSample, setMem_apply, before, cell]
    by_cases here : d = out
    next =>
      rcases Nat.lt_trichotomy s real with earlier | same | later
      next => simp [here, earlier, earlier.ne, Nat.lt_succ_of_lt earlier]
      next => simp [here, same]
      next =>
        have past : ¬s < real + 1 := by omega
        simp [here, past, later.ne', Nat.not_lt.mpr later.le]
    next => simp [here]

theorem zeroFill_fold [Zero α] (out : δ) (mem : δ → Nat → α) (first count : Nat) (d : δ) (s : Nat) :
    (List.range' first count).foldl (fun mem s => setMem mem out s 0) mem d s =
      if d = out ∧ first ≤ s ∧ s < first + count then 0 else mem d s := by
  induction count with
  | zero =>
    have outside : ¬(first ≤ s ∧ s < first) := by omega
    simp [outside]
  | succ count ih =>
    rw [List.range'_concat, List.foldl_append]
    simp only [List.foldl_cons, List.foldl_nil, setMem_apply, ih, Nat.one_mul]
    by_cases here : d = out
    next =>
      rcases Nat.lt_trichotomy s (first + count) with earlier | same | later
      next =>
        have inside : s < first + (count + 1) := by omega
        simp [here, earlier, earlier.ne, inside]
      next => simp [here, same]
      next =>
        have past : ¬s < first + (count + 1) := by omega
        simp [here, past, later.ne', Nat.not_lt.mpr later.le]
    next => simp [here]

theorem readChannel_apply [Zero α] {r : ReacRing α} {k : Nat} {q : RowFifo α k} (holds : r.Holds k q)
    (dst : Nat → δ) {real n t : UInt32} (less : real ≤ n) (at' : Points k t q.taken)
    (mem : δ → Nat → α) (c : Nat) (d : δ) (s : Nat) :
    readChannel r dst real n t mem c d s =
      if d = dst c ∧ s < n.toNat then
        if s < real.toNat then r.slot c ((q.taken + s) % 2 ^ k) else 0
      else mem d s := by
  have below := UInt32.le_iff_toNat_le.mp less
  have copied := (readSample_fold holds c (dst c) mem at' real.toNat).2 d s
  rw [readChannel, zeroFill_fold, copied]
  by_cases here : d = dst c
  next =>
    rcases Nat.lt_or_ge s real.toNat with early | late
    next =>
      have inside : s < n.toNat := by omega
      simp [here, early, inside, Nat.not_le.mpr early]
    next =>
      have edge : s < real.toNat + (n.toNat - real.toNat) ↔ s < n.toNat := by omega
      simp [here, late, edge, Nat.not_lt.mpr late]
  next => simp [here]

theorem readChannels_apply [Zero α] {r : ReacRing α} {k : Nat} {q : RowFifo α k}
    (holds : r.Holds k q) (dst : Nat → δ) {real n t : UInt32} (less : real ≤ n)
    (at' : Points k t q.taken) (mem : δ → Nat → α) (nch : Nat) {c : Nat} (channel : c < nch)
    (own : ∀ c', c' < nch → dst c' = dst c → c' = c) {s : Nat} (sample : s < n.toNat) :
    (List.range nch).foldl (readChannel r dst real n t) mem (dst c) s =
      if s < real.toNat then r.slot c ((q.taken + s) % 2 ^ k) else 0 := by
  induction nch with
  | zero => omega
  | succ nch ih =>
    rw [List.range_succ, List.foldl_append, List.foldl_cons, List.foldl_nil,
      readChannel_apply holds dst less at']
    by_cases last : c = nch
    next => simp [last, sample]
    next =>
      have apart : dst c ≠ dst nch := fun same => last (own nch (Nat.lt_succ_self nch) same.symm).symm
      rw [if_neg (fun hit => apart hit.1)]
      exact ih (by omega) (fun c' inside => own c' (by omega))

theorem readChannels_frame [Zero α] {r : ReacRing α} {k : Nat} {q : RowFifo α k}
    (holds : r.Holds k q) (dst : Nat → δ) {real n t : UInt32} (less : real ≤ n)
    (at' : Points k t q.taken) (mem : δ → Nat → α) (nch : Nat) {d : δ}
    (other : ∀ c, c < nch → dst c ≠ d) (s : Nat) :
    (List.range nch).foldl (readChannel r dst real n t) mem d s = mem d s := by
  induction nch with
  | zero => rfl
  | succ nch ih =>
    rw [List.range_succ, List.foldl_append, List.foldl_cons, List.foldl_nil,
      readChannel_apply holds dst less at', if_neg (fun hit => other nch (Nat.lt_succ_self nch) hit.1.symm)]
    exact ih fun c inside => other c (by omega)

def deliveredLength (r : ReacRing α) (n : UInt32) : UInt32 :=
  if reacRingReadable r < n then reacRingReadable r else n

theorem deliveredLength_le (r : ReacRing α) (n : UInt32) : deliveredLength r n ≤ n := by
  rw [deliveredLength]
  split
  next short => exact UInt32.le_of_lt short
  next => exact UInt32.le_refl n

theorem ReacRing.Holds.delivered {r : ReacRing α} {k : Nat} {q : RowFifo α k} (holds : r.Holds k q)
    (n : UInt32) : (deliveredLength r n).toNat = min q.unread n.toNat := by
  have unread := holds.readable
  rw [deliveredLength]
  split
  next short =>
    have below := UInt32.lt_iff_toNat_lt.mp short
    omega
  next enough =>
    have above := UInt32.le_iff_toNat_le.mp (UInt32.not_lt.mp enough)
    omega

/-- A read takes the front rows into the buffers that no other channel shares. -/
theorem reacRingReadPlanar_holds [Zero α] {r : ReacRing α} {k : Nat} {q : RowFifo α k}
    (holds : r.Holds k q) (dst : Nat → δ) (channels : UInt32) (all : r.channels ≤ channels)
    (n : UInt32) (mem : δ → Nat → α) :
    let read := reacRingReadPlanar r dst channels n mem
    let real := deliveredLength r n
    (∃ available, read.1.Holds k (q.take real.toNat available)) ∧ read.2.2 = real ∧
      read.1.channels = r.channels ∧
      (∀ d, (∀ c, c < r.channels.toNat → dst c ≠ d) → read.2.1 d = mem d) ∧
      ∀ c, c < r.channels.toNat → (∀ c', c' < r.channels.toNat → dst c' = dst c → c' = c) →
        ∀ s, s < n.toNat →
          (∀ row, s < real.toNat → q.accepted[q.taken + s]? = some row →
            read.2.1 (dst c) s = row c) ∧
          (real.toNat ≤ s → read.2.1 (dst c) s = 0) := by
  intro read real
  have length : real.toNat = min q.unread n.toNat := holds.delivered n
  have available : q.taken + real.toNat ≤ q.accepted.length := by
    have low := q.taken_le
    simp only [Fifo.unread] at length
    omega
  have less : real ≤ n := deliveredLength_le r n
  have taken := holds.consume holds.tail available
  have every : (if channels < r.channels then channels else r.channels) = r.channels :=
    if_neg (UInt32.not_lt.mpr all)
  let copied := (List.range r.channels.toNat).foldl (readChannel r dst real n r.tail) mem
  obtain ⟨underruns, result⟩ : ∃ underruns, read =
      ({ r with tail := (r.tail + real) &&& r.mask, underruns := underruns }, copied, real) := by
    by_cases short : real < n
    next =>
      refine ⟨r.underruns + (n - real).toUInt64, ?_⟩
      simp only [read, reacRingReadPlanar, every]
      exact if_pos short
    next =>
      refine ⟨r.underruns, ?_⟩
      simp only [read, reacRingReadPlanar, every]
      exact if_neg short
  rw [result]
  refine ⟨⟨available, taken.counters r.overruns underruns⟩, rfl, rfl, fun d other => ?_, ?_⟩
  next =>
    funext s
    exact readChannels_frame holds dst less holds.tail mem r.channels.toNat other s
  intro c channel own s sample
  have value : copied (dst c) s = if s < real.toNat then r.slot c ((q.taken + s) % 2 ^ k) else 0 :=
    readChannels_apply holds dst less holds.tail mem r.channels.toNat channel own sample
  simp only [value]
  constructor
  next =>
    intro row early member
    rw [if_pos early]
    exact holds.content _ row (Nat.le_add_right _ _) member c channel
  next =>
    intro late
    rw [if_neg (by omega)]

/-- A trim drops the oldest rows beyond `keep`. -/
theorem reacRingTrim_holds {r : ReacRing α} {k : Nat} {q : RowFifo α k} (holds : r.Holds k q)
    (keep : UInt32) :
    (∃ available, (reacRingTrim r keep).1.Holds k (q.take (q.unread - keep.toNat) available)) ∧
      (reacRingTrim r keep).1.channels = r.channels := by
  have unread := holds.readable
  have low := q.taken_le
  by_cases short : reacRingReadable r ≤ keep
  next =>
    have below := UInt32.le_iff_toNat_le.mp short
    have none : q.unread - keep.toNat = 0 := by omega
    have same : q.take 0 low = q := rfl
    simp only [reacRingTrim, if_pos short, none, and_true]
    exact ⟨low, by rw [same]; exact holds⟩
  next =>
    have below := UInt32.lt_iff_toNat_lt.mp (UInt32.not_le.mp short)
    have drop : (reacRingReadable r - keep).toNat = q.unread - keep.toNat := by
      rw [UInt32.toNat_sub_of_le _ _ (UInt32.le_of_lt (UInt32.not_le.mp short)), unread]
    have available : q.taken + (reacRingReadable r - keep).toNat ≤ q.accepted.length := by
      simp only [Fifo.unread] at drop
      omega
    have taken := holds.consume holds.tail available
    simp only [reacRingTrim, if_neg short, and_true]
    simp only [drop] at available taken
    exact ⟨available, taken⟩

end Read

end ReacAes67
