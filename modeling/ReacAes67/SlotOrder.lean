import ReacAes67.MediaClock

set_option autoImplicit false

/-!
# Duplicates and late packets on the media clock

Slots are delivered in any order within a window around the highest one. The
clock's high-water counter follows the highest slot; its sample count also
moves one packet for every delivery that is not a new highest slot.
-/

namespace ReacAes67

def onSlot (base : UInt16) (mc : MediaClock) (slot : Nat) : MediaClock × MediaClockStep :=
  mediaClockOnPacket mc (base + UInt16.ofNat slot)

def onSlots (base : UInt16) (mc : MediaClock) (slots : List Nat) : MediaClock :=
  slots.foldl (fun mc slot => (onSlot base mc slot).1) mc

def highest (high : Nat) (slots : List Nat) : Nat := slots.foldl max high

@[simp] theorem onSlots_cons (base : UInt16) (mc : MediaClock) (slot : Nat) (rest : List Nat) :
    onSlots base mc (slot :: rest) = onSlots base (onSlot base mc slot).1 rest := rfl

@[simp] theorem highest_cons (high slot : Nat) (rest : List Nat) :
    highest high (slot :: rest) = highest (max high slot) rest := rfl

-- Deliveries that were not ahead of everything before them.
def lateCount (high : Nat) : List Nat → Nat
  | [] => 0
  | slot :: rest => (if high < slot then 0 else 1) + lateCount (max high slot) rest

/-- Every slot lies at most `ahead` above or `behind` below the highest one before it. -/
def InWindow (ahead behind high : Nat) : List Nat → Prop
  | [] => True
  | slot :: rest =>
    slot ≤ high + ahead ∧ high ≤ slot + behind ∧ InWindow ahead behind (max high slot) rest

theorem InWindow.prefix {ahead behind high : Nat} {front back : List Nat}
    (window : InWindow ahead behind high (front ++ back)) :
    InWindow ahead behind high front ∧ InWindow ahead behind (highest high front) back := by
  induction front generalizing high with
  | nil => exact ⟨trivial, window⟩
  | cons slot rest ih =>
    obtain ⟨above, below, later⟩ := window
    obtain ⟨inFront, inBack⟩ := ih later
    exact ⟨⟨above, below, inFront⟩, inBack⟩

-- Sample count and high-water counter together: `count` packets so far, the highest slot `high`.
structure MediaClock.Tracks (mc : MediaClock) (base : UInt16) (anchor : UInt32)
    (samplesPerPkt high count : Nat) : Prop where
  position : mc.At anchor samplesPerPkt count
  slot : mc.AtSlot base high

section Track

variable {base : UInt16} {anchor : UInt32} {samplesPerPkt : Nat} {mc : MediaClock}

theorem onSlot_first (base : UInt16) (anchor : UInt32) (samplesPerPkt slot : Nat) :
    (onSlot base (mediaClockInitAnchored samplesPerPkt anchor) slot).1.Tracks base anchor
      samplesPerPkt slot 1 := by
  have next := (mediaClockOnPacket_at (mediaClockInitAnchored_at samplesPerPkt anchor)
    (base + UInt16.ofNat slot)).2
  exact ⟨next, mediaClockOnPacket_firstSlot rfl base slot⟩

theorem onSlot_ahead {high count slot : Nat}
    (tracks : mc.Tracks base anchor samplesPerPkt high count) (above : high < slot)
    (near : slot ≤ high + 32768) :
    let next := onSlot base mc slot
    next.2.rtpTs = packetTs anchor samplesPerPkt (count + (slot - high - 1)) ∧
      next.1.Tracks base anchor samplesPerPkt slot (count + (slot - high)) := by
  obtain ⟨lost, slot'⟩ := mediaClockOnPacket_ahead tracks.slot above near
  obtain ⟨stamp, next⟩ := mediaClockOnPacket_at tracks.position (base + UInt16.ofNat slot)
  rw [lost] at stamp next
  rw [show count + (slot - high) = count + (slot - high - 1) + 1 by omega]
  exact ⟨stamp, next, slot'⟩

theorem onSlot_late {high count slot : Nat}
    (tracks : mc.Tracks base anchor samplesPerPkt high count) (below : slot ≤ high)
    (near : high ≤ slot + 32767) :
    (onSlot base mc slot).1.Tracks base anchor samplesPerPkt high (count + 1) := by
  obtain ⟨lost, slot'⟩ := mediaClockOnPacket_late tracks.slot below (by omega)
  obtain ⟨_, next⟩ := mediaClockOnPacket_at tracks.position (base + UInt16.ofNat slot)
  rw [lost] at next
  exact ⟨next, slot'⟩

theorem high_le_highest (high : Nat) (slots : List Nat) : high ≤ highest high slots := by
  induction slots generalizing high with
  | nil => exact le_refl high
  | cons slot rest ih => exact (le_max_left high slot).trans (ih (max high slot))

theorem onSlots_tracks {high count : Nat}
    (tracks : mc.Tracks base anchor samplesPerPkt high count) (slots : List Nat)
    (window : InWindow 32768 32767 high slots) :
    (onSlots base mc slots).Tracks base anchor samplesPerPkt (highest high slots)
      (count + (highest high slots - high) + lateCount high slots) := by
  induction slots generalizing mc high count with
  | nil => simpa [onSlots, highest, lateCount] using tracks
  | cons slot rest ih =>
    obtain ⟨near, close, window⟩ := window
    have reached := high_le_highest (max high slot) rest
    by_cases above : high < slot
    · have larger : max high slot = slot := max_eq_right above.le
      rw [larger] at window reached
      have later := ih (onSlot_ahead tracks above near).2 window
      have total : count + (highest slot rest - high) + lateCount slot rest =
          count + (slot - high) + (highest slot rest - slot) + lateCount slot rest := by omega
      simpa [lateCount, above, larger, total] using later
    · have kept : max high slot = high := max_eq_left (not_lt.mp above)
      rw [kept] at window
      have later := ih (onSlot_late tracks (not_lt.mp above) close) window
      have total : count + (highest high rest - high) + (1 + lateCount high rest) =
          count + 1 + (highest high rest - high) + lateCount high rest := by omega
      simpa [lateCount, above, kept, total] using later

end Track

-- Losses leave the timeline locked to the slots; each earlier duplicate or late packet moves it one.
theorem mediaClock_newHighest (samplesPerPkt : Nat) (anchor : UInt32) (base : UInt16)
    (first : Nat) (before : List Nat) (slot : Nat)
    (window : InWindow 32768 32767 first (before ++ [slot])) (above : highest first before < slot) :
    let mc := onSlots base (mediaClockInitAnchored samplesPerPkt anchor) (first :: before)
    (onSlot base mc slot).2.rtpTs.toNat =
      (anchor.toNat + (slot - first + lateCount first before) * samplesPerPkt) % 2 ^ 32 := by
  intro mc
  obtain ⟨early, near, _⟩ := window.prefix
  have tracks := onSlots_tracks (onSlot_first base anchor samplesPerPkt first) before early
  have reached := high_le_highest first before
  have stamp := (onSlot_ahead tracks above near).1
  have count : 1 + (highest first before - first) + lateCount first before +
      (slot - highest first before - 1) = slot - first + lateCount first before := by omega
  rw [count] at stamp
  exact (congrArg UInt32.toNat stamp).trans (packetTs_toNat _ _ _)

theorem mediaClock_newHighest_late :
    (onSlot 7 (onSlots 7 (mediaClockInitAnchored 12 1000) [5, 6, 4, 6]) 9).2.rtpTs.toNat =
      (1000 + (9 - 5 + 2) * 12) % 2 ^ 32 :=
  mediaClock_newHighest 12 1000 7 5 [6, 4, 6] 9 (by simp [InWindow]) (by decide)

/-- A repeated slot already shifts the next one, and a slot a full half range behind is taken
for one ahead. -/
theorem mediaClock_not_locked :
    (¬ ∀ (samplesPerPkt : Nat) (anchor : UInt32) (base : UInt16) (first : Nat) (before : List Nat)
        (slot : Nat), InWindow 32768 32768 first (before ++ [slot]) → highest first before < slot →
        (onSlot base (onSlots base (mediaClockInitAnchored samplesPerPkt anchor) (first :: before))
          slot).2.rtpTs.toNat = (anchor.toNat + (slot - first) * samplesPerPkt) % 2 ^ 32) ∧
      (onSlot 0 (onSlots 0 (mediaClockInitAnchored 12 0) [32768, 0]) 32769).2.rtpTs.toNat ≠
        ((32769 - 32768 + lateCount 32768 [0]) * 12) % 2 ^ 32 := by
  constructor
  · intro locked
    have stamp := locked 12 0 0 0 [0] 1 (by simp [InWindow]) (by decide)
    have shifted : (onSlot 0 (onSlots 0 (mediaClockInitAnchored 12 0) [0, 0]) 1).2.rtpTs.toNat = 24 := by
      decide
    rw [shifted] at stamp
    exact absurd stamp (by decide)
  · decide

end ReacAes67
