import ReacAes67.MediaClock

set_option autoImplicit false

/-!
# Locking on again after the counter restarts

A device that restarts its counter sends consecutive counters from an arbitrary
new one. The clock takes the packets up to its high-water mark for late ones
and follows the new count from there on.
-/

namespace ReacAes67

-- The state before packet `j` of the new count, and what the clock says about that packet.
def restarted (mc : MediaClock) (first : UInt16) (j : Nat) : MediaClock :=
  clockRun mc ((List.range j).map fun i => first + UInt16.ofNat i)

def restartStep (mc : MediaClock) (first : UInt16) (j : Nat) : MediaClockStep :=
  (mediaClockOnPacket (restarted mc first j) (first + UInt16.ofNat j)).2

def concealedBy (mc : MediaClock) (first : UInt16) (n : Nat) : Nat :=
  ((List.range n).map fun j => (restartStep mc first j).silencePackets).sum

-- How many packets of the new count the clock takes for late ones.
def lateRun (last first : UInt16) : Nat :=
  if 32768 ≤ counterGap last first then 65536 - counterGap last first else 0

theorem lateRun_cases (last first : UInt16) :
    (32768 ≤ counterGap last first ∧ lateRun last first + counterGap last first = 65536) ∨
      (counterGap last first < 32768 ∧ lateRun last first = 0) := by
  have bound := counterGap_lt last first
  unfold lateRun
  split
  next late => exact .inl ⟨late, by omega⟩
  next near => exact .inr ⟨Nat.not_le.mp near, rfl⟩

theorem lateRun_le (last first : UInt16) : lateRun last first ≤ 32768 := by
  rcases lateRun_cases last first with ⟨late, count⟩ | ⟨near, count⟩ <;> omega

theorem counterGap_add (last first : UInt16) (j : Nat) :
    counterGap last (first + UInt16.ofNat j) = (counterGap last first + j) % 65536 := by
  have bound := first.toNat_lt
  have boundLast := last.toNat_lt
  simp only [counterGap, UInt16.toNat_sub, UInt16.toNat_add, UInt16.toNat_ofNat', UInt16.toNat_one]
  omega

theorem restarted_succ (mc : MediaClock) (first : UInt16) (j : Nat) :
    restarted mc first (j + 1) =
      (mediaClockOnPacket (restarted mc first j) (first + UInt16.ofNat j)).1 := by
  simp [restarted, clockRun, List.range_succ]

-- The mark before packet `j`: the old one up to the first accepted packet, then the packet before.
def markBefore (last first : UInt16) (j : Nat) : UInt16 :=
  if j ≤ lateRun last first then last else first + UInt16.ofNat (j - 1)

theorem markBefore_late {last first : UInt16} {j : Nat} (late : j < lateRun last first) :
    highCounter (markBefore last first j) (first + UInt16.ofNat j) = last ∧
      lostBefore (markBefore last first j) (first + UInt16.ofNat j) = 0 := by
  have bound := counterGap_lt last first
  have behind : 32768 ≤ counterGap last (first + UInt16.ofNat j) := by
    rw [counterGap_add]
    rcases lateRun_cases last first with ⟨old, count⟩ | ⟨near, count⟩ <;> omega
  simp [markBefore, late.le, highCounter, lostBefore, behind]

-- From the first packet ahead of the old mark on, the mark is the packet before.
theorem markBefore_gap {last first : UInt16} {j : Nat} (onward : lateRun last first ≤ j) :
    counterGap (markBefore last first j) (first + UInt16.ofNat j) =
      if j = 0 then counterGap last first else 0 := by
  have bound := counterGap_lt last first
  by_cases here : j ≤ lateRun last first
  next =>
    rw [markBefore, if_pos here, counterGap_add]
    rcases lateRun_cases last first with ⟨old, count⟩ | ⟨near, count⟩ <;> split <;> omega
  next =>
    rw [markBefore, if_neg here, counterGap_ahead first (by omega) (by omega), if_neg (by omega)]
    omega

theorem markBefore_accepted {last first : UInt16} {j : Nat} (onward : lateRun last first ≤ j) :
    highCounter (markBefore last first j) (first + UInt16.ofNat j) = first + UInt16.ofNat j ∧
      lostBefore (markBefore last first j) (first + UInt16.ofNat j) =
        if j = 0 then counterGap last first else 0 := by
  have bound := counterGap_lt last first
  have near : ¬ 32768 ≤ counterGap (markBefore last first j) (first + UInt16.ofNat j) := by
    rw [markBefore_gap onward]
    by_cases zero : j = 0
    next =>
      rw [if_pos zero]
      rcases lateRun_cases last first with ⟨old, count⟩ | ⟨small, count⟩ <;> omega
    next =>
      rw [if_neg zero]
      omega
  rw [highCounter, lostBefore, if_neg near, if_neg near]
  exact ⟨rfl, markBefore_gap onward⟩

theorem restarted_mark (mc : MediaClock) (started : mc.started = true) (first : UInt16) (j : Nat) :
    (restarted mc first j).started = true ∧
      (restarted mc first j).lastCounter = markBefore mc.lastCounter first j := by
  induction j with
  | zero => simp [restarted, clockRun, markBefore, started]
  | succ j ih =>
    obtain ⟨running, mark⟩ := ih
    rw [restarted_succ, mediaClockOnPacket_started running, mark]
    refine ⟨running, ?_⟩
    by_cases late : j < lateRun mc.lastCounter first
    next =>
      have later : markBefore mc.lastCounter first (j + 1) = mc.lastCounter := if_pos late
      exact (markBefore_late late).1.trans later.symm
    next =>
      have later : markBefore mc.lastCounter first (j + 1) = first + UInt16.ofNat j := if_neg late
      exact (markBefore_accepted (Nat.not_lt.mp late)).1.trans later.symm

theorem restartStep_silence (mc : MediaClock) (started : mc.started = true) (first : UInt16) (j : Nat) :
    (restartStep mc first j).silencePackets =
      lostBefore (markBefore mc.lastCounter first j) (first + UInt16.ofNat j) := by
  obtain ⟨running, mark⟩ := restarted_mark mc started first j
  rw [restartStep, mediaClockOnPacket_started running, mark]

-- Only the first packet of the new count can report a loss, and only if it is accepted at once.
theorem restartStep_silence_le (mc : MediaClock) (started : mc.started = true) (first : UInt16) (j : Nat) :
    (restartStep mc first j).silencePackets =
      if j = 0 ∧ lateRun mc.lastCounter first = 0 then counterGap mc.lastCounter first else 0 := by
  rw [restartStep_silence mc started]
  by_cases late : j < lateRun mc.lastCounter first
  next =>
    rw [(markBefore_late late).2, if_neg (by omega)]
  next =>
    rw [(markBefore_accepted (Nat.not_lt.mp late)).2]
    by_cases zero : j = 0
    next =>
      have none : lateRun mc.lastCounter first = 0 := by omega
      simp [zero, none]
    next => simp [zero]

theorem concealedBy_succ (mc : MediaClock) (first : UInt16) (n : Nat) :
    concealedBy mc first (n + 1) = concealedBy mc first n + (restartStep mc first n).silencePackets := by
  simp [concealedBy, List.range_succ]

theorem concealedBy_le (mc : MediaClock) (started : mc.started = true) (first : UInt16) (n : Nat) :
    concealedBy mc first n ≤ 32767 := by
  have total : concealedBy mc first n =
      if n ≠ 0 ∧ lateRun mc.lastCounter first = 0 then counterGap mc.lastCounter first else 0 := by
    induction n with
    | zero => rfl
    | succ n ih =>
      rw [concealedBy_succ, ih, restartStep_silence_le mc started]
      by_cases zero : n = 0 <;> simp [zero]
  have bound := counterGap_lt mc.lastCounter first
  rw [total]
  split
  next accepted =>
    rcases lateRun_cases mc.lastCounter first with ⟨old, count⟩ | ⟨near, count⟩ <;> omega
  next => omega

theorem restarted_totalLost (mc : MediaClock) (first : UInt16) (n : Nat) :
    (restarted mc first n).totalLost = mc.totalLost + concealedBy mc first n := by
  induction n with
  | zero => rfl
  | succ n ih =>
    rw [restarted_succ, mediaClockOnPacket_totalLost, ih, concealedBy_succ, Nat.add_assoc]
    rfl

/-- What the clock does with the packets `first`, `first + 1`, … of a restarted count, the first `late` of
which it takes for late ones. -/
structure Relocks (mc : MediaClock) (first : UInt16) (late : Nat) : Prop where
  bounded : late ≤ 32768
  ignored : ∀ j, j < late → (restartStep mc first j).silencePackets = 0 ∧
    (restarted mc first (j + 1)).lastCounter = mc.lastCounter
  followed : ∀ j, late ≤ j → (restarted mc first (j + 1)).lastCounter = first + UInt16.ofNat j
  reported : ∀ j, (restartStep mc first j).silencePackets ≠ 0 → j = 0 ∧ late = 0
  concealed : ∀ n, concealedBy mc first n ≤ 32767
  counted : ∀ n, (restarted mc first n).totalLost = mc.totalLost + concealedBy mc first n

theorem mediaClock_relocks (mc : MediaClock) (started : mc.started = true) (first : UInt16) :
    Relocks mc first (lateRun mc.lastCounter first) := by
  constructor
  next => exact lateRun_le _ _
  next =>
    intro j late
    rw [restartStep_silence mc started, (restarted_mark mc started first (j + 1)).2]
    exact ⟨(markBefore_late late).2, if_pos late⟩
  next =>
    intro j onward
    rw [(restarted_mark mc started first (j + 1)).2]
    exact if_neg (Nat.not_lt.mpr onward)
  next =>
    intro j lost
    rw [restartStep_silence_le mc started] at lost
    by_contra other
    exact lost (if_neg other)
  next => exact concealedBy_le mc started first
  next => exact restarted_totalLost mc first

-- A clock at 100 whose device restarts at 0: packets 0 to 100 are late, packet 101 is followed.
theorem mediaClock_relocks_zero :
    let mc := { mediaClockInit 12 with started := true, lastCounter := 100 }
    Relocks mc 0 (lateRun 100 0) :=
  mediaClock_relocks { mediaClockInit 12 with started := true, lastCounter := 100 } rfl 0

end ReacAes67
