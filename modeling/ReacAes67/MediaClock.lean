import Mathlib.Tactic.Ring

set_option autoImplicit false

/-!
# The media clock

RTP timestamps are a running sample count. A gap in the REAC counter advances
the count over the lost packets; a duplicate or late packet takes the next slot.
-/

namespace ReacAes67

-- Like the counters of `struct pipeline_stats`, `total_lost` is a number (`pipelineRun_unwrapped`).
structure MediaClock where
  rtpTs : UInt32
  anchor : UInt32
  lastCounter : UInt16
  started : Bool
  samplesPerPkt : Nat
  totalLost : Nat
deriving DecidableEq, Repr

structure MediaClockStep where
  rtpTs : UInt32
  silencePackets : Nat
deriving DecidableEq, Repr

def mediaClockInitAnchored (samplesPerPkt : Nat) (anchor : UInt32) : MediaClock :=
  { rtpTs := anchor, anchor := anchor, lastCounter := 0, started := false
    samplesPerPkt := samplesPerPkt, totalLost := 0 }

def mediaClockInit (samplesPerPkt : Nat) : MediaClock := mediaClockInitAnchored samplesPerPkt 0

def mediaClockOnPacket (mc : MediaClock) (counter : UInt16) : MediaClock × MediaClockStep :=
  if !mc.started then
    ({ mc with started := true, lastCounter := counter, rtpTs := mc.anchor }, ⟨mc.anchor, 0⟩)
  else
    let delta : Int16 := (counter - mc.lastCounter - 1).toInt16
    if delta < 0 then
      -- a duplicate or late packet: last_counter stays the high-water mark
      let ts := mc.rtpTs + UInt32.ofNat mc.samplesPerPkt
      ({ mc with rtpTs := ts }, ⟨ts, 0⟩)
    else
      let lost := delta.toUInt16
      let ts := mc.rtpTs + UInt32.ofNat (lost.toNat + 1) * UInt32.ofNat mc.samplesPerPkt
      ({ mc with rtpTs := ts, totalLost := mc.totalLost + lost.toNat, lastCounter := counter },
        ⟨ts, lost.toNat⟩)

def clockRun (mc : MediaClock) (counters : List UInt16) : MediaClock :=
  counters.foldl (fun mc counter => (mediaClockOnPacket mc counter).1) mc

@[simp] theorem clockRun_cons (mc : MediaClock) (counter : UInt16) (rest : List UInt16) :
    clockRun mc (counter :: rest) = clockRun (mediaClockOnPacket mc counter).1 rest := rfl

-- Counters skipped going from `last` to `counter`, read forward.
def counterGap (last counter : UInt16) : Nat := (counter - last - 1).toNat

theorem toInt16_neg_iff (v : UInt16) : v.toInt16 < 0 ↔ 32768 ≤ v.toNat := by
  have same : v.toInt16.toBitVec = v.toBitVec := rfl
  have value : v.toBitVec.toNat = v.toNat := rfl
  have bound := v.toNat_lt
  rw [Int16.lt_iff_toInt_lt]
  simp only [Int16.toInt, same, BitVec.toInt_eq_toNat_cond, value, Int16.toBitVec_zero,
    BitVec.toNat_ofNat]
  split <;> simp <;> omega

theorem counterGap_lt (last counter : UInt16) : counterGap last counter < 65536 :=
  (counter - last - 1).toNat_lt

-- The lost packets a started clock reports: none for a counter that is not ahead.
def lostBefore (last counter : UInt16) : Nat :=
  if 32768 ≤ counterGap last counter then 0 else counterGap last counter

def highCounter (last counter : UInt16) : UInt16 :=
  if 32768 ≤ counterGap last counter then last else counter

-- Counters of numbered slots, wrapped to 16 bits, still tell which of two near slots is ahead.
theorem counterGap_ahead (base : UInt16) {high slot : Nat} (above : high < slot)
    (near : slot ≤ high + 65536) :
    counterGap (base + UInt16.ofNat high) (base + UInt16.ofNat slot) = slot - high - 1 := by
  have bound := base.toNat_lt
  simp only [counterGap, UInt16.toNat_sub, UInt16.toNat_add, UInt16.toNat_ofNat', UInt16.toNat_one]
  omega

theorem counterGap_behind (base : UInt16) {high slot : Nat} (below : slot ≤ high)
    (near : high < slot + 32768) :
    32768 ≤ counterGap (base + UInt16.ofNat high) (base + UInt16.ofNat slot) := by
  have bound := base.toNat_lt
  simp only [counterGap, UInt16.toNat_sub, UInt16.toNat_add, UInt16.toNat_ofNat', UInt16.toNat_one]
  omega

theorem mediaClockOnPacket_first {mc : MediaClock} (fresh : mc.started = false) (counter : UInt16) :
    mediaClockOnPacket mc counter =
      ({ mc with started := true, lastCounter := counter, rtpTs := mc.anchor }, ⟨mc.anchor, 0⟩) := by
  simp [mediaClockOnPacket, fresh]

-- Both later branches move the count by one packet more than they report lost.
theorem mediaClockOnPacket_started {mc : MediaClock} (started : mc.started = true)
    (counter : UInt16) :
    let lost := lostBefore mc.lastCounter counter
    let ts := mc.rtpTs + UInt32.ofNat ((lost + 1) * mc.samplesPerPkt)
    mediaClockOnPacket mc counter =
      ({ mc with rtpTs := ts, totalLost := mc.totalLost + lost
                 lastCounter := highCounter mc.lastCounter counter }, ⟨ts, lost⟩) := by
  have sign : (counter - mc.lastCounter - 1).toInt16 < 0 ↔
      32768 ≤ counterGap mc.lastCounter counter := toInt16_neg_iff _
  have count : ((counter - mc.lastCounter - 1).toInt16.toUInt16).toNat =
      counterGap mc.lastCounter counter := by
    rw [UInt16.toUInt16_toInt16, counterGap]
  simp only [mediaClockOnPacket, started, Bool.not_true, Bool.false_eq_true, if_false, sign, count,
    lostBefore, highCounter]
  by_cases late : 32768 ≤ counterGap mc.lastCounter counter
  · simp [late]
  · simp [late, UInt32.ofNat_mul]

-- The highest slot the clock has accounted is `high`.
structure MediaClock.AtSlot (mc : MediaClock) (base : UInt16) (high : Nat) : Prop where
  started : mc.started = true
  counter : mc.lastCounter = base + UInt16.ofNat high

theorem mediaClockOnPacket_firstSlot {mc : MediaClock} (fresh : mc.started = false) (base : UInt16)
    (slot : Nat) : (mediaClockOnPacket mc (base + UInt16.ofNat slot)).1.AtSlot base slot := by
  rw [mediaClockOnPacket_first fresh]
  exact ⟨rfl, rfl⟩

theorem mediaClockOnPacket_ahead {mc : MediaClock} {base : UInt16} {high slot : Nat}
    (position : mc.AtSlot base high) (above : high < slot) (near : slot ≤ high + 32768) :
    let next := mediaClockOnPacket mc (base + UInt16.ofNat slot)
    next.2.silencePackets = slot - high - 1 ∧ next.1.AtSlot base slot := by
  have gap := counterGap_ahead base above (by omega)
  simp only [mediaClockOnPacket_started position.started, position.counter, lostBefore, highCounter]
  rw [if_neg (by omega), if_neg (by omega)]
  exact ⟨gap, position.started, rfl⟩

theorem mediaClockOnPacket_late {mc : MediaClock} {base : UInt16} {high slot : Nat}
    (position : mc.AtSlot base high) (below : slot ≤ high) (near : high < slot + 32768) :
    let next := mediaClockOnPacket mc (base + UInt16.ofNat slot)
    next.2.silencePackets = 0 ∧ next.1.AtSlot base high := by
  have behind := counterGap_behind base below near
  simp only [mediaClockOnPacket_started position.started, position.counter, lostBefore, highCounter]
  rw [if_pos behind, if_pos behind]
  exact ⟨rfl, position.started, rfl⟩

def packetTs (anchor : UInt32) (samplesPerPkt k : Nat) : UInt32 :=
  anchor + UInt32.ofNat (k * samplesPerPkt)

theorem packetTs_toNat (anchor : UInt32) (samplesPerPkt k : Nat) :
    (packetTs anchor samplesPerPkt k).toNat = (anchor.toNat + k * samplesPerPkt) % 2 ^ 32 := by
  simp [packetTs, UInt32.toNat_add]

theorem packetTs_add (anchor : UInt32) (samplesPerPkt k n : Nat) :
    packetTs anchor samplesPerPkt k + UInt32.ofNat (n * samplesPerPkt) =
      packetTs anchor samplesPerPkt (k + n) := by
  rw [packetTs, packetTs, Nat.add_mul, UInt32.ofNat_add, UInt32.add_assoc]

theorem packetTs_sub (anchor : UInt32) (samplesPerPkt k n : Nat) :
    packetTs anchor samplesPerPkt (k + n) - UInt32.ofNat (n * samplesPerPkt) =
      packetTs anchor samplesPerPkt k := by
  rw [← packetTs_add, UInt32.add_sub_cancel]

-- The clock stands after `count` packets of a stream anchored at `anchor`.
structure MediaClock.At (mc : MediaClock) (anchor : UInt32) (samplesPerPkt count : Nat) : Prop where
  anchored : mc.anchor = anchor
  spacing : mc.samplesPerPkt = samplesPerPkt
  started : mc.started = true ↔ 0 < count
  last : 0 < count → mc.rtpTs = packetTs anchor samplesPerPkt (count - 1)

theorem mediaClockInitAnchored_at (samplesPerPkt : Nat) (anchor : UInt32) :
    (mediaClockInitAnchored samplesPerPkt anchor).At anchor samplesPerPkt 0 := by
  constructor <;> simp [mediaClockInitAnchored]

-- The step reports the next slots in order: first the lost packets, then this one.
theorem mediaClockOnPacket_at {mc : MediaClock} {anchor : UInt32} {samplesPerPkt count : Nat}
    (position : mc.At anchor samplesPerPkt count) (counter : UInt16) :
    let step := (mediaClockOnPacket mc counter).2
    step.rtpTs = packetTs anchor samplesPerPkt (count + step.silencePackets) ∧
      (mediaClockOnPacket mc counter).1.At anchor samplesPerPkt (count + step.silencePackets + 1) := by
  rcases Nat.eq_zero_or_pos count with zero | positive
  · subst zero
    have fresh : mc.started = false := by
      have started := position.started
      simpa using started
    rw [mediaClockOnPacket_first fresh]
    have origin : mc.anchor = packetTs anchor samplesPerPkt 0 := by
      simp [packetTs, position.anchored]
    refine ⟨origin, position.anchored, position.spacing, by simp, fun _ => origin⟩
  · have started := position.started.mpr positive
    rw [mediaClockOnPacket_started started]
    have advanced : mc.rtpTs +
        UInt32.ofNat ((lostBefore mc.lastCounter counter + 1) * mc.samplesPerPkt) =
          packetTs anchor samplesPerPkt (count + lostBefore mc.lastCounter counter) := by
      rw [position.last positive, position.spacing, packetTs_add]
      congr 1
      omega
    refine ⟨advanced, position.anchored, position.spacing, by simp [started], fun _ => advanced⟩

theorem mediaClockOnPacket_totalLost (mc : MediaClock) (counter : UInt16) :
    (mediaClockOnPacket mc counter).1.totalLost =
      mc.totalLost + (mediaClockOnPacket mc counter).2.silencePackets := by
  cases started : mc.started with
  | false => simp [mediaClockOnPacket_first started]
  | true => simp [mediaClockOnPacket_started started]

theorem mediaClockOnPacket_silencePackets_le (mc : MediaClock) (counter : UInt16) :
    (mediaClockOnPacket mc counter).2.silencePackets ≤ 32767 := by
  cases started : mc.started with
  | false => simp [mediaClockOnPacket_first started]
  | true =>
    simp only [mediaClockOnPacket_started started, lostBefore]
    split <;> omega

end ReacAes67
