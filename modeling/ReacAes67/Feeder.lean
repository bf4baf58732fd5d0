import ReacAes67.CaptureLoops
import ReacAes67.SourceNode

set_option autoImplicit false

/-!
# The feeder thread

`rx_loop` counts the counters skipped between the frames it sees and hands the
counter on to `update_ppm`, which keeps a history of its own. The media clock
counts the same losses from its high-water mark.
-/

namespace ReacAes67

variable {α : Type}

/-- The ring and the diagnostics of `struct reac_rx`, whose `uint64_t` counters are numbers
(`rxRun_unwrapped`). -/
structure ReacRx (α : Type) where
  ring : ReacRing α
  framesOk : Nat
  framesBad : Nat
  counterGaps : Nat

/-- The static variables of `update_ppm`. -/
structure PpmWindow where
  winStartNs : UInt64
  winFrames : UInt32
  lastCounter : UInt16
  haveLast : Bool

-- What a closing window computes `ppm_error_milli` from.
structure PpmReading where
  winFrames : UInt32
  dt : UInt64
deriving DecidableEq, Repr

structure RxLoop (α : Type) where
  rx : ReacRx α
  lastCounter : UInt16
  haveCounter : Bool
  ppm : PpmWindow

-- Pacing a replay only delays a frame: it shows in the time at which the frame is handled.
inductive RxEvent where
  | frame (buf : List UInt8) (nowNs : UInt64)
  | idle
  | rewind

/-- A frame processed: the gap counter after it, and the reading if it closed a window. -/
structure Processed where
  counterGaps : Nat
  reading : Option PpmReading
deriving DecidableEq, Repr

-- The buffer that `rx_loop` receives into.
def rxFrameBytes : Nat := reacFrameBytes + 64

def ppmWindowNs : UInt64 := 250000000

def reacFrameCounter (buf : List UInt8) : UInt16 := Endian.le16 (buf.getD 14 0) (buf.getD 15 0)

def updatePpm (w : PpmWindow) (counter : UInt16) (nowNs : UInt64) : PpmWindow × Option PpmReading :=
  let w := if w.haveLast then
      { w with winFrames := w.winFrames + UInt32.ofNat (counterGap w.lastCounter counter + 1) }
    else { w with winStartNs := nowNs, haveLast := true }
  let w := { w with lastCounter := counter }
  let dt := nowNs - w.winStartNs
  if dt ≥ ppmWindowNs then ({ w with winStartNs := nowNs, winFrames := 0 }, some ⟨w.winFrames, dt⟩)
  else (w, none)

def feedRx (toFloat : SampleBlock.Sample → α) (mode : ReacMode) (rx : ReacRx α) (frame : List UInt8) :
    ReacRx α :=
  match reacDecode frame mode SampleBlock.Block.blank with
  | none => { rx with framesBad := rx.framesBad + 1 }
  | some _ =>
    { rx with ring := (feedFrame toFloat mode rx.ring frame).1, framesOk := rx.framesOk + 1 }

def rxStep (toFloat : SampleBlock.Sample → α) (mode : ReacMode) (s : RxLoop α) :
    RxEvent → RxLoop α × List Processed
  | .rewind => ({ s with haveCounter := false }, [])
  | .idle => (s, [])
  | .frame buf nowNs =>
    if !isReac buf then (s, [])
    else
      let counter := reacFrameCounter buf
      let gap := if s.haveCounter then counterGap s.lastCounter counter else 0
      let rx := { s.rx with counterGaps := s.rx.counterGaps + gap }
      let ppm := updatePpm s.ppm counter nowNs
      ({ rx := feedRx toFloat mode rx buf, lastCounter := counter, haveCounter := true, ppm := ppm.1 },
        [⟨rx.counterGaps, ppm.2⟩])

def rxStart (ring : ReacRing α) : RxLoop α :=
  { rx := { ring := ring, framesOk := 0, framesBad := 0, counterGaps := 0 }
    lastCounter := 0, haveCounter := false
    ppm := { winStartNs := 0, winFrames := 0, lastCounter := 0, haveLast := false } }

def rxRun (toFloat : SampleBlock.Sample → α) (mode : ReacMode) (s : RxLoop α) (events : List RxEvent) :
    RxLoop α × List Processed :=
  Mealy.run (rxStep toFloat mode) s events

@[simp] theorem feedRx_counterGaps (toFloat : SampleBlock.Sample → α) (mode : ReacMode) (rx : ReacRx α)
    (frame : List UInt8) : (feedRx toFloat mode rx frame).counterGaps = rx.counterGaps := by
  unfold feedRx
  split <;> rfl

/-- No counter has come to the end of its 64 bits. -/
structure ReacRx.Unwrapped (rx : ReacRx α) : Prop where
  framesOk : rx.framesOk < 2 ^ 64
  framesBad : rx.framesBad < 2 ^ 64
  counterGaps : rx.counterGaps < 2 ^ 64

theorem feedRx_frames (toFloat : SampleBlock.Sample → α) (mode : ReacMode) (rx : ReacRx α)
    (frame : List UInt8) :
    (feedRx toFloat mode rx frame).framesOk + (feedRx toFloat mode rx frame).framesBad =
      rx.framesOk + rx.framesBad + 1 := by
  unfold feedRx
  split <;> simp only <;> omega

theorem rxRun_counts_le (toFloat : SampleBlock.Sample → α) (mode : ReacMode) (s : RxLoop α)
    (events : List RxEvent) :
    let rx := (rxRun toFloat mode s events).1.rx
    rx.framesOk + rx.framesBad ≤ s.rx.framesOk + s.rx.framesBad + events.length ∧
      rx.counterGaps ≤ s.rx.counterGaps + 65535 * events.length := by
  induction events generalizing s with
  | nil => exact ⟨Nat.le_refl _, Nat.le_refl _⟩
  | cons event events ih =>
    obtain ⟨frames, gaps⟩ := ih (rxStep toFloat mode s event).1
    have turn : (rxStep toFloat mode s event).1.rx.framesOk + (rxStep toFloat mode s event).1.rx.framesBad ≤
          s.rx.framesOk + s.rx.framesBad + 1 ∧
        (rxStep toFloat mode s event).1.rx.counterGaps ≤ s.rx.counterGaps + 65535 := by
      cases event with
      | idle => exact ⟨Nat.le_succ _, Nat.le_add_right _ _⟩
      | rewind => exact ⟨Nat.le_succ _, Nat.le_add_right _ _⟩
      | frame buf nowNs =>
        have gap := counterGap_lt s.lastCounter (reacFrameCounter buf)
        simp only [rxStep]
        split
        next => exact ⟨Nat.le_succ _, Nat.le_add_right _ _⟩
        next =>
          simp only [feedRx_frames, feedRx_counterGaps]
          refine ⟨Nat.le_refl _, Nat.add_le_add_left ?_ _⟩
          split <;> omega
    simp only [rxRun, Mealy.run_cons, List.length_cons] at frames gaps ⊢
    omega

theorem rxRun_unwrapped (toFloat : SampleBlock.Sample → α) (mode : ReacMode) (ring : ReacRing α)
    {events : List RxEvent} (few : events.length < 2 ^ 48) :
    (rxRun toFloat mode (rxStart ring) events).1.rx.Unwrapped := by
  obtain ⟨frames, gaps⟩ := rxRun_counts_le toFloat mode (rxStart ring) events
  simp only [rxStart] at frames gaps ⊢
  constructor <;> omega

/-! ## Two counts of the lost frames -/

-- The feeder adds up the gaps between neighbours, the clock those above its high-water mark.
def gapsFrom (last : UInt16) : List UInt16 → Nat
  | [] => 0
  | counter :: rest => counterGap last counter + gapsFrom counter rest

def lostFrom (high : UInt16) : List UInt16 → Nat
  | [] => 0
  | counter :: rest => lostBefore high counter + lostFrom (highCounter high counter) rest

/-- The counter comes after `last` in the signed reading: neither a duplicate nor late. -/
def Ahead (last counter : UInt16) : Prop := counterGap last counter < 32768

instance (last counter : UInt16) : Decidable (Ahead last counter) :=
  inferInstanceAs (Decidable (counterGap last counter < 32768))

theorem counterGap_self (counter : UInt16) : counterGap counter counter = 65535 := by
  simp [counterGap]

-- The feeder's last counter is never ahead of the clock's mark, so it sees every gap the clock sees.
theorem lostBefore_le_counterGap {high last : UInt16} (notAhead : ¬ Ahead high last) (counter : UInt16) :
    lostBefore high counter ≤ counterGap last counter := by
  have bound := counter.toNat_lt
  have boundHigh := high.toNat_lt
  have boundLast := last.toNat_lt
  simp only [Ahead, counterGap, UInt16.toNat_sub, UInt16.toNat_one] at notAhead
  simp only [lostBefore, counterGap, UInt16.toNat_sub, UInt16.toNat_one]
  split <;> omega

theorem highCounter_notAhead (high counter : UInt16) : ¬ Ahead (highCounter high counter) counter := by
  unfold highCounter Ahead
  split
  next late => omega
  next =>
    rw [counterGap_self]
    omega

theorem lostFrom_le_gapsFrom {high last : UInt16} (notAhead : ¬ Ahead high last) (counters : List UInt16) :
    lostFrom high counters ≤ gapsFrom last counters := by
  induction counters generalizing high last with
  | nil => exact Nat.le_refl 0
  | cons counter rest ih =>
    exact Nat.add_le_add (lostBefore_le_counterGap notAhead counter)
      (ih (highCounter_notAhead high counter))

-- The first frame that is not ahead parts the two counts for good.
theorem gapsFrom_eq_lostFrom_iff (last : UInt16) (counters : List UInt16) :
    gapsFrom last counters = lostFrom last counters ↔ (last :: counters).IsChain Ahead := by
  induction counters generalizing last with
  | nil => simp [gapsFrom, lostFrom]
  | cons counter rest ih =>
    rw [List.isChain_cons_cons, ← ih counter]
    by_cases ahead : Ahead last counter
    next =>
      have near : ¬ 32768 ≤ counterGap last counter := Nat.not_le.mpr ahead
      simp [gapsFrom, lostFrom, lostBefore, highCounter, near, ahead]
    next =>
      have late : 32768 ≤ counterGap last counter := Nat.not_lt.mp ahead
      have rest : lostFrom last rest ≤ gapsFrom counter rest := lostFrom_le_gapsFrom ahead rest
      simp only [gapsFrom, lostFrom, lostBefore, highCounter, late, if_true, ahead, false_and, iff_false]
      omega

theorem rxStep_frame (toFloat : SampleBlock.Sample → α) (mode : ReacMode) (s : RxLoop α)
    {buf : List UInt8} (reac : isReac buf = true) (nowNs : UInt64) :
    let gap := if s.haveCounter then counterGap s.lastCounter (reacFrameCounter buf) else 0
    let ppm := updatePpm s.ppm (reacFrameCounter buf) nowNs
    (rxStep toFloat mode s (.frame buf nowNs)).2 = [⟨s.rx.counterGaps + gap, ppm.2⟩] ∧
      (rxStep toFloat mode s (.frame buf nowNs)).1.rx.counterGaps = s.rx.counterGaps + gap ∧
      (rxStep toFloat mode s (.frame buf nowNs)).1.lastCounter = reacFrameCounter buf ∧
      (rxStep toFloat mode s (.frame buf nowNs)).1.haveCounter = true ∧
      (rxStep toFloat mode s (.frame buf nowNs)).1.ppm = ppm.1 := by
  simp [rxStep, reac]

theorem valid_isReac {buf : List UInt8} (valid : (reacFrameInspect buf).valid = true) :
    isReac buf = true ∧ reacFrameCounter buf = (reacFrameInspect buf).counter := by
  obtain ⟨length, type0, type1, _, _, frame⟩ := reacFrameInspect_valid valid
  rw [isReac, length, type0, type1, frame]
  exact ⟨by decide, rfl⟩

def liveEvents (frames : List (List UInt8 × UInt64)) : List RxEvent :=
  frames.map fun frame => .frame frame.1 frame.2

def frameCounters (frames : List (List UInt8 × UInt64)) : List UInt16 :=
  frames.map fun frame => (reacFrameInspect frame.1).counter

theorem rxRun_counterGaps (toFloat : SampleBlock.Sample → α) (mode : ReacMode) (s : RxLoop α)
    (counting : s.haveCounter = true) {frames : List (List UInt8 × UInt64)}
    (valid : ∀ frame ∈ frames, (reacFrameInspect frame.1).valid = true) :
    (rxRun toFloat mode s (liveEvents frames)).1.rx.counterGaps =
      s.rx.counterGaps + gapsFrom s.lastCounter (frameCounters frames) := by
  induction frames generalizing s with
  | nil => simp [rxRun, liveEvents, frameCounters, gapsFrom]
  | cons frame rest ih =>
    obtain ⟨reac, counter⟩ := valid_isReac (valid frame List.mem_cons_self)
    obtain ⟨_, gaps, last, started, _⟩ := rxStep_frame toFloat mode s reac frame.2
    have later := ih (rxStep toFloat mode s (.frame frame.1 frame.2)).1 started
      fun other member => valid other (List.mem_cons_of_mem _ member)
    rw [gaps, last, counting, counter] at later
    simpa [rxRun, liveEvents, frameCounters, gapsFrom, Nat.add_assoc] using later

theorem clockRun_totalLost (mc : MediaClock) (started : mc.started = true) (counters : List UInt16) :
    (clockRun mc counters).totalLost = mc.totalLost + lostFrom mc.lastCounter counters := by
  induction counters generalizing mc with
  | nil => rfl
  | cons counter rest ih =>
    have step := mediaClockOnPacket_started started counter
    have later := ih (mediaClockOnPacket mc counter).1 (by rw [step]; exact started)
    rw [step] at later
    rw [clockRun_cons, step, lostFrom, ← Nat.add_assoc]
    exact later

theorem rxRun_start_counterGaps (toFloat : SampleBlock.Sample → α) (mode : ReacMode) (ring : ReacRing α)
    (first : List UInt8 × UInt64) (rest : List (List UInt8 × UInt64))
    (valid : ∀ frame ∈ first :: rest, (reacFrameInspect frame.1).valid = true) :
    (rxRun toFloat mode (rxStart ring) (liveEvents (first :: rest))).1.rx.counterGaps =
      gapsFrom (reacFrameInspect first.1).counter (frameCounters rest) := by
  obtain ⟨reac, counter⟩ := valid_isReac (valid first List.mem_cons_self)
  obtain ⟨_, gaps, last, started, _⟩ := rxStep_frame toFloat mode (rxStart ring) reac first.2
  have later := rxRun_counterGaps toFloat mode (rxStep toFloat mode (rxStart ring) (.frame first.1 first.2)).1
    started fun other member => valid other (List.mem_cons_of_mem _ member)
  have zero : (rxStep toFloat mode (rxStart ring) (.frame first.1 first.2)).1.rx.counterGaps = 0 := gaps
  rw [zero, Nat.zero_add, last, counter] at later
  exact later

theorem clockRun_start_totalLost (samplesPerPkt : Nat) (anchor : UInt32) (first : UInt16)
    (rest : List UInt16) :
    (clockRun (mediaClockInitAnchored samplesPerPkt anchor) (first :: rest)).totalLost =
      lostFrom first rest := by
  have fresh : (mediaClockInitAnchored samplesPerPkt anchor).started = false := rfl
  have step := mediaClockOnPacket_first fresh first
  have later := clockRun_totalLost (mediaClockOnPacket (mediaClockInitAnchored samplesPerPkt anchor) first).1
    (by rw [step]) rest
  rw [step] at later
  rw [clockRun_cons, step]
  simpa only [mediaClockInitAnchored, Nat.zero_add] using later

/-- The feeder and the media clock count the same losses exactly in the runs without a duplicate or late
frame: every counter is ahead of the one before it. -/
theorem counterGaps_eq_totalLost_iff (toFloat : SampleBlock.Sample → α) (mode : ReacMode)
    (ring : ReacRing α) (samplesPerPkt : Nat) (anchor : UInt32) {frames : List (List UInt8 × UInt64)}
    (valid : ∀ frame ∈ frames, (reacFrameInspect frame.1).valid = true) :
    (rxRun toFloat mode (rxStart ring) (liveEvents frames)).1.rx.counterGaps =
        (clockRun (mediaClockInitAnchored samplesPerPkt anchor) (frameCounters frames)).totalLost ↔
      (frameCounters frames).IsChain Ahead := by
  cases frames with
  | nil => simp [rxRun, liveEvents, frameCounters, rxStart, clockRun, mediaClockInitAnchored]
  | cons first rest =>
    have counters : frameCounters (first :: rest) =
        (reacFrameInspect first.1).counter :: frameCounters rest := rfl
    rw [rxRun_start_counterGaps toFloat mode ring first rest valid, counters, clockRun_start_totalLost]
    exact gapsFrom_eq_lostFrom_iff _ _

def silentFrame (counter : UInt16) : List UInt8 := wireFrame (fun _ => 0xff) counter SampleBlock.Block.blank

theorem silentFrame_inspect (counter : UInt16) :
    reacFrameInspect (silentFrame counter) = ⟨counter, true⟩ := wireFrame_inspect _ _ _

theorem silentFrame_isReac (counter : UInt16) :
    isReac (silentFrame counter) = true ∧ reacFrameCounter (silentFrame counter) = counter := by
  have seen := valid_isReac (congrArg ReacFrame.valid (silentFrame_inspect counter))
  rwa [silentFrame_inspect] at seen

-- One frame, heard a second time 0.25 ms later.
theorem counterGaps_eq_totalLost_duplicate :
    let frames := [(silentFrame 7, 0), (silentFrame 7, 250000)]
    (∀ frame ∈ frames, (reacFrameInspect frame.1).valid = true) ∧
      (rxRun (fun _ => 0) reacMode48k (rxStart (reacRxRing 48000 : ReacRing Nat))
        (liveEvents frames)).1.rx.counterGaps = 65535 ∧
      (clockRun (mediaClockInit 12) (frameCounters frames)).totalLost = 0 := by
  have valid : ∀ frame ∈ [(silentFrame 7, (0 : UInt64)), (silentFrame 7, 250000)],
      (reacFrameInspect frame.1).valid = true := by
    simp [silentFrame_inspect]
  refine ⟨valid, ?_, ?_⟩
  · rw [rxRun_start_counterGaps _ _ _ _ _ valid]
    simp only [frameCounters, List.map_cons, List.map_nil, silentFrame_inspect]
    decide
  · simp only [frameCounters, List.map_cons, List.map_nil, silentFrame_inspect]
    decide

theorem counterGaps_eq_totalLost_lossThenWrap :
    let frames := [(silentFrame 65533, 0), (silentFrame 65535, 500000), (silentFrame 0, 750000)]
    (rxRun (fun _ => 0) reacMode48k (rxStart (reacRxRing 48000 : ReacRing Nat))
        (liveEvents frames)).1.rx.counterGaps =
      (clockRun (mediaClockInitAnchored 12 5) (frameCounters frames)).totalLost := by
  apply (counterGaps_eq_totalLost_iff (fun _ => 0) reacMode48k (reacRxRing 48000 : ReacRing Nat) 12 5
    (by simp [silentFrame_inspect])).mpr
  simp only [frameCounters, List.map_cons, List.map_nil, silentFrame_inspect]
  decide

end ReacAes67
