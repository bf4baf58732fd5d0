import ReacAes67.Feeder

set_option autoImplicit false

/-!
# What a measurement window counts

`update_ppm` should count the frames of a window and the frames lost among
them. It also counts the gap from the last frame before a rewind to the first
one after it.
-/

namespace ReacAes67

variable {α : Type}

/-- The frame count each closed window used, beside the frames processed in it plus the growth of the gap
counter; `frames` and `gaps` belong to the window still open. -/
def measured (frames gaps : Nat) : List Processed → List (UInt32 × Nat)
  | [] => []
  | p :: rest =>
    match p.reading with
    | some reading =>
      (reading.winFrames, frames + 1 + (p.counterGaps - gaps)) :: measured 0 p.counterGaps rest
    | none => measured (frames + 1) gaps rest

-- The very first frame opens the first window and is not counted.
def closedWindows : List Processed → List (UInt32 × Nat)
  | [] => []
  | first :: rest => measured 0 first.counterGaps rest

def WindowsExact (log : List Processed) : Prop :=
  ∀ window ∈ closedWindows log, window.1.toNat = window.2

/-- What one window saw: frames, the counters skipped between frames of one pass over the capture, and
those from the last frame before a rewind to the first after it. -/
structure Span where
  frames : Nat
  gaps : Nat
  across : Nat
deriving DecidableEq, Repr

def Span.count (span : Span) : Nat := span.frames + span.gaps

def Span.pass (span : Span) (rewound : Bool) (gap : Nat) : Span :=
  if rewound then { span with frames := span.frames + 1, across := span.across + gap }
  else { span with frames := span.frames + 1, gaps := span.gaps + gap }

-- The spans of the windows that close, from the counters and the times alone.
def spans (winStartNs : UInt64) (last : UInt16) (rewound : Bool) (span : Span) : List RxEvent → List Span
  | [] => []
  | .idle :: rest => spans winStartNs last rewound span rest
  | .rewind :: rest => spans winStartNs last true span rest
  | .frame buf nowNs :: rest =>
    let counter := reacFrameCounter buf
    let seen := span.pass rewound (counterGap last counter)
    if !isReac buf then spans winStartNs last rewound span rest
    else if nowNs - winStartNs ≥ ppmWindowNs then seen :: spans nowNs counter false ⟨0, 0, 0⟩ rest
    else spans winStartNs counter false seen rest

def closedSpans : List RxEvent → List Span
  | [] => []
  | .idle :: rest => closedSpans rest
  | .rewind :: rest => closedSpans rest
  | .frame buf nowNs :: rest =>
    if !isReac buf then closedSpans rest
    else spans nowNs (reacFrameCounter buf) false ⟨0, 0, 0⟩ rest

def Span.used (span : Span) : UInt32 := UInt32.ofNat (span.count + span.across)

@[simp] theorem Span.pass_frames (span : Span) (rewound : Bool) (gap : Nat) :
    (span.pass rewound gap).frames = span.frames + 1 := by
  cases rewound <;> rfl

@[simp] theorem Span.pass_used (span : Span) (rewound : Bool) (gap : Nat) :
    (span.pass rewound gap).used = span.used + UInt32.ofNat (gap + 1) := by
  rw [Span.used, Span.used, ← UInt32.ofNat_add]
  congr 1
  cases rewound <;> simp only [Span.pass, Span.count, Bool.false_eq_true, if_false, if_true] <;> omega

-- The loop and `update_ppm` agree on the last frame; only the loop forgets it at a rewind.
structure RxLoop.Tracks (s : RxLoop α) (winStartNs : UInt64) (last : UInt16) (rewound : Bool)
    (span : Span) (base : Nat) : Prop where
  winStart : s.ppm.winStartNs = winStartNs
  started : s.ppm.haveLast = true
  ppmLast : s.ppm.lastCounter = last
  winFrames : s.ppm.winFrames = span.used
  counting : s.haveCounter = !rewound
  lastCounter : s.lastCounter = last
  counterGaps : s.rx.counterGaps = base + span.gaps

section Step

variable (toFloat : SampleBlock.Sample → α) (mode : ReacMode) {s : RxLoop α} {winStartNs : UInt64}
  {last : UInt16} {rewound : Bool} {span : Span} {base : Nat}

theorem RxLoop.Tracks.rewind (tracks : s.Tracks winStartNs last rewound span base) :
    (rxStep toFloat mode s .rewind).1.Tracks winStartNs last true span base :=
  { tracks with counting := rfl }

theorem RxLoop.Tracks.gaps (tracks : s.Tracks winStartNs last rewound span base) (counter : UInt16) :
    s.rx.counterGaps + (if s.haveCounter then counterGap s.lastCounter counter else 0) =
      base + (span.pass rewound (counterGap last counter)).gaps := by
  rw [tracks.counterGaps, tracks.counting, tracks.lastCounter]
  cases rewound <;> simp [Span.pass, Nat.add_assoc]

theorem updatePpm_open (tracks : s.Tracks winStartNs last rewound span base) (counter : UInt16)
    {nowNs : UInt64} (early : ¬ nowNs - winStartNs ≥ ppmWindowNs) :
    updatePpm s.ppm counter nowNs =
      ({ s.ppm with winFrames := (span.pass rewound (counterGap last counter)).used
                    lastCounter := counter }, none) := by
  simp [updatePpm, tracks.started, tracks.winStart, tracks.ppmLast, tracks.winFrames, early]

theorem updatePpm_close (tracks : s.Tracks winStartNs last rewound span base) (counter : UInt16)
    {nowNs : UInt64} (due : nowNs - winStartNs ≥ ppmWindowNs) :
    updatePpm s.ppm counter nowNs =
      ({ s.ppm with winStartNs := nowNs, winFrames := 0, lastCounter := counter },
        some ⟨(span.pass rewound (counterGap last counter)).used, nowNs - winStartNs⟩) := by
  simp [updatePpm, tracks.started, tracks.winStart, tracks.ppmLast, tracks.winFrames, due]

theorem RxLoop.Tracks.frameOpen (tracks : s.Tracks winStartNs last rewound span base) {buf : List UInt8}
    (reac : isReac buf = true) {nowNs : UInt64} (early : ¬ nowNs - winStartNs ≥ ppmWindowNs) :
    let seen := span.pass rewound (counterGap last (reacFrameCounter buf))
    let next := rxStep toFloat mode s (.frame buf nowNs)
    next.2 = [⟨base + seen.gaps, none⟩] ∧
      next.1.Tracks winStartNs (reacFrameCounter buf) false seen base := by
  intro seen next
  obtain ⟨log, gaps, lastCounter, counting, ppm⟩ := rxStep_frame toFloat mode s reac nowNs
  rw [tracks.gaps, updatePpm_open tracks _ early] at log
  rw [updatePpm_open tracks _ early] at ppm
  rw [tracks.gaps] at gaps
  refine ⟨log, ?_, ?_, ?_, ?_, counting, lastCounter, gaps⟩
  all_goals rw [ppm]
  · exact tracks.winStart
  · exact tracks.started

theorem RxLoop.Tracks.frameClose (tracks : s.Tracks winStartNs last rewound span base) {buf : List UInt8}
    (reac : isReac buf = true) {nowNs : UInt64} (due : nowNs - winStartNs ≥ ppmWindowNs) :
    let seen := span.pass rewound (counterGap last (reacFrameCounter buf))
    let next := rxStep toFloat mode s (.frame buf nowNs)
    next.2 = [⟨base + seen.gaps, some ⟨seen.used, nowNs - winStartNs⟩⟩] ∧
      next.1.Tracks nowNs (reacFrameCounter buf) false ⟨0, 0, 0⟩ (base + seen.gaps) := by
  intro seen next
  obtain ⟨log, gaps, lastCounter, counting, ppm⟩ := rxStep_frame toFloat mode s reac nowNs
  rw [tracks.gaps, updatePpm_close tracks _ due] at log
  rw [updatePpm_close tracks _ due] at ppm
  rw [tracks.gaps] at gaps
  refine ⟨log, ?_, ?_, ?_, ?_, counting, lastCounter, gaps⟩
  all_goals rw [ppm]
  · exact tracks.started
  · rfl

end Step

theorem measured_rxRun (toFloat : SampleBlock.Sample → α) (mode : ReacMode) {s : RxLoop α}
    {winStartNs : UInt64} {last : UInt16} {rewound : Bool} {span : Span} {base : Nat}
    (tracks : s.Tracks winStartNs last rewound span base) (events : List RxEvent) :
    measured span.frames base (rxRun toFloat mode s events).2 =
      (spans winStartNs last rewound span events).map fun seen => (seen.used, seen.count) := by
  induction events generalizing s winStartNs last rewound span base with
  | nil => rfl
  | cons event rest ih =>
    rw [rxRun, Mealy.run_cons]
    cases event with
    | idle => exact ih tracks
    | rewind => exact ih (tracks.rewind toFloat mode)
    | frame buf nowNs =>
      cases reac : isReac buf with
      | false =>
        simp only [rxStep, spans, reac, Bool.not_false, if_true, List.nil_append]
        exact ih tracks
      | true =>
        by_cases due : nowNs - winStartNs ≥ ppmWindowNs
        next =>
          obtain ⟨log, after⟩ := tracks.frameClose toFloat mode reac due
          have later := ih after
          rw [rxRun] at later
          simp only [spans, reac, due, log, Bool.not_true, Bool.false_eq_true, if_false, if_true,
            List.singleton_append, measured, List.map_cons, later]
          simp [Span.count]
        next =>
          obtain ⟨log, after⟩ := tracks.frameOpen toFloat mode reac due
          have later := ih after
          rw [rxRun, Span.pass_frames] at later
          simp only [spans, reac, due, log, Bool.not_true, Bool.false_eq_true, if_false,
            List.singleton_append, measured, later]

-- Before the first frame there is no window; idle turns and rewinds change nothing.
theorem closedWindows_rxRun (toFloat : SampleBlock.Sample → α) (mode : ReacMode) {s : RxLoop α}
    (unstarted : s.ppm.haveLast = false) (nothing : s.ppm.winFrames = 0) (fresh : s.haveCounter = false)
    (events : List RxEvent) :
    closedWindows (rxRun toFloat mode s events).2 =
      (closedSpans events).map fun seen => (seen.used, seen.count) := by
  induction events generalizing s with
  | nil => rfl
  | cons event rest ih =>
    rw [rxRun, Mealy.run_cons]
    cases event with
    | idle => exact ih unstarted nothing fresh
    | rewind => exact ih (s := (rxStep toFloat mode s .rewind).1) unstarted nothing rfl
    | frame buf nowNs =>
      cases reac : isReac buf with
      | false =>
        simp only [rxStep, closedSpans, reac, Bool.not_false, if_true, List.nil_append]
        exact ih unstarted nothing fresh
      | true =>
        obtain ⟨log, gaps, lastCounter, counting, ppm⟩ := rxStep_frame toFloat mode s reac nowNs
        have first : updatePpm s.ppm (reacFrameCounter buf) nowNs =
            ({ winStartNs := nowNs, winFrames := 0, lastCounter := reacFrameCounter buf, haveLast := true },
              none) := by
          simp [updatePpm, unstarted, nothing, ppmWindowNs]
        have opened : (rxStep toFloat mode s (.frame buf nowNs)).1.Tracks nowNs (reacFrameCounter buf) false
            ⟨0, 0, 0⟩ s.rx.counterGaps := by
          rw [first] at ppm
          rw [fresh] at gaps
          refine ⟨?_, ?_, ?_, ?_, counting, lastCounter, gaps⟩
          all_goals rw [ppm]
          rfl
        have later := measured_rxRun toFloat mode opened rest
        rw [rxRun] at later
        simp only [closedSpans, reac, log, fresh, Bool.not_true, Bool.false_eq_true, if_false,
          List.singleton_append, closedWindows, Nat.add_zero, later]

theorem Span.used_eq_count_iff (span : Span) :
    span.used.toNat = span.count ↔ span.count < 2 ^ 32 ∧ span.across % 2 ^ 32 = 0 := by
  rw [Span.used, UInt32.toNat_ofNat']
  omega

/-- The frame counts the drift estimator used are exact in a run exactly when no window passed over more
counters than its 32-bit count holds and the gaps across the rewinds of each window cancel out. -/
theorem windowsExact_iff (toFloat : SampleBlock.Sample → α) (mode : ReacMode) (ring : ReacRing α)
    (events : List RxEvent) :
    WindowsExact (rxRun toFloat mode (rxStart ring) events).2 ↔
      ∀ span ∈ closedSpans events, span.count < 2 ^ 32 ∧ span.across % 2 ^ 32 = 0 := by
  rw [WindowsExact, closedWindows_rxRun toFloat mode (s := rxStart ring) rfl rfl rfl events]
  simp only [List.forall_mem_map, Span.used_eq_count_iff]

theorem windowsExact_twoWindows :
    let events := [.frame (silentFrame 7) 0, .frame (silentFrame 8) 250000, .frame (silentFrame 11) 250000000,
      .idle, .frame (silentFrame 12) 250250000, .frame (silentFrame 13) 500000000]
    let log := (rxRun (fun _ => 0) reacMode48k (rxStart (reacRxRing 48000 : ReacRing Nat)) events).2
    WindowsExact log ∧ closedWindows log = [(4, 4), (2, 2)] := by
  intro events log
  constructor
  next =>
    refine (windowsExact_iff (fun _ => 0) reacMode48k (reacRxRing 48000) events).mpr ?_
    simp only [events, closedSpans, spans, silentFrame_isReac]
    decide
  next =>
    rw [closedWindows_rxRun (fun _ => 0) reacMode48k rfl rfl rfl events]
    simp only [events, closedSpans, spans, silentFrame_isReac]
    decide

-- A capture of two frames, replayed: the second pass starts at the counter before the last one.
theorem windowsExact_rewind :
    let events := [.frame (silentFrame 7) 0, .frame (silentFrame 8) 250000, .rewind,
      .frame (silentFrame 7) 250000000]
    let log := (rxRun (fun _ => 0) reacMode48k (rxStart (reacRxRing 48000 : ReacRing Nat)) events).2
    closedWindows log = [(65536, 2)] ∧ ¬ WindowsExact log := by
  intro events log
  have windows : closedWindows log = [(65536, 2)] := by
    rw [closedWindows_rxRun (fun _ => 0) reacMode48k rfl rfl rfl events]
    simp only [events, closedSpans, spans, silentFrame_isReac]
    decide
  refine ⟨windows, fun exact => ?_⟩
  have equal := exact (65536, 2) (by rw [windows]; simp)
  simp at equal

end ReacAes67
