import Mathlib.Data.List.Flatten
import Mathlib.Data.List.Infix
import ReacAes67.PwProgress
import ReacAes67.SinkNode

set_option autoImplicit false

/-!
# A playback node heard by a capture node

The frames that the playback node sends wait on a wire that may lose any of
them. The feeder of a capture node takes them off it, while the graph plays
into the one node and listens to the other.
-/

namespace ReacAes67

open OwnSteps SampleBlock Windows

variable {α : Type}

/-- Both nodes and the wire; `pending` are the samples that `on_process` of the sink has yet to stage. -/
structure LoopbackWorld (α : Type) where
  pw : PwWorld α
  sink : SinkNode α
  pending : List ((Nat → α) × Int)
  staged : List ((Nat → α) × Int)
  cycles : List (SinkCycle α)
  sent : List SentFrame
  wire : List (List UInt8)

inductive LoopbackEvent (α : Type) where
  | playback (cycle : SinkCycle α)
  | sample
  | lost (i : Nat)
  | receive
  | feeder
  | process (duration : UInt64) (linked : Nat → Bool) (dst : Nat → Nat → α)
  | graph

section Steps

variable [Zero α] (q : Quantizer α) (toFloat : Sample → α) (mode : ReacMode)

-- One turn of the sink's loop. A frame that `sendto` refuses never gets onto the wire.
def sampleStep (w : LoopbackWorld α) : LoopbackWorld α :=
  match w.pending with
  | [] => w
  | row :: pending =>
    let next := stageSample q w.sink row
    { w with
      sink := next.1
      pending := pending
      staged := w.staged ++ [row]
      sent := w.sent ++ next.2
      wire := w.wire ++ (next.2.filter fun frame => 0 ≤ frame.result).map SentFrame.frame }

def receiveStep (w : LoopbackWorld α) : LoopbackWorld α :=
  match w.wire, w.pw.feeding with
  | buf :: wire, none => { w with pw := takeFrame toFloat mode w.pw (buf.take rxFrameBytes), wire := wire }
  | _, _ => w

def loopbackStep (w : LoopbackWorld α) : LoopbackEvent α → LoopbackWorld α
  | .playback cycle =>
    if w.pending.isEmpty then
      { w with pending := cycle.rows w.sink.channels, cycles := w.cycles ++ [cycle] }
    else w
  | .sample => sampleStep q w
  | .lost i => { w with wire := w.wire.eraseIdx i }
  | .receive => receiveStep toFloat mode w
  | .feeder => { w with pw := feederStep w.pw }
  | .process duration linked dst => { w with pw := pwStep toFloat mode w.pw (.process duration linked dst) }
  | .graph => { w with pw := graphStep w.pw }

def loopbackRun (w : LoopbackWorld α) (events : List (LoopbackEvent α)) : LoopbackWorld α :=
  events.foldl (loopbackStep q toFloat mode) w

end Steps

def loopbackStart [Zero α] (channels : Int) (src : Fin 6 → UInt8) (sampleRate : Nat) : LoopbackWorld α :=
  { pw := pwStart sampleRate, sink := reacSinkNodeNew channels src
    pending := [], staged := [], cycles := [], sent := [], wire := [] }

/-! ## A row on its way through a frame -/

-- What the capture node hears for a row that was played.
def carried [Zero α] (q : Quantizer α) (toFloat : Sample → α) (channels : Int) (row : Nat → α) : Nat → α :=
  fun (c : Nat) => toFloat (f32ToS24le q (if (c : Int) < channels then row c else 0))

-- A row as the samples of the channels there are.
def samplesOf (row : Nat → α) : List α := (List.range reacMaxChannels).map row

theorem samplesOf_eq_iff {left right : Nat → α} :
    samplesOf left = samplesOf right ↔ ∀ c < reacMaxChannels, left c = right c := by
  simp [samplesOf, List.map_inj_left]

section Frames

variable [Zero α] (q : Quantizer α)

theorem txAudio_slot (planar : Planar α) (nch : Int) {ch s : Nat} (channel : ch < reacMaxChannels)
    (time : s < reacSamplesPerPkt) :
    (txAudio q planar nch reacSamplesPerPkt).sample (s * reacMaxChannels + ch) =
      f32ToS24le q (txValue planar nch ch s) :=
  sample_store_grid _ reacMaxChannels (fun cell => f32ToS24le q (txValue planar nch cell.2 cell.1))
    Block.blank time channel

theorem streamFrame_wellFormed (channels : Int) (src : Fin 6 → UInt8) (streams : Nat → List α) (k : Nat) :
    wellFormedFrame (streamFrame q channels src streams k) = true := by
  rw [wellFormedFrame, streamFrame, reacTxBuild_wireFrame, wireFrame_inspect]

theorem streamFrame_length (channels : Int) (src : Fin 6 → UInt8) (streams : Nat → List α) (k : Nat) :
    (streamFrame q channels src streams k).length = reacFrameBytes := by
  rw [streamFrame, reacTxBuild_wireFrame, wireFrame_length]

/-- A frame of a stream decodes to the twelve rows it was cut from. -/
theorem frameRows_streamFrame (toFloat : Sample → α) (sampleRate : Nat) (channels : Int)
    (src : Fin 6 → UInt8) (stream : List (Nat → α)) {k : Nat}
    (whole : (k + 1) * reacSamplesPerPkt ≤ stream.length) :
    (frameRows toFloat (broadcastMode sampleRate)
        (streamFrame q channels src (fun c => stream.map fun row => row c) k)).map samplesOf =
      ((stream.drop (k * reacSamplesPerPkt)).take reacSamplesPerPkt).map
        fun row => samplesOf (carried q toFloat channels row) := by
  have twelve : reacSamplesPerPkt = 12 := rfl
  have inside (t : Nat) (time : t < reacSamplesPerPkt) : k * reacSamplesPerPkt + t < stream.length := by
    rw [Nat.succ_mul] at whole
    omega
  apply List.ext_getElem
  next =>
    have block : (12 : UInt32).toNat = 12 := rfl
    simp only [frameRows, List.length_map, planarRows_length, List.length_take, List.length_drop, twelve,
      block] at whole ⊢
    omega
  next =>
    intro t left right
    have time : t < 12 := by simpa [frameRows] using left
    simp only [frameRows, planarRows, List.getElem_map, List.getElem_range, List.getElem_take,
      List.getElem_drop]
    rw [samplesOf_eq_iff]
    intro c channel
    have slot := wireFrame_audioSlot (broadcastMode sampleRate) (broadcastMode_fillsFrame sampleRate).fits
      (txMacs src) (UInt16.ofNat k) (txAudio q (fun c : Nat => if (c : Int) < channels then
        some fun t => (stream.map fun row => row c).getD (reacSamplesPerPkt * k + t) 0 else none) channels
        reacSamplesPerPkt) channel time
    have position : reacSamplesPerPkt * k + t = k * reacSamplesPerPkt + t := by ring
    have sample := (decoded_sample (broadcastMode sampleRate) _ channel time).trans slot
    rw [← reacTxBuild_wireFrame] at sample
    have value := sample.trans (txAudio_slot q _ channels channel time)
    rw [carried]
    refine congrArg toFloat (value.trans (congrArg (f32ToS24le q) ?_))
    by_cases wanted : (c : Int) < channels
    next =>
      simp [txValue, wanted, position, List.getD_eq_getElem?_getD, List.getElem?_eq_getElem (inside t time)]
    next => simp [txValue, wanted]

end Frames

-- The ring takes the beginning of each frame.
theorem grantedRows_sublist {β γ : Type} (rows : β → List γ) (frames : List β) (grants : List UInt32) :
    ((frames.zip grants).flatMap fun p => (rows p.1).take p.2.toNat).Sublist (frames.flatMap rows) := by
  induction frames generalizing grants with
  | nil => simp
  | cons frame frames ih =>
    cases grants with
    | nil => simp
    | cons w grants =>
      rw [List.zip_cons_cons, List.flatMap_cons, List.flatMap_cons]
      exact (List.take_sublist _ _).append (ih grants)

theorem grantedRows_whole {β γ : Type} (rows : β → List γ) (short : ∀ frame, (rows frame).length ≤ 12)
    (frames : List β) (grants : List UInt32) (count : grants.length = frames.length)
    (full : (grants.map fun w => 12 - w.toNat).sum = 0) :
    ((frames.zip grants).flatMap fun p => (rows p.1).take p.2.toNat) = frames.flatMap rows := by
  induction frames generalizing grants with
  | nil => simp
  | cons frame frames ih =>
    cases grants with
    | nil => simp at count
    | cons w grants =>
      rw [List.map_cons, List.sum_cons] at full
      have whole : (rows frame).take w.toNat = rows frame := by
        have bound := short frame
        exact List.take_of_length_le (by omega)
      rw [List.zip_cons_cons, List.flatMap_cons, List.flatMap_cons, whole,
        ih grants (by simpa using count) (by omega)]

theorem frameRows_length (toFloat : Sample → α) (mode : ReacMode) (buf : List UInt8) :
    (frameRows toFloat mode buf).length = 12 := by
  simp [frameRows]

-- A longer stream with the same samples is heard the same.
theorem InOrder.of_prefix [Zero α] {left right : List (Nat → α)}
    (same : left.map samplesOf <+: right.map samplesOf) {heard : List (Heard α)} {upto : Nat}
    (inOrder : InOrder left heard upto) : InOrder right heard upto := by
  have shorter : left.length ≤ right.length := by simpa using same.length_le
  induction inOrder with
  | nil => exact .nil
  | @snoc earlier upto start h _ onward hears ih =>
    refine .snoc ih onward { hears with inside := hears.inside.trans shorter, samples := ?_ }
    intro c s row channel linked sample member
    have inside : start + s < left.length := lt_of_lt_of_le (by omega) hears.inside
    have here := same.getElem (i := start + s) (by rwa [List.length_map])
    simp only [List.getElem_map] at here
    rw [samplesOf_eq_iff] at here
    obtain ⟨_, rfl⟩ := List.getElem?_eq_some_iff.mp member
    rw [← here c channel]
    exact hears.samples c s _ channel linked sample (List.getElem?_eq_getElem inside)

-- Only the feeder takes frames.
section Taken

variable {toFloat : Sample → α} {mode : ReacMode} (pw : PwWorld α)

theorem takeFrame_taken {buf : List UInt8} (valid : wellFormedFrame buf = true) :
    (takeFrame toFloat mode pw buf).taken = pw.taken ++ [buf] := by
  have reac : isReac buf = true := (valid_isReac valid).1
  simp only [takeFrame, reac, Bool.not_true, Bool.false_eq_true, if_false]
  split <;> rfl

theorem feederStep_taken : (feederStep pw).taken = pw.taken := by
  unfold feederStep
  split
  next => rfl
  next =>
    dsimp only
    split <;> rfl

theorem graphStep_taken [Zero α] : (graphStep pw).taken = pw.taken := by
  unfold graphStep
  split
  next => rfl
  next =>
    dsimp only
    split <;> rfl
  next => rfl

theorem process_taken [Zero α] (duration : UInt64) (linked : Nat → Bool)
    (dst : Nat → Nat → α) : (pwStep toFloat mode pw (.process duration linked dst)).taken = pw.taken := by
  simp only [pwStep]
  split
  next =>
    simp only [startCycle]
    split <;> rfl
  next => rfl
  next => rfl

end Taken

/-! ## Both nodes at once -/

/-- What the capture node has heard of what was played. -/
structure LoopbackWorld.Echoes [Zero α] (q : Quantizer α) (toFloat : Sample → α) (channels : Int)
    (w : LoopbackWorld α) : Prop where
  heard : ∃ upto, InOrder (accepted w.pw.ring.log) w.pw.heard upto
  order : ((accepted w.pw.ring.log).map samplesOf).Sublist
    ((contributed channels w.cycles).map fun row => samplesOf (carried q toFloat channels row))
  clean : w.pw.framesBad = 0
  whole : w.pw.taken.length + w.wire.length = w.sent.length → shortfall w.pw.ring.log = 0 →
    ∃ upto, InOrder ((contributed channels w.cycles).map (carried q toFloat channels)) w.pw.heard upto

/-- What is played goes out as a frame for every twelve samples, what waits on the wire is taken and fed as far
as the ring has room, and a cycle hears as much as there is, whatever the others are in the middle of. -/
structure LoopbackWorld.Progresses [Zero α] (q : Quantizer α) (toFloat : Sample → α) (mode : ReacMode)
    (channels : Int) (w : LoopbackWorld α) : Prop where
  rows : w.staged ++ w.pending = w.cycles.flatMap (SinkCycle.rows channels)
  sent : w.sent.length = w.staged.length / reacSamplesPerPkt
  plays : ∀ cycle, w.pending = [] →
    (loopbackStep q toFloat mode w (.playback cycle)).cycles = w.cycles ++ [cycle]
  stages : ∃ w' more, Reaches (loopbackStep q toFloat mode · .sample) w w' ∧ w'.pending = [] ∧
    w'.cycles = w.cycles ∧ w'.pw = w.pw ∧ w'.sent = w.sent ++ more ∧
    w'.wire = w.wire ++ (more.filter fun frame => 0 ≤ frame.result).map SentFrame.frame
  receives : ∀ buf wire, w.wire = buf :: wire → w.pw.feeding = none → ∃ w' took,
    Reaches (loopbackStep q toFloat mode · .feeder) (loopbackStep q toFloat mode w .receive) w' ∧
      w'.wire = wire ∧ w'.pw.feeding = none ∧ w'.pw.fed = w.pw.fed ++ [buf] ∧
      granted w'.pw.ring.log = granted w.pw.ring.log ++ [took] ∧
      took.toNat = min 12 (w.pw.ring.ring.mask.toNat - (reacRingReadable w.pw.ring.ring).toNat)
  hears : ∀ duration linked dst, w.pw.processing = .idle → (∃ c < reacMaxChannels, linked c = true) →
    ∃ w' real out, Reaches (loopbackStep q toFloat mode · .graph)
        (loopbackStep q toFloat mode w (.process duration linked dst)) w' ∧ w'.pw.processing = .idle ∧
      w'.pw.heard = w.pw.heard ++ [⟨clampQuantum duration, real, linked, out⟩] ∧
      real.toNat = min (reacRingReadable w.pw.ring.ring).toNat (clampQuantum duration).toNat

-- The turns of the sink's loop for the samples it has in front of it.
theorem sampleStep_stages [Zero α] (q : Quantizer α) (w : LoopbackWorld α) : ∃ w' more,
    Reaches (sampleStep q) w w' ∧ w'.pending = [] ∧ w'.cycles = w.cycles ∧ w'.pw = w.pw ∧
      w'.sent = w.sent ++ more ∧
      w'.wire = w.wire ++ (more.filter fun frame => 0 ≤ frame.result).map SentFrame.frame := by
  induction due : w.pending generalizing w with
  | nil => exact ⟨w, [], .refl w, due, rfl, rfl, (List.append_nil _).symm, (List.append_nil _).symm⟩
  | cons row pending ih =>
    let next := stageSample q w.sink row
    let staged : LoopbackWorld α :=
      { w with
        sink := next.1
        pending := pending
        staged := w.staged ++ [row]
        sent := w.sent ++ next.2
        wire := w.wire ++ (next.2.filter fun frame => 0 ≤ frame.result).map SentFrame.frame }
    have step : sampleStep q w = staged := by
      rw [sampleStep, due]
    obtain ⟨w', more, reached, done, cycles, pw, sent, wire⟩ := ih staged rfl
    refine ⟨w', next.2 ++ more, Reaches.head (step ▸ reached), done, cycles, pw, ?_, ?_⟩
    next => rw [sent, ← List.append_assoc]
    next => rw [wire, List.filter_append, List.map_append, ← List.append_assoc]

structure LoopbackWorld.Holds [Zero α] (q : Quantizer α) (toFloat : Sample → α) (channels : Int)
    (src : Fin 6 → UInt8) (mode : ReacMode) (w : LoopbackWorld α) (k : Nat) : Prop where
  pw : w.pw.Holds toFloat mode k
  run : (w.sink, w.sent) = Mealy.run (stageSample q) (reacSinkNodeNew channels src) w.staged
  rows : w.staged ++ w.pending = w.cycles.flatMap (SinkCycle.rows (sinkChannels channels))
  width : w.sink.channels = sinkChannels channels
  wire : (w.pw.taken ++ w.wire).Sublist (w.sent.map SentFrame.frame)

section Invariant

variable [Zero α] {q : Quantizer α} {toFloat : Sample → α} {channels : Int} {src : Fin 6 → UInt8}
  {sampleRate : Nat} {w : LoopbackWorld α} {k : Nat}

-- The frames sent so far are those of the samples staged so far.
theorem LoopbackWorld.Holds.frames (holds : w.Holds q toFloat channels src (broadcastMode sampleRate) k) :
    let stream := w.staged.map Prod.fst
    w.sent.map SentFrame.frame = (List.range (stream.length / reacSamplesPerPkt)).map
      (streamFrame q (sinkChannels channels) src fun c => stream.map fun row => row c) := by
  intro stream
  have start := reacSinkNodeNew_stages (α := α) channels src
  obtain ⟨_, sent⟩ := stageRun_windows q start (Nat.succ_pos 11) w.staged
  rw [← holds.run] at sent
  exact sent.trans (windowFrames_stream q _ src stream)

theorem LoopbackWorld.Holds.onWire (holds : w.Holds q toFloat channels src (broadcastMode sampleRate) k)
    {buf : List UInt8} (member : buf ∈ w.pw.taken ++ w.wire) :
    wellFormedFrame buf = true ∧ buf.length = reacFrameBytes := by
  have sent := holds.wire.subset member
  rw [holds.frames] at sent
  obtain ⟨k, _, rfl⟩ := List.mem_map.mp sent
  exact ⟨streamFrame_wellFormed q _ src _ k, streamFrame_length q _ src _ k⟩

theorem LoopbackWorld.Holds.sample (holds : w.Holds q toFloat channels src (broadcastMode sampleRate) k) :
    (sampleStep q w).Holds q toFloat channels src (broadcastMode sampleRate) k := by
  unfold sampleStep
  cases due : w.pending with
  | nil => exact holds
  | cons row pending =>
    have rows := holds.rows
    rw [due] at rows
    have run := Mealy.run_append (stageSample q) (reacSinkNodeNew channels src) w.staged [row]
    rw [← holds.run] at run
    exact {
      pw := holds.pw
      run := by simpa using run.symm
      rows := by simpa using rows
      width := (stageSample_keeps q w.sink row).2.trans holds.width
      wire := by
        dsimp only
        rw [← List.append_assoc, List.map_append]
        exact holds.wire.append (List.filter_sublist.map _) }

theorem LoopbackWorld.Holds.receive (holds : w.Holds q toFloat channels src (broadcastMode sampleRate) k) :
    (receiveStep toFloat (broadcastMode sampleRate) w).Holds q toFloat channels src
      (broadcastMode sampleRate) k := by
  unfold receiveStep
  split
  next buf wire waits waiting =>
    have member : buf ∈ w.pw.taken ++ w.wire := by simp [waits]
    obtain ⟨valid, length⟩ := holds.onWire member
    have whole : buf.take rxFrameBytes = buf := List.take_of_length_le (by rw [length]; decide)
    have moved := holds.wire
    rw [waits] at moved
    rw [whole]
    exact { holds with
      pw := holds.pw.takeFrame waiting buf
      wire := by simpa [takeFrame_taken w.pw valid] using moved }
  next => exact holds

theorem LoopbackWorld.Holds.step (holds : w.Holds q toFloat channels src (broadcastMode sampleRate) k)
    (event : LoopbackEvent α) :
    (loopbackStep q toFloat (broadcastMode sampleRate) w event).Holds q toFloat channels src
      (broadcastMode sampleRate) k := by
  cases event with
  | playback cycle =>
    simp only [loopbackStep]
    split
    next idle =>
      have rows := holds.rows
      rw [List.isEmpty_iff.mp idle, List.append_nil] at rows
      exact { holds with
        rows := by simp [rows, holds.width] }
    next => exact holds
  | sample => exact holds.sample
  | lost i =>
    exact { holds with
      wire := ((List.Sublist.refl _).append (List.eraseIdx_sublist _ _)).trans holds.wire }
  | receive => exact holds.receive
  | feeder =>
    exact { holds with
      pw := holds.pw.feederStep
      wire := by simpa only [loopbackStep, feederStep_taken] using holds.wire }
  | process duration linked dst =>
    exact { holds with
      pw := holds.pw.pwStep (.process duration linked dst)
      wire := by simpa only [loopbackStep, process_taken] using holds.wire }
  | graph =>
    exact { holds with
      pw := holds.pw.graphStep
      wire := by simpa only [loopbackStep, graphStep_taken] using holds.wire }

theorem LoopbackWorld.Holds.loopbackRun (holds : w.Holds q toFloat channels src (broadcastMode sampleRate) k)
    (events : List (LoopbackEvent α)) :
    (loopbackRun q toFloat (broadcastMode sampleRate) w events).Holds q toFloat channels src
      (broadcastMode sampleRate) k := by
  induction events generalizing w with
  | nil => exact holds
  | cons event events ih => exact ih (holds.step event)

theorem loopbackStart_holds (q : Quantizer α) (toFloat : Sample → α) (channels : Int) (src : Fin 6 → UInt8)
    (standard : sampleRate ∈ standardRates) :
    ∃ k, (loopbackStart channels src sampleRate : LoopbackWorld α).Holds q toFloat channels src
      (broadcastMode sampleRate) k := by
  obtain ⟨k, holds⟩ := pwStart_holds toFloat standard
  exact ⟨k, holds, rfl, rfl, rfl, .slnil⟩

-- The samples in the frames sent so far are the samples played so far, up to the last whole frame.
theorem LoopbackWorld.Holds.sentRows (holds : w.Holds q toFloat channels src (broadcastMode sampleRate) k) :
    ((w.sent.map SentFrame.frame).flatMap (frameRows toFloat (broadcastMode sampleRate))).map samplesOf <+:
      (contributed (sinkChannels channels) w.cycles).map
        fun row => samplesOf (carried q toFloat (sinkChannels channels) row) := by
  have played : contributed (sinkChannels channels) w.cycles =
      w.staged.map Prod.fst ++ w.pending.map Prod.fst := by
    rw [contributed, ← holds.rows, List.map_append]
  have frames := holds.frames
  generalize w.staged.map Prod.fst = stream at frames played
  have pieces : (List.range (stream.length / reacSamplesPerPkt)).flatMap (fun k =>
      (frameRows toFloat (broadcastMode sampleRate) (streamFrame q (sinkChannels channels) src
        (fun c => stream.map fun row => row c) k)).map samplesOf) =
      (stream.take (stream.length / reacSamplesPerPkt * reacSamplesPerPkt)).map
        fun row => samplesOf (carried q toFloat (sinkChannels channels) row) := by
    rw [← flatMap_pieces, List.map_flatMap]
    apply List.flatMap_congr
    intro k member
    have whole := Nat.mul_le_of_le_div _ _ _ (Nat.succ_le_of_lt (List.mem_range.mp member))
    exact frameRows_streamFrame q toFloat sampleRate _ src stream whole
  rw [frames, List.flatMap_map, List.map_flatMap, pieces, played]
  exact ((List.take_prefix _ _).trans (List.prefix_append _ _)).map _

theorem LoopbackWorld.Holds.echoes (holds : w.Holds q toFloat channels src (broadcastMode sampleRate) k) :
    w.Echoes q toFloat (sinkChannels channels) := by
  have good : ∀ buf ∈ w.pw.taken, wellFormedFrame buf = true :=
    fun buf member => (holds.onWire (List.mem_append_left _ member)).1
  have fed : w.pw.fed <+: w.pw.taken := by
    rw [← List.filter_eq_self.mpr good, holds.pw.frames]
    exact List.prefix_append _ _
  have sentRows := holds.sentRows
  obtain ⟨upto, _, inOrder⟩ := holds.pw.heard
  refine ⟨⟨upto, inOrder⟩, ?_, ?_, ?_⟩
  next =>
    have sent : w.pw.fed.Sublist (w.sent.map SentFrame.frame) :=
      fed.sublist.trans ((List.sublist_append_left _ _).trans holds.wire)
    rw [holds.pw.stream]
    exact (((grantedRows_sublist _ _ _).trans (sent.flatMap _)).map samplesOf).trans sentRows.sublist
  next =>
    rw [holds.pw.bad, List.countP_eq_zero]
    intro buf member
    simp [good buf member]
  next =>
    intro nothingLost full
    have all : w.pw.taken ++ w.wire = w.sent.map SentFrame.frame :=
      holds.wire.eq_of_length (by simpa using nothingLost)
    have sent : w.pw.fed <+: w.sent.map SentFrame.frame := by
      rw [← all]
      exact fed.trans (List.prefix_append _ _)
    have rows := grantedRows_whole (frameRows toFloat (broadcastMode sampleRate))
      (fun buf => (frameRows_length toFloat _ buf).le) w.pw.fed _ holds.pw.grants.1 full
    rw [← holds.pw.stream] at rows
    refine ⟨upto, inOrder.of_prefix ?_⟩
    rw [rows, List.map_map]
    exact ((sent.flatMap _).map samplesOf).trans sentRows

theorem LoopbackWorld.Holds.progresses (holds : w.Holds q toFloat channels src (broadcastMode sampleRate) k) :
    w.Progresses q toFloat (broadcastMode sampleRate) (sinkChannels channels) where
  rows := holds.rows
  sent := by simpa using congrArg List.length holds.frames
  plays cycle idle := by simp [loopbackStep, idle]
  stages := sampleStep_stages q w
  receives buf wire waits waiting := by
    have member : buf ∈ w.pw.taken ++ w.wire := by simp [waits]
    obtain ⟨valid, length⟩ := holds.onWire member
    have whole : buf.take rxFrameBytes = buf := List.take_of_length_le (by rw [length]; decide)
    obtain ⟨pw', took, reached, idle, fed, grants, count⟩ := feeder_feeds holds.pw waiting valid
    have starts : loopbackStep q toFloat (broadcastMode sampleRate) w .receive =
        { w with pw := takeFrame toFloat (broadcastMode sampleRate) w.pw buf, wire := wire } := by
      simp only [loopbackStep, receiveStep, waits, waiting, whole]
    let part (pw : PwWorld α) : LoopbackWorld α := { w with pw := pw, wire := wire }
    have step (pw : PwWorld α) :
        loopbackStep q toFloat (broadcastMode sampleRate) (part pw) .feeder = part (feederStep pw) := rfl
    rw [starts]
    exact ⟨part pw', took, reached.lift part step, rfl, idle, fed, grants, count⟩
  hears duration linked dst waiting some_port := by
    obtain ⟨pw', real, out, reached, idle, heard, count⟩ :=
      holds.pw.progresses.hears duration linked dst waiting some_port
    let part (pw : PwWorld α) : LoopbackWorld α := { w with pw := pw }
    have step (pw : PwWorld α) : loopbackStep q toFloat (broadcastMode sampleRate) (part pw) .graph =
        part (pwStep toFloat (broadcastMode sampleRate) pw .graph) := rfl
    exact ⟨part pw', real, out, reached.lift part step, idle, heard, count⟩

end Invariant

/-- Whatever is lost on the way, what is heard was played, in this order and in these channels, and nobody waits
for another to play, send, take or hear what there is. -/
theorem loopback_echoes [Zero α] (q : Quantizer α) (toFloat : Sample → α) (channels : Int)
    (src : Fin 6 → UInt8) (sampleRate : Nat) (standard : sampleRate ∈ standardRates)
    (events : List (LoopbackEvent α)) :
    let w := loopbackRun q toFloat (broadcastMode sampleRate) (loopbackStart channels src sampleRate) events
    w.Echoes q toFloat (sinkChannels channels) ∧
      w.Progresses q toFloat (broadcastMode sampleRate) (sinkChannels channels) := by
  intro w
  obtain ⟨k, holds⟩ := loopbackStart_holds q toFloat channels src standard
  exact ⟨(holds.loopbackRun events).echoes, (holds.loopbackRun events).progresses⟩

abbrev ExactSample := {x : Int // Signed24 x}

def playedCycle : SinkCycle ExactSample :=
  ⟨12, fun _ => some fun _ => ⟨-5, by decide, by decide⟩, fun _ => 1492⟩

-- Two frames are played. The first is heard while the second is written to the ring.
def echoedCycles : List (LoopbackEvent ExactSample) :=
  [.playback playedCycle] ++ List.replicate 12 .sample ++
    [.playback playedCycle] ++ List.replicate 12 .sample ++
    [.receive] ++ List.replicate 540 .feeder ++ [.receive, .process 8 (fun _ => true) fun _ _ => 0] ++
    (List.replicate 700 [LoopbackEvent.feeder, .graph]).flatten

theorem loopback_echoes_twoFrames :
    let toFloat (x : Sample) : ExactSample := ⟨load24 x, load24_signed x⟩
    let w := loopbackRun exactQuantizer toFloat (broadcastMode 48000) (loopbackStart 40 (fun _ => 0) 48000)
      echoedCycles
    w.Echoes exactQuantizer toFloat (sinkChannels 40) ∧ w.sent.length = 2 ∧ w.pw.framesOk = 2 ∧
      w.pw.heard.map (fun h => (h.nframes, h.real, (h.port 0 0).1, (h.port 39 7).1)) = [(8, 8, -5, -5)] := by
  intro toFloat w
  have counted : (w.sent.length, w.pw.framesOk,
      w.pw.heard.map fun h => (h.nframes, h.real, (h.port 0 0).1, (h.port 39 7).1)) =
        (2, 2, [(8, 8, -5, -5)]) := by decide +kernel
  obtain ⟨sent, counted⟩ := Prod.mk.inj counted
  obtain ⟨ok, heard⟩ := Prod.mk.inj counted
  have echoes := loopback_echoes exactQuantizer toFloat 40 (fun _ => 0) 48000 (by decide) echoedCycles
  exact ⟨echoes.1, sent, ok, heard⟩

end ReacAes67
