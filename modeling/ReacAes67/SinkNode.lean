import ReacAes67.ReacTx
import ReacAes67.Shared.Mealy
import ReacAes67.Shared.Windows

set_option autoImplicit false

/-!
# The playback node

The process callback stages the samples of its input ports and sends a frame
whenever twelve of them are staged. A quantum may end anywhere in a frame.
-/

namespace ReacAes67

open Windows

variable {α : Type}

structure SinkNode (α : Type) where
  txOpen : Bool
  counter : UInt16
  src : Fin 6 → UInt8
  channels : Int
  stage : Nat → Nat → α
  staged : Nat

/-- What one process callback finds: a buffer for each linked port, and what `sendto` returns for
the frame that a sample completes. -/
structure SinkCycle (α : Type) where
  duration : UInt64
  buffer : Nat → Option (Nat → α)
  sendto : Nat → Int

structure SentFrame where
  frame : List UInt8
  result : Int

def sinkChannels (channels : Int) : Int := if channels > reacMaxChannels then reacMaxChannels else channels

-- `calloc` clears the stage; the configured width is cut to the width of a frame.
def reacSinkNodeNew [Zero α] (channels : Int) (src : Fin 6 → UInt8) : SinkNode α :=
  { txOpen := true
    counter := 0
    src := src
    channels := sinkChannels channels
    stage := fun _ _ => 0
    staged := 0 }

def reacTxEmit [Zero α] (q : Quantizer α) (n : SinkNode α) (planar : Planar α) (ns : Int) (result : Int) :
    SinkNode α × List SentFrame :=
  let frame := reacTxBuild q planar n.channels ns n.counter n.src
  ({ n with counter := n.counter + 1 }, [⟨frame, result⟩])

def stageRow (n : SinkNode α) (row : Nat → α) : SinkNode α :=
  { n with
    stage := fun (c t : Nat) => if (c : Int) < n.channels ∧ t = n.staged then row c else n.stage c t
    staged := n.staged + 1 }

-- One turn of the loop over the samples of a quantum.
def stageSample [Zero α] (q : Quantizer α) (n : SinkNode α) (row : (Nat → α) × Int) :
    SinkNode α × List SentFrame :=
  let filled := stageRow n row.1
  if filled.staged = reacSamplesPerPkt then
    let planar := fun (c : Nat) => if (c : Int) < n.channels then some (filled.stage c) else none
    let emitted := reacTxEmit q filled planar reacSamplesPerPkt row.2
    ({ emitted.1 with staged := 0 }, emitted.2)
  else (filled, [])

def SinkCycle.sample [Zero α] (cycle : SinkCycle α) (c s : Nat) : α :=
  match cycle.buffer c with
  | some b => b s
  | none => 0

/-- `on_process` of the sink. -/
def sinkProcess [Zero α] (q : Quantizer α) (n : SinkNode α) (cycle : SinkCycle α) :
    SinkNode α × List SentFrame :=
  if !n.txOpen then (n, [])
  else
    let nframes := cycle.duration.toUInt32
    let haveCount := (List.range n.channels.toNat).countP fun c => (cycle.buffer c).isSome
    if haveCount = 0 then (n, [])
    else
      Mealy.run (fun n s => stageSample q n (fun c => cycle.sample c s, cycle.sendto s)) n
        (List.range nframes.toNat)

def sinkRun [Zero α] (q : Quantizer α) (n : SinkNode α) (cycles : List (SinkCycle α)) :
    SinkNode α × List SentFrame :=
  Mealy.run (sinkProcess q) n cycles

-- The samples a cycle adds to every channel's stream, none when no port is linked.
def SinkCycle.rows [Zero α] (channels : Int) (cycle : SinkCycle α) : List ((Nat → α) × Int) :=
  if (List.range channels.toNat).any fun c => (cycle.buffer c).isSome then
    (List.range cycle.duration.toUInt32.toNat).map fun s => (fun c => cycle.sample c s, cycle.sendto s)
  else []

theorem sinkProcess_rows [Zero α] (q : Quantizer α) {n : SinkNode α} (running : n.txOpen = true)
    (cycle : SinkCycle α) :
    sinkProcess q n cycle = Mealy.run (stageSample q) n (cycle.rows n.channels) := by
  simp only [sinkProcess, running, Bool.not_true, Bool.false_eq_true, if_false, SinkCycle.rows,
    List.countP_eq_zero, List.any_eq_true]
  by_cases linked : ∃ c ∈ List.range n.channels.toNat, (cycle.buffer c).isSome = true
  next =>
    rw [if_pos linked, if_neg (by push Not; exact linked), Mealy.run_map]
  next =>
    rw [if_neg linked, if_pos (by simpa using linked), Mealy.run_nil]

def windowPlanes [Zero α] (channels : Int) (window : List (Nat → α)) : Planar α := fun c =>
  if (c : Int) < channels then some fun t => (window.getD t fun _ => 0) c else none

/-- Between two samples: `done` frames are sent, the samples of `window` staged. -/
structure SinkNode.Stages (n : SinkNode α) (channels : Int) (src : Fin 6 → UInt8)
    (window : List (Nat → α)) (done : Nat) : Prop where
  running : n.txOpen = true
  width : n.channels = channels
  address : n.src = src
  counter : n.counter = UInt16.ofNat done
  staged : n.staged = window.length
  samples : ∀ (c t : Nat) row, (c : Int) < channels → window[t]? = some row → n.stage c t = row c

theorem reacSinkNodeNew_stages [Zero α] (channels : Int) (src : Fin 6 → UInt8) :
    (reacSinkNodeNew channels src : SinkNode α).Stages (sinkChannels channels) src [] 0 := by
  constructor <;> simp [reacSinkNodeNew]

theorem stageRow_stages {n : SinkNode α} {channels : Int} {src : Fin 6 → UInt8}
    {window : List (Nat → α)} {done : Nat} (stages : n.Stages channels src window done) (row : Nat → α) :
    (stageRow n row).Stages channels src (window ++ [row]) done where
  running := stages.running
  width := stages.width
  address := stages.address
  counter := stages.counter
  staged := by simp [stageRow, stages.staged]
  samples := by
    intro c t other channel member
    simp only [stageRow, stages.width, stages.staged, channel, true_and]
    by_cases last : t = window.length
    next =>
      subst last
      have same : row = other := by simpa using member
      rw [if_pos rfl, same]
    next =>
      have inside : t < window.length := by
        have bound := (List.getElem?_eq_some_iff.mp member).1
        simp only [List.length_append, List.length_singleton] at bound
        omega
      rw [List.getElem?_append_left inside] at member
      rw [if_neg last]
      exact stages.samples c t other channel member

section Framing

variable [Zero α] (q : Quantizer α) {channels : Int} {src : Fin 6 → UInt8}

def windowFrame (channels : Int) (src : Fin 6 → UInt8) (window : List (Nat → α)) (k : Nat) : List UInt8 :=
  reacTxBuild q (windowPlanes channels window) channels reacSamplesPerPkt (UInt16.ofNat k) src

theorem stageSample_more {n : SinkNode α} {window : List (Nat → α)} {done : Nat}
    (stages : n.Stages channels src window done) (more : window.length + 1 < reacSamplesPerPkt)
    (row : (Nat → α) × Int) :
    (stageSample q n row).1.Stages channels src (window ++ [row.1]) done ∧ (stageSample q n row).2 = [] := by
  have filled := stageRow_stages stages row.1
  have unfinished : ¬(stageRow n row.1).staged = reacSamplesPerPkt := by
    rw [filled.staged, List.length_append, List.length_singleton]
    omega
  simp only [stageSample, unfinished, if_false, and_true]
  exact filled

theorem stageSample_full {n : SinkNode α} {window : List (Nat → α)} {done : Nat}
    (stages : n.Stages channels src window done) (last : window.length + 1 = reacSamplesPerPkt)
    (row : (Nat → α) × Int) :
    (stageSample q n row).1.Stages channels src [] (done + 1) ∧
      (stageSample q n row).2 = [⟨windowFrame q channels src (window ++ [row.1]) done, row.2⟩] := by
  have filled := stageRow_stages stages row.1
  have full : (stageRow n row.1).staged = reacSamplesPerPkt := by
    rw [filled.staged, List.length_append, List.length_singleton, last]
  simp only [stageSample, full, if_true]
  constructor
  next =>
    exact {
      running := filled.running
      width := filled.width
      address := filled.address
      counter := by simp [reacTxEmit, filled.counter, UInt16.ofNat_add]
      staged := rfl
      samples := by simp }
  next =>
    have planes (ch s : Nat) (time : s < reacSamplesPerPkt) :
        txValue (fun (c : Nat) => if (c : Int) < channels then some ((stageRow n row.1).stage c) else none)
          channels ch s = txValue (windowPlanes channels (window ++ [row.1])) channels ch s := by
      have member : (window ++ [row.1])[s]? = some ((window ++ [row.1]).getD s fun _ => 0) := by
        have inside : s < (window ++ [row.1]).length := by
          rw [List.length_append, List.length_singleton, last]
          exact time
        rw [List.getElem?_eq_getElem inside, List.getD_eq_getElem _ _ inside]
      by_cases channel : (ch : Int) < channels
      next => simp only [txValue, windowPlanes, channel, if_true, filled.samples ch s _ channel member]
      next => simp only [txValue, channel, if_false]
    have built := reacTxBuild_congr q channels reacSamplesPerPkt (UInt16.ofNat done) src
      fun ch s _ time => planes ch s time
    simp only [reacTxEmit, stages.width, filled.width, filled.counter, filled.address, windowFrame, built]

theorem stageRun_windows {n : SinkNode α} {window : List (Nat → α)} {done : Nat}
    (stages : n.Stages channels src window done) (room : window.length < reacSamplesPerPkt)
    (rows : List ((Nat → α) × Int)) :
    let run := Mealy.run (stageSample q) n rows
    let stream := windows reacSamplesPerPkt window (rows.map Prod.fst)
    run.1.Stages channels src (rest reacSamplesPerPkt window (rows.map Prod.fst)) (done + stream.length) ∧
      run.2.map SentFrame.frame = (stream.zipIdx done).map fun w => windowFrame q channels src w.1 w.2 := by
  induction rows generalizing n window done with
  | nil => exact ⟨stages, rfl⟩
  | cons row rows ih =>
    by_cases more : window.length + 1 < reacSamplesPerPkt
    next =>
      obtain ⟨next, silent⟩ := stageSample_more q stages more row
      have later := ih next (by simpa using more)
      simpa only [Mealy.run_cons, silent, List.nil_append, List.map_cons, windows, rest, if_pos more]
        using later
    next =>
      obtain ⟨next, sent⟩ := stageSample_full q stages (by omega) row
      have later := ih next (Nat.succ_pos 11)
      simp only [Mealy.run_cons, sent, List.map_cons, windows, rest, if_neg more, List.zipIdx_cons,
        List.length_cons, List.cons_append, List.nil_append]
      rw [Nat.add_comm _ 1, ← Nat.add_assoc]
      exact ⟨later.1, by rw [later.2]⟩

theorem stageSample_keeps (n : SinkNode α) (row : (Nat → α) × Int) :
    (stageSample q n row).1.txOpen = n.txOpen ∧ (stageSample q n row).1.channels = n.channels := by
  simp only [stageSample]
  split <;> exact ⟨rfl, rfl⟩

end Framing

-- The samples contributed over all cycles, a row at a time and a channel at a time.
def contributed [Zero α] (channels : Int) (cycles : List (SinkCycle α)) : List (Nat → α) :=
  (cycles.flatMap (SinkCycle.rows channels)).map Prod.fst

def channelStream [Zero α] (channels : Int) (cycles : List (SinkCycle α)) (c : Nat) : List α :=
  (contributed channels cycles).map fun row => row c

theorem sinkRun_rows [Zero α] (q : Quantizer α) {n : SinkNode α} (running : n.txOpen = true)
    (cycles : List (SinkCycle α)) :
    sinkRun q n cycles =
      Mealy.run (stageSample q) n (cycles.flatMap (SinkCycle.rows n.channels)) := by
  apply Mealy.run_flatMap (sinkProcess q) (stageSample q) (SinkCycle.rows n.channels)
    (fun other => other.txOpen = true ∧ other.channels = n.channels)
  next =>
    intro other row same
    have kept := stageSample_keeps q other row
    exact ⟨kept.1.trans same.1, kept.2.trans same.2⟩
  next =>
    intro other cycle same
    rw [sinkProcess_rows q same.1, same.2]
  next => exact ⟨running, rfl⟩

-- Frame `k` of the streams: samples `12 * k` to `12 * k + 11` of every channel.
def streamFrame [Zero α] (q : Quantizer α) (channels : Int) (src : Fin 6 → UInt8) (streams : Nat → List α)
    (k : Nat) : List UInt8 :=
  let planes := fun (c : Nat) =>
    if (c : Int) < channels then some fun t => (streams c).getD (reacSamplesPerPkt * k + t) 0 else none
  reacTxBuild q planes channels reacSamplesPerPkt (UInt16.ofNat k) src

/-- What a run has sent and keeps staged, for the streams its cycles contributed. -/
structure Framed [Zero α] (q : Quantizer α) (channels : Int) (src : Fin 6 → UInt8) (total : Nat)
    (streams : Nat → List α) (run : SinkNode α × List SentFrame) : Prop where
  count : run.2.length = total / reacSamplesPerPkt
  frames : ∀ k sent, run.2[k]? = some sent → sent.frame = streamFrame q channels src streams k
  counters : ∀ k sent, run.2[k]? = some sent → reacFrameInspect sent.frame = ⟨UInt16.ofNat k, true⟩
  samples : ∀ k sent sampleRate out, run.2[k]? = some sent →
    ∃ planes, reacDecode sent.frame (broadcastMode sampleRate) out = some (reacSamplesPerPkt, planes) ∧
      ∀ c t v, c < reacMaxChannels → t < reacSamplesPerPkt → (c : Int) < channels →
        (streams c)[reacSamplesPerPkt * k + t]? = some v →
        load24 (planes.sample (c * reacSamplesPerPkt + t)) = q.quantize v
  staged : run.1.staged = total % reacSamplesPerPkt
  kept : ∀ (c t : Nat) v, (c : Int) < channels → t < run.1.staged →
    (streams c)[total / reacSamplesPerPkt * reacSamplesPerPkt + t]? = some v → run.1.stage c t = v

theorem windowFrame_stream [Zero α] (q : Quantizer α) (channels : Int) (src : Fin 6 → UInt8)
    (stream : List (Nat → α)) (k : Nat) :
    windowFrame q channels src ((stream.drop (k * reacSamplesPerPkt)).take reacSamplesPerPkt) k =
      streamFrame q channels src (fun c => stream.map fun row => row c) k := by
  rw [windowFrame, streamFrame]
  apply reacTxBuild_congr
  intro ch s _ time
  by_cases channel : (ch : Int) < channels
  next =>
    have position : k * reacSamplesPerPkt + s = reacSamplesPerPkt * k + s := by ring
    simp only [txValue, windowPlanes, channel, if_true, List.getD_eq_getElem?_getD,
      List.getElem?_take_of_lt time, List.getElem?_drop, position, List.getElem?_map]
    cases stream[reacSamplesPerPkt * k + s]? with
    | none => rfl
    | some row => rfl
  next => simp only [txValue, channel, if_false]

theorem windowFrames_stream [Zero α] (q : Quantizer α) (channels : Int) (src : Fin 6 → UInt8)
    (stream : List (Nat → α)) :
    ((windows reacSamplesPerPkt [] stream).zipIdx 0).map (fun w => windowFrame q channels src w.1 w.2) =
      (List.range (stream.length / reacSamplesPerPkt)).map
        (streamFrame q channels src fun c => stream.map fun row => row c) := by
  have positive : 0 < reacSamplesPerPkt := Nat.succ_pos 11
  have count := windows_length _ positive [] stream positive
  rw [List.length_nil, Nat.zero_add] at count
  apply List.ext_getElem?
  intro k
  by_cases inside : k < stream.length / reacSamplesPerPkt
  next =>
    have whole := Nat.mul_le_of_le_div _ _ _ (Nat.succ_le_of_lt inside)
    have window := windows_getElem? reacSamplesPerPkt positive [] stream positive k (by simpa using whole)
    simp only [List.getElem?_map, List.getElem?_zipIdx, window, Option.map_some, Nat.zero_add,
      List.nil_append, List.getElem?_range inside, Option.some.injEq]
    exact windowFrame_stream q channels src stream k
  next =>
    rw [List.getElem?_eq_none (by simpa [count] using inside), List.getElem?_eq_none (by simpa using inside)]

-- The node after a run, with the rows since the last whole frame staged.
theorem sinkRun_stages [Zero α] (q : Quantizer α) (channels : Int) (src : Fin 6 → UInt8)
    (cycles : List (SinkCycle α)) :
    let stream := contributed (sinkChannels channels) cycles
    let run := sinkRun q (reacSinkNodeNew channels src) cycles
    (∃ done, run.1.Stages (sinkChannels channels) src (rest reacSamplesPerPkt [] stream) done) ∧
      run.2.map SentFrame.frame = (List.range (stream.length / reacSamplesPerPkt)).map
        (streamFrame q (sinkChannels channels) src (channelStream (sinkChannels channels) cycles)) := by
  intro stream run
  have start := reacSinkNodeNew_stages (α := α) channels src
  have rows := sinkRun_rows q start.running cycles
  rw [start.width] at rows
  obtain ⟨final, sent⟩ :=
    stageRun_windows q start (Nat.succ_pos 11) (cycles.flatMap (SinkCycle.rows (sinkChannels channels)))
  rw [← rows] at final sent
  exact ⟨⟨_, final⟩, sent.trans (windowFrames_stream q _ src stream)⟩

theorem sinkRun_framed [Zero α] (q : Quantizer α) (channels : Int) (src : Fin 6 → UInt8)
    (cycles : List (SinkCycle α)) :
    Framed q (sinkChannels channels) src (contributed (sinkChannels channels) cycles).length
      (channelStream (sinkChannels channels) cycles) (sinkRun q (reacSinkNodeNew channels src) cycles) := by
  have positive : 0 < reacSamplesPerPkt := Nat.succ_pos 11
  obtain ⟨⟨done, final⟩, sent⟩ := sinkRun_stages q channels src cycles
  generalize sinkRun q (reacSinkNodeNew channels src) cycles = run at final sent
  have frame (k : Nat) (sentFrame : SentFrame) (member : run.2[k]? = some sentFrame) :
      sentFrame.frame =
        streamFrame q (sinkChannels channels) src (channelStream (sinkChannels channels) cycles) k := by
    have sentAt := congrArg (·[k]?) sent
    simp only [List.getElem?_map, member, Option.map_some] at sentAt
    obtain ⟨slot, inside, same⟩ := Option.map_eq_some_iff.mp sentAt.symm
    obtain ⟨_, rfl⟩ := List.getElem?_eq_some_iff.mp inside
    rw [← same, List.getElem_range]
  exact {
    count := by simpa using congrArg List.length sent
    frames := frame
    counters := by
      intro k sentFrame member
      rw [frame k sentFrame member, streamFrame, reacTxBuild_wireFrame, wireFrame_inspect]
    samples := by
      intro k sentFrame sampleRate out member
      rw [frame k sentFrame member, streamFrame]
      obtain ⟨planes, decode, carries⟩ := reacTxBuild_carries q _ (sinkChannels channels)
        reacSamplesPerPkt (UInt16.ofNat k) src sampleRate out
      refine ⟨planes, decode, ?_⟩
      intro c t v channel time wanted value
      have present := carries.present c t _ channel time wanted (by exact_mod_cast time) (if_pos wanted)
      rw [present, List.getD_eq_getElem?_getD, value, Option.getD_some]
    staged := final.staged.trans (rest_length _ positive _)
    kept := by
      intro c t v channel inside value
      rw [channelStream, List.getElem?_map] at value
      obtain ⟨row, member, rfl⟩ := Option.map_eq_some_iff.mp value
      have remains := rest_eq_drop _ positive [] (contributed (sinkChannels channels) cycles) positive
      rw [List.length_nil, Nat.zero_add, List.nil_append] at remains
      apply final.samples c t row channel
      rw [remains, List.getElem?_drop]
      exact member }

-- Without channels there is no port to link, so nothing is contributed.
theorem contributed_noChannels [Zero α] {channels : Int} (none : channels ≤ 0) (cycles : List (SinkCycle α)) :
    contributed channels cycles = [] := by
  have empty : channels.toNat = 0 := by omega
  simp [contributed, SinkCycle.rows, empty]

theorem contributed_length_congr [Zero α] {channels : Int} {left right : List (SinkCycle α)}
    (same : ∀ c : Nat, (c : Int) < channels →
      channelStream channels left c = channelStream channels right c) :
    (contributed channels left).length = (contributed channels right).length := by
  by_cases none : channels ≤ 0
  next => rw [contributed_noChannels none, contributed_noChannels none]
  next =>
    have first := congrArg List.length (same 0 (by omega))
    rw [channelStream, channelStream, List.length_map, List.length_map] at first
    exact first

theorem streamFrame_congr [Zero α] (q : Quantizer α) {channels : Int} (src : Fin 6 → UInt8)
    {left right : Nat → List α} (same : ∀ c : Nat, (c : Int) < channels → left c = right c) (k : Nat) :
    streamFrame q channels src left k = streamFrame q channels src right k := by
  rw [streamFrame, streamFrame]
  apply reacTxBuild_congr
  intro ch s _ _
  by_cases channel : (ch : Int) < channels
  next => simp only [txValue, channel, if_true, same ch channel]
  next => simp only [txValue, channel, if_false]

/-- Frames are cut from the channels' streams alone, wherever the quanta end. -/
theorem sinkNode_framing [Zero α] (q : Quantizer α) (channels : Int) (src : Fin 6 → UInt8) :
    (∀ cycles, Framed q (sinkChannels channels) src (contributed (sinkChannels channels) cycles).length
      (channelStream (sinkChannels channels) cycles) (sinkRun q (reacSinkNodeNew channels src) cycles)) ∧
    (∀ left right,
      (∀ c : Nat, (c : Int) < sinkChannels channels →
        channelStream (sinkChannels channels) left c = channelStream (sinkChannels channels) right c) →
      (sinkRun q (reacSinkNodeNew channels src) left).2.map SentFrame.frame =
        (sinkRun q (reacSinkNodeNew channels src) right).2.map SentFrame.frame) := by
  constructor
  next => exact sinkRun_framed q channels src
  next =>
    intro left right same
    have framedLeft := sinkRun_framed q channels src left
    have framedRight := sinkRun_framed q channels src right
    have counts := framedLeft.count.trans
      ((congrArg (· / reacSamplesPerPkt) (contributed_length_congr same)).trans framedRight.count.symm)
    apply List.ext_getElem
    next => simpa using counts
    next =>
      intro k insideLeft insideRight
      rw [List.length_map] at insideLeft insideRight
      rw [List.getElem_map, List.getElem_map,
        framedLeft.frames k _ (List.getElem?_eq_getElem insideLeft),
        framedRight.frames k _ (List.getElem?_eq_getElem insideRight)]
      exact streamFrame_congr q src same k

-- Two frames' worth of one channel, in one quantum and in two with an unlinked cycle between them.
theorem sinkNode_framing_twoCuts :
    let cycle (duration : UInt64) (linked : Bool) : SinkCycle {x : Int // Signed24 x} :=
      ⟨duration, fun _ => if linked then some fun _ => ⟨-5, by decide, by decide⟩ else none, fun _ => -1⟩
    let node := reacSinkNodeNew 1 fun _ => 0x40
    (sinkRun exactQuantizer node [cycle 24 true]).2.map SentFrame.frame =
      (sinkRun exactQuantizer node [cycle 5 true, cycle 7 false, cycle 19 true]).2.map SentFrame.frame := by
  intro cycle node
  apply (sinkNode_framing exactQuantizer 1 fun _ => 0x40).2
  intro c channel
  have first : c = 0 := by
    simp only [sinkChannels, reacMaxChannels] at channel
    omega
  subst first
  decide

end ReacAes67
