import ReacAes67.Pipeline
import ReacAes67.Shared.CInt
import ReacAes67.Shared.Windows

set_option autoImplicit false

/-!
# The packetizer

`packetizer_push` collects frames into a planar window and, when the window is
full, builds one RTP packet for each flow, a channel slice with its own RTP
identity. `dante_build_flows` cuts the channels into flows.
-/

namespace ReacAes67

open SampleBlock

structure ReacFlow where
  chStart : Int
  nCh : Int
  payloadType : UInt8
  ssrc : UInt32
  seq : UInt16
deriving DecidableEq, Repr

def packetizerMaxFpp : Int := 4

/-- One call of the packetizer's emit callback. -/
structure FlowPacket where
  flowIndex : Nat
  buf : List UInt8
  concealed : Bool
deriving DecidableEq, Repr

structure Packetizer where
  mode : ReacMode
  framesPerPacket : Nat
  framesBuffered : Nat
  pendingTs : UInt32
  pendingConcealed : Bool
  flows : List ReacFlow
  planar : Block

-- One turn of the loop of `dante_build_flows`.
def danteSlice (nChannels chPerFlow : Int) (payloadType : UInt8) (ssrcBase : UInt32) (i : Nat) :
    Option ReacFlow := do
  let start ← CInt.mul i chPerFlow
  let width ← CInt.sub nChannels start
  let width := if width > chPerFlow then chPerFlow else width
  return { chStart := start, nCh := width, payloadType := payloadType
           ssrc := ssrcBase + UInt32.ofNat i, seq := 0 }

-- Result -1 comes without flows; `none` is a signed overflow, undefined in C.
def danteBuildFlows (max nChannels chPerFlow : Int) (payloadType : UInt8) (ssrcBase : UInt32) :
    Option (Int × List ReacFlow) :=
  if chPerFlow ≤ 0 ∨ nChannels ≤ 0 then some (-1, [])
  else do
    let sum ← CInt.add nChannels chPerFlow
    let less ← CInt.sub sum 1
    let n := less.tdiv chPerFlow
    if n > max then return (-1, [])
    let flows ← (List.range n.toNat).mapM (danteSlice nChannels chPerFlow payloadType ssrcBase)
    return (n, flows)

-- The window memory is not cleared, so its old contents are an argument.
def packetizerInit (mode : ReacMode) (framesPerPacket : Int) (flows : List ReacFlow)
    (planar : Block) : Packetizer :=
  let fpp := if framesPerPacket < 1 then 1 else framesPerPacket
  let fpp := if fpp > packetizerMaxFpp then packetizerMaxFpp else fpp
  { mode := mode, framesPerPacket := fpp.toNat, framesBuffered := 0, pendingTs := 0
    pendingConcealed := false, flows := flows, planar := planar }

-- uint8_t pkt[RTP_HEADER_LEN + REAC_MAX_CHANNELS * PACKETIZER_MAX_FPP * 24 * 3]
def flowCapacity : Nat := rtpHeaderLen + reacMaxChannels * 4 * 24 * 3

def appendFrame (pk : Packetizer) (framePlanar : Block) : Block :=
  let sps := pk.mode.samplesPerPkt
  let total := pk.framesPerPacket * sps
  pk.planar.copyRows pk.mode.nChannels total (pk.framesBuffered * sps) sps
    (fun c => framePlanar.advance (c * sps * 3))

def flowParams (fl : ReacFlow) (ts : UInt32) : RtpParams :=
  { payloadType := fl.payloadType, seq := fl.seq, timestamp := ts, ssrc := fl.ssrc }

def buildFlow (pk : Packetizer) (i : Nat) (fl : ReacFlow) : ReacFlow × List FlowPacket :=
  let total := pk.framesPerPacket * pk.mode.samplesPerPkt
  match rtpL24BuildFlow flowCapacity (flowParams fl pk.pendingTs) pk.planar pk.mode.nChannels
      fl.chStart fl.nCh total with
  | some pkt => ({ fl with seq := fl.seq + 1 }, [⟨i, pkt, pk.pendingConcealed⟩])
  | none => (fl, [])

-- The first half of `packetizer_push`: open the window if need be and append the frame.
def packetizerFill (pk : Packetizer) (framePlanar : Block) (rtpTs : UInt32) (concealed : Bool) :
    Packetizer :=
  let opened :=
    if pk.framesBuffered = 0 then { pk with pendingTs := rtpTs, pendingConcealed := false } else pk
  { opened with
    pendingConcealed := opened.pendingConcealed || concealed
    planar := appendFrame opened framePlanar
    framesBuffered := opened.framesBuffered + 1 }

def packetizerPush (pk : Packetizer) (framePlanar : Block) (rtpTs : UInt32) (concealed : Bool) :
    Packetizer × List FlowPacket :=
  let filled := packetizerFill pk framePlanar rtpTs concealed
  if filled.framesBuffered < filled.framesPerPacket then (filled, [])
  else
    -- each flow's packet depends on that flow alone, so the loop is a map
    let built := filled.flows.mapIdx (buildFlow filled)
    ({ filled with flows := built.map (·.1), framesBuffered := 0 }, built.flatMap (·.2))

structure ReacFlow.Slice (fl : ReacFlow) (nChannels : Nat) : Prop where
  start : 0 ≤ fl.chStart
  width : 0 < fl.nCh
  inside : fl.chStart + fl.nCh ≤ nChannels

def danteFlow (nChannels chPerFlow : Nat) (payloadType : UInt8) (ssrcBase : UInt32) (i : Nat) :
    ReacFlow :=
  { chStart := (i * chPerFlow : Nat)
    nCh := (min chPerFlow (nChannels - i * chPerFlow) : Nat)
    payloadType := payloadType
    ssrc := ssrcBase + UInt32.ofNat i
    seq := 0 }

def flowCount (nChannels chPerFlow : Nat) : Nat := (nChannels + chPerFlow - 1) / chPerFlow

-- The flows `dante_build_flows` produces when it accepts the table.
def danteTable (nChannels chPerFlow : Nat) (payloadType : UInt8) (ssrcBase : UInt32) : List ReacFlow :=
  (List.range (flowCount nChannels chPerFlow)).map (danteFlow nChannels chPerFlow payloadType ssrcBase)

theorem lt_flowCount {nChannels chPerFlow i : Nat} (positive : 0 < chPerFlow) :
    i < flowCount nChannels chPerFlow ↔ i * chPerFlow < nChannels := by
  rw [flowCount, Nat.lt_div_iff_mul_lt positive]
  omega

theorem danteFlow_slice {nChannels chPerFlow i : Nat} (payloadType : UInt8) (ssrcBase : UInt32)
    (positive : 0 < chPerFlow) (member : i < flowCount nChannels chPerFlow) :
    (danteFlow nChannels chPerFlow payloadType ssrcBase i).Slice nChannels := by
  have start := (lt_flowCount positive).mp member
  constructor <;> simp only [danteFlow] <;> omega

theorem danteSlice_flow {nChannels chPerFlow i : Nat} {payloadType : UInt8} {ssrcBase : UInt32}
    {fl : ReacFlow} (inside : i * chPerFlow < nChannels)
    (built : danteSlice nChannels chPerFlow payloadType ssrcBase i = some fl) :
    danteFlow nChannels chPerFlow payloadType ssrcBase i = fl := by
  simp only [danteSlice, CInt.mul, CInt.sub, bind, Option.bind_eq_some_iff, pure,
    CInt.checked_eq_some] at built
  obtain ⟨start, ⟨_, rfl⟩, width, ⟨_, rfl⟩, built⟩ := built
  rw [← Option.some.inj built]
  simp only [danteFlow, ReacFlow.mk.injEq, and_true]
  constructor
  · simp
  · split <;> omega

theorem danteBuildFlows_table {max chPerFlow n : Int} {nChannels : Nat} {payloadType : UInt8}
    {ssrcBase : UInt32} {flows : List ReacFlow} (accepted : 0 ≤ n)
    (produced : danteBuildFlows max nChannels chPerFlow payloadType ssrcBase = some (n, flows)) :
    0 < chPerFlow ∧ flows = danteTable nChannels chPerFlow.toNat payloadType ssrcBase := by
  unfold danteBuildFlows at produced
  by_cases empty : chPerFlow ≤ 0 ∨ (nChannels : Int) ≤ 0
  · rw [if_pos empty] at produced
    obtain ⟨rfl, -⟩ := Prod.mk.inj (Option.some.inj produced)
    omega
  · have positive : 0 < chPerFlow := by omega
    obtain ⟨width, rfl⟩ := Int.eq_ofNat_of_zero_le positive.le
    refine ⟨positive, ?_⟩
    rw [if_neg empty] at produced
    simp only [CInt.add, CInt.sub, bind, Option.bind_eq_some_iff, CInt.checked_eq_some] at produced
    obtain ⟨_, ⟨_, rfl⟩, _, ⟨_, rfl⟩, produced⟩ := produced
    have count : ((nChannels : Int) + width - 1).tdiv width = flowCount nChannels width := by
      rw [Int.tdiv_eq_ediv_of_nonneg (by omega), flowCount, Int.natCast_ediv]
      congr 1
      omega
    simp only [count, Int.toNat_natCast] at produced ⊢
    by_cases many : (flowCount nChannels width : Int) > max
    · rw [if_pos many] at produced
      obtain ⟨rfl, -⟩ := Prod.mk.inj (Option.some.inj produced)
      omega
    · rw [if_neg many] at produced
      simp only [pure, Option.bind_eq_some_iff, CInt.mapM_eq_some_iff] at produced
      obtain ⟨table, slices, produced⟩ := produced
      obtain ⟨-, rfl⟩ := Prod.mk.inj (Option.some.inj produced)
      have same : List.Forall₂ Eq (danteTable nChannels width payloadType ssrcBase) table := by
        rw [danteTable, List.forall₂_map_left_iff]
        apply ((List.forall₂_and_left _ _).mpr ⟨fun i => List.mem_range.mp, slices⟩).imp
        rintro i fl ⟨member, built⟩
        exact danteSlice_flow ((lt_flowCount (by omega)).mp member) built
      rw [List.forall₂_eq_eq_eq] at same
      exact same.symm

theorem danteBuildFlows_slices {max chPerFlow n : Int} {nChannels : Nat} {payloadType : UInt8}
    {ssrcBase : UInt32} {flows : List ReacFlow} (accepted : 0 ≤ n)
    (produced : danteBuildFlows max nChannels chPerFlow payloadType ssrcBase = some (n, flows)) :
    ∀ fl ∈ flows, fl.Slice nChannels ∧ fl.seq = 0 := by
  obtain ⟨positive, rfl⟩ := danteBuildFlows_table accepted produced
  intro fl member
  obtain ⟨i, inside, rfl⟩ := List.mem_map.mp member
  exact ⟨danteFlow_slice payloadType ssrcBase (by omega) (List.mem_range.mp inside), rfl⟩

-- Every channel is in exactly one slice, at exactly one place of it.
theorem danteFlow_partition {nChannels chPerFlow : Nat} (payloadType : UInt8) (ssrcBase : UInt32)
    (positive : 0 < chPerFlow) {c : Nat} (channel : c < nChannels) :
    ∃! cell : Nat × Nat, cell.1 < flowCount nChannels chPerFlow ∧
      (cell.2 : Int) < (danteFlow nChannels chPerFlow payloadType ssrcBase cell.1).nCh ∧
      (danteFlow nChannels chPerFlow payloadType ssrcBase cell.1).chStart + cell.2 = c := by
  have split := Nat.div_add_mod' c chPerFlow
  have rest := Nat.mod_lt c positive
  refine ⟨(c / chPerFlow, c % chPerFlow), ⟨?_, ?_, ?_⟩, ?_⟩
  · change c / chPerFlow < flowCount nChannels chPerFlow
    rw [lt_flowCount positive]
    omega
  · simp only [danteFlow]
    omega
  · simp only [danteFlow]
    omega
  · rintro ⟨i, fc⟩ ⟨_, width, position⟩
    simp only [danteFlow] at width position
    have same : i * chPerFlow + fc = c / chPerFlow * chPerFlow + c % chPerFlow := by omega
    obtain ⟨rows, cols⟩ := rowMajor_inj (by omega) rest same
    rw [rows, cols]

theorem danteTable_getElem? {nChannels chPerFlow : Nat} {payloadType : UInt8} {ssrcBase : UInt32}
    {i : Nat} {fl : ReacFlow} :
    (danteTable nChannels chPerFlow payloadType ssrcBase)[i]? = some fl ↔
      i < flowCount nChannels chPerFlow ∧ danteFlow nChannels chPerFlow payloadType ssrcBase i = fl := by
  rw [danteTable, List.getElem?_map, Option.map_eq_some_iff]
  constructor
  · rintro ⟨j, position, rfl⟩
    obtain ⟨inside, rfl⟩ := List.getElem?_eq_some_iff.mp position
    simpa using inside
  · rintro ⟨inside, rfl⟩
    exact ⟨i, List.getElem?_range inside, rfl⟩

theorem danteTable_partition {nChannels chPerFlow : Nat} (payloadType : UInt8) (ssrcBase : UInt32)
    (positive : 0 < chPerFlow) {c : Nat} (channel : c < nChannels) :
    ∃! cell : Nat × Nat, ∃ fl, (danteTable nChannels chPerFlow payloadType ssrcBase)[cell.1]? = some fl ∧
      (cell.2 : Int) < fl.nCh ∧ fl.chStart + cell.2 = c := by
  obtain ⟨cell, ⟨inside, col, position⟩, unique⟩ :=
    danteFlow_partition payloadType ssrcBase positive channel
  refine ⟨cell, ⟨_, danteTable_getElem?.mpr ⟨inside, rfl⟩, col, position⟩, ?_⟩
  rintro other ⟨fl, member, col', position'⟩
  obtain ⟨inside', rfl⟩ := danteTable_getElem?.mp member
  exact unique other ⟨inside', col', position'⟩

-- A table of one flow takes every channel.
theorem danteTable_single {nChannels chPerFlow : Nat} {payloadType : UInt8} {ssrcBase : UInt32}
    (positive : 0 < chPerFlow)
    (one : (danteTable nChannels chPerFlow payloadType ssrcBase).length = 1) :
    danteTable nChannels chPerFlow payloadType ssrcBase = [⟨0, nChannels, payloadType, ssrcBase, 0⟩] := by
  have count : flowCount nChannels chPerFlow = 1 := by simpa [danteTable] using one
  have wide : ¬ 1 * chPerFlow < nChannels := by
    rw [← lt_flowCount positive, count]
    exact lt_irrefl 1
  have whole : min chPerFlow nChannels = nChannels := by omega
  simp [danteTable, count, danteFlow, whole]

theorem packetizerInit_framesPerPacket (mode : ReacMode) (flows : List ReacFlow) (planar : Block)
    {f : Nat} (least : 1 ≤ f) (most : f ≤ 4) :
    packetizerInit mode f flows planar = { mode := mode, framesPerPacket := f, framesBuffered := 0
                                           pendingTs := 0, pendingConcealed := false
                                           flows := flows, planar := planar } := by
  have low : ¬ (f : Int) < 1 := by omega
  have high : ¬ (f : Int) > packetizerMaxFpp := by
    rw [packetizerMaxFpp]
    omega
  simp only [packetizerInit, if_neg low, if_neg high, Int.toNat_natCast]

theorem appendFrame_sample (pk : Packetizer) (framePlanar : Block)
    (room : pk.framesBuffered < pk.framesPerPacket) {c t : Nat} (channel : c < pk.mode.nChannels)
    (time : t < pk.framesPerPacket * pk.mode.samplesPerPkt) :
    let sps := pk.mode.samplesPerPkt
    let start := pk.framesBuffered * sps
    (appendFrame pk framePlanar).sample (c * (pk.framesPerPacket * sps) + t) =
      if start ≤ t ∧ t < start + sps then framePlanar.sample (c * sps + (t - start))
      else pk.planar.sample (c * (pk.framesPerPacket * sps) + t) := by
  have inRow : pk.framesBuffered * pk.mode.samplesPerPkt + pk.mode.samplesPerPkt ≤
      pk.framesPerPacket * pk.mode.samplesPerPkt := by
    rw [← Nat.succ_mul]
    exact Nat.mul_le_mul_right _ room
  simp only [appendFrame]
  rw [Block.sample_copyRows _ _ _ _ _ inRow channel time, Block.sample_advance]

theorem buildFlow_slice {pk : Packetizer} (fits : pk.mode.Fits) (some : 0 < pk.framesPerPacket)
    (few : pk.framesPerPacket ≤ 4) (i : Nat) {fl : ReacFlow} (slice : fl.Slice pk.mode.nChannels) :
    buildFlow pk i fl = ({ fl with seq := fl.seq + 1 },
      [⟨i, flowPacket (flowParams fl pk.pendingTs) pk.planar fl.chStart.toNat fl.nCh.toNat
        (pk.framesPerPacket * pk.mode.samplesPerPkt), pk.pendingConcealed⟩]) := by
  obtain ⟨chStart, nCh, payloadType, ssrc, seq⟩ := fl
  obtain ⟨start, width, inside⟩ := slice
  obtain ⟨first, rfl⟩ := Int.eq_ofNat_of_zero_le start
  obtain ⟨count, rfl⟩ := Int.eq_ofNat_of_zero_le width.le
  simp only at inside width
  have audio := fits.slots_le
  have samples : count * (pk.framesPerPacket * pk.mode.samplesPerPkt) ≤ 4 * 480 :=
    calc count * (pk.framesPerPacket * pk.mode.samplesPerPkt)
        ≤ pk.mode.nChannels * (4 * pk.mode.samplesPerPkt) :=
          Nat.mul_le_mul (by omega) (Nat.mul_le_mul_right _ few)
      _ = 4 * pk.mode.slots := by rw [ReacMode.slots]; ring
      _ ≤ 4 * 480 := Nat.mul_le_mul_left 4 audio
  have built := rtpL24BuildFlow_slice
    (flowParams ⟨first, count, payloadType, ssrc, seq⟩ pk.pendingTs) pk.planar flowCapacity
    pk.mode.nChannels first count (pk.framesPerPacket * pk.mode.samplesPerPkt) (by omega)
    (Nat.mul_pos some fits.samples) (by omega)
    (by simp only [rtpHeaderLen, flowCapacity, reacMaxChannels]; omega)
  simp only [buildFlow, built, Int.toNat_natCast]

/-- The packetizer behind the pipeline and the calls of its emit callback so far. -/
structure DanteSinkCtx where
  pk : Packetizer
  sent : List FlowPacket

def dantePcmSink : PcmSink DanteSinkCtx := fun ctx planar rtpTs concealed =>
  let pushed := packetizerPush ctx.pk planar rtpTs concealed
  { pk := pushed.1, sent := ctx.sent ++ pushed.2 }

end ReacAes67
