import Mathlib.Algebra.Order.Field.Basic
import Mathlib.Data.List.Nodup
import Mathlib.Data.Rat.Floor
import ReacAes67.DanteSession

set_option autoImplicit false

/-!
# The contract of the flow table

`dante_build_flows` cuts the channels into consecutive slices. It adds the
channel count and the width before it divides, and a width from the command line
can be large enough for that sum to overflow.
-/

namespace ReacAes67

open SampleBlock

/-- Consecutive slices of at most `chPerFlow` channels that cover `[0, nChannels)`, each with its own
SSRC and acceptable to the RTP builder. -/
structure FlowsPartition (flows : List ReacFlow) (nChannels chPerFlow : Int) (ssrcBase : UInt32) :
    Prop where
  ordered : flows.Pairwise fun left right => left.chStart + left.nCh ≤ right.chStart
  nonempty : ∀ fl ∈ flows, 0 < fl.nCh
  narrow : ∀ fl ∈ flows, fl.nCh ≤ chPerFlow
  covers : ∀ c, (∃ fl ∈ flows, fl.chStart ≤ c ∧ c < fl.chStart + fl.nCh) ↔ 0 ≤ c ∧ c < nChannels
  ssrc : ∀ i fl, flows[i]? = some fl → fl.ssrc = ssrcBase + UInt32.ofNat i
  distinct : (flows.map ReacFlow.ssrc).Nodup
  accepted : ∀ fl ∈ flows, ∀ p planarPcm (nSamples cap : Nat), 0 < nSamples →
    rtpHeaderLen + fl.nCh.toNat * nSamples * 3 ≤ cap →
    (rtpL24BuildFlow cap p planarPcm nChannels fl.chStart fl.nCh nSamples).isSome

def flowsNeeded (nChannels chPerFlow : Int) : Int := ⌈(nChannels : ℚ) / (chPerFlow : ℚ)⌉

structure FlowContract (max nChannels chPerFlow : Int) (payloadType : UInt8) (ssrcBase : UInt32) :
    Prop where
  noOverflow : danteBuildFlows max nChannels chPerFlow payloadType ssrcBase ≠ none
  rejects : (danteBuildFlows max nChannels chPerFlow payloadType ssrcBase).map Prod.fst = some (-1) ↔
    nChannels ≤ 0 ∨ chPerFlow ≤ 0 ∨ max < flowsNeeded nChannels chPerFlow
  accepts : ∀ n flows, danteBuildFlows max nChannels chPerFlow payloadType ssrcBase = some (n, flows) →
    n ≠ -1 → n = flowsNeeded nChannels chPerFlow ∧ 1 ≤ n ∧ flows.length = n ∧
      FlowsPartition flows nChannels chPerFlow ssrcBase

theorem flowsNeeded_flowCount {nChannels chPerFlow : Nat} (positive : 0 < chPerFlow) :
    flowsNeeded nChannels chPerFlow = flowCount nChannels chPerFlow := by
  have split := Nat.div_add_mod (nChannels + chPerFlow - 1) chPerFlow
  have rest := Nat.mod_lt (nChannels + chPerFlow - 1) positive
  have width : (0 : ℚ) < chPerFlow := by exact_mod_cast positive
  have product : flowCount nChannels chPerFlow * chPerFlow =
      chPerFlow * ((nChannels + chPerFlow - 1) / chPerFlow) := Nat.mul_comm _ _
  have above : nChannels ≤ flowCount nChannels chPerFlow * chPerFlow := by omega
  have below : flowCount nChannels chPerFlow * chPerFlow < nChannels + chPerFlow := by omega
  rw [flowsNeeded, Int.ceil_eq_iff]
  push_cast
  constructor
  next =>
    rw [lt_div_iff₀ width, sub_mul, one_mul, sub_lt_iff_lt_add]
    exact_mod_cast below
  next =>
    rw [div_le_iff₀ width]
    exact_mod_cast above

theorem danteSlice_inside {nChannels chPerFlow i : Nat} (payloadType : UInt8) (ssrcBase : UInt32)
    (fits : nChannels ≤ 2147483647) (inside : i * chPerFlow < nChannels) :
    danteSlice nChannels chPerFlow payloadType ssrcBase i =
      some (danteFlow nChannels chPerFlow payloadType ssrcBase i) := by
  have start : CInt.mul i chPerFlow = some ((i * chPerFlow : Nat) : Int) := by
    rw [CInt.mul, CInt.checked_eq_some, ← Nat.cast_mul, CInt.InRange]
    exact ⟨by omega, rfl⟩
  have width : CInt.sub nChannels ((i * chPerFlow : Nat) : Int) =
      some ((nChannels - i * chPerFlow : Nat) : Int) := by
    rw [CInt.sub, CInt.checked_eq_some, CInt.InRange]
    omega
  simp only [danteSlice, start, width, bind, Option.bind_some, pure, danteFlow, Option.some.injEq,
    ReacFlow.mk.injEq, and_true, true_and]
  split <;> omega

theorem danteBuildFlows_defined (max : Int) {nChannels chPerFlow : Nat} (payloadType : UInt8)
    (ssrcBase : UInt32) (channels : 0 < nChannels) (positive : 0 < chPerFlow)
    (fits : nChannels + chPerFlow ≤ 2147483647) :
    danteBuildFlows max nChannels chPerFlow payloadType ssrcBase =
      if max < flowCount nChannels chPerFlow then some (-1, [])
      else some ((flowCount nChannels chPerFlow : Int),
        danteTable nChannels chPerFlow payloadType ssrcBase) := by
  have sum : CInt.add nChannels chPerFlow = some ((nChannels + chPerFlow : Nat) : Int) := by
    rw [CInt.add, CInt.checked_eq_some, CInt.InRange]
    omega
  have less : CInt.sub ((nChannels + chPerFlow : Nat) : Int) 1 =
      some ((nChannels + chPerFlow - 1 : Nat) : Int) := by
    rw [CInt.sub, CInt.checked_eq_some, CInt.InRange]
    omega
  have count : ((nChannels + chPerFlow - 1 : Nat) : Int).tdiv chPerFlow = flowCount nChannels chPerFlow := by
    rw [Int.tdiv_eq_ediv_of_nonneg (by omega), flowCount, Int.natCast_ediv]
  have slices : (List.range (flowCount nChannels chPerFlow)).mapM
      (danteSlice nChannels chPerFlow payloadType ssrcBase) =
        some (danteTable nChannels chPerFlow payloadType ssrcBase) := by
    rw [CInt.mapM_eq_some_iff, danteTable, List.forall₂_map_right_iff, List.forall₂_same]
    intro i member
    exact danteSlice_inside payloadType ssrcBase (by omega)
      ((lt_flowCount positive).mp (List.mem_range.mp member))
  unfold danteBuildFlows
  rw [if_neg (by omega)]
  simp only [sum, less, count, bind, Option.bind_some, Int.toNat_natCast, slices, pure]

theorem danteTable_length (nChannels chPerFlow : Nat) (payloadType : UInt8) (ssrcBase : UInt32) :
    (danteTable nChannels chPerFlow payloadType ssrcBase).length = flowCount nChannels chPerFlow := by
  simp [danteTable]

theorem flowCount_le {nChannels chPerFlow : Nat} (positive : 0 < chPerFlow) :
    flowCount nChannels chPerFlow ≤ nChannels := by
  by_contra more
  have inside := (lt_flowCount positive).mp (Nat.not_le.mp more)
  have least : nChannels ≤ nChannels * chPerFlow := Nat.le_mul_of_pos_right nChannels positive
  omega

theorem danteFlow_ordered {nChannels chPerFlow i j : Nat} (payloadType : UInt8) (ssrcBase : UInt32)
    (before : i < j) :
    (danteFlow nChannels chPerFlow payloadType ssrcBase i).chStart +
        (danteFlow nChannels chPerFlow payloadType ssrcBase i).nCh ≤
      (danteFlow nChannels chPerFlow payloadType ssrcBase j).chStart := by
  have next : (i + 1) * chPerFlow ≤ j * chPerFlow := Nat.mul_le_mul_right chPerFlow before
  rw [Nat.succ_mul] at next
  simp only [danteFlow]
  omega

theorem danteTable_covers {nChannels chPerFlow : Nat} (payloadType : UInt8) (ssrcBase : UInt32)
    (positive : 0 < chPerFlow) (c : Int) :
    (∃ fl ∈ danteTable nChannels chPerFlow payloadType ssrcBase,
        fl.chStart ≤ c ∧ c < fl.chStart + fl.nCh) ↔ 0 ≤ c ∧ c < nChannels := by
  constructor
  next =>
    rintro ⟨fl, member, low, high⟩
    obtain ⟨i, inside, rfl⟩ := List.mem_map.mp member
    have slice := danteFlow_slice payloadType ssrcBase positive (List.mem_range.mp inside)
    exact ⟨slice.start.trans low, high.trans_le slice.inside⟩
  next =>
    rintro ⟨low, high⟩
    lift c to Nat using low
    obtain ⟨cell, ⟨inside, width, position⟩, _⟩ :=
      danteFlow_partition payloadType ssrcBase positive (Int.ofNat_lt.mp high)
    exact ⟨_, List.mem_map.mpr ⟨cell.1, List.mem_range.mpr inside, rfl⟩, by omega, by omega⟩

theorem danteTable_distinct {nChannels chPerFlow : Nat} (payloadType : UInt8) (ssrcBase : UInt32)
    (positive : 0 < chPerFlow) (fits : nChannels ≤ 2147483647) :
    ((danteTable nChannels chPerFlow payloadType ssrcBase).map ReacFlow.ssrc).Nodup := by
  have few : flowCount nChannels chPerFlow ≤ nChannels := flowCount_le positive
  rw [danteTable, List.map_map]
  apply List.Nodup.map_on _ List.nodup_range
  intro i left j right same
  have equal : (UInt32.ofNat i).toNat = (UInt32.ofNat j).toNat :=
    congrArg UInt32.toNat ((UInt32.add_right_inj ssrcBase).mp same)
  rw [List.mem_range] at left right
  rwa [UInt32.toNat_ofNat_of_lt' (by simp [UInt32.size]; omega),
    UInt32.toNat_ofNat_of_lt' (by simp [UInt32.size]; omega)] at equal

theorem slice_accepted {fl : ReacFlow} {nChannels : Nat} (slice : fl.Slice nChannels) (p : RtpParams)
    (planarPcm : Block) {nSamples cap : Nat} (samples : 0 < nSamples)
    (room : rtpHeaderLen + fl.nCh.toNat * nSamples * 3 ≤ cap) :
    (rtpL24BuildFlow cap p planarPcm nChannels fl.chStart fl.nCh nSamples).isSome := by
  obtain ⟨start, width, inside⟩ := slice
  unfold rtpL24BuildFlow
  rw [if_neg (by omega)]
  simp only [Int.toNat_natCast]
  rw [if_neg (by omega)]
  rfl

theorem danteTable_flowsPartition {nChannels chPerFlow : Nat} (payloadType : UInt8) (ssrcBase : UInt32)
    (positive : 0 < chPerFlow) (fits : nChannels ≤ 2147483647) :
    FlowsPartition (danteTable nChannels chPerFlow payloadType ssrcBase) nChannels chPerFlow ssrcBase where
  ordered := by
    rw [danteTable, List.pairwise_map]
    exact List.pairwise_lt_range.imp fun before => danteFlow_ordered payloadType ssrcBase before
  nonempty := by
    intro fl member
    obtain ⟨i, inside, rfl⟩ := List.mem_map.mp member
    exact (danteFlow_slice payloadType ssrcBase positive (List.mem_range.mp inside)).width
  narrow := by
    intro fl member
    obtain ⟨i, inside, rfl⟩ := List.mem_map.mp member
    exact Int.ofNat_le.mpr (Nat.min_le_left _ _)
  covers := danteTable_covers payloadType ssrcBase positive
  ssrc := by
    intro i fl member
    obtain ⟨_, rfl⟩ := danteTable_getElem?.mp member
    rfl
  distinct := danteTable_distinct payloadType ssrcBase positive fits
  accepted := by
    intro fl member p planarPcm nSamples cap samples room
    obtain ⟨i, inside, rfl⟩ := List.mem_map.mp member
    exact slice_accepted (danteFlow_slice payloadType ssrcBase positive (List.mem_range.mp inside)) p
      planarPcm samples room

theorem danteBuildFlows_empty (max : Int) {nChannels chPerFlow : Int} (payloadType : UInt8)
    (ssrcBase : UInt32) (empty : nChannels ≤ 0 ∨ chPerFlow ≤ 0) :
    danteBuildFlows max nChannels chPerFlow payloadType ssrcBase = some (-1, []) :=
  if_pos empty.symm

theorem danteBuildFlows_overflow (max : Int) {nChannels chPerFlow : Int} (payloadType : UInt8)
    (ssrcBase : UInt32) (channels : 0 < nChannels) (positive : 0 < chPerFlow)
    (wide : 2147483647 < nChannels + chPerFlow) :
    danteBuildFlows max nChannels chPerFlow payloadType ssrcBase = none := by
  have sum : CInt.add nChannels chPerFlow = none := by
    rw [CInt.add, CInt.checked, if_neg]
    exact fun inside => absurd inside.2 (Int.not_le.mpr wide)
  unfold danteBuildFlows
  rw [if_neg (by omega), sum]
  rfl

theorem flowContract_empty (max : Int) {nChannels chPerFlow : Int} (payloadType : UInt8)
    (ssrcBase : UInt32) (empty : nChannels ≤ 0 ∨ chPerFlow ≤ 0) :
    FlowContract max nChannels chPerFlow payloadType ssrcBase := by
  have result := danteBuildFlows_empty max payloadType ssrcBase empty
  constructor
  next => simp [result]
  next =>
    rw [result]
    simp only [Option.map_some, true_iff]
    omega
  next =>
    intro n flows built accepted
    rw [result] at built
    cases built
    exact absurd rfl accepted

theorem flowContract_fits (max : Int) {nChannels chPerFlow : Nat} (payloadType : UInt8)
    (ssrcBase : UInt32) (channels : 0 < nChannels) (positive : 0 < chPerFlow)
    (fits : nChannels + chPerFlow ≤ 2147483647) :
    FlowContract max nChannels chPerFlow payloadType ssrcBase := by
  have result := danteBuildFlows_defined max payloadType ssrcBase channels positive fits
  have least : 0 < flowCount nChannels chPerFlow := (lt_flowCount positive).mpr (by omega)
  have needed : flowsNeeded nChannels chPerFlow = flowCount nChannels chPerFlow :=
    flowsNeeded_flowCount positive
  by_cases many : max < flowCount nChannels chPerFlow
  next =>
    rw [if_pos many] at result
    constructor
    next => simp [result]
    next => simp [result, needed, many]
    next =>
      intro n flows built accepted
      rw [result] at built
      cases built
      exact absurd rfl accepted
  next =>
    rw [if_neg many] at result
    constructor
    next => simp [result]
    next =>
      rw [result, needed, Option.map_some, Option.some.injEq]
      omega
    next =>
      intro n flows built _
      rw [result] at built
      cases built
      refine ⟨needed.symm, by omega, by rw [danteTable_length], ?_⟩
      exact danteTable_flowsPartition payloadType ssrcBase positive (by omega)

theorem flowContract_iff (max nChannels chPerFlow : Int) (payloadType : UInt8) (ssrcBase : UInt32) :
    FlowContract max nChannels chPerFlow payloadType ssrcBase ↔
      nChannels ≤ 0 ∨ chPerFlow ≤ 0 ∨ nChannels + chPerFlow ≤ 2147483647 := by
  by_cases empty : nChannels ≤ 0 ∨ chPerFlow ≤ 0
  next =>
    have contract := flowContract_empty max payloadType ssrcBase empty
    simp only [contract, true_iff]
    omega
  next =>
    by_cases wide : 2147483647 < nChannels + chPerFlow
    next =>
      have overflow := danteBuildFlows_overflow max payloadType ssrcBase (by omega) (by omega) wide
      constructor
      · exact fun contract => absurd overflow contract.noOverflow
      · omega
    next =>
      lift nChannels to Nat using by omega
      lift chPerFlow to Nat using by omega
      have contract : FlowContract max nChannels chPerFlow payloadType ssrcBase :=
        flowContract_fits max payloadType ssrcBase (by omega) (by omega) (by omega)
      simp only [contract, true_iff]
      omega

/-- `run_dante` gets past its flow table without undefined behaviour, and never with an empty table. -/
def DanteStarts (mode : ReacMode) (cfg : DanteCfg) : Prop :=
  ∀ now memory, ∃ result, runDanteStart mode cfg now memory = some result ∧
    ∀ pl, result = .ok pl → pl.pcmCtx.pk.flows ≠ []

theorem danteStarts_of_contract {mode : ReacMode} {cfg : DanteCfg}
    (contract : FlowContract reacMaxChannels mode.nChannels cfg.chPerFlow cfg.pt cfg.ssrcBase) :
    DanteStarts mode cfg := by
  intro now memory
  cases built : danteBuildFlows reacMaxChannels mode.nChannels cfg.chPerFlow cfg.pt cfg.ssrcBase with
  | none => exact absurd built contract.noOverflow
  | some table =>
    obtain ⟨n, flows⟩ := table
    by_cases refused : n < 0
    next =>
      refine ⟨.error 2, by simp [runDanteStart, built, refused], fun pl ok => ?_⟩
      cases ok
    next =>
      have run : runDanteStart mode cfg now memory =
          some (.ok (pipelineSetPcmSink
            (pipelineAnchor (pipelineInit mode cfg.pt cfg.ssrcBase) (danteAnchor mode now))
            (some dantePcmSink) ⟨packetizerInit mode 4 flows memory, []⟩)) := by
        simp only [runDanteStart, built, Option.bind_eq_bind, Option.bind_some, refused, if_false]
        rfl
      refine ⟨_, run, fun pl ok => ?_⟩
      cases ok
      obtain ⟨_, least, length, _⟩ := contract.accepts n flows built (by omega)
      intro empty
      have same : flows = [] := empty
      rw [same, List.length_nil] at length
      omega

theorem danteStarts_iff (mode : ReacMode) (cfg : DanteCfg) :
    DanteStarts mode cfg ↔
      mode.nChannels = 0 ∨ cfg.chPerFlow ≤ 0 ∨ mode.nChannels + cfg.chPerFlow ≤ 2147483647 := by
  have table := flowContract_iff reacMaxChannels mode.nChannels cfg.chPerFlow cfg.pt cfg.ssrcBase
  constructor
  next =>
    intro starts
    by_contra wide
    have overflow := danteBuildFlows_overflow reacMaxChannels cfg.pt cfg.ssrcBase
      (show 0 < (mode.nChannels : Int) by omega) (show 0 < cfg.chPerFlow by omega) (by omega)
    obtain ⟨result, run, _⟩ := starts none Block.blank
    simp [runDanteStart, overflow] at run
  next =>
    intro condition
    exact danteStarts_of_contract (table.mpr (by omega))

/-- The flow table keeps its contract exactly when the channel count and the width can be added; `run_dante`
is safe from an undefined or empty table under the same condition. -/
theorem danteBuildFlows_contract_iff (max nChannels chPerFlow : Int) (payloadType : UInt8)
    (ssrcBase : UInt32) (mode : ReacMode) (cfg : DanteCfg) :
    (FlowContract max nChannels chPerFlow payloadType ssrcBase ↔
        nChannels ≤ 0 ∨ chPerFlow ≤ 0 ∨ nChannels + chPerFlow ≤ 2147483647) ∧
      (DanteStarts mode cfg ↔
        mode.nChannels = 0 ∨ cfg.chPerFlow ≤ 0 ∨ mode.nChannels + cfg.chPerFlow ≤ 2147483647) :=
  ⟨flowContract_iff max nChannels chPerFlow payloadType ssrcBase, danteStarts_iff mode cfg⟩

theorem danteBuildFlows_contract_splitTable :
    FlowContract 40 40 7 97 0x5000 ∧ DanteStarts reacMode48k ⟨7, 97, 0x5000⟩ ∧
      (danteBuildFlows 40 40 7 97 0x5000).map (fun built => (built.1, built.2.map ReacFlow.nCh)) =
        some (6, [7, 7, 7, 7, 7, 5]) := by
  obtain ⟨table, starts⟩ := danteBuildFlows_contract_iff 40 40 7 97 0x5000 reacMode48k ⟨7, 97, 0x5000⟩
  exact ⟨table.mpr (by decide), starts.mpr (by decide), by decide⟩

-- The largest width `atoi` can yield.
theorem danteBuildFlows_contract_widest :
    danteBuildFlows 40 40 2147483647 97 0x5000 = none ∧
      ¬ FlowContract 40 40 2147483647 97 0x5000 ∧
      ¬ DanteStarts reacMode48k ⟨2147483647, 97, 0x5000⟩ := by
  have overflow : danteBuildFlows 40 40 2147483647 97 0x5000 = none := by decide
  refine ⟨overflow, fun contract => contract.noOverflow overflow, fun starts => ?_⟩
  obtain ⟨result, run, _⟩ := starts none Block.blank
  have undefined : runDanteStart reacMode48k ⟨2147483647, 97, 0x5000⟩ none Block.blank = none := rfl
  simp [undefined] at run

end ReacAes67
