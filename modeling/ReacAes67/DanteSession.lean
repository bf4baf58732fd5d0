import ReacAes67.DantePath
import ReacAes67.SlotFidelity

set_option autoImplicit false

/-!
# Dante sessions on a shared PTP clock

A session reads the TAI clock when it starts and anchors its media clock to
that sample count. Two sessions that capture the same stream then agree as far
as their starting times do; the arrival of the stream plays no part.
-/

namespace ReacAes67

open SampleBlock

def taiToRtpTs (taiSec : UInt64) (taiNsec : UInt32) (rate : Nat) : UInt32 :=
  let sub := (taiNsec.toUInt64 * UInt64.ofNat rate + 500000000) / 1000000000
  let total := taiSec * UInt64.ofNat rate + sub
  (total &&& 0xffffffff).toUInt32

-- The clock shows `now` nanoseconds since the epoch, or is not available.
def ptpNowTai (now : Option Nat) : Option (UInt64 × UInt32) :=
  now.map fun t => (UInt64.ofNat (t / 1000000000), UInt32.ofNat (t % 1000000000))

/-- The nearest number of samples from the epoch to the instant `t` in nanoseconds. -/
def sampleCount (rate t : Nat) : Nat := (t * rate + 500000000) / 1000000000

/-- The arithmetic on 64 bits is exact modulo 2 ^ 32. -/
theorem taiToRtpTs_toNat {rate : Nat} (bound : rate < 2 ^ 31) (taiSec : UInt64) (taiNsec : UInt32) :
    (taiToRtpTs taiSec taiNsec rate).toNat =
      (taiSec.toNat * rate + (taiNsec.toNat * rate + 500000000) / 1000000000) % 2 ^ 32 := by
  have word : (UInt64.ofNat rate).toNat = rate := UInt64.toNat_ofNat_of_lt' (by simp [UInt64.size]; omega)
  have product : taiNsec.toNat * rate < 2 ^ 32 * 2 ^ 31 := Nat.mul_lt_mul'' taiNsec.toNat_lt bound
  have mask (n : Nat) : n &&& 4294967295 = n % 2 ^ 32 := Nat.and_two_pow_sub_one_eq_mod n 32
  simp only [taiToRtpTs, UInt64.toNat_toUInt32, UInt64.toNat_and, UInt64.toNat_add, UInt64.toNat_mul,
    UInt64.toNat_div, UInt32.toNat_toUInt64, word, UInt64.reduceToNat, mask]
  rw [Nat.mod_eq_of_lt (show taiNsec.toNat * rate < 2 ^ 64 by omega),
    Nat.mod_eq_of_lt (show taiNsec.toNat * rate + 500000000 < 2 ^ 64 by omega)]
  omega

theorem taiToRtpTs_sampleCount {rate : Nat} (bound : rate < 2 ^ 31) (t : Nat) :
    taiToRtpTs (UInt64.ofNat (t / 1000000000)) (UInt32.ofNat (t % 1000000000)) rate =
      UInt32.ofNat (sampleCount rate t) := by
  have nsec : (UInt32.ofNat (t % 1000000000)).toNat = t % 1000000000 :=
    UInt32.toNat_ofNat_of_lt' (by simp [UInt32.size]; omega)
  have whole : t * rate + 500000000 =
      (t % 1000000000 * rate + 500000000) + 1000000000 * (t / 1000000000 * rate) := by
    calc t * rate + 500000000
        = (t % 1000000000 + 1000000000 * (t / 1000000000)) * rate + 500000000 := by
          rw [Nat.mod_add_div]
      _ = _ := by ring
  have sec : (t / 1000000000 % 2 ^ 64 * rate) % 2 ^ 32 = (t / 1000000000 * rate) % 2 ^ 32 := by
    rw [Nat.mul_mod, Nat.mod_mod_of_dvd _ (by decide), ← Nat.mul_mod]
  apply UInt32.toNat.inj
  rw [taiToRtpTs_toNat bound, nsec, UInt64.toNat_ofNat', UInt32.toNat_ofNat', sampleCount, whole,
    Nat.add_mul_div_left _ _ (by omega)]
  omega

structure DanteCfg where
  chPerFlow : Int
  pt : UInt8
  ssrcBase : UInt32
deriving DecidableEq, Repr

def danteAnchor (mode : ReacMode) (now : Option Nat) : UInt32 :=
  match ptpNowTai now with
  | some (sec, nsec) => taiToRtpTs sec nsec mode.sampleRate
  | none => 0

/-- `run_dante` up to its first frame, or its exit code. -/
def runDanteStart (mode : ReacMode) (cfg : DanteCfg) (now : Option Nat) (memory : Block) :
    Option (Except Int (Pipeline DanteSinkCtx)) := do
  let (n, flows) ← danteBuildFlows reacMaxChannels mode.nChannels cfg.chPerFlow cfg.pt cfg.ssrcBase
  if n < 0 then return .error 2
  else
    let pl := pipelineAnchor (pipelineInit mode cfg.pt cfg.ssrcBase) (danteAnchor mode now)
    return .ok (pipelineSetPcmSink pl (some dantePcmSink) ⟨packetizerInit mode 4 flows memory, []⟩)

-- The timestamps the sink receives, in the order of the packets of the PCM stream.
def danteStamps (pl : Pipeline DanteSinkCtx) (captured : List (List UInt8)) : List UInt32 :=
  (pcmStream pl.mode pl.front captured).map (·.rtpTs)

theorem runDanteStart_front {mode : ReacMode} {cfg : DanteCfg} {now : Option Nat} {memory : Block}
    {pl : Pipeline DanteSinkCtx} (started : runDanteStart mode cfg now memory = some (.ok pl)) :
    pl.mode = mode ∧ pl.front =
      ⟨mediaClockInitAnchored mode.samplesPerPkt (danteAnchor mode now), plcInit mode 0 0⟩ := by
  cases built : danteBuildFlows reacMaxChannels mode.nChannels cfg.chPerFlow cfg.pt cfg.ssrcBase with
  | none => simp [runDanteStart, built] at started
  | some table =>
    by_cases refused : table.1 < 0
    · simp [runDanteStart, built, refused] at started
    · simp only [runDanteStart, built, Option.bind_eq_bind, Option.bind_some, refused, if_false] at started
      cases started
      exact ⟨rfl, rfl⟩

theorem danteAnchor_some {mode : ReacMode} (bound : mode.sampleRate < 2 ^ 31) (t : Nat) :
    danteAnchor mode (some t) = UInt32.ofNat (sampleCount mode.sampleRate t) :=
  taiToRtpTs_sampleCount bound t

-- Without losses the k-th packet of the stream is the k-th frame.
theorem pcmStream_lossFree_length (mode : ReacMode) {base : UInt16} {frames : Nat → List UInt8}
    (numbered : NumberedFrom base frames) {f : Front} (fresh : f.clock.started = false) (n : Nat) :
    (pcmStream mode f ((List.range n).map frames)).length = n := by
  cases n with
  | zero => rfl
  | succ n =>
    have split : List.range (n + 1) = 0 :: List.range' 1 n := by
      rw [List.range_eq_range', List.range'_succ]
    have chain : List.IsChain IncreasingNear (0 :: List.range' 1 n) := by
      rw [← split, List.range_eq_range']
      exact (List.isChain_range' 0 (n + 1) 1).imp fun slot next same => ⟨by omega, by omega⟩
    have last : (List.range' 1 n).getLastD 0 = n := by
      cases n with
      | zero => rfl
      | succ n => rw [List.range'_concat, List.getLastD_concat]; omega
    have slots := (pcmStream_slots mode numbered fresh 0 (List.range' 1 n) chain).length_eq
    rw [← split, List.length_range', last] at slots
    omega

theorem danteStamps_lossFree {mode : ReacMode} {cfg : DanteCfg} {now : Option Nat} {memory : Block}
    {pl : Pipeline DanteSinkCtx} (started : runDanteStart mode cfg now memory = some (.ok pl))
    {base : UInt16} {frames : Nat → List UInt8} (numbered : NumberedFrom base frames) (n : Nat) :
    danteStamps pl ((List.range n).map frames) =
      (List.range n).map (packetTs (danteAnchor mode now) mode.samplesPerPkt) := by
  obtain ⟨modeKept, front⟩ := runDanteStart_front started
  rw [danteStamps, modeKept, front]
  have stamped := pcmStream_stamped mode (danteAnchor mode now) (plcInit mode 0 0)
    ((List.range n).map frames)
  have length := pcmStream_lossFree_length mode numbered (f :=
    ⟨mediaClockInitAnchored mode.samplesPerPkt (danteAnchor mode now), plcInit mode 0 0⟩) rfl n
  apply List.ext_getElem
  · simp [length]
  · intro k inside _
    simp only [List.getElem_map, List.getElem_range]
    rw [stamped k _ (List.getElem?_eq_getElem _), Nat.zero_add]

-- Less than one frame apart, around the 32-bit circle.
def WithinFrame (samplesPerPkt : Nat) (ts ts' : UInt32) : Prop :=
  (ts - ts').toNat < samplesPerPkt ∨ (ts' - ts).toNat < samplesPerPkt

def CountsWithin (samplesPerPkt count count' : Nat) : Prop :=
  ((count : Int) - count') % 2 ^ 32 < samplesPerPkt ∨ ((count' : Int) - count) % 2 ^ 32 < samplesPerPkt

theorem ofNat_sub_toNat (count count' : Nat) :
    ((UInt32.ofNat count - UInt32.ofNat count').toNat : Int) = ((count : Int) - count') % 2 ^ 32 := by
  rw [UInt32.toNat_sub, UInt32.toNat_ofNat', UInt32.toNat_ofNat']
  omega

theorem withinFrame_counts (samplesPerPkt count count' : Nat) :
    WithinFrame samplesPerPkt (UInt32.ofNat count) (UInt32.ofNat count') ↔
      CountsWithin samplesPerPkt count count' := by
  have left := ofNat_sub_toNat count count'
  have right := ofNat_sub_toNat count' count
  rw [WithinFrame, CountsWithin]
  omega

theorem withinFrame_packetTs (samplesPerPkt : Nat) (anchor anchor' : UInt32) (k : Nat) :
    WithinFrame samplesPerPkt (packetTs anchor samplesPerPkt k) (packetTs anchor' samplesPerPkt k) ↔
      WithinFrame samplesPerPkt anchor anchor' := by
  have same (x y z : UInt32) : x + z - (y + z) = x - y := by grind
  rw [WithinFrame, WithinFrame, packetTs, packetTs, same, same]

section Senders

variable {mode : ReacMode} {cfg cfg' : DanteCfg} {start start' : Nat} {memory memory' : Block}
  {pl pl' : Pipeline DanteSinkCtx}

/-- The two sessions give each frame timestamps less than one frame apart. -/
def StampsAgree (mode : ReacMode) (pl pl' : Pipeline DanteSinkCtx) (captured : List (List UInt8)) : Prop :=
  ∀ (k : Nat) (ts ts' : UInt32), (danteStamps pl captured)[k]? = some ts →
    (danteStamps pl' captured)[k]? = some ts' →
      WithinFrame mode.samplesPerPkt ts ts'

theorem stampsAgree_starts (bound : mode.sampleRate < 2 ^ 31)
    (started : runDanteStart mode cfg (some start) memory = some (.ok pl))
    (started' : runDanteStart mode cfg' (some start') memory' = some (.ok pl'))
    {base : UInt16} {frames : Nat → List UInt8} (numbered : NumberedFrom base frames) {n : Nat}
    (positive : 0 < n) :
    StampsAgree mode pl pl' ((List.range n).map frames) ↔
      CountsWithin mode.samplesPerPkt (sampleCount mode.sampleRate start)
        (sampleCount mode.sampleRate start') := by
  rw [StampsAgree, danteStamps_lossFree started numbered, danteStamps_lossFree started' numbered,
    ← withinFrame_counts, ← danteAnchor_some bound, ← danteAnchor_some bound]
  constructor
  next =>
    intro agree
    have first := agree 0 _ _ (by simp [positive]; rfl) (by simp [positive]; rfl)
    exact (withinFrame_packetTs _ _ _ 0).mp first
  next =>
    intro near k ts ts' left right
    simp only [List.getElem?_map, Option.map_eq_some_iff] at left right
    obtain ⟨slot, inside, rfl⟩ := left
    obtain ⟨slot', inside', rfl⟩ := right
    obtain rfl := Option.some.inj (inside.symm.trans inside')
    exact (withinFrame_packetTs _ _ _ slot).mpr near

/-- Both sessions are anchored to the arrival of the stream, and so agree. -/
structure SendersAligned (mode : ReacMode) (arrival : Nat) (pl pl' : Pipeline DanteSinkCtx)
    (captured : List (List UInt8)) : Prop where
  stamps : StampsAgree mode pl pl' captured
  anchor : pl.clock.anchor = UInt32.ofNat (sampleCount mode.sampleRate arrival)
  anchor' : pl'.clock.anchor = UInt32.ofNat (sampleCount mode.sampleRate arrival)

theorem runDanteStart_anchor (bound : mode.sampleRate < 2 ^ 31)
    (started : runDanteStart mode cfg (some start) memory = some (.ok pl)) (arrival : Nat) :
    pl.clock.anchor = UInt32.ofNat (sampleCount mode.sampleRate arrival) ↔
      sampleCount mode.sampleRate start % 2 ^ 32 = sampleCount mode.sampleRate arrival % 2 ^ 32 := by
  have front := congrArg (·.clock.anchor) (runDanteStart_front started).2
  have anchored : pl.clock.anchor = UInt32.ofNat (sampleCount mode.sampleRate start) :=
    front.trans (danteAnchor_some bound start)
  rw [anchored, ← UInt32.toNat_inj, UInt32.toNat_ofNat', UInt32.toNat_ofNat']

theorem danteSenders_aligned (samples : 0 < mode.samplesPerPkt) (bound : mode.sampleRate < 2 ^ 31)
    (started : runDanteStart mode cfg (some start) memory = some (.ok pl))
    (started' : runDanteStart mode cfg' (some start') memory' = some (.ok pl'))
    {base : UInt16} {frames : Nat → List UInt8} (numbered : NumberedFrom base frames) {n : Nat}
    (positive : 0 < n) (arrival : Nat) :
    (StampsAgree mode pl pl' ((List.range n).map frames) ↔
        CountsWithin mode.samplesPerPkt (sampleCount mode.sampleRate start)
          (sampleCount mode.sampleRate start')) ∧
      (SendersAligned mode arrival pl pl' ((List.range n).map frames) ↔
        sampleCount mode.sampleRate start % 2 ^ 32 = sampleCount mode.sampleRate arrival % 2 ^ 32 ∧
          sampleCount mode.sampleRate start' % 2 ^ 32 =
            sampleCount mode.sampleRate arrival % 2 ^ 32) := by
  have agree := stampsAgree_starts bound started started' numbered positive
  have anchor := runDanteStart_anchor bound started arrival
  have anchor' := runDanteStart_anchor bound started' arrival
  refine ⟨agree, fun aligned => ⟨anchor.mp aligned.anchor, anchor'.mp aligned.anchor'⟩, ?_⟩
  rintro ⟨here, there⟩
  refine ⟨agree.mpr (.inl ?_), anchor.mpr here, anchor'.mpr there⟩
  omega

end Senders

theorem runDanteStart_ok {mode : ReacMode} {cfg : DanteCfg} {n : Int} {flows : List ReacFlow}
    (built : danteBuildFlows reacMaxChannels mode.nChannels cfg.chPerFlow cfg.pt cfg.ssrcBase =
      some (n, flows)) (accepted : 0 ≤ n) (now : Option Nat) (memory : Block) :
    ∃ pl, runDanteStart mode cfg now memory = some (.ok pl) := by
  simp only [runDanteStart, built, Option.bind_eq_bind, Option.bind_some, if_neg (not_lt.mpr accepted)]
  exact ⟨_, rfl⟩

def eightWideCfg : DanteCfg := ⟨8, 96, 0x5000⟩

theorem eightWideCfg_starts (now : Option Nat) :
    ∃ pl, runDanteStart reacMode48k eightWideCfg now Block.blank = some (.ok pl) :=
  runDanteStart_ok (show _ = some (5, eightWideFlows) by decide) (by decide) now Block.blank

theorem danteSenders_aligned_close : ∃ pl pl',
    runDanteStart reacMode48k eightWideCfg (some 1000000000000) Block.blank = some (.ok pl) ∧
      runDanteStart reacMode48k eightWideCfg (some 1000000200000) Block.blank = some (.ok pl') ∧
      StampsAgree reacMode48k pl pl' ((List.range 5).map (silentSource 65534)) := by
  obtain ⟨pl, started⟩ := eightWideCfg_starts (some 1000000000000)
  obtain ⟨pl', started'⟩ := eightWideCfg_starts (some 1000000200000)
  have aligned := danteSenders_aligned (by decide) (by decide) started started'
    (silentSource_numbered 65534) (show 0 < 5 by decide) 1000000300000
  exact ⟨pl, pl', started, started', aligned.1.mpr (.inr (by decide))⟩

-- Started one second apart, before a stream that arrives two seconds after the first start.
theorem danteSenders_not_aligned : ∃ pl pl',
    runDanteStart reacMode48k eightWideCfg (some 1000000000000) Block.blank = some (.ok pl) ∧
      runDanteStart reacMode48k eightWideCfg (some 1001000000000) Block.blank = some (.ok pl') ∧
      ¬ StampsAgree reacMode48k pl pl' ((List.range 1).map (silentSource 0)) ∧
      pl.clock.anchor ≠ UInt32.ofNat (sampleCount 48000 1002000000000) ∧
      pl'.clock.anchor ≠ UInt32.ofNat (sampleCount 48000 1002000000000) := by
  obtain ⟨pl, started⟩ := eightWideCfg_starts (some 1000000000000)
  obtain ⟨pl', started'⟩ := eightWideCfg_starts (some 1001000000000)
  have bound : reacMode48k.sampleRate < 2 ^ 31 := by decide
  refine ⟨pl, pl', started, started', ?_, ?_, ?_⟩
  · rw [stampsAgree_starts bound started started' (silentSource_numbered 0) Nat.one_pos]
    rintro (near | near) <;> exact absurd near (by decide)
  · exact fun same => absurd ((runDanteStart_anchor bound started _).mp same) (by decide)
  · exact fun same => absurd ((runDanteStart_anchor bound started' _).mp same) (by decide)

end ReacAes67
