import ReacAes67.CaptureLoops
import ReacAes67.Sample24

set_option autoImplicit false

/-!
# The playback encoder

`reac_tx_build` packs planar samples into one broadcast frame. Scaling, clamp
and `lrintf` of a float are left open: some map into the 24-bit samples that
sends zero to zero.
-/

namespace ReacAes67

open SampleBlock Endian

variable {α : Type}

structure Quantizer (α : Type) [Zero α] where
  quantize : α → Int
  signed : ∀ v, Signed24 (quantize v)
  silent : quantize 0 = 0

-- The planes of a frame, one pointer a channel, `none` for a null pointer.
abbrev Planar (α : Type) := Nat → Option (Nat → α)

def f32ToS24le [Zero α] (q : Quantizer α) (v : α) : Sample := pack24 (q.quantize v)

def txValue [Zero α] (planar : Planar α) (nch : Int) (ch s : Nat) : α :=
  if (ch : Int) < nch then
    match planar ch with
    | some plane => plane s
    | none => 0
  else 0

def txAudio [Zero α] (q : Quantizer α) (planar : Planar α) (nch ns : Int) : Block :=
  let n := reacMaxChannels
  let frames := if ns < reacSamplesPerPkt then ns else reacSamplesPerPkt
  Block.blank.store (grid frames.toNat n) (fun cell => cell.1 * n + cell.2)
    (fun cell => f32ToS24le q (txValue planar nch cell.2 cell.1))

def reacTxBuild [Zero α] (q : Quantizer α) (planar : Planar α) (nch ns : Int) (counter : UInt16)
    (src : Fin 6 → UInt8) : List UInt8 :=
  let out := Block.blank
  let out := out.copy 0 (fun _ => 0xff) 6
  let out := out.copy 6 (Block.ofBytes (List.ofFn src)) 6
  let out := out.copy 12 (Block.ofBytes [0x88, 0x19]) 2
  let out := out.copy 14
    (Block.ofBytes [(counter &&& 0xff).toUInt8, ((counter >>> 8) &&& 0xff).toUInt8]) 2
  let out := out.copy reacL2HeaderLen (txAudio q planar nch ns) reacAudioBytes
  let out := out.copy (reacFrameBytes - 2) (Block.ofBytes [reacEndMarker0, reacEndMarker1]) 2
  out.bytes reacFrameBytes

def txMacs (src : Fin 6 → UInt8) : Fin 12 → UInt8 := fun i =>
  if inside : i.val < 6 then 0xff else src ⟨i.val - 6, by omega⟩

theorem reacTxBuild_wireFrame [Zero α] (q : Quantizer α) (planar : Planar α) (nch ns : Int)
    (counter : UInt16) (src : Fin 6 → UInt8) :
    reacTxBuild q planar nch ns counter src =
      wireFrame (txMacs src) counter (txAudio q planar nch ns) := by
  rw [reacTxBuild]
  apply bytes_wireFrame
  next =>
    intro i
    have bound := i.isLt
    simp only [Block.copy, reacL2HeaderLen, reacFrameBytes, txMacs]
    rw [if_neg (by omega), if_neg (by omega), if_neg (by omega), if_neg (by omega)]
    by_cases inside : i.val < 6
    next => rw [if_neg (by omega), if_pos (by omega), dif_pos inside]
    next =>
      rw [if_pos (by omega), dif_neg inside]
      simp [Block.ofBytes, show i.val - 6 < 6 by omega, -List.ofFn_succ]
  next =>
    simp [Block.bytes, Block.advance, Block.copy, Block.ofBytes, List.range_succ, reacL2HeaderLen,
      reacFrameBytes, -UInt16.toUInt8_and]
  next =>
    intro i small
    simp only [Block.copy, reacL2HeaderLen, reacFrameBytes]
    rw [if_neg (by omega), if_neg (by omega), if_neg (by omega), if_neg (by omega), if_neg (by omega),
      if_neg (by omega)]
    rfl
  next =>
    apply Block.bytes_congr
    intro i inside
    have bound : reacL2HeaderLen + i < reacL2HeaderLen + reacAudioBytes := by omega
    simp only [Block.advance, Block.copy, bound, Nat.le_add_right, Nat.add_sub_cancel_left, true_and, if_true]
    simp only [reacAudioBytes] at inside
    rw [if_neg (by simp only [reacFrameBytes, reacL2HeaderLen]; omega)]
  next => simp [Block.bytes, Block.advance, Block.copy, Block.ofBytes, List.range_succ, reacFrameBytes]

theorem reacTxBuild_congr [Zero α] (q : Quantizer α) {left right : Planar α} (nch ns : Int)
    (counter : UInt16) (src : Fin 6 → UInt8)
    (same : ∀ ch s, ch < reacMaxChannels → s < reacSamplesPerPkt →
      txValue left nch ch s = txValue right nch ch s) :
    reacTxBuild q left nch ns counter src = reacTxBuild q right nch ns counter src := by
  have audio : txAudio q left nch ns = txAudio q right nch ns := by
    apply Block.store_congr
    rintro ⟨s, ch⟩ member
    have inside := mem_grid.mp member
    have time : s < reacSamplesPerPkt := by
      have row := inside.1
      split at row <;> omega
    simp only [f32ToS24le, same ch s inside.2 time]
  simp only [reacTxBuild, audio]

theorem txMacs_broadcast (src : Fin 6 → UInt8) (counter : UInt16) (audio : Block) :
    toBroadcast (wireFrame (txMacs src) counter audio) := by
  simp [toBroadcast, wireFrame, txMacs, List.ofFn_succ, List.replicate]

theorem txAudio_sample [Zero α] (q : Quantizer α) (planar : Planar α) (nch ns : Int) {ch s : Nat}
    (channel : ch < reacMaxChannels) (time : s < reacSamplesPerPkt) :
    load24 ((txAudio q planar nch ns).sample (s * reacMaxChannels + ch)) =
      if (s : Int) < ns then q.quantize (txValue planar nch ch s) else 0 := by
  have limit : reacSamplesPerPkt = 12 := rfl
  by_cases sent : (s : Int) < ns
  next =>
    have row : s < (if ns < reacSamplesPerPkt then ns else reacSamplesPerPkt).toNat := by
      split <;> omega
    have cell := sample_store_grid _ reacMaxChannels
      (fun cell => f32ToS24le q (txValue planar nch cell.2 cell.1)) Block.blank row channel
    rw [if_pos sent, txAudio, cell, f32ToS24le, load24_pack24 (q.signed _)]
  next =>
    have miss : (txAudio q planar nch ns).sample (s * reacMaxChannels + ch) =
        Block.blank.sample (s * reacMaxChannels + ch) := by
      apply Block.sample_store_outside
      rintro ⟨row, col⟩ member same
      have inside := mem_grid.mp member
      have rows : row = s := (rowMajor_inj inside.2 channel same).1
      have low := inside.1
      split at low <;> omega
    rw [if_neg sent, miss]
    exact (by decide : load24 ⟨0, 0, 0⟩ = 0)

/-- Every slot of a decoded frame holds the sample of its plane, or silence where there is none. -/
structure Carries [Zero α] (q : Quantizer α) (planar : Planar α) (nch ns : Int) (out : Block) : Prop where
  present : ∀ ch s plane, ch < reacMaxChannels → s < reacSamplesPerPkt → (ch : Int) < nch →
    (s : Int) < ns → planar ch = some plane →
    load24 (out.sample (ch * reacSamplesPerPkt + s)) = q.quantize (plane s)
  silent : ∀ ch s, ch < reacMaxChannels → s < reacSamplesPerPkt →
    nch ≤ ch ∨ ns ≤ s ∨ planar ch = none → load24 (out.sample (ch * reacSamplesPerPkt + s)) = 0

theorem reacDecode_planes {raw : List UInt8} (sampleRate : Nat) (out : Block)
    (valid : (reacFrameInspect raw).valid = true) :
    ∃ planes, reacDecode raw (broadcastMode sampleRate) out = some (reacSamplesPerPkt, planes) ∧
      ∀ ch s, ch < reacMaxChannels → s < reacSamplesPerPkt →
        planes.sample (ch * reacSamplesPerPkt + s) = audioSlot (broadcastMode sampleRate) raw ch s := by
  obtain ⟨planes, result⟩ : ∃ planes, reacDecode raw (broadcastMode sampleRate) out =
      some (reacSamplesPerPkt, planes) := by
    simp [reacDecode, valid, broadcastMode]
  exact ⟨planes, result, fun ch s channel time => reacDecode_sample result channel time⟩

theorem reacTxBuild_carries [Zero α] (q : Quantizer α) (planar : Planar α) (nch ns : Int)
    (counter : UInt16) (src : Fin 6 → UInt8) (sampleRate : Nat) (out : Block) :
    ∃ planes, reacDecode (reacTxBuild q planar nch ns counter src) (broadcastMode sampleRate) out =
      some (reacSamplesPerPkt, planes) ∧ Carries q planar nch ns planes := by
  have valid : (reacFrameInspect (reacTxBuild q planar nch ns counter src)).valid = true := by
    rw [reacTxBuild_wireFrame, wireFrame_inspect]
  obtain ⟨planes, decode, slots⟩ := reacDecode_planes sampleRate out valid
  have sample (ch s : Nat) (channel : ch < reacMaxChannels) (time : s < reacSamplesPerPkt) :
      load24 (planes.sample (ch * reacSamplesPerPkt + s)) =
        if (s : Int) < ns then q.quantize (txValue planar nch ch s) else 0 := by
    have slot := wireFrame_audioSlot (broadcastMode sampleRate)
      (broadcastMode_fillsFrame sampleRate).fits (txMacs src) counter (txAudio q planar nch ns) channel time
    rw [slots ch s channel time, reacTxBuild_wireFrame, slot]
    exact txAudio_sample q planar nch ns channel time
  refine ⟨planes, decode, ?_, ?_⟩
  next =>
    intro ch s plane channel time wanted sent here
    simp [sample ch s channel time, sent, txValue, wanted, here]
  next =>
    intro ch s channel time missing
    rw [sample ch s channel time]
    by_cases sent : (s : Int) < ns
    next =>
      rw [if_pos sent, txValue]
      by_cases wanted : (ch : Int) < nch
      next =>
        have none : planar ch = none := by
          rcases missing with beyond | beyond | none
          · omega
          · omega
          · exact none
        simp [wanted, none, q.silent]
      next => rw [if_neg wanted, q.silent]
    next => rw [if_neg sent]

-- Samples that are 24-bit already are sent as they are.
instance : Zero {x : Int // Signed24 x} := ⟨⟨0, by decide, by decide⟩⟩

def exactQuantizer : Quantizer {x : Int // Signed24 x} where
  quantize := Subtype.val
  signed := Subtype.property
  silent := rfl

def decodedPlanes (planes : Block) : Planar {x : Int // Signed24 x} := fun ch =>
  some fun s => ⟨load24 (planes.sample (ch * reacSamplesPerPkt + s)), load24_signed _⟩

def srcAddress (raw : List UInt8) : Fin 6 → UInt8 := fun i => raw.getD (6 + i.val) 0

/-- A broadcast frame as the encoder makes them: valid, its type and control bytes zero. -/
structure PlainBroadcast (raw : List UInt8) : Prop where
  valid : (reacFrameInspect raw).valid = true
  broadcast : toBroadcast raw
  control : ∀ i, 16 ≤ i → i < reacL2HeaderLen → raw.getD i 0 = 0

theorem reacTxBuild_plain [Zero α] (q : Quantizer α) (planar : Planar α) (nch ns : Int)
    (counter : UInt16) (src : Fin 6 → UInt8) : PlainBroadcast (reacTxBuild q planar nch ns counter src) := by
  rw [reacTxBuild_wireFrame]
  exact {
    valid := by rw [wireFrame_inspect]
    broadcast := txMacs_broadcast src counter _
    control := fun i low high => wireFrame_control _ _ _ low high }

theorem PlainBroadcast.wireFrame {raw : List UInt8} (plain : PlainBroadcast raw) :
    raw = wireFrame (txMacs (srcAddress raw)) (reacFrameInspect raw).counter
      ((Block.ofBytes raw).advance reacL2HeaderLen) := by
  obtain ⟨length, type0, type1, end0, end1, inspect⟩ := reacFrameInspect_valid plain.valid
  have whole : (Block.ofBytes raw).bytes reacFrameBytes = raw := Block.bytes_ofBytes length
  rw [inspect]
  refine whole.symm.trans (bytes_wireFrame ?_ ?_ ?_ rfl ?_)
  next =>
    intro i
    by_cases inside : i.val < 6
    next =>
      have destination : (raw.take 6)[i.val]? = some 0xff := by
        rw [plain.broadcast, List.getElem?_replicate_of_lt inside]
      rw [List.getElem?_take_of_lt inside] at destination
      simp [Block.ofBytes, txMacs, inside, destination]
    next => simp [Block.ofBytes, txMacs, srcAddress, inside, Nat.add_sub_cancel' (Nat.le_of_not_lt inside)]
  next =>
    simp only [Block.bytes, Block.advance, Block.ofBytes, List.range_succ, List.range_zero,
      List.nil_append, List.map_append, List.map_cons, List.map_nil, type0, type1, le16_low, le16_high]
    rfl
  next =>
    intro i small
    exact plain.control (16 + i) (by omega) (by simp only [reacL2HeaderLen]; omega)
  next =>
    simp only [Block.bytes, Block.advance, Block.ofBytes, List.range_succ, List.range_zero,
      List.nil_append, List.map_append, List.map_cons, List.map_nil, Nat.add_zero, end0, end1]
    rfl

theorem decodedPlanes_audio {raw : List UInt8} (sampleRate : Nat) {planes : Block}
    (slots : ∀ ch s, ch < reacMaxChannels → s < reacSamplesPerPkt →
      planes.sample (ch * reacSamplesPerPkt + s) = audioSlot (broadcastMode sampleRate) raw ch s) :
    (txAudio exactQuantizer (decodedPlanes planes) reacMaxChannels reacSamplesPerPkt).bytes reacAudioBytes =
      ((Block.ofBytes raw).advance reacL2HeaderLen).bytes reacAudioBytes := by
  have cells : reacAudioBytes = reacSamplesPerPkt * reacMaxChannels * 3 := rfl
  rw [cells]
  apply Block.bytes_eq_of_samples
  intro i inside
  obtain ⟨time, channel, split⟩ := rowMajor_split inside
  have cell := sample_store_grid reacSamplesPerPkt reacMaxChannels (fun cell => f32ToS24le exactQuantizer
    (txValue (decodedPlanes planes) reacMaxChannels cell.2 cell.1)) Block.blank time channel
  have wanted : ((i % reacMaxChannels : Nat) : Int) < (reacMaxChannels : Nat) := by exact_mod_cast channel
  rw [split]
  refine cell.trans ?_
  simp only [f32ToS24le, txValue, wanted, if_true, decodedPlanes, exactQuantizer, pack24_load24,
    slots _ _ channel time]
  rfl

theorem rebuild_decoded {raw : List UInt8} (plain : PlainBroadcast raw) (sampleRate : Nat) (out : Block) :
    ∃ planes, reacDecode raw (broadcastMode sampleRate) out = some (reacSamplesPerPkt, planes) ∧
      reacTxBuild exactQuantizer (decodedPlanes planes) reacMaxChannels reacSamplesPerPkt
        (reacFrameInspect raw).counter (srcAddress raw) = raw := by
  obtain ⟨planes, decode, slots⟩ := reacDecode_planes sampleRate out plain.valid
  have audio := decodedPlanes_audio sampleRate slots
  refine ⟨planes, decode, ?_⟩
  calc reacTxBuild exactQuantizer (decodedPlanes planes) reacMaxChannels reacSamplesPerPkt
        (reacFrameInspect raw).counter (srcAddress raw)
      = ReacAes67.wireFrame (txMacs (srcAddress raw)) (reacFrameInspect raw).counter
          ((Block.ofBytes raw).advance reacL2HeaderLen) := by
        rw [reacTxBuild_wireFrame, ReacAes67.wireFrame, audio, ReacAes67.wireFrame]
    _ = raw := plain.wireFrame.symm

/-- The encoder and the decoder are inverse to each other, header bytes included. -/
theorem reacTxBuild_inverse [Zero α] (q : Quantizer α) (sampleRate : Nat) :
    (∀ planar nch ns counter src out,
      reacFrameInspect (reacTxBuild q planar nch ns counter src) = ⟨counter, true⟩ ∧
      toBroadcast (reacTxBuild q planar nch ns counter src) ∧
      ∃ planes, reacDecode (reacTxBuild q planar nch ns counter src) (broadcastMode sampleRate) out =
        some (reacSamplesPerPkt, planes) ∧ Carries q planar nch ns planes) ∧
    (∀ raw out, PlainBroadcast raw →
      ∃ planes, reacDecode raw (broadcastMode sampleRate) out = some (reacSamplesPerPkt, planes) ∧
        reacTxBuild exactQuantizer (decodedPlanes planes) reacMaxChannels reacSamplesPerPkt
          (reacFrameInspect raw).counter (srcAddress raw) = raw) := by
  constructor
  next =>
    intro planar nch ns counter src out
    have inspect : reacFrameInspect (reacTxBuild q planar nch ns counter src) = ⟨counter, true⟩ := by
      rw [reacTxBuild_wireFrame, wireFrame_inspect]
    exact ⟨inspect, (reacTxBuild_plain q planar nch ns counter src).broadcast,
      reacTxBuild_carries q planar nch ns counter src sampleRate out⟩
  next =>
    intro raw out plain
    exact rebuild_decoded plain sampleRate out

-- The first three channels of five samples, the second one not connected.
theorem reacTxBuild_inverse_twoPlanes :
    let planar : Planar {x : Int // Signed24 x} := fun ch =>
      if ch = 1 then none else some fun _ => ⟨-8388608, by decide, by decide⟩
    let frame := reacTxBuild exactQuantizer planar 3 5 0xfffe (fun _ => 0x40)
    ∃ planes, reacDecode frame (broadcastMode 48000) Block.blank = some (12, planes) ∧
      reacTxBuild exactQuantizer (decodedPlanes planes) 40 12 (reacFrameInspect frame).counter
        (srcAddress frame) = frame := by
  intro planar frame
  exact (reacTxBuild_inverse exactQuantizer 48000).2 frame Block.blank
    (reacTxBuild_plain exactQuantizer planar 3 5 0xfffe fun _ => 0x40)

end ReacAes67
