import ReacAes67.Shared.Endian
import ReacAes67.Shared.SampleBlock

set_option autoImplicit false

/-!
# REAC frames

The wire constants and stream descriptor come from libreac, which is not part
of this repository; their values are the documented ones. `reac_decode` turns
one raw ethernet frame into planar 24-bit PCM.
-/

namespace ReacAes67

open SampleBlock Endian

def reacFrameBytes : Nat := 1492
def reacL2HeaderLen : Nat := 50
def reacAudioBytes : Nat := 1440
def reacResolution : Nat := 3
def reacMaxChannels : Nat := 40
def reacSamplesPerPkt : Nat := 12
def reacEndMarker0 : UInt8 := 0xC2
def reacEndMarker1 : UInt8 := 0xEA

structure ReacMode where
  sampleRate : Nat
  nChannels : Nat
  samplesPerPkt : Nat
deriving DecidableEq, Repr

def reacMode48k : ReacMode := ⟨48000, 40, 12⟩

-- 40 channels of 12 samples, the block every frame of the broadcast carries.
def broadcastMode (sampleRate : Nat) : ReacMode := ⟨sampleRate, reacMaxChannels, reacSamplesPerPkt⟩

-- The audio of the mode lies inside the frame and its channels inside the channel tables.
structure ReacMode.Fits (mode : ReacMode) : Prop where
  channels : 0 < mode.nChannels
  maxChannels : mode.nChannels ≤ reacMaxChannels
  samples : 0 < mode.samplesPerPkt
  audio : mode.nChannels * mode.samplesPerPkt * reacResolution ≤ reacAudioBytes

structure ReacMode.FillsFrame (mode : ReacMode) : Prop where
  maxChannels : mode.nChannels ≤ reacMaxChannels
  audio : mode.nChannels * mode.samplesPerPkt * reacResolution = reacAudioBytes

theorem ReacMode.FillsFrame.fits {mode : ReacMode} (fills : mode.FillsFrame) : mode.Fits where
  channels := by
    rcases Nat.eq_zero_or_pos mode.nChannels with zero | positive
    · have audio := fills.audio
      simp [zero, reacAudioBytes] at audio
    · exact positive
  maxChannels := fills.maxChannels
  samples := by
    rcases Nat.eq_zero_or_pos mode.samplesPerPkt with zero | positive
    · have audio := fills.audio
      simp [zero, reacAudioBytes] at audio
    · exact positive
  audio := fills.audio.le

theorem reacMode48k_fillsFrame : reacMode48k.FillsFrame := ⟨by decide, by decide⟩

theorem broadcastMode_fillsFrame (sampleRate : Nat) : (broadcastMode sampleRate).FillsFrame where
  maxChannels := Nat.le_refl _
  audio := by simp [broadcastMode, reacMaxChannels, reacSamplesPerPkt, reacResolution, reacAudioBytes]

def ReacMode.slots (mode : ReacMode) : Nat := mode.nChannels * mode.samplesPerPkt

theorem ReacMode.Fits.slots_le {mode : ReacMode} (fits : mode.Fits) : mode.slots ≤ 480 := by
  have audio := fits.audio
  simp only [reacResolution, reacAudioBytes] at audio
  simp only [ReacMode.slots]
  omega

structure ReacFrame where
  counter : UInt16
  valid : Bool
deriving DecidableEq, Repr

-- The mode argument of the C function is unused there and left out.
def reacFrameInspect (raw : List UInt8) : ReacFrame :=
  if raw.length ≠ reacFrameBytes then ⟨0, false⟩
  else if raw.getD 12 0 ≠ 0x88 ∨ raw.getD 13 0 ≠ 0x19 then ⟨0, false⟩
  else if raw.getD (raw.length - 2) 0 ≠ reacEndMarker0 ∨
      raw.getD (raw.length - 1) 0 ≠ reacEndMarker1 then ⟨0, false⟩
  else ⟨le16 (raw.getD 14 0) (raw.getD 15 0), true⟩

theorem reacFrameInspect_valid {raw : List UInt8} (valid : (reacFrameInspect raw).valid = true) :
    raw.length = reacFrameBytes ∧ raw.getD 12 0 = 0x88 ∧ raw.getD 13 0 = 0x19 ∧
      raw.getD 1490 0 = reacEndMarker0 ∧ raw.getD 1491 0 = reacEndMarker1 ∧
      reacFrameInspect raw = ⟨le16 (raw.getD 14 0) (raw.getD 15 0), true⟩ := by
  by_cases length : raw.length = reacFrameBytes
  next =>
    have last : raw.length - 2 = 1490 ∧ raw.length - 1 = 1491 := by simp [length, reacFrameBytes]
    rw [reacFrameInspect, if_neg (not_not.mpr length), last.1, last.2] at valid ⊢
    split at valid
    next => cases valid
    next type =>
      split at valid
      next => cases valid
      next marker =>
        push Not at type marker
        refine ⟨length, type.1, type.2, marker.1, marker.2, ?_⟩
        simp only [type, marker, ne_eq, not_true, or_self, if_false]
  next => simp [reacFrameInspect, length] at valid

def audioSlot (mode : ReacMode) (raw : List UInt8) (ch s : Nat) : Sample :=
  ((Block.ofBytes raw).advance reacL2HeaderLen).sample (s * mode.nChannels + ch)

-- Returns the samples per channel and the planar block, or `none` for the C result -1.
def reacDecode (raw : List UInt8) (mode : ReacMode) (out : Block) : Option (Nat × Block) :=
  let f := reacFrameInspect raw
  if !f.valid then none
  else
    let nch := mode.nChannels
    let ns := mode.samplesPerPkt
    -- dptr moves on by one sample a cell, so cell (ch, s) lands at ch * ns + s
    some (ns, out.store (grid nch ns) (fun cell => cell.1 * ns + cell.2)
      (fun cell => audioSlot mode raw cell.1 cell.2))

def decoded (mode : ReacMode) (raw : List UInt8) : Block :=
  Block.blank.store (grid mode.nChannels mode.samplesPerPkt)
    (fun cell => cell.1 * mode.samplesPerPkt + cell.2)
    (fun cell => audioSlot mode raw cell.1 cell.2)

theorem reacDecode_valid (mode : ReacMode) {raw : List UInt8}
    (valid : (reacFrameInspect raw).valid = true) :
    reacDecode raw mode Block.blank = some (mode.samplesPerPkt, decoded mode raw) := by
  simp [reacDecode, decoded, valid]

theorem reacDecode_malformed (mode : ReacMode) {raw : List UInt8} (out : Block)
    (invalid : (reacFrameInspect raw).valid = false) : reacDecode raw mode out = none := by
  simp [reacDecode, invalid]

theorem decoded_sample (mode : ReacMode) (raw : List UInt8) {ch s : Nat}
    (channel : ch < mode.nChannels) (time : s < mode.samplesPerPkt) :
    (decoded mode raw).sample (ch * mode.samplesPerPkt + s) = audioSlot mode raw ch s :=
  sample_store_grid mode.nChannels mode.samplesPerPkt _ Block.blank channel time

theorem reacDecode_sample {mode : ReacMode} {raw : List UInt8} {planarPcm out : Block} {ns : Nat}
    (result : reacDecode raw mode out = some (ns, planarPcm)) {ch s : Nat} (channel : ch < mode.nChannels)
    (time : s < mode.samplesPerPkt) :
    planarPcm.sample (ch * mode.samplesPerPkt + s) = audioSlot mode raw ch s := by
  cases valid : (reacFrameInspect raw).valid with
  | false => simp [reacDecode_malformed mode out valid] at result
  | true =>
    simp only [reacDecode, valid, Bool.not_true, Bool.false_eq_true, if_false, Option.some.injEq,
      Prod.mk.injEq] at result
    rw [← result.2]
    exact sample_store_grid mode.nChannels mode.samplesPerPkt _ out channel time

/-- A frame as the wire carries it: addresses, EtherType, counter, type and control bytes
(zero for plain audio), audio and end marker. -/
def wireFrame (macs : Fin 12 → UInt8) (counter : UInt16) (audio : Block) : List UInt8 :=
  List.ofFn macs ++ [0x88, 0x19, counter.toUInt8, (counter >>> 8).toUInt8] ++
    List.replicate 34 0 ++ audio.bytes reacAudioBytes ++ [reacEndMarker0, reacEndMarker1]

theorem bytes_wireFrame {b audio : Block} {macs : Fin 12 → UInt8} {counter : UInt16}
    (addresses : ∀ i : Fin 12, b i = macs i)
    (header : (b.advance 12).bytes 4 = [0x88, 0x19, counter.toUInt8, (counter >>> 8).toUInt8])
    (control : ∀ i, i < 34 → b (16 + i) = 0)
    (samples : (b.advance reacL2HeaderLen).bytes reacAudioBytes = audio.bytes reacAudioBytes)
    (marker : (b.advance 1490).bytes 2 = [reacEndMarker0, reacEndMarker1]) :
    b.bytes reacFrameBytes = wireFrame macs counter audio := by
  have first : b.bytes 12 = List.ofFn macs := by
    apply List.ext_getElem
    next => simp
    next =>
      intro i inside _
      have bound : i < 12 := by simpa using inside
      simpa [Block.bytes, -List.ofFn_succ] using addresses ⟨i, bound⟩
  have zeros : (b.advance 16).bytes 34 = List.replicate 34 0 := by
    rw [List.eq_replicate_iff]
    refine ⟨by simp, fun x member => ?_⟩
    obtain ⟨i, inside, rfl⟩ := List.mem_map.mp member
    exact control i (List.mem_range.mp inside)
  have regions : reacFrameBytes = 12 + 4 + 34 + reacAudioBytes + 2 := rfl
  have audioStart : 12 + 4 + 34 = reacL2HeaderLen := rfl
  have markerStart : reacL2HeaderLen + reacAudioBytes = 1490 := rfl
  rw [regions, Block.bytes_append, Block.bytes_append, Block.bytes_append, Block.bytes_append, audioStart,
    markerStart, first, header, zeros, samples, marker, wireFrame]

theorem wireFrame_length (macs : Fin 12 → UInt8) (counter : UInt16) (audio : Block) :
    (wireFrame macs counter audio).length = reacFrameBytes := by
  simp [wireFrame, reacAudioBytes, reacFrameBytes]

theorem wireFrame_inspect (macs : Fin 12 → UInt8) (counter : UInt16) (audio : Block) :
    reacFrameInspect (wireFrame macs counter audio) = ⟨counter, true⟩ := by
  have marker (k : Nat) (value : UInt8) (last : [reacEndMarker0, reacEndMarker1][k]? = some value) :
      (wireFrame macs counter audio).getD (1490 + k) 0 = value := by
    rw [wireFrame, List.getD_eq_getElem?_getD, List.getElem?_append_right (by simp [reacAudioBytes])]
    simp [reacAudioBytes, last]
  have header (k : Nat) (value : UInt8)
      (field : [0x88, 0x19, counter.toUInt8, (counter >>> 8).toUInt8][k]? = some value) :
      (wireFrame macs counter audio).getD (12 + k) 0 = value := by
    have bound : k < 4 := by
      have inside := (List.getElem?_eq_some_iff.mp field).1
      simpa using inside
    simp only [wireFrame, List.append_assoc, List.getD_eq_getElem?_getD]
    rw [List.getElem?_append_right (by simp), List.length_ofFn, Nat.add_sub_cancel_left,
      List.getElem?_append_left (by simpa using bound), field]
    rfl
  unfold reacFrameInspect
  rw [wireFrame_length, header 0 0x88 rfl, header 1 0x19 rfl, header 2 _ rfl, header 3 _ rfl,
    show reacFrameBytes - 2 = 1490 + 0 from rfl, show reacFrameBytes - 1 = 1490 + 1 from rfl,
    marker 0 reacEndMarker0 rfl, marker 1 reacEndMarker1 rfl, le16_bytes]
  simp

theorem wireFrame_control (macs : Fin 12 → UInt8) (counter : UInt16) (audio : Block) {i : Nat}
    (low : 16 ≤ i) (high : i < reacL2HeaderLen) : (wireFrame macs counter audio).getD i 0 = 0 := by
  simp only [reacL2HeaderLen] at high
  simp only [wireFrame, List.append_assoc, List.getD_eq_getElem?_getD]
  rw [List.getElem?_append_right (by simp; omega), List.getElem?_append_right (by simp; omega),
    List.getElem?_append_left (by simp; omega), List.getElem?_replicate_of_lt (by simp; omega)]
  rfl

theorem wireFrame_audioSlot (mode : ReacMode) (fits : mode.Fits) (macs : Fin 12 → UInt8)
    (counter : UInt16) (audio : Block) {ch s : Nat} (channel : ch < mode.nChannels)
    (time : s < mode.samplesPerPkt) :
    audioSlot mode (wireFrame macs counter audio) ch s = audio.sample (s * mode.nChannels + ch) := by
  have inside : s * mode.nChannels + ch < 480 :=
    calc s * mode.nChannels + ch < mode.samplesPerPkt * mode.nChannels := rowMajor_lt time channel
      _ = mode.slots := Nat.mul_comm _ _
      _ ≤ 480 := fits.slots_le
  apply Block.sample_congr
  intro k small
  have position : (s * mode.nChannels + ch) * 3 + k < reacAudioBytes := by
    simp only [reacAudioBytes]
    omega
  simp only [Block.advance, Block.ofBytes, wireFrame, List.getD_eq_getElem?_getD]
  rw [List.getElem?_append_left (by simp [reacL2HeaderLen]; omega),
    List.getElem?_append_right (by simp [reacL2HeaderLen])]
  simp [reacL2HeaderLen, Block.bytes, position]

end ReacAes67
