import ReacAes67.RtpL24

set_option autoImplicit false

/-!
# Writing and reading back an RTP packet

`rtp_l24_build_flow` at the level of its output buffer, and a receiver that
reads the header and the big-endian samples. Decoding a frame and building the
all-channel packet from it undo each other's layout change.
-/

namespace ReacAes67

open SampleBlock

-- The header is four samples long, so cell (s, fc) of the payload is sample 4 + s * flowNch + fc.
def rtpL24FillFlow (out : Block) (p : RtpParams) (planarPcm : Block)
    (chStart flowNch nSamples : Nat) : Block :=
  (out.copy 0 (Block.ofBytes (writeRtpHeader p)) rtpHeaderLen).store (grid nSamples flowNch)
    (fun cell => 4 + (cell.1 * flowNch + cell.2))
    (fun cell => (planarPcm.sample ((chStart + cell.2) * nSamples + cell.1)).swap)

/-- The result of the C function and its buffer after the call. -/
def rtpL24BuildFlowInto (out : Block) (cap : Nat) (p : RtpParams) (planarPcm : Block)
    (totalNch chStart flowNch nSamples : Int) : Int × Block :=
  if chStart < 0 ∨ flowNch ≤ 0 ∨ nSamples ≤ 0 ∨ chStart + flowNch > totalNch then (-1, out)
  else
    let payload := flowNch.toNat * nSamples.toNat * 3
    let total := rtpHeaderLen + payload
    if cap < total then (-1, out)
    else (total, rtpL24FillFlow out p planarPcm chStart.toNat flowNch.toNat nSamples.toNat)

def rtpL24BuildInto (out : Block) (cap : Nat) (p : RtpParams) (planarPcm : Block)
    (mode : ReacMode) : Int × Block :=
  rtpL24BuildFlowInto out cap p planarPcm mode.nChannels 0 mode.nChannels mode.samplesPerPkt

section Fill

variable (out : Block) (p : RtpParams) (planarPcm : Block) (chStart flowNch nSamples : Nat)

theorem rtpL24FillFlow_header :
    (rtpL24FillFlow out p planarPcm chStart flowNch nSamples).bytes rtpHeaderLen = writeRtpHeader p := by
  have kept : (rtpL24FillFlow out p planarPcm chStart flowNch nSamples).bytes (4 * 3) =
      (out.copy 0 (Block.ofBytes (writeRtpHeader p)) rtpHeaderLen).bytes (4 * 3) := by
    apply Block.bytes_eq_of_samples
    intro i inside
    exact Block.sample_store_outside _ _ _ _ fun cell _ => by omega
  have copied : (out.copy 0 (Block.ofBytes (writeRtpHeader p)) rtpHeaderLen).bytes rtpHeaderLen =
      (Block.ofBytes (writeRtpHeader p)).bytes rtpHeaderLen := by
    apply Block.bytes_congr
    intro i inside
    simp [Block.copy, inside]
  exact (kept.trans copied).trans (Block.bytes_ofBytes (writeRtpHeader_length p))

theorem rtpL24FillFlow_sample {s fc : Nat} (time : s < nSamples) (channel : fc < flowNch) :
    (rtpL24FillFlow out p planarPcm chStart flowNch nSamples).sample (4 + (s * flowNch + fc)) =
      (planarPcm.sample ((chStart + fc) * nSamples + s)).swap := by
  apply Block.sample_store (grid nSamples flowNch) (fun cell => 4 + (cell.1 * flowNch + cell.2)) _ _ (s, fc)
    (by simp [time, channel])
  rintro ⟨s', fc'⟩ member same
  obtain ⟨rfl, rfl⟩ := rowMajor_inj (mem_grid.mp member).2 channel (Nat.add_left_cancel same)
  rfl

theorem rtpL24FillFlow_bytes :
    (rtpL24FillFlow out p planarPcm chStart flowNch nSamples).bytes
        (rtpHeaderLen + flowNch * nSamples * 3) =
      flowPacket p planarPcm chStart flowNch nSamples := by
  rw [Block.bytes_append, rtpL24FillFlow_header, flowPacket]
  congr 1
  apply Block.bytes_eq_of_samples
  intro k inside
  rw [Nat.mul_comm] at inside
  obtain ⟨time, channel, split⟩ := rowMajor_split inside
  rw [show rtpHeaderLen = 4 * 3 from rfl, Block.sample_advance, split,
    rtpL24FillFlow_sample out p planarPcm chStart flowNch nSamples time channel]
  symm
  exact sample_store_grid nSamples flowNch _ Block.blank time channel

theorem rtpL24FillFlow_after {i : Nat} (after : rtpHeaderLen + flowNch * nSamples * 3 ≤ i) :
    rtpL24FillFlow out p planarPcm chStart flowNch nSamples i = out i := by
  have header : rtpHeaderLen = 12 := rfl
  have untouched : rtpL24FillFlow out p planarPcm chStart flowNch nSamples i =
      out.copy 0 (Block.ofBytes (writeRtpHeader p)) rtpHeaderLen i := by
    apply Block.eq_of_sample
    apply Block.sample_store_outside
    intro cell member
    have inside := rowMajor_lt (mem_grid.mp member).1 (mem_grid.mp member).2
    rw [Nat.mul_comm nSamples] at inside
    omega
  rw [untouched, Block.copy, if_neg (by omega)]

end Fill

/-- What makes the builder refuse: an empty slice or one outside the block, no samples, or no room. -/
def FlowRejected (cap : Nat) (totalNch chStart flowNch nSamples : Int) : Prop :=
  chStart < 0 ∨ flowNch ≤ 0 ∨ totalNch < chStart + flowNch ∨ nSamples ≤ 0 ∨
    (cap : Int) < rtpHeaderLen + flowNch * nSamples * 3

-- What a receiver of `flowNch` channels makes of a packet: the header and sample `s` of channel `fc`.
def parseL24 (flowNch : Nat) (pkt : List UInt8) : Option (RtpHeader × (Nat → Nat → Sample)) :=
  (parseRtp pkt).map fun (header, payload) =>
    (header, fun fc s => ((Block.ofBytes payload).sample (s * flowNch + fc)).swap)

theorem rtpL24BuildFlowInto_rejected {cap : Nat} {totalNch chStart flowNch nSamples : Int}
    (rejected : FlowRejected cap totalNch chStart flowNch nSamples) (out : Block) (p : RtpParams)
    (planarPcm : Block) :
    rtpL24BuildFlowInto out cap p planarPcm totalNch chStart flowNch nSamples = (-1, out) := by
  unfold rtpL24BuildFlowInto
  split
  next => rfl
  next slice =>
    have short : (cap : Int) < rtpHeaderLen + flowNch * nSamples * 3 := by
      rcases rejected with below | empty | outside | still | short
      · exact absurd (Or.inl below) slice
      · exact absurd (Or.inr (Or.inl empty)) slice
      · exact absurd (Or.inr (Or.inr (Or.inr outside))) slice
      · exact absurd (Or.inr (Or.inr (Or.inl still))) slice
      · exact short
    have width : (flowNch.toNat : Int) = flowNch := Int.toNat_of_nonneg (by omega)
    have samples : (nSamples.toNat : Int) = nSamples := Int.toNat_of_nonneg (by omega)
    have room : cap < rtpHeaderLen + flowNch.toNat * nSamples.toNat * 3 := by
      rw [← width, ← samples] at short
      exact_mod_cast short
    simp only [room, if_true]

theorem flowRejected_not {cap : Nat} {totalNch chStart flowNch nSamples : Int}
    (accepted : ¬ FlowRejected cap totalNch chStart flowNch nSamples) :
    ∃ start width samples : Nat, chStart = start ∧ flowNch = width ∧ nSamples = samples ∧ 0 < width ∧
      0 < samples ∧ ((start + width : Nat) : Int) ≤ totalNch ∧ rtpHeaderLen + width * samples * 3 ≤ cap := by
  simp only [FlowRejected, not_or, Int.not_lt, Int.not_le] at accepted
  obtain ⟨start, width, inside, samples, room⟩ := accepted
  lift chStart to Nat using start
  lift flowNch to Nat using by omega
  lift nSamples to Nat using by omega
  exact ⟨chStart, flowNch, nSamples, rfl, rfl, rfl, by omega, by omega, by omega, by exact_mod_cast room⟩

theorem rtpL24BuildFlowInto_accepted (out : Block) (p : RtpParams) (planarPcm : Block) (totalNch : Int)
    {cap chStart flowNch nSamples : Nat} (nonempty : 0 < flowNch) (samples : 0 < nSamples)
    (inside : ((chStart + flowNch : Nat) : Int) ≤ totalNch)
    (room : rtpHeaderLen + flowNch * nSamples * 3 ≤ cap) :
    rtpL24BuildFlowInto out cap p planarPcm totalNch chStart flowNch nSamples =
      (((rtpHeaderLen + flowNch * nSamples * 3 : Nat) : Int),
        rtpL24FillFlow out p planarPcm chStart flowNch nSamples) := by
  unfold rtpL24BuildFlowInto
  rw [if_neg (by omega)]
  simp only [Int.toNat_natCast]
  rw [if_neg (by omega)]

-- The packet the rest of the development sends is what the call leaves in the buffer.
theorem rtpL24BuildFlow_into (out : Block) (cap : Nat) (p : RtpParams) (planarPcm : Block)
    (totalNch chStart flowNch nSamples : Int) :
    let built := rtpL24BuildFlowInto out cap p planarPcm totalNch chStart flowNch nSamples
    rtpL24BuildFlow cap p planarPcm totalNch chStart flowNch nSamples =
      if built.1 = -1 then none else some (built.2.bytes built.1.toNat) := by
  simp only [rtpL24BuildFlow, rtpL24BuildFlowInto]
  split
  next => rfl
  next =>
    split
    next => rfl
    next =>
      rw [if_neg (by omega), Int.toNat_natCast, rtpL24FillFlow_bytes]

theorem parseL24_flowPacket (p : RtpParams) (planarPcm : Block) (chStart flowNch nSamples : Nat) :
    ∃ samples, parseL24 flowNch (flowPacket p planarPcm chStart flowNch nSamples) = some (p.header, samples) ∧
      ∀ fc s, fc < flowNch → s < nSamples →
        samples fc s = planarPcm.sample ((chStart + fc) * nSamples + s) := by
  refine ⟨_, by rw [parseL24, parseRtp_flowPacket]; rfl, fun fc s channel time => ?_⟩
  have sent := flowPacket_sample p planarPcm chStart time channel
  rw [payloadSample] at sent
  rw [sent]
  rfl

def audioRegion (raw : List UInt8) : List UInt8 := (raw.drop reacL2HeaderLen).take reacAudioBytes

theorem audioRegion_bytes {raw : List UInt8} (length : raw.length = reacFrameBytes) :
    audioRegion raw = ((Block.ofBytes raw).advance reacL2HeaderLen).bytes reacAudioBytes := by
  have whole : raw.length = 50 + 1440 + 2 := length
  have bytes : raw = (Block.ofBytes raw).bytes (reacL2HeaderLen + reacAudioBytes + 2) :=
    (Block.bytes_ofBytes length).symm
  rw [Block.bytes_append, Block.bytes_append, List.append_assoc] at bytes
  conv_lhs => rw [audioRegion, bytes]
  rw [List.drop_left' (Block.bytes_length _ _), List.take_left' (Block.bytes_length _ _)]

-- The planar block of a frame, sent whole, puts every sample back at its place in the frame.
theorem allChannels_payload {mode : ReacMode}
    (whole : mode.nChannels * mode.samplesPerPkt * reacResolution = reacAudioBytes) (p : RtpParams)
    {raw : List UInt8} {planarPcm out : Block} {ns : Nat} (length : raw.length = reacFrameBytes)
    (result : reacDecode raw mode out = some (ns, planarPcm)) :
    (flowPacket p planarPcm 0 mode.nChannels mode.samplesPerPkt).drop rtpHeaderLen =
      reverseSamples (audioRegion raw) := by
  rw [flowPacket, ← writeRtpHeader_length p, List.drop_left, audioRegion_bytes length, ← whole]
  apply bytes_reverseSamples
  intro k inside
  rw [Nat.mul_comm] at inside
  obtain ⟨time, channel, split⟩ := rowMajor_split inside
  rw [split, flowPayload, sample_store_grid mode.samplesPerPkt mode.nChannels _ _ time channel, Nat.zero_add,
    reacDecode_sample result channel time]
  rfl

theorem rtpL24Build_wholeFrame {mode : ReacMode}
    (whole : mode.nChannels * mode.samplesPerPkt * reacResolution = reacAudioBytes) {cap : Nat}
    (room : rtpHeaderLen + reacAudioBytes ≤ cap) {raw : List UInt8} {decodeOut planarPcm : Block} {ns : Nat}
    (length : raw.length = reacFrameBytes) (result : reacDecode raw mode decodeOut = some (ns, planarPcm))
    (out : Block) (p : RtpParams) :
    let built := rtpL24BuildInto out cap p planarPcm mode
    built.1 = rtpHeaderLen + reacAudioBytes ∧
      parseRtp (built.2.bytes built.1.toNat) = some (p.header, reverseSamples (audioRegion raw)) := by
  have payload : mode.nChannels * mode.samplesPerPkt * 3 = reacAudioBytes := whole
  have product : mode.nChannels * mode.samplesPerPkt ≠ 0 := by
    intro zero
    simp [zero, reacAudioBytes] at whole
  obtain ⟨channels, samples⟩ := Nat.mul_ne_zero_iff.mp product
  have accepted : rtpL24BuildInto out cap p planarPcm mode =
      (((rtpHeaderLen + mode.nChannels * mode.samplesPerPkt * 3 : Nat) : Int),
        rtpL24FillFlow out p planarPcm 0 mode.nChannels mode.samplesPerPkt) :=
    rtpL24BuildFlowInto_accepted out p planarPcm mode.nChannels (Nat.pos_of_ne_zero channels)
      (Nat.pos_of_ne_zero samples) (by simp) (by omega)
  simp only [accepted, Int.toNat_natCast, rtpL24FillFlow_bytes, parseRtp_flowPacket,
    allChannels_payload whole p length result, and_true]
  rw [payload, Nat.cast_add]

/-- A packet is refused, with the buffer untouched, exactly when its slice is empty or outside the block,
it has no samples or does not fit; otherwise what is sent is the buffer, and a receiver reads back its header
and the samples of the slice.
The all-channel packet of a decoded frame carries the audio of the frame, each sample big-endian. -/
theorem rtpL24Build_inverts :
    (∀ (out : Block) (cap : Nat) (p : RtpParams) (planarPcm : Block)
        (totalNch chStart flowNch nSamples : Int),
      let built := rtpL24BuildFlowInto out cap p planarPcm totalNch chStart flowNch nSamples
      (built = (-1, out) ↔ FlowRejected cap totalNch chStart flowNch nSamples) ∧
        rtpL24BuildFlow cap p planarPcm totalNch chStart flowNch nSamples =
          (if built.1 = -1 then none else some (built.2.bytes built.1.toNat)) ∧
        (¬ FlowRejected cap totalNch chStart flowNch nSamples →
          built.1 = rtpHeaderLen + flowNch * nSamples * 3 ∧
            (∀ i, built.1.toNat ≤ i → built.2 i = out i) ∧
            ∃ samples, parseL24 flowNch.toNat (built.2.bytes built.1.toNat) = some (p.header, samples) ∧
              ∀ fc s : Nat, (fc : Int) < flowNch → (s : Int) < nSamples →
                samples fc s = planarPcm.sample ((chStart.toNat + fc) * nSamples.toNat + s))) ∧
    (∀ (mode : ReacMode) (raw : List UInt8) (decodeOut out : Block) (cap : Nat) (p : RtpParams),
      (reacFrameInspect raw).valid = true →
      mode.nChannels * mode.samplesPerPkt * reacResolution = reacAudioBytes →
      rtpHeaderLen + reacAudioBytes ≤ cap →
      ∃ planarPcm, reacDecode raw mode decodeOut = some (mode.samplesPerPkt, planarPcm) ∧
        let built := rtpL24BuildInto out cap p planarPcm mode
        built.1 = rtpHeaderLen + reacAudioBytes ∧
          parseRtp (built.2.bytes built.1.toNat) = some (p.header, reverseSamples (audioRegion raw))) := by
  constructor
  next =>
    intro out cap p planarPcm totalNch chStart flowNch nSamples
    have sent := rtpL24BuildFlow_into out cap p planarPcm totalNch chStart flowNch nSamples
    by_cases rejected : FlowRejected cap totalNch chStart flowNch nSamples
    next =>
      have refused := rtpL24BuildFlowInto_rejected rejected out p planarPcm
      simpa [refused, rejected] using sent
    next =>
      obtain ⟨start, width, count, rfl, rfl, rfl, nonempty, some, inside, room⟩ :=
        flowRejected_not rejected
      have accepted := rtpL24BuildFlowInto_accepted out p planarPcm totalNch nonempty some inside room
      obtain ⟨samples, parsed, equal⟩ := parseL24_flowPacket p planarPcm start width count
      simp only [accepted, Int.toNat_natCast, rtpL24FillFlow_bytes] at sent
      simp only [accepted, rejected, iff_false, not_false_eq_true, true_implies, Int.toNat_natCast,
        rtpL24FillFlow_bytes]
      refine ⟨by simp; omega, sent, by simp, fun i after => ?_, samples, parsed, fun fc s channel time => ?_⟩
      · exact rtpL24FillFlow_after out p planarPcm start width count after
      · exact equal fc s (by omega) (by omega)
  next =>
    intro mode raw decodeOut out cap p valid whole room
    obtain ⟨planarPcm, result⟩ : ∃ planarPcm, reacDecode raw mode decodeOut =
        some (mode.samplesPerPkt, planarPcm) := by
      simp [reacDecode, valid]
    exact ⟨planarPcm, result,
      rtpL24Build_wholeFrame whole room (reacFrameInspect_valid valid).1 result out p⟩

-- Channels 1 and 2 of four, then a whole frame, of bytes that count up.
theorem rtpL24Build_inverts_ramp :
    rtpL24BuildFlowInto Block.blank 23 ⟨97, 7, 12345, 9⟩ UInt8.ofNat 4 1 2 2 = (-1, Block.blank) ∧
      (∃ samples,
        parseL24 2 ((rtpL24BuildFlowInto Block.blank 24 ⟨97, 7, 12345, 9⟩ UInt8.ofNat 4 1 2 2).2.bytes 24) =
            some (RtpParams.header ⟨97, 7, 12345, 9⟩, samples) ∧
          samples 0 0 = ⟨6, 7, 8⟩ ∧ samples 1 1 = ⟨15, 16, 17⟩) ∧
      ∃ planarPcm, reacDecode (wireFrame (fun _ => 0) 7 UInt8.ofNat) reacMode48k Block.blank =
          some (12, planarPcm) ∧
        let built := rtpL24BuildInto Block.blank 2048 ⟨97, 7, 12345, 9⟩ planarPcm reacMode48k
        built.1 = rtpHeaderLen + reacAudioBytes ∧
          parseRtp (built.2.bytes built.1.toNat) = some (RtpParams.header ⟨97, 7, 12345, 9⟩,
            reverseSamples (audioRegion (wireFrame (fun _ => 0) 7 UInt8.ofNat))) ∧
          audioSlot reacMode48k (wireFrame (fun _ => 0) 7 UInt8.ofNat) 1 0 = ⟨3, 4, 5⟩ := by
  have table := rtpL24Build_inverts.1 Block.blank
  refine ⟨?_, ?_, ?_⟩
  next =>
    exact (table 23 ⟨97, 7, 12345, 9⟩ UInt8.ofNat 4 1 2 2).1.mpr (by simp [FlowRejected, rtpHeaderLen])
  next =>
    have accepted := (table 24 ⟨97, 7, 12345, 9⟩ UInt8.ofNat 4 1 2 2).2.2
      (by simp [FlowRejected, rtpHeaderLen])
    obtain ⟨length, _, samples, parsed, equal⟩ := accepted
    rw [length] at parsed
    exact ⟨samples, parsed, equal 0 0 (by decide) (by decide), equal 1 1 (by decide) (by decide)⟩
  next =>
    obtain ⟨planarPcm, result, length, parsed⟩ := rtpL24Build_inverts.2 reacMode48k
      (wireFrame (fun _ => 0) 7 UInt8.ofNat) Block.blank Block.blank 2048 ⟨97, 7, 12345, 9⟩
      (by rw [wireFrame_inspect]) (by decide) (by decide)
    have slot : audioSlot reacMode48k (wireFrame (fun _ => 0) 7 UInt8.ofNat) 1 0 = Block.sample UInt8.ofNat 1 :=
      wireFrame_audioSlot reacMode48k reacMode48k_fillsFrame.fits _ _ _ (by decide) (by decide)
    exact ⟨planarPcm, result, length, parsed, slot⟩

end ReacAes67
