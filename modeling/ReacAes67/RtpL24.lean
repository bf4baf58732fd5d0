import ReacAes67.Frame

set_option autoImplicit false

/-!
# RTP L24 packets

`rtp_l24_build_flow` re-interleaves a channel slice of planar little-endian PCM
into a big-endian payload behind an RTP header; `parseRtp` reads such a packet
the way a receiver does.
-/

namespace ReacAes67

open SampleBlock Endian

def rtpHeaderLen : Nat := 12
def rtpVersion : UInt8 := 2

structure RtpParams where
  payloadType : UInt8
  seq : UInt16
  timestamp : UInt32
  ssrc : UInt32
deriving DecidableEq, Repr

def writeRtpHeader (p : RtpParams) : List UInt8 :=
  [rtpVersion <<< 6, p.payloadType &&& 0x7f,
    (p.seq >>> 8).toUInt8, (p.seq &&& 0xff).toUInt8,
    (p.timestamp >>> 24).toUInt8, (p.timestamp >>> 16).toUInt8, (p.timestamp >>> 8).toUInt8,
    (p.timestamp &&& 0xff).toUInt8,
    (p.ssrc >>> 24).toUInt8, (p.ssrc >>> 16).toUInt8, (p.ssrc >>> 8).toUInt8,
    (p.ssrc &&& 0xff).toUInt8]

@[simp] theorem writeRtpHeader_length (p : RtpParams) :
    (writeRtpHeader p).length = rtpHeaderLen := rfl

-- dst[0..2] takes src[2..0]: the swap turns the little-endian sample around.
def flowPayload (planarPcm : Block) (chStart flowNch nSamples : Nat) : Block :=
  Block.blank.store (grid nSamples flowNch) (fun cell => cell.1 * flowNch + cell.2)
    (fun cell => (planarPcm.sample ((chStart + cell.2) * nSamples + cell.1)).swap)

def flowPacket (p : RtpParams) (planarPcm : Block) (chStart flowNch nSamples : Nat) : List UInt8 :=
  writeRtpHeader p ++ (flowPayload planarPcm chStart flowNch nSamples).bytes (flowNch * nSamples * 3)

-- `none` stands for the result -1, with nothing written.
def rtpL24BuildFlow (cap : Nat) (p : RtpParams) (planarPcm : Block)
    (totalNch chStart flowNch nSamples : Int) : Option (List UInt8) :=
  if chStart < 0 ∨ flowNch ≤ 0 ∨ nSamples ≤ 0 ∨ chStart + flowNch > totalNch then none
  else
    let payload := flowNch.toNat * nSamples.toNat * 3
    let total := rtpHeaderLen + payload
    if cap < total then none
    else some (flowPacket p planarPcm chStart.toNat flowNch.toNat nSamples.toNat)

def rtpL24Build (cap : Nat) (p : RtpParams) (planarPcm : Block) (mode : ReacMode) :
    Option (List UInt8) :=
  rtpL24BuildFlow cap p planarPcm mode.nChannels 0 mode.nChannels mode.samplesPerPkt

theorem rtpL24BuildFlow_slice (p : RtpParams) (planarPcm : Block)
    (cap totalNch chStart flowNch nSamples : Nat) (nonempty : 0 < flowNch) (samples : 0 < nSamples)
    (inside : chStart + flowNch ≤ totalNch) (room : rtpHeaderLen + flowNch * nSamples * 3 ≤ cap) :
    rtpL24BuildFlow cap p planarPcm totalNch chStart flowNch nSamples =
      some (flowPacket p planarPcm chStart flowNch nSamples) := by
  unfold rtpL24BuildFlow
  rw [if_neg (by omega)]
  simp only [Int.toNat_natCast]
  rw [if_neg (by omega)]

theorem rtpL24Build_fits (p : RtpParams) (planarPcm : Block) {mode : ReacMode} (fits : mode.Fits)
    {cap : Nat} (room : rtpHeaderLen + mode.slots * 3 ≤ cap) :
    rtpL24Build cap p planarPcm mode =
      some (flowPacket p planarPcm 0 mode.nChannels mode.samplesPerPkt) :=
  rtpL24BuildFlow_slice p planarPcm cap mode.nChannels 0 mode.nChannels mode.samplesPerPkt
    fits.channels fits.samples (by omega) room

@[simp] theorem flowPacket_length (p : RtpParams) (planarPcm : Block)
    (chStart flowNch nSamples : Nat) :
    (flowPacket p planarPcm chStart flowNch nSamples).length =
      rtpHeaderLen + flowNch * nSamples * 3 := by
  simp [flowPacket]

def payloadSample (pkt : List UInt8) (k : Nat) : Sample :=
  (Block.ofBytes (pkt.drop rtpHeaderLen)).sample k

theorem flowPacket_sample (p : RtpParams) (planarPcm : Block) (chStart : Nat)
    {flowNch nSamples s fc : Nat} (time : s < nSamples) (channel : fc < flowNch) :
    payloadSample (flowPacket p planarPcm chStart flowNch nSamples) (s * flowNch + fc) =
      (planarPcm.sample ((chStart + fc) * nSamples + s)).swap := by
  have inside : s * flowNch + fc < flowNch * nSamples := by
    rw [Nat.mul_comm flowNch]
    exact rowMajor_lt time channel
  have payload : (flowPacket p planarPcm chStart flowNch nSamples).drop rtpHeaderLen =
      (flowPayload planarPcm chStart flowNch nSamples).bytes (flowNch * nSamples * 3) := by
    rw [flowPacket, ← writeRtpHeader_length p, List.drop_left]
  rw [payloadSample, payload, Block.sample_ofBytes_bytes _ inside]
  exact sample_store_grid nSamples flowNch _ Block.blank time channel

theorem flowPacket_congr (p : RtpParams) {left right : Block} {chStart flowNch nSamples : Nat}
    (same : ∀ fc s, fc < flowNch → s < nSamples →
      left.sample ((chStart + fc) * nSamples + s) = right.sample ((chStart + fc) * nSamples + s)) :
    flowPacket p left chStart flowNch nSamples = flowPacket p right chStart flowNch nSamples := by
  have payload : (flowPayload left chStart flowNch nSamples).bytes (flowNch * nSamples * 3) =
      (flowPayload right chStart flowNch nSamples).bytes (flowNch * nSamples * 3) := by
    apply Block.bytes_eq_of_samples
    intro k inside
    rw [Nat.mul_comm] at inside
    obtain ⟨time, channel, split⟩ := rowMajor_split inside
    rw [split]
    simp only [flowPayload]
    rw [sample_store_grid nSamples flowNch _ _ time channel,
      sample_store_grid nSamples flowNch _ _ time channel, same _ _ channel time]
  rw [flowPacket, flowPacket, payload]

structure RtpHeader where
  version : Nat
  padding : Bool
  extension : Bool
  csrcCount : Nat
  marker : Bool
  payloadType : Nat
  sequenceNumber : UInt16
  timestamp : UInt32
  ssrc : UInt32
deriving DecidableEq, Repr

/-- The fixed header of RFC 3550 and what follows it. -/
def parseRtp : List UInt8 → Option (RtpHeader × List UInt8)
  | b0 :: b1 :: b2 :: b3 :: b4 :: b5 :: b6 :: b7 :: b8 :: b9 :: b10 :: b11 :: payload =>
    some ({ version := b0.toNat / 64
            padding := b0.toNat / 32 % 2 = 1
            extension := b0.toNat / 16 % 2 = 1
            csrcCount := b0.toNat % 16
            marker := b1.toNat / 128 = 1
            payloadType := b1.toNat % 128
            sequenceNumber := le16 b3 b2
            timestamp := le32 b7 b6 b5 b4
            ssrc := le32 b11 b10 b9 b8 }, payload)
  | _ => none

def RtpParams.header (p : RtpParams) : RtpHeader :=
  { version := 2, padding := false, extension := false, csrcCount := 0, marker := false
    payloadType := p.payloadType.toNat % 128
    sequenceNumber := p.seq, timestamp := p.timestamp, ssrc := p.ssrc }

theorem parseRtp_writeRtpHeader (p : RtpParams) (payload : List UInt8) :
    parseRtp (writeRtpHeader p ++ payload) = some (p.header, payload) := by
  have masked : (p.payloadType &&& 0x7f).toNat = p.payloadType.toNat % 128 :=
    Nat.and_two_pow_sub_one_eq_mod p.payloadType.toNat 7
  simp only [writeRtpHeader, List.cons_append, List.nil_append, parseRtp, toUInt8_and_mask16,
    toUInt8_and_mask32, le16_bytes, le32_bytes, masked, RtpParams.header, Option.some.injEq,
    Prod.mk.injEq, RtpHeader.mk.injEq, and_true]
  refine ⟨by decide, by decide, by decide, by decide, ?_, by omega⟩
  simp only [decide_eq_false_iff_not]
  omega

theorem parseRtp_flowPacket (p : RtpParams) (planarPcm : Block) (chStart flowNch nSamples : Nat) :
    parseRtp (flowPacket p planarPcm chStart flowNch nSamples) =
      some (p.header, (flowPacket p planarPcm chStart flowNch nSamples).drop rtpHeaderLen) := by
  rw [flowPacket, parseRtp_writeRtpHeader, ← writeRtpHeader_length p, List.drop_left]

end ReacAes67
