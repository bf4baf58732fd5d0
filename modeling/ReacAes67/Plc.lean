import Mathlib.Data.List.Basic
import ReacAes67.Frame

set_option autoImplicit false

/-!
# Packet loss concealment

Per-channel sample history in a ring, and the samples synthesized from it for a
lost packet: repeat with a crossfade, then a decaying repeat, then hold-last,
then silence.
-/

namespace ReacAes67

open SampleBlock

def plcHistSamples : Nat := 40
def plcMax : Int := 8388607
def plcMin : Int := -8388608
def q15 : Int := 32768

inductive PlcTier where
  | repeatXfade
  | burstFade
  | holdLast
  | silence
deriving DecidableEq, Repr

def PlcTier.code : PlcTier → Nat
  | .repeatXfade => 0
  | .burstFade => 1
  | .holdLast => 2
  | .silence => 3

-- `if (tier < other) tier = other`
def PlcTier.raise (tier other : PlcTier) : PlcTier :=
  if tier.code < other.code then other else tier

-- Reduction to 32 bits. C leaves a signed product that overflows undefined; the targets wrap.
def toInt32 (x : Int) : Int := Int.bmod x (2 ^ 32)

def load24 (p : Sample) : Int :=
  let v := p.b0.toNat ||| p.b1.toNat <<< 8 ||| p.b2.toNat <<< 16
  -- v |= ~0xFFFFFF on a value below 2^24 subtracts 2^24
  if v &&& 0x800000 ≠ 0 then (v : Int) - 0x1000000 else v

def store24 (x : Int) : Sample :=
  let x := if x > plcMax then plcMax else if x < plcMin then plcMin else x
  ⟨UInt8.ofInt x, UInt8.ofInt (x >>> (8 : Nat)), UInt8.ofInt (x >>> (16 : Nat))⟩

structure PlcChan where
  hist : Nat → Int
  head : Nat
  filled : Nat

def histAt (c : PlcChan) (back : Nat) : Int :=
  if back ≥ c.filled then 0
  else
    let idx := ((c.head : Int) - 1 - back).tmod plcHistSamples
    let idx := if idx < 0 then idx + plcHistSamples else idx
    c.hist idx.toNat

def histPush (c : PlcChan) (v : Int) : PlcChan :=
  { hist := fun i => if i = c.head then v else c.hist i
    head := (c.head + 1) % plcHistSamples
    filled := if c.filled < plcHistSamples then c.filled + 1 else c.filled }

structure Plc where
  samples : Nat
  nChannels : Nat
  xfadeW : Int
  fadePackets : Int
  fadeFlatPackets : Int
  ch : Nat → PlcChan

def plcInit (mode : ReacMode) (fadePackets xfadeW : Int) : Plc :=
  let samples := mode.samplesPerPkt
  let w : Int := if xfadeW > 0 then xfadeW else if samples < 8 then samples else 8
  let fade := if fadePackets > 0 then fadePackets else 200
  { samples := samples
    nChannels := mode.nChannels
    xfadeW := if w > samples then samples else w
    fadePackets := fade
    fadeFlatPackets := fade.tdiv 5
    ch := fun _ => ⟨fun _ => 0, 0, 0⟩ }

-- One channel's samples go to its own ring, so the channel loop is a map.
def plcObserve (st : Plc) (pcm : Block) : Plc :=
  { st with
    ch := fun ch =>
      if ch < st.nChannels then
        (List.range st.samples).foldl
          (fun c s => histPush c (load24 (pcm.sample (ch * st.samples + s)))) (st.ch ch)
      else st.ch ch }

def burstGainQ15 (st : Plc) (k : Int) : Int :=
  if k ≤ st.fadeFlatPackets then q15
  else if k ≥ st.fadePackets then 0
  else
    let span := st.fadePackets - st.fadeFlatPackets
    let into := k - st.fadeFlatPackets
    (toInt32 (q15 * (span - into))).tdiv span

def concealTier (st : Plc) (c : PlcChan) (lossIndex : Nat) : PlcTier :=
  if c.filled = 0 then .silence
  else if c.filled < st.samples then .holdLast
  else if lossIndex = 0 then .repeatXfade
  else .burstFade

def concealSample (st : Plc) (c : PlcChan) (g : Int) (lossIndex s : Nat) : Int :=
  match concealTier st c lossIndex with
  | .silence => 0
  | .holdLast => toInt32 ((histAt c 0 * g) >>> (15 : Nat))
  | .repeatXfade =>
    let last := histAt c 0
    let sub := histAt c (st.samples - 1 - s)
    if s < st.xfadeW then
      let a := (((s : Int) + 1) * q15).tdiv (st.xfadeW + 1)
      toInt32 ((last * (q15 - a) + sub * a) >>> (15 : Nat))
    else sub
  | .burstFade => toInt32 ((histAt c (st.samples - 1 - s) * g) >>> (15 : Nat))

def plcConceal (st : Plc) (out : Block) (lossIndex : Nat) : PlcTier × Block :=
  let g := burstGainQ15 st lossIndex
  ((List.range st.nChannels).foldl
      (fun tier ch => tier.raise (concealTier st (st.ch ch) lossIndex)) .repeatXfade,
    out.store (grid st.nChannels st.samples) (fun cell => cell.1 * st.samples + cell.2)
      (fun cell => store24 (concealSample st (st.ch cell.1) g lossIndex cell.2)))

theorem plcConceal_sample (st : Plc) (out : Block) (lossIndex : Nat) {ch s : Nat}
    (channel : ch < st.nChannels) (time : s < st.samples) :
    (plcConceal st out lossIndex).2.sample (ch * st.samples + s) =
      store24 (concealSample st (st.ch ch) (burstGainQ15 st lossIndex) lossIndex s) :=
  sample_store_grid st.nChannels st.samples _ out channel time

-- The tuning and geometry, which no packet changes.
structure Plc.SameSetup (left right : Plc) : Prop where
  samples : left.samples = right.samples
  nChannels : left.nChannels = right.nChannels
  xfadeW : left.xfadeW = right.xfadeW
  fadePackets : left.fadePackets = right.fadePackets
  fadeFlatPackets : left.fadeFlatPackets = right.fadeFlatPackets

theorem Plc.SameSetup.refl (st : Plc) : st.SameSetup st := ⟨rfl, rfl, rfl, rfl, rfl⟩

theorem Plc.SameSetup.observe {left right : Plc} (same : left.SameSetup right)
    (pcmLeft pcmRight : Block) : (plcObserve left pcmLeft).SameSetup (plcObserve right pcmRight) :=
  ⟨same.samples, same.nChannels, same.xfadeW, same.fadePackets, same.fadeFlatPackets⟩

theorem concealSample_congr {left right : Plc} (same : left.SameSetup right) (c : PlcChan)
    (lossIndex s : Nat) :
    concealSample left c (burstGainQ15 left lossIndex) lossIndex s =
      concealSample right c (burstGainQ15 right lossIndex) lossIndex s := by
  simp only [concealSample, concealTier, burstGainQ15, same.samples, same.xfadeW,
    same.fadePackets, same.fadeFlatPackets]

theorem plcObserve_channel {left right : Plc} (same : left.SameSetup right)
    {pcmLeft pcmRight : Block} {ch : Nat} (history : left.ch ch = right.ch ch)
    (audio : ∀ s, s < left.samples →
      pcmLeft.sample (ch * left.samples + s) = pcmRight.sample (ch * left.samples + s)) :
    (plcObserve left pcmLeft).ch ch = (plcObserve right pcmRight).ch ch := by
  simp only [plcObserve, ← same.samples, ← same.nChannels, ← history]
  split
  · apply List.foldl_ext
    intro c s member
    rw [audio s (List.mem_range.mp member)]
  · rfl

end ReacAes67
