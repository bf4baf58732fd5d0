import ReacAes67.Shared.BoundedLoop
import ReacAes67.Shared.Endian
import ReacAes67.Shared.FileStream

set_option autoImplicit false

/-!
# The pcap reader

Classic pcap files, read one record at a time. Lengths are returned and seeks
are made in the C type `long`, which is 32 bits wide on one of the targets.
-/

namespace ReacAes67

open Endian FileStream BoundedLoop

inductive LongWidth where
  | long32
  | long64
deriving DecidableEq, Repr

def LongWidth.bits : LongWidth → Nat
  | .long32 => 32
  | .long64 => 64

-- The conversion `(long)v`.
def LongWidth.ofUInt32 : LongWidth → UInt32 → Int
  | .long32, v => v.toInt32.toInt
  | .long64, v => v.toNat

theorem ofUInt32_cases (long : LongWidth) (v : UInt32) :
    long.ofUInt32 v = v.toNat ∧ (long = .long64 ∨ v.toNat < 2 ^ 31) ∨
      long = .long32 ∧ 2 ^ 31 ≤ v.toNat ∧ long.ofUInt32 v = (v.toNat : Int) - 2 ^ 32 := by
  cases long with
  | long64 => exact .inl ⟨rfl, .inl rfl⟩
  | long32 =>
    have same : v.toInt32.toBitVec = v.toBitVec := rfl
    have word : v.toBitVec.toNat = v.toNat := rfl
    have value : LongWidth.long32.ofUInt32 v =
        if 2 * v.toNat < 2 ^ 32 then (v.toNat : Int) else (v.toNat : Int) - 2 ^ 32 := by
      simp only [LongWidth.ofUInt32, Int32.toInt, same, BitVec.toInt_eq_toNat_cond, word]
      rfl
    rw [value]
    split
    · exact .inl ⟨rfl, .inr (by omega)⟩
    · exact .inr ⟨rfl, by omega, rfl⟩

def pcapMagic : UInt32 := 0xA1B2C3D4
def pcapMagicSwap : UInt32 := 0xD4C3B2A1

def rdU32 (p : List UInt8) (swap : Bool) : UInt32 :=
  let v := le32 (p.getD 0 0) (p.getD 1 0) (p.getD 2 0) (p.getD 3 0)
  if swap then bswap32 v else v

structure PcapSource where
  f : Stream
  swapped : Bool
deriving DecidableEq, Repr

-- The file exists; its contents are `file`.
def pcapSourceOpen (file : List UInt8) : Option PcapSource :=
  let gh := ({ bytes := file, pos := 0 } : Stream).fread 24
  if gh.1.length ≠ 24 then none
  else
    let magic := rdU32 gh.1 false
    if magic = pcapMagic then some ⟨gh.2, false⟩
    else if magic = pcapMagicSwap then some ⟨gh.2, true⟩
    else none

inductive PcapOutcome where
  | eof
  | error
  | record (incl : UInt32) (buf : List UInt8) (tsUsec : UInt64)
deriving DecidableEq, Repr

/-- The value returned to the caller. -/
def PcapOutcome.ret (long : LongWidth) : PcapOutcome → Int
  | .eof => 0
  | .error => -1
  | .record incl _ _ => long.ofUInt32 incl

def PcapOutcome.buf : PcapOutcome → List UInt8
  | .eof => []
  | .error => []
  | .record _ buf _ => buf

-- One turn of the `for (;;)` loop of `pcap_source_next`.
def pcapIteration (long : LongWidth) (cap : Nat) (ps : PcapSource) :
    PcapSource ⊕ (PcapOutcome × PcapSource) :=
  let header := ps.f.fread 16
  let ps' := { ps with f := header.2 }
  if header.1.length = 0 then .inr (.eof, ps')
  else if header.1.length ≠ 16 then .inr (.error, ps')
  else
    let sec := rdU32 header.1 ps.swapped
    let usec := rdU32 (header.1.drop 4) ps.swapped
    let incl := rdU32 (header.1.drop 8) ps.swapped
    if incl.toNat > cap then
      match header.2.fseekCur (long.ofUInt32 incl) with
      | none => .inr (.error, ps')
      | some f => .inl { ps with f := f }
    else
      let body := header.2.fread incl.toNat
      let ps' := { ps with f := body.2 }
      if body.1.length ≠ incl.toNat then .inr (.error, ps')
      else .inr (.record incl body.1 (sec.toUInt64 * 1000000 + usec.toUInt64), ps')

-- The length in the record header at the position.
def PcapSource.incl (ps : PcapSource) : UInt32 := rdU32 ((ps.f.fread 16).1.drop 8) ps.swapped

-- The turn behind a whole record header.
theorem pcapIteration_header (long : LongWidth) (cap : Nat) {ps : PcapSource}
    (full : (ps.f.fread 16).1.length = 16) :
    pcapIteration long cap ps =
      if cap < ps.incl.toNat then
        match (ps.f.fread 16).2.fseekCur (long.ofUInt32 ps.incl) with
        | none => .inr (.error, { ps with f := (ps.f.fread 16).2 })
        | some f => .inl { ps with f := f }
      else
        let body := (ps.f.fread 16).2.fread ps.incl.toNat
        if body.1.length = ps.incl.toNat then
          .inr (.record ps.incl body.1 ((rdU32 (ps.f.fread 16).1 ps.swapped).toUInt64 * 1000000 +
            (rdU32 ((ps.f.fread 16).1.drop 4) ps.swapped).toUInt64), { ps with f := body.2 })
        else .inr (.error, { ps with f := body.2 }) := by
  simp only [pcapIteration, full, PcapSource.incl, ite_not]
  rfl

def pcapSourceNext (long : LongWidth) (cap : Nat) (fuel : Nat) (ps : PcapSource) :
    Option (PcapOutcome × PcapSource) :=
  loop (fun ps => some (pcapIteration long cap ps)) fuel ps

/-- The outcomes of `calls` calls in a row. -/
def pcapCalls (long : LongWidth) (cap fuel : Nat) :
    Nat → PcapSource → Option (List PcapOutcome × PcapSource)
  | 0, ps => some ([], ps)
  | calls + 1, ps => do
    let (outcome, ps) ← pcapSourceNext long cap fuel ps
    let (rest, ps) ← pcapCalls long cap fuel calls ps
    return (outcome :: rest, ps)

/-- One turn of a caller's loop, which collects the frames it processes. -/
def readTurn (stops : Int → Bool) (long : LongWidth) (cap fuel : Nat)
    (st : List (List UInt8) × PcapSource) :
    Option ((List (List UInt8) × PcapSource) ⊕ (List (List UInt8) × PcapSource)) := do
  let (outcome, ps) ← pcapSourceNext long cap fuel st.2
  let n := outcome.ret long
  if stops n then return .inr (st.1, ps)
  else if n ≤ 0 then return .inl (st.1, ps)
  else return .inl (st.1 ++ [outcome.buf], ps)

def readFrames (stops : Int → Bool) (long : LongWidth) (cap fuel : Nat) (ps : PcapSource) :
    Option (List (List UInt8) × PcapSource) :=
  loop (readTurn stops long cap fuel) fuel ([], ps)

-- while ((n = pcap_source_next(...)) > 0) process(buf, n);
def pcapWhile : LongWidth → Nat → Nat → PcapSource → Option (List (List UInt8) × PcapSource) :=
  readFrames fun n => !decide (n > 0)

-- One pass of `rx_loop` over the file: it rewinds on 0 and goes on after an error.
def rxPass : LongWidth → Nat → Nat → PcapSource → Option (List (List UInt8) × PcapSource) :=
  readFrames fun n => n == 0

-- One turn of a loop that reads record after record, and leaves with what ended the reading.
def readRecord (long : LongWidth) (cap fuel : Nat) (ps : PcapSource) :
    Option (PcapSource ⊕ (PcapOutcome × PcapSource)) :=
  match pcapSourceNext long cap fuel ps with
  | none => none
  | some (.record _ _ _, ps) => some (.inl ps)
  | some last => some (.inr last)

def readToEnd (long : LongWidth) (cap fuel : Nat) (ps : PcapSource) : Option (PcapOutcome × PcapSource) :=
  loop (readRecord long cap fuel) fuel ps

end ReacAes67
