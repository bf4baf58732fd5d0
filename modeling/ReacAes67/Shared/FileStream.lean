import Mathlib.Data.List.Basic

set_option autoImplicit false

/-!
# Reading a file

The contents of a regular file and a read position, with the reads and relative
seeks of stdio: a read stops at the end of the file, a seek may go beyond it
but not before its start.
-/

namespace FileStream

structure Stream where
  bytes : List UInt8
  pos : Nat
deriving DecidableEq, Repr

namespace Stream

def rest (fs : Stream) : List UInt8 := fs.bytes.drop fs.pos

def fread (fs : Stream) (n : Nat) : List UInt8 × Stream :=
  let got := fs.rest.take n
  (got, { fs with pos := fs.pos + got.length })

-- `fseek` with `SEEK_CUR`; `none` is the failure that leaves the position alone.
def fseekCur (fs : Stream) (offset : Int) : Option Stream :=
  if fs.pos + offset < 0 then none else some { fs with pos := (fs.pos + offset).toNat }

theorem rest_skip (fs : Stream) (n : Nat) :
    ({ fs with pos := fs.pos + n } : Stream).rest = fs.rest.drop n := by
  simp [rest, List.drop_drop]

theorem fread_length (fs : Stream) (n : Nat) :
    (fs.fread n).1.length = min n (fs.bytes.length - fs.pos) := by
  simp [fread, rest]

theorem fread_pos (fs : Stream) (n : Nat) :
    (fs.fread n).2.pos = fs.pos + (fs.fread n).1.length := rfl

/-- A read takes what lies at the position and leaves what lies behind it. -/
theorem fread_append {fs : Stream} {data back : List UInt8} (here : fs.rest = data ++ back) :
    (fs.fread data.length).1 = data ∧ (fs.fread data.length).2.rest = back := by
  have taken : (fs.fread data.length).1 = data := by
    rw [fread, here, List.take_left]
  refine ⟨taken, ?_⟩
  change ({ fs with pos := fs.pos + (fs.fread data.length).1.length } : Stream).rest = back
  rw [rest_skip, taken, here, List.drop_left]

-- A read for more than there is takes it all.
theorem fread_all (fs : Stream) {n : Nat} (short : fs.rest.length ≤ n) :
    (fs.fread n).1 = fs.rest ∧ (fs.fread n).2.rest = [] := by
  have taken : (fs.fread n).1 = fs.rest := List.take_of_length_le short
  refine ⟨taken, ?_⟩
  change ({ fs with pos := fs.pos + (fs.fread n).1.length } : Stream).rest = []
  rw [rest_skip, taken, List.drop_length]

theorem fseekCur_eq_some {fs fs' : Stream} {offset : Int} :
    fs.fseekCur offset = some fs' ↔
      0 ≤ fs.pos + offset ∧ fs' = { fs with pos := (fs.pos + offset).toNat } := by
  rw [fseekCur]
  split
  · simp; omega
  · simp [eq_comm]; omega

theorem fseekCur_forward (fs : Stream) (n : Nat) :
    fs.fseekCur n = some { fs with pos := fs.pos + n } := by
  have position : ((fs.pos : Int) + n).toNat = fs.pos + n := by omega
  rw [fseekCur, if_neg (by omega), position]

theorem fseekCur_append {fs : Stream} {data back : List UInt8} (here : fs.rest = data ++ back) :
    ∃ fs', fs.fseekCur data.length = some fs' ∧ fs'.rest = back := by
  refine ⟨{ fs with pos := fs.pos + data.length }, fs.fseekCur_forward data.length, ?_⟩
  rw [rest_skip, here, List.drop_left]

end Stream

end FileStream
