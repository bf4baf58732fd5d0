import Mathlib.Data.List.Induction
import Mathlib.Data.List.Basic
import Mathlib.Data.List.ProdSigma
import Mathlib.Tactic.Ring

set_option autoImplicit false

/-!
# Blocks of three-byte samples

A block is a stretch of memory given by the byte at each offset. Buffers of
packed three-byte samples are read and written one sample at a time; nested
loops that scatter samples over a block are folds over the list of their cells.
-/

namespace SampleBlock

abbrev Block := Nat → UInt8

structure Sample where
  b0 : UInt8
  b1 : UInt8
  b2 : UInt8
deriving DecidableEq, Repr

def Sample.swap (x : Sample) : Sample := ⟨x.b2, x.b1, x.b0⟩

namespace Block

def blank : Block := fun _ => 0

def ofBytes (xs : List UInt8) : Block := fun i => xs.getD i 0

def bytes (b : Block) (n : Nat) : List UInt8 := (List.range n).map b

-- Pointer addition: the block seen from `k` bytes further on.
def advance (b : Block) (k : Nat) : Block := fun i => b (k + i)

def sample (b : Block) (i : Nat) : Sample := ⟨b (i * 3), b (i * 3 + 1), b (i * 3 + 2)⟩

def setSample (b : Block) (i : Nat) (x : Sample) : Block := fun j =>
  if j = i * 3 then x.b0 else if j = i * 3 + 1 then x.b1 else if j = i * 3 + 2 then x.b2 else b j

def copy (b : Block) (dst : Nat) (src : Block) (n : Nat) : Block := fun j =>
  if dst ≤ j ∧ j < dst + n then src (j - dst) else b j

@[simp] theorem bytes_length (b : Block) (n : Nat) : (b.bytes n).length = n := by
  simp [bytes]

theorem ofBytes_bytes (b : Block) {n i : Nat} (inside : i < n) : ofBytes (b.bytes n) i = b i := by
  simp [ofBytes, bytes, inside]

theorem bytes_ofBytes {xs : List UInt8} {n : Nat} (length : xs.length = n) :
    (ofBytes xs).bytes n = xs := by
  apply List.ext_getElem
  next => simp [length]
  next =>
    intro i _ inside
    simp [bytes, ofBytes, inside]

theorem bytes_append (b : Block) (m n : Nat) : b.bytes (m + n) = b.bytes m ++ (b.advance m).bytes n := by
  simp [bytes, List.range_add, advance, Function.comp_def]

theorem bytes_congr {b c : Block} {n : Nat} (same : ∀ i, i < n → b i = c i) : b.bytes n = c.bytes n :=
  List.map_congr_left fun i member => same i (List.mem_range.mp member)

theorem sample_congr {b c : Block} {i j : Nat}
    (same : ∀ k, k < 3 → b (i * 3 + k) = c (j * 3 + k)) : b.sample i = c.sample j := by
  simp only [sample, Sample.mk.injEq]
  exact ⟨by simpa using same 0 (by omega), same 1 (by omega), same 2 (by omega)⟩

theorem sample_ofBytes_bytes (b : Block) {n i : Nat} (inside : i < n) :
    (ofBytes (b.bytes (n * 3))).sample i = b.sample i :=
  sample_congr fun _ _ => ofBytes_bytes b (by omega)

theorem eq_of_sample {b c : Block} {j : Nat} (same : b.sample (j / 3) = c.sample (j / 3)) :
    b j = c j := by
  simp only [sample, Sample.mk.injEq] at same
  obtain ⟨first, second, third⟩ := same
  have split : j = j / 3 * 3 ∨ j = j / 3 * 3 + 1 ∨ j = j / 3 * 3 + 2 := by omega
  rcases split with position | position | position <;> rw [position]
  exacts [first, second, third]

theorem bytes_eq_of_samples {b c : Block} {n : Nat}
    (same : ∀ i, i < n → b.sample i = c.sample i) : b.bytes (n * 3) = c.bytes (n * 3) :=
  bytes_congr fun j inside => eq_of_sample (same (j / 3) (by omega))

theorem sample_setSample_same (b : Block) (i : Nat) (x : Sample) :
    (b.setSample i x).sample i = x := by
  simp [sample, setSample]

theorem sample_setSample_ne (b : Block) {i j : Nat} (x : Sample) (different : i ≠ j) :
    (b.setSample i x).sample j = b.sample j := by
  apply sample_congr
  intro k small
  simp only [setSample]
  rw [if_neg (by omega), if_neg (by omega), if_neg (by omega)]

theorem sample_copy (b src : Block) (dst n i : Nat) :
    (b.copy (dst * 3) src (n * 3)).sample i =
      if dst ≤ i ∧ i < dst + n then src.sample (i - dst) else b.sample i := by
  split
  · apply sample_congr
    intro k small
    rw [copy, if_pos (by omega)]
    congr 1
    omega
  · apply sample_congr
    intro k small
    rw [copy, if_neg (by omega)]

theorem sample_advance (b : Block) (k i : Nat) : (b.advance (k * 3)).sample i = b.sample (k + i) := by
  apply sample_congr
  intro j small
  simp only [advance]
  congr 1
  ring

-- One `memcpy` a row: `len` samples from `src` of that row at offset `off` of each row of `stride`.
def copyRows (b : Block) (rows stride off len : Nat) (src : Nat → Block) : Block :=
  (List.range rows).foldl (fun b r => b.copy ((r * stride + off) * 3) (src r) (len * 3)) b

theorem sample_copyRows (b : Block) (stride off len : Nat) (src : Nat → Block)
    (inRow : off + len ≤ stride) {rows r t : Nat} (row : r < rows) (col : t < stride) :
    (b.copyRows rows stride off len src).sample (r * stride + t) =
      if off ≤ t ∧ t < off + len then (src r).sample (t - off) else b.sample (r * stride + t) := by
  have copied (limit : Nat) : (b.copyRows limit stride off len src).sample (r * stride + t) =
      if r < limit ∧ off ≤ t ∧ t < off + len then (src r).sample (t - off)
      else b.sample (r * stride + t) := by
    induction limit with
    | zero => simp [copyRows]
    | succ limit ih =>
      have last : b.copyRows (limit + 1) stride off len src =
          (b.copyRows limit stride off len src).copy ((limit * stride + off) * 3) (src limit)
            (len * 3) := by
        rw [copyRows, List.range_succ, List.foldl_append]
        rfl
      rw [last, sample_copy, ih]
      rcases Nat.lt_trichotomy r limit with below | same | above
      · have rows : (r + 1) * stride ≤ limit * stride := Nat.mul_le_mul_right stride below
        rw [Nat.add_mul, Nat.one_mul] at rows
        rw [if_neg (by omega)]
        congr 1
        simp [below, Nat.lt_succ_of_lt below]
      · subst same
        by_cases inside : off ≤ t ∧ t < off + len
        · rw [if_pos (by omega), if_pos (by omega)]
          congr 1
          omega
        · rw [if_neg (by omega), if_neg (by omega), if_neg (by omega)]
      · have rows : (limit + 1) * stride ≤ r * stride := Nat.mul_le_mul_right stride above
        rw [Nat.add_mul, Nat.one_mul] at rows
        rw [if_neg (by omega), if_neg (by omega), if_neg (by omega)]
  rw [copied rows]
  simp [row]

section Store

variable {ι : Type}

def store (cells : List ι) (pos : ι → Nat) (value : ι → Sample) (b : Block) : Block :=
  cells.foldl (fun b i => b.setSample (pos i) (value i)) b

theorem store_append (front back : List ι) (pos : ι → Nat) (value : ι → Sample) (b : Block) :
    store (front ++ back) pos value b = store back pos value (store front pos value b) := by
  simp [store]

theorem store_congr {cells : List ι} {pos : ι → Nat} {left right : ι → Sample} (b : Block)
    (same : ∀ cell ∈ cells, left cell = right cell) : store cells pos left b = store cells pos right b := by
  apply List.foldl_ext
  intro b cell member
  rw [same cell member]

-- Cells that share a position carry one value, so the last write tells the same as the first.
theorem sample_store (cells : List ι) (pos : ι → Nat) (value : ι → Sample) (b : Block)
    (cell : ι) (member : cell ∈ cells)
    (consistent : ∀ other ∈ cells, pos other = pos cell → value other = value cell) :
    (store cells pos value b).sample (pos cell) = value cell := by
  induction cells using List.reverseRecOn with
  | nil => cases member
  | append_singleton front last ih =>
    rw [store_append]
    change ((store front pos value b).setSample (pos last) (value last)).sample (pos cell) = _
    by_cases hit : pos last = pos cell
    · rw [← hit, sample_setSample_same]
      exact consistent last (by simp) hit
    · rw [sample_setSample_ne _ _ hit]
      have earlier : cell ∈ front := by
        rcases List.mem_append.mp member with inFront | isLast
        · exact inFront
        · exact absurd (by rw [List.mem_singleton.mp isLast]) hit
      exact ih earlier (fun other inFront => consistent other (by simp [inFront]))

theorem sample_store_outside (cells : List ι) (pos : ι → Nat) (value : ι → Sample) (b : Block) {i : Nat}
    (outside : ∀ cell ∈ cells, pos cell ≠ i) : (store cells pos value b).sample i = b.sample i := by
  induction cells generalizing b with
  | nil => rfl
  | cons cell cells ih =>
    have later : (store cells pos value (b.setSample (pos cell) (value cell))).sample i =
        (b.setSample (pos cell) (value cell)).sample i :=
      ih _ fun other member => outside other (List.mem_cons_of_mem _ member)
    have kept := sample_setSample_ne b (value cell) (outside cell List.mem_cons_self)
    exact later.trans kept

end Store

end Block

-- The cells of two nested loops, outer index first.
def grid (rows cols : Nat) : List (Nat × Nat) :=
  List.range rows ×ˢ List.range cols

@[simp] theorem mem_grid {rows cols : Nat} {cell : Nat × Nat} :
    cell ∈ grid rows cols ↔ cell.1 < rows ∧ cell.2 < cols := by
  obtain ⟨r, c⟩ := cell
  simp [grid]

theorem rowMajor_inj {cols r r' c c' : Nat} (inside : c < cols) (inside' : c' < cols)
    (same : r * cols + c = r' * cols + c') : r = r' ∧ c = c' := by
  have rows : r = r' := by
    have left : (r * cols + c) / cols = r := by
      rw [Nat.mul_comm, Nat.mul_add_div (by omega), Nat.div_eq_of_lt inside, Nat.add_zero]
    have right : (r' * cols + c') / cols = r' := by
      rw [Nat.mul_comm, Nat.mul_add_div (by omega), Nat.div_eq_of_lt inside', Nat.add_zero]
    rw [← left, ← right, same]
  exact ⟨rows, by subst rows; omega⟩

theorem rowMajor_lt {rows cols r c : Nat} (row : r < rows) (col : c < cols) :
    r * cols + c < rows * cols := by
  calc r * cols + c < r * cols + cols := by omega
    _ = (r + 1) * cols := by ring
    _ ≤ rows * cols := Nat.mul_le_mul_right cols row

theorem rowMajor_split {rows cols k : Nat} (inside : k < rows * cols) :
    k / cols < rows ∧ k % cols < cols ∧ k = k / cols * cols + k % cols := by
  have positive : 0 < cols := by
    rcases Nat.eq_zero_or_pos cols with zero | positive
    · simp [zero] at inside
    · exact positive
  exact ⟨Nat.div_lt_of_lt_mul (by rwa [Nat.mul_comm]), Nat.mod_lt _ positive,
    (Nat.div_add_mod' k cols).symm⟩

theorem sample_store_grid (rows cols : Nat) (value : Nat × Nat → Sample) (b : Block)
    {r c : Nat} (row : r < rows) (col : c < cols) :
    (b.store (grid rows cols) (fun cell => cell.1 * cols + cell.2) value).sample (r * cols + c) =
      value (r, c) := by
  apply Block.sample_store (grid rows cols) (fun cell => cell.1 * cols + cell.2) value b (r, c)
    (by simp [row, col])
  rintro ⟨r', c'⟩ member same
  obtain ⟨rfl, rfl⟩ := rowMajor_inj (mem_grid.mp member).2 col same
  rfl

-- A list of packed samples with the bytes of each sample the other way round.
def reverseSamples : List UInt8 → List UInt8
  | b0 :: b1 :: b2 :: rest => b2 :: b1 :: b0 :: reverseSamples rest
  | rest => rest

theorem bytes_reverseSamples {b c : Block} {n : Nat}
    (swapped : ∀ i, i < n → c.sample i = (b.sample i).swap) :
    c.bytes (n * 3) = reverseSamples (b.bytes (n * 3)) := by
  induction n generalizing b c with
  | zero => simp [Block.bytes, reverseSamples]
  | succ n ih =>
    have split (d : Block) :
        d.bytes ((n + 1) * 3) = d 0 :: d 1 :: d 2 :: (d.advance 3).bytes (n * 3) := by
      rw [Nat.add_mul, Nat.add_comm, Block.bytes_append]
      rfl
    have head := swapped 0 (by omega)
    have tail := ih (b := b.advance 3) (c := c.advance 3) fun i inside => by
      have later := swapped (1 + i) (by omega)
      rwa [← Block.sample_advance, ← Block.sample_advance] at later
    simp only [Block.sample, Sample.swap, Sample.mk.injEq] at head
    obtain ⟨first, second, third⟩ := head
    simp only [Nat.zero_mul, Nat.zero_add] at first second third
    simp only [split, reverseSamples, tail, first, second, third]

end SampleBlock
