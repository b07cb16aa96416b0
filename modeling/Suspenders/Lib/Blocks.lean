import Suspenders.Lib.Blit

/-!
# Blocks of bytes

A heap of blocks, each with the size that it was allocated with.  An access outside of a block, and a `free` with
another size than that of the block, are faults (`none`).
-/

namespace Suspenders.Lib

open Function

/-- The size of every block that is allocated, and what is in the blocks. -/
structure Blocks where
  size : ℕ → Option ℕ
  bytes : ℕ → ℕ → UInt8

namespace Blocks

variable (m : Blocks) (p : ℕ)

/-- Block `p` with `n` bytes is allocated, and `junk` is in it. -/
def malloc (n : ℕ) (junk : ℕ → UInt8) : Blocks := ⟨update m.size p (some n), update m.bytes p junk⟩

/-- Block `p` with `n` bytes is freed. -/
def free (n : ℕ) : Option Blocks :=
  if m.size p = some n then some { m with size := update m.size p none } else none

/-- The `n` bytes of block `p` from `i` on. -/
def read (i n : ℕ) : Option (List UInt8) :=
  match m.size p with
  | some k => if i + n ≤ k then some (slice (m.bytes p) i n) else none
  | none => none

/-- Write `bs` into block `p`, from `i` on. -/
def write (i : ℕ) (bs : List UInt8) : Option Blocks :=
  match m.size p with
  | some k =>
    if i + bs.length ≤ k then some { m with bytes := update m.bytes p (blit (m.bytes p) i bs) } else none
  | none => none

variable {m p} {i k n : ℕ} {bs : List UInt8}

lemma free_eq (h : m.size p = some n) : m.free p n = some { m with size := update m.size p none } := if_pos h

lemma read_eq (h : m.size p = some k) (hle : i + n ≤ k) : m.read p i n = some (slice (m.bytes p) i n) := by
  rw [read, h]
  exact if_pos hle

/-- A write inside of a block changes this block only. -/
lemma exists_write (bs : List UInt8) (h : m.size p = some k) (hle : i + bs.length ≤ k) :
    ∃ m', m.write p i bs = some m' ∧ m'.size = m.size ∧ m'.bytes p = blit (m.bytes p) i bs ∧
      ∀ q ≠ p, m'.bytes q = m.bytes q := by
  refine ⟨{ m with bytes := update m.bytes p (blit (m.bytes p) i bs) }, ?_, rfl, update_self _ _ _,
    fun q hq => update_of_ne hq _ _⟩
  rw [write, h]
  exact if_pos hle

end Blocks

end Suspenders.Lib
