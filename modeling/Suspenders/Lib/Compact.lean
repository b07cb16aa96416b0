import Mathlib.Data.List.Range
import Mathlib.Logic.Function.Basic

/-!
# Compacting an array in place

The loop `for (i = 0; i < n; i++) if (keep a[i]) a[j++] = a[i];` over an array, in the general form
in which the kept element may be rewritten on its way.  `slice a i n` is the list of the `n` elements
from index `i` on; `slice_compact` says that the loop computes `List.filterMap`.
-/

namespace Suspenders.Lib

variable {α : Type*}

/-- The `n` array elements from index `i` on. -/
def slice (a : ℕ → α) (i n : ℕ) : List α := (List.range' i n).map a

@[simp] lemma slice_zero (a : ℕ → α) (i : ℕ) : slice a i 0 = [] := rfl

@[simp] lemma slice_succ (a : ℕ → α) (i n : ℕ) : slice a i (n + 1) = a i :: slice a (i + 1) n := by
  simp [slice, List.range'_succ]

@[simp] lemma length_slice (a : ℕ → α) (i n : ℕ) : (slice a i n).length = n := by
  simp [slice]

/-- The last element of a slice. -/
lemma slice_snoc (a : ℕ → α) (i n : ℕ) : slice a i (n + 1) = slice a i n ++ [a (i + n)] := by
  simp [slice, List.range'_1_concat]

/-- Membership in a slice. -/
lemma mem_slice {a : ℕ → α} {i n : ℕ} {x : α} :
    x ∈ slice a i n ↔ ∃ k, i ≤ k ∧ k < i + n ∧ a k = x := by
  simp [slice, List.mem_range'_1, and_assoc]

/-- A slice does not see a write outside it. -/
lemma slice_update_of_lt [DecidableEq ℕ] (a : ℕ → α) {i j n : ℕ} (h : j < i) (x : α) :
    slice (Function.update a j x) i n = slice a i n := by
  refine List.map_congr_left fun k hk => Function.update_of_ne ?_ _ _
  have := (List.mem_range'_1.mp hk).1
  omega

/-- A slice does not see a write behind it. -/
lemma slice_update_of_ge [DecidableEq ℕ] (a : ℕ → α) {i j n : ℕ} (h : i + n ≤ j) (x : α) :
    slice (Function.update a j x) i n = slice a i n := by
  refine List.map_congr_left fun k hk => Function.update_of_ne ?_ _ _
  have := (List.mem_range'_1.mp hk).2
  omega

/-- The compaction loop over the `n` elements from `i` on, writing at `j`; returns the number of
elements kept so far and the array. -/
def compact (f : α → Option α) : ℕ → ℕ → ℕ → (ℕ → α) → ℕ × (ℕ → α)
  | 0, _, j, a => (j, a)
  | n + 1, i, j, a =>
    match f (a i) with
    | none => compact f n (i + 1) j a
    | some x => compact f n (i + 1) (j + 1) (Function.update a j x)

/-- The loop keeps what was already written and appends the images of the elements read. -/
theorem slice_compact (f : α → Option α) (n i j : ℕ) (a : ℕ → α) (hj : j ≤ i) :
    slice (compact f n i j a).2 0 (compact f n i j a).1 =
      slice a 0 j ++ (slice a i n).filterMap f := by
  induction n generalizing i j a with
  | zero => simp [compact]
  | succ n ih =>
    cases hf : f (a i) with
    | none =>
      simp only [compact, hf, slice_succ, List.filterMap_cons]
      exact ih (i + 1) j a (by omega)
    | some x =>
      simp only [compact, hf, slice_succ, List.filterMap_cons]
      rw [ih (i + 1) (j + 1) _ (by omega), slice_snoc, slice_update_of_ge _ (by omega),
        slice_update_of_lt _ (by omega)]
      simp

end Suspenders.Lib
