import Suspenders.Lib.Compact

/-!
# Writing a list into an array

`blit a i xs` is the array `a` in which the elements of `xs` stand from index `i` on, as after a `memcpy`.
-/

namespace Suspenders.Lib

open Function

variable {α : Type*}

/-- The array with the elements of `xs` from index `i` on. -/
def blit : (ℕ → α) → ℕ → List α → ℕ → α
  | a, _, [] => a
  | a, i, x :: xs => blit (update a i x) (i + 1) xs

@[simp] lemma blit_nil (a : ℕ → α) (i : ℕ) : blit a i [] = a := rfl

lemma blit_cons (a : ℕ → α) (i : ℕ) (x : α) (xs : List α) : blit a i (x :: xs) = blit (update a i x) (i + 1) xs := rfl

/-- Nothing else is written. -/
lemma blit_of_not_mem (a : ℕ → α) {i j : ℕ} (xs : List α) (h : j < i ∨ i + xs.length ≤ j) : blit a i xs j = a j := by
  induction xs generalizing a i with
  | nil => rfl
  | cons x xs ih =>
    rw [List.length_cons] at h
    rw [blit_cons, ih _ (by omega), update_of_ne (by omega)]

/-- The list stands where it was written. -/
lemma slice_blit (a : ℕ → α) (i : ℕ) (xs : List α) : slice (blit a i xs) i xs.length = xs := by
  induction xs generalizing a i with
  | nil => rfl
  | cons x xs ih =>
    rw [List.length_cons, blit_cons, slice_succ, ih, blit_of_not_mem _ _ (.inl i.lt_succ_self), update_self]

/-- The elements of two arrays that agree on a range. -/
lemma slice_congr {a b : ℕ → α} {i n : ℕ} (h : ∀ j, i ≤ j → j < i + n → a j = b j) : slice a i n = slice b i n := by
  refine List.map_congr_left fun j hj => ?_
  obtain ⟨hle, hlt⟩ := List.mem_range'_1.mp hj
  exact h j hle hlt

/-- A slice and what follows it. -/
lemma slice_add (a : ℕ → α) (i m n : ℕ) : slice a i (m + n) = slice a i m ++ slice a (i + m) n := by
  induction m generalizing i with
  | zero => simp
  | succ m ih =>
    rw [Nat.succ_add, slice_succ, slice_succ, ih, List.cons_append]
    simp only [Nat.add_assoc, Nat.add_comm 1]

end Suspenders.Lib
