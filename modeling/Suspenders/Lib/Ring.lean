import Suspenders.Lib.Compact
import Mathlib.Tactic.Linarith
import Mathlib.Data.Nat.ModEq

/-!
# A ring buffer of fixed-size elements in flat memory

Memory is a function from addresses to cells.  `write m off xs` is `memcpy` to address `off`; `slice`
reads.  `ring m sz cap head count` is the list of the `count` elements of size `sz` that the ring of
capacity `cap` holds from slot `head` on.  `ring_push` and `ring_pop` say that writing slot
`(head + count) % cap` appends an element and that advancing `head` removes the first, across the
wrap-around.
-/

namespace Suspenders.Lib

variable {α : Type*}

/-- Copying the list `xs` to address `off`. -/
def write (m : ℕ → α) (off : ℕ) (xs : List α) : ℕ → α :=
  fun k => if off ≤ k then (xs[k - off]?).getD (m k) else m k

/-- What was written is read back. -/
lemma slice_write_self (m : ℕ → α) (off : ℕ) (xs : List α) :
    slice (write m off xs) off xs.length = xs := by
  refine List.ext_getElem (by simp) fun k hk hk' => ?_
  simp [slice, write, hk']

/-- A slice does not see a write next to it. -/
lemma slice_write_of_disjoint (m : ℕ → α) {off i n : ℕ} {xs : List α}
    (h : i + n ≤ off ∨ off + xs.length ≤ i) : slice (write m off xs) i n = slice m i n := by
  refine List.map_congr_left fun k hk => ?_
  have hk' := List.mem_range'_1.mp hk
  unfold write
  split
  · rw [List.getElem?_eq_none (by omega)]
    rfl
  · rfl

/-- The `count` elements of a ring from slot `head` on. -/
def ring (m : ℕ → α) (sz cap head count : ℕ) : List (List α) :=
  (List.range count).map fun i => slice m ((head + i) % cap * sz) sz

@[simp] lemma length_ring (m : ℕ → α) (sz cap head count : ℕ) :
    (ring m sz cap head count).length = count := by
  simp [ring]

/-- Two offsets of a ring that are less than the capacity apart name different slots. -/
lemma add_mod_ne (head : ℕ) {cap i j : ℕ} (hij : i < j) (hj : j < cap) :
    (head + i) % cap ≠ (head + j) % cap := by
  intro h
  have hmod : i ≡ j [MOD cap] := Nat.ModEq.add_left_cancel' head h
  rw [Nat.ModEq, Nat.mod_eq_of_lt (by omega), Nat.mod_eq_of_lt hj] at hmod
  omega

/-- Different slots do not overlap. -/
lemma slot_disjoint {i j sz : ℕ} (h : i ≠ j) : i * sz + sz ≤ j * sz ∨ j * sz + sz ≤ i * sz := by
  rcases Nat.lt_or_gt_of_ne h with hlt | hlt
  · exact Or.inl (by nlinarith)
  · exact Or.inr (by nlinarith)

/-- Writing the slot behind the last element appends to the ring. -/
theorem ring_push (m : ℕ → α) {sz cap head count : ℕ} {xs : List α} (hcap : count < cap)
    (hxs : xs.length = sz) :
    ring (write m ((head + count) % cap * sz) xs) sz cap head (count + 1) =
      ring m sz cap head count ++ [xs] := by
  unfold ring
  rw [List.range_succ, List.map_append, List.map_singleton]
  congr 1
  · refine List.map_congr_left fun i hi => slice_write_of_disjoint m ?_
    have hne := add_mod_ne head (List.mem_range.mp hi) hcap
    rw [hxs]
    exact slot_disjoint hne
  · rw [← hxs, slice_write_self]

/-- Advancing the head removes the first element. -/
theorem ring_pop (m : ℕ → α) {sz cap head count : ℕ} (hhead : head < cap) (hcount : 0 < count) :
    ring m sz cap head count =
      slice m (head * sz) sz :: ring m sz cap ((head + 1) % cap) (count - 1) := by
  obtain ⟨n, rfl⟩ : ∃ n, count = n + 1 := ⟨count - 1, by omega⟩
  unfold ring
  rw [List.range_succ_eq_map, List.map_cons, List.map_map, Nat.add_zero, Nat.mod_eq_of_lt hhead,
    Nat.add_sub_cancel]
  congr 1
  refine List.map_congr_left fun i _ => ?_
  simp only [Function.comp, Nat.succ_eq_add_one]
  rw [show head + (i + 1) = head + 1 + i by omega, Nat.mod_add_mod]

end Suspenders.Lib
