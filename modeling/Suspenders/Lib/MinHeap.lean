import Mathlib.Data.List.Perm.Basic
import Mathlib.Data.Nat.Basic
import Mathlib.Order.Basic
import Mathlib.Tactic.Common

/-!
# Binary heaps in an array

The array is a list, and the entries are ordered by a key: the children of position `i` are at `2 * i + 1` and
`2 * i + 2`.  An entry is put at the end and sifted up; one that leaves is replaced by the last one, which is
sifted to its place.

Whatever the keys, nothing is lost or doubled: every operation is a permutation of what it should be.  If no
entry has a smaller key than its parent, the operations keep it so: `Rising` and `Sinking` say what is still
in order while one entry is on its way.
-/

namespace Suspenders.Lib.MinHeap

variable {α : Type*}

/-- The entries at positions `i` and `j` change places. -/
def swap (l : List α) (i j : ℕ) : List α :=
  match l[i]?, l[j]? with
  | some x, some y => (l.set i y).set j x
  | _, _ => l

lemma swap_perm (l : List α) (i j : ℕ) : (swap l i j).Perm l := by
  unfold swap
  split
  · rename_i x y hx hy
    obtain ⟨hi, rfl⟩ := List.getElem?_eq_some_iff.mp hx
    obtain ⟨hj, rfl⟩ := List.getElem?_eq_some_iff.mp hy
    exact List.set_set_perm hi hj
  · exact List.Perm.refl l

variable (key : α → ℕ)

/-- Whether position `i` has a smaller key than position `j`; both are positions of the array. -/
def less (l : List α) (i j : ℕ) : Bool :=
  match l[i]?, l[j]? with
  | some x, some y => decide (key x < key y)
  | _, _ => false

/-- The loop that moves the entry at position `i` up, for at most `n` rounds. -/
def siftUp (l : List α) : ℕ → ℕ → List α
  | 0, _ => l
  | n + 1, i =>
    if i = 0 ∨ less key l i ((i - 1) / 2) = false then l
    else siftUp (swap l ((i - 1) / 2) i) n ((i - 1) / 2)

/-- The position with the smallest key among `i` and its children. -/
def smallest (l : List α) (i : ℕ) : ℕ :=
  let left := if less key l (2 * i + 1) i then 2 * i + 1 else i
  if less key l (2 * i + 2) left then 2 * i + 2 else left

/-- The loop that moves the entry at position `i` down, for at most `n` rounds. -/
def siftDown (l : List α) : ℕ → ℕ → List α
  | 0, _ => l
  | n + 1, i =>
    if smallest key l i = i then l else siftDown (swap l i (smallest key l i)) n (smallest key l i)

/-- A new entry.  Each round at least halves its position. -/
def push (l : List α) (x : α) : List α := siftUp key (l ++ [x]) l.length l.length

/-- The entry at position `i` is overwritten by the last one, and the array gets shorter. -/
def cutAt (l : List α) (i : ℕ) : List α :=
  match l.getLast? with
  | some x => (l.set i x).dropLast
  | none => l

/-- The first entry is taken out.  Each round of the sift raises the position. -/
def pop (l : List α) : Option (α × List α) :=
  match l with
  | [] => none
  | x :: rest => some (x, siftDown key (cutAt (x :: rest) 0) rest.length 0)

/-- The first occurrence of `x` is taken out. -/
def remove [DecidableEq α] (l : List α) (x : α) : List α :=
  if x ∈ l then
    let i := l.idxOf x
    let l' := cutAt l i
    if i < l'.length then siftUp key (siftDown key l' l'.length i) i i else l'
  else l

variable {key}

lemma siftUp_perm (n : ℕ) (l : List α) (i : ℕ) : (siftUp key l n i).Perm l := by
  induction n generalizing l i with
  | zero => exact List.Perm.refl l
  | succ n ih =>
    rw [siftUp]
    split
    · exact List.Perm.refl l
    · exact (ih _ _).trans (swap_perm _ _ _)

lemma siftDown_perm (n : ℕ) (l : List α) (i : ℕ) : (siftDown key l n i).Perm l := by
  induction n generalizing l i with
  | zero => exact List.Perm.refl l
  | succ n ih =>
    rw [siftDown]
    split
    · exact List.Perm.refl l
    · exact (ih _ _).trans (swap_perm _ _ _)

/-- A push adds the entry. -/
lemma push_perm (l : List α) (x : α) : (push key l x).Perm (x :: l) :=
  (siftUp_perm _ _ _).trans (List.perm_append_singleton x l)

/-- Cutting position `i` out loses its entry and no other. -/
lemma cutAt_perm {l : List α} {i : ℕ} (hi : i < l.length) : (cutAt l i).Perm (l.eraseIdx i) := by
  have hne : l ≠ [] := List.ne_nil_of_length_pos (by omega)
  obtain ⟨init, x, rfl⟩ := (List.eq_nil_or_concat' l).resolve_left hne
  rw [List.length_append, List.length_singleton] at hi
  simp only [cutAt, List.getLast?_append, List.getLast?_singleton, Option.some_or]
  by_cases hlast : i = init.length
  · subst hlast
    simp [List.eraseIdx_append_of_length_le]
  · have hlt : i < init.length := by omega
    rw [List.set_append_left _ _ hlt, List.dropLast_concat, List.eraseIdx_append_of_lt_length hlt]
    exact (List.set_perm_cons_eraseIdx hlt x).trans (List.perm_append_singleton x _).symm

/-- A pop takes the first entry. -/
lemma pop_eq_some {l l' : List α} {x : α} (h : pop key l = some (x, l')) : l.Perm (x :: l') := by
  cases l with
  | nil => cases h
  | cons y rest =>
    obtain ⟨rfl, rfl⟩ : y = x ∧ _ = l' := by simpa [pop] using h
    refine List.Perm.cons y (List.Perm.symm ?_)
    exact (siftDown_perm _ _ _).trans (cutAt_perm (Nat.succ_pos _))

/-- A removal takes the entry. -/
lemma remove_perm [DecidableEq α] {l : List α} {x : α} (h : x ∈ l) : l.Perm (x :: remove key l x) := by
  have hi : l.idxOf x < l.length := List.idxOf_lt_length_of_mem h
  have hcut : (x :: cutAt l (l.idxOf x)).Perm l := by
    refine ((cutAt_perm hi).cons x).trans ?_
    have hx : l[l.idxOf x] = x := List.getElem_idxOf hi
    simpa [hx] using List.getElem_cons_eraseIdx_perm hi
  have hsift : (remove key l x).Perm (cutAt l (l.idxOf x)) := by
    simp only [remove, if_pos h]
    split
    · exact (siftUp_perm _ _ _).trans (siftDown_perm _ _ _)
    · exact List.Perm.refl _
  exact ((hsift.cons x).trans hcut).symm

/-- What is not in the array cannot be removed. -/
lemma remove_of_not_mem [DecidableEq α] {l : List α} {x : α} (h : x ∉ l) : remove key l x = l := if_neg h

lemma mem_push {l : List α} {x y : α} : y ∈ push key l x ↔ y = x ∨ y ∈ l := by
  rw [(push_perm l x).mem_iff, List.mem_cons]

lemma nodup_push {l : List α} {x : α} (h : l.Nodup) (hx : x ∉ l) : (push key l x).Nodup := by
  rw [(push_perm l x).nodup_iff]
  exact List.nodup_cons.mpr ⟨hx, h⟩

lemma nodup_remove [DecidableEq α] {l : List α} {x : α} (h : l.Nodup) : (remove key l x).Nodup := by
  by_cases hx : x ∈ l
  · exact (List.nodup_cons.mp ((remove_perm hx : l.Perm (x :: remove key l x)).nodup_iff.mp h)).2
  · rwa [remove_of_not_mem hx]

/-- The array keeps everything but what is removed. -/
lemma mem_remove [DecidableEq α] {l : List α} {x y : α} (h : l.Nodup) :
    y ∈ remove key l x ↔ y ∈ l ∧ y ≠ x := by
  by_cases hx : x ∈ l
  · have hperm : l.Perm (x :: remove key l x) := remove_perm hx
    have hnot : x ∉ remove key l x := (List.nodup_cons.mp (hperm.nodup_iff.mp h)).1
    rw [hperm.mem_iff, List.mem_cons]
    constructor
    · intro hy
      refine ⟨Or.inr hy, ?_⟩
      rintro rfl
      exact hnot hy
    · rintro ⟨rfl | hy, hne⟩
      · exact absurd rfl hne
      · exact hy
  · rw [remove_of_not_mem hx]
    constructor
    · intro hy
      refine ⟨hy, ?_⟩
      rintro rfl
      exact hx hy
    · exact And.left

/-! ## Order -/

section Order

variable (key)

/-- The key at a position of the array. -/
def keyAt (l : List α) (i : ℕ) : ℕ :=
  match l[i]? with
  | some x => key x
  | none => 0

/-- No entry has a smaller key than its parent. -/
def Ordered (l : List α) : Prop := ∀ i, 0 < i → i < l.length → keyAt key l ((i - 1) / 2) ≤ keyAt key l i

/-- Position `i` aside, the array is in order, and it would be without it. -/
structure Hole (l : List α) (i : ℕ) : Prop where
  others : ∀ j, 0 < j → j < l.length → j ≠ i → (j - 1) / 2 ≠ i → keyAt key l ((j - 1) / 2) ≤ keyAt key l j
  grand : 0 < i → ∀ j, 0 < j → j < l.length → (j - 1) / 2 = i → keyAt key l ((i - 1) / 2) ≤ keyAt key l j

/-- The array is in order, but the key at position `i` may be too small for its place. -/
structure Rising (l : List α) (i : ℕ) : Prop where
  others : ∀ j, 0 < j → j < l.length → j ≠ i → keyAt key l ((j - 1) / 2) ≤ keyAt key l j
  grand : 0 < i → ∀ j, 0 < j → j < l.length → (j - 1) / 2 = i → keyAt key l ((i - 1) / 2) ≤ keyAt key l j

/-- The array is in order, but the key at position `i` may be too big for its place. -/
structure Sinking (l : List α) (i : ℕ) : Prop where
  others : ∀ j, 0 < j → j < l.length → (j - 1) / 2 ≠ i → keyAt key l ((j - 1) / 2) ≤ keyAt key l j
  grand : 0 < i → ∀ j, 0 < j → j < l.length → (j - 1) / 2 = i → keyAt key l ((i - 1) / 2) ≤ keyAt key l j

/-- Position `k` has the smallest key among `i` and its children, and it is `i` if that will do. -/
structure Smallest (l : List α) (i k : ℕ) : Prop where
  lt : k < l.length
  child : k = i ∨ k = 2 * i + 1 ∨ k = 2 * i + 2
  less : k ≠ i → keyAt key l k < keyAt key l i
  le : ∀ j, 0 < j → j < l.length → (j - 1) / 2 = i → keyAt key l k ≤ keyAt key l j

variable {key} {l : List α} {i j k : ℕ} {x : α}

lemma keyAt_of_getElem? (h : l[i]? = some x) : keyAt key l i = key x := by
  rw [keyAt, h]

lemma less_iff : less key l i j = true ↔ i < l.length ∧ j < l.length ∧ keyAt key l i < keyAt key l j := by
  unfold less keyAt
  cases hi : l[i]? with
  | none =>
    have := List.getElem?_eq_none_iff.mp hi
    simp only [Bool.false_eq_true, false_iff]
    omega
  | some x =>
    obtain ⟨hil, -⟩ := List.getElem?_eq_some_iff.mp hi
    cases hj : l[j]? with
    | none =>
      have := List.getElem?_eq_none_iff.mp hj
      simp only [Bool.false_eq_true, false_iff]
      omega
    | some y =>
      obtain ⟨hjl, -⟩ := List.getElem?_eq_some_iff.mp hj
      simp only [decide_eq_true_eq, hil, hjl, true_and]

lemma less_eq_false (hi : i < l.length) (hj : j < l.length) :
    less key l i j = false ↔ keyAt key l j ≤ keyAt key l i := by
  rw [← Bool.not_eq_true, less_iff]
  simp only [hi, hj, true_and, Nat.not_lt]

@[simp] lemma length_swap : (swap l i j).length = l.length := (swap_perm l i j).length_eq

lemma getElem?_swap (hi : i < l.length) (hj : j < l.length) :
    (swap l i j)[k]? = if k = j then l[i]? else if k = i then l[j]? else l[k]? := by
  simp only [swap, List.getElem?_eq_getElem hi, List.getElem?_eq_getElem hj]
  by_cases hkj : k = j
  · subst hkj
    rw [if_pos rfl, List.getElem?_set_self (by simpa using hj)]
  · rw [if_neg hkj, List.getElem?_set_ne (Ne.symm hkj)]
    by_cases hki : k = i
    · subst hki
      rw [if_pos rfl, List.getElem?_set_self hi]
    · rw [if_neg hki, List.getElem?_set_ne (Ne.symm hki)]

lemma keyAt_swap (hi : i < l.length) (hj : j < l.length) :
    keyAt key (swap l i j) k = if k = j then keyAt key l i else if k = i then keyAt key l j else keyAt key l k := by
  simp only [keyAt, getElem?_swap hi hj]
  by_cases hkj : k = j
  · rw [if_pos hkj, if_pos hkj]
  · rw [if_neg hkj, if_neg hkj]
    by_cases hki : k = i
    · rw [if_pos hki, if_pos hki]
    · rw [if_neg hki, if_neg hki]

/-- The root has the smallest key. -/
lemma Ordered.root_le (h : Ordered key l) (i : ℕ) (hi : i < l.length) : keyAt key l 0 ≤ keyAt key l i := by
  induction i using Nat.strongRecOn with
  | ind i ih =>
    by_cases h0 : i = 0
    · subst h0
      exact le_refl _
    · exact (ih ((i - 1) / 2) (by omega) (by omega)).trans (h i (by omega) hi)

/-- An entry that is not smaller than its parent is in its place. -/
lemma Rising.stop (h : Rising key l i) (hstop : 0 < i → keyAt key l ((i - 1) / 2) ≤ keyAt key l i) :
    Ordered key l := by
  intro j hj hlt
  by_cases hji : j = i
  · subst hji
    exact hstop hj
  · exact h.others j hj hlt hji

/-- A round of the loop: a small entry changes places with its parent. -/
lemma Rising.round (h : Rising key l i) (h0 : 0 < i) (hi : i < l.length)
    (hless : keyAt key l i < keyAt key l ((i - 1) / 2)) :
    Rising key (swap l ((i - 1) / 2) i) ((i - 1) / 2) := by
  have hp : (i - 1) / 2 < l.length := by omega
  -- the old parent is below its own parent and above all its children
  have hup : 0 < (i - 1) / 2 → keyAt key l (((i - 1) / 2 - 1) / 2) ≤ keyAt key l ((i - 1) / 2) :=
    fun hpos => h.others _ hpos hp (by omega)
  constructor
  · intro j hj hlt hne
    rw [length_swap] at hlt
    rw [keyAt_swap hp hi, keyAt_swap hp hi]
    by_cases hji : j = i
    · subst hji
      rw [if_pos rfl, if_neg (by omega), if_pos rfl]
      exact hless.le
    · rw [if_neg hji, if_neg hne]
      by_cases hpar : (j - 1) / 2 = i
      · rw [if_pos hpar]
        exact h.grand h0 j hj hlt hpar
      · rw [if_neg hpar]
        have hold := h.others j hj hlt hji
        split
        · rename_i hsib
          rw [hsib] at hold
          exact hless.le.trans hold
        · exact hold
  · intro hpos j hj hlt hpar
    rw [length_swap] at hlt
    rw [keyAt_swap hp hi, keyAt_swap hp hi, if_neg (show ((i - 1) / 2 - 1) / 2 ≠ i by omega),
      if_neg (show ((i - 1) / 2 - 1) / 2 ≠ (i - 1) / 2 by omega)]
    by_cases hji : j = i
    · rw [if_pos hji]
      exact hup hpos
    · rw [if_neg hji, if_neg (by omega)]
      have hold := h.others j hj hlt hji
      rw [hpar] at hold
      exact (hup hpos).trans hold

lemma siftUp_ordered {n : ℕ} (hn : i ≤ n) (hi : i < l.length) (h : Rising key l i) :
    Ordered key (siftUp key l n i) := by
  induction n generalizing l i with
  | zero => exact h.stop (by omega)
  | succ n ih =>
    rw [siftUp]
    by_cases h0 : i = 0
    · rw [if_pos (Or.inl h0)]
      exact h.stop (by omega)
    · have hp : (i - 1) / 2 < l.length := by omega
      by_cases hless : less key l i ((i - 1) / 2) = false
      · rw [if_pos (Or.inr hless)]
        exact h.stop (fun _ => (less_eq_false hi hp).mp hless)
      · rw [if_neg (by tauto)]
        have hlt := less_iff.mp ((Bool.not_eq_false _).mp hless)
        apply ih (by omega) (by rwa [length_swap])
        exact h.round (by omega) hi hlt.2.2

/-- An array in order stays as it is. -/
lemma siftUp_of_le {n : ℕ} (hi : i < l.length) (h : 0 < i → keyAt key l ((i - 1) / 2) ≤ keyAt key l i) :
    siftUp key l n i = l := by
  cases n with
  | zero => rfl
  | succ n =>
    rw [siftUp]
    apply if_pos
    by_cases h0 : i = 0
    · exact Or.inl h0
    · exact Or.inr ((less_eq_false hi (by omega)).mpr (h (by omega)))

/-- The loop ends by itself: rounds beyond the `i`-th are not made. -/
lemma siftUp_rounds {n m : ℕ} (hn : i ≤ n) (hm : i ≤ m) : siftUp key l n i = siftUp key l m i := by
  induction n generalizing l i m with
  | zero =>
    obtain rfl : i = 0 := by omega
    cases m with
    | zero => rfl
    | succ m => simp [siftUp]
  | succ n ih =>
    cases m with
    | zero =>
      obtain rfl : i = 0 := by omega
      simp [siftUp]
    | succ m =>
      rw [siftUp, siftUp]
      split
      · rfl
      · exact ih (by omega) (by omega)

variable (key) in
/-- One comparison of a round. -/
lemma pick_spec {a : ℕ} (c : ℕ) (ha : a < l.length) :
    let b := if less key l c a then c else a
    b < l.length ∧ keyAt key l b ≤ keyAt key l a ∧ (c < l.length → keyAt key l b ≤ keyAt key l c) ∧
      (b = a ∨ (b = c ∧ keyAt key l c < keyAt key l a)) := by
  intro b
  by_cases hless : less key l c a
  · have hb : b = c := if_pos hless
    have hlt := less_iff.mp hless
    rw [hb]
    exact ⟨hlt.1, hlt.2.2.le, fun _ => le_refl _, Or.inr ⟨rfl, hlt.2.2⟩⟩
  · have hb : b = a := if_neg hless
    rw [hb]
    refine ⟨ha, le_refl _, ?_, Or.inl rfl⟩
    intro hc
    exact (less_eq_false hc ha).mp (Bool.eq_false_iff.mpr hless)

variable (key) in
lemma smallest_spec (hi : i < l.length) : Smallest key l i (smallest key l i) := by
  obtain ⟨hlt₁, hle₁, hleft₁, hcase₁⟩ := pick_spec key (2 * i + 1) hi
  obtain ⟨hlt₂, hle₂, hright₂, hcase₂⟩ := pick_spec key (2 * i + 2) hlt₁
  constructor
  · exact hlt₂
  · rw [smallest]
    omega
  · rw [smallest]
    intro hne
    rcases hcase₂ with heq | ⟨heq, hless⟩
    · rw [heq] at hne ⊢
      rcases hcase₁ with heq' | ⟨heq', hless'⟩
      · exact absurd heq' hne
      · rwa [heq']
    · rw [heq]
      exact hless.trans_le hle₁
  · intro j hj hlt hpar
    rw [smallest]
    obtain rfl | rfl : j = 2 * i + 1 ∨ j = 2 * i + 2 := by omega
    · exact hle₂.trans (hleft₁ hlt)
    · exact hright₂ hlt

/-- An entry that is not bigger than its children is in its place. -/
lemma Sinking.stop (h : Sinking key l i)
    (hstop : ∀ j, 0 < j → j < l.length → (j - 1) / 2 = i → keyAt key l i ≤ keyAt key l j) : Ordered key l := by
  intro j hj hlt
  by_cases hpar : (j - 1) / 2 = i
  · rw [hpar]
    exact hstop j hj hlt hpar
  · exact h.others j hj hlt hpar

/-- A round of the loop: a big entry changes places with its smaller child. -/
lemma Sinking.round (h : Sinking key l i) (hi : i < l.length) (hk : Smallest key l i k) (hne : k ≠ i) :
    Sinking key (swap l i k) k := by
  have hkpar : (k - 1) / 2 = i := by
    have := hk.child
    omega
  have hki : i < k := by
    have := hk.child
    omega
  constructor
  · intro j hj hlt hpar
    rw [length_swap] at hlt
    rw [keyAt_swap hi hk.lt, keyAt_swap hi hk.lt, if_neg hpar]
    by_cases hjk : j = k
    · subst hjk
      rw [if_pos rfl, if_pos hkpar]
      exact (hk.less hne).le
    · rw [if_neg hjk]
      by_cases hji : j = i
      · -- what comes up has been below the parent of `i` all the time
        subst hji
        rw [if_pos rfl, if_neg (by omega)]
        exact h.grand hj k (by omega) hk.lt hkpar
      · rw [if_neg hji]
        split
        · rename_i hji'
          exact hk.le j hj hlt hji'
        · rename_i hji'
          exact h.others j hj hlt hji'
  · intro _ j hj hlt hpar
    rw [length_swap] at hlt
    rw [keyAt_swap hi hk.lt, keyAt_swap hi hk.lt, if_neg (by omega), if_pos hkpar, if_neg (by omega),
      if_neg (by omega)]
    have hold := h.others j hj hlt (by omega)
    rwa [hpar] at hold

lemma siftDown_ordered {n : ℕ} (hn : l.length ≤ n + i) (hi : i < l.length) (h : Sinking key l i) :
    Ordered key (siftDown key l n i) := by
  induction n generalizing l i with
  | zero => omega
  | succ n ih =>
    have hk := smallest_spec key hi
    rw [siftDown]
    split
    · rename_i heq
      rw [heq] at hk
      exact h.stop hk.le
    · rename_i hne
      have hchild := hk.child
      apply ih
      · rw [length_swap]
        omega
      · rw [length_swap]
        exact hk.lt
      · exact h.round hi hk hne

/-- An entry with smaller children keeps its place. -/
lemma siftDown_of_le {n : ℕ} (hi : i < l.length)
    (h : ∀ j, 0 < j → j < l.length → (j - 1) / 2 = i → keyAt key l i ≤ keyAt key l j) :
    siftDown key l n i = l := by
  cases n with
  | zero => rfl
  | succ n =>
    rw [siftDown]
    apply if_pos
    have hk := smallest_spec key hi
    by_contra hne
    have hless := hk.less hne
    have hle := h (smallest key l i) (by have := hk.child; omega) hk.lt (by have := hk.child; omega)
    omega

/-- The loop ends by itself: the position grows in every round. -/
lemma siftDown_rounds {n m : ℕ} (hn : l.length ≤ n + i) (hm : l.length ≤ m + i) (hi : i < l.length) :
    siftDown key l n i = siftDown key l m i := by
  induction n generalizing l i m with
  | zero => omega
  | succ n ih =>
    cases m with
    | zero => omega
    | succ m =>
      have hk := smallest_spec key hi
      rw [siftDown, siftDown]
      split
      · rfl
      · rename_i hne
        have hchild := hk.child
        apply ih
        · rw [length_swap]
          omega
        · rw [length_swap]
          omega
        · rw [length_swap]
          exact hk.lt

/-! ### The operations -/

lemma Ordered.nil : Ordered key ([] : List α) := by
  intro i _ hi
  cases hi

lemma keyAt_append (hi : i < l.length) : keyAt key (l ++ [x]) i = keyAt key l i := by
  rw [keyAt, keyAt, List.getElem?_append_left hi]

lemma Ordered.push (h : Ordered key l) (x : α) : Ordered key (push key l x) := by
  apply siftUp_ordered (le_refl _) (by simp)
  constructor
  · intro j hj hlt hne
    have hlt' : j < l.length := by
      rw [List.length_append, List.length_singleton] at hlt
      omega
    rw [keyAt_append hlt', keyAt_append (by omega)]
    exact h j hj hlt'
  · intro _ j hj hlt hpar
    rw [List.length_append, List.length_singleton] at hlt
    omega

lemma length_cutAt (hi : i < l.length) : (cutAt l i).length = l.length - 1 := by
  rw [(cutAt_perm hi).length_eq, List.length_eraseIdx_of_lt hi]

lemma keyAt_cutAt (hi : i < l.length) (hk : k < l.length - 1) :
    keyAt key (cutAt l i) k = if k = i then keyAt key l (l.length - 1) else keyAt key l k := by
  have hne : l ≠ [] := List.ne_nil_of_length_pos (by omega)
  obtain ⟨init, y, rfl⟩ := (List.eq_nil_or_concat' l).resolve_left hne
  rw [List.length_append, List.length_singleton, Nat.add_sub_cancel] at hk ⊢
  simp only [cutAt, List.getLast?_append, List.getLast?_singleton, Option.some_or, keyAt, List.getElem?_dropLast,
    List.length_set, List.length_append, List.length_singleton, Nat.add_sub_cancel, if_pos hk]
  by_cases hki : k = i
  · subst hki
    rw [List.getElem?_set_self hi, if_pos rfl, List.getElem?_concat_length]
  · rw [List.getElem?_set_ne (Ne.symm hki), if_neg hki]

/-- What is left when an entry goes is in order, but for the one that takes its place. -/
lemma Ordered.cutAt (h : Ordered key l) (hi : i < l.length) : Hole key (cutAt l i) i := by
  constructor
  · intro j hj hlt hne hpar
    rw [length_cutAt hi] at hlt
    rw [keyAt_cutAt hi hlt, keyAt_cutAt hi (by omega), if_neg hne, if_neg hpar]
    exact h j hj (by omega)
  · intro h0 j hj hlt hpar
    rw [length_cutAt hi] at hlt
    rw [keyAt_cutAt hi hlt, keyAt_cutAt hi (by omega), if_neg (by omega), if_neg (by omega)]
    have hle := h i h0 hi
    have hle' := h j hj (by omega)
    rw [hpar] at hle'
    exact hle.trans hle'

lemma Ordered.pop {l' : List α} (h : Ordered key l) (hpop : pop key l = some (x, l')) : Ordered key l' := by
  cases l with
  | nil => cases hpop
  | cons y rest =>
    obtain ⟨-, rfl⟩ : y = x ∧ _ = l' := by simpa [MinHeap.pop] using hpop
    have hhole := h.cutAt (Nat.succ_pos rest.length)
    have hlen : (MinHeap.cutAt (y :: rest) 0).length = rest.length := length_cutAt (Nat.succ_pos _)
    by_cases hne : rest.length = 0
    · have hnil : MinHeap.cutAt (y :: rest) 0 = [] := List.eq_nil_of_length_eq_zero (hlen.trans hne)
      rw [hnil, hne]
      exact Ordered.nil
    · apply siftDown_ordered (by omega) (by omega)
      exact ⟨fun j hj hlt hpar => hhole.others j hj hlt (by omega) hpar, hhole.grand⟩

/-- A pop takes an entry with the smallest key. -/
lemma Ordered.pop_le {l' : List α} {y : α} (h : Ordered key l) (hpop : MinHeap.pop key l = some (x, l'))
    (hy : y ∈ l) : key x ≤ key y := by
  cases l with
  | nil => cases hpop
  | cons z rest =>
    obtain ⟨rfl, -⟩ : z = x ∧ _ = l' := by simpa [MinHeap.pop] using hpop
    obtain ⟨i, hi, hget⟩ := List.mem_iff_getElem.mp hy
    have hroot := h.root_le i hi
    rwa [keyAt_of_getElem? (List.getElem?_eq_some_iff.mpr ⟨hi, hget⟩),
      keyAt_of_getElem? (x := z) rfl] at hroot

/-- The entry that takes the place of another one either sinks or rises, and the loop for the other direction
finds nothing to do. -/
lemma Hole.sift {n : ℕ} (h : Hole key l i) (hi : i < l.length) (hn : l.length ≤ n + i) :
    Ordered key (siftUp key (siftDown key l n i) i i) := by
  by_cases hup : 0 < i → keyAt key l ((i - 1) / 2) ≤ keyAt key l i
  · have hsink : Sinking key l i := by
      refine ⟨?_, h.grand⟩
      intro j hj hlt hpar
      by_cases hji : j = i
      · subst hji
        exact hup hj
      · exact h.others j hj hlt hji hpar
    have hord := siftDown_ordered hn hi hsink
    have hi' : i < (siftDown key l n i).length := by rwa [(siftDown_perm n l i).length_eq]
    rw [siftUp_of_le hi' (fun h0 => hord i h0 hi')]
    exact hord
  · obtain ⟨h0, hlt⟩ : 0 < i ∧ keyAt key l i < keyAt key l ((i - 1) / 2) := by
      simpa using hup
    have hsmall : ∀ j, 0 < j → j < l.length → (j - 1) / 2 = i → keyAt key l i ≤ keyAt key l j :=
      fun j hj hjl hpar => hlt.le.trans (h.grand h0 j hj hjl hpar)
    rw [siftDown_of_le hi hsmall]
    apply siftUp_ordered (le_refl i) hi
    refine ⟨?_, h.grand⟩
    intro j hj hjl hji
    by_cases hpar : (j - 1) / 2 = i
    · rw [hpar]
      exact hsmall j hj hjl hpar
    · exact h.others j hj hjl hji hpar

lemma Ordered.remove [DecidableEq α] (h : Ordered key l) (x : α) : Ordered key (remove key l x) := by
  by_cases hx : x ∈ l
  · have hi : l.idxOf x < l.length := List.idxOf_lt_length_of_mem hx
    have hhole := h.cutAt hi
    simp only [MinHeap.remove, if_pos hx]
    split
    · rename_i hlt
      exact hhole.sift hlt (by omega)
    · rename_i hge
      -- it was the last entry, and nothing takes its place
      intro j hj hlt
      exact hhole.others j hj hlt (by omega) (by omega)
  · rwa [remove_of_not_mem hx]

end Order

end Suspenders.Lib.MinHeap
