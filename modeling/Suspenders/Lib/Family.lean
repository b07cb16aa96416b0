import Mathlib.Data.List.Count
import Mathlib.Data.List.Perm.Subperm
import Mathlib.Logic.Function.Basic

/-!
# Families of lists

A family `l : ι → List α` stands for several queues that elements move between.  The first lemmas say how often
an element `b` is in queue `j` when queue `i` has changed.

`Partition l cs` says that the elements of `cs`, and no others, are in the queues, each of them once.  It is
kept when an element comes in (`Partition.add`), when one moves (`Partition.move`), and when a whole queue is
moved to the end of another (`Partition.sweep`).

`Located l loc` says that `loc` knows in which queue an element is, if in any, and that it is there once.
-/

namespace Suspenders.Lib

variable {ι α : Type*} [DecidableEq ι] [DecidableEq α] (l : ι → List α) (i j : ι) (a b : α)

lemma count_update_append :
    (Function.update l i (l i ++ [a]) j).count b = (l j).count b + if j = i ∧ b = a then 1 else 0 := by
  by_cases hj : j = i
  · subst hj
    by_cases hb : b = a
    · simp [hb]
    · simp [hb, Ne.symm hb]
  · simp [hj]

lemma count_update_cons :
    (Function.update l i (a :: l i) j).count b = (l j).count b + if j = i ∧ b = a then 1 else 0 := by
  by_cases hj : j = i
  · subst hj
    by_cases hb : b = a
    · simp [hb]
    · simp [hb, Ne.symm hb]
  · simp [hj]

lemma count_update_erase :
    (Function.update l i ((l i).erase a) j).count b = (l j).count b - if j = i ∧ b = a then 1 else 0 := by
  by_cases hj : j = i
  · subst hj
    by_cases hb : b = a
    · simp [hb]
    · simp [hb]
  · simp [hj]

variable {l i a}

lemma count_update_tail {rest : List α} (h : l i = a :: rest) :
    (Function.update l i rest j).count b = (l j).count b - if j = i ∧ b = a then 1 else 0 := by
  by_cases hj : j = i
  · subst hj
    by_cases hb : b = a
    · simp [hb, h]
    · simp [hb, h, Ne.symm hb]
  · simp [hj]

/-- The elements of `cs`, and no others, are in the queues, each of them once. -/
structure Partition (l : ι → List α) (cs : List α) : Prop where
  once : ∀ a ∈ cs, ∃ i, ∀ j, (l j).count a = if j = i then 1 else 0
  only : ∀ a ∉ cs, ∀ i, a ∉ l i

namespace Partition

variable {cs : List α} {i j : ι} {a : α}

/-- An element is in no other queue than the one it is in. -/
lemma count_of_mem (h : Partition l cs) (ha : a ∈ l i) :
    a ∈ cs ∧ ∀ j, (l j).count a = if j = i then 1 else 0 := by
  have hcs : a ∈ cs := by
    by_contra hcs
    exact h.only a hcs i ha
  obtain ⟨i', hcount⟩ := h.once a hcs
  have hi : i = i' := by
    by_contra hne
    have hpos := List.count_pos_iff.mpr ha
    rw [hcount i, if_neg hne] at hpos
    exact Nat.lt_irrefl 0 hpos
  exact ⟨hcs, hi ▸ hcount⟩

lemma mem (h : Partition l cs) (ha : a ∈ l i) : a ∈ cs := (h.count_of_mem ha).1

lemma unique (h : Partition l cs) (ha : a ∈ l i) (ha' : a ∈ l j) : i = j := by
  by_contra hne
  have hpos := List.count_pos_iff.mpr ha'
  rw [(h.count_of_mem ha).2 j, if_neg (Ne.symm hne)] at hpos
  exact Nat.lt_irrefl 0 hpos

lemma nodup (h : Partition l cs) (i : ι) : (l i).Nodup := by
  apply List.nodup_iff_count.mpr
  intro a
  by_cases ha : a ∈ l i
  · simp [(h.count_of_mem ha).2 i]
  · simp [List.count_eq_zero_of_not_mem ha]

lemma length_le (h : Partition l cs) (i : ι) : (l i).length ≤ cs.length :=
  (List.subperm_of_subset (h.nodup i) fun _ ha => h.mem ha).length_le

/-- The order of the elements does not matter. -/
lemma perm {l' : ι → List α} {cs' : List α} (h : Partition l cs) (hl : ∀ i, (l' i).Perm (l i))
    (hcs : cs'.Perm cs) : Partition l' cs' where
  once := by
    intro a ha
    obtain ⟨i, hi⟩ := h.once a (hcs.mem_iff.mp ha)
    exact ⟨i, fun j => by rw [(hl j).count_eq, hi]⟩
  only := fun a ha i hmem => h.only a (fun hcs' => ha (hcs.mem_iff.mpr hcs')) i ((hl i).mem_iff.mp hmem)

/-- A new element comes into queue `i`. -/
lemma add (h : Partition l cs) (ha : a ∉ cs) {m : List α} (hm : m.Perm (a :: l i)) :
    Partition (Function.update l i m) (a :: cs) := by
  have hcount (b : α) (j : ι) :
      (Function.update l i m j).count b = (l j).count b + if j = i ∧ b = a then 1 else 0 := by
    rw [← count_update_cons]
    by_cases hj : j = i
    · subst hj
      simp [hm.count_eq]
    · simp [hj]
  refine ⟨fun b hb => ?_, fun b hb j hmem => ?_⟩
  · by_cases hba : b = a
    · subst hba
      refine ⟨i, fun j => ?_⟩
      simp [hcount, List.count_eq_zero_of_not_mem (h.only b ha j)]
    · obtain ⟨i', hold⟩ := h.once b (by simpa [hba] using hb)
      exact ⟨i', fun j => by simp [hcount, hba, hold]⟩
  · have hpos := List.count_pos_iff.mpr hmem
    have hba : b ≠ a := fun hba => hb (by simp [hba])
    have hold : b ∉ l j := h.only b (fun hcs => hb (by simp [hcs])) j
    simp [hcount, hba, List.count_eq_zero_of_not_mem hold] at hpos

omit [DecidableEq α] in
/-- What is where after an element came in. -/
lemma mem_add {m : List α} (hm : m.Perm (a :: l i)) {b : α} {k : ι} (hb : b ∈ Function.update l i m k) :
    b ∈ l k ∨ k = i ∧ b = a := by
  by_cases hk : k = i
  · subst hk
    rcases List.mem_cons.mp (hm.mem_iff.mp (by simpa using hb)) with hba | hb
    · exact Or.inr ⟨rfl, hba⟩
    · exact Or.inl hb
  · exact Or.inl (by simpa [hk] using hb)

/-- An element moves from queue `i` to the head of queue `j`. -/
lemma move (h : Partition l cs) (ha : a ∈ l i) (hij : j ≠ i) :
    Partition (Function.update (Function.update l i ((l i).erase a)) j (a :: l j)) cs := by
  have hcount (b : α) (k : ι) :
      (Function.update (Function.update l i ((l i).erase a)) j (a :: l j) k).count b =
        ((l k).count b - if k = i ∧ b = a then 1 else 0) + if k = j ∧ b = a then 1 else 0 := by
    have := count_update_cons (Function.update l i ((l i).erase a)) j k a b
    rw [Function.update_of_ne hij, count_update_erase] at this
    exact this
  refine ⟨fun b hb => ?_, fun b hb k hmem => ?_⟩
  · by_cases hba : b = a
    · subst hba
      refine ⟨j, fun k => ?_⟩
      rw [hcount, (h.count_of_mem ha).2 k]
      by_cases hki : k = i
      · simp [hki, Ne.symm hij]
      · simp [hki]
    · obtain ⟨i', hold⟩ := h.once b hb
      exact ⟨i', fun k => by rw [hcount, hold]; simp [hba]⟩
  · have hpos := List.count_pos_iff.mpr hmem
    have hba : b ≠ a := fun hba => hb (hba ▸ h.mem ha)
    simp [hcount, hba, List.count_eq_zero_of_not_mem (h.only b hb k)] at hpos

/-- What is where after a move. -/
lemma mem_move (h : Partition l cs) (ha : a ∈ l i) (hij : j ≠ i) {b : α} {k : ι}
    (hb : b ∈ Function.update (Function.update l i ((l i).erase a)) j (a :: l j) k) :
    b = a ∧ k = j ∨ b ≠ a ∧ b ∈ l k := by
  by_cases hba : b = a
  · subst hba
    exact Or.inl ⟨rfl, (h.move ha hij).unique hb (by simp)⟩
  · refine Or.inr ⟨hba, ?_⟩
    by_cases hkj : k = j
    · subst hkj
      simpa [hba] using hb
    · by_cases hki : k = i
      · subst hki
        exact List.mem_of_mem_erase (by simpa [hkj] using hb)
      · simpa [hkj, hki] using hb

/-- Queue `i` is moved to the end of queue `j`. -/
lemma sweep (h : Partition l cs) (hij : j ≠ i) :
    Partition (Function.update (Function.update l i []) j (l j ++ l i)) cs := by
  refine ⟨fun b hb => ?_, fun b hb k hmem => ?_⟩
  · obtain ⟨i', hold⟩ := h.once b hb
    refine ⟨if i' = i then j else i', fun k => ?_⟩
    by_cases hkj : k = j
    · subst hkj
      simp only [Function.update_self, List.count_append, hold]
      by_cases hi : i' = i
      · subst hi
        simp [hij]
      · simp [hi, Ne.symm hi]
    · rw [Function.update_of_ne hkj]
      by_cases hki : k = i
      · subst hki
        by_cases hi : i' = k
        · simp [hi, hkj]
        · simp [hi, Ne.symm hi]
      · rw [Function.update_of_ne hki, hold]
        by_cases hi : i' = i
        · subst hi
          simp [hki, hkj]
        · simp [hi]
  · by_cases hkj : k = j
    · subst hkj
      rcases List.mem_append.mp (by simpa using hmem) with hmem | hmem
      · exact h.only b hb _ hmem
      · exact h.only b hb _ hmem
    · rw [Function.update_of_ne hkj] at hmem
      by_cases hki : k = i
      · simp [hki] at hmem
      · exact h.only b hb k (by simpa [hki] using hmem)

/-- Several queues are moved to the end of queue `j`, one after the other. -/
lemma sweepAll (h : Partition l cs) {is : List ι} (hj : j ∉ is) (hnodup : is.Nodup) :
    Partition (fun k => if k = j then l j ++ is.flatMap l else if k ∈ is then [] else l k) cs := by
  induction is generalizing l with
  | nil =>
    convert h using 1
    funext k
    by_cases hk : k = j <;> simp [hk]
  | cons i is ih =>
    obtain ⟨hi, his⟩ := List.nodup_cons.mp hnodup
    obtain ⟨hji, hj'⟩ : j ≠ i ∧ j ∉ is := by simpa using hj
    convert ih (h.sweep hji) hj' his using 1
    funext k
    by_cases hk : k = j
    · -- the other queues are as before
      have hother : is.flatMap (Function.update (Function.update l i []) j (l j ++ l i)) = is.flatMap l := by
        refine List.flatMap_congr fun k hk => ?_
        have hkj : k ≠ j := fun h => hj' (h ▸ hk)
        have hki : k ≠ i := fun h => hi (h ▸ hk)
        simp [hkj, hki]
      simp [hk, hother]
    · by_cases hki : k = i
      · subst hki
        simp [hk]
      · simp [hk, hki]

omit [DecidableEq α] in
/-- What is where after a sweep. -/
lemma mem_sweep {b : α} {k : ι}
    (hb : b ∈ Function.update (Function.update l i []) j (l j ++ l i) k) :
    b ∈ l k ∨ k = j ∧ b ∈ l i := by
  by_cases hkj : k = j
  · subst hkj
    rcases List.mem_append.mp (by simpa using hb) with hb | hb
    · exact Or.inl hb
    · exact Or.inr ⟨rfl, hb⟩
  · by_cases hki : k = i
    · subst hki
      simp [hkj] at hb
    · exact Or.inl (by simpa [hkj, hki] using hb)

end Partition

/-- Element `a` is in queue `i` if `loc a = some i`, and no queue has an element twice. -/
structure Located (l : ι → List α) (loc : α → Option ι) : Prop where
  mem : ∀ i a, a ∈ l i ↔ loc a = some i
  nodup : ∀ i, (l i).Nodup

namespace Located

variable {loc : α → Option ι} {i : ι} {a : α}

/-- An element that is nowhere is put at the end of queue `i`. -/
lemma append (h : Located l loc) (ha : loc a = none) :
    Located (Function.update l i (l i ++ [a])) (Function.update loc a (some i)) := by
  have hnone (j : ι) : a ∉ l j := by simp [h.mem, ha]
  refine ⟨fun j b => ?_, fun j => ?_⟩
  · by_cases hb : b = a
    · subst hb
      by_cases hj : j = i
      · simp [hj]
      · simp [hj, Ne.symm hj, hnone]
    · by_cases hj : j = i
      · subst hj
        simp [hb, h.mem]
      · simp [hb, hj, h.mem]
  · by_cases hj : j = i
    · subst hj
      simpa [List.nodup_append, h.nodup j] using fun b hb => ne_of_mem_of_not_mem hb (hnone j)
    · simpa [hj] using h.nodup j

/-- The first element of queue `i` is taken out. -/
lemma pop {rest : List α} (h : Located l loc) (hl : l i = a :: rest) :
    Located (Function.update l i rest) (Function.update loc a none) := by
  have hi : loc a = some i := (h.mem i a).mp (by simp [hl])
  obtain ⟨hrest, hnodup⟩ : a ∉ rest ∧ rest.Nodup := by simpa [hl] using h.nodup i
  refine ⟨fun j b => ?_, fun j => ?_⟩
  · by_cases hb : b = a
    · subst hb
      by_cases hj : j = i
      · simp [hj, hrest]
      · simp [hj, h.mem, hi, Ne.symm hj]
    · by_cases hj : j = i
      · subst hj
        simp [hb, ← h.mem, hl]
      · simp [hb, hj, h.mem]
  · by_cases hj : j = i
    · simpa [hj] using hnodup
    · simpa [hj] using h.nodup j

/-- Queue `i` is emptied. -/
lemma clear (h : Located l loc) :
    Located (Function.update l i []) (fun a => if a ∈ l i then none else loc a) := by
  refine ⟨fun j b => ?_, fun j => ?_⟩
  · by_cases hj : j = i
    · subst hj
      by_cases hb : b ∈ l j
      · simp [hb]
      · simp [hb, ← h.mem]
    · by_cases hb : b ∈ l i
      · simp [hj, hb, h.mem, (h.mem i b).mp hb, Ne.symm hj]
      · simp [hj, hb, h.mem]
  · by_cases hj : j = i
    · simp [hj]
    · simpa [hj] using h.nodup j

omit [DecidableEq ι] in
/-- Element `a` is taken out, wherever it is. -/
lemma erase (h : Located l loc) : Located (fun j => (l j).erase a) (Function.update loc a none) := by
  refine ⟨fun j b => ?_, fun j => (h.nodup j).erase a⟩
  rw [(h.nodup j).mem_erase_iff, h.mem]
  by_cases hb : b = a
  · simp [hb]
  · simp [hb]

end Located

end Suspenders.Lib
