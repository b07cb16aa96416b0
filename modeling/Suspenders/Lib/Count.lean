import Mathlib.Data.Set.Card

/-!
# Counters

`Counts n P` says that `n` is the number of things with `P`.  A counter is raised when something new gets `P`, and
lowered when something loses it.
-/

namespace Suspenders.Lib

variable {α : Type*} {n : ℕ} {P Q R : α → Prop}

/-- There are `n` things with `P`. -/
def Counts (n : ℕ) (P : α → Prop) : Prop := {x | P x}.Finite ∧ n = {x | P x}.ncard

namespace Counts

lemma zero (h : ∀ x, ¬ P x) : Counts 0 P := by
  have hempty : {x | P x} = ∅ := Set.eq_empty_of_forall_notMem h
  rw [Counts, hempty]
  exact ⟨Set.finite_empty, Set.ncard_empty α |>.symm⟩

lemma congr (h : Counts n P) (hQ : ∀ x, Q x ↔ P x) : Counts n Q := by
  have heq : {x | Q x} = {x | P x} := Set.ext hQ
  rwa [Counts, heq]

/-- One more thing. -/
lemma insert (h : Counts n P) {a : α} (ha : ¬ P a) (hQ : ∀ x, Q x ↔ x = a ∨ P x) : Counts (n + 1) Q := by
  have heq : {x | Q x} = Insert.insert a {x | P x} := Set.ext hQ
  have hmem : a ∉ {x | P x} := ha
  rw [Counts, heq, Set.ncard_insert_of_notMem hmem h.1, ← h.2]
  exact ⟨h.1.insert a, rfl⟩

/-- One thing less. -/
lemma remove (h : Counts n P) {a : α} (ha : P a) (hQ : ∀ x, Q x ↔ x ≠ a ∧ P x) : Counts (n - 1) Q := by
  have heq : {x | Q x} = {x | P x} \ {a} := by
    ext x
    simpa [and_comm] using hQ x
  have hmem : a ∈ {x | P x} := ha
  rw [Counts, heq, Set.ncard_sdiff_singleton_of_mem hmem, ← h.2]
  exact ⟨h.1.sdiff, rfl⟩

lemma pos (h : Counts n P) {a : α} (ha : P a) : 0 < n := by
  rw [h.2, Set.ncard_pos h.1]
  exact ⟨a, ha⟩

/-- Nothing is counted if and only if there is nothing. -/
lemma eq_zero_iff (h : Counts n P) : n = 0 ↔ ∀ x, ¬ P x := by
  rw [h.2, Set.ncard_eq_zero h.1, Set.eq_empty_iff_forall_notMem]
  exact Iff.rfl

/-- The parts of a whole are counted separately. -/
lemma add (h : Counts n P) (hP : ∀ x, P x ↔ Q x ∨ R x) (hdisj : ∀ x, Q x → ¬ R x) :
    ∃ k l, Counts k Q ∧ Counts l R ∧ n = k + l := by
  have heq : {x | P x} = {x | Q x} ∪ {x | R x} := Set.ext hP
  have hfin : ({x | Q x} ∪ {x | R x}).Finite := heq ▸ h.1
  obtain ⟨hq, hr⟩ := Set.finite_union.1 hfin
  refine ⟨_, _, ⟨hq, rfl⟩, ⟨hr, rfl⟩, ?_⟩
  have hsets : Disjoint {x | Q x} {x | R x} := Set.disjoint_left.2 hdisj
  rw [h.2, heq, Set.ncard_union_eq hsets hq hr]

end Counts

end Suspenders.Lib
