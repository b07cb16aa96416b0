import Mathlib.Data.List.Basic
import Mathlib.Data.List.Nodup
import Mathlib.Logic.Function.Basic

/-!
# Singly linked lists with a tail

The elements of a type `α` carry one link, `next`, to an element or to nothing.  `Seg next h l e` says that from
`h` the links lead through the elements of `l` to `e`, and `Slist next head tail l` that `head` and `tail` represent
the list `l`.  Many lists may share the links, as long as they have no element in common.
-/

namespace Suspenders.Lib

open Function

variable {α : Type*}

/-- From `h` the links lead through `l` to `e`. -/
def Seg (next : α → Option α) : Option α → List α → Option α → Prop
  | h, [], e => h = e
  | h, a :: l, e => h = some a ∧ Seg next (next a) l e

/-- `head` and `tail` represent the list `l`. -/
structure Slist (next : α → Option α) (head tail : Option α) (l : List α) : Prop where
  seg : Seg next head l none
  tail_eq : tail = l.getLast?

variable {next next' : α → Option α} {h e head tail : Option α} {l l₁ l₂ : List α} {a t : α}

namespace Seg

/-- A segment only sees the links of its elements. -/
lemma congr (hs : Seg next h l e) (heq : ∀ b ∈ l, next' b = next b) : Seg next' h l e := by
  induction l generalizing h with
  | nil => exact hs
  | cons b l ih =>
    refine ⟨hs.1, ?_⟩
    rw [heq b List.mem_cons_self]
    exact ih hs.2 fun c hc => heq c (List.mem_cons_of_mem b hc)

lemma append : Seg next h (l₁ ++ l₂) e ↔ ∃ m, Seg next h l₁ m ∧ Seg next m l₂ e := by
  induction l₁ generalizing h with
  | nil =>
    constructor
    · exact fun hs => ⟨h, rfl, hs⟩
    · rintro ⟨m, rfl, hs⟩
      exact hs
  | cons a l₁ ih =>
    rw [List.cons_append]
    constructor
    · rintro ⟨rfl, hs⟩
      obtain ⟨m, h₁, h₂⟩ := ih.mp hs
      exact ⟨m, ⟨rfl, h₁⟩, h₂⟩
    · rintro ⟨m, ⟨rfl, h₁⟩, h₂⟩
      exact ⟨rfl, ih.mpr ⟨m, h₁, h₂⟩⟩

/-- The segment up to its last element. -/
lemma concat : Seg next h (l ++ [a]) e ↔ Seg next h l (some a) ∧ next a = e := by
  rw [append]
  constructor
  · rintro ⟨m, hs, rfl, hlast⟩
    exact ⟨hs, hlast⟩
  · rintro ⟨hs, hlast⟩
    exact ⟨some a, hs, rfl, hlast⟩

lemma head_eq (hs : Seg next h l none) : h = l.head? := by
  cases l with
  | nil => exact hs
  | cons a l => exact hs.1

/-- From the elements of the segment, and from `h`, the links do not lead past `a`. -/
lemma closed (hs : Seg next h l (some a)) :
    (∃ b ∈ l ++ [a], h = some b) ∧ ∀ b ∈ l, ∃ c ∈ l ++ [a], next b = some c := by
  induction l generalizing h with
  | nil => exact ⟨⟨a, by simp, hs⟩, by simp⟩
  | cons b l ih =>
    obtain ⟨⟨c, hc, hnext⟩, hrest⟩ := ih hs.2
    refine ⟨⟨b, List.mem_cons_self, hs.1⟩, fun d hd => ?_⟩
    rcases List.mem_cons.mp hd with rfl | hd
    · exact ⟨c, List.mem_cons_of_mem d hc, hnext⟩
    · obtain ⟨e, he, heq⟩ := hrest d hd
      exact ⟨e, List.mem_cons_of_mem b he, heq⟩

/-- The links lead to each element. -/
lemma exists_of_mem (hs : Seg next h l e) (ha : a ∈ l) : ∃ l₁ l₂, l = l₁ ++ a :: l₂ ∧ Seg next h l₁ (some a) := by
  obtain ⟨l₁, l₂, rfl⟩ := List.append_of_mem ha
  obtain ⟨m, h₁, rfl, -⟩ := append.mp hs
  exact ⟨l₁, l₂, rfl, h₁⟩

end Seg

namespace Slist

lemma nil : Slist next none none ([] : List α) := ⟨rfl, rfl⟩

lemma head_eq (hs : Slist next head tail l) : head = l.head? := hs.seg.head_eq

lemma tail_eq_none (hs : Slist next head tail l) : tail = none ↔ l = [] := by
  rw [hs.tail_eq, List.getLast?_eq_none_iff]

/-- A list only sees the links of its elements. -/
lemma congr (hs : Slist next head tail l) (heq : ∀ b ∈ l, next' b = next b) : Slist next' head tail l :=
  ⟨hs.seg.congr heq, hs.tail_eq⟩

variable [DecidableEq α]

/-- An element is appended to the empty list. -/
lemma push_nil (hs : Slist next head none l) : Slist (update next a none) (some a) (some a) (l ++ [a]) := by
  obtain rfl := hs.tail_eq_none.mp rfl
  exact ⟨⟨rfl, by rw [update_self]; rfl⟩, rfl⟩

/-- An element is appended behind the tail. -/
lemma push_some (hs : Slist next head (some t) l) (hnodup : l.Nodup) (ha : a ∉ l) :
    Slist (update (update next a none) t (some a)) head (some a) (l ++ [a]) := by
  obtain ⟨l, rfl⟩ := List.getLast?_eq_some_iff.mp hs.tail_eq.symm
  obtain ⟨hseg, -⟩ := Seg.concat.mp hs.seg
  have ht : t ∉ l := fun hmem => List.disjoint_of_nodup_append hnodup hmem List.mem_cons_self
  have hat : a ≠ t := fun heq => ha (by simp [heq])
  have hother (b : α) (hb : b ∈ l) : update (update next a none) t (some a) b = next b := by
    rw [update_of_ne (fun heq : b = t => ht (heq ▸ hb)), update_of_ne fun heq => ha (by simp [← heq, hb])]
  refine ⟨Seg.concat.mpr ⟨Seg.concat.mpr ⟨hseg.congr hother, ?_⟩, ?_⟩, by simp⟩
  · rw [update_self]
  · rw [update_of_ne hat, update_self]

/-- The last element after `a` was removed from behind `l₁`. -/
lemma getLast?_remove (l₁ : List α) (hnodup : (l₁ ++ a :: l₂).Nodup) :
    (if (l₁ ++ a :: l₂).getLast? = some a then l₁.getLast? else (l₁ ++ a :: l₂).getLast?) =
      (l₁ ++ l₂).getLast? := by
  rcases List.eq_nil_or_concat' l₂ with rfl | ⟨l, b, rfl⟩
  · simp
  · have hne : b ≠ a := by
      rintro rfl
      simpa using (List.nodup_cons.mp (List.nodup_append'.mp hnodup).2.1).1
    have hlast : (l₁ ++ a :: (l ++ [b])).getLast? = some b := by
      rw [← List.cons_append, ← List.append_assoc, List.getLast?_concat]
    rw [hlast, if_neg fun heq => hne (Option.some.inj heq), ← List.append_assoc, List.getLast?_concat]

/-- The first element is removed. -/
lemma remove_head (hs : Slist next head tail (a :: l)) (hnodup : (a :: l).Nodup) :
    Slist (update next a none) (next a) (if tail = some a then none else tail) l := by
  have ha := (List.nodup_cons.mp hnodup).1
  refine ⟨hs.seg.2.congr fun b hb => update_of_ne (fun heq : b = a => ha (heq ▸ hb)) _ _, ?_⟩
  rw [hs.tail_eq]
  exact getLast?_remove [] hnodup

/-- An element behind `b` is removed, and `b` gets its link. -/
lemma remove_next {b : α} (hs : Slist next head tail (l₁ ++ [b] ++ a :: l₂)) (hnodup : (l₁ ++ [b] ++ a :: l₂).Nodup) :
    Slist (update (update next b (next a)) a none) head (if tail = some a then some b else tail) (l₁ ++ [b] ++ l₂) := by
  obtain ⟨hnd₁, hnd₂, hdisj⟩ := List.nodup_append'.mp hnodup
  obtain ⟨ha₂, -⟩ := List.nodup_cons.mp hnd₂
  have hb₁ : b ∉ l₁ := fun hmem => List.disjoint_of_nodup_append hnd₁ hmem List.mem_cons_self
  have ha (c : α) (hc : c ∈ l₁ ++ [b]) : c ≠ a := fun heq => hdisj hc (heq ▸ List.mem_cons_self)
  have hb (c : α) (hc : c ∈ l₂) : c ≠ b := fun heq => hdisj (by simp) (heq ▸ List.mem_cons_of_mem a hc)
  obtain ⟨m, hseg, rfl, hrest⟩ := Seg.append.mp hs.seg
  obtain ⟨hfirst, -⟩ := Seg.concat.mp hseg
  refine ⟨Seg.append.mpr ⟨next a, Seg.concat.mpr ⟨hfirst.congr fun c hc => ?_, ?_⟩, hrest.congr fun c hc => ?_⟩, ?_⟩
  · rw [update_of_ne (ha c (by simp [hc])), update_of_ne fun heq : c = b => hb₁ (heq ▸ hc)]
  · rw [update_of_ne (ha b (by simp)), update_self]
  · rw [update_of_ne (fun heq : c = a => ha₂ (heq ▸ hc)), update_of_ne (hb c hc)]
  · rw [hs.tail_eq, ← getLast?_remove _ hnodup, List.getLast?_concat]

end Slist

end Suspenders.Lib
