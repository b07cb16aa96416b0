import Mathlib.Data.List.Perm.Basic
import Suspenders.Lib.Run

/-!
# Stacks

The operations on a stack: an element is pushed, or the top element is popped.  Nothing is said about what the elements
are.  Whatever the operations, what was popped and what is left is what was pushed (`StackStep.perm`), and if nothing
is left, then the elements were popped in the order of the stack (`StackStep.sublist`).
-/

namespace Suspenders.Lib

variable {α : Type*}

/-- An operation on a stack, with the element that it pushes or pops. -/
inductive StackOp (α : Type*)
  | push (a : α)
  | pop (a : α)

/-- The top of a stack is its head. -/
inductive StackStep : List α → StackOp α → List α → Prop
  | push (a : α) (l : List α) : StackStep l (.push a) (a :: l)
  | pop (a : α) (l : List α) : StackStep (a :: l) (.pop a) l

/-- What is pushed. -/
def StackOp.pushed? : StackOp α → Option α
  | push a => some a
  | pop _ => none

/-- What is popped. -/
def StackOp.popped? : StackOp α → Option α
  | push _ => none
  | pop a => some a

namespace StackStep

variable {l l' : List α} {ops : List (StackOp α)}

/-- No element is lost, and none appears from nowhere. -/
theorem perm (h : Run StackStep l ops l') :
    (ops.filterMap StackOp.popped? ++ l').Perm (ops.filterMap StackOp.pushed? ++ l) := by
  induction h with
  | nil => exact .refl _
  | cons hstep _ ih =>
    cases hstep with
    | push => exact ih.trans List.perm_middle
    | pop => exact (ih.cons _).trans List.perm_middle.symm

/-- What is on a stack that becomes empty is popped from the top down. -/
theorem sublist (h : Run StackStep l ops []) : List.Sublist l (ops.filterMap StackOp.popped?) := by
  generalize hend : ([] : List α) = l' at h
  induction h with
  | nil => exact hend ▸ .slnil
  | cons hstep _ ih =>
    cases hstep with
    | push => exact (List.sublist_cons_self _ _).trans (ih hend)
    | pop => exact (ih hend).cons_cons _

end StackStep

/-- Two elements of a sorted list occur in its order. -/
lemma pair_sublist_of_pairwise {r : α → α → Prop} {l : List α} {a b : α} (h : l.Pairwise r) (ha : a ∈ l)
    (hb : b ∈ l) (hne : a ≠ b) (hba : ¬ r b a) : List.Sublist [a, b] l := by
  obtain ⟨l₁, l₂, rfl⟩ := List.append_of_mem ha
  obtain ⟨-, -, hcross⟩ := List.pairwise_append.mp h
  have hb₂ : b ∈ l₂ := by
    rcases List.mem_append.mp hb with hb₁ | hb₂
    · exact absurd (hcross b hb₁ a List.mem_cons_self) hba
    · exact (List.mem_cons.mp hb₂).resolve_left (Ne.symm hne)
  exact ((List.singleton_sublist.mpr hb₂).cons_cons a).trans (List.sublist_append_right _ _)

/-- Two elements of a list of images are the images of two elements in the same order. -/
lemma exists_pair_of_filterMap {β : Type*} {f : α → Option β} {l : List α} {b c : β}
    (h : List.Sublist [b, c] (l.filterMap f)) :
    ∃ x y, List.Sublist [x, y] l ∧ f x = some b ∧ f y = some c := by
  obtain ⟨l', hl', heq⟩ := List.sublist_filterMap_iff.mp h
  obtain ⟨l₁, x, l₂, rfl, -, hx, hrest⟩ := List.filterMap_eq_cons_iff.mp heq.symm
  obtain ⟨l₃, y, l₄, rfl, -, hy, -⟩ := List.filterMap_eq_cons_iff.mp hrest
  have hy₄ : List.Sublist [y] (l₃ ++ y :: l₄) := List.singleton_sublist.mpr (by simp)
  exact ⟨x, y, ((hy₄.cons_cons x).trans (List.sublist_append_right l₁ _)).trans hl', hx, hy⟩

end Suspenders.Lib
