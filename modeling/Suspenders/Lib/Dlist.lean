import Mathlib.Data.List.Basic
import Mathlib.Data.List.Nodup
import Mathlib.Logic.Function.Basic

/-!
# Intrusive doubly linked lists

The elements of a type `α` carry two links.  A list is a head, the elements that are reached from it through
`next`, and the back links between them.  `Dlist L h l` says that the links `L` and the head `h` represent the
list `l`; many lists may share one `L`, as long as they have no element in common.

Elements are added at the head (`link`), removed anywhere (`unlink`), and visited from the head on (`walk`).
-/

namespace Suspenders.Lib

variable {α : Type*}

/-- The two links of every element. -/
structure Links (α : Type*) where
  prev : α → Option α
  next : α → Option α

/-- The links `L` and the head `h` represent the list `l`. -/
structure Dlist (L : Links α) (h : Option α) (l : List α) : Prop where
  head : h = l.head?
  prev : ∀ l₁ a l₂, l = l₁ ++ a :: l₂ → L.prev a = l₁.getLast?
  next : ∀ l₁ a l₂, l = l₁ ++ a :: l₂ → L.next a = l₂.head?

namespace Links

variable [DecidableEq α] (L : Links α) (h : Option α) (a : α)

def setPrev (x : Option α) : Links α := { L with prev := Function.update L.prev a x }

def setNext (x : Option α) : Links α := { L with next := Function.update L.next a x }

/-- Put `a` before the head `h`; the new head is `a`. -/
def link : Links α :=
  let L := (L.setPrev a none).setNext a h
  match h with
  | some b => L.setPrev b (some a)
  | none => L

/-- The head after `a` was removed. -/
def unlinkHead : Option α :=
  match L.prev a with
  | some _ => h
  | none => if h = some a then L.next a else h

/-- The element before `a` gets the one behind it. -/
def skipNext : Links α :=
  match L.prev a with
  | some b => L.setNext b (L.next a)
  | none => L

/-- The element behind `a` gets the one before it. -/
def skipPrev : Links α :=
  match L.next a with
  | some b => L.setPrev b (L.prev a)
  | none => L

/-- Remove `a`. -/
def unlink : Links α := (((L.skipNext a).skipPrev a).setPrev a none).setNext a none

/-- The elements a loop visits that starts at `h` and follows `next`, at most `n` of them, and where it ends. -/
def walk : ℕ → Option α → List α × Option α
  | 0, h => ([], h)
  | _ + 1, none => ([], none)
  | n + 1, some a => ((walk n (L.next a)).1.cons a, (walk n (L.next a)).2)

end Links

namespace Dlist

variable {L L' : Links α} {h : Option α} {l : List α} {a : α}

lemma nil : Dlist L none ([] : List α) where
  head := rfl
  prev := fun l₁ a l₂ hl => by simp at hl
  next := fun l₁ a l₂ hl => by simp at hl

/-- A list depends on the links of its own elements only. -/
lemma congr (hd : Dlist L h l) (hprev : ∀ a ∈ l, L'.prev a = L.prev a)
    (hnext : ∀ a ∈ l, L'.next a = L.next a) : Dlist L' h l where
  head := hd.head
  prev := fun l₁ a l₂ hl => (hprev a (by simp [hl])).trans (hd.prev l₁ a l₂ hl)
  next := fun l₁ a l₂ hl => (hnext a (by simp [hl])).trans (hd.next l₁ a l₂ hl)

variable [DecidableEq α]

lemma link_prev_of_ne {b : α} (hb : b ≠ a) (hhead : h ≠ some b) : (L.link h a).prev b = L.prev b := by
  cases h with
  | none => simp [Links.link, Links.setPrev, Links.setNext, hb]
  | some c =>
    have hc : b ≠ c := fun hbc => hhead (by rw [hbc])
    simp [Links.link, Links.setPrev, Links.setNext, hb, hc]

lemma link_next : (L.link h a).next = Function.update L.next a h := by
  cases h <;> rfl

/-- `link` adds an element at the head. -/
lemma link (hd : Dlist L h l) (hnodup : l.Nodup) (ha : a ∉ l) : Dlist (L.link h a) (some a) (a :: l) where
  head := rfl
  prev := by
    rintro (_ | ⟨c, l₁⟩) b l₂ hl
    · obtain ⟨rfl, rfl⟩ : a = b ∧ l = l₂ := by simpa using hl
      cases h with
      | none => simp [Links.link, Links.setPrev, Links.setNext]
      | some c =>
        have hc : a ≠ c := by
          rintro rfl
          exact ha (List.mem_of_mem_head? hd.head.symm)
        simp [Links.link, Links.setPrev, Links.setNext, hc]
    · obtain ⟨rfl, rfl⟩ : a = c ∧ l = l₁ ++ b :: l₂ := by simpa using hl
      have hb : b ≠ a := fun hba => ha (by simp [hba])
      cases l₁ with
      | nil =>
        obtain rfl : h = some b := hd.head
        simp [Links.link, Links.setPrev]
      | cons c' l₁ =>
        have hhead : h ≠ some b := by
          rw [hd.head]
          rintro ⟨⟩
          simp at hnodup
        rw [link_prev_of_ne hb hhead, hd.prev _ b l₂ rfl]
        simp
  next := by
    rintro (_ | ⟨c, l₁⟩) b l₂ hl
    · obtain ⟨rfl, rfl⟩ : a = b ∧ l = l₂ := by simpa using hl
      rw [link_next, Function.update_self, hd.head]
    · obtain ⟨rfl, rfl⟩ : a = c ∧ l = l₁ ++ b :: l₂ := by simpa using hl
      have hb : b ≠ a := fun hba => ha (by simp [hba])
      rw [link_next, Function.update_of_ne hb, hd.next l₁ b l₂ rfl]

/-- `link` leaves other lists alone. -/
lemma link_other {h' : Option α} {l' : List α} (hd : Dlist L h l) (hd' : Dlist L h' l') (ha : a ∉ l')
    (hdisj : ∀ b ∈ l, b ∉ l') : Dlist (L.link h a) h' l' := by
  refine hd'.congr (fun b hb => ?_) (fun b hb => ?_)
  · refine link_prev_of_ne (fun hba => ha (hba ▸ hb)) ?_
    intro hhead
    exact hdisj b (List.mem_of_mem_head? (hd.head ▸ hhead)) hb
  · have hba : b ≠ a := fun hba => ha (hba ▸ hb)
    rw [link_next, Function.update_of_ne hba]

lemma skipNext_prev (L : Links α) (a : α) : (L.skipNext a).prev = L.prev := by
  unfold Links.skipNext
  split <;> rfl

lemma skipNext_next (L : Links α) (a b : α) :
    (L.skipNext a).next b = if L.prev a = some b then L.next a else L.next b := by
  unfold Links.skipNext
  split
  · next c hc => simp [Links.setNext, hc, Function.update_apply, eq_comm]
  · next hc => simp [hc]

lemma skipPrev_next (L : Links α) (a : α) : (L.skipPrev a).next = L.next := by
  unfold Links.skipPrev
  split <;> rfl

lemma skipPrev_prev (L : Links α) (a b : α) :
    (L.skipPrev a).prev b = if L.next a = some b then L.prev a else L.prev b := by
  unfold Links.skipPrev
  split
  · next c hc => simp [Links.setPrev, hc, Function.update_apply, eq_comm]
  · next hc => simp [hc]

lemma unlink_prev (L : Links α) (a b : α) (hb : b ≠ a) :
    (L.unlink a).prev b = if L.next a = some b then L.prev a else L.prev b := by
  have hself : (L.skipNext a).next a = L.next a := by
    rw [skipNext_next]
    split <;> rfl
  simp [Links.unlink, Links.setPrev, Links.setNext, hb, skipPrev_prev, skipNext_prev, hself]

lemma unlink_next (L : Links α) (a b : α) (hb : b ≠ a) :
    (L.unlink a).next b = if L.prev a = some b then L.next a else L.next b := by
  simp [Links.unlink, Links.setPrev, Links.setNext, hb, skipPrev_next, skipNext_next]

omit [DecidableEq α] in
/-- An element of `l₁ ++ l₂` is in one of the two parts. -/
lemma split_append {l₁ l₂ m₁ m₂ : List α} {b : α} (h : l₁ ++ l₂ = m₁ ++ b :: m₂) :
    (∃ k, l₁ = m₁ ++ b :: k ∧ m₂ = k ++ l₂) ∨ ∃ k, m₁ = l₁ ++ k ∧ l₂ = k ++ b :: m₂ := by
  rcases List.append_eq_append_iff.mp h with ⟨k, hm, hl⟩ | ⟨k, hl, hm⟩
  · exact Or.inr ⟨k, hm, hl⟩
  · cases k with
    | nil => exact Or.inr ⟨[], by simpa using hl.symm, by simpa using hm.symm⟩
    | cons c k =>
      obtain ⟨rfl, rfl⟩ : b = c ∧ m₂ = k ++ l₂ := by simpa using hm
      exact Or.inl ⟨k, hl, rfl⟩

lemma unlink_head {l₁ l₂ : List α} (hd : Dlist L h (l₁ ++ a :: l₂)) :
    L.unlinkHead h a = (l₁ ++ l₂).head? := by
  have hprev : L.prev a = l₁.getLast? := hd.prev l₁ a l₂ rfl
  have hnext : L.next a = l₂.head? := hd.next l₁ a l₂ rfl
  have hhead := hd.head
  cases l₁ with
  | nil => simp_all [Links.unlinkHead]
  | cons c l₁ =>
    rw [Links.unlinkHead, hprev, List.getLast?_cons]
    simpa using hhead

/-- `unlink` removes an element from the middle. -/
lemma unlink_append {l₁ l₂ : List α} (hd : Dlist L h (l₁ ++ a :: l₂)) (hnodup : (l₁ ++ a :: l₂).Nodup) :
    Dlist (L.unlink a) (L.unlinkHead h a) (l₁ ++ l₂) := by
  have hprev : L.prev a = l₁.getLast? := hd.prev l₁ a l₂ rfl
  have hnext : L.next a = l₂.head? := hd.next l₁ a l₂ rfl
  obtain ⟨ha, hnodup'⟩ := List.nodup_cons.mp (List.nodup_middle.mp hnodup)
  obtain ⟨hnodup₁, hnodup₂, hdisj⟩ := List.nodup_append.mp hnodup'
  refine ⟨unlink_head hd, fun m₁ b m₂ hm => ?_, fun m₁ b m₂ hm => ?_⟩
  · have hba : b ≠ a := fun hba => ha (by simp [hm, hba])
    rw [unlink_prev L a b hba, hprev, hnext]
    rcases split_append hm with ⟨k, rfl, rfl⟩ | ⟨k, rfl, rfl⟩
    · have hne : l₂.head? ≠ some b :=
        fun hb => hdisj b (by simp) b (List.mem_of_mem_head? hb) rfl
      rw [if_neg hne]
      exact hd.prev m₁ b (k ++ a :: l₂) (by simp)
    · cases k with
      | nil => simp
      | cons c k =>
        have hne : c ≠ b := by
          rintro rfl
          simp at hnodup₂
        rw [if_neg (by simpa using hne), hd.prev (l₁ ++ a :: c :: k) b m₂ (by simp)]
        simp [List.getLast?_append, List.getLast?_cons]
  · have hba : b ≠ a := fun hba => ha (by simp [hm, hba])
    rw [unlink_next L a b hba, hprev, hnext]
    rcases split_append hm with ⟨k, rfl, rfl⟩ | ⟨k, rfl, rfl⟩
    · rcases List.eq_nil_or_concat k with rfl | ⟨k, c, rfl⟩
      · simp
      · have hne : c ≠ b := by
          rintro rfl
          have := List.nodup_append.mp hnodup₁
          simp at this
        have hlast : (m₁ ++ b :: k.concat c).getLast? = some c := by
          simp [List.getLast?_append, List.getLast?_cons]
        rw [hlast, if_neg (by simpa using hne), hd.next m₁ b (k ++ [c] ++ a :: l₂) (by simp)]
        cases k <;> simp
    · have hne : l₁.getLast? ≠ some b :=
        fun hb => hdisj b (List.mem_of_getLast? hb) b (by simp) rfl
      rw [if_neg hne]
      exact hd.next (l₁ ++ a :: k) b m₂ (by simp)

/-- `unlink` removes an element. -/
lemma unlink (hd : Dlist L h l) (hnodup : l.Nodup) (ha : a ∈ l) :
    Dlist (L.unlink a) (L.unlinkHead h a) (l.erase a) := by
  obtain ⟨l₁, l₂, rfl⟩ := List.append_of_mem ha
  have hfirst : a ∉ l₁ := fun h => (List.nodup_append.mp hnodup).2.2 a h a (by simp) rfl
  rw [List.erase_append_right _ hfirst, List.erase_cons_head]
  exact hd.unlink_append hnodup

/-- `unlink` leaves other lists alone. -/
lemma unlink_other {h' : Option α} {l' : List α} (hd : Dlist L h l) (hd' : Dlist L h' l') (ha : a ∈ l)
    (hdisj : ∀ b ∈ l, b ∉ l') : Dlist (L.unlink a) h' l' := by
  obtain ⟨l₁, l₂, rfl⟩ := List.append_of_mem ha
  have hprev : L.prev a = l₁.getLast? := hd.prev l₁ a l₂ rfl
  have hnext : L.next a = l₂.head? := hd.next l₁ a l₂ rfl
  refine hd'.congr (fun b hb => ?_) (fun b hb => ?_)
  · have hba : b ≠ a := fun hba => hdisj a ha (hba ▸ hb)
    rw [unlink_prev L a b hba, hnext, if_neg]
    exact fun hhead => hdisj b (by simp [List.mem_of_mem_head? hhead]) hb
  · have hba : b ≠ a := fun hba => hdisj a ha (hba ▸ hb)
    rw [unlink_next L a b hba, hprev, if_neg]
    exact fun hlast => hdisj b (by simp [List.mem_of_getLast? hlast]) hb

omit [DecidableEq α] in
/-- The loop that follows `next` visits the elements of the list and ends. -/
lemma walk_eq (hd : Dlist L h l) {n : ℕ} (hn : l.length ≤ n) : L.walk n h = (l, none) := by
  -- the induction is on what is left of the list behind the part already visited
  have key : ∀ l₂ l₁ (n : ℕ), l = l₁ ++ l₂ → l₂.length ≤ n → L.walk n l₂.head? = (l₂, none) := by
    intro l₂
    induction l₂ with
    | nil =>
      intro l₁ n _ _
      cases n <;> rfl
    | cons a l₂ ih =>
      intro l₁ n hl hn
      cases n with
      | zero => simp at hn
      | succ n =>
        have hrest := ih (l₁ ++ [a]) n (by simp [hl]) (by simpa using hn)
        simp [Links.walk, hd.next l₁ a l₂ hl, hrest]
  rw [hd.head]
  exact key l [] n rfl hn

end Dlist

end Suspenders.Lib
