import Suspenders.Lib.Run
import Suspenders.Lib.Slist
import Suspenders.Wait.Node

/-!
# Wait lists in memory

A wait list is a `head` and a `tail`, and its nodes are linked by `next`.  `WqMem` holds all lists and all links, and
`s_wq_push`, `s_wq_pop` and `s_wq_remove` read and write it as the source does; `s_wq_remove` walks along the list with
a pointer `pp` to the link that it read last.

The lists stand for sequences of nodes, and what the three functions do to these is `WqAct.apply`.  A node that is
pushed must be on no list, and one that is removed on no other list (`WqAct.Legal`).
-/

namespace Suspenders.Wait

open Lib Function

/-- `suspenders_wq_list_t` -/
structure WqList where
  head : Option NodeRef
  tail : Option NodeRef

/-- The wait lists, and `next` of every node. -/
structure WqMem where
  list : ListId → WqList
  next : NodeRef → Option NodeRef

/-- A pointer to a link: to `head` of the list, or to `next` of a node. -/
inductive Slot
  | head
  | next (n : NodeRef)

namespace WqMem

variable (s : WqMem) (l : ListId) (n : NodeRef)

def setHead (x : Option NodeRef) : WqMem := { s with list := update s.list l { s.list l with head := x } }

def setTail (x : Option NodeRef) : WqMem := { s with list := update s.list l { s.list l with tail := x } }

def setNext (x : Option NodeRef) : WqMem := { s with next := update s.next n x }

/-- `s_wq_push` -/
def push : WqMem :=
  let s := s.setNext n none
  let s :=
    match (s.list l).tail with
    | some t => s.setNext t (some n)
    | none => s.setHead l (some n)
  s.setTail l (some n)

/-- `s_wq_pop` -/
def pop : Option NodeRef × WqMem :=
  match (s.list l).head with
  | some n =>
    let s := s.setHead l (s.next n)
    let s := if (s.list l).head = none then s.setTail l none else s
    (some n, s.setNext n none)
  | none => (none, s)

/-- `*pp` -/
def load : Slot → Option NodeRef
  | .head => (s.list l).head
  | .next n => s.next n

/-- `*pp = x` -/
def store (x : Option NodeRef) : Slot → WqMem
  | .head => s.setHead l x
  | .next n => s.setNext n x

/-- The body of the `if` in `s_wq_remove` -/
def removeAt (pp : Slot) (prev : Option NodeRef) : WqMem :=
  let s := s.store l (s.next n) pp
  let s := if (s.list l).tail = some n then s.setTail l prev else s
  s.setNext n none

/-- The loop of `s_wq_remove`, `none` if it takes more rounds than there are. -/
def removeLoop : ℕ → Slot → Option NodeRef → Option WqMem
  | 0, _, _ => none
  | rounds + 1, pp, prev =>
    match s.load l pp with
    | none => some s
    | some m => if m = n then some (s.removeAt l n pp prev) else removeLoop rounds (.next m) (some m)

/-- `s_wq_remove` -/
def remove (rounds : ℕ) : Option WqMem := s.removeLoop l n rounds .head none

end WqMem

/-- A call of one of the functions. -/
inductive WqAct
  | push (l : ListId) (n : NodeRef)
  | pop (l : ListId)
  | remove (l : ListId) (n : NodeRef)

/-- A call: the returned node, and the memory. -/
def WqMem.exec (s : WqMem) (rounds : ℕ) : WqAct → Option (Option NodeRef × WqMem)
  | .push l n => some (none, s.push l n)
  | .pop l => some (s.pop l)
  | .remove l n => (s.remove l n rounds).map fun t => (none, t)

/-- A call that returns. -/
def WqMem.Step (s : WqMem) (a : WqAct × Option NodeRef) (t : WqMem) : Prop :=
  ∃ rounds, s.exec rounds a.1 = some (a.2, t)

/-! ## The sequences of nodes -/

/-- The sequences that the lists stand for. -/
abbrev Queues := ListId → List NodeRef

/-- Node `n` is on no list. -/
def Queues.Free (A : Queues) (n : NodeRef) : Prop := ∀ l, n ∉ A l

/-- What the callers promise. -/
def WqAct.Legal (A : Queues) : WqAct → Prop
  | .push _ n => A.Free n
  | .pop _ => True
  | .remove l n => ∀ l', n ∈ A l' → l' = l

/-- What a call does to the sequences, and the node that it returns. -/
def WqAct.apply (A : Queues) : WqAct → Option NodeRef × Queues
  | .push l n => (none, update A l (A l ++ [n]))
  | .pop l => ((A l).head?, update A l (A l).tail)
  | .remove l n => (none, update A l ((A l).erase n))

/-- A legal call on the sequences. -/
def Queues.Step (A : Queues) (a : WqAct × Option NodeRef) (B : Queues) : Prop := a.1.Legal A ∧ a.1.apply A = (a.2, B)

/-- The lists in memory stand for the sequences `A`. -/
structure Denotes (s : WqMem) (A : Queues) : Prop where
  list : ∀ l, Slist s.next (s.list l).head (s.list l).tail (A l)
  nodup : ∀ l, (A l).Nodup
  disjoint : ∀ l l' n, n ∈ A l → n ∈ A l' → l = l'

/-! ## The functions -/

section Simp

variable (s : WqMem) (l l' : ListId) (n : NodeRef) (x : Option NodeRef)

@[simp] lemma setHead_next : (s.setHead l x).next = s.next := rfl
@[simp] lemma setTail_next : (s.setTail l x).next = s.next := rfl
@[simp] lemma setNext_list : (s.setNext n x).list = s.list := rfl
@[simp] lemma setNext_next : (s.setNext n x).next = update s.next n x := rfl

@[simp] lemma setHead_list_self : (s.setHead l x).list l = ⟨x, (s.list l).tail⟩ := update_self _ _ _
@[simp] lemma setTail_list_self : (s.setTail l x).list l = ⟨(s.list l).head, x⟩ := update_self _ _ _

variable {l l'}

lemma setHead_list_of_ne (h : l' ≠ l) : (s.setHead l x).list l' = s.list l' := update_of_ne h _ _
lemma setTail_list_of_ne (h : l' ≠ l) : (s.setTail l x).list l' = s.list l' := update_of_ne h _ _

end Simp

section Ops

variable {s : WqMem} {A : Queues} {l l' : ListId} {n : NodeRef}

/-- A function that writes to list `l` and to links of `l` and of `n` only. -/
lemma Denotes.of_list (h : Denotes s A) {t : WqMem} {q : List NodeRef} (hfree : ∀ l' ≠ l, n ∉ A l')
    (hq : ∀ m ∈ q, m ∈ A l ∨ m = n) (hnodup : q.Nodup)
    (hlist : Slist t.next (t.list l).head (t.list l).tail q) (hother : ∀ l' ≠ l, t.list l' = s.list l')
    (hnext : ∀ m, m ∉ A l → m ≠ n → t.next m = s.next m) : Denotes t (update A l q) := by
  have hnot (l' : ListId) (hl : l' ≠ l) (m : NodeRef) (hm : m ∈ A l') : m ∉ A l ∧ m ≠ n :=
    ⟨fun hm' => hl (h.disjoint l' l m hm hm'), fun heq => hfree l' hl (heq ▸ hm)⟩
  constructor
  · intro l'
    by_cases hl : l' = l
    · subst hl
      rwa [update_self]
    · rw [update_of_ne hl, hother l' hl]
      exact (h.list l').congr fun m hm => hnext m (hnot l' hl m hm).1 (hnot l' hl m hm).2
  · intro l'
    by_cases hl : l' = l
    · subst hl
      rwa [update_self]
    · rw [update_of_ne hl]
      exact h.nodup l'
  · intro l₁ l₂ m h₁ h₂
    have hself (l' : ListId) (hl : l' ≠ l) (hm : m ∈ A l') : m ∉ q := fun hmq =>
      (hq m hmq).elim (hnot l' hl m hm).1 (hnot l' hl m hm).2
    by_cases hl₁ : l₁ = l <;> by_cases hl₂ : l₂ = l
    · exact hl₁.trans hl₂.symm
    · subst hl₁
      rw [update_self] at h₁
      rw [update_of_ne hl₂] at h₂
      exact absurd h₁ (hself l₂ hl₂ h₂)
    · subst hl₂
      rw [update_self] at h₂
      rw [update_of_ne hl₁] at h₁
      exact absurd h₂ (hself l₁ hl₁ h₁)
    · rw [update_of_ne hl₁] at h₁
      rw [update_of_ne hl₂] at h₂
      exact h.disjoint l₁ l₂ m h₁ h₂

/-- Appending a node. -/
lemma denotes_push (h : Denotes s A) (hn : A.Free n) : Denotes (s.push l n) (update A l (A l ++ [n])) ∧
    ∀ m, m ∉ A l → m ≠ n → (s.push l n).next m = s.next m := by
  have hlist := h.list l
  have hnodup : (A l ++ [n]).Nodup := List.nodup_append'.mpr ⟨h.nodup l, List.nodup_singleton n, by simpa using hn l⟩
  have hmem : ∀ m ∈ A l ++ [n], m ∈ A l ∨ m = n := by simp
  rcases htail : (s.list l).tail with - | t
  · have hpush : s.push l n = ((s.setNext n none).setHead l (some n)).setTail l (some n) := by
      simp only [WqMem.push, setNext_list, htail]
    have hnext (m : NodeRef) (_ : m ∉ A l) (hm : m ≠ n) : (s.push l n).next m = s.next m := by
      rw [hpush]
      exact update_of_ne hm _ _
    rw [htail] at hlist
    refine ⟨h.of_list (fun l' _ => hn l') hmem hnodup ?_ (fun l' hl => ?_) hnext, hnext⟩ <;> rw [hpush]
    · simpa using hlist.push_nil
    · rw [setTail_list_of_ne _ _ hl, setHead_list_of_ne _ _ hl, setNext_list]
  · have hpush : s.push l n = ((s.setNext n none).setNext t (some n)).setTail l (some n) := by
      simp only [WqMem.push, setNext_list, htail]
    rw [htail] at hlist
    have ht : t ∈ A l := List.mem_of_getLast? hlist.tail_eq.symm
    have hnext (m : NodeRef) (hm : m ∉ A l) (hmn : m ≠ n) : (s.push l n).next m = s.next m := by
      rw [hpush, setTail_next, setNext_next, setNext_next, update_of_ne (fun heq : m = t => hm (heq ▸ ht)),
        update_of_ne hmn]
    refine ⟨h.of_list (fun l' _ => hn l') hmem hnodup ?_ (fun l' hl => ?_) hnext, hnext⟩ <;> rw [hpush]
    · simpa using hlist.push_some (h.nodup l) (hn l)
    · rw [setTail_list_of_ne _ _ hl, setNext_list, setNext_list]

/-- A walk that stands behind the nodes of `q`. -/
def slotBehind (q : List NodeRef) : Slot :=
  match q.getLast? with
  | none => .head
  | some b => .next b

lemma slotBehind_concat (q : List NodeRef) (b : NodeRef) : slotBehind (q ++ [b]) = .next b := by
  rw [slotBehind, List.getLast?_concat]

/-- The tail is corrected, and the link of `n` cleared. -/
def WqMem.detach (s : WqMem) (l : ListId) (n : NodeRef) (prev : Option NodeRef) : WqMem :=
  (if (s.list l).tail = some n then s.setTail l prev else s).setNext n none

lemma detach_next (prev : Option NodeRef) : (s.detach l n prev).next = update s.next n none := by
  unfold WqMem.detach
  split <;> rfl

lemma detach_list (prev : Option NodeRef) : (s.detach l n prev).list l =
    ⟨(s.list l).head, if (s.list l).tail = some n then prev else (s.list l).tail⟩ := by
  unfold WqMem.detach
  split
  · rw [setNext_list, setTail_list_self]
  · rfl

lemma detach_list_of_ne (hl : l' ≠ l) (prev : Option NodeRef) : (s.detach l n prev).list l' = s.list l' := by
  unfold WqMem.detach
  split
  · rw [setNext_list, setTail_list_of_ne _ _ hl]
  · rfl

/-- Removing `n` where it stands. -/
lemma denotes_removeAt (h : Denotes s A) {q r : List NodeRef} (hq : A l = q ++ n :: r) :
    Denotes (s.removeAt l n (slotBehind q) q.getLast?) (update A l (q ++ r)) ∧
      (s.removeAt l n (slotBehind q) q.getLast?).next n = none ∧
      ∀ m, m ∉ A l → (s.removeAt l n (slotBehind q) q.getLast?).next m = s.next m := by
  have hlist := h.list l
  have hnd := h.nodup l
  have hn : n ∈ A l := by simp [hq]
  have hfree : ∀ l' ≠ l, n ∉ A l' := fun l' hl hn' => hl (h.disjoint l' l n hn' hn)
  have hmem : ∀ m ∈ q ++ r, m ∈ A l ∨ m = n := by
    rw [hq]
    intro m hm
    exact .inl ((List.sublist_cons_self n r).append_left q |>.subset hm)
  have hnodup : (q ++ r).Nodup := (hq ▸ hnd).sublist ((List.sublist_cons_self n r).append_left q)
  rw [hq] at hlist hnd
  rcases List.eq_nil_or_concat' q with rfl | ⟨q, b, rfl⟩
  · have heq : s.removeAt l n (slotBehind []) ([] : List NodeRef).getLast? =
        (s.setHead l (s.next n)).detach l n none := rfl
    have hnext (m : NodeRef) (hm : m ∉ A l) : ((s.setHead l (s.next n)).detach l n none).next m = s.next m := by
      rw [detach_next, update_of_ne (fun heq : m = n => hm (heq ▸ hn)), setHead_next]
    rw [heq]
    refine ⟨h.of_list hfree hmem hnodup ?_ (fun l' hl => ?_) (fun m hm _ => hnext m hm), ?_, hnext⟩
    · rw [detach_next, detach_list, setHead_list_self, setHead_next]
      exact hlist.remove_head hnd
    · rw [detach_list_of_ne hl, setHead_list_of_ne _ _ hl]
    · rw [detach_next, update_self]
  · have heq : s.removeAt l n (slotBehind (q ++ [b])) (q ++ [b]).getLast? =
        (s.setNext b (s.next n)).detach l n (some b) := by
      rw [slotBehind_concat, List.getLast?_concat]
      rfl
    have hb : b ∈ A l := by simp [hq]
    have hnext (m : NodeRef) (hm : m ∉ A l) : ((s.setNext b (s.next n)).detach l n (some b)).next m = s.next m := by
      rw [detach_next, update_of_ne (fun heq : m = n => hm (heq ▸ hn)), setNext_next,
        update_of_ne fun heq : m = b => hm (heq ▸ hb)]
    rw [heq]
    refine ⟨h.of_list hfree hmem hnodup ?_ (fun l' hl => ?_) (fun m hm _ => hnext m hm), ?_, hnext⟩
    · rw [detach_next, detach_list, setNext_next, setNext_list]
      exact hlist.remove_next hnd
    · rw [detach_list_of_ne hl, setNext_list]
    · rw [detach_next, update_self]

/-- What the walk reads behind `q`. -/
lemma load_slotBehind (h : Denotes s A) {q r : List NodeRef} (hq : A l = q ++ r) :
    s.load l (slotBehind q) = r.head? := by
  have hseg := (h.list l).seg
  rw [hq] at hseg
  obtain ⟨m, hfirst, hrest⟩ := Seg.append.mp hseg
  rw [← hrest.head_eq]
  rcases List.eq_nil_or_concat' q with rfl | ⟨q, b, rfl⟩
  · exact hfirst
  · rw [slotBehind_concat]
    exact (Seg.concat.mp hfirst).2

/-- The walk passes a node. -/
lemma removeLoop_cons (h : Denotes s A) {m : NodeRef} {q r : List NodeRef} (hq : A l = q ++ m :: r) (hm : m ≠ n)
    (rounds : ℕ) :
    s.removeLoop l n (rounds + 1) (slotBehind q) q.getLast? =
      s.removeLoop l n rounds (slotBehind (q ++ [m])) (q ++ [m]).getLast? := by
  rw [WqMem.removeLoop, load_slotBehind h hq, slotBehind_concat, List.getLast?_concat]
  simp only [List.head?_cons, if_neg hm]

/-- The walk finds `n`. -/
lemma removeLoop_of_mem (h : Denotes s A) {p q r : List NodeRef} (hq : A l = p ++ q ++ n :: r) {rounds : ℕ}
    (hrounds : q.length < rounds) :
    s.removeLoop l n rounds (slotBehind p) p.getLast? =
      some (s.removeAt l n (slotBehind (p ++ q)) (p ++ q).getLast?) := by
  obtain ⟨rounds, rfl⟩ : ∃ k, rounds = k + 1 := ⟨rounds - 1, by omega⟩
  induction q generalizing p rounds with
  | nil =>
    rw [List.append_nil] at hq ⊢
    rw [WqMem.removeLoop, load_slotBehind h hq]
    exact if_pos rfl
  | cons m q ih =>
    have hmn : m ≠ n := by
      rintro rfl
      have := h.nodup l
      simp [hq, List.nodup_append'] at this
    rw [List.length_cons] at hrounds
    obtain ⟨rounds, rfl⟩ : ∃ k, rounds = k + 1 := ⟨rounds - 1, by omega⟩
    rw [List.append_assoc, List.cons_append] at hq
    rw [removeLoop_cons h hq hmn, ih (p := p ++ [m]) (by simpa using hq) _ (by omega)]
    simp

/-- The walk ends at the tail. -/
lemma removeLoop_of_not_mem (h : Denotes s A) {p q : List NodeRef} (hq : A l = p ++ q) (hn : n ∉ q) {rounds : ℕ}
    (hrounds : q.length < rounds) : s.removeLoop l n rounds (slotBehind p) p.getLast? = some s := by
  obtain ⟨rounds, rfl⟩ : ∃ k, rounds = k + 1 := ⟨rounds - 1, by omega⟩
  induction q generalizing p rounds with
  | nil => rw [WqMem.removeLoop, load_slotBehind h hq, List.head?_nil]
  | cons m q ih =>
    rw [List.length_cons] at hrounds
    obtain ⟨rounds, rfl⟩ : ∃ k, rounds = k + 1 := ⟨rounds - 1, by omega⟩
    rw [removeLoop_cons h hq (fun heq => hn (heq ▸ List.mem_cons_self))]
    exact ih (by simpa using hq) (fun hmem => hn (List.mem_cons_of_mem m hmem)) _ (by omega)

/-- Removing a node of the list. -/
lemma remove_of_mem (h : Denotes s A) (hn : n ∈ A l) : ∃ t, Denotes t (update A l ((A l).erase n)) ∧ t.next n = none ∧
    (∀ m, m ∉ A l → t.next m = s.next m) ∧ ∀ rounds, (A l).length < rounds → s.remove l n rounds = some t := by
  obtain ⟨q, r, hq⟩ := List.append_of_mem hn
  have hnq : n ∉ q := by
    have := h.nodup l
    rw [hq, List.nodup_append'] at this
    exact fun hmem => this.2.2 hmem List.mem_cons_self
  have herase : (A l).erase n = q ++ r := by
    rw [hq, List.erase_append_right _ hnq, List.erase_cons_head]
  obtain ⟨hden, hnext, hother⟩ := denotes_removeAt h hq
  rw [herase]
  refine ⟨_, hden, hnext, hother, fun rounds hrounds => ?_⟩
  have hlen : q.length < rounds := by
    rw [hq, List.length_append] at hrounds
    omega
  exact removeLoop_of_mem (p := []) h hq hlen

/-- Removing a node that is not there. -/
lemma remove_of_not_mem (h : Denotes s A) (hn : n ∉ A l) {rounds : ℕ} (hrounds : (A l).length < rounds) :
    s.remove l n rounds = some s :=
  removeLoop_of_not_mem (p := []) h rfl hn hrounds

/-- Taking the first node is removing it. -/
lemma pop_eq_removeAt (h : Denotes s A) {q : List NodeRef} (hA : A l = n :: q) :
    s.pop l = (some n, s.removeAt l n (slotBehind []) ([] : List NodeRef).getLast?) := by
  have hhead : (s.list l).head = some n := by
    rw [(h.list l).head_eq, hA]
    rfl
  have hnext : s.next n = q.head? := load_slotBehind (q := [n]) h hA
  have htail : (s.list l).tail = some n ↔ s.next n = none := by
    have hnd := h.nodup l
    rw [hA] at hnd
    rw [(h.list l).tail_eq, hA, hnext]
    cases q with
    | nil => simp
    | cons m q =>
      rw [List.getLast?_cons_cons, List.head?_cons]
      refine iff_of_false (fun hlast => ?_) (by simp)
      exact (List.nodup_cons.mp hnd).1 (List.mem_of_getLast? hlast)
  have hremove : s.removeAt l n (slotBehind []) ([] : List NodeRef).getLast? =
      (s.setHead l (s.next n)).detach l n none := rfl
  simp only [hremove, WqMem.pop, WqMem.detach, hhead, setHead_list_self, htail]

/-- Removing the first node. -/
lemma denotes_pop (h : Denotes s A) : (s.pop l).1 = (A l).head? ∧ Denotes (s.pop l).2 (update A l (A l).tail) ∧
    (∀ n, (A l).head? = some n → (s.pop l).2.next n = none) ∧ ∀ m, m ∉ A l → (s.pop l).2.next m = s.next m := by
  rcases hA : A l with - | ⟨n, q⟩
  · have hhead : (s.list l).head = none := by
      rw [(h.list l).head_eq, hA]
      rfl
    have hpop : s.pop l = (none, s) := by simp only [WqMem.pop, hhead]
    rw [hpop]
    refine ⟨rfl, ?_, fun n hn => (by cases hn), fun _ _ => rfl⟩
    rwa [List.tail_nil, ← hA, update_eq_self]
  · obtain ⟨hden, hnext, hother⟩ := denotes_removeAt (q := []) h hA
    rw [pop_eq_removeAt h hA]
    refine ⟨rfl, hden, fun m hm => ?_, hA ▸ hother⟩
    rw [← Option.some.inj hm]
    exact hnext

end Ops

/-! ## Runs -/

section Runs

variable {s t : WqMem} {A B : Queues} {n : NodeRef}

/-- The call puts `n` on a list. -/
def WqAct.Pushes (a : WqAct) (n : NodeRef) : Prop := ∃ l, a = .push l n

/-- Node `n` is on a list or not linked. -/
def Tidy (s : WqMem) (A : Queues) (n : NodeRef) : Prop := A.Free n → s.next n = none

/-- A call that takes nodes off list `l` and clears their links. -/
lemma Tidy.of_list {l : ListId} {q : List NodeRef} (hgone : ∀ m ∈ A l, m ∉ q → t.next m = none)
    (hother : ∀ m, m ∉ A l → t.next m = s.next m) (h : Tidy s A n) : Tidy t (update A l q) n := by
  intro hfree
  have hq : n ∉ q := by simpa using hfree l
  by_cases hn : n ∈ A l
  · exact hgone n hn hq
  · rw [hother n hn]
    refine h fun l' => ?_
    by_cases hl : l' = l
    · rwa [hl]
    · simpa [hl] using hfree l'

/-- A legal call returns, returns what it should, and takes the lists to what they should be. -/
lemma exec_spec (h : Denotes s A) {a : WqAct} (ha : a.Legal A) :
    ∃ t, (∃ least, ∀ rounds, least < rounds → s.exec rounds a = some ((a.apply A).1, t)) ∧ Denotes t (a.apply A).2 ∧
      ∀ n, a.Pushes n ∨ Tidy s A n → Tidy t (a.apply A).2 n := by
  have hnot {a : WqAct} (hp : ∀ l m, a ≠ .push l m) {t : WqMem} {n : NodeRef} :
      a.Pushes n ∨ Tidy t A n → Tidy t A n := fun hm => hm.resolve_left fun ⟨l, heq⟩ => hp l n heq
  cases a with
  | push l n =>
    obtain ⟨hden, hother⟩ := denotes_push (l := l) h ha
    refine ⟨s.push l n, ⟨0, fun _ _ => rfl⟩, hden, fun m hm hfree => ?_⟩
    have hmem : m ∉ A l ++ [n] := by simpa [WqAct.apply] using hfree l
    have hmn : m ≠ n := fun heq => hmem (by simp [heq])
    rcases hm with ⟨l', heq⟩ | hm
    · cases heq
      exact absurd rfl hmn
    · rw [hother m (fun hml => hmem (by simp [hml])) hmn]
      refine hm fun l' => ?_
      by_cases hl : l' = l
      · exact hl ▸ fun hml => hmem (by simp [hml])
      · simpa [WqAct.apply, hl] using hfree l'
  | pop l =>
    obtain ⟨hret, hden, hnext, hother⟩ := denotes_pop (l := l) h
    refine ⟨(s.pop l).2, ⟨0, fun _ _ => ?_⟩, hden, fun m hm => ?_⟩
    · rw [WqMem.exec, WqAct.apply, ← hret]
    · refine (hnot (by simp) hm).of_list (fun m hml hmq => hnext m ?_) hother
      rcases hA : A l with - | ⟨n, q⟩
      · simp [hA] at hml
      · rw [hA, List.mem_cons] at hml
        rw [hA, List.tail_cons] at hmq
        rw [hml.resolve_right hmq, List.head?_cons]
  | remove l n =>
    by_cases hn : n ∈ A l
    · obtain ⟨t, hden, hnext, hother, hrun⟩ := remove_of_mem h hn
      refine ⟨t, ⟨(A l).length, fun rounds hr => ?_⟩, hden, fun m hm => ?_⟩
      · rw [WqMem.exec, hrun rounds hr]
        rfl
      · refine (hnot (by simp) hm).of_list (fun m hml hmq => ?_) hother
        have hmn : m = n := by
          by_contra hne
          exact hmq ((List.mem_erase_of_ne hne).mpr hml)
        rw [hmn, hnext]
    · have happly : (WqAct.remove l n).apply A = (none, A) := by
        rw [WqAct.apply, List.erase_of_not_mem hn, update_eq_self]
      rw [happly]
      refine ⟨s, ⟨(A l).length, fun rounds hr => ?_⟩, h, fun m hm => hnot (by simp) hm⟩
      rw [WqMem.exec, remove_of_not_mem h hn hr]
      rfl

/-- More rounds change nothing. -/
lemma removeLoop_add {l : ListId} {rounds : ℕ} (k : ℕ) {pp : Slot} {prev : Option NodeRef}
    (h : s.removeLoop l n rounds pp prev = some t) : s.removeLoop l n (rounds + k) pp prev = some t := by
  induction rounds generalizing pp prev with
  | zero => cases h
  | succ rounds ih =>
    rw [Nat.succ_add]
    unfold WqMem.removeLoop at h ⊢
    split at h
    · exact h
    · next m _ =>
      by_cases hm : m = n
      · rw [if_pos hm] at h ⊢
        exact h
      · rw [if_neg hm] at h ⊢
        exact ih h

lemma exec_add {a : WqAct} {rounds : ℕ} (k : ℕ) {r : Option NodeRef × WqMem} (h : s.exec rounds a = some r) :
    s.exec (rounds + k) a = some r := by
  cases a with
  | push | pop => exact h
  | remove l n =>
    obtain ⟨u, hu, rfl⟩ := Option.map_eq_some_iff.mp h
    exact Option.map_eq_some_iff.mpr ⟨u, removeLoop_add k hu, rfl⟩

/-- A legal call, and the only way in which it can end. -/
lemma step_spec (h : Denotes s A) {a : WqAct × Option NodeRef} (ha : Queues.Step A a B) :
    ∃ t, s.Step a t ∧ Denotes t B ∧ (∀ n, a.1.Pushes n ∨ Tidy s A n → Tidy t B n) ∧
      ∀ x u, s.Step (a.1, x) u → x = a.2 ∧ u = t := by
  obtain ⟨hlegal, happly⟩ := ha
  obtain ⟨t, ⟨least, hexec⟩, hden, htidy⟩ := exec_spec h hlegal
  rw [happly] at hexec hden htidy
  refine ⟨t, ⟨least + 1, hexec _ least.lt_succ_self⟩, hden, htidy, fun x u ⟨rounds, hu⟩ => ?_⟩
  have heq := (exec_add (least + 1) hu).symm.trans (hexec _ (by omega))
  simpa using heq

/-- A sequence of legal calls. -/
lemma run_spec (h : Denotes s A) {as : List (WqAct × Option NodeRef)} (has : Run Queues.Step A as B) :
    ∃ t, Run WqMem.Step s as t ∧ Denotes t B ∧
      (∀ n, (∃ a ∈ as, a.1.Pushes n) ∨ Tidy s A n → Tidy t B n) ∧
      ∀ as' t', as'.map Prod.fst = as.map Prod.fst → Run WqMem.Step s as' t' → as' = as ∧ t' = t := by
  induction has generalizing s with
  | nil A =>
    refine ⟨s, .nil s, h, fun n hn => by simpa using hn, fun as' t' has' hrun => ?_⟩
    obtain rfl := List.map_eq_nil_iff.mp has'
    cases hrun
    exact ⟨rfl, rfl⟩
  | @cons A a C as B ha _ ih =>
    obtain ⟨u, hstep, hden, htidy, hunique⟩ := step_spec h ha
    obtain ⟨t, hrun, hdent, htidyt, huniquet⟩ := ih hden
    refine ⟨t, .cons hstep hrun, hdent, fun n hn => htidyt n ?_, fun as' t' has' hrun' => ?_⟩
    · rcases hn with ⟨b, hb, hp⟩ | hn
      · rcases List.mem_cons.mp hb with rfl | hb
        · exact .inr (htidy n (.inl hp))
        · exact .inl ⟨b, hb, hp⟩
      · exact .inr (htidy n (.inr hn))
    · cases hrun' with
      | nil => cases has'
      | @cons _ a' u' as' _ hstep' hrun' =>
        rw [List.map_cons, List.map_cons, List.cons.injEq] at has'
        obtain ⟨hx, rfl⟩ := hunique a'.2 u' (has'.1 ▸ hstep')
        obtain ⟨rfl, rfl⟩ := huniquet as' t' has'.2 hrun'
        exact ⟨by rw [Prod.ext has'.1 hx], rfl⟩

end Runs

/-- The lists behave as sequences: every sequence of legal calls returns, returns the nodes that it should, and in the
end the walk from each `head` goes through the nodes of the sequence and ends at `tail`.  A node that was pushed and is
on no list any more has no link, and removing a node that is not there changes nothing. -/
theorem wait_lists_are_queues {s : WqMem} (hs : ∀ l, s.list l = ⟨none, none⟩) {as : List (WqAct × Option NodeRef)}
    {A : Queues} (has : Run Queues.Step (fun _ => []) as A) :
    ∃ t, Run WqMem.Step s as t ∧
      (∀ as' t', as'.map Prod.fst = as.map Prod.fst → Run WqMem.Step s as' t' → as' = as ∧ t' = t) ∧
      (∀ l, Seg t.next (t.list l).head (A l) none ∧ (t.list l).tail = (A l).getLast? ∧
        ((t.list l).tail = none ↔ A l = [])) ∧
      (∀ n, (∃ a ∈ as, a.1.Pushes n) → A.Free n → t.next n = none) ∧
      ∀ l n, n ∉ A l → ∀ rounds, (A l).length < rounds → t.remove l n rounds = some t := by
  have hden : Denotes s fun _ => [] := by
    refine ⟨fun l => ?_, fun _ => List.nodup_nil, fun _ _ n hn => by cases hn⟩
    rw [hs l]
    exact .nil
  obtain ⟨t, hrun, hdent, htidy, hunique⟩ := run_spec hden has
  exact ⟨t, hrun, hunique, fun l => ⟨(hdent.list l).seg, (hdent.list l).tail_eq, (hdent.list l).tail_eq_none⟩,
    fun n hn => htidy n (.inl hn), fun l n hn rounds => remove_of_not_mem hdent hn⟩

/-- Two coroutines wait, the tail gives up, a third comes, and the first is taken: the third is left. -/
theorem wait_lists_are_queues_behind_a_removed_tail :
    ∃ t, (∃ as, Run WqMem.Step ⟨fun _ => ⟨none, none⟩, fun _ => none⟩ as t) ∧
      Seg t.next (t.list (.mutex 0)).head [.wq 3] none ∧ (t.list (.mutex 0)).tail = some (.wq 3) := by
  have has : Run Queues.Step (fun _ => [])
      [(.push (.mutex 0) (.wq 1), none), (.push (.mutex 0) (.wq 2), none), (.remove (.mutex 0) (.wq 2), none),
        (.push (.mutex 0) (.wq 3), none), (.pop (.mutex 0), some (.wq 1))] _ :=
    .cons ⟨fun l => by simp, rfl⟩ <| .cons ⟨fun l => by by_cases hl : l = .mutex 0 <;> simp [hl], rfl⟩ <|
    .cons ⟨fun l hl => by by_contra hne; simp [hne] at hl, rfl⟩ <|
    .cons ⟨fun l => by by_cases hl : l = .mutex 0 <;> simp [hl], rfl⟩ <| .cons ⟨trivial, rfl⟩ <| .nil _
  obtain ⟨t, hrun, -, hlist, -, -⟩ := wait_lists_are_queues (s := ⟨fun _ => ⟨none, none⟩, fun _ => none⟩) (fun _ => rfl) has
  exact ⟨t, ⟨_, hrun⟩, (hlist (.mutex 0)).1, (hlist (.mutex 0)).2.1⟩

end Suspenders.Wait
