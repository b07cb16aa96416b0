import Mathlib.Data.List.Induction
import Mathlib.Data.Multiset.AddSub
import Suspenders.Lib.MinHeap
import Suspenders.Lib.Run

/-!
# The timer heap

`suspenders_timer_heap` of one worker: an array of pointers to timers, ordered by the `deadline_ns` they point
to.  The array grows when it is full, and a push fails if there is no memory for that.

The heap is a priority queue.  `TimerHeap.held` is what it should hold after a sequence of operations, as a
multiset, and every run of the operations agrees with it.
-/

namespace Suspenders.Sched

open Lib

variable {T : Type*}

/-- `suspenders_timer_heap_t`; `data` is the part of the array that is in use, so that `count` is its length. -/
structure TimerHeap (T : Type*) where
  data : List T
  cap : ℕ

namespace TimerHeap

/-- The heap of a worker that starts. -/
def empty : TimerHeap T := ⟨[], 0⟩

/-- The loop `while (new_cap < needed) new_cap *= 2`, for at most `n` rounds. -/
def growCap (needed : ℕ) : ℕ → ℕ → ℕ
  | 0, newCap => newCap
  | n + 1, newCap => if newCap < needed then growCap needed n (newCap * 2) else newCap

/-- `suspenders_timer_heap_ensure_cap`; `mem` says whether there is memory for a bigger array. -/
def ensureCap (h : TimerHeap T) (needed : ℕ) (mem : Bool) : Option (TimerHeap T) :=
  if needed ≤ h.cap then some h
  else if mem then
    some { h with cap := growCap needed needed (if h.cap = 0 then 16 else h.cap * 2) }
  else none

variable (deadline : T → ℕ)

/-- `suspenders_timer_heap_push` -/
def push (h : TimerHeap T) (t : T) (mem : Bool) : Bool × TimerHeap T :=
  match h.ensureCap (h.data.length + 1) mem with
  | none => (false, h)
  | some h' => (true, { h' with data := MinHeap.push deadline h'.data t })

/-- `suspenders_timer_heap_pop` -/
def pop (h : TimerHeap T) : Option T × TimerHeap T :=
  match MinHeap.pop deadline h.data with
  | none => (none, h)
  | some (t, data) => (some t, { h with data := data })

/-- `suspenders_timer_heap_remove` -/
def remove [DecidableEq T] (h : TimerHeap T) (t : T) : TimerHeap T :=
  { h with data := MinHeap.remove deadline h.data t }

/-- What happens to a heap, with what the operations return. -/
inductive Event (T : Type*)
  /-- The owner of a timer sets its deadline. -/
  | write (t : T) (due : ℕ)
  | push (t : T) (ok : Bool)
  | pop (r : Option T)
  | remove (t : T)

/-- A heap and the deadlines of all timers.  The deadline of a timer is set before it is armed. -/
inductive Step [DecidableEq T] : TimerHeap T × (T → ℕ) → Event T → TimerHeap T × (T → ℕ) → Prop
  | write {h : TimerHeap T} {deadline : T → ℕ} (t : T) (due : ℕ) :
      t ∉ h.data → Step (h, deadline) (.write t due) (h, Function.update deadline t due)
  | push {h : TimerHeap T} {deadline : T → ℕ} (t : T) (mem : Bool) :
      Step (h, deadline) (.push t (h.push deadline t mem).1) ((h.push deadline t mem).2, deadline)
  | pop {h : TimerHeap T} {deadline : T → ℕ} :
      Step (h, deadline) (.pop (h.pop deadline).1) ((h.pop deadline).2, deadline)
  | remove {h : TimerHeap T} {deadline : T → ℕ} (t : T) :
      Step (h, deadline) (.remove t) (h.remove deadline t, deadline)

/-- What an event does to the timers that are held. -/
def Event.after [DecidableEq T] (s : Multiset T) : Event T → Multiset T
  | write _ _ => s
  | push t ok => if ok then t ::ₘ s else s
  | pop r => r.elim s s.erase
  | remove t => s.erase t

/-- The timers that were pushed and have not been popped or removed, each as often as it was pushed. -/
def held [DecidableEq T] (es : List (Event T)) : Multiset T := es.foldl Event.after 0

variable {deadline} {h : TimerHeap T} {t : T} {mem : Bool}

lemma growCap_ge {needed n c : ℕ} (hc : 0 < c) (hn : needed ≤ c + n) : needed ≤ growCap needed n c := by
  induction n generalizing c with
  | zero => exact hn
  | succ n ih =>
    rw [growCap]
    split
    · exact ih (by omega) (by omega)
    · omega

/-- The array is big enough if the call succeeds, and it holds what it held. -/
lemma ensureCap_spec {needed : ℕ} {h' : TimerHeap T} (he : h.ensureCap needed mem = some h') :
    h'.data = h.data ∧ needed ≤ h'.cap := by
  unfold ensureCap at he
  split at he
  · obtain rfl : h = h' := Option.some.inj he
    exact ⟨rfl, by assumption⟩
  · split at he
    · obtain rfl := Option.some.inj he
      refine ⟨rfl, growCap_ge ?_ ?_⟩
      · split
        · omega
        · omega
      · omega
    · cases he

/-- A push that fails changes nothing. -/
lemma push_failed (hp : (h.push deadline t mem).1 = false) : (h.push deadline t mem).2 = h := by
  unfold push at hp ⊢
  split
  · rfl
  · rename_i h' he
    rw [he] at hp
    cases hp

lemma push_done (hp : (h.push deadline t mem).1 = true) :
    (h.push deadline t mem).2.data = MinHeap.push deadline h.data t ∧
      h.data.length + 1 ≤ (h.push deadline t mem).2.cap := by
  unfold push at hp ⊢
  split
  · rename_i he
    rw [he] at hp
    cases hp
  · rename_i h' he
    obtain ⟨hdata, hcap⟩ := ensureCap_spec he
    exact ⟨congrArg (fun data => MinHeap.push deadline data t) hdata, hcap⟩

lemma pop_none (hp : (h.pop deadline).1 = none) : h.data = [] ∧ (h.pop deadline).2 = h := by
  unfold pop at hp ⊢
  cases hd : h.data with
  | nil => exact ⟨rfl, rfl⟩
  | cons x rest =>
    rw [hd] at hp
    cases hp

lemma pop_some (hp : (h.pop deadline).1 = some t) :
    MinHeap.pop deadline h.data = some (t, (h.pop deadline).2.data) ∧ (h.pop deadline).2.cap = h.cap := by
  unfold pop at hp ⊢
  cases hpop : MinHeap.pop deadline h.data with
  | none =>
    rw [hpop] at hp
    cases hp
  | some r =>
    rw [hpop] at hp
    obtain rfl : r.1 = t := Option.some.inj hp
    exact ⟨rfl, rfl⟩

/-- The order only depends on the deadlines of the timers that are in the heap. -/
lemma ordered_congr {deadline' : T → ℕ} {l : List T} (heq : ∀ t ∈ l, deadline' t = deadline t)
    (ho : MinHeap.Ordered deadline l) : MinHeap.Ordered deadline' l := by
  have hkey : ∀ i, MinHeap.keyAt deadline' l i = MinHeap.keyAt deadline l i := by
    intro i
    unfold MinHeap.keyAt
    split
    · rename_i x hx
      exact heq x (List.mem_of_getElem? hx)
    · rfl
  intro i hi hlt
  rw [hkey, hkey]
  exact ho i hi hlt

/-- The heap is in order, it is inside its array, and it holds the timers `s`. -/
structure Holds (h : TimerHeap T) (deadline : T → ℕ) (s : Multiset T) : Prop where
  ordered : MinHeap.Ordered deadline h.data
  cap : h.data.length ≤ h.cap
  same : (h.data : Multiset T) = s

lemma Holds.empty : Holds (empty : TimerHeap T) deadline 0 := ⟨MinHeap.Ordered.nil, Nat.zero_le _, rfl⟩

/-! ## Runs -/

variable [DecidableEq T] {es : List (Event T)}

lemma held_snoc (es : List (Event T)) (e : Event T) : held (es ++ [e]) = e.after (held es) := by
  simp [held]

lemma Holds.step {s : Multiset T} {p : TimerHeap T × (T → ℕ)} {e : Event T} (hh : Holds h deadline s)
    (hs : Step (h, deadline) e p) : Holds p.1 p.2 (e.after s) := by
  cases hs with
  | write t due ht =>
    refine ⟨ordered_congr ?_ hh.ordered, hh.cap, hh.same⟩
    intro x hx
    apply Function.update_of_ne
    rintro rfl
    exact ht hx
  | push t mem =>
    cases hp : (h.push deadline t mem).1 with
    | false =>
      rw [push_failed hp]
      exact hh
    | true =>
      obtain ⟨hdata, hcap⟩ := push_done hp
      have hperm : (MinHeap.push deadline h.data t).Perm (t :: h.data) := MinHeap.push_perm h.data t
      refine ⟨?_, ?_, ?_⟩
      · rw [hdata]
        exact hh.ordered.push t
      · rw [hdata, hperm.length_eq]
        exact hcap
      · rw [hdata, Multiset.coe_eq_coe.mpr hperm, ← Multiset.cons_coe, hh.same]
        rfl
  | pop =>
    cases hp : (h.pop deadline).1 with
    | none =>
      rw [(pop_none hp).2]
      exact hh
    | some t =>
      obtain ⟨hpop, hcap⟩ := pop_some hp
      have hperm := MinHeap.pop_eq_some hpop
      refine ⟨hh.ordered.pop hpop, ?_, ?_⟩
      · show (h.pop deadline).2.data.length ≤ (h.pop deadline).2.cap
        have hlen := hperm.length_eq
        rw [List.length_cons] at hlen
        have := hh.cap
        omega
      · show _ = s.erase t
        rw [← hh.same, Multiset.coe_eq_coe.mpr hperm, ← Multiset.cons_coe, Multiset.erase_cons_head]
  | remove t =>
    have hord : MinHeap.Ordered deadline (h.remove deadline t).data := hh.ordered.remove t
    by_cases ht : t ∈ h.data
    · have hperm : h.data.Perm (t :: (h.remove deadline t).data) := MinHeap.remove_perm ht
      refine ⟨hord, ?_, ?_⟩
      · show (h.remove deadline t).data.length ≤ h.cap
        have hlen := hperm.length_eq
        rw [List.length_cons] at hlen
        have := hh.cap
        omega
      · show _ = s.erase t
        rw [← hh.same, Multiset.coe_eq_coe.mpr hperm, ← Multiset.cons_coe, Multiset.erase_cons_head]
    · have hsame : h.remove deadline t = h := by
        rw [remove, MinHeap.remove_of_not_mem ht]
      rw [hsame]
      refine ⟨hh.ordered, hh.cap, ?_⟩
      show _ = s.erase t
      rw [Multiset.erase_of_notMem]
      · exact hh.same
      · rwa [← hh.same, Multiset.mem_coe]

lemma Holds.run {p q : TimerHeap T × (T → ℕ)} (before : List (Event T)) (hrun : Run Step p es q)
    (hh : Holds p.1 p.2 (held before)) : Holds q.1 q.2 (held (before ++ es)) := by
  induction hrun generalizing before with
  | nil => simpa using hh
  | @cons p e p' es q hstep _ ih =>
    have hnext : Holds p'.1 p'.2 (held (before ++ [e])) := by
      rw [held_snoc]
      exact hh.step hstep
    simpa using ih _ hnext

/-- If no timer is pushed while it is in the heap, then the heap holds each timer once. -/
lemma nodup_held (hes : ∀ es₁ t es₂, es = es₁ ++ .push t true :: es₂ → t ∉ held es₁) : (held es).Nodup := by
  induction es using List.reverseRecOn with
  | nil => exact Multiset.nodup_zero
  | append_singleton es e ih =>
    have hnodup := ih (fun es₁ t es₂ heq => hes es₁ t (es₂ ++ [e]) (by simp [heq]))
    rw [held_snoc]
    cases e with
    | write t due => exact hnodup
    | push t ok =>
      cases ok with
      | false => exact hnodup
      | true => exact Multiset.nodup_cons.mpr ⟨hes es t [] rfl, hnodup⟩
    | pop r =>
      cases r with
      | none => exact hnodup
      | some t => exact hnodup.erase t
    | remove t => exact hnodup.erase t

/-- The heap is a priority queue, whatever is done to it.  It is in order and holds what was pushed and has not
been popped or removed; a pop takes a timer with the earliest deadline, and none only if there is none; a
removal takes the timer it is called for, if it is there, and nothing else; and a push without memory changes
nothing.  The loops of the operations end before their rounds are used up. -/
theorem heap_is_priority_queue {deadline₀ : T → ℕ} (hrun : Run Step (empty, deadline₀) es (h, deadline)) :
    MinHeap.Ordered deadline h.data ∧
    (h.data : Multiset T) = held es ∧
    ((∀ es₁ t es₂, es = es₁ ++ .push t true :: es₂ → t ∉ held es₁) → h.data.Nodup) ∧
    h.data.length ≤ h.cap ∧
    ((h.pop deadline).1 = none ↔ h.data = []) ∧
    (∀ t, (h.pop deadline).1 = some t → t ∈ h.data ∧ ∀ u ∈ h.data, deadline t ≤ deadline u) ∧
    (∀ t, ((h.remove deadline t).data : Multiset T) = (h.data : Multiset T).erase t) ∧
    (∀ t mem, (h.push deadline t mem).1 = false → (h.push deadline t mem).2 = h) ∧
    (∀ t n, h.data.length ≤ n →
      MinHeap.siftUp deadline (h.data ++ [t]) n h.data.length = MinHeap.push deadline h.data t) ∧
    (∀ l : List T, ∀ i n m, i < l.length → l.length ≤ n + i → l.length ≤ m + i →
      MinHeap.siftDown deadline l n i = MinHeap.siftDown deadline l m i) := by
  have hh : Holds h deadline (held es) := by
    simpa using Holds.run [] hrun Holds.empty
  refine ⟨hh.ordered, hh.same, ?_, hh.cap, ?_, ?_, ?_, ?_, ?_, ?_⟩
  · intro hes
    rw [← Multiset.coe_nodup, hh.same]
    exact nodup_held hes
  · constructor
    · intro hp
      exact (pop_none hp).1
    · intro hd
      rw [pop, hd]
      rfl
  · intro t hp
    obtain ⟨hpop, -⟩ := pop_some hp
    exact ⟨(MinHeap.pop_eq_some hpop).mem_iff.mpr List.mem_cons_self,
      fun u hu => hh.ordered.pop_le hpop hu⟩
  · intro t
    have hstep := (hh.step (Step.remove t)).same
    rw [hh.same]
    exact hstep
  · intro t mem hp
    exact push_failed hp
  · intro t n hn
    exact MinHeap.siftUp_rounds hn (le_refl _)
  · intro l i n m hi hn hm
    exact MinHeap.siftDown_rounds hn hm hi

/-- Timers `0`, `1`, `2` and `3` with deadlines 5, 3, 5 and 1 are armed and `0` is disarmed: `3` comes first. -/
theorem heap_is_priority_queue_of_four :
    ∃ es h, Run Step (empty, fun i : ℕ => [5, 3, 5, 1].getD i 0) es (h, fun i : ℕ => [5, 3, 5, 1].getD i 0) ∧
      held es = {1, 2, 3} ∧ (h.data : Multiset ℕ) = {1, 2, 3} ∧ (h.pop fun i : ℕ => [5, 3, 5, 1].getD i 0).1 = some 3 := by
  have hrun : Run Step (empty, fun i : ℕ => [5, 3, 5, 1].getD i 0)
      [.push 0 true, .push 1 true, .push 2 true, .push 3 true, .remove 0]
      (⟨[3, 1, 2], 16⟩, fun i : ℕ => [5, 3, 5, 1].getD i 0) :=
    .cons (.push 0 true) (.cons (.push 1 false) (.cons (.push 2 false) (.cons (.push 3 false)
      (.cons (.remove 0) (.nil _)))))
  have hheld : held [.push 0 true, .push 1 true, .push 2 true, .push 3 true, .remove (0 : ℕ)] = {1, 2, 3} := by
    decide
  exact ⟨_, _, hrun, hheld, (heap_is_priority_queue hrun).2.1.trans hheld, by decide⟩

end TimerHeap

end Suspenders.Sched
