import Mathlib.Algebra.Group.Nat.Defs
import Mathlib.Data.List.Nodup
import Suspenders.Sched.TimerHeap

/-!
# The timers of a worker

`Store` is the heap of a worker together with the timers it points to.  Timers are armed and disarmed,
`suspenders_timer_create` makes them and `suspenders_timer_cancel` frees them, and the expiry pass takes the
first one and files it again if it repeats.

Every operation keeps the heap `Sound`, and there is a lemma about each that says what it does to the heap and
which timers it leaves alone.
-/

namespace Suspenders.Sched

open Lib

variable {T κ : Type*}

/-- `suspenders_timer_t`; `κ` are the callbacks with their arguments.  Only `suspenders_timer_create` makes timers
that repeat, and it refuses a period that is not positive. -/
structure TimerRec (κ : Type*) where
  deadlineNs : ℕ
  periodMs : ℕ
  repeats : Bool
  active : Bool
  heapAllocated : Bool
  cb : κ
  period_pos : repeats = true → 0 < periodMs

/-- The heap of a worker, the timers, and which of them there are. -/
structure Store (T κ : Type*) where
  heap : TimerHeap T
  timer : T → TimerRec κ
  /-- The memory is that of a timer, and it has not been freed. -/
  live : T → Bool

namespace Store

/-- `deadline_ns` of a timer. -/
def due (s : Store T κ) (t : T) : ℕ := (s.timer t).deadlineNs

variable [DecidableEq T] (s : Store T κ) (t : T)

/-- Fields of timer `t` are written. -/
def modify (f : TimerRec κ → TimerRec κ) : Store T κ :=
  { s with timer := Function.update s.timer t (f (s.timer t)) }

/-- `t->active = a` -/
def setActive (a : Bool) : Store T κ := s.modify t fun x => { x with active := a }

/-- `s_timer_arm`; `mem` says whether there is memory for a bigger heap. -/
def timerArm (mem : Bool) : Bool × Store T κ :=
  let s := s.setActive t true
  match s.heap.push s.due t mem with
  | (true, heap) => (true, { s with heap := heap })
  | (false, heap) => (false, { s with heap := heap }.setActive t false)

/-- `s_timer_disarm` -/
def timerDisarm : Store T κ :=
  if (s.timer t).active then
    let s := s.setActive t false
    { s with heap := s.heap.remove s.due t }
  else s

/-- `suspenders_timer_create` with memory at `t` for the timer, when the clock is at `clock`. -/
def timerCreate (clock : ℕ) (ms : ℤ) (repeats : Bool) (cb : κ) (mem : Bool) : Bool × Store T κ :=
  if h : ms ≤ 0 then (false, s)
  else
    let timer : TimerRec κ :=
      { deadlineNs := (clock + ms.toNat * 1000000) % 2 ^ 64
        periodMs := ms.toNat
        repeats := repeats
        active := false
        heapAllocated := true
        cb := cb
        period_pos := fun _ => by omega }
    let s := { s with timer := Function.update s.timer t timer, live := Function.update s.live t true }
    match s.timerArm t mem with
    | (true, s) => (true, s)
    | (false, s) => (false, { s with live := Function.update s.live t false })

/-- `suspenders_timer_cancel` -/
def timerCancel : Store T κ :=
  let s := s.timerDisarm t
  if (s.timer t).heapAllocated then { s with live := Function.update s.live t false } else s

/-- What the pass does to a timer that it has taken from the heap, before it calls the callback; with it, whether
a timer that repeats has been filed again. -/
def settle (now : ℕ) (mem : Bool) : Bool × Store T κ :=
  if (s.timer t).repeats then
    let s := s.modify t fun x => { x with deadlineNs := (now + x.periodMs * 1000000) % 2 ^ 64 }
    match s.heap.push s.due t mem with
    | (true, heap) => (true, { s with heap := heap })
    | (false, heap) => (false, { s with heap := heap }.setActive t false)
  else (true, s.setActive t false)

end Store

/-! ## What the operations do to the heap -/

/-- The heap is in order and inside its array, and it points to each of its timers once; they exist and are
active. -/
structure Store.Sound (s : Store T κ) : Prop where
  holds : s.heap.Holds s.due s.heap.data
  nodup : s.heap.data.Nodup
  active : ∀ t ∈ s.heap.data, (s.timer t).active = true
  live : ∀ t ∈ s.heap.data, s.live t = true

namespace Store

variable [DecidableEq T] {s : Store T κ} {t u : T} {mem : Bool}

@[simp] lemma modify_self (f : TimerRec κ → TimerRec κ) : (s.modify t f).timer t = f (s.timer t) :=
  Function.update_self _ _ _

@[simp] lemma modify_of_ne (f : TimerRec κ → TimerRec κ) (h : u ≠ t) : (s.modify t f).timer u = s.timer u :=
  Function.update_of_ne h _ _

@[simp] lemma modify_heap (f : TimerRec κ → TimerRec κ) : (s.modify t f).heap = s.heap := rfl

@[simp] lemma modify_live (f : TimerRec κ → TimerRec κ) : (s.modify t f).live = s.live := rfl

omit [DecidableEq T] in
lemma Sound.init (timer : T → TimerRec κ) : (⟨.empty, timer, fun _ => false⟩ : Store T κ).Sound :=
  ⟨⟨MinHeap.Ordered.nil, Nat.zero_le _, rfl⟩, List.nodup_nil, by simp [TimerHeap.empty], by simp [TimerHeap.empty]⟩

/-- A timer that is not in the heap is put in. -/
lemma Sound.push {heap : TimerHeap T} (hs : s.Sound) (ht : t ∉ s.heap.data)
    (hp : s.heap.push s.due t mem = (true, heap)) (hactive : (s.timer t).active = true) (hlive : s.live t = true) :
    ({ s with heap := heap } : Store T κ).Sound ∧ ∀ u, u ∈ heap.data ↔ u ∈ s.heap.data ∨ u = t := by
  have hstep := hs.holds.step (TimerHeap.Step.push t mem)
  rw [hp] at hstep
  have hperm : heap.data.Perm (t :: s.heap.data) := Multiset.coe_eq_coe.mp hstep.same
  have hmem : ∀ u, u ∈ heap.data ↔ u ∈ s.heap.data ∨ u = t := by
    intro u
    rw [hperm.mem_iff, List.mem_cons, or_comm]
  refine ⟨⟨⟨hstep.ordered, hstep.cap, rfl⟩, ?_, ?_, ?_⟩, hmem⟩
  · exact hperm.nodup_iff.mpr (List.nodup_cons.mpr ⟨ht, hs.nodup⟩)
  · intro u hu
    rcases (hmem u).mp hu with hu | rfl
    · exact hs.active u hu
    · exact hactive
  · intro u hu
    rcases (hmem u).mp hu with hu | rfl
    · exact hs.live u hu
    · exact hlive

/-- What the pass does to the timer it takes from the heap. -/
structure Settled (s : Store T κ) (now : ℕ) (t : T) (s' : Store T κ) : Prop where
  mem : t ∈ s.heap.data
  first : ∀ u ∈ s.heap.data, s.due t ≤ s.due u
  sound : s'.Sound
  rest : ∀ u, u ≠ t → s'.timer u = s.timer u
  live : s'.live = s.live
  heap : ∀ u, u ∈ s'.heap.data ↔ (u ∈ s.heap.data ∧ u ≠ t) ∨ (u = t ∧ (s.timer t).repeats = true)
  once : (s.timer t).repeats = false → s'.timer t = { s.timer t with active := false }
  again : (s.timer t).repeats = true →
    s'.timer t = { s.timer t with deadlineNs := now + (s.timer t).periodMs * 1000000 }

/-- A timer that has been filed again is not due before its period is over, so that what has expired and is in
the heap has been there before. -/
lemma Settled.left {s' : Store T κ} {now : ℕ} (h : Settled s now t s') (hu : u ∈ s'.heap.data)
    (hdue : s'.due u ≤ now) : u ≠ t ∧ u ∈ s.heap.data ∧ s.due u ≤ now := by
  rcases (h.heap u).mp hu with ⟨hin, hne⟩ | ⟨rfl, hr⟩
  · rw [due, h.rest u hne] at hdue
    exact ⟨hne, hin, hdue⟩
  · have hpos := (s.timer u).period_pos hr
    rw [due, h.again hr] at hdue
    simp only at hdue
    omega

omit [DecidableEq T] in
/-- A timer that is not in the heap is written. -/
lemma Sound.write {s' : Store T κ} (hs : s.Sound) (ht : t ∉ s.heap.data) (hheap : s'.heap = s.heap)
    (htimer : ∀ u, u ≠ t → s'.timer u = s.timer u) (hlive : ∀ u, u ≠ t → s'.live u = s.live u) : s'.Sound := by
  have hne : ∀ u ∈ s.heap.data, u ≠ t := by
    rintro u hu rfl
    exact ht hu
  refine ⟨?_, ?_, ?_, ?_⟩
  · rw [hheap]
    refine ⟨TimerHeap.ordered_congr ?_ hs.holds.ordered, hs.holds.cap, rfl⟩
    intro u hu
    rw [due, htimer u (hne u hu), due]
  · rw [hheap]
    exact hs.nodup
  · rw [hheap]
    intro u hu
    rw [htimer u (hne u hu)]
    exact hs.active u hu
  · rw [hheap]
    intro u hu
    rw [hlive u (hne u hu)]
    exact hs.live u hu

omit [DecidableEq T] in
/-- The first timer is taken from the heap. -/
lemma Sound.pop {heap : TimerHeap T} (hs : s.Sound) (hp : s.heap.pop s.due = (some t, heap)) :
    ({ s with heap := heap } : Store T κ).Sound ∧ t ∈ s.heap.data ∧ (∀ u ∈ s.heap.data, s.due t ≤ s.due u) ∧
      (∀ u, u ∈ heap.data ↔ u ∈ s.heap.data ∧ u ≠ t) ∧ heap.data.length + 1 ≤ heap.cap := by
  obtain ⟨hpop, hcap⟩ := @TimerHeap.pop_some _ s.due s.heap t (by rw [hp])
  rw [hp] at hpop hcap
  change heap.cap = s.heap.cap at hcap
  have hperm : s.heap.data.Perm (t :: heap.data) := MinHeap.pop_eq_some hpop
  have hcons := List.nodup_cons.mp (hperm.nodup_iff.mp hs.nodup)
  have hmem : ∀ u, u ∈ heap.data ↔ u ∈ s.heap.data ∧ u ≠ t := by
    intro u
    rw [hperm.mem_iff, List.mem_cons]
    constructor
    · intro hu
      refine ⟨Or.inr hu, ?_⟩
      rintro rfl
      exact hcons.1 hu
    · rintro ⟨rfl | hu, hne⟩
      · exact absurd rfl hne
      · exact hu
  have hlen := hperm.length_eq
  have hle := hs.holds.cap
  rw [List.length_cons] at hlen
  refine ⟨⟨⟨hs.holds.ordered.pop hpop, by show heap.data.length ≤ heap.cap; omega, rfl⟩, hcons.2, ?_, ?_⟩, ?_,
    fun u hu => hs.holds.ordered.pop_le hpop hu, hmem, by omega⟩
  · intro u hu
    exact hs.active u ((hmem u).mp hu).1
  · intro u hu
    exact hs.live u ((hmem u).mp hu).1
  · exact hperm.mem_iff.mpr List.mem_cons_self

/-- There is room for a timer that has just been taken out, with memory or without. -/
lemma settle_spec {heap : TimerHeap T} {now : ℕ} (hs : s.Sound) (hp : s.heap.pop s.due = (some t, heap))
    (hov : (s.timer t).repeats = true → now + (s.timer t).periodMs * 1000000 < 2 ^ 64) :
    ({ s with heap := heap }.settle t now mem).1 = true ∧
      Settled s now t ({ s with heap := heap }.settle t now mem).2 := by
  obtain ⟨hsound, hmem, hfirst, hheap, hroom⟩ := hs.pop hp
  have hnot : t ∉ heap.data := fun ht => ((hheap t).mp ht).2 rfl
  cases hr : (s.timer t).repeats with
  | false =>
    simp only [settle, hr, Bool.false_eq_true, if_false, true_and]
    have hsound' : (({ s with heap := heap } : Store T κ).setActive t false).Sound :=
      hsound.write hnot rfl (fun u hu => modify_of_ne _ hu) fun _ _ => rfl
    refine ⟨hmem, hfirst, hsound', fun u hu => modify_of_ne _ hu, rfl, ?_, fun _ => modify_self _, ?_⟩
    · intro u
      show u ∈ heap.data ↔ _
      rw [hheap u, hr]
      simp
    · intro hr'
      rw [hr] at hr'
      cases hr'
  | true =>
    simp only [settle, hr, if_true]
    generalize hw : ({ s with heap := heap } : Store T κ).modify t
      (fun x => { x with deadlineNs := (now + x.periodMs * 1000000) % 2 ^ 64 }) = s₁
    have hrest : ∀ u, u ≠ t → s₁.timer u = s.timer u := by
      intro u hu
      rw [← hw, modify_of_ne _ hu]
    have hself : s₁.timer t = { s.timer t with deadlineNs := now + (s.timer t).periodMs * 1000000 } := by
      rw [← hw, modify_self]
      simp only [Nat.mod_eq_of_lt (hov hr)]
    have hheap₁ : s₁.heap = heap := by rw [← hw]; rfl
    have hlive₁ : s₁.live = s.live := by rw [← hw]; rfl
    have hsound₁ : s₁.Sound := hsound.write hnot hheap₁ hrest fun u _ => by rw [hlive₁]
    have hpush : s₁.heap.push s₁.due t mem = (true, { heap with data := MinHeap.push s₁.due heap.data t }) := by
      rw [TimerHeap.push, TimerHeap.ensureCap, hheap₁, if_pos hroom]
    rw [hpush]
    obtain ⟨hsound₂, hmem₂⟩ := hsound₁.push (by rwa [hheap₁]) hpush (by rw [hself]; exact hs.active t hmem)
      (by rw [hlive₁]; exact hs.live t hmem)
    refine ⟨rfl, hmem, hfirst, hsound₂, hrest, hlive₁, ?_, ?_, fun _ => hself⟩
    · intro u
      rw [hmem₂ u, hheap₁, hheap u, hr]
      simp
    · intro hr'
      rw [hr] at hr'
      cases hr'

/-- What the pass does to a timer that is not in the heap any more concerns no other timer. -/
lemma settle_rest {now : ℕ} (hs : s.Sound) (ht : t ∉ s.heap.data) (hactive : (s.timer t).active = true)
    (hlive : s.live t = true) : (s.settle t now mem).2.Sound ∧ (s.settle t now mem).2.live = s.live ∧
      (∀ u, u ≠ t → (s.settle t now mem).2.timer u = s.timer u) ∧
      ∀ u ∈ (s.settle t now mem).2.heap.data, u ∈ s.heap.data ∨ u = t := by
  simp only [settle]
  split
  · generalize hw : s.modify t (fun x => { x with deadlineNs := (now + x.periodMs * 1000000) % 2 ^ 64 }) = s₁
    have hrest : ∀ u, u ≠ t → s₁.timer u = s.timer u := by
      intro u hu
      rw [← hw, modify_of_ne _ hu]
    have hheap : s₁.heap = s.heap := by rw [← hw]; rfl
    have hlive₁ : s₁.live = s.live := by rw [← hw]; rfl
    have hactive₁ : (s₁.timer t).active = true := by rw [← hw, modify_self]; exact hactive
    have hs₁ : s₁.Sound := hs.write ht hheap hrest fun u _ => by rw [hlive₁]
    cases hp : s₁.heap.push s₁.due t mem with
    | mk ok heap =>
      cases ok with
      | true =>
        obtain ⟨hsound, hmem⟩ := hs₁.push (by rwa [hheap]) hp hactive₁ (by rw [hlive₁]; exact hlive)
        dsimp only
        refine ⟨hsound, hlive₁, hrest, ?_⟩
        intro u hu
        rw [← hheap]
        exact (hmem u).mp hu
      | false =>
        have hsame : heap = s₁.heap := by
          have := @TimerHeap.push_failed _ s₁.due s₁.heap t mem (by rw [hp])
          rwa [hp] at this
        subst hsame
        dsimp only
        refine ⟨hs₁.write (by rwa [hheap]) rfl (fun u hu => modify_of_ne _ hu) fun _ _ => rfl, hlive₁, ?_, ?_⟩
        · intro u hu
          exact (modify_of_ne _ hu).trans (hrest u hu)
        · intro u hu
          rw [← hheap]
          exact Or.inl hu
  · have hrest : ∀ u, u ≠ t → (s.setActive t false).timer u = s.timer u := fun u hu => modify_of_ne _ hu
    exact ⟨hs.write ht rfl hrest fun _ _ => rfl, rfl, hrest, fun u hu => Or.inl hu⟩

/-- A disarmed timer is in the heap no more, whether it was or not. -/
lemma timerDisarm_spec (hs : s.Sound) (t : T) :
    (s.timerDisarm t).Sound ∧ (∀ u, u ∈ (s.timerDisarm t).heap.data ↔ u ∈ s.heap.data ∧ u ≠ t) ∧
      (∀ u, u ≠ t → (s.timerDisarm t).timer u = s.timer u) ∧
      (s.timerDisarm t).timer t = { s.timer t with active := false } ∧ (s.timerDisarm t).live = s.live := by
  cases ha : (s.timer t).active with
  | false =>
    have hnot : t ∉ s.heap.data := by
      intro ht
      rw [hs.active t ht] at ha
      cases ha
    have heq : s.timerDisarm t = s := by simp [timerDisarm, ha]
    rw [heq]
    refine ⟨hs, ?_, fun _ _ => rfl, ?_, rfl⟩
    · intro u
      constructor
      · intro hu
        refine ⟨hu, ?_⟩
        rintro rfl
        exact hnot hu
      · exact And.left
    · rw [← ha]
  | true =>
    have hrest : ∀ u, u ≠ t → (s.timerDisarm t).timer u = s.timer u := by
      intro u hu
      simp [timerDisarm, ha, setActive, hu]
    have hself : (s.timerDisarm t).timer t = { s.timer t with active := false } := by
      simp [timerDisarm, ha, setActive]
    have hdue : (s.setActive t false).due = s.due := by
      funext u
      by_cases hu : u = t
      · subst hu
        simp [due, setActive]
      · simp [due, setActive, hu]
    have hheap : (s.timerDisarm t).heap = s.heap.remove s.due t := by
      simp only [timerDisarm, ha, if_true, hdue]
      rfl
    have hlive : (s.timerDisarm t).live = s.live := by
      simp [timerDisarm, ha, setActive]
    have hmem : ∀ u, u ∈ (s.timerDisarm t).heap.data ↔ u ∈ s.heap.data ∧ u ≠ t := by
      intro u
      rw [hheap]
      exact MinHeap.mem_remove hs.nodup
    have hdue' : (s.timerDisarm t).due = s.due := by
      rw [← hdue]
      simp only [timerDisarm, ha, if_true]
      rfl
    refine ⟨⟨?_, ?_, ?_, ?_⟩, hmem, hrest, hself, hlive⟩
    · have hstep := hs.holds.step (TimerHeap.Step.remove t)
      rw [hheap, hdue']
      exact ⟨hstep.ordered, hstep.cap, rfl⟩
    · rw [hheap]
      exact MinHeap.nodup_remove hs.nodup
    · intro u hu
      rw [hrest u ((hmem u).mp hu).2]
      exact hs.active u ((hmem u).mp hu).1
    · intro u hu
      rw [hlive]
      exact hs.live u ((hmem u).mp hu).1

/-- What a canceled timer leaves behind. -/
lemma timerCancel_spec (hs : s.Sound) (t : T) :
    (s.timerCancel t).Sound ∧ (∀ u, u ∈ (s.timerCancel t).heap.data ↔ u ∈ s.heap.data ∧ u ≠ t) ∧
      (∀ u, u ≠ t → (s.timerCancel t).timer u = s.timer u) ∧
      (s.timerCancel t).timer t = { s.timer t with active := false } ∧
      ∀ u, u ≠ t → (s.timerCancel t).live u = s.live u := by
  obtain ⟨hsound, hmem, hrest, hself, hlive⟩ := timerDisarm_spec hs t
  simp only [timerCancel]
  split
  · refine ⟨hsound.write (t := t) (fun ht => ((hmem t).mp ht).2 rfl) rfl (fun _ _ => rfl) ?_, hmem, hrest, hself, ?_⟩
    · intro u hu
      exact Function.update_of_ne hu _ _
    · intro u hu
      rw [← hlive]
      exact Function.update_of_ne hu _ _
  · exact ⟨hsound, hmem, hrest, hself, fun u _ => congrFun hlive u⟩

lemma timerCancel_live (hs : s.Sound) (hheap : (s.timer t).heapAllocated = true) : (s.timerCancel t).live t = false := by
  obtain ⟨-, -, -, hself, -⟩ := timerDisarm_spec hs t
  have hheap' : ((s.timerDisarm t).timer t).heapAllocated = true := by
    rw [hself]
    exact hheap
  simp [timerCancel, hheap']

/-- What arming timer `t` does: `r.1` says whether it is in the heap now. -/
structure Armed (s : Store T κ) (t : T) (r : Bool × Store T κ) : Prop where
  sound : r.2.Sound
  rest : ∀ u, u ≠ t → r.2.timer u = s.timer u
  live : ∀ u, u ≠ t → r.2.live u = s.live u
  heap : ∀ u, u ∈ r.2.heap.data ↔ u ∈ s.heap.data ∨ (r.1 = true ∧ u = t)
  off : r.1 = false → r.2.timer t = s.timer t ∨ (r.2.timer t).active = false

lemma timerArm_spec (hs : s.Sound) (ht : t ∉ s.heap.data) (hlive : s.live t = true) :
    Armed s t (s.timerArm t mem) ∧ (s.timerArm t mem).2.due t = s.due t := by
  have hs₁ : (s.setActive t true).Sound :=
    hs.write ht rfl (fun u hu => modify_of_ne _ hu) fun _ _ => rfl
  have hdue : (s.setActive t true).due t = s.due t := by simp [due, setActive]
  unfold timerArm
  cases hp : (s.setActive t true).heap.push (s.setActive t true).due t mem with
  | mk ok heap =>
    cases ok with
    | true =>
      obtain ⟨hsound, hmem⟩ := hs₁.push ht hp (by simp [setActive]) hlive
      simp only [hp]
      refine ⟨⟨hsound, ?_, fun _ _ => rfl, ?_, fun h => by cases h⟩, hdue⟩
      · intro u hu
        simp [setActive, hu]
      · intro u
        simp only [true_and]
        exact hmem u
    | false =>
      have hheap : heap = s.heap := by
        have := @TimerHeap.push_failed _ (s.setActive t true).due (s.setActive t true).heap t mem
          (by rw [hp])
        rwa [hp] at this
      subst hheap
      have hs₂ : (({ s.setActive t true with heap := s.heap } : Store T κ).setActive t false).Sound :=
        hs₁.write ht rfl (fun u hu => modify_of_ne _ hu) fun _ _ => rfl
      simp only [hp]
      refine ⟨⟨hs₂, ?_, fun _ _ => rfl, ?_, fun _ => Or.inr (by simp [setActive])⟩, by simp [due, setActive]⟩
      · intro u hu
        simp [setActive, hu]
      · intro u
        simp only [Bool.false_eq_true, false_and, or_false]
        exact Iff.rfl

/-- What a new timer changes, made or not. -/
lemma timerCreate_spec {clock : ℕ} {ms : ℤ} {repeats : Bool} {cb : κ} (hs : s.Sound) (hfree : s.live t = false) :
    Armed s t (s.timerCreate t clock ms repeats cb mem) ∧
      ((s.timerCreate t clock ms repeats cb mem).1 = true →
        (s.timerCreate t clock ms repeats cb mem).2.due t = (clock + ms.toNat * 1000000) % 2 ^ 64) := by
  have hnot : t ∉ s.heap.data := by
    intro ht
    rw [hs.live t ht] at hfree
    cases hfree
  by_cases hms : ms ≤ 0
  · have heq : s.timerCreate t clock ms repeats cb mem = (false, s) := dif_pos hms
    rw [heq]
    refine ⟨⟨hs, fun _ _ => rfl, fun _ _ => rfl, ?_, fun _ => Or.inl rfl⟩, fun h => by simp at h⟩
    simp
  · simp only [timerCreate, dif_neg hms]
    generalize hw : ({ s with timer := _, live := _ } : Store T κ) = s₁
    have hrest : ∀ u, u ≠ t → s₁.timer u = s.timer u := by
      intro u hu
      rw [← hw]
      exact Function.update_of_ne hu _ _
    have hlive : ∀ u, u ≠ t → s₁.live u = s.live u := by
      intro u hu
      rw [← hw]
      exact Function.update_of_ne hu _ _
    have hheap : s₁.heap = s.heap := by rw [← hw]
    have hdue : s₁.due t = (clock + ms.toNat * 1000000) % 2 ^ 64 := by
      rw [← hw]
      simp [due]
    have hs₁ : s₁.Sound := hs.write hnot hheap hrest hlive
    obtain ⟨harm, hdue₁⟩ := @timerArm_spec _ _ _ _ _ mem hs₁ (by rwa [hheap])
      (by rw [← hw]; exact Function.update_self _ _ _)
    cases hr : s₁.timerArm t mem with
    | mk ok s₂ =>
      rw [hr] at harm hdue₁
      cases ok with
      | true =>
        refine ⟨⟨harm.sound, ?_, ?_, ?_, fun h => by cases h⟩, fun _ => hdue₁.trans hdue⟩
        · intro u hu
          exact (harm.rest u hu).trans (hrest u hu)
        · intro u hu
          exact (harm.live u hu).trans (hlive u hu)
        · intro u
          rw [harm.heap u, hheap]
      | false =>
        have hnot₂ : t ∉ s₂.heap.data := by
          intro ht
          have := (harm.heap t).mp ht
          rw [hheap] at this
          simp [hnot] at this
        have hoff : (s₂.timer t).active = false := by
          rcases harm.off rfl with heq | hoff
          · rw [heq, ← hw]
            simp
          · exact hoff
        refine ⟨⟨harm.sound.write hnot₂ rfl (fun _ _ => rfl) fun u hu => Function.update_of_ne hu _ _, ?_, ?_, ?_,
          fun _ => Or.inr hoff⟩, fun h => by simp at h⟩
        · intro u hu
          exact (harm.rest u hu).trans (hrest u hu)
        · intro u hu
          exact ((Function.update_of_ne hu _ _).trans (harm.live u hu)).trans (hlive u hu)
        · intro u
          rw [← hheap]
          exact harm.heap u

end Store

end Suspenders.Sched
