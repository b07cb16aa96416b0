import Suspenders.Lib.Run
import Suspenders.Sched.TimerStore

/-!
# Timers of several workers

Each worker has a heap of its own, and `suspenders_timer_create` and `suspenders_timer_cancel` work on the heap
of the worker they are called on.  The expiry pass of a worker takes a timer from its heap, settles it and calls
its callback; steps of the other workers may come in between.

A timer is freed by its cancellation.  If that is made on another worker than the one that made the timer, the
timer may still be in the heap of that worker, or its callback may be about to be called there; otherwise it is
gone for good.  The timers on the stacks of calls are armed and disarmed on one worker, and they are left out.
-/

namespace Suspenders.Sched

open Lib

variable {W T κ : Type*}

/-- Where the expiry pass of a worker stands. -/
inductive Stage (T : Type*)
  /-- Between two timers, in a callback, or not in a pass. -/
  | idle
  /-- Timer `t` has been taken from the heap by a pass that has read the clock at `now`. -/
  | taken (t : T) (now : ℕ)
  /-- The callback of timer `t` is going to be called. -/
  | settled (t : T)

/-- The timer that a pass has taken. -/
def Stage.timer : Stage T → Option T
  | idle => none
  | taken t _ | settled t => some t

/-- The timers of all workers. -/
structure Workers (W T κ : Type*) where
  /-- `suspenders_timer_heap`, which is thread-local -/
  heap : W → TimerHeap T
  timer : T → TimerRec κ
  live : T → Bool
  stage : W → Stage T
  /-- `suspenders_now_ns` -/
  clock : ℕ

namespace Workers

/-- What worker `w` works on. -/
def on (s : Workers W T κ) (w : W) : Store T κ := ⟨s.heap w, s.timer, s.live⟩

variable [DecidableEq W]

/-- Worker `w` has changed its heap and the timers. -/
def put (s : Workers W T κ) (w : W) (store : Store T κ) (stage : Stage T) : Workers W T κ :=
  { s with
    heap := Function.update s.heap w store.heap
    timer := store.timer
    live := store.live
    stage := Function.update s.stage w stage }

/-- No worker has a timer. -/
def init (timer : T → TimerRec κ) : Workers W T κ where
  heap := fun _ => .empty
  timer := timer
  live := fun _ => false
  stage := fun _ => .idle
  clock := 0

/-- What a worker does. -/
inductive Event (W T : Type*)
  | tick
  /-- `suspenders_timer_create`, which gets the memory at `t` -/
  | create (w : W) (t : T)
  /-- `suspenders_timer_cancel` -/
  | cancel (w : W) (t : T)
  /-- The pass takes the first timer from the heap. -/
  | take (w : W)
  | settle (w : W)
  /-- The callback of timer `t` is called. -/
  | call (w : W) (t : T)

/-- One step.  A timer is canceled once, as long as it exists. -/
inductive Step [DecidableEq T] : Workers W T κ → Event W T → Workers W T κ → Prop
  | tick {s : Workers W T κ} (n : ℕ) : Step s .tick { s with clock := s.clock + n }
  | create {s : Workers W T κ} {w : W} {t : T} (ms : ℤ) (repeats : Bool) (cb : κ) (mem : Bool) :
      s.stage w = .idle → s.live t = false →
      Step s (.create w t) (s.put w ((s.on w).timerCreate t s.clock ms repeats cb mem).2 .idle)
  | cancel {s : Workers W T κ} {w : W} {t : T} :
      s.stage w = .idle → s.live t = true → (s.timer t).heapAllocated = true →
      Step s (.cancel w t) (s.put w ((s.on w).timerCancel t) .idle)
  | take {s : Workers W T κ} {w : W} {t : T} {heap : TimerHeap T} (now : ℕ) :
      s.stage w = .idle → now ≤ s.clock → (s.heap w).pop (s.on w).due = (some t, heap) → (s.on w).due t ≤ now →
      Step s (.take w) (s.put w { s.on w with heap := heap } (.taken t now))
  | settle {s : Workers W T κ} {w : W} {t : T} {now : ℕ} (mem : Bool) :
      s.stage w = .taken t now →
      Step s (.settle w) (s.put w ((s.on w).settle t now mem).2 (.settled t))
  | call {s : Workers W T κ} {w : W} {t : T} :
      s.stage w = .settled t → Step s (.call w t) (s.put w (s.on w) .idle)

/-- No other worker than `w` has timer `t` in its heap, or has taken it and not called its callback yet. -/
def Own (s : Workers W T κ) (w : W) (t : T) : Prop :=
  ∀ v, v ≠ w → t ∉ (s.heap v).data ∧ (s.stage v).timer ≠ some t

/-- A worker cancels its own timers only. -/
def OwnCancel (s : Workers W T κ) (e : Event W T) (_ : Workers W T κ) : Prop :=
  ∀ w t, e = .cancel w t → s.Own w t

/-- The heaps and the passes of the workers do not share timers, and all that they have exist. -/
structure Apart (s : Workers W T κ) : Prop where
  sound : ∀ w, (s.on w).Sound
  heaps : ∀ v w t, t ∈ (s.heap v).data → t ∈ (s.heap w).data → v = w
  stage : ∀ w t, (s.stage w).timer = some t → s.live t = true ∧ s.Own w t
  taken : ∀ w t now, s.stage w = .taken t now → t ∉ (s.heap w).data ∧ (s.timer t).active = true

section Steps

variable {s s' : Workers W T κ} {w : W} {t : T} {store : Store T κ} {stage : Stage T}

@[simp] lemma put_heap_self : (s.put w store stage).heap w = store.heap := Function.update_self _ _ _

@[simp] lemma put_heap_of_ne {v : W} (hv : v ≠ w) : (s.put w store stage).heap v = s.heap v :=
  Function.update_of_ne hv _ _

@[simp] lemma put_stage_self : (s.put w store stage).stage w = stage := Function.update_self _ _ _

@[simp] lemma put_stage_of_ne {v : W} (hv : v ≠ w) : (s.put w store stage).stage v = s.stage v :=
  Function.update_of_ne hv _ _

@[simp] lemma put_timer : (s.put w store stage).timer = store.timer := rfl

@[simp] lemma put_live : (s.put w store stage).live = store.live := rfl

lemma put_on_self : (s.put w store stage).on w = store := by
  simp [on]

/-- Worker `w` does something to timer `t`, which no other worker has. -/
lemma Apart.put (h : s.Apart) (hown : s.Own w t) (hsound : store.Sound)
    (hmem : ∀ u ∈ store.heap.data, u ∈ (s.heap w).data ∨ u = t)
    (htimer : ∀ u, u ≠ t → store.timer u = s.timer u) (hlive : ∀ u, u ≠ t → store.live u = s.live u)
    (hstage : ∀ u, stage.timer = some u → u = t ∧ store.live t = true)
    (htaken : ∀ u now, stage = .taken u now → u ∉ store.heap.data ∧ (store.timer u).active = true) :
    (s.put w store stage).Apart := by
  have hothers : ∀ v, v ≠ w → ∀ u, u ∈ (s.heap v).data ∨ (s.stage v).timer = some u → u ≠ t := by
    rintro v hv u hu rfl
    rcases hu with hu | hu
    · exact (hown v hv).1 hu
    · exact (hown v hv).2 hu
  constructor
  · intro v
    by_cases hv : v = w
    · subst hv
      rwa [put_on_self]
    · exact (h.sound v).write (t := t) (hown v hv).1 (@put_heap_of_ne _ _ _ _ _ _ _ stage _ hv) htimer hlive
  · intro v v' u hu hu'
    by_cases hv : v = w
    · by_cases hv' : v' = w
      · exact hv.trans hv'.symm
      · subst hv
        rw [put_heap_self] at hu
        rw [put_heap_of_ne hv'] at hu'
        rcases hmem u hu with hin | rfl
        · exact h.heaps _ _ u hin hu'
        · exact absurd hu' (hown v' hv').1
    · rw [put_heap_of_ne hv] at hu
      by_cases hv' : v' = w
      · subst hv'
        rw [put_heap_self] at hu'
        rcases hmem u hu' with hin | rfl
        · exact h.heaps _ _ u hu hin
        · exact absurd hu (hown v hv).1
      · rw [put_heap_of_ne hv'] at hu'
        exact h.heaps v v' u hu hu'
  · intro v u hu
    by_cases hv : v = w
    · subst hv
      rw [put_stage_self] at hu
      obtain ⟨rfl, hl⟩ := hstage u hu
      refine ⟨hl, ?_⟩
      intro v' hv'
      rw [put_heap_of_ne hv', put_stage_of_ne hv']
      exact hown v' hv'
    · rw [put_stage_of_ne hv] at hu
      have hut := hothers v hv u (Or.inr hu)
      obtain ⟨hl, hno⟩ := h.stage v u hu
      refine ⟨(hlive u hut).trans hl, ?_⟩
      intro v' hv'
      by_cases hw : v' = w
      · subst hw
        rw [put_heap_self, put_stage_self]
        refine ⟨?_, ?_⟩
        · intro hin
          rcases hmem u hin with hin | heq
          · exact (hno v' hv').1 hin
          · exact hut heq
        · intro hst
          exact hut (hstage u hst).1
      · rw [put_heap_of_ne hw, put_stage_of_ne hw]
        exact hno v' hv'
  · intro v u now hst
    by_cases hv : v = w
    · subst hv
      rw [put_stage_self] at hst
      rw [put_heap_self]
      exact htaken u now hst
    · rw [put_stage_of_ne hv] at hst
      have hut := hothers v hv u (Or.inr (by rw [hst]; rfl))
      rw [put_heap_of_ne hv]
      obtain ⟨hnot, hact⟩ := h.taken v u now hst
      exact ⟨hnot, by rw [put_timer, htimer u hut]; exact hact⟩

omit [DecidableEq W] in
lemma apart_init (timer : T → TimerRec κ) : (init timer : Workers W T κ).Apart where
  sound _ := .init timer
  heaps v w t ht := by simp [init, TimerHeap.empty] at ht
  stage w t ht := by simp [init, Stage.timer] at ht
  taken w t now ht := by simp [init] at ht

omit [DecidableEq W] in
/-- A timer that does not exist is nobody's. -/
lemma Apart.own_of_free (h : s.Apart) (hfree : s.live t = false) (v : W) :
    t ∉ (s.heap v).data ∧ (s.stage v).timer ≠ some t := by
  refine ⟨?_, ?_⟩
  · intro ht
    have hl := (h.sound v).live t ht
    rw [show (s.on v).live t = s.live t from rfl, hfree] at hl
    cases hl
  · intro ht
    have hl := (h.stage v t ht).1
    rw [hfree] at hl
    cases hl

variable [DecidableEq T] {e : Event W T}

lemma Apart.step (h : s.Apart) (hstep : Step s e s') (hC : OwnCancel s e s') : s'.Apart := by
  cases hstep with
  | tick n => exact { h with }
  | @create w t ms repeats cb mem hidle hfree =>
    obtain ⟨harm, -⟩ := @Store.timerCreate_spec _ _ _ _ t mem s.clock ms repeats cb (h.sound w) hfree
    refine h.put (fun v _ => h.own_of_free hfree v) harm.sound ?_ harm.rest harm.live (by simp [Stage.timer]) (by simp)
    intro u hu
    exact ((harm.heap u).mp hu).imp_right And.right
  | @cancel w t hidle hlive _ =>
    obtain ⟨hsound, hmem, hrest, -, hlive'⟩ := Store.timerCancel_spec (h.sound w) t
    refine h.put (hC w t rfl) hsound ?_ hrest hlive' (by simp [Stage.timer]) (by simp)
    intro u hu
    exact Or.inl ((hmem u).mp hu).1
  | @take w t heap now hidle _ hp _ =>
    obtain ⟨hsound, hin, -, hheap, -⟩ := (h.sound w).pop hp
    have hown : s.Own w t := by
      intro v hv
      refine ⟨fun hin' => hv (h.heaps v w t hin' hin), ?_⟩
      intro ht
      exact ((h.stage v t ht).2 w hv.symm).1 hin
    refine h.put hown hsound ?_ (fun _ _ => rfl) (fun _ _ => rfl) ?_ ?_
    · intro u hu
      exact Or.inl ((hheap u).mp hu).1
    · intro u hu
      obtain rfl : t = u := by simpa [Stage.timer] using hu
      exact ⟨rfl, (h.sound w).live t hin⟩
    · intro u now' hu
      obtain ⟨rfl, -⟩ : t = u ∧ now = now' := by simpa using hu
      exact ⟨fun ht => ((hheap t).mp ht).2 rfl, (h.sound w).active t hin⟩
  | @settle w t now mem hst =>
    obtain ⟨hnot, hact⟩ := h.taken w t now hst
    obtain ⟨hlive, hown⟩ := h.stage w t (by rw [hst]; rfl)
    obtain ⟨hsound, hlive', hrest, hmem⟩ :=
      @Store.settle_rest _ _ _ _ _ mem now (h.sound w) hnot hact hlive
    refine h.put hown hsound hmem hrest (fun u _ => congrFun hlive' u) ?_ (by simp)
    intro u hu
    obtain rfl : t = u := by simpa [Stage.timer] using hu
    exact ⟨rfl, by rw [hlive']; exact hlive⟩
  | @call w t hst =>
    exact h.put (h.stage w t (by rw [hst]; rfl)).2 (h.sound w) (fun u hu => Or.inl hu) (fun _ _ => rfl)
      (fun _ _ => rfl) (by simp [Stage.timer]) (by simp)

/-- Memory that is free stays so until it becomes a timer again. -/
lemma Apart.stays_free (h : s.Apart) (hstep : Step s e s') (hfree : s.live t = false)
    (he : ∀ v, e ≠ .create v t) : s'.live t = false := by
  cases hstep with
  | tick n => exact hfree
  | @create w u ms repeats cb mem _ hfree' =>
    obtain ⟨harm, -⟩ := @Store.timerCreate_spec _ _ _ _ u mem s.clock ms repeats cb (h.sound w) hfree'
    have hne : t ≠ u := by
      rintro rfl
      exact he w rfl
    exact (harm.live t hne).trans hfree
  | @cancel w u _ hlive _ =>
    have hne : t ≠ u := by
      rintro rfl
      rw [hfree] at hlive
      cases hlive
    exact ((Store.timerCancel_spec (h.sound w) u).2.2.2.2 t hne).trans hfree
  | take _ _ _ _ _ => exact hfree
  | @settle w u now mem hst =>
    obtain ⟨hnot, hact⟩ := h.taken w u now hst
    obtain ⟨hlive, -⟩ := h.stage w u (by rw [hst]; rfl)
    have hlive' := (@Store.settle_rest _ _ _ _ _ mem now (h.sound w) hnot hact hlive).2.1
    exact (congrFun hlive' t).trans hfree
  | call _ => exact hfree

/-- The callback of a timer that has been freed is not called. -/
lemma Apart.not_called {v : W} {p : Workers W T κ} (h : s.Apart) (hfree : s.live t = false) :
    ¬ Step s (.call v t) p := by
  intro hstep
  cases hstep with
  | call hst => exact (h.own_of_free hfree v).2 (by rw [hst]; rfl)

/-- In a run in which workers cancel their own timers only, what has been freed is not used. -/
lemma Apart.run_free {es : List (Event W T)} (hrun : Run (Restrict Step OwnCancel) s es s') (h : s.Apart)
    (hfree : s.live t = false) (hes : ∀ v, .create v t ∉ es) :
    s'.Apart ∧ s'.live t = false ∧ ∀ v, .call v t ∉ es := by
  induction hrun with
  | nil => exact ⟨h, hfree, by simp⟩
  | @cons s e p es s' hstep _ ih =>
    have hfree' := h.stays_free hstep.1 hfree fun v heq => hes v (by simp [heq])
    obtain ⟨h', hl, hno⟩ := ih (h.step hstep.1 hstep.2) hfree' fun v hin => hes v (List.mem_cons_of_mem _ hin)
    refine ⟨h', hl, ?_⟩
    intro v hin
    rcases List.mem_cons.mp hin with rfl | hin
    · exact h.not_called hfree hstep.1
    · exact hno v hin

lemma apart_run {es : List (Event W T)} {timer : T → TimerRec κ}
    (hrun : Run (Restrict Step OwnCancel) (init timer) es s) : s.Apart :=
  hrun.invariant (I := Apart) (fun _ _ _ h hstep => h.step hstep.1 hstep.2) (apart_init timer)

end Steps

variable [DecidableEq T] {timer : T → TimerRec κ} {s₁ s₂ : Workers W T κ} {es₁ : List (Event W T)} {w : W} {t : T}

/-- The cancellation of a timer is final if, and only if, no other worker has the timer in its heap or is about to
call its callback.  If so, then no heap points to the timer afterwards and its callback is not called, whatever
the workers do with their own timers, until the memory becomes a timer again. -/
theorem cancel_is_final (h₁ : Run (Restrict Step OwnCancel) (init timer) es₁ s₁)
    (hcancel : Step s₁ (.cancel w t) s₂) :
    ((∀ v, t ∉ (s₂.heap v).data ∧ (s₂.stage v).timer ≠ some t) ↔ s₁.Own w t) ∧
    (s₁.Own w t → ∀ es₂ s₃, Run (Restrict Step OwnCancel) s₂ es₂ s₃ → (∀ v, .create v t ∉ es₂) →
      (∀ v, t ∉ (s₃.heap v).data) ∧ ∀ v, .call v t ∉ es₂) := by
  have h := apart_run h₁
  have hfree : s₂.live t = false := by
    cases hcancel with
    | cancel _ _ hheap => exact Store.timerCancel_live (h.sound w) hheap
  have hafter : s₁.Own w t → s₂.Apart := by
    intro hown
    refine h.step hcancel ?_
    intro w' t' heq
    obtain ⟨rfl, rfl⟩ : w = w' ∧ t = t' := by simpa using heq
    exact hown
  refine ⟨⟨?_, ?_⟩, ?_⟩
  · intro hgone v hv
    cases hcancel with
    | cancel _ _ _ =>
      have hv' := hgone v
      rwa [put_heap_of_ne hv, put_stage_of_ne hv] at hv'
  · intro hown v
    exact (hafter hown).own_of_free hfree v
  · intro hown es₂ s₃ hrun hes
    obtain ⟨h₃, hfree₃, hno⟩ := Apart.run_free hrun (hafter hown) hfree hes
    exact ⟨fun v => (h₃.own_of_free hfree₃ v).1, hno⟩

/-- The memory of timers that have not been made yet. -/
def blank (_ : ℕ) : TimerRec Unit := ⟨0, 0, false, false, false, (), fun h => by cases h⟩

/-- Worker 0 has made timer 7. -/
def oneTimer : Workers ℕ ℕ Unit :=
  (init blank).put 0 (((init blank).on 0).timerCreate 7 0 1 false () true).2 .idle

/-- Worker 0 cancels timer 7. -/
theorem cancel_is_final_at_home : Run (Restrict Step OwnCancel) (init blank) [.create 0 7] oneTimer ∧
    ∃ s, Step oneTimer (.cancel 0 7) s ∧ 7 ∈ (oneTimer.heap 0).data ∧ ∀ v, 7 ∉ (s.heap v).data := by
  have hrun : Run (Restrict Step OwnCancel) (init blank : Workers ℕ ℕ Unit) [.create 0 7] oneTimer :=
    .cons ⟨.create 1 false () true rfl rfl, by simp [OwnCancel]⟩ (.nil _)
  have hcancel : Step oneTimer (.cancel 0 7) (oneTimer.put 0 ((oneTimer.on 0).timerCancel 7) .idle) :=
    .cancel rfl rfl rfl
  refine ⟨hrun, _, hcancel, by decide, ?_⟩
  intro v
  refine ((cancel_is_final hrun hcancel).1.mpr ?_ v).1
  intro v hv
  rw [oneTimer, put_heap_of_ne hv, put_stage_of_ne hv]
  simp [init, TimerHeap.empty, Stage.timer]

/-- Worker 1 cancels timer 7: it stays in the heap of worker 0, which calls its callback when it expires. -/
theorem cancel_of_a_stranger : Run Step (init blank) [.create 0 7] oneTimer ∧
    ∃ s₁ s₂, Step oneTimer (.cancel 1 7) s₁ ∧ 7 ∈ (s₁.heap 0).data ∧ s₁.live 7 = false ∧
      Run Step s₁ [.tick, .take 0, .settle 0, .call 0 7] s₂ := by
  have hcancel : Step oneTimer (.cancel 1 7) (oneTimer.put 1 ((oneTimer.on 1).timerCancel 7) .idle) :=
    .cancel rfl rfl rfl
  have hrun : Run Step (oneTimer.put 1 ((oneTimer.on 1).timerCancel 7) .idle)
      [.tick, .take 0, .settle 0, .call 0 7] _ :=
    .cons (.tick 1000000) (.cons (.take 1000000 rfl (by decide) rfl (by decide))
      (.cons (.settle true rfl) (.cons (.call rfl) (.nil _))))
  exact ⟨.cons (.create 1 false () true rfl rfl) (.nil _), _, _, hcancel, by decide, by decide, hrun⟩

end Workers

end Suspenders.Sched
