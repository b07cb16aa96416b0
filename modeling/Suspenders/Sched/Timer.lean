import Suspenders.Lib.MinHeap
import Suspenders.Sched.Inv

/-!
# Timers

The runtime with a clock.  A blocking call with a deadline has a timer on its stack, and a coroutine has one
in its control block for `suspenders_deadline`; with the timers of the user they share the heap of the worker.
A worker takes expired timers from its heap between two coroutines and calls their callbacks.

`Timers` is what belongs to the timers, `TStep` a step of the runtime together with what it does to them.  A
call is named by its number, so that the timers on the stacks of two calls of a coroutine are not the same.
The timers of I/O calls are not in the model, and what the callback of a user's timer does is left open.
-/

namespace Suspenders.Sched

open Lib Wait

/-- A timer (`suspenders_timer_t *`). -/
inductive TimerId
  /-- The timer on the stack of the `k`-th call of coroutine `c`. -/
  | call (c : CrId) (k : ℕ)
  /-- `deadline_timer` of coroutine `c`. -/
  | deadline (c : CrId)
  /-- A timer made by `suspenders_timer_create`. -/
  | user (i : ℕ)
  deriving DecidableEq

/-- `cb` and `arg` of a timer. -/
inductive Callback
  /-- `s_wait_deadline_cb` -/
  | wait (c : CrId)
  /-- `s_sleep_cb` -/
  | sleep (c : CrId)
  /-- `s_deadline_cb` -/
  | deadline (c : CrId)
  /-- A function of the user. -/
  | user
  deriving DecidableEq

/-- `suspenders_timer_t` -/
structure Timer where
  /-- `deadline_ns` -/
  due : ℕ
  active : Bool
  cb : Callback

/-- The clock, the timers, and what the calls know of them. -/
structure Timers where
  /-- `suspenders_now_ns` -/
  now : ℕ
  /-- `suspenders_timer_heap` of each worker -/
  heap : WorkerId → List TimerId
  timer : TimerId → Timer
  /-- `deadline_armed` -/
  deadlineArmed : CrId → Bool
  /-- How many calls each coroutine has made. -/
  calls : CrId → ℕ
  /-- The `deadline_ns` that was passed to its last call. -/
  arg : CrId → ℕ
  /-- Whether that is an I/O call. -/
  inIo : CrId → Bool
  /-- Whether it has got to the place where it arms its timer. -/
  begun : CrId → Bool
  /-- Its local variable `armed`. -/
  armed : CrId → Bool
  /-- The timer each worker has taken from its heap last. -/
  fired : WorkerId → Option TimerId

/-- The calls that have a `deadline_ns`, apart from I/O. -/
def Api.timed : Api → Bool
  | .op (.send _ _ tryOnly) | .op (.recv _ tryOnly) => !tryOnly
  | .op (.lock _) | .op (.rdlock _) | .op (.wrlock _) | .op (.wgWait _) => true
  | .condWait _ _ | .sleep | .select _ => true
  | _ => false

/-- The I/O calls. -/
def Api.isIo : Api → Bool
  | .io _ | .iou => true
  | _ => false

namespace Timers

/-- Time zero, no timer. -/
def init : Timers where
  now := 0
  heap := fun _ => []
  timer := fun _ => ⟨0, false, .user⟩
  deadlineArmed := fun _ => false
  calls := fun _ => 0
  arg := fun _ => 0
  inIo := fun _ => false
  begun := fun _ => false
  armed := fun _ => false
  fired := fun _ => none

variable (m : Timers) (w : WorkerId) (c : CrId)

/-- `deadline_ns` of a timer. -/
def due (t : TimerId) : ℕ := (m.timer t).due

/-- `s_timer_arm` on worker `w` of a timer that has been filled in; `ok` says whether there is memory for a
bigger heap. -/
def timerArm (t : TimerId) (due : ℕ) (cb : Callback) (ok : Bool) : Timers :=
  let timer := Function.update m.timer t ⟨due, ok, cb⟩
  { m with
    timer := timer
    heap := if ok then Function.update m.heap w (MinHeap.push (fun x => (timer x).due) (m.heap w) t)
      else m.heap }

/-- `s_timer_disarm` on worker `w` -/
def timerDisarm (t : TimerId) : Timers :=
  { m with
    timer := Function.update m.timer t { m.timer t with active := false }
    heap := if (m.timer t).active then Function.update m.heap w (MinHeap.remove m.due (m.heap w) t)
      else m.heap }

/-- One round of `suspenders_timer_fire_expired` on worker `w`, up to the call of the callback. -/
def fireExpired : Option (TimerId × Timers) :=
  match MinHeap.pop m.due (m.heap w) with
  | none => none
  | some (t, l) =>
    if m.due t ≤ m.now then
      some (t, { m with
        timer := Function.update m.timer t { m.timer t with active := false }
        heap := Function.update m.heap w l
        fired := Function.update m.fired w (some t) })
    else none

/-- Coroutine `c` makes a call with deadline `deadline`. -/
def newCall (api : Api) (deadline : ℕ) : Timers :=
  { m with
    calls := Function.update m.calls c (m.calls c + 1)
    arg := Function.update m.arg c deadline
    inIo := Function.update m.inIo c (Api.isIo api)
    begun := Function.update m.begun c false
    armed := Function.update m.armed c false }

/-- The call of coroutine `c` arms its timer, if it has a deadline: at the head of `s_wait_block_dl`, in
`suspenders_sleep_dl` and in `suspenders_select_dl`. -/
def beginWait (cb : Callback) (ok : Bool) : Timers :=
  let m' := { m with begun := Function.update m.begun c true }
  if m.arg c = 0 then m'
  else
    { m'.timerArm w (.call c (m.calls c)) (m.arg c) cb ok with armed := Function.update m.armed c ok }

/-- The wait of coroutine `c` is over: `if (armed) s_timer_disarm(&t)`. -/
def endWait : Timers := if m.armed c then m.timerDisarm w (.call c (m.calls c)) else m

/-- What `suspenders_deadline` and `suspenders_cr_exit` do first. -/
def clearDeadline : Timers :=
  if m.deadlineArmed c then
    { m.timerDisarm w (.deadline c) with deadlineArmed := Function.update m.deadlineArmed c false }
  else m

/-- `suspenders_deadline` -/
def setDeadline (deadline : ℕ) (ok : Bool) : Timers :=
  let m' := m.clearDeadline w c
  if deadline = 0 then m'
  else { m'.timerArm w (.deadline c) deadline (.deadline c) ok with
    deadlineArmed := Function.update m'.deadlineArmed c ok }

/-- The deadline of coroutine `c` has passed. -/
def Expired : Prop := m.deadlineArmed c = true ∧ m.due (.deadline c) ≤ m.now

/-- The clock has reached the deadline that was passed to the call of `c`, or the one it has set. -/
def Due : Prop := (m.arg c ≠ 0 ∧ m.arg c ≤ m.now) ∨ m.Expired c

/-- What action `act` of coroutine `c`, which is at `pc` on worker `w`, does to the timers. -/
def act (act : Act) (pc : Pc) (deadline : ℕ) (ok : Bool) : Timers :=
  match act with
  | .call api => m.newCall c api deadline
  | .test =>
    match pc with
    -- `s_wait_block_dl` arms its timer before the first test; the relock of a condition has none
    | .blk k _ =>
      if k.isRelock = false ∧ k ≠ .sleep ∧ m.begun c = false then m.beginWait w c (.wait c) ok else m
    | _ => m
  | .sleepPark => m.beginWait w c (.sleep c) ok
  | .selInit => m.beginWait w c (.wait c) ok
  | .decided k _ => if k.isRelock then m else m.endWait w c
  | .tau =>
    match pc with
    -- a select disarms its timer behind its loop; it may still fire while the select waits for its decider
    | .selSync _ _ _ => m.endWait w c
    | _ => m
  | _ => m

/-- What an event of the runtime does to the timers. -/
def after (r : Runtime) (e : Ev) (deadline : ℕ) (ok : Bool) : Timers :=
  match e with
  | .core ⟨.co c, act⟩ =>
    match r.pin c with
    | some w => m.act w c act (r.core.pc (.co c)) deadline ok
    | none => m
  | .exit c =>
    match r.pin c with
    | some w => m.clearDeadline w c
    | none => m
  | _ => m

/-- When the clock and the timers let an event happen by itself.  Callbacks of timers do not. -/
def Allows (r : Runtime) (e : Ev) (r' : Runtime) (deadline : ℕ) (ok : Bool) : Prop :=
  match e with
  | .core ⟨.co c, act⟩ =>
    match act with
    | .call api => Api.timed api = false → deadline = 0
    | .preExpired => m.Expired c
    | .preGo => ¬ m.Expired c
    | .sleepPark => m.now < m.arg c ∧ ok = true
    | .tau =>
      r.core.pc (.co c) = .sleep →
        (r'.core.pc (.co c) = .ret .ok → m.arg c ≤ m.now) ∧
        (r'.core.pc (.co c) = .ret .nomem → m.now < m.arg c)
    | _ => True
  | .core ⟨.sched w, .waker⟩ => r.core.pc (.sched w) ≠ .idle
  | .core ⟨.sched _, .sleepFire _⟩ => False
  | .deadlineOp _ _ => False
  | _ => True

end Timers

/-- Event `e` is how the runtime starts callback `cb` on worker `w`. -/
def Callback.Starts (w : WorkerId) (e : Ev) (r' : Runtime) : Callback → Prop
  | wait c => e = .core ⟨.sched w, .waker⟩ ∧ r'.core.pc (.sched w) = .wakeTest .timer c
  | sleep c => e = .core ⟨.sched w, .sleepFire c⟩
  | deadline c =>
    e = .deadlineOp w c ∨ (e = .core ⟨.sched w, .waker⟩ ∧ r'.core.pc (.sched w) = .wakeTest .deadline c)
  | user => False

/-- The callback has nothing to do for the runtime. -/
def Callback.Idle (r : Runtime) : Callback → Prop
  | sleep c => (r.core.heap.waits.node (.wq c)).status ≠ .waiting
  | user => True
  | _ => False

/-- What happens. -/
inductive TEv
  /-- A step of the runtime. -/
  | run (e : Ev)
  /-- Worker `w` takes timer `t` from its heap and calls its callback. -/
  | fire (w : WorkerId) (t : TimerId)
  /-- Time passes. -/
  | tick
  /-- `suspenders_deadline` -/
  | deadline (c : CrId)
  /-- A timer of the user is made, or canceled. -/
  | user (w : WorkerId) (i : ℕ)

/-- One step of the runtime with its timers. -/
inductive TStep : Runtime × Timers → TEv → Runtime × Timers → Prop
  | run {r r' : Runtime} {m : Timers} {e : Ev} (deadline : ℕ) (ok : Bool) :
      RStep r e r' → m.Allows r e r' deadline ok → TStep (r, m) (.run e) (r', m.after r e deadline ok)
  | fire {r r' : Runtime} {m m' : Timers} {w : WorkerId} {t : TimerId} {e : Ev} :
      r.AtLoop w .top → m.fireExpired w = some (t, m') → (m.timer t).cb.Starts w e r' → RStep r e r' →
      TStep (r, m) (.fire w t) (r', m')
  | fireIdle {r : Runtime} {m m' : Timers} {w : WorkerId} {t : TimerId} :
      r.AtLoop w .top → m.fireExpired w = some (t, m') → (m.timer t).cb.Idle r →
      TStep (r, m) (.fire w t) (r, m')
  -- a timer that repeats is armed again before its callback is called
  | fireRepeat {r : Runtime} {m m' : Timers} {w : WorkerId} {i : ℕ} (period : ℕ) (ok : Bool) :
      r.AtLoop w .top → m.fireExpired w = some (.user i, m') →
      TStep (r, m) (.fire w (.user i)) (r, m'.timerArm w (.user i) (m.now + period) .user ok)
  | tick {r : Runtime} {m : Timers} (n : ℕ) : TStep (r, m) .tick (r, { m with now := m.now + n })
  | deadline {r : Runtime} {m : Timers} {c : CrId} {w : WorkerId} (deadline : ℕ) (ok : Bool) :
      r.pin c = some w → r.run w = some c → r.core.pc (.co c) = .idle → r.core.work (.co c) = [] →
      TStep (r, m) (.deadline c) (r, m.setDeadline w c deadline ok)
  | userArm {r : Runtime} {m : Timers} {w : WorkerId} {i : ℕ} (due : ℕ) (ok : Bool) :
      (m.timer (.user i)).active = false →
      TStep (r, m) (.user w i) (r, m.timerArm w (.user i) due .user ok)
  | userCancel {r : Runtime} {m : Timers} {w : WorkerId} {i : ℕ} :
      (∀ v, .user i ∈ m.heap v → v = w) → TStep (r, m) (.user w i) (r, m.timerDisarm w (.user i))

/-! ## What the operations do to the heaps -/

/-- The heaps and the timers agree. -/
structure HeapOk (m : Timers) : Prop where
  nodup : ∀ w, (m.heap w).Nodup
  /-- A timer is in one heap at most. -/
  apart : ∀ v w t, t ∈ m.heap v → t ∈ m.heap w → v = w
  active : ∀ w t, t ∈ m.heap w → (m.timer t).active = true
  user : ∀ w i, .user i ∈ m.heap w → (m.timer (.user i)).cb = .user

section Heaps

variable {m m' : Timers} {w v : WorkerId} {t x : TimerId} {cb : Callback} {ok : Bool} {due : ℕ}

lemma mem_timerArm : x ∈ (m.timerArm w t due cb ok).heap v ↔ x ∈ m.heap v ∨ (ok = true ∧ v = w ∧ x = t) := by
  cases ok with
  | false => simp [Timers.timerArm]
  | true =>
    by_cases hv : v = w
    · subst hv
      simp [Timers.timerArm, MinHeap.mem_push, or_comm]
    · simp [Timers.timerArm, hv]

lemma timerArm_of_ne (hx : x ≠ t) : (m.timerArm w t due cb ok).timer x = m.timer x :=
  Function.update_of_ne hx _ _

lemma timerArm_self : (m.timerArm w t due cb ok).timer t = ⟨due, ok, cb⟩ := Function.update_self _ _ _

lemma timerDisarm_of_ne (hx : x ≠ t) : (m.timerDisarm w t).timer x = m.timer x :=
  Function.update_of_ne hx _ _

/-- A timer that is in no heap is armed. -/
lemma HeapOk.timerArm (h : HeapOk m) (ht : ∀ v, t ∉ m.heap v) (hcb : ∀ i, t = .user i → cb = .user) :
    HeapOk (m.timerArm w t due cb ok) where
  nodup v := by
    cases ok with
    | false => exact h.nodup v
    | true =>
      by_cases hv : v = w
      · subst hv
        simpa [Timers.timerArm] using MinHeap.nodup_push (h.nodup v) (ht v)
      · simpa [Timers.timerArm, hv] using h.nodup v
  apart v v' x hx hx' := by
    rcases mem_timerArm.mp hx with hold | ⟨-, rfl, rfl⟩
    · rcases mem_timerArm.mp hx' with hold' | ⟨-, rfl, rfl⟩
      · exact h.apart v v' x hold hold'
      · exact absurd hold (ht v)
    · rcases mem_timerArm.mp hx' with hold' | ⟨-, rfl, -⟩
      · exact absurd hold' (ht v')
      · rfl
  active v x hx := by
    rcases mem_timerArm.mp hx with hold | ⟨hok, -, rfl⟩
    · have hne : x ≠ t := by
        rintro rfl
        exact ht v hold
      rw [timerArm_of_ne hne]
      exact h.active v x hold
    · rw [timerArm_self]
      exact hok
  user v i hx := by
    rcases mem_timerArm.mp hx with hold | ⟨-, -, rfl⟩
    · have hne : .user i ≠ t := by
        rintro rfl
        exact ht v hold
      rw [timerArm_of_ne hne]
      exact h.user v i hold
    · rw [timerArm_self]
      exact hcb i rfl

/-- A disarm on the right worker takes the timer out, whether it was in or not. -/
lemma mem_timerDisarm (h : HeapOk m) (hw : ∀ v, t ∈ m.heap v → v = w) :
    x ∈ (m.timerDisarm w t).heap v ↔ x ∈ m.heap v ∧ x ≠ t := by
  cases hact : (m.timer t).active with
  | false =>
    have ht : t ∉ m.heap v := by
      intro ht
      rw [h.active v t ht] at hact
      cases hact
    simp only [Timers.timerDisarm, hact, Bool.false_eq_true, if_false]
    exact ⟨fun hx => ⟨hx, fun heq => ht (heq ▸ hx)⟩, And.left⟩
  | true =>
    simp only [Timers.timerDisarm, hact, if_true]
    by_cases hv : v = w
    · subst hv
      rw [Function.update_self, MinHeap.mem_remove (h.nodup v)]
    · rw [Function.update_of_ne hv]
      exact ⟨fun hx => ⟨hx, fun heq => hv (hw v (heq ▸ hx))⟩, And.left⟩

/-- Whatever takes timer `t` out of the heaps keeps them in order. -/
lemma HeapOk.shrink (h : HeapOk m) (hnodup : ∀ v, (m'.heap v).Nodup)
    (hmem : ∀ v x, x ∈ m'.heap v → x ∈ m.heap v ∧ x ≠ t) (htimer : ∀ x, x ≠ t → m'.timer x = m.timer x) :
    HeapOk m' where
  nodup := hnodup
  apart v v' x hx hx' := h.apart v v' x (hmem v x hx).1 (hmem v' x hx').1
  active v x hx := by
    rw [htimer x (hmem v x hx).2]
    exact h.active v x (hmem v x hx).1
  user v i hx := by
    rw [htimer _ (hmem v _ hx).2]
    exact h.user v i (hmem v _ hx).1

lemma HeapOk.timerDisarm (h : HeapOk m) (hw : ∀ v, t ∈ m.heap v → v = w) : HeapOk (m.timerDisarm w t) := by
  refine h.shrink (t := t) ?_ (fun v x hx => (mem_timerDisarm h hw).mp hx) (fun x hx => timerDisarm_of_ne hx)
  intro v
  simp only [Timers.timerDisarm]
  split
  · by_cases hv : v = w
    · subst hv
      rw [Function.update_self]
      exact MinHeap.nodup_remove (h.nodup v)
    · rw [Function.update_of_ne hv]
      exact h.nodup v
  · exact h.nodup v

/-- What taking a timer from the heap of worker `w` does. -/
structure Fired (m : Timers) (w : WorkerId) (t : TimerId) (m' : Timers) : Prop where
  mem : t ∈ m.heap w
  due : m.due t ≤ m.now
  heap : ∀ v x, x ∈ m'.heap v ↔ x ∈ m.heap v ∧ x ≠ t
  ok : HeapOk m'
  rest : ∃ timer heap, m' = { m with timer := timer, heap := heap, fired := Function.update m.fired w (some t) }
  timer : ∀ x, x ≠ t → m'.timer x = m.timer x
  dues : ∀ x, m'.due x = m.due x

lemma fireExpired_spec (h : HeapOk m) (hf : m.fireExpired w = some (t, m')) : Fired m w t m' := by
  unfold Timers.fireExpired at hf
  split at hf
  · cases hf
  · rename_i y l hpop
    split at hf
    · rename_i hdue
      simp only [Option.some.injEq, Prod.mk.injEq] at hf
      obtain ⟨rfl, rfl⟩ := hf
      have hperm := MinHeap.pop_eq_some hpop
      have hmem : y ∈ m.heap w := hperm.mem_iff.mpr List.mem_cons_self
      have hnodup := List.nodup_cons.mp (hperm.nodup_iff.mp (h.nodup w))
      have hheap : ∀ v x, x ∈ Function.update m.heap w l v ↔ x ∈ m.heap v ∧ x ≠ y := by
        intro v x
        by_cases hv : v = w
        · subst hv
          rw [Function.update_self, hperm.mem_iff, List.mem_cons]
          constructor
          · intro hx
            refine ⟨Or.inr hx, ?_⟩
            rintro rfl
            exact hnodup.1 hx
          · rintro ⟨rfl | hx, hne⟩
            · exact absurd rfl hne
            · exact hx
        · rw [Function.update_of_ne hv]
          exact ⟨fun hx => ⟨hx, fun heq => hv (h.apart v w y (heq ▸ hx) hmem)⟩, And.left⟩
      have htimer : ∀ x, x ≠ y →
          Function.update m.timer y { m.timer y with active := false } x = m.timer x := by
        intro x hx
        exact Function.update_of_ne hx _ _
      refine ⟨hmem, hdue, hheap, ?_, ⟨_, _, rfl⟩, htimer, ?_⟩
      swap
      · intro x
        by_cases hx : x = y
        · subst hx
          simp [Timers.due]
        · simp [Timers.due, hx]
      refine h.shrink (t := y) ?_ (fun v x hx => (hheap v x).mp hx) htimer
      intro v
      by_cases hv : v = w
      · subst hv
        simpa using hnodup.2
      · simpa [hv] using h.nodup v
    · cases hf

end Heaps

end Suspenders.Sched
