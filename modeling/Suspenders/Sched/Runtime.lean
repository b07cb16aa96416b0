import Suspenders.Wait.Inv

/-!
# Workers

`Runtime` puts the contexts of the wait protocol on worker threads.  A coroutine is pinned to the worker
that first runs it, and at any time a worker executes one coroutine or its scheduler loop, so contexts of
one worker do not interleave except where a coroutine switches out.  Wakes go to the ready queue on the
target's own worker, and through the target worker's inbox from anywhere else; `wake_inflight` and
`pending_wake` are the two flags that keep an inbox wake from being lost.

A step is a step of the wait protocol by a context that may run, together with its effect on the
scheduling state (`Runtime.effect`), or an action of a scheduler loop.  The order of the ready queues is left
open: any `READY` coroutine may be next.  Parking of idle workers in the kernel and `suspenders_shutdown` are not
part of the model.
-/

namespace Suspenders.Sched

open Lib Wait

/-- `suspenders_state_t`; a coroutine that has not been spawned is `unborn`. -/
inductive Life
  | unborn
  /-- `SUSPENDERS_STATE_READY` -/
  | ready
  /-- `SUSPENDERS_STATE_RUNNING` -/
  | running
  /-- `SUSPENDERS_STATE_SUSPENDED` -/
  | suspended
  /-- `SUSPENDERS_STATE_DONE` -/
  | done
  deriving DecidableEq

/-- `io_result` as `s_io_wait_ready` reads it. -/
inductive IoResult
  /-- `0` -/
  | ready
  /-- `-1` -/
  | canceled
  /-- `-2` -/
  | timedout
  deriving DecidableEq

/-- The result of an io_uring operation. -/
inductive OpResult
  /-- A non-negative result. -/
  | ok
  /-- `-ECANCELED` -/
  | canceled
  /-- Another error. -/
  | error
  deriving DecidableEq

/-- The operation behind `pending_io`. -/
structure IoOp where
  /-- Whether `s_iou_cancel` has been called for it. -/
  asyncCancel : Bool
  /-- `result`, once `completed`. -/
  result : Option OpResult
  deriving DecidableEq

/-- Where `s_worker_loop` is. -/
inductive Loop
  /-- At its head, or in timer and I/O callbacks. -/
  | top
  /-- In `s_inbox_drain`, with these entries left; with none left, the rest of the iteration. -/
  | drain (rest : List CrId)
  /-- In `s_inbox_drain`, before `s_inbox_deliver(c)`. -/
  | deliver (c : CrId) (rest : List CrId)
  /-- Back from coroutine `c`, before the test of its `pending_wake`. -/
  | post (c : CrId)
  /-- Behind that test, before `s_inbox_deliver(c)`. -/
  | redeliver (c : CrId)
  deriving DecidableEq

/-- The coroutine `s_inbox_deliver` is called for, and where the loop goes on afterwards. -/
def Loop.delivers : Loop → Option (CrId × Loop)
  | deliver c rest => some (c, drain rest)
  | redeliver c => some (c, top)
  | _ => none

/-- The wait protocol on worker threads. -/
structure Runtime where
  /-- Structures, nodes and contexts. -/
  core : Core
  /-- `state` -/
  life : CrId → Life
  /-- `worker` -/
  pin : CrId → Option WorkerId
  /-- `wake_inflight` -/
  inflight : CrId → Bool
  /-- `pending_wake` -/
  pendingWake : CrId → Bool
  /-- `inbox`, the last entry first -/
  inbox : WorkerId → List CrId
  /-- `suspenders_running`, unless it is the scheduler's own context -/
  run : WorkerId → Option CrId
  /-- The scheduler loops. -/
  loop : WorkerId → Loop
  /-- `cancel_requested` -/
  cancelReq : CrId → Bool
  /-- `io_result` -/
  ioResult : CrId → IoResult
  /-- `pending_io` -/
  op : CrId → Option IoOp
  /-- `s_zombies` -/
  zombies : WorkerId → List CrId
  /-- The coroutines whose memory is freed. -/
  reaped : CrId → Bool
  /-- The structures their users have freed. -/
  gone : LockId → Bool

namespace Runtime

/-- Nothing has been spawned. -/
def init (cfg : Config) : Runtime where
  core := .init cfg
  life := fun _ => .unborn
  pin := fun _ => none
  inflight := fun _ => false
  pendingWake := fun _ => false
  inbox := fun _ => []
  run := fun _ => none
  loop := fun _ => .top
  cancelReq := fun _ => false
  ioResult := fun _ => .ready
  op := fun _ => none
  zombies := fun _ => []
  reaped := fun _ => false
  gone := fun _ => false

/-- `s_worker` of the thread that executes context `a`. -/
def workerOf (r : Runtime) : Ctx → Option WorkerId
  | .co c => r.pin c
  | .sched w => some w
  | .ext _ => none

/-- Context `a` is being executed. -/
def Active (r : Runtime) : Ctx → Prop
  | .co c => ∃ w, r.pin c = some w ∧ r.run w = some c
  | .sched w => r.run w = none
  | .ext _ => True

/-- The scheduler of worker `w` is between two actions. -/
def AtLoop (r : Runtime) (w : WorkerId) (l : Loop) : Prop :=
  r.run w = none ∧ r.loop w = l ∧ r.core.pc (.sched w) = .idle ∧ r.core.work (.sched w) = []

/-! ## What a step does to the scheduling state -/

/-- The state of coroutine `c` becomes `x`. -/
def setLife (r : Runtime) (c : CrId) (x : Life) : Runtime :=
  { r with life := Function.update r.life c x }

/-- `s_inbox_wake`. -/
def inboxWake (r : Runtime) (t : CrId) : Runtime :=
  match r.pin t with
  | none => r
  | some w =>
    if r.inflight t then r
    else { r with
      inflight := Function.update r.inflight t true
      inbox := Function.update r.inbox w (t :: r.inbox w) }

/-- `s_wake_no_preempt` on worker `me`; also `suspenders_resume`, whose preemption is a `yield`. -/
def wakeNoPreempt (r : Runtime) (me : Option WorkerId) (t : CrId) : Runtime :=
  if r.pin t ≠ none ∧ r.pin t ≠ me then r.inboxWake t
  else if r.life t = .suspended then r.setLife t .ready
  else r

/-- `s_iou_cancel` of the operation that coroutine `t` waits for. -/
def iouCancel (r : Runtime) (t : CrId) : Runtime :=
  { r with op := Function.update r.op t ((r.op t).map fun o => { o with asyncCancel := true }) }

/-- `cancel_requested` of coroutine `a` is cleared. -/
def clearCancel (r : Runtime) (a : Ctx) : Runtime :=
  match a with
  | .co c => { r with cancelReq := Function.update r.cancelReq c false }
  | _ => r

/-- The end of `suspenders_cancel` on worker `me` when `s_waiter_wake` has failed. -/
def cancelIo (r : Runtime) (me : Option WorkerId) (t : CrId) : Runtime :=
  if r.life t = .suspended then
    match r.op t with
    | some _ => r.iouCancel t
    | none =>
      { r with ioResult := Function.update r.ioResult t .canceled }.wakeNoPreempt me t
  else r

/-- `s_inbox_deliver` with a pending cancel when `s_waiter_wake` has failed. -/
def deliverCancel (r : Runtime) (t : CrId) : Runtime :=
  match r.op t with
  | some _ => r.iouCancel t
  | none =>
    if r.life t = .suspended then
      { r with ioResult := Function.update r.ioResult t .canceled }.setLife t .ready
    else if r.life t = .done then r
    else { r with pendingWake := Function.update r.pendingWake t true }

/-- `s_inbox_deliver` without a pending cancel. -/
def deliverWake (r : Runtime) (t : CrId) : Runtime :=
  if r.life t = .suspended then r.setLife t .ready
  else if r.life t = .done then r
  else { r with pendingWake := Function.update r.pendingWake t true }

/-- The end of `s_deadline_cb` on worker `me` when `s_waiter_wake` has failed. -/
def expireIo (r : Runtime) (me : Option WorkerId) (t : CrId) : Runtime :=
  if r.life t = .suspended then
    { r with ioResult := Function.update r.ioResult t .timedout }.wakeNoPreempt me t
  else r

/-- Coroutine `a` switches to its scheduler and is left in state `x`. -/
def switchOut (r : Runtime) (a : Ctx) (x : Life) : Runtime :=
  match a with
  | .co c =>
    match r.pin c with
    | some w => { r.setLife c x with
        run := Function.update r.run w none
        loop := Function.update r.loop w (.post c) }
    | none => r
  | _ => r

/-- The effect of an I/O action that leads from `pc` to `pc'`. -/
def ioEffect (r : Runtime) (a : Ctx) (pc pc' : Pc) : Runtime :=
  match a, pc, pc' with
  | .co c, .ioTry _, .ioSusp _ => { r with ioResult := Function.update r.ioResult c .ready }
  | .co c, .iouSubmit, _ => { r with op := Function.update r.op c (some ⟨false, none⟩) }
  | .co c, .iouDone, _ => { r with op := Function.update r.op c none }
  | _, _, _ => r

/-- The effect of an action of `suspenders_cancel` or `s_waiter_wake` at `pc`. -/
def wakerEffect (r : Runtime) (a : Ctx) : Pc → Runtime
  | .cancelPush t => r.inboxWake t
  | .wakeMiss .cancel t => r.cancelIo (r.workerOf a) t
  | .wakeMiss .deliver t => r.deliverCancel t
  | .wakeMiss .deadline t => r.expireIo (r.workerOf a) t
  | _ => r

/-- The effect of action `act` of context `a`, which leads it from `pc` to `pc'`. -/
def effect (r : Runtime) (a : Ctx) (pc : Pc) (act : Act) (pc' : Pc) : Runtime :=
  match act with
  | .suspend => r.switchOut a .suspended
  | .wake n => r.wakeNoPreempt (r.workerOf a) n.cr
  | .call (.cancel t) => { r with cancelReq := Function.update r.cancelReq t true }
  | .preCanceled => r.clearCancel a
  -- `s_wait_block` consumes the request that decided the wait, `s_mutex_lock_raw` does not
  | .decided k st => if st = .canceled ∧ k.isRelock = false then r.clearCancel a else r
  | .selFailed st => if st = .canceled then r.clearCancel a else r
  | .ioCanceled => (r.clearCancel a).ioEffect a pc pc'
  | .io => r.ioEffect a pc pc'
  | .waker => r.wakerEffect a pc
  | _ => r

end Runtime

/-! ## The structures a context uses -/

/-- The locks a call takes. -/
def apiLocks : Api → List LockId
  | .op o => [o.lockId]
  | .condWait v m => [.cond v, .mutex m]
  | .select ops => ops.map fun k => .chan k.ch
  | .queueSync ch _ g => [.chan ch, .waitgroup g]
  | _ => []

/-- The locks a call may still take when what frame `k` waits for is over. -/
def frameLocks : Frame → List LockId
  | .condPark m v => [.cond v, .mutex m]
  | .condUnlock m _ | .condWait m | .relock m _ => [.mutex m]
  | .queueInit ch _ g => [.chan ch, .waitgroup g]
  | .queueSubmit g | .queueWait g => [.waitgroup g]
  | _ => []

/-- The locks a context may still take in its call.  A waiter does not take the lock of its structure
again. -/
def pcLocks : Pc → List LockId
  | .pre (.op o k) | .cs o k => o.lockId :: frameLocks k
  | .blk k _ | .susp k _ | .sync k _ => frameLocks k
  | .pre (.select ops) | .selScan ops _ | .selInit ops | .selReg ops _ | .selTest ops | .selSusp ops
  | .selUnreg ops _ _ _ | .selRescan ops _ => ops.map fun k => .chan k.ch
  | _ => []

/-- Where a coroutine may switch out and stay `READY`: outside the library, in `s_wait_decider_sync`, and
behind a wake that preempts it. -/
def canYield : Pc → Bool
  | .idle | .ret _ | .selRet _ _ => true
  | .sync _ _ | .selSync _ _ _ | .selSync2 _ _ _ => true
  | .blk (.condWait _) _ | .pre (.op _ (.queueWait _)) => true
  | _ => false

/-! ## Steps -/

/-- When the runtime lets context `a` go from `pc` to `pc'` by action `act`. -/
def Runtime.Guard (r : Runtime) (a : Ctx) (pc : Pc) (act : Act) (pc' : Pc) : Prop :=
  match act with
  | .call api => (∀ lk ∈ apiLocks api, r.gone lk = false) ∧ ∀ t, api = .cancel t → r.life t ≠ .unborn
  -- the entry checks exchange `cancel_requested`
  | .preCanceled => ∀ c, a = .co c → r.cancelReq c = true
  | .preGo | .preExpired => ∀ c, a = .co c → r.cancelReq c = false
  | .ioCanceled =>
    match a, pc with
    | .co c, .ioWoke _ => r.ioResult c = .canceled
    | .co c, .iouDone => (∃ o, r.op c = some o ∧ o.result = some .canceled) ∧ r.cancelReq c = true
    | _, _ => True
  | .io =>
    match a, pc, pc' with
    | .co c, .ioWoke _, .ret .timedout => r.ioResult c = .timedout
    | .co c, .ioWoke _, _ => r.ioResult c = .ready
    | .co c, .iouTest, .iouSusp => ∃ o, r.op c = some o ∧ o.result = none
    | .co c, .iouTest, .iouDone => ∃ o, r.op c = some o ∧ o.result ≠ none
    | .co c, .iouDone, .ret .timedout =>
      (∃ o, r.op c = some o ∧ o.result = some .canceled) ∧ r.cancelReq c = false
    | .co c, .iouDone, .ret .ok => ∃ o, r.op c = some o ∧ o.result = some .ok
    | .co c, .iouDone, _ => ∃ o, r.op c = some o ∧ o.result = some .error
    | _, _, _ => True
  | .route =>
    match pc, pc' with
    | .cancelRoute t, .cancelPush _ => r.pin t ≠ none ∧ r.pin t ≠ r.workerOf a
    | .cancelRoute t, _ => r.pin t = none ∨ r.pin t = r.workerOf a
    | _, _ => True
  | .sleepFire t => r.pin t = r.workerOf a
  | .waker =>
    match pc, pc' with
    -- timers are in the heap of the coroutine's own worker; `s_deadline_cb` looks at `pending_io` first
    | .idle, .wakeTest f t =>
      f ≠ .deliver ∧ r.pin t = r.workerOf a ∧ (f = .deadline → r.op t = none)
    | _, _ => True
  | _ => True

/-- A scheduler starts something only at the head of its loop. -/
def Runtime.LoopOk (r : Runtime) : Ctx → Prop
  | .sched w => r.core.pc (.sched w) = .idle → r.core.work (.sched w) = [] → r.loop w = .top
  | _ => True

/-- What happens. -/
inductive Ev
  /-- A step of the wait protocol. -/
  | core (e : Event)
  /-- `suspenders_spawn` of coroutine `c` through the injector. -/
  | spawn (c : CrId)
  /-- `suspenders_spawn` of coroutine `c` with a single worker. -/
  | spawnLocal (a : Ctx) (c : CrId)
  /-- `s_injector_take` and the switch to the coroutine. -/
  | take (w : WorkerId) (c : CrId)
  /-- `suspenders_ready_dequeue` and the switch to the coroutine. -/
  | resume (w : WorkerId) (c : CrId)
  /-- `suspenders_yield`, or a preemption. -/
  | yield (c : CrId)
  /-- `suspenders_suspend` called by the user. -/
  | bare (c : CrId)
  /-- `suspenders_cr_exit` -/
  | exit (c : CrId)
  /-- The test of `pending_wake`. -/
  | post (w : WorkerId)
  /-- `s_inbox_drain` takes the inbox. -/
  | drain (w : WorkerId)
  /-- `s_inbox_drain` takes an entry. -/
  | pop (w : WorkerId)
  /-- The end of `s_inbox_drain`. -/
  | drained (w : WorkerId)
  /-- `s_inbox_deliver` -/
  | deliver (w : WorkerId)
  /-- `suspenders_resume` called by the user. -/
  | stray (a : Ctx) (t : CrId)
  /-- The descriptor that `c` waits for is ready. -/
  | poll (w : WorkerId) (c : CrId)
  /-- `s_io_timeout_cb` -/
  | ioTimeout (w : WorkerId) (c : CrId)
  /-- The operation of `c` completes. -/
  | cqe (w : WorkerId) (c : CrId) (res : OpResult)
  /-- `s_deadline_cb` finds an operation in flight. -/
  | deadlineOp (w : WorkerId) (c : CrId)
  /-- `s_zombie_reap` -/
  | reap (w : WorkerId)
  /-- Coroutine `c` frees the structure of lock `lk`. -/
  | free (c : CrId) (lk : LockId)

/-- One step of the runtime. -/
inductive RStep : Runtime → Ev → Runtime → Prop
  | core {r : Runtime} {a : Ctx} {act : Act} {s : Core} :
      r.Active a → r.LoopOk a → Step r.core ⟨a, act⟩ s →
      r.Guard a (r.core.pc a) act (s.pc a) →
      RStep r (.core ⟨a, act⟩) { r.effect a (r.core.pc a) act (s.pc a) with core := s }
  | spawn {r : Runtime} {c : CrId} :
      r.life c = .unborn → RStep r (.spawn c) (r.setLife c .ready)
  | spawnLocal {r : Runtime} {a : Ctx} {c : CrId} :
      r.Active a → r.life c = .unborn → r.workerOf a ≠ none →
      RStep r (.spawnLocal a c)
        { r.setLife c .ready with pin := Function.update r.pin c (r.workerOf a) }
  | take {r : Runtime} {w : WorkerId} {c : CrId} :
      r.AtLoop w .top → r.life c = .ready → r.pin c = none →
      -- a cancel that came before the pin is carried as a pending wake
      RStep r (.take w c) { r.setLife c .running with
        pin := Function.update r.pin c (some w)
        run := Function.update r.run w (some c)
        pendingWake := Function.update r.pendingWake c (r.pendingWake c || r.cancelReq c) }
  | resume {r : Runtime} {w : WorkerId} {c : CrId} :
      r.AtLoop w .top → r.life c = .ready → r.pin c = some w →
      RStep r (.resume w c)
        { r.setLife c .running with run := Function.update r.run w (some c) }
  | yield {r : Runtime} {c : CrId} :
      r.Active (.co c) → canYield (r.core.pc (.co c)) = true → r.core.work (.co c) = [] →
      RStep r (.yield c) (r.switchOut (.co c) .ready)
  | bare {r : Runtime} {c : CrId} :
      r.Active (.co c) → r.core.pc (.co c) = .idle → r.core.work (.co c) = [] →
      RStep r (.bare c) (r.switchOut (.co c) .suspended)
  | exit {r : Runtime} {c : CrId} {w : WorkerId} :
      r.pin c = some w → r.run w = some c → r.core.pc (.co c) = .idle →
      r.core.work (.co c) = [] →
      RStep r (.exit c) { r.switchOut (.co c) .done with
        zombies := Function.update r.zombies w (c :: r.zombies w) }
  | postDeliver {r : Runtime} {w : WorkerId} {c : CrId} :
      r.AtLoop w (.post c) → r.pendingWake c = true → r.life c ≠ .done →
      RStep r (.post w) { r with
        pendingWake := Function.update r.pendingWake c false
        loop := Function.update r.loop w (.redeliver c) }
  | postSkip {r : Runtime} {w : WorkerId} {c : CrId} :
      r.AtLoop w (.post c) → (r.pendingWake c = false ∨ r.life c = .done) →
      RStep r (.post w) { r with loop := Function.update r.loop w .top }
  | drain {r : Runtime} {w : WorkerId} :
      r.AtLoop w .top →
      RStep r (.drain w) { r with
        inbox := Function.update r.inbox w []
        -- the stack is reversed
        loop := Function.update r.loop w (.drain (r.inbox w).reverse) }
  | pop {r : Runtime} {w : WorkerId} {c : CrId} {rest : List CrId} :
      r.AtLoop w (.drain (c :: rest)) →
      RStep r (.pop w) { r with
        inflight := Function.update r.inflight c false
        loop := Function.update r.loop w (.deliver c rest) }
  | drained {r : Runtime} {w : WorkerId} :
      r.AtLoop w (.drain []) →
      RStep r (.drained w) { r with loop := Function.update r.loop w .top }
  | deliverWake {r : Runtime} {w : WorkerId} {c : CrId} {l l' : Loop} :
      r.AtLoop w l → l.delivers = some (c, l') → r.cancelReq c = false →
      RStep r (.deliver w) { r.deliverWake c with loop := Function.update r.loop w l' }
  | deliverCancel {r : Runtime} {w : WorkerId} {c : CrId} {l l' : Loop} :
      r.AtLoop w l → l.delivers = some (c, l') → r.cancelReq c = true →
      RStep r (.deliver w) { r with
        core := r.core.setPc (.sched w) (.wakeTest .deliver c)
        loop := Function.update r.loop w l' }
  | stray {r : Runtime} {a : Ctx} {t : CrId} :
      r.Active a → r.LoopOk a → r.core.pc a = .idle → r.core.work a = [] → r.life t ≠ .unborn →
      RStep r (.stray a t) (r.wakeNoPreempt (r.workerOf a) t)
  | poll {r : Runtime} {w : WorkerId} {c : CrId} {again : Bool} :
      r.AtLoop w .top → r.pin c = some w → r.core.pc (.co c) = .ioWoke again →
      r.life c = .suspended → RStep r (.poll w c) (r.setLife c .ready)
  | ioTimeout {r : Runtime} {w : WorkerId} {c : CrId} {again : Bool} :
      r.AtLoop w .top → r.pin c = some w → r.core.pc (.co c) = .ioWoke again →
      r.life c = .suspended →
      RStep r (.ioTimeout w c)
        { r.setLife c .ready with ioResult := Function.update r.ioResult c .timedout }
  | cqe {r : Runtime} {w : WorkerId} {c : CrId} {o : IoOp} {res : OpResult} :
      r.AtLoop w .top → r.pin c = some w → r.op c = some o → o.result = none →
      RStep r (.cqe w c res)
        { r.setLife c (if r.life c = .suspended then .ready else r.life c) with
          op := Function.update r.op c (some { o with result := some res }) }
  | deadlineOp {r : Runtime} {w : WorkerId} {c : CrId} :
      r.AtLoop w .top → r.pin c = some w → r.op c ≠ none →
      RStep r (.deadlineOp w c) (r.iouCancel c)
  -- an iteration that has taken the inbox and finds nothing to run
  | reap {r : Runtime} {w : WorkerId} :
      r.AtLoop w (.drain []) →
      RStep r (.reap w) { r with
        zombies := Function.update r.zombies w []
        reaped := fun c => r.reaped c || (r.zombies w).contains c }
  -- the user's promise: nobody is parked on the structure, no call in progress takes its lock again, and whoever
  -- still holds it is the decider of the coroutine's own wait
  | free {r : Runtime} {c : CrId} {lk : LockId} :
      r.Active (.co c) → r.core.pc (.co c) = .idle → r.core.work (.co c) = [] →
      (∀ l, l.lock = lk → r.core.heap.waits.queue l = []) →
      (∀ a, lk ∉ pcLocks (r.core.pc a)) →
      (∀ a, .unlock lk ∈ r.core.work a → ∃ n, n.cr = c ∧ .fin n ∈ r.core.work a) →
      RStep r (.free c lk) { r with gone := Function.update r.gone lk true }

/-! ## The wait protocol below -/

namespace Runtime

variable (r : Runtime) (a : Ctx) (me : Option WorkerId) (c : CrId) (x : Life)

@[simp] lemma setLife_core : (r.setLife c x).core = r.core := rfl

@[simp] lemma inboxWake_core : (r.inboxWake c).core = r.core := by
  unfold inboxWake
  split
  · rfl
  · split <;> rfl

@[simp] lemma wakeNoPreempt_core : (r.wakeNoPreempt me c).core = r.core := by
  unfold wakeNoPreempt
  split
  · exact r.inboxWake_core c
  · split <;> rfl

@[simp] lemma switchOut_core : (r.switchOut a x).core = r.core := by
  unfold switchOut
  split
  · split <;> rfl
  · rfl

@[simp] lemma deliverWake_core : (r.deliverWake c).core = r.core := by
  unfold deliverWake
  split
  · rfl
  · split <;> rfl

end Runtime

/-- A step of the runtime is a step of the wait protocol or does not touch it.  The scheduler's own step in the
protocol is the call of `s_waiter_wake`. -/
lemma rstep_core {r r' : Runtime} {e : Ev} (h : RStep r e r') :
    r'.core = r.core ∨ ∃ e', Step r.core e' r'.core ∧ (e = .core e' ∨ e'.act = .waker) := by
  cases h with
  | core _ _ hstep _ => exact Or.inr ⟨_, hstep, Or.inl rfl⟩
  | @deliverCancel w c _ _ hat _ _ =>
    obtain ⟨-, -, hpc, hwork⟩ := hat
    refine Or.inr ⟨⟨.sched w, .waker⟩, .local hwork ?_, Or.inr rfl⟩
    rw [hpc]
    exact .callback (by simp)
  | yield | bare | exit | deliverWake | stray => exact Or.inl (by simp)
  | _ => exact Or.inl rfl

/-- The wait protocol of a reachable runtime is in a reachable state. -/
lemma core_reachable {cfg : Config} {r : Runtime} (h : Reachable RStep (.init cfg) r) :
    Reachable Step (.init cfg) r.core := by
  obtain ⟨es, hrun⟩ := h
  exact hrun.simulate (f := Runtime.core) fun _ _ _ hstep =>
    (rstep_core hstep).imp_right fun ⟨e', hcore, _⟩ => ⟨e', hcore⟩

lemma core_inv {cfg : Config} {r : Runtime} (h : Reachable RStep (.init cfg) r) : Inv r.core :=
  inv_reachable (core_reachable h)

end Suspenders.Sched
