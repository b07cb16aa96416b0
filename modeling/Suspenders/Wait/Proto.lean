import Suspenders.Wait.Heap
import Suspenders.Lib.Run

/-!
# The wait protocol

Every context (a coroutine, a worker's scheduler, a foreign thread) executes API calls.  `Pc` is where
it is in the code; `Core.work` is what a granter still has to do for the waiters it has granted: wake
each one, release the lock if it was held over the wakes, end each decider window.  A `Step` is one
atomic action of one context: a critical section, a status test, a context switch, one wake, one
`s_wait_decide_end`.

The relation says nothing about scheduling: whatever context may take its next step at any time, a
suspended coroutine may be resumed at any time, and `s_waiter_wake` may be called for any coroutine at
any time.  `Suspenders.Sched` adds the workers.
-/

namespace Suspenders.Wait

open Lib

/-- What a call goes on with once its critical section or its wait is over. -/
inductive Frame
  /-- It returns the status. -/
  | ret
  /-- It is a `suspenders_sleep_dl`. -/
  | sleep
  /-- The park of `suspenders_cond_wait_dl` on condition `v` with mutex `m`. -/
  | condPark (m v : ℕ)
  /-- The unlock of the mutex after that park. -/
  | condUnlock (m v : ℕ)
  /-- The wait of `suspenders_cond_wait_dl`. -/
  | condWait (m : ℕ)
  /-- `s_mutex_lock_raw` at the end of a `suspenders_cond_wait_dl` whose wait ended with `st`. -/
  | relock (m : ℕ) (st : Code)
  /-- `suspenders_queue_sync`: counting its stack wait group `g` up. -/
  | queueInit (ch : ℕ) (task : Bytes) (g : ℕ)
  /-- `suspenders_queue_sync`: submitting the task. -/
  | queueSubmit (g : ℕ)
  /-- `suspenders_queue_sync`: the loop around `suspenders_waitgroup_wait`. -/
  | queueWait (g : ℕ)
  deriving DecidableEq

/-- Whether a wait ends in `s_mutex_lock_raw`. -/
def Frame.isRelock : Frame → Bool
  | relock _ _ => true
  | _ => false

/-- On whose behalf `s_waiter_wake` runs. -/
inductive WakeFor
  /-- `suspenders_cancel` -/
  | cancel
  /-- `s_inbox_deliver` with a pending cancel -/
  | deliver
  /-- `s_deadline_cb` -/
  | deadline
  /-- `s_wait_deadline_cb` -/
  | timer
  deriving DecidableEq

/-- The status `s_waiter_wake` is called with. -/
def WakeFor.code : WakeFor → Code
  | cancel | deliver => .canceled
  | deadline | timer => .timedout

/-- What follows the entry checks of a call (`s_pre_block`, `s_io_pre`). -/
inductive Entry
  | op (o : Op) (k : Frame)
  | sleep
  | select (ops : List Case)
  /-- Readiness I/O; `again` says whether the system call is retried after readiness. -/
  | io (again : Bool)
  /-- An io_uring operation. -/
  | iou
  deriving DecidableEq

/-- Where a context is. -/
inductive Pc
  /-- Outside the library, or (a scheduler) outside any callback. -/
  | idle
  /-- Before the entry checks. -/
  | pre (e : Entry)
  /-- Before the critical section of `op`. -/
  | cs (op : Op) (k : Frame)
  /-- `suspenders_sleep_dl` past its entry checks. -/
  | sleep
  /-- At the status test of a wait loop; the node is on list `l`, if any. -/
  | blk (k : Frame) (l : Option ListId)
  /-- The test read `S_WQ_WAITING`: before `suspenders_suspend`. -/
  | susp (k : Frame) (l : Option ListId)
  /-- In `s_wait_decider_sync`. -/
  | sync (k : Frame) (l : Option ListId)
  /-- Before returning `code`. -/
  | ret (code : Code)
  /-- The try scan of a select, with the cases `rest` left to try. -/
  | selScan (ops : List Case) (rest : List ℕ)
  /-- Before filling in the cancel node. -/
  | selInit (ops : List Case)
  /-- Before registering case `i`. -/
  | selReg (ops : List Case) (i : ℕ)
  /-- At the test of the select's wait loop. -/
  | selTest (ops : List Case)
  /-- The test found nothing decided: before `suspenders_suspend`. -/
  | selSusp (ops : List Case)
  /-- Unregistering the first `r` cases, `j` next. -/
  | selUnreg (ops : List Case) (r j : ℕ) (rescan : Bool)
  /-- The try scan of a rescan pass. -/
  | selRescan (ops : List Case) (rest : List ℕ)
  /-- In `s_wait_decider_sync` on the winning node. -/
  | selSync (ops : List Case) (win : Option ℕ) (scan : Option (ℕ × Code))
  /-- In `s_wait_decider_sync` on the cancel node. -/
  | selSync2 (ops : List Case) (win : Option ℕ) (scan : Option (ℕ × Code))
  /-- Before reading and resetting the cancel node's status. -/
  | selFin (ops : List Case) (win : Option ℕ) (scan : Option (ℕ × Code))
  /-- Before returning index `idx` with `suspenders_errno = code`, or the negative status `code`. -/
  | selRet (idx : Option ℕ) (code : Code)
  /-- Before the non-blocking system call. -/
  | ioTry (again : Bool)
  /-- In `s_io_wait_ready`, registered: before `suspenders_suspend`. -/
  | ioSusp (again : Bool)
  /-- In `s_io_wait_ready`, behind `suspenders_suspend`. -/
  | ioWoke (again : Bool)
  /-- Before submitting an io_uring operation. -/
  | iouSubmit
  /-- At the test of `op.completed`. -/
  | iouTest
  /-- Not completed: before `suspenders_suspend`. -/
  | iouSusp
  /-- Completed. -/
  | iouDone
  /-- `suspenders_cancel`, the flag set, before reading the target's worker. -/
  | cancelRoute (t : CrId)
  /-- `suspenders_cancel` before `s_inbox_wake`. -/
  | cancelPush (t : CrId)
  /-- `s_waiter_wake` before the unlocked status test. -/
  | wakeTest (f : WakeFor) (t : CrId)
  /-- `s_waiter_wake` before taking the lock it has read from the node. -/
  | wakeLock (f : WakeFor) (t : CrId) (lk : Option LockId)
  /-- `s_waiter_wake` has returned false. -/
  | wakeMiss (f : WakeFor) (t : CrId)
  deriving DecidableEq

/-- Where a call continues when what frame `k` waited for is over with status `st`. -/
def Frame.after : Frame → Code → Pc
  | ret, st => .ret st
  | sleep, st => .ret st
  | condPark _ _, st => .ret st
  | condUnlock m v, _ => .blk (.condWait m) (some (.cond v))
  | condWait m, st => .cs (.lockRaw m) (.relock m st)
  | relock m st₀, st => if st = .ok then .ret st₀ else .cs (.lockRaw m) (.relock m st₀)
  | queueInit ch task g, _ => .pre (.op (.send ch task false) (.queueSubmit g))
  | queueSubmit g, st => if st = .ok then .pre (.op (.wgWait g) (.queueWait g)) else .ret st
  | queueWait g, st => if st = .ok then .ret .ok else .pre (.op (.wgWait g) (.queueWait g))

/-- Where a call continues when its critical section has parked its coroutine on list `l`. -/
def Frame.parked : Frame → ListId → Pc
  | condPark m v, _ => .cs (.unlock m) (.condUnlock m v)
  | k, l => .blk k (some l)

/-- The order in which a select tries its cases, for the random number `r`. -/
def scanOrder (r n : ℕ) : List ℕ := (List.range n).map fun i => (r + i) % 2 ^ 32 % n

/-- Where a call continues when an entry check fails with `st`. -/
def Entry.fail : Entry → Code → Pc
  | op _ k, st => k.after st
  | select _, st => .selRet none st
  | _, st => .ret st

/-- Where coroutine `c` continues when the entry checks pass; `r` is the select's random number. -/
def Entry.go (h : Heap) (c : CrId) (r : ℕ) : Entry → Pc
  | op (.condPark v) k =>
    match k with
    -- `suspenders_cond_wait_dl` checks the owner without the lock
    | .condPark m _ => if h.owner m = some (.co c) then .cs (.condPark v) k else .ret .perm
    | _ => .cs (.condPark v) k
  | op o k => .cs o k
  | sleep => .sleep
  | select ops => .selScan ops (scanOrder r ops.length)
  | io again => .ioTry again
  | iou => .iouSubmit

/-- The API calls. -/
inductive Api
  | op (o : Op)
  /-- `suspenders_cond_wait_dl` -/
  | condWait (v m : ℕ)
  /-- `suspenders_sleep_dl` -/
  | sleep
  /-- `suspenders_select_dl` -/
  | select (ops : List Case)
  /-- `suspenders_queue_sync` on a queue with channel `ch`, with its stack wait group `g` -/
  | queueSync (ch : ℕ) (task : Bytes) (g : ℕ)
  /-- A blocking readiness I/O call -/
  | io (again : Bool)
  /-- A blocking io_uring call -/
  | iou
  /-- `suspenders_cancel` -/
  | cancel (t : CrId)
  deriving DecidableEq

/-- What the caller promises: a value to be sent has the channel's element size, and the two internal
operations are not called directly. -/
def Api.Valid (h : Heap) : Api → Prop
  | op (.send ch val _) => val.length = (h.chan ch).elemSz
  | op (.lockRaw _) | op (.condPark _) => False
  | op _ => True
  | select ops => ∀ k ∈ ops, k.isSend = true → k.val.length = (h.chan k.ch).elemSz
  | queueSync ch task _ => task.length = (h.chan ch).elemSz
  | _ => True

/-- Where a call starts: `s_block_begin` turns away everybody but coroutines, a select checks the
number of its cases, and what cannot block skips the entry checks. -/
def Api.entry (a : Ctx) (r : ℕ) : Api → Pc
  | op o =>
    match a, o with
    | .co _, .send _ _ false | .co _, .recv _ false => .pre (.op o .ret)
    | .co _, .lock _ | .co _, .rdlock _ | .co _, .wrlock _ | .co _, .wgWait _ => .pre (.op o .ret)
    | _, .lock _ | _, .rdlock _ | _, .wrlock _ | _, .wgWait _ => .ret .perm
    | .ext _, .trylock _ | .ext _, .unlock _ => .ret .inval
    | _, _ => .cs o .ret
  | condWait v m =>
    match a with
    | .co _ => .pre (.op (.condPark v) (.condPark m v))
    | _ => .ret .perm
  | sleep =>
    match a with
    | .co _ => .pre .sleep
    | _ => .ret .perm
  | select ops =>
    if ops.length = 0 ∨ 64 < ops.length then .selRet none .inval
    else
      match a with
      | .co _ => .pre (.select ops)
      | _ => .selScan ops (scanOrder r ops.length)
  | queueSync ch task g =>
    match a with
    | .co _ => .cs (.wgAdd g 1) (.queueInit ch task g)
    | _ => .ret .perm
  | io again =>
    match a with
    | .co _ => .pre (.io again)
    -- outside a coroutine the call blocks in poll(2)
    | _ => .ret .ok
  | iou =>
    match a with
    | .co _ => .pre .iou
    | _ => .ret .ok
  | cancel t => .cancelRoute t

/-- What a granter has still to do. -/
inductive Work
  /-- Wake the coroutine of node `n` (`s_wake_no_preempt`). -/
  | wake (n : NodeRef)
  /-- Release the lock. -/
  | unlock (lk : LockId)
  /-- End the decider window of node `n` (`s_wait_decide_end`). -/
  | fin (n : NodeRef)
  deriving DecidableEq

/-- What a critical section leaves to do: one waiter is woken and released after the unlock
(`s_wait_finish_wake`); many are woken under the lock and released behind it. -/
def Out.work (out : Out) (lk : LockId) : List Work :=
  if out.batch then out.granted.map .wake ++ .unlock lk :: out.chain.map .fin
  else out.granted.map .wake ++ out.chain.map .fin

/-- The shared state and the contexts. -/
structure Core where
  /-- What the ticket locks protect, and the nodes. -/
  heap : Heap
  /-- Where each context is. -/
  pc : Ctx → Pc
  /-- What each context has to do before it goes on there. -/
  work : Ctx → List Work
  /-- The locks held over a batch of wakes. -/
  held : LockId → Bool

namespace Core

/-- Nothing has been called. -/
def init (cfg : Config) : Core where
  heap := .init cfg
  pc := fun _ => .idle
  work := fun _ => []
  held := fun _ => false

/-- Context `a` goes on at `pc`. -/
def setPc (s : Core) (a : Ctx) (pc : Pc) : Core := { s with pc := Function.update s.pc a pc }

/-- Context `a` has `ws` to do. -/
def setWork (s : Core) (a : Ctx) (ws : List Work) : Core :=
  { s with work := Function.update s.work a ws }

/-- The nodes and lists become `w`. -/
def setWaits (s : Core) (w : Waits) : Core := { s with heap := { s.heap with waits := w } }

/-- Lock `lk` becomes held or free. -/
def setHeld (s : Core) (lk : LockId) (b : Bool) : Core :=
  { s with held := Function.update s.held lk b }

section Simp

variable (s : Core) (a b : Ctx) (pc : Pc) (ws : List Work) (w : Waits) (lk : LockId) (x : Bool)

@[simp] lemma setPc_heap : (s.setPc a pc).heap = s.heap := rfl
@[simp] lemma setPc_work : (s.setPc a pc).work = s.work := rfl
@[simp] lemma setPc_held : (s.setPc a pc).held = s.held := rfl
@[simp] lemma setPc_pc_self : (s.setPc a pc).pc a = pc := by simp [setPc]
@[simp] lemma setPc_pc_of_ne (h : b ≠ a) : (s.setPc a pc).pc b = s.pc b := by simp [setPc, h]
@[simp] lemma setWork_heap : (s.setWork a ws).heap = s.heap := rfl
@[simp] lemma setWork_pc : (s.setWork a ws).pc = s.pc := rfl
@[simp] lemma setWork_held : (s.setWork a ws).held = s.held := rfl
@[simp] lemma setWork_work_self : (s.setWork a ws).work a = ws := by simp [setWork]
@[simp] lemma setWork_work_of_ne (h : b ≠ a) : (s.setWork a ws).work b = s.work b := by
  simp [setWork, h]
@[simp] lemma setWaits_waits : (s.setWaits w).heap.waits = w := rfl
@[simp] lemma setWaits_chan : (s.setWaits w).heap.chan = s.heap.chan := rfl
@[simp] lemma setWaits_pc : (s.setWaits w).pc = s.pc := rfl
@[simp] lemma setWaits_work : (s.setWaits w).work = s.work := rfl
@[simp] lemma setWaits_held : (s.setWaits w).held = s.held := rfl
@[simp] lemma setHeld_heap : (s.setHeld lk x).heap = s.heap := rfl
@[simp] lemma setHeld_pc : (s.setHeld lk x).pc = s.pc := rfl
@[simp] lemma setHeld_work : (s.setHeld lk x).work = s.work := rfl

end Simp

end Core

/-- The heap after the park at the end of a critical section of `a`. -/
def Heap.parkAs (h : Heap) (a : Ctx) : Res → Heap
  | .park l data writer =>
    match a with
    | .co c => { h with waits := h.waits.park (.wq c) l data writer }
    | _ => h
  | .ret _ => h

/-- A whole critical section: the operation and its park. -/
def critical (h : Heap) (a : Ctx) (op : Op) : Heap × Out :=
  ((exec h a op).1.parkAs a (exec h a op).2.res, (exec h a op).2)

/-- Where the call of a critical section continues. -/
def Frame.next (k : Frame) : Res → Pc
  | .ret code => k.after code
  | .park l _ _ => k.parked l

/-- The critical section that tries case `k` of a select. -/
def Case.op (k : Case) : Op := if k.isSend then .send k.ch k.val true else .recv k.ch true

/-- Whether the outcome of a try operation ends the scan. -/
def Out.hit (out : Out) : Option Code :=
  match out.res with
  | .ret .ok => some .ok
  | .ret .closed => some .closed
  | _ => none

/-- What a context is seen doing. -/
inductive Act
  /-- Calling an API function. -/
  | call (api : Api)
  /-- An entry check consumed a pending cancel. -/
  | preCanceled
  /-- An entry check found the deadline expired. -/
  | preExpired
  /-- The entry checks passed. -/
  | preGo
  /-- Returning from an API function. -/
  | ret (code : Code)
  /-- Returning from a select. -/
  | selRet (idx : Option ℕ) (code : Code)
  /-- A system call or kernel interaction of an I/O call. -/
  | io
  /-- The wait of an I/O call ended with a cancel. -/
  | ioCanceled
  /-- `suspenders_cancel` has read the target's worker. -/
  | route
  /-- `s_waiter_wake` makes an unlocked test, fails, or gives up. -/
  | waker
  /-- A critical section. -/
  | crit (op : Op) (k : Frame) (out : Out)
  /-- The status test of a wait loop. -/
  | test
  /-- `suspenders_suspend` in a wait loop. -/
  | suspend
  /-- A wait is over. -/
  | decided (k : Frame) (st : Code)
  /-- One wake. -/
  | wake (n : NodeRef)
  /-- One release of a lock. -/
  | unlock (lk : LockId)
  /-- One end of a decider window. -/
  | fin (n : NodeRef)
  /-- A sleep begins. -/
  | sleepPark
  /-- The timer of `t`'s sleep fires. -/
  | sleepFire (t : CrId)
  /-- `s_waiter_wake` decides the wait of `t`. -/
  | flip (t : CrId) (st : Code)
  /-- A select tries case `i`. -/
  | selTry (i : ℕ) (k : Case) (out : Out)
  /-- A select fills in its cancel node. -/
  | selInit
  /-- A select registers case `i`. -/
  | selPark (i : ℕ) (k : Case)
  /-- A select ends without a case. -/
  | selFailed (st : Code)
  /-- Another step of a call. -/
  | tau

/-- One action of one context. -/
structure Event where
  /-- Who. -/
  ctx : Ctx
  /-- What. -/
  act : Act

/-- Steps of a context that touch no structure and no node. -/
inductive LocalStep (h : Heap) : Ctx → Pc → Act → Pc → Prop
  | call {a} (api : Api) (r : ℕ) : api.Valid h → LocalStep h a .idle (.call api) (api.entry a r)
  | preCanceled {c e} : LocalStep h (.co c) (.pre e) .preCanceled (e.fail .canceled)
  | preExpired {c e} : LocalStep h (.co c) (.pre e) .preExpired (e.fail .timedout)
  | preGo {c e} (r : ℕ) : LocalStep h (.co c) (.pre e) .preGo (e.go h c r)
  | ret {a code} : LocalStep h a (.ret code) (.ret code) .idle
  | selRet {a idx code} : LocalStep h a (.selRet idx code) (.selRet idx code) .idle
  /-- A sleep whose deadline has passed yields and returns. -/
  | sleepNow {c} : LocalStep h (.co c) .sleep .tau (.ret .ok)
  /-- A sleep whose timer cannot be armed. -/
  | sleepNomem {c} : LocalStep h (.co c) .sleep .tau (.ret .nomem)
  | scanEnd {c ops} : LocalStep h (.co c) (.selScan ops []) .tau (.selInit ops)
  | scanFail {a ops} : (∀ c, a ≠ .co c) →
      LocalStep h a (.selScan ops []) .tau (.selRet none .perm)
  | ioDone {c again} (code : Code) : code ≠ .canceled →
      LocalStep h (.co c) (.ioTry again) .io (.ret code)
  | ioRegister {c again} : LocalStep h (.co c) (.ioTry again) .io (.ioSusp again)
  | ioSuspend {c again} : LocalStep h (.co c) (.ioSusp again) .suspend (.ioWoke again)
  | ioReady {c again} : LocalStep h (.co c) (.ioWoke again) .io
      (if again then .ioTry again else .ret .ok)
  | ioCanceled {c again} : LocalStep h (.co c) (.ioWoke again) .ioCanceled (.ret .canceled)
  | ioExpired {c again} : LocalStep h (.co c) (.ioWoke again) .io (.ret .timedout)
  | iouSubmit {c} : LocalStep h (.co c) .iouSubmit .io .iouTest
  | iouWait {c} : LocalStep h (.co c) .iouTest .io .iouSusp
  | iouSuspend {c} : LocalStep h (.co c) .iouSusp .suspend .iouTest
  | iouCompleted {c} : LocalStep h (.co c) .iouTest .io .iouDone
  | iouRet {c} (code : Code) : code ≠ .canceled → LocalStep h (.co c) .iouDone .io (.ret code)
  | iouCanceled {c} : LocalStep h (.co c) .iouDone .ioCanceled (.ret .canceled)
  | routeLocal {a t} : LocalStep h a (.cancelRoute t) .route (.wakeTest .cancel t)
  | routeRemote {a t} : LocalStep h a (.cancelRoute t) .route (.cancelPush t)
  | push {a t} : LocalStep h a (.cancelPush t) .waker (.ret .ok)
  | callback {w f t} : f ≠ .cancel → LocalStep h (.sched w) .idle .waker (.wakeTest f t)
  | wakeHit {a f t} : (h.waits.node (.wq t)).status = .waiting →
      LocalStep h a (.wakeTest f t) .waker (.wakeLock f t (h.waits.node (.wq t)).waitLock)
  | wakeNo {a f t} : (h.waits.node (.wq t)).status ≠ .waiting →
      LocalStep h a (.wakeTest f t) .waker (.wakeMiss f t)
  | wakeLost {a f t lk} : (h.waits.node (.wq t)).status ≠ .waiting →
      LocalStep h a (.wakeLock f t lk) .waker (.wakeMiss f t)
  | wakeGiveUp {a f t} : LocalStep h a (.wakeMiss f t) .waker
      (if f = .cancel then .ret .ok else .idle)

/-- One step of one context. -/
inductive Step : Core → Event → Core → Prop
  /-- A step on its own. -/
  | «local» {s : Core} {a : Ctx} {act : Act} {pc : Pc} :
      s.work a = [] → LocalStep s.heap a (s.pc a) act pc → Step s ⟨a, act⟩ (s.setPc a pc)
  /-- The critical section of a call. -/
  | crit {s : Core} {a : Ctx} {op : Op} {k : Frame} :
      s.pc a = .cs op k → s.work a = [] → s.held op.lockId = false →
      Step s ⟨a, .crit op k (critical s.heap a op).2⟩
        ((({ s with heap := (critical s.heap a op).1 }.setPc a
          (k.next (critical s.heap a op).2.res)).setWork a
          ((critical s.heap a op).2.work op.lockId)).setHeld op.lockId
          (critical s.heap a op).2.batch)
  /-- The wait loop reads `S_WQ_WAITING`. -/
  | testWaiting {s : Core} {c : CrId} {k : Frame} {l : Option ListId} :
      s.pc (.co c) = .blk k l → s.work (.co c) = [] →
      (s.heap.waits.node (.wq c)).status = .waiting →
      Step s ⟨.co c, .test⟩ (s.setPc (.co c) (.susp k l))
  /-- The wait loop reads a final status. -/
  | testDecided {s : Core} {c : CrId} {k : Frame} {l : Option ListId} :
      s.pc (.co c) = .blk k l → s.work (.co c) = [] →
      (s.heap.waits.node (.wq c)).status ≠ .waiting →
      Step s ⟨.co c, .test⟩ (s.setPc (.co c) (.sync k l))
  /-- `suspenders_suspend` in the wait loop; the coroutine continues at the test. -/
  | suspend {s : Core} {c : CrId} {k : Frame} {l : Option ListId} :
      s.pc (.co c) = .susp k l → s.work (.co c) = [] →
      Step s ⟨.co c, .suspend⟩ (s.setPc (.co c) (.blk k l))
  /-- `s_wait_decider_sync` lets the waiter go. -/
  | decided {s : Core} {c : CrId} {k : Frame} {l : Option ListId} {st : Code} :
      s.pc (.co c) = .sync k l → s.work (.co c) = [] →
      (s.heap.waits.node (.wq c)).wakerBusy = false →
      (s.heap.waits.node (.wq c)).status = .decided st →
      Step s ⟨.co c, .decided k st⟩
        ((s.setWaits (s.heap.waits.setNode (.wq c)
          { s.heap.waits.node (.wq c) with waitList := none, waitLock := none })).setPc (.co c)
          (k.after st))
  /-- A granter wakes a waiter. -/
  | wake {s : Core} {a : Ctx} {n : NodeRef} {rest : List Work} :
      s.work a = .wake n :: rest → Step s ⟨a, .wake n⟩ (s.setWork a rest)
  /-- A granter releases the lock. -/
  | unlock {s : Core} {a : Ctx} {lk : LockId} {rest : List Work} :
      s.work a = .unlock lk :: rest →
      Step s ⟨a, .unlock lk⟩ ((s.setWork a rest).setHeld lk false)
  /-- A granter ends a decider window. -/
  | fin {s : Core} {a : Ctx} {n : NodeRef} {rest : List Work} :
      s.work a = .fin n :: rest →
      Step s ⟨a, .fin n⟩ ((s.setWork a rest).setWaits (s.heap.waits.decideEnd n))
  /-- A sleep fills in its node. -/
  | sleepPark {s : Core} {c : CrId} :
      s.pc (.co c) = .sleep → s.work (.co c) = [] →
      Step s ⟨.co c, .sleepPark⟩
        ((s.setWaits (s.heap.waits.parkNone c)).setPc (.co c) (.blk .sleep none))
  /-- `s_sleep_cb`, called while the sleep's timer is armed: it opens no decider window. -/
  | sleepFire {s : Core} {w : WorkerId} {t : CrId} :
      s.pc (.sched w) = .idle → s.work (.sched w) = [] →
      (s.pc (.co t) = .blk .sleep none ∨ s.pc (.co t) = .susp .sleep none) →
      (s.heap.waits.node (.wq t)).status = .waiting →
      Step s ⟨.sched w, .sleepFire t⟩
        ((s.setWaits (s.heap.waits.setNode (.wq t)
          { s.heap.waits.node (.wq t) with status := .decided .ok })).setWork (.sched w)
          [.wake (.wq t)])
  /-- The locked part of `s_waiter_wake` decides the wait. -/
  | flip {s : Core} {a : Ctx} {f : WakeFor} {t : CrId} {lk : Option LockId} {w : Waits} :
      s.pc a = .wakeLock f t lk → s.work a = [] → (∀ k, lk = some k → s.held k = false) →
      s.heap.waits.decide t f.code = some w →
      Step s ⟨a, .flip t f.code⟩
        (((s.setWaits w).setPc a (if f = .cancel then .ret .ok else .idle)).setWork a
          [.wake (.wq t), .fin (.wq t)])
  /-- The try scan of a select. -/
  | selTry {s : Core} {a : Ctx} {ops : List Case} {i : ℕ} {rest : List ℕ} {k : Case} :
      s.pc a = .selScan ops (i :: rest) → s.work a = [] → ops[i]? = some k →
      s.held (.chan k.ch) = false →
      Step s ⟨a, .selTry i k (exec s.heap a k.op).2⟩
        (({ s with heap := (exec s.heap a k.op).1 }.setPc a
          (match (exec s.heap a k.op).2.hit with
            | some code => .selRet (some i) code
            | none => .selScan ops rest)).setWork a ((exec s.heap a k.op).2.work (.chan k.ch)))
  /-- A select without a ready case fills in its record and its cancel node. -/
  | selInit {s : Core} {c : CrId} {ops : List Case} :
      s.pc (.co c) = .selInit ops → s.work (.co c) = [] →
      Step s ⟨.co c, .selInit⟩
        ((s.setWaits { s.heap.waits.parkNone c with
          winner := Function.update s.heap.waits.winner c none }).setPc (.co c) (.selReg ops 0))
  /-- Case `i` has become ready: stop registering and rescan. -/
  | selReady {s : Core} {c : CrId} {ops : List Case} {i : ℕ} {k : Case} :
      s.pc (.co c) = .selReg ops i → s.work (.co c) = [] → ops[i]? = some k →
      s.held (.chan k.ch) = false →
      selectCaseReady s.heap.waits c k (s.heap.chan k.ch) = true →
      Step s ⟨.co c, .tau⟩ (s.setPc (.co c) (.selUnreg ops i 0 true))
  /-- Registering case `i`. -/
  | selPark {s : Core} {c : CrId} {ops : List Case} {i : ℕ} {k : Case} :
      s.pc (.co c) = .selReg ops i → s.work (.co c) = [] → ops[i]? = some k →
      s.held (.chan k.ch) = false →
      selectCaseReady s.heap.waits c k (s.heap.chan k.ch) = false →
      Step s ⟨.co c, .selPark i k⟩
        ((s.setWaits (s.heap.waits.park (.sel c i) k.list k.val false)).setPc (.co c)
          (.selReg ops (i + 1)))
  /-- All cases are registered. -/
  | selRegEnd {s : Core} {c : CrId} {ops : List Case} :
      s.pc (.co c) = .selReg ops ops.length → s.work (.co c) = [] →
      Step s ⟨.co c, .tau⟩ (s.setPc (.co c) (.selTest ops))
  /-- The wait loop finds nothing decided. -/
  | selWaiting {s : Core} {c : CrId} {ops : List Case} :
      s.pc (.co c) = .selTest ops → s.work (.co c) = [] → s.heap.waits.winner c = none →
      (s.heap.waits.node (.wq c)).status = .waiting →
      Step s ⟨.co c, .test⟩ (s.setPc (.co c) (.selSusp ops))
  /-- The wait loop finds a winner, or the cancel node decided. -/
  | selDecided {s : Core} {c : CrId} {ops : List Case} :
      s.pc (.co c) = .selTest ops → s.work (.co c) = [] →
      (s.heap.waits.winner c ≠ none ∨ (s.heap.waits.node (.wq c)).status ≠ .waiting) →
      Step s ⟨.co c, .test⟩ (s.setPc (.co c) (.selUnreg ops ops.length 0 false))
  /-- `suspenders_suspend` in the wait loop of a select. -/
  | selSuspend {s : Core} {c : CrId} {ops : List Case} :
      s.pc (.co c) = .selSusp ops → s.work (.co c) = [] →
      Step s ⟨.co c, .suspend⟩ (s.setPc (.co c) (.selTest ops))
  /-- Unregistering case `j`. -/
  | selUnreg {s : Core} {c : CrId} {ops : List Case} {r j : ℕ} {rescan : Bool} {k : Case} :
      s.pc (.co c) = .selUnreg ops r j rescan → s.work (.co c) = [] → j < r →
      ops[j]? = some k → s.held (.chan k.ch) = false →
      Step s ⟨.co c, .tau⟩
        ((s.setWaits (s.heap.waits.unregister (.sel c j))).setPc (.co c)
          (.selUnreg ops r (j + 1) rescan))
  /-- Everything is unregistered and the select is decided, or nothing was ready. -/
  | selLeave {s : Core} {c : CrId} {ops : List Case} {r : ℕ} {rescan : Bool} :
      s.pc (.co c) = .selUnreg ops r r rescan → s.work (.co c) = [] →
      (s.heap.waits.winner c ≠ none ∨ (s.heap.waits.node (.wq c)).status ≠ .waiting ∨
        rescan = false) →
      Step s ⟨.co c, .tau⟩ (s.setPc (.co c) (.selSync ops (s.heap.waits.winner c) none))
  /-- Everything is unregistered, nothing is decided: try the cases again. -/
  | selAgain {s : Core} {c : CrId} {ops : List Case} {r : ℕ} (rand : ℕ) :
      s.pc (.co c) = .selUnreg ops r r true → s.work (.co c) = [] →
      s.heap.waits.winner c = none → (s.heap.waits.node (.wq c)).status = .waiting →
      Step s ⟨.co c, .tau⟩ (s.setPc (.co c) (.selRescan ops (scanOrder rand ops.length)))
  /-- The try scan of a rescan pass. -/
  | selRetry {s : Core} {c : CrId} {ops : List Case} {i : ℕ} {rest : List ℕ} {k : Case} :
      s.pc (.co c) = .selRescan ops (i :: rest) → s.work (.co c) = [] → ops[i]? = some k →
      s.held (.chan k.ch) = false →
      Step s ⟨.co c, .selTry i k (exec s.heap (.co c) k.op).2⟩
        (({ s with heap := (exec s.heap (.co c) k.op).1 }.setPc (.co c)
          (match (exec s.heap (.co c) k.op).2.hit with
            | some code => .selSync ops none (some (i, code))
            | none => .selRescan ops rest)).setWork (.co c)
          ((exec s.heap (.co c) k.op).2.work (.chan k.ch)))
  /-- The rescan found nothing: register again. -/
  | selRescanEnd {s : Core} {c : CrId} {ops : List Case} :
      s.pc (.co c) = .selRescan ops [] → s.work (.co c) = [] →
      Step s ⟨.co c, .tau⟩ (s.setPc (.co c) (.selReg ops 0))
  /-- The decider of the winning node is done. -/
  | selSync {s : Core} {c : CrId} {ops : List Case} {win : Option ℕ} {scan : Option (ℕ × Code)} :
      s.pc (.co c) = .selSync ops win scan → s.work (.co c) = [] →
      (∀ i, win = some i → (s.heap.waits.node (.sel c i)).wakerBusy = false) →
      Step s ⟨.co c, .tau⟩ (s.setPc (.co c) (.selSync2 ops win scan))
  /-- The decider of the cancel node, if any, is done. -/
  | selSync2 {s : Core} {c : CrId} {ops : List Case} {win : Option ℕ}
      {scan : Option (ℕ × Code)} :
      s.pc (.co c) = .selSync2 ops win scan → s.work (.co c) = [] →
      (s.heap.waits.node (.wq c)).wakerBusy = false →
      Step s ⟨.co c, .tau⟩ (s.setPc (.co c) (.selFin ops win scan))
  /-- The winning channel completed the case, or closed under it. -/
  | selWon {s : Core} {c : CrId} {ops : List Case} {i : ℕ} {scan : Option (ℕ × Code)} :
      s.pc (.co c) = .selFin ops (some i) scan → s.work (.co c) = [] →
      Step s ⟨.co c, .tau⟩
        ((s.setWaits (s.heap.waits.setNode (.wq c)
          { s.heap.waits.node (.wq c) with status := .decided .ok })).setPc (.co c)
          (.selRet (some i)
            (if (s.heap.waits.node (.sel c i)).status = .decided .closed then .closed else .ok)))
  /-- A rescan pass completed case `i`. -/
  | selScanned {s : Core} {c : CrId} {ops : List Case} {i : ℕ} {code : Code} :
      s.pc (.co c) = .selFin ops none (some (i, code)) → s.work (.co c) = [] →
      Step s ⟨.co c, .tau⟩
        ((s.setWaits (s.heap.waits.setNode (.wq c)
          { s.heap.waits.node (.wq c) with status := .decided .ok })).setPc (.co c)
          (.selRet (some i) code))
  /-- The select was canceled or timed out (or, defensively, not decided at all). -/
  | selFailed {s : Core} {c : CrId} {ops : List Case} {st : Code} :
      s.pc (.co c) = .selFin ops none none → s.work (.co c) = [] →
      ((s.heap.waits.node (.wq c)).status = .decided st ∨
        ((s.heap.waits.node (.wq c)).status = .waiting ∧ st = .error)) →
      Step s ⟨.co c, .selFailed st⟩
        ((s.setWaits (s.heap.waits.setNode (.wq c)
          { s.heap.waits.node (.wq c) with status := .decided .ok })).setPc (.co c)
          (.selRet none st))

end Suspenders.Wait
