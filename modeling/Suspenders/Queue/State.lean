import Mathlib.Algebra.Group.Nat.Defs
import Mathlib.Data.Int.Notation
import Mathlib.Data.List.Basic
import Mathlib.Logic.Function.Iterate
import Suspenders.Base
import Suspenders.Lib.Run

/-!
# Task queues

A queue is a channel of tasks, a number of drainers that receive from it, a mutex and a condition variable that
keep barriers apart from other tasks, and a wait group that counts the drainers.  `Queue.State` is one queue with
everybody who uses it: the drainers, the calls that submit a task (each call has a task of its own, and the task
is named like the call) and the call of `suspenders_queue_destroy`.

A critical section of the channel, of the mutex, of the condition variable or of a wait group is one step, and so
is every test and assignment between them.  A wait is decided by writing the status of the waiter's node, and the
waiter reads it later.  A cancel or a deadline may decide any wait at any time.
-/

namespace Suspenders.Queue

open Lib

/-- A submission, and its task. -/
abbrev TaskId := ℕ

/-- A drainer. -/
abbrev DrainerId := ℕ

/-- Whose coroutine. -/
inductive Actor
  | drainer (d : DrainerId)
  | caller (t : TaskId)
  | destroyer
  deriving DecidableEq

/-- `status` of a wait node. -/
inductive Status
  /-- `S_WQ_WAITING` -/
  | waiting
  | decided (st : Code)
  deriving DecidableEq

/-- The timer of `suspenders_deadline`. -/
inductive Deadline
  | none
  | armed
  /-- Armed, and the time has come. -/
  | expired
  deriving DecidableEq

/-- The functions that submit. -/
inductive Kind
  /-- `suspenders_queue_async` -/
  | async
  /-- `suspenders_queue_barrier_async` -/
  | barrier
  /-- `suspenders_queue_sync` -/
  | sync
  deriving DecidableEq

/-- The arguments of a submission. -/
structure Call where
  kind : Kind
  /-- `q` or `fn` is `NULL`. -/
  null : Bool
  /-- The caller is a coroutine. -/
  co : Bool
  deriving DecidableEq

/-- `s_queue_task_t` without the function and its argument. -/
structure Task where
  /-- `barrier` -/
  barrier : Bool
  /-- Whether `sync_wg` is set. -/
  sync : Bool
  deriving DecidableEq

/-- The two loops around `suspenders_cond_wait`. -/
inductive Phase
  /-- `while (q->barrier_pending)` -/
  | pending
  /-- `while (q->active > 0)` -/
  | active
  deriving DecidableEq

/-- The blocking calls of a drainer. -/
inductive DCall
  /-- `suspenders_chan_recv` -/
  | recv
  /-- `s_queue_lock` before the task -/
  | enter
  /-- `s_queue_lock` after the task -/
  | leave
  /-- `suspenders_cond_wait` -/
  | cond (ph : Phase)
  deriving DecidableEq

/-- The wait lists of the drainers. -/
inductive WaitList
  /-- `receivers` of the channel -/
  | receivers
  /-- `waiters` of the mutex -/
  | mutex
  /-- `waiters` of the condition variable -/
  | cond
  deriving DecidableEq

/-- Where a drainer is in `s_queue_drainer`. -/
inductive DPc
  /-- There is no such drainer. -/
  | none
  /-- Before the entry checks of a blocking call. -/
  | pre (c : DCall)
  /-- Before its critical section. -/
  | cs (c : DCall)
  /-- In `s_wait_block`. -/
  | blk (c : DCall)
  /-- A task is received. -/
  | got
  /-- Before the test of a loop, with the mutex. -/
  | test (ph : Phase)
  /-- In `suspenders_cond_wait`, parked, before the unlock. -/
  | condUnlock (ph : Phase)
  /-- In `suspenders_cond_wait`, before a lock attempt of `s_mutex_lock_raw`. -/
  | relock (ph : Phase)
  /-- In the wait loop of `s_mutex_lock_raw`. -/
  | relockBlk (ph : Phase)
  /-- Before the unlock in front of the task. -/
  | unlock
  /-- In `t.fn(t.arg)`. -/
  | body
  /-- With the mutex again, before `active` or `barrier_pending` is changed. -/
  | release
  /-- Before `suspenders_cond_broadcast`. -/
  | broadcast
  /-- Before the unlock behind the task. -/
  | unlockEnd
  /-- Before the test of `t.sync_wg`. -/
  | finish
  /-- Before `s_queue_work_end`. -/
  | workEnd
  /-- The loop is left, before `suspenders_waitgroup_done`. -/
  | exit
  | exited
  deriving DecidableEq

/-- The blocking calls of a submission. -/
inductive CCall
  /-- `suspenders_chan_send` -/
  | send
  /-- `suspenders_waitgroup_wait` in `suspenders_queue_sync` -/
  | sync
  deriving DecidableEq

/-- Where a submission is. -/
inductive CPc
  /-- Not called yet. -/
  | none
  /-- In `s_queue_submit`, before the counter is incremented. -/
  | submit
  /-- Before the critical section of `suspenders_chan_try_send`. -/
  | try
  /-- Before the entry checks of a blocking call. -/
  | pre (c : CCall)
  /-- Before its critical section. -/
  | cs (c : CCall)
  /-- In `s_wait_block`. -/
  | blk (c : CCall)
  /-- The send has failed, before `s_queue_work_end`. -/
  | fail (st : Code)
  /-- Before the return. -/
  | ret (st : Code)
  | returned (st : Code)
  deriving DecidableEq

/-- Where `suspenders_queue_destroy` is. -/
inductive XPc
  /-- Not called yet. -/
  | none
  /-- Before `suspenders_chan_close`; `co` says whether a coroutine called it. -/
  | close (co : Bool)
  /-- Before the entry checks of `suspenders_waitgroup_wait`. -/
  | pre
  /-- Before its critical section. -/
  | cs
  /-- In `s_wait_block`. -/
  | blk
  /-- The queue is on the list of orphans. -/
  | orphaned
  /-- The queue is freed. -/
  | returned
  deriving DecidableEq

/-- What `suspenders_queue_create` is called with, and what the system gives it. -/
structure Config where
  /-- The argument `concurrency`. -/
  concurrency : ℕ
  unsigned : concurrency < 2 ^ 32
  /-- How many of the spawns succeed; this becomes `q->concurrency`. -/
  spawned : ℕ
  pos : 0 < spawned
  le : spawned ≤ max concurrency 1
  /-- `SUSPENDERS_QUEUE_CAP` -/
  cap : ℕ

/-- The conversion of an `unsigned` to an `int`. -/
def toInt (n : ℕ) : ℤ := (n : ℤ).bmod (2 ^ 32)

/-- `count` of a wait group after `suspenders_waitgroup_add`. -/
def waitgroupAdd (count delta : ℤ) : ℤ := if count + delta < 0 then count else count + delta

/-- `drain_wg` after `suspenders_queue_create`: it is counted up once, and down for every spawn that fails. -/
def Config.drainWg (cfg : Config) : ℤ :=
  (fun k => waitgroupAdd k (-1))^[max cfg.concurrency 1 - cfg.spawned]
    (waitgroupAdd 0 (toInt (max cfg.concurrency 1)))

/-- A queue and its users. -/
structure State where
  /-- The buffer of the channel, the oldest task first. -/
  buf : List TaskId
  /-- `senders` of the channel -/
  senders : List TaskId
  /-- `closed` of the channel -/
  closed : Bool
  /-- The lists of parked drainers. -/
  parked : WaitList → List DrainerId
  /-- `owner` of the mutex -/
  owner : Option DrainerId
  /-- `active` -/
  active : ℕ
  /-- `barrier_pending` -/
  barrierPending : Bool
  /-- `count` of `drain_wg` -/
  drainWg : ℤ
  /-- `count` of the wait group on the stack of each `suspenders_queue_sync` -/
  syncWg : TaskId → ℤ
  /-- `s_queue_work` -/
  work : ℕ
  /-- The drainers. -/
  dpc : DrainerId → DPc
  /-- The submissions. -/
  cpc : TaskId → CPc
  /-- The destroyer. -/
  xpc : XPc
  /-- The wait nodes. -/
  node : Actor → Status
  /-- `cancel_requested` -/
  cancel : Actor → Bool
  /-- The deadlines. -/
  deadline : Actor → Deadline
  /-- The tasks as they are submitted. -/
  task : TaskId → Task
  /-- Whether a coroutine submits. -/
  co : TaskId → Bool
  /-- The variable `t` of each drainer. -/
  hand : DrainerId → Option TaskId
  /-- The tasks whose send has succeeded, in this order. -/
  accepted : List TaskId
  /-- The calls of `t.fn`, in this order. -/
  started : List (DrainerId × TaskId)
  /-- The tasks whose function has returned, in this order. -/
  finished : List TaskId

namespace State

/-- After `suspenders_queue_create`. -/
def create (cfg : Config) : State where
  buf := []
  senders := []
  closed := false
  parked := fun _ => []
  owner := none
  active := 0
  barrierPending := false
  drainWg := cfg.drainWg
  syncWg := fun _ => 0
  work := 0
  dpc := fun d => if d < cfg.spawned then .pre .recv else .none
  cpc := fun _ => .none
  xpc := .none
  node := fun _ => .decided .ok
  cancel := fun _ => false
  deadline := fun _ => .none
  task := fun _ => ⟨false, false⟩
  co := fun _ => false
  hand := fun _ => none
  accepted := []
  started := []
  finished := []

variable (s : State)

/-- Drainer `d` goes to `p`. -/
@[simp] def setD (d : DrainerId) (p : DPc) : State := { s with dpc := Function.update s.dpc d p }

/-- Submission `t` goes to `p`. -/
@[simp] def setC (t : TaskId) (p : CPc) : State := { s with cpc := Function.update s.cpc t p }

/-- The destroyer goes to `p`. -/
@[simp] def setX (p : XPc) : State := { s with xpc := p }

/-- List `l` becomes `ds`. -/
@[simp] def setList (l : WaitList) (ds : List DrainerId) : State := { s with parked := Function.update s.parked l ds }

/-- The node of `a` waits. -/
@[simp] def wait (a : Actor) : State := { s with node := Function.update s.node a .waiting }

/-- `s_wait_park` of drainer `d` on list `l` -/
@[simp] def park (d : DrainerId) (l : WaitList) : State := (s.setList l (s.parked l ++ [d])).wait (.drainer d)

/-- The waits of `as` are decided with `st`. -/
@[simp] def grant (as : List Actor) (st : Code) : State :=
  { s with node := fun a => if a ∈ as then .decided st else s.node a }

/-- A call of `a` ends with `st`; a cancel is consumed. -/
@[simp] def consume (a : Actor) (st : Code) : State :=
  { s with cancel := if st = .canceled then Function.update s.cancel a false else s.cancel }

/-- `s_pre_block` -/
def preBlock (a : Actor) : Option Code :=
  if s.cancel a = true then some .canceled
  else if s.deadline a = .expired then some .timedout
  else none

/-- The entry checks of a blocking call of drainer `d`: `suspenders_cond_wait` also checks the owner. -/
def entry (d : DrainerId) : DCall → Option Code
  | .cond _ => (s.preBlock (.drainer d)).or (if s.owner = some d then none else some .perm)
  | _ => s.preBlock (.drainer d)

/-- `suspenders_mutex_unlock` by drainer `d` -/
def mutexUnlock (d : DrainerId) : State :=
  if s.owner = some d then
    match s.parked .mutex with
    | [] => { s with owner := none }
    | e :: es => { s.setList .mutex es with owner := some e }.grant [.drainer e] .ok
  else s

/-- `suspenders_cond_broadcast` -/
def condBroadcast : State := (s.setList .cond []).grant ((s.parked .cond).map .drainer) .ok

/-- `suspenders_chan_close` -/
def chanClose : State :=
  if s.closed then s
  else { s.setList .receivers [] with closed := true, senders := [] }.grant
    (s.senders.map Actor.caller ++ (s.parked .receivers).map Actor.drainer) .closed

/-- `waiters` of `drain_wg`: only the destroyer waits. -/
def drainWaiters : List Actor := if s.xpc = .blk ∧ s.node .destroyer = .waiting then [.destroyer] else []

/-- `waiters` of the wait group of `t`: only the submission itself waits. -/
def syncWaiters (t : TaskId) : List Actor :=
  if s.cpc t = .blk .sync ∧ s.node (.caller t) = .waiting then [.caller t] else []

/-- `suspenders_waitgroup_done(&q->drain_wg)` -/
def drainDone : State :=
  { s with drainWg := waitgroupAdd s.drainWg (-1) }.grant
    (if waitgroupAdd s.drainWg (-1) = 0 then s.drainWaiters else []) .ok

/-- `suspenders_waitgroup_done(t.sync_wg)` -/
def syncDone (t : TaskId) : State :=
  { s with syncWg := Function.update s.syncWg t (waitgroupAdd (s.syncWg t) (-1)) }.grant
    (if waitgroupAdd (s.syncWg t) (-1) = 0 then s.syncWaiters t else []) .ok

/-- `s_wq_remove` of the node of `a`, from the list it is on -/
def unlink : Actor → State
  | .drainer d => { s with parked := fun l => (s.parked l).erase d }
  | .caller t => { s with senders := s.senders.erase t }
  | .destroyer => s

/-- Task `t` is accepted. -/
@[simp] def accept (t : TaskId) : State := { s with accepted := s.accepted ++ [t] }

/-- Task `t` comes into the variable of drainer `d`. -/
@[simp] def give (d : DrainerId) (t : TaskId) : State := { s with hand := Function.update s.hand d (some t) }

/-- Drainer `d` calls the function of `t`. -/
@[simp] def start (d : DrainerId) (t : TaskId) : State := { s.setD d .body with started := s.started ++ [(d, t)] }

end State

/-- Where a drainer continues when call `c` has returned `st`. -/
def DCall.after : DCall → Code → DPc
  | recv, .ok => .got
  | recv, .closed => .exit
  | recv, _ => .pre .recv
  | enter, .ok => .test .pending
  | enter, _ => .pre .enter
  | leave, .ok => .release
  | leave, _ => .pre .leave
  | cond ph, _ => .test ph

/-- Where a submission continues when call `c` has returned `st`. -/
def CCall.after (t : Task) : CCall → Code → CPc
  | send, .ok => if t.sync then .pre .sync else .ret .ok
  | send, st => .fail st
  | sync, .ok => .ret .ok
  | sync, _ => .pre .sync

/-- The task a submission makes. -/
def Call.task (c : Call) (cfg : Config) : Task where
  barrier := c.kind = .barrier ∧ 1 < cfg.spawned
  sync := c.kind = .sync

/-- Where a submission starts: with the checks of its arguments. -/
def Call.entry (c : Call) : CPc :=
  if c.null then .ret .inval
  else if c.kind = .sync ∧ c.co = false then .ret .perm
  else .submit

/-- What happens. -/
inductive Event
  /-- A step of drainer `d`. -/
  | drain (d : DrainerId)
  /-- A submission is called. -/
  | call (t : TaskId) (c : Call)
  /-- A step of submission `t`. -/
  | submit (t : TaskId)
  /-- `suspenders_queue_destroy` is called. -/
  | destroy (co : Bool)
  /-- A step of the destroyer. -/
  | destroyer
  /-- `suspenders_cancel` sets the flag of `a`. -/
  | cancel (a : Actor)
  /-- `s_waiter_wake` ends the wait of `a`. -/
  | wake (a : Actor) (st : Code)
  /-- `suspenders_deadline` -/
  | arm (a : Actor)
  /-- `suspenders_deadline(0)` -/
  | disarm (a : Actor)
  /-- The deadline of `a` passes. -/
  | expire (a : Actor)

/-- Steps of drainer `d` that change nothing but where it is. -/
inductive DStep (cfg : Config) (s : State) (d : DrainerId) : DPc → DPc → Prop
  | go {c : DCall} : s.entry d c = none → DStep cfg s d (.pre c) (.cs c)
  | recvClosed : s.buf = [] → s.senders = [] → s.closed = true →
      DStep cfg s d (.cs .recv) (DCall.after .recv .closed)
  -- the mutex is not recursive
  | lockOwn {c : DCall} : c = .enter ∨ c = .leave → s.owner = some d →
      DStep cfg s d (.cs c) (c.after .perm)
  | lock : 1 < cfg.spawned → DStep cfg s d .got (.pre .enter)
  | pending : s.barrierPending = true → DStep cfg s d (.test .pending) (.pre (.cond .pending))
  | active : 0 < s.active → DStep cfg s d (.test .active) (.pre (.cond .active))
  | alone : s.active = 0 → DStep cfg s d (.test .active) .unlock
  | relocked {ph : Phase} : s.node (.drainer d) = .decided .ok →
      DStep cfg s d (.relockBlk ph) (.test ph)
  -- canceled or timed out while locking: keep waiting for the lock
  | relockFailed {ph : Phase} {st : Code} : s.node (.drainer d) = .decided st → st ≠ .ok →
      DStep cfg s d (.relockBlk ph) (.relock ph)

/-- Steps of submission `t` that change nothing but where it is. -/
inductive CStep (cfg : Config) (s : State) (t : TaskId) : CPc → CPc → Prop
  | go {c : CCall} : s.preBlock (.caller t) = none → CStep cfg s t (.pre c) (.cs c)
  -- nobody uses a queue that is freed
  | sendClosed : s.closed = true → s.xpc ≠ .returned →
      CStep cfg s t (.cs .send) (CCall.after (s.task t) .send .closed)
  | tryClosed : s.closed = true → s.xpc ≠ .returned →
      CStep cfg s t .try (CCall.after (s.task t) .send .closed)
  | tryFull : s.closed = false → s.parked .receivers = [] → cfg.cap ≤ s.buf.length →
      CStep cfg s t .try (CCall.after (s.task t) .send .full)
  | synced : s.syncWg t = 0 → CStep cfg s t (.cs .sync) (CCall.after (s.task t) .sync .ok)
  | ret {st : Code} : CStep cfg s t (.ret st) (.returned st)

/-- One step of the queue or of one of its users. -/
inductive Step (cfg : Config) : State → Event → State → Prop
  | control {s : State} {d : DrainerId} {p : DPc} :
      DStep cfg s d (s.dpc d) p → Step cfg s (.drain d) (s.setD d p)
  | preFailed {s : State} {d : DrainerId} {c : DCall} {st : Code} :
      s.dpc d = .pre c → s.entry d c = some st →
      Step cfg s (.drain d) ((s.consume (.drainer d) st).setD d (c.after st))
  -- `suspenders_cond_wait` goes on with `s_mutex_lock_raw`, the other calls return
  | woken {s : State} {d : DrainerId} {c : DCall} {st : Code} :
      s.dpc d = .blk c → s.node (.drainer d) = .decided st →
      Step cfg s (.drain d) ((s.consume (.drainer d) st).setD d
        (match c with
          | .cond ph => .relock ph
          | c => c.after st))
  | recvPop {s : State} {d : DrainerId} {t : TaskId} {rest : List TaskId} :
      s.dpc d = .cs .recv → s.buf = t :: rest → s.senders = [] →
      Step cfg s (.drain d) (({ s with buf := rest }.give d t).setD d (DCall.after .recv .ok))
  -- the first parked sender deposits its task
  | recvRefill {s : State} {d : DrainerId} {t u : TaskId} {rest us : List TaskId} :
      s.dpc d = .cs .recv → s.buf = t :: rest → s.senders = u :: us →
      Step cfg s (.drain d)
        (((({ s with buf := rest ++ [u], senders := us }.grant [.caller u] .ok).accept u).give d t).setD d
          (DCall.after .recv .ok))
  -- without a buffer the task comes from the sender itself
  | recvDirect {s : State} {d : DrainerId} {u : TaskId} {us : List TaskId} :
      s.dpc d = .cs .recv → s.buf = [] → s.senders = u :: us →
      Step cfg s (.drain d)
        (((({ s with senders := us }.grant [.caller u] .ok).accept u).give d u).setD d (DCall.after .recv .ok))
  | recvPark {s : State} {d : DrainerId} :
      s.dpc d = .cs .recv → s.buf = [] → s.senders = [] → s.closed = false →
      Step cfg s (.drain d) ((s.park d .receivers).setD d (.blk .recv))
  | lockFree {s : State} {d : DrainerId} {c : DCall} :
      s.dpc d = .cs c → c = .enter ∨ c = .leave → s.owner = none →
      Step cfg s (.drain d) ({ s with owner := some d }.setD d (c.after .ok))
  | lockPark {s : State} {d e : DrainerId} {c : DCall} :
      s.dpc d = .cs c → c = .enter ∨ c = .leave → s.owner = some e → e ≠ d →
      Step cfg s (.drain d) ((s.park d .mutex).setD d (.blk c))
  | condPark {s : State} {d : DrainerId} {ph : Phase} :
      s.dpc d = .cs (.cond ph) →
      Step cfg s (.drain d) ((s.park d .cond).setD d (.condUnlock ph))
  | condUnlock {s : State} {d : DrainerId} {ph : Phase} :
      s.dpc d = .condUnlock ph → Step cfg s (.drain d) ((s.mutexUnlock d).setD d (.blk (.cond ph)))
  | relockFree {s : State} {d : DrainerId} {ph : Phase} :
      s.dpc d = .relock ph → s.owner = none →
      Step cfg s (.drain d) ({ s with owner := some d }.setD d (.test ph))
  | relockPark {s : State} {d e : DrainerId} {ph : Phase} :
      s.dpc d = .relock ph → s.owner = some e →
      Step cfg s (.drain d) ((s.park d .mutex).setD d (.relockBlk ph))
  | enterBarrier {s : State} {d : DrainerId} {t : TaskId} :
      s.dpc d = .test .pending → s.barrierPending = false → s.hand d = some t →
      (s.task t).barrier = true →
      Step cfg s (.drain d) ({ s with barrierPending := true }.setD d (.test .active))
  | enter {s : State} {d : DrainerId} {t : TaskId} :
      s.dpc d = .test .pending → s.barrierPending = false → s.hand d = some t →
      (s.task t).barrier = false →
      Step cfg s (.drain d) ({ s with active := s.active + 1 }.setD d .unlock)
  | start {s : State} {d : DrainerId} {t : TaskId} :
      s.dpc d = .unlock → s.hand d = some t → Step cfg s (.drain d) ((s.mutexUnlock d).start d t)
  | startSerial {s : State} {d : DrainerId} {t : TaskId} :
      s.dpc d = .got → cfg.spawned ≤ 1 → s.hand d = some t → Step cfg s (.drain d) (s.start d t)
  | bodyReturn {s : State} {d : DrainerId} {t : TaskId} :
      s.dpc d = .body → s.hand d = some t →
      Step cfg s (.drain d) ({ s with finished := s.finished ++ [t] }.setD d
        (if 1 < cfg.spawned then .pre .leave else .finish))
  | leaveBarrier {s : State} {d : DrainerId} {t : TaskId} :
      s.dpc d = .release → s.hand d = some t → (s.task t).barrier = true →
      Step cfg s (.drain d) ({ s with barrierPending := false }.setD d .broadcast)
  | leave {s : State} {d : DrainerId} {t : TaskId} :
      s.dpc d = .release → s.hand d = some t → (s.task t).barrier = false →
      Step cfg s (.drain d) ({ s with active := s.active - 1 }.setD d
        (if s.active - 1 = 0 then .broadcast else .unlockEnd))
  | broadcast {s : State} {d : DrainerId} :
      s.dpc d = .broadcast → Step cfg s (.drain d) (s.condBroadcast.setD d .unlockEnd)
  | unlockEnd {s : State} {d : DrainerId} :
      s.dpc d = .unlockEnd → Step cfg s (.drain d) ((s.mutexUnlock d).setD d .finish)
  | finish {s : State} {d : DrainerId} {t : TaskId} :
      s.dpc d = .finish → s.hand d = some t →
      Step cfg s (.drain d) ((if (s.task t).sync then s.syncDone t else s).setD d .workEnd)
  | workEnd {s : State} {d : DrainerId} :
      s.dpc d = .workEnd →
      Step cfg s (.drain d)
        ({ s with work := s.work - 1, hand := Function.update s.hand d none }.setD d (.pre .recv))
  | exit {s : State} {d : DrainerId} :
      s.dpc d = .exit → Step cfg s (.drain d) (s.drainDone.setD d .exited)
  | call {s : State} {t : TaskId} (c : Call) :
      s.cpc t = .none →
      Step cfg s (.call t c) ({ s with
        task := Function.update s.task t (c.task cfg)
        co := Function.update s.co t c.co
        syncWg := Function.update s.syncWg t (waitgroupAdd 0 1) }.setC t c.entry)
  | caller {s : State} {t : TaskId} {p : CPc} :
      CStep cfg s t (s.cpc t) p → Step cfg s (.submit t) (s.setC t p)
  | submit {s : State} {t : TaskId} :
      s.cpc t = .submit →
      Step cfg s (.submit t) ({ s with work := s.work + 1 }.setC t (if s.co t then .pre .send else .try))
  | callerPreFailed {s : State} {t : TaskId} {c : CCall} {st : Code} :
      s.cpc t = .pre c → s.preBlock (.caller t) = some st →
      Step cfg s (.submit t) ((s.consume (.caller t) st).setC t (c.after (s.task t) st))
  | callerWoken {s : State} {t : TaskId} {c : CCall} {st : Code} :
      s.cpc t = .blk c → s.node (.caller t) = .decided st →
      Step cfg s (.submit t) ((s.consume (.caller t) st).setC t (c.after (s.task t) st))
  -- the task goes to a parked drainer
  | sendHand {s : State} {t : TaskId} {d : DrainerId} {ds : List DrainerId} :
      s.cpc t = .cs .send ∨ s.cpc t = .try → s.closed = false → s.parked .receivers = d :: ds →
      Step cfg s (.submit t)
        (((((s.setList .receivers ds).give d t).grant [.drainer d] .ok).accept t).setC t
          (CCall.after (s.task t) .send .ok))
  | sendPush {s : State} {t : TaskId} :
      s.cpc t = .cs .send ∨ s.cpc t = .try → s.closed = false → s.parked .receivers = [] →
      s.buf.length < cfg.cap →
      Step cfg s (.submit t)
        (({ s with buf := s.buf ++ [t] }.accept t).setC t (CCall.after (s.task t) .send .ok))
  | sendPark {s : State} {t : TaskId} :
      s.cpc t = .cs .send → s.closed = false → s.parked .receivers = [] → cfg.cap ≤ s.buf.length →
      Step cfg s (.submit t)
        (({ s with senders := s.senders ++ [t] }.wait (.caller t)).setC t (.blk .send))
  | fail {s : State} {t : TaskId} {st : Code} :
      s.cpc t = .fail st → Step cfg s (.submit t) ({ s with work := s.work - 1 }.setC t (.ret st))
  | syncPark {s : State} {t : TaskId} :
      s.cpc t = .cs .sync → s.syncWg t ≠ 0 →
      Step cfg s (.submit t) ((s.wait (.caller t)).setC t (.blk .sync))
  | destroy {s : State} (co : Bool) :
      s.xpc = .none → Step cfg s (.destroy co) (s.setX (.close co))
  | close {s : State} {co : Bool} :
      s.xpc = .close co → Step cfg s .destroyer (s.chanClose.setX (if co then .pre else .orphaned))
  | drainPreFailed {s : State} {st : Code} :
      s.xpc = .pre → s.preBlock .destroyer = some st → Step cfg s .destroyer (s.consume .destroyer st)
  | drainGo {s : State} :
      s.xpc = .pre → s.preBlock .destroyer = none → Step cfg s .destroyer (s.setX .cs)
  | drained {s : State} : s.xpc = .cs → s.drainWg = 0 → Step cfg s .destroyer (s.setX .returned)
  | drainPark {s : State} :
      s.xpc = .cs → s.drainWg ≠ 0 → Step cfg s .destroyer ((s.wait .destroyer).setX .blk)
  | drainWoken {s : State} {st : Code} :
      s.xpc = .blk → s.node .destroyer = .decided st →
      Step cfg s .destroyer ((s.consume .destroyer st).setX (if st = .ok then .returned else .pre))
  | cancel {s : State} (a : Actor) :
      Step cfg s (.cancel a) { s with cancel := Function.update s.cancel a true }
  | wake {s : State} {a : Actor} {st : Code} :
      s.node a = .waiting → st = .canceled ∨ st = .timedout ∧ s.deadline a = .expired →
      Step cfg s (.wake a st) ((s.unlink a).grant [a] st)
  -- a drainer runs code of the user in its task only
  | arm {s : State} {a : Actor} :
      (∀ d, a = .drainer d → s.dpc d = .body) →
      Step cfg s (.arm a) { s with deadline := Function.update s.deadline a .armed }
  | disarm {s : State} {a : Actor} :
      (∀ d, a = .drainer d → s.dpc d = .body) → s.deadline a ≠ .none →
      Step cfg s (.disarm a) { s with deadline := Function.update s.deadline a .none }
  | expire {s : State} {a : Actor} :
      s.deadline a = .armed →
      Step cfg s (.expire a) { s with deadline := Function.update s.deadline a .expired }

end Suspenders.Queue
