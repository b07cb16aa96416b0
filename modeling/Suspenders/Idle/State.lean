import Mathlib.Data.List.Basic
import Suspenders.Base
import Suspenders.Lib.Run

/-!
# Idle workers

`Idle.State` is the part of the runtime that decides whether a worker sleeps: the flags `parked` and the
wake descriptors, the inboxes, the injector, the counters `active_coroutines` and `s_queue_work`, and the
timer heaps.  Every load, store, exchange and write of the park protocol is a step of its own, and so is
every load of `s_run_complete`.

What a coroutine or a task does between two of these accesses is left open: a worker that is `busy` may
put coroutines on its ready list, arm timers, spawn, submit, wake and exit in any order.
-/

namespace Suspenders.Idle

open Lib

/-- A task of a queue. -/
abbrev TaskId := ℕ

/-- The loads of `s_run_complete`. -/
inductive Load
  /-- `suspenders_ready_queue_empty()` -/
  | ready
  /-- `s_worker->inbox` -/
  | inbox
  /-- `s_injector_count` -/
  | injector
  /-- `active_coroutines` -/
  | active
  /-- `s_queue_work` -/
  | work
  /-- `suspenders_timer_heap.count` -/
  | timers
  deriving DecidableEq

/-- The order of the loads. -/
def Load.next : Load → Option Load
  | ready => some inbox
  | inbox => some injector
  | injector => some active
  | active => some work
  | work => some timers
  | timers => none

/-- The two calls of `s_run_complete`. -/
inductive Site
  /-- Before the worker parks. -/
  | loop
  /-- When `parked` is set. -/
  | park
  deriving DecidableEq

/-- Where `s_worker_loop` is. -/
inductive Loop
  /-- It has something to do, or looks for it. -/
  | busy
  /-- In `s_run_complete`, before a load. -/
  | test (site : Site) (l : Load)
  /-- Before the store of `parked`. -/
  | store
  /-- `parked` is set, before the load of `inbox`. -/
  | inbox
  /-- Before the load of `s_injector_count`. -/
  | injector
  /-- Before the load of `s_stop`. -/
  | stop
  /-- In `s_backend_wait`. -/
  | wait
  /-- Before `parked` is cleared. -/
  | woke
  /-- The loop has been left, or not been entered. -/
  | left
  deriving DecidableEq

/-- Why a worker is signalled. -/
inductive Why
  /-- By `s_inbox_wake`. -/
  | wake
  /-- By `s_spawn_impl`. -/
  | spawn
  /-- By the thread whose decrement of a counter returned 1. -/
  | last
  deriving DecidableEq

/-- Where a thread is in the code that other threads depend on. -/
inductive Pc
  | idle
  /-- In `s_inbox_wake`, before the exchange of `wake_inflight`. -/
  | exchange (c : CrId) (w : WorkerId)
  /-- In `s_inbox_wake`, before the entry is put on the inbox. -/
  | push (c : CrId) (w : WorkerId)
  /-- In `s_spawn_impl`, before the coroutine is put on the injector. -/
  | inject (c : CrId)
  /-- In `s_spawn_impl`, before the load of `s_workers[i].parked`. -/
  | scan (i : WorkerId)
  /-- In `s_worker_signal`, before the load of `parked`. -/
  | signal (w : WorkerId) (why : Why)
  /-- In `s_worker_signal`, before the write. -/
  | write (w : WorkerId) (why : Why)
  deriving DecidableEq

/-- What does not change while the runtime is up. -/
structure Config where
  /-- `s_num_workers` -/
  workers : ℕ
  pos : 0 < workers
  /-- `daemon` of each coroutine -/
  daemon : CrId → Bool

/-- The state of the runtime, as far as idle workers depend on it. -/
structure State where
  /-- The scheduler loops. -/
  loop : WorkerId → Loop
  /-- The threads. -/
  pc : Thread → Pc
  /-- `parked` -/
  parked : WorkerId → Bool
  /-- Whether the wake descriptor is readable. -/
  fd : WorkerId → Bool
  /-- `inbox`, the last entry first -/
  inbox : WorkerId → List CrId
  /-- What `s_inbox_drain` has still to deliver. -/
  drained : WorkerId → List CrId
  /-- `wake_inflight` -/
  inflight : CrId → Bool
  /-- `worker` -/
  pin : CrId → Option WorkerId
  /-- The length of the ready lists. -/
  ready : WorkerId → ℕ
  /-- `suspenders_timer_heap.count` -/
  timers : WorkerId → ℕ
  /-- All coroutines `s_spawn_impl` was called for. -/
  spawned : List CrId
  /-- The coroutines that are counted, but not yet on the injector. -/
  spawning : List CrId
  /-- The injector lists. -/
  injector : List CrId
  /-- The unfinished coroutines that are pinned. -/
  live : List CrId
  /-- `active_coroutines` -/
  active : ℕ
  /-- The tasks whose send has not returned. -/
  offered : List TaskId
  /-- The tasks in a queue. -/
  queued : List TaskId
  /-- The tasks a drainer executes. -/
  executing : List TaskId
  /-- `s_queue_work` -/
  work : ℕ
  /-- `s_stop` -/
  stop : Bool

namespace State

/-- After `suspenders_init`: the helpers are in their loops. -/
def init : State where
  loop := fun w => if w = 0 then .left else .busy
  pc := fun _ => .idle
  parked := fun _ => false
  fd := fun _ => false
  inbox := fun _ => []
  drained := fun _ => []
  inflight := fun _ => false
  pin := fun _ => none
  ready := fun _ => 0
  timers := fun _ => 0
  spawned := []
  spawning := []
  injector := []
  live := []
  active := 0
  offered := []
  queued := []
  executing := []
  work := 0
  stop := false

variable (s : State)

/-- The loop of worker `w` goes to `l`. -/
def setLoop (w : WorkerId) (l : Loop) : State := { s with loop := Function.update s.loop w l }

/-- Thread `a` goes to `p`. -/
def setPc (a : Thread) (p : Pc) : State := { s with pc := Function.update s.pc a p }

/-- The value of a load of worker 0 is zero. -/
def Zero : Load → Prop
  | .ready => s.ready 0 = 0
  | .inbox => s.inbox 0 = []
  | .injector => s.injector = []
  | .active => s.active = 0
  | .work => s.work = 0
  | .timers => s.timers 0 = 0

instance decidableZero : (l : Load) → Decidable (s.Zero l)
  | .ready => inferInstanceAs (Decidable (s.ready 0 = 0))
  | .inbox => inferInstanceAs (Decidable (s.inbox 0 = []))
  | .injector => inferInstanceAs (Decidable (s.injector = []))
  | .active => inferInstanceAs (Decidable (s.active = 0))
  | .work => inferInstanceAs (Decidable (s.work = 0))
  | .timers => inferInstanceAs (Decidable (s.timers 0 = 0))

/-- `s_run_complete` holds: all its loads, made at once, give zero. -/
def RunComplete : Prop := ∀ l, s.Zero l

/-- The thread executes a coroutine, a callback or code of the user.  The thread of worker 0 is also the
one that calls `suspenders_run`. -/
def Acting (cfg : Config) : Thread → Prop
  | .on w => w < cfg.workers ∧ (s.loop w = .busy ∨ w = 0 ∧ s.loop w = .left)
  | .ext _ => True

/-- The thread is between two operations. -/
def Free (cfg : Config) (a : Thread) : Prop := s.Acting cfg a ∧ s.pc a = .idle

/-- Worker `w` is blocked in its backend and its wake descriptor is not readable. -/
def Blocked (w : WorkerId) : Prop := s.loop w = .wait ∧ s.fd w = false

/-- The unfinished coroutines. -/
def unfinished : List CrId := s.spawning ++ s.injector ++ s.live

/-- The unfinished tasks. -/
def tasks : List TaskId := s.offered ++ s.queued ++ s.executing

end State

/-- Where a thread goes after a counter was decremented from `k`. -/
def afterDecrement (a : Thread) (k : ℕ) : Pc := if k = 1 ∧ a ≠ .on 0 then .signal 0 .last else .idle

/-- What happens. -/
inductive Event
  /-- A step of the loop of worker `w`. -/
  | loop (w : WorkerId)
  /-- `suspenders_shutdown`, up to its kicks. -/
  | shutdown
  /-- A step of worker `w` on its ready lists or on the entries of its inbox. -/
  | own (w : WorkerId)
  /-- A timer is armed. -/
  | arm (w : WorkerId)
  /-- A timer fires or is disarmed. -/
  | expire (w : WorkerId)
  /-- A step of `s_inbox_wake` or `s_worker_signal`, or of the scan of `s_spawn_impl`. -/
  | wake (a : Thread)
  /-- `s_spawn_impl` counts the coroutine. -/
  | spawn (a : Thread) (c : CrId)
  /-- `s_spawn_impl` puts the coroutine on the injector. -/
  | inject (a : Thread) (c : CrId)
  /-- `s_injector_take` -/
  | take (w : WorkerId) (c : CrId)
  /-- `suspenders_cr_exit` -/
  | exit (w : WorkerId) (c : CrId)
  /-- `s_queue_submit` counts the task. -/
  | submit (a : Thread) (t : TaskId)
  /-- The send of `s_queue_submit` succeeds. -/
  | accept (t : TaskId)
  /-- The send of `s_queue_submit` fails. -/
  | reject (a : Thread) (t : TaskId)
  /-- A drainer receives the task. -/
  | start (w : WorkerId) (t : TaskId)
  /-- `s_queue_work_end` after the task. -/
  | finish (w : WorkerId) (t : TaskId)

/-- One step of worker `w` in `s_worker_loop`, from one place to another. -/
inductive LoopStep (cfg : Config) (s : State) (w : WorkerId) : Loop → Loop → Prop
  -- nothing on the ready lists, and `s_injector_take` has returned `NULL`
  | idle : s.pc (.on w) = .idle → s.ready w = 0 → s.drained w = [] →
      LoopStep cfg s w .busy (if w = 0 then .test .loop .ready else .store)
  | broke : s.pc (.on w) = .idle → s.stop = true → LoopStep cfg s w .busy .left
  | pass {site : Site} {l l' : Load} : w = 0 → s.Zero l → l.next = some l' →
      LoopStep cfg s w (.test site l) (.test site l')
  | complete {site : Site} {l : Load} : w = 0 → s.Zero l → l.next = none →
      LoopStep cfg s w (.test site l) (if site = .loop then .left else .woke)
  | nonzero {site : Site} {l : Load} : w = 0 → ¬ s.Zero l →
      LoopStep cfg s w (.test site l) (if site = .loop then .store else .wait)
  | inbox : LoopStep cfg s w .inbox (if s.inbox w = [] then .injector else .woke)
  | injector : LoopStep cfg s w .injector (if s.injector = [] then .stop else .woke)
  | stop : LoopStep cfg s w .stop
      (if s.stop = true then .woke else if w = 0 then .test .park .ready else .wait)
  -- a timeout or I/O ends the wait
  | other : LoopStep cfg s w .wait .woke
  -- `suspenders_run` is called, not inside `suspenders_shutdown`
  | run : w = 0 → s.pc (.on w) = .idle → s.stop = false → LoopStep cfg s w .left .busy

/-- One step of the runtime. -/
inductive Step (cfg : Config) : State → Event → State → Prop
  | loop {s : State} {w : WorkerId} {l l' : Loop} :
      w < cfg.workers → s.loop w = l → LoopStep cfg s w l l' → Step cfg s (.loop w) (s.setLoop w l')
  | store {s : State} {w : WorkerId} :
      w < cfg.workers → s.loop w = .store →
      Step cfg s (.loop w) { s.setLoop w .inbox with parked := Function.update s.parked w true }
  -- the wake descriptor ends the wait, and `s_wake_drain` reads it empty
  | drainFd {s : State} {w : WorkerId} :
      w < cfg.workers → s.loop w = .wait → s.fd w = true →
      Step cfg s (.loop w) { s.setLoop w .woke with fd := Function.update s.fd w false }
  | unpark {s : State} {w : WorkerId} :
      w < cfg.workers → s.loop w = .woke →
      Step cfg s (.loop w) { s.setLoop w .busy with parked := Function.update s.parked w false }
  | shutdown {s : State} :
      s.loop 0 = .left → s.pc (.on 0) = .idle → Step cfg s .shutdown { s with stop := true }
  -- the unconditional kick
  | shutdownKick {s : State} {w : WorkerId} :
      s.stop = true → s.loop 0 = .left → w ≠ 0 →
      Step cfg s .shutdown { s with fd := Function.update s.fd w true }
  | enqueue {s : State} {w : WorkerId} :
      w < cfg.workers → (s.Acting cfg (.on w) ∨ s.loop w = .woke) →
      Step cfg s (.own w) { s with ready := Function.update s.ready w (s.ready w + 1) }
  | dequeue {s : State} {w : WorkerId} :
      w < cfg.workers → s.loop w = .busy →
      Step cfg s (.own w) { s with ready := Function.update s.ready w (s.ready w - 1) }
  | drain {s : State} {w : WorkerId} :
      w < cfg.workers → s.loop w = .busy → s.pc (.on w) = .idle → s.drained w = [] →
      Step cfg s (.own w) { s with
        inbox := Function.update s.inbox w []
        drained := Function.update s.drained w (s.inbox w).reverse }
  | deliver {s : State} {w : WorkerId} {c : CrId} {rest : List CrId} :
      w < cfg.workers → s.loop w = .busy → s.drained w = c :: rest →
      Step cfg s (.own w) { s with
        inflight := Function.update s.inflight c false
        drained := Function.update s.drained w rest }
  | arm {s : State} {w : WorkerId} :
      s.Acting cfg (.on w) →
      Step cfg s (.arm w) { s with timers := Function.update s.timers w (s.timers w + 1) }
  | expire {s : State} {w : WorkerId} :
      s.Acting cfg (.on w) →
      Step cfg s (.expire w) { s with timers := Function.update s.timers w (s.timers w - 1) }
  | wake {s : State} {a : Thread} {c : CrId} {w : WorkerId} :
      s.Free cfg a → s.pin c = some w → Step cfg s (.wake a) (s.setPc a (.exchange c w))
  | wakeDup {s : State} {a : Thread} {c : CrId} {w : WorkerId} :
      s.Acting cfg a → s.pc a = .exchange c w → s.inflight c = true →
      Step cfg s (.wake a) (s.setPc a .idle)
  | wakeFirst {s : State} {a : Thread} {c : CrId} {w : WorkerId} :
      s.Acting cfg a → s.pc a = .exchange c w → s.inflight c = false →
      Step cfg s (.wake a)
        { s.setPc a (.push c w) with inflight := Function.update s.inflight c true }
  | push {s : State} {a : Thread} {c : CrId} {w : WorkerId} :
      s.Acting cfg a → s.pc a = .push c w →
      Step cfg s (.wake a)
        { s.setPc a (.signal w .wake) with inbox := Function.update s.inbox w (c :: s.inbox w) }
  | signal {s : State} {a : Thread} {w : WorkerId} {why : Why} :
      s.Acting cfg a → s.pc a = .signal w why →
      Step cfg s (.wake a) (s.setPc a (if s.parked w = true then .write w why else .idle))
  | write {s : State} {a : Thread} {w : WorkerId} {why : Why} :
      s.Acting cfg a → s.pc a = .write w why →
      Step cfg s (.wake a) { s.setPc a .idle with fd := Function.update s.fd w true }
  | spawn {s : State} {a : Thread} {c : CrId} :
      s.Free cfg a → c ∉ s.spawned → (cfg.workers ≠ 1 ∨ ∀ w, a ≠ .on w) →
      Step cfg s (.spawn a c) { s.setPc a (.inject c) with
        spawned := c :: s.spawned
        spawning := c :: s.spawning
        active := if cfg.daemon c then s.active else s.active + 1 }
  -- a single worker keeps what it spawns
  | spawnLocal {s : State} {w : WorkerId} {c : CrId} :
      s.Free cfg (.on w) → c ∉ s.spawned → cfg.workers = 1 →
      Step cfg s (.spawn (.on w) c) { s with
        spawned := c :: s.spawned
        live := c :: s.live
        pin := Function.update s.pin c (some w)
        ready := Function.update s.ready w (s.ready w + 1)
        active := if cfg.daemon c then s.active else s.active + 1 }
  | inject {s : State} {a : Thread} {c : CrId} :
      s.Acting cfg a → s.pc a = .inject c →
      Step cfg s (.inject a c) { s.setPc a (.scan 0) with
        spawning := s.spawning.erase c
        injector := s.injector ++ [c] }
  | scan {s : State} {a : Thread} {i : WorkerId} :
      s.Acting cfg a → s.pc a = .scan i →
      Step cfg s (.wake a) (s.setPc a
        (if s.parked i = true then .signal i .spawn
         else if i + 1 < cfg.workers then .scan (i + 1) else .idle))
  | take {s : State} {w : WorkerId} {c : CrId} :
      w < cfg.workers → s.loop w = .busy → s.pc (.on w) = .idle → c ∈ s.injector →
      Step cfg s (.take w c) { s with
        injector := s.injector.erase c
        live := c :: s.live
        pin := Function.update s.pin c (some w) }
  | exit {s : State} {w : WorkerId} {c : CrId} :
      w < cfg.workers → s.loop w = .busy → s.pc (.on w) = .idle → c ∈ s.live → s.pin c = some w →
      Step cfg s (.exit w c)
        { s.setPc (.on w) (if cfg.daemon c then .idle else afterDecrement (.on w) s.active) with
          live := s.live.erase c
          active := if cfg.daemon c then s.active else s.active - 1 }
  | submit {s : State} {a : Thread} {t : TaskId} :
      s.Free cfg a → t ∉ s.tasks →
      Step cfg s (.submit a t) { s with offered := t :: s.offered, work := s.work + 1 }
  | accept {s : State} {t : TaskId} :
      t ∈ s.offered →
      Step cfg s (.accept t) { s with offered := s.offered.erase t, queued := t :: s.queued }
  | reject {s : State} {a : Thread} {t : TaskId} :
      s.Free cfg a → t ∈ s.offered →
      Step cfg s (.reject a t)
        { s.setPc a (afterDecrement a s.work) with
          offered := s.offered.erase t
          work := s.work - 1 }
  -- `d` is the drainer
  | start {s : State} {w : WorkerId} {t : TaskId} {d : CrId} :
      w < cfg.workers → s.loop w = .busy → s.pc (.on w) = .idle → t ∈ s.queued →
      d ∈ s.live → s.pin d = some w → cfg.daemon d = true →
      Step cfg s (.start w t) { s with
        queued := s.queued.erase t
        executing := t :: s.executing }
  | finish {s : State} {w : WorkerId} {t : TaskId} {d : CrId} :
      w < cfg.workers → s.loop w = .busy → s.pc (.on w) = .idle → t ∈ s.executing →
      d ∈ s.live → s.pin d = some w → cfg.daemon d = true →
      Step cfg s (.finish w t)
        { s.setPc (.on w) (afterDecrement (.on w) s.work) with
          executing := s.executing.erase t
          work := s.work - 1 }

end Suspenders.Idle
