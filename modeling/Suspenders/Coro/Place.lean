import Mathlib.Data.List.Count
import Suspenders.Base
import Suspenders.Lib.Run

/-!
# Where a coroutine is

The injector, the ready lists and the zombie lists all run through the one link `next` of a coroutine.
`Coro.State` has these lists, the field `state` that says in which of them a coroutine should be, and the
code that moves it: spawn, first run, switches, exit, and the wakes.  A wake looks at `worker` first and
then, up to three times, at `state`; these loads are steps of their own.

Which coroutine is woken when, and why, is left open here.
-/

namespace Suspenders.Coro

open Lib

/-- The lists that run through `next`. -/
inductive Place
  /-- `s_injector_heads[q]` -/
  | injector (q : Fin 4)
  /-- `ready_queue_heads[q]` of a thread -/
  | ready (a : Thread) (q : Fin 4)
  /-- `s_zombies` of a worker -/
  | zombies (w : WorkerId)
  deriving DecidableEq

/-- Where a thread is in a wake. -/
inductive Pc
  | idle
  /-- `worker` of `c` was `read`; before the load of `state` that is compared with `x`. -/
  | test (c : CrId) (read : Option WorkerId) (x : CrState)
  /-- In `s_inbox_wake`, before the exchange of `wake_inflight`. -/
  | exchange (c : CrId) (w : WorkerId)
  /-- In `s_inbox_wake`, before the entry is put on the inbox. -/
  | push (c : CrId) (w : WorkerId)
  deriving DecidableEq

/-- Where `s_worker_loop` is. -/
inductive Loop
  /-- At its head, or in timer and I/O callbacks. -/
  | top
  /-- In `s_inbox_drain`, with these entries left. -/
  | drain (rest : List CrId)
  /-- In `s_inbox_drain`, before `s_inbox_deliver(c)`. -/
  | deliver (c : CrId) (rest : List CrId)
  /-- Back from coroutine `c`, before the test of its `pending_wake`. -/
  | post (c : CrId)
  deriving DecidableEq

/-- What `s_inbox_deliver` finds. -/
inductive Delivery
  /-- No cancel, or one that neither ends a wait nor finds an operation in flight. -/
  | plain
  /-- `s_waiter_wake` has ended the wait with a cancel. -/
  | decided
  /-- A cancel was passed on to the operation in flight. -/
  | inOp
  deriving DecidableEq

/-- The scheduling state. -/
structure State where
  /-- `state`; `none` if there is no such coroutine yet -/
  state : CrId → Option CrState
  /-- `worker` -/
  pin : CrId → Option WorkerId
  /-- `effective_qos`, clamped -/
  eff : CrId → Fin 4
  /-- The lists. -/
  lists : Place → List CrId
  /-- `suspenders_running`, unless it is the scheduler's own context -/
  running : WorkerId → Option CrId
  /-- The scheduler loops. -/
  loop : WorkerId → Loop
  /-- The threads. -/
  pc : Thread → Pc
  /-- `inbox`, the last entry first -/
  inbox : WorkerId → List CrId
  /-- `wake_inflight` -/
  inflight : CrId → Bool
  /-- `pending_wake` -/
  pendingWake : CrId → Bool
  /-- `cancel_requested` -/
  cancelReq : CrId → Bool
  /-- The coroutines whose memory is freed. -/
  freed : CrId → Bool

namespace State

/-- After `suspenders_init`. -/
def init : State where
  state := fun _ => none
  pin := fun _ => none
  eff := fun _ => ⟨0, by decide⟩
  lists := fun _ => []
  running := fun _ => none
  loop := fun _ => .top
  pc := fun _ => .idle
  inbox := fun _ => []
  inflight := fun _ => false
  pendingWake := fun _ => false
  cancelReq := fun _ => false
  freed := fun _ => false

variable (s : State)

/-- The state of `c` becomes `x`. -/
def setState (c : CrId) (x : CrState) : State := { s with state := Function.update s.state c (some x) }

/-- Coroutine `c` is put at the end of list `p`. -/
def append (p : Place) (c : CrId) : State :=
  { s with lists := Function.update s.lists p (s.lists p ++ [c]) }

/-- Thread `a` goes to `p`. -/
def setPc (a : Thread) (p : Pc) : State := { s with pc := Function.update s.pc a p }

/-- The loop of worker `w` goes to `l`. -/
def setLoop (w : WorkerId) (l : Loop) : State := { s with loop := Function.update s.loop w l }

/-- `suspenders_ready_enqueue` on thread `a`. -/
def enqueue (a : Thread) (c : CrId) : State := (s.setState c .ready).append (.ready a (s.eff c)) c

/-- The switch to coroutine `c` on worker `w`. -/
def switchTo (w : WorkerId) (c : CrId) : State :=
  { s.setState c .running with running := Function.update s.running w (some c) }

/-- The switch back to the loop of worker `w` from coroutine `c`. -/
def switchOut (w : WorkerId) (c : CrId) : State :=
  { s.setLoop w (.post c) with running := Function.update s.running w none }

/-- `s_inbox_deliver` on worker `w`. -/
def deliver (w : WorkerId) (c : CrId) : Delivery → State
  | .plain =>
    if s.state c = some .suspended then s.enqueue (.on w) c
    else if s.state c = some .done then s
    else { s with pendingWake := Function.update s.pendingWake c true }
  | .decided => if s.state c = some .suspended then s.enqueue (.on w) c else s
  | .inOp => s

/-- The test of `pending_wake` when coroutine `c` has switched out. -/
def post (w : WorkerId) (c : CrId) (d : Delivery) : State :=
  if s.pendingWake c = true ∧ s.state c ≠ some .done then
    { s with pendingWake := Function.update s.pendingWake c false }.deliver w c d
  else s

/-- Where a wake of `c` by thread `a` goes after its load of `worker`. -/
def route (a : Thread) (c : CrId) : Pc :=
  match s.pin c with
  | none => .test c none .running
  | some w => if a.worker = some w then .test c (some w) .running else .exchange c w

/-- One load of `state` in a wake by thread `a`, compared with `x`; after the last one the coroutine is
put on the ready list of the thread. -/
def test (a : Thread) (c : CrId) (read : Option WorkerId) (x : CrState) : State :=
  if s.state c = some x then s.setPc a .idle
  else match x with
    | .running => s.setPc a (.test c read .ready)
    | .ready => s.setPc a (.test c read .done)
    | _ => (s.enqueue a c).setPc a .idle

/-- The scheduler of worker `w` is at `l`, and no coroutine runs. -/
def AtLoop (w : WorkerId) (l : Loop) : Prop :=
  s.running w = none ∧ s.loop w = l ∧ s.pc (.on w) = .idle

/-- Coroutine `c` runs on worker `w` and is in no wake. -/
def Runs (w : WorkerId) (c : CrId) : Prop := s.running w = some c ∧ s.pc (.on w) = .idle

end State

/-- What happens. -/
inductive Event
  /-- `s_spawn_impl` -/
  | spawn (a : Thread) (c : CrId)
  /-- `s_injector_take` and the switch to the coroutine. -/
  | take (w : WorkerId) (c : CrId)
  /-- `suspenders_ready_dequeue` and the switch to the coroutine. -/
  | dequeue (w : WorkerId) (c : CrId)
  /-- `suspenders_yield`, or a preemption at the end of a wake. -/
  | yield (w : WorkerId) (c : CrId)
  /-- `suspenders_suspend` -/
  | suspend (w : WorkerId) (c : CrId)
  /-- `suspenders_cr_exit` -/
  | exit (w : WorkerId) (c : CrId)
  /-- The test of `pending_wake`, or a step of `s_inbox_drain`. -/
  | inbox (w : WorkerId)
  /-- A timer or the completion of I/O wakes a coroutine of worker `w`. -/
  | callback (w : WorkerId) (c : CrId)
  /-- `suspenders_resume` or `s_wake_no_preempt` loads `worker`. -/
  | load (a : Thread) (c : CrId)
  /-- It loads `state`. -/
  | test (a : Thread)
  /-- A step of `s_inbox_wake`. -/
  | route (a : Thread)
  /-- `cancel_requested` is set or cleared. -/
  | cancel (c : CrId)
  /-- `effective_qos` changes. -/
  | boost (c : CrId)
  /-- `s_zombie_reap` -/
  | reap (w : WorkerId)

/-- One step of a runtime with `n` workers. -/
inductive Step (n : ℕ) : State → Event → State → Prop
  | spawn {s : State} {a : Thread} {c : CrId} {q : Fin 4} :
      s.pc a = .idle → s.state c = none → (n ≠ 1 ∨ a.worker = none) →
      Step n s (.spawn a c)
        ({ s.setState c .ready with eff := Function.update s.eff c q }.append (.injector q) c)
  -- a single worker keeps what it spawns
  | spawnLocal {s : State} {w : WorkerId} {c : CrId} {q : Fin 4} :
      s.pc (.on w) = .idle → s.state c = none → n = 1 → w < n →
      Step n s (.spawn (.on w) c)
        ({ s with eff := Function.update s.eff c q, pin := Function.update s.pin c (some w) }.enqueue
          (.on w) c)
  | take {s : State} {w : WorkerId} {c : CrId} {q : Fin 4} {rest : List CrId} :
      w < n → s.AtLoop w .top → (∀ q, s.lists (.ready (.on w) q) = []) →
      s.lists (.injector q) = c :: rest → (∀ q' < q, s.lists (.injector q') = []) →
      -- a cancel that came before the pin is carried as a pending wake
      Step n s (.take w c) ({ s with
        lists := Function.update s.lists (.injector q) rest
        pin := Function.update s.pin c (some w)
        pendingWake := Function.update s.pendingWake c (s.pendingWake c || s.cancelReq c) }.switchTo w c)
  | dequeue {s : State} {w : WorkerId} {c : CrId} {q : Fin 4} {rest : List CrId} :
      w < n → s.AtLoop w .top → s.lists (.ready (.on w) q) = c :: rest →
      (∀ q' < q, s.lists (.ready (.on w) q') = []) →
      Step n s (.dequeue w c)
        ({ s with lists := Function.update s.lists (.ready (.on w) q) rest }.switchTo w c)
  | yield {s : State} {w : WorkerId} {c : CrId} :
      s.Runs w c → Step n s (.yield w c) ((s.enqueue (.on w) c).switchOut w c)
  | suspend {s : State} {w : WorkerId} {c : CrId} :
      s.Runs w c →
      Step n s (.suspend w c)
        ((if s.state c = some .running then s.setState c .suspended else s).switchOut w c)
  | exit {s : State} {w : WorkerId} {c : CrId} :
      s.Runs w c →
      Step n s (.exit w c) { (s.setState c .done).switchOut w c with
        lists := Function.update s.lists (.zombies w) (c :: s.lists (.zombies w)) }
  | post {s : State} {w : WorkerId} {c : CrId} {d : Delivery} :
      s.AtLoop w (.post c) → (d ≠ .plain → s.cancelReq c = true) →
      Step n s (.inbox w) ((s.post w c d).setLoop w .top)
  | drain {s : State} {w : WorkerId} :
      s.AtLoop w .top →
      -- the stack is reversed
      Step n s (.inbox w) { s.setLoop w (.drain (s.inbox w).reverse) with
        inbox := Function.update s.inbox w [] }
  | pop {s : State} {w : WorkerId} {c : CrId} {rest : List CrId} :
      s.AtLoop w (.drain (c :: rest)) →
      Step n s (.inbox w) { s.setLoop w (.deliver c rest) with
        inflight := Function.update s.inflight c false }
  | deliver {s : State} {w : WorkerId} {c : CrId} {rest : List CrId} {d : Delivery} :
      s.AtLoop w (.deliver c rest) → (d ≠ .plain → s.cancelReq c = true) →
      Step n s (.inbox w) ((s.deliver w c d).setLoop w (.drain rest))
  | drained {s : State} {w : WorkerId} :
      s.AtLoop w (.drain []) → Step n s (.inbox w) (s.setLoop w .top)
  | callback {s : State} {w : WorkerId} {c : CrId} :
      s.AtLoop w .top → s.pin c = some w → s.state c = some .suspended →
      Step n s (.callback w c) (s.enqueue (.on w) c)
  | load {s : State} {a : Thread} {c : CrId} :
      s.pc a = .idle → s.state c ≠ none → Step n s (.load a c) (s.setPc a (s.route a c))
  | test {s : State} {a : Thread} {c : CrId} {read : Option WorkerId} {x : CrState} :
      s.pc a = .test c read x → Step n s (.test a) (s.test a c read x)
  | exchange {s : State} {a : Thread} {c : CrId} {w : WorkerId} :
      s.pc a = .exchange c w →
      Step n s (.route a) { s.setPc a (if s.inflight c then .idle else .push c w) with
        inflight := Function.update s.inflight c true }
  | push {s : State} {a : Thread} {c : CrId} {w : WorkerId} :
      s.pc a = .push c w →
      Step n s (.route a) { s.setPc a .idle with
        inbox := Function.update s.inbox w (c :: s.inbox w) }
  | cancel {s : State} {a : Thread} {c : CrId} :
      s.pc a = .idle → s.state c ≠ none →
      Step n s (.cancel c) { s with cancelReq := Function.update s.cancelReq c true }
  | consume {s : State} {w : WorkerId} {c : CrId} :
      s.Runs w c → Step n s (.cancel c) { s with cancelReq := Function.update s.cancelReq c false }
  | boost {s : State} {c : CrId} {q : Fin 4} :
      Step n s (.boost c) { s with eff := Function.update s.eff c q }
  | reap {s : State} {w : WorkerId} :
      s.AtLoop w .top → Step n s (.reap w) { s with
        lists := Function.update s.lists (.zombies w) []
        freed := fun c => s.freed c || (s.lists (.zombies w)).contains c }

end Suspenders.Coro
