import Suspenders.Lib.Malloc
import Suspenders.Lib.Run

/-!
# Starting and stopping the runtime

`suspenders_init` makes the backend of the calling thread, the array of the workers and their wake descriptors, and
starts a thread for every worker but the first one.  It can fail at each of these, and then undoes what it has done.
`suspenders_shutdown` stops the threads, joins them and frees everything.

The threads run from their start on: each one makes a backend of its own, loops until `s_stop` is set, and destroys
its backend.  What the main thread does before it starts the first thread and after it has joined the last one is one
step; in between every call of the system is a step of its own.

Blocks and descriptors are entries of one `Lib.Alloc`, so that what is freed or closed is never used under the same
number again.
-/

namespace Suspenders.Startup

open Lib Function

/-- What the library is built for. -/
structure Platform where
  /-- `SUSPENDERS_HAS_IOURING` -/
  iouring : Bool
  /-- `SUSPENDERS_HAS_KQUEUE`; otherwise `SUSPENDERS_HAS_POLL`. -/
  kqueue : Bool
  /-- Wake descriptors are eventfds; otherwise they are pipes. -/
  eventfd : Bool

/-! ## Backends -/

/-- A backend, with its blocks and descriptors. -/
inductive Backend
  | iouring (self ring : ℕ)
  | kqueue (self kq events : ℕ)
  | poll (self fds crs : ℕ)

/-- Which calls succeed when a backend is made. -/
structure BackendCalls where
  /-- `s_kernel_iouring_reliable` -/
  reliable : Bool
  /-- `malloc` and `io_uring_queue_init` in `s_iou_create` -/
  iou : Bool × Bool
  /-- The three calls in `s_kq_create` or `s_poll_create`. -/
  first : Bool
  second : Bool
  third : Bool

/-- `s_iou_create` -/
def iouCreate (self ring : Bool) (m : Alloc) : Option Backend × Alloc :=
  if self then
    let m₁ := m.malloc 1
    if ring then (some (.iouring m.next m₁.next), m₁.malloc 1) else (none, m₁.free m.next)
  else (none, m)

/-- `s_kq_create` -/
def kqCreate (self kq events : Bool) (m : Alloc) : Option Backend × Alloc :=
  if self then
    let m₁ := m.malloc 1
    if kq then
      let m₂ := m₁.malloc 1
      if events then (some (.kqueue m.next m₁.next m₂.next), m₂.malloc 1)
      else (none, (m₂.free m₁.next).free m.next)
    else (none, m₁.free m.next)
  else (none, m)

/-- `s_poll_create` -/
def pollCreate (self fds crs : Bool) (m : Alloc) : Option Backend × Alloc :=
  if self then
    let m₁ := m.malloc 1
    let m₂ := if fds then m₁.malloc 1 else m₁
    let m₃ := if crs then m₂.malloc 1 else m₂
    if fds && crs then (some (.poll m.next m₁.next m₂.next), m₃)
    else
      let m₄ := if fds then m₃.free m₁.next else m₃
      let m₅ := if crs then m₄.free m₂.next else m₄
      (none, m₅.free m.next)
  else (none, m)

/-- `s_backend_create` without `s_iou_create`. -/
def otherCreate (p : Platform) (o : BackendCalls) : Alloc → Option Backend × Alloc :=
  if p.kqueue then kqCreate o.first o.second o.third else pollCreate o.first o.second o.third

/-- `s_backend_create`. -/
def backendCreate (p : Platform) (o : BackendCalls) (m : Alloc) : Option Backend × Alloc :=
  if p.iouring && o.reliable then
    match iouCreate o.iou.1 o.iou.2 m with
    | (some be, m') => (some be, m')
    | (none, m') => otherCreate p o m'
  else otherCreate p o m

/-- `s_backend_destroy`. -/
def backendDestroy (be : Option Backend) (m : Alloc) : Alloc :=
  match be with
  | some (.iouring self ring) => (m.free ring).free self
  | some (.kqueue self kq events) => ((m.free kq).free events).free self
  | some (.poll self fds crs) => ((m.free fds).free crs).free self
  | none => m

/-! ## Threads -/

/-- A descriptor of a worker: 0 as `memset` leaves it, `SUSPENDERS_INVALID_SOCK`, or one that has been opened. -/
inductive Desc
  | zero
  | invalid
  | opened (id : ℕ)
  deriving DecidableEq

namespace Desc

variable (m : Alloc)

/-- `close`, of a descriptor that is not negative; 0 is not one of the library. -/
def close : Desc → Alloc
  | zero => { m with bad := true }
  | invalid => m
  | opened id => m.free id

/-- `read` or `write`; on `SUSPENDERS_INVALID_SOCK` they do nothing. -/
def use : Desc → Alloc
  | zero => { m with bad := true }
  | invalid => m
  | opened id => m.access id 1 fun _ => true

end Desc

/-- The wake descriptors of a worker. -/
structure Worker where
  wakeRd : Desc
  wakeWr : Desc

/-- Where the thread of a worker is. -/
inductive Helper
  /-- There is no thread. -/
  | none
  /-- Before `memento_thread_heap_get`. -/
  | heap
  /-- Before `s_backend_create`. -/
  | create
  /-- Before `s_worker_register_wake`. -/
  | register
  /-- At the head of `s_worker_loop`. -/
  | top
  /-- A coroutine runs, and calls the library `n` more times before it switches out. -/
  | slice (n : ℕ)
  /-- The worker is parked, before it looks for work and for `s_stop`. -/
  | parked
  /-- In `s_backend_wait`. -/
  | wait
  /-- The loop has been left. -/
  | left
  /-- The thread has returned. -/
  | exited
  deriving DecidableEq

/-- Where the main thread is. -/
inductive Main
  /-- Outside of `suspenders_init` and `suspenders_shutdown`. -/
  | out
  /-- In `suspenders_init`, before `pthread_create` for worker `i`. -/
  | starts (i : ℕ)
  /-- Worker `i` could not be started: before the `write` for worker `j`. -/
  | undoes (j i : ℕ)
  /-- And before the `pthread_join` for worker `j`. -/
  | undoJoins (j i : ℕ)
  /-- In `suspenders_shutdown`, before the `write` for worker `i`. -/
  | kicks (i : ℕ)
  /-- Before the `pthread_join` for worker `i`. -/
  | joins (i : ℕ)
  deriving DecidableEq

/-- The runtime. -/
structure Sys where
  /-- What is allocated and open. -/
  alloc : Alloc
  /-- `s_workers` -/
  workers : Option ℕ
  /-- What is in the array. -/
  cell : ℕ → Worker
  /-- `s_num_workers` -/
  numWorkers : ℕ
  /-- `s_stop` -/
  stop : Bool
  /-- `suspenders_initialized` of the main thread -/
  initialized : Bool
  /-- `suspenders_backend` of the thread of each worker. -/
  backend : ℕ → Option Backend
  /-- `suspenders_timer_heap.data` of the thread of each worker. -/
  timers : ℕ → Option ℕ
  /-- The wake descriptor of a worker has been written and not been drained. -/
  readable : ℕ → Bool
  helper : ℕ → Helper
  main : Main

/-- Nothing has been called. -/
def Sys.start : Sys where
  alloc := .start
  workers := none
  cell := fun _ => ⟨.invalid, .invalid⟩
  numWorkers := 0
  stop := false
  initialized := false
  backend := fun _ => none
  timers := fun _ => none
  readable := fun _ => false
  helper := fun _ => .none
  main := .out

/-- What a coroutine calls on a worker. -/
inductive Work
  /-- `s_worker_signal` for worker `k`, and whether it finds `parked` set. -/
  | signal (k : ℕ) (parked : Bool)
  /-- `suspenders_timer_heap_ensure_cap` has to grow the heap; the allocation may fail. -/
  | grow (ok : Bool)

/-- What a thread does. -/
inductive Act
  /-- `memento_thread_heap_get` -/
  | heap (ok : Bool)
  /-- `s_backend_create` -/
  | create (o : BackendCalls)
  /-- `s_worker_register_wake` -/
  | register
  /-- It looks at `s_stop`, and resumes a coroutine that makes `n` calls. -/
  | resume (n : ℕ)
  /-- It looks at `s_stop`, finds no coroutine, and parks. -/
  | park
  /-- The coroutine calls the library. -/
  | work (w : Work)
  /-- The coroutine switches out. -/
  | back
  /-- It looks for work and at `s_stop` while it is parked. -/
  | look (found : Bool)
  /-- The wake descriptor is readable: it is drained. -/
  | woken
  /-- `s_backend_wait` returns for another reason. -/
  | returns
  /-- What follows `s_worker_loop`. -/
  | reap

/-- Which calls of `suspenders_init` succeed before it starts threads. -/
structure InitCalls where
  /-- `memento_thread_heap_get` -/
  heap : Bool
  /-- `s_backend_create` -/
  backend : BackendCalls
  /-- `aligned_alloc` -/
  workers : Bool
  /-- `s_wake_fd_create` for worker `i` -/
  wake : ℕ → Bool

/-- A step. -/
inductive Event
  /-- `suspenders_init` is called. -/
  | init (n : ℕ) (o : InitCalls)
  /-- `pthread_create`, if there is a worker left. -/
  | create (ok : Bool)
  /-- `write` or `pthread_join`, if there is a worker left. -/
  | stops
  /-- `suspenders_shutdown` is called. -/
  | shutdown
  /-- What the main thread calls in `suspenders_run`. -/
  | work (w : Work)
  /-- The thread of worker `i`. -/
  | thread (i : ℕ) (a : Act)

namespace Sys

variable (p : Platform) (i : ℕ) (s : Sys)

/-- The entry of worker `k` in the array is accessed. -/
def touch (k : ℕ) : Alloc :=
  match s.workers with
  | some a => s.alloc.access a (k + 1) (· == k)
  | none => { s.alloc with bad := true }

/-- `s_wake_fd_create`, if it succeeds. -/
def wakeFdCreate : Sys :=
  if p.eventfd then
    { s with
      alloc := s.alloc.malloc 1
      cell := update s.cell i ⟨.opened s.alloc.next, .opened s.alloc.next⟩
      readable := update s.readable i false }
  else
    { s with
      alloc := (s.alloc.malloc 1).malloc 1
      cell := update s.cell i ⟨.opened s.alloc.next, .opened (s.alloc.malloc 1).next⟩
      readable := update s.readable i false }

/-- `s_wake_fd_destroy` -/
def wakeFdDestroy : Sys :=
  let m := (s.cell i).wakeRd.close s.alloc
  { s with
    alloc := if (s.cell i).wakeWr = (s.cell i).wakeRd then m else (s.cell i).wakeWr.close m
    cell := update s.cell i ⟨.invalid, .invalid⟩ }

/-- `s_wake_fd_destroy` for the first workers. -/
def wakesDestroy : ℕ → Sys → Sys
  | 0, s => s
  | i + 1, s => (wakesDestroy i s).wakeFdDestroy i

/-- The wake descriptors of the first workers; if one cannot be made, those before it are destroyed. -/
def wakesCreate (ok : ℕ → Bool) : ℕ → Sys → Bool × Sys
  | 0, s => (true, s)
  | i + 1, s =>
    match wakesCreate ok i s with
    | (true, s') => if ok i then (true, s'.wakeFdCreate p i) else (false, s'.wakesDestroy i)
    | (false, s') => (false, s')

/-- `s_backend_destroy(suspenders_backend)` in the thread of worker `i`. -/
def backendFree : Sys := { s with alloc := backendDestroy (s.backend i) s.alloc, backend := update s.backend i none }

/-- The timer heap of worker `i` is freed, if there is one. -/
def timersFree : Sys :=
  match s.timers i with
  | some id => { s with alloc := s.alloc.free id, timers := update s.timers i none }
  | none => s

/-- `free(s_workers)` -/
def workersFree : Sys :=
  match s.workers with
  | some a => { s with alloc := s.alloc.free a, workers := none, numWorkers := 0 }
  | none => { s with numWorkers := 0 }

/-- `suspenders_init`, up to the first thread. -/
def init (n : ℕ) (o : InitCalls) : Sys :=
  if o.heap then
    let (be, m) := backendCreate p o.backend s.alloc
    let s₁ := { s with alloc := m, backend := update s.backend 0 be }
    if be.isSome then
      let n := if n = 0 then 1 else n
      let s₂ := { s₁ with stop := false, workers := none }
      if o.workers then
        let s₃ := { s₂ with
          alloc := s₂.alloc.malloc n, workers := some s₂.alloc.next, cell := fun _ => ⟨.zero, .zero⟩, numWorkers := n }
        match wakesCreate p o.wake n s₃ with
        | (true, s₄) => { s₄ with alloc := (s₄.cell 0).wakeRd.use (s₄.touch 0), main := .starts 1 }
        | (false, s₄) => s₄.workersFree.backendFree 0
      else s₂.backendFree 0
    else s₁
  else s

/-- `suspenders_init` from `pthread_create` for worker `i` on. -/
def create (ok : Bool) : Sys :=
  if i < s.numWorkers then
    if ok then { s with alloc := s.touch i, helper := update s.helper i .heap, main := .starts (i + 1) }
    else { s with alloc := s.touch i, stop := true, main := .undoes 1 i }
  else { s with initialized := true, main := .out }

/-- `write(s_workers[i].wake_wr, ..)` -/
def kick : Sys :=
  { s with alloc := (s.cell i).wakeWr.use (s.touch i), readable := update s.readable i true }

/-- The end of `suspenders_init` when a thread could not be started. -/
def undone : Sys :=
  { ((s.wakesDestroy s.numWorkers).workersFree.backendFree 0) with stop := false, main := .out }

/-- The end of `suspenders_shutdown`. -/
def down : Sys :=
  let s₁ := (s.backendFree 0).timersFree 0
  let s₂ := if s₁.workers.isSome then (s₁.wakesDestroy s₁.numWorkers).workersFree else { s₁ with numWorkers := 0 }
  { s₂ with stop := false, initialized := false, main := .out }

/-- A call of the library by the coroutine that worker `i` runs. -/
def work : Work → Sys
  | .signal k parked =>
    if k < s.numWorkers then if parked then s.kick k else { s with alloc := s.touch k } else s
  | .grow ok =>
    if ok then
      { s with
        alloc := match s.timers i with
          | some id => (s.alloc.malloc 1).free id
          | none => s.alloc.malloc 1
        timers := update s.timers i (some s.alloc.next) }
    else s

/-- The thread of worker `i` goes on at `h`. -/
def goto (h : Helper) : Sys := { s with helper := update s.helper i h }

/-- The same, after it has looked at its entry in the array. -/
def gotoTouch (h : Helper) : Sys := { s with alloc := s.touch i, helper := update s.helper i h }

/-- `s_worker_thread_main`. -/
def thread (i : ℕ) (a : Act) : Option Sys :=
  match s.helper i, a with
  | .heap, .heap ok => some (s.goto i (if ok then .create else .exited))
  | .create, .create o =>
    let (be, m) := backendCreate p o s.alloc
    some ({ s with alloc := m, backend := update s.backend i be }.goto i (if be.isSome then .register else .exited))
  | .register, .register =>
    some { s with alloc := (s.cell i).wakeRd.use (s.touch i), helper := update s.helper i .top }
  | .top, .resume n => some (s.gotoTouch i (if s.stop then .left else .slice n))
  | .top, .park => some (s.gotoTouch i (if s.stop then .left else .parked))
  | .slice (n + 1), .work w => some ((s.work i w).goto i (.slice n))
  | .slice 0, .back => some (s.goto i .top)
  | .parked, .look found => some (s.gotoTouch i (if found || s.stop then .top else .wait))
  | .wait, .woken =>
    if s.readable i then
      some { s with
        alloc := (s.cell i).wakeRd.use (s.touch i), readable := update s.readable i false,
        helper := update s.helper i .top }
    else none
  | .wait, .returns => some (s.gotoTouch i .top)
  | .left, .reap => some (((s.timersFree i).backendFree i).goto i .exited)
  | _, _ => none

/-- The step that an event is. -/
def step (e : Event) : Option Sys :=
  match e, s.main with
  | .init n o, .out => some (s.init p n o)
  | .create ok, .starts i => some (s.create i ok)
  | .stops, .undoes j i => some (if j < i then { s.kick j with main := .undoJoins j i } else s.undone)
  | .stops, .undoJoins j i =>
    if s.helper j = .exited then some { s.goto j .none with alloc := s.touch j, main := .undoes (j + 1) i } else none
  | .shutdown, .out => some (if s.initialized then { s with stop := true, main := .kicks 1 } else s)
  | .stops, .kicks i =>
    some (if i < s.numWorkers then { s.kick i with main := .kicks (i + 1) } else { s with main := .joins 1 })
  | .stops, .joins i =>
    if i < s.numWorkers then
      if s.helper i = .exited then some { s.goto i .none with alloc := s.touch i, main := .joins (i + 1) } else none
    else some s.down
  | .work w, .out => if s.initialized then some (s.work 0 w) else none
  | .thread i a, _ => s.thread p i a
  | _, _ => none

end Sys

/-- The steps: `suspenders_init` is only called when the runtime is down. -/
abbrev Step (p : Platform) : Sys → Event → Sys → Prop :=
  Restrict (StepOf (Sys.step p)) fun s e _ => ∀ n o, e = .init n o → s.initialized = false

end Suspenders.Startup
