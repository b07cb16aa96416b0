import Mathlib.Data.Int.Notation
import Suspenders.Coro.Place

/-!
# Waiting for a socket to become ready

On a readiness backend (poll, WSAPoll, kqueue) `s_io_wait_ready` registers the descriptor, suspends once, and takes
every wake that leaves `io_result` alone for the report of the backend.  `s_io_connect` then reads `SO_ERROR`, which
is 0 as long as the connection is still being made.

`Waits` puts these two functions on top of the scheduler of `Coro.State`, with every source of wakes there is for a
suspended coroutine: reports, timers, cancels, resumes from its own and from other workers, and wakes on record.
`Stray` names the wakes that are neither a report of the descriptor nor marked in `io_result`.
-/

namespace Suspenders.Io

open Lib Coro

/-- The events `s_io_wait_ready` is called with. -/
inductive Interest
  /-- `POLLIN` -/
  | pollin
  /-- `POLLOUT` -/
  | pollout
  deriving DecidableEq

/-- The readiness backends. -/
inductive Backend
  /-- `poll` or `WSAPoll` -/
  | poll
  /-- `kqueue` -/
  | kqueue
  deriving DecidableEq

/-- What a backend holds for a wait. -/
structure Registration where
  /-- The descriptor. -/
  fd : ℤ
  /-- What is asked for. -/
  events : Interest
  /-- For whom. -/
  cr : CrId
  deriving DecidableEq

/-- `io_result` of a coroutine. -/
inductive IoResult
  /-- 0 -/
  | ok
  /-- -1 -/
  | canceled
  /-- -2 -/
  | timedout
  deriving DecidableEq

/-- What `connect(2)` returns. -/
inductive ConnectResult
  /-- 0 -/
  | ok
  /-- -1 with `EINPROGRESS` or `EWOULDBLOCK` -/
  | inProgress
  /-- -1 with another error -/
  | failed
  deriving DecidableEq

/-- Who has called `s_io_wait_ready`. -/
inductive Caller
  /-- `s_io_connect` -/
  | connect
  /-- `s_io_recv`, `s_io_send`, `s_io_accept` and the others that try again afterwards. -/
  | retrying
  deriving DecidableEq

/-- Where a coroutine is. -/
inductive IoPc
  /-- In none of these functions. -/
  | out
  /-- In `s_io_connect`, before `s_io_wait_ready`. -/
  | connecting (fd : ℤ)
  /-- In `s_io_wait_ready`, from `suspenders_suspend` on. -/
  | waiting (fd : ℤ) (events : Interest) (k : Caller)
  /-- In `s_io_connect`, before `getsockopt`. -/
  | check (fd : ℤ)
  deriving DecidableEq

/-- In `s_io_wait_ready`, and registered. -/
def IoPc.isWaiting : IoPc → Bool
  | waiting _ _ _ => true
  | _ => false

/-- Coroutines that wait for sockets. -/
structure Waits where
  /-- The scheduling state. -/
  co : Coro.State
  /-- The backend of each worker. -/
  regs : WorkerId → List Registration
  /-- `io_result` -/
  ioResult : CrId → IoResult
  /-- Where each coroutine is. -/
  pc : CrId → IoPc
  /-- History: the backend has reported the descriptor of the coroutine's last wait since that wait began. -/
  reported : CrId → Bool

/-- What happens. -/
inductive IoEvent
  /-- Something of the scheduler's. -/
  | sched (e : Coro.Event)
  /-- `suspenders_cancel` on the worker of the coroutine. -/
  | cancelLocal (w : WorkerId) (c : CrId)
  /-- `s_io_timeout_cb` or `s_deadline_cb` -/
  | timeout (w : WorkerId) (c : CrId)
  /-- The wait of worker `w`'s backend reports a registration. -/
  | report (w : WorkerId) (r : Registration)
  /-- `s_io_pre` of `s_io_connect` fails. -/
  | refuse (w : WorkerId) (c : CrId)
  /-- `s_io_connect` up to `connect(2)`. -/
  | connect (w : WorkerId) (c : CrId) (fd : ℤ) (r : ConnectResult)
  /-- `s_io_wait_ready` up to `suspenders_suspend`; `registered` is what `s_backend_register` says. -/
  | waitReady (w : WorkerId) (c : CrId) (fd : ℤ) (events : Interest) (registered : Bool)
  /-- The rest of `s_io_wait_ready`; it returns 0 if `r` is `ok`. -/
  | complete (w : WorkerId) (c : CrId) (r : IoResult)
  /-- The rest of `s_io_connect`, which reads `err` from `SO_ERROR`; it returns 0 if `err` is 0. -/
  | sockError (w : WorkerId) (c : CrId) (err : ℕ)

namespace Backend

/-- `s_poll_register` or `s_kq_register`, if they succeed.  A second filter of a descriptor replaces the first. -/
def register (r : Registration) (rs : List Registration) : Backend → List Registration
  | poll => rs ++ [r]
  | kqueue => rs.filter (fun r' => ¬ (r'.fd = r.fd ∧ r'.events = r.events)) ++ [r]

/-- `s_poll_unregister` or `s_kq_unregister`. -/
def unregister (fd : ℤ) (rs : List Registration) : Backend → List Registration
  | poll => rs.filter (fun r => r.fd ≠ fd)
  | kqueue => rs

end Backend

namespace Waits

/-- After `suspenders_init`. -/
def init : Waits where
  co := .init
  regs := fun _ => []
  ioResult := fun _ => .ok
  pc := fun _ => .out
  reported := fun _ => false

variable (s : Waits)

/-- Coroutine `c` is suspended in `s_io_wait_ready`. -/
def Asleep (c : CrId) : Prop := (s.pc c).isWaiting = true ∧ s.co.state c = some .suspended

instance (c : CrId) : Decidable (s.Asleep c) := inferInstanceAs (Decidable (_ ∧ _))

/-- The wake of a coroutine with a mark in `io_result`. -/
def wake (w : WorkerId) (c : CrId) (r : IoResult) : Waits :=
  { s with co := s.co.enqueue (.on w) c, ioResult := Function.update s.ioResult c r }

/-- `io_result` after worker `w` has drained an entry or tested `pending_wake`, which led to `co`: a coroutine made
ready while its cancel is requested is marked. -/
def delivered (co : Coro.State) (c : CrId) : IoResult :=
  if s.Asleep c ∧ s.co.cancelReq c = true ∧ co.state c = some .ready then .canceled else s.ioResult c

/-- What `s_io_connect` does after `connect(2)`. -/
def afterConnect (c : CrId) (fd : ℤ) : ConnectResult → Waits
  | .inProgress => { s with pc := Function.update s.pc c (.connecting fd) }
  | .ok | .failed => s

/-- What `s_io_wait_ready` does up to the switch to the scheduler. -/
def park (be : Backend) (w : WorkerId) (c : CrId) (fd : ℤ) (events : Interest) (k : Caller) : Waits where
  co := (if s.co.state c = some .running then s.co.setState c .suspended else s.co).switchOut w c
  regs := Function.update s.regs w (be.register ⟨fd, events, c⟩ (s.regs w))
  ioResult := Function.update s.ioResult c .ok
  pc := Function.update s.pc c (.waiting fd events k)
  reported := Function.update s.reported c false

/-- The end of `s_io_wait_ready`: where the coroutine goes. -/
def after (fd : ℤ) : Caller → IoResult → IoPc
  | .connect, .ok => .check fd
  | _, _ => .out

/-- The rest of `s_io_wait_ready`, after the switch back. -/
def finish (be : Backend) (w : WorkerId) (c : CrId) (fd : ℤ) (k : Caller) : Waits :=
  { s with
    co := if s.ioResult c = .canceled then
        { s.co with cancelReq := Function.update s.co.cancelReq c false } else s.co
    regs := Function.update s.regs w (be.unregister fd (s.regs w))
    pc := Function.update s.pc c (after fd k (s.ioResult c)) }

/-- What a report does: the registration is gone, and its coroutine is made ready if it is suspended. -/
def report (w : WorkerId) (r : Registration) : Waits :=
  { s with
    co := if s.co.state r.cr = some .suspended then s.co.enqueue (.on w) r.cr else s.co
    regs := Function.update s.regs w ((s.regs w).erase r)
    reported := if s.pc r.cr = .waiting r.fd r.events .connect ∨ s.pc r.cr = .waiting r.fd r.events .retrying then
        Function.update s.reported r.cr true else s.reported }

end Waits

/-- The steps of the scheduler that a coroutine inside these functions does not make, and the wakes of timers and
I/O it gets in another way. -/
def Outside (s : Waits) : Coro.Event → Prop
  | .yield _ c | .suspend _ c | .exit _ c => s.pc c = .out
  | .callback _ c => (s.pc c).isWaiting = false
  | .inbox _ => False
  | _ => True

/-- One step of a runtime with `n` workers on the readiness backend `be`. -/
inductive WaitStep (be : Backend) (n : ℕ) : Waits → IoEvent → Waits → Prop
  | sched {s : Waits} {e : Coro.Event} {co : Coro.State} :
      Coro.Step n s.co e co → Outside s e → WaitStep be n s (.sched e) { s with co := co }
  | inbox {s : Waits} {w : WorkerId} {co : Coro.State} :
      Coro.Step n s.co (.inbox w) co →
      WaitStep be n s (.sched (.inbox w)) { s with co := co, ioResult := s.delivered co }
  | cancelLocal {s : Waits} {w : WorkerId} {c : CrId} :
      s.co.pc (.on w) = .idle → s.co.pin c = some w → s.Asleep c →
      WaitStep be n s (.cancelLocal w c)
        ({ s with co := { s.co with cancelReq := Function.update s.co.cancelReq c true } }.wake w c .canceled)
  | timeout {s : Waits} {w : WorkerId} {c : CrId} :
      s.co.AtLoop w .top → s.co.pin c = some w → s.Asleep c →
      WaitStep be n s (.timeout w c) (s.wake w c .timedout)
  | report {s : Waits} {w : WorkerId} {r : Registration} :
      s.co.AtLoop w .top → r ∈ s.regs w → WaitStep be n s (.report w r) (s.report w r)
  | refuse {s : Waits} {w : WorkerId} {c : CrId} :
      s.co.Runs w c → s.pc c = .out →
      -- a cancel is consumed, an expired deadline changes nothing
      WaitStep be n s (.refuse w c)
        { s with co := { s.co with cancelReq := Function.update s.co.cancelReq c false } }
  | connect {s : Waits} {w : WorkerId} {c : CrId} {fd : ℤ} {r : ConnectResult} :
      s.co.Runs w c → s.pc c = .out → s.co.cancelReq c = false →
      WaitStep be n s (.connect w c fd r) (s.afterConnect c fd r)
  | waitConnect {s : Waits} {w : WorkerId} {c : CrId} {fd : ℤ} {registered : Bool} :
      s.co.Runs w c → s.pc c = .connecting fd →
      WaitStep be n s (.waitReady w c fd .pollout registered)
        (if registered then s.park be w c fd .pollout .connect else { s with pc := Function.update s.pc c .out })
  | waitRetrying {s : Waits} {w : WorkerId} {c : CrId} {fd : ℤ} {events : Interest} {registered : Bool} :
      s.co.Runs w c → s.pc c = .out →
      WaitStep be n s (.waitReady w c fd events registered)
        (if registered then s.park be w c fd events .retrying else s)
  | complete {s : Waits} {w : WorkerId} {c : CrId} {fd : ℤ} {events : Interest} {k : Caller} :
      s.co.Runs w c → s.co.state c = some .running → s.pc c = .waiting fd events k →
      WaitStep be n s (.complete w c (s.ioResult c)) (s.finish be w c fd k)
  | sockError {s : Waits} {w : WorkerId} {c : CrId} {fd : ℤ} {err : ℕ} :
      s.co.Runs w c → s.pc c = .check fd →
      WaitStep be n s (.sockError w c err) { s with pc := Function.update s.pc c .out }

/-! ## What ends a suspension -/

/-- The steps of the scheduler that end the suspension of a coroutine. -/
lemma suspension_ends {n : ℕ} {s t : Coro.State} {e : Coro.Event} {c : CrId} (h : Coro.Step n s e t)
    (hs : s.state c = some .suspended) :
    t.state c = some .suspended ∨
    (∃ w, e = .take w c ∨ e = .dequeue w c) ∨
    (∃ w, e = .yield w c ∨ e = .exit w c ∨ e = .callback w c) ∨
    (∃ a read, e = .test a ∧ s.pc a = .test c read .done) ∨
    ∃ w, e = .inbox w ∧ t.state c = some .ready ∧
      ((∃ rest, s.loop w = .deliver c rest) ∨ s.loop w = .post c ∧ s.pendingWake c = true) := by
  have hother {c' : CrId} {x : CrState} (hc : c ≠ c') :
      Function.update s.state c' (some x) c = some .suspended := by
    rwa [Function.update_of_ne hc]
  have hfresh {c' : CrId} (hnone : s.state c' = none) : c ≠ c' := by
    rintro rfl
    rw [hs] at hnone
    cases hnone
  have hdeliver {x : Coro.State} (heq : x.state = s.state) (w : WorkerId) (c' : CrId) (d : Delivery) :
      (x.deliver w c' d).state c = some .suspended ∨ c' = c ∧ (x.deliver w c' d).state c = some .ready := by
    by_cases hc : c = c'
    · subst hc
      cases d with
      | plain | decided => exact .inr ⟨rfl, by simp [State.deliver, heq, hs, State.enqueue, State.append, State.setState]⟩
      | inOp => exact .inl (by rw [State.deliver, heq, hs])
    · refine .inl ?_
      cases d with
      | plain =>
        simp only [State.deliver]
        split_ifs
        · simpa [State.enqueue, State.append, State.setState, heq] using hother hc
        · rw [heq, hs]
        · simpa [heq] using hs
      | decided =>
        simp only [State.deliver]
        split_ifs
        · simpa [State.enqueue, State.append, State.setState, heq] using hother hc
        · rw [heq, hs]
      | inOp => rw [State.deliver, heq, hs]
  cases h with
  | spawn _ hnone _ => exact .inl (hother (hfresh hnone))
  | spawnLocal _ hnone _ _ => exact .inl (hother (hfresh hnone))
  | @take w c' =>
    by_cases hc : c = c'
    · exact .inr (.inl ⟨w, .inl (hc ▸ rfl)⟩)
    · exact .inl (hother hc)
  | @dequeue w c' =>
    by_cases hc : c = c'
    · exact .inr (.inl ⟨w, .inr (hc ▸ rfl)⟩)
    · exact .inl (hother hc)
  | @yield w c' =>
    by_cases hc : c = c'
    · exact .inr (.inr (.inl ⟨w, .inl (hc ▸ rfl)⟩))
    · exact .inl (hother hc)
  | @suspend w c' =>
    refine .inl ?_
    split_ifs with hrun
    · have hc : c ≠ c' := by
        rintro rfl
        rw [hs] at hrun
        cases hrun
      exact hother hc
    · exact hs
  | @exit w c' =>
    by_cases hc : c = c'
    · exact .inr (.inr (.inl ⟨w, .inr (.inl (hc ▸ rfl))⟩))
    · exact .inl (hother hc)
  | @post w c' d hloop =>
    simp only [State.post]
    split_ifs with htest
    · rcases hdeliver (x := { s with pendingWake := Function.update s.pendingWake c' false }) rfl w c' d with h | ⟨rfl, h⟩
      · exact .inl h
      · exact .inr (.inr (.inr (.inr ⟨w, rfl, h, .inr ⟨hloop.2.1, htest.1⟩⟩)))
    · exact .inl hs
  | drain _ | pop _ | drained _ => exact .inl hs
  | @deliver w c' rest d hloop =>
    rcases hdeliver rfl w c' d with h | ⟨rfl, h⟩
    · exact .inl h
    · exact .inr (.inr (.inr (.inr ⟨w, rfl, h, .inl ⟨rest, hloop.2.1⟩⟩)))
  | @callback w c' =>
    by_cases hc : c = c'
    · exact .inr (.inr (.inl ⟨w, .inr (.inr (hc ▸ rfl))⟩))
    · exact .inl (hother hc)
  | load _ _ => exact .inl hs
  | @test a c' read x hpc =>
    simp only [State.test]
    split_ifs with hx
    · exact .inl hs
    · cases x with
      | running | ready => exact .inl hs
      | suspended =>
        have hc : c ≠ c' := fun hc => hx (hc ▸ hs)
        exact .inl (hother hc)
      | done =>
        by_cases hc : c = c'
        · exact .inr (.inr (.inr (.inl ⟨a, read, rfl, hc ▸ hpc⟩)))
        · exact .inl (hother hc)
  | exchange _ | push _ | cancel _ _ | consume _ | boost | reap _ => exact .inl hs

/-! ## Stray wakes -/

/-- Event `e` wakes coroutine `c`, suspended in `s_io_wait_ready`, without a report of its descriptor and without a
mark in `io_result`. -/
def Stray (s : Waits) (c : CrId) : IoEvent → Prop
  -- a resume on the coroutine's own worker, or one that was too fast for the pin
  | .sched (.test a) => s.Asleep c ∧ ∃ read, s.co.pc a = .test c read .done
  -- a resume from another worker, or a wake on record
  | .sched (.inbox w) => s.Asleep c ∧ s.co.cancelReq c = false ∧
      ((∃ rest, s.co.loop w = .deliver c rest) ∨ s.co.loop w = .post c ∧ s.co.pendingWake c = true)
  -- it is still in a list
  | .sched (.take _ c') | .sched (.dequeue _ c') => c' = c ∧ s.Asleep c
  -- a registration that an earlier wait has left behind
  | .report _ r => r.cr = c ∧ s.Asleep c ∧ ∀ k, s.pc c ≠ .waiting r.fd r.events k
  -- a resume has come between the coroutine's last switch and this one
  | .waitReady _ c' _ _ registered => c' = c ∧ registered = true ∧ s.co.state c ≠ some .running
  | _ => False

/-- A step that is a stray wake for nobody. -/
def NoStray (s : Waits) (e : IoEvent) (_ : Waits) : Prop := ∀ c, ¬ Stray s c e

/-- In this step, `s_io_connect` of coroutine `c` returns 0. -/
def IoEvent.Connects (c : CrId) : IoEvent → Prop
  | connect _ c' _ r => c' = c ∧ r = .ok
  | sockError _ c' err => c' = c ∧ err = 0
  | _ => False

/-- What holds as long as there are no stray wakes. -/
structure WaitInv (s : Waits) : Prop where
  /-- A coroutine that is awake in `s_io_wait_ready` has a mark, or its descriptor was reported. -/
  waiting : ∀ c, (s.pc c).isWaiting = true → s.co.state c ≠ some .suspended → s.ioResult c = .ok →
    s.reported c = true
  /-- `SO_ERROR` is read only after a report. -/
  check : ∀ c fd, s.pc c = .check fd → s.reported c = true

lemma waitInv_init : WaitInv .init where
  waiting := by simp [Waits.init, IoPc.isWaiting]
  check := by simp [Waits.init]

/-- The wake of a coroutine with a mark. -/
lemma WaitInv.wake {s : Waits} (h : WaitInv s) (w : WorkerId) (c : CrId) {r : IoResult} (hr : r ≠ .ok) :
    WaitInv (s.wake w c r) where
  waiting := by
    intro c' hwait hst hok
    by_cases hc : c' = c
    · subst hc
      simp [Waits.wake] at hok
      exact absurd hok hr
    · refine h.waiting c' hwait ?_ ?_
      · simpa [Waits.wake, State.enqueue, State.append, State.setState, Function.update_of_ne hc] using hst
      · simpa [Waits.wake, Function.update_of_ne hc] using hok
  check := h.check

/-- A coroutine goes to a place where nothing is promised. -/
lemma WaitInv.leave {s : Waits} (h : WaitInv s) (c : CrId) {p : IoPc} (hp : p.isWaiting = false)
    (hcheck : ∀ fd, p = .check fd → s.reported c = true) : WaitInv { s with pc := Function.update s.pc c p } where
  waiting := by
    intro c' hwait
    by_cases hc : c' = c
    · subst hc
      simp [hp] at hwait
    · simp only [Function.update_of_ne hc] at hwait
      exact h.waiting c' hwait
  check := by
    intro c' fd hpc
    by_cases hc : c' = c
    · subst hc
      exact hcheck fd (by simpa using hpc)
    · simp only [Function.update_of_ne hc] at hpc
      exact h.check c' fd hpc

/-- The switch to the scheduler suspends a coroutine that is in the state RUNNING. -/
lemma WaitInv.park {s : Waits} (h : WaitInv s) (be : Backend) (w : WorkerId) {c : CrId} (fd : ℤ)
    (events : Interest) (k : Caller) (hrun : s.co.state c = some .running) :
    WaitInv (s.park be w c fd events k) where
  waiting := by
    intro c' hwait hst hok
    by_cases hc : c' = c
    · subst hc
      simp [Waits.park, hrun, State.switchOut, State.setLoop, State.setState] at hst
    · simp only [Waits.park, hrun, if_true, State.switchOut, State.setLoop, State.setState,
        Function.update_of_ne hc] at hwait hst hok ⊢
      exact h.waiting c' hwait hst hok
  check := by
    intro c' fd' hpc
    by_cases hc : c' = c
    · subst hc
      simp [Waits.park] at hpc
    · simp only [Waits.park, Function.update_of_ne hc] at hpc ⊢
      exact h.check c' fd' hpc

/-- A report is a stray wake, or one for the descriptor its coroutine waits for. -/
lemma WaitInv.report {s : Waits} (h : WaitInv s) (w : WorkerId) (r : Registration)
    (hstray : ¬ Stray s r.cr (.report w r)) : WaitInv (s.report w r) where
  waiting := by
    intro c hwait hst hok
    have hkeep : s.reported c = true → (s.report w r).reported c = true := by
      intro hrep
      simp only [Waits.report]
      split_ifs
      · by_cases hc : c = r.cr
        · simp [hc]
        · rwa [Function.update_of_ne hc]
      · exact hrep
    by_cases hs : s.co.state c = some .suspended
    · have hc : c = r.cr := by
        by_contra hc
        simp only [Waits.report] at hst
        split_ifs at hst
        · simp [State.enqueue, State.append, State.setState, Function.update_of_ne hc, hs] at hst
        · exact hst hs
      subst hc
      have hown : ∃ k, s.pc r.cr = .waiting r.fd r.events k := by
        by_contra hno
        exact hstray ⟨rfl, ⟨hwait, hs⟩, fun k hk => hno ⟨k, hk⟩⟩
      obtain ⟨k, hk⟩ := hown
      cases k <;> simp [Waits.report, hk]
    · exact hkeep (h.waiting c hwait hs hok)
  check := by
    intro c fd hpc
    have hrep := h.check c fd hpc
    simp only [Waits.report]
    split_ifs
    · by_cases hc : c = r.cr
      · simp [hc]
      · rwa [Function.update_of_ne hc]
    · exact hrep

/-- One step without a stray wake. -/
lemma waitInv_step {be : Backend} {n : ℕ} {s t : Waits} {e : IoEvent} (h : WaitInv s)
    (hstep : Restrict (WaitStep be n) NoStray s e t) : WaitInv t := by
  obtain ⟨hstep, hstray⟩ := hstep
  cases hstep with
  | @sched e co hco hout =>
    refine ⟨fun c hwait hst hok => h.waiting c hwait ?_ hok, h.check⟩
    intro hs
    have hsleep : s.Asleep c := ⟨hwait, hs⟩
    rcases suspension_ends hco hs with hend | ⟨w, rfl | rfl⟩ | ⟨w, rfl | rfl | rfl⟩ | ⟨a, read, rfl, hpc⟩ | ⟨w, rfl, -⟩
    · exact hst hend
    · exact hstray c ⟨rfl, hsleep⟩
    · exact hstray c ⟨rfl, hsleep⟩
    · rw [show s.pc c = .out from hout] at hwait
      cases hwait
    · rw [show s.pc c = .out from hout] at hwait
      cases hwait
    · rw [show (s.pc c).isWaiting = false from hout] at hwait
      cases hwait
    · exact hstray c ⟨hsleep, read, hpc⟩
    · exact hout
  | @inbox w co hco =>
    refine ⟨fun c hwait hst hok => ?_, h.check⟩
    by_cases hs : s.co.state c = some .suspended
    · have hsleep : s.Asleep c := ⟨hwait, hs⟩
      rcases suspension_ends hco hs with hend | ⟨w, h | h⟩ | ⟨w, h | h | h⟩ | ⟨a, read, h, -⟩ | ⟨w', h, hready, hloop⟩
      · exact absurd hend hst
      · cases h
      · cases h
      · cases h
      · cases h
      · cases h
      · cases h
      · cases h
        have hcancel : s.co.cancelReq c = true := by
          by_contra hno
          exact hstray c ⟨hsleep, by simpa using hno, hloop⟩
        simp [Waits.delivered, hsleep, hcancel, hready] at hok
    · refine h.waiting c hwait hs ?_
      have hsleep : ¬ s.Asleep c := fun hc => hs hc.2
      simpa [Waits.delivered, hsleep] using hok
  | @cancelLocal w c _ _ _ =>
    have h' : WaitInv { s with co := { s.co with cancelReq := Function.update s.co.cancelReq c true } } :=
      ⟨h.waiting, h.check⟩
    exact h'.wake w c (by decide)
  | @timeout w c _ _ _ => exact h.wake w c (by decide)
  | @report w r _ _ => exact h.report w r (hstray r.cr)
  | refuse _ _ => exact ⟨h.waiting, h.check⟩
  | @connect w c fd r _ _ _ =>
    cases r with
    | inProgress => exact h.leave c rfl (by simp)
    | ok | failed => exact h
  | @waitConnect w c fd registered _ _ =>
    cases registered with
    | true =>
      have hrun : s.co.state c = some .running := by
        by_contra hno
        exact hstray c ⟨rfl, rfl, hno⟩
      exact h.park be w fd .pollout .connect hrun
    | false => exact h.leave c rfl (by simp)
  | @waitRetrying w c fd events registered _ _ =>
    cases registered with
    | true =>
      have hrun : s.co.state c = some .running := by
        by_contra hno
        exact hstray c ⟨rfl, rfl, hno⟩
      exact h.park be w fd events .retrying hrun
    | false => exact h
  | @complete w c fd events k _ hrun hpc =>
    have hnot : (Waits.after fd k (s.ioResult c)).isWaiting = false := by
      cases k <;> cases s.ioResult c <;> rfl
    have hcheck : ∀ fd', Waits.after fd k (s.ioResult c) = .check fd' → s.reported c = true := by
      intro fd' hafter
      have hok : s.ioResult c = .ok := by
        cases hr : s.ioResult c with
        | ok => rfl
        | canceled | timedout => cases k <;> simp [hr, Waits.after] at hafter
      exact h.waiting c (by rw [hpc]; rfl) (by rw [hrun]; decide) hok
    have hpcs := h.leave c hnot hcheck
    refine ⟨fun c' hwait hst hok => hpcs.waiting c' hwait ?_ hok, hpcs.check⟩
    simp only [Waits.finish] at hst
    split_ifs at hst <;> exact hst
  | @sockError w c fd err _ _ => exact h.leave c rfl (by simp)

/-- Without stray wakes, `s_io_wait_ready` returns 0 only after a report of the descriptor during the wait, and
`s_io_connect` only if `connect(2)` has returned 0 or `SO_ERROR` was 0 after such a report. -/
theorem connects_when_connected (be : Backend) (n : ℕ) (s : Waits)
    (h : Reachable (Restrict (WaitStep be n) NoStray) .init s) :
    (∀ w c t, WaitStep be n s (.complete w c .ok) t → s.reported c = true) ∧
    ∀ c e t, WaitStep be n s e t → e.Connects c →
      (∃ w fd, e = .connect w c fd .ok) ∨ ∃ w, e = .sockError w c 0 ∧ s.reported c = true := by
  have hinv : WaitInv s := h.invariant waitInv_init fun _ _ _ hs hstep => waitInv_step hs hstep
  refine ⟨fun w c t hstep => ?_, fun c e t hstep hconn => ?_⟩
  · generalize he : IoEvent.complete w c .ok = e at hstep
    cases hstep with
    | @complete w' c' fd events k _ hrun hpc =>
      obtain ⟨rfl, rfl, hok⟩ : w = w' ∧ c = c' ∧ IoResult.ok = s.ioResult c' := by simpa using he
      exact hinv.waiting c (by rw [hpc]; rfl) (by rw [hrun]; decide) hok.symm
    | _ => cases he
  · cases hstep with
    | @connect w c' fd r _ _ _ =>
      obtain ⟨rfl, rfl⟩ := hconn
      exact .inl ⟨w, fd, rfl⟩
    | @sockError w c' fd err _ hpc =>
      obtain ⟨rfl, rfl⟩ := hconn
      exact .inr ⟨w, rfl, hinv.check c' fd hpc⟩
    | _ => exact absurd hconn (by simp [IoEvent.Connects])

/-- A connect of coroutine 0 whose descriptor is reported, on the poll backend. -/
theorem connects_when_connected_reported : ∃ s : Waits, Reachable (Restrict (WaitStep .poll 1) NoStray) .init s ∧
    (∃ t, WaitStep .poll 1 s (.sockError 0 0 0) t) ∧
    ((∃ w fd, IoEvent.sockError 0 0 0 = .connect w 0 fd .ok) ∨
      ∃ w, IoEvent.sockError 0 0 0 = .sockError w 0 0 ∧ s.reported 0 = true) := by
  have hs : Reachable (Restrict (WaitStep .poll 1) NoStray) .init _ :=
    ⟨_, .cons ⟨.sched (.spawn (a := .ext 0) (c := 0) (q := 2) rfl rfl (.inr rfl)) trivial, fun _ h => h⟩ <|
      .cons ⟨.sched (.take (w := 0) (c := 0) (q := 2) (by decide) ⟨rfl, rfl, rfl⟩ (fun _ => rfl) rfl (by decide))
        trivial, by
          rintro c ⟨rfl, hsleep⟩
          exact absurd hsleep (by decide)⟩ <|
      .cons ⟨@WaitStep.connect _ _ _ 0 0 5 .inProgress ⟨rfl, rfl⟩ rfl rfl, fun _ h => h⟩ <|
      .cons ⟨@WaitStep.waitConnect _ _ _ 0 0 5 true ⟨rfl, rfl⟩ rfl, by
          rintro c ⟨rfl, -, hrun⟩
          exact hrun rfl⟩ <|
      .cons ⟨.inbox (.post (w := 0) (c := 0) (d := .plain) ⟨rfl, rfl, rfl⟩ (by simp)), by
          rintro c ⟨-, -, ⟨rest, hloop⟩ | ⟨hloop, hpending⟩⟩
          · cases hloop
          · cases hloop
            exact absurd hpending (by decide)⟩ <|
      .cons ⟨.report (w := 0) (r := ⟨5, .pollout, 0⟩) ⟨rfl, rfl, rfl⟩ (by decide), by
          rintro c ⟨rfl, -, hother⟩
          exact hother .connect rfl⟩ <|
      .cons ⟨.sched (.dequeue (w := 0) (c := 0) (q := 2) (by decide) ⟨rfl, rfl, rfl⟩ rfl (by decide)) trivial, by
          rintro c ⟨rfl, hsleep⟩
          exact absurd hsleep (by decide)⟩ <|
      .cons ⟨@WaitStep.complete _ _ _ 0 0 5 .pollout .connect ⟨rfl, rfl⟩ rfl rfl, fun _ h => h⟩ <| .nil _⟩
  refine ⟨_, hs, ⟨_, @WaitStep.sockError _ _ _ 0 0 5 0 ⟨rfl, rfl⟩ rfl⟩, ?_⟩
  exact (connects_when_connected .poll 1 _ hs).2 0 (.sockError 0 0 0) _ (@WaitStep.sockError _ _ _ 0 0 5 0 ⟨rfl, rfl⟩ rfl) ⟨rfl, rfl⟩

/-- Coroutine 0 connects, and the connection is being made; coroutine 1 of the same worker resumes it.  Nothing was
reported, but `s_io_wait_ready` returns 0, `SO_ERROR` is 0, and so `s_io_connect` returns 0. -/
theorem connects_without_connection : ¬ ∀ (be : Backend) (n : ℕ) (s : Waits), Reachable (WaitStep be n) .init s →
    (∀ w c t, WaitStep be n s (.complete w c .ok) t → s.reported c = true) ∧
    ∀ c e t, WaitStep be n s e t → e.Connects c →
      (∃ w fd, e = .connect w c fd .ok) ∨ ∃ w, e = .sockError w c 0 ∧ s.reported c = true := by
  intro h
  have hs : Reachable (WaitStep .poll 1) .init _ :=
    ⟨_, .cons (.sched (.spawn (a := .ext 0) (c := 0) (q := 2) rfl rfl (.inr rfl)) trivial) <|
      .cons (.sched (.spawn (a := .ext 0) (c := 1) (q := 2) rfl rfl (.inr rfl)) trivial) <|
      .cons (.sched (.take (w := 0) (c := 0) (q := 2) (by decide) ⟨rfl, rfl, rfl⟩ (fun _ => rfl) rfl (by decide))
        trivial) <|
      .cons (@WaitStep.connect _ _ _ 0 0 5 .inProgress ⟨rfl, rfl⟩ rfl rfl) <|
      .cons (@WaitStep.waitConnect _ _ _ 0 0 5 true ⟨rfl, rfl⟩ rfl) <|
      .cons (.inbox (.post (w := 0) (c := 0) (d := .plain) ⟨rfl, rfl, rfl⟩ (by simp))) <|
      .cons (.sched (.take (w := 0) (c := 1) (q := 2) (by decide) ⟨rfl, rfl, rfl⟩ (fun _ => rfl) rfl (by decide))
        trivial) <|
      .cons (.sched (.load (a := .on 0) (c := 0) rfl (by decide)) trivial) <|
      .cons (.sched (.test (a := .on 0) (c := 0) (x := .running) rfl) trivial) <|
      .cons (.sched (.test (a := .on 0) (c := 0) (x := .ready) rfl) trivial) <|
      .cons (.sched (.test (a := .on 0) (c := 0) (x := .done) rfl) trivial) <|
      .cons (.sched (.suspend (w := 0) (c := 1) ⟨rfl, rfl⟩) rfl) <|
      .cons (.inbox (.post (w := 0) (c := 1) (d := .plain) ⟨rfl, rfl, rfl⟩ (by simp))) <|
      .cons (.sched (.dequeue (w := 0) (c := 0) (q := 2) (by decide) ⟨rfl, rfl, rfl⟩ rfl (by decide)) trivial) <|
      .cons (@WaitStep.complete _ _ _ 0 0 5 .pollout .connect ⟨rfl, rfl⟩ rfl rfl) <| .nil _⟩
  have hno := (h .poll 1 _ hs).2 0 (.sockError 0 0 0) _ (@WaitStep.sockError _ _ _ 0 0 5 0 ⟨rfl, rfl⟩ rfl) ⟨rfl, rfl⟩
  obtain ⟨w, fd, hfalse⟩ | ⟨w, -, hrep⟩ := hno
  · cases hfalse
  · exact absurd hrep (by decide)

end Suspenders.Io
