import Suspenders.Base
import Suspenders.Lib.Run
import Suspenders.Lib.Compact

/-!
# The poll backend and its readiness waits

On the poll backend a coroutine that finds its socket not ready registers `(fd, events, coroutine)` in
the worker's poll set, suspends, and unregisters when it runs again (`s_io_wait_ready`).  The poll set
is two parallel arrays; `s_poll_unregister` and `s_poll_wait` compact them in place, the former by file
descriptor, the latter by readiness.  `entries` is the list the arrays stand for, and
`entries_unregister` and `entries_wait` say what the two loops do to it.

`PollWorker.step` is the transition system of one worker's coroutines through `s_io_wait_ready`.
Because `s_poll_unregister` takes only the descriptor, a completed wait deletes the entries of every
coroutine waiting on the same descriptor: `waiter_loses_registration` is the full-duplex run in which a
parked writer disappears from the poll set.  `poll_registrations_per_waiter` says exactly when a
completed wait removes nothing but its own entry, and that in runs where that is always so every parked
waiter is registered.
-/

namespace Suspenders.Io

open Lib

/-- The event bits a poll entry can ask for. -/
structure Events where
  /-- `POLLIN` -/
  pollin : Bool
  /-- `POLLOUT` -/
  pollout : Bool
  deriving DecidableEq

/-- `struct pollfd`; of `revents` only whether it is non-zero matters. -/
structure PollFd where
  /-- The file descriptor. -/
  fd : ℤ
  /-- The events asked for. -/
  events : Events
  /-- Whether `poll` reported any event. -/
  revents : Bool
  deriving DecidableEq

/-- The `poll` member of `suspenders_backend_s`: two parallel arrays with `nfds` entries in use. -/
structure PollSet where
  /-- `poll.fds` -/
  fds : ℕ → PollFd
  /-- `poll.crs`; `none` is the `NULL` of the worker's wake descriptor. -/
  crs : ℕ → Option CrId
  /-- `poll.nfds` -/
  nfds : ℕ
  /-- `poll.cap` -/
  cap : ℕ

/-- An entry of the poll set: what is polled, and for whom. -/
abbrev Entry := PollFd × Option CrId

namespace PollSet

/-- The entries the two arrays stand for, in order. -/
def entries (be : PollSet) : List Entry := slice (fun k => (be.fds k, be.crs k)) 0 be.nfds

/-- `s_poll_create`: no entries, room for 256. -/
def create : PollSet where
  fds := fun _ => ⟨0, ⟨false, false⟩, false⟩
  crs := fun _ => none
  nfds := 0
  cap := 256

/-- `s_poll_register`; `none` is the return value `-1` of a failed reallocation. -/
def register (be : PollSet) (fd : ℤ) (events : Events) (cr : Option CrId) (reallocOk : Bool) :
    Option PollSet :=
  if be.cap ≤ be.nfds ∧ reallocOk = false then none
  else some
    { fds := Function.update be.fds be.nfds ⟨fd, events, false⟩
      crs := Function.update be.crs be.nfds cr
      nfds := be.nfds + 1
      cap := if be.cap ≤ be.nfds then be.cap * 2 else be.cap }

/-- The loop of `s_poll_unregister`, with `n` entries from `i` on still to be looked at and `j` the
write index. -/
def unregisterLoop (fd : ℤ) : ℕ → ℕ → ℕ → (ℕ → PollFd) → (ℕ → Option CrId) →
    ℕ × (ℕ → PollFd) × (ℕ → Option CrId)
  | 0, _, j, fds, crs => (j, fds, crs)
  | n + 1, i, j, fds, crs =>
    if (fds i).fd = fd then unregisterLoop fd n (i + 1) j fds crs
    else unregisterLoop fd n (i + 1) (j + 1)
      (Function.update fds j (fds i)) (Function.update crs j (crs i))

/-- `s_poll_unregister`. -/
def unregister (be : PollSet) (fd : ℤ) : PollSet :=
  let r := unregisterLoop fd be.nfds 0 0 be.fds be.crs
  { be with fds := r.2.1, crs := r.2.2, nfds := r.1 }

end PollSet

/-- The coroutines of the worker as the poll loop sees them: their states, and the ready queue in the
order of `suspenders_ready_enqueue`. -/
structure Crs where
  /-- `cr->state` -/
  state : CrId → CrState
  /-- The coroutines enqueued and not yet dequeued. -/
  ready : List CrId

/-- `suspenders_ready_enqueue`. -/
def Crs.enqueue (s : Crs) (c : CrId) : Crs where
  state := Function.update s.state c .ready
  ready := s.ready ++ [c]

/-- What the wake paths do for a coroutine: enqueue it if it is suspended. -/
def Crs.wake (s : Crs) (c : CrId) : Crs := if s.state c = .suspended then s.enqueue c else s

namespace PollSet

/-- The loop of `s_poll_wait` after `poll` has filled in `revents`. -/
def waitLoop : ℕ → ℕ → ℕ → (ℕ → PollFd) → (ℕ → Option CrId) → Crs →
    ℕ × (ℕ → PollFd) × (ℕ → Option CrId) × Crs
  | 0, _, j, fds, crs, s => (j, fds, crs, s)
  | n + 1, i, j, fds, crs, s =>
    if (fds i).revents then
      match crs i with
      -- one-shot: a coroutine's entry is not copied back
      | some c => waitLoop n (i + 1) j fds crs (s.wake c)
      -- the worker's wake descriptor is drained and stays registered
      | none => waitLoop n (i + 1) (j + 1)
          (Function.update fds j { fds i with revents := false }) (Function.update crs j none) s
    else waitLoop n (i + 1) (j + 1)
      (Function.update fds j (fds i)) (Function.update crs j (crs i)) s

/-- `s_poll_wait` with the events `rev` that `poll` reports; without any, nothing changes. -/
def wait (be : PollSet) (rev : ℕ → Bool) (s : Crs) : PollSet × Crs :=
  if (List.range be.nfds).any rev then
    let r := waitLoop be.nfds 0 0 (fun k => { be.fds k with revents := rev k }) be.crs s
    ({ be with fds := r.2.1, crs := r.2.2.1, nfds := r.1 }, r.2.2.2)
  else (be, s)

/-! ## The loops on the list of entries -/

/-- What `s_poll_unregister` keeps. -/
def keepOther (fd : ℤ) (e : Entry) : Option Entry := if e.1.fd = fd then none else some e

/-- What `s_poll_wait` keeps: entries without events, and the wake descriptor. -/
def keepUnready (e : Entry) : Option Entry :=
  if e.1.revents then
    match e.2 with
    | some _ => none
    | none => some ({ e.1 with revents := false }, none)
  else some e

/-- Writing the two arrays at one index is writing the array of pairs. -/
lemma update_pair (fds : ℕ → PollFd) (crs : ℕ → Option CrId) (j : ℕ) (x : PollFd)
    (y : Option CrId) :
    (fun k => (Function.update fds j x k, Function.update crs j y k)) =
      Function.update (fun k => (fds k, crs k)) j (x, y) := by
  funext k
  by_cases hk : k = j
  · subst hk; simp
  · simp [hk]

/-- The unregister loop is the compaction of the array of pairs. -/
lemma unregisterLoop_eq (fd : ℤ) (n i j : ℕ) (fds : ℕ → PollFd) (crs : ℕ → Option CrId) :
    compact (keepOther fd) n i j (fun k => (fds k, crs k)) =
      ((unregisterLoop fd n i j fds crs).1,
        fun k => ((unregisterLoop fd n i j fds crs).2.1 k,
          (unregisterLoop fd n i j fds crs).2.2 k)) := by
  induction n generalizing i j fds crs with
  | zero => rfl
  | succ n ih =>
    by_cases h : (fds i).fd = fd
    · simp only [compact, keepOther, unregisterLoop, h, if_true]
      exact ih (i + 1) j fds crs
    · simp only [compact, keepOther, unregisterLoop, h, if_false, ← update_pair]
      exact ih (i + 1) (j + 1) _ _

/-- `s_poll_unregister` deletes every entry of the descriptor and keeps the others in order. -/
theorem entries_unregister (be : PollSet) (fd : ℤ) :
    (be.unregister fd).entries = be.entries.filter fun e => e.1.fd ≠ fd := by
  have h := slice_compact (keepOther fd) be.nfds 0 0 (fun k => (be.fds k, be.crs k)) le_rfl
  rw [unregisterLoop_eq, slice_zero, List.nil_append] at h
  refine Eq.trans h ?_
  rw [← List.filterMap_eq_filter]
  refine List.filterMap_congr fun e _ => ?_
  by_cases he : e.1.fd = fd <;> simp [keepOther, Option.guard, he]

/-- The array part of the wait loop is the compaction of the array of pairs. -/
lemma waitLoop_eq (n i j : ℕ) (fds : ℕ → PollFd) (crs : ℕ → Option CrId) (s : Crs) :
    compact keepUnready n i j (fun k => (fds k, crs k)) =
      ((waitLoop n i j fds crs s).1,
        fun k => ((waitLoop n i j fds crs s).2.1 k, (waitLoop n i j fds crs s).2.2.1 k)) := by
  induction n generalizing i j fds crs s with
  | zero => rfl
  | succ n ih =>
    by_cases h : (fds i).revents
    · cases hc : crs i with
      | some c =>
        simp only [compact, keepUnready, waitLoop, h, hc, if_true]
        exact ih (i + 1) j fds crs _
      | none =>
        simp only [compact, keepUnready, waitLoop, h, hc, if_true, ← update_pair]
        exact ih (i + 1) (j + 1) _ _ _
    · simp only [compact, keepUnready, waitLoop, h, if_false, ← update_pair, Bool.false_eq_true]
      exact ih (i + 1) (j + 1) _ _ _

/-- Each entry with the events `poll` reports for it. -/
def reported (be : PollSet) (rev : ℕ → Bool) : List Entry :=
  slice (fun k => ({ be.fds k with revents := rev k }, be.crs k)) 0 be.nfds

/-- When `poll` reports an event, `s_poll_wait` drops exactly the coroutine entries that are ready. -/
theorem entries_wait (be : PollSet) (rev : ℕ → Bool) (s : Crs)
    (hrev : (List.range be.nfds).any rev = true) :
    (be.wait rev s).1.entries = (be.reported rev).filterMap keepUnready := by
  have h := slice_compact keepUnready be.nfds 0 0
    (fun k => ({ be.fds k with revents := rev k }, be.crs k)) le_rfl
  rw [waitLoop_eq (s := s), slice_zero, List.nil_append] at h
  simp only [wait, hrev, if_true, entries]
  exact h

/-- Registering appends one entry. -/
lemma entries_register {be be' : PollSet} {fd : ℤ} {events : Events} {cr : Option CrId}
    {reallocOk : Bool} (h : be.register fd events cr reallocOk = some be') :
    be'.entries = be.entries ++ [(⟨fd, events, false⟩, cr)] := by
  unfold register at h
  split at h
  · cases h
  · cases h
    simp only [entries, update_pair]
    rw [slice_snoc, slice_update_of_ge _ (by omega)]
    simp

/-- The wait loop wakes every coroutine that has a ready entry. -/
lemma waitLoop_wakes (n i j : ℕ) (fds : ℕ → PollFd) (crs : ℕ → Option CrId) (s : Crs) (hj : j ≤ i)
    {k : ℕ} {c : CrId} (hk : i ≤ k ∧ k < i + n) (hc : crs k = some c) (hr : (fds k).revents = true) :
    (waitLoop n i j fds crs s).2.2.2.state c ≠ .suspended := by
  -- a coroutine that is not suspended is never suspended by the loop
  have stay : ∀ n i j fds crs (s : Crs), s.state c ≠ .suspended →
      (waitLoop n i j fds crs s).2.2.2.state c ≠ .suspended := by
    intro n
    induction n with
    | zero => exact fun _ _ _ _ s h => h
    | succ n ih =>
      intro i j fds crs s h
      have hwake : ∀ c', (s.wake c').state c ≠ .suspended := by
        intro c'
        unfold Crs.wake Crs.enqueue
        split
        · by_cases hcc : c = c' <;> simp [hcc, h]
        · exact h
      unfold waitLoop
      split
      · split
        · exact ih _ _ _ _ _ (hwake _)
        · exact ih _ _ _ _ _ h
      · exact ih _ _ _ _ _ h
  induction n generalizing i j fds crs s with
  | zero => omega
  | succ n ih =>
    by_cases hki : k = i
    · subst hki
      have hwake : (s.wake c).state c ≠ .suspended := by
        unfold Crs.wake Crs.enqueue
        split
        · simp
        · assumption
      simp only [waitLoop, hr, hc, if_true]
      exact stay _ _ _ _ _ _ hwake
    · have hk' : i + 1 ≤ k ∧ k < i + 1 + n := by omega
      have hkj : k ≠ j := by omega
      unfold waitLoop
      split
      · split
        · exact ih _ _ _ _ _ (by omega) hk' hc hr
        · exact ih _ _ _ _ _ (by omega) hk' (by simp [hkj, hc]) (by simp [hkj, hr])
      · exact ih _ _ _ _ _ (by omega) hk' (by simp [hkj, hc]) (by simp [hkj, hr])

/-- The wait loop only makes suspended coroutines ready. -/
lemma waitLoop_state (n i j : ℕ) (fds : ℕ → PollFd) (crs : ℕ → Option CrId) (s : Crs) (c : CrId) :
    (waitLoop n i j fds crs s).2.2.2.state c = s.state c ∨
      (s.state c = .suspended ∧ (waitLoop n i j fds crs s).2.2.2.state c = .ready) := by
  induction n generalizing i j fds crs s with
  | zero => exact Or.inl rfl
  | succ n ih =>
    have hwake : ∀ c', (s.wake c').state c = s.state c ∨
        (s.state c = .suspended ∧ (s.wake c').state c = .ready) := by
      intro c'
      unfold Crs.wake Crs.enqueue
      split
      · rename_i hs
        by_cases hcc : c = c'
        · subst hcc; exact Or.inr ⟨hs, by simp⟩
        · exact Or.inl (by simp [hcc])
      · exact Or.inl rfl
    unfold waitLoop
    split
    · split
      · rename_i c' _
        rcases ih (i + 1) j fds crs (s.wake c') with h | ⟨h, h'⟩
        · rw [h]; exact hwake c'
        · rcases hwake c' with hw | hw
          · exact Or.inr ⟨hw ▸ h, h'⟩
          · exact absurd h (by rw [hw.2]; decide)
      · exact ih _ _ _ _ _
    · exact ih _ _ _ _ _

end PollSet

/-! ## Coroutines waiting for readiness -/

/-- One worker on the poll backend. -/
structure PollWorker where
  /-- The poll set. -/
  be : PollSet
  /-- The coroutines' states and the ready queue. -/
  crs : Crs
  /-- The coroutine being executed. -/
  running : Option CrId
  /-- The descriptor and events of the `s_io_wait_ready` call each coroutine is in. -/
  waiting : CrId → Option (ℤ × Events)

/-- Steps of a worker's coroutines through `s_io_wait_ready`. -/
inductive PollLabel
  /-- The scheduler switches to the ready coroutine `c`. -/
  | run (c : CrId)
  /-- The running coroutine yields. -/
  | yield
  /-- The running coroutine suspends somewhere else. -/
  | suspend
  /-- The running coroutine calls `s_io_wait_ready`: it registers and suspends. -/
  | waitReady (fd : ℤ) (events : Events) (reallocOk : Bool)
  /-- The scheduler calls `s_poll_wait`, and `poll` reports `rev`. -/
  | poll (rev : ℕ → Bool)
  /-- A cancel, a timeout or another resume wakes `c` if it is suspended. -/
  | wake (c : CrId)
  /-- The running coroutine completes its `s_io_wait_ready`: it unregisters and goes on. -/
  | complete

namespace PollWorker

/-- A worker that has registered its wake descriptor (`s_worker_register_wake`); its coroutines have
not run yet. -/
def init (wakeFd : ℤ) : PollWorker where
  be := (PollSet.create.register wakeFd ⟨true, false⟩ none true).getD .create
  crs := { state := fun _ => .ready, ready := [] }
  running := none
  waiting := fun _ => none

/-- Coroutine `c` stops running in state `st`. -/
def stop (s : PollWorker) (c : CrId) (st : CrState) : PollWorker :=
  { s with
    crs := { s.crs with state := Function.update s.crs.state c st }
    running := none }

/-- One step of the worker; `none` when the step is not possible in this state. -/
def step (s : PollWorker) : PollLabel → Option PollWorker
  | .run c =>
    if s.running = none ∧ s.crs.state c = .ready then
      some { s with
        crs := ⟨Function.update s.crs.state c .running, s.crs.ready.erase c⟩
        running := some c }
    else none
  | .yield =>
    match s.running with
    | some c =>
      if s.waiting c = none then some { s with crs := s.crs.enqueue c, running := none } else none
    | none => none
  | .suspend =>
    match s.running with
    | some c => if s.waiting c = none then some (s.stop c .suspended) else none
    | none => none
  | .waitReady fd events reallocOk =>
    match s.running with
    | some c =>
      if s.waiting c = none then
        match s.be.register fd events (some c) reallocOk with
        | some be => some { s.stop c .suspended with
            be := be, waiting := Function.update s.waiting c (some (fd, events)) }
        -- a failed registration makes the call return without suspending
        | none => some s
      else none
    | none => none
  | .poll rev =>
    if s.running = none then
      some { s with be := (s.be.wait rev s.crs).1, crs := (s.be.wait rev s.crs).2 }
    else none
  | .wake c => some { s with crs := s.crs.wake c }
  | .complete =>
    match s.running with
    | some c =>
      match s.waiting c with
      | some (fd, _) => some { s with
          be := s.be.unregister fd, waiting := Function.update s.waiting c none }
      | none => none
    | none => none

end PollWorker

/-- Every coroutine that is suspended in `s_io_wait_ready` has its entry in the poll set. -/
def Registered (s : PollWorker) : Prop :=
  ∀ c fd events, s.crs.state c = .suspended → s.waiting c = some (fd, events) →
    ∃ rev, ((⟨fd, events, rev⟩, some c) : Entry) ∈ s.be.entries

/-- The step from `s` to `t` completes no wait, or removes only the completing coroutine's own entry
from the poll set. -/
def OwnEntryOnly (s : PollWorker) (a : PollLabel) (t : PollWorker) : Prop :=
  a = .complete → ∀ c, s.running = some c →
    t.be.entries = s.be.entries.filter fun e => e.2 ≠ some c

/-- When a wait on `fd` completes, the poll set holds no entry of anybody else for `fd`. -/
def SoleWaiter (s : PollWorker) (a : PollLabel) (_ : PollWorker) : Prop :=
  a = .complete → ∀ c fd events, s.running = some c → s.waiting c = some (fd, events) →
    ∀ e ∈ s.be.entries, e.1.fd = fd → e.2 = some c

/-- What holds in every state, whoever completes a wait: a coroutine has entries only for the wait it
is in, and the running coroutine is in state RUNNING. -/
structure PollInv (s : PollWorker) : Prop where
  /-- A coroutine has entries only for the wait it is in. -/
  own : ∀ e ∈ s.be.entries, ∀ c, e.2 = some c → s.waiting c = some (e.1.fd, e.1.events)
  /-- The running coroutine's state. -/
  running : ∀ c, s.running = some c → s.crs.state c = .running

/-- The only entry of a fresh worker is its wake descriptor. -/
lemma pollInv_init (wakeFd : ℤ) : PollInv (PollWorker.init wakeFd) where
  own := by
    intro e he c hc
    have hreg : (PollSet.create.register wakeFd ⟨true, false⟩ none true).isSome := by
      simp [PollSet.register]
    obtain ⟨be, hbe⟩ := Option.isSome_iff_exists.mp hreg
    simp only [PollWorker.init, hbe, Option.getD_some] at he
    rw [PollSet.entries_register hbe] at he
    simp only [PollSet.entries, PollSet.create, slice_zero, List.nil_append,
      List.mem_singleton] at he
    subst he
    cases hc
  running := by simp [PollWorker.init]

/-- What one step does, with the condition under which it is possible. -/
lemma PollWorker.step_cases {s t : PollWorker} {a : PollLabel} (h : StepOf PollWorker.step s a t) :
    (∃ c, a = .run c ∧ s.running = none ∧ s.crs.state c = .ready ∧
      t = { s with
        crs := ⟨Function.update s.crs.state c .running, s.crs.ready.erase c⟩
        running := some c }) ∨
    (∃ c, a = .yield ∧ s.running = some c ∧ s.waiting c = none ∧
      t = { s with crs := s.crs.enqueue c, running := none }) ∨
    (∃ c, a = .suspend ∧ s.running = some c ∧ s.waiting c = none ∧ t = s.stop c .suspended) ∨
    (∃ c fd events ok be, a = .waitReady fd events ok ∧ s.running = some c ∧
      s.waiting c = none ∧ s.be.register fd events (some c) ok = some be ∧
      t = { s.stop c .suspended with
        be := be, waiting := Function.update s.waiting c (some (fd, events)) }) ∨
    (∃ fd events ok, a = .waitReady fd events ok ∧ t = s) ∨
    (∃ rev, a = .poll rev ∧ s.running = none ∧
      t = { s with be := (s.be.wait rev s.crs).1, crs := (s.be.wait rev s.crs).2 }) ∨
    (∃ c, a = .wake c ∧ t = { s with crs := s.crs.wake c }) ∨
    (∃ c fd events, a = .complete ∧ s.running = some c ∧ s.waiting c = some (fd, events) ∧
      t = { s with
        be := s.be.unregister fd, waiting := Function.update s.waiting c none }) := by
  unfold StepOf at h
  cases a <;> simp only [PollWorker.step] at h <;> grind

/-- The entries and states after `s_poll_wait`: every entry that is left was there before. -/
lemma PollSet.mem_entries_wait {be : PollSet} {rev : ℕ → Bool} {s : Crs} {e : Entry} {c : CrId}
    (he : e ∈ (be.wait rev s).1.entries) (hc : e.2 = some c) :
    ∃ e' ∈ be.entries, e'.2 = some c ∧ e'.1.fd = e.1.fd ∧ e'.1.events = e.1.events := by
  by_cases hrev : (List.range be.nfds).any rev = true
  · simp only [PollSet.entries_wait be rev s hrev, List.mem_filterMap] at he
    obtain ⟨e', he', hkeep⟩ := he
    obtain ⟨k, -, hk, rfl⟩ := mem_slice.mp he'
    refine ⟨(be.fds k, be.crs k), mem_slice.mpr ⟨k, Nat.zero_le k, hk, rfl⟩, ?_⟩
    unfold PollSet.keepUnready at hkeep
    split at hkeep
    · split at hkeep
      · cases hkeep
      · cases hkeep
        cases hc
    · cases hkeep
      exact ⟨hc, rfl, rfl⟩
  · have hsame : be.wait rev s = (be, s) := by simp [PollSet.wait, hrev]
    rw [hsame] at he
    exact ⟨e, he, hc, rfl, rfl⟩

/-- `s_poll_wait` keeps the entry of a coroutine that it leaves suspended. -/
lemma PollSet.wait_keeps {be : PollSet} {rev : ℕ → Bool} {s : Crs} {c : CrId} {fd : ℤ}
    {events : Events} {r : Bool} (hmem : ((⟨fd, events, r⟩, some c) : Entry) ∈ be.entries)
    (hst : (be.wait rev s).2.state c = .suspended) :
    ∃ r', ((⟨fd, events, r'⟩, some c) : Entry) ∈ (be.wait rev s).1.entries := by
  by_cases hrev : (List.range be.nfds).any rev = true
  · obtain ⟨k, -, hk, heq⟩ := mem_slice.mp hmem
    have hfd : be.fds k = ⟨fd, events, r⟩ := congrArg Prod.fst heq
    have hcr : be.crs k = some c := congrArg Prod.snd heq
    have hunready : rev k = false := by
      by_contra hready
      rw [Bool.not_eq_false] at hready
      simp only [PollSet.wait, hrev, if_true] at hst
      exact PollSet.waitLoop_wakes be.nfds 0 0 _ be.crs s le_rfl (k := k) (by omega) hcr
        (by simpa using hready) hst
    refine ⟨false, ?_⟩
    simp only [PollSet.entries_wait be rev s hrev, List.mem_filterMap]
    refine ⟨({ be.fds k with revents := rev k }, be.crs k),
      mem_slice.mpr ⟨k, Nat.zero_le k, hk, rfl⟩, ?_⟩
    simp [PollSet.keepUnready, hunready, hfd, hcr]
  · have hsame : be.wait rev s = (be, s) := by simp [PollSet.wait, hrev]
    exact ⟨r, by rw [hsame]; exact hmem⟩

/-- `s_poll_wait` suspends nobody. -/
lemma PollSet.wait_state {be : PollSet} {rev : ℕ → Bool} {s : Crs} {c : CrId}
    (h : (be.wait rev s).2.state c = .suspended) : s.state c = .suspended := by
  unfold PollSet.wait at h
  split at h
  · rcases PollSet.waitLoop_state be.nfds 0 0 (fun k => { be.fds k with revents := rev k })
      be.crs s c with heq | ⟨hsusp, -⟩
    · rw [← heq]; exact h
    · exact hsusp
  · exact h

/-- Waking somebody suspends nobody. -/
lemma Crs.state_of_wake {s : Crs} {c c' : CrId} (h : (s.wake c').state c = .suspended) :
    s.state c = .suspended := by
  unfold Crs.wake Crs.enqueue at h
  split at h
  · by_cases hne : c = c'
    · subst hne; simp at h
    · simpa [hne] using h
  · exact h

/-- Every step keeps the invariant. -/
lemma pollInv_step (s : PollWorker) (a : PollLabel) (t : PollWorker) (h : PollInv s)
    (hstep : StepOf PollWorker.step s a t) : PollInv t := by
  obtain ⟨c, -, -, -, rfl⟩ | ⟨c, -, -, -, rfl⟩ | ⟨c, -, -, -, rfl⟩ |
    ⟨c, fd, events, ok, be, -, -, hwait, hbe, rfl⟩ | ⟨_, _, _, -, rfl⟩ | ⟨rev, -, hrun, rfl⟩ |
    ⟨c, -, rfl⟩ | ⟨c, fd, events, -, -, hwait, rfl⟩ := PollWorker.step_cases hstep
  · refine ⟨h.own, fun c' hc' => ?_⟩
    cases hc'
    simp
  · exact ⟨h.own, by simp⟩
  · exact ⟨h.own, by simp [PollWorker.stop]⟩
  · refine ⟨fun e he c' hc' => ?_, by simp [PollWorker.stop]⟩
    simp only [PollSet.entries_register hbe, List.mem_append, List.mem_singleton] at he
    rcases he with he | rfl
    · have hold := h.own e he c' hc'
      have hne : c' ≠ c := by rintro rfl; simp [hwait] at hold
      simpa [hne] using hold
    · cases hc'; simp
  · exact h
  · refine ⟨fun e he c hc => ?_, by simp [hrun]⟩
    obtain ⟨e', he', hc', hfd, hev⟩ := PollSet.mem_entries_wait he hc
    rw [← hfd, ← hev]
    exact h.own e' he' c hc'
  · refine ⟨h.own, fun c' hc' => ?_⟩
    have hst := h.running c' hc'
    unfold Crs.wake Crs.enqueue
    split
    · rename_i hsusp
      have hne : c' ≠ c := by
        rintro rfl
        rw [hst] at hsusp
        cases hsusp
      simpa [hne] using hst
    · exact hst
  · refine ⟨fun e he c' hc' => ?_, h.running⟩
    simp only [PollSet.entries_unregister, List.mem_filter] at he
    have hold := h.own e he.1 c' hc'
    have hne : c' ≠ c := by
      rintro rfl
      rw [hwait] at hold
      simp only [Option.some.injEq, Prod.mk.injEq] at hold
      simp [hold.1] at he
    simpa [hne] using hold

/-- The invariant in every reachable state. -/
lemma pollInv_reachable {wakeFd : ℤ} {s : PollWorker}
    (h : Reachable (StepOf PollWorker.step) (PollWorker.init wakeFd) s) : PollInv s :=
  h.invariant (pollInv_init wakeFd) pollInv_step

/-- A step at whose completed wait nobody else is registered for the descriptor leaves every suspended
waiter registered. -/
lemma registered_step (s : PollWorker) (a : PollLabel) (t : PollWorker) (h : Registered s)
    (hstep : Restrict (StepOf PollWorker.step) SoleWaiter s a t) : Registered t := by
  obtain ⟨hstep, hsole⟩ := hstep
  intro c' fd' events' hst hw
  obtain ⟨c, -, -, -, rfl⟩ | ⟨c, -, -, -, rfl⟩ | ⟨c, -, -, hwait, rfl⟩ |
    ⟨c, fd, events, ok, be, -, -, hwait, hbe, rfl⟩ | ⟨_, _, _, -, rfl⟩ | ⟨rev, -, hrun, rfl⟩ |
    ⟨c, -, rfl⟩ | ⟨c, fd, events, hlab, hrun, hwait, rfl⟩ := PollWorker.step_cases hstep
  · have hne : c' ≠ c := by rintro rfl; simp at hst
    exact h c' fd' events' (by simpa [hne] using hst) hw
  · have hne : c' ≠ c := by rintro rfl; simp [Crs.enqueue] at hst
    exact h c' fd' events' (by simpa [Crs.enqueue, hne] using hst) hw
  · have hne : c' ≠ c := by
      rintro rfl
      simp [PollWorker.stop, hwait] at hw
    exact h c' fd' events' (by simpa [PollWorker.stop, hne] using hst) hw
  · have hent := PollSet.entries_register hbe
    by_cases hne : c' = c
    · subst hne
      simp only [Function.update_self, Option.some.injEq, Prod.mk.injEq] at hw
      obtain ⟨rfl, rfl⟩ := hw
      exact ⟨false, by simp [hent]⟩
    · obtain ⟨r, hr⟩ := h c' fd' events' (by simpa [PollWorker.stop, hne] using hst)
        (by simpa [hne] using hw)
      exact ⟨r, by simp [hent, hr]⟩
  · exact h c' fd' events' hst hw
  · obtain ⟨r, hmem⟩ := h c' fd' events' (PollSet.wait_state hst) hw
    exact PollSet.wait_keeps hmem hst
  · exact h c' fd' events' (Crs.state_of_wake hst) hw
  · have hne : c' ≠ c := by rintro rfl; simp at hw
    obtain ⟨r, hr⟩ := h c' fd' events' hst (by simpa [hne] using hw)
    -- an entry of `c'` is not for `fd`, where `c` is alone
    have hfd : fd' ≠ fd := fun heq =>
      hne (Option.some.inj (hsole hlab c fd events hrun hwait _ hr heq))
    exact ⟨r, by simp [PollSet.entries_unregister, List.mem_filter, hr, hfd]⟩

/-- A completed wait removes nothing but its own entry exactly if nobody else is registered for the
same descriptor. -/
lemma ownEntryOnly_iff {s t : PollWorker} {a : PollLabel} (h : PollInv s)
    (hstep : StepOf PollWorker.step s a t) : OwnEntryOnly s a t ↔ SoleWaiter s a t := by
  by_cases ha : a = .complete
  · subst ha
    unfold StepOf at hstep
    simp only [PollWorker.step] at hstep
    split at hstep
    · rename_i c hrun
      split at hstep
      · rename_i fd events hwait
        cases hstep
        have hent := PollSet.entries_unregister s.be fd
        constructor
        · intro hown _ c' fd' events' hrun' hwait' e he hfd
          obtain rfl : c = c' := Option.some.inj (hrun.symm.trans hrun')
          rw [hwait, Option.some.injEq, Prod.mk.injEq] at hwait'
          obtain ⟨rfl, rfl⟩ := hwait'
          by_contra hne
          -- the entry would have to survive, but the descriptor is filtered out
          have hkept : e ∈ (s.be.unregister fd).entries := by
            rw [hown rfl c hrun]
            simp [he, hne]
          rw [hent] at hkept
          simp [hfd] at hkept
        · intro hsole _ c' hrun'
          obtain rfl : c = c' := Option.some.inj (hrun.symm.trans hrun')
          simp only [hent]
          refine List.filter_congr fun e he => ?_
          have hiff : e.1.fd = fd ↔ e.2 = some c := by
            refine ⟨hsole rfl c fd events hrun hwait e he, fun hc => ?_⟩
            have hold := h.own e he c hc
            rw [hwait, Option.some.injEq, Prod.mk.injEq] at hold
            exact hold.1.symm
          simp [hiff]
      · cases hstep
    · cases hstep
  · exact ⟨fun _ h => absurd h ha, fun _ h => absurd h ha⟩

/-- Readiness registrations are per waiter exactly as long as no two coroutines are registered for one
descriptor when a wait on it completes: a completed wait removes only its own entry if and only if it is
the only one registered for its descriptor, and in every run in which that is so at every completed
wait, every coroutine suspended in `s_io_wait_ready` has its entry in the poll set. -/
theorem poll_registrations_per_waiter (wakeFd : ℤ) :
    (∀ s t a, Reachable (StepOf PollWorker.step) (PollWorker.init wakeFd) s →
      StepOf PollWorker.step s a t → (OwnEntryOnly s a t ↔ SoleWaiter s a t)) ∧
    (∀ s, Reachable (Restrict (StepOf PollWorker.step) SoleWaiter) (PollWorker.init wakeFd) s →
      Registered s) := by
  constructor
  · exact fun s t a hs hstep => ownEntryOnly_iff (pollInv_reachable hs) hstep
  · intro s hs
    refine hs.invariant ?_ registered_step
    simp [Registered, PollWorker.init]

/-- A run without sharing: coroutine `1` waits to read descriptor `5`, coroutine `2` to write
descriptor `6`; the first is woken and completes, and the second is still registered. -/
theorem poll_registrations_two_descriptors :
    ∃ s : PollWorker, s.crs.state 2 = .suspended ∧ s.waiting 2 = some (6, ⟨false, true⟩) ∧
      s.waiting 1 = none ∧ Registered s := by
  have h : Reachable (Restrict (StepOf PollWorker.step) SoleWaiter) (PollWorker.init 3) _ :=
    ⟨[.run 1, .waitReady 5 ⟨true, false⟩ true, .run 2, .waitReady 6 ⟨false, true⟩ true, .wake 1,
        .run 1, .complete],
      .cons ⟨rfl, fun h => by cases h⟩ <| .cons ⟨rfl, fun h => by cases h⟩ <|
      .cons ⟨rfl, fun h => by cases h⟩ <| .cons ⟨rfl, fun h => by cases h⟩ <|
      .cons ⟨rfl, fun h => by cases h⟩ <| .cons ⟨rfl, fun h => by cases h⟩ <|
      .cons ⟨rfl, fun _ c fd events hrun hwait e he hfd => by
        obtain rfl : 1 = c := Option.some.inj hrun
        obtain ⟨rfl, rfl⟩ : 5 = fd ∧ (⟨true, false⟩ : Events) = events := by
          simpa using (Option.some.inj hwait :)
        have hall : e ∈ [((⟨3, ⟨true, false⟩, false⟩, none) : Entry),
            (⟨5, ⟨true, false⟩, false⟩, some 1), (⟨6, ⟨false, true⟩, false⟩, some 2)] := he
        simp only [List.mem_cons, List.not_mem_nil, or_false] at hall
        rcases hall with rfl | rfl | rfl
        · cases hfd
        · rfl
        · cases hfd⟩ <| .nil _⟩
  exact ⟨_, rfl, rfl, rfl, (poll_registrations_per_waiter 3).2 _ h⟩

/-- Registrations are not per waiter: coroutine `1` waits to read descriptor `5` and coroutine `2` to
write it; `1` becomes ready and completes, and `2` is suspended without an entry in the poll set. -/
theorem waiter_loses_registration :
    ¬ ∀ s, Reachable (StepOf PollWorker.step) (PollWorker.init 3) s → Registered s := by
  intro h
  have hrun : Reachable (StepOf PollWorker.step) (PollWorker.init 3) _ :=
    ⟨[.run 1, .waitReady 5 ⟨true, false⟩ true, .run 2, .waitReady 5 ⟨false, true⟩ true,
        .poll (fun k => k == 1), .run 1, .complete],
      .cons rfl <| .cons rfl <| .cons rfl <| .cons rfl <| .cons rfl <| .cons rfl <| .cons rfl <|
      .nil _⟩
  obtain ⟨r, hmem⟩ := h _ hrun 2 5 ⟨false, true⟩ rfl rfl
  have hwake : ((⟨5, ⟨false, true⟩, r⟩, some 2) : Entry) ∈
      [((⟨3, ⟨true, false⟩, false⟩, none) : Entry)] := hmem
  simp at hwake

end Suspenders.Io
