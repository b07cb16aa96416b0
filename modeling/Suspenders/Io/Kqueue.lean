import Suspenders.Io.Poll

/-!
# The kqueue backend and its readiness waits

On the kqueue backend `s_io_wait_ready` adds a one-shot filter for its descriptor, with the coroutine as its data.
The kernel has one entry for a descriptor and a filter, and adding it again replaces the data; an entry goes when its
event is delivered.  `s_kq_unregister` does nothing.

`KqWorker.step` is the transition system of one worker's coroutines through `s_io_wait_ready`, as `PollWorker.step`
is that of the poll backend.  `kqueue_registrations` says which steps break the entries: a wait that ends before its
event leaves an entry behind, which wakes the coroutine in another wait, or is delivered to a coroutine that has
exited; and a coroutine that waits for what another one waits for takes its entry away.
-/

namespace Suspenders.Io

open Lib

/-- The filters of `s_kq_register`. -/
inductive Filter
  /-- `EVFILT_READ` -/
  | read
  /-- `EVFILT_WRITE` -/
  | write
  deriving DecidableEq

/-- The filter is added for these events. -/
def Events.asks (events : Events) : Filter → Bool
  | .read => events.pollin
  | .write => events.pollout

/-- The events of a wait that asks for one filter, as all calls of `s_io_wait_ready` do. -/
def Filter.events : Filter → Events
  | read => ⟨true, false⟩
  | write => ⟨false, true⟩

/-- The entries of a kernel queue: the data of each one that there is; `none` is the `NULL` of the wake descriptor. -/
abbrev Knotes := ℤ × Filter → Option (Option CrId)

/-- `s_kq_register`, if `kevent` succeeds. -/
def Knotes.register (kq : Knotes) (fd : ℤ) (events : Events) (cr : Option CrId) : Knotes :=
  fun k => if k.1 = fd ∧ events.asks k.2 = true then some cr else kq k

/-- One worker on the kqueue backend. -/
structure KqWorker where
  /-- The entries in the kernel. -/
  kq : Knotes
  /-- The coroutines' states and the ready queue. -/
  crs : Crs
  /-- The coroutine being executed. -/
  running : Option CrId
  /-- The descriptor and the filter of the `s_io_wait_ready` call each coroutine is in. -/
  waiting : CrId → Option (ℤ × Filter)

/-- Steps of a worker's coroutines through `s_io_wait_ready`. -/
inductive KqLabel
  /-- The scheduler switches to the ready coroutine `c`. -/
  | run (c : CrId)
  /-- The running coroutine yields. -/
  | yield
  /-- The running coroutine suspends somewhere else. -/
  | suspend
  /-- The running coroutine exits. -/
  | exit
  /-- The running coroutine calls `s_io_wait_ready`: it registers and suspends. -/
  | waitReady (fd : ℤ) (f : Filter) (keventOk : Bool)
  /-- The scheduler calls `s_kq_wait`, and `kevent` delivers these events. -/
  | kevent (evs : List (ℤ × Filter))
  /-- A cancel, a timeout or another resume wakes `c` if it is suspended. -/
  | wake (c : CrId)
  /-- The running coroutine completes its `s_io_wait_ready`. -/
  | complete

namespace KqWorker

/-- A worker that has registered its wake descriptor; its coroutines have not run yet. -/
def init (wakeFd : ℤ) : KqWorker where
  kq := Knotes.register (fun _ => none) wakeFd ⟨true, false⟩ none
  crs := { state := fun _ => .ready, ready := [] }
  running := none
  waiting := fun _ => none

/-- Coroutine `c` stops running in state `st`. -/
def stop (s : KqWorker) (c : CrId) (st : CrState) : KqWorker :=
  { s with
    crs := { s.crs with state := Function.update s.crs.state c st }
    running := none }

/-- The loop of `s_kq_wait` for one event, with its data. -/
def deliver (wakeFd : ℤ) (s : KqWorker) : Option (Option CrId) → KqWorker
  | some (some c) => { s with crs := s.crs.wake c }
  -- the wake descriptor is drained and registered again
  | some none => { s with kq := s.kq.register wakeFd ⟨true, false⟩ none }
  | none => s

/-- `s_kq_wait`: the kernel takes the entries of the events away, and the loop looks at their data. -/
def wait (wakeFd : ℤ) (evs : List (ℤ × Filter)) (s : KqWorker) : KqWorker :=
  (evs.map s.kq).foldl (deliver wakeFd) { s with kq := fun k => if k ∈ evs then none else s.kq k }

/-- One step of the worker; `none` when the step is not possible in this state. -/
def step (wakeFd : ℤ) (s : KqWorker) : KqLabel → Option KqWorker
  | .run c =>
    if s.running = none ∧ s.crs.state c = .ready then
      some { s with
        crs := ⟨Function.update s.crs.state c .running, s.crs.ready.erase c⟩
        running := some c }
    else none
  | .yield =>
    match s.running with
    | some c => if s.waiting c = none then some { s with crs := s.crs.enqueue c, running := none } else none
    | none => none
  | .suspend =>
    match s.running with
    | some c => if s.waiting c = none then some (s.stop c .suspended) else none
    | none => none
  | .exit =>
    match s.running with
    | some c => if s.waiting c = none then some (s.stop c .done) else none
    | none => none
  | .waitReady fd f keventOk =>
    match s.running with
    | some c =>
      if s.waiting c = none then
        if keventOk then
          some { s.stop c .suspended with
            kq := s.kq.register fd f.events (some c), waiting := Function.update s.waiting c (some (fd, f)) }
        -- the call returns without suspending
        else some s
      else none
    | none => none
  | .kevent evs => if s.running = none ∧ ∀ k ∈ evs, (s.kq k).isSome then some (s.wait wakeFd evs) else none
  | .wake c => some { s with crs := s.crs.wake c }
  | .complete =>
    match s.running with
    | some c =>
      match s.waiting c with
      | some _ => some { s with waiting := Function.update s.waiting c none }
      | none => none
    | none => none

end KqWorker

/-- The steps of a worker. -/
abbrev KqStep (wakeFd : ℤ) : KqWorker → KqLabel → KqWorker → Prop := StepOf (KqWorker.step wakeFd)

/-- Every entry belongs to a coroutine that waits for it, and every suspended waiter has its entry. -/
structure KqWorker.PerWaiter (s : KqWorker) : Prop where
  own : ∀ k c, s.kq k = some (some c) → s.waiting c = some k
  registered : ∀ c k, s.crs.state c = .suspended → s.waiting c = some k → s.kq k = some (some c)

/-- A wait that completes has had its event, and one that begins takes no entry away from a suspended waiter. -/
def KqWorker.Clean (s : KqWorker) : KqLabel → Prop
  | .complete => ∀ c ∈ s.running, ∀ k ∈ s.waiting c, s.kq k ≠ some (some c)
  | .waitReady fd f true => ∀ c, s.kq (fd, f) = some (some c) → s.crs.state c ≠ .suspended
  | _ => True

namespace KqWorker

variable {wakeFd : ℤ} {s t : KqWorker} {a : KqLabel} {c d : CrId} {k : ℤ × Filter} {evs : List (ℤ × Filter)}

/-- What is true in every state: the only entry without a coroutine is the wake descriptor, the running coroutine is in
state RUNNING, and one that has exited does not wait. -/
structure Inv (wakeFd : ℤ) (s : KqWorker) : Prop where
  wake : ∀ k, s.kq k = some none → k = (wakeFd, .read)
  running : ∀ c, s.running = some c → s.crs.state c = .running
  done : ∀ c, s.crs.state c = .done → s.waiting c = none

/-- What one step does, with the condition under which it is possible. -/
lemma step_cases (h : KqStep wakeFd s a t) :
    (∃ c, a = .run c ∧ s.running = none ∧ s.crs.state c = .ready ∧
      t = { s with crs := ⟨Function.update s.crs.state c .running, s.crs.ready.erase c⟩, running := some c }) ∨
    (∃ c, a = .yield ∧ s.running = some c ∧ s.waiting c = none ∧
      t = { s with crs := s.crs.enqueue c, running := none }) ∨
    (∃ c, a = .suspend ∧ s.running = some c ∧ s.waiting c = none ∧ t = s.stop c .suspended) ∨
    (∃ c, a = .exit ∧ s.running = some c ∧ s.waiting c = none ∧ t = s.stop c .done) ∨
    (∃ c fd f, a = .waitReady fd f true ∧ s.running = some c ∧ s.waiting c = none ∧
      t = { s.stop c .suspended with
        kq := s.kq.register fd f.events (some c), waiting := Function.update s.waiting c (some (fd, f)) }) ∨
    (∃ fd f, a = .waitReady fd f false ∧ t = s) ∨
    (∃ evs, a = .kevent evs ∧ s.running = none ∧ t = s.wait wakeFd evs) ∨
    (∃ c, a = .wake c ∧ t = { s with crs := s.crs.wake c }) ∨
    (∃ c k, a = .complete ∧ s.running = some c ∧ s.waiting c = some k ∧
      t = { s with waiting := Function.update s.waiting c none }) := by
  unfold KqStep StepOf at h
  cases a with
  | waitReady fd f keventOk => cases keventOk <;> simp only [step] at h <;> grind
  | _ => simp only [step] at h; grind

/-! ## Events -/

/-- Waking a coroutine only makes it ready if it is suspended. -/
lemma wake_state (crs : Crs) (c d : CrId) :
    (crs.wake d).state c = crs.state c ∨ c = d ∧ crs.state c = .suspended ∧ (crs.wake d).state c = .ready := by
  by_cases hd : crs.state d = .suspended
  · rw [Crs.wake, if_pos hd]
    by_cases hcd : c = d
    · exact .inr ⟨hcd, hcd ▸ hd, by simp [Crs.enqueue, hcd]⟩
    · exact .inl (by simp [Crs.enqueue, hcd])
  · rw [Crs.wake, if_neg hd]
    exact .inl rfl

/-- A coroutine that has been woken is not suspended. -/
lemma wake_self (crs : Crs) (c : CrId) : (crs.wake c).state c ≠ .suspended := by
  by_cases hc : crs.state c = .suspended
  · simp [Crs.wake, hc, Crs.enqueue]
  · rwa [Crs.wake, if_neg hc]

/-- The loop over the events only makes suspended coroutines ready. -/
lemma foldl_state (wakeFd : ℤ) (l : List (Option (Option CrId))) (s : KqWorker) (c : CrId) :
    (l.foldl (deliver wakeFd) s).crs.state c = s.crs.state c ∨
      s.crs.state c = .suspended ∧ (l.foldl (deliver wakeFd) s).crs.state c = .ready := by
  induction l generalizing s with
  | nil => exact .inl rfl
  | cons x l ih =>
    rw [List.foldl_cons]
    rcases x with _ | _ | d
    · exact ih s
    · exact ih _
    · have hrest := ih { s with crs := s.crs.wake d }
      rcases wake_state s.crs c d with heq | ⟨-, hsusp, hready⟩
      · rwa [← heq]
      · refine .inr ⟨hsusp, hrest.elim (fun h => h.trans hready) fun h => ?_⟩
        exact absurd (h.1.symm.trans hready) (by simp)

/-- A coroutine with an event is not suspended afterwards. -/
lemma foldl_woken (l : List (Option (Option CrId))) (s : KqWorker) (hc : some (some c) ∈ l) :
    (l.foldl (deliver wakeFd) s).crs.state c ≠ .suspended := by
  induction l generalizing s with
  | nil => exact absurd hc List.not_mem_nil
  | cons x l ih =>
    rw [List.foldl_cons]
    rcases List.mem_cons.mp hc with rfl | hl
    · rcases foldl_state wakeFd l (s.deliver wakeFd (some (some c))) c with heq | ⟨hsusp, -⟩
      · rw [heq]
        exact wake_self s.crs c
      · exact absurd hsusp (wake_self s.crs c)
    · exact ih _ hl

/-- The loop registers the wake descriptor again. -/
lemma foldl_kq (wakeFd : ℤ) (l : List (Option (Option CrId))) (s : KqWorker) (k : ℤ × Filter) :
    (l.foldl (deliver wakeFd) s).kq k = s.kq k ∨
      some none ∈ l ∧ k = (wakeFd, .read) ∧ (l.foldl (deliver wakeFd) s).kq k = some none := by
  induction l generalizing s with
  | nil => exact .inl rfl
  | cons x l ih =>
    rw [List.foldl_cons]
    rcases ih (s.deliver wakeFd x) with heq | ⟨hmem, hk, heq⟩
    · rcases x with _ | _ | d
      · exact .inl heq
      · by_cases hk : k = (wakeFd, .read)
        · refine .inr ⟨List.mem_cons_self, hk, heq.trans ?_⟩
          simp [deliver, Knotes.register, hk, Events.asks]
        · refine .inl (heq.trans ?_)
          have hnot : ¬ (k.1 = wakeFd ∧ (⟨true, false⟩ : Events).asks k.2 = true) := by
            rintro ⟨hfd, hasks⟩
            obtain ⟨fd, f⟩ := k
            cases f with
            | read => exact hk (by rw [show fd = wakeFd from hfd])
            | write => cases hasks
          exact if_neg hnot
      · exact .inl heq
    · exact .inr ⟨List.mem_cons_of_mem _ hmem, hk, heq⟩

lemma foldl_rest (wakeFd : ℤ) (l : List (Option (Option CrId))) (s : KqWorker) :
    (l.foldl (deliver wakeFd) s).running = s.running ∧ (l.foldl (deliver wakeFd) s).waiting = s.waiting := by
  induction l generalizing s with
  | nil => exact ⟨rfl, rfl⟩
  | cons x l ih =>
    rw [List.foldl_cons]
    rcases x with _ | _ | d
    · exact ih s
    · exact ih _
    · exact ih _

/-! ## `s_kq_wait` -/

lemma wait_running : (s.wait wakeFd evs).running = s.running := (foldl_rest wakeFd _ _).1

lemma wait_waiting : (s.wait wakeFd evs).waiting = s.waiting := (foldl_rest wakeFd _ _).2

/-- It only makes suspended coroutines ready. -/
lemma wait_state (d : CrId) : (s.wait wakeFd evs).crs.state d = s.crs.state d ∨
    s.crs.state d = .suspended ∧ (s.wait wakeFd evs).crs.state d = .ready :=
  foldl_state wakeFd _ _ d

/-- A coroutine with an event is not suspended afterwards. -/
lemma wait_woken (hk : k ∈ evs) (hc : s.kq k = some (some c)) : (s.wait wakeFd evs).crs.state c ≠ .suspended :=
  foldl_woken _ _ (List.mem_map.mpr ⟨k, hk, hc⟩)

/-- It takes the entries of the events away, and may register the wake descriptor again. -/
lemma wait_kq_cases (k : ℤ × Filter) : (s.wait wakeFd evs).kq k = (if k ∈ evs then none else s.kq k) ∨
    some none ∈ evs.map s.kq ∧ k = (wakeFd, .read) ∧ (s.wait wakeFd evs).kq k = some none :=
  foldl_kq wakeFd _ _ k

/-- The entries of coroutines after `s_kq_wait`: those without an event. -/
lemma wait_kq (hs : s.Inv wakeFd) : (s.wait wakeFd evs).kq k = some (some c) ↔ s.kq k = some (some c) ∧ k ∉ evs := by
  have hbase : (if k ∈ evs then none else s.kq k) = some (some c) ↔ s.kq k = some (some c) ∧ k ∉ evs := by
    by_cases hk : k ∈ evs
    · simp [hk]
    · simp [hk]
  rcases wait_kq_cases k with heq | ⟨hmem, hk, heq⟩
  · rw [heq]
    exact hbase
  · obtain ⟨k', -, hk'⟩ := List.mem_map.mp hmem
    have hwake : s.kq k = some none := by rw [hk, ← hs.wake k' hk', hk']
    rw [heq]
    simp [hwake]

/-! ## Steps -/

lemma inv_init (wakeFd : ℤ) : (init wakeFd).Inv wakeFd := by
  refine ⟨fun k hk => ?_, (fun c hc => by cases hc), fun c hc => by cases hc⟩
  obtain ⟨fd, f⟩ := k
  cases f with
  | read =>
    have hfd : fd = wakeFd := by
      by_contra hne
      simp [init, Knotes.register, hne] at hk
    rw [hfd]
  | write => simp [init, Knotes.register, Events.asks] at hk

lemma inv_wait (hs : s.Inv wakeFd) (hrun : s.running = none) : (s.wait wakeFd evs).Inv wakeFd := by
  refine ⟨fun k hk => ?_, fun d hd => ?_, fun d hd => ?_⟩
  · rcases wait_kq_cases k with heq | ⟨-, hk', -⟩
    · rw [heq] at hk
      by_cases hmem : k ∈ evs
      · simp [hmem] at hk
      · exact hs.wake k (by simpa [hmem] using hk)
    · exact hk'
  · rw [wait_running, hrun] at hd
    cases hd
  · rw [wait_waiting]
    refine hs.done d ?_
    rcases wait_state d with heq | ⟨-, hready⟩
    · exact heq.symm.trans hd
    · exact absurd (hready.symm.trans hd) (by simp)

/-- Every step keeps what is true in every state. -/
lemma inv_step (hs : s.Inv wakeFd) (h : KqStep wakeFd s a t) : t.Inv wakeFd := by
  obtain ⟨c, -, hrun, hst, rfl⟩ | ⟨c, -, hrun, hwait, rfl⟩ | ⟨c, -, hrun, hwait, rfl⟩ | ⟨c, -, hrun, hwait, rfl⟩ |
    ⟨c, fd, f, -, hrun, hwait, rfl⟩ | ⟨_, _, -, rfl⟩ | ⟨evs, -, hrun, rfl⟩ | ⟨c, -, rfl⟩ |
    ⟨c, k, -, hrun, hwait, rfl⟩ := step_cases h
  · refine ⟨hs.wake, fun d hd => ?_, fun d hd => ?_⟩
    · cases hd
      simp
    · by_cases hdc : d = c
      · simp [hdc] at hd
      · exact hs.done d (by simpa [hdc] using hd)
  · refine ⟨hs.wake, (fun d hd => by cases hd), fun d hd => ?_⟩
    by_cases hdc : d = c
    · exact hdc ▸ hwait
    · exact hs.done d (by simpa [Crs.enqueue, hdc] using hd)
  · refine ⟨hs.wake, (fun d hd => by cases hd), fun d hd => ?_⟩
    by_cases hdc : d = c
    · exact hdc ▸ hwait
    · exact hs.done d (by simpa [stop, hdc] using hd)
  · refine ⟨hs.wake, (fun d hd => by cases hd), fun d hd => ?_⟩
    by_cases hdc : d = c
    · exact hdc ▸ hwait
    · exact hs.done d (by simpa [stop, hdc] using hd)
  · refine ⟨fun k hk => ?_, (fun d hd => by cases hd), fun d hd => ?_⟩
    · refine hs.wake k ?_
      by_cases hreg : k.1 = fd ∧ f.events.asks k.2 = true
      · simp [Knotes.register, hreg] at hk
      · simpa [Knotes.register, hreg] using hk
    · by_cases hdc : d = c
      · simp [stop, hdc] at hd
      · have hd' := hs.done d (by simpa [stop, hdc] using hd)
        simpa [hdc] using hd'
  · exact hs
  · exact inv_wait hs hrun
  · refine ⟨hs.wake, fun d hd => ?_, fun d hd => ?_⟩
    · rcases wake_state s.crs d c with heq | ⟨-, hsusp, -⟩
      · exact heq.trans (hs.running d hd)
      · exact absurd ((hs.running d hd).symm.trans hsusp) (by simp)
    · rcases wake_state s.crs d c with heq | ⟨-, -, hready⟩
      · exact hs.done d (heq.symm.trans hd)
      · exact absurd (hready.symm.trans hd) (by simp)
  · refine ⟨hs.wake, hs.running, fun d hd => ?_⟩
    by_cases hdc : d = c
    · simp [hdc]
    · simpa [hdc] using hs.done d hd

lemma inv_of_reachable (h : Reachable (KqStep wakeFd) (init wakeFd) s) : s.Inv wakeFd :=
  h.invariant (inv_init wakeFd) fun _ _ _ hs hstep => inv_step hs hstep

lemma perWaiter_init (wakeFd : ℤ) : (init wakeFd).PerWaiter := by
  refine ⟨fun k c hk => ?_, fun c k hc => by cases hc⟩
  by_cases hreg : k.1 = wakeFd ∧ (⟨true, false⟩ : Events).asks k.2 = true
  · simp [init, Knotes.register, hreg] at hk
  · simp [init, Knotes.register, hreg] at hk

/-- The entry that a wait adds. -/
lemma register_kq {kq : Knotes} {fd : ℤ} {f : Filter} {x : Option CrId} :
    kq.register fd f.events x k = if k = (fd, f) then some x else kq k := by
  obtain ⟨fd', f'⟩ := k
  cases f <;> cases f' <;> simp [Knotes.register, Filter.events, Events.asks]

/-- A wait that begins: the entries are per waiter if and only if it takes no entry away from a suspended waiter. -/
lemma perWaiter_waitReady {fd : ℤ} {f : Filter} (hs : s.PerWaiter) (hc : s.crs.state c = .running)
    (hwait : s.waiting c = none) :
    PerWaiter { s.stop c .suspended with
      kq := s.kq.register fd f.events (some c), waiting := Function.update s.waiting c (some (fd, f)) } ↔
    ∀ d, s.kq (fd, f) = some (some d) → s.crs.state d ≠ .suspended := by
  constructor
  · rintro ht d hd hsusp
    have hdc : d ≠ c := fun heq => by rw [heq, hc] at hsusp; cases hsusp
    have hkq : s.kq.register fd f.events (some c) (fd, f) = some (some d) :=
      ht.registered d (fd, f) (by simpa [stop, hdc] using hsusp) (by simpa [hdc] using hs.own _ d hd)
    rw [register_kq, if_pos rfl] at hkq
    exact hdc (Option.some.inj (Option.some.inj hkq)).symm
  · intro hclean
    refine ⟨fun k d hk => ?_, fun d k hst hw => ?_⟩
    · replace hk : s.kq.register fd f.events (some c) k = some (some d) := hk
      rw [register_kq] at hk
      split at hk
      next hkf =>
        cases hk
        simp [hkf]
      next =>
        have hown := hs.own k d hk
        have hdc : d ≠ c := fun heq => by rw [heq, hwait] at hown; cases hown
        simpa [hdc] using hown
    · show s.kq.register fd f.events (some c) k = some (some d)
      rw [register_kq]
      by_cases hdc : d = c
      · subst hdc
        have hk : k = (fd, f) := by simpa using hw.symm
        rw [if_pos hk]
      · have hst : s.crs.state d = .suspended := by simpa [stop, hdc] using hst
        have hkq := hs.registered d k hst (by simpa [hdc] using hw)
        have hkf : k ≠ (fd, f) := fun heq => hclean d (heq ▸ hkq) hst
        rw [if_neg hkf]
        exact hkq

lemma perWaiter_wait (hinv : s.Inv wakeFd) (hs : s.PerWaiter) : (s.wait wakeFd evs).PerWaiter := by
  refine ⟨fun k d hk => ?_, fun d k hd hw => ?_⟩
  · rw [wait_waiting]
    exact hs.own k d ((wait_kq hinv).mp hk).1
  · rw [wait_waiting] at hw
    have hsusp : s.crs.state d = .suspended := by
      rcases wait_state d with heq | ⟨hsusp, -⟩
      · exact heq.symm.trans hd
      · exact hsusp
    have hkq := hs.registered d k hsusp hw
    exact (wait_kq hinv).mpr ⟨hkq, fun hmem => wait_woken hmem hkq hd⟩

/-- A step keeps the entries per waiter if and only if it is clean. -/
lemma perWaiter_iff_clean (hinv : s.Inv wakeFd) (hs : s.PerWaiter) (h : KqStep wakeFd s a t) :
    t.PerWaiter ↔ s.Clean a := by
  obtain ⟨c, rfl, hrun, hst, rfl⟩ | ⟨c, rfl, hrun, hwait, rfl⟩ | ⟨c, rfl, hrun, hwait, rfl⟩ |
    ⟨c, rfl, hrun, hwait, rfl⟩ | ⟨c, fd, f, rfl, hrun, hwait, rfl⟩ | ⟨_, _, rfl, rfl⟩ |
    ⟨evs, rfl, hrun, rfl⟩ | ⟨c, rfl, rfl⟩ | ⟨c, k, rfl, hrun, hwait, rfl⟩ := step_cases h
  · refine iff_of_true ⟨hs.own, fun d k hd => ?_⟩ trivial
    by_cases hdc : d = c
    · simp [hdc] at hd
    · exact hs.registered d k (by simpa [hdc] using hd)
  · refine iff_of_true ⟨hs.own, fun d k hd => ?_⟩ trivial
    by_cases hdc : d = c
    · simp [Crs.enqueue, hdc] at hd
    · exact hs.registered d k (by simpa [Crs.enqueue, hdc] using hd)
  · refine iff_of_true ⟨hs.own, fun d k hd hw => ?_⟩ trivial
    by_cases hdc : d = c
    · have hw : s.waiting d = some k := hw
      rw [hdc, hwait] at hw
      cases hw
    · exact hs.registered d k (by simpa [stop, hdc] using hd) hw
  · refine iff_of_true ⟨hs.own, fun d k hd => ?_⟩ trivial
    by_cases hdc : d = c
    · simp [stop, hdc] at hd
    · exact hs.registered d k (by simpa [stop, hdc] using hd)
  · exact perWaiter_waitReady hs (hinv.running c hrun) hwait
  · exact iff_of_true hs trivial
  · exact iff_of_true (perWaiter_wait hinv hs) trivial
  · refine iff_of_true ⟨hs.own, fun d k hd => ?_⟩ trivial
    rcases wake_state s.crs d c with heq | ⟨-, -, hready⟩
    · exact hs.registered d k (heq.symm.trans hd)
    · exact absurd (hready.symm.trans hd) (by simp)
  · have hne (d : CrId) (hd : s.crs.state d = .suspended) : d ≠ c := by
      rintro rfl
      rw [hinv.running d hrun] at hd
      cases hd
    constructor
    · rintro ht d hd k' hk' hkq
      obtain rfl : c = d := Option.mem_unique hrun hd
      have hown := ht.own k' c hkq
      simp at hown
    · intro hclean
      refine ⟨fun k' d hk' => ?_, fun d k' hd hw => ?_⟩
      · have hown := hs.own k' d hk'
        have hdc : d ≠ c := by
          rintro rfl
          exact hclean d hrun k' hown hk'
        simpa [hdc] using hown
      · exact hs.registered d k' hd (by simpa [hne d hd] using hw)

end KqWorker

/-- The entries of the kernel are those of the suspended waiters exactly as long as every wait that completes has had
its event and none takes an entry away from a suspended waiter: a step keeps them so if and only if it is clean, and in
every run of clean steps they are so, and no event is delivered to a coroutine that has exited.  There is a run in
which one is. -/
theorem kqueue_registrations (wakeFd : ℤ) :
    (∀ s t a, Reachable (KqStep wakeFd) (.init wakeFd) s → s.PerWaiter → KqStep wakeFd s a t →
      (t.PerWaiter ↔ s.Clean a)) ∧
    (∀ s, Reachable (Restrict (KqStep wakeFd) fun s a _ => s.Clean a) (.init wakeFd) s →
      s.PerWaiter ∧ ∀ k c, s.kq k = some (some c) → s.crs.state c ≠ .done) ∧
    ∃ s k c, Reachable (KqStep wakeFd) (.init wakeFd) s ∧ s.kq k = some (some c) ∧ s.crs.state c = .done := by
  refine ⟨fun s t a hs hper hstep => KqWorker.perWaiter_iff_clean (KqWorker.inv_of_reachable hs) hper hstep,
    fun s hs => ?_, ?_⟩
  · have hinv := KqWorker.inv_of_reachable hs.of_restrict
    have hper : s.PerWaiter := by
      have key : s.Inv wakeFd ∧ s.PerWaiter := by
        refine hs.invariant (I := fun s => s.Inv wakeFd ∧ s.PerWaiter)
          ⟨KqWorker.inv_init wakeFd, KqWorker.perWaiter_init wakeFd⟩ ?_
        rintro s a t ⟨hinv, hper⟩ ⟨hstep, hclean⟩
        exact ⟨KqWorker.inv_step hinv hstep, (KqWorker.perWaiter_iff_clean hinv hper hstep).mpr hclean⟩
      exact key.2
    refine ⟨hper, fun k c hk hdone => ?_⟩
    have hnone := hinv.done c hdone
    rw [hper.own k c hk] at hnone
    cases hnone
  · -- coroutine 1 waits, is timed out, and exits
    have hrun : Reachable (KqStep wakeFd) (.init wakeFd) _ :=
      ⟨[.run 1, .waitReady (wakeFd + 1) .read true, .wake 1, .run 1, .complete, .exit],
        .cons rfl <| .cons rfl <| .cons rfl <| .cons rfl <| .cons rfl <| .cons rfl <| .nil _⟩
    refine ⟨_, (wakeFd + 1, .read), 1, hrun, ?_, ?_⟩
    · show Knotes.register _ (wakeFd + 1) Filter.read.events (some 1) (wakeFd + 1, .read) = some (some 1)
      rw [KqWorker.register_kq, if_pos rfl]
    · rfl

end Suspenders.Io
