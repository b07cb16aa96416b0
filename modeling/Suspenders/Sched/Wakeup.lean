import Suspenders.Sched.Inv

/-!
# No lost wakeup

A coroutine that is suspended in a wait loop although its wait is decided has a wake coming: its decider
has not made its wake yet, or the coroutine is in the inbox of its worker, or is being delivered from it.
The same holds already between the test of the wait loop and the switch, where the wake cannot make the
coroutine ready and has to go through the inbox; this is what carries the invariant over the switch.
-/

namespace Suspenders.Sched

open Lib Wait

/-! ## Decided waits and outstanding wakes -/

/-- In the wait loop of `s_wait_block`, of `s_mutex_lock_raw` or of a select. -/
def inLoop : Pc → Bool
  | .blk _ _ | .susp _ _ | .selTest _ | .selSusp _ => true
  | _ => false

/-- In the wait loop of a select. -/
def inSelect : Pc → Bool
  | .selTest _ | .selSusp _ => true
  | _ => false

/-- Between the test of a wait loop and `suspenders_suspend`. -/
def onEdge : Pc → Bool
  | .susp _ _ | .selSusp _ => true
  | _ => false

/-- The wait of coroutine `c`, which is in a wait loop, is decided. -/
def WaitDecided (s : Core) (c : CrId) : Prop :=
  (s.heap.waits.node (.wq c)).status ≠ .waiting ∨
    (inSelect (s.pc (.co c)) = true ∧ s.heap.waits.winner c ≠ none)

/-- It is decided through node `n`. -/
def DecidedThrough (s : Core) : NodeRef → Prop
  | .wq c => (s.heap.waits.node (.wq c)).status ≠ .waiting
  | .sel c i => inSelect (s.pc (.co c)) = true ∧ s.heap.waits.winner c = some i

/-- The decider of `c`'s wait has still to wake `c`. -/
def WakePending (s : Core) (c : CrId) : Prop :=
  ∃ a n, n.cr = c ∧ DecidedThrough s n ∧ .wake n ∈ s.work a

/-- Coroutine `c` is being drained from the inbox of worker `w`: it is in the list that `s_inbox_drain` has
taken, or `s_inbox_deliver` is calling `s_waiter_wake` for it. -/
def Runtime.Draining (r : Runtime) (w : WorkerId) (c : CrId) : Prop :=
  c ∈ (r.loop w).draining ∨
    ((∃ rest, r.loop w = .drain rest) ∧ waking (r.core.pc (.sched w)) = some (.deliver, c))

/-- A wake of coroutine `c` is outstanding. -/
def Runtime.Outstanding (r : Runtime) (c : CrId) : Prop :=
  WakePending r.core c ∨ ∃ w, r.pin c = some w ∧ (c ∈ r.inbox w ∨ r.Draining w c)

/-- Coroutine `c` is suspended in a wait loop, or about to be. -/
def Runtime.Exposed (r : Runtime) (c : CrId) : Prop :=
  (r.life c = .suspended ∧ inLoop (r.core.pc (.co c)) = true) ∨ onEdge (r.core.pc (.co c)) = true

/-- Nobody who is exposed misses a wake. -/
structure WakeInv (r : Runtime) : Prop where
  /-- Nobody suspends with wakes to do. -/
  edge : ∀ c, onEdge (r.core.pc (.co c)) = true → r.core.work (.co c) = []
  /-- Decided waits have their wakes. -/
  wake : ∀ c, r.Exposed c → WaitDecided r.core c → r.Outstanding c

lemma wakeInv_init (cfg : Config) : WakeInv (.init cfg) where
  edge := by simp [Runtime.init, Core.init, onEdge]
  wake := by simp [Runtime.Exposed, Runtime.init, Core.init, onEdge]

/-! ## Places -/

lemma inLoop_of_onEdge {pc : Pc} (h : onEdge pc = true) : inLoop pc = true := by
  cases pc <;> first | rfl | cases h

lemma onEdge_of_plain {pc : Pc} (h : plain pc = true) : onEdge pc = false := by
  cases pc <;> first | rfl | cases h

lemma onEdge_of_place {pc : Pc} {x : Life} (hx : x ≠ .running) (h : x.Place pc) :
    onEdge pc = false := by
  cases x with
  | running => exact absurd rfl hx
  | unborn | done =>
    obtain rfl : pc = .idle := h
    rfl
  | ready => cases pc <;> simp [Life.Place, atRest, canYield] at h <;> rfl
  | suspended => cases pc <;> simp [Life.Place, atRest] at h <;> rfl

/-- Whoever is about to suspend is running. -/
lemma SchedInv.edge_running {r : Runtime} (h : SchedInv r) {c : CrId}
    (hc : onEdge (r.core.pc (.co c)) = true) : r.life c = .running := by
  by_contra hne
  have hplace := onEdge_of_place hne (h.place c)
  rw [hc] at hplace
  cases hplace

/-- Whoever is in a wait loop is pinned. -/
lemma SchedInv.exposed_pinned {r : Runtime} (h : SchedInv r) {c : CrId} (hc : r.Exposed c) :
    ∃ w, r.pin c = some w := by
  cases hpin : r.pin c with
  | some w => exact ⟨w, rfl⟩
  | none =>
    have hidle := (h.fresh c hpin).1
    simp [Runtime.Exposed, hidle, inLoop, onEdge] at hc

/-- How a coroutine comes to the point of suspending: its test found the wait undecided. -/
lemma step_edge {s t : Core} {c : CrId} {act : Act} (h : Step s ⟨.co c, act⟩ t)
    (ht : onEdge (t.pc (.co c)) = true) :
    (s.work (.co c) ≠ [] ∧ t.pc = s.pc) ∨ (t.work (.co c) = [] ∧ ¬ WaitDecided t c) := by
  cases h with
  | «local» _ hl =>
    exfalso
    rw [Core.setPc_pc_self] at ht
    generalize s.pc (.co c) = pc at hl
    cases hl with
    | call => simp [onEdge_of_plain (plain_entry _ _ _)] at ht
    | preCanceled | preExpired => simp [onEdge_of_plain (plain_fail _ _)] at ht
    | preGo => simp [onEdge_of_plain (plain_go _ _ _ _)] at ht
    | ioReady | wakeGiveUp => split at ht <;> cases ht
    | _ => cases ht
  | crit => simp [onEdge_of_plain (plain_next _ _)] at ht
  | decided => simp [onEdge_of_plain (plain_after _ _)] at ht
  | wake hwork | unlock hwork | fin hwork => exact Or.inl ⟨by simp [hwork], rfl⟩
  | testWaiting hpc hwork hst =>
    exact Or.inr ⟨hwork, by simp [WaitDecided, hst, inSelect]⟩
  | selWaiting hpc hwork hwin hst =>
    exact Or.inr ⟨hwork, by simp [WaitDecided, hst, hwin]⟩
  | selTry | selRetry | flip =>
    simp only [Core.setWork_pc, Core.setPc_pc_self] at ht
    split at ht <;> cases ht
  | _ => simp [onEdge] at ht

/-- Who suspends in a wait loop was about to. -/
lemma step_suspend_edge {s t : Core} {c : CrId} (h : Step s ⟨.co c, .suspend⟩ t)
    (ht : inLoop (t.pc (.co c)) = true) : onEdge (s.pc (.co c)) = true ∧
      inSelect (t.pc (.co c)) = inSelect (s.pc (.co c)) ∧ t.heap = s.heap ∧ t.work = s.work := by
  cases h with
  | «local» _ hl =>
    rw [Core.setPc_pc_self] at ht
    generalize s.pc (.co c) = pc at hl
    cases hl <;> cases ht
  | suspend hpc _ => simp [hpc, onEdge, inSelect]
  | selSuspend hpc _ => simp [hpc, onEdge, inSelect]

/-- `s_waiter_wake` goes on until it decides the wait or gives up, and it gives up where it finds the wait decided. -/
lemma step_waker {s t : Core} {a : Ctx} {act : Act} (h : Step s ⟨a, act⟩ t) {f : WakeFor} {x : CrId}
    (hs : waking (s.pc a) = some (f, x)) :
    (waking (t.pc a) = some (f, x) ∧ (t.pc a = .wakeMiss f x →
      s.pc a = .wakeMiss f x ∨ (t.heap.waits.node (.wq x)).status ≠ .waiting)) ∨
      (act = .waker ∧ s.pc a = .wakeMiss f x) ∨ act = .flip x f.code := by
  cases h with
  | «local» _ hl =>
    rw [Core.setPc_pc_self]
    generalize s.pc a = pc at hl hs
    cases hl with
    | wakeHit => exact Or.inl ⟨hs, fun heq => by cases heq⟩
    | wakeNo hst | wakeLost hst =>
      refine Or.inl ⟨hs, fun heq => Or.inr ?_⟩
      obtain ⟨rfl, rfl⟩ : _ ∧ _ := by simpa using heq
      exact hst
    | wakeGiveUp =>
      obtain ⟨rfl, rfl⟩ : _ ∧ _ := by simpa [waking] using hs
      exact Or.inr (Or.inl ⟨rfl, rfl⟩)
    | _ => cases hs
  | wake | unlock | fin => exact Or.inl ⟨hs, Or.inl⟩
  | flip hpc _ _ _ =>
    obtain ⟨rfl, rfl⟩ : _ ∧ _ := by simpa [hpc, waking] using hs
    exact Or.inr (Or.inr rfl)
  | crit hpc _ _ | sleepFire hpc _ _ _ | selTry hpc _ _ _ | testWaiting hpc _ _ | testDecided hpc _ _
  | suspend hpc _ | decided hpc _ _ _ | sleepPark hpc _ | selInit hpc _ | selReady hpc _ _ _ _
  | selPark hpc _ _ _ _ | selRegEnd hpc _ | selWaiting hpc _ _ _ | selDecided hpc _ _ | selSuspend hpc _
  | selUnreg hpc _ _ _ _ | selLeave hpc _ _ | selAgain _ hpc _ _ _ | selRetry hpc _ _ _
  | selRescanEnd hpc _ | selSync hpc _ _ | selSync2 hpc _ _ | selWon hpc _ | selScanned hpc _
  | selFailed hpc _ _ => simp [hpc, waking] at hs

/-! ## Steps of the wait protocol -/

/-- A decided wait stays decided through its node, whatever others do. -/
lemma DecidedThrough.other {s t : Core} {e : Event} (hf : Footprint s e t) {n : NodeRef}
    (hne : e.ctx ≠ .co n.cr) (h : DecidedThrough s n) : DecidedThrough t n := by
  cases n with
  | wq c =>
    by_cases hn : .wq c ∈ e.act.decides
    · exact absurd (hf.waits.decided _ hn).1 h
    · change (t.heap.waits.node (.wq c)).status ≠ .waiting
      rw [(hf.waits.kept _ hn hne).1]
      exact h
  | sel c i =>
    obtain ⟨hsel, hwin⟩ := h
    have hpc : t.pc (.co c) = s.pc (.co c) := hf.pc _ (Ne.symm hne)
    refine ⟨by rw [hpc]; exact hsel, ?_⟩
    rcases hf.waits.winner c hne with ⟨heq, -⟩ | ⟨hnone, -⟩
    · rw [heq, hwin]
    · rw [hwin] at hnone
      cases hnone

/-- A wait that others decide is decided through a node whose coroutine they are going to wake. -/
lemma WaitDecided.other {s t : Core} {e : Event} (hf : Footprint s e t) {c : CrId}
    (hne : e.ctx ≠ .co c) (h : WaitDecided t c) :
    WaitDecided s c ∨ ∃ n ∈ e.act.decides, n.cr = c ∧ DecidedThrough t n := by
  rcases h with h | ⟨hsel, hwin⟩
  · by_cases hn : .wq c ∈ e.act.decides
    · exact Or.inr ⟨.wq c, hn, rfl, h⟩
    · rw [(hf.waits.kept _ hn hne).1] at h
      exact Or.inl (Or.inl h)
  · rcases hf.waits.winner c hne with ⟨heq, -⟩ | ⟨-, i, hsome, hmem⟩
    · rw [hf.pc _ (Ne.symm hne)] at hsel
      rw [heq] at hwin
      exact Or.inl (Or.inr ⟨hsel, hwin⟩)
    · exact Or.inr ⟨.sel c i, (hmem i).mpr rfl, rfl, hsel, hsome⟩

/-- Nobody else is executed on the worker of a coroutine that is about to suspend. -/
lemma SchedInv.edge_alone {r : Runtime} (h : SchedInv r) {a : Ctx} (hactive : r.Active a) {c : CrId}
    (hc : onEdge (r.core.pc (.co c)) = true) (hne : a ≠ .co c) : r.pin c ≠ r.workerOf a := by
  obtain ⟨w, hpin, hrun⟩ := h.running c (h.edge_running hc)
  rw [hpin]
  intro hw
  cases a with
  | co c' =>
    obtain ⟨w', hpin', hrun'⟩ := hactive
    simp only [Runtime.workerOf, hpin'] at hw
    obtain rfl := Option.some.inj hw
    rw [hrun] at hrun'
    exact hne (by rw [Option.some.inj hrun'])
  | sched w' =>
    obtain rfl := Option.some.inj hw
    have hnone : r.run w = none := hactive
    rw [hrun] at hnone
    cases hnone
  | ext f => cases hw

/-- A pushed coroutine is in its worker's inbox, if only through an entry that is in flight already. -/
lemma SchedInv.pushed {r : Runtime} (h : SchedInv r) {c : CrId} {w : WorkerId} (hpin : r.pin c = some w) :
    c ∈ (r.inboxWake c).inbox w ∨ c ∈ (r.loop w).draining := by
  by_cases hflight : r.inflight c = true
  · -- the entry that is in flight has not been taken
    obtain ⟨w', hpin', hin⟩ := h.inflight c hflight
    obtain rfl : w = w' := Option.some.inj (hpin.symm.trans hpin')
    refine hin.imp ((Nudged.inboxWake r c).inbox w c) fun hl => ?_
    cases hloop : r.loop w <;> rw [hloop] at hl <;> simp [Loop.left, Loop.draining] at hl ⊢
    · exact hl
    · exact Or.inr hl
  · simp [Runtime.inboxWake, hpin, hflight]

/-- A wake of an exposed coroutine makes it ready or puts it into its worker's inbox. -/
lemma SchedInv.woken_exposed {r : Runtime} (h : SchedInv r) {a : Ctx} (hactive : r.Active a)
    {c : CrId} (hne : a ≠ .co c) (hc : r.Exposed c) :
    (r.wakeNoPreempt (r.workerOf a) c).life c = .ready ∨
      ∃ w, r.pin c = some w ∧ (c ∈ (r.wakeNoPreempt (r.workerOf a) c).inbox w ∨
        c ∈ (r.loop w).draining) := by
  obtain ⟨w, hpin⟩ := h.exposed_pinned hc
  by_cases hw : r.pin c = r.workerOf a
  · have hs : r.life c = .suspended := by
      rcases hc with ⟨hs, -⟩ | hedge
      · exact hs
      · exact absurd hw (h.edge_alone hactive hedge hne)
    left
    simp [Runtime.wakeNoPreempt, ← hw, hs, Runtime.setLife]
  · right
    have heq : r.wakeNoPreempt (r.workerOf a) c = r.inboxWake c := by
      unfold Runtime.wakeNoPreempt
      rw [if_pos ⟨by simp [hpin], hw⟩]
    rw [heq]
    exact ⟨w, hpin, h.pushed hpin⟩

/-- A switch changes the state of nobody else. -/
lemma switchOut_life (r : Runtime) (a : Ctx) (x : Life) {c : CrId} (hne : a ≠ .co c) :
    (r.switchOut a x).life c = r.life c := by
  cases a with
  | co c' =>
    have hcc : c ≠ c' := by
      rintro rfl
      exact hne rfl
    cases hpin : r.pin c' with
    | none => simp [Runtime.switchOut, hpin]
    | some w => simp [Runtime.switchOut, hpin, Runtime.setLife, hcc]
  | _ => rfl

/-- Nobody is suspended by somebody else. -/
lemma effect_suspended {r : Runtime} {a : Ctx} {pc pc' : Pc} {act : Act} {c : CrId} (hne : a ≠ .co c)
    (hc : (r.effect a pc act pc').life c = .suspended) : r.life c = .suspended := by
  by_cases hact : act = .suspend
  · subst hact
    rw [← switchOut_life r a .suspended hne]
    exact hc
  · rcases (Nudged.effect r a pc hact pc').life c with heq | ⟨hs, -⟩
    · rw [← heq]
      exact hc
    · exact hs

/-- Who is exposed after a step of somebody else was exposed before. -/
lemma Runtime.Exposed.other {r : Runtime} {a : Ctx} {act : Act} {s : Core} {c : CrId}
    (hf : Footprint r.core ⟨a, act⟩ s) (hne : a ≠ .co c)
    (hc : Runtime.Exposed { r.effect a (r.core.pc a) act (s.pc a) with core := s } c) :
    r.Exposed c := by
  have hpc : s.pc (.co c) = r.core.pc (.co c) := hf.pc _ (Ne.symm hne)
  exact hc.imp (fun ⟨hlife, hloop⟩ => ⟨effect_suspended hne hlife, by rw [← hpc]; exact hloop⟩)
    (by rw [← hpc]; exact id)

/-- What an outstanding wake of `c` may turn into while `c` itself does nothing. -/
lemma Runtime.Outstanding.congr {r r' : Runtime} {c : CrId} (h : r.Outstanding c)
    (hpend : WakePending r.core c → r'.Outstanding c) (hpin : r'.pin c = r.pin c)
    (hinbox : ∀ w, c ∈ r.inbox w → c ∈ r'.inbox w ∨ c ∈ (r'.loop w).draining)
    (hdrain : ∀ w, r.pin c = some w → r.Draining w c → r'.Outstanding c) : r'.Outstanding c := by
  rcases h with h | ⟨w, hp, hin | hd⟩
  · exact hpend h
  · exact Or.inr ⟨w, hpin.trans hp, (hinbox w hin).imp id Or.inl⟩
  · exact hdrain w hp hd

/-- The effect of an action on the loops: who switches out leaves a loop that was at its head. -/
lemma SchedInv.effect_loop {r : Runtime} (h : SchedInv r) {a : Ctx} (hactive : r.Active a) (pc : Pc)
    (act : Act) (pc' : Pc) {w : WorkerId} (hw : r.loop w ≠ .top) :
    (r.effect a pc act pc').loop w = r.loop w := by
  by_cases hact : act = .suspend
  · subst hact
    cases a with
    | co c =>
      obtain ⟨w₀, hpin, hrun⟩ := hactive
      have hne : w ≠ w₀ := by
        rintro rfl
        exact hw (h.rest w c hrun).1
      simp [Runtime.effect, Runtime.switchOut, hpin, hne]
    | _ => rfl
  · rw [(Nudged.effect r a pc hact pc').loop]

lemma effect_pin (r : Runtime) (a : Ctx) (pc : Pc) (act : Act) (pc' : Pc) :
    (r.effect a pc act pc').pin = r.pin := by
  by_cases hact : act = .suspend
  · subst hact
    simp only [Runtime.effect, Runtime.switchOut]
    split
    · split <;> rfl
    · rfl
  · exact (Nudged.effect r a pc hact pc').pin

lemma effect_inbox (r : Runtime) (a : Ctx) (pc : Pc) (act : Act) (pc' : Pc) {w : WorkerId} {c : CrId}
    (h : c ∈ r.inbox w) : c ∈ (r.effect a pc act pc').inbox w := by
  by_cases hact : act = .suspend
  · subst hact
    simp only [Runtime.effect, Runtime.switchOut]
    split
    · split <;> exact h
    · exact h
  · exact (Nudged.effect r a pc hact pc').inbox w c h

/-- Nobody who has been made ready is exposed. -/
lemma SchedInv.exposed_not_ready {r r₁ : Runtime} {s : Core} (h : SchedInv r) (hn : Nudged r r₁)
    {c : CrId} (hpc : s.pc (.co c) = r.core.pc (.co c))
    (hnew : Runtime.Exposed { r₁ with core := s } c) : r₁.life c ≠ .ready := by
  intro hready
  rcases hnew with ⟨hs, -⟩ | hedge
  · change r₁.life c = .suspended at hs
    rw [hready] at hs
    cases hs
  · have hrun := h.edge_running (c := c) (by rw [← hpc]; exact hedge)
    rcases hn.life c with heq | ⟨hs, -⟩
    · rw [heq, hrun] at hready
      cases hready
    · rw [hrun] at hs
      cases hs

/-- An exposed coroutine waits for no io_uring operation. -/
lemma SchedInv.exposed_op {r : Runtime} (h : SchedInv r) {c : CrId} (hc : r.Exposed c) :
    r.op c = none := by
  rw [h.op c]
  have hin : inLoop (r.core.pc (.co c)) = true := by
    rcases hc with ⟨-, hin⟩ | hedge
    · exact hin
    · exact inLoop_of_onEdge hedge
  generalize r.core.pc (.co c) = pc at hin
  cases pc <;> first | rfl | cases hin

section Other

variable {r : Runtime} {a : Ctx} {act : Act} {s : Core} {c : CrId}

/-- A pending wake is made, or stays pending. -/
lemma SchedInv.pending_other (h : SchedInv r) (hactive : r.Active a)
    (hf : Footprint r.core ⟨a, act⟩ s) (hstep : Step r.core ⟨a, act⟩ s) (hne : a ≠ .co c)
    (hold : r.Exposed c)
    (hnew : Runtime.Exposed { r.effect a (r.core.pc a) act (s.pc a) with core := s } c)
    (hpend : WakePending r.core c) :
    Runtime.Outstanding { r.effect a (r.core.pc a) act (s.pc a) with core := s } c := by
  obtain ⟨b, n, hn, hdec, hwake⟩ := hpend
  rcases step_wake_kept hf hstep hwake with hkept | ⟨-, hact⟩
  · exact Or.inl ⟨b, n, hn, hdec.other hf (by rw [hn]; exact hne), hkept⟩
  · obtain rfl : act = .wake n := hact
    subst hn
    rcases h.woken_exposed hactive hne hold with hready | ⟨w, hp, hin⟩
    · exact absurd hready (h.exposed_not_ready (Nudged.wakeNoPreempt r _ _) (hf.pc _ (Ne.symm hne)) hnew)
    · refine Or.inr ⟨w, by rw [effect_pin]; exact hp, hin.imp id fun hd => Or.inl ?_⟩
      have hloop := h.effect_loop hactive (r.core.pc a) (.wake n) (s.pc a) (w := w)
        fun htop => by rw [htop] at hd; cases hd
      simp only [hloop]
      exact hd

/-- A delivery goes on, makes the coroutine ready, or decides its wait. -/
lemma SchedInv.draining_other (h : SchedInv r) (hactive : r.Active a)
    (hf : Footprint r.core ⟨a, act⟩ s) (hstep : Step r.core ⟨a, act⟩ s) (hne : a ≠ .co c)
    (hold : r.Exposed c)
    (hnew : Runtime.Exposed { r.effect a (r.core.pc a) act (s.pc a) with core := s } c)
    {w : WorkerId} (hw : r.pin c = some w) (hd : r.Draining w c) :
    Runtime.Outstanding { r.effect a (r.core.pc a) act (s.pc a) with core := s } c := by
  have hpin : (r.effect a (r.core.pc a) act (s.pc a)).pin c = some w := by rw [effect_pin, hw]
  rcases hd with hd | ⟨⟨rest, hrest⟩, hwaking⟩
  · have hloop := h.effect_loop hactive (r.core.pc a) act (s.pc a) (w := w)
      fun htop => by rw [htop] at hd; cases hd
    exact Or.inr ⟨w, hpin, Or.inr (Or.inl (by simp only [hloop]; exact hd))⟩
  · have hloop : ∃ rest, (r.effect a (r.core.pc a) act (s.pc a)).loop w = .drain rest :=
      ⟨rest, by rw [h.effect_loop hactive _ _ _ (by simp [hrest]), hrest]⟩
    by_cases ha : a = .sched w
    · subst ha
      rcases step_waker hstep hwaking with ⟨hw', -⟩ | ⟨rfl, hmiss⟩ | rfl
      · exact Or.inr ⟨w, hpin, Or.inr (Or.inr ⟨hloop, hw'⟩)⟩
      · -- `s_waiter_wake` has given up, and the delivery makes the coroutine ready
        have hs : r.life c = .suspended := by
          rcases hold with ⟨hs, -⟩ | hedge
          · exact hs
          · exact absurd hw (h.edge_alone hactive hedge hne)
        refine absurd ?_ (h.exposed_not_ready (Nudged.effect r _ _ (by simp) _)
          (hf.pc _ (Ne.symm hne)) hnew)
        rw [hmiss]
        simp [Runtime.effect, Runtime.wakerEffect, Runtime.deliverCancel, h.exposed_op hold, hs,
          Runtime.setLife]
      · have hdec := (hf.waits.decided (.wq c) (by simp [Act.decides])).2.1
        refine Or.inl ⟨.sched w, .wq c, rfl, ?_, step_wake_pending hstep (by simp [Act.decides])⟩
        simp [DecidedThrough, hdec]
    · have hpc : s.pc (.sched w) = r.core.pc (.sched w) := hf.pc _ (Ne.symm ha)
      refine Or.inr ⟨w, hpin, Or.inr (Or.inr ⟨hloop, ?_⟩)⟩
      rw [← hwaking, ← hpc]

/-- Another context's step leaves a decided wait of an exposed coroutine with an outstanding wake. -/
lemma WakeInv.other (hwake : WakeInv r) (h : SchedInv r) (hactive : r.Active a)
    (hf : Footprint r.core ⟨a, act⟩ s) (hstep : Step r.core ⟨a, act⟩ s) (hne : a ≠ .co c)
    (hnew : Runtime.Exposed { r.effect a (r.core.pc a) act (s.pc a) with core := s } c)
    (hdec : WaitDecided s c) :
    Runtime.Outstanding { r.effect a (r.core.pc a) act (s.pc a) with core := s } c := by
  have hold : r.Exposed c := hnew.other hf hne
  rcases hdec.other hf hne with hdec | ⟨n, hn, hcr, hthrough⟩
  · refine (hwake.wake c hold hdec).congr (h.pending_other hactive hf hstep hne hold hnew)
      (by rw [effect_pin]) (fun w hin => Or.inl (effect_inbox r a _ act _ hin))
      fun w hw hd => h.draining_other hactive hf hstep hne hold hnew hw hd
  · exact Or.inl ⟨a, n, hcr, hthrough, step_wake_pending hstep hn⟩

end Other

/-- The coroutine's own step. -/
lemma WakeInv.self {r : Runtime} {c : CrId} {act : Act} {s : Core} (hwake : WakeInv r)
    (h : SchedInv r) (hactive : r.Active (.co c)) (hstep : Step r.core ⟨.co c, act⟩ s)
    (hnew : Runtime.Exposed
      { r.effect (.co c) (r.core.pc (.co c)) act (s.pc (.co c)) with core := s } c)
    (hdec : WaitDecided s c) : Runtime.Outstanding
      { r.effect (.co c) (r.core.pc (.co c)) act (s.pc (.co c)) with core := s } c := by
  obtain ⟨w, hpin, hrun⟩ := hactive
  by_cases hedge : onEdge (s.pc (.co c)) = true
  · rcases step_edge hstep hedge with ⟨hwork, hpc⟩ | ⟨-, hnot⟩
    · exact absurd (hwake.edge c (by rw [← hpc]; exact hedge)) hwork
    · exact absurd hdec hnot
  · obtain ⟨hs, hin⟩ := hnew.resolve_right hedge
    by_cases hact : act = .suspend
    · subst hact
      obtain ⟨hold, hsel, hheap, hwork⟩ := step_suspend_edge hstep hin
      have hdec' : WaitDecided r.core c := by
        unfold WaitDecided at hdec ⊢
        rwa [hheap, hsel] at hdec
      obtain ⟨htop, hidle, -⟩ := h.rest w c hrun
      have heff : r.effect (.co c) (r.core.pc (.co c)) .suspend (s.pc (.co c)) =
          r.switchOut (.co c) .suspended := rfl
      refine (hwake.wake c (Or.inr hold) hdec').congr (fun ⟨b, n, hn, hthrough, hmem⟩ => ?_)
        (by rw [effect_pin]) (fun w hin => Or.inl (effect_inbox r _ _ _ _ hin)) fun w' hw' hd => ?_
      · refine Or.inl ⟨b, n, hn, ?_, by rw [hwork]; exact hmem⟩
        subst hn
        cases n with
        | wq c =>
          change (s.heap.waits.node (.wq c)).status ≠ .waiting
          rw [hheap]
          exact hthrough
        | sel c i =>
          obtain ⟨hsel', hwin⟩ := hthrough
          exact ⟨hsel.trans hsel', by rw [hheap]; exact hwin⟩
      · -- nobody is being drained while the worker executes the coroutine
        obtain rfl : w = w' := Option.some.inj (hpin.symm.trans hw')
        rcases hd with hd | ⟨⟨rest, hrest⟩, -⟩
        · rw [htop] at hd
          cases hd
        · rw [htop] at hrest
          cases hrest
    · have hlife := (Nudged.effect r (.co c) (r.core.pc (.co c)) hact (s.pc (.co c))).life c
      rw [(h.run w c hrun).2] at hlife
      rcases hlife with hl | ⟨hl, -⟩
      · change (r.effect _ _ _ _).life c = .suspended at hs
        rw [hl] at hs
        cases hs
      · cases hl

/-! ## The scheduler loops -/

/-- A step that is not one of the wait protocol: coroutines stay where they are, and only the loop of worker
`w₀` moves. -/
lemma WakeInv.scheduler {r r' : Runtime} (hwake : WakeInv r) (w₀ : WorkerId)
    (hpc : ∀ c, r'.core.pc (.co c) = r.core.pc (.co c)) (hheap : r'.core.heap = r.core.heap)
    (hwork : r'.core.work = r.core.work)
    (hlife : ∀ c, r'.life c = .suspended → inLoop (r.core.pc (.co c)) = true → r.life c = .suspended)
    (hpin : ∀ c w, r.pin c = some w → r'.pin c = some w)
    (hinbox : ∀ c w, c ∈ r.inbox w → c ∈ r'.inbox w ∨ c ∈ (r'.loop w).draining)
    (hloop : ∀ w, w ≠ w₀ → r'.loop w = r.loop w ∧ r'.core.pc (.sched w) = r.core.pc (.sched w))
    (hdrain : ∀ c, r'.Exposed c → r.Exposed c → r.pin c = some w₀ → r.Draining w₀ c →
      r'.Draining w₀ c) : WakeInv r' := by
  refine ⟨fun c hc => ?_, fun c hnew hdec => ?_⟩
  · rw [hwork]
    exact hwake.edge c (by rwa [hpc] at hc)
  · have hold : r.Exposed c := by
      refine hnew.imp (fun ⟨hs, hin⟩ => ?_) (by rw [hpc]; exact id)
      rw [hpc] at hin
      exact ⟨hlife c hs hin, hin⟩
    have hdec' : WaitDecided r.core c := by
      unfold WaitDecided at hdec ⊢
      rwa [hheap, hpc] at hdec
    rcases hwake.wake c hold hdec' with ⟨a, n, hn, hthrough, hmem⟩ | ⟨w, hp, hin | hd⟩
    · refine Or.inl ⟨a, n, hn, ?_, by rw [hwork]; exact hmem⟩
      cases n <;> simp only [DecidedThrough, hheap, hpc] at hthrough ⊢ <;> exact hthrough
    · exact Or.inr ⟨w, hpin c w hp, (hinbox c w hin).imp id Or.inl⟩
    · refine Or.inr ⟨w, hpin c w hp, Or.inr ?_⟩
      by_cases hw : w = w₀
      · subst hw
        exact hdrain c hnew hold hp hd
      · unfold Runtime.Draining
        rw [(hloop w hw).1, (hloop w hw).2]
        exact hd

/-- A scheduler step that moves no loop. -/
lemma WakeInv.nudged {r r' : Runtime} (hwake : WakeInv r) (hn : Nudged r r')
    (hcore : r'.core = r.core) : WakeInv r' := by
  refine hwake.scheduler 0 (fun c => by rw [hcore]) (by rw [hcore]) (by rw [hcore])
    (fun c hs _ => ?_) (fun c w hp => by rw [hn.pin]; exact hp) (fun c w hc => Or.inl (hn.inbox w c hc))
    (fun w _ => ⟨by rw [hn.loop], by rw [hcore]⟩) fun c _ _ _ hd => ?_
  · rcases hn.life c with heq | ⟨hs', -⟩
    · rw [← heq, hs]
    · exact hs'
  · unfold Runtime.Draining
    rw [hn.loop, hcore]
    exact hd

/-- Coroutine `c₀` switches out and is not left suspended in a wait loop. -/
lemma WakeInv.switchOut {r r' : Runtime} {c₀ : CrId} {w₀ : WorkerId} {x : Life} (hwake : WakeInv r)
    (h : SchedInv r) (hpin : r.pin c₀ = some w₀) (hrun : r.run w₀ = some c₀)
    (hout : r' = { r.switchOut (.co c₀) x with zombies := r'.zombies })
    (hx : x = .suspended → inLoop (r.core.pc (.co c₀)) = false) : WakeInv r' := by
  have hcore : r'.core = r.core := (congrArg Runtime.core hout).trans (by simp)
  have hlife : r'.life = Function.update r.life c₀ x := by
    rw [hout]
    simp [Runtime.switchOut, hpin, Runtime.setLife]
  have hloop : r'.loop = Function.update r.loop w₀ (.post c₀) := by
    rw [hout]
    simp [Runtime.switchOut, hpin]
  have hsame : r'.pin = r.pin ∧ r'.inbox = r.inbox := by
    rw [hout]
    simp [Runtime.switchOut, hpin, Runtime.setLife]
  refine hwake.scheduler w₀ (fun c => by rw [hcore]) (by rw [hcore]) (by rw [hcore])
    (fun c hs hin => ?_) (fun c w hp => by rw [hsame.1]; exact hp)
    (fun c w hc => Or.inl (by rw [hsame.2]; exact hc))
    (fun w hw => ⟨by rw [hloop, Function.update_of_ne hw], by rw [hcore]⟩) fun c _ _ _ hd => ?_
  · rw [hlife] at hs
    by_cases hc : c = c₀
    · subst hc
      rw [Function.update_self] at hs
      rw [hx hs] at hin
      cases hin
    · rwa [Function.update_of_ne hc] at hs
  · have htop := (h.rest w₀ c₀ hrun).1
    rcases hd with hd | ⟨⟨rest, hrest⟩, -⟩
    · rw [htop] at hd
      cases hd
    · rw [htop] at hrest
      cases hrest

/-- Coroutine `c₀` becomes ready or running. -/
lemma WakeInv.wakes {r r' : Runtime} {x : Life} (hwake : WakeInv r) (c₀ : CrId)
    (hcore : r'.core = r.core) (hlife : r'.life = Function.update r.life c₀ x) (hx : x ≠ .suspended)
    (hpin : ∀ c w, r.pin c = some w → r'.pin c = some w) (hinbox : r'.inbox = r.inbox)
    (hloop : r'.loop = r.loop) : WakeInv r' := by
  refine hwake.scheduler 0 (fun c => by rw [hcore]) (by rw [hcore]) (by rw [hcore])
    (fun c hs _ => ?_) hpin (fun c w hc => Or.inl (by rw [hinbox]; exact hc))
    (fun w _ => ⟨by rw [hloop], by rw [hcore]⟩) fun c _ _ _ hd => ?_
  · rw [hlife] at hs
    by_cases hc : c = c₀
    · subst hc
      rw [Function.update_self] at hs
      exact absurd hs hx
    · rwa [Function.update_of_ne hc] at hs
  · unfold Runtime.Draining
    rw [hloop, hcore]
    exact hd

/-- Between two actions of a loop nobody is in `s_waiter_wake`. -/
lemma Runtime.AtLoop.draining {r : Runtime} {w : WorkerId} {l : Loop} (hat : r.AtLoop w l) {c : CrId}
    (hd : r.Draining w c) : c ∈ l.draining := by
  obtain ⟨-, hloop, hpc, -⟩ := hat
  rcases hd with hd | ⟨-, hwaking⟩
  · rwa [hloop] at hd
  · rw [hpc] at hwaking
    cases hwaking

/-- The loop of worker `w₀` moves on. -/
lemma WakeInv.moveLoop {r r₁ : Runtime} {w₀ : WorkerId} {l l' : Loop} (hwake : WakeInv r)
    (hat : r.AtLoop w₀ l) (hn : Nudged r r₁) (hcore : r₁.core = r.core)
    (hdrain : ∀ c, Runtime.Exposed { r₁ with loop := Function.update r.loop w₀ l' } c →
      r.pin c = some w₀ → c ∈ l.draining → c ∈ l'.draining) :
    WakeInv { r₁ with loop := Function.update r.loop w₀ l' } := by
  refine hwake.scheduler w₀ (fun c => by simp [hcore]) (by simp [hcore]) (by simp [hcore])
    (fun c hs _ => ?_) (fun c w hp => by simpa [hn.pin] using hp)
    (fun c w hc => Or.inl (hn.inbox w c hc)) (fun w hw => by simp [hw, hcore])
    fun c hnew _ hp hd => Or.inl ?_
  · rcases hn.life c with heq | ⟨hs', -⟩
    · rw [← heq]
      exact hs
    · exact hs'
  · simpa using hdrain c hnew hp (hat.draining hd)

/-- Every step keeps decided waits and their wakes together. -/
theorem wakeInv_step {r r' : Runtime} {e : Ev} (hwake : WakeInv r) (h : SchedInv r) (hinv : Inv r.core)
    (hstep : RStep r e r') : WakeInv r' := by
  -- a worker that is in its loop executes nobody
  have hidle : ∀ {w : WorkerId} {l : Loop} {c : CrId}, r.AtLoop w l → r.pin c = some w →
      onEdge (r.core.pc (.co c)) = false := by
    intro w l c hat hp
    by_contra hedge
    obtain ⟨w', hp', hrun⟩ := h.running c (h.edge_running (by simpa using hedge))
    obtain rfl : w = w' := Option.some.inj (hp.symm.trans hp')
    rw [hat.1] at hrun
    cases hrun
  cases hstep with
  | @core a act s hactive _ hcore _ =>
    have hf := step_footprint hinv hcore
    refine ⟨fun c hc => ?_, fun c hnew hdec => ?_⟩
    · by_cases ha : a = .co c
      · subst ha
        rcases step_edge hcore hc with ⟨hwork, hpc⟩ | ⟨hwork, -⟩
        · exact absurd (hwake.edge c (by rw [← hpc]; exact hc)) hwork
        · exact hwork
      · have hpc : s.pc (.co c) = r.core.pc (.co c) := hf.pc _ (Ne.symm ha)
        have hwork : s.work (.co c) = r.core.work (.co c) := hf.work _ (Ne.symm ha)
        exact hwork.trans (hwake.edge c (by rw [← hpc]; exact hc))
    · by_cases ha : a = .co c
      · subst ha
        exact hwake.self h hactive hcore hnew hdec
      · exact hwake.other h hactive hf hcore ha hnew hdec
  | spawn _ => exact hwake.wakes _ rfl rfl (by simp) (fun _ _ => id) rfl rfl
  | @spawnLocal a c₀ _ hl _ =>
    refine hwake.wakes _ rfl rfl (by simp) (fun c w hp => ?_) rfl rfl
    have hne : c ≠ c₀ := by
      rintro rfl
      rw [h.unborn c hl] at hp
      cases hp
    simpa [hne] using hp
  | @take w₀ c₀ _ _ hnone =>
    refine hwake.wakes _ rfl rfl (by simp) (fun c w hp => ?_) rfl rfl
    have hne : c ≠ c₀ := by
      rintro rfl
      rw [hnone] at hp
      cases hp
    simpa [hne] using hp
  | resume => exact hwake.wakes _ rfl rfl (by simp) (fun _ _ => id) rfl rfl
  | yield hactive _ _ =>
    obtain ⟨w, hpin, hrun⟩ := hactive
    exact hwake.switchOut (x := .ready) h hpin hrun rfl (by simp)
  | bare hactive hpc _ =>
    obtain ⟨w, hpin, hrun⟩ := hactive
    exact hwake.switchOut (x := .suspended) h hpin hrun rfl fun _ => by rw [hpc]; rfl
  | exit hpin hrun _ _ => exact hwake.switchOut (x := .done) h hpin hrun rfl (by simp)
  | @postDeliver w c₀ hat _ _ =>
    have hn : Nudged r { r with pendingWake := Function.update r.pendingWake c₀ false } :=
      (Nudged.refl _).congr rfl rfl rfl rfl rfl rfl ⟨rfl, rfl, rfl⟩
    exact hwake.moveLoop hat hn rfl fun c _ _ hc => by cases hc
  | postSkip hat _ => exact hwake.moveLoop hat (Nudged.refl r) rfl fun c _ _ hc => by cases hc
  | drained hat => exact hwake.moveLoop hat (Nudged.refl r) rfl fun c _ _ hc => by cases hc
  | @drain w hat =>
    refine hwake.scheduler w (fun _ => rfl) rfl rfl (fun _ hs _ => hs) (fun _ _ => id)
      (fun c w' hc => ?_) (fun w' hw => by simp [hw]) fun c _ _ _ hd => by cases hat.draining hd
    by_cases hw : w' = w
    · subst hw
      exact Or.inr (by simpa [Loop.draining] using hc)
    · exact Or.inl (by simpa [hw] using hc)
  | @pop w c₀ rest hat =>
    refine hwake.scheduler w (fun _ => rfl) rfl rfl (fun _ hs _ => hs) (fun _ _ => id)
      (fun c w' hc => Or.inl hc) (fun w' hw => by simp [hw]) fun c _ _ _ hd => Or.inl ?_
    simpa [Loop.draining] using hat.draining hd
  | @deliverWake w c₀ l l' hat hl _ =>
    refine hwake.moveLoop hat (Nudged.deliverWake r _) (by simp) fun c hnew hp hd => ?_
    cases l with
    | deliver c₁ rest =>
      obtain ⟨rfl, rfl⟩ : c₁ = c₀ ∧ .drain rest = l' := by simpa [Loop.delivers] using hl
      rcases List.mem_cons.mp hd with rfl | hd
      · -- the delivery has made the coroutine ready
        exfalso
        rcases hnew with ⟨hs, -⟩ | hedge
        · change (r.deliverWake c).life c = .suspended at hs
          unfold Runtime.deliverWake at hs
          split at hs
          · simp [Runtime.setLife] at hs
          · split at hs
            · exact absurd hs ‹_›
            · exact absurd hs ‹_›
        · have hedge' : onEdge (r.core.pc (.co c)) = true := by simpa using hedge
          rw [hidle hat hp] at hedge'
          cases hedge'
      · exact hd
    | redeliver c₁ => cases hd
    | _ => cases hl
  | @deliverCancel w c₀ l l' hat hl _ =>
    refine hwake.scheduler w (fun _ => by simp) rfl rfl (fun _ hs _ => hs) (fun _ _ => id)
      (fun c w' hc => Or.inl hc) (fun w' hw => by simp [hw]) fun c _ _ _ hd => ?_
    have hd := hat.draining hd
    cases l with
    | deliver c₁ rest =>
      obtain ⟨rfl, rfl⟩ : c₁ = c₀ ∧ .drain rest = l' := by simpa [Loop.delivers] using hl
      rcases List.mem_cons.mp hd with rfl | hd
      · exact Or.inr ⟨⟨rest, by simp⟩, by simp [waking]⟩
      · exact Or.inl (by simpa [Loop.draining] using hd)
    | redeliver c₁ => cases hd
    | _ => cases hl
  | stray => exact hwake.nudged (Nudged.wakeNoPreempt r _ _) (by simp)
  | poll | ioTimeout => exact hwake.wakes _ rfl rfl (by simp) (fun _ _ => id) rfl rfl
  | @cqe w c₀ o res _ _ _ _ =>
    refine hwake.wakes c₀ rfl rfl ?_ (fun _ _ => id) rfl rfl
    split
    · simp
    · assumption
  | deadlineOp => exact hwake.nudged (Nudged.iouCancel r _) rfl
  | reap | free => exact { hwake with }

/-- No wakeup is lost: a coroutine that is suspended in a wait loop, with its wait decided, has a decider that
has not made its wake yet, or it is in the inbox of its worker or being drained from it. -/
theorem no_lost_wakeup {cfg : Config} {r : Runtime} (h : Reachable RStep (.init cfg) r) {c : CrId}
    (hs : r.life c = .suspended) (hloop : inLoop (r.core.pc (.co c)) = true)
    (hdec : WaitDecided r.core c) :
    WakePending r.core c ∨ ∃ w, r.pin c = some w ∧ (c ∈ r.inbox w ∨ r.Draining w c) := by
  have hwake : WakeInv r := by
    refine h.invariant_of (J := fun r => Inv r.core ∧ SchedInv r)
      (fun r hr => ⟨core_inv hr, schedInv_reachable hr⟩) (wakeInv_init cfg) ?_
    rintro r e r' ⟨hinv, hsched⟩ - hI hstep
    exact wakeInv_step hI hsched hinv hstep
  exact hwake.wake c (Or.inl ⟨hs, hloop⟩) hdec

/-- Coroutine 0 on worker 0 is suspended in a receive; coroutine 1 on worker 1 has granted it and pushed it to
the inbox of worker 0. -/
theorem no_lost_wakeup_remote : ∃ r : Runtime, Reachable RStep (.init fun _ => (1, 0)) r ∧
    r.life 0 = .suspended ∧ inLoop (r.core.pc (.co 0)) = true ∧ WaitDecided r.core 0 ∧ 0 ∈ r.inbox 0 ∧
      (WakePending r.core 0 ∨ ∃ w, r.pin 0 = some w ∧ (0 ∈ r.inbox w ∨ r.Draining w 0)) := by
  have h : Reachable RStep (.init fun _ => (1, 0)) _ :=
    ⟨_, .cons (.spawn (c := 0) rfl) <| .cons (.spawn (c := 1) rfl) <|
      .cons (.take (w := 0) (c := 0) ⟨rfl, rfl, rfl, rfl⟩ rfl rfl) <|
      .cons (.take (w := 1) (c := 1) ⟨rfl, rfl, rfl, rfl⟩ rfl rfl) <|
      .cons (.core (a := .co 0) ⟨0, rfl, rfl⟩ trivial
        (.local rfl (.call (.op (.recv 0 false)) 0 trivial)) ⟨fun _ _ => rfl, fun _ h => by cases h⟩) <|
      .cons (.core (a := .co 0) ⟨0, rfl, rfl⟩ trivial (.local rfl (.preGo 0)) fun _ _ => rfl) <|
      .cons (.core (a := .co 0) ⟨0, rfl, rfl⟩ trivial (.crit rfl rfl rfl) trivial) <|
      .cons (.core (a := .co 0) ⟨0, rfl, rfl⟩ trivial (.testWaiting rfl rfl rfl) trivial) <|
      .cons (.core (a := .co 0) ⟨0, rfl, rfl⟩ trivial (.suspend rfl rfl) trivial) <|
      .cons (.core (a := .co 1) ⟨1, rfl, rfl⟩ trivial
        (.local rfl (.call (.op (.send 0 [7] false)) 0 rfl)) ⟨fun _ _ => rfl, fun _ h => by cases h⟩) <|
      .cons (.core (a := .co 1) ⟨1, rfl, rfl⟩ trivial (.local rfl (.preGo 0)) fun _ _ => rfl) <|
      .cons (.core (a := .co 1) ⟨1, rfl, rfl⟩ trivial (.crit rfl rfl rfl) trivial) <|
      .cons (.core (a := .co 1) ⟨1, rfl, rfl⟩ trivial (.wake rfl) trivial) <| .nil _⟩
  have hdec : Status.decided .ok ≠ .waiting := by simp
  exact ⟨_, h, rfl, rfl, Or.inl hdec, .head _, no_lost_wakeup h rfl rfl (Or.inl hdec)⟩

end Suspenders.Sched
