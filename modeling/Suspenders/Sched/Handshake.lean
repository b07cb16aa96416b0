import Suspenders.Sched.Inv
import Suspenders.Wait.Window

/-!
# The decider handshake

A waiter cannot leave its call while a decider's window on its node is open (`Suspenders.Wait.Window`), and what
the waiter does behind the window no decider sees any more: a coroutine is freed by `s_zombie_reap` only when it
is in no inbox, and a structure that a released waiter frees is not touched again.

Two things have to be excluded (`Careful`).  `suspenders_cancel` reads the worker of a coroutine that has not run
yet as `NULL` and goes on to `s_waiter_wake` wherever it runs, so it can decide the cancel node of a select that is
past its last `s_wait_decider_sync`; and `s_waiter_wake` may still be on its way to the lock it has read from the
node of one waiter when another waiter frees the structure.
-/

namespace Suspenders.Sched

open Lib Wait

/-! ## The locks a context is going to touch -/

/-- The lock that `s_waiter_wake` has read from a node and is going to take. -/
def wakerLock : Pc → Option LockId
  | .wakeLock _ _ lk => lk
  | _ => none

/-- Context `a` is going to touch lock `lk` before its call is over. -/
def Touches (s : Core) (a : Ctx) (lk : LockId) : Prop :=
  lk ∈ pcLocks (s.pc a) ∨ wakerLock (s.pc a) = some lk ∨ .unlock lk ∈ s.work a

lemma pcLocks_after (k : Frame) (st : Code) : pcLocks (k.after st) ⊆ frameLocks k := by
  cases k <;> simp only [Frame.after] <;> (try split) <;> simp [pcLocks, frameLocks, Op.lockId]

lemma pcLocks_next (k : Frame) (res : Res) : pcLocks (k.next res) ⊆ frameLocks k := by
  cases res with
  | ret code => exact pcLocks_after k code
  | park l data writer => cases k <;> simp [Frame.next, Frame.parked, pcLocks, frameLocks, Op.lockId]

lemma pcLocks_fail (e : Entry) (st : Code) : pcLocks (e.fail st) ⊆ pcLocks (.pre e) := by
  cases e with
  | op o k => exact fun lk hlk => List.mem_cons_of_mem _ (pcLocks_after k st hlk)
  | _ => simp [Entry.fail, pcLocks]

lemma pcLocks_go (e : Entry) (h : Heap) (c : CrId) (n : ℕ) : pcLocks (e.go h c n) ⊆ pcLocks (.pre e) := by
  cases e with
  | op o k => cases o <;> simp only [Entry.go] <;> (try split) <;> (try split) <;> simp [pcLocks]
  | _ => simp [Entry.go, pcLocks]

lemma pcLocks_entry (api : Api) (a : Ctx) (n : ℕ) : pcLocks (api.entry a n) ⊆ apiLocks api := by
  cases api with
  | op o => cases a <;> cases o <;> simp only [Api.entry] <;> (try split) <;> simp [pcLocks, apiLocks, frameLocks]
  | select ops => cases a <;> simp only [Api.entry] <;> split <;> simp [pcLocks, apiLocks]
  | _ => cases a <;> simp [Api.entry, pcLocks, apiLocks, frameLocks, Op.lockId]

lemma wakerLock_of_plain {pc : Pc} (h : plain pc = true) : wakerLock pc = none := by
  cases pc <;> first | rfl | cases h

/-- A call takes no locks but those it was called with. -/
lemma step_pcLocks {s t : Core} {a : Ctx} {act : Act} (h : Step s ⟨a, act⟩ t) :
    pcLocks (t.pc a) ⊆ pcLocks (s.pc a) ∨ ∃ api, act = .call api ∧ pcLocks (t.pc a) ⊆ apiLocks api := by
  cases h with
  | «local» _ hl =>
    rw [Core.setPc_pc_self]
    generalize s.pc a = pc at hl
    cases hl with
    | call api n _ => exact Or.inr ⟨api, rfl, pcLocks_entry api a n⟩
    | preCanceled | preExpired => exact Or.inl (pcLocks_fail _ _)
    | preGo n => exact Or.inl (pcLocks_go _ _ _ _)
    | ioReady | wakeGiveUp => exact Or.inl (by split <;> simp [pcLocks])
    | _ => exact Or.inl (by simp [pcLocks])
  | crit hpc _ _ =>
    simp only [Core.setHeld_pc, Core.setWork_pc, Core.setPc_pc_self, hpc]
    exact Or.inl fun lk hlk => List.mem_cons_of_mem _ (pcLocks_next _ _ hlk)
  | decided hpc _ _ _ =>
    rw [Core.setPc_pc_self, hpc]
    exact Or.inl (pcLocks_after _ _)
  | wake | unlock | fin | sleepFire => exact Or.inl fun _ => id
  | selTry hpc _ _ _ | selRetry hpc _ _ _ | flip hpc _ _ _ =>
    simp only [Core.setWork_pc, Core.setPc_pc_self, hpc]
    exact Or.inl (by split <;> simp [pcLocks])
  | testWaiting hpc _ _ | testDecided hpc _ _ | suspend hpc _ | sleepPark hpc _ | selInit hpc _
  | selReady hpc _ _ _ _ | selPark hpc _ _ _ _ | selRegEnd hpc _ | selWaiting hpc _ _ _
  | selDecided hpc _ _ | selSuspend hpc _ | selUnreg hpc _ _ _ _ | selLeave hpc _ _
  | selAgain _ hpc _ _ _ | selRescanEnd hpc _ | selSync hpc _ _ | selSync2 hpc _ _ | selWon hpc _
  | selScanned hpc _ | selFailed hpc _ _ =>
    exact Or.inl (by simp [hpc, pcLocks, frameLocks])

/-- `s_waiter_wake` takes the lock of the node it has found undecided. -/
lemma step_wakerLock {s t : Core} {a : Ctx} {act : Act} (h : Step s ⟨a, act⟩ t) {lk : LockId}
    (ht : wakerLock (t.pc a) = some lk) : wakerLock (s.pc a) = some lk ∨
      ∃ c, (s.heap.waits.node (.wq c)).status = .waiting ∧ (s.heap.waits.node (.wq c)).waitLock = some lk := by
  cases h with
  | «local» _ hl =>
    rw [Core.setPc_pc_self] at ht
    generalize s.pc a = pc at hl
    cases hl with
    | wakeHit hwaiting => exact Or.inr ⟨_, hwaiting, ht⟩
    | call => simp [wakerLock_of_plain (plain_entry _ _ _)] at ht
    | preCanceled | preExpired => simp [wakerLock_of_plain (plain_fail _ _)] at ht
    | preGo => simp [wakerLock_of_plain (plain_go _ _ _ _)] at ht
    | ioReady | wakeGiveUp => split at ht <;> cases ht
    | _ => cases ht
  | crit => simp [wakerLock_of_plain (plain_next _ _)] at ht
  | decided => simp [wakerLock_of_plain (plain_after _ _)] at ht
  | wake | unlock | fin | sleepFire => exact Or.inl ht
  | selTry | selRetry | flip =>
    simp only [Core.setWork_pc, Core.setPc_pc_self] at ht
    split at ht <;> cases ht
  | _ => simp [wakerLock] at ht

/-- A granter releases the lock of its own critical section. -/
lemma step_unlock {s t : Core} {a : Ctx} {act : Act} (h : Step s ⟨a, act⟩ t) {lk : LockId}
    (ht : .unlock lk ∈ t.work a) : .unlock lk ∈ s.work a ∨ lk ∈ pcLocks (s.pc a) := by
  have hout : ∀ {out : Out} {lk' : LockId}, .unlock lk ∈ out.work lk' → lk = lk' := by
    intro out lk' hmem
    unfold Out.work at hmem
    split at hmem
    · simpa using hmem
    · simp at hmem
  rcases step_work h with ⟨x, hwork, -, -⟩ | ⟨-, hleaves, -⟩
  · rw [hwork]
    exact Or.inl (List.mem_cons_of_mem _ ht)
  · rw [hleaves] at ht
    cases h with
    | «local» _ hl =>
      rw [hl.leaves_nil] at ht
      cases ht
    | crit hpc _ _ =>
      rw [hpc, hout ht]
      exact Or.inr List.mem_cons_self
    | selTry hpc _ hk _ | selRetry hpc _ hk _ =>
      rw [hpc, hout ht]
      exact Or.inr (List.mem_map_of_mem (List.mem_of_getElem? hk))
    | _ => simp [Act.leaves] at ht

/-- A context touches a lock because it was going to, because it has just been called, or because
`s_waiter_wake` has read it from the node of a waiter. -/
lemma step_touches {s t : Core} {a : Ctx} {act : Act} (h : Step s ⟨a, act⟩ t) {lk : LockId}
    (ht : Touches t a lk) : Touches s a lk ∨ (∃ api, act = .call api ∧ lk ∈ apiLocks api) ∨
      ∃ c, (s.heap.waits.node (.wq c)).status = .waiting ∧ (s.heap.waits.node (.wq c)).waitLock = some lk := by
  rcases ht with ht | ht | ht
  · rcases step_pcLocks h with hsub | ⟨api, hact, hsub⟩
    · exact Or.inl (Or.inl (hsub ht))
    · exact Or.inr (Or.inl ⟨api, hact, hsub ht⟩)
  · rcases step_wakerLock h ht with hold | hwait
    · exact Or.inl (Or.inr (Or.inl hold))
    · exact Or.inr (Or.inr hwait)
  · rcases step_unlock h ht with hold | hold
    · exact Or.inl (Or.inr (Or.inr hold))
    · exact Or.inl (Or.inl hold)

/-- A context parks on lists whose lock it takes. -/
lemma step_parks {s t : Core} {e : Event} (h : Inv s) (hstep : Step s e t) {n : NodeRef} {l : ListId}
    {data : Bytes} (hparks : e.parks = some (n, l, data)) : l.lock ∈ pcLocks (s.pc e.ctx) := by
  cases hstep with
  | «local» _ hl =>
    rw [hl.parks_none] at hparks
    cases hparks
  | @crit a op k hpc _ _ =>
    cases a with
    | co c =>
      simp only [Event.parks] at hparks
      split at hparks
      · rename_i l' data' writer hres
        cases hparks
        rw [((exec_effect h.wf (.co c) op).park _ _ _ hres).2, hpc]
        exact List.mem_cons_self
      · cases hparks
    | sched w => cases hparks
    | ext f => cases hparks
  | @selPark c ops i k hpc _ hk _ _ =>
    cases hparks
    have hlock : k.list.lock = .chan k.ch := by
      unfold Case.list
      split <;> rfl
    rw [hpc, hlock]
    exact List.mem_map_of_mem (List.mem_of_getElem? hk)
  | @selTry a =>
    cases a <;> cases hparks
  | @flip a =>
    cases a <;> cases hparks
  | @wake a | @unlock a | @fin a =>
    cases a <;> cases hparks
  | _ => cases hparks

/-- The lock that an undecided embedded node names is that of its list. -/
def LockInv (s : Core) : Prop :=
  ∀ c, (s.heap.waits.node (.wq c)).status = .waiting →
    (s.heap.waits.node (.wq c)).waitLock = (s.heap.waits.node (.wq c)).waitList.map ListId.lock

lemma lockInv_step {s t : Core} {e : Event} (hI : LockInv s) (h : Inv s) (hstep : Step s e t) : LockInv t := by
  have hf := step_footprint h hstep
  intro c hwaiting
  have hdec : .wq c ∉ e.act.decides := by
    intro hmem
    rw [(hf.waits.decided _ hmem).2.1] at hwaiting
    cases hwaiting
  -- a granter does not touch what it does not grant
  have granted : ∀ {a : Ctx} {op : Op}, .wq c ∉ (exec s.heap a op).2.granted →
      (exec s.heap a op).1.waits.node (.wq c) = s.heap.waits.node (.wq c) := fun hn =>
    (exec_effect h.wf _ _).granted.wq_of_not_mem hn
  have same (hnode : t.heap.waits.node (.wq c) = s.heap.waits.node (.wq c)) :
      (t.heap.waits.node (.wq c)).waitLock = (t.heap.waits.node (.wq c)).waitList.map ListId.lock := by
    rw [hnode] at hwaiting ⊢
    exact hI c hwaiting
  by_cases ha : e.ctx = .co c
  · cases hstep with
    | @crit a op k hpc _ _ =>
      obtain rfl : a = .co c := ha
      have hnode := @granted (.co c) op hdec
      cases hres : (exec s.heap (.co c) op).2.res with
      | ret code => exact same (by simpa [critical, hres, Heap.parkAs] using hnode)
      | park l data writer => simp [critical, hres, Heap.parkAs, Waits.park]
    | @selTry a ops i rest k _ _ _ _ => exact same (@granted a k.op hdec)
    | @selRetry c' ops i rest k _ _ _ _ => exact same (@granted (.co c') k.op hdec)
    | @flip a f x lk w _ _ _ hd =>
      have hne : NodeRef.wq c ≠ .wq x := fun heq => hdec (by rw [heq]; exact List.mem_singleton_self _)
      exact same ((Waits.decide_spec h.wf hd).other _ hne)
    | @selPark c' ops i k _ _ _ _ _ => exact same (by simp [Waits.park])
    | @selUnreg c' ops r j rescan k _ _ _ _ _ =>
      exact same ((Waits.unregister_spec h.wf (.sel c' j)).2.2.1 _ (by simp))
    | @fin a n rest _ =>
      have hold := hI c (by simpa using hwaiting)
      by_cases hn : .wq c = n
      · subst hn
        simpa [Waits.decideEnd] using hold
      · exact same (by simp [Waits.decideEnd, hn])
    | sleepPark | selInit =>
      cases ha
      simp [Waits.parkNone]
    | sleepFire => cases ha
    | decided _ _ _ hst =>
      cases ha
      simp [hst] at hwaiting
    | selWon | selScanned | selFailed =>
      cases ha
      simp at hwaiting
    | _ => exact hI c hwaiting
  · obtain ⟨hst, -, hlock, hlist⟩ := hf.waits.kept _ hdec ha
    have hlist : (t.heap.waits.node (.wq c)).waitList = (s.heap.waits.node (.wq c)).waitList := by
      rcases hlist with hlist | ⟨⟨c', i, hsel⟩, -⟩
      · exact hlist
      · cases hsel
    rw [hlock, hlist]
    exact hI c (hst ▸ hwaiting)

/-! ## Freed structures -/

/-- Nobody is parked on a freed structure, and nobody touches its lock any more. -/
structure FreedInv (r : Runtime) : Prop where
  /-- Its lists are empty. -/
  list : ∀ l, r.gone l.lock = true → r.core.heap.waits.queue l = []
  /-- No call is going to take or release its lock. -/
  untouched : ∀ lk, r.gone lk = true → ∀ a, ¬ Touches r.core a lk

lemma freedInv_init (cfg : Config) : FreedInv (.init cfg) where
  list := by simp [Runtime.init]
  untouched := by simp [Runtime.init]

/-- Freeing nothing, the runtime leaves what is freed alone. -/
lemma FreedInv.core {r r' : Runtime} {e : Event} (hI : FreedInv r) (h : Inv r.core) (hlock : LockInv r.core)
    (hstep : Step r.core e r'.core) (hgone : r'.gone = r.gone)
    (hcall : ∀ api, e.act = .call api → ∀ lk ∈ apiLocks api, r.gone lk = false) : FreedInv r' := by
  have hf := step_footprint h hstep
  refine ⟨fun l hl => ?_, fun lk hlk a ht => ?_⟩
  · rw [hgone] at hl
    have hpark : ∀ n data, e.parks ≠ some (n, l, data) := fun n data hparks =>
      hI.untouched _ hl e.ctx (Or.inl (step_parks h hstep hparks))
    have hsub := (step_queued h hstep).sublist l hpark
    rw [hI.list l hl] at hsub
    exact List.sublist_nil.mp hsub
  · rw [hgone] at hlk
    by_cases ha : a = e.ctx
    · subst ha
      rcases step_touches hstep ht with hold | ⟨api, hact, hmem⟩ | ⟨c, hwaiting, hwl⟩
      · exact hI.untouched lk hlk _ hold
      · rw [hcall api hact lk hmem] at hlk
        cases hlk
      · -- an undecided node is on a list of the structure
        rw [hlock c hwaiting] at hwl
        obtain ⟨l, hlist, rfl⟩ := Option.map_eq_some_iff.mp hwl
        have hmem := (h.wf.mem_iff l (.wq c)).mpr hlist
        rw [hI.list l hlk] at hmem
        cases hmem
    · refine hI.untouched lk hlk a ?_
      unfold Touches at ht ⊢
      rwa [hf.pc a ha, hf.work a ha] at ht

/-! ## Runs -/

/-- The steps that the handshake stands: `s_waiter_wake` does not decide the cancel node of a select that is past
its last `s_wait_decider_sync`, and a coroutine does not free a structure whose lock an `s_waiter_wake` has read
from a node and not taken yet. -/
def Careful (r : Runtime) (e : Ev) (_ : Runtime) : Prop :=
  match e with
  | .core ⟨_, .flip t _⟩ => (r.core.pc (.co t)).leaving = false
  | .free _ lk => ∀ a, wakerLock (r.core.pc a) ≠ some lk
  | _ => True

/-- What the handshake keeps. -/
structure HandshakeInv (r : Runtime) : Prop where
  /-- The windows. -/
  windows : WindowInv r.core
  /-- The locks that nodes name. -/
  locks : LockInv r.core
  /-- The freed structures. -/
  freed : FreedInv r

lemma handshakeInv_init (cfg : Config) : HandshakeInv (.init cfg) where
  windows := windowInv_init cfg
  locks := by simp [LockInv, Runtime.init, Core.init, Heap.init, Waits.init]
  freed := freedInv_init cfg

/-- A step that does not free a structure. -/
lemma rstep_gone {r r' : Runtime} {e : Ev} (h : RStep r e r') (hfree : ∀ c lk, e ≠ .free c lk) :
    r'.gone = r.gone := by
  have hswitch : ∀ a x, (r.switchOut a x).gone = r.gone := by
    intro a x
    unfold Runtime.switchOut
    split
    · split <;> rfl
    · rfl
  cases h with
  | @core a act s _ _ _ _ =>
    by_cases hact : act = .suspend
    · subst hact
      exact hswitch a _
    · exact (Nudged.effect r a _ hact _).freed.2.2
  | yield | bare => exact hswitch _ _
  | exit => exact hswitch _ _
  | deliverWake => exact (Nudged.deliverWake r _).freed.2.2
  | stray => exact (Nudged.wakeNoPreempt r _ _).freed.2.2
  | free => exact absurd rfl (hfree _ _)
  | _ => rfl

theorem handshakeInv_step {r r' : Runtime} {e : Ev} (hI : HandshakeInv r) (h : Inv r.core) (hstep : RStep r e r')
    (hcareful : Careful r e r') : HandshakeInv r' := by
  by_cases hfree : ∃ c lk, e = .free c lk
  · obtain ⟨c, lk, rfl⟩ := hfree
    cases hstep with
    | free _ hpc _ hlist hlocks hholder =>
      refine ⟨hI.windows, hI.locks, fun l hl => ?_, fun lk' hlk a ht => ?_⟩
      · by_cases heq : l.lock = lk
        · exact hlist l heq
        · exact hI.freed.list l (by simpa [heq] using hl)
      · by_cases heq : lk' = lk
        · subst heq
          rcases ht with ht | ht | ht
          · exact hlocks a ht
          · exact hcareful a ht
          · -- the coroutine is still trapped by whoever holds the lock
            obtain ⟨n, rfl, hfin⟩ := hholder a ht
            have htrap := (hI.windows.isOpen a n hfin).trapped.waitOn
            rw [hpc] at htrap
            exact htrap rfl
        · exact hI.freed.untouched lk' (by simpa [heq] using hlk) a ht
  · have hfree' : ∀ c lk, e ≠ .free c lk := fun c lk heq => hfree ⟨c, lk, heq⟩
    have hgone := rstep_gone hstep hfree'
    rcases rstep_core hstep with hsame | ⟨⟨a, act⟩, hcore, hev⟩
    · refine ⟨hsame ▸ hI.windows, hsame ▸ hI.locks, ?_, ?_⟩
      · rw [hgone, hsame]
        exact hI.freed.list
      · rw [hgone, hsame]
        exact hI.freed.untouched
    · refine ⟨windowInv_step hI.windows h hcore ?_, lockInv_step hI.locks h hcore,
        hI.freed.core h hI.locks hcore hgone ?_⟩
      · rintro c st rfl
        rcases hev with rfl | hev
        · exact hcareful
        · cases hev
      · rintro api rfl lk hlk
        rcases hev with rfl | hev
        · cases hstep with
          | core _ _ _ hguard => exact hguard.1 lk hlk
        · cases hev

/-! ## Reaped coroutines -/

/-- Whoever is woken from another worker is woken by a decider: no cancel is pushed to an inbox, and every other
wake is made on the coroutine's own worker. -/
def ByDeciders (r : Runtime) (e : Ev) (_ : Runtime) : Prop :=
  match e with
  | .core ⟨a, .waker⟩ =>
    match r.core.pc a with
    | .cancelPush _ => False
    | .wakeMiss _ t => r.pin t = none ∨ r.pin t = r.workerOf a
    | _ => True
  | .stray a t => r.pin t = none ∨ r.pin t = r.workerOf a
  | _ => True

/-- `s_inbox_drain` has taken the inbox in this iteration of the loop. -/
def Loop.swept : Loop → Bool
  | drain _ | deliver _ _ => true
  | _ => false

/-- Finished coroutines and inboxes. -/
structure ReapInv (r : Runtime) : Prop where
  /-- `s_zombies` holds finished coroutines of the worker. -/
  zombie : ∀ w c, c ∈ r.zombies w → r.life c = .done ∧ r.pin c = some w
  /-- What is freed is in no inbox. -/
  reaped : ∀ c, r.reaped c = true → r.life c = .done ∧ ∀ w, c ∉ r.inbox w ∧ c ∉ (r.loop w).draining
  /-- Behind `s_inbox_drain` no finished coroutine is in the inbox. -/
  swept : ∀ w c, c ∈ r.zombies w → (r.loop w).swept = true → c ∉ r.inbox w
  /-- A wake without a window is made on the coroutine's own worker. -/
  own : ∀ a n, .wake n ∈ r.core.work a → .fin n ∈ r.core.work a ∨ ∃ w, a = .sched w ∧ r.pin n.cr = some w

lemma reapInv_init (cfg : Config) : ReapInv (.init cfg) where
  zombie := by simp [Runtime.init]
  reaped := by simp [Runtime.init]
  swept := by simp [Runtime.init]
  own := by simp [Runtime.init, Core.init]

/-- A step that neither finishes a coroutine nor takes an inbox. -/
lemma ReapInv.keep {r r' : Runtime} (h : ReapInv r) (hz : r'.zombies = r.zombies) (hr : r'.reaped = r.reaped)
    (hlife : ∀ c, r.life c = .done → r'.life c = .done) (hpin : ∀ c w, r.pin c = some w → r'.pin c = some w)
    (hinbox : ∀ w c, c ∈ r'.inbox w → c ∈ r.inbox w ∨ r.life c ≠ .done)
    (hloop : ∀ w, (∀ c ∈ (r'.loop w).draining, c ∈ (r.loop w).draining) ∧
      ((r'.loop w).swept = true → (r.loop w).swept = true))
    (hown : ∀ a n, .wake n ∈ r'.core.work a →
      .fin n ∈ r'.core.work a ∨ ∃ w, a = .sched w ∧ r'.pin n.cr = some w) : ReapInv r' where
  zombie := fun w c hc => by
    rw [hz] at hc
    obtain ⟨hl, hp⟩ := h.zombie w c hc
    exact ⟨hlife c hl, hpin c w hp⟩
  reaped := fun c hc => by
    rw [hr] at hc
    obtain ⟨hl, hin⟩ := h.reaped c hc
    refine ⟨hlife c hl, fun w => ⟨fun hmem => ?_, fun hmem => (hin w).2 ((hloop w).1 c hmem)⟩⟩
    rcases hinbox w c hmem with hold | hnot
    · exact (hin w).1 hold
    · exact hnot hl
  swept := fun w c hc hs hmem => by
    rw [hz] at hc
    rcases hinbox w c hmem with hold | hnot
    · exact h.swept w c hc ((hloop w).2 hs) hold
    · exact hnot (h.zombie w c hc).1
  own := hown

/-- Wakes do not bring finished coroutines back. -/
lemma Nudged.done {r r' : Runtime} (hn : Nudged r r') {c : CrId} (hc : r.life c = .done) : r'.life c = .done := by
  rcases hn.life c with heq | ⟨hsusp, -⟩
  · exact heq.trans hc
  · rw [hc] at hsusp
    cases hsusp

/-- Who is put in an inbox by `s_wake_no_preempt`. -/
lemma wakeNoPreempt_inbox {r : Runtime} {me : Option WorkerId} {t c : CrId} {w : WorkerId}
    (h : c ∈ (r.wakeNoPreempt me t).inbox w) : c ∈ r.inbox w ∨ (c = t ∧ r.pin t ≠ none ∧ r.pin t ≠ me) := by
  unfold Runtime.wakeNoPreempt at h
  split at h
  · rename_i hpin
    unfold Runtime.inboxWake at h
    split at h
    · exact Or.inl h
    · rename_i w' _
      split at h
      · exact Or.inl h
      · by_cases hw : w = w'
        · subst hw
          rcases List.mem_cons.mp (by simpa using h) with rfl | hold
          · exact Or.inr ⟨rfl, hpin⟩
          · exact Or.inl hold
        · exact Or.inl (by simpa [hw] using h)
  · split at h <;> exact Or.inl h

@[simp] lemma clearCancel_inbox (r : Runtime) (a : Ctx) : (r.clearCancel a).inbox = r.inbox := by
  unfold Runtime.clearCancel
  split <;> rfl

@[simp] lemma ioEffect_inbox (r : Runtime) (a : Ctx) (pc pc' : Pc) : (r.ioEffect a pc pc').inbox = r.inbox := by
  unfold Runtime.ioEffect
  split <;> rfl

/-- A step puts nobody in an inbox who has finished. -/
lemma ReapInv.entered {r : Runtime} {a : Ctx} {act : Act} {s : Core} (h : ReapInv r) (hwin : WindowInv r.core)
    (hs : SchedInv r) (hcore : Step r.core ⟨a, act⟩ s) (hby : ∀ r', ByDeciders r (.core ⟨a, act⟩) r')
    {w : WorkerId} {c : CrId} (hc : c ∈ (r.effect a (r.core.pc a) act (s.pc a)).inbox w) :
    c ∈ r.inbox w ∨ r.life c ≠ .done := by
  have hby := hby r
  have nobody : ∀ {t me}, r.pin t = none ∨ r.pin t = me → ¬ (c = t ∧ r.pin t ≠ none ∧ r.pin t ≠ me) := by
    rintro t me hor ⟨-, hnone, hne⟩
    exact hor.elim hnone hne
  cases act with
  | wake n =>
    rcases wakeNoPreempt_inbox hc with hold | ⟨rfl, -, hne⟩
    · exact Or.inl hold
    · right
      obtain ⟨x, hwork, hx, -⟩ | ⟨-, -, hnot⟩ := step_work hcore
      · have hmem : .wake n ∈ r.core.work a := by
          obtain rfl : x = .wake n := by cases x <;> simp_all [Work.act]
          rw [hwork]
          exact List.mem_cons_self
        rcases h.own a n hmem with hfin | ⟨w', rfl, hpin⟩
        · -- the decider's window is open, so the waiter is in its call
          intro hdone
          have hidle : r.core.pc (.co n.cr) = .idle := by
            have hplace := hs.place n.cr
            rwa [hdone] at hplace
          have htrap := (hwin.isOpen a n hfin).trapped.waitOn
          rw [hidle] at htrap
          exact htrap rfl
        · exact absurd hpin hne
      · exact absurd rfl (hnot (.wake n))
  | waker =>
    left
    simp only [ByDeciders] at hby
    simp only [Runtime.effect, Runtime.wakerEffect] at hc
    split at hc
    · rename_i hpc
      rw [hpc] at hby
      exact hby.elim
    · rename_i t hpc
      rw [hpc] at hby
      unfold Runtime.cancelIo at hc
      split at hc
      · split at hc
        · exact hc
        · exact (wakeNoPreempt_inbox hc).resolve_right (nobody hby)
      · exact hc
    · unfold Runtime.deliverCancel at hc
      split at hc
      · exact hc
      · split at hc
        · exact hc
        · split at hc <;> exact hc
    · rename_i t hpc
      rw [hpc] at hby
      unfold Runtime.expireIo at hc
      split at hc
      · exact (wakeNoPreempt_inbox hc).resolve_right (nobody hby)
      · exact hc
    · exact hc
  | suspend =>
    left
    simp only [Runtime.effect] at hc
    unfold Runtime.switchOut at hc
    split at hc
    · split at hc <;> exact hc
    · exact hc
  | call api =>
    cases api <;> exact Or.inl hc
  | preCanceled => exact Or.inl (by simpa [Runtime.effect] using hc)
  | decided k st =>
    simp only [Runtime.effect] at hc
    split at hc <;> exact Or.inl (by simpa using hc)
  | selFailed st =>
    simp only [Runtime.effect] at hc
    split at hc <;> exact Or.inl (by simpa using hc)
  | ioCanceled | io => exact Or.inl (by simpa [Runtime.effect] using hc)
  | _ => exact Or.inl hc

/-- Whoever opens a window wakes the waiter before it ends it; a sleep's timer opens none. -/
lemma fin_of_wake {s t : Core} {a : Ctx} {act : Act} (h : Inv s) (hstep : Step s ⟨a, act⟩ t) {n : NodeRef}
    (hn : .wake n ∈ act.leaves) : .fin n ∈ act.leaves ∨ ∃ w, a = .sched w ∧ act = .sleepFire n.cr := by
  have hout : ∀ {op : Op} {lk : LockId}, .wake n ∈ (exec s.heap a op).2.work lk →
      .fin n ∈ (exec s.heap a op).2.work lk := by
    intro op lk hmem
    have hgranted : n ∈ (exec s.heap a op).2.granted := by
      unfold Out.work at hmem
      split at hmem <;> simpa using hmem
    have hchain := (exec_effect h.wf a op).chain.mem_iff.mpr hgranted
    unfold Out.work
    split <;> simp [hchain]
  cases hstep with
  | «local» _ hl =>
    rw [hl.leaves_nil] at hn
    cases hn
  | crit | selTry | selRetry => exact Or.inl (hout hn)
  | flip => exact Or.inl (by simpa [Act.leaves] using hn)
  | @sleepFire w t =>
    obtain rfl : n = .wq t := by simpa [Act.leaves] using hn
    exact Or.inr ⟨w, rfl, rfl⟩
  | _ => simp [Act.leaves] at hn

/-- The wakes without a window stay on their workers. -/
lemma ReapInv.wakes {r : Runtime} {a : Ctx} {act : Act} {s : Core} (h : ReapInv r) (hwin : WindowInv r.core)
    (hinv : Inv r.core) (hcore : Step r.core ⟨a, act⟩ s) (hguard : r.Guard a (r.core.pc a) act (s.pc a))
    {b : Ctx} {n : NodeRef} (hn : .wake n ∈ s.work b) :
    .fin n ∈ s.work b ∨ ∃ w, b = .sched w ∧ r.pin n.cr = some w := by
  have hf := step_footprint hinv hcore
  by_cases hb : b = a
  · subst hb
    rcases step_work hcore with ⟨x, hwork, -, -⟩ | ⟨-, hleaves, -⟩
    · have horder := hwin.order b
      rw [hwork, List.pairwise_cons] at horder
      rcases h.own b n (by rw [hwork]; exact List.mem_cons_of_mem _ hn) with hfin | hown
      · rw [hwork] at hfin
        rcases List.mem_cons.mp hfin with rfl | hfin
        · obtain ⟨m, hm, -⟩ := horder.1 _ hn
          cases hm
        · exact Or.inl hfin
      · exact Or.inr hown
    · rw [hleaves] at hn ⊢
      rcases fin_of_wake hinv hcore hn with hfin | ⟨w, rfl, rfl⟩
      · exact Or.inl hfin
      · exact Or.inr ⟨w, rfl, hguard⟩
  · rw [hf.work b hb] at hn ⊢
    exact h.own b n hn

/-- A switch out of coroutine `c` on worker `w`. -/
lemma ReapInv.switched {r : Runtime} {c : CrId} {w : WorkerId} {x : Life} (h : ReapInv r) (hs : SchedInv r)
    (hpin : r.pin c = some w) (hrun : r.run w = some c) : ReapInv (r.switchOut (.co c) x) := by
  have heq : r.switchOut (.co c) x = { r.setLife c x with
      run := Function.update r.run w none
      loop := Function.update r.loop w (.post c) } := by
    simp [Runtime.switchOut, hpin]
  rw [heq]
  refine h.keep rfl rfl (fun c' hc' => ?_) (fun _ _ hp => hp) (fun _ _ => Or.inl) (fun w' => ?_) h.own
  · have hne : c' ≠ c := by
      rintro rfl
      rw [(hs.run w c' hrun).2] at hc'
      cases hc'
    simpa [Runtime.setLife, hne] using hc'
  · by_cases hw : w' = w
    · subst hw
      simp [Loop.draining, Loop.swept]
    · simp [hw]

/-- A step of the wait protocol keeps finished coroutines out of the inboxes. -/
lemma ReapInv.core {r : Runtime} {a : Ctx} {act : Act} {s : Core} (h : ReapInv r) (hwin : WindowInv r.core)
    (hs : SchedInv r) (hinv : Inv r.core) (hactive : r.Active a) (hcore : Step r.core ⟨a, act⟩ s)
    (hguard : r.Guard a (r.core.pc a) act (s.pc a)) (hby : ∀ r', ByDeciders r (.core ⟨a, act⟩) r') :
    ReapInv { r.effect a (r.core.pc a) act (s.pc a) with core := s } := by
  have hinbox : ∀ w c, c ∈ (r.effect a (r.core.pc a) act (s.pc a)).inbox w → c ∈ r.inbox w ∨ r.life c ≠ .done :=
    fun w c => h.entered hwin hs hcore hby
  have hown : ∀ b n, .wake n ∈ s.work b → .fin n ∈ s.work b ∨ ∃ w, b = .sched w ∧ r.pin n.cr = some w :=
    fun b n => h.wakes hwin hinv hcore hguard
  by_cases hact : act = .suspend
  · subst hact
    obtain ⟨⟨c, rfl⟩, -⟩ := step_suspend hcore
    obtain ⟨w, hpin, hrun⟩ := hactive
    have hout := h.switched (x := .suspended) hs hpin hrun
    refine ⟨hout.zombie, hout.reaped, hout.swept, fun b n hb => ?_⟩
    simpa [Runtime.effect, Runtime.switchOut, hpin, Runtime.setLife] using hown b n hb
  · have hn := Nudged.effect r a (r.core.pc a) hact (s.pc a)
    refine h.keep hn.freed.1 hn.freed.2.1 (fun _ => hn.done) (fun c w hp => ?_) hinbox (fun w => ?_)
      fun b n hb => ?_
    · exact (congrFun hn.pin c).trans hp
    · have hloop := congrFun hn.loop w
      exact ⟨fun c hc => hloop ▸ hc, fun hsw => hloop ▸ hsw⟩
    · exact (hown b n hb).imp_right (Exists.imp fun _ => And.imp_right (congrFun hn.pin _).trans)

/-- Wakes that put no finished coroutine in an inbox. -/
lemma ReapInv.nudged {r r' : Runtime} (h : ReapInv r) (hn : Nudged r r') (hcore : r'.core = r.core)
    (hinbox : ∀ w c, c ∈ r'.inbox w → c ∈ r.inbox w ∨ r.life c ≠ .done) : ReapInv r' := by
  refine h.keep hn.freed.1 hn.freed.2.1 (fun _ => hn.done) (fun c w hp => ?_) hinbox (fun w => ?_)
    fun b n hb => ?_
  · exact (congrFun hn.pin c).trans hp
  · have hloop := congrFun hn.loop w
    exact ⟨fun c hc => hloop ▸ hc, fun hsw => hloop ▸ hsw⟩
  · rw [hcore] at hb ⊢
    exact (h.own b n hb).imp_right (Exists.imp fun _ => And.imp_right (congrFun hn.pin _).trans)

/-- The loop of worker `w` moves on without taking the inbox. -/
lemma Runtime.AtLoop.moves {r : Runtime} {w : WorkerId} {l l' : Loop} (hat : r.AtLoop w l)
    (hdrain : ∀ c ∈ l'.draining, c ∈ l.draining) (hswept : l'.swept = true → l.swept = true) (w' : WorkerId) :
    (∀ c ∈ (Function.update r.loop w l' w').draining, c ∈ (r.loop w').draining) ∧
      ((Function.update r.loop w l' w').swept = true → (r.loop w').swept = true) := by
  by_cases hw : w' = w
  · subst hw
    rw [hat.2.1]
    simpa using ⟨hdrain, hswept⟩
  · simp [hw]

/-- Coroutine `c` is not finished, and gets on. -/
lemma ReapInv.living {r r' : Runtime} (h : ReapInv r) {c : CrId} {x : Life} (hc : r.life c ≠ .done)
    (hlife : r'.life = Function.update r.life c x) (hpin : ∀ c w, r.pin c = some w → r'.pin c = some w)
    (hsame : r'.zombies = r.zombies ∧ r'.reaped = r.reaped ∧ r'.inbox = r.inbox ∧ r'.loop = r.loop ∧
      r'.core = r.core) : ReapInv r' := by
  obtain ⟨hz, hr, hinbox, hloop, hcore⟩ := hsame
  refine h.keep hz hr (fun c' hc' => ?_) hpin (fun w c' hm => Or.inl (hinbox ▸ hm)) (fun w => ?_) fun a n hn => ?_
  · have hne : c' ≠ c := by
      rintro rfl
      exact hc hc'
    simpa [hlife, hne] using hc'
  · rw [hloop]
    exact ⟨fun _ => id, id⟩
  · rw [hcore] at hn ⊢
    exact (h.own a n hn).imp_right (Exists.imp fun _ => And.imp_right (hpin _ _))

/-- Whatever happens, a coroutine is freed only when it is in no inbox. -/
theorem reapInv_step {r r' : Runtime} {e : Ev} (h : ReapInv r) (hwin : WindowInv r.core) (hs : SchedInv r)
    (hinv : Inv r.core) (hstep : RStep r e r') (hby : ByDeciders r e r') : ReapInv r' := by
  -- who has not been pinned yet gets a worker
  have pinned : ∀ {c₀ : CrId} {p : Option WorkerId}, r.pin c₀ = none → ∀ c w, r.pin c = some w →
      Function.update r.pin c₀ p c = some w := by
    intro c₀ p hnone c w hp
    have hne : c ≠ c₀ := by
      rintro rfl
      rw [hnone] at hp
      cases hp
    simpa [hne] using hp
  cases hstep with
  | core hactive _ hcore hguard => exact h.core hwin hs hinv hactive hcore hguard fun _ => hby
  | spawn hl => exact h.living (by simp [hl]) rfl (fun _ _ => id) ⟨rfl, rfl, rfl, rfl, rfl⟩
  | spawnLocal _ hl _ => exact h.living (by simp [hl]) rfl (pinned (hs.unborn _ hl)) ⟨rfl, rfl, rfl, rfl, rfl⟩
  | take _ hready hnone => exact h.living (by simp [hready]) rfl (pinned hnone) ⟨rfl, rfl, rfl, rfl, rfl⟩
  | resume _ hready _ => exact h.living (by simp [hready]) rfl (fun _ _ => id) ⟨rfl, rfl, rfl, rfl, rfl⟩
  | yield hactive _ _ | bare hactive _ _ =>
    obtain ⟨w, hpin, hrun⟩ := hactive
    exact h.switched hs hpin hrun
  | @exit c w hpin hrun _ _ =>
    have hout := h.switched (x := .done) hs hpin hrun
    have hdone : (r.switchOut (.co c) .done).life c = .done ∧ (r.switchOut (.co c) .done).pin c = some w ∧
        (r.switchOut (.co c) .done).loop w = .post c ∧ (r.switchOut (.co c) .done).zombies = r.zombies := by
      simp [Runtime.switchOut, hpin, Runtime.setLife]
    obtain ⟨hlife, hpin', hloop, hz⟩ := hdone
    refine ⟨fun w' c' hc' => ?_, hout.reaped, fun w' c' hc' hsw => ?_, hout.own⟩
    · by_cases hw : w' = w
      · subst hw
        rcases List.mem_cons.mp (by simpa using hc') with rfl | hold
        · exact ⟨hlife, hpin'⟩
        · exact hout.zombie w' c' (by rwa [hz])
      · exact hout.zombie w' c' (by rw [hz]; simpa [hw] using hc')
    · have hw : w' ≠ w := by
        rintro rfl
        change ((r.switchOut (.co c) .done).loop w').swept = true at hsw
        rw [hloop] at hsw
        cases hsw
      exact hout.swept w' c' (by rw [hz]; simpa [hw] using hc') hsw
  | postDeliver hat _ _ | postSkip hat _ =>
    exact h.keep rfl rfl (fun _ => id) (fun _ _ => id) (fun _ _ => Or.inl)
      (hat.moves (by simp [Loop.draining]) (by simp [Loop.swept])) h.own
  | @drain w hat =>
    refine ⟨h.zombie, fun c hc => ?_, fun w' c hc hsw hmem => ?_, h.own⟩
    · obtain ⟨hl, hin⟩ := h.reaped c hc
      refine ⟨hl, fun w' => ?_⟩
      by_cases hw : w' = w
      · subst hw
        simpa [Loop.draining] using (hin w').1
      · simpa [hw] using hin w'
    · by_cases hw : w' = w
      · subst hw
        simp at hmem
      · simp only [Function.update_of_ne hw] at hsw hmem
        exact h.swept w' c hc hsw hmem
  | pop hat | drained hat =>
    exact h.keep rfl rfl (fun _ => id) (fun _ _ => id) (fun _ _ => Or.inl)
      (hat.moves (by simp [Loop.draining]) (by simp [Loop.swept])) h.own
  | @deliverWake w c l l' hat hl _ =>
    obtain ⟨-, hdrain, -, -⟩ := Loop.delivers_spec hl
    have hn := Nudged.deliverWake r c
    have hinbox : (r.deliverWake c).inbox = r.inbox := by
      unfold Runtime.deliverWake
      split
      · rfl
      · split <;> rfl
    refine h.keep hn.freed.1 hn.freed.2.1 (fun _ => hn.done) (fun c' w' hp => ?_)
      (fun w' c' hc' => Or.inl (hinbox ▸ hc')) (hat.moves hdrain ?_) fun b n hb => ?_
    · exact (congrFun hn.pin c').trans hp
    · cases l <;> cases hl <;> simp [Loop.swept]
    · simp only [Runtime.deliverWake_core] at hb ⊢
      exact (h.own b n hb).imp_right (Exists.imp fun _ => And.imp_right (congrFun hn.pin _).trans)
  | @deliverCancel w c l l' hat hl _ =>
    obtain ⟨-, hdrain, -, -⟩ := Loop.delivers_spec hl
    refine h.keep rfl rfl (fun _ => id) (fun _ _ => id) (fun _ _ => Or.inl) (hat.moves hdrain ?_) h.own
    cases l <;> cases hl <;> simp [Loop.swept]
  | @stray a t _ _ _ _ _ =>
    refine h.nudged (Nudged.wakeNoPreempt r _ _) (by simp) fun w c hc => Or.inl ?_
    refine (wakeNoPreempt_inbox hc).resolve_right ?_
    rintro ⟨-, hnone, hne⟩
    exact Or.elim hby hnone hne
  | poll _ _ _ hl => exact h.nudged (Nudged.setReady hl) rfl fun _ _ => Or.inl
  | ioTimeout _ _ _ hl => exact h.living (by simp [hl]) rfl (fun _ _ => id) ⟨rfl, rfl, rfl, rfl, rfl⟩
  | @cqe w c o res _ _ _ _ =>
    refine h.keep rfl rfl (fun c' hc' => ?_) (fun _ _ => id) (fun _ _ => Or.inl) (fun _ => ⟨fun _ => id, id⟩)
      h.own
    by_cases hne : c' = c
    · subst hne
      simp [Runtime.setLife, hc']
    · simpa [Runtime.setLife, hne] using hc'
  | deadlineOp => exact h.nudged (Nudged.iouCancel r _) rfl fun _ _ => Or.inl
  | @reap w hat =>
    refine ⟨fun w' c hc => ?_, fun c hc => ?_, fun w' c hc hsw => ?_, h.own⟩
    · by_cases hw : w' = w
      · subst hw
        simp at hc
      · exact h.zombie w' c (by simpa [hw] using hc)
    · by_cases hz : c ∈ r.zombies w
      · obtain ⟨hl, hp⟩ := h.zombie w c hz
        have hloop : r.loop w = .drain [] := hat.2.1
        refine ⟨hl, fun w' => ?_⟩
        by_cases hw : w' = w
        · subst hw
          rw [hloop]
          exact ⟨h.swept w' c hz (by rw [hloop]; rfl), by simp [Loop.draining]⟩
        · -- inbox entries are pinned to the worker
          have hother : ¬ (c ∈ r.inbox w' ∨ c ∈ (r.loop w').draining) := fun hmem =>
            hw (Option.some.inj ((hs.inbox w' c hmem).symm.trans hp))
          exact not_or.mp hother
      · exact h.reaped c (by simpa [hz] using hc)
    · by_cases hw : w' = w
      · subst hw
        simp at hc
      · exact h.swept w' c (by simpa [hw] using hc) hsw
  | free => exact { h with }

/-! ## The handshake -/

/-- The decider handshake in state `r`. -/
structure Runtime.Handshake (r : Runtime) : Prop where
  /-- `waker_busy` is set exactly as long as one decider has not executed its `s_wait_decide_end`. -/
  window : ∀ n, (r.core.heap.waits.node n).wakerBusy = true ↔ ∃! a, .fin n ∈ r.core.work a
  /-- Until then the waiter is in its blocking call, in front of `s_wait_decider_sync` on the node. -/
  trapped : ∀ a n, .fin n ∈ r.core.work a → (r.core.pc (.co n.cr)).Trapped (r.core.heap.waits.winner n.cr) n
  /-- Behind it the decider only ends windows of other coroutines: it touches neither the node, nor its
  coroutine, nor a lock. -/
  last : ∀ a n rest, r.core.work a = .fin n :: rest → ∀ x ∈ rest, ∃ m, x = .fin m ∧ m.cr ≠ n.cr
  /-- Nobody is going to touch the lock of a freed structure. -/
  freed : ∀ lk, r.gone lk = true → ∀ a, ¬ Touches r.core a lk

lemma HandshakeInv.handshake {r : Runtime} (h : HandshakeInv r) : r.Handshake where
  window := fun n => by
    constructor
    · intro hbusy
      obtain ⟨a, ha⟩ := h.windows.ended n hbusy
      exact ⟨a, ha, fun b hb => h.windows.unique b a n hb ha⟩
    · rintro ⟨a, ha, -⟩
      exact (h.windows.isOpen a n ha).busy
  trapped := fun a n hn => (h.windows.isOpen a n hn).trapped
  last := fun a n rest hwork => by
    have horder := h.windows.order a
    rw [hwork, List.pairwise_cons] at horder
    exact horder.1
  freed := h.freed.untouched

end Suspenders.Sched
