import Suspenders.Sched.Runtime
import Suspenders.Wait.Footprint

/-!
# The invariant of the scheduling state

`SchedInv` ties the scheduling state to the contexts: a worker runs exactly the coroutine that is `RUNNING`
on it and its scheduler loop is at rest meanwhile; a coroutine that is not running stands where it may have
switched out and has nothing left to do for others; whoever is in an inbox, or being delivered from one,
is pinned to the worker; and `wake_inflight` is set only while the inbox entry has not been taken.
-/

namespace Suspenders.Sched

open Lib Wait

/-! ## Effects that only wake -/

/-- The scheduling state changes from `r` to `r'` by wakes at most. -/
structure Nudged (r r' : Runtime) : Prop where
  /-- Pins stay. -/
  pin : r'.pin = r.pin
  /-- Nobody switches. -/
  run : r'.run = r.run
  /-- The loops stay where they are. -/
  loop : r'.loop = r.loop
  /-- Suspended coroutines may become ready. -/
  life : ∀ c, r'.life c = r.life c ∨ (r.life c = .suspended ∧ r'.life c = .ready)
  /-- Nobody leaves an inbox. -/
  inbox : ∀ w c, c ∈ r.inbox w → c ∈ r'.inbox w
  /-- Whoever enters an inbox is pinned to its worker. -/
  entered : ∀ w c, c ∈ r'.inbox w → c ∈ r.inbox w ∨ r.pin c = some w
  /-- The dedup flag is set together with the entry. -/
  inflight : ∀ c, r'.inflight c = true → r.inflight c = true ∨ ∃ w, r.pin c = some w ∧ c ∈ r'.inbox w
  /-- It is not cleared. -/
  sticky : ∀ c, r.inflight c = true → r'.inflight c = true
  /-- Nothing is freed. -/
  freed : r'.zombies = r.zombies ∧ r'.reaped = r.reaped ∧ r'.gone = r.gone

namespace Nudged

variable {r r' : Runtime}

lemma refl (r : Runtime) : Nudged r r :=
  ⟨rfl, rfl, rfl, fun _ => Or.inl rfl, fun _ _ => id, fun _ _ => Or.inl, fun _ => Or.inl, fun _ => id,
    rfl, rfl, rfl⟩

/-- Fields that wakes do not look at may change as well. -/
lemma congr {r₁ : Runtime} (h : Nudged r₁ r') (hpin : r₁.pin = r.pin) (hrun : r₁.run = r.run)
    (hloop : r₁.loop = r.loop) (hlife : r₁.life = r.life) (hinbox : r₁.inbox = r.inbox)
    (hinflight : r₁.inflight = r.inflight)
    (hfreed : r₁.zombies = r.zombies ∧ r₁.reaped = r.reaped ∧ r₁.gone = r.gone) : Nudged r r' := by
  obtain ⟨h₁, h₂, h₃, h₄, h₅, h₆, h₇, h₈, h₉⟩ := h
  rw [hpin] at h₁ h₆ h₇
  rw [hrun] at h₂
  rw [hloop] at h₃
  rw [hlife] at h₄
  rw [hinbox] at h₅ h₆
  rw [hinflight] at h₇ h₈
  rw [hfreed.1, hfreed.2.1, hfreed.2.2] at h₉
  exact ⟨h₁, h₂, h₃, h₄, h₅, h₆, h₇, h₈, h₉⟩

/-- A suspended coroutine becomes ready. -/
lemma setReady {t : CrId} (h : r.life t = .suspended) : Nudged r (r.setLife t .ready) := by
  refine ⟨rfl, rfl, rfl, fun c => ?_, fun _ _ => id, fun _ _ => Or.inl, fun _ => Or.inl, fun _ => id,
    rfl, rfl, rfl⟩
  by_cases hc : c = t
  · subst hc
    exact Or.inr ⟨h, by simp [Runtime.setLife]⟩
  · exact Or.inl (by simp [Runtime.setLife, hc])

lemma inboxWake (r : Runtime) (t : CrId) : Nudged r (r.inboxWake t) := by
  unfold Runtime.inboxWake
  split
  · exact refl r
  · rename_i w hpin
    split
    · exact refl r
    · refine ⟨rfl, rfl, rfl, fun _ => Or.inl rfl, fun w' c hc => ?_, fun w' c hc => ?_, fun c hc => ?_,
        fun c hc => ?_, rfl, rfl, rfl⟩
      · by_cases hw : w' = w
        · subst hw
          simpa using Or.inr hc
        · simpa [hw] using hc
      · by_cases hw : w' = w
        · subst hw
          rcases List.mem_cons.mp (by simpa using hc) with rfl | hc
          · exact Or.inr hpin
          · exact Or.inl hc
        · exact Or.inl (by simpa [hw] using hc)
      · by_cases hct : c = t
        · subst hct
          exact Or.inr ⟨w, hpin, by simp⟩
        · exact Or.inl (by simpa [hct] using hc)
      · by_cases hct : c = t
        · subst hct
          simp
        · simpa [hct] using hc

lemma wakeNoPreempt (r : Runtime) (me : Option WorkerId) (t : CrId) :
    Nudged r (r.wakeNoPreempt me t) := by
  unfold Runtime.wakeNoPreempt
  split
  · exact inboxWake r t
  · split
    · rename_i h
      exact setReady h
    · exact refl r

lemma iouCancel (r : Runtime) (t : CrId) : Nudged r (r.iouCancel t) :=
  (refl (r.iouCancel t)).congr rfl rfl rfl rfl rfl rfl ⟨rfl, rfl, rfl⟩

lemma cancelIo (r : Runtime) (me : Option WorkerId) (t : CrId) : Nudged r (r.cancelIo me t) := by
  unfold Runtime.cancelIo
  split
  · split
    · exact iouCancel r t
    · exact (wakeNoPreempt _ me t).congr rfl rfl rfl rfl rfl rfl ⟨rfl, rfl, rfl⟩
  · exact refl r

lemma expireIo (r : Runtime) (me : Option WorkerId) (t : CrId) : Nudged r (r.expireIo me t) := by
  unfold Runtime.expireIo
  split
  · exact (wakeNoPreempt _ me t).congr rfl rfl rfl rfl rfl rfl ⟨rfl, rfl, rfl⟩
  · exact refl r

lemma deliverCancel (r : Runtime) (t : CrId) : Nudged r (r.deliverCancel t) := by
  unfold Runtime.deliverCancel
  split
  · exact iouCancel r t
  · split
    · rename_i h
      refine Nudged.congr (setReady ?_) rfl rfl rfl rfl rfl rfl ⟨rfl, rfl, rfl⟩
      exact h
    · split
      · exact refl r
      · exact (refl _).congr rfl rfl rfl rfl rfl rfl ⟨rfl, rfl, rfl⟩

lemma deliverWake (r : Runtime) (t : CrId) : Nudged r (r.deliverWake t) := by
  unfold Runtime.deliverWake
  split
  · rename_i h
    exact setReady h
  · split
    · exact refl r
    · exact (refl _).congr rfl rfl rfl rfl rfl rfl ⟨rfl, rfl, rfl⟩

lemma clearCancel (r : Runtime) (a : Ctx) : Nudged r (r.clearCancel a) := by
  unfold Runtime.clearCancel
  split
  · exact (refl _).congr rfl rfl rfl rfl rfl rfl ⟨rfl, rfl, rfl⟩
  · exact refl r

lemma ioEffect (r : Runtime) (a : Ctx) (pc pc' : Pc) : Nudged r (r.ioEffect a pc pc') := by
  unfold Runtime.ioEffect
  split
  all_goals first
    | exact refl r
    | exact (refl _).congr rfl rfl rfl rfl rfl rfl ⟨rfl, rfl, rfl⟩

lemma trans {r₁ r₂ : Runtime} (h : Nudged r r₁) (h' : Nudged r₁ r₂) : Nudged r r₂ := by
  refine ⟨h'.pin.trans h.pin, h'.run.trans h.run, h'.loop.trans h.loop, fun c => ?_,
    fun w c hc => h'.inbox w c (h.inbox w c hc), fun w c hc => ?_, fun c hc => ?_,
    fun c hc => h'.sticky c (h.sticky c hc), ?_⟩
  · rcases h.life c with h₁ | h₁ <;> rcases h'.life c with h₂ | h₂
    · exact Or.inl (h₂.trans h₁)
    · exact Or.inr ⟨h₁ ▸ h₂.1, h₂.2⟩
    · exact Or.inr ⟨h₁.1, h₂.trans h₁.2⟩
    · rw [h₁.2] at h₂
      cases h₂.1
  · rcases h'.entered w c hc with hc | hc
    · exact h.entered w c hc
    · exact Or.inr (h.pin ▸ hc)
  · rcases h'.inflight c hc with hc | ⟨w, hw, hc⟩
    · rcases h.inflight c hc with hc | ⟨w, hw, hc⟩
      · exact Or.inl hc
      · exact Or.inr ⟨w, hw, h'.inbox w c hc⟩
    · exact Or.inr ⟨w, h.pin ▸ hw, hc⟩
  · obtain ⟨h₁, h₂, h₃⟩ := h.freed
    obtain ⟨h₁', h₂', h₃'⟩ := h'.freed
    exact ⟨h₁'.trans h₁, h₂'.trans h₂, h₃'.trans h₃⟩

/-- Only a suspension does more than wake. -/
lemma effect (r : Runtime) (a : Ctx) (pc : Pc) {act : Act} (hact : act ≠ .suspend) (pc' : Pc) :
    Nudged r (r.effect a pc act pc') := by
  cases act with
  | suspend => exact absurd rfl hact
  | wake n => exact wakeNoPreempt r _ _
  | call api =>
    cases api <;> first
      | exact refl r
      | exact (refl _).congr rfl rfl rfl rfl rfl rfl ⟨rfl, rfl, rfl⟩
  | preCanceled => exact clearCancel r a
  | decided k st =>
    simp only [Runtime.effect]
    split
    · exact clearCancel r a
    · exact refl r
  | selFailed st =>
    simp only [Runtime.effect]
    split
    · exact clearCancel r a
    · exact refl r
  | ioCanceled => exact (clearCancel r a).trans (ioEffect _ a pc pc')
  | io => exact ioEffect r a pc pc'
  | waker =>
    simp only [Runtime.effect, Runtime.wakerEffect]
    split
    · exact inboxWake r _
    · exact cancelIo r _ _
    · exact deliverCancel r _
    · exact expireIo r _ _
    · exact refl r
  | _ => exact refl r

end Nudged

/-! ## The invariant -/

/-- The inbox entries a loop has not taken yet. -/
def Loop.left : Loop → List CrId
  | drain rest | deliver _ rest => rest
  | _ => []

/-- The coroutines a loop is delivering wakes to. -/
def Loop.draining : Loop → List CrId
  | drain rest => rest
  | deliver c rest => c :: rest
  | _ => []

/-- The coroutine a loop has come back from. -/
def Loop.back : Loop → Option CrId
  | post c | redeliver c => some c
  | _ => none

/-- What a delivery does to the loop. -/
lemma Loop.delivers_spec {l l' : Loop} {c : CrId} (h : l.delivers = some (c, l')) :
    (c ∈ l.draining ∨ l.back = some c) ∧ (∀ c' ∈ l'.draining, c' ∈ l.draining) ∧ l'.back = none ∧
      l'.left = l.left := by
  cases l with
  | deliver c₀ rest =>
    obtain ⟨rfl, rfl⟩ : c₀ = c ∧ .drain rest = l' := by simpa [Loop.delivers] using h
    exact ⟨Or.inl (by simp [draining]), fun _ hc => List.mem_cons_of_mem _ hc, rfl, rfl⟩
  | redeliver c₀ =>
    obtain ⟨rfl, rfl⟩ : c₀ = c ∧ .top = l' := by simpa [Loop.delivers] using h
    exact ⟨Or.inr rfl, fun _ hc => hc, rfl, rfl⟩
  | _ => cases h

/-- The coroutine that `s_waiter_wake` is called for at this place. -/
def waking : Pc → Option (WakeFor × CrId)
  | .wakeTest f t | .wakeLock f t _ | .wakeMiss f t => some (f, t)
  | _ => none

/-- Behind `suspenders_suspend`, or outside the library. -/
def atRest : Pc → Bool
  | .idle | .blk _ _ | .selTest _ | .ioWoke _ | .iouTest => true
  | _ => false

/-- Between the submission of an io_uring operation and the end of its wait. -/
def inIou : Pc → Bool
  | .iouTest | .iouSusp | .iouDone => true
  | _ => false

/-- Where a coroutine in state `x` can be. -/
def Life.Place (pc : Pc) : Life → Prop
  | unborn | done => pc = .idle
  | ready => atRest pc = true ∨ canYield pc = true
  | suspended => atRest pc = true
  | running => True

/-- The scheduling state against the contexts. -/
structure SchedInv (r : Runtime) : Prop where
  /-- A running coroutine is executed. -/
  running : ∀ c, r.life c = .running → r.Active (.co c)
  /-- What a worker executes is running. -/
  run : ∀ w c, r.run w = some c → r.pin c = some w ∧ r.life c = .running
  /-- Meanwhile its scheduler rests. -/
  rest : ∀ w c, r.run w = some c →
    r.loop w = .top ∧ r.core.pc (.sched w) = .idle ∧ r.core.work (.sched w) = []
  /-- Where the coroutines are. -/
  place : ∀ c, (r.life c).Place (r.core.pc (.co c))
  /-- Nobody switches out with wakes to do. -/
  work : ∀ c, r.life c ≠ .running → r.core.work (.co c) = []
  /-- A coroutine that has not run yet. -/
  fresh : ∀ c, r.pin c = none →
    r.core.pc (.co c) = .idle ∧ (r.life c = .unborn ∨ r.life c = .ready)
  /-- Whoever is not spawned is not pinned. -/
  unborn : ∀ c, r.life c = .unborn → r.pin c = none
  /-- Inbox entries are pinned to the worker. -/
  inbox : ∀ w c, c ∈ r.inbox w ∨ c ∈ (r.loop w).draining → r.pin c = some w
  /-- So is the coroutine a scheduler comes back from. -/
  post : ∀ w c, (r.loop w).back = some c → r.pin c = some w
  /-- So are the targets of a scheduler's callbacks. -/
  waker : ∀ w f t, waking (r.core.pc (.sched w)) = some (f, t) → f ≠ .cancel → r.pin t = some w
  /-- An entry in flight has not been taken. -/
  inflight : ∀ c, r.inflight c = true →
    ∃ w, r.pin c = some w ∧ (c ∈ r.inbox w ∨ c ∈ (r.loop w).left)
  /-- `pending_io` is set during an io_uring operation. -/
  op : ∀ c, r.op c = none ↔ inIou (r.core.pc (.co c)) = false

lemma schedInv_init (cfg : Config) : SchedInv (.init cfg) where
  running := by simp [Runtime.init]
  run := by simp [Runtime.init]
  rest := by simp [Runtime.init]
  place := fun _ => rfl
  work := fun _ _ => rfl
  fresh := fun _ _ => ⟨rfl, Or.inl rfl⟩
  unborn := fun _ _ => rfl
  inbox := by simp [Runtime.init, Loop.draining]
  post := by simp [Runtime.init, Loop.back]
  waker := by simp [Runtime.init, Core.init, waking]
  inflight := by simp [Runtime.init]
  op := by simp [Runtime.init, Core.init, inIou]

/-! ## Steps of the wait protocol -/

/-- Who is executed on a coroutine's worker. -/
lemma SchedInv.active_iff {r : Runtime} (h : SchedInv r) (c : CrId) :
    r.Active (.co c) ↔ r.life c = .running := by
  constructor
  · rintro ⟨w, -, hrun⟩
    exact (h.run w c hrun).2
  · exact h.running c

/-- A suspension leaves a context at rest. -/
lemma step_suspend {s t : Core} {a : Ctx} (h : Step s ⟨a, .suspend⟩ t) :
    (∃ c, a = .co c) ∧ atRest (t.pc a) = true ∧ t.work a = [] ∧ s.work a = [] := by
  cases h with
  | «local» hwork hl =>
    have hpc := hl
    generalize s.pc a = pc at hpc
    cases hpc with
    | ioSuspend => exact ⟨⟨_, rfl⟩, by simp [atRest], hwork, hwork⟩
    | iouSuspend => exact ⟨⟨_, rfl⟩, by simp [atRest], hwork, hwork⟩
  | suspend _ hwork => exact ⟨⟨_, rfl⟩, by simp [atRest], hwork, hwork⟩
  | selSuspend _ hwork => exact ⟨⟨_, rfl⟩, by simp [atRest], hwork, hwork⟩

/-- Where calls begin, and where they go on behind a critical section or a wait. -/
def plain : Pc → Bool
  | .ret _ | .selRet _ _ | .pre _ | .cs _ _ | .blk _ _ | .sleep | .selScan _ _ => true
  | .ioTry _ | .iouSubmit | .cancelRoute _ => true
  | _ => false

lemma plain_after (k : Frame) (st : Code) : plain (k.after st) = true := by
  cases k <;> simp only [Frame.after] <;> (try split) <;> rfl

lemma plain_next (k : Frame) (res : Res) : plain (k.next res) = true := by
  cases res with
  | ret code => exact plain_after k code
  | park l data writer => cases k <;> rfl

lemma plain_fail (e : Entry) (st : Code) : plain (e.fail st) = true := by
  cases e <;> first | exact plain_after _ _ | rfl

lemma plain_go (e : Entry) (h : Heap) (c : CrId) (n : ℕ) : plain (e.go h c n) = true := by
  cases e with
  | op o k => cases o <;> cases k <;> simp only [Entry.go] <;> (try split) <;> rfl
  | _ => rfl

lemma plain_entry (api : Api) (a : Ctx) (n : ℕ) : plain (api.entry a n) = true := by
  cases api with
  | op o => cases a <;> cases o <;> first | rfl | (rename_i b; cases b <;> rfl)
  | select ops => cases a <;> simp only [Api.entry] <;> split <;> rfl
  | _ => cases a <;> rfl

lemma waking_of_plain {pc : Pc} (h : plain pc = true) : waking pc = none := by
  cases pc <;> first | rfl | cases h

lemma inIou_of_plain {pc : Pc} (h : plain pc = true) : inIou pc = false := by
  cases pc <;> first | rfl | cases h

/-- Nobody acts on behalf of `s_waiter_wake` without having been called. -/
lemma step_waking {s t : Core} {a : Ctx} {act : Act} (h : Step s ⟨a, act⟩ t) {f : WakeFor}
    {x : CrId} (ht : waking (t.pc a) = some (f, x)) (hf : f ≠ .cancel) :
    waking (s.pc a) = some (f, x) ∨
      (act = .waker ∧ s.pc a = .idle ∧ t.pc a = .wakeTest f x) := by
  cases h with
  | «local» _ hl =>
    rw [Core.setPc_pc_self] at ht ⊢
    generalize s.pc a = pc at hl
    cases hl with
    | callback _ =>
      obtain ⟨rfl, rfl⟩ : _ ∧ _ := by simpa [waking] using ht
      exact Or.inr ⟨rfl, rfl, rfl⟩
    | routeLocal =>
      obtain ⟨rfl, -⟩ : .cancel = f ∧ _ := by simpa [waking] using ht
      exact absurd rfl hf
    | wakeHit | wakeNo | wakeLost => exact Or.inl ht
    | wakeGiveUp =>
      split at ht <;> cases ht
    | ioReady =>
      split at ht <;> cases ht
    | call => simp [waking_of_plain (plain_entry _ _ _)] at ht
    | preCanceled | preExpired => simp [waking_of_plain (plain_fail _ _)] at ht
    | preGo => simp [waking_of_plain (plain_go _ _ _ _)] at ht
    | _ => cases ht
  | crit => simp [waking_of_plain (plain_next _ _)] at ht
  | decided => simp [waking_of_plain (plain_after _ _)] at ht
  | wake | unlock | fin => exact Or.inl ht
  | sleepFire => exact Or.inl ht
  | selTry | selRetry =>
    simp only [Core.setWork_pc, Core.setPc_pc_self] at ht
    split at ht <;> cases ht
  | flip =>
    simp only [Core.setWork_pc, Core.setPc_pc_self] at ht
    split at ht <;> cases ht
  | _ => simp [waking] at ht

/-- How a coroutine enters and leaves an io_uring operation. -/
lemma step_iou {s t : Core} {a : Ctx} {act : Act} (h : Step s ⟨a, act⟩ t) :
    (s.pc a = .iouSubmit ∧ act = .io ∧ inIou (t.pc a) = true) ∨
    (s.pc a = .iouDone ∧ (act = .io ∨ act = .ioCanceled) ∧ inIou (t.pc a) = false) ∨
    (inIou (t.pc a) = inIou (s.pc a) ∧
      (act = .io ∨ act = .ioCanceled → s.pc a ≠ .iouSubmit ∧ s.pc a ≠ .iouDone)) := by
  cases h with
  | «local» _ hl =>
    rw [Core.setPc_pc_self]
    generalize s.pc a = pc at hl
    cases hl with
    | iouSubmit => exact Or.inl ⟨rfl, rfl, rfl⟩
    | iouRet code _ => exact Or.inr (Or.inl ⟨rfl, Or.inl rfl, rfl⟩)
    | iouCanceled => exact Or.inr (Or.inl ⟨rfl, Or.inr rfl, rfl⟩)
    | call => exact Or.inr (Or.inr ⟨inIou_of_plain (plain_entry _ _ _), by simp⟩)
    | preCanceled | preExpired => exact Or.inr (Or.inr ⟨inIou_of_plain (plain_fail _ _), by simp⟩)
    | preGo => exact Or.inr (Or.inr ⟨inIou_of_plain (plain_go _ _ _ _), by simp⟩)
    | ioReady | wakeGiveUp =>
      right; right
      split <;> exact ⟨rfl, by simp⟩
    | _ => exact Or.inr (Or.inr ⟨rfl, by simp⟩)
  | crit hpc _ _ =>
    refine Or.inr (Or.inr ⟨?_, by simp⟩)
    simp only [Core.setHeld_pc, Core.setWork_pc, Core.setPc_pc_self, hpc]
    exact inIou_of_plain (plain_next _ _)
  | decided hpc _ _ _ =>
    refine Or.inr (Or.inr ⟨?_, by simp⟩)
    rw [Core.setPc_pc_self, hpc]
    exact inIou_of_plain (plain_after _ _)
  | wake | unlock | fin | sleepFire => exact Or.inr (Or.inr ⟨rfl, by simp⟩)
  | selTry hpc _ _ _ | selRetry hpc _ _ _ | flip hpc _ _ _ =>
    refine Or.inr (Or.inr ⟨?_, by simp⟩)
    simp only [Core.setWork_pc, Core.setPc_pc_self, hpc]
    split <;> rfl
  | testWaiting hpc _ _ | testDecided hpc _ _ | suspend hpc _ | sleepPark hpc _ | selInit hpc _
  | selReady hpc _ _ _ _ | selPark hpc _ _ _ _ | selRegEnd hpc _ | selWaiting hpc _ _ _
  | selDecided hpc _ _ | selSuspend hpc _ | selUnreg hpc _ _ _ _ | selLeave hpc _ _
  | selAgain _ hpc _ _ _ | selRescanEnd hpc _ | selSync hpc _ _ | selSync2 hpc _ _ | selWon hpc _
  | selScanned hpc _ | selFailed hpc _ _ =>
    exact Or.inr (Or.inr ⟨by simp [hpc, inIou], by simp⟩)

section Op

variable (r : Runtime) (a : Ctx) (me : Option WorkerId) (c t : CrId) (x : Life)

@[simp] lemma setLife_op : (r.setLife c x).op = r.op := rfl

@[simp] lemma inboxWake_op : (r.inboxWake c).op = r.op := by
  unfold Runtime.inboxWake
  split
  · rfl
  · split <;> rfl

@[simp] lemma wakeNoPreempt_op : (r.wakeNoPreempt me c).op = r.op := by
  unfold Runtime.wakeNoPreempt
  split
  · exact inboxWake_op r c
  · split <;> rfl

@[simp] lemma switchOut_op : (r.switchOut a x).op = r.op := by
  unfold Runtime.switchOut
  split
  · split <;> rfl
  · rfl

@[simp] lemma clearCancel_op : (r.clearCancel a).op = r.op := by
  unfold Runtime.clearCancel
  split <;> rfl

@[simp] lemma deliverWake_op : (r.deliverWake c).op = r.op := by
  unfold Runtime.deliverWake
  split
  · rfl
  · split <;> rfl

@[simp] lemma iouCancel_op : (r.iouCancel t).op c = none ↔ r.op c = none := by
  by_cases hc : c = t
  · subst hc
    simp [Runtime.iouCancel]
  · simp [Runtime.iouCancel, hc]

lemma wakerEffect_op (pc : Pc) : (r.wakerEffect a pc).op c = none ↔ r.op c = none := by
  unfold Runtime.wakerEffect
  split
  · simp
  · unfold Runtime.cancelIo
    split
    · split <;> simp
    · rfl
  · unfold Runtime.deliverCancel
    split
    · simp
    · split
      · simp
      · split <;> rfl
  · unfold Runtime.expireIo
    split <;> simp
  · rfl

/-- An I/O action elsewhere leaves an operation alone. -/
lemma ioEffect_op (pc pc' : Pc) (h : a = .co c → pc ≠ .iouSubmit ∧ pc ≠ .iouDone) :
    (r.ioEffect a pc pc').op c = none ↔ r.op c = none := by
  unfold Runtime.ioEffect
  split
  · exact Iff.rfl
  · rename_i c'
    have hc : c ≠ c' := by
      rintro rfl
      exact (h rfl).1 rfl
    simp [hc]
  · rename_i c'
    have hc : c ≠ c' := by
      rintro rfl
      exact (h rfl).2 rfl
    simp [hc]
  · exact Iff.rfl

/-- Nothing else touches `pending_io` but to submit a cancel. -/
lemma effect_op (pc : Pc) (act : Act) (pc' : Pc)
    (h : a = .co c → act = .io ∨ act = .ioCanceled → pc ≠ .iouSubmit ∧ pc ≠ .iouDone) :
    (r.effect a pc act pc').op c = none ↔ r.op c = none := by
  cases act with
  | io => exact ioEffect_op r a c pc pc' fun ha => h ha (Or.inl rfl)
  | ioCanceled =>
    have heff := ioEffect_op (r.clearCancel a) a c pc pc' fun ha => h ha (Or.inr rfl)
    rw [clearCancel_op] at heff
    exact heff
  | waker => exact wakerEffect_op r a c pc
  | call api => cases api <;> exact Iff.rfl
  | decided k st =>
    simp only [Runtime.effect]
    split <;> simp
  | selFailed st =>
    simp only [Runtime.effect]
    split <;> simp
  | suspend | wake | preCanceled => simp [Runtime.effect]
  | _ => exact Iff.rfl

end Op

/-- `pending_io` along a step of the wait protocol. -/
lemma op_step {r : Runtime} {a : Ctx} {act : Act} {s : Core} (hf : Footprint r.core ⟨a, act⟩ s)
    (hstep : Step r.core ⟨a, act⟩ s) (c : CrId)
    (h : r.op c = none ↔ inIou (r.core.pc (.co c)) = false) :
    (r.effect a (r.core.pc a) act (s.pc a)).op c = none ↔ inIou (s.pc (.co c)) = false := by
  by_cases ha : a = .co c
  · subst ha
    obtain ⟨hpc, rfl, hin⟩ | ⟨hpc, hact, hin⟩ | ⟨hin, hne⟩ := step_iou hstep
    · rw [hpc, hin]
      simp [Runtime.effect, Runtime.ioEffect]
    · rw [hpc, hin]
      rcases hact with rfl | rfl <;> simp [Runtime.effect, Runtime.ioEffect]
    · rw [effect_op r (.co c) c _ _ _ fun _ hact => hne hact, h, hin]
  · rw [effect_op r a c _ _ _ fun hac => absurd hac ha, h, hf.pc (.co c) (Ne.symm ha)]

/-- Wakes, while the contexts that are executed move on. -/
lemma SchedInv.woken {r r₁ : Runtime} {s : Core} (h : SchedInv r) (hn : Nudged r r₁)
    (hco : ∀ c, r.life c ≠ .running →
      s.pc (.co c) = r.core.pc (.co c) ∧ s.work (.co c) = r.core.work (.co c))
    (hsched : ∀ w c, r.run w = some c →
      s.pc (.sched w) = r.core.pc (.sched w) ∧ s.work (.sched w) = r.core.work (.sched w))
    (hwaker : ∀ w f t, waking (s.pc (.sched w)) = some (f, t) → f ≠ .cancel → r.pin t = some w)
    (hop : ∀ c, r₁.op c = none ↔ inIou (s.pc (.co c)) = false) :
    SchedInv { r₁ with core := s } := by
  have hrunning : ∀ c, r.life c = .running ↔ r₁.life c = .running := by
    intro c
    rcases hn.life c with hc | ⟨hc, hc'⟩
    · rw [hc]
    · simp [hc, hc']
  refine ⟨fun c hc => ?_, fun w c hc => ?_, fun w c hc => ?_, fun c => ?_, fun c hc => ?_,
    fun c hc => ?_, fun c hc => ?_, fun w c hc => ?_, fun w c hc => ?_, fun w f t ht hne => ?_,
    fun c hc => ?_, hop⟩
  · obtain ⟨w, hpin, hrun⟩ := h.running c ((hrunning c).mpr hc)
    exact ⟨w, by rw [← hpin, ← hn.pin], by rw [← hrun, ← hn.run]⟩
  · have hrun : r.run w = some c := by rw [← hn.run]; exact hc
    obtain ⟨hpin, hlife⟩ := h.run w c hrun
    exact ⟨by rw [← hpin, ← hn.pin], (hrunning c).mp hlife⟩
  · have hrun : r.run w = some c := by rw [← hn.run]; exact hc
    obtain ⟨hloop, hpc, hwork⟩ := h.rest w c hrun
    obtain ⟨hpc', hwork'⟩ := hsched w c hrun
    exact ⟨by rw [← hloop, ← hn.loop], hpc'.trans hpc, hwork'.trans hwork⟩
  · by_cases hc : r.life c = .running
    · rw [show r₁.life c = .running from (hrunning c).mp hc]
      trivial
    · have hplace := h.place c
      simp only [(hco c hc).1]
      rcases hn.life c with hl | ⟨hl, hl'⟩
      · rw [hl]
        exact hplace
      · rw [hl] at hplace
        rw [hl']
        exact Or.inl hplace
  · have hne : r.life c ≠ .running := fun hl => hc ((hrunning c).mp hl)
    exact (hco c hne).2.trans (h.work c hne)
  · have hpin : r.pin c = none := by rw [← hn.pin]; exact hc
    obtain ⟨hpc, hlife⟩ := h.fresh c hpin
    have hne : r.life c ≠ .running := by rcases hlife with hl | hl <;> simp [hl]
    refine ⟨(hco c hne).1.trans hpc, ?_⟩
    rcases hn.life c with hl | ⟨hl, -⟩
    · rwa [hl]
    · rw [hl] at hlife
      simp at hlife
  · simp only [hn.pin]
    rcases hn.life c with hl | ⟨-, hl⟩
    · exact h.unborn c (hl ▸ hc)
    · rw [show r₁.life c = .unborn from hc] at hl
      cases hl
  · simp only [hn.pin]
    rcases hc with hc | hc
    · rcases hn.entered w c hc with hc | hc
      · exact h.inbox w c (Or.inl hc)
      · exact hc
    · exact h.inbox w c (Or.inr (by rw [← hn.loop]; exact hc))
  · simp only [hn.pin]
    exact h.post w c (by rw [← hn.loop]; exact hc)
  · simp only [hn.pin]
    exact hwaker w f t ht hne
  · simp only [hn.pin, hn.loop]
    rcases hn.inflight c hc with hc | ⟨w, hpin, hc⟩
    · obtain ⟨w, hpin, hin⟩ := h.inflight c hc
      exact ⟨w, hpin, hin.imp (hn.inbox w c) id⟩
    · exact ⟨w, hpin, Or.inl hc⟩

/-- A step of the wait protocol that wakes at most. -/
lemma SchedInv.nudged {r : Runtime} {a : Ctx} {act : Act} {s : Core} (h : SchedInv r)
    (hactive : r.Active a) (hf : Footprint r.core ⟨a, act⟩ s) (hstep : Step r.core ⟨a, act⟩ s)
    (hguard : r.Guard a (r.core.pc a) act (s.pc a)) (hact : act ≠ .suspend) :
    SchedInv { r.effect a (r.core.pc a) act (s.pc a) with core := s } := by
  refine h.woken (Nudged.effect r a (r.core.pc a) hact (s.pc a)) (fun c hc => ?_)
    (fun w c hrun => ?_) (fun w f t ht hne => ?_) fun c => op_step hf hstep c (h.op c)
  · have ha : .co c ≠ a := by
      rintro rfl
      exact hc ((h.active_iff c).mp hactive)
    exact ⟨hf.pc _ ha, hf.work _ ha⟩
  · have ha : .sched w ≠ a := by
      rintro rfl
      have hnone : r.run w = none := hactive
      rw [hrun] at hnone
      cases hnone
    exact ⟨hf.pc _ ha, hf.work _ ha⟩
  · by_cases ha : .sched w = a
    · subst ha
      rcases step_waking hstep ht hne with hold | ⟨rfl, hpc, hpc'⟩
      · exact h.waker w f t hold hne
      · rw [hpc, hpc'] at hguard
        exact hguard.2.1
    · exact h.waker w f t (by rw [← hf.pc _ ha]; exact ht) hne

/-- Coroutine `c₀` switches out. -/
lemma SchedInv.switched {r r' : Runtime} {c₀ : CrId} {w₀ : WorkerId} {x : Life} (h : SchedInv r)
    (hpin : r.pin c₀ = some w₀) (hrun : r.run w₀ = some c₀)
    (hout : r' = { r.switchOut (.co c₀) x with core := r'.core, zombies := r'.zombies })
    (hx : x ≠ .running ∧ x ≠ .unborn) (hplace : x.Place (r'.core.pc (.co c₀)))
    (hwork : r'.core.work (.co c₀) = [])
    (hother : ∀ b, b ≠ .co c₀ → r'.core.pc b = r.core.pc b ∧ r'.core.work b = r.core.work b)
    (hop : ∀ c, r.op c = none ↔ inIou (r'.core.pc (.co c)) = false) : SchedInv r' := by
  have heq : r.switchOut (.co c₀) x = { r.setLife c₀ x with
      run := Function.update r.run w₀ none, loop := Function.update r.loop w₀ (.post c₀) } := by
    simp [Runtime.switchOut, hpin]
  rw [heq] at hout
  have hlife : r'.life = Function.update r.life c₀ x := (congrArg Runtime.life hout).trans rfl
  have hpin' : r'.pin = r.pin := (congrArg Runtime.pin hout).trans rfl
  have hrun' : r'.run = Function.update r.run w₀ none := (congrArg Runtime.run hout).trans rfl
  have hloop : r'.loop = Function.update r.loop w₀ (.post c₀) := (congrArg Runtime.loop hout).trans rfl
  have hinbox : r'.inbox = r.inbox := (congrArg Runtime.inbox hout).trans rfl
  have hinflight : r'.inflight = r.inflight := (congrArg Runtime.inflight hout).trans rfl
  have hop' : r'.op = r.op := (congrArg Runtime.op hout).trans rfl
  obtain ⟨htop, -, -⟩ := h.rest w₀ c₀ hrun
  -- the only coroutine executed on the worker was this one
  have hworker : ∀ w c, r.run w = some c → c ≠ c₀ → w ≠ w₀ := by
    rintro w c hw hne rfl
    rw [hrun] at hw
    exact hne (Option.some.inj hw).symm
  refine ⟨fun c hc => ?_, fun w c hc => ?_, fun w c hc => ?_, fun c => ?_, fun c hc => ?_,
    fun c hc => ?_, fun c hc => ?_, fun w c hc => ?_, fun w c hc => ?_, fun w f t ht hne => ?_,
    fun c hc => ?_, fun c => ?_⟩
  · have hne : c ≠ c₀ := by
      rintro rfl
      rw [hlife, Function.update_self] at hc
      exact hx.1 hc
    rw [hlife, Function.update_of_ne hne] at hc
    obtain ⟨w, hw, hr⟩ := h.running c hc
    refine ⟨w, by rw [hpin', hw], ?_⟩
    rw [hrun', Function.update_of_ne (hworker w c hr hne), hr]
  · rw [hrun'] at hc
    have hw : w ≠ w₀ := by
      rintro rfl
      simp at hc
    rw [Function.update_of_ne hw] at hc
    obtain ⟨hp, hl⟩ := h.run w c hc
    have hne : c ≠ c₀ := by
      rintro rfl
      rw [hpin] at hp
      exact hw (Option.some.inj hp).symm
    exact ⟨by rw [hpin', hp], by rw [hlife, Function.update_of_ne hne, hl]⟩
  · rw [hrun'] at hc
    have hw : w ≠ w₀ := by
      rintro rfl
      simp at hc
    rw [Function.update_of_ne hw] at hc
    obtain ⟨hl, hpc, hwk⟩ := h.rest w c hc
    obtain ⟨hpc', hwk'⟩ := hother (.sched w) (by simp)
    exact ⟨by rw [hloop, Function.update_of_ne hw, hl], hpc'.trans hpc, hwk'.trans hwk⟩
  · by_cases hne : c = c₀
    · subst hne
      rw [hlife, Function.update_self]
      exact hplace
    · rw [hlife, Function.update_of_ne hne, (hother (.co c) (by simpa using hne)).1]
      exact h.place c
  · by_cases hne : c = c₀
    · subst hne
      exact hwork
    · rw [hlife, Function.update_of_ne hne] at hc
      rw [(hother (.co c) (by simpa using hne)).2]
      exact h.work c hc
  · rw [hpin'] at hc
    have hne : c ≠ c₀ := by
      rintro rfl
      rw [hpin] at hc
      cases hc
    rw [(hother (.co c) (by simpa using hne)).1, hlife, Function.update_of_ne hne]
    exact h.fresh c hc
  · have hne : c ≠ c₀ := by
      rintro rfl
      rw [hlife, Function.update_self] at hc
      exact hx.2 hc
    rw [hlife, Function.update_of_ne hne] at hc
    rw [hpin']
    exact h.unborn c hc
  · rw [hpin']
    refine h.inbox w c (hc.imp (by rw [hinbox]; exact id) fun hd => ?_)
    by_cases hw : w = w₀
    · subst hw
      rw [hloop, Function.update_self] at hd
      cases hd
    · rwa [hloop, Function.update_of_ne hw] at hd
  · rw [hpin']
    by_cases hw : w = w₀
    · subst hw
      obtain rfl : c₀ = c := by simpa [hloop, Loop.back] using hc
      exact hpin
    · exact h.post w c (by rwa [hloop, Function.update_of_ne hw] at hc)
  · rw [hpin']
    exact h.waker w f t (by rw [← (hother (.sched w) (by simp)).1]; exact ht) hne
  · rw [hinflight] at hc
    obtain ⟨w, hp, hin⟩ := h.inflight c hc
    refine ⟨w, by rw [hpin', hp], ?_⟩
    rw [hinbox]
    refine hin.imp id fun hd => ?_
    by_cases hw : w = w₀
    · subst hw
      rw [htop] at hd
      cases hd
    · rwa [hloop, Function.update_of_ne hw]
  · rw [hop']
    exact hop c

/-- A step of the wait protocol. -/
lemma SchedInv.core {r : Runtime} {a : Ctx} {act : Act} {s : Core} (h : SchedInv r)
    (hinv : Inv r.core) (hactive : r.Active a) (hstep : Step r.core ⟨a, act⟩ s)
    (hguard : r.Guard a (r.core.pc a) act (s.pc a)) :
    SchedInv { r.effect a (r.core.pc a) act (s.pc a) with core := s } := by
  have hf := step_footprint hinv hstep
  by_cases hact : act = .suspend
  · subst hact
    obtain ⟨⟨c, rfl⟩, hrest, hwork, -⟩ := step_suspend hstep
    obtain ⟨w, hpin, hrun⟩ := hactive
    refine h.switched (x := .suspended) hpin hrun ?_ (by simp) hrest hwork
      (fun b hb => ⟨hf.pc b hb, hf.work b hb⟩) fun c' => ?_
    · simp only [Runtime.effect, Runtime.switchOut, hpin]
    · have hop := op_step hf hstep c' (h.op c')
      rwa [show (r.effect (.co c) (r.core.pc (.co c)) .suspend (s.pc (.co c))).op = r.op from
        switchOut_op r _ _] at hop
  · exact h.nudged hactive hf hstep hguard hact

/-! ## The scheduler loops -/

/-- Coroutine `c₀`, which was ready, is executed by worker `w₀`. -/
lemma SchedInv.switchIn {r : Runtime} {c₀ : CrId} {w₀ : WorkerId} (h : SchedInv r)
    (hat : r.AtLoop w₀ .top) (hready : r.life c₀ = .ready)
    (hpin : r.pin c₀ = none ∨ r.pin c₀ = some w₀) (pw : CrId → Bool) :
    SchedInv { r.setLife c₀ .running with
      pin := Function.update r.pin c₀ (some w₀)
      run := Function.update r.run w₀ (some c₀)
      pendingWake := pw } := by
  obtain ⟨hnone, htop, hpc, hwork⟩ := hat
  have hpinned : ∀ c w, r.pin c = some w → Function.update r.pin c₀ (some w₀) c = some w := by
    intro c w hc
    by_cases hne : c = c₀
    · subst hne
      rw [Function.update_self]
      rcases hpin with hp | hp
      · rw [hp] at hc
        cases hc
      · exact hp.symm.trans hc
    · rw [Function.update_of_ne hne, hc]
  refine { h with
    running := fun c hc => ?_
    run := fun w c hc => ?_
    rest := fun w c hc => ?_
    place := fun c => ?_
    work := fun c hc => ?_
    fresh := fun c hc => ?_
    unborn := fun c hc => ?_
    inbox := fun w c hc => hpinned c w (h.inbox w c hc)
    post := fun w c hc => hpinned c w (h.post w c hc)
    waker := fun w f t ht hf => hpinned t w (h.waker w f t ht hf)
    inflight := fun c hc => ?_ }
  · by_cases hne : c = c₀
    · subst hne
      exact ⟨w₀, by simp, by simp⟩
    · obtain ⟨w, hp, hr⟩ := h.running c (by simpa [Runtime.setLife, hne] using hc)
      have hw : w ≠ w₀ := by
        rintro rfl
        rw [hnone] at hr
        cases hr
      exact ⟨w, hpinned c w hp, by simpa [hw] using hr⟩
  · by_cases hw : w = w₀
    · subst hw
      obtain rfl : c₀ = c := by simpa using hc
      exact ⟨by simp, by simp [Runtime.setLife]⟩
    · obtain ⟨hp, hl⟩ := h.run w c (by simpa [hw] using hc)
      have hne : c ≠ c₀ := by
        rintro rfl
        rw [hready] at hl
        cases hl
      exact ⟨hpinned c w hp, by simpa [Runtime.setLife, hne] using hl⟩
  · by_cases hw : w = w₀
    · subst hw
      exact ⟨htop, hpc, hwork⟩
    · exact h.rest w c (by simpa [hw] using hc)
  · by_cases hne : c = c₀
    · subst hne
      simp [Runtime.setLife, Life.Place]
    · simpa [Runtime.setLife, hne] using h.place c
  · by_cases hne : c = c₀
    · subst hne
      simp [Runtime.setLife] at hc
    · exact h.work c (by simpa [Runtime.setLife, hne] using hc)
  · by_cases hne : c = c₀
    · subst hne
      simp at hc
    · simpa [Runtime.setLife, hne] using h.fresh c (by simpa [hne] using hc)
  · by_cases hne : c = c₀
    · subst hne
      simp [Runtime.setLife] at hc
    · have := h.unborn c (by simpa [Runtime.setLife, hne] using hc)
      simpa [hne] using this
  · obtain ⟨w, hp, hin⟩ := h.inflight c hc
    exact ⟨w, hpinned c w hp, hin⟩

/-- The scheduler of worker `w₀` acts: it may wake coroutines, move on in its loop and call
`s_waiter_wake`. -/
lemma SchedInv.scheduler {r r' : Runtime} {w₀ : WorkerId} (h : SchedInv r)
    (hnone : r.run w₀ = none) (hpin : r'.pin = r.pin) (hrun : r'.run = r.run)
    (hlife : ∀ c, r'.life c = r.life c ∨ (r.life c = .suspended ∧ r'.life c = .ready))
    (hloop : ∀ w, w ≠ w₀ → r'.loop w = r.loop w)
    (hcore : ∀ b, b ≠ .sched w₀ → r'.core.pc b = r.core.pc b)
    (hwork : r'.core.work = r.core.work)
    (hwaker : ∀ f t, waking (r'.core.pc (.sched w₀)) = some (f, t) → f ≠ .cancel →
      r.pin t = some w₀)
    (hinbox : ∀ w c, c ∈ r'.inbox w → r.pin c = some w)
    (hdrain : ∀ c ∈ (r'.loop w₀).draining, r.pin c = some w₀)
    (hpost : ∀ c, (r'.loop w₀).back = some c → r.pin c = some w₀)
    (hinflight : ∀ c, r'.inflight c = true →
      ∃ w, r.pin c = some w ∧ (c ∈ r'.inbox w ∨ c ∈ (r'.loop w).left))
    (hop : ∀ c, r'.op c = none ↔ r.op c = none) : SchedInv r' := by
  have hrunning : ∀ c, r.life c = .running ↔ r'.life c = .running := by
    intro c
    rcases hlife c with hc | ⟨hc, hc'⟩
    · rw [hc]
    · simp [hc, hc']
  refine ⟨fun c hc => ?_, fun w c hc => ?_, fun w c hc => ?_, fun c => ?_, fun c hc => ?_,
    fun c hc => ?_, fun c hc => ?_, fun w c hc => ?_, fun w c hc => ?_, fun w f t ht hne => ?_,
    fun c hc => ?_, fun c => ?_⟩
  · obtain ⟨w, hp, hr⟩ := h.running c ((hrunning c).mpr hc)
    exact ⟨w, by rw [hpin, hp], by rw [hrun, hr]⟩
  · rw [hrun] at hc
    obtain ⟨hp, hl⟩ := h.run w c hc
    exact ⟨by rw [hpin, hp], (hrunning c).mp hl⟩
  · rw [hrun] at hc
    have hw : w ≠ w₀ := by
      rintro rfl
      rw [hnone] at hc
      cases hc
    obtain ⟨hl, hpc, hwk⟩ := h.rest w c hc
    rw [hloop w hw, hcore _ (by simpa using hw), hwork]
    exact ⟨hl, hpc, hwk⟩
  · rw [hcore _ (by simp)]
    have hplace := h.place c
    rcases hlife c with hl | ⟨hl, hl'⟩
    · rwa [hl]
    · rw [hl] at hplace
      rw [hl']
      exact Or.inl hplace
  · rw [hwork]
    exact h.work c fun hl => hc ((hrunning c).mp hl)
  · rw [hpin] at hc
    rw [hcore _ (by simp)]
    obtain ⟨hpc, hl⟩ := h.fresh c hc
    refine ⟨hpc, ?_⟩
    rcases hlife c with hl' | ⟨hl', -⟩
    · rwa [hl']
    · rw [hl'] at hl
      simp at hl
  · rw [hpin]
    rcases hlife c with hl | ⟨-, hl⟩
    · exact h.unborn c (hl ▸ hc)
    · rw [hc] at hl
      cases hl
  · rw [hpin]
    rcases hc with hc | hc
    · exact hinbox w c hc
    · by_cases hw : w = w₀
      · subst hw
        exact hdrain c hc
      · exact h.inbox w c (Or.inr (by rwa [hloop w hw] at hc))
  · rw [hpin]
    by_cases hw : w = w₀
    · subst hw
      exact hpost c hc
    · exact h.post w c (by rwa [hloop w hw] at hc)
  · rw [hpin]
    by_cases hw : w = w₀
    · subst hw
      exact hwaker f t ht hne
    · exact h.waker w f t (by rwa [hcore _ (by simpa using hw)] at ht) hne
  · rw [hpin]
    exact hinflight c hc
  · rw [hop, hcore _ (by simp)]
    exact h.op c

/-- The scheduler of worker `w₀` wakes coroutines and moves from `l` to `l'`. -/
lemma SchedInv.moveLoop {r r₁ : Runtime} {w₀ : WorkerId} {l l' : Loop} (h : SchedInv r)
    (hat : r.AtLoop w₀ l) (hn : Nudged r r₁) (hcore : r₁.core = r.core)
    (hop : ∀ c, r₁.op c = none ↔ r.op c = none) (hdrain : ∀ c ∈ l'.draining, r.pin c = some w₀)
    (hpost : ∀ c, l'.back = some c → r.pin c = some w₀) (hleft : ∀ c ∈ l.left, c ∈ l'.left) :
    SchedInv { r₁ with loop := Function.update r.loop w₀ l' } := by
  obtain ⟨hnone, hl, hpc, -⟩ := hat
  refine h.scheduler hnone hn.pin hn.run hn.life (fun w hw => by simp [hw])
    (fun b _ => by simp [hcore]) (by simp [hcore]) (fun f t ht _ => ?_) (fun w c hc => ?_)
    (by simpa using hdrain) (by simpa using hpost) (fun c hc => ?_) hop
  · simp [hcore, hpc, waking] at ht
  · rcases hn.entered w c hc with hc | hc
    · exact h.inbox w c (Or.inl hc)
    · exact hc
  · rcases hn.inflight c hc with hc | ⟨w, hp, hc⟩
    · obtain ⟨w, hp, hin⟩ := h.inflight c hc
      refine ⟨w, hp, hin.imp (hn.inbox w c) fun hd => ?_⟩
      by_cases hw : w = w₀
      · subst hw
        rw [hl] at hd
        simpa using hleft c hd
      · simpa [hw] using hd
    · exact ⟨w, hp, Or.inl hc⟩

/-- A coroutine is spawned, on its worker or through the injector. -/
lemma SchedInv.spawned {r : Runtime} {c₀ : CrId} (h : SchedInv r) (hl : r.life c₀ = .unborn)
    (pin : Option WorkerId) :
    SchedInv { r.setLife c₀ .ready with pin := Function.update r.pin c₀ pin } := by
  have hpin := h.unborn c₀ hl
  have hidle := (h.fresh c₀ hpin).1
  have hpinned : ∀ c w, r.pin c = some w → Function.update r.pin c₀ pin c = some w := by
    intro c w hc
    have hne : c ≠ c₀ := by
      rintro rfl
      rw [hpin] at hc
      cases hc
    rw [Function.update_of_ne hne, hc]
  refine { h with
    running := fun c hc => ?_
    run := fun w c hc => ?_
    place := fun c => ?_
    work := fun c hc => ?_
    fresh := fun c hc => ?_
    unborn := fun c hc => ?_
    inbox := fun w c hc => hpinned c w (h.inbox w c hc)
    post := fun w c hc => hpinned c w (h.post w c hc)
    waker := fun w f t ht hf => hpinned t w (h.waker w f t ht hf)
    inflight := fun c hc => ?_ }
  · have hne : c ≠ c₀ := by
      rintro rfl
      simp [Runtime.setLife] at hc
    obtain ⟨w, hp, hr⟩ := h.running c (by simpa [Runtime.setLife, hne] using hc)
    exact ⟨w, hpinned c w hp, hr⟩
  · obtain ⟨hp, hr⟩ := h.run w c hc
    have hne : c ≠ c₀ := by
      rintro rfl
      rw [hl] at hr
      cases hr
    exact ⟨hpinned c w hp, by simpa [Runtime.setLife, hne] using hr⟩
  · by_cases hne : c = c₀
    · subst hne
      simp [Runtime.setLife, Life.Place, hidle, atRest]
    · simpa [Runtime.setLife, hne] using h.place c
  · by_cases hne : c = c₀
    · subst hne
      exact h.work c (by simp [hl])
    · exact h.work c (by simpa [Runtime.setLife, hne] using hc)
  · by_cases hne : c = c₀
    · subst hne
      exact ⟨hidle, Or.inr (by simp [Runtime.setLife])⟩
    · simpa [Runtime.setLife, hne] using h.fresh c (by simpa [hne] using hc)
  · have hne : c ≠ c₀ := by
      rintro rfl
      simp [Runtime.setLife] at hc
    have hp := h.unborn c (by simpa [Runtime.setLife, hne] using hc)
    simpa [hne] using hp
  · obtain ⟨w, hp, hin⟩ := h.inflight c hc
    exact ⟨w, hpinned c w hp, hin⟩

/-- Wakes, while no context moves. -/
lemma SchedInv.callback {r r₁ : Runtime} (h : SchedInv r) (hn : Nudged r r₁)
    (hcore : r₁.core = r.core) (hop : ∀ c, r₁.op c = none ↔ r.op c = none) : SchedInv r₁ := by
  have hwoken := h.woken (s := r₁.core) hn (fun c _ => by simp [hcore]) (fun w c _ => by simp [hcore])
    (fun w f t ht hne => h.waker w f t (hcore ▸ ht) hne) fun c => by rw [hop, hcore, h.op]
  exact hwoken

/-- Every step of the runtime keeps the scheduling state consistent with the contexts. -/
theorem schedInv_step {r r' : Runtime} {e : Ev} (h : SchedInv r) (hinv : Inv r.core)
    (hstep : RStep r e r') : SchedInv r' := by
  cases hstep with
  | core hactive _ hcore hguard => exact h.core hinv hactive hcore hguard
  | spawn hl =>
    have hspawn := h.spawned hl none
    rwa [← h.unborn _ hl, Function.update_eq_self] at hspawn
  | spawnLocal _ hl _ => exact h.spawned hl _
  | take hat hready hpin => exact h.switchIn hat hready (Or.inl hpin) _
  | resume hat hready hpin =>
    have hin := h.switchIn hat hready (Or.inr hpin) r.pendingWake
    rwa [← hpin, Function.update_eq_self] at hin
  | yield hactive hyield hwork =>
    obtain ⟨w, hpin, hrun⟩ := hactive
    refine h.switched (x := .ready) hpin hrun ?_ (by simp) (Or.inr ?_) ?_ (fun b _ => by simp) ?_
    · simp [Runtime.switchOut, hpin, Runtime.setLife]
    · simpa using hyield
    · simpa using hwork
    · simpa using h.op
  | bare hactive hpc hwork =>
    obtain ⟨w, hpin, hrun⟩ := hactive
    refine h.switched (x := .suspended) hpin hrun ?_ (by simp) ?_ ?_ (fun b _ => by simp) ?_
    · simp [Runtime.switchOut, hpin, Runtime.setLife]
    · simp [Life.Place, hpc, atRest]
    · simpa using hwork
    · simpa using h.op
  | exit hpin hrun hpc hwork =>
    refine h.switched (x := .done) hpin hrun ?_ (by simp) ?_ ?_ (fun b _ => by simp) ?_
    · simp [Runtime.switchOut, hpin, Runtime.setLife]
    · simpa [Life.Place] using hpc
    · simpa using hwork
    · simpa using h.op
  | @postDeliver w c₀ hat _ _ =>
    have hn : Nudged r { r with pendingWake := Function.update r.pendingWake c₀ false } :=
      (Nudged.refl _).congr rfl rfl rfl rfl rfl rfl ⟨rfl, rfl, rfl⟩
    refine h.moveLoop hat hn rfl (fun _ => Iff.rfl) ?_ ?_ ?_
    · simp [Loop.draining]
    · rintro c ⟨⟩
      exact h.post w c₀ (by rw [hat.2.1]; rfl)
    · simp [Loop.left]
  | postSkip hat _ =>
    exact h.moveLoop hat (Nudged.refl r) rfl (fun _ => Iff.rfl) (by simp [Loop.draining])
      (by simp [Loop.back]) (by simp [Loop.left])
  | drained hat =>
    exact h.moveLoop hat (Nudged.refl r) rfl (fun _ => Iff.rfl) (by simp [Loop.draining])
      (by simp [Loop.back]) (by simp [Loop.left])
  | @deliverWake w c₀ l l' hat hl _ =>
    obtain ⟨-, hloop, -, -⟩ := id hat
    obtain ⟨-, hdrain, hback, hleft⟩ := Loop.delivers_spec hl
    refine h.moveLoop hat (Nudged.deliverWake r _) (by simp) (by simp) (fun c hc => ?_)
      (by simp [hback]) fun c hc => hleft ▸ hc
    exact h.inbox w c (Or.inr (by rw [hloop]; exact hdrain c hc))
  | @drain w hat =>
    obtain ⟨hnone, hloop, hpc, -⟩ := hat
    refine h.scheduler hnone rfl rfl (fun _ => Or.inl rfl) (fun w' hw => by simp [hw])
      (fun _ _ => rfl) rfl ?_ (fun w' c hc => ?_) (fun c hc => ?_) (by simp [Loop.back]) (fun c hc => ?_)
      fun _ => Iff.rfl
    · simp [hpc, waking]
    · by_cases hw : w' = w
      · subst hw
        simp at hc
      · exact h.inbox w' c (Or.inl (by simpa [hw] using hc))
    · exact h.inbox w c (Or.inl (by simpa [Loop.draining] using hc))
    · obtain ⟨w', hp, hin⟩ := h.inflight c hc
      refine ⟨w', hp, ?_⟩
      by_cases hw : w' = w
      · subst hw
        rw [hloop] at hin
        exact Or.inr (by simpa [Loop.left] using hin)
      · simpa [hw] using hin
  | @pop w c₀ rest hat =>
    obtain ⟨hnone, hloop, hpc, -⟩ := hat
    refine h.scheduler hnone rfl rfl (fun _ => Or.inl rfl) (fun w' hw => by simp [hw])
      (fun _ _ => rfl) rfl ?_ (fun w' c hc => h.inbox w' c (Or.inl hc)) (fun c hc => ?_) (by simp [Loop.back])
      (fun c hc => ?_) fun _ => Iff.rfl
    · simp [hpc, waking]
    · exact h.inbox w c (Or.inr (by simpa [hloop, Loop.draining] using hc))
    · have hne : c ≠ c₀ := by
        rintro rfl
        simp at hc
      obtain ⟨w', hp, hin⟩ := h.inflight c (by simpa [hne] using hc)
      refine ⟨w', hp, hin.imp id fun hl => ?_⟩
      by_cases hw : w' = w
      · subst hw
        rw [hloop] at hl
        simpa [Loop.left, hne] using hl
      · simpa [hw] using hl
  | @deliverCancel w c₀ l l' hat hl _ =>
    obtain ⟨hnone, hloop, hpc, -⟩ := hat
    obtain ⟨hmem, hdrain, hback, hleft⟩ := Loop.delivers_spec hl
    refine h.scheduler hnone rfl rfl (fun _ => Or.inl rfl) (fun w' hw => by simp [hw])
      (fun b hb => by simp [hb]) rfl (fun f t ht _ => ?_) (fun w' c hc => h.inbox w' c (Or.inl hc))
      (fun c hc => ?_) (by simp [hback]) (fun c hc => ?_) fun _ => Iff.rfl
    · obtain ⟨-, rfl⟩ : .deliver = f ∧ c₀ = t := by simpa [waking] using ht
      exact hmem.elim (fun hm => h.inbox w c₀ (Or.inr (by rwa [hloop])))
        fun hb => h.post w c₀ (by rwa [hloop])
    · refine h.inbox w c (Or.inr ?_)
      rw [hloop]
      exact hdrain c (by simpa using hc)
    · obtain ⟨w', hp, hin⟩ := h.inflight c hc
      refine ⟨w', hp, hin.imp id fun hl => ?_⟩
      by_cases hw : w' = w
      · subst hw
        rw [hloop] at hl
        simpa [hleft] using hl
      · simpa [hw] using hl
  | stray => exact h.callback (Nudged.wakeNoPreempt r _ _) (by simp) (by simp)
  | poll _ _ _ hl => exact h.callback (Nudged.setReady hl) rfl fun _ => Iff.rfl
  | ioTimeout _ _ _ hl =>
    refine h.callback (Nudged.trans (Nudged.setReady hl) ?_) rfl fun _ => Iff.rfl
    exact (Nudged.refl _).congr rfl rfl rfl rfl rfl rfl ⟨rfl, rfl, rfl⟩
  | @cqe w c₀ o res _ _ hop _ =>
    have hn : Nudged r { r.setLife c₀ (if r.life c₀ = .suspended then .ready else r.life c₀) with
        op := Function.update r.op c₀ (some { o with result := some res }) } := by
      by_cases hl : r.life c₀ = .suspended
      · refine Nudged.trans (Nudged.setReady hl) ?_
        simp only [hl, if_true]
        exact (Nudged.refl _).congr rfl rfl rfl rfl rfl rfl ⟨rfl, rfl, rfl⟩
      · simp only [hl, if_false]
        refine (Nudged.refl _).congr rfl rfl rfl ?_ rfl rfl ⟨rfl, rfl, rfl⟩
        simp [Runtime.setLife]
    refine h.callback hn rfl fun c => ?_
    by_cases hne : c = c₀
    · subst hne
      simp [hop]
    · simp [hne]
  | deadlineOp => exact h.callback (Nudged.iouCancel r _) rfl (by simp)
  | reap | free => exact { h with }

/-- The scheduling state of a reachable runtime is consistent with its contexts. -/
theorem schedInv_reachable {cfg : Config} {r : Runtime} (h : Reachable RStep (.init cfg) r) :
    SchedInv r :=
  h.invariant_of (fun _ => core_inv) (schedInv_init cfg) fun _ _ _ hinv _ hs hstep =>
    schedInv_step hs hinv hstep

end Suspenders.Sched
