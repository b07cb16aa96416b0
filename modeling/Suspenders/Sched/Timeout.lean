import Suspenders.Sched.Timer
import Suspenders.Sched.Wakeup
import Suspenders.Wait.Decide

/-!
# Timeouts

A call returns `SUSPENDERS_TIMEDOUT` only when its own deadline or the one its coroutine has set has passed.

The argument is about the heaps.  A timer of a call is in a heap only while that call is between the place
where it arms the timer and the place where it disarms it, on the worker the coroutine is pinned to; so the
callback of such a timer finds the wait it was armed for.  While a scheduler is in a callback the coroutines
of its worker do not run, and that stays so until the wait is decided.
-/

namespace Suspenders.Sched

open Lib Wait

/-! ## Where a call is -/

/-- Between the places where a call arms and disarms its timer, or could. -/
def inWait : Pc → Bool
  | .blk k _ | .susp k _ | .sync k _ => !k.isRelock
  | .selReg _ _ | .selTest _ | .selSusp _ | .selUnreg _ _ _ _ | .selRescan _ _ | .selSync _ _ _ => true
  | _ => false

/-- In an I/O call, past its beginning. -/
def doesIo : Pc → Bool
  | .pre (.io _) | .pre .iou | .ioTry _ | .ioSusp _ | .ioWoke _ => true
  | .iouSubmit | .iouTest | .iouSusp | .iouDone => true
  | _ => false

/-- A call that is going to return `SUSPENDERS_TIMEDOUT`, where `st` is the status of its coroutine's node. -/
def timesOut (st : Status) : Pc → Prop
  | .ret code | .selRet none code => code = .timedout
  -- what `s_mutex_lock_raw` ends with is not returned
  | .pre (.op _ (.relock _ code)) | .cs _ (.relock _ code) => code = .timedout
  | .blk (.relock _ code) _ | .susp (.relock _ code) _ | .sync (.relock _ code) _ => code = .timedout
  | .cs _ (.condUnlock _ _) | .blk _ _ | .susp _ _ | .sync _ _ => st = .decided .timedout
  | .selReg _ _ | .selTest _ | .selSusp _ | .selUnreg _ _ _ _ | .selRescan _ _ => st = .decided .timedout
  | .selSync _ _ _ | .selSync2 _ _ _ | .selFin _ _ _ => st = .decided .timedout
  | _ => False

/-- A wait goes on until the place where its timer is disarmed. -/
lemma inWait_step {s t : Core} {c : CrId} {act : Act} (hstep : Step s ⟨.co c, act⟩ t)
    (h : inWait (s.pc (.co c)) = true) :
    inWait (t.pc (.co c)) = true ∨ (∃ k st, act = .decided k st ∧ k.isRelock = false) ∨
      (act = .tau ∧ ∃ ops win scan, s.pc (.co c) = .selSync ops win scan) := by
  cases hstep with
  | «local» _ hl =>
    generalize s.pc (.co c) = pc at hl h
    cases hl <;> cases h
  | decided hpc _ _ _ =>
    rw [hpc] at h
    exact Or.inr (Or.inl ⟨_, _, rfl, by simpa [inWait] using h⟩)
  | wake | unlock | fin => exact Or.inl h
  | testWaiting hpc _ _ | testDecided hpc _ _ | suspend hpc _ =>
    rw [hpc] at h
    exact Or.inl (by simpa [inWait] using h)
  | selSync hpc _ _ => exact Or.inr (Or.inr ⟨rfl, _, _, _, hpc⟩)
  | selRetry hpc _ _ _ =>
    simp only [Core.setWork_pc, Core.setPc_pc_self]
    split <;> exact Or.inl rfl
  | selReady | selPark | selRegEnd | selWaiting | selDecided | selSuspend | selUnreg | selAgain
  | selRescanEnd | selLeave => exact Or.inl (by simp [inWait])
  | crit hpc _ _ | sleepPark hpc _ | flip hpc _ _ _ | selTry hpc _ _ _ | selInit hpc _ | selSync2 hpc _ _
  | selWon hpc _ | selScanned hpc _ | selFailed hpc _ _ =>
    rw [hpc] at h
    cases h

/-- What a call goes on to return is what it has waited for, or what it knew before. -/
lemma timesOut_after {k : Frame} {code : Code} {st : Status} (h : timesOut st (k.after code)) :
    (code = .timedout ∧ k.isRelock = false) ∨ (∃ m, k = .relock m .timedout) ∨
      (k.IsCondUnlock ∧ st = .decided .timedout) := by
  cases k with
  | relock m code₀ =>
    refine Or.inr (Or.inl ⟨m, ?_⟩)
    simp only [Frame.after] at h
    split at h
    · exact congrArg _ h
    · exact congrArg _ h
  | condUnlock m v => exact Or.inr (Or.inr ⟨trivial, h⟩)
  | queueInit => cases h
  | queueSubmit | queueWait =>
    simp only [Frame.after] at h
    split at h <;> first | exact Or.inl ⟨h, rfl⟩ | cases h
  | _ => exact Or.inl ⟨h, rfl⟩

/-- Only one status counts. -/
lemma timesOut_of_ne {st st' : Status} {pc : Pc} (hst : st ≠ .decided .timedout) (h : timesOut st pc) :
    timesOut st' pc := by
  unfold timesOut at h ⊢
  split at h <;> first | exact h | exact absurd h hst

/-- Calls do not begin with a timeout. -/
lemma not_timesOut_entry (api : Api) (c : CrId) (n : ℕ) (st : Status) :
    ¬ timesOut st (api.entry (.co c) n) := by
  cases api with
  | op o => cases o <;> first | exact id | (rename_i b; cases b <;> exact id)
  | select ops =>
    simp only [Api.entry]
    split
    · simp [timesOut]
    · exact id
  | _ => exact id

/-- How a call comes to return `SUSPENDERS_TIMEDOUT` by a step of its own. -/
lemma timesOut_step {s t : Core} {c : CrId} {act : Act} (hinv : Inv s) (hstep : Step s ⟨.co c, act⟩ t)
    (h : timesOut (t.heap.waits.node (.wq c)).status (t.pc (.co c))) :
    timesOut (s.heap.waits.node (.wq c)).status (s.pc (.co c)) ∨ act = .preExpired ∨
      (act = .io ∧ doesIo (s.pc (.co c)) = true) := by
  have hself := step_self_decides hinv hstep
  have hok := hinv.ok (.co c)
  cases hstep with
  | «local» _ hl =>
    rw [Core.setPc_pc_self] at h
    generalize s.pc (.co c) = pc at hl hok
    cases hl with
    | call api n _ => exact absurd h (not_timesOut_entry api c n _)
    | @preCanceled _ e =>
      left
      cases e with
      | op o k =>
        rcases timesOut_after h with ⟨hcode, -⟩ | ⟨m, rfl⟩ | ⟨hk, -⟩
        · cases hcode
        · rfl
        · cases o <;> cases k <;> simp [Pc.Ok, Frame.IsCondUnlock] at hok hk
      | _ => cases h
    | preExpired => exact Or.inr (Or.inl rfl)
    | @preGo _ e n =>
      left
      cases e with
      | op o k =>
        cases k with
        | relock => cases o <;> exact h
        | condPark =>
          cases o with
          | condPark =>
            simp only [Entry.go] at h
            split at h <;> cases h
          | _ => cases h
        | condUnlock => cases o <;> simp [Pc.Ok, Frame.IsCondUnlock] at hok
        | _ => cases o <;> cases h
      | _ => cases h
    | ioDone | ioExpired | iouRet => exact Or.inr (Or.inr ⟨rfl, rfl⟩)
    | ioReady => exact Or.inr (Or.inr ⟨rfl, rfl⟩)
    | wakeGiveUp => split at h <;> cases h
    | _ => cases h
  | @crit _ op k hpc _ _ =>
    left
    rw [hpc]
    have hkeep := (exec_effect hinv.wf (.co c) op).granted.wq_of_not_mem hself
    cases hres : (exec s.heap (.co c) op).2.res with
    | ret code =>
      simp only [critical, hres, Frame.next, Core.setHeld_pc, Core.setWork_pc, Core.setPc_pc_self,
        Core.setHeld_heap, Core.setWork_heap, Core.setPc_heap, Heap.parkAs, hkeep] at h
      rcases timesOut_after h with ⟨rfl, -⟩ | ⟨m, rfl⟩ | ⟨hk, hst⟩
      · exact absurd hres (exec_ret_ne _ _ _).1
      · rfl
      · cases k <;> first | exact hst | cases hk
    | park l data writer =>
      have hst : ((critical s.heap (.co c) op).1.waits.node (.wq c)).status = .waiting := by
        simp [critical, hres, Heap.parkAs, Waits.park]
      simp only [critical, hres, Frame.next, Core.setHeld_pc, Core.setWork_pc, Core.setPc_pc_self,
        Core.setHeld_heap, Core.setWork_heap, Core.setPc_heap] at h hst
      rw [hst] at h
      cases k <;> first | exact h | cases h
  | @decided _ k l st hpc _ _ hst =>
    left
    rw [hpc] at hok ⊢
    rw [Core.setPc_pc_self] at h
    rcases timesOut_after h with ⟨rfl, hk⟩ | ⟨m, rfl⟩ | ⟨hk, -⟩
    · cases k <;> first | exact hst | cases hk
    · rfl
    · exact absurd hk hok
  | wake | unlock => exact Or.inl h
  | @fin _ n _ _ =>
    left
    simpa using h
  | @testWaiting _ k _ hpc _ _ | @testDecided _ k _ hpc _ _ | @suspend _ k _ hpc _ =>
    left
    rw [Core.setPc_pc_self] at h
    rw [hpc]
    cases k <;> exact h
  | flip =>
    simp only [Core.setWork_pc, Core.setPc_pc_self] at h
    split at h <;> cases h
  | selTry =>
    simp only [Core.setWork_pc, Core.setPc_pc_self] at h
    split at h <;> cases h
  | sleepPark | selInit => simp [Waits.parkNone, timesOut] at h
  | selRetry hpc _ _ _ =>
    left
    rw [hpc]
    have hkeep := (exec_effect hinv.wf (.co c) _).granted.wq_of_not_mem hself
    simp only [Core.setWork_pc, Core.setPc_pc_self, Core.setWork_heap, Core.setPc_heap, hkeep] at h
    split at h <;> exact h
  | selWon | selScanned => simp [timesOut] at h
  | @selFailed _ _ st hpc _ hst =>
    left
    rw [Core.setPc_pc_self] at h
    obtain rfl : st = .timedout := h
    rw [hpc]
    exact hst.resolve_right (by simp)
  | selPark hpc _ _ _ _ =>
    left
    rw [hpc]
    simpa [timesOut, Waits.park] using h
  | @selUnreg _ _ _ j _ _ hpc _ _ _ _ =>
    left
    have hkeep : (s.heap.waits.unregister (.sel c j)).node (.wq c) = s.heap.waits.node (.wq c) := by
      simp only [Waits.unregister, Waits.discard, Waits.unlink]
      split <;> simp
    rw [hpc]
    simpa [timesOut, hkeep] using h
  | selReady hpc _ _ _ _ | selRegEnd hpc _ | selWaiting hpc _ _ _ | selDecided hpc _ _ | selSuspend hpc _
  | selLeave hpc _ _ | selAgain _ hpc _ _ _ | selRescanEnd hpc _ | selSync hpc _ _ | selSync2 hpc _ _ =>
    left
    rw [hpc]
    rw [Core.setPc_pc_self] at h
    exact h

/-- Somebody else only does it by deciding the wait. -/
lemma timesOut_other {s t : Core} {e : Event} {c : CrId} (hf : Footprint s e t) (hne : e.ctx ≠ .co c)
    (h : timesOut (t.heap.waits.node (.wq c)).status (t.pc (.co c))) :
    timesOut (s.heap.waits.node (.wq c)).status (s.pc (.co c)) ∨ e.act = .flip c .timedout := by
  rw [hf.pc _ (Ne.symm hne)] at h
  by_cases hmem : .wq c ∈ e.act.decides
  · obtain ⟨-, hst, -⟩ := hf.waits.decided _ hmem
    by_cases hcode : e.act.code = .timedout
    · right
      obtain ⟨a, act⟩ := e
      cases act with
      | crit op k out => cases op <;> cases hcode
      | flip t st =>
        obtain rfl : c = t := by simpa [Act.decides] using hmem
        exact congrArg _ hcode
      | _ => cases hcode
    · left
      refine timesOut_of_ne ?_ h
      rw [hst]
      exact fun heq => hcode (by injection heq)
  · rw [(hf.waits.kept _ hmem hne).1] at h
    exact Or.inl h

lemma doesIo_after (k : Frame) (st : Code) : doesIo (k.after st) = false := by
  cases k <;> simp only [Frame.after] <;> (try split) <;> rfl

lemma doesIo_entry {api : Api} {c : CrId} {n : ℕ} (h : doesIo (api.entry (.co c) n) = true) :
    Api.isIo api = true := by
  cases api with
  | op o => cases o <;> first | cases h | (rename_i b; cases b <;> cases h)
  | select ops =>
    simp only [Api.entry] at h
    split at h <;> cases h
  | io | iou => rfl
  | _ => cases h

/-- An I/O call is one from its beginning. -/
lemma doesIo_step {s t : Core} {c : CrId} {act : Act} (hstep : Step s ⟨.co c, act⟩ t)
    (h : doesIo (t.pc (.co c)) = true) :
    doesIo (s.pc (.co c)) = true ∨ ∃ api, act = .call api ∧ Api.isIo api = true := by
  cases hstep with
  | «local» _ hl =>
    rw [Core.setPc_pc_self] at h
    generalize s.pc (.co c) = pc at hl
    cases hl with
    | call api n _ => exact Or.inr ⟨api, rfl, doesIo_entry h⟩
    | @preCanceled _ e | @preExpired _ e =>
      cases e with
      | op o k => simp [Entry.fail, doesIo_after] at h
      | _ => cases h
    | @preGo _ e n =>
      cases e with
      | op o k =>
        cases o with
        | condPark v =>
          cases k with
          | condPark =>
            simp only [Entry.go] at h
            split at h <;> cases h
          | _ => cases h
        | _ => cases h
      | io | iou => exact Or.inl rfl
      | _ => cases h
    | wakeGiveUp => split at h <;> cases h
    | _ => first | exact Or.inl rfl | cases h
  | @crit _ op k hpc _ _ =>
    simp only [Core.setHeld_pc, Core.setWork_pc, Core.setPc_pc_self] at h
    cases hres : (critical s.heap (.co c) op).2.res with
    | ret code =>
      rw [hres] at h
      simp [Frame.next, doesIo_after] at h
    | park l data writer =>
      rw [hres] at h
      cases k <;> cases h
  | decided => simp [doesIo_after] at h
  | wake | unlock | fin => exact Or.inl h
  | selTry | selRetry | flip =>
    simp only [Core.setWork_pc, Core.setPc_pc_self] at h
    split at h <;> cases h
  | _ => simp [doesIo] at h

/-! ## The invariant -/

/-- The coroutine a timer belongs to. -/
def TimerId.owner : TimerId → Option CrId
  | call c _ | deadline c => some c
  | user _ => none

/-- What the scheduler of worker `w` knows in a callback for coroutine `c`. -/
def CallbackOk (r : Runtime) (m : Timers) (w : WorkerId) (c : CrId) : WakeFor → Prop
  -- `s_wait_deadline_cb`
  | .timer => m.fired w = some (.call c (m.calls c)) ∧ inWait (r.core.pc (.co c)) = true ∧
    m.arg c ≠ 0 ∧ m.arg c ≤ m.now
  -- `s_deadline_cb`
  | .deadline => m.fired w = some (.deadline c) ∧ m.Expired c
  | _ => True

/-- The timers of coroutine `c` against where it is. -/
structure CallOk (r : Runtime) (m : Timers) (c : CrId) : Prop where
  /-- A timer of a call is in the heap of the coroutine's worker, and the call is at its wait. -/
  call : ∀ w k, .call c k ∈ m.heap w → r.pin c = some w ∧ k = m.calls c ∧ m.begun c = true ∧
    m.armed c = true ∧ inWait (r.core.pc (.co c)) = true ∧ m.due (.call c k) = m.arg c ∧ m.arg c ≠ 0 ∧
    ((m.timer (.call c k)).cb = .wait c ∨ (m.timer (.call c k)).cb = .sleep c)
  /-- The other timer is there only while it is armed. -/
  deadline : ∀ w, .deadline c ∈ m.heap w →
    r.pin c = some w ∧ m.deadlineArmed c = true ∧ (m.timer (.deadline c)).cb = .deadline c
  /-- The schedulers in callbacks. -/
  callback : ∀ w f, waking (r.core.pc (.sched w)) = some (f, c) → CallbackOk r m w c f
  io : doesIo (r.core.pc (.co c)) = true → m.inIo c = true
  due : timesOut (r.core.heap.waits.node (.wq c)).status (r.core.pc (.co c)) → m.inIo c = false → m.Due c

/-- The invariant of the runtime with its timers. -/
structure TimerInv (r : Runtime) (m : Timers) : Prop where
  heap : HeapOk m
  co : ∀ c, CallOk r m c
  /-- Only schedulers are in callbacks. -/
  waker : ∀ a f c, waking (r.core.pc a) = some (f, c) → f ≠ .cancel → ∃ w, a = .sched w

/-- What coroutine `c` has to do with the timers stays the same, or some of them leave the heaps. -/
structure Kept (c : CrId) (m m' : Timers) : Prop where
  now : m.now ≤ m'.now
  heap : ∀ w t, t.owner = some c → t ∈ m'.heap w → t ∈ m.heap w ∧ m'.timer t = m.timer t
  due : m'.due (.deadline c) = m.due (.deadline c)
  calls : m'.calls c = m.calls c
  arg : m'.arg c = m.arg c
  inIo : m'.inIo c = m.inIo c
  begun : m'.begun c = m.begun c
  armed : m'.armed c = m.armed c
  deadlineArmed : m'.deadlineArmed c = m.deadlineArmed c

lemma Kept.refl (c : CrId) (m : Timers) : Kept c m m :=
  ⟨le_refl _, fun _ _ _ ht => ⟨ht, rfl⟩, rfl, rfl, rfl, rfl, rfl, rfl, rfl⟩

lemma Kept.expired {c : CrId} {m m' : Timers} (h : Kept c m m') (he : m.Expired c) : m'.Expired c := by
  refine ⟨by rw [h.deadlineArmed]; exact he.1, ?_⟩
  rw [h.due]
  exact he.2.trans h.now

lemma Kept.isDue {c : CrId} {m m' : Timers} (h : Kept c m m') (hd : m.Due c) : m'.Due c := by
  rcases hd with ⟨hne, hle⟩ | he
  · refine Or.inl ⟨by rw [h.arg]; exact hne, ?_⟩
    rw [h.arg]
    exact hle.trans h.now
  · exact Or.inr (h.expired he)

/-- A step that starts nothing new for coroutine `c`. -/
lemma CallOk.keep {r r' : Runtime} {m m' : Timers} {c : CrId} (h : CallOk r m c) (hm : Kept c m m')
    (hpin : ∀ w, r.pin c = some w → r'.pin c = some w)
    (hwait : inWait (r.core.pc (.co c)) = true → inWait (r'.core.pc (.co c)) = true ∨
      (∀ w k, .call c k ∉ m'.heap w) ∧ ∀ w f, waking (r'.core.pc (.sched w)) = some (f, c) → f = .cancel)
    (hwake : ∀ w f, waking (r'.core.pc (.sched w)) = some (f, c) → CallbackOk r' m' w c f ∨
      (waking (r.core.pc (.sched w)) = some (f, c) ∧ m'.fired w = m.fired w))
    (hio : doesIo (r'.core.pc (.co c)) = true → doesIo (r.core.pc (.co c)) = true)
    (hdue : timesOut (r'.core.heap.waits.node (.wq c)).status (r'.core.pc (.co c)) → m.inIo c = false →
      timesOut (r.core.heap.waits.node (.wq c)).status (r.core.pc (.co c)) ∨ m.Due c) : CallOk r' m' c where
  call w k ht := by
    obtain ⟨hold, htimer⟩ := hm.heap w _ rfl ht
    obtain ⟨hp, hk, hb, ha, hw, hd, hne, hcb⟩ := h.call w k hold
    have hw' : inWait (r'.core.pc (.co c)) = true := (hwait hw).resolve_right fun hno => hno.1 w k ht
    refine ⟨hpin w hp, by rw [hm.calls]; exact hk, by rw [hm.begun]; exact hb, by rw [hm.armed]; exact ha,
      hw', ?_, by rw [hm.arg]; exact hne, by rw [htimer]; exact hcb⟩
    rw [hm.arg, Timers.due, htimer]
    exact hd
  deadline w ht := by
    obtain ⟨hold, htimer⟩ := hm.heap w _ rfl ht
    obtain ⟨hp, ha, hcb⟩ := h.deadline w hold
    exact ⟨hpin w hp, by rw [hm.deadlineArmed]; exact ha, by rw [htimer]; exact hcb⟩
  callback w f hw := by
    rcases hwake w f hw with hnew | ⟨hold, hf⟩
    · exact hnew
    · have hok := h.callback w f hold
      cases f with
      | timer =>
        obtain ⟨hfired, hin, hne, hle⟩ := hok
        refine ⟨by rw [hf, hm.calls]; exact hfired, ?_, by rw [hm.arg]; exact hne, ?_⟩
        · refine (hwait hin).resolve_right fun hno => ?_
          cases hno.2 w _ hw
        · rw [hm.arg]
          exact hle.trans hm.now
      | deadline => exact ⟨by rw [hf]; exact hok.1, hm.expired hok.2⟩
      | _ => trivial
  io hpc := by
    rw [hm.inIo]
    exact h.io (hio hpc)
  due hto hnio := by
    rw [hm.inIo] at hnio
    rcases hdue hto hnio with hold | hd
    · exact hm.isDue (h.due hold hnio)
    · exact hm.isDue hd

/-! ## What the operations of a coroutine do to the timers -/

section Ops

variable {m : Timers} {w : WorkerId} {c d : CrId} {t : TimerId} {cb : Callback} {ok : Bool} {due : ℕ}

lemma Kept.trans {m₁ m₂ : Timers} (h : Kept c m m₁) (h' : Kept c m₁ m₂) : Kept c m m₂ where
  now := h.now.trans h'.now
  heap v x hx hmem := by
    obtain ⟨hmem₁, heq₁⟩ := h'.heap v x hx hmem
    obtain ⟨hmem₂, heq₂⟩ := h.heap v x hx hmem₁
    exact ⟨hmem₂, heq₁.trans heq₂⟩
  due := h'.due.trans h.due
  calls := h'.calls.trans h.calls
  arg := h'.arg.trans h.arg
  inIo := h'.inIo.trans h.inIo
  begun := h'.begun.trans h.begun
  armed := h'.armed.trans h.armed
  deadlineArmed := h'.deadlineArmed.trans h.deadlineArmed

/-- Arming a timer of somebody else. -/
lemma kept_timerArm (ht : t.owner ≠ some d) : Kept d m (m.timerArm w t due cb ok) := by
  have hne : ∀ x : TimerId, x.owner = some d → x ≠ t := by
    rintro x hx rfl
    exact ht hx
  refine ⟨le_refl _, ?_, ?_, rfl, rfl, rfl, rfl, rfl, rfl⟩
  · intro v x hx hmem
    rcases mem_timerArm.mp hmem with hold | ⟨-, -, rfl⟩
    · exact ⟨hold, timerArm_of_ne (hne x hx)⟩
    · exact absurd rfl (hne x hx)
  · rw [Timers.due, timerArm_of_ne (hne _ rfl)]
    rfl

/-- Disarming a timer. -/
lemma kept_timerDisarm (h : HeapOk m) (hw : ∀ v, t ∈ m.heap v → v = w) : Kept d m (m.timerDisarm w t) := by
  refine ⟨le_refl _, ?_, ?_, rfl, rfl, rfl, rfl, rfl, rfl⟩
  · intro v x _ hmem
    obtain ⟨hold, hne⟩ := (mem_timerDisarm h hw).mp hmem
    exact ⟨hold, timerDisarm_of_ne hne⟩
  · by_cases ht : .deadline d = t
    · subst ht
      simp [Timers.due, Timers.timerDisarm]
    · rw [Timers.due, timerDisarm_of_ne ht]
      rfl

/-- Fields of another coroutine. -/
lemma kept_fields {m' : Timers} (hd : d ≠ c) (hnow : m'.now = m.now) (hheap : m'.heap = m.heap)
    (htimer : m'.timer = m.timer) (hcalls : ∀ x, x ≠ c → m'.calls x = m.calls x)
    (harg : ∀ x, x ≠ c → m'.arg x = m.arg x) (hio : ∀ x, x ≠ c → m'.inIo x = m.inIo x)
    (hbegun : ∀ x, x ≠ c → m'.begun x = m.begun x) (harmed : ∀ x, x ≠ c → m'.armed x = m.armed x)
    (hdl : ∀ x, x ≠ c → m'.deadlineArmed x = m.deadlineArmed x) : Kept d m m' where
  now := hnow.ge
  heap v x _ hmem := ⟨hheap ▸ hmem, by rw [htimer]⟩
  due := by rw [Timers.due, htimer, Timers.due]
  calls := hcalls d hd
  arg := harg d hd
  inIo := hio d hd
  begun := hbegun d hd
  armed := harmed d hd
  deadlineArmed := hdl d hd

lemma kept_newCall {api : Api} {deadline : ℕ} (hd : d ≠ c) : Kept d m (m.newCall c api deadline) := by
  refine kept_fields hd rfl rfl rfl ?_ ?_ ?_ ?_ ?_ fun _ _ => rfl
  all_goals exact fun x hx => Function.update_of_ne hx _ _

lemma kept_beginWait (hd : d ≠ c) : Kept d m (m.beginWait w c cb ok) := by
  unfold Timers.beginWait
  have hbegun : Kept d m { m with begun := Function.update m.begun c true } :=
    kept_fields hd rfl rfl rfl (fun _ _ => rfl) (fun _ _ => rfl) (fun _ _ => rfl)
      (fun x hx => Function.update_of_ne hx _ _) (fun _ _ => rfl) fun _ _ => rfl
  split
  · exact hbegun
  · have howner : (TimerId.call c (m.calls c)).owner ≠ some d := by simpa [TimerId.owner] using Ne.symm hd
    have harm : Kept d m ({ m with begun := Function.update m.begun c true }.timerArm w
        (.call c (m.calls c)) (m.arg c) cb ok) := hbegun.trans (kept_timerArm howner)
    exact harm.trans <| kept_fields hd rfl rfl rfl (fun _ _ => rfl) (fun _ _ => rfl) (fun _ _ => rfl) (fun _ _ => rfl)
        (fun x hx => Function.update_of_ne hx _ _) fun _ _ => rfl

/-- What is left alone when a call arms its timer. -/
lemma beginWait_rest (m : Timers) (w : WorkerId) (c : CrId) (cb : Callback) (ok : Bool) :
    (m.beginWait w c cb ok).now = m.now ∧ (m.beginWait w c cb ok).arg = m.arg ∧
    (m.beginWait w c cb ok).inIo = m.inIo ∧ (m.beginWait w c cb ok).deadlineArmed = m.deadlineArmed ∧
    (m.beginWait w c cb ok).timer (.deadline c) = m.timer (.deadline c) ∧
    ∀ v, .deadline c ∈ (m.beginWait w c cb ok).heap v → .deadline c ∈ m.heap v := by
  unfold Timers.beginWait
  split
  · exact ⟨rfl, rfl, rfl, rfl, rfl, fun _ => id⟩
  · have hne : TimerId.deadline c ≠ .call c (m.calls c) := by simp
    refine ⟨rfl, rfl, rfl, rfl, by simp [Timers.timerArm, hne], ?_⟩
    intro v ht
    rcases mem_timerArm.mp ht with hold | ⟨-, -, heq⟩
    · exact hold
    · cases heq

lemma beginWait_due (h : m.Due c) : (m.beginWait w c cb ok).Due c := by
  obtain ⟨hnow, harg, -, hdl, htimer, -⟩ := beginWait_rest m w c cb ok
  simp only [Timers.Due, Timers.Expired, Timers.due, hnow, harg, hdl, htimer]
  exact h

/-- The timer a call arms. -/
lemma mem_beginWait {k : ℕ} {v : WorkerId} (ht : .call c k ∈ (m.beginWait w c cb ok).heap v)
    (hnone : .call c k ∉ m.heap v) : v = w ∧ k = m.calls c ∧ (m.beginWait w c cb ok).calls = m.calls ∧
      (m.beginWait w c cb ok).begun c = true ∧ (m.beginWait w c cb ok).armed c = true ∧
      (m.beginWait w c cb ok).timer (.call c k) = ⟨m.arg c, true, cb⟩ ∧ m.arg c ≠ 0 := by
  unfold Timers.beginWait at ht ⊢
  split at ht
  · exact absurd ht hnone
  · rename_i harg
    rw [if_neg harg]
    rcases mem_timerArm.mp ht with hold | ⟨rfl, rfl, heq⟩
    · exact absurd hold hnone
    · obtain ⟨-, rfl⟩ : c = c ∧ k = m.calls c := by simpa using heq
      exact ⟨rfl, rfl, rfl, Function.update_self _ _ _, Function.update_self _ _ _, Function.update_self _ _ _, harg⟩

lemma kept_endWait (h : HeapOk m) (hw : ∀ v, .call c (m.calls c) ∈ m.heap v → v = w) :
    Kept d m (m.endWait w c) := by
  unfold Timers.endWait
  split
  · exact kept_timerDisarm h hw
  · exact Kept.refl d m

lemma kept_clearDeadline (h : HeapOk m) (hw : ∀ v, .deadline c ∈ m.heap v → v = w) (hd : d ≠ c) :
    Kept d m (m.clearDeadline w c) := by
  unfold Timers.clearDeadline
  split
  · refine (kept_timerDisarm h hw).trans ?_
    exact kept_fields hd rfl rfl rfl (fun _ _ => rfl) (fun _ _ => rfl) (fun _ _ => rfl) (fun _ _ => rfl)
      (fun _ _ => rfl) fun x hx => Function.update_of_ne hx _ _
  · exact Kept.refl d m

lemma kept_setDeadline (h : HeapOk m) (hw : ∀ v, .deadline c ∈ m.heap v → v = w) (hd : d ≠ c) {deadline : ℕ} :
    Kept d m (m.setDeadline w c deadline ok) := by
  unfold Timers.setDeadline
  have hclear := kept_clearDeadline h hw hd
  split
  · exact hclear
  · have howner : (TimerId.deadline c).owner ≠ some d := by simpa [TimerId.owner] using Ne.symm hd
    have harm : Kept d m ((m.clearDeadline w c).timerArm w (.deadline c) deadline (.deadline c) ok) :=
      hclear.trans (kept_timerArm howner)
    exact harm.trans <| kept_fields hd rfl rfl rfl (fun _ _ => rfl) (fun _ _ => rfl) (fun _ _ => rfl) (fun _ _ => rfl)
        (fun _ _ => rfl) fun x hx => Function.update_of_ne hx _ _

end Ops

/-- What an action of a coroutine can do to the timers. -/
lemma act_cases (m : Timers) (w : WorkerId) (c : CrId) (act : Act) (pc : Pc) (deadline : ℕ) (ok : Bool) :
    (∃ api, act = .call api ∧ m.act w c act pc deadline ok = m.newCall c api deadline) ∨
    (∃ cb, (cb = .wait c ∨ cb = .sleep c) ∧ m.act w c act pc deadline ok = m.beginWait w c cb ok ∧
      ((∃ k l, act = .test ∧ pc = .blk k l ∧ k.isRelock = false ∧ m.begun c = false) ∨
        act = .sleepPark ∨ act = .selInit)) ∨
    (m.act w c act pc deadline ok = m.endWait w c ∧
      ((∃ k st, act = .decided k st ∧ k.isRelock = false) ∨
        (act = .tau ∧ ∃ ops win scan, pc = .selSync ops win scan))) ∨
    (m.act w c act pc deadline ok = m ∧ (∀ api, act ≠ .call api) ∧
      (∀ k st, act = .decided k st → k.isRelock = true) ∧
      (act = .tau → ∀ ops win scan, pc ≠ .selSync ops win scan)) := by
  cases act with
  | call api => exact Or.inl ⟨api, rfl, rfl⟩
  | sleepPark => exact Or.inr (Or.inl ⟨.sleep c, Or.inr rfl, rfl, Or.inr (Or.inl rfl)⟩)
  | selInit => exact Or.inr (Or.inl ⟨.wait c, Or.inl rfl, rfl, Or.inr (Or.inr rfl)⟩)
  | decided k st =>
    cases hk : k.isRelock with
    | false => exact Or.inr (Or.inr (Or.inl ⟨by simp [Timers.act, hk], Or.inl ⟨k, st, rfl, hk⟩⟩))
    | true =>
      refine Or.inr (Or.inr (Or.inr ⟨by simp [Timers.act, hk], by simp, ?_, by simp⟩))
      rintro k' st' heq
      cases heq
      exact hk
  | test =>
    cases pc with
    | blk k l =>
      by_cases h : k.isRelock = false ∧ k ≠ .sleep ∧ m.begun c = false
      · exact Or.inr (Or.inl ⟨.wait c, Or.inl rfl, if_pos h, Or.inl ⟨k, l, rfl, rfl, h.1, h.2.2⟩⟩)
      · exact Or.inr (Or.inr (Or.inr ⟨if_neg h, by simp, by simp, by simp⟩))
    | _ => exact Or.inr (Or.inr (Or.inr ⟨rfl, by simp, by simp, by simp⟩))
  | tau =>
    cases pc with
    | selSync ops win scan => exact Or.inr (Or.inr (Or.inl ⟨rfl, Or.inr ⟨rfl, ops, win, scan, rfl⟩⟩))
    | _ => exact Or.inr (Or.inr (Or.inr ⟨rfl, by simp, by simp, by simp⟩))
  | _ => exact Or.inr (Or.inr (Or.inr ⟨rfl, by simp, by simp, by simp⟩))

/-! ## Steps of a coroutine -/

lemma step_call {s t : Core} {c : CrId} {api : Api} (hstep : Step s ⟨.co c, .call api⟩ t) :
    s.pc (.co c) = .idle ∧ ∃ n, t.pc (.co c) = api.entry (.co c) n := by
  cases hstep with
  | «local» _ hl =>
    rw [Core.setPc_pc_self]
    generalize s.pc (.co c) = pc at hl
    cases hl
    exact ⟨rfl, _, rfl⟩

/-- Behind the place where a timer is armed the call is in its wait; a sleep and a select were not before. -/
lemma step_begins {s t : Core} {c : CrId} {act : Act} (hstep : Step s ⟨.co c, act⟩ t)
    (h : (∃ k l, act = .test ∧ s.pc (.co c) = .blk k l ∧ k.isRelock = false) ∨ act = .sleepPark ∨
      act = .selInit) :
    inWait (t.pc (.co c)) = true ∧ (act ≠ .test → inWait (s.pc (.co c)) = false) := by
  rcases h with ⟨k, l, rfl, hpc, hk⟩ | rfl | rfl
  · refine ⟨?_, fun hne => absurd rfl hne⟩
    have hin : inWait (s.pc (.co c)) = true := by simp [hpc, inWait, hk]
    rcases inWait_step hstep hin with ht | ⟨k', st, hact, -⟩ | ⟨hact, -⟩
    · exact ht
    · cases hact
    · cases hact
  · cases hstep with
    | «local» _ hl =>
      generalize s.pc (.co c) = pc at hl
      cases hl
    | sleepPark hpc _ => exact ⟨by simp [inWait, Frame.isRelock], fun _ => by simp [hpc, inWait]⟩
  · cases hstep with
    | «local» _ hl =>
      generalize s.pc (.co c) = pc at hl
      cases hl
    | selInit hpc _ => exact ⟨by simp [inWait], fun _ => by simp [hpc, inWait]⟩

section Own

variable {r r' : Runtime} {m : Timers} {w : WorkerId} {c : CrId} {act : Act} {deadline : ℕ} {ok : Bool}

/-- The timers of a coroutine are on its worker. -/
lemma CallOk.call_worker (h : CallOk r m c) (hpin : r.pin c = some w) (v : WorkerId) {k : ℕ}
    (ht : .call c k ∈ m.heap v) : v = w :=
  Option.some.inj ((h.call v k ht).1.symm.trans hpin)

lemma CallOk.deadline_worker (h : CallOk r m c) (hpin : r.pin c = some w) (v : WorkerId)
    (ht : .deadline c ∈ m.heap v) : v = w :=
  Option.some.inj ((h.deadline v ht).1.symm.trans hpin)

/-- A call that is not at its wait has no timer in a heap. -/
lemma CallOk.not_mem (h : CallOk r m c) (hw : inWait (r.core.pc (.co c)) = false) (v : WorkerId) (k : ℕ) :
    .call c k ∉ m.heap v := by
  intro ht
  obtain ⟨-, -, -, -, hin, -⟩ := h.call v k ht
  rw [hw] at hin
  cases hin

/-- When a call arms its timer, the timer is in no heap. -/
lemma CallOk.fresh (h : CallOk r m c) (hstep : Step r.core ⟨.co c, act⟩ r'.core)
    (hb : (∃ k l, act = .test ∧ r.core.pc (.co c) = .blk k l ∧ k.isRelock = false ∧ m.begun c = false) ∨
      act = .sleepPark ∨ act = .selInit) :
    inWait (r'.core.pc (.co c)) = true ∧ ∀ v k, .call c k ∉ m.heap v := by
  have hb' : (∃ k l, act = .test ∧ r.core.pc (.co c) = .blk k l ∧ k.isRelock = false) ∨
      act = .sleepPark ∨ act = .selInit :=
    hb.imp_left fun ⟨k, l, hact, hpc, hk, _⟩ => ⟨k, l, hact, hpc, hk⟩
  obtain ⟨hin, hout⟩ := step_begins hstep hb'
  refine ⟨hin, ?_⟩
  rcases hb with ⟨k, l, -, -, -, hbegun⟩ | rfl | rfl
  · intro v k' ht
    obtain ⟨-, -, hb, -⟩ := h.call v k' ht
    rw [hbegun] at hb
    cases hb
  · exact h.not_mem (hout (by simp))
  · exact h.not_mem (hout (by simp))

/-- The heaps after an action of a coroutine. -/
lemma TimerInv.heap_act (h : TimerInv r m) (hpin : r.pin c = some w)
    (hstep : Step r.core ⟨.co c, act⟩ r'.core) :
    HeapOk (m.act w c act (r.core.pc (.co c)) deadline ok) := by
  rcases act_cases m w c act (r.core.pc (.co c)) deadline ok with ⟨api, -, heq⟩ | ⟨cb, -, heq, hb⟩ |
    ⟨heq, -⟩ | ⟨heq, -⟩
  · rw [heq]
    exact ⟨h.heap.nodup, h.heap.apart, h.heap.active, h.heap.user⟩
  · rw [heq]
    have hfresh := ((h.co c).fresh hstep hb).2
    unfold Timers.beginWait
    split
    · exact ⟨h.heap.nodup, h.heap.apart, h.heap.active, h.heap.user⟩
    · have hm : HeapOk { m with begun := Function.update m.begun c true } :=
        ⟨h.heap.nodup, h.heap.apart, h.heap.active, h.heap.user⟩
      have harm : HeapOk ({ m with begun := Function.update m.begun c true }.timerArm w
          (.call c (m.calls c)) (m.arg c) cb ok) := hm.timerArm (fun v => hfresh v _) (by simp)
      exact ⟨harm.nodup, harm.apart, harm.active, harm.user⟩
  · rw [heq]
    unfold Timers.endWait
    split
    · exact h.heap.timerDisarm fun v ht => (h.co c).call_worker hpin v ht
    · exact h.heap
  · rw [heq]
    exact h.heap

/-- The other coroutines have nothing to do with it. -/
lemma TimerInv.kept_act (h : TimerInv r m) (hpin : r.pin c = some w) {d : CrId} (hd : d ≠ c) :
    Kept d m (m.act w c act (r.core.pc (.co c)) deadline ok) := by
  rcases act_cases m w c act (r.core.pc (.co c)) deadline ok with ⟨api, -, heq⟩ | ⟨cb, -, heq, -⟩ |
    ⟨heq, -⟩ | ⟨heq, -⟩
  · rw [heq]
    exact kept_newCall hd
  · rw [heq]
    exact kept_beginWait hd
  · rw [heq]
    exact kept_endWait h.heap fun v ht => (h.co c).call_worker hpin v ht
  · rw [heq]
    exact Kept.refl d m

/-- Behind its wait a call has no timer in a heap. -/
lemma endWait_not_mem (h : TimerInv r m) (hpin : r.pin c = some w) (v : WorkerId) (k : ℕ) :
    .call c k ∉ (m.endWait w c).heap v := by
  unfold Timers.endWait
  intro ht
  split at ht
  · obtain ⟨hold, hne⟩ := (mem_timerDisarm h.heap fun v ht => (h.co c).call_worker hpin v ht).mp ht
    obtain ⟨-, rfl, -⟩ := (h.co c).call v k hold
    exact hne rfl
  · rename_i harmed
    obtain ⟨-, -, -, ha, -⟩ := (h.co c).call v k ht
    exact harmed ha

/-- While a coroutine runs, no scheduler is in a callback for it. -/
lemma SchedInv.quiet (hs : SchedInv r) (hpin : r.pin c = some w) (hrun : r.run w = some c) (v : WorkerId)
    {f : WakeFor} (hw : waking (r.core.pc (.sched v)) = some (f, c)) : f = .cancel := by
  by_contra hf
  obtain rfl : v = w := Option.some.inj ((hs.waker v f c hw hf).symm.trans hpin)
  rw [(hs.rest v c hrun).2.1] at hw
  cases hw

/-- The timers of the acting coroutine. -/
lemma TimerInv.callOk_act (h : TimerInv r m) (hs : SchedInv r) (hinv : Inv r.core) (hpin : r.pin c = some w)
    (hrun : r.run w = some c) (hstep : Step r.core ⟨.co c, act⟩ r'.core) (hpin' : r'.pin = r.pin)
    (hexp : act = .preExpired → m.Expired c) :
    CallOk r' (m.act w c act (r.core.pc (.co c)) deadline ok) c := by
  have hf := step_footprint hinv hstep
  have hsched : ∀ v, r'.core.pc (.sched v) = r.core.pc (.sched v) := fun v => hf.pc _ (by simp)
  have hquiet : ∀ v f, waking (r'.core.pc (.sched v)) = some (f, c) → f = .cancel := by
    intro v f hw
    rw [hsched] at hw
    exact hs.quiet hpin hrun v hw
  have hcallback : ∀ m' v f, waking (r'.core.pc (.sched v)) = some (f, c) → CallbackOk r' m' v c f := by
    intro m' v f hw
    rw [hquiet v f hw]
    trivial
  have hdue : timesOut (r'.core.heap.waits.node (.wq c)).status (r'.core.pc (.co c)) → m.inIo c = false →
      timesOut (r.core.heap.waits.node (.wq c)).status (r.core.pc (.co c)) ∨ m.Due c := by
    intro hto hnio
    rcases timesOut_step hinv hstep hto with hold | hact | ⟨-, hpc⟩
    · exact Or.inl hold
    · exact Or.inr (Or.inr (hexp hact))
    · rw [(h.co c).io hpc] at hnio
      cases hnio
  rcases act_cases m w c act (r.core.pc (.co c)) deadline ok with ⟨api, rfl, heq⟩ | ⟨cb, hcb, heq, hb⟩ |
    ⟨heq, hend⟩ | ⟨heq, hcall, hdec, htau⟩
  · -- a call: there is no timer, and the call has not failed yet
    obtain ⟨hidle, n, hentry⟩ := step_call hstep
    have hnone := (h.co c).not_mem (by rw [hidle]; rfl)
    rw [heq]
    refine ⟨fun v k ht => absurd ht (hnone v k), ?_, hcallback _, ?_, ?_⟩
    · rw [hpin']
      exact (h.co c).deadline
    · intro hpc
      rw [hentry] at hpc
      show Function.update m.inIo c (Api.isIo api) c = true
      rw [Function.update_self]
      exact doesIo_entry hpc
    · intro hto
      rw [hentry] at hto
      exact absurd hto (not_timesOut_entry api c n _)
  · -- the call arms its timer
    obtain ⟨hin, hnone⟩ := (h.co c).fresh hstep hb
    have hio : doesIo (r'.core.pc (.co c)) = false := by
      generalize r'.core.pc (.co c) = pc at hin
      cases pc <;> first | rfl | cases hin
    obtain ⟨-, harg, hinIo, hdl, htimer, hmem⟩ := beginWait_rest m w c cb ok
    rw [heq]
    refine ⟨?_, ?_, hcallback _, ?_, ?_⟩
    · intro v k ht
      obtain ⟨rfl, hk, hcalls, hbegun, harmed, htm, hne⟩ := mem_beginWait ht (hnone v k)
      refine ⟨by rw [hpin', hpin], by rw [hcalls]; exact hk, hbegun, harmed, hin, ?_, by rw [harg]; exact hne, ?_⟩
      · rw [Timers.due, htm, harg]
      · rw [htm]
        exact hcb
    · intro v ht
      rw [hpin', hdl, htimer]
      exact (h.co c).deadline v (hmem v ht)
    · intro hpc
      rw [hio] at hpc
      cases hpc
    · intro hto hnio
      rw [hinIo] at hnio
      rcases hdue hto hnio with hold | hd
      · exact beginWait_due ((h.co c).due hold hnio)
      · exact beginWait_due hd
  · -- the wait is over
    rw [heq]
    refine (h.co c).keep (kept_endWait h.heap fun v ht => (h.co c).call_worker hpin v ht) ?_ ?_ ?_ ?_ hdue
    · rw [hpin']
      exact fun _ => id
    · intro _
      exact Or.inr ⟨fun v k => endWait_not_mem h hpin v k, hquiet⟩
    · intro v f hw
      exact Or.inl (hcallback _ v f hw)
    · intro hpc
      refine (doesIo_step hstep hpc).resolve_right ?_
      rintro ⟨api, rfl, -⟩
      rcases hend with ⟨k, st, hact, -⟩ | ⟨hact, -⟩ <;> cases hact
  · -- nothing happens to the timers
    rw [heq]
    refine (h.co c).keep (Kept.refl c m) ?_ ?_ ?_ ?_ hdue
    · rw [hpin']
      exact fun _ => id
    · intro hin
      rcases inWait_step hstep hin with hin' | ⟨k, st, hact, hk⟩ | ⟨hact, ops, win, scan, hpc⟩
      · exact Or.inl hin'
      · rw [hdec k st hact] at hk
        cases hk
      · exact absurd hpc (htau hact ops win scan)
    · intro v f hw
      exact Or.inl (hcallback _ v f hw)
    · intro hpc
      refine (doesIo_step hstep hpc).resolve_right ?_
      rintro ⟨api, hact, -⟩
      exact hcall api hact

end Own

/-! ## Steps of the runtime -/

lemma switchOut_pin (r : Runtime) (a : Ctx) (x : Life) : (r.switchOut a x).pin = r.pin := by
  unfold Runtime.switchOut
  split
  · split <;> rfl
  · rfl

/-- A pin is for life. -/
lemma rstep_pin {r r' : Runtime} {e : Ev} (hs : SchedInv r) (hstep : RStep r e r') {c : CrId}
    {w : WorkerId} (hp : r.pin c = some w) : r'.pin c = some w := by
  cases hstep with
  | core =>
    show (r.effect _ _ _ _).pin c = some w
    rw [effect_pin]
    exact hp
  | @spawnLocal _ d _ hun _ =>
    have hne : c ≠ d := by
      rintro rfl
      rw [hs.unborn c hun] at hp
      cases hp
    simpa [hne] using hp
  | @take v d _ _ hnone =>
    have hne : c ≠ d := by
      rintro rfl
      rw [hnone] at hp
      cases hp
    simpa [hne] using hp
  | yield | bare =>
    rw [switchOut_pin]
    exact hp
  | exit =>
    show (r.switchOut _ _).pin c = some w
    rw [switchOut_pin]
    exact hp
  | deliverWake =>
    show (r.deliverWake _).pin c = some w
    rw [(Nudged.deliverWake r _).pin]
    exact hp
  | stray =>
    rw [(Nudged.wakeNoPreempt r _ _).pin]
    exact hp
  | _ => exact hp

lemma step_flip {s t : Core} {a : Ctx} {c : CrId} {st : Code} (hstep : Step s ⟨a, .flip c st⟩ t) :
    ∃ f lk, s.pc a = .wakeLock f c lk ∧ f.code = st := by
  cases hstep with
  | «local» _ hl =>
    generalize s.pc a = pc at hl
    cases hl
  | flip hpc _ _ _ => exact ⟨_, _, hpc, rfl⟩

/-- Only schedulers start callbacks. -/
lemma step_callback {s t : Core} {a : Ctx} (hstep : Step s ⟨a, .waker⟩ t) (hidle : s.pc a = .idle) :
    ∃ w, a = .sched w := by
  cases hstep with
  | «local» _ hl =>
    rw [hidle] at hl
    cases hl
    exact ⟨_, rfl⟩

section Others

variable {r r' : Runtime} {m m' : Timers} {e : Event} {d : CrId}

/-- A timeout that a step decides is due. -/
lemma TimerInv.flip_due (h : TimerInv r m) {a : Ctx} (hstep : Step r.core ⟨a, .flip d .timedout⟩ r'.core) :
    m.Due d := by
  obtain ⟨f, lk, hpc, hcode⟩ := step_flip hstep
  have hw : waking (r.core.pc a) = some (f, d) := by rw [hpc]; rfl
  cases f with
  | cancel => cases hcode
  | deliver => cases hcode
  | timer =>
    obtain ⟨w, rfl⟩ := h.waker a _ d hw (by simp)
    exact Or.inl ((h.co d).callback w _ hw).2.2
  | deadline =>
    obtain ⟨w, rfl⟩ := h.waker a _ d hw (by simp)
    exact Or.inr ((h.co d).callback w _ hw).2

/-- A coroutine that does not take the step. -/
lemma TimerInv.other (h : TimerInv r m) (hinv : Inv r.core) (hstep : Step r.core e r'.core)
    (hpin : ∀ w, r.pin d = some w → r'.pin d = some w) (hm : Kept d m m') (hd : e.ctx ≠ .co d)
    (hwake : ∀ w f, waking (r'.core.pc (.sched w)) = some (f, d) → CallbackOk r' m' w d f ∨
      (waking (r.core.pc (.sched w)) = some (f, d) ∧ m'.fired w = m.fired w)) : CallOk r' m' d := by
  have hf := step_footprint hinv hstep
  have hpc : r'.core.pc (.co d) = r.core.pc (.co d) := hf.pc _ (Ne.symm hd)
  refine (h.co d).keep hm hpin ?_ hwake ?_ ?_
  · intro hin
    rw [hpc]
    exact Or.inl hin
  · rw [hpc]
    exact id
  · intro hto _
    rcases timesOut_other hf hd hto with hold | hflip
    · exact Or.inl hold
    · obtain ⟨a, act⟩ := e
      obtain rfl : act = .flip d .timedout := hflip
      exact Or.inr (h.flip_due hstep)

/-- A step that does not start a callback. -/
lemma waking_kept (hinv : Inv r.core) (hstep : Step r.core e r'.core)
    (hidle : ∀ w, e.ctx = .sched w → e.act = .waker → r.core.pc (.sched w) ≠ .idle) {w : WorkerId}
    {f : WakeFor} (hw : waking (r'.core.pc (.sched w)) = some (f, d)) (hf : f ≠ .cancel) :
    waking (r.core.pc (.sched w)) = some (f, d) := by
  obtain ⟨a, act⟩ := e
  by_cases ha : a = .sched w
  · subst ha
    rcases step_waking hstep hw hf with hold | ⟨hact, hi, -⟩
    · exact hold
    · exact absurd hi (hidle w rfl hact)
  · rwa [(step_footprint hinv hstep).pc _ (Ne.symm ha)] at hw

/-- Only schedulers are in callbacks after a step of the wait protocol. -/
lemma TimerInv.waker_step (h : TimerInv r m) (hinv : Inv r.core) (hstep : Step r.core e r'.core) (a : Ctx)
    (f : WakeFor) (c : CrId) (hw : waking (r'.core.pc a) = some (f, c)) (hf : f ≠ .cancel) :
    ∃ w, a = .sched w := by
  obtain ⟨b, act⟩ := e
  by_cases hb : a = b
  · subst hb
    rcases step_waking hstep hw hf with hold | ⟨rfl, hi, -⟩
    · exact h.waker a f c hold hf
    · exact step_callback hstep hi
  · rw [(step_footprint hinv hstep).pc a hb] at hw
    exact h.waker a f c hw hf

end Others

section Steps

variable {r r' : Runtime} {m m' : Timers} {e : Ev} {w : WorkerId} {c : CrId} {t : TimerId}

/-- A step of the wait protocol by a context that starts no callback. -/
lemma TimerInv.core (h : TimerInv r m) (hs : SchedInv r) (hinv : Inv r.core) {a : Ctx} {act : Act}
    {deadline : ℕ} {ok : Bool} (hstep : RStep r (.core ⟨a, act⟩) r')
    (hallow : m.Allows r (.core ⟨a, act⟩) r' deadline ok) :
    TimerInv r' (m.after r (.core ⟨a, act⟩) deadline ok) := by
  have hpin : ∀ d w, r.pin d = some w → r'.pin d = some w := fun d w hp => rstep_pin hs hstep hp
  obtain ⟨hactive, hcore, hpin'⟩ : r.Active a ∧ Step r.core ⟨a, act⟩ r'.core ∧ r'.pin = r.pin := by
    cases hstep with
    | core hactive _ hcore _ => exact ⟨hactive, hcore, effect_pin _ _ _ _ _⟩
  cases a with
  | co c =>
    obtain ⟨w, hp, hrun⟩ := hactive
    have hafter : m.after r (.core ⟨.co c, act⟩) deadline ok = m.act w c act (r.core.pc (.co c)) deadline ok := by
      simp [Timers.after, hp]
    rw [hafter]
    refine ⟨h.heap_act hp hcore, ?_, h.waker_step hinv hcore⟩
    intro d
    by_cases hd : d = c
    · subst hd
      refine h.callOk_act hs hinv hp hrun hcore hpin' ?_
      rintro rfl
      exact hallow
    · refine h.other hinv hcore (hpin d) (h.kept_act hp hd) (by simpa using Ne.symm hd) ?_
      intro v f hw
      by_cases hf : f = .cancel
      · exact Or.inl (by rw [hf]; trivial)
      · refine Or.inr ⟨waking_kept hinv hcore (by simp) hw hf, ?_⟩
        rcases act_cases m w c act (r.core.pc (.co c)) deadline ok with ⟨_, -, heq⟩ | ⟨_, -, heq, -⟩ |
            ⟨heq, -⟩ | ⟨heq, -⟩
        · rw [heq]
          rfl
        · rw [heq, Timers.beginWait]
          split <;> rfl
        · rw [heq, Timers.endWait]
          split <;> rfl
        · rw [heq]
  | sched w =>
    refine ⟨h.heap, fun d => h.other hinv hcore (hpin d) (Kept.refl d m) (by simp) ?_, h.waker_step hinv hcore⟩
    intro v f hw
    by_cases hf : f = .cancel
    · exact Or.inl (by rw [hf]; trivial)
    · refine Or.inr ⟨waking_kept hinv hcore ?_ hw hf, rfl⟩
      rintro u hu rfl
      obtain rfl : w = u := by simpa using hu
      exact hallow
  | ext f =>
    refine ⟨h.heap, fun d => h.other hinv hcore (hpin d) (Kept.refl d m) (by simp) ?_, h.waker_step hinv hcore⟩
    intro v f hw
    by_cases hf : f = .cancel
    · exact Or.inl (by rw [hf]; trivial)
    · exact Or.inr ⟨waking_kept hinv hcore (by simp) hw hf, rfl⟩

/-- A step that leaves the wait protocol and the timers of coroutine `c` alone. -/
lemma CallOk.same (h : CallOk r m c) (hm : Kept c m m') (hcore : r'.core = r.core)
    (hpin : ∀ w, r.pin c = some w → r'.pin c = some w)
    (hfired : ∀ w f, waking (r.core.pc (.sched w)) = some (f, c) → m'.fired w = m.fired w) :
    CallOk r' m' c := by
  refine h.keep hm hpin ?_ ?_ ?_ ?_
  · rw [hcore]
    exact Or.inl
  · intro w f hw
    rw [hcore] at hw
    exact Or.inr ⟨hw, hfired w f hw⟩
  · rw [hcore]
    exact id
  · rw [hcore]
    exact fun hto _ => Or.inl hto

/-- A coroutine outside calls that is running. -/
lemma CallOk.idle (hpc : r.core.pc (.co c) = .idle)
    (hquiet : ∀ v f, waking (r.core.pc (.sched v)) = some (f, c) → f = .cancel)
    (hcall : ∀ v k, .call c k ∉ m.heap v)
    (hdl : ∀ v, .deadline c ∈ m.heap v →
      r.pin c = some v ∧ m.deadlineArmed c = true ∧ (m.timer (.deadline c)).cb = .deadline c) :
    CallOk r m c where
  call v k ht := absurd ht (hcall v k)
  deadline := hdl
  callback v f hw := by
    rw [hquiet v f hw]
    trivial
  io hio := by
    rw [hpc] at hio
    cases hio
  due hto := by
    rw [hpc] at hto
    exact hto.elim

/-- The heaps when the deadline of a coroutine is cleared. -/
lemma TimerInv.heap_clearDeadline (h : TimerInv r m) (hpin : r.pin c = some w) :
    HeapOk (m.clearDeadline w c) := by
  unfold Timers.clearDeadline
  split
  · have hdis : HeapOk (m.timerDisarm w (.deadline c)) :=
      h.heap.timerDisarm fun v ht => (h.co c).deadline_worker hpin v ht
    exact ⟨hdis.nodup, hdis.apart, hdis.active, hdis.user⟩
  · exact h.heap

lemma TimerInv.mem_clearDeadline (h : TimerInv r m) (hpin : r.pin c = some w) {v : WorkerId} :
    t ∈ (m.clearDeadline w c).heap v ↔ t ∈ m.heap v ∧ t ≠ .deadline c := by
  unfold Timers.clearDeadline
  split
  · exact mem_timerDisarm h.heap fun v ht => (h.co c).deadline_worker hpin v ht
  · rename_i harmed
    refine ⟨fun ht => ⟨ht, ?_⟩, And.left⟩
    rintro rfl
    exact harmed ((h.co c).deadline v ht).2.1

lemma clearDeadline_fired : (m.clearDeadline w c).fired = m.fired := by
  unfold Timers.clearDeadline
  split <;> rfl

/-- The other steps of the runtime. -/
lemma TimerInv.rest (h : TimerInv r m) (hs : SchedInv r) (hinv : Inv r.core) {deadline : ℕ} {ok : Bool}
    (hstep : RStep r e r') (he : ∀ e', e ≠ .core e') : TimerInv r' (m.after r e deadline ok) := by
  have hpin : ∀ d w, r.pin d = some w → r'.pin d = some w := fun d w hp => rstep_pin hs hstep hp
  have hsame : r'.core = r.core → m.after r e deadline ok = m → TimerInv r' (m.after r e deadline ok) := by
    intro hcore hm
    rw [hm]
    refine ⟨h.heap, fun d => (h.co d).same (Kept.refl d m) hcore (hpin d) fun _ _ _ => rfl, ?_⟩
    rw [hcore]
    exact h.waker
  cases hstep with
  | core => exact absurd rfl (he _)
  | @deliverCancel w c l l' hat hl hcancel =>
    obtain ⟨-, -, hidle, hwork⟩ := hat
    have hcore : Step r.core ⟨.sched w, .waker⟩ (r.core.setPc (.sched w) (.wakeTest .deliver c)) := by
      refine .local hwork ?_
      rw [hidle]
      exact .callback (by simp)
    refine ⟨h.heap, fun d => ?_, h.waker_step hinv hcore⟩
    refine h.other hinv hcore (hpin d) (Kept.refl d m) (by simp) ?_
    intro v f hw
    by_cases hv : v = w
    · subst hv
      have hf : WakeFor.deliver = f ∧ c = d := by simpa [waking] using hw
      exact Or.inl (by rw [← hf.1]; trivial)
    · exact Or.inr ⟨by simpa [hv] using hw, rfl⟩
  | @exit c w hp hrun hidle _ =>
    have hafter : m.after r (.exit c) deadline ok = m.clearDeadline w c := by simp [Timers.after, hp]
    rw [hafter]
    have hcore : { r.switchOut (.co c) .done with
        zombies := Function.update r.zombies w (c :: r.zombies w) }.core = r.core := by simp
    refine ⟨h.heap_clearDeadline hp, ?_, by rw [hcore]; exact h.waker⟩
    intro d
    by_cases hd : d = c
    · subst hd
      refine CallOk.idle (by rw [hcore]; exact hidle) ?_ ?_ ?_
      · rw [hcore]
        exact fun v f hw => hs.quiet hp hrun v hw
      · intro v k ht
        exact (h.co d).not_mem (by rw [hidle]; rfl) v k ((h.mem_clearDeadline hp).mp ht).1
      · intro v ht
        exact absurd rfl ((h.mem_clearDeadline hp).mp ht).2
    · refine (h.co d).same (kept_clearDeadline h.heap (fun v ht => (h.co c).deadline_worker hp v ht) hd) hcore
        (hpin d) ?_
      intro v f _
      rw [clearDeadline_fired]
  | yield | bare | deliverWake | stray => exact hsame (by simp) rfl
  | _ => exact hsame rfl rfl

/-- A worker takes a timer from its heap: for the coroutines it is one timer less. -/
lemma Fired.kept (hf : Fired m w t m') (d : CrId) : Kept d m m' := by
  have hdue := hf.dues (.deadline d)
  have hheap := hf.heap
  have htimer := hf.timer
  obtain ⟨timer, heap, rfl⟩ := hf.rest
  refine ⟨le_refl _, ?_, hdue, rfl, rfl, rfl, rfl, rfl, rfl⟩
  intro v x _ hx
  obtain ⟨hold, hne⟩ := (hheap v x).mp hx
  exact ⟨hold, htimer x hne⟩

/-- It is written down, and the other workers have nothing to do with it. -/
lemma Fired.fired (hf : Fired m w t m') : m'.fired = Function.update m.fired w (some t) := by
  obtain ⟨timer, heap, rfl⟩ := hf.rest
  rfl

lemma Fired.fired_of_ne (hf : Fired m w t m') {v : WorkerId} (hv : v ≠ w) : m'.fired v = m.fired v := by
  rw [hf.fired]
  exact Function.update_of_ne hv _ _

/-- A callback that calls `s_waiter_wake`. -/
lemma TimerInv.fire_waker (h : TimerInv r m) (hs : SchedInv r) (hinv : Inv r.core) (hf : Fired m w t m')
    (hstep : RStep r (.core ⟨.sched w, .waker⟩) r') {f : WakeFor}
    (hpc : r'.core.pc (.sched w) = .wakeTest f c) (hok : CallbackOk r' m' w c f) : TimerInv r' m' := by
  have hcore : Step r.core ⟨.sched w, .waker⟩ r'.core := by
    cases hstep with
    | core _ _ hcore _ => exact hcore
  refine ⟨hf.ok, fun d => ?_, h.waker_step hinv hcore⟩
  refine h.other hinv hcore (fun v hp => rstep_pin hs hstep hp) (hf.kept d) (by simp) ?_
  intro v f' hw
  by_cases hv : v = w
  · subst hv
    rw [hpc] at hw
    obtain ⟨rfl, rfl⟩ : f = f' ∧ c = d := by simpa [waking] using hw
    exact Or.inl hok
  · rw [(step_footprint hinv hcore).pc _ (by simpa using hv)] at hw
    exact Or.inr ⟨hw, hf.fired_of_ne hv⟩

/-- A callback that does not call it. -/
lemma TimerInv.fire_same (h : TimerInv r m) (hat : r.AtLoop w .top) (hf : Fired m w t m')
    (hcore : r'.core = r.core) (hpin : ∀ d v, r.pin d = some v → r'.pin d = some v) : TimerInv r' m' := by
  refine ⟨hf.ok, fun d => ?_, by rw [hcore]; exact h.waker⟩
  refine (h.co d).same (hf.kept d) hcore (hpin d) ?_
  intro v f hw
  have hv : v ≠ w := by
    rintro rfl
    rw [hat.2.2.1] at hw
    cases hw
  exact hf.fired_of_ne hv

/-- A worker calls the callback of a timer that it has taken from its heap. -/
lemma TimerInv.fire (h : TimerInv r m) (hs : SchedInv r) (hinv : Inv r.core) (hat : r.AtLoop w .top)
    (hf : Fired m w t m') (hcb : (m.timer t).cb.Starts w e r') (hstep : RStep r e r') : TimerInv r' m' := by
  have hpin : ∀ d v, r.pin d = some v → r'.pin d = some v := fun d v hp => rstep_pin hs hstep hp
  cases t with
  | user i =>
    rw [h.heap.user w i hf.mem] at hcb
    exact hcb.elim
  | deadline c =>
    obtain ⟨-, harmed, hcb'⟩ := (h.co c).deadline w hf.mem
    rw [hcb'] at hcb
    rcases hcb with rfl | ⟨rfl, hpc⟩
    · refine h.fire_same hat hf ?_ hpin
      cases hstep
      rfl
    · refine h.fire_waker hs hinv hf hstep hpc ⟨?_, (hf.kept c).expired ⟨harmed, hf.due⟩⟩
      rw [hf.fired]
      exact Function.update_self _ _ _
  | call c k =>
    obtain ⟨-, rfl, -, -, hin, hdue, hne, hcb'⟩ := (h.co c).call w k hf.mem
    have hle : m.arg c ≤ m.now := hdue ▸ hf.due
    have hkept := hf.kept c
    rcases hcb' with hcb' | hcb'
    · rw [hcb'] at hcb
      obtain ⟨rfl, hpc⟩ := hcb
      refine h.fire_waker hs hinv hf hstep hpc ⟨?_, ?_, by rw [hkept.arg]; exact hne, ?_⟩
      · rw [hf.fired, hkept.calls]
        exact Function.update_self _ _ _
      · cases hstep with
        | core _ _ hcore _ =>
          show inWait ((_ : Core).pc (.co c)) = true
          rw [(step_footprint hinv hcore).pc _ (by simp)]
          exact hin
      · rw [hkept.arg]
        exact hle.trans hkept.now
    · rw [hcb'] at hcb
      obtain rfl : e = .core ⟨.sched w, .sleepFire c⟩ := hcb
      have hcore : Step r.core ⟨.sched w, .sleepFire c⟩ r'.core := by
        cases hstep with
        | core _ _ hcore _ => exact hcore
      refine ⟨hf.ok, fun d => ?_, h.waker_step hinv hcore⟩
      refine h.other hinv hcore (hpin d) (hf.kept d) (by simp) ?_
      intro v f hw
      by_cases hfc : f = .cancel
      · exact Or.inl (by rw [hfc]; trivial)
      · have hold := waking_kept hinv hcore (by simp) hw hfc
        have hv : v ≠ w := by
          rintro rfl
          rw [hat.2.2.1] at hold
          cases hold
        exact Or.inr ⟨hold, hf.fired_of_ne hv⟩

/-- A coroutine sets its deadline, or clears it. -/
lemma TimerInv.setDeadline (h : TimerInv r m) (hs : SchedInv r) (hp : r.pin c = some w)
    (hrun : r.run w = some c) (hidle : r.core.pc (.co c) = .idle) (deadline : ℕ) (ok : Bool) :
    TimerInv r (m.setDeadline w c deadline ok) := by
  have hclear := h.heap_clearDeadline hp
  have hgone : ∀ v, .deadline c ∉ (m.clearDeadline w c).heap v :=
    fun v ht => absurd rfl ((h.mem_clearDeadline hp).mp ht).2
  have harm : HeapOk ((m.clearDeadline w c).timerArm w (.deadline c) deadline (.deadline c) ok) :=
    hclear.timerArm hgone (by simp)
  have hnone : ∀ v k, .call c k ∉ m.heap v := (h.co c).not_mem (by rw [hidle]; rfl)
  have hquiet : ∀ v f, waking (r.core.pc (.sched v)) = some (f, c) → f = .cancel :=
    fun v f hw => hs.quiet hp hrun v hw
  refine ⟨?_, ?_, h.waker⟩
  · unfold Timers.setDeadline
    split
    · exact hclear
    · exact ⟨harm.nodup, harm.apart, harm.active, harm.user⟩
  · intro d
    by_cases hd : d = c
    · subst hd
      unfold Timers.setDeadline
      split
      · refine CallOk.idle hidle hquiet ?_ fun v ht => absurd ht (hgone v)
        exact fun v k ht => hnone v k ((h.mem_clearDeadline hp).mp ht).1
      · refine CallOk.idle hidle hquiet ?_ ?_
        · intro v k ht
          rcases mem_timerArm.mp ht with hold | ⟨-, -, heq⟩
          · exact hnone v k ((h.mem_clearDeadline hp).mp hold).1
          · cases heq
        · intro v ht
          rcases mem_timerArm.mp ht with hold | ⟨rfl, rfl, -⟩
          · exact absurd hold (hgone v)
          · refine ⟨hp, Function.update_self _ _ _, ?_⟩
            show (((m.clearDeadline v d).timerArm v (.deadline d) deadline (.deadline d) true).timer
              (.deadline d)).cb = .deadline d
            rw [timerArm_self]
    · refine (h.co d).same ?_ rfl (fun _ => id) ?_
      · exact kept_setDeadline h.heap (fun v ht => (h.co c).deadline_worker hp v ht) hd
      · intro v f _
        unfold Timers.setDeadline
        split <;> exact congrFun clearDeadline_fired v

/-- Heaps and timers of the user change. -/
lemma TimerInv.user (h : TimerInv r m) (hok : HeapOk m') (hkept : ∀ d, Kept d m m')
    (hfired : m'.fired = m.fired) : TimerInv r m' := by
  refine ⟨hok, fun d => ?_, h.waker⟩
  refine (h.co d).same (hkept d) rfl (fun _ => id) ?_
  intro v f _
  rw [hfired]

/-- One step keeps the invariant. -/
lemma timerInv_step {p q : Runtime × Timers} {e : TEv} (hs : SchedInv p.1) (hinv : Inv p.1.core)
    (h : TimerInv p.1 p.2) (hstep : TStep p e q) : TimerInv q.1 q.2 := by
  cases hstep with
  | @run r r' m e deadline ok hstep hallow =>
    by_cases he : ∃ e', e = .core e'
    · obtain ⟨⟨a, act⟩, rfl⟩ := he
      exact h.core hs hinv hstep hallow
    · exact h.rest hs hinv hstep fun e' heq => he ⟨e', heq⟩
  | @fire r r' m m' w t e hat hf hcb hstep =>
    exact h.fire hs hinv hat (fireExpired_spec h.heap hf) hcb hstep
  | @fireIdle r m m' w t hat hf _ =>
    exact h.fire_same hat (fireExpired_spec h.heap hf) rfl fun _ _ => id
  | @fireRepeat r m m' w i period ok hat hf =>
    have hspec := fireExpired_spec h.heap hf
    have hinv' := h.fire_same hat hspec rfl fun _ _ => id
    refine hinv'.user (hspec.ok.timerArm ?_ fun _ _ => rfl) (fun d => kept_timerArm (by simp [TimerId.owner])) rfl
    intro v ht
    exact absurd rfl ((hspec.heap v _).mp ht).2
  | @tick r m n =>
    refine h.user ⟨h.heap.nodup, h.heap.apart, h.heap.active, h.heap.user⟩ ?_ rfl
    intro d
    exact ⟨Nat.le_add_right _ _, fun _ _ _ ht => ⟨ht, rfl⟩, rfl, rfl, rfl, rfl, rfl, rfl, rfl⟩
  | @deadline r m c w deadline ok hp hrun hidle _ => exact h.setDeadline hs hp hrun hidle deadline ok
  | @userArm r m w i due ok hact =>
    refine h.user (h.heap.timerArm ?_ fun _ _ => rfl) (fun d => kept_timerArm (by simp [TimerId.owner])) rfl
    intro v ht
    rw [h.heap.active v _ ht] at hact
    cases hact
  | @userCancel r m w i hw =>
    exact h.user (h.heap.timerDisarm hw) (fun d => kept_timerDisarm h.heap hw) rfl

end Steps

/-- Below the timers is the runtime. -/
lemma runtime_reachable {cfg : Config} {r : Runtime} {m : Timers}
    (h : Reachable TStep (.init cfg, .init) (r, m)) : Reachable RStep (.init cfg) r := by
  obtain ⟨es, hrun⟩ := h
  refine hrun.simulate (f := Prod.fst) ?_
  intro p e q hstep
  cases hstep with
  | run _ _ hstep _ => exact Or.inr ⟨_, hstep⟩
  | fire _ _ _ hstep => exact Or.inr ⟨_, hstep⟩
  | _ => exact Or.inl rfl

lemma timerInv_init (cfg : Config) : TimerInv (.init cfg) .init where
  heap := by constructor <;> simp [Timers.init]
  co c := by
    constructor <;> simp [Timers.init, Runtime.init, Core.init, waking, doesIo, timesOut]
  waker a f c hw := by cases hw

lemma timerInv_reachable {cfg : Config} {r : Runtime} {m : Timers}
    (h : Reachable TStep (.init cfg, .init) (r, m)) : TimerInv r m := by
  refine Reachable.invariant_of (J := fun p => SchedInv p.1 ∧ Inv p.1.core)
    (I := fun p => TimerInv p.1 p.2) ?_ (timerInv_init cfg) ?_ h
  · rintro ⟨r, m⟩ hr
    exact ⟨schedInv_reachable (runtime_reachable hr), core_inv (runtime_reachable hr)⟩
  · rintro p e q ⟨hs, hinv⟩ - hI hstep
    exact timerInv_step hs hinv hI hstep

/-- What lies below a step of the wait protocol. -/
lemma tstep_core {r : Runtime} {m : Timers} {e : Event} {p : Runtime × Timers}
    (hstep : TStep (r, m) (.run (.core e)) p) : ∃ t, Step r.core e t := by
  cases hstep with
  | run _ _ hstep _ =>
    cases hstep with
    | core _ _ hcore _ => exact ⟨_, hcore⟩

lemma tstep_fire {r : Runtime} {m : Timers} {w : WorkerId} {t : TimerId} {p : Runtime × Timers}
    (hstep : TStep (r, m) (.fire w t) p) : ∃ m', m.fireExpired w = some (t, m') := by
  cases hstep with
  | fire _ hf _ _ => exact ⟨_, hf⟩
  | fireIdle _ hf _ => exact ⟨_, hf⟩
  | fireRepeat _ _ _ hf => exact ⟨_, hf⟩

/-- A call that returns `SUSPENDERS_TIMEDOUT` was going to. -/
lemma step_ret_timedout {s t : Core} {c : CrId} {act : Act} (hstep : Step s ⟨.co c, act⟩ t)
    (hact : act = .ret .timedout ∨ act = .selRet none .timedout) :
    timesOut (s.heap.waits.node (.wq c)).status (s.pc (.co c)) := by
  rcases hact with rfl | rfl
  · cases hstep with
    | «local» _ hl =>
      generalize s.pc (.co c) = pc at hl
      cases hl
      rfl
  · cases hstep with
    | «local» _ hl =>
      generalize s.pc (.co c) = pc at hl
      cases hl
      rfl

/-- In every run of the runtime with its timers: a call other than I/O returns `SUSPENDERS_TIMEDOUT` only if the
clock has reached the deadline that was passed to it, or the one its coroutine has set with
`suspenders_deadline`.  When a wait is decided with `SUSPENDERS_TIMEDOUT`, it is by a scheduler that has taken
from its heap the timer of this very call, or the deadline that is armed, and a timer of a call that is taken
from a heap is always that of the call in progress.  A heap holds a timer of a call only while that call, which
has a deadline, is at its wait, and the deadline of a coroutine only while it is armed. -/
theorem no_stale_timeout {cfg : Config} {r : Runtime} {m : Timers}
    (h : Reachable TStep (.init cfg, .init) (r, m)) :
    (∀ c act p, TStep (r, m) (.run (.core ⟨.co c, act⟩)) p → act = .ret .timedout ∨ act = .selRet none .timedout →
      m.inIo c = false → m.Due c) ∧
    (∀ a c p, TStep (r, m) (.run (.core ⟨a, .flip c .timedout⟩)) p → ∃ w, a = .sched w ∧
      ((m.fired w = some (.call c (m.calls c)) ∧ inWait (r.core.pc (.co c)) = true ∧ m.arg c ≠ 0 ∧
          m.arg c ≤ m.now) ∨
        (m.fired w = some (.deadline c) ∧ m.Expired c))) ∧
    (∀ w c k p, TStep (r, m) (.fire w (.call c k)) p →
      k = m.calls c ∧ inWait (r.core.pc (.co c)) = true ∧ m.arg c ≤ m.now) ∧
    (∀ w c k, .call c k ∈ m.heap w → k = m.calls c ∧ m.arg c ≠ 0 ∧ inWait (r.core.pc (.co c)) = true) ∧
    ∀ w c, .deadline c ∈ m.heap w → m.deadlineArmed c = true := by
  have hi := timerInv_reachable h
  refine ⟨?_, ?_, ?_, ?_, ?_⟩
  · intro c act p hstep hact hnio
    obtain ⟨t, hcore⟩ := tstep_core hstep
    exact (hi.co c).due (step_ret_timedout hcore hact) hnio
  · intro a c p hstep
    obtain ⟨t, hcore⟩ := tstep_core hstep
    obtain ⟨f, lk, hpc, hcode⟩ := step_flip hcore
    have hw : waking (r.core.pc a) = some (f, c) := by rw [hpc]; rfl
    have hf : f ≠ .cancel := by
      rintro rfl
      cases hcode
    obtain ⟨w, rfl⟩ := hi.waker a f c hw hf
    have hok := (hi.co c).callback w f hw
    refine ⟨w, rfl, ?_⟩
    cases f with
    | timer => exact Or.inl hok
    | deadline => exact Or.inr hok
    | cancel => cases hcode
    | deliver => cases hcode
  · intro w c k p hstep
    obtain ⟨m', hf⟩ := tstep_fire hstep
    have hspec := fireExpired_spec hi.heap hf
    obtain ⟨-, hk, -, -, hin, hdue, -⟩ := (hi.co c).call w k hspec.mem
    exact ⟨hk, hin, hdue ▸ hspec.due⟩
  · intro w c k ht
    obtain ⟨-, hk, -, -, hin, -, hne, -⟩ := (hi.co c).call w k ht
    exact ⟨hk, hne, hin⟩
  · intro w c ht
    exact ((hi.co c).deadline w ht).2.1

/-- Coroutine 0 waits in a receive with deadline 5; the clock reaches 5, worker 0 takes the timer from its heap,
and the call is about to return `SUSPENDERS_TIMEDOUT`. -/
theorem no_stale_timeout_receive : ∃ (r : Runtime) (m : Timers),
    Reachable TStep (.init fun _ => (1, 0), .init) (r, m) ∧ r.core.pc (.co 0) = .ret .timedout ∧
      m.heap 0 = [] ∧ m.arg 0 = 5 ∧ m.Due 0 := by
  have h : Reachable TStep (.init fun _ => (1, 0), .init) _ :=
    ⟨_, .cons (.run 0 true (.spawn (c := 0) rfl) trivial) <|
      .cons (.run 0 true (.take (w := 0) (c := 0) ⟨rfl, rfl, rfl, rfl⟩ rfl rfl) trivial) <|
      .cons (.run 5 true (.core (a := .co 0) ⟨0, rfl, rfl⟩ trivial
        (.local rfl (.call (.op (.recv 0 false)) 0 trivial)) ⟨fun _ _ => rfl, fun _ h => by cases h⟩)
        fun h => by cases h) <|
      .cons (.run 0 true (.core (a := .co 0) ⟨0, rfl, rfl⟩ trivial (.local rfl (.preGo 0)) fun _ _ => rfl)
        fun h => by cases h.1) <|
      .cons (.run 0 true (.core (a := .co 0) ⟨0, rfl, rfl⟩ trivial (.crit rfl rfl rfl) trivial) trivial) <|
      .cons (.run 0 true (.core (a := .co 0) ⟨0, rfl, rfl⟩ trivial (.testWaiting rfl rfl rfl) trivial)
        trivial) <|
      .cons (.run 0 true (.core (a := .co 0) ⟨0, rfl, rfl⟩ trivial (.suspend rfl rfl) trivial) trivial) <|
      .cons (.run 0 true (.postSkip (w := 0) ⟨rfl, rfl, rfl, rfl⟩ (Or.inl rfl)) trivial) <|
      .cons (.tick 5) <|
      .cons (.fire (w := 0) ⟨rfl, rfl, rfl, rfl⟩ rfl ⟨rfl, rfl⟩
        (.core (a := .sched 0) rfl (fun _ _ => rfl) (.local rfl (.callback (f := .timer) (t := 0) (by simp)))
          ⟨by simp, rfl, by simp⟩)) <|
      .cons (.run 0 true (.core (a := .sched 0) rfl (fun h => by cases h) (.local rfl (.wakeHit rfl)) trivial)
        (by simp [Timers.Allows])) <|
      .cons (.run 0 true (.core (a := .sched 0) rfl (fun h => by cases h)
        (.flip rfl rfl (fun _ h => by cases h; rfl) rfl) trivial) trivial) <|
      .cons (.run 0 true (.core (a := .sched 0) rfl (fun _ h => by cases h) (.wake rfl) trivial) trivial) <|
      .cons (.run 0 true (.core (a := .sched 0) rfl (fun _ h => by cases h) (.fin rfl) trivial) trivial) <|
      .cons (.run 0 true (.resume (w := 0) (c := 0) ⟨rfl, rfl, rfl, rfl⟩ rfl rfl) trivial) <|
      .cons (.run 0 true (.core (a := .co 0) ⟨0, rfl, rfl⟩ trivial (.testDecided rfl rfl (by decide)) trivial)
        trivial) <|
      .cons (.run 0 true (.core (a := .co 0) ⟨0, rfl, rfl⟩ trivial (.decided rfl rfl rfl rfl) trivial)
        trivial) <| .nil _⟩
  refine ⟨_, _, h, rfl, rfl, rfl, ?_⟩
  exact (no_stale_timeout h).1 0 (.ret .timedout) _
    (.run 0 true (.core (a := .co 0) ⟨0, rfl, rfl⟩ trivial (.local rfl .ret) trivial) trivial) (Or.inl rfl) rfl

end Suspenders.Sched
