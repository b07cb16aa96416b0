import Suspenders.Sched.Cancel
import Suspenders.Sched.Wakeup

/-!
# The delivery of cancel requests

A request reaches a suspended coroutine through its canceler on the same worker, through the inbox, through
`pending_wake`, or through the asynchronous cancel of its io_uring operation.  A coroutine that is past the entry
checks of a call looks at nothing but what these change: the status of its node, `io_result`, and the result of its
operation.  So as long as nothing of this has changed the delivery must be outstanding, from the point on where the
entry checks are passed (`Runtime.Committed`); this is what carries the invariant over the switch.

With the counters of the previous module it follows that in every run without faults each request is delivered and
reported once, and two runs show that the faults are there.
-/

namespace Suspenders.Sched

open Lib Wait

/-! ## Deliveries -/

/-- In a blocking call that a cancel ends, at a place where coroutines are suspended. -/
def cancelAware : Pc → Bool
  | .blk k _ => !k.isRelock
  | .selTest _ | .ioWoke _ | .iouTest => true
  | _ => false

/-- In `suspenders_cancel` for this coroutine, past the store to `cancel_requested`. -/
def canceling : Pc → Option CrId
  | .cancelRoute t | .cancelPush t => some t
  | .wakeTest .cancel t | .wakeLock .cancel t _ | .wakeMiss .cancel t => some t
  | _ => none

/-- The request of coroutine `c` is being delivered. -/
inductive Runtime.Delivering (r : Runtime) (c : CrId) : Prop
  /-- A canceler is at it. -/
  | canceler {a : Ctx} : canceling (r.core.pc a) = some c → r.Delivering c
  /-- Whoever has decided the wait with it has still to wake the coroutine. -/
  | wake {a : Ctx} : (r.core.heap.waits.node (.wq c)).status = .decided .canceled →
      .wake (.wq c) ∈ r.core.work a → r.Delivering c
  /-- The coroutine is in the inbox of its worker, or being delivered from it. -/
  | inbox {w : WorkerId} : r.pin c = some w →
      (c ∈ r.inbox w ∨ c ∈ (r.loop w).draining ∨ r.loop w = .redeliver c ∨
        waking (r.core.pc (.sched w)) = some (.deliver, c)) → r.Delivering c
  /-- It is to be delivered when the coroutine has switched out. -/
  | pending : r.pendingWake c = true → r.Delivering c
  /-- The operation of the coroutine has been canceled. -/
  | async {o : IoOp} : r.op c = some o → o.asyncCancel = true → r.Delivering c

/-! ## Committed coroutines -/

/-- The operations that may park their caller. -/
def blocks : Op → Bool
  | .send _ _ tryOnly | .recv _ tryOnly => !tryOnly
  | .lock _ | .lockRaw _ | .rdlock _ | .wrlock _ | .condPark _ | .wgWait _ => true
  | _ => false

/-- Past the entry checks and bound to suspend, or suspended, for all that the status of the node, the state of
the coroutine, `io_result` and the operation say. -/
def committed (st : Status) (x : Life) (io : IoResult) (op : Option IoOp) : Pc → Prop
  | .cs o k => k.isRelock = false ∧ (blocks o = true ∨ (k.IsCondUnlock ∧ st = .waiting))
  | .sleep | .selScan _ _ | .selInit _ | .selSusp _ | .ioTry _ | .ioSusp _ | .iouSubmit => True
  | .blk k _ => k.isRelock = false ∧ (st = .waiting ∨ x = .suspended)
  | .susp k _ => k.isRelock = false
  | .selReg _ _ | .selUnreg _ _ _ _ | .selRescan _ _ => st = .waiting
  | .selTest _ => st = .waiting ∨ x = .suspended
  | .ioWoke again => x = .suspended ∨ (again = true ∧ io = .ready)
  | .iouTest | .iouSusp => ∃ o, op = some o ∧ o.asyncCancel = false ∧ o.result = none
  | _ => False

/-- Coroutine `c` is committed to a suspension. -/
def Runtime.Committed (r : Runtime) (c : CrId) : Prop :=
  committed (r.core.heap.waits.node (.wq c)).status (r.life c) (r.ioResult c) (r.op c) (r.core.pc (.co c))

lemma committed_mono {st st' : Status} {x x' : Life} {io io' : IoResult} {op op' : Option IoOp} {pc : Pc}
    (hst : st' = .waiting → st = .waiting) (hx : x' = .suspended → x = .suspended)
    (hio : io' = .ready → io = .ready)
    (hop : ∀ o, op' = some o → o.asyncCancel = false → o.result = none → op = some o)
    (h : committed st' x' io' op' pc) : committed st x io op pc := by
  cases pc with
  | cs o k => exact ⟨h.1, h.2.imp_right fun hk => ⟨hk.1, hst hk.2⟩⟩
  | blk k l => exact ⟨h.1, h.2.imp hst hx⟩
  | selTest => exact Or.imp hst hx h
  | ioWoke again => exact Or.imp hx (fun ha => ⟨ha.1, hio ha.2⟩) h
  | iouTest | iouSusp =>
    obtain ⟨o, ho, hasync, hres⟩ := h
    exact ⟨o, hop o ho hasync hres, hasync, hres⟩
  | selReg | selUnreg | selRescan => exact hst h
  | _ => exact h

section Committed

variable {st : Status} {x : Life} {io : IoResult} {op : Option IoOp}

/-- What a call goes on with is an entry check, a lock that no cancel ends, or the end. -/
lemma not_committed_after {k : Frame} (hk : ¬ k.IsCondUnlock) (code : Code) :
    ¬ committed st x io op (k.after code) := by
  cases k with
  | condUnlock => exact absurd trivial hk
  | relock | queueSubmit | queueWait =>
    simp only [Frame.after]
    split <;> simp [committed, Frame.isRelock]
  | _ => simp [Frame.after, committed, Frame.isRelock]

lemma not_committed_entry {h : Heap} {api : Api} (hv : api.Valid h) (c : CrId) (n : ℕ) :
    ¬ committed st x io op (api.entry (.co c) n) := by
  cases api with
  | op o =>
    cases o with
    | lockRaw | condPark => exact absurd hv id
    | send _ _ b | recv _ b =>
      cases b <;> simp [Api.entry, committed, blocks, Frame.IsCondUnlock]
    | _ => simp [Api.entry, committed, blocks, Frame.IsCondUnlock]
  | select ops =>
    simp only [Api.entry]
    split <;> exact id
  | _ => simp [Api.entry, committed, blocks, Frame.IsCondUnlock]

lemma not_committed_fail {e : Entry} (hok : (Pc.pre e).Ok) (code : Code) :
    ¬ committed st x io op (e.fail code) := by
  cases e with
  | op o k => exact not_committed_after (not_condUnlock_of_ok hok) code
  | _ => exact id

end Committed

/-- Whoever parks is in an operation that may. -/
lemma blocks_of_park {h : Heap} (hw : h.waits.WF) {a : Ctx} {op : Op} {l : ListId} {data : Bytes} {writer : Bool}
    (hres : (exec h a op).2.res = .park l data writer) : blocks op = true := by
  rcases exec_park_cases hw hres with ⟨ch, c, rfl, -⟩ | ⟨ch, c, rfl, -⟩ | ⟨hop, -⟩
  · rfl
  · rfl
  · cases op <;> first | rfl | cases hop

/-! ## Steps of the wait protocol -/

section Core

variable {r : Runtime} {a : Ctx} {act : Act} {s : Core} {c : CrId}

/-- A running coroutine is not suspended by anything but `suspenders_suspend`. -/
lemma SchedInv.not_suspended (h : SchedInv r) (hactive : r.Active (.co c)) (hact : act ≠ .suspend) (pc pc' : Pc) :
    (r.effect (.co c) pc act pc').life c ≠ .suspended := by
  have hrun := (h.active_iff c).mp hactive
  rcases (Nudged.effect r (.co c) pc hact pc').life c with hl | ⟨hl, -⟩
  · rw [hl, hrun]
    simp
  · rw [hrun] at hl
    cases hl

/-- The only way to be committed that does not go on from one is to pass the entry checks, which takes the request. -/
lemma committed_self (hinv : Inv r.core) (hs : SchedInv r) (hactive : r.Active (.co c))
    (hstep : Step r.core ⟨.co c, act⟩ s)
    (hguard : r.Guard (.co c) (r.core.pc (.co c)) act (s.pc (.co c))) (hreq : r.cancelReq c = true)
    (h : Runtime.Committed { r.effect (.co c) (r.core.pc (.co c)) act (s.pc (.co c)) with core := s } c) :
    r.Committed c := by
  have hself := step_self_decides hinv hstep
  have hok := hinv.ok (.co c)
  have hlife : act ≠ .suspend → (r.effect (.co c) (r.core.pc (.co c)) act (s.pc (.co c))).life c ≠ .suspended :=
    fun hact => hs.not_suspended hactive hact _ _
  unfold Runtime.Committed at h ⊢
  cases hstep with
  | «local» _ hl =>
    simp only [Core.setPc_pc_self, Core.setPc_heap] at h hguard hlife
    generalize r.core.pc (.co c) = pc at hl hok hguard hlife h ⊢
    cases hl with
    | call api n hv => exact absurd h (not_committed_entry hv c n)
    | preCanceled | preExpired => exact absurd h (not_committed_fail hok _)
    | preGo n =>
      have hno := hguard c rfl
      rw [hreq] at hno
      cases hno
    | scanEnd | ioRegister | ioSuspend | iouSubmit => trivial
    | @ioReady _ again =>
      cases again with
      | true => exact Or.inr ⟨rfl, hguard⟩
      | false => cases h
    | iouWait => exact h
    | iouSuspend =>
      obtain ⟨o, ho, hrest⟩ := h
      exact ⟨o, by rw [← (sameFlags_switchOut r (.co c) .suspended).op]; exact ho, hrest⟩
    | wakeGiveUp => split at h <;> cases h
    | _ => cases h
  | @crit _ o k hpc _ _ =>
    have hkeep := (exec_effect hinv.wf (.co c) o).granted.wq_of_not_mem hself
    have hnot := hlife (by simp)
    rw [hpc] at hok ⊢
    cases hres : (exec r.core.heap (.co c) o).2.res with
    | ret code =>
      simp only [critical, hres, Frame.next, Core.setHeld_pc, Core.setWork_pc, Core.setPc_pc_self,
        Core.setHeld_heap, Core.setWork_heap, Core.setPc_heap, Heap.parkAs, hkeep] at h hnot
      by_cases hk : k.IsCondUnlock
      · cases k <;> cases hk
        exact ⟨rfl, Or.inr ⟨trivial, h.2.resolve_right hnot⟩⟩
      · exact absurd h (not_committed_after hk code)
    | park l data writer =>
      have hblocks := blocks_of_park hinv.wf hres
      simp only [critical, hres, Frame.next, Core.setHeld_pc, Core.setWork_pc, Core.setPc_pc_self] at h
      refine ⟨?_, Or.inl hblocks⟩
      cases k <;> first | rfl | exact h.1
  | @decided _ k l st hpc _ _ _ =>
    rw [hpc] at hok
    rw [Core.setPc_pc_self] at h
    exact absurd h (not_committed_after hok st)
  | @wake _ n =>
    have hsame : SameFlags r (r.wakeNoPreempt (r.workerOf (.co c)) n.cr) := sameFlags_wakeNoPreempt _ _ _
    refine committed_mono id (fun hx => absurd hx (hlife (by simp))) (fun hio => ?_) (fun o ho _ _ => ?_) h
    · rw [← hsame.io]
      exact hio
    · rw [← hsame.op]
      exact ho
  | unlock => exact h
  | @fin _ n =>
    refine committed_mono (fun hst => ?_) id id (fun _ ho _ _ => ho) h
    simpa using hst
  | testWaiting hpc _ hst =>
    rw [hpc]
    rw [Core.setPc_pc_self] at h
    exact ⟨h, Or.inl hst⟩
  | testDecided =>
    rw [Core.setPc_pc_self] at h
    cases h
  | suspend hpc _ =>
    rw [hpc]
    rw [Core.setPc_pc_self] at h
    exact h.1
  | sleepPark hpc _ | selTry hpc _ _ _ | selInit hpc _ | selSuspend hpc _ =>
    rw [hpc]
    trivial
  | flip =>
    simp only [Core.setWork_pc, Core.setPc_pc_self] at h
    split at h <;> cases h
  | selWaiting hpc _ _ hst =>
    rw [hpc]
    exact Or.inl hst
  | selAgain _ hpc _ _ hst =>
    rw [hpc]
    exact hst
  | selReady hpc _ _ _ _ =>
    rw [hpc]
    rw [Core.setPc_pc_self] at h
    exact h
  | selRegEnd hpc _ =>
    have hnot := hlife (by simp)
    rw [hpc]
    rw [Core.setPc_pc_self] at h hnot
    exact h.resolve_right hnot
  | selDecided hpc _ _ =>
    rw [hpc]
    rw [Core.setPc_pc_self] at h
    exact Or.inl h
  | selRescanEnd hpc _ =>
    rw [hpc]
    rw [Core.setPc_pc_self] at h
    exact h
  | selPark hpc _ _ _ _ =>
    rw [hpc]
    simpa [committed, Waits.park] using h
  | @selUnreg _ _ _ j _ _ hpc _ _ _ _ =>
    have hother := (Waits.unregister_spec hinv.wf (.sel c j)).2.2.1 (.wq c) (by simp)
    rw [hpc]
    simpa [committed, hother] using h
  | selRetry hpc _ _ _ =>
    have hkeep := (exec_effect hinv.wf (.co c) _).granted.wq_of_not_mem hself
    rw [hpc]
    simp only [Core.setWork_pc, Core.setPc_pc_self, Core.setWork_heap, Core.setPc_heap, hkeep] at h
    split at h
    · cases h
    · exact h
  | selLeave | selSync | selSync2 | selWon | selScanned | selFailed =>
    rw [Core.setPc_pc_self] at h
    cases h

/-- Nobody else makes a wait undecided. -/
lemma waiting_other (hf : Footprint r.core ⟨a, act⟩ s) (hne : a ≠ .co c)
    (h : (s.heap.waits.node (.wq c)).status = .waiting) : (r.core.heap.waits.node (.wq c)).status = .waiting := by
  by_cases hmem : .wq c ∈ act.decides
  · exact (hf.waits.decided _ hmem).1
  · rw [← (hf.waits.kept _ hmem hne).1]
    exact h

/-- Nobody else commits a coroutine. -/
lemma committed_other (hf : Footprint r.core ⟨a, act⟩ s) (hne : a ≠ .co c)
    (h : Runtime.Committed { r.effect a (r.core.pc a) act (s.pc a) with core := s } c) : r.Committed c := by
  have htold : Told r a c (r.core.pc a) act (r.effect a (r.core.pc a) act (s.pc a)) := told_effect _ _ _
  have hpc : s.pc (.co c) = r.core.pc (.co c) := hf.pc _ (Ne.symm hne)
  unfold Runtime.Committed at h ⊢
  simp only [hpc] at h
  refine committed_mono (waiting_other hf hne) (effect_suspended hne) (fun hio => ?_) (fun o ho hasync _ => ?_) h
  · rcases htold.io hne with heq | heq | ⟨heq, -⟩
    · rw [← heq]
      exact hio
    · rw [heq] at hio
      cases hio
    · rw [heq] at hio
      cases hio
  · rcases htold.op (Or.inl hne) with heq | ⟨o', -, heq⟩
    · rw [← heq]
      exact ho
    · rw [heq] at ho
      obtain rfl := Option.some.inj ho
      cases hasync

/-! ## Notices -/

/-- The delivery of a request to a coroutine that is committed. -/
inductive Runtime.Notice (r : Runtime) (c : CrId) : Prop
  /-- The canceler has still to look at the worker, -/
  | route {a : Ctx} : r.core.pc a = .cancelRoute c → r.Notice c
  /-- to push, -/
  | push {a : Ctx} : r.core.pc a = .cancelPush c → r.Notice c
  /-- or it is, as the scheduler may be, in `s_waiter_wake` on the worker of the coroutine. -/
  | waking {a : Ctx} {f : WakeFor} {w : WorkerId} : waking (r.core.pc a) = some (f, c) → f.code = .canceled →
      r.pin c = some w → r.workerOf a = some w →
      (r.core.pc a = .wakeMiss f c → (r.core.heap.waits.node (.wq c)).status ≠ .waiting) → r.Notice c
  /-- It has decided the wait and has still to make its wake. -/
  | wake {a : Ctx} : a ≠ .co c → inLoop (r.core.pc (.co c)) = true →
      (r.core.heap.waits.node (.wq c)).status = .decided .canceled → .wake (.wq c) ∈ r.core.work a → r.Notice c
  /-- The coroutine is in the inbox of its worker, or being drained from it. -/
  | inbox {w : WorkerId} : r.pin c = some w →
      (c ∈ r.inbox w ∨ c ∈ (r.loop w).draining ∨ r.loop w = .redeliver c) → r.Notice c
  /-- It is to be delivered when the coroutine has switched out. -/
  | pending : r.pendingWake c = true → r.Notice c

lemma Runtime.Notice.delivering (h : r.Notice c) (hreq : RequestOk r c) : r.Delivering c := by
  cases h with
  | route ha | push ha => exact .canceler (by rw [ha]; rfl)
  | @waking a f w hwaking hcode hpin hworker _ =>
    cases f with
    | cancel =>
      refine .canceler (a := a) ?_
      generalize r.core.pc a = pc at hwaking
      cases pc <;> simp [Sched.waking] at hwaking <;> simp [canceling, hwaking]
    | deliver =>
      obtain ⟨⟨w', rfl⟩, -⟩ := hreq.deliver a hwaking
      obtain rfl : w' = w := by simpa [Runtime.workerOf] using hworker
      exact .inbox hpin (Or.inr (Or.inr (Or.inr hwaking)))
    | _ => cases hcode
  | wake _ _ hst hwake => exact .wake hst hwake
  | inbox hpin hin => exact .inbox hpin (by tauto)
  | pending hp => exact .pending hp

/-- Whoever is in `s_waiter_wake` on a worker keeps the others of that worker from running. -/
lemma SchedInv.waking_alone (h : SchedInv r) {f : WakeFor} {t : CrId} {w : WorkerId}
    (hwaking : waking (r.core.pc a) = some (f, t)) (hworker : r.workerOf a = some w) (hpin : r.pin c = some w)
    (hne : a ≠ .co c) : ¬ r.Active (.co c) := by
  rintro ⟨w', hpin', hrun⟩
  obtain rfl : w = w' := Option.some.inj (hpin.symm.trans hpin')
  cases a with
  | co b =>
    have hb : r.life b = .running := by
      by_contra hx
      have hplace := h.place b
      generalize r.core.pc (.co b) = pc at hwaking hplace
      cases hl : r.life b <;> rw [hl] at hplace <;>
        first | exact hx hl | (cases pc <;> simp [Life.Place, atRest, canYield, waking] at hplace hwaking)
    obtain ⟨w', hpinb, hrunb⟩ := h.running b hb
    obtain rfl : w = w' := Option.some.inj (hworker.symm.trans hpinb)
    rw [hrun] at hrunb
    exact hne (congrArg _ (Option.some.inj hrunb).symm)
  | sched w₀ =>
    obtain rfl : w₀ = w := by simpa [Runtime.workerOf] using hworker
    rw [(h.rest w₀ c hrun).2.1] at hwaking
    cases hwaking
  | ext f => cases hworker

/-- Whoever is committed has a worker. -/
lemma SchedInv.committed_pinned (h : SchedInv r) (hc : r.Committed c) : ∃ w, r.pin c = some w := by
  cases hpin : r.pin c with
  | some w => exact ⟨w, rfl⟩
  | none =>
    have hidle := (h.fresh c hpin).1
    simp [Runtime.Committed, hidle, committed] at hc

/-- What a committed coroutine in a wait loop waits for if its wait is decided is the wake. -/
lemma Runtime.Committed.exposed (h : r.Committed c) (hin : inLoop (r.core.pc (.co c)) = true)
    (hst : (r.core.heap.waits.node (.wq c)).status ≠ .waiting) : r.Exposed c := by
  unfold Runtime.Committed at h
  unfold Runtime.Exposed
  generalize r.core.pc (.co c) = pc at h hin ⊢
  cases pc with
  | blk k l => exact Or.inl ⟨h.2.resolve_left hst, rfl⟩
  | selTest ops => exact Or.inl ⟨Or.resolve_left h hst, rfl⟩
  | susp | selSusp => exact Or.inr rfl
  | _ => cases hin

/-- Only in a wait loop does a committed coroutine have its wait decided. -/
lemma inLoop_of_committed {st : Status} {x : Life} {io : IoResult} {op : Option IoOp} {pc : Pc} (hok : pc.Ok)
    (hwait : pc.waitOn ≠ none) (hst : st ≠ .waiting) (h : committed st x io op pc) : inLoop pc = true := by
  cases pc with
  | cs o k =>
    cases k with
    | condUnlock m v =>
      obtain rfl : o = .unlock m := hok
      rcases h.2 with hb | ⟨-, hst'⟩
      · cases hb
      · exact absurd hst' hst
    | _ => exact absurd rfl hwait
  | blk | susp | selTest | selSusp => rfl
  | selReg | selUnreg | selRescan => exact absurd h hst
  | sync | selSync | selSync2 | selFin => exact False.elim h
  | _ => exact absurd rfl hwait

/-- A canceler on the worker of a suspended coroutine. -/
lemma cancelIo_suspended {me : Option WorkerId} (hpin : r.pin c = me) (hlife : r.life c = .suspended) :
    (∀ o, (r.cancelIo me c).op c = some o → o.asyncCancel = true) ∧
      (r.op c = none → (r.cancelIo me c).life c = .ready ∧ (r.cancelIo me c).ioResult c = .canceled) := by
  subst hpin
  cases hop : r.op c with
  | none =>
    simp [Runtime.cancelIo, Runtime.wakeNoPreempt, Runtime.setLife, hlife, hop]
  | some o => simp [Runtime.cancelIo, Runtime.iouCancel, hlife, hop]

/-- `s_inbox_deliver` with a pending cancel. -/
lemma deliverCancel_spec (r : Runtime) (c : CrId) :
    (∀ o, (r.deliverCancel c).op c = some o → o.asyncCancel = true) ∧
      (r.op c = none → r.life c = .suspended →
        (r.deliverCancel c).life c = .ready ∧ (r.deliverCancel c).ioResult c = .canceled) ∧
      (r.op c = none → r.life c ≠ .suspended → r.life c ≠ .done →
        (r.deliverCancel c).life c = r.life c ∧ (r.deliverCancel c).pendingWake c = true) := by
  cases hop : r.op c with
  | none =>
    by_cases hs : r.life c = .suspended
    · simp [Runtime.deliverCancel, Runtime.setLife, hop, hs]
    · by_cases hd : r.life c = .done <;> simp [Runtime.deliverCancel, hop, hs, hd]
  | some o => simp [Runtime.deliverCancel, Runtime.iouCancel, hop]

/-- Where a coroutine that does not run can be committed. -/
lemma SchedInv.committed_resting (h : SchedInv r) (hlife : r.life c ≠ .running) {st : Status} {x : Life}
    {io : IoResult} {op : Option IoOp} (hc : committed st x io op (r.core.pc (.co c))) :
    (r.life c = .ready ∨ r.life c = .suspended) ∧
      ((∃ k l, r.core.pc (.co c) = .blk k l) ∨ (∃ ops, r.core.pc (.co c) = .selTest ops) ∨
        (∃ again, r.core.pc (.co c) = .ioWoke again) ∨ r.core.pc (.co c) = .iouTest) := by
  have hplace := h.place c
  generalize r.core.pc (.co c) = pc at hc hplace
  cases hl : r.life c with
  | running => exact absurd hl hlife
  | unborn | done =>
    rw [hl] at hplace
    obtain rfl : pc = .idle := hplace
    cases hc
  | ready | suspended =>
    rw [hl] at hplace
    cases pc <;> simp [Life.Place, atRest, canYield, committed] at hplace hc ⊢

/-- Such a coroutine is not committed any more when it has been told in one of the ways. -/
lemma not_committed_told {st : Status} {x : Life} {io : IoResult} {op : Option IoOp} {pc : Pc}
    (hpc : (∃ k l, pc = .blk k l) ∨ (∃ ops, pc = .selTest ops) ∨ (∃ again, pc = .ioWoke again) ∨ pc = .iouTest)
    (hst : st ≠ .waiting) (hwoken : pc ≠ .iouTest → x ≠ .suspended ∧ io ≠ .ready)
    (hop : ∀ o, op = some o → o.asyncCancel = true) : ¬ committed st x io op pc := by
  rcases hpc with ⟨k, l, rfl⟩ | ⟨ops, rfl⟩ | ⟨again, rfl⟩ | rfl
  · rintro ⟨-, h⟩
    exact h.elim hst (hwoken (by simp)).1
  · exact fun h => Or.elim h hst (hwoken (by simp)).1
  · exact fun h => Or.elim h (hwoken (by simp)).1 fun ha => (hwoken (by simp)).2 ha.2
  · rintro ⟨o, ho, hasync, -⟩
    rw [hop o ho] at hasync
    cases hasync

/-- A delivery that finds no wait to decide ends the suspension another way, or leaves a pending wake. -/
lemma SchedInv.missed (h : SchedInv r) {f : WakeFor} (hcode : f.code = .canceled)
    (hmiss : r.core.pc a = .wakeMiss f c) (hpin : r.pin c = r.workerOf a) (hlife : r.life c ≠ .running)
    (hreq : r.cancelReq c = true) (hfault : ¬ r.Faults (.core ⟨a, .waker⟩))
    (hpc : s.pc (.co c) = r.core.pc (.co c)) (hst : (s.heap.waits.node (.wq c)).status ≠ .waiting)
    (hnew : Runtime.Committed { r.wakerEffect a (.wakeMiss f c) with core := s } c) :
    Runtime.Notice { r.wakerEffect a (.wakeMiss f c) with core := s } c := by
  unfold Runtime.Committed at hnew
  simp only [hpc] at hnew
  obtain ⟨hrest, hplace⟩ := h.committed_resting hlife hnew
  have hop : r.core.pc (.co c) ≠ .iouTest → r.op c = none := by
    intro hne
    rw [h.op c]
    rcases hplace with ⟨k, l, heq⟩ | ⟨ops, heq⟩ | ⟨again, heq⟩ | heq <;> first | (rw [heq]; rfl) | exact absurd heq hne
  cases f with
  | cancel =>
    exfalso
    by_cases hs : r.life c = .suspended
    · obtain ⟨hasync, hready⟩ := cancelIo_suspended hpin hs
      refine not_committed_told hplace hst (fun hne => ?_) hasync hnew
      obtain ⟨hl, hio⟩ := hready (hop hne)
      exact ⟨by rw [Runtime.wakerEffect, hl]; simp, by rw [Runtime.wakerEffect, hio]; simp⟩
    · -- the canceler looks at nothing else
      have heff : r.wakerEffect a (.wakeMiss .cancel c) = r := by simp [Runtime.wakerEffect, Runtime.cancelIo, hs]
      refine hfault (.skipped hmiss hpin hreq (hrest.resolve_right hs) ?_)
      rw [heff] at hnew
      rcases hplace with ⟨k, l, heq⟩ | ⟨ops, heq⟩ | ⟨again, heq⟩ | heq <;> rw [heq] at hnew
      · exact (hnew.2.elim hst hs).elim
      · exact (Or.elim hnew hst hs).elim
      · obtain ⟨rfl, hio⟩ := Or.resolve_left hnew hs
        exact Or.inl ⟨heq, hio⟩
      · exact Or.inr ⟨heq, hnew⟩
  | deliver =>
    obtain ⟨hasync, hready, hpend⟩ := deliverCancel_spec r c
    by_cases hiou : r.core.pc (.co c) = .iouTest
    · exact absurd hnew (not_committed_told hplace hst (fun hne => absurd hiou hne) hasync)
    · rcases hrest with hl | hs
      · exact .pending (hpend (hop hiou) (by simp [hl]) (by simp [hl])).2
      · refine absurd hnew (not_committed_told hplace hst (fun hne => ?_) hasync)
        obtain ⟨hl, hio⟩ := hready (hop hne) hs
        exact ⟨by rw [Runtime.wakerEffect, hl]; simp, by rw [Runtime.wakerEffect, hio]; simp⟩
  | _ => cases hcode

/-- `suspenders_cancel` reads the worker of its target, -/
lemma step_route {s t : Core} (hstep : Step s ⟨a, act⟩ t) (hpc : s.pc a = .cancelRoute c) :
    t.pc a = .cancelRoute c ∨
      (act = .route ∧ (t.pc a = .wakeTest .cancel c ∨ t.pc a = .cancelPush c)) := by
  cases hstep with
  | «local» _ hl =>
    rw [Core.setPc_pc_self]
    rw [hpc] at hl
    cases hl with
    | routeLocal => exact Or.inr ⟨rfl, Or.inl rfl⟩
    | routeRemote => exact Or.inr ⟨rfl, Or.inr rfl⟩
  | wake | unlock | fin => exact Or.inl hpc
  | _ => simp_all

/-- and pushes it to the inbox of that worker. -/
lemma step_push {s t : Core} (hstep : Step s ⟨a, act⟩ t) (hpc : s.pc a = .cancelPush c) :
    t.pc a = .cancelPush c ∨ act = .waker := by
  cases hstep with
  | «local» _ hl =>
    rw [hpc] at hl
    cases hl
    exact Or.inr rfl
  | wake | unlock | fin => exact Or.inl hpc
  | _ => simp_all

/-- The delivery goes on while others act, until it has ended the suspension. -/
lemma Runtime.Notice.other (hn : r.Notice c) (hinv : Inv r.core) (h : SchedInv r) (hactive : r.Active a)
    (hf : Footprint r.core ⟨a, act⟩ s) (hstep : Step r.core ⟨a, act⟩ s)
    (hguard : r.Guard a (r.core.pc a) act (s.pc a)) (hfault : ¬ r.Faults (.core ⟨a, act⟩)) (hne : a ≠ .co c)
    (hreq : r.cancelReq c = true)
    (hnew : Runtime.Committed { r.effect a (r.core.pc a) act (s.pc a) with core := s } c) :
    Runtime.Notice { r.effect a (r.core.pc a) act (s.pc a) with core := s } c := by
  have hold : r.Committed c := committed_other hf hne hnew
  have hpc : s.pc (.co c) = r.core.pc (.co c) := hf.pc _ (Ne.symm hne)
  have hpinned : (r.effect a (r.core.pc a) act (s.pc a)).pin = r.pin := effect_pin _ _ _ _ _
  obtain ⟨w, hpin⟩ := h.committed_pinned hold
  -- a decided wait keeps its status
  have hkept : (r.core.heap.waits.node (.wq c)).status ≠ .waiting →
      (s.heap.waits.node (.wq c)).status = (r.core.heap.waits.node (.wq c)).status := by
    intro hst
    have hmem : .wq c ∉ act.decides := fun hmem => hst (hf.waits.decided _ hmem).1
    exact (hf.waits.kept _ hmem hne).1
  have hloop : ∀ {w' : WorkerId}, (c ∈ (r.loop w').draining ∨ r.loop w' = .redeliver c) →
      (r.effect a (r.core.pc a) act (s.pc a)).loop w' = r.loop w' := by
    intro w' hin
    refine h.effect_loop hactive _ _ _ fun htop => ?_
    rw [htop] at hin
    rcases hin with hin | hin <;> cases hin
  cases hn with
  | @route b hb =>
    by_cases hba : b = a
    · subst hba
      rcases step_route hstep hb with hsame | ⟨rfl, hto | hto⟩
      · exact .route hsame
      · rw [hb, hto] at hguard
        have hw : r.pin c = r.workerOf b := by
          refine Or.resolve_left hguard fun hnone => ?_
          rw [hpin] at hnone
          cases hnone
        refine .waking (a := b) (f := .cancel) (w := w) (by rw [hto]; rfl) rfl (by rw [hpinned, hpin]) ?_
          fun hmiss => by rw [hto] at hmiss; cases hmiss
        rw [← hpin, hw]
        cases b <;> simp [Runtime.workerOf, hpinned]
      · exact .push hto
    · exact .route (by rw [hf.pc b hba]; exact hb)
  | @push b hb =>
    by_cases hba : b = a
    · subst hba
      rcases step_push hstep hb with hsame | rfl
      · exact .push hsame
      · have heff : r.effect b (r.core.pc b) .waker (s.pc b) = r.inboxWake c := by
          rw [hb]
          rfl
        refine .inbox (w := w) (by rw [hpinned, hpin]) ((h.pushed hpin).imp (fun hin => ?_) fun hd => Or.inl ?_)
        · rw [heff]
          exact hin
        · rw [hloop (Or.inl hd)]
          exact hd
    · exact .push (by rw [hf.pc b hba]; exact hb)
  | @waking b f w' hwaking hcode hpin' hworker hmiss =>
    have hworker' : Runtime.workerOf { r.effect a (r.core.pc a) act (s.pc a) with core := s } b = some w' := by
      rw [← hworker]
      cases b <;> simp [Runtime.workerOf, hpinned]
    have hpin'' : (r.effect a (r.core.pc a) act (s.pc a)).pin c = some w' := by rw [hpinned, hpin']
    by_cases hba : b = a
    · subst hba
      rcases step_waker hstep hwaking with ⟨hstay, hto⟩ | ⟨rfl, hat⟩ | rfl
      · refine .waking hstay hcode hpin'' hworker' fun heq hwait => ?_
        rcases hto heq with hat | hst
        · exact hmiss hat (waiting_other hf hne hwait)
        · exact hst hwait
      · have hlife : r.life c ≠ .running := fun hrun =>
          h.waking_alone hwaking hworker hpin' hne (h.running c hrun)
        rw [hat] at hnew ⊢
        exact h.missed hcode hat (hpin'.trans hworker.symm) hlife hreq hfault hpc
          (fun hwait => hmiss hat (waiting_other hf hne hwait)) hnew
      · have hmem : .wq c ∈ (Act.flip c f.code).decides := by simp [Act.decides]
        obtain ⟨hwait, hst, -⟩ := hf.waits.decided _ hmem
        have hdec : (s.heap.waits.node (.wq c)).status = .decided .canceled := by
          rw [hst, ← hcode]
          rfl
        have hin : inLoop (r.core.pc (.co c)) = true := by
          unfold Runtime.Committed at hnew
          simp only [hpc] at hnew
          refine inLoop_of_committed (hinv.ok (.co c)) (fun hout => ?_) (by rw [hdec]; simp) hnew
          exact ((hinv.node c).out hout).2 hwait
        exact .wake hne (by rw [hpc]; exact hin) hdec (step_wake_pending hstep hmem)
    · refine .waking (by rw [hf.pc b hba]; exact hwaking) hcode hpin'' hworker' fun heq hwait => ?_
      rw [hf.pc b hba] at heq
      exact hmiss heq (waiting_other hf hne hwait)
  | @wake b hb hin hst hwake =>
    have hdec : (r.core.heap.waits.node (.wq c)).status ≠ .waiting := by simp [hst]
    have hst' := (hkept hdec).trans hst
    rcases step_wake_kept hf hstep hwake with hk | ⟨rfl, hact⟩
    · exact .wake hb (by rw [hpc]; exact hin) hst' hk
    · obtain rfl : act = .wake (.wq c) := hact
      have hexp := hnew.exposed (by rw [hpc]; exact hin) (by simp [hst'])
      rcases h.woken_exposed hactive hne (hold.exposed hin hdec) with hready | ⟨w', hp, hin'⟩
      · exact absurd hready (h.exposed_not_ready (Nudged.wakeNoPreempt r _ _) hpc hexp)
      · refine .inbox (w := w') (by rw [hpinned, hp]) (hin'.imp id fun hd => Or.inl ?_)
        rw [hloop (Or.inl hd)]
        exact hd
  | @inbox w' hpin' hin =>
    refine .inbox (w := w') (by rw [hpinned, hpin']) (hin.imp (effect_inbox r a _ act _) fun hin => ?_)
    rw [hloop hin]
    exact hin
  | pending hp => exact .pending ((told_effect _ _ _ : Told r a c _ act _).pending hp)

/-- In a wait loop whose wait is decided a committed coroutine can only suspend. -/
lemma step_decided_loop {t : Core} {x : Life} {io : IoResult} {op : Option IoOp}
    (hstep : Step s ⟨.co c, act⟩ t) (hin : inLoop (s.pc (.co c)) = true)
    (hst : (s.heap.waits.node (.wq c)).status ≠ .waiting)
    (hnew : committed (t.heap.waits.node (.wq c)).status x io op (t.pc (.co c))) :
    inLoop (t.pc (.co c)) = true ∧
      (t.heap.waits.node (.wq c)).status = (s.heap.waits.node (.wq c)).status := by
  cases hstep with
  | «local» _ hl =>
    generalize s.pc (.co c) = pc at hl hin
    cases hl <;> cases hin
  | wake | unlock => exact ⟨hin, rfl⟩
  | @fin _ n _ _ =>
    exact ⟨hin, by simp⟩
  | testWaiting _ _ hwait | selWaiting _ _ _ hwait => exact absurd hwait hst
  | testDecided | selDecided =>
    rw [Core.setPc_pc_self] at hnew
    first | exact absurd hnew hst | cases hnew
  | suspend | selSuspend => exact ⟨by simp [inLoop], rfl⟩
  | crit hpc _ _ | decided hpc _ _ _ | sleepPark hpc _ | flip hpc _ _ _ | selTry hpc _ _ _ | selInit hpc _
  | selReady hpc _ _ _ _ | selPark hpc _ _ _ _ | selRegEnd hpc _ | selUnreg hpc _ _ _ _ | selLeave hpc _ _
  | selAgain _ hpc _ _ _ | selRetry hpc _ _ _ | selRescanEnd hpc _ | selSync hpc _ _ | selSync2 hpc _ _
  | selWon hpc _ | selScanned hpc _ | selFailed hpc _ _ =>
    rw [hpc] at hin
    cases hin

/-- A committed coroutine is in none of the places of a canceler. -/
lemma Runtime.Committed.ne {b : Ctx} (h : r.Committed c)
    (hb : waking (r.core.pc b) ≠ none ∨ r.core.pc b = .cancelRoute c ∨ r.core.pc b = .cancelPush c) :
    b ≠ .co c := by
  rintro rfl
  unfold Runtime.Committed at h
  generalize r.core.pc (.co c) = pc at h hb
  cases pc <;> simp [waking, committed] at hb h

/-- The coroutine's own steps do not hold a delivery up. -/
lemma Runtime.Notice.self (hn : r.Notice c) (hinv : Inv r.core) (h : SchedInv r) (hactive : r.Active (.co c))
    (hstep : Step r.core ⟨.co c, act⟩ s) (hold : r.Committed c)
    (hnew : Runtime.Committed { r.effect (.co c) (r.core.pc (.co c)) act (s.pc (.co c)) with core := s } c) :
    Runtime.Notice { r.effect (.co c) (r.core.pc (.co c)) act (s.pc (.co c)) with core := s } c := by
  have hf := step_footprint hinv hstep
  have hpinned : (r.effect (.co c) (r.core.pc (.co c)) act (s.pc (.co c))).pin = r.pin := effect_pin _ _ _ _ _
  cases hn with
  | @route b hb => exact .route (by rw [hf.pc b (hold.ne (Or.inr (Or.inl hb)))]; exact hb)
  | @push b hb => exact .push (by rw [hf.pc b (hold.ne (Or.inr (Or.inr hb)))]; exact hb)
  | @waking b f w hwaking _ hpin hworker _ =>
    exact absurd hactive (h.waking_alone hwaking hworker hpin (hold.ne (Or.inl (by simp [hwaking]))))
  | @wake b hb hin hst hwake =>
    obtain ⟨hin', hst'⟩ := step_decided_loop hstep hin (by simp [hst]) hnew
    rcases step_wake_kept hf hstep hwake with hk | ⟨rfl, -⟩
    · exact .wake hb hin' (hst'.trans hst) hk
    · exact absurd rfl hb
  | @inbox w hpin hin =>
    refine .inbox (w := w) (by rw [hpinned, hpin]) (hin.imp (effect_inbox r _ _ act _) fun hin => ?_)
    rw [h.effect_loop hactive _ _ _ fun htop => by rw [htop] at hin; rcases hin with hin | hin <;> cases hin]
    exact hin
  | pending hp => exact .pending ((told_effect _ _ _ : Told r (.co c) c _ act _).pending hp)

end Core

/-! ## The scheduler loops -/

section Loop

variable {r r' : Runtime} {e : Ev} {c : CrId}

/-- Outside the wait protocol nobody is suspended in a call. -/
lemma rstep_suspended (hstep : RStep r e r') (he : ∀ e', e ≠ .core e') (hx : r'.life c = .suspended) :
    r.life c = .suspended ∨ r.core.pc (.co c) = .idle := by
  -- a step that changes the state of one coroutine at most
  have hupd : ∀ (c₀ : CrId) (x : Life), (c = c₀ → x ≠ .suspended) → Function.update r.life c₀ x c = .suspended →
      r.life c = .suspended := by
    intro c₀ x hx hl
    by_cases hc : c = c₀
    · subst hc
      rw [Function.update_self] at hl
      exact absurd hl (hx rfl)
    · rwa [Function.update_of_ne hc] at hl
  have hnudge : ∀ {r₁ : Runtime}, Nudged r r₁ → r₁.life c = .suspended → r.life c = .suspended := by
    intro r₁ hn hl
    rcases hn.life c with heq | ⟨hs, -⟩
    · rw [← heq]
      exact hl
    · exact hs
  cases hstep with
  | core => exact absurd rfl (he _)
  | spawn | spawnLocal | take | resume | poll | ioTimeout => exact Or.inl (hupd _ _ (by simp) hx)
  | @cqe _ c₀ =>
    refine Or.inl (hupd c₀ _ (fun _ => ?_) hx)
    split
    · simp
    · assumption
  | @yield c₀ hactive =>
    obtain ⟨w, hpin, -⟩ := hactive
    exact Or.inl (hupd c₀ .ready (by simp)
      (by simpa [Runtime.switchOut, hpin, Runtime.setLife] using hx))
  | @bare c₀ hactive hout =>
    obtain ⟨w, hpin, -⟩ := hactive
    by_cases hc : c = c₀
    · exact Or.inr (hc ▸ hout)
    · exact Or.inl (by simpa [Runtime.switchOut, hpin, Runtime.setLife, hc] using hx)
  | @exit c₀ w hpin =>
    exact Or.inl (hupd c₀ .done (by simp)
      (by simpa [Runtime.switchOut, hpin, Runtime.setLife] using hx))
  | deliverWake => exact Or.inl (hnudge (Nudged.deliverWake r _) hx)
  | stray => exact Or.inl (hnudge (Nudged.wakeNoPreempt r _ _) hx)
  | deadlineOp => exact Or.inl (hnudge (Nudged.iouCancel r _) hx)
  | postDeliver | postSkip | drain | pop | drained | deliverCancel | reap | free => exact Or.inl hx

/-- There an operation completes, while its coroutine does not run, or is canceled. -/
lemma rstep_op (hstep : RStep r e r') (he : ∀ e', e ≠ .core e') {o : IoOp} (ho : r'.op c = some o) :
    r.op c = some o ∨ (∃ o', r.op c = some o' ∧ o = { o' with asyncCancel := true }) ∨
      (o.result ≠ none ∧ r'.life c ≠ .suspended ∧ ∀ w, r.pin c = some w → r.run w ≠ some c) := by
  cases hstep with
  | core => exact absurd rfl (he _)
  | @cqe w c₀ o' res hat hpin _ _ =>
    by_cases hc : c = c₀
    · subst hc
      obtain rfl : { o' with result := some res } = o := by simpa using ho
      refine Or.inr (Or.inr ⟨by simp, ?_, fun w' hpin' hrun => ?_⟩)
      · simp only [Runtime.setLife, Function.update_self]
        split
        · simp
        · assumption
      · obtain rfl : w = w' := Option.some.inj (hpin.symm.trans hpin')
        rw [hat.1] at hrun
        cases hrun
    · exact Or.inl (by simpa [hc] using ho)
  | @deadlineOp _ c₀ =>
    by_cases hc : c = c₀
    · subst hc
      cases hop : r.op c with
      | none => simp [Runtime.iouCancel, hop] at ho
      | some o' =>
        obtain rfl : { o' with asyncCancel := true } = o := by simpa [Runtime.iouCancel, hop] using ho
        exact Or.inr (Or.inl ⟨o', rfl, rfl⟩)
    · exact Or.inl (by simpa [Runtime.iouCancel, hc] using ho)
  | yield | bare | exit | deliverWake | stray => exact Or.inl (by simpa using ho)
  | _ => exact Or.inl ho

/-- The steps outside the wait protocol commit nobody. -/
lemma rstep_committed (hstep : RStep r e r') (he : ∀ e', e ≠ .core e') (h : r'.Committed c) : r.Committed c := by
  obtain ⟨hpc, hheap, -, -, hio, -⟩ := rstep_quiet hstep he c
  unfold Runtime.Committed at h ⊢
  rw [hpc, hheap] at h
  have hidle : r.core.pc (.co c) ≠ .idle := by
    intro hidle
    rw [hidle] at h
    cases h
  refine committed_mono id (fun hx => (rstep_suspended hstep he hx).resolve_right hidle) (fun hr => ?_)
    (fun o ho hasync hres => ?_) h
  · rcases hio with heq | heq
    · rw [← heq]
      exact hr
    · rw [heq] at hr
      cases hr
  · rcases rstep_op hstep he ho with hop | ⟨o', -, rfl⟩ | ⟨hdone, -⟩
    · exact hop
    · cases hasync
    · exact absurd hres hdone

/-- A delivery goes on while nobody it depends on moves, and its inbox entry and its pending wake are followed. -/
lemma Runtime.Notice.keep (hn : r.Notice c) (hpc : ∀ b, r.core.pc b ≠ .idle → r'.core.pc b = r.core.pc b)
    (hheap : r'.core.heap = r.core.heap) (hwork : r'.core.work = r.core.work)
    (hpin : ∀ d w, r.pin d = some w → r'.pin d = some w)
    (hinbox : ∀ w, r.pin c = some w → (c ∈ r.inbox w ∨ c ∈ (r.loop w).draining ∨ r.loop w = .redeliver c) →
      r'.Notice c)
    (hpend : r.pendingWake c = true → r'.Notice c) : r'.Notice c := by
  cases hn with
  | @route b hb => exact .route (by rw [hpc b (by simp [hb])]; exact hb)
  | @push b hb => exact .push (by rw [hpc b (by simp [hb])]; exact hb)
  | @waking b f w hwaking hcode hp hworker hmiss =>
    have hb : r'.core.pc b = r.core.pc b := hpc b fun hidle => by rw [hidle] at hwaking; cases hwaking
    refine .waking (by rw [hb]; exact hwaking) hcode (hpin c w hp) ?_ (by rw [hb, hheap]; exact hmiss)
    cases b with
    | co d => exact hpin d w hworker
    | _ => exact hworker
  | @wake b hb hin hst hwake =>
    have hc : r'.core.pc (.co c) = r.core.pc (.co c) :=
      hpc _ fun hidle => by rw [hidle] at hin; cases hin
    exact .wake hb (by rw [hc]; exact hin) (by rw [hheap]; exact hst) (by rw [hwork]; exact hwake)
  | inbox hp hin => exact hinbox _ hp hin
  | pending hp => exact hpend hp

/-- Nobody is being drained while the loop is elsewhere. -/
lemma Runtime.AtLoop.drains {w : WorkerId} {l : Loop} (hat : r.AtLoop w l)
    (hin : c ∈ (r.loop w).draining ∨ r.loop w = .redeliver c) : c ∈ l.draining ∨ l = .redeliver c := by
  rwa [hat.2.1] at hin

/-- Wakes, while the loops stay. -/
lemma Runtime.Notice.nudged (hn : r.Notice c) (hnudge : Nudged r r') (hcore : r'.core = r.core)
    (hpend : r.pendingWake c = true → r'.pendingWake c = true) : r'.Notice c := by
  refine hn.keep (fun _ _ => by rw [hcore]) (by rw [hcore]) (by rw [hcore]) (fun _ _ hp => by rw [hnudge.pin]; exact hp)
    (fun w hp hin => ?_) fun hp => .pending (hpend hp)
  refine .inbox (w := w) (by rw [hnudge.pin]; exact hp) (hin.imp (hnudge.inbox w c) fun hin => ?_)
  rw [hnudge.loop]
  exact hin

/-- Coroutine `c₀` switches out. -/
lemma Runtime.Notice.switchOut {c₀ : CrId} {w₀ : WorkerId} {x : Life} (hn : r.Notice c) (h : SchedInv r)
    (hpin : r.pin c₀ = some w₀) (hrun : r.run w₀ = some c₀)
    (hout : r' = { r.switchOut (.co c₀) x with zombies := r'.zombies }) : r'.Notice c := by
  have hsame := sameFlags_switchOut r (.co c₀) x
  have hrest : r'.core = r.core ∧ r'.pin = r.pin ∧ r'.inbox = r.inbox ∧ r'.pendingWake = r.pendingWake ∧
      r'.loop = Function.update r.loop w₀ (.post c₀) := by
    rw [hout]
    simp [Runtime.switchOut, hpin, Runtime.setLife]
  obtain ⟨hcore, hp', hi', hw', hl'⟩ := hrest
  refine hn.keep (fun _ _ => by rw [hcore]) (by rw [hcore]) (by rw [hcore]) (fun _ _ hp => by rw [hp']; exact hp)
    (fun w hp hin => .inbox (w := w) (by rw [hp']; exact hp) (hin.imp (fun hin => by rw [hi']; exact hin) fun hin => ?_))
    fun hp => .pending (by rw [hw']; exact hp)
  by_cases hw : w = w₀
  · -- the loop of a worker that executes somebody is at its head
    subst hw
    rw [(h.rest w c₀ hrun).1] at hin
    rcases hin with hin | hin <;> cases hin
  · rw [hl', Function.update_of_ne hw]
    exact hin

/-- A delivery of one coroutine takes no other off the loop. -/
lemma delivers_other {l l' : Loop} {c₀ : CrId} (hl : l.delivers = some (c₀, l')) (hne : c ≠ c₀)
    (hin : c ∈ l.draining ∨ l = .redeliver c) : c ∈ l'.draining ∨ l' = .redeliver c := by
  cases l with
  | deliver c₁ rest =>
    obtain ⟨rfl, rfl⟩ : c₁ = c₀ ∧ .drain rest = l' := by simpa [Loop.delivers] using hl
    left
    simpa [Loop.draining, hne] using hin
  | redeliver c₁ =>
    obtain ⟨rfl, rfl⟩ : c₁ = c₀ ∧ .top = l' := by simpa [Loop.delivers] using hl
    simp [Loop.draining, Ne.symm hne] at hin
  | _ => cases hl

/-- The steps outside the wait protocol. -/
lemma rstep_notice (hstep : RStep r e r') (he : ∀ e', e ≠ .core e') (h : SchedInv r) (hreq : r.cancelReq c = true)
    (hn : r.Notice c) : r'.Notice c := by
  -- a step that leaves the loops and the flags alone
  have hsame : ∀ {r₁ : Runtime}, r₁.core = r.core → (∀ d w, r.pin d = some w → r₁.pin d = some w) →
      r₁.inbox = r.inbox → r₁.loop = r.loop → (r.pendingWake c = true → r₁.pendingWake c = true) → r₁.Notice c := by
    intro r₁ hcore hpin hinbox hloop hpend
    refine hn.keep (fun _ _ => by rw [hcore]) (by rw [hcore]) (by rw [hcore]) hpin
      (fun w hp hin => .inbox (w := w) (hpin c w hp) (by rw [hinbox, hloop]; exact hin)) fun hp => .pending (hpend hp)
  -- a step of the loop of worker `w₀` from `l` to `l'`
  have hmove : ∀ {r₁ : Runtime} {w₀ : WorkerId} {l : Loop} (l' : Loop), r.AtLoop w₀ l → r₁.core = r.core → r₁.pin = r.pin →
      r₁.inbox = r.inbox → r₁.loop = Function.update r.loop w₀ l' →
      (r.pin c = some w₀ → c ∈ l.draining ∨ l = .redeliver c → c ∈ l'.draining ∨ l' = .redeliver c) →
      (r.pendingWake c = true → r₁.Notice c) → r₁.Notice c := by
    intro r₁ w₀ l l' hat hcore hpin hinbox hloop hgo hpend
    refine hn.keep (fun _ _ => by rw [hcore]) (by rw [hcore]) (by rw [hcore]) (fun _ _ hp => by rw [hpin]; exact hp)
      (fun w hp hin => .inbox (w := w) (by rw [hpin]; exact hp)
        (hin.imp (fun hin => by rw [hinbox]; exact hin) fun hin => ?_)) hpend
    by_cases hw : w = w₀
    · subst hw
      rw [hloop, Function.update_self]
      exact hgo hp (hat.drains hin)
    · rw [hloop, Function.update_of_ne hw]
      exact hin
  cases hstep with
  | core => exact absurd rfl (he _)
  | spawn | resume | reap | free => exact hsame rfl (fun _ _ => id) rfl rfl id
  | @spawnLocal a c₀ _ hl _ =>
    refine hsame rfl (fun d w hp => ?_) rfl rfl id
    have hne : d ≠ c₀ := by
      rintro rfl
      rw [h.unborn d hl] at hp
      cases hp
    simpa [hne] using hp
  | @take w₀ c₀ _ _ hnone =>
    refine hsame rfl (fun d w hp => ?_) rfl rfl fun hp => ?_
    · have hne : d ≠ c₀ := by
        rintro rfl
        rw [hnone] at hp
        cases hp
      simpa [hne] using hp
    · by_cases hc : c = c₀
      · subst hc
        simp [hp]
      · simpa [hc] using hp
  | yield hactive _ _ | bare hactive _ _ =>
    obtain ⟨w, hpin, hrun⟩ := hactive
    exact hn.switchOut h hpin hrun rfl
  | exit hpin hrun _ _ => exact hn.switchOut h hpin hrun rfl
  | @postDeliver w₀ c₀ hat _ _ =>
    refine hmove (.redeliver c₀) hat rfl rfl rfl rfl (fun _ hin => ?_) fun hp => ?_
    · rcases hin with hin | hin <;> cases hin
    · by_cases hc : c = c₀
      · -- the pending wake is delivered now
        subst hc
        exact .inbox (w := w₀) (h.post w₀ c (by rw [hat.2.1]; rfl)) (Or.inr (Or.inr (by simp)))
      · exact .pending (by simpa [hc] using hp)
  | postSkip hat _ =>
    refine hmove .top hat rfl rfl rfl rfl (fun _ hin => ?_) fun hp => .pending hp
    rcases hin with hin | hin <;> cases hin
  | drained hat =>
    refine hmove .top hat rfl rfl rfl rfl (fun _ hin => ?_) fun hp => .pending hp
    rcases hin with hin | hin <;> cases hin
  | @drain w₀ hat =>
    refine hn.keep (fun _ _ => rfl) rfl rfl (fun _ _ => id) (fun w hp hin => .inbox (w := w) hp ?_)
      fun hp => .pending hp
    by_cases hw : w = w₀
    · subst hw
      refine Or.inr (Or.inl ?_)
      rcases hin with hin | hin
      · simpa [Loop.draining] using hin
      · rcases hat.drains hin with hin | hin <;> cases hin
    · simpa [hw] using hin
  | @pop w₀ c₀ rest hat =>
    refine hmove (.deliver c₀ rest) hat rfl rfl rfl rfl (fun _ hin => Or.inl ?_) fun hp => .pending hp
    rcases hin with hin | hin
    · exact hin
    · cases hin
  | @deliverWake w₀ c₀ l l' hat hl hno =>
    have hne : c ≠ c₀ := by
      rintro rfl
      rw [hreq] at hno
      cases hno
    have hnudge := Nudged.deliverWake r c₀
    have hrest : (r.deliverWake c₀).inbox = r.inbox ∧
        (r.pendingWake c = true → (r.deliverWake c₀).pendingWake c = true) := by
      unfold Runtime.deliverWake
      split <;> (try split) <;> simp [Runtime.setLife, hne]
    exact hmove _ hat (by simp) hnudge.pin hrest.1 rfl (fun _ => delivers_other hl hne)
      fun hp => .pending (hrest.2 hp)
  | @deliverCancel w₀ c₀ l l' hat hl _ =>
    by_cases hc : c = c₀
    · subst hc
      have hpin : r.pin c = some w₀ := by
        rcases (Loop.delivers_spec hl).1 with hin | hback
        · exact h.inbox w₀ c (Or.inr (by rw [hat.2.1]; exact hin))
        · exact h.post w₀ c (by rw [hat.2.1]; exact hback)
      exact .waking (a := .sched w₀) (f := .deliver) (w := w₀) (by simp [waking]) rfl hpin rfl (by simp)
    · refine hn.keep (fun b hb => ?_) rfl rfl (fun _ _ => id) (fun w hp hin => .inbox (w := w) hp ?_)
        fun hp => .pending hp
      · have hne : b ≠ .sched w₀ := by
          rintro rfl
          exact hb hat.2.2.1
        simp [hne]
      · refine hin.imp id fun hin => ?_
        by_cases hw : w = w₀
        · subst hw
          simpa using delivers_other hl hc (hat.drains hin)
        · simpa [hw] using hin
  | @stray a t =>
    refine hn.nudged (Nudged.wakeNoPreempt r _ _) (by simp) fun hp => ?_
    rw [(sameFlags_wakeNoPreempt r (r.workerOf a) t).pending]
    exact hp
  | poll _ _ _ hl => exact hn.nudged (Nudged.setReady hl) rfl id
  | ioTimeout => exact hsame rfl (fun _ _ => id) rfl rfl id
  | cqe => exact hsame rfl (fun _ _ => id) rfl rfl id
  | deadlineOp => exact hn.nudged (Nudged.iouCancel r _) rfl id

end Loop

/-! ## The invariant -/

/-- Whoever is committed with a request pending has its delivery outstanding. -/
structure DeliveryInv (r : Runtime) : Prop where
  /-- A completed operation has woken its coroutine. -/
  op : ∀ c o, r.op c = some o → o.result ≠ none → r.life c ≠ .suspended ∧ r.core.pc (.co c) ≠ .iouSusp
  notice : ∀ c, r.Committed c → r.cancelReq c = true → r.Notice c

lemma deliveryInv_init (cfg : Config) : DeliveryInv (.init cfg) where
  op := by simp [Runtime.init]
  notice := by simp [Runtime.init, Runtime.Committed, Core.init, committed]

section Op

variable {r : Runtime} {a : Ctx} {act : Act} {s : Core} {c : CrId}

/-- How a coroutine comes to suspend in an io_uring call. -/
lemma step_iouSusp {t : Core} (hstep : Step s ⟨.co c, act⟩ t) (h : t.pc (.co c) = .iouSusp) :
    s.pc (.co c) = .iouSusp ∨ (act = .io ∧ s.pc (.co c) = .iouTest) := by
  have hplain : ∀ {pc : Pc}, plain pc = true → pc ≠ .iouSusp := by
    rintro pc hp rfl
    cases hp
  cases hstep with
  | «local» _ hl =>
    rw [Core.setPc_pc_self] at h
    generalize s.pc (.co c) = pc at hl
    cases hl with
    | call => exact absurd h (hplain (plain_entry _ _ _))
    | preCanceled | preExpired => exact absurd h (hplain (plain_fail _ _))
    | preGo => exact absurd h (hplain (plain_go _ _ _ _))
    | iouWait => exact Or.inr ⟨rfl, rfl⟩
    | ioReady | wakeGiveUp => split at h <;> cases h
    | _ => cases h
  | crit => exact absurd (by simpa using h) (hplain (plain_next _ _))
  | decided => exact absurd (by simpa using h) (hplain (plain_after _ _))
  | wake | unlock | fin => exact Or.inl h
  | flip | selTry | selRetry =>
    simp only [Core.setWork_pc, Core.setPc_pc_self] at h
    split at h <;> cases h
  | _ => simp at h

/-- Elsewhere nobody suspends with an operation. -/
lemma step_suspend_iou {t : Core} (hstep : Step s ⟨.co c, .suspend⟩ t) :
    s.pc (.co c) = .iouSusp ∨ inIou (s.pc (.co c)) = false := by
  cases hstep with
  | «local» _ hl =>
    generalize s.pc (.co c) = pc at hl
    cases hl
    · exact Or.inr rfl
    · exact Or.inl rfl
  | suspend hpc _ | selSuspend hpc _ =>
    rw [hpc]
    exact Or.inr rfl

/-- An operation begins without a result. -/
lemma ioEffect_result {pc pc' : Pc} {o : IoOp} (ho : (r.ioEffect (.co c) pc pc').op c = some o)
    (hres : o.result ≠ none) : r.op c = some o := by
  unfold Runtime.ioEffect at ho
  split at ho
  · exact ho
  · rename_i heq
    obtain rfl := Ctx.co.inj heq
    obtain rfl : ⟨false, none⟩ = o := by simpa using ho
    exact absurd rfl hres
  · rename_i heq
    obtain rfl := Ctx.co.inj heq
    simp at ho
  · exact ho

/-- The result of an operation comes from nobody's action. -/
lemma effect_result {pc pc' : Pc} {o : IoOp} (ho : (r.effect a pc act pc').op c = some o) (hres : o.result ≠ none) :
    ∃ o', r.op c = some o' ∧ o'.result ≠ none := by
  have htold : Told r a c pc act (r.effect a pc act pc') := told_effect _ _ _
  have hsame : a ≠ .co c ∨ act = .waker → ∃ o', r.op c = some o' ∧ o'.result ≠ none := by
    intro hact
    rcases htold.op hact with heq | ⟨o', ho', heq⟩
    · exact ⟨o, heq ▸ ho, hres⟩
    · rw [heq] at ho
      obtain rfl := Option.some.inj ho
      exact ⟨o', ho', hres⟩
  by_cases ha : a = .co c
  · subst ha
    cases act with
    | waker => exact hsame (Or.inr rfl)
    | io => exact ⟨o, ioEffect_result ho hres, hres⟩
    | ioCanceled => exact ⟨o, by simpa using ioEffect_result ho hres, hres⟩
    | wake n =>
      rw [← (sameFlags_wakeNoPreempt r (r.workerOf (.co c)) n.cr).op]
      exact ⟨o, ho, hres⟩
    | suspend =>
      rw [← (sameFlags_switchOut r (.co c) .suspended).op]
      exact ⟨o, ho, hres⟩
    | preCanceled => exact ⟨o, by simpa [Runtime.effect] using ho, hres⟩
    | decided | selFailed =>
      refine ⟨o, ?_, hres⟩
      simp only [Runtime.effect] at ho
      split at ho <;> simpa using ho
    | call api => cases api <;> exact ⟨o, ho, hres⟩
    | _ => exact ⟨o, ho, hres⟩
  · exact hsame (Or.inl ha)

end Op

/-- Every step that is no fault keeps the deliveries up. -/
lemma deliveryInv_step {r r' : Runtime} {e : Ev} (h : DeliveryInv r) (hs : SchedInv r)
    (hinv : Inv r.core) (hstep : RStep r e r') (hfault : ¬ r.Faults e) : DeliveryInv r' := by
  by_cases hcore : ∃ e', e = .core e'
  · obtain ⟨⟨a, act⟩, rfl⟩ := hcore
    cases hstep with
    | @core _ _ s hactive _ hcore hguard =>
      have hf := step_footprint hinv hcore
      refine ⟨fun c o ho hres => ?_, fun c hc hnew => ?_⟩
      · obtain ⟨o', ho', hres'⟩ := effect_result ho hres
        obtain ⟨hlife, hpc⟩ := h.op c o' ho' hres'
        by_cases ha : a = .co c
        · subst ha
          refine ⟨fun hx => ?_, fun hx => ?_⟩
          · by_cases hact : act = .suspend
            · subst hact
              rcases step_suspend_iou hcore with hsusp | hout
              · exact hpc hsusp
              · rw [(hs.op c).mpr hout] at ho'
                cases ho'
            · exact hs.not_suspended hactive hact _ _ hx
          · rcases step_iouSusp hcore hx with hsusp | ⟨rfl, htest⟩
            · exact hpc hsusp
            · have hx : s.pc (.co c) = .iouSusp := hx
              rw [htest, hx] at hguard
              obtain ⟨o₁, ho₁, hnone⟩ := hguard
              rw [ho'] at ho₁
              obtain rfl := Option.some.inj ho₁
              exact hres' hnone
        · refine ⟨fun hx => hlife (effect_suspended ha hx), fun hx => hpc ?_⟩
          rw [← hf.pc _ (Ne.symm ha)]
          exact hx
      · have htold : Told r a c (r.core.pc a) act (r.effect a (r.core.pc a) act (s.pc a)) := told_effect _ _ _
        simp only [htold.req, Bool.or_eq_true, Bool.and_eq_true] at hnew
        have hraised : raisesRequest c act = true → s.pc a = .cancelRoute c := by
          intro hraise
          cases act with
          | call api =>
            obtain rfl : api = .cancel c := by
              cases api <;> simp [raisesRequest] at hraise ⊢
              exact hraise
            cases hcore with
            | «local» _ hl =>
              rw [Core.setPc_pc_self]
              generalize r.core.pc a = pc at hl
              cases hl
              rfl
          | _ => cases hraise
        by_cases ha : a = .co c
        · subst ha
          rcases hnew with hraise | ⟨hold, -⟩
          · unfold Runtime.Committed at hc
            simp only [hraised hraise] at hc
            cases hc
          · have hcommitted := committed_self hinv hs hactive hcore hguard hold hc
            exact (h.notice c hcommitted hold).self hinv hs hactive hcore hcommitted hc
        · rcases hnew with hraise | ⟨hold, -⟩
          · exact .route (hraised hraise)
          · exact (h.notice c (committed_other hf ha hc) hold).other hinv hs hactive hf hcore hguard hfault ha hold hc
  · have hne : ∀ e', e ≠ .core e' := fun e' he => hcore ⟨e', he⟩
    refine ⟨fun c o ho hres => ?_, fun c hc hnew => ?_⟩
    · obtain ⟨hpc, -⟩ := rstep_quiet hstep hne c
      rw [hpc]
      have hidle : ∀ {o'}, r.op c = some o' → r.core.pc (.co c) ≠ .idle := by
        intro o' ho' hidle
        rw [(hs.op c).mpr (by rw [hidle]; rfl)] at ho'
        cases ho'
      have hkeep : ∀ {o'}, r.op c = some o' → o'.result ≠ none →
          r'.life c ≠ .suspended ∧ r.core.pc (.co c) ≠ .iouSusp := fun ho' hres' =>
        ⟨fun hx => (h.op c _ ho' hres').1 ((rstep_suspended hstep hne hx).resolve_right (hidle ho')),
          (h.op c _ ho' hres').2⟩
      rcases rstep_op hstep hne ho with ho' | ⟨o', ho', rfl⟩ | ⟨-, hlife, hrun⟩
      · exact hkeep ho' hres
      · exact hkeep ho' hres
      · refine ⟨hlife, fun hsusp => ?_⟩
        -- whoever is about to suspend is running
        have hrunning : r.life c = .running := by
          by_contra hx
          have hplace := hs.place c
          rw [hsusp] at hplace
          cases hl : r.life c <;> rw [hl] at hplace <;>
            first | exact hx hl | simp [Life.Place, atRest, canYield] at hplace
        obtain ⟨w, hpin, hw⟩ := hs.running c hrunning
        exact hrun w hpin hw
    · obtain ⟨-, -, -, hsame, -⟩ := rstep_quiet hstep hne c
      rw [hsame] at hnew
      exact rstep_notice hstep hne hs hnew (h.notice c (rstep_committed hstep hne hc) hnew)

/-- What is true of the requests in state `r` after history `m`. -/
structure OneDelivery (r : Runtime) (m : CancelHist) : Prop where
  /-- A request is still pending or has been cleared, -/
  raised : ∀ c, m.raised c = m.cleared c + (r.cancelReq c).toNat
  /-- and cleared requests have been reported, one by one, by the calls that have cleared them. -/
  cleared : ∀ c, m.cleared c = m.reported c + (owes (r.core.pc (.co c))).toNat
  /-- Nobody is suspended with a request pending that is not being delivered. -/
  delivering : ∀ c, r.life c = .suspended → cancelAware (r.core.pc (.co c)) = true → r.cancelReq c = true →
    r.Delivering c

end Suspenders.Sched
