import Suspenders.Sched.Inv
import Suspenders.Wait.Decide

/-!
# Cancel requests

`suspenders_cancel` sets `cancel_requested`; the call that clears it is to return `SUSPENDERS_CANCELED`.  Three
counters follow the flag of each coroutine: how often it was set, how often it was cleared, and how many calls
returned `SUSPENDERS_CANCELED`.  A cleared request has been reported, or the call that has cleared it is on its way
to do so; a request that is not cleared is pending.

Two places of the runtime break this, and a step that goes through one of them is a fault (`Runtime.Faults`).
`suspenders_queue_sync` consumes a request in its wait and waits again, so that the request is lost.  A canceler
that found its target without a worker decides a wait of the target after the target, which runs on a worker by
now, has consumed the request, so that it is reported twice.  The third fault loses the delivery of a request, not
the request; it is the subject of the next module.
-/

namespace Suspenders.Sched

open Lib Wait

/-! ## The counters -/

/-- A call that is going to return `SUSPENDERS_CANCELED`. -/
def owes : Pc → Bool
  | .ret code | .selRet none code => code = .canceled
  | .cs _ (.relock _ code) => code = .canceled
  | .blk (.relock _ code) _ | .susp (.relock _ code) _ | .sync (.relock _ code) _ => code = .canceled
  | _ => false

/-- The actions that clear `cancel_requested`. -/
def consumesRequest : Act → Bool
  | .preCanceled | .ioCanceled => true
  | .decided k st => st = .canceled && !k.isRelock
  | .selFailed st => st = .canceled
  | _ => false

/-- The actions by which a call returns `SUSPENDERS_CANCELED`. -/
def reportsCancel : Act → Bool
  | .ret code | .selRet none code => code = .canceled
  | _ => false

/-- A call of coroutine `c` returns `SUSPENDERS_CANCELED`. -/
def Ev.reports (c : CrId) : Ev → Bool
  | .core ⟨.co d, act⟩ => d = c && reportsCancel act
  | _ => false

/-- The requests of the coroutines so far. -/
structure CancelHist where
  /-- How often `cancel_requested` was set where it had been clear. -/
  raised : CrId → ℕ
  /-- How often it was cleared. -/
  cleared : CrId → ℕ
  /-- How many calls returned `SUSPENDERS_CANCELED`. -/
  reported : CrId → ℕ

namespace CancelHist

/-- Nothing has happened. -/
def init : CancelHist := ⟨fun _ => 0, fun _ => 0, fun _ => 0⟩

/-- What a step adds. -/
def observe (h : CancelHist) (r : Runtime) (e : Ev) (r' : Runtime) : CancelHist where
  raised := fun c => h.raised c + (!r.cancelReq c && r'.cancelReq c).toNat
  cleared := fun c => h.cleared c + (r.cancelReq c && !r'.cancelReq c).toNat
  reported := fun c => h.reported c + (e.reports c).toNat

end CancelHist

/-! ## Faults -/

/-- In a wait that ends with the status of the coroutine's node, unless the select has a winner. -/
def endsWithNode : Pc → Bool
  | .cs _ (.condUnlock _ _) => true
  | .blk k _ | .susp k _ | .sync k _ => !k.isRelock
  | .selReg _ _ | .selTest _ | .selSusp _ | .selUnreg _ _ _ _ | .selRescan _ _ => true
  | .selSync _ _ _ | .selSync2 _ _ _ | .selFin _ _ _ => true
  | _ => false

/-- In `s_io_wait_ready`. -/
def awaitsReady : Pc → Bool
  | .ioSusp _ | .ioWoke _ => true
  | _ => false

/-- Coroutine `t` is going to suspend again without a look at `cancel_requested`. -/
def Runtime.Retries (r : Runtime) (t : CrId) : Prop :=
  (r.core.pc (.co t) = .ioWoke true ∧ r.ioResult t = .ready) ∨
    (r.core.pc (.co t) = .iouTest ∧ ∃ o, r.op t = some o ∧ o.asyncCancel = false ∧ o.result = none)

/-- The steps by which a request is lost, reported twice or not delivered. -/
inductive Runtime.Faults (r : Runtime) : Ev → Prop
  /-- The entry check in the loop of `suspenders_queue_sync` consumes the request. -/
  | syncEntry {c : CrId} {o : Op} {g : ℕ} :
      r.core.pc (.co c) = .pre (.op o (.queueWait g)) → r.Faults (.core ⟨.co c, .preCanceled⟩)
  /-- The wait in that loop consumes it. -/
  | syncWait {c : CrId} {g : ℕ} : r.Faults (.core ⟨.co c, .decided (.queueWait g) .canceled⟩)
  /-- A canceler decides a wait although the request has been consumed. -/
  | stale {a : Ctx} {t : CrId} {lk : Option LockId} :
      r.core.pc a = .wakeLock .cancel t lk → r.cancelReq t = false →
      endsWithNode (r.core.pc (.co t)) = true → r.Faults (.core ⟨a, .flip t .canceled⟩)
  /-- The same in a readiness wait. -/
  | staleIo {a : Ctx} {t : CrId} :
      r.core.pc a = .wakeMiss .cancel t → r.cancelReq t = false → r.life t = .suspended →
      awaitsReady (r.core.pc (.co t)) = true → r.Faults (.core ⟨a, .waker⟩)
  /-- A canceler on the target's worker gives up, because the target is `READY`. -/
  | skipped {a : Ctx} {t : CrId} :
      r.core.pc a = .wakeMiss .cancel t → r.pin t = r.workerOf a → r.cancelReq t = true →
      r.life t = .ready → r.Retries t → r.Faults (.core ⟨a, .waker⟩)

/-- The steps that are not faults. -/
def Faultless (p : Runtime × CancelHist) (e : Ev) (_ : Runtime × CancelHist) : Prop := ¬ p.1.Faults e

/-! ## Where calls go -/

/-- The frame of the count that begins a `suspenders_queue_sync`. -/
def countsUp : Frame → Bool
  | .queueInit _ _ _ => true
  | _ => false

/-- That count does not wait, and the entry checks are not those of `s_mutex_lock_raw`, which has none. -/
def Framed : Pc → Prop
  | .pre (.op _ k) => countsUp k = false ∧ k.isRelock = false
  | .cs op k => countsUp k = true → ∃ g n, op = .wgAdd g n
  | .blk k _ | .susp k _ | .sync k _ => countsUp k = false
  | _ => True

lemma framed_after (k : Frame) (st : Code) : Framed (k.after st) := by
  cases k <;> simp only [Frame.after] <;> (try split) <;> simp [Framed, countsUp, Frame.isRelock]

lemma framed_entry (api : Api) (c : CrId) (n : ℕ) : Framed (api.entry (.co c) n) := by
  cases api with
  | op o =>
    cases o with
    | send _ _ b | recv _ b => cases b <;> simp [Api.entry, Framed, countsUp, Frame.isRelock]
    | _ => simp [Api.entry, Framed, countsUp, Frame.isRelock]
  | select ops =>
    simp only [Api.entry]
    split <;> trivial
  | _ => simp [Api.entry, Framed, countsUp, Frame.isRelock]

lemma framed_fail (e : Entry) (st : Code) : Framed (e.fail st) := by
  cases e with
  | op o k => exact framed_after k st
  | _ => trivial

lemma framed_go {e : Entry} (he : Framed (.pre e)) (h : Heap) (c : CrId) (n : ℕ) : Framed (e.go h c n) := by
  cases e with
  | op o k =>
    have hk : Framed (.cs o k) := fun hinit => by
      rw [he.1] at hinit
      cases hinit
    cases o with
    | condPark v =>
      cases k <;> simp only [Entry.go] <;> (try split) <;> first | exact hk | trivial
    | _ => exact hk
  | _ => trivial

/-- A coroutine's own steps. -/
lemma framed_step {s t : Core} {c : CrId} {act : Act} (hinv : Inv s) (hstep : Step s ⟨.co c, act⟩ t)
    (h : Framed (s.pc (.co c))) : Framed (t.pc (.co c)) := by
  cases hstep with
  | «local» _ hl =>
    rw [Core.setPc_pc_self]
    generalize s.pc (.co c) = pc at hl h
    cases hl with
    | call api n _ => exact framed_entry api c n
    | preCanceled | preExpired => exact framed_fail _ _
    | preGo n => exact framed_go h _ _ n
    | ioReady | wakeGiveUp => split <;> trivial
    | _ => trivial
  | @crit _ op k hpc _ _ =>
    simp only [Core.setHeld_pc, Core.setWork_pc, Core.setPc_pc_self]
    cases hres : (exec s.heap (.co c) op).2.res with
    | ret code =>
      simp only [critical, hres, Frame.next]
      exact framed_after k code
    | park l data writer =>
      simp only [critical, hres, Frame.next]
      have hinit : countsUp k = false := by
        by_contra hk
        rw [hpc] at h
        obtain ⟨g, n, rfl⟩ := h (by simpa using hk)
        rcases exec_park_cases hinv.wf hres with ⟨_, _, hop, -⟩ | ⟨_, _, hop, -⟩ | ⟨hop, -⟩
        · cases hop
        · cases hop
        · exact hop
      cases k <;> first | exact hinit | simp [Frame.parked, Framed, countsUp]
  | testWaiting hpc _ _ | testDecided hpc _ _ | suspend hpc _ =>
    rw [hpc] at h
    rw [Core.setPc_pc_self]
    exact h
  | decided => simpa using framed_after _ _
  | wake | unlock | fin => exact h
  | sleepPark => simp [Framed, countsUp]
  | flip | selTry | selRetry =>
    simp only [Core.setWork_pc, Core.setPc_pc_self]
    split <;> trivial
  | _ =>
    rw [Core.setPc_pc_self]
    trivial

/-! ## One step of a coroutine -/

lemma endsWithNode_of_owes {pc : Pc} (h : owes pc = true) : endsWithNode pc = false := by
  cases pc with
  | cs op k | blk k l | susp k l | sync k l => cases k <;> first | rfl | cases h
  | _ => first | rfl | cases h

/-- What a critical section or a check makes of a call that does not report a request. -/
lemma owes_after {k : Frame} {st : Code} (op : Op) (h : st ≠ .canceled ∨ k.isRelock = true) :
    owes (k.after st) = owes (.cs op k) := by
  cases k with
  | relock m code =>
    simp only [Frame.after]
    split <;> rfl
  | condUnlock | condWait | queueInit =>
    obtain hst | hk := h
    · simp [Frame.after, owes, hst]
    · cases hk
  | ret | sleep | condPark | queueSubmit | queueWait =>
    obtain hst | hk := h
    · simp only [Frame.after]
      (try split) <;> simp [owes, hst]
    · cases hk

/-- A wait that a request has ended is reported, or repeated by `suspenders_queue_sync`. -/
lemma owes_after_canceled {k : Frame} (hcond : ¬ k.IsCondUnlock) (hinit : countsUp k = false)
    (hk : k.isRelock = false) (hsync : ∀ g, k ≠ .queueWait g) : owes (k.after .canceled) = true := by
  cases k with
  | relock => cases hk
  | condUnlock => exact absurd trivial hcond
  | queueInit => cases hinit
  | queueWait g => exact absurd rfl (hsync g)
  | _ => rfl

/-- The unlock inside `suspenders_cond_wait_dl` has no entry checks. -/
lemma not_condUnlock_of_ok {o : Op} {k : Frame} (hok : (Pc.pre (.op o k)).Ok) : ¬ k.IsCondUnlock := by
  cases o <;> simp only [Pc.Ok] at hok <;> first
    | exact hok.1
    | (obtain ⟨m, rfl⟩ := hok; exact id)

/-- No call begins with a report. -/
lemma owes_entry (api : Api) (c : CrId) (n : ℕ) : owes (api.entry (.co c) n) = false := by
  cases api with
  | op o =>
    cases o with
    | send _ _ b | recv _ b => cases b <;> rfl
    | _ => rfl
  | select ops =>
    simp only [Api.entry]
    split <;> rfl
  | _ => rfl

lemma owes_go {e : Entry} (he : Framed (.pre e)) (h : Heap) (c : CrId) (n : ℕ) : owes (e.go h c n) = false := by
  cases e with
  | op o k =>
    have hk : owes (.cs o k) = false := by
      cases k <;> first | rfl | cases he.2
    cases o with
    | condPark v =>
      cases k <;> simp only [Entry.go] <;> (try split) <;> exact hk
    | _ => exact hk
  | _ => rfl

/-- Whoever consumes a request owes a report, and a report is owed until it is made. -/
lemma owes_step {s t : Core} {c : CrId} {act : Act} (hinv : Inv s) (hframed : Framed (s.pc (.co c)))
    (hstep : Step s ⟨.co c, act⟩ t)
    (hentry : act = .preCanceled → ∀ o g, s.pc (.co c) ≠ .pre (.op o (.queueWait g)))
    (hwait : ∀ g, act ≠ .decided (.queueWait g) .canceled) :
    (consumesRequest act).toNat + (owes (s.pc (.co c))).toNat =
      (owes (t.pc (.co c))).toNat + (reportsCancel act).toNat := by
  have hok := hinv.ok (.co c)
  cases hstep with
  | «local» _ hl =>
    rw [Core.setPc_pc_self]
    generalize s.pc (.co c) = pc at hl hok hframed hentry
    cases hl with
    | call api n _ => rw [owes_entry]; rfl
    | @preCanceled _ e =>
      have howes : owes (e.fail .canceled) = true := by
        cases e with
        | op o k =>
          exact owes_after_canceled (not_condUnlock_of_ok hok) hframed.1 hframed.2
            fun g hk => hentry rfl o g (by rw [hk])
        | _ => rfl
      rw [howes]
      rfl
    | @preExpired _ e =>
      have howes : owes (e.fail .timedout) = false := by
        cases e with
        | op o k =>
          refine (owes_after o (Or.inl (by simp))).trans ?_
          cases k <;> first | rfl | cases hframed.2
        | _ => rfl
      rw [howes]
      rfl
    | preGo n => rw [owes_go hframed]; rfl
    | ret => rfl
    | @selRet _ idx => cases idx <;> rfl
    | ioDone code hne | iouRet code hne => simp [owes, reportsCancel, consumesRequest, hne]
    | ioReady | wakeGiveUp => split <;> rfl
    | _ => rfl
  | @crit _ op k hpc _ _ =>
    rw [hpc]
    simp only [Core.setHeld_pc, Core.setWork_pc, Core.setPc_pc_self]
    have howes : owes (k.next (critical s.heap (.co c) op).2.res) = owes (.cs op k) := by
      cases hres : (exec s.heap (.co c) op).2.res with
      | ret code =>
        simp only [critical, hres, Frame.next]
        exact owes_after op (Or.inl fun heq => (exec_ret_ne _ _ _).2 (heq ▸ hres))
      | park l data writer =>
        simp only [critical, hres, Frame.next]
        cases k <;> rfl
    rw [howes]
    simp [consumesRequest, reportsCancel]
  | @decided _ k l st hpc _ _ _ =>
    rw [hpc] at hok hframed ⊢
    rw [Core.setPc_pc_self]
    by_cases hst : st = .canceled ∧ k.isRelock = false
    · obtain ⟨rfl, hk⟩ := hst
      have hsync : ∀ g, k ≠ .queueWait g := by
        rintro g rfl
        exact hwait g rfl
      rw [owes_after_canceled hok hframed hk hsync]
      cases k <;> first | rfl | cases hk
    · have hkeep : st ≠ .canceled ∨ k.isRelock = true := by
        by_contra hno
        rw [not_or, not_not] at hno
        exact hst ⟨hno.1, by simpa using hno.2⟩
      rw [owes_after (.wgWait 0) hkeep]
      have hcons : consumesRequest (.decided k st) = false := by
        rcases hkeep with hne | hk
        · simp [consumesRequest, hne]
        · simp [consumesRequest, hk]
      rw [hcons]
      cases k <;> exact Nat.add_comm _ _
  | @testWaiting _ k _ hpc _ _ | @testDecided _ k _ hpc _ _ | @suspend _ k _ hpc _ =>
    rw [hpc, Core.setPc_pc_self]
    cases k <;> exact Nat.add_comm _ _
  | wake | unlock | fin => exact Nat.add_comm _ _
  | flip hpc _ _ _ | selTry hpc _ _ _ | selRetry hpc _ _ _ =>
    rw [hpc]
    simp only [Core.setWork_pc, Core.setPc_pc_self]
    split <;> rfl
  | selFailed hpc _ _ => simp [hpc, owes, reportsCancel, consumesRequest]
  | sleepPark hpc _ | selInit hpc _ | selReady hpc _ _ _ _ | selPark hpc _ _ _ _ | selRegEnd hpc _
  | selWaiting hpc _ _ _ | selDecided hpc _ _ | selSuspend hpc _ | selUnreg hpc _ _ _ _
  | selLeave hpc _ _ | selAgain _ hpc _ _ _ | selRescanEnd hpc _ | selSync hpc _ _ | selSync2 hpc _ _
  | selWon hpc _ | selScanned hpc _ =>
    rw [hpc, Core.setPc_pc_self]
    rfl

lemma endsWithNode_waitOn {pc : Pc} (h : endsWithNode pc = true) : pc.waitOn ≠ none := by
  cases pc with
  | cs op k => cases k <;> first | (simp [Pc.waitOn]; done) | cases h
  | _ => first | (simp [Pc.waitOn]; done) | cases h

/-- A call whose wait has been decided was in that wait before. -/
lemma endsWithNode_step {s t : Core} {c : CrId} {act : Act} (hinv : Inv s) (hstep : Step s ⟨.co c, act⟩ t)
    (h : endsWithNode (t.pc (.co c)) = true) (hst : (t.heap.waits.node (.wq c)).status ≠ .waiting) :
    endsWithNode (s.pc (.co c)) = true ∧
      (t.heap.waits.node (.wq c)).status = (s.heap.waits.node (.wq c)).status := by
  have hself := step_self_decides hinv hstep
  have hok := hinv.ok (.co c)
  -- behind a critical section or a wait only the wait of a condition variable goes on
  have hafter : ∀ {k : Frame} {st : Code}, endsWithNode (k.after st) = true → k.IsCondUnlock := by
    intro k st hk
    cases k <;> simp only [Frame.after] at hk <;> (try split at hk) <;> trivial
  cases hstep with
  | «local» _ hl =>
    rw [Core.setPc_pc_self] at h
    exact absurd (hl.calm hok).2.waitOn (endsWithNode_waitOn h)
  | @crit _ op k hpc _ _ =>
    have hkeep := (exec_effect hinv.wf (.co c) op).granted.wq_of_not_mem hself
    cases hres : (exec s.heap (.co c) op).2.res with
    | ret code =>
      simp only [critical, hres, Frame.next, Core.setHeld_pc, Core.setWork_pc, Core.setPc_pc_self] at h
      have hk := hafter h
      rw [hpc]
      refine ⟨?_, by simp [critical, hres, Heap.parkAs, hkeep]⟩
      cases k <;> first | rfl | cases hk
    | park l data writer => simp [critical, hres, Heap.parkAs, Waits.park] at hst
  | @decided _ k l st hpc _ _ _ =>
    rw [hpc] at hok
    rw [Core.setPc_pc_self] at h
    exact absurd (hafter h) hok
  | wake | unlock => exact ⟨h, rfl⟩
  | @fin _ n _ _ =>
    exact ⟨h, by simp⟩
  | testWaiting hpc _ _ | testDecided hpc _ _ | suspend hpc _ =>
    rw [Core.setPc_pc_self] at h
    rw [hpc]
    exact ⟨h, rfl⟩
  | flip | selTry =>
    simp only [Core.setWork_pc, Core.setPc_pc_self] at h
    split at h <;> cases h
  | sleepPark | selInit => simp [Waits.parkNone] at hst
  | selRetry hpc _ _ _ =>
    rw [hpc]
    exact ⟨rfl, by simp [(exec_effect hinv.wf (.co c) _).granted.wq_of_not_mem hself]⟩
  | selWon | selScanned | selFailed =>
    rw [Core.setPc_pc_self] at h
    cases h
  | selPark hpc _ _ _ _ =>
    rw [hpc]
    exact ⟨rfl, by simp [Waits.park]⟩
  | @selUnreg _ _ _ j _ _ hpc _ _ _ _ =>
    rw [hpc]
    refine ⟨rfl, ?_⟩
    have hother := (Waits.unregister_spec hinv.wf (.sel c j)).2.2.1 (.wq c) (by simp)
    simp [hother]
  | selReady hpc _ _ _ _ | selRegEnd hpc _ | selWaiting hpc _ _ _ | selDecided hpc _ _ | selSuspend hpc _
  | selLeave hpc _ _ | selAgain _ hpc _ _ _ | selRescanEnd hpc _ | selSync hpc _ _ | selSync2 hpc _ _ =>
    rw [hpc]
    exact ⟨rfl, rfl⟩

/-! ## What an action does to the flags -/

/-- The actions that set `cancel_requested` of coroutine `c`. -/
def raisesRequest (c : CrId) : Act → Bool
  | .call (.cancel t) => t = c
  | _ => false

/-- Whoever consumes a request neither reports nor raises one by that. -/
lemma silent_of_consumes {act : Act} (h : consumesRequest act = true) (c : CrId) :
    reportsCancel act = false ∧ raisesRequest c act = false := by
  cases act <;> first | exact ⟨rfl, rfl⟩ | cases h

/-- Wakes and switches leave what a cancel works with alone. -/
structure SameFlags (r r' : Runtime) : Prop where
  req : r'.cancelReq = r.cancelReq
  io : r'.ioResult = r.ioResult
  op : r'.op = r.op
  pending : r'.pendingWake = r.pendingWake

section Flags

variable (r : Runtime) (a : Ctx) (me : Option WorkerId) (t c : CrId)

lemma sameFlags_refl : SameFlags r r := ⟨rfl, rfl, rfl, rfl⟩

lemma sameFlags_wakeNoPreempt : SameFlags r (r.wakeNoPreempt me t) := by
  unfold Runtime.wakeNoPreempt Runtime.inboxWake
  split <;> (try split) <;> (try split) <;> exact ⟨rfl, rfl, rfl, rfl⟩

lemma sameFlags_inboxWake : SameFlags r (r.inboxWake t) := by
  unfold Runtime.inboxWake
  split <;> (try split) <;> exact ⟨rfl, rfl, rfl, rfl⟩

lemma sameFlags_switchOut (x : Life) : SameFlags r (r.switchOut a x) := by
  unfold Runtime.switchOut
  split <;> (try split) <;> exact ⟨rfl, rfl, rfl, rfl⟩

/-- What an action of context `a` does to the flags of coroutine `c`. -/
structure Told (pc : Pc) (act : Act) (r' : Runtime) : Prop where
  /-- A request is raised by `suspenders_cancel` and consumed by the coroutine. -/
  req : r'.cancelReq c = (raisesRequest c act || (r.cancelReq c && !(a = .co c && consumesRequest act)))
  /-- A pending wake stays. -/
  pending : r.pendingWake c = true → r'.pendingWake c = true
  /-- Whoever else writes `io_result` delivers a cancel or a timeout. -/
  io : a ≠ .co c → r'.ioResult c = r.ioResult c ∨ r'.ioResult c = .timedout ∨
    (r'.ioResult c = .canceled ∧ act = .waker ∧ r.life c = .suspended ∧
      (pc = .wakeMiss .cancel c ∨ pc = .wakeMiss .deliver c))
  /-- Operations are only canceled. -/
  op : a ≠ .co c ∨ act = .waker →
    r'.op c = r.op c ∨ ∃ o, r.op c = some o ∧ r'.op c = some { o with asyncCancel := true }

variable {r a c}

lemma SameFlags.told {r' : Runtime} {pc : Pc} {act : Act} (h : SameFlags r r')
    (hraise : raisesRequest c act = false) (hcons : consumesRequest act = false) :
    Told r a c pc act r' where
  req := by simp [h.req, hraise, hcons]
  pending := by rw [h.pending]; exact id
  io _ := Or.inl (by rw [h.io])
  op _ := Or.inl (by rw [h.op])

lemma told_iouCancel {pc : Pc} : Told r a c pc .waker (r.iouCancel t) where
  req := by simp [Runtime.iouCancel, raisesRequest, consumesRequest]
  pending := id
  io _ := Or.inl rfl
  op _ := by
    by_cases hc : c = t
    · subst hc
      cases ho : r.op c with
      | none => exact Or.inl (by simp [Runtime.iouCancel, ho])
      | some o => exact Or.inr ⟨o, rfl, by simp [Runtime.iouCancel, ho]⟩
    · exact Or.inl (by simp [Runtime.iouCancel, hc])

/-- A write to `io_result` of coroutine `t`, and a wake. -/
lemma told_ioResult {r' : Runtime} {pc : Pc} {x : IoResult}
    (h : SameFlags { r with ioResult := Function.update r.ioResult t x } r')
    (hx : x = .timedout ∨ (x = .canceled ∧ r.life t = .suspended ∧
      (pc = .wakeMiss .cancel t ∨ pc = .wakeMiss .deliver t))) :
    Told r a c pc .waker r' where
  req := by simp [h.req, raisesRequest, consumesRequest]
  pending := by rw [h.pending]; exact id
  io _ := by
    rw [h.io]
    by_cases hc : c = t
    · subst hc
      rcases hx with rfl | ⟨rfl, hlife, hpc⟩
      · exact Or.inr (Or.inl (by simp))
      · exact Or.inr (Or.inr ⟨by simp, rfl, hlife, hpc⟩)
    · exact Or.inl (by simp [hc])
  op _ := Or.inl (by rw [h.op])

lemma told_clearCancel {pc : Pc} {act : Act} (hraise : raisesRequest c act = false)
    (hcons : consumesRequest act = true) : Told r a c pc act (r.clearCancel a) := by
  cases a with
  | co d =>
    refine ⟨?_, id, fun _ => Or.inl rfl, fun _ => Or.inl rfl⟩
    by_cases hd : c = d
    · subst hd
      simp [Runtime.clearCancel, hraise, hcons]
    · simp [Runtime.clearCancel, hraise, hd, Ne.symm hd]
  | sched w | ext f => exact ⟨by simp [Runtime.clearCancel, hraise], id, fun _ => Or.inl rfl, fun _ => Or.inl rfl⟩

/-- A coroutine's I/O action changes its own `io_result` and its own operation. -/
lemma Told.ioEffect {r' : Runtime} {pc : Pc} {act : Act} (h : Told r a c pc act r') (hact : act ≠ .waker)
    (pc₀ pc' : Pc) : Told r a c pc act (r'.ioEffect a pc₀ pc') := by
  have hne : ∀ d, a = .co d → a ≠ .co c → c ≠ d := by
    rintro d rfl hac rfl
    exact hac rfl
  unfold Runtime.ioEffect
  split
  · exact ⟨h.req, h.pending, fun hac => by simpa [hne _ rfl hac] using h.io hac, h.op⟩
  · exact ⟨h.req, h.pending, h.io, fun hac => by simpa [hne _ rfl (hac.resolve_right hact)] using h.op hac⟩
  · exact ⟨h.req, h.pending, h.io, fun hac => by simpa [hne _ rfl (hac.resolve_right hact)] using h.op hac⟩
  · exact h

lemma told_waker (pc : Pc) : Told r a c pc .waker (r.wakerEffect a pc) := by
  have hsame : Told r a c pc .waker r := (sameFlags_refl r).told rfl rfl
  unfold Runtime.wakerEffect
  split
  · exact (sameFlags_inboxWake r _).told rfl rfl
  · unfold Runtime.cancelIo
    split
    · split
      · exact told_iouCancel _
      · exact told_ioResult _ (sameFlags_wakeNoPreempt _ _ _) (Or.inr ⟨rfl, ‹_›, Or.inl rfl⟩)
    · exact hsame
  · unfold Runtime.deliverCancel
    split
    · exact told_iouCancel _
    · split
      · exact told_ioResult _ ⟨rfl, rfl, rfl, rfl⟩ (Or.inr ⟨rfl, ‹_›, Or.inr rfl⟩)
      · split
        · exact hsame
        · refine ⟨hsame.req, fun hp => ?_, hsame.io, hsame.op⟩
          simp only [Function.update_apply]
          split
          · rfl
          · exact hp
  · unfold Runtime.expireIo
    split
    · exact told_ioResult _ (sameFlags_wakeNoPreempt _ _ _) (Or.inl rfl)
    · exact hsame
  · exact hsame

/-- Every action. -/
lemma told_effect (pc : Pc) (act : Act) (pc' : Pc) : Told r a c pc act (r.effect a pc act pc') := by
  have hsame : ∀ {act : Act}, raisesRequest c act = false → consumesRequest act = false →
      Told r a c pc act r := (sameFlags_refl r).told
  cases act with
  | call api =>
    cases api with
    | cancel t =>
      refine ⟨?_, id, fun _ => Or.inl rfl, fun _ => Or.inl rfl⟩
      by_cases hc : c = t
      · subst hc
        simp [Runtime.effect, raisesRequest]
      · simp [Runtime.effect, raisesRequest, consumesRequest, hc, Ne.symm hc]
    | _ => exact hsame rfl rfl
  | wake n => exact (sameFlags_wakeNoPreempt r _ _).told rfl rfl
  | suspend => exact (sameFlags_switchOut r a _).told rfl rfl
  | preCanceled => exact told_clearCancel rfl rfl
  | decided k st =>
    simp only [Runtime.effect]
    split
    · rename_i hst
      exact told_clearCancel rfl (by simp [consumesRequest, hst])
    · rename_i hst
      refine hsame rfl ?_
      simpa [consumesRequest] using hst
  | selFailed st =>
    simp only [Runtime.effect]
    split
    · rename_i hst
      exact told_clearCancel rfl (by simp [consumesRequest, hst])
    · rename_i hst
      exact hsame rfl (by simp [consumesRequest, hst])
  | ioCanceled => exact (told_clearCancel rfl rfl).ioEffect (by simp) pc pc'
  | io => exact (hsame rfl rfl).ioEffect (by simp) pc pc'
  | waker => exact told_waker pc
  | _ => exact hsame rfl rfl

end Flags

/-! ## The invariant -/

/-- The request of coroutine `c` against what has been decided on its account. -/
structure RequestOk (r : Runtime) (c : CrId) : Prop where
  /-- Frames and operations belong together. -/
  framed : Framed (r.core.pc (.co c))
  /-- A wait that a request has ended, -/
  wait : endsWithNode (r.core.pc (.co c)) = true →
    (r.core.heap.waits.node (.wq c)).status = .decided .canceled → r.cancelReq c = true
  /-- a readiness wait that it has ended, -/
  io : awaitsReady (r.core.pc (.co c)) = true → r.ioResult c = .canceled → r.cancelReq c = true
  /-- and its delivery by the scheduler find the request pending. -/
  deliver : ∀ a, waking (r.core.pc a) = some (.deliver, c) → (∃ w, a = .sched w) ∧ r.cancelReq c = true

/-- The counters against the flag and the calls. -/
structure CancelInv (p : Runtime × CancelHist) : Prop where
  co : ∀ c, RequestOk p.1 c
  raised : ∀ c, p.2.raised c = p.2.cleared c + (p.1.cancelReq c).toNat
  cleared : ∀ c, p.2.cleared c = p.2.reported c + (owes (p.1.core.pc (.co c))).toNat

lemma cancelInv_init (cfg : Config) : CancelInv (.init cfg, .init) where
  co _ := ⟨trivial, by simp [Runtime.init, Core.init, endsWithNode],
    by simp [Runtime.init, Core.init, awaitsReady], by simp [Runtime.init, Core.init, waking]⟩
  raised _ := rfl
  cleared _ := rfl

/-- What the steps outside the wait protocol do to a request. -/
lemma rstep_quiet {r r' : Runtime} {e : Ev} (hstep : RStep r e r') (he : ∀ e', e ≠ .core e') (c : CrId) :
    r'.core.pc (.co c) = r.core.pc (.co c) ∧ r'.core.heap = r.core.heap ∧ r'.core.work = r.core.work ∧
    r'.cancelReq = r.cancelReq ∧ (r'.ioResult c = r.ioResult c ∨ r'.ioResult c = .timedout) ∧
    ∀ a, waking (r'.core.pc a) = some (.deliver, c) →
      waking (r.core.pc a) = some (.deliver, c) ∨ ((∃ w, a = .sched w) ∧ r.cancelReq c = true) := by
  cases hstep with
  | core => exact absurd rfl (he _)
  | @stray a t =>
    have hsame := sameFlags_wakeNoPreempt r (r.workerOf a) t
    exact ⟨by simp, by simp, by simp, hsame.req, Or.inl (by rw [hsame.io]), fun a ha => Or.inl (by simpa using ha)⟩
  | @yield d | @bare d | @exit d =>
    have hsame := fun x => sameFlags_switchOut r (.co d) x
    exact ⟨by simp, by simp, by simp, (hsame _).req, Or.inl (by simp only [(hsame _).io]),
      fun a ha => Or.inl (by simpa using ha)⟩
  | @deliverWake w d =>
    have hsame : (r.deliverWake d).cancelReq = r.cancelReq ∧ (r.deliverWake d).ioResult = r.ioResult := by
      unfold Runtime.deliverWake
      split <;> (try split) <;> exact ⟨rfl, rfl⟩
    exact ⟨by simp, by simp, by simp, hsame.1, Or.inl (by simp only [hsame.2]), fun a ha => Or.inl (by simpa using ha)⟩
  | @deliverCancel w c₀ l l' hat hl hreq =>
    refine ⟨by simp, rfl, rfl, rfl, Or.inl rfl, fun a ha => ?_⟩
    by_cases hw : a = .sched w
    · subst hw
      obtain rfl : c₀ = c := by simpa [waking] using ha
      exact Or.inr ⟨⟨w, rfl⟩, hreq⟩
    · exact Or.inl (by simpa [hw] using ha)
  | @ioTimeout w c₀ =>
    refine ⟨rfl, rfl, rfl, rfl, ?_, fun a ha => Or.inl ha⟩
    by_cases hc : c = c₀
    · subst hc
      exact Or.inr (by simp)
    · exact Or.inl (by simp [hc])
  | _ => exact ⟨rfl, rfl, rfl, rfl, Or.inl rfl, fun a ha => Or.inl ha⟩

section Core

variable {r : Runtime} {a : Ctx} {act : Act} {s : Core} {c : CrId}

/-- Who decides a wait with `SUSPENDERS_CANCELED`. -/
lemma step_canceled {t : Core} (hstep : Step r.core ⟨a, act⟩ t) (hmem : .wq c ∈ act.decides)
    (hcode : act.code = .canceled) : act = .flip c .canceled ∧
      ((∃ lk, r.core.pc a = .wakeLock .cancel c lk) ∨ waking (r.core.pc a) = some (.deliver, c)) := by
  cases hstep with
  | «local» _ hl =>
    rw [hl.decides_nil] at hmem
    cases hmem
  | @flip _ f t lk _ hpc _ _ _ =>
    obtain rfl : c = t := by simpa [Act.decides] using hmem
    cases f with
    | cancel => exact ⟨rfl, Or.inl ⟨lk, hpc⟩⟩
    | deliver => exact ⟨rfl, Or.inr (by simp [hpc, waking])⟩
    | _ => cases hcode
  | @crit _ op => cases op <;> cases hcode
  | sleepFire | selTry | selRetry => cases hcode
  | _ => cases hmem

/-- Somebody else's step. -/
lemma RequestOk.other (h : RequestOk r c) (hf : Footprint r.core ⟨a, act⟩ s)
    (hstep : Step r.core ⟨a, act⟩ s) (hguard : r.Guard a (r.core.pc a) act (s.pc a))
    (hfault : ¬ r.Faults (.core ⟨a, act⟩)) (hne : a ≠ .co c) :
    RequestOk { r.effect a (r.core.pc a) act (s.pc a) with core := s } c := by
  have hpc : s.pc (.co c) = r.core.pc (.co c) := hf.pc _ (Ne.symm hne)
  have htold : Told r a c (r.core.pc a) act (r.effect a (r.core.pc a) act (s.pc a)) := told_effect _ _ _
  have hreq : r.cancelReq c = true → (r.effect a (r.core.pc a) act (s.pc a)).cancelReq c = true := by
    intro hc
    simp [htold.req, hc, hne]
  refine ⟨by rw [hpc]; exact h.framed, fun hends hst => hreq ?_, fun hio hres => hreq ?_, fun b hb => ?_⟩
  · rw [hpc] at hends
    by_cases hmem : .wq c ∈ act.decides
    · have hcode : act.code = .canceled := by
        have hdec := (hf.waits.decided _ hmem).2.1
        rw [hst] at hdec
        injection hdec with hdec
        exact hdec.symm
      obtain ⟨rfl, ⟨lk, hlock⟩ | hdel⟩ := step_canceled hstep hmem hcode
      · by_contra hno
        exact hfault (.stale hlock (by simpa using hno) hends)
      · exact (h.deliver a hdel).2
    · refine h.wait hends ?_
      rw [← (hf.waits.kept _ hmem hne).1]
      exact hst
  · rw [hpc] at hio
    rcases htold.io hne with heq | heq | ⟨-, rfl, hlife, hmiss | hmiss⟩
    · exact h.io hio (heq ▸ hres)
    · rw [heq] at hres
      cases hres
    · by_contra hno
      exact hfault (.staleIo hmiss (by simpa using hno) hlife hio)
    · exact (h.deliver a (by rw [hmiss]; rfl)).2
  · have hold : waking (r.core.pc b) = some (.deliver, c) := by
      by_cases hba : b = a
      · subst hba
        rcases step_waking hstep hb (by simp) with hold | ⟨rfl, hidle, hnew⟩
        · exact hold
        · rw [hidle, hnew] at hguard
          exact absurd rfl hguard.1
      · rw [← hf.pc b hba]
        exact hb
    exact ⟨(h.deliver b hold).1, hreq (h.deliver b hold).2⟩

/-- How a coroutine comes to a readiness wait. -/
lemma step_readiness {t : Core} (hstep : Step s ⟨.co c, act⟩ t) (h : awaitsReady (t.pc (.co c)) = true) :
    (act = .io ∧ ∃ again, s.pc (.co c) = .ioTry again ∧ t.pc (.co c) = .ioSusp again) ∨
      (awaitsReady (s.pc (.co c)) = true ∧ (act = .suspend ∨ ∃ w, act = Work.act w)) := by
  have hplain : ∀ {pc : Pc}, plain pc = true → awaitsReady pc = false := by
    intro pc hp
    cases pc <;> first | rfl | cases hp
  cases hstep with
  | «local» _ hl =>
    rw [Core.setPc_pc_self] at h ⊢
    generalize s.pc (.co c) = pc at hl
    cases hl with
    | call => simp [hplain (plain_entry _ _ _)] at h
    | preCanceled | preExpired => simp [hplain (plain_fail _ _)] at h
    | preGo => simp [hplain (plain_go _ _ _ _)] at h
    | ioRegister => exact Or.inl ⟨rfl, _, rfl, rfl⟩
    | ioSuspend => exact Or.inr ⟨rfl, Or.inl rfl⟩
    | ioReady | wakeGiveUp => split at h <;> cases h
    | _ => cases h
  | crit => simp [hplain (plain_next _ _)] at h
  | decided => simp [hplain (plain_after _ _)] at h
  | @wake _ n => exact Or.inr ⟨h, Or.inr ⟨.wake n, rfl⟩⟩
  | @unlock _ lk => exact Or.inr ⟨h, Or.inr ⟨.unlock lk, rfl⟩⟩
  | @fin _ n => exact Or.inr ⟨h, Or.inr ⟨.fin n, rfl⟩⟩
  | flip | selTry | selRetry =>
    simp only [Core.setWork_pc, Core.setPc_pc_self] at h
    split at h <;> cases h
  | _ => simp [awaitsReady] at h

/-- A request that is consumed is pending. -/
lemma RequestOk.pending (h : RequestOk r c) (hstep : Step r.core ⟨.co c, act⟩ s)
    (hguard : r.Guard (.co c) (r.core.pc (.co c)) act (s.pc (.co c))) (hact : consumesRequest act = true) :
    r.cancelReq c = true := by
  cases hstep with
  | «local» _ hl =>
    rw [Core.setPc_pc_self] at hguard
    have hio := h.io
    generalize r.core.pc (.co c) = pc at hl hguard hio
    cases hl with
    | preCanceled => exact hguard c rfl
    | ioCanceled => exact hio rfl hguard
    | iouCanceled => exact hguard.2
    | _ => cases hact
  | @decided _ k l st hpc _ _ hst =>
    obtain ⟨rfl, hk⟩ : st = .canceled ∧ k.isRelock = false := by simpa [consumesRequest] using hact
    exact h.wait (by simp [hpc, endsWithNode, hk]) hst
  | @selFailed _ _ st hpc _ hst =>
    obtain rfl : st = .canceled := by simpa [consumesRequest] using hact
    exact h.wait (by simp [hpc, endsWithNode]) (hst.resolve_right (by simp))
  | _ => cases hact

/-- What a coroutine's own step makes of what it owes. -/
lemma RequestOk.owes (h : RequestOk r c) (hinv : Inv r.core) (hstep : Step r.core ⟨.co c, act⟩ s)
    (hfault : ¬ r.Faults (.core ⟨.co c, act⟩)) :
    (consumesRequest act).toNat + (owes (r.core.pc (.co c))).toNat =
      (owes (s.pc (.co c))).toNat + (reportsCancel act).toNat := by
  refine owes_step hinv h.framed hstep ?_ ?_
  · rintro rfl o g hpc
    exact hfault (.syncEntry hpc)
  · rintro g rfl
    exact hfault .syncWait

/-- The coroutine's own step. -/
lemma RequestOk.self (h : RequestOk r c) (hs : SchedInv r) (hinv : Inv r.core) (hactive : r.Active (.co c))
    (hstep : Step r.core ⟨.co c, act⟩ s)
    (hguard : r.Guard (.co c) (r.core.pc (.co c)) act (s.pc (.co c)))
    (hfault : ¬ r.Faults (.core ⟨.co c, act⟩)) :
    RequestOk { r.effect (.co c) (r.core.pc (.co c)) act (s.pc (.co c)) with core := s } c := by
  have hf := step_footprint hinv hstep
  have htold : Told r (.co c) c (r.core.pc (.co c)) act
      (r.effect (.co c) (r.core.pc (.co c)) act (s.pc (.co c))) := told_effect _ _ _
  refine ⟨framed_step hinv hstep h.framed, fun hends hst => ?_, fun hio hres => ?_, fun b hb => ?_⟩
  · obtain ⟨hold, heq⟩ := endsWithNode_step hinv hstep hends (by rw [hst]; simp)
    have hreq := h.wait hold (heq ▸ hst)
    cases hcons : consumesRequest act with
    | false => simp [htold.req, hreq, hcons]
    | true =>
      -- whoever has consumed the request is not in the wait any more
      have howes := h.owes hinv hstep hfault
      rw [hcons] at howes
      cases hnew : Sched.owes (s.pc (.co c)) with
      | true =>
        rw [endsWithNode_of_owes hnew] at hends
        cases hends
      | false =>
        simp [hnew, (silent_of_consumes hcons c).1] at howes
  · rcases step_readiness hstep hio with ⟨rfl, again, hfrom, hto⟩ | ⟨hold, hact⟩
    · simp [hfrom, hto, Runtime.effect, Runtime.ioEffect] at hres
    · have hsame : SameFlags r (r.effect (.co c) (r.core.pc (.co c)) act (s.pc (.co c))) := by
        rcases hact with rfl | ⟨w, rfl⟩
        · exact sameFlags_switchOut r (.co c) .suspended
        · cases w with
          | wake n => exact sameFlags_wakeNoPreempt r _ _
          | unlock | fin => exact sameFlags_refl r
      simp only [hsame.io, hsame.req] at hres ⊢
      exact h.io hold hres
  · by_cases hbc : b = .co c
    · subst hbc
      rcases step_waking hstep hb (by simp) with hold | ⟨rfl, hidle, hnew⟩
      · obtain ⟨⟨w, hw⟩, -⟩ := h.deliver _ hold
        cases hw
      · rw [hidle, hnew] at hguard
        exact absurd rfl hguard.1
    · have hold : waking (r.core.pc b) = some (.deliver, c) := by
        rw [← hf.pc b hbc]
        exact hb
      obtain ⟨⟨w, rfl⟩, -⟩ := h.deliver b hold
      -- the scheduler that delivers is not executing the coroutine
      exfalso
      have hpin := hs.waker w _ _ hold (by simp)
      obtain ⟨w', hpin', hrun⟩ := hactive
      obtain rfl : w = w' := Option.some.inj (hpin.symm.trans hpin')
      rw [(hs.rest w c hrun).2.1] at hold
      cases hold

end Core

/-- Every step that is no fault keeps the counters in order. -/
lemma cancelInv_step {p q : Runtime × CancelHist} {e : Ev} (h : CancelInv p) (hs : SchedInv p.1)
    (hinv : Inv p.1.core) (hstep : Observed RStep CancelHist.observe p e q) (hfault : ¬ p.1.Faults e) :
    CancelInv q := by
  obtain ⟨r, m⟩ := p
  obtain ⟨r', m'⟩ := q
  obtain ⟨hr, rfl⟩ : RStep r e r' ∧ m' = m.observe r e r' := hstep
  have hraised : ∀ c, (m.observe r e r').raised c =
      (m.observe r e r').cleared c + (r'.cancelReq c).toNat := by
    intro c
    have hold := h.raised c
    simp only [CancelHist.observe] at hold ⊢
    cases hb : r.cancelReq c <;> cases hb' : r'.cancelReq c <;> simp [hb] at hold ⊢ <;> omega
  by_cases hcore : ∃ e', e = .core e'
  · obtain ⟨⟨a, act⟩, rfl⟩ := hcore
    cases hr with
    | @core _ _ s hactive _ hcore hguard =>
      have hf := step_footprint hinv hcore
      refine ⟨fun c => ?_, hraised, fun c => ?_⟩
      · by_cases ha : a = .co c
        · subst ha
          exact (h.co c).self hs hinv hactive hcore hguard hfault
        · exact (h.co c).other hf hcore hguard hfault ha
      · have hold := h.cleared c
        have htold : Told r a c (r.core.pc a) act (r.effect a (r.core.pc a) act (s.pc a)) := told_effect _ _ _
        simp only [CancelHist.observe, htold.req, Ev.reports] at hold ⊢
        by_cases ha : a = .co c
        · subst ha
          have howes : (consumesRequest act).toNat + (owes (r.core.pc (.co c))).toNat =
              (owes (s.pc (.co c))).toNat + (reportsCancel act).toNat := (h.co c).owes hinv hcore hfault
          have hclear : (r.cancelReq c && !(raisesRequest c act ||
              (r.cancelReq c && !(decide (Ctx.co c = .co c) && consumesRequest act)))) = consumesRequest act := by
            cases hcons : consumesRequest act with
            | false => cases r.cancelReq c <;> simp
            | true =>
              have hpending : r.cancelReq c = true := (h.co c).pending hcore hguard hcons
              simp [hpending, (silent_of_consumes hcons c).2]
          rw [hclear]
          simp only [decide_true, Bool.true_and]
          omega
        · rw [hf.pc _ (Ne.symm ha)]
          cases a with
          | co d =>
            have hd : d ≠ c := by
              rintro rfl
              exact ha rfl
            cases r.cancelReq c <;> simp [hd, hold]
          | sched | ext => cases r.cancelReq c <;> simp [hold]
  · have hne : ∀ e', e ≠ .core e' := fun e' he => hcore ⟨e', he⟩
    refine ⟨fun c => ?_, hraised, fun c => ?_⟩
    · obtain ⟨hpc, hheap, -, hreq, hio, hdel⟩ := rstep_quiet hr hne c
      have hold := h.co c
      refine ⟨by rw [hpc]; exact hold.framed, ?_, fun hawait hres => ?_, fun a ha => ?_⟩
      · rw [hpc, hheap, hreq]
        exact hold.wait
      · rw [hpc] at hawait
        rw [hreq]
        rcases hio with heq | heq
        · exact hold.io hawait (heq ▸ hres)
        · rw [heq] at hres
          cases hres
      · rw [hreq]
        rcases hdel a ha with ha | ⟨hw, hc⟩
        · exact hold.deliver a ha
        · exact ⟨hw, hc⟩
    · obtain ⟨hpc, -, -, hreq, -⟩ := rstep_quiet hr hne c
      have hrep : e.reports c = false := by
        cases e <;> first | rfl | exact absurd rfl (hne _)
      have hold := h.cleared c
      simp only [CancelHist.observe, hreq, hrep, hpc] at hold ⊢
      simp [hold]

lemma cancelInv_reachable {cfg : Config} {p : Runtime × CancelHist}
    (hp : Reachable (Restrict (Observed RStep CancelHist.observe) Faultless) (.init cfg, .init) p) :
    CancelInv p := by
  have hplain : ∀ q, Reachable (Restrict (Observed RStep CancelHist.observe) Faultless) (.init cfg, .init) q →
      Reachable RStep (.init cfg) q.1 := fun q hq => hq.of_restrict.of_observed
  refine hp.invariant_of (J := fun q => SchedInv q.1 ∧ Inv q.1.core)
    (fun q hq => ⟨schedInv_reachable (hplain q hq), core_inv (hplain q hq)⟩) (cancelInv_init cfg) ?_
  rintro q e q' ⟨hs, hinv⟩ - hI ⟨hstep, hfault⟩
  exact cancelInv_step hI hs hinv hstep hfault

end Suspenders.Sched
