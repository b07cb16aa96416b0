import Suspenders.Lib.Pool
import Suspenders.Queue.Lists

/-!
# Tasks are executed once

What the drainers do with the tasks is a pool (`State.pool`): every step of the queue is one or two steps of the pool,
or none.  A submission that still waits, or that has failed, has no task in it (`CallerOk`).
-/

namespace Suspenders.Queue

open Lib

/-- What a drainer does with its variable `t`. -/
inductive Stage
  /-- There is no task in it, or there is one that the drainer does not know of yet. -/
  | free
  /-- There is a task in it that has not been executed. -/
  | held
  /-- The function of the task has returned. -/
  | ran
  deriving DecidableEq

def DPc.stage : DPc → Stage
  | none | pre .recv | cs .recv | blk .recv | exit | exited => .free
  | pre .leave | cs .leave | blk .leave | release | broadcast | unlockEnd | finish | workEnd => .ran
  | _ => .held

namespace State

variable (s : State)

/-- There is a task in the variable of drainer `d`. -/
def Loaded (d : DrainerId) : Prop :=
  (s.dpc d).stage ≠ .free ∨ s.dpc d = .blk .recv ∧ s.node (.drainer d) = .decided .ok

/-- The tasks of the queue, as a pool. -/
def pool : Pool DrainerId TaskId where
  buf := s.buf
  hand := fun d => if (s.dpc d).stage = .ran then none else s.hand d
  busy := fun d => s.dpc d = .body
  accepted := s.accepted
  started := s.started
  finished := s.finished

/-- What is known of submission `t`, by where it is. -/
def CallerOk (t : TaskId) : Prop :=
  match s.cpc t with
  | .none | .submit | .try | .pre .send | .cs .send => t ∉ s.accepted
  | .blk .send => t ∈ s.accepted ↔ s.node (.caller t) = .decided .ok
  | .fail st => t ∉ s.accepted ∧ st ≠ .ok
  | .pre .sync | .cs .sync => t ∈ s.accepted
  | .blk .sync => t ∈ s.accepted ∧ (s.node (.caller t) = .decided .ok → t ∈ s.finished)
  | .ret st | .returned st =>
    (t ∈ s.accepted ↔ st = .ok) ∧ (st = .ok → (s.task t).sync = true → t ∈ s.finished)

end State

variable {cfg : Config} {s s' : State} {ev : Event}

/-! ## The variables of the drainers -/

/-- What the step of somebody else does to drainer `e`: it ends its wait, or nothing. -/
inductive NodeStep (s s' : State) (e : DrainerId) : Prop
  | same : s'.node (.drainer e) = s.node (.drainer e) → s'.hand e = s.hand e → NodeStep s s' e
  | failed {st : Code} : s.node (.drainer e) = .waiting → s'.node (.drainer e) = .decided st → st ≠ .ok →
      s'.hand e = s.hand e → NodeStep s s' e
  /-- The wait succeeds: with a task, or with the mutex. -/
  | granted {l : WaitList} : s.node (.drainer e) = .waiting → s'.node (.drainer e) = .decided .ok →
      (s.dpc e).list = some l → (l = .mutex → s'.owner = some e) → (l = .receivers → (s'.hand e).isSome = true) →
      (l ≠ .receivers → s'.hand e = s.hand e) → NodeStep s s' e

lemma step_other (hparked : s.Parked) (hstep : Step cfg s ev s') {e : DrainerId} (hev : ev ≠ .drain e) :
    s'.dpc e = s.dpc e ∧ NodeStep s s' e := by
  have hne {d : DrainerId} (hd : Event.drain d ≠ .drain e) : e ≠ d := fun heq => hd (by rw [heq])
  cases hstep with
  | @condUnlock d | @start d | @unlockEnd d =>
    refine ⟨by simp [hne hev], ?_⟩
    have hhand : (s.mutexUnlock d).hand = s.hand := by rw [State.mutexUnlock_eq]
    obtain hsame | ⟨_, ⟨⟩, hmem, hok, howner⟩ := s.mutexUnlock_node d (.drainer e)
    · exact .same hsame (by simp [hhand])
    · obtain ⟨hlist, hw⟩ := hparked.waits hmem
      exact .granted hw hok hlist (fun _ => howner) (by simp) (by simp [hhand])
  | broadcast =>
    refine ⟨by simp [hne hev], ?_⟩
    by_cases hmem : e ∈ s.parked .cond
    · obtain ⟨hlist, hw⟩ := hparked.waits hmem
      exact .granted hw (by simp [State.condBroadcast, hmem]) hlist (by simp) (by simp) fun _ => rfl
    · exact .same (by simp [State.condBroadcast, hmem]) rfl
  | finish =>
    simp only [State.setD]
    split
    · exact ⟨by simp [hne hev, State.syncDone], .same (State.syncDone_node (by simp)) rfl⟩
    · exact ⟨by simp [hne hev], .same rfl rfl⟩
  | exit => exact ⟨by simp [hne hev, State.drainDone], .same (State.drainDone_node (by simp)) rfl⟩
  | @sendHand t d ds _ _ hl =>
    refine ⟨rfl, ?_⟩
    by_cases he : e = d
    · subst he
      obtain ⟨hlist, hw⟩ := hparked.waits (l := .receivers) (d := e) (by simp [hl])
      exact .granted hw (by simp) hlist (by simp) (by simp) (by simp)
    · exact .same (by simp [he]) (by simp [he])
  | close =>
    unfold State.chanClose
    split
    · exact ⟨rfl, .same rfl rfl⟩
    · by_cases hmem : e ∈ s.parked .receivers
      · exact ⟨rfl, .failed (hparked.waits hmem).2 (by simp [hmem]; rfl) (by simp) rfl⟩
      · exact ⟨rfl, .same (by simp [hmem]) rfl⟩
  | @wake a st hw hst =>
    have hok : st ≠ .ok := by
      rintro rfl
      simp at hst
    by_cases ha : a = .drainer e
    · subst ha
      exact ⟨rfl, .failed hw (by simp) hok rfl⟩
    · cases a with
      | drainer d => exact ⟨rfl, .same (by simp [State.unlink, Ne.symm ha]) rfl⟩
      | caller t => exact ⟨rfl, .same (by simp [State.unlink]) rfl⟩
      | destroyer => exact ⟨rfl, .same (by simp [State.unlink]) rfl⟩
  | control | preFailed | woken | recvPop | recvRefill | recvDirect | recvPark | lockFree | lockPark | condPark
  | relockFree | relockPark | enterBarrier | enter | startSerial | bodyReturn | leaveBarrier | leave | workEnd =>
    exact ⟨by simp [hne hev], .same (by simp [hne hev]) (by simp [hne hev])⟩
  | _ => exact ⟨rfl, .same (by simp) rfl⟩

/-- A drainer knows what is in its variable. -/
lemma step_own {e : DrainerId} (hstep : Step cfg s (.drain e) s')
    (h : (s.hand e).isSome = true ↔ s.Loaded e) : (s'.hand e).isSome = true ↔ s'.Loaded e := by
  unfold State.Loaded at h ⊢
  cases hstep with
  | condUnlock hd | start hd | unlockEnd hd =>
    rw [State.mutexUnlock_eq]
    simp_all [DPc.stage]
  | @preFailed _ c st hd hst =>
    obtain rfl | rfl | rfl := State.entry_code hst
    all_goals cases c <;> simp_all [DPc.stage, DCall.after]
  | @woken _ c st hd hst => cases c <;> cases st <;> simp_all [DPc.stage, DCall.after]
  | control hd =>
    generalize hp : s.dpc e = p at hd h
    cases hd with
    | @go c => cases c <;> simp_all [DPc.stage]
    | @lockOwn c hc =>
      obtain rfl | rfl := hc
      · simp_all [DPc.stage, DCall.after]
      · simp_all [DPc.stage, DCall.after]
    | _ => simp_all [DPc.stage, DCall.after]
  | finish hd =>
    simp only [State.setD]
    split <;> simp_all [DPc.stage, State.syncDone]
  | bodyReturn hd =>
    simp only [State.setD, Function.update_self]
    split <;> simp_all [DPc.stage]
  | leave hd =>
    simp only [State.setD, Function.update_self]
    split <;> simp_all [DPc.stage]
  | lockFree hd hc | lockPark hd hc =>
    obtain rfl | rfl := hc
    · simp_all [DPc.stage, DCall.after]
    · simp_all [DPc.stage, DCall.after]
  | _ => simp_all [DPc.stage, DCall.after, State.condBroadcast, State.drainDone]

/-- The variables of the drainers after a step. -/
lemma hand_step (hparked : s.Parked) (hstep : Step cfg s ev s')
    (h : ∀ d, (s.hand d).isSome = true ↔ s.Loaded d) (e : DrainerId) :
    (s'.hand e).isSome = true ↔ s'.Loaded e := by
  by_cases hev : ev = .drain e
  · subst hev
    exact step_own hstep (h e)
  · obtain ⟨hdpc, hnode⟩ := step_other hparked hstep hev
    cases hnode with
    | same hnode hhand => rw [hhand, h e, State.Loaded, State.Loaded, hdpc, hnode]
    | failed hw hst hok hhand =>
      rw [hhand, h e, State.Loaded, State.Loaded, hdpc, hw, hst]
      simp [hok]
    | @granted l hw hst hlist _ hsome hsame =>
      by_cases hl : l = .receivers
      · subst hl
        simp [hsome, State.Loaded, hdpc, DPc.eq_of_list hlist, hst]
      · have hblk : s.dpc e ≠ .blk .recv := fun heq => hl (by simpa [heq, DPc.list, eq_comm] using hlist)
        rw [hsame hl, h e, State.Loaded, State.Loaded, hdpc]
        simp [hblk]

lemma finished_step (hstep : Step cfg s ev s') {t : TaskId} (ht : t ∈ s.finished) : t ∈ s'.finished := by
  cases hstep with
  | condUnlock | start | unlockEnd =>
    rw [State.mutexUnlock_eq]
    exact ht
  | finish =>
    simp only [State.setD]
    split <;> exact ht
  | close =>
    unfold State.chanClose
    split <;> exact ht
  | @wake a => cases a <;> exact ht
  | bodyReturn => simp [ht]
  | _ => exact ht

/-- What the step of a drainer does with the task in its variable. -/
lemma ran_own {e : DrainerId} {t : TaskId} (hstep : Step cfg s (.drain e) s')
    (hran : (s'.dpc e).stage = .ran) (ht : s'.hand e = some t) :
    s.hand e = some t ∧ ((s.dpc e).stage = .ran ∨ t ∈ s'.finished) := by
  cases hstep with
  | condUnlock hd | start hd | unlockEnd hd =>
    rw [State.mutexUnlock_eq] at hran ht
    simp_all [DPc.stage]
  | @preFailed _ c st hd hst =>
    obtain rfl | rfl | rfl := State.entry_code hst
    all_goals cases c <;> simp_all [DPc.stage, DCall.after]
  | @woken _ c st hd hst => cases c <;> cases st <;> simp_all [DPc.stage, DCall.after]
  | control hd =>
    generalize hp : s.dpc e = p at hd
    cases hd with
    | @go c => cases c <;> simp_all [DPc.stage]
    | @lockOwn c hc =>
      obtain rfl | rfl := hc
      · simp_all [DPc.stage, DCall.after]
      · simp_all [DPc.stage, DCall.after]
    | _ => simp_all [DPc.stage, DCall.after]
  | finish hd =>
    simp only [State.setD] at hran ht
    split at ht <;> simp_all [DPc.stage, State.syncDone]
  | lockFree hd hc | lockPark hd hc =>
    obtain rfl | rfl := hc
    · simp_all [DPc.stage, DCall.after]
    · simp_all [DPc.stage, DCall.after]
  | _ => simp_all [DPc.stage, DCall.after, State.condBroadcast, State.drainDone]
/-- A task stays in the variable until its function has returned. -/
lemma ran_step (hparked : s.Parked) (hstep : Step cfg s ev s')
    (h : ∀ d t, (s.dpc d).stage = .ran → s.hand d = some t → t ∈ s.finished) (e : DrainerId) (t : TaskId)
    (hran : (s'.dpc e).stage = .ran) (ht : s'.hand e = some t) : t ∈ s'.finished := by
  by_cases hev : ev = .drain e
  · subst hev
    obtain ⟨hhand, hold | hfin⟩ := ran_own hstep hran ht
    · exact finished_step hstep (h e t hold hhand)
    · exact hfin
  · obtain ⟨hdpc, hnode⟩ := step_other hparked hstep hev
    have hhand : s'.hand e = s.hand e := by
      cases hnode with
      | same _ hhand => exact hhand
      | failed _ _ _ hhand => exact hhand
      | @granted l _ _ hlist _ _ hsame =>
        refine hsame fun hl => ?_
        subst hl
        rw [hdpc, DPc.eq_of_list hlist] at hran
        simp [DPc.stage] at hran
    exact finished_step hstep (h e t (hdpc ▸ hran) (hhand ▸ ht))

/-! ## The pool -/

/-- A step that moves no task. -/
lemma State.pool_congr (hbuf : s'.buf = s.buf) (hhand : s'.hand = s.hand)
    (hstage : ∀ e, (s'.dpc e).stage = .ran ↔ (s.dpc e).stage = .ran)
    (hbody : ∀ e, s'.dpc e = .body ↔ s.dpc e = .body) (haccepted : s'.accepted = s.accepted)
    (hstarted : s'.started = s.started) (hfinished : s'.finished = s.finished) : s'.pool = s.pool := by
  simp [State.pool, hbuf, hhand, hstage, hbody, haccepted, hstarted, hfinished]

/-- A step of drainer `d` that moves no task. -/
lemma State.pool_run {d : DrainerId} {p q : DPc} (hd : s.dpc d = q) (hdpc : s'.dpc = Function.update s.dpc d p)
    (hstage : p.stage = .ran ↔ q.stage = .ran) (hbody : p = .body ↔ q = .body)
    (hbuf : s'.buf = s.buf) (hhand : s'.hand = s.hand) (haccepted : s'.accepted = s.accepted)
    (hstarted : s'.started = s.started) (hfinished : s'.finished = s.finished) : s'.pool = s.pool := by
  refine State.pool_congr hbuf hhand (fun e => ?_) (fun e => ?_) haccepted hstarted hfinished
  · by_cases he : e = d
    · simp [he, hdpc, hd, hstage]
    · simp [he, hdpc]
  · by_cases he : e = d
    · simp [he, hdpc, hd, hbody]
    · simp [he, hdpc]

lemma DStep.plain {d : DrainerId} {p p' : DPc} (h : DStep cfg s d p p') :
    (p'.stage = .ran ↔ p.stage = .ran) ∧ (p' = .body ↔ p = .body) := by
  cases h with
  | @go c => cases c <;> simp [DPc.stage]
  | @lockOwn c hc =>
    obtain rfl | rfl := hc
    · simp [DPc.stage, DCall.after]
    · simp [DPc.stage, DCall.after]
  | _ => simp [DPc.stage, DCall.after]

lemma State.pool_eq {d : DrainerId} {p : DPc} {x : Option TaskId} (hdpc : s'.dpc = Function.update s.dpc d p)
    (hhand : s'.hand = Function.update s.hand d x) : s'.pool =
      ⟨s'.buf, Function.update s.pool.hand d (if p.stage = .ran then none else x),
        Function.update s.pool.busy d (decide (p = .body)), s'.accepted, s'.started, s'.finished⟩ := by
  have hhands : s'.pool.hand = Function.update s.pool.hand d (if p.stage = .ran then none else x) := by
    funext e
    by_cases he : e = d
    · simp [State.pool, hdpc, hhand, he]
    · simp [State.pool, hdpc, hhand, he]
  have hbusy : s'.pool.busy = Function.update s.pool.busy d (decide (p = .body)) := by
    funext e
    by_cases he : e = d
    · simp [State.pool, hdpc, he]
    · simp [State.pool, hdpc, he]
  rw [← hhands, ← hbusy]
  rfl

/-- Steps of the pool in which drainer `d` goes on. -/
lemma State.pool_steps {d : DrainerId} {p : DPc} {x : Option TaskId} (hdpc : s'.dpc = Function.update s.dpc d p)
    (hhand : s'.hand = Function.update s.hand d x)
    (h : Pool.Moves s.pool
      ⟨s'.buf, Function.update s.pool.hand d (if p.stage = .ran then none else x),
        Function.update s.pool.busy d (decide (p = .body)), s'.accepted, s'.started, s'.finished⟩) :
    Pool.Moves s.pool s'.pool :=
  State.pool_eq hdpc hhand ▸ h

/-- A drainer that receives has no task. -/
lemma State.pool_free (hhand : ∀ d, (s.hand d).isSome = true ↔ s.Loaded d) {d : DrainerId}
    (h : s.dpc d = .cs .recv ∨ s.dpc d = .blk .recv ∧ s.node (.drainer d) = .waiting) :
    s.pool.hand d = none ∧ s.pool.busy d = false ∧ Function.update s.pool.busy d false = s.pool.busy := by
  have hbusy : s.pool.busy d = false := by
    rcases h with h | ⟨h, -⟩
    · simp [State.pool, h]
    · simp [State.pool, h]
  have hnone : s.hand d = none := by
    have := hhand d
    rcases h with h | ⟨h, hw⟩
    · simpa [State.Loaded, h, DPc.stage] using this
    · simpa [State.Loaded, h, hw, DPc.stage] using this
  refine ⟨by simp [State.pool, hnone], hbusy, ?_⟩
  rw [← hbusy, Function.update_eq_self]

/-- The task of a submission that is about to send is new. -/
lemma State.caller_fresh (hcaller : ∀ t, s.CallerOk t) {t : TaskId} (h : s.cpc t = .cs .send ∨ s.cpc t = .try) :
    t ∉ s.accepted := by
  have := hcaller t
  rcases h with h | h
  · simpa [State.CallerOk, h] using this
  · simpa [State.CallerOk, h] using this

/-- The task of a submission that waits to send is new. -/
lemma State.sender_fresh (hchan : Chan cfg s) (hcaller : ∀ t, s.CallerOk t) {t : TaskId} (ht : t ∈ s.senders) :
    t ∉ s.accepted := by
  have hloc := (hchan.senders.mem () t).mp ht
  unfold State.callerLoc at hloc
  split at hloc
  next h => simpa [State.CallerOk, h.2, h.1] using hcaller t
  next => simp at hloc

/-- What a step does with the tasks. -/
lemma step_pool (hchan : Chan cfg s) (hhand : ∀ d, (s.hand d).isSome = true ↔ s.Loaded d)
    (hcaller : ∀ t, s.CallerOk t) (hstep : Step cfg s ev s') :
    Pool.Moves s.pool s'.pool := by
  have same (h : s'.pool = s.pool) : Pool.Moves s.pool s'.pool := h ▸ .refl _
  cases hstep with
  | control hd => exact same (State.pool_run rfl rfl hd.plain.1 hd.plain.2 rfl rfl rfl rfl rfl)
  | @preFailed d c st hd =>
    refine same (State.pool_run hd rfl ?_ ?_ rfl rfl rfl rfl rfl)
    · cases c <;> cases st <;> simp [DPc.stage, DCall.after]
    · cases c <;> cases st <;> simp [DCall.after]
  | @woken d c st hd =>
    refine same (State.pool_run hd rfl ?_ ?_ rfl rfl rfl rfl rfl)
    · cases c <;> cases st <;> simp [DPc.stage, DCall.after]
    · cases c <;> cases st <;> simp [DCall.after]
  | @recvPop d t rest hd hbuf hl =>
    obtain ⟨hnone, hbusy, hsame⟩ := State.pool_free hhand (.inl hd)
    refine State.pool_steps (d := d) (p := .got) (x := some t) rfl rfl ?_
    simp only [reduceCtorEq, decide_false, hsame, DPc.stage, if_false]
    exact .single (.take hbuf hnone hbusy)
  | @recvRefill d t u rest us hd hbuf hl =>
    obtain ⟨hnone, hbusy, hsame⟩ := State.pool_free hhand (.inl hd)
    refine State.pool_steps (d := d) (p := .got) (x := some t) rfl rfl ?_
    simp only [reduceCtorEq, decide_false, hsame, DPc.stage, if_false]
    exact ⟨_, .single (.take hbuf hnone hbusy),
      .single (.push (State.sender_fresh hchan hcaller (by simp [hl]))), rfl⟩
  | @recvDirect d u us hd hbuf hl =>
    obtain ⟨hnone, hbusy, hsame⟩ := State.pool_free hhand (.inl hd)
    refine State.pool_steps (d := d) (p := .got) (x := some u) rfl rfl ?_
    simp only [reduceCtorEq, decide_false, hsame, DPc.stage, if_false]
    exact .single (.give (State.sender_fresh hchan hcaller (by simp [hl])) hbuf hnone hbusy)
  | recvPark hd => exact same (State.pool_run hd rfl (by simp [DPc.stage]) (by simp) rfl rfl rfl rfl rfl)
  | lockFree hd hc | lockPark hd hc =>
    obtain rfl | rfl := hc
    · exact same (State.pool_run hd rfl (by simp [DPc.stage, DCall.after]) (by simp [DCall.after]) rfl rfl rfl rfl rfl)
    · exact same (State.pool_run hd rfl (by simp [DPc.stage, DCall.after]) (by simp [DCall.after]) rfl rfl rfl rfl rfl)
  | condUnlock hd | unlockEnd hd =>
    rw [State.mutexUnlock_eq] at same ⊢
    exact same (State.pool_run hd rfl (by simp [DPc.stage]) (by simp) rfl rfl rfl rfl rfl)
  | @start d t hd ht =>
    have hhandd : s.pool.hand d = some t := by simpa [State.pool, hd, DPc.stage] using ht
    rw [State.mutexUnlock_eq]
    refine State.pool_steps (p := .body) (x := some t) rfl (by simp [← ht]) ?_
    simp only [DPc.stage, reduceCtorEq, if_false, ← hhandd, Function.update_eq_self, decide_true]
    exact .single (.start hhandd (by simp [State.pool, hd]))
  | @startSerial d t hd _ ht =>
    have hhandd : s.pool.hand d = some t := by simpa [State.pool, hd, DPc.stage] using ht
    refine State.pool_steps (p := .body) (x := some t) rfl (by simp [← ht]) ?_
    simp only [DPc.stage, reduceCtorEq, if_false, ← hhandd, Function.update_eq_self, decide_true]
    exact .single (.start hhandd (by simp [State.pool, hd]))
  | @bodyReturn d t hd ht =>
    have hhandd : s.pool.hand d = some t := by simpa [State.pool, hd, DPc.stage] using ht
    refine State.pool_steps (d := d) (x := some t) rfl (by simp [← ht]) ?_
    have hp : (if 1 < cfg.spawned then DPc.pre .leave else .finish).stage = .ran ∧
        (if 1 < cfg.spawned then DPc.pre .leave else .finish) ≠ .body := by
      split <;> simp [DPc.stage]
    simp only [hp.1, hp.2, if_true, decide_false]
    exact .single (.finish hhandd (by simp [State.pool, hd]))
  | leave hd =>
    refine same (State.pool_run hd rfl ?_ ?_ rfl rfl rfl rfl rfl)
    · split <;> simp [DPc.stage]
    · split <;> simp
  | finish hd =>
    refine same ?_
    simp only [State.setD]
    split
    · exact State.pool_run hd rfl (by simp [DPc.stage]) (by simp) rfl rfl rfl rfl rfl
    · exact State.pool_run hd rfl (by simp [DPc.stage]) (by simp) rfl rfl rfl rfl rfl
  | @workEnd d hd =>
    refine State.pool_steps (d := d) (x := none) rfl rfl ?_
    have hnone : s.pool.hand d = none := by simp [State.pool, hd, DPc.stage]
    have hbusy : s.pool.busy d = false := by simp [State.pool, hd]
    simp only [DPc.stage, reduceCtorEq, if_false, decide_false, ← hnone, ← hbusy, Function.update_eq_self]
    exact .refl _
  | @sendHand t d ds hc _ hl =>
    have hwait := hchan.parked.waits (l := .receivers) (d := d) (by simp [hl])
    obtain ⟨hnone, hbusy, -⟩ := State.pool_free hhand (.inr ⟨DPc.eq_of_list hwait.1, hwait.2⟩)
    refine State.pool_steps (d := d) (p := s.dpc d) (x := some t) (by simp) rfl ?_
    have hstage : (s.dpc d).stage ≠ .ran := by simp [DPc.eq_of_list hwait.1, DPc.stage]
    have hbody : decide (s.dpc d = .body) = s.pool.busy d := rfl
    simp only [hstage, if_false, hbody, Function.update_eq_self]
    exact .single (.give (State.caller_fresh hcaller hc) (hchan.empty (by simp [hl])).1 hnone hbusy)
  | sendPush hc => exact .single (.push (State.caller_fresh hcaller hc))
  | close =>
    refine same ?_
    unfold State.chanClose
    split <;> rfl
  | @wake a => exact same (by cases a <;> rfl)
  | condPark hd | relockFree hd | relockPark hd | enterBarrier hd | enter hd | leaveBarrier hd | broadcast hd
  | exit hd => exact same (State.pool_run hd rfl (by simp [DPc.stage]) (by simp) rfl rfl rfl rfl rfl)
  | _ => exact same rfl
/-! ## The submissions -/

/-- The step of somebody else does not tell a submission more than it knows. -/
lemma State.CallerOk.keep {t : TaskId} (h : s.CallerOk t) (hcpc : s'.cpc t = s.cpc t) (htask : s'.task t = s.task t)
    (hfin : t ∈ s.finished → t ∈ s'.finished)
    (hacc : s.cpc t ≠ .blk .send → (t ∈ s'.accepted ↔ t ∈ s.accepted))
    (hsend : s.cpc t = .blk .send → (t ∈ s'.accepted ↔ s'.node (.caller t) = .decided .ok))
    (hsync : s.cpc t = .blk .sync → s'.node (.caller t) = .decided .ok →
      s.node (.caller t) = .decided .ok ∨ t ∈ s'.finished) : s'.CallerOk t := by
  unfold State.CallerOk at h ⊢
  rw [hcpc]
  split at h
  case h_10 => exact ⟨by simp_all, fun hok => (hsync ‹_› hok).elim (fun hok => hfin (h.2 hok)) id⟩
  case h_11 => exact ⟨by simp_all, fun hok hs => hfin (h.2 hok (htask ▸ hs))⟩
  case h_12 => exact ⟨by simp_all, fun hok hs => hfin (h.2 hok (htask ▸ hs))⟩
  all_goals simp_all

lemma State.CallerOk.same {t : TaskId} (h : s.CallerOk t) (hcpc : s'.cpc t = s.cpc t) (htask : s'.task t = s.task t)
    (hfin : t ∈ s.finished → t ∈ s'.finished) (hacc : t ∈ s'.accepted ↔ t ∈ s.accepted)
    (hnode : s'.node (.caller t) = s.node (.caller t)) : s'.CallerOk t := by
  refine h.keep hcpc htask hfin (fun _ => hacc) (fun hs => ?_) (fun _ hok => .inl (hnode ▸ hok))
  rw [hacc, hnode]
  simpa [State.CallerOk, hs] using h

lemma State.mem_senders (hchan : Chan cfg s) {t : TaskId} : t ∈ s.senders ↔ s.cpc t = .blk .send ∧ s.node (.caller t) = .waiting := by
  rw [hchan.senders.mem () t, and_comm]
  simp [State.callerLoc]

/-- The step of somebody else. -/
lemma caller_other (hchan : Chan cfg s) (hran : ∀ d t, (s.dpc d).stage = .ran → s.hand d = some t → t ∈ s.finished)
    (hstep : Step cfg s ev s') {t : TaskId} (hev : ev ≠ .submit t) (hcall : ∀ c, ev ≠ .call t c)
    (h : s.CallerOk t) : s'.CallerOk t := by
  have hne {u : TaskId} (hu : Event.submit u ≠ .submit t) : t ≠ u := fun heq => hu (by rw [heq])
  cases hstep with
  | @recvRefill d v u rest us _ _ hl | @recvDirect d u us _ _ hl =>
    by_cases ht : t = u
    · subst ht
      obtain ⟨hs, -⟩ := (State.mem_senders hchan).mp (show t ∈ s.senders by simp [hl])
      exact h.keep rfl rfl id (by simp [hs]) (by simp) (by simp [hs])
    · exact h.same rfl rfl id (by simp [ht]) (by simp [ht])
  | condUnlock | start | unlockEnd =>
    rw [State.mutexUnlock_eq]
    exact h.same rfl rfl id Iff.rfl (State.mutexUnlock_node_of_ne _ (by simp))
  | @finish d u hd hu =>
    simp only [State.setD]
    split
    · by_cases ht : t = u
      · subst ht
        have hfin := hran d t (by simp [hd, DPc.stage]) hu
        refine h.keep rfl rfl id (fun _ => Iff.rfl) (fun hs => ?_) (fun _ _ => .inr hfin)
        have hnode : (s.syncDone t).node (.caller t) = s.node (.caller t) := by
          refine State.grant_of_notMem fun hmem => ?_
          split at hmem
          · simp [State.mem_syncWaiters, hs] at hmem
          · simp at hmem
        show t ∈ s.accepted ↔ (s.syncDone t).node (.caller t) = .decided .ok
        rw [hnode]
        simpa [State.CallerOk, hs] using h
      · exact h.same rfl rfl id Iff.rfl (State.syncDone_node (by simp [ht]))
    · exact h.same rfl rfl id Iff.rfl rfl
  | exit => exact h.same rfl rfl id Iff.rfl (State.drainDone_node (by simp))
  | bodyReturn => exact h.same rfl rfl (by simp +contextual) Iff.rfl rfl
  | @call u c =>
    have ht : t ≠ u := fun heq => hcall c (by rw [heq])
    exact h.same (by simp [ht]) (by simp [ht]) id Iff.rfl rfl
  | sendHand | sendPush => exact h.same (by simp [hne hev]) rfl id (by simp [hne hev]) (by simp)
  | caller | submit | callerPreFailed | callerWoken | sendPark | fail | syncPark =>
    exact h.same (by simp [hne hev]) rfl id Iff.rfl (by simp [hne hev])
  | close =>
    unfold State.chanClose
    split
    · exact h.same rfl rfl id Iff.rfl rfl
    · by_cases ht : t ∈ s.senders
      · obtain ⟨hs, hw⟩ := (State.mem_senders hchan).mp ht
        refine h.keep rfl rfl id (fun _ => Iff.rfl) (fun _ => ?_) (by simp [hs])
        simpa [State.CallerOk, hs, hw, ht] using h
      · exact h.same rfl rfl id Iff.rfl (by simp [ht])
  | @wake a st hw hst =>
    have hok : st ≠ .ok := by
      rintro rfl
      simp at hst
    by_cases ha : a = .caller t
    · subst ha
      refine h.keep rfl rfl id (fun _ => Iff.rfl) (fun hs => ?_) (by simp [hok])
      simpa [State.CallerOk, hs, hw, hok, State.unlink] using h
    · cases a with
      | caller u =>
        have hu : t ≠ u := fun heq => ha (by rw [heq])
        exact h.same rfl rfl id Iff.rfl (by simp [State.unlink, hu])
      | drainer d => exact h.same rfl rfl id Iff.rfl (by simp [State.unlink])
      | destroyer => exact h.same rfl rfl id Iff.rfl (by simp [State.unlink])
  | _ => exact h.same rfl rfl id Iff.rfl (by simp [State.condBroadcast])

/-- What a call returns says whether the task was accepted. -/
lemma State.CallerOk.after {t : TaskId} (c : CCall) (st : Code) (hcpc : s.cpc t = c.after (s.task t) st)
    (hsend : c = .send → (t ∈ s.accepted ↔ st = .ok))
    (hsync : c = .sync → t ∈ s.accepted ∧ (st = .ok → t ∈ s.finished)) : s.CallerOk t := by
  unfold State.CallerOk
  rw [hcpc]
  cases c with
  | send =>
    have hacc := hsend rfl
    cases st with
    | ok =>
      by_cases hs : (s.task t).sync = true
      · simpa [CCall.after, hs] using hacc
      · simpa [CCall.after, hs] using hacc
    | _ => simpa [CCall.after] using hacc
  | sync =>
    obtain ⟨hacc, hfin⟩ := hsync rfl
    cases st with
    | ok => simp [CCall.after, hacc, hfin]
    | _ => simpa [CCall.after] using hacc

/-- A step of the submission itself. -/
lemma caller_own {t : TaskId} (h : s.CallerOk t) (hsync : s.cpc t ≠ .none → s.syncWg t = 1 ∨ t ∈ s.finished)
    (hstep : Step cfg s (.submit t) s') : s'.CallerOk t := by
  cases hstep with
  | caller hc =>
    generalize hp : s.cpc t = p at hc
    simp only [State.CallerOk, hp] at h
    cases hc with
    | @go c =>
      cases c with
      | send => simpa [State.CallerOk] using h
      | sync => simpa [State.CallerOk] using h
    | sendClosed | tryClosed => exact State.CallerOk.after .send .closed (by simp) (by simpa using h) (by simp)
    | tryFull =>
      exact State.CallerOk.after .send .full (by simp) (by simpa using h) (by simp)
    | synced hwg =>
      have hfin : t ∈ s.finished := by simpa [hp, hwg] using hsync
      exact State.CallerOk.after .sync .ok (by simp) (by simp) (fun _ => ⟨h, fun _ => hfin⟩)
    | ret => simpa [State.CallerOk] using h
  | submit hc =>
    simp only [State.CallerOk, hc] at h
    by_cases hco : s.co t = true
    · simpa [State.CallerOk, hco] using h
    · simpa [State.CallerOk, hco] using h
  | @callerPreFailed _ c st hc hst =>
    have hok : st ≠ .ok := by
      rintro rfl
      simpa using State.preBlock_code hst
    simp only [State.CallerOk, hc] at h
    cases c with
    | send => exact State.CallerOk.after .send st (by simp) (by simpa [hok] using h) (by simp)
    | sync => exact State.CallerOk.after .sync st (by simp) (by simp) (by simpa [hok] using h)
  | @callerWoken _ c st hc hst =>
    simp only [State.CallerOk, hc, hst, Status.decided.injEq] at h
    cases c with
    | send => exact State.CallerOk.after .send st (by simp) (by simpa using h) (by simp)
    | sync => exact State.CallerOk.after .sync st (by simp) (by simp) (by simpa using h)
  | sendHand hc => exact State.CallerOk.after .send .ok (by simp) (by simp) (by simp)
  | sendPush hc => exact State.CallerOk.after .send .ok (by simp) (by simp) (by simp)
  | sendPark hc =>
    simp only [State.CallerOk, hc] at h
    simpa [State.CallerOk] using h
  | fail hc =>
    simp only [State.CallerOk, hc] at h
    simp [State.CallerOk, h.1, h.2]
  | syncPark hc =>
    simp only [State.CallerOk, hc] at h
    simpa [State.CallerOk] using h

/-- A new submission. -/
lemma caller_call {t : TaskId} {c : Call} (h : s.CallerOk t) (hstep : Step cfg s (.call t c) s') : s'.CallerOk t := by
  cases hstep with
  | call _ hc =>
    simp only [State.CallerOk, hc] at h
    by_cases hnull : c.null = true
    · simpa [State.CallerOk, Call.entry, hnull] using h
    · by_cases hperm : c.kind = .sync ∧ c.co = false
      · simpa [State.CallerOk, Call.entry, hnull, hperm] using h
      · simpa [State.CallerOk, Call.entry, hnull, hperm] using h

lemma caller_step (hchan : Chan cfg s) (hran : ∀ d t, (s.dpc d).stage = .ran → s.hand d = some t → t ∈ s.finished)
    (hsync : ∀ t, s.cpc t ≠ .none → s.syncWg t = 1 ∨ t ∈ s.finished) (hstep : Step cfg s ev s') {t : TaskId}
    (h : s.CallerOk t) : s'.CallerOk t := by
  by_cases hev : ev = .submit t
  · subst hev
    exact caller_own h (hsync t) hstep
  · by_cases hcall : ∃ c, ev = .call t c
    · obtain ⟨c, rfl⟩ := hcall
      exact caller_call h hstep
    · exact caller_other hchan hran hstep hev (not_exists.mp hcall) h

lemma CStep.ne_none {t : TaskId} {p p' : CPc} (h : CStep cfg s t p p') : p ≠ .none := by
  cases h <;> simp

/-- The wait group of a submission is open until its task is finished. -/
lemma sync_step (hran : ∀ d t, (s.dpc d).stage = .ran → s.hand d = some t → t ∈ s.finished)
    (h : ∀ t, s.cpc t ≠ .none → s.syncWg t = 1 ∨ t ∈ s.finished) (hstep : Step cfg s ev s') (t : TaskId)
    (ht : s'.cpc t ≠ .none) : s'.syncWg t = 1 ∨ t ∈ s'.finished := by
  have hkeep (hcpc : s.cpc t ≠ .none) (hwg : s'.syncWg t = s.syncWg t) : s'.syncWg t = 1 ∨ t ∈ s'.finished := by
    rw [hwg]
    exact (h t hcpc).imp_right (finished_step hstep)
  cases hstep with
  | condUnlock | start | unlockEnd =>
    rw [State.mutexUnlock_eq] at ht hkeep ⊢
    exact hkeep ht rfl
  | @finish d u hd hu =>
    simp only [State.setD] at ht hkeep ⊢
    split at ht
    next hs =>
      simp only [hs, if_true] at hkeep ⊢
      by_cases hut : t = u
      · subst hut
        exact .inr (hran d t (by simp [hd, DPc.stage]) hu)
      · exact hkeep ht (by simp [State.syncDone, hut])
    next hs => simpa [hs] using h t ht
  | @call u c hc =>
    by_cases hut : t = u
    · subst hut
      exact .inl (by simp [waitgroupAdd])
    · exact hkeep (by simpa [hut] using ht) (by simp [hut])
  | @caller u p hc =>
    by_cases hut : t = u
    · subst hut
      exact hkeep hc.ne_none rfl
    · exact hkeep (by simpa [hut] using ht) rfl
  | @submit u hc | @callerPreFailed u _ _ hc | @callerWoken u _ _ hc | @sendPark u hc | @fail u _ hc
  | @syncPark u hc =>
    by_cases hut : t = u
    · subst hut
      exact hkeep (by simp [hc]) rfl
    · exact hkeep (by simpa [hut] using ht) rfl
  | @sendHand u _ _ hc | @sendPush u hc =>
    by_cases hut : t = u
    · subst hut
      exact hkeep (by rcases hc with hc | hc <;> simp [hc]) rfl
    · exact hkeep (by simpa [hut] using ht) rfl
  | close =>
    unfold State.chanClose at ht hkeep ⊢
    split at ht
    next hs => simpa [hs] using h t ht
    next hs => simpa [hs] using h t ht
  | @wake a =>
    cases a <;> exact hkeep ht rfl
  | _ => exact hkeep ht rfl

/-! ## The invariant -/

/-- The tasks of a queue. -/
structure Tasks (cfg : Config) (s : State) : Prop where
  chan : Chan cfg s
  pool : s.pool.Inv
  hand : ∀ d, (s.hand d).isSome = true ↔ s.Loaded d
  ran : ∀ d t, (s.dpc d).stage = .ran → s.hand d = some t → t ∈ s.finished
  caller : ∀ t, s.CallerOk t
  sync : ∀ t, s.cpc t ≠ .none → s.syncWg t = 1 ∨ t ∈ s.finished
  serial : cfg.spawned = 1 → s.pool.Serial 0

lemma pool_create (cfg : Config) : (State.create cfg).pool = .init := by
  have hbusy : (fun d => decide ((State.create cfg).dpc d = .body)) = fun _ => false := by
    funext d
    simp only [State.create]
    split <;> simp
  have hhand : (fun d => if ((State.create cfg).dpc d).stage = .ran then none else (State.create cfg).hand d) =
      fun _ => none := by
    funext d
    exact ite_self _
  simp only [State.pool, hbusy, hhand]
  rfl

lemma tasks_create (cfg : Config) : Tasks cfg (.create cfg) where
  chan := chan_create cfg
  pool := pool_create cfg ▸ Pool.inv_init
  hand := by
    intro d
    simp only [State.create, State.Loaded]
    split <;> simp [DPc.stage]
  ran := by simp [State.create]
  caller := fun t => by simp [State.CallerOk, State.create]
  sync := by simp [State.create]
  serial := fun _ => pool_create cfg ▸ Pool.serial_init 0

/-- Only drainers that exist have tasks. -/
lemma State.hand_none (hchan : Chan cfg s) (hhand : ∀ d, (s.hand d).isSome = true ↔ s.Loaded d) {d : DrainerId}
    (hd : cfg.spawned ≤ d) : s.hand d = none := by
  have := hhand d
  rw [State.Loaded, (hchan.absent d).mpr hd] at this
  simpa [DPc.stage] using this

lemma tasks_step (h : Tasks cfg s) (hstep : Step cfg s ev s') : Tasks cfg s' where
  chan := chan_step h.chan hstep
  pool := h.pool.moves (step_pool h.chan h.hand h.caller hstep)
  hand := hand_step h.chan.parked hstep h.hand
  ran := ran_step h.chan.parked hstep h.ran
  caller := fun t => caller_step h.chan h.ran h.sync hstep (h.caller t)
  sync := sync_step h.ran h.sync hstep
  serial := by
    intro hone
    refine (h.serial hone).moves (step_pool h.chan h.hand h.caller hstep) fun e he => ?_
    have hnone := State.hand_none (chan_step h.chan hstep) (hand_step h.chan.parked hstep h.hand)
      (d := e) (by rw [hone]; exact Nat.one_le_iff_ne_zero.mpr he)
    simp [State.pool, hnone]

end Suspenders.Queue
