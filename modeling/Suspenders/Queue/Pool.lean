import Suspenders.Queue.Served

/-!
# Pools

A pool is a queue with `nworkers` drainers, and `suspenders_pool_submit` is `suspenders_queue_async` without the result.
So nobody hears of a submission that fails, and its task is dropped.

A submission fails in three ways as long as the pool is not destroyed (`State.Drops`): a coroutine has a cancel
pending, or a deadline that has passed, when it begins to send; a cancel or a deadline ends its wait for room in the
buffer; or the caller is no coroutine and the buffer is full.  A submission without any of these keeps its task.
-/

namespace Suspenders.Queue

open Lib

/-- What `suspenders_pool_create` is called with, and what the system gives it. -/
structure PoolConfig where
  /-- The argument `nworkers`. -/
  nworkers : ℕ
  unsigned : nworkers < 2 ^ 32
  /-- How many of the spawns succeed. -/
  spawned : ℕ
  pos : 0 < spawned
  le : spawned ≤ if nworkers = 0 then 1 else nworkers
  /-- `SUSPENDERS_QUEUE_CAP` -/
  cap : ℕ

/-- The queue of a pool: `suspenders_queue_create("pool", qos, nworkers ? nworkers : 1)`. -/
def PoolConfig.queue (p : PoolConfig) : Config where
  concurrency := if p.nworkers = 0 then 1 else p.nworkers
  unsigned := by
    split
    · decide
    · exact p.unsigned
  spawned := p.spawned
  pos := p.pos
  le := p.le.trans (le_max_left _ _)
  cap := p.cap

/-- `suspenders_pool_submit`, by whether `pool` and `fn` are `NULL` and whether the caller is a coroutine: the call of
`suspenders_queue_async`, if there is one. -/
def poolSubmit (pool fn co : Bool) : Option Call := if pool then none else some ⟨.async, fn, co⟩

/-- Only `suspenders_pool_submit` uses the queue of a pool. -/
def Event.OfPool : Event → Prop
  | .call _ c => ∃ fn co, poolSubmit false fn co = some c
  | _ => True

/-- One step of a pool or of one of its users. -/
def PoolStep (p : PoolConfig) : State → Event → State → Prop := Restrict (Step p.queue) fun _ ev _ => ev.OfPool

namespace State

variable (s : State)

/-- Submission `t` fails, or has failed. -/
def Lost (t : TaskId) : Prop :=
  match s.cpc t with
  | .blk .send => s.node (.caller t) ≠ .waiting ∧ s.node (.caller t) ≠ .decided .ok
  | .fail st | .ret st | .returned st => st ≠ .ok
  | _ => False

/-- The events that make submission `t` fail in a pool that is not destroyed. -/
inductive Drops (cfg : Config) (t : TaskId) : Event → Prop
  /-- `fn` is `NULL`. -/
  | null {c : Call} : c.null = true → Drops cfg t (.call t c)
  /-- The caller has a cancel pending, or a deadline that has passed. -/
  | checked : s.cpc t = .pre .send → s.preBlock (.caller t) ≠ none → Drops cfg t (.submit t)
  /-- A cancel or a deadline ends the wait for room in the buffer. -/
  | ended {st : Code} : s.cpc t = .blk .send → Drops cfg t (.wake (.caller t) st)
  /-- The caller is no coroutine, no drainer waits for a task, and the buffer is full. -/
  | full : s.cpc t = .try → s.parked .receivers = [] → cfg.cap ≤ s.buf.length → Drops cfg t (.submit t)

/-- Task `t` is accepted and not executed twice, and whatever the drainers do, they execute it once. -/
structure Kept (cfg : Config) (t : TaskId) : Prop where
  accepted : t ∈ s.accepted
  once : (s.started.map Prod.snd).count t ≤ 1
  executed : Leads (Onward cfg) (fun s => t ∈ s.finished ∧ (s.started.map Prod.snd).count t = 1) s

end State

variable {p : PoolConfig} {cfg : Config} {s s' : State} {ev : Event} {es : List Event} {t : TaskId}

/-! ## Pools that are not destroyed -/

/-- A channel is closed by the destroyer only. -/
lemma open_step (hstep : Step cfg s ev s') (hx : s'.xpc = .none) : s.xpc = .none ∧ s'.closed = s.closed := by
  cases hstep with
  | condUnlock | start | unlockEnd =>
    rw [State.mutexUnlock_eq] at hx ⊢
    exact ⟨hx, rfl⟩
  | finish =>
    simp only [State.setD] at hx ⊢
    split at hx
    next hsync => exact ⟨hx, by rw [if_pos hsync]; rfl⟩
    next hsync => exact ⟨hx, by rw [if_neg hsync]⟩
  | @close co hc =>
    cases co <;> cases hx
  | drainWoken =>
    simp only [State.setX] at hx
    split at hx <;> cases hx
  | @wake a => cases a <;> exact ⟨hx, rfl⟩
  | destroy | drainGo | drained | drainPark => cases hx
  | _ => exact ⟨hx, rfl⟩

lemma open_run (h : Run (PoolStep p) s es s') (hx : s'.xpc = .none) : s.xpc = .none ∧ s'.closed = s.closed := by
  induction h with
  | nil => exact ⟨hx, rfl⟩
  | cons hstep _ ih =>
    obtain ⟨hmid, hclosed⟩ := ih hx
    obtain ⟨hs, hclosed'⟩ := open_step hstep.1 hmid
    exact ⟨hs, hclosed.trans hclosed'⟩

/-! ## Submissions that fail -/

/-- A submission goes on as far as its failure is concerned, or does not move. -/
lemma State.lost_congr (hcpc : s'.cpc t = s.cpc t)
    (hnode : s.cpc t = .blk .send → s'.node (.caller t) = s.node (.caller t)) : s'.Lost t ↔ s.Lost t := by
  unfold State.Lost
  rw [hcpc]
  split
  next h => rw [hnode h]
  all_goals rfl

/-- What a call that has returned says. -/
lemma State.lost_after (c : CCall) (st : Code) (hcpc : s'.cpc t = c.after (s.task t) st) :
    s'.Lost t ↔ c = .send ∧ st ≠ .ok := by
  unfold State.Lost
  rw [hcpc]
  cases c with
  | send =>
    cases st with
    | ok => cases hsync : (s.task t).sync <;> simp [CCall.after, hsync]
    | _ => simp [CCall.after]
  | sync => cases st <;> simp [CCall.after]

/-- A step of the submission itself. -/
lemma lost_own (hstep : Step cfg s (.submit t) s') (hclosed : s.closed = false) :
    s'.Lost t ↔ s.Lost t ∨ s.Drops cfg t (.submit t) := by
  -- the place decides which of the events can be one that drops the task
  have hdrops : s.Drops cfg t (.submit t) ↔ s.cpc t = .pre .send ∧ s.preBlock (.caller t) ≠ none ∨
      s.cpc t = .try ∧ s.parked .receivers = [] ∧ cfg.cap ≤ s.buf.length := by
    constructor
    · intro h
      cases h with
      | checked hc hpre => exact .inl ⟨hc, hpre⟩
      | full hc hl hbuf => exact .inr ⟨hc, hl, hbuf⟩
    · rintro (⟨hc, hpre⟩ | ⟨hc, hl, hbuf⟩)
      · exact .checked hc hpre
      · exact .full hc hl hbuf
  rw [hdrops]
  cases hstep with
  | caller hc =>
    generalize hp : s.cpc t = p at hc
    cases hc with
    | @go c hpre => cases c <;> simp [State.Lost, hp, hpre]
    | sendClosed h | tryClosed h => simp [hclosed] at h
    | tryFull _ hl hbuf => simp [State.Lost, hp, CCall.after, hl, hbuf]
    | synced => simp [State.Lost, hp, CCall.after]
    | ret => simp [State.Lost, hp]
  | submit hc =>
    cases s.co t <;> simp [State.Lost, hc]
  | @callerPreFailed _ c st hc hst =>
    have hok : st ≠ .ok := by
      obtain rfl | rfl := State.preBlock_code hst <;> simp
    rw [State.lost_after (s := s) c st (by simp)]
    cases c <;> simp [State.Lost, hc, hst, hok]
  | @callerWoken _ c st hc hst =>
    rw [State.lost_after (s := s) c st (by simp)]
    cases c <;> simp [State.Lost, hc, hst]
  | sendHand hc _ hl =>
    rw [State.lost_after (s := s) .send .ok (by simp)]
    obtain hc | hc := hc <;> simp [State.Lost, hc, hl]
  | sendPush hc _ _ hbuf =>
    rw [State.lost_after (s := s) .send .ok (by simp)]
    obtain hc | hc := hc <;> simp [State.Lost, hc, hbuf]
  | sendPark hc | fail hc | syncPark hc => simp [State.Lost, hc]

/-- The step of somebody else. -/
lemma lost_other (hchan : Chan cfg s) (hstep : Step cfg s ev s') (hx : s'.xpc = .none) (hev : ev ≠ .submit t)
    (hcall : ∀ c, ev ≠ .call t c) : s'.Lost t ↔ s.Lost t ∨ s.Drops cfg t ev := by
  have hne {u : TaskId} (hu : Event.submit u ≠ .submit t) : t ≠ u := fun heq => hu (by rw [heq])
  have hkeep (hwake : ∀ st, ev ≠ .wake (.caller t) st) (hcpc : s'.cpc t = s.cpc t)
      (hnode : s.cpc t = .blk .send → s'.node (.caller t) = s.node (.caller t)) :
      s'.Lost t ↔ s.Lost t ∨ s.Drops cfg t ev := by
    have hnot : ¬ s.Drops cfg t ev := by
      rintro (_ | _ | _ | _)
      · exact hcall _ rfl
      · exact hev rfl
      · exact hwake _ rfl
      · exact hev rfl
    rw [or_iff_left hnot]
    exact State.lost_congr hcpc hnode
  cases hstep with
  | @recvRefill d v u rest us _ _ hl | @recvDirect d u us _ _ hl =>
    by_cases ht : t = u
    · subst ht
      obtain ⟨hs, hw⟩ := (State.mem_senders hchan).mp (show t ∈ s.senders by simp [hl])
      refine iff_of_false (by simp [State.Lost, hs]) (not_or.2 ⟨by simp [State.Lost, hs, hw], fun h => by cases h⟩)
    · exact hkeep (by simp) rfl fun _ => by simp [ht]
  | condUnlock | start | unlockEnd =>
    rw [State.mutexUnlock_eq] at hkeep ⊢
    exact hkeep (by simp) rfl fun _ => State.mutexUnlock_node_of_ne _ (by simp)
  | @finish d u =>
    refine hkeep (by simp) ?_ fun hs => ?_
    · simp only [State.setD]
      split <;> rfl
    · -- a submission that still sends does not wait for its task
      simp only [State.setD]
      split
      · refine State.grant_of_notMem fun hmem => ?_
        split at hmem
        · obtain ⟨⟨hsync, -⟩, heq⟩ := State.mem_syncWaiters.mp hmem
          obtain rfl : t = u := by simpa using heq
          simp [hs] at hsync
        · simp at hmem
      · rfl
  | exit => exact hkeep (by simp) rfl fun _ => State.drainDone_node (by simp)
  | @call u c =>
    have ht : t ≠ u := fun heq => hcall c (by rw [heq])
    exact hkeep (by simp) (by simp [ht]) fun _ => rfl
  | sendHand | sendPush => exact hkeep (by simp) (by simp [hne hev]) fun _ => by simp
  | caller | submit | callerPreFailed | callerWoken | sendPark | fail | syncPark =>
    exact hkeep (by simp) (by simp [hne hev]) fun _ => by simp [hne hev]
  | @close co => cases co <;> cases hx
  | @wake a st hw hst =>
    have hok : st ≠ .ok := by
      rintro rfl
      simp at hst
    by_cases ha : a = .caller t
    · subst ha
      by_cases hs : s.cpc t = .blk .send
      · exact iff_of_true (by simp [State.Lost, State.unlink, hs, hok]) (.inr (.ended hs))
      · have hnot : ¬ s.Drops cfg t (.wake (.caller t) st) := fun h => by
          cases h with
          | ended hc => exact hs hc
        rw [or_iff_left hnot]
        exact State.lost_congr rfl fun hc => absurd hc hs
    · have hwake (st' : Code) : Event.wake a st ≠ .wake (.caller t) st' := by simp [ha]
      cases a with
      | caller u =>
        have hu : t ≠ u := fun heq => ha (by rw [heq])
        exact hkeep hwake rfl fun _ => by simp [State.unlink, hu]
      | drainer d => exact hkeep hwake rfl fun _ => by simp [State.unlink]
      | destroyer => exact hkeep hwake rfl fun _ => by simp [State.unlink]
  | _ => exact hkeep (by simp) rfl fun _ => by simp [State.condBroadcast]

/-- A submission fails by the events that drop its task, and by no others. -/
lemma lost_step (hchan : Chan p.queue s) (hstep : PoolStep p s ev s') (hclosed : s.closed = false)
    (hx : s'.xpc = .none) : s'.Lost t ↔ s.Lost t ∨ s.Drops p.queue t ev := by
  obtain ⟨hstep, hpool⟩ := hstep
  by_cases hev : ev = .submit t
  · subst hev
    exact lost_own hstep hclosed
  by_cases hcall : ∃ c, ev = .call t c
  · obtain ⟨c, rfl⟩ := hcall
    obtain ⟨fn, co, hc⟩ := hpool
    obtain rfl : (⟨.async, fn, co⟩ : Call) = c := Option.some.inj hc
    cases hstep with
    | call _ hnone =>
      have hdrops : s.Drops p.queue t (.call t ⟨.async, fn, co⟩) ↔ fn = true :=
        ⟨fun h => by cases h with | null h => exact h, fun h => .null h⟩
      rw [hdrops]
      cases fn <;> simp [State.Lost, hnone, Call.entry]
  · exact lost_other hchan hstep hx hev (not_exists.mp hcall)

/-! ## Runs -/

/-- The step does not drop task `t`. -/
def Retains (cfg : Config) (t : TaskId) (s : State) (ev : Event) (_ : State) : Prop := ¬ s.Drops cfg t ev

lemma fit_run (h : Run (PoolStep p) s es s') (hfit : Fit p.queue s) : Fit p.queue s' :=
  h.of_restrict.invariant (fun _ _ _ hfit hstep => hfit.step hstep) hfit

/-- A submission that has not failed in the end has not met an event that drops its task. -/
lemma retains_of_not_lost (h : Run (PoolStep p) s es s') (hfit : Fit p.queue s) (hclosed : s'.closed = false)
    (hx : s'.xpc = .none) (hnot : ¬ s'.Lost t) :
    Run (Restrict (PoolStep p) (Retains p.queue t)) s es s' ∧ ¬ s.Lost t := by
  induction h with
  | nil => exact ⟨.nil _, hnot⟩
  | cons hstep hrun ih =>
    obtain ⟨hretains, hmid⟩ := ih (hfit.step hstep.1) hclosed hx hnot
    obtain ⟨hxmid, hclosedmid⟩ := open_run hrun hx
    obtain ⟨-, hclosed'⟩ := open_step hstep.1 hxmid
    have hopen := hclosed'.symm.trans (hclosedmid.symm.trans hclosed)
    rw [lost_step hfit.tasks.chan hstep hopen hxmid, not_or] at hmid
    exact ⟨.cons ⟨hstep, hmid.2⟩ hretains, hmid.1⟩

/-- A submission that meets no event that drops its task does not fail. -/
lemma not_lost_of_retains (h : Run (Restrict (PoolStep p) (Retains p.queue t)) s es s') (hfit : Fit p.queue s)
    (hclosed : s'.closed = false) (hx : s'.xpc = .none) (hnot : ¬ s.Lost t) : ¬ s'.Lost t := by
  induction h with
  | nil => exact hnot
  | cons hstep hrun ih =>
    obtain ⟨hxmid, hclosedmid⟩ := open_run hrun.of_restrict hx
    obtain ⟨-, hclosed'⟩ := open_step hstep.1.1 hxmid
    have hopen := hclosed'.symm.trans (hclosedmid.symm.trans hclosed)
    refine ih (hfit.step hstep.1.1) hclosed hx ?_
    rw [lost_step hfit.tasks.chan hstep.1 hopen hxmid, not_or]
    exact ⟨hnot, hstep.2⟩

/-! ## Tasks that are kept -/

lemma Fit.accepted_onward (h : Fit cfg s) (hstep : Onward cfg s s') (ht : t ∈ s.accepted) : t ∈ s'.accepted := by
  have hkeep {ev : Event} (hstep : Step cfg s ev s') : t ∈ s'.accepted := by
    obtain heq | ⟨a, -, heq⟩ := accepted_step h.tasks hstep
    · exact heq ▸ ht
    · exact heq ▸ List.mem_append_left _ ht
  cases hstep with
  | drain d hstep => exact hkeep hstep
  | clear d _ hstep => exact hkeep hstep

/-- A task that is finished was executed once. -/
lemma Fit.count_started (h : Fit cfg s) (ht : t ∈ s.finished) : (s.started.map Prod.snd).count t = 1 := by
  obtain ⟨d, hd⟩ := h.tasks.pool.finished t ht
  exact List.count_eq_one_of_mem h.tasks.pool.once (List.mem_map.2 ⟨(d, t), hd, rfl⟩)

/-- An accepted task is kept. -/
lemma Fit.kept (h : Fit cfg s) (htime : s.OnTime) (ht : t ∈ s.accepted) : s.Kept cfg t where
  accepted := ht
  once := List.nodup_iff_count_le_one.1 h.tasks.pool.once t
  executed := by
    refine (leads_finished h htime).imp (I := fun s => Fit cfg s ∧ t ∈ s.accepted) ?_ ?_ ⟨h, ht⟩
    · rintro s s' ⟨h, ht⟩ hstep
      exact ⟨h.onward hstep, h.accepted_onward hstep ht⟩
    · rintro s ⟨h, ht⟩ hfin
      exact ⟨hfin t ht, h.count_started (hfin t ht)⟩

/-- In a pool that is not destroyed, the task of a submission that has returned is kept if and only if nothing has dropped
it.  No drainer may have left a deadline behind that has passed. -/
theorem pool_submit_kept_iff (p : PoolConfig) (es : List Event) (s : State)
    (h : Run (PoolStep p) (.create p.queue) es s) (hx : s.xpc = .none) (htime : s.OnTime) (t : TaskId) (st : Code)
    (hret : s.cpc t = .returned st) :
    s.Kept p.queue t ↔ Run (Restrict (PoolStep p) (Retains p.queue t)) (.create p.queue) es s := by
  have hcreate := fit_create p.queue
  have hfit := fit_run h hcreate
  have hclosed : s.closed = false := (open_run h hx).2
  have hlost : s.Lost t ↔ st ≠ .ok := by simp [State.Lost, hret]
  have hacc : t ∈ s.accepted ↔ st = .ok := by
    have hcaller := hfit.tasks.caller t
    rw [State.CallerOk, hret] at hcaller
    exact hcaller.1
  constructor
  · intro hkept
    refine (retains_of_not_lost h hcreate hclosed hx ?_).1
    rw [hlost, not_not]
    exact hacc.1 hkept.accepted
  · intro hretains
    refine hfit.kept htime (hacc.2 ?_)
    have hnot := not_lost_of_retains hretains hcreate hclosed hx (by simp [State.Lost, State.create])
    rwa [hlost, not_not] at hnot

/-- One drainer. -/
def PoolConfig.one : PoolConfig := ⟨1, Config.one.unsigned, 1, Config.one.pos, by decide, 256⟩

lemma retains_submit (hchecked : s.cpc t = .pre .send → s.preBlock (.caller t) = none) (htry : s.cpc t ≠ .try) :
    Retains cfg t s (.submit t) s' := by
  intro h
  cases h with
  | checked hc hpre => exact hpre (hchecked hc)
  | full hc => exact htry hc

/-- A coroutine submits a task, and it is kept. -/
theorem pool_submit_kept_one : ∃ s : State, s.cpc 0 = .returned .ok ∧ s.co 0 = true ∧ s.Kept PoolConfig.one.queue 0 := by
  have hrun : ∃ s, Run (Restrict (PoolStep .one) (Retains PoolConfig.one.queue 0)) (.create PoolConfig.one.queue)
      [.call 0 ⟨.async, false, true⟩, .submit 0, .submit 0, .submit 0, .submit 0] s ∧
      (s.xpc = .none ∧ s.OnTime) ∧ s.cpc 0 = .returned .ok ∧ s.co 0 = true := by
    refine ⟨?_, ?run, ?facts⟩
    case run =>
      refine .cons ⟨⟨.call _ rfl, false, true, rfl⟩, nofun⟩ ?_
      refine .cons ⟨⟨.submit rfl, trivial⟩, retains_submit (by decide) (by decide)⟩ ?_
      refine .cons ⟨⟨.caller (.go rfl), trivial⟩, retains_submit (by decide) (by decide)⟩ ?_
      refine .cons ⟨⟨.sendPush (.inl rfl) rfl rfl (by decide), trivial⟩, retains_submit (by decide) (by decide)⟩ ?_
      refine .cons ⟨⟨.caller .ret, trivial⟩, retains_submit (by decide) (by decide)⟩ ?_
      exact .nil _
    case facts => exact ⟨⟨rfl, nofun⟩, rfl, rfl⟩
  obtain ⟨s, hs, ⟨hx, htime⟩, hret, hco⟩ := hrun
  exact ⟨s, hret, hco, (pool_submit_kept_iff .one _ s hs.of_restrict hx htime 0 .ok hret).2 hs⟩

/-! ## Tasks that are dropped -/

/-- A submission that returns an error does not keep its task, and returns nothing that says so. -/
lemma not_kept (h : Run (PoolStep p) (.create p.queue) es s) {st : Code} (hret : s.cpc t = .returned st)
    (hst : st ≠ .ok) : ¬ s.Kept p.queue t := by
  intro hkept
  have hcaller := (fit_run h (fit_create p.queue)).tasks.caller t
  rw [State.CallerOk, hret] at hcaller
  exact hst (hcaller.1.1 hkept.accepted)

/-- A coroutine with a cancel pending submits a task. -/
lemma dropped_canceled (p : PoolConfig) : ∃ es s, Run (PoolStep p) (.create p.queue) es s ∧ s.xpc = .none ∧
    .call 0 ⟨.async, false, true⟩ ∈ es ∧ s.cpc 0 = .returned .canceled := by
  refine ⟨[.call 0 ⟨.async, false, true⟩, .cancel (.caller 0), .submit 0, .submit 0, .submit 0, .submit 0], ?_, ?run,
    ?facts⟩
  case run =>
    refine .cons ⟨.call _ rfl, false, true, rfl⟩ ?_
    refine .cons ⟨.cancel _, trivial⟩ ?_
    refine .cons ⟨.submit rfl, trivial⟩ ?_
    refine .cons ⟨.callerPreFailed rfl rfl, trivial⟩ ?_
    refine .cons ⟨.fail rfl, trivial⟩ ?_
    refine .cons ⟨.caller .ret, trivial⟩ ?_
    exact .nil _
  case facts => exact ⟨rfl, List.mem_cons_self, rfl⟩

/-- Threads fill the buffer before a drainer runs. -/
lemma filled (p : PoolConfig) {n : ℕ} (hn : n ≤ p.cap) : ∃ s, Reachable (PoolStep p) (.create p.queue) s ∧
    s.xpc = .none ∧ s.closed = false ∧ s.parked .receivers = [] ∧ s.buf.length = n ∧ ∀ t, n ≤ t → s.cpc t = .none := by
  induction n with
  | zero => exact ⟨_, .refl _ _, rfl, rfl, rfl, rfl, fun _ _ => rfl⟩
  | succ n ih =>
    obtain ⟨s, hs, hx, hclosed, hl, hbuf, hnone⟩ := ih (by omega)
    have hcall := hs.step ⟨.call (t := n) ⟨.async, false, false⟩ (hnone n le_rfl), false, false, rfl⟩
    have hsubmit := hcall.step ⟨.submit (t := n) (by simp [Call.entry]), trivial⟩
    have hpush := hsubmit.step ⟨.sendPush (t := n) (.inr (by simp)) hclosed hl (show s.buf.length < p.cap by omega),
      trivial⟩
    refine ⟨_, hpush, hx, hclosed, hl, by simp [hbuf], fun t ht => ?_⟩
    have hne : t ≠ n := by omega
    simpa [hne] using hnone t (by omega)

/-- A thread submits a task when the buffer is full. -/
lemma dropped_full (p : PoolConfig) : ∃ es s, Run (PoolStep p) (.create p.queue) es s ∧ s.xpc = .none ∧
    .call p.cap ⟨.async, false, false⟩ ∈ es ∧ s.cpc p.cap = .returned .full := by
  obtain ⟨s, ⟨es, hrun⟩, hx, hclosed, hl, hbuf, hnone⟩ := filled p le_rfl
  have hcall := hrun.snoc ⟨.call (t := p.cap) ⟨.async, false, false⟩ (hnone p.cap le_rfl), false, false, rfl⟩
  have hsubmit := hcall.snoc ⟨.submit (t := p.cap) (by simp [Call.entry]), trivial⟩
  have hfull := hsubmit.snoc ⟨.caller (t := p.cap) (by simpa using .tryFull hclosed hl hbuf.ge), trivial⟩
  have hfail := hfull.snoc ⟨@Step.fail _ _ p.cap .full (by simp [CCall.after]), trivial⟩
  have hret := hfail.snoc ⟨.caller (t := p.cap) (by simpa using .ret), trivial⟩
  exact ⟨_, _, hret, by simpa using hx, by simp, by simp⟩

/-- The task of a coroutine with a cancel pending is dropped, and so is the task of a thread when the buffer is full. -/
theorem pool_drops :
    (¬ ∀ (p : PoolConfig) (es : List Event) (s : State), Run (PoolStep p) (.create p.queue) es s → s.xpc = .none →
      ∀ t c st, poolSubmit false false true = some c → .call t c ∈ es → s.cpc t = .returned st →
        s.Kept p.queue t) ∧
    ¬ ∀ (p : PoolConfig) (es : List Event) (s : State), Run (PoolStep p) (.create p.queue) es s → s.xpc = .none →
      ∀ t c st, poolSubmit false false false = some c → .call t c ∈ es → s.cpc t = .returned st →
        s.Kept p.queue t := by
  constructor
  · intro h
    obtain ⟨es, s, hrun, hx, hcall, hret⟩ := dropped_canceled .one
    exact not_kept hrun hret (by decide) (h .one es s hrun hx 0 _ _ rfl hcall hret)
  · intro h
    obtain ⟨es, s, hrun, hx, hcall, hret⟩ := dropped_full .one
    exact not_kept hrun hret (by decide) (h .one es s hrun hx _ _ _ rfl hcall hret)

end Suspenders.Queue
