import Suspenders.Lib.Family
import Suspenders.Queue.State

/-!
# Who waits

Every wait list of a queue holds exactly the coroutines that wait on it: the lists of the drainers (`Parked`) and
the senders of the channel (`Senders`).  `Chan` adds what is needed of the channel: a drainer waits only if there is
no task, and it leaves only if the channel is closed and empty.
-/

namespace Suspenders.Queue

open Lib

/-- The list a drainer is on while its wait is undecided. -/
def DPc.list : DPc → Option WaitList
  | blk .recv => some .receivers
  | blk .enter | blk .leave | relockBlk _ => some .mutex
  | blk (.cond _) | condUnlock _ => some .cond
  | _ => Option.none

lemma DPc.eq_of_list {p : DPc} (h : p.list = some .receivers) : p = .blk .recv := by
  cases p with
  | blk c => cases c <;> simp_all [DPc.list]
  | _ => simp [DPc.list] at h

namespace State

variable (s : State)

/-- The list drainer `d` waits on. -/
def loc (d : DrainerId) : Option WaitList :=
  if s.node (.drainer d) = .waiting then (s.dpc d).list else none

/-- Submission `t` waits on `senders`. -/
def callerLoc (t : TaskId) : Option Unit :=
  if s.node (.caller t) = .waiting ∧ s.cpc t = .blk .send then some () else none

/-- The lists of the drainers are right. -/
def Parked : Prop := Located s.parked s.loc

/-- The list of the senders is right. -/
def Senders : Prop := Located (fun _ : Unit => s.senders) s.callerLoc

lemma mutexUnlock_eq (d : DrainerId) : s.mutexUnlock d = { s with
    owner := (s.mutexUnlock d).owner
    parked := (s.mutexUnlock d).parked
    node := (s.mutexUnlock d).node } := by
  unfold mutexUnlock
  split
  · split <;> rfl
  · rfl

@[simp] lemma mutexUnlock_dpc (d : DrainerId) : (s.mutexUnlock d).dpc = s.dpc := by rw [mutexUnlock_eq]

lemma mutexUnlock_node_of_ne {d : DrainerId} {a : Actor} (ha : ∀ e, a ≠ .drainer e) :
    (s.mutexUnlock d).node a = s.node a := by
  unfold mutexUnlock
  split
  · split
    · rfl
    · simp [ha]
  · rfl

/-- The unlock wakes the first drainer that waits for the mutex, and gives it the mutex. -/
lemma mutexUnlock_node (d : DrainerId) (a : Actor) : (s.mutexUnlock d).node a = s.node a ∨
    ∃ e, a = .drainer e ∧ e ∈ s.parked .mutex ∧ (s.mutexUnlock d).node a = .decided .ok ∧
      (s.mutexUnlock d).owner = some e := by
  unfold mutexUnlock
  split
  · split
    next => exact .inl rfl
    next e es hl =>
      by_cases ha : a = .drainer e
      · exact .inr ⟨e, ha, by simp [hl], by simp [ha], rfl⟩
      · exact .inl (by simp [ha])
  · exact .inl rfl

@[simp] lemma mutexUnlock_parked_of_ne {d : DrainerId} {l : WaitList} (hl : l ≠ .mutex) :
    (s.mutexUnlock d).parked l = s.parked l := by
  unfold mutexUnlock
  split
  · split
    · rfl
    · simp [hl]
  · rfl

@[simp] lemma condBroadcast_dpc : s.condBroadcast.dpc = s.dpc := rfl

variable {s}

lemma grant_of_notMem {as : List Actor} {st : Code} {a : Actor} (h : a ∉ as) :
    (s.grant as st).node a = s.node a := if_neg h

lemma mem_drainWaiters {a : Actor} : a ∈ s.drainWaiters ↔
    (s.xpc = .blk ∧ s.node .destroyer = .waiting) ∧ a = .destroyer := by
  unfold drainWaiters
  split <;> simp_all

lemma mem_syncWaiters {t : TaskId} {a : Actor} : a ∈ s.syncWaiters t ↔
    (s.cpc t = .blk .sync ∧ s.node (.caller t) = .waiting) ∧ a = .caller t := by
  unfold syncWaiters
  split <;> simp_all

/-- The end of a drainer wakes the destroyer only. -/
lemma drainDone_node {a : Actor} (ha : a ≠ .destroyer) : s.drainDone.node a = s.node a := by
  refine grant_of_notMem fun hmem => ?_
  split at hmem
  · exact ha (mem_drainWaiters.mp hmem).2
  · simp at hmem

/-- The end of a task wakes its submission only. -/
lemma syncDone_node {t : TaskId} {a : Actor} (ha : a ≠ .caller t) : (s.syncDone t).node a = s.node a := by
  refine grant_of_notMem fun hmem => ?_
  split at hmem
  · exact ha (mem_syncWaiters.mp hmem).2
  · simp at hmem

namespace Parked

variable {d : DrainerId} {p : DPc} {st : Code}

/-- Only the nodes and the places of the drainers count. -/
lemma congr {s' : State} (h : s.Parked) (hparked : s'.parked = s.parked) (hdpc : s'.dpc = s.dpc)
    (hnode : ∀ d, s'.node (.drainer d) = s.node (.drainer d)) : s'.Parked := by
  have hloc : s'.loc = s.loc := by
    funext d
    simp [loc, hnode, hdpc]
  rw [Parked, hparked, hloc]
  exact h

/-- A drainer goes on, but not to another list. -/
lemma run {s' : State} (h : s.Parked) (hp : s.node (.drainer d) = .waiting → p.list = (s.dpc d).list)
    (hdpc : s'.dpc = Function.update s.dpc d p) (hparked : s'.parked = s.parked)
    (hnode : ∀ e, s'.node (.drainer e) = s.node (.drainer e)) : s'.Parked := by
  have hloc : s'.loc = s.loc := by
    funext e
    by_cases he : e = d
    · subst he
      by_cases hw : s.node (.drainer e) = .waiting
      · simp [loc, hdpc, hnode, hw, hp hw]
      · simp [loc, hnode, hw]
    · simp [loc, hdpc, hnode, he]
  rw [Parked, hparked, hloc]
  exact h

/-- A drainer parks. -/
lemma park {l : WaitList} (h : s.Parked) (hd : s.loc d = none) (hp : p.list = some l) :
    ((s.park d l).setD d p).Parked := by
  have hloc : ((s.park d l).setD d p).loc = Function.update s.loc d (some l) := by
    funext e
    by_cases he : e = d
    · subst he
      simp [loc, hp]
    · simp [loc, he]
  rw [Parked, hloc]
  exact h.append hd

/-- The first drainer of a list is granted. -/
lemma pop {l : WaitList} {ds : List DrainerId} (h : s.Parked) (hl : s.parked l = d :: ds) :
    ((s.setList l ds).grant [.drainer d] st).Parked := by
  have hloc : ((s.setList l ds).grant [.drainer d] st).loc = Function.update s.loc d none := by
    funext e
    by_cases he : e = d
    · subst he
      simp [loc]
    · simp [loc, he]
  rw [Parked, hloc]
  exact Located.pop h hl

/-- A list of drainers is granted, with other coroutines. -/
lemma clear {l : WaitList} {as : List Actor} (h : s.Parked)
    (has : ∀ d, Actor.drainer d ∈ as ↔ d ∈ s.parked l) : ((s.setList l []).grant as st).Parked := by
  have hloc : ((s.setList l []).grant as st).loc = fun d => if d ∈ s.parked l then none else s.loc d := by
    funext d
    by_cases hd : d ∈ s.parked l
    · simp [loc, has, hd]
    · simp [loc, has, hd]
  rw [Parked, hloc]
  exact Located.clear h

/-- A drainer on a list waits there. -/
lemma waits {l : WaitList} (h : s.Parked) (hd : d ∈ s.parked l) :
    (s.dpc d).list = some l ∧ s.node (.drainer d) = .waiting := by
  have hloc := (h.mem l d).mp hd
  unfold loc at hloc
  split at hloc
  next hw => exact ⟨hloc, hw⟩
  next => simp at hloc

lemma mutexUnlock (h : s.Parked) (e : DrainerId) : (s.mutexUnlock e).Parked := by
  unfold State.mutexUnlock
  split
  · split
    next => exact h
    next d ds hl => exact h.pop hl
  · exact h

lemma condBroadcast (h : s.Parked) : s.condBroadcast.Parked := h.clear (by simp)

lemma chanClose (h : s.Parked) : s.chanClose.Parked := by
  unfold State.chanClose
  split
  · exact h
  · exact h.clear (l := .receivers) (by simp)

lemma wake (h : s.Parked) (a : Actor) : ((s.unlink a).grant [a] st).Parked := by
  cases a with
  | drainer d =>
    have hloc : ((s.unlink (.drainer d)).grant [.drainer d] st).loc = Function.update s.loc d none := by
      funext e
      by_cases he : e = d
      · subst he
        simp [loc]
      · simp [loc, unlink, he]
    rw [Parked, hloc]
    exact Located.erase h
  | caller t => exact h.congr rfl rfl fun d => by simp [unlink]
  | destroyer => exact h.congr rfl rfl fun d => by simp [unlink]

end Parked

namespace Senders

variable {t : TaskId} {st : Code}

/-- Only the nodes and the places of the submissions count. -/
lemma congr {s' : State} (h : s.Senders) (hsenders : s'.senders = s.senders) (hcpc : s'.cpc = s.cpc)
    (hnode : ∀ t, s.cpc t = .blk .send → s'.node (.caller t) = s.node (.caller t)) : s'.Senders := by
  have hloc : s'.callerLoc = s.callerLoc := by
    funext t
    by_cases ht : s.cpc t = .blk .send
    · simp [callerLoc, hnode t ht, hcpc]
    · simp [callerLoc, hcpc, ht]
  rw [Senders, hsenders, hloc]
  exact h

/-- A submission that does not wait goes on. -/
lemma run {s' : State} {p : CPc} (h : s.Senders) (ht : s.callerLoc t = none) (hp : p ≠ .blk .send)
    (hcpc : s'.cpc = Function.update s.cpc t p) (hsenders : s'.senders = s.senders)
    (hnode : ∀ u, u ≠ t → s'.node (.caller u) = s.node (.caller u)) : s'.Senders := by
  have hloc : s'.callerLoc = s.callerLoc := by
    funext u
    by_cases hu : u = t
    · subst hu
      rw [ht]
      simp [callerLoc, hcpc, hp]
    · simp [callerLoc, hcpc, hnode, hu]
  rw [Senders, hsenders, hloc]
  exact h

/-- A submission parks. -/
lemma park (h : s.Senders) (ht : s.callerLoc t = none) :
    (({ s with senders := s.senders ++ [t] }.wait (.caller t)).setC t (.blk .send)).Senders := by
  have hloc : (({ s with senders := s.senders ++ [t] }.wait (.caller t)).setC t (.blk .send)).callerLoc =
      Function.update s.callerLoc t (some ()) := by
    funext u
    by_cases hu : u = t
    · subst hu
      simp [callerLoc]
    · simp [callerLoc, hu]
  have hlist : (fun _ : Unit => s.senders ++ [t]) =
      Function.update (fun _ => s.senders) () (s.senders ++ [t]) := by
    funext u
    simp
  rw [Senders, hloc]
  exact hlist ▸ Located.append h ht

/-- The first sender is granted. -/
lemma pop {ts : List TaskId} (h : s.Senders) (hl : s.senders = t :: ts) :
    ({ s with senders := ts }.grant [.caller t] st).Senders := by
  have hloc : ({ s with senders := ts }.grant [.caller t] st).callerLoc = Function.update s.callerLoc t none := by
    funext u
    by_cases hu : u = t
    · subst hu
      simp [callerLoc]
    · simp [callerLoc, hu]
  have hlist : (fun _ : Unit => ts) = Function.update (fun _ => s.senders) () ts := by
    funext u
    simp
  rw [Senders, hloc]
  exact hlist ▸ Located.pop h hl

lemma wake (h : s.Senders) (a : Actor) : ((s.unlink a).grant [a] st).Senders := by
  cases a with
  | caller t =>
    have hloc : ((s.unlink (.caller t)).grant [.caller t] st).callerLoc =
        Function.update s.callerLoc t none := by
      funext u
      by_cases hu : u = t
      · subst hu
        simp [callerLoc]
      · simp [callerLoc, unlink, hu]
    rw [Senders, hloc]
    exact Located.erase h
  | drainer d => exact h.congr rfl rfl fun t _ => by simp [unlink]
  | destroyer => exact h.congr rfl rfl fun t _ => by simp [unlink]

/-- A close grants everybody. -/
lemma chanClose (h : s.Senders) : s.chanClose.Senders := by
  unfold State.chanClose
  split
  · exact h
  · refine ⟨fun _ t => ?_, fun _ => List.nodup_nil⟩
    by_cases ht : t ∈ s.senders
    · simp [callerLoc, ht]
    · have := mt (h.mem () t).mpr ht
      simpa [callerLoc, ht] using this

end Senders

end State

variable {cfg : Config} {s s' : State} {ev : Event}

@[simp] lemma DCall.list_after (c : DCall) (st : Code) : (c.after st).list = none := by
  cases c <;> cases st <;> rfl

/-- A drainer that is not blocked is on no list. -/
lemma State.loc_of_list {d : DrainerId} {p : DPc} (hd : s.dpc d = p) (hp : p.list = none) : s.loc d = none := by
  simp [State.loc, hd, hp]

lemma DStep.list_eq {d : DrainerId} {p p' : DPc} (h : DStep cfg s d p p')
    (hw : s.node (.drainer d) = .waiting) : p'.list = p.list := by
  cases h with
  | lockOwn => exact DCall.list_after _ _
  | relocked hst => simp [hw] at hst
  | relockFailed hst => simp [hw] at hst
  | _ => rfl

lemma parked_step (hstep : Step cfg s ev s') (h : s.Parked) : s'.Parked := by
  cases hstep with
  | control hd => exact h.run hd.list_eq rfl rfl fun _ => rfl
  | preFailed hd => exact h.run (fun _ => by rw [hd]; exact DCall.list_after _ _) rfl rfl fun _ => rfl
  | woken hd hst => exact h.run (fun hw => by simp [hst] at hw) rfl rfl fun _ => rfl
  | recvPop hd => exact h.run (fun _ => by rw [hd]; rfl) rfl rfl fun _ => rfl
  | recvRefill hd =>
    exact h.run (fun _ => by rw [hd]; rfl) rfl rfl fun _ => by
      simp
  | recvDirect hd =>
    exact h.run (fun _ => by rw [hd]; rfl) rfl rfl fun _ => by
      simp
  | recvPark hd => exact h.park (State.loc_of_list hd rfl) rfl
  | lockFree hd => exact h.run (fun _ => by rw [hd]; exact DCall.list_after _ _) rfl rfl fun _ => rfl
  | lockPark hd hc =>
    obtain rfl | rfl := hc
    · exact h.park (State.loc_of_list hd rfl) rfl
    · exact h.park (State.loc_of_list hd rfl) rfl
  | condPark hd => exact h.park (State.loc_of_list hd rfl) rfl
  | condUnlock hd =>
    exact (h.mutexUnlock _).run (fun _ => by rw [State.mutexUnlock_dpc, hd]; rfl) rfl rfl fun _ => rfl
  | relockFree hd => exact h.run (fun _ => by rw [hd]; rfl) rfl rfl fun _ => rfl
  | relockPark hd => exact h.park (State.loc_of_list hd rfl) rfl
  | enterBarrier hd => exact h.run (fun _ => by rw [hd]; rfl) rfl rfl fun _ => rfl
  | enter hd => exact h.run (fun _ => by rw [hd]; rfl) rfl rfl fun _ => rfl
  | start hd =>
    exact (h.mutexUnlock _).run (fun _ => by rw [State.mutexUnlock_dpc, hd]; rfl) rfl rfl fun _ => rfl
  | startSerial hd => exact h.run (fun _ => by rw [hd]; rfl) rfl rfl fun _ => rfl
  | bodyReturn hd => exact h.run (fun _ => by rw [hd]; split <;> rfl) rfl rfl fun _ => rfl
  | leaveBarrier hd => exact h.run (fun _ => by rw [hd]; rfl) rfl rfl fun _ => rfl
  | leave hd => exact h.run (fun _ => by rw [hd]; split <;> rfl) rfl rfl fun _ => rfl
  | broadcast hd => exact h.condBroadcast.run (fun _ => by rw [State.condBroadcast_dpc, hd]; rfl) rfl rfl fun _ => rfl
  | unlockEnd hd =>
    exact (h.mutexUnlock _).run (fun _ => by rw [State.mutexUnlock_dpc, hd]; rfl) rfl rfl fun _ => rfl
  | finish hd =>
    split
    · exact h.run (fun _ => by rw [hd]; rfl) rfl rfl fun _ => State.syncDone_node (by simp)
    · exact h.run (fun _ => by rw [hd]; rfl) rfl rfl fun _ => rfl
  | workEnd hd => exact h.run (fun _ => by rw [hd]; rfl) rfl rfl fun _ => rfl
  | exit hd => exact h.run (fun _ => by rw [hd]; rfl) rfl rfl fun _ => State.drainDone_node (by simp)
  | sendHand _ _ hl => exact (h.pop hl).congr rfl rfl fun _ => rfl
  | sendPark => exact h.congr rfl rfl fun _ => by simp
  | syncPark => exact h.congr rfl rfl fun _ => by simp
  | close => exact h.chanClose.congr rfl rfl fun _ => rfl
  | drainPark => exact h.congr rfl rfl fun _ => by simp
  | wake => exact h.wake _
  | _ => exact h.congr rfl rfl fun _ => rfl

/-- A submission that is not parked is not on the list. -/
lemma State.callerLoc_of_ne {t : TaskId} (ht : s.cpc t ≠ .blk .send) : s.callerLoc t = none := by
  simp [State.callerLoc, ht]

lemma State.callerLoc_of_decided {t : TaskId} {st : Code} (h : s.node (.caller t) = .decided st) :
    s.callerLoc t = none := by
  simp [State.callerLoc, h]

lemma CCall.after_ne_blk (c c' : CCall) (t : Task) (st : Code) : c.after t st ≠ .blk c' := by
  unfold CCall.after
  split <;> try split
  all_goals simp

lemma CStep.ne_blk {t : TaskId} {p p' : CPc} (h : CStep cfg s t p p') (c : CCall) : p ≠ .blk c ∧ p' ≠ .blk c := by
  cases h <;> simp [CCall.after_ne_blk]

lemma Call.entry_ne_blk (c : Call) (c' : CCall) : c.entry ≠ .blk c' := by
  unfold Call.entry
  split
  · simp
  · split <;> simp

lemma senders_step (hstep : Step cfg s ev s') (h : s.Senders) : s'.Senders := by
  cases hstep with
  | recvRefill _ _ hl => exact (h.pop hl).congr rfl rfl fun _ _ => rfl
  | recvDirect _ _ hl => exact (h.pop hl).congr rfl rfl fun _ _ => rfl
  | recvPark => exact h.congr rfl rfl fun _ _ => by simp
  | lockPark => exact h.congr rfl rfl fun _ _ => by simp
  | condPark => exact h.congr rfl rfl fun _ _ => by simp
  | relockPark => exact h.congr rfl rfl fun _ _ => by simp
  | condUnlock =>
    rw [State.mutexUnlock_eq]
    exact h.congr rfl rfl fun _ _ => s.mutexUnlock_node_of_ne (by simp)
  | start =>
    rw [State.mutexUnlock_eq]
    exact h.congr rfl rfl fun _ _ => s.mutexUnlock_node_of_ne (by simp)
  | unlockEnd =>
    rw [State.mutexUnlock_eq]
    exact h.congr rfl rfl fun _ _ => s.mutexUnlock_node_of_ne (by simp)
  | broadcast => exact h.congr rfl rfl fun _ _ => by simp [State.condBroadcast]
  | finish _ _ =>
    split
    · refine h.congr rfl rfl fun u hu => State.grant_of_notMem fun hmem => ?_
      split at hmem
      · obtain ⟨⟨hblk, -⟩, heq⟩ := State.mem_syncWaiters.mp hmem
        cases heq
        simp [hu] at hblk
      · simp at hmem
    · exact h.congr rfl rfl fun _ _ => rfl
  | exit => exact h.congr rfl rfl fun _ _ => State.drainDone_node (by simp)
  | call c hc => exact h.run (State.callerLoc_of_ne (by simp [hc])) (c.entry_ne_blk _) rfl rfl fun _ _ => rfl
  | caller hc => exact h.run (State.callerLoc_of_ne (hc.ne_blk _).1) (hc.ne_blk _).2 rfl rfl fun _ _ => rfl
  | submit hc => exact h.run (State.callerLoc_of_ne (by simp [hc])) (by split <;> simp) rfl rfl fun _ _ => rfl
  | callerPreFailed hc =>
    exact h.run (State.callerLoc_of_ne (by simp [hc])) (CCall.after_ne_blk _ _ _ _) rfl rfl fun _ _ => rfl
  | callerWoken hc hst =>
    exact h.run (State.callerLoc_of_decided hst) (CCall.after_ne_blk _ _ _ _) rfl rfl fun _ _ => rfl
  | sendHand hc =>
    refine h.run (State.callerLoc_of_ne ?_) (CCall.after_ne_blk _ _ _ _) rfl rfl fun _ _ => ?_
    · rcases hc with hc | hc <;> simp [hc]
    · simp
  | sendPush hc =>
    refine h.run (State.callerLoc_of_ne ?_) (CCall.after_ne_blk _ _ _ _) rfl rfl fun _ _ => rfl
    rcases hc with hc | hc <;> simp [hc]
  | sendPark hc => exact h.park (State.callerLoc_of_ne (by simp [hc]))
  | fail hc => exact h.run (State.callerLoc_of_ne (by simp [hc])) (by simp) rfl rfl fun _ _ => rfl
  | syncPark hc =>
    exact h.run (State.callerLoc_of_ne (by simp [hc])) (by simp) rfl rfl fun u hu => by
      simp [hu]
  | close => exact h.chanClose.congr rfl rfl fun _ _ => rfl
  | drainPark => exact h.congr rfl rfl fun _ _ => by simp
  | wake => exact h.wake _
  | _ => exact h.congr rfl rfl fun _ _ => rfl

/-! ## The channel -/

/-- Drainer `d` has seen the end of the channel, or a wait of it has been ended by the close. -/
def State.Left (s : State) (d : DrainerId) : Prop :=
  s.dpc d = .exit ∨ s.dpc d = .exited ∨ s.node (.drainer d) = .decided .closed

/-- The drainers, and who waits in the channel. -/
structure Chan (cfg : Config) (s : State) : Prop where
  parked : s.Parked
  senders : s.Senders
  absent : ∀ d, s.dpc d = .none ↔ cfg.spawned ≤ d
  closed : s.closed = true → s.senders = [] ∧ s.parked .receivers = []
  /-- A drainer waits for a task only if there is none. -/
  empty : s.parked .receivers ≠ [] → s.buf = [] ∧ s.senders = []
  /-- A drainer leaves only if there is nothing left to do. -/
  left : ∀ d, s.Left d → s.closed = true ∧ s.buf = []

lemma chan_create (cfg : Config) : Chan cfg (.create cfg) where
  parked := ⟨fun l d => by simp [State.create, State.loc], fun l => List.nodup_nil⟩
  senders := ⟨fun _ t => by simp [State.create, State.callerLoc], fun _ => List.nodup_nil⟩
  absent := fun d => by simp [State.create]
  closed := by simp [State.create]
  empty := by simp [State.create]
  left := by
    intro d h
    simp only [State.Left, State.create] at h
    split at h <;> simp at h

lemma DCall.after_ne_none (c : DCall) (st : Code) : c.after st ≠ .none := by
  cases c <;> cases st <;> simp [DCall.after]

lemma DStep.ne_none {d : DrainerId} {p p' : DPc} (h : DStep cfg s d p p') : p ≠ .none ∧ p' ≠ .none := by
  cases h <;> simp [DCall.after_ne_none]

lemma State.preBlock_code {a : Actor} {st : Code} (h : s.preBlock a = some st) :
    st = .canceled ∨ st = .timedout := by
  unfold State.preBlock at h
  split at h
  · exact .inl (Option.some.inj h).symm
  · split at h
    · exact .inr (Option.some.inj h).symm
    · simp at h

lemma State.entry_code {d : DrainerId} {c : DCall} {st : Code} (h : s.entry d c = some st) :
    st = .canceled ∨ st = .timedout ∨ st = .perm := by
  have hpre (h : s.preBlock (.drainer d) = some st) : st = .canceled ∨ st = .timedout ∨ st = .perm :=
    (State.preBlock_code h).imp_right .inl
  unfold State.entry at h
  split at h
  · cases hp : s.preBlock (.drainer d) with
    | some st' => exact hpre (by simpa [hp] using h)
    | none =>
      simp only [hp, Option.none_or] at h
      split at h
      · simp at h
      · exact .inr (.inr (Option.some.inj h).symm)
  · exact hpre h

lemma DCall.after_left {c : DCall} {st : Code} (h : c.after st = .exit ∨ c.after st = .exited) :
    st = .closed := by
  cases c <;> cases st <;> simp_all [DCall.after]

lemma DStep.exit {d : DrainerId} {p p' : DPc} (h : DStep cfg s d p p') (hp : p' = .exit ∨ p' = .exited) :
    s.closed = true ∧ s.buf = [] := by
  cases h with
  | recvClosed hbuf _ hcl => exact ⟨hcl, hbuf⟩
  | lockOwn => simpa using DCall.after_left hp
  | _ => simp at hp

/-- Only drainers that exist take steps, and they leave the loop only at the end of the channel. -/
lemma step_dpc (hstep : Step cfg s ev s') : s'.dpc = s.dpc ∨
    ∃ d p, ev = .drain d ∧ s.dpc d ≠ .none ∧ p ≠ .none ∧ s'.dpc = Function.update s.dpc d p ∧
      (p = .exit ∨ p = .exited → s.Left d ∨ s.closed = true ∧ s.buf = []) := by
  cases hstep with
  | control hd => exact .inr ⟨_, _, rfl, hd.ne_none.1, hd.ne_none.2, rfl, fun hp => .inr (hd.exit hp)⟩
  | preFailed hd hst =>
    refine .inr ⟨_, _, rfl, by simp [hd], DCall.after_ne_none _ _, rfl, fun hp => ?_⟩
    have hcl := DCall.after_left hp
    simpa [hcl] using State.entry_code hst
  | @woken d c st hd hst =>
    refine .inr ⟨_, _, rfl, by simp [hd], by split <;> simp [DCall.after_ne_none], rfl, fun hp => ?_⟩
    have hcl : st = .closed := by
      cases c with
      | cond ph => simp at hp
      | _ => exact DCall.after_left hp
    exact .inl (.inr (.inr (hcl ▸ hst)))
  | condUnlock hd | start hd | unlockEnd hd =>
    rw [State.mutexUnlock_eq]
    exact .inr ⟨_, _, rfl, by simp [hd], by simp, rfl, by simp⟩
  | bodyReturn hd => exact .inr ⟨_, _, rfl, by simp [hd], by split <;> simp, rfl, by split <;> simp⟩
  | leave hd => exact .inr ⟨_, _, rfl, by simp [hd], by split <;> simp, rfl, by split <;> simp⟩
  | finish hd => exact .inr ⟨_, .workEnd, rfl, by simp [hd], by simp, by split <;> rfl, by simp⟩
  | exit hd => exact .inr ⟨_, _, rfl, by simp [hd], by simp, rfl, fun _ => .inl (.inl hd)⟩
  | close => exact .inl (by unfold State.chanClose; split <;> rfl)
  | @wake a => exact .inl (by cases a <;> rfl)
  | lockFree hd hc =>
    obtain rfl | rfl := hc
    · exact .inr ⟨_, _, rfl, by simp [hd], by simp [DCall.after], rfl, by simp [DCall.after]⟩
    · exact .inr ⟨_, _, rfl, by simp [hd], by simp [DCall.after], rfl, by simp [DCall.after]⟩
  | recvPop hd | recvRefill hd | recvDirect hd | recvPark hd | lockPark hd
  | condPark hd | relockFree hd | relockPark hd | enterBarrier hd | enter hd | startSerial hd | leaveBarrier hd
  | broadcast hd | workEnd hd =>
    exact .inr ⟨_, _, rfl, by simp [hd], by simp [DCall.after], rfl, by simp [DCall.after]⟩
  | _ => exact .inl rfl

lemma absent_step (hstep : Step cfg s ev s') (d : DrainerId) : s'.dpc d = .none ↔ s.dpc d = .none := by
  obtain heq | ⟨e, p, -, he, hp, heq, -⟩ := step_dpc hstep
  · rw [heq]
  · by_cases hd : d = e
    · subst hd
      simp [heq, he, hp]
    · simp [heq, hd]

lemma closed_step (hstep : Step cfg s ev s')
    (h : s.closed = true → s.senders = [] ∧ s.parked .receivers = []) :
    s'.closed = true → s'.senders = [] ∧ s'.parked .receivers = [] := by
  cases hstep with
  | condUnlock | unlockEnd | start =>
    rw [State.mutexUnlock_eq]
    simpa using h
  | close =>
    unfold State.chanClose
    split
    · exact h
    · simp
  | @wake a =>
    intro hcl
    cases a with
    | drainer d => exact ⟨(h hcl).1, by simp [State.unlink, (h hcl).2]⟩
    | caller t => exact ⟨by simp [State.unlink, (h hcl).1], (h hcl).2⟩
    | destroyer => exact h hcl
  | finish => split <;> exact h
  | _ => simp_all [State.condBroadcast, State.drainDone]

lemma empty_step (hstep : Step cfg s ev s')
    (h : s.parked .receivers ≠ [] → s.buf = [] ∧ s.senders = []) :
    s'.parked .receivers ≠ [] → s'.buf = [] ∧ s'.senders = [] := by
  cases hstep with
  | condUnlock | unlockEnd | start =>
    rw [State.mutexUnlock_eq]
    simpa using h
  | close =>
    unfold State.chanClose
    split
    · exact h
    · simp
  | @wake a =>
    cases a with
    | drainer d =>
      intro hne
      exact h fun hnil => hne (by simp [State.unlink, hnil])
    | caller t =>
      intro hne
      exact ⟨(h hne).1, by simp [State.unlink, (h hne).2]⟩
    | destroyer => exact h
  | finish => split <;> exact h
  | _ => simp_all [State.condBroadcast, State.drainDone]

/-- Nothing comes into a closed channel. -/
lemma step_of_closed (hstep : Step cfg s ev s') (hsenders : s.senders = []) (hcl : s.closed = true) :
    s'.closed = true ∧ (s.buf = [] → s'.buf = []) := by
  cases hstep with
  | condUnlock | unlockEnd | start =>
    rw [State.mutexUnlock_eq]
    exact ⟨hcl, id⟩
  | close =>
    unfold State.chanClose
    split <;> exact ⟨by simp [hcl], id⟩
  | @wake a => cases a <;> exact ⟨hcl, id⟩
  | finish => split <;> exact ⟨hcl, id⟩
  | _ => simp_all [State.condBroadcast, State.drainDone]

/-- Only a close ends the wait of a drainer with `CLOSED`. -/
lemma node_closed_step (hchan : Chan cfg s) (hstep : Step cfg s ev s') {d : DrainerId}
    (hd : s'.node (.drainer d) = .decided .closed) :
    s.node (.drainer d) = .decided .closed ∨ s'.closed = true ∧ s'.buf = [] := by
  cases hstep with
  | @condUnlock e | @start e | @unlockEnd e =>
    left
    obtain hsame | ⟨_, _, _, hok, _⟩ := s.mutexUnlock_node e (.drainer d)
    · exact hsame ▸ hd
    · exact absurd (hok.symm.trans hd) (by simp)
  | close =>
    simp only [State.setX, State.chanClose] at hd ⊢
    split at hd
    next hcl => exact .inl hd
    next hcl =>
      by_cases hmem : d ∈ s.parked .receivers
      · exact .inr (by simp [hcl, hchan.empty (List.ne_nil_of_mem hmem)])
      · exact .inl (by simpa [hmem] using hd)
  | @wake a st _ hst =>
    left
    by_cases ha : a = .drainer d
    · subst ha
      simp at hd
      simp [hd] at hst
    · cases a with
      | drainer e => simpa [State.unlink, Ne.symm ha] using hd
      | caller t => simpa [State.unlink] using hd
      | destroyer => simpa [State.unlink] using hd
  | finish =>
    left
    simp only [State.setD] at hd
    split at hd
    · exact (State.syncDone_node (by simp)).symm.trans hd
    · exact hd
  | exit => exact .inl ((State.drainDone_node (by simp)).symm.trans hd)
  | @recvPark e | @lockPark e | @condPark e | @relockPark e =>
    left
    by_cases he : d = e
    · simp [he] at hd
    · simpa [he] using hd
  | @sendHand _ e =>
    left
    by_cases he : d = e
    · simp [he] at hd
    · simpa [he] using hd
  | broadcast =>
    left
    simp only [State.setD, State.condBroadcast, State.grant] at hd
    split at hd
    · simp at hd
    · exact hd
  | _ => exact .inl (by simpa using hd)

lemma left_step (hchan : Chan cfg s) (hstep : Step cfg s ev s') {d : DrainerId} (hd : s'.Left d) :
    s'.closed = true ∧ s'.buf = [] := by
  have hold (h : s.closed = true ∧ s.buf = []) : s'.closed = true ∧ s'.buf = [] :=
    ⟨(step_of_closed hstep (hchan.closed h.1).1 h.1).1, (step_of_closed hstep (hchan.closed h.1).1 h.1).2 h.2⟩
  have hpc (hd : s'.dpc d = .exit ∨ s'.dpc d = .exited) : s'.closed = true ∧ s'.buf = [] := by
    obtain heq | ⟨e, p, -, -, -, heq, hexit⟩ := step_dpc hstep
    · rw [heq] at hd
      exact hold (hchan.left d (hd.elim .inl fun hd => .inr (.inl hd)))
    · by_cases he : d = e
      · subst he
        obtain hleft | hend := hexit (by simpa [heq] using hd)
        · exact hold (hchan.left d hleft)
        · exact hold hend
      · simp only [heq, ne_eq, he, not_false_eq_true, Function.update_of_ne] at hd
        exact hold (hchan.left d (hd.elim .inl fun hd => .inr (.inl hd)))
  obtain hd | hd | hd := hd
  · exact hpc (.inl hd)
  · exact hpc (.inr hd)
  · obtain hd | hd := node_closed_step hchan hstep hd
    · exact hold (hchan.left d (.inr (.inr hd)))
    · exact hd

lemma chan_step (h : Chan cfg s) (hstep : Step cfg s ev s') : Chan cfg s' where
  parked := parked_step hstep h.parked
  senders := senders_step hstep h.senders
  absent := fun d => (absent_step hstep d).trans (h.absent d)
  closed := closed_step hstep h.closed
  empty := empty_step hstep h.empty
  left := fun _ => left_step h hstep

end Suspenders.Queue
