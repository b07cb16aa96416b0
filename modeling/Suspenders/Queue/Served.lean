import Mathlib.Algebra.BigOperators.Group.Finset.Basic
import Mathlib.Algebra.Order.BigOperators.Group.Finset
import Suspenders.Queue.Drainers
import Suspenders.Queue.Order
import Suspenders.Queue.Progress

/-!
# Every accepted task is executed

The drainers have only finitely much to do: a measure of what is left of the tasks, of the wakes that are under way
and of the cancels that are pending becomes smaller with every step (`State.left_lt`).  As long as a task is accepted
and not finished there is a step, so all of them are executed.

Two things can go wrong.  A deadline that a task has left behind and that has passed makes its drainer spin, so that
it does nothing any more.  And `suspenders_queue_create` converts the number of drainers to an `int`: a number that
becomes negative is not counted in `drain_wg`, and the destroyer waits for nobody.
-/

namespace Suspenders.Queue

open Lib

/-! ## What is left -/

/-- A number by the status of a wait. -/
def Status.pick (ok waiting other : ℕ) : Status → ℕ
  | .decided .ok => ok
  | .waiting => waiting
  | .decided _ => other

/-- The number for a drainer that waits for a broadcast. -/
def Phase.rank (n : ℕ) : Phase → ℕ
  | active => 8 * n + 12
  | pending => 8 * n + 13

/-- How far one of `n` drainers is from the end of the loop; a broadcast may wake all of them. -/
def DPc.rank (n : ℕ) (node : Status) : DPc → ℕ
  | none | exited => 0
  | exit => 1
  | cs .recv => 2
  | pre .recv => 3
  | workEnd => 4
  | finish => 5
  | unlockEnd => 6
  | broadcast => 8 * n + 7
  | release => 8 * n + 8
  | blk .leave => node.pick (8 * n + 9) (8 * n + 10) (8 * n + 13)
  | cs .leave => 8 * n + 11
  | pre .leave => 8 * n + 12
  | body => 8 * n + 14
  | unlock => 8 * n + 15
  | blk (.cond ph) => node.pick (ph.rank n + 8) (ph.rank n) (ph.rank n + 8)
  | condUnlock ph => node.pick (ph.rank n + 9) (ph.rank n + 1) (ph.rank n + 9)
  | cs (.cond ph) => ph.rank n + 2
  | pre (.cond ph) => ph.rank n + 3
  | test ph => ph.rank n + 4
  | relockBlk ph => node.pick (ph.rank n + 5) (ph.rank n + 6) (ph.rank n + 8)
  | relock ph => ph.rank n + 7
  | blk .enter => node.pick (8 * n + 18) (8 * n + 19) (8 * n + 22)
  | cs .enter => 8 * n + 20
  | pre .enter => 8 * n + 21
  | got => 8 * n + 22
  | blk .recv => node.pick (8 * n + 23) 1 4

namespace State

variable (s : State)

/-- What drainer `d` has to do with a cancel, and with a deadline that has passed. -/
def debt (d : DrainerId) : ℕ :=
  (if s.cancel (.drainer d) then 2 else 0) + if s.deadline (.drainer d) = .expired then 1 else 0

/-- What drainer `d` still has to do. -/
def effort (n : ℕ) (d : DrainerId) : ℕ := (s.dpc d).rank n (s.node (.drainer d)) + s.debt d

/-- What is in the channel. -/
def load : ℕ := s.buf.length + s.senders.length

/-- What is left for `n` drainers. -/
def left (n : ℕ) : ℕ := ∑ d ∈ Finset.range n, s.effort n d + (8 * n + 21) * s.load

end State

variable {cfg : Config} {s s' : State} {ev : Event} {d e : DrainerId}

lemma State.debt_le (hdl : s'.deadline = s.deadline)
    (hcancel : s'.cancel (.drainer d) = true → s.cancel (.drainer d) = true) : s'.debt d ≤ s.debt d := by
  unfold State.debt
  rw [hdl]
  refine Nat.add_le_add_right ?_ _
  split
  next h => rw [if_pos (hcancel h)]
  next => exact Nat.zero_le _

/-! ## Others -/

/-- What the step of a drainer does to the waits of the others. -/
lemma node_drain (hparked : s.Parked) (hstep : Step cfg s (.drain d) s') (hne : e ≠ d) :
    s'.node (.drainer e) = s.node (.drainer e) ∨
      s.node (.drainer e) = .waiting ∧ s'.node (.drainer e) = .decided .ok ∧
        ((s.dpc e).list = some .mutex ∨ (s.dpc e).list = some .cond ∧ s.dpc d = .broadcast) := by
  cases hstep with
  | condUnlock | start | unlockEnd =>
    obtain hsame | ⟨_, ⟨⟩, hmem, hok, -⟩ := s.mutexUnlock_node d (.drainer e)
    · exact .inl hsame
    · obtain ⟨hlist, hw⟩ := hparked.waits hmem
      exact .inr ⟨hw, hok, .inl hlist⟩
  | broadcast hd =>
    by_cases hmem : e ∈ s.parked .cond
    · obtain ⟨hlist, hw⟩ := hparked.waits hmem
      exact .inr ⟨hw, by simp [State.condBroadcast, hmem], .inr ⟨hlist, hd⟩⟩
    · exact .inl (by simp [State.condBroadcast, hmem])
  | finish =>
    simp only [State.setD]
    split
    · exact .inl (State.syncDone_node (by simp))
    · exact .inl rfl
  | exit => exact .inl (State.drainDone_node (by simp))
  | _ => exact .inl (by simp [hne])

/-- The step of a drainer cancels nobody, and no deadline passes. -/
lemma debt_drain (hstep : Step cfg s (.drain d) s') :
    s'.deadline = s.deadline ∧ ∀ e, e ≠ d → s'.cancel (.drainer e) = s.cancel (.drainer e) := by
  cases hstep with
  | condUnlock | start | unlockEnd =>
    rw [State.mutexUnlock_eq]
    exact ⟨rfl, fun _ _ => rfl⟩
  | finish =>
    simp only [State.setD]
    split <;> exact ⟨rfl, fun _ _ => rfl⟩
  | preFailed | woken =>
    refine ⟨rfl, fun e he => ?_⟩
    simp only [State.setD, State.consume]
    split
    · exact Function.update_of_ne (by simpa using he) _ _
    · rfl
  | _ => exact ⟨rfl, fun _ _ => rfl⟩

/-- A hand-over of the mutex is no effort for who gets it, and a broadcast is a small one. -/
lemma effort_other (hparked : s.Parked) (hstep : Step cfg s (.drain d) s') (hne : e ≠ d) (n : ℕ) :
    s'.effort n e ≤ s.effort n e + if s.dpc d = .broadcast then 8 else 0 := by
  obtain ⟨hdpc, -⟩ := step_other hparked hstep (e := e) (by simpa using hne.symm)
  obtain ⟨hdl, hcancel⟩ := debt_drain hstep
  have hdebt : s'.debt e = s.debt e := by rw [State.debt, State.debt, hdl, hcancel e hne]
  unfold State.effort
  rw [hdpc, hdebt]
  obtain hsame | ⟨hw, hok, hlist | ⟨hlist, hd⟩⟩ := node_drain hparked hstep hne
  · rw [hsame]
    omega
  · rw [hw, hok]
    have hrank : (s.dpc e).rank n (.decided .ok) ≤ (s.dpc e).rank n .waiting := by
      cases hp : s.dpc e with
      | blk c => cases c <;> simp_all [DPc.rank, DPc.list, Status.pick]
      | relockBlk ph => simp [DPc.rank, Status.pick]
      | _ => simp [hp, DPc.list] at hlist
    omega
  · rw [hw, hok, if_pos hd]
    have hrank : (s.dpc e).rank n (.decided .ok) ≤ (s.dpc e).rank n .waiting + 8 := by
      cases hp : s.dpc e with
      | blk c => cases c <;> simp_all [DPc.rank, DPc.list, Status.pick]
      | condUnlock ph => simp [DPc.rank, Status.pick]
      | _ => simp [hp, DPc.list] at hlist
    omega

/-! ## The drainer itself -/

/-- The effort that a step of drainer `d` saves: it pays for the others that it wakes. -/
def State.Saves (s s' : State) (n : ℕ) (d : DrainerId) : Prop :=
  s'.effort n d + (if s.dpc d = .broadcast then 8 * n else 0) + (8 * n + 21) * s'.load <
    s.effort n d + (8 * n + 21) * s.load

/-- A step that only moves the drainer. -/
lemma saves_of_rank {n : ℕ} {p q : DPc} (hd : s.dpc d = q) (hp : s'.dpc d = p) (hcancel : s'.cancel = s.cancel)
    (hdl : s'.deadline = s.deadline) (hload : s'.load = s.load)
    (hlt : p.rank n (s'.node (.drainer d)) + (if q = .broadcast then 8 * n else 0) < q.rank n (s.node (.drainer d))) :
    s.Saves s' n d := by
  have hdebt : s'.debt d = s.debt d := by rw [State.debt, State.debt, hdl, hcancel]
  unfold State.Saves State.effort
  rw [hd, hp, hdebt, hload]
  omega

/-- A step that takes a task out of the channel. -/
lemma saves_of_load {n : ℕ} (hd : s.dpc d = .cs .recv) (hp : s'.dpc d = .got) (hcancel : s'.cancel = s.cancel)
    (hdl : s'.deadline = s.deadline) (hload : s'.load + 1 = s.load) : s.Saves s' n d := by
  have hdebt : s'.debt d = s.debt d := by rw [State.debt, State.debt, hdl, hcancel]
  unfold State.Saves State.effort
  rw [hd, hp, hdebt, ← hload, Nat.mul_succ]
  simp only [DPc.rank, reduceCtorEq, if_false]
  omega

/-- A blocking call that fails at the entry checks consumes a cancel. -/
lemma saves_preFailed {n : ℕ} {c : DCall} {st : Code} (howner : ∀ d, s.owner = some d ↔ s.Owning d)
    (hdl : s.deadline (.drainer d) ≠ .expired) (hd : s.dpc d = .pre c) (hst : s.entry d c = some st) :
    s.Saves ((s.consume (.drainer d) st).setD d (c.after st)) n d := by
  have hpre : s.preBlock (.drainer d) = some st := by
    cases hp : s.preBlock (.drainer d) with
    | some st' => exact (State.entry_of_some hp).symm.trans hst
    | none =>
      have hnone : s.entry d c = none := State.entry_of_none hp fun ph hc => (howner d).2 (.inl (by rw [hd, hc]; rfl))
      rw [hnone] at hst
      cases hst
  have hcancel : s.cancel (.drainer d) = true := by
    by_contra hnot
    rw [State.preBlock_none hdl (by simpa using hnot)] at hpre
    cases hpre
  obtain rfl : .canceled = st := Option.some.inj ((State.preBlock_of_cancel hcancel).symm.trans hpre)
  have hdebt : ((s.consume (.drainer d) .canceled).setD d (c.after .canceled)).debt d + 2 = s.debt d := by
    simp only [State.debt, State.setD, State.consume, if_true, Function.update_self, hcancel, Bool.false_eq_true, if_false]
    omega
  unfold State.Saves State.effort
  rw [hd, ← hdebt]
  simp only [State.load, State.setD, State.consume, Function.update_self, reduceCtorEq, if_false]
  cases c <;> simp only [DCall.after, DPc.rank] <;> omega

/-- A wait that is over. -/
lemma saves_woken {n : ℕ} {c : DCall} {st : Code} {p : DPc} (hd : s.dpc d = .blk c)
    (hst : s.node (.drainer d) = .decided st) (hlt : p.rank n (.decided st) < (DPc.blk c).rank n (.decided st)) :
    s.Saves ((s.consume (.drainer d) st).setD d p) n d := by
  have hdebt : ((s.consume (.drainer d) st).setD d p).debt d ≤ s.debt d := by
    refine State.debt_le rfl fun hcancel => ?_
    simp only [State.setD, State.consume] at hcancel
    split at hcancel
    · simp at hcancel
    · exact hcancel
  unfold State.Saves State.effort
  simp only [State.load, State.setD, State.consume, Function.update_self, hd, hst, reduceCtorEq, if_false] at hdebt ⊢
  omega

/-- Every step of a drainer saves effort, if its deadline has not passed. -/
lemma saves_drain (h : Fit cfg s) (hdl : s.deadline (.drainer d) ≠ .expired) (hstep : Step cfg s (.drain d) s') (n : ℕ) :
    s.Saves s' n d := by
  have hunlock : (s.mutexUnlock d).cancel = s.cancel ∧ (s.mutexUnlock d).deadline = s.deadline ∧
      (s.mutexUnlock d).load = s.load := by
    rw [State.mutexUnlock_eq]
    exact ⟨rfl, rfl, rfl⟩
  cases hstep with
  | @control _ p hd =>
    generalize hq : s.dpc d = q at hd
    refine saves_of_rank hq (Function.update_self _ _ _) rfl rfl rfl ?_
    cases hd with
    | @go c => cases c <;> simp [DPc.rank]
    | lockOwn hc ho =>
      -- the drainer does not have the mutex
      have howning := (h.owner d).1 ho
      obtain rfl | rfl := hc
      all_goals simp [State.Owning, hq, DPc.locked, DPc.list] at howning
    | relocked hn => simp [DPc.rank, hn, Status.pick]
    | @relockFailed ph st hn hok =>
      cases st <;> simp_all [DPc.rank, Status.pick]
    | _ => simp [DPc.rank, DCall.after, Phase.rank]
  | preFailed hd hst => exact saves_preFailed h.owner hdl hd hst
  | @woken _ c st hd hst =>
    refine saves_woken hd hst ?_
    cases c <;> cases st <;> simp [DCall.after, DPc.rank, Status.pick, Phase.rank]
  | recvPop hd hbuf hl => exact saves_of_load hd (Function.update_self _ _ _) rfl rfl (by simp [State.load, hbuf, hl])
  | recvRefill hd hbuf hl =>
    exact saves_of_load hd (Function.update_self _ _ _) rfl rfl (by simp [State.load, hbuf, hl]; omega)
  | recvDirect hd hbuf hl => exact saves_of_load hd (Function.update_self _ _ _) rfl rfl (by simp [State.load, hbuf, hl])
  | recvPark hd => exact saves_of_rank hd (Function.update_self _ _ _) rfl rfl rfl (by simp [DPc.rank, Status.pick])
  | lockFree hd hc =>
    obtain rfl | rfl := hc
    all_goals exact saves_of_rank hd (Function.update_self _ _ _) rfl rfl rfl (by simp [DPc.rank, DCall.after, Phase.rank])
  | lockPark hd hc =>
    obtain rfl | rfl := hc
    all_goals exact saves_of_rank hd (Function.update_self _ _ _) rfl rfl rfl (by simp [DPc.rank, Status.pick])
  | condPark hd => exact saves_of_rank hd (Function.update_self _ _ _) rfl rfl rfl (by simp [DPc.rank, Status.pick])
  | @condUnlock _ ph hd =>
    refine saves_of_rank hd (Function.update_self _ _ _) hunlock.1 hunlock.2.1 hunlock.2.2 ?_
    have hnode : (s.mutexUnlock d).node (.drainer d) = s.node (.drainer d) := by
      obtain hsame | ⟨_, ⟨⟩, hmem, -⟩ := s.mutexUnlock_node d (.drainer d)
      · exact hsame
      · -- the drainer is on another list
        have hlist := (h.tasks.chan.parked.waits hmem).1
        rw [hd] at hlist
        cases hlist
    simp only [State.setD, hnode, DPc.rank, reduceCtorEq, if_false]
    cases s.node (.drainer d) with
    | waiting => simp [Status.pick]
    | decided st => cases st <;> simp [Status.pick]
  | relockFree hd => exact saves_of_rank hd (Function.update_self _ _ _) rfl rfl rfl (by simp [DPc.rank])
  | relockPark hd => exact saves_of_rank hd (Function.update_self _ _ _) rfl rfl rfl (by simp [DPc.rank, Status.pick])
  | start hd | unlockEnd hd =>
    refine saves_of_rank hd (Function.update_self _ _ _) hunlock.1 hunlock.2.1 hunlock.2.2 ?_
    simp [DPc.rank]
  | bodyReturn hd | leave hd =>
    refine saves_of_rank hd (Function.update_self _ _ _) rfl rfl rfl ?_
    split <;> simp [DPc.rank]
  | finish hd =>
    refine saves_of_rank hd (Function.update_self _ _ _) ?_ ?_ ?_ (by simp [DPc.rank])
    all_goals
      simp only [State.setD, State.load]
      split <;> rfl
  | broadcast hd =>
    refine saves_of_rank hd (Function.update_self _ _ _) rfl rfl rfl ?_
    simp only [DPc.rank, if_true]
    omega
  | enterBarrier hd | enter hd | startSerial hd | leaveBarrier hd | workEnd hd | exit hd =>
    refine saves_of_rank hd (Function.update_self _ _ _) rfl rfl rfl ?_
    simp [DPc.rank, Phase.rank]

/-! ## Steps of all drainers -/

/-- A sum over `n` drainers, of which the others than `d` become larger by `k` at most. -/
lemma sum_le_of_others {n k d : ℕ} {f g : ℕ → ℕ} (hd : d < n) (hother : ∀ e, e ≠ d → g e ≤ f e + k) :
    ∑ e ∈ Finset.range n, g e + f d ≤ ∑ e ∈ Finset.range n, f e + k * n + g d := by
  have hmem := Finset.mem_range.2 hd
  have hf := Finset.add_sum_erase _ f hmem
  have hg := Finset.add_sum_erase _ g hmem
  have hle : ∑ e ∈ (Finset.range n).erase d, g e ≤ ∑ e ∈ (Finset.range n).erase d, (f e + k) :=
    Finset.sum_le_sum fun e he => hother e (Finset.ne_of_mem_erase he)
  have hcard : ((Finset.range n).erase d).card ≤ n := (Finset.card_erase_le).trans (Finset.card_range n).le
  have hk : ((Finset.range n).erase d).card * k ≤ k * n := by
    rw [Nat.mul_comm k n]
    exact Nat.mul_le_mul_right k hcard
  rw [Finset.sum_add_distrib, Finset.sum_const_nat fun _ _ => rfl] at hle
  omega

/-- No drainer has a deadline that has passed, except while it executes a task. -/
def State.OnTime (s : State) : Prop := ∀ d, s.deadline (.drainer d) = .expired → s.dpc d = .body

/-- The drainers go on: they take a step, or a task clears a deadline that has passed. -/
inductive Onward (cfg : Config) (s s' : State) : Prop
  | drain (d : DrainerId) : Step cfg s (.drain d) s' → s'.OnTime → Onward cfg s s'
  | clear (d : DrainerId) : s.deadline (.drainer d) = .expired → Step cfg s (.disarm (.drainer d)) s' → Onward cfg s s'

/-- A drainer that takes a step is one of those that were spawned. -/
lemma lt_of_drain (hchan : Chan cfg s) (hstep : Step cfg s (.drain d) s') : d < cfg.spawned := by
  by_contra hge
  have hnone := (hchan.absent d).2 (Nat.not_lt.1 hge)
  cases hstep with
  | control hd =>
    rw [hnone] at hd
    cases hd
  | _ => simp_all

/-- A drainer leaves its task on time. -/
lemma not_expired (htime : s.OnTime) (htime' : s'.OnTime) (hstep : Step cfg s (.drain d) s') :
    s.deadline (.drainer d) ≠ .expired := by
  intro hexp
  have hbody := htime d hexp
  have hbody' := htime' d ((debt_drain hstep).1 ▸ hexp)
  cases hstep with
  | control hd =>
    rw [hbody] at hd
    cases hd
  | bodyReturn =>
    simp only [State.setD, Function.update_self] at hbody'
    split at hbody' <;> cases hbody'
  | _ => simp_all

/-- Less is left after every step. -/
lemma State.left_lt (h : Fit cfg s) (htime : s.OnTime) (hstep : Onward cfg s s') :
    s'.left cfg.spawned < s.left cfg.spawned := by
  cases hstep with
  | drain d hstep htime' =>
    have hsum := sum_le_of_others (lt_of_drain h.tasks.chan hstep) fun e he =>
      effort_other h.tasks.chan.parked hstep he cfg.spawned
    have hsaves := saves_drain h (not_expired htime htime' hstep) hstep cfg.spawned
    unfold State.Saves at hsaves
    unfold State.left
    by_cases hb : s.dpc d = .broadcast
    · rw [if_pos hb] at hsum hsaves
      omega
    · rw [if_neg hb] at hsum hsaves
      omega
  | clear d hexp hstep =>
    cases hstep with
    | disarm hbody =>
      have hlt : d < cfg.spawned := by
        by_contra hge
        have hnone := (h.tasks.chan.absent d).2 (Nat.not_lt.1 hge)
        rw [hbody d rfl] at hnone
        cases hnone
      generalize hs' : ({ s with deadline := Function.update s.deadline (.drainer d) .none } : State) = s'
      have hother (e : DrainerId) (he : e ≠ d) : s'.effort cfg.spawned e ≤ s.effort cfg.spawned e + 0 := by
        rw [← hs']
        simp [State.effort, State.debt, he]
      have hself : s'.effort cfg.spawned d < s.effort cfg.spawned d := by
        rw [← hs']
        simp [State.effort, State.debt, hexp]
      have hload : s'.load = s.load := by rw [← hs']; rfl
      have hsum := sum_le_of_others hlt hother
      unfold State.left
      rw [hload]
      omega

lemma onTime_onward (htime : s.OnTime) (hstep : Onward cfg s s') : s'.OnTime := by
  cases hstep with
  | drain d _ htime' => exact htime'
  | clear d _ hstep =>
    cases hstep
    intro e he
    by_cases hed : e = d
    · simp [hed] at he
    · exact htime e (by simpa [hed] using he)

lemma Fit.onward (h : Fit cfg s) (hstep : Onward cfg s s') : Fit cfg s' := by
  cases hstep with
  | drain d hstep => exact h.step hstep
  | clear d _ hstep => exact h.step hstep

/-- As long as a task is accepted and not finished, there is a step. -/
lemma Fit.exists_onward (h : Fit cfg s) (htime : s.OnTime) (hnot : ¬ ∀ t ∈ s.accepted, t ∈ s.finished) :
    ∃ s', Onward cfg s s' := by
  obtain ⟨d, hnone, hexited, hstuck⟩ : ∃ d, s.dpc d ≠ .none ∧ s.dpc d ≠ .exited ∧ ¬ s.Stuck d := by
    by_contra hall
    push Not at hall
    exact hnot (h.done hall)
  by_cases hexp : s.deadline (.drainer d) = .expired
  · refine ⟨_, .clear d hexp (.disarm ?_ (by simp [hexp]))⟩
    rintro e ⟨⟩
    exact htime d hexp
  · obtain ⟨s', hstep⟩ := h.goes_on hnone hexited hstuck
    refine ⟨s', .drain d hstep fun e he => ?_⟩
    rw [(debt_drain hstep).1] at he
    have hne : e ≠ d := fun heq => hexp (heq ▸ he)
    rw [(step_other h.tasks.chan.parked hstep (by simpa using hne.symm)).1]
    exact htime e he

/-- All accepted tasks are executed. -/
lemma leads_finished (h : Fit cfg s) (htime : s.OnTime) :
    Leads (Onward cfg) (fun s => ∀ t ∈ s.accepted, t ∈ s.finished) s := by
  refine Leads.of_measure (I := fun s => Fit cfg s ∧ s.OnTime) (fun s => s.left cfg.spawned) ?_ ?_ ?_ ⟨h, htime⟩
  · rintro s s' ⟨h, htime⟩ hstep
    exact ⟨h.onward hstep, onTime_onward htime hstep⟩
  · rintro s s' ⟨h, htime⟩ hstep
    exact State.left_lt h htime hstep
  · rintro s ⟨h, htime⟩ hnot
    exact h.exists_onward htime hnot

/-! ## Runs -/

/-- What a queue promises. -/
structure State.Served (s : State) (cfg : Config) : Prop where
  /-- A task is executed once, by one drainer. -/
  once : (s.started.map Prod.snd).Nodup
  executed : ∀ t ∈ s.finished, ∃ d, (d, t) ∈ s.started
  /-- Only tasks that were accepted are executed. -/
  accepted : ∀ d t, (d, t) ∈ s.started → t ∈ s.accepted
  returned : ∀ t st, s.cpc t = .returned st → (t ∈ s.accepted ↔ st = .ok)
  sync : ∀ t, s.cpc t = .returned .ok → (s.task t).sync = true → t ∈ s.finished
  destroyed : s.xpc = .returned → ∀ t ∈ s.accepted, t ∈ s.finished
  /-- A serial queue keeps the order, and executes one task at a time. -/
  order : cfg.spawned = 1 → s.started.map Prod.snd <+: s.accepted ∧
    ∃ now, now.length ≤ 1 ∧ s.started.map Prod.snd = s.finished ++ now
  /-- Whatever the drainers do, all accepted tasks are executed. -/
  leads : Leads (Onward cfg) (fun s => ∀ t ∈ s.accepted, t ∈ s.finished) s

/-- The step leaves no deadline of a drainer behind that has passed. -/
def Punctual (_ : State) (_ : Event) (s' : State) : Prop := s'.OnTime

/-- When the destroyer returns, nothing is left. -/
lemma Fit.destroyed (h : Fit cfg s) (hdrainers : Drainers cfg s) (hx : s.xpc = .returned) :
    ∀ t ∈ s.accepted, t ∈ s.finished := by
  refine h.done fun d hnone hexited => absurd (hdrainers.returned hx) ?_
  have hlt : d < cfg.spawned := by
    by_contra hge
    exact hnone ((h.tasks.chan.absent d).2 (Nat.not_lt.1 hge))
  have hpos : 0 < s.alive cfg := Finset.card_pos.2 ⟨d, by simp [hlt, hexited]⟩
  rw [hdrainers.count]
  omega

lemma Tasks.serial_order (h : Tasks cfg s) (hone : cfg.spawned = 1) : s.started.map Prod.snd <+: s.accepted ∧
    ∃ now, now.length ≤ 1 ∧ s.started.map Prod.snd = s.finished ++ now := by
  obtain ⟨-, horder, hstarts⟩ := h.serial hone
  change s.accepted = s.finished ++ (s.pool.hand 0).toList ++ s.buf at horder
  change s.started.map Prod.snd = s.finished ++ if s.pool.busy 0 = true then (s.pool.hand 0).toList else [] at hstarts
  rw [hstarts, horder]
  split
  · refine ⟨List.prefix_append _ _, _, ?_, rfl⟩
    cases s.pool.hand 0 <;> simp
  · refine ⟨?_, [], by simp, rfl⟩
    rw [List.append_nil, List.append_assoc]
    exact List.prefix_append _ _

/-- Every accepted task is executed exactly once, in every run in which no deadline of a drainer passes outside of a
task, if the number of drainers is that of an `int`. -/
theorem tasks_run_once (cfg : Config) (hcfg : cfg.concurrency < 2 ^ 31) (s : State)
    (h : Reachable (Restrict (Step cfg) Punctual) (.create cfg) s) : s.Served cfg := by
  have hinv : Fit cfg s ∧ Drainers cfg s ∧ s.OnTime := by
    refine h.invariant (I := fun s => Fit cfg s ∧ Drainers cfg s ∧ s.OnTime)
      ⟨fit_create cfg, drainers_create hcfg, fun d hd => ?_⟩ ?_
    · cases hd
    · rintro s ev s' ⟨hfit, hdrainers, -⟩ ⟨hstep, htime⟩
      exact ⟨hfit.step hstep, drainers_step hfit.tasks.chan hdrainers hstep, htime⟩
  obtain ⟨hfit, hdrainers, htime⟩ := hinv
  have hcaller (t : TaskId) (st : Code) (hret : s.cpc t = .returned st) :
      (t ∈ s.accepted ↔ st = .ok) ∧ (st = .ok → (s.task t).sync = true → t ∈ s.finished) := by
    have := hfit.tasks.caller t
    rwa [State.CallerOk, hret] at this
  exact {
    once := hfit.tasks.pool.once
    executed := hfit.tasks.pool.finished
    accepted := fun d t ht => hfit.tasks.started_accepted (List.mem_map.2 ⟨(d, t), ht, rfl⟩)
    returned := fun t st hret => (hcaller t st hret).1
    sync := fun t hret hs => (hcaller t .ok hret).2 rfl hs
    destroyed := hfit.destroyed hdrainers
    order := hfit.tasks.serial_order
    leads := leads_finished hfit htime }

/-- One drainer. -/
def Config.one : Config := ⟨1, by decide, 1, by decide, by decide, 256⟩

/-- A task is submitted to a serial queue and executed. -/
theorem tasks_run_once_one : ∃ s : State, s.accepted = [0] ∧ s.started = [(0, 0)] ∧ s.finished = [0] ∧
    s.Served .one := by
  have hrun : ∃ s, Reachable (Restrict (Step .one) Punctual) (.create .one) s ∧ s.accepted = [0] ∧
      s.started = [(0, 0)] ∧ s.finished = [0] := by
    refine ⟨?_, ⟨[.call 0 ⟨.async, false, false⟩, .submit 0, .submit 0, .drain 0, .drain 0, .drain 0, .drain 0], ?run⟩,
      ?facts⟩
    case run =>
      refine .cons ⟨.call _ rfl, nofun⟩ ?_
      refine .cons ⟨.submit rfl, nofun⟩ ?_
      refine .cons ⟨.sendPush (.inr rfl) rfl rfl (by decide), nofun⟩ ?_
      refine .cons ⟨.control (.go rfl), nofun⟩ ?_
      refine .cons ⟨.recvPop rfl rfl rfl, nofun⟩ ?_
      refine .cons ⟨.startSerial rfl (by decide) rfl, nofun⟩ ?_
      refine .cons ⟨.bodyReturn rfl rfl, nofun⟩ ?_
      exact .nil _
    case facts => exact ⟨rfl, rfl, rfl⟩
  obtain ⟨s, hs, hfacts⟩ := hrun
  exact ⟨s, hfacts.1, hfacts.2.1, hfacts.2.2, tasks_run_once .one (by decide) s hs⟩

/-- So many drainers that their number is no `int`; one of them could be spawned. -/
def Config.many : Config := ⟨2 ^ 31, by decide, 1, by decide, by decide, 256⟩

lemma drainWg_many : Config.many.drainWg = 0 := by
  have hzero : waitgroupAdd 0 (toInt (max Config.many.concurrency 1)) = 0 := by decide
  rw [Config.drainWg, hzero]
  exact Function.iterate_fixed (by decide) _

/-- If no drainer is counted, the destroyer returns although a task was accepted that has not started. -/
lemma destroyed_early (hwg : cfg.drainWg = 0) (hcap : 0 < cfg.cap) : ∃ s, Reachable (Step cfg) (.create cfg) s ∧
    s.accepted = [0] ∧ s.finished = [] ∧ s.xpc = .returned := by
  refine ⟨?_, ⟨[.call 0 ⟨.async, false, false⟩, .submit 0, .submit 0, .destroy true, .destroyer, .destroyer,
    .destroyer], ?run⟩, ?facts⟩
  case run =>
    refine .cons (.call _ rfl) ?_
    refine .cons (.submit rfl) ?_
    refine .cons (.sendPush (.inr rfl) rfl rfl hcap) ?_
    refine .cons (.destroy true rfl) ?_
    refine .cons (.close rfl) ?_
    refine .cons (.drainGo rfl rfl) ?_
    refine .cons (.drained rfl hwg) ?_
    exact .nil _
  case facts => exact ⟨rfl, rfl, rfl⟩

/-- The deadline that a task has left behind passes, and the next task is not executed. -/
lemma never_executed : ∃ s, Reachable (Step .one) (.create .one) s ∧ s.cpc 1 = .returned .ok ∧
    ¬ Leads (fun s s' => ∃ d, Step .one s (.drain d) s') (fun s => 1 ∈ s.finished) s := by
  refine ⟨?_, ⟨[.call 0 ⟨.async, false, false⟩, .submit 0, .submit 0, .drain 0, .drain 0, .drain 0,
    .arm (.drainer 0), .drain 0, .drain 0, .drain 0, .expire (.drainer 0), .call 1 ⟨.async, false, false⟩, .submit 1,
    .submit 1, .submit 1], ?run⟩, ?facts, ?spins⟩
  case run =>
    refine .cons (.call _ rfl) ?_
    refine .cons (.submit rfl) ?_
    refine .cons (.sendPush (.inr rfl) rfl rfl (by decide)) ?_
    refine .cons (.control (.go rfl)) ?_
    refine .cons (.recvPop rfl rfl rfl) ?_
    refine .cons (.startSerial rfl (by decide) rfl) ?_
    refine .cons (.arm ?_) ?_
    · rintro d ⟨⟩
      exact rfl
    refine .cons (.bodyReturn rfl rfl) ?_
    refine .cons (.finish rfl rfl) ?_
    refine .cons (.workEnd rfl) ?_
    refine .cons (.expire rfl) ?_
    refine .cons (.call _ rfl) ?_
    refine .cons (.submit rfl) ?_
    refine .cons (.sendPush (.inr rfl) rfl rfl (by decide)) ?_
    refine .cons (.caller .ret) ?_
    exact .nil _
  case facts => exact rfl
  case spins =>
    refine Leads.not_of (I := fun s : State => s.dpc 0 = .pre .recv ∧ s.deadline (.drainer 0) = .expired ∧
      1 ∉ s.finished) ?_ ?_ ⟨rfl, rfl, by decide⟩
    · rintro s ⟨-, -, hnot⟩
      exact hnot
    · rintro s ⟨hd, hexp, hnot⟩
      obtain ⟨st, hst, hpre⟩ := State.preBlock_expired hexp
      refine ⟨_, ⟨0, .preFailed hd (State.entry_of_some hpre)⟩, ?_, hexp, hnot⟩
      obtain rfl | rfl := hst <;> simp [DCall.after]

/-- The destroyer does not wait for so many drainers, and a task is lost behind a deadline that has passed. -/
theorem tasks_not_executed :
    (¬ ∀ (cfg : Config) (s : State), Reachable (Step cfg) (.create cfg) s → s.xpc = .returned →
      ∀ t ∈ s.accepted, t ∈ s.finished) ∧
    ¬ ∀ (cfg : Config) (s : State), Reachable (Step cfg) (.create cfg) s → ∀ t, s.cpc t = .returned .ok →
      Leads (fun s s' => ∃ d, Step cfg s (.drain d) s') (fun s => t ∈ s.finished) s := by
  constructor
  · intro h
    obtain ⟨s, hs, hacc, hfin, hx⟩ := destroyed_early drainWg_many (by decide)
    have := h .many s hs hx 0 (by simp [hacc])
    simp [hfin] at this
  · intro h
    obtain ⟨s, hs, hret, hnot⟩ := never_executed
    exact hnot (h .one s hs 1 hret)

end Suspenders.Queue
