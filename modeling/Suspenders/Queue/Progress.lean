import Suspenders.Queue.Retry

/-!
# A queue does not get stuck

The drainers wait for each other: for the mutex, and in `suspenders_cond_wait` for a barrier or for the tasks before it.
Who waits at the condition variable waits for something that has not happened, or somebody is about to broadcast
(`State.Alert`).  So there is always a drainer that can go on, as long as a task is accepted and not finished.
-/

namespace Suspenders.Queue

open Lib

/-- The loop whose call of `suspenders_cond_wait` has not parked yet. -/
def DPc.drowsy : DPc → Option Phase
  | pre (.cond ph) | cs (.cond ph) => some ph
  | _ => Option.none

/-- The loop whose call of `suspenders_cond_wait` has parked. -/
def DPc.asleep : DPc → Option Phase
  | condUnlock ph | blk (.cond ph) => some ph
  | _ => Option.none

namespace State

variable (s : State)

/-- The condition of one of the two loops. -/
def HoldsUp : Phase → Prop
  | .pending => s.barrierPending = true
  | .active => 0 < s.active

/-- Drainer `d` is about to wait for a broadcast, or waits for it. -/
def Sleeps (d : DrainerId) (ph : Phase) : Prop :=
  (s.dpc d).drowsy = some ph ∨ (s.dpc d).asleep = some ph ∧ s.node (.drainer d) = .waiting

/-- Nobody sleeps in vain. -/
def Alert : Prop := ∀ d ph, s.Sleeps d ph → s.HoldsUp ph ∨ ∃ e, s.dpc e = .broadcast

end State

variable {cfg : Config} {s s' : State} {ev : Event} {d : DrainerId} {ph : Phase}

/-! ## The condition variable -/

lemma DCall.after_awake {c : DCall} {st : Code} : (c.after st).drowsy = none ∧ (c.after st).asleep = none := by
  cases c <;> cases st <;> exact ⟨rfl, rfl⟩

/-- Who sleeps did so before, or has just found that it has to. -/
lemma sleeps_own (hstep : Step cfg s (.drain d) s') (h : s'.Sleeps d ph) :
    s.Sleeps d ph ∨ s.dpc d = .test ph ∧ s.HoldsUp ph := by
  have hawake {p : DPc} (hdpc : s'.dpc d = p) (hp : p.drowsy = none ∧ p.asleep = none) : False := by
    simp [State.Sleeps, hdpc, hp] at h
  cases hstep with
  | control hd =>
    generalize hp : s.dpc d = p at hd
    cases hd with
    | @go c =>
      cases c with
      | cond ph' =>
        obtain rfl : ph' = ph := by simpa [State.Sleeps, DPc.drowsy, DPc.asleep] using h
        exact .inl (.inl (by rw [hp]; rfl))
      | _ => exact (hawake (Function.update_self _ _ _) ⟨rfl, rfl⟩).elim
    | pending hb =>
      obtain rfl : .pending = ph := by simpa [State.Sleeps, DPc.drowsy, DPc.asleep] using h
      exact .inr ⟨rfl, hb⟩
    | active ha =>
      obtain rfl : .active = ph := by simpa [State.Sleeps, DPc.drowsy, DPc.asleep] using h
      exact .inr ⟨rfl, ha⟩
    | lockOwn => exact (hawake (Function.update_self _ _ _) DCall.after_awake).elim
    | _ => exact (hawake (Function.update_self _ _ _) ⟨rfl, rfl⟩).elim
  | preFailed => exact (hawake (Function.update_self _ _ _) DCall.after_awake).elim
  | @woken _ c =>
    cases c with
    | cond ph' => exact (hawake (Function.update_self _ _ _) ⟨rfl, rfl⟩).elim
    | _ => exact (hawake (Function.update_self _ _ _) DCall.after_awake).elim
  | @condPark _ ph' hd =>
    obtain rfl : ph' = ph := by simpa [State.Sleeps, DPc.drowsy, DPc.asleep] using h
    exact .inl (.inl (by rw [hd]; rfl))
  | @condUnlock _ ph' hd =>
    obtain ⟨rfl, hw⟩ : ph' = ph ∧ (s.mutexUnlock d).node (.drainer d) = .waiting := by
      simpa [State.Sleeps, DPc.drowsy, DPc.asleep] using h
    refine .inl (.inr ⟨by rw [hd]; rfl, ?_⟩)
    obtain hsame | ⟨e, _, _, hok, _⟩ := s.mutexUnlock_node d (.drainer d)
    · exact hsame ▸ hw
    · rw [hok] at hw
      cases hw
  | lockFree => exact (hawake (Function.update_self _ _ _) DCall.after_awake).elim
  | lockPark _ hc =>
    obtain rfl | rfl := hc
    all_goals exact (hawake (Function.update_self _ _ _) ⟨rfl, rfl⟩).elim
  | bodyReturn | leave =>
    refine (hawake (Function.update_self _ _ _) ?_).elim
    split <;> exact ⟨rfl, rfl⟩
  | _ => exact (hawake (Function.update_self _ _ _) ⟨rfl, rfl⟩).elim

/-- The step of somebody else does not put a drainer to sleep. -/
lemma sleeps_other (hparked : s.Parked) (hstep : Step cfg s ev s') (hev : ev ≠ .drain d) (h : s'.Sleeps d ph) :
    s.Sleeps d ph := by
  obtain ⟨hdpc, hnode⟩ := step_other hparked hstep hev
  unfold State.Sleeps at h ⊢
  rw [hdpc] at h
  refine h.imp_right (And.imp_right fun hw => ?_)
  cases hnode with
  | same hsame => exact hsame ▸ hw
  | failed _ hst => rw [hst] at hw; cases hw
  | granted _ hst => rw [hst] at hw; cases hw

/-- What a step does to what the sleepers wait for. -/
inductive AlertStep (s s' : State) (ev : Event) : Prop
  | keep : (∀ ph, s.HoldsUp ph → s'.HoldsUp ph) → (∀ e, s.dpc e = .broadcast → s'.dpc e = .broadcast) → AlertStep s s' ev
  /-- Somebody is about to broadcast. -/
  | alarm {e : DrainerId} : s'.dpc e = .broadcast → AlertStep s s' ev
  | broadcast {e : DrainerId} : ev = .drain e → s.dpc e = .broadcast → s' = s.condBroadcast.setD e .unlockEnd →
      AlertStep s s' ev

lemma alert_cases (hstep : Step cfg s ev s') : AlertStep s s' ev := by
  have hother {d : DrainerId} {p : DPc} (hd : s.dpc d ≠ .broadcast) (hdpc : s'.dpc = Function.update s.dpc d p)
      (e : DrainerId) (he : s.dpc e = .broadcast) : s'.dpc e = .broadcast := by
    have hne : e ≠ d := fun heq => hd (heq ▸ he)
    rw [hdpc, Function.update_of_ne hne, he]
  have hsame (hact : s'.active = s.active) (hpend : s'.barrierPending = s.barrierPending) (ph : Phase)
      (h : s.HoldsUp ph) : s'.HoldsUp ph := by
    cases ph with
    | pending => exact hpend.trans h
    | active => exact Nat.lt_of_lt_of_eq h hact.symm
  cases hstep with
  | broadcast hd => exact .broadcast rfl hd rfl
  | @leaveBarrier d t hd => exact @AlertStep.alarm _ _ _ d (by simp)
  | @leave d t hd =>
    by_cases h0 : s.active - 1 = 0
    · exact @AlertStep.alarm _ _ _ d (by simp [h0])
    · refine .keep (fun ph h => ?_) (hother (by simp [hd]) rfl)
      cases ph with
      | pending => exact h
      | active => exact Nat.pos_of_ne_zero h0
  | enterBarrier hd =>
    refine .keep (fun ph h => ?_) (hother (by simp [hd]) rfl)
    cases ph with
    | pending => exact rfl
    | active => exact h
  | enter hd =>
    refine .keep (fun ph h => ?_) (hother (by simp [hd]) rfl)
    cases ph with
    | pending => exact h
    | active => exact Nat.succ_pos _
  | control hd =>
    refine .keep (hsame rfl rfl) (hother (fun heq => ?_) rfl)
    rw [heq] at hd
    cases hd
  | condUnlock hd | start hd | unlockEnd hd =>
    rw [State.mutexUnlock_eq] at hother hsame ⊢
    exact .keep (hsame rfl rfl) (hother (by simp [hd]) rfl)
  | @finish d t hd =>
    refine .keep (hsame ?_ ?_) (@hother d .workEnd (by simp [hd]) ?_)
    all_goals
      simp only [State.setD]
      split <;> rfl
  | close =>
    refine .keep (hsame ?_ ?_) fun e he => ?_
    all_goals
      unfold State.chanClose
      split
    all_goals first
      | rfl
      | exact he
  | @wake a => cases a <;> exact .keep (hsame rfl rfl) fun _ => id
  | preFailed hd | woken hd | recvPop hd | recvRefill hd | recvDirect hd | recvPark hd | lockFree hd | lockPark hd
  | condPark hd | relockFree hd | relockPark hd | startSerial hd | bodyReturn hd | workEnd hd | exit hd =>
    exact .keep (hsame rfl rfl) (hother (by simp [hd]) rfl)
  | _ => exact .keep (hsame rfl rfl) fun _ => id

/-- A broadcast leaves nobody asleep. -/
lemma not_sleeps_broadcast (hparked : s.Parked) (howner : ∀ d, s.owner = some d ↔ s.Owning d) {e : DrainerId}
    (he : s.dpc e = .broadcast) : ¬ (s.condBroadcast.setD e .unlockEnd).Sleeps d ph := by
  intro h
  have hne : d ≠ e := by
    rintro rfl
    simp [State.Sleeps, DPc.drowsy, DPc.asleep] at h
  obtain h | ⟨h, hw⟩ := h
  · -- both would have the mutex
    have hlocked : (s.dpc d).locked = true := by
      simp only [State.setD, State.condBroadcast, State.grant, Function.update_of_ne hne] at h
      cases hp : s.dpc d with
      | pre c | cs c => cases c <;> simp_all [DPc.drowsy, DPc.locked]
      | _ => simp [hp, DPc.drowsy] at h
    have hd := (howner d).2 (.inl hlocked)
    have he := (howner e).2 (.inl (by rw [he]; rfl))
    exact hne (Option.some.inj (hd.symm.trans he))
  · have hnot : d ∉ s.parked .cond := fun hmem => by simp [State.condBroadcast, hmem] at hw
    refine hnot ((hparked.mem .cond d).2 ?_)
    simp only [State.setD, State.condBroadcast, State.grant, Function.update_of_ne hne] at h hw
    have hw' : s.node (.drainer d) = .waiting := by simpa [hnot] using hw
    unfold State.loc
    rw [if_pos hw']
    cases hp : s.dpc d with
    | blk c => cases c <;> simp_all [DPc.asleep, DPc.list]
    | condUnlock ph' => rfl
    | _ => simp [hp, DPc.asleep] at h

lemma alert_step (hparked : s.Parked) (howner : ∀ d, s.owner = some d ↔ s.Owning d) (h : s.Alert)
    (hstep : Step cfg s ev s') : s'.Alert := by
  intro d ph hsleeps
  cases alert_cases hstep with
  | alarm he => exact .inr ⟨_, he⟩
  | broadcast _ he heq => exact absurd (heq ▸ hsleeps) (not_sleeps_broadcast hparked howner he)
  | keep hholds hbroadcast =>
    have hold : s.HoldsUp ph ∨ ∃ e, s.dpc e = .broadcast := by
      by_cases hev : ev = .drain d
      · subst hev
        obtain hsleeps | ⟨-, hup⟩ := sleeps_own hstep hsleeps
        · exact h d ph hsleeps
        · exact .inl hup
      · exact h d ph (sleeps_other hparked hstep hev hsleeps)
    exact hold.imp (hholds ph) fun ⟨e, he⟩ => ⟨e, hbroadcast e he⟩

/-! ## A single drainer -/

/-- Where the drainer of a serial queue can be. -/
def DPc.serial : DPc → Bool
  | none | pre .recv | cs .recv | blk .recv | got | body | finish | workEnd | exit | exited => true
  | _ => false

lemma serial_step (hone : cfg.spawned ≤ 1) (h : ∀ d, (s.dpc d).serial = true) (hstep : Step cfg s ev s') (d : DrainerId) :
    (s'.dpc d).serial = true := by
  have hupdate {e : DrainerId} {p : DPc} (hdpc : s'.dpc = Function.update s.dpc e p) (hp : p.serial = true) :
      (s'.dpc d).serial = true := by
    by_cases he : d = e
    · rw [hdpc, he, Function.update_self, hp]
    · rw [hdpc, Function.update_of_ne he, h d]
  have hat {e : DrainerId} {p : DPc} (he : s.dpc e = p) : p.serial = true := he ▸ h e
  cases hstep with
  | @control e p hd =>
    generalize hq : s.dpc e = q at hd
    refine hupdate rfl ?_
    cases hd with
    | @go c =>
      cases c with
      | recv => rfl
      | _ => exact absurd (hat hq) Bool.false_ne_true
    | lockOwn hc =>
      obtain rfl | rfl := hc
      all_goals exact absurd (hat hq) Bool.false_ne_true
    | lock hmany => exact absurd hmany (Nat.not_lt.2 hone)
    | recvClosed => rfl
    | _ => exact absurd (hat hq) Bool.false_ne_true
  | @preFailed e c st hd hst =>
    refine hupdate rfl ?_
    have hrecv := hat hd
    cases c with
    | recv => cases st <;> rfl
    | _ => exact absurd hrecv Bool.false_ne_true
  | @woken e c st hd =>
    refine hupdate rfl ?_
    have hrecv := hat hd
    cases c with
    | recv => cases st <;> rfl
    | _ => exact absurd hrecv Bool.false_ne_true
  | lockFree hd hc | lockPark hd hc =>
    obtain rfl | rfl := hc
    all_goals exact absurd (hat hd) Bool.false_ne_true
  | bodyReturn hd =>
    refine hupdate rfl ?_
    rw [if_neg (Nat.not_lt.2 hone)]
    rfl
  | @finish e t hd =>
    refine @hupdate e .workEnd ?_ rfl
    simp only [State.setD]
    split <;> rfl
  | close =>
    unfold State.chanClose
    split <;> exact h d
  | @wake a => cases a <;> exact h d
  | condPark hd | condUnlock hd | relockFree hd | relockPark hd | enterBarrier hd | enter hd | start hd | leaveBarrier hd
  | leave hd | broadcast hd | unlockEnd hd => exact absurd (hat hd) Bool.false_ne_true
  | recvPop | recvRefill | recvDirect | recvPark | startSerial | workEnd | exit => exact hupdate rfl rfl
  | _ => exact h d

/-! ## The invariant -/

/-- What keeps a queue going. -/
structure Fit (cfg : Config) (s : State) : Prop where
  tasks : Tasks cfg s
  owner : ∀ d, s.owner = some d ↔ s.Owning d
  free : s.owner = none → s.parked .mutex = []
  alert : s.Alert
  gate : 1 < cfg.spawned → Gate cfg s
  serial : cfg.spawned ≤ 1 → ∀ d, (s.dpc d).serial = true

lemma Fit.step (h : Fit cfg s) (hstep : Step cfg s ev s') : Fit cfg s' where
  tasks := tasks_step h.tasks hstep
  owner := owner_step h.tasks.chan.parked h.owner hstep
  free := free_step hstep h.free
  alert := alert_step h.tasks.chan.parked h.owner h.alert hstep
  gate := fun hcfg => gate_step hcfg (h.gate hcfg) hstep
  serial := fun hone => serial_step hone (h.serial hone) hstep

lemma fit_create (cfg : Config) : Fit cfg (.create cfg) := by
  have hstart (d : DrainerId) : (State.create cfg).dpc d = .pre .recv ∨ (State.create cfg).dpc d = .none := by
    simp only [State.create]
    split
    · exact .inl rfl
    · exact .inr rfl
  refine ⟨tasks_create cfg, (lock_reachable (.refl _ _)).2, fun _ => rfl, ?_, fun _ => gate_create cfg, fun _ d => ?_⟩
  · intro d ph hsleeps
    obtain hd | hd := hstart d
    all_goals simp [State.Sleeps, hd, DPc.drowsy, DPc.asleep] at hsleeps
  · obtain hd | hd := hstart d
    all_goals rw [hd]; rfl

/-! ## Somebody can go on -/

/-- Drainer `d` waits, and its wait is not decided. -/
def State.Stuck (s : State) (d : DrainerId) : Prop :=
  s.node (.drainer d) = .waiting ∧ ((∃ c, s.dpc d = .blk c) ∨ ∃ ph, s.dpc d = .relockBlk ph)

/-- A drainer that does not wait goes on. -/
lemma Fit.goes_on (h : Fit cfg s) (hnone : s.dpc d ≠ .none) (hexited : s.dpc d ≠ .exited) (hstuck : ¬ s.Stuck d) :
    ∃ s', Step cfg s (.drain d) s' := by
  have hhand (hstage : (s.dpc d).stage ≠ .free) : ∃ t, s.hand d = some t :=
    Option.isSome_iff_exists.1 ((h.tasks.hand d).2 (.inl hstage))
  have hcontrol {q p : DPc} (hd : s.dpc d = q) (hstep : DStep cfg s d q p) : ∃ s', Step cfg s (.drain d) s' :=
    ⟨_, .control (hd ▸ hstep)⟩
  have hdecided (hblk : (∃ c, s.dpc d = .blk c) ∨ ∃ ph, s.dpc d = .relockBlk ph) :
      ∃ st, s.node (.drainer d) = .decided st := by
    cases hn : s.node (.drainer d) with
    | waiting => exact absurd ⟨hn, hblk⟩ hstuck
    | decided st => exact ⟨st, rfl⟩
  have hlock {c : DCall} (hd : s.dpc d = .cs c) (hc : c = .enter ∨ c = .leave) : ∃ s', Step cfg s (.drain d) s' := by
    cases ho : s.owner with
    | none => exact ⟨_, .lockFree hd hc ho⟩
    | some e =>
      by_cases he : e = d
      · exact hcontrol hd (.lockOwn hc (he ▸ ho))
      · exact ⟨_, .lockPark hd hc ho he⟩
  cases hd : s.dpc d with
  | none => exact absurd hd hnone
  | exited => exact absurd hd hexited
  | pre c =>
    cases he : s.entry d c with
    | none => exact hcontrol hd (.go he)
    | some st => exact ⟨_, .preFailed hd he⟩
  | cs c =>
    cases c with
    | recv =>
      cases hbuf : s.buf with
      | cons t rest =>
        cases hl : s.senders with
        | nil => exact ⟨_, .recvPop hd hbuf hl⟩
        | cons u us => exact ⟨_, .recvRefill hd hbuf hl⟩
      | nil =>
        cases hl : s.senders with
        | cons u us => exact ⟨_, .recvDirect hd hbuf hl⟩
        | nil =>
          cases hcl : s.closed with
          | true => exact hcontrol hd (.recvClosed hbuf hl hcl)
          | false => exact ⟨_, .recvPark hd hbuf hl hcl⟩
    | enter => exact hlock hd (.inl rfl)
    | leave => exact hlock hd (.inr rfl)
    | cond ph => exact ⟨_, .condPark hd⟩
  | blk c =>
    obtain ⟨st, hst⟩ := hdecided (.inl ⟨c, hd⟩)
    exact ⟨_, .woken hd hst⟩
  | got =>
    obtain hmany | hone := Nat.lt_or_ge 1 cfg.spawned
    · exact hcontrol hd (.lock hmany)
    · obtain ⟨t, ht⟩ := hhand (by simp [hd, DPc.stage])
      exact ⟨_, .startSerial hd hone ht⟩
  | test ph =>
    obtain ⟨t, ht⟩ := hhand (by simp [hd, DPc.stage])
    cases ph with
    | pending =>
      cases hp : s.barrierPending with
      | true => exact hcontrol hd (.pending hp)
      | false =>
        cases hb : (s.task t).barrier with
        | true => exact ⟨_, .enterBarrier hd hp ht hb⟩
        | false => exact ⟨_, .enter hd hp ht hb⟩
    | active =>
      obtain h0 | hpos := Nat.eq_zero_or_pos s.active
      · exact hcontrol hd (.alone h0)
      · exact hcontrol hd (.active hpos)
  | condUnlock ph => exact ⟨_, .condUnlock hd⟩
  | relock ph =>
    cases ho : s.owner with
    | none => exact ⟨_, .relockFree hd ho⟩
    | some e => exact ⟨_, .relockPark hd ho⟩
  | relockBlk ph =>
    obtain ⟨st, hst⟩ := hdecided (.inr ⟨ph, hd⟩)
    by_cases hok : st = .ok
    · exact hcontrol hd (.relocked (hok ▸ hst))
    · exact hcontrol hd (.relockFailed hst hok)
  | unlock =>
    obtain ⟨t, ht⟩ := hhand (by simp [hd, DPc.stage])
    exact ⟨_, .start hd ht⟩
  | body =>
    obtain ⟨t, ht⟩ := hhand (by simp [hd, DPc.stage])
    exact ⟨_, .bodyReturn hd ht⟩
  | release =>
    obtain ⟨t, ht⟩ := hhand (by simp [hd, DPc.stage])
    cases hb : (s.task t).barrier with
    | true => exact ⟨_, .leaveBarrier hd ht hb⟩
    | false => exact ⟨_, .leave hd ht hb⟩
  | broadcast => exact ⟨_, .broadcast hd⟩
  | unlockEnd => exact ⟨_, .unlockEnd hd⟩
  | finish =>
    obtain ⟨t, ht⟩ := hhand (by simp [hd, DPc.stage])
    exact ⟨_, .finish hd ht⟩
  | workEnd => exact ⟨_, .workEnd hd⟩
  | exit => exact ⟨_, .exit hd⟩

/-- Nobody waits for the mutex unless somebody can go on. -/
lemma Fit.mutex_free (h : Fit cfg s) (hall : ∀ d, s.dpc d ≠ .none → s.dpc d ≠ .exited → s.Stuck d) :
    s.parked .mutex = [] := by
  refine h.free ?_
  by_contra hsome
  obtain ⟨e, he⟩ := Option.ne_none_iff_exists'.1 hsome
  obtain hlocked | ⟨hlist, hok⟩ := (h.owner e).1 he
  · have hstuck := hall e (fun hd => by simp [hd, DPc.locked] at hlocked) fun hd => by simp [hd, DPc.locked] at hlocked
    obtain ⟨c, hd⟩ | ⟨ph, hd⟩ := hstuck.2
    all_goals simp [hd, DPc.locked] at hlocked
  · have hstuck := hall e (fun hd => by simp [hd, DPc.list] at hlist) fun hd => by simp [hd, DPc.list] at hlist
    rw [hstuck.1] at hok
    cases hok

lemma Fit.not_mutex (h : Fit cfg s) (hall : ∀ d, s.dpc d ≠ .none → s.dpc d ≠ .exited → s.Stuck d) (hstuck : s.Stuck d) :
    (s.dpc d).list ≠ some .mutex := by
  intro hlist
  have hmem : d ∈ s.parked .mutex := (h.tasks.chan.parked.mem .mutex d).2 (by simp [State.loc, hstuck.1, hlist])
  rw [h.mutex_free hall] at hmem
  exact absurd hmem List.not_mem_nil

/-- Nobody waits for a broadcast unless somebody can go on. -/
lemma Fit.not_asleep (h : Fit cfg s) (hall : ∀ d, s.dpc d ≠ .none → s.dpc d ≠ .exited → s.Stuck d) :
    s.dpc d ≠ .blk (.cond ph) := by
  -- who has passed the gate, or waits for the tasks before a barrier, is stuck at the condition variable
  have hstuck {e : DrainerId} (hzone : (s.dpc e).zone ≠ .outside) : s.dpc e = .blk (.cond .active) := by
    have hstuck := hall e (fun hd => by simp [hd, DPc.zone] at hzone) fun hd => by simp [hd, DPc.zone] at hzone
    have hlist := h.not_mutex hall hstuck
    obtain ⟨c, hd⟩ | ⟨ph, hd⟩ := hstuck.2
    · rcases c with _ | _ | _ | (_ | _)
      · simp [hd, DPc.zone] at hzone
      · exact absurd (by rw [hd]; rfl) hlist
      · exact absurd (by rw [hd]; rfl) hlist
      · simp [hd, DPc.zone] at hzone
      · exact hd
    · exact absurd (by rw [hd]; rfl) hlist
  intro hd
  have hcfg : 1 < cfg.spawned := by
    by_contra hone
    have hserial := h.serial (Nat.not_lt.1 hone) d
    rw [hd] at hserial
    exact absurd hserial Bool.false_ne_true
  have hgate := h.gate hcfg
  have hholds {e : DrainerId} {ph : Phase} (he : s.dpc e = .blk (.cond ph)) : s.HoldsUp ph := by
    have hwait := (hall e (by simp [he]) (by simp [he])).1
    refine (h.alert e ph (.inr ⟨by rw [he]; rfl, hwait⟩)).resolve_right ?_
    rintro ⟨f, hf⟩
    obtain ⟨-, ⟨c, hc⟩ | ⟨ph, hc⟩⟩ := hall f (by simp [hf]) (by simp [hf])
    all_goals simp [hf] at hc
  have hactive : ¬ 0 < s.active := by
    intro hpos
    obtain ⟨e, he⟩ : ∃ e, s.Counted e := by
      rw [hgate.active_eq, Finset.card_pos] at hpos
      obtain ⟨e, he⟩ := hpos
      exact ⟨e, (Finset.mem_filter.1 he).2⟩
    have hblk := hstuck (e := e) (by rw [he.1]; decide)
    have hzone := he.1
    rw [hblk] at hzone
    exact absurd hzone (by decide)
  cases ph with
  | active => exact hactive (hholds hd)
  | pending =>
    obtain ⟨e, he⟩ := hgate.turnstile.pending.1 (hholds hd)
    have hzone : (s.dpc e).zone ≠ .outside := by
      obtain hz | ⟨hz, -⟩ := (s.exclusive_iff e).1 he
      all_goals rw [hz]; decide
    exact hactive (hholds (hstuck hzone))

/-- If no drainer can go on, everything is done. -/
lemma Fit.done (h : Fit cfg s) (hall : ∀ d, s.dpc d ≠ .none → s.dpc d ≠ .exited → s.Stuck d) :
    ∀ t ∈ s.accepted, t ∈ s.finished := by
  have hrecv (d : DrainerId) (hnone : s.dpc d ≠ .none) (hexited : s.dpc d ≠ .exited) :
      s.dpc d = .blk .recv ∧ s.node (.drainer d) = .waiting := by
    have hstuck := hall d hnone hexited
    refine ⟨?_, hstuck.1⟩
    have hlist := h.not_mutex hall hstuck
    obtain ⟨c, hd⟩ | ⟨ph, hd⟩ := hstuck.2
    · cases c with
      | recv => exact hd
      | cond ph => exact absurd hd (h.not_asleep hall)
      | _ => exact absurd (by rw [hd]; rfl) hlist
    · exact absurd (by rw [hd]; rfl) hlist
  have hbuf : s.buf = [] := by
    have hfirst : s.dpc 0 ≠ .none := fun hd => absurd ((h.tasks.chan.absent 0).1 hd) (by have := cfg.pos; omega)
    by_cases hexited : s.dpc 0 = .exited
    · exact (h.tasks.chan.left 0 (.inr (.inl hexited))).2
    · obtain ⟨hd, hw⟩ := hrecv 0 hfirst hexited
      have hmem : 0 ∈ s.parked .receivers :=
        (h.tasks.chan.parked.mem .receivers 0).2 (by simp [State.loc, hw, hd, DPc.list])
      exact (h.tasks.chan.empty (List.ne_nil_of_mem hmem)).1
  have hhand (d : DrainerId) : s.hand d = none := by
    have hloaded : ¬ s.Loaded d := by
      by_cases hnone : s.dpc d = .none
      · simp [State.Loaded, hnone, DPc.stage]
      · by_cases hexited : s.dpc d = .exited
        · simp [State.Loaded, hexited, DPc.stage]
        · obtain ⟨hd, hw⟩ := hrecv d hnone hexited
          simp [State.Loaded, hd, hw, DPc.stage]
    rw [← h.tasks.hand d] at hloaded
    simpa using hloaded
  intro t ht
  obtain ⟨i, hi⟩ := h.tasks.pool.part.once t ht
  have hmem : t ∈ s.pool.places i := List.count_pos_iff.mp (by simp [hi])
  cases i with
  | buf => simp [Pool.places, State.pool, hbuf] at hmem
  | hand d => simp [Pool.places, State.pool, hhand] at hmem
  | finished => exact hmem

end Suspenders.Queue
