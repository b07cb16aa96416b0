import Suspenders.Queue.Once

/-!
# The mutex of a queue

Who has the mutex is one of the drainers that think so, and the drainers that wait for it wait in vain only if nobody
has it (`Lock`).
-/

namespace Suspenders.Queue

open Lib

/-- The drainer has the mutex. -/
def DPc.locked : DPc → Bool
  | test _ | pre (.cond _) | cs (.cond _) | condUnlock _ | unlock | release | broadcast | unlockEnd => true
  | _ => false

namespace State

variable (s : State)

/-- Drainer `d` has the mutex, or has been given it. -/
def Owning (d : DrainerId) : Prop :=
  (s.dpc d).locked = true ∨ (s.dpc d).list = some .mutex ∧ s.node (.drainer d) = .decided .ok

end State

variable {cfg : Config} {s s' : State} {ev : Event}

/-- What the step of drainer `d` does to the mutex. -/
inductive OwnerStep (s s' : State) (d : DrainerId) : Prop
  | same : s'.owner = s.owner → (s'.Owning d ↔ s.Owning d) → OwnerStep s s' d
  | lock : s.owner = none → s'.owner = some d → s'.Owning d → OwnerStep s s' d
  | unlock : s.owner = some d → s.parked .mutex = [] → s'.owner = none → ¬ s'.Owning d → OwnerStep s s' d
  | handOver {e : DrainerId} : s.owner = some d → e ≠ d → s'.owner = some e → s'.Owning e → ¬ s'.Owning d →
      OwnerStep s s' d

/-- An unlock in front of `p`. -/
lemma ownerStep_unlock (hparked : s.Parked) {d : DrainerId} {p : DPc} (hd : (s.dpc d).list ≠ some .mutex)
    (hown : s.owner = some d) (hp : p.locked = false) (hlist : p.list ≠ some .mutex)
    (hdpc : s'.dpc = Function.update s.dpc d p) (howner : s'.owner = (s.mutexUnlock d).owner)
    (hnode : s'.node = (s.mutexUnlock d).node) : OwnerStep s s' d := by
  have hnot : ¬ s'.Owning d := by simp [State.Owning, hdpc, hp, hlist]
  cases hl : s.parked .mutex with
  | nil => exact .unlock hown hl (by simp [howner, State.mutexUnlock, hown, hl]) hnot
  | cons e es =>
    have hlist := (hparked.waits (l := .mutex) (d := e) (by simp [hl])).1
    have hne : e ≠ d := fun heq => hd (heq ▸ hlist)
    refine .handOver hown hne (by simp [howner, State.mutexUnlock, hown, hl]) (.inr ⟨?_, ?_⟩) hnot
    · simpa [hdpc, hne] using hlist
    · simp [hnode, State.mutexUnlock, hown, hl]

lemma owner_own (hparked : s.Parked) (howner : ∀ d, s.owner = some d ↔ s.Owning d) {d : DrainerId}
    (hstep : Step cfg s (.drain d) s') : OwnerStep s s' d := by
  have hown := howner d
  cases hstep with
  | control hd =>
    generalize hp : s.dpc d = p at hd
    cases hd with
    | lockOwn hc ho =>
      obtain rfl | rfl := hc
      · simp [ho, State.Owning, hp, DPc.locked, DPc.list] at hown
      · simp [ho, State.Owning, hp, DPc.locked, DPc.list] at hown
    | @go c hc =>
      refine .same rfl ?_
      cases c <;> simp [State.Owning, hp, DPc.locked, DPc.list]
    | relocked hn => exact .same rfl (by simp [State.Owning, hp, DPc.locked, DPc.list, hn])
    | relockFailed hn hne => exact .same rfl (by simp [State.Owning, hp, DPc.locked, DPc.list, hn, hne])
    | _ => exact .same rfl (by simp [State.Owning, hp, DPc.locked, DPc.list, DCall.after])
  | @preFailed _ c st hd hst =>
    refine .same rfl ?_
    obtain rfl | rfl | rfl := State.entry_code hst
    all_goals cases c <;> simp [State.Owning, hd, DPc.locked, DPc.list, DCall.after]
  | @woken _ c st hd hn =>
    refine .same rfl ?_
    cases c <;> cases st <;> simp [State.Owning, hd, hn, DPc.locked, DPc.list, DCall.after]
  | lockFree hd hc ho =>
    obtain rfl | rfl := hc
    · exact .lock ho rfl (.inl (by simp [DPc.locked, DCall.after]))
    · exact .lock ho rfl (.inl (by simp [DPc.locked, DCall.after]))
  | lockPark hd hc =>
    obtain rfl | rfl := hc
    · exact .same rfl (by simp [State.Owning, hd, DPc.locked, DPc.list])
    · exact .same rfl (by simp [State.Owning, hd, DPc.locked, DPc.list])
  | relockFree hd ho => exact .lock ho rfl (.inl (by simp [DPc.locked]))
  | @condUnlock _ ph hd =>
    exact ownerStep_unlock hparked (p := .blk (.cond ph)) (by simp [hd, DPc.list])
      (hown.mpr (.inl (by simp [hd, DPc.locked]))) rfl (by simp [DPc.list]) (by simp) rfl rfl
  | start hd =>
    exact ownerStep_unlock hparked (p := .body) (by simp [hd, DPc.list])
      (hown.mpr (.inl (by simp [hd, DPc.locked]))) rfl (by simp [DPc.list]) (by simp) rfl rfl
  | unlockEnd hd =>
    exact ownerStep_unlock hparked (p := .finish) (by simp [hd, DPc.list])
      (hown.mpr (.inl (by simp [hd, DPc.locked]))) rfl (by simp [DPc.list]) (by simp) rfl rfl
  | bodyReturn hd =>
    refine .same rfl ?_
    by_cases h1 : 1 < cfg.spawned <;> simp [State.Owning, hd, DPc.locked, DPc.list, h1]
  | leave hd =>
    refine .same rfl ?_
    by_cases h0 : s.active - 1 = 0 <;> simp [State.Owning, hd, DPc.locked, DPc.list, h0]
  | finish hd =>
    simp only [State.setD]
    split <;> exact .same rfl (by simp [State.Owning, hd, DPc.locked, DPc.list])
  | broadcast hd => exact .same rfl (by simp [State.Owning, State.condBroadcast, hd, DPc.locked, DPc.list])
  | exit hd => exact .same rfl (by simp [State.Owning, State.drainDone, hd, DPc.locked, DPc.list])
  | _ => exact .same rfl (by simp_all [State.Owning, DPc.locked, DPc.list, DCall.after])

/-- Somebody else gets the mutex only if it is handed over. -/
lemma owning_other {e : DrainerId} (hnode : NodeStep s s' e) (hdpc : s'.dpc e = s.dpc e) (howning : s'.Owning e) :
    s.Owning e ∨ s'.owner = some e := by
  unfold State.Owning at howning ⊢
  rw [hdpc] at howning
  cases hnode with
  | same hnode => exact .inl (hnode ▸ howning)
  | failed hw hst hok =>
    rw [hst] at howning
    simp only [Status.decided.injEq, hok, and_false, or_false] at howning
    exact .inl (.inl howning)
  | @granted l hw hst hlist hmutex =>
    by_cases hl : l = .mutex
    · exact .inr (hmutex hl)
    · obtain howning | ⟨hlist', -⟩ := howning
      · exact .inl (.inl howning)
      · exact absurd (Option.some.inj (hlist.symm.trans hlist')) hl

/-- Somebody else keeps the mutex. -/
lemma owning_keep {e : DrainerId} (hnode : NodeStep s s' e) (hdpc : s'.dpc e = s.dpc e) (howning : s.Owning e) :
    s'.Owning e := by
  unfold State.Owning at howning ⊢
  rw [hdpc]
  obtain howning | ⟨hlist, hok⟩ := howning
  · exact .inl howning
  · cases hnode with
    | same hnode => exact .inr ⟨hlist, hnode.trans hok⟩
    | failed hw => simp [hw] at hok
    | granted hw => simp [hw] at hok

lemma owner_of_ne (hstep : Step cfg s ev s') (hev : ∀ d, ev ≠ .drain d) : s'.owner = s.owner := by
  cases hstep with
  | close =>
    unfold State.chanClose
    split <;> rfl
  | @wake a => cases a <;> rfl
  | _ => first
    | rfl
    | exact absurd rfl (hev _)

lemma owner_step (hparked : s.Parked) (howner : ∀ d, s.owner = some d ↔ s.Owning d) (hstep : Step cfg s ev s')
    (e : DrainerId) : s'.owner = some e ↔ s'.Owning e := by
  by_cases hev : ev = .drain e
  · subst hev
    have := howner e
    cases owner_own hparked howner hstep with
    | same ho hown => rw [ho, hown, howner]
    | lock _ ho hown => simp [ho, hown]
    | unlock _ _ ho hown => simp [ho, hown]
    | handOver _ hne ho _ hown => simp [ho, hown, hne]
  · obtain ⟨hdpc, hnode⟩ := step_other hparked hstep hev
    refine ⟨fun ho => ?_, fun hown => (owning_other hnode hdpc hown).elim (fun hold => ?_) id⟩
    · -- who has the mutex now had it before, or it was handed over
      by_cases hdrain : ∃ d, ev = .drain d
      · obtain ⟨d, rfl⟩ := hdrain
        cases owner_own hparked howner hstep with
        | same hsame => exact owning_keep hnode hdpc ((howner e).mp (hsame ▸ ho))
        | lock _ ho' hown => exact absurd (Option.some.inj (ho'.symm.trans ho)) (fun heq => hev (by rw [heq]))
        | unlock _ _ ho' => simp [ho'] at ho
        | handOver _ _ ho' hown => exact Option.some.inj (ho'.symm.trans ho) ▸ hown
      · have hsame := owner_of_ne hstep (not_exists.mp hdrain)
        exact owning_keep hnode hdpc ((howner e).mp (hsame ▸ ho))
    · have hold := (howner e).mpr hold
      by_cases hdrain : ∃ d, ev = .drain d
      · obtain ⟨d, rfl⟩ := hdrain
        have hne : d ≠ e := fun heq => hev (by rw [heq])
        cases owner_own hparked howner hstep with
        | same hsame => exact hsame.trans hold
        | lock hnone => simp [hnone] at hold
        | unlock hd => exact absurd (Option.some.inj (hd.symm.trans hold)) hne
        | handOver hd => exact absurd (Option.some.inj (hd.symm.trans hold)) hne
      · exact (owner_of_ne hstep (not_exists.mp hdrain)).trans hold

/-- Who has the mutex thinks so, in every run. -/
lemma lock_reachable (h : Reachable (Step cfg) (.create cfg) s) : s.Parked ∧ ∀ d, s.owner = some d ↔ s.Owning d := by
  refine h.invariant (I := fun s => s.Parked ∧ ∀ d, s.owner = some d ↔ s.Owning d) ⟨(chan_create cfg).parked, fun d => ?_⟩ ?_
  · simp only [State.create, State.Owning]
    split
    · simp [DPc.locked, DPc.list]
    · simp [DPc.locked, DPc.list]
  · rintro s ev s' ⟨hparked, howner⟩ hstep
    exact ⟨parked_step hstep hparked, owner_step hparked howner hstep⟩

lemma free_step (hstep : Step cfg s ev s') (h : s.owner = none → s.parked .mutex = []) :
    s'.owner = none → s'.parked .mutex = [] := by
  cases hstep with
  | condUnlock | start | unlockEnd =>
    simp only [State.setD, State.start, State.mutexUnlock]
    split
    · split
      next hl => simp [hl]
      next => simp
    · exact h
  | close =>
    unfold State.chanClose
    split
    · exact h
    · simpa using h
  | @wake a =>
    intro ho
    cases a with
    | drainer d => simp [State.unlink, h ho]
    | caller t => exact h ho
    | destroyer => exact h ho
  | finish => split <;> exact h
  | _ => simp_all [State.condBroadcast, State.drainDone]

end Suspenders.Queue
