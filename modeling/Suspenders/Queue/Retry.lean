import Suspenders.Queue.Barrier
import Suspenders.Queue.Gate

/-!
# Loops that retry

A blocking call inside of a queue is repeated until it succeeds.  A cancel is consumed by the call that it ends, so the
next call blocks.  A deadline that has passed is not: every later call returns at once, and nobody else gets to run on the
worker of the coroutine (`retry_parks`).
-/

namespace Suspenders.Queue

open Lib

/-- The loops, and who is in them. -/
inductive Loop
  /-- The loop around `suspenders_waitgroup_wait` in `suspenders_queue_sync`. -/
  | sync (t : TaskId)
  /-- The one in `suspenders_queue_destroy`. -/
  | destroy
  /-- The loop of drainer `d` around call `c`. -/
  | drain (d : DrainerId) (c : DCall)

/-- The coroutine that runs the loop. -/
def Loop.actor : Loop → Actor
  | sync t => .caller t
  | destroy => .destroyer
  | drain d _ => .drainer d

/-- Where an iteration of the loop around `c` begins. -/
def DCall.head : DCall → DPc
  | cond ph => .test ph
  | c => .pre c

/-- The label of the steps of a coroutine. -/
def Actor.event : Actor → Event
  | drainer d => .drain d
  | caller t => .submit t
  | destroyer => .destroyer

/-- A step of coroutine `a`. -/
def Own (cfg : Config) (a : Actor) (s s' : State) : Prop := Step cfg s a.event s'

namespace State

variable (s : State)

/-- An iteration of the loop begins. -/
def At : Loop → Prop
  | .sync t => s.cpc t = .pre .sync
  | .destroy => s.xpc = .pre
  | .drain d c => s.dpc d = c.head

/-- What the loop waits for has not happened. -/
def Awaits : Loop → Prop
  | .sync t => s.syncWg t ≠ 0
  | .destroy => s.drainWg ≠ 0
  | .drain _ .recv => s.buf = [] ∧ s.senders = [] ∧ s.closed = false
  | .drain _ .enter | .drain _ .leave => s.owner ≠ none
  | .drain _ (.cond .pending) => s.barrierPending = true
  | .drain _ (.cond .active) => 0 < s.active

/-- Coroutine `a` has parked, and its worker runs somebody else. -/
def Out (a : Actor) : Prop :=
  s.node a = .waiting ∧
  match a with
  | .drainer d => ∃ c, s.dpc d = .blk c
  | .caller t => ∃ c, s.cpc t = .blk c
  | .destroyer => s.xpc = .blk

end State

variable {cfg : Config} {s s' : State} {d : DrainerId} {c : DCall} {t : TaskId}

/-- What a drainer waits for does not depend on where it is, and a cancel does not change it. -/
lemma State.Awaits.congr (h : s.Awaits (.drain d c)) (hs' : s' = { s with dpc := s'.dpc, cancel := s'.cancel }) :
    s'.Awaits (.drain d c) := by
  rw [hs']
  cases c with
  | cond ph => cases ph <;> exact h
  | _ => exact h

/-! ## The entry checks -/

lemma DCall.after_error {st : Code} (h : st = .canceled ∨ st = .timedout) : c.after st = c.head := by
  obtain rfl | rfl := h
  all_goals cases c <;> rfl

/-- With a deadline that has passed every call fails. -/
lemma State.preBlock_expired {a : Actor} (h : s.deadline a = .expired) :
    ∃ st, (st = .canceled ∨ st = .timedout) ∧ s.preBlock a = some st := by
  unfold State.preBlock
  rw [if_pos h]
  split
  · exact ⟨.canceled, .inl rfl, rfl⟩
  · exact ⟨.timedout, .inr rfl, rfl⟩

lemma State.preBlock_of_cancel {a : Actor} (h : s.cancel a = true) : s.preBlock a = some .canceled := if_pos h

/-- With a deadline that has not passed only a cancel ends a call. -/
lemma State.preBlock_none {a : Actor} (h : s.deadline a ≠ .expired) (hcancel : s.cancel a = false) : s.preBlock a = none := by
  unfold State.preBlock
  rw [if_neg (by simp [hcancel]), if_neg h]

lemma State.entry_of_some {st : Code} (h : s.preBlock (.drainer d) = some st) : s.entry d c = some st := by
  cases c with
  | cond ph => simp [State.entry, h]
  | _ => exact h

lemma State.entry_of_none (h : s.preBlock (.drainer d) = none) (howner : ∀ ph, c = .cond ph → s.owner = some d) :
    s.entry d c = none := by
  cases c with
  | cond ph => simp [State.entry, h, howner ph rfl]
  | _ => exact h

/-- A drainer that has to wait calls `suspenders_cond_wait`. -/
lemma step_test {ph : Phase} (hd : s.dpc d = .test ph) (hawaits : s.Awaits (.drain d (.cond ph))) :
    DStep cfg s d (s.dpc d) (.pre (.cond ph)) := by
  rw [hd]
  cases ph with
  | pending => exact .pending hawaits
  | active => exact .active hawaits

/-! ## A deadline that has passed -/

/-- The loop of a drainer, at any place before the wait. -/
def State.InLoop (s : State) (d : DrainerId) (c : DCall) : Prop :=
  (s.dpc d = c.head ∨ s.dpc d = .pre c) ∧ s.Awaits (.drain d c) ∧ s.deadline (.drainer d) = .expired

lemma inLoop_step (h : s.InLoop d c) : ∃ s', Own cfg (.drainer d) s s' ∧ s'.InLoop d c := by
  obtain ⟨hd, hawaits, hexp⟩ := h
  obtain ⟨st, hst, hpre⟩ := State.preBlock_expired hexp
  have hfail (hd : s.dpc d = .pre c) : ∃ s', Own cfg (.drainer d) s s' ∧ s'.InLoop d c := by
    refine ⟨_, .preFailed hd (State.entry_of_some hpre), .inl ?_, ?_, hexp⟩
    · simp [DCall.after_error hst]
    · exact hawaits.congr rfl
  obtain hd | hd := hd
  · cases c with
    | cond ph =>
      exact ⟨_, .control (step_test hd hawaits), .inr (by simp), hawaits.congr rfl, hexp⟩
    | _ => exact hfail hd
  · exact hfail hd

/-- A coroutine whose deadline has passed does not get out of the loop. -/
lemma not_parks {l : Loop} (hat : s.At l) (hawaits : s.Awaits l) (hexp : s.deadline l.actor = .expired) :
    ¬ Leads (Own cfg l.actor) (·.Out l.actor) s := by
  cases l with
  | sync t =>
    refine Leads.not_of (I := fun s : State => s.cpc t = .pre .sync ∧ s.deadline (.caller t) = .expired) ?_ ?_ ⟨hat, hexp⟩
    · rintro s ⟨hpre, -⟩ ⟨-, c, hblk⟩
      simp [hpre] at hblk
    · rintro s ⟨hpre, hexp⟩
      obtain ⟨st, hst, hfail⟩ := State.preBlock_expired hexp
      refine ⟨_, .callerPreFailed hpre hfail, ?_, hexp⟩
      obtain rfl | rfl := hst <;> simp [CCall.after]
  | destroy =>
    refine Leads.not_of (I := fun s : State => s.xpc = .pre ∧ s.deadline .destroyer = .expired) ?_ ?_ ⟨hat, hexp⟩
    · rintro s ⟨hpre, -⟩ ⟨-, hblk⟩
      exact XPc.noConfusion (hpre.symm.trans hblk)
    · rintro s ⟨hpre, hexp⟩
      obtain ⟨st, -, hfail⟩ := State.preBlock_expired hexp
      exact ⟨_, .drainPreFailed hpre hfail, hpre, hexp⟩
  | drain d c =>
    refine Leads.not_of (I := fun s => s.InLoop d c) ?_ (fun s hs => inLoop_step hs) ⟨.inl hat, hawaits, hexp⟩
    rintro s ⟨hd, -⟩ ⟨-, c', hblk⟩
    rw [hblk] at hd
    cases c <;> simp [DCall.head] at hd

/-! ## A deadline that has not passed -/

/-- A step of a drainer at the entry checks. -/
lemma own_pre (hd : s.dpc d = .pre c) (hstep : Own cfg (.drainer d) s s') :
    (s.entry d c = none ∧ s' = s.setD d (.cs c)) ∨
    ∃ st, s.entry d c = some st ∧ s' = (s.consume (.drainer d) st).setD d (c.after st) := by
  cases hstep with
  | control hc =>
    rw [hd] at hc
    cases hc with
    | go hentry => exact .inl ⟨hentry, rfl⟩
  | @preFailed _ c' st hd' hst =>
    obtain rfl : c = c' := by simpa [hd] using hd'
    exact .inr ⟨st, hst, rfl⟩
  | _ => simp_all

/-- A drainer that finds that it has to wait parks. -/
lemma leads_cs (hparked : s.Parked) (hd : s.dpc d = .cs c) (hawaits : s.Awaits (.drain d c))
    (howner : c = .enter ∨ c = .leave → s.owner ≠ some d) : Leads (Own cfg (.drainer d)) (·.Out (.drainer d)) s := by
  have hlock (hc : c = .enter ∨ c = .leave) (hsome : s.owner ≠ none) :
      Leads (Own cfg (.drainer d)) (·.Out (.drainer d)) s := by
    obtain ⟨e, he⟩ := Option.ne_none_iff_exists'.1 hsome
    have hne : e ≠ d := fun heq => howner hc (heq ▸ he)
    refine .next (.lockPark hd hc he hne) fun u hu => .now ?_
    have hu : u = (s.park d .mutex).setD d (.blk c) := by
      obtain rfl | rfl := hc
      all_goals
        cases hu with
        | control hstep =>
          rw [hd] at hstep
          cases hstep
          simp_all
        | _ => simp_all
    simp [hu, State.Out]
  cases c with
  | recv =>
    obtain ⟨hbuf, hsenders, hopen⟩ := hawaits
    refine .next (.recvPark hd hbuf hsenders hopen) fun u hu => .now ?_
    have hu : u = (s.park d .receivers).setD d (.blk .recv) := by
      cases hu with
      | control hstep =>
        rw [hd] at hstep
        cases hstep
        all_goals simp_all
      | _ => simp_all
    simp [hu, State.Out]
  | enter => exact hlock (.inl rfl) hawaits
  | leave => exact hlock (.inr rfl) hawaits
  | cond ph =>
    refine .next (.condPark hd) fun u hu => ?_
    obtain rfl : u = (s.park d .cond).setD d (.condUnlock ph) := by
      cases hu with
      | control hstep =>
        rw [hd] at hstep
        cases hstep
        simp_all
      | _ => simp_all
    -- the mutex is unlocked before the worker runs somebody else
    have hmutex : d ∉ s.parked .mutex := fun hmem => by simpa [hd, DPc.list] using (hparked.waits hmem).1
    generalize hv : (s.park d .cond).setD d (.condUnlock ph) = v
    have hpc : v.dpc d = .condUnlock ph := by simp [← hv]
    refine .next (.condUnlock hpc) fun u hu => .now ?_
    have hu : u = (v.mutexUnlock d).setD d (.blk (.cond ph)) := by
      cases hu with
      | control hstep =>
        rw [hpc] at hstep
        cases hstep
      | _ => simp_all
    refine ⟨?_, .cond ph, by simp [hu]⟩
    obtain hnode | ⟨e, he, hmem, -⟩ := v.mutexUnlock_node d (.drainer d)
    · have hwait : v.node (.drainer d) = .waiting := by simp [← hv]
      rw [hu]
      exact hnode.trans hwait
    · cases he
      exact absurd (by simpa [← hv] using hmem) hmutex

/-- From the entry checks on, when no cancel is pending. -/
lemma leads_pre (hparked : s.Parked) (howner : ∀ d, s.owner = some d ↔ s.Owning d) (hd : s.dpc d = .pre c)
    (hawaits : s.Awaits (.drain d c)) (hpre : s.preBlock (.drainer d) = none) :
    Leads (Own cfg (.drainer d)) (·.Out (.drainer d)) s := by
  have hentry : s.entry d c = none := by
    refine State.entry_of_none hpre fun ph hc => (howner d).2 (.inl ?_)
    rw [hd, hc]
    rfl
  have hgo : DStep cfg s d (s.dpc d) (.cs c) := hd ▸ .go hentry
  refine .next (.control hgo) fun u hu => ?_
  obtain ⟨-, rfl⟩ | ⟨st, hst, -⟩ := own_pre hd hu
  · have hcs : (s.setD d (.cs c)).dpc d = .cs c := by simp
    refine leads_cs (parked_step hu hparked) hcs (hawaits.congr rfl) fun hc hsome => ?_
    -- a drainer that has the mutex does not lock it
    have howning := (howner d).1 hsome
    obtain rfl | rfl := hc
    all_goals simp [State.Owning, hd, DPc.locked, DPc.list] at howning
  · rw [hentry] at hst
    cases hst

/-- A step of a drainer at the test of a loop, when it has to wait. -/
lemma own_test {ph : Phase} (hd : s.dpc d = .test ph) (hawaits : s.Awaits (.drain d (.cond ph)))
    (hstep : Own cfg (.drainer d) s s') : s' = s.setD d (.pre (.cond ph)) := by
  cases hstep with
  | control hstep =>
    rw [hd] at hstep
    cases hstep with
    | alone h0 =>
      rw [State.Awaits, h0] at hawaits
      cases hawaits
    | _ => rfl
  | enterBarrier hd' hnot | enter hd' hnot =>
    obtain rfl : ph = .pending := by simpa [hd] using hd'
    simp [State.Awaits, hnot] at hawaits
  | _ => simp_all

/-- From the beginning of an iteration on, when no cancel is pending. -/
lemma leads_head (hparked : s.Parked) (howner : ∀ d, s.owner = some d ↔ s.Owning d) (hd : s.dpc d = c.head)
    (hawaits : s.Awaits (.drain d c)) (hpre : s.preBlock (.drainer d) = none) :
    Leads (Own cfg (.drainer d)) (·.Out (.drainer d)) s := by
  cases c with
  | cond ph =>
    refine .next (.control (step_test hd hawaits)) fun u hu => ?_
    obtain rfl := own_test hd hawaits hu
    exact leads_pre (parked_step hu hparked) (owner_step hparked howner hu) (by simp) (hawaits.congr rfl) hpre
  | _ => exact leads_pre hparked howner hd hawaits hpre

/-- From the entry checks on, when a cancel is pending: it is consumed. -/
lemma leads_canceled (hparked : s.Parked) (howner : ∀ d, s.owner = some d ↔ s.Owning d) (hd : s.dpc d = .pre c)
    (hawaits : s.Awaits (.drain d c)) (hdl : s.deadline (.drainer d) ≠ .expired) (hcancel : s.cancel (.drainer d) = true) :
    Leads (Own cfg (.drainer d)) (·.Out (.drainer d)) s := by
  have hentry : s.entry d c = some .canceled := State.entry_of_some (State.preBlock_of_cancel hcancel)
  refine .next (.preFailed hd hentry) fun u hu => ?_
  obtain ⟨hnone, -⟩ | ⟨st, hst, rfl⟩ := own_pre hd hu
  · rw [hentry] at hnone
    cases hnone
  · obtain rfl : .canceled = st := Option.some.inj (hentry.symm.trans hst)
    refine leads_head (parked_step hu hparked) (owner_step hparked howner hu) ?_ (hawaits.congr rfl) ?_
    · simp [DCall.after_error]
    · exact State.preBlock_none hdl (by simp)

/-- A drainer whose deadline has not passed parks. -/
lemma leads_drain (hparked : s.Parked) (howner : ∀ d, s.owner = some d ↔ s.Owning d) (hd : s.dpc d = c.head)
    (hawaits : s.Awaits (.drain d c)) (hdl : s.deadline (.drainer d) ≠ .expired) :
    Leads (Own cfg (.drainer d)) (·.Out (.drainer d)) s := by
  cases hcancel : s.cancel (.drainer d) with
  | false => exact leads_head hparked howner hd hawaits (State.preBlock_none hdl hcancel)
  | true =>
    cases c with
    | cond ph =>
      refine .next (.control (step_test hd hawaits)) fun u hu => ?_
      obtain rfl := own_test hd hawaits hu
      exact leads_canceled (parked_step hu hparked) (owner_step hparked howner hu) (by simp) (hawaits.congr rfl) hdl hcancel
    | _ => exact leads_canceled hparked howner hd hawaits hdl hcancel

/-- A coroutine in `suspenders_queue_sync` parks when no cancel is pending. -/
lemma leads_sync_pre (hc : s.cpc t = .pre .sync) (hwg : s.syncWg t ≠ 0) (hpre : s.preBlock (.caller t) = none) :
    Leads (Own cfg (.caller t)) (·.Out (.caller t)) s := by
  have hgo : CStep cfg s t (s.cpc t) (.cs .sync) := hc ▸ .go hpre
  refine .next (.caller hgo) fun u hu => ?_
  obtain rfl : u = s.setC t (.cs .sync) := by
    cases hu with
    | caller hstep =>
      rw [hc] at hstep
      cases hstep
      rfl
    | callerPreFailed _ hst =>
      rw [hpre] at hst
      cases hst
    | _ => simp_all
  generalize hv : s.setC t (.cs .sync) = v
  have hcs : v.cpc t = .cs .sync := by simp [← hv]
  have hwg : v.syncWg t ≠ 0 := by simpa [← hv] using hwg
  refine .next (.syncPark hcs hwg) fun u hu => .now ?_
  have hu : u = (v.wait (.caller t)).setC t (.blk .sync) := by
    cases hu with
    | caller hstep =>
      rw [hcs] at hstep
      cases hstep
      contradiction
    | _ => simp_all
  simp [hu, State.Out]

lemma leads_sync (hc : s.cpc t = .pre .sync) (hwg : s.syncWg t ≠ 0) (hdl : s.deadline (.caller t) ≠ .expired) :
    Leads (Own cfg (.caller t)) (·.Out (.caller t)) s := by
  cases hcancel : s.cancel (.caller t) with
  | false => exact leads_sync_pre hc hwg (State.preBlock_none hdl hcancel)
  | true =>
    have hfail := State.preBlock_of_cancel hcancel
    refine .next (.callerPreFailed hc hfail) fun u hu => ?_
    obtain rfl : u = (s.consume (.caller t) .canceled).setC t (CCall.after (s.task t) .sync .canceled) := by
      cases hu with
      | caller hstep =>
        rw [hc] at hstep
        cases hstep with
        | go hnone =>
          rw [hfail] at hnone
          cases hnone
      | @callerPreFailed _ c st hc' hst =>
        obtain rfl : .sync = c := by simpa [hc] using hc'
        obtain rfl : .canceled = st := Option.some.inj (hfail.symm.trans hst)
        rfl
      | _ => simp_all
    exact leads_sync_pre (by simp [CCall.after]) hwg (State.preBlock_none hdl (by simp))

/-- The destroyer parks when no cancel is pending. -/
lemma leads_destroy_pre (hx : s.xpc = .pre) (hwg : s.drainWg ≠ 0) (hpre : s.preBlock .destroyer = none) :
    Leads (Own cfg .destroyer) (·.Out .destroyer) s := by
  refine .next (.drainGo hx hpre) fun u hu => ?_
  obtain rfl : u = s.setX .cs := by cases hu <;> simp_all
  refine .next (.drainPark rfl hwg) fun u hu => .now ?_
  have hu : u = ((s.setX .cs).wait .destroyer).setX .blk := by cases hu <;> simp_all
  simp [hu, State.Out]

lemma leads_destroy (hx : s.xpc = .pre) (hwg : s.drainWg ≠ 0) (hdl : s.deadline .destroyer ≠ .expired) :
    Leads (Own cfg .destroyer) (·.Out .destroyer) s := by
  cases hcancel : s.cancel .destroyer with
  | false => exact leads_destroy_pre hx hwg (State.preBlock_none hdl hcancel)
  | true =>
    have hfail := State.preBlock_of_cancel hcancel
    refine .next (.drainPreFailed hx hfail) fun u hu => ?_
    obtain rfl : u = s.consume .destroyer .canceled := by cases hu <;> simp_all
    exact leads_destroy_pre hx hwg (State.preBlock_none hdl (by simp))

/-! ## All loops -/

/-- A coroutine in one of the loops, which waits for something that has not happened, parks after finitely many
iterations if and only if its deadline has not passed. -/
theorem retry_parks (cfg : Config) (s : State) (h : Reachable (Step cfg) (.create cfg) s) (l : Loop) (hat : s.At l)
    (hawaits : s.Awaits l) : Leads (Own cfg l.actor) (·.Out l.actor) s ↔ s.deadline l.actor ≠ .expired := by
  refine ⟨fun hleads hexp => not_parks hat hawaits hexp hleads, fun hdl => ?_⟩
  cases l with
  | sync t => exact leads_sync hat hawaits hdl
  | destroy => exact leads_destroy hat hawaits hdl
  | drain d c =>
    obtain ⟨hparked, howner⟩ := lock_reachable h
    exact leads_drain hparked howner hat hawaits hdl

theorem retry_parks_two : (State.create .two).At (.drain 0 .recv) ∧ (State.create .two).Awaits (.drain 0 .recv) ∧
    Leads (Own .two (.drainer 0)) (·.Out (.drainer 0)) (.create .two) := by
  have hat : (State.create .two).At (.drain 0 .recv) := rfl
  have hawaits : (State.create .two).Awaits (.drain 0 .recv) := ⟨rfl, rfl, rfl⟩
  exact ⟨hat, hawaits, (retry_parks .two _ (.refl _ _) (.drain 0 .recv) hat hawaits).2 nofun⟩

/-- The deadline of a coroutine passes while `suspenders_queue_sync` waits for the task. -/
theorem retry_spins : ∃ s, Reachable (Step .two) (.create .two) s ∧ s.At (.sync 0) ∧ s.Awaits (.sync 0) ∧
    ¬ Leads (Own .two (.caller 0)) (·.Out (.caller 0)) s := by
  refine ⟨?_, ⟨[.call 0 ⟨.sync, false, true⟩, .submit 0, .submit 0, .submit 0, .arm (.caller 0), .expire (.caller 0)], ?run⟩,
    ?_, ?_, ?_⟩
  case run =>
    refine .cons (.call _ rfl) ?_
    refine .cons (.submit rfl) ?_
    refine .cons (.caller (.go rfl)) ?_
    refine .cons (.sendPush (.inl rfl) rfl rfl (by decide)) ?_
    refine .cons (.arm nofun) ?_
    refine .cons (.expire rfl) ?_
    exact .nil _
  · exact rfl
  · exact (by decide : (1 : ℤ) ≠ 0)
  · exact not_parks (l := .sync 0) rfl (by decide : (1 : ℤ) ≠ 0) rfl

end Suspenders.Queue
