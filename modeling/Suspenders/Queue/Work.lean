import Suspenders.Lib.Count
import Suspenders.Queue.Gate

/-!
# Pending work

`s_queue_work` is one counter for all queues.  A submission raises it before it sends its task.  If the send fails the
submission lowers it again, and otherwise the drainer does, when it has executed the task.

The counter is the number of tasks that are on their way (`work_counts`): those of submissions whose send is not decided
yet, those in a buffer or handed to a drainer that has not noticed yet, and those that drainers have.
-/

namespace Suspenders.Queue

open Lib

namespace State

variable (s : State)

/-- Submission `t` has raised the counter, and its send has not succeeded; if the send has failed, the submission has not
lowered the counter yet. -/
def Sending (t : TaskId) : Prop :=
  match s.cpc t with
  | .try | .pre .send | .cs .send | .fail _ => True
  | .blk .send => s.node (.caller t) ≠ .decided .ok
  | _ => False

/-- Task `t` is in the buffer, or has been handed to a drainer that is still in its receive. -/
def Queued (t : TaskId) : Prop := t ∈ s.buf ∨ ∃ d, s.hand d = some t ∧ (s.dpc d).stage = .free

/-- A drainer has received task `t`, and has not reached `s_queue_work_end` with it. -/
def Held (t : TaskId) : Prop := ∃ d, s.hand d = some t ∧ (s.dpc d).stage ≠ .free

/-- Task `t` is in the buffer or in the variable of a drainer. -/
def Carried (t : TaskId) : Prop := t ∈ s.buf ∨ ∃ d, s.hand d = some t

/-- Task `t` is on its way. -/
def Pending (t : TaskId) : Prop := s.Sending t ∨ s.Carried t

lemma carried_iff (t : TaskId) : s.Carried t ↔ s.Queued t ∨ s.Held t := by
  unfold Carried Queued Held
  constructor
  · rintro (hbuf | ⟨d, hd⟩)
    · exact .inl (.inl hbuf)
    · by_cases hstage : (s.dpc d).stage = .free
      · exact .inl (.inr ⟨d, hd, hstage⟩)
      · exact .inr ⟨d, hd, hstage⟩
  · rintro ((hbuf | ⟨d, hd, -⟩) | ⟨d, hd, -⟩)
    · exact .inl hbuf
    · exact .inr ⟨d, hd⟩
    · exact .inr ⟨d, hd⟩

/-- No task is in two places. -/
structure Apart : Prop where
  buf : s.buf.Nodup
  hand : ∀ d t, s.hand d = some t → t ∉ s.buf
  unique : ∀ d e t, s.hand d = some t → s.hand e = some t → d = e

end State

variable {cfg : Config} {s s' : State} {ev : Event}

/-! ## What a step does -/

lemma Tasks.carried_accepted (h : Tasks cfg s) {t : TaskId} (ht : s.Carried t) : t ∈ s.accepted := by
  obtain hbuf | ⟨d, hd⟩ := ht
  · exact h.pool.part.mem (show t ∈ s.pool.places .buf from hbuf)
  · exact h.hand_accepted hd

lemma Tasks.sending_new (h : Tasks cfg s) {t : TaskId} (ht : s.Sending t) : t ∉ s.accepted := by
  have hcaller := h.caller t
  unfold State.Sending at ht
  unfold State.CallerOk at hcaller
  split at ht
  all_goals simp_all

/-- A submission goes on as far as the send is concerned, or does not move. -/
lemma State.sending_congr {t : TaskId} (hcpc : s'.cpc t = s.cpc t)
    (hnode : s.cpc t = .blk .send → (s'.node (.caller t) = .decided .ok ↔ s.node (.caller t) = .decided .ok)) :
    s'.Sending t ↔ s.Sending t := by
  unfold State.Sending
  rw [hcpc]
  split
  all_goals simp_all

/-- What a step does to the counter and to the tasks on their way. -/
inductive WorkStep (s s' : State) : Prop
  | same : (∀ t, s'.Pending t ↔ s.Pending t) → s'.work = s.work → WorkStep s s'
  | raise {t : TaskId} : ¬ s.Pending t → (∀ u, s'.Pending u ↔ u = t ∨ s.Pending u) → s'.work = s.work + 1 → WorkStep s s'
  | lower {t : TaskId} : s.Pending t → (∀ u, s'.Pending u ↔ u ≠ t ∧ s.Pending u) → s'.work = s.work - 1 → WorkStep s s'

/-- A step that neither moves a task nor raises the counter. -/
lemma WorkStep.of_eq (hbuf : s'.buf = s.buf) (hhand : s'.hand = s.hand) (hsend : ∀ t, s'.Sending t ↔ s.Sending t)
    (hwork : s'.work = s.work) : WorkStep s s' := by
  refine .same (fun t => ?_) hwork
  unfold State.Pending State.Carried
  rw [hbuf, hhand, hsend]

/-- A send succeeds: the task of the submission is now carried. -/
lemma WorkStep.of_send {t : TaskId} (hsend : s.Sending t) (hsend' : ¬ s'.Sending t)
    (hother : ∀ u, u ≠ t → (s'.Sending u ↔ s.Sending u)) (hcarried : ∀ u, s'.Carried u ↔ u = t ∨ s.Carried u)
    (hwork : s'.work = s.work) : WorkStep s s' := by
  refine .same (fun u => ?_) hwork
  unfold State.Pending
  rw [hcarried]
  by_cases hu : u = t
  · subst hu
    simp [hsend]
  · simp [hother u hu, hu]

section Carried

variable {d : DrainerId} {t : TaskId}

/-- A drainer takes a task from the buffer. -/
lemma State.carried_take {rest : List TaskId} (hd : s.hand d = none) (hbuf : s.buf = t :: rest) (hbuf' : s'.buf = rest)
    (hhand : s'.hand = Function.update s.hand d (some t)) (u : TaskId) : s'.Carried u ↔ s.Carried u := by
  unfold State.Carried
  rw [hbuf, hbuf', hhand, List.mem_cons]
  constructor
  · rintro (hmem | ⟨e, he⟩)
    · exact .inl (.inr hmem)
    · by_cases hed : e = d
      · subst hed
        rw [Function.update_self] at he
        exact .inl (.inl (Option.some.inj he).symm)
      · rw [Function.update_of_ne hed] at he
        exact .inr ⟨e, he⟩
  · rintro ((rfl | hmem) | ⟨e, he⟩)
    · exact .inr ⟨d, Function.update_self ..⟩
    · exact .inl hmem
    · refine .inr ⟨e, ?_⟩
      rwa [Function.update_of_ne]
      rintro rfl
      rw [hd] at he
      cases he

/-- A drainer gets a task that was nowhere. -/
lemma State.carried_give (hd : s.hand d = none) (hbuf : s'.buf = s.buf)
    (hhand : s'.hand = Function.update s.hand d (some t)) (u : TaskId) : s'.Carried u ↔ u = t ∨ s.Carried u := by
  unfold State.Carried
  rw [hbuf, hhand]
  constructor
  · rintro (hmem | ⟨e, he⟩)
    · exact .inr (.inl hmem)
    · by_cases hed : e = d
      · subst hed
        rw [Function.update_self] at he
        exact .inl (Option.some.inj he).symm
      · rw [Function.update_of_ne hed] at he
        exact .inr (.inr ⟨e, he⟩)
  · rintro (rfl | hmem | ⟨e, he⟩)
    · exact .inr ⟨d, Function.update_self ..⟩
    · exact .inl hmem
    · refine .inr ⟨e, ?_⟩
      rwa [Function.update_of_ne]
      rintro rfl
      rw [hd] at he
      cases he

/-- A task comes into the buffer. -/
lemma State.carried_push (hbuf : s'.buf = s.buf ++ [t]) (hhand : s'.hand = s.hand) (u : TaskId) :
    s'.Carried u ↔ u = t ∨ s.Carried u := by
  unfold State.Carried
  rw [hbuf, hhand, List.mem_append, List.mem_singleton]
  tauto

/-- A drainer is done with its task. -/
lemma State.carried_drop (hapart : s.Apart) (hd : s.hand d = some t) (hbuf : s'.buf = s.buf)
    (hhand : s'.hand = Function.update s.hand d none) (u : TaskId) : s'.Carried u ↔ u ≠ t ∧ s.Carried u := by
  unfold State.Carried
  rw [hbuf, hhand]
  constructor
  · rintro (hmem | ⟨e, he⟩)
    · refine ⟨fun heq => hapart.hand d t hd (heq ▸ hmem), .inl hmem⟩
    · have hed : e ≠ d := by
        rintro rfl
        rw [Function.update_self] at he
        cases he
      rw [Function.update_of_ne hed] at he
      exact ⟨fun heq => hed (hapart.unique e d t (heq ▸ he) hd), .inr ⟨e, he⟩⟩
  · rintro ⟨hne, hmem | ⟨e, he⟩⟩
    · exact .inl hmem
    · refine .inr ⟨e, ?_⟩
      rwa [Function.update_of_ne]
      rintro rfl
      exact hne (Option.some.inj (he.symm.trans hd))

end Carried

/-- A drainer in its receive has no task. -/
lemma Tasks.hand_cs (h : Tasks cfg s) {d : DrainerId} (hd : s.dpc d = .cs .recv) : s.hand d = none := by
  have hloaded := h.hand d
  simpa [State.Loaded, hd, DPc.stage] using hloaded

lemma Tasks.hand_parked (h : Tasks cfg s) {d : DrainerId} (hd : d ∈ s.parked .receivers) : s.hand d = none := by
  have hloaded := h.hand d
  obtain ⟨hlist, hw⟩ := h.chan.parked.waits hd
  simpa [State.Loaded, DPc.eq_of_list hlist, DPc.stage, hw] using hloaded

/-- The step of a submission as far as its own send is concerned. -/
lemma WorkStep.of_own {t : TaskId} {p : CPc} (hbuf : s'.buf = s.buf) (hhand : s'.hand = s.hand)
    (hcpc : s'.cpc = Function.update s.cpc t p) (hnode : ∀ u, u ≠ t → s'.node (.caller u) = s.node (.caller u))
    (hsend : s'.Sending t ↔ s.Sending t) (hwork : s'.work = s.work) : WorkStep s s' := by
  refine .of_eq hbuf hhand (fun u => ?_) hwork
  by_cases hu : u = t
  · exact hu ▸ hsend
  · exact State.sending_congr (by rw [hcpc, Function.update_of_ne hu]) fun _ => by rw [hnode u hu]

/-- What is left of a call that has failed, or that has returned. -/
lemma State.sending_after {t : TaskId} (c : CCall) (st : Code) (hcpc : s'.cpc t = c.after (s.task t) st) :
    s'.Sending t ↔ c = .send ∧ st ≠ .ok := by
  unfold State.Sending
  rw [hcpc]
  cases c with
  | send =>
    cases st with
    | ok => cases hsync : (s.task t).sync <;> simp [CCall.after, hsync]
    | _ => simp [CCall.after]
  | sync => cases st <;> simp [CCall.after]

lemma work_step (h : Tasks cfg s) (hapart : s.Apart) (hstep : Step cfg s ev s') : WorkStep s s' := by
  have hcaller (hcpc : s'.cpc = s.cpc) (hnode : ∀ t, s'.node (.caller t) = s.node (.caller t)) (t : TaskId) :
      s'.Sending t ↔ s.Sending t := State.sending_congr (by rw [hcpc]) fun _ => by rw [hnode]
  cases hstep with
  | @condUnlock d | @start d | @unlockEnd d =>
    have hbuf : (s.mutexUnlock d).buf = s.buf := by rw [State.mutexUnlock_eq]
    have hhand : (s.mutexUnlock d).hand = s.hand := by rw [State.mutexUnlock_eq]
    have hcpc : (s.mutexUnlock d).cpc = s.cpc := by rw [State.mutexUnlock_eq]
    have hwork : (s.mutexUnlock d).work = s.work := by rw [State.mutexUnlock_eq]
    exact .of_eq hbuf hhand (hcaller hcpc fun t => s.mutexUnlock_node_of_ne (by simp)) hwork
  | broadcast => exact .of_eq rfl rfl (hcaller rfl fun t => by simp [State.condBroadcast]) rfl
  | @finish d t hd hhand =>
    split
    · -- the end of a task wakes its submission, which waits for it
      refine .of_eq rfl rfl (fun u => State.sending_congr rfl fun hblk => ?_) rfl
      have hnode : (s.syncDone t).node (.caller u) = s.node (.caller u) := by
        refine State.grant_of_notMem fun hmem => ?_
        split at hmem
        · obtain ⟨⟨hsync, -⟩, heq⟩ := State.mem_syncWaiters.mp hmem
          obtain rfl : u = t := by simpa using heq
          simp [hblk] at hsync
        · simp at hmem
      exact hnode ▸ Iff.rfl
    · exact .of_eq rfl rfl (fun u => State.sending_congr rfl fun _ => Iff.rfl) rfl
  | exit => exact .of_eq rfl rfl (hcaller rfl fun t => State.drainDone_node (by simp)) rfl
  | recvPop hd hbuf =>
    refine .same (fun u => or_congr (hcaller rfl (fun _ => rfl) u) ?_) rfl
    refine State.carried_take (h.hand_cs hd) hbuf ?_ ?_ u
    all_goals rfl
  | @recvRefill d t u rest us hd hbuf hsenders =>
    obtain ⟨hblk, hw⟩ := (State.mem_senders h.chan).1 (hsenders ▸ List.mem_cons_self : u ∈ s.senders)
    refine .of_send (t := u) (by simp [State.Sending, hblk, hw]) (by simp [State.Sending, hblk]) (fun v hv => ?_) (fun v => ?_) rfl
    · exact State.sending_congr rfl fun _ => by simp [hv]
    · rw [← @State.carried_take s ({ s with buf := rest }.give d t) d t rest (h.hand_cs hd) hbuf rfl rfl v]
      refine State.carried_push ?_ ?_ v
      all_goals rfl
  | @recvDirect d u us hd hbuf hsenders =>
    obtain ⟨hblk, hw⟩ := (State.mem_senders h.chan).1 (hsenders ▸ List.mem_cons_self : u ∈ s.senders)
    refine .of_send (t := u) (by simp [State.Sending, hblk, hw]) (by simp [State.Sending, hblk]) (fun v hv => ?_) (fun v => ?_) rfl
    · exact State.sending_congr rfl fun _ => by simp [hv]
    · refine State.carried_give (h.hand_cs hd) ?_ ?_ v
      all_goals rfl
  | @workEnd d hd =>
    obtain ⟨t, ht⟩ := Option.isSome_iff_exists.1 ((h.hand d).2 (.inl (by simp [hd, DPc.stage])))
    have hnew : ¬ s.Sending t := fun hsend => h.sending_new hsend (h.hand_accepted ht)
    refine .lower (t := t) (.inr (.inr ⟨d, ht⟩)) (fun u => ?_) rfl
    refine (or_congr (hcaller rfl (fun _ => rfl) u) (State.carried_drop hapart ht ?_ ?_ u)).trans ?_
    · rfl
    · rfl
    · by_cases hu : u = t
      · subst hu
        simp [hnew]
      · simp [hu, State.Pending]
  | @caller t p hc =>
    refine .of_own (t := t) rfl rfl rfl (fun _ _ => rfl) ?_ rfl
    generalize hq : s.cpc t = q at hc
    cases hc with
    | @go c => cases c <;> simp [State.Sending, hq]
    | _ => simp [State.Sending, hq, CCall.after]
  | @submit t hc =>
    have hnew : ¬ s.Carried t := fun ht => by
      have hfresh := h.caller t
      rw [State.CallerOk, hc] at hfresh
      exact hfresh (h.carried_accepted ht)
    have hidle : ¬ s.Sending t := by simp [State.Sending, hc]
    refine .raise (t := t) (not_or.2 ⟨hidle, hnew⟩) (fun u => ?_) rfl
    by_cases hu : u = t
    · subst hu
      refine iff_of_true (.inl ?_) (.inl rfl)
      cases s.co u <;> simp [State.Sending]
    · rw [or_iff_right hu]
      exact or_congr (State.sending_congr (by simp [hu]) fun _ => Iff.rfl) Iff.rfl
  | @callerPreFailed t c st hc hst =>
    have hok : st ≠ .ok := by
      obtain rfl | rfl := State.preBlock_code hst <;> simp
    refine .of_own (t := t) rfl rfl rfl (fun _ _ => rfl) ?_ rfl
    rw [State.sending_after (s := s) c st (by simp)]
    cases c <;> simp [State.Sending, hc, hok]
  | @callerWoken t c st hc hst =>
    refine .of_own (t := t) rfl rfl rfl (fun _ _ => rfl) ?_ rfl
    rw [State.sending_after (s := s) c st (by simp)]
    cases c <;> simp [State.Sending, hc, hst]
  | @sendHand t d ds hc hopen hl =>
    refine .of_send (t := t) ?_ ?_ (fun u hu => ?_) (fun u => ?_) rfl
    · rcases hc with hc | hc <;> simp [State.Sending, hc]
    · rw [State.sending_after (s := s) .send .ok (by simp)]
      simp
    · exact State.sending_congr (by simp [hu]) fun _ => by simp
    · refine State.carried_give (h.hand_parked (show d ∈ s.parked .receivers by simp [hl])) ?_ ?_ u
      all_goals rfl
  | @sendPush t hc =>
    refine .of_send (t := t) ?_ ?_ (fun u hu => ?_) (fun u => ?_) rfl
    · rcases hc with hc | hc <;> simp [State.Sending, hc]
    · rw [State.sending_after (s := s) .send .ok (by simp)]
      simp
    · exact State.sending_congr (by simp [hu]) fun _ => by simp
    · refine State.carried_push ?_ ?_ u
      all_goals rfl
  | @sendPark t hc =>
    refine .of_own (t := t) rfl rfl rfl (fun u hu => by simp [hu]) ?_ rfl
    simp [State.Sending, hc]
  | @fail t st hc =>
    have hsend : s.Sending t := by simp [State.Sending, hc]
    refine .lower (t := t) (.inl hsend) (fun u => ?_) rfl
    by_cases hu : u = t
    · subst hu
      have hnew : ¬ s.Carried u := fun ht => h.sending_new hsend (h.carried_accepted ht)
      refine iff_of_false (not_or.2 ⟨by simp [State.Sending], hnew⟩) fun hne => hne.1 rfl
    · rw [and_iff_right hu]
      exact or_congr (State.sending_congr (by simp [hu]) fun _ => Iff.rfl) Iff.rfl
  | @syncPark t hc =>
    refine .of_own (t := t) rfl rfl rfl (fun u hu => by simp [hu]) ?_ rfl
    simp [State.Sending, hc]
  | @call t c hc =>
    refine .of_own (t := t) rfl rfl rfl (fun _ _ => rfl) ?_ rfl
    unfold Call.entry
    split
    · simp [State.Sending, hc]
    · split <;> simp [State.Sending, hc]
  | close =>
    unfold State.chanClose
    split
    · exact .of_eq rfl rfl (fun u => State.sending_congr rfl fun _ => Iff.rfl) rfl
    · refine .of_eq rfl rfl (fun u => State.sending_congr rfl fun hblk => ?_) rfl
      by_cases hmem : u ∈ s.senders
      · simp [hmem, ((State.mem_senders h.chan).1 hmem).2]
      · simp [hmem]
  | @wake a st hw hst =>
    have hok : st ≠ .ok := by
      rintro rfl
      simp at hst
    have hnode (u : TaskId) : ((s.unlink a).grant [a] st).node (.caller u) = .decided .ok ↔ s.node (.caller u) = .decided .ok := by
      by_cases ha : .caller u = a
      · simp [← ha, hok, ha ▸ hw]
      · cases a <;> simp_all [State.unlink]
    cases a <;> exact .of_eq rfl rfl (fun u => State.sending_congr rfl fun _ => hnode u) rfl
  | _ => exact .of_eq rfl rfl (hcaller rfl fun t => by simp) rfl

/-! ## No task is in two places -/

namespace State.Apart

variable {d : DrainerId} {t : TaskId}

lemma congr (h : s.Apart) (hbuf : s'.buf = s.buf) (hhand : s'.hand = s.hand) : s'.Apart :=
  ⟨hbuf ▸ h.buf, hbuf ▸ hhand ▸ h.hand, hhand ▸ h.unique⟩

/-- A drainer gets a task that no other drainer has. -/
lemma give (h : s.Apart) (hother : ∀ e, s.hand e ≠ some t) (ht : t ∉ s.buf) (hbuf : s'.buf = s.buf)
    (hhand : s'.hand = Function.update s.hand d (some t)) : s'.Apart := by
  have hcases {e : DrainerId} {u : TaskId} (he : s'.hand e = some u) : e = d ∧ u = t ∨ e ≠ d ∧ s.hand e = some u := by
    rw [hhand] at he
    by_cases hed : e = d
    · subst hed
      rw [Function.update_self] at he
      exact .inl ⟨rfl, (Option.some.inj he).symm⟩
    · rw [Function.update_of_ne hed] at he
      exact .inr ⟨hed, he⟩
  refine ⟨hbuf ▸ h.buf, fun e u he => ?_, fun e f u he hf => ?_⟩
  · rw [hbuf]
    obtain ⟨-, rfl⟩ | ⟨-, he⟩ := hcases he
    · exact ht
    · exact h.hand e u he
  · obtain ⟨rfl, rfl⟩ | ⟨-, he⟩ := hcases he
    · obtain ⟨rfl, -⟩ | ⟨-, hf⟩ := hcases hf
      · rfl
      · exact absurd hf (hother f)
    · obtain ⟨rfl, rfl⟩ | ⟨-, hf⟩ := hcases hf
      · exact absurd he (hother e)
      · exact h.unique e f u he hf

/-- A task leaves the buffer at its beginning. -/
lemma tail {rest : List TaskId} (h : s.Apart) (hbuf : s.buf = t :: rest) (hbuf' : s'.buf = rest) (hhand : s'.hand = s.hand) :
    s'.Apart ∧ t ∉ s'.buf ∧ ∀ e, s'.hand e ≠ some t := by
  have hnodup := h.buf
  rw [hbuf, List.nodup_cons] at hnodup
  have hmem (u : TaskId) (hu : u ∈ rest) : u ∈ s.buf := hbuf ▸ List.mem_cons_of_mem t hu
  refine ⟨⟨hbuf' ▸ hnodup.2, fun e u he hu => ?_, hhand ▸ h.unique⟩, hbuf' ▸ hnodup.1, fun e he => ?_⟩
  · exact h.hand e u (hhand ▸ he) (hmem u (hbuf' ▸ hu))
  · exact h.hand e t (hhand ▸ he) (hbuf ▸ List.mem_cons_self)

/-- A task that was nowhere comes into the buffer. -/
lemma push (h : s.Apart) (ht : ¬ s.Carried t) (hbuf : s'.buf = s.buf ++ [t]) (hhand : s'.hand = s.hand) : s'.Apart := by
  obtain ⟨hnew, hother⟩ := not_or.1 ht
  refine ⟨?_, fun e u he hu => ?_, hhand ▸ h.unique⟩
  · rw [hbuf, List.nodup_append]
    refine ⟨h.buf, List.nodup_singleton t, fun u hu v hv heq => hnew ?_⟩
    rw [← List.mem_singleton.1 hv, ← heq]
    exact hu
  · rw [hhand] at he
    rw [hbuf, List.mem_append, List.mem_singleton] at hu
    obtain hu | rfl := hu
    · exact h.hand e u he hu
    · exact hother ⟨e, he⟩

/-- A drainer is done with its task. -/
lemma drop (h : s.Apart) (hbuf : s'.buf = s.buf) (hhand : s'.hand = Function.update s.hand d none) : s'.Apart := by
  have hsub {e : DrainerId} {u : TaskId} (he : s'.hand e = some u) : s.hand e = some u := by
    rw [hhand] at he
    by_cases hed : e = d
    · subst hed
      rw [Function.update_self] at he
      cases he
    · rwa [Function.update_of_ne hed] at he
  exact ⟨hbuf ▸ h.buf, fun e u he => hbuf ▸ h.hand e u (hsub he), fun e f u he hf => h.unique e f u (hsub he) (hsub hf)⟩

end State.Apart

lemma apart_step (h : Tasks cfg s) (hapart : s.Apart) (hstep : Step cfg s ev s') : s'.Apart := by
  have hnew {t : TaskId} (ht : t ∉ s.accepted) : ¬ s.Carried t := fun hcarried => ht (h.carried_accepted hcarried)
  have hgive {d : DrainerId} {t : TaskId} (ht : ¬ s.Carried t) (hbuf : s'.buf = s.buf)
      (hhand : s'.hand = Function.update s.hand d (some t)) : s'.Apart :=
    hapart.give (fun e he => ht (.inr ⟨e, he⟩)) (fun hmem => ht (.inl hmem)) hbuf hhand
  cases hstep with
  | @condUnlock d | @start d | @unlockEnd d =>
    have hbuf : (s.mutexUnlock d).buf = s.buf := by rw [State.mutexUnlock_eq]
    have hhand : (s.mutexUnlock d).hand = s.hand := by rw [State.mutexUnlock_eq]
    exact hapart.congr hbuf hhand
  | @recvPop d t rest hd hbuf =>
    obtain ⟨htail, ht, hother⟩ := @State.Apart.tail s { s with buf := rest } t rest hapart hbuf rfl rfl
    exact htail.give hother ht rfl rfl
  | @recvRefill d t u rest us hd hbuf hsenders =>
    obtain ⟨htail, ht, hother⟩ := @State.Apart.tail s { s with buf := rest } t rest hapart hbuf rfl rfl
    have hu := hnew (State.sender_fresh h.chan h.caller (hsenders ▸ List.mem_cons_self : u ∈ s.senders))
    have hgiven : ({ s with buf := rest }.give d t).Apart := htail.give hother ht rfl rfl
    refine hgiven.push (t := u) ?_ rfl rfl
    rwa [State.carried_take (h.hand_cs hd) hbuf]
    all_goals rfl
  | @recvDirect d u us hd hbuf hsenders =>
    exact hgive (hnew (State.sender_fresh h.chan h.caller (hsenders ▸ List.mem_cons_self : u ∈ s.senders))) rfl rfl
  | workEnd => exact hapart.drop rfl rfl
  | sendHand hc => exact hgive (hnew (State.caller_fresh h.caller hc)) rfl rfl
  | sendPush hc => exact hapart.push (hnew (State.caller_fresh h.caller hc)) rfl rfl
  | finish =>
    split
    · exact hapart.congr rfl rfl
    · exact hapart.congr rfl rfl
  | close =>
    unfold State.chanClose
    split
    · exact hapart.congr rfl rfl
    · exact hapart.congr rfl rfl
  | @wake a => cases a <;> exact hapart.congr rfl rfl
  | _ => exact hapart.congr rfl rfl

/-! ## All queues -/

/-- A queue. -/
abbrev QueueId := ℕ

/-- A queue with its configuration. -/
structure Member where
  cfg : Config
  state : State

/-- The queues that have been created, and the counter that they share. -/
structure Fleet where
  queue : QueueId → Option Member
  /-- `s_queue_work` -/
  work : ℕ

/-- What happens to the queues. -/
inductive FleetEvent
  /-- `suspenders_queue_create` -/
  | create (i : QueueId)
  /-- Something happens to queue `i`. -/
  | queue (i : QueueId) (ev : Event)

/-- One step of one queue, on the common counter. -/
inductive FleetStep : Fleet → FleetEvent → Fleet → Prop
  | create {F : Fleet} {i : QueueId} (cfg : Config) :
      F.queue i = none →
      FleetStep F (.create i) { F with queue := Function.update F.queue i (some ⟨cfg, .create cfg⟩) }
  | queue {F : Fleet} {i : QueueId} {m : Member} {ev : Event} {s' : State} :
      F.queue i = some m → Step m.cfg { m.state with work := F.work } ev s' →
      FleetStep F (.queue i ev) ⟨Function.update F.queue i (some ⟨m.cfg, s'⟩), s'.work⟩

namespace Fleet

/-- There are no queues. -/
def init : Fleet := ⟨fun _ => none, 0⟩

variable (F : Fleet)

/-- The task `x.2` of queue `x.1` is with its submission. -/
def Sending (x : QueueId × TaskId) : Prop := ∃ m, F.queue x.1 = some m ∧ m.state.Sending x.2

/-- It is in the buffer, or has been handed to a drainer that has not noticed yet. -/
def Queued (x : QueueId × TaskId) : Prop := ∃ m, F.queue x.1 = some m ∧ m.state.Queued x.2

/-- A drainer has it. -/
def Held (x : QueueId × TaskId) : Prop := ∃ m, F.queue x.1 = some m ∧ m.state.Held x.2

/-- It is on its way. -/
def Pending (x : QueueId × TaskId) : Prop := ∃ m, F.queue x.1 = some m ∧ m.state.Pending x.2

/-- Every queue is in order, and the counter counts the tasks on their way. -/
structure Inv : Prop where
  member : ∀ i m, F.queue i = some m → Tasks m.cfg m.state ∧ m.state.Apart
  counts : Counts F.work F.Pending

end Fleet

variable {F F' : Fleet} {e : FleetEvent}

/-- The tasks of a queue do not depend on the counter. -/
lemma Tasks.work (h : Tasks cfg s) (n : ℕ) : Tasks cfg { s with work := n } where
  chan := ⟨h.chan.parked, h.chan.senders, h.chan.absent, h.chan.closed, h.chan.empty, h.chan.left⟩
  pool := h.pool
  hand := h.hand
  ran := h.ran
  caller := h.caller
  sync := h.sync
  serial := h.serial

lemma State.Apart.work (h : s.Apart) (n : ℕ) : State.Apart { s with work := n } := ⟨h.buf, h.hand, h.unique⟩

/-- Queue `i` alone has changed. -/
lemma Fleet.pending_update {i : QueueId} {m : Member} (hF' : F'.queue = Function.update F.queue i (some m))
    (x : QueueId × TaskId) : F'.Pending x ↔ if x.1 = i then m.state.Pending x.2 else F.Pending x := by
  unfold Fleet.Pending
  rw [hF']
  split
  next hx => simp [hx]
  next hx => simp [hx]

lemma Fleet.pending_of {i : QueueId} {m : Member} (hm : F.queue i = some m) {x : QueueId × TaskId} (hx : x.1 = i) :
    F.Pending x ↔ m.state.Pending x.2 := by
  simp [Fleet.Pending, hx, hm]

/-- What a step of queue `i` does to the counter. -/
lemma counts_step {i : QueueId} {m m' : Member} (h : Counts F.work F.Pending) (hm : F.queue i = some m)
    (hF' : F'.queue = Function.update F.queue i (some m')) (hwork' : F'.work = m'.state.work)
    (hstep : WorkStep { m.state with work := F.work } m'.state) : Counts F'.work F'.Pending := by
  have hother {x : QueueId × TaskId} (hx : x.1 ≠ i) (t : TaskId) : x ≠ (i, t) := fun heq => hx (congrArg Prod.fst heq)
  have hsame {x : QueueId × TaskId} (hx : x.1 = i) (t : TaskId) : x = (i, t) ↔ x.2 = t := by
    rw [Prod.ext_iff, and_iff_right hx]
  cases hstep with
  | same hpending hwork =>
    rw [hwork', hwork]
    refine h.congr fun x => ?_
    rw [Fleet.pending_update hF']
    split
    next hx => exact (hpending x.2).trans (Fleet.pending_of hm hx).symm
    next => exact Iff.rfl
  | @raise t hnew hpending hwork =>
    rw [hwork', hwork]
    refine h.insert (a := (i, t)) (fun ht => hnew ((Fleet.pending_of hm rfl).1 ht)) fun x => ?_
    rw [Fleet.pending_update hF']
    split
    next hx => exact (hpending x.2).trans (or_congr (hsame hx t).symm (Fleet.pending_of hm hx).symm)
    next hx => rw [or_iff_right (hother hx t)]
  | @lower t hmem hpending hwork =>
    rw [hwork', hwork]
    refine h.remove (a := (i, t)) ((Fleet.pending_of hm rfl).2 hmem) fun x => ?_
    rw [Fleet.pending_update hF']
    split
    next hx => exact (hpending x.2).trans (and_congr (not_congr (hsame hx t).symm) (Fleet.pending_of hm hx).symm)
    next hx => rw [and_iff_right (hother hx t)]

lemma fleet_step (h : F.Inv) (hstep : FleetStep F e F') : F'.Inv := by
  cases hstep with
  | @create i cfg hnone =>
    refine ⟨fun j m hm => ?_, h.counts.congr fun x => ?_⟩
    · by_cases hj : j = i
      · subst hj
        obtain rfl : ⟨cfg, .create cfg⟩ = m := by simpa using hm
        refine ⟨tasks_create cfg, List.nodup_nil, nofun, nofun⟩
      · exact h.member j m (by simpa [hj] using hm)
    · rw [Fleet.pending_update rfl x]
      split
      next hx => simp [Fleet.Pending, hx, hnone, State.Pending, State.Carried, State.Sending, State.create]
      next => exact Iff.rfl
  | @queue i m ev s' hm hstep =>
    obtain ⟨htasks, hapart⟩ := h.member i m hm
    have htasks := htasks.work F.work
    have hapart := hapart.work F.work
    refine ⟨fun j m' hm' => ?_, counts_step h.counts hm rfl rfl (work_step htasks hapart hstep)⟩
    by_cases hj : j = i
    · subst hj
      obtain rfl : ⟨m.cfg, s'⟩ = m' := by simpa using hm'
      exact ⟨tasks_step htasks hstep, apart_step htasks hapart hstep⟩
    · exact h.member j m' (by simpa [hj] using hm')

lemma fleet_reachable (h : Reachable FleetStep .init F) : F.Inv := by
  refine h.invariant ⟨fun i m hm => ?_, .zero fun x hx => ?_⟩ fun _ _ _ hinv hstep => fleet_step hinv hstep
  · cases hm
  · obtain ⟨m, hm, -⟩ := hx
    cases hm

/-! ## The counter -/

end Suspenders.Queue
