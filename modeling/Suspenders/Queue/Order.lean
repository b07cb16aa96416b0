import Suspenders.Queue.Gate

/-!
# The order of barriers

A task leaves the channel in the order of its acceptance, but it is taken into account only when its drainer has
passed the gate, behind the mutex.  If no drainer passes the gate while another one, with an earlier task, is still on
its way, the barriers are executed in order (`barriers_in_order`).  Nothing in the code ensures this (`overtaken`).
-/

namespace Suspenders.Queue

open Lib

namespace State

variable (s : State)

/-- A barrier is started when everything before it is finished, and nothing behind it is started before it is
finished. -/
def BarrierOrder : Prop :=
  ∀ u t, [u, t].Sublist s.accepted → (s.task u).barrier = true ∨ (s.task t).barrier = true →
    t ∈ s.started.map Prod.snd → u ∈ s.finished

/-- No other drainer is on its way to the gate with a task that was accepted before the task of drainer `d`, unless
neither of the two is a barrier. -/
def InTurn (d : DrainerId) : Prop :=
  ∀ e u t, s.hand d = some t → s.hand e = some u → (s.dpc e).stage ≠ .ran → (s.dpc e).zone = .outside →
    [u, t].Sublist s.accepted → (s.task u).barrier = false ∧ (s.task t).barrier = false

/-- What a drainer that has passed the gate knows of the earlier tasks. -/
def Passed : Prop :=
  ∀ d t, (s.dpc d).zone ≠ .outside → s.hand d = some t → ∀ u, [u, t].Sublist s.accepted →
    ((s.task u).barrier = true → u ∈ s.finished) ∧
    ((s.task t).barrier = true → u ∈ s.finished ∨ ∃ e, s.Counted e ∧ s.hand e = some u)

end State

/-- Drainers pass the gate in turn. -/
def GateInTurn (s : State) (ev : Event) (_ : State) : Prop :=
  ∀ d, ev = .drain d → s.dpc d = .test .pending → s.barrierPending = false → s.InTurn d

variable {cfg : Config} {s s' : State} {ev : Event}

/-! ## Histories -/

lemma accepted_step (h : Tasks cfg s) (hstep : Step cfg s ev s') :
    s'.accepted = s.accepted ∨ ∃ a ∉ s.accepted, s'.accepted = s.accepted ++ [a] := by
  cases hstep with
  | recvRefill _ _ hl | recvDirect _ _ hl =>
    exact .inr ⟨_, State.sender_fresh h.chan h.caller (by simp [hl]), rfl⟩
  | sendHand hc | sendPush hc => exact .inr ⟨_, State.caller_fresh h.caller hc, rfl⟩
  | condUnlock | start | unlockEnd => rw [State.mutexUnlock_eq]; exact .inl rfl
  | finish =>
    simp only [State.setD]
    split <;> exact .inl rfl
  | close =>
    unfold State.chanClose
    split <;> exact .inl rfl
  | @wake a => cases a <;> exact .inl rfl
  | _ => exact .inl rfl

lemma started_step (hcfg : 1 < cfg.spawned) (hstep : Step cfg s ev s') :
    s'.started = s.started ∨ ∃ d t, ev = .drain d ∧ s.dpc d = .unlock ∧ s.hand d = some t ∧
      s'.started = s.started ++ [(d, t)] := by
  cases hstep with
  | condUnlock | unlockEnd => rw [State.mutexUnlock_eq]; exact .inl rfl
  | start hd ht => exact .inr ⟨_, _, rfl, hd, ht, by rw [State.mutexUnlock_eq]; rfl⟩
  | startSerial _ hle => exact absurd hcfg (Nat.not_lt.mpr hle)
  | finish =>
    simp only [State.setD]
    split <;> exact .inl rfl
  | close =>
    unfold State.chanClose
    split <;> exact .inl rfl
  | @wake a => cases a <;> exact .inl rfl
  | _ => exact .inl rfl

lemma sublist_pair_append {l m : List TaskId} {u t : TaskId} (h : [u, t].Sublist (l ++ m)) :
    [u, t].Sublist l ∨ t ∈ m := by
  obtain ⟨l₁, l₂, hl, h₁, h₂⟩ := List.sublist_append_iff.mp h
  cases l₂ with
  | nil => exact .inl (by simpa [hl] using h₁)
  | cons b l₂ =>
    have hlast : (b :: l₂).getLast? = some t := by
      rw [← List.getLast?_append_of_ne_nil l₁ (by simp), ← hl]
      rfl
    exact .inr (h₂.subset (List.mem_of_getLast? hlast))

/-- A pair of accepted tasks is in the order in which it was. -/
lemma order_step (h : Tasks cfg s) (hstep : Step cfg s ev s') {u t : TaskId} (ht : t ∈ s.accepted)
    (hut : [u, t].Sublist s'.accepted) : [u, t].Sublist s.accepted := by
  obtain heq | ⟨a, ha, heq⟩ := accepted_step h hstep
  · exact heq ▸ hut
  · rw [heq] at hut
    obtain hold | hta := sublist_pair_append hut
    · exact hold
    · exact absurd ht (by simpa [show t = a by simpa using hta] using ha)

lemma Tasks.started_accepted (h : Tasks cfg s) {t : TaskId} (ht : t ∈ s.started.map Prod.snd) : t ∈ s.accepted := by
  obtain ⟨⟨d, t⟩, hmem, rfl⟩ := List.mem_map.mp ht
  obtain hfin | ⟨hhand, -⟩ := h.pool.started d t hmem
  · exact h.pool.part.mem (show t ∈ s.pool.places .finished from hfin)
  · exact h.pool.part.mem (show t ∈ s.pool.places (.hand d) by simp [Pool.places, hhand])

/-- What is before a task that has left the buffer has left the buffer. -/
lemma Tasks.buf_order (h : Tasks cfg s) {u t : TaskId} (hut : [u, t].Sublist s.accepted) (hu : u ∈ s.buf) :
    t ∈ s.buf := by
  obtain ⟨l, hl⟩ := h.pool.order
  have hnd := h.pool.nodup
  rw [← hl] at hnd
  change [u, t].Sublist s.pool.accepted at hut
  rw [← hl] at hut
  obtain hsub | ht := sublist_pair_append hut
  · have hmem : u ∈ l := hsub.subset (by simp)
    exact absurd rfl ((List.nodup_append.mp hnd).2.2 u hmem u hu)
  · exact ht

/-! ## One step -/

/-- At the gate, everything before is finished or inside. -/
lemma Gate.before (h : Gate cfg s) {d : DrainerId} {t u : TaskId} (hd : s.dpc d = .test .pending)
    (hp : s.barrierPending = false) (hturn : s.InTurn d) (ht : s.hand d = some t)
    (hut : [u, t].Sublist s.accepted) (hb : (s.task u).barrier = true ∨ (s.task t).barrier = true) :
    u ∈ s.finished ∨ ∃ e, s.Counted e ∧ s.hand e = some u := by
  obtain ⟨i, hi⟩ := h.tasks.pool.part.once u (hut.subset (by simp))
  have hmem : u ∈ s.pool.places i := List.count_pos_iff.mp (by simp [hi])
  cases i with
  | buf =>
    have htbuf : t ∈ s.pool.places .buf := h.tasks.buf_order hut hmem
    have hthand : t ∈ s.pool.places (.hand d) := by simp [Pool.places, State.pool, hd, DPc.stage, ht]
    simpa using h.tasks.pool.part.unique htbuf hthand
  | finished => exact .inl hmem
  | hand e =>
    have hue : s.pool.hand e = some u := by simpa [Pool.places] using hmem
    have hran : (s.dpc e).stage ≠ .ran := by
      intro hran
      simp [State.pool, hran] at hue
    have hhand : s.hand e = some u := by simpa [State.pool, hran] using hue
    have hnot : ¬ s.Holding e := fun he => by
      have := h.turnstile.not_exclusive hp e
      exact this ((s.exclusive_iff e).mpr he)
    refine .inr ⟨e, ?_, hhand⟩
    cases hz : (s.dpc e).zone with
    | outside =>
      have := hturn e u t ht hhand hran hz hut
      simp [this.1, this.2] at hb
    | settling => exact absurd (.inl hz) hnot
    | entered =>
      refine ⟨hz, ?_⟩
      by_contra hbar
      exact hnot (.inr ⟨hz, by simpa using hbar⟩)

/-- A drainer that was counted is counted, or its task is finished. -/
lemma counted_step (hcfg : 1 < cfg.spawned) (h : Tasks cfg s) (hstep : Step cfg s ev s') {e : DrainerId} {u : TaskId}
    (he : s.Counted e) (hu : s.hand e = some u) : u ∈ s'.finished ∨ s'.Counted e ∧ s'.hand e = some u := by
  have hstage : (s.dpc e).stage ≠ .free := DPc.stage_of_zone (by simp [he.1])
  by_cases hev : ev = .drain e
  · subst hev
    cases gate_own hcfg hstep with
    | same hzone =>
      have hhand := hand_own hstep hstage (DPc.stage_of_zone (by simp [hzone, he.1]))
      exact .inr ⟨⟨hzone.trans he.1, (h.barrier_eq hstep hhand).trans he.2⟩, hhand.trans hu⟩
    | claim hd | count hd => simp [State.Counted, hd, DPc.zone] at he
    | letIn hzone => simp [State.Counted, hzone] at he
    | release _ hb => simp [State.Counted, hb] at he
    | uncount hd => exact .inl (finished_step hstep (h.ran e u (by simp [hd, DPc.stage]) hu))
  · obtain ⟨hdpc, hhand⟩ := gate_other h hstep hev
    have hhand := hhand hstage
    exact .inr ⟨⟨hdpc ▸ he.1, (h.barrier_eq hstep hhand).trans he.2⟩, hhand.trans hu⟩

/-- What a drainer knows of the earlier tasks stays true. -/
lemma passed_keep (hcfg : 1 < cfg.spawned) (h : Tasks cfg s) (hstep : Step cfg s ev s') {t u : TaskId}
    (ht : t ∈ s.accepted) (hut : [u, t].Sublist s.accepted)
    (hold : ((s.task u).barrier = true → u ∈ s.finished) ∧
      ((s.task t).barrier = true → u ∈ s.finished ∨ ∃ e, s.Counted e ∧ s.hand e = some u)) :
    ((s'.task u).barrier = true → u ∈ s'.finished) ∧
      ((s'.task t).barrier = true → u ∈ s'.finished ∨ ∃ e, s'.Counted e ∧ s'.hand e = some u) := by
  rw [task_step hstep (h.submitted ht), task_step hstep (h.submitted (hut.subset (by simp)))]
  refine ⟨fun hb => finished_step hstep (hold.1 hb), fun hb => ?_⟩
  obtain hfin | ⟨e, he, hhand⟩ := hold.2 hb
  · exact .inl (finished_step hstep hfin)
  · exact (counted_step hcfg h hstep he hhand).imp_right fun hnew => ⟨e, hnew⟩

lemma passed_step (hcfg : 1 < cfg.spawned) (h : Gate cfg s) (hpassed : s.Passed) (hstep : Step cfg s ev s')
    (hturn : GateInTurn s ev s') : s'.Passed := by
  intro d t hzone' ht' u hut'
  have hkeep (hzone : (s.dpc d).zone ≠ .outside) (ht : s.hand d = some t) :=
    have hacc := h.tasks.hand_accepted ht
    have hut := order_step h.tasks hstep hacc hut'
    passed_keep hcfg h.tasks hstep hacc hut (hpassed d t hzone ht u hut)
  by_cases hev : ev = .drain d
  · subst hev
    have hhand (hd : (s.dpc d).stage ≠ .free) : s.hand d = some t :=
      (hand_own hstep hd (DPc.stage_of_zone hzone')).symm.trans ht'
    have hgate (hd : s.dpc d = .test .pending) (hp : s.barrierPending = false) :
        ((s'.task u).barrier = true → u ∈ s'.finished) ∧
          ((s'.task t).barrier = true → u ∈ s'.finished ∨ ∃ e, s'.Counted e ∧ s'.hand e = some u) := by
      have ht := hhand (by simp [hd, DPc.stage])
      have hacc := h.tasks.hand_accepted ht
      have hut := order_step h.tasks hstep hacc hut'
      have hbefore := h.before hd hp (hturn d rfl hd hp) ht hut
      refine passed_keep hcfg h.tasks hstep hacc hut ⟨fun hb => ?_, fun hb => hbefore (.inr hb)⟩
      obtain hfin | ⟨e, he, hu⟩ := hbefore (.inl hb)
      · exact hfin
      · simp [State.Counted, State.barrier, hu, hb] at he
    cases gate_own hcfg hstep with
    | same hzone =>
      rw [hzone] at hzone'
      exact hkeep hzone' (hhand (DPc.stage_of_zone hzone'))
    | letIn hzone => exact hkeep (by simp [hzone]) (hhand (DPc.stage_of_zone (by simp [hzone])))
    | claim hd hp => exact hgate hd hp
    | count hd hp => exact hgate hd hp
    | release _ _ hout | uncount _ _ hout => exact absurd hout hzone'
  · obtain ⟨hdpc, hhand⟩ := gate_other h.tasks hstep hev
    rw [hdpc] at hzone'
    exact hkeep hzone' ((hhand (DPc.stage_of_zone hzone')).symm.trans ht')

lemma barrierOrder_step (hcfg : 1 < cfg.spawned) (h : Gate cfg s) (hpassed : s.Passed) (horder : s.BarrierOrder)
    (hstep : Step cfg s ev s') : s'.BarrierOrder := by
  intro u t hut' hb hstarted'
  have hkeep (ht : t ∈ s.accepted)
      (hfin : [u, t].Sublist s.accepted → (s.task u).barrier = true ∨ (s.task t).barrier = true → u ∈ s.finished) :
      u ∈ s'.finished := by
    have hut := order_step h.tasks hstep ht hut'
    rw [task_step hstep (h.tasks.submitted ht), task_step hstep (h.tasks.submitted (hut.subset (by simp)))] at hb
    exact finished_step hstep (hfin hut hb)
  obtain heq | ⟨d, v, rfl, hd, hv, heq⟩ := started_step hcfg hstep
  · rw [heq] at hstarted'
    exact hkeep (h.tasks.started_accepted hstarted') fun hut hb => horder u t hut hb hstarted'
  · rw [heq, List.map_append, List.mem_append] at hstarted'
    obtain hstarted | hnew := hstarted'
    · exact hkeep (h.tasks.started_accepted hstarted) fun hut hb => horder u t hut hb hstarted
    · obtain rfl : t = v := by simpa using hnew
      refine hkeep (h.tasks.hand_accepted hv) fun hut hb => ?_
      have hp := hpassed d t (by simp [hd, DPc.zone]) hv u hut
      obtain hb | hb := hb
      · exact hp.1 hb
      · -- a barrier starts when nobody is counted any more
        have hrole : s.gate.role d = .alone := by simp [State.gate, hd, State.barrier, hv, hb, DPc.zone, Zone.role]
        refine (hp.2 hb).resolve_right ?_
        rintro ⟨e, he, -⟩
        exact h.turnstile.not_shared (h.turnstile.alone d hrole) e ((s.shared_iff e).mpr he)

/-! ## Runs -/

/-- If the drainers pass the gate in turn, the barriers are in order: a barrier starts when every task that was
accepted before it has finished, and no task that was accepted after it starts before it has finished. -/
theorem barriers_in_order (cfg : Config) (hcfg : 1 < cfg.spawned) (s : State)
    (h : Reachable (Restrict (Step cfg) GateInTurn) (.create cfg) s) : s.BarrierOrder := by
  have hinv : Gate cfg s ∧ s.Passed ∧ s.BarrierOrder := by
    refine Reachable.invariant (I := fun s => Gate cfg s ∧ s.Passed ∧ s.BarrierOrder) ⟨gate_create cfg, ?_, ?_⟩ ?_ h
    · intro d t hzone
      simp only [State.create] at hzone
      split at hzone <;> simp [DPc.zone] at hzone
    · simp [State.BarrierOrder, State.create]
    · rintro s ev s' ⟨hgate, hpassed, horder⟩ ⟨hstep, hturn⟩
      exact ⟨gate_step hcfg hgate hstep, passed_step hcfg hgate hpassed hstep hturn,
        barrierOrder_step hcfg hgate hpassed horder hstep⟩
  exact hinv.2.2

/-- Who is alone on the way is in turn. -/
lemma State.inTurn_of_only {d : DrainerId} (hnd : s.accepted.Nodup) (h : ∀ e, e ≠ d → s.hand e = none) :
    s.InTurn d := by
  intro e u t ht hu _ _ hut
  obtain rfl : e = d := by
    by_contra hne
    simp [h e hne] at hu
  obtain rfl : t = u := Option.some.inj (ht.symm.trans hu)
  exact absurd (hut.nodup hnd) (by simp)

/-- A barrier behind another task, one after the other. -/
lemma in_turn : ∃ s, Reachable (Restrict (Step .two) GateInTurn) (.create .two) s ∧ s.accepted = [0, 1] ∧
    s.started = [(0, 0), (1, 1)] ∧ (s.task 1).barrier = true := by
  have hother {s s' : State} {as : List Event} {r : State} {ev : Event}
      (hstep : Step .two s ev s') (hev : ∀ d, ev ≠ .drain d)
      (hrun : Run (Restrict (Step .two) GateInTurn) s' as r) :
      Run (Restrict (Step .two) GateInTurn) s (ev :: as) r :=
    .cons ⟨hstep, fun d hd => absurd hd (hev d)⟩ hrun
  have hdrain {s s' : State} {d : DrainerId} {as : List Event} {r : State}
      (hstep : Step .two s (.drain d) s') (hpc : s.dpc d ≠ .test .pending)
      (hrun : Run (Restrict (Step .two) GateInTurn) s' as r) :
      Run (Restrict (Step .two) GateInTurn) s (.drain d :: as) r :=
    .cons ⟨hstep, fun e he hpc' => absurd (Event.drain.inj he ▸ hpc') hpc⟩ hrun
  have hgate {s s' : State} {d : DrainerId} {as : List Event} {r : State}
      (hstep : Step .two s (.drain d) s') (hnd : s.accepted.Nodup) (honly : ∀ e, e ≠ d → s.hand e = none)
      (hrun : Run (Restrict (Step .two) GateInTurn) s' as r) :
      Run (Restrict (Step .two) GateInTurn) s (.drain d :: as) r :=
    .cons ⟨hstep, fun e he _ _ => Event.drain.inj he ▸ State.inTurn_of_only hnd honly⟩ hrun
  refine ⟨?_, ⟨[.call 0 ⟨.async, false, false⟩, .submit 0, .submit 0, .call 1 ⟨.barrier, false, false⟩, .submit 1,
    .submit 1, .drain 0, .drain 0, .drain 0, .drain 0, .drain 0, .drain 0, .drain 0, .drain 0, .drain 0, .drain 0,
    .drain 0, .drain 0, .drain 0, .drain 0, .drain 0, .drain 1, .drain 1, .drain 1, .drain 1, .drain 1, .drain 1,
    .drain 1, .drain 1], ?run⟩, ?facts⟩
  case run =>
    refine hother (.call _ rfl) (by simp) ?_
    refine hother (.submit rfl) (by simp) ?_
    refine hother (.sendPush (.inr rfl) rfl rfl (by decide)) (by simp) ?_
    refine hother (.call _ rfl) (by simp) ?_
    refine hother (.submit rfl) (by simp) ?_
    refine hother (.sendPush (.inr rfl) rfl rfl (by decide)) (by simp) ?_
    -- the first drainer executes task 0
    refine hdrain (.control (.go rfl)) (by decide) ?_
    refine hdrain (.recvPop rfl rfl rfl) (by decide) ?_
    refine hdrain (.control (.lock (by decide))) (by decide) ?_
    refine hdrain (.control (.go rfl)) (by decide) ?_
    refine hdrain (.lockFree rfl (.inl rfl) rfl) (by decide) ?_
    refine hgate (.enter rfl rfl rfl rfl) (by decide) (by simp +contextual [State.create]) ?_
    refine hdrain (.start rfl rfl) (by decide) ?_
    refine hdrain (.bodyReturn rfl rfl) (by decide) ?_
    refine hdrain (.control (.go rfl)) (by decide) ?_
    refine hdrain (.lockFree rfl (.inr rfl) rfl) (by decide) ?_
    refine hdrain (.leave rfl rfl rfl) (by decide) ?_
    refine hdrain (.broadcast rfl) (by decide) ?_
    refine hdrain (.unlockEnd rfl) (by decide) ?_
    refine hdrain (.finish rfl rfl) (by decide) ?_
    refine hdrain (.workEnd rfl) (by decide) ?_
    -- and then the second one executes the barrier
    refine hdrain (.control (.go rfl)) (by decide) ?_
    refine hdrain (.recvPop rfl rfl rfl) (by decide) ?_
    refine hdrain (.control (.lock (by decide))) (by decide) ?_
    refine hdrain (.control (.go rfl)) (by decide) ?_
    refine hdrain (.lockFree rfl (.inl rfl) rfl) (by decide) ?_
    refine hgate (.enterBarrier rfl rfl rfl rfl) (by decide) (fun e he => ?_) ?_
    · simp [he, State.create, State.condBroadcast, State.mutexUnlock, Call.task]
    refine hdrain (.control (.alone rfl)) (by decide) ?_
    refine hdrain (.start rfl rfl) (by decide) ?_
    exact .nil _
  case facts => exact ⟨rfl, rfl, rfl⟩

theorem barriers_in_order_two : ∃ s : State, s.started = [(0, 0), (1, 1)] ∧ [0, 1].Sublist s.accepted ∧
    (s.task 1).barrier = true ∧ s.BarrierOrder := by
  obtain ⟨s, hs, hacc, hstarted, hb⟩ := in_turn
  exact ⟨s, hstarted, by simp [hacc], hb, barriers_in_order .two (by decide) s hs⟩

/-- The barrier of `overtaken` is started, and the task before it is not finished. -/
theorem barrier_overtakes : ¬ ∀ (cfg : Config) (s : State), 1 < cfg.spawned →
    Reachable (Step cfg) (.create cfg) s → s.BarrierOrder := by
  intro h
  obtain ⟨s, hs, hacc, hstarted, hfin, hb, -⟩ := overtaken
  have := h .two s (by decide) hs 0 1 (by simp [hacc]) (.inr hb) (by simp [hstarted])
  simp [hfin] at this

end Suspenders.Queue
