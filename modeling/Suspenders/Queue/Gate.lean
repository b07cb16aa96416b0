import Mathlib.Data.Finset.Card
import Mathlib.Data.Finset.Range
import Suspenders.Lib.Turnstile
import Suspenders.Queue.Once

/-!
# Barriers run alone

A drainer of a concurrent queue passes a gate before it calls the function of its task: it sets `barrier_pending` or
counts `active` up, and takes this back afterwards.  The drainers and these two variables are a turnstile
(`State.gate`): every step of the queue is a step of the turnstile, or none (`step_gate`).
-/

namespace Suspenders.Queue

open Lib

/-- Where a drainer is with respect to the gate. -/
inductive Zone
  | outside
  /-- `barrier_pending` is set, and other tasks are still executed. -/
  | settling
  /-- The task may be executed. -/
  | entered
  deriving DecidableEq

def DPc.zone : DPc → Zone
  | test .active | pre (.cond .active) | cs (.cond .active) | condUnlock .active | blk (.cond .active)
  | relock .active | relockBlk .active => .settling
  | unlock | body | pre .leave | cs .leave | blk .leave | release => .entered
  | _ => .outside

/-- What a drainer does at the turnstile. -/
def Zone.role : Zone → Bool → Role
  | outside, _ => .outside
  | settling, _ => .settling
  | entered, true => .alone
  | entered, false => .shared

namespace State

variable (s : State)

/-- The task of drainer `d` is a barrier. -/
def barrier (d : DrainerId) : Bool := (s.hand d).any fun t => (s.task t).barrier

/-- Drainer `d` is between setting and clearing `barrier_pending`. -/
def Holding (d : DrainerId) : Prop :=
  (s.dpc d).zone = .settling ∨ (s.dpc d).zone = .entered ∧ s.barrier d = true

/-- Drainer `d` is between counting `active` up and down. -/
def Counted (d : DrainerId) : Prop := (s.dpc d).zone = .entered ∧ s.barrier d = false

instance (d : DrainerId) : Decidable (s.Counted d) := inferInstanceAs (Decidable (_ ∧ _))

/-- The drainers at the gate. -/
def gate : Turnstile DrainerId where
  role := fun d => (s.dpc d).zone.role (s.barrier d)
  active := s.active
  pending := s.barrierPending

lemma exclusive_iff (d : DrainerId) : s.gate.Exclusive d ↔ s.Holding d := by
  unfold Turnstile.Exclusive Holding gate
  cases hz : (s.dpc d).zone <;> cases hb : s.barrier d <;> simp [hz, hb, Zone.role]

lemma shared_iff (d : DrainerId) : s.gate.role d = .shared ↔ s.Counted d := by
  unfold Counted gate
  cases hz : (s.dpc d).zone <;> cases hb : s.barrier d <;> simp [hz, hb, Zone.role]

end State

variable {cfg : Config} {s s' : State} {ev : Event}

/-! ## One step -/

/-- What the step of drainer `d` does at the gate. -/
inductive GateStep (s s' : State) (d : DrainerId) : Prop
  | same : (s'.dpc d).zone = (s.dpc d).zone → s'.active = s.active → s'.barrierPending = s.barrierPending →
      GateStep s s' d
  /-- A barrier sets `barrier_pending`. -/
  | claim : s.dpc d = .test .pending → s.barrierPending = false → s.barrier d = true →
      (s'.dpc d).zone = .settling → s'.active = s.active → s'.barrierPending = true → GateStep s s' d
  /-- The other tasks are finished. -/
  | letIn : (s.dpc d).zone = .settling → s.active = 0 → (s'.dpc d).zone = .entered → s'.active = s.active →
      s'.barrierPending = s.barrierPending → GateStep s s' d
  | count : s.dpc d = .test .pending → s.barrierPending = false → s.barrier d = false →
      (s'.dpc d).zone = .entered → s'.active = s.active + 1 → s'.barrierPending = false → GateStep s s' d
  /-- A barrier clears `barrier_pending`. -/
  | release : s.dpc d = .release → s.barrier d = true → (s'.dpc d).zone = .outside →
      s'.active = s.active → s'.barrierPending = false → GateStep s s' d
  | uncount : s.dpc d = .release → s.barrier d = false → (s'.dpc d).zone = .outside →
      s'.active = s.active - 1 → s'.barrierPending = s.barrierPending → GateStep s s' d

lemma gate_own (hcfg : 1 < cfg.spawned) {d : DrainerId} (hstep : Step cfg s (.drain d) s') : GateStep s s' d := by
  cases hstep with
  | control hd =>
    generalize hp : s.dpc d = p at hd
    cases hd with
    | @go c => exact .same (by rcases c with _ | _ | _ | (_ | _) <;> simp [hp, DPc.zone]) rfl rfl
    | @lockOwn c hc =>
      obtain rfl | rfl := hc
      · exact .same (by simp [hp, DPc.zone, DCall.after]) rfl rfl
      · exact .same (by simp [hp, DPc.zone, DCall.after]) rfl rfl
    | alone h0 => exact .letIn (by simp [hp, DPc.zone]) h0 (by simp [DPc.zone]) rfl rfl
    | @relocked ph => exact .same (by cases ph <;> simp [hp, DPc.zone]) rfl rfl
    | @relockFailed ph => exact .same (by cases ph <;> simp [hp, DPc.zone]) rfl rfl
    | _ => exact .same (by simp [hp, DPc.zone, DCall.after]) rfl rfl
  | @preFailed _ c st hd hst =>
    refine .same ?_ rfl rfl
    obtain rfl | rfl | rfl := State.entry_code hst
    all_goals rcases c with _ | _ | _ | (_ | _) <;> simp [hd, DPc.zone, DCall.after]
  | @woken _ c st hd hst =>
    refine .same ?_ rfl rfl
    rcases c with _ | _ | _ | (_ | _) <;> cases st <;> simp [hd, DPc.zone, DCall.after]
  | lockFree hd hc | lockPark hd hc =>
    obtain rfl | rfl := hc
    · exact .same (by simp [hd, DPc.zone, DCall.after]) rfl rfl
    · exact .same (by simp [hd, DPc.zone, DCall.after]) rfl rfl
  | @condPark _ ph hd => exact .same (by cases ph <;> simp [hd, DPc.zone]) rfl rfl
  | @condUnlock _ ph hd =>
    rw [State.mutexUnlock_eq]
    exact .same (by cases ph <;> simp [hd, DPc.zone]) rfl rfl
  | @relockFree _ ph hd => exact .same (by cases ph <;> simp [hd, DPc.zone]) rfl rfl
  | @relockPark _ _ ph hd => exact .same (by cases ph <;> simp [hd, DPc.zone]) rfl rfl
  | enterBarrier hd hp ht hb => exact .claim hd hp (by simp [State.barrier, ht, hb]) (by simp [DPc.zone]) rfl rfl
  | enter hd hp ht hb => exact .count hd hp (by simp [State.barrier, ht, hb]) (by simp [DPc.zone]) rfl hp
  | start hd | unlockEnd hd =>
    rw [State.mutexUnlock_eq]
    exact .same (by simp [hd, DPc.zone]) rfl rfl
  | startSerial _ hle => exact absurd hcfg (Nat.not_lt.mpr hle)
  | bodyReturn hd => exact .same (by simp [hd, hcfg, DPc.zone]) rfl rfl
  | leaveBarrier hd ht hb => exact .release hd (by simp [State.barrier, ht, hb]) (by simp [DPc.zone]) rfl rfl
  | leave hd ht hb =>
    refine .uncount hd (by simp [State.barrier, ht, hb]) ?_ rfl rfl
    simp only [State.setD, Function.update_self]
    split <;> simp [DPc.zone]
  | finish hd =>
    simp only [State.setD]
    split <;> exact .same (by simp [hd, DPc.zone]) rfl rfl
  | _ => exact .same (by simp_all [DPc.zone, DCall.after, State.condBroadcast, State.drainDone]) rfl rfl

/-- A drainer keeps its task from the gate to the release. -/
lemma hand_own {d : DrainerId} (hstep : Step cfg s (.drain d) s') (hd : (s.dpc d).stage ≠ .free)
    (hd' : (s'.dpc d).stage ≠ .free) : s'.hand d = s.hand d := by
  cases hstep with
  | condUnlock | start | unlockEnd => rw [State.mutexUnlock_eq]; rfl
  | recvPop h | recvRefill h | recvDirect h => simp [h, DPc.stage] at hd
  | finish =>
    simp only [State.setD]
    split <;> rfl
  | workEnd => simp [DPc.stage] at hd'
  | _ => rfl

/-- The tasks stay as they were submitted. -/
lemma task_step (hstep : Step cfg s ev s') {t : TaskId} (ht : s.cpc t ≠ .none) : s'.task t = s.task t := by
  cases hstep with
  | condUnlock | start | unlockEnd => rw [State.mutexUnlock_eq]; rfl
  | finish =>
    simp only [State.setD]
    split <;> rfl
  | close =>
    unfold State.chanClose
    split <;> rfl
  | @wake a => cases a <;> rfl
  | @call u _ hu =>
    have hne : t ≠ u := fun heq => ht (heq ▸ hu)
    simp [hne]
  | _ => rfl

lemma gate_of_ne (hstep : Step cfg s ev s') (hev : ∀ d, ev ≠ .drain d) :
    s'.active = s.active ∧ s'.barrierPending = s.barrierPending := by
  cases hstep with
  | close =>
    unfold State.chanClose
    split <;> exact ⟨rfl, rfl⟩
  | @wake a => cases a <;> exact ⟨rfl, rfl⟩
  | _ => first
    | exact ⟨rfl, rfl⟩
    | exact absurd rfl (hev _)

/-- A task that a drainer has is accepted. -/
lemma Tasks.hand_accepted (h : Tasks cfg s) {d : DrainerId} {t : TaskId} (ht : s.hand d = some t) :
    t ∈ s.accepted := by
  by_cases hran : (s.dpc d).stage = .ran
  · exact h.pool.part.mem (show t ∈ s.pool.places .finished from h.ran d t hran ht)
  · have hmem : t ∈ s.pool.places (.hand d) := by simp [Pool.places, State.pool, hran, ht]
    exact h.pool.part.mem hmem

/-- A task that is accepted was submitted. -/
lemma Tasks.submitted (h : Tasks cfg s) {t : TaskId} (ht : t ∈ s.accepted) : s.cpc t ≠ .none := by
  intro hc
  have := h.caller t
  simp only [State.CallerOk, hc] at this
  exact this ht

/-- The step of somebody else does not move a drainer at the gate. -/
lemma gate_other (h : Tasks cfg s) (hstep : Step cfg s ev s') {e : DrainerId} (hev : ev ≠ .drain e) :
    s'.dpc e = s.dpc e ∧ ((s.dpc e).stage ≠ .free → s'.hand e = s.hand e) := by
  obtain ⟨hdpc, hnode⟩ := step_other h.chan.parked hstep hev
  refine ⟨hdpc, fun hstage => ?_⟩
  cases hnode with
  | same _ hhand => exact hhand
  | failed _ _ _ hhand => exact hhand
  | @granted l _ _ hlist _ _ hsame =>
    refine hsame fun hl => hstage ?_
    subst hl
    simp [DPc.eq_of_list hlist, DPc.stage]

lemma DPc.stage_of_zone {p : DPc} (h : p.zone ≠ .outside) : p.stage ≠ .free := by
  rcases p with _ | c | c | c | _ | _ | _ | _ | _ | _ | _ | _ | _ | _ | _ | _ | _ | _ <;>
    first
    | (rcases c with _ | _ | _ | (_ | _) <;> simp_all [DPc.zone, DPc.stage])
    | simp_all [DPc.zone, DPc.stage]

/-- The task of a drainer is what it was. -/
lemma Tasks.barrier_eq (h : Tasks cfg s) (hstep : Step cfg s ev s') {e : DrainerId} (hhand : s'.hand e = s.hand e) :
    s'.barrier e = s.barrier e := by
  unfold State.barrier
  rw [hhand]
  cases ht : s.hand e with
  | none => rfl
  | some t => simp [task_step hstep (h.submitted (h.hand_accepted ht))]


/-- The step of somebody else at the gate. -/
lemma role_of_ne (h : Tasks cfg s) (hstep : Step cfg s ev s') {e : DrainerId} (hev : ev ≠ .drain e) :
    s'.gate.role e = s.gate.role e := by
  obtain ⟨hdpc, hhand⟩ := gate_other h hstep hev
  simp only [State.gate, hdpc]
  by_cases hzone : (s.dpc e).zone = .outside
  · simp [hzone, Zone.role]
  · rw [h.barrier_eq hstep (hhand (DPc.stage_of_zone hzone))]

/-- A drainer that waits for the others has a barrier. -/
def State.Settling (s : State) : Prop := ∀ d, (s.dpc d).zone = .settling → s.barrier d = true

/-- What drainer `d` does at the turnstile. -/
lemma turnstile_own (hcfg : 1 < cfg.spawned) (h : Tasks cfg s) (hsettling : s.Settling) {d : DrainerId}
    (hstep : Step cfg s (.drain d) s') (hrole : s'.gate = ⟨Function.update s.gate.role d (s'.gate.role d), s'.active, s'.barrierPending⟩) :
    Relation.ReflGen Turnstile.Step s.gate s'.gate := by
  have hbarrier (hz : (s.dpc d).stage ≠ .free) (hz' : (s'.dpc d).stage ≠ .free) : s'.barrier d = s.barrier d :=
    h.barrier_eq hstep (hand_own hstep hz hz')
  cases gate_own hcfg hstep with
  | same hzone hactive hpending =>
    have heq : s'.gate.role d = s.gate.role d := by
      simp only [State.gate, hzone]
      by_cases hout : (s.dpc d).zone = .outside
      · simp [hout, Zone.role]
      · rw [hbarrier (DPc.stage_of_zone hout) (DPc.stage_of_zone (hzone ▸ hout))]
    rw [hrole, heq, Function.update_eq_self, hactive, hpending]
    exact .refl
  | claim hd hp hb hzone hactive hpending =>
    have heq : s'.gate.role d = .settling := by simp [State.gate, hzone, Zone.role]
    rw [hrole, heq, hactive, hpending]
    exact .single (.claim (by simp [State.gate, hd, DPc.zone, Zone.role]) hp)
  | letIn hzone h0 hzone' hactive hpending =>
    have hb : s'.barrier d = true := by
      rw [hbarrier (DPc.stage_of_zone (by simp [hzone])) (DPc.stage_of_zone (by simp [hzone']))]
      exact hsettling d hzone
    have heq : s'.gate.role d = .alone := by simp [State.gate, hzone', hb, Zone.role]
    rw [hrole, heq, hactive, hpending]
    exact .single (.letIn (by simp [State.gate, hzone, Zone.role]) h0)
  | count hd hp hb hzone hactive hpending =>
    have hb' : s'.barrier d = false := by
      rw [hbarrier (by simp [hd, DPc.stage]) (DPc.stage_of_zone (by simp [hzone])), hb]
    have heq : s'.gate.role d = .shared := by simp [State.gate, hzone, hb', Zone.role]
    rw [hrole, heq, hactive, hpending, ← hp]
    exact .single (.count (by simp [State.gate, hd, DPc.zone, Zone.role]) hp)
  | release hd hb hzone hactive hpending =>
    have heq : s'.gate.role d = .outside := by simp [State.gate, hzone, Zone.role]
    rw [hrole, heq, hactive, hpending]
    exact .single (.release (by simp [State.gate, hd, hb, DPc.zone, Zone.role]))
  | uncount hd hb hzone hactive hpending =>
    have heq : s'.gate.role d = .outside := by simp [State.gate, hzone, Zone.role]
    rw [hrole, heq, hactive, hpending]
    exact .single (.uncount (by simp [State.gate, hd, hb, DPc.zone, Zone.role]))

/-- Every step of the queue is a step of the turnstile, or none. -/
lemma step_gate (hcfg : 1 < cfg.spawned) (h : Tasks cfg s) (hsettling : s.Settling) (hstep : Step cfg s ev s') :
    Relation.ReflGen Turnstile.Step s.gate s'.gate := by
  by_cases hdrain : ∃ d, ev = .drain d
  · obtain ⟨d, rfl⟩ := hdrain
    refine turnstile_own hcfg h hsettling hstep ?_
    have hrole : s'.gate.role = Function.update s.gate.role d (s'.gate.role d) := by
      funext e
      by_cases he : e = d
      · simp [he]
      · simp [he, role_of_ne h hstep fun heq => he (Event.drain.inj heq).symm]
    rw [← hrole]
    rfl
  · obtain ⟨hactive, hpending⟩ := gate_of_ne hstep (not_exists.mp hdrain)
    have hrole : s'.gate.role = s.gate.role := by
      funext e
      exact role_of_ne h hstep fun heq => hdrain ⟨e, heq⟩
    have heq : s'.gate = s.gate := by
      show (⟨s'.gate.role, s'.active, s'.barrierPending⟩ : Turnstile DrainerId) = _
      rw [hrole, hactive, hpending]
      rfl
    exact heq ▸ .refl

lemma settling_step (hcfg : 1 < cfg.spawned) (h : Tasks cfg s) (hsettling : s.Settling) (hstep : Step cfg s ev s') :
    s'.Settling := by
  intro d hzone
  by_cases hev : ev = .drain d
  · subst hev
    have hbarrier (hz : (s.dpc d).stage ≠ .free) : s'.barrier d = s.barrier d :=
      h.barrier_eq hstep (hand_own hstep hz (DPc.stage_of_zone (by simp [hzone])))
    cases gate_own hcfg hstep with
    | same hsame =>
      rw [hsame] at hzone
      rw [hbarrier (DPc.stage_of_zone (by simp [hzone]))]
      exact hsettling d hzone
    | claim hd _ hb => rw [hbarrier (by simp [hd, DPc.stage]), hb]
    | letIn _ _ hzone' | count _ _ _ hzone' | release _ _ hzone' | uncount _ _ hzone' => simp [hzone'] at hzone
  · obtain ⟨hdpc, hhand⟩ := gate_other h hstep hev
    rw [hdpc] at hzone
    rw [h.barrier_eq hstep (hhand (DPc.stage_of_zone (by simp [hzone])))]
    exact hsettling d hzone

/-! ## The invariant -/

/-- The gate of a concurrent queue. -/
structure Gate (cfg : Config) (s : State) : Prop where
  tasks : Tasks cfg s
  settling : s.Settling
  turnstile : s.gate.Inv

lemma gate_create (cfg : Config) : Gate cfg (.create cfg) := by
  have hzone (d : DrainerId) : ((State.create cfg).dpc d).zone = .outside := by
    simp only [State.create]
    split <;> rfl
  refine ⟨tasks_create cfg, fun d hd => ?_, ?_⟩
  · simp [hzone] at hd
  · have hinit : (State.create cfg).gate = ⟨fun _ => .outside, 0, false⟩ := by
      simp only [State.gate, hzone]
      rfl
    exact hinit ▸ Turnstile.inv_init

lemma gate_step (hcfg : 1 < cfg.spawned) (h : Gate cfg s) (hstep : Step cfg s ev s') : Gate cfg s' where
  tasks := tasks_step h.tasks hstep
  settling := settling_step hcfg h.tasks h.settling hstep
  turnstile := h.turnstile.stutter (step_gate hcfg h.tasks h.settling hstep)

lemma gate_reachable (hcfg : 1 < cfg.spawned) (h : Reachable (Step cfg) (.create cfg) s) : Gate cfg s :=
  h.invariant (gate_create cfg) fun _ _ _ hg hstep => gate_step hcfg hg hstep

/-- `active` is the number of drainers that are counted. -/
lemma Gate.active_eq (h : Gate cfg s) : s.active = ((Finset.range cfg.spawned).filter s.Counted).card := by
  obtain ⟨l, hnd, hl, hlen⟩ := h.turnstile.active
  have heq : (Finset.range cfg.spawned).filter s.Counted = l.toFinset := by
    ext d
    rw [List.mem_toFinset, hl, State.shared_iff, Finset.mem_filter, Finset.mem_range]
    refine ⟨And.right, fun hd => ⟨?_, hd⟩⟩
    by_contra hge
    simp [State.Counted, (h.tasks.chan.absent d).mpr (Nat.le_of_not_lt hge), DPc.zone] at hd
  rw [heq, List.toFinset_card_of_nodup hnd]
  exact hlen

/-- A drainer that executes a task has passed the gate. -/
lemma State.role_body {d : DrainerId} (hd : s.dpc d = .body) :
    s.gate.role d = if s.barrier d = true then .alone else .shared := by
  cases hb : s.barrier d <;> simp [State.gate, hd, hb, DPc.zone, Zone.role]

/-- A barrier is executed alone; at most one barrier is between setting and clearing `barrier_pending`, which is set
exactly then; and `active` is the number of other tasks between their increment and their decrement. -/
theorem barrier_exclusive (cfg : Config) (hcfg : 1 < cfg.spawned) (s : State)
    (h : Reachable (Step cfg) (.create cfg) s) :
    (∀ d e, s.dpc d = .body → s.barrier d = true → s.dpc e = .body → e = d) ∧
    (∀ d e, s.Holding d → s.Holding e → d = e) ∧
    (s.barrierPending = true ↔ ∃ d, s.Holding d) ∧
    s.active = ((Finset.range cfg.spawned).filter s.Counted).card := by
  have hgate := gate_reachable hcfg h
  refine ⟨fun d e hd hb he => ?_, fun d e hd he => ?_, ?_, hgate.active_eq⟩
  · refine hgate.turnstile.alone_unique (by simp [State.role_body hd, hb]) ?_
    rw [State.role_body he]
    split
    · exact .inl rfl
    · exact .inr rfl
  · exact hgate.turnstile.unique d e ((s.exclusive_iff d).mpr hd) ((s.exclusive_iff e).mpr he)
  · have hpending := hgate.turnstile.pending
    simp only [State.exclusive_iff] at hpending
    exact hpending

/-- Two drainers. -/
def Config.two : Config := ⟨2, by decide, 2, Nat.two_pos, by decide, 256⟩

/-- A barrier overtakes the task before it: its drainer is faster on the way from the channel to the mutex. -/
lemma overtaken : ∃ s, Reachable (Step .two) (.create .two) s ∧ s.accepted = [0, 1] ∧ s.started = [(1, 1)] ∧
    s.finished = [] ∧ (s.task 1).barrier = true ∧ s.hand 1 = some 1 ∧ s.dpc 1 = .body := by
  refine ⟨?_, ⟨[.call 0 ⟨.async, false, false⟩, .submit 0, .submit 0, .call 1 ⟨.barrier, false, false⟩, .submit 1, .submit 1,
    .drain 0, .drain 0, .drain 1, .drain 1, .drain 1, .drain 1, .drain 1, .drain 1, .drain 1, .drain 1], ?run⟩, ?facts⟩
  case run =>
    refine .cons (.call _ rfl) ?_
    refine .cons (.submit rfl) ?_
    refine .cons (.sendPush (.inr rfl) rfl rfl (by decide)) ?_
    refine .cons (.call _ rfl) ?_
    refine .cons (.submit rfl) ?_
    refine .cons (.sendPush (.inr rfl) rfl rfl (by decide)) ?_
    refine .cons (.control (.go rfl)) ?_
    refine .cons (.recvPop rfl rfl rfl) ?_
    refine .cons (.control (.go rfl)) ?_
    refine .cons (.recvPop rfl rfl rfl) ?_
    refine .cons (.control (.lock (by decide))) ?_
    refine .cons (.control (.go rfl)) ?_
    refine .cons (.lockFree rfl (.inl rfl) rfl) ?_
    refine .cons (.enterBarrier rfl rfl rfl rfl) ?_
    refine .cons (.control (.alone rfl)) ?_
    refine .cons (.start rfl rfl) ?_
    exact .nil _
  case facts => exact ⟨rfl, rfl, rfl, rfl, rfl, rfl⟩
theorem barrier_exclusive_two : ∃ s : State, s.dpc 1 = .body ∧ s.barrier 1 = true ∧ s.barrierPending = true ∧
    ∀ e, s.dpc e = .body → e = 1 := by
  obtain ⟨s, hs, -, -, -, hb, hhand, hd⟩ := overtaken
  have hbarrier : s.barrier 1 = true := by simp [State.barrier, hhand, hb]
  have h := barrier_exclusive .two (by decide) s hs
  refine ⟨s, hd, hbarrier, h.2.2.1.mpr ⟨1, .inr ⟨by simp [hd, DPc.zone], hbarrier⟩⟩, fun e he => ?_⟩
  exact h.1 1 e hd hbarrier he

end Suspenders.Queue
