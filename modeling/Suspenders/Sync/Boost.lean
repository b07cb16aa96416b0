import Suspenders.Sync.Owner

/-!
# Boosts

`suspenders_boost` lowers `effective_qos` of its target in a compare-and-exchange loop.  Other contexts may boost the
same coroutine at the same time, and the coroutine may reset its level meanwhile, so every access is a step of its own.
`suspenders_mutex_lock_dl` calls it for the owner when it has parked.

No wait writes `effective_qos`.  Only a successful `suspenders_mutex_unlock` puts it back to `base_qos`, that of
`suspenders_cond_wait_dl` included, and so a boost lasts until the coroutine unlocks a mutex (`boost_until_unlock`).
-/

namespace Suspenders.Sync

open Lib Wait Function

/-- Where a context is in `suspenders_boost`. -/
inductive BoostPc
  /-- In `suspenders_mutex_lock_dl`, before it reads its own level. -/
  | arg (target : Ctx)
  /-- Before it reads the level of the target. -/
  | load (target : Ctx) (new : ℤ)
  /-- At the test of the loop. -/
  | test (target : Ctx) (new current : ℤ)

/-- The wait protocol with the levels. -/
structure LevelState where
  core : Core
  /-- `effective_qos` -/
  eff : Ctx → ℤ
  /-- The calls of `suspenders_boost` in progress. -/
  boosting : Ctx → Option BoostPc

/-- What a context does. -/
inductive LevelAct
  /-- A step of the wait protocol. -/
  | step (e : Event)
  /-- A call of `suspenders_boost`. -/
  | boost (a target : Ctx) (new : ℤ)
  /-- A load of it. -/
  | load (a : Ctx)
  /-- The exchange succeeds. -/
  | exchange (a target : Ctx) (new : ℤ)
  /-- The exchange fails, -/
  | retry (a : Ctx)
  /-- or the loop is over. -/
  | leave (a : Ctx)

/-- A successful unlock. -/
def unlocksMutex (e : Event) : Bool :=
  match e.act with
  | .crit (.unlock _) _ out => out.res = .ret .ok
  | _ => false

/-- The owner that a lock call boosts: it has parked. -/
def boostee (s : Core) (e : Event) : Option Ctx :=
  match e.act with
  | .crit (.lock m) _ out =>
    match out.res with
    | .park _ _ _ => s.heap.owner m
    | .ret _ => none
  | _ => none

namespace LevelState

/-- Context `a` is at `pc` in `suspenders_boost`. -/
def setBoosting (s : LevelState) (a : Ctx) (pc : Option BoostPc) : LevelState :=
  { s with boosting := update s.boosting a pc }

/-- The level of `a` becomes `x`. -/
def setEff (s : LevelState) (a : Ctx) (x : ℤ) : LevelState := { s with eff := update s.eff a x }

/-- What a step of the wait protocol does besides. -/
def after (base : Ctx → ℤ) (s : LevelState) (e : Event) (t : Core) : LevelState where
  core := t
  eff := if unlocksMutex e then update s.eff e.ctx (base e.ctx) else s.eff
  boosting := update s.boosting e.ctx ((boostee s.core e).map .arg)

end LevelState

/-- The steps.  A context that boosts somebody takes no other step. -/
inductive LevelStep (base : Ctx → ℤ) : LevelState → LevelAct → LevelState → Prop
  | step {s : LevelState} {e : Event} {t : Core} :
      s.boosting e.ctx = none → Step s.core e t → LevelStep base s (.step e) (s.after base e t)
  | boost {s : LevelState} {a : Ctx} (target : Ctx) (new : ℤ) :
      s.core.pc a = .idle → s.core.work a = [] → s.boosting a = none →
      LevelStep base s (.boost a target new) (s.setBoosting a (some (.load target new)))
  | arg {s : LevelState} {a target : Ctx} :
      s.boosting a = some (.arg target) → LevelStep base s (.load a) (s.setBoosting a (some (.load target (s.eff a))))
  | load {s : LevelState} {a target : Ctx} {new : ℤ} :
      s.boosting a = some (.load target new) →
      LevelStep base s (.load a) (s.setBoosting a (some (.test target new (s.eff target))))
  | exchange {s : LevelState} {a target : Ctx} {new current : ℤ} :
      s.boosting a = some (.test target new current) → new < current → s.eff target = current →
      LevelStep base s (.exchange a target new) ((s.setEff target new).setBoosting a none)
  /-- The exchange is a weak one: it may fail for no reason. -/
  | retry {s : LevelState} {a target : Ctx} {new current : ℤ} :
      s.boosting a = some (.test target new current) → new < current →
      LevelStep base s (.retry a) (s.setBoosting a (some (.load target new)))
  | leave {s : LevelState} {a target : Ctx} {new current : ℤ} :
      s.boosting a = some (.test target new current) → ¬ new < current →
      LevelStep base s (.leave a) (s.setBoosting a none)

/-- The coroutine has parked in a critical section, sleeps, or switches away in a wait loop. -/
def parksCaller (e : Event) : Bool :=
  match e.act with
  | .crit _ _ out =>
    match out.res with
    | .park _ _ _ => true
    | .ret _ => false
  | .sleepPark | .suspend => true
  | _ => false

/-- What is recorded. -/
structure LevelHist where
  /-- Whether the context has parked in its call. -/
  parked : Ctx → Bool
  /-- The level of the last boost that has raised it since its last unlock. -/
  raised : Ctx → Option ℤ

namespace LevelHist

/-- Nothing has happened. -/
def init : LevelHist := ⟨fun _ => false, fun _ => none⟩

/-- Whether context `a` has parked in its call. -/
def parkedAfter (h : LevelHist) (e : Event) : Bool :=
  match e.act with
  | .call _ => false
  | _ => h.parked e.ctx || parksCaller e

/-- What a step records. -/
def record (h : LevelHist) (_ : LevelState) : LevelAct → LevelHist
  | .step e =>
    { parked := update h.parked e.ctx (h.parkedAfter e)
      raised := if unlocksMutex e then update h.raised e.ctx none else h.raised }
  | .exchange _ target new => { h with raised := update h.raised target (some new) }
  | _ => h

end LevelHist

/-- A recorded step. -/
abbrev LevelRun (base : Ctx → ℤ) : LevelState × LevelHist → LevelAct → LevelState × LevelHist → Prop :=
  Recorded (LevelStep base) LevelHist.record

/-- Everybody has the level it was spawned with. -/
def LevelState.init (base : Ctx → ℤ) (cfg : Config) : LevelState × LevelHist :=
  (⟨.init cfg, base, fun _ => none⟩, .init)

/-- A coroutine returns from a call in which it has parked. -/
def ReturnsFromWait (p : LevelState × LevelHist) (e : Event) (c : CrId) : Prop :=
  e.ctx = .co c ∧ p.2.parked (.co c) = true ∧ ((∃ code, e.act = .ret code) ∨ ∃ i code, e.act = .selRet i code)

/-- The documented end of a boost: a coroutine that owns no mutex returns from such a call with its own level. -/
def RevertsInWait (base : Ctx → ℤ) (p : LevelState × LevelHist) : Prop :=
  ∀ e q c, LevelRun base p (.step e) q → ReturnsFromWait p e c → (∀ m, p.1.core.heap.owner m ≠ some (.co c)) →
    q.1.eff (.co c) = base (.co c)

/-- Coroutine 0 has level 2 and sleeps, coroutine 1 boosts it to level 0, and it returns from the sleep with level 0. -/
theorem boost_outlasts_sleep : ¬ ∀ base cfg p, Reachable (LevelRun base) (LevelState.init base cfg) p → RevertsInWait base p := by
  intro h
  have step {p : LevelState × LevelHist} {act : LevelAct} {t : LevelState} (hstep : LevelStep (fun _ => 2) p.1 act t) :
      LevelRun (fun _ => 2) p act (t, p.2.record p.1 act) := ⟨hstep, rfl⟩
  have hreach : Reachable (LevelRun fun _ => 2) (LevelState.init (fun _ => 2) fun _ => (1, 0)) _ :=
    ⟨_, .cons (step (.step rfl (.local (a := .co 0) rfl (.call .sleep 0 trivial)))) <|
      .cons (step (.step rfl (.local (a := .co 0) rfl (.preGo 0)))) <|
      .cons (step (.step rfl (.sleepPark (c := 0) rfl rfl))) <|
      .cons (step (.step rfl (.testWaiting (c := 0) rfl rfl rfl))) <|
      .cons (step (.step rfl (.suspend (c := 0) rfl rfl))) <|
      .cons (step (.boost (a := .co 1) (.co 0) 0 rfl rfl rfl)) <|
      .cons (step (.load (a := .co 1) rfl)) <|
      .cons (step (.exchange (a := .co 1) rfl (by decide) rfl)) <|
      .cons (step (.step rfl (.sleepFire (w := 0) (t := 0) rfl rfl (.inl rfl) rfl))) <|
      .cons (step (.step rfl (.wake (a := .sched 0) rfl))) <|
      .cons (step (.step rfl (.testDecided (c := 0) rfl rfl (by decide)))) <|
      .cons (step (.step rfl (.decided (c := 0) rfl rfl rfl rfl))) <| .nil _⟩
  have hret := h _ _ _ hreach _ _ 0 (step (.step rfl (.local (a := .co 0) rfl .ret))) ⟨rfl, rfl, .inl ⟨_, rfl⟩⟩ nofun
  exact absurd hret (by decide)

/-! ## The level of a coroutine -/

/-- A context has the level of the last boost that has raised it since its last unlock, or that it was spawned with. -/
structure LevelInv (base : Ctx → ℤ) (p : LevelState × LevelHist) : Prop where
  eff : ∀ a, p.1.eff a = (p.2.raised a).getD (base a)
  lt : ∀ a x, p.2.raised a = some x → x < base a

section Step

variable {base : Ctx → ℤ} {p q : LevelState × LevelHist} {act : LevelAct}

lemma LevelInv.eff_le (h : LevelInv base p) (a : Ctx) : p.1.eff a ≤ base a := by
  rw [h.eff a]
  cases hx : p.2.raised a with
  | none => exact le_rfl
  | some x => exact (h.lt a x hx).le

/-- Only an unlock and an exchange change levels. -/
lemma levelStep_cases (hstep : LevelRun base p act q) :
    (q.1.eff = p.1.eff ∧ q.2.raised = p.2.raised) ∨
    (∃ e, act = .step e ∧ q.1.eff = update p.1.eff e.ctx (base e.ctx) ∧ q.2.raised = update p.2.raised e.ctx none) ∨
    ∃ a new, new < p.1.eff a ∧ q.1.eff = update p.1.eff a new ∧ q.2.raised = update p.2.raised a (some new) := by
  obtain ⟨s, h⟩ := p
  obtain ⟨t, h'⟩ := q
  obtain ⟨hstep, rfl⟩ := hstep
  cases hstep with
  | @step e _ _ _ =>
    cases hunlock : unlocksMutex e with
    | false => exact .inl ⟨rfl, by simp [LevelHist.record, hunlock]⟩
    | true => exact .inr (.inl ⟨e, rfl, rfl, by simp [LevelHist.record, hunlock]⟩)
  | exchange _ hlt heq => exact .inr (.inr ⟨_, _, heq ▸ hlt, rfl, rfl⟩)
  | boost _ _ _ _ _ | arg _ | load _ | retry _ _ | leave _ _ => exact .inl ⟨rfl, rfl⟩

/-- The level of one context changes. -/
lemma LevelInv.update (h : LevelInv base p) {a : Ctx} {x : ℤ} {y : Option ℤ} (hx : x = y.getD (base a))
    (hy : ∀ z, y = some z → z < base a) (heff : q.1.eff = Function.update p.1.eff a x)
    (hraised : q.2.raised = Function.update p.2.raised a y) : LevelInv base q := by
  refine ⟨fun b => ?_, fun b z hz => ?_⟩
  · rw [heff, hraised]
    by_cases hb : b = a
    · rw [hb, update_self, update_self, hx]
    · rw [update_of_ne hb, update_of_ne hb, h.eff b]
  · rw [hraised] at hz
    by_cases hb : b = a
    · rw [hb, update_self] at hz
      exact hb ▸ hy z hz
    · rw [update_of_ne hb] at hz
      exact h.lt b z hz

lemma levelInv_step (h : LevelInv base p) (hstep : LevelRun base p act q) : LevelInv base q := by
  rcases levelStep_cases hstep with ⟨heff, hraised⟩ | ⟨e, -, heff, hraised⟩ | ⟨a, new, hlt, heff, hraised⟩
  · exact ⟨fun b => by rw [heff, hraised, h.eff b], fun b x hx => h.lt b x (by rwa [hraised] at hx)⟩
  · exact h.update rfl (fun z hz => by cases hz) heff hraised
  · refine h.update rfl (fun z hz => ?_) heff hraised
    cases hz
    exact hlt.trans_le (h.eff_le a)

/-- A step of `suspenders_boost` makes nobody less urgent. -/
lemma boost_eff_le (hstep : LevelRun base p act q) (hact : ∀ e, act ≠ .step e) (a : Ctx) : q.1.eff a ≤ p.1.eff a := by
  rcases levelStep_cases hstep with ⟨heff, -⟩ | ⟨e, heq, -⟩ | ⟨b, new, hlt, heff, -⟩
  · rw [heff]
  · exact absurd heq (hact e)
  · rw [heff]
    by_cases ha : a = b
    · rw [ha, update_self]
      exact hlt.le
    · rw [update_of_ne ha]

end Step

/-- When a coroutine returns from a call in which it has parked, it has its own level if and only if no boost has
raised it since its last unlock; otherwise it has the level of the last such boost.  A boost makes nobody less urgent
than before. -/
theorem boost_until_unlock {base : Ctx → ℤ} {cfg : Config} {p : LevelState × LevelHist}
    (hp : Reachable (LevelRun base) (LevelState.init base cfg) p) :
    (∀ e q c, LevelRun base p (.step e) q → ReturnsFromWait p e c →
      (q.1.eff (.co c) = base (.co c) ↔ q.2.raised (.co c) = none) ∧
      ∀ x, q.2.raised (.co c) = some x → q.1.eff (.co c) = x) ∧
    ∀ act q, LevelRun base p act q → (∀ e, act ≠ .step e) → ∀ a, q.1.eff a ≤ p.1.eff a := by
  have hI : LevelInv base p := by
    refine hp.invariant ⟨fun _ => rfl, fun a x hx => by cases hx⟩ fun p act q h hstep => ?_
    exact levelInv_step h hstep
  refine ⟨fun e q c hstep _ => ?_, fun act q hstep hact a => boost_eff_le hstep hact a⟩
  have hq := levelInv_step hI hstep
  have heff := hq.eff (.co c)
  refine ⟨⟨fun hbase => ?_, fun hnone => ?_⟩, fun x hx => ?_⟩
  · cases hx : q.2.raised (.co c) with
    | none => rfl
    | some x =>
      rw [hx] at heff
      exact absurd (heff.symm.trans hbase) (hq.lt _ x hx).ne
  · rw [heff, hnone]
    rfl
  · rw [heff, hx]
    rfl

/-- Coroutine 0 has level 2 and is boosted to level 0; it locks and unlocks a mutex, sleeps, and returns with its own
level. -/
theorem boost_until_unlock_then_sleep : ∃ (p : LevelState × LevelHist) (e : Event) (q : LevelState × LevelHist),
    p.1.eff (.co 0) = 2 ∧ LevelRun (fun _ => 2) p (.step e) q ∧ ReturnsFromWait p e 0 ∧ q.1.eff (.co 0) = 2 := by
  have step {p : LevelState × LevelHist} {act : LevelAct} {t : LevelState} (hstep : LevelStep (fun _ => 2) p.1 act t) :
      LevelRun (fun _ => 2) p act (t, p.2.record p.1 act) := ⟨hstep, rfl⟩
  have hreach : Reachable (LevelRun fun _ => 2) (LevelState.init (fun _ => 2) fun _ => (1, 0)) _ :=
    ⟨_, .cons (step (.boost (a := .co 1) (.co 0) 0 rfl rfl rfl)) <|
      .cons (step (.load (a := .co 1) rfl)) <|
      .cons (step (.exchange (a := .co 1) rfl (by decide) rfl)) <|
      .cons (step (.step rfl (.local (a := .co 0) rfl (.call (.op (.trylock 0)) 0 trivial)))) <|
      .cons (step (.step rfl (.crit (a := .co 0) rfl rfl rfl))) <|
      .cons (step (.step rfl (.local (a := .co 0) rfl .ret))) <|
      .cons (step (.step rfl (.local (a := .co 0) rfl (.call (.op (.unlock 0)) 0 trivial)))) <|
      .cons (step (.step rfl (.crit (a := .co 0) rfl rfl rfl))) <|
      .cons (step (.step rfl (.local (a := .co 0) rfl .ret))) <|
      .cons (step (.step rfl (.local (a := .co 0) rfl (.call .sleep 0 trivial)))) <|
      .cons (step (.step rfl (.local (a := .co 0) rfl (.preGo 0)))) <|
      .cons (step (.step rfl (.sleepPark (c := 0) rfl rfl))) <|
      .cons (step (.step rfl (.sleepFire (w := 0) (t := 0) rfl rfl (.inl rfl) rfl))) <|
      .cons (step (.step rfl (.wake (a := .sched 0) rfl))) <|
      .cons (step (.step rfl (.testDecided (c := 0) rfl rfl (by decide)))) <|
      .cons (step (.step rfl (.decided (c := 0) rfl rfl rfl rfl))) <| .nil _⟩
  have hret := (boost_until_unlock hreach).1 ⟨.co 0, .ret .ok⟩ _ 0 (step (.step rfl (.local rfl .ret)))
    ⟨rfl, rfl, .inl ⟨_, rfl⟩⟩
  refine ⟨_, ⟨.co 0, .ret .ok⟩, _, ?_, step (.step rfl (.local rfl .ret)), ?_, hret.1.mpr rfl⟩
  · rfl
  · exact ⟨rfl, rfl, .inl ⟨_, rfl⟩⟩

end Suspenders.Sync
