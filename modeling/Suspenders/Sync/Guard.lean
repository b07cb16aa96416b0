import Suspenders.Sync.Mutex

/-!
# Scoped locks

The constructor of a `LockGuard` calls `suspenders_mutex_lock` and its destructor `suspenders_mutex_unlock`; both drop
the status.  So the scope of a guard begins whether the lock was granted or not.

`Guards` records the constructors and destructors in progress and the scopes between them.  `GuardKept` are the
steps that do not let a lock fail, and `lock_guard_scopes` says that a scope owns its mutex in every run that consists
of such steps.
-/

namespace Suspenders.Sync

open Lib Wait

/-- What is recorded about scoped locks. -/
structure Guards where
  /-- The mutex whose guard is being constructed. -/
  entering : Ctx → Option ℕ
  /-- The scopes, the innermost first. -/
  scopes : Ctx → List ℕ
  /-- The mutex whose guard is being destroyed, and how often the destructor has released it. -/
  leaving : Ctx → Option (ℕ × ℕ)

/-- A step; `guarded` says whether a call is one of a `LockGuard`. -/
structure GuardEvent extends Event where
  guarded : Bool

namespace Guards

/-- There are no guards. -/
def init : Guards := ⟨fun _ => none, fun _ => [], fun _ => none⟩

/-- The calls of a guard: the constructor locks, and the destructor of the innermost scope unlocks. -/
def Calls (g : Guards) (a : Ctx) : Act → Prop
  | .call (.op (.lock _)) => True
  | .call (.op (.unlock m)) => (g.scopes a).head? = some m
  | _ => False

/-- A constructor begins with its call and ends with the return. -/
def enteringAfter (g : Guards) (e : GuardEvent) (a : Ctx) : Option ℕ :=
  if e.ctx = a then
    match e.act, e.guarded with
    | .call (.op (.lock m)), true => some m
    | .ret _, _ => none
    | _, _ => g.entering a
  else g.entering a

/-- Between the two is the scope. -/
def scopesAfter (g : Guards) (e : GuardEvent) (a : Ctx) : List ℕ :=
  if e.ctx = a then
    match e.act, e.guarded with
    | .call (.op (.unlock _)), true => (g.scopes a).tail
    | .ret _, _ => (g.entering a).toList ++ g.scopes a
    | _, _ => g.scopes a
  else g.scopes a

/-- A destructor releases its mutex when its context owns it before a step and not after it. -/
def release (s t : Core) (a : Ctx) (x : ℕ × ℕ) : ℕ × ℕ :=
  (x.1, if s.heap.owner x.1 = some a ∧ t.heap.owner x.1 ≠ some a then x.2 + 1 else x.2)

/-- A destructor begins with its call and ends with the return. -/
def leavingAfter (g : Guards) (s : Core) (e : GuardEvent) (t : Core) (a : Ctx) : Option (ℕ × ℕ) :=
  if e.ctx = a then
    match e.act, e.guarded with
    | .call (.op (.unlock m)), true => some (m, 0)
    | .ret _, _ => none
    | _, _ => (g.leaving a).map (release s t a)
  else (g.leaving a).map (release s t a)

/-- What a step records. -/
def after (g : Guards) (s : Core) (e : GuardEvent) (t : Core) : Guards :=
  ⟨g.enteringAfter e, g.scopesAfter e, g.leavingAfter s e t⟩

end Guards

/-- The state, the calls in progress, and the guards. -/
structure GuardState where
  core : Core
  calls : LockHist
  guards : Guards

/-- Nothing has happened. -/
def GuardState.init (cfg : Config) : GuardState := ⟨.init cfg, .init, .init⟩

/-- A step of a context, which may be one of its guards. -/
structure GuardStep (p : GuardState) (e : GuardEvent) (q : GuardState) : Prop where
  step : Observed Step LockHist.observe (p.core, p.calls) e.toEvent (q.core, q.calls)
  calls : e.guarded = true → p.guards.Calls e.ctx e.act
  guards : q.guards = p.guards.after p.core e q.core

lemma GuardStep.of_step {p : GuardState} {e : Event} {t : Core} (guarded : Bool) (hstep : Step p.core e t)
    (hcalls : guarded = true → p.guards.Calls e.ctx e.act) :
    GuardStep p ⟨e, guarded⟩ ⟨t, p.calls.observe p.core e t, p.guards.after p.core ⟨e, guarded⟩ t⟩ :=
  ⟨⟨hstep, rfl⟩, hcalls, rfl⟩

/-- The lock of a constructor does not fail, and a scope keeps its mutex. -/
structure GuardKept (p : GuardState) (e : GuardEvent) (_ : GuardState) : Prop where
  /-- A guard is constructed by a coroutine that does not own the mutex. -/
  call : ∀ m, e.guarded = true → e.act = .call (.op (.lock m)) →
    (∃ c, e.ctx = .co c) ∧ p.core.heap.owner m ≠ some e.ctx
  /-- No cancel is pending when the constructor locks, and no deadline has expired. -/
  entry : p.guards.entering e.ctx ≠ none → e.act ≠ .preCanceled ∧ e.act ≠ .preExpired
  /-- No cancel and no timeout ends its wait. -/
  wait : ∀ c st, e.act = .flip c st → p.guards.entering (.co c) = none
  /-- In a scope the mutex is unlocked by the destructor only, and not passed to a condition wait. -/
  scope : ∀ m ∈ p.guards.scopes e.ctx, e.guarded = false →
    e.act ≠ .call (.op (.unlock m)) ∧ ∀ v, e.act ≠ .call (.condWait v m)

section Guards

variable {g : Guards} {s t : Core} {e : GuardEvent} {a : Ctx} {m n : ℕ}

lemma Guards.enteringAfter_cases (hg : g.enteringAfter e a = some m) :
    (e.ctx = a ∧ e.guarded = true ∧ e.act = .call (.op (.lock m))) ∨
      (g.entering a = some m ∧ (e.ctx = a → ∀ code, e.act ≠ .ret code)) := by
  unfold Guards.enteringAfter at hg
  split at hg
  · rename_i ha
    split at hg
    · rename_i m' hact hguarded
      obtain rfl := Option.some.inj hg
      exact .inl ⟨ha, hguarded, hact⟩
    · cases hg
    · rename_i hret _
      exact .inr ⟨hg, fun _ => hret⟩
  · rename_i ha
    exact .inr ⟨hg, fun heq => absurd heq ha⟩

lemma Guards.scopesAfter_cases (hm : m ∈ g.scopesAfter e a) :
    (m ∈ g.scopes a ∧
      ∀ m', e.ctx = a → e.guarded = true → e.act = .call (.op (.unlock m')) → m ∈ (g.scopes a).tail) ∨
      (e.ctx = a ∧ (∃ code, e.act = .ret code) ∧ g.entering a = some m) := by
  unfold Guards.scopesAfter at hm
  split at hm
  · rename_i ha
    split at hm
    · exact .inl ⟨List.mem_of_mem_tail hm, fun _ _ _ _ => hm⟩
    · rename_i code hact
      rcases List.mem_append.mp hm with hm | hm
      · exact .inr ⟨ha, ⟨code, hact⟩, Option.mem_toList.mp hm⟩
      · refine .inl ⟨hm, fun m' _ _ hact' => ?_⟩
        cases hact.symm.trans hact'
    · rename_i hunlock
      exact .inl ⟨hm, fun m' _ hguarded hact => absurd hguarded (hunlock m' hact)⟩
  · rename_i ha
    exact .inl ⟨hm, fun _ heq => absurd heq ha⟩

lemma Guards.leavingAfter_cases (hg : g.leavingAfter s e t a = some (m, n)) :
    (e.ctx = a ∧ e.guarded = true ∧ e.act = .call (.op (.unlock m)) ∧ n = 0) ∨
      ∃ n', g.leaving a = some (m, n') ∧ (e.ctx = a → ∀ code, e.act ≠ .ret code) ∧
        n = if s.heap.owner m = some a ∧ t.heap.owner m ≠ some a then n' + 1 else n' := by
  have hkept (hg : (g.leaving a).map (Guards.release s t a) = some (m, n)) : ∃ n', g.leaving a = some (m, n') ∧
      n = if s.heap.owner m = some a ∧ t.heap.owner m ≠ some a then n' + 1 else n' := by
    obtain ⟨⟨m', n'⟩, hold, heq⟩ := Option.map_eq_some_iff.mp hg
    cases heq
    exact ⟨n', hold, rfl⟩
  unfold Guards.leavingAfter at hg
  split at hg
  · rename_i ha
    split at hg
    · rename_i m' hact hguarded
      cases hg
      exact .inl ⟨ha, hguarded, hact, rfl⟩
    · cases hg
    · rename_i hret _
      obtain ⟨n', hold, heq⟩ := hkept hg
      exact .inr ⟨n', hold, fun _ => hret, heq⟩
  · rename_i ha
    obtain ⟨n', hold, heq⟩ := hkept hg
    exact .inr ⟨n', hold, fun heq => absurd heq ha, heq⟩

end Guards

/-! ## Calls along a step -/

section Step

variable {s t : Core} {e : Event} {h : LockHist} {a : Ctx} {m : ℕ}

/-- In the middle of a call nothing is called, and no select returns. -/
lemma act_of_inCall {act : Act} (hstep : Step s ⟨a, act⟩ t) (hin : inCall (s.pc a) = true) :
    (∀ api, act ≠ .call api) ∧ ∀ i code, act ≠ .selRet i code := by
  cases step_moves hstep with
  | call _ _ _ hpc _ _ =>
    rw [hpc] at hin
    cases hin
  | far hpc _ _ _ =>
    rw [hpc] at hin
    cases hin
  | work w hact _ => cases w <;> simp [hact, Work.act]
  | fail _ _ _ hact _ _ _ => rcases hact with rfl | rfl <;> simp
  | ret _ hact _ _ | go _ _ _ hact _ _ | crit _ _ hact _ _ _ | test _ _ _ hact _ _ | suspend _ _ _ hact _ _
  | decided _ _ _ _ hact _ _ _ => simp [hact]

/-- A call that goes on is the same call. -/
lemma LockHist.callOf_some (hinv : Inv s) (hstep : Step s e t) {x : Call} (hx : h.call a = some x)
    (hact : e.ctx = a → (∀ api, e.act ≠ .call api) ∧ (∀ code, e.act ≠ .ret code) ∧ ∀ i code, e.act ≠ .selRet i code) :
    ∃ y, h.callOf s e t a = some y ∧ y.api = x.api ∧ y.owned = x.owned := by
  by_cases ha : e.ctx = a
  · obtain ⟨hcall, hret, hsel⟩ := hact ha
    have hafter := x.after_api (s := s) (t := t) a
    refine ⟨x.after s t a, ?_, hafter.1, hafter.2.1⟩
    simp only [LockHist.callOf, if_pos ha, hx, Option.map_some]
  · have hseen := x.seen_spec hinv hstep a
    refine ⟨x.seen s e t a, ?_, hseen.1, hseen.2.1⟩
    simp only [LockHist.callOf, if_neg ha, hx, Option.map_some]

/-- A call in progress has just begun, or goes on. -/
lemma LockHist.callOf_cases (hinv : Inv s) (hstep : Step s e t) {y : Call} (hy : h.callOf s e t a = some y) :
    (e.ctx = a ∧ e.act = .call y.api ∧ y.owned = owns s a y.api) ∨ ∃ x, h.call a = some x ∧ y.api = x.api := by
  by_cases ha : e.ctx = a
  · simp only [LockHist.callOf, if_pos ha] at hy
    split at hy
    · rename_i api hact
      obtain rfl := Option.some.inj hy
      exact .inl ⟨ha, hact, rfl⟩
    · cases hy
    · cases hy
    · obtain ⟨x, hx, rfl⟩ := Option.map_eq_some_iff.mp hy
      exact .inr ⟨x, hx, (x.after_api a).1⟩
  · simp only [LockHist.callOf, if_neg ha] at hy
    obtain ⟨x, hx, rfl⟩ := Option.map_eq_some_iff.mp hy
    exact .inr ⟨x, hx, (x.seen_spec hinv hstep a).1⟩

/-- A context stays inside a mutex that it does not unlock. -/
lemma LockHist.insideOf_of_inside (hin : h.inside m a = true)
    (hunlock : ¬ (e.ctx = a ∧ ∃ k out, e.act = .crit (.unlock m) k out)) : h.insideOf e m a = true := by
  unfold LockHist.insideOf
  split
  · rename_i ha
    split
    · simp [hin]
    · rename_i m' k out hact
      have hne : m ≠ m' := by
        rintro rfl
        exact hunlock ⟨ha, k, out, hact⟩
      simp [hin, hne]
    · exact hin
  · exact hin

lemma LockAt.inCall {x : Call} {pc : Pc} (hx : LockAt s a m x pc) : inCall pc = true := by
  cases pc <;> first | rfl | exact hx.elim

end Step

/-! ## Constructors -/

/-- Coroutine `c` is at `pc` in a constructor that locks mutex `m`, and the lock has not failed. -/
def EntersAt (s : Core) (c : CrId) (m : ℕ) : Pc → Prop
  | .pre (.op o _) | .cs o _ => o = .lock m
  | .blk _ _ | .susp _ _ | .sync _ _ =>
    (s.heap.waits.node (.wq c)).status = .waiting ∨ (s.heap.waits.node (.wq c)).status = .decided .ok
  | .ret code => code = .ok
  | _ => True

section Enters

variable {s t : Core} {e : Event} {c : CrId} {m : ℕ} {x : Call}

/-- A constructor, seen from outside. -/
lemma EntersAt.other (hinv : Inv s) (hstep : Step s e t) (hne : e.ctx ≠ .co c) (hflip : ∀ st, e.act ≠ .flip c st)
    (hx : LockAt s (.co c) m x (s.pc (.co c))) (h : EntersAt s c m (s.pc (.co c))) :
    EntersAt t c m (s.pc (.co c)) := by
  have hwait (hpark : (s.pc (.co c)).parkedOn = some (.mutex m))
      (h : (s.heap.waits.node (.wq c)).status = .waiting ∨ (s.heap.waits.node (.wq c)).status = .decided .ok) :
      (t.heap.waits.node (.wq c)).status = .waiting ∨ (t.heap.waits.node (.wq c)).status = .decided .ok := by
    have hf := step_footprint hinv hstep
    by_cases hdec : .wq c ∈ e.act.decides
    · rcases step_decides_wait hinv hstep (by simp [ListId.IsChan]) hpark hdec with
        ⟨op, k, out, hact, hlock⟩ | ⟨st, hact⟩
      · right
        rw [(hf.waits.decided _ hdec).2.1, hact]
        cases op <;> first | rfl | cases hlock
      · exact absurd hact (hflip st)
    · rw [(hf.waits.kept _ hdec hne).1]
      exact h
  cases hpc : s.pc (.co c) <;> rw [hpc] at hx h
  case blk | susp | sync =>
    obtain ⟨-, rfl, -⟩ := hx
    exact hwait (by rw [hpc]; rfl) h
  case pre en => cases en <;> exact h
  all_goals exact h

/-- A constructor goes on. -/
lemma EntersAt.self (hinv : Inv s) {act : Act} (hstep : Step s ⟨.co c, act⟩ t) (hret : ∀ code, act ≠ .ret code)
    (hpre : act ≠ .preCanceled ∧ act ≠ .preExpired) (hx : LockAt s (.co c) m x (s.pc (.co c)))
    (howned : x.owned = false) (h : EntersAt s c m (s.pc (.co c))) : EntersAt t c m (t.pc (.co c)) := by
  -- the node only changes when the coroutine parks, and when its wait is over
  have hkeep (hdec : ∀ k st, act ≠ .decided k st) (hcrit : ∀ op k out, act ≠ .crit op k out)
      (hpark : (s.pc (.co c)).parkedOn ≠ none) :
      (t.heap.waits.node (.wq c)).status = (s.heap.waits.node (.wq c)).status := by
    obtain ⟨op, k, out, _, _, _, heq, -⟩ | ⟨-, -, hkeep⟩ := step_self_park hinv hstep hdec
    · exact absurd heq (hcrit op k out)
    · exact (hkeep hpark).2
  cases step_moves hstep with
  | work w hact hpc =>
    rw [hpc]
    have hsame := hkeep (by cases w <;> simp [hact, Work.act]) (by cases w <;> simp [hact, Work.act])
    cases hs : s.pc (.co c) <;> rw [hs] at hx h
    case blk | susp | sync =>
      obtain ⟨-, rfl, -⟩ := hx
      unfold EntersAt
      rw [hsame (by rw [hs]; simp [Pc.parkedOn, Pc.waitOn])]
      exact h
    case pre en => cases en <;> exact h
    all_goals exact h
  | call _ _ _ hpc _ _ =>
    rw [hpc] at hx
    exact hx.elim
  | fail _ _ _ hact _ _ _ => exact absurd hact (not_or.mpr hpre)
  | go en r hc _ hpc hpc' =>
    rw [hpc] at hx h
    rw [hpc']
    cases en with
    | op o k =>
      obtain rfl : o = .lock m := h
      rfl
    | _ => exact hx.elim
  | ret code hact _ _ => exact absurd hact (hret code)
  | crit op k hact hpc hpc' _ =>
    rw [hpc] at hx h
    obtain rfl : op = .lock m := h
    obtain ⟨-, rfl, hno, -⟩ := hx
    rw [hpc']
    cases critical_mutex hinv hpc m with
    | keep _ _ hfail _ =>
      obtain ⟨_, -, -, -, hown⟩ := hfail rfl
      exact absurd (hown rfl) (hno howned)
    | take _ _ _ _ hres =>
      rw [hres]
      rfl
    | park _ _ _ _ _ hres =>
      rw [hres]
      obtain ⟨_, _, _, _, _, _, _, -, -, -, hst⟩ | ⟨hsome, -⟩ := step_self_park hinv hstep (by simp [hact])
      · exact .inl hst
      · obtain ⟨code, hcode⟩ := hsome _ _ _ hact
        rw [hcode] at hres
        cases hres
    | release hop _ _ _ _ _ => cases hop
    | hand hop _ _ _ _ _ _ => cases hop
  | test k l _ hact hpc hpc' =>
    rw [hpc] at hx h
    obtain ⟨-, rfl, -⟩ := hx
    have hsame := hkeep (by simp [hact]) (by simp [hact]) (by rw [hpc]; simp [Pc.parkedOn, Pc.waitOn])
    rcases hpc' with hpc' | hpc' <;> rw [hpc'] <;> unfold EntersAt <;> rw [hsame] <;> exact h
  | suspend k l _ hact hpc hpc' =>
    rw [hpc] at hx h
    obtain ⟨-, rfl, -⟩ := hx
    rw [hpc']
    unfold EntersAt
    rw [hkeep (by simp [hact]) (by simp [hact]) (by rw [hpc]; simp [Pc.parkedOn, Pc.waitOn])]
    exact h
  | decided k l st hc _ hpc hst hpc' =>
    obtain rfl := Ctx.co.inj hc
    rw [hpc] at hx h
    obtain ⟨rfl, -, -⟩ := hx
    rw [hpc']
    rcases h with h | h
    · rw [h] at hst
      cases hst
    · rw [h] at hst
      cases hst
      rfl
  | far hpc _ _ _ =>
    rw [hx.inCall] at hpc
    cases hpc

end Enters

/-! ## The invariant -/

/-- Where the guards are. -/
structure GuardInv (p : GuardState) : Prop where
  /-- A constructor. -/
  entering : ∀ a m, p.guards.entering a = some m → ∃ c x, a = .co c ∧ p.calls.call a = some x ∧
    x.api = .op (.lock m) ∧ x.owned = false ∧ EntersAt p.core c m (p.core.pc a) ∧ m ∉ p.guards.scopes a
  /-- A scope. -/
  scope : ∀ a, ∀ m ∈ p.guards.scopes a, (∃ c, a = .co c) ∧ p.calls.inside m a = true ∧
    ∀ x, p.calls.call a = some x → x.api ≠ .op (.unlock m) ∧ ∀ v, x.api ≠ .condWait v m
  /-- The scopes of one context. -/
  nodup : ∀ a, (p.guards.scopes a).Nodup
  /-- A destructor. -/
  leaving : ∀ a m n, p.guards.leaving a = some (m, n) →
    (p.core.pc a = .cs (.unlock m) .ret ∧ n = 0 ∧ p.calls.inside m a = true) ∨
      (p.core.pc a = .ret .ok ∧ n = 1 ∧ p.core.heap.owner m ≠ some a)
  /-- Unlocking. -/
  unlock : ∀ a m k, p.core.pc a = .cs (.unlock m) k ∨ p.core.pc a = .pre (.op (.unlock m) k) →
    ∃ x, p.calls.call a = some x ∧ (x.api = .op (.unlock m) ∨ ∃ v, x.api = .condWait v m)

lemma guardInv_init (cfg : Config) : GuardInv (.init cfg) where
  entering := nofun
  scope := fun _ _ h => by cases h
  nodup := fun _ => .nil
  leaving := nofun
  unlock := fun _ _ _ h => by rcases h with h | h <;> cases h

section Unlocks

variable {s t : Core} {a : Ctx} {m : ℕ} {k : Frame}

lemma Frame.after_ne_unlock (k' : Frame) (st : Code) :
    ¬ (k'.after st = .cs (.unlock m) k ∨ k'.after st = .pre (.op (.unlock m) k)) := by
  cases k' <;> simp only [Frame.after] <;> (try split) <;> simp

lemma Api.entry_unlock {api : Api} {r : ℕ}
    (h : api.entry a r = .cs (.unlock m) k ∨ api.entry a r = .pre (.op (.unlock m) k)) : api = .op (.unlock m) := by
  cases api with
  | op o =>
    cases a <;> cases o <;> (try rename_i b; cases b) <;> simp [Api.entry] at h <;> simp [h]
  | select ops => cases a <;> simp only [Api.entry] at h <;> split at h <;> simp at h
  | _ => cases a <;> simp [Api.entry] at h

/-- Where an unlock comes from: its call, or the park of a condition wait. -/
lemma unlock_step {act : Act} (hstep : Step s ⟨a, act⟩ t)
    (h : t.pc a = .cs (.unlock m) k ∨ t.pc a = .pre (.op (.unlock m) k)) :
    act = .call (.op (.unlock m)) ∨
      ((∃ k, s.pc a = .cs (.unlock m) k ∨ s.pc a = .pre (.op (.unlock m) k)) ∨ condMutex (s.pc a) = some m) ∧
        inCall (s.pc a) = true ∧ ∀ code, act ≠ .ret code := by
  cases step_moves hstep with
  | work w hact hpc =>
    rw [hpc] at h
    refine .inr ⟨.inl ⟨k, h⟩, ?_, by cases w <;> simp [hact, Work.act]⟩
    rcases h with h | h <;> rw [h] <;> rfl
  | call api r hact _ _ hpc =>
    rw [hpc] at h
    obtain rfl := Api.entry_unlock h
    exact .inl hact
  | fail en st _ _ _ _ hpc =>
    rw [hpc] at h
    cases en with
    | op o k' => exact absurd h (Frame.after_ne_unlock k' st)
    | _ => rcases h with h | h <;> cases h
  | go en r _ hact hpc hpc' =>
    rw [hpc'] at h
    refine .inr ⟨.inl ?_, by rw [hpc]; rfl, by simp [hact]⟩
    rw [hpc]
    cases en with
    | op o k' =>
      cases o with
      | unlock m' =>
        rcases h with h | h <;> cases h
        exact ⟨_, .inr rfl⟩
      | condPark v =>
        cases k' <;> simp only [Entry.go] at h <;> (try split at h) <;> rcases h with h | h <;> cases h
      | _ => rcases h with h | h <;> cases h
    | _ => rcases h with h | h <;> cases h
  | ret code _ _ hpc =>
    rw [hpc] at h
    rcases h with h | h <;> cases h
  | crit op k' hact hpc hpc' _ =>
    rw [hpc'] at h
    refine .inr ⟨.inr ?_, by rw [hpc]; rfl, by simp [hact]⟩
    rw [hpc]
    cases hres : (critical s.heap a op).2.res with
    | ret code =>
      rw [hres] at h
      exact absurd h (Frame.after_ne_unlock k' code)
    | park l data writer =>
      rw [hres] at h
      cases k' <;> rcases h with h | h <;> cases h
      rfl
  | test k' l _ _ _ hpc =>
    rcases hpc with hpc | hpc <;> rw [hpc] at h <;> rcases h with h | h <;> cases h
  | suspend k' l _ _ _ hpc =>
    rw [hpc] at h
    rcases h with h | h <;> cases h
  | decided k' l st _ _ _ _ hpc =>
    rw [hpc] at h
    exact absurd h (Frame.after_ne_unlock k' st)
  | far _ hpc _ _ =>
    rcases hpc with hpc | ⟨code, hpc⟩ | hpc
    · rcases h with h | h <;> rw [h] at hpc <;> cases hpc
    · rcases h with h | h <;> rw [h] at hpc <;> cases hpc
    · rcases h with h | h <;> rw [h] at hpc <;> cases hpc

end Unlocks

section Step

variable {s t : Core} {h : LockHist} {g : Guards} {e : GuardEvent} {a : Ctx} {m : ℕ}

lemma GuardInv.unlock_step (hI : GuardInv ⟨s, h, g⟩) (hinv : Inv s) (hL : LockInv (s, h))
    (hstep : Step s e.toEvent t) {k : Frame}
    (hpc : t.pc a = .cs (.unlock m) k ∨ t.pc a = .pre (.op (.unlock m) k)) :
    ∃ x, h.callOf s e.toEvent t a = some x ∧ (x.api = .op (.unlock m) ∨ ∃ v, x.api = .condWait v m) := by
  by_cases ha : e.ctx = a
  · obtain ⟨⟨b, act⟩, guarded⟩ := e
    obtain rfl : b = a := ha
    rcases unlock_step hstep hpc with rfl | ⟨hfrom, hin, hret⟩
    · exact ⟨⟨.op (.unlock m), owns s b (.op (.unlock m)), false, 0⟩, by simp [LockHist.callOf], .inl rfl⟩
    · obtain ⟨x, hx, hapi⟩ : ∃ x, h.call b = some x ∧ (x.api = .op (.unlock m) ∨ ∃ v, x.api = .condWait v m) := by
        rcases hfrom with ⟨k', hfrom⟩ | hcond
        · exact hI.unlock b m k' hfrom
        · obtain ⟨x, v, hx, hapi⟩ := hL.cond b m hcond
          exact ⟨x, hx, .inr ⟨v, hapi⟩⟩
      obtain ⟨hcall, hsel⟩ := act_of_inCall hstep hin
      obtain ⟨y, hy, heq, -⟩ := LockHist.callOf_some hinv hstep hx fun _ => ⟨hcall, hret, hsel⟩
      exact ⟨y, hy, heq ▸ hapi⟩
  · rw [(step_footprint hinv hstep).pc a (Ne.symm ha)] at hpc
    obtain ⟨x, hx, hapi⟩ := hI.unlock a m k hpc
    obtain ⟨y, hy, heq, -⟩ := LockHist.callOf_some hinv hstep hx fun heq => absurd heq ha
    exact ⟨y, hy, heq ▸ hapi⟩

lemma LockInv.lockAt (hL : LockInv (s, h)) {x : Call} (hx : h.call a = some x) (hapi : x.api = .op (.lock m)) :
    LockAt s a m x (s.pc a) := by
  have hcall := hL.call a x hx
  unfold CallAt at hcall
  rw [hapi] at hcall
  exact hcall

/-- A lock call that goes on. -/
lemma LockInv.lock_goes (hL : LockInv (s, h)) (hinv : Inv s) (hstep : Step s e.toEvent t) {x : Call}
    (hx : h.call a = some x) (hapi : x.api = .op (.lock m)) (hret : e.ctx = a → ∀ code, e.act ≠ .ret code) :
    ∃ y, h.callOf s e.toEvent t a = some y ∧ y.api = .op (.lock m) ∧ y.owned = x.owned := by
  obtain ⟨⟨b, act⟩, guarded⟩ := e
  have hact (ha : b = a) : (∀ api, act ≠ .call api) ∧ ∀ i code, act ≠ .selRet i code := by
    subst ha
    exact act_of_inCall hstep (hL.lockAt hx hapi).inCall
  obtain ⟨y, hy, hapi', howned⟩ := LockHist.callOf_some hinv hstep hx fun ha => ⟨(hact ha).1, hret ha, (hact ha).2⟩
  exact ⟨y, hy, hapi'.trans hapi, howned⟩

/-- A constructor that goes on. -/
lemma GuardInv.entering_old (hI : GuardInv ⟨s, h, g⟩) (hinv : Inv s) (hL : LockInv (s, h))
    (hstep : Step s e.toEvent t) (hkept : GuardKept ⟨s, h, g⟩ e ⟨t, h.observe s e.toEvent t, g.after s e t⟩)
    (hret : e.ctx = a → ∀ code, e.act ≠ .ret code) (hg : g.entering a = some m) :
    ∃ c x, a = .co c ∧ h.callOf s e.toEvent t a = some x ∧ x.api = .op (.lock m) ∧ x.owned = false ∧
      EntersAt t c m (t.pc a) ∧ m ∉ g.scopes a := by
  obtain ⟨c, x, rfl, hx, hapi, howned, hat, hm⟩ := hI.entering a m hg
  have hlock := hL.lockAt hx hapi
  obtain ⟨y, hy, hapi', howned'⟩ := hL.lock_goes hinv hstep hx hapi hret
  refine ⟨c, y, rfl, hy, hapi', howned'.trans howned, ?_, hm⟩
  obtain ⟨⟨b, act⟩, guarded⟩ := e
  by_cases ha : b = .co c
  · subst ha
    have hpre := hkept.entry fun hnone => by cases hnone.symm.trans hg
    exact EntersAt.self hinv hstep (hret rfl) hpre hlock howned hat
  · rw [(step_footprint hinv hstep).pc _ (Ne.symm ha)]
    exact EntersAt.other hinv hstep ha (fun st hact => by cases (hkept.wait c st hact).symm.trans hg) hlock hat

lemma GuardInv.entering_step (hI : GuardInv ⟨s, h, g⟩) (hinv : Inv s) (hL : LockInv (s, h))
    (hstep : Step s e.toEvent t) (hkept : GuardKept ⟨s, h, g⟩ e ⟨t, h.observe s e.toEvent t, g.after s e t⟩)
    (hg : g.enteringAfter e a = some m) :
    ∃ c x, a = .co c ∧ h.callOf s e.toEvent t a = some x ∧ x.api = .op (.lock m) ∧ x.owned = false ∧
      EntersAt t c m (t.pc a) ∧ m ∉ g.scopesAfter e a := by
  rcases Guards.enteringAfter_cases hg with ⟨ha, hguarded, hact⟩ | ⟨hg, hret⟩
  · obtain ⟨⟨c, hc⟩, hown⟩ := hkept.call m hguarded hact
    obtain ⟨⟨b, act⟩, guarded⟩ := e
    obtain rfl : b = a := ha
    obtain rfl : b = .co c := hc
    obtain rfl : act = .call (.op (.lock m)) := hact
    have howned : owns s (.co c) (.op (.lock m)) = false := by simpa [owns, apiMutex] using hown
    refine ⟨c, ⟨.op (.lock m), owns s (.co c) (.op (.lock m)), false, 0⟩, rfl, by simp [LockHist.callOf], rfl, howned,
      ?_, fun hm => ?_⟩
    · cases hstep with
      | «local» _ hloc =>
        generalize s.pc (.co c) = pc at hloc
        cases hloc
        rw [Core.setPc_pc_self]
        rfl
    · rcases Guards.scopesAfter_cases hm with ⟨hm, -⟩ | ⟨-, ⟨code, hact⟩, -⟩
      · exact hown (hL.inside m _ (hI.scope _ m hm).2.1)
      · cases hact
  · obtain ⟨c, x, ha, hx, hapi, howned, hat, hm⟩ := hI.entering_old hinv hL hstep hkept hret hg
    refine ⟨c, x, ha, hx, hapi, howned, hat, fun hmem => ?_⟩
    rcases Guards.scopesAfter_cases hmem with ⟨hmem, -⟩ | ⟨heq, ⟨code, hact⟩, -⟩
    · exact hm hmem
    · exact absurd hact (hret heq code)

/-- A context at its return. -/
lemma pc_of_ret {code : Code} (hstep : Step s ⟨a, .ret code⟩ t) : s.pc a = .ret code := by
  cases hstep with
  | «local» _ hloc =>
    generalize s.pc a = pc at hloc
    cases hloc
    rfl

/-- A context at a critical section. -/
lemma pc_of_crit {op : Op} {k : Frame} {out : Out} (hstep : Step s ⟨a, .crit op k out⟩ t) : s.pc a = .cs op k := by
  cases hstep with
  | «local» _ hloc =>
    generalize s.pc a = pc at hloc
    cases hloc
  | crit hpc _ _ => exact hpc

lemma GuardInv.nodup_step (hI : GuardInv ⟨s, h, g⟩) (a : Ctx) : (g.scopesAfter e a).Nodup := by
  have hnodup : (g.scopes a).Nodup := hI.nodup a
  unfold Guards.scopesAfter
  split
  · split
    · exact hnodup.sublist (List.tail_sublist _)
    · cases hg : g.entering a with
      | none => exact hnodup
      | some m =>
        obtain ⟨_, _, -, -, -, -, -, hm⟩ := hI.entering a m hg
        exact List.nodup_cons.mpr ⟨hm, hnodup⟩
    · exact hnodup
  · exact hnodup

lemma GuardInv.scope_step (hI : GuardInv ⟨s, h, g⟩) (hinv : Inv s)
    (hstep : Step s e.toEvent t) (hcalls : e.guarded = true → g.Calls e.ctx e.act)
    (hkept : GuardKept ⟨s, h, g⟩ e ⟨t, h.observe s e.toEvent t, g.after s e t⟩) (hm : m ∈ g.scopesAfter e a) :
    (∃ c, a = .co c) ∧ h.insideOf e.toEvent m a = true ∧
      ∀ x, h.callOf s e.toEvent t a = some x → x.api ≠ .op (.unlock m) ∧ ∀ v, x.api ≠ .condWait v m := by
  obtain ⟨⟨b, act⟩, guarded⟩ := e
  rcases Guards.scopesAfter_cases hm with ⟨hmem, htail⟩ | ⟨ha, ⟨code, hact⟩, hg⟩
  · obtain ⟨hco, hin, hold⟩ := hI.scope a m hmem
    refine ⟨hco, LockHist.insideOf_of_inside hin ?_, fun x hx => ?_⟩
    · rintro ⟨ha, k, out, hact⟩
      obtain rfl : b = a := ha
      obtain rfl : act = .crit (.unlock m) k out := hact
      obtain ⟨x, hx, hapi⟩ := hI.unlock b m k (.inl (pc_of_crit hstep))
      obtain ⟨hne, hcond⟩ := hold x hx
      exact hapi.elim hne fun ⟨v, hv⟩ => hcond v hv
    · rcases LockHist.callOf_cases hinv hstep hx with ⟨ha, hact, -⟩ | ⟨y, hy, hapi⟩
      · obtain rfl : b = a := ha
        obtain rfl : act = .call x.api := hact
        cases guarded with
        | false =>
          have hscope := hkept.scope m hmem rfl
          exact ⟨fun hapi => hscope.1 (by rw [hapi]), fun v hapi => hscope.2 v (by rw [hapi])⟩
        | true =>
          have hguard : g.Calls b (.call x.api) := hcalls rfl
          refine ⟨fun hapi => ?_, fun v hapi => ?_⟩ <;> rw [hapi] at hguard
          · -- the destructor ends the innermost scope, and there is one only
            have hrest := htail m rfl rfl (by rw [hapi])
            have hnodup : (g.scopes b).Nodup := hI.nodup b
            rw [← List.cons_head?_tail hguard] at hnodup
            exact (List.nodup_cons.mp hnodup).1 hrest
          · exact hguard
      · rw [hapi]
        exact hold y hy
  · obtain rfl : b = a := ha
    obtain rfl : act = .ret code := hact
    obtain ⟨c, x, rfl, hx, hapi, -, hat, -⟩ := hI.entering b m hg
    have hpc : s.pc (.co c) = .ret code := pc_of_ret hstep
    obtain rfl : code = .ok := by
      dsimp only at hat
      rwa [hpc] at hat
    have hgets : LockHist.gets m .ok (h.call (.co c)) = true := by
      obtain ⟨api, owned, changed, signals⟩ := x
      obtain rfl : api = .op (.lock m) := hapi
      have hx : h.call (.co c) = some _ := hx
      simp [hx, LockHist.gets]
    exact ⟨⟨c, rfl⟩, by simp [LockHist.insideOf, hgets], fun x hx => by simp [LockHist.callOf] at hx⟩

/-- A destructor goes on. -/
lemma GuardInv.leaving_self {act : Act} (hinv : Inv s) (hL : LockInv (s, h)) (hstep : Step s ⟨a, act⟩ t)
    (hret : ∀ code, act ≠ .ret code) {n : ℕ}
    (hold : (s.pc a = .cs (.unlock m) .ret ∧ n = 0 ∧ h.inside m a = true) ∨
      (s.pc a = .ret .ok ∧ n = 1 ∧ s.heap.owner m ≠ some a)) :
    (t.pc a = .cs (.unlock m) .ret ∧ (if s.heap.owner m = some a ∧ t.heap.owner m ≠ some a then n + 1 else n) = 0 ∧
        h.insideOf ⟨a, act⟩ m a = true) ∨
      (t.pc a = .ret .ok ∧ (if s.heap.owner m = some a ∧ t.heap.owner m ≠ some a then n + 1 else n) = 1 ∧
        t.heap.owner m ≠ some a) := by
  have hin : inCall (s.pc a) = true := by rcases hold with ⟨hpc, -⟩ | ⟨hpc, -⟩ <;> rw [hpc] <;> rfl
  cases step_moves hstep with
  | work w hact hpc =>
    have hown := owner_of_not_crit hinv hstep (by cases w <;> simp [hact, Work.act])
    rw [hpc, hown, if_neg fun hne => hne.2 hne.1]
    rcases hold with ⟨hfrom, hn, hinside⟩ | hold
    · exact .inl ⟨hfrom, hn, LockHist.insideOf_of_inside hinside (by cases w <;> simp [hact, Work.act])⟩
    · exact .inr hold
  | crit op k hact hpc hpc' hheap =>
    rcases hold with ⟨hfrom, rfl, hinside⟩ | ⟨hfrom, -⟩
    · cases hpc.symm.trans hfrom
      have hown : s.heap.owner m = some a := hL.inside m a hinside
      rw [hpc', hheap]
      right
      cases critical_mutex hinv hpc m with
      | keep _ _ hfail _ =>
        obtain ⟨_, -, -, hno, -⟩ := hfail rfl
        exact absurd hown (hno rfl)
      | take _ _ _ hop _ => simp at hop
      | park _ _ hop _ _ _ => simp at hop
      | release _ _ _ hnone _ hres => simp [hres, hown, hnone, Frame.next, Frame.after]
      | @hand c rest _ _ hqueue hnew _ _ hres =>
        have hne : some (Ctx.co c) ≠ some a := by
          rintro heq
          obtain rfl := Option.some.inj heq
          obtain ⟨hpark, -⟩ := (hinv.wq_mem_iff c (.mutex m)).mp (by simp [hqueue])
          rw [hpc] at hpark
          cases hpark
        simp [hres, hown, hnew, hne, Frame.next, Frame.after]
    · cases hpc.symm.trans hfrom
  | ret code hact _ _ => exact absurd hact (hret code)
  | far hpc _ _ _ =>
    rw [hin] at hpc
    cases hpc
  | call _ _ _ hpc _ _ | fail _ _ _ _ _ hpc _ | go _ _ _ _ hpc _ | test _ _ _ _ hpc _ | suspend _ _ _ _ hpc _
  | decided _ _ _ _ _ hpc _ _ => rcases hold with ⟨hfrom, -⟩ | ⟨hfrom, -⟩ <;> cases hpc.symm.trans hfrom

lemma GuardInv.leaving_step (hI : GuardInv ⟨s, h, g⟩) (hinv : Inv s) (hL : LockInv (s, h))
    (hstep : Step s e.toEvent t) (hcalls : e.guarded = true → g.Calls e.ctx e.act) {n : ℕ}
    (hg : g.leavingAfter s e t a = some (m, n)) :
    (t.pc a = .cs (.unlock m) .ret ∧ n = 0 ∧ h.insideOf e.toEvent m a = true) ∨
      (t.pc a = .ret .ok ∧ n = 1 ∧ t.heap.owner m ≠ some a) := by
  rcases Guards.leavingAfter_cases hg with ⟨ha, hguarded, hact, rfl⟩ | ⟨n', hold, hret, rfl⟩
  · obtain ⟨⟨b, act⟩, guarded⟩ := e
    obtain rfl : b = a := ha
    obtain rfl : act = .call (.op (.unlock m)) := hact
    have hhead : (g.scopes b).head? = some m := hcalls hguarded
    obtain ⟨⟨c, rfl⟩, hinside, -⟩ := hI.scope b m (List.mem_of_head? hhead)
    refine .inl ⟨?_, rfl, LockHist.insideOf_of_inside hinside (by simp)⟩
    cases hstep with
    | «local» _ hloc =>
      generalize s.pc (.co c) = pc at hloc
      cases hloc
      rw [Core.setPc_pc_self]
      rfl
  · have hplace := hI.leaving a m n' hold
    by_cases ha : e.ctx = a
    · obtain ⟨⟨b, act⟩, guarded⟩ := e
      obtain rfl : b = a := ha
      exact GuardInv.leaving_self hinv hL hstep (hret rfl) hplace
    · rw [(step_footprint hinv hstep).pc a (Ne.symm ha)]
      obtain ⟨hkeep, hget⟩ := owner_other hinv hstep ha m
      rcases hplace with ⟨hpc, rfl, hinside⟩ | ⟨hpc, rfl, hown⟩
      · have hown : s.heap.owner m = some a := hL.inside m a hinside
        exact .inl ⟨hpc, if_neg fun hne => hne.2 (hkeep hown), LockHist.insideOf_of_inside hinside fun heq => ha heq.1⟩
      · refine .inr ⟨hpc, if_neg fun hne => hown hne.1, fun hown' => hown (hget ?_ hown')⟩
        rw [hpc]
        rfl

end Step

/-- Every step that does not let a lock fail keeps the invariant. -/
theorem guardInv_step {p q : GuardState} {e : GuardEvent} (hI : GuardInv p) (hinv : Inv p.core)
    (hL : LockInv (p.core, p.calls)) (hstep : GuardStep p e q) (hkept : GuardKept p e q) : GuardInv q := by
  obtain ⟨s, h, g⟩ := p
  obtain ⟨t, h', g'⟩ := q
  obtain ⟨⟨hstep, hh⟩, hcalls, hg⟩ := hstep
  obtain rfl : h' = h.observe s e.toEvent t := hh
  obtain rfl : g' = g.after s e t := hg
  exact
    { entering := fun _ _ => hI.entering_step hinv hL hstep hkept
      scope := fun _ _ => hI.scope_step hinv hstep hcalls hkept
      nodup := hI.nodup_step
      leaving := fun _ _ _ => hI.leaving_step hinv hL hstep hcalls
      unlock := fun _ _ _ => hI.unlock_step hinv hL hstep }

/-- The guards do not influence the steps. -/
lemma reachable_calls {cfg : Config} {p : GuardState} (hp : Reachable GuardStep (.init cfg) p) :
    Reachable (Observed Step LockHist.observe) (.init cfg, .init) (p.core, p.calls) :=
  hp.invariant (I := fun p => Reachable (Observed Step LockHist.observe) (.init cfg, .init) (p.core, p.calls))
    (.refl _ _) fun _ _ _ h hstep => h.step hstep.step

lemma guardInv_reachable {cfg : Config} {p : GuardState} (hp : Reachable (Restrict GuardStep GuardKept) (.init cfg) p) :
    GuardInv p := by
  refine hp.invariant_of (J := fun p => Inv p.core ∧ LockInv (p.core, p.calls)) (fun q hq => ?_) (guardInv_init cfg) ?_
  · have hcalls := reachable_calls hq.of_restrict
    exact ⟨inv_reachable hcalls.of_observed, lockInv_reachable hcalls⟩
  · rintro p e q ⟨hinv, hL⟩ - hI ⟨hstep, hkept⟩
    exact guardInv_step hI hinv hL hstep hkept

/-- Whatever the run, the call of a constructor is a lock. -/
lemma entering_call {cfg : Config} {p : GuardState} (hp : Reachable GuardStep (.init cfg) p) :
    ∀ a m, p.guards.entering a = some m → ∃ x, p.calls.call a = some x ∧ x.api = .op (.lock m) := by
  refine hp.invariant_of (J := fun p => Inv p.core ∧ LockInv (p.core, p.calls))
    (I := fun p => ∀ a m, p.guards.entering a = some m → ∃ x, p.calls.call a = some x ∧ x.api = .op (.lock m))
    (fun q hq => ?_) nofun ?_
  · have hcalls := reachable_calls hq
    exact ⟨inv_reachable hcalls.of_observed, lockInv_reachable hcalls⟩
  · rintro ⟨s, h, g⟩ e ⟨t, h', g'⟩ ⟨hinv, hL⟩ - hI ⟨⟨hstep, hh⟩, -, hg⟩ a m hm
    obtain rfl : h' = h.observe s e.toEvent t := hh
    obtain rfl : g' = g.after s e t := hg
    rcases Guards.enteringAfter_cases hm with ⟨ha, -, hact⟩ | ⟨hm, hret⟩
    · obtain ⟨⟨b, act⟩, guarded⟩ := e
      obtain rfl : b = a := ha
      obtain rfl : act = .call (.op (.lock m)) := hact
      exact ⟨⟨.op (.lock m), owns s b (.op (.lock m)), false, 0⟩, by simp [LockHist.observe, LockHist.callOf], rfl⟩
    · obtain ⟨x, hx, hapi⟩ := hI a m hm
      obtain ⟨y, hy, hapi', -⟩ := hL.lock_goes hinv hstep hx hapi hret
      exact ⟨y, hy, hapi'⟩

/-- A constructor returns without the lock, to a caller that did not own the mutex either. -/
def ConstructsWithout (p : GuardState) (e : GuardEvent) (m : ℕ) : Prop :=
  p.guards.entering e.ctx = some m ∧ (∃ code, e.act = .ret code ∧ code ≠ .ok) ∧
    ∀ x, p.calls.call e.ctx = some x → x.owned = false

end Suspenders.Sync
