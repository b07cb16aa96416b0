import Suspenders.Sync.Owner

/-!
# Priority inheritance

A lock call that parks raises the owner of the mutex to its own level ("single-level priority inheritance"), and
an unlock puts its caller back to the level it was spawned with.  Nothing else touches `effective_qos`: the
level is not passed on when the owner waits for another mutex itself.

The levels do not influence who may step in the wait protocol, so `effective_qos` is recorded beside it, the
park and the boost of a lock call in one step.  Lower numbers are more urgent.
-/

namespace Suspenders.Sync

open Lib Wait

/-- The park of a lock call: on which mutex, who owned it and was boosted, the level of the waiter at that
moment, and whether the owner has unlocked a mutex since. -/
structure Boost where
  mutex : ℕ
  owner : Ctx
  level : ℕ
  unlocked : Bool

/-- The levels. -/
structure QosHist where
  /-- `effective_qos` -/
  eff : Ctx → ℕ
  /-- Whether a lock call has parked on a mutex of the context since its last unlock. -/
  boosted : Ctx → Bool
  /-- The last park of each coroutine on a mutex, if a lock call made it. -/
  park : CrId → Option Boost

namespace QosHist

variable (base : Ctx → ℕ)

/-- Everybody has the level it was spawned with (`base_qos`). -/
def init : QosHist := ⟨base, fun _ => false, fun _ => none⟩

/-- `suspenders_boost` for the owner `o` of mutex `m`, by coroutine `c` that parks in a lock call. -/
def boost (h : QosHist) (c : CrId) (m : ℕ) (o : Ctx) : QosHist where
  eff := Function.update h.eff o (min (h.eff (.co c)) (h.eff o))
  boosted := Function.update h.boosted o true
  park := Function.update h.park c (some ⟨m, o, h.eff (.co c), false⟩)

/-- The part of `suspenders_mutex_unlock` that drops the boost of its caller `a`. -/
def unlock (h : QosHist) (a : Ctx) : QosHist where
  eff := Function.update h.eff a (base a)
  boosted := Function.update h.boosted a false
  park := fun c => (h.park c).map fun p => if p.owner = a then { p with unlocked := true } else p

/-- What a step does to the levels. -/
def observe (h : QosHist) (s : Core) (e : Event) (_ : Core) : QosHist :=
  match e.ctx, e.act with
  | .co c, .crit (.lock m) _ out =>
    match out.res, s.heap.owner m with
    | .park _ _ _, some o => h.boost c m o
    | _, _ => h
  -- `s_mutex_lock_raw` boosts nobody
  | .co c, .crit (.lockRaw _) _ out =>
    match out.res with
    | .park _ _ _ => { h with park := Function.update h.park c none }
    | .ret _ => h
  | a, .crit (.unlock _) _ out => if out.res = .ret .ok then h.unlock base a else h
  | _, _ => h

end QosHist

/-- A successful unlock. -/
def Unlocks (e : Event) : Prop := ∃ m k out, e.act = .crit (.unlock m) k out ∧ out.res = .ret .ok

namespace QosHist

variable {base : Ctx → ℕ} {s t : Core} {e : Event} (h : QosHist)

/-- The four things a step can do to the levels. -/
lemma observe_cases (base : Ctx → ℕ) (s : Core) (e : Event) (t : Core) :
    (h.observe base s e t = h ∧ ¬ Unlocks e) ∨
    (∃ c m o, e.ctx = .co c ∧ s.heap.owner m = some o ∧ h.observe base s e t = h.boost c m o ∧
      ¬ Unlocks e) ∨
    (∃ c, e.ctx = .co c ∧ h.observe base s e t = { h with park := Function.update h.park c none } ∧
      ¬ Unlocks e) ∨
    (h.observe base s e t = h.unlock base e.ctx ∧ Unlocks e) := by
  have hno : (∀ m k out, e.act ≠ .crit (.unlock m) k out) → ¬ Unlocks e := by
    rintro hno ⟨m, k, out, hact, -⟩
    exact hno m k out hact
  unfold observe
  split
  · rename_i c m k out hctx hact
    split
    · rename_i o _ hown
      exact Or.inr (Or.inl ⟨c, m, o, hctx, hown, rfl, hno (by simp [hact])⟩)
    · exact Or.inl ⟨rfl, hno (by simp [hact])⟩
  · rename_i c m k out hctx hact
    split
    · exact Or.inr (Or.inr (Or.inl ⟨c, hctx, rfl, hno (by simp [hact])⟩))
    · exact Or.inl ⟨rfl, hno (by simp [hact])⟩
  · rename_i m k out hact
    split
    · rename_i hok
      exact Or.inr (Or.inr (Or.inr ⟨rfl, m, k, out, hact, hok⟩))
    · rename_i hok
      refine Or.inl ⟨rfl, ?_⟩
      rintro ⟨m', k', out', hact', hok'⟩
      rw [hact] at hact'
      cases hact'
      exact hok hok'
  · exact Or.inl ⟨rfl, hno (by assumption)⟩

/-- Levels only get more urgent, except by an unlock. -/
lemma observe_eff_le (a : Ctx) : (h.observe base s e t).eff a ≤ h.eff a ∨ (e.ctx = a ∧ Unlocks e) := by
  rcases h.observe_cases base s e t with ⟨heq, -⟩ | ⟨c, m, o, -, -, heq, -⟩ | ⟨c, -, heq, -⟩ | ⟨heq, hun⟩
  · exact Or.inl (by rw [heq])
  · left
    rw [heq]
    by_cases ha : a = o
    · subst ha
      simp [boost]
    · simp [boost, ha]
  · exact Or.inl (by rw [heq])
  · by_cases ha : e.ctx = a
    · exact Or.inr ⟨ha, hun⟩
    · left
      rw [heq]
      simp [unlock, Ne.symm ha]

/-- The record of a coroutine's park after a step of somebody else. -/
lemma observe_park {c : CrId} (hc : e.ctx ≠ .co c) {p : Boost}
    (hp : (h.observe base s e t).park c = some p) (hfresh : p.unlocked = false) :
    h.park c = some p ∧ ¬ (e.ctx = p.owner ∧ Unlocks e) := by
  rcases h.observe_cases base s e t with ⟨heq, hno⟩ | ⟨c', m, o, hctx, -, heq, hno⟩ | ⟨c', hctx, heq, hno⟩ |
    ⟨heq, hun⟩
  · rw [heq] at hp
    exact ⟨hp, fun hun => hno hun.2⟩
  · have hne : c ≠ c' := by
      rintro rfl
      exact hc hctx
    rw [heq] at hp
    exact ⟨by simpa [boost, hne] using hp, fun hun => hno hun.2⟩
  · have hne : c ≠ c' := by
      rintro rfl
      exact hc hctx
    rw [heq] at hp
    exact ⟨by simpa [hne] using hp, fun hun => hno hun.2⟩
  · rw [heq] at hp
    obtain ⟨q, hq, hqp⟩ := Option.map_eq_some_iff.mp hp
    by_cases hown : q.owner = e.ctx
    · rw [if_pos hown] at hqp
      rw [← hqp] at hfresh
      cases hfresh
    · rw [if_neg hown] at hqp
      subst hqp
      exact ⟨hq, fun hun => hown hun.1.symm⟩

end QosHist

/-! ## The invariant -/

/-- A coroutine that waits for mutex `m` with the record `p`. -/
structure BoostInv (s : Core) (h : QosHist) (m : ℕ) (c : CrId) (p : Boost) : Prop where
  /-- It has parked on this mutex. -/
  mutex : p.mutex = m
  /-- Whom it has boosted owns it still. -/
  owner : s.heap.owner m = some p.owner
  /-- The owner is at least as urgent as the waiter was when it parked. -/
  level : h.eff p.owner ≤ p.level
  /-- So is the waiter. -/
  own : h.eff (.co c) ≤ p.level

/-- The levels of a state. -/
structure QosInv (base : Ctx → ℕ) (p : Core × QosHist) : Prop where
  /-- Nobody is less urgent than it was spawned. -/
  le : ∀ a, p.2.eff a ≤ base a
  /-- Without a boost since the last unlock a context has the level it was spawned with. -/
  clean : ∀ a, p.2.boosted a = false → p.2.eff a = base a
  /-- The waiters of the mutexes. -/
  wait : ∀ m c b, .wq c ∈ p.1.heap.waits.queue (.mutex m) → p.2.park c = some b → b.unlocked = false →
    BoostInv p.1 p.2 m c b

section Step

variable {base : Ctx → ℕ} {s t : Core} {e : Event} {h : QosHist}

/-- Whoever waits for a mutex executes no critical section. -/
lemma ctx_ne_of_waits (hinv : Inv s) (hstep : Step s e t) {c : CrId} {m : ℕ}
    (hc : .wq c ∈ s.heap.waits.queue (.mutex m)) {op : Op} {k : Frame} {out : Out}
    (hact : e.act = .crit op k out) : e.ctx ≠ .co c := by
  intro hctx
  obtain ⟨hpark, -⟩ := (hinv.wq_mem_iff c _).mp hc
  rcases step_sync hinv hstep with ⟨op', k', hpc, -⟩ | ⟨_, _, _, _, -, hact', -⟩ | hq
  · rw [hctx] at hpc
    rw [hpc] at hpark
    cases k' <;> cases hpark
  · rw [hact] at hact'
    cases hact'
  · exact hq.not_crit _ _ _ hact

/-- A waiter that was waiting before the step. -/
lemma QosInv.wait_old (hI : QosInv base (s, h)) (hinv : Inv s) (hstep : Step s e t) {m : ℕ} {c : CrId}
    {b : Boost} (hc : .wq c ∈ s.heap.waits.queue (.mutex m))
    (hb : (h.observe base s e t).park c = some b) (hfresh : b.unlocked = false) :
    BoostInv t (h.observe base s e t) m c b := by
  have hunlock : ∀ m' k out, e.act = .crit (.unlock m') k out → e.ctx ≠ .co c :=
    fun m' k out hact => ctx_ne_of_waits hinv hstep hc hact
  obtain ⟨hold, hno⟩ : h.park c = some b ∧ ¬ (e.ctx = b.owner ∧ Unlocks e) := by
    by_cases hctx : e.ctx = .co c
    · -- its own steps are no critical sections
      have hcrit : ∀ op k out, e.act ≠ .crit op k out :=
        fun op k out hact => ctx_ne_of_waits hinv hstep hc hact hctx
      have heq : h.observe base s e t = h := by
        unfold QosHist.observe
        split
        · exact absurd ‹_› (hcrit _ _ _)
        · exact absurd ‹_› (hcrit _ _ _)
        · exact absurd ‹_› (hcrit _ _ _)
        · rfl
      rw [heq] at hb
      exact ⟨hb, fun ⟨_, _, _, _, hact, _⟩ => hcrit _ _ _ hact⟩
    · exact h.observe_park hctx hb hfresh
  obtain ⟨hmutex, howner, hlevel, hown⟩ := hI.wait m c b hc hold hfresh
  have howner' : t.heap.owner m = some b.owner := by
    rcases (step_owner hinv hstep m b.owner).1 howner with hkeep | ⟨hctx, k, out, hact⟩
    · exact hkeep
    · -- an unlock by the owner succeeds
      refine absurd ⟨hctx, m, k, out, hact, ?_⟩ hno
      rcases step_sync hinv hstep with ⟨op', k', hpc, hact', -⟩ | ⟨_, _, _, _, -, hact', -⟩ | hq
      · rw [hact] at hact'
        obtain ⟨rfl, rfl, rfl⟩ : op' = .unlock m ∧ k = k' ∧ out = _ := by simpa [eq_comm] using hact'
        cases critical_mutex hinv hpc m with
        | keep _ _ hfail _ =>
          obtain ⟨_, -, -, hne, -⟩ := hfail rfl
          rw [hctx] at hne
          exact absurd howner (hne rfl)
        | take _ _ _ hop _ => simp at hop
        | park _ _ hop _ _ _ => simp at hop
        | release _ _ _ _ _ hok | hand _ _ _ _ _ _ hok => exact hok
      · rw [hact] at hact'
        cases hact'
      · exact absurd hact (hq.not_crit _ _ _)
  refine ⟨hmutex, howner', ?_, ?_⟩
  · exact ((h.observe_eff_le b.owner).resolve_right hno).trans hlevel
  · refine ((h.observe_eff_le (.co c)).resolve_right ?_).trans hown
    rintro ⟨hctx, m', k, out, hact, -⟩
    exact hunlock m' k out hact hctx

/-- A waiter that parks in the step. -/
lemma QosInv.wait_new (hinv : Inv s) (hstep : Step s e t) {m : ℕ} {c : CrId} {b : Boost}
    (hold : .wq c ∉ s.heap.waits.queue (.mutex m)) (hc : .wq c ∈ t.heap.waits.queue (.mutex m))
    (hb : (h.observe base s e t).park c = some b) : BoostInv t (h.observe base s e t) m c b := by
  rcases step_sync hinv hstep with ⟨op, k, hpc, hact, hheap, -⟩ | ⟨f, c', lk, w, -, -, hd, hheap⟩ | hq
  · have hmove := critical_mutex hinv hpc m
    rw [← hheap] at hmove
    cases hmove with
    | keep _ hqueue _ _ | take _ _ hqueue _ _ => exact absurd (hqueue ▸ hc) hold
    | release _ _ _ _ hnil _ =>
      rw [hnil] at hc
      cases hc
    | hand _ _ hqueue _ hrest _ _ =>
      rw [hrest] at hc
      exact absurd (by rw [hqueue]; exact List.mem_cons_of_mem _ hc) hold
    | @park c' o hctx hown hop hkeep hqueue hres =>
      rw [hqueue] at hc
      obtain rfl : c = c' := by simpa [hold] using hc
      rw [hctx] at hres hact
      rcases hop with ⟨rfl, hne⟩ | rfl
      · have heq : h.observe base s e t = h.boost c m o := by
          simp [QosHist.observe, hctx, hact, hres, hown]
        rw [hctx] at hne
        rw [heq] at hb ⊢
        obtain rfl : b = ⟨m, o, h.eff (.co c), false⟩ := by simpa [QosHist.boost, eq_comm] using hb
        exact ⟨rfl, by rw [hkeep, hown], by simp [QosHist.boost], by simp [QosHist.boost, Ne.symm hne]⟩
      · have heq : h.observe base s e t = { h with park := Function.update h.park c none } := by
          simp [QosHist.observe, hctx, hact, hres]
        simp [heq] at hb
  · rw [hheap] at hc
    simp only [decide_queue hinv.wf hd] at hc
    exact absurd (List.mem_of_mem_erase hc) hold
  · rw [hq.queue _ (by simp [ListId.IsChan])] at hc
    exact absurd hc hold

/-- Every step keeps the invariant. -/
lemma qosInv_step (hI : QosInv base (s, h)) (hinv : Inv s) (hstep : Step s e t) :
    QosInv base (t, h.observe base s e t) where
  le := by
    intro a
    have hle : (h.observe base s e t).eff a ≤ h.eff a ∨ (e.ctx = a ∧ Unlocks e) := h.observe_eff_le a
    rcases hle with hle | ⟨rfl, hun⟩
    · exact hle.trans (hI.le a)
    · rcases h.observe_cases base s e t with ⟨-, hno⟩ | ⟨_, _, _, -, -, -, hno⟩ | ⟨_, -, -, hno⟩ | ⟨heq, -⟩
      · exact absurd hun hno
      · exact absurd hun hno
      · exact absurd hun hno
      · simp [heq, QosHist.unlock]
  clean := by
    intro a hclean
    rcases h.observe_cases base s e t with ⟨heq, -⟩ | ⟨c, m, o, -, -, heq, -⟩ | ⟨c, -, heq, -⟩ | ⟨heq, -⟩
    · rw [heq] at hclean ⊢
      exact hI.clean a hclean
    · rw [heq] at hclean ⊢
      have hne : a ≠ o := by
        rintro rfl
        simp [QosHist.boost] at hclean
      simp only [QosHist.boost, Function.update_of_ne hne] at hclean ⊢
      exact hI.clean a hclean
    · rw [heq] at hclean ⊢
      exact hI.clean a hclean
    · rw [heq] at hclean ⊢
      by_cases ha : a = e.ctx
      · subst ha
        simp [QosHist.unlock]
      · simp only [QosHist.unlock, Function.update_of_ne ha] at hclean ⊢
        exact hI.clean a hclean
  wait := by
    intro m c b hc hb hfresh
    by_cases hold : .wq c ∈ s.heap.waits.queue (.mutex m)
    · exact hI.wait_old hinv hstep hold hb hfresh
    · exact QosInv.wait_new hinv hstep hold hc hb

end Step

/-- Priority inheritance, one level deep.  A coroutine on whose mutexes no lock call has parked since its last
unlock has the level it was spawned with.  If a lock call of `c` has parked on mutex `m` and the owner it boosted
has unlocked no mutex since, then that owner still owns `m`, and its level is at most the one `c` parked with,
which is the level of `c` unless `c` has been boosted itself. -/
theorem priority_inherited {base : Ctx → ℕ} {cfg : Config} {s : Core} {h : QosHist}
    (hreach : Reachable (Observed Step (QosHist.observe base)) (.init cfg, .init base) (s, h)) :
    (∀ a, h.boosted a = false → h.eff a = base a) ∧
      ∀ m c b, .wq c ∈ s.heap.waits.queue (.mutex m) → h.park c = some b → b.unlocked = false →
        b.mutex = m ∧ s.heap.owner m = some b.owner ∧ h.eff b.owner ≤ b.level ∧ h.eff (.co c) ≤ b.level ∧
        (h.eff (.co c) = b.level → h.eff b.owner ≤ h.eff (.co c)) := by
  have hI : QosInv base (s, h) := by
    refine hreach.invariant_of (J := fun p => Inv p.1) (I := QosInv base)
      (fun q hq => inv_reachable hq.of_observed) ?_ ?_
    · exact ⟨fun _ => le_rfl, fun _ _ => rfl, fun _ _ _ hc => by cases hc⟩
    · rintro ⟨s, h⟩ e ⟨t, h'⟩ hinv - hI ⟨hstep, hh⟩
      obtain rfl : h' = h.observe base s e t := hh
      exact qosInv_step hI hinv hstep
  refine ⟨hI.clean, fun m c b hc hb hfresh => ?_⟩
  obtain ⟨hmutex, howner, hlevel, hown⟩ := hI.wait m c b hc hb hfresh
  exact ⟨hmutex, howner, hlevel, hown, fun heq => heq ▸ hlevel⟩

/-- Coroutine 0, spawned at level 3, has mutex 0; coroutine 1, at level 1, waits for it. -/
theorem priority_inherited_waiter : ∃ (s : Core) (h : QosHist),
    Reachable (Observed Step (QosHist.observe fun a => if a = .co 0 then 3 else 1))
      (.init fun _ => (1, 0), .init fun a => if a = .co 0 then 3 else 1) (s, h) ∧
      s.heap.waits.queue (.mutex 0) = [.wq 1] ∧ s.heap.owner 0 = some (.co 0) ∧
      h.eff (.co 0) ≤ 1 ∧ h.eff (.co 2) = 1 := by
  have hreach : Reachable (Observed Step (QosHist.observe fun a => if a = .co 0 then 3 else 1))
      (.init fun _ => (1, 0), .init fun a => if a = .co 0 then 3 else 1) _ :=
    ⟨_, .observe_cons (.local (a := .co 0) rfl (.call (.op (.trylock 0)) 0 trivial)) <|
      .observe_cons (.crit (a := .co 0) rfl rfl rfl) <|
      .observe_cons (.local (a := .co 0) rfl .ret) <|
      .observe_cons (.local (a := .co 1) rfl (.call (.op (.lock 0)) 0 trivial)) <|
      .observe_cons (.local (a := .co 1) rfl (.preGo 0)) <|
      .observe_cons (.crit (a := .co 1) rfl rfl rfl) <| .nil _⟩
  obtain ⟨hclean, hwait⟩ := priority_inherited hreach
  obtain ⟨-, howner, hlevel, -⟩ := hwait 0 1 ⟨0, .co 0, 1, false⟩ (.head _) rfl rfl
  exact ⟨_, _, hreach, rfl, howner, hlevel, hclean (.co 2) rfl⟩

/-- Coroutine 0, spawned at level 3, has mutex 0; coroutine 1, at level 2, has mutex 1 and waits for mutex 0;
coroutine 2, at level 0, waits for mutex 1 and boosts coroutine 1, but not coroutine 0. -/
theorem boost_not_passed_on : ∃ (s : Core) (h : QosHist),
    Reachable (Observed Step (QosHist.observe fun a => if a = .co 0 then 3 else if a = .co 1 then 2 else 0))
      (.init fun _ => (1, 0), .init fun a => if a = .co 0 then 3 else if a = .co 1 then 2 else 0) (s, h) ∧
      s.heap.owner 0 = some (.co 0) ∧ .wq 1 ∈ s.heap.waits.queue (.mutex 0) ∧
      ¬ h.eff (.co 0) ≤ h.eff (.co 1) := by
  have hreach : Reachable
      (Observed Step (QosHist.observe fun a => if a = .co 0 then 3 else if a = .co 1 then 2 else 0))
      (.init fun _ => (1, 0), .init fun a => if a = .co 0 then 3 else if a = .co 1 then 2 else 0) _ :=
    ⟨_, .observe_cons (.local (a := .co 0) rfl (.call (.op (.trylock 0)) 0 trivial)) <|
      .observe_cons (.crit (a := .co 0) rfl rfl rfl) <|
      .observe_cons (.local (a := .co 0) rfl .ret) <|
      .observe_cons (.local (a := .co 1) rfl (.call (.op (.trylock 1)) 0 trivial)) <|
      .observe_cons (.crit (a := .co 1) rfl rfl rfl) <|
      .observe_cons (.local (a := .co 1) rfl .ret) <|
      .observe_cons (.local (a := .co 1) rfl (.call (.op (.lock 0)) 0 trivial)) <|
      .observe_cons (.local (a := .co 1) rfl (.preGo 0)) <|
      .observe_cons (.crit (a := .co 1) rfl rfl rfl) <|
      .observe_cons (.local (a := .co 2) rfl (.call (.op (.lock 1)) 0 trivial)) <|
      .observe_cons (.local (a := .co 2) rfl (.preGo 0)) <|
      .observe_cons (.crit (a := .co 2) rfl rfl rfl) <| .nil _⟩
  exact ⟨_, _, hreach, rfl, .head _, by decide⟩

end Suspenders.Sync
