import Suspenders.Idle.State

/-!
# Completion of a run

`suspenders_run` returns when `s_run_complete` is true.  The function reads six values one after the other,
and each of them may change after it was read; the timers of the helpers it does not read at all.
-/

namespace Suspenders.Idle

open Lib

/-! ## The counters -/

section Counters

variable (cfg : Config)

/-- The coroutines of a list that keep the runtime alive. -/
def counted (l : List CrId) : ℕ := l.countP fun c => !cfg.daemon c

/-- `active_coroutines` counts the unfinished coroutines that are no daemons, and `s_queue_work` the
unfinished tasks. -/
structure CountInv (s : State) : Prop where
  inject : ∀ a c, s.pc a = .inject c → c ∈ s.spawning
  unique : ∀ a b c, s.pc a = .inject c → s.pc b = .inject c → a = b
  nodup : s.spawning.Nodup
  spawned : ∀ c ∈ s.spawning, c ∈ s.spawned
  active : s.active = counted cfg s.unfinished
  work : s.work = s.tasks.length

variable {cfg}

lemma counted_cons (c : CrId) (l : List CrId) :
    counted cfg (c :: l) = if cfg.daemon c then counted cfg l else counted cfg l + 1 := by
  unfold counted
  rw [List.countP_cons]
  cases cfg.daemon c <;> simp

lemma counted_append (l l' : List CrId) : counted cfg (l ++ l') = counted cfg l + counted cfg l' :=
  List.countP_append

lemma counted_erase {c : CrId} {l : List CrId} (h : c ∈ l) :
    counted cfg l = if cfg.daemon c then counted cfg (l.erase c) else counted cfg (l.erase c) + 1 := by
  rw [← counted_cons]
  exact (List.perm_cons_erase h).countP_eq _

lemma length_erase_add {t : TaskId} {l : List TaskId} (h : t ∈ l) : (l.erase t).length + 1 = l.length := by
  have := List.length_pos_of_mem h
  rw [List.length_erase_of_mem h]
  omega

variable {s s' : State} {e : Event}

lemma CountInv.inject_step (hi : CountInv cfg s) (h : Step cfg s e s') :
    (∀ a c, s'.pc a = .inject c → c ∈ s'.spawning) ∧
    (∀ a b c, s'.pc a = .inject c → s'.pc b = .inject c → a = b) ∧
    s'.spawning.Nodup ∧ ∀ c ∈ s'.spawning, c ∈ s'.spawned := by
  obtain ⟨hinject, hunique, hnodup, hspawned, -, -⟩ := hi
  cases h with
  | @spawn a c _ hc =>
    have hfresh : c ∉ s.spawning := fun h => hc (hspawned c h)
    simp only [State.setPc, Function.update_apply, List.nodup_cons, List.mem_cons]
    refine ⟨by grind, by grind, ⟨hfresh, hnodup⟩, by grind⟩
  | @inject a c _ hpc =>
    have hmem (d : CrId) : d ∈ s.spawning.erase c ↔ d ≠ c ∧ d ∈ s.spawning := hnodup.mem_erase_iff
    simp only [State.setPc, Function.update_apply, hmem]
    exact ⟨by grind, by grind, hnodup.erase c, by grind⟩
  | wake | wakeDup | wakeFirst | push | signal | write | scan | exit | reject | finish =>
    simp only [State.setPc, Function.update_apply]
    exact ⟨by grind [afterDecrement], by grind [afterDecrement], hnodup, hspawned⟩
  | spawnLocal =>
    exact ⟨hinject, hunique, hnodup, fun c hc => List.mem_cons_of_mem _ (hspawned c hc)⟩
  | _ => exact ⟨hinject, hunique, hnodup, hspawned⟩

lemma CountInv.active_step (hi : CountInv cfg s) (h : Step cfg s e s') :
    s'.active = counted cfg s'.unfinished := by
  have hact := hi.active
  simp only [State.unfinished, counted_append] at hact ⊢
  cases h with
  | spawn | spawnLocal =>
    simp only [counted_cons, State.setPc]
    split <;> omega
  | @inject a c _ hpc =>
    have hc := @counted_erase cfg _ _ (hi.inject a c hpc)
    have hone : counted cfg [c] = if cfg.daemon c then 0 else 1 := counted_cons c []
    simp only [counted_append, State.setPc]
    by_cases hd : cfg.daemon c = true <;> simp [hd] at hc hone <;> omega
  | @take _ c _ _ _ hmem =>
    have hc := @counted_erase cfg _ _ hmem
    simp only [counted_cons]
    by_cases hd : cfg.daemon c = true <;> simp [hd] at hc ⊢ <;> omega
  | @exit _ c _ _ _ hmem =>
    have hc := @counted_erase cfg _ _ hmem
    simp only [State.setPc]
    by_cases hd : cfg.daemon c = true <;> simp [hd] at hc ⊢ <;> omega
  | _ => exact hact

lemma CountInv.work_step (hi : CountInv cfg s) (h : Step cfg s e s') : s'.work = s'.tasks.length := by
  have hwork := hi.work
  simp only [State.tasks, List.length_append] at hwork ⊢
  cases h with
  | submit => simp; omega
  | accept ht | reject _ ht | start _ _ _ ht | finish _ _ _ ht =>
    have := length_erase_add ht
    simp [State.setPc] at *
    omega
  | _ => exact hwork

lemma countInv_step (hi : CountInv cfg s) (h : Step cfg s e s') : CountInv cfg s' := by
  obtain ⟨hinject, hunique, hnodup, hspawned⟩ := hi.inject_step h
  exact ⟨hinject, hunique, hnodup, hspawned, hi.active_step h, hi.work_step h⟩

lemma countInv_reachable (h : Reachable (Step cfg) .init s) : CountInv cfg s := by
  refine h.invariant ?_ fun _ _ _ hi hstep => countInv_step hi hstep
  constructor <;> simp [State.init, State.unfinished, State.tasks, counted]

/-- No coroutine is left that keeps the runtime alive. -/
lemma CountInv.daemons (hi : CountInv cfg s) (h : s.active = 0) :
    ∀ c ∈ s.unfinished, cfg.daemon c = true := by
  have hzero : counted cfg s.unfinished = 0 := hi.active ▸ h
  intro c hc
  simpa using List.countP_eq_zero.mp hzero c hc

end Counters

/-! ## The snapshot -/

/-- The place of a load in `s_run_complete`. -/
def Load.rank : Load → ℕ
  | ready => 0
  | inbox => 1
  | injector => 2
  | active => 3
  | work => 4
  | timers => 5

namespace State

variable (s : State)

/-- Worker 0 is in `s_run_complete` and has read zero in load `l`. -/
def Past (l : Load) : Prop := ∃ site l', s.loop 0 = .test site l' ∧ l.rank < l'.rank

/-- No helper has a timer. -/
def HelpersQuiet : Prop := ∀ w ≠ 0, s.timers w = 0

/-- Nothing is left to do: the counters, the injector and all timer heaps are empty, every unfinished
coroutine is a daemon and every task has ended. -/
def Drained (cfg : Config) : Prop :=
  s.active = 0 ∧ s.work = 0 ∧ s.injector = [] ∧ (∀ w, s.timers w = 0) ∧
    (∀ c ∈ s.unfinished, cfg.daemon c = true) ∧ s.tasks = []

end State

/-- What the steps of a run must not do for the snapshot to be right: make a counter positive that worker 0
has already read, or leave a timer of a helper behind when the last coroutine or task ends. -/
def Orderly (cfg : Config) (s : State) (e : Event) (_ : State) : Prop :=
  match e with
  | .spawn _ c => cfg.daemon c = false → ¬ s.Past .active
  | .inject _ c => cfg.daemon c = true → ¬ s.Past .injector
  | .submit _ _ => ¬ s.Past .work
  | .exit _ c => cfg.daemon c = false → s.active = 1 → s.work = 0 → s.HelpersQuiet
  | .reject _ _ | .finish _ _ => s.active = 0 → s.work = 1 → s.HelpersQuiet
  | .arm w => w ≠ 0 → s.active = 0 → s.work ≠ 0
  | _ => True

/-- What worker 0 has read is still so. -/
structure SnapshotInv (cfg : Config) (s : State) : Prop where
  injector : s.Past .injector → ∀ c ∈ s.injector, cfg.daemon c = false
  active : s.Past .active → s.active = 0
  work : s.Past .work → s.work = 0
  timers : s.active = 0 → s.work = 0 → s.HelpersQuiet

section Snapshot

variable {cfg : Config} {s s' : State} {e : Event}

lemma LoopStep.past {l : Loop} {site : Site} {ld : Load} {w : WorkerId}
    (h : LoopStep cfg s w l (.test site ld)) :
    ld = .ready ∨ ∃ ld', l = .test site ld' ∧ ld.rank = ld'.rank + 1 ∧ s.Zero ld' := by
  generalize hx : Loop.test site ld = x at h
  cases h with
  | @pass site' ld₀ ld₁ _ hz hnext =>
    obtain ⟨rfl, rfl⟩ : site = site' ∧ ld = ld₁ := by simpa using hx
    refine Or.inr ⟨ld₀, rfl, ?_, hz⟩
    cases ld₀ <;> cases hnext <;> rfl
  | idle | stop => grind
  | @complete site' => cases site' <;> simp at hx
  | @nonzero site' => cases site' <;> simp at hx
  | inbox | injector => split at hx <;> simp at hx
  | broke | other | run => simp at hx

/-- A load is past if it was so before, or has just given zero. -/
lemma step_past (h : Step cfg s e s') {l : Load} (hp : s'.Past l) :
    s.Past l ∨ s.Zero l ∧ ∃ w l', s' = s.setLoop w l' := by
  obtain ⟨site, ld, hloop, hrank⟩ := hp
  cases h with
  | @loop w l₀ l₁ _ hl hstep =>
    by_cases hw : w = 0
    · subst hw
      obtain rfl : l₁ = .test site ld := by simpa [State.setLoop] using hloop
      rcases hstep.past with rfl | ⟨ld', rfl, hsucc, hz⟩
      · exact absurd hrank (by simp [Load.rank])
      · by_cases heq : l.rank = ld'.rank
        · obtain rfl : l = ld' := by cases l <;> cases ld' <;> simp_all [Load.rank]
          exact Or.inr ⟨hz, 0, _, rfl⟩
        · exact Or.inl ⟨site, ld', hl, by omega⟩
    · exact Or.inl ⟨site, ld, by simpa [State.setLoop, Ne.symm hw] using hloop, hrank⟩
  | @store w | @drainFd w | @unpark w =>
    by_cases hw : w = 0
    · subst hw
      simp [State.setLoop] at hloop
    · exact Or.inl ⟨site, ld, by simpa [State.setLoop, Ne.symm hw] using hloop, hrank⟩
  | _ => exact Or.inl ⟨site, ld, hloop, hrank⟩

lemma SnapshotInv.injector_step (hi : SnapshotInv cfg s) (h : Step cfg s e s') (ho : Orderly cfg s e s')
    (hp : s'.Past .injector) : ∀ c ∈ s'.injector, cfg.daemon c = false := by
  rcases step_past h hp with hpast | ⟨hz, w, l', rfl⟩
  · have hold := hi.injector hpast
    cases h with
    | @inject a c =>
      have hc : cfg.daemon c = false := by
        by_contra hd
        exact ho (by simpa using hd) hpast
      intro d hd
      rcases List.mem_append.mp hd with hd | hd
      · exact hold d hd
      · exact List.mem_singleton.mp hd ▸ hc
    | take => exact fun d hd => hold d (List.mem_of_mem_erase hd)
    | _ => exact hold
  · intro c hc
    have hempty : s.injector = [] := hz
    simp [State.setLoop, hempty] at hc

lemma SnapshotInv.active_step (hi : SnapshotInv cfg s) (h : Step cfg s e s') (ho : Orderly cfg s e s')
    (hp : s'.Past .active) : s'.active = 0 := by
  rcases step_past h hp with hpast | ⟨hz, w, l', rfl⟩
  · have hold := hi.active hpast
    cases h with
    | @spawn _ c | @spawnLocal _ c =>
      have hd : cfg.daemon c = true := by
        by_contra hd
        exact ho (by simpa using hd) hpast
      simpa [hd] using hold
    | exit => simp [hold]
    | _ => exact hold
  · exact hz

lemma SnapshotInv.work_step (hi : SnapshotInv cfg s) (h : Step cfg s e s') (ho : Orderly cfg s e s')
    (hp : s'.Past .work) : s'.work = 0 := by
  rcases step_past h hp with hpast | ⟨hz, w, l', rfl⟩
  · have hold := hi.work hpast
    cases h with
    | submit => exact absurd hpast ho
    | reject | finish => simp [hold]
    | _ => exact hold
  · exact hz

lemma SnapshotInv.timers_step (hi : SnapshotInv cfg s) (h : Step cfg s e s') (ho : Orderly cfg s e s')
    (hactive : s'.active = 0) (hwork : s'.work = 0) : s'.HelpersQuiet := by
  have hold := hi.timers
  cases h with
  | @arm w =>
    intro v hv
    have hne : v ≠ w := by
      rintro rfl
      exact ho hv hactive hwork
    simpa [hne] using hold hactive hwork v hv
  | @expire w =>
    intro v hv
    have hzero := hold hactive hwork v hv
    by_cases hvw : v = w
    · subst hvw
      simp [hzero]
    · simpa [hvw] using hzero
  | @spawn _ c | @spawnLocal _ c =>
    by_cases hd : cfg.daemon c = true
    · exact hold (by simpa [hd] using hactive) hwork
    · simp [hd] at hactive
  | submit => simp at hwork
  | @exit w c =>
    by_cases hd : cfg.daemon c = true
    · exact hold (by simpa [hd] using hactive) hwork
    · have hsub : s.active - 1 = 0 := by simpa [hd] using hactive
      have hle : s.active ≤ 1 := by omega
      rcases Nat.le_one_iff_eq_zero_or_eq_one.mp hle with hzero | hone
      · exact hold hzero hwork
      · exact ho (by simpa using hd) hone hwork
  | reject | finish =>
    have hle : s.work ≤ 1 := by
      simp only at hwork
      omega
    rcases Nat.le_one_iff_eq_zero_or_eq_one.mp hle with hzero | hone
    · exact hold hactive hzero
    · exact ho hactive hone
  | _ => exact hold hactive hwork

lemma snapshotInv_step (hi : SnapshotInv cfg s) (h : Restrict (Step cfg) (Orderly cfg) s e s') :
    SnapshotInv cfg s' where
  injector := hi.injector_step h.1 h.2
  active := hi.active_step h.1 h.2
  work := hi.work_step h.1 h.2
  timers := hi.timers_step h.1 h.2

lemma snapshotInv_reachable (h : Reachable (Restrict (Step cfg) (Orderly cfg)) .init s) :
    SnapshotInv cfg s := by
  refine h.invariant ?_ fun _ _ _ hi hstep => snapshotInv_step hi hstep
  constructor <;> simp [State.init, State.HelpersQuiet]

/-- In a run of orderly steps `s_run_complete` returns true only if, at its last load, the runtime is
drained. -/
theorem run_complete_drained (h : Reachable (Restrict (Step cfg) (Orderly cfg)) .init s) {site : Site}
    (hlast : s.loop 0 = .test site .timers) (hz : s.Zero .timers) : s.Drained cfg := by
  have hi := snapshotInv_reachable h
  have hc := countInv_reachable h.of_restrict
  have past (l : Load) (hl : l.rank < Load.timers.rank) : s.Past l := ⟨site, .timers, hlast, hl⟩
  have hactive := hi.active (past .active (by decide))
  have hwork := hi.work (past .work (by decide))
  have hdaemons := hc.daemons hactive
  refine ⟨hactive, hwork, ?_, ?_, hdaemons, ?_⟩
  · apply List.eq_nil_iff_forall_not_mem.mpr
    intro c hmem
    -- it would be a daemon and no daemon
    have hd := hdaemons c (by simp [State.unfinished, hmem])
    simp [hi.injector (past .injector (by decide)) c hmem] at hd
  · intro w
    by_cases hw : w = 0
    · subst hw
      exact hz
    · exact hi.timers hactive hwork w hw
  · exact List.length_eq_zero_iff.mp (hc.work ▸ hwork)

end Snapshot

/-! ## A task that spawns a coroutine and ends -/

/-- Two workers; coroutine 0 is the drainer of a queue. -/
def oneDrainer : Config := ⟨2, Nat.two_pos, fun c => c == 0⟩

/-- The thread of worker 0 spawns a coroutine, the helper runs it to its end, and then worker 0 looks. -/
theorem run_complete_drained_helper : ∃ s, Reachable (Restrict (Step oneDrainer) (Orderly oneDrainer)) .init s ∧
    s.loop 0 = .test .loop .timers ∧ s.Drained oneDrainer := by
  have hreach : Reachable (Restrict (Step oneDrainer) (Orderly oneDrainer)) .init _ :=
    ⟨_, .cons ⟨.spawn (a := .on 0) (c := 1) ⟨⟨by decide, .inr ⟨rfl, rfl⟩⟩, rfl⟩ (by simp [State.init])
        (.inl (by decide)), fun _ ⟨_, _, hloop, _⟩ => Loop.noConfusion hloop⟩ <|
      .cons ⟨.inject (a := .on 0) (c := 1) ⟨by decide, .inr ⟨rfl, rfl⟩⟩ rfl,
        fun hd => Bool.noConfusion hd⟩ <|
      .cons ⟨.scan (a := .on 0) (i := 0) ⟨by decide, .inr ⟨rfl, rfl⟩⟩ rfl, trivial⟩ <|
      .cons ⟨.scan (a := .on 0) (i := 1) ⟨by decide, .inr ⟨rfl, rfl⟩⟩ rfl, trivial⟩ <|
      .cons ⟨.take (w := 1) (c := 1) (by decide) rfl rfl (by decide), trivial⟩ <|
      .cons ⟨.exit (w := 1) (c := 1) (by decide) rfl rfl (by decide) rfl, fun _ _ _ _ _ => rfl⟩ <|
      .cons ⟨.signal (a := .on 1) (w := 0) ⟨by decide, .inl rfl⟩ rfl, trivial⟩ <|
      .cons ⟨.loop (w := 0) (by decide) rfl (.run rfl rfl rfl), trivial⟩ <|
      .cons ⟨.loop (w := 0) (by decide) rfl (.idle rfl rfl rfl), trivial⟩ <|
      .cons ⟨.loop (w := 0) (l := .test .loop .ready) (by decide) rfl (.pass rfl rfl rfl), trivial⟩ <|
      .cons ⟨.loop (w := 0) (l := .test .loop .inbox) (by decide) rfl (.pass rfl rfl rfl), trivial⟩ <|
      .cons ⟨.loop (w := 0) (l := .test .loop .injector) (by decide) rfl (.pass rfl rfl rfl), trivial⟩ <|
      .cons ⟨.loop (w := 0) (l := .test .loop .active) (by decide) rfl (.pass rfl rfl rfl), trivial⟩ <|
      .cons ⟨.loop (w := 0) (l := .test .loop .work) (by decide) rfl (.pass rfl rfl rfl), trivial⟩ <|
      .nil _⟩
  exact ⟨_, hreach, rfl, run_complete_drained hreach rfl rfl⟩

/-- A task on the helper spawns a coroutine and ends after worker 0 has read `active_coroutines` and before
it reads `s_queue_work`: `suspenders_run` returns, and the coroutine is on the injector. -/
theorem snapshot_misses_spawn : ¬ ∀ (cfg : Config) (s : State) (site : Site),
    Reachable (Step cfg) .init s → s.loop 0 = .test site .timers → s.Zero .timers → s.Drained cfg := by
  intro h
  have hreach : Reachable (Step oneDrainer) .init _ :=
    ⟨_, .cons (.spawn (a := .on 0) (c := 0) ⟨⟨by decide, .inr ⟨rfl, rfl⟩⟩, rfl⟩ (by simp [State.init])
        (.inl (by decide))) <|
      .cons (.inject (a := .on 0) (c := 0) ⟨by decide, .inr ⟨rfl, rfl⟩⟩ rfl) <|
      .cons (.scan (a := .on 0) (i := 0) ⟨by decide, .inr ⟨rfl, rfl⟩⟩ rfl) <|
      .cons (.scan (a := .on 0) (i := 1) ⟨by decide, .inr ⟨rfl, rfl⟩⟩ rfl) <|
      .cons (.take (w := 1) (c := 0) (by decide) rfl rfl (by decide)) <|
      .cons (.submit (a := .on 0) (t := 0) ⟨⟨by decide, .inr ⟨rfl, rfl⟩⟩, rfl⟩
        (by simp [State.tasks, State.init, State.setPc])) <|
      .cons (.accept (t := 0) (by decide)) <|
      .cons (.start (w := 1) (t := 0) (d := 0) (by decide) rfl rfl (by decide) (by decide) rfl rfl) <|
      .cons (.loop (w := 0) (by decide) rfl (.run rfl rfl rfl)) <|
      .cons (.loop (w := 0) (by decide) rfl (.idle rfl rfl rfl)) <|
      .cons (.loop (w := 0) (l := .test .loop .ready) (by decide) rfl (.pass rfl rfl rfl)) <|
      .cons (.loop (w := 0) (l := .test .loop .inbox) (by decide) rfl (.pass rfl rfl rfl)) <|
      .cons (.loop (w := 0) (l := .test .loop .injector) (by decide) rfl (.pass rfl rfl rfl)) <|
      .cons (.loop (w := 0) (l := .test .loop .active) (by decide) rfl (.pass rfl rfl rfl)) <|
      .cons (.spawn (a := .on 1) (c := 1) ⟨⟨by decide, .inl rfl⟩, rfl⟩
        (by simp [State.init, State.setLoop, State.setPc]) (.inl (by decide))) <|
      .cons (.inject (a := .on 1) (c := 1) ⟨by decide, .inl rfl⟩ rfl) <|
      .cons (.scan (a := .on 1) (i := 0) ⟨by decide, .inl rfl⟩ rfl) <|
      .cons (.scan (a := .on 1) (i := 1) ⟨by decide, .inl rfl⟩ rfl) <|
      .cons (.finish (w := 1) (t := 0) (d := 0) (by decide) rfl rfl (by decide) (by decide) rfl rfl) <|
      .cons (.loop (w := 0) (l := .test .loop .work) (by decide) rfl (.pass rfl rfl rfl)) <| .nil _⟩
  have hdrained := h oneDrainer _ .loop hreach rfl rfl
  exact absurd hdrained.1 (by decide)

end Suspenders.Idle
