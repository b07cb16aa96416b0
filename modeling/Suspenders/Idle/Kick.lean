import Suspenders.Idle.State

/-!
# No lost kick

A worker that parks sets `parked` and then looks at its inbox, the injector and, if it is worker 0, at
`s_run_complete` once more; whoever makes work makes it first and looks at `parked` afterwards.  So either
the worker sees the work or it is kicked.  The kick may still be on its way when the worker is blocked
already; `KickInv` says who is then going to give it.
-/

namespace Suspenders.Idle

open Lib

/-! ## Places of the park protocol -/

/-- The places where `parked` is set. -/
def Loop.isParked : Loop → Bool
  | .test .park _ | .inbox | .injector | .stop | .wait | .woke => true
  | _ => false

/-- The worker has set `parked` and then found its inbox empty. -/
def Loop.pastInbox : Loop → Bool
  | .test .park _ | .injector | .stop | .wait => true
  | _ => false

/-- The worker has then found the injector empty. -/
def Loop.pastInjector : Loop → Bool
  | .test .park _ | .stop | .wait => true
  | _ => false

/-- A thread in `s_worker_signal(w)`. -/
def Pc.Kicks (w : WorkerId) (why : Why) (p : Pc) : Prop := p = .signal w why ∨ p = .write w why

/-- A thread in `s_spawn_impl` that looks at worker `i` next or signals it. -/
def Pc.Scans (i : WorkerId) (p : Pc) : Prop := p = .scan i ∨ p.Kicks i .spawn

lemma Loop.isParked_of_pastInbox {l : Loop} (h : l.pastInbox = true) : l.isParked = true := by
  cases l with
  | test site _ => cases site <;> simp_all [pastInbox, isParked]
  | _ => simp_all [pastInbox, isParked]

lemma Loop.isParked_of_pastInjector {l : Loop} (h : l.pastInjector = true) : l.isParked = true := by
  cases l with
  | test site _ => cases site <;> simp_all [pastInjector, isParked]
  | _ => simp_all [pastInjector, isParked]

namespace LoopStep

variable {cfg : Config} {s : State} {w : WorkerId} {l l' : Loop}

lemma isParked_eq (h : LoopStep cfg s w l l') : l'.isParked = l.isParked := by
  cases h with
  | @pass site => cases site <;> rfl
  | @complete site => cases site <;> rfl
  | @nonzero site => cases site <;> rfl
  | idle | inbox | injector => split <;> rfl
  | stop =>
    split
    · rfl
    · split <;> rfl
  | broke | other | run => rfl

lemma pastInbox (h : LoopStep cfg s w l l') (hl : l'.pastInbox = true) :
    l.pastInbox = true ∨ s.inbox w = [] := by
  cases h with
  | @pass site => cases site <;> simp_all [Loop.pastInbox]
  | @complete site => cases site <;> simp_all [Loop.pastInbox]
  | @nonzero site => cases site <;> simp_all [Loop.pastInbox]
  | inbox => grind [Loop.pastInbox]
  | idle => split at hl <;> simp_all [Loop.pastInbox]
  | injector | stop => exact Or.inl rfl
  | broke | other | run => simp_all [Loop.pastInbox]

lemma pastInjector (h : LoopStep cfg s w l l') (hl : l'.pastInjector = true) :
    l.pastInjector = true ∨ s.injector = [] := by
  cases h with
  | @pass site => cases site <;> simp_all [Loop.pastInjector]
  | @complete site => cases site <;> simp_all [Loop.pastInjector]
  | @nonzero site => cases site <;> simp_all [Loop.pastInjector]
  | idle | inbox => split at hl <;> simp_all [Loop.pastInjector]
  | injector => split at hl <;> simp_all [Loop.pastInjector]
  | stop => exact Or.inl rfl
  | broke | other | run => simp_all [Loop.pastInjector]

/-- Worker 0 waits only if a load of `s_run_complete` was not zero. -/
lemma nonzero_of_wait (h : LoopStep cfg s 0 l .wait) : ∃ ld, l = .test .park ld ∧ ¬ s.Zero ld := by
  generalize hx : Loop.wait = x at h
  cases h with
  | @nonzero site ld _ hz =>
    cases site with
    | loop => simp at hx
    | park => exact ⟨ld, rfl, hz⟩
  | @complete site => cases site <;> simp at hx
  | idle | inbox | injector => split at hx <;> simp at hx
  | stop => grind
  | pass | broke | other | run => simp at hx

end LoopStep

/-! ## What one step does -/

section Step

variable {cfg : Config} {s s' : State} {e : Event}

/-- A readable wake descriptor stays so until its worker drains it. -/
lemma step_fd (h : Step cfg s e s') {w : WorkerId} (hw : s.fd w = true) :
    s'.fd w = true ∨ s'.loop w = .woke := by
  cases h with
  | @drainFd v =>
    by_cases hv : w = v
    · exact Or.inr (by simp [State.setLoop, hv])
    · exact Or.inl (by simp [hv, hw])
  | shutdownKick | write => exact Or.inl (by grind [Function.update_apply])
  | _ => exact Or.inl hw

/-- `parked` is what the place in the loop says. -/
lemma step_parked (h : Step cfg s e s') (hp : ∀ w, s.parked w = (s.loop w).isParked) (w : WorkerId) :
    s'.parked w = (s'.loop w).isParked := by
  cases h with
  | @loop v l l' _ hl hstep =>
    by_cases hv : w = v
    · subst hv
      simpa [State.setLoop, hstep.isParked_eq, ← hl] using hp w
    · simpa [State.setLoop, hv] using hp w
  | @store v | @drainFd v | @unpark v =>
    by_cases hv : w = v
    · subst hv
      simp_all [State.setLoop, Loop.isParked]
    · simpa [State.setLoop, hv] using hp w
  | _ => exact hp w

/-- A thread on its way to signal worker `w` does so, unless the worker is not parked. -/
lemma step_kicks (h : Step cfg s e s') {a : Thread} {w : WorkerId} {why : Why}
    (hk : (s.pc a).Kicks w why) :
    (s'.pc a).Kicks w why ∨ s'.fd w = true ∨ s.parked w = false := by
  unfold Pc.Kicks at hk
  cases h with
  | wake | wakeDup | wakeFirst | push | signal | write | spawn | inject | scan | exit | reject | finish =>
    simp only [State.setPc, Function.update_apply, Pc.Kicks]
    grind [State.Free]
  | _ => exact Or.inl hk

lemma step_scans (h : Step cfg s e s') {a : Thread} {i : WorkerId} (hk : (s.pc a).Scans i) :
    (s'.pc a).Scans i ∨ s'.fd i = true ∨ s.parked i = false := by
  unfold Pc.Scans Pc.Kicks at hk
  cases h with
  | wake | wakeDup | wakeFirst | push | signal | write | spawn | inject | scan | exit | reject | finish =>
    simp only [State.setPc, Function.update_apply, Pc.Kicks, Pc.Scans]
    grind [State.Free]
  | _ => exact Or.inl hk

lemma step_bound (h : Step cfg s e s') (hb : ∀ a i, (s.pc a).Scans i → i < cfg.workers) (a : Thread)
    (i : WorkerId) (hk : (s'.pc a).Scans i) : i < cfg.workers := by
  have hpos := cfg.pos
  have ha := hb a i
  cases h with
  | wake | wakeDup | wakeFirst | push | signal | write | spawn | inject | scan | exit | reject | finish =>
    simp only [State.setPc, Function.update_apply, Pc.Kicks, Pc.Scans] at hk ha
    grind [afterDecrement]
  | _ => exact hb a i hk

/-- A worker past its look at the inbox has an entry there only because it was there before or was just
put there. -/
lemma step_inbox (h : Step cfg s e s') {w : WorkerId} (hw : (s'.loop w).pastInbox = true)
    (hne : s'.inbox w ≠ []) :
    ((s.loop w).pastInbox = true ∧ s.inbox w ≠ []) ∨ ∃ a, (s'.pc a).Kicks w .wake := by
  cases h with
  | @loop v l l' _ hl hstep =>
    by_cases hv : w = v
    · subst hv
      have hpast : l'.pastInbox = true := by simpa [State.setLoop] using hw
      rcases hstep.pastInbox hpast with hp | hempty
      · exact Or.inl ⟨hl ▸ hp, hne⟩
      · exact absurd hempty hne
    · exact Or.inl ⟨by simpa [State.setLoop, hv] using hw, hne⟩
  | @store v | @drainFd v | @unpark v =>
    by_cases hv : w = v
    · simp [State.setLoop, hv, Loop.pastInbox] at hw
    · exact Or.inl ⟨by simpa [State.setLoop, hv] using hw, hne⟩
  | @drain v _ hbusy =>
    by_cases hv : w = v
    · simp [hv] at hne
    · exact Or.inl ⟨hw, by simpa [hv] using hne⟩
  | @push a c v =>
    by_cases hv : w = v
    · exact Or.inr ⟨a, by simp [State.setPc, hv, Pc.Kicks]⟩
    · exact Or.inl ⟨hw, by simpa [hv] using hne⟩
  | _ => exact Or.inl ⟨hw, hne⟩

/-- The same for the injector. -/
lemma step_injector (h : Step cfg s e s') {w : WorkerId} (hw : (s'.loop w).pastInjector = true)
    (hne : s'.injector ≠ []) :
    ((s.loop w).pastInjector = true ∧ s.injector ≠ []) ∨ ∃ a, s'.pc a = .scan 0 := by
  cases h with
  | @loop v l l' _ hl hstep =>
    by_cases hv : w = v
    · subst hv
      have hpast : l'.pastInjector = true := by simpa [State.setLoop] using hw
      rcases hstep.pastInjector hpast with hp | hempty
      · exact Or.inl ⟨hl ▸ hp, hne⟩
      · exact absurd hempty hne
    · exact Or.inl ⟨by simpa [State.setLoop, hv] using hw, hne⟩
  | @store v | @drainFd v | @unpark v =>
    by_cases hv : w = v
    · simp [State.setLoop, hv, Loop.pastInjector] at hw
    · exact Or.inl ⟨by simpa [State.setLoop, hv] using hw, hne⟩
  | @inject a c => exact Or.inr ⟨a, by simp [State.setPc]⟩
  | @take v c _ _ _ hc => exact Or.inl ⟨hw, List.ne_nil_of_mem hc⟩
  | _ => exact Or.inl ⟨hw, hne⟩

/-- Worker 0 waits because it did so before or has just read a counter that is not zero. -/
lemma step_wait (h : Step cfg s e s') (hw : s'.loop 0 = .wait) :
    s.loop 0 = .wait ∨ ∃ ld, s.loop 0 = .test .park ld ∧ ¬ s'.Zero ld ∧ s'.pc = s.pc := by
  cases h with
  | @loop v l l' _ hl hstep =>
    by_cases hv : v = 0
    · subst hv
      obtain rfl : l' = .wait := by simpa [State.setLoop] using hw
      obtain ⟨ld, rfl, hz⟩ := hstep.nonzero_of_wait
      refine Or.inr ⟨ld, hl, ?_, rfl⟩
      cases ld <;> exact hz
    · exact Or.inl (by simpa [State.setLoop, Ne.symm hv] using hw)
  | @store v | @drainFd v | @unpark v =>
    by_cases hv : v = 0
    · subst hv
      simp [State.setLoop] at hw
    · exact Or.inl (by simpa [State.setLoop, Ne.symm hv] using hw)
  | _ => exact Or.inl hw

/-- While worker 0 waits, only others change what it reads; the last decrement is followed by a signal. -/
lemma step_nonzero (h : Step cfg s e s') (hw : s.loop 0 = .wait) {l : Load} (hl : l ≠ .injector)
    (hz : ¬ s.Zero l) : ¬ s'.Zero l ∨ ∃ a, (s'.pc a).Kicks 0 .last := by
  have busy {v : WorkerId} (hb : s.loop v = .busy) : v ≠ 0 := by
    rintro rfl
    simp [hw] at hb
  have acting {v : WorkerId} (hv : s.Acting cfg (.on v)) : v ≠ 0 := by
    rintro rfl
    simp [State.Acting, hw] at hv
  cases h with
  | enqueue _ hv =>
    have hv0 : _ ≠ 0 := hv.elim acting (by rintro h rfl; simp [hw] at h)
    exact Or.inl (by cases l <;> simpa [State.Zero, hv0.symm] using hz)
  | dequeue _ hb | drain _ hb =>
    exact Or.inl (by cases l <;> simpa [State.Zero, (busy hb).symm] using hz)
  | arm hv | expire hv =>
    exact Or.inl (by cases l <;> simpa [State.Zero, (acting hv).symm] using hz)
  | @push a c v =>
    refine Or.inl ?_
    cases l with
    | inbox =>
      by_cases hv : v = 0
      · simp [State.Zero, hv]
      · simpa [State.Zero, Ne.symm hv] using hz
    | _ => exact hz
  | spawn =>
    refine Or.inl ?_
    cases l with
    | active =>
      simp only [State.Zero] at hz ⊢
      split <;> omega
    | _ => exact hz
  | spawnLocal hfree =>
    refine Or.inl ?_
    cases l with
    | active =>
      simp only [State.Zero] at hz ⊢
      split <;> omega
    | ready => simpa [State.Zero, (acting hfree.1).symm] using hz
    | _ => exact hz
  | inject | take => exact Or.inl (by cases l <;> first | exact hz | exact absurd rfl hl)
  | submit =>
    refine Or.inl ?_
    cases l with
    | work => exact Nat.succ_ne_zero _
    | _ => exact hz
  | @exit v c _ hb =>
    cases l with
    | active =>
      by_cases hd : cfg.daemon c = true
      · exact Or.inl (by simpa [State.Zero, hd] using hz)
      · by_cases h1 : s.active = 1
        · exact Or.inr ⟨.on v, by simp [State.setPc, hd, h1, afterDecrement, busy hb, Pc.Kicks]⟩
        · exact Or.inl (by simp only [State.Zero, hd] at hz ⊢; simp; omega)
    | _ => exact Or.inl hz
  | @reject a t hfree =>
    cases l with
    | work =>
      by_cases h1 : s.work = 1
      · have ha : a ≠ .on 0 := fun h => acting (h ▸ hfree.1) rfl
        exact Or.inr ⟨a, by simp [State.setPc, h1, afterDecrement, ha, Pc.Kicks]⟩
      · exact Or.inl (by simp only [State.Zero] at hz ⊢; omega)
    | _ => exact Or.inl hz
  | @finish v t _ _ hb =>
    cases l with
    | work =>
      by_cases h1 : s.work = 1
      · exact Or.inr ⟨.on v, by simp [State.setPc, h1, afterDecrement, busy hb, Pc.Kicks]⟩
      · exact Or.inl (by simp only [State.Zero] at hz ⊢; omega)
    | _ => exact Or.inl hz
  | _ => exact Or.inl (by cases l <;> exact hz)

end Step

/-! ## The invariant -/

/-- No kick is lost. -/
structure KickInv (cfg : Config) (s : State) : Prop where
  parked : ∀ w, s.parked w = (s.loop w).isParked
  bound : ∀ a i, (s.pc a).Scans i → i < cfg.workers
  /-- An entry that a parked worker has not seen comes with a kick. -/
  inbox : ∀ w, (s.loop w).pastInbox = true → s.inbox w ≠ [] →
    s.fd w = true ∨ ∃ a, (s.pc a).Kicks w .wake
  /-- Someone will look at a coroutine on the injector. -/
  injector : s.injector ≠ [] →
    (∃ i < cfg.workers, (s.loop i).pastInjector = false ∨ s.fd i = true) ∨ ∃ a i, (s.pc a).Scans i
  /-- Worker 0 is the first one the scan of `s_spawn_impl` looks at. -/
  first : (s.loop 0).pastInjector = true → s.injector ≠ [] →
    s.fd 0 = true ∨ ∃ a, (s.pc a).Scans 0
  /-- Worker 0 waits for a reason, or for a kick. -/
  complete : s.loop 0 = .wait →
    s.fd 0 = true ∨ (∃ a, (s.pc a).Scans 0 ∨ (s.pc a).Kicks 0 .last) ∨ ∃ l ≠ .injector, ¬ s.Zero l

lemma kickInv_init (cfg : Config) : KickInv cfg .init where
  parked := fun w => by by_cases hw : w = 0 <;> simp [State.init, hw, Loop.isParked]
  bound := fun a i h => by simp [State.init, Pc.Scans, Pc.Kicks] at h
  inbox := fun w _ h => absurd rfl h
  injector := fun h => absurd rfl h
  first := fun _ h => absurd rfl h
  complete := fun h => by simp [State.init] at h

section Preservation

variable {cfg : Config} {s s' : State} {e : Event}

lemma KickInv.inbox_step (hi : KickInv cfg s) (h : Step cfg s e s') (w : WorkerId)
    (hw : (s'.loop w).pastInbox = true) (hne : s'.inbox w ≠ []) :
    s'.fd w = true ∨ ∃ a, (s'.pc a).Kicks w .wake := by
  rcases step_inbox h hw hne with ⟨hw', hne'⟩ | hkick
  · have hparked : s.parked w = true := (hi.parked w).trans (Loop.isParked_of_pastInbox hw')
    rcases hi.inbox w hw' hne' with hfd | ⟨a, ha⟩
    · rcases step_fd h hfd with hfd | hwoke
      · exact Or.inl hfd
      · simp [hwoke, Loop.pastInbox] at hw
    · rcases step_kicks h ha with ha | hfd | hnot
      · exact Or.inr ⟨a, ha⟩
      · exact Or.inl hfd
      · simp [hparked] at hnot
  · exact Or.inr hkick

lemma KickInv.first_step (hi : KickInv cfg s) (h : Step cfg s e s')
    (hw : (s'.loop 0).pastInjector = true) (hne : s'.injector ≠ []) :
    s'.fd 0 = true ∨ ∃ a, (s'.pc a).Scans 0 := by
  rcases step_injector h hw hne with ⟨hw', hne'⟩ | ⟨a, ha⟩
  · have hparked : s.parked 0 = true := (hi.parked 0).trans (Loop.isParked_of_pastInjector hw')
    rcases hi.first hw' hne' with hfd | ⟨a, ha⟩
    · rcases step_fd h hfd with hfd | hwoke
      · exact Or.inl hfd
      · simp [hwoke, Loop.pastInjector] at hw
    · rcases step_scans h ha with ha | hfd | hnot
      · exact Or.inr ⟨a, ha⟩
      · exact Or.inl hfd
      · simp [hparked] at hnot
  · exact Or.inr ⟨a, Or.inl ha⟩

lemma KickInv.injector_step (hi : KickInv cfg s) (h : Step cfg s e s') (hne : s'.injector ≠ []) :
    (∃ i < cfg.workers, (s'.loop i).pastInjector = false ∨ s'.fd i = true) ∨
      ∃ a i, (s'.pc a).Scans i := by
  by_contra hno
  push Not at hno
  obtain ⟨hall, hscan⟩ := hno
  -- otherwise all workers were past their look at the injector before the step, too
  have hpast (i : WorkerId) (hi' : i < cfg.workers) :
      (s.loop i).pastInjector = true ∧ s.injector ≠ [] := by
    have hw : (s'.loop i).pastInjector = true := by simpa using (hall i hi').1
    rcases step_injector h hw hne with hold | ⟨a, ha⟩
    · exact hold
    · exact absurd (Or.inl ha) (hscan a 0)
  rcases hi.injector (hpast 0 cfg.pos).2 with ⟨i, hi', hold⟩ | ⟨a, i, ha⟩
  · rcases hold with hnot | hfd
    · simp [(hpast i hi').1] at hnot
    · rcases step_fd h hfd with hfd | hwoke
      · exact absurd hfd (hall i hi').2
      · exact absurd (by simp [hwoke, Loop.pastInjector]) (hall i hi').1
  · have hbound := hi.bound a i ha
    rcases step_scans h ha with ha | hfd | hnot
    · exact hscan a i ha
    · exact (hall i hbound).2 hfd
    · have := Loop.isParked_of_pastInjector (hpast i hbound).1
      simp [hi.parked i, this] at hnot

lemma KickInv.complete_step (hi : KickInv cfg s) (h : Step cfg s e s') (hw : s'.loop 0 = .wait) :
    s'.fd 0 = true ∨ (∃ a, (s'.pc a).Scans 0 ∨ (s'.pc a).Kicks 0 .last) ∨
      ∃ l ≠ .injector, ¬ s'.Zero l := by
  rcases step_wait h hw with hw' | ⟨ld, htest, hz, hpc⟩
  · have hparked : s.parked 0 = true := by simp [hi.parked, hw', Loop.isParked]
    rcases hi.complete hw' with hfd | ⟨a, ha⟩ | ⟨l, hl, hz⟩
    · rcases step_fd h hfd with hfd | hwoke
      · exact Or.inl hfd
      · simp [hwoke] at hw
    · rcases ha with ha | ha
      · rcases step_scans h ha with ha | hfd | hnot
        · exact Or.inr (Or.inl ⟨a, Or.inl ha⟩)
        · exact Or.inl hfd
        · simp [hparked] at hnot
      · rcases step_kicks h ha with ha | hfd | hnot
        · exact Or.inr (Or.inl ⟨a, Or.inr ha⟩)
        · exact Or.inl hfd
        · simp [hparked] at hnot
    · rcases step_nonzero h hw' hl hz with hz | ⟨a, ha⟩
      · exact Or.inr (Or.inr ⟨l, hl, hz⟩)
      · exact Or.inr (Or.inl ⟨a, Or.inr ha⟩)
  · by_cases hl : ld = .injector
    · subst hl
      -- the load found a coroutine that came after the worker's own look at the injector
      rcases hi.first_step h (by simp [hw, Loop.pastInjector]) hz with hfd | ⟨a, ha⟩
      · exact Or.inl hfd
      · exact Or.inr (Or.inl ⟨a, Or.inl ha⟩)
    · exact Or.inr (Or.inr ⟨ld, hl, hz⟩)

theorem kickInv_step (hi : KickInv cfg s) (h : Step cfg s e s') : KickInv cfg s' where
  parked := step_parked h hi.parked
  bound := step_bound h hi.bound
  inbox := hi.inbox_step h
  injector := hi.injector_step h
  first := hi.first_step h
  complete := hi.complete_step h

end Preservation

theorem kickInv_reachable {cfg : Config} {s : State} (h : Reachable (Step cfg) .init s) :
    KickInv cfg s :=
  h.invariant (kickInv_init cfg) fun _ _ _ hi hstep => kickInv_step hi hstep

/-- No kick is lost.  A worker blocked with an unreadable wake descriptor has an empty inbox, or a producer
is between its push and its signal; if all workers are so blocked, the injector is empty, or a spawner is
between its push and its signal; and worker 0 is so blocked while `s_run_complete` holds only if a thread is
between the decrement that returned 1 and its signal, or a spawner is between its push and its signal to
worker 0. -/
theorem no_lost_kick (cfg : Config) {s : State} (h : Reachable (Step cfg) .init s) :
    (∀ w, s.Blocked w → s.inbox w ≠ [] → ∃ a, (s.pc a).Kicks w .wake) ∧
    ((∀ w < cfg.workers, s.Blocked w) → s.injector ≠ [] → ∃ a i, (s.pc a).Scans i) ∧
    (s.Blocked 0 → s.RunComplete → ∃ a, (s.pc a).Kicks 0 .last ∨ (s.pc a).Scans 0) := by
  have hi := kickInv_reachable h
  refine ⟨?_, ?_, ?_⟩
  · rintro w ⟨hw, hfd⟩ hne
    rcases hi.inbox w (by simp [hw, Loop.pastInbox]) hne with hfd' | hkick
    · simp [hfd] at hfd'
    · exact hkick
  · intro hall hne
    rcases hi.injector hne with ⟨i, hi', hold⟩ | hscan
    · obtain ⟨hw, hfd⟩ := hall i hi'
      simp [hw, hfd, Loop.pastInjector] at hold
    · exact hscan
  · rintro ⟨hw, hfd⟩ hcomplete
    rcases hi.complete hw with hfd' | ⟨a, ha⟩ | ⟨l, -, hz⟩
    · simp [hfd] at hfd'
    · exact ⟨a, ha.symm⟩
    · exact absurd (hcomplete l) hz

/-! ## A foreign spawner and worker 0 -/

/-- Two workers; all coroutines are daemons, as the drainers of queues are. -/
def twoWorkers : Config := ⟨2, Nat.two_pos, fun _ => true⟩

/-- A foreign thread creates two queues, one before worker 0 parks and one between the worker's own look at
the injector and that of `s_run_complete`; the helper takes both drainers. -/
lemma foreign_spawner_run : ∃ s, Reachable (Step twoWorkers) .init s ∧ s.Blocked 0 ∧ s.RunComplete ∧
    s.pc (.ext 0) = .scan 0 ∧ ∀ a, ¬ (s.pc a).Kicks 0 .last := by
  have hreach : Reachable (Step twoWorkers) .init _ :=
    ⟨_, .cons (.spawn (a := .ext 0) (c := 0) ⟨trivial, rfl⟩ (by simp [State.init]) (.inl (by decide))) <|
      .cons (.inject (a := .ext 0) (c := 0) trivial rfl) <|
      .cons (.loop (w := 0) (by decide) rfl (.run rfl rfl rfl)) <|
      .cons (.loop (w := 0) (by decide) rfl (.idle rfl rfl rfl)) <|
      .cons (.loop (w := 0) (l := .test .loop .ready) (by decide) rfl (.pass rfl rfl rfl)) <|
      .cons (.loop (w := 0) (l := .test .loop .inbox) (by decide) rfl (.pass rfl rfl rfl)) <|
      .cons (.loop (w := 0) (l := .test .loop .injector) (by decide) rfl (.nonzero rfl (by decide))) <|
      .cons (.take (w := 1) (c := 0) (by decide) rfl rfl (by decide)) <|
      .cons (.scan (a := .ext 0) (i := 0) trivial rfl) <|
      .cons (.scan (a := .ext 0) (i := 1) trivial rfl) <|
      .cons (.store (w := 0) (by decide) rfl) <|
      .cons (.loop (w := 0) (by decide) rfl .inbox) <|
      .cons (.loop (w := 0) (by decide) rfl .injector) <|
      .cons (.loop (w := 0) (by decide) rfl .stop) <|
      .cons (.loop (w := 0) (l := .test .park .ready) (by decide) rfl (.pass rfl rfl rfl)) <|
      .cons (.loop (w := 0) (l := .test .park .inbox) (by decide) rfl (.pass rfl rfl rfl)) <|
      .cons (.spawn (a := .ext 0) (c := 1) ⟨trivial, rfl⟩ (by simp [State.init, State.setLoop, State.setPc])
        (.inl (by decide))) <|
      .cons (.inject (a := .ext 0) (c := 1) trivial rfl) <|
      .cons (.loop (w := 0) (l := .test .park .injector) (by decide) rfl (.nonzero rfl (by decide))) <|
      .cons (.take (w := 1) (c := 1) (by decide) rfl rfl (by decide)) <| .nil _⟩
  refine ⟨_, hreach, ⟨rfl, rfl⟩, ?_, rfl, ?_⟩
  · intro l
    cases l <;> rfl
  · rintro (w | f)
    · exact fun h => h.elim Pc.noConfusion Pc.noConfusion
    · cases f with
      | zero => exact fun h => h.elim Pc.noConfusion Pc.noConfusion
      | succ f => exact fun h => h.elim Pc.noConfusion Pc.noConfusion

/-- The spawner's write is still to come when worker 0 is blocked with nothing left to do. -/
theorem foreign_spawner_blocks : ¬ ∀ (cfg : Config) (s : State), Reachable (Step cfg) .init s →
    s.Blocked 0 → s.RunComplete → ∃ w, (s.pc (.on w)).Kicks 0 .last := by
  intro h
  obtain ⟨s, hs, hblocked, hcomplete, -, hnone⟩ := foreign_spawner_run
  obtain ⟨w, hw⟩ := h twoWorkers s hs hblocked hcomplete
  exact hnone (.on w) hw

/-- In that state the spawner is the thread that `no_lost_kick` names. -/
theorem no_lost_kick_spawner : ∃ s, Reachable (Step twoWorkers) .init s ∧ s.Blocked 0 ∧ s.RunComplete ∧
    ∃ a, (s.pc a).Scans 0 := by
  obtain ⟨s, hs, hblocked, hcomplete, -, hnone⟩ := foreign_spawner_run
  obtain ⟨a, ha⟩ := (no_lost_kick twoWorkers hs).2.2 hblocked hcomplete
  exact ⟨s, hs, hblocked, hcomplete, a, ha.resolve_left (hnone a)⟩

end Suspenders.Idle
