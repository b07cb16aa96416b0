import Suspenders.Coro.Place

/-!
# A wake that finds its coroutine ready

`suspenders_resume` of a coroutine that is not parked is documented as a no-op.  On the coroutine's own worker it
is one.  From another worker it goes through the inbox, and `s_inbox_deliver` records in `pending_wake` what it
cannot deliver; the record survives every switch of the coroutine until it suspends, and then ends that suspension.
-/

namespace Suspenders.Coro

open Lib

namespace State

variable (s : State)

@[simp] lemma enqueue_state (a : Thread) (c : CrId) :
    (s.enqueue a c).state = Function.update s.state c (some .ready) := rfl

lemma mem_enqueue (a : Thread) (c : CrId) : c ∈ (s.enqueue a c).lists (.ready a (s.eff c)) := by
  simp [enqueue, append, setState]

/-- Coroutine `c` has a wake on record that no cancel can turn into something else. -/
def Recorded (c : CrId) : Prop := s.pendingWake c = true ∧ s.cancelReq c = false

variable {s} {c : CrId}

/-- A delivery takes no record away. -/
lemma Recorded.deliver (h : s.Recorded c) (w : WorkerId) (c' : CrId) (d : Delivery) :
    (s.deliver w c' d).Recorded c := by
  cases d with
  | plain =>
    simp only [State.deliver]
    split_ifs
    · exact h
    · exact h
    · refine ⟨?_, h.2⟩
      by_cases hc : c = c'
      · subst hc
        simp
      · simpa [Function.update_of_ne hc] using h.1
  | decided =>
    simp only [State.deliver]
    split_ifs <;> exact h
  | inOp => exact h

/-- A delivery suspends no coroutine. -/
lemma deliver_not_suspended (hs : s.state c ≠ some .suspended) (w : WorkerId) (c' : CrId) (d : Delivery) :
    (s.deliver w c' d).state c ≠ some .suspended := by
  have henq : (s.enqueue (.on w) c').state c ≠ some .suspended := by
    rw [enqueue_state]
    by_cases hc : c = c'
    · subst hc
      simp
    · rwa [Function.update_of_ne hc]
  cases d with
  | plain =>
    simp only [State.deliver]
    split_ifs
    · exact henq
    · exact hs
    · exact hs
  | decided =>
    simp only [State.deliver]
    split_ifs
    · exact henq
    · exact hs
  | inOp => exact hs

lemma Recorded.plain (h : s.Recorded c) {d : Delivery} (hd : d ≠ .plain → s.cancelReq c = true) : d = .plain := by
  by_contra hne
  have hcancel := hd hne
  rw [h.2] at hcancel
  cases hcancel

/-- The test of another coroutine's `pending_wake` takes no record away. -/
lemma Recorded.post_of_ne (h : s.Recorded c) {c' : CrId} (hc : c ≠ c') (w : WorkerId) (d : Delivery) :
    (s.post w c' d).Recorded c := by
  simp only [State.post]
  split_ifs
  · have hrec : State.Recorded { s with pendingWake := Function.update s.pendingWake c' false } c :=
      ⟨by simpa [Function.update_of_ne hc] using h.1, h.2⟩
    exact hrec.deliver w c' d
  · exact h

/-- The test of its own `pending_wake` puts the record back if the coroutine is not suspended. -/
lemma Recorded.post (h : s.Recorded c) (hs : s.state c ≠ some .suspended) (w : WorkerId) (c' : CrId)
    (d : Delivery) (hd : d ≠ .plain → s.cancelReq c' = true) : (s.post w c' d).Recorded c := by
  by_cases hc : c = c'
  · subst hc
    rw [h.plain hd]
    simp only [State.post]
    split_ifs with htest
    · simp only [State.deliver, if_neg hs, if_neg htest.2]
      exact ⟨by simp, h.2⟩
    · exact h
  · exact h.post_of_ne hc w d

lemma post_not_suspended (hs : s.state c ≠ some .suspended) (w : WorkerId) (c' : CrId) (d : Delivery) :
    (s.post w c' d).state c ≠ some .suspended := by
  simp only [State.post]
  split_ifs
  · exact deliver_not_suspended (s := { s with pendingWake := Function.update s.pendingWake c' false }) hs w c' d
  · exact hs

/-- A suspended coroutine with a record is put on the ready list by the test after its switch. -/
lemma Recorded.wakes (h : s.Recorded c) (hs : s.state c = some .suspended) (w : WorkerId) (d : Delivery)
    (hd : d ≠ .plain → s.cancelReq c = true) :
    (s.post w c d).state c = some .ready ∧ c ∈ (s.post w c d).lists (.ready (.on w) ((s.post w c d).eff c)) := by
  obtain rfl := h.plain hd
  have hpost : s.post w c .plain =
      { s with pendingWake := Function.update s.pendingWake c false }.enqueue (.on w) c := by
    simp [State.post, State.deliver, h.1, hs]
  rw [hpost]
  exact ⟨by simp, mem_enqueue _ _ _⟩

end State

/-- A step that neither suspends nor cancels coroutine `c`. -/
def Onward (c : CrId) (_ : State) (e : Event) (_ : State) : Prop := (∀ w, e ≠ .suspend w c) ∧ e ≠ .cancel c

/-- A step during which coroutine `c` is suspended, and that does not cancel it. -/
def Parked (c : CrId) (s : State) (e : Event) (t : State) : Prop :=
  s.state c = some .suspended ∧ t.state c = some .suspended ∧ e ≠ .cancel c

/-- Until coroutine `c` suspends, its record stays. -/
lemma recorded_onward {n : ℕ} {c : CrId} {s t : State} {e : Event}
    (hs : s.Recorded c ∧ s.state c ≠ some .suspended) (h : Restrict (Step n) (Onward c) s e t) :
    t.Recorded c ∧ t.state c ≠ some .suspended := by
  obtain ⟨hrec, hst⟩ := hs
  obtain ⟨hstep, hsus, hcan⟩ := h
  have hset {c' : CrId} {x : CrState} (hx : x ≠ .suspended) :
      Function.update s.state c' (some x) c ≠ some .suspended := by
    by_cases hc : c = c'
    · subst hc
      simpa using hx
    · rwa [Function.update_of_ne hc]
  cases hstep with
  | spawn _ _ _ | spawnLocal _ _ _ _ => exact ⟨hrec, hset (by decide)⟩
  | @take w c' q rest =>
    refine ⟨⟨?_, hrec.2⟩, hset (by decide)⟩
    by_cases hc : c = c'
    · subst hc
      simp [State.switchTo, State.setState, hrec.1]
    · simpa [State.switchTo, State.setState, Function.update_of_ne hc] using hrec.1
  | dequeue _ _ _ _ => exact ⟨hrec, hset (by decide)⟩
  | yield _ => exact ⟨hrec, hset (by decide)⟩
  | @suspend w c' _ =>
    have hc : c ≠ c' := fun h => hsus w (h ▸ rfl)
    refine ⟨?_, ?_⟩
    · split_ifs <;> exact hrec
    · split_ifs
      · simpa [State.switchOut, State.setState, State.setLoop, Function.update_of_ne hc] using hst
      · exact hst
  | exit _ => exact ⟨hrec, hset (by decide)⟩
  | @post w c' d _ hd => exact ⟨hrec.post hst w c' d hd, State.post_not_suspended hst w c' d⟩
  | drain _ | pop _ | drained _ => exact ⟨hrec, hst⟩
  | @deliver w c' _ d _ _ => exact ⟨hrec.deliver w c' d, State.deliver_not_suspended hst w c' d⟩
  | callback _ _ _ => exact ⟨hrec, hset (by decide)⟩
  | load _ _ => exact ⟨hrec, hst⟩
  | @test a c' _ x _ =>
    simp only [State.test]
    split_ifs
    · exact ⟨hrec, hst⟩
    · cases x with
      | running | ready => exact ⟨hrec, hst⟩
      | suspended | done => exact ⟨hrec, hset (by decide)⟩
  | exchange _ | push _ => exact ⟨hrec, hst⟩
  | @cancel a c' _ _ | @consume w c' _ =>
    have hc : c ≠ c' := fun h => hcan (h ▸ rfl)
    exact ⟨⟨hrec.1, by simpa [Function.update_of_ne hc] using hrec.2⟩, hst⟩
  | boost => exact ⟨hrec, hst⟩
  | reap _ => exact ⟨hrec, hst⟩

/-- While coroutine `c` stays suspended, its record stays: the test that takes it ends the suspension. -/
lemma recorded_parked {n : ℕ} {c : CrId} {s t : State} {e : Event} (hrec : s.Recorded c)
    (h : Restrict (Step n) (Parked c) s e t) : t.Recorded c := by
  obtain ⟨hstep, hst, hst', hcan⟩ := h
  cases hstep with
  | spawn _ _ _ | spawnLocal _ _ _ _ => exact hrec
  | @take w c' q rest =>
    refine ⟨?_, hrec.2⟩
    by_cases hc : c = c'
    · subst hc
      simp [State.switchTo, State.setState, hrec.1]
    · simpa [State.switchTo, State.setState, Function.update_of_ne hc] using hrec.1
  | dequeue _ _ _ _ | yield _ | exit _ => exact hrec
  | suspend _ => split_ifs <;> exact hrec
  | @post w c' d _ hd =>
    by_cases hc : c = c'
    · subst hc
      have hready := (hrec.wakes hst w d hd).1
      rw [show ((s.post w c d).setLoop w .top).state = (s.post w c d).state from rfl, hready] at hst'
      cases hst'
    · exact hrec.post_of_ne hc w d
  | drain _ | pop _ | drained _ => exact hrec
  | @deliver w c' _ d _ _ => exact hrec.deliver w c' d
  | callback _ _ _ | load _ _ => exact hrec
  | @test a c' _ x _ =>
    simp only [State.test]
    split_ifs
    · exact hrec
    · cases x <;> exact hrec
  | exchange _ | push _ => exact hrec
  | @cancel a c' _ _ | @consume w c' _ =>
    have hc : c ≠ c' := fun h => hcan (h ▸ rfl)
    exact ⟨hrec.1, by simpa [Function.update_of_ne hc] using hrec.2⟩
  | boost => exact hrec
  | reap _ => exact hrec

/-! ## The two ways of a resume -/

lemma load_eq {n : ℕ} {a : Thread} {c : CrId} {s t : State} (h : Step n s (.load a c) t) :
    t = s.setPc a (s.route a c) := by
  cases h
  rfl

lemma test_eq {n : ℕ} {a : Thread} {c : CrId} {read : Option WorkerId} {x : CrState} {s t : State}
    (hpc : s.pc a = .test c read x) (h : Step n s (.test a) t) : t = s.test a c read x := by
  cases h with
  | test h =>
    obtain ⟨rfl, rfl, rfl⟩ : c = _ ∧ read = _ ∧ x = _ := by simpa [hpc] using h
    rfl

/-- On the coroutine's own worker, a resume of a ready coroutine changes nothing. -/
lemma resume_local {n : ℕ} {w : WorkerId} {c : CrId} {s t : State} (hidle : s.pc (.on w) = .idle)
    (hpin : s.pin c = some w) (hready : s.state c = some .ready)
    (h : Run (Step n) s [.load (.on w) c, .test (.on w), .test (.on w)] t) : t = s := by
  have hroute : s.route (.on w) c = .test c (some w) .running := by
    simp [State.route, hpin, Thread.worker]
  obtain _ | ⟨hload, _ | ⟨hrunning, _ | ⟨hlast, _ | _⟩⟩⟩ := h
  obtain rfl := load_eq hload
  obtain rfl := test_eq (c := c) (x := .running) (show _ = Pc.test c (some w) _ by simp [State.setPc, hroute]) hrunning
  have htest : ((s.setPc (.on w) (s.route (.on w) c)).test (.on w) c (some w) .running) =
      s.setPc (.on w) (.test c (some w) .ready) := by
    simp [State.test, State.setPc, hready]
  rw [htest] at hlast
  obtain rfl := test_eq (c := c) (x := .ready) (show _ = Pc.test c (some w) _ by simp [State.setPc]) hlast
  simp [State.test, State.setPc, hready, ← hidle]

/-- A wake that finds coroutine `c` ready, delivered while no cancel is requested, is recorded. -/
lemma deliver_records {n : ℕ} {w : WorkerId} {c : CrId} {rest : List CrId} {s t : State}
    (hloop : s.AtLoop w (.deliver c rest)) (hready : s.state c = some .ready) (hcancel : s.cancelReq c = false)
    (h : Step n s (.inbox w) t) : t.Recorded c ∧ t.state c ≠ some .suspended := by
  cases h with
  | @deliver _ c' rest' d hloop' hd =>
    obtain ⟨rfl, rfl⟩ : c = c' ∧ rest = rest' := by simpa [hloop.2.1] using hloop'.2.1
    have hplain : d = .plain := by
      by_contra hne
      have h := hd hne
      rw [hcancel] at h
      cases h
    subst hplain
    simp only [State.deliver, hready]
    exact ⟨⟨by simp [State.setLoop], hcancel⟩, by simp [State.setLoop, hready]⟩
  | post hloop' _ | drain hloop' | pop hloop' | drained hloop' => simp [State.AtLoop, hloop.2.1] at hloop'

/-- A resume of a ready coroutine, the same on its own worker and through the inbox?  On its own worker nothing
changes.  Through the inbox, the coroutine's next suspension ends at once, without a further resume. -/
theorem resume_of_ready (n : ℕ) (w : WorkerId) (c : CrId) (s : State) (hready : s.state c = some .ready) :
    (s.pc (.on w) = .idle → s.pin c = some w →
      ∀ t, Run (Step n) s [.load (.on w) c, .test (.on w), .test (.on w)] t → t = s) ∧
    ∀ rest t, s.AtLoop w (.deliver c rest) → s.cancelReq c = false → Step n s (.inbox w) t →
      ∀ es u w' u' es' v v', Run (Restrict (Step n) (Onward c)) t es u → Step n u (.suspend w' c) u' →
        Run (Restrict (Step n) (Parked c)) u' es' v → v.AtLoop w' (.post c) → v.state c = some .suspended →
        Step n v (.inbox w') v' →
        v'.state c = some .ready ∧ c ∈ v'.lists (.ready (.on w') (v'.eff c)) := by
  refine ⟨fun hidle hpin t h => resume_local hidle hpin hready h, ?_⟩
  intro rest t hloop hcancel hdeliver es u w' u' es' v v' honward hsuspend hparked hpost hst hstep
  have hu : u.Recorded c ∧ u.state c ≠ some .suspended :=
    Run.invariant (I := fun s => s.Recorded c ∧ s.state c ≠ some .suspended)
      (fun _ _ _ hs h => recorded_onward hs h) honward (deliver_records hloop hready hcancel hdeliver)
  have hu' : u'.Recorded c := by
    cases hsuspend with
    | suspend _ => split_ifs <;> exact hu.1
  have hv : v.Recorded c := hparked.invariant (I := fun s => s.Recorded c) (fun _ _ _ hs h => recorded_parked hs h) hu'
  cases hstep with
  | @post _ c' d hpost' hd =>
    obtain rfl : c = c' := by simpa [hpost.2.1] using hpost'.2.1
    exact hv.wakes hst w' d hd
  | drain hpost' | pop hpost' | deliver hpost' _ | drained hpost' => simp [State.AtLoop, hpost.2.1] at hpost'

/-- Coroutine 0 has yielded on worker 1, and a wake from worker 0 is about to be delivered to it. -/
theorem resume_of_ready_yielded : ∃ s : State, Reachable (Step 2) .init s ∧ s.AtLoop 1 (.deliver 0 []) ∧
    s.state 0 = some .ready ∧
    (∀ t, Run (Step 2) s [.load (.on 1) 0, .test (.on 1), .test (.on 1)] t → t = s) ∧
    ∃ v : State, v.state 0 = some .ready ∧ 0 ∈ v.lists (.ready (.on 1) (v.eff 0)) := by
  have hs : Reachable (Step 2) .init _ :=
    ⟨_, .cons (.spawn (a := .ext 0) (c := 0) (q := 2) rfl rfl (.inl (by decide))) <|
      .cons (.take (w := 1) (c := 0) (q := 2) (by decide) ⟨rfl, rfl, rfl⟩ (fun _ => rfl) rfl (by decide)) <|
      .cons (.yield (w := 1) (c := 0) ⟨rfl, rfl⟩) <|
      .cons (.load (a := .on 0) (c := 0) rfl (by decide)) <|
      .cons (.exchange (a := .on 0) (c := 0) (w := 1) rfl) <|
      .cons (.push (a := .on 0) (c := 0) (w := 1) rfl) <|
      .cons (.post (w := 1) (c := 0) (d := .plain) ⟨rfl, rfl, rfl⟩ (by simp)) <|
      .cons (.drain (w := 1) ⟨rfl, rfl, rfl⟩) <|
      .cons (@Step.pop _ _ 1 0 [] ⟨rfl, rfl, rfl⟩) <| .nil _⟩
  have hof (s : State) (_ : Reachable (Step 2) .init s) (h : s.state 0 = some .ready) := resume_of_ready 2 1 0 s h
  exact ⟨_, hs, ⟨rfl, rfl, rfl⟩, rfl, (hof _ hs rfl).1 rfl rfl, _, (hof _ hs rfl).2 [] _ ⟨rfl, rfl, rfl⟩ rfl
    (.deliver (w := 1) (c := 0) (d := .plain) ⟨rfl, rfl, rfl⟩ (by simp)) _ _ 1 _ _ _ _
    (.cons ⟨.drained (w := 1) ⟨rfl, rfl, rfl⟩, by simp [Onward]⟩ <|
      .cons ⟨.dequeue (w := 1) (c := 0) (q := 2) (by decide) ⟨rfl, rfl, rfl⟩ rfl (by decide), by simp [Onward]⟩ <|
      .nil _)
    (.suspend (w := 1) (c := 0) ⟨rfl, rfl⟩) (.nil _) ⟨rfl, rfl, rfl⟩ rfl
    (.post (w := 1) (c := 0) (d := .plain) ⟨rfl, rfl, rfl⟩ (by simp))⟩

/-- A step that is no wake of coroutine `c` and does not cancel it. -/
def Quiet (c : CrId) (_ : State) (e : Event) (_ : State) : Prop :=
  (∀ a, e ≠ .load a c) ∧ (∀ w, e ≠ .callback w c) ∧ e ≠ .cancel c

/-- A step during which coroutine `c` is ready. -/
def Ready (c : CrId) (s : State) (_ : Event) (t : State) : Prop :=
  s.state c = some .ready ∧ t.state c = some .ready

/-- Coroutine 0 has yielded on worker 1.  A coroutine of worker 0 resumes it; nobody else ever does.  When
coroutine 0 has run again and suspends, worker 1 finds the wake on record and makes it ready. -/
theorem remote_resume_ends_suspension : ¬ ∀ (n : ℕ) (c : CrId) (w : WorkerId) (a : Thread) (s s' t u u' v : State)
    (es es' es'' : List Event), Reachable (Step n) .init s → s.pin c = some w → a.worker ≠ some w →
    (∀ b, s.pc b = .idle) → (∀ x, s.inbox x = []) → s.inflight c = false → s.pendingWake c = false →
    Run (Restrict (Step n) (Ready c)) s (.load a c :: es) s' → (∃ rest, s'.AtLoop w (.deliver c rest)) →
    Step n s' (.inbox w) t → Run (Restrict (Step n) (Quiet c)) t es' u → Step n u (.suspend w c) u' →
    Run (Restrict (Step n) (Quiet c)) u' es'' v → v.state c = some .suspended := by
  intro h
  have hs : Reachable (Step 2) .init _ :=
    ⟨_, .cons (.spawn (a := .ext 0) (c := 0) (q := 2) rfl rfl (.inl (by decide))) <|
      .cons (.take (w := 1) (c := 0) (q := 2) (by decide) ⟨rfl, rfl, rfl⟩ (fun _ => rfl) rfl (by decide)) <|
      .cons (.spawn (a := .ext 0) (c := 1) (q := 2) rfl rfl (.inl (by decide))) <|
      .cons (.take (w := 0) (c := 1) (q := 2) (by decide) ⟨rfl, rfl, rfl⟩ (fun _ => rfl) rfl (by decide)) <|
      .cons (.yield (w := 1) (c := 0) ⟨rfl, rfl⟩) <| .nil _⟩
  have hv := h 2 0 1 (.on 0) _ _ _ _ _ _ _ _ _ hs rfl (by decide) (fun _ => rfl) (fun _ => rfl) rfl rfl
    (.cons ⟨.load (a := .on 0) (c := 0) rfl (by decide), rfl, rfl⟩ <|
      .cons ⟨.exchange (a := .on 0) (c := 0) (w := 1) rfl, rfl, rfl⟩ <|
      .cons ⟨.push (a := .on 0) (c := 0) (w := 1) rfl, rfl, rfl⟩ <|
      .cons ⟨.post (w := 1) (c := 0) (d := .plain) ⟨rfl, rfl, rfl⟩ (by simp), rfl, rfl⟩ <|
      .cons ⟨.drain (w := 1) ⟨rfl, rfl, rfl⟩, rfl, rfl⟩ <|
      .cons ⟨@Step.pop _ _ 1 0 [] ⟨rfl, rfl, rfl⟩, rfl, rfl⟩ <| .nil _)
    ⟨[], rfl, rfl, rfl⟩ (.deliver (w := 1) (c := 0) (d := .plain) ⟨rfl, rfl, rfl⟩ (by simp))
    (.cons ⟨.drained (w := 1) ⟨rfl, rfl, rfl⟩, by simp [Quiet]⟩ <|
      .cons ⟨.dequeue (w := 1) (c := 0) (q := 2) (by decide) ⟨rfl, rfl, rfl⟩ rfl (by decide), by simp [Quiet]⟩ <|
      .nil _)
    (.suspend (w := 1) (c := 0) ⟨rfl, rfl⟩)
    (.cons ⟨.post (w := 1) (c := 0) (d := .plain) ⟨rfl, rfl, rfl⟩ (by simp), by simp [Quiet]⟩ <| .nil _)
  exact absurd hv (by decide)

end Suspenders.Coro
