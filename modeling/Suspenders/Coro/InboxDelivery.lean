import Suspenders.Coro.Inbox

/-!
# What is pushed on an inbox is delivered

A worker that goes on in `s_inbox_drain` comes to its end, and a worker that goes on calling it delivers everything
that was pushed, in the order of the CASes that succeeded.
-/

namespace Suspenders.Coro

open Lib Function

variable {π : Type*} [DecidableEq π]

/-- The steps of worker `w` in `s_inbox_drain`. -/
abbrev DrainStep (w : WorkerId) (p q : InboxState π × InboxHist) : Prop := InboxStep p (.drain w) q

/-- The steps of worker `w` lead to the end of `s_inbox_drain`, and do not change the head of its inbox `i`. -/
def Drains (w : WorkerId) (i : Option CrId) (s : InboxState π) : Prop :=
  ∀ m, Leads (DrainStep w) (fun q => q.1.drain w = .idle ∧ q.1.inbox w = i) (s, m)

section Drains

variable {s : InboxState π} {w : WorkerId} {i r : Option CrId} {c : CrId} {rest todo : List CrId}

lemma Drains.of_step (h : Drains w i (s.drainStep w)) : Drains w i s := by
  intro m
  refine .next (t := (s.drainStep w, m.record s (.drain w))) ⟨rfl, rfl⟩ ?_
  rintro ⟨t, m'⟩ ⟨ht, rfl⟩
  obtain rfl : s.drainStep w = t := Option.some.inj ht
  exact h _

/-- The second loop of `s_inbox_drain` ends with the coroutines in `rest`. -/
def Walks (π : Type*) [DecidableEq π] (w : WorkerId) (i : Option CrId) (rest : List CrId) : Prop :=
  ∀ (s : InboxState π) r, s.drain w = .walk r → Seg s.next r rest none → s.inbox w = i → Drains w i s

lemma Walks.deliver (h : Walks π w i rest) (hd : s.drain w = .deliver c r) (hr : Seg s.next r rest none)
    (hi : s.inbox w = i) : Drains w i s := by
  have hstep : s.drainStep w = s.setDrain w (.walk r) := by rw [InboxState.drainStep, hd]
  exact .of_step (hstep ▸ h _ r (setDrain_self _ _ _) hr hi)

lemma Walks.clear (h : Walks π w i rest) (hd : s.drain w = .clear c r) (hr : Seg s.next r rest none)
    (hi : s.inbox w = i) : Drains w i s := by
  have hstep : s.drainStep w =
      ({ s with inflight := update s.inflight c false } : InboxState π).setDrain w (.deliver c r) := by
    rw [InboxState.drainStep, hd]
    rfl
  exact .of_step (hstep ▸ h.deliver (setDrain_self _ _ _) hr hi)

lemma Walks.unlink (h : Walks π w i rest) (hd : s.drain w = .unlink c r) (hr : Seg s.next r rest none)
    (hc : c ∉ rest) (hi : s.inbox w = i) : Drains w i s := by
  have hstep : s.drainStep w = (s.setNext c none).setDrain w (.clear c r) := by rw [InboxState.drainStep, hd]
  have hr' : Seg (update s.next c none) r rest none :=
    hr.congr fun d hd' => update_of_ne (fun heq : d = c => hc (heq ▸ hd')) _ _
  exact .of_step (hstep ▸ h.clear (setDrain_self _ _ _) hr' hi)

/-- The second loop ends. -/
lemma walks (hnodup : rest.Nodup) : Walks π w i rest := by
  induction rest with
  | nil =>
    rintro s r hd rfl hi
    have hstep : s.drainStep w = s.setDrain w .idle := by rw [InboxState.drainStep, hd]
    exact .of_step fun m => .now ⟨by rw [hstep, setDrain_self], by rw [hstep]; exact hi⟩
  | cons c rest ih =>
    rintro s r hd ⟨rfl, hr⟩ hi
    obtain ⟨hc, hnodup⟩ := List.nodup_cons.mp hnodup
    have hstep : s.drainStep w = s.setDrain w (.unlink c (s.next c)) := by rw [InboxState.drainStep, hd]
    exact .of_step (hstep ▸ (ih hnodup).unlink (setDrain_self _ _ _) hr hc hi)

/-- The first loop of `s_inbox_drain` ends with the coroutines in `todo`, and so does the second one. -/
def Reverses (π : Type*) [DecidableEq π] (w : WorkerId) (i : Option CrId) (todo : List CrId) : Prop :=
  ∀ (s : InboxState π) l r rest, s.drain w = .reverse l r → Seg s.next l todo none → Seg s.next r rest none →
    (todo ++ rest).Nodup → s.inbox w = i → Drains w i s

lemma Reverses.relink (h : Reverses π w i todo) {n : Option CrId} (hd : s.drain w = .relink c n r)
    (hn : Seg s.next n todo none) (hr : Seg s.next r rest none) (hnodup : (c :: (todo ++ rest)).Nodup)
    (hi : s.inbox w = i) : Drains w i s := by
  have hstep : s.drainStep w = (s.setNext c r).setDrain w (.reverse n (some c)) := by
    rw [InboxState.drainStep, hd]
  have hkeep {l : List CrId} (hl : l ⊆ todo ++ rest) (d : CrId) (hd' : d ∈ l) : update s.next c r d = s.next d :=
    update_of_ne (fun heq : d = c => (List.nodup_cons.mp hnodup).1 (heq ▸ hl hd')) _ _
  refine .of_step (hstep ▸ h _ n (some c) (c :: rest) (setDrain_self _ _ _) (hn.congr (hkeep (by simp))) ⟨rfl, ?_⟩
    (List.perm_middle.nodup_iff.mpr hnodup) hi)
  change Seg (update s.next c r) (update s.next c r c) rest none
  rw [update_self]
  exact hr.congr (hkeep (by simp))

/-- The first loop ends. -/
lemma reverses (todo : List CrId) : Reverses π w i todo := by
  induction todo with
  | nil =>
    rintro s l r rest hd rfl hr hnodup hi
    have hstep : s.drainStep w = s.setDrain w (.walk r) := by rw [InboxState.drainStep, hd]
    exact .of_step (hstep ▸ walks hnodup _ r (setDrain_self _ _ _) hr hi)
  | cons c todo ih =>
    rintro s l r rest hd ⟨rfl, hl⟩ hr hnodup hi
    have hstep : s.drainStep w = s.setDrain w (.relink c (s.next c) r) := by rw [InboxState.drainStep, hd]
    exact .of_step (hstep ▸ ih.relink (setDrain_self _ _ _) hl hr hnodup hi)

/-- A worker comes to the end of `s_inbox_drain` from wherever it is. -/
lemma drains {A : WorkerId → Linked} {place : CrId → Option (π ⊕ WorkerId)} (h : InboxInv s A place) :
    Drains w (s.inbox w) s := by
  obtain ⟨-, hdrain⟩ := h.rep w
  have hnodup := h.nodup w
  have hrest : ((A w).todo ++ (A w).rev).Nodup := by
    rw [Linked.all, List.append_assoc] at hnodup
    exact (List.nodup_append'.mp hnodup).2.1
  rcases hd : s.drain w with _ | ⟨l, r⟩ | ⟨c, n, r⟩ | r | ⟨c, r⟩ | ⟨c, r⟩ | ⟨c, r⟩ <;> rw [hd] at hdrain
  · exact fun m => .now ⟨hd, rfl⟩
  · exact reverses _ s l r _ hd hdrain.1 hdrain.2 hrest rfl
  · obtain ⟨hr, rest, htodo, hn⟩ := hdrain
    rw [htodo] at hrest
    exact (reverses rest).relink hd hn hr hrest rfl
  · rw [hdrain.1] at hrest
    exact walks hrest s r hd hdrain.2 rfl
  · obtain ⟨htodo, rest, hrev, hr⟩ := hdrain
    rw [htodo, hrev] at hrest
    obtain ⟨hc, hnodup'⟩ := List.nodup_cons.mp hrest
    exact (walks hnodup').unlink hd hr hc rfl
  · obtain ⟨htodo, rest, hrev, hr⟩ := hdrain
    rw [htodo, hrev] at hrest
    exact (walks (List.nodup_cons.mp hrest).2).clear hd hr rfl
  · rw [hdrain.1] at hrest
    exact (walks hrest).deliver hd hdrain.2 rfl

end Drains

/-! ## Everything is delivered -/

omit [DecidableEq π] in
/-- An inbox that is empty, and whose worker is not in `s_inbox_drain`. -/
lemma InboxHistInv.delivered_eq {p : InboxState π × InboxHist} (h : InboxHistInv p) {w : WorkerId}
    (hd : p.1.drain w = .idle) (hi : p.1.inbox w = none) : p.2.delivered w = p.2.pushed w := by
  obtain ⟨A, place, hinv, hpushed⟩ := h
  obtain ⟨hstack, hdrain⟩ := hinv.rep w
  rw [hd] at hdrain
  rw [hi] at hstack
  have hnil : (A w).stack = [] := List.head?_eq_none_iff.mp hstack.head_eq.symm
  rw [hpushed w, InboxState.pending, hd]
  simp [DrainPc.delivering, Linked.pending, hdrain.1, hdrain.2, hnil]

/-- A worker that goes on draining its inbox delivers everything that was pushed. -/
lemma leads_delivered {p : InboxState π × InboxHist} (h : InboxHistInv p) (w : WorkerId) :
    Leads (DrainStep w) (fun q => q.2.delivered w = q.2.pushed w) p := by
  have hkeep (p q : InboxState π × InboxHist) (hp : InboxHistInv p) (hstep : DrainStep w p q) : InboxHistInv q :=
    inboxHistInv_step p _ q hp hstep
  have hdrains (q : InboxState π × InboxHist) (hq : InboxHistInv q) :
      Leads (DrainStep w) (fun t => t.1.drain w = .idle ∧ t.1.inbox w = q.1.inbox w) q := by
    obtain ⟨A, place, hinv, -⟩ := hq
    exact drains hinv q.2
  refine (hdrains p h).trans hkeep (fun q hq hidle => ?_) h
  -- at its head the worker takes what is on the stack, and comes to an end again
  refine .next (t := (q.1.drainStep w, q.2.record q.1 (.drain w))) ⟨rfl, rfl⟩ fun u hu => ?_
  have hempty : u.1.inbox w = none := by
    rw [← Option.some.inj hu.1]
    simp [InboxState.drainStep, hidle.1]
  refine (hdrains u (hkeep q u hq hu)).imp hkeep (fun t ht hend => ?_) (hkeep q u hq hu)
  exact ht.delivered_eq hend.1 (hend.2.trans hempty)

/-- Nothing is pushed. -/
def InboxHist.start : InboxState π × InboxHist := (.init, ⟨fun _ => [], fun _ => []⟩)

lemma inboxHistInv_reachable {p : InboxState π × InboxHist} (h : Reachable InboxStep InboxHist.start p) :
    InboxHistInv p := by
  refine h.invariant ⟨fun _ => ⟨[], [], []⟩, fun _ => none, ?_, fun _ => rfl⟩ inboxHistInv_step
  exact ⟨fun _ => ⟨rfl, rfl, rfl⟩, fun _ => List.nodup_nil, fun _ _ => by simp [Linked.all],
    fun _ _ => by simp [InboxHist.start, InboxState.init, PushPc.Pushes], fun _ => rfl, fun _ _ _ _ h => by cases h⟩

/-- The inboxes in every state that any number of producers and the workers reach.  The links of each inbox stand for
lists, which end; a coroutine is at most once in all of them, and `wake_inflight` is set as long as it is there or is
pushed, by one producer.  What was pushed is delivered in the order of the CASes that succeeded, each once: what is
still missing is on the inbox, in this order, and a worker that goes on draining delivers it. -/
theorem inbox_delivers_every_push {p : InboxState π × InboxHist} (h : Reachable InboxStep InboxHist.start p) :
    ∃ A : WorkerId → Linked,
      (∀ w, (A w).Rep p.1.next (p.1.inbox w) (p.1.drain w)) ∧
      (∀ w, (A w).all.Nodup) ∧
      (∀ v w c, c ∈ (A v).all → c ∈ (A w).all → v = w) ∧
      (∀ c, p.1.inflight c = true ↔ (∃ q, (p.1.push q).Pushes c) ∨ ∃ w, c ∈ (A w).all) ∧
      (∀ c q, (p.1.push q).Pushes c → (∀ q', (p.1.push q').Pushes c → q' = q) ∧ ∀ w, c ∉ (A w).all) ∧
      (∀ w, p.2.pushed w = p.2.delivered w ++ p.1.pending A w) ∧
      ∀ w, Leads (DrainStep w) (fun q => q.2.delivered w = q.2.pushed w) p := by
  obtain ⟨A, place, hinv, hpushed⟩ := inboxHistInv_reachable h
  refine ⟨A, hinv.rep, hinv.nodup, fun v w c hv hw => ?_, fun c => ?_, fun c q hq => ⟨fun q' hq' => ?_, fun w hw => ?_⟩,
    hpushed, leads_delivered (inboxHistInv_reachable h)⟩
  · rw [hinv.mem] at hv hw
    simpa [hv] using hw
  · simp only [hinv.flag, hinv.pushes, hinv.mem]
    rcases place c with - | q | w <;> simp
  · rw [hinv.pushes] at hq hq'
    simpa [hq, eq_comm] using hq'
  · rw [hinv.pushes] at hq
    rw [hinv.mem, hq] at hw
    cases hw

/-- A producer pushes a coroutine. -/
theorem inbox_delivers_every_push_of_one : ∃ p : InboxState Unit × InboxHist, p.2.pushed 0 = [5] ∧
    Leads (DrainStep 0) (fun q => q.2.delivered 0 = q.2.pushed 0) p := by
  have h : Reachable InboxStep (InboxHist.start (π := Unit)) _ :=
    ⟨[.pin 5 0, .call () 5, .push () false, .push () false, .push () false, .push () false],
      .cons (t := (_, _)) ⟨rfl, rfl⟩ <| .cons (t := (_, _)) ⟨rfl, rfl⟩ <| .cons (t := (_, _)) ⟨rfl, rfl⟩ <|
      .cons (t := (_, _)) ⟨rfl, rfl⟩ <| .cons (t := (_, _)) ⟨rfl, rfl⟩ <| .cons (t := (_, _)) ⟨rfl, rfl⟩ <| .nil _⟩
  obtain ⟨_, -, -, -, -, -, -, hleads⟩ := inbox_delivers_every_push h
  exact ⟨_, rfl, hleads 0⟩

end Suspenders.Coro
