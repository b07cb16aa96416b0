import Suspenders.Coro.Place
import Suspenders.Lib.Family

/-!
# Every coroutine is in one place

`Settled` says of one coroutine that `state`, `worker`, the lists and `suspenders_running` agree on where it is.
An operation moves one coroutine and leaves what `Settled` depends on alone for all others (`Same`).

The wakes are the hard part.  A wake that has read the worker of its own thread is alone with the coroutine;
one that has read another worker goes through the inbox; but one that has read no worker tests a state that
another worker may be changing.  `Steady` excludes the runs in which it gets through that test.
-/

namespace Suspenders.Coro

open Lib

/-! ## Situations -/

/-- Where a coroutine can be. -/
inductive Situation
  /-- On the injector. -/
  | injected (q : Fin 4)
  /-- On a ready list of its worker. -/
  | queued (w : WorkerId) (q : Fin 4)
  /-- Running on its worker. -/
  | current (w : WorkerId)
  /-- Suspended. -/
  | parked
  /-- On the zombie list of its worker. -/
  | zombie (w : WorkerId)
  deriving DecidableEq

namespace State

variable (s : State) (c : CrId)

/-- How often coroutine `c` is in each list. -/
def links (p : Place) : ℕ := (s.lists p).count c

/-- Coroutine `c` is linked once, in list `p`. -/
def LinkedAt (p : Place) : Prop := ∀ p', s.links c p' = if p' = p then 1 else 0

/-- Coroutine `c` is in no list. -/
def Unlinked : Prop := ∀ p, s.links c p = 0

/-- No worker runs coroutine `c`. -/
def NotCurrent : Prop := ∀ w, s.running w ≠ some c

/-- Coroutine `c` is in situation `x`, and in no other list and on no other worker. -/
def In : Situation → Prop
  | .injected q => s.state c = some .ready ∧ s.pin c = none ∧ s.LinkedAt c (.injector q) ∧ s.NotCurrent c
  | .queued w q =>
    s.state c = some .ready ∧ s.pin c = some w ∧ s.LinkedAt c (.ready (.on w) q) ∧ s.NotCurrent c
  | .current w =>
    s.state c = some .running ∧ s.pin c = some w ∧ s.Unlinked c ∧ ∀ v, s.running v = some c ↔ v = w
  | .parked => s.state c = some .suspended ∧ s.pin c ≠ none ∧ s.Unlinked c ∧ s.NotCurrent c
  | .zombie w => s.state c = some .done ∧ s.pin c = some w ∧ s.LinkedAt c (.zombies w) ∧ s.NotCurrent c

/-- A live coroutine is in one of the situations; one that does not exist yet or does not exist any more is in
no list. -/
inductive Settled : Prop
  | unborn : s.state c = none → s.freed c = false → s.pin c = none → s.Unlinked c → s.NotCurrent c → Settled
  | live (x : Situation) : s.freed c = false → s.In c x → Settled
  | freed : s.freed c = true → s.state c = some .done → s.pin c ≠ none → s.Unlinked c → s.NotCurrent c →
      Settled

variable {s c}

lemma LinkedAt.unique {p p' : Place} (h : s.LinkedAt c p) (h' : s.LinkedAt c p') : p = p' := by
  by_contra hne
  have h₁ := h p
  have h₂ := h' p
  simp [hne] at h₁ h₂
  omega

/-- The situations exclude each other. -/
lemma In.unique {x y : Situation} (hx : s.In c x) (hy : s.In c y) : x = y := by
  cases x with
  | injected q =>
    obtain ⟨hst, hpin, hlink, -⟩ := hx
    cases y with
    | injected q' => exact congrArg _ (by simpa using hlink.unique hy.2.2.1)
    | _ => simp_all [In]
  | queued w q =>
    obtain ⟨hst, hpin, hlink, -⟩ := hx
    cases y with
    | queued w' q' =>
      obtain ⟨-, -, hlink', -⟩ := hy
      obtain ⟨hw, hq⟩ : w = w' ∧ q = q' := by simpa using hlink.unique hlink'
      rw [hw, hq]
    | _ => simp_all [In]
  | current w | parked | zombie w => cases y <;> simp_all [In]

end State

/-- Two states agree on coroutine `c`. -/
structure Same (c : CrId) (s s' : State) : Prop where
  state : s'.state c = s.state c
  pin : s'.pin c = s.pin c
  freed : s'.freed c = s.freed c
  links : ∀ p, s'.links c p = s.links c p
  running : ∀ w, s'.running w = some c ↔ s.running w = some c

lemma Same.settled {c : CrId} {s s' : State} (h : Same c s s') (hs : s.Settled c) : s'.Settled c := by
  have hun : s.Unlinked c → s'.Unlinked c := fun hu p => (h.links p).trans (hu p)
  have hat (p : Place) : s.LinkedAt c p → s'.LinkedAt c p := fun hu p => (h.links p).trans (hu p)
  have hnot : s.NotCurrent c → s'.NotCurrent c := fun hn w hw => hn w ((h.running w).mp hw)
  cases hs with
  | unborn hst hf hp hu hn =>
    exact .unborn (h.state.trans hst) (h.freed.trans hf) (h.pin.trans hp) (hun hu) (hnot hn)
  | freed hf hst hp hu hn =>
    exact .freed (h.freed.trans hf) (h.state.trans hst) (by rwa [h.pin]) (hun hu) (hnot hn)
  | live x hf hin =>
    refine .live x (h.freed.trans hf) ?_
    cases x with
    | injected | queued | zombie =>
      obtain ⟨hst, hp, hl, hn⟩ := hin
      exact ⟨h.state.trans hst, h.pin.trans hp, hat _ hl, hnot hn⟩
    | current w =>
      obtain ⟨hst, hp, hl, hr⟩ := hin
      exact ⟨h.state.trans hst, h.pin.trans hp, hun hl, fun v => (h.running v).trans (hr v)⟩
    | parked =>
      obtain ⟨hst, hp, hl, hn⟩ := hin
      exact ⟨h.state.trans hst, by rwa [h.pin], hun hl, hnot hn⟩

/-- A step that touches none of the fields a situation depends on. -/
lemma settled_of_eq {s s' : State} (hs : ∀ d, s.Settled d) (hst : s'.state = s.state)
    (hpin : s'.pin = s.pin) (hfreed : s'.freed = s.freed) (hlists : s'.lists = s.lists)
    (hrun : s'.running = s.running) (c : CrId) : s'.Settled c := by
  refine Same.settled ⟨?_, ?_, ?_, fun p => ?_, fun w => ?_⟩ (hs c)
  · rw [hst]
  · rw [hpin]
  · rw [hfreed]
  · rw [State.links, State.links, hlists]
  · rw [hrun]

namespace State.Settled

variable {s : State} {c : CrId}

lemma of_none (h : s.Settled c) (hst : s.state c = none) :
    s.freed c = false ∧ s.pin c = none ∧ s.Unlinked c ∧ s.NotCurrent c := by
  cases h with
  | unborn _ hf hp hu hn => exact ⟨hf, hp, hu, hn⟩
  | live x _ hin => cases x <;> simp_all [In]
  | freed => simp_all

lemma of_suspended (h : s.Settled c) (hst : s.state c = some .suspended) :
    s.freed c = false ∧ s.Unlinked c ∧ s.NotCurrent c := by
  cases h with
  | live x hf hin =>
    cases x with
    | parked => exact ⟨hf, hin.2.2⟩
    | _ => simp_all [In]
  | unborn | freed => simp_all

lemma of_running (h : s.Settled c) {w : WorkerId} (hrun : s.running w = some c) :
    s.freed c = false ∧ s.In c (.current w) := by
  cases h with
  | live x hf hin =>
    cases x with
    | current v =>
      obtain rfl : w = v := (hin.2.2.2 w).mp hrun
      exact ⟨hf, hin⟩
    | injected | queued | parked | zombie => exact absurd hrun (hin.2.2.2 w)
  | unborn _ _ _ _ hn | freed _ _ _ _ hn => exact absurd hrun (hn w)

/-- The situation of a coroutine that is in list `p`. -/
lemma of_mem (h : s.Settled c) {p : Place} (hmem : c ∈ s.lists p) :
    s.freed c = false ∧ s.LinkedAt c p ∧ s.NotCurrent c ∧
      match p with
      | .injector _ => s.state c = some .ready ∧ s.pin c = none
      | .ready a _ => ∃ w, a = .on w ∧ s.state c = some .ready ∧ s.pin c = some w
      | .zombies w => s.state c = some .done ∧ s.pin c = some w := by
  have hne : s.links c p ≠ 0 := Nat.pos_iff_ne_zero.mp (List.count_pos_iff.mpr hmem)
  have at_eq {p' : Place} (hl : s.LinkedAt c p') : p = p' := by
    by_contra hp
    exact hne ((hl p).trans (if_neg hp))
  cases h with
  | unborn _ _ _ hu | freed _ _ _ hu => exact absurd (hu p) hne
  | live x hf hin =>
    cases x with
    | current | parked => exact absurd (hin.2.2.1 p) hne
    | injected q =>
      obtain ⟨hst, hpin, hl, hn⟩ := hin
      obtain rfl := at_eq hl
      exact ⟨hf, hl, hn, hst, hpin⟩
    | queued w q =>
      obtain ⟨hst, hpin, hl, hn⟩ := hin
      obtain rfl := at_eq hl
      exact ⟨hf, hl, hn, w, rfl, hst, hpin⟩
    | zombie w =>
      obtain ⟨hst, hpin, hl, hn⟩ := hin
      obtain rfl := at_eq hl
      exact ⟨hf, hl, hn, hst, hpin⟩

end State.Settled

/-! ## The operations keep every coroutine in its place -/

section Operations

variable {s s' : State} {w : WorkerId} {c : CrId}

/-- An operation that moves coroutine `c` only. -/
lemma settled_move (hs : ∀ d, s.Settled d) (hother : ∀ d ≠ c, Same d s s') (hc : s'.Settled c) (d : CrId) :
    s'.Settled d := by
  by_cases hd : d = c
  · exact hd ▸ hc
  · exact (hother d hd).settled (hs d)

lemma settled_spawn (hs : ∀ d, s.Settled d) (hst : s.state c = none) (q : Fin 4) (d : CrId) :
    ({ s.setState c .ready with eff := Function.update s.eff c q }.append (.injector q) c).Settled d := by
  refine settled_move (c := c) hs (fun d hd => ?_) ?_ d
  · constructor <;> simp [State.links, State.setState, State.append, count_update_append, hd]
  · obtain ⟨hf, hp, hu, hn⟩ := (hs c).of_none hst
    refine .live (.injected q) hf ⟨by simp [State.setState, State.append], hp, fun p' => ?_, hn⟩
    have hzero : (s.lists p').count c = 0 := hu p'
    simp [State.links, State.setState, State.append, count_update_append, hzero]

lemma settled_spawnLocal (hs : ∀ d, s.Settled d) (hst : s.state c = none) (q : Fin 4) (d : CrId) :
    ({ s with eff := Function.update s.eff c q, pin := Function.update s.pin c (some w) }.enqueue
      (.on w) c).Settled d := by
  refine settled_move (c := c) hs (fun d hd => ?_) ?_ d
  · constructor <;>
      simp [State.links, State.enqueue, State.setState, State.append, count_update_append, hd]
  · obtain ⟨hf, -, hu, hn⟩ := (hs c).of_none hst
    refine .live (.queued w q) hf ⟨by simp [State.enqueue, State.setState, State.append],
      by simp [State.enqueue, State.setState, State.append], fun p' => ?_, hn⟩
    have hzero : (s.lists p').count c = 0 := hu p'
    simp [State.links, State.enqueue, State.setState, State.append, count_update_append, hzero]

lemma settled_take (hs : ∀ d, s.Settled d) (hrun : s.running w = none) {q : Fin 4} {rest : List CrId}
    (hl : s.lists (.injector q) = c :: rest) (pending : CrId → Bool) (d : CrId) :
    ({ s with
      lists := Function.update s.lists (.injector q) rest
      pin := Function.update s.pin c (some w)
      pendingWake := pending }.switchTo w c).Settled d := by
  refine settled_move (c := c) hs (fun d hd => ?_) ?_ d
  · refine ⟨?_, ?_, rfl, fun p' => ?_, fun v => ?_⟩
    · simp [State.switchTo, State.setState, hd]
    · simp [State.switchTo, State.setState, hd]
    · simp [State.links, State.switchTo, State.setState, count_update_tail _ _ hl, hd]
    · by_cases hv : v = w
      · simp [State.switchTo, hv, hrun, Ne.symm hd]
      · simp [State.switchTo, hv, State.setState]
  · obtain ⟨hf, hlink, hn, -, -⟩ := (hs c).of_mem (p := .injector q) (by simp [hl])
    refine .live (.current w) hf ⟨?_, ?_, fun p' => ?_, fun v => ?_⟩
    · simp [State.switchTo, State.setState]
    · simp [State.switchTo, State.setState]
    · have hcount : (s.lists p').count c = _ := hlink p'
      simp [State.links, State.switchTo, State.setState, count_update_tail _ _ hl, hcount]
    · by_cases hv : v = w
      · simp [State.switchTo, hv]
      · simp [State.switchTo, hv, State.setState, hn v]

lemma settled_dequeue (hs : ∀ d, s.Settled d) (hrun : s.running w = none) {q : Fin 4} {rest : List CrId}
    (hl : s.lists (.ready (.on w) q) = c :: rest) (d : CrId) :
    ({ s with lists := Function.update s.lists (.ready (.on w) q) rest }.switchTo w c).Settled d := by
  refine settled_move (c := c) hs (fun d hd => ?_) ?_ d
  · refine ⟨?_, rfl, rfl, fun p' => ?_, fun v => ?_⟩
    · simp [State.switchTo, State.setState, hd]
    · simp [State.links, State.switchTo, State.setState, count_update_tail _ _ hl, hd]
    · by_cases hv : v = w
      · simp [State.switchTo, hv, hrun, Ne.symm hd]
      · simp [State.switchTo, hv, State.setState]
  · obtain ⟨hf, hlink, hn, v, hv, -, hpin⟩ := (hs c).of_mem (p := .ready (.on w) q) (by simp [hl])
    obtain rfl : w = v := by simpa using hv
    refine .live (.current w) hf ⟨?_, hpin, fun p' => ?_, fun v => ?_⟩
    · simp [State.switchTo, State.setState]
    · have hcount : (s.lists p').count c = _ := hlink p'
      simp [State.links, State.switchTo, State.setState, count_update_tail _ _ hl, hcount]
    · by_cases hv : v = w
      · simp [State.switchTo, hv]
      · simp [State.switchTo, hv, State.setState, hn v]

/-- Other coroutines when the running one leaves worker `w`. -/
lemma switchOut_running_iff {run : WorkerId → Option CrId} (hrun : run w = some c) {d : CrId} (hd : d ≠ c)
    (v : WorkerId) : Function.update run w none v = some d ↔ run v = some d := by
  by_cases hv : v = w
  · simp [hv, hrun, Ne.symm hd]
  · simp [hv]

/-- The running coroutine when it leaves worker `w`. -/
lemma switchOut_notCurrent {run : WorkerId → Option CrId} (hcur : ∀ v, run v = some c ↔ v = w)
    (v : WorkerId) : Function.update run w none v ≠ some c := by
  by_cases hv : v = w
  · simp [hv]
  · simpa [hv] using fun h => hv ((hcur v).mp h)

lemma settled_yield (hs : ∀ d, s.Settled d) (hrun : s.running w = some c) (d : CrId) :
    ((s.enqueue (.on w) c).switchOut w c).Settled d := by
  refine settled_move (c := c) hs (fun d hd => ?_) ?_ d
  · refine ⟨?_, rfl, rfl, fun p' => ?_, switchOut_running_iff hrun hd⟩
    · simp [State.switchOut, State.setLoop, State.enqueue, State.setState, State.append, hd]
    · simp [State.links, State.switchOut, State.setLoop, State.enqueue, State.setState, State.append,
        count_update_append, hd]
  · obtain ⟨hf, hin⟩ := (hs c).of_running hrun
    refine .live (.queued w (s.eff c)) hf ⟨?_, hin.2.1, fun p' => ?_, switchOut_notCurrent hin.2.2.2⟩
    · simp [State.switchOut, State.setLoop, State.enqueue, State.setState, State.append]
    · have hzero : (s.lists p').count c = 0 := hin.2.2.1 p'
      simp [State.links, State.switchOut, State.setLoop, State.enqueue, State.setState, State.append,
        count_update_append, hzero]

lemma settled_suspend (hs : ∀ d, s.Settled d) (hrun : s.running w = some c) (d : CrId) :
    ((if s.state c = some .running then s.setState c .suspended else s).switchOut w c).Settled d := by
  obtain ⟨hf, hin⟩ := (hs c).of_running hrun
  rw [if_pos hin.1]
  refine settled_move (c := c) hs (fun d hd => ?_) ?_ d
  · refine ⟨?_, rfl, rfl, fun p' => rfl, switchOut_running_iff hrun hd⟩
    simp [State.switchOut, State.setLoop, State.setState, hd]
  · refine .live .parked hf ⟨?_, ?_, hin.2.2.1, switchOut_notCurrent hin.2.2.2⟩
    · simp [State.switchOut, State.setLoop, State.setState]
    · simp [State.switchOut, State.setLoop, State.setState, hin.2.1]

lemma settled_exit (hs : ∀ d, s.Settled d) (hrun : s.running w = some c) (d : CrId) :
    ({ (s.setState c .done).switchOut w c with
      lists := Function.update s.lists (.zombies w) (c :: s.lists (.zombies w)) } : State).Settled d := by
  refine settled_move (c := c) hs (fun d hd => ?_) ?_ d
  · refine ⟨?_, rfl, rfl, fun p' => ?_, switchOut_running_iff hrun hd⟩
    · simp [State.switchOut, State.setLoop, State.setState, hd]
    · simp [State.links, count_update_cons, hd]
  · obtain ⟨hf, hin⟩ := (hs c).of_running hrun
    refine .live (.zombie w) hf ⟨?_, hin.2.1, fun p' => ?_, switchOut_notCurrent hin.2.2.2⟩
    · simp [State.switchOut, State.setLoop, State.setState]
    · have hzero : (s.lists p').count c = 0 := hin.2.2.1 p'
      simp [State.links, count_update_cons, hzero]

lemma settled_enqueue (hs : ∀ d, s.Settled d) (hst : s.state c = some .suspended)
    (hpin : s.pin c = some w) (d : CrId) : (s.enqueue (.on w) c).Settled d := by
  refine settled_move (c := c) hs (fun d hd => ?_) ?_ d
  · constructor <;>
      simp [State.links, State.enqueue, State.setState, State.append, count_update_append, hd]
  · obtain ⟨hf, hu, hn⟩ := (hs c).of_suspended hst
    refine .live (.queued w (s.eff c)) hf
      ⟨by simp [State.enqueue, State.setState, State.append], hpin, fun p' => ?_, hn⟩
    have hzero : (s.lists p').count c = 0 := hu p'
    simp [State.links, State.enqueue, State.setState, State.append, count_update_append, hzero]

lemma settled_deliver (hs : ∀ d, s.Settled d) (hpin : s.pin c = some w) (x : Delivery) (d : CrId) :
    (s.deliver w c x).Settled d := by
  unfold State.deliver
  split
  · split
    · exact settled_enqueue hs ‹_› hpin d
    · split
      · exact hs d
      · refine settled_of_eq hs ?_ ?_ ?_ ?_ ?_ d <;> rfl
  · split
    · exact settled_enqueue hs ‹_› hpin d
    · exact hs d
  · exact hs d

lemma settled_post (hs : ∀ d, s.Settled d) (hpin : s.pin c = some w) (x : Delivery) (d : CrId) :
    (s.post w c x).Settled d := by
  unfold State.post
  split
  · refine settled_deliver (fun d => ?_) ?_ x d
    · refine settled_of_eq hs ?_ ?_ ?_ ?_ ?_ d <;> rfl
    · exact hpin
  · exact hs d

lemma settled_reap (hs : ∀ d, s.Settled d) (d : CrId) :
    ({ s with
      lists := Function.update s.lists (.zombies w) []
      freed := fun c => s.freed c || (s.lists (.zombies w)).contains c } : State).Settled d := by
  by_cases hd : d ∈ s.lists (.zombies w)
  · obtain ⟨-, hlink, hn, hst, hpin⟩ := (hs d).of_mem hd
    refine .freed (by simp [hd]) hst (by simp [hpin]) (fun p' => ?_) hn
    have hcount : (s.lists p').count d = _ := hlink p'
    by_cases hp : p' = .zombies w
    · simp [State.links, hp]
    · simpa [State.links, hp] using hcount
  · refine Same.settled (s := s) ⟨rfl, rfl, by simp [hd], fun p' => ?_, fun v => Iff.rfl⟩ (hs d)
    by_cases hp : p' = .zombies w
    · simp [State.links, hp, List.count_eq_zero_of_not_mem hd]
    · simp [State.links, hp]

end Operations

/-! ## What a delivery does to the rest -/

section Frames

variable (s : State) (w : WorkerId) (a : Thread) (c : CrId) (x : Delivery) (r : Option WorkerId) (y : CrState)

@[simp] lemma deliver_pin : (s.deliver w c x).pin = s.pin := by
  unfold State.deliver
  repeat' split
  all_goals rfl

@[simp] lemma deliver_pc : (s.deliver w c x).pc = s.pc := by
  unfold State.deliver
  repeat' split
  all_goals rfl

@[simp] lemma deliver_inbox : (s.deliver w c x).inbox = s.inbox := by
  unfold State.deliver
  repeat' split
  all_goals rfl

@[simp] lemma deliver_loop : (s.deliver w c x).loop = s.loop := by
  unfold State.deliver
  repeat' split
  all_goals rfl

lemma deliver_state (d : CrId) : (s.deliver w c x).state d = s.state d ∨
    d = c ∧ (s.deliver w c x).state d = some .ready := by
  by_cases hd : d = c
  · subst hd
    unfold State.deliver
    repeat' split
    all_goals simp [State.enqueue, State.setState, State.append]
  · refine Or.inl ?_
    unfold State.deliver
    repeat' split
    all_goals simp [State.enqueue, State.setState, State.append, hd]

@[simp] lemma post_pin : (s.post w c x).pin = s.pin := by
  unfold State.post
  split
  · rw [deliver_pin]
  · rfl

@[simp] lemma post_pc : (s.post w c x).pc = s.pc := by
  unfold State.post
  split
  · rw [deliver_pc]
  · rfl

@[simp] lemma post_inbox : (s.post w c x).inbox = s.inbox := by
  unfold State.post
  split
  · rw [deliver_inbox]
  · rfl

@[simp] lemma post_loop : (s.post w c x).loop = s.loop := by
  unfold State.post
  split
  · rw [deliver_loop]
  · rfl

lemma post_state (d : CrId) : (s.post w c x).state d = s.state d ∨
    d = c ∧ (s.post w c x).state d = some .ready := by
  unfold State.post
  split
  · exact deliver_state _ w c x d
  · exact Or.inl rfl

@[simp] lemma test_pin : (s.test a c r y).pin = s.pin := by
  unfold State.test
  repeat' split
  all_goals rfl

@[simp] lemma test_inbox : (s.test a c r y).inbox = s.inbox := by
  unfold State.test
  repeat' split
  all_goals rfl

@[simp] lemma test_loop : (s.test a c r y).loop = s.loop := by
  unfold State.test
  repeat' split
  all_goals rfl

lemma test_pc_of_ne {b : Thread} (hb : b ≠ a) : (s.test a c r y).pc b = s.pc b := by
  unfold State.test
  repeat' split
  all_goals simp [State.setPc, State.enqueue, State.setState, State.append, hb]

lemma test_state (d : CrId) : (s.test a c r y).state d = s.state d ∨
    d = c ∧ (s.test a c r y).state d = some .ready ∧ s.state c ≠ some y ∧ y ≠ .running ∧ y ≠ .ready := by
  by_cases hd : d = c
  · subst hd
    unfold State.test
    repeat' split
    all_goals simp_all [State.setPc, State.enqueue, State.setState, State.append]
  · refine Or.inl ?_
    unfold State.test
    repeat' split
    all_goals simp [State.setPc, State.enqueue, State.setState, State.append, hd]

variable {s a c r y}

/-- A wake goes on to a test if the coroutine has no worker or that of the thread. -/
lemma route_test {d : CrId} {x : CrState} (h : s.route a d = .test c r x) :
    d = c ∧ r = s.pin d ∧ x = .running ∧ ∀ v, r = some v → a = .on v := by
  unfold State.route at h
  split at h
  · next hpin =>
    obtain ⟨rfl, rfl, rfl⟩ : d = c ∧ none = r ∧ CrState.running = x := by simpa using h
    exact ⟨rfl, hpin.symm, rfl, by simp⟩
  · next v hpin =>
    split at h
    · next ha =>
      obtain ⟨rfl, rfl, rfl⟩ : d = c ∧ some v = r ∧ CrState.running = x := by simpa using h
      refine ⟨rfl, hpin.symm, rfl, ?_⟩
      cases a with
      | on u => simpa [Thread.worker, eq_comm] using ha
      | ext f => simp [Thread.worker] at ha
    · simp at h

lemma route_exchange {d : CrId} {v : WorkerId} (h : s.route a d = .exchange c v ∨ s.route a d = .push c v) :
    s.pin c = some v := by
  unfold State.route at h
  split at h
  · simp at h
  · next u hpin =>
    split at h
    · simp at h
    · obtain ⟨rfl, rfl⟩ : d = c ∧ u = v := by simpa using h
      exact hpin

/-- The next comparison of a test. -/
lemma test_pc_self {d : CrId} {r' : Option WorkerId} {x : CrState}
    (h : (s.test a c r y).pc a = .test d r' x) :
    c = d ∧ r = r' ∧ s.state c ≠ some y ∧ (s.test a c r y).state = s.state ∧
      (y = .running ∧ x = .ready ∨ y = .ready ∧ x = .done) := by
  unfold State.test at h ⊢
  split at h
  · simp [State.setPc] at h
  · next hne =>
    rw [if_neg hne]
    split at h
    · obtain ⟨rfl, rfl, rfl⟩ : c = d ∧ r = r' ∧ CrState.ready = x := by simpa [State.setPc] using h
      exact ⟨rfl, rfl, hne, rfl, Or.inl ⟨rfl, rfl⟩⟩
    · obtain ⟨rfl, rfl, rfl⟩ : c = d ∧ r = r' ∧ CrState.done = x := by simpa [State.setPc] using h
      exact ⟨rfl, rfl, hne, rfl, Or.inr ⟨rfl, rfl⟩⟩
    · simp [State.setPc] at h

lemma test_pc_routed {d : CrId} {v : WorkerId} :
    ¬ ((s.test a c r y).pc a = .exchange d v ∨ (s.test a c r y).pc a = .push d v) := by
  unfold State.test
  repeat' split
  all_goals simp [State.setPc]

end Frames

/-! ## Wakes in progress -/

/-- The coroutines a scheduler loop has in its hands. -/
def Loop.hands : Loop → List CrId
  | .top => []
  | .drain rest => rest
  | .deliver c rest => c :: rest
  | .post c => [c]

/-- What a wake in progress knows. -/
structure WakeInv (s : State) : Prop where
  /-- The test is one of the three. -/
  known : ∀ a c r x, s.pc a = .test c r x → s.state c ≠ none ∧ x ≠ .suspended
  /-- A wake that has read its own worker is alone with the coroutine. -/
  own : ∀ a c w x, s.pc a = .test c (some w) x → a = .on w ∧ s.pin c = some w ∧
    (x ≠ .running → s.state c ≠ some .running) ∧ (x = .done → s.state c ≠ some .ready)
  routed : ∀ a c w, s.pc a = .exchange c w ∨ s.pc a = .push c w → s.pin c = some w
  inbox : ∀ w, ∀ c ∈ s.inbox w, s.pin c = some w
  hands : ∀ w, ∀ c ∈ (s.loop w).hands, s.pin c = some w

/-- A wake that has found no worker does not get through its test of the state. -/
def Steady (s : State) (e : Event) (_ : State) : Prop :=
  match e with
  | .test a => ∀ c, s.pc a = .test c none .done → s.state c = some .done
  | _ => True

section Steps

variable {n : ℕ} {s s' : State} {e : Event}

lemma settled_test (hs : ∀ d, s.Settled d) (hw : WakeInv s) {a : Thread} {c : CrId}
    {r : Option WorkerId} {x : CrState} (hpc : s.pc a = .test c r x)
    (ho : s.pc a = .test c none .done → s.state c = some .done) (d : CrId) : (s.test a c r x).Settled d := by
  obtain ⟨hborn, hx⟩ := hw.known a c r x hpc
  unfold State.test
  split
  · refine settled_of_eq hs ?_ ?_ ?_ ?_ ?_ d <;> rfl
  · next hne =>
    split
    · refine settled_of_eq hs ?_ ?_ ?_ ?_ ?_ d <;> rfl
    · refine settled_of_eq hs ?_ ?_ ?_ ?_ ?_ d <;> rfl
    · next hrunning hready =>
      have hdone : x = .done := by cases x <;> simp_all
      subst hdone
      cases r with
      | none => exact absurd (ho hpc) hne
      | some w =>
        obtain ⟨rfl, hpin, hnotRunning, hnotReady⟩ := hw.own a c w .done hpc
        have hst : s.state c = some .suspended := by
          have := hnotRunning (by simp)
          have := hnotReady rfl
          cases hstate : s.state c with
          | none => exact absurd hstate hborn
          | some y => cases y <;> simp_all
        have := settled_enqueue hs hst hpin
        refine settled_of_eq this ?_ ?_ ?_ ?_ ?_ d <;> rfl

lemma settled_step (hs : ∀ d, s.Settled d) (hw : WakeInv s) (h : Step n s e s') (ho : Steady s e s')
    (d : CrId) : s'.Settled d := by
  cases h with
  | spawn _ hst => exact settled_spawn hs hst _ d
  | spawnLocal _ hst => exact settled_spawnLocal hs hst _ d
  | take _ hat _ hl => exact settled_take hs hat.1 hl _ d
  | dequeue _ hat hl => exact settled_dequeue hs hat.1 hl d
  | yield hrun => exact settled_yield hs hrun.1 d
  | suspend hrun => exact settled_suspend hs hrun.1 d
  | exit hrun => exact settled_exit hs hrun.1 d
  | @post w c x hat =>
    have := settled_post hs (hw.hands w c (by simp [hat.2.1, Loop.hands])) x
    refine settled_of_eq this ?_ ?_ ?_ ?_ ?_ d <;> rfl
  | @deliver w c rest x hat =>
    have := settled_deliver hs (hw.hands w c (by simp [hat.2.1, Loop.hands])) x
    refine settled_of_eq this ?_ ?_ ?_ ?_ ?_ d <;> rfl
  | callback _ hpin hst => exact settled_enqueue hs hst hpin d
  | test hpc => exact settled_test hs hw hpc (ho _) d
  | reap => exact settled_reap hs d
  | _ => refine settled_of_eq hs ?_ ?_ ?_ ?_ ?_ d <;> rfl

lemma step_pin (hs : ∀ d, s.Settled d) (h : Step n s e s') {c : CrId} {w : WorkerId}
    (hpin : s.pin c = some w) : s'.pin c = some w := by
  cases h with
  | @spawnLocal v d q _ hst =>
    have hd : c ≠ d := by
      rintro rfl
      simp [((hs c).of_none hst).2.1] at hpin
    simpa [State.enqueue, State.setState, State.append, hd] using hpin
  | @take v d q rest _ _ _ hl =>
    have hd : c ≠ d := by
      rintro rfl
      have hmem := (hs c).of_mem (p := .injector q) (by simp [hl])
      simp [hmem.2.2.2.2] at hpin
    simpa [State.switchTo, State.setState, hd] using hpin
  | post | deliver | test => simpa [State.setLoop] using hpin
  | suspend => split <;> exact hpin
  | _ => exact hpin

lemma step_born (h : Step n s e s') {c : CrId} (hborn : s.state c ≠ none) : s'.state c ≠ none := by
  cases h with
  | @post w d x =>
    rcases post_state s w d x c with heq | ⟨-, heq⟩ <;> simp [State.setLoop, heq, hborn]
  | @deliver w d rest x =>
    rcases deliver_state s w d x c with heq | ⟨-, heq⟩ <;> simp [State.setLoop, heq, hborn]
  | @test a d r y =>
    rcases test_state s a d r y c with heq | ⟨-, heq, -⟩ <;> simp [heq, hborn]
  | @spawn _ d | @spawnLocal _ d | @take _ d | @dequeue _ d | @yield _ d | @exit _ d | @callback _ d =>
    by_cases hd : c = d
    · simp [State.switchTo, State.switchOut, State.setLoop, State.enqueue, State.setState, State.append, hd]
    · simpa [State.switchTo, State.switchOut, State.setLoop, State.enqueue, State.setState, State.append, hd]
        using hborn
  | @suspend _ d =>
    split
    · by_cases hd : c = d
      · simp [State.switchOut, State.setLoop, State.setState, hd]
      · simpa [State.switchOut, State.setLoop, State.setState, hd] using hborn
    · exact hborn
  | _ => exact hborn

/-- While the thread of worker `w` is in a wake, nobody changes the state of its coroutines. -/
lemma step_state (hs : ∀ d, s.Settled d) (hw : WakeInv s) (h : Step n s e s') (ho : Steady s e s')
    {c : CrId} {w : WorkerId} (hpin : s.pin c = some w) (hpc : s.pc (.on w) ≠ .idle)
    (he : e ≠ .test (.on w)) : s'.state c = s.state c := by
  have runs {v : WorkerId} {d : CrId} (hrun : s.Runs v d) : c ≠ d := by
    rintro rfl
    obtain ⟨-, -, hv, -⟩ := (hs c).of_running hrun.1
    obtain rfl : w = v := by simpa [hpin] using hv
    exact hpc hrun.2
  have pinned {v : WorkerId} {d : CrId} (hv : s.pin d = some v) (hidle : s.pc (.on v) = .idle) : c ≠ d := by
    rintro rfl
    obtain rfl : w = v := by simpa [hpin] using hv
    exact hpc hidle
  cases h with
  | @spawn _ d _ _ hst | @spawnLocal _ d _ _ hst =>
    have hd : c ≠ d := by
      rintro rfl
      simp [((hs c).of_none hst).2.1] at hpin
    simp [State.enqueue, State.setState, State.append, hd]
  | @take v d q rest _ _ _ hl =>
    have hd : c ≠ d := by
      rintro rfl
      have hmem := (hs c).of_mem (p := .injector q) (by simp [hl])
      simp [hmem.2.2.2.2] at hpin
    simp [State.switchTo, State.setState, hd]
  | @dequeue v d q rest _ hat hl =>
    have hd : c ≠ d := by
      rintro rfl
      obtain ⟨-, -, -, u, hu, -, hpin'⟩ := (hs c).of_mem (p := .ready (.on v) q) (by simp [hl])
      obtain rfl : v = u := by simpa using hu
      exact pinned hpin' hat.2.2 rfl
    simp [State.switchTo, State.setState, hd]
  | yield hrun | exit hrun =>
    simp [State.switchOut, State.setLoop, State.enqueue, State.setState, State.append, runs hrun]
  | suspend hrun =>
    split
    · simp [State.switchOut, State.setLoop, State.setState, runs hrun]
    · rfl
  | @post v d x hat =>
    refine (post_state s v d x c).resolve_right fun hc => ?_
    exact pinned (hw.hands v d (by simp [hat.2.1, Loop.hands])) hat.2.2 hc.1
  | @deliver v d rest x hat =>
    refine (deliver_state s v d x c).resolve_right fun hc => ?_
    exact pinned (hw.hands v d (by simp [hat.2.1, Loop.hands])) hat.2.2 hc.1
  | callback hat hpin' =>
    simp [State.enqueue, State.setState, State.append, pinned hpin' hat.2.2]
  | @test a d r y hpc' =>
    refine (test_state s a d r y c).resolve_right ?_
    rintro ⟨rfl, -, hne, hrunning, hready⟩
    obtain ⟨-, hsusp⟩ := hw.known a c r y hpc'
    obtain rfl : y = .done := by cases y <;> simp_all
    cases r with
    | none => exact hne (ho c hpc')
    | some v =>
      obtain ⟨rfl, hv, -, -⟩ := hw.own a c v .done hpc'
      obtain rfl : w = v := by simpa [hpin] using hv
      exact he rfl
  | _ => rfl

/-- A test in progress is new, or the thread has moved on, or it was there before. -/
lemma own_step (hs : ∀ d, s.Settled d) (hw : WakeInv s) (h : Step n s e s') (ho : Steady s e s')
    {a : Thread} {c : CrId} {w : WorkerId} {x : CrState} (hpc : s'.pc a = .test c (some w) x) :
    a = .on w ∧ s'.pin c = some w ∧ (x ≠ .running → s'.state c ≠ some .running) ∧
      (x = .done → s'.state c ≠ some .ready) := by
  have old (hold : s.pc a = .test c (some w) x) (he : e ≠ .test (.on w)) :
      a = .on w ∧ s'.pin c = some w ∧ (x ≠ .running → s'.state c ≠ some .running) ∧
        (x = .done → s'.state c ≠ some .ready) := by
    obtain ⟨ha, hpin, hrunning, hready⟩ := hw.own a c w x hold
    have hstate := step_state hs hw h ho hpin (by rw [← ha, hold]; simp) he
    exact ⟨ha, step_pin hs h hpin, by rwa [hstate], by rwa [hstate]⟩
  cases h with
  | @load b d hidle hborn =>
    by_cases hb : a = b
    · subst hb
      obtain ⟨rfl, hpin, rfl, ha⟩ := route_test (by simpa [State.setPc] using hpc)
      exact ⟨ha w rfl, hpin.symm, by simp, by simp⟩
    · exact old (by simpa [State.setPc, hb] using hpc) (by simp)
  | @test b d r y hold =>
    by_cases hb : a = b
    · subst hb
      -- the thread has passed one more comparison, on the same state
      obtain ⟨rfl, rfl, hne, hstate, hcase⟩ := test_pc_self hpc
      obtain ⟨ha, hpin, hrunning, -⟩ := hw.own a d w y hold
      rw [hstate, test_pin]
      rcases hcase with ⟨rfl, rfl⟩ | ⟨rfl, rfl⟩
      · exact ⟨ha, hpin, fun _ => hne, by simp⟩
      · exact ⟨ha, hpin, fun _ => hrunning (by simp), fun _ => hne⟩
    · rw [test_pc_of_ne _ _ _ _ _ hb] at hpc
      refine old hpc ?_
      rintro ⟨⟩
      exact hb (hw.own a c w x hpc).1
  | @exchange b d v | @push b d v =>
    by_cases hb : a = b
    · subst hb
      simp only [State.setPc, Function.update_self] at hpc
      grind
    · exact old (by simpa [State.setPc, hb] using hpc) (by simp)
  | suspend =>
    refine old ?_ (by simp)
    split at hpc <;> exact hpc
  | post | deliver => exact old (by simpa [State.setLoop] using hpc) (by simp)
  | _ => exact old hpc (by simp)

lemma known_step (hw : WakeInv s) (h : Step n s e s') {a : Thread} {c : CrId} {r : Option WorkerId}
    {x : CrState} (hpc : s'.pc a = .test c r x) : s'.state c ≠ none ∧ x ≠ .suspended := by
  have old (hold : s.pc a = .test c r x) : s'.state c ≠ none ∧ x ≠ .suspended :=
    ⟨step_born h (hw.known a c r x hold).1, (hw.known a c r x hold).2⟩
  cases h with
  | @load b d hidle hborn =>
    by_cases hb : a = b
    · subst hb
      obtain ⟨rfl, -, rfl, -⟩ := route_test (by simpa [State.setPc] using hpc)
      exact ⟨hborn, by simp⟩
    · exact old (by simpa [State.setPc, hb] using hpc)
  | @test b d r' y hold =>
    by_cases hb : a = b
    · subst hb
      obtain ⟨rfl, rfl, -, hstate, hcase⟩ := test_pc_self hpc
      rw [hstate]
      refine ⟨(hw.known a d r' y hold).1, ?_⟩
      rcases hcase with ⟨-, rfl⟩ | ⟨-, rfl⟩ <;> simp
    · exact old (by rwa [test_pc_of_ne _ _ _ _ _ hb] at hpc)
  | @exchange b d v | @push b d v =>
    by_cases hb : a = b
    · subst hb
      simp only [State.setPc, Function.update_self] at hpc
      grind
    · exact old (by simpa [State.setPc, hb] using hpc)
  | suspend =>
    refine old ?_
    split at hpc <;> exact hpc
  | post | deliver => exact old (by simpa [State.setLoop] using hpc)
  | _ => exact old hpc

lemma routed_step (hs : ∀ d, s.Settled d) (hw : WakeInv s) (h : Step n s e s') {a : Thread} {c : CrId}
    {w : WorkerId} (hpc : s'.pc a = .exchange c w ∨ s'.pc a = .push c w) : s'.pin c = some w := by
  have old (hold : s.pc a = .exchange c w ∨ s.pc a = .push c w) : s'.pin c = some w :=
    step_pin hs h (hw.routed a c w hold)
  cases h with
  | @load b d hidle hborn =>
    by_cases hb : a = b
    · subst hb
      have hpin : s.pin c = some w := route_exchange (by simpa [State.setPc] using hpc)
      exact hpin
    · exact old (by simpa [State.setPc, hb] using hpc)
  | @test b d r' y hold =>
    by_cases hb : a = b
    · subst hb
      exact absurd hpc test_pc_routed
    · exact old (by rwa [test_pc_of_ne _ _ _ _ _ hb] at hpc)
  | @exchange b d v hold =>
    by_cases hb : a = b
    · subst hb
      simp only [State.setPc, Function.update_self] at hpc ⊢
      have hpin := hw.routed a d v (Or.inl hold)
      grind
    · exact old (by simpa [State.setPc, hb] using hpc)
  | @push b d v =>
    by_cases hb : a = b
    · subst hb
      simp [State.setPc] at hpc
    · exact old (by simpa [State.setPc, hb] using hpc)
  | suspend =>
    refine old ?_
    split at hpc <;> exact hpc
  | post | deliver => exact old (by simpa [State.setLoop] using hpc)
  | _ => exact old hpc

lemma inbox_step (hs : ∀ d, s.Settled d) (hw : WakeInv s) (h : Step n s e s') {w : WorkerId} {c : CrId}
    (hc : c ∈ s'.inbox w) : s'.pin c = some w := by
  have old (hold : c ∈ s.inbox w) : s'.pin c = some w := step_pin hs h (hw.inbox w c hold)
  cases h with
  | @drain v =>
    by_cases hv : w = v
    · simp [hv] at hc
    · exact old (by simpa [hv] using hc)
  | @push b d v hpc =>
    by_cases hv : w = v
    · subst hv
      rcases List.mem_cons.mp (by simpa using hc) with rfl | hmem
      · exact hw.routed b c w (Or.inr hpc)
      · exact old hmem
    · exact old (by simpa [hv] using hc)
  | suspend =>
    refine old ?_
    split at hc <;> exact hc
  | post | deliver | test => exact old (by simpa [State.setLoop] using hc)
  | _ => exact old hc

lemma hands_step (hs : ∀ d, s.Settled d) (hw : WakeInv s) (h : Step n s e s') {w : WorkerId} {c : CrId}
    (hc : c ∈ (s'.loop w).hands) : s'.pin c = some w := by
  have old (hold : c ∈ (s.loop w).hands) : s'.pin c = some w := step_pin hs h (hw.hands w c hold)
  cases h with
  | @yield v d hrun | @exit v d hrun =>
    by_cases hv : w = v
    · subst hv
      obtain rfl : c = d := by simpa [State.switchOut, State.setLoop, Loop.hands] using hc
      exact ((hs c).of_running hrun.1).2.2.1
    · exact old (by simpa [State.switchOut, State.setLoop, State.enqueue, State.setState, State.append, hv] using hc)
  | @suspend v d hrun =>
    have hin := ((hs d).of_running hrun.1).2
    rw [if_pos hin.1] at hc
    by_cases hv : w = v
    · subst hv
      obtain rfl : c = d := by simpa [State.switchOut, State.setLoop, Loop.hands] using hc
      split <;> exact hin.2.1
    · exact old (by simpa [State.switchOut, State.setLoop, State.setState, hv] using hc)
  | @post v d x hat =>
    by_cases hv : w = v
    · simp [State.setLoop, hv, Loop.hands] at hc
    · exact old (by simpa [State.setLoop, hv] using hc)
  | @drain v hat =>
    by_cases hv : w = v
    · subst hv
      exact hw.inbox w c (by simpa [State.setLoop, Loop.hands] using hc)
    · exact old (by simpa [State.setLoop, hv] using hc)
  | @pop v d rest hat =>
    by_cases hv : w = v
    · subst hv
      exact old (by simpa [State.setLoop, hat.2.1, Loop.hands] using hc)
    · exact old (by simpa [State.setLoop, hv] using hc)
  | @deliver v d rest x hat =>
    by_cases hv : w = v
    · subst hv
      have hmem : c ∈ rest := by simpa [State.setLoop, Loop.hands] using hc
      exact old (by simp [hat.2.1, Loop.hands, hmem])
    · exact old (by simpa [State.setLoop, hv] using hc)
  | @drained v hat =>
    by_cases hv : w = v
    · simp [State.setLoop, hv, Loop.hands] at hc
    · exact old (by simpa [State.setLoop, hv] using hc)
  | test => exact old (by simpa using hc)
  | _ => exact old hc

lemma wakeInv_step (hs : ∀ d, s.Settled d) (hw : WakeInv s) (h : Step n s e s') (ho : Steady s e s') :
    WakeInv s' where
  known := fun _ _ _ _ hpc => known_step hw h hpc
  own := fun _ _ _ _ hpc => own_step hs hw h ho hpc
  routed := fun _ _ _ hpc => routed_step hs hw h hpc
  inbox := fun _ _ hc => inbox_step hs hw h hc
  hands := fun _ _ hc => hands_step hs hw h hc

end Steps

/-- Every coroutine is settled, in every run. -/
lemma settled_reachable {n : ℕ} {s : State} (h : Reachable (Restrict (Step n) Steady) .init s) :
    (∀ c, s.Settled c) ∧ WakeInv s := by
  refine h.invariant (I := fun s => (∀ c, s.Settled c) ∧ WakeInv s) ⟨fun c => ?_, ?_⟩ ?_
  · exact .unborn rfl rfl rfl (fun p => rfl) (fun w => by simp [State.init])
  · constructor <;> simp [State.init, Loop.hands]
  · rintro s e t ⟨hs, hw⟩ ⟨hstep, ho⟩
    exact ⟨settled_step hs hw hstep ho, wakeInv_step hs hw hstep ho⟩

/-- A live coroutine is in exactly one situation; no coroutine is linked twice, and none is in the ready list
of a thread it is not pinned to. -/
theorem coroutine_in_one_place {n : ℕ} {s : State} (h : Reachable (Restrict (Step n) Steady) .init s) :
    (∀ c, s.state c ≠ none → s.freed c = false → ∃! x, s.In c x) ∧
    (∀ c p p', c ∈ s.lists p → c ∈ s.lists p' → p = p') ∧ (∀ p, (s.lists p).Nodup) ∧
    ∀ c a q, c ∈ s.lists (.ready a q) → ∃ w, a = .on w ∧ s.pin c = some w := by
  obtain ⟨hs, -⟩ := settled_reachable h
  refine ⟨fun c hborn hlive => ?_, fun c p p' hp hp' => ?_, fun p => ?_, fun c a q hc => ?_⟩
  · cases hs c with
    | unborn hst => exact absurd hst hborn
    | freed hf => simp [hlive] at hf
    | live x _ hin => exact ⟨x, hin, fun y hy => hy.unique hin⟩
  · exact ((hs c).of_mem hp).2.1.unique ((hs c).of_mem hp').2.1
  · apply List.nodup_iff_count.mpr
    intro c
    by_cases hc : c ∈ s.lists p
    · have hone : (s.lists p).count c = _ := ((hs c).of_mem hc).2.1 p
      simp [hone]
    · simp [List.count_eq_zero_of_not_mem hc]
  · obtain ⟨-, -, -, w, ha, -, hpin⟩ := (hs c).of_mem hc
    exact ⟨w, ha, hpin⟩

/-! ## A wake that was overtaken by the pin -/

/-- A thread resumes coroutine 0 while worker 1 runs it for the first time; it finds it running. -/
theorem coroutine_in_one_place_taken : ∃ s, Reachable (Restrict (Step 2) Steady) .init s ∧
    s.pc (.ext 0) = .idle ∧ s.running 1 = some 0 ∧ ∃! x, s.In 0 x := by
  have hreach : Reachable (Restrict (Step 2) Steady) .init _ :=
    ⟨_, .cons ⟨.spawn (a := .ext 0) (c := 0) (q := 2) rfl rfl (.inl (by decide)), trivial⟩ <|
      .cons ⟨.load (a := .ext 0) (c := 0) rfl (by decide), trivial⟩ <|
      .cons ⟨.take (w := 1) (c := 0) (q := 2) (by decide) ⟨rfl, rfl, rfl⟩ (fun _ => rfl) rfl (by decide),
        trivial⟩ <|
      .cons ⟨.test (a := .ext 0) (c := 0) (x := .running) rfl,
        fun _ h => Pc.noConfusion (show Pc.test 0 none .running = .test _ none .done from h)
          fun _ _ hx => CrState.noConfusion hx⟩ <| .nil _⟩
  exact ⟨_, hreach, rfl, rfl, (coroutine_in_one_place hreach).1 0 (by decide) rfl⟩

/-- A thread loads `worker` of coroutine 0 while it is on the injector; then worker 1 takes it and it suspends
there; then the thread finds it suspended and puts it on its own ready list. -/
theorem resume_overtaken_by_pin : ¬ ∀ (n : ℕ) (s : State), Reachable (Step n) .init s →
    (∀ c, s.state c ≠ none → s.freed c = false → ∃! x, s.In c x) ∧
    (∀ c p p', c ∈ s.lists p → c ∈ s.lists p' → p = p') ∧ (∀ p, (s.lists p).Nodup) ∧
    ∀ c a q, c ∈ s.lists (.ready a q) → ∃ w, a = .on w ∧ s.pin c = some w := by
  intro h
  have hreach : Reachable (Step 2) .init _ :=
    ⟨_, .cons (.spawn (a := .ext 0) (c := 0) (q := 2) rfl rfl (.inl (by decide))) <|
      .cons (.load (a := .ext 0) (c := 0) rfl (by decide)) <|
      .cons (.take (w := 1) (c := 0) (q := 2) (by decide) ⟨rfl, rfl, rfl⟩ (fun _ => rfl) rfl (by decide)) <|
      .cons (.suspend (w := 1) (c := 0) ⟨rfl, rfl⟩) <|
      .cons (.test (a := .ext 0) (c := 0) (x := .running) rfl) <|
      .cons (.test (a := .ext 0) (c := 0) (x := .ready) rfl) <|
      .cons (.test (a := .ext 0) (c := 0) (x := .done) rfl) <| .nil _⟩
  obtain ⟨-, -, -, hready⟩ := h 2 _ hreach
  obtain ⟨w, hw, -⟩ := hready 0 (.ext 0) 2 (by decide)
  simp at hw

end Suspenders.Coro
