import Suspenders.Base
import Suspenders.Lib.Run
import Suspenders.Lib.Slist

/-!
# The inbox of a worker

`s_inbox_wake` puts a coroutine on the inbox of its worker, a stack that is linked by `inbox_next`.  Whoever sets
`wake_inflight` of the coroutine pushes it: it loads the head, stores it in `inbox_next`, and exchanges the head with a
CAS that may fail.  `s_inbox_drain` takes the whole stack, reverses it by its links, and delivers one coroutine after the
other; it clears `wake_inflight` of a coroutine before it delivers it, so that somebody may push it again at once.

All loads and stores are steps of their own.  Any number of producers and all workers take them in any order.
-/

namespace Suspenders.Coro

open Lib Function

/-- Where a producer is in `s_inbox_wake`. -/
inductive PushPc
  | idle
  /-- Before the exchange of `wake_inflight`; the worker was loaded. -/
  | exchange (c : CrId) (w : WorkerId)
  /-- Before the load of the head. -/
  | load (c : CrId) (w : WorkerId)
  /-- Before the store to `inbox_next`. -/
  | store (c : CrId) (w : WorkerId) (head : Option CrId)
  /-- Before the CAS. -/
  | cas (c : CrId) (w : WorkerId) (head : Option CrId)

/-- Where a worker is in `s_inbox_drain`. -/
inductive DrainPc
  | idle
  /-- At the head of the first loop. -/
  | reverse (list rev : Option CrId)
  /-- In the first loop, `list` is `c`; before the store to its `inbox_next`, which was `n`. -/
  | relink (c : CrId) (n rev : Option CrId)
  /-- At the head of the second loop. -/
  | walk (rev : Option CrId)
  /-- Before the store of `NULL` to `inbox_next` of `c`. -/
  | unlink (c : CrId) (rev : Option CrId)
  /-- Before the store to `wake_inflight` of `c`. -/
  | clear (c : CrId) (rev : Option CrId)
  /-- Before `s_inbox_deliver(c)`. -/
  | deliver (c : CrId) (rev : Option CrId)

/-- The inboxes, the fields of the coroutines, the producers `π` and the workers. -/
structure InboxState (π : Type*) where
  worker : CrId → Option WorkerId
  inbox : WorkerId → Option CrId
  next : CrId → Option CrId
  inflight : CrId → Bool
  push : π → PushPc
  drain : WorkerId → DrainPc

/-- A step. -/
inductive InboxAct (π : Type*)
  /-- A coroutine gets its worker. -/
  | pin (c : CrId) (w : WorkerId)
  /-- A producer calls `s_inbox_wake(c)`. -/
  | call (p : π) (c : CrId)
  /-- A producer goes on; if `spurious`, a CAS fails without a reason. -/
  | push (p : π) (spurious : Bool)
  /-- A worker calls `s_inbox_drain`, or goes on in it. -/
  | drain (w : WorkerId)

namespace InboxState

variable {π : Type*} [DecidableEq π]

/-- Nobody is on an inbox. -/
def init : InboxState π :=
  ⟨fun _ => none, fun _ => none, fun _ => none, fun _ => false, fun _ => .idle, fun _ => .idle⟩

def setPush (s : InboxState π) (p : π) (x : PushPc) : InboxState π := { s with push := update s.push p x }

omit [DecidableEq π] in
def setDrain (s : InboxState π) (w : WorkerId) (x : DrainPc) : InboxState π := { s with drain := update s.drain w x }

omit [DecidableEq π] in
def setNext (s : InboxState π) (c : CrId) (x : Option CrId) : InboxState π := { s with next := update s.next c x }

/-- `s_inbox_wake` -/
def pushStep (s : InboxState π) (p : π) (spurious : Bool) : Option (InboxState π) :=
  match s.push p with
  | .idle => none
  | .exchange c w =>
    some (if s.inflight c then s.setPush p .idle
      else { s.setPush p (.load c w) with inflight := update s.inflight c true })
  | .load c w => some (s.setPush p (.store c w (s.inbox w)))
  | .store c w head => some ((s.setNext c head).setPush p (.cas c w head))
  | .cas c w head =>
    some (if s.inbox w = head ∧ spurious = false then { s.setPush p .idle with inbox := update s.inbox w (some c) }
      else s.setPush p (.load c w))

omit [DecidableEq π] in
/-- `s_inbox_drain` -/
def drainStep (s : InboxState π) (w : WorkerId) : InboxState π :=
  match s.drain w with
  | .idle => { s.setDrain w (.reverse (s.inbox w) none) with inbox := update s.inbox w none }
  | .reverse none rev => s.setDrain w (.walk rev)
  | .reverse (some c) rev => s.setDrain w (.relink c (s.next c) rev)
  | .relink c n rev => (s.setNext c rev).setDrain w (.reverse n (some c))
  | .walk none => s.setDrain w .idle
  | .walk (some c) => s.setDrain w (.unlink c (s.next c))
  | .unlink c rev => (s.setNext c none).setDrain w (.clear c rev)
  | .clear c rev => { s.setDrain w (.deliver c rev) with inflight := update s.inflight c false }
  | .deliver _ rev => s.setDrain w (.walk rev)

def step (s : InboxState π) : InboxAct π → Option (InboxState π)
  | .pin c w => if s.worker c = none then some { s with worker := update s.worker c (some w) } else none
  | .call p c =>
    match s.push p with
    | .idle =>
      match s.worker c with
      | some w => some (s.setPush p (.exchange c w))
      | none => some s
    | _ => none
  | .push p spurious => s.pushStep p spurious
  | .drain w => some (s.drainStep w)

end InboxState

/-- The coroutines that were put on each inbox and those that were delivered, each in order. -/
structure InboxHist where
  pushed : WorkerId → List CrId
  delivered : WorkerId → List CrId

/-- What a step records: a CAS that succeeds, and a delivery. -/
def InboxHist.record {π : Type*} (m : InboxHist) (s : InboxState π) : InboxAct π → InboxHist
  | .push p spurious =>
    match s.push p with
    | .cas c w head =>
      if s.inbox w = head ∧ spurious = false then { m with pushed := update m.pushed w (m.pushed w ++ [c]) } else m
    | _ => m
  | .drain w =>
    match s.drain w with
    | .deliver c _ => { m with delivered := update m.delivered w (m.delivered w ++ [c]) }
    | _ => m
  | _ => m

abbrev InboxStep {π : Type*} [DecidableEq π] :
    InboxState π × InboxHist → InboxAct π → InboxState π × InboxHist → Prop :=
  Recorded (StepOf InboxState.step) InboxHist.record

/-! ## What is linked -/

/-- The coroutines that are linked in an inbox. -/
structure Linked where
  /-- On the stack, the last one first. -/
  stack : List CrId
  /-- Taken from the stack and not reversed. -/
  todo : List CrId
  /-- Reversed, and `wake_inflight` is still set. -/
  rev : List CrId

/-- All of them. -/
def Linked.all (x : Linked) : List CrId := x.stack ++ x.todo ++ x.rev

/-- The order in which they are delivered. -/
def Linked.pending (x : Linked) : List CrId := x.todo.reverse ++ x.rev ++ x.stack.reverse

/-- The links of what a worker is draining. -/
def DrainPc.Rep (next : CrId → Option CrId) (todo rev : List CrId) : DrainPc → Prop
  | .idle => todo = [] ∧ rev = []
  | .reverse l r => Seg next l todo none ∧ Seg next r rev none
  | .relink c n r => Seg next r rev none ∧ ∃ rest, todo = c :: rest ∧ Seg next n rest none
  | .walk r => todo = [] ∧ Seg next r rev none
  | .unlink c r => todo = [] ∧ ∃ rest, rev = c :: rest ∧ Seg next r rest none
  | .clear c r => todo = [] ∧ ∃ rest, rev = c :: rest ∧ Seg next r rest none
  | .deliver _ r => todo = [] ∧ Seg next r rev none

/-- The links of an inbox: from its head, and from where its worker is. -/
def Linked.Rep (x : Linked) (next : CrId → Option CrId) (head : Option CrId) (d : DrainPc) : Prop :=
  Seg next head x.stack none ∧ d.Rep next x.todo x.rev

/-- The coroutine that is delivered next and not linked any more. -/
def DrainPc.delivering : DrainPc → List CrId
  | .deliver c _ => [c]
  | _ => []

/-- The producer pushes `c`. -/
def PushPc.Pushes (c : CrId) : PushPc → Prop
  | .idle | .exchange _ _ => False
  | .load d _ | .store d _ _ | .cas d _ _ => d = c

/-- The links stand for the lists `A`.  A coroutine is with the producer that pushes it, on one inbox, or nowhere, and
`wake_inflight` tells whether it is somewhere. -/
structure InboxInv {π : Type*} (s : InboxState π) (A : WorkerId → Linked) (place : CrId → Option (π ⊕ WorkerId)) :
    Prop where
  rep : ∀ w, (A w).Rep s.next (s.inbox w) (s.drain w)
  nodup : ∀ w, (A w).all.Nodup
  mem : ∀ w c, c ∈ (A w).all ↔ place c = some (.inr w)
  pushes : ∀ p c, (s.push p).Pushes c ↔ place c = some (.inl p)
  flag : ∀ c, s.inflight c = (place c).isSome
  cas : ∀ p c w head, s.push p = .cas c w head → s.next c = head

lemma DrainPc.Rep.congr {next next' : CrId → Option CrId} {todo rev : List CrId} {d : DrainPc}
    (h : d.Rep next todo rev) (htodo : ∀ c ∈ todo, next' c = next c) (hrev : ∀ c ∈ rev, next' c = next c) :
    d.Rep next' todo rev := by
  cases d with
  | idle => exact h
  | reverse l r => exact ⟨h.1.congr htodo, h.2.congr hrev⟩
  | relink c n r =>
    obtain ⟨hr, rest, rfl, hn⟩ := h
    exact ⟨hr.congr hrev, rest, rfl, hn.congr fun d hd => htodo d (List.mem_cons_of_mem c hd)⟩
  | walk r | deliver _ r => exact ⟨h.1, h.2.congr hrev⟩
  | unlink c r | clear c r =>
    obtain ⟨hnil, rest, rfl, hr⟩ := h
    exact ⟨hnil, rest, rfl, hr.congr fun d hd => hrev d (List.mem_cons_of_mem c hd)⟩

/-- The links of an inbox only depend on the coroutines that are linked. -/
lemma Linked.Rep.congr {x : Linked} {next next' : CrId → Option CrId} {head : Option CrId} {d : DrainPc}
    (h : x.Rep next head d) (heq : ∀ c ∈ x.all, next' c = next c) : x.Rep next' head d :=
  ⟨h.1.congr fun c hc => heq c (by simp [Linked.all, hc]),
    h.2.congr (fun c hc => heq c (by simp [Linked.all, hc])) fun c hc => heq c (by simp [Linked.all, hc])⟩

section Steps

variable {π : Type*} [DecidableEq π] {s s' : InboxState π} {A : WorkerId → Linked}
  {place : CrId → Option (π ⊕ WorkerId)} {p : π} {c : CrId} {w : WorkerId} {head : Option CrId}

@[simp] lemma setPush_self (s : InboxState π) (p : π) (x : PushPc) : (s.setPush p x).push p = x := update_self _ _ _

lemma setPush_of_ne (s : InboxState π) {p q : π} (hq : q ≠ p) (x : PushPc) : (s.setPush p x).push q = s.push q :=
  update_of_ne hq _ _

/-! ### Producers -/

/-- A producer goes on with the same coroutine. -/
lemma InboxInv.setPush (h : InboxInv s A place) {x : PushPc} (hx : ∀ c, x.Pushes c ↔ (s.push p).Pushes c)
    (hcas : ∀ c w head, x = .cas c w head → s.next c = head) : InboxInv (s.setPush p x) A place := by
  refine ⟨h.rep, h.nodup, h.mem, fun q d => ?_, h.flag, fun q d v hd hq => ?_⟩
  · by_cases hqp : q = p
    · rw [hqp, setPush_self, hx, h.pushes]
    · rw [setPush_of_ne s hqp, h.pushes]
  · by_cases hqp : q = p
    · rw [hqp, setPush_self] at hq
      exact hcas d v hd hq
    · rw [setPush_of_ne s hqp] at hq
      exact h.cas q d v hd hq

/-- A producer sets `wake_inflight`. -/
lemma InboxInv.acquire (h : InboxInv s A place) (hp : s.push p = .exchange c w) (hc : s.inflight c = false) :
    InboxInv { s.setPush p (.load c w) with inflight := update s.inflight c true } A
      (update place c (some (.inl p))) := by
  have hnone : place c = none := by simpa [hc] using (h.flag c).symm
  refine ⟨h.rep, h.nodup, fun v d => ?_, fun q d => ?_, fun d => ?_, fun q d v hd hq => ?_⟩
  · by_cases hd : d = c
    · rw [h.mem v d, hd, hnone, update_self]
      simp
    · rw [h.mem v d, update_of_ne hd]
  · by_cases hqp : q = p
    · have hno (d : CrId) : place d ≠ some (.inl p) := fun hd => by simpa [hp, PushPc.Pushes] using (h.pushes p d).mpr hd
      by_cases hd : d = c
      · simp [hqp, hd, InboxState.setPush, PushPc.Pushes]
      · simpa [hqp, hd, InboxState.setPush, PushPc.Pushes, hno d] using Ne.symm hd
    · have hold := h.pushes q d
      by_cases hd : d = c
      · rw [hd, hnone] at hold
        simpa [hd, InboxState.setPush, hqp, Ne.symm hqp] using hold
      · simpa [hd, InboxState.setPush, hqp] using hold
  · by_cases hd : d = c
    · simp [hd]
    · simp [hd, h.flag d]
  · by_cases hqp : q = p
    · simp [InboxState.setPush, hqp] at hq
    · exact h.cas q d v hd (by simpa [InboxState.setPush, hqp] using hq)

/-- A producer writes to the link of its coroutine, which is on no inbox. -/
lemma InboxInv.store (h : InboxInv s A place) (hp : s.push p = .store c w head) :
    InboxInv ((s.setNext c head).setPush p (.cas c w head)) A place := by
  have hplace : place c = some (.inl p) := (h.pushes p c).mp (by simp [hp, PushPc.Pushes])
  have hfree (v : WorkerId) (d : CrId) (hd : d ∈ (A v).all) : d ≠ c := by
    rintro rfl
    rw [h.mem, hplace] at hd
    cases hd
  have hnext : InboxInv (s.setNext c head) A place := by
    refine ⟨fun v => (h.rep v).congr fun d hd => update_of_ne (hfree v d hd) _ _, h.nodup, h.mem, h.pushes, h.flag,
      fun q d v hd hq => ?_⟩
    have hdc : d ≠ c := by
      rintro rfl
      have hqd := (h.pushes q d).mp (by rw [show s.push q = .cas d v hd from hq]; rfl)
      rw [hplace] at hqd
      obtain rfl : p = q := by simpa using hqd
      rw [show s.push p = .cas d v hd from hq] at hp
      cases hp
    exact (update_of_ne hdc _ _).trans (h.cas q d v hd hq)
  refine hnext.setPush (fun d => ?_) fun d v hd heq => ?_
  · rw [show (s.setNext c head).push p = .store c w head from hp]
    rfl
  · cases heq
    exact update_self _ _ _

/-- A producer puts its coroutine on the stack. -/
lemma InboxInv.publish (h : InboxInv s A place) (hp : s.push p = .cas c w head) (hhead : s.inbox w = head) :
    InboxInv { s.setPush p .idle with inbox := update s.inbox w (some c) }
      (update A w { A w with stack := c :: (A w).stack }) (update place c (some (.inr w))) := by
  have hplace : place c = some (.inl p) := (h.pushes p c).mp (by simp [hp, PushPc.Pushes])
  have hfree (v : WorkerId) : c ∉ (A v).all := by
    rw [h.mem, hplace]
    simp
  have hnext := h.cas p c w head hp
  refine ⟨fun v => ?_, fun v => ?_, fun v d => ?_, fun q d => ?_, fun d => ?_, fun q d v hd hq => ?_⟩
  · by_cases hv : v = w
    · subst hv
      obtain ⟨hstack, hdrain⟩ := h.rep v
      rw [update_self]
      refine ⟨?_, hdrain⟩
      refine ⟨update_self _ _ _, ?_⟩
      change Seg s.next (s.next c) (A v).stack none
      rwa [hnext, ← hhead]
    · rw [update_of_ne hv]
      change (A v).Rep s.next (update s.inbox w (some c) v) (s.drain v)
      rw [update_of_ne hv]
      exact h.rep v
  · by_cases hv : v = w
    · subst hv
      rw [update_self]
      exact List.nodup_cons.mpr ⟨hfree v, h.nodup v⟩
    · rw [update_of_ne hv]
      exact h.nodup v
  · by_cases hv : v = w
    · subst hv
      have hcons : ({ A v with stack := c :: (A v).stack } : Linked).all = c :: (A v).all := rfl
      rw [update_self, hcons, List.mem_cons]
      by_cases hd : d = c
      · simp [hd]
      · simp [hd, h.mem v d]
    · rw [update_of_ne hv]
      by_cases hd : d = c
      · rw [hd, update_self]
        simp [hfree v, Ne.symm hv]
      · rw [update_of_ne hd, h.mem v d]
  · by_cases hqp : q = p
    · have hno : d ≠ c → place d ≠ some (.inl p) := fun hd hpd => by
        have := (h.pushes p d).mpr hpd
        rw [hp] at this
        exact hd this.symm
      by_cases hd : d = c
      · simp [hqp, hd, InboxState.setPush, PushPc.Pushes]
      · simp [hqp, hd, InboxState.setPush, PushPc.Pushes, hno hd]
    · have hold := h.pushes q d
      by_cases hd : d = c
      · rw [hd, hplace] at hold
        simpa [hd, InboxState.setPush, hqp, Ne.symm hqp] using hold
      · simpa [hd, InboxState.setPush, hqp] using hold
  · by_cases hd : d = c
    · simp [hd, InboxState.setPush, h.flag c, hplace]
    · simp [hd, InboxState.setPush, h.flag d]
  · by_cases hqp : q = p
    · simp [InboxState.setPush, hqp] at hq
    · exact h.cas q d v hd (by simpa [InboxState.setPush, hqp] using hq)

/-! ### Workers -/

omit [DecidableEq π] in
/-- A worker moves coroutines inside of its inbox. -/
lemma InboxInv.move (h : InboxInv s A place) {x : Linked} (hrep : x.Rep s'.next (s'.inbox w) (s'.drain w))
    (hall : x.all.Perm (A w).all) (hinbox : ∀ v ≠ w, s'.inbox v = s.inbox v) (hdrain : ∀ v ≠ w, s'.drain v = s.drain v)
    (hnext : ∀ c, c ∉ (A w).all → s'.next c = s.next c) (hpush : s'.push = s.push) (hflag : s'.inflight = s.inflight) :
    InboxInv s' (update A w x) place := by
  have hfree {c : CrId} (hc : place c ≠ some (.inr w)) : s'.next c = s.next c :=
    hnext c fun hmem => hc ((h.mem w c).mp hmem)
  refine ⟨fun v => ?_, fun v => ?_, fun v d => ?_, fun q d => ?_, fun d => ?_, fun q d v hd hq => ?_⟩
  · by_cases hv : v = w
    · rwa [hv, update_self]
    · rw [update_of_ne hv, hinbox v hv, hdrain v hv]
      refine (h.rep v).congr fun d hd => hfree ?_
      rw [(h.mem v d).mp hd]
      simpa using hv
  · by_cases hv : v = w
    · rw [hv, update_self]
      exact hall.nodup_iff.mpr (h.nodup w)
    · rw [update_of_ne hv]
      exact h.nodup v
  · by_cases hv : v = w
    · rw [hv, update_self, hall.mem_iff, h.mem]
    · rw [update_of_ne hv, h.mem]
  · rw [hpush, h.pushes]
  · rw [hflag, h.flag]
  · rw [hpush] at hq
    refine (hfree ?_).trans (h.cas q d v hd hq)
    rw [(h.pushes q d).mp (by rw [hq]; rfl)]
    simp

omit [DecidableEq π] in
@[simp] lemma setDrain_self (s : InboxState π) (w : WorkerId) (x : DrainPc) : (s.setDrain w x).drain w = x :=
  update_self _ _ _

omit [DecidableEq π] in
lemma setDrain_of_ne (s : InboxState π) {v : WorkerId} (hv : v ≠ w) (x : DrainPc) :
    (s.setDrain w x).drain v = s.drain v := update_of_ne hv _ _

/-- What is on the inbox of worker `w` and not delivered. -/
def InboxState.pending (s : InboxState π) (A : WorkerId → Linked) (w : WorkerId) : List CrId :=
  (s.drain w).delivering ++ (A w).pending

/-- What a step of worker `w` delivers. -/
def InboxState.delivers (s : InboxState π) (w : WorkerId) : List CrId := (s.drain w).delivering

omit [DecidableEq π] in
/-- A worker goes on in `s_inbox_drain`, and may write to a link. -/
lemma InboxInv.drain_of (h : InboxInv s A place) {x : Linked} {d : DrainPc} {next : CrId → Option CrId}
    (hstep : s.drainStep w = ({ s with next := next } : InboxState π).setDrain w d)
    (hstack : Seg next (s.inbox w) x.stack none) (hd : d.Rep next x.todo x.rev) (hall : x.all.Perm (A w).all)
    (hnext : ∀ c, c ∉ (A w).all → next c = s.next c)
    (hpending : (s.drain w).delivering ++ (A w).pending = (s.drain w).delivering ++ (d.delivering ++ x.pending)) :
    ∃ x, InboxInv (s.drainStep w) (update A w x) place ∧
      s.pending A w = s.delivers w ++ (s.drainStep w).pending (update A w x) w := by
  refine ⟨x, ?_, ?_⟩
  · rw [hstep]
    refine h.move ⟨hstack, ?_⟩ hall (fun v _ => rfl) (fun v hv => setDrain_of_ne _ hv d) hnext rfl rfl
    rwa [setDrain_self]
  · rw [InboxState.pending, InboxState.delivers, InboxState.pending, update_self, hstep, setDrain_self, hpending]

omit [DecidableEq π] in
/-- A worker takes its whole stack. -/
lemma InboxInv.grab (h : InboxInv s A place) (hd : s.drain w = .idle) :
    ∃ x, InboxInv (s.drainStep w) (update A w x) place ∧
      s.pending A w = s.delivers w ++ (s.drainStep w).pending (update A w x) w := by
  obtain ⟨hstack, hdrain⟩ := h.rep w
  rw [hd] at hdrain
  obtain ⟨htodo, hrev⟩ := hdrain
  have hstep : s.drainStep w =
      ({ s with inbox := update s.inbox w none } : InboxState π).setDrain w (.reverse (s.inbox w) none) := by
    rw [InboxState.drainStep, hd]
    rfl
  refine ⟨⟨[], (A w).stack, []⟩, ?_, ?_⟩
  · rw [hstep]
    refine h.move ⟨update_self _ _ _, ?_⟩ ?_ (fun v hv => update_of_ne hv _ _) (fun v hv => setDrain_of_ne _ hv _)
      (fun _ _ => rfl) rfl rfl
    · rw [setDrain_self]
      exact ⟨hstack, rfl⟩
    · simp [Linked.all, htodo, hrev]
  · rw [InboxState.pending, InboxState.delivers, InboxState.pending, update_self, hstep, setDrain_self, hd]
    simp [Linked.pending, DrainPc.delivering, htodo, hrev]

omit [DecidableEq π] in
/-- A worker takes a step in `s_inbox_drain`, except for the one that clears `wake_inflight`. -/
lemma InboxInv.drain_move (h : InboxInv s A place) (hclear : ∀ c r, s.drain w ≠ .clear c r) :
    ∃ x, InboxInv (s.drainStep w) (update A w x) place ∧
      s.pending A w = s.delivers w ++ (s.drainStep w).pending (update A w x) w := by
  obtain ⟨hstack, hdrain⟩ := h.rep w
  have hnd := h.nodup w
  rcases hd : s.drain w with - | ⟨_ | c, r⟩ | ⟨c, n, r⟩ | ⟨_ | c⟩ | ⟨c, r⟩ | ⟨c, r⟩ | ⟨c, r⟩
  · exact h.grab hd
  · rw [hd] at hdrain
    obtain ⟨hlist, hrev⟩ := hdrain
    have htodo : (A w).todo = [] := List.head?_eq_none_iff.mp hlist.head_eq.symm
    exact h.drain_of (x := A w) (d := .walk r) (by rw [InboxState.drainStep, hd]) hstack ⟨htodo, hrev⟩ (.refl _)
      (fun _ _ => rfl) (by simp [hd, DrainPc.delivering])
  · rw [hd] at hdrain
    obtain ⟨hlist, hrev⟩ := hdrain
    obtain ⟨rest, htodo⟩ : ∃ rest, (A w).todo = c :: rest := List.head?_eq_some_iff.mp hlist.head_eq.symm
    rw [htodo] at hlist
    exact h.drain_of (x := A w) (d := .relink c (s.next c) r) (by rw [InboxState.drainStep, hd]) hstack
      ⟨hrev, rest, htodo, hlist.2⟩ (.refl _) (fun _ _ => rfl) (by simp [hd, DrainPc.delivering])
  · rw [hd] at hdrain
    obtain ⟨hrev, rest, htodo, hrest⟩ := hdrain
    have hperm : (⟨(A w).stack, rest, c :: (A w).rev⟩ : Linked).all.Perm (A w).all := by
      simp only [Linked.all, htodo, List.append_assoc, List.cons_append]
      exact .append_left _ List.perm_middle
    have hfree : ∀ d ∈ (A w).stack ++ rest ++ (A w).rev, d ≠ c := by
      have hcons : (c :: ((A w).stack ++ rest ++ (A w).rev)).Nodup :=
        (List.perm_middle.symm.trans hperm).nodup_iff.mpr hnd
      rintro d hd' rfl
      exact (List.nodup_cons.mp hcons).1 hd'
    have hkeep {l : List CrId} (hl : l ⊆ (A w).stack ++ rest ++ (A w).rev) (d : CrId) (hd' : d ∈ l) :
        update s.next c r d = s.next d := update_of_ne (hfree d (hl hd')) _ _
    have hnext : update s.next c r c = r := update_self _ _ _
    refine h.drain_of (x := ⟨(A w).stack, rest, c :: (A w).rev⟩) (d := .reverse n (some c))
      (by rw [InboxState.drainStep, hd]; rfl) (hstack.congr (hkeep (by simp)))
      ⟨hrest.congr (hkeep (by simp)), rfl, ?_⟩ hperm (fun d hd' => update_of_ne ?_ _ _) ?_
    · rw [hnext]
      exact hrev.congr (hkeep (by simp))
    · rintro rfl
      exact hd' (by simp [Linked.all, htodo])
    · simp [hd, DrainPc.delivering, Linked.pending, htodo]
  · rw [hd] at hdrain
    obtain ⟨htodo, hrev⟩ := hdrain
    have hnil : (A w).rev = [] := List.head?_eq_none_iff.mp hrev.head_eq.symm
    exact h.drain_of (x := A w) (d := .idle) (by rw [InboxState.drainStep, hd]) hstack ⟨htodo, hnil⟩ (.refl _)
      (fun _ _ => rfl) (by simp [hd, DrainPc.delivering])
  · rw [hd] at hdrain
    obtain ⟨htodo, hrev⟩ := hdrain
    obtain ⟨rest, hcons⟩ : ∃ rest, (A w).rev = c :: rest := List.head?_eq_some_iff.mp hrev.head_eq.symm
    rw [hcons] at hrev
    exact h.drain_of (x := A w) (d := .unlink c (s.next c)) (by rw [InboxState.drainStep, hd]) hstack
      ⟨htodo, rest, hcons, hrev.2⟩ (.refl _) (fun _ _ => rfl) (by simp [hd, DrainPc.delivering])
  · rw [hd] at hdrain
    obtain ⟨htodo, rest, hcons, hrest⟩ := hdrain
    have hfree : ∀ d ∈ (A w).stack ++ rest, d ≠ c := by
      rintro d hd' rfl
      simp only [Linked.all, htodo, hcons, List.append_nil] at hnd
      exact (List.nodup_cons.mp (List.perm_middle.nodup_iff.mp hnd)).1 hd'
    have hkeep {l : List CrId} (hl : l ⊆ (A w).stack ++ rest) (d : CrId) (hd' : d ∈ l) :
        update s.next c none d = s.next d := update_of_ne (hfree d (hl hd')) _ _
    refine h.drain_of (x := A w) (d := .clear c r) (by rw [InboxState.drainStep, hd]; rfl)
      (hstack.congr (hkeep (by simp))) ⟨htodo, rest, hcons, hrest.congr (hkeep (by simp))⟩ (.refl _)
      (fun d hd' => update_of_ne ?_ _ _) (by simp [hd, DrainPc.delivering])
    rintro rfl
    exact hd' (by simp [Linked.all, hcons])
  · exact absurd hd (hclear c r)
  · rw [hd] at hdrain
    exact h.drain_of (x := A w) (d := .walk r) (by rw [InboxState.drainStep, hd]) hstack hdrain (.refl _)
      (fun _ _ => rfl) (by simp [hd, DrainPc.delivering])

omit [DecidableEq π] in
/-- A worker clears `wake_inflight` of the coroutine that it delivers next. -/
lemma InboxInv.drain_clear (h : InboxInv s A place) {r : Option CrId} (hd : s.drain w = .clear c r) :
    ∃ x, InboxInv (s.drainStep w) (update A w x) (update place c none) ∧
      s.pending A w = s.delivers w ++ (s.drainStep w).pending (update A w x) w := by
  obtain ⟨hstack, hdrain⟩ := h.rep w
  rw [hd] at hdrain
  obtain ⟨htodo, rest, hcons, hrest⟩ := hdrain
  have hnd := h.nodup w
  have hall : (A w).all = (A w).stack ++ c :: rest := by rw [Linked.all, htodo, hcons, List.append_nil]
  have hplace : place c = some (.inr w) := (h.mem w c).mp (by simp [hall])
  have hc : c ∉ (A w).stack ++ rest := by
    rw [hall] at hnd
    exact (List.nodup_cons.mp (List.perm_middle.nodup_iff.mp hnd)).1
  have hstep : s.drainStep w =
      ({ s with inflight := update s.inflight c false } : InboxState π).setDrain w (.deliver c r) := by
    rw [InboxState.drainStep, hd]
    rfl
  have hnew : (⟨(A w).stack, [], rest⟩ : Linked).all = (A w).stack ++ rest := by simp [Linked.all]
  refine ⟨⟨(A w).stack, [], rest⟩, ?_, ?_⟩
  · rw [hstep]
    refine ⟨fun v => ?_, fun v => ?_, fun v d => ?_, fun q d => ?_, fun d => ?_, h.cas⟩
    · by_cases hv : v = w
      · rw [hv, update_self, setDrain_self]
        exact ⟨hstack, rfl, hrest⟩
      · rw [update_of_ne hv, setDrain_of_ne _ hv]
        exact h.rep v
    · by_cases hv : v = w
      · rw [hv, update_self, hnew]
        rw [hall] at hnd
        exact (List.nodup_cons.mp (List.perm_middle.nodup_iff.mp hnd)).2
      · rw [update_of_ne hv]
        exact h.nodup v
    · by_cases hdc : d = c
      · rw [hdc, update_self]
        by_cases hv : v = w
        · simp [hv, hnew, hc]
        · have hnot : c ∉ (A v).all := by
            rw [h.mem, hplace]
            simpa using Ne.symm hv
          simp [hv, hnot]
      · rw [update_of_ne hdc, ← h.mem v d]
        by_cases hv : v = w
        · rw [hv, update_self, hnew, hall]
          simp [hdc]
        · rw [update_of_ne hv]
    · change (s.push q).Pushes d ↔ _
      rw [h.pushes]
      by_cases hdc : d = c
      · simp [hdc, hplace]
      · rw [update_of_ne hdc]
    · change update s.inflight c false d = _
      by_cases hdc : d = c
      · simp [hdc]
      · rw [update_of_ne hdc, update_of_ne hdc, h.flag]
  · rw [InboxState.pending, InboxState.delivers, InboxState.pending, update_self, hstep, setDrain_self, hd]
    simp [Linked.pending, DrainPc.delivering, htodo, hcons]

omit [DecidableEq π] in
/-- A step of another worker. -/
lemma drainStep_of_ne (s : InboxState π) {v : WorkerId} (hv : v ≠ w) : (s.drainStep w).drain v = s.drain v := by
  unfold InboxState.drainStep
  split <;> exact update_of_ne hv _ _

omit [DecidableEq π] in
/-- A worker takes a step in `s_inbox_drain`. -/
lemma InboxInv.drainStep (h : InboxInv s A place) (w : WorkerId) :
    ∃ x place', InboxInv (s.drainStep w) (update A w x) place' ∧
      s.pending A w = s.delivers w ++ (s.drainStep w).pending (update A w x) w := by
  by_cases hclear : ∃ c r, s.drain w = .clear c r
  · obtain ⟨c, r, hd⟩ := hclear
    obtain ⟨x, hx, hpending⟩ := h.drain_clear hd
    exact ⟨x, _, hx, hpending⟩
  · obtain ⟨x, hx, hpending⟩ := h.drain_move (w := w) fun c r hd => hclear ⟨c, r, hd⟩
    exact ⟨x, _, hx, hpending⟩

end Steps

/-! ## Runs -/

section Runs

variable {π : Type*} [DecidableEq π]

/-- The links stand for lists, and what was pushed is delivered or still on the inbox. -/
def InboxHistInv (p : InboxState π × InboxHist) : Prop :=
  ∃ A place, InboxInv p.1 A place ∧ ∀ w, p.2.pushed w = p.2.delivered w ++ p.1.pending A w

omit [DecidableEq π] in
lemma record_drain (m : InboxHist) (s : InboxState π) (w : WorkerId) :
    m.record s (.drain w) = { m with delivered := update m.delivered w (m.delivered w ++ s.delivers w) } := by
  simp only [InboxHist.record, InboxState.delivers]
  cases s.drain w <;> simp [DrainPc.delivering]

omit [DecidableEq π] in
lemma inboxHistInv_drain {s : InboxState π} {m : InboxHist} (h : InboxHistInv (s, m)) (w : WorkerId) :
    InboxHistInv (s.drainStep w, m.record s (.drain w)) := by
  obtain ⟨A, place, hinv, hpushed⟩ := h
  obtain ⟨x, place', hx, hpending⟩ := hinv.drainStep w
  refine ⟨_, place', hx, fun v => ?_⟩
  have hv := hpushed v
  simp only [record_drain] at hv ⊢
  by_cases hvw : v = w
  · rw [hv, hvw, hpending, update_self, List.append_assoc]
  · rw [hv, update_of_ne hvw, InboxState.pending, InboxState.pending, drainStep_of_ne s hvw, update_of_ne hvw]

lemma inboxHistInv_push {s t : InboxState π} {m : InboxHist} {p : π} {spurious : Bool} (h : InboxHistInv (s, m))
    (hstep : s.pushStep p spurious = some t) : InboxHistInv (t, m.record s (.push p spurious)) := by
  obtain ⟨A, place, hinv, hpushed⟩ := h
  rcases hp : s.push p with _ | ⟨c, w⟩ | ⟨c, w⟩ | ⟨c, w, head⟩ | ⟨c, w, head⟩ <;>
    simp only [InboxState.pushStep, hp, Option.some.injEq, reduceCtorEq] at hstep <;>
    simp only [InboxHist.record, hp]
  · subst hstep
    split
    · exact ⟨A, place, hinv.setPush (fun d => by rw [hp]; rfl) (fun _ _ _ heq => by cases heq), hpushed⟩
    · next hc => exact ⟨A, _, hinv.acquire hp (by simpa using hc), hpushed⟩
  · subst hstep
    exact ⟨A, place, hinv.setPush (fun d => by rw [hp]; rfl) (fun _ _ _ heq => by cases heq), hpushed⟩
  · subst hstep
    exact ⟨A, place, hinv.store hp, hpushed⟩
  · by_cases hcas : s.inbox w = head ∧ spurious = false
    · rw [if_pos hcas] at hstep ⊢
      subst hstep
      refine ⟨_, _, hinv.publish hp hcas.1, fun v => ?_⟩
      have hv := hpushed v
      simp only at hv ⊢
      by_cases hvw : v = w
      · subst hvw
        rw [update_self, hv, InboxState.pending, InboxState.pending, update_self]
        simp [Linked.pending, InboxState.setPush]
      · rw [update_of_ne hvw, hv, InboxState.pending, InboxState.pending, update_of_ne hvw]
        rfl
    · rw [if_neg hcas] at hstep ⊢
      subst hstep
      exact ⟨A, place, hinv.setPush (fun d => by rw [hp]; rfl) (fun _ _ _ heq => by cases heq), hpushed⟩

lemma inboxHistInv_step (p : InboxState π × InboxHist) (a : InboxAct π) (q : InboxState π × InboxHist)
    (h : InboxHistInv p) (hstep : InboxStep p a q) : InboxHistInv q := by
  obtain ⟨s, m⟩ := p
  obtain ⟨t, m'⟩ := q
  obtain ⟨hs, rfl⟩ := hstep
  unfold StepOf at hs
  cases a with
  | pin c w =>
    obtain ⟨A, place, hinv, hpushed⟩ := h
    simp only [InboxState.step, Option.ite_none_right_eq_some, Option.some.injEq] at hs
    obtain ⟨-, rfl⟩ := hs
    exact ⟨A, place, ⟨hinv.rep, hinv.nodup, hinv.mem, hinv.pushes, hinv.flag, hinv.cas⟩, hpushed⟩
  | call p c =>
    obtain ⟨A, place, hinv, hpushed⟩ := h
    simp only [InboxState.step] at hs
    split at hs
    · next hp =>
      split at hs
      · cases hs
        exact ⟨A, place, hinv.setPush (fun d => by rw [hp]; rfl) (fun _ _ _ heq => by cases heq), hpushed⟩
      · cases hs
        exact ⟨A, place, hinv, hpushed⟩
    · cases hs
  | push p spurious => exact inboxHistInv_push h hs
  | drain w =>
    cases hs
    exact inboxHistInv_drain h w

end Runs

end Suspenders.Coro
