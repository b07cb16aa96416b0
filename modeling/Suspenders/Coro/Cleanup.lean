import Mathlib.Data.Set.Insert
import Suspenders.Lib.Slist
import Suspenders.Lib.Stack

/-!
# Cleanup handlers

The handlers of a coroutine are linked through nodes that their callers own, the latest first.  `suspenders_cr_exit`
takes one after the other and calls it.  A handler is code like any other: it may push and pop handlers, park, and call
`suspenders_exit`, in which case a second loop runs on top of the first one and does not come back to it.  So the state
has the stack of the coroutine, down to whether a call is user code or the loop.

The handlers form a stack.  `CleanupHist` numbers them in the order in which they are pushed, and its log says what
became of each.  Only a node that is not linked may be pushed; if one that is linked is, then the links form a ring, and
the loop has no end (`Looped`).
-/

namespace Suspenders.Coro

open Lib Function

/-- `cr->state` -/
inductive CrState
  | ready
  | running
  | suspended
  | done
  deriving DecidableEq

/-- `suspenders_cleanup_t`; a handler may have no function. -/
structure CleanupNode (ν φ α : Type*) where
  fn : Option φ
  arg : α
  next : Option ν

/-- A call on the stack of the coroutine. -/
inductive CleanupFrame
  /-- The function of the coroutine, or that of a handler. -/
  | user
  /-- The loop of `suspenders_cr_exit`. -/
  | exiting
  deriving DecidableEq

/-- What `suspenders_cr_exit` reads and writes, and the stack of the coroutine. -/
structure CleanupState (ν φ α : Type*) where
  cleanupHead : Option ν
  node : ν → CleanupNode ν φ α
  deadlineArmed : Bool
  daemon : Bool
  state : CrState
  /-- `active_coroutines` -/
  active : ℕ
  /-- How often the coroutine was put on `s_zombies`. -/
  zombies : ℕ
  /-- The calls, the innermost first; none once the coroutine has switched away for good. -/
  frames : List CleanupFrame

/-- A step of the coroutine. -/
inductive CleanupAct (ν φ α : Type*)
  /-- `suspenders_cleanup_push` -/
  | push (node : Option ν) (fn : Option φ) (arg : α)
  /-- `suspenders_cleanup_pop`, up to the call of the handler. -/
  | pop (execute : Bool)
  /-- `suspenders_exit` -/
  | exit
  /-- The innermost call returns. -/
  | ret
  /-- One round of the loop in `suspenders_cr_exit`, or what is behind it. -/
  | turn
  /-- A wait, -/
  | park
  /-- the wakeup, -/
  | wake
  /-- and the switch back. -/
  | dispatch

namespace CleanupState

variable {ν φ α : Type*} [DecidableEq ν] (s : CleanupState ν φ α)

/-- A handler is called. -/
def call : CleanupState ν φ α := { s with frames := .user :: s.frames }

/-- `suspenders_cleanup_push` -/
def cleanupPush (node : Option ν) (fn : Option φ) (arg : α) : CleanupState ν φ α :=
  match node with
  | none => s
  | some n => { s with node := update s.node n ⟨fn, arg, s.cleanupHead⟩, cleanupHead := some n }

/-- `suspenders_cleanup_pop` -/
def cleanupPop (execute : Bool) : CleanupState ν φ α :=
  match s.cleanupHead with
  | none => s
  | some h =>
    let s' := { s with cleanupHead := (s.node h).next }
    if execute ∧ (s.node h).fn.isSome then s'.call else s'

/-- `suspenders_cr_exit` behind its loop. -/
def finish : CleanupState ν φ α :=
  let s := { s with deadlineArmed := false }
  let s :=
    if s.state ≠ .done then
      { s with state := .done, active := if s.daemon then s.active else s.active - 1 }
    else s
  { s with zombies := s.zombies + 1, frames := [] }

/-- The loop of `suspenders_cr_exit`, up to the next call of a handler. -/
def exitTurn : CleanupState ν φ α :=
  match s.cleanupHead with
  | some h =>
    let s' := { s with cleanupHead := (s.node h).next }
    if (s.node h).fn.isSome then s'.call else s'
  | none => s.finish

/-- User code runs. -/
def InUser : Prop := s.state = .running ∧ s.frames.head? = some .user

instance : Decidable s.InUser := inferInstanceAs (Decidable (_ ∧ _))

/-- The steps of a coroutine.  Its function returns to `suspenders_cr_exit`. -/
def step : CleanupAct ν φ α → Option (CleanupState ν φ α)
  | .push node fn arg => if s.InUser then some (s.cleanupPush node fn arg) else none
  | .pop execute => if s.InUser then some (s.cleanupPop execute) else none
  | .exit => if s.InUser then some { s with frames := .exiting :: s.frames } else none
  | .ret =>
    if s.InUser then some { s with frames := if s.frames.tail = [] then [.exiting] else s.frames.tail } else none
  | .turn => if s.state = .running ∧ s.frames.head? = some .exiting then some s.exitTurn else none
  | .park => if s.InUser then some { s with state := .suspended } else none
  | .wake => if s.state = .suspended then some { s with state := .ready } else none
  | .dispatch => if s.state = .ready then some { s with state := .running } else none

/-- A coroutine at its start. -/
structure Fresh : Prop where
  head : s.cleanupHead = none
  state : s.state = .running
  zombies : s.zombies = 0
  frames : s.frames = [.user]

/-- From `cleanup_head` the links lead to `n`. -/
def Linked (n : ν) : Prop := ∃ l, Seg (fun b => (s.node b).next) s.cleanupHead l (some n)

/-- The links lead around in a set of nodes. -/
def Looped : Prop :=
  ∃ r : Set ν, (∃ n ∈ r, s.cleanupHead = some n) ∧ ∀ n ∈ r, ∃ b ∈ r, (s.node n).next = some b

end CleanupState

/-- A handler: that of the `num`-th push. -/
structure Handler (φ α : Type*) where
  num : ℕ
  fn : Option φ
  arg : α
  deriving DecidableEq

/-- What becomes of a handler.  It runs when its function is called, if there is one. -/
inductive CleanupEvent (φ α : Type*)
  | pushed (h : Handler φ α)
  | ran (h : Handler φ α)
  | discarded (h : Handler φ α)
  deriving DecidableEq

/-- The event as an operation on the stack of handlers. -/
def CleanupEvent.op {φ α : Type*} : CleanupEvent φ α → StackOp (Handler φ α)
  | pushed h => .push h
  | ran h => .pop h
  | discarded h => .pop h

/-- How many handlers were pushed, the number of the last one in each node, and what happened. -/
structure CleanupHist (ν φ α : Type*) where
  count : ℕ
  num : ν → ℕ
  log : List (CleanupEvent φ α)

namespace CleanupHist

variable {ν φ α : Type*} [DecidableEq ν] (m : CleanupHist ν φ α)

/-- Nothing has happened. -/
def empty : CleanupHist ν φ α := ⟨0, fun _ => 0, []⟩

/-- The handler that is read from node `n`. -/
def handler (s : CleanupState ν φ α) (n : ν) : Handler φ α := ⟨m.num n, (s.node n).fn, (s.node n).arg⟩

def add (e : CleanupEvent φ α) : CleanupHist ν φ α := { m with log := m.log ++ [e] }

/-- A push of node `n`. -/
def push (n : ν) (fn : Option φ) (arg : α) : CleanupHist ν φ α where
  count := m.count + 1
  num := update m.num n m.count
  log := m.log ++ [.pushed ⟨m.count, fn, arg⟩]

/-- What a step records. -/
def record (s : CleanupState ν φ α) : CleanupAct ν φ α → CleanupHist ν φ α
  | .push (some n) fn arg => m.push n fn arg
  | .pop execute =>
    match s.cleanupHead with
    | some n => m.add (if execute then .ran (m.handler s n) else .discarded (m.handler s n))
    | none => m
  | .turn =>
    match s.cleanupHead with
    | some n => m.add (.ran (m.handler s n))
    | none => m
  | _ => m

/-- The handler was pushed, and neither run nor discarded yet. -/
def Pending (h : Handler φ α) : Prop := .pushed h ∈ m.log ∧ .ran h ∉ m.log ∧ .discarded h ∉ m.log

end CleanupHist

variable {ν φ α : Type*} [DecidableEq ν]

/-- A recorded step. -/
abbrev CleanupStep : CleanupState ν φ α × CleanupHist ν φ α → CleanupAct ν φ α →
    CleanupState ν φ α × CleanupHist ν φ α → Prop :=
  Recorded (StepOf CleanupState.step) CleanupHist.record

/-- What the caller promises: a node is not pushed again as long as it is linked. -/
def NodeIsFree (p : CleanupState ν φ α × CleanupHist ν φ α) (a : CleanupAct ν φ α)
    (_ : CleanupState ν φ α × CleanupHist ν φ α) : Prop :=
  ∀ n fn arg, a = .push (some n) fn arg → ¬ p.1.Linked n

/-! ## The stack of handlers -/

section Steps

variable {s t : CleanupState ν φ α} {m m' : CleanupHist ν φ α} {a : CleanupAct ν φ α} {l : List ν} {n : ν}

/-- The links lead through the nodes of `l`, whose handlers were pushed later the closer they are to the head. -/
structure CleanupInv (s : CleanupState ν φ α) (m : CleanupHist ν φ α) (l : List ν) : Prop where
  seg : Seg (fun b => (s.node b).next) s.cleanupHead l none
  sorted : l.Pairwise fun b c => m.num c < m.num b
  bound : ∀ n ∈ l, m.num n < m.count

/-- The first handler is taken off, and called if it has a function. -/
structure CleanupState.Takes (s t : CleanupState ν φ α) (n : ν) : Prop where
  head : s.cleanupHead = some n
  next : t.cleanupHead = (s.node n).next
  node : t.node = s.node
  same : t.state = s.state ∧ t.zombies = s.zombies
  frames : t.frames = s.frames ∨ t.frames = .user :: s.frames

/-- The handlers are left alone. -/
def CleanupState.Leaves (s t : CleanupState ν φ α) : Prop := t.cleanupHead = s.cleanupHead ∧ t.node = s.node

/-- The calls that return before the loop goes on. -/
def depth : List CleanupFrame → ℕ
  | .user :: l => depth l + 1
  | _ => 0

/-- How many steps a wait still takes. -/
def CrState.idle : CrState → ℕ
  | suspended => 2
  | ready => 1
  | _ => 0

/-- How many steps are left if the code of the coroutine calls nothing and there are no handlers. -/
def CleanupState.rest (s : CleanupState ν φ α) : ℕ := depth s.frames + s.state.idle + if s.frames = [] then 0 else 1

/-- The calls that only the code of the coroutine can make. -/
def CleanupAct.cost : CleanupAct ν φ α → ℕ
  | push _ _ _ | pop _ | park => 1
  | _ => 0

omit [DecidableEq ν] in
lemma CleanupState.InUser.exists_frames (h : s.InUser) : ∃ l, s.frames = .user :: l :=
  ⟨_, (List.cons_head?_tail h.2).symm⟩

omit [DecidableEq ν] in
lemma cleanupPop_some (hhead : s.cleanupHead = some n) (execute : Bool) : s.Takes (s.cleanupPop execute) n := by
  simp only [CleanupState.cleanupPop, hhead]
  split
  · exact ⟨hhead, rfl, rfl, ⟨rfl, rfl⟩, .inr rfl⟩
  · exact ⟨hhead, rfl, rfl, ⟨rfl, rfl⟩, .inl rfl⟩

omit [DecidableEq ν] in
lemma exitTurn_some (hhead : s.cleanupHead = some n) : s.Takes s.exitTurn n := by
  simp only [CleanupState.exitTurn, hhead]
  split
  · exact ⟨hhead, rfl, rfl, ⟨rfl, rfl⟩, .inr rfl⟩
  · exact ⟨hhead, rfl, rfl, ⟨rfl, rfl⟩, .inl rfl⟩

omit [DecidableEq ν] in
lemma CleanupState.Takes.rest_le (h : s.Takes t n) (hframes : s.frames ≠ []) : t.rest ≤ s.rest + 1 := by
  unfold CleanupState.rest
  rcases h.frames with heq | heq
  · rw [heq, h.same.1]
    exact Nat.le_succ _
  · simp only [heq, h.same.1, depth, reduceCtorEq, if_false, hframes]
    omega

omit [DecidableEq ν] in
lemma finish_leaves : s.Leaves s.finish ∧ s.finish.rest = 0 := by
  unfold CleanupState.finish
  dsimp only
  split
  · exact ⟨⟨rfl, rfl⟩, rfl⟩
  · rename_i hdone
    refine ⟨⟨rfl, rfl⟩, ?_⟩
    simp [CleanupState.rest, depth, not_not.mp hdone, CrState.idle]

/-- What a step does to the handlers, and how many steps are left. -/
lemma cleanupStep_cases (h : CleanupStep (s, m) a (t, m')) :
    (∃ n fn arg, a = .push (some n) fn arg ∧ t.cleanupHead = some n ∧
      t.node = update s.node n ⟨fn, arg, s.cleanupHead⟩ ∧ m' = m.push n fn arg ∧ t.rest = s.rest) ∨
    (∃ n e, s.Takes t n ∧ m' = m.add e ∧ e.op = .pop (m.handler s n) ∧ t.rest ≤ s.rest + 1) ∨
    s.Leaves t ∧ m' = m ∧ (a.cost = 1 ∧ t.rest ≤ s.rest + 2 ∨ t.rest < s.rest) := by
  obtain ⟨hstep, hrec⟩ := h
  dsimp only at hstep hrec
  cases a with
  | push node fn arg =>
    obtain ⟨-, rfl⟩ := Option.ite_some_none_eq_some.mp hstep
    cases node with
    | none => exact .inr (.inr ⟨⟨rfl, rfl⟩, hrec, .inl ⟨rfl, Nat.le_add_right _ _⟩⟩)
    | some n => exact .inl ⟨n, fn, arg, rfl, rfl, rfl, hrec, rfl⟩
  | pop execute =>
    obtain ⟨huser, rfl⟩ := Option.ite_some_none_eq_some.mp hstep
    cases hhead : s.cleanupHead with
    | none =>
      simp only [CleanupHist.record, hhead] at hrec
      simp only [CleanupState.cleanupPop, hhead]
      exact .inr (.inr ⟨⟨rfl, rfl⟩, hrec, .inl ⟨rfl, Nat.le_add_right _ _⟩⟩)
    | some n =>
      simp only [CleanupHist.record, hhead] at hrec
      have htake := cleanupPop_some hhead execute
      obtain ⟨l, hl⟩ := huser.exists_frames
      refine .inr (.inl ⟨n, _, htake, hrec, ?_, htake.rest_le (by simp [hl])⟩)
      cases execute <;> rfl
  | turn =>
    obtain ⟨hloop, rfl⟩ := Option.ite_some_none_eq_some.mp hstep
    obtain ⟨l, hl⟩ : ∃ l, s.frames = .exiting :: l := ⟨_, (List.cons_head?_tail hloop.2).symm⟩
    cases hhead : s.cleanupHead with
    | none =>
      simp only [CleanupHist.record, hhead] at hrec
      simp only [CleanupState.exitTurn, hhead]
      obtain ⟨hleave, hrest⟩ := finish_leaves (s := s)
      refine .inr (.inr ⟨hleave, hrec, .inr ?_⟩)
      rw [hrest]
      simp [CleanupState.rest, hl]
    | some n =>
      simp only [CleanupHist.record, hhead] at hrec
      have htake := exitTurn_some hhead
      exact .inr (.inl ⟨n, _, htake, hrec, rfl, htake.rest_le (by simp [hl])⟩)
  | exit =>
    obtain ⟨huser, rfl⟩ := Option.ite_some_none_eq_some.mp hstep
    obtain ⟨l, hl⟩ := huser.exists_frames
    refine .inr (.inr ⟨⟨rfl, rfl⟩, hrec, .inr ?_⟩)
    simp [CleanupState.rest, hl, depth]
  | ret =>
    obtain ⟨huser, rfl⟩ := Option.ite_some_none_eq_some.mp hstep
    obtain ⟨l, hl⟩ := huser.exists_frames
    refine .inr (.inr ⟨⟨rfl, rfl⟩, hrec, .inr ?_⟩)
    cases l <;> simp [CleanupState.rest, hl, depth]
  | park =>
    obtain ⟨huser, rfl⟩ := Option.ite_some_none_eq_some.mp hstep
    refine .inr (.inr ⟨⟨rfl, rfl⟩, hrec, .inl ⟨rfl, ?_⟩⟩)
    simp only [CleanupState.rest, CrState.idle]
    omega
  | wake =>
    obtain ⟨hstate, rfl⟩ := Option.ite_some_none_eq_some.mp hstep
    refine .inr (.inr ⟨⟨rfl, rfl⟩, hrec, .inr ?_⟩)
    simp only [CleanupState.rest, hstate, CrState.idle]
    omega
  | dispatch =>
    obtain ⟨hstate, rfl⟩ := Option.ite_some_none_eq_some.mp hstep
    refine .inr (.inr ⟨⟨rfl, rfl⟩, hrec, .inr ?_⟩)
    simp only [CleanupState.rest, hstate, CrState.idle]
    omega

namespace CleanupInv

/-- A node that is not linked is pushed. -/
lemma push {fn : Option φ} {arg : α} (h : CleanupInv s m l) (hn : n ∉ l) (hhead : t.cleanupHead = some n)
    (hnode : t.node = update s.node n ⟨fn, arg, s.cleanupHead⟩) :
    CleanupInv t (m.push n fn arg) (n :: l) ∧
      (n :: l).map ((m.push n fn arg).handler t) = ⟨m.count, fn, arg⟩ :: l.map (m.handler s) := by
  have hother (b : ν) (hb : b ∈ l) : t.node b = s.node b ∧ (m.push n fn arg).num b = m.num b := by
    have hne : b ≠ n := fun heq => hn (heq ▸ hb)
    rw [hnode]
    exact ⟨update_of_ne hne _ _, update_of_ne hne _ _⟩
  have hself : t.node n = ⟨fn, arg, s.cleanupHead⟩ ∧ (m.push n fn arg).num n = m.count := by
    rw [hnode]
    exact ⟨update_self _ _ _, update_self _ _ _⟩
  refine ⟨⟨⟨hhead, ?_⟩, List.pairwise_cons.mpr ⟨fun b hb => ?_, ?_⟩, fun b hb => ?_⟩, ?_⟩
  · dsimp only
    rw [hself.1]
    exact h.seg.congr fun b hb => by rw [(hother b hb).1]
  · rw [hself.2, (hother b hb).2]
    exact h.bound b hb
  · refine h.sorted.imp_of_mem fun hb hc hlt => ?_
    rwa [(hother _ hb).2, (hother _ hc).2]
  · rcases List.mem_cons.mp hb with rfl | hb
    · rw [hself.2]
      exact Nat.lt_succ_self _
    · rw [(hother b hb).2]
      exact Nat.lt_succ_of_lt (h.bound b hb)
  · rw [List.map_cons, CleanupHist.handler, hself.1, hself.2]
    refine congrArg _ (List.map_congr_left fun b hb => ?_)
    rw [CleanupHist.handler, CleanupHist.handler, (hother b hb).1, (hother b hb).2]

omit [DecidableEq ν] in
/-- What does not touch the handlers. -/
lemma leave (h : CleanupInv s m l) (ht : s.Leaves t) : CleanupInv t m l ∧ m.handler t = m.handler s := by
  obtain ⟨hhead, hnode⟩ := ht
  refine ⟨⟨?_, h.sorted, h.bound⟩, ?_⟩
  · rw [hhead, hnode]
    exact h.seg
  · funext b
    rw [CleanupHist.handler, CleanupHist.handler, hnode]

omit [DecidableEq ν] in
/-- The first node is taken off. -/
lemma take (h : CleanupInv s m l) (ht : s.Takes t n) :
    ∃ l', l = n :: l' ∧ CleanupInv t m l' ∧ m.handler t = m.handler s := by
  cases l with
  | nil => exact absurd (h.seg.symm.trans ht.head) (by simp)
  | cons b l =>
    obtain ⟨hb, hseg⟩ := h.seg
    obtain rfl := Option.some.inj (hb.symm.trans ht.head)
    refine ⟨l, rfl, ⟨?_, (List.pairwise_cons.mp h.sorted).2, fun c hc => h.bound c (List.mem_cons_of_mem b hc)⟩, ?_⟩
    · rw [ht.next, ht.node]
      exact hseg
    · funext c
      rw [CleanupHist.handler, CleanupHist.handler, ht.node]

/-- A node that is linked is pushed. -/
lemma loop {fn : Option φ} {arg : α} (h : CleanupInv s m l) (hn : n ∈ l) (hhead : t.cleanupHead = some n)
    (hnode : t.node = update s.node n ⟨fn, arg, s.cleanupHead⟩) : t.Looped := by
  obtain ⟨l₁, l₂, rfl, hseg⟩ := h.seg.exists_of_mem hn
  obtain ⟨hfirst, hrest⟩ := hseg.closed
  refine ⟨{b | b ∈ l₁ ++ [n]}, ⟨n, List.mem_append_right l₁ List.mem_cons_self, hhead⟩, fun b hb => ?_⟩
  rw [hnode]
  rcases List.mem_append.mp hb with hmem | hmem
  · have hne : b ≠ n := by
      rintro rfl
      exact Nat.lt_irrefl _ ((List.pairwise_append.mp h.sorted).2.2 b hmem b List.mem_cons_self)
    rw [update_of_ne hne]
    exact hrest b hmem
  · obtain rfl := List.mem_singleton.mp hmem
    rw [update_self]
    exact hfirst

/-- What a step does to the stack of handlers. -/
lemma step (h : CleanupInv s m l) (hstep : CleanupStep (s, m) a (t, m')) :
    t.Looped ∨ ∃ l' new, CleanupInv t m' l' ∧ m'.log = m.log ++ new ∧
      Run StackStep (l.map (m.handler s)) (new.map CleanupEvent.op) (l'.map (m'.handler t)) := by
  rcases cleanupStep_cases hstep with
    ⟨n, fn, arg, -, hhead, hnode, rfl, -⟩ | ⟨n, e, htake, rfl, hop, -⟩ | ⟨hleave, rfl, -⟩
  · by_cases hn : n ∈ l
    · exact .inl (h.loop hn hhead hnode)
    · obtain ⟨hinv, hstack⟩ := h.push hn hhead hnode
      refine .inr ⟨n :: l, [_], hinv, rfl, ?_⟩
      rw [hstack]
      exact .cons (.push _ _) (.nil _)
  · obtain ⟨l', rfl, hinv, hhandler⟩ := h.take htake
    refine .inr ⟨l', [e], ⟨hinv.seg, hinv.sorted, hinv.bound⟩, rfl, ?_⟩
    have hstack : l'.map ((m.add e).handler t) = l'.map (m.handler s) := congrArg (l'.map ·) hhandler
    rw [hstack, List.map_singleton, hop]
    exact .cons (.pop _ _) (.nil _)
  · obtain ⟨hinv, hhandler⟩ := h.leave hleave
    refine .inr ⟨l, [], hinv, (List.append_nil _).symm, ?_⟩
    rw [hhandler]
    exact .nil _

end CleanupInv

namespace CleanupState.Looped

/-- Nobody gets out of the ring. -/
lemma step (h : s.Looped) (hstep : CleanupStep (s, m) a (t, m')) : t.Looped := by
  obtain ⟨r, ⟨b, hb, hhead⟩, hnext⟩ := h
  rcases cleanupStep_cases hstep with
    ⟨n, fn, arg, -, hhead', hnode, -⟩ | ⟨n, e, htake, -⟩ | ⟨hleave, -⟩
  · refine ⟨insert n r, ⟨n, Set.mem_insert n r, hhead'⟩, fun c hc => ?_⟩
    rw [hnode]
    by_cases heq : c = n
    · subst heq
      rw [update_self]
      exact ⟨b, Set.mem_insert_of_mem c hb, hhead⟩
    · obtain ⟨d, hd, hc⟩ := hnext c (hc.resolve_left heq)
      rw [update_of_ne heq]
      exact ⟨d, Set.mem_insert_of_mem n hd, hc⟩
  · obtain rfl := Option.some.inj (htake.head.symm.trans hhead)
    obtain ⟨c, hc, heq⟩ := hnext n hb
    exact ⟨r, ⟨c, hc, htake.next.trans heq⟩, by rwa [htake.node]⟩
  · exact ⟨r, ⟨b, hb, hleave.1.trans hhead⟩, by rwa [hleave.2]⟩

end CleanupState.Looped

end Steps

end Suspenders.Coro
