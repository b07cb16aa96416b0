import Suspenders.Base
import Suspenders.Lib.Bytes
import Mathlib.Data.List.Nodup
import Mathlib.Logic.Function.Basic

/-!
# Wait nodes and wait lists

A blocked coroutine is represented by nodes on FIFO wait lists: its embedded `wq_node`, and, inside
`suspenders_select_dl`, one stack node for every registered case.  `Waits` holds all nodes, all lists
and the `winner` words of the selects.  The functions are the wait protocol's own: `park`, `grant`,
`takeWaiter` (`s_chan_take_waiter`) and `decide`, the locked part of `s_waiter_wake`.

`Waits.WF` says that lists and nodes agree.  `Waits.Granted st w w' G` is the effect a critical section
of a granter has: the nodes `G`, all of them parked before, are decided with `st`, lists only lose
nodes, and nothing else changes except that losing select nodes are unlinked.
-/

namespace Suspenders.Wait

open Lib (Bytes)

/-- Whose code runs: a coroutine, the scheduler of a worker, or a thread outside the runtime. -/
inductive Ctx
  /-- Coroutine `c`. -/
  | co (c : CrId)
  /-- The scheduler loop of worker `w` (`suspenders_main_cr` is its `suspenders_running`). -/
  | sched (w : WorkerId)
  /-- Foreign thread `f`. -/
  | ext (f : ℕ)
  deriving DecidableEq

/-- `wq_node.status`: `S_WQ_WAITING`, or the code the wait was decided with. -/
inductive Status
  /-- `S_WQ_WAITING` -/
  | waiting
  /-- A final status. -/
  | decided (code : Code)
  deriving DecidableEq

/-- The ticket locks, named by the structure they are in. -/
inductive LockId
  | chan (ch : ℕ)
  | mutex (m : ℕ)
  | rwlock (r : ℕ)
  | cond (v : ℕ)
  | waitgroup (g : ℕ)
  deriving DecidableEq

/-- The wait lists. -/
inductive ListId
  | senders (ch : ℕ)
  | receivers (ch : ℕ)
  | mutex (m : ℕ)
  | rwlock (r : ℕ)
  | cond (v : ℕ)
  | waitgroup (g : ℕ)
  deriving DecidableEq

/-- The lock of the structure a list belongs to. -/
def ListId.lock : ListId → LockId
  | senders ch => .chan ch
  | receivers ch => .chan ch
  | mutex m => .mutex m
  | rwlock r => .rwlock r
  | cond v => .cond v
  | waitgroup g => .waitgroup g

/-- The lists select nodes can be on. -/
def ListId.IsChan : ListId → Prop
  | senders _ => True
  | receivers _ => True
  | _ => False

/-- A wait node: the `wq_node` embedded in coroutine `c`, or the stack node of case `i` of the select
that `c` is in. -/
inductive NodeRef
  | wq (c : CrId)
  | sel (c : CrId) (i : ℕ)
  deriving DecidableEq

/-- `node->cr`. -/
def NodeRef.cr : NodeRef → CrId
  | wq c => c
  | sel c _ => c

/-- `suspenders_wq_node_t`. -/
structure Node where
  /-- The bytes behind `data_ptr`: the value of a sender, the buffer of a receiver. -/
  data : Bytes
  /-- `data_ptr == S_RW_WRITER` -/
  writer : Bool
  /-- `status` -/
  status : Status
  /-- `waker_busy` -/
  wakerBusy : Bool
  /-- `wait_list` -/
  waitList : Option ListId
  /-- `wait_lock` -/
  waitLock : Option LockId

/-- All nodes, lists and winner words. -/
structure Waits where
  /-- The nodes. -/
  node : NodeRef → Node
  /-- `rec.winner` of the select each coroutine is in; `none` is `-1`. -/
  winner : CrId → Option ℕ
  /-- The nodes on each list, first to last. -/
  queue : ListId → List NodeRef

namespace Waits

/-- Nodes as `memset` leaves them: nobody waits. -/
def init : Waits where
  node := fun _ => ⟨[], false, .decided .ok, false, none, none⟩
  winner := fun _ => none
  queue := fun _ => []

/-- Replacing one node. -/
def setNode (w : Waits) (n : NodeRef) (x : Node) : Waits :=
  { w with node := Function.update w.node n x }

/-- Replacing one list. -/
def setQueue (w : Waits) (l : ListId) (q : List NodeRef) : Waits :=
  { w with queue := Function.update w.queue l q }

/-- Filling in a node and appending it to list `l`: `s_wait_park` for the embedded node, the
registration of a select node otherwise. -/
def park (w : Waits) (n : NodeRef) (l : ListId) (data : Bytes) (writer : Bool) : Waits :=
  (w.setNode n ⟨data, writer, .waiting, false, some l, some l.lock⟩).setQueue l (w.queue l ++ [n])

/-- Starting a wait that is on no list: `suspenders_sleep_dl` and the cancel node of a select. -/
def parkNone (w : Waits) (c : CrId) : Waits :=
  w.setNode (.wq c)
    { w.node (.wq c) with status := .waiting, wakerBusy := false, waitList := none, waitLock := none }

/-- `s_wait_grant`. -/
def grant (w : Waits) (n : NodeRef) (st : Code) : Waits :=
  w.setNode n { w.node n with wakerBusy := true, waitList := none, status := .decided st }

/-- Granting the nodes of a detached list one after the other. -/
def grantAll (w : Waits) (st : Code) (ns : List NodeRef) : Waits :=
  ns.foldl (fun w n => w.grant n st) w

/-- `s_wait_decide_end`. -/
def decideEnd (w : Waits) (n : NodeRef) : Waits :=
  w.setNode n { w.node n with wakerBusy := false }

/-- `memcpy(n->data_ptr, val, elem_sz)`. -/
def fill (w : Waits) (n : NodeRef) (val : Bytes) : Waits :=
  w.setNode n { w.node n with data := val }

/-- Forgetting the list of a node that lost its select: `n->wait_list = NULL`. -/
def discard (w : Waits) (n : NodeRef) : Waits :=
  w.setNode n { w.node n with waitList := none }

/-- The loop of `s_chan_take_waiter` over the nodes of a list: the node taken, the nodes left on the
list, and the nodes and winner words. -/
def takeLoop (w : Waits) : List NodeRef → Option NodeRef × List NodeRef × Waits
  | [] => (none, [], w)
  | .wq c :: rest => (some (.wq c), rest, w)
  | .sel c i :: rest =>
    match w.winner c with
    -- the compare-and-swap of the winner word succeeds
    | none => (some (.sel c i), rest, { w with winner := Function.update w.winner c (some i) })
    | some _ => takeLoop (w.discard (.sel c i)) rest

/-- `s_chan_take_waiter`. -/
def takeWaiter (w : Waits) (l : ListId) : Option NodeRef × Waits :=
  let r := w.takeLoop (w.queue l)
  (r.1, r.2.2.setQueue l r.2.1)

/-- `s_wq_remove` of node `n` from the list `wait_list` names, if it names one. -/
def unlink (w : Waits) (n : NodeRef) : Waits :=
  match (w.node n).waitList with
  | some l => w.setQueue l ((w.queue l).erase n)
  | none => w

/-- The locked part of `s_waiter_wake`; `none` when the wait is already decided. -/
def decide (w : Waits) (c : CrId) (st : Code) : Option Waits :=
  if (w.node (.wq c)).status = .waiting then some ((w.unlink (.wq c)).grant (.wq c) st) else none

/-- Unregistering a select node: unlink it if it still is on a list. -/
def unregister (w : Waits) (n : NodeRef) : Waits := (w.unlink n).discard n

section Simp

variable (w : Waits) (n n' : NodeRef) (x : Node) (l l' : ListId) (q : List NodeRef) (st : Code)

@[simp] lemma setNode_node_self : (w.setNode n x).node n = x := by simp [setNode]

@[simp] lemma setNode_node_of_ne (h : n' ≠ n) : (w.setNode n x).node n' = w.node n' := by
  simp [setNode, h]

@[simp] lemma setNode_winner : (w.setNode n x).winner = w.winner := rfl

@[simp] lemma setNode_queue : (w.setNode n x).queue = w.queue := rfl

@[simp] lemma setQueue_node : (w.setQueue l q).node = w.node := rfl

@[simp] lemma setQueue_winner : (w.setQueue l q).winner = w.winner := rfl

@[simp] lemma setQueue_queue_self : (w.setQueue l q).queue l = q := by simp [setQueue]

@[simp] lemma setQueue_queue_of_ne (h : l' ≠ l) : (w.setQueue l q).queue l' = w.queue l' := by
  simp [setQueue, h]

@[simp] lemma grant_winner : (w.grant n st).winner = w.winner := rfl

@[simp] lemma grant_queue : (w.grant n st).queue = w.queue := rfl

@[simp] lemma grant_node_self : (w.grant n st).node n =
    { w.node n with wakerBusy := true, waitList := none, status := .decided st } := by
  simp [grant]

@[simp] lemma grant_node_of_ne (h : n' ≠ n) : (w.grant n st).node n' = w.node n' := by
  simp [grant, h]

/-- `s_wait_decide_end` touches `waker_busy` only. -/
lemma decideEnd_node : ∃ busy, (w.decideEnd n).node n' = { w.node n' with wakerBusy := busy } := by
  by_cases hn : n' = n
  · subst hn
    exact ⟨false, setNode_node_self ..⟩
  · exact ⟨(w.node n').wakerBusy, setNode_node_of_ne w n n' _ hn⟩

@[simp] lemma decideEnd_status : ((w.decideEnd n).node n').status = (w.node n').status := by
  obtain ⟨busy, hnode⟩ := w.decideEnd_node n n'
  rw [hnode]

@[simp] lemma decideEnd_data : ((w.decideEnd n).node n').data = (w.node n').data := by
  obtain ⟨busy, hnode⟩ := w.decideEnd_node n n'
  rw [hnode]

@[simp] lemma decideEnd_waitList : ((w.decideEnd n).node n').waitList = (w.node n').waitList := by
  obtain ⟨busy, hnode⟩ := w.decideEnd_node n n'
  rw [hnode]

end Simp

/-! ## Well-formed lists -/

/-- Lists and nodes agree: a node is on a list exactly if its `wait_list` names that list; it is there
once, it is undecided, and select nodes are on channel lists only. -/
structure WF (w : Waits) : Prop where
  /-- No node is on a list twice. -/
  nodup : ∀ l, (w.queue l).Nodup
  /-- `wait_list` names the list a node is on. -/
  mem_iff : ∀ l n, n ∈ w.queue l ↔ (w.node n).waitList = some l
  /-- A node on a list is undecided. -/
  waiting : ∀ n l, (w.node n).waitList = some l → (w.node n).status = .waiting
  /-- Select nodes are on channel lists. -/
  sel : ∀ l c i, .sel c i ∈ w.queue l → l.IsChan

lemma wf_init : init.WF where
  nodup := by simp [init]
  mem_iff := by simp [init]
  waiting := by simp [init]
  sel := by simp [init]

/-- A node is on one list only. -/
lemma WF.unique {w : Waits} (h : w.WF) {n : NodeRef} {l l' : ListId} (hl : n ∈ w.queue l)
    (hl' : n ∈ w.queue l') : l = l' := by
  have := (h.mem_iff l n).mp hl
  rw [(h.mem_iff l' n).mp hl'] at this
  exact (Option.some.inj this).symm

/-- Parking a node that is on no list. -/
lemma WF.park {w : Waits} (h : w.WF) {n : NodeRef} {l : ListId} (data : Bytes) (writer : Bool)
    (hn : (w.node n).waitList = none) (hsel : ∀ c i, n = .sel c i → l.IsChan) :
    (w.park n l data writer).WF := by
  have hnot : ∀ l, n ∉ w.queue l := by
    intro l hl
    rw [h.mem_iff, hn] at hl
    cases hl
  refine ⟨fun l' => ?_, fun l' n' => ?_, fun n' l' hl' => ?_, fun l' c i hl' => ?_⟩
  · by_cases hl' : l' = l
    · subst hl'
      simp only [Waits.park, setQueue_queue_self]
      exact (h.nodup l').append (List.nodup_singleton n) (by simpa using hnot l')
    · simpa [Waits.park, hl'] using h.nodup l'
  · by_cases hn' : n' = n
    · subst hn'
      by_cases hl' : l' = l
      · subst hl'
        simp [Waits.park]
      · simp [Waits.park, hl', hnot, Ne.symm hl']
    · by_cases hl' : l' = l
      · subst hl'
        simpa [Waits.park, hn'] using h.mem_iff l' n'
      · simpa [Waits.park, hn', hl'] using h.mem_iff l' n'
  · by_cases hn' : n' = n
    · subst hn'
      simp [Waits.park]
    · simpa [Waits.park, hn'] using h.waiting n' l' (by simpa [Waits.park, hn'] using hl')
  · by_cases hl'' : l' = l
    · subst hl''
      simp only [Waits.park, setQueue_queue_self, List.mem_append, List.mem_singleton] at hl'
      rcases hl' with hl' | hl'
      · exact h.sel l' c i hl'
      · exact hsel c i hl'.symm
    · exact h.sel l' c i (by simpa [Waits.park, hl''] using hl')

/-- Lists only lose nodes, and exactly those that forget their list: such a change keeps lists and
nodes in agreement. -/
lemma WF.shrink {w w' : Waits} (h : w.WF) (hsub : ∀ l, (w'.queue l).Sublist (w.queue l))
    (hmem : ∀ l n, n ∈ w'.queue l ↔ n ∈ w.queue l ∧ (w'.node n).waitList ≠ none)
    (hnode : ∀ n, (w'.node n).waitList = none ∨
      ((w'.node n).waitList = (w.node n).waitList ∧ (w'.node n).status = (w.node n).status)) :
    w'.WF := by
  refine ⟨fun l => (h.nodup l).sublist (hsub l), fun l n => ?_, fun n l hl => ?_,
    fun l c i hl => h.sel l c i ((hsub l).subset hl)⟩
  · rw [hmem, h.mem_iff]
    rcases hnode n with hn | ⟨hn, -⟩
    · simp [hn]
    · rw [hn]
      constructor
      · exact fun hl => hl.1
      · exact fun hl => ⟨hl, by simp [hl]⟩
  · rcases hnode n with hn | ⟨hn, hst⟩
    · rw [hn] at hl
      cases hl
    · rw [hst]
      exact h.waiting n l (hn ▸ hl)

/-- Changing a node that is on no list to another one that is on no list. -/
lemma WF.setNode {w : Waits} (h : w.WF) {n : NodeRef} {x : Node}
    (hn : (w.node n).waitList = none) (hx : x.waitList = none) : (w.setNode n x).WF := by
  refine h.shrink (fun l => List.Sublist.refl _) (fun l n' => ?_) (fun n' => ?_)
  · by_cases hn' : n' = n
    · subst hn'
      simp [h.mem_iff, hn]
    · simp only [setNode_queue, ne_eq, hn', not_false_eq_true, setNode_node_of_ne, iff_self_and]
      intro hl
      simp [(h.mem_iff l n').mp hl]
  · by_cases hn' : n' = n
    · subst hn'
      exact Or.inl (by simp [hx])
    · exact Or.inr (by simp [hn'])

/-- Taking a node off its list, whatever else changes in it. -/
lemma WF.remove {w : Waits} (h : w.WF) {n : NodeRef} {l : ListId} {x : Node} (hn : n ∈ w.queue l)
    (hx : x.waitList = none) : ((w.setQueue l ((w.queue l).erase n)).setNode n x).WF := by
  refine h.shrink (fun l' => ?_) (fun l' n' => ?_) (fun n' => ?_)
  · by_cases hl' : l' = l
    · subst hl'
      simpa using List.erase_sublist
    · simp [hl']
  · by_cases hn' : n' = n
    · subst hn'
      by_cases hl' : l' = l
      · subst hl'
        simpa [hx] using (h.nodup l').not_mem_erase
      · simp only [setNode_queue, ne_eq, hl', not_false_eq_true, setQueue_queue_of_ne,
          setNode_node_self, hx, not_true_eq_false, and_false, iff_false]
        exact fun hmem => hl' (h.unique hmem hn)
    · have hlist : n' ∈ w.queue l' → ¬(w.node n').waitList = none := by
        intro hl
        simp [(h.mem_iff l' n').mp hl]
      by_cases hl' : l' = l
      · subst hl'
        simpa [hn', List.mem_erase_of_ne hn'] using hlist
      · simpa [hn', hl'] using hlist
  · by_cases hn' : n' = n
    · subst hn'
      exact Or.inl (by simp [hx])
    · exact Or.inr (by simp [hn'])

/-- Taking a prefix of a list off it. -/
lemma WF.dropPrefix {w w' : Waits} (h : w.WF) {l : ListId} (xs rest : List NodeRef)
    (hq : w.queue l = xs ++ rest) (hl : w'.queue l = rest)
    (hne : ∀ l', l' ≠ l → w'.queue l' = w.queue l')
    (hxs : ∀ n ∈ xs, (w'.node n).waitList = none)
    (hother : ∀ n, n ∉ xs → (w'.node n).waitList = (w.node n).waitList ∧
      (w'.node n).status = (w.node n).status) : w'.WF := by
  have hnodup : (xs ++ rest).Nodup := hq ▸ h.nodup l
  refine h.shrink (fun l' => ?_) (fun l' n => ?_) (fun n => ?_)
  · by_cases hl' : l' = l
    · subst hl'
      rw [hl, hq]
      exact List.sublist_append_right xs rest
    · rw [hne l' hl']
  · by_cases hn : n ∈ xs
    · have hnot : n ∉ rest := List.disjoint_of_nodup_append hnodup hn
      by_cases hl' : l' = l
      · subst hl'
        simp [hl, hnot, hxs n hn]
      · have hmem : n ∈ w.queue l := by rw [hq]; exact List.mem_append_left _ hn
        rw [hne l' hl']
        simp only [hxs n hn, ne_eq, not_true_eq_false, and_false, iff_false]
        exact fun hn' => hl' (h.unique hn' hmem)
    · have hlist : n ∈ w.queue l' → (w'.node n).waitList ≠ none := by
        intro hmem
        rw [(hother n hn).1, (h.mem_iff l' n).mp hmem]
        simp
      by_cases hl' : l' = l
      · subst hl'
        rw [hl]
        constructor
        · intro hmem
          have : n ∈ w.queue l' := by rw [hq]; exact List.mem_append_right _ hmem
          exact ⟨this, hlist this⟩
        · rintro ⟨hmem, -⟩
          rw [hq] at hmem
          exact (List.mem_append.mp hmem).resolve_left hn
      · rw [hne l' hl']
        exact ⟨fun hmem => ⟨hmem, hlist hmem⟩, fun hmem => hmem.1⟩
  · by_cases hn : n ∈ xs
    · exact Or.inl (hxs n hn)
    · exact Or.inr (hother n hn)

/-! ## What a granter does -/

/-- The effect of a granter's critical section: the parked nodes `G` are decided with `st`. -/
structure Granted (st : Code) (w w' : Waits) (G : List NodeRef) : Prop where
  /-- Lists and nodes still agree. -/
  wf : w'.WF
  /-- No node is decided twice. -/
  nodup : G.Nodup
  /-- Only parked nodes are decided. -/
  live : ∀ n ∈ G, ∃ l, n ∈ w.queue l
  /-- The granted nodes carry the status, and their decider's window is open. -/
  granted : ∀ n ∈ G, (w'.node n).status = .decided st ∧ (w'.node n).wakerBusy = true ∧
    (w'.node n).waitList = none
  /-- The other nodes keep everything, except that losing select nodes are unlinked. -/
  other : ∀ n, n ∉ G → w'.node n = w.node n ∨ ∃ c i l, n = .sel c i ∧ n ∈ w.queue l ∧
    w'.winner c ≠ none ∧ w'.node n = { w.node n with waitList := none }
  /-- A select is decided only through one of its nodes. -/
  winner : ∀ c, w'.winner c = w.winner c ∨
    (w.winner c = none ∧ ∃ i, .sel c i ∈ G ∧ w'.winner c = some i)
  /-- A granted select node decides its undecided select. -/
  sel : ∀ c i, .sel c i ∈ G → w.winner c = none ∧ w'.winner c = some i
  /-- Lists only lose nodes. -/
  sublist : ∀ l, (w'.queue l).Sublist (w.queue l)

namespace Granted

variable {st : Code} {w w' w'' : Waits} {G G' : List NodeRef}

/-- The critical section that grants nothing and changes nothing. -/
lemma refl (h : w.WF) : Granted st w w [] where
  wf := h
  nodup := List.nodup_nil
  live := by simp
  granted := by simp
  other := fun n _ => Or.inl rfl
  winner := fun c => Or.inl rfl
  sel := by simp
  sublist := fun l => List.Sublist.refl _

/-- The status of a node that is not granted does not change. -/
lemma status_of_not_mem (h : Granted st w w' G) {n : NodeRef} (hn : n ∉ G) :
    (w'.node n).status = (w.node n).status := by
  rcases h.other n hn with heq | ⟨c, i, l, -, -, -, heq⟩ <;> simp [heq]

/-- Nor does its `waker_busy`. -/
lemma busy_of_not_mem (h : Granted st w w' G) {n : NodeRef} (hn : n ∉ G) :
    (w'.node n).wakerBusy = (w.node n).wakerBusy := by
  rcases h.other n hn with heq | ⟨c, i, l, -, -, -, heq⟩ <;> simp [heq]

/-- The embedded node of a coroutine that is not granted does not change at all. -/
lemma wq_of_not_mem (h : Granted st w w' G) {c : CrId} (hn : .wq c ∉ G) :
    w'.node (.wq c) = w.node (.wq c) := by
  rcases h.other _ hn with heq | ⟨c', i, l, heq, -⟩
  · exact heq
  · cases heq

/-- A decided select stays decided. -/
lemma winner_ne_none (h : Granted st w w' G) {c : CrId} (hc : w.winner c ≠ none) :
    w'.winner c ≠ none := by
  rcases h.winner c with heq | ⟨hnone, -⟩
  · rwa [heq]
  · exact absurd hnone hc

/-- One granter after the other. -/
lemma trans (h : Granted st w w' G) (h' : Granted st w' w'' G') : Granted st w w'' (G ++ G') := by
  -- what the second one grants was on a list, so the first one had not granted it
  have hdisj : ∀ n ∈ G', n ∉ G := by
    intro n hn hG
    obtain ⟨l, hl⟩ := h'.live n hn
    rw [h.wf.mem_iff, (h.granted n hG).2.2] at hl
    cases hl
  refine ⟨h'.wf, ?_, fun n hn => ?_, fun n hn => ?_, fun n hn => ?_, fun c => ?_,
    fun c i hn => ?_, fun l => (h'.sublist l).trans (h.sublist l)⟩
  · exact h.nodup.append h'.nodup fun n hn hn' => hdisj n hn' hn
  · rcases List.mem_append.mp hn with hn | hn
    · exact h.live n hn
    · obtain ⟨l, hl⟩ := h'.live n hn
      exact ⟨l, (h.sublist l).subset hl⟩
  · by_cases hn' : n ∈ G'
    · exact h'.granted n hn'
    · have hG : n ∈ G := (List.mem_append.mp hn).resolve_right hn'
      obtain ⟨hst, hbusy, hlist⟩ := h.granted n hG
      refine ⟨(h'.status_of_not_mem hn').trans hst, (h'.busy_of_not_mem hn').trans hbusy, ?_⟩
      rcases h'.other n hn' with heq | ⟨c, i, l, -, -, -, heq⟩
      · rw [heq]; exact hlist
      · simp [heq]
  · rw [List.mem_append, not_or] at hn
    rcases h.other n hn.1 with heq | ⟨c, i, l, hc, hl, hwin, heq⟩
    · rcases h'.other n hn.2 with heq' | ⟨c, i, l, hc, hl, hwin, heq'⟩
      · exact Or.inl (heq'.trans heq)
      · exact Or.inr ⟨c, i, l, hc, (h.sublist l).subset hl, hwin, by rw [heq', heq]⟩
    · rcases h'.other n hn.2 with heq' | ⟨c', i', l', -, -, -, heq'⟩
      · exact Or.inr ⟨c, i, l, hc, hl, h'.winner_ne_none hwin, by rw [heq', heq]⟩
      · exact Or.inr ⟨c, i, l, hc, hl, h'.winner_ne_none hwin, by rw [heq', heq]⟩
  · rcases h.winner c with heq | ⟨hnone, i, hi, hsome⟩
    · rcases h'.winner c with heq' | ⟨hnone, i, hi, hsome⟩
      · exact Or.inl (heq'.trans heq)
      · exact Or.inr ⟨heq ▸ hnone, i, List.mem_append_right _ hi, hsome⟩
    · refine Or.inr ⟨hnone, i, List.mem_append_left _ hi, ?_⟩
      rcases h'.winner c with heq' | ⟨hnone', -⟩
      · rw [heq', hsome]
      · rw [hsome] at hnone'; cases hnone'
  · rcases List.mem_append.mp hn with hn | hn
    · obtain ⟨hnone, hsome⟩ := h.sel c i hn
      refine ⟨hnone, ?_⟩
      rcases h'.winner c with heq' | ⟨hnone', -⟩
      · rw [heq', hsome]
      · rw [hsome] at hnone'; cases hnone'
    · obtain ⟨hnone, hsome⟩ := h'.sel c i hn
      refine ⟨?_, hsome⟩
      rcases h.winner c with heq | ⟨-, j, -, hj⟩
      · rw [← heq]; exact hnone
      · rw [hj] at hnone; cases hnone

end Granted

/-! ## Granting a prefix of a list -/

@[simp] lemma grantAll_queue (w : Waits) (st : Code) (ns : List NodeRef) :
    (w.grantAll st ns).queue = w.queue := by
  induction ns generalizing w with
  | nil => rfl
  | cons n ns ih => exact ih (w.grant n st)

@[simp] lemma grantAll_winner (w : Waits) (st : Code) (ns : List NodeRef) :
    (w.grantAll st ns).winner = w.winner := by
  induction ns generalizing w with
  | nil => rfl
  | cons n ns ih => exact ih (w.grant n st)

lemma grantAll_node (w : Waits) (st : Code) (ns : List NodeRef) (n : NodeRef) :
    (w.grantAll st ns).node n =
      if n ∈ ns then { w.node n with wakerBusy := true, waitList := none, status := .decided st }
      else w.node n := by
  induction ns generalizing w with
  | nil => rfl
  | cons m ns ih =>
    have hstep : w.grantAll st (m :: ns) = (w.grant m st).grantAll st ns := rfl
    rw [hstep, ih]
    by_cases hm : n = m
    · subst hm
      by_cases hn : n ∈ ns <;> simp [hn]
    · simp [hm]

/-- Popping and granting the first nodes of a list that holds no select nodes. -/
lemma granted_prefix {w : Waits} (h : w.WF) {l : ListId} (hl : ¬ l.IsChan)
    {xs rest : List NodeRef} (hq : w.queue l = xs ++ rest) (st : Code) :
    Granted st w ((w.setQueue l rest).grantAll st xs) xs := by
  have hwq : ∀ c i, NodeRef.sel c i ∉ xs := by
    intro c i hmem
    exact hl (h.sel l c i (by rw [hq]; exact List.mem_append_left _ hmem))
  have hne : ∀ l', l' ≠ l → ((w.setQueue l rest).grantAll st xs).queue l' = w.queue l' := by
    intro l' hl'
    simp [hl']
  refine ⟨?_, ?_, fun n hn => ⟨l, by rw [hq]; exact List.mem_append_left _ hn⟩, fun n hn => ?_,
    fun n hn => Or.inl ?_, fun c => Or.inl ?_, fun c i hn => absurd hn (hwq c i), fun l' => ?_⟩
  · refine h.dropPrefix xs rest hq (by simp) hne (fun n hn => ?_) (fun n hn => ?_)
    · simp [grantAll_node, hn]
    · simp [grantAll_node, hn]
  · exact (List.nodup_append.mp (hq ▸ h.nodup l)).1
  · simp [grantAll_node, hn]
  · simp [grantAll_node, hn]
  · simp
  · by_cases hl' : l' = l
    · subst hl'
      simp [hq]
    · rw [hne l' hl']

/-! ## Taking a waiter -/

/-- A waiter that `s_chan_take_waiter` may return: an embedded node, or a node of an undecided
select. -/
def Usable (w : Waits) : NodeRef → Prop
  | .wq _ => True
  | .sel c _ => w.winner c = none

/-- A usable node that a granter's critical section takes off its list has been granted, or another node
of the same select has. -/
lemma Granted.mem_of_usable {st : Code} {w w' : Waits} {G : List NodeRef} (h : Granted st w w' G)
    (hwf : w.WF) {n : NodeRef} {l : ListId} (hn : n ∈ w.queue l) (husable : w.Usable n)
    (hgone : n ∉ w'.queue l) : n ∈ G ∨ ∃ c i, n = .sel c i ∧ ∃ j, .sel c j ∈ G := by
  by_cases hG : n ∈ G
  · exact Or.inl hG
  · right
    rcases h.other n hG with heq | ⟨c, i, l', rfl, -, hwin, -⟩
    · rw [h.wf.mem_iff, heq, ← hwf.mem_iff] at hgone
      exact absurd hn hgone
    · rcases h.winner c with heq | ⟨-, j, hj, -⟩
      · rw [heq] at hwin
        exact absurd husable hwin
      · exact ⟨c, i, rfl, j, hj⟩

/-- The winner words after node `o` was taken. -/
def winnerAfter (w : Waits) : Option NodeRef → CrId → Option ℕ
  | some (.sel c i) => Function.update w.winner c (some i)
  | _ => w.winner

/-- The loop discards the nodes of decided selects in front of the first usable node, and takes that
one. -/
lemma takeLoop_spec (w : Waits) (q : List NodeRef) :
    ∃ losers, q = losers ++ ((w.takeLoop q).1.toList ++ (w.takeLoop q).2.1) ∧
      ((w.takeLoop q).1 = none → (w.takeLoop q).2.1 = []) ∧
      (∀ n ∈ losers, ¬ w.Usable n) ∧ (∀ n, (w.takeLoop q).1 = some n → w.Usable n) ∧
      (w.takeLoop q).2.2.queue = w.queue ∧
      (∀ n, (w.takeLoop q).2.2.node n =
        if n ∈ losers then { w.node n with waitList := none } else w.node n) ∧
      (w.takeLoop q).2.2.winner = w.winnerAfter (w.takeLoop q).1 := by
  induction q generalizing w with
  | nil => exact ⟨[], by simp [takeLoop, winnerAfter]⟩
  | cons n rest ih =>
    match n with
    | .wq c => exact ⟨[], by simp [takeLoop, winnerAfter, Usable]⟩
    | .sel c i =>
      cases hwin : w.winner c with
      | none => exact ⟨[], by simp [takeLoop, hwin, winnerAfter, Usable]⟩
      | some j =>
        obtain ⟨losers, hq, hnone, hlosers, htaken, hqueue, hnode, hwinner⟩ :=
          ih (w.discard (.sel c i))
        have husable : ∀ n, (w.discard (.sel c i)).Usable n ↔ w.Usable n := by
          rintro (c' | ⟨c', i'⟩) <;> rfl
        simp only [takeLoop, hwin]
        refine ⟨.sel c i :: losers, ?_, hnone, ?_, fun n hn => (husable n).mp (htaken n hn), hqueue,
          fun n => ?_, hwinner⟩
        · rw [List.cons_append, ← hq]
        · intro n hn
          rcases List.mem_cons.mp hn with rfl | hn
          · simp [Usable, hwin]
          · exact fun h => hlosers n hn ((husable n).mpr h)
        · rw [hnode]
          by_cases hn : n = .sel c i
          · subst hn
            by_cases hmem : NodeRef.sel c i ∈ losers <;> simp [hmem, discard]
          · simp [hn, discard]

/-- List `l` held no usable waiter and has been emptied. -/
structure Emptied (w : Waits) (l : ListId) (w' : Waits) : Prop where
  /-- Nobody is granted anything. -/
  granted : ∀ st, Granted st w w' []
  /-- The list is empty. -/
  nil : w'.queue l = []
  /-- The other lists are as before. -/
  queue : ∀ l', l' ≠ l → w'.queue l' = w.queue l'
  /-- No select is decided. -/
  winner : w'.winner = w.winner
  /-- All its nodes belonged to decided selects. -/
  unusable : ∀ n ∈ w.queue l, ¬ w.Usable n

/-- The first usable waiter `n` of list `l` was taken off it and granted `st`. -/
structure Took (st : Code) (w : Waits) (l : ListId) (n : NodeRef) (w' : Waits) : Prop where
  /-- Only `n` is granted. -/
  granted : Granted st w w' [n]
  /-- It was usable. -/
  usable : w.Usable n
  /-- The other lists are as before. -/
  queue : ∀ l', l' ≠ l → w'.queue l' = w.queue l'
  /-- In front of it were only nodes of decided selects. -/
  split : ∃ losers, w.queue l = losers ++ n :: w'.queue l ∧ ∀ m ∈ losers, ¬ w.Usable m

lemma Took.mem {st : Code} {w w' : Waits} {l : ListId} {n : NodeRef} (h : Took st w l n w') :
    n ∈ w.queue l := by
  obtain ⟨losers, hq, -⟩ := h.split
  simp [hq]

/-- `s_chan_take_waiter` returns `NULL`. -/
lemma takeWaiter_none {w : Waits} (h : w.WF) {l : ListId} (hnone : (w.takeWaiter l).1 = none) :
    Emptied w l (w.takeWaiter l).2 := by
  obtain ⟨losers, hq, hrest, hlosers, -, hqueue, hnode, hwinner⟩ := w.takeLoop_spec (w.queue l)
  simp only [takeWaiter] at hnone ⊢
  rw [hrest hnone] at hq ⊢
  rw [hnone] at hq hwinner
  simp only [Option.toList_none, List.append_nil] at hq
  have hne : ∀ l', l' ≠ l → ((w.takeLoop (w.queue l)).2.2.setQueue l []).queue l' = w.queue l' := by
    intro l' hl'
    simp [hl', hqueue]
  have hwin : (w.takeLoop (w.queue l)).2.2.winner = w.winner := hwinner
  refine ⟨fun st => ⟨?_, List.nodup_nil, by simp, by simp, fun n _ => ?_, fun c => Or.inl ?_,
    by simp, fun l' => ?_⟩, by simp, hne, hwin, fun n hn => hlosers n (hq ▸ hn)⟩
  · refine h.dropPrefix (l := l) losers [] (by simpa using hq) (by simp) hne
      (fun n hn => ?_) (fun n hn => ?_)
    · simp [hnode, hn]
    · simp [hnode, hn]
  · by_cases hn : n ∈ losers
    · obtain ⟨c, i, rfl⟩ : ∃ c i, n = .sel c i := by
        match n, hlosers n hn with
        | .wq c, hc => exact absurd trivial hc
        | .sel c i, _ => exact ⟨c, i, rfl⟩
      refine Or.inr ⟨c, i, l, rfl, hq ▸ hn, ?_, by simp [hnode, hn]⟩
      simpa [hwin, Usable] using hlosers _ hn
    · exact Or.inl (by simp [hnode, hn])
  · simp [hwin]
  · by_cases hl' : l' = l
    · subst hl'; simp
    · rw [hne l' hl']

/-- `s_chan_take_waiter` returns node `n`, which is then granted: it is replaced by a node `x` that is
decided with `st`. -/
lemma takeWaiter_some {w : Waits} (h : w.WF) {l : ListId} {n : NodeRef}
    (hsome : (w.takeWaiter l).1 = some n) {st : Code} {x : Node} (hx : x.waitList = none)
    (hst : x.status = .decided st) (hbusy : x.wakerBusy = true) :
    Took st w l n ((w.takeWaiter l).2.setNode n x) ∧ (w.takeWaiter l).2.node n = w.node n := by
  obtain ⟨losers, hq, -, hlosers, htaken, hqueue, hnode, hwinner⟩ := w.takeLoop_spec (w.queue l)
  simp only [takeWaiter] at hsome ⊢
  rw [hsome] at hq hwinner
  set r := w.takeLoop (w.queue l) with hr
  simp only [Option.toList_some, List.singleton_append] at hq
  have husable := htaken n hsome
  have hnodup := h.nodup l
  rw [hq] at hnodup
  have hn : n ∉ losers := fun hmem => (List.disjoint_of_nodup_append hnodup) hmem (by simp)
  have hmem : n ∈ w.queue l := by rw [hq]; simp
  have hne : ∀ l', l' ≠ l → (r.2.2.setQueue l r.2.1).queue l' = w.queue l' := by
    intro l' hl'
    simp [hl', hqueue]
  have hwin : ∀ c i, n = .sel c i → r.2.2.winner c = some i := by
    rintro c i rfl
    simp [hwinner, winnerAfter]
  refine ⟨⟨⟨?_, List.nodup_singleton n, by simpa using ⟨l, hmem⟩, by simp [hx, hst, hbusy],
    fun m hm => ?_, fun c => ?_, fun c i hc => ?_, fun l' => ?_⟩, husable, hne,
    losers, by simpa using hq, hlosers⟩, by simp [hnode, hn]⟩
  · refine h.dropPrefix (l := l) (losers ++ [n]) r.2.1 (by simpa using hq) (by simp)
      hne (fun m hm => ?_) (fun m hm => ?_)
    · by_cases hmn : m = n
      · subst hmn; simp [hx]
      · have : m ∈ losers := by simpa [hmn] using hm
        simp [hmn, hnode, this]
    · simp only [List.mem_append, List.mem_singleton, not_or] at hm
      simp [hm.2, hnode, hm.1]
  · have hmn : m ≠ n := by simpa using hm
    by_cases hml : m ∈ losers
    · obtain ⟨c, i, rfl⟩ : ∃ c i, m = .sel c i := by
        match m, hlosers m hml with
        | .wq c, hc => exact absurd trivial hc
        | .sel c i, _ => exact ⟨c, i, rfl⟩
      refine Or.inr ⟨c, i, l, rfl, by rw [hq]; simp [hml], ?_, by simp [hmn, hnode, hml]⟩
      have hold : w.winner c ≠ none := hlosers _ hml
      simp only [setNode_winner, setQueue_winner, hwinner]
      match n with
      | .wq c' => exact hold
      | .sel c' i' =>
        by_cases hc : c = c'
        · subst hc; simp [winnerAfter]
        · simpa [winnerAfter, hc] using hold
    · exact Or.inl (by simp [hmn, hnode, hml])
  · simp only [setNode_winner, setQueue_winner, hwinner]
    match n, husable with
    | .wq c', _ => exact Or.inl rfl
    | .sel c' i', hnone =>
      by_cases hc : c = c'
      · subst hc
        exact Or.inr ⟨hnone, i', by simp, by simp [winnerAfter]⟩
      · exact Or.inl (by simp [winnerAfter, hc])
  · obtain rfl : n = .sel c i := (List.mem_singleton.mp hc).symm
    exact ⟨husable, hwin c i rfl⟩
  · by_cases hl' : l' = l
    · subst hl'
      simp only [setNode_queue, setQueue_queue_self]
      rw [hq]
      exact (List.sublist_cons_self n _).trans (List.sublist_append_right _ _)
    · simp [hne l' hl']

/-! ## Deciding from outside, unregistering -/

/-- Changing what a node carries besides its list and its status. -/
lemma WF.setNode_keep {w : Waits} (h : w.WF) {n : NodeRef} {x : Node}
    (hl : x.waitList = (w.node n).waitList) (hst : x.status = (w.node n).status) :
    (w.setNode n x).WF := by
  have hkeep : ∀ n', ((w.setNode n x).node n').waitList = (w.node n').waitList ∧
      ((w.setNode n x).node n').status = (w.node n').status := by
    intro n'
    by_cases hn' : n' = n
    · subst hn'; simp [hl, hst]
    · simp [hn']
  refine h.shrink (fun l => List.Sublist.refl _) (fun l n' => ?_) (fun n' => Or.inr (hkeep n'))
  rw [(hkeep n').1]
  refine ⟨fun hmem => ⟨hmem, ?_⟩, fun hmem => hmem.1⟩
  rw [(h.mem_iff l n').mp hmem]
  simp

/-- Taking a node off whatever list it is on and replacing it by one that is on no list. -/
lemma unlink_spec {w : Waits} (h : w.WF) (n : NodeRef) {x : Node} (hx : x.waitList = none) :
    ((w.unlink n).setNode n x).WF ∧ (w.unlink n).node = w.node ∧
      (w.unlink n).winner = w.winner ∧ ∀ l, ((w.unlink n).queue l).Sublist (w.queue l) := by
  unfold unlink
  cases hn : (w.node n).waitList with
  | none => exact ⟨h.setNode hn hx, rfl, rfl, fun l => List.Sublist.refl _⟩
  | some l =>
    refine ⟨h.remove ((h.mem_iff l n).mpr hn) hx, rfl, rfl, fun l' => ?_⟩
    by_cases hl' : l' = l
    · subst hl'
      simpa using List.erase_sublist
    · simp [hl']

/-- What the locked part of `s_waiter_wake` does when it decides the wait. -/
structure Decided (w : Waits) (c : CrId) (st : Code) (w' : Waits) : Prop where
  /-- The wait was undecided. -/
  waiting : (w.node (.wq c)).status = .waiting
  /-- Lists and nodes still agree. -/
  wf : w'.WF
  /-- The node is decided, off its list, and its decider's window is open. -/
  self : w'.node (.wq c) =
    { w.node (.wq c) with wakerBusy := true, waitList := none, status := .decided st }
  /-- The other nodes are as before. -/
  other : ∀ n, n ≠ .wq c → w'.node n = w.node n
  /-- No select is decided through a case. -/
  winner : w'.winner = w.winner
  /-- Lists only lose nodes. -/
  sublist : ∀ l, (w'.queue l).Sublist (w.queue l)

lemma decide_spec {w w' : Waits} (h : w.WF) {c : CrId} {st : Code} (hd : w.decide c st = some w') :
    Decided w c st w' := by
  unfold decide at hd
  split at hd
  · rename_i hwait
    cases hd
    obtain ⟨hwf, hnode, hwinner, hsub⟩ := unlink_spec h (.wq c)
      (x := { w.node (.wq c) with wakerBusy := true, waitList := none, status := .decided st }) rfl
    have heq : (w.unlink (.wq c)).grant (.wq c) st = (w.unlink (.wq c)).setNode (.wq c)
        { w.node (.wq c) with wakerBusy := true, waitList := none, status := .decided st } := by
      rw [grant, hnode]
    rw [heq]
    exact ⟨hwait, hwf, by simp, fun n hn => by simp [hn, hnode], hwinner, hsub⟩
  · cases hd

/-- What unregistering a select node does. -/
lemma unregister_spec {w : Waits} (h : w.WF) (n : NodeRef) :
    (w.unregister n).WF ∧ (w.unregister n).node n = { w.node n with waitList := none } ∧
      (∀ n', n' ≠ n → (w.unregister n).node n' = w.node n') ∧
      (w.unregister n).winner = w.winner ∧
      ∀ l, ((w.unregister n).queue l).Sublist (w.queue l) := by
  obtain ⟨hwf, hnode, hwinner, hsub⟩ := unlink_spec h n
    (x := { w.node n with waitList := none }) rfl
  have heq : w.unregister n = (w.unlink n).setNode n { w.node n with waitList := none } := by
    rw [unregister, discard, hnode]
  rw [heq]
  exact ⟨hwf, by simp, fun n' hn' => by simp [hn', hnode], hwinner, hsub⟩

end Waits

end Suspenders.Wait
