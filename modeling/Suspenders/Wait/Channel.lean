import Suspenders.Wait.Node
import Suspenders.Lib.Ring

/-!
# Channels

The critical sections of the channel operations: a ring of `buf_sz` elements, a list of parked senders
and a list of parked receivers.  `chanSend` and `chanRecv` are what `s_chan_send_impl` and
`s_chan_recv_impl` do between taking and releasing the channel lock, `chanClose` is
`suspenders_chan_close`, `selectCaseReady` is `s_select_case_ready`.

`ChanInv` is the representation invariant.  Its last field is what makes it survive selects: whenever
a receiver and a sender are parked at the same time, both are nodes of one select.
-/

namespace Suspenders.Wait

open Lib

/-- `suspenders_chan_t` without its lists and its lock. -/
structure Chan where
  /-- `elem_sz` -/
  elemSz : ℕ
  /-- `buf_sz`; `0` is a rendezvous channel. -/
  bufSz : ℕ
  /-- `count` -/
  count : ℕ
  /-- `head` -/
  head : ℕ
  /-- The storage behind `buf`. -/
  buf : ℕ → UInt8
  /-- `closed` -/
  closed : Bool

namespace Chan

/-- `suspenders_chan_create`. -/
def create (elemSz bufSz : ℕ) : Chan where
  elemSz := elemSz
  bufSz := bufSz
  count := 0
  head := 0
  buf := fun _ => 0
  closed := false

/-- `s_chan_buf_push`. -/
def bufPush (x : Chan) (val : Bytes) : Chan :=
  let idx := (x.head + x.count) % x.bufSz
  { x with buf := write x.buf (idx * x.elemSz) val, count := x.count + 1 }

/-- What `s_chan_buf_pop` copies out. -/
def bufFront (x : Chan) : Bytes := slice x.buf (x.head * x.elemSz) x.elemSz

/-- `s_chan_buf_pop`. -/
def bufPop (x : Chan) : Chan :=
  { x with head := (x.head + 1) % x.bufSz, count := x.count - 1 }

/-- The buffered values, oldest first. -/
def contents (x : Chan) : List Bytes := ring x.buf x.elemSz x.bufSz x.head x.count

@[simp] lemma length_contents (x : Chan) : x.contents.length = x.count := length_ring ..

/-- A push appends. -/
lemma contents_bufPush {x : Chan} {val : Bytes} (hcount : x.count < x.bufSz)
    (hval : val.length = x.elemSz) : (x.bufPush val).contents = x.contents ++ [val] :=
  ring_push x.buf hcount hval

/-- A pop removes the oldest value. -/
lemma contents_bufPop {x : Chan} (hhead : x.head < x.bufSz) (hcount : 0 < x.count) :
    x.contents = x.bufFront :: x.bufPop.contents :=
  ring_pop x.buf hhead hcount

end Chan

/-- How the critical section of a send ends. -/
inductive SendOut
  /-- The channel is closed. -/
  | closed
  /-- The value was handed to the parked receiver `rx`. -/
  | handed (rx : NodeRef)
  /-- The value was put into the ring. -/
  | buffered
  /-- No room: the call parks, or fails if it may not block. -/
  | full
  deriving DecidableEq

/-- How the critical section of a receive ends. -/
inductive RecvOut
  /-- The oldest value of the ring, whose slot the parked sender `tx` refilled. -/
  | buffered (v : Bytes) (tx : Option NodeRef)
  /-- The value of the parked sender `tx`. -/
  | taken (v : Bytes) (tx : NodeRef)
  /-- Nothing to receive and the channel is closed. -/
  | closed
  /-- Nothing to receive: the call parks, or fails if it may not block. -/
  | empty
  deriving DecidableEq

/-- The nodes a send has granted. -/
def SendOut.granted : SendOut → List NodeRef
  | handed rx => [rx]
  | _ => []

/-- The nodes a receive has granted. -/
def RecvOut.granted : RecvOut → List NodeRef
  | buffered _ tx => tx.toList
  | taken _ tx => [tx]
  | _ => []

/-- The value a receive has copied to its caller. -/
def RecvOut.value : RecvOut → Option Bytes
  | buffered v _ => some v
  | taken v _ => some v
  | _ => none

/-- The critical section of `s_chan_send_impl`. -/
def chanSend (w : Waits) (ch : ℕ) (x : Chan) (val : Bytes) : SendOut × Waits × Chan :=
  if x.closed then (.closed, w, x)
  else
    match w.takeWaiter (.receivers ch) with
    | (some rx, w) => (.handed rx, (w.fill rx val).grant rx .ok, x)
    | (none, w) =>
      if x.bufSz ≠ 0 ∧ x.count < x.bufSz then (.buffered, w, x.bufPush val)
      else (.full, w, x)

/-- The critical section of `s_chan_recv_impl`. -/
def chanRecv (w : Waits) (ch : ℕ) (x : Chan) : RecvOut × Waits × Chan :=
  if x.bufSz ≠ 0 ∧ 0 < x.count then
    match w.takeWaiter (.senders ch) with
    -- a parked sender deposits into the freed slot
    | (some tx, w) =>
      (.buffered x.bufFront (some tx), w.grant tx .ok, x.bufPop.bufPush (w.node tx).data)
    | (none, w) => (.buffered x.bufFront none, w, x.bufPop)
  else
    match w.takeWaiter (.senders ch) with
    | (some tx, w) => (.taken (w.node tx).data tx, w.grant tx .ok, x)
    | (none, w) => if x.closed then (.closed, w, x) else (.empty, w, x)

/-- The inner loop of `suspenders_chan_close` on one list; the fuel is the length of the list. -/
def closeLoop (l : ListId) : ℕ → Waits → List NodeRef × Waits
  | 0, w => ([], w)
  | fuel + 1, w =>
    match w.takeWaiter l with
    | (none, w) => ([], w)
    | (some n, w) =>
      let r := closeLoop l fuel (w.grant n .closed)
      (n :: r.1, r.2)

/-- The critical section of a `suspenders_chan_close` that finds the channel open: the granted nodes in
order, and the new state. -/
def chanClose (w : Waits) (ch : ℕ) (x : Chan) : List NodeRef × Waits × Chan :=
  let s := closeLoop (.senders ch) (w.queue (.senders ch)).length w
  let r := closeLoop (.receivers ch) (s.2.queue (.receivers ch)).length s.2
  (s.1 ++ r.1, r.2, { x with closed := true })

/-- One case of a select (`suspenders_chan_op_t`). -/
structure Case where
  /-- `ch` -/
  ch : ℕ
  /-- `is_send` -/
  isSend : Bool
  /-- The value behind `val` of a send. -/
  val : Bytes
  deriving DecidableEq

/-- The list a case is registered on. -/
def Case.list (k : Case) : ListId := if k.isSend then .senders k.ch else .receivers k.ch

/-- Whether a node belongs to the select of coroutine `c` (`select_rec == rec`). -/
def NodeRef.ofSelect (c : CrId) : NodeRef → Bool
  | sel c' _ => c' == c
  | wq _ => false

/-- `s_select_case_ready`. -/
def selectCaseReady (w : Waits) (c : CrId) (k : Case) (x : Chan) : Bool :=
  x.closed ||
    if k.isSend then
      decide (x.bufSz ≠ 0 ∧ x.count < x.bufSz) ||
        (w.queue (.receivers k.ch)).any fun n => !n.ofSelect c
    else
      decide (x.bufSz ≠ 0 ∧ 0 < x.count) || (w.queue (.senders k.ch)).any fun n => !n.ofSelect c

/-! ## What the critical sections do -/

section Cases

variable {w : Waits}

/-- How a send ends, and when. -/
lemma chanSend_cases (h : w.WF) (ch : ℕ) (x : Chan) (val : Bytes) :
    (x.closed = true ∧ chanSend w ch x val = (.closed, w, x)) ∨
    (x.closed = false ∧ ∃ rx w', chanSend w ch x val = (.handed rx, w', x) ∧
      w.Took .ok (.receivers ch) rx w' ∧ (w'.node rx).data = val) ∨
    (x.closed = false ∧ x.count < x.bufSz ∧ ∃ w',
      chanSend w ch x val = (.buffered, w', x.bufPush val) ∧ w.Emptied (.receivers ch) w') ∨
    (x.closed = false ∧ (x.bufSz = 0 ∨ x.bufSz ≤ x.count) ∧ ∃ w',
      chanSend w ch x val = (.full, w', x) ∧ w.Emptied (.receivers ch) w') := by
  unfold chanSend
  cases hcl : x.closed with
  | true => exact Or.inl ⟨rfl, rfl⟩
  | false =>
    right
    cases htake : w.takeWaiter (.receivers ch) with
    | mk o w' =>
      cases o with
      | some rx =>
        left
        have hfst : (w.takeWaiter (.receivers ch)).1 = some rx := by rw [htake]
        have htook := (Waits.takeWaiter_some h hfst
          (x := { w'.node rx with
            data := val, wakerBusy := true, waitList := none, status := .decided .ok }) rfl rfl rfl).1
        rw [htake] at htook
        refine ⟨rfl, rx, _, rfl, ?_, by simp [Waits.fill]⟩
        have heq : (w'.fill rx val).grant rx .ok = w'.setNode rx { w'.node rx with
            data := val, wakerBusy := true, waitList := none, status := .decided .ok } := by
          simp [Waits.fill, Waits.grant, Waits.setNode]
        simpa [heq] using htook
      | none =>
        right
        have hempty := Waits.takeWaiter_none h (l := .receivers ch) (by rw [htake])
        rw [htake] at hempty
        by_cases hroom : x.bufSz ≠ 0 ∧ x.count < x.bufSz
        · exact Or.inl ⟨rfl, hroom.2, w', by simp [hroom], hempty⟩
        · refine Or.inr ⟨rfl, by omega, w', ?_, hempty⟩
          simp only [Bool.false_eq_true, if_false, if_neg hroom]

/-- How a receive ends, and when. -/
lemma chanRecv_cases (h : w.WF) (ch : ℕ) (x : Chan) :
    (x.bufSz ≠ 0 ∧ 0 < x.count ∧ ∃ tx w',
      chanRecv w ch x =
        (.buffered x.bufFront (some tx), w', x.bufPop.bufPush (w.node tx).data) ∧
      w.Took .ok (.senders ch) tx w') ∨
    (x.bufSz ≠ 0 ∧ 0 < x.count ∧ ∃ w',
      chanRecv w ch x = (.buffered x.bufFront none, w', x.bufPop) ∧
      w.Emptied (.senders ch) w') ∨
    ((x.bufSz = 0 ∨ x.count = 0) ∧ ∃ tx w', chanRecv w ch x = (.taken (w.node tx).data tx, w', x) ∧
      w.Took .ok (.senders ch) tx w') ∨
    ((x.bufSz = 0 ∨ x.count = 0) ∧ x.closed = true ∧ ∃ w', chanRecv w ch x = (.closed, w', x) ∧
      w.Emptied (.senders ch) w') ∨
    ((x.bufSz = 0 ∨ x.count = 0) ∧ x.closed = false ∧ ∃ w', chanRecv w ch x = (.empty, w', x) ∧
      w.Emptied (.senders ch) w') := by
  unfold chanRecv
  cases htake : w.takeWaiter (.senders ch) with
  | mk o w' =>
    cases o with
    | some tx =>
      have hfst : (w.takeWaiter (.senders ch)).1 = some tx := by rw [htake]
      obtain ⟨htook, hnode⟩ := Waits.takeWaiter_some h hfst
        (x := { w'.node tx with wakerBusy := true, waitList := none, status := .decided .ok }) rfl rfl rfl
      rw [htake] at htook hnode
      by_cases hbuf : x.bufSz ≠ 0 ∧ 0 < x.count
      · refine Or.inl ⟨hbuf.1, hbuf.2, tx, w'.grant tx .ok, ?_, htook⟩
        simp only [if_pos hbuf]
        rw [show w'.node tx = w.node tx from hnode]
      · refine Or.inr (Or.inr (Or.inl ⟨by omega, tx, w'.grant tx .ok, ?_, htook⟩))
        simp only [if_neg hbuf]
        rw [show w'.node tx = w.node tx from hnode]
    | none =>
      have hempty := Waits.takeWaiter_none h (l := .senders ch) (by rw [htake])
      rw [htake] at hempty
      by_cases hbuf : x.bufSz ≠ 0 ∧ 0 < x.count
      · refine Or.inr (Or.inl ⟨hbuf.1, hbuf.2, w', ?_, hempty⟩)
        simp only [if_pos hbuf]
      · right; right; right
        have hbuf' : x.bufSz = 0 ∨ x.count = 0 := by omega
        cases hcl : x.closed with
        | true => exact Or.inl ⟨hbuf', rfl, w', by simp only [if_neg hbuf, if_true], hempty⟩
        | false =>
          refine Or.inr ⟨hbuf', rfl, w', ?_, hempty⟩
          simp only [if_neg hbuf, Bool.false_eq_true, if_false]

/-- The loop of a close on one list: all usable nodes are granted, and with enough fuel the list ends
up empty. -/
lemma closeLoop_spec (h : w.WF) (l : ListId) (fuel : ℕ) (hfuel : (w.queue l).length ≤ fuel) :
    w.Granted .closed (closeLoop l fuel w).2 (closeLoop l fuel w).1 ∧
      (closeLoop l fuel w).2.queue l = [] ∧
      (∀ l', l' ≠ l → (closeLoop l fuel w).2.queue l' = w.queue l') ∧
      ∀ n ∈ (closeLoop l fuel w).1, n ∈ w.queue l := by
  induction fuel generalizing w with
  | zero =>
    have hnil : w.queue l = [] := List.length_eq_zero_iff.mp (by omega)
    exact ⟨.refl h, hnil, fun _ _ => rfl, by simp [closeLoop]⟩
  | succ fuel ih =>
    cases htake : w.takeWaiter l with
    | mk o w' =>
      cases o with
      | none =>
        have hempty := Waits.takeWaiter_none h (l := l) (by rw [htake])
        rw [htake] at hempty
        simp only [closeLoop, htake]
        exact ⟨hempty.granted _, hempty.nil, hempty.queue, by simp⟩
      | some n =>
        have hfst : (w.takeWaiter l).1 = some n := by rw [htake]
        obtain ⟨htook, -⟩ := Waits.takeWaiter_some h hfst
          (x := { w'.node n with wakerBusy := true, waitList := none, status := .decided .closed }) rfl rfl rfl
        rw [htake] at htook
        replace htook : w.Took .closed l n (w'.grant n .closed) := htook
        obtain ⟨losers, hq, -⟩ := htook.split
        have hlen : ((w'.grant n .closed).queue l).length ≤ fuel := by
          rw [hq] at hfuel
          simp only [List.length_append, List.length_cons] at hfuel
          omega
        obtain ⟨hgr, hnil, hne, hown⟩ := ih htook.granted.wf hlen
        simp only [closeLoop, htake]
        refine ⟨htook.granted.trans hgr, hnil,
          fun l' hl' => (hne l' hl').trans (htook.queue l' hl'), fun m hm => ?_⟩
        rcases List.mem_cons.mp hm with rfl | hm
        · exact htook.mem
        · exact (htook.granted.sublist l).subset (hown m hm)

/-- A close empties both lists and decides everybody who was usable. -/
lemma chanClose_spec (h : w.WF) (ch : ℕ) (x : Chan) :
    w.Granted .closed (chanClose w ch x).2.1 (chanClose w ch x).1 ∧
      (chanClose w ch x).2.1.queue (.senders ch) = [] ∧
      (chanClose w ch x).2.1.queue (.receivers ch) = [] ∧
      ∀ l, l.lock ≠ .chan ch → (chanClose w ch x).2.1.queue l = w.queue l := by
  obtain ⟨hgs, hsnil, hsne, -⟩ := closeLoop_spec h (.senders ch) _ le_rfl
  obtain ⟨hgr, hrnil, hrne, -⟩ := closeLoop_spec hgs.wf (.receivers ch) _ le_rfl
  refine ⟨hgs.trans hgr, ?_, hrnil, fun l hl => ?_⟩
  · exact (hrne (.senders ch) (by simp)).trans hsnil
  · have hl₁ : l ≠ .receivers ch := fun heq => hl (by rw [heq]; rfl)
    have hl₂ : l ≠ .senders ch := fun heq => hl (by rw [heq]; rfl)
    exact (hrne l hl₁).trans (hsne l hl₂)

/-- A close decides only nodes of its own channel. -/
lemma chanClose_own (h : w.WF) (ch : ℕ) (x : Chan) :
    ∀ n ∈ (chanClose w ch x).1, ∃ l, n ∈ w.queue l ∧ l.lock = .chan ch := by
  obtain ⟨hgs, -, -, hsown⟩ := closeLoop_spec h (.senders ch) _ le_rfl
  obtain ⟨-, -, -, hrown⟩ := closeLoop_spec hgs.wf (.receivers ch) _ le_rfl
  intro n hn
  rcases List.mem_append.mp hn with hn | hn
  · exact ⟨_, hsown n hn, rfl⟩
  · exact ⟨_, (hgs.sublist _).subset (hrown n hn), rfl⟩

end Cases

/-! ## The representation invariant -/

/-- The representation invariant of channel `ch`. -/
structure ChanInv (w : Waits) (ch : ℕ) (x : Chan) : Prop where
  /-- The ring is not overfull. -/
  count_le : x.count ≤ x.bufSz
  /-- The head is a slot. -/
  head_lt : x.bufSz = 0 ∨ x.head < x.bufSz
  /-- Receivers park on an empty ring. -/
  receivers : w.queue (.receivers ch) ≠ [] → x.count = 0
  /-- Senders park on a full ring. -/
  senders : w.queue (.senders ch) ≠ [] → x.count = x.bufSz
  /-- Nobody is parked on a closed channel. -/
  closed : x.closed = true → w.queue (.receivers ch) = [] ∧ w.queue (.senders ch) = []
  /-- A receiver and a sender parked together are nodes of one select. -/
  pair : ∀ r ∈ w.queue (.receivers ch), ∀ s ∈ w.queue (.senders ch),
    ∃ c i j, r = .sel c i ∧ s = .sel c j

namespace ChanInv

variable {w w' : Waits} {ch : ℕ} {x : Chan}

lemma create (elemSz bufSz : ℕ) : ChanInv .init ch (.create elemSz bufSz) where
  count_le := Nat.zero_le _
  head_lt := by simp only [Chan.create]; omega
  receivers := by simp [Waits.init]
  senders := by simp [Waits.init]
  closed := by simp [Waits.init]
  pair := by simp [Waits.init]

/-- The invariant does not mind nodes leaving the lists. -/
lemma mono (h : ChanInv w ch x)
    (hr : (w'.queue (.receivers ch)).Sublist (w.queue (.receivers ch)))
    (hs : (w'.queue (.senders ch)).Sublist (w.queue (.senders ch))) : ChanInv w' ch x where
  count_le := h.count_le
  head_lt := h.head_lt
  receivers := fun hne => h.receivers fun hnil => hne (List.sublist_nil.mp (hnil ▸ hr))
  senders := fun hne => h.senders fun hnil => hne (List.sublist_nil.mp (hnil ▸ hs))
  closed := fun hc =>
    ⟨List.sublist_nil.mp ((h.closed hc).1 ▸ hr), List.sublist_nil.mp ((h.closed hc).2 ▸ hs)⟩
  pair := fun r hr' s hs' => h.pair r (hr.subset hr') s (hs.subset hs')

/-- A granter elsewhere keeps the invariant. -/
lemma granted {st : Code} {G : List NodeRef} (h : ChanInv w ch x) (hg : w.Granted st w' G) :
    ChanInv w' ch x :=
  h.mono (hg.sublist _) (hg.sublist _)

/-- With values in the ring no receiver is parked. -/
lemma receivers_nil (h : ChanInv w ch x) (hcount : 0 < x.count) : w.queue (.receivers ch) = [] := by
  by_contra hne
  have := h.receivers hne
  omega

/-- With room in the ring no sender is parked. -/
lemma senders_nil (h : ChanInv w ch x) (hcount : x.count < x.bufSz) :
    w.queue (.senders ch) = [] := by
  by_contra hne
  have := h.senders hne
  omega

/-- The critical section of a send keeps the invariant. -/
lemma send (h : ChanInv w ch x) (hwf : w.WF) (val : Bytes) :
    ChanInv (chanSend w ch x val).2.1 ch (chanSend w ch x val).2.2 := by
  obtain ⟨-, heq⟩ | ⟨-, rx, w', heq, htook, -⟩ | ⟨hopen, hroom, w', heq, hempty⟩ |
    ⟨-, -, w', heq, hempty⟩ := chanSend_cases hwf ch x val
  · simpa [heq] using h
  · simpa [heq] using h.granted htook.granted
  · rw [heq]
    have hsnil : w'.queue (.senders ch) = [] := by
      rw [hempty.queue _ (by simp)]
      exact h.senders_nil hroom
    refine ⟨?_, h.head_lt, ?_, ?_, ?_, ?_⟩
    · simp only [Chan.bufPush]
      omega
    · exact fun hne => absurd hempty.nil hne
    · exact fun hne => absurd hsnil hne
    · exact fun _ => ⟨hempty.nil, hsnil⟩
    · simp [hsnil]
  · simpa [heq] using h.granted (hempty.granted .ok)

/-- The critical section of a receive keeps the invariant. -/
lemma recv (h : ChanInv w ch x) (hwf : w.WF) :
    ChanInv (chanRecv w ch x).2.1 ch (chanRecv w ch x).2.2 := by
  obtain ⟨hbuf, hcount, tx, w', heq, htook⟩ | ⟨hbuf, hcount, w', heq, hempty⟩ |
    ⟨-, tx, w', heq, htook⟩ | ⟨-, -, w', heq, hempty⟩ | ⟨-, -, w', heq, hempty⟩ :=
    chanRecv_cases hwf ch x
  · -- the slot is refilled at once: the ring stays full for the senders left behind
    rw [heq]
    have hrnil : w'.queue (.receivers ch) = [] := by
      rw [htook.queue _ (by simp)]
      exact h.receivers_nil hcount
    have hsne : w.queue (.senders ch) ≠ [] := List.ne_nil_of_mem htook.mem
    have hfull := h.senders hsne
    have hopen : x.closed = false := by
      by_contra hcl
      exact hsne (h.closed (by simpa using hcl)).2
    refine ⟨?_, Or.inr (Nat.mod_lt _ (Nat.pos_of_ne_zero hbuf)), ?_, ?_, ?_, ?_⟩
    · simp only [Chan.bufPush, Chan.bufPop]
      omega
    · exact fun hne => absurd hrnil hne
    · simp only [Chan.bufPush, Chan.bufPop]
      omega
    · intro hcl
      simp only [Chan.bufPush, Chan.bufPop, hopen, Bool.false_eq_true] at hcl
    · simp [hrnil]
  · rw [heq]
    have hrnil : w'.queue (.receivers ch) = [] := by
      rw [hempty.queue _ (by simp)]
      exact h.receivers_nil hcount
    have hle := h.count_le
    refine ⟨?_, Or.inr (Nat.mod_lt _ (Nat.pos_of_ne_zero hbuf)), ?_, ?_, ?_, ?_⟩
    · simp only [Chan.bufPop]
      omega
    · exact fun hne => absurd hrnil hne
    · exact fun hne => absurd hempty.nil hne
    · exact fun _ => ⟨hrnil, hempty.nil⟩
    · simp [hrnil]
  · simpa [heq] using h.granted htook.granted
  · simpa [heq] using h.granted (hempty.granted .ok)
  · simpa [heq] using h.granted (hempty.granted .ok)

/-- A close keeps the invariant. -/
lemma close (h : ChanInv w ch x) (hwf : w.WF) :
    ChanInv (chanClose w ch x).2.1 ch (chanClose w ch x).2.2 := by
  obtain ⟨-, hsnil, hrnil, -⟩ := chanClose_spec hwf ch x
  exact ⟨h.count_le, h.head_lt, fun hne => absurd hrnil hne, fun hne => absurd hsnil hne,
    fun _ => ⟨hrnil, hsnil⟩, by simp [hrnil]⟩

/-- A sender may park on a full ring if every parked receiver belongs to the same select. -/
lemma parkSender (h : ChanInv w ch x) (hopen : x.closed = false) (hfull : x.count = x.bufSz)
    {n : NodeRef} (hpair : ∀ r ∈ w.queue (.receivers ch), ∃ c i j, r = .sel c i ∧ n = .sel c j)
    (data : Bytes) (writer : Bool) : ChanInv (w.park n (.senders ch) data writer) ch x where
  count_le := h.count_le
  head_lt := h.head_lt
  receivers := by simpa [Waits.park] using h.receivers
  senders := fun _ => hfull
  closed := by simp [hopen]
  pair := by
    intro r hr s hs
    simp only [Waits.park, ne_eq, reduceCtorEq, not_false_eq_true, Waits.setQueue_queue_of_ne,
      Waits.setNode_queue] at hr
    simp only [Waits.park, Waits.setQueue_queue_self, List.mem_append, List.mem_singleton] at hs
    rcases hs with hs | rfl
    · exact h.pair r hr s hs
    · exact hpair r hr

/-- A receiver may park on an empty ring if every parked sender belongs to the same select. -/
lemma parkReceiver (h : ChanInv w ch x) (hopen : x.closed = false) (hnone : x.count = 0)
    {n : NodeRef} (hpair : ∀ s ∈ w.queue (.senders ch), ∃ c i j, n = .sel c i ∧ s = .sel c j)
    (data : Bytes) (writer : Bool) : ChanInv (w.park n (.receivers ch) data writer) ch x where
  count_le := h.count_le
  head_lt := h.head_lt
  receivers := fun _ => hnone
  senders := by simpa [Waits.park] using h.senders
  closed := by simp [hopen]
  pair := by
    intro r hr s hs
    simp only [Waits.park, ne_eq, reduceCtorEq, not_false_eq_true, Waits.setQueue_queue_of_ne,
      Waits.setNode_queue] at hs
    simp only [Waits.park, Waits.setQueue_queue_self, List.mem_append, List.mem_singleton] at hr
    rcases hr with hr | rfl
    · exact h.pair r hr s hs
    · exact hpair s hs

/-- Parking on another structure's list. -/
lemma parkOther (h : ChanInv w ch x) {n : NodeRef} {l : ListId} (hl : l.lock ≠ .chan ch)
    (data : Bytes) (writer : Bool) : ChanInv (w.park n l data writer) ch x := by
  have hr : ListId.receivers ch ≠ l := by rintro rfl; exact hl rfl
  have hs : ListId.senders ch ≠ l := by rintro rfl; exact hl rfl
  refine h.mono ?_ ?_ <;> simp [Waits.park, hr, hs]

/-- A select may register a case that `s_select_case_ready` does not report ready. -/
lemma register (h : ChanInv w ch x) {c : CrId} {k : Case} (hk : k.ch = ch)
    (hready : selectCaseReady w c k x = false) (i : ℕ) (data : Bytes) (writer : Bool) :
    ChanInv (w.park (.sel c i) k.list data writer) ch x := by
  subst hk
  have hle := h.count_le
  -- a node the scan of the opposite list accepts belongs to the same select
  have hown : ∀ q : List NodeRef, (q.any fun n => !n.ofSelect c) = false →
      ∀ n ∈ q, ∃ j, n = .sel c j := by
    intro q hq n hn
    have hsel : n.ofSelect c = true := by simpa using List.any_eq_false.mp hq n hn
    match n with
    | .wq c' => cases hsel
    | .sel c' j =>
      obtain rfl : c' = c := by simpa [NodeRef.ofSelect] using hsel
      exact ⟨j, rfl⟩
  unfold selectCaseReady at hready
  simp only [Bool.or_eq_false_iff] at hready
  obtain ⟨hopen, hready⟩ := hready
  cases hsend : k.isSend with
  | true =>
    simp only [hsend, if_true, Bool.or_eq_false_iff, decide_eq_false_iff_not] at hready
    simp only [Case.list, hsend, if_true]
    refine h.parkSender hopen (by omega) (fun r hr => ?_) data writer
    obtain ⟨j, rfl⟩ := hown _ hready.2 r hr
    exact ⟨c, j, i, rfl, rfl⟩
  | false =>
    simp only [hsend, Bool.false_eq_true, if_false, Bool.or_eq_false_iff,
      decide_eq_false_iff_not] at hready
    simp only [Case.list, hsend, Bool.false_eq_true, if_false]
    refine h.parkReceiver hopen (by omega) (fun s hs => ?_) data writer
    obtain ⟨j, rfl⟩ := hown _ hready.2 s hs
    exact ⟨c, i, j, rfl, rfl⟩

end ChanInv

end Suspenders.Wait
