import Suspenders.Wait.Footprint

/-!
# The decider's window

A decider sets `waker_busy` before it flips the status of a node and clears it by `s_wait_decide_end`, the last
thing it does with the node.  `WindowInv` says what holds in between: the waiter is still in front of its
`s_wait_decider_sync`, no other decider has a window on the node, and behind the end of a window the decider has
nothing left to do but to end the windows of other coroutines.
-/

namespace Suspenders.Wait

open Lib

/-- Behind the last `s_wait_decider_sync` of a select. -/
def Pc.leaving : Pc → Bool
  | selFin _ _ _ => true
  | _ => false

/-- In front of the `s_wait_decider_sync` on select node `i`, which has won. -/
def Pc.Behind (i : ℕ) : Pc → Prop
  | selReg _ r => i < r
  | selTest _ | selSusp _ | selUnreg _ _ _ _ => True
  | selSync _ win _ => win = some i
  | _ => False

/-- A coroutine at this place has not come past `s_wait_decider_sync` on its node `n`. -/
def Pc.Trapped (winner : Option ℕ) (n : NodeRef) (pc : Pc) : Prop :=
  match n with
  | .wq _ => pc.waitOn ≠ none ∧ pc.leaving = false
  | .sel _ i => winner = some i ∧ pc.Behind i

/-- What may stand behind a piece of work: behind the end of a window only the ends of other coroutines'
windows. -/
def Work.Before : Work → Work → Prop
  | fin n, y => ∃ m, y = fin m ∧ m.cr ≠ n.cr
  | _, _ => True

/-- The window on node `n` is open and its waiter is trapped. -/
structure Core.Open (s : Core) (n : NodeRef) : Prop where
  /-- `waker_busy` is set. -/
  busy : (s.heap.waits.node n).wakerBusy = true
  /-- The wait is decided. -/
  status : (s.heap.waits.node n).status ≠ .waiting
  /-- The waiter cannot leave. -/
  trapped : (s.pc (.co n.cr)).Trapped (s.heap.waits.winner n.cr) n

/-- The windows of all deciders. -/
structure WindowInv (s : Core) : Prop where
  /-- As long as a decider has a window to end, it is open. -/
  isOpen : ∀ a n, .fin n ∈ s.work a → s.Open n
  /-- As long as `waker_busy` is set, a decider has to clear it. -/
  ended : ∀ n, (s.heap.waits.node n).wakerBusy = true → ∃ a, .fin n ∈ s.work a
  /-- A node has one decider. -/
  unique : ∀ a b n, .fin n ∈ s.work a → .fin n ∈ s.work b → a = b
  /-- The end of a window is the last that its decider has to do with the waiter. -/
  order : ∀ a, (s.work a).Pairwise Work.Before

lemma windowInv_init (cfg : Config) : WindowInv (.init cfg) where
  isOpen := by simp [Core.init]
  ended := by simp [Core.init, Heap.init, Waits.init]
  unique := by simp [Core.init]
  order := by simp [Core.init]

/-- Select nodes have windows during a wait only. -/
lemma Pc.Behind.waitOn {pc : Pc} {i : ℕ} (h : pc.Behind i) : pc.waitOn ≠ none := by
  cases pc <;> simp_all [Pc.Behind, Pc.waitOn]

lemma Pc.Trapped.waitOn {pc : Pc} {win : Option ℕ} {n : NodeRef} (h : pc.Trapped win n) : pc.waitOn ≠ none := by
  cases n with
  | wq c => exact h.1
  | sel c i => exact h.2.waitOn

/-- The embedded node of a coroutine at the end of a select is on no list. -/
lemma Pc.waitOn_of_leaving {pc : Pc} (h : pc.leaving = true) : pc.waitOn = some none := by
  cases pc <;> first | rfl | cases h

/-- Nor is that of a coroutine with linked select nodes. -/
lemma Pc.Linked.waitOn {pc : Pc} {i : ℕ} {l : ListId} (h : pc.Linked i l) : pc.waitOn = some none := by
  cases pc <;> first | rfl | exact absurd h id

/-- Linked select nodes are in front of their `s_wait_decider_sync`. -/
lemma Pc.Linked.behind {pc : Pc} {i : ℕ} {l : ListId} (h : pc.Linked i l) : pc.Behind i := by
  cases pc <;> first | exact absurd h id | exact h.1 | trivial

/-- A coroutine that goes on in its wait stays trapped. -/
lemma Pc.Trapped.move {pc pc' : Pc} {win : Option ℕ} {n : NodeRef} (h : pc.Trapped win n)
    (hwait : pc'.waitOn ≠ none) (hleave : pc'.leaving = false)
    (hsel : ∀ c i, n = .sel c i → win = some i → pc.Behind i → pc'.Behind i) : pc'.Trapped win n := by
  cases n with
  | wq c => exact ⟨hwait, hleave⟩
  | sel c i => exact ⟨h.1, hsel c i rfl h.1 h.2⟩

/-! ## The waiter -/

/-- A critical section in the middle of a wait is the unlock of `suspenders_cond_wait_dl`, and the wait goes
on. -/
lemma Pc.Trapped.crit {op : Op} {k : Frame} {win : Option ℕ} {n : NodeRef} {h : Heap} {a : Ctx}
    (htrap : (Pc.cs op k).Trapped win n) (hok : (Pc.cs op k).Ok) :
    (critical h a op).1 = (exec h a op).1 ∧ (k.next (critical h a op).2.res).Trapped win n := by
  cases n with
  | sel c i => exact absurd htrap.2 id
  | wq c =>
    cases k with
    | condUnlock m v =>
      obtain rfl : op = .unlock m := hok
      obtain ⟨code, hres⟩ : ∃ code, (exec h a (.unlock m)).2.res = .ret code := by
        simp only [exec, mutexUnlock]
        split
        · split <;> exact ⟨_, rfl⟩
        · exact ⟨_, rfl⟩
      simp only [critical, hres, Heap.parkAs, Frame.next, Frame.after]
      exact ⟨trivial, by simp [Pc.waitOn], rfl⟩
    | _ => exact absurd rfl htrap.1

/-- A node that nobody touches, and a waiter that stays in front of its `s_wait_decider_sync`. -/
lemma Core.Open.stay {s t : Core} {n : NodeRef} (h : s.Open n)
    (hnode : (t.heap.waits.node n).wakerBusy = (s.heap.waits.node n).wakerBusy ∧
      (t.heap.waits.node n).status = (s.heap.waits.node n).status)
    (htrap : (t.pc (.co n.cr)).Trapped (t.heap.waits.winner n.cr) n) : t.Open n :=
  ⟨hnode.1 ▸ h.busy, hnode.2 ▸ h.status, htrap⟩

/-- A granter leaves decided nodes alone. -/
lemma Core.Open.kept {s : Core} {n : NodeRef} (hopen : s.Open n) (hw : s.heap.waits.WF) {st : Code} {w : Waits}
    {G : List NodeRef} (hg : s.heap.waits.Granted st w G) :
    ((w.node n).wakerBusy = (s.heap.waits.node n).wakerBusy ∧
      (w.node n).status = (s.heap.waits.node n).status) := by
  have hn : n ∉ G := by
    intro hn
    obtain ⟨l, hl⟩ := hg.live n hn
    exact hopen.status (hw.waiting n l ((hw.mem_iff l n).mp hl))
  exact ⟨hg.busy_of_not_mem hn, hg.status_of_not_mem hn⟩

/-- A granter leaves the winner of a decided select alone. -/
lemma Core.Open.trapped_granted {s : Core} {n : NodeRef} {pc : Pc} {st : Code} {w : Waits} {G : List NodeRef}
    (hg : s.heap.waits.Granted st w G) (htrap : pc.Trapped (s.heap.waits.winner n.cr) n) :
    pc.Trapped (w.winner n.cr) n := by
  cases n with
  | wq c => exact htrap
  | sel c i =>
    rcases hg.winner c with heq | ⟨hnone, -⟩
    · exact ⟨heq.trans htrap.1, htrap.2⟩
    · exact absurd (htrap.1.symm.trans hnone) (by simp)

/-- A trapped coroutine does not get out by its own steps. -/
lemma Core.Open.own {s t : Core} {act : Act} {c : CrId} {n : NodeRef} (hopen : s.Open n) (h : Inv s)
    (hc : n.cr = c) (hwork : s.work (.co c) = []) (hstep : Step s ⟨.co c, act⟩ t) : t.Open n := by
  have htrap := hopen.trapped
  have hwait := htrap.waitOn
  have hbusy := hopen.busy
  have hst := hopen.status
  subst hc
  -- the coroutine goes on to `pc'` and touches no node
  have on : ∀ {pc pc' : Pc}, s.pc (.co n.cr) = pc → pc'.waitOn ≠ none → pc'.leaving = false →
      (∀ c i, n = .sel c i → s.heap.waits.winner n.cr = some i → pc.Behind i → pc'.Behind i) →
      (s.setPc (.co n.cr) pc').Open n := by
    intro pc pc' hpc hwait' hleave hsel
    rw [hpc] at htrap
    exact hopen.stay ⟨rfl, rfl⟩ (by simpa using htrap.move hwait' hleave hsel)
  cases hstep with
  | «local» _ hl => exact absurd (hl.calm (h.ok _)).1.1 hwait
  | @crit _ op k hpc _ _ =>
    have hok := h.ok (.co n.cr)
    rw [hpc] at htrap hok
    obtain ⟨heq, hnext⟩ := htrap.crit (h := s.heap) (a := .co n.cr) hok
    have heff := (exec_effect h.wf (.co n.cr) op).granted
    refine hopen.stay ?_ ?_
    · simpa [heq] using hopen.kept h.wf heff
    · simpa [heq] using trapped_granted heff hnext
  | testWaiting hpc _ _ | testDecided hpc _ _ | suspend hpc _ =>
    exact on hpc (by simp [Pc.waitOn]) rfl fun _ _ _ _ => id
  | decided hpc _ hfree _ =>
    rw [hpc] at htrap
    cases n with
    | wq c => exact absurd (hbusy.symm.trans hfree) (by simp)
    | sel c i => exact absurd htrap.2 id
  | wake hw | unlock hw | fin hw =>
    rw [hwork] at hw
    cases hw
  | sleepPark hpc _ | flip hpc _ _ _ | selTry hpc _ _ _ | selInit hpc _ =>
    rw [hpc] at hwait
    exact absurd rfl hwait
  | selReady hpc _ _ _ _ => exact on hpc (by simp [Pc.waitOn]) rfl fun _ _ _ _ _ => trivial
  | @selPark _ ops j k hpc _ _ _ _ =>
    rw [hpc] at htrap
    have hne : n ≠ .sel n.cr j := by
      intro heq
      rw [heq] at htrap
      exact absurd htrap.2 (lt_irrefl j)
    refine hopen.stay (by simp [Waits.park, hne]) ?_
    have hmove : (Pc.selReg ops (j + 1)).Trapped (s.heap.waits.winner n.cr) n :=
      htrap.move (by simp [Pc.waitOn]) rfl fun _ _ _ _ hi => Nat.lt_succ_of_lt hi
    simpa [Waits.park] using hmove
  | selRegEnd hpc _ | selWaiting hpc _ _ _ | selDecided hpc _ _ | selSuspend hpc _ =>
    exact on hpc (by simp [Pc.waitOn]) rfl fun _ _ _ _ _ => trivial
  | @selUnreg _ ops r j rescan k hpc _ _ _ _ =>
    rw [hpc] at htrap
    have hmove : (Pc.selUnreg ops r (j + 1) rescan).Trapped (s.heap.waits.winner n.cr) n :=
      htrap.move (by simp [Pc.waitOn]) rfl fun _ _ _ _ _ => trivial
    obtain ⟨-, hself, hother, hwinner, -⟩ := Waits.unregister_spec h.wf (.sel n.cr j)
    refine hopen.stay ?_ (by simpa [hwinner] using hmove)
    by_cases hn : n = .sel n.cr j
    · have hsame : (s.heap.waits.unregister (.sel n.cr j)).node n =
          { s.heap.waits.node n with waitList := none } :=
        (congrArg _ hn).trans (hself.trans (by rw [← hn]))
      simp [hsame]
    · simp [hother n hn]
  | selLeave hpc _ _ => exact on hpc (by simp [Pc.waitOn]) rfl fun _ _ _ hi _ => hi
  | selAgain _ hpc _ hnone hwaiting =>
    rw [hpc] at htrap
    cases n with
    | wq c => exact absurd hwaiting hst
    | sel c i => exact absurd (htrap.1.symm.trans hnone) (by simp)
  | @selRetry _ ops i rest k hpc _ _ _ =>
    rw [hpc] at htrap
    have heff := (exec_effect h.wf (.co n.cr) k.op).granted
    refine hopen.stay (by simpa using hopen.kept h.wf heff) ?_
    have hmove : ∀ pc : Pc, pc.waitOn ≠ none → pc.leaving = false → pc.Trapped (s.heap.waits.winner n.cr) n :=
      fun pc hw hl => htrap.move hw hl fun _ _ _ _ hi => absurd hi id
    refine trapped_granted heff ?_
    simp only [Core.setWork_pc, Core.setPc_pc_self]
    split
    · exact hmove _ (by simp [Pc.waitOn]) rfl
    · exact hmove _ (by simp [Pc.waitOn]) rfl
  | selRescanEnd hpc _ => exact on hpc (by simp [Pc.waitOn]) rfl fun _ _ _ _ => False.elim
  | @selSync _ ops win scan hpc _ hfree =>
    refine on hpc (by simp [Pc.waitOn]) rfl fun c i hn _ hi => ?_
    subst hn
    exact absurd (hbusy.symm.trans (hfree i hi)) (by simp)
  | selSync2 hpc _ hfree =>
    rw [hpc] at htrap
    cases n with
    | wq c => exact absurd (hbusy.symm.trans hfree) (by simp)
    | sel c i => exact absurd htrap.2 id
  | selWon hpc _ | selScanned hpc _ | selFailed hpc _ _ =>
    rw [hpc] at htrap
    cases n with
    | wq c => exact absurd htrap.2 (by simp [Pc.leaving])
    | sel c i => exact absurd htrap.2 id

/-! ## The deciders -/

/-- Whoever is parked on a list is in front of its `s_wait_decider_sync`. -/
lemma Inv.trapped_of_mem {s : Core} (h : Inv s) {n : NodeRef} {l : ListId} (hl : n ∈ s.heap.waits.queue l)
    {win : Option ℕ} (hwin : ∀ c i, n = .sel c i → win = some i) : (s.pc (.co n.cr)).Trapped win n := by
  have hlist := (h.wf.mem_iff l n).mp hl
  cases n with
  | wq c =>
    obtain ⟨hout, hwait, -⟩ := h.node c
    have hin : (s.pc (.co c)).waitOn ≠ none := by
      intro hnone
      rw [(hout hnone).1] at hlist
      cases hlist
    refine ⟨hin, Bool.eq_false_iff.mpr fun hleave => ?_⟩
    rcases hwait none (Pc.waitOn_of_leaving hleave) with ⟨-, hn⟩ | ⟨-, hn⟩ <;>
      exact absurd (hn.symm.trans hlist) (by simp)
  | sel c i => exact ⟨hwin c i rfl, (h.sel c i l hlist).behind⟩

/-- A coroutine is parked on the lists through one of its nodes, unless through those of an undecided select. -/
lemma Inv.eq_of_cr {s : Core} (h : Inv s) {st : Code} {w : Waits} {G : List NodeRef}
    (hg : s.heap.waits.Granted st w G) {n m : NodeRef} (hn : n ∈ G) (hm : m ∈ G) (hcr : n.cr = m.cr) : n = m := by
  -- the embedded node of a coroutine in a select is on no list
  have mixed : ∀ {c i}, .wq c ∈ G → .sel c i ∈ G → False := by
    intro c i hwq hsel
    obtain ⟨l, hl⟩ := hg.live _ hwq
    obtain ⟨l', hl'⟩ := hg.live _ hsel
    have hlinked := h.sel c i l' ((h.wf.mem_iff l' _).mp hl')
    have hlist := (h.wf.mem_iff l _).mp hl
    rcases (h.node c).wait none hlinked.waitOn with ⟨-, hn⟩ | ⟨-, hn⟩ <;>
      exact absurd (hn.symm.trans hlist) (by simp)
  cases n with
  | wq c =>
    cases m with
    | wq c' =>
      obtain rfl : c = c' := hcr
      rfl
    | sel c' i =>
      obtain rfl : c = c' := hcr
      exact (mixed hn hm).elim
  | sel c i =>
    cases m with
    | wq c' =>
      obtain rfl : c = c' := hcr
      exact (mixed hm hn).elim
    | sel c' j =>
      obtain rfl : c = c' := hcr
      rw [Option.some.inj ((hg.sel c i hn).2.symm.trans (hg.sel c j hm).2)]

/-- What a critical section leaves to do is in order, and it ends the windows it opens. -/
lemma Effect.work_spec {s : Core} (h : Inv s) {st : Code} {lk : LockId} {h' : Heap} {out : Out}
    (heff : Effect st lk s.heap h' out) :
    (out.work lk).Pairwise Work.Before ∧ ∀ n, .fin n ∈ out.work lk ↔ n ∈ out.granted := by
  have hfin : (out.chain.map Work.fin).Pairwise Work.Before := by
    rw [List.pairwise_map]
    refine (heff.chain.nodup_iff.mpr heff.granted.nodup).pairwise_of_forall_ne fun n hn m hm hne => ?_
    refine ⟨m, rfl, fun hcr => hne ?_⟩
    exact h.eq_of_cr heff.granted (heff.chain.subset hn) (heff.chain.subset hm) hcr.symm
  have hwake : ∀ ws : List Work, ws.Pairwise Work.Before →
      (out.granted.map Work.wake ++ ws).Pairwise Work.Before := by
    intro ws hws
    refine List.pairwise_append.mpr ⟨?_, hws, ?_⟩
    · rw [List.pairwise_map]
      exact List.pairwise_of_forall fun _ _ => trivial
    · intro x hx y _
      obtain ⟨n, -, rfl⟩ := List.mem_map.mp hx
      trivial
  unfold Out.work
  split
  · refine ⟨hwake _ (List.pairwise_cons.mpr ⟨fun _ _ => trivial, hfin⟩), fun n => ?_⟩
    simp [heff.chain.mem_iff]
  · refine ⟨hwake _ hfin, fun n => ?_⟩
    simp [heff.chain.mem_iff]

/-- The windows that a critical section opens. -/
lemma Effect.opens {s t : Core} (h : Inv s) {st : Code} {lk : LockId} {h' : Heap} {out : Out}
    (heff : Effect st lk s.heap h' out) (hwaits : t.heap.waits = h'.waits) {n : NodeRef} (hn : n ∈ out.granted)
    (hpc : ∀ win, (s.pc (.co n.cr)).Trapped win n → (t.pc (.co n.cr)).Trapped win n) : t.Open n := by
  obtain ⟨hst, hbusy, -⟩ := heff.granted.granted n hn
  obtain ⟨l, hl⟩ := heff.granted.live n hn
  refine ⟨by rw [hwaits, hbusy], by simp [hwaits, hst], hpc _ (h.trapped_of_mem hl fun c i hsel => ?_)⟩
  subst hsel
  rw [hwaits]
  exact (heff.granted.sel c i hn).2

lemma Case.lockId_op (k : Case) : k.op.lockId = .chan k.ch := by
  unfold Case.op
  split <;> rfl

/-- The windows that a step opens.  `s_waiter_wake` must not come to a select that is past its last
`s_wait_decider_sync`. -/
lemma step_opens {s t : Core} {a : Ctx} {act : Act} (h : Inv s) (hstep : Step s ⟨a, act⟩ t)
    (hflip : ∀ c st, act = .flip c st → (s.pc (.co c)).leaving = false) :
    act.leaves.Pairwise Work.Before ∧ ∀ n, .fin n ∈ act.leaves → n ∈ act.decides ∧ t.Open n := by
  -- a select that tries a case
  have tries : ∀ {k : Case} {i : ℕ} {t : Core}, t.heap = (exec s.heap a k.op).1 →
      (∀ n win, (s.pc (.co n.cr)).Trapped win n → (t.pc (.co n.cr)).Trapped win n) →
      (Act.selTry i k (exec s.heap a k.op).2).leaves.Pairwise Work.Before ∧
        ∀ n, .fin n ∈ (Act.selTry i k (exec s.heap a k.op).2).leaves →
          n ∈ (exec s.heap a k.op).2.granted ∧ t.Open n := by
    intro k i t hheap hpc
    have heff := exec_effect h.wf a k.op
    obtain ⟨horder, hfin⟩ := heff.work_spec h
    rw [k.lockId_op] at horder hfin
    refine ⟨horder, fun n hn => ?_⟩
    have hgranted := (hfin n).mp hn
    exact ⟨hgranted, heff.opens h (by rw [hheap]) hgranted (hpc n)⟩
  cases hstep with
  | «local» _ hl =>
    rw [hl.leaves_nil]
    simp
  | @crit _ op k hpc _ _ =>
    have heff := exec_effect h.wf a op
    obtain ⟨horder, hfin⟩ := heff.work_spec h
    refine ⟨horder, fun n hn => ?_⟩
    have hgranted := (hfin n).mp hn
    have hres : (critical s.heap a op).1 = (exec s.heap a op).1 := by
      unfold critical Heap.parkAs
      cases hres : (exec s.heap a op).2.res with
      | ret code => rfl
      | park l data writer =>
        rw [(heff.park _ _ _ hres).1] at hgranted
        cases hgranted
    refine ⟨hgranted, heff.opens h (by simp [hres]) hgranted fun win htrap => ?_⟩
    by_cases ha : a = .co n.cr
    · subst ha
      have hok := h.ok (.co n.cr)
      rw [hpc] at htrap hok
      simpa using (htrap.crit (h := s.heap) (a := .co n.cr) hok).2
    · simpa [Ne.symm ha] using htrap
  | @selTry _ ops i rest k hpc _ _ _ =>
    refine tries rfl fun n win htrap => ?_
    by_cases ha : a = .co n.cr
    · subst ha
      rw [hpc] at htrap
      exact absurd rfl htrap.waitOn
    · simpa [Ne.symm ha] using htrap
  | @selRetry c ops i rest k hpc _ _ _ =>
    refine tries rfl fun n win htrap => ?_
    by_cases ha : c = n.cr
    · subst ha
      rw [hpc] at htrap
      refine htrap.move ?_ ?_ fun _ _ _ _ hi => absurd hi id
      all_goals
        simp only [Core.setWork_pc, Core.setPc_pc_self]
        split <;> simp [Pc.waitOn, Pc.leaving]
    · simpa [Ne.symm ha] using htrap
  | @flip _ f c lk w hpc _ _ hdec =>
    obtain ⟨hwaiting, -, hself, -, -, -⟩ := Waits.decide_spec h.wf hdec
    refine ⟨by simp [Act.leaves, Work.Before], fun n hn => ?_⟩
    obtain rfl : n = .wq c := by simpa [Act.leaves] using hn
    have hwait : (s.pc (.co c)).waitOn ≠ none := fun hnone => ((h.node c).out hnone).2 hwaiting
    refine ⟨by simp [Act.decides], by simp [hself], by simp [hself], ?_⟩
    by_cases ha : a = .co c
    · subst ha
      rw [hpc] at hwait
      exact absurd rfl hwait
    · have hpc' : (s.pc (.co c)).Trapped (w.winner c) (.wq c) := ⟨hwait, hflip c _ rfl⟩
      simpa [NodeRef.cr, Ne.symm ha] using hpc'
  | sleepFire => simp [Act.leaves]
  | _ => simp [Act.leaves]

/-- `waker_busy` is set by whoever is going to clear it. -/
lemma step_busy {s t : Core} {a : Ctx} {act : Act} (h : Inv s) (hstep : Step s ⟨a, act⟩ t) {n : NodeRef}
    (hbusy : (t.heap.waits.node n).wakerBusy = true) :
    (s.heap.waits.node n).wakerBusy = true ∨ .fin n ∈ act.leaves := by
  -- a granter sets the flag of what it grants
  have grants : ∀ op, ((exec s.heap a op).1.waits.node n).wakerBusy = true →
      (s.heap.waits.node n).wakerBusy = true ∨ .fin n ∈ (exec s.heap a op).2.work op.lockId := by
    intro op hb
    have heff := exec_effect h.wf a op
    by_cases hn : n ∈ (exec s.heap a op).2.granted
    · exact Or.inr (((heff.work_spec h).2 n).mpr hn)
    · exact Or.inl (heff.granted.busy_of_not_mem hn ▸ hb)
  -- a coroutine changes one of its nodes and does not set the flag
  have own : ∀ {m : NodeRef} {x : Node} {w : Waits}, w = s.heap.waits.setNode m x →
      (x.wakerBusy = true → (s.heap.waits.node m).wakerBusy = true) → (w.node n).wakerBusy = true →
      (s.heap.waits.node n).wakerBusy = true ∨ .fin n ∈ act.leaves := by
    rintro m x w rfl hx hb
    by_cases hn : n = m
    · subst hn
      exact Or.inl (hx (by simpa using hb))
    · exact Or.inl (by simpa [hn] using hb)
  cases hstep with
  | «local» => exact Or.inl hbusy
  | @crit _ op k _ _ _ =>
    refine grants op ?_
    cases hres : (exec s.heap a op).2.res with
    | ret code => simpa [critical, hres, Heap.parkAs] using hbusy
    | park l data writer =>
      cases a with
      | co c =>
        by_cases hn : n = .wq c
        · subst hn
          simp [critical, hres, Heap.parkAs, Waits.park] at hbusy
        · simpa [critical, hres, Heap.parkAs, Waits.park, hn] using hbusy
      | sched w => simpa [critical, hres, Heap.parkAs] using hbusy
      | ext f => simpa [critical, hres, Heap.parkAs] using hbusy
  | @selTry _ ops i rest k _ _ _ _ =>
    rw [Act.leaves, ← k.lockId_op]
    exact grants k.op hbusy
  | @selRetry c ops i rest k _ _ _ _ =>
    rw [Act.leaves, ← k.lockId_op]
    exact grants k.op hbusy
  | @flip _ f c lk w _ _ _ hdec =>
    obtain ⟨-, -, -, hother, -, -⟩ := Waits.decide_spec h.wf hdec
    by_cases hn : n = .wq c
    · exact Or.inr (by simp [hn, Act.leaves])
    · exact Or.inl (by simpa [hother n hn] using hbusy)
  | @selPark c ops i k _ _ _ _ _ =>
    by_cases hn : n = .sel c i
    · subst hn
      simp [Waits.park] at hbusy
    · exact Or.inl (by simpa [Waits.park, hn] using hbusy)
  | @selUnreg c ops r j rescan k _ _ _ _ _ =>
    obtain ⟨-, hself, hother, -, -⟩ := Waits.unregister_spec h.wf (.sel c j)
    by_cases hn : n = .sel c j
    · subst hn
      exact Or.inl (by simpa [hself] using hbusy)
    · exact Or.inl (by simpa [hother n hn] using hbusy)
  | fin => exact own rfl (by simp) hbusy
  | sleepPark | selInit => exact own rfl (by simp) hbusy
  | decided | sleepFire | selWon | selScanned | selFailed => exact own rfl (by exact id) hbusy
  | _ => exact Or.inl hbusy

/-! ## The invariant -/

/-- A window stays open while others act. -/
lemma Core.Open.other {s t : Core} {e : Event} {n : NodeRef} (hopen : s.Open n) (hf : Footprint s e t)
    (hne : e.ctx ≠ .co n.cr) (hfin : e.act ≠ .fin n) : t.Open n := by
  have hn : n ∉ e.act.decides := fun hn => hopen.status (hf.waits.decided n hn).1
  refine ⟨hf.waits.busy n hne hfin hopen.busy, ?_, ?_⟩
  · rw [(hf.waits.kept n hn hne).1]
    exact hopen.status
  · have htrap := hopen.trapped
    rw [hf.pc _ (Ne.symm hne)]
    cases n with
    | wq c => exact htrap
    | sel c i =>
      rcases hf.waits.winner c hne with ⟨heq, -⟩ | ⟨hnone, -⟩
      · exact ⟨heq.trans htrap.1, htrap.2⟩
      · exact absurd (htrap.1.symm.trans hnone) (by simp)

/-- Work for others does not touch a node except to end its window. -/
lemma step_work_waits {s t : Core} {a : Ctx} {x : Work} (h : Step s ⟨a, x.act⟩ t) :
    t.heap.waits.winner = s.heap.waits.winner ∧
      ∀ n, x ≠ .fin n → t.heap.waits.node n = s.heap.waits.node n := by
  generalize hact : x.act = act at h
  cases h with
  | «local» _ hl => exact absurd hact.symm (hl.not_work x)
  | wake | unlock => exact ⟨rfl, fun _ _ => rfl⟩
  | @fin _ m rest _ =>
    obtain rfl : x = .fin m := by cases x <;> simp_all [Work.act]
    refine ⟨rfl, fun n hn => ?_⟩
    have hne : n ≠ m := fun heq => hn (by rw [heq])
    simp [Waits.decideEnd, hne]
  | _ => cases x <;> cases hact

/-- The end of a window clears `waker_busy`. -/
lemma step_fin_busy {s t : Core} {a : Ctx} {n : NodeRef} (h : Step s ⟨a, .fin n⟩ t) :
    (t.heap.waits.node n).wakerBusy = false := by
  cases h with
  | «local» _ hl => exact absurd rfl (hl.not_work (.fin n))
  | fin => simp [Waits.decideEnd]

/-- Every step keeps the windows. -/
theorem windowInv_step {s t : Core} {a : Ctx} {act : Act} (hI : WindowInv s) (h : Inv s)
    (hstep : Step s ⟨a, act⟩ t) (hflip : ∀ c st, act = .flip c st → (s.pc (.co c)).leaving = false) :
    WindowInv t := by
  have hf := step_footprint h hstep
  rcases step_work hstep with ⟨x, hwork, rfl, hpc⟩ | ⟨hwork, hleaves, hnot⟩
  · -- a decider does its next piece of work
    obtain ⟨hwinner, hnode⟩ := step_work_waits hstep
    have hsub : ∀ b y, y ∈ t.work b → y ∈ s.work b := by
      intro b y hy
      by_cases hb : b = a
      · subst hb
        rw [hwork]
        exact List.mem_cons_of_mem _ hy
      · rwa [hf.work b hb] at hy
    have horder := hI.order a
    rw [hwork, List.pairwise_cons] at horder
    refine ⟨fun b n hn => ?_, fun n hn => ?_,
      fun b b' n hn hn' => hI.unique b b' n (hsub b _ hn) (hsub b' _ hn'), fun b => ?_⟩
    · have hx : x ≠ .fin n := by
        rintro rfl
        obtain rfl : b = a := hI.unique b a n (hsub b _ hn) (by rw [hwork]; exact List.mem_cons_self)
        obtain ⟨m, hm, hcr⟩ := horder.1 _ hn
        cases hm
        exact hcr rfl
      have hopen := hI.isOpen b n (hsub b _ hn)
      refine hopen.stay (by simp [hnode n hx]) ?_
      rw [hpc, hwinner]
      exact hopen.trapped
    · have hbusy : (s.heap.waits.node n).wakerBusy = true := by
        refine (step_busy h hstep hn).resolve_right ?_
        cases x <;> simp [Work.act, Act.leaves]
      obtain ⟨b, hb⟩ := hI.ended n hbusy
      refine ⟨b, ?_⟩
      by_cases hba : b = a
      · subst hba
        rw [hwork] at hb
        refine (List.mem_cons.mp hb).resolve_left ?_
        rintro rfl
        rw [step_fin_busy hstep] at hn
        cases hn
      · rwa [hf.work b hba]
    · by_cases hb : b = a
      · subst hb
        exact horder.2
      · rw [hf.work b hb]
        exact hI.order b
  · -- the context goes on, and leaves what it has decided to be done
    obtain ⟨horder, hopens⟩ := step_opens h hstep hflip
    have hnew : ∀ {b n}, .fin n ∈ t.work a → .fin n ∈ s.work b → False := by
      intro b n hn hb
      rw [hleaves] at hn
      exact (hI.isOpen b n hb).status (hf.waits.decided n (hopens n hn).1).1
    refine ⟨fun b n hn => ?_, fun n hn => ?_, fun b b' n hn hn' => ?_, fun b => ?_⟩
    · by_cases hb : b = a
      · subst hb
        rw [hleaves] at hn
        exact (hopens n hn).2
      · rw [hf.work b hb] at hn
        have hopen := hI.isOpen b n hn
        by_cases ha : a = .co n.cr
        · subst ha
          exact hopen.own h rfl hwork hstep
        · exact hopen.other hf ha (hnot (.fin n))
    · rcases step_busy h hstep hn with hbusy | hnew
      · obtain ⟨b, hb⟩ := hI.ended n hbusy
        refine ⟨b, ?_⟩
        by_cases hba : b = a
        · rw [hba, hwork] at hb
          cases hb
        · rwa [hf.work b hba]
      · exact ⟨a, by rwa [hleaves]⟩
    · by_cases hb : b = a
      · by_cases hb' : b' = a
        · exact hb.trans hb'.symm
        · subst hb
          rw [hf.work b' hb'] at hn'
          exact (hnew hn hn').elim
      · rw [hf.work b hb] at hn
        by_cases hb' : b' = a
        · subst hb'
          exact (hnew hn' hn).elim
        · rw [hf.work b' hb'] at hn'
          exact hI.unique b b' n hn hn'
    · by_cases hb : b = a
      · subst hb
        rw [hleaves]
        exact horder
      · rw [hf.work b hb]
        exact hI.order b

end Suspenders.Wait
