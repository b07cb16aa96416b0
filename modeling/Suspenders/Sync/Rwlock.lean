import Suspenders.Sync.Owner
import Mathlib.Data.List.TakeWhile

/-!
# Read-write locks

A read-write lock counts the readers that hold it and remembers whether a writer does; one list holds waiting
readers and writers together.  Unlocking hands a free lock to the first waiter if that is a writer, and to all
readers up to the first writer otherwise, before any of them runs.
-/

namespace Suspenders.Sync

open Lib Wait

/-! ## Critical sections -/

/-- The lock after `suspenders_rwlock_unlock` has taken its caller off. -/
def rwReleased (x : RwLock) : RwLock :=
  if x.writer then { x with writer := false } else { x with readers := x.readers - 1 }

/-- Nobody holds the lock. -/
def RwFree (x : RwLock) : Prop := x.readers = 0 ∧ x.writer = false

/-- What a critical section of `a` does to read-write lock `r`. -/
inductive RwMove (h : Heap) (a : Ctx) (r : ℕ) (op : Op) (h' : Heap) (out : Out) : Prop
  /-- Nothing: it is about something else, or the attempt has failed. -/
  | keep : h'.rw r = h.rw r → h'.waits.queue (.rwlock r) = h.waits.queue (.rwlock r) →
      (op.lockId = .rwlock r → out.granted = [] ∧ ∃ code, out.res = .ret code ∧ code ≠ .ok) →
      (op = .rwUnlock r → RwFree (h.rw r)) → RwMove h a r op h' out
  /-- A reader gets in. -/
  | read : (h.rw r).writer = false → h.waits.queue (.rwlock r) = [] →
      h'.rw r = { h.rw r with readers := (h.rw r).readers + 1 } → h'.waits.queue (.rwlock r) = [] →
      op = .rdlock r ∨ op = .tryrdlock r → out.res = .ret .ok → out.granted = [] →
      RwMove h a r op h' out
  /-- A writer gets in. -/
  | write : RwFree (h.rw r) → h'.rw r = { h.rw r with writer := true } →
      h'.waits.queue (.rwlock r) = h.waits.queue (.rwlock r) →
      op = .wrlock r ∨ op = .trywrlock r → out.res = .ret .ok → out.granted = [] →
      RwMove h a r op h' out
  /-- The caller parks, as a reader or as a writer. -/
  | park {c : CrId} {writer : Bool} : a = .co c → op = (if writer then .wrlock r else .rdlock r) →
      h.waits.queue (.rwlock r) ≠ [] ∨ (h.rw r).writer = true ∨ (writer = true ∧ 0 < (h.rw r).readers) →
      h'.rw r = h.rw r → h'.waits.queue (.rwlock r) = h.waits.queue (.rwlock r) ++ [.wq c] →
      (h'.waits.node (.wq c)).writer = writer → out.res = .park (.rwlock r) [] writer →
      out.granted = [] → RwMove h a r op h' out
  /-- A holder leaves, and nobody is let in: others hold the lock, or nobody waits. -/
  | leave : op = .rwUnlock r → ¬ RwFree (h.rw r) → h'.rw r = rwReleased (h.rw r) →
      h'.waits.queue (.rwlock r) = h.waits.queue (.rwlock r) →
      ¬ RwFree (rwReleased (h.rw r)) ∨ h.waits.queue (.rwlock r) = [] → out.granted = [] →
      RwMove h a r op h' out
  /-- The last holder leaves, and the first waiter is a writer. -/
  | passWriter {n : NodeRef} {rest : List NodeRef} : op = .rwUnlock r → ¬ RwFree (h.rw r) →
      RwFree (rwReleased (h.rw r)) → h.waits.queue (.rwlock r) = n :: rest → (h.waits.node n).writer = true →
      h'.rw r = { rwReleased (h.rw r) with writer := true } → h'.waits.queue (.rwlock r) = rest →
      out.granted = [n] → RwMove h a r op h' out
  /-- The last holder leaves, and the first waiters are readers. -/
  | passReaders {readers left : List NodeRef} : op = .rwUnlock r → ¬ RwFree (h.rw r) →
      RwFree (rwReleased (h.rw r)) → h.waits.queue (.rwlock r) = readers ++ left → readers ≠ [] →
      (∀ n ∈ readers, (h.waits.node n).writer = false) →
      (∀ n ∈ left.head?, (h.waits.node n).writer = true) →
      h'.rw r = { rwReleased (h.rw r) with readers := readers.length } →
      h'.waits.queue (.rwlock r) = left → out.granted = readers → RwMove h a r op h' out

/-- Critical sections of other structures leave a read-write lock alone. -/
lemma exec_rw (h : Heap) (a : Ctx) (op : Op) {r : ℕ} (hop : op.lockId ≠ .rwlock r) :
    (exec h a op).1.rw r = h.rw r := by
  have hne : ∀ {r' : ℕ}, LockId.rwlock r' ≠ .rwlock r → r ≠ r' := by
    rintro r' hr rfl
    exact hr rfl
  cases op with
  | rdlock r' | tryrdlock r' | wrlock r' | trywrlock r' =>
    simp only [exec, rwlockRdlock, rwlockTryrdlock, rwlockWrlock, rwlockTrywrlock]
    split
    · simp [hne hop]
    · rfl
  | rwUnlock r' =>
    simp only [exec, rwlockUnlock, rwlockGrant]
    repeat' split
    all_goals simp [hne hop]
  | send ch val t =>
    simp only [exec, chanSendImpl]
    split <;> (try split) <;> rfl
  | recv ch t =>
    simp only [exec, chanRecvImpl]
    split <;> (try split) <;> rfl
  | close ch =>
    simp only [exec, chanCloseImpl]
    split <;> rfl
  | _ =>
    simp only [exec, mutexLock, mutexTrylock, mutexLockRaw, mutexUnlock, condSignal, condBroadcast,
      waitgroupAdd, waitgroupWait]
    repeat' split
    all_goals rfl

/-- Unlocking takes the caller off and then lets waiters in. -/
lemma rwlockUnlock_eq {h : Heap} {r : ℕ} (hheld : ¬ RwFree (h.rw r)) :
    rwlockUnlock h r = rwlockGrant { h with rw := Function.update h.rw r (rwReleased (h.rw r)) } r := by
  unfold rwlockUnlock rwReleased
  by_cases hw : (h.rw r).writer = true
  · simp [hw]
  · have hr : 0 < (h.rw r).readers := by
      by_contra hr
      exact hheld ⟨by omega, by simpa using hw⟩
    simp [hw, hr]

/-- The unlock of a read-write lock. -/
lemma critical_rwUnlock (h : Heap) (a : Ctx) (r : ℕ) :
    RwMove h a r (.rwUnlock r) (critical h a (.rwUnlock r)).1 (critical h a (.rwUnlock r)).2 := by
  by_cases hfree : RwFree (h.rw r)
  · have hfail : rwlockUnlock h r = (h, .ret .perm) := by
      unfold rwlockUnlock
      simp [hfree.1, hfree.2]
    exact .keep (by simp [critical, exec, hfail]) (by simp [critical, exec, hfail, Out.ret, Heap.parkAs])
      (fun _ => by simp [critical, exec, hfail, Out.ret]) fun _ => hfree
  · have hexec : critical h a (.rwUnlock r) =
        rwlockGrant { h with rw := Function.update h.rw r (rwReleased (h.rw r)) } r := by
      have hret : ∀ h : Heap, ∃ code, (rwlockGrant h r).2.res = .ret code := by
        intro h
        unfold rwlockGrant
        repeat' split
        all_goals exact ⟨.ok, rfl⟩
      unfold critical
      rw [show exec h a (.rwUnlock r) = rwlockUnlock h r from rfl, rwlockUnlock_eq hfree]
      obtain ⟨code, hcode⟩ := hret { h with rw := Function.update h.rw r (rwReleased (h.rw r)) }
      rw [hcode]
      rfl
    rw [hexec]
    unfold rwlockGrant
    simp only [Function.update_self]
    by_cases hrel : RwFree (rwReleased (h.rw r))
    · rw [if_pos (show _ ∧ _ from hrel)]
      cases hq : h.waits.queue (.rwlock r) with
      | nil => exact .leave rfl hfree (by simp) (by simp) (Or.inr hq) rfl
      | cons n rest =>
        by_cases hn : (h.waits.node n).writer = true
        · simp only [hn, if_true]
          exact .passWriter rfl hfree hrel hq hn (by simp) (by simp) rfl
        · simp only [hn, Bool.false_eq_true, if_false]
          refine @RwMove.passReaders _ _ _ _ _ _ ((n :: rest).takeWhile fun n => !(h.waits.node n).writer)
            ((n :: rest).dropWhile fun n => !(h.waits.node n).writer) rfl hfree hrel
            (hq.trans List.takeWhile_append_dropWhile.symm) (by simp [hn]) (fun n' hn' => ?_)
            (fun n' hn' => ?_) (by simp) (by simp) rfl
          · simpa using List.mem_takeWhile_imp hn'
          · have hhead := List.head?_dropWhile_not (fun n => !(h.waits.node n).writer) (n :: rest)
            rw [Option.mem_def.mp hn'] at hhead
            simpa using hhead
    · rw [if_neg (show ¬ (_ ∧ _) from hrel)]
      exact .leave rfl hfree (by simp) rfl (Or.inl hrel) rfl

/-- What a call's critical section does to read-write lock `r`. -/
lemma critical_rw {s : Core} (hinv : Inv s) {a : Ctx} {op : Op} {k : Frame}
    (hpc : s.pc a = .cs op k) (r : ℕ) :
    RwMove s.heap a r op (critical s.heap a op).1 (critical s.heap a op).2 := by
  have hco : op.NeedsCo → ∃ c, a = .co c := needsCo hinv hpc
  by_cases hop : op.lockId = .rwlock r
  · cases op with
    | rdlock r' =>
      obtain rfl : r' = r := by simpa [Op.lockId] using hop
      obtain ⟨c, rfl⟩ := hco trivial
      by_cases hin : (s.heap.rw r').writer = false ∧ s.heap.waits.queue (.rwlock r') = []
      · have hexec : rwlockRdlock s.heap r' = _ := if_pos hin
        exact .read hin.1 hin.2 (by simp [critical, exec, hexec])
          (by simp [critical, exec, hexec, Out.ret, Heap.parkAs, hin.2]) (Or.inl rfl)
          (by simp [critical, exec, hexec, Out.ret]) (by simp [critical, exec, hexec, Out.ret])
      · have hexec : rwlockRdlock s.heap r' = _ := if_neg hin
        refine @RwMove.park _ _ _ _ _ _ c false rfl rfl ?_ (by simp [critical, exec, hexec])
          (by simp [critical, exec, hexec, Out.park, Heap.parkAs, Waits.park])
          (by simp [critical, exec, hexec, Out.park, Heap.parkAs, Waits.park])
          (by simp [critical, exec, hexec, Out.park]) (by simp [critical, exec, hexec, Out.park])
        by_cases hw : (s.heap.rw r').writer = true
        · exact Or.inr (Or.inl hw)
        · exact Or.inl fun hnil => hin ⟨by simpa using hw, hnil⟩
    | tryrdlock r' =>
      obtain rfl : r' = r := by simpa [Op.lockId] using hop
      by_cases hin : (s.heap.rw r').writer = false ∧ s.heap.waits.queue (.rwlock r') = []
      · have hexec : rwlockTryrdlock s.heap r' = _ := if_pos hin
        exact .read hin.1 hin.2 (by simp [critical, exec, hexec])
          (by simp [critical, exec, hexec, Out.ret, Heap.parkAs, hin.2]) (Or.inr rfl)
          (by simp [critical, exec, hexec, Out.ret]) (by simp [critical, exec, hexec, Out.ret])
      · have hexec : rwlockTryrdlock s.heap r' = _ := if_neg hin
        exact .keep (by simp [critical, exec, hexec])
          (by simp [critical, exec, hexec, Out.ret, Heap.parkAs])
          (fun _ => by simp [critical, exec, hexec, Out.ret]) (by simp)
    | wrlock r' =>
      obtain rfl : r' = r := by simpa [Op.lockId] using hop
      obtain ⟨c, rfl⟩ := hco trivial
      by_cases hin : (s.heap.rw r').writer = false ∧ (s.heap.rw r').readers = 0 ∧
          s.heap.waits.queue (.rwlock r') = []
      · have hexec : rwlockWrlock s.heap r' = _ := if_pos hin
        exact .write ⟨hin.2.1, hin.1⟩ (by simp [critical, exec, hexec])
          (by simp [critical, exec, hexec, Out.ret, Heap.parkAs]) (Or.inl rfl)
          (by simp [critical, exec, hexec, Out.ret]) (by simp [critical, exec, hexec, Out.ret])
      · have hexec : rwlockWrlock s.heap r' = _ := if_neg hin
        refine @RwMove.park _ _ _ _ _ _ c true rfl rfl ?_ (by simp [critical, exec, hexec])
          (by simp [critical, exec, hexec, Out.park, Heap.parkAs, Waits.park])
          (by simp [critical, exec, hexec, Out.park, Heap.parkAs, Waits.park])
          (by simp [critical, exec, hexec, Out.park]) (by simp [critical, exec, hexec, Out.park])
        by_cases hw : (s.heap.rw r').writer = true
        · exact Or.inr (Or.inl hw)
        · by_cases hr : 0 < (s.heap.rw r').readers
          · exact Or.inr (Or.inr ⟨rfl, hr⟩)
          · exact Or.inl fun hnil => hin ⟨by simpa using hw, by omega, hnil⟩
    | trywrlock r' =>
      obtain rfl : r' = r := by simpa [Op.lockId] using hop
      by_cases hin : (s.heap.rw r').writer = false ∧ (s.heap.rw r').readers = 0
      · have hexec : rwlockTrywrlock s.heap r' = _ := if_pos hin
        exact .write ⟨hin.2, hin.1⟩ (by simp [critical, exec, hexec])
          (by simp [critical, exec, hexec, Out.ret, Heap.parkAs]) (Or.inr rfl)
          (by simp [critical, exec, hexec, Out.ret]) (by simp [critical, exec, hexec, Out.ret])
      · have hexec : rwlockTrywrlock s.heap r' = _ := if_neg hin
        exact .keep (by simp [critical, exec, hexec])
          (by simp [critical, exec, hexec, Out.ret, Heap.parkAs])
          (fun _ => by simp [critical, exec, hexec, Out.ret]) (by simp)
    | rwUnlock r' =>
      obtain rfl : r' = r := by simpa [Op.lockId] using hop
      exact critical_rwUnlock s.heap a r'
    | _ => simp [Op.lockId] at hop
  · refine .keep ?_ (critical_queue hinv.wf a op (by simp [ListId.IsChan]) hop) (fun h => absurd h hop) ?_
    · simp only [critical, parkAs_rw]
      exact exec_rw s.heap a op hop
    · rintro rfl
      exact absurd rfl hop

/-! ## Who can hold the lock -/

lemma rwReleased_writer (x : RwLock) : (rwReleased x).writer = false := by
  unfold rwReleased
  split
  · rfl
  · rename_i hw
    simpa using hw

/-- The read-write locks of a state. -/
structure RwInv (s : Core) : Prop where
  /-- Nobody reads while somebody writes. -/
  excl : ∀ r, (s.heap.rw r).writer = true → (s.heap.rw r).readers = 0
  /-- Nobody waits for a free lock. -/
  free : ∀ r, RwFree (s.heap.rw r) → s.heap.waits.queue (.rwlock r) = []

/-- Every step keeps the invariant, whoever unlocks. -/
lemma rwInv_step {s t : Core} {e : Event} (hinv : Inv s) (hI : RwInv s) (hstep : Step s e t) : RwInv t := by
  rcases step_sync hinv hstep with ⟨op, k, hpc, -, hheap, -⟩ | ⟨f, c, lk, w, -, -, hd, hheap⟩ | hq
  · have hmove := fun r => critical_rw hinv hpc r
    rw [← hheap] at hmove
    refine ⟨fun r hw => ?_, fun r hfree => ?_⟩
    · cases hmove r with
      | keep hrw _ _ _ | park _ _ _ hrw _ _ _ _ =>
        rw [hrw] at hw ⊢
        exact hI.excl r hw
      | read hno _ hrw _ _ _ _ =>
        rw [hrw] at hw
        exact absurd (hno.symm.trans hw) (by simp)
      | write hfree hrw _ _ _ _ =>
        rw [hrw]
        exact hfree.1
      | leave _ _ hrw _ _ _ =>
        rw [hrw, rwReleased_writer] at hw
        cases hw
      | passWriter _ _ hrel _ _ hrw _ _ =>
        rw [hrw]
        exact hrel.1
      | passReaders _ _ hrel _ _ _ _ hrw _ _ =>
        rw [hrw] at hw
        exact absurd (hrel.2.symm.trans hw) (by simp)
    · cases hmove r with
      | keep hrw hqueue _ _ =>
        rw [hrw] at hfree
        rw [hqueue]
        exact hI.free r hfree
      | read _ _ _ hnil _ _ _ => exact hnil
      | write _ hrw _ _ _ _ =>
        rw [hrw] at hfree
        cases hfree.2
      | park _ _ hcause hrw _ _ _ _ =>
        -- whoever parks has found the lock held
        exfalso
        rw [hrw] at hfree
        rcases hcause with hne | hw | ⟨-, hr⟩
        · exact hne (hI.free r hfree)
        · exact absurd (hfree.2.symm.trans hw) (by simp)
        · exact absurd hfree.1 (by omega)
      | leave _ _ hrw hqueue hcause _ =>
        rw [hrw] at hfree
        rw [hqueue]
        exact hcause.resolve_left fun hno => hno hfree
      | passWriter _ _ _ _ _ hrw _ _ =>
        rw [hrw] at hfree
        cases hfree.2
      | passReaders _ _ _ _ hne _ _ hrw _ _ =>
        rw [hrw] at hfree
        exact absurd (List.length_eq_zero_iff.mp hfree.1) hne
  · refine ⟨fun r => by rw [hheap]; exact hI.excl r, fun r hfree => ?_⟩
    rw [hheap] at hfree ⊢
    have hnil : s.heap.waits.queue (.rwlock r) = [] := hI.free r hfree
    simp [decide_queue hinv.wf hd, hnil]
  · refine ⟨fun r hw => ?_, fun r hfree => ?_⟩
    · rw [hq.rw] at hw ⊢
      exact hI.excl r hw
    · rw [hq.rw] at hfree
      rw [hq.queue _ (by simp [ListId.IsChan])]
      exact hI.free r hfree

/-- It holds in every reachable state. -/
theorem rwInv_reachable {cfg : Config} {s : Core} (hs : Reachable Step (.init cfg) s) : RwInv s :=
  hs.invariant_of (fun _ => inv_reachable) ⟨fun _ h => (Bool.false_ne_true h).elim, fun _ _ => rfl⟩
    fun _ _ _ hinv _ hI hstep => rwInv_step hinv hI hstep

/-! ## What the waiters carry -/

/-- A waiter that stays keeps its tag. -/
lemma step_writer {s t : Core} {e : Event} (hinv : Inv s) (hstep : Step s e t) {l : ListId}
    (hl : ¬ l.IsChan) {n : NodeRef} (hn : n ∈ s.heap.waits.queue l) (hn' : n ∈ t.heap.waits.queue l) :
    (t.heap.waits.node n).writer = (s.heap.waits.node n).writer := by
  rcases step_sync hinv hstep with ⟨op, k, hpc, hact, hheap, -⟩ | ⟨f, c, lk, w, -, hact, hd, hheap⟩ | hq
  · have heff := exec_effect hinv.wf e.ctx op
    have hwq := wq_of_mem hinv.wf hl hn
    have hG : n ∉ (exec s.heap e.ctx op).2.granted := by
      intro hG
      have hlist := ((step_footprint hinv hstep).waits.decided n (by rw [hact]; exact hG)).2.2
      rw [(inv_step s e t hinv hstep).wf.mem_iff, hlist] at hn'
      cases hn'
    have hexec : (exec s.heap e.ctx op).1.waits.node n = s.heap.waits.node n := by
      rcases heff.granted.other n hG with heq | ⟨c, i, l', hsel, -⟩
      · exact heq
      · rw [hsel] at hwq
        cases hwq
    rw [hheap, critical]
    unfold Heap.parkAs
    split
    · rename_i l' data writer hres
      split
      · rename_i c hc
        have hne : n ≠ .wq c := by
          rintro rfl
          have hparks : e.parks = some (.wq c, l', data) := by
            rw [hc] at hres
            simp [Event.parks, hc, hact, critical, hres]
          exact ((step_queued hinv hstep).parked _ _ _ hparks).1 l hn
        simp [Waits.park, hne, hexec]
      · rw [hexec]
    · rw [hexec]
  · have hne : n ≠ .wq c := by
      rintro rfl
      have hlist := ((step_footprint hinv hstep).waits.decided (.wq c) (by rw [hact]; simp [Act.decides])).2.2
      rw [(inv_step s e t hinv hstep).wf.mem_iff, hlist] at hn'
      cases hn'
    rw [hheap]
    unfold Waits.decide at hd
    split at hd
    · cases hd
      have hun : (s.heap.waits.unlink (.wq c)).node = s.heap.waits.node := by
        unfold Waits.unlink
        split <;> rfl
      simp [hne, hun]
    · cases hd
  · exact hq.writer l hl n hn

/-! ## Who holds the lock -/

/-- What is recorded about read-write locks. -/
structure RwHist extends Stamps where
  /-- Who holds a lock for reading, once for each time. -/
  rds : ℕ → List Ctx
  /-- Who holds a lock for writing. -/
  wrs : ℕ → List Ctx
  /-- Whether the last read-write lock call of a coroutine that may park wants to write. -/
  wants : CrId → Bool

namespace RwHist

/-- Nobody holds anything. -/
def init : RwHist := ⟨.init, fun _ => [], fun _ => [], fun _ => false⟩

/-- What the coroutines have last asked for, after an event. -/
def wantsOf (h : RwHist) (e : Event) (c : CrId) : Bool :=
  match e.act with
  | .crit (.wrlock _) _ _ => if e.ctx = .co c then true else h.wants c
  | .crit (.rdlock _) _ _ => if e.ctx = .co c then false else h.wants c
  | _ => h.wants c

/-- The granted waiters that want to write, or those that want to read. -/
def given (h : RwHist) (writer : Bool) (granted : List NodeRef) : List Ctx :=
  (granted.filter fun n => h.wants n.cr = writer).map fun n => .co n.cr

/-- Who holds lock `r` for reading after an event: whoever was let in, or was handed the lock. -/
def rdsOf (h : RwHist) (e : Event) (r : ℕ) : List Ctx :=
  match e.act with
  | .crit (.rdlock r') _ out | .crit (.tryrdlock r') _ out =>
    if r' = r ∧ out.res = .ret .ok then e.ctx :: h.rds r else h.rds r
  | .crit (.rwUnlock r') _ out =>
    if r' = r then
      (if e.ctx ∈ h.wrs r then h.rds r else (h.rds r).erase e.ctx) ++ h.given false out.granted
    else h.rds r
  | _ => h.rds r

/-- Who holds lock `r` for writing after an event. -/
def wrsOf (h : RwHist) (e : Event) (r : ℕ) : List Ctx :=
  match e.act with
  | .crit (.wrlock r') _ out | .crit (.trywrlock r') _ out =>
    if r' = r ∧ out.res = .ret .ok then e.ctx :: h.wrs r else h.wrs r
  | .crit (.rwUnlock r') _ out =>
    if r' = r then (h.wrs r).erase e.ctx ++ h.given true out.granted else h.wrs r
  | _ => h.wrs r

/-- What a step records. -/
def observe (h : RwHist) (_ : Core) (e : Event) (_ : Core) : RwHist where
  toStamps := h.toStamps.observe e
  rds := h.rdsOf e
  wrs := h.wrsOf e
  wants := h.wantsOf e

end RwHist

/-- Read-write locks are unlocked by those who hold them. -/
def UnlockedByHolder (p : Core × RwHist) (e : Event) (_ : Core × RwHist) : Prop :=
  ∀ r k out, e.act = .crit (.rwUnlock r) k out → e.ctx ∈ p.2.rds r ∨ e.ctx ∈ p.2.wrs r

/-- The locks and the history. -/
structure HolderInv (p : Core × RwHist) : Prop where
  /-- The count is the number of readers. -/
  readers : ∀ r, (p.1.heap.rw r).readers = (p.2.rds r).length
  /-- There is a writer if the flag says so. -/
  writers : ∀ r, (p.2.wrs r).length = if (p.1.heap.rw r).writer then 1 else 0
  /-- The tags of the waiters are what they have asked for. -/
  tags : ∀ r, ∀ n ∈ p.1.heap.waits.queue (.rwlock r), (p.1.heap.waits.node n).writer = p.2.wants n.cr
  /-- The waiters are in the order of their parks. -/
  stamps : StampInv p.1 p.2.toStamps

lemma holderInv_init (cfg : Config) : HolderInv (.init cfg, .init) where
  readers := fun _ => rfl
  writers := fun _ => rfl
  tags := fun _ _ hn => by cases hn
  stamps := stampInv_init cfg

section Step

variable {s t : Core} {e : Event} {h : RwHist}

/-- Whoever is on a list does not change what it has asked for. -/
lemma RwHist.wantsOf_eq (hinv : Inv s) (hstep : Step s e t) {r : ℕ} {c : CrId}
    (hc : .wq c ∈ s.heap.waits.queue (.rwlock r)) : h.wantsOf e c = h.wants c := by
  obtain ⟨hpark, -⟩ := (hinv.wq_mem_iff c _).mp hc
  have hne : ∀ op k out, e.act = .crit op k out → (∀ m, op ≠ .unlock m) → e.ctx ≠ .co c := by
    intro op k out hact hop hctx
    rcases step_sync hinv hstep with ⟨op', k', hpc, hact', -⟩ | ⟨_, _, _, _, -, hact', -⟩ | hq
    · rw [hact] at hact'
      cases hact'
      rw [hctx] at hpc
      have hok := hinv.ok (.co c)
      rw [hpc] at hok hpark
      cases k with
      | condUnlock m v => exact hop m hok
      | _ => cases hpark
    · rw [hact] at hact'
      cases hact'
    · exact hq.not_crit _ _ _ hact
  unfold RwHist.wantsOf
  split
  · rename_i r' k out hact
    simp [hne _ _ _ hact (by simp)]
  · rename_i r' k out hact
    simp [hne _ _ _ hact (by simp)]
  · rfl

/-- The tags along a step. -/
lemma HolderInv.tags_step (hI : HolderInv (s, h)) (hinv : Inv s) (hstep : Step s e t) {r : ℕ} {n : NodeRef}
    (hn : n ∈ t.heap.waits.queue (.rwlock r)) : (t.heap.waits.node n).writer = h.wantsOf e n.cr := by
  have hl : ¬ (ListId.rwlock r).IsChan := by simp [ListId.IsChan]
  by_cases hold : n ∈ s.heap.waits.queue (.rwlock r)
  · have hwq := wq_of_mem hinv.wf hl hold
    rw [step_writer hinv hstep hl hold hn, RwHist.wantsOf_eq hinv hstep (hwq ▸ hold)]
    exact hI.tags r n hold
  · rcases step_sync hinv hstep with ⟨op, k, hpc, hact, hheap, -⟩ | ⟨f, c, lk, w, -, -, hd, hheap⟩ | hq
    · have hmove := critical_rw hinv hpc r
      rw [← hheap] at hmove
      cases hmove with
      | @park c writer hctx hop _ _ hqueue htag _ _ =>
        rw [hqueue] at hn
        obtain rfl : n = .wq c := by simpa [hold] using hn
        rw [htag]
        cases writer <;> simp_all [RwHist.wantsOf, NodeRef.cr]
      | keep _ hqueue _ _ | write _ _ hqueue _ _ _ | leave _ _ _ hqueue _ _ => exact absurd (hqueue ▸ hn) hold
      | read _ _ _ hnil _ _ _ =>
        rw [hnil] at hn
        cases hn
      | passWriter _ _ _ hq _ _ hqueue _ =>
        rw [hqueue] at hn
        exact absurd (by rw [hq]; exact List.mem_cons_of_mem _ hn) hold
      | passReaders _ _ _ hq _ _ _ _ hqueue _ =>
        rw [hqueue] at hn
        exact absurd (by rw [hq]; exact List.mem_append_right _ hn) hold
    · rw [hheap] at hn
      simp only [decide_queue hinv.wf hd] at hn
      exact absurd (List.mem_of_mem_erase hn) hold
    · rw [hq.queue _ hl] at hn
      exact absurd hn hold

/-- A step that is no successful call on lock `r` does not change who holds it. -/
lemma RwHist.kept {r : ℕ} (hact : ∀ op k out, e.act = .crit op k out →
      (op.lockId = .rwlock r → out.res ≠ .ret .ok) ∧ op ≠ .rwUnlock r) :
    h.rdsOf e r = h.rds r ∧ h.wrsOf e r = h.wrs r := by
  cases heq : e.act with
  | crit op k out =>
    obtain ⟨hfail, hno⟩ := hact op k out heq
    cases op with
    | rdlock r' | tryrdlock r' | wrlock r' | trywrlock r' =>
      have hnot : ¬ (r' = r ∧ out.res = .ret .ok) := by
        rintro ⟨rfl, hok⟩
        exact hfail rfl hok
      simp [RwHist.rdsOf, RwHist.wrsOf, heq, hnot]
    | rwUnlock r' =>
      have hne : r' ≠ r := by
        rintro rfl
        exact hno rfl
      simp [RwHist.rdsOf, RwHist.wrsOf, heq, hne]
    | _ => simp [RwHist.rdsOf, RwHist.wrsOf, heq]
  | _ => simp [RwHist.rdsOf, RwHist.wrsOf, heq]

/-- When a holder has left, the lists have the lengths the lock shows. -/
lemma HolderInv.left (hI : HolderInv (s, h)) (hR : RwInv s) {a : Ctx} {r : ℕ}
    (ha : a ∈ h.rds r ∨ a ∈ h.wrs r) :
    (if a ∈ h.wrs r then h.rds r else (h.rds r).erase a).length = (rwReleased (s.heap.rw r)).readers ∧
      (h.wrs r).erase a = [] := by
  have hrd : (s.heap.rw r).readers = (h.rds r).length := hI.readers r
  have hwr : (h.wrs r).length = if (s.heap.rw r).writer then 1 else 0 := hI.writers r
  unfold rwReleased
  by_cases hw : (s.heap.rw r).writer = true
  · have hnil : h.rds r = [] := by
      rw [hR.excl r hw] at hrd
      exact List.length_eq_zero_iff.mp hrd.symm
    have hmem : a ∈ h.wrs r := by simpa [hnil] using ha
    obtain ⟨b, hb⟩ := List.length_eq_one_iff.mp (by simpa [hw] using hwr)
    obtain rfl : a = b := by simpa [hb] using hmem
    simp [hb, hw, hrd]
  · have hnil : h.wrs r = [] := List.length_eq_zero_iff.mp (by simpa [hw] using hwr)
    have hmem : a ∈ h.rds r := by simpa [hnil] using ha
    simp [hnil, hw, List.length_erase_of_mem hmem, hrd]

/-- Who holds the locks, along a step. -/
lemma HolderInv.count_step (hI : HolderInv (s, h)) (hR : RwInv s) (hinv : Inv s) (hstep : Step s e t)
    (hholder : ∀ r k out, e.act = .crit (.rwUnlock r) k out → e.ctx ∈ h.rds r ∨ e.ctx ∈ h.wrs r) (r : ℕ) :
    (t.heap.rw r).readers = (h.rdsOf e r).length ∧
      (h.wrsOf e r).length = if (t.heap.rw r).writer then 1 else 0 := by
  have hrd : (s.heap.rw r).readers = (h.rds r).length := hI.readers r
  have hwr : (h.wrs r).length = if (s.heap.rw r).writer then 1 else 0 := hI.writers r
  have htags : ∀ n ∈ s.heap.waits.queue (.rwlock r), (s.heap.waits.node n).writer = h.wants n.cr := hI.tags r
  -- what the history records for steps on other locks and for failed attempts
  have hsame : (t.heap.rw r) = s.heap.rw r → h.rdsOf e r = h.rds r ∧ h.wrsOf e r = h.wrs r →
      (t.heap.rw r).readers = (h.rdsOf e r).length ∧
        (h.wrsOf e r).length = if (t.heap.rw r).writer then 1 else 0 := by
    rintro hrw ⟨hrds, hwrs⟩
    rw [hrw, hrds, hwrs]
    exact ⟨hrd, hwr⟩
  rcases step_sync hinv hstep with ⟨op, k, hpc, hact, hheap, -⟩ | ⟨f, c, lk, w, -, hact, -, hheap⟩ | hq
  · have hmove := critical_rw hinv hpc r
    rw [← hheap] at hmove
    generalize (critical s.heap e.ctx op).2 = out at hact hmove
    have hkept : (op.lockId = .rwlock r → out.res ≠ .ret .ok) → op ≠ .rwUnlock r →
        h.rdsOf e r = h.rds r ∧ h.wrsOf e r = h.wrs r := by
      refine fun hfail hop => RwHist.kept fun op' k' out' heq => ?_
      rw [hact] at heq
      cases heq
      exact ⟨hfail, hop⟩
    cases hmove with
    | keep hrw _ hfail hfree =>
      by_cases hop : op = .rwUnlock r
      · -- nobody holds a free lock
        exfalso
        have hrel := hfree hop
        subst hop
        have hrds : h.rds r = [] := List.length_eq_zero_iff.mp (hrd.symm.trans hrel.1)
        have hwrs : h.wrs r = [] := List.length_eq_zero_iff.mp (by simpa [hrel.2] using hwr)
        rcases hholder r _ _ hact with hmem | hmem
        · simp [hrds] at hmem
        · simp [hwrs] at hmem
      · refine hsame hrw (hkept (fun hlk hok => ?_) hop)
        obtain ⟨-, code, hcode, hne⟩ := hfail hlk
        rw [hok] at hcode
        cases hcode
        exact hne rfl
    | read _ _ hrw _ hop hok _ =>
      rw [hrw]
      rcases hop with rfl | rfl <;> simp [RwHist.rdsOf, RwHist.wrsOf, hact, hok, hrd, hwr]
    | write hfree hrw _ hop hok _ =>
      rw [hrw]
      have hwrs : h.wrs r = [] := List.length_eq_zero_iff.mp (by simpa [hfree.2] using hwr)
      rcases hop with rfl | rfl <;> simp [RwHist.rdsOf, RwHist.wrsOf, hact, hok, hrd, hwrs]
    | @park c writer _ hop _ hrw _ _ hres _ =>
      refine hsame hrw (hkept (fun _ hok => ?_) (by subst hop; cases writer <;> simp))
      rw [hok] at hres
      cases hres
    | leave hop _ hrw _ _ hG =>
      subst hop
      obtain ⟨hrds, hwrs⟩ := hI.left hR (hholder r k out hact)
      rw [hrw, rwReleased_writer]
      simp [RwHist.rdsOf, RwHist.wrsOf, hact, hG, RwHist.given, hrds, hwrs]
    | @passWriter n rest hop _ hrel hqueue htag hrw _ hG =>
      subst hop
      obtain ⟨hrds, hwrs⟩ := hI.left hR (hholder r k out hact)
      have hwant : h.wants n.cr = true := (htags n (by simp [hqueue])).symm.trans htag
      rw [hrw]
      simp [RwHist.rdsOf, RwHist.wrsOf, hact, hG, RwHist.given, hrds, hwrs, hwant]
    | @passReaders readers left hop _ hrel hqueue _ htag _ hrw _ hG =>
      subst hop
      obtain ⟨hrds, hwrs⟩ := hI.left hR (hholder r k out hact)
      have hwant : ∀ n ∈ readers, h.wants n.cr = false := fun n hn =>
        (htags n (by rw [hqueue]; exact List.mem_append_left _ hn)).symm.trans (htag n hn)
      have hread : (h.given false readers).length = readers.length := by
        unfold RwHist.given
        rw [List.filter_eq_self.mpr fun n hn => by simp [hwant n hn], List.length_map]
      have hwrite : h.given true readers = [] := by
        unfold RwHist.given
        rw [List.filter_eq_nil_iff.mpr fun n hn => by simp [hwant n hn], List.map_nil]
      rw [hrw]
      simp [RwHist.rdsOf, RwHist.wrsOf, hact, hG, hrds, hwrs, hread, hwrite, hrel.1, hrel.2]
  · exact hsame (by rw [hheap]) (RwHist.kept fun op k out heq => by rw [hact] at heq; cases heq)
  · exact hsame (by rw [hq.rw]) (RwHist.kept fun op k out heq => absurd heq (hq.not_crit op k out))

/-- Every step keeps the invariant if unlocks are made by holders. -/
lemma holderInv_step (hI : HolderInv (s, h)) (hR : RwInv s) (hinv : Inv s) (hstep : Step s e t)
    (hholder : ∀ r k out, e.act = .crit (.rwUnlock r) k out → e.ctx ∈ h.rds r ∨ e.ctx ∈ h.wrs r) :
    HolderInv (t, h.observe s e t) where
  readers := fun r => (hI.count_step hR hinv hstep hholder r).1
  writers := fun r => (hI.count_step hR hinv hstep hholder r).2
  tags := fun _ _ hn => hI.tags_step hinv hstep hn
  stamps := stampInv_step hI.stamps hinv hstep

end Step

/-- It holds in every state reached by such steps. -/
theorem holderInv_reachable {cfg : Config} {p : Core × RwHist}
    (hp : Reachable (Restrict (Observed Step RwHist.observe) UnlockedByHolder) (.init cfg, .init) p) :
    HolderInv p := by
  have hplain : ∀ q, Reachable (Restrict (Observed Step RwHist.observe) UnlockedByHolder) (.init cfg, .init) q →
      Reachable Step (.init cfg) q.1 := fun q hq => hq.of_restrict.of_observed
  refine hp.invariant_of (J := fun p => Inv p.1 ∧ RwInv p.1)
    (fun q hq => ⟨inv_reachable (hplain q hq), rwInv_reachable (hplain q hq)⟩) (holderInv_init cfg) ?_
  rintro ⟨s, h⟩ e ⟨t, h'⟩ ⟨hinv, hR⟩ - hI ⟨⟨hstep, hh⟩, hholder⟩
  obtain rfl : h' = h.observe s e t := hh
  exact holderInv_step hI hR hinv hstep hholder

/-! ## The contract -/

/-- What read-write lock `r` promises in state `s` with history `h`. -/
structure RwContract (s : Core) (h : RwHist) (r : ℕ) : Prop where
  /-- Nobody reads while somebody writes. -/
  excl : ¬ ((s.heap.rw r).writer = true ∧ 0 < (s.heap.rw r).readers)
  /-- The flag says that exactly one context holds the lock for writing; without it none does. -/
  writer : (h.wrs r).length = if (s.heap.rw r).writer then 1 else 0
  /-- The count is the number of read locks held, those handed to waiters that have not run included. -/
  readers : (s.heap.rw r).readers = (h.rds r).length
  /-- If somebody waits, somebody holds the lock. -/
  held : s.heap.waits.queue (.rwlock r) ≠ [] → (s.heap.rw r).writer = true ∨ 0 < (s.heap.rw r).readers
  /-- The waiters are in the order of their parks. -/
  fifo : (s.heap.waits.queue (.rwlock r)).Pairwise fun n n' => h.stamp n.cr < h.stamp n'.cr
  /-- Only an unlock lets a waiter in; whatever else ends its wait does not. -/
  grants : ∀ e t c, Step s e t → .wq c ∈ s.heap.waits.queue (.rwlock r) → .wq c ∈ e.act.decides →
    (∃ k out, e.act = .crit (.rwUnlock r) k out) ∨ ∃ st, e.act = .flip c st ∧ st ≠ .ok
  /-- An unlock lets in a prefix of the queue: nobody, or one writer, or the readers up to the first
  writer. -/
  passes : ∀ a k out t, Step s ⟨a, .crit (.rwUnlock r) k out⟩ t →
    s.heap.waits.queue (.rwlock r) = out.granted ++ t.heap.waits.queue (.rwlock r) ∧
      (out.granted = [] ∨ (∃ n, out.granted = [n] ∧ h.wants n.cr = true) ∨
        ((∀ n ∈ out.granted, h.wants n.cr = false) ∧
          ∀ n ∈ (t.heap.waits.queue (.rwlock r)).head?, h.wants n.cr = true))

/-- What an unlock lets in. -/
lemma HolderInv.passes {s t : Core} {h : RwHist} (hI : HolderInv (s, h)) (hinv : Inv s) {a : Ctx} {r : ℕ}
    {k : Frame} {out : Out} (hstep : Step s ⟨a, .crit (.rwUnlock r) k out⟩ t) :
    s.heap.waits.queue (.rwlock r) = out.granted ++ t.heap.waits.queue (.rwlock r) ∧
      (out.granted = [] ∨ (∃ n, out.granted = [n] ∧ h.wants n.cr = true) ∨
        ((∀ n ∈ out.granted, h.wants n.cr = false) ∧
          ∀ n ∈ (t.heap.waits.queue (.rwlock r)).head?, h.wants n.cr = true)) := by
  have htags : ∀ n ∈ s.heap.waits.queue (.rwlock r), (s.heap.waits.node n).writer = h.wants n.cr := hI.tags r
  rcases step_sync hinv hstep with ⟨op, k', hpc, hact, hheap, -⟩ | ⟨_, _, _, _, -, hact, -⟩ | hq
  · obtain ⟨rfl, rfl, rfl⟩ : op = .rwUnlock r ∧ k = k' ∧ out = _ := by simpa [eq_comm] using hact
    have hmove := critical_rw hinv hpc r
    rw [← hheap] at hmove
    cases hmove with
    | keep _ hqueue hfail _ =>
      obtain ⟨hG, -⟩ := hfail rfl
      exact ⟨by rw [hG, hqueue]; rfl, Or.inl hG⟩
    | read _ _ _ _ hop _ _ | write _ _ _ hop _ _ => simp at hop
    | @park _ writer _ hop _ _ _ _ _ _ => cases writer <;> simp at hop
    | leave _ _ _ hqueue _ hG => exact ⟨by rw [hG, hqueue]; rfl, Or.inl hG⟩
    | @passWriter n rest _ _ _ hqueue htag _ hrest hG =>
      refine ⟨by rw [hG, hrest, hqueue]; rfl, Or.inr (Or.inl ⟨n, hG, ?_⟩)⟩
      exact (htags n (by simp [hqueue])).symm.trans htag
    | @passReaders readers left _ _ _ hqueue _ htag hhead _ hleft hG =>
      rw [hG, hleft]
      refine ⟨hqueue, Or.inr (Or.inr ⟨fun n hn => ?_, fun n hn => ?_⟩)⟩
      · exact (htags n (by rw [hqueue]; exact List.mem_append_left _ hn)).symm.trans (htag n hn)
      · have hmem : n ∈ left := List.mem_of_mem_head? hn
        exact (htags n (by rw [hqueue]; exact List.mem_append_right _ hmem)).symm.trans (hhead n hn)
  · cases hact
  · exact absurd rfl (hq.not_crit _ _ _)

/-- Only unlocks let waiters in. -/
lemma step_rw_grants {s t : Core} {e : Event} (hinv : Inv s) (hstep : Step s e t) {r : ℕ} {c : CrId}
    (hc : .wq c ∈ s.heap.waits.queue (.rwlock r)) (hdec : .wq c ∈ e.act.decides) :
    (∃ k out, e.act = .crit (.rwUnlock r) k out) ∨ ∃ st, e.act = .flip c st ∧ st ≠ .ok := by
  obtain ⟨hpark, -⟩ := (hinv.wq_mem_iff c _).mp hc
  rcases step_sync hinv hstep with ⟨op, k, hpc, hact, -⟩ | ⟨f, c', _, _, -, hact, -⟩ | hq
  · have hG : .wq c ∈ (critical s.heap e.ctx op).2.granted := by rwa [hact] at hdec
    have hmove := critical_rw hinv hpc r
    refine Or.inl ⟨k, (critical s.heap e.ctx op).2, ?_⟩
    rw [hact]
    cases hmove with
    | keep _ _ hfail _ =>
      exfalso
      obtain ⟨l, hl, hlock⟩ := (exec_effect hinv.wf e.ctx op).own _ hG
      rw [hinv.wf.unique hl hc] at hlock
      rw [(hfail hlock.symm).1] at hG
      cases hG
    | read _ _ _ _ _ _ hnil | write _ _ _ _ _ hnil | park _ _ _ _ _ _ _ hnil =>
      rw [hnil] at hG
      cases hG
    | leave hop _ _ _ _ _ | passWriter hop _ _ _ _ _ _ _ | passReaders hop _ _ _ _ _ _ _ _ _ => rw [hop]
  · rw [hact] at hdec ⊢
    obtain rfl : c = c' := by simpa [Act.decides] using hdec
    exact Or.inr ⟨_, rfl, by cases f <;> simp [WakeFor.code]⟩
  · rcases step_decides_wait hinv hstep (by simp [ListId.IsChan]) hpark hdec with
      ⟨op, k, out, hact, -⟩ | ⟨st, hact⟩
    · exact absurd hact (hq.not_crit op k out)
    · exact absurd hact (hq.not_flip c st)

end Suspenders.Sync
