import Suspenders.Sync.Mutex

/-!
# The condition variable contract

A condition wait parks on the condition's list before it releases the mutex, so a signal sent after the
release finds it there, or finds its wait decided.  The history counts the signals and broadcasts that reach a
call; by `LockInv` the count is one at the return if the call returns `OK`, and zero if it does not.
-/

namespace Suspenders.Sync

open Lib Wait

/-- `suspenders_cond_wait_dl` has released the mutex, and its wait is not over. -/
def waitsReleased : Pc → Prop
  | .blk (.condWait _) _ | .susp (.condWait _) _ | .sync (.condWait _) _ => True
  | _ => False

/-- Context `a` is in call `x`, a wait on condition `v` with mutex `m`. -/
def InCondWait (h : LockHist) (v m : ℕ) (a : Ctx) (x : Call) : Prop :=
  h.call a = some x ∧ x.api = .condWait v m

/-- By event `e`, the calls of the coroutines in `granted`, and no others, have heard one more signal. -/
def Reaches (s : Core) (h : LockHist) (e : Event) (t : Core) (granted : List NodeRef) : Prop :=
  ∀ c x, h.call (.co c) = some x → ∃ y, (h.observe s e t).call (.co c) = some y ∧ y.api = x.api ∧
    y.signals = x.signals + if .wq c ∈ granted then 1 else 0

/-- What condition `v` promises in state `s` with history `h`. -/
structure CondContract (s : Core) (h : LockHist) (v : ℕ) : Prop where
  /-- Whoever owned the mutex when it called owns it when it returns, whatever the status. -/
  owner : ∀ a x m code, InCondWait h v m a x → x.owned = true → s.pc a = .ret code →
    s.heap.owner m = some a
  /-- A wait returns `OK` if exactly one signal or broadcast has reached it, and something else if none
  has. -/
  heard : ∀ a x m code, InCondWait h v m a x → s.pc a = .ret code →
    x.signals = if code = .ok then 1 else 0
  /-- A waiter that has released the mutex is on the list until its wait is decided. -/
  listed : ∀ c x m, InCondWait h v m (.co c) x → waitsReleased (s.pc (.co c)) →
    (s.heap.waits.node (.wq c)).status = .waiting → .wq c ∈ s.heap.waits.queue (.cond v)
  /-- Only waiters that no signal has reached are on the list. -/
  unheard : ∀ n ∈ s.heap.waits.queue (.cond v), ∃ c x m, n = .wq c ∧ InCondWait h v m (.co c) x ∧
    x.signals = 0
  /-- The list is in the order of the parks. -/
  fifo : (s.heap.waits.queue (.cond v)).Pairwise fun n n' => h.stamp n.cr < h.stamp n'.cr
  /-- A signal reaches the call of the first waiter, if there is one, and no other. -/
  signal : ∀ a k out t, Step s ⟨a, .crit (.signal v) k out⟩ t →
    out.granted = (s.heap.waits.queue (.cond v)).take 1 ∧
      t.heap.waits.queue (.cond v) = (s.heap.waits.queue (.cond v)).drop 1 ∧
      Reaches s h ⟨a, .crit (.signal v) k out⟩ t out.granted
  /-- A broadcast reaches the calls of all waiters, and no others. -/
  broadcast : ∀ a k out t, Step s ⟨a, .crit (.broadcast v) k out⟩ t →
    out.granted = s.heap.waits.queue (.cond v) ∧ t.heap.waits.queue (.cond v) = [] ∧
      Reaches s h ⟨a, .crit (.broadcast v) k out⟩ t out.granted

/-- Whoever executes a critical section waits on nothing. -/
lemma not_granted_self {s : Core} (hinv : Inv s) {c : CrId} {op : Op} {k : Frame}
    (hpc : s.pc (.co c) = .cs op k) (hop : ∀ m, op ≠ .unlock m) :
    .wq c ∉ (critical s.heap (.co c) op).2.granted := by
  intro hG
  obtain ⟨l, hl, -⟩ := (exec_effect hinv.wf (.co c) op).own _ hG
  obtain ⟨hpark, -⟩ := (hinv.wq_mem_iff c l).mp hl
  rw [hpc] at hpark
  have hok := hinv.ok (.co c)
  rw [hpc] at hok
  cases k with
  | condUnlock m v => exact hop m hok
  | _ => cases hpark

/-- The calls that hear a signal or a broadcast. -/
lemma reaches_granted {s t : Core} {h : LockHist} (hinv : Inv s) {a : Ctx} {op : Op} {k : Frame} {out : Out}
    (hop : ∃ v, op = .signal v ∨ op = .broadcast v) (hstep : Step s ⟨a, .crit op k out⟩ t) :
    Reaches s h ⟨a, .crit op k out⟩ t out.granted := by
  intro c x hx
  by_cases ha : a = .co c
  · subst ha
    obtain ⟨hapi, -, hsig⟩ := x.after_api (s := s) (t := t) (.co c)
    refine ⟨x.after s t (.co c), by simp [LockHist.observe, LockHist.callOf, hx], hapi, ?_⟩
    have hself : .wq c ∉ out.granted := by
      rcases step_sync hinv hstep with ⟨op', k', hpc, hact, -⟩ | ⟨_, _, _, _, -, hact, -⟩ | hq
      · obtain ⟨rfl, rfl, rfl⟩ : op = op' ∧ k = k' ∧ out = _ := by simpa [eq_comm] using hact
        refine not_granted_self hinv hpc fun m => ?_
        obtain ⟨v, rfl | rfl⟩ := hop <;> simp
      · cases hact
      · exact absurd rfl (hq.not_crit _ _ _)
    simp [hsig, hself]
  · refine ⟨x.hear (.co c) op out, by simp [LockHist.observe, LockHist.callOf, hx, ha, Call.seen],
      (x.hear_spec _ _ _).1, ?_⟩
    obtain ⟨v, rfl | rfl⟩ := hop <;> simp only [Call.hear] <;> split <;> simp

/-- What a signal does. -/
lemma step_signal {s t : Core} (hinv : Inv s) {a : Ctx} {v : ℕ} {k : Frame} {out : Out}
    (hstep : Step s ⟨a, .crit (.signal v) k out⟩ t) :
    out.granted = (s.heap.waits.queue (.cond v)).take 1 ∧
      t.heap.waits.queue (.cond v) = (s.heap.waits.queue (.cond v)).drop 1 := by
  rcases step_sync hinv hstep with ⟨op, k', -, hact, hheap, -⟩ | ⟨_, _, _, _, -, hact, -⟩ | hq
  · obtain ⟨rfl, rfl, rfl⟩ : op = .signal v ∧ k = k' ∧ out = _ := by simpa [eq_comm] using hact
    rw [hheap]
    simp only [critical, exec, condSignal]
    split <;> rename_i hqueue
    · simp [hqueue, Out.ret, Heap.parkAs]
    · simp [hqueue, Out.grantOne, Heap.parkAs]
  · cases hact
  · exact absurd rfl (hq.not_crit _ _ _)

/-- What a broadcast does. -/
lemma step_broadcast {s t : Core} (hinv : Inv s) {a : Ctx} {v : ℕ} {k : Frame} {out : Out}
    (hstep : Step s ⟨a, .crit (.broadcast v) k out⟩ t) :
    out.granted = s.heap.waits.queue (.cond v) ∧ t.heap.waits.queue (.cond v) = [] := by
  rcases step_sync hinv hstep with ⟨op, k', -, hact, hheap, -⟩ | ⟨_, _, _, _, -, hact, -⟩ | hq
  · obtain ⟨rfl, rfl, rfl⟩ : op = .broadcast v ∧ k = k' ∧ out = _ := by simpa [eq_comm] using hact
    rw [hheap]
    simp [critical, exec, condBroadcast, Out.grantMany, Heap.parkAs]
  · cases hact
  · exact absurd rfl (hq.not_crit _ _ _)

/-- Where whoever waits on condition `v` is. -/
lemma OwnerInv.cond_place {s : Core} (hO : OwnerInv s) {c : CrId} {v : ℕ}
    (hpark : (s.pc (.co c)).parkedOn = some (.cond v)) :
    ∃ m, condMutex (s.pc (.co c)) = some m ∧
      ∀ x v', CondAt s (.co c) v' m x (s.pc (.co c)) → v' = v ∧ Heard s (.co c) x := by
  have hshape := hO.shape c
  cases hs : s.pc (.co c) with
  | cs o k =>
    rw [hs] at hpark
    cases k with
    | condUnlock m v' =>
      obtain rfl : v' = v := by simpa [Pc.parkedOn, Pc.waitOn] using hpark
      exact ⟨m, rfl, fun x v'' hx => ⟨hx.2.2.1.symm, hx.2.2.2⟩⟩
    | _ => cases hpark
  | blk k l | susp k l | sync k l =>
    rw [hs] at hpark hshape
    obtain rfl : l = some (.cond v) := by simpa [Pc.parkedOn, Pc.waitOn] using hpark
    obtain ⟨m, rfl⟩ := hshape.2.2 v rfl
    refine ⟨m, rfl, fun x v' hx => ?_⟩
    obtain ⟨-, hl, hheard⟩ := hx
    exact ⟨by simpa [eq_comm] using hl, hheard⟩
  | _ =>
    rw [hs] at hpark
    cases hpark

/-- Whoever waits on condition `v` is in a call that waits on it, and has heard what its node says. -/
lemma LockInv.cond_wait {s : Core} {h : LockHist} (hI : LockInv (s, h)) (hO : OwnerInv s) {c : CrId}
    {v : ℕ} (hpark : (s.pc (.co c)).parkedOn = some (.cond v)) :
    ∃ x m, InCondWait h v m (.co c) x ∧ Heard s (.co c) x := by
  obtain ⟨m, hm, hplace⟩ := hO.cond_place hpark
  obtain ⟨⟨api, owned, changed, signals⟩, v', hx, hapi⟩ := hI.cond (.co c) m hm
  obtain rfl : api = .condWait v' m := hapi
  obtain ⟨rfl, hheard⟩ := hplace _ _ (hI.call (.co c) _ hx)
  exact ⟨_, m, ⟨hx, rfl⟩, hheard⟩

end Suspenders.Sync
