import Suspenders.Sync.History

/-!
# The mutex contract

`MutexContract` is what a mutex promises in a state that any interleaving of lock, trylock and unlock calls,
re-locks of condition waits, cancels and timeouts has led to.  All of it is read off `OwnerInv` (who owns) and
`LockInv` (what the calls in progress have done); `unlock_hands_over` is the one fact about a step.
-/

namespace Suspenders.Sync

open Lib Wait

/-- Context `a` returns `code` from its call `x`, a lock attempt on mutex `m`. -/
def ReturnsFromLock (s : Core) (h : LockHist) (m : ℕ) (a : Ctx) (x : Call) (code : Code) : Prop :=
  h.call a = some x ∧ (x.api = .op (.lock m) ∨ x.api = .op (.trylock m)) ∧ s.pc a = .ret code

/-- What mutex `m` promises in state `s` with history `h`. -/
structure MutexContract (s : Core) (h : LockHist) (m : ℕ) : Prop where
  /-- At most one context is between a successful return and its unlock, and that one is the owner. -/
  exclusive : ∀ a b, h.inside m a = true → h.inside m b = true → a = b ∧ s.heap.owner m = some a
  /-- Nobody waits for a free mutex. -/
  free : s.heap.owner m = none → s.heap.waits.queue (.mutex m) = []
  /-- The owner does not wait. -/
  absent : ∀ c, s.heap.owner m = some (.co c) → .wq c ∉ s.heap.waits.queue (.mutex m)
  /-- Nobody waits twice. -/
  nodup : (s.heap.waits.queue (.mutex m)).Nodup
  /-- A lock attempt of somebody else than the owner returns `OK` if and only if it made its caller the
  owner. -/
  lock_ok : ∀ a x code, ReturnsFromLock s h m a x code → x.owned = false →
    (code = .ok ↔ s.heap.owner m = some a)
  /-- A lock attempt that fails has changed neither the owner nor the order of the other waiters. -/
  lock_failed : ∀ a x code, ReturnsFromLock s h m a x code → code ≠ .ok → x.changed = false
  /-- Nor has an unlock by somebody else than the owner, and it fails. -/
  unlock_failed : ∀ a x code, h.call a = some x → x.api = .op (.unlock m) → x.owned = false →
    s.pc a = .ret code → x.changed = false ∧ code ≠ .ok
  /-- An unlock by the owner frees the mutex if nobody waits, and otherwise makes the longest-waiting waiter
  the owner; the others keep their order. -/
  unlock : ∀ a k out t, Step s ⟨a, .crit (.unlock m) k out⟩ t → s.heap.owner m = some a →
    (s.heap.waits.queue (.mutex m) = [] ∧ t.heap.owner m = none) ∨
      ∃ c rest, s.heap.waits.queue (.mutex m) = .wq c :: rest ∧ t.heap.owner m = some (.co c) ∧
        t.heap.waits.queue (.mutex m) = rest ∧ out.granted = [.wq c] ∧
        (s.heap.waits.node (.wq c)).status = .waiting ∧ ∀ n ∈ rest, h.stamp c < h.stamp n.cr

/-- Unlocking by the owner. -/
lemma unlock_hands_over {s t : Core} {h : LockHist} (hinv : Inv s) (hI : LockInv (s, h)) {a : Ctx} {m : ℕ}
    {k : Frame} {out : Out} (hstep : Step s ⟨a, .crit (.unlock m) k out⟩ t)
    (hown : s.heap.owner m = some a) :
    (s.heap.waits.queue (.mutex m) = [] ∧ t.heap.owner m = none) ∨
      ∃ c rest, s.heap.waits.queue (.mutex m) = .wq c :: rest ∧ t.heap.owner m = some (.co c) ∧
        t.heap.waits.queue (.mutex m) = rest ∧ out.granted = [.wq c] ∧
        (s.heap.waits.node (.wq c)).status = .waiting ∧ ∀ n ∈ rest, h.stamp c < h.stamp n.cr := by
  rcases step_sync hinv hstep with ⟨op, k', hpc, hact, hheap, -⟩ | ⟨_, _, _, _, -, hact, -⟩ | hq
  · obtain ⟨rfl, rfl, rfl⟩ : op = .unlock m ∧ k = k' ∧ out = _ := by simpa [eq_comm] using hact
    rw [hheap]
    cases critical_mutex hinv hpc m with
    | keep _ _ hfail _ =>
      obtain ⟨_, -, -, hno, -⟩ := hfail rfl
      exact absurd hown (hno rfl)
    | take _ _ _ hop _ => simp at hop
    | park _ _ hop _ _ _ => simp at hop
    | release _ _ hnil hnone _ _ => exact Or.inl ⟨hnil, hnone⟩
    | @hand c rest _ _ hqueue hnew hrest hgranted _ =>
      have hmem : .wq c ∈ s.heap.waits.queue (.mutex m) := by simp [hqueue]
      have hstamp := hI.stamps.order (.mutex m) (by simp [ListId.IsChan])
      rw [hqueue, List.pairwise_cons] at hstamp
      exact Or.inr ⟨c, rest, hqueue, hnew, hrest, hgranted, ((hinv.wq_mem_iff c _).mp hmem).2, hstamp.1⟩
  · cases hact
  · exact absurd rfl (hq.not_crit _ _ _)

end Suspenders.Sync
