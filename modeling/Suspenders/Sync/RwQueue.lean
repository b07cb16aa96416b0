import Suspenders.Sync.Rwlock

/-!
# The head of a read-write lock's queue

`suspenders_rwlock_rdlock_dl` parks a reader behind any waiter, because a queued waiter is "necessarily headed
by a writer batch": while no writer holds the lock, the first waiter is a writer, and a queued reader waits for
that writer.  Parks and unlocks keep this up.  `s_waiter_wake` does not: it takes a canceled or timed-out writer
off the queue and grants nothing, so the readers behind it stay parked while other readers hold the lock.

`blocked_with_cause` says that nothing else breaks the rule, and that this always does.
-/

namespace Suspenders.Sync

open Lib Wait

/-- Whoever waits first for read-write lock `r` cannot be let in: if no writer holds the lock, it is a
writer.  The rule is about the moments at which the ticket lock is free. -/
def BlockedWithCause (s : Core) (r : ℕ) : Prop :=
  s.held (.rwlock r) = false → (s.heap.rw r).writer = false →
    ∀ n rest, s.heap.waits.queue (.rwlock r) = n :: rest → (s.heap.waits.node n).writer = true

/-- A cancel or a timeout ends the wait of the writer at the head of the queue of `r`, a reader waits next, and
no writer holds the lock. -/
def OrphansReaders (s : Core) (e : Event) (r : ℕ) : Prop :=
  ∃ c st n rest, e.act = .flip c st ∧ s.heap.waits.queue (.rwlock r) = .wq c :: n :: rest ∧
    (s.heap.rw r).writer = false ∧ (s.heap.waits.node (.wq c)).writer = true ∧
    (s.heap.waits.node n).writer = false

/-- Steps that leave no reader at the head without a cause. -/
def KeepsHead (s : Core) (e : Event) (_ : Core) : Prop := ∀ r, ¬ OrphansReaders s e r

/-- The first waiter of every lock that no writer holds is a writer, also while the ticket lock is held. -/
def WriterFirst (s : Core) : Prop := ∀ r, (s.heap.rw r).writer = false →
  ∀ n rest, s.heap.waits.queue (.rwlock r) = n :: rest → (s.heap.waits.node n).writer = true

/-- Every step but the removal of such a writer keeps a writer first. -/
lemma writerFirst_step {s t : Core} {e : Event} (hinv : Inv s) (hR : RwInv s) (hI : WriterFirst s)
    (hstep : Step s e t) (hkeep : KeepsHead s e t) : WriterFirst t := by
  intro r hw n rest hqueue
  have hl : ¬ (ListId.rwlock r).IsChan := by simp [ListId.IsChan]
  -- a waiter that was first stays what it was
  have hfirst : ∀ rest', s.heap.waits.queue (.rwlock r) = n :: rest' → (s.heap.rw r).writer = false →
      (t.heap.waits.node n).writer = true := by
    intro rest' hold hw'
    rw [step_writer hinv hstep hl (by simp [hold]) (by simp [hqueue])]
    exact hI r hw' n rest' hold
  rcases step_sync hinv hstep with ⟨op, k, hpc, -, hheap, -⟩ | ⟨f, c, lk, w, -, hact, hd, hheap⟩ | hq
  · have hmove := critical_rw hinv hpc r
    rw [← hheap] at hmove
    cases hmove with
    | keep hrw hsame _ _ => exact hfirst rest (hsame ▸ hqueue) (hrw ▸ hw)
    | read _ _ _ hnil _ _ _ =>
      rw [hnil] at hqueue
      cases hqueue
    | write _ hrw _ _ _ _ =>
      rw [hrw] at hw
      cases hw
    | @park c writer _ _ hcause hrw happ htag _ _ =>
      rw [hrw] at hw
      cases hold : s.heap.waits.queue (.rwlock r) with
      | cons n' rest' =>
        rw [happ, hold] at hqueue
        obtain ⟨rfl, -⟩ : n' = n ∧ _ := by simpa using hqueue
        exact hfirst rest' hold hw
      | nil =>
        -- only a writer parks on an empty queue while no writer holds the lock
        rw [happ, hold] at hqueue
        obtain ⟨rfl, -⟩ : NodeRef.wq c = n ∧ _ := by simpa using hqueue
        rw [htag]
        rcases hcause with hne | hw' | ⟨hwriter, -⟩
        · exact absurd hold hne
        · exact absurd (hw.symm.trans hw') (by simp)
        · exact hwriter
    | leave _ _ _ hsame hcause _ =>
      rcases hcause with hheld | hnil
      · -- others read on: the lock had more readers than one, and no writer
        have hno : (s.heap.rw r).writer = false := by
          by_contra hyes
          have hyes : (s.heap.rw r).writer = true := by simpa using hyes
          refine hheld ⟨?_, rwReleased_writer _⟩
          simp [rwReleased, hyes, hR.excl r hyes]
        exact hfirst rest (hsame ▸ hqueue) hno
      · rw [hsame, hnil] at hqueue
        cases hqueue
    | passWriter _ _ _ _ _ hrw _ _ =>
      rw [hrw] at hw
      cases hw
    | @passReaders readers left _ _ _ hold _ _ hhead _ hleft _ =>
      have hmem : n ∈ left.head? := by simp [← hleft, hqueue]
      rw [step_writer hinv hstep hl (by rw [hold]; exact List.mem_append_right _ (List.mem_of_mem_head? hmem))
        (by simp [hqueue])]
      exact hhead n hmem
  · have hw' : (s.heap.rw r).writer = false := by rwa [hheap] at hw
    have herase : (s.heap.waits.queue (.rwlock r)).erase (.wq c) = n :: rest := by
      rw [← decide_queue hinv.wf hd, ← hqueue, hheap]
    cases hold : s.heap.waits.queue (.rwlock r) with
    | nil =>
      rw [hold] at herase
      cases herase
    | cons n' rest' =>
      by_cases hn : n' = .wq c
      · subst hn
        rw [hold, List.erase_cons_head] at herase
        subst herase
        -- the writer at the head is gone, and a writer is next
        have hn' : (s.heap.waits.node n).writer = true := by
          by_contra hno
          exact hkeep r ⟨c, f.code, n, rest, hact, hold, hw', hI r hw' _ _ hold, by simpa using hno⟩
        rwa [step_writer hinv hstep hl (by simp [hold]) (by simp [hqueue])]
      · rw [hold, List.erase_cons_tail (by simpa using hn)] at herase
        obtain ⟨rfl, -⟩ := List.cons.inj herase
        exact hfirst rest' hold hw'
  · rw [hq.rw] at hw
    rw [hq.queue _ hl] at hqueue
    exact hfirst rest hqueue hw

/-- It holds in every state that steps of the other kinds lead to. -/
lemma writerFirst_reachable {cfg : Config} {s : Core}
    (hs : Reachable (Restrict Step KeepsHead) (.init cfg) s) : WriterFirst s := by
  refine hs.invariant_of (J := fun s => Inv s ∧ RwInv s)
    (fun q hq => ⟨inv_reachable hq.of_restrict, rwInv_reachable hq.of_restrict⟩) ?_ ?_
  · intro r _ n rest hqueue
    cases hqueue
  · rintro s e t ⟨hinv, hR⟩ - hI ⟨hstep, hkeep⟩
    exact writerFirst_step hinv hR hI hstep hkeep

end Suspenders.Sync
