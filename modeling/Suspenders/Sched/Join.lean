import Mathlib.Algebra.Order.BigOperators.Group.Finset
import Suspenders.Sched.StartupOwners

/-!
# The threads can be joined

`suspenders_shutdown`, and `suspenders_init` when a thread could not be started, set `s_stop`, write the wake
descriptor of every thread and join it.  `shutdown_returns` says that they do not wait for ever, wherever the threads
are when they are told to stop, provided that every coroutine switches out after finitely many calls.

A thread that looks at `s_stop` while it is parked does not begin to wait, and the wake descriptor of one that waits
already stays readable until it is drained (`Sys.Inv.kicked`).  So every thread can go on until it has returned, and
each of its steps decreases its `Helper.rank`.
-/

namespace Suspenders.Startup

open Lib Function

/-- A bound for the steps of a thread from here on, when `s_stop` is set. -/
def Helper.rank : Helper → ℕ
  | none => 0
  | exited => 1
  | left => 2
  | top => 3
  | slice n => n + 4
  | parked => 4
  | wait => 4
  | register => 4
  | create => 5
  | heap => 6

namespace Sys

variable {s t : Sys} {p : Platform} {i : ℕ} {a : Act}

/-- The threads are being stopped and joined. -/
def Stopping (s : Sys) : Prop :=
  match s.main with
  | .out | .starts _ => False
  | _ => True

/-- A bound for the steps of the main thread, while the threads are being stopped. -/
def mainRank (s : Sys) : ℕ :=
  match s.main with
  | .out | .starts _ => 0
  | .undoes j i => 2 * (i - j) + 1
  | .undoJoins j i => 2 * (i - j)
  | .kicks i => (s.numWorkers - i) + s.numWorkers + 2
  | .joins i => (s.numWorkers - i) + 1

def rank (s : Sys) : ℕ := s.mainRank + ∑ k ∈ Finset.range s.numWorkers, (s.helper k).rank

/-- Every step of a thread that has been told to stop takes it nearer to its end. -/
lemma rank_thread (hstop : s.stop = true) (he : s.thread p i a = some t) : (t.helper i).rank < (s.helper i).rank := by
  unfold thread at he
  split at he
  next ok heq =>
    cases he
    rw [heq]
    cases ok <;> simp [goto, Helper.rank]
  next o heq =>
    generalize backendCreate p o s.alloc = r at he
    obtain ⟨be, m⟩ := r
    cases he
    rw [heq]
    cases be <;> simp [goto, Helper.rank]
  next heq => cases he; simp [heq, Helper.rank]
  next n heq => cases he; simp [gotoTouch, heq, hstop, Helper.rank]
  next heq => cases he; simp [gotoTouch, heq, hstop, Helper.rank]
  next n w heq => cases he; simp [goto, heq, Helper.rank]
  next heq => cases he; simp [goto, heq, Helper.rank]
  next found heq => cases he; simp [gotoTouch, heq, hstop, Helper.rank]
  next heq =>
    split at he
    · cases he
      simp [heq, Helper.rank]
    · cases he
  next heq => cases he; simp [gotoTouch, heq, Helper.rank]
  next heq => cases he; simp [goto, heq, Helper.rank]
  next => cases he

/-- A thread that has not returned can go on, unless it waits and nobody wakes it. -/
lemma exists_thread (p : Platform) (hnone : s.helper i ≠ .none) (hexited : s.helper i ≠ .exited)
    (hwait : s.helper i = .wait → s.readable i = true) : ∃ a t, s.thread p i a = some t := by
  cases hi : s.helper i with
  | none => exact absurd hi hnone
  | exited => exact absurd hi hexited
  | heap => exact ⟨.heap true, _, by unfold thread; rw [hi]⟩
  | create => exact ⟨.create ⟨true, (true, true), true, true, true⟩, _, by unfold thread; rw [hi]⟩
  | register => exact ⟨.register, _, by unfold thread; rw [hi]⟩
  | top => exact ⟨.park, _, by unfold thread; rw [hi]⟩
  | slice n =>
    cases n with
    | zero => exact ⟨.back, _, by unfold thread; rw [hi]⟩
    | succ n => exact ⟨.work (.grow false), _, by unfold thread; rw [hi]⟩
  | parked => exact ⟨.look true, _, by unfold thread; rw [hi]⟩
  | wait => exact ⟨.woken, _, by unfold thread; rw [hi]; exact if_pos (hwait hi)⟩
  | left => exact ⟨.reap, _, by unfold thread; rw [hi]⟩

/-- A step of a thread decreases the rank. -/
lemma rank_lt_of_thread (hs : s.Inv) (hstop : s.stop = true) (he : s.thread p i a = some t) : t.rank < s.rank := by
  have honly := Inv.only_thread he
  have hrank := rank_thread hstop he
  have hi : s.helper i ≠ .none := by
    intro hnone
    rw [hnone] at hrank
    exact absurd hrank (Nat.not_lt_zero _)
  have hmain : t.mainRank = s.mainRank := by rw [mainRank, mainRank, honly.main, honly.numWorkers]
  have hsum : ∑ k ∈ Finset.range s.numWorkers, (t.helper k).rank <
      ∑ k ∈ Finset.range s.numWorkers, (s.helper k).rank := by
    refine Finset.sum_lt_sum (fun k _ => ?_) ⟨i, Finset.mem_range.mpr (hs.lt_of_helper hi).2.2, hrank⟩
    by_cases hk : k = i
    · exact hk ▸ hrank.le
    · rw [honly.helper k hk]
  rw [rank, rank, honly.numWorkers, hmain]
  omega

/-- A step of the main thread decreases the rank, if it does not start a thread. -/
lemma rank_lt_of_main (hmain : t.mainRank < s.mainRank) (hn : t.numWorkers ≤ s.numWorkers)
    (hhelper : ∀ k, (t.helper k).rank ≤ (s.helper k).rank) : t.rank < s.rank := by
  have hsum : ∑ k ∈ Finset.range t.numWorkers, (t.helper k).rank ≤ ∑ k ∈ Finset.range s.numWorkers, (s.helper k).rank :=
    calc ∑ k ∈ Finset.range t.numWorkers, (t.helper k).rank
        ≤ ∑ k ∈ Finset.range s.numWorkers, (t.helper k).rank :=
          Finset.sum_le_sum_of_subset (Finset.range_subset_range.mpr hn)
      _ ≤ ∑ k ∈ Finset.range s.numWorkers, (s.helper k).rank := Finset.sum_le_sum fun k _ => hhelper k
  rw [rank, rank]
  omega

/-- The thread that is joined has nothing left to do. -/
lemma rank_join (k : ℕ) : (update s.helper i .none k).rank ≤ (s.helper k).rank := by
  by_cases hk : k = i
  · rw [hk, update_self]
    exact Nat.zero_le _
  · rw [update_of_ne hk]

lemma stop_of_stopping (hs : s.Inv) (hstopping : s.Stopping) : s.stop = true := by
  have hb := hs.bounds
  rw [Bounds] at hb
  rw [Stopping] at hstopping
  split at hb
  next heq => rw [heq] at hstopping; exact hstopping.elim
  next heq => rw [heq] at hstopping; exact hstopping.elim
  next => exact hb.2.2.2.2
  next => exact hb.2.2.2.2
  next => exact hb.2.2.2
  next => exact hb.2.2.2

lemma numWorkers_undone : s.undone.numWorkers = 0 := by
  show (s.wakesDestroy s.numWorkers).workersFree.numWorkers = 0
  rw [workersFree_eq]

lemma numWorkers_down : s.down.numWorkers = 0 := by
  rw [down]
  dsimp only
  split
  · rw [workersFree_eq]
  · rfl

/-- When the main thread has returned, the rank is 0. -/
lemma rank_lt_of_out (ht : t.main = .out) (hn : t.numWorkers = 0) (hs : 0 < s.mainRank) : t.rank < s.rank := by
  have hzero : t.rank = 0 := by simp [rank, mainRank, ht, hn]
  rw [hzero, rank]
  omega

/-- While the threads are being stopped, every step decreases the rank. -/
lemma rank_lt {e : Event} (hs : s.Inv) (hstopping : s.Stopping) (he : s.step p e = some t) : t.rank < s.rank := by
  have hstop := stop_of_stopping hs hstopping
  have hb := hs.bounds
  rw [Stopping] at hstopping
  rw [Bounds] at hb
  unfold Sys.step at he
  split at he
  next heq => rw [heq] at hstopping; exact hstopping.elim
  next heq => rw [heq] at hstopping; exact hstopping.elim
  next j i heq =>
    cases he
    rw [heq] at hb
    split
    next hji =>
      refine rank_lt_of_main ?_ le_rfl fun _ => le_rfl
      simp only [mainRank, heq]
      omega
    next =>
      refine rank_lt_of_out rfl numWorkers_undone ?_
      simp only [mainRank, heq]
      omega
  next j i heq =>
    split at he
    · cases he
      rw [heq] at hb
      refine rank_lt_of_main ?_ le_rfl rank_join
      simp only [mainRank, heq]
      omega
    · cases he
  next heq => rw [heq] at hstopping; exact hstopping.elim
  next i heq =>
    cases he
    rw [heq] at hb
    split
    next hlt =>
      refine rank_lt_of_main ?_ le_rfl fun _ => le_rfl
      simp only [mainRank, heq, kick]
      omega
    next =>
      refine rank_lt_of_main ?_ le_rfl fun _ => le_rfl
      simp only [mainRank, heq]
      omega
  next i heq =>
    rw [heq] at hb
    split at he
    next hlt =>
      split at he
      · cases he
        refine rank_lt_of_main ?_ le_rfl rank_join
        simp only [mainRank, heq, goto]
        omega
      · cases he
    next =>
      cases he
      refine rank_lt_of_out rfl numWorkers_down ?_
      simp only [mainRank, heq]
      omega
  next heq => rw [heq] at hstopping; exact hstopping.elim
  next => exact rank_lt_of_thread hs hstop he
  next => cases he

/-- While the threads are being stopped, there is a step until the main thread has returned. -/
lemma exists_step (p : Platform) (hs : s.Inv) (hstopping : s.Stopping) : ∃ e t, Step p s e t := by
  have hthread {k : ℕ} (hpending : s.Pending k) (hkicked : s.Kicked k) (hexited : s.helper k ≠ .exited) :
      ∃ e t, Step p s e t := by
    obtain ⟨a, t, he⟩ := exists_thread p ((hs.pending k).mpr hpending) hexited (hs.kicked k hkicked).2
    refine ⟨.thread k a, t, ?_, fun n o hno => by cases hno⟩
    show s.step p (.thread k a) = some t
    unfold step
    exact he
  have hstops {t : Sys} (he : s.step p .stops = some t) : ∃ e t, Step p s e t :=
    ⟨.stops, t, he, fun n o hno => by cases hno⟩
  have hb := hs.bounds
  rw [Bounds] at hb
  cases hmain : s.main with
  | out => rw [Stopping, hmain] at hstopping; exact hstopping.elim
  | starts i => rw [Stopping, hmain] at hstopping; exact hstopping.elim
  | undoes j i => exact hstops (by unfold step; rw [hmain])
  | undoJoins j i =>
    rw [hmain] at hb
    by_cases hexited : s.helper j = .exited
    · exact hstops (by unfold step; rw [hmain]; exact if_pos hexited)
    · refine hthread ?_ ?_ hexited
      · rw [Pending, hmain]
        exact ⟨le_rfl, hb.2.1⟩
      · rw [Kicked, hmain]
  | kicks i => exact hstops (by unfold step; rw [hmain])
  | joins i =>
    by_cases hlt : i < s.numWorkers
    · by_cases hexited : s.helper i = .exited
      · exact hstops (by unfold step; rw [hmain]; exact (if_pos hlt).trans (if_pos hexited))
      · refine hthread ?_ ?_ hexited
        · rw [Pending, hmain]
          exact ⟨le_rfl, hlt⟩
        · rw [Kicked, hmain]
          trivial
    · exact hstops (by unfold step; rw [hmain]; exact if_neg hlt)

/-- The main thread stops the threads until it returns. -/
lemma stopping_or_out {e : Event} (hstopping : s.Stopping) (he : s.step p e = some t) : t.Stopping ∨ t.main = .out := by
  unfold step at he
  split at he
  next heq => rw [Stopping, heq] at hstopping; exact hstopping.elim
  next heq => rw [Stopping, heq] at hstopping; exact hstopping.elim
  next j i heq =>
    cases he
    split
    · exact .inl trivial
    · exact .inr rfl
  next =>
    split at he
    · cases he
      exact .inl trivial
    · cases he
  next heq => rw [Stopping, heq] at hstopping; exact hstopping.elim
  next =>
    cases he
    split
    · exact .inl trivial
    · exact .inl trivial
  next =>
    split at he
    · split at he
      · cases he
        exact .inl trivial
      · cases he
    · cases he
      exact .inr rfl
  next heq => rw [Stopping, heq] at hstopping; exact hstopping.elim
  next =>
    have honly := Inv.only_thread he
    rw [Stopping, honly.main]
    exact .inl hstopping
  next => cases he

end Sys

/-- `suspenders_shutdown` returns, and so does `suspenders_init` when a thread cannot be started, wherever the threads
are, if every coroutine that they run switches out after finitely many calls. -/
theorem shutdown_returns {p : Platform} {s : Sys} (h : Reachable (Step p) .start s) (hs : s.Stopping) :
    Leads (fun s t => s.Stopping ∧ ∃ e, Step p s e t) (fun s => s.main = .out) s := by
  refine Leads.of_measure (I := fun s => s.Inv ∧ (s.Stopping ∨ s.main = .out)) Sys.rank ?_ ?_ ?_
    ⟨Sys.inv_of_reachable h, .inl hs⟩
  · rintro s t ⟨hinv, -⟩ ⟨hstopping, e, he⟩
    exact ⟨hinv.step he, Sys.stopping_or_out hstopping he.1⟩
  · rintro s t ⟨hinv, -⟩ ⟨hstopping, e, he⟩
    exact Sys.rank_lt hinv hstopping he.1
  · rintro s ⟨hinv, hstopping | hout⟩ hnot
    · obtain ⟨e, t, he⟩ := Sys.exists_step p hinv hstopping
      exact ⟨t, hstopping, e, he⟩
    · exact absurd hout hnot

/-- The runtime with two workers is shut down before the thread of the second one has run. -/
theorem shutdown_returns_two :
    ∃ s, Reachable (Step ⟨false, false, true⟩) .start s ∧ s.main = .kicks 1 ∧ s.helper 1 = .heap ∧
      Leads (fun s t => s.Stopping ∧ ∃ e, Step ⟨false, false, true⟩ s e t) (fun s => s.main = .out) s := by
  let o : InitCalls := ⟨true, ⟨false, (false, false), true, true, true⟩, true, fun _ => true⟩
  let s₁ : Sys := Sys.start.init ⟨false, false, true⟩ 2 o
  let s₂ : Sys := (s₁.create 1 true).create 2 true
  have h₁ : Step ⟨false, false, true⟩ .start (.init 2 o) s₁ := ⟨rfl, fun _ _ _ => rfl⟩
  have h₂ : Step ⟨false, false, true⟩ s₁ (.create true) (s₁.create 1 true) := ⟨rfl, fun _ _ h => by cases h⟩
  have h₃ : Step ⟨false, false, true⟩ (s₁.create 1 true) (.create true) s₂ := ⟨rfl, fun _ _ h => by cases h⟩
  have h₄ : Step ⟨false, false, true⟩ s₂ .shutdown { s₂ with stop := true, main := .kicks 1 } :=
    ⟨rfl, fun _ _ h => by cases h⟩
  have hrun := ((((Reachable.refl _ _).step h₁).step h₂).step h₃).step h₄
  exact ⟨_, hrun, rfl, rfl, shutdown_returns hrun trivial⟩

end Suspenders.Startup
