import Mathlib.Data.List.Pairwise
import Mathlib.Tactic.Common

/-!
# Queues with tickets

Clients enter one after the other and each draws a ticket, the time of its entry.  Some are served at
once, others wait in a queue and are served later, first come first served; clients may leave the queue
unserved, or stay in it although they can no longer be served.  `Line usable tick now q done` is the
invariant of such a queue `q` and of the list `done` of those served, with what they were served:
the tickets in `done` are increasing, so clients are served in the order in which they entered.
-/

namespace Suspenders.Lib

variable {ν β : Type*} {usable usable' : ν → Prop} {tick tick' : ν → ℕ} {now now' : ℕ}
  {q q' : List ν} {done : List (ℕ × β)}

/-- Queue `q` holds clients in the order of their tickets, and every client that can still be served
entered after all those already served. -/
structure Line (usable : ν → Prop) (tick : ν → ℕ) (now : ℕ) (q : List ν) (done : List (ℕ × β)) :
    Prop where
  /-- The queue is in the order of entry. -/
  sorted : q.Pairwise fun n m => tick n < tick m
  /-- Everybody in it has entered. -/
  lt_now : ∀ n ∈ q, tick n < now
  /-- Clients are served in the order of entry. -/
  done_sorted : done.Pairwise fun x y => x.1 < y.1
  /-- Everybody served has entered. -/
  done_lt : ∀ x ∈ done, x.1 < now
  /-- Whoever can still be served entered after those served. -/
  ahead : ∀ n ∈ q, usable n → ∀ x ∈ done, x.1 < tick n

namespace Line

/-- The empty queue. -/
lemma nil : Line usable tick now [] ([] : List (ℕ × β)) :=
  ⟨.nil, by simp, .nil, by simp, by simp⟩

/-- Time passes, and clients leave the queue or can no longer be served. -/
lemma mono (h : Line usable tick now q done) (hq : q'.Sublist q) (hnow : now ≤ now')
    (husable : ∀ n ∈ q', usable' n → usable n) (htick : ∀ n ∈ q', tick' n = tick n) :
    Line usable' tick' now' q' done where
  sorted := by
    refine (h.sorted.sublist hq).imp_of_mem fun {n m} hn hm hlt => ?_
    rwa [htick n hn, htick m hm]
  lt_now := fun n hn => by
    rw [htick n hn]
    exact Nat.lt_of_lt_of_le (h.lt_now n (hq.subset hn)) hnow
  done_sorted := h.done_sorted
  done_lt := fun x hx => Nat.lt_of_lt_of_le (h.done_lt x hx) hnow
  ahead := fun n hn hu x hx => by
    rw [htick n hn]
    exact h.ahead n (hq.subset hn) (husable n hn hu) x hx

/-- A client enters and waits. -/
lemma push (h : Line usable tick now q done) {n : ν} (hn : tick' n = now)
    (htick : ∀ m ∈ q, tick' m = tick m) : Line usable tick' (now + 1) (q ++ [n]) done where
  sorted := by
    rw [List.pairwise_append]
    refine ⟨?_, List.pairwise_singleton _ _, fun m hm n' hn' => ?_⟩
    · refine h.sorted.imp_of_mem fun {m m'} hm hm' hlt => ?_
      rwa [htick m hm, htick m' hm']
    · rw [List.mem_singleton] at hn'
      subst hn'
      rw [htick m hm, hn]
      exact h.lt_now m hm
  lt_now := fun m hm => by
    rcases List.mem_append.mp hm with hm | hm
    · rw [htick m hm]
      exact Nat.lt_succ_of_lt (h.lt_now m hm)
    · rw [List.mem_singleton] at hm
      subst hm
      omega
  done_sorted := h.done_sorted
  done_lt := fun x hx => Nat.lt_succ_of_lt (h.done_lt x hx)
  ahead := fun m hm hu x hx => by
    rcases List.mem_append.mp hm with hm | hm
    · rw [htick m hm]
      exact h.ahead m hm hu x hx
    · rw [List.mem_singleton] at hm
      subst hm
      rw [hn]
      exact h.done_lt x hx

/-- The list of those served grows by a later ticket. -/
lemma done_append (h : Line usable tick now q done) {t : ℕ} {v : β} (ht : ∀ x ∈ done, x.1 < t) :
    (done ++ [(t, v)]).Pairwise fun x y => x.1 < y.1 := by
  rw [List.pairwise_append]
  refine ⟨h.done_sorted, List.pairwise_singleton _ _, fun x hx y hy => ?_⟩
  rw [List.mem_singleton] at hy
  subst hy
  exact ht x hx

/-- The first client that can be served is served. -/
lemma serve {losers : List ν} {n : ν} (h : Line usable tick now (losers ++ n :: q) done)
    (hn : usable n) (v : β) : Line usable tick now q (done ++ [(tick n, v)]) := by
  have hmem : n ∈ losers ++ n :: q := by simp
  have hsub : q.Sublist (losers ++ n :: q) :=
    (List.sublist_cons_self n q).trans (List.sublist_append_right _ _)
  have hbehind : ∀ m ∈ q, tick n < tick m := by
    have hsorted := (List.pairwise_append.mp h.sorted).2.1
    exact (List.pairwise_cons.mp hsorted).1
  refine ⟨h.sorted.sublist hsub, fun m hm => h.lt_now m (hsub.subset hm),
    h.done_append (h.ahead n hmem hn), fun x hx => ?_, fun m hm hu x hx => ?_⟩
  · rcases List.mem_append.mp hx with hx | hx
    · exact h.done_lt x hx
    · rw [List.mem_singleton] at hx
      subst hx
      exact h.lt_now n hmem
  · rcases List.mem_append.mp hx with hx | hx
    · exact h.ahead m (hsub.subset hm) hu x hx
    · rw [List.mem_singleton] at hx
      subst hx
      exact hbehind m hm

/-- A client enters and is served at once, while nobody in the queue can be served. -/
lemma direct (h : Line usable tick now q done) (hq : ∀ n ∈ q, ¬ usable n) (v : β) :
    Line usable tick (now + 1) q (done ++ [(now, v)]) := by
  refine ⟨h.sorted, fun n hn => Nat.lt_succ_of_lt (h.lt_now n hn), h.done_append h.done_lt,
    fun x hx => ?_, fun n hn hu => absurd hu (hq n hn)⟩
  rcases List.mem_append.mp hx with hx | hx
  · exact Nat.lt_succ_of_lt (h.done_lt x hx)
  · rw [List.mem_singleton] at hx
    subst hx
    exact Nat.lt_succ_self now

end Line

end Suspenders.Lib
