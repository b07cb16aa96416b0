import Mathlib.Algebra.Group.Nat.Defs
import Mathlib.Data.Fintype.Card
import Mathlib.Data.List.Nodup
import Mathlib.Logic.Function.Basic
import Suspenders.Lib.Run

/-!
# The ticket lock

A thread that wants the lock draws a ticket, and spins until `now_serving` is its ticket.  Who unlocks loads
`now_serving` and stores its successor.  Both counters have 32 bits and wrap.  Every access is a step of its own; the
pauses between two tests of a spinning thread are none.

The threads that have drawn a ticket form a queue.  The `i`-th one has ticket `now_serving + i`, and as long as there
are less than `2 ^ 32` of them, the tickets differ (`TicketInv`).
-/

namespace Suspenders.Sync

open Lib Function

/-- Where a thread is. -/
inductive TicketPc
  | outside
  /-- In the loop of `suspenders_ticket_lock`. -/
  | spinning (myTicket : UInt32)
  /-- Between `suspenders_ticket_lock` and `suspenders_ticket_unlock`. -/
  | inside
  /-- In `suspenders_ticket_unlock`, behind the load. -/
  | unlocking (current : UInt32)
  deriving DecidableEq

def TicketPc.isSpinning : TicketPc → Bool
  | spinning _ => true
  | _ => false

/-- `suspenders_ticket_lock_t`, and the threads that use it. -/
structure TicketLock (τ : Type*) where
  nextTicket : UInt32
  nowServing : UInt32
  pc : τ → TicketPc

/-- A step of thread `t`. -/
inductive TicketAct (τ : Type*)
  /-- The `fetch_add` on `next_ticket`. -/
  | draw (t : τ)
  /-- The test of the loop. -/
  | test (t : τ)
  /-- The load of `now_serving` in unlock. -/
  | load (t : τ)
  /-- The store of `now_serving` in unlock. -/
  | store (t : τ)

namespace TicketLock

variable {τ : Type*} [DecidableEq τ]

/-- `suspenders_ticket_init` -/
def init : TicketLock τ := ⟨0, 0, fun _ => .outside⟩

def setPc (s : TicketLock τ) (t : τ) (x : TicketPc) : TicketLock τ := { s with pc := update s.pc t x }

/-- The steps of `suspenders_ticket_lock` and `suspenders_ticket_unlock`. -/
def step (s : TicketLock τ) : TicketAct τ → Option (TicketLock τ)
  | .draw t =>
    match s.pc t with
    | .outside => some { s.setPc t (.spinning s.nextTicket) with nextTicket := s.nextTicket + 1 }
    | _ => none
  | .test t =>
    match s.pc t with
    | .spinning my => some (if s.nowServing ≠ my then s else s.setPc t .inside)
    | _ => none
  | .load t =>
    match s.pc t with
    | .inside => some (s.setPc t (.unlocking s.nowServing))
    | _ => none
  | .store t =>
    match s.pc t with
    | .unlocking current => some { s.setPc t .outside with nowServing := current + 1 }
    | _ => none

/-- Thread `t` has the lock. -/
def Holds (s : TicketLock τ) (t : τ) : Prop := s.pc t = .inside ∨ ∃ k, s.pc t = .unlocking k

/-- Less than `2 ^ 32` threads have the lock or want it. -/
def Fits (s : TicketLock τ) : Prop := ∀ l : List τ, l.Nodup → (∀ t ∈ l, s.pc t ≠ .outside) → l.length < 2 ^ 32

end TicketLock

/-- The threads that drew a ticket and those that got the lock, each in order. -/
structure TicketHist (τ : Type*) where
  drawn : List τ
  got : List τ

variable {τ : Type*} [DecidableEq τ]

/-- What a step records. -/
def TicketHist.record (m : TicketHist τ) (s : TicketLock τ) : TicketAct τ → TicketHist τ
  | .draw t => { m with drawn := m.drawn ++ [t] }
  | .test t => if s.pc t = .spinning s.nowServing then { m with got := m.got ++ [t] } else m
  | _ => m

/-- A step after which the threads do not use up the tickets. -/
abbrev TicketStep : TicketLock τ × TicketHist τ → TicketAct τ → TicketLock τ × TicketHist τ → Prop :=
  Restrict (Recorded (StepOf TicketLock.step) TicketHist.record) fun _ _ p => p.1.Fits

/-! ## The queue -/

/-- The threads in `q` have drawn their tickets one after the other, and only the first one can have the lock. -/
structure TicketInv (s : TicketLock τ) (q : List τ) : Prop where
  nodup : q.Nodup
  mem : ∀ t, t ∈ q ↔ s.pc t ≠ .outside
  next : s.nextTicket = s.nowServing + UInt32.ofNat q.length
  pc : ∀ i t, q[i]? = some t → s.pc t = .spinning (s.nowServing + UInt32.ofNat i) ∨
    i = 0 ∧ (s.pc t = .inside ∨ s.pc t = .unlocking s.nowServing)

/-- The threads of `q` that wait. -/
def TicketLock.waiting (s : TicketLock τ) (q : List τ) : List τ := q.filter fun t => (s.pc t).isSpinning

section Steps

variable {s : TicketLock τ} {q : List τ} {t u : τ}

lemma add_ofNat_inj {a : UInt32} {i j : ℕ} (hi : i < 2 ^ 32) (hj : j < 2 ^ 32)
    (h : a + UInt32.ofNat i = a + UInt32.ofNat j) : i = j := by
  have hnat := congrArg UInt32.toNat ((UInt32.add_right_inj a).mp h)
  rwa [UInt32.toNat_ofNat', UInt32.toNat_ofNat', Nat.mod_eq_of_lt hi, Nat.mod_eq_of_lt hj] at hnat

namespace TicketInv

omit [DecidableEq τ]

/-- The threads behind the first one wait. -/
lemma tail_spinning (h : TicketInv s (t :: q)) {i : ℕ} (hi : q[i]? = some u) :
    s.pc u = .spinning (s.nowServing + UInt32.ofNat (i + 1)) := by
  rcases h.pc (i + 1) u (by simpa using hi) with hu | ⟨h0, -⟩
  · exact hu
  · cases h0

/-- A thread that does not wait is the first one. -/
lemma eq_cons (h : TicketInv s q) (hout : s.pc t ≠ .outside) (hspin : (s.pc t).isSpinning = false) :
    ∃ r, q = t :: r ∧ (s.pc t = .inside ∨ s.pc t = .unlocking s.nowServing) := by
  obtain ⟨i, hi⟩ := List.mem_iff_getElem?.mp ((h.mem t).mpr hout)
  rcases h.pc i t hi with hpc | ⟨rfl, hpc⟩
  · rw [hpc] at hspin
    cases hspin
  · cases q with
    | nil => cases hi
    | cons u r =>
      obtain rfl : u = t := by simpa using hi
      exact ⟨r, rfl, hpc⟩

/-- The thread whose ticket is served is the first one. -/
lemma eq_cons_of_served (h : TicketInv s q) (hlen : q.length < 2 ^ 32) (hpc : s.pc t = .spinning s.nowServing) :
    ∃ r, q = t :: r := by
  obtain ⟨i, hi⟩ := List.mem_iff_getElem?.mp ((h.mem t).mpr (by simp [hpc]))
  rcases h.pc i t hi with hspin | ⟨-, hin | hin⟩
  · have hlt : i < q.length := (List.getElem?_eq_some_iff.mp hi).1
    have hzero : s.nowServing + UInt32.ofNat i = s.nowServing + UInt32.ofNat 0 := by
      have heq := hspin.symm.trans hpc
      simpa using heq
    obtain rfl := add_ofNat_inj (Nat.lt_trans hlt hlen) (by decide) hzero
    cases q with
    | nil => cases hi
    | cons u r =>
      obtain rfl : u = t := by simpa using hi
      exact ⟨r, rfl⟩
  · rw [hpc] at hin
    cases hin
  · rw [hpc] at hin
    cases hin

/-- The first thread has the lock or is served. -/
lemma head_pc (h : TicketInv s (t :: q)) :
    s.pc t = .spinning s.nowServing ∨ s.pc t = .inside ∨ s.pc t = .unlocking s.nowServing := by
  rcases h.pc 0 t rfl with hpc | ⟨-, hpc⟩
  · exact .inl (by simpa using hpc)
  · exact .inr hpc

lemma waiting_tail (h : TicketInv s (t :: q)) : s.waiting q = q := by
  refine List.filter_eq_self.mpr fun u hu => ?_
  obtain ⟨i, hi⟩ := List.mem_iff_getElem?.mp hu
  rw [h.tail_spinning hi]
  rfl

end TicketInv

/-- A thread draws a ticket. -/
lemma ticketInv_draw (h : TicketInv s q) (ht : s.pc t = .outside) :
    TicketInv { s.setPc t (.spinning s.nextTicket) with nextTicket := s.nextTicket + 1 } (q ++ [t]) := by
  have htq : t ∉ q := fun hmem => (h.mem t).mp hmem ht
  have hother {i : ℕ} {u : τ} (hi : q[i]? = some u) : u ≠ t := fun heq => htq (heq ▸ List.mem_of_getElem? hi)
  refine ⟨List.nodup_append'.mpr ⟨h.nodup, List.nodup_singleton t, by simpa using htq⟩, fun u => ?_, ?_, fun i u hi => ?_⟩
  · by_cases hu : u = t
    · simp [TicketLock.setPc, hu]
    · simp [TicketLock.setPc, hu, h.mem u]
  · simp only [TicketLock.setPc, h.next, List.length_append, List.length_singleton, UInt32.ofNat_add, UInt32.add_assoc]
    rfl
  · rcases Nat.lt_or_ge i q.length with hlt | hge
    · rw [List.getElem?_append_left hlt] at hi
      simpa [TicketLock.setPc, hother hi] using h.pc i u hi
    · have hlt := (List.getElem?_eq_some_iff.mp hi).1
      obtain rfl : i = q.length := by
        rw [List.length_append, List.length_singleton] at hlt
        omega
      obtain rfl : t = u := by simpa using hi
      exact .inl (by simp [TicketLock.setPc, h.next])

/-- The first thread goes on. -/
lemma ticketInv_setPc (h : TicketInv s (t :: q)) {x : TicketPc} (hx : x = .inside ∨ x = .unlocking s.nowServing) :
    TicketInv (s.setPc t x) (t :: q) := by
  have hne : x ≠ .outside := by rcases hx with rfl | rfl <;> simp
  have htq := (List.nodup_cons.mp h.nodup).1
  refine ⟨h.nodup, fun u => ?_, h.next, fun i u hi => ?_⟩
  · by_cases hu : u = t
    · simp [TicketLock.setPc, hu, hne]
    · rw [h.mem u]
      simp [TicketLock.setPc, hu]
  · cases i with
    | zero =>
      obtain rfl : t = u := by simpa using hi
      exact .inr ⟨rfl, by simpa [TicketLock.setPc] using hx⟩
    | succ i =>
      have hi' : q[i]? = some u := by simpa using hi
      have hu : u ≠ t := fun heq => htq (heq ▸ List.mem_of_getElem? hi')
      exact .inl (by simpa [TicketLock.setPc, hu] using h.tail_spinning hi')

/-- The first thread leaves. -/
lemma ticketInv_store (h : TicketInv s (t :: q)) :
    TicketInv { s.setPc t .outside with nowServing := s.nowServing + 1 } q := by
  obtain ⟨htq, hnodup⟩ := List.nodup_cons.mp h.nodup
  have hsucc (i : ℕ) : s.nowServing + UInt32.ofNat (i + 1) = s.nowServing + 1 + UInt32.ofNat i := by
    rw [UInt32.ofNat_add, UInt32.add_comm (UInt32.ofNat i), ← UInt32.add_assoc]
    rfl
  refine ⟨hnodup, fun u => ?_, ?_, fun i u hi => .inl ?_⟩
  · by_cases hu : u = t
    · simp [TicketLock.setPc, hu, htq]
    · have := h.mem u
      simp only [List.mem_cons, hu, false_or] at this
      simp [TicketLock.setPc, hu, this]
  · exact h.next.trans (hsucc q.length)
  · have hu : u ≠ t := fun heq => htq (heq ▸ List.mem_of_getElem? hi)
    have := h.tail_spinning hi
    rw [hsucc] at this
    simpa [TicketLock.setPc, hu] using this

omit [DecidableEq τ] in
lemma waiting_congr {s' : TicketLock τ} (h : ∀ u ∈ q, s'.pc u = s.pc u) : s'.waiting q = s.waiting q :=
  List.filter_congr fun u hu => by rw [h u hu]

lemma waiting_draw (h : TicketInv s q) (ht : s.pc t = .outside) (k : UInt32) :
    TicketLock.waiting { s.setPc t (.spinning s.nextTicket) with nextTicket := k } (q ++ [t]) = s.waiting q ++ [t] := by
  have hq : TicketLock.waiting { s.setPc t (.spinning s.nextTicket) with nextTicket := k } q = s.waiting q :=
    waiting_congr fun u hu => update_of_ne (fun heq : u = t => (h.mem u).mp hu (heq ▸ ht)) _ _
  rw [← hq, TicketLock.waiting, List.filter_append]
  simp [TicketLock.waiting, TicketLock.setPc, TicketPc.isSpinning]

omit [DecidableEq τ] in
/-- Who waits when the first thread has the lock. -/
lemma waiting_cons (h : TicketInv s (t :: q)) (ht : (s.pc t).isSpinning = false) : s.waiting (t :: q) = q := by
  rw [TicketLock.waiting, List.filter_cons_of_neg (by simp [ht])]
  exact h.waiting_tail

omit [DecidableEq τ] in
/-- Who waits when nobody has the lock. -/
lemma waiting_cons_of_spinning (h : TicketInv s (t :: q)) (ht : (s.pc t).isSpinning = true) :
    s.waiting (t :: q) = t :: q := by
  rw [TicketLock.waiting, List.filter_cons_of_pos (by simp [ht])]
  exact congrArg (t :: ·) h.waiting_tail

end Steps

/-! ## Runs -/

/-- The queue, and the threads of the queue that wait are those that drew a ticket and did not get the lock. -/
def TicketHistInv (p : TicketLock τ × TicketHist τ) : Prop :=
  p.1.Fits ∧ ∃ q, TicketInv p.1 q ∧ p.2.drawn = p.2.got ++ p.1.waiting q

omit [DecidableEq τ] in
lemma TicketInv.length_lt {s : TicketLock τ} {q : List τ} (h : TicketInv s q) (hfits : s.Fits) : q.length < 2 ^ 32 :=
  hfits q h.nodup fun t ht => (h.mem t).mp ht

lemma ticketHistInv_step (p : TicketLock τ × TicketHist τ) (a : TicketAct τ) (p' : TicketLock τ × TicketHist τ)
    (h : TicketHistInv p) (hstep : TicketStep p a p') : TicketHistInv p' := by
  obtain ⟨s, m⟩ := p
  obtain ⟨s', m'⟩ := p'
  obtain ⟨⟨hs, rfl⟩, hfits'⟩ := hstep
  obtain ⟨hfits, q, hinv, hdrawn⟩ := h
  change TicketInv s q at hinv
  change m.drawn = m.got ++ s.waiting q at hdrawn
  refine ⟨hfits', ?_⟩
  unfold StepOf at hs
  cases a with
  | draw t =>
    simp only [TicketLock.step] at hs
    split at hs
    · next ht =>
      cases hs
      refine ⟨q ++ [t], ticketInv_draw hinv ht, ?_⟩
      rw [waiting_draw hinv ht]
      simp [TicketHist.record, hdrawn]
    · cases hs
  | test t =>
    simp only [TicketLock.step] at hs
    split at hs
    · next my ht =>
      by_cases hserved : s.nowServing = my
      · subst hserved
        rw [if_neg (not_not_intro rfl)] at hs
        cases hs
        obtain ⟨r, rfl⟩ := hinv.eq_cons_of_served (hinv.length_lt hfits) ht
        have hinv' := ticketInv_setPc hinv (.inl rfl)
        refine ⟨t :: r, hinv', ?_⟩
        rw [waiting_cons hinv' (by simp [TicketLock.setPc, TicketPc.isSpinning])]
        simp [TicketHist.record, ht, hdrawn, waiting_cons_of_spinning hinv (by simp [ht, TicketPc.isSpinning])]
      · rw [if_pos hserved] at hs
        cases hs
        have hne : s.pc t ≠ .spinning s.nowServing := by
          rw [ht]
          simpa using Ne.symm hserved
        exact ⟨q, hinv, by simpa [TicketHist.record, hne] using hdrawn⟩
    · cases hs
  | load t =>
    simp only [TicketLock.step] at hs
    split at hs
    · next ht =>
      cases hs
      obtain ⟨r, rfl, -⟩ := hinv.eq_cons (t := t) (by simp [ht]) (by simp [ht, TicketPc.isSpinning])
      have hinv' := ticketInv_setPc hinv (.inr rfl)
      refine ⟨t :: r, hinv', ?_⟩
      rw [waiting_cons hinv' (by simp [TicketLock.setPc, TicketPc.isSpinning])]
      rwa [waiting_cons hinv (by simp [ht, TicketPc.isSpinning])] at hdrawn
    · cases hs
  | store t =>
    simp only [TicketLock.step] at hs
    split at hs
    · next current ht =>
      cases hs
      obtain ⟨r, rfl, hin | hun⟩ := hinv.eq_cons (t := t) (by simp [ht]) (by simp [ht, TicketPc.isSpinning])
      · rw [hin] at ht
        cases ht
      · obtain rfl : s.nowServing = current := by simpa using hun.symm.trans ht
        have htr := (List.nodup_cons.mp hinv.nodup).1
        refine ⟨r, ticketInv_store hinv, ?_⟩
        rw [waiting_congr fun u hu => update_of_ne (fun heq : u = t => htr (heq ▸ hu)) _ _, hinv.waiting_tail]
        rwa [waiting_cons hinv (by simp [ht, TicketPc.isSpinning])] at hdrawn
    · cases hs

/-- The lock as `suspenders_ticket_init` leaves it. -/
def TicketHist.start : TicketLock τ × TicketHist τ := (.init, ⟨[], []⟩)

lemma ticketHistInv_reachable {p : TicketLock τ × TicketHist τ} (h : Reachable TicketStep TicketHist.start p) :
    TicketHistInv p := by
  refine h.invariant ?_ ticketHistInv_step
  refine ⟨fun l _ hl => ?_, [], ⟨List.nodup_nil, by simp [TicketHist.start, TicketLock.init], rfl, by simp⟩, rfl⟩
  cases l with
  | nil => exact Nat.two_pow_pos 32
  | cons t l => exact absurd rfl (hl t List.mem_cons_self)

omit [DecidableEq τ] in
/-- Who has the lock is the first in the queue. -/
lemma TicketInv.eq_cons_of_holds {s : TicketLock τ} {q : List τ} {t : τ} (h : TicketInv s q) (ht : s.Holds t) :
    ∃ r, q = t :: r := by
  have hpc : s.pc t ≠ .outside ∧ (s.pc t).isSpinning = false := by
    rcases ht with ht | ⟨k, ht⟩ <;> simp [ht, TicketPc.isSpinning]
  obtain ⟨r, hr, -⟩ := h.eq_cons hpc.1 hpc.2
  exact ⟨r, hr⟩

omit [DecidableEq τ] in
/-- The first in the queue is served when nobody has the lock. -/
lemma TicketInv.existsUnique_served {s : TicketLock τ} {q : List τ} (h : TicketInv s q) (hlen : q.length < 2 ^ 32)
    (hfree : ∀ t, ¬ s.Holds t) {u : τ} {k : UInt32} (hu : s.pc u = .spinning k) :
    ∃! t, s.pc t = .spinning s.nowServing := by
  have hmem : u ∈ q := (h.mem u).mpr (by simp [hu])
  cases q with
  | nil => cases hmem
  | cons t r =>
    refine ⟨t, ?_, fun t' ht' => ?_⟩
    · rcases h.head_pc with hspin | hin | hun
      · exact hspin
      · exact absurd (.inl hin) (hfree t)
      · exact absurd (.inr ⟨_, hun⟩) (hfree t)
    · obtain ⟨r', hr'⟩ := h.eq_cons_of_served hlen ht'
      exact (List.cons.inj hr').1.symm

/-- The ticket lock excludes and is fair, on runs of any length: at most one thread has it, threads get it in the order
in which they drew their tickets, and when it is free and threads wait, exactly one of them has the ticket that is
served. -/
theorem ticket_lock_exclusive_and_fair {p : TicketLock τ × TicketHist τ}
    (h : Reachable TicketStep TicketHist.start p) :
    (∀ t u, p.1.Holds t → p.1.Holds u → t = u) ∧
      p.2.got <+: p.2.drawn ∧
      ((∀ t, ¬ p.1.Holds t) → (∃ t k, p.1.pc t = .spinning k) → ∃! t, p.1.pc t = .spinning p.1.nowServing) := by
  obtain ⟨hfits, q, hinv, hdrawn⟩ := ticketHistInv_reachable h
  refine ⟨fun t u ht hu => ?_, ⟨_, hdrawn.symm⟩, fun hfree ⟨u, k, hu⟩ => ?_⟩
  · obtain ⟨r, rfl⟩ := hinv.eq_cons_of_holds ht
    obtain ⟨r', hr'⟩ := hinv.eq_cons_of_holds hu
    exact (List.cons.inj hr').1
  · exact hinv.existsUnique_served (hinv.length_lt hfits) hfree hu

/-- Two threads draw a ticket, and the first one gets the lock. -/
theorem ticket_lock_of_two_threads : ∃ p : TicketLock Bool × TicketHist Bool,
    p.1.Holds true ∧ p.2.got = [true] ∧ p.2.drawn = [true, false] ∧ ∀ t, p.1.Holds t → t = true := by
  have hfits (s : TicketLock Bool) : s.Fits := fun l hl _ =>
    hl.length_le_card.trans_lt (by decide)
  have h : Reachable TicketStep (TicketHist.start (τ := Bool)) _ :=
    ⟨[.draw true, .draw false, .test true], .cons (t := (_, _)) ⟨⟨rfl, rfl⟩, hfits _⟩ <|
      .cons (t := (_, _)) ⟨⟨rfl, rfl⟩, hfits _⟩ <| .cons (t := (_, _)) ⟨⟨rfl, rfl⟩, hfits _⟩ <| .nil _⟩
  exact ⟨_, .inl rfl, rfl, rfl, fun t ht => (ticket_lock_exclusive_and_fair h).1 t true ht (.inl rfl)⟩

end Suspenders.Sync
