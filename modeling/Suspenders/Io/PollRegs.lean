import Suspenders.Io.Poll

/-!
# What the poll set holds

`Reg` is a registration: a descriptor, events, and the coroutine that waits, or none for the wake descriptor of the
worker.  A worker registers its wake descriptor first, and then registers, unregisters and polls; between these calls
its coroutines do whatever they like.  The two arrays of the poll set stand for the list of the registrations that are
in force, and `s_poll_wait` enqueues the suspended coroutines that have a ready one.
-/

namespace Suspenders.Io

open Lib

/-- A registration. -/
structure Reg where
  fd : ℤ
  events : Events
  cr : Option CrId
  deriving DecidableEq

/-- The registration of an entry. -/
def Entry.reg (e : Entry) : Reg := ⟨e.1.fd, e.1.events, e.2⟩

/-- A call on the poll set, or a step of the coroutines. -/
inductive PollOp
  | register (fd : ℤ) (events : Events) (c : CrId)
  | unregister (fd : ℤ)
  /-- `poll` reports events for the entries in `rev`. -/
  | wait (rev : ℕ → Bool)
  /-- The coroutines run. -/
  | run (s : Crs)

/-- The poll set and the coroutines after a call; reallocations succeed. -/
def PollOp.step (p : PollSet × Crs) : PollOp → Option (PollSet × Crs)
  | .register fd events c => (p.1.register fd events (some c) true).map fun be => (be, p.2)
  | .unregister fd => some (p.1.unregister fd, p.2)
  | .wait rev => some (p.1.wait rev p.2)
  | .run s => some (p.1, s)

/-- The registrations from number `k` on without those of coroutines for which there are events. -/
def unready (rev : ℕ → Bool) : ℕ → List Reg → List Reg
  | _, [] => []
  | k, r :: rs => if r.cr.isSome ∧ rev k then unready rev (k + 1) rs else r :: unready rev (k + 1) rs

/-- The registrations in force after a call. -/
def PollOp.regs (rs : List Reg) : PollOp → List Reg
  | .register fd events c => rs ++ [⟨fd, events, some c⟩]
  | .unregister fd => rs.filter fun r => r.fd ≠ fd
  | .wait rev => unready rev 0 rs
  | .run _ => rs

/-- A worker that never unregisters `wakeFd`, and the registrations in force. -/
abbrev PollOp.Step (wakeFd : ℤ) : (PollSet × Crs) × List Reg → PollOp → (PollSet × Crs) × List Reg → Prop :=
  Restrict (Recorded (StepOf PollOp.step) fun rs _ a => a.regs rs) fun _ a _ => a ≠ .unregister wakeFd

/-- The registration of the wake descriptor. -/
def wakeReg (wakeFd : ℤ) : Reg := ⟨wakeFd, ⟨true, false⟩, none⟩

/-- The worker behind `s_worker_register_wake`. -/
def pollStart (wakeFd : ℤ) (s : Crs) : (PollSet × Crs) × List Reg :=
  (((PollSet.create.register wakeFd ⟨true, false⟩ none true).getD .create, s), [wakeReg wakeFd])

/-! ## The coroutines that are woken -/

/-- Waking a list of coroutines enqueues those that are suspended, each once. -/
lemma foldl_wake (l : List CrId) (s : Crs) :
    ∃ l', (l.foldl Crs.wake s).ready = s.ready ++ l' ∧ l'.Nodup ∧
      ∀ c, c ∈ l' ↔ c ∈ l ∧ s.state c = .suspended := by
  induction l generalizing s with
  | nil => exact ⟨[], by simp, List.nodup_nil, by simp⟩
  | cons d l ih =>
    rw [List.foldl_cons]
    by_cases hd : s.state d = .suspended
    · obtain ⟨l', hready, hnodup, hmem⟩ := ih (s.enqueue d)
      have hwake : s.wake d = s.enqueue d := if_pos hd
      have hstate (c : CrId) : (s.enqueue d).state c = .suspended ↔ c ≠ d ∧ s.state c = .suspended := by
        by_cases hc : c = d <;> simp [Crs.enqueue, hc]
      refine ⟨d :: l', ?_, List.nodup_cons.mpr ⟨fun h => ?_, hnodup⟩, fun c => ?_⟩
      · rw [hwake, hready]
        simp [Crs.enqueue]
      · exact ((hstate d).mp ((hmem d).mp h).2).1 rfl
      · rw [List.mem_cons, List.mem_cons, hmem, hstate]
        by_cases hc : c = d
        · simp [hc, hd]
        · simp [hc]
    · obtain ⟨l', hready, hnodup, hmem⟩ := ih s
      have hwake : s.wake d = s := if_neg hd
      refine ⟨l', by rw [hwake, hready], hnodup, fun c => ?_⟩
      rw [hmem, List.mem_cons]
      by_cases hc : c = d
      · simp [hc, hd]
      · simp [hc]

/-- The coroutine of an entry with events. -/
def Entry.readyCr (e : Entry) : Option CrId := if e.1.revents then e.2 else none

/-- The loop wakes the coroutines of the entries with events, one after the other. -/
lemma waitLoop_crs (n i j : ℕ) (fds : ℕ → PollFd) (crs : ℕ → Option CrId) (s : Crs) (hj : j ≤ i) :
    (PollSet.waitLoop n i j fds crs s).2.2.2 =
      ((slice (fun k => (fds k, crs k)) i n).filterMap Entry.readyCr).foldl Crs.wake s := by
  induction n generalizing i j fds crs s with
  | zero => rfl
  | succ n ih =>
    -- what is written at `j` is not read any more
    have hkeep (x : PollFd) (y : Option CrId) :
        slice (fun k => (Function.update fds j x k, Function.update crs j y k)) (i + 1) n =
          slice (fun k => (fds k, crs k)) (i + 1) n := by
      rw [PollSet.update_pair, slice_update_of_lt _ (by omega)]
    rw [slice_succ, List.filterMap_cons, PollSet.waitLoop]
    by_cases hr : (fds i).revents
    · cases hc : crs i with
      | some c =>
        simp only [hr, Entry.readyCr, if_true, List.foldl_cons]
        exact ih (i + 1) j fds crs _ (by omega)
      | none =>
        simp only [hr, Entry.readyCr, if_true]
        rw [ih (i + 1) (j + 1) _ _ _ (by omega), hkeep]
    · simp only [hr, Entry.readyCr, if_false, Bool.false_eq_true]
      rw [ih (i + 1) (j + 1) _ _ _ (by omega), hkeep]

/-! ## The calls on the registrations -/

section Calls

variable (be : PollSet) (rev : ℕ → Bool) (s : Crs)

lemma unready_eq_self (k : ℕ) (rs : List Reg) (h : ∀ i, k ≤ i → i < k + rs.length → rev i = false) :
    unready rev k rs = rs := by
  induction rs generalizing k with
  | nil => rfl
  | cons r rs ih =>
    rw [List.length_cons] at h
    rw [unready, if_neg (by simp [h k le_rfl (by omega)]), ih (k + 1) fun i hi hlt => h i (by omega) (by omega)]

/-- What the compaction keeps. -/
lemma map_reg_keepUnready (k n : ℕ) :
    ((slice (fun k => (({ be.fds k with revents := rev k }, be.crs k) : Entry)) k n).filterMap
        PollSet.keepUnready).map Entry.reg =
      unready rev k ((slice (fun k => ((be.fds k, be.crs k) : Entry)) k n).map Entry.reg) := by
  induction n generalizing k with
  | zero => rfl
  | succ n ih =>
    rw [slice_succ, slice_succ, List.filterMap_cons, List.map_cons, unready]
    by_cases hr : rev k
    · cases hc : be.crs k with
      | some c => simpa [PollSet.keepUnready, hr, hc, Entry.reg] using ih (k + 1)
      | none => simpa [PollSet.keepUnready, hr, hc, Entry.reg] using ih (k + 1)
    · simpa [PollSet.keepUnready, hr, Entry.reg] using ih (k + 1)

/-- `s_poll_wait` drops the ready registrations of coroutines. -/
lemma map_reg_wait : (be.wait rev s).1.entries.map Entry.reg = unready rev 0 (be.entries.map Entry.reg) := by
  by_cases hrev : (List.range be.nfds).any rev = true
  · rw [PollSet.entries_wait be rev s hrev]
    exact map_reg_keepUnready be rev 0 be.nfds
  · have hnone : ∀ i < be.nfds, rev i = false := by simpa using hrev
    have hsame : be.wait rev s = (be, s) := if_neg hrev
    rw [hsame, unready_eq_self]
    intro i _ hi
    rw [List.length_map, PollSet.entries, length_slice, Nat.zero_add] at hi
    exact hnone i hi

/-- `s_poll_wait` enqueues the suspended coroutines with a ready registration, each once. -/
lemma ready_wait : ∃ l, (be.wait rev s).2.ready = s.ready ++ l ∧ l.Nodup ∧
    ∀ c, c ∈ l ↔ s.state c = .suspended ∧ ∃ k < be.nfds, be.crs k = some c ∧ rev k = true := by
  by_cases hrev : (List.range be.nfds).any rev = true
  · obtain ⟨l, hready, hnodup, hmem⟩ := foldl_wake ((be.reported rev).filterMap Entry.readyCr) s
    refine ⟨l, ?_, hnodup, fun c => ?_⟩
    · rw [PollSet.wait, if_pos hrev, ← hready, PollSet.reported, ← waitLoop_crs _ _ _ _ _ _ le_rfl]
    · rw [hmem, and_comm]
      refine and_congr_right fun _ => ?_
      simp only [List.mem_filterMap, PollSet.reported, mem_slice]
      constructor
      · rintro ⟨_, ⟨k, -, hk, rfl⟩, hc⟩
        simp only [Entry.readyCr, Option.ite_none_right_eq_some] at hc
        exact ⟨k, by omega, hc.2, hc.1⟩
      · rintro ⟨k, hk, hc, hr⟩
        exact ⟨_, ⟨k, Nat.zero_le k, by omega, rfl⟩, by simp [Entry.readyCr, hr, hc]⟩
  · have hnone : ∀ i < be.nfds, rev i = false := by simpa using hrev
    refine ⟨[], ?_, List.nodup_nil, fun c => ?_⟩
    · rw [PollSet.wait, if_neg hrev, List.append_nil]
    · simp only [List.not_mem_nil, false_iff, not_and, not_exists]
      rintro - k hk -
      simp [hnone k hk]

lemma map_reg_unregister (fd : ℤ) :
    (be.unregister fd).entries.map Entry.reg = (be.entries.map Entry.reg).filter fun r => r.fd ≠ fd := by
  rw [PollSet.entries_unregister, List.filter_map]
  rfl

variable {be} in
lemma map_reg_register {be' : PollSet} {fd : ℤ} {events : Events} {cr : Option CrId}
    (h : be.register fd events cr true = some be') :
    be'.entries.map Entry.reg = be.entries.map Entry.reg ++ [⟨fd, events, cr⟩] := by
  rw [PollSet.entries_register h, List.map_append]
  rfl

lemma unready_length_le (k : ℕ) (rs : List Reg) : (unready rev k rs).length ≤ rs.length := by
  induction rs generalizing k with
  | nil => rfl
  | cons r rs ih =>
    rw [unready]
    split
    · exact (ih (k + 1)).trans (Nat.le_succ _)
    · exact Nat.succ_le_succ (ih (k + 1))

end Calls

/-! ## Sequences of calls -/

/-- The arrays stand for the registrations in force, fit into their room, and the first registration is that of the wake
descriptor. -/
structure PollRegsInv (wakeFd : ℤ) (p : (PollSet × Crs) × List Reg) : Prop where
  regs : p.1.1.entries.map Entry.reg = p.2
  nfds : p.1.1.nfds ≤ p.1.1.cap
  cap : 0 < p.1.1.cap
  wake : ∃ rs, p.2 = wakeReg wakeFd :: rs

lemma pollRegsInv_start (wakeFd : ℤ) (s : Crs) : PollRegsInv wakeFd (pollStart wakeFd s) where
  regs := rfl
  nfds := (by decide : 1 ≤ 256)
  cap := (by decide : 0 < 256)
  wake := ⟨[], rfl⟩

/-- The number of registrations. -/
lemma length_regs {be : PollSet} {rs : List Reg} (h : be.entries.map Entry.reg = rs) : be.nfds = rs.length := by
  rw [← h, List.length_map, PollSet.entries, length_slice]

lemma pollRegsInv_step (wakeFd : ℤ) (p : (PollSet × Crs) × List Reg) (a : PollOp) (q : (PollSet × Crs) × List Reg)
    (h : PollRegsInv wakeFd p) (hstep : PollOp.Step wakeFd p a q) : PollRegsInv wakeFd q := by
  obtain ⟨⟨be, s⟩, rs⟩ := p
  obtain ⟨⟨be', s'⟩, rs'⟩ := q
  obtain ⟨⟨hs, rfl⟩, ha⟩ := hstep
  obtain ⟨hregs, hnfds, hcap, ws, hwake⟩ := h
  change be.entries.map Entry.reg = rs at hregs
  obtain rfl : rs = wakeReg wakeFd :: ws := hwake
  unfold StepOf at hs
  cases a with
  | register fd events c =>
    obtain ⟨be₁, hreg, heq⟩ := Option.map_eq_some_iff.mp hs
    obtain ⟨rfl, rfl⟩ := Prod.mk.inj heq
    refine ⟨?_, ?_, ?_, ⟨_, rfl⟩⟩
    · rw [map_reg_register hreg, hregs]
      rfl
    all_goals
      simp only [PollSet.register, Bool.true_eq_false, and_false, if_false, Option.some.injEq] at hreg
      simp only at hnfds hcap
      subst hreg
      simp only
      split <;> omega
  | unregister fd =>
    obtain ⟨rfl, rfl⟩ := Prod.mk.inj (Option.some.inj hs)
    have hne : wakeFd ≠ fd := fun heq => ha (by rw [heq])
    have hregs' := (map_reg_unregister be fd).trans (congrArg _ hregs)
    refine ⟨hregs', ?_, hcap, ⟨ws.filter fun r => r.fd ≠ fd, by simp [PollOp.regs, wakeReg, hne]⟩⟩
    have hle := List.length_filter_le (fun r : Reg => r.fd ≠ fd) (wakeReg wakeFd :: ws)
    rw [← length_regs hregs', ← length_regs hregs] at hle
    exact hle.trans hnfds
  | wait rev =>
    obtain ⟨rfl, rfl⟩ := Prod.mk.inj (Option.some.inj hs)
    have hregs' := (map_reg_wait be rev s).trans (congrArg _ hregs)
    have hcap' : (be.wait rev s).1.cap = be.cap := by
      unfold PollSet.wait
      split <;> rfl
    refine ⟨hregs', ?_, hcap'.symm ▸ hcap, ⟨unready rev 1 ws, ?_⟩⟩
    · have hle := unready_length_le rev 0 (wakeReg wakeFd :: ws)
      rw [← length_regs hregs', ← length_regs hregs] at hle
      exact hle.trans (hcap'.symm ▸ hnfds)
    · change unready rev 0 (wakeReg wakeFd :: ws) = _
      rw [unready, if_neg (by simp [wakeReg])]
  | run s₁ =>
    obtain ⟨rfl, rfl⟩ := Prod.mk.inj (Option.some.inj hs)
    exact ⟨hregs, hnfds, hcap, ws, rfl⟩

/-- The poll set is what the calls made it: at the same index the two arrays hold the parts of one registration, the
registrations are those in force, in order, there is room for them, and the wake descriptor is one of them.
`s_poll_wait` drops the ready registrations of coroutines and no other, and enqueues every suspended coroutine that has
one, once. -/
theorem poll_set_integrity {wakeFd : ℤ} {s : Crs} {p : (PollSet × Crs) × List Reg}
    (h : Reachable (PollOp.Step wakeFd) (pollStart wakeFd s) p) :
    p.1.1.entries.map Entry.reg = p.2 ∧
      p.1.1.nfds ≤ p.1.1.cap ∧
      (∃ k < p.1.1.nfds, (p.1.1.fds k).fd = wakeFd ∧ (p.1.1.fds k).events = ⟨true, false⟩ ∧ p.1.1.crs k = none) ∧
      ∀ rev, (p.1.1.wait rev p.1.2).1.entries.map Entry.reg = unready rev 0 p.2 ∧
        ∃ l, (p.1.1.wait rev p.1.2).2.ready = p.1.2.ready ++ l ∧ l.Nodup ∧
          ∀ c, c ∈ l ↔ p.1.2.state c = .suspended ∧ ∃ k < p.1.1.nfds, p.1.1.crs k = some c ∧ rev k = true := by
  obtain ⟨hregs, hnfds, -, ws, hwake⟩ := h.invariant (pollRegsInv_start wakeFd s) (pollRegsInv_step wakeFd)
  refine ⟨hregs, hnfds, ?_, fun rev => ⟨?_, ready_wait p.1.1 rev p.1.2⟩⟩
  · have hmem : wakeReg wakeFd ∈ p.1.1.entries.map Entry.reg := by
      rw [hregs, hwake]
      exact List.mem_cons_self
    obtain ⟨e, he, hreg⟩ := List.mem_map.mp hmem
    obtain ⟨k, -, hk, rfl⟩ := mem_slice.mp he
    simp only [Entry.reg, wakeReg, Reg.mk.injEq] at hreg
    exact ⟨k, by omega, hreg⟩
  · rw [map_reg_wait, hregs]

/-- A coroutine waits twice, to read one descriptor and to write another, both get ready, and so does the wake
descriptor. -/
theorem poll_set_integrity_two_entries :
    ∃ p : (PollSet × Crs) × List Reg, p.2.length = 3 ∧
      ∃ l, (p.1.1.wait (fun _ => true) p.1.2).2.ready = p.1.2.ready ++ l ∧ l.Nodup ∧ 5 ∈ l ∧
        (p.1.1.wait (fun _ => true) p.1.2).1.entries.map Entry.reg = [wakeReg 3] := by
  have h : Reachable (PollOp.Step 3) (pollStart 3 ⟨fun _ => .suspended, []⟩) _ :=
    ⟨[.register 7 ⟨true, false⟩ 5, .register 8 ⟨false, true⟩ 5],
      .cons (t := (_, _)) ⟨⟨rfl, rfl⟩, by simp⟩ <| .cons (t := (_, _)) ⟨⟨rfl, rfl⟩, by simp⟩ <| .nil _⟩
  obtain ⟨hregs, l, hready, hnodup, hmem⟩ := (poll_set_integrity h).2.2.2 fun _ => true
  exact ⟨_, rfl, l, hready, hnodup, (hmem 5).mpr ⟨rfl, 1, by decide, rfl, rfl⟩, hregs⟩

end Suspenders.Io
