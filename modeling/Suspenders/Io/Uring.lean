import Mathlib.Data.List.Count
import Suspenders.Io.Submit
import Suspenders.Lib.Run

/-!
# Operations on io_uring

A coroutine in `s_iou_op` has its `suspenders_io_op_t` on its stack, and the kernel has a pointer to it.  It
waits in a loop until the operation is marked as completed; `s_iou_flush_cqes` does that when it comes across the
completion of the operation.  The other completions (of timeouts, cancels and the wake descriptor) and the wakes
that a cancel, a timer or a resume sends are all around.

`Uring` is one worker with its ring and its coroutines.  The kernel completes every entry that was submitted
once, in any order and with any result.
-/

namespace Suspenders.Io

open Lib

/-- `struct io_uring_cqe` -/
structure Cqe where
  data : UserData
  res : ℤ
  deriving DecidableEq

/-- What `s_iou_op` returns, with `suspenders_errno` and `errno` if it sets them. -/
structure IouRet where
  ret : ℤ
  status : Option Code
  errno : Option ℤ
  deriving DecidableEq

/-- Where a coroutine is. -/
inductive IouPc
  /-- Outside `s_iou_op`. -/
  | idle
  /-- At the test of `op.completed`, or suspended behind it. -/
  | test (op : ℕ)
  /-- Before returning. -/
  | ret (r : IouRet)
  deriving DecidableEq

/-- One worker. -/
structure Uring where
  ring : Ring
  /-- The entries the kernel has and has not completed. -/
  kernel : List UserData
  /-- The completions that are not consumed. -/
  cq : List Cqe
  /-- How many operations there have been. -/
  ops : ℕ
  /-- `op->cr` -/
  cr : ℕ → CrId
  /-- `op->result` -/
  result : ℕ → ℤ
  /-- `op->completed` -/
  completed : ℕ → Bool
  /-- `state` -/
  state : CrId → CrState
  /-- The ready lists, as one. -/
  ready : List CrId
  /-- `suspenders_running`, unless it is the scheduler's own context -/
  running : Option CrId
  pc : CrId → IouPc
  /-- `pending_io` -/
  pendingIo : CrId → Option ℕ
  /-- `cancel_requested` -/
  cancelReq : CrId → Bool

/-- `ECANCELED` -/
def ecanceled : ℤ := 125

/-- The end of `s_iou_op`, and the cancel flag behind it. -/
def iouFinish (res : ℤ) (cancelReq : Bool) : IouRet × Bool :=
  if res < 0 then
    if res = -ecanceled then
      if cancelReq then (⟨-1, some .canceled, none⟩, false) else (⟨-1, some .timedout, none⟩, false)
    else (⟨-1, some .error, some (-res)⟩, cancelReq)
  else (⟨res, none, none⟩, cancelReq)

namespace Uring

/-- A ring of `size` entries, with the wake descriptor armed; the coroutines are ready. -/
def init (size : ℕ) : Uring where
  ring := ⟨size, [], []⟩
  kernel := [.wake]
  cq := []
  ops := 0
  cr := fun _ => 0
  result := fun _ => 0
  completed := fun _ => false
  state := fun _ => .done
  ready := []
  running := none
  pc := fun _ => .idle
  pendingIo := fun _ => none
  cancelReq := fun _ => false

variable (u : Uring)

/-- The kernel takes over what the ring has submitted. -/
def handOver (r : Ring) : Uring :=
  { u with
    ring := { r with submitted := [] }
    kernel := u.kernel ++ r.submitted.flatten.map Sqe.data }

/-- `suspenders_ready_enqueue` -/
def enqueue (c : CrId) : Uring :=
  { u with state := Function.update u.state c .ready, ready := u.ready ++ [c] }

/-- A wake of coroutine `c`: it is enqueued if it is suspended. -/
def wake (c : CrId) : Uring := if u.state c = .suspended then u.enqueue c else u

/-- What `suspenders_cancel`, `s_inbox_deliver` and `s_deadline_cb` do for a coroutine whose wait they do not
decide: an operation in flight is canceled, and otherwise the coroutine is woken. -/
def interrupt (c : CrId) : Uring :=
  match u.pendingIo c with
  | some op => u.handOver (u.ring.iouCancel op)
  | none => u.wake c

/-- One round of `s_iou_flush_cqes`. -/
def flushOne (x : Cqe) : Uring :=
  match x.data with
  | .null => u
  | .wake => u.handOver u.ring.iouArmWake
  | .op k =>
    { u with
      result := Function.update u.result k x.res
      completed := Function.update u.completed k true }.wake (u.cr k)

end Uring

/-- What happens. -/
inductive IouEvent
  /-- Coroutine `c` calls `s_iou_op`. -/
  | call (c : CrId)
  /-- It tests `op.completed` and suspends. -/
  | suspend (c : CrId)
  /-- It leaves the loop. -/
  | leave (c : CrId)
  /-- `s_iou_op` returns. -/
  | ret (c : CrId)
  /-- Coroutine `c` is switched to. -/
  | run (c : CrId)
  /-- Outside `s_iou_op`: spawned, yields, suspends or exits. -/
  | other (c : CrId)
  /-- A wake, by whatever. -/
  | wake (c : CrId)
  /-- The cancel flag is set, or consumed outside `s_iou_op`. -/
  | cancel (c : CrId)
  /-- A cancel or a deadline is delivered. -/
  | interrupt (c : CrId)
  /-- The kernel completes an entry. -/
  | post (x : Cqe)
  /-- The scheduler consumes a completion. -/
  | flush (x : Cqe)
  deriving DecidableEq

/-- One step of the worker. -/
inductive IouStep : Uring → IouEvent → Uring → Prop
  | call {u : Uring} {c : CrId} {code : IouCode} {dl now : ℕ} {r : Ring} :
      u.running = some c → u.pc c = .idle → u.ring.iouOp code u.ops dl now = some r →
      IouStep u (.call c) { u.handOver r with
        ops := u.ops + 1
        cr := Function.update u.cr u.ops c
        result := Function.update u.result u.ops 0
        completed := Function.update u.completed u.ops false
        pc := Function.update u.pc c (.test u.ops)
        pendingIo := Function.update u.pendingIo c (some u.ops) }
  | nomem {u : Uring} {c : CrId} {code : IouCode} {dl now : ℕ} :
      u.running = some c → u.pc c = .idle → u.ring.iouOp code u.ops dl now = none →
      IouStep u (.call c) { u.handOver u.ring.submit with
        pc := Function.update u.pc c (.ret ⟨-1, some .nomem, none⟩) }
  | suspend {u : Uring} {c : CrId} {op : ℕ} :
      u.running = some c → u.pc c = .test op → u.completed op = false →
      IouStep u (.suspend c) { u with state := Function.update u.state c .suspended, running := none }
  | leave {u : Uring} {c : CrId} {op : ℕ} :
      u.running = some c → u.pc c = .test op → u.completed op = true →
      IouStep u (.leave c) { u with
        pendingIo := Function.update u.pendingIo c none
        pc := Function.update u.pc c (.ret (iouFinish (u.result op) (u.cancelReq c)).1)
        cancelReq := Function.update u.cancelReq c (iouFinish (u.result op) (u.cancelReq c)).2 }
  | ret {u : Uring} {c : CrId} {r : IouRet} :
      u.running = some c → u.pc c = .ret r →
      IouStep u (.ret c) { u with pc := Function.update u.pc c .idle }
  | run {u : Uring} {c : CrId} :
      u.running = none → c ∈ u.ready →
      IouStep u (.run c) { u with
        state := Function.update u.state c .running, ready := u.ready.erase c, running := some c }
  | spawn {u : Uring} {c : CrId} :
      u.state c = .done → IouStep u (.other c) (u.enqueue c)
  | yield {u : Uring} {c : CrId} :
      u.running = some c → u.pc c = .idle →
      IouStep u (.other c) { u.enqueue c with running := none }
  | park {u : Uring} {c : CrId} :
      u.running = some c → u.pc c = .idle →
      IouStep u (.other c) { u with state := Function.update u.state c .suspended, running := none }
  | exit {u : Uring} {c : CrId} :
      u.running = some c → u.pc c = .idle →
      IouStep u (.other c) { u with state := Function.update u.state c .done, running := none }
  | wake {u : Uring} {c : CrId} : IouStep u (.wake c) (u.wake c)
  | cancel {u : Uring} {c : CrId} :
      IouStep u (.cancel c) { u with cancelReq := Function.update u.cancelReq c true }
  | consume {u : Uring} {c : CrId} :
      u.running = some c → u.pc c = .idle →
      IouStep u (.cancel c) { u with cancelReq := Function.update u.cancelReq c false }
  | interrupt {u : Uring} {c : CrId} : IouStep u (.interrupt c) (u.interrupt c)
  | post {u : Uring} {d : UserData} {res : ℤ} :
      d ∈ u.kernel →
      IouStep u (.post ⟨d, res⟩) { u with kernel := u.kernel.erase d, cq := u.cq ++ [⟨d, res⟩] }
  | flush {u : Uring} {x : Cqe} {rest : List Cqe} :
      u.running = none → u.cq = x :: rest → IouStep u (.flush x) ({ u with cq := rest }.flushOne x)

/-! ## What the ring hands over -/

namespace Ring

/-- The entries of a ring, submitted or not, by what they carry. -/
def handed (r : Ring) : List UserData := (r.submitted.flatten ++ r.pending).map Sqe.data

variable {r r' : Ring} {sqe : Sqe}

lemma handed_submit : r.submit.handed = r.handed := by
  simp [handed, submit]

lemma handed_getSqe (h : r.getSqe sqe = some r') : r'.handed = r.handed ++ [sqe.data] := by
  unfold getSqe at h
  split at h
  · obtain rfl := Option.some.inj h
    simp [handed]
  · cases h

/-- Whatever `s_iou_get_sqe` submits, no entry is lost. -/
lemma handed_iouGetSqe {ok : Bool} (h : r.iouGetSqe sqe = (r', ok)) :
    (ok = true ∧ r'.handed = r.handed ++ [sqe.data]) ∨ (ok = false ∧ r' = r.submit) := by
  unfold iouGetSqe at h
  split at h
  · rename_i r₁ hget
    cases h
    exact Or.inl ⟨rfl, handed_getSqe hget⟩
  · split at h
    · rename_i r₁ hget
      cases h
      refine Or.inl ⟨rfl, ?_⟩
      rw [handed_getSqe hget, handed_submit]
    · cases h
      exact Or.inr ⟨rfl, rfl⟩

/-- An operation hands over its own entry once, and perhaps one that carries nothing. -/
lemma iouOp_handed {code : IouCode} {op dl now : ℕ} (h : r.iouOp code op dl now = some r') :
    r'.pending = [] ∧ (r'.handed = r.handed ++ [.op op] ∨ r'.handed = r.handed ++ [.op op, .null]) := by
  unfold iouOp at h
  split at h
  · cases h
  · rename_i r₁ hget
    obtain ⟨-, hr₁⟩ | ⟨hok, -⟩ := handed_iouGetSqe hget
    · split at h
      · obtain rfl := Option.some.inj h
        exact ⟨rfl, Or.inl (by rw [handed_submit, hr₁]; rfl)⟩
      · split at h
        · rename_i r₂ hget₂
          obtain rfl := Option.some.inj h
          obtain ⟨-, hr₂⟩ | ⟨hok, -⟩ := handed_iouGetSqe hget₂
          · refine ⟨rfl, Or.inr ?_⟩
            rw [handed_submit, hr₂, hr₁]
            simp [opSqe, timeoutSqe]
          · cases hok
        · rename_i r₂ hget₂
          obtain rfl := Option.some.inj h
          obtain ⟨hok, -⟩ | ⟨-, rfl⟩ := handed_iouGetSqe hget₂
          · cases hok
          · exact ⟨rfl, Or.inl (by rw [handed_submit, handed_submit, hr₁]; rfl)⟩
    · cases hok

/-- A cancel hands over no operation. -/
lemma iouCancel_handed (op : ℕ) :
    (r.iouCancel op).pending = [] ∧
      ((r.iouCancel op).handed = r.handed ∨ (r.iouCancel op).handed = r.handed ++ [.null]) := by
  unfold iouCancel
  split
  · rename_i r₁ hget
    obtain ⟨-, hr₁⟩ | ⟨hok, -⟩ := handed_iouGetSqe hget
    · exact ⟨rfl, Or.inr (by rw [handed_submit, hr₁])⟩
    · cases hok
  · rename_i r₁ hget
    obtain ⟨hok, -⟩ | ⟨-, rfl⟩ := handed_iouGetSqe hget
    · cases hok
    · exact ⟨rfl, Or.inl handed_submit⟩

/-- Nor does the wake descriptor. -/
lemma iouArmWake_handed :
    r.iouArmWake.pending = [] ∧
      (r.iouArmWake.handed = r.handed ∨ r.iouArmWake.handed = r.handed ++ [.wake]) := by
  unfold iouArmWake
  split
  · rename_i r₁ hget
    obtain ⟨-, hr₁⟩ | ⟨hok, -⟩ := handed_iouGetSqe hget
    · exact ⟨rfl, Or.inr (by rw [handed_submit, hr₁])⟩
    · cases hok
  · rename_i r₁ hget
    obtain ⟨hok, -⟩ | ⟨-, rfl⟩ := handed_iouGetSqe hget
    · cases hok
    · exact ⟨rfl, Or.inl handed_submit⟩

end Ring

/-! ## Histories -/

/-- What is recorded about the operations. -/
structure IouHist where
  /-- The results of the completions of each operation that were consumed. -/
  consumed : ℕ → List ℤ
  /-- How often each coroutine was put on a ready list since it called `s_iou_op`, or suspended last. -/
  puts : CrId → ℕ

namespace IouHist

/-- Nothing has happened. -/
def init : IouHist := ⟨fun _ => [], fun _ => 0⟩

/-- What a step records. -/
def observe (h : IouHist) (u : Uring) (e : IouEvent) (t : Uring) : IouHist where
  consumed k :=
    match e with
    | .flush x => if x.data = .op k then h.consumed k ++ [x.res] else h.consumed k
    | _ => h.consumed k
  puts c :=
    if e = .call c ∨ (u.state c = .running ∧ t.state c = .suspended) then 0
    else h.puts c + (t.ready.count c - u.ready.count c)

end IouHist

/-- The entries of operation `k` that are not completed, and its completions that are not consumed. -/
def Uring.outstanding (u : Uring) (k : ℕ) : ℕ :=
  u.kernel.count (.op k) + (u.cq.map Cqe.data).count (.op k)

/-- The operations and the frames they are on. -/
structure OpsInv (u : Uring) (h : IouHist) : Prop where
  pending : u.ring.pending = []
  submitted : u.ring.submitted = []
  /-- Every operation has one completion, now or in the past. -/
  once : ∀ k < u.ops, u.outstanding k + (h.consumed k).length = 1
  fresh : ∀ k, u.ops ≤ k → u.outstanding k = 0 ∧ h.consumed k = []
  completed : ∀ k < u.ops, u.completed k = true ↔ h.consumed k ≠ []
  result : ∀ k res, h.consumed k = [res] → u.result k = res
  test : ∀ c k, u.pc c = .test k → k < u.ops ∧ u.cr k = c ∧ u.pendingIo c = some k
  inOp : ∀ c k, u.pendingIo c = some k → u.pc c = .test k
  /-- As long as the completion of an operation is to come, its frame is there. -/
  alive : ∀ k < u.ops, h.consumed k = [] → u.pc (u.cr k) = .test k

lemma opsInv_init (size : ℕ) : OpsInv (.init size) .init where
  pending := rfl
  submitted := rfl
  once := fun k hk => absurd hk (Nat.not_lt_zero k)
  fresh := fun k _ => ⟨by simp [Uring.outstanding, Uring.init], rfl⟩
  completed := fun k hk => absurd hk (Nat.not_lt_zero k)
  result := fun k res hk => by cases hk
  test := fun c k hk => by cases hk
  inOp := fun c k hk => by cases hk
  alive := fun k hk => absurd hk (Nat.not_lt_zero k)

section Step

variable {u t : Uring} {e : IouEvent} {h : IouHist}

/-- A step that leaves the ring and the operations alone. -/
lemma OpsInv.keep {h' : IouHist} (hO : OpsInv u h) (hring : t.ring = u.ring) (hkernel : t.kernel = u.kernel)
    (hcq : t.cq = u.cq) (hops : t.ops = u.ops) (hcr : t.cr = u.cr) (hresult : t.result = u.result)
    (hcompleted : t.completed = u.completed) (hpc : t.pc = u.pc) (hio : t.pendingIo = u.pendingIo)
    (hcons : h'.consumed = h.consumed) : OpsInv t h' := by
  obtain ⟨⟩ := t
  obtain ⟨⟩ := h'
  obtain rfl := hring
  obtain rfl := hkernel
  obtain rfl := hcq
  obtain rfl := hops
  obtain rfl := hcr
  obtain rfl := hresult
  obtain rfl := hcompleted
  obtain rfl := hpc
  obtain rfl := hio
  obtain rfl := hcons
  exact ⟨hO.pending, hO.submitted, hO.once, hO.fresh, hO.completed, hO.result, hO.test, hO.inOp, hO.alive⟩

/-- What the ring hands over besides operations leaves the operations alone. -/
lemma OpsInv.handOver (hO : OpsInv u h) {r : Ring} (hpending : r.pending = [])
    (hnone : ∀ k, r.handed.count (.op k) = 0) : OpsInv (u.handOver r) h := by
  have hout : ∀ k, (u.handOver r).outstanding k = u.outstanding k := by
    intro k
    have hk := hnone k
    simp only [Ring.handed, hpending, List.append_nil] at hk
    simp only [Uring.outstanding, Uring.handOver, List.count_append, hk, Nat.add_zero]
  refine ⟨hpending, rfl, ?_, ?_, hO.completed, hO.result, hO.test, hO.inOp, hO.alive⟩
  · intro k hk
    rw [hout]
    exact hO.once k hk
  · intro k hk
    rw [hout]
    exact hO.fresh k hk

/-- The ring of the worker between its steps. -/
lemma OpsInv.handed (hO : OpsInv u h) : u.ring.handed = [] := by
  simp [Ring.handed, hO.pending, hO.submitted]

lemma OpsInv.wake {h' : IouHist} (hO : OpsInv u h) (c : CrId) (hcons : h'.consumed = h.consumed) :
    OpsInv (u.wake c) h' := by
  unfold Uring.wake
  split
  · exact hO.keep rfl rfl rfl rfl rfl rfl rfl rfl rfl hcons
  · exact hO.keep rfl rfl rfl rfl rfl rfl rfl rfl rfl hcons

/-- A new operation. -/
lemma OpsInv.call (hO : OpsInv u h) {c : CrId} (hidle : u.pc c = .idle) {code : IouCode} {dl now : ℕ} {r : Ring}
    (hr : u.ring.iouOp code u.ops dl now = some r) :
    OpsInv { u.handOver r with
        ops := u.ops + 1
        cr := Function.update u.cr u.ops c
        result := Function.update u.result u.ops 0
        completed := Function.update u.completed u.ops false
        pc := Function.update u.pc c (.test u.ops)
        pendingIo := Function.update u.pendingIo c (some u.ops) } h := by
  obtain ⟨hpending, hhanded⟩ := Ring.iouOp_handed hr
  rw [hO.handed] at hhanded
  have hcount : ∀ k, (r.submitted.flatten.map Sqe.data).count (.op k) = if k = u.ops then 1 else 0 := by
    intro k
    have heq : r.handed = r.submitted.flatten.map Sqe.data := by simp [Ring.handed, hpending]
    rw [← heq]
    rcases hhanded with hh | hh
    · rw [hh]
      by_cases hk : k = u.ops
      · simp [hk]
      · simp [hk, Ne.symm hk]
    · rw [hh]
      by_cases hk : k = u.ops
      · simp [hk]
      · simp [hk, Ne.symm hk]
  obtain ⟨hzero, hnone⟩ := hO.fresh u.ops (le_refl _)
  have hout : ∀ k, (u.kernel ++ r.submitted.flatten.map Sqe.data).count (.op k) +
      (u.cq.map Cqe.data).count (.op k) = u.outstanding k + if k = u.ops then 1 else 0 := by
    intro k
    rw [List.count_append, hcount, Uring.outstanding]
    omega
  -- whoever is in another operation is somebody else
  have hother : ∀ c' k, u.pc c' = .test k → c' ≠ c := by
    rintro c' k hk rfl
    rw [hidle] at hk
    cases hk
  refine ⟨hpending, rfl, ?_, ?_, ?_, ?_, ?_, ?_, ?_⟩
  · intro k hk
    show _ + _ + _ = _
    simp only [Uring.handOver]
    rw [hout]
    by_cases hk' : k = u.ops
    · subst hk'
      simp [hzero, hnone]
    · rw [if_neg hk']
      exact hO.once k (by simp only at hk; omega)
  · intro k hk
    simp only at hk
    have hk' : k ≠ u.ops := by omega
    obtain ⟨hz, hn⟩ := hO.fresh k (by omega)
    refine ⟨?_, hn⟩
    show _ + _ = _
    simp only [Uring.handOver]
    rw [hout, if_neg hk', hz]
  · intro k hk
    by_cases hk' : k = u.ops
    · subst hk'
      simp [hnone]
    · simp only [Function.update_of_ne hk']
      exact hO.completed k (by simp only at hk; omega)
  · intro k res hk
    have hk' : k ≠ u.ops := by
      rintro rfl
      rw [hnone] at hk
      cases hk
    simp only [Function.update_of_ne hk']
    exact hO.result k res hk
  · intro c' k hk
    by_cases hc : c' = c
    · subst hc
      obtain rfl : u.ops = k := by simpa using hk
      simp
    · simp only [Function.update_of_ne hc] at hk ⊢
      obtain ⟨hlt, hcr, hio⟩ := hO.test c' k hk
      exact ⟨by omega, by rw [Function.update_of_ne (by omega)]; exact hcr, hio⟩
  · intro c' k hk
    by_cases hc : c' = c
    · subst hc
      obtain rfl : u.ops = k := by simpa using hk
      simp
    · simp only [Function.update_of_ne hc] at hk ⊢
      exact hO.inOp c' k hk
  · intro k hk hcons
    by_cases hk' : k = u.ops
    · subst hk'
      simp
    · have halive := hO.alive k (by simp only at hk; omega) hcons
      simp only [Function.update_of_ne hk']
      rw [Function.update_of_ne (hother _ _ halive)]
      exact halive

/-- The kernel completes an entry. -/
lemma OpsInv.post (hO : OpsInv u h) {d : UserData} {res : ℤ} (hd : d ∈ u.kernel) :
    OpsInv { u with kernel := u.kernel.erase d, cq := u.cq ++ [⟨d, res⟩] } h := by
  have hout : ∀ k, (u.kernel.erase d).count (.op k) + ((u.cq ++ [(⟨d, res⟩ : Cqe)]).map Cqe.data).count (.op k) =
      u.outstanding k := by
    intro k
    rw [List.map_append, List.count_append, Uring.outstanding]
    by_cases hk : d = .op k
    · subst hk
      have hpos : 0 < u.kernel.count (.op k) := List.count_pos_iff.mpr hd
      rw [List.count_erase_self]
      simp
      omega
    · rw [List.count_erase_of_ne (Ne.symm hk)]
      simp [hk]
  refine ⟨hO.pending, hO.submitted, ?_, ?_, hO.completed, hO.result, hO.test, hO.inOp, hO.alive⟩
  · intro k hk
    show _ + _ + _ = _
    rw [hout]
    exact hO.once k hk
  · intro k hk
    refine ⟨?_, (hO.fresh k hk).2⟩
    show _ + _ = _
    rw [hout]
    exact (hO.fresh k hk).1

/-- The scheduler comes across the completion of an operation. -/
lemma OpsInv.flushOp (hO : OpsInv u h) {k : ℕ} {res : ℤ} {rest : List Cqe} (hcq : u.cq = ⟨.op k, res⟩ :: rest) :
    OpsInv { u with
        cq := rest
        result := Function.update u.result k res
        completed := Function.update u.completed k true }
      ⟨Function.update h.consumed k (h.consumed k ++ [res]), h.puts⟩ := by
  have hout : ∀ k', u.outstanding k' =
      u.kernel.count (.op k') + (rest.map Cqe.data).count (.op k') + if k' = k then 1 else 0 := by
    intro k'
    rw [Uring.outstanding, hcq, List.map_cons, List.count_cons]
    by_cases hk : k' = k
    · simp [hk]
      omega
    · simp [hk, Ne.symm hk]
  have hlt : k < u.ops := by
    by_contra hge
    have hzero := (hO.fresh k (by omega)).1
    rw [hout, if_pos rfl] at hzero
    omega
  have honce := hO.once k hlt
  rw [hout, if_pos rfl] at honce
  have hnil : h.consumed k = [] := List.eq_nil_of_length_eq_zero (by omega)
  refine ⟨hO.pending, hO.submitted, ?_, ?_, ?_, ?_, hO.test, hO.inOp, ?_⟩
  · intro k' hk'
    show _ + _ + _ = _
    by_cases hk : k' = k
    · subst hk
      simp only [Function.update_self, hnil]
      simp
      omega
    · have hold := hO.once k' hk'
      rw [hout, if_neg hk] at hold
      simpa [Function.update_of_ne hk] using hold
  · intro k' hk'
    have hk : k' ≠ k := by
      rintro rfl
      exact absurd hlt (by simpa using hk')
    obtain ⟨hz, hn⟩ := hO.fresh k' hk'
    rw [hout, if_neg hk] at hz
    refine ⟨hz, ?_⟩
    simp only [Function.update_of_ne hk]
    exact hn
  · intro k' hk'
    by_cases hk : k' = k
    · subst hk
      simp
    · simp only [Function.update_of_ne hk]
      exact hO.completed k' hk'
  · intro k' res' hk'
    by_cases hk : k' = k
    · subst hk
      simp only [Function.update_self, hnil] at hk' ⊢
      simpa using hk'
    · simp only [Function.update_of_ne hk] at hk' ⊢
      exact hO.result k' res' hk'
  · intro k' hk' hcons
    by_cases hk : k' = k
    · subst hk
      simp at hcons
    · simp only [Function.update_of_ne hk] at hcons
      exact hO.alive k' hk' hcons

/-- The scheduler comes across another completion. -/
lemma OpsInv.flushOther (hO : OpsInv u h) {x : Cqe} {rest : List Cqe} (hcq : u.cq = x :: rest)
    (hx : ∀ k, x.data ≠ .op k) : OpsInv { u with cq := rest } h := by
  have hout : ∀ k, u.kernel.count (.op k) + (rest.map Cqe.data).count (.op k) = u.outstanding k := by
    intro k
    rw [Uring.outstanding, hcq, List.map_cons, List.count_cons_of_ne (hx k)]
  refine ⟨hO.pending, hO.submitted, ?_, ?_, hO.completed, hO.result, hO.test, hO.inOp, hO.alive⟩
  · intro k hk
    show _ + _ + _ = _
    rw [hout]
    exact hO.once k hk
  · intro k hk
    refine ⟨?_, (hO.fresh k hk).2⟩
    show _ + _ = _
    rw [hout]
    exact (hO.fresh k hk).1

/-- A coroutine leaves `s_iou_op`, or returns from it. -/
lemma OpsInv.setPc (hO : OpsInv u h) {c : CrId} {r : IouPc} (hr : ∀ k, r ≠ .test k)
    (hdone : ∀ k, u.pc c = .test k → h.consumed k ≠ []) :
    OpsInv { u with pc := Function.update u.pc c r, pendingIo := Function.update u.pendingIo c none } h := by
  refine ⟨hO.pending, hO.submitted, hO.once, hO.fresh, hO.completed, hO.result, ?_, ?_, ?_⟩
  · intro c' k hk
    by_cases hc : c' = c
    · subst hc
      exact absurd (by simpa using hk) (hr k)
    · simp only [Function.update_of_ne hc] at hk ⊢
      exact hO.test c' k hk
  · intro c' k hk
    by_cases hc : c' = c
    · subst hc
      simp at hk
    · simp only [Function.update_of_ne hc] at hk ⊢
      exact hO.inOp c' k hk
  · intro k hk hcons
    have halive := hO.alive k hk hcons
    have hc : u.cr k ≠ c := by
      rintro rfl
      exact hdone k halive hcons
    simpa [Function.update_of_ne hc] using halive

/-- A coroutine outside `s_iou_op` has no operation in flight. -/
lemma OpsInv.pendingIo_none (hO : OpsInv u h) {c : CrId} (hpc : ∀ k, u.pc c ≠ .test k) : u.pendingIo c = none := by
  cases hio : u.pendingIo c with
  | none => rfl
  | some k => exact absurd (hO.inOp c k hio) (hpc k)

lemma opsInv_step (hO : OpsInv u h) (hstep : IouStep u e t) : OpsInv t (h.observe u e t) := by
  cases hstep with
  | call _ hidle hr => exact (hO.call hidle hr).keep rfl rfl rfl rfl rfl rfl rfl rfl rfl rfl
  | @nomem c _ _ _ _ hidle _ =>
    have hover : OpsInv (u.handOver u.ring.submit) h := by
      refine hO.handOver rfl (fun k => ?_)
      rw [Ring.handed_submit, hO.handed]
      rfl
    have hpc : ∀ k, u.pc c ≠ .test k := by
      intro k
      rw [hidle]
      simp
    have hset := hover.setPc (c := c) (r := .ret ⟨-1, some .nomem, none⟩) (by simp)
      (fun k hk => absurd hk (hpc k))
    refine hset.keep rfl rfl rfl rfl rfl rfl rfl rfl ?_ rfl
    show u.pendingIo = Function.update u.pendingIo c none
    rw [← hO.pendingIo_none hpc, Function.update_eq_self]
  | suspend _ _ _ => exact hO.keep rfl rfl rfl rfl rfl rfl rfl rfl rfl rfl
  | @leave c op _ hpc hdone =>
    have hset := hO.setPc (c := c) (r := .ret (iouFinish (u.result op) (u.cancelReq c)).1) (by simp) (by
      intro k hk
      obtain rfl : op = k := by
        rw [hpc] at hk
        simpa using hk
      exact (hO.completed op (hO.test c op hpc).1).mp hdone)
    exact hset.keep rfl rfl rfl rfl rfl rfl rfl rfl rfl rfl
  | @ret c r _ hpc =>
    have hpc' : ∀ k, u.pc c ≠ .test k := by
      intro k
      rw [hpc]
      simp
    have hset := hO.setPc (c := c) (r := .idle) (by simp) (fun k hk => absurd hk (hpc' k))
    refine hset.keep rfl rfl rfl rfl rfl rfl rfl rfl ?_ rfl
    show u.pendingIo = Function.update u.pendingIo c none
    rw [← hO.pendingIo_none hpc', Function.update_eq_self]
  | run _ _ | spawn _ | yield _ _ | park _ _ | exit _ _ | cancel | consume _ _ =>
    exact hO.keep rfl rfl rfl rfl rfl rfl rfl rfl rfl rfl
  | wake => exact hO.wake _ rfl
  | @interrupt c =>
    unfold Uring.interrupt
    cases hio : u.pendingIo c with
    | none => exact hO.wake c rfl
    | some op =>
      obtain ⟨hpending, hhanded⟩ := Ring.iouCancel_handed (r := u.ring) op
      have hover : OpsInv (u.handOver (u.ring.iouCancel op)) h := by
        refine hO.handOver hpending (fun k => ?_)
        rw [hO.handed] at hhanded
        rcases hhanded with hh | hh
        · rw [hh]
          rfl
        · rw [hh]
          simp
      exact hover.keep rfl rfl rfl rfl rfl rfl rfl rfl rfl rfl
  | post hd => exact (hO.post hd).keep rfl rfl rfl rfl rfl rfl rfl rfl rfl rfl
  | @flush x rest _ hcq =>
    obtain ⟨d, res⟩ := x
    unfold Uring.flushOne
    cases d with
    | null =>
      refine (hO.flushOther hcq (by simp)).keep rfl rfl rfl rfl rfl rfl rfl rfl rfl ?_
      simp [IouHist.observe]
    | wake =>
      obtain ⟨hpending, hhanded⟩ := Ring.iouArmWake_handed (r := u.ring)
      have hover : OpsInv ({ u with cq := rest }.handOver u.ring.iouArmWake) h := by
        refine (hO.flushOther hcq (by simp)).handOver hpending (fun k => ?_)
        rw [hO.handed] at hhanded
        rcases hhanded with hh | hh
        · rw [hh]
          rfl
        · rw [hh]
          simp
      refine hover.keep rfl rfl rfl rfl rfl rfl rfl rfl rfl ?_
      simp [IouHist.observe]
    | op k =>
      refine (hO.flushOp hcq).wake _ ?_
      funext k'
      by_cases hk : k' = k
      · subst hk
        simp [IouHist.observe]
      · simp [IouHist.observe, hk, Ne.symm hk]

end Step

end Suspenders.Io
