import Mathlib.Algebra.Group.Nat.Defs
import Mathlib.Data.Nat.Log
import Suspenders.Base

/-!
# The submission queue of io_uring

A worker prepares entries in the submission queue of its ring and hands all of them to the kernel at once with
`io_uring_submit`.  An operation with a deadline is prepared as two entries, of which the first is linked to the
second, a timeout.  A link does not reach beyond the entries of one submission.

`s_iou_get_sqe` submits by itself if the queue is full.  `timeout_submitted_with_op` says when that happens
between the two entries.
-/

namespace Suspenders.Io

/-- `S_IOU_RECV` and so on. -/
inductive IouCode
  | recv | send | readv | writev | accept | connect | recvmsg | sendmsg
  deriving DecidableEq

/-- What an entry is prepared for. -/
inductive Prep
  /-- `io_uring_prep_recv` and so on -/
  | io (code : IouCode)
  /-- `io_uring_prep_link_timeout` -/
  | linkTimeout (sec nsec : ℕ)
  /-- `io_uring_prep_cancel` of the operation with this number. -/
  | cancel (op : ℕ)
  /-- `io_uring_prep_poll_add` on the wake descriptor of the worker. -/
  | pollWake
  deriving DecidableEq

/-- `user_data` -/
inductive UserData
  | null
  /-- `wake_op` of the worker. -/
  | wake
  /-- The `suspenders_io_op_t` of the call with this number. -/
  | op (k : ℕ)
  deriving DecidableEq

/-- `struct io_uring_sqe` -/
structure Sqe where
  prep : Prep
  data : UserData
  /-- `IOSQE_IO_LINK` -/
  link : Bool
  deriving DecidableEq

/-- A ring, with the submissions it has made. -/
structure Ring where
  /-- The number of entries. -/
  size : ℕ
  /-- The entries that are not submitted. -/
  pending : List Sqe
  /-- What each `io_uring_submit` has handed over. -/
  submitted : List (List Sqe)

/-- How many entries `io_uring_queue_init` makes for a hint: the next power of two. -/
def queueInit (hint : ℕ) : ℕ := 2 ^ Nat.clog 2 hint

/-- The size of the rings after `suspenders_init`. -/
def initSize (queueHint : ℕ) : ℕ := queueInit (if queueHint = 0 then 256 else queueHint)

namespace Ring

variable (r : Ring)

/-- `io_uring_submit` -/
def submit : Ring := { r with pending := [], submitted := r.submitted ++ [r.pending] }

/-- `io_uring_get_sqe`, which fails if the queue is full, and what its caller writes into the entry. -/
def getSqe (sqe : Sqe) : Option Ring :=
  if r.pending.length < r.size then some { r with pending := r.pending ++ [sqe] } else none

/-- `s_iou_get_sqe`, and what its caller writes into the entry. -/
def iouGetSqe (sqe : Sqe) : Ring × Bool :=
  match r.getSqe sqe with
  | some r' => (r', true)
  | none =>
    match r.submit.getSqe sqe with
    | some r' => (r', true)
    | none => (r.submit, false)

/-- The entry of an operation. -/
def opSqe (code : IouCode) (op : ℕ) (link : Bool) : Sqe := ⟨.io code, .op op, link⟩

/-- The entry of its timeout at `dl`. -/
def timeoutSqe (dl now : ℕ) : Sqe :=
  ⟨.linkTimeout ((dl - now) / 1000000000) ((dl - now) % 1000000000), .null, false⟩

/-- The part of `s_iou_op` before it waits, for the operation with number `op` and the effective deadline `dl`;
`none` if there is no entry. -/
def iouOp (code : IouCode) (op dl now : ℕ) : Option Ring :=
  match r.iouGetSqe (opSqe code op (decide (dl ≠ 0))) with
  | (_, false) => none
  | (r₁, true) =>
    if dl = 0 then some r₁.submit
    else
      match r₁.iouGetSqe (timeoutSqe dl now) with
      | (r₂, true) => some r₂.submit
      -- the flag is cleared in an entry that has been submitted
      | (r₂, false) => some r₂.submit

/-- `s_iou_cancel` of the operation with number `op`. -/
def iouCancel (op : ℕ) : Ring :=
  match r.iouGetSqe ⟨.cancel op, .null, false⟩ with
  | (r₁, true) => r₁.submit
  | (r₁, false) => r₁

/-- `s_iou_arm_wake` -/
def iouArmWake : Ring :=
  match r.iouGetSqe ⟨.pollWake, .wake, false⟩ with
  | (r₁, true) => r₁.submit
  | (r₁, false) => r₁

/-! ## What is submitted -/

variable {r} {sqe : Sqe}

/-- A ring with an entry at all always has one for `s_iou_get_sqe`; a full queue is submitted first. -/
lemma iouGetSqe_eq (hsize : 1 ≤ r.size) :
    r.iouGetSqe sqe =
      if r.pending.length < r.size then ({ r with pending := r.pending ++ [sqe] }, true)
      else ({ r.submit with pending := [sqe] }, true) := by
  by_cases hfull : r.pending.length < r.size
  · simp only [iouGetSqe, getSqe, if_pos hfull]
  · have hroom : r.submit.pending.length < r.submit.size := hsize
    simp only [iouGetSqe, getSqe, if_neg hfull, if_pos hroom]
    rfl

/-- Operation `op` and its timeout are handed over by one submission, one behind the other. -/
def Together (r : Ring) (code : IouCode) (op dl now : ℕ) : Prop :=
  ∃ batch ∈ r.submitted, ∃ before after,
    batch = before ++ opSqe code op true :: timeoutSqe dl now :: after

/-- The submissions of an operation with a deadline: the queue may be full before its entry, or before the one
of the timeout. -/
lemma iouOp_submitted {size : ℕ} {pending : List Sqe} {code : IouCode} {op dl now : ℕ} (hsize : 1 ≤ size)
    (hdl : dl ≠ 0) :
    ∃ r', Ring.iouOp ⟨size, pending, []⟩ code op dl now = some r' ∧ r'.submitted =
      if pending.length + 1 < size then [pending ++ [opSqe code op true, timeoutSqe dl now]]
      else if pending.length + 1 = size then [pending ++ [opSqe code op true], [timeoutSqe dl now]]
      else if 2 ≤ size then [pending, [opSqe code op true, timeoutSqe dl now]]
      else [pending, [opSqe code op true], [timeoutSqe dl now]] := by
  unfold iouOp
  rw [iouGetSqe_eq hsize]
  by_cases hfull : pending.length < size
  · simp only [if_pos hfull, if_neg hdl]
    rw [iouGetSqe_eq (by exact hsize)]
    by_cases hlast : pending.length + 1 < size
    · simp [hlast, submit, hdl]
    · have hlast' : pending.length + 1 = size := by omega
      simp [hlast', submit, hdl]
  · simp only [if_neg hfull, if_neg hdl]
    rw [iouGetSqe_eq (by exact hsize)]
    have hlast : ¬ pending.length + 1 < size := by omega
    have hlast' : ¬ pending.length + 1 = size := by omega
    by_cases htwo : 2 ≤ size
    · have hroom : 1 < size := by omega
      simp [hlast, hlast', htwo, hroom, submit, hdl]
    · have hroom : ¬ 1 < size := by omega
      simp [hlast, hlast', htwo, hroom, submit, hdl]

/-- The last entry of a submission has no entry behind it. -/
lemma not_followed {pending before after : List Sqe} {x y : Sqe} (hx : x ∉ pending) :
    pending ++ [x] ≠ before ++ x :: y :: after := by
  intro heq
  have hinit := congrArg List.dropLast heq
  rw [List.dropLast_concat, List.dropLast_append_cons, List.dropLast_cons_of_ne_nil (by simp)] at hinit
  apply hx
  rw [hinit]
  simp

/-- The size of the rings. -/
lemma initSize_spec {queueHint : ℕ} (h : 1 ≤ queueHint) :
    1 ≤ initSize queueHint ∧ (2 ≤ initSize queueHint ↔ 2 ≤ queueHint) := by
  have hne : queueHint ≠ 0 := by omega
  simp only [initSize, if_neg hne, queueInit]
  refine ⟨Nat.one_le_two_pow, ?_⟩
  by_cases htwo : 2 ≤ queueHint
  · have hle := Nat.le_pow_clog Nat.one_lt_two queueHint
    exact ⟨fun _ => htwo, fun _ => htwo.trans hle⟩
  · obtain rfl : queueHint = 1 := by omega
    simp

/-- An operation with a deadline is handed over together with its timeout if and only if the rings have more
than one entry and the queue has not exactly one free entry at the call. -/
theorem timeout_submitted_with_op {queueHint : ℕ} {pending : List Sqe} {code : IouCode} {op dl now : ℕ}
    (hhint : 1 ≤ queueHint) (hpending : pending.length ≤ initSize queueHint)
    (hfresh : ∀ x ∈ pending, x.data ≠ .op op) (hdl : dl ≠ 0) :
    (∃ r', Ring.iouOp ⟨initSize queueHint, pending, []⟩ code op dl now = some r' ∧
      Together r' code op dl now) ↔ 2 ≤ queueHint ∧ pending.length + 1 ≠ initSize queueHint := by
  obtain ⟨hsize, htwo⟩ := initSize_spec hhint
  obtain ⟨r', hr', hsub⟩ : ∃ r', Ring.iouOp ⟨initSize queueHint, pending, []⟩ code op dl now = some r' ∧ _ :=
    iouOp_submitted hsize hdl
  have hnot : opSqe code op true ∉ pending := fun hmem => hfresh _ hmem rfl
  -- an entry with other data is not the one of the operation
  have halone : ∀ {x : Sqe} {before after : List Sqe},
      [x] ≠ before ++ opSqe code op true :: timeoutSqe dl now :: after := by
    intro x before after heq
    have hlen := congrArg List.length heq
    simp at hlen
    omega
  have hpend : ∀ {before after : List Sqe},
      pending ≠ before ++ opSqe code op true :: timeoutSqe dl now :: after := by
    intro before after heq
    apply hnot
    rw [heq]
    simp
  have hiff : (∃ r'', Ring.iouOp ⟨initSize queueHint, pending, []⟩ code op dl now = some r'' ∧
      Together r'' code op dl now) ↔ Together r' code op dl now := by
    rw [hr']
    simp
  rw [hiff, Together, hsub, ← htwo]
  by_cases hroom : pending.length + 1 < initSize queueHint
  · rw [if_pos hroom]
    constructor
    · intro _
      omega
    · intro _
      exact ⟨_, List.mem_singleton_self _, pending, [], rfl⟩
  · rw [if_neg hroom]
    by_cases hlast : pending.length + 1 = initSize queueHint
    · rw [if_pos hlast]
      constructor
      · rintro ⟨batch, hmem, before, after, heq⟩
        simp only [List.mem_cons, List.not_mem_nil, or_false] at hmem
        rcases hmem with rfl | rfl
        · exact absurd heq (not_followed hnot)
        · exact absurd heq halone
      · rintro ⟨-, hne⟩
        exact absurd hlast hne
    · rw [if_neg hlast]
      by_cases hbig : 2 ≤ initSize queueHint
      · rw [if_pos hbig]
        constructor
        · intro _
          exact ⟨hbig, hlast⟩
        · intro _
          exact ⟨_, List.mem_cons_of_mem _ (List.mem_singleton_self _), [], [], rfl⟩
      · rw [if_neg hbig]
        constructor
        · rintro ⟨batch, hmem, before, after, heq⟩
          simp only [List.mem_cons, List.not_mem_nil, or_false] at hmem
          rcases hmem with rfl | rfl | rfl
          · exact absurd heq hpend
          · exact absurd heq halone
          · exact absurd heq halone
        · rintro ⟨htwo', -⟩
          exact absurd htwo' hbig

/-- On a ring with four entries, two of which are in use. -/
theorem timeout_submitted_with_op_of_four :
    ∃ r', Ring.iouOp ⟨initSize 4, [⟨.pollWake, .wake, false⟩, ⟨.pollWake, .wake, false⟩], []⟩ .recv 0 5 3 = some r' ∧
      Together r' .recv 0 5 3 := by
  have hsize : initSize 4 = 4 := congrArg (2 ^ ·) (Nat.clog_pow 2 2 Nat.one_lt_two)
  refine (timeout_submitted_with_op (by decide) ?_ (by decide) (by decide)).mpr ?_
  · rw [hsize]
    decide
  · rw [hsize]
    decide

/-- On a ring with one entry the operation goes first, and its timeout behind it alone. -/
theorem timeout_left_behind :
    ∃ r', Ring.iouOp ⟨initSize 1, [], []⟩ .recv 0 5 3 = some r' ∧
      r'.submitted = [[opSqe .recv 0 true], [timeoutSqe 5 3]] ∧ ¬ Together r' .recv 0 5 3 := by
  have hsize : initSize 1 = 1 := by
    simp [initSize, queueInit]
  rw [hsize]
  refine ⟨_, rfl, rfl, ?_⟩
  rintro ⟨batch, hmem, before, after, heq⟩
  have hlen : batch.length = 1 := by
    have hmem' : batch = [opSqe .recv 0 true] ∨ batch = [timeoutSqe 5 3] := by simpa [submit] using hmem
    rcases hmem' with rfl | rfl
    · rfl
    · rfl
  rw [heq] at hlen
  simp at hlen
  omega

end Ring

end Suspenders.Io
