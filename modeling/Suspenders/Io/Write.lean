import Suspenders.Base
import Suspenders.Lib.Bytes

/-!
# Writing to a stream socket

`s_stream_write` calls `s_io_send` until everything is written.  A call may take less than it is given, and it may
fail; what earlier calls of the same write have handed to the socket has then left, and the write returns -1
nevertheless.

`Split` names the sequences of calls in which a failure comes after a call that has taken bytes.  A write whose calls
are not of this kind returns what it has handed over.
-/

namespace Suspenders.Io

open Lib

/-! ## One call -/

/-- What comes to one call of `s_io_send` from outside. -/
structure SendCall where
  /-- What `s_io_pre` fails with, if it does: a cancel, or a deadline that has passed. -/
  pre : Option Code
  /-- What the operation of `s_iou_op` ends with, on that backend. -/
  iouring : Option (Except Code ℕ)
  /-- The rounds in which the socket would block: what `s_io_wait_ready` fails with, if it does. -/
  waits : List (Option Code)
  /-- The round in which it does not: how much the socket takes, or nothing on an error. -/
  last : Option ℕ

/-- The loop of `s_io_send`. -/
def sendLoop (last : Option ℕ) : List (Option Code) → Except Code ℕ
  | [] =>
    match last with
    | some n => .ok n
    | none => .error .error
  | none :: ws => sendLoop last ws
  | some code :: _ => .error code

namespace SendCall

/-- What a call ends with if it is given enough. -/
def result (x : SendCall) : Except Code ℕ :=
  match x.pre with
  | some code => .error code
  | none =>
    match x.iouring with
    | some r => r
    | none => sendLoop x.last x.waits

/-- How much a call takes if it is given enough. -/
def taken (x : SendCall) : ℕ :=
  match x.result with
  | .ok n => n
  | .error _ => 0

/-- A call fails. -/
def Fails (x : SendCall) : Prop := ∃ code, x.result = .error code

end SendCall

/-- `s_io_send`, which hands over at most the `len` bytes it is given -/
def ioSend (x : SendCall) (len : ℕ) : Except Code ℕ := x.result.map (min · len)

/-! ## The write -/

/-- How far a write has come. -/
inductive Written
  /-- It has not returned. -/
  | waiting
  /-- It has returned -1. -/
  | failed
  /-- It has returned `n`. -/
  | wrote (n : ℕ)
  deriving DecidableEq

/-- A hose of the transports tcp and unix. -/
structure StreamHose where
  /-- `SUSPENDERS_HOSE_ROLE_WRITER` -/
  writer : Bool
  /-- Whether `fd` is a socket. -/
  valid : Bool
  /-- History: what the socket has taken. -/
  wire : Bytes
  deriving DecidableEq

/-- The loop of `s_stream_write`, with what the socket has taken. -/
def writeLoop (src : Bytes) : List SendCall → ℕ → Bytes → Written × Bytes
  | [], written, wire => if src.length ≤ written then (.wrote written, wire) else (.waiting, wire)
  | x :: xs, written, wire =>
    if src.length ≤ written then (.wrote written, wire)
    else
      match ioSend x (src.length - written) with
      | .error _ => (.failed, wire)
      | .ok n =>
        if n = 0 then (.wrote written, wire)
        else writeLoop src xs (written + n) (wire ++ (src.drop written).take n)

/-- `s_stream_write` -/
def streamWrite (calls : List SendCall) (src : Bytes) (h : StreamHose) : Written × StreamHose :=
  if h.writer = false ∨ h.valid = false then (.failed, h)
  else
    let (r, wire) := writeLoop src calls 0 h.wire
    (r, { h with wire := wire })

/-- A call fails after others have taken bytes, and before they have taken `len` of them. -/
def Split (len : ℕ) (calls : List SendCall) : Prop :=
  ∃ before x after, calls = before ++ x :: after ∧ before ≠ [] ∧ (∀ y ∈ before, 0 < y.taken) ∧
    (before.map SendCall.taken).sum < len ∧ x.Fails

section Loop

variable {src wire : Bytes} {calls : List SendCall} {x : SendCall} {w : ℕ}

lemma ioSend_of_fails (hx : x.Fails) (len : ℕ) : ∃ code, ioSend x len = .error code := by
  obtain ⟨code, hcode⟩ := hx
  exact ⟨code, by rw [ioSend, hcode]; rfl⟩

lemma ioSend_of_not_fails (hx : ¬ x.Fails) (len : ℕ) : ioSend x len = .ok (min x.taken len) := by
  unfold ioSend SendCall.taken
  cases hr : x.result with
  | error code => exact absurd ⟨code, hr⟩ hx
  | ok n => rfl

lemma not_fails_of_taken (hx : 0 < x.taken) : ¬ x.Fails := by
  rintro ⟨code, hcode⟩
  rw [SendCall.taken, hcode] at hx
  exact absurd hx (Nat.lt_irrefl 0)

lemma writeLoop_done (hw : src.length ≤ w) : writeLoop src calls w wire = (.wrote w, wire) := by
  cases calls with
  | nil => rw [writeLoop, if_pos hw]
  | cons x xs => rw [writeLoop, if_pos hw]

lemma writeLoop_cons (hw : w < src.length) : writeLoop src (x :: calls) w wire =
    match ioSend x (src.length - w) with
    | .error _ => (.failed, wire)
    | .ok n => if n = 0 then (.wrote w, wire) else writeLoop src calls (w + n) (wire ++ (src.drop w).take n) := by
  rw [writeLoop, if_neg (Nat.not_le.2 hw)]

lemma writeLoop_fails (hw : w < src.length) (hx : x.Fails) : writeLoop src (x :: calls) w wire = (.failed, wire) := by
  obtain ⟨code, hcode⟩ := ioSend_of_fails hx (src.length - w)
  rw [writeLoop_cons hw, hcode]

/-- A call that takes bytes is followed by the next. -/
lemma writeLoop_taken (hw : w < src.length) (hx : 0 < x.taken) :
    writeLoop src (x :: calls) w (wire ++ src.take w) =
      writeLoop src calls (w + min x.taken (src.length - w))
        (wire ++ src.take (w + min x.taken (src.length - w))) := by
  rw [writeLoop_cons hw, ioSend_of_not_fails (not_fails_of_taken hx)]
  simp only
  rw [if_neg (by omega), List.append_assoc, ← List.take_add]

/-- Calls that take less than there is lead to the calls behind them. -/
lemma writeLoop_append {before : List SendCall} (hpos : ∀ y ∈ before, 0 < y.taken)
    (hw : w + (before.map SendCall.taken).sum < src.length) :
    writeLoop src (before ++ calls) w (wire ++ src.take w) =
      writeLoop src calls (w + (before.map SendCall.taken).sum)
        (wire ++ src.take (w + (before.map SendCall.taken).sum)) := by
  induction before generalizing w with
  | nil => rfl
  | cons y ys ih =>
    rw [List.map_cons, List.sum_cons] at hw ⊢
    have hmin : min y.taken (src.length - w) = y.taken := by omega
    rw [List.cons_append, writeLoop_taken (by omega) (hpos y List.mem_cons_self), hmin,
      ih (fun z hz => hpos z (List.mem_cons_of_mem y hz)) (by omega), Nat.add_assoc]

/-- How the loop ends. -/
inductive LoopEnd (src : Bytes) (calls : List SendCall) (w : ℕ) (wire : Bytes) : Written × Bytes → Prop
  | waiting (wire' : Bytes) : LoopEnd src calls w wire (.waiting, wire')
  | wrote (n : ℕ) (hn : n ≤ src.length) : LoopEnd src calls w wire (.wrote n, wire ++ src.take n)
  | failed (before : List SendCall) (x : SendCall) (after : List SendCall) (heq : calls = before ++ x :: after)
      (hpos : ∀ y ∈ before, 0 < y.taken) (hsum : w + (before.map SendCall.taken).sum < src.length) (hx : x.Fails) :
      LoopEnd src calls w wire (.failed, wire ++ src.take (w + (before.map SendCall.taken).sum))

lemma LoopEnd.cons {r : Written × Bytes} (hx : 0 < x.taken) (h : LoopEnd src calls (w + x.taken) wire r) :
    LoopEnd src (x :: calls) w wire r := by
  cases h with
  | waiting wire' => exact .waiting wire'
  | wrote n hn => exact .wrote n hn
  | failed before y after heq hpos hsum hy =>
    have hend := @LoopEnd.failed src (x :: calls) w wire (x :: before) y after
    rw [List.map_cons, List.sum_cons, ← Nat.add_assoc] at hend
    refine hend (by rw [heq, List.cons_append]) (fun z hz => ?_) hsum hy
    obtain rfl | hz := List.mem_cons.1 hz
    · exact hx
    · exact hpos z hz

lemma writeLoop_end (hw : w ≤ src.length) : LoopEnd src calls w wire (writeLoop src calls w (wire ++ src.take w)) := by
  induction calls generalizing w with
  | nil =>
    rw [writeLoop]
    split
    · exact .wrote w hw
    · exact .waiting _
  | cons x xs ih =>
    obtain heq | hlt := Nat.eq_or_lt_of_le hw
    · rw [writeLoop_done (Nat.le_of_eq heq.symm)]
      exact .wrote w hw
    · by_cases hfails : x.Fails
      · rw [writeLoop_fails hlt hfails]
        exact .failed [] x xs rfl (fun _ h => absurd h List.not_mem_nil) hlt hfails
      · obtain hzero | hpos := Nat.eq_zero_or_pos x.taken
        · rw [writeLoop_cons hlt, ioSend_of_not_fails hfails, hzero, Nat.zero_min]
          exact .wrote w hw
        · rw [writeLoop_taken hlt hpos]
          obtain hle | hgt := Nat.le_total x.taken (src.length - w)
          · rw [Nat.min_eq_left hle]
            exact (ih (by omega)).cons hpos
          · rw [Nat.min_eq_right hgt, writeLoop_done (by omega)]
            exact .wrote _ (by omega)

end Loop

end Suspenders.Io
