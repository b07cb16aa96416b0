import Suspenders.Lib.Bytes
import Suspenders.Lib.Prog
import Suspenders.Lib.Run

/-!
# The byte stream

Stream 0 is received into one buffer that grows by doubling: `s_quic_stream_input` takes the frames, and `quic_read`
hands out what has been received.  Whatever frames of a byte sequence come, in whatever order, what has been received
is the beginning of the sequence (`received_prefix`).

An endpoint advertises more flow control than its buffer can take (`delivered_iff`).
-/

namespace Suspenders.Quic

open Lib

/-- `S_QUIC_STREAM_MAX` -/
def streamMax : ℕ := 256 * 1024

/-- `S_QUIC_FLOW` -/
def flow : ℕ := 8 * 1024 * 1024

/-- The allocator during a call: a block of the size asked for, with anything in it, or nothing. -/
structure Heap where
  alloc : ℕ → Option Bytes
  length_eq : ∀ n b, alloc n = some b → b.length = n

/-- The receive stream of a connection. -/
structure Stream where
  /-- `rx`, with all the bytes that were allocated -/
  rx : Option Bytes
  rxLen : ℕ
  rxPos : ℕ
  rxCap : ℕ
  rxFin : Bool
  /-- Whether memory outside the buffer was written. -/
  overrun : Bool
  deriving DecidableEq

namespace Stream

/-- A new connection. -/
def init : Stream := ⟨none, 0, 0, 0, false, false⟩

/-- `memcpy(c->rx + offset, data, len)` -/
def write (s : Stream) (offset : ℕ) (data : Bytes) : Stream :=
  match s.rx with
  | some buf =>
    if offset + data.length ≤ buf.length then
      { s with rx := some (buf.take offset ++ data ++ buf.drop (offset + data.length)) }
    else { s with overrun := true }
  | none => { s with overrun := true }

/-- Only the contents of the buffer are written. -/
lemma write_eq (s : Stream) (offset : ℕ) (data : Bytes) : ∃ rx overrun,
    s.write offset data = { s with rx := rx, overrun := overrun } ∧ rx.isSome = s.rx.isSome := by
  unfold write
  split
  next buf hbuf =>
    split
    · exact ⟨_, _, rfl, by simp [hbuf]⟩
    · exact ⟨_, _, rfl, rfl⟩
  next => exact ⟨_, _, rfl, rfl⟩

@[simp] lemma write_rxLen (s : Stream) (offset : ℕ) (data : Bytes) : (s.write offset data).rxLen = s.rxLen := by
  obtain ⟨_, _, h, -⟩ := s.write_eq offset data
  rw [h]

@[simp] lemma write_rxPos (s : Stream) (offset : ℕ) (data : Bytes) : (s.write offset data).rxPos = s.rxPos := by
  obtain ⟨_, _, h, -⟩ := s.write_eq offset data
  rw [h]

@[simp] lemma write_rxCap (s : Stream) (offset : ℕ) (data : Bytes) : (s.write offset data).rxCap = s.rxCap := by
  obtain ⟨_, _, h, -⟩ := s.write_eq offset data
  rw [h]

@[simp] lemma write_isSome (s : Stream) (offset : ℕ) (data : Bytes) :
    (s.write offset data).rx.isSome = s.rx.isSome := by
  obtain ⟨_, _, h, hsome⟩ := s.write_eq offset data
  rw [h]
  exact hsome

lemma write_of_le {s : Stream} {offset : ℕ} {data buf : Bytes} (hbuf : s.rx = some buf)
    (hfit : offset + data.length ≤ buf.length) : s.write offset data =
      { s with rx := some (buf.take offset ++ data ++ buf.drop (offset + data.length)) } := by
  simp only [write, hbuf, if_pos hfit]

/-- The bytes that have been received. -/
def received (s : Stream) : Bytes := (s.rx.getD []).take s.rxLen

end Stream

open Prog

/-- The loop that doubles the capacity. -/
def growCap (need ncap : ℕ) : Option ℕ :=
  if ncap < need then
    if streamMax / 2 < ncap then none
    -- the capacity is never 0 here
    else if ncap = 0 then none
    else growCap need (ncap * 2)
  else some ncap
termination_by need - ncap

/-- The first allocation. -/
def allocRx (h : Heap) : Prog Stream Unit := do
  let s ← get
  if s.rx.isSome then pure ()
  else do
    modify fun s => { s with rxCap := 8192 }
    let buf ← ofOption (h.alloc 8192)
    modify fun s => { s with rx := some buf }

/-- A larger buffer, if `need` bytes do not fit. -/
def growRx (h : Heap) (need : ℕ) : Prog Stream Unit := do
  let s ← get
  if need ≤ s.rxCap then pure ()
  else do
    let ncap ← ofOption (growCap need s.rxCap)
    let nbuf ← ofOption (h.alloc ncap)
    modify fun s => { { s with rx := some nbuf }.write 0 s.received with rxCap := ncap }

/-- Bytes that come next are taken, and bytes that are there already are ignored. -/
def takeRx (offset : ℕ) (data : Bytes) : Prog Stream Unit := do
  let s ← get
  if offset = s.rxLen then
    modify fun s => { s.write offset data with rxLen := s.rxLen + data.length }
  else if offset + data.length ≤ s.rxLen then pure ()
  else fail

/-- `s_quic_stream_input` -/
def streamInput (h : Heap) (offset : ℕ) (data : Bytes) (fin : Bool) : Prog Stream Unit := do
  require (offset ≤ streamMax ∧ data.length ≤ streamMax - offset)
  allocRx h
  growRx h (offset + data.length)
  takeRx offset data
  modify fun s => { s with rxFin := s.rxFin || fin }

/-- The end of `quic_read`, when there is something to read: what it returns, and what remains. -/
def Stream.read (s : Stream) (len : ℕ) : Bytes × Stream :=
  let n := min len (s.rxLen - s.rxPos)
  (((s.rx.getD []).drop s.rxPos).take n, { s with rxPos := s.rxPos + n })

/-! ## What has been received -/

/-- The stream has received the beginning of `S`. -/
structure Receives (S : Bytes) (s : Stream) : Prop where
  /-- The capacity is right, and the contents are the beginning of `S`. -/
  buffer : ∀ buf, s.rx = some buf →
    buf.length = s.rxCap ∧ s.rxLen ≤ s.rxCap ∧ s.rxCap ≤ streamMax ∧ buf.take s.rxLen = S.take s.rxLen
  empty : s.rx = none → s.rxLen = 0
  pos : s.rxPos ≤ s.rxLen
  inside : s.overrun = false

variable {S : Bytes} {s : Stream} {h : Heap}

lemma receives_init (S : Bytes) : Receives S .init := ⟨by simp [Stream.init], fun _ => rfl, Nat.le_refl 0, rfl⟩

lemma Receives.received (hs : Receives S s) : s.received = S.take s.rxLen := by
  unfold Stream.received
  cases hrx : s.rx with
  | none => simp [hs.empty hrx]
  | some buf => exact (hs.buffer buf hrx).2.2.2

lemma Receives.length_received (hs : Receives S s) : s.received.length = s.rxLen := by
  unfold Stream.received
  cases hrx : s.rx with
  | none => simp [hs.empty hrx]
  | some buf =>
    obtain ⟨hlen, hle, -, -⟩ := hs.buffer buf hrx
    simp [hlen, hle]

lemma growCap_spec {need ncap n : ℕ} (hn : growCap need ncap = some n) (hcap : ncap ≤ streamMax) :
    need ≤ n ∧ ncap ≤ n ∧ n ≤ streamMax := by
  induction ncap using growCap.induct need with
  | case1 ncap hlt hbig => simp [growCap, hlt, hbig] at hn
  | case2 hlt hbig => simp [growCap, hlt] at hn
  | case3 ncap hlt hbig hzero ih =>
    rw [growCap, if_pos hlt, if_neg hbig, if_neg hzero] at hn
    obtain ⟨hneed, hle, hmax⟩ := ih hn (by omega)
    exact ⟨hneed, by omega, hmax⟩
  | case4 ncap hlt =>
    rw [growCap, if_neg hlt] at hn
    obtain rfl := Option.some.inj hn
    exact ⟨by omega, Nat.le_refl _, hcap⟩

/-- A buffer with the received bytes at its beginning. -/
lemma Receives.copy (hs : Receives S s) {buf : Bytes} {cap : ℕ} (hbuf : buf.length = cap) (hcap : cap ≤ streamMax)
    (hle : s.rxLen ≤ cap) : Receives S { { s with rx := some buf }.write 0 s.received with rxCap := cap } := by
  have hlen := hs.length_received
  rw [Stream.write_of_le rfl (by omega : 0 + s.received.length ≤ buf.length)]
  refine ⟨?_, by simp, hs.pos, hs.inside⟩
  rintro _ ⟨⟩
  refine ⟨?_, hle, hcap, ?_⟩
  · simp only [List.take_zero, List.nil_append, List.length_append, List.length_drop, hlen]
    omega
  · rw [List.take_zero, List.nil_append, List.take_left' hlen, hs.received]

lemma allocRx_spec (S : Bytes) (h : Heap) :
    Spec (Receives S) (allocRx h) (fun _ s => Receives S s ∧ s.rx.isSome = true) (Receives S) := by
  refine Spec.get_bind fun s => Spec.ite (fun hsome => Spec.pure ?_) fun hnone => ?_
  · rintro _ ⟨rfl, hs⟩
    exact ⟨hs, hsome⟩
  · have hrx : s.rx = none := by simpa using hnone
    refine Spec.bind (Q := fun _ t => t = { s with rxCap := 8192 } ∧ Receives S s) (Spec.modify ?_) fun _ => ?_
    · rintro _ ⟨rfl, hs⟩
      exact ⟨rfl, hs⟩
    refine Spec.bind (Q := fun buf t => h.alloc 8192 = some buf ∧ t = { s with rxCap := 8192 } ∧ Receives S s)
      (Spec.ofOption (fun _ _ halloc ht => ⟨halloc, ht⟩) ?_) fun buf => Spec.modify ?_
    · rintro _ - ⟨rfl, hs⟩
      exact ⟨by simp [hrx], fun _ => hs.empty hrx, hs.pos, hs.inside⟩
    · rintro _ ⟨halloc, rfl, hs⟩
      refine ⟨⟨?_, by simp, hs.pos, hs.inside⟩, rfl⟩
      rintro _ ⟨⟩
      have hlen := hs.empty hrx
      exact ⟨h.length_eq _ _ halloc, by simp [hlen], (by decide : 8192 ≤ streamMax), by simp [hlen]⟩

lemma growRx_spec (S : Bytes) (h : Heap) (need : ℕ) :
    Spec (fun s => Receives S s ∧ s.rx.isSome = true) (growRx h need)
      (fun _ s => Receives S s ∧ s.rx.isSome = true ∧ need ≤ s.rxCap) (Receives S) := by
  refine Spec.get_bind fun s => Spec.ite (fun hle => Spec.pure ?_) fun _ => ?_
  · rintro _ ⟨rfl, hs, hsome⟩
    exact ⟨hs, hsome, hle⟩
  · refine Spec.bind (Q := fun n t => growCap need s.rxCap = some n ∧ t = s ∧ Receives S s ∧ s.rx.isSome = true)
      (Spec.ofOption (fun _ _ hgrow ht => ⟨hgrow, ht⟩) ?_) fun ncap => ?_
    · rintro _ - ⟨rfl, hs, -⟩
      exact hs
    refine Spec.bind (Q := fun nbuf t => h.alloc ncap = some nbuf ∧ growCap need s.rxCap = some ncap ∧ t = s ∧
      Receives S s ∧ s.rx.isSome = true) (Spec.ofOption (fun _ _ halloc ht => ⟨halloc, ht⟩) ?_)
      fun nbuf => Spec.modify ?_
    · rintro _ - ⟨-, rfl, hs, -⟩
      exact hs
    · rintro _ ⟨halloc, hgrow, rfl, hs, hsome⟩
      obtain ⟨buf, hbuf⟩ := Option.isSome_iff_exists.mp hsome
      obtain ⟨-, hle, hmax, -⟩ := hs.buffer buf hbuf
      obtain ⟨hneed, hge, hmax'⟩ := growCap_spec hgrow hmax
      refine ⟨hs.copy (h.length_eq _ _ halloc) hmax' (Nat.le_trans hle hge), ?_, hneed⟩
      simp

/-- A frame of `S`. -/
lemma takeRx_spec (S : Bytes) (offset len : ℕ) (hin : offset + len ≤ S.length) :
    Spec (fun s => Receives S s ∧ s.rx.isSome = true ∧ offset + len ≤ s.rxCap)
      (takeRx offset ((S.drop offset).take len)) (fun _ => Receives S) (Receives S) := by
  have hlen : ((S.drop offset).take len).length = len := by
    rw [List.length_take, List.length_drop]
    omega
  refine Spec.get_bind fun s => Spec.ite (fun hnext => Spec.modify ?_) fun _ => Spec.ite (fun _ => ?_) fun _ => ?_
  · rintro s ⟨rfl, hs, hsome, hcap⟩
    obtain ⟨buf, hbuf⟩ := Option.isSome_iff_exists.mp hsome
    obtain ⟨hbl, hle, hmax, htake⟩ := hs.buffer buf hbuf
    rw [Stream.write_of_le hbuf (by rw [hlen, hbl]; exact hcap)]
    refine ⟨?_, by simp, Nat.le_trans hs.pos (Nat.le_add_right _ _), hs.inside⟩
    rintro _ ⟨⟩
    subst hnext
    refine ⟨?_, by simpa [hlen] using hcap, hmax, ?_⟩
    · simp only [List.length_append, List.length_take, List.length_drop]
      omega
    · have hfront : (buf.take s.rxLen ++ (S.drop s.rxLen).take len).length = s.rxLen + len := by
        rw [List.length_append, hlen, List.length_take]
        omega
      simp only [hlen]
      rw [List.take_left' hfront, htake, ← List.take_add]
  · exact Spec.pure fun _ ht => ht.1 ▸ ht.2.1
  · exact Spec.fail fun _ ht => ht.1 ▸ ht.2.1

/-- Frames of `S` keep the stream a beginning of `S`, whether they are accepted or not. -/
lemma streamInput_keeps (S : Bytes) (h : Heap) (offset len : ℕ) (fin : Bool) (hin : offset + len ≤ S.length) :
    Keeps (Receives S) (streamInput h offset ((S.drop offset).take len) fin) := by
  have hlen : ((S.drop offset).take len).length = len := by
    rw [List.length_take, List.length_drop]
    omega
  refine Keeps.bind Keeps.require fun _ => ?_
  refine Spec.bind (allocRx_spec S h) fun _ => ?_
  refine Spec.bind (growRx_spec S h _) fun _ => ?_
  rw [hlen]
  refine Spec.bind (takeRx_spec S offset len hin) fun _ => Spec.modify fun s hs => ?_
  exact ⟨hs.buffer, hs.empty, hs.pos, hs.inside⟩

/-! ## Runs -/

/-- What happens to the stream. -/
inductive StreamEvent
  /-- A frame of the sent bytes, while the allocator is `h`. -/
  | frame (h : Heap) (offset len : ℕ) (fin : Bool)
  /-- A call of `quic_read` that finds something. -/
  | read (len : ℕ)

/-- The stream, with all the bytes that `quic_read` has returned. -/
inductive StreamStep (S : Bytes) : Stream × Bytes → StreamEvent → Stream × Bytes → Prop
  | frame {s : Stream} {out : Bytes} {h : Heap} {offset len : ℕ} {fin : Bool} :
      offset + len ≤ S.length →
      StreamStep S (s, out) (.frame h offset len fin)
        ((streamInput h offset ((S.drop offset).take len) fin s).2, out)
  | read {s : Stream} {out : Bytes} {len : ℕ} :
      s.rxPos < s.rxLen → StreamStep S (s, out) (.read len) ((s.read len).2, out ++ (s.read len).1)

/-- The received bytes never become fewer, and what was read stays read. -/
lemma streamInput_grows (h : Heap) (offset : ℕ) (data : Bytes) (fin : Bool) (n m : ℕ) :
    Keeps (fun s => n ≤ s.rxLen ∧ s.rxPos = m) (streamInput h offset data fin) := by
  refine Keeps.bind Keeps.require fun _ => Keeps.bind ?_ fun _ => Keeps.bind ?_ fun _ => Keeps.bind ?_ fun _ =>
    Keeps.modify fun _ hs => hs
  · refine Keeps.get_bind fun s _ => Keeps.ite (fun _ => Keeps.pure ()) fun _ => ?_
    exact Keeps.bind (Keeps.modify fun _ hs => hs) fun _ => Keeps.bind (Keeps.ofOption _) fun _ =>
      Keeps.modify fun _ hs => hs
  · refine Keeps.get_bind fun s _ => Keeps.ite (fun _ => Keeps.pure ()) fun _ => ?_
    exact Keeps.bind (Keeps.ofOption _) fun _ => Keeps.bind (Keeps.ofOption _) fun _ =>
      Keeps.modify fun _ hs => by simpa using hs
  · refine Keeps.get_bind fun s _ => Keeps.ite (fun _ => Keeps.modify fun t ht => ?_) fun _ =>
      Keeps.ite (fun _ => Keeps.pure ()) fun _ => Keeps.fail
    exact ⟨Nat.le_trans ht.1 (Nat.le_add_right _ _), by simpa using ht.2⟩

/-- The stream and what was read of it. -/
def StreamInv (S : Bytes) (p : Stream × Bytes) : Prop := Receives S p.1 ∧ p.2 = S.take p.1.rxPos

lemma Receives.read (hs : Receives S s) (len : ℕ) :
    (s.read len).1 = (S.drop s.rxPos).take (min len (s.rxLen - s.rxPos)) ∧ Receives S (s.read len).2 := by
  have hpos := hs.pos
  refine ⟨?_, hs.buffer, hs.empty, ?_, hs.inside⟩
  · have hrx := hs.received
    have hdrop (l : Bytes) : ((l.drop s.rxPos).take (min len (s.rxLen - s.rxPos))) =
        ((l.take s.rxLen).drop s.rxPos).take (min len (s.rxLen - s.rxPos)) := by
      rw [List.drop_take, List.take_take]
      congr 1
      omega
    unfold Stream.received at hrx
    simp only [Stream.read]
    rw [hdrop, hrx, ← hdrop]
  · simp only [Stream.read]
    omega

lemma streamInv_step {p q : Stream × Bytes} {ev : StreamEvent} (hp : StreamInv S p) (hstep : StreamStep S p ev q) :
    StreamInv S q ∧ p.1.rxLen ≤ q.1.rxLen := by
  obtain ⟨hs, hout⟩ := hp
  cases hstep with
  | @frame s out h offset len fin hin =>
    have hgrows := (streamInput_grows h offset ((S.drop offset).take len) fin s.rxLen s.rxPos).apply
      ⟨Nat.le_refl _, rfl⟩
    refine ⟨⟨(streamInput_keeps S h offset len fin hin).apply hs, ?_⟩, hgrows.1⟩
    show out = S.take (streamInput h offset ((S.drop offset).take len) fin s).2.rxPos
    rw [hgrows.2]
    exact hout
  | @read s out len hlt =>
    obtain ⟨hread, hs'⟩ := hs.read len
    refine ⟨⟨hs', ?_⟩, Nat.le_refl _⟩
    show out ++ (s.read len).1 = S.take (s.rxPos + min len (s.rxLen - s.rxPos))
    rw [List.take_add, ← hread, ← show out = S.take s.rxPos from hout]

/-- Whatever frames of `S` come, in any order, with gaps, duplicates, overlaps and failed allocations, and however
they are read in between: what has been received is a beginning of `S`, which does not shrink; nothing is written
outside the buffer; and what has been read is exactly the beginning of `S` up to `rx_pos`. -/
theorem received_prefix (S : Bytes) (s : Stream) (out : Bytes)
    (h : Reachable (StreamStep S) (.init, []) (s, out)) :
    s.received = S.take s.rxLen ∧ s.received.length = s.rxLen ∧ out = S.take s.rxPos ∧ s.overrun = false ∧
    (∀ buf, s.rx = some buf →
      buf.length = s.rxCap ∧ s.rxPos ≤ s.rxLen ∧ s.rxLen ≤ s.rxCap ∧ s.rxCap ≤ streamMax) ∧
    ∀ evs q, Run (StreamStep S) (s, out) evs q → s.rxLen ≤ q.1.rxLen := by
  have hinv : StreamInv S (s, out) :=
    Reachable.invariant ⟨receives_init S, rfl⟩ (fun _ _ _ hp hstep => (streamInv_step hp hstep).1) h
  obtain ⟨hs, hout⟩ := hinv
  refine ⟨hs.received, hs.length_received, hout, hs.inside, fun buf hbuf => ?_, fun evs q hrun => ?_⟩
  · obtain ⟨hlen, hle, hmax, -⟩ := hs.buffer buf hbuf
    exact ⟨hlen, hs.pos, hle, hmax⟩
  · have hrun := hrun.invariant (I := fun q => StreamInv S q ∧ s.rxLen ≤ q.1.rxLen) (fun p ev q hp hstep => ?_)
      ⟨⟨hs, hout⟩, Nat.le_refl _⟩
    · exact hrun.2
    · obtain ⟨hq, hle⟩ := streamInv_step hp.1 hstep
      exact ⟨hq, Nat.le_trans hp.2 hle⟩

/-- An allocator that does not fail. -/
def Heap.zeros : Heap :=
  ⟨fun n => some (List.replicate n 0), fun _ _ h => Option.some.inj h ▸ List.length_replicate⟩

lemma Heap.zeros_isSome (n : ℕ) : (Heap.zeros.alloc n).isSome = true := rfl

theorem received_prefix_three : ∃ s out, Reachable (StreamStep [1, 2, 3]) (.init, []) (s, out) ∧ s.rxLen = 3 ∧
    out = [1, 2] := by
  obtain ⟨b, hb, hlen⟩ : ∃ b, Heap.zeros.alloc 8192 = some b ∧ b.length = 8192 := ⟨_, rfl, List.length_replicate⟩
  have hinput : (streamInput .zeros 0 (([1, 2, 3] : Bytes).drop 0 |>.take 3) false .init).2 =
      ⟨some ([1, 2, 3] ++ b.drop 3), 3, 0, 8192, false, false⟩ := by
    simp [streamInput, allocRx, growRx, takeRx, require, ofOption, Stream.init, Stream.write, streamMax, hb, hlen, bind_apply]
  have hrun : Run (StreamStep [1, 2, 3]) (.init, []) [.frame .zeros 0 3 false, .read 2] (_, _) :=
    .cons (.frame (by decide)) (.cons (.read (by rw [hinput]; exact (by decide : 0 < 3))) (.nil _))
  refine ⟨_, _, ⟨_, hrun⟩, by rw [hinput]; rfl, ?_⟩
  obtain ⟨-, -, hout, -⟩ := received_prefix _ _ _ ⟨_, hrun⟩
  rw [hout, hinput]
  rfl

/-! ## Flow control -/

/-- A frame that comes when the one before it has been taken, and the allocator at this time. -/
structure Segment where
  heap : Heap
  data : Bytes
  fin : Bool

/-- Frames one after the other, each of them where the one before it ends. -/
def feed : ℕ → List Segment → Prog Stream Unit
  | _, [] => pure ()
  | offset, f :: fs => do
    streamInput f.heap offset f.data f.fin
    feed (offset + f.data.length) fs

/-- The bytes of all frames. -/
def total (fs : List Segment) : ℕ := (fs.map fun f => f.data.length).sum

/-- The capacity has been doubled a number of times. -/
def Doubled (s : Stream) : Prop := s.rx.isSome = true → ∃ k ≤ 5, s.rxCap = 8192 * 2 ^ k

lemma growCap_doubled {need k : ℕ} (hneed : need ≤ streamMax) (hk : k ≤ 5) :
    ∃ j ≤ 5, growCap need (8192 * 2 ^ k) = some (8192 * 2 ^ j) := by
  induction hn : 5 - k generalizing k with
  | zero =>
    obtain rfl : k = 5 := by omega
    refine ⟨5, Nat.le_refl 5, ?_⟩
    rw [growCap, if_neg]
    simpa [streamMax] using hneed
  | succ n ih =>
    rw [growCap]
    split
    · obtain ⟨j, hj, heq⟩ := ih (k := k + 1) (by omega) (by omega)
      have hpow : 2 ^ k ≤ 2 ^ 4 := Nat.pow_le_pow_right (by decide) (by omega)
      have hpos : 0 < 2 ^ k := Nat.pow_pos (by decide)
      rw [if_neg (by simp only [streamMax]; omega), if_neg (by omega)]
      refine ⟨j, hj, ?_⟩
      rw [← heq, Nat.pow_succ, Nat.mul_assoc]
    · exact ⟨k, hk, rfl⟩

section Accepts

variable (hh : ∀ n, (h.alloc n).isSome = true) {n : ℕ}
include hh

lemma allocRx_accepts : Spec (fun s => Doubled s ∧ s.rxLen = n) (allocRx h)
    (fun _ s => Doubled s ∧ s.rx.isSome = true ∧ s.rxLen = n) (fun _ => False) := by
  refine Spec.get_bind fun s => Spec.ite (fun hsome => Spec.pure ?_) fun hnone => ?_
  · rintro _ ⟨rfl, hs, hn⟩
    exact ⟨hs, hsome, hn⟩
  · refine Spec.bind (Q := fun _ t => t.rxCap = 8192 ∧ t.rxLen = n) (Spec.modify ?_) fun _ => ?_
    · rintro _ ⟨rfl, -, hn⟩
      exact ⟨rfl, hn⟩
    refine Spec.bind (Q := fun _ t => t.rxCap = 8192 ∧ t.rxLen = n) (Spec.ofOption (fun _ _ _ ht => ht) ?_)
      fun buf => Spec.modify ?_
    · rintro _ hnone' -
      simpa [hnone'] using hh 8192
    · rintro _ ⟨hcap, hn⟩
      exact ⟨fun _ => ⟨0, by decide, hcap⟩, rfl, hn⟩

lemma growRx_accepts {need : ℕ} (hneed : need ≤ streamMax) :
    Spec (fun s => Doubled s ∧ s.rx.isSome = true ∧ s.rxLen = n) (growRx h need)
      (fun _ s => Doubled s ∧ s.rxLen = n) (fun _ => False) := by
  refine Spec.get_bind fun s => Spec.ite (fun _ => Spec.pure ?_) fun _ => ?_
  · rintro _ ⟨rfl, hs, -, hn⟩
    exact ⟨hs, hn⟩
  · refine Spec.bind (Q := fun c t => (∃ k ≤ 5, c = 8192 * 2 ^ k) ∧ t.rxLen = n) (Spec.ofOption ?_ ?_) fun ncap => ?_
    · rintro c _ hc ⟨rfl, hs, hsome, hn⟩
      obtain ⟨k, hk, hcap⟩ := hs hsome
      obtain ⟨j, hj, heq⟩ := growCap_doubled hneed hk
      rw [hcap, heq] at hc
      exact ⟨⟨j, hj, (Option.some.inj hc).symm⟩, hn⟩
    · rintro _ hnone ⟨rfl, hs, hsome, -⟩
      obtain ⟨k, hk, hcap⟩ := hs hsome
      obtain ⟨j, -, heq⟩ := growCap_doubled hneed hk
      rw [hcap, heq] at hnone
      simp at hnone
    refine Spec.bind (Q := fun _ t => (∃ k ≤ 5, ncap = 8192 * 2 ^ k) ∧ t.rxLen = n)
      (Spec.ofOption (fun _ _ _ ht => ht) ?_) fun nbuf => Spec.modify ?_
    · rintro _ hnone -
      simpa [hnone] using hh ncap
    · rintro t ⟨hcap, hn⟩
      exact ⟨fun _ => hcap, by simpa using hn⟩

/-- The frame that comes next is accepted if it fits. -/
lemma streamInput_accepts {data : Bytes} {fin : Bool} (hfit : n + data.length ≤ streamMax) :
    Spec (fun s => Doubled s ∧ s.rxLen = n) (streamInput h n data fin)
      (fun _ s => Doubled s ∧ s.rxLen = n + data.length) (fun _ => False) := by
  refine Spec.bind (Q := fun _ s => Doubled s ∧ s.rxLen = n)
    (Spec.require (fun _ _ hs => hs) fun _ hnot _ => hnot (by omega)) fun _ => ?_
  refine Spec.bind (allocRx_accepts hh) fun _ => ?_
  refine Spec.bind (growRx_accepts hh hfit) fun _ => ?_
  refine Spec.bind (Q := fun _ s => Doubled s ∧ s.rxLen = n + data.length) ?_ fun _ => Spec.modify fun _ hs => hs
  refine Spec.get_bind fun s => Spec.ite (fun _ => Spec.modify ?_) fun hne => ?_
  · rintro _ ⟨rfl, hs, rfl⟩
    refine ⟨fun hsome => ?_, rfl⟩
    simpa using hs (by simpa using hsome)
  · rintro _ ⟨rfl, -, hn⟩
    exact absurd hn.symm hne

end Accepts

/-- Frames one after the other are accepted if all of them fit. -/
lemma feed_accepts (fs : List Segment) (hfs : ∀ f ∈ fs, ∀ n, (f.heap.alloc n).isSome = true) (n : ℕ)
    (hfit : n + total fs ≤ streamMax) :
    Spec (fun s => Doubled s ∧ s.rxLen = n) (feed n fs) (fun _ _ => True) (fun _ => False) := by
  induction fs generalizing n with
  | nil => exact Spec.pure fun _ _ => trivial
  | cons f fs ih =>
    have htotal : n + f.data.length + total fs ≤ streamMax := by
      simpa [total, Nat.add_assoc] using hfit
    refine Spec.bind (streamInput_accepts (hfs f (by simp)) (by omega)) fun _ => ?_
    exact ih (fun g hg => hfs g (by simp [hg])) _ htotal

/-- Frames that are accepted fit. -/
lemma feed_fits (fs : List Segment) (n : ℕ) (hn : n ≤ streamMax) :
    Spec (fun _ => True) (feed n fs) (fun _ _ => n + total fs ≤ streamMax) (fun _ => True) := by
  induction fs generalizing n with
  | nil => exact Spec.pure fun _ _ => hn
  | cons f fs ih =>
    have htotal : n + total (f :: fs) = n + f.data.length + total fs := by simp [total, Nat.add_assoc]
    refine Spec.bind (Q := fun _ _ => n + f.data.length ≤ streamMax) ?_ fun _ => ?_
    · refine Spec.bind (Q := fun _ _ => n + f.data.length ≤ streamMax)
        (Spec.require (fun _ hp _ => by omega) fun _ _ _ => trivial) fun _ s hle => ?_
      split
      · exact hle
      · trivial
    · intro s hle
      rw [htotal]
      exact ih _ hle s trivial

lemma feed_iff (fs : List Segment) (hfs : ∀ f ∈ fs, ∀ n, (f.heap.alloc n).isSome = true) :
    (feed 0 fs .init).1 = some () ↔ total fs ≤ streamMax := by
  constructor
  · intro hsome
    have hfeed : feed 0 fs .init = (some (), (feed 0 fs .init).2) := Prod.ext hsome rfl
    have hfits := (feed_fits fs 0 (Nat.zero_le _)).of_some trivial hfeed
    omega
  · intro hfit
    have haccepts := feed_accepts fs hfs 0 (by omega) .init ⟨by simp [Doubled, Stream.init], rfl⟩
    cases hfeed : feed 0 fs .init with
    | mk o s =>
      rw [hfeed] at haccepts
      cases o with
      | none => exact haccepts.elim
      | some _ => rfl

/-- The chunks of one `quic_write`. -/
def chunks (data : Bytes) : List Bytes :=
  if data = [] then [] else data.take 1000 :: chunks (data.drop 1000)
termination_by data.length
decreasing_by
  rename_i h
  have := List.length_pos_of_ne_nil h
  rw [List.length_drop]
  omega

lemma length_chunks (data : Bytes) : ((chunks data).map List.length).sum = data.length := by
  induction data using chunks.induct with
  | case1 => simp [chunks]
  | case2 data h ih =>
    rw [chunks, if_neg h, List.map_cons, List.sum_cons, ih, List.length_take, List.length_drop]
    omega

/-- What one `quic_write` sends, as it is received. -/
def segments (h : Heap) (data : Bytes) : List Segment := (chunks data).map fun d => ⟨h, d, false⟩

lemma total_segments (h : Heap) (writes : List Bytes) :
    total (writes.flatMap (segments h)) = (writes.map List.length).sum := by
  induction writes with
  | nil => rfl
  | cons w ws ih =>
    have hw : total (segments h w) = w.length := by
      rw [← length_chunks w]
      simp [total, segments, Function.comp_def]
    simp only [total] at ih hw
    simp [total, hw, ih]

/-- Frames in order, within the limit that `s_quic_put_params` advertises, are all accepted if and only if they fit into
the buffer; and so it is with the frames that the peer's `quic_write` sends within this limit. -/
theorem delivered_iff (fs : List Segment) (h : Heap) (writes : List Bytes) :
    ((∀ f ∈ fs, ∀ n, (f.heap.alloc n).isSome = true) → total fs ≤ flow →
      ((feed 0 fs .init).1 = some () ↔ total fs ≤ streamMax)) ∧
    ((∀ n, (h.alloc n).isSome = true) → (writes.map List.length).sum ≤ flow →
      ((feed 0 (writes.flatMap (segments h)) .init).1 = some () ↔ (writes.map List.length).sum ≤ streamMax)) := by
  refine ⟨fun hfs _ => feed_iff fs hfs, fun hh _ => ?_⟩
  rw [feed_iff _ ?_, total_segments]
  intro f hf
  obtain ⟨w, -, hf⟩ := List.mem_flatMap.mp hf
  obtain ⟨d, -, rfl⟩ := List.mem_map.mp hf
  exact hh

theorem delivered_iff_three : (feed 0 [⟨.zeros, [1, 2, 3], false⟩] .init).1 = some () :=
  ((delivered_iff [⟨.zeros, [1, 2, 3], false⟩] .zeros []).1 (by simp [Heap.zeros_isSome]) (by decide)).mpr (by decide)

/-- 263 frames of 1000 bytes are within the limit, and do not fit. -/
theorem flow_not_delivered : ¬ ∀ fs : List Segment, (∀ f ∈ fs, ∀ n, (f.heap.alloc n).isSome = true) →
    total fs ≤ flow → (feed 0 fs .init).1 = some () := by
  intro h
  have hheap : ∀ f ∈ List.replicate 263 (⟨.zeros, List.replicate 1000 0, false⟩ : Segment), ∀ n,
      (f.heap.alloc n).isSome = true := by
    intro f hf
    obtain ⟨-, rfl⟩ := List.mem_replicate.mp hf
    exact Heap.zeros_isSome
  have htotal : total (List.replicate 263 (⟨.zeros, List.replicate 1000 0, false⟩ : Segment)) = 263000 := by
    simp only [total, List.map_replicate, List.length_replicate, List.sum_replicate_nat]
  have hfit := (feed_iff _ hheap).mp (h _ hheap (by rw [htotal]; decide))
  rw [htotal] at hfit
  exact absurd hfit (by decide)

end Suspenders.Quic
