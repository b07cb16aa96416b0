import Suspenders.Io.Deadline
import Suspenders.Quic.Level

/-!
# The receive loops

`quic_read` waits for data and `s_quic_drive` for the end of a handshake, each in a loop that receives datagrams in
slices of 50 ms, for at most five seconds.  The end of a slice and the end of the caller's patience are both reported
as `SUSPENDERS_TIMEDOUT`, and both loops go on after either.

What the clock and the socket say is an input: one `Round` for each round of a loop.
-/

namespace Suspenders.Quic

open Lib Prog Io

/-- A call of `s_io_recvfrom`. -/
structure Receive where
  /-- `cancel_requested` in `s_io_pre` -/
  canceled : Bool
  /-- The clock in `s_io_pre`. -/
  pre : ℕ
  /-- How the call goes on behind `s_io_pre`: the datagram, or `suspenders_errno`. -/
  rest : Except Code Bytes

/-- What the system gives to one round of a loop. -/
structure Round where
  /-- The clock at the loop test. -/
  test : ℕ
  /-- For `s_quic_retransmit`. -/
  send : Env
  /-- `suspenders_errno`, if it fails -/
  sendErrno : Code
  /-- The clock when the slice begins. -/
  slice : ℕ
  /-- `s_io_recvfrom` -/
  recv : Receive
  /-- For `s_quic_ingest`. -/
  ingest : Env
  /-- `suspenders_errno`, if it fails -/
  ingestErrno : Code

/-- The clock readings of a round. -/
def Round.times (r : Round) : List ℕ := [r.test, r.slice, r.recv.pre]

/-- `s_io_recvfrom` under `s_io_deadline_ns` and the deadline that the coroutine has armed -/
def ioRecvfrom (tls : ℕ) (armed : Option ℕ) (x : Receive) : Except Code Bytes :=
  if x.canceled then .error .canceled
  else if ioEffectiveDeadline tls armed ≠ 0 ∧ ioEffectiveDeadline tls armed ≤ x.pre then .error .timedout
  else x.rest

/-- What a call returns; -1 comes with `suspenders_errno`. -/
inductive Result
  | ok (n : ℕ)
  | failed (errno : Code)
  deriving DecidableEq

/-- What a round of a loop does. -/
structure Turn where
  /-- The clock, if the loop test was made. -/
  tested : Option ℕ
  /-- `s_io_deadline_ns`, if `s_io_recvfrom` was called. -/
  attempt : Option ℕ
  /-- The connection and `suspenders_errno` for the next round, or the end of the loop. -/
  next : (Conn × Code) ⊕ Result

/-- The rounds of a loop, and what it returns unless it goes on behind them. -/
def turns (turn : Conn × Code → Round → Turn) : Conn × Code → List Round → List Turn × Option Result
  | _, [] => ([], none)
  | p, r :: rs =>
    match (turn p r).next with
    | .inl q => (turn p r :: (turns turn q rs).1, (turns turn q rs).2)
    | .inr res => ([turn p r], some res)

/-- The state in which the next round begins, if there is one. -/
def Turn.goesOn (t : Turn) : Option (Conn × Code) := t.next.getLeft?

/-- The limit of both loops, which begin at `start`. -/
def limit (start : ℕ) : ℕ := start + 5000000000

/-- The end of a slice. -/
def sliceEnd (slice : ℕ) : ℕ := slice + 50000000

/-- `s_io_deadline_ns` during a receive of `quic_read`: the deadline of the caller, if there is one -/
def readDeadline (d slice : ℕ) : ℕ := if d = 0 then sliceEnd slice else d

section

variable (cr : Crypto) (start d : ℕ) (armed : Option ℕ)

/-- A round of `quic_read`. -/
def readTurn (len : ℕ) (p : Conn × Code) (r : Round) : Turn :=
  if p.1.stream.rxPos < p.1.stream.rxLen then
    ⟨none, none, .inr (.ok (min (p.1.stream.rxLen - p.1.stream.rxPos) len))⟩
  else if p.1.closed = true ∨ p.1.stream.rxFin = true then ⟨none, none, .inr (.ok 0)⟩
  else if limit start < r.test then ⟨some r.test, none, .inr (.failed .timedout)⟩
  else
    match retransmit cr r.send p.1 with
    | (none, _) => ⟨some r.test, none, .inr (.failed r.sendErrno)⟩
    | (some (), c) =>
      ⟨some r.test, some (readDeadline d r.slice),
        match ioRecvfrom (readDeadline d r.slice) armed r.recv with
        | .error .timedout => .inl (c, .timedout)
        | .error e => .inr (.failed e)
        | .ok buf =>
          match ingest cr r.ingest buf c with
          | (some (), c) => .inl (c, p.2)
          | (none, _) => .inr (.failed r.ingestErrno)⟩

/-- `quic_read` on a connection, with the deadline `d` of its wrapper -/
def quicRead (reader : Bool) (len : ℕ) (c : Conn) (errno : Code) (rs : List Round) : List Turn × Option Result :=
  if reader then turns (readTurn cr start d armed len) (c, errno) rs else ([], some (.failed errno))

/-- A round of `s_quic_drive`, which puts the deadline of its slice in the place of the caller's. -/
def driveTurn (wantApp : Bool) (p : Conn × Code) (r : Round) : Turn :=
  if limit start ≤ r.test then ⟨some r.test, none, .inr (.failed .timedout)⟩
  else if p.1.closed = true then ⟨some r.test, none, .inr (.failed p.2)⟩
  else if wantApp = true ∧ p.1.appReady = true then ⟨some r.test, none, .inr (.ok 0)⟩
  else
    match retransmit cr r.send p.1 with
    | (none, _) => ⟨some r.test, none, .inr (.failed r.sendErrno)⟩
    | (some (), c) =>
      ⟨some r.test, some (sliceEnd r.slice),
        match ioRecvfrom (sliceEnd r.slice) armed r.recv with
        | .error .timedout => .inl (c, .timedout)
        | .error e => .inr (.failed e)
        | .ok buf =>
          match ingest cr r.ingest buf c with
          | (some (), c) => if wantApp = true ∧ c.appReady = true then .inr (.ok 0) else .inl (c, p.2)
          | (none, _) => .inr (.failed r.ingestErrno)⟩

/-- `s_quic_drive` -/
def drive (wantApp : Bool) (c : Conn) (errno : Code) (rs : List Round) : List Turn × Option Result :=
  turns (driveTurn cr start armed wantApp) (c, errno) rs

end

/-! ## Deadlines -/

/-- Once a loop test has seen the deadline passed, nothing is received any more, and the call returns with
`SUSPENDERS_TIMEDOUT`. -/
def Punctual (deadline : ℕ) (x : List Turn × Option Result) : Prop :=
  deadline ≠ 0 → ∀ before t after now, x.1 = before ++ t :: after → t.tested = some now → deadline ≤ now →
    t.attempt = none ∧ (∀ u ∈ after, u.attempt = none) ∧ x.2 = some (.failed .timedout)

/-- The loop comes from state `p` through the rounds `rs` to the beginning of the next one, in state `q`. -/
def GoesOn (turn : Conn × Code → Round → Turn) (p : Conn × Code) (rs : List Round) (q : Conn × Code) : Prop :=
  Run (StepOf fun p r => (turn p r).goesOn) p rs q

variable {turn : Conn × Code → Round → Turn} {p q : Conn × Code} {deadline : ℕ}

lemma turns_of_goesOn {r : Round} (h : (turn p r).goesOn = some q) (rs : List Round) :
    turns turn p (r :: rs) = (turn p r :: (turns turn q rs).1, (turns turn q rs).2) := by
  have hnext : (turn p r).next = .inl q := by simpa [Turn.goesOn] using h
  simp only [turns, hnext]

lemma turns_of_ends {r : Round} {res : Result} (h : (turn p r).next = .inr res) (rs : List Round) :
    turns turn p (r :: rs) = ([turn p r], some res) := by
  simp only [turns, h]

/-- Of a turn: if its test sees the deadline passed, it returns `SUSPENDERS_TIMEDOUT` before it receives. -/
def Turn.Stops (t : Turn) (deadline : ℕ) : Prop :=
  ∀ now, t.tested = some now → deadline ≤ now → t.attempt = none ∧ t.next = .inr (.failed .timedout)

/-- The last round of a loop. -/
lemma punctual_last {t : Turn} {res : Result} (h : t.next = .inr res) (hd : deadline ≠ 0) :
    Punctual deadline ([t], some res) ↔ t.Stops deadline := by
  constructor
  · intro hp now htest hnow
    obtain ⟨hatt, -, hres⟩ := hp hd [] t [] now rfl htest hnow
    have hres : res = .failed .timedout := by simpa using hres
    exact ⟨hatt, hres ▸ h⟩
  · intro hs _ before u after now heq htest hnow
    obtain ⟨rfl, rfl, rfl⟩ : before = [] ∧ t = u ∧ after = [] := by
      cases before with
      | nil => simpa [eq_comm] using heq
      | cons b bs => simp at heq
    obtain ⟨hatt, hres⟩ := hs now htest hnow
    have hres : res = .failed .timedout := by simpa [h] using hres
    exact ⟨hatt, by simp, by rw [hres]⟩

/-- A round that receives, and those behind it. -/
lemma punctual_cons {t : Turn} {ts : List Turn} {res : Option Result} (hatt : t.attempt ≠ none) (hd : deadline ≠ 0) :
    Punctual deadline (t :: ts, res) ↔ t.Stops deadline ∧ Punctual deadline (ts, res) := by
  constructor
  · intro hp
    refine ⟨fun now htest hnow => absurd (hp hd [] t ts now rfl htest hnow).1 hatt, ?_⟩
    intro _ before u after now heq
    exact hp hd (t :: before) u after now (congrArg (t :: ·) heq)
  · rintro ⟨hs, hp⟩ _ before u after now heq htest hnow
    cases before with
    | nil =>
      obtain ⟨rfl, rfl⟩ : t = u ∧ ts = after := by simpa using heq
      exact absurd (hs now htest hnow).1 hatt
    | cons b bs =>
      obtain ⟨rfl, rfl⟩ : t = b ∧ ts = bs ++ u :: after := by simpa using heq
      exact hp hd bs u after now rfl htest hnow

/-- A loop that receives in every round behind which it goes on is punctual if and only if every round that it comes
to stops. -/
lemma punctual_turns_iff (hattempt : ∀ p r q, (turn p r).goesOn = some q → (turn p r).attempt ≠ none)
    (p : Conn × Code) (rs : List Round) :
    Punctual deadline (turns turn p rs) ↔ (deadline ≠ 0 → ∀ before r after q, rs = before ++ r :: after →
      GoesOn turn p before q → (turn q r).Stops deadline) := by
  by_cases hd : deadline = 0
  · simp [Punctual, hd]
  induction rs generalizing p with
  | nil => simp [turns, Punctual]
  | cons r rs ih =>
    -- either the loop ends here, and no later round is reached, or it goes on, and then it has received
    cases hnext : (turn p r).next with
    | inr res =>
      rw [turns_of_ends hnext, punctual_last hnext hd]
      constructor
      · intro hs _ before r' after q heq hrun
        cases hrun with
        | nil =>
          obtain ⟨rfl, -⟩ : r = r' ∧ rs = after := by simpa using heq
          exact hs
        | @cons _ b _ bs _ hstep _ =>
          obtain ⟨rfl, -⟩ : r = b ∧ _ := by simpa using heq
          simp [StepOf, Turn.goesOn, hnext] at hstep
      · intro h
        exact h hd [] r rs p rfl (.nil p)
    | inl q =>
      have hgo : (turn p r).goesOn = some q := by simp [Turn.goesOn, hnext]
      rw [turns_of_goesOn hgo, punctual_cons (hattempt p r q hgo) hd, ih q]
      constructor
      · rintro ⟨hs, hrest⟩ _ before r' after q' heq hrun
        cases hrun with
        | nil =>
          obtain ⟨rfl, -⟩ : r = r' ∧ rs = after := by simpa using heq
          exact hs
        | @cons _ b q₁ bs _ hstep hrun =>
          obtain ⟨rfl, rfl⟩ : r = b ∧ rs = bs ++ r' :: after := by simpa using heq
          obtain rfl : q = q₁ := by simpa [StepOf, hgo] using hstep
          exact hrest hd bs r' after q' rfl hrun
      · intro h
        refine ⟨h hd [] r rs p rfl (.nil p), fun _ before r' after q' heq hrun => ?_⟩
        exact h hd (r :: before) r' after q' (congrArg (r :: ·) heq) (.cons hgo hrun)

section

variable {cr : Crypto} {start d : ℕ} {armed : Option ℕ}

/-- A round of `quic_read` stops if and only if its test does not see the deadline passed, or sees the limit of the
loop passed as well, or a retransmission fails with `SUSPENDERS_TIMEDOUT`. -/
lemma readTurn_stops_iff {len : ℕ} {p : Conn × Code} {r : Round} :
    (readTurn cr start d armed len p r).Stops deadline ↔
      (p.1.stream.rxLen ≤ p.1.stream.rxPos → p.1.closed = false → p.1.stream.rxFin = false → deadline ≤ r.test →
        limit start < r.test ∨ (retransmit cr r.send p.1).1 = none ∧ r.sendErrno = .timedout) := by
  unfold readTurn
  split_ifs with hdata hclosed hlimit
  · simp [Turn.Stops, hdata]
  · simp only [Turn.Stops, reduceCtorEq, false_implies, implies_true, true_iff]
    intro _ hc hf
    simp [hc, hf] at hclosed
  · simp [Turn.Stops, hlimit]
  · have hc : p.1.closed = false ∧ p.1.stream.rxFin = false := by simpa using hclosed
    have hp : p.1.stream.rxLen ≤ p.1.stream.rxPos := by omega
    rcases hre : retransmit cr r.send p.1 with ⟨- | u, c⟩
    · simp [Turn.Stops, hc, hp, hlimit]
    · simp [Turn.Stops, hc, hp, hlimit]

lemma driveTurn_stops_iff {wantApp : Bool} {p : Conn × Code} {r : Round} :
    (driveTurn cr start armed wantApp p r).Stops deadline ↔
      (deadline ≤ r.test → limit start ≤ r.test ∨ p.1.closed = true ∧ p.2 = .timedout ∨
        p.1.closed = false ∧ ¬ (wantApp = true ∧ p.1.appReady = true) ∧
          (retransmit cr r.send p.1).1 = none ∧ r.sendErrno = .timedout) := by
  unfold driveTurn
  split_ifs with hlimit hclosed happ
  · simp [Turn.Stops, hlimit]
  · simp [Turn.Stops, hlimit, hclosed]
  · simp [Turn.Stops, hlimit, hclosed, happ]
  · rcases hre : retransmit cr r.send p.1 with ⟨- | u, c⟩
    · simp [Turn.Stops, hlimit, hclosed, happ]
    · simp [Turn.Stops, hlimit, hclosed, happ]

lemma readTurn_attempt {len : ℕ} {p q : Conn × Code} {r : Round}
    (h : (readTurn cr start d armed len p r).goesOn = some q) : (readTurn cr start d armed len p r).attempt ≠ none := by
  unfold readTurn at h ⊢
  split_ifs at h ⊢ with hdata hclosed hlimit
  · simp [Turn.goesOn] at h
  · simp [Turn.goesOn] at h
  · simp [Turn.goesOn] at h
  · rcases hre : retransmit cr r.send p.1 with ⟨- | u, c⟩
    · simp [hre, Turn.goesOn] at h
    · simp

lemma driveTurn_attempt {wantApp : Bool} {p q : Conn × Code} {r : Round}
    (h : (driveTurn cr start armed wantApp p r).goesOn = some q) :
    (driveTurn cr start armed wantApp p r).attempt ≠ none := by
  unfold driveTurn at h ⊢
  split_ifs at h ⊢ with hlimit hclosed happ
  · simp [Turn.goesOn] at h
  · simp [Turn.goesOn] at h
  · simp [Turn.goesOn] at h
  · rcases hre : retransmit cr r.send p.1 with ⟨- | u, c⟩
    · simp [hre, Turn.goesOn] at h
    · simp

end

/-- When the two loops are punctual: at every loop test that sees the caller's deadline passed, the limit of the loop
has passed as well, or the call ends with `SUSPENDERS_TIMEDOUT` because a retransmission is refused.  (`s_quic_drive`
may also find the connection closed, and return what `suspenders_errno` happens to be.) -/
theorem deadline_respected_iff (cr : Crypto) (start d : ℕ) (armed : Option ℕ) (c : Conn) (errno : Code)
    (rs : List Round) :
    (∀ reader len, Punctual (ioEffectiveDeadline d armed) (quicRead cr start d armed reader len c errno rs) ↔
      (reader = true → ioEffectiveDeadline d armed ≠ 0 → ∀ before r after q, rs = before ++ r :: after →
        GoesOn (readTurn cr start d armed len) (c, errno) before q →
        q.1.stream.rxLen ≤ q.1.stream.rxPos → q.1.closed = false → q.1.stream.rxFin = false →
        ioEffectiveDeadline d armed ≤ r.test →
        limit start < r.test ∨ (retransmit cr r.send q.1).1 = none ∧ r.sendErrno = .timedout)) ∧
    ∀ wantApp, Punctual (ioEffectiveDeadline d armed) (drive cr start armed wantApp c errno rs) ↔
      (ioEffectiveDeadline d armed ≠ 0 → ∀ before r after q, rs = before ++ r :: after →
        GoesOn (driveTurn cr start armed wantApp) (c, errno) before q → ioEffectiveDeadline d armed ≤ r.test →
        limit start ≤ r.test ∨ q.1.closed = true ∧ q.2 = .timedout ∨
          q.1.closed = false ∧ ¬ (wantApp = true ∧ q.1.appReady = true) ∧
            (retransmit cr r.send q.1).1 = none ∧ r.sendErrno = .timedout) := by
  refine ⟨fun reader len => ?_, fun wantApp => ?_⟩
  · cases reader with
    | false => simp [quicRead, Punctual]
    | true =>
      rw [quicRead, if_pos rfl, punctual_turns_iff fun p r q h => readTurn_attempt h]
      simp only [readTurn_stops_iff, true_implies]
  · rw [drive, punctual_turns_iff fun p r q h => driveTurn_attempt h]
    simp only [driveTurn_stops_iff]

/-- A round in which nothing is sent and nothing comes. -/
def Round.quiet (test recv : ℕ) : Round where
  test := test
  send := .plain
  sendErrno := .ok
  slice := test
  recv := ⟨false, recv, .error .timedout⟩
  ingest := .plain
  ingestErrno := .ok

/-- A deadline after one second, and a connection on which nothing comes.  `quic_read` waits until then, and calls
`s_io_recvfrom` again; `s_quic_drive` does not even look at the deadline. -/
theorem deadline_ignored :
    (¬ ∀ (cr : Crypto) (start d : ℕ) (armed : Option ℕ) (len : ℕ) (c : Conn) (errno : Code) (rs : List Round),
      (start :: rs.flatMap Round.times).Pairwise (· ≤ ·) →
      Punctual (ioEffectiveDeadline d armed) (quicRead cr start d armed true len c errno rs)) ∧
    ¬ ∀ (cr : Crypto) (start d : ℕ) (armed : Option ℕ) (c : Conn) (errno : Code) (rs : List Round),
      (start :: rs.flatMap Round.times).Pairwise (· ≤ ·) →
      Punctual (ioEffectiveDeadline d armed) (drive cr start armed true c errno rs) := by
  constructor
  · intro h
    have hp := h .plain 0 1000000000 none 1 { Conn.new with appReady := true } .ok
      [.quiet 0 0, .quiet 1000000000 1000000000] (by decide)
    have hatt := (hp (by decide) [_] _ [] 1000000000 rfl rfl (by decide)).1
    exact absurd hatt (by decide)
  · intro h
    have hp := h .plain 0 1000000000 none Conn.new .ok [.quiet 0 0, .quiet 1000000000 1000000000] (by decide)
    have hatt := (hp (by decide) [_] _ [] 1000000000 rfl rfl (by decide)).1
    exact absurd hatt (by decide)

end Suspenders.Quic
