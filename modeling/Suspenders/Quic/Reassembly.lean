import Suspenders.Lib.Framing
import Suspenders.Quic.Bounds

/-!
# Handshake messages and CRYPTO frames

The handshake messages of a level are a stream that is cut into CRYPTO frames anyhow.  `s_quic_crypto_input` appends
what comes in order to a buffer, ignores what it has already, rejects the rest, and gives the messages that are
complete to `s_quic_on_msg`.

`cryptoInputLog` is `cryptoInput` with a log of the calls of `s_quic_on_msg`.  `crypto_reassembly` says that the log
depends on the stream only: it is the list of its messages.
-/

namespace Suspenders.Quic

open Lib Prog

/-! ## Messages -/

lemma be24_append {p : Bytes} (h : 4 ≤ p.length) (q : Bytes) : be24 ((p ++ q).drop 1) = be24 (p.drop 1) := by
  have hbyte (i : ℕ) (hi : i < 3) : byteAt ((p ++ q).drop 1) i = byteAt (p.drop 1) i := by
    rw [byteAt_drop, byteAt_drop]
    exact byteAt_append q (by omega)
  rw [be24, be24, hbyte 0 (by decide), hbyte 1 (by decide), hbyte 2 (by decide)]

/-- A handshake message is a byte for its type, three bytes for the length of its body, and the body. -/
def handshakeFraming : Framing UInt8 where
  size s := if s.length < 4 then none else some (4 + be24 (s.drop 1))
  pos s n h := by
    rw [Option.ite_none_left_eq_some] at h
    have heq := Option.some.inj h.2
    omega
  stable s t n h := by
    rw [Option.ite_none_left_eq_some] at h ⊢
    refine ⟨by rw [List.length_append]; omega, ?_⟩
    rw [be24_append (by omega)]
    exact h.2
  own s n h hle := by
    rw [Option.ite_none_left_eq_some] at h ⊢
    have heq := Option.some.inj h.2
    have hlen : (s.take n).length = n := by rw [List.length_take, Nat.min_eq_left hle]
    refine ⟨by omega, ?_⟩
    rw [← be24_append (p := s.take n) (by omega) (s.drop n), List.take_append_drop]
    exact h.2

/-- The handshake messages of a stream. -/
def messages (s : Bytes) : List Bytes := handshakeFraming.complete s

/-! ## The calls -/

/-- A call of `s_quic_on_msg`, and whether it succeeded. -/
structure Call where
  msg : Bytes
  len : ℕ
  ok : Bool
  deriving DecidableEq

/-- The successful call for a message. -/
def Call.of (m : Bytes) : Call := ⟨m, m.length, true⟩

section

variable (cr : Crypto) (env : Env) (level : Level)

/-- `s_quic_on_msg` with a log -/
def onMsgLog (msg : Bytes) (len : ℕ) : Prog (Conn × List Call) Unit := fun p =>
  ((onMsg cr env level msg len p.1).1, (onMsg cr env level msg len p.1).2,
    p.2 ++ [⟨msg.take len, len, (onMsg cr env level msg len p.1).1.isSome⟩])

/-- `msgLoop` with a log. -/
def msgLoopLog : ℕ → Prog (Conn × List Call) Unit
  | 0 => pure ()
  | n + 1 => do
    let p ← get
    let m := (p.1.rxCrypto level).drop (p.1.rxCryptoParsed level)
    let len := 4 + be24 (m.drop 1)
    if m.length < 4 then pure ()
    else if m.length < len then pure ()
    else do
      onMsgLog cr env level (m ++ List.replicate (8192 - (p.1.rxCrypto level).length) 0 ++ env.beyond) len
      modify fun p => ({ p.1 with
        rxCryptoParsed := Function.update p.1.rxCryptoParsed level (p.1.rxCryptoParsed level + len) }, p.2)
      msgLoopLog n

/-- `cryptoInput` with a log. -/
def cryptoInputLog (offset : ℕ) (data : Bytes) : Prog (Conn × List Call) Unit :=
  if level = .app then pure ()
  else do
    require (offset ≤ 8192 ∧ data.length ≤ 8192 - offset)
    let p ← get
    if offset = (p.1.rxCrypto level).length then do
      modify fun p => ({ p.1 with rxCrypto := Function.update p.1.rxCrypto level (p.1.rxCrypto level ++ data) }, p.2)
      msgLoopLog cr env level (offset + data.length)
    else if offset + data.length ≤ (p.1.rxCrypto level).length then pure ()
    else fail

end

variable {cr : Crypto} {env : Env} {level : Level} {c : Conn} {l : List Call}

/-- The log is only a log. -/
lemma msgLoopLog_erase (n : ℕ) (c : Conn) (l : List Call) : (msgLoopLog cr env level n (c, l)).1 =
    (msgLoop cr env level n c).1 ∧ (msgLoopLog cr env level n (c, l)).2.1 = (msgLoop cr env level n c).2 := by
  induction n generalizing c l with
  | zero => exact ⟨rfl, rfl⟩
  | succ n ih =>
    rw [msgLoopLog, msgLoop, Prog.get_bind, Prog.get_bind]
    dsimp only
    split_ifs
    · exact ⟨rfl, rfl⟩
    · exact ⟨rfl, rfl⟩
    · generalize (c.rxCrypto level).drop (c.rxCryptoParsed level) ++
        List.replicate (8192 - (c.rxCrypto level).length) 0 ++ env.beyond = msg
      generalize 4 + be24 (((c.rxCrypto level).drop (c.rxCryptoParsed level)).drop 1) = len
      rcases hmsg : onMsg cr env level msg len c with ⟨- | u, c'⟩
      · have hlog : onMsgLog cr env level msg len (c, l) = (none, c', l ++ [⟨msg.take len, len, false⟩]) := by
          simp [onMsgLog, hmsg]
        rw [Prog.bind_of_none hmsg, Prog.bind_of_none hlog]
        exact ⟨rfl, rfl⟩
      · have hlog : onMsgLog cr env level msg len (c, l) = (some u, c', l ++ [⟨msg.take len, len, true⟩]) := by
          simp [onMsgLog, hmsg]
        rw [Prog.bind_of_eq hmsg, Prog.bind_of_eq hlog]
        exact ih _ _

/-- `cryptoInputLog` does what `cryptoInput` does. -/
lemma cryptoInputLog_erase (offset : ℕ) (data : Bytes) (c : Conn) (l : List Call) :
    (cryptoInputLog cr env level offset data (c, l)).1 = (cryptoInput cr env level offset data c).1 ∧
      (cryptoInputLog cr env level offset data (c, l)).2.1 = (cryptoInput cr env level offset data c).2 := by
  unfold cryptoInputLog cryptoInput
  by_cases happ : level = .app
  · simp only [if_pos happ]
    exact ⟨rfl, rfl⟩
  simp only [if_neg happ]
  by_cases hroom : offset ≤ 8192 ∧ data.length ≤ 8192 - offset
  swap
  · rw [Prog.require_of_not hroom, Prog.require_of_not hroom]
    exact ⟨rfl, rfl⟩
  rw [Prog.require_bind hroom, Prog.require_bind hroom, Prog.get_bind, Prog.get_bind]
  dsimp only
  split_ifs
  · exact msgLoopLog_erase _ _ _
  · exact ⟨rfl, rfl⟩
  · exact ⟨rfl, rfl⟩

/-! ## One frame -/

/-- The bytes of a level that were received and are not in a message that was handled. -/
def Conn.unparsed (c : Conn) (level : Level) : Bytes := (c.rxCrypto level).drop (c.rxCryptoParsed level)

/-- The run of the loop from `c` and `l` to `c'` and `l'`, which returns `o`: the log was not shortened; and if all
calls have succeeded, the messages that were complete are handled, and the rest is kept. -/
structure Handled (level : Level) (c : Conn) (l : List Call) (o : Option Unit) (c' : Conn) (l' : List Call) : Prop where
  log : l <+: l'
  returns : (∀ x ∈ l', x.ok = true) → o = some ()
  buffer : (∀ x ∈ l', x.ok = true) → c'.rxCrypto level = c.rxCrypto level
  parsed : (∀ x ∈ l', x.ok = true) → c.rxCryptoParsed level ≤ (c.rxCrypto level).length →
    c'.rxCryptoParsed level ≤ (c.rxCrypto level).length
  rest : (∀ x ∈ l', x.ok = true) → c'.unparsed level = handshakeFraming.rest (c.unparsed level)
  calls : (∀ x ∈ l', x.ok = true) → l' = l ++ (messages (c.unparsed level)).map Call.of

/-- No message is complete. -/
lemma handled_none (h : handshakeFraming.front (c.unparsed level) = none) (l : List Call) :
    Handled level c l (some ()) c l := by
  obtain ⟨hcomplete, hrest⟩ := Framing.split_of_none h
  refine ⟨List.prefix_refl _, fun _ => rfl, fun _ => rfl, fun _ => id, fun _ => hrest.symm, fun _ => ?_⟩
  rw [messages, hcomplete]
  exact (List.append_nil l).symm

/-- A call has failed. -/
lemma handled_failed {x : Call} (hx : x.ok = false) (l : List Call) (c c' : Conn) :
    Handled level c l none c' (l ++ [x]) := by
  have hno : ¬ ∀ y ∈ l ++ [x], y.ok = true := by
    intro hall
    have hok := hall x (by simp)
    rw [hx] at hok
    cases hok
  exact ⟨List.prefix_append _ _, (absurd · hno), (absurd · hno), (absurd · hno), (absurd · hno), (absurd · hno)⟩

/-- A message was handled, and the loop goes on. -/
lemma Handled.cons {n : ℕ} {c₁ c' : Conn} {o : Option Unit} {l' : List Call}
    (hfront : handshakeFraming.front (c.unparsed level) = some n) (hbuffer : c₁.rxCrypto level = c.rxCrypto level)
    (hparsed : c₁.rxCryptoParsed level = c.rxCryptoParsed level + n)
    (h : Handled level c₁ (l ++ [Call.of ((c.unparsed level).take n)]) o c' l') : Handled level c l o c' l' := by
  have hunparsed : c₁.unparsed level = (c.unparsed level).drop n := by
    rw [Conn.unparsed, Conn.unparsed, hbuffer, hparsed, List.drop_drop]
  obtain ⟨hcomplete, hrest⟩ := Framing.split_of_front hfront
  refine ⟨(List.prefix_append _ _).trans h.log, h.returns, fun hall => (h.buffer hall).trans hbuffer, ?_, ?_, ?_⟩
  · intro hall hle
    have hroom : n ≤ (c.unparsed level).length := (handshakeFraming.front_eq_some.1 hfront).2
    rw [Conn.unparsed, List.length_drop] at hroom
    rw [← hbuffer] at hle hroom ⊢
    exact h.parsed hall (by omega)
  · intro hall
    rw [h.rest hall, hunparsed, hrest]
  · intro hall
    rw [h.calls hall, hunparsed, messages, messages, hcomplete, List.map_cons, List.append_assoc]
    rfl

lemma front_unparsed {m : Bytes} (h : ¬ m.length < 4) (hlen : ¬ m.length < 4 + be24 (m.drop 1)) :
    handshakeFraming.front m = some (4 + be24 (m.drop 1)) :=
  handshakeFraming.front_eq_some.2 ⟨if_neg h, Nat.not_lt.1 hlen⟩

lemma front_short {m : Bytes} (h : m.length < 4) : handshakeFraming.front m = none := by
  simp [Framing.front, handshakeFraming, h]

lemma front_incomplete {m : Bytes} (hlen : m.length < 4 + be24 (m.drop 1)) : handshakeFraming.front m = none := by
  rw [Option.eq_none_iff_forall_ne_some]
  intro n hn
  obtain ⟨hsize, hle⟩ := handshakeFraming.front_eq_some.1 hn
  have heq := Option.some.inj (Option.ite_none_left_eq_some.1 hsize).2
  omega

/-- The loop, from any state. -/
lemma handled_msgLoopLog {n : ℕ} (hn : (c.unparsed level).length ≤ n) (l : List Call) :
    Handled level c l (msgLoopLog cr env level n (c, l)).1 (msgLoopLog cr env level n (c, l)).2.1
      (msgLoopLog cr env level n (c, l)).2.2 := by
  induction n generalizing c l with
  | zero => exact handled_none (front_short (by omega)) l
  | succ n ih =>
    by_cases hshort : (c.unparsed level).length < 4
    · have hstop : msgLoopLog cr env level (n + 1) (c, l) = (some (), c, l) := by
        rw [msgLoopLog, Prog.get_bind]
        exact congrFun (if_pos hshort) _
      rw [hstop]
      exact handled_none (front_short hshort) l
    by_cases hbody : (c.unparsed level).length < 4 + be24 ((c.unparsed level).drop 1)
    · have hstop : msgLoopLog cr env level (n + 1) (c, l) = (some (), c, l) := by
        rw [msgLoopLog, Prog.get_bind]
        exact (congrFun (if_neg hshort) _).trans (congrFun (if_pos hbody) _)
      rw [hstop]
      exact handled_none (front_incomplete hbody) l
    have hfront := front_unparsed hshort hbody
    obtain ⟨len, hlen⟩ : ∃ len, 4 + be24 ((c.unparsed level).drop 1) = len := ⟨_, rfl⟩
    obtain ⟨msg, hmsg⟩ : ∃ msg, c.unparsed level ++ List.replicate (8192 - (c.rxCrypto level).length) 0 ++ env.beyond =
      msg := ⟨_, rfl⟩
    have hloop : msgLoopLog cr env level (n + 1) (c, l) =
        (onMsgLog cr env level msg len >>= fun _ => do
          modify fun p => ({ p.1 with
            rxCryptoParsed := Function.update p.1.rxCryptoParsed level (p.1.rxCryptoParsed level + len) }, p.2)
          msgLoopLog cr env level n) (c, l) := by
      rw [← hlen, ← hmsg, msgLoopLog, Prog.get_bind]
      exact (congrFun (if_neg hshort) _).trans (congrFun (if_neg hbody) _)
    rw [hlen] at hfront hbody
    have htake : msg.take len = (c.unparsed level).take len := by
      rw [← hmsg, List.append_assoc, List.take_append_of_le_length (Nat.not_lt.1 hbody)]
    rcases hcall : onMsg cr env level msg len c with ⟨- | u, c₁⟩
    · have hlog : onMsgLog cr env level msg len (c, l) = (none, c₁, l ++ [⟨msg.take len, len, false⟩]) := by
        simp [onMsgLog, hcall]
      rw [hloop, Prog.bind_of_none hlog]
      exact handled_failed rfl l c c₁
    · have hlog : onMsgLog cr env level msg len (c, l) = (some u, c₁, l ++ [⟨msg.take len, len, true⟩]) := by
        simp [onMsgLog, hcall]
      have hofTake : (⟨msg.take len, len, true⟩ : Call) = Call.of ((c.unparsed level).take len) := by
        rw [Call.of, htake, List.length_take, Nat.min_eq_left (Nat.not_lt.1 hbody)]
      obtain ⟨hbuffer, hparsed⟩ := buffers_onMsg hcall
      rw [hloop, Prog.bind_of_eq hlog, Prog.modify_bind, hofTake]
      have hrest : Handled level { c₁ with
          rxCryptoParsed := Function.update c₁.rxCryptoParsed level (c₁.rxCryptoParsed level + len) } _ _ _ _ :=
        ih ?_ (l ++ [Call.of ((c.unparsed level).take len)])
      · refine Handled.cons hfront ?_ ?_ hrest
        · exact congrFun hbuffer level
        · simp [hparsed]
      · rw [Conn.unparsed]
        simp only [Function.update_self, hbuffer, hparsed]
        rw [← List.drop_drop]
        have hdrop := Framing.length_drop_lt hfront
        rw [Conn.unparsed] at hdrop hn
        omega

/-- The bytes `s` of a level were received, and its messages handled. -/
structure Received (level : Level) (s : Bytes) (p : Conn × List Call) : Prop where
  buffer : p.1.rxCrypto level = s
  parsed : p.1.rxCryptoParsed level ≤ s.length
  rest : p.1.unparsed level = handshakeFraming.rest s
  calls : p.2 = (messages s).map Call.of

/-- A frame with the next bytes. -/
lemma Received.next {s : Bytes} {p : Conn × List Call} (h : Received level s p) (hlevel : level ≠ .app) {data : Bytes}
    (hroom : s.length + data.length ≤ 8192) :
    p.2 <+: (cryptoInputLog cr env level s.length data p).2.2 ∧
      ((∀ x ∈ (cryptoInputLog cr env level s.length data p).2.2, x.ok = true) →
        (cryptoInputLog cr env level s.length data p).1 = some () ∧
        Received level (s ++ data) (cryptoInputLog cr env level s.length data p).2) := by
  obtain ⟨c, l⟩ := p
  have hbuffer : c.rxCrypto level = s := h.buffer
  have hparsed : c.rxCryptoParsed level ≤ s.length := h.parsed
  obtain ⟨c₁, hc₁⟩ : ∃ c₁, { c with rxCrypto := Function.update c.rxCrypto level (c.rxCrypto level ++ data) } = c₁ :=
    ⟨_, rfl⟩
  have hrun : cryptoInputLog cr env level s.length data (c, l) =
      msgLoopLog cr env level (s.length + data.length) (c₁, l) := by
    rw [cryptoInputLog, if_neg hlevel, Prog.require_bind (by omega), Prog.get_bind, if_pos (by rw [hbuffer]), ← hc₁]
    rfl
  have hbuffer₁ : c₁.rxCrypto level = s ++ data := by simp [← hc₁, hbuffer]
  have hparsed₁ : c₁.rxCryptoParsed = c.rxCryptoParsed := by rw [← hc₁]
  have hunparsed : c₁.unparsed level = handshakeFraming.rest s ++ data := by
    rw [Conn.unparsed, hbuffer₁, hparsed₁, List.drop_append_of_le_length hparsed, ← h.rest, Conn.unparsed, hbuffer]
  have hfuel : (c₁.unparsed level).length ≤ s.length + data.length := by
    rw [Conn.unparsed, hbuffer₁, List.length_drop, List.length_append]
    omega
  have hhandled := @handled_msgLoopLog cr env level c₁ _ hfuel l
  rw [hrun]
  refine ⟨hhandled.log, fun hall => ⟨hhandled.returns hall, ?_, ?_, ?_, ?_⟩⟩
  · exact (hhandled.buffer hall).trans hbuffer₁
  · rw [← hbuffer₁]
    refine hhandled.parsed hall ?_
    rw [hbuffer₁, hparsed₁, List.length_append]
    omega
  · rw [hhandled.rest hall, hunparsed]
    exact (handshakeFraming.complete_append s data).2.symm
  · rw [hhandled.calls hall, hunparsed, show l = (messages s).map Call.of from h.calls, ← List.map_append]
    exact congrArg (List.map Call.of) (handshakeFraming.complete_append s data).1.symm

/-- A frame with bytes that were received before. -/
lemma Received.again {s : Bytes} {p : Conn × List Call} (h : Received level s p) (hlevel : level ≠ .app)
    (hs : s.length ≤ 8192) {offset : ℕ} {data : Bytes} (hlt : offset < s.length)
    (hle : offset + data.length ≤ s.length) : cryptoInputLog cr env level offset data p = (some (), p) := by
  rw [cryptoInputLog, if_neg hlevel, Prog.require_bind (by omega), Prog.get_bind, h.buffer, if_neg (by omega),
    if_pos hle]
  rfl

/-- A frame that would leave a gap. -/
lemma cryptoInputLog_gap (hlevel : level ≠ .app) {offset : ℕ} (hgap : (c.rxCrypto level).length < offset)
    (data : Bytes) : cryptoInputLog cr env level offset data (c, l) = (none, c, l) := by
  rw [cryptoInputLog, if_neg hlevel]
  by_cases hroom : offset ≤ 8192 ∧ data.length ≤ 8192 - offset
  · rw [Prog.require_bind hroom, Prog.get_bind, if_neg (by dsimp only; omega), if_neg (by dsimp only; omega)]
    rfl
  · rw [Prog.require_of_not hroom]
    rfl

/-! ## Frames in order, and again -/

/-- What arrives at a connection. -/
inductive Arrival
  /-- A CRYPTO frame of the level, and whether it was accepted. -/
  | frame (env : Env) (offset : ℕ) (data : Bytes) (accepted : Bool)
  /-- Anything else. -/
  | other

/-- The connection gets CRYPTO frames of a level, and does other things that leave the buffer of the level alone. -/
inductive Arrives (cr : Crypto) (level : Level) : Conn × List Call → Arrival → Conn × List Call → Prop
  | frame (p : Conn × List Call) (env : Env) (offset : ℕ) (data : Bytes) :
      Arrives cr level p
        (.frame env offset data (cryptoInputLog cr env level offset data p).1.isSome)
        (cryptoInputLog cr env level offset data p).2
  | other {c c' : Conn} {l : List Call} :
      c'.rxCrypto level = c.rxCrypto level → c'.rxCryptoParsed level = c.rxCryptoParsed level →
      Arrives cr level (c, l) .other (c', l)

/-- The frames cut the stream `s` from position `n` on into pieces, in order; between them, pieces from before may come
again. -/
def Pieces (s : Bytes) : ℕ → List Arrival → Prop
  | n, [] => n = s.length
  | n, .other :: as => Pieces s n as
  | n, .frame _ offset data _ :: as => data = (s.drop offset).take data.length ∧
      (offset = n ∧ n + data.length ≤ s.length ∧ Pieces s (n + data.length) as ∨
        offset + data.length ≤ n ∧ Pieces s n as)

/-- The frame was accepted, if it is one. -/
def Arrival.Accepted : Arrival → Prop
  | frame _ _ _ accepted => accepted = true
  | other => True

/-- A frame does not shorten the log. -/
lemma log_cryptoInputLog (offset : ℕ) (data : Bytes) (p : Conn × List Call) :
    p.2 <+: (cryptoInputLog cr env level offset data p).2.2 := by
  obtain ⟨c, l⟩ := p
  unfold cryptoInputLog
  by_cases happ : level = .app
  · rw [if_pos happ]
    exact List.prefix_refl _
  rw [if_neg happ]
  by_cases hroom : offset ≤ 8192 ∧ data.length ≤ 8192 - offset
  swap
  · rw [Prog.require_of_not hroom]
    exact List.prefix_refl _
  rw [Prog.require_bind hroom, Prog.get_bind]
  split_ifs with hnext
  · refine (handled_msgLoopLog ?_ l).log
    rw [Conn.unparsed, List.length_drop]
    simp only [Function.update_self, List.length_append, hnext]
    omega
  · exact List.prefix_refl _
  · exact List.prefix_refl _

/-- The log is never shortened. -/
lemma log_arrives {p q : Conn × List Call} {as : List Arrival} (h : Run (Arrives cr level) p as q) : p.2 <+: q.2 := by
  induction h with
  | nil => exact List.prefix_refl _
  | cons hstep _ ih =>
    cases hstep with
    | frame => exact (log_cryptoInputLog _ _ _).trans ih
    | other => exact ih

/-- Whatever the pieces are, the calls are those for the messages of the stream. -/
lemma received_pieces {s : Bytes} (hlevel : level ≠ .app) (hs : s.length ≤ 8192) {p q : Conn × List Call}
    {as : List Arrival} {n : ℕ} (hn : n ≤ s.length) (hp : Received level (s.take n) p)
    (h : Run (Arrives cr level) p as q) (hpieces : Pieces s n as) (hok : ∀ x ∈ q.2, x.ok = true) :
    (∀ a ∈ as, a.Accepted) ∧ Received level s q := by
  induction h generalizing n with
  | nil p =>
    rw [show n = s.length from hpieces, List.take_length] at hp
    exact ⟨by simp, hp⟩
  | @cons p a p₁ as q hstep hrun ih =>
    have hlen : (s.take n).length = n := by rw [List.length_take, Nat.min_eq_left hn]
    have hok₁ : ∀ x ∈ p₁.2, x.ok = true := fun x hx => hok x ((log_arrives hrun).subset hx)
    have hcons {m : ℕ} (hm : m ≤ s.length) (hacc : a.Accepted) (hrec : Received level (s.take m) p₁)
        (hrest : Pieces s m as) : (∀ b ∈ a :: as, b.Accepted) ∧ Received level s q := by
      obtain ⟨hall, hq⟩ := ih hm hrec hrest hok
      exact ⟨by simpa using ⟨hacc, hall⟩, hq⟩
    cases hstep with
    | @other c c' l hbuffer hparsed =>
      refine hcons hn trivial ⟨?_, ?_, ?_, hp.calls⟩ hpieces
      · exact hbuffer.trans hp.buffer
      · exact hparsed.symm ▸ hp.parsed
      · rw [Conn.unparsed, hbuffer, hparsed]
        exact hp.rest
    | frame _ env offset data =>
      obtain ⟨hdata, hpiece⟩ := hpieces
      by_cases hnext : offset = n
      · -- the next bytes, or nothing at all
        subst hnext
        have hmore : offset + data.length ≤ s.length ∧ Pieces s (offset + data.length) as := by
          rcases hpiece with ⟨-, hle, hrest⟩ | ⟨hle, hrest⟩
          · exact ⟨hle, hrest⟩
          · have hnil : data.length = 0 := by omega
            rw [hnil]
            exact ⟨hn, hrest⟩
        have htake : s.take offset ++ data = s.take (offset + data.length) := by
          rw [List.take_add, ← hdata]
        have hframe := @Received.next cr env level _ p hp hlevel data (by omega)
        rw [hlen, htake] at hframe
        obtain ⟨hacc, hrec⟩ := hframe.2 hok₁
        exact hcons hmore.1 (by simp [Arrival.Accepted, hacc]) hrec hmore.2
      · -- bytes from before
        rcases hpiece with ⟨heq, -⟩ | ⟨hle, hrest⟩
        · exact absurd heq hnext
        have hframe := @Received.again cr env level _ p hp hlevel (by omega) offset data (by omega) (by omega)
        rw [hframe] at hcons ⊢
        exact hcons hn rfl hp hrest

/-- No byte of a level was received yet. -/
def Untouched (level : Level) (c : Conn) : Prop := c.rxCrypto level = [] ∧ c.rxCryptoParsed level = 0

lemma Untouched.received (h : Untouched level c) : Received level [] (c, []) where
  buffer := h.1
  parsed := h.2.le
  rest := by
    rw [Conn.unparsed, h.1, List.drop_nil]
    rfl
  calls := rfl

/-- The handshake messages of a stream, and what the calls of `s_quic_on_msg` have to do with them.

The stream is its messages and a rest that is not a message.  However it is cut into frames, and whatever comes again:
if all calls succeed, all frames are accepted, and the calls are those for the messages, as if the stream had come in
one frame.  A frame that would leave a gap is rejected and changes nothing. -/
theorem crypto_reassembly (cr : Crypto) (level : Level) (hlevel : level ≠ .app) (s : Bytes) (hs : s.length ≤ 8192) :
    ((∀ m ∈ messages s, 4 ≤ m.length ∧ m.length = 4 + be24 (m.drop 1)) ∧
      ∃ rest, (messages s).flatten ++ rest = s ∧ (rest.length < 4 ∨ rest.length < 4 + be24 (rest.drop 1))) ∧
    (∀ c as q, Untouched level c → Run (Arrives cr level) (c, []) as q → Pieces s 0 as →
      (∀ x ∈ q.2, x.ok = true) → (∀ a ∈ as, a.Accepted) ∧ q.2 = (messages s).map Call.of) ∧
    (∀ env c o q, Untouched level c → cryptoInputLog cr env level 0 s (c, []) = (o, q) →
      (∀ x ∈ q.2, x.ok = true) → o = some () ∧ q.2 = (messages s).map Call.of) ∧
    ∀ env c l offset data, (c.rxCrypto level).length < offset →
      cryptoInputLog cr env level offset data (c, l) = (none, c, l) ∧
        cryptoInput cr env level offset data c = (none, c) := by
  refine ⟨⟨fun m hm => ?_, handshakeFraming.rest s, handshakeFraming.flatten_complete s, ?_⟩, ?_, ?_, ?_⟩
  · have hsize := handshakeFraming.size_of_mem_complete hm
    obtain ⟨hlong, heq⟩ := Option.ite_none_left_eq_some.1 hsize
    exact ⟨Nat.not_lt.1 hlong, (Option.some.inj heq).symm⟩
  · by_contra hno
    rw [not_or] at hno
    have hfront := front_unparsed hno.1 hno.2
    rw [handshakeFraming.front_rest] at hfront
    cases hfront
  · intro c as q hfresh hrun hpieces hok
    obtain ⟨hacc, hrec⟩ := received_pieces hlevel hs (Nat.zero_le _) hfresh.received hrun hpieces hok
    exact ⟨hacc, hrec.calls⟩
  · intro env c o q hfresh hrun hok
    have hframe := (@Received.next cr env level _ _ hfresh.received hlevel s (by simpa using hs)).2
    rw [List.length_nil, hrun] at hframe
    obtain ⟨hacc, hrec⟩ := hframe hok
    exact ⟨hacc, hrec.calls⟩
  · intro env c l offset data hgap
    have hlog := @cryptoInputLog_gap cr env level c l hlevel offset hgap data
    obtain ⟨hfst, hsnd⟩ := @cryptoInputLog_erase cr env level offset data c l
    rw [hlog] at hfst hsnd
    exact ⟨hlog, Prod.ext hfst.symm hsnd.symm⟩

/-- The ClientHello of `plainHello`. -/
def plainClientHello : Bytes := buildClientHello zeros zeros (List.replicate 8 0)

/-- A ClientHello in two frames, the first of which comes twice. -/
theorem crypto_reassembly_hello : ∃ as p, Run (Arrives .plain .initial) (plainServer, []) as p ∧ as.length = 3 ∧
    (∀ a ∈ as, a.Accepted) ∧ p.2 = (messages plainClientHello).map Call.of := by
  have hrun : Run (Arrives .plain .initial) (plainServer, []) _ _ :=
    .cons (.frame _ .plain 0 (plainClientHello.take 10)) <|
      .cons (.frame _ .plain 0 (plainClientHello.take 10)) <|
      .cons (.frame _ .plain 10 (plainClientHello.drop 10)) <| .nil _
  exact ⟨_, _, hrun, rfl, (crypto_reassembly .plain .initial (by decide) plainClientHello (by decide +kernel)).2.1
    plainServer _ _ ⟨rfl, rfl⟩ hrun
    ⟨by decide +kernel, .inl ⟨rfl, by decide +kernel, by decide +kernel, .inr ⟨by decide +kernel, by decide +kernel,
      .inl ⟨by decide +kernel, by decide +kernel, show _ = plainClientHello.length by decide +kernel⟩⟩⟩⟩
    (by decide +kernel)⟩

end Suspenders.Quic
