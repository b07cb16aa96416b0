import Suspenders.Quic.Write

/-!
# Two endpoints

Two connections exchange datagrams over a network that may lose, repeat, reorder and invent them.  The protection of
the packets is taken for what it is there for: a packet that one side opens holds frames that the other side has sent
under the same number.  Frames are sent again by `s_quic_retransmit`, writes fail in their midst, and the handshake
goes on at the same time; still, what the calls of `quic_read` on one side return is, in all, a beginning of what the
calls of `quic_write` on the other side have put on the stream (`read_of_written`).
-/

namespace Suspenders.Quic

open Lib Prog

variable {cr : Crypto} {env : Env} {c c' : Conn} {S d ack : Bytes} {level : Level} {off m : ℕ}

/-! ## What frames say -/

/-- `d` stands in `S` at the offset `off`. -/
def Stands (S : Bytes) (off : ℕ) (d : Bytes) : Prop := off + d.length ≤ S.length ∧ d = (S.drop off).take d.length

lemma Stands.append (h : Stands S off d) (x : Bytes) : Stands (S ++ x) off d := by
  refine ⟨?_, ?_⟩
  · have := h.1
    rw [List.length_append]
    omega
  · rw [List.drop_append_of_le_length (by have := h.1; omega), List.take_append_of_le_length]
    · exact h.2
    · have := h.1
      rw [List.length_drop]
      omega

lemma stands_end (S d : Bytes) : Stands (S ++ d) S.length d := by
  refine ⟨by rw [List.length_append], ?_⟩
  rw [List.drop_left, List.take_length]

/-- The STREAM frames of a text, up to the first frame that is malformed or unknown or closes the connection, have
bytes of `S` for stream 0. -/
def Says (S : Bytes) : ℕ → Bytes → Prop
  | 0, _ => True
  | _ + 1, [] => True
  | n + 1, t :: p => (t &&& 0xf8 = 0x08 → ∀ f ∈ streamFields t p, f.1 = 0 → Stands S f.2.1 f.2.2.1) ∧
      ∀ rest ∈ frameRest t p, Says S n rest

/-- All that is read of a text is of `S`. -/
def Speaks (S p : Bytes) : Prop := ∀ n, Says S n p

/-- The frames of a packet have bytes of `S`, however the packet is padded. -/
def Tells (S frames : Bytes) : Prop := ∀ pad, Speaks S (frames ++ List.replicate pad 0)

/-- Frames without bytes of the stream. -/
def Wordless (ack : Bytes) : Prop := ∀ S p, Speaks S p → Speaks S (ack ++ p)

lemma Says.append {n : ℕ} {p : Bytes} (h : Says S n p) (x : Bytes) : Says (S ++ x) n p := by
  induction n generalizing p with
  | zero => trivial
  | succ n ih =>
    cases p with
    | nil => trivial
    | cons t p => exact ⟨fun ht f hf hsid => (h.1 ht f hf hsid).append x, fun rest hrest => ih (h.2 rest hrest)⟩

lemma Tells.append {frames : Bytes} (h : Tells S frames) (x : Bytes) : Tells (S ++ x) frames :=
  fun pad n => (h pad n).append x

lemma speaks_nil (S : Bytes) : Speaks S [] := by
  intro n
  cases n <;> trivial

lemma speaks_cons {t : UInt8} {p : Bytes}
    (hstream : t &&& 0xf8 = 0x08 → ∀ f ∈ streamFields t p, f.1 = 0 → Stands S f.2.1 f.2.2.1)
    (hrest : ∀ rest ∈ frameRest t p, Speaks S rest) : Speaks S (t :: p) := by
  intro n
  cases n with
  | zero => trivial
  | succ n => exact ⟨hstream, fun rest h => hrest rest h n⟩

/-- A frame of another kind. -/
lemma speaks_cons_of_ne {t : UInt8} {p rest : Bytes} (ht : t &&& 0xf8 ≠ 0x08) (hrest : frameRest t p = some rest)
    (h : Speaks S rest) : Speaks S (t :: p) := by
  refine speaks_cons (fun h => absurd h ht) fun r hr => ?_
  rw [hrest] at hr
  exact Option.some.inj hr ▸ h

lemma wordless_nil : Wordless [] := fun _ _ h => h

/-- PADDING -/
lemma speaks_zeros (S : Bytes) (n : ℕ) : Speaks S (List.replicate n 0) := by
  induction n with
  | zero => exact speaks_nil S
  | succ n ih => exact speaks_cons_of_ne (by decide) (if_pos (.inl rfl)) ih

/-- Something is read where an integer was written, also if it was too large. -/
lemma getVarint_varint_isSome (v : ℕ) (rest : Bytes) : ∃ w, getVarint (varint v ++ rest) = some (w, rest) := by
  by_cases hv : v < 2 ^ 62
  · exact ⟨v, getVarint_varint hv rest⟩
  · have hbig : varint v = UInt8.ofNat (v >>> 56 ||| 0xc0) :: toBytes 7 v := by
      unfold varint
      rw [if_neg (by omega), if_neg (by omega), if_neg (by omega)]
    have hfirst (b : UInt8) : (b ||| 0xc0).toNat >>> 6 = 3 := by
      have h : ∀ b : Fin 256, (UInt8.ofNat b.val ||| 0xc0).toNat >>> 6 = 3 := by decide +kernel
      have hb := h ⟨b.toNat, b.toNat_lt⟩
      rwa [UInt8.ofNat_toNat] at hb
    have hor : UInt8.ofNat (v >>> 56 ||| 0xc0) = UInt8.ofNat (v >>> 56) ||| 0xc0 := by
      apply UInt8.toNat_inj.mp
      rw [UInt8.toNat_or, UInt8.toNat_ofNat', UInt8.toNat_ofNat', Nat.or_mod_two_pow (n := 8)]
      rfl
    have hdrop : (toBytes 7 v ++ rest).drop (1 <<< 3 - 1) = rest := List.drop_left' (length_toBytes 7 v)
    rw [hbig, hor, List.cons_append, getVarint, hfirst, hdrop]
    exact ⟨_, if_neg (by simp)⟩

/-- ACK -/
lemma wordless_encode {r : RxAck} {cap : ℕ} (h : r.encode cap = some ack) : Wordless ack := by
  intro S p hp
  unfold RxAck.encode at h
  split at h
  · cases h
    exact hp
  · simp only [putVarint, Option.bind_eq_bind, Option.bind_eq_some_iff, Option.ite_none_left_eq_some,
      Option.some.injEq] at h
    obtain ⟨_, ⟨-, rfl⟩, _, ⟨-, rfl⟩, _, ⟨-, rfl⟩, _, ⟨-, rfl⟩, rfl⟩ := h
    obtain ⟨largest, hlargest⟩ := getVarint_varint_isSome r.max (varint 0 ++ (varint 0 ++ (varint r.first ++ p)))
    obtain ⟨first, hfirst⟩ := getVarint_varint_isSome r.first p
    rw [List.cons_append]
    refine speaks_cons_of_ne (by decide) ?_ hp
    rw [frameRest, if_neg (by decide), if_pos (.inl rfl)]
    simp only [List.append_assoc, hlargest, getVarint_varint (v := 0) (by decide), hfirst, Option.bind_eq_bind,
      Option.bind_some]
    rfl

/-- CRYPTO -/
lemma wordless_cryptoFrame {msg : Bytes} (hmsg : msg.length < 2 ^ 62) : Wordless (cryptoFrame 0 msg) := by
  intro S p hp
  rw [cryptoFrame, List.cons_append]
  refine speaks_cons_of_ne (by decide) ?_ hp
  rw [frameRest, if_neg (by decide), if_neg (by decide), if_pos rfl]
  simp only [List.append_assoc, getVarint_varint (v := 0) (by decide), getVarint_varint hmsg, Option.bind_eq_bind,
    Option.bind_some, List.length_append, List.drop_left]
  exact if_neg (by omega)

lemma Wordless.tells (h : Wordless ack) (S : Bytes) : Tells S ack := fun pad => h S _ (speaks_zeros S pad)

lemma Wordless.append {frames : Bytes} (h : Wordless ack) (hframes : Wordless frames) : Wordless (ack ++ frames) := by
  intro S p hp
  rw [List.append_assoc]
  exact h S _ (hframes S p hp)

/-- HANDSHAKE_DONE -/
lemma Wordless.done (h : Wordless ack) : Wordless (0x1e :: ack) := fun S p hp =>
  speaks_cons_of_ne (by decide) (if_pos (.inr (.inr rfl))) (h S p hp)

/-- STREAM -/
lemma Wordless.tells_stream (h : Wordless ack) (hd : Stands S off d) (hoff : off + d.length < 2 ^ 62) :
    Tells S (ack ++ 0x0e :: (varint 0 ++ varint off ++ varint d.length ++ d)) := by
  intro pad
  rw [List.append_assoc, List.cons_append]
  have hfields : streamFields 0x0e (varint 0 ++ varint off ++ varint d.length ++ d ++ List.replicate pad 0) =
      some (0, off, d, List.replicate pad 0) := by
    simp only [streamFields, List.append_assoc, getVarint_varint (v := 0) (by decide),
      getVarint_varint (v := off) (by omega), getVarint_varint (v := d.length) (by omega), Option.bind_eq_bind,
      Option.bind_some, if_pos (by decide : (0x0e : UInt8) &&& 0x04 ≠ 0),
      if_pos (by decide : (0x0e : UInt8) &&& 0x02 ≠ 0),
      List.length_append, List.take_left, List.drop_left]
    exact if_neg (by omega)
  refine h S _ (speaks_cons (fun _ f hf _ => ?_) fun rest hrest => ?_)
  · rw [hfields] at hf
    exact Option.some.inj hf ▸ hd
  · have hrest' : frameRest 0x0e (varint 0 ++ varint off ++ varint d.length ++ d ++ List.replicate pad 0) =
        some (List.replicate pad 0) := by
      rw [frameRest, if_neg (by decide), if_neg (by decide), if_neg (by decide), if_pos (by decide), hfields]
      rfl
    rw [hrest'] at hrest
    exact Option.some.inj hrest ▸ speaks_zeros S pad

/-! ## Sending -/

/-- An endpoint whose calls of `quic_write` have put `S` on the stream: all frames that it has sent, and those that it
may send again, have bytes of `S`. -/
structure Writes (S : Bytes) (c : Conn) : Prop where
  sent : ∀ p ∈ c.hist.sent, Tells S p.frames
  flight : ∀ level, Tells S (c.flight level).frames
  offset : c.txOff = S.length
  bidiLocal : c.peerBidiLocal < 2 ^ 62
  bidiRemote : c.peerBidiRemote < 2 ^ 62

/-- What `Writes` looks at. -/
def Conn.writing (c : Conn) : List Packet × (Level → Flight) × ℕ × ℕ × ℕ :=
  (c.hist.sent, c.flight, c.txOff, c.peerBidiLocal, c.peerBidiRemote)

lemma Writes.congr (hc : Writes S c) (h : c'.writing = c.writing) : Writes S c' := by
  simp only [Conn.writing, Prod.mk.injEq] at h
  obtain ⟨hsent, hflight, hoff, hlocal, hremote⟩ := h
  exact ⟨hsent ▸ hc.sent, hflight ▸ hc.flight, hoff ▸ hc.offset, hlocal ▸ hc.bidiLocal, hremote ▸ hc.bidiRemote⟩

lemma writes_modify {f : Conn → Conn} (h : ∀ c, (f c).writing = c.writing) : Keeps (Writes S) (modify f) :=
  Keeps.modify fun c hc => hc.congr (h c)

lemma writes_modify_bind {β : Type} {f : Conn → Conn} {g : Unit → Prog Conn β} (hf : ∀ c, (f c).writing = c.writing)
    (hg : Keeps (Writes S) (g ())) : Keeps (Writes S) (modify f >>= g) :=
  (writes_modify hf).bind fun _ => hg

lemma getVarint_lt {p rest : Bytes} {v : ℕ} (h : getVarint p = some (v, rest)) : v < 2 ^ 62 := by
  cases p with
  | nil => cases h
  | cons b bs =>
    rw [getVarint, Option.ite_none_left_eq_some] at h
    obtain ⟨-, h⟩ := h
    cases h
    have hsize := (varint_bytes b).2
    exact readBytes_varint b (by rw [List.length_take]; omega)

/-- The limits of a peer are what an integer can say. -/
lemma takeParams_lt {peerCid origDcid : Bytes} {fromServer : Bool} (n : ℕ) (p : Bytes) (l : Limits)
    (hl : l.bidiLocal < 2 ^ 62 ∧ l.bidiRemote < 2 ^ 62) :
    (takeParams peerCid origDcid fromServer n p l).2.bidiLocal < 2 ^ 62 ∧
      (takeParams peerCid origDcid fromServer n p l).2.bidiRemote < 2 ^ 62 := by
  induction n generalizing p l with
  | zero => exact hl
  | succ n ih =>
    unfold takeParams
    split
    · exact hl
    · split
      · exact hl
      · split
        · exact hl
        · split
          · exact hl
          · split
            · exact hl
            next l' hparam =>
              refine ih _ l' ?_
              unfold takeParam at hparam
              split at hparam
              · simp only [Option.bind_eq_bind, Option.bind_eq_some_iff, Option.some.injEq] at hparam
                obtain ⟨v, hv, rfl⟩ := hparam
                have hlt := getVarint_lt hv
                split_ifs
                · exact ⟨hlt, hl.2⟩
                · exact ⟨hl.1, hlt⟩
                · exact hl
              · split at hparam
                · rw [Option.ite_none_left_eq_some] at hparam
                  exact Option.some.inj hparam.2 ▸ hl
                · split at hparam
                  · rw [Option.ite_none_left_eq_some] at hparam
                    exact Option.some.inj hparam.2 ▸ hl
                  · exact Option.some.inj hparam ▸ hl

lemma writes_takeParams (fromServer : Bool) (p : Bytes) : Keeps (Writes S) (Conn.takeParams fromServer p) := by
  refine Keeps.get_bind fun c hc => Keeps.bind (Keeps.modify fun c' hc' => ?_) fun _ =>
    Keeps.require.bind fun _ => writes_modify fun _ => rfl
  obtain ⟨hlocal, hremote⟩ := @takeParams_lt c.peerCid c.origDcid fromServer p.length p
    ⟨c.peerBidiLocal, c.peerBidiRemote⟩ ⟨hc.bidiLocal, hc.bidiRemote⟩
  exact ⟨hc'.sent, hc'.flight, hc'.offset, hlocal, hremote⟩

lemma writes_deriveHandshake : Keeps (Writes S) (deriveHandshake cr) := by
  unfold deriveHandshake deriveShared
  refine (Keeps.get_bind fun c _ => Keeps.ite (fun _ => Keeps.pure ()) fun _ => ?_).bind fun _ => ?_
  · exact (Keeps.ofOption _).bind fun _ => writes_modify fun _ => rfl
  · exact writes_modify_bind (fun _ => rfl) (writes_modify fun _ => rfl)

lemma writes_deriveApp : Keeps (Writes S) (deriveApp cr) := writes_modify fun _ => rfl

/-- The slot of a level is changed. -/
lemma tells_update {flight : Level → Flight} {f : Flight} (hflight : ∀ l, Tells S (flight l).frames)
    (hf : Tells S f.frames) (l : Level) : Tells S (Function.update flight level f l).frames := by
  by_cases hl : l = level
  · rwa [hl, Function.update_self]
  · rw [Function.update_of_ne hl]
    exact hflight l

/-- A packet is recorded. -/
lemma Writes.record {pn now : ℕ} {frames datagram : Bytes} {retransmit : Bool} (hc : Writes S c) (h : Tells S frames) :
    Writes S (c.record level pn frames retransmit now datagram) := by
  refine ⟨fun p hp => ?_, fun l => ?_, hc.offset, hc.bidiLocal, hc.bidiRemote⟩
  · obtain hp | hp := List.mem_append.1 hp
    · exact hc.sent p hp
    · rw [List.mem_singleton.1 hp]
      exact h
  · simp only [Conn.record]
    split
    · exact tells_update hc.flight h l
    · exact hc.flight l

lemma writes_sendFrames {frames : Bytes} {retransmit : Bool} {padTo : ℕ} (h : Tells S frames) :
    Keeps (Writes S) (sendFrames cr env level frames retransmit padTo) :=
  sendFrames_spec (fun _ hc => hc) (fun _ _ _ _ hc => hc.congr rfl) fun _ _ _ _ hc => hc.record h

lemma writes_encodeAck {cap : ℕ} :
    Spec (Writes S) (encodeAck level cap) (fun ack c => Writes S c ∧ Wordless ack) (Writes S) := by
  unfold encodeAck
  refine Spec.get_bind_of fun c _ => Spec.ofOption_bind (fun ack henc => ?_) fun _ hc => hc
  refine Spec.modify_bind (T := Writes S) (fun c hc => ?_) (Spec.pure fun c hc => ⟨hc, wordless_encode henc⟩)
  split
  · exact hc
  · refine hc.congr ?_
    unfold Conn.ackEncoded
    split <;> rfl

lemma writes_sendCrypto {msg : Bytes} {padTo : ℕ} : Keeps (Writes S) (sendCrypto cr env level msg 0 padTo) := by
  unfold sendCrypto
  refine writes_encodeAck.bind fun ack => ?_
  refine Spec.bind (Q := fun _ c => Writes S c ∧ Wordless ack ∧ msg.length < 2 ^ 62)
    (Spec.require (fun c hlen hc => ⟨hc.1, hc.2, by omega⟩) fun _ _ hc => hc.1) fun _ => ?_
  rintro c ⟨hc, hack, hmsg⟩
  exact writes_sendFrames ((hack.append (wordless_cryptoFrame hmsg)).tells S) c hc

lemma writes_serverFlight : Keeps (Writes S) (serverFlight cr env) := by
  unfold serverFlight
  refine (Keeps.ofOption _).bind fun cert => writes_modify_bind (fun _ => rfl) <| Keeps.get_bind fun c _ => ?_
  refine writes_modify_bind (fun _ => rfl) <| writes_deriveHandshake.bind fun _ => ?_
  refine writes_sendCrypto.bind fun _ => writes_modify_bind (fun _ => rfl) <| Keeps.get_bind fun c₁ _ => ?_
  refine (Keeps.ofOption _).bind fun cv => writes_modify_bind (fun _ => rfl) <| Keeps.get_bind fun c₂ _ => ?_
  refine Keeps.require.bind fun _ => writes_modify_bind (fun _ => rfl) <| ?_
  exact writes_deriveApp.bind fun _ => writes_sendCrypto

lemma writes_clientFinish : Keeps (Writes S) (clientFinish cr env) := by
  unfold clientFinish
  refine Keeps.get_bind fun c _ => Keeps.ite (fun _ => Keeps.pure ()) fun _ => Keeps.require.bind fun _ => ?_
  refine writes_modify_bind (fun _ => rfl) <| writes_sendCrypto.bind fun _ => writes_modify fun _ => rfl

lemma writes_clientMsg (level : Level) (msg : Bytes) (len : ℕ) : Keeps (Writes S) (clientMsg cr env level msg len) := by
  unfold clientMsg
  refine Keeps.ite (fun _ => ?serverHello) fun _ => Keeps.ite (fun _ => ?ee) fun _ =>
    Keeps.ite (fun _ => ?cert) fun _ => Keeps.ite (fun _ => ?verify) fun _ =>
    Keeps.ite (fun _ => ?finished) fun _ => Keeps.fail
  case serverHello =>
    refine Keeps.bind ?_ fun _ => writes_modify_bind (fun _ => rfl) <| writes_deriveHandshake
    exact (Keeps.ofOption _).bind fun exts => (Keeps.ofOption _).bind fun ks => writes_modify fun _ => rfl
  case ee =>
    refine Keeps.bind ?_ fun _ => writes_modify fun _ => rfl
    exact (Keeps.ofOption _).bind fun params => writes_takeParams true params
  case cert => exact (Keeps.ofOption _).bind fun der => writes_modify fun _ => rfl
  case verify => exact Keeps.get_bind fun c _ => Keeps.require.bind fun _ => writes_modify fun _ => rfl
  case finished =>
    refine Keeps.get_bind fun c _ => Keeps.require.bind fun _ => writes_modify_bind (fun _ => rfl) <| ?_
    exact writes_deriveApp.bind fun _ => writes_clientFinish

lemma writes_serverMsg (level : Level) (msg : Bytes) (len : ℕ) : Keeps (Writes S) (serverMsg cr env level msg len) := by
  unfold serverMsg
  refine Keeps.ite (fun _ => ?hello) fun _ => Keeps.ite (fun _ => ?finished) fun _ => Keeps.fail
  case hello =>
    refine Keeps.get_bind fun c _ => Keeps.ite (fun _ => Keeps.pure ()) fun _ => Keeps.bind ?_ fun _ =>
      writes_modify_bind (fun _ => rfl) <| writes_serverFlight
    refine (Keeps.ofOption _).bind fun exts => (Keeps.ofOption _).bind fun ks => ?_
    refine writes_modify_bind (fun _ => rfl) <| ?_
    exact (Keeps.ofOption _).bind fun params => writes_takeParams false params
  case finished => exact Keeps.get_bind fun c _ => Keeps.require.bind fun _ => writes_modify fun _ => rfl

lemma writes_handles (level : Level) : Handles cr env level (Writes S) (Writes S) where
  fails _ hc := hc
  crypto _ _ _ hc := hc.congr rfl
  closed _ hc := hc.congr rfl
  applyAck c largest first hc := by
    refine ⟨hc.sent, tells_update hc.flight ?_, hc.offset, hc.bidiLocal, hc.bidiRemote⟩
    unfold Flight.applyAck
    split
    · exact hc.flight level
    · exact hc.flight level
  msg msg len _ := by
    refine Keeps.require.bind fun _ => Keeps.get_bind fun c _ => ?_
    exact Keeps.ite (fun _ => writes_serverMsg level msg len) fun _ => writes_clientMsg level msg len

lemma writes_ingest (buf : Bytes) : Keeps (Writes S) (ingest cr env buf) := by
  refine ingest_spec (fun _ hc => hc) (fun c pkt hc => ?_) (fun c pkt hd pn plain _ hc => ?_) buf
  · refine hc.congr ?_
    unfold Conn.learn
    split <;> rfl
  · exact ((writes_handles hd.level).acceptPacket (fun _ _ _ _ _ _ hc => hc.congr rfl) pn plain).mono
      (fun _ h => h ▸ hc) (fun _ _ hc => hc) fun _ hc => hc

lemma writes_retransmit : Keeps (Writes S) (retransmit cr env) := by
  have hlevel (level : Level) : Keeps (Writes S) (retransmitLevel cr env level) := by
    unfold retransmitLevel
    refine Keeps.get_bind fun c hc => Keeps.ite (fun _ => Keeps.pure ()) fun _ => Keeps.ite (fun _ => ?_) fun _ =>
      Keeps.ite (fun _ => Keeps.pure ()) fun _ => writes_sendFrames (hc.flight level)
    exact Keeps.modify fun c hc =>
      ⟨hc.sent, tells_update hc.flight (hc.flight level), hc.offset, hc.bidiLocal, hc.bidiRemote⟩
  exact (hlevel .initial).bind fun _ => (hlevel .handshake).bind fun _ => hlevel .app

lemma writes_handshakeDone : Keeps (Writes S) (handshakeDone cr env) := by
  refine writes_encodeAck.bind fun ack c hc => ?_
  exact writes_sendFrames (hc.2.done.tells S) c hc.1

/-- A chunk of `quic_write` is on the stream, or it is refused and nothing of it is. -/
lemma writes_writeChunk (d : Bytes) : Spec (Writes S) (writeChunk cr env d) (fun _ => Writes (S ++ d)) (Writes S) := by
  unfold writeChunk
  refine Spec.get_bind_of fun c hc => Spec.bind (Q := fun _ c' => Writes S c' ∧ c.txOff + d.length < 2 ^ 62)
    (Spec.require (fun c' hlimit hc' => ⟨hc', ?_⟩) fun _ _ hc' => hc') fun _ => ?_
  · have hlocal := hc.bidiLocal
    have hremote := hc.bidiRemote
    split at hlimit
    · omega
    · omega
  rintro c' ⟨hc', hoff⟩
  refine (writes_encodeAck.bind fun ack => ?_) c' hc'
  rintro c' ⟨hc', hack⟩
  -- the packet is recorded before the offset moves
  refine Spec.bind (Q := fun _ c' => Writes (S ++ d) { c' with txOff := c'.txOff + d.length })
    (sendFrames_spec (fun _ hc' => hc') (fun _ _ _ _ hc' => hc'.congr rfl) fun c' pn now datagram hc' => ?_)
    (fun _ => Spec.modify fun c' hc' => hc') c' hc'
  have hstands : Stands (S ++ d) c.txOff d := by
    rw [hc.offset]
    exact stands_end S d
  have hmore : Writes (S ++ d) { c' with txOff := c'.txOff + d.length } := by
    refine ⟨fun p hp => (hc'.sent p hp).append d, fun level => (hc'.flight level).append d, ?_,
      hc'.bidiLocal, hc'.bidiRemote⟩
    change c'.txOff + d.length = (S ++ d).length
    rw [hc'.offset, List.length_append]
  exact (hmore.record (hack.tells_stream hstands hoff)).congr rfl

lemma writes_writeChunks (ds : List Bytes) :
    Spec (Writes S) (writeChunks cr env ds) (fun _ c => ∃ k, Writes (S ++ (ds.take k).flatten) c)
      fun c => ∃ k, Writes (S ++ (ds.take k).flatten) c := by
  induction ds generalizing S with
  | nil => exact Spec.pure fun c hc => ⟨0, by simpa using hc⟩
  | cons d ds ih =>
    have hfail (c : Conn) (hc : Writes S c) : ∃ k, Writes (S ++ ((d :: ds).take k).flatten) c := ⟨0, by simpa using hc⟩
    have hgo (c : Conn) (hc : ∃ k, Writes (S ++ d ++ (ds.take k).flatten) c) :
        ∃ k, Writes (S ++ ((d :: ds).take k).flatten) c := by
      obtain ⟨k, hc⟩ := hc
      exact ⟨k + 1, by simpa using hc⟩
    exact ((writes_writeChunk d).mono (fun _ hc => hc) (fun _ _ hc => hc) hfail).bind fun _ =>
      (@ih (S ++ d)).mono (fun _ hc => hc) (fun _ c hc => hgo c hc) hgo

/-- How far `tx_off` moves says how much of the buffer is on the stream, whether `quic_write` fails or not. -/
lemma writes_quicWrite (hc : Writes S c) (data : Bytes) :
    Writes (S ++ data.take ((quicWrite cr env data c).2.txOff - c.txOff)) (quicWrite cr env data c).2 := by
  have hwrite : Spec (Writes S) (quicWrite cr env data) (fun _ c => ∃ k, Writes (S ++ data.take (1000 * k)) c)
      fun c => ∃ k, Writes (S ++ data.take (1000 * k)) c := by
    have hchunks := @writes_writeChunks cr env S (chunks data)
    simp only [flatten_take_chunks] at hchunks
    unfold quicWrite
    refine Spec.get_bind_of fun c _ => (Keeps.require.spec fun c hc => ⟨0, ?_⟩).bind fun _ => hchunks
    simpa using hc
  obtain ⟨k, hk⟩ := hwrite.apply (fun _ hc => hc) hc
  have hoff := hk.offset
  rw [hc.offset]
  rw [List.length_append, List.length_take] at hoff
  rwa [show (quicWrite cr env data c).2.txOff - S.length = min (1000 * k) data.length by omega, ← List.take_take,
    List.take_length]

/-! ## Receiving -/

/-- What a connection has received is a beginning of `S`, of which `m` bytes have been read. -/
def Takes (S : Bytes) (m : ℕ) (c : Conn) : Prop := Receives S c.stream ∧ c.stream.rxPos = m

lemma takes_congr (hc : Takes S m c) (h : c'.stream = c.stream) : Takes S m c' := by
  unfold Takes
  rwa [h]

lemma takes_shakes : Shakes (Takes S m) where
  numbers _ _ _ _ _ hc := hc
  offset _ _ hc := hc
  watches _ _ hq hc := takes_congr hc (congrArg Watched.stream hq)
  flags _ _ _ hc := hc
  ackEncoded c level hc := by
    unfold Conn.ackEncoded
    split
    · exact hc
    · exact hc
  record _ _ _ _ _ _ _ hc := hc
  flight _ _ hc := hc

/-- A STREAM frame with bytes of `S`. -/
lemma takes_streamFrame {t : UInt8} {p : Bytes} (h : ∀ f ∈ streamFields t p, f.1 = 0 → Stands S f.2.1 f.2.2.1) :
    Keeps (Takes S m) (streamFrame env level t p) := by
  unfold streamFrame
  refine Spec.ofOption_bind (fun (sid, offset, data, rest) hf => ?_) fun _ hc => hc
  refine Keeps.ite (fun hsid => ?_) fun _ => Keeps.pure rest
  refine Keeps.bind (Spec.of_snd fun c hc => ?_) fun _ => Keeps.pure rest
  obtain ⟨hin, hdata⟩ := h _ hf hsid
  have hkeeps := streamInput_keeps S env.heap offset data.length (t &&& 0x01 ≠ 0) hin
  have hgrows := streamInput_grows env.heap offset data (t &&& 0x01 ≠ 0) 0 m
  rw [← hdata] at hkeeps
  exact ⟨hkeeps.apply hc.1, (hgrows.apply ⟨Nat.zero_le _, hc.2⟩).2⟩

lemma takes_acceptPacket {pn : ℕ} {plain : Bytes} (h : Speaks S plain) :
    Keeps (Takes S m) (acceptPacket cr env level pn plain) := by
  have hsteady : Steady cr env (Takes S m) := takes_shakes.steady fun _ _ _ _ hc => hc
  have hframes : Keeps (Takes S m) (parseFrames cr env level plain.length plain) := by
    refine parseFrames_spec (R := Says S) (fun n t p hR => ?_) (fun n t p rest hR hrest => hR.2 rest hrest) _ _ (h _)
    exact (hsteady.handles (fun _ _ _ hc => hc) level).frame t p fun ht => takes_streamFrame (hR.1 ht)
  unfold acceptPacket
  refine Keeps.get_bind fun c _ => Keeps.bind (Keeps.modify fun c hc => hc) fun _ => ?_
  exact Keeps.ite (fun _ => Keeps.pure ()) fun _ => hframes.bind fun _ => Keeps.modify fun c hc => hc

lemma Takes.append (hc : Takes S m c) (x : Bytes) : Takes (S ++ x) m c := by
  refine ⟨⟨fun buf hbuf => ?_, hc.1.empty, hc.1.pos, hc.1.inside⟩, hc.2⟩
  obtain ⟨hlen, hle, hmax, htake⟩ := hc.1.buffer buf hbuf
  refine ⟨hlen, hle, hmax, ?_⟩
  have hS := congrArg List.length htake
  rw [List.length_take, List.length_take] at hS
  rw [htake, List.take_append_of_le_length (by omega)]

/-- What is received is there. -/
lemma Takes.le_length (hc : Takes S m c) : m ≤ c.stream.rxLen ∧ c.stream.rxLen ≤ S.length := by
  refine ⟨hc.2 ▸ hc.1.pos, ?_⟩
  have hlen := hc.1.length_received
  rw [hc.1.received, List.length_take] at hlen
  omega

lemma Takes.read (hc : Takes S m c) (len : ℕ) :
    Takes S (c.read len).stream.rxPos (c.read len) ∧
      S.take (c.read len).stream.rxPos = S.take m ++ (c.stream.read len).1 := by
  obtain ⟨hread, hs⟩ := hc.1.read len
  refine ⟨⟨hs, rfl⟩, ?_⟩
  change S.take (c.stream.rxPos + min len (c.stream.rxLen - c.stream.rxPos)) = _
  rw [hread, List.take_add, hc.2]

/-! ## Both sides -/

/-- A packet with this number and these frames is one of `ps`. -/
def Genuine (ps : List Packet) (level : Level) (pn : ℕ) (plain : Bytes) : Prop :=
  ∃ p ∈ ps, p.level = level ∧ p.pn = pn ∧ plain = p.frames ++ List.replicate (plain.length - p.frames.length) 0

instance (ps : List Packet) (level : Level) (pn : ℕ) (plain : Bytes) : Decidable (Genuine ps level pn plain) :=
  inferInstanceAs (Decidable (∃ p ∈ ps, _))

/-- The packets of a datagram that are opened are packets of `ps`. -/
def Authentic (cr : Crypto) (ps : List Packet) (c : Conn) : Event → Prop
  | .datagram env buf => EachPacket cr env (fun _ => Genuine ps) buf.length buf c
  | _ => True

instance (ps : List Packet) (e : Event) : Decidable (Authentic cr ps c e) :=
  match e with
  | .datagram env buf => inferInstanceAs (Decidable (EachPacket cr env _ buf.length buf c))
  | .retransmit _ | .done _ | .write _ _ | .read _ => isTrue trivial

/-- What a call of `quic_write` puts on the stream. -/
def Event.wrote (c c' : Conn) : Event → Bytes
  | .write _ data => data.take (c'.txOff - c.txOff)
  | _ => []

/-- What a call of `quic_read` returns. -/
def Event.got (c : Conn) : Event → Bytes
  | .read len => (c.stream.read len).1
  | _ => []

/-- Two endpoints. -/
structure Dialogue where
  /-- The connections, unless they are freed. -/
  conn : Bool → Option Conn
  /-- The packets that each side has sent. -/
  sent : Bool → List Packet
  /-- What the calls of `quic_write` have put on the stream. -/
  tx : Bool → Bytes
  /-- What the calls of `quic_read` have returned. -/
  out : Bool → Bytes

namespace Dialogue

/-- Nothing has been written or read. -/
def start (c₀ : Bool → Conn) : Dialogue where
  conn x := some (c₀ x)
  sent x := (c₀ x).hist.sent
  tx _ := []
  out _ := []

/-- An event takes the connection `c` of side `x` to `c'`, which is then freed or not. -/
def after (s : Dialogue) (x : Bool) (e : Event) (c c' : Conn) (o : Option Conn) : Dialogue where
  conn := Function.update s.conn x o
  sent := Function.update s.sent x c'.hist.sent
  tx := Function.update s.tx x (s.tx x ++ e.wrote c c')
  out := Function.update s.out x (s.out x ++ e.got c)

/-- An event at one of the sides. -/
inductive Step (cr : Crypto) : Dialogue → Bool × Event → Dialogue → Prop
  | event {s : Dialogue} {x : Bool} {e : Event} {c : Conn} {o : Option Conn} :
      s.conn x = some c → Quic.Step cr (some c) e o → Authentic cr (s.sent !x) c e →
      Step cr s (x, e) (s.after x e c (e.run cr c).2 o)

/-- What the frames that were sent say, and what each side has read. -/
structure Inv (s : Dialogue) : Prop where
  sent : ∀ x, ∀ p ∈ s.sent x, Tells (s.tx x) p.frames
  writes : ∀ x c, s.conn x = some c → Writes (s.tx x) c
  takes : ∀ x c, s.conn x = some c → ∃ m, Takes (s.tx !x) m c ∧ s.out x = (s.tx !x).take m
  out : ∀ x, s.out x <+: s.tx !x

end Dialogue

lemma writes_run (hc : Writes S c) (e : Event) : Writes (S ++ e.wrote c (e.run cr c).2) (e.run cr c).2 := by
  have hsame (h : Writes S (e.run cr c).2) (hwrote : e.wrote c (e.run cr c).2 = []) :
      Writes (S ++ e.wrote c (e.run cr c).2) (e.run cr c).2 := by
    rwa [hwrote, List.append_nil]
  cases e with
  | datagram env buf => exact hsame ((writes_ingest buf).apply hc) rfl
  | retransmit env => exact hsame (writes_retransmit.apply hc) rfl
  | done env => exact hsame (writes_handshakeDone.apply hc) rfl
  | write env data => exact writes_quicWrite hc data
  | read len => exact hsame (hc.congr rfl) rfl

lemma takes_run {ps : List Packet} (hps : ∀ p ∈ ps, Tells S p.frames) (hc : Takes S m c) {e : Event}
    (he : Authentic cr ps c e) : ∃ m', Takes S m' (e.run cr c).2 ∧ S.take m' = S.take m ++ e.got c := by
  have hsame (h : Takes S m (e.run cr c).2) (hgot : e.got c = []) :
      ∃ m', Takes S m' (e.run cr c).2 ∧ S.take m' = S.take m ++ e.got c :=
    ⟨m, h, by rw [hgot, List.append_nil]⟩
  cases e with
  | datagram env buf =>
    refine hsame (ingestLoop_keeps takes_shakes.watches (fun c level pn plain hc hq => ?_) _ _ c hc he) rfl
    obtain ⟨p, hp, -, -, hplain⟩ := hq
    refine (takes_acceptPacket ?_).apply hc
    rw [hplain]
    exact hps p hp _
  | retransmit env => exact hsame (takes_shakes.retransmit.apply hc) rfl
  | done env => exact hsame (takes_shakes.handshakeDone.apply hc) rfl
  | write env data => exact hsame ((takes_shakes.quicWrite data).apply hc) rfl
  | read len => exact ⟨_, hc.read len⟩

namespace Dialogue

lemma inv_start {c₀ : Bool → Conn} (h₀ : ∀ x, Start cr (c₀ x)) : (start c₀).Inv := by
  have hnew : Writes [] Conn.new :=
    ⟨fun p hp => absurd hp List.not_mem_nil, fun _ => wordless_nil.tells [], rfl, (by decide : flow < 2 ^ 62),
      (by decide : flow < 2 ^ 62)⟩
  have hwrites (x : Bool) : Writes [] (c₀ x) := by
    cases h₀ x with
    | @client env c c₁ h =>
      have hdial : Spec (fun _ => True) (dial cr env) (fun _ => Writes []) (Writes []) := by
        unfold dial
        refine Spec.modify_bind (fun _ _ => hnew.congr rfl) ?_
        refine writes_modify_bind (fun _ => rfl) <| writes_modify_bind (fun _ => rfl) <| Keeps.get_bind fun c _ => ?_
        exact writes_modify_bind (fun _ => rfl) writes_sendCrypto
      exact hdial.of_some trivial h
    | @server buf c h =>
      unfold acceptStart at h
      split at h
      · cases h
      · rw [← Option.some.inj h]
        exact hnew.congr rfl
  have htakes (x : Bool) : Takes [] 0 (c₀ x) :=
    takes_shakes.start (fun _ _ _ _ => ⟨receives_init [], rfl⟩) (h₀ x)
  exact ⟨fun x => (hwrites x).sent, fun x c hc => Option.some.inj hc ▸ hwrites x,
    fun x c hc => ⟨0, Option.some.inj hc ▸ htakes x, rfl⟩, fun _ => List.prefix_refl _⟩

/-- The side of an event. -/
lemma after_self (s : Dialogue) (x : Bool) (e : Event) (c c' : Conn) (o : Option Conn) :
    (s.after x e c c' o).conn x = o ∧ (s.after x e c c' o).sent x = c'.hist.sent ∧
      (s.after x e c c' o).tx x = s.tx x ++ e.wrote c c' ∧ (s.after x e c c' o).out x = s.out x ++ e.got c :=
  ⟨Function.update_self .., Function.update_self .., Function.update_self .., Function.update_self ..⟩

/-- The other side. -/
lemma after_not (s : Dialogue) (x : Bool) (e : Event) (c c' : Conn) (o : Option Conn) :
    (s.after x e c c' o).conn (!x) = s.conn (!x) ∧ (s.after x e c c' o).sent (!x) = s.sent (!x) ∧
      (s.after x e c c' o).tx (!x) = s.tx (!x) ∧ (s.after x e c c' o).out (!x) = s.out (!x) := by
  have hne : (!x) ≠ x := Bool.not_ne_self x
  exact ⟨Function.update_of_ne hne .., Function.update_of_ne hne .., Function.update_of_ne hne ..,
    Function.update_of_ne hne ..⟩

lemma inv_step {s s' : Dialogue} {a : Bool × Event} (hs : s.Inv) (h : Step cr s a s') : s'.Inv := by
  cases h with
  | @event x e c o hconn hstep hauth =>
  obtain ⟨_, hc, hrun⟩ := step_run hstep
  obtain rfl := Option.some.inj hc
  have hwrites : Writes (s.tx x ++ e.wrote c (e.run cr c).2) (e.run cr c).2 := writes_run (hs.writes x c hconn) e
  obtain ⟨m, htakes, hout⟩ := hs.takes x c hconn
  obtain ⟨m', htakes', hgot⟩ := takes_run (hs.sent !x) htakes hauth
  obtain ⟨hconn₁, hsent₁, htx₁, hout₁⟩ := s.after_self x e c (e.run cr c).2 o
  obtain ⟨hconn₂, hsent₂, htx₂, hout₂⟩ := s.after_not x e c (e.run cr c).2 o
  -- each part is about the side of the event, or about the other one
  have hsides {P : Bool → Prop} (hx : P x) (hnx : P (!x)) (y : Bool) : P y := by
    obtain rfl | rfl := Bool.eq_or_eq_not y x
    · exact hx
    · exact hnx
  refine ⟨hsides ?_ ?_, hsides ?_ ?_, hsides ?_ ?_, hsides ?_ ?_⟩
  · rw [htx₁, hsent₁]
    exact hwrites.sent
  · rw [htx₂, hsent₂]
    exact hs.sent !x
  · rw [htx₁, hconn₁]
    exact fun c' hc' => hrun c' hc' ▸ hwrites
  · rw [htx₂, hconn₂]
    exact hs.writes !x
  · rw [htx₂, hout₁, hconn₁]
    exact fun c' hc' => ⟨m', hrun c' hc' ▸ htakes', by rw [hgot, hout]⟩
  · rw [Bool.not_not, htx₁, hout₂, hconn₂]
    intro c' hc'
    obtain ⟨k, hk, hout'⟩ := hs.takes (!x) c' hc'
    rw [Bool.not_not] at hk hout'
    refine ⟨k, hk.append _, ?_⟩
    rw [List.take_append_of_le_length (hk.le_length.1.trans hk.le_length.2), hout']
  · rw [htx₂, hout₁, hout, ← hgot]
    exact List.take_prefix _ _
  · rw [Bool.not_not, htx₁, hout₂]
    have hprefix := hs.out !x
    rw [Bool.not_not] at hprefix
    exact hprefix.trans (List.prefix_append _ _)

end Dialogue

/-- In every run of two endpoints, of which each opens only packets that the other has sent, whatever is lost, repeated,
reordered or freed: what the calls of `quic_read` have returned on one side is the beginning of what the calls of
`quic_write` have put on the stream on the other, and so is what has been received and not yet been read. -/
theorem read_of_written {c₀ : Bool → Conn} (h₀ : ∀ x, Start cr (c₀ x)) {s : Dialogue}
    (h : Reachable (Dialogue.Step cr) (.start c₀) s) (x : Bool) :
    s.out x <+: s.tx !x ∧ ∀ c, s.conn x = some c → s.out x = (s.tx !x).take c.stream.rxPos ∧
      c.stream.received = (s.tx !x).take c.stream.rxLen ∧ c.stream.rxLen ≤ (s.tx !x).length := by
  have hs : s.Inv := Reachable.invariant (Dialogue.inv_start h₀) (fun _ _ _ hs hstep => Dialogue.inv_step hs hstep) h
  refine ⟨hs.out x, fun c hc => ?_⟩
  obtain ⟨m, htakes, hout⟩ := hs.takes x c hc
  exact ⟨htakes.2 ▸ hout, htakes.1.received, htakes.le_length.2⟩

/-- A run goes on with an event. -/
lemma Dialogue.reach {s₀ s : Dialogue} (h : Reachable (Step cr) s₀ s) {x : Bool} (hconn : s.conn x = some c) {e : Event}
    {o : Option Conn} (hstep : Quic.Step cr (some c) e o) {t : Conn} {l : List Packet} (hl : s.sent (!x) = l)
    (hauth : decide (Authentic cr l c e) = true) (ht : (e.run cr c).2 = t) :
    ∃ s', Reachable (Step cr) s₀ s' ∧ s'.conn x = o ∧ s'.sent x = t.hist.sent ∧
      s'.out x = s.out x ++ e.got c ∧ s'.conn (!x) = s.conn (!x) ∧ s'.sent (!x) = s.sent (!x) ∧
      s'.out (!x) = s.out (!x) := by
  obtain ⟨hconn₁, hsent₁, -, hout₁⟩ := s.after_self x e c (e.run cr c).2 o
  obtain ⟨hconn₂, hsent₂, -, hout₂⟩ := s.after_not x e c (e.run cr c).2 o
  obtain ⟨as, has⟩ := h
  subst hl
  exact ⟨_, ⟨_, has.snoc (.event hconn hstep (of_decide_eq_true hauth))⟩, hconn₁, ht ▸ hsent₁, hout₁, hconn₂,
    hsent₂, hout₂⟩

/-- A client that has called. -/
def plainCall : Conn := (dial .plain .plain .new).2

/-- The server after the first packet of this client. -/
def plainAnswer : Conn := (ingest .plain .plain (plainCall.datagrams.getLastD []) plainServer).2

/-- The client after the first flight of the server. -/
def plainMeet : Conn := (ingest .plain .plain (plainAnswer.datagrams.getD 0 []) plainCall).2

/-- The client after the handshake. -/
def plainJoined : Conn := (ingest .plain .plain (plainAnswer.datagrams.getD 1 []) plainMeet).2

/-- The server after the handshake. -/
def plainOpen : Conn := (ingest .plain .plain (plainJoined.datagrams.getLastD []) plainAnswer).2

/-- The client has written three bytes. -/
def plainSay : Conn := (quicWrite .plain .plain [1, 2, 3] plainJoined).2

/-- The server has received them. -/
def plainHear : Conn := (ingest .plain .plain (plainSay.datagrams.getLastD []) plainOpen).2

/-- The client and the server. -/
def plainSides : Bool → Conn
  | false => plainCall
  | true => plainServer

theorem read_of_written_plain : ∃ s : Dialogue, (∀ x, Start .plain (plainSides x)) ∧
    Reachable (Dialogue.Step .plain) (.start plainSides) s ∧ s.out true = [1, 2] ∧ s.out true <+: s.tx false := by
  have hstart (x : Bool) : Start .plain (plainSides x) := by
    cases x with
    | false =>
      have hdial : (dial .plain .plain .new).1 = some () := by decide +kernel
      exact @Start.client _ .plain _ .new (Prod.ext hdial (by rw [plainSides, plainCall]))
    | true => exact start_plainServer
  -- the handshake
  obtain ⟨hsome₁, hauth₁⟩ : (ingest .plain .plain (plainCall.datagrams.getLastD []) plainServer).1.isSome = true ∧
      decide (Authentic .plain plainCall.hist.sent plainServer
        (.datagram .plain (plainCall.datagrams.getLastD []))) = true := by
    decide +kernel
  obtain ⟨hready₂, hopen₂, hsome₂, hauth₂⟩ : plainCall.appReady = false ∧ plainCall.closed = false ∧
      (ingest .plain .plain (plainAnswer.datagrams.getD 0 []) plainCall).1.isSome = true ∧
      decide (Authentic .plain plainAnswer.hist.sent plainCall
        (.datagram .plain (plainAnswer.datagrams.getD 0 []))) = true := by
    decide +kernel
  obtain ⟨hready₃, hopen₃, hsome₃, hauth₃⟩ : plainMeet.appReady = false ∧ plainMeet.closed = false ∧
      (ingest .plain .plain (plainAnswer.datagrams.getD 1 []) plainMeet).1.isSome = true ∧
      decide (Authentic .plain plainAnswer.hist.sent plainMeet
        (.datagram .plain (plainAnswer.datagrams.getD 1 []))) = true := by
    decide +kernel
  obtain ⟨hready₄, hopen₄, hsome₄, hauth₄⟩ : plainAnswer.appReady = false ∧ plainAnswer.closed = false ∧
      (ingest .plain .plain (plainJoined.datagrams.getLastD []) plainAnswer).1.isSome = true ∧
      decide (Authentic .plain plainJoined.hist.sent plainAnswer
        (.datagram .plain (plainJoined.datagrams.getLastD []))) = true := by
    decide +kernel
  -- the bytes
  obtain ⟨hready₆, hopen₆, hfin₆, hpos₆, hauth₆, hpos₇, hread⟩ : plainOpen.appReady = true ∧ plainOpen.closed = false ∧
      plainOpen.stream.rxFin = false ∧ plainOpen.stream.rxLen ≤ plainOpen.stream.rxPos ∧
      decide (Authentic .plain plainSay.hist.sent plainOpen
        (.datagram .plain (plainSay.datagrams.getLastD []))) = true ∧
      plainHear.stream.rxPos < plainHear.stream.rxLen ∧ (plainHear.stream.read 2).1 = [1, 2] := by
    decide +kernel
  have hsent : (Dialogue.start plainSides).sent (!true) = plainCall.hist.sent := by
    simp only [Dialogue.start, Bool.not_true, plainSides]
  obtain ⟨s₁, h₁, hx₁, hsent₁, hout₁, hy₁, -⟩ := Dialogue.reach (o := some plainAnswer) (t := plainAnswer)
    (s := .start plainSides) (x := true) (e := .datagram .plain (plainCall.datagrams.getLastD [])) ⟨[], .nil _⟩ rfl
    (step_handshake rfl rfl hsome₁) hsent hauth₁ rfl
  obtain ⟨s₂, h₂, hx₂, -, -, hy₂, hsent₂, hout₂⟩ := Dialogue.reach (o := some plainMeet) (t := plainMeet) (x := false)
    (e := .datagram .plain (plainAnswer.datagrams.getD 0 [])) h₁ hy₁ (step_handshake hready₂ hopen₂ hsome₂)
    hsent₁ hauth₂ rfl
  obtain ⟨s₃, h₃, hx₃, hsent₃, -, hy₃, -, hout₃⟩ := Dialogue.reach (o := some plainJoined) (t := plainJoined)
    (x := false) (e := .datagram .plain (plainAnswer.datagrams.getD 1 [])) h₂ hx₂ (step_handshake hready₃ hopen₃ hsome₃)
    (hsent₂.trans hsent₁) hauth₃ rfl
  obtain ⟨s₄, h₄, hx₄, -, hout₄, hy₄, -⟩ := Dialogue.reach (o := some plainOpen) (t := plainOpen) (x := true)
    (e := .datagram .plain (plainJoined.datagrams.getLastD [])) h₃ (hy₃.trans (hy₂.trans hx₁))
    (step_handshake hready₄ hopen₄ hsome₄) hsent₃ hauth₄ rfl
  obtain ⟨s₅, h₅, -, hsent₅, -, hy₅, -, hout₅⟩ := Dialogue.reach (o := some plainSay) (t := plainSay) (x := false)
    (e := .write .plain [1, 2, 3]) h₄ (hy₄.trans hx₃) .write rfl rfl rfl
  obtain ⟨s₆, h₆, hx₆, -, hout₆, -⟩ := Dialogue.reach (o := some plainHear) (t := plainHear) (x := true)
    (e := .datagram .plain (plainSay.datagrams.getLastD [])) h₅ (hy₅.trans hx₄) (.read hready₆ hopen₆ hfin₆ hpos₆)
    hsent₅ hauth₆ rfl
  obtain ⟨s₇, h₇, -, -, hout₇, -⟩ := Dialogue.reach (x := true) (e := .read 2) h₆ hx₆ (.copy hpos₇) rfl rfl rfl
  refine ⟨s₇, hstart, h₇, ?_, (read_of_written hstart h₇ true).1⟩
  have hnil : s₆.out true = [] := by
    rw [Bool.not_false] at hout₂ hout₃ hout₅
    rw [hout₆, hout₅, hout₄, hout₃, hout₂, hout₁]
    rfl
  rw [hout₇, hnil, List.nil_append, ← hread, Event.got]

end Suspenders.Quic
