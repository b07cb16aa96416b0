import Suspenders.Quic.Open

/-!
# Flights that are delivered

One side sends a handshake message in the first packet of a level, and the other side receives this packet: its loop
over messages then finds the message in an empty buffer.
-/

namespace Suspenders.Quic

open Lib Prog

variable {cr : Crypto} {env : Env} {c c' : Conn} {level : Level} {msg pkt ack : Bytes}

/-! ## Sending -/

/-- The datagrams that a connection has sent. -/
def Conn.datagrams (c : Conn) : List Bytes := c.hist.sent.map fun p => p.datagram

/-- What is acknowledged in the first packet of a level: nothing, or the packet with number 0. -/
inductive FirstAck : RxAck → Bytes → Prop
  | none : FirstAck ⟨false, 0, 0⟩ []
  | first : FirstAck ⟨true, 0, 1⟩ [0x02, 0, 0, 0, 0]

/-- `c'` is `c` after a packet of a level was sent in the datagram `pkt`. -/
structure Sent (c : Conn) (level : Level) (pkt : Bytes) (c' : Conn) : Prop where
  rest : c' = { c with
    txPn := Function.update c.txPn level (c.txPn level + 1), flight := c'.flight, hist := c'.hist }
  heard : c'.hist.heard = c.hist.heard
  points : c'.hist.points = c.hist.points
  datagrams : c'.datagrams = c.datagrams ++ [pkt]

/-- What a message is sent in. -/
def flightText (ack msg : Bytes) (pad : ℕ) : Bytes := ack ++ (cryptoFrame 0 msg ++ List.replicate pad 0)

lemma FirstAck.length_le {r : RxAck} (h : FirstAck r ack) : ack.length ≤ 5 := by cases h <;> decide

lemma FirstAck.encode {r : RxAck} (h : FirstAck r ack) : r.encode 1400 = some ack := by cases h <;> rfl

lemma encodeAck_eq (hack : FirstAck (c.rxAck level) ack) : ∃ h : History,
    encodeAck level 1400 c = (some ack, { c with hist := h }) ∧ h.heard = c.hist.heard ∧ h.points = c.hist.points ∧
      h.sent = c.hist.sent := by
  have hhist : ∃ h : History, (if ack = [] then c else c.ackEncoded level) = { c with hist := h } ∧
      h.heard = c.hist.heard ∧ h.points = c.hist.points ∧ h.sent = c.hist.sent := by
    unfold Conn.ackEncoded
    split
    · exact ⟨c.hist, rfl, rfl, rfl, rfl⟩
    · split
      · exact ⟨_, rfl, rfl, rfl, rfl⟩
      · exact ⟨c.hist, rfl, rfl, rfl, rfl⟩
  obtain ⟨h, heq, hrest⟩ := hhist
  refine ⟨h, ?_, hrest⟩
  unfold encodeAck
  rw [Prog.get_bind, Prog.ofOption_bind hack.encode, Prog.modify_bind, heq]
  rfl

lemma sendFrames_eq {frames : Bytes} {retransmit : Bool} {padTo : ℕ} (hlevel : level ≠ .app)
    (hinstalled : (c.keys c.isServer level).installed = true) (hlen : frames.length ≤ 1400)
    (hpkt : longPacket cr c (c.keys c.isServer level) level (c.txPn level) frames padTo = some pkt)
    (hsend : env.sendto level (c.txPn level) = true) :
    sendFrames cr env level frames retransmit padTo c = (some (),
      (({ c with txPn := Function.update c.txPn level (c.txPn level + 1) }.encrypted level (c.keys c.isServer level)
        (c.txPn level)).record level (c.txPn level) frames retransmit env.now pkt)) := by
  unfold sendFrames
  rw [Prog.get_bind, Prog.require_bind hinstalled, Prog.modify_bind, Prog.require_bind hlen, if_neg hlevel,
    Prog.ofOption_bind hpkt, Prog.modify_bind, Prog.require_bind hsend]
  rfl

/-- The first message of a level is sent in a packet that the peer can open. -/
lemma sendCrypto_eq (hack : FirstAck (c.rxAck level) ack) (hlevel : level ≠ .app)
    (hinstalled : (c.keys c.isServer level).installed = true) (hdcid : c.peerCid.length = cidLen)
    (hscid : c.localCid.length = cidLen) (hpn : c.txPn level = 0) (hsend : env.sendto level 0 = true)
    (hdec : ∀ k n aad p, cr.decrypt k n aad (cr.encrypt k n aad p).1 (cr.encrypt k n aad p).2 = some p)
    {padTo : ℕ} (hmsg : msg.length ≤ 1100) (hpad : padTo = 0 ∨ padTo = 1200 ∧ level = .initial) :
    ∃ pkt pad c', sendCrypto cr env level msg 0 padTo c = (some (), c') ∧ Sent c level pkt c' ∧
      Carries cr c.peerCid c.localCid (c.keys c.isServer level) level 0 (flightText ack msg pad) pkt := by
  have hlen : (ack ++ cryptoFrame 0 msg).length ≤ 1154 := by
    have hsize := varintSize_le msg.length
    have hacklen := hack.length_le
    simp only [List.length_append, cryptoFrame, List.length_cons, length_varint]
    rw [show varintSize 0 = 1 from rfl]
    omega
  obtain ⟨h, henc, hheard, hpoints, hsent⟩ := encodeAck_eq hack
  obtain ⟨pad, hpadded, hpacket⟩ := @longPacket_eq cr (c.keys c.isServer level) level 0 { c with hist := h }
    (ack ++ cryptoFrame 0 msg) padTo (by
      obtain rfl | ⟨rfl, rfl⟩ := hpad
      · exact .inl ⟨rfl, by omega⟩
      · exact .inr ⟨rfl, rfl, hlen⟩)
  rw [List.append_assoc] at hpacket
  have hcarries := @carries_protect cr c.peerCid c.localCid (flightText ack msg pad) (c.keys c.isServer level) level 0
    hlevel hdcid hscid (hdec _ · · _) hinstalled (by decide) (by
      simp only [flightText, List.length_append, List.length_replicate] at hpadded ⊢
      omega)
  have hplain : (flightText ack msg pad).length = (ack ++ cryptoFrame 0 msg).length + pad := by
    simp only [flightText, List.length_append, List.length_replicate, Nat.add_assoc]
  rw [hplain] at hcarries
  set pkt := protect cr (c.keys c.isServer level) true (longFirst level)
    (longMid level c.peerCid c.localCid ((ack ++ cryptoFrame 0 msg).length + pad)) 0 (flightText ack msg pad)
  have hframes := @sendFrames_eq cr env { c with hist := h } level pkt (ack ++ cryptoFrame 0 msg) true padTo hlevel
    hinstalled (by omega) (by rw [show ({ c with hist := h } : Conn).txPn level = 0 from hpn]; exact hpacket)
    (by rw [show ({ c with hist := h } : Conn).txPn level = 0 from hpn]; exact hsend)
  have hstart : sendCrypto cr env level msg 0 padTo c =
      sendFrames cr env level (ack ++ cryptoFrame 0 msg) true padTo { c with hist := h } := by
    unfold sendCrypto
    rw [Prog.bind_of_eq henc, Prog.require_bind]
    have hacklen := hack.length_le
    omega
  refine ⟨pkt, pad, _, hstart.trans hframes, ⟨rfl, hheard, hpoints, ?_⟩, hcarries⟩
  simp only [Conn.datagrams, Conn.record, Conn.encrypted, hsent, List.map_append, List.map_cons, List.map_nil]

/-! ## Receiving -/

lemma parseFrames_zeros {n m : ℕ} (h : m ≤ n) : parseFrames cr env level n (List.replicate m 0) c = (some (), c) := by
  induction n generalizing m with
  | zero =>
    rw [Nat.le_zero.1 h]
    rfl
  | succ n ih =>
    cases m with
    | zero => rfl
    | succ m =>
      rw [List.replicate_succ, parseFrames, frame, if_pos (.inl rfl)]
      exact ih (Nat.le_of_succ_le_succ h)

/-- A frame of which the parser knows what comes behind it. -/
lemma parseFrames_cons {t : UInt8} {p rest : Bytes} (n : ℕ) (h : frame cr env level t p c = (some (some rest), c')) :
    parseFrames cr env level (n + 1) (t :: p) c = parseFrames cr env level n rest c' := by
  rw [parseFrames, Prog.bind_of_eq h]

/-- An ACK of the packet with number 0. -/
lemma ackFrame_zero (rest : Bytes) :
    ackFrame level 0x02 (0 :: 0 :: 0 :: 0 :: rest) c = (some rest, c.applyAck level 0 0) := by
  have hzero (p : Bytes) : getVarint (0 :: p) = some (0, p) := @getVarint_varint 0 (by decide) p
  refine (Prog.ofOption_bind (hzero _) _ c).trans <| (Prog.ofOption_bind (hzero _) _ c).trans ?_
  exact (Prog.ofOption_bind (hzero _) _ c).trans (Prog.ofOption_bind (hzero rest) _ c)

lemma onCrypto_eq (rest : Bytes) (hmsg : msg.length ≤ 8192) (h : cryptoInput cr env level 0 msg c = (some (), c')) :
    onCrypto cr env level (varint 0 ++ (varint msg.length ++ (msg ++ rest))) c = (some rest, c') := by
  have hlen : msg.length ≤ (msg ++ rest).length := by simp
  refine (Prog.ofOption_bind (getVarint_varint (by decide) _) _ c).trans ?_
  refine (Prog.ofOption_bind (getVarint_varint (by omega) _) _ c).trans <| (Prog.require_bind hlen _ c).trans ?_
  rw [List.take_left, List.drop_left]
  exact Prog.bind_of_eq h

lemma parseFrames_ack (n : ℕ) (rest : Bytes) :
    parseFrames cr env level (n + 1) ([0x02, 0, 0, 0, 0] ++ rest) c =
      parseFrames cr env level n rest (c.applyAck level 0 0) :=
  parseFrames_cons n (Prog.map_of_eq some (ackFrame_zero rest))

lemma parseFrames_crypto (n : ℕ) (rest : Bytes) (hmsg : msg.length ≤ 8192)
    (h : cryptoInput cr env level 0 msg c = (some (), c')) :
    parseFrames cr env level (n + 1) (cryptoFrame 0 msg ++ rest) c = parseFrames cr env level n rest c' := by
  rw [cryptoFrame, List.cons_append, List.append_assoc, List.append_assoc]
  exact parseFrames_cons n (Prog.map_of_eq some (onCrypto_eq rest hmsg h))

/-- The text of a flight is parsed when its message is accepted. -/
lemma parseFrames_flightText {pad : ℕ} {r : RxAck} (hack : FirstAck r ack) (hmsg : msg.length ≤ 8192) :
    ∃ f h, h.heard = c.hist.heard ∧ h.points = c.hist.points ∧ h.sent = c.hist.sent ∧
      ∀ c', cryptoInput cr env level 0 msg { c with flight := f, hist := h } = (some (), c') →
        parseFrames cr env level (flightText ack msg pad).length (flightText ack msg pad) c = (some (), c') := by
  have hlen : (flightText ack msg pad).length = ack.length + (cryptoFrame 0 msg).length + pad := by
    simp only [flightText, List.length_append, List.length_replicate, Nat.add_assoc]
  have hpos : 0 < (cryptoFrame 0 msg).length := by simp [cryptoFrame]
  cases hack with
  | none =>
    refine ⟨c.flight, c.hist, rfl, rfl, rfl, fun c' h => ?_⟩
    obtain ⟨n, hn⟩ : ∃ n, (flightText [] msg pad).length = n + 1 + pad :=
      ⟨(cryptoFrame 0 msg).length - 1, by simp at hlen; omega⟩
    rw [hn, Nat.add_right_comm, flightText, List.nil_append, parseFrames_crypto _ _ hmsg h, parseFrames_zeros (by omega)]
  | first =>
    refine ⟨(c.applyAck level 0 0).flight, (c.applyAck level 0 0).hist, rfl, rfl, rfl, fun c' h => ?_⟩
    obtain ⟨n, hn⟩ : ∃ n, (flightText [0x02, 0, 0, 0, 0] msg pad).length = n + pad + 1 + 1 :=
      ⟨(cryptoFrame 0 msg).length + 3, by simp at hlen; omega⟩
    rw [hn, flightText, parseFrames_ack]
    exact (parseFrames_crypto _ _ hmsg h).trans (parseFrames_zeros (by omega))

/-- The first bytes of a level come into an empty buffer. -/
lemma cryptoInput_eq (hlevel : level ≠ .app) (hmsg : msg.length ≤ 8192) (hbuf : c.rxCrypto level = []) :
    cryptoInput cr env level 0 msg c =
      msgLoop cr env level msg.length { c with rxCrypto := Function.update c.rxCrypto level msg } := by
  have hempty : 0 = (c.rxCrypto level).length := by rw [hbuf, List.length_nil]
  unfold cryptoInput
  rw [if_neg hlevel, Prog.require_bind ⟨by omega, hmsg⟩, Prog.get_bind, if_pos hempty, Prog.modify_bind, Nat.zero_add,
    hbuf, List.nil_append]

/-- `c'` is `c` with the first message of a level in its buffer. -/
structure Got (c : Conn) (level : Level) (scid msg : Bytes) (c' : Conn) : Prop where
  rest : c' = { c with
    peerCid := if c.isServer = true ∧ c.chDone = false then scid else c.peerCid
    rxAck := Function.update c.rxAck level ⟨true, 0, 1⟩
    rxCrypto := Function.update c.rxCrypto level msg
    flight := c'.flight
    hist := c'.hist }
  heard : c'.hist.heard = c.hist.heard
  points : c'.hist.points = c.hist.points
  datagrams : c'.datagrams = c.datagrams

section Receiving

variable {dcid scid : Bytes} {k : Keys} {pn : ℕ} {plain : Bytes}

lemma Carries.learn_eq (h : Carries cr c.localCid scid k level pn plain pkt) : c.learn pkt =
    { c with peerCid := if c.isServer = true ∧ c.chDone = false then scid else c.peerCid } := by
  unfold Conn.learn
  rw [h.source]
  by_cases hlearn : c.isServer = true ∧ c.chDone = false
  · rw [if_pos ⟨h.size, h.long, hlearn⟩, if_pos hlearn]
    rfl
  · rw [if_neg fun h => hlearn h.2.2, if_neg hlearn]

/-- A datagram that is one packet is ingested like its packet. -/
lemma ingest_of_opened {off : ℕ} (h : opened cr c pkt = some (⟨level, off, pkt.length⟩, pn, plain)) (hne : pkt ≠ []) :
    ingest cr env pkt c = acceptPacket cr env level pn plain (c.learn pkt) := by
  obtain ⟨n, hn⟩ : ∃ n, pkt.length = n + 1 := ⟨pkt.length - 1, by have := List.length_pos_iff.2 hne; omega⟩
  have hrest (n : ℕ) (c' : Conn) : ingestLoop cr env n [] c' = (some (), c') := by cases n <;> rfl
  unfold ingest
  rw [hn, ingestLoop, if_neg hne, bind_apply, openPacket_of_some h, bind_apply]
  cases haccept : acceptPacket cr env level pn plain (c.learn pkt) with
  | mk o c' =>
    cases o with
    | none => rfl
    | some u =>
      simp only [pure_apply]
      rw [if_neg (by omega), List.drop_length]
      split
      · rfl
      · exact hrest n c'

lemma ingest_of_acceptPacket (h : Carries cr c.localCid scid (c.keys (!c.isServer) level) level pn plain pkt)
    (haccept : acceptPacket cr env level pn plain (c.learn pkt) = (some (), c')) :
    ingest cr env pkt c = (some (), c') := by
  obtain ⟨off, hopened⟩ := h.opened
  rw [ingest_of_opened (hopened c rfl rfl) (List.ne_nil_of_length_pos (by have := h.size; omega)), haccept]

/-- A flight is ingested when its message is accepted. -/
lemma ingest_flight {r : RxAck} {pad : ℕ} (hlevel : level ≠ .app)
    (h : Carries cr c.localCid scid (c.keys (!c.isServer) level) level 0 (flightText ack msg pad) pkt)
    (hack : FirstAck r ack) (hmsg : msg.length ≤ 8192) (hrx : c.rxAck level = ⟨false, 0, 0⟩) (hbuf : c.rxCrypto level = []) :
    ∃ c₁, Got c level scid msg c₁ ∧ ∀ c₂, msgLoop cr env level msg.length c₁ = (some (), c₂) →
      ingest cr env pkt c = (some (), { c₂ with
        hist := { c₂.hist with processed := c₂.hist.processed ++ [(level, 0)] } }) := by
  obtain ⟨f, hist, hheard, hpoints, hsent, hparse⟩ := @parseFrames_flightText cr env
    { c.learn pkt with
      rxAck := Function.update c.rxAck level ⟨true, 0, 1⟩
      hist := { (c.learn pkt).hist with parsed := (c.learn pkt).hist.parsed ++ [(level, 0)] } }
    level msg ack pad r hack hmsg
  have hhist : (c.learn pkt).hist = c.hist := by rw [h.learn_eq]
  refine ⟨{ c.learn pkt with
    rxAck := Function.update c.rxAck level ⟨true, 0, 1⟩
    rxCrypto := Function.update c.rxCrypto level msg
    flight := f
    hist := hist }, ⟨?_, ?_, ?_, ?_⟩, fun c₂ hloop => ingest_of_acceptPacket h ?_⟩
  · rw [h.learn_eq]
  · simp only [hheard, hhist]
  · simp only [hpoints, hhist]
  · simp only [Conn.datagrams, hsent, hhist]
  · have hrx' : (c.learn pkt).rxAck = c.rxAck := by rw [h.learn_eq]
    have hbuf' : (c.learn pkt).rxCrypto = c.rxCrypto := by rw [h.learn_eq]
    have hnote : ((c.learn pkt).rxAck level).note 0 = (false, ⟨true, 0, 1⟩) := by
      rw [hrx', hrx]
      rfl
    unfold acceptPacket
    rw [Prog.get_bind, Prog.modify_bind, hnote, if_neg (by decide), hrx']
    refine Prog.bind_of_eq (hparse c₂ ?_)
    rw [cryptoInput_eq hlevel hmsg (by rw [hbuf', hbuf]), hbuf', hloop]

end Receiving

end Suspenders.Quic
