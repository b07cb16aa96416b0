import Suspenders.Quic.Deliver
import Suspenders.Quic.Level
import Suspenders.Quic.Parse

/-!
# Agreement

Both sides of a handshake whose flights are delivered accept all messages, hash the same transcripts and derive the same
keys.

`Side` is the part of a connection that the handshake works on.  Every operation of the handshake is a function of it, so
that the states of both sides are followed through the handshake by equations.
-/

namespace Suspenders.Quic

open Lib Prog

/-- What a connection is for its handshake. -/
structure Side where
  isServer : Bool
  appReady : Bool
  chDone : Bool
  clientFinSent : Bool
  localCid : Bytes
  peerCid : Bytes
  origDcid : Bytes
  x25519 : Bytes
  peerPub : Bytes
  haveShared : Bool
  hsSecret : Bytes
  certDer : Bytes
  keys : Bool → Level → Keys
  txPn : Level → ℕ
  rxAck : Level → RxAck
  rxCrypto : Level → Bytes
  rxCryptoParsed : Level → ℕ
  transcript : List Bytes
  /-- The messages that were accepted. -/
  heard : List Bytes
  /-- The transcripts from which keys were derived. -/
  points : List (List Bytes)
  /-- The datagrams that were sent. -/
  datagrams : List Bytes

/-- Neither the stream, the limits nor the flights. -/
@[simps] def Conn.side (c : Conn) : Side where
  isServer := c.isServer
  appReady := c.appReady
  chDone := c.chDone
  clientFinSent := c.clientFinSent
  localCid := c.localCid
  peerCid := c.peerCid
  origDcid := c.origDcid
  x25519 := c.x25519
  peerPub := c.peerPub
  haveShared := c.haveShared
  hsSecret := c.hsSecret
  certDer := c.certDer
  keys := c.keys
  txPn := c.txPn
  rxAck := c.rxAck
  rxCrypto := c.rxCrypto
  rxCryptoParsed := c.rxCryptoParsed
  transcript := c.transcript
  heard := c.hist.heard.map fun h => h.msg
  points := c.hist.points
  datagrams := c.datagrams

variable {cr : Crypto} {env : Env} {c c' : Conn} {level : Level} {msg pkt ack : Bytes} {v : Side}

namespace Side

/-- A message is hashed. -/
@[simps] def hash (v : Side) (msg : Bytes) : Side := { v with transcript := v.transcript ++ [msg] }

/-- A message of the peer is accepted and hashed. -/
@[simps] def hear (v : Side) (msg : Bytes) : Side :=
  { v with transcript := v.transcript ++ [msg], heard := v.heard ++ [msg] }

/-- The public key of the peer. -/
@[simps] def setPeerPub (v : Side) (pub : Bytes) : Side := { v with peerPub := pub }

/-- The certificate of the peer. -/
@[simps] def setCert (v : Side) (der : Bytes) : Side := { v with certDer := der }

/-- A private key. -/
@[simps] def setKey (v : Side) (x25519 : Bytes) : Side := { v with x25519 := x25519 }

/-- The ClientHello is accepted. -/
@[simps] def setDone (v : Side) : Side := { v with chDone := true }

/-- Traffic keys are derived from the transcript. -/
@[simps] def derive (v : Side) (cr : Crypto) (level : Level) (secret : Bytes) (client server : String) : Side :=
  { v with
    keys := fun fromServer l =>
      if l = level then cr.install (cr.expandLabel secret (if fromServer then server else client)
        (cr.sha256 v.transcript.flatten) 32)
      else v.keys fromServer l
    points := v.points ++ [v.transcript] }

/-- The secret of the handshake. -/
@[simps] def share (v : Side) (cr : Crypto) (shared : Bytes) : Side :=
  { v with haveShared := true, hsSecret := cr.hsSecret shared }

/-- The handshake keys are derived from a shared secret. -/
def deriveHandshake (v : Side) (cr : Crypto) (shared : Bytes) : Side :=
  (v.share cr shared).derive cr .handshake (cr.hsSecret shared) "c hs traffic" "s hs traffic"

/-- The application keys are derived. -/
def deriveApp (v : Side) (cr : Crypto) : Side :=
  v.derive cr .app (cr.extract zeros (cr.expandLabel v.hsSecret "derived" emptyHash 32)) "c ap traffic" "s ap traffic"

/-- A packet of a level is sent. -/
@[simps] def sent (v : Side) (level : Level) (pkt : Bytes) : Side :=
  { v with txPn := Function.update v.txPn level (v.txPn level + 1), datagrams := v.datagrams ++ [pkt] }

/-- The first packet of a level is received, with some messages. -/
@[simps] def got (v : Side) (level : Level) (scid msgs : Bytes) : Side :=
  { v with
    peerCid := if v.isServer = true ∧ v.chDone = false then scid else v.peerCid
    rxAck := Function.update v.rxAck level ⟨true, 0, 1⟩
    rxCrypto := Function.update v.rxCrypto level msgs }

/-- A message is taken from the buffer of a level. -/
@[simps] def parsed (v : Side) (level : Level) (n : ℕ) : Side :=
  { v with rxCryptoParsed := Function.update v.rxCryptoParsed level (v.rxCryptoParsed level + n) }

/-- The handshake of a server is complete. -/
@[simps] def setReady (v : Side) : Side := { v with appReady := true }

/-- The handshake of a client is complete. -/
@[simps] def setFinished (v : Side) : Side := { v with clientFinSent := true, appReady := true }

/-- A server sends its flights. -/
def served (v : Side) (cr : Crypto) (ee crt cv fin p₁ p₂ : Bytes) : Side :=
  ((((((v.sent .initial p₁).hash ee).hash crt).hash cv).hash fin).deriveApp cr).sent .handshake p₂

end Side

/-- What the handshake relies on: X25519 commutes, and a packet that was encrypted can be decrypted. -/
structure Crypto.Lawful (cr : Crypto) : Prop where
  dh_isSome : ∀ a b, (cr.dh a (cr.publicKey b)).isSome = true
  dh_comm : ∀ a b, cr.dh a (cr.publicKey b) = cr.dh b (cr.publicKey a)
  decrypt_encrypt : ∀ k n aad p, cr.decrypt k n aad (cr.encrypt k n aad p).1 (cr.encrypt k n aad p).2 = some p

/-- The key of a certificate signs, with signatures of 64 bytes, what the certificate verifies. -/
def Cert.Signs (cert : Cert) (cr : Crypto) : Prop := ∃ pk, cr.certKey cert.der = some pk ∧
  ∀ m, (cr.sign cert.key m).length = 64 ∧ cr.verify pk (cr.sign cert.key m) m = true

lemma Cert.Signs.buildCertVerify {cr : Crypto} {cert : Cert} (h : cert.Signs cr) (th : Bytes) :
    ∃ cv, buildCertVerify cr cert.key th = some cv ∧ cv.length = 72 := by
  obtain ⟨pk, -, hsign⟩ := h
  have hlen := (hsign (certVerifyTbs th)).1
  refine ⟨_, if_neg (by omega), by simp [message, hlen]⟩

/-! ## Operations -/

lemma side_hash (c : Conn) (msg : Bytes) : (c.hash msg).side = c.side.hash msg := rfl

lemma side_hear (c : Conn) (level : Level) (msg : Bytes) : (c.hear level msg).side = c.side.hear msg := by
  simp [Conn.side, Side.hear, Conn.hear, Conn.hash, Conn.datagrams]

lemma side_trafficKeys (c : Conn) (level : Level) (secret : Bytes) (client server : String) :
    (c.trafficKeys cr level secret (c.peek cr) client server).point.side = c.side.derive cr level secret client server := by
  have hkeys : (c.trafficKeys cr level secret (c.peek cr) client server).keys =
      (c.side.derive cr level secret client server).keys := by
    funext fromServer l
    simp only [Conn.trafficKeys, Conn.setKeys, Side.derive, Conn.peek]
    cases fromServer <;> by_cases hl : l = level <;> simp [hl, Conn.side]
  calc
    _ = { c.side with
        keys := (c.trafficKeys cr level secret (c.peek cr) client server).keys, points := c.hist.points ++ [c.transcript] } := rfl
    _ = _ := by rw [hkeys]; rfl

lemma side_deriveHandshake {shared : Bytes} (hfresh : c.haveShared = false) (hdh : cr.dh c.x25519 c.peerPub = some shared) :
    ∃ c', Quic.deriveHandshake cr c = (some (), c') ∧ c'.side = c.side.deriveHandshake cr shared := by
  have hshared : deriveShared cr c = (some (), { c with shared := shared, haveShared := true }) := by
    unfold deriveShared
    rw [Prog.get_bind, if_neg (by simp [hfresh]), Prog.ofOption_bind hdh]
    rfl
  refine ⟨_, (Prog.bind_of_eq hshared).trans rfl, ?_⟩
  rw [side_trafficKeys]
  rfl

lemma side_deriveApp (c : Conn) : ∃ c', Quic.deriveApp cr c = (some (), c') ∧ c'.side = c.side.deriveApp cr :=
  ⟨_, rfl, side_trafficKeys c .app _ _ _⟩

lemma Sent.side_eq (h : Sent c level pkt c') : c'.side = c.side.sent level pkt :=
  calc
    c'.side = _ := congrArg Conn.side h.rest
    _ = { c.side with
        txPn := Function.update c.txPn level (c.txPn level + 1)
        heard := c'.hist.heard.map fun h => h.msg
        points := c'.hist.points
        datagrams := c'.datagrams } := rfl
    _ = _ := by
      rw [h.heard, h.points, h.datagrams]
      rfl

lemma Got.side_eq {scid : Bytes} (h : Got c level scid msg c') : c'.side = c.side.got level scid msg :=
  calc
    c'.side = _ := congrArg Conn.side h.rest
    _ = { c.side.got level scid msg with
        heard := c'.hist.heard.map fun h => h.msg
        points := c'.hist.points
        datagrams := c'.datagrams } := rfl
    _ = _ := by
      rw [h.heard, h.points, h.datagrams]
      rfl

/-! ## The loop over messages -/

/-- A message whose header has its length. -/
def IsMessage (msg : Bytes) : Prop := ∃ type body, msg = message type body ∧ body.length < 16777216

lemma length_message (type : UInt8) (body : Bytes) : (message type body).length = 4 + body.length := by
  simp [message]
  omega

lemma isMessage_of_length {type : UInt8} {body : Bytes} (hmsg : msg = message type body) (h : msg.length < 16777216) :
    IsMessage msg := by
  refine ⟨type, body, hmsg, ?_⟩
  rw [hmsg, length_message] at h
  omega

lemma IsMessage.header (h : IsMessage msg) (rest : Bytes) : 4 ≤ msg.length ∧ 4 + be24 ((msg ++ rest).drop 1) = msg.length := by
  obtain ⟨type, body, rfl, hbody⟩ := h
  rw [length_message]
  refine ⟨by omega, ?_⟩
  rw [message, List.cons_append, List.cons_append, List.drop_succ_cons, List.drop_zero, List.append_assoc,
    be24_toBytes hbody]

/-- One round of the loop takes a message. -/
lemma msgLoop_cons {before rest : Bytes} (hmsg : IsMessage msg) (hbuf : c.rxCrypto level = before ++ (msg ++ rest))
    (hparsed : c.rxCryptoParsed level = before.length)
    (hon : ∀ behind, onMsg cr env level (msg ++ behind) msg.length c = (some (), c')) (n : ℕ) :
    msgLoop cr env level (n + 1) c = msgLoop cr env level n { c' with
      rxCryptoParsed := Function.update c'.rxCryptoParsed level (c'.rxCryptoParsed level + msg.length) } := by
  obtain ⟨hfour, hlen⟩ := hmsg.header rest
  have hm : (c.rxCrypto level).drop (c.rxCryptoParsed level) = msg ++ rest := by rw [hbuf, hparsed, List.drop_left]
  have hle : (msg ++ rest).length = msg.length + rest.length := List.length_append
  rw [msgLoop, Prog.get_bind]
  simp only [hm, hlen]
  rw [if_neg (by omega), if_neg (by omega), List.append_assoc, List.append_assoc, Prog.bind_of_eq (hon _), Prog.modify_bind]

lemma msgLoop_nil (hparsed : c.rxCryptoParsed level = (c.rxCrypto level).length) (n : ℕ) :
    msgLoop cr env level n c = (some (), c) := by
  cases n with
  | zero => rfl
  | succ n =>
    have hm : (c.rxCrypto level).drop (c.rxCryptoParsed level) = [] := by rw [hparsed, List.drop_length]
    rw [msgLoop, Prog.get_bind]
    simp only [hm]
    rfl

/-- A message is accepted, whatever comes behind it in memory, and leads to `v`. -/
def Hears (cr : Crypto) (env : Env) (level : Level) (msg : Bytes) (c : Conn) (v : Side) : Prop :=
  ∃ c', (∀ behind, onMsg cr env level (msg ++ behind) msg.length c = (some (), c')) ∧ c'.side = v

lemma Hears.msgLoop {before rest : Bytes} (h : Hears cr env level msg c v) (hmsg : IsMessage msg)
    (hbuf : c.rxCrypto level = before ++ (msg ++ rest)) (hparsed : c.rxCryptoParsed level = before.length) (n : ℕ) :
    ∃ c', Quic.msgLoop cr env level (n + 1) c = Quic.msgLoop cr env level n c' ∧ c'.side = v.parsed level msg.length := by
  obtain ⟨c', hon, rfl⟩ := h
  exact ⟨_, msgLoop_cons hmsg hbuf hparsed hon n, rfl⟩

/-! ## The messages of a server -/

lemma byteAt_message (type : UInt8) (body behind : Bytes) : byteAt (message type body ++ behind) 0 = type := rfl

lemma onMsg_client (hclient : c.isServer = false) {len : ℕ} (hlen : 4 ≤ len) :
    onMsg cr env level msg len c = clientMsg cr env level msg len c := by
  unfold onMsg
  rw [Prog.require_bind hlen, Prog.get_bind, if_neg (by simp [hclient])]

lemma onMsg_server (hserver : c.isServer = true) {len : ℕ} (hlen : 4 ≤ len) :
    onMsg cr env level msg len c = serverMsg cr env level msg len c := by
  unfold onMsg
  rw [Prog.require_bind hlen, Prog.get_bind, if_pos hserver]

section Client

variable (hclient : c.isServer = false)

include hclient

lemma hears_serverHello {random pub shared : Bytes} (hrandom : random.length = 32) (hpub : pub.length = 32)
    (hfresh : c.haveShared = false) (hdh : cr.dh c.x25519 pub = some shared) :
    Hears cr env .initial (buildServerHello random pub) c
      (((c.side.setPeerPub pub).hear (buildServerHello random pub)).deriveHandshake cr shared) := by
  set sh := buildServerHello random pub with hsh
  obtain ⟨c', hderive, hside⟩ := @side_deriveHandshake cr
    ({ c with peerPub := pub, havePeerPub := true }.hear .initial sh) shared hfresh hdh
  refine ⟨c', fun behind => ?_, by rw [hside, side_hear]; rfl⟩
  have hparse := parseServerHello_build hrandom hpub c behind
  rw [onMsg_client hclient (by rw [hsh, length_buildServerHello hrandom hpub]; decide), clientMsg,
    if_pos ⟨rfl, byteAt_message 2 _ behind⟩, Prog.bind_of_eq hparse, Prog.modify_bind, List.take_left, hderive]

lemma hears_ee {cid odcid : Bytes} (hcid : cid.length = cidLen) (hodcid : odcid.length = cidLen) (hpeer : c.peerCid = cid)
    (horig : c.origDcid = odcid) :
    Hears cr env .handshake (buildEncryptedExtensions cid odcid) c (c.side.hear (buildEncryptedExtensions cid odcid)) := by
  set ee := buildEncryptedExtensions cid odcid with hee
  refine ⟨{ c with peerBidiLocal := flow, peerBidiRemote := flow, sawParams := true }.hear .handshake ee, fun behind => ?_,
    by rw [side_hear]; rfl⟩
  have hparse := parseEe_build hcid hodcid hpeer horig behind
  rw [onMsg_client hclient (by rw [hee, length_buildEncryptedExtensions]; omega), clientMsg, if_neg (by simp),
    if_pos ⟨rfl, byteAt_message 8 _ behind⟩, Prog.bind_of_eq hparse, Prog.modify_apply, List.take_left]

lemma hears_certificate {der : Bytes} (hder : der.length ≤ 768) :
    Hears cr env .handshake (buildCertificate der) c ((c.side.hear (buildCertificate der)).setCert der) := by
  set crt := buildCertificate der with hcrt
  refine ⟨{ c.hear .handshake crt with certDer := der }, fun behind => ?_, ?_⟩
  · have hparse := parseCertificate_build hder behind
    have htype : byteAt (crt ++ behind) 0 = 11 := byteAt_message 11 _ behind
    rw [onMsg_client hclient (by rw [hcrt, length_buildCertificate]; omega), clientMsg, if_neg (by simp),
      if_neg (by rw [htype]; decide), if_pos ⟨rfl, htype⟩, Prog.ofOption_bind hparse, Prog.modify_apply, List.take_left]
  · have hside := side_hear c .handshake crt
    exact congrArg (Side.setCert · der) hside

lemma hears_certVerify {cert : Cert} {cv : Bytes} (hsigns : cert.Signs cr) (hder : c.certDer = cert.der)
    (h : buildCertVerify cr cert.key (c.peek cr) = some cv) : Hears cr env .handshake cv c (c.side.hear cv) := by
  obtain ⟨pk, hkey, hsign⟩ := hsigns
  have hne : c.certDer ≠ [] := by
    rw [hder, ← List.length_pos_iff]
    exact cert.pos
  refine ⟨c.hear .handshake cv, fun behind => ?_, side_hear c .handshake cv⟩
  have hparse := parseCertVerify_build hne (by rw [hder, hkey]) (hsign _).1 (hsign _).2 h behind
  have htype : 4 ≤ cv.length ∧ byteAt (cv ++ behind) 0 = 15 := by
    simp only [buildCertVerify, Option.ite_none_left_eq_some, Option.some.injEq] at h
    rw [← h.2]
    exact ⟨by simp [message], byteAt_message 15 _ behind⟩
  rw [onMsg_client hclient htype.1, clientMsg, if_neg (by simp), if_neg (by rw [htype.2]; decide),
    if_neg (by rw [htype.2]; decide), if_pos ⟨rfl, htype.2⟩, Prog.get_bind, Prog.require_bind hparse, Prog.modify_apply,
    List.take_left]

/-- The client sends its Finished. -/
lemma side_clientFinish (hlaw : cr.Lawful) {fin : Bytes}
    (hfin : fin = buildFinished cr (c.keys false .handshake).secret (c.peek cr))
    (hunsent : c.clientFinSent = false) (hinstalled : (c.keys false .handshake).installed = true)
    (hack : FirstAck (c.rxAck .handshake) ack) (hpeer : c.peerCid.length = cidLen) (hlocal : c.localCid.length = cidLen)
    (hpn : c.txPn .handshake = 0) (hsend : env.sendto .handshake 0 = true) :
    ∃ pkt pad c', clientFinish cr env c = (some (), c') ∧
      Carries cr c.peerCid c.localCid (c.keys false .handshake) .handshake 0 (flightText ack fin pad) pkt ∧
      c'.side = ((c.side.hash fin).sent .handshake pkt).setFinished := by
  obtain ⟨pkt, pad, c', hrun, hsent, hcarries⟩ := @sendCrypto_eq cr env (c.hash fin) .handshake fin ack hack (by decide)
    (by rw [show (c.hash fin).isServer = false from hclient]; exact hinstalled) hpeer hlocal hpn hsend
    hlaw.decrypt_encrypt 0 (by rw [hfin, length_buildFinished]; decide) (.inl rfl)
  rw [show (c.hash fin).isServer = false from hclient] at hcarries
  refine ⟨pkt, pad, { c' with clientFinSent := true, appReady := true }, ?_, hcarries, ?_⟩
  · unfold clientFinish
    rw [Prog.get_bind, if_neg (by simp [hunsent]), Prog.require_bind hinstalled, Prog.modify_bind, ← hfin]
    exact Prog.bind_of_eq hrun
  · have hside := hsent.side_eq
    rw [side_hash] at hside
    exact congrArg Side.setFinished hside

/-- The Finished of a server, to which the client answers. -/
lemma hears_finished {fin : Bytes} {c₁ : Conn} (hfin : fin = buildFinished cr (c.keys true .handshake).secret (c.peek cr))
    (happ : deriveApp cr (c.hear .handshake fin) = (some (), c₁)) (hrun : clientFinish cr env c₁ = (some (), c')) :
    Hears cr env .handshake fin c c'.side := by
  refine ⟨c', fun behind => ?_, rfl⟩
  have hcheck := @checkFinished_build cr (c.keys true .handshake).secret (c.peek cr) behind
  rw [← hfin] at hcheck
  have htype : byteAt (fin ++ behind) 0 = 20 := by
    rw [hfin]
    exact byteAt_message 20 _ behind
  rw [onMsg_client hclient (by rw [hfin, length_buildFinished]; decide), clientMsg, if_neg (by simp),
    if_neg (by rw [htype]; decide), if_neg (by rw [htype]; decide), if_neg (by rw [htype]; decide), if_pos ⟨rfl, htype⟩,
    Prog.get_bind, Prog.require_bind hcheck, Prog.modify_bind, List.take_left, Prog.bind_of_eq happ, hrun]

end Client

/-! ## The messages of a client -/

section Server

variable (hserver : c.isServer = true)

include hserver

/-- The server sends its ServerHello. -/
lemma side_helloFlight (hlaw : cr.Lawful) {shared sh : Bytes} {v : Side} (hfresh : c.haveShared = false)
    (hdh : cr.dh env.x25519 c.peerPub = some shared) (hsh : sh = buildServerHello env.random (cr.publicKey env.x25519))
    (hinstalled : (c.keys true .initial).installed = true) (hack : FirstAck (c.rxAck .initial) ack)
    (hpeer : c.peerCid.length = cidLen) (hlocal : c.localCid.length = cidLen) (hpn : c.txPn .initial = 0)
    (hsend : env.sendto .initial 0 = true) (hv : v = ((c.side.setKey env.x25519).hash sh).deriveHandshake cr shared) :
    ∃ p pad c₁ c', deriveHandshake cr ({ c with x25519 := env.x25519, myPub := cr.publicKey env.x25519 }.hash sh) =
        (some (), c₁) ∧ sendCrypto cr env .initial sh 0 0 c₁ = (some (), c') ∧
      Carries cr c.peerCid c.localCid (c.keys true .initial) .initial 0 (flightText ack sh pad) p ∧
      c'.side = v.sent .initial p := by
  obtain ⟨c₁, hderive, hside₁⟩ := @side_deriveHandshake cr
    ({ c with x25519 := env.x25519, myPub := cr.publicKey env.x25519 }.hash sh) shared hfresh hdh
  replace hside₁ : c₁.side = v := by rw [hside₁, side_hash, hv]; rfl
  have hserver₁ : c₁.isServer = true :=
    (congrArg Side.isServer hside₁).trans (by simp [hv, Side.deriveHandshake, hserver])
  have hkeys₁ : c₁.keys true .initial = c.keys true .initial :=
    (congrArg (Side.keys · true .initial) hside₁).trans (by simp [hv, Side.deriveHandshake])
  have hpeer₁ : c₁.peerCid = c.peerCid := (congrArg Side.peerCid hside₁).trans (by simp [hv, Side.deriveHandshake])
  have hlocal₁ : c₁.localCid = c.localCid := (congrArg Side.localCid hside₁).trans (by simp [hv, Side.deriveHandshake])
  have hrx₁ : c₁.rxAck .initial = c.rxAck .initial :=
    (congrArg (Side.rxAck · .initial) hside₁).trans (by simp [hv, Side.deriveHandshake])
  have hpn₁ : c₁.txPn .initial = 0 :=
    (congrArg (Side.txPn · .initial) hside₁).trans (by simp [hv, Side.deriveHandshake, hpn])
  obtain ⟨p, pad, c', hrun, hsent, hcarries⟩ := @sendCrypto_eq cr env c₁ .initial sh ack (by rwa [hrx₁]) (by decide)
    (by rwa [hserver₁, hkeys₁]) (by rwa [hpeer₁]) (by rwa [hlocal₁]) hpn₁ hsend hlaw.decrypt_encrypt 0
    (by rw [hsh, length_buildServerHello env.length_random (cr.length_publicKey _)]; decide) (.inl rfl)
  rw [hserver₁, hkeys₁, hpeer₁, hlocal₁] at hcarries
  exact ⟨p, pad, c₁, c', hderive, hrun, hcarries, by rw [hsent.side_eq, hside₁]⟩

/-- The server sends the messages of level `handshake`. -/
lemma side_handshakeFlight (hlaw : cr.Lawful) {cert : Cert} {ee crt : Bytes} (hsigns : cert.Signs cr)
    (hee : ee.length = 66) (hcrt : crt = buildCertificate cert.der)
    (hinstalled : (c.keys true .handshake).installed = true) (hrx : c.rxAck .handshake = ⟨false, 0, 0⟩)
    (hpeer : c.peerCid.length = cidLen) (hlocal : c.localCid.length = cidLen) (hpn : c.txPn .handshake = 0)
    (hsend : env.sendto .handshake 0 = true) :
    ∃ cv fin p pad c₁ c', buildCertVerify cr cert.key (((c.hash ee).hash crt).peek cr) = some cv ∧
      fin = buildFinished cr (c.keys true .handshake).secret ((((c.hash ee).hash crt).hash cv).peek cr) ∧
      deriveApp cr ((((c.hash ee).hash crt).hash cv).hash fin) = (some (), c₁) ∧
      sendCrypto cr env .handshake (ee ++ crt ++ cv ++ fin) 0 0 c₁ = (some (), c') ∧
      Carries cr c.peerCid c.localCid (c.keys true .handshake) .handshake 0 (flightText [] (ee ++ crt ++ cv ++ fin) pad) p ∧
      c'.side = (((((c.side.hash ee).hash crt).hash cv).hash fin).deriveApp cr).sent .handshake p := by
  obtain ⟨cv, hcv, hcvlen⟩ := hsigns.buildCertVerify (((c.hash ee).hash crt).peek cr)
  set fin := buildFinished cr (c.keys true .handshake).secret ((((c.hash ee).hash crt).hash cv).peek cr) with hfin
  obtain ⟨c₁, happ, hside₁⟩ := @side_deriveApp cr ((((c.hash ee).hash crt).hash cv).hash fin)
  rw [side_hash, side_hash, side_hash, side_hash] at hside₁
  have hserver₁ : c₁.isServer = true := (congrArg Side.isServer hside₁).trans (by simp [Side.deriveApp, hserver])
  have hkeys₁ : c₁.keys true .handshake = c.keys true .handshake :=
    (congrArg (Side.keys · true .handshake) hside₁).trans (by simp [Side.deriveApp])
  have hpeer₁ : c₁.peerCid = c.peerCid := (congrArg Side.peerCid hside₁).trans (by simp [Side.deriveApp])
  have hlocal₁ : c₁.localCid = c.localCid := (congrArg Side.localCid hside₁).trans (by simp [Side.deriveApp])
  have hrx₁ : c₁.rxAck .handshake = ⟨false, 0, 0⟩ :=
    (congrArg (Side.rxAck · .handshake) hside₁).trans (by simp [Side.deriveApp, hrx])
  have hpn₁ : c₁.txPn .handshake = 0 := (congrArg (Side.txPn · .handshake) hside₁).trans (by simp [Side.deriveApp, hpn])
  have hlen : (ee ++ crt ++ cv ++ fin).length ≤ 1100 := by
    have hder := cert.le
    simp only [List.length_append, hee, hcrt, hfin, length_buildCertificate, length_buildFinished, hcvlen]
    omega
  obtain ⟨p, pad, c', hrun, hsent, hcarries⟩ := @sendCrypto_eq cr env c₁ .handshake (ee ++ crt ++ cv ++ fin) []
    (by rw [hrx₁]; exact .none) (by decide) (by rwa [hserver₁, hkeys₁]) (by rwa [hpeer₁]) (by rwa [hlocal₁]) hpn₁ hsend
    hlaw.decrypt_encrypt 0 hlen (.inl rfl)
  rw [hserver₁, hkeys₁, hpeer₁, hlocal₁] at hcarries
  exact ⟨cv, fin, p, pad, c₁, c', hcv, hfin, happ, hrun, hcarries, by rw [hsent.side_eq, hside₁]⟩

/-- The server sends its flights. -/
lemma side_serverFlight (hlaw : cr.Lawful) {cert : Cert} {shared sh ee crt : Bytes} {v : Side} (hcert : env.cert = some cert)
    (hsigns : cert.Signs cr) (hfresh : c.haveShared = false) (hdh : cr.dh env.x25519 c.peerPub = some shared)
    (hsh : sh = buildServerHello env.random (cr.publicKey env.x25519))
    (hee : ee = buildEncryptedExtensions c.localCid c.origDcid) (hcrt : crt = buildCertificate cert.der)
    (hinstalled : (c.keys true .initial).installed = true) (hack : FirstAck (c.rxAck .initial) ack)
    (hrx : c.rxAck .handshake = ⟨false, 0, 0⟩) (hpeer : c.peerCid.length = cidLen) (hlocal : c.localCid.length = cidLen)
    (horig : c.origDcid.length = cidLen) (hpn : ∀ level, c.txPn level = 0) (hsend : ∀ level, env.sendto level 0 = true)
    (hv : v = ((c.side.setKey env.x25519).hash sh).deriveHandshake cr shared) :
    ∃ cv fin p₁ p₂ pad₁ pad₂ c', serverFlight cr env c = (some (), c') ∧
      buildCertVerify cr cert.key (cr.sha256 (v.transcript ++ [ee, crt]).flatten) = some cv ∧
      fin = buildFinished cr (v.keys true .handshake).secret (cr.sha256 (v.transcript ++ [ee, crt, cv]).flatten) ∧
      Carries cr c.peerCid c.localCid (c.keys true .initial) .initial 0 (flightText ack sh pad₁) p₁ ∧
      Carries cr c.peerCid c.localCid (v.keys true .handshake) .handshake 0
        (flightText [] (ee ++ crt ++ cv ++ fin) pad₂) p₂ ∧
      c'.side = v.served cr ee crt cv fin p₁ p₂ := by
  obtain ⟨p₁, pad₁, c₁, c₂, hderive, hrun₁, hcarries₁, hside₂⟩ := side_helloFlight hserver hlaw hfresh hdh hsh hinstalled hack
    hpeer hlocal (hpn .initial) (hsend .initial) hv
  have hserver₂ : c₂.isServer = true :=
    (congrArg Side.isServer hside₂).trans (by simp [hv, Side.deriveHandshake, hserver])
  have hkeys₂ : c₂.keys true .handshake = v.keys true .handshake := congrArg (Side.keys · true .handshake) hside₂
  have hinstalled₂ : (c₂.keys true .handshake).installed = true := by rw [hkeys₂, hv]; rfl
  have hpeer₂ : c₂.peerCid = c.peerCid := (congrArg Side.peerCid hside₂).trans (by simp [hv, Side.deriveHandshake])
  have hlocal₂ : c₂.localCid = c.localCid := (congrArg Side.localCid hside₂).trans (by simp [hv, Side.deriveHandshake])
  have hrx₂ : c₂.rxAck .handshake = ⟨false, 0, 0⟩ :=
    (congrArg (Side.rxAck · .handshake) hside₂).trans (by simp [hv, Side.deriveHandshake, hrx])
  have hpn₂ : c₂.txPn .handshake = 0 :=
    (congrArg (Side.txPn · .handshake) hside₂).trans (by simp [hv, Side.deriveHandshake, hpn])
  have htranscript₂ : c₂.transcript = v.transcript := congrArg Side.transcript hside₂
  have hlen : ee.length = 66 := by
    rw [hee, length_buildEncryptedExtensions, hlocal, horig]
    rfl
  obtain ⟨cv, fin, p₂, pad₂, c₃, c₄, hcv, hfin, happ, hrun₂, hcarries₂, hside₄⟩ := side_handshakeFlight hserver₂ hlaw hsigns hlen
    hcrt hinstalled₂ hrx₂ (by rwa [hpeer₂]) (by rwa [hlocal₂]) hpn₂ (hsend .handshake)
  rw [hkeys₂, hpeer₂, hlocal₂] at hcarries₂
  rw [hside₂] at hside₄
  refine ⟨cv, fin, p₁, p₂, pad₁, pad₂, c₄, ?_, ?_, ?_, hcarries₁, hcarries₂, hside₄⟩
  · unfold serverFlight
    rw [Prog.ofOption_bind hcert, Prog.modify_bind, Prog.get_bind]
    simp only [← hsh, ← hee, ← hcrt]
    rw [Prog.modify_bind, Prog.bind_of_eq hderive, Prog.bind_of_eq hrun₁, Prog.modify_bind, Prog.get_bind,
      Prog.ofOption_bind hcv, Prog.modify_bind, Prog.get_bind,
      show (((c₂.hash ee).hash crt).hash cv).keys = c₂.keys from rfl, Prog.require_bind hinstalled₂, ← hfin,
      Prog.modify_bind, Prog.bind_of_eq happ, hrun₂]
  · rw [← hcv, ← htranscript₂, Conn.peek, Conn.hash, Conn.hash, List.append_assoc]
    rfl
  · rw [hfin, hkeys₂, ← htranscript₂, Conn.peek, Conn.hash, Conn.hash, Conn.hash, List.append_assoc, List.append_assoc]
    rfl

/-- The ClientHello, to which the server answers with its flights. -/
lemma hears_clientHello {random pub cid : Bytes} (hrandom : random.length = 32) (hpub : pub.length = 32)
    (hcid : cid.length = cidLen) (hpeer : c.peerCid = cid) (hundone : c.chDone = false) :
    ∃ c₁ : Conn, c₁.side = ((c.side.setPeerPub pub).hear (buildClientHello random pub cid)).setDone ∧
      ∀ c', serverFlight cr env c₁ = (some (), c') → Hears cr env .initial (buildClientHello random pub cid) c c'.side := by
  set ch := buildClientHello random pub cid with hch
  refine ⟨{ { c with
      peerPub := pub, havePeerPub := true, peerBidiLocal := flow, peerBidiRemote := flow, sawParams := true }.hear .initial
        ch with chDone := true }, ?_, fun c' hrun => ⟨c', fun behind => ?_, rfl⟩⟩
  · have hside := side_hear { c with
      peerPub := pub, havePeerPub := true, peerBidiLocal := flow, peerBidiRemote := flow, sawParams := true } .initial ch
    exact congrArg Side.setDone hside
  · have hparse := parseClientHello_build hpub hcid hrandom hpeer behind
    rw [onMsg_server hserver (by rw [hch]; simp [buildClientHello, message]), serverMsg,
      if_pos ⟨rfl, byteAt_message 1 _ behind⟩, Prog.get_bind, if_neg (by simp [hundone]), Prog.bind_of_eq hparse,
      Prog.modify_bind, List.take_left, hrun]

/-- The Finished of a client. -/
lemma hears_clientFinished {fin : Bytes} (hfin : fin = buildFinished cr (c.keys false .handshake).secret (c.peek cr)) :
    Hears cr env .handshake fin c (c.side.hear fin).setReady := by
  refine ⟨{ c.hear .handshake fin with appReady := true }, fun behind => ?_, ?_⟩
  · have hcheck := @checkFinished_build cr (c.keys false .handshake).secret (c.peek cr) behind
    rw [← hfin] at hcheck
    have htype : byteAt (fin ++ behind) 0 = 20 := by
      rw [hfin]
      exact byteAt_message 20 _ behind
    rw [onMsg_server hserver (by rw [hfin, length_buildFinished]; decide), serverMsg, if_neg (by simp), if_pos ⟨rfl, htype⟩,
      Prog.get_bind, Prog.require_bind hcheck, Prog.modify_apply, List.take_left]
  · have hside := side_hear c .handshake fin
    exact congrArg Side.setReady hside

end Server

lemma Hears.msgLoop_single (h : Hears cr env level msg c v) (hmsg : IsMessage msg) (hbuf : c.rxCrypto level = msg)
    (hparsed : c.rxCryptoParsed level = 0) (hv : v.rxCrypto level = msg ∧ v.rxCryptoParsed level = 0) :
    ∃ c', Quic.msgLoop cr env level msg.length c = (some (), c') ∧ c'.side = v.parsed level msg.length := by
  obtain ⟨n, hn⟩ : ∃ n, msg.length = n + 1 := ⟨msg.length - 1, by have := (hmsg.header []).1; omega⟩
  obtain ⟨c', hloop, hside⟩ := @Hears.msgLoop cr env c level msg v [] [] h hmsg (by rw [hbuf]; simp) hparsed n
  refine ⟨c', ?_, hside⟩
  rw [hn, hloop, msgLoop_nil]
  have hcrypto : c'.rxCrypto level = v.rxCrypto level := congrArg (Side.rxCrypto · level) hside
  have hcount : c'.rxCryptoParsed level = v.rxCryptoParsed level + msg.length :=
    (congrArg (Side.rxCryptoParsed · level) hside).trans (by simp [Side.parsed])
  rw [hcrypto, hcount, hv.1, hv.2, Nat.zero_add]

/-! ## The handshake -/

/-- A client before its first packet. -/
def Conn.client (cr : Crypto) (cid dcid x25519 : Bytes) : Conn :=
  { { Conn.new with localCid := cid, peerCid := dcid, origDcid := dcid }.installInitial cr with
    x25519 := x25519
    myPub := cr.publicKey x25519 }

/-- A server before the first packet. -/
def Conn.server (cr : Crypto) (dcid : Bytes) : Conn :=
  { Conn.new with isServer := true, localCid := dcid, origDcid := dcid }.installInitial cr

@[simp] lemma Conn.server_origDcid (cr : Crypto) (dcid : Bytes) : (Conn.server cr dcid).origDcid = dcid := rfl

@[simp] lemma Conn.server_transcript (cr : Crypto) (dcid : Bytes) : (Conn.server cr dcid).transcript = [] := rfl

/-- The first packet of a client. -/
lemma side_dial (hlaw : cr.Lawful) {ch : Bytes} (hch : ch = buildClientHello env.random (cr.publicKey env.x25519) env.cid)
    (hsend : env.sendto .initial 0 = true) (c₀ : Conn) :
    ∃ pkt pad c', dial cr env c₀ = (some (), c') ∧
      Carries cr env.peerCid env.cid ((Conn.client cr env.cid env.peerCid env.x25519).keys false .initial) .initial 0
        (flightText [] ch pad) pkt ∧
      c'.side = ((Conn.client cr env.cid env.peerCid env.x25519).side.hash ch).sent .initial pkt := by
  set cl := Conn.client cr env.cid env.peerCid env.x25519 with hcl
  obtain ⟨pkt, pad, c', hrun, hsent, hcarries⟩ := @sendCrypto_eq cr env (cl.hash ch) .initial ch [] .none (by decide) rfl
    env.length_peerCid env.length_cid rfl hsend hlaw.decrypt_encrypt 1200
    (by rw [hch, length_clientHello (cr.length_publicKey _) env.length_cid env.length_random]; decide) (.inr ⟨rfl, rfl⟩)
  refine ⟨pkt, pad, c', ?_, hcarries, hsent.side_eq⟩
  unfold dial
  rw [hch] at hrun
  exact hrun

/-- The server that gets the first packet of a client. -/
lemma acceptStart_eq {dcid scid plain : Bytes} {k : Keys} (h : Carries cr dcid scid k .initial 0 plain pkt) :
    acceptStart cr pkt = some (Conn.server cr dcid) := by
  have hsize := h.size
  unfold acceptStart
  rw [if_neg (by simp only [h.long, h.destLen, cidLen]; simp; omega)]
  simp only [h.dest]
  rfl

/-- A server before the messages it sends: it has accepted the ClientHello. -/
def Side.asked (cr : Crypto) (cid dcid pub ch : Bytes) : Side :=
  ((((Conn.server cr dcid).side.got .initial cid ch).setPeerPub pub).hear ch).setDone

/-- A server that has sent its ServerHello. -/
def Side.answered (cr : Crypto) (cid dcid pub ch x25519 sh shared : Bytes) : Side :=
  (((Side.asked cr cid dcid pub ch).setKey x25519).hash sh).deriveHandshake cr shared

lemma server_hears (hlaw : cr.Lawful) {cert : Cert} {cid dcid random pub ch sh ee crt shared : Bytes} {pad : ℕ} {v : Side}
    (hcert : env.cert = some cert) (hsigns : cert.Signs cr) (hcid : cid.length = cidLen) (hdcid : dcid.length = cidLen)
    (hrandom : random.length = 32) (hpub : pub.length = 32) (hch : ch = buildClientHello random pub cid)
    (hpkt : Carries cr dcid cid ((Conn.server cr dcid).keys false .initial) .initial 0 (flightText [] ch pad) pkt)
    (hdh : cr.dh env.x25519 pub = some shared) (hsend : ∀ level, env.sendto level 0 = true)
    (hsh : sh = buildServerHello env.random (cr.publicKey env.x25519)) (hee : ee = buildEncryptedExtensions dcid dcid)
    (hcrt : crt = buildCertificate cert.der) (hv : v = .answered cr cid dcid pub ch env.x25519 sh shared) :
    ∃ cv fin p₁ p₂ pad₁ pad₂ c', ingest cr env pkt (Conn.server cr dcid) = (some (), c') ∧
      buildCertVerify cr cert.key (cr.sha256 (v.transcript ++ [ee, crt]).flatten) = some cv ∧
      fin = buildFinished cr (v.keys true .handshake).secret (cr.sha256 (v.transcript ++ [ee, crt, cv]).flatten) ∧
      Carries cr cid dcid (v.keys true .initial) .initial 0 (flightText [0x02, 0, 0, 0, 0] sh pad₁) p₁ ∧
      Carries cr cid dcid (v.keys true .handshake) .handshake 0 (flightText [] (ee ++ crt ++ cv ++ fin) pad₂) p₂ ∧
      c'.side = (v.served cr ee crt cv fin p₁ p₂).parsed .initial ch.length := by
  have hlen : ch.length = 164 := by rw [hch, length_clientHello hpub hcid hrandom]
  obtain ⟨c₁, hgot, hingest⟩ := @ingest_flight cr env (Conn.server cr dcid) .initial ch pkt [] cid ⟨false, 0, 0⟩ pad
    (by decide) hpkt .none (by omega) rfl rfl
  have hside₁ := hgot.side_eq
  obtain ⟨c₂, hside₂, hhears⟩ := @hears_clientHello cr env c₁ (congrArg Side.isServer hside₁) random pub cid hrandom hpub hcid
    (congrArg Side.peerCid hside₁) (congrArg Side.chDone hside₁)
  replace hside₂ : c₂.side = .asked cr cid dcid pub ch := by rw [hside₂, hside₁, ← hch]; rfl
  have hpub₂ : c₂.peerPub = pub := congrArg Side.peerPub hside₂
  have hpeer₂ : c₂.peerCid = cid := congrArg Side.peerCid hside₂
  have hlocal₂ : c₂.localCid = dcid := congrArg Side.localCid hside₂
  have horig₂ : c₂.origDcid = dcid := congrArg Side.origDcid hside₂
  have hkeys₂ : c₂.keys = (Conn.server cr dcid).keys := congrArg Side.keys hside₂
  have hrx₂ : c₂.rxAck .initial = ⟨true, 0, 1⟩ := congrArg (Side.rxAck · .initial) hside₂
  obtain ⟨cv, fin, p₁, p₂, pad₁, pad₂, c₃, hrun, hcv, hfin, hp₁, hp₂, hside₃⟩ := @side_serverFlight cr env c₂
    [0x02, 0, 0, 0, 0] (congrArg Side.isServer hside₂) hlaw cert shared sh ee crt v hcert hsigns
    (congrArg Side.haveShared hside₂) (by rw [hpub₂, hdh]) hsh (by rw [hlocal₂, horig₂, hee]) hcrt (by rw [hkeys₂]; rfl)
    (by rw [hrx₂]; exact .first) (congrArg (Side.rxAck · .handshake) hside₂) (by rwa [hpeer₂]) (by rwa [hlocal₂])
    (by rwa [horig₂]) (congrFun (congrArg Side.txPn hside₂)) hsend (by rw [hv, hside₂]; rfl)
  rw [hpeer₂, hlocal₂] at hp₁ hp₂
  have hstart : c₂.keys true .initial = v.keys true .initial := by rw [hkeys₂, hv]; rfl
  rw [hstart] at hp₁
  have hmsg : IsMessage ch := isMessage_of_length (by rw [hch]; rfl) (by omega)
  have hears := hhears c₃ hrun
  rw [← hch, hside₃, hv] at hears
  obtain ⟨c₄, hloop, hside₄⟩ := hears.msgLoop_single hmsg (congrArg (Side.rxCrypto · .initial) hside₁)
    (congrArg (Side.rxCryptoParsed · .initial) hside₁) ⟨rfl, rfl⟩
  rw [← hv] at hside₄
  exact ⟨cv, fin, p₁, p₂, pad₁, pad₂, _, hingest c₄ hloop, hcv, hfin, hp₁, hp₂, hside₄⟩

/-- A client that has sent its ClientHello. -/
def Side.called (cr : Crypto) (cid dcid x25519 ch pkt : Bytes) : Side :=
  ((Conn.client cr cid dcid x25519).side.hash ch).sent .initial pkt

/-- A client that has accepted the ServerHello. -/
def Side.keyed (cr : Crypto) (cid dcid x25519 ch pkt pub sh shared : Bytes) : Side :=
  (((((Side.called cr cid dcid x25519 ch pkt).got .initial dcid sh).setPeerPub pub).hear sh).deriveHandshake cr shared).parsed
    .initial sh.length

lemma client_hears_hello {cid dcid x25519 ch p random pub sh shared : Bytes} {pad : ℕ} {r : RxAck}
    (hc : c.side = .called cr cid dcid x25519 ch p) (hrandom : random.length = 32) (hpub : pub.length = 32)
    (hsh : sh = buildServerHello random pub) (hack : FirstAck r ack)
    (hpkt : Carries cr cid dcid ((Conn.client cr cid dcid x25519).keys true .initial) .initial 0 (flightText ack sh pad) pkt)
    (hdh : cr.dh x25519 pub = some shared) :
    ∃ c', ingest cr env pkt c = (some (), c') ∧ c'.side = .keyed cr cid dcid x25519 ch p pub sh shared := by
  have hlen : sh.length = 90 := by rw [hsh, length_buildServerHello hrandom hpub]
  have hclient : c.isServer = false := congrArg Side.isServer hc
  have hcid : c.localCid = cid := congrArg Side.localCid hc
  have hkeys : c.keys = (Conn.client cr cid dcid x25519).keys := congrArg Side.keys hc
  obtain ⟨c₁, hgot, hingest⟩ := @ingest_flight cr env c .initial sh pkt ack dcid r pad (by decide)
    (by rw [hcid, hkeys, hclient]; exact hpkt) hack (by omega) (congrArg (Side.rxAck · .initial) hc)
    (congrArg (Side.rxCrypto · .initial) hc)
  have hside₁ := hgot.side_eq
  rw [hc] at hside₁
  have hx₁ : c₁.x25519 = x25519 := congrArg Side.x25519 hside₁
  have hears := @hears_serverHello cr env c₁ (congrArg Side.isServer hside₁) random pub shared hrandom hpub
    (congrArg Side.haveShared hside₁) (by rw [hx₁, hdh])
  rw [← hsh, hside₁] at hears
  obtain ⟨c₂, hloop, hside₂⟩ := hears.msgLoop_single (isMessage_of_length (by rw [hsh]; rfl) (by omega))
    (congrArg (Side.rxCrypto · .initial) hside₁) (congrArg (Side.rxCryptoParsed · .initial) hside₁) ⟨rfl, rfl⟩
  exact ⟨_, hingest c₂ hloop, hside₂⟩

/-- A client that waits for the messages of level `handshake`. -/
structure Side.Waits (v : Side) (cid dcid : Bytes) (ts : List Bytes) : Prop where
  client : v.isServer = false
  localCid : v.localCid = cid
  peerCid : v.peerCid = dcid
  origDcid : v.origDcid = dcid
  rxAck : v.rxAck .handshake = ⟨false, 0, 0⟩
  rxCrypto : v.rxCrypto .handshake = []
  rxCryptoParsed : v.rxCryptoParsed .handshake = 0
  transcript : v.transcript = ts
  txPn : v.txPn .handshake = 0
  unsent : v.clientFinSent = false
  installed : (v.keys false .handshake).installed = true

lemma waits_keyed (cr : Crypto) (cid dcid x25519 ch pkt pub sh shared : Bytes) :
    (Side.keyed cr cid dcid x25519 ch pkt pub sh shared).Waits cid dcid [ch, sh] := by
  constructor <;> rfl

/-- The client after the EncryptedExtensions. -/
def Side.extended (v : Side) (dcid ee crt cv fin : Bytes) : Side :=
  ((v.got .handshake dcid (ee ++ crt ++ cv ++ fin)).hear ee).parsed .handshake ee.length

/-- The client after the Certificate. -/
def Side.certified (v : Side) (dcid der ee crt cv fin : Bytes) : Side :=
  (((v.extended dcid ee crt cv fin).hear crt).setCert der).parsed .handshake crt.length

/-- The client after the CertificateVerify. -/
def Side.verified (v : Side) (dcid der ee crt cv fin : Bytes) : Side :=
  ((v.certified dcid der ee crt cv fin).hear cv).parsed .handshake cv.length

/-- The client after the Finished, to which it has answered with its own. -/
def Side.finished (v : Side) (cr : Crypto) (fin cfin pkt : Bytes) : Side :=
  ((((v.hear fin).deriveApp cr).hash cfin).sent .handshake pkt).setFinished.parsed .handshake fin.length

section Client

variable {cid dcid ee crt cv fin : Bytes} {ts : List Bytes} {cert : Cert} {n : ℕ}

lemma client_hears_ee (hv : v.Waits cid dcid ts) (hc : c.side = v.got .handshake dcid (ee ++ crt ++ cv ++ fin))
    (hdcid : dcid.length = cidLen) (hee : ee = buildEncryptedExtensions dcid dcid) :
    ∃ c', msgLoop cr env .handshake (n + 1) c = msgLoop cr env .handshake n c' ∧
      c'.side = v.extended dcid ee crt cv fin := by
  have hlen : ee.length = 66 := by rw [hee, length_buildEncryptedExtensions, hdcid]; rfl
  have hpeer : c.peerCid = dcid := (congrArg Side.peerCid hc).trans (by simp [hv.client, hv.peerCid])
  have hears := @hears_ee cr env c ((congrArg Side.isServer hc).trans hv.client) dcid dcid hdcid hdcid hpeer
    ((congrArg Side.origDcid hc).trans hv.origDcid)
  rw [← hee, hc] at hears
  have hbuf : c.rxCrypto .handshake = [] ++ (ee ++ (crt ++ cv ++ fin)) :=
    (congrArg (Side.rxCrypto · .handshake) hc).trans (by simp)
  exact hears.msgLoop (isMessage_of_length (by rw [hee]; rfl) (by omega)) hbuf
    ((congrArg (Side.rxCryptoParsed · .handshake) hc).trans hv.rxCryptoParsed) n

lemma client_hears_certificate (hv : v.Waits cid dcid ts) (hcrt : crt = buildCertificate cert.der)
    (hc : c.side = v.extended dcid ee crt cv fin) :
    ∃ c', msgLoop cr env .handshake (n + 1) c = msgLoop cr env .handshake n c' ∧
      c'.side = v.certified dcid cert.der ee crt cv fin := by
  have hlen : crt.length = 13 + cert.der.length := by rw [hcrt, length_buildCertificate]
  have hder := cert.le
  have hears := @hears_certificate cr env c ((congrArg Side.isServer hc).trans (by simp [Side.extended, hv.client])) cert.der cert.le
  rw [← hcrt, hc] at hears
  have hbuf : c.rxCrypto .handshake = ee ++ (crt ++ (cv ++ fin)) :=
    (congrArg (Side.rxCrypto · .handshake) hc).trans (by simp [Side.extended])
  have hparsed : c.rxCryptoParsed .handshake = ee.length :=
    (congrArg (Side.rxCryptoParsed · .handshake) hc).trans (by simp [Side.extended, hv.rxCryptoParsed])
  exact hears.msgLoop (isMessage_of_length (by rw [hcrt]; rfl) (by omega)) hbuf hparsed n

lemma client_hears_certVerify (hv : v.Waits cid dcid ts) (hsigns : cert.Signs cr)
    (hcv : buildCertVerify cr cert.key (cr.sha256 (ts ++ [ee, crt]).flatten) = some cv)
    (hc : c.side = v.certified dcid cert.der ee crt cv fin) :
    ∃ c', msgLoop cr env .handshake (n + 1) c = msgLoop cr env .handshake n c' ∧
      c'.side = v.verified dcid cert.der ee crt cv fin := by
  have hcvlen := length_buildCertVerify hcv
  have hmsg : IsMessage cv := by
    have hbuild := hcv
    simp only [buildCertVerify, Option.ite_none_left_eq_some, Option.some.injEq] at hbuild
    exact isMessage_of_length hbuild.2.symm (by omega)
  have htranscript : c.transcript = ts ++ [ee, crt] :=
    (congrArg Side.transcript hc).trans (by simp [Side.certified, Side.extended, hv.transcript])
  have hears := @hears_certVerify cr env c ((congrArg Side.isServer hc).trans
    (by simp [Side.certified, Side.extended, hv.client])) cert cv hsigns ((congrArg Side.certDer hc).trans (by simp [Side.certified]))
    (by rw [Conn.peek, htranscript, hcv])
  rw [hc] at hears
  have hbuf : c.rxCrypto .handshake = (ee ++ crt) ++ (cv ++ fin) :=
    (congrArg (Side.rxCrypto · .handshake) hc).trans (by simp [Side.certified, Side.extended])
  have hparsed : c.rxCryptoParsed .handshake = (ee ++ crt).length :=
    (congrArg (Side.rxCryptoParsed · .handshake) hc).trans (by simp [Side.certified, Side.extended, hv.rxCryptoParsed])
  exact hears.msgLoop hmsg hbuf hparsed n

lemma client_hears_finished (hlaw : cr.Lawful) (hv : v.Waits cid dcid ts) (hcid : cid.length = cidLen)
    (hdcid : dcid.length = cidLen)
    (hfin : fin = buildFinished cr (v.keys true .handshake).secret (cr.sha256 (ts ++ [ee, crt, cv]).flatten))
    (hsend : env.sendto .handshake 0 = true) (hc : c.side = v.verified dcid cert.der ee crt cv fin) :
    ∃ cfin q pad c', msgLoop cr env .handshake (n + 1) c = msgLoop cr env .handshake n c' ∧
      cfin = buildFinished cr (v.keys false .handshake).secret (cr.sha256 (ts ++ [ee, crt, cv, fin]).flatten) ∧
      Carries cr dcid cid (v.keys false .handshake) .handshake 0 (flightText [0x02, 0, 0, 0, 0] cfin pad) q ∧
      c'.side = (v.verified dcid cert.der ee crt cv fin).finished cr fin cfin q := by
  have hfinlen : fin.length = 36 := by rw [hfin, length_buildFinished]
  have hclient : c.isServer = false :=
    (congrArg Side.isServer hc).trans (by simp [Side.verified, Side.certified, Side.extended, hv.client])
  have hkeys : c.keys true .handshake = v.keys true .handshake := (congrArg (Side.keys · true .handshake) hc).trans
    (by simp [Side.verified, Side.certified, Side.extended])
  have htranscript : c.transcript = ts ++ [ee, crt, cv] :=
    (congrArg Side.transcript hc).trans (by simp [Side.verified, Side.certified, Side.extended, hv.transcript])
  obtain ⟨c₁, happ, hside₁⟩ := @side_deriveApp cr (c.hear .handshake fin)
  rw [side_hear, hc] at hside₁
  have hkeys₁ (fromServer : Bool) : c₁.keys fromServer .handshake = v.keys fromServer .handshake :=
    (congrArg (Side.keys · fromServer .handshake) hside₁).trans
      (by simp [Side.deriveApp, Side.verified, Side.certified, Side.extended])
  have hpeer₁ : c₁.peerCid = dcid := (congrArg Side.peerCid hside₁).trans
    (by simp [Side.deriveApp, Side.verified, Side.certified, Side.extended, hv.client, hv.peerCid])
  have hlocal₁ : c₁.localCid = cid := (congrArg Side.localCid hside₁).trans
    (by simp [Side.deriveApp, Side.verified, Side.certified, Side.extended, hv.localCid])
  have hrx₁ : c₁.rxAck .handshake = ⟨true, 0, 1⟩ := (congrArg (Side.rxAck · .handshake) hside₁).trans
    (by simp [Side.deriveApp, Side.verified, Side.certified, Side.extended])
  have htranscript₁ : c₁.transcript = ts ++ [ee, crt, cv, fin] := (congrArg Side.transcript hside₁).trans
    (by simp [Side.deriveApp, Side.verified, Side.certified, Side.extended, hv.transcript])
  have hclient₁ : c₁.isServer = false := (congrArg Side.isServer hside₁).trans
    (by simp [Side.deriveApp, Side.verified, Side.certified, Side.extended, hv.client])
  have hunsent₁ : c₁.clientFinSent = false := (congrArg Side.clientFinSent hside₁).trans
    (by simp [Side.deriveApp, Side.verified, Side.certified, Side.extended, hv.unsent])
  have hpn₁ : c₁.txPn .handshake = 0 := (congrArg (Side.txPn · .handshake) hside₁).trans
    (by simp [Side.deriveApp, Side.verified, Side.certified, Side.extended, hv.txPn])
  obtain ⟨q, pad, c₂, hrun, hq, hside₂⟩ := @side_clientFinish cr env c₁ [0x02, 0, 0, 0, 0]
    hclient₁ hlaw _ rfl hunsent₁
    (by rw [hkeys₁]; exact hv.installed) (by rw [hrx₁]; exact .first) (by rwa [hpeer₁]) (by rwa [hlocal₁])
    hpn₁ hsend
  rw [hkeys₁, Conn.peek, htranscript₁, hpeer₁, hlocal₁] at hq
  rw [hkeys₁, Conn.peek, htranscript₁, hside₁] at hside₂
  have hears := hears_finished hclient (by rw [hkeys, Conn.peek, htranscript, hfin]) happ hrun
  rw [hside₂] at hears
  have hbuf : c.rxCrypto .handshake = (ee ++ crt ++ cv) ++ (fin ++ []) :=
    (congrArg (Side.rxCrypto · .handshake) hc).trans (by simp [Side.verified, Side.certified, Side.extended])
  have hparsed : c.rxCryptoParsed .handshake = (ee ++ crt ++ cv).length :=
    (congrArg (Side.rxCryptoParsed · .handshake) hc).trans
      (by simp [Side.verified, Side.certified, Side.extended, hv.rxCryptoParsed]; omega)
  obtain ⟨c₃, hloop, hside₃⟩ := hears.msgLoop (isMessage_of_length (by rw [hfin]; rfl) (by omega)) hbuf hparsed n
  exact ⟨_, q, pad, c₃, hloop, rfl, hq, hside₃⟩

/-- A client accepts the flight of its server at level `handshake`. -/
lemma client_hears_flight (hlaw : cr.Lawful) {pad : ℕ} (hv : v.Waits cid dcid ts) (hc : c.side = v)
    (hcid : cid.length = cidLen) (hdcid : dcid.length = cidLen) (hsigns : cert.Signs cr)
    (hee : ee = buildEncryptedExtensions dcid dcid) (hcrt : crt = buildCertificate cert.der)
    (hcv : buildCertVerify cr cert.key (cr.sha256 (ts ++ [ee, crt]).flatten) = some cv)
    (hfin : fin = buildFinished cr (v.keys true .handshake).secret (cr.sha256 (ts ++ [ee, crt, cv]).flatten))
    (hpkt : Carries cr cid dcid (v.keys true .handshake) .handshake 0 (flightText [] (ee ++ crt ++ cv ++ fin) pad) pkt)
    (hsend : env.sendto .handshake 0 = true) :
    ∃ cfin q pad' c', ingest cr env pkt c = (some (), c') ∧
      cfin = buildFinished cr (v.keys false .handshake).secret (cr.sha256 (ts ++ [ee, crt, cv, fin]).flatten) ∧
      Carries cr dcid cid (v.keys false .handshake) .handshake 0 (flightText [0x02, 0, 0, 0, 0] cfin pad') q ∧
      c'.side = (v.verified dcid cert.der ee crt cv fin).finished cr fin cfin q := by
  have hder := cert.le
  have hcid8 : cidLen = 8 := rfl
  have hlen : (ee ++ crt ++ cv ++ fin).length = 115 + cert.der.length + cv.length := by
    simp only [List.length_append, hee, hcrt, hfin, length_buildEncryptedExtensions, length_buildCertificate,
      length_buildFinished]
    omega
  have hcvlen := length_buildCertVerify hcv
  obtain ⟨n, hn⟩ : ∃ n, (ee ++ crt ++ cv ++ fin).length = n + 1 + 1 + 1 + 1 :=
    ⟨(ee ++ crt ++ cv ++ fin).length - 4, by omega⟩
  have hclient : c.isServer = false := (congrArg Side.isServer hc).trans hv.client
  have hlocal : c.localCid = cid := (congrArg Side.localCid hc).trans hv.localCid
  have hkeys : c.keys = v.keys := congrArg Side.keys hc
  obtain ⟨c₁, hgot, hingest⟩ := @ingest_flight cr env c .handshake (ee ++ crt ++ cv ++ fin) pkt [] dcid ⟨false, 0, 0⟩ pad
    (by decide) (by rw [hlocal, hkeys, hclient]; exact hpkt) .none (by omega)
    ((congrArg (Side.rxAck · .handshake) hc).trans hv.rxAck) ((congrArg (Side.rxCrypto · .handshake) hc).trans hv.rxCrypto)
  have hside₁ := hgot.side_eq
  rw [hc] at hside₁
  obtain ⟨c₂, hloop₁, hside₂⟩ := @client_hears_ee cr env c₁ v cid dcid ee crt cv fin ts (n + 1 + 1 + 1) hv hside₁ hdcid hee
  obtain ⟨c₃, hloop₂, hside₃⟩ := @client_hears_certificate cr env c₂ v cid dcid ee crt cv fin ts cert (n + 1 + 1) hv hcrt hside₂
  obtain ⟨c₄, hloop₃, hside₄⟩ := @client_hears_certVerify cr env c₃ v cid dcid ee crt cv fin ts cert (n + 1) hv hsigns hcv hside₃
  obtain ⟨cfin, q, pad', c₅, hloop₄, hcfin, hq, hside₅⟩ := @client_hears_finished cr env c₄ v cid dcid ee crt cv fin ts cert n
    hlaw hv hcid hdcid hfin hsend hside₄
  have hnil : msgLoop cr env .handshake n c₅ = (some (), c₅) := by
    refine msgLoop_nil ?_ n
    have hbuf : c₅.rxCrypto .handshake = ee ++ crt ++ cv ++ fin := (congrArg (Side.rxCrypto · .handshake) hside₅).trans
      (by simp [Side.finished, Side.deriveApp, Side.verified, Side.certified, Side.extended])
    have hparsed : c₅.rxCryptoParsed .handshake = ee.length + crt.length + cv.length + fin.length :=
      (congrArg (Side.rxCryptoParsed · .handshake) hside₅).trans
        (by simp [Side.finished, Side.deriveApp, Side.verified, Side.certified, Side.extended, hv.rxCryptoParsed])
    rw [hbuf, hparsed]
    simp only [List.length_append]
  have hloop : msgLoop cr env .handshake (ee ++ crt ++ cv ++ fin).length c₁ = (some (), c₅) := by
    rw [hn, hloop₁, hloop₂, hloop₃, hloop₄, hnil]
  exact ⟨cfin, q, pad', _, hingest c₅ hloop, hcfin, hq, hside₅⟩

end Client

/-- A server accepts the Finished of its client. -/
lemma server_hears_finished {cid dcid fin : Bytes} {pad : ℕ} (hserver : v.isServer = true) (hc : c.side = v)
    (hlocal : v.localCid = dcid) (hrx : v.rxAck .handshake = ⟨false, 0, 0⟩) (hbuf : v.rxCrypto .handshake = [])
    (hparsed : v.rxCryptoParsed .handshake = 0)
    (hfin : fin = buildFinished cr (v.keys false .handshake).secret (cr.sha256 v.transcript.flatten))
    (hpkt : Carries cr dcid cid (v.keys false .handshake) .handshake 0 (flightText [0x02, 0, 0, 0, 0] fin pad) pkt) :
    ∃ c', ingest cr env pkt c = (some (), c') ∧
      c'.side = ((v.got .handshake cid fin).hear fin).setReady.parsed .handshake fin.length := by
  have hlen : fin.length = 36 := by rw [hfin, length_buildFinished]
  have hserver' : c.isServer = true := (congrArg Side.isServer hc).trans hserver
  have hlocal' : c.localCid = dcid := (congrArg Side.localCid hc).trans hlocal
  have hkeys : c.keys = v.keys := congrArg Side.keys hc
  obtain ⟨c₁, hgot, hingest⟩ := @ingest_flight cr env c .handshake fin pkt [0x02, 0, 0, 0, 0] cid ⟨true, 0, 1⟩ pad (by decide)
    (by rw [hlocal', hkeys, hserver']; exact hpkt) .first (by omega) ((congrArg (Side.rxAck · .handshake) hc).trans hrx)
    ((congrArg (Side.rxCrypto · .handshake) hc).trans hbuf)
  have hside₁ := hgot.side_eq
  rw [hc] at hside₁
  have hkeys₁ : c₁.keys = v.keys := congrArg Side.keys hside₁
  have htranscript₁ : c₁.transcript = v.transcript := congrArg Side.transcript hside₁
  have hears := @hears_clientFinished cr env c₁ ((congrArg Side.isServer hside₁).trans hserver) fin
    (by rw [hkeys₁, Conn.peek, htranscript₁, hfin])
  rw [hside₁] at hears
  obtain ⟨c₂, hloop, hside₂⟩ := hears.msgLoop_single (isMessage_of_length (by rw [hfin]; rfl) (by omega))
    ((congrArg (Side.rxCrypto · .handshake) hside₁).trans (by simp))
    ((congrArg (Side.rxCryptoParsed · .handshake) hside₁).trans hparsed) ⟨by simp, by simp [hparsed]⟩
  exact ⟨_, hingest c₂ hloop, hside₂⟩

/-! ## Both sides -/

/-- The keys that follow from the connection id, the shared secret and the transcripts at the points of derivation. -/
def Crypto.schedule (cr : Crypto) (dcid shared : Bytes) (hs app : List Bytes) (fromServer : Bool) : Level → Keys
  | .initial => (Conn.server cr dcid).keys fromServer .initial
  | .handshake => cr.install (cr.expandLabel (cr.hsSecret shared) (if fromServer then "s hs traffic" else "c hs traffic")
      (cr.sha256 hs.flatten) 32)
  | .app => cr.install (cr.expandLabel (cr.extract zeros (cr.expandLabel (cr.hsSecret shared) "derived" emptyHash 32))
      (if fromServer then "s ap traffic" else "c ap traffic") (cr.sha256 app.flatten) 32)

section Both

variable {cid dcid x25519 x25519' ch pkt pkt' pub pub' sh shared der ee crt cv fin cfin : Bytes}

/-- What both sides have after the hello messages. -/
lemma answered_keyed (cid x25519 x25519' pkt pub pub' : Bytes) :
    (Side.answered cr cid dcid pub ch x25519 sh shared).transcript = [ch, sh] ∧
      ∀ fromServer, (Side.keyed cr cid dcid x25519' ch pkt pub' sh shared).keys fromServer .handshake =
        (Side.answered cr cid dcid pub ch x25519 sh shared).keys fromServer .handshake := by
  have hclient : (Conn.client cr cid dcid x25519').transcript = [] := rfl
  constructor
  · simp [Side.answered, Side.asked, Side.deriveHandshake]
  · simp [Side.answered, Side.asked, Side.keyed, Side.called, Side.deriveHandshake, hclient]

/-- What the server has when it waits for the Finished. -/
lemma served_waits {v : Side}
    (hv : v = ((Side.answered cr cid dcid pub ch x25519 sh shared).served cr ee crt cv fin pkt pkt').parsed .initial ch.length) :
    v.isServer = true ∧ v.localCid = dcid ∧ v.rxAck .handshake = ⟨false, 0, 0⟩ ∧ v.rxCrypto .handshake = [] ∧
      v.rxCryptoParsed .handshake = 0 ∧ v.transcript = [ch, sh, ee, crt, cv, fin] ∧ v.datagrams = [pkt, pkt'] ∧
      v.keys false .handshake = (Side.answered cr cid dcid pub ch x25519 sh shared).keys false .handshake := by
  have hserver : (Conn.server cr dcid).isServer = true ∧ (Conn.server cr dcid).localCid = dcid ∧
      (Conn.server cr dcid).rxAck .handshake = ⟨false, 0, 0⟩ ∧ (Conn.server cr dcid).rxCrypto .handshake = [] ∧
      (Conn.server cr dcid).rxCryptoParsed .handshake = 0 ∧ (Conn.server cr dcid).transcript = [] ∧
      (Conn.server cr dcid).datagrams = [] := ⟨rfl, rfl, rfl, rfl, rfl, rfl, rfl⟩
  rw [hv]
  simp [Side.served, Side.deriveApp, Side.answered, Side.asked, Side.deriveHandshake, hserver]

/-- What the client has in the end. -/
lemma client_ends (hc : c.side = ((Side.keyed cr cid dcid x25519 ch pkt pub sh shared).verified dcid der ee crt cv
    fin).finished cr fin cfin pkt') :
    c.appReady = true ∧ c.transcript = [ch, sh, ee, crt, cv, fin, cfin] ∧
      c.hist.points = [[ch, sh], [ch, sh, ee, crt, cv, fin]] ∧ c.side.heard = [sh, ee, crt, cv, fin] ∧
      c.datagrams = [pkt, pkt'] ∧ c.keys = cr.schedule dcid shared [ch, sh] [ch, sh, ee, crt, cv, fin] := by
  have htranscript : (Conn.client cr cid dcid x25519).transcript = [] := rfl
  have hhist : (Conn.client cr cid dcid x25519).hist = ⟨[], [], [], [], [], [], .init, [], []⟩ := rfl
  have hkeys : (Conn.client cr cid dcid x25519).keys = (Conn.server cr dcid).keys := rfl
  refine ⟨(congrArg Side.appReady hc).trans ?_, (congrArg Side.transcript hc).trans ?_, (congrArg Side.points hc).trans ?_,
    (congrArg Side.heard hc).trans ?_, (congrArg Side.datagrams hc).trans ?_, (congrArg Side.keys hc).trans ?_⟩
  case refine_6 =>
    funext fromServer level
    cases level <;> simp [Side.finished, Side.deriveApp, Side.verified, Side.certified, Side.extended, Side.keyed,
      Side.deriveHandshake, Side.called, htranscript, hkeys, Crypto.schedule]
  all_goals
    simp [Side.finished, Side.deriveApp, Side.verified, Side.certified, Side.extended, Side.keyed, Side.deriveHandshake,
      Side.called, htranscript, hhist, Conn.datagrams]

/-- What the server has in the end. -/
lemma server_ends (hc : c.side = (((((Side.answered cr cid dcid pub ch x25519 sh shared).served cr ee crt cv fin pkt
    pkt').parsed .initial ch.length).got .handshake cid cfin).hear cfin).setReady.parsed .handshake cfin.length) :
    c.appReady = true ∧ c.transcript = [ch, sh, ee, crt, cv, fin, cfin] ∧
      c.hist.points = [[ch, sh], [ch, sh, ee, crt, cv, fin]] ∧ c.side.heard = [ch, cfin] ∧
      c.keys = cr.schedule dcid shared [ch, sh] [ch, sh, ee, crt, cv, fin] := by
  have hhist : (Conn.server cr dcid).hist = ⟨[], [], [], [], [], [], .init, [], []⟩ := rfl
  refine ⟨(congrArg Side.appReady hc).trans ?_, (congrArg Side.transcript hc).trans ?_, (congrArg Side.points hc).trans ?_,
    (congrArg Side.heard hc).trans ?_, (congrArg Side.keys hc).trans ?_⟩
  case refine_5 =>
    funext fromServer level
    cases level <;> simp [Side.served, Side.deriveApp, Side.answered, Side.asked, Side.deriveHandshake, Crypto.schedule]
  all_goals
    simp [Side.served, Side.deriveApp, Side.answered, Side.asked, Side.deriveHandshake, hhist]

end Both

/-- The flights of a handshake are delivered without loss and in order: the first packet of a client, both packets of the
server, and the Finished.  The calls have the environments `ec` and `es`, and afterwards `e₁`, `e₂` and `e₃`. -/
def Delivered (cr : Crypto) (ec es e₁ e₂ e₃ : Env) (client server : Conn) : Prop :=
  ∃ c₁ c₂ s₀ s₁ d₁ d₂ d₃ d₄, dial cr ec .new = (some (), c₁) ∧ c₁.datagrams = [d₁] ∧
    acceptStart cr d₁ = some s₀ ∧ ingest cr es d₁ s₀ = (some (), s₁) ∧ s₁.datagrams = [d₂, d₃] ∧
    ingest cr e₁ d₂ c₁ = (some (), c₂) ∧ ingest cr e₂ d₃ c₂ = (some (), client) ∧ client.datagrams = [d₁, d₄] ∧
    ingest cr e₃ d₄ s₁ = (some (), server)

theorem handshake_agrees (hlaw : cr.Lawful) {ec es e₁ e₂ e₃ : Env} {cert : Cert} (hcert : es.cert = some cert)
    (hsigns : cert.Signs cr) (hc : ec.sendto .initial 0 = true) (hs : ∀ level, es.sendto level 0 = true)
    (hf : e₂.sendto .handshake 0 = true) :
    ∃ client server, Delivered cr ec es e₁ e₂ e₃ client server ∧ client.appReady = true ∧ server.appReady = true ∧
      (∃ ch sh ee crt cv fin cfin,
        ch = buildClientHello ec.random (cr.publicKey ec.x25519) ec.cid ∧
        sh = buildServerHello es.random (cr.publicKey es.x25519) ∧
        ee = buildEncryptedExtensions server.localCid server.origDcid ∧ crt = buildCertificate cert.der ∧
        buildCertVerify cr cert.key (cr.sha256 [ch, sh, ee, crt].flatten) = some cv ∧
        fin = buildFinished cr (server.keys true .handshake).secret (cr.sha256 [ch, sh, ee, crt, cv].flatten) ∧
        cfin = buildFinished cr (client.keys false .handshake).secret (cr.sha256 [ch, sh, ee, crt, cv, fin].flatten) ∧
        server.hist.heard.map (·.msg) = [ch, cfin] ∧ client.hist.heard.map (·.msg) = [sh, ee, crt, cv, fin] ∧
        server.transcript = [ch, sh, ee, crt, cv, fin, cfin] ∧ client.transcript = [ch, sh, ee, crt, cv, fin, cfin] ∧
        server.hist.points = [[ch, sh], [ch, sh, ee, crt, cv, fin]]) ∧
      client.hist.points = server.hist.points ∧
      ∀ fromServer level, client.keys fromServer level = server.keys fromServer level ∧
        (server.keys fromServer level).installed = true := by
  obtain ⟨shared, hdh⟩ := Option.isSome_iff_exists.1 (hlaw.dh_isSome ec.x25519 es.x25519)
  have hdh' : cr.dh es.x25519 (cr.publicKey ec.x25519) = some shared := by rw [hlaw.dh_comm, hdh]
  -- the client calls
  obtain ⟨d₁, pad₁, c₁, hdial, hd₁, hc₁⟩ := side_dial hlaw rfl hc .new
  set ch := buildClientHello ec.random (cr.publicKey ec.x25519) ec.cid with hch
  set sh := buildServerHello es.random (cr.publicKey es.x25519) with hsh
  -- the server answers
  obtain ⟨cv, fin, d₂, d₃, pad₂, pad₃, s₁, hserver, hcv, hfin, hd₂, hd₃, hs₁⟩ := @server_hears cr es d₁ hlaw cert ec.cid
    ec.peerCid ec.random (cr.publicKey ec.x25519) ch sh _ _ shared pad₁ _ hcert hsigns ec.length_cid ec.length_peerCid
    ec.length_random (cr.length_publicKey _) hch hd₁ hdh' hs hsh rfl rfl rfl
  -- the client accepts both packets
  obtain ⟨c₂, hclient₂, hc₂⟩ := @client_hears_hello cr e₁ c₁ d₂ [0x02, 0, 0, 0, 0] ec.cid ec.peerCid ec.x25519 ch d₁ es.random
    (cr.publicKey es.x25519) sh shared pad₂ _ hc₁ es.length_random (cr.length_publicKey _) hsh .first hd₂ hdh
  obtain ⟨htranscript, hkeys⟩ := @answered_keyed cr ec.peerCid ch sh shared ec.cid es.x25519 ec.x25519 d₁
    (cr.publicKey ec.x25519) (cr.publicKey es.x25519)
  rw [htranscript] at hcv hfin
  rw [← hkeys] at hfin hd₃
  obtain ⟨cfin, d₄, pad₄, client, hclient, hcfin, hd₄, hcl⟩ := @client_hears_flight cr e₂ c₂ d₃ _ ec.cid ec.peerCid _ _ cv fin
    [ch, sh] cert hlaw pad₃ (waits_keyed cr _ _ _ _ _ _ _ _) hc₂ ec.length_cid ec.length_peerCid hsigns rfl rfl hcv hfin hd₃ hf
  -- the server accepts the Finished
  rw [hkeys] at hcfin hd₄
  obtain ⟨hserver₁, hlocal₁, hrx₁, hbuf₁, hparsed₁, htranscript₁, hdatagrams₁, hkeys₁⟩ := served_waits rfl
  obtain ⟨server, hfinished, hsv⟩ := @server_hears_finished cr e₃ s₁ d₄ _ ec.cid ec.peerCid cfin pad₄ hserver₁ hs₁ hlocal₁
    hrx₁ hbuf₁ hparsed₁ (by rw [hkeys₁, htranscript₁, hcfin]; rfl) (by rwa [hkeys₁])
  obtain ⟨hready, htr, hpoints, hheard, hdatagrams, hschedule⟩ := client_ends hcl
  obtain ⟨hready', htr', hpoints', hheard', hschedule'⟩ := server_ends hsv
  have hlocal : server.localCid = ec.peerCid := (congrArg Side.localCid hsv).trans hlocal₁
  have horig : server.origDcid = ec.peerCid := (congrArg Side.origDcid hsv).trans
    (by simp [Side.served, Side.deriveApp, Side.answered, Side.asked, Side.deriveHandshake])
  have hdatagrams' : c₁.datagrams = [d₁] := (congrArg Side.datagrams hc₁).trans rfl
  have hsecret (fromServer : Bool) : (Side.answered cr ec.cid ec.peerCid (cr.publicKey ec.x25519) ch es.x25519 sh
      shared).keys fromServer .handshake = server.keys fromServer .handshake := by
    rw [hschedule', Crypto.schedule]
    simp [Side.answered, Side.asked, Side.deriveHandshake]
  refine ⟨client, server, ⟨c₁, c₂, _, s₁, d₁, d₂, d₃, d₄, hdial, hdatagrams', acceptStart_eq hd₁, hserver,
    (congrArg Side.datagrams hs₁).trans hdatagrams₁, hclient₂, hclient, hdatagrams, hfinished⟩, hready, hready',
    ⟨ch, sh, _, _, cv, fin, cfin, hch, hsh, by rw [hlocal, horig], rfl, hcv, ?_, ?_, hheard', hheard, htr', htr, hpoints'⟩,
    by rw [hpoints, hpoints'], fun fromServer level => ⟨by rw [hschedule, hschedule'], ?_⟩⟩
  · rw [hfin, hkeys, hsecret]
    rfl
  · rw [hcfin, hschedule, ← hschedule', hsecret]
    rfl
  · rw [hschedule']
    cases level <;> cases fromServer <;> rfl

lemma lawful_plain : Crypto.plain.Lawful := ⟨fun _ _ => rfl, fun _ _ => rfl, fun _ _ _ _ => rfl⟩

lemma signs_plain (cert : Cert) : cert.Signs .plain := ⟨zeros, rfl, fun _ => ⟨List.length_replicate, rfl⟩⟩

theorem handshake_agrees_plain : ∃ client server, Delivered .plain .plain .plain .plain .plain .plain client server ∧
    client.appReady = true ∧ server.appReady = true ∧ client.keys true .app = server.keys true .app := by
  obtain ⟨client, server, hdelivered, hclient, hserver, -, -, hkeys⟩ := @handshake_agrees .plain lawful_plain .plain .plain
    .plain .plain .plain ⟨zeros, [0], by decide, by decide⟩ rfl (signs_plain _) rfl (fun _ => rfl) rfl
  exact ⟨client, server, hdelivered, hclient, hserver, (hkeys true .app).1⟩

end Suspenders.Quic
