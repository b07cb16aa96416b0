import Suspenders.Quic.Endpoint

/-!
# What a call does to a connection

Most of what an endpoint does is about the handshake and leaves the packet numbers, the stream, the acknowledgements
and the flights alone (`Conn.watched`).  A property of these is kept by everything that is received as soon as it is kept by
the few things that do touch them (`Steady`).
-/

namespace Suspenders.Quic

open Lib Prog

variable {cr : Crypto} {env : Env} {P : Conn → Prop} {c c' : Conn}

/-- What a connection is besides its handshake. -/
structure Watched where
  isServer : Bool
  localCid : Bytes
  origDcid : Bytes
  chDone : Bool
  clientFinSent : Bool
  txPn : Level → ℕ
  rxAck : Level → RxAck
  rxCrypto : Level → Bytes
  rxCryptoParsed : Level → ℕ
  stream : Stream
  flight : Level → Flight
  sent : List Packet
  acked : List Packet
  acks : List (Level × ℕ × ℕ)
  processed : List (Level × ℕ)
  appStream : Stream
  encryptions : List (Level × Keys × ℕ)
  parsed : List (Level × ℕ)

/-- Neither the phase, the packets, the stream nor the acknowledgements. -/
def Conn.watched (c : Conn) : Watched where
  isServer := c.isServer
  localCid := c.localCid
  origDcid := c.origDcid
  chDone := c.chDone
  clientFinSent := c.clientFinSent
  txPn := c.txPn
  rxAck := c.rxAck
  rxCrypto := c.rxCrypto
  rxCryptoParsed := c.rxCryptoParsed
  stream := c.stream
  flight := c.flight
  sent := c.hist.sent
  acked := c.hist.acked
  acks := c.hist.acks
  processed := c.hist.processed
  appStream := c.hist.appStream
  encryptions := c.hist.encryptions
  parsed := c.hist.parsed

/-- What an endpoint has said and heard in its handshake. -/
structure Talk where
  isServer : Bool
  appReady : Bool
  chDone : Bool
  clientFinSent : Bool
  peerCid : Bytes
  origDcid : Bytes
  transcript : List Bytes
  certDer : Bytes
  heard : List Heard

/-- Neither its keys nor its packets. -/
def Conn.talk (c : Conn) : Talk where
  isServer := c.isServer
  appReady := c.appReady
  chDone := c.chDone
  clientFinSent := c.clientFinSent
  peerCid := c.peerCid
  origDcid := c.origDcid
  transcript := c.transcript
  certDer := c.certDer
  heard := c.hist.heard

/-- `P` looks at nothing else but these two. -/
def Respects (P : Conn → Prop) : Prop := ∀ c c', c'.watched = c.watched → c'.talk = c.talk → P c → P c'

/-- `P` looks at nothing but what is watched. -/
def Watches (P : Conn → Prop) : Prop := ∀ c c', c'.watched = c.watched → P c → P c'

/-- `P` looks at nothing but the talk. -/
def Listens (P : Conn → Prop) : Prop := ∀ c c', c'.talk = c.talk → P c → P c'

lemma Watches.respects (hP : Watches P) : Respects P := fun c c' hw _ hc => hP c c' hw hc

lemma Listens.respects (hP : Listens P) : Respects P := fun c c' _ ht hc => hP c c' ht hc

lemma watched_learn (c : Conn) (pkt : Bytes) : (c.learn pkt).watched = c.watched := by
  unfold Conn.learn
  split <;> rfl

/-! ## Parsing and deriving -/

lemma watched_setKeys (c : Conn) (fromServer : Bool) (level : Level) (k : Keys) :
    (c.setKeys fromServer level k).watched = c.watched := rfl

lemma talk_setKeys (c : Conn) (fromServer : Bool) (level : Level) (k : Keys) :
    (c.setKeys fromServer level k).talk = c.talk := rfl

lemma watched_point (c : Conn) : c.point.watched = c.watched := rfl

lemma talk_point (c : Conn) : c.point.talk = c.talk := rfl

lemma watched_trafficKeys (c : Conn) (level : Level) (secret th : Bytes) (client server : String) :
    (c.trafficKeys cr level secret th client server).point.watched = c.watched := by
  rw [watched_point, Conn.trafficKeys, watched_setKeys, watched_setKeys]

lemma talk_trafficKeys (c : Conn) (level : Level) (secret th : Bytes) (client server : String) :
    (c.trafficKeys cr level secret th client server).point.talk = c.talk := by
  rw [talk_point, Conn.trafficKeys, talk_setKeys, talk_setKeys]

namespace Respects

variable (hP : Respects P)

include hP

lemma modify {f : Conn → Conn} (hw : ∀ c, (f c).watched = c.watched) (ht : ∀ c, (f c).talk = c.talk) :
    Keeps P (Prog.modify f) :=
  Keeps.modify fun c hc => hP c (f c) (hw c) (ht c) hc

lemma modify_bind {β : Type} {f : Conn → Conn} {g : Unit → Prog Conn β} (hw : ∀ c, (f c).watched = c.watched)
    (ht : ∀ c, (f c).talk = c.talk) (hg : Keeps P (g ())) : Keeps P (Prog.modify f >>= g) :=
  (hP.modify hw ht).bind fun _ => hg

lemma takeParams (fromServer : Bool) (p : Bytes) : Keeps P (Conn.takeParams fromServer p) := by
  unfold Conn.takeParams
  refine Keeps.get_bind fun c _ => hP.modify_bind (fun _ => rfl) (fun _ => rfl) ?_
  exact Keeps.require.bind fun _ => hP.modify (fun _ => rfl) fun _ => rfl

lemma parseClientHello (msg : Bytes) (len : ℕ) : Keeps P (parseClientHello msg len) := by
  unfold Quic.parseClientHello
  refine (Keeps.ofOption _).bind fun exts => (Keeps.ofOption _).bind fun ks => ?_
  refine hP.modify_bind (fun _ => rfl) (fun _ => rfl) ?_
  exact (Keeps.ofOption _).bind fun params => hP.takeParams false params

lemma parseServerHello (msg : Bytes) (len : ℕ) : Keeps P (parseServerHello msg len) := by
  unfold Quic.parseServerHello
  refine (Keeps.ofOption _).bind fun exts => (Keeps.ofOption _).bind fun ks => ?_
  exact hP.modify (fun _ => rfl) fun _ => rfl

lemma parseEe (msg : Bytes) (len : ℕ) : Keeps P (parseEe msg len) := by
  unfold Quic.parseEe
  exact (Keeps.ofOption _).bind fun params => hP.takeParams true params

lemma deriveHandshake : Keeps P (deriveHandshake cr) := by
  unfold Quic.deriveHandshake deriveShared
  refine (Keeps.get_bind fun c _ => ?_).bind fun _ => ?_
  · refine Keeps.ite (fun _ => Keeps.pure ()) fun _ => (Keeps.ofOption _).bind fun shared => ?_
    exact hP.modify (fun _ => rfl) fun _ => rfl
  · refine hP.modify_bind (fun _ => rfl) (fun _ => rfl) (Keeps.modify fun c hc => ?_)
    exact hP c _ (watched_trafficKeys c _ _ _ _ _) (talk_trafficKeys c _ _ _ _ _) hc

lemma deriveApp : Keeps P (deriveApp cr) :=
  Keeps.modify fun c hc => hP c _ (watched_trafficKeys c _ _ _ _ _) (talk_trafficKeys c _ _ _ _ _) hc

end Respects

namespace Watches

variable (hP : Watches P)

include hP

lemma modify {f : Conn → Conn} (hf : ∀ c, (f c).watched = c.watched) : Keeps P (Prog.modify f) :=
  Keeps.modify fun c hc => hP c (f c) (hf c) hc

lemma modify_bind {β : Type} {f : Conn → Conn} {g : Unit → Prog Conn β} (hf : ∀ c, (f c).watched = c.watched)
    (hg : Keeps P (g ())) : Keeps P (Prog.modify f >>= g) :=
  (hP.modify hf).bind fun _ => hg

lemma hash (msg : Bytes) : Keeps P (Prog.modify (·.hash msg)) := hP.modify fun _ => rfl

lemma hear (level : Level) (msg : Bytes) : Keeps P (Prog.modify (·.hear level msg)) := hP.modify fun _ => rfl

end Watches

/-! ## Sending -/

lemma varintSize_le (v : ℕ) : varintSize v ≤ 8 := by
  unfold varintSize
  split_ifs <;> omega

/-- The length of an ACK frame. -/
lemma length_encode {r : RxAck} {cap : ℕ} {ack : Bytes} (h : r.encode cap = some ack) : ack.length ≤ 33 := by
  unfold RxAck.encode at h
  split at h
  · cases h
    simp
  · simp only [putVarint, Option.bind_eq_bind, Option.bind_eq_some_iff, Option.ite_none_left_eq_some,
      Option.some.injEq] at h
    obtain ⟨_, ⟨-, rfl⟩, _, ⟨-, rfl⟩, _, ⟨-, rfl⟩, _, ⟨-, rfl⟩, rfl⟩ := h
    have h₁ := varintSize_le r.max
    have h₂ := varintSize_le 0
    have h₃ := varintSize_le r.first
    simp only [List.length_cons, List.length_append, length_varint]
    omega

section Sending

variable {P₁ P₂ P₃ E : Conn → Prop} {level : Level}

/-- A packet of a level draws a number, and is encrypted with it. -/
inductive Draws (level : Level) (c : Conn) : (Level → ℕ) → List (Level × Keys × ℕ) → Prop
  | number : Draws level c (Function.update c.txPn level (c.txPn level + 1)) c.hist.encryptions
  | encryption (k : Keys) :
      Draws level c (Function.update c.txPn level (c.txPn level + 1)) (c.hist.encryptions ++ [(level, k, c.txPn level)])

/-- A packet takes a number, and is recorded when it is sent. -/
lemma sendFrames_spec {frames : Bytes} {retransmit : Bool} {padTo : ℕ} (hE : ∀ c, P₁ c → E c)
    (hpn : ∀ c txPn es, Draws level c txPn es → P₁ c →
      P₁ { c with txPn := txPn, hist := { c.hist with encryptions := es } })
    (hrecord : ∀ c pn now datagram, P₁ c → P₂ (c.record level pn frames retransmit now datagram)) :
    Spec P₁ (sendFrames cr env level frames retransmit padTo) (fun _ => P₂) E := by
  unfold sendFrames
  refine Spec.get_bind fun c => ?_
  have hnum {c' : Conn} (hc' : c' = { c with txPn := Function.update c.txPn level (c.txPn level + 1) } ∧ P₁ c) :
      P₁ c' := hc'.1 ▸ hpn c _ _ .number hc'.2
  have hstart (c' : Conn) (hc' : c' = c ∧ P₁ c) : E c' := hE c' (hc'.1 ▸ hc'.2)
  refine (Keeps.require.spec hstart).bind fun _ => Spec.modify_bind
    (T := fun c' => c' = { c with txPn := Function.update c.txPn level (c.txPn level + 1) } ∧ P₁ c) ?_ ?_
  · rintro _ ⟨rfl, hc⟩
    exact ⟨rfl, hc⟩
  refine (Keeps.require.spec fun c' hc' => hE c' (hnum hc')).bind fun _ => ?_
  refine ((Keeps.ofOption _).spec fun c' hc' => hE c' (hnum hc')).bind fun datagram => Spec.modify_bind ?_ <|
    (Keeps.require.spec hE).bind fun _ => Spec.modify fun c' hc' => hrecord c' _ _ _ hc'
  rintro _ ⟨rfl, hc⟩
  exact hpn c _ _ (.encryption _) hc

lemma encodeAck_spec {cap : ℕ} (hE : ∀ c, P₁ c → E c) (hack : ∀ c, P₁ c → P₁ (c.ackEncoded level)) :
    Spec P₁ (encodeAck level cap) (fun ack c => P₁ c ∧ ack.length ≤ 33) E := by
  unfold encodeAck
  refine Spec.get_bind_of fun c _ => Spec.ofOption_bind (fun ack henc => ?_) hE
  refine Spec.modify_bind (T := P₁) (fun c hc => ?_) (Spec.pure fun c hc => ⟨hc, length_encode henc⟩)
  split
  · exact hc
  · exact hack c hc

lemma sendCrypto_spec {msg : Bytes} {padTo : ℕ} (hE : ∀ c, P₁ c → E c)
    (hpn : ∀ c txPn es, Draws level c txPn es → P₁ c →
      P₁ { c with txPn := txPn, hist := { c.hist with encryptions := es } })
    (hack : ∀ c, P₁ c → P₁ (c.ackEncoded level))
    (hrecord : ∀ c pn frames now datagram, P₁ c → frames.length ≤ 43 + msg.length →
      P₂ (c.record level pn frames true now datagram)) :
    Spec P₁ (sendCrypto cr env level msg 0 padTo) (fun _ => P₂) E := by
  unfold sendCrypto
  refine (encodeAck_spec hE hack).bind fun ack => ?_
  have hE' (c : Conn) (hc : P₁ c ∧ ack.length ≤ 33) : E c := hE c hc.1
  refine (Keeps.require.spec hE').bind fun _ => sendFrames_spec hE'
    (fun c txPn es h hc => ⟨hpn c txPn es h hc.1, hc.2⟩) ?_
  refine fun c pn now datagram hc => hrecord c pn _ now datagram hc.1 ?_
  have hsize := varintSize_le msg.length
  have hlen := hc.2
  simp only [List.length_append, cryptoFrame, List.length_cons, length_varint]
  rw [show varintSize 0 = 1 from rfl]
  omega

lemma length_buildServerHello {random myPub : Bytes} (hrandom : random.length = 32) (hpub : myPub.length = 32) :
    (buildServerHello random myPub).length = 90 := by
  simp [buildServerHello, message, ext, hrandom, hpub]

lemma length_buildEncryptedExtensions (localCid origDcid : Bytes) :
    (buildEncryptedExtensions localCid origDcid).length = 50 + localCid.length + origDcid.length := by
  simp [buildEncryptedExtensions, message, ext, putParams, intParam, cidParam, length_varint, varintSize, flow, ascii,
    cidLen]
  omega

lemma length_buildCertificate (der : Bytes) : (buildCertificate der).length = 13 + der.length := by
  simp [buildCertificate, message]
  omega

lemma length_buildCertVerify {key th cv : Bytes} (h : buildCertVerify cr key th = some cv) : cv.length ≤ 200 := by
  simp only [buildCertVerify, Option.ite_none_left_eq_some, Option.some.injEq] at h
  obtain ⟨hle, rfl⟩ := h
  simp only [message, List.length_append, List.length_cons, length_toBytes, List.length_nil]
  omega

lemma length_buildFinished (secret th : Bytes) : (buildFinished cr secret th).length = 36 := by
  simp [buildFinished, message, finishedMac, cr.length_hmac]

/-- A server sends two flights: one at level `initial`, and one at level `handshake`. -/
lemma serverFlight_spec (hw₁ : Watches P₁) (hw₂ : Watches P₂) (hE₁ : ∀ c, P₁ c → E c) (hE₂ : ∀ c, P₂ c → E c)
    (h₁ : ∀ sh, sh.length = 90 → Spec P₁ (sendCrypto cr env .initial sh 0 0) (fun _ => P₂) E)
    (h₂ : ∀ hs c, P₁ c → hs.length ≤ 1067 + c.localCid.length + c.origDcid.length →
      Spec P₂ (sendCrypto cr env .handshake hs 0 0) (fun _ => P₃) E) :
    Spec P₁ (serverFlight cr env) (fun _ => P₃) E := by
  unfold serverFlight
  refine ((Keeps.ofOption env.cert).spec hE₁).bind fun cert => ?_
  -- the public key is in the ServerHello
  refine Spec.modify_bind (T := fun c => P₁ c ∧ c.myPub.length = 32)
    (fun c hc => ⟨hw₁ c _ rfl hc, cr.length_publicKey _⟩) ?_
  refine Spec.get_bind_of fun c hc => Spec.modify_bind (fun c hc => hw₁ c _ rfl hc.1) ?_
  refine (hw₁.respects.deriveHandshake.spec hE₁).bind fun _ => ?_
  refine (h₁ _ (length_buildServerHello env.length_random hc.2)).bind fun _ => ?_
  refine Spec.modify_bind (fun c hc => hw₂ c _ rfl hc) (Spec.get_bind_of fun c₁ _ => ?_)
  refine Spec.bind (Q := fun cv c => P₂ c ∧ cv.length ≤ 200)
    (Spec.ofOption (fun cv c hcv hc => ⟨hc, length_buildCertVerify hcv⟩) fun c _ hc => hE₂ c hc) fun cv => ?_
  refine Spec.modify_bind (T := fun c => P₂ c ∧ cv.length ≤ 200) (fun c hc => ⟨hw₂ c _ rfl hc.1, hc.2⟩) ?_
  refine Spec.get_bind_of fun c₂ hc₂ => ?_
  refine Spec.bind (Q := fun _ => P₂) (Spec.require (fun c _ hc => hc.1) fun c _ hc => hE₂ c hc.1) fun _ => ?_
  refine Spec.modify_bind (fun c hc => hw₂ c _ rfl hc) <| (hw₂.respects.deriveApp.spec hE₂).bind fun _ => h₂ _ c hc.1 ?_
  have hcv := hc₂.2
  have hder := cert.le
  simp only [List.length_append, length_buildEncryptedExtensions, length_buildCertificate, length_buildFinished]
  omega

end Sending

/-- `P` is kept when packets are sent. -/
structure Sends (P : Conn → Prop) : Prop where
  numbers : ∀ level c txPn es, Draws level c txPn es → P c →
    P { c with txPn := txPn, hist := { c.hist with encryptions := es } }
  offset : ∀ c txOff, P c → P { c with txOff := txOff }
  ackEncoded : ∀ c level, P c → P (c.ackEncoded level)
  record : ∀ c level pn frames retransmit now datagram, P c → P (c.record level pn frames retransmit now datagram)
  flight : ∀ c flight, P c → P { c with flight := flight }

namespace Sends

variable (hP : Sends P)

include hP

lemma sendFrames (level : Level) (frames : Bytes) (retransmit : Bool) (padTo : ℕ) :
    Keeps P (sendFrames cr env level frames retransmit padTo) :=
  sendFrames_spec (fun _ hc => hc) (hP.numbers level) fun c pn now datagram hc =>
    hP.record c level pn frames retransmit now datagram hc

lemma encodeAck (level : Level) (cap : ℕ) : Keeps P (encodeAck level cap) :=
  (encodeAck_spec (fun _ hc => hc) fun c hc => hP.ackEncoded c level hc).mono (fun _ hc => hc) (fun _ _ hc => hc.1)
    fun _ hc => hc

lemma sendCrypto (level : Level) (msg : Bytes) (padTo : ℕ) : Keeps P (sendCrypto cr env level msg 0 padTo) :=
  sendCrypto_spec (fun _ hc => hc) (hP.numbers level) (fun c hc => hP.ackEncoded c level hc)
    fun c pn frames now datagram hc _ => hP.record c level pn frames true now datagram hc

lemma retransmit : Keeps P (retransmit cr env) := by
  have hlevel (level : Level) : Keeps P (retransmitLevel cr env level) := by
    unfold retransmitLevel
    refine Keeps.get_bind fun c _ => Keeps.ite (fun _ => Keeps.pure ()) fun _ => Keeps.ite (fun _ => ?_) fun _ => ?_
    · exact Keeps.modify fun c hc => hP.flight c _ hc
    · exact Keeps.ite (fun _ => Keeps.pure ()) fun _ => hP.sendFrames level _ true _
  exact (hlevel .initial).bind fun _ => (hlevel .handshake).bind fun _ => hlevel .app

lemma handshakeDone : Keeps P (handshakeDone cr env) :=
  (hP.encodeAck .app 7).bind fun _ => hP.sendFrames .app _ false 0

lemma writeChunks (ds : List Bytes) : Keeps P (writeChunks cr env ds) := by
  induction ds with
  | nil => exact Keeps.pure ()
  | cons d ds ih =>
    refine Keeps.bind ?_ fun _ => ih
    unfold writeChunk
    refine Keeps.get_bind fun c _ => Keeps.require.bind fun _ => (hP.encodeAck .app 1200).bind fun ack => ?_
    exact (hP.sendFrames .app _ true 0).bind fun _ => Keeps.modify fun c hc => hP.offset c _ hc

lemma quicWrite (data : Bytes) : Keeps P (quicWrite cr env data) :=
  Keeps.get_bind fun _ _ => Keeps.require.bind fun _ => hP.writeChunks (chunks data)

end Sends

/-- The talk does not change when packets are sent. -/
lemma Listens.sends (hP : Listens P) : Sends P where
  numbers _ c _ _ _ hc := hP c _ rfl hc
  offset c _ hc := hP c _ rfl hc
  ackEncoded c level hc := by
    refine hP c _ ?_ hc
    unfold Conn.ackEncoded
    split <;> rfl
  record c _ _ _ _ _ _ hc := hP c _ rfl hc
  flight c _ hc := hP c _ rfl hc

/-- `P` is kept when packets are sent, also during the handshake. -/
structure Shakes (P : Conn → Prop) : Prop extends Sends P where
  watches : Watches P
  flags : ∀ c chDone clientFinSent, P c → P { c with chDone := chDone, clientFinSent := clientFinSent }

namespace Shakes

variable (hP : Shakes P)

include hP

lemma serverFlight : Keeps P (serverFlight cr env) :=
  serverFlight_spec hP.watches hP.watches (fun _ hc => hc) (fun _ hc => hc) (fun _ _ => hP.sendCrypto .initial _ 0)
    fun _ _ _ _ => hP.sendCrypto .handshake _ 0

lemma clientFinish : Keeps P (clientFinish cr env) := by
  unfold Quic.clientFinish
  refine Keeps.get_bind fun c _ => Keeps.ite (fun _ => Keeps.pure ()) fun _ => Keeps.require.bind fun _ => ?_
  refine (hP.watches.hash _).bind fun _ => (hP.sendCrypto .handshake _ 0).bind fun _ => ?_
  exact Keeps.modify fun c hc => hP.watches { c with clientFinSent := true } _ rfl (hP.flags c c.chDone true hc)

end Shakes

/-! ## Receiving -/

/-- `P` is kept when a packet is received, apart from its STREAM frames. -/
structure Steady (cr : Crypto) (env : Env) (P : Conn → Prop) : Prop where
  watches : Watches P
  applyAck : ∀ c level largest first, P c → P (c.applyAck level largest first)
  /-- A server accepts a ClientHello. -/
  hello : ∀ level msg, Spec (fun c => P c ∧ c.isServer = true ∧ c.chDone = false)
    (do
      Prog.modify fun c => { c.hear level msg with chDone := true }
      serverFlight cr env) (fun _ => P) P
  /-- A client accepts a Finished. -/
  finish : Spec (fun c => P c ∧ c.isServer = false) (clientFinish cr env) (fun _ => P) P

namespace Steady

variable (hP : Steady cr env P)

include hP

lemma clientMsg (level : Level) (msg : Bytes) (len : ℕ) :
    Spec (fun c => P c ∧ c.isServer = false) (clientMsg cr env level msg len) (fun _ => P) P := by
  have hw : Watches fun c => P c ∧ c.isServer = false := fun c c' hq hc =>
    ⟨hP.watches c c' hq hc.1, (congrArg Watched.isServer hq).trans hc.2⟩
  have hkeep {x : Prog Conn Unit} (hx : Keeps (fun c => P c ∧ c.isServer = false) x) :
      Spec (fun c => P c ∧ c.isServer = false) x (fun _ => P) P :=
    hx.mono (fun _ hc => hc) (fun _ _ hc => hc.1) fun _ hc => hc.1
  unfold Quic.clientMsg
  refine Spec.ite (fun _ => hkeep ?serverHello) fun _ => Spec.ite (fun _ => hkeep ?ee) fun _ => Spec.ite
    (fun _ => hkeep ?cert) fun _ => Spec.ite (fun _ => hkeep ?verify) fun _ => Spec.ite (fun _ => ?finished) fun _ =>
      hkeep Keeps.fail
  case serverHello =>
    exact (hw.respects.parseServerHello msg len).bind fun _ => (hw.hear level _).bind fun _ => hw.respects.deriveHandshake
  case ee => exact (hw.respects.parseEe msg len).bind fun _ => hw.hear level _
  case cert => exact (Keeps.ofOption _).bind fun der => hw.modify fun _ => rfl
  case verify => exact Keeps.get_bind fun c _ => Keeps.require.bind fun _ => hw.hear level _
  case finished =>
    refine Spec.get_bind_of fun c _ => (Keeps.require.spec fun _ hc => hc.1).bind fun _ => ?_
    refine ((hw.hear level _).spec fun _ hc => hc.1).bind fun _ => ?_
    exact (hw.respects.deriveApp.spec fun _ hc => hc.1).bind fun _ => hP.finish

lemma serverMsg (level : Level) (msg : Bytes) (len : ℕ) :
    Spec (fun c => P c ∧ c.isServer = true) (serverMsg cr env level msg len) (fun _ => P) P := by
  unfold Quic.serverMsg
  refine Spec.ite (fun _ => ?hello) fun _ => Spec.ite (fun _ => ?finished) fun _ => Spec.fail fun c hc => hc.1
  case hello =>
    refine Spec.get_bind fun c => Spec.ite (fun _ => Spec.pure fun c' hc' => hc'.1 ▸ hc'.2.1) fun hdone => ?_
    -- nothing is sent before the hello is parsed
    have hw : Watches fun c => P c ∧ c.isServer = true ∧ c.chDone = false := fun c c' hq hc =>
      ⟨hP.watches c c' hq hc.1, (congrArg Watched.isServer hq).trans hc.2.1, (congrArg Watched.chDone hq).trans hc.2.2⟩
    refine Spec.bind (Spec.mono (hw.respects.parseClientHello msg len) ?_ (fun _ _ hc => hc) fun _ hc => hc.1) fun _ =>
      hP.hello level (msg.take len)
    rintro _ ⟨rfl, hc, hserver⟩
    exact ⟨hc, hserver, by simpa using hdone⟩
  case finished =>
    refine Spec.get_bind fun c => Spec.mono ?_ (fun c' hc' => hc'.1 ▸ hc'.2.1) (fun _ _ hc => hc) fun _ hc => hc
    exact Keeps.require.bind fun _ => hP.watches.modify fun _ => rfl

lemma onMsg (level : Level) (msg : Bytes) (len : ℕ) : Keeps P (onMsg cr env level msg len) := by
  unfold Quic.onMsg
  refine Keeps.require.bind fun _ => Spec.get_bind fun c => Spec.ite (fun hserver => ?_) fun hclient => ?_
  · refine Spec.mono (hP.serverMsg level msg len) ?_ (fun _ _ hc => hc) fun _ hc => hc
    rintro _ ⟨rfl, hc⟩
    exact ⟨hc, hserver⟩
  · refine Spec.mono (hP.clientMsg level msg len) ?_ (fun _ _ hc => hc) fun _ hc => hc
    rintro _ ⟨rfl, hc⟩
    exact ⟨hc, by simpa using hclient⟩

end Steady

/-- What is kept when packets are sent is kept when they are received. -/
lemma Shakes.steady (hP : Shakes P) (hack : ∀ c level largest first, P c → P (c.applyAck level largest first)) :
    Steady cr env P where
  watches := hP.watches
  applyAck := hack
  hello level msg := by
    refine Spec.modify_bind (fun c hc => ?_) hP.serverFlight
    exact hP.watches { c with chDone := true } _ rfl (hP.flags c true c.clientFinSent hc.1)
  finish := hP.clientFinish.mono (fun _ hc => hc.1) (fun _ _ hc => hc) fun _ hc => hc

/-! ## Frames -/

/-- A packet of a level keeps `P`, and ends in `E` if it fails, apart from its STREAM frames. -/
structure Handles (cr : Crypto) (env : Env) (level : Level) (P E : Conn → Prop) : Prop where
  fails : ∀ c, P c → E c
  crypto : ∀ c rxCrypto rxCryptoParsed, P c → P { c with rxCrypto := rxCrypto, rxCryptoParsed := rxCryptoParsed }
  closed : ∀ c, P c → P { c with closed := true }
  applyAck : ∀ c largest first, P c → P (c.applyAck level largest first)
  msg : ∀ msg len, len ≤ msg.length → Spec P (onMsg cr env level msg len) (fun _ => P) E

lemma Steady.handles (hP : Steady cr env P)
    (hcrypto : ∀ c rxCrypto rxCryptoParsed, P c → P { c with rxCrypto := rxCrypto, rxCryptoParsed := rxCryptoParsed })
    (level : Level) : Handles cr env level P P where
  fails _ hc := hc
  crypto := hcrypto
  closed c hc := hP.watches c _ rfl hc
  applyAck c largest first hc := hP.applyAck c level largest first hc
  msg msg len _ := hP.onMsg level msg len

namespace Handles

variable {E : Conn → Prop} {level : Level} (hP : Handles cr env level P E)

include hP

lemma msgLoop (n : ℕ) : Spec P (msgLoop cr env level n) (fun _ => P) E := by
  induction n with
  | zero => exact Spec.pure fun _ hc => hc
  | succ n ih =>
    unfold Quic.msgLoop
    refine Spec.get_bind_of fun c _ => Spec.ite (fun _ => Spec.pure fun _ hc => hc) fun _ => ?_
    refine Spec.ite (fun _ => Spec.pure fun _ hc => hc) fun hlen => (hP.msg _ _ ?_).bind fun _ => ?_
    · simp only [List.length_append]
      omega
    · exact Spec.modify_bind (fun c hc => hP.crypto c _ _ hc) ih

lemma cryptoInput (offset : ℕ) (data : Bytes) : Spec P (cryptoInput cr env level offset data) (fun _ => P) E := by
  unfold Quic.cryptoInput
  refine Spec.ite (fun _ => Spec.pure fun _ hc => hc) fun _ => (Keeps.require.spec hP.fails).bind fun _ => ?_
  refine Spec.get_bind_of fun c _ => Spec.ite (fun _ => ?_) fun _ => Spec.ite (fun _ => ?_) fun _ => ?_
  · exact Spec.modify_bind (fun c hc => hP.crypto c _ _ hc) (hP.msgLoop _)
  · exact Spec.pure fun _ hc => hc
  · exact Spec.fail hP.fails

lemma ackFrame (t : UInt8) (p : Bytes) : Spec P (ackFrame level t p) (fun _ => P) E := by
  unfold Quic.ackFrame
  refine Spec.ofOption_bind (fun (largest, p) _ => Spec.ofOption_bind (fun (_, p) _ => ?_) hP.fails) hP.fails
  refine Spec.ofOption_bind (fun (count, p) _ => Spec.ofOption_bind (fun (first, p) _ => ?_) hP.fails) hP.fails
  refine Spec.modify_bind (fun c hc => hP.applyAck c largest first hc) ?_
  exact Spec.ofOption_bind (fun p _ => (Keeps.ofOption _).spec hP.fails) hP.fails

lemma onCrypto (p : Bytes) : Spec P (onCrypto cr env level p) (fun _ => P) E := by
  unfold Quic.onCrypto
  refine Spec.ofOption_bind (fun (offset, p) _ => Spec.ofOption_bind (fun (len, p) _ => ?_) hP.fails) hP.fails
  refine (Keeps.require.spec hP.fails).bind fun _ => (hP.cryptoInput offset _).bind fun _ => ?_
  exact Spec.pure fun _ hc => hc

/-- All frames but STREAM frames. -/
lemma frame (t : UInt8) (p : Bytes) (hs : t &&& 0xf8 = 0x08 → Spec P (streamFrame env level t p) (fun _ => P) E) :
    Spec P (frame cr env level t p) (fun _ => P) E := by
  have hmap {x : Prog Conn Bytes} (hx : Spec P x (fun _ => P) E) : Spec P (some <$> x) (fun _ => P) E :=
    hx.bind fun _ => Spec.pure fun _ hc => hc
  unfold Quic.frame
  refine Spec.ite (fun _ => Spec.pure fun _ hc => hc) fun _ => Spec.ite (fun _ => hmap (hP.ackFrame t p)) fun _ => ?_
  refine Spec.ite (fun _ => hmap (hP.onCrypto p)) fun _ => Spec.ite (fun ht => hmap (hs ht)) fun _ => ?_
  refine Spec.ite (fun _ => Spec.modify_bind (fun c hc => hP.closed c hc) ?_) fun _ => Spec.fail hP.fails
  exact Spec.pure fun _ hc => hc

end Handles

/-- What comes behind a frame of type `t`, by the lengths in it; nothing if it is malformed or the last one. -/
def frameRest (t : UInt8) (p : Bytes) : Option Bytes :=
  if t = 0x00 ∨ t = 0x01 ∨ t = 0x1e then some p
  else if t = 0x02 ∨ t = 0x03 then do
    let (_, p) ← getVarint p
    let (_, p) ← getVarint p
    let (count, p) ← getVarint p
    let (_, p) ← getVarint p
    let p ← skipVarints (2 * count) p
    if t = 0x03 then skipVarints 3 p else some p
  else if t = 0x06 then do
    let (_, p) ← getVarint p
    let (len, p) ← getVarint p
    if p.length < len then none else some (p.drop len)
  else if t &&& 0xf8 = 0x08 then (streamFields t p).map fun f => f.2.2.2
  else none

/-- What is left after a frame is what its lengths say. -/
lemma frame_rest (level : Level) (t : UInt8) (p : Bytes) :
    Spec (fun _ => True) (frame cr env level t p) (fun o _ => ∀ rest, o = some rest → frameRest t p = some rest)
      fun _ => True := by
  have hmap {x : Prog Conn Bytes} {o : Option Bytes}
      (hx : Spec (fun _ => True) x (fun rest _ => o = some rest) fun _ => True) :
      Spec (fun _ => True) (some <$> x) (fun o' _ => ∀ rest, o' = some rest → o = some rest) fun _ => True :=
    hx.bind fun rest => Spec.pure fun _ h _ h' => (Option.some.inj h') ▸ h
  unfold frame frameRest
  refine Spec.ite (fun h => ?pad) fun h₁ => Spec.ite (fun h => ?ack) fun h₂ => Spec.ite (fun h => ?crypto) fun h₃ =>
    Spec.ite (fun h => ?stream) fun h₄ => Spec.ite (fun h => ?close) fun h₅ => Spec.fail fun _ _ => trivial
  case pad =>
    rw [if_pos h]
    exact Spec.pure fun _ _ _ h => h
  case ack =>
    rw [if_neg h₁, if_pos h]
    refine hmap (Spec.ofOption_bind (fun (_, p₁) h₁ => Spec.ofOption_bind (fun (_, p₂) h₂ => ?_) ?_) ?_)
    · refine Spec.ofOption_bind (fun (count, p₃) h₃ => Spec.ofOption_bind (fun (_, p₄) h₄ => ?_) ?_) ?_
      · refine Spec.modify_bind (T := fun _ => True) (fun _ _ => trivial) ?_
        refine Spec.ofOption_bind (fun p₅ h₅ => Spec.ofOption (fun rest _ h₆ _ => ?_) fun _ _ _ => trivial) ?_
        · simp only [h₁, h₂, h₃, h₄, h₅, Option.bind_eq_bind, Option.bind_some]
          exact h₆
        all_goals exact fun _ _ => trivial
      all_goals exact fun _ _ => trivial
    all_goals exact fun _ _ => trivial
  case crypto =>
    rw [if_neg h₁, if_neg h₂, if_pos h]
    refine hmap (Spec.ofOption_bind (fun (_, p₁) h₁ => Spec.ofOption_bind (fun (len, p₂) h₂ => ?_) ?_) ?_)
    · refine Spec.bind (Q := fun _ _ => len ≤ p₂.length) (Spec.require (fun _ h _ => h) fun _ _ _ => trivial) fun _ => ?_
      refine Spec.bind (Spec.const (len ≤ p₂.length) _) fun _ => Spec.pure fun _ hlen => ?_
      simp only [h₁, h₂, Option.bind_eq_bind, Option.bind_some, if_neg (Nat.not_lt.2 hlen)]
    all_goals exact fun _ _ => trivial
  case stream =>
    rw [if_neg h₁, if_neg h₂, if_neg h₃, if_pos h]
    refine hmap (Spec.ofOption_bind (fun (sid, offset, data, rest) hf => ?_) fun _ _ => trivial)
    refine Spec.ite (fun _ => (Spec.const True _).bind fun _ => Spec.pure fun _ _ => ?_) fun _ => Spec.pure fun _ _ => ?_
    all_goals rw [hf, Option.map_some]
  case close =>
    exact Spec.modify_bind (T := fun _ => True) (fun _ _ => trivial) (Spec.pure fun _ _ _ h => nomatch h)

/-- What is kept by each frame of a text is kept by the text.  `R n p` says what is known of the rest `p`. -/
lemma parseFrames_spec {E : Conn → Prop} {level : Level} {R : ℕ → Bytes → Prop}
    (hframe : ∀ n t p, R (n + 1) (t :: p) → Spec P (frame cr env level t p) (fun _ => P) E)
    (hrest : ∀ n t p rest, R (n + 1) (t :: p) → frameRest t p = some rest → R n rest) (n : ℕ) (plain : Bytes)
    (hR : R n plain) : Spec P (parseFrames cr env level n plain) (fun _ => P) E := by
  induction n generalizing plain with
  | zero => exact Spec.pure fun _ hc => hc
  | succ n ih =>
    cases plain with
    | nil => exact Spec.pure fun _ hc => hc
    | cons t p =>
      rw [parseFrames]
      refine Spec.bind (Q := fun o c => P c ∧ ∀ rest, o = some rest → frameRest t p = some rest)
        (Spec.and (hframe n t p hR) (frame_rest level t p)) fun o => ?_
      cases o with
      | none => exact Spec.pure fun _ hc => hc.1
      | some rest =>
        intro c hc
        exact ih rest (hrest n t p rest hR (hc.2 rest rfl)) c hc.1

/-- All frames of a text, where the stream does not matter. -/
lemma Handles.parseFrames {E : Conn → Prop} {level : Level} (hP : Handles cr env level P E)
    (hstream : ∀ c stream appStream, P c → P { c with stream := stream, hist := { c.hist with appStream := appStream } })
    (n : ℕ) (plain : Bytes) : Spec P (parseFrames cr env level n plain) (fun _ => P) E := by
  refine parseFrames_spec (R := fun _ _ => True) (fun n t p _ => hP.frame t p fun _ => ?_) (fun _ _ _ _ _ _ => trivial) n
    plain trivial
  unfold streamFrame
  refine Spec.ofOption_bind (fun (sid, offset, data, rest) _ => Spec.ite (fun _ => ?_) fun _ => ?_) hP.fails
  · refine Spec.bind (Q := fun _ => P) ?_ fun _ => Spec.pure fun _ hc => hc
    exact (Spec.of_snd fun c hc => hstream c _ _ hc).mono (fun _ hc => hc) (fun _ _ hc => hc) hP.fails
  · exact Spec.pure fun _ hc => hc

/-! ## Datagrams -/

/-- A packet, where neither the stream nor the acknowledgements matter. -/
lemma Handles.acceptPacket {E : Conn → Prop} {level : Level} (hP : Handles cr env level P E)
    (hreceived : ∀ c rxAck stream appStream processed parsed, P c → P { c with
      rxAck := rxAck
      stream := stream
      hist := { c.hist with processed := processed, appStream := appStream, parsed := parsed } })
    (pn : ℕ) (plain : Bytes) : Spec P (acceptPacket cr env level pn plain) (fun _ => P) E := by
  unfold Quic.acceptPacket
  refine Spec.get_bind_of fun c _ => Spec.modify_bind (fun c hc => hreceived c _ _ _ _ _ hc) ?_
  refine Spec.ite (fun _ => Spec.pure fun _ hc => hc) fun _ => ?_
  refine (hP.parseFrames (fun c _ _ hc => hreceived c _ _ _ _ _ hc) _ plain).bind fun _ => ?_
  exact Spec.modify fun c hc => hreceived c _ _ _ _ _ hc

/-- `Q` of every packet of the datagram that is opened, in the state in which it is processed. -/
def EachPacket (cr : Crypto) (env : Env) (Q : Conn → Level → ℕ → Bytes → Prop) : ℕ → Bytes → Conn → Prop
  | 0, _, _ => True
  | n + 1, buf, c => buf ≠ [] → ∀ o ∈ opened cr c buf,
      Q (c.learn buf) o.1.level o.2.1 o.2.2 ∧
      ((acceptPacket cr env o.1.level o.2.1 o.2.2 (c.learn buf)).1.isSome = true → isLong buf = true →
        EachPacket cr env Q n (buf.drop o.1.consumed) (acceptPacket cr env o.1.level o.2.1 o.2.2 (c.learn buf)).2)

instance decidableEachPacket (Q : Conn → Level → ℕ → Bytes → Prop) [∀ c level pn plain, Decidable (Q c level pn plain)] :
    ∀ n buf c, Decidable (EachPacket cr env Q n buf c)
  | 0, _, _ => isTrue trivial
  | n + 1, buf, c =>
    haveI (buf : Bytes) (c : Conn) : Decidable (EachPacket cr env Q n buf c) :=
      decidableEachPacket Q n buf c
    inferInstanceAs (Decidable (buf ≠ [] → ∀ o ∈ opened cr c buf, _ ∧ (_ → _ → _)))

lemma openPacket_of_none {pkt : Bytes} (h : opened cr c pkt = none) :
    openPacket cr env pkt c = (some none, c.learn pkt) := by
  simp only [openPacket, get_bind, modify_bind, h]
  rfl

lemma openPacket_of_some {pkt plain : Bytes} {hd : Header} {pn : ℕ} (h : opened cr c pkt = some (hd, pn, plain)) :
    openPacket cr env pkt c = (acceptPacket cr env hd.level pn plain >>= fun _ => pure (some hd.consumed)) (c.learn pkt) := by
  simp only [openPacket, get_bind, modify_bind, h]

/-- What each packet keeps, a datagram keeps. -/
lemma ingestLoop_keeps {Q : Conn → Level → ℕ → Bytes → Prop} (hP : Watches P)
    (hQ : ∀ c level pn plain, P c → Q c level pn plain → P (acceptPacket cr env level pn plain c).2) (n : ℕ)
    (buf : Bytes) (c : Conn) (hc : P c) (hbuf : EachPacket cr env Q n buf c) : P (ingestLoop cr env n buf c).2 := by
  induction n generalizing buf c with
  | zero => exact hc
  | succ n ih =>
    have hlearn : P (c.learn buf) := hP c _ (watched_learn c buf) hc
    unfold ingestLoop
    split
    next => exact hc
    next hne =>
      rw [bind_apply]
      cases ho : opened cr c buf with
      | none =>
        rw [openPacket_of_none ho]
        simp only [get_bind]
        split
        · exact hlearn
        · exact hlearn
      | some o =>
        obtain ⟨hd, pn, plain⟩ := o
        obtain ⟨hq, hrest⟩ := hbuf hne _ ho
        have hacc := hQ _ hd.level pn plain hlearn hq
        rw [openPacket_of_some ho, bind_apply]
        cases ha : acceptPacket cr env hd.level pn plain (c.learn buf) with
        | mk r c' =>
          rw [ha] at hacc hrest
          cases r with
          | none => exact hacc
          | some _ =>
            simp only [pure_apply]
            split
            · exact hacc
            · split
              · exact hacc
              next hlong => exact ih _ c' hacc (hrest rfl (by simpa using hlong))

/-- What each packet that is opened keeps, a datagram keeps. -/
lemma ingest_spec {E : Conn → Prop} (hE : ∀ c, P c → E c) (hlearn : ∀ c pkt, P c → P (c.learn pkt))
    (haccept : ∀ c pkt hd pn plain, opened cr c pkt = some (hd, pn, plain) → P (c.learn pkt) →
      Spec (fun c' => c' = c.learn pkt) (acceptPacket cr env hd.level pn plain) (fun _ => P) E) (buf : Bytes) :
    Spec P (ingest cr env buf) (fun _ => P) E := by
  have hloop (n : ℕ) (buf : Bytes) : Spec P (ingestLoop cr env n buf) (fun _ => P) E := by
    induction n generalizing buf with
    | zero => exact Spec.pure fun _ hc => hc
    | succ n ih =>
      unfold ingestLoop
      refine Spec.ite (fun _ => Spec.pure fun _ hc => hc) fun _ => Spec.bind (Q := fun _ => P) (fun c hc => ?_) fun o => ?_
      · cases ho : opened cr c buf with
        | none =>
          rw [openPacket_of_none ho]
          exact hlearn c buf hc
        | some o =>
          obtain ⟨hd, pn, plain⟩ := o
          rw [openPacket_of_some ho]
          exact (haccept c buf hd pn plain ho (hlearn c buf hc)).bind (fun _ => Spec.pure fun _ hc => hc) _ rfl
      · cases o with
        | none => exact Spec.get_bind_of fun c _ => Spec.ite (fun _ => Spec.fail hE) fun _ => Spec.pure fun _ hc => hc
        | some consumed =>
          refine Spec.ite (fun _ => Spec.fail hE) fun _ => Spec.ite (fun _ => Spec.pure fun _ hc => hc) fun _ => ih _
  exact hloop _ buf

/-! ## Events -/

/-- What an event does to a connection, unless that is then freed. -/
def Event.run (cr : Crypto) : Event → Prog Conn Unit
  | .datagram env buf => ingest cr env buf
  | .retransmit env => Quic.retransmit cr env
  | .done env => handshakeDone cr env
  | .write env data => quicWrite cr env data
  | .read len => modify (·.read len)

lemma step_run {o o' : Option Conn} {e : Event} (h : Step cr o e o') :
    ∃ c, o = some c ∧ ∀ c', o' = some c' → c' = (e.run cr c).2 := by
  cases h with
  | handshake _ _ =>
    refine ⟨_, rfl, fun c' hc' => ?_⟩
    split at hc'
    · exact (Option.some.inj hc').symm
    · cases hc'
  | handshakeRetransmit _ =>
    refine ⟨_, rfl, fun c' hc' => ?_⟩
    split at hc'
    · exact (Option.some.inj hc').symm
    · cases hc'
  | read _ _ _ _ => exact ⟨_, rfl, fun c' hc' => (Option.some.inj hc').symm⟩
  | retransmit _ => exact ⟨_, rfl, fun c' hc' => (Option.some.inj hc').symm⟩
  | done _ _ => exact ⟨_, rfl, fun c' hc' => (Option.some.inj hc').symm⟩
  | write => exact ⟨_, rfl, fun c' hc' => (Option.some.inj hc').symm⟩
  | copy _ => exact ⟨_, rfl, fun c' hc' => (Option.some.inj hc').symm⟩

/-- An error during the handshake frees the connection. -/
lemma step_datagram {o : Option Conn} {buf : Bytes} (h : Step cr o (.datagram env buf) (some c')) (ho : o = some c) :
    c' = (ingest cr env buf c).2 ∧ (c.appReady = false → (ingest cr env buf c).1.isSome = true) := by
  generalize he : some c' = o' at h
  cases h with
  | handshake _ _ =>
    cases ho
    split at he
    next hsome => exact ⟨Option.some.inj he, fun _ => hsome⟩
    next => cases he
  | read hready _ _ _ =>
    cases ho
    exact ⟨Option.some.inj he, fun h => (nomatch hready.symm.trans h)⟩

/-- What holds at the start and is kept by every event holds always. -/
lemma reachable_keeps {R : Option Conn → Event → Option Conn → Prop} (hR : ∀ o e o', R o e o' → Step cr o e o')
    (hrun : ∀ c e o, P c → R (some c) e o → P (e.run cr c).2) {c₀ : Conn} (h₀ : P c₀)
    (h : Reachable R (some c₀) (some c)) : P c := by
  obtain ⟨es, hes⟩ := h
  refine hes.invariant (I := fun o => ∀ c, o = some c → P c) ?_ (fun c hc => Option.some.inj hc ▸ h₀) c rfl
  intro o e o' hI hstep c' hc'
  obtain ⟨c, rfl, hc⟩ := step_run (hR o e o' hstep)
  exact hc c' hc' ▸ hrun c e o' (hI c rfl) hstep

/-- What has nothing to do with what is received is kept by every event. -/
lemma Shakes.run (hP : Shakes P) (hack : ∀ c level largest first, P c → P (c.applyAck level largest first))
    (hcrypto : ∀ c rxCrypto rxCryptoParsed, P c → P { c with rxCrypto := rxCrypto, rxCryptoParsed := rxCryptoParsed })
    (hreceived : ∀ c rxAck stream appStream processed parsed, P c → P { c with
      rxAck := rxAck
      stream := stream
      hist := { c.hist with processed := processed, appStream := appStream, parsed := parsed } })
    (e : Event) : Keeps P (e.run cr) := by
  cases e with
  | datagram env buf =>
    refine ingest_spec (fun _ hc => hc) (fun c pkt hc => hP.watches c _ (watched_learn c pkt) hc)
      (fun c pkt hd pn plain _ hc => ?_) buf
    exact (((hP.steady hack).handles hcrypto hd.level).acceptPacket hreceived pn plain).mono (fun _ h => h ▸ hc) (fun _ _ hc => hc)
      fun _ hc => hc
  | retransmit env => exact hP.retransmit
  | done env => exact hP.handshakeDone
  | write env data => exact hP.quicWrite data
  | read len => exact Keeps.modify fun c hc => hreceived c _ _ _ _ _ hc

/-- A client that has sent its first packet, or has failed to. -/
lemma Shakes.dial (hP : Shakes P)
    (hnew : ∀ isServer localCid peerCid origDcid, P { Conn.new with
      isServer := isServer, localCid := localCid, peerCid := peerCid, origDcid := origDcid }) :
    Spec (fun _ => True) (dial cr env) (fun _ => P) P := by
  unfold Quic.dial
  refine Spec.modify_bind (fun _ _ => hnew false env.cid env.peerCid env.peerCid) ?_
  refine Keeps.bind (hP.watches.modify fun _ => rfl) fun _ => hP.watches.modify_bind (fun _ => rfl) ?_
  refine Keeps.get_bind fun c _ => (hP.watches.hash _).bind fun _ => hP.sendCrypto .initial _ 1200

/-- What holds of a new connection holds at the start. -/
lemma Shakes.start (hP : Shakes P)
    (hnew : ∀ isServer localCid peerCid origDcid, P { Conn.new with
      isServer := isServer, localCid := localCid, peerCid := peerCid, origDcid := origDcid })
    (h : Start cr c) : P c := by
  cases h with
  | @client env c c₀ h =>
    exact (hP.dial hnew).of_some trivial h
  | @server buf c h =>
    unfold acceptStart at h
    split at h
    · cases h
    · cases h
      have hcid := hnew true ((buf.drop 6).take cidLen) Conn.new.peerCid ((buf.drop 6).take cidLen)
      refine hP.watches _ _ ?_ hcid
      rfl

end Suspenders.Quic
