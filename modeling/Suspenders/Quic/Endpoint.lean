import Suspenders.Lib.Run
import Suspenders.Quic.Message
import Suspenders.Quic.Packet

/-!
# Endpoints

What an endpoint does with the datagrams it receives, and the calls of its user.

`Step` is one event of the life of a connection.  During the handshake an error frees the connection; afterwards it
only makes `quic_read` fail.
-/

namespace Suspenders.Quic

open Lib Prog

variable (cr : Crypto) (env : Env)

/-! ## Keys -/

/-- `s_quic_install_initial` -/
def Conn.installInitial (c : Conn) : Conn :=
  let salt : Bytes := [0x38, 0x76, 0x2c, 0xf7, 0xf5, 0x59, 0x34, 0xb3, 0x4d, 0x17, 0x9a, 0xe6, 0xa4, 0xc8, 0x0c, 0xad,
    0xcc, 0xbb, 0x7f, 0x0a]
  let initial := cr.extract c.origDcid salt
  (c.setKeys false .initial (cr.install (cr.expandLabel initial "client in" [] 32))).setKeys true .initial
    (cr.install (cr.expandLabel initial "server in" [] 32))

/-- `s_quic_empty_hash` -/
def emptyHash : Bytes :=
  [0xe3, 0xb0, 0xc4, 0x42, 0x98, 0xfc, 0x1c, 0x14, 0x9a, 0xfb, 0xf4, 0xc8, 0x99, 0x6f, 0xb9, 0x24, 0x27, 0xae, 0x41,
    0xe4, 0x64, 0x9b, 0x93, 0x4c, 0xa4, 0x95, 0x99, 0x1b, 0x78, 0x52, 0xb8, 0x55]

/-- 32 bytes of zeros. -/
def zeros : Bytes := List.replicate 32 0

/-- `s_quic_derive_shared` -/
def deriveShared : Prog Conn Unit := do
  let c ← get
  if c.haveShared then pure ()
  else do
    let shared ← ofOption (cr.dh c.x25519 c.peerPub)
    modify fun c => { c with shared := shared, haveShared := true }

/-- The handshake secret of a shared secret. -/
def Crypto.hsSecret (shared : Bytes) : Bytes :=
  cr.extract shared (cr.expandLabel (cr.extract zeros zeros) "derived" emptyHash 32)

/-- The traffic keys of both directions. -/
def Conn.trafficKeys (c : Conn) (level : Level) (secret th : Bytes) (client server : String) : Conn :=
  (c.setKeys false level (cr.install (cr.expandLabel secret client th 32))).setKeys true level
    (cr.install (cr.expandLabel secret server th 32))

/-- The transcript is a point of derivation. -/
def Conn.point (c : Conn) : Conn := { c with hist := { c.hist with points := c.hist.points ++ [c.transcript] } }

/-- `s_quic_derive_handshake` -/
def deriveHandshake : Prog Conn Unit := do
  deriveShared cr
  modify fun c => { c with hsSecret := cr.hsSecret c.shared }
  modify fun c => (c.trafficKeys cr .handshake c.hsSecret (c.peek cr) "c hs traffic" "s hs traffic").point

/-- `s_quic_derive_app` -/
def deriveApp : Prog Conn Unit :=
  modify fun c =>
    let master := cr.extract zeros (cr.expandLabel c.hsSecret "derived" emptyHash 32)
    (c.trafficKeys cr .app master (c.peek cr) "c ap traffic" "s ap traffic").point

/-! ## Handshake -/

/-- `s_quic_server_flight` -/
def serverFlight : Prog Conn Unit := do
  let cert ← ofOption env.cert
  modify fun c => { c with x25519 := env.x25519, myPub := cr.publicKey env.x25519 }
  let c ← get
  let sh := buildServerHello env.random c.myPub
  modify (·.hash sh)
  deriveHandshake cr
  sendCrypto cr env .initial sh 0 0
  let ee := buildEncryptedExtensions c.localCid c.origDcid
  let crt := buildCertificate cert.der
  modify fun c => (c.hash ee).hash crt
  let c ← get
  let cv ← ofOption (buildCertVerify cr cert.key (c.peek cr))
  modify (·.hash cv)
  let c ← get
  let k := c.keys true .handshake
  require (k.installed = true)
  let fin := buildFinished cr k.secret (c.peek cr)
  modify (·.hash fin)
  deriveApp cr
  sendCrypto cr env .handshake (ee ++ crt ++ cv ++ fin) 0 0

/-- `s_quic_client_finish` -/
def clientFinish : Prog Conn Unit := do
  let c ← get
  if c.clientFinSent then pure ()
  else do
    let k := c.keys false .handshake
    require (k.installed = true)
    let fin := buildFinished cr k.secret (c.peek cr)
    modify (·.hash fin)
    sendCrypto cr env .handshake fin 0 0
    modify fun c => { c with clientFinSent := true, appReady := true }

/-- A message that a client accepts, by its type. -/
def clientMsg (level : Level) (msg : Bytes) (len : ℕ) : Prog Conn Unit :=
  if level = .initial ∧ byteAt msg 0 = 2 then do
    parseServerHello msg len
    modify (·.hear level (msg.take len))
    deriveHandshake cr
  else if level = .handshake ∧ byteAt msg 0 = 8 then do
    parseEe msg len
    modify (·.hear level (msg.take len))
  else if level = .handshake ∧ byteAt msg 0 = 11 then do
    let der ← ofOption (parseCertificate msg len)
    modify fun c => { c.hear level (msg.take len) with certDer := der }
  else if level = .handshake ∧ byteAt msg 0 = 15 then do
    let c ← get
    require (parseCertVerify cr c.certDer (c.peek cr) msg len = true)
    modify (·.hear level (msg.take len))
  else if level = .handshake ∧ byteAt msg 0 = 20 then do
    let c ← get
    require (checkFinished cr (c.keys true .handshake).secret (c.peek cr) msg len)
    modify (·.hear level (msg.take len))
    deriveApp cr
    clientFinish cr env
  else fail

/-- A message that a server accepts, by its type. -/
def serverMsg (level : Level) (msg : Bytes) (len : ℕ) : Prog Conn Unit :=
  if level = .initial ∧ byteAt msg 0 = 1 then do
    let c ← get
    if c.chDone then pure ()
    else do
      parseClientHello msg len
      modify fun c => { c.hear level (msg.take len) with chDone := true }
      serverFlight cr env
  else if level = .handshake ∧ byteAt msg 0 = 20 then do
    let c ← get
    require (checkFinished cr (c.keys false .handshake).secret (c.peek cr) msg len)
    modify fun c => { c.hear level (msg.take len) with appReady := true }
  else fail

/-- `s_quic_on_msg` -/
def onMsg (level : Level) (msg : Bytes) (len : ℕ) : Prog Conn Unit := do
  require (4 ≤ len)
  let c ← get
  if c.isServer then serverMsg cr env level msg len else clientMsg cr env level msg len

/-- The loop of `s_quic_crypto_input`: a message has at least four bytes, so that as many rounds as there are bytes are
enough. -/
def msgLoop (level : Level) : ℕ → Prog Conn Unit
  | 0 => pure ()
  | n + 1 => do
    let c ← get
    let m := (c.rxCrypto level).drop (c.rxCryptoParsed level)
    let len := 4 + be24 (m.drop 1)
    if m.length < 4 then pure ()
    else if m.length < len then pure ()
    else do
      onMsg cr env level (m ++ List.replicate (8192 - (c.rxCrypto level).length) 0 ++ env.beyond) len
      modify fun c => { c with
        rxCryptoParsed := Function.update c.rxCryptoParsed level (c.rxCryptoParsed level + len) }
      msgLoop level n

/-- `s_quic_crypto_input` -/
def cryptoInput (level : Level) (offset : ℕ) (data : Bytes) : Prog Conn Unit :=
  if level = .app then pure ()
  else do
    require (offset ≤ 8192 ∧ data.length ≤ 8192 - offset)
    let c ← get
    if offset = (c.rxCrypto level).length then do
      modify fun c => { c with rxCrypto := Function.update c.rxCrypto level (c.rxCrypto level ++ data) }
      msgLoop cr env level (offset + data.length)
    else if offset + data.length ≤ (c.rxCrypto level).length then pure ()
    else fail

/-! ## Frames -/

/-- A program on the stream of a connection.  At level `app` it is also run on the stream that this level alone
makes. -/
def onStream {α : Type} (level : Level) (x : Prog Stream α) : Prog Conn α := fun c =>
  ((x c.stream).1,
    { c with
      stream := (x c.stream).2
      hist := { c.hist with appStream := if level = .app then (x c.hist.appStream).2 else c.hist.appStream } })

/-- Integers that are ignored. -/
def skipVarints : ℕ → Bytes → Option Bytes
  | 0, p => some p
  | n + 1, p => do
    let (_, p) ← getVarint p
    skipVarints n p

/-- An ACK frame; what comes behind it. -/
def ackFrame (level : Level) (t : UInt8) (p : Bytes) : Prog Conn Bytes := do
  let (largest, p) ← ofOption (getVarint p)
  let (_, p) ← ofOption (getVarint p)
  let (count, p) ← ofOption (getVarint p)
  let (first, p) ← ofOption (getVarint p)
  modify (·.applyAck level largest first)
  let p ← ofOption (skipVarints (2 * count) p)
  ofOption (if t = 0x03 then skipVarints 3 p else some p)

/-- A CRYPTO frame; what comes behind it. -/
def onCrypto (level : Level) (p : Bytes) : Prog Conn Bytes := do
  let (offset, p) ← ofOption (getVarint p)
  let (len, p) ← ofOption (getVarint p)
  require (len ≤ p.length)
  cryptoInput cr env level offset (p.take len)
  pure (p.drop len)

/-- The fields of a STREAM frame: the stream, the offset, the data, and what comes behind it. -/
def streamFields (t : UInt8) (p : Bytes) : Option (ℕ × ℕ × Bytes × Bytes) := do
  let (sid, p) ← getVarint p
  let (offset, p) ← if t &&& 0x04 ≠ 0 then getVarint p else some (0, p)
  let (len, p) ← if t &&& 0x02 ≠ 0 then getVarint p else some (p.length, p)
  if p.length < len then none else some (sid, offset, p.take len, p.drop len)

/-- A STREAM frame; what comes behind it. -/
def streamFrame (level : Level) (t : UInt8) (p : Bytes) : Prog Conn Bytes := do
  let (sid, offset, data, rest) ← ofOption (streamFields t p)
  if sid = 0 then onStream level (streamInput env.heap offset data (t &&& 0x01 ≠ 0)) else pure ()
  pure rest

/-- One frame of type `t`; what comes behind it, or nothing if the connection is closed. -/
def frame (level : Level) (t : UInt8) (p : Bytes) : Prog Conn (Option Bytes) :=
  if t = 0x00 ∨ t = 0x01 ∨ t = 0x1e then pure (some p)
  else if t = 0x02 ∨ t = 0x03 then some <$> ackFrame level t p
  else if t = 0x06 then some <$> onCrypto cr env level p
  else if t &&& 0xf8 = 0x08 then some <$> streamFrame env level t p
  else if t = 0x1c ∨ t = 0x1d then do
    modify fun c => { c with closed := true }
    pure none
  else fail

/-- `s_quic_parse_frames`: a frame has at least one byte, so that as many rounds as there are bytes are enough -/
def parseFrames (level : Level) : ℕ → Bytes → Prog Conn Unit
  | 0, _ => pure ()
  | _ + 1, [] => pure ()
  | n + 1, t :: p => do
    match ← frame cr env level t p with
    | none => pure ()
    | some rest => parseFrames level n rest

/-! ## Datagrams -/

/-- A packet that was opened is noted, and its frames are parsed unless it is a duplicate. -/
def acceptPacket (level : Level) (pn : ℕ) (plain : Bytes) : Prog Conn Unit := do
  let c ← get
  modify fun c => { c with
    rxAck := Function.update c.rxAck level ((c.rxAck level).note pn).2
    hist := { c.hist with
      parsed := c.hist.parsed ++ if ((c.rxAck level).note pn).1 then [] else [(level, pn)] } }
  if ((c.rxAck level).note pn).1 then pure ()
  else do
    parseFrames cr env level plain.length plain
    modify fun c => { c with hist := { c.hist with processed := c.hist.processed ++ [(level, pn)] } }

/-- `s_quic_open_packet`: how much of the datagram the packet was, or nothing if it is discarded -/
def openPacket (pkt : Bytes) : Prog Conn (Option ℕ) := do
  let c ← get
  modify (·.learn pkt)
  match opened cr c pkt with
  | none => pure none
  | some (hd, pn, plain) => do
    acceptPacket cr env hd.level pn plain
    pure (some hd.consumed)

/-- The loop of `s_quic_ingest`.  The protection does not touch the bit of the first byte that is tested. -/
def ingestLoop : ℕ → Bytes → Prog Conn Unit
  | 0, _ => pure ()
  | n + 1, buf =>
    if buf = [] then pure ()
    else do
      match ← openPacket cr env buf with
      | none => do
        let c ← get
        if c.appReady = true ∧ isLong buf = false then fail else pure ()
      | some consumed =>
        if consumed = 0 then fail
        else if isLong buf = false then pure ()
        else ingestLoop n (buf.drop consumed)

/-- `s_quic_ingest` -/
def ingest (buf : Bytes) : Prog Conn Unit := ingestLoop cr env buf.length buf

/-! ## Calls -/

/-- `quic_dial` up to the first packet -/
def dial : Prog Conn Unit := do
  modify fun _ => { Conn.new with localCid := env.cid, peerCid := env.peerCid, origDcid := env.peerCid }
  modify (·.installInitial cr)
  modify fun c => { c with x25519 := env.x25519, myPub := cr.publicKey env.x25519 }
  let c ← get
  let ch := buildClientHello env.random c.myPub c.localCid
  modify (·.hash ch)
  sendCrypto cr env .initial ch 0 1200

/-- `quic_accept` before the first packet is ingested; nothing if it is not an Initial packet -/
def acceptStart (buf : Bytes) : Option Conn :=
  if buf.length < 6 + cidLen ∨ isLong buf = false ∨ buf.getD 5 0 ≠ 8 then none
  else
    let cid := (buf.drop 6).take cidLen
    some ({ Conn.new with isServer := true, localCid := cid, origDcid := cid }.installInitial cr)

/-- HANDSHAKE_DONE at the end of `quic_accept` -/
def handshakeDone : Prog Conn Unit := do
  let ack ← encodeAck .app 7
  sendFrames cr env .app (0x1e :: ack) false 0

/-- One chunk of `quic_write`. -/
def writeChunk (data : Bytes) : Prog Conn Unit := do
  let c ← get
  require (c.txOff + data.length ≤ if c.isServer then c.peerBidiLocal else c.peerBidiRemote)
  let ack ← encodeAck .app 1200
  sendFrames cr env .app (ack ++ 0x0e :: (varint 0 ++ varint c.txOff ++ varint data.length ++ data)) true 0
  modify fun c => { c with txOff := c.txOff + data.length }

/-- The loop of `quic_write`. -/
def writeChunks : List Bytes → Prog Conn Unit
  | [] => pure ()
  | d :: ds => do
    writeChunk cr env d
    writeChunks ds

/-- `quic_write` -/
def quicWrite (data : Bytes) : Prog Conn Unit := do
  let c ← get
  require (c.appReady = true)
  writeChunks cr env (chunks data)

/-- `quic_close`, which sends CONNECTION_CLOSE before the connection is freed -/
def quicClose : Prog Conn Unit := do
  let c ← get
  if c.closed = false ∧ c.appReady = true then sendFrames cr env .app [0x1c, 0x00, 0x00, 0x00] false 0 else pure ()

/-- The end of `quic_read`, which takes bytes that were received. -/
def Conn.read (c : Conn) (len : ℕ) : Conn :=
  { c with
    stream := (c.stream.read len).2
    hist := { c.hist with appStream := (c.hist.appStream.read len).2 } }

/-! ## The life of a connection -/

/-- What happens to a connection. -/
inductive Event
  /-- A datagram is received, by `s_quic_drive` or by `quic_read`. -/
  | datagram (env : Env) (buf : Bytes)
  /-- `s_quic_retransmit` -/
  | retransmit (env : Env)
  /-- The end of `quic_accept`. -/
  | done (env : Env)
  | write (env : Env) (data : Bytes)
  /-- A call of `quic_read` that finds something. -/
  | read (len : ℕ)

/-- One event.  A connection whose handshake fails is freed. -/
inductive Step : Option Conn → Event → Option Conn → Prop
  | handshake {c : Conn} {env : Env} {buf : Bytes} :
      c.appReady = false → c.closed = false →
      Step (some c) (.datagram env buf)
        (if (ingest cr env buf c).1.isSome then some (ingest cr env buf c).2 else none)
  | read {c : Conn} {env : Env} {buf : Bytes} :
      c.appReady = true → c.closed = false → c.stream.rxFin = false → c.stream.rxLen ≤ c.stream.rxPos →
      Step (some c) (.datagram env buf) (some (ingest cr env buf c).2)
  | handshakeRetransmit {c : Conn} {env : Env} :
      c.appReady = false →
      Step (some c) (.retransmit env)
        (if (retransmit cr env c).1.isSome then some (retransmit cr env c).2 else none)
  | retransmit {c : Conn} {env : Env} :
      c.appReady = true → Step (some c) (.retransmit env) (some (retransmit cr env c).2)
  | done {c : Conn} {env : Env} :
      c.isServer = true → c.appReady = true → Step (some c) (.done env) (some (handshakeDone cr env c).2)
  | write {c : Conn} {env : Env} {data : Bytes} :
      Step (some c) (.write env data) (some (quicWrite cr env data c).2)
  | copy {c : Conn} {len : ℕ} :
      c.stream.rxPos < c.stream.rxLen →
      Step (some c) (.read len) (some (c.read len))

/-- A connection with its first keys: a client that has sent its first packet, or a server that is about to open the
first packet it has received. -/
inductive Start : Conn → Prop
  | client {env : Env} {c c₀ : Conn} : dial cr env c₀ = (some (), c) → Start c
  | server {buf : Bytes} {c : Conn} : acceptStart cr buf = some c → Start c

end Suspenders.Quic
