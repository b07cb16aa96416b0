import Suspenders.Quic.Conn

/-!
# Packets

How a packet is protected and sent, and how it is opened.
-/

namespace Suspenders.Quic

open Lib Prog

/-- The bits of the first byte that are protected. -/
def firstBits (long : Bool) : UInt8 := if long then 0x0f else 0x1f

/-- The exclusive or of two sequences, as far as the first one goes. -/
def xorBytes (a b : Bytes) : Bytes := List.zipWith (· ^^^ ·) a b

/-! ## Sending -/

/-- The text of a packet is encrypted and its header is protected.  The header is a first byte, `mid` and the packet
number. -/
def protect (cr : Crypto) (k : Keys) (long : Bool) (first : UInt8) (mid : Bytes) (pn : ℕ) (plain : Bytes) : Bytes :=
  let sealed := cr.encrypt k.key (nonce k.iv pn) (first :: (mid ++ toBytes 4 pn)) plain
  let body := sealed.1 ++ sealed.2
  let mask := cr.mask k.hp (body.take 16)
  (first ^^^ (mask.getD 0 0 &&& firstBits long)) :: (mid ++ xorBytes (toBytes 4 pn) (mask.drop 1) ++ body)

/-- The length of the text, which is padded so that the packet has `padTo` bytes. -/
def padded (fixed flen padTo lengthSize : ℕ) : ℕ :=
  let hdr := fixed + lengthSize + 4
  if padTo ≠ 0 ∧ hdr + 16 < padTo ∧ flen < padTo - hdr - 16 then padTo - hdr - 16 else flen

/-- The loop of `s_quic_send_frames`: the size of the length field, and the length of the text. -/
def layout (fixed flen padTo : ℕ) : ℕ × ℕ :=
  let p := padded fixed flen padTo 2
  let n := varintSize (4 + p + 16)
  if n = 2 then (2, p)
  else
    let p := padded fixed flen padTo n
    (varintSize (4 + p + 16), p)

/-- A packet with a long header; nothing if it is too long. -/
def longPacket (cr : Crypto) (c : Conn) (k : Keys) (level : Level) (pn : ℕ) (frames : Bytes) (padTo : ℕ) :
    Option Bytes :=
  let fixed := 1 + 4 + 1 + cidLen + 1 + cidLen + if level = .initial then 1 else 0
  let (lengthSize, plainLen) := layout fixed frames.length padTo
  if 1400 < plainLen ∨ 1500 < fixed + lengthSize + 4 + plainLen + 16 ∨ varintSize (4 + plainLen + 16) ≠ lengthSize then
    none
  else
    some (protect cr k true (0xc0 ||| (if level = .initial then 0 else 0x20) ||| 0x03)
      ([0, 0, 0, 1] ++ [8] ++ c.peerCid ++ [8] ++ c.localCid ++ (if level = .initial then [0] else []) ++
        varint (4 + plainLen + 16)) pn
      (frames ++ List.replicate (plainLen - frames.length) 0))

/-- A packet with a short header; nothing if it is too long. -/
def shortPacket (cr : Crypto) (c : Conn) (k : Keys) (pn : ℕ) (frames : Bytes) : Option Bytes :=
  if 1500 < 1 + cidLen + 4 + frames.length + 16 then none
  else some (protect cr k false 0x43 c.peerCid pn frames)

/-- The packet is sent; its frames come into the slot of its level. -/
def Conn.record (c : Conn) (level : Level) (pn : ℕ) (frames : Bytes) (retransmit : Bool) (now : ℕ) (datagram : Bytes) :
    Conn :=
  { c with
    flight := if retransmit = true ∧ frames.length ≤ 1200 then
        Function.update c.flight level ⟨true, pn, now, frames⟩
      else c.flight
    hist := { c.hist with sent := c.hist.sent ++ [⟨level, pn, frames, retransmit, datagram⟩] } }

/-- A text is encrypted. -/
def Conn.encrypted (c : Conn) (level : Level) (k : Keys) (pn : ℕ) : Conn :=
  { c with hist := { c.hist with encryptions := c.hist.encryptions ++ [(level, k, pn)] } }

/-- `s_quic_send_frames` -/
def sendFrames (cr : Crypto) (env : Env) (level : Level) (frames : Bytes) (retransmit : Bool) (padTo : ℕ) :
    Prog Conn Unit := do
  let c ← get
  let k := c.keys c.isServer level
  require (k.installed = true)
  modify fun c => { c with txPn := Function.update c.txPn level (c.txPn level + 1) }
  require (frames.length ≤ 1400)
  let datagram ← ofOption (if level = .app then shortPacket cr c k (c.txPn level) frames
    else longPacket cr c k level (c.txPn level) frames padTo)
  modify (·.encrypted level k (c.txPn level))
  require (env.sendto level (c.txPn level) = true)
  modify fun c' => c'.record level (c.txPn level) frames retransmit env.now datagram

/-- `s_quic_encode_ack` of a level into a buffer of `cap` bytes -/
def encodeAck (level : Level) (cap : ℕ) : Prog Conn Bytes := do
  let c ← get
  let ack ← ofOption ((c.rxAck level).encode cap)
  modify fun c => if ack = [] then c else c.ackEncoded level
  pure ack

/-- A CRYPTO frame. -/
def cryptoFrame (offset : ℕ) (msg : Bytes) : Bytes := 0x06 :: (varint offset ++ varint msg.length ++ msg)

/-- `s_quic_send_crypto` -/
def sendCrypto (cr : Crypto) (env : Env) (level : Level) (msg : Bytes) (offset padTo : ℕ) : Prog Conn Unit := do
  let ack ← encodeAck level 1400
  require (ack.length + 1 + 16 + msg.length ≤ 1400)
  sendFrames cr env level (ack ++ cryptoFrame offset msg) true padTo

/-- The length to which retransmissions are padded. -/
def retransmitPad (c : Conn) (level : Level) : ℕ := if level = .initial ∧ c.isServer = false then 1200 else 0

/-- A round of `s_quic_retransmit` -/
def retransmitLevel (cr : Crypto) (env : Env) (level : Level) : Prog Conn Unit := do
  let c ← get
  if (c.flight level).live = false then pure ()
  else if c.appReady = true ∧ level ≠ .app then
    modify fun c => { c with flight := Function.update c.flight level { c.flight level with live := false } }
  else if env.now < (c.flight level).sentNs + 40000000 then pure ()
  else sendFrames cr env level (c.flight level).frames true (retransmitPad c level)

/-- `s_quic_retransmit` -/
def retransmit (cr : Crypto) (env : Env) : Prog Conn Unit := do
  retransmitLevel cr env .initial
  retransmitLevel cr env .handshake
  retransmitLevel cr env .app

/-! ## Opening -/

/-- `long_hdr` -/
def isLong (pkt : Bytes) : Bool := pkt.getD 0 0 &&& 0x80 ≠ 0

/-- Where the packet number of a packet is, and where the packet ends. -/
structure Header where
  level : Level
  pnOffset : ℕ
  consumed : ℕ
  deriving DecidableEq

/-- The source connection id of a packet with a long header that is for us; nothing if it is not. -/
def sourceCid (localCid pkt : Bytes) : Option Bytes :=
  if ofBytes ((pkt.drop 1).take 4) ≠ 1 then none
  else if pkt.getD 5 0 ≠ 8 ∨ (pkt.drop 6).take cidLen ≠ localCid then none
  else if pkt.length ≤ 14 ∨ pkt.getD 14 0 ≠ 8 ∨ pkt.length < 15 + cidLen then none
  else some ((pkt.drop 15).take cidLen)

/-- The level of a packet with a long header, and what comes behind the token. -/
def longLevel (pkt : Bytes) : Option (Level × Bytes) :=
  if (pkt.getD 0 0 &&& 0x30) >>> 4 = 0 then do
    let (tokenLen, rest) ← getVarint (pkt.drop 23)
    if rest.length < tokenLen then none else some (.initial, rest.drop tokenLen)
  else if (pkt.getD 0 0 &&& 0x30) >>> 4 = 2 then some (.handshake, pkt.drop 23)
  else none

/-- The rest of a long header. -/
def longHeader (pkt : Bytes) : Option Header := do
  let (level, rest) ← longLevel pkt
  let (length, rest) ← getVarint rest
  if rest.length < length then none
  else some ⟨level, pkt.length - rest.length, pkt.length - rest.length + length⟩

/-- A short header. -/
def shortHeader (localCid pkt : Bytes) : Option Header :=
  if pkt.length < 1 + cidLen + 4 + 16 ∨ (pkt.drop 1).take cidLen ≠ localCid then none
  else some ⟨.app, 1 + cidLen, pkt.length⟩

/-- The protection is removed: the packet number and the text, if they are authentic. -/
def unprotect (cr : Crypto) (k : Keys) (hd : Header) (pkt : Bytes) : Option (ℕ × Bytes) :=
  if k.installed = false ∨ hd.consumed < hd.pnOffset + 4 + 16 then none
  else
    let mask := cr.mask k.hp ((pkt.drop (hd.pnOffset + 4)).take 16)
    let first := pkt.getD 0 0 ^^^ (mask.getD 0 0 &&& firstBits (isLong pkt))
    let pnLen := (first &&& 0x03).toNat + 1
    if hd.consumed < hd.pnOffset + pnLen + 16 then none
    else
      let pnBytes := xorBytes ((pkt.drop hd.pnOffset).take pnLen) (mask.drop 1)
      let payload := hd.consumed - (hd.pnOffset + pnLen)
      if 1500 < payload - 16 then none
      else
        (cr.decrypt k.key (nonce k.iv (ofBytes pnBytes))
          (first :: ((pkt.drop 1).take (hd.pnOffset - 1) ++ pnBytes))
          ((pkt.drop (hd.pnOffset + pnLen)).take (payload - 16)) ((pkt.drop (hd.consumed - 16)).take 16)).map
            fun plain => (ofBytes pnBytes, plain)

/-- The packet at the beginning of a datagram, if it is for this connection and authentic: its header, its number and
its text. -/
def opened (cr : Crypto) (c : Conn) (pkt : Bytes) : Option (Header × ℕ × Bytes) :=
  if pkt.length < 20 then none
  else do
    let hd ← if isLong pkt then (sourceCid c.localCid pkt).bind fun _ => longHeader pkt else shortHeader c.localCid pkt
    let (pn, plain) ← unprotect cr (c.keys (!c.isServer) hd.level) hd pkt
    some (hd, pn, plain)

/-- A server takes the connection id of its client from the long headers for it, until it has accepted a
ClientHello. -/
def Conn.learn (c : Conn) (pkt : Bytes) : Conn :=
  if 20 ≤ pkt.length ∧ isLong pkt = true ∧ c.isServer = true ∧ c.chDone = false then
    { c with peerCid := (sourceCid c.localCid pkt).getD c.peerCid }
  else c

end Suspenders.Quic
