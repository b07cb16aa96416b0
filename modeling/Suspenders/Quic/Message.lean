import Suspenders.Quic.Conn

/-!
# Handshake messages

The builders and the parsers of the TLS messages.  A parser gets a pointer into `rx_crypto`, which here is the memory
from there on, and a length; it may read behind the message, since a length that is subtracted from can become
negative, and is then large.
-/

namespace Suspenders.Quic

open Lib Prog

/-- `p[i]` -/
def byteAt (p : Bytes) (i : ℕ) : UInt8 := p.getD i 0

lemma byteAt_drop (p : Bytes) (k i : ℕ) : byteAt (p.drop k) i = byteAt p (k + i) := by
  simp only [byteAt, List.getD_eq_getElem?_getD, List.getElem?_drop]

/-- A big-endian number of two bytes at `p`. -/
def be16 (p : Bytes) : ℕ := (byteAt p 0).toNat * 256 + (byteAt p 1).toNat

/-- A big-endian number of three bytes at `p`. -/
def be24 (p : Bytes) : ℕ := ((byteAt p 0).toNat * 256 + (byteAt p 1).toNat) * 256 + (byteAt p 2).toNat

/-- `(size_t)(end - p) < n` -/
def short (left : ℤ) (n : ℕ) : Prop := 0 ≤ left ∧ left < n

instance (left : ℤ) (n : ℕ) : Decidable (short left n) := inferInstanceAs (Decidable (_ ∧ _))

/-! ## Transport parameters and extensions -/

/-- A parameter whose value is an integer. -/
def intParam (id val : ℕ) : Bytes := varint id ++ varint (varintSize val) ++ varint val

/-- A parameter whose value is a connection id. -/
def cidParam (id : ℕ) (cid : Bytes) : Bytes := varint id ++ varint cidLen ++ cid

/-- `s_quic_put_params`; all buffers are large enough -/
def putParams (cid : Bytes) (odcid : Option Bytes) : Bytes :=
  intParam 0x04 flow ++ intParam 0x05 flow ++ intParam 0x06 flow ++ intParam 0x08 4 ++ intParam 0x01 30000 ++
    cidParam 0x0f cid ++
    match odcid with
    | some odcid => cidParam 0x00 odcid
    | none => []

/-- The limits that a connection takes from the parameters: `peer_bidi_local` and `peer_bidi_remote`. -/
structure Limits where
  bidiLocal : ℕ
  bidiRemote : ℕ
  deriving DecidableEq

/-- One parameter; nothing if it is not accepted. -/
def takeParam (peerCid origDcid : Bytes) (fromServer : Bool) (id : ℕ) (val : Bytes) (l : Limits) : Option Limits :=
  if id = 0x05 ∨ id = 0x06 ∨ id = 0x04 ∨ id = 0x01 then do
    let (v, _) ← getVarint val
    some (if id = 0x05 then { l with bidiLocal := v } else if id = 0x06 then { l with bidiRemote := v } else l)
  else if id = 0x0f then
    if val.length ≠ cidLen ∨ val ≠ peerCid then none else some l
  else if id = 0x00 ∧ fromServer then
    if val.length ≠ cidLen ∨ val ≠ origDcid then none else some l
  else some l

/-- The loop of `s_quic_take_params`: whether everything is accepted, and the limits, also if not.  Every round takes
at least two bytes, so that `p.length` rounds are enough. -/
def takeParams (peerCid origDcid : Bytes) (fromServer : Bool) : ℕ → Bytes → Limits → Bool × Limits
  | 0, _, l => (true, l)
  | n + 1, p, l =>
    if p = [] then (true, l)
    else
      match getVarint p with
      | none => (false, l)
      | some (id, p) =>
        match getVarint p with
        | none => (false, l)
        | some (len, p) =>
          if p.length < len then (false, l)
          else
            match takeParam peerCid origDcid fromServer id (p.take len) l with
            | none => (false, l)
            | some l => takeParams peerCid origDcid fromServer n (p.drop len) l

/-- `s_quic_ext` -/
def ext (type : ℕ) (data : Bytes) : Bytes := toBytes 2 type ++ toBytes 2 data.length ++ data

/-- `s_quic_find_ext`: every round takes at least four bytes, so that `p.length` rounds are enough -/
def findExt (type : ℕ) : ℕ → Bytes → Option Bytes
  | 0, _ => none
  | n + 1, p =>
    if p.length < 4 then none
    else if (p.drop 4).length < be16 (p.drop 2) then none
    else if be16 p = type then some ((p.drop 4).take (be16 (p.drop 2)))
    else findExt type n ((p.drop 4).drop (be16 (p.drop 2)))

/-- A message with its header. -/
def message (type : UInt8) (body : Bytes) : Bytes := type :: toBytes 3 body.length ++ body

/-! ## ClientHello -/

/-- `s_quic_build_client_hello` -/
def buildClientHello (random myPub localCid : Bytes) : Bytes :=
  let exts := ext 0x002b [0x02, 0x03, 0x04] ++ ext 0x000d [0x00, 0x02, 0x08, 0x07] ++
    ext 0x000a [0x00, 0x02, 0x00, 0x1d] ++ ext 0x0033 ([0, 36, 0x00, 0x1d, 0, 32] ++ myPub) ++
    ext 0x0010 ([0x00, 0x05, 4] ++ ascii "susp") ++ ext 0x0039 (putParams localCid none)
  message 1 ([0x03, 0x03] ++ random ++ [0, 0x00, 0x02, 0x13, 0x01, 1, 0] ++ toBytes 2 exts.length ++ exts)

/-- The extensions of a ClientHello. -/
def clientHelloExts (msg : Bytes) (len : ℕ) : Option Bytes :=
  if len < 4 ∨ byteAt msg 0 ≠ 1 then none
  else
    let p := msg.drop 4
    let left : ℤ := len - 4
    if short left 35 then none
    else
      let p := p.drop (2 + 32)
      let left := left - (2 + 32)
      if left ≤ 0 then none
      else
        -- the session id
        let n := 1 + (byteAt p 0).toNat
        let p := p.drop n
        let left := left - n
        if short left 2 then none
        else
          -- the ciphers
          let n := be16 p
          let p := p.drop 2
          let left := left - 2
          if short left (n + 1) then none
          else
            let p := p.drop n
            let left := left - n
            -- the compression
            let n := 1 + (byteAt p 0).toNat
            let p := p.drop n
            let left := left - n
            if short left 2 then none
            else
              let n := be16 p
              if short (left - 2) n then none else some ((p.drop 2).take n)

/-- The key share of a client. -/
def clientShare (exts : Bytes) : Option Bytes := do
  let ks ← findExt 0x0033 exts.length exts
  if ks.length < 2 + 2 + 2 + 32 ∨ byteAt ks 2 ≠ 0x00 ∨ byteAt ks 3 ≠ 0x1d ∨ byteAt ks 4 ≠ 0 ∨ byteAt ks 5 ≠ 32 then none
  else some ((ks.drop 6).take 32)

/-- The parameters of a client that speaks `susp`. -/
def clientParams (exts : Bytes) : Option Bytes := do
  let alpn ← findExt 0x0010 exts.length exts
  if alpn.length < 7 ∨ byteAt alpn 2 ≠ 4 ∨ (alpn.drop 3).take 4 ≠ ascii "susp" then none
  else findExt 0x0039 exts.length exts

/-- `s_quic_take_params` -/
def Conn.takeParams (fromServer : Bool) (p : Bytes) : Prog Conn Unit := do
  let c ← get
  let r := Quic.takeParams c.peerCid c.origDcid fromServer p.length p ⟨c.peerBidiLocal, c.peerBidiRemote⟩
  modify fun c => { c with peerBidiLocal := r.2.bidiLocal, peerBidiRemote := r.2.bidiRemote }
  require (r.1 = true)
  modify fun c => { c with sawParams := true }

/-- `s_quic_parse_client_hello` -/
def parseClientHello (msg : Bytes) (len : ℕ) : Prog Conn Unit := do
  let exts ← ofOption (clientHelloExts msg len)
  let ks ← ofOption (clientShare exts)
  modify fun c => { c with peerPub := ks, havePeerPub := true }
  let params ← ofOption (clientParams exts)
  Conn.takeParams false params

/-! ## ServerHello -/

/-- `s_quic_build_server_hello` -/
def buildServerHello (random myPub : Bytes) : Bytes :=
  let exts := ext 0x002b [0x03, 0x04] ++ ext 0x0033 ([0x00, 0x1d, 0, 32] ++ myPub)
  message 2 ([0x03, 0x03] ++ random ++ [0, 0x13, 0x01, 0] ++ toBytes 2 exts.length ++ exts)

/-- The extensions of a ServerHello. -/
def serverHelloExts (msg : Bytes) (len : ℕ) : Option Bytes :=
  if len < 4 ∨ byteAt msg 0 ≠ 2 then none
  else
    let p := msg.drop 4
    let left : ℤ := len - 4
    if short left 35 then none
    else
      let p := p.drop (2 + 32)
      let left := left - (2 + 32)
      if left ≤ 0 then none
      else
        let n := 1 + (byteAt p 0).toNat
        let p := p.drop n
        let left := left - n
        if short left 3 ∨ byteAt p 0 ≠ 0x13 ∨ byteAt p 1 ≠ 0x01 then none
        else
          let p := p.drop 3
          let left := left - 3
          if short left 2 then none
          else
            let n := be16 p
            if short (left - 2) n then none else some ((p.drop 2).take n)

/-- The key share of a server. -/
def serverShare (exts : Bytes) : Option Bytes := do
  let ks ← findExt 0x0033 exts.length exts
  if ks.length < 2 + 2 + 32 ∨ byteAt ks 0 ≠ 0x00 ∨ byteAt ks 1 ≠ 0x1d ∨ byteAt ks 2 ≠ 0 ∨ byteAt ks 3 ≠ 32 then none
  else some ((ks.drop 4).take 32)

/-- `s_quic_parse_server_hello` -/
def parseServerHello (msg : Bytes) (len : ℕ) : Prog Conn Unit := do
  let exts ← ofOption (serverHelloExts msg len)
  let ks ← ofOption (serverShare exts)
  modify fun c => { c with peerPub := ks, havePeerPub := true }

/-! ## EncryptedExtensions -/

/-- `s_quic_build_encrypted_extensions` -/
def buildEncryptedExtensions (localCid origDcid : Bytes) : Bytes :=
  let exts := ext 0x0010 (4 :: ascii "susp") ++ ext 0x0039 (putParams localCid (some origDcid))
  message 8 (toBytes 2 exts.length ++ exts)

/-- The parameters of a server that speaks `susp`. -/
def eeParams (msg : Bytes) (len : ℕ) : Option Bytes :=
  if len < 6 ∨ byteAt msg 0 ≠ 8 then none
  else
    let n := be16 (msg.drop 4)
    if len - 6 < n then none
    else do
      let exts := (msg.drop 6).take n
      let alpn ← findExt 0x0010 exts.length exts
      if alpn.length < 5 ∨ byteAt alpn 0 ≠ 4 ∨ (alpn.drop 1).take 4 ≠ ascii "susp" then none
      else findExt 0x0039 exts.length exts

/-- `s_quic_parse_ee` -/
def parseEe (msg : Bytes) (len : ℕ) : Prog Conn Unit := do
  let params ← ofOption (eeParams msg len)
  Conn.takeParams true params

/-! ## Certificate and CertificateVerify -/

/-- `s_quic_build_certificate` -/
def buildCertificate (der : Bytes) : Bytes :=
  message 11 ([0] ++ toBytes 3 (3 + der.length + 2) ++ toBytes 3 der.length ++ der ++ [0, 0])

/-- `s_quic_parse_certificate` -/
def parseCertificate (msg : Bytes) (len : ℕ) : Option Bytes :=
  if len < 13 ∨ byteAt msg 0 ≠ 11 ∨ byteAt msg 4 ≠ 0 then none
  else
    let n := be24 (msg.drop 8)
    if len < 11 + n + 2 ∨ 1024 < n then none else some ((msg.drop 11).take n)

/-- `s_quic_cert_verify_tbs` over the hash of a transcript -/
def certVerifyTbs (th : Bytes) : Bytes := List.replicate 64 0x20 ++ ascii "TLS 1.3, server CertificateVerify" ++ th

/-- `s_quic_build_cert_verify`; nothing if the signature is too long -/
def buildCertVerify (cr : Crypto) (key th : Bytes) : Option Bytes :=
  let sig := cr.sign key (certVerifyTbs th)
  -- the buffer of the message has 200 bytes
  if 200 < 4 + (2 + 2 + sig.length) then none
  else some (message 15 ([0x08, 0x07] ++ toBytes 2 sig.length ++ sig))

/-- `s_quic_parse_cert_verify` with the certificate and the hash of the transcript -/
def parseCertVerify (cr : Crypto) (certDer th msg : Bytes) (len : ℕ) : Bool :=
  if len < 8 ∨ byteAt msg 0 ≠ 15 ∨ byteAt msg 4 ≠ 0x08 ∨ byteAt msg 5 ≠ 0x07 then false
  else
    let n := be16 (msg.drop 6)
    if len < n + 8 ∨ certDer = [] then false
    else
      match cr.certKey certDer with
      | none => false
      | some pk => cr.verify pk ((msg.drop 8).take n) (certVerifyTbs th)

/-! ## Finished -/

/-- The MAC of a Finished message. -/
def finishedMac (cr : Crypto) (secret th : Bytes) : Bytes := cr.hmac (cr.expandLabel secret "finished" [] 32) th

/-- `s_quic_build_finished` -/
def buildFinished (cr : Crypto) (secret th : Bytes) : Bytes := message 20 (finishedMac cr secret th)

/-- `s_quic_check_finished` -/
def checkFinished (cr : Crypto) (secret th msg : Bytes) (len : ℕ) : Prop :=
  len = 36 ∧ byteAt msg 0 = 20 ∧ (msg.drop 4).take 32 = finishedMac cr secret th

instance (cr : Crypto) (secret th msg : Bytes) (len : ℕ) : Decidable (checkFinished cr secret th msg len) :=
  inferInstanceAs (Decidable (_ ∧ _))

end Suspenders.Quic
