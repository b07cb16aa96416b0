import Mathlib.Logic.Function.Basic
import Suspenders.Quic.Stream
import Suspenders.Quic.Varint

/-!
# QUIC connections

The state of a connection, and the small functions that work on a part of it.  The primitives of OpenSSL are the
functions of a `Crypto`; of what they compute only the sizes are fixed.
-/

namespace Suspenders.Quic

open Lib

/-- The bytes of a text. -/
def ascii (s : String) : Bytes := s.toList.map fun c => UInt8.ofNat c.toNat

/-- `S_QUIC_CID_LEN` -/
def cidLen : ℕ := 8

/-- The encryption levels. -/
inductive Level
  | initial
  | handshake
  | app
  deriving DecidableEq

/-- The primitives, which do not run out of memory. -/
structure Crypto where
  /-- HKDF, `EXTRACT_ONLY`, of a key and a salt -/
  extract : Bytes → Bytes → Bytes
  /-- HKDF, `EXPAND_ONLY`, of a secret and an info -/
  expand : Bytes → Bytes → ℕ → Bytes
  sha256 : Bytes → Bytes
  hmac : Bytes → Bytes → Bytes
  /-- AES-128-ECB of a sample under `hp` -/
  mask : Bytes → Bytes → Bytes
  /-- AES-128-GCM under a key and a nonce, of associated data and a text: the ciphertext and the tag -/
  encrypt : Bytes → Bytes → Bytes → Bytes → Bytes × Bytes
  /-- The text of a ciphertext and a tag, if they are authentic. -/
  decrypt : Bytes → Bytes → Bytes → Bytes → Bytes → Option Bytes
  /-- X25519: the public key of a private key -/
  publicKey : Bytes → Bytes
  /-- X25519: the shared secret of a private key and the public key of the peer -/
  dh : Bytes → Bytes → Option Bytes
  /-- Ed25519 -/
  sign : Bytes → Bytes → Bytes
  verify : Bytes → Bytes → Bytes → Bool
  /-- `d2i_X509` and `X509_get_pubkey` -/
  certKey : Bytes → Option Bytes
  length_extract : ∀ k s, (extract k s).length = 32
  length_expand : ∀ k i n, (expand k i n).length = n
  length_sha256 : ∀ m, (sha256 m).length = 32
  length_hmac : ∀ k m, (hmac k m).length = 32
  length_mask : ∀ k s, (mask k s).length = 16
  length_encrypt : ∀ k n aad p, (encrypt k n aad p).1.length = p.length ∧ (encrypt k n aad p).2.length = 16
  length_decrypt : ∀ k n aad text tag p, decrypt k n aad text tag = some p → p.length = text.length
  length_publicKey : ∀ k, (publicKey k).length = 32

/-- `s_quic_expand_label`; the lengths of all labels and contexts are within its limits -/
def Crypto.expandLabel (cr : Crypto) (secret : Bytes) (label : String) (ctx : Bytes) (n : ℕ) : Bytes :=
  cr.expand secret ([0, UInt8.ofNat n, UInt8.ofNat (6 + (ascii label).length)] ++ ascii "tls13 " ++ ascii label ++
    [UInt8.ofNat ctx.length] ++ ctx) n

/-- `s_quic_keys_t` -/
structure Keys where
  secret : Bytes
  key : Bytes
  iv : Bytes
  hp : Bytes
  /-- `have` -/
  installed : Bool
  deriving DecidableEq

/-- `s_quic_install_from_secret` -/
def Crypto.install (cr : Crypto) (secret : Bytes) : Keys where
  secret := secret
  key := cr.expandLabel secret "quic key" [] 16
  iv := cr.expandLabel secret "quic iv" [] 12
  hp := cr.expandLabel secret "quic hp" [] 16
  installed := true

/-- The nonce of `s_quic_aead` for an IV and a packet number -/
def nonce (iv : Bytes) (pn : ℕ) : Bytes := iv.take 4 ++ (toBytes 8 pn).mapIdx fun i b => iv.getD (4 + i) 0 ^^^ b

/-! ## Acknowledgements -/

/-- `rx_have`, `rx_max` and `rx_mask` of a level -/
structure RxAck where
  has : Bool
  max : ℕ
  mask : BitVec 64
  deriving DecidableEq

/-- `s_quic_note_rx`: whether the packet is a duplicate, and the new record -/
def RxAck.note (r : RxAck) (pn : ℕ) : Bool × RxAck :=
  if r.has = false then (false, ⟨true, pn, 1#64⟩)
  else if r.max < pn then
    (false, { r with max := pn, mask := if 64 ≤ pn - r.max then 1#64 else r.mask <<< (pn - r.max) ||| 1#64 })
  else if 64 ≤ r.max - pn then (false, r)
  else if r.mask.getLsbD (r.max - pn) then (true, r)
  else (false, { r with mask := r.mask ||| 1#64 <<< (r.max - pn) })

/-- The loop of `s_quic_encode_ack` that counts the packets in a row, at most `n` more of them. -/
def ackRun (mask : BitVec 64) : ℕ → ℕ → ℕ
  | 0, first => first
  | n + 1, first => if mask.getLsbD (first + 1) then ackRun mask n (first + 1) else first

/-- `first` of an ACK frame -/
def RxAck.first (r : RxAck) : ℕ := ackRun r.mask 63 0

/-- `s_quic_encode_ack` into a buffer of `cap` bytes -/
def RxAck.encode (r : RxAck) (cap : ℕ) : Option Bytes :=
  if r.has = false ∨ cap < 8 then some []
  else do
    let largest ← putVarint (cap - 1) r.max
    let delay ← putVarint (cap - 1 - largest.length) 0
    let count ← putVarint (cap - 1 - largest.length - delay.length) 0
    let first ← putVarint (cap - 1 - largest.length - delay.length - count.length) r.first
    some (0x02 :: (largest ++ delay ++ count ++ first))

/-- `s_quic_flight_t` -/
structure Flight where
  live : Bool
  pn : ℕ
  sentNs : ℕ
  frames : Bytes
  deriving DecidableEq

/-- Whether an ACK with these fields covers `pn`. -/
def covers (largest first pn : ℕ) : Prop := (if first ≤ largest then largest - first else 0) ≤ pn ∧ pn ≤ largest

instance (largest first pn : ℕ) : Decidable (covers largest first pn) := inferInstanceAs (Decidable (_ ∧ _))

/-- `s_quic_apply_ack` on the slot of a level -/
def Flight.applyAck (f : Flight) (largest first : ℕ) : Flight :=
  if f.live = true ∧ covers largest first f.pn then { f with live := false } else f

/-! ## Connections -/

/-- A packet that was sent. -/
structure Packet where
  level : Level
  pn : ℕ
  frames : Bytes
  retransmit : Bool
  datagram : Bytes
  deriving DecidableEq

/-- A handshake message that was accepted, and what it was checked with. -/
structure Heard where
  level : Level
  msg : Bytes
  /-- The messages before it. -/
  transcript : List Bytes
  /-- `cert_der` before it -/
  certDer : Bytes
  /-- The handshake secret of the peer. -/
  secret : Bytes
  deriving DecidableEq

/-- What has happened to a connection.  The code does not know this. -/
structure History where
  /-- The packets that were sent. -/
  sent : List Packet
  /-- Those that an ACK has covered. -/
  acked : List Packet
  /-- The fields `largest` and `first` of the ACKs that were encoded. -/
  acks : List (Level × ℕ × ℕ)
  /-- The packets whose frames were all accepted. -/
  processed : List (Level × ℕ)
  /-- The handshake messages that were accepted. -/
  heard : List Heard
  /-- The transcripts from which keys were derived. -/
  points : List (List Bytes)
  /-- The stream that the packets of level `app` alone make. -/
  appStream : Stream
  /-- The encryptions: the level, the keys and the packet number. -/
  encryptions : List (Level × Keys × ℕ)
  /-- The packets whose frames were given to `s_quic_parse_frames`. -/
  parsed : List (Level × ℕ)
  deriving DecidableEq

/-- `s_quic_conn_t` -/
structure Conn where
  isServer : Bool
  appReady : Bool
  closed : Bool
  chDone : Bool
  clientFinSent : Bool
  localCid : Bytes
  peerCid : Bytes
  origDcid : Bytes
  /-- The private key. -/
  x25519 : Bytes
  myPub : Bytes
  peerPub : Bytes
  havePeerPub : Bool
  shared : Bytes
  hsSecret : Bytes
  haveShared : Bool
  /-- By whether the server sends, and by level. -/
  keys : Bool → Level → Keys
  txPn : Level → ℕ
  rxAck : Level → RxAck
  /-- The messages that were hashed. -/
  transcript : List Bytes
  /-- `rx_crypto` up to `rx_crypto_len` -/
  rxCrypto : Level → Bytes
  rxCryptoParsed : Level → ℕ
  stream : Stream
  txOff : ℕ
  peerBidiLocal : ℕ
  peerBidiRemote : ℕ
  flight : Level → Flight
  certDer : Bytes
  sawParams : Bool
  hist : History

/-- `s_quic_cert_key` and `s_quic_cert_der`, as `s_quic_make_cert` makes them. -/
structure Cert where
  key : Bytes
  der : Bytes
  pos : 0 < der.length
  le : der.length ≤ 768

/-- What the system gives to a call. -/
structure Env where
  /-- The certificate of a server, if it could be made. -/
  cert : Option Cert
  /-- `RAND_bytes` for the connection ids and the hello -/
  cid : Bytes
  peerCid : Bytes
  random : Bytes
  /-- A new X25519 key. -/
  x25519 : Bytes
  /-- Whether the packet of a level with a number can be sent. -/
  sendto : Level → ℕ → Bool
  heap : Heap
  /-- `suspenders_now_ns` -/
  now : ℕ
  /-- The memory behind `rx_crypto`. -/
  beyond : Bytes
  length_cid : cid.length = cidLen
  length_peerCid : peerCid.length = cidLen
  length_random : random.length = 32

namespace Conn

/-- `s_quic_conn_new` -/
def new : Conn where
  isServer := false
  appReady := false
  closed := false
  chDone := false
  clientFinSent := false
  localCid := List.replicate cidLen 0
  peerCid := List.replicate cidLen 0
  origDcid := List.replicate cidLen 0
  x25519 := []
  myPub := List.replicate 32 0
  peerPub := List.replicate 32 0
  havePeerPub := false
  shared := List.replicate 32 0
  hsSecret := List.replicate 32 0
  haveShared := false
  keys := fun _ _ => ⟨List.replicate 32 0, List.replicate 16 0, List.replicate 12 0, List.replicate 16 0, false⟩
  txPn := fun _ => 0
  rxAck := fun _ => ⟨false, 0, 0⟩
  transcript := []
  rxCrypto := fun _ => []
  rxCryptoParsed := fun _ => 0
  stream := .init
  txOff := 0
  peerBidiLocal := flow
  peerBidiRemote := flow
  flight := fun _ => ⟨false, 0, 0, []⟩
  certDer := []
  sawParams := false
  hist := ⟨[], [], [], [], [], [], .init, [], []⟩

variable (c : Conn)

/-- The keys of a direction and a level are installed. -/
def setKeys (fromServer : Bool) (level : Level) (k : Keys) : Conn :=
  { c with keys := Function.update c.keys fromServer (Function.update (c.keys fromServer) level k) }

/-- `s_quic_hash_update` -/
def hash (msg : Bytes) : Conn := { c with transcript := c.transcript ++ [msg] }

/-- `s_quic_hash_peek` -/
def peek (cr : Crypto) : Bytes := cr.sha256 c.transcript.flatten

/-- A message of the peer is accepted and hashed. -/
def hear (level : Level) (msg : Bytes) : Conn :=
  { c.hash msg with
    hist := { c.hist with
      heard := c.hist.heard ++
        [⟨level, msg, c.transcript, c.certDer, (c.keys (!c.isServer) .handshake).secret⟩] } }

/-- An ACK frame of the peer. -/
def applyAck (level : Level) (largest first : ℕ) : Conn :=
  { c with
    flight := Function.update c.flight level ((c.flight level).applyAck largest first)
    hist := { c.hist with
      acked := c.hist.acked ++ c.hist.sent.filter fun p => p.level = level ∧ covers largest first p.pn } }

/-- An ACK frame is encoded. -/
def ackEncoded (level : Level) : Conn :=
  if (c.rxAck level).has then
    { c with hist := { c.hist with acks := c.hist.acks ++ [(level, (c.rxAck level).max, (c.rxAck level).first)] } }
  else c

end Conn

end Suspenders.Quic
