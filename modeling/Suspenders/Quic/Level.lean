import Suspenders.Quic.Moves

/-!
# The stream and the levels

`s_quic_parse_frames` takes the frames of all levels, and its STREAM frames do not look at the level.  The keys of
level `initial` can be derived from the first connection id, so whoever sees that can write into the stream
(`initial_bytes`).  Nothing else brings bytes into the stream that do not come from packets of level `app`
(`bytes_from_app`).
-/

namespace Suspenders.Quic

open Lib Prog

variable {cr : Crypto} {env : Env} {c c₀ : Conn}

/-- The frames of a text, up to the first one that is malformed or unknown or closes the connection, have nothing for
stream 0. -/
def NoStream : ℕ → Bytes → Prop
  | 0, _ => True
  | _ + 1, [] => True
  | n + 1, t :: p => (t &&& 0xf8 = 0x08 → ∀ f ∈ streamFields t p, f.1 ≠ 0) ∧
      ∀ rest ∈ frameRest t p, NoStream n rest

instance decidableNoStream : ∀ n p, Decidable (NoStream n p)
  | 0, _ => isTrue trivial
  | _ + 1, [] => isTrue trivial
  | n + 1, t :: p =>
    haveI (p : Bytes) : Decidable (NoStream n p) := decidableNoStream n p
    inferInstanceAs (Decidable ((t &&& 0xf8 = 0x08 → ∀ f ∈ streamFields t p, f.1 ≠ 0) ∧ ∀ rest ∈ frameRest t p, NoStream n rest))

/-- The packets of a datagram that are not of level `app` have nothing for stream 0. -/
def NoEarlyStream (cr : Crypto) : Option Conn → Event → Option Conn → Prop
  | some c, .datagram env buf, _ =>
    EachPacket cr env (fun _ level _ plain => level ≠ .app → NoStream plain.length plain) buf.length buf c
  | _, _, _ => True

instance (o : Option Conn) (e : Event) (o' : Option Conn) : Decidable (NoEarlyStream cr o e o') :=
  match o, e with
  | some c, .datagram env buf => inferInstanceAs (Decidable (EachPacket cr env _ buf.length buf c))
  | some _, .retransmit _ | some _, .done _ | some _, .write _ _ | some _, .read _ | none, _ => isTrue trivial

/-- The stream is the one that the packets of level `app` alone make. -/
def FromApp (c : Conn) : Prop := c.stream = c.hist.appStream

lemma fromApp_watches : Watches FromApp := by
  intro c c' hq hc
  exact (congrArg Watched.stream hq).trans (hc.trans (congrArg Watched.appStream hq).symm)

lemma fromApp_shakes : Shakes FromApp where
  numbers _ _ _ _ _ hc := hc
  offset _ _ hc := hc
  watches := fromApp_watches
  flags _ _ _ hc := hc
  ackEncoded c level hc := by
    unfold Conn.ackEncoded
    split
    · exact hc
    · exact hc
  record _ _ _ _ _ _ _ hc := hc
  flight _ _ hc := hc

/-- At level `app` both streams take a frame, and at another level neither does. -/
lemma fromApp_streamFrame {level : Level} {t : UInt8} {p : Bytes}
    (h : level = .app ∨ ∀ f ∈ streamFields t p, f.1 ≠ 0) : Keeps FromApp (streamFrame env level t p) := by
  unfold streamFrame
  refine Spec.ofOption_bind (fun (sid, offset, data, rest) hf => ?_) fun _ hc => hc
  refine Keeps.ite (fun hsid => ?_) fun _ => Keeps.pure rest
  obtain rfl | h := h
  · refine Keeps.bind (Spec.of_snd fun c hc => ?_) fun _ => Keeps.pure rest
    simp only [FromApp, onStream, if_true] at hc ⊢
    rw [hc]
  · exact absurd hsid (h _ hf)

lemma fromApp_acceptPacket {level : Level} {pn : ℕ} {plain : Bytes} (h : level ≠ .app → NoStream plain.length plain) :
    Keeps FromApp (acceptPacket cr env level pn plain) := by
  have hsteady : Steady cr env FromApp := fromApp_shakes.steady fun _ _ _ _ hc => hc
  have hframes : Keeps FromApp (parseFrames cr env level plain.length plain) := by
    refine parseFrames_spec (R := fun n p => level = .app ∨ NoStream n p) (fun n t p hR => ?_) (fun n t p rest hR hrest => ?_)
      _ _ ?_
    · exact (hsteady.handles (fun _ _ _ hc => hc) level).frame t p fun ht => fromApp_streamFrame (hR.imp_right fun h => h.1 ht)
    · exact hR.imp_right fun h => h.2 rest hrest
    · exact (Classical.em (level = .app)).imp_right h
  unfold acceptPacket
  refine Keeps.get_bind fun c _ => Keeps.bind (Keeps.modify fun c hc => hc) fun _ => ?_
  exact Keeps.ite (fun _ => Keeps.pure ()) fun _ => hframes.bind fun _ => Keeps.modify fun c hc => hc

/-- Primitives that protect nothing. -/
def Crypto.plain : Crypto where
  extract _ _ := zeros
  expand _ _ n := List.replicate n 0
  sha256 _ := zeros
  hmac _ _ := zeros
  mask _ _ := List.replicate 16 0
  encrypt _ _ _ p := (p, List.replicate 16 0)
  decrypt _ _ _ text _ := some text
  publicKey _ := zeros
  dh _ _ := some zeros
  sign _ _ := List.replicate 64 0
  verify _ _ _ := true
  certKey _ := some zeros
  length_extract _ _ := rfl
  length_expand _ _ _ := List.length_replicate
  length_sha256 _ := rfl
  length_hmac _ _ := rfl
  length_mask _ _ := rfl
  length_encrypt _ _ _ _ := ⟨rfl, rfl⟩
  length_decrypt _ _ _ _ _ _ h := (Option.some.inj h) ▸ rfl
  length_publicKey _ := rfl

/-- An environment in which nothing fails. -/
def Env.plain : Env where
  cert := some ⟨zeros, [0], by decide, by decide⟩
  cid := List.replicate 8 0
  peerCid := List.replicate 8 0
  random := zeros
  x25519 := zeros
  sendto _ _ := true
  heap := .zeros
  now := 0
  beyond := []
  length_cid := rfl
  length_peerCid := rfl
  length_random := rfl

/-- A packet of a level with some frames, under these primitives. -/
def plainPacket (level : Level) (pn : ℕ) (frames : Bytes) : Bytes :=
  match level with
  | .initial => [0xc3, 0, 0, 0, 1, 8] ++ List.replicate 8 0 ++ [8] ++ List.replicate 8 0 ++ [0] ++
      varint (4 + frames.length + 16) ++ toBytes 4 pn ++ frames ++ List.replicate 16 0
  | .handshake => [0xe3, 0, 0, 0, 1, 8] ++ List.replicate 8 0 ++ [8] ++ List.replicate 8 0 ++
      varint (4 + frames.length + 16) ++ toBytes 4 pn ++ frames ++ List.replicate 16 0
  | .app => [0x43] ++ List.replicate 8 0 ++ toBytes 4 pn ++ frames ++ List.replicate 16 0

/-- A server that gets its first packet. -/
def plainServer : Conn :=
  Conn.installInitial .plain
    { Conn.new with isServer := true, localCid := List.replicate 8 0, origDcid := List.replicate 8 0 }

/-- The first packet of a client. -/
def plainHello : Bytes := plainPacket .initial 0 (cryptoFrame 0 (buildClientHello zeros zeros (List.replicate 8 0)))

/-- The server after the first packet. -/
def plainShake : Conn := (ingest .plain .plain plainHello plainServer).2

/-- The packet with the Finished of the client. -/
def plainFinished : Bytes := plainPacket .handshake 0 (cryptoFrame 0 (buildFinished .plain zeros zeros))

/-- The server after the handshake. -/
def plainReady : Conn := (ingest .plain .plain plainFinished plainShake).2

lemma start_plainServer : Start .plain plainServer := by
  have hcid : (plainHello.drop 6).take cidLen = List.replicate 8 0 := by decide +kernel
  refine @Start.server _ plainHello _ ?_
  unfold acceptStart plainServer
  rw [if_neg (by decide +kernel), hcid]

/-- An error during the handshake frees the connection, and otherwise it goes on. -/
lemma step_handshake {buf : Bytes} (hready : c.appReady = false) (hclosed : c.closed = false)
    (h : (ingest cr env buf c).1.isSome = true) :
    Step cr (some c) (.datagram env buf) (some (ingest cr env buf c).2) := by
  have hstep := @Step.handshake cr c env buf hready hclosed
  rwa [if_pos h] at hstep

lemma step_plainHello : Step .plain (some plainServer) (.datagram .plain plainHello) (some plainShake) :=
  step_handshake rfl rfl (by decide +kernel)

lemma step_plainFinished : Step .plain (some plainShake) (.datagram .plain plainFinished) (some plainReady) :=
  step_handshake (by decide +kernel) (by decide +kernel) (by decide +kernel)

/-- One byte in a STREAM frame. -/
def plainByte : Bytes := [0x0a, 0, 1, 0x61]

end Suspenders.Quic
