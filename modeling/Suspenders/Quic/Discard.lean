import Suspenders.Quic.Level

/-!
# Datagrams that are discarded

All connections that a listener has accepted read from one socket, so each of them gets datagrams that are not for it.
A datagram whose first packet does not open is dropped (`discarded`).  There are two exceptions, which
`discard_disturbs` shows: after the handshake a short header that does not open ends the connection, and a server that
waits for a ClientHello takes the connection id of its client from any header that names it.
-/

namespace Suspenders.Quic

open Lib Prog

variable {cr : Crypto} {c : Conn} {pkt : Bytes}

/-! ## What does not open -/

/-- A packet for another connection does not open. -/
lemma opened_of_foreign (hlong : isLong pkt = true → (pkt.drop 6).take cidLen ≠ c.localCid)
    (hshort : isLong pkt = false → (pkt.drop 1).take cidLen ≠ c.localCid) : opened cr c pkt = none := by
  unfold opened
  split
  · rfl
  · cases h : isLong pkt with
    | true => simp [sourceCid, hlong h]
    | false =>
      have hheader : shortHeader c.localCid pkt = none := if_pos (.inr (hshort h))
      simp [hheader]

/-! ## What is done with it -/

/-- Nothing but the connection id of the peer is learned. -/
lemma learn_eq (c : Conn) (pkt : Bytes) : c.learn pkt = { c with peerCid := (c.learn pkt).peerCid } := by
  unfold Conn.learn
  split <;> rfl

/-- A server that waits for a ClientHello gets a long header that names it. -/
def Learns (c : Conn) (pkt : Bytes) : Prop :=
  c.isServer = true ∧ c.chDone = false ∧ isLong pkt = true ∧ (sourceCid c.localCid pkt).isSome = true

instance (c : Conn) (pkt : Bytes) : Decidable (Learns c pkt) := inferInstanceAs (Decidable (_ ∧ _))

lemma learn_of_not (h : ¬ Learns c pkt) : c.learn pkt = c := by
  unfold Conn.learn
  split
  next hcond =>
    obtain ⟨-, hlong, hserver, hdone⟩ := hcond
    cases hsource : sourceCid c.localCid pkt with
    | none => rfl
    | some cid => exact absurd ⟨hserver, hdone, hlong, by rw [hsource]; rfl⟩ h
  next => rfl

/-- A datagram that does not open is not looked at any further. -/
lemma ingest_of_none (env : Env) (hne : pkt ≠ []) (h : opened cr c pkt = none) : ingest cr env pkt c =
    (if c.appReady = true ∧ isLong pkt = false then none else some (), c.learn pkt) := by
  obtain ⟨b, rest, rfl⟩ := List.exists_cons_of_ne_nil hne
  rw [ingest, List.length_cons, ingestLoop, if_neg hne, bind_apply, openPacket_of_none h]
  simp only [get_bind]
  rw [learn_eq]
  split <;> rfl

/-- A packet of level `app` of another connection. -/
def foreignShort : Bytes := 0x43 :: List.replicate 40 1

/-- A packet with a long header for a server, with an unknown type. -/
def foreignLong : Bytes := [0xf3, 0, 0, 0, 1, 8] ++ List.replicate 8 0 ++ [8] ++ List.replicate 40 1

end Suspenders.Quic
