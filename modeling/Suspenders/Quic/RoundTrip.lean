import Suspenders.Quic.Deliver
import Suspenders.Quic.Replay

/-!
# Packets go round

A datagram that `s_quic_send_frames` has sent is one packet for the peer, which finds the same level, the same number
and the same frames in it, and zeros behind them.
-/

namespace Suspenders.Quic

open Lib Prog

variable {cr : Crypto} {env : Env} {c c' peer : Conn} {k : Keys} {level : Level} {pn padTo : ℕ} {frames plain pkt : Bytes}

/-! ## Sending -/

lemma le_layout (fixed flen padTo : ℕ) : flen ≤ (layout fixed flen padTo).2 := by
  have hpadded (n : ℕ) : flen ≤ padded fixed flen padTo n := by
    unfold padded
    dsimp only
    split
    next h => exact h.2.2.le
    next => exact Nat.le_refl _
  unfold layout
  dsimp only
  split
  · exact hpadded _
  · exact hpadded _

/-- The length of a packet of level `initial` that is padded. -/
lemma le_layout_initial (flen : ℕ) : 1200 ≤ 24 + (layout 24 flen 1200).1 + 4 + (layout 24 flen 1200).2 + 16 := by
  have htwo : padded 24 flen 1200 2 = max 1154 flen := by
    simp only [padded]
    split <;> omega
  have hsize : varintSize (4 + max 1154 flen + 16) = 2 ∨ 1400 < flen := by
    unfold varintSize
    split_ifs <;> omega
  unfold layout
  simp only [htwo]
  split
  · dsimp only
    omega
  next hne =>
    have hflen : 1400 < flen := hsize.resolve_left hne
    have hle := le_layout 24 flen 1200
    unfold layout at hle
    simp only [htwo, if_neg hne] at hle ⊢
    omega

/-- A packet with a long header that is sent is not too long, and its length field has the right size. -/
lemma longPacket_some (h : longPacket cr c k level pn frames padTo = some pkt) : ∃ pad,
    pkt = protect cr k true (longFirst level) (longMid level c.peerCid c.localCid (frames ++ List.replicate pad 0).length) pn
      (frames ++ List.replicate pad 0) ∧
    (frames ++ List.replicate pad 0).length ≤ 1400 ∧ (level = .initial → padTo = 1200 →
      1200 ≤ 24 + varintSize (4 + (frames ++ List.replicate pad 0).length + 16) + 4 +
        (frames ++ List.replicate pad 0).length + 16) := by
  unfold longPacket at h
  set fixed := 1 + 4 + 1 + cidLen + 1 + cidLen + if level = .initial then 1 else 0 with hfixed
  have hle := le_layout fixed frames.length padTo
  have hinitial (hlevel : level = .initial) (hpad : padTo = 1200) :
      1200 ≤ 24 + (layout fixed frames.length padTo).1 + 4 + (layout fixed frames.length padTo).2 + 16 := by
    rw [hpad, show fixed = 24 by rw [hfixed, hlevel]; rfl]
    exact le_layout_initial frames.length
  dsimp only at h
  generalize layout fixed frames.length padTo = l at h hle hinitial
  obtain ⟨size, len⟩ := l
  rw [Option.ite_none_left_eq_some, not_or, not_or, Nat.not_lt, Nat.not_lt, not_not] at h
  obtain ⟨⟨hlen, -, hsize⟩, hpkt⟩ := h
  have hlength : (frames ++ List.replicate (len - frames.length) 0).length = len := by
    rw [List.length_append, List.length_replicate, Nat.add_sub_cancel' hle]
  refine ⟨len - frames.length, ?_, ?_, ?_⟩
  · rw [hlength]
    exact (Option.some.inj hpkt).symm
  · rwa [hlength]
  · rwa [hlength, hsize]

/-- A call that does not fail has sent a packet. -/
lemma sendFrames_some {retransmit : Bool} (h : sendFrames cr env level frames retransmit padTo c = (some (), c')) :
    (c.keys c.isServer level).installed = true ∧ frames.length ≤ 1400 ∧ ∃ pkt, c'.datagrams = c.datagrams ++ [pkt] ∧
      (if level = .app then shortPacket cr c (c.keys c.isServer level) (c.txPn level) frames
        else longPacket cr c (c.keys c.isServer level) level (c.txPn level) frames padTo) = some pkt := by
  unfold sendFrames at h
  rw [Prog.get_bind] at h
  by_cases hinstalled : (c.keys c.isServer level).installed = true
  · rw [Prog.require_bind hinstalled, Prog.modify_bind] at h
    by_cases hlen : frames.length ≤ 1400
    · rw [Prog.require_bind hlen] at h
      refine ⟨hinstalled, hlen, ?_⟩
      cases hpkt : (if level = .app then shortPacket cr c (c.keys c.isServer level) (c.txPn level) frames
          else longPacket cr c (c.keys c.isServer level) level (c.txPn level) frames padTo) with
      | none =>
        rw [hpkt] at h
        cases h
      | some pkt =>
        rw [Prog.ofOption_bind hpkt, Prog.modify_bind] at h
        by_cases hsend : env.sendto level (c.txPn level) = true
        · rw [Prog.require_bind hsend] at h
          cases h
          exact ⟨pkt, by simp only [Conn.datagrams, Conn.record, Conn.encrypted, List.map_append, List.map_cons,
            List.map_nil], rfl⟩
        · rw [bind_apply, Prog.require, if_neg hsend] at h
          cases h
    · rw [bind_apply, Prog.require, if_neg hlen] at h
      cases h
  · rw [bind_apply, Prog.require, if_neg hinstalled] at h
    cases h

/-! ## Receiving -/

/-- A packet with a short header is opened by its receiver. -/
lemma opened_short {dcid : Bytes} (hdcid : dcid.length = cidLen)
    (hdec : ∀ n aad, cr.decrypt k.key n aad (cr.encrypt k.key n aad plain).1 (cr.encrypt k.key n aad plain).2 =
      some plain)
    (hinstalled : k.installed = true) (hpn : pn < 2 ^ 32) (hplain : plain.length ≤ 1400) (hcid : peer.localCid = dcid)
    (hk : peer.keys (!peer.isServer) .app = k) :
    opened cr peer (protect cr k false 0x43 dcid pn plain) =
      some (⟨.app, 1 + cidLen, (protect cr k false 0x43 dcid pn plain).length⟩, pn, plain) := by
  have hlen := length_protect cr k false 0x43 dcid pn plain
  obtain ⟨m, body, heq, hbody⟩ := protect_eq cr k false 0x43 dcid pn plain
  have hopen := fun hd => @unprotect_protect cr k false 0x43 dcid plain pn hd hdec hinstalled (by decide) (by decide) hpn
    (by omega)
  set pkt := protect cr k false 0x43 dcid pn plain
  have hlong : isLong pkt = false := by
    rw [heq, isLong_protected]
    decide
  have hheader : shortHeader dcid pkt = some ⟨.app, 1 + cidLen, pkt.length⟩ := by
    have hsize : ¬ pkt.length < 1 + cidLen + 4 + 16 := by omega
    unfold shortHeader
    rw [if_neg]
    rintro (h | h)
    · exact hsize h
    · rw [heq, List.drop_succ_cons, List.drop_zero, List.take_left' hdcid] at h
      exact h rfl
  unfold opened
  rw [if_neg (by omega), hlong, hcid, hheader]
  simp only [Bool.false_eq_true, if_false, Option.bind_some, Option.bind_eq_bind, hk]
  rw [hopen _ (by rw [hdcid]) rfl]
  rfl

/-- A packet of any level that was sent is opened by the peer. -/
lemma opened_sent (hdec : ∀ k n aad p, cr.decrypt k n aad (cr.encrypt k n aad p).1 (cr.encrypt k n aad p).2 = some p)
    (hinstalled : k.installed = true) (hdcid : c.peerCid.length = cidLen) (hscid : c.localCid.length = cidLen)
    (hpn : pn < 2 ^ 32) (hlen : frames.length ≤ 1400) (hcid : peer.localCid = c.peerCid)
    (hk : peer.keys (!peer.isServer) level = k)
    (h : (if level = .app then shortPacket cr c k pn frames else longPacket cr c k level pn frames padTo) = some pkt) :
    20 ≤ pkt.length ∧ (level = .initial → padTo = 1200 → 1200 ≤ pkt.length) ∧
      ∃ off pad, opened cr peer pkt = some (⟨level, off, pkt.length⟩, pn, frames ++ List.replicate pad 0) := by
  by_cases hlevel : level = .app
  · subst hlevel
    rw [if_pos rfl, shortPacket, Option.ite_none_left_eq_some] at h
    obtain ⟨-, h⟩ := h
    cases h
    have hsize := length_protect cr k false 0x43 c.peerCid pn frames
    refine ⟨by omega, nofun, 1 + cidLen, 0, ?_⟩
    rw [List.replicate_zero, List.append_nil]
    exact opened_short hdcid (fun n aad => hdec _ n aad _) hinstalled hpn hlen hcid hk
  · rw [if_neg hlevel] at h
    obtain ⟨pad, rfl, hlong, hinitial⟩ := longPacket_some h
    obtain ⟨hsize, -, -, -, -, off, hopened⟩ := @carries_protect cr c.peerCid c.localCid (frames ++ List.replicate pad 0) k
      level pn hlevel hdcid hscid (fun n aad => hdec _ n aad _) hinstalled hpn hlong
    refine ⟨hsize, fun hi hpad => ?_, off, pad, hopened peer hcid hk⟩
    refine (hinitial hi hpad).trans (Nat.le_of_eq ?_)
    rw [length_protect, longMid, hi]
    simp only [if_true, List.length_append, List.length_cons, List.length_nil, length_varint, hdcid, hscid, cidLen]
    omega

/-- A packet is noted that is not a duplicate. -/
def Conn.noted (c : Conn) (level : Level) (pn : ℕ) : Conn :=
  { c with
    rxAck := Function.update c.rxAck level ((c.rxAck level).note pn).2
    hist := { c.hist with parsed := c.hist.parsed ++ [(level, pn)] } }

/-- What `s_quic_open_packet` does with the text of a packet that is not a duplicate. -/
def parsePacket (cr : Crypto) (env : Env) (level : Level) (pn : ℕ) (plain : Bytes) : Prog Conn Unit := do
  parseFrames cr env level plain.length plain
  modify fun c => { c with hist := { c.hist with processed := c.hist.processed ++ [(level, pn)] } }

lemma acceptPacket_new {ps : List ℕ} (hrx : c.rxAck level = .noteAll ps) (hnew : pn ∉ ps) :
    acceptPacket cr env level pn plain c = parsePacket cr env level pn plain (c.noted level pn) := by
  have hdup : ((c.rxAck level).note pn).1 = false := by
    rw [hrx, Bool.eq_false_iff, Ne, (RxAck.Records.noteAll ps).note_fst pn]
    exact fun h => hnew h.1
  unfold acceptPacket
  rw [Prog.get_bind, Prog.modify_bind, hdup, if_neg (by decide)]
  rfl

/-- A datagram that was sent is one packet for the peer, if the peer has not noted the number of this packet.  It parses
the frames that were sent, with zeros behind them. -/
theorem sendFrames_ingest {ps : List ℕ} {retransmit : Bool}
    (hdec : ∀ k n aad p, cr.decrypt k n aad (cr.encrypt k n aad p).1 (cr.encrypt k n aad p).2 = some p)
    (hrole : peer.isServer = !c.isServer) (hkeys : peer.keys c.isServer level = c.keys c.isServer level)
    (hcid : peer.localCid = c.peerCid) (hdcid : c.peerCid.length = cidLen) (hscid : c.localCid.length = cidLen)
    (hpn : c.txPn level < 2 ^ 32) (hrx : peer.rxAck level = .noteAll ps) (hnew : c.txPn level ∉ ps)
    (h : sendFrames cr env level frames retransmit padTo c = (some (), c')) :
    ∃ pkt off pad, c'.datagrams = c.datagrams ++ [pkt] ∧
      opened cr peer pkt = some (⟨level, off, pkt.length⟩, c.txPn level, frames ++ List.replicate pad 0) ∧
      (∀ env, ingest cr env pkt peer = parsePacket cr env level (c.txPn level) (frames ++ List.replicate pad 0)
        ((peer.learn pkt).noted level (c.txPn level))) ∧
      (level = .initial → padTo = 1200 → 1200 ≤ pkt.length) := by
  obtain ⟨hinstalled, hlen, pkt, hsent, hpkt⟩ := sendFrames_some h
  have hmirror : peer.keys (!peer.isServer) level = c.keys c.isServer level := by rw [hrole, Bool.not_not, hkeys]
  obtain ⟨hsize, hinitial, off, pad, hopened⟩ := opened_sent hdec hinstalled hdcid hscid hpn hlen hcid hmirror hpkt
  refine ⟨pkt, off, pad, hsent, hopened, fun env => ?_, hinitial⟩
  have hlearn : (peer.learn pkt).rxAck = peer.rxAck := congrArg Watched.rxAck (watched_learn peer pkt)
  rw [ingest_of_opened hopened (List.ne_nil_of_length_pos (by omega)), acceptPacket_new (by rw [hlearn, hrx]) hnew]

/-- A client that has the same first keys as the server. -/
def plainPeer : Conn := { plainServer with isServer := false }

/-- The client sends a PING in a padded packet. -/
theorem sendFrames_ingest_plain : plainPeer.rxAck .initial = .noteAll [] ∧ plainServer.rxAck .initial = .noteAll [] ∧
    ∃ pkt off pad, (sendFrames .plain .plain .initial [0x01] false 1200 plainPeer).2.datagrams =
        plainPeer.datagrams ++ [pkt] ∧
      opened .plain plainServer pkt = some (⟨.initial, off, pkt.length⟩, 0, [0x01] ++ List.replicate pad 0) ∧
      (∀ env, ingest .plain env pkt plainServer = parsePacket .plain env .initial 0 ([0x01] ++ List.replicate pad 0)
        ((plainServer.learn pkt).noted .initial 0)) ∧
      1200 ≤ pkt.length := by
  have hsend : sendFrames .plain .plain .initial [0x01] false 1200 plainPeer =
      (some (), (sendFrames .plain .plain .initial [0x01] false 1200 plainPeer).2) :=
    Prod.ext (by decide +kernel) rfl
  obtain ⟨pkt, off, pad, hsent, hopened, hingest, hlong⟩ := @sendFrames_ingest .plain .plain plainPeer _ plainServer
    .initial 1200 [0x01] [] false (fun _ _ _ _ => rfl) rfl rfl rfl rfl rfl (by decide) rfl nofun hsend
  exact ⟨rfl, rfl, pkt, off, pad, hsent, hopened, hingest, hlong rfl rfl⟩

end Suspenders.Quic
