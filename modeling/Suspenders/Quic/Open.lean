import Suspenders.Quic.Moves

/-!
# Packets that are sent and opened

The receiver of a packet with a long header removes the protection that the sender has put on it, if both have the same
keys (`Carries`).
-/

namespace Suspenders.Quic

open Lib Prog

variable {cr : Crypto} {env : Env}

/-! ## Bits -/

lemma xor_xor_cancel (x m : UInt8) : x ^^^ m ^^^ m = x := by
  rw [UInt8.xor_assoc, UInt8.xor_self, UInt8.xor_zero]

/-- What the protection of a first byte leaves alone. -/
lemma protected_and {bits keep : UInt8} (h : bits &&& keep = 0) (x m : UInt8) :
    (x ^^^ (m &&& bits)) &&& keep = x &&& keep := by
  have hdistrib (y : UInt8) : (x ^^^ y) &&& keep = (x &&& keep) ^^^ (y &&& keep) := by
    apply UInt8.eq_of_toBitVec_eq
    simp only [UInt8.toBitVec_and, UInt8.toBitVec_xor]
    ext i
    simp [Bool.and_xor_distrib_right]
  rw [hdistrib, UInt8.and_assoc, h, UInt8.and_zero, UInt8.xor_zero]

lemma length_xorBytes {a m : Bytes} (h : a.length ≤ m.length) : (xorBytes a m).length = a.length := by
  rw [xorBytes, List.length_zipWith, Nat.min_eq_left h]

lemma xorBytes_xorBytes {a m : Bytes} (h : a.length ≤ m.length) : xorBytes (xorBytes a m) m = a := by
  induction a generalizing m with
  | nil => rfl
  | cons x a ih =>
    cases m with
    | nil => simp at h
    | cons y m =>
      have htail := ih (m := m) (by simpa using h)
      simp only [xorBytes, List.zipWith_cons_cons] at htail ⊢
      rw [htail, xor_xor_cancel]

/-! ## Protection -/

lemma length_protect (cr : Crypto) (k : Keys) (long : Bool) (first : UInt8) (mid : Bytes) (pn : ℕ) (plain : Bytes) :
    (protect cr k long first mid pn plain).length = 1 + mid.length + 4 + plain.length + 16 := by
  have hlen := cr.length_encrypt k.key (nonce k.iv pn) (first :: (mid ++ toBytes 4 pn)) plain
  simp only [protect, xorBytes, List.length_cons, List.length_append, List.length_zipWith, List.length_drop,
    length_toBytes, cr.length_mask, hlen.1, hlen.2]
  omega

/-- A packet is a first byte of which some bits are protected, and what follows `mid`. -/
lemma protect_eq (cr : Crypto) (k : Keys) (long : Bool) (first : UInt8) (mid : Bytes) (pn : ℕ) (plain : Bytes) :
    ∃ m body, protect cr k long first mid pn plain = (first ^^^ (m &&& firstBits long)) :: (mid ++ body) ∧
      body.length = 4 + plain.length + 16 := by
  refine ⟨_, _, congrArg (List.cons _) (List.append_assoc _ _ _), ?_⟩
  have hlen := length_protect cr k long first mid pn plain
  simp only [protect, List.length_cons, List.length_append] at hlen ⊢
  omega

/-- The protection of a first byte leaves the bit of a long header alone. -/
lemma isLong_protected (long : Bool) (first m : UInt8) (rest : Bytes) :
    isLong ((first ^^^ (m &&& firstBits long)) :: rest) = isLong [first] := by
  have hbits : firstBits long &&& 0x80 = 0 := by cases long <;> decide
  simp only [isLong, List.getD_cons_zero]
  rw [protected_and hbits]

/-- The protection is removed under the keys under which it was put on. -/
lemma unprotect_protect {k : Keys} {long : Bool} {first : UInt8} {mid plain : Bytes} {pn : ℕ} {hd : Header}
    (hdec : ∀ n aad, cr.decrypt k.key n aad (cr.encrypt k.key n aad plain).1 (cr.encrypt k.key n aad plain).2 =
      some plain)
    (hinstalled : k.installed = true) (hlong : isLong [first] = long) (hfirst : first &&& 0x03 = 0x03)
    (hpn : pn < 2 ^ 32) (hplain : plain.length ≤ 1500) (hoff : hd.pnOffset = 1 + mid.length)
    (hend : hd.consumed = (protect cr k long first mid pn plain).length) :
    unprotect cr k hd (protect cr k long first mid pn plain) = some (pn, plain) := by
  rw [length_protect] at hend
  unfold protect
  extract_lets enc body mask
  have hlen : enc.1.length = plain.length ∧ enc.2.length = 16 := cr.length_encrypt _ _ _ _
  have hmask : (toBytes 4 pn).length ≤ (mask.drop 1).length := by simp [mask, cr.length_mask]
  have hpnLen : (xorBytes (toBytes 4 pn) (mask.drop 1)).length = 4 := by rw [length_xorBytes hmask, length_toBytes]
  set pkt := (first ^^^ (mask.getD 0 0 &&& firstBits long)) :: (mid ++ xorBytes (toBytes 4 pn) (mask.drop 1) ++ body)
    with hpkt
  have hdropPn : pkt.drop (1 + mid.length) = xorBytes (toBytes 4 pn) (mask.drop 1) ++ body := by
    rw [hpkt, Nat.add_comm, List.drop_succ_cons, List.append_assoc, List.drop_left]
  have hdropBody : pkt.drop (1 + mid.length + 4) = body := by
    rw [← List.drop_drop, hdropPn, List.drop_left' hpnLen]
  have hdropTag : pkt.drop (1 + mid.length + 4 + plain.length) = enc.2 := by
    rw [← List.drop_drop, hdropBody, List.drop_left' hlen.1]
  have hlong' : isLong pkt = long := by rw [hpkt, isLong_protected, hlong]
  -- the mask is that of the same sample, so that the first byte and the number come back
  have hfirst' : pkt.getD 0 0 ^^^ (mask.getD 0 0 &&& firstBits long) = first := by
    rw [hpkt, List.getD_cons_zero, xor_xor_cancel]
  have hnumber : xorBytes ((pkt.drop (1 + mid.length)).take 4) (mask.drop 1) = toBytes 4 pn := by
    rw [hdropPn, List.take_left' hpnLen, xorBytes_xorBytes hmask]
  have hmid : (pkt.drop 1).take mid.length = mid := by
    rw [hpkt, List.drop_succ_cons, List.drop_zero, List.append_assoc, List.take_left]
  have hthree : ((3 : UInt8).toNat + 1) = 4 := rfl
  unfold unprotect
  rw [if_neg (by simp [hinstalled]; omega), hoff, hdropBody, hlong']
  simp only [show cr.mask k.hp (body.take 16) = mask from rfl, hfirst', hfirst, hthree, hnumber]
  rw [if_neg (by omega), if_neg (by omega), ofBytes_toBytes hpn, hdropBody,
    show hd.consumed - 16 = 1 + mid.length + 4 + plain.length by omega, hdropTag,
    show hd.consumed - (1 + mid.length + 4) - 16 = plain.length by omega, Nat.add_sub_cancel_left, hmid,
    List.take_of_length_le (le_of_eq hlen.2), List.take_left' hlen.1]
  rw [show cr.decrypt k.key (nonce k.iv pn) (first :: (mid ++ toBytes 4 pn)) enc.1 enc.2 = some plain from hdec _ _]
  rfl

/-! ## Long headers -/

lemma layout_zero (fixed flen : ℕ) : layout fixed flen 0 = (varintSize (4 + flen + 16), flen) := by
  have hpad (n : ℕ) : padded fixed flen 0 n = flen := by simp [padded]
  simp only [layout, hpad]
  split
  next h => rw [h]
  next => rfl

/-- The first packet of a client is padded. -/
lemma layout_hello {flen : ℕ} (h : flen ≤ 1154) : layout 24 flen 1200 = (2, 1154) := by
  have hpad : padded 24 flen 1200 2 = 1154 := by
    simp only [padded]
    split <;> omega
  simp only [layout, hpad]
  rfl

/-- The first byte of a packet with a long header, before it is protected. -/
def longFirst (level : Level) : UInt8 := 0xc0 ||| (if level = .initial then 0 else 0x20) ||| 0x03

/-- The bytes between the first one and the packet number. -/
def longMid (level : Level) (dcid scid : Bytes) (plainLen : ℕ) : Bytes :=
  [0, 0, 0, 1] ++ [8] ++ dcid ++ [8] ++ scid ++ (if level = .initial then [0] else []) ++ varint (4 + plainLen + 16)

/-- A packet that its receiver opens, and the text it finds there. -/
structure Carries (cr : Crypto) (dcid scid : Bytes) (k : Keys) (level : Level) (pn : ℕ) (plain pkt : Bytes) : Prop where
  size : 20 ≤ pkt.length
  long : isLong pkt = true
  destLen : pkt.getD 5 0 = 8
  dest : (pkt.drop 6).take cidLen = dcid
  source : sourceCid dcid pkt = some scid
  opened : ∃ off, ∀ c : Conn, c.localCid = dcid → c.keys (!c.isServer) level = k →
    opened cr c pkt = some (⟨level, off, pkt.length⟩, pn, plain)

section Long

variable {dcid scid plain : Bytes} {k : Keys} {level : Level} {pn : ℕ}

lemma sourceCid_long {b : UInt8} {rest : Bytes} (hdcid : dcid.length = cidLen) (hscid : scid.length = cidLen) :
    sourceCid dcid (b :: ([0, 0, 0, 1] ++ [8] ++ dcid ++ [8] ++ scid ++ rest)) = some scid := by
  set pkt := b :: ([0, 0, 0, 1] ++ [8] ++ dcid ++ [8] ++ scid ++ rest) with hpkt
  have h6 : pkt.drop 6 = dcid ++ 8 :: (scid ++ rest) := by simp [hpkt]
  have h14 : pkt.drop 14 = 8 :: (scid ++ rest) := by
    rw [show 14 = 6 + cidLen from rfl, ← List.drop_drop, h6, List.drop_left' hdcid]
  have h15 : pkt.drop 15 = scid ++ rest := by
    rw [show 15 = 14 + 1 from rfl, ← List.drop_drop, h14]
    rfl
  have hlen : pkt.length = 15 + cidLen + rest.length := by
    simp only [hpkt, List.length_cons, List.length_append, List.length_nil, hdcid, hscid, cidLen]
    omega
  have hget : pkt.getD 14 0 = 8 := by
    rw [show pkt.getD 14 0 = (pkt.drop 14).getD 0 0 by simp [List.getD_eq_getElem?_getD], h14]
    rfl
  unfold sourceCid
  rw [if_neg (by simp [hpkt]; decide), h6, if_neg (by simp [hpkt, List.take_left' hdcid]), hget, hlen, h15,
    if_neg (by simp; omega), List.take_left' hscid]

lemma drop_long {b : UInt8} {rest : Bytes} (hdcid : dcid.length = cidLen) (hscid : scid.length = cidLen) :
    (b :: ([0, 0, 0, 1] ++ [8] ++ dcid ++ [8] ++ scid ++ rest)).drop 23 = rest := by
  have hlen : ([0, 0, 0, 1] ++ [8] ++ dcid ++ [8] ++ scid).length = 22 := by simp [hdcid, hscid, cidLen]
  rw [List.drop_succ_cons, List.drop_left' hlen]

lemma longFirst_bits (hlevel : level ≠ .app) (m : UInt8) :
    ((longFirst level ^^^ (m &&& firstBits true)) &&& 0x30) >>> 4 = if level = .initial then 0 else 2 := by
  rw [protected_and (by decide)]
  cases level with
  | initial => decide
  | handshake => decide
  | app => contradiction

/-- The header of a packet is found again. -/
lemma longHeader_long (hlevel : level ≠ .app) (hdcid : dcid.length = cidLen) (hscid : scid.length = cidLen) (m : UInt8)
    {body : Bytes} (hbody : body.length = 4 + plain.length + 16) (hplain : plain.length ≤ 1400) :
    longHeader ((longFirst level ^^^ (m &&& firstBits true)) :: (longMid level dcid scid plain.length ++ body)) =
      some ⟨level, 1 + (longMid level dcid scid plain.length).length,
        1 + (longMid level dcid scid plain.length).length + body.length⟩ := by
  set pkt := (longFirst level ^^^ (m &&& firstBits true)) :: (longMid level dcid scid plain.length ++ body) with hpkt
  have h23 : pkt.drop 23 = (if level = .initial then [0] else []) ++ (varint (4 + plain.length + 16) ++ body) := by
    rw [hpkt, longMid, List.append_assoc _ (varint _), List.append_assoc _ (ite _ _ _), drop_long hdcid hscid]
  have hlevel' : longLevel pkt = some (level, varint (4 + plain.length + 16) ++ body) := by
    unfold longLevel
    rw [h23, hpkt, List.getD_cons_zero, longFirst_bits hlevel]
    cases level with
    | initial =>
      have htoken := @getVarint_varint 0 (by decide) (varint (4 + plain.length + 16) ++ body)
      simp only [if_true]
      rw [show ([0] : Bytes) = varint 0 from rfl, htoken]
      rfl
    | handshake => rfl
    | app => contradiction
  have hlen : pkt.length = 1 + (longMid level dcid scid plain.length).length + body.length := by
    simp only [hpkt, List.length_cons, List.length_append]
    omega
  unfold longHeader
  rw [hlevel']
  simp only [Option.bind_eq_bind, Option.bind_some]
  rw [getVarint_varint (by omega), hlen]
  simp [hbody]

/-- A packet that is put together with a long header is opened by its receiver. -/
lemma carries_protect (hlevel : level ≠ .app) (hdcid : dcid.length = cidLen) (hscid : scid.length = cidLen)
    (hdec : ∀ n aad, cr.decrypt k.key n aad (cr.encrypt k.key n aad plain).1 (cr.encrypt k.key n aad plain).2 =
      some plain)
    (hinstalled : k.installed = true) (hpn : pn < 2 ^ 32) (hplain : plain.length ≤ 1400) :
    Carries cr dcid scid k level pn plain
      (protect cr k true (longFirst level) (longMid level dcid scid plain.length) pn plain) := by
  have hlen := length_protect cr k true (longFirst level) (longMid level dcid scid plain.length) pn plain
  obtain ⟨m, body, heq, hbody⟩ := protect_eq cr k true (longFirst level) (longMid level dcid scid plain.length) pn plain
  have hfirst : isLong [longFirst level] = true ∧ longFirst level &&& 0x03 = 0x03 := by cases level <;> decide
  have hopen := fun hd => @unprotect_protect cr k true (longFirst level) (longMid level dcid scid plain.length) plain pn hd
    hdec hinstalled hfirst.1 hfirst.2 hpn (by omega)
  set pkt := protect cr k true (longFirst level) (longMid level dcid scid plain.length) pn plain
  have hsplit : pkt = (longFirst level ^^^ (m &&& firstBits true)) :: ([0, 0, 0, 1] ++ [8] ++ dcid ++ [8] ++ scid ++
      ((if level = .initial then [0] else []) ++ (varint (4 + plain.length + 16) ++ body))) := by
    rw [heq, longMid, List.append_assoc _ (varint _), List.append_assoc _ (ite _ _ _)]
  have hsource : sourceCid dcid pkt = some scid := by rw [hsplit, sourceCid_long hdcid hscid]
  have hlong : isLong pkt = true := by rw [heq, isLong_protected, hfirst.1]
  have hheader : longHeader pkt = some ⟨level, 1 + (longMid level dcid scid plain.length).length, pkt.length⟩ := by
    rw [hlen, heq, longHeader_long hlevel hdcid hscid m hbody hplain, hbody]
    simp only [Nat.add_assoc]
  have hdrop : pkt.drop 6 = dcid ++ ([8] ++ scid ++
      ((if level = .initial then [0] else []) ++ (varint (4 + plain.length + 16) ++ body))) := by
    rw [hsplit]
    simp only [List.append_assoc]
    rfl
  refine ⟨by omega, hlong, ?_, ?_, hsource, 1 + (longMid level dcid scid plain.length).length, fun c hcid hk => ?_⟩
  · rw [hsplit]
    rfl
  · rw [hdrop, List.take_left' hdcid]
  · unfold Quic.opened
    rw [if_neg (by omega), hlong, hcid, hsource, hheader]
    simp only [if_true, Option.bind_some, Option.bind_eq_bind, hk]
    rw [hopen _ rfl rfl]
    rfl

/-- The first packet of a client, and those of the handshake, are not too long. -/
lemma longPacket_eq {c : Conn} {frames : Bytes} {padTo : ℕ}
    (h : padTo = 0 ∧ frames.length ≤ 1400 ∨ padTo = 1200 ∧ level = .initial ∧ frames.length ≤ 1154) :
    ∃ pad, frames.length + pad ≤ 1400 ∧ longPacket cr c k level pn frames padTo =
      some (protect cr k true (longFirst level) (longMid level c.peerCid c.localCid (frames.length + pad)) pn
        (frames ++ List.replicate pad 0)) := by
  obtain ⟨rfl, hlen⟩ | ⟨rfl, rfl, hlen⟩ := h
  · refine ⟨0, hlen, ?_⟩
    have hsize := varintSize_le (4 + frames.length + 16)
    unfold longPacket
    simp only [layout_zero]
    rw [if_neg (by simp only [cidLen]; split <;> omega), Nat.sub_self]
    rfl
  · refine ⟨1154 - frames.length, by omega, ?_⟩
    unfold longPacket
    simp only [if_true, show 1 + 4 + 1 + cidLen + 1 + cidLen + 1 = 24 from rfl, layout_hello hlen]
    rw [if_neg (by decide), Nat.add_sub_cancel' hlen]
    rfl

end Long

end Suspenders.Quic
