import Suspenders.Quic.Moves

/-!
# Messages that are built and parsed

Every message that one side builds is accepted by the parser of the other side, whatever comes behind it in memory.
-/

namespace Suspenders.Quic

open Lib Prog

variable {cr : Crypto} {rest : Bytes}

/-! ## Numbers -/

lemma be16_toBytes {n : ℕ} (h : n < 65536) (rest : Bytes) : be16 (toBytes 2 n ++ rest) = n := by
  have hread := @ofBytes_toBytes 2 n h
  simp only [toBytes, ofBytes, readBytes_cons, readBytes_nil, Nat.zero_mul, Nat.zero_add] at hread
  exact hread

lemma be24_toBytes {n : ℕ} (h : n < 16777216) (rest : Bytes) : be24 (toBytes 3 n ++ rest) = n := by
  have hread := @ofBytes_toBytes 3 n h
  simp only [toBytes, ofBytes, readBytes_cons, readBytes_nil, Nat.zero_mul, Nat.zero_add] at hread
  exact hread

lemma drop_toBytes (n v : ℕ) (rest : Bytes) : (toBytes n v ++ rest).drop n = rest :=
  List.drop_left' (length_toBytes n v)

/-! ## Extensions -/

lemma length_ext (type : ℕ) (data : Bytes) : (ext type data).length = 4 + data.length := by
  simp [ext]
  omega

section Ext

variable {type type' : ℕ} {data : Bytes} (htype : type < 65536) (hdata : data.length < 65536)

include htype hdata

/-- The first extension, as `s_quic_find_ext` reads it. -/
lemma ext_append (rest : Bytes) : be16 (ext type data ++ rest) = type ∧ be16 ((ext type data ++ rest).drop 2) = data.length ∧
    (ext type data ++ rest).drop 4 = data ++ rest := by
  rw [ext, List.append_assoc, List.append_assoc]
  refine ⟨be16_toBytes htype _, ?_, ?_⟩
  · rw [drop_toBytes, be16_toBytes hdata]
  · rw [show 4 = 2 + 2 from rfl, ← List.drop_drop, drop_toBytes, drop_toBytes]

lemma findExt_ext (n : ℕ) (rest : Bytes) : findExt type (n + 1) (ext type data ++ rest) = some data := by
  obtain ⟨h₀, h₂, h₄⟩ := ext_append htype hdata rest
  have hlen : (ext type data ++ rest).length = 4 + data.length + rest.length := by rw [List.length_append, length_ext]
  rw [findExt, if_neg (by omega), h₂, h₄, if_neg (by simp), if_pos h₀, List.take_left]

lemma findExt_ext_of_ne (hne : type ≠ type') (n : ℕ) (rest : Bytes) :
    findExt type' (n + 1) (ext type data ++ rest) = findExt type' n rest := by
  obtain ⟨h₀, h₂, h₄⟩ := ext_append htype hdata rest
  have hlen : (ext type data ++ rest).length = 4 + data.length + rest.length := by rw [List.length_append, length_ext]
  rw [findExt, if_neg (by omega), h₂, h₄, if_neg (by simp), if_neg (by rwa [h₀]), List.drop_left]

end Ext

/-! ## Transport parameters -/

section Params

variable {peerCid origDcid : Bytes} {fromServer : Bool} {l : Limits}

/-- One round of `s_quic_take_params`. -/
lemma takeParams_append {id : ℕ} {val : Bytes} {l' : Limits} (hid : id < 2 ^ 62) (hval : val.length < 2 ^ 62)
    (h : takeParam peerCid origDcid fromServer id val l = some l') (n : ℕ) (rest : Bytes) :
    takeParams peerCid origDcid fromServer (n + 1) (varint id ++ varint val.length ++ val ++ rest) l =
      takeParams peerCid origDcid fromServer n rest l' := by
  have hne : varint id ++ varint val.length ++ val ++ rest ≠ [] := by
    have hpos := varintSize_pos id
    rw [← length_varint] at hpos
    intro hnil
    simp only [List.append_eq_nil_iff] at hnil
    simp [hnil.1.1.1] at hpos
  rw [takeParams, if_neg hne, List.append_assoc, List.append_assoc, getVarint_varint hid]
  simp only [getVarint_varint hval]
  rw [if_neg (by simp), List.take_left, List.drop_left, h]

/-- The value of an integer parameter is read. -/
lemma takeParams_int (l' : Limits) {id v : ℕ} (hid : id < 2 ^ 62)
    (h : takeParam peerCid origDcid fromServer id (varint v) l = some l') (n : ℕ) (rest : Bytes) :
    takeParams peerCid origDcid fromServer (n + 1) (intParam id v ++ rest) l =
      takeParams peerCid origDcid fromServer n rest l' := by
  have hsize := varintSize_le v
  have hround := takeParams_append hid (by rw [length_varint]; omega) h n rest
  rwa [length_varint] at hround

lemma takeParams_cid {id : ℕ} {cid : Bytes} (hid : id < 2 ^ 62) (hcid : cid.length = cidLen)
    (h : takeParam peerCid origDcid fromServer id cid l = some l) (n : ℕ) (rest : Bytes) :
    takeParams peerCid origDcid fromServer (n + 1) (cidParam id cid ++ rest) l =
      takeParams peerCid origDcid fromServer n rest l := by
  have hround := takeParams_append hid (by rw [hcid]; decide) h n rest
  rwa [hcid] at hround

/-- The parameters of the peer are accepted, and its limits are taken. -/
lemma takeParams_putParams {odcid : Option Bytes} (hcid : peerCid.length = cidLen)
    (hodcid : ∀ o, odcid = some o → o = origDcid ∧ o.length = cidLen ∧ fromServer = true) :
    (takeParams peerCid origDcid fromServer (putParams peerCid odcid).length (putParams peerCid odcid) l) =
      (true, ⟨flow, flow⟩) := by
  have hint (v : ℕ) (hv : v < 2 ^ 62) : getVarint (varint v) = some (v, []) := by
    simpa using getVarint_varint hv []
  have hflow := hint flow (by decide)
  have hidle := hint 30000 (by decide)
  have hmax := hint 4 (by decide)
  obtain ⟨n, hn⟩ : ∃ n, (putParams peerCid odcid).length = n + 8 := by
    apply Nat.exists_eq_add_of_le'
    simp [putParams, intParam, cidParam, length_varint, varintSize, flow, hcid, cidLen]
    omega
  rw [hn]
  simp only [putParams, List.append_assoc]
  rw [takeParams_int l (by decide) (by simp [takeParam, hflow]),
    takeParams_int { l with bidiLocal := flow } (by decide) (by simp [takeParam, hflow]),
    takeParams_int ⟨flow, flow⟩ (by decide) (by simp [takeParam, hflow]),
    takeParams_int ⟨flow, flow⟩ (by decide) (by simp [takeParam]),
    takeParams_int ⟨flow, flow⟩ (by decide) (by simp [takeParam, hidle]),
    takeParams_cid (by decide) hcid (by simp [takeParam, hcid])]
  cases odcid with
  | none => simp [takeParams]
  | some o =>
    obtain ⟨rfl, ho, rfl⟩ := hodcid o rfl
    have hlast := @takeParams_cid peerCid o true ⟨flow, flow⟩ 0 o (by decide) ho (by simp [takeParam, ho]) (n + 1) []
    rw [List.append_nil] at hlast
    rw [hlast]
    simp [takeParams]

lemma conn_takeParams {c : Conn} {odcid : Option Bytes} (hcid : c.peerCid.length = cidLen)
    (hodcid : ∀ o, odcid = some o → o = c.origDcid ∧ o.length = cidLen ∧ fromServer = true) :
    Conn.takeParams fromServer (putParams c.peerCid odcid) c =
      (some (), { c with peerBidiLocal := flow, peerBidiRemote := flow, sawParams := true }) := by
  have htake := @takeParams_putParams c.peerCid c.origDcid fromServer ⟨c.peerBidiLocal, c.peerBidiRemote⟩ odcid hcid hodcid
  unfold Conn.takeParams
  rw [Prog.get_bind, htake]
  rfl

end Params

/-! ## ClientHello -/

section ClientHello

/-- The extensions of a ClientHello. -/
def helloExts (myPub localCid : Bytes) : Bytes :=
  ext 0x002b [0x02, 0x03, 0x04] ++ ext 0x000d [0x00, 0x02, 0x08, 0x07] ++
    ext 0x000a [0x00, 0x02, 0x00, 0x1d] ++ ext 0x0033 ([0, 36, 0x00, 0x1d, 0, 32] ++ myPub) ++
    ext 0x0010 ([0x00, 0x05, 4] ++ ascii "susp") ++ ext 0x0039 (putParams localCid none)

lemma buildClientHello_eq (random myPub localCid : Bytes) : buildClientHello random myPub localCid =
    message 1 ([0x03, 0x03] ++ random ++ [0, 0x00, 0x02, 0x13, 0x01, 1, 0] ++ toBytes 2 (helloExts myPub localCid).length ++
      helloExts myPub localCid) := rfl

/-- The fixed fields of a ClientHello, with what comes behind them. -/
lemma clientHelloExts_append {random exts : Bytes} (hrandom : random.length = 32) (hexts : exts.length < 65536)
    (rest : Bytes) :
    clientHelloExts (message 1 ([0x03, 0x03] ++ random ++ [0, 0x00, 0x02, 0x13, 0x01, 1, 0] ++ toBytes 2 exts.length ++
      exts) ++ rest) (47 + exts.length) = some exts := by
  have hbody : (message 1 ([0x03, 0x03] ++ random ++ [0, 0x00, 0x02, 0x13, 0x01, 1, 0] ++ toBytes 2 exts.length ++
      exts) ++ rest).drop 4 = [0x03, 0x03] ++ random ++ 0 :: 0x00 :: 0x02 :: 0x13 :: 0x01 :: 1 :: 0 ::
        (toBytes 2 exts.length ++ (exts ++ rest)) := by
    simp only [message, List.cons_append, List.drop_succ_cons, List.append_assoc, drop_toBytes, List.nil_append]
  have hfields (p : Bytes) : ([0x03, 0x03] ++ random ++ p).drop (2 + 32) = p := List.drop_left' (by simp [hrandom])
  -- the session id has no bytes, the ciphers have two and the compression has one
  have hsession (p : Bytes) : (byteAt (0 :: p) 0).toNat = 0 := by simp [byteAt]
  have hciphers (p : Bytes) : be16 (0x00 :: 0x02 :: p) = 2 := by simp [be16, byteAt]
  have hcompression (p : Bytes) : (byteAt (1 :: p) 0).toNat = 1 := by simp [byteAt]
  unfold clientHelloExts
  rw [if_neg (by simp [message, byteAt]; omega), hbody]
  simp only [hfields, hsession, hciphers, hcompression, Nat.add_zero, Nat.reduceAdd, List.drop_succ_cons, List.drop_zero,
    be16_toBytes hexts, drop_toBytes, List.take_left]
  rw [if_neg (by unfold short; omega), if_neg (by omega), if_neg (by unfold short; omega), if_neg (by unfold short; omega),
    if_neg (by unfold short; omega), if_neg (by unfold short; omega)]

variable {random myPub cid : Bytes} (hpub : myPub.length = 32) (hcid : cid.length = cidLen)

include hcid in
lemma length_putParams_none : (putParams cid none).length = 37 := by
  simp [putParams, intParam, cidParam, length_varint, varintSize, flow, hcid, cidLen]

include hpub hcid

lemma length_helloExts : (helloExts myPub cid).length = 117 := by
  simp [helloExts, length_ext, length_putParams_none hcid, hpub, ascii]

lemma clientShare_helloExts : clientShare (helloExts myPub cid) = some myPub := by
  have hfind : findExt 0x0033 (helloExts myPub cid).length (helloExts myPub cid) =
      some ([0, 36, 0x00, 0x1d, 0, 32] ++ myPub) := by
    rw [length_helloExts hpub hcid]
    simp only [helloExts, List.append_assoc]
    rw [findExt_ext_of_ne (by decide) (by decide) (by decide), findExt_ext_of_ne (by decide) (by decide) (by decide),
      findExt_ext_of_ne (by decide) (by decide) (by decide), findExt_ext (by decide) (by simp [hpub])]
  unfold clientShare
  rw [hfind]
  simp [byteAt, hpub, List.take_of_length_le]

lemma clientParams_helloExts : clientParams (helloExts myPub cid) = some (putParams cid none) := by
  have hparams := length_putParams_none hcid
  have hshare : ([0, 36, 0x00, 0x1d, 0, 32] ++ myPub).length < 65536 := by simp [hpub]
  have halpn : findExt 0x0010 (helloExts myPub cid).length (helloExts myPub cid) =
      some ([0x00, 0x05, 4] ++ ascii "susp") := by
    rw [length_helloExts hpub hcid]
    simp only [helloExts, List.append_assoc]
    rw [findExt_ext_of_ne (by decide) (by decide) (by decide), findExt_ext_of_ne (by decide) (by decide) (by decide),
      findExt_ext_of_ne (by decide) (by decide) (by decide), findExt_ext_of_ne (by decide) hshare (by decide),
      findExt_ext (by decide) (by decide)]
  have hfind : findExt 0x0039 (helloExts myPub cid).length (helloExts myPub cid) = some (putParams cid none) := by
    rw [length_helloExts hpub hcid]
    simp only [helloExts, List.append_assoc]
    rw [findExt_ext_of_ne (by decide) (by decide) (by decide), findExt_ext_of_ne (by decide) (by decide) (by decide),
      findExt_ext_of_ne (by decide) (by decide) (by decide), findExt_ext_of_ne (by decide) hshare (by decide),
      findExt_ext_of_ne (by decide) (by decide) (by decide)]
    rw [← List.append_nil (ext 0x0039 _), findExt_ext (by decide) (by omega)]
  unfold clientParams
  rw [halpn, hfind]
  rfl

lemma length_clientHello (hrandom : random.length = 32) : (buildClientHello random myPub cid).length = 164 := by
  simp only [buildClientHello_eq, message, List.length_cons, List.length_append, length_toBytes, List.length_nil, hrandom,
    length_helloExts hpub hcid]

/-- A server accepts the ClientHello. -/
lemma parseClientHello_build (hrandom : random.length = 32) {c : Conn} (hpeer : c.peerCid = cid) (rest : Bytes) :
    parseClientHello (buildClientHello random myPub cid ++ rest) (buildClientHello random myPub cid).length c =
      (some (), { c with
        peerPub := myPub, havePeerPub := true, peerBidiLocal := flow, peerBidiRemote := flow, sawParams := true }) := by
  have hexts : clientHelloExts (buildClientHello random myPub cid ++ rest) (buildClientHello random myPub cid).length =
      some (helloExts myPub cid) := by
    rw [length_clientHello hpub hcid hrandom, show 164 = 47 + (helloExts myPub cid).length by rw [length_helloExts hpub hcid],
      buildClientHello_eq, clientHelloExts_append hrandom (by rw [length_helloExts hpub hcid]; decide)]
  unfold parseClientHello
  rw [Prog.ofOption_bind hexts, Prog.ofOption_bind (clientShare_helloExts hpub hcid), Prog.modify_bind,
    Prog.ofOption_bind (clientParams_helloExts hpub hcid)]
  subst hpeer
  exact @conn_takeParams false { c with peerPub := myPub, havePeerPub := true } none hcid fun _ h => by cases h

end ClientHello

/-! ## ServerHello -/

section ServerHello

/-- The fixed fields of a ServerHello, with what comes behind them. -/
lemma serverHelloExts_append {random exts : Bytes} (hrandom : random.length = 32) (hexts : exts.length < 65536)
    (rest : Bytes) :
    serverHelloExts (message 2 ([0x03, 0x03] ++ random ++ [0, 0x13, 0x01, 0] ++ toBytes 2 exts.length ++ exts) ++ rest)
      (44 + exts.length) = some exts := by
  have hbody : (message 2 ([0x03, 0x03] ++ random ++ [0, 0x13, 0x01, 0] ++ toBytes 2 exts.length ++ exts) ++ rest).drop 4 =
      [0x03, 0x03] ++ random ++ 0 :: 0x13 :: 0x01 :: 0 :: (toBytes 2 exts.length ++ (exts ++ rest)) := by
    simp only [message, List.cons_append, List.drop_succ_cons, List.append_assoc, drop_toBytes, List.nil_append]
  have hfields (p : Bytes) : ([0x03, 0x03] ++ random ++ p).drop (2 + 32) = p := List.drop_left' (by simp [hrandom])
  have hsession (p : Bytes) : (byteAt (0 :: p) 0).toNat = 0 := by simp [byteAt]
  have hcipher (p : Bytes) : byteAt (0x13 :: 0x01 :: p) 0 = 0x13 ∧ byteAt (0x13 :: 0x01 :: p) 1 = 0x01 := by simp [byteAt]
  unfold serverHelloExts
  rw [if_neg (by simp [message, byteAt]; omega), hbody]
  simp only [hfields, hsession, hcipher, Nat.add_zero, List.drop_succ_cons, List.drop_zero, be16_toBytes hexts,
    drop_toBytes, List.take_left]
  rw [if_neg (by unfold short; omega), if_neg (by omega), if_neg (by unfold short; simp; omega),
    if_neg (by unfold short; omega), if_neg (by unfold short; omega)]

/-- A client accepts the ServerHello. -/
lemma parseServerHello_build {random myPub : Bytes} (hrandom : random.length = 32) (hpub : myPub.length = 32) (c : Conn)
    (rest : Bytes) :
    parseServerHello (buildServerHello random myPub ++ rest) (buildServerHello random myPub).length c =
      (some (), { c with peerPub := myPub, havePeerPub := true }) := by
  set exts := ext 0x002b [0x03, 0x04] ++ ext 0x0033 ([0x00, 0x1d, 0, 32] ++ myPub) with hdef
  have hlen : exts.length = 46 := by simp [hdef, length_ext, hpub]
  have hexts : serverHelloExts (buildServerHello random myPub ++ rest) (buildServerHello random myPub).length =
      some exts := by
    rw [length_buildServerHello hrandom hpub, show 90 = 44 + exts.length by rw [hlen]]
    exact serverHelloExts_append hrandom (by rw [← hdef]; omega) rest
  have hfind : findExt 0x0033 exts.length exts = some ([0x00, 0x1d, 0, 32] ++ myPub) := by
    rw [hlen, hdef, findExt_ext_of_ne (by decide) (by decide) (by decide), ← List.append_nil (ext 0x0033 _),
      findExt_ext (by decide) (by simp [hpub])]
  have hshare : serverShare exts = some myPub := by
    unfold serverShare
    rw [hfind]
    simp [byteAt, hpub, List.take_of_length_le]
  unfold parseServerHello
  rw [Prog.ofOption_bind hexts, Prog.ofOption_bind hshare]
  rfl

end ServerHello

/-! ## The messages of level `handshake` -/

section Handshake

/-- A client accepts the EncryptedExtensions. -/
lemma parseEe_build {c : Conn} {cid odcid : Bytes} (hcid : cid.length = cidLen) (hodcid : odcid.length = cidLen)
    (hpeer : c.peerCid = cid) (horig : c.origDcid = odcid) (rest : Bytes) :
    parseEe (buildEncryptedExtensions cid odcid ++ rest) (buildEncryptedExtensions cid odcid).length c =
      (some (), { c with peerBidiLocal := flow, peerBidiRemote := flow, sawParams := true }) := by
  set exts := ext 0x0010 (4 :: ascii "susp") ++ ext 0x0039 (putParams cid (some odcid)) with hdef
  have hparams : (putParams cid (some odcid)).length = 47 := by
    simp [putParams, intParam, cidParam, length_varint, varintSize, flow, hcid, hodcid, cidLen]
  have hlen : exts.length = 60 := by simp [hdef, length_ext, hparams, ascii]
  have halpn : findExt 0x0010 exts.length exts = some (4 :: ascii "susp") := by
    rw [hlen, hdef, findExt_ext (by decide) (by decide)]
  have hfind : findExt 0x0039 exts.length exts = some (putParams cid (some odcid)) := by
    rw [hlen, hdef, findExt_ext_of_ne (by decide) (by decide) (by decide), ← List.append_nil (ext 0x0039 _),
      findExt_ext (by decide) (by omega)]
  have hbody : (buildEncryptedExtensions cid odcid ++ rest).drop 4 = toBytes 2 exts.length ++ (exts ++ rest) := by
    simp only [buildEncryptedExtensions, message, List.cons_append, List.drop_succ_cons, List.append_assoc, drop_toBytes,
      hdef]
  have hmsg : (buildEncryptedExtensions cid odcid).length = 66 := by
    rw [length_buildEncryptedExtensions, hcid, hodcid]
    rfl
  have hee : eeParams (buildEncryptedExtensions cid odcid ++ rest) (buildEncryptedExtensions cid odcid).length =
      some (putParams cid (some odcid)) := by
    unfold eeParams
    rw [hmsg, if_neg (by simp [buildEncryptedExtensions, message, byteAt]), show 6 = 4 + 2 from rfl, ← List.drop_drop,
      hbody, be16_toBytes (by omega), drop_toBytes]
    simp only [List.take_left, halpn, hfind]
    rw [if_neg (by omega)]
    rfl
  unfold parseEe
  rw [Prog.ofOption_bind hee]
  subst hpeer horig
  exact conn_takeParams hcid fun o ho => by cases ho; exact ⟨rfl, hodcid, rfl⟩

/-- A client accepts the Certificate. -/
lemma parseCertificate_build {der : Bytes} (hder : der.length ≤ 768) (rest : Bytes) :
    parseCertificate (buildCertificate der ++ rest) (buildCertificate der).length = some der := by
  have hbody : (buildCertificate der ++ rest).drop 8 = toBytes 3 der.length ++ (der ++ ([0, 0] ++ rest)) := by
    rw [show 8 = 4 + 4 from rfl, ← List.drop_drop]
    simp only [buildCertificate, message, List.cons_append, List.drop_succ_cons, List.append_assoc, drop_toBytes,
      List.nil_append]
  unfold parseCertificate
  rw [length_buildCertificate, if_neg (by simp [buildCertificate, message, byteAt]), show 11 = 8 + 3 from rfl, ← List.drop_drop,
    hbody, be24_toBytes (by omega), drop_toBytes]
  simp only [List.take_left]
  rw [if_neg (by omega)]

/-- A client accepts the CertificateVerify. -/
lemma parseCertVerify_build {der key pk th cv : Bytes} (hder : der ≠ []) (hkey : cr.certKey der = some pk)
    (hsign : (cr.sign key (certVerifyTbs th)).length = 64)
    (hverify : cr.verify pk (cr.sign key (certVerifyTbs th)) (certVerifyTbs th) = true)
    (h : buildCertVerify cr key th = some cv) (rest : Bytes) :
    parseCertVerify cr der th (cv ++ rest) cv.length = true := by
  simp only [buildCertVerify, Option.ite_none_left_eq_some, Option.some.injEq] at h
  obtain ⟨-, rfl⟩ := h
  set sig := cr.sign key (certVerifyTbs th)
  have hbody : (message 15 ([0x08, 0x07] ++ toBytes 2 sig.length ++ sig) ++ rest).drop 6 =
      toBytes 2 sig.length ++ (sig ++ rest) := by
    rw [show 6 = 4 + 2 from rfl, ← List.drop_drop]
    simp only [message, List.cons_append, List.drop_succ_cons, List.append_assoc, drop_toBytes, List.nil_append,
      List.drop_zero]
  have hlen : (message 15 ([0x08, 0x07] ++ toBytes 2 sig.length ++ sig)).length = 72 := by simp [message, hsign]
  unfold parseCertVerify
  rw [hlen, if_neg (by simp [message, byteAt, toBytes]), show 8 = 6 + 2 from rfl, ← List.drop_drop, hbody,
    be16_toBytes (by omega), drop_toBytes]
  simp only [List.take_left, hkey]
  rw [if_neg (by simp [hsign, hder]), hverify]

/-- The receiver of a Finished accepts it. -/
lemma checkFinished_build (secret th rest : Bytes) :
    checkFinished cr secret th (buildFinished cr secret th ++ rest) (buildFinished cr secret th).length := by
  have hlen : (finishedMac cr secret th).length = 32 := cr.length_hmac _ _
  refine ⟨length_buildFinished secret th, by simp [buildFinished, message, byteAt], ?_⟩
  simp only [buildFinished, message, List.cons_append, List.drop_succ_cons, List.append_assoc, drop_toBytes]
  rw [List.take_left' hlen]

end Handshake

end Suspenders.Quic
