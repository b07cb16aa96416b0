import Suspenders.Lib.Checked
import Suspenders.Quic.Params

/-!
# Parsers of handshake messages, pointer by pointer

The parsers of ClientHello and ServerHello, as they move a pointer through a message and read at it.  The space that is
left is an unsigned difference: after a skip beyond the end of the message it is large, and the next read is outside.
-/

namespace Suspenders.Quic

open Lib Checked

variable {m : Bytes} {p stop : ℕ}

/-! ## Integers and extensions -/

/-- `s_quic_get_varint`, which reads at `p` and not beyond `stop`: the integer, and the pointer behind it -/
def getVarintAt (m : Bytes) (stop p : ℕ) : Checked Conn (ℕ × ℕ) := do
  require (p < stop)
  let b ← load m p
  let n := 1 <<< (b.toNat >>> 6)
  require (n ≤ distance p stop)
  let bs ← loads m (p + 1) (n - 1)
  pure (readBytes (b.toNat &&& 0x3f) bs, p + n)

/-- A big-endian number of two bytes at `p`. -/
def be16At (m : Bytes) (p : ℕ) : Checked Conn ℕ := do
  let a ← load m p
  let b ← load m (p + 1)
  pure (a.toNat * 256 + b.toNat)

/-- `s_quic_find_ext` between `p` and `stop`: where the data of the extension are, and how many -/
def findExtAt (m : Bytes) (stop type : ℕ) : ℕ → ℕ → Checked Conn (ℕ × ℕ)
  | 0, p => if p + 4 ≤ stop then stuck else fail
  | n + 1, p =>
    if p + 4 ≤ stop then do
      let t ← be16At m p
      let len ← be16At m (p + 2)
      require (len ≤ distance (p + 4) stop)
      if t = type then pure (p + 4, len) else findExtAt m stop type n (p + 4 + len)
    else fail

/-- One parameter, whose value has `len` bytes at `p`. -/
def takeParamAt (m : Bytes) (fromServer : Bool) (id p len : ℕ) : Checked Conn Unit :=
  if id = 0x05 ∨ id = 0x06 ∨ id = 0x04 ∨ id = 0x01 then do
    let (v, _) ← getVarintAt m (p + len) p
    ofProg (Prog.modify fun c =>
      if id = 0x05 then { c with peerBidiLocal := v } else if id = 0x06 then { c with peerBidiRemote := v } else c)
  else if id = 0x0f then do
    require (len = cidLen)
    let cid ← loads m p cidLen
    let c ← ofProg Prog.get
    require (cid = c.peerCid)
  else if id = 0x00 ∧ fromServer then do
    require (len = cidLen)
    let cid ← loads m p cidLen
    let c ← ofProg Prog.get
    require (cid = c.origDcid)
  else pure ()

/-- The loop of `s_quic_take_params` between `p` and `stop` -/
def takeParamsAt (m : Bytes) (stop : ℕ) (fromServer : Bool) : ℕ → ℕ → Checked Conn Unit
  | 0, p => if p < stop then stuck else pure ()
  | n + 1, p =>
    if p < stop then do
      let (id, p) ← getVarintAt m stop p
      let (len, p) ← getVarintAt m stop p
      require (len ≤ distance p stop)
      takeParamAt m fromServer id p len
      takeParamsAt m stop fromServer n (p + len)
    else pure ()

/-! ## ClientHello -/

/-- The beginning of a hello, which is the same for both: the pointer behind its session id. -/
def helloAt (m : Bytes) (type : UInt8) : Checked Conn ℕ := do
  require (4 ≤ m.length)
  let t ← load m 0
  require (t = type)
  require (35 ≤ distance 4 m.length)
  let p := 4 + (2 + 32)
  require (p < m.length)
  let n ← load m p
  pure (p + (1 + n.toNat))

/-- Where the extensions of a ClientHello are, and how many bytes they have. -/
def clientHelloExtsAt (m : Bytes) : Checked Conn (ℕ × ℕ) := do
  let p ← helloAt m 1
  require (2 ≤ distance p m.length)
  -- the ciphers
  let n ← be16At m p
  let p := p + 2
  require (n + 1 ≤ distance p m.length)
  let p := p + n
  -- the compression
  let n ← load m p
  let p := p + (1 + n.toNat)
  require (2 ≤ distance p m.length)
  let n ← be16At m p
  let p := p + 2
  require (n ≤ distance p m.length)
  pure (p, n)

/-- The key share of a client. -/
def clientShareAt (m : Bytes) (exts elen : ℕ) : Checked Conn Bytes := do
  let (ks, klen) ← findExtAt m (exts + elen) 0x0033 elen exts
  require (2 + 2 + 2 + 32 ≤ klen)
  let b ← load m (ks + 2)
  require (b = 0x00)
  let b ← load m (ks + 3)
  require (b = 0x1d)
  let b ← load m (ks + 4)
  require (b = 0)
  let b ← load m (ks + 5)
  require (b = 32)
  loads m (ks + 6) 32

/-- Where the parameters of a client that speaks `susp` are, and how many bytes they have. -/
def clientParamsAt (m : Bytes) (exts elen : ℕ) : Checked Conn (ℕ × ℕ) := do
  let (alpn, alen) ← findExtAt m (exts + elen) 0x0010 elen exts
  require (7 ≤ alen)
  let b ← load m (alpn + 2)
  require (b = 4)
  let name ← loads m (alpn + 3) 4
  require (name = ascii "susp")
  findExtAt m (exts + elen) 0x0039 elen exts

/-- `s_quic_parse_client_hello` -/
def parseClientHelloAt (m : Bytes) : Checked Conn Unit := do
  let (exts, elen) ← clientHelloExtsAt m
  let ks ← clientShareAt m exts elen
  ofProg (Prog.modify fun c => { c with peerPub := ks, havePeerPub := true })
  let (params, plen) ← clientParamsAt m exts elen
  takeParamsAt m (params + plen) false plen params
  ofProg (Prog.modify fun c => { c with sawParams := true })

/-! ## ServerHello -/

/-- Where the extensions of a ServerHello are, and how many bytes they have. -/
def serverHelloExtsAt (m : Bytes) : Checked Conn (ℕ × ℕ) := do
  let p ← helloAt m 2
  require (3 ≤ distance p m.length)
  let b ← load m p
  require (b = 0x13)
  let b ← load m (p + 1)
  require (b = 0x01)
  let p := p + 3
  require (2 ≤ distance p m.length)
  let n ← be16At m p
  let p := p + 2
  require (n ≤ distance p m.length)
  pure (p, n)

/-- The key share of a server. -/
def serverShareAt (m : Bytes) (exts elen : ℕ) : Checked Conn Bytes := do
  let (ks, klen) ← findExtAt m (exts + elen) 0x0033 elen exts
  require (2 + 2 + 32 ≤ klen)
  let b ← load m ks
  require (b = 0x00)
  let b ← load m (ks + 1)
  require (b = 0x1d)
  let b ← load m (ks + 2)
  require (b = 0)
  let b ← load m (ks + 3)
  require (b = 32)
  loads m (ks + 4) 32

/-- `s_quic_parse_server_hello` -/
def parseServerHelloAt (m : Bytes) : Checked Conn Unit := do
  let (exts, elen) ← serverHelloExtsAt m
  let ks ← serverShareAt m exts elen
  ofProg (Prog.modify fun c => { c with peerPub := ks, havePeerPub := true })

/-! ## Inside a cut -/

lemma cut_eq_nil (h : stop ≤ p) : cut m p stop = [] := by
  refine List.eq_nil_of_length_eq_zero ?_
  rw [cut, List.length_drop, List.length_take]
  omega

/-- An integer is read as it is from a sequence of bytes. -/
lemma getVarintAt_cases (p : ℕ) (hstop : stop ≤ m.length) :
    (getVarint (cut m p stop) = none ∧ getVarintAt m stop p = fail) ∨
    ∃ v q, p < q ∧ q ≤ stop ∧ v < 2 ^ 62 ∧ getVarint (cut m p stop) = some (v, cut m q stop) ∧
      getVarintAt m stop p = pure (v, q) := by
  by_cases hlt : p < stop
  · obtain ⟨b, hcons, hload⟩ := cut_cons hlt hstop
    obtain ⟨hpos, hle⟩ := varint_bytes b
    have hlen : (b :: cut m (p + 1) stop).length = stop - p := by rw [← hcons, length_cut hstop]
    by_cases hn : stop - p < 1 <<< (b.toNat >>> 6)
    · refine .inl ⟨?_, ?_⟩
      · rw [hcons, getVarint, if_pos (by rwa [hlen])]
      · rw [getVarintAt, require_bind_of hlt, hload, Checked.pure_bind, require_bind_of_not]
        rw [distance_of_le hlt.le]
        omega
    · have hbs : (cut m (p + 1) stop).take (1 <<< (b.toNat >>> 6) - 1) =
          cut m (p + 1) (p + 1 + (1 <<< (b.toNat >>> 6) - 1)) := take_cut (by omega)
      refine .inr ⟨readBytes (b.toNat &&& 0x3f) (cut m (p + 1) (p + 1 + (1 <<< (b.toNat >>> 6) - 1))),
        p + 1 <<< (b.toNat >>> 6), by omega, by omega, readBytes_varint b ?_, ?_, ?_⟩
      · rw [length_cut (by omega)]
        omega
      · rw [hcons, getVarint, if_neg (by rwa [hlen]), hbs, drop_cut]
        congr 3
        omega
      · rw [getVarintAt, require_bind_of hlt, hload, Checked.pure_bind, require_bind_of (by rw [distance_of_le hlt.le]; omega),
          loads_of_le (by omega), Checked.pure_bind]
  · refine .inl ⟨?_, ?_⟩
    · rw [cut_eq_nil (Nat.not_lt.1 hlt)]
      rfl
    · rw [getVarintAt, require_bind_of_not hlt]

lemma load_eq (h : p < m.length) : (load m p : Checked Conn UInt8) = pure (byteAt m p) := by
  rw [load, dif_pos h, byteAt, List.getD_eq_getElem?_getD, List.getElem?_eq_getElem h, Option.getD_some]

lemma load_stuck (h : m.length ≤ p) : (load m p : Checked Conn UInt8) = stuck := dif_neg (Nat.not_lt.2 h)

lemma byteAt_cut {i : ℕ} (h : p + i < stop) : byteAt (cut m p stop) i = byteAt m (p + i) := by
  simp only [cut, byteAt, List.getD_eq_getElem?_getD, List.getElem?_drop, List.getElem?_take, if_pos h]

lemma be16_cut (h : p + 2 ≤ stop) : be16 (cut m p stop) = be16 (m.drop p) := by
  simp only [be16, byteAt_cut (show p + 0 < stop by omega), byteAt_cut (show p + 1 < stop by omega), byteAt_drop]

/-- A number of two bytes is read as it is from a sequence of bytes. -/
lemma be16At_eq (h : p + 2 ≤ m.length) : be16At m p = pure (be16 (m.drop p)) := by
  rw [be16At, load_eq (by omega), load_eq (by omega), be16, byteAt_drop, byteAt_drop]
  rfl

/-- What a parser finds in a sequence of bytes is what the pointers find in memory. -/
def Finds (m : Bytes) (o : Option Bytes) (x : Checked Conn (ℕ × ℕ)) : Prop :=
  (o = none ∧ x = fail) ∨ ∃ p n, p + n ≤ m.length ∧ o = some (cut m p (p + n)) ∧ x = pure (p, n)

lemma findExtAt_finds {type n : ℕ} (hn : stop - p ≤ n) (hstop : stop ≤ m.length) :
    Finds m (findExt type n (cut m p stop)) (findExtAt m stop type n p) := by
  induction n generalizing p with
  | zero =>
    refine .inl ⟨rfl, ?_⟩
    rw [findExtAt, if_neg (by omega)]
  | succ n ih =>
    have hlen : (cut m p stop).length = stop - p := length_cut hstop
    by_cases hend : p + 4 ≤ stop
    · have hdrop : ((cut m p stop).drop 2) = cut m (p + 2) stop := drop_cut m p stop 2
      have hlen' : ((cut m p stop).drop 4).length = stop - (p + 4) := by rw [drop_cut, length_cut hstop]
      rw [findExt, if_neg (by omega), hdrop, be16_cut (by omega), be16_cut (by omega), hlen']
      set len := be16 (m.drop (p + 2))
      have hround : findExtAt m stop type (n + 1) p = (do
          require (len ≤ stop - (p + 4))
          if be16 (m.drop p) = type then pure (p + 4, len) else findExtAt m stop type n (p + 4 + len)) := by
        rw [findExtAt, if_pos hend, be16At_eq (by omega), Checked.pure_bind, be16At_eq (by omega), Checked.pure_bind,
          distance_of_le hend]
      by_cases hspace : stop - (p + 4) < len
      · rw [if_pos hspace]
        exact .inl ⟨rfl, by rw [hround, require_bind_of_not (Nat.not_le.2 hspace)]⟩
      · rw [if_neg hspace]
        by_cases htype : be16 (m.drop p) = type
        · rw [if_pos htype, drop_cut, take_cut (by omega)]
          refine .inr ⟨p + 4, len, by omega, rfl, ?_⟩
          rw [hround, require_bind_of (Nat.not_lt.1 hspace), if_pos htype]
        · rw [if_neg htype, drop_cut, drop_cut]
          rw [hround, require_bind_of (Nat.not_lt.1 hspace), if_neg htype]
          exact ih (by omega)
    · rw [findExt, if_pos (by omega)]
      refine .inl ⟨rfl, ?_⟩
      rw [findExtAt, if_neg hend]

/-! ## Parameters -/

section Params

variable {fromServer : Bool} {c : Conn}

/-- The limits of the connection. -/
def Conn.limits (c : Conn) : Limits := ⟨c.peerBidiLocal, c.peerBidiRemote⟩

/-- The connection with other limits. -/
def Conn.limited (c : Conn) (l : Limits) : Conn := { c with peerBidiLocal := l.bidiLocal, peerBidiRemote := l.bidiRemote }

/-- A connection id is compared. -/
lemma compareAt_eq {len : ℕ} (h : p + len ≤ m.length) (cid : Conn → Bytes) (l : Limits) (hl : l = c.limits) :
    (do
      require (len = cidLen)
      let b ← loads m p cidLen
      let c ← ofProg Prog.get
      require (b = cid c) : Checked Conn Unit) c =
    some (match (if (cut m p (p + len)).length ≠ cidLen ∨ cut m p (p + len) ≠ cid c then none else some l) with
      | none => (none, c)
      | some l => (some (), c.limited l)) := by
  have hlen : (cut m p (p + len)).length = len := by rw [length_cut h, Nat.add_sub_cancel_left]
  rw [hlen]
  by_cases hcid : len = cidLen
  · subst hcid
    rw [require_bind_of rfl, loads_of_le h, Checked.pure_bind]
    by_cases heq : cut m p (p + cidLen) = cid c
    · rw [if_neg (by simp [heq]), hl]
      simp only [bind, ofProg, Prog.get_apply, require, if_pos heq]
      rfl
    · rw [if_pos (.inr heq)]
      simp only [bind, ofProg, Prog.get_apply, require, if_neg heq]
      rfl
  · rw [require_bind_of_not hcid, if_pos (.inl hcid)]
    rfl

lemma takeParamAt_eq {id len : ℕ} (h : p + len ≤ m.length) : takeParamAt m fromServer id p len c =
    some (match takeParam c.peerCid c.origDcid fromServer id (cut m p (p + len)) c.limits with
      | none => (none, c)
      | some l => (some (), c.limited l)) := by
  unfold takeParamAt takeParam
  split
  next =>
    rcases getVarintAt_cases p h with ⟨hnone, hfail⟩ | ⟨v, q, -, -, -, hsome, hpure⟩
    · rw [hnone, hfail]
      rfl
    · rw [hsome, hpure, Checked.pure_bind]
      simp only [Option.bind_eq_bind, Option.bind_some, ofProg, Prog.modify_apply]
      split
      · rfl
      · split <;> rfl
  next =>
    split
    next => exact compareAt_eq h (fun c => c.peerCid) c.limits rfl
    next =>
      split
      next => exact compareAt_eq h (fun c => c.origDcid) c.limits rfl
      next => rfl

lemma takeParamsAt_eq {n : ℕ} (hn : stop - p ≤ n) (hstop : stop ≤ m.length) : takeParamsAt m stop fromServer n p c =
    some (bif (takeParams c.peerCid c.origDcid fromServer n (cut m p stop) c.limits).1 then some () else none,
      c.limited (takeParams c.peerCid c.origDcid fromServer n (cut m p stop) c.limits).2) := by
  induction n generalizing p c with
  | zero =>
    rw [takeParamsAt, if_neg (by omega)]
    rfl
  | succ n ih =>
    by_cases hlt : p < stop
    · rw [takeParamsAt, if_pos hlt]
      have hne : cut m p stop ≠ [] := by
        refine List.ne_nil_of_length_pos ?_
        rw [length_cut hstop]
        omega
      rw [takeParams_succ n hne, nextParam]
      rcases getVarintAt_cases p hstop with ⟨hnone, hfail⟩ | ⟨id, p₁, hp₁, -, -, hsome₁, hpure₁⟩
      · rw [hnone, hfail]
        rfl
      rw [hsome₁, hpure₁, Checked.pure_bind]
      dsimp only
      rcases getVarintAt_cases p₁ hstop with ⟨hnone, hfail⟩ | ⟨len, p₂, hp₂, hle₂, -, hsome₂, hpure₂⟩
      · rw [hfail]
        simp only [Option.bind_eq_bind, Option.bind_some, hnone]
        rfl
      rw [hpure₂, Checked.pure_bind, distance_of_le hle₂]
      simp only [Option.bind_eq_bind, Option.bind_some, hsome₂, length_cut hstop]
      by_cases hlen : stop - p₂ < len
      · rw [require_bind_of_not (Nat.not_le.2 hlen), if_pos hlen]
        rfl
      rw [require_bind_of (Nat.not_lt.1 hlen), if_neg hlen, take_cut (by omega), drop_cut]
      dsimp only
      have hparam := @takeParamAt_eq m p₂ fromServer c id len (by omega)
      cases htake : takeParam c.peerCid c.origDcid fromServer id (cut m p₂ (p₂ + len)) c.limits with
      | none =>
        rw [htake] at hparam
        simp only [bind, hparam]
        rfl
      | some l =>
        rw [htake] at hparam
        have hrest := @ih (p₂ + len) (c.limited l) (by omega)
        simp only [bind, hparam]
        exact hrest
    · rw [takeParamsAt, if_neg hlt, cut_eq_nil (Nat.not_lt.1 hlt)]
      rfl

end Params

/-! ## Hellos -/

/-- A byte of the message is tested. -/
lemma load_require {v : UInt8} {β : Type} (h : p < m.length) (f : Unit → Checked Conn β) :
    (do
      let b ← load m p
      require (b = v) >>= f) = require (byteAt m p = v) >>= f := by
  rw [load_eq h, Checked.pure_bind]

/-- What is required is what is not rejected. -/
lemma require_pure {β : Type} {P Q : Prop} [Decidable P] [Decidable Q] (h : Q ↔ ¬ P) (a : β) :
    (require P >>= fun _ => (pure a : Checked Conn β)) = ofProg (Prog.ofOption (if Q then none else some a)) := by
  by_cases hP : P
  · rw [require_bind_of hP, if_neg fun hQ => h.1 hQ hP]
    rfl
  · rw [require_bind_of_not hP, if_pos (h.2 hP)]
    rfl

section Extensions

variable {exts elen : ℕ} (h : exts + elen ≤ m.length)

include h

lemma length_exts : (cut m exts (exts + elen)).length = elen := by rw [length_cut h, Nat.add_sub_cancel_left]

/-- An extension is looked for among all extensions. -/
lemma findExtAt_exts (type : ℕ) : Finds m (findExt type (cut m exts (exts + elen)).length (cut m exts (exts + elen)))
    (findExtAt m (exts + elen) type elen exts) := by
  rw [length_exts h]
  exact findExtAt_finds (by omega) h

lemma clientShareAt_eq :
    clientShareAt m exts elen = ofProg (Prog.ofOption (clientShare (cut m exts (exts + elen)))) := by
  rw [clientShare, clientShareAt]
  rcases findExtAt_exts h 0x0033 with ⟨hnone, hfail⟩ | ⟨ks, klen, hks, hsome, hpure⟩
  · rw [hnone, hfail]
    rfl
  · rw [hsome, hpure, Checked.pure_bind]
    simp only [Option.bind_eq_bind, Option.bind_some, length_exts hks]
    by_cases hklen : klen < 2 + 2 + 2 + 32
    · rw [require_bind_of_not (Nat.not_le.2 hklen), if_pos (.inl hklen)]
      rfl
    · rw [require_bind_of (Nat.not_lt.1 hklen), load_require (by omega), load_require (by omega), load_require (by omega),
        load_require (by omega), require_require, require_require, require_require, byteAt_cut (by omega),
        byteAt_cut (by omega), byteAt_cut (by omega), byteAt_cut (by omega), drop_cut, take_cut (by omega),
        loads_of_le (by omega)]
      refine require_pure ?_ _
      tauto

lemma serverShareAt_eq :
    serverShareAt m exts elen = ofProg (Prog.ofOption (serverShare (cut m exts (exts + elen)))) := by
  rw [serverShare, serverShareAt]
  rcases findExtAt_exts h 0x0033 with ⟨hnone, hfail⟩ | ⟨ks, klen, hks, hsome, hpure⟩
  · rw [hnone, hfail]
    rfl
  · rw [hsome, hpure, Checked.pure_bind]
    simp only [Option.bind_eq_bind, Option.bind_some, length_exts hks]
    by_cases hklen : klen < 2 + 2 + 32
    · rw [require_bind_of_not (Nat.not_le.2 hklen), if_pos (.inl hklen)]
      rfl
    · rw [require_bind_of (Nat.not_lt.1 hklen), load_require (by omega), load_require (by omega), load_require (by omega),
        load_require (by omega), require_require, require_require, require_require, byteAt_cut (by omega),
        byteAt_cut (by omega), byteAt_cut (by omega), byteAt_cut (by omega), drop_cut, take_cut (by omega),
        loads_of_le (by omega)]
      refine require_pure ?_ _
      tauto

lemma clientParamsAt_finds : Finds m (clientParams (cut m exts (exts + elen))) (clientParamsAt m exts elen) := by
  rw [clientParams, clientParamsAt]
  rcases findExtAt_exts h 0x0010 with ⟨hnone, hfail⟩ | ⟨alpn, alen, halpn, hsome, hpure⟩
  · rw [hnone, hfail]
    exact .inl ⟨rfl, rfl⟩
  · rw [hsome, hpure, Checked.pure_bind]
    simp only [Option.bind_eq_bind, Option.bind_some, length_exts halpn]
    by_cases halen : alen < 7
    · rw [require_bind_of_not (Nat.not_le.2 halen), if_pos (.inl halen)]
      exact .inl ⟨rfl, rfl⟩
    · rw [require_bind_of (Nat.not_lt.1 halen), load_require (by omega), loads_of_le (by omega), Checked.pure_bind,
        require_require, byteAt_cut (by omega), drop_cut, take_cut (by omega)]
      by_cases hname : byteAt m (alpn + 2) = 4 ∧ cut m (alpn + 3) (alpn + 3 + 4) = ascii "susp"
      · rw [require_bind_of hname, if_neg (by tauto)]
        exact findExtAt_exts h 0x0039
      · rw [require_bind_of_not hname, if_pos (by tauto)]
        exact .inl ⟨rfl, rfl⟩

end Extensions

section Beyond

variable {k : ℕ} (beyond : Bytes)

lemma byteAt_append (h : k < m.length) : byteAt (m ++ beyond) k = byteAt m k := by
  rw [byteAt, byteAt, List.getD_eq_getElem?_getD, List.getD_eq_getElem?_getD, List.getElem?_append_left h]

lemma byteAt_beyond (h : k < m.length) : byteAt ((m ++ beyond).drop k) 0 = byteAt m k := by
  rw [byteAt_drop, Nat.add_zero, byteAt_append beyond h]

lemma be16_beyond (h : k + 2 ≤ m.length) : be16 ((m ++ beyond).drop k) = be16 (m.drop k) := by
  rw [be16, be16, byteAt_drop, byteAt_drop, byteAt_drop, byteAt_drop, byteAt_append beyond (by omega),
    byteAt_append beyond (by omega)]

lemma take_beyond {n : ℕ} (h : k + n ≤ m.length) : ((m ++ beyond).drop k).take n = cut m k (k + n) := by
  rw [cut, List.take_drop, List.take_append_of_le_length h]

end Beyond

/-- A ClientHello whose session id and whose compression methods end inside of the message. -/
def ClientInside (m : Bytes) : Prop :=
  39 ≤ m.length → byteAt m 0 = 1 →
    let p := 39 + (byteAt m 38).toNat
    let q := p + 2 + be16 (m.drop p)
    p ≤ m.length ∧ (q < m.length → q + (1 + (byteAt m q).toNat) ≤ m.length)

/-- A ServerHello whose session id ends inside of the message. -/
def ServerInside (m : Bytes) : Prop := 39 ≤ m.length → byteAt m 0 = 2 → 39 + (byteAt m 38).toNat ≤ m.length

instance (m : Bytes) : Decidable (ClientInside m) := inferInstanceAs (Decidable (_ → _ → _ ∧ (_ → _)))

instance (m : Bytes) : Decidable (ServerInside m) := inferInstanceAs (Decidable (_ → _ → _))

lemma helloAt_eq {type : UInt8} (hlen : 39 ≤ m.length) (htype : byteAt m 0 = type) :
    helloAt m type = pure (38 + (1 + (byteAt m 38).toNat)) := by
  rw [helloAt, require_bind_of (by omega), load_require (by omega), require_bind_of htype,
    require_bind_of (by rw [distance_of_le (by omega)]; omega), require_bind_of (by omega), load_eq (by omega),
    Checked.pure_bind]

lemma helloAt_fail {type : UInt8} (h : ¬ (39 ≤ m.length ∧ byteAt m 0 = type)) : helloAt m type = fail := by
  rw [helloAt]
  by_cases h4 : 4 ≤ m.length
  · rw [require_bind_of h4, load_require (by omega)]
    by_cases htype : byteAt m 0 = type
    · have hlen : m.length < 39 := Nat.not_le.1 fun hlen => h ⟨hlen, htype⟩
      rw [require_bind_of htype, require_bind_of_not]
      rw [distance_of_le h4]
      omega
    · rw [require_bind_of_not htype]
  · rw [require_bind_of_not h4]

/-- A skip beyond the end of the message leaves much space. -/
lemma le_distance {n k : ℕ} (h : stop < p) (hp : p ≤ stop + k) (hk : n + k ≤ 2 ^ 64) : n ≤ distance p stop := by
  rw [distance, if_neg (Nat.not_le.2 h)]
  omega

lemma be16At_stuck (h : m.length ≤ p) : be16At m p = stuck := by
  rw [be16At, load_stuck h, stuck_bind]

/-- The extensions of a ClientHello are where they are for a parser of bytes. -/
lemma clientHelloExtsAt_finds (h : ClientInside m) (beyond : Bytes) :
    Finds m (clientHelloExts (m ++ beyond) m.length) (clientHelloExtsAt m) := by
  unfold clientHelloExts clientHelloExtsAt
  by_cases hhello : 39 ≤ m.length ∧ byteAt m 0 = 1
  swap
  · rw [helloAt_fail hhello, Checked.fail_bind]
    refine .inl ⟨?_, rfl⟩
    by_cases htype : m.length < 4 ∨ byteAt (m ++ beyond) 0 ≠ 1
    · rw [if_pos htype]
    · push Not at htype
      rw [byteAt_append beyond (by omega)] at htype
      have hlen : ¬ 39 ≤ m.length := fun hlen => hhello ⟨hlen, htype.2⟩
      rw [byteAt_append beyond (by omega), if_neg (by simp [htype]), if_pos (by unfold short; omega)]
  obtain ⟨h39, h1⟩ := hhello
  rw [helloAt_eq h39 h1, Checked.pure_bind, byteAt_append beyond (by omega), if_neg (by simp [h1]; omega)]
  simp only [List.drop_drop, Nat.reduceAdd]
  rw [if_neg (by unfold short; omega), if_neg (by omega), byteAt_beyond beyond (by omega)]
  obtain ⟨hp, hq⟩ := h h39 h1
  rw [show 39 + (byteAt m 38).toNat = 38 + (1 + (byteAt m 38).toNat) by omega] at hp hq
  generalize hsid : 38 + (1 + (byteAt m 38).toNat) = p at hp hq ⊢
  by_cases hp2 : m.length < p + 2
  · rw [require_bind_of_not (by rw [distance_of_le hp]; omega), if_pos (by unfold short; omega)]
    exact .inl ⟨rfl, rfl⟩
  rw [require_bind_of (by rw [distance_of_le hp]; omega), if_neg (by unfold short; omega), be16At_eq (by omega),
    Checked.pure_bind, be16_beyond beyond (by omega)]
  by_cases hq1 : m.length < p + 2 + be16 (m.drop p) + 1
  · rw [require_bind_of_not (by rw [distance_of_le (by omega)]; omega), if_pos (by unfold short; omega)]
    exact .inl ⟨rfl, rfl⟩
  rw [require_bind_of (by rw [distance_of_le (by omega)]; omega), if_neg (by unfold short; omega), load_eq (by omega),
    Checked.pure_bind, byteAt_beyond beyond (by omega)]
  replace hq := hq (by omega)
  generalize hcomp : p + 2 + be16 (m.drop p) + (1 + (byteAt m (p + 2 + be16 (m.drop p))).toNat) = r at hq ⊢
  by_cases hr2 : m.length < r + 2
  · rw [require_bind_of_not (by rw [distance_of_le hq]; omega), if_pos (by unfold short; omega)]
    exact .inl ⟨rfl, rfl⟩
  rw [require_bind_of (by rw [distance_of_le hq]; omega), if_neg (by unfold short; omega), be16At_eq (by omega),
    Checked.pure_bind, be16_beyond beyond (by omega)]
  by_cases hend : m.length < r + 2 + be16 (m.drop r)
  · rw [require_bind_of_not (by rw [distance_of_le (by omega)]; omega), if_pos (by unfold short; omega)]
    exact .inl ⟨rfl, rfl⟩
  rw [require_bind_of (by rw [distance_of_le (by omega)]; omega), if_neg (by unfold short; omega),
    take_beyond beyond (by omega)]
  exact .inr ⟨r + 2, be16 (m.drop r), by omega, rfl, rfl⟩

/-- Otherwise there is a read outside of the message. -/
lemma clientHelloExtsAt_stuck (h : ¬ ClientInside m) : clientHelloExtsAt m = stuck := by
  dsimp only [ClientInside] at h
  push Not at h
  obtain ⟨h39, h1, h⟩ := h
  rw [show 39 + (byteAt m 38).toNat = 38 + (1 + (byteAt m 38).toNat) by omega] at h
  rw [clientHelloExtsAt, helloAt_eq h39 h1, Checked.pure_bind]
  have hsid := (byteAt m 38).toNat_lt
  generalize hp : 38 + (1 + (byteAt m 38).toNat) = p at h ⊢
  by_cases hple : p ≤ m.length
  · -- the compression methods
    obtain ⟨hq, hr⟩ := h hple
    have hcomp := (byteAt m (p + 2 + be16 (m.drop p))).toNat_lt
    rw [require_bind_of (by rw [distance_of_le hple]; omega), be16At_eq (by omega), Checked.pure_bind,
      require_bind_of (by rw [distance_of_le (by omega)]; omega)]
    dsimp only
    rw [load_eq (by omega), Checked.pure_bind, require_bind_of (le_distance hr (k := 256) (by omega) (by omega)),
      be16At_stuck (by omega), stuck_bind]
  · -- the session id
    rw [require_bind_of (le_distance (Nat.not_le.1 hple) (k := 256) (by omega) (by omega)), be16At_stuck (by omega),
      stuck_bind]

/-- The extensions of a ServerHello are where they are for a parser of bytes. -/
lemma serverHelloExtsAt_finds (h : ServerInside m) (beyond : Bytes) :
    Finds m (serverHelloExts (m ++ beyond) m.length) (serverHelloExtsAt m) := by
  unfold serverHelloExts serverHelloExtsAt
  by_cases hhello : 39 ≤ m.length ∧ byteAt m 0 = 2
  swap
  · rw [helloAt_fail hhello, Checked.fail_bind]
    refine .inl ⟨?_, rfl⟩
    by_cases htype : m.length < 4 ∨ byteAt (m ++ beyond) 0 ≠ 2
    · rw [if_pos htype]
    · push Not at htype
      rw [byteAt_append beyond (by omega)] at htype
      have hlen : ¬ 39 ≤ m.length := fun hlen => hhello ⟨hlen, htype.2⟩
      rw [byteAt_append beyond (by omega), if_neg (by simp [htype]), if_pos (by unfold short; omega)]
  obtain ⟨h39, h2⟩ := hhello
  rw [helloAt_eq h39 h2, Checked.pure_bind, byteAt_append beyond (by omega), if_neg (by simp [h2]; omega)]
  simp only [List.drop_drop, Nat.reduceAdd]
  rw [if_neg (by unfold short; omega), if_neg (by omega), byteAt_beyond beyond (by omega)]
  have hp := h h39 h2
  rw [show 39 + (byteAt m 38).toNat = 38 + (1 + (byteAt m 38).toNat) by omega] at hp
  generalize hsid : 38 + (1 + (byteAt m 38).toNat) = p at hp ⊢
  by_cases hp3 : m.length < p + 3
  · rw [require_bind_of_not (by rw [distance_of_le hp]; omega), if_pos (.inl (by unfold short; omega))]
    exact .inl ⟨rfl, rfl⟩
  rw [require_bind_of (by rw [distance_of_le hp]; omega), load_require (by omega), load_require (by omega),
    require_require, byteAt_beyond beyond (by omega), byteAt_drop, byteAt_append beyond (by omega)]
  by_cases hsuite : byteAt m p = 0x13 ∧ byteAt m (p + 1) = 0x01
  swap
  · rw [require_bind_of_not hsuite, if_pos (by tauto)]
    exact .inl ⟨rfl, rfl⟩
  have hspace : ¬ short (m.length - 4 - (2 + 32) - (1 + (byteAt m 38).toNat : ℕ)) 3 := by
    unfold short
    omega
  rw [require_bind_of hsuite, if_neg (by tauto)]
  by_cases hr2 : m.length < p + 3 + 2
  · rw [require_bind_of_not (by rw [distance_of_le (by omega)]; omega), if_pos (by unfold short; omega)]
    exact .inl ⟨rfl, rfl⟩
  rw [require_bind_of (by rw [distance_of_le (by omega)]; omega), if_neg (by unfold short; omega), be16At_eq (by omega),
    Checked.pure_bind, be16_beyond beyond (by omega)]
  by_cases hend : m.length < p + 3 + 2 + be16 (m.drop (p + 3))
  · rw [require_bind_of_not (by rw [distance_of_le (by omega)]; omega), if_pos (by unfold short; omega)]
    exact .inl ⟨rfl, rfl⟩
  rw [require_bind_of (by rw [distance_of_le (by omega)]; omega), if_neg (by unfold short; omega),
    take_beyond beyond (by omega)]
  exact .inr ⟨p + 3 + 2, be16 (m.drop (p + 3)), by omega, rfl, rfl⟩

lemma serverHelloExtsAt_stuck (h : ¬ ServerInside m) : serverHelloExtsAt m = stuck := by
  unfold ServerInside at h
  push Not at h
  obtain ⟨h39, h2, h⟩ := h
  have hsid := (byteAt m 38).toNat_lt
  rw [serverHelloExtsAt, helloAt_eq h39 h2, Checked.pure_bind,
    require_bind_of (le_distance (k := 256) (by omega) (by omega) (by omega)), load_stuck (by omega), stuck_bind]

/-- All of `s_quic_take_params`. -/
lemma takeParamsAt_prog {params plen : ℕ} (h : params + plen ≤ m.length) (fromServer : Bool) :
    (takeParamsAt m (params + plen) fromServer plen params >>= fun _ =>
      ofProg (Prog.modify fun c => { c with sawParams := true })) =
    ofProg (Conn.takeParams fromServer (cut m params (params + plen))) := by
  funext c
  have htake := @takeParamsAt_eq m params (params + plen) fromServer c plen (by omega) h
  simp only [bind, htake, ofProg, Conn.takeParams, length_exts h, Prog.get, Prog.modify]
  rw [show (⟨c.peerBidiLocal, c.peerBidiRemote⟩ : Limits) = c.limits from rfl]
  generalize takeParams c.peerCid c.origDcid fromServer plen (cut m params (params + plen)) c.limits = r
  obtain ⟨- | -, l⟩ := r
  all_goals rfl

/-- The rest of `s_quic_parse_client_hello`, which reads inside of the extensions. -/
lemma parseClientHelloAt_eq (h : ClientInside m) (beyond : Bytes) :
    parseClientHelloAt m = ofProg (parseClientHello (m ++ beyond) m.length) := by
  rw [parseClientHelloAt, parseClientHello]
  rcases clientHelloExtsAt_finds h beyond with ⟨hnone, hfail⟩ | ⟨exts, elen, hexts, hsome, hpure⟩
  · rw [hnone, hfail]
    rfl
  rw [hsome, hpure, Checked.pure_bind]
  dsimp only
  rw [clientShareAt_eq hexts]
  simp only [ofProg_bind, Prog.ofOption, ofProg_pure, Checked.pure_bind]
  refine congrArg _ (funext fun ks => congrArg _ (funext fun _ => ?_))
  rcases clientParamsAt_finds hexts with ⟨hnone, hfail⟩ | ⟨params, plen, hparams, hsome, hpure⟩
  · rw [hnone, hfail]
    rfl
  rw [hsome, hpure, Checked.pure_bind, ofProg_pure, Checked.pure_bind]
  exact takeParamsAt_prog hparams false

/-- The rest of `s_quic_parse_server_hello`. -/
lemma parseServerHelloAt_eq (h : ServerInside m) (beyond : Bytes) :
    parseServerHelloAt m = ofProg (parseServerHello (m ++ beyond) m.length) := by
  rw [parseServerHelloAt, parseServerHello]
  rcases serverHelloExtsAt_finds h beyond with ⟨hnone, hfail⟩ | ⟨exts, elen, hexts, hsome, hpure⟩
  · rw [hnone, hfail]
    rfl
  rw [hsome, hpure, Checked.pure_bind]
  dsimp only
  rw [serverShareAt_eq hexts]
  simp only [ofProg_bind, Prog.ofOption, ofProg_pure, Checked.pure_bind]

/-- Both parsers read only inside of the message, and return, just when the skips of the session id and, for a
ClientHello, of the compression methods stay inside.  They then return what the message alone determines. -/
theorem hello_inside (m : Bytes) (c : Conn) :
    ((parseClientHelloAt m c).isSome = true ↔ ClientInside m) ∧
    ((parseServerHelloAt m c).isSome = true ↔ ServerInside m) ∧
    ∀ beyond, (ClientInside m → parseClientHelloAt m c = some (parseClientHello (m ++ beyond) m.length c)) ∧
      (ServerInside m → parseServerHelloAt m c = some (parseServerHello (m ++ beyond) m.length c)) := by
  have hclient (beyond : Bytes) (h : ClientInside m) :
      parseClientHelloAt m c = some (parseClientHello (m ++ beyond) m.length c) :=
    congrFun (parseClientHelloAt_eq h beyond) c
  have hserver (beyond : Bytes) (h : ServerInside m) :
      parseServerHelloAt m c = some (parseServerHello (m ++ beyond) m.length c) :=
    congrFun (parseServerHelloAt_eq h beyond) c
  refine ⟨⟨fun hsome => ?_, fun h => ?_⟩, ⟨fun hsome => ?_, fun h => ?_⟩, fun beyond => ⟨hclient beyond, hserver beyond⟩⟩
  · by_contra h
    rw [parseClientHelloAt, clientHelloExtsAt_stuck h] at hsome
    cases hsome
  · rw [hclient [] h]
    rfl
  · by_contra h
    rw [parseServerHelloAt, serverHelloExtsAt_stuck h] at hsome
    cases hsome
  · rw [hserver [] h]
    rfl

theorem hello_inside_plain : ClientInside (buildClientHello zeros zeros (List.replicate 8 0)) ∧
    ServerInside (buildServerHello zeros zeros) ∧
    parseClientHelloAt (buildClientHello zeros zeros (List.replicate 8 0)) plainServer =
      some (parseClientHello (buildClientHello zeros zeros (List.replicate 8 0) ++ [])
        (buildClientHello zeros zeros (List.replicate 8 0)).length plainServer) ∧
    parseServerHelloAt (buildServerHello zeros zeros) plainServer =
      some (parseServerHello (buildServerHello zeros zeros ++ []) (buildServerHello zeros zeros).length plainServer) := by
  have hclient : ClientInside (buildClientHello zeros zeros (List.replicate 8 0)) := by decide +kernel
  have hserver : ServerInside (buildServerHello zeros zeros) := by decide +kernel
  exact ⟨hclient, hserver, ((hello_inside _ plainServer).2.2 []).1 hclient, ((hello_inside _ plainServer).2.2 []).2 hserver⟩

/-- A hello of 39 bytes whose session id is said to have 255 bytes. -/
def longSession (type : UInt8) : Bytes := message type (List.replicate 34 0 ++ [255])

theorem hello_outside : (parseClientHelloAt (longSession 1) plainServer).isSome = false ∧
    (parseServerHelloAt (longSession 2) plainServer).isSome = false := by
  constructor
  all_goals decide +kernel

end Suspenders.Quic
