import Suspenders.Quic.Scan

/-!
# Packets and frames, pointer by pointer

`s_quic_ingest` with the reads it makes, the sums it computes and the rounds of its loops.  It never gets stuck, whatever
the datagram is and whatever the payloads are, and it does what the functions on sequences of bytes do (`ingestAt_eq`).
-/

namespace Suspenders.Quic

open Lib Checked

variable {cr : Crypto} {env : Env} {m : Bytes} {p stop : ℕ} {c : Conn} {level : Level}

/-! ## Frames -/

/-- A big-endian number of three bytes at `p`. -/
def be24At (m : Bytes) (p : ℕ) : Checked Conn ℕ := do
  let a ← load m p
  let b ← load m (p + 1)
  let d ← load m (p + 2)
  pure ((a.toNat * 256 + b.toNat) * 256 + d.toNat)

/-- The loop of `s_quic_crypto_input` -/
def msgLoopAt (cr : Crypto) (env : Env) (level : Level) : ℕ → Checked Conn Unit
  | 0 => do
    let c ← ofProg Prog.get
    if c.rxCryptoParsed level + 4 ≤ (c.rxCrypto level).length then stuck else pure ()
  | n + 1 => do
    let c ← ofProg Prog.get
    let parsed := c.rxCryptoParsed level
    if parsed + 4 ≤ (c.rxCrypto level).length then do
      let bl ← be24At (c.rxCrypto level) (parsed + 1)
      if (c.rxCrypto level).length < parsed + (4 + bl) then pure ()
      else do
        ofProg (onMsg cr env level ((c.rxCrypto level).drop parsed ++
          List.replicate (8192 - (c.rxCrypto level).length) 0 ++ env.beyond) (4 + bl))
        ofProg (Prog.modify fun c => { c with
          rxCryptoParsed := Function.update c.rxCryptoParsed level (c.rxCryptoParsed level + (4 + bl)) })
        msgLoopAt cr env level n
    else pure ()

/-- `s_quic_crypto_input` -/
def cryptoInputAt (cr : Crypto) (env : Env) (level : Level) (offset : ℕ) (data : Bytes) : Checked Conn Unit :=
  if level = .app then pure ()
  else do
    require (offset ≤ 8192 ∧ data.length ≤ 8192 - offset)
    let c ← ofProg Prog.get
    let last ← add64 offset data.length
    if offset = (c.rxCrypto level).length then do
      ofProg (Prog.modify fun c => { c with rxCrypto := Function.update c.rxCrypto level (c.rxCrypto level ++ data) })
      msgLoopAt cr env level last
    else if last ≤ (c.rxCrypto level).length then pure ()
    else fail

/-- The loop that doubles the capacity. -/
def growCapAt (need : ℕ) : ℕ → ℕ → Checked Stream ℕ
  | 0, ncap => if ncap < need then stuck else pure ncap
  | n + 1, ncap =>
    if ncap < need then
      if streamMax / 2 < ncap then fail
      else do
        let ncap ← add64 ncap ncap
        growCapAt need n ncap
    else pure ncap

/-- A larger buffer, if `need` bytes do not fit. -/
def growRxAt (h : Heap) (need : ℕ) : Checked Stream Unit := do
  let s ← ofProg Prog.get
  if need ≤ s.rxCap then pure ()
  else do
    let ncap ← growCapAt need need s.rxCap
    let nbuf ← ofProg (Prog.ofOption (h.alloc ncap))
    ofProg (Prog.modify fun s => { { s with rx := some nbuf }.write 0 s.received with rxCap := ncap })

/-- `s_quic_stream_input` -/
def streamInputAt (h : Heap) (offset : ℕ) (data : Bytes) (fin : Bool) : Checked Stream Unit := do
  require (offset ≤ streamMax ∧ data.length ≤ streamMax - offset)
  ofProg (allocRx h)
  let need ← add64 offset data.length
  growRxAt h need
  ofProg (takeRx offset data)
  ofProg (Prog.modify fun s => { s with rxFin := s.rxFin || fin })

/-- A checked program on the stream of a connection.  What `s_quic_stream_input` makes of the packets of level `app`
alone is only recorded. -/
def onStreamAt (level : Level) (x : Checked Stream Unit) (recorded : Prog Stream Unit) : Checked Conn Unit := fun c =>
  (x c.stream).map fun r =>
    (r.1, { c with
      stream := r.2
      hist := { c.hist with appStream := if level = .app then (recorded c.hist.appStream).2 else c.hist.appStream } })

/-- The loop over the ranges of an ACK frame, for a number of rounds and a number of ranges. -/
def rangesAt (m : Bytes) (stop : ℕ) : ℕ → ℕ → ℕ → Checked Conn ℕ
  | _, 0, p => pure p
  | 0, _ + 1, _ => stuck
  | n + 1, count + 1, p => do
    let (_, p) ← getVarintAt m stop p
    let (_, p) ← getVarintAt m stop p
    rangesAt m stop n count p

/-- An ACK frame; the pointer behind it. -/
def ackFrameAt (m : Bytes) (stop : ℕ) (level : Level) (t : UInt8) (p : ℕ) : Checked Conn ℕ := do
  let (largest, p) ← getVarintAt m stop p
  let (_, p) ← getVarintAt m stop p
  let (count, p) ← getVarintAt m stop p
  let (first, p) ← getVarintAt m stop p
  ofProg (Prog.modify (·.applyAck level largest first))
  let p ← rangesAt m stop m.length count p
  if t = 0x03 then do
    let (_, p) ← getVarintAt m stop p
    let (_, p) ← getVarintAt m stop p
    let (_, p) ← getVarintAt m stop p
    pure p
  else pure p

/-- A CRYPTO frame; the pointer behind it. -/
def onCryptoAt (cr : Crypto) (env : Env) (m : Bytes) (stop : ℕ) (level : Level) (p : ℕ) : Checked Conn ℕ := do
  let (offset, p) ← getVarintAt m stop p
  let (len, p) ← getVarintAt m stop p
  require (len ≤ distance p stop)
  let data ← loads m p len
  cryptoInputAt cr env level offset data
  pure (p + len)

/-- The data of a STREAM frame; the pointer behind them. -/
def streamDataAt (env : Env) (m : Bytes) (stop : ℕ) (level : Level) (t : UInt8) (sid offset len p : ℕ) : Checked Conn ℕ := do
  require (len ≤ distance p stop)
  if sid = 0 then do
    let data ← loads m p len
    onStreamAt level (streamInputAt env.heap offset data (t &&& 0x01 ≠ 0))
      (streamInput env.heap offset data (t &&& 0x01 ≠ 0))
  else pure ()
  pure (p + len)

/-- A STREAM frame; the pointer behind it. -/
def streamFrameAt (env : Env) (m : Bytes) (stop : ℕ) (level : Level) (t : UInt8) (p : ℕ) : Checked Conn ℕ := do
  let (sid, p) ← getVarintAt m stop p
  let (offset, p) ← if t &&& 0x04 ≠ 0 then getVarintAt m stop p else pure (0, p)
  let (len, p) ← if t &&& 0x02 ≠ 0 then getVarintAt m stop p else pure (distance p stop, p)
  streamDataAt env m stop level t sid offset len p

/-- One frame of type `t` that goes on at `p`; the pointer behind it, or nothing if the connection is closed. -/
def frameAt (cr : Crypto) (env : Env) (m : Bytes) (stop : ℕ) (level : Level) (t : UInt8) (p : ℕ) :
    Checked Conn (Option ℕ) :=
  if t = 0x00 ∨ t = 0x01 ∨ t = 0x1e then pure (some p)
  else if t = 0x02 ∨ t = 0x03 then do
    let p ← ackFrameAt m stop level t p
    pure (some p)
  else if t = 0x06 then do
    let p ← onCryptoAt cr env m stop level p
    pure (some p)
  else if t &&& 0xf8 = 0x08 then do
    let p ← streamFrameAt env m stop level t p
    pure (some p)
  else if t = 0x1c ∨ t = 0x1d then do
    ofProg (Prog.modify fun c => { c with closed := true })
    pure none
  else fail

/-- `s_quic_parse_frames` of the text `m` from `p` on -/
def parseFramesAt (cr : Crypto) (env : Env) (m : Bytes) (level : Level) : ℕ → ℕ → Checked Conn Unit
  | 0, p => if p < m.length then stuck else pure ()
  | n + 1, p =>
    if p < m.length then do
      let t ← load m p
      match ← frameAt cr env m m.length level t (p + 1) with
      | none => pure ()
      | some p => parseFramesAt cr env m level n p
    else pure ()

/-! ## Packets -/

/-- The level of a packet with a long header, and the pointer behind its token. -/
def longLevelAt (pkt : Bytes) (first : UInt8) : Checked Conn (Level × ℕ) :=
  if (first &&& 0x30) >>> 4 = 0 then do
    let (tokenLen, p) ← getVarintAt pkt pkt.length 23
    let q ← add64 p tokenLen
    require (q ≤ pkt.length)
    pure (.initial, q)
  else if (first &&& 0x30) >>> 4 = 2 then pure (.handshake, 23)
  else fail

/-- A long header; a server learns the connection id of its client. -/
def longHeaderAt (pkt : Bytes) (first : UInt8) : Checked Conn Header := do
  let version ← loads pkt 1 4
  require (ofBytes version = 1)
  let b ← load pkt 5
  require (b = 8)
  require (6 + cidLen ≤ pkt.length)
  let dcid ← loads pkt 6 cidLen
  let c ← ofProg Prog.get
  require (dcid = c.localCid)
  require (14 < pkt.length)
  let b ← load pkt 14
  require (b = 8)
  require (15 + cidLen ≤ pkt.length)
  let scid ← loads pkt 15 cidLen
  ofProg (Prog.modify fun c => if c.isServer = true ∧ c.chDone = false then { c with peerCid := scid } else c)
  let (level, p) ← longLevelAt pkt first
  let (length, p) ← getVarintAt pkt pkt.length p
  let q ← add64 p length
  require (q ≤ pkt.length)
  pure ⟨level, p, q⟩

/-- A short header. -/
def shortHeaderAt (pkt : Bytes) : Checked Conn Header := do
  require (1 + cidLen + 4 + 16 ≤ pkt.length)
  let dcid ← loads pkt 1 cidLen
  let c ← ofProg Prog.get
  require (dcid = c.localCid)
  pure ⟨.app, 1 + cidLen, pkt.length⟩

/-- The protection is removed; the text has a buffer of 1500 bytes. -/
def unprotectAt (cr : Crypto) (k : Keys) (hd : Header) (pkt : Bytes) (first : UInt8) : Checked Conn (ℕ × Bytes) := do
  require (k.installed = true)
  require (hd.pnOffset + 4 + 16 ≤ hd.consumed)
  let sample ← loads pkt (hd.pnOffset + 4) 16
  let mask := cr.mask k.hp sample
  let plainFirst := first ^^^ (mask.getD 0 0 &&& firstBits (first &&& 0x80 ≠ 0))
  let pnLen := (plainFirst &&& 0x03).toNat + 1
  require (hd.pnOffset + pnLen + 16 ≤ hd.consumed)
  let bs ← loads pkt hd.pnOffset pnLen
  let pnBytes := xorBytes bs (mask.drop 1)
  let payload := hd.consumed - (hd.pnOffset + pnLen)
  require (16 ≤ payload ∧ payload - 16 ≤ 1500)
  let tag ← loads pkt (hd.consumed - 16) 16
  let mid ← loads pkt 1 (hd.pnOffset - 1)
  let text ← loads pkt (hd.pnOffset + pnLen) (payload - 16)
  match cr.decrypt k.key (nonce k.iv (ofBytes pnBytes)) (plainFirst :: (mid ++ pnBytes)) text tag with
  | none => fail
  | some plain => if plain.length ≤ 1500 then pure (ofBytes pnBytes, plain) else stuck

/-- The packet at the beginning of a datagram: its header, its number and its text. -/
def openedAt (cr : Crypto) (pkt : Bytes) : Checked Conn (Header × ℕ × Bytes) := do
  let first ← load pkt 0
  require (20 ≤ pkt.length)
  let hd ← if first &&& 0x80 ≠ 0 then longHeaderAt pkt first else shortHeaderAt pkt
  let c ← ofProg Prog.get
  let (pn, plain) ← unprotectAt cr (c.keys (!c.isServer) hd.level) hd pkt first
  pure (hd, pn, plain)

/-- A packet that was opened is noted, and its frames are parsed unless it is a duplicate. -/
def acceptPacketAt (cr : Crypto) (env : Env) (level : Level) (pn : ℕ) (plain : Bytes) : Checked Conn Unit := do
  let c ← ofProg Prog.get
  ofProg (Prog.modify fun c => { c with
    rxAck := Function.update c.rxAck level ((c.rxAck level).note pn).2
    hist := { c.hist with
      parsed := c.hist.parsed ++ if ((c.rxAck level).note pn).1 then [] else [(level, pn)] } })
  if ((c.rxAck level).note pn).1 then pure ()
  else do
    parseFramesAt cr env plain level plain.length 0
    ofProg (Prog.modify fun c => { c with hist := { c.hist with processed := c.hist.processed ++ [(level, pn)] } })

/-- `s_quic_open_packet` -/
def openPacketAt (cr : Crypto) (env : Env) (pkt : Bytes) : Checked Conn (Option ℕ) := do
  match ← attempt (openedAt cr pkt) with
  | none => pure none
  | some (hd, pn, plain) => do
    acceptPacketAt cr env hd.level pn plain
    pure (some hd.consumed)

/-- The loop of `s_quic_ingest`, with the bytes that are left.  A packet must not end behind them. -/
def ingestLoopAt (cr : Crypto) (env : Env) : ℕ → Bytes → Checked Conn Unit
  | 0, buf => if buf = [] then pure () else stuck
  | n + 1, buf =>
    if buf = [] then pure ()
    else do
      match ← openPacketAt cr env buf with
      | none => do
        let c ← ofProg Prog.get
        let b ← load buf 0
        if c.appReady = true ∧ b &&& 0x80 = 0 then fail else pure ()
      | some consumed =>
        if consumed = 0 then fail
        else if buf.length < consumed then stuck
        else do
          let b ← load buf 0
          if b &&& 0x80 = 0 then pure () else ingestLoopAt cr env n (buf.drop consumed)

/-- `s_quic_ingest` -/
def ingestAt (cr : Crypto) (env : Env) (buf : Bytes) : Checked Conn Unit := ingestLoopAt cr env buf.length buf

/-! ## Handshake messages -/

/-- The buffers of the handshake are `x`, up to `y`. -/
def Buffers (x : Level → Bytes) (y : Level → ℕ) (c : Conn) : Prop := c.rxCrypto = x ∧ c.rxCryptoParsed = y

lemma buffers_shakes (x : Level → Bytes) (y : Level → ℕ) : Shakes (Buffers x y) where
  numbers _ _ _ _ _ hc := hc
  offset _ _ hc := hc
  watches _ _ hq hc := ⟨(congrArg Watched.rxCrypto hq).trans hc.1, (congrArg Watched.rxCryptoParsed hq).trans hc.2⟩
  flags _ _ _ hc := hc
  ackEncoded c level hc := by
    unfold Conn.ackEncoded
    split
    · exact hc
    · exact hc
  record _ _ _ _ _ _ _ hc := hc
  flight _ _ hc := hc

/-- A message does not change the buffers. -/
lemma buffers_onMsg {msg : Bytes} {len : ℕ} {c' : Conn} (h : onMsg cr env level msg len c = (some (), c')) :
    Buffers c.rxCrypto c.rxCryptoParsed c' := by
  have hsteady := @Shakes.steady cr env _ (buffers_shakes c.rxCrypto c.rxCryptoParsed) fun _ _ _ _ hc => hc
  exact Prog.Spec.of_some (hsteady.onMsg level msg len) ⟨rfl, rfl⟩ h

lemma be24At_eq {x : Bytes} (h : p + 3 ≤ x.length) : be24At x p = pure (be24 (x.drop p)) := by
  rw [be24At, load_eq (by omega), load_eq (by omega), load_eq (by omega), be24, byteAt_drop, byteAt_drop, byteAt_drop]
  rfl

/-- A message has at least four bytes, so that the loop ends in time. -/
lemma msgLoopAt_eq {n : ℕ} (hn : (c.rxCrypto level).length - c.rxCryptoParsed level ≤ n) :
    msgLoopAt cr env level n c = some (msgLoop cr env level n c) := by
  induction n generalizing c with
  | zero =>
    have hend : ¬ c.rxCryptoParsed level + 4 ≤ (c.rxCrypto level).length := by omega
    simp only [msgLoopAt, bind, ofProg, Prog.get_apply, if_neg hend]
    rfl
  | succ n ih =>
    rw [msgLoopAt, Checked.get_bind, msgLoop, Prog.get_bind]
    by_cases hhead : c.rxCryptoParsed level + 4 ≤ (c.rxCrypto level).length
    swap
    · rw [if_neg hhead, if_pos (by rw [List.length_drop]; omega)]
      rfl
    rw [if_pos hhead, if_neg (by rw [List.length_drop]; omega), be24At_eq (by omega), Checked.pure_bind, List.drop_drop]
    generalize be24 ((c.rxCrypto level).drop (c.rxCryptoParsed level + 1)) = bl
    by_cases hbody : (c.rxCrypto level).length < c.rxCryptoParsed level + (4 + bl)
    · rw [if_pos hbody, if_pos (by rw [List.length_drop]; omega)]
      rfl
    rw [if_neg hbody, if_neg (by rw [List.length_drop]; omega)]
    generalize (c.rxCrypto level).drop (c.rxCryptoParsed level) ++ List.replicate (8192 - (c.rxCrypto level).length) 0 ++
      env.beyond = msg
    cases hmsg : onMsg cr env level msg (4 + bl) c with
    | mk o c' =>
      cases o with
      | none => rw [Checked.bind_of_none (congrArg some hmsg), Prog.bind_of_none hmsg]
      | some _ =>
        rw [Checked.bind_of_some (congrArg some hmsg), Prog.bind_of_eq hmsg, Checked.modify_bind, Prog.modify_bind]
        obtain ⟨hcrypto, hparsed⟩ := buffers_onMsg hmsg
        refine ih ?_
        simp only [hcrypto, hparsed, Function.update_self]
        omega

/-- `s_quic_crypto_input` does not get stuck. -/
lemma cryptoInputAt_eq (offset : ℕ) (data : Bytes) :
    cryptoInputAt cr env level offset data c = some (cryptoInput cr env level offset data c) := by
  unfold cryptoInputAt cryptoInput
  split
  next => rfl
  next =>
    by_cases hfit : offset ≤ 8192 ∧ data.length ≤ 8192 - offset
    swap
    · rw [require_bind_of_not hfit, Prog.require_of_not hfit]
      rfl
    rw [require_bind_of hfit, Prog.require_bind hfit, Checked.get_bind, Prog.get_bind, add64_of_lt (by omega),
      Checked.pure_bind]
    split
    next hnext =>
      rw [Checked.modify_bind, Prog.modify_bind]
      refine msgLoopAt_eq ?_
      simp only [Function.update_self, List.length_append]
      omega
    next =>
      split
      · rfl
      · rfl

/-! ## The stream -/

/-- A buffer that is there has some bytes. -/
def Growable (s : Stream) : Prop := s.rx.isSome = true → 0 < s.rxCap

lemma growCapAt_eq {need n ncap : ℕ} (hpos : 0 < ncap) (hn : need - ncap ≤ n) :
    growCapAt need n ncap = ofProg (Prog.ofOption (growCap need ncap)) := by
  induction n generalizing ncap with
  | zero =>
    rw [growCapAt, growCap, if_neg (by omega), if_neg (by omega)]
    rfl
  | succ n ih =>
    rw [growCapAt, growCap]
    split
    next hlt =>
      split
      next => rfl
      next hbig =>
        have hmax : streamMax / 2 = 131072 := rfl
        rw [if_neg (by omega), add64_of_lt (by omega), Checked.pure_bind, ← Nat.mul_two]
        exact ih (by omega) (by omega)
    next => rfl

lemma growRxAt_eq {h : Heap} {s : Stream} (hpos : 0 < s.rxCap) (need : ℕ) :
    growRxAt h need s = some (growRx h need s) := by
  unfold growRxAt growRx
  rw [Checked.get_bind, Prog.get_bind]
  split
  · rfl
  · rw [growCapAt_eq hpos (Nat.sub_le _ _)]
    simp only [← ofProg_bind]
    rfl

/-- There is a buffer after the first allocation, and otherwise nothing has changed. -/
lemma growable_allocRx (h : Heap) : Prog.Spec Growable (allocRx h) (fun _ s => 0 < s.rxCap) Growable := by
  refine Prog.Spec.get_bind fun s => Prog.Spec.ite (fun hsome => Prog.Spec.pure ?_) fun hnone => ?_
  · rintro _ ⟨rfl, hs⟩
    exact hs hsome
  · refine Prog.Spec.modify_bind (T := fun s => s.rxCap = 8192) (fun _ _ => rfl) ?_
    refine Prog.Spec.ofOption_bind (fun buf _ => Prog.Spec.modify fun s hs => ?_) fun s hs => ?_
    · show 0 < s.rxCap
      omega
    · intro _
      omega

/-- `s_quic_stream_input` does not get stuck. -/
lemma streamInputAt_eq {h : Heap} {s : Stream} (hs : Growable s) (offset : ℕ) (data : Bytes) (fin : Bool) :
    streamInputAt h offset data fin s = some (streamInput h offset data fin s) := by
  have hmax : streamMax = 262144 := rfl
  unfold streamInputAt streamInput
  by_cases hfit : offset ≤ streamMax ∧ data.length ≤ streamMax - offset
  swap
  · rw [require_bind_of_not hfit, Prog.require_of_not hfit]
    rfl
  rw [require_bind_of hfit, Prog.require_bind hfit]
  have halloc := growable_allocRx h s hs
  cases hs₁ : allocRx h s with
  | mk o s₁ =>
    rw [hs₁] at halloc
    cases o with
    | none => rw [Checked.bind_of_none (congrArg some hs₁), Prog.bind_of_none hs₁]
    | some _ =>
      rw [Checked.bind_of_some (congrArg some hs₁), Prog.bind_of_eq hs₁, add64_of_lt (by omega), Checked.pure_bind]
      have hgrow := growRxAt_eq (h := h) halloc (offset + data.length)
      cases hs₂ : growRx h (offset + data.length) s₁ with
      | mk o s₂ =>
        rw [hs₂] at hgrow
        cases o with
        | none => rw [Checked.bind_of_none hgrow, Prog.bind_of_none hs₂]
        | some _ =>
          rw [Checked.bind_of_some hgrow, Prog.bind_of_eq hs₂, ← ofProg_bind]
          rfl

lemma le_growCap {need ncap n : ℕ} (h : growCap need ncap = some n) : ncap ≤ n := by
  induction ncap using growCap.induct need with
  | case1 ncap hlt hbig => simp [growCap, hlt, hbig] at h
  | case2 hlt hbig => simp [growCap, hlt] at h
  | case3 ncap hlt hbig hzero ih =>
    rw [growCap, if_pos hlt, if_neg hbig, if_neg hzero] at h
    have hle := ih h
    omega
  | case4 ncap hlt =>
    rw [growCap, if_neg hlt] at h
    exact Nat.le_of_eq (Option.some.inj h)

/-- `s_quic_stream_input` keeps the buffer. -/
lemma growable_streamInput (h : Heap) (offset : ℕ) (data : Bytes) (fin : Bool) :
    Prog.Keeps Growable (streamInput h offset data fin) := by
  have hE (s : Stream) (hs : 0 < s.rxCap) : Growable s := fun _ => hs
  refine Prog.Keeps.require.bind fun _ => (growable_allocRx h).bind fun _ => ?_
  have hgrow : Prog.Keeps (fun s => 0 < s.rxCap) (growRx h (offset + data.length)) := by
    refine Prog.Keeps.get_bind fun s hs => Prog.Keeps.ite (fun _ => Prog.Keeps.pure ()) fun _ => ?_
    refine Prog.Spec.ofOption_bind (fun ncap hncap => ?_) fun _ hs => hs
    refine (Prog.Keeps.ofOption _).bind fun nbuf => Prog.Keeps.modify fun t _ => ?_
    exact Nat.lt_of_lt_of_le hs (le_growCap hncap)
  refine (hgrow.spec hE).bind fun _ => ?_
  have htake : Prog.Keeps (fun s => 0 < s.rxCap) (takeRx offset data) := by
    refine Prog.Keeps.get_bind fun s _ => Prog.Keeps.ite (fun _ => Prog.Keeps.modify fun t ht => ?_) fun _ =>
      Prog.Keeps.ite (fun _ => Prog.Keeps.pure ()) fun _ => Prog.Keeps.fail
    simpa only [Stream.write_rxCap] using ht
  exact (htake.spec hE).bind fun _ => Prog.Spec.modify fun s hs => hE _ hs

/-! ## Frames -/

/-- What a parser of bytes leaves is where the pointer is then, behind `p`. -/
def Follows (m : Bytes) (stop p : ℕ) (x : Prog Conn Bytes) (y : Checked Conn ℕ) (c : Conn) : Prop :=
  match x c with
  | (none, c') => y c = some (none, c')
  | (some rest, c') => ∃ q, p ≤ q ∧ q ≤ stop ∧ rest = cut m q stop ∧ y c = some (some q, c')

/-- The same for a frame, which may be the last one. -/
def FollowsFrame (m : Bytes) (stop p : ℕ) (x : Prog Conn (Option Bytes)) (y : Checked Conn (Option ℕ)) (c : Conn) : Prop :=
  match x c with
  | (none, c') => y c = some (none, c')
  | (some none, c') => y c = some (some none, c')
  | (some (some rest), c') => ∃ q, p ≤ q ∧ q ≤ stop ∧ rest = cut m q stop ∧ y c = some (some (some q), c')

lemma Follows.frame {x : Prog Conn Bytes} {y : Checked Conn ℕ} (h : Follows m stop p x y c) :
    FollowsFrame m stop p (some <$> x) (y >>= fun q => pure (some q)) c := by
  unfold Follows at h
  unfold FollowsFrame
  cases hc : x c with
  | mk o c' =>
    rw [hc] at h
    cases o with
    | none =>
      rw [Prog.map_of_none _ hc]
      exact Checked.bind_of_none h
    | some rest =>
      rw [Prog.map_of_eq _ hc]
      obtain ⟨q, hpq, hq, hrest, hy⟩ := h
      exact ⟨q, hpq, hq, hrest, Checked.bind_of_some hy⟩

section Follows

variable {p₀ : ℕ} (hstop : stop ≤ m.length)

include hstop

/-- Both read an integer. -/
lemma follows_varint {f : ℕ × Bytes → Prog Conn Bytes} {g : ℕ × ℕ → Checked Conn ℕ} (p : ℕ)
    (h : ∀ v q, p < q → q ≤ stop → v < 2 ^ 62 → Follows m stop p₀ (f (v, cut m q stop)) (g (v, q)) c) :
    Follows m stop p₀ (Prog.ofOption (getVarint (cut m p stop)) >>= f) (getVarintAt m stop p >>= g) c := by
  rcases getVarintAt_cases p hstop with ⟨hnone, hfail⟩ | ⟨v, q, hlt, hle, hv, hsome, hpure⟩
  · rw [hnone, hfail]
    exact rfl
  · rw [hsome, hpure, Checked.pure_bind]
    exact h v q hlt hle hv

/-- Every range has some bytes, so that the loop ends in time, however many ranges there are. -/
lemma rangesAt_cases {n p : ℕ} (count : ℕ) (hp : p ≤ stop) (hn : stop - p < n) :
    (skipVarints (2 * count) (cut m p stop) = none ∧ rangesAt m stop n count p = fail) ∨
    ∃ q, p ≤ q ∧ q ≤ stop ∧ skipVarints (2 * count) (cut m p stop) = some (cut m q stop) ∧
      rangesAt m stop n count p = pure q := by
  induction n generalizing p count with
  | zero => omega
  | succ n ih =>
    cases count with
    | zero => exact .inr ⟨p, Nat.le_refl p, hp, rfl, rfl⟩
    | succ count =>
      rw [rangesAt, show 2 * (count + 1) = 2 * count + 1 + 1 from rfl, skipVarints]
      rcases getVarintAt_cases p hstop with ⟨hnone, hfail⟩ | ⟨_, p₁, hlt₁, hle₁, -, hsome₁, hpure₁⟩
      · rw [hnone, hfail]
        exact .inl ⟨rfl, rfl⟩
      rw [hsome₁, hpure₁, Checked.pure_bind]
      simp only [Option.bind_eq_bind, Option.bind_some]
      rw [skipVarints]
      rcases getVarintAt_cases p₁ hstop with ⟨hnone, hfail⟩ | ⟨_, p₂, hlt₂, hle₂, -, hsome₂, hpure₂⟩
      · rw [hnone, hfail]
        exact .inl ⟨rfl, rfl⟩
      rw [hsome₂, hpure₂, Checked.pure_bind]
      rcases ih count hle₂ (by omega) with ⟨hnone, hfail⟩ | ⟨q, hlt, hle, hsome, hpure⟩
      · exact .inl ⟨hnone, hfail⟩
      · exact .inr ⟨q, by omega, hle, hsome, hpure⟩

omit hstop in
lemma follows_pure {q : ℕ} (hpq : p₀ ≤ q) (hq : q ≤ stop) : Follows m stop p₀ (pure (cut m q stop)) (pure q) c :=
  ⟨q, hpq, hq, rfl, rfl⟩

/-- The integers that are ignored at the end of an ACK frame. -/
lemma follows_ecn (h : p₀ ≤ p) :
    Follows m stop p₀ (Prog.ofOption (skipVarints 3 (cut m p stop)))
      (do let (_, p) ← getVarintAt m stop p
          let (_, p) ← getVarintAt m stop p
          let (_, p) ← getVarintAt m stop p
          pure p) c := by
  simp only [skipVarints, Option.bind_eq_bind, Prog.ofOption_bind_option]
  refine follows_varint hstop p fun _ p₁ h₁ _ _ => follows_varint hstop p₁ fun _ p₂ h₂ _ _ => ?_
  refine follows_varint hstop p₂ fun _ p₃ h₃ hle₃ _ => follows_pure (by omega) hle₃

lemma ackFrameAt_follows (t : UInt8) :
    Follows m stop p (ackFrame level t (cut m p stop)) (ackFrameAt m stop level t p) c := by
  refine follows_varint hstop p fun largest p₁ h₁ _ _ => follows_varint hstop p₁ fun _ p₂ h₂ _ _ => ?_
  refine follows_varint hstop p₂ fun count p₃ h₃ _ _ => follows_varint hstop p₃ fun first p₄ h₄ hle₄ _ => ?_
  change Follows m stop p (Prog.ofOption (skipVarints (2 * count) (cut m p₄ stop)) >>= _)
    (rangesAt m stop m.length count p₄ >>= _) (c.applyAck level largest first)
  rcases rangesAt_cases hstop count hle₄ (show stop - p₄ < m.length by omega) with
    ⟨hnone, hfail⟩ | ⟨p₅, h₅, hle₅, hsome, hpure⟩
  · rw [hnone, hfail]
    exact rfl
  rw [hsome, hpure, Checked.pure_bind]
  change Follows m stop p (Prog.ofOption (if t = 0x03 then skipVarints 3 (cut m p₅ stop) else some (cut m p₅ stop))) _ _
  split
  · exact follows_ecn hstop (by omega)
  · exact follows_pure (by omega) hle₅

lemma onCryptoAt_follows : Follows m stop p (onCrypto cr env level (cut m p stop)) (onCryptoAt cr env m stop level p) c := by
  refine follows_varint hstop p fun offset p₁ h₁ _ _ => follows_varint hstop p₁ fun len p₂ h₂ hle₂ _ => ?_
  dsimp only
  rw [length_cut hstop, distance_of_le hle₂]
  by_cases hlen : len ≤ stop - p₂
  swap
  · rw [Prog.require_of_not hlen, require_bind_of_not hlen]
    exact rfl
  rw [Prog.require_of hlen, require_bind_of hlen, loads_of_le (by omega), Checked.pure_bind, take_cut (by omega),
    drop_cut]
  change Follows m stop p (cryptoInput cr env level offset (cut m p₂ (p₂ + len)) >>= fun _ => pure (cut m (p₂ + len) stop))
    _ c
  have hinput := @cryptoInputAt_eq cr env c level offset (cut m p₂ (p₂ + len))
  unfold Follows
  cases hc : cryptoInput cr env level offset (cut m p₂ (p₂ + len)) c with
  | mk o c' =>
    rw [hc] at hinput
    cases o with
    | none =>
      rw [Prog.bind_of_none hc, Checked.bind_of_none hinput]
    | some _ =>
      rw [Prog.bind_of_eq hc, Checked.bind_of_some hinput]
      exact ⟨p₂ + len, by omega, by omega, rfl, rfl⟩

omit hstop in
/-- A stream that does not get stuck does the same in a connection. -/
lemma onStreamAt_eq {x : Checked Stream Unit} {y : Prog Stream Unit} (h : x c.stream = some (y c.stream)) :
    onStreamAt level x y c = some (onStream level y c) := by
  unfold onStreamAt onStream
  rw [h]
  rfl

/-- The data of a STREAM frame, when its fields have been read. -/
lemma follows_streamData (hs : Growable c.stream) (t : UInt8) (sid offset len : ℕ) (hp : p ≤ stop) (h : p₀ ≤ p) :
    Follows m stop p₀
      (do let (sid, offset, data, rest) ← Prog.ofOption (if (cut m p stop).length < len then none
            else some (sid, offset, (cut m p stop).take len, (cut m p stop).drop len))
          if sid = 0 then onStream level (streamInput env.heap offset data (t &&& 0x01 ≠ 0)) else pure ()
          pure rest)
      (streamDataAt env m stop level t sid offset len p) c := by
  unfold streamDataAt
  rw [length_cut hstop, distance_of_le hp]
  by_cases hlen : len ≤ stop - p
  swap
  · rw [if_pos (by omega), require_bind_of_not hlen]
    exact rfl
  rw [if_neg (by omega), require_bind_of hlen, take_cut (by omega), drop_cut, loads_of_le (by omega)]
  dsimp only [Prog.ofOption, Prog.pure_bind_apply, Checked.pure_bind]
  by_cases hsid : sid = 0
  swap
  · rw [if_neg hsid, if_neg hsid]
    exact follows_pure (by omega) (by omega)
  rw [if_pos hsid, if_pos hsid]
  generalize cut m p (p + len) = data
  have hinput := @onStreamAt_eq c level _ _ (streamInputAt_eq (h := env.heap) hs offset data (t &&& 0x01 ≠ 0))
  unfold Follows
  cases hc : onStream level (streamInput env.heap offset data (t &&& 0x01 ≠ 0)) c with
  | mk o c' =>
    rw [hc] at hinput
    cases o with
    | none => rw [Prog.bind_of_none hc, Checked.bind_of_none hinput]
    | some _ =>
      rw [Prog.bind_of_eq hc, Checked.bind_of_some hinput]
      exact ⟨p + len, by omega, by omega, rfl, rfl⟩

/-- The length of a STREAM frame and its data, when its stream and its offset have been read. -/
lemma follows_streamLen (hs : Growable c.stream) (t : UInt8) (sid offset : ℕ) (hp : p ≤ stop) (h : p₀ ≤ p) :
    Follows m stop p₀
      (do let (sid, offset, data, rest) ← Prog.ofOption (do
            let (len, p) ← if t &&& 0x02 ≠ 0 then getVarint (cut m p stop)
              else some ((cut m p stop).length, cut m p stop)
            if p.length < len then none else some (sid, offset, p.take len, p.drop len))
          if sid = 0 then onStream level (streamInput env.heap offset data (t &&& 0x01 ≠ 0)) else pure ()
          pure rest)
      (do let (len, p) ← if t &&& 0x02 ≠ 0 then getVarintAt m stop p else pure (distance p stop, p)
          streamDataAt env m stop level t sid offset len p) c := by
  by_cases h2 : t &&& 0x02 ≠ 0
  · simp only [if_pos h2, Option.bind_eq_bind, Prog.ofOption_bind_option, Prog.bind_assoc]
    exact follows_varint hstop p fun len p₁ h₁ hle₁ _ => follows_streamData hstop hs t sid offset len hle₁ (by omega)
  · simp only [if_neg h2, Checked.pure_bind, distance_of_le hp]
    rw [← length_cut (p := p) hstop]
    exact follows_streamData hstop hs t sid offset _ hp h

lemma streamFrameAt_follows (hs : Growable c.stream) (t : UInt8) :
    Follows m stop p (streamFrame env level t (cut m p stop)) (streamFrameAt env m stop level t p) c := by
  unfold streamFrame streamFields streamFrameAt
  simp only [Option.bind_eq_bind, Prog.ofOption_bind_option, Prog.bind_assoc]
  refine follows_varint hstop p fun sid p₁ h₁ hle₁ _ => ?_
  by_cases h4 : t &&& 0x04 ≠ 0
  · simp only [if_pos h4, Prog.ofOption_bind_option, Prog.bind_assoc]
    exact follows_varint hstop p₁ fun offset p₂ h₂ hle₂ _ => follows_streamLen hstop hs t sid offset hle₂ (by omega)
  · simp only [if_neg h4]
    exact follows_streamLen hstop hs t sid 0 hle₁ (by omega)

lemma frameAt_follows (hs : Growable c.stream) (t : UInt8) (hp : p ≤ stop) :
    FollowsFrame m stop p (frame cr env level t (cut m p stop)) (frameAt cr env m stop level t p) c := by
  unfold frame frameAt
  split
  case isTrue => exact ⟨p, Nat.le_refl p, hp, rfl, rfl⟩
  split
  case isTrue => exact (ackFrameAt_follows hstop t).frame
  split
  case isTrue => exact (onCryptoAt_follows hstop).frame
  split
  case isTrue => exact (streamFrameAt_follows hstop hs t).frame
  split
  case isTrue => exact rfl
  case isFalse => exact rfl

end Follows

/-! ## Payloads -/

/-- The buffer of the stream can grow. -/
def Conn.Growable (c : Conn) : Prop := Quic.Growable c.stream

lemma growable_shakes : Shakes Conn.Growable where
  numbers _ _ _ _ _ hc := hc
  offset _ _ hc := hc
  watches c c' hq hc := by
    have hs : c'.stream = c.stream := congrArg Watched.stream hq
    unfold Conn.Growable
    rwa [hs]
  flags _ _ _ hc := hc
  ackEncoded c level hc := by
    unfold Conn.ackEncoded
    split
    · exact hc
    · exact hc
  record _ _ _ _ _ _ _ hc := hc
  flight _ _ hc := hc

/-- A frame keeps the buffer. -/
lemma growable_frame (t : UInt8) (p : Bytes) : Prog.Keeps Conn.Growable (frame cr env level t p) := by
  have hsteady := @Shakes.steady cr env _ growable_shakes fun _ _ _ _ hc => hc
  refine (hsteady.handles (fun _ _ _ hc => hc) level).frame t p fun _ => ?_
  unfold streamFrame
  refine Prog.Spec.ofOption_bind (fun (sid, offset, data, rest) _ => Prog.Spec.ite (fun _ => ?_) fun _ => ?_) fun _ hc => hc
  · refine Prog.Spec.bind (Q := fun _ => Conn.Growable) ?_ fun _ => Prog.Spec.pure fun _ hc => hc
    exact Prog.Spec.of_snd fun c hc => (growable_streamInput env.heap offset data _).apply hc
  · exact Prog.Spec.pure fun _ hc => hc

/-- `s_quic_parse_frames` does not get stuck: a frame has at least one byte. -/
lemma parseFramesAt_eq {n : ℕ} (hc : c.Growable) (hn : m.length - p ≤ n) :
    parseFramesAt cr env m level n p c = some (parseFrames cr env level n (cut m p m.length) c) := by
  induction n generalizing p c with
  | zero =>
    rw [parseFramesAt, if_neg (by omega)]
    rfl
  | succ n ih =>
    rw [parseFramesAt]
    by_cases hlt : p < m.length
    · obtain ⟨t, hcons, hload⟩ := cut_cons hlt (Nat.le_refl _)
      have hframe := @frameAt_follows cr env m (p + 1) m.length c level (Nat.le_refl _) hc t hlt
      have hkeep := @growable_frame cr env level t (cut m (p + 1) m.length) c hc
      rw [if_pos hlt, hload, Checked.pure_bind, hcons, parseFrames]
      unfold FollowsFrame at hframe
      cases hf : frame cr env level t (cut m (p + 1) m.length) c with
      | mk o c' =>
        rw [hf] at hframe hkeep
        rcases o with - | - | rest
        · rw [Checked.bind_of_none hframe, Prog.bind_of_none hf]
        · rw [Checked.bind_of_some hframe, Prog.bind_of_eq hf]
          rfl
        · obtain ⟨q, hpq, -, rfl, hq⟩ := hframe
          rw [Checked.bind_of_some hq, Prog.bind_of_eq hf]
          exact ih hkeep (by omega)
    · have hnil : cut m p m.length = [] := by
        rw [cut, List.take_length, List.drop_eq_nil_of_le (by omega)]
      rw [if_neg hlt, hnil]
      rfl

lemma cut_self (m : Bytes) : cut m 0 m.length = m := by
  rw [cut, List.take_length, List.drop_zero]

/-- A packet that was opened is processed without getting stuck. -/
lemma acceptPacketAt_eq (hc : c.Growable) (pn : ℕ) (plain : Bytes) :
    acceptPacketAt cr env level pn plain c = some (acceptPacket cr env level pn plain c) := by
  unfold acceptPacketAt acceptPacket
  rw [Checked.get_bind, Prog.get_bind, Checked.modify_bind, Prog.modify_bind]
  split
  · rfl
  · generalize hc' : { c with rxAck := _, hist := _ } = c'
    have hframes := @parseFramesAt_eq cr env plain 0 c' level plain.length (hc' ▸ hc) (Nat.le_of_eq rfl)
    rw [cut_self] at hframes
    cases hf : parseFrames cr env level plain.length plain c' with
    | mk o c₂ =>
      rw [hf] at hframes
      cases o with
      | none => rw [Checked.bind_of_none hframes, Prog.bind_of_none hf]
      | some _ =>
        rw [Checked.bind_of_some hframes, Prog.bind_of_eq hf]
        rfl

/-! ## Headers -/

section Headers

variable {pkt : Bytes}

/-- A long header that is not for us changes nothing. -/
lemma learn_of_none (h : sourceCid c.localCid pkt = none) : c.learn pkt = c := by
  unfold Conn.learn
  rw [h]
  split
  · rfl
  · rfl

lemma drop_eq_cut (m : Bytes) (p : ℕ) : m.drop p = cut m p m.length := by
  rw [cut, List.take_length]

lemma longLevelAt_cases (hlen : 23 ≤ pkt.length) (hmax : pkt.length ≤ 1500) :
    (longLevel pkt = none ∧ longLevelAt pkt (byteAt pkt 0) = fail) ∨
    ∃ l q, 23 ≤ q ∧ q ≤ pkt.length ∧ longLevel pkt = some (l, cut pkt q pkt.length) ∧
      longLevelAt pkt (byteAt pkt 0) = pure (l, q) := by
  unfold longLevel longLevelAt
  rw [show pkt.getD 0 0 = byteAt pkt 0 from rfl, drop_eq_cut]
  split
  · rcases getVarintAt_cases 23 (Nat.le_refl pkt.length) with ⟨hnone, hfail⟩ | ⟨v, p, hlt, hle, hv, hsome, hpure⟩
    · rw [hnone, hfail]
      exact .inl ⟨rfl, rfl⟩
    rw [hsome, hpure, Checked.pure_bind]
    dsimp only [Option.bind_eq_bind, Option.bind_some]
    rw [length_cut (Nat.le_refl _), add64_of_lt (by omega), Checked.pure_bind, drop_cut]
    by_cases hv : p + v ≤ pkt.length
    · rw [if_neg (by omega), require_bind_of hv]
      exact .inr ⟨.initial, p + v, by omega, hv, rfl, rfl⟩
    · rw [if_pos (by omega), require_bind_of_not hv]
      exact .inl ⟨rfl, rfl⟩
  · split
    · exact .inr ⟨.handshake, 23, Nat.le_refl 23, hlen, rfl, rfl⟩
    · exact .inl ⟨rfl, rfl⟩

/-- What a header says of a packet lies inside of it. -/
def Header.Inside (hd : Header) (n : ℕ) : Prop := 0 < hd.pnOffset ∧ hd.pnOffset ≤ hd.consumed ∧ hd.consumed ≤ n

/-- The rest of a long header, behind the connection ids. -/
lemma longRest_cases (hlen : 23 ≤ pkt.length) (hmax : pkt.length ≤ 1500) :
    (longHeader pkt = none ∧ (do
      let (level, p) ← longLevelAt pkt (byteAt pkt 0)
      let (length, p) ← getVarintAt pkt pkt.length p
      let q ← add64 p length
      require (q ≤ pkt.length)
      pure (⟨level, p, q⟩ : Header)) = fail) ∨
    ∃ hd, hd.Inside pkt.length ∧ longHeader pkt = some hd ∧ (do
      let (level, p) ← longLevelAt pkt (byteAt pkt 0)
      let (length, p) ← getVarintAt pkt pkt.length p
      let q ← add64 p length
      require (q ≤ pkt.length)
      pure ⟨level, p, q⟩) = pure hd := by
  unfold longHeader
  rcases longLevelAt_cases hlen hmax with ⟨hnone, hfail⟩ | ⟨l, p, hp, hple, hsome, hpure⟩
  · rw [hnone, hfail]
    exact .inl ⟨rfl, rfl⟩
  rw [hsome, hpure, Checked.pure_bind]
  dsimp only [Option.bind_eq_bind, Option.bind_some]
  rcases getVarintAt_cases p (Nat.le_refl pkt.length) with ⟨hnone, hfail⟩ | ⟨v, q, hlt, hle, hv, hsome, hpure⟩
  · rw [hnone, hfail]
    exact .inl ⟨rfl, rfl⟩
  rw [hsome, hpure, Checked.pure_bind]
  dsimp only [Option.bind_some]
  rw [length_cut (Nat.le_refl _), Nat.sub_sub_self hle, add64_of_lt (by omega), Checked.pure_bind]
  by_cases hv : q + v ≤ pkt.length
  · rw [if_neg (by omega), require_bind_of hv]
    exact .inr ⟨⟨l, q, q + v⟩, ⟨show 0 < q by omega, Nat.le_add_right q v, hv⟩, rfl, rfl⟩
  · rw [if_pos (by omega), require_bind_of_not hv]
    exact .inl ⟨rfl, rfl⟩

lemma sourceCid_eq : sourceCid c.localCid pkt = if ofBytes ((pkt.drop 1).take 4) = 1 ∧ byteAt pkt 5 = 8 ∧
    (pkt.drop 6).take cidLen = c.localCid ∧ 14 < pkt.length ∧ byteAt pkt 14 = 8 ∧ 15 + cidLen ≤ pkt.length
    then some ((pkt.drop 15).take cidLen) else none := by
  unfold sourceCid byteAt
  grind

/-- A long header. -/
lemma longHeaderAt_eq (hlong : isLong pkt = true) (hlen : 20 ≤ pkt.length) (hmax : pkt.length ≤ 1500) :
    longHeaderAt pkt (byteAt pkt 0) c =
        some ((sourceCid c.localCid pkt).bind fun _ => longHeader pkt, c.learn pkt) ∧
      ∀ hd ∈ (sourceCid c.localCid pkt).bind fun _ => longHeader pkt, hd.Inside pkt.length := by
  have hnone (h : sourceCid c.localCid pkt = none) (x : Checked Conn Header) (hx : x = fail) :
      x c = some ((sourceCid c.localCid pkt).bind fun _ => longHeader pkt, c.learn pkt) ∧
      ∀ hd ∈ (sourceCid c.localCid pkt).bind fun _ => longHeader pkt, hd.Inside pkt.length := by
    rw [hx, learn_of_none h, h]
    exact ⟨rfl, nofun⟩
  have hcid : cidLen = 8 := rfl
  have hsrc := @sourceCid_eq c pkt
  unfold longHeaderAt
  rw [loads_of_le (by omega), Checked.pure_bind, cut_add]
  by_cases hver : ofBytes ((pkt.drop 1).take 4) = 1
  swap
  · exact hnone (hsrc.trans (if_neg fun h => hver h.1)) _ (require_bind_of_not hver _)
  rw [require_bind_of hver, load_eq (by omega), Checked.pure_bind]
  by_cases h5 : byteAt pkt 5 = 8
  swap
  · exact hnone (hsrc.trans (if_neg fun h => h5 h.2.1)) _ (require_bind_of_not h5 _)
  rw [require_bind_of h5, require_bind_of (by omega), loads_of_le (by omega), Checked.pure_bind, cut_add,
    Checked.get_bind]
  by_cases hd : (pkt.drop 6).take cidLen = c.localCid
  swap
  · exact hnone (hsrc.trans (if_neg fun h => hd h.2.2.1)) _ (require_bind_of_not hd _)
  rw [require_bind_of hd, require_bind_of (by omega), load_eq (by omega), Checked.pure_bind]
  by_cases h14 : byteAt pkt 14 = 8
  swap
  · exact hnone (hsrc.trans (if_neg fun h => h14 h.2.2.2.2.1)) _ (require_bind_of_not h14 _)
  rw [require_bind_of h14]
  by_cases h23 : 15 + cidLen ≤ pkt.length
  swap
  · exact hnone (hsrc.trans (if_neg fun h => h23 h.2.2.2.2.2)) _ (require_bind_of_not h23 _)
  rw [require_bind_of h23, loads_of_le h23, Checked.pure_bind, cut_add, Checked.modify_bind]
  have hsome := hsrc.trans (if_pos ⟨hver, h5, hd, by omega, h14, h23⟩)
  have hlearn : c.learn pkt = if c.isServer = true ∧ c.chDone = false then { c with peerCid := (pkt.drop 15).take cidLen } else c := by
    simp only [Conn.learn, hlen, hlong, true_and, hsome, Option.getD_some]
  rw [hlearn, hsome]
  rcases longRest_cases (show 23 ≤ pkt.length by omega) hmax with ⟨hrest, hfail⟩ | ⟨hd, hin, hrest, hpure⟩
  · rw [hfail, Option.bind_some, hrest]
    exact ⟨rfl, nofun⟩
  · rw [hpure, Option.bind_some, hrest]
    exact ⟨rfl, fun hd' hd'mem => Option.some.inj hd'mem ▸ hin⟩

/-- A short header. -/
lemma shortHeaderAt_eq : shortHeaderAt pkt c = some (shortHeader c.localCid pkt, c) ∧
    ∀ hd ∈ shortHeader c.localCid pkt, hd.Inside pkt.length := by
  have hcid : cidLen = 8 := rfl
  unfold shortHeaderAt shortHeader
  by_cases hlen : 1 + cidLen + 4 + 16 ≤ pkt.length
  swap
  · rw [require_bind_of_not hlen, if_pos (.inl (by omega))]
    exact ⟨rfl, nofun⟩
  rw [require_bind_of hlen, loads_of_le (by omega), Checked.pure_bind, cut_add, Checked.get_bind]
  by_cases hd : (pkt.drop 1).take cidLen = c.localCid
  · rw [require_bind_of hd, if_neg (by rintro (h | h); exacts [by omega, h hd])]
    refine ⟨rfl, fun hd hmem => Option.some.inj hmem ▸ ⟨show 0 < 1 + cidLen by omega, ?_, Nat.le_refl _⟩⟩
    show 1 + cidLen ≤ pkt.length
    omega
  · rw [require_bind_of_not hd, if_pos (.inr hd)]
    exact ⟨rfl, nofun⟩

/-- Removing the protection reads nothing but the packet, and the text fits into its buffer. -/
lemma unprotectAt_eq {k : Keys} {hd : Header} (hin : hd.Inside pkt.length) :
    unprotectAt cr k hd pkt (byteAt pkt 0) c = some (unprotect cr k hd pkt, c) := by
  obtain ⟨hpos, hle, hend⟩ := hin
  unfold unprotectAt unprotect
  by_cases hk : k.installed = true
  swap
  · rw [require_bind_of_not hk, if_pos (.inl (Bool.eq_false_iff.2 hk))]
    rfl
  by_cases hsample : hd.pnOffset + 4 + 16 ≤ hd.consumed
  swap
  · rw [require_bind_of hk, require_bind_of_not hsample, if_pos (.inr (by omega))]
    rfl
  have hgo : ¬ (k.installed = false ∨ hd.consumed < hd.pnOffset + 4 + 16) := by
    simp only [hk, Bool.true_eq_false, false_or]
    omega
  rw [require_bind_of hk, require_bind_of hsample, if_neg hgo, loads_of_le (by omega), Checked.pure_bind, cut_add]
  rw [show pkt.getD 0 0 = byteAt pkt 0 from rfl, show isLong pkt = decide (byteAt pkt 0 &&& 0x80 ≠ 0) from rfl]
  generalize cr.mask k.hp ((pkt.drop (hd.pnOffset + 4)).take 16) = mask
  dsimp only
  generalize byteAt pkt 0 ^^^ (mask.getD 0 0 &&& firstBits (decide (byteAt pkt 0 &&& 0x80 ≠ 0))) = first
  generalize hpn : (first &&& 0x03).toNat + 1 = pnLen
  by_cases hpay : hd.pnOffset + pnLen + 16 ≤ hd.consumed
  swap
  · rw [require_bind_of_not hpay, if_pos (by omega)]
    rfl
  rw [require_bind_of hpay, if_neg (by omega), loads_of_le (by omega), Checked.pure_bind, cut_add]
  by_cases hfit : hd.consumed - (hd.pnOffset + pnLen) - 16 ≤ 1500
  swap
  · rw [require_bind_of_not fun h => hfit h.2, if_pos (by omega)]
    rfl
  rw [require_bind_of ⟨by omega, hfit⟩, if_neg (by omega), loads_of_le (by omega), Checked.pure_bind,
    loads_of_le (by omega), Checked.pure_bind, loads_of_le (by omega), Checked.pure_bind, cut_add, cut_add, cut_add]
  generalize hd : cr.decrypt k.key _ _ _ _ = o
  cases o with
  | none => rfl
  | some plain =>
    have hlen := cr.length_decrypt _ _ _ _ _ _ hd
    rw [List.length_take] at hlen
    dsimp only
    rw [if_pos (by omega)]
    rfl

/-- The text of a packet fits into its buffer. -/
lemma length_unprotect {k : Keys} {hd : Header} {pn : ℕ} {plain : Bytes} (h : unprotect cr k hd pkt = some (pn, plain)) :
    plain.length ≤ 1500 := by
  unfold unprotect at h
  split at h
  · cases h
  · dsimp only at h
    split at h
    · cases h
    · split at h
      · cases h
      · obtain ⟨plain', hd, heq⟩ := Option.map_eq_some_iff.1 h
        obtain ⟨-, rfl⟩ := Prod.mk.inj heq
        have hlen := cr.length_decrypt _ _ _ _ _ _ hd
        rw [List.length_take] at hlen
        omega

/-- The part of `s_quic_open_packet` that is the same for both headers. -/
lemma openTail_eq {x : Checked Conn Header} {o : Option Header} (hx : x c = some (o, c.learn pkt))
    (hin : ∀ hd ∈ o, hd.Inside pkt.length) :
    (do let hd ← x
        let c ← ofProg Prog.get
        let (pn, plain) ← unprotectAt cr (c.keys (!c.isServer) hd.level) hd pkt (byteAt pkt 0)
        pure (hd, pn, plain)) c =
      some (do
        let hd ← o
        let (pn, plain) ← unprotect cr (c.keys (!c.isServer) hd.level) hd pkt
        some (hd, pn, plain), c.learn pkt) := by
  cases o with
  | none => exact Checked.bind_of_none hx
  | some hd =>
    have hkeys : (c.learn pkt).keys = c.keys ∧ (c.learn pkt).isServer = c.isServer := by
      unfold Conn.learn
      split
      · exact ⟨rfl, rfl⟩
      · exact ⟨rfl, rfl⟩
    have hun := @unprotectAt_eq cr (c.learn pkt) pkt (c.keys (!c.isServer) hd.level) hd (hin hd rfl)
    rw [Checked.bind_of_some hx, Checked.get_bind, hkeys.1, hkeys.2]
    dsimp only [Option.bind_eq_bind, Option.bind_some]
    cases ho : unprotect cr (c.keys (!c.isServer) hd.level) hd pkt with
    | none =>
      rw [ho] at hun
      exact Checked.bind_of_none hun
    | some o =>
      rw [ho] at hun
      exact Checked.bind_of_some hun

/-- Opening a packet reads nothing but the datagram, and the packet is a part of it. -/
lemma openedAt_eq (hne : pkt ≠ []) (hmax : pkt.length ≤ 1500) :
    openedAt cr pkt c = some (opened cr c pkt, c.learn pkt) ∧
      ∀ o ∈ opened cr c pkt, o.1.Inside pkt.length ∧ o.2.2.length ≤ 1500 := by
  unfold openedAt opened
  rw [load_eq (List.length_pos_iff.2 hne), Checked.pure_bind]
  by_cases hlen : 20 ≤ pkt.length
  swap
  · have hlearn : c.learn pkt = c := if_neg fun h => hlen h.1
    rw [require_bind_of_not hlen, if_pos (by omega), hlearn]
    exact ⟨rfl, nofun⟩
  rw [require_bind_of hlen, if_neg (Nat.not_lt.2 hlen)]
  have hinside {o : Option Header} (hin : ∀ hd ∈ o, hd.Inside pkt.length) (r : Header × ℕ × Bytes)
      (hr : r ∈ do
        let hd ← o
        let (pn, plain) ← unprotect cr (c.keys (!c.isServer) hd.level) hd pkt
        some (hd, pn, plain)) : r.1.Inside pkt.length ∧ r.2.2.length ≤ 1500 := by
    obtain ⟨hd, ho, hr⟩ := Option.bind_eq_some_iff.1 hr
    obtain ⟨⟨pn, plain⟩, hun, hr⟩ := Option.bind_eq_some_iff.1 hr
    rw [← Option.some.inj hr]
    exact ⟨hin hd ho, length_unprotect hun⟩
  by_cases hlong : isLong pkt = true
  · obtain ⟨hx, hin⟩ := @longHeaderAt_eq c pkt hlong hlen hmax
    have hbit : byteAt pkt 0 &&& 0x80 ≠ 0 := of_decide_eq_true hlong
    rw [if_pos hlong, if_pos hbit]
    exact ⟨openTail_eq hx hin, hinside hin⟩
  · obtain ⟨hx, hin⟩ := @shortHeaderAt_eq c pkt
    have hlearn : c.learn pkt = c := if_neg fun h => hlong h.2.1
    have hbit : ¬ byteAt pkt 0 &&& 0x80 ≠ 0 := fun h => hlong (decide_eq_true h)
    rw [if_neg hlong, if_neg hbit]
    exact ⟨openTail_eq (hlearn.symm ▸ hx) hin, hinside hin⟩

end Headers

/-! ## Datagrams -/

lemma openPacketAt_eq {pkt : Bytes} (hc : c.Growable) (hne : pkt ≠ []) (hmax : pkt.length ≤ 1500) :
    openPacketAt cr env pkt c = some (openPacket cr env pkt c) := by
  obtain ⟨hopened, -⟩ := @openedAt_eq cr c pkt hne hmax
  have hatt : attempt (openedAt cr pkt) c = some (some (opened cr c pkt), c.learn pkt) := by
    unfold attempt
    rw [hopened]
    rfl
  unfold openPacketAt
  rw [Checked.bind_of_some hatt]
  cases ho : opened cr c pkt with
  | none => rw [openPacket_of_none ho]; rfl
  | some o =>
    obtain ⟨hd, pn, plain⟩ := o
    have hgrow : (c.learn pkt).Growable := growable_shakes.watches c _ (watched_learn c pkt) hc
    have hacc := @acceptPacketAt_eq cr env _ hd.level hgrow pn plain
    rw [openPacket_of_some ho]
    cases ha : acceptPacket cr env hd.level pn plain (c.learn pkt) with
    | mk r c' =>
      rw [ha] at hacc
      cases r with
      | none =>
        rw [Prog.bind_of_none ha]
        exact Checked.bind_of_none hacc
      | some _ =>
        rw [Prog.bind_of_eq ha]
        exact Checked.bind_of_some hacc

/-- What an opened packet keeps. -/
lemma growable_acceptPacket (pn : ℕ) (plain : Bytes) : Prog.Keeps Conn.Growable (acceptPacket cr env level pn plain) := by
  unfold acceptPacket
  refine Prog.Keeps.get_bind fun c _ => Prog.Spec.modify_bind (T := Conn.Growable) (fun c hc => hc) ?_
  refine Prog.Keeps.ite (fun _ => Prog.Keeps.pure ()) fun _ => ?_
  refine (parseFrames_spec (R := fun _ _ => True) (fun n t p _ => growable_frame t p) (fun _ _ _ _ _ _ => trivial) _ plain
    trivial).bind fun _ => Prog.Spec.modify fun c hc => hc

lemma growable_openPacket (pkt : Bytes) : Prog.Keeps Conn.Growable (openPacket cr env pkt) := by
  intro c hc
  have hgrow : (c.learn pkt).Growable := growable_shakes.watches c _ (watched_learn c pkt) hc
  cases ho : opened cr c pkt with
  | none =>
    rw [openPacket_of_none ho]
    exact hgrow
  | some o =>
    rw [@openPacket_of_some cr env c pkt o.2.2 o.1 o.2.1 ho]
    exact (growable_acceptPacket o.2.1 o.2.2).bind (fun _ => Prog.Keeps.pure _) _ hgrow

/-- A packet that was processed lies inside of the bytes that are left, and has some. -/
lemma openPacket_inside {pkt : Bytes} {consumed : ℕ} (hne : pkt ≠ []) (hmax : pkt.length ≤ 1500)
    (h : (openPacket cr env pkt c).1 = some (some consumed)) : 0 < consumed ∧ consumed ≤ pkt.length := by
  obtain ⟨-, hinside⟩ := @openedAt_eq cr c pkt hne hmax
  cases ho : opened cr c pkt with
  | none => simp [openPacket_of_none ho] at h
  | some o =>
    obtain ⟨⟨hpos, hle, hend⟩, -⟩ := hinside o ho
    rw [@openPacket_of_some cr env c pkt o.2.2 o.1 o.2.1 ho, Prog.bind_apply] at h
    cases ha : acceptPacket cr env o.1.level o.2.1 o.2.2 (c.learn pkt) with
    | mk r c' =>
      rw [ha] at h
      cases r with
      | none => cases h
      | some _ =>
        have heq : o.1.consumed = consumed := Option.some.inj (Option.some.inj h)
        omega

/-- `s_quic_ingest` does not get stuck: a packet has at least one byte. -/
lemma ingestLoopAt_eq {n : ℕ} {buf : Bytes} (hc : c.Growable) (hmax : buf.length ≤ 1500) (hn : buf.length ≤ n) :
    ingestLoopAt cr env n buf c = some (ingestLoop cr env n buf c) := by
  induction n generalizing buf c with
  | zero =>
    rw [ingestLoopAt, if_pos (List.eq_nil_of_length_eq_zero (by omega))]
    rfl
  | succ n ih =>
    rw [ingestLoopAt, ingestLoop]
    split
    next => rfl
    next hne =>
      have hload := load_eq (List.length_pos_iff.2 hne)
      have hbit : byteAt buf 0 &&& 0x80 = 0 ↔ isLong buf = false := by
        unfold isLong byteAt
        rw [decide_eq_false_iff_not, Decidable.not_not]
      have hopen := @openPacketAt_eq cr env c buf hc hne hmax
      have hkeep := @growable_openPacket cr env buf c hc
      cases ho : openPacket cr env buf c with
      | mk r c' =>
        rw [ho] at hopen hkeep
        match r with
        | none => rw [Checked.bind_of_none hopen, Prog.bind_of_none ho]
        | some none =>
          rw [Checked.bind_of_some hopen, Prog.bind_of_eq ho]
          dsimp only
          rw [Checked.get_bind, Prog.get_bind, hload, Checked.pure_bind]
          simp only [hbit]
          split
          · rfl
          · rfl
        | some (some consumed) =>
          obtain ⟨hpos, hle⟩ := openPacket_inside hne hmax (congrArg Prod.fst ho)
          rw [Checked.bind_of_some hopen, Prog.bind_of_eq ho]
          dsimp only
          rw [if_neg (by omega), if_neg (by omega), if_neg (by omega), hload, Checked.pure_bind]
          simp only [hbit]
          split
          · rfl
          · refine ih hkeep ?_ ?_
            all_goals
              rw [List.length_drop]
              omega

lemma growable_run (e : Event) : Prog.Keeps Conn.Growable (e.run cr) := by
  cases e with
  | datagram env buf =>
    refine ingest_spec (fun _ hc => hc) (fun c pkt hc => growable_shakes.watches c _ (watched_learn c pkt) hc) ?_ buf
    intro c pkt hd pn plain _ hc
    exact (growable_acceptPacket pn plain).mono (fun _ h => h ▸ hc) (fun _ _ hc => hc) fun _ hc => hc
  | retransmit env => exact growable_shakes.retransmit
  | done env => exact growable_shakes.handshakeDone
  | write env data => exact growable_shakes.quicWrite data
  | read len => exact Prog.Keeps.modify fun c hc => hc

/-- The buffer of every connection can grow. -/
lemma growable_reachable {c₀ : Conn} (h₀ : Start cr c₀) (h : Reachable (Step cr) (some c₀) (some c)) : c.Growable :=
  reachable_keeps (fun _ _ _ h => h) (fun _ e _ hc _ => (growable_run e).apply hc)
    (growable_shakes.start (fun _ _ _ _ => nofun) h₀) h

/-- Whatever a datagram of at most 1500 bytes is, `s_quic_ingest` ends, reads nothing but the datagram and adds nothing
that does not fit.  A packet that is processed has at least one byte and lies inside of the bytes that are left, and its
text fits into the buffer.  Whatever a text is, `s_quic_parse_frames` ends and reads nothing but the text, and a frame ends
inside of it. -/
theorem ingest_inside (cr : Crypto) (env : Env) :
    (∀ c₀ c, Start cr c₀ → Reachable (Step cr) (some c₀) (some c) → c.Growable) ∧
    ∀ c : Conn, c.Growable →
      (∀ buf, buf.length ≤ 1500 → ingestAt cr env buf c = some (ingest cr env buf c)) ∧
      (∀ pkt, pkt ≠ [] → pkt.length ≤ 1500 →
        openPacketAt cr env pkt c = some (openPacket cr env pkt c) ∧
        (∀ o ∈ opened cr c pkt, o.2.2.length ≤ 1500) ∧
        ∀ consumed, (openPacket cr env pkt c).1 = some (some consumed) → 0 < consumed ∧ consumed ≤ pkt.length) ∧
      ∀ (level : Level) (plain : Bytes),
        parseFramesAt cr env plain level plain.length 0 c = some (parseFrames cr env level plain.length plain c) ∧
        ∀ t p, p ≤ plain.length → ∃ r c', frameAt cr env plain plain.length level t p c = some (r, c') ∧
          ∀ q, r = some (some q) → p ≤ q ∧ q ≤ plain.length := by
  refine ⟨fun c₀ c => growable_reachable, fun c hc => ⟨fun buf hbuf => ingestLoopAt_eq hc hbuf (Nat.le_refl _),
    fun pkt hne hmax => ⟨openPacketAt_eq hc hne hmax, fun o ho => (openedAt_eq hne hmax).2 o ho |>.2,
      fun consumed => openPacket_inside hne hmax⟩, fun level plain => ⟨?_, fun t p hp => ?_⟩⟩⟩
  · have hframes := @parseFramesAt_eq cr env plain 0 c level plain.length hc (Nat.le_of_eq rfl)
    rwa [cut_self] at hframes
  · have hframe := @frameAt_follows cr env plain p plain.length c level (Nat.le_refl _) hc t hp
    unfold FollowsFrame at hframe
    cases hf : frame cr env level t (cut plain p plain.length) c with
    | mk o c' =>
      rw [hf] at hframe
      match o with
      | none => exact ⟨none, c', hframe, nofun⟩
      | some none => exact ⟨some none, c', hframe, nofun⟩
      | some (some rest) =>
        obtain ⟨q, hpq, hq, -, hy⟩ := hframe
        exact ⟨some (some q), c', hy, fun q' h => Option.some.inj (Option.some.inj h) ▸ ⟨hpq, hq⟩⟩

theorem ingest_inside_plain : plainServer.Growable ∧ plainHello ≠ [] ∧ plainHello.length ≤ 1500 ∧
    ingestAt .plain .plain plainHello plainServer = some (ingest .plain .plain plainHello plainServer) ∧
    (openPacket .plain .plain plainHello plainServer).1 = some (some plainHello.length) ∧
    openPacketAt .plain .plain plainHello plainServer = some (openPacket .plain .plain plainHello plainServer) := by
  have hgrow := (ingest_inside .plain .plain).1 plainServer plainServer start_plainServer ⟨_, .nil _⟩
  have hne : plainHello ≠ [] := by decide +kernel
  have hmax : plainHello.length ≤ 1500 := by decide +kernel
  obtain ⟨hingest, hopen, -⟩ := (ingest_inside .plain .plain).2 plainServer hgrow
  exact ⟨hgrow, hne, hmax, hingest plainHello hmax, by decide +kernel, (hopen plainHello hne hmax).1⟩

end Suspenders.Quic
