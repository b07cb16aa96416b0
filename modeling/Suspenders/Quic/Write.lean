import Suspenders.Io.Write
import Suspenders.Quic.Ack
import Suspenders.Quic.Flight

/-!
# What a write returns

`suspenders_hose_write` is `s_stream_write` on hoses of tcp and unix, and `quic_write` on those of quic.  `quic_write`
sends its buffer in chunks of 1000 bytes, each in a packet of its own.  A chunk is refused if it comes to lie beyond
the limit of the peer, or if `s_io_sendto` fails; the chunks before it have then been sent, and `tx_off` has passed
them.

Both writers return -1 after some bytes have left only if a failure strikes between two chunks, and in no other case
is the result not the number of bytes that were handed over.
-/

namespace Suspenders.Quic

open Lib Io Prog

variable {cr : Crypto} {env : Env} {c c' : Conn} {d : Bytes}

/-! ## Chunks -/

lemma flatten_take_chunks (data : Bytes) (n : ℕ) : ((chunks data).take n).flatten = data.take (1000 * n) := by
  induction data using chunks.induct generalizing n with
  | case1 =>
    rw [chunks, if_pos rfl]
    simp
  | case2 data h ih =>
    rw [chunks, if_neg h]
    cases n with
    | zero => simp
    | succ n =>
      rw [List.take_succ_cons, List.flatten_cons, ih, ← List.take_add, Nat.mul_succ, Nat.add_comm]

/-- There are as many chunks as begin within the data. -/
lemma lt_length_chunks {data : Bytes} {i : ℕ} : i < (chunks data).length ↔ 1000 * i < data.length := by
  induction data using chunks.induct generalizing i with
  | case1 =>
    rw [chunks, if_pos rfl]
    simp
  | case2 data h ih =>
    have hpos := List.length_pos_of_ne_nil h
    rw [chunks, if_neg h, List.length_cons]
    cases i with
    | zero => omega
    | succ i =>
      rw [Nat.succ_lt_succ_iff, ih, List.length_drop]
      omega

lemma ne_nil_of_mem_chunks {data : Bytes} (h : d ∈ chunks data) : d ≠ [] := by
  induction data using chunks.induct with
  | case1 =>
    rw [chunks, if_pos rfl] at h
    exact absurd h List.not_mem_nil
  | case2 data hne ih =>
    rw [chunks, if_neg hne] at h
    obtain rfl | h := List.mem_cons.1 h
    · rw [ne_eq, List.take_eq_nil_iff]
      rintro (h | h)
      · exact absurd h (by decide)
      · exact hne h
    · exact ih h

/-! ## Packets that carry data of the stream -/

/-- A packet carries `d` at offset `off` of the stream. -/
def Packet.HoldsData (p : Packet) (off : ℕ) (d : Bytes) : Prop :=
  p.level = .app ∧ ∃ ack, p.frames = ack ++ 0x0e :: (varint 0 ++ varint off ++ varint d.length ++ d)

/-- Packets carry data from an offset on, each of them some. -/
inductive CarriedBy : ℕ → List Packet → Bytes → Prop
  | nil (off : ℕ) : CarriedBy off [] []
  | cons {off : ℕ} {p : Packet} {ps : List Packet} {d data : Bytes} (hne : d ≠ []) (hp : p.HoldsData off d)
      (hps : CarriedBy (off + d.length) ps data) : CarriedBy off (p :: ps) (d ++ data)

/-- The data was sent at the end of the stream, and nothing else. -/
def Conn.Handed (c : Conn) (data : Bytes) (c' : Conn) : Prop :=
  c'.txOff = c.txOff + data.length ∧ ∃ ps, c'.hist.sent = c.hist.sent ++ ps ∧ CarriedBy c.txOff ps data

lemma Conn.Handed.cons {c₁ : Conn} {p : Packet} {data : Bytes} (hne : d ≠ []) (hp : p.HoldsData c.txOff d)
    (hoff : c₁.txOff = c.txOff + d.length) (hsent : c₁.hist.sent = c.hist.sent ++ [p]) (h : c₁.Handed data c') :
    c.Handed (d ++ data) c' := by
  obtain ⟨hoff', ps, hsent', hps⟩ := h
  refine ⟨?_, p :: ps, ?_, .cons hne hp (hoff ▸ hps)⟩
  · rw [hoff', hoff, List.length_append, Nat.add_assoc]
  · rw [hsent', hsent, List.append_assoc, List.singleton_append]

/-! ## One chunk -/

/-- The limit of the stream. -/
def Conn.limit (c : Conn) : ℕ := if c.isServer then c.peerBidiLocal else c.peerBidiRemote

/-- A chunk is sent. -/
structure ChunkSent (c : Conn) (d : Bytes) (c' : Conn) : Prop where
  txOff : c'.txOff = c.txOff + d.length
  sent : ∃ p, c'.hist.sent = c.hist.sent ++ [p] ∧ p.HoldsData c.txOff d
  limit : c'.limit = c.limit
  keys : (c'.keys c'.isServer .app).installed = (c.keys c.isServer .app).installed
  txPn : c'.txPn .app = c.txPn .app + 1

lemma encode_ack (r : RxAck) : ∃ ack, r.encode 1200 = some ack ∧ ack.length ≤ 33 := by
  have henc : ∃ ack, r.encode 1200 = some ack := by
    cases hr : r.has with
    | false => exact ⟨[], if_pos (.inl hr)⟩
    | true =>
      have hsize := varintSize_le r.max
      exact ⟨_, encode_eq hr (by decide) (by omega)⟩
  obtain ⟨ack, hack⟩ := henc
  exact ⟨ack, hack, length_encode hack⟩

/-- An ACK that is encoded is noted in the history only. -/
lemma encodeAck_app (c : Conn) : ∃ ack acks, ack.length ≤ 33 ∧
    encodeAck .app 1200 c = (some ack, { c with hist := { c.hist with acks := acks } }) := by
  obtain ⟨ack, hack, hlen⟩ := encode_ack (c.rxAck .app)
  unfold encodeAck
  rw [get_bind, ofOption_bind hack, modify_bind]
  by_cases hnil : ack = []
  · rw [if_pos hnil]
    exact ⟨ack, c.hist.acks, hlen, rfl⟩
  · rw [if_neg hnil, Conn.ackEncoded]
    split
    · exact ⟨ack, _, hlen, rfl⟩
    · exact ⟨ack, c.hist.acks, hlen, rfl⟩

/-- Short frames of level `app` are sent, unless there are no keys or the socket refuses. -/
lemma sendFrames_app {frames : Bytes} (hlen : frames.length ≤ 1200) :
    ∃ o c', sendFrames cr env .app frames true 0 c = (o, c') ∧ c'.txOff = c.txOff ∧
      (o = none ∧ c'.hist.sent = c.hist.sent ∧
          ¬ ((c.keys c.isServer .app).installed = true ∧ env.sendto .app (c.txPn .app) = true) ∨
        o = some () ∧ (c.keys c.isServer .app).installed = true ∧ env.sendto .app (c.txPn .app) = true ∧
          (∃ datagram, c'.hist.sent = c.hist.sent ++ [⟨.app, c.txPn .app, frames, true, datagram⟩]) ∧
          c'.limit = c.limit ∧ (c'.keys c'.isServer .app).installed = (c.keys c.isServer .app).installed ∧
          c'.txPn .app = c.txPn .app + 1) := by
  unfold sendFrames
  rw [get_bind]
  by_cases hinstalled : (c.keys c.isServer .app).installed = true
  · rw [require_bind hinstalled, modify_bind, require_bind (by omega)]
    have hpkt : shortPacket cr c (c.keys c.isServer .app) (c.txPn .app) frames =
        some (protect cr (c.keys c.isServer .app) false 0x43 c.peerCid (c.txPn .app) frames) :=
      if_neg (by rw [cidLen]; omega)
    rw [if_pos rfl, ofOption_bind hpkt, modify_bind]
    by_cases hsend : env.sendto .app (c.txPn .app) = true
    · rw [require_bind hsend]
      refine ⟨_, _, rfl, rfl, .inr ⟨rfl, hinstalled, hsend, ⟨_, rfl⟩, rfl, rfl, ?_⟩⟩
      exact Function.update_self (f := c.txPn) Level.app (c.txPn .app + 1)
    · rw [require_of_not hsend, fail_bind]
      exact ⟨_, _, rfl, rfl, .inl ⟨rfl, rfl, fun h => hsend h.2⟩⟩
  · rw [require_of_not hinstalled, fail_bind]
    exact ⟨_, _, rfl, rfl, .inl ⟨rfl, rfl, fun h => hinstalled h.1⟩⟩

/-- The next chunk, which takes the stream to offset `off`, can be sent. -/
def Conn.Goes (c : Conn) (env : Env) (i off : ℕ) : Prop :=
  c.txOff + off ≤ c.limit ∧ (c.keys c.isServer .app).installed = true ∧ env.sendto .app (c.txPn .app + i) = true

lemma writeChunk_cases (hd : d.length ≤ 1000) : ∃ o c', writeChunk cr env d c = (o, c') ∧
    (o = none ∧ c.Handed [] c' ∧ ¬ c.Goes env 0 d.length ∨ o = some () ∧ ChunkSent c d c' ∧ c.Goes env 0 d.length) := by
  unfold writeChunk
  rw [get_bind]
  by_cases hlimit : c.txOff + d.length ≤ if c.isServer then c.peerBidiLocal else c.peerBidiRemote
  · obtain ⟨ack, acks, hack, henc⟩ := encodeAck_app c
    rw [require_bind hlimit, bind_of_eq henc]
    have hlen : (ack ++ 0x0e :: (varint 0 ++ varint c.txOff ++ varint d.length ++ d)).length ≤ 1200 := by
      have hoff := varintSize_le c.txOff
      have hsize := varintSize_le d.length
      simp only [List.length_append, List.length_cons, length_varint]
      rw [show varintSize 0 = 1 from rfl]
      omega
    obtain ⟨o, c', hsend, htx, ⟨rfl, hsent, hno⟩ | ⟨rfl, hkeys, hto, ⟨dg, hsent⟩, hlim, hinst, hpn⟩⟩ :=
      @sendFrames_app cr env { c with hist := { c.hist with acks := acks } } _ hlen
    · rw [bind_of_none hsend]
      refine ⟨_, _, rfl, .inl ⟨rfl, ⟨htx, [], ?_, .nil _⟩, fun h => hno h.2⟩⟩
      rw [hsent, List.append_nil]
    · rw [bind_of_eq hsend, modify_apply]
      refine ⟨_, _, rfl, .inr ⟨rfl, ⟨?_, ⟨_, hsent, rfl, ack, rfl⟩, hlim, hinst, hpn⟩, hlimit, hkeys, hto⟩⟩
      change c'.txOff + d.length = c.txOff + d.length
      rw [htx]
  · rw [require_of_not hlimit, fail_bind]
    exact ⟨_, _, rfl, .inl ⟨rfl, ⟨rfl, [], (List.append_nil _).symm, .nil _⟩, fun h => hlimit h.1⟩⟩

lemma ChunkSent.goes (h : ChunkSent c d c') {i off : ℕ} : c'.Goes env i off ↔ c.Goes env (i + 1) (d.length + off) := by
  unfold Conn.Goes
  rw [h.txOff, h.limit, h.keys, h.txPn, Nat.add_assoc, Nat.add_assoc (c.txPn .app), Nat.add_comm 1]

/-! ## The loop -/

/-- The offset behind a chunk. -/
def endOf (ds : List Bytes) (i : ℕ) : ℕ := (ds.take (i + 1)).flatten.length

/-- `k` chunks are sent, and the next one, if there is one, is refused. -/
structure ChunksSent (env : Env) (c : Conn) (ds : List Bytes) (k : ℕ) (o : Option Unit) (c' : Conn) : Prop where
  handed : c.Handed (ds.take k).flatten c'
  goes (i : ℕ) (hi : i < k) : c.Goes env i (endOf ds i)
  last : o = some () ∧ k = ds.length ∨ o = none ∧ k < ds.length ∧ ¬ c.Goes env k (endOf ds k)

lemma writeChunks_cases {ds : List Bytes} (hds : ∀ d ∈ ds, d ≠ [] ∧ d.length ≤ 1000) :
    ∃ o c' k, writeChunks cr env ds c = (o, c') ∧ ChunksSent env c ds k o c' := by
  induction ds generalizing c with
  | nil =>
    refine ⟨some (), c, 0, rfl, ⟨rfl, [], (List.append_nil _).symm, .nil _⟩, fun i hi => absurd hi (Nat.not_lt_zero i), ?_⟩
    exact .inl ⟨rfl, rfl⟩
  | cons d ds ih =>
    have hend : endOf (d :: ds) 0 = d.length := by simp [endOf]
    have hsucc (i : ℕ) : endOf (d :: ds) (i + 1) = d.length + endOf ds i := by simp [endOf]
    obtain ⟨o, c₁, hchunk, ⟨rfl, hnone, hno⟩ | ⟨rfl, hsent, hgo⟩⟩ :=
      @writeChunk_cases cr env c d (hds d List.mem_cons_self).2
    · refine ⟨none, c₁, 0, bind_of_none hchunk, hnone, fun i hi => absurd hi (Nat.not_lt_zero i), .inr ⟨rfl, ?_, ?_⟩⟩
      · exact Nat.succ_pos _
      · rwa [hend]
    · obtain ⟨o, c', k, hrest, hhanded, hgoes, hlast⟩ := @ih c₁ fun d hd => hds d (List.mem_cons_of_mem _ hd)
      obtain ⟨p, hp, hholds⟩ := hsent.sent
      refine ⟨o, c', k + 1, (bind_of_eq hchunk).trans hrest, ?_, fun i hi => ?_, ?_⟩
      · exact .cons (hds d List.mem_cons_self).1 hholds hsent.txOff hp hhanded
      · cases i with
        | zero => rwa [hend]
        | succ i =>
          rw [hsucc]
          exact hsent.goes.1 (hgoes i (Nat.lt_of_succ_lt_succ hi))
      · refine hlast.imp (And.imp_right fun h => ?_) (And.imp_right (And.imp Nat.succ_lt_succ fun h hgo => h ?_))
        · rw [h, List.length_cons]
        · rw [hsucc] at hgo
          exact hsent.goes.2 hgo

/-! ## Hoses -/

/-- A hose of the transport quic. -/
structure QuicHose where
  /-- `SUSPENDERS_HOSE_ROLE_WRITER` -/
  writer : Bool
  /-- `priv`, unless it is NULL -/
  priv : Option Conn

/-- A hose of the transports tcp, unix and quic. -/
inductive Hose
  | stream (h : StreamHose)
  | quic (h : QuicHose)

/-- What comes to a write from outside. -/
structure Outside where
  cr : Crypto
  env : Env
  /-- The calls of `s_io_send`. -/
  calls : List SendCall

/-- `quic_write` on a hose -/
def QuicHose.write (cr : Crypto) (env : Env) (src : Bytes) (h : QuicHose) : Written × QuicHose :=
  match h.priv with
  | none => (.failed, h)
  | some c =>
    if h.writer = false then (.failed, h)
    else
      let (o, c') := quicWrite cr env src c
      (if o = some () then .wrote src.length else .failed, { h with priv := some c' })

/-- `suspenders_hose_write` -/
def hoseWrite (out : Outside) (src : Bytes) : Hose → Written × Hose
  | .stream h => ((streamWrite out.calls src h).1, .stream (streamWrite out.calls src h).2)
  | .quic h => ((h.write out.cr out.env src).1, .quic (h.write out.cr out.env src).2)

/-- The data was handed to the transport of a hose, and nothing else. -/
def Hose.Handed (data : Bytes) : Hose → Hose → Prop
  | .stream h, .stream h' => h' = { h with wire := h.wire ++ data }
  | .quic ⟨w, some c⟩, .quic ⟨w', some c'⟩ => w' = w ∧ c.Handed data c'
  | .quic ⟨w, none⟩, .quic ⟨w', none⟩ => w' = w ∧ data = []
  | _, _ => False

/-- The result of a write says what was handed to the transport. -/
def Accounts (src : Bytes) (h : Hose) : Written × Hose → Prop
  | (.waiting, _) => True
  | (.failed, h') => h.Handed [] h'
  | (.wrote n, h') => n ≤ src.length ∧ h.Handed (src.take n) h'

/-- Chunk `i` of a buffer of `len` bytes is refused: it lies beyond the limit, or `s_io_sendto` fails. -/
def Conn.Refuses (c : Conn) (env : Env) (len i : ℕ) : Prop :=
  c.limit < c.txOff + min (1000 * (i + 1)) len ∨ env.sendto .app (c.txPn .app + i) = false

/-- The first chunk of a buffer is sent, and a later one is refused. -/
def Conn.Splits (c : Conn) (env : Env) (len : ℕ) : Prop :=
  c.appReady = true ∧ (c.keys c.isServer .app).installed = true ∧ ¬ c.Refuses env len 0 ∧
    ∃ i, 0 < i ∧ 1000 * i < len ∧ c.Refuses env len i

/-- A failure strikes between two parts of the buffer. -/
def Hose.Struck (out : Outside) (src : Bytes) : Hose → Prop
  | .stream h => h.writer = true ∧ h.valid = true ∧ Split src.length out.calls
  | .quic h => h.writer = true ∧ ∃ c, h.priv = some c ∧ c.Splits out.env src.length

/-! ## Results -/

section Results

variable {src : Bytes}

/-- A write of the stream transports that a failure strikes has handed bytes over and returns -1. -/
lemma writeLoop_split {calls : List SendCall} {wire : Bytes} (h : Split src.length calls) :
    ∃ n, 0 < n ∧ n ≤ src.length ∧ writeLoop src calls 0 wire = (.failed, wire ++ src.take n) := by
  obtain ⟨before, x, after, rfl, hne, hpos, hsum, hx⟩ := h
  obtain ⟨y, ys, rfl⟩ := List.exists_cons_of_ne_nil hne
  have hy := hpos y List.mem_cons_self
  have hloop := @writeLoop_append src wire (x :: after) 0 (y :: ys) hpos (by rwa [Nat.zero_add])
  rw [List.take_zero, List.append_nil, Nat.zero_add, writeLoop_fails hsum hx] at hloop
  refine ⟨_, ?_, Nat.le_of_lt hsum, hloop⟩
  rw [List.map_cons, List.sum_cons]
  omega

lemma stream_accounts_iff (out : Outside) (h : StreamHose) :
    Accounts src (.stream h) (hoseWrite out src (.stream h)) ↔ ¬ Hose.Struck out src (.stream h) := by
  rw [hoseWrite, streamWrite]
  by_cases hrole : h.writer = false ∨ h.valid = false
  · rw [if_pos hrole]
    have hstruck : ¬ Hose.Struck out src (.stream h) := by
      rintro ⟨hwriter, hvalid, -⟩
      simp [hwriter, hvalid] at hrole
    refine iff_of_true ?_ hstruck
    change h = { h with wire := h.wire ++ [] }
    rw [List.append_nil]
  · rw [if_neg hrole]
    rw [not_or, Bool.not_eq_false, Bool.not_eq_false] at hrole
    constructor
    · rintro hacc ⟨-, -, hsplit⟩
      obtain ⟨n, hpos, hle, hloop⟩ := @writeLoop_split src out.calls h.wire hsplit
      rw [hloop] at hacc
      have hhanded : ({ h with wire := h.wire ++ src.take n } : StreamHose) = { h with wire := h.wire ++ [] } := hacc
      have hwire := congrArg (fun h : StreamHose => h.wire.length) hhanded
      simp only [List.length_append, List.length_take, List.length_nil] at hwire
      omega
    · intro hstruck
      have hend := @writeLoop_end src h.wire out.calls 0 (Nat.zero_le _)
      rw [List.take_zero, List.append_nil] at hend
      generalize writeLoop src out.calls 0 h.wire = r at hend ⊢
      cases hend with
      | waiting wire' => exact trivial
      | wrote n hn => exact ⟨hn, rfl⟩
      | failed before x after heq hpos hsum hx =>
        rw [Nat.zero_add] at hsum
        have hnil : before = [] := by
          by_contra hne
          exact hstruck ⟨hrole.1, hrole.2, before, x, after, heq, hne, hpos, hsum, hx⟩
        rw [hnil]
        rfl

lemma endOf_chunks (i : ℕ) : endOf (chunks src) i = min (1000 * (i + 1)) src.length := by
  rw [endOf, flatten_take_chunks, List.length_take]

lemma goes_iff {i : ℕ} : c.Goes env i (endOf (chunks src) i) ↔
    (c.keys c.isServer .app).installed = true ∧ ¬ c.Refuses env src.length i := by
  unfold Conn.Goes Conn.Refuses
  rw [endOf_chunks, not_or, Nat.not_lt, Bool.not_eq_false, and_left_comm]

/-- A write of the transport quic, by the number of chunks it sends. -/
lemma quicWrite_cases (hready : c.appReady = true) :
    ∃ o c' k, quicWrite cr env src c = (o, c') ∧ ChunksSent env c (chunks src) k o c' := by
  have hchunks := @writeChunks_cases cr env c (chunks src) fun d hd => ⟨ne_nil_of_mem_chunks hd, length_of_mem_chunks hd⟩
  unfold quicWrite
  rwa [get_bind, require_bind hready]

lemma quic_accounts_iff {out : Outside} (c : Conn) (hready : c.appReady = true) :
    Accounts src (.quic ⟨true, some c⟩) (hoseWrite out src (.quic ⟨true, some c⟩)) ↔ ¬ c.Splits out.env src.length := by
  obtain ⟨o, c', k, hwrite, hhanded, hgoes, hlast⟩ := @quicWrite_cases out.cr out.env c src hready
  rw [flatten_take_chunks] at hhanded
  simp only [hoseWrite, QuicHose.write, hwrite, Bool.true_eq_false, if_false]
  constructor
  · rintro hacc ⟨-, hinstalled, hfirst, i, hpos, hi, hrefused⟩
    have hi := lt_length_chunks.2 hi
    obtain ⟨rfl, hk⟩ | ⟨rfl, hk, hno⟩ := hlast
    · exact (goes_iff.1 (hgoes i (hk ▸ hi))).2 hrefused
    · have hkpos : 0 < k := by
        refine Nat.pos_of_ne_zero ?_
        rintro rfl
        exact hno (goes_iff.2 ⟨hinstalled, hfirst⟩)
      have hoff : c'.txOff = c.txOff + 0 := hacc.2.1
      have hlen := hhanded.1
      have hlt := lt_length_chunks.1 hk
      rw [List.length_take] at hlen
      omega
  · intro hsplits
    obtain ⟨rfl, hk⟩ | ⟨rfl, hk, hno⟩ := hlast
    · have hall : src.length ≤ 1000 * k := by
        by_contra hlt
        exact absurd (lt_length_chunks.2 (Nat.not_le.1 hlt)) (by omega)
      rw [List.take_of_length_le hall] at hhanded
      refine ⟨Nat.le_refl _, rfl, ?_⟩
      rwa [List.take_length]
    · obtain rfl | hpos := Nat.eq_zero_or_pos k
      · exact ⟨rfl, hhanded⟩
      · have hfirst := goes_iff.1 (hgoes 0 hpos)
        refine absurd ⟨hready, hfirst.1, hfirst.2, k, hpos, lt_length_chunks.1 hk, ?_⟩ hsplits
        by_contra hgo
        exact hno (goes_iff.2 ⟨hfirst.1, hgo⟩)

/-- The result of a write says what was handed to the transport, for every hose, buffer and sequence of partial sends
and failures, if and only if no failure strikes between two parts of the buffer. -/
theorem write_accounts_iff (out : Outside) (h : Hose) (src : Bytes) :
    Accounts src h (hoseWrite out src h) ↔ ¬ h.Struck out src := by
  match h with
  | .stream h => exact stream_accounts_iff out h
  | .quic ⟨false, priv⟩ =>
    refine iff_of_true ?_ fun hstruck => absurd hstruck.1 Bool.false_ne_true
    cases priv with
    | none => exact ⟨rfl, rfl⟩
    | some c => exact ⟨rfl, rfl, [], (List.append_nil _).symm, .nil _⟩
  | .quic ⟨true, none⟩ =>
    refine iff_of_true ⟨rfl, rfl⟩ ?_
    rintro ⟨-, c, hc, -⟩
    cases hc
  | .quic ⟨true, some c⟩ =>
    cases hready : c.appReady with
    | true =>
      rw [quic_accounts_iff c hready]
      refine not_congr ⟨fun hsplits => ⟨rfl, c, rfl, hsplits⟩, ?_⟩
      rintro ⟨-, _, hc, hsplits⟩
      cases hc
      exact hsplits
    | false =>
      have hwrite : quicWrite out.cr out.env src c = (none, c) := by
        unfold quicWrite
        rw [get_bind, require_of_not (by rw [hready]; exact Bool.false_ne_true), fail_bind]
      refine iff_of_true ?_ ?_
      · simp only [hoseWrite, QuicHose.write, hwrite, Bool.true_eq_false, if_false]
        exact ⟨rfl, rfl, [], (List.append_nil _).symm, .nil _⟩
      · rintro ⟨-, _, hc, hsplits⟩
        cases hc
        exact absurd hsplits.1 (by rw [hready]; exact Bool.false_ne_true)

/-- The socket takes a byte, and then the coroutine is canceled; the second packet of a write cannot be sent. -/
def striking : Outside where
  cr := .plain
  env := { Env.plain with sendto := fun _ pn => pn = 0 }
  calls := [⟨none, none, [], some 1⟩, ⟨some .canceled, none, [], none⟩]

/-- Writes return -1 after the first of two bytes has left through a socket, and after the first of two chunks has
left in a packet. -/
theorem write_fails_midway :
    hoseWrite striking [0x61, 0x62] (.stream ⟨true, true, []⟩) = (.failed, .stream ⟨true, true, [0x61]⟩) ∧
      ¬ Accounts [0x61, 0x62] (.stream ⟨true, true, []⟩)
        (hoseWrite striking [0x61, 0x62] (.stream ⟨true, true, []⟩)) ∧
      Start .plain plainServer ∧ Reachable (Step .plain) (some plainServer) (some plainReady) ∧
      (quicWrite .plain striking.env (List.replicate 1001 0) plainReady).1 = none ∧
      (quicWrite .plain striking.env (List.replicate 1001 0) plainReady).2.txOff = plainReady.txOff + 1000 ∧
      ¬ Accounts (List.replicate 1001 0) (.quic ⟨true, some plainReady⟩)
        (hoseWrite striking (List.replicate 1001 0) (.quic ⟨true, some plainReady⟩)) := by
  have hsplit : Split 2 striking.calls := by
    refine ⟨[⟨none, none, [], some 1⟩], ⟨some .canceled, none, [], none⟩, [], rfl, ?_, ?_, ?_, .canceled, rfl⟩
    all_goals decide
  have hsplits : plainReady.Splits striking.env (List.replicate 1001 (0 : UInt8)).length := by
    refine ⟨by decide +kernel, by decide +kernel, ?_, 1, ?_, ?_, .inr ?_⟩
    · rintro (hlimit | hsend)
      · revert hlimit
        decide +kernel
      · revert hsend
        decide +kernel
    all_goals decide +kernel
  have hquic := @quic_accounts_iff (List.replicate 1001 0) striking plainReady hsplits.1
  refine ⟨rfl, fun hacc => ?_, start_plainServer, ?_, by decide +kernel, by decide +kernel, ?_⟩
  · exact (stream_accounts_iff striking _).1 hacc ⟨rfl, rfl, hsplit⟩
  · exact ⟨_, .cons step_plainHello (.cons step_plainFinished (.nil _))⟩
  · rw [hquic, not_not]
    exact hsplits

end Results

end Suspenders.Quic
