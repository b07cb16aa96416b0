import Suspenders.Quic.Level

/-!
# Duplicates

`s_quic_note_rx` knows the packets of a level that are less than 64 below the largest one.  A packet that is older is
never a duplicate for it, so that its frames are parsed again (`replayed`); what is recent is parsed once.
-/

namespace Suspenders.Quic

open Lib Prog

variable {cr : Crypto} {env : Env} {c c₀ : Conn} {N M : ℕ → Prop} {r : RxAck} {pn : ℕ}

/-! ## The record of a level -/

/-- The record of a level at which the packets `ps` were noted. -/
def RxAck.noteAll (ps : List ℕ) : RxAck := ps.foldl (fun r pn => (r.note pn).2) ⟨false, 0, 0⟩

/-- The record knows the largest packet of `N`, and which of the 64 packets up to this one are in `N`. -/
structure RxAck.Records (r : RxAck) (N : ℕ → Prop) : Prop where
  none : r.has = false → ∀ pn, ¬ N pn
  max : r.has = true → N r.max
  le : r.has = true → ∀ pn, N pn → pn ≤ r.max
  mask : r.has = true → ∀ d, d < 64 → d ≤ r.max → (r.mask.getLsbD d = true ↔ N (r.max - d))

namespace RxAck.Records

lemma congr (h : r.Records N) (hNM : ∀ pn, N pn ↔ M pn) : r.Records M :=
  (funext fun pn => propext (hNM pn) : N = M) ▸ h

/-- Only a packet that was noted is a duplicate, and only if it is recent. -/
lemma note_fst (h : r.Records N) (pn : ℕ) : (r.note pn).1 = true ↔ N pn ∧ ∀ q, N q → q < pn + 64 := by
  unfold RxAck.note
  split
  next hr => exact ⟨nofun, fun hN => absurd hN.1 (h.none hr pn)⟩
  next hr =>
    replace hr : r.has = true := by simpa using hr
    split
    next hlt =>
      refine ⟨nofun, fun hN => ?_⟩
      have hle := h.le hr pn hN.1
      omega
    next hge =>
      split
      next hold =>
        refine ⟨nofun, fun hN => ?_⟩
        have hlt := hN.2 r.max (h.max hr)
        omega
      next hrecent =>
        have hbit := h.mask hr (r.max - pn) (by omega) (by omega)
        rw [Nat.sub_sub_self (Nat.not_lt.1 hge)] at hbit
        have hall (q : ℕ) (hq : N q) : q < pn + 64 := by
          have hle := h.le hr q hq
          omega
        split
        next hset => exact ⟨fun _ => ⟨hbit.1 hset, hall⟩, fun _ => rfl⟩
        next hset => exact ⟨nofun, fun hN => absurd (hbit.2 hN.1) hset⟩

lemma first (pn : ℕ) : RxAck.Records ⟨true, pn, 1#64⟩ fun m => m = pn where
  none h := nomatch h
  max _ := rfl
  le _ m hm := Nat.le_of_eq hm
  mask _ d _ hle := by
    dsimp only at hle ⊢
    rw [BitVec.getLsbD_one, Bool.and_eq_true, decide_eq_true_eq, decide_eq_true_eq]
    omega

/-- A packet that is larger than all packets before. -/
lemma shift (h : r.Records N) (hr : r.has = true) (hlt : r.max < pn) : RxAck.Records
    { r with max := pn, mask := if 64 ≤ pn - r.max then 1#64 else r.mask <<< (pn - r.max) ||| 1#64 }
    fun m => N m ∨ m = pn where
  none hnone := absurd hr (by rw [hnone]; decide)
  max _ := .inr rfl
  le _ m hm := by
    dsimp only
    rcases hm with hm | rfl
    · exact (h.le hr m hm).trans hlt.le
    · exact Nat.le_refl _
  mask _ d hd hle := by
    dsimp only at hle ⊢
    have hsmall (hN : N (pn - d)) : pn - r.max ≤ d := by
      have := h.le hr _ hN
      omega
    have hself : pn - d = pn ↔ d = 0 := by omega
    split
    next hfar =>
      rw [BitVec.getLsbD_one, Bool.and_eq_true, decide_eq_true_eq, decide_eq_true_eq, hself]
      refine ⟨fun h => .inr h.2, fun h => ⟨by decide, h.resolve_left fun hN => ?_⟩⟩
      have := hsmall hN
      omega
    next hnear =>
      rw [BitVec.getLsbD_or, BitVec.getLsbD_shiftLeft, BitVec.getLsbD_one, Bool.or_eq_true, Bool.and_eq_true,
        Bool.and_eq_true, Bool.and_eq_true, Bool.not_eq_true', decide_eq_true_eq, decide_eq_false_iff_not,
        decide_eq_true_eq, decide_eq_true_eq, hself]
      refine or_congr ⟨fun ⟨⟨_, hge⟩, hbit⟩ => ?_, fun hN => ?_⟩ ⟨fun h => h.2, fun h => ⟨by decide, h⟩⟩
      · have hN := (h.mask hr _ (by omega) (by omega)).1 hbit
        rwa [show r.max - (d - (pn - r.max)) = pn - d by omega] at hN
      · have hge := hsmall hN
        refine ⟨⟨hd, by omega⟩, (h.mask hr _ (by omega) (by omega)).2 ?_⟩
        rwa [show r.max - (d - (pn - r.max)) = pn - d by omega]

/-- A packet that is less than 64 below the largest one. -/
lemma insert (h : r.Records N) (hr : r.has = true) (hle : pn ≤ r.max) :
    RxAck.Records { r with mask := r.mask ||| 1#64 <<< (r.max - pn) } fun m => N m ∨ m = pn where
  none hnone := absurd hr (by rw [hnone]; decide)
  max _ := .inl (h.max hr)
  le _ m hm := by
    rcases hm with hm | rfl
    · exact h.le hr m hm
    · exact hle
  mask _ d hd hdle := by
    dsimp only at hdle ⊢
    rw [BitVec.getLsbD_or, BitVec.getLsbD_shiftLeft, BitVec.getLsbD_one, Bool.or_eq_true, Bool.and_eq_true,
      Bool.and_eq_true, Bool.and_eq_true, Bool.not_eq_true', decide_eq_true_eq, decide_eq_false_iff_not,
      decide_eq_true_eq, decide_eq_true_eq, h.mask hr d hd hdle]
    refine or_congr Iff.rfl ?_
    omega

/-- A packet is noted. -/
lemma note (h : r.Records N) (pn : ℕ) : (r.note pn).2.Records fun m => N m ∨ m = pn := by
  have hdup := h.note_fst pn
  unfold RxAck.note at hdup ⊢
  split
  next hr => exact (first pn).congr fun m => (or_iff_right (h.none hr m)).symm
  next hr =>
    rw [if_neg hr] at hdup
    replace hr : r.has = true := by simpa using hr
    split
    next hlt => exact h.shift hr hlt
    next hge =>
      rw [if_neg hge] at hdup
      split
      next hold =>
        -- the packet is too old for the record
        refine ⟨fun hnone => absurd hr (by rw [hnone]; decide), fun _ => .inl (h.max hr), fun _ m hm => ?_,
          fun _ d hd hle => (h.mask hr d hd hle).trans (or_iff_left ?_).symm⟩
        · rcases hm with hm | rfl
          · exact h.le hr m hm
          · exact Nat.not_lt.1 hge
        · dsimp only at hle ⊢
          omega
      next hrecent =>
        rw [if_neg hrecent] at hdup
        split
        next hset =>
          rw [if_pos hset] at hdup
          have hN : N pn := (hdup.1 rfl).1
          exact h.congr fun m => ⟨.inl, fun hm => hm.elim id fun hm => hm ▸ hN⟩
        next => exact h.insert hr (Nat.not_lt.1 hge)

lemma noteAll (ps : List ℕ) : (RxAck.noteAll ps).Records (· ∈ ps) := by
  suffices hfold : ∀ (r : RxAck) (N : ℕ → Prop), r.Records N →
      (ps.foldl (fun r pn => (r.note pn).2) r).Records fun m => N m ∨ m ∈ ps by
    refine (hfold ⟨false, 0, 0⟩ (fun _ => False) ⟨fun _ _ => id, nofun, nofun, nofun⟩).congr fun m => ?_
    exact or_iff_right id
  induction ps with
  | nil => exact fun r N h => h.congr fun m => (or_iff_left List.not_mem_nil).symm
  | cons pn ps ih =>
    intro r N h
    refine (ih _ _ (h.note pn)).congr fun m => ?_
    rw [List.mem_cons, or_assoc]

end RxAck.Records

/-! ## The connection -/

/-- The records are those of the packets whose frames were parsed, each of them once. -/
structure Once (c : Conn) : Prop where
  record : ∀ level, (c.rxAck level).Records fun pn => (level, pn) ∈ c.hist.parsed
  nodup : c.hist.parsed.Nodup

lemma once_shakes : Shakes Once where
  numbers _ _ _ _ _ hc := ⟨hc.record, hc.nodup⟩
  offset _ _ hc := ⟨hc.record, hc.nodup⟩
  watches c c' hq hc := by
    have hr : c'.rxAck = c.rxAck := congrArg Watched.rxAck hq
    have hp : c'.hist.parsed = c.hist.parsed := congrArg Watched.parsed hq
    refine ⟨fun level => ?_, ?_⟩
    · rw [hr, hp]
      exact hc.record level
    · rw [hp]
      exact hc.nodup
  flags _ _ _ hc := ⟨hc.record, hc.nodup⟩
  ackEncoded c level hc := by
    unfold Conn.ackEncoded
    split
    · exact ⟨hc.record, hc.nodup⟩
    · exact hc
  record _ _ _ _ _ _ _ hc := ⟨hc.record, hc.nodup⟩
  flight _ _ hc := ⟨hc.record, hc.nodup⟩

/-- If the packet was already parsed, then it is less than 64 below the packets of its level that were parsed. -/
def Recent (c : Conn) (level : Level) (pn : ℕ) : Prop :=
  (level, pn) ∈ c.hist.parsed → ∀ p ∈ c.hist.parsed, p.1 = level → p.2 < pn + 64

instance (c : Conn) (level : Level) (pn : ℕ) : Decidable (Recent c level pn) := inferInstanceAs (Decidable (_ → _))

/-- A packet is noted, and counted unless it is a duplicate. -/
lemma once_noted {level : Level} (hc : Once c) (hrecent : Recent c level pn) : Once { c with
    rxAck := Function.update c.rxAck level ((c.rxAck level).note pn).2
    hist := { c.hist with
      parsed := c.hist.parsed ++ if ((c.rxAck level).note pn).1 then [] else [(level, pn)] } } := by
  have hdup : ((c.rxAck level).note pn).1 = true ↔ (level, pn) ∈ c.hist.parsed := by
    refine ((hc.record level).note_fst pn).trans ⟨fun h => h.1, fun h => ⟨h, fun q hq => hrecent h _ hq rfl⟩⟩
  have hmem (p : Level × ℕ) : p ∈ (c.hist.parsed ++ if ((c.rxAck level).note pn).1 then [] else [(level, pn)]) ↔
      p ∈ c.hist.parsed ∨ p = (level, pn) := by
    split
    next h =>
      rw [List.append_nil]
      exact ⟨.inl, fun hp => hp.elim id fun hp => hp ▸ hdup.1 h⟩
    next => rw [List.mem_append, List.mem_singleton]
  refine ⟨fun l => ?_, ?_⟩
  · by_cases hl : l = level
    · subst hl
      simp only [Function.update_self]
      refine ((hc.record l).note pn).congr fun m => ?_
      rw [hmem, Prod.mk.injEq, and_iff_right rfl]
    · simp only [Function.update_of_ne hl]
      refine (hc.record l).congr fun m => ?_
      rw [hmem, Prod.mk.injEq]
      exact (or_iff_left fun h => hl h.1).symm
  · dsimp only
    split
    next =>
      rw [List.append_nil]
      exact hc.nodup
    next h => exact List.nodup_append.2 ⟨hc.nodup, List.pairwise_singleton _ _, fun p hp q hq => by
      rw [List.mem_singleton.1 hq]
      rintro rfl
      exact h (hdup.2 hp)⟩

lemma once_acceptPacket {level : Level} {plain : Bytes} (hc : Once c) (hrecent : Recent c level pn) :
    Once (acceptPacket cr env level pn plain c).2 := by
  have hsteady : Steady cr env Once := once_shakes.steady fun _ _ _ _ hc => ⟨hc.record, hc.nodup⟩
  have hframes := (hsteady.handles (fun _ _ _ hc => ⟨hc.record, hc.nodup⟩) level).parseFrames
    (fun _ _ _ hc => ⟨hc.record, hc.nodup⟩) plain.length plain
  unfold acceptPacket
  rw [Prog.get_bind, Prog.modify_bind]
  refine Keeps.apply (P := Once) ?_ (once_noted hc hrecent)
  refine Keeps.ite (fun _ => Keeps.pure ()) fun _ => hframes.bind fun _ => ?_
  exact Keeps.modify fun _ hc => ⟨hc.record, hc.nodup⟩

/-- All packets of a datagram that are opened are recent. -/
def AllRecent (cr : Crypto) : Option Conn → Event → Option Conn → Prop
  | some c, .datagram env buf, _ => EachPacket cr env (fun c level pn _ => Recent c level pn) buf.length buf c
  | _, _, _ => True

instance (o : Option Conn) (e : Event) (o' : Option Conn) : Decidable (AllRecent cr o e o') :=
  match o, e with
  | some c, .datagram env buf => inferInstanceAs (Decidable (EachPacket cr env _ buf.length buf c))
  | some _, .retransmit _ | some _, .done _ | some _, .write _ _ | some _, .read _ | none, _ => isTrue trivial

/-- `s_quic_note_rx` is right about a packet just when it is not an old one again; and as long as no old packet is
received again, the frames of every packet are parsed once. -/
theorem recent_once (ps : List ℕ) (pn : ℕ) :
    ((((RxAck.noteAll ps).note pn).1 = true ↔ pn ∈ ps) ↔ (pn ∈ ps → ∀ q ∈ ps, q < pn + 64)) ∧
    ∀ (cr : Crypto) (c₀ c : Conn), Start cr c₀ → Reachable (Restrict (Step cr) (AllRecent cr)) (some c₀) (some c) →
      c.hist.parsed.Nodup := by
  refine ⟨?_, fun cr c₀ c h₀ h => ?_⟩
  · rw [(RxAck.Records.noteAll ps).note_fst pn]
    exact ⟨fun h hpn => (h.2 hpn).2, fun h => ⟨fun hN => hN.1, fun hpn => ⟨hpn, h hpn⟩⟩⟩
  · refine (reachable_keeps (P := Once) (fun _ _ _ h => h.1) (fun c e o hc hC => ?_)
      (once_shakes.start (fun _ _ _ _ => ?_) h₀) h).nodup
    · cases e with
      | datagram env buf =>
        exact ingestLoop_keeps once_shakes.watches (fun c level pn plain hc hq => once_acceptPacket hc hq) _ _ c hc hC.2
      | retransmit env => exact once_shakes.retransmit.apply hc
      | done env => exact once_shakes.handshakeDone.apply hc
      | write env data => exact (once_shakes.quicWrite data).apply hc
      | read len => exact ⟨hc.record, hc.nodup⟩
    · exact ⟨fun _ => ⟨fun _ _ => List.not_mem_nil, nofun, nofun, nofun⟩, List.nodup_nil⟩

/-- The server receives a PING in a packet of level `app`. -/
def plainPing (pn : ℕ) (c : Conn) : Conn := (ingest .plain .plain (plainPacket .app pn [0x01]) c).2

theorem recent_once_plain :
    (((RxAck.noteAll [0, 63]).note 0).1 = true ↔ 0 ∈ [0, 63]) ∧ Start .plain plainServer ∧
    Reachable (Restrict (Step .plain) (AllRecent .plain)) (some plainServer)
      (some (plainPing 0 (plainPing 63 (plainPing 0 plainReady)))) ∧
    (plainPing 0 (plainPing 63 (plainPing 0 plainReady))).hist.parsed.Nodup := by
  have hrun : Reachable (Restrict (Step .plain) (AllRecent .plain)) (some plainServer)
      (some (plainPing 0 (plainPing 63 (plainPing 0 plainReady)))) := by
    refine ⟨_, .cons ⟨step_plainHello, ?_⟩ (.cons ⟨step_plainFinished, ?_⟩ (.cons ⟨@Step.read _ _ .plain
      (plainPacket .app 0 [0x01]) ?_ ?_ ?_ ?_, ?_⟩ (.cons ⟨@Step.read _ _ .plain (plainPacket .app 63 [0x01]) ?_ ?_ ?_ ?_,
        ?_⟩ (.cons ⟨@Step.read _ _ .plain (plainPacket .app 0 [0x01]) ?_ ?_ ?_ ?_, ?_⟩ (.nil _)))))⟩
    all_goals decide +kernel
  exact ⟨(recent_once [0, 63] 0).1.2 (by decide), start_plainServer, hrun,
    (recent_once [0, 63] 0).2 .plain plainServer _ start_plainServer hrun⟩

/-- The packet with number 0 is parsed again after the one with number 64. -/
theorem replayed : ¬ (((RxAck.noteAll [0, 64]).note 0).1 = true ↔ 0 ∈ [0, 64]) ∧ Start .plain plainServer ∧
    Reachable (Step .plain) (some plainServer) (some (plainPing 0 (plainPing 64 (plainPing 0 plainReady)))) ∧
    ¬ (plainPing 0 (plainPing 64 (plainPing 0 plainReady))).hist.parsed.Nodup := by
  refine ⟨by decide, start_plainServer, ⟨_, .cons step_plainHello (.cons step_plainFinished (.cons (@Step.read _ _ .plain
    (plainPacket .app 0 [0x01]) ?_ ?_ ?_ ?_) (.cons (@Step.read _ _ .plain (plainPacket .app 64 [0x01]) ?_ ?_ ?_ ?_)
      (.cons (@Step.read _ _ .plain (plainPacket .app 0 [0x01]) ?_ ?_ ?_ ?_) (.nil _)))))⟩, ?_⟩
  all_goals decide +kernel

end Suspenders.Quic
