import Suspenders.Quic.Level

/-!
# What is acknowledged

`s_quic_open_packet` notes the number of a packet before its frames are parsed.  If they are rejected then, the
connection may go on: `quic_read` fails, and the next `quic_write` acknowledges the packet (`rejected_acked`).  As long
as no packet is rejected, everything that is acknowledged was processed (`acked_processed`).
-/

namespace Suspenders.Quic

open Lib Prog

variable {cr : Crypto} {env : Env} {c c₀ : Conn} {N M : ℕ → Prop} {r : RxAck}

/-! ## The record of a level -/

/-- The packets of the record are among `N`, and the largest one is in it. -/
structure RxAck.Within (r : RxAck) (N : ℕ → Prop) : Prop where
  max : r.has = true → r.mask.getLsbD 0 = true
  mask : r.has = true → ∀ d, r.mask.getLsbD d = true → d ≤ r.max ∧ N (r.max - d)

lemma RxAck.Within.mono (h : r.Within N) (hNM : ∀ pn, N pn → M pn) : r.Within M :=
  ⟨h.max, fun hr d hd => (h.mask hr d hd).imp_right (hNM _)⟩

/-- A packet is noted. -/
lemma RxAck.Within.note (h : r.Within N) (pn : ℕ) : (r.note pn).2.Within fun m => N m ∨ m = pn := by
  have hone (d : ℕ) (hd : (1#64).getLsbD d = true) : d = 0 := by
    simpa [BitVec.getLsbD_one] using hd
  unfold RxAck.note
  split
  next hr => exact ⟨fun _ => by simp, fun _ d hd => by simp [hone d hd]⟩
  next hr =>
    replace hr : r.has = true := by simpa using hr
    split
    next hlt =>
      -- the record is shifted
      split
      next => exact ⟨fun _ => by simp, fun _ d hd => by simp [hone d hd]⟩
      next hshift =>
        refine ⟨fun _ => by simp, fun _ d hd => ?_⟩
        simp only [BitVec.getLsbD_or, BitVec.getLsbD_shiftLeft, Bool.or_eq_true, Bool.and_eq_true,
          Bool.not_eq_true', decide_eq_true_eq, decide_eq_false_iff_not] at hd
        rcases hd with ⟨⟨-, hge⟩, hd⟩ | hd
        · obtain ⟨hle, hN⟩ := h.mask hr _ hd
          refine ⟨by dsimp only; omega, .inl ?_⟩
          rwa [show pn - d = r.max - (d - (pn - r.max)) by omega]
        · simp [hone d hd]
    next hge =>
      split
      next => exact h.mono fun _ => .inl
      next hold =>
        split
        next => exact h.mono fun _ => .inl
        next =>
          refine ⟨fun _ => by simp [h.max hr], fun _ d hd => ?_⟩
          simp only [BitVec.getLsbD_or, BitVec.getLsbD_shiftLeft, Bool.or_eq_true, Bool.and_eq_true,
            Bool.not_eq_true', decide_eq_true_eq, decide_eq_false_iff_not] at hd
          rcases hd with hd | ⟨⟨-, hle⟩, hd⟩
          · exact (h.mask hr d hd).imp_right .inl
          · have := hone _ hd
            exact ⟨by dsimp only; omega, .inr (by dsimp only; omega)⟩

lemma ackRun_spec (mask : BitVec 64) (n first : ℕ) : first ≤ ackRun mask n first ∧
    ∀ d, first < d → d ≤ ackRun mask n first → mask.getLsbD d = true := by
  induction n generalizing first with
  | zero => exact ⟨Nat.le_refl _, fun d h₁ h₂ => absurd h₁ (Nat.not_lt.2 h₂)⟩
  | succ n ih =>
    rw [ackRun]
    split
    next hbit =>
      obtain ⟨hle, hbits⟩ := ih (first + 1)
      refine ⟨by omega, fun d h₁ h₂ => ?_⟩
      obtain rfl | hlt := Nat.eq_or_lt_of_le (Nat.succ_le_of_lt h₁)
      · exact hbit
      · exact hbits d hlt h₂
    next => exact ⟨Nat.le_refl _, fun d h₁ h₂ => absurd h₁ (Nat.not_lt.2 h₂)⟩

/-- What an ACK frame covers is in the record. -/
lemma RxAck.Within.covers (h : r.Within N) (hr : r.has = true) {pn : ℕ} (hpn : covers r.max r.first pn) : N pn := by
  obtain ⟨-, hbits⟩ := ackRun_spec r.mask 63 0
  have hbit : r.mask.getLsbD (r.max - pn) = true := by
    obtain hzero | hpos := Nat.eq_zero_or_pos (r.max - pn)
    · rw [hzero]
      exact h.max hr
    · refine hbits _ hpos ?_
      have hlow := hpn.1
      show r.max - pn ≤ r.first
      split at hlow <;> omega
  have hN := (h.mask hr _ hbit).2
  rwa [Nat.sub_sub_self hpn.2] at hN

/-! ## The connection -/

/-- Whatever was noted or acknowledged was processed or is among `X`. -/
structure Honest (X : Level → ℕ → Prop) (c : Conn) : Prop where
  record : ∀ level, (c.rxAck level).Within fun pn => (level, pn) ∈ c.hist.processed ∨ X level pn
  acks : ∀ level largest first, (level, largest, first) ∈ c.hist.acks → ∀ pn, covers largest first pn →
    (level, pn) ∈ c.hist.processed ∨ X level pn

variable {X : Level → ℕ → Prop}

lemma honest_congr {c c' : Conn} (hr : c'.rxAck = c.rxAck) (ha : c'.hist.acks = c.hist.acks)
    (hp : c'.hist.processed = c.hist.processed) (hc : Honest X c) : Honest X c' := by
  refine ⟨fun level => ?_, fun level largest first hmem => ?_⟩
  · rw [hr, hp]
    exact hc.record level
  · rw [ha] at hmem
    rw [hp]
    exact hc.acks level largest first hmem

lemma honest_shakes : Shakes (Honest X) where
  numbers _ _ _ _ _ hc := ⟨hc.record, hc.acks⟩
  offset _ _ hc := ⟨hc.record, hc.acks⟩
  watches c c' hq hc :=
    honest_congr (congrArg Watched.rxAck hq) (congrArg Watched.acks hq) (congrArg Watched.processed hq) hc
  flags _ _ _ hc := ⟨hc.record, hc.acks⟩
  ackEncoded c level hc := by
    unfold Conn.ackEncoded
    split
    next hr =>
      refine ⟨hc.record, fun level' largest first hmem pn hpn => ?_⟩
      rcases List.mem_append.1 hmem with hmem | hmem
      · exact hc.acks level' largest first hmem pn hpn
      · cases List.mem_singleton.1 hmem
        exact (hc.record level).covers hr hpn
    next => exact hc
  record _ _ _ _ _ _ _ hc := ⟨hc.record, hc.acks⟩
  flight _ _ hc := ⟨hc.record, hc.acks⟩

lemma honest_parseFrames (level : Level) (n : ℕ) (plain : Bytes) :
    Keeps (Honest X) (parseFrames cr env level n plain) := by
  have hsteady : Steady cr env (Honest X) := honest_shakes.steady fun _ _ _ _ hc => ⟨hc.record, hc.acks⟩
  exact (hsteady.handles (fun _ _ _ hc => ⟨hc.record, hc.acks⟩) level).parseFrames (fun _ _ _ hc => ⟨hc.record, hc.acks⟩) n plain

/-- A packet that is accepted is processed. -/
lemma honest_acceptPacket (level : Level) (pn : ℕ) (plain : Bytes) :
    Spec (Honest fun _ _ => False) (acceptPacket cr env level pn plain) (fun _ => Honest fun _ _ => False)
      fun _ => True := by
  unfold acceptPacket
  refine Spec.get_bind fun c => ?_
  cases hdup : ((c.rxAck level).note pn).1 with
  | true =>
    -- a duplicate changes nothing
    have hnote : ((c.rxAck level).note pn).2 = c.rxAck level := by
      revert hdup
      unfold RxAck.note
      split_ifs <;> simp
    refine Spec.modify_bind (T := Honest fun _ _ => False) ?_ (Spec.pure fun _ hc => hc)
    rintro _ ⟨rfl, hc⟩
    rw [hnote, Function.update_eq_self]
    exact ⟨hc.record, hc.acks⟩
  | false =>
    refine Spec.modify_bind (T := Honest fun l m => l = level ∧ m = pn) ?_ (Spec.bind
      ((honest_parseFrames level _ plain).spec fun _ _ => trivial) fun _ => Spec.modify fun c' hc' => ?_)
    · rintro _ ⟨rfl, hc⟩
      refine ⟨fun l => ?_, fun l largest first hmem m hm => (hc.acks l largest first hmem m hm).imp_right False.elim⟩
      by_cases hl : l = level
      · subst hl
        simp only [Function.update_self, true_and]
        refine ((hc.record l).note pn).mono fun m hm => hm.imp_left fun h => h.resolve_right id
      · simp only [Function.update_of_ne hl]
        exact (hc.record l).mono fun m hm => hm.imp_right False.elim
    · have hdone (l : Level) (m : ℕ) (h : (l, m) ∈ c'.hist.processed ∨ l = level ∧ m = pn) :
          (l, m) ∈ c'.hist.processed ++ [(level, pn)] ∨ False := by
        rcases h with h | ⟨rfl, rfl⟩
        · exact .inl (List.mem_append_left _ h)
        · exact .inl (List.mem_append_right _ (List.mem_singleton.2 rfl))
      exact ⟨fun l => (hc'.record l).mono fun m hm => hdone l m hm,
        fun l largest first hmem m hm => hdone l m (hc'.acks l largest first hmem m hm)⟩

/-- `s_quic_parse_frames` rejects no packet of a datagram. -/
def NoneRejected (cr : Crypto) : Option Conn → Event → Option Conn → Prop
  | some c, .datagram env buf, _ =>
    EachPacket cr env (fun c level pn plain => (acceptPacket cr env level pn plain c).1.isSome = true) buf.length buf c
  | _, _, _ => True

instance (o : Option Conn) (e : Event) (o' : Option Conn) : Decidable (NoneRejected cr o e o') :=
  match o, e with
  | some c, .datagram env buf => inferInstanceAs (Decidable (EachPacket cr env _ buf.length buf c))
  | some _, .retransmit _ | some _, .done _ | some _, .write _ _ | some _, .read _ | none, _ => isTrue trivial

/-- As long as no packet that is opened is rejected, every packet that is acknowledged was processed. -/
theorem acked_processed (h₀ : Start cr c₀) (h : Reachable (Restrict (Step cr) (NoneRejected cr)) (some c₀) (some c))
    {level : Level} {largest first pn : ℕ} (hack : (level, largest, first) ∈ c.hist.acks)
    (hpn : covers largest first pn) : (level, pn) ∈ c.hist.processed := by
  have hc : Honest (fun _ _ => False) c := by
    refine reachable_keeps (fun _ _ _ h => h.1) (fun c e o hc hC => ?_) (honest_shakes.start (fun _ _ _ _ => ?_) h₀) h
    · cases e with
      | datagram env buf =>
        exact ingestLoop_keeps honest_shakes.watches
          (fun c level pn plain hc hq => (honest_acceptPacket level pn plain).of_isSome hc hq) _ _ c hc hC.2
      | retransmit env => exact honest_shakes.retransmit.apply hc
      | done env => exact honest_shakes.handshakeDone.apply hc
      | write env data => exact (honest_shakes.quicWrite data).apply hc
      | read len => exact ⟨hc.record, hc.acks⟩
    · exact ⟨fun _ => ⟨nofun, nofun⟩, nofun⟩
  exact (hc.acks level largest first hack pn hpn).resolve_right id

/-- The server has received `frames` in a packet of level `app`, and then writes a byte. -/
def plainReply (frames : Bytes) : Conn :=
  (quicWrite .plain .plain [0x62] (ingest .plain .plain (plainPacket .app 0 frames) plainReady).2).2

theorem acked_processed_plain : Start .plain plainServer ∧
    Reachable (Restrict (Step .plain) (NoneRejected .plain)) (some plainServer) (some (plainReply plainByte)) ∧
    (.app, 0, 0) ∈ (plainReply plainByte).hist.acks ∧ covers 0 0 0 ∧
    (.app, 0) ∈ (plainReply plainByte).hist.processed := by
  have hrun : Reachable (Restrict (Step .plain) (NoneRejected .plain)) (some plainServer)
      (some (plainReply plainByte)) := by
    refine ⟨_, .cons ⟨step_plainHello, ?_⟩ (.cons ⟨step_plainFinished, ?_⟩ (.cons ⟨@Step.read _ _ .plain
      (plainPacket .app 0 plainByte) ?_ ?_ ?_ ?_, ?_⟩ (.cons ⟨.write, trivial⟩ (.nil _))))⟩
    all_goals decide +kernel
  have hack : (Level.app, 0, 0) ∈ (plainReply plainByte).hist.acks := by decide +kernel
  have hcovers : covers 0 0 0 := by decide
  exact ⟨start_plainServer, hrun, hack, hcovers, acked_processed start_plainServer hrun hack hcovers⟩

/-- A byte at offset 5 of a stream of which nothing has been received. -/
def plainGap : Bytes := [0x0e, 0, 5, 1, 0x61]

/-- A packet is acknowledged that was rejected because of a gap. -/
theorem rejected_acked : Start .plain plainServer ∧
    Reachable (Step .plain) (some plainServer) (some (plainReply plainGap)) ∧
    (ingest .plain .plain (plainPacket .app 0 plainGap) plainReady).1 = none ∧
    (.app, 0, 0) ∈ (plainReply plainGap).hist.acks ∧ covers 0 0 0 ∧
    (.app, 0) ∉ (plainReply plainGap).hist.processed := by
  refine ⟨start_plainServer, ⟨_, .cons step_plainHello (.cons step_plainFinished (.cons (@Step.read _ _ .plain
    (plainPacket .app 0 plainGap) ?_ ?_ ?_ ?_) (.cons .write (.nil _))))⟩, ?_⟩
  all_goals decide +kernel

end Suspenders.Quic
