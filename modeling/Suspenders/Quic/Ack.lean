import Suspenders.Quic.Acked
import Suspenders.Quic.Deliver
import Suspenders.Quic.Replay

/-!
# What an ACK frame says

The record of a level is a maximum and a mask relative to it.  `s_quic_encode_ack` reads the run of set bits below the
maximum off the mask, and the peer gets the range back from four integers.

`ack_sound` is about the whole way: the numbers that were noted, the frame, and the flight slot of the peer.
-/

namespace Suspenders.Quic

open Lib Prog

variable {cr : Crypto} {env : Env} {c : Conn} {level : Level} {ps : List ℕ}

/-! ## The run of set bits -/

/-- The run ends at its limit or before a bit that is not set. -/
lemma ackRun_stops (mask : BitVec 64) (n first : ℕ) : ackRun mask n first ≤ first + n ∧
    (ackRun mask n first < first + n → mask.getLsbD (ackRun mask n first + 1) = false) := by
  induction n generalizing first with
  | zero => exact ⟨Nat.le_refl _, fun h => absurd h (Nat.lt_irrefl _)⟩
  | succ n ih =>
    rw [ackRun]
    split
    next =>
      obtain ⟨hle, hstop⟩ := ih (first + 1)
      exact ⟨by omega, fun hlt => hstop (by omega)⟩
    next hbit => exact ⟨by omega, fun _ => by simpa using hbit⟩

namespace RxAck

lemma within_noteAll (ps : List ℕ) : (noteAll ps).Within (· ∈ ps) := by
  suffices hfold : ∀ (r : RxAck) (N : ℕ → Prop), r.Within N →
      (ps.foldl (fun r pn => (r.note pn).2) r).Within fun m => N m ∨ m ∈ ps by
    exact (hfold ⟨false, 0, 0⟩ (fun _ => False) ⟨nofun, nofun⟩).mono fun m hm => hm.resolve_left id
  induction ps with
  | nil => exact fun r N h => h.mono fun m => .inl
  | cons pn ps ih =>
    intro r N h
    refine (ih _ _ (h.note pn)).mono fun m hm => ?_
    rwa [List.mem_cons, ← or_assoc]

lemma has_noteAll (hps : ps ≠ []) : (noteAll ps).has = true := by
  obtain ⟨pn, hpn⟩ := List.exists_mem_of_ne_nil ps hps
  by_contra hno
  exact (Records.noteAll ps).none (by simpa using hno) pn hpn

/-- The range of an ACK frame is at most as long as the window. -/
lemma first_lt (r : RxAck) : r.first < 64 := by
  have hle := (ackRun_stops r.mask 63 0).1
  show ackRun r.mask 63 0 < 64
  omega

variable {r : RxAck} {N : ℕ → Prop}

/-- All the bits up to `first` are set. -/
lemma Within.bits (h : r.Within N) (hr : r.has = true) {d : ℕ} (hd : d ≤ r.first) : r.mask.getLsbD d = true := by
  obtain rfl | hpos := Nat.eq_zero_or_pos d
  · exact h.max hr
  · exact (ackRun_spec r.mask 63 0).2 d hpos hd

lemma Within.first_le (h : r.Within N) (hr : r.has = true) : r.first ≤ r.max :=
  (h.mask hr _ (h.bits hr (Nat.le_refl _))).1

/-- Every number from `max - first` to `max` is in the record. -/
lemma Within.range (h : r.Within N) (hr : r.has = true) {pn : ℕ} (hlow : r.max - r.first ≤ pn) (hhigh : pn ≤ r.max) :
    N pn := by
  have hN := (h.mask hr (r.max - pn) (h.bits hr (by omega))).2
  rwa [Nat.sub_sub_self hhigh] at hN

/-- No longer range that ends at `max` and fits into the window was noted. -/
lemma Records.longest (h : r.Records N) (hr : r.has = true) {k : ℕ} (hk : k < 64) (hle : k ≤ r.max)
    (hall : ∀ pn, r.max - k ≤ pn → pn ≤ r.max → N pn) : k ≤ r.first := by
  by_contra hlt
  have hstop : r.mask.getLsbD (r.first + 1) = false := by
    refine (ackRun_stops r.mask 63 0).2 ?_
    show r.first < 0 + 63
    omega
  have hset : r.mask.getLsbD (r.first + 1) = true :=
    (h.mask hr (r.first + 1) (by omega) (by omega)).2 (hall _ (by omega) (by omega))
  rw [hstop] at hset
  cases hset

end RxAck

/-! ## The frame -/

/-- `s_quic_encode_ack` into a buffer that suffices -/
lemma encode_eq {r : RxAck} {cap : ℕ} (hr : r.has = true) (hmin : 8 ≤ cap) (hcap : 4 + varintSize r.max ≤ cap) :
    r.encode cap = some (0x02 :: (varint r.max ++ varint 0 ++ varint 0 ++ varint r.first)) := by
  have hsize : varintSize r.first = 1 := if_pos (Nat.le_of_lt_succ r.first_lt)
  have hzero : varintSize 0 = 1 := rfl
  have hput {cap v : ℕ} (h : varintSize v ≤ cap) : putVarint cap v = some (varint v) := if_neg (Nat.not_lt.2 h)
  rw [RxAck.encode, if_neg (by simp [hr]; omega), hput (by omega)]
  simp only [Option.bind_eq_bind, Option.bind_some, length_varint]
  rw [hput (by omega)]
  simp only [Option.bind_some, length_varint]
  rw [hput (by omega)]
  simp only [Option.bind_some, length_varint]
  rw [hput (by omega)]
  simp

/-- The peer reads the two numbers of the frame. -/
lemma ackFrame_varints {largest first : ℕ} (hlargest : largest < 2 ^ 62) (hfirst : first < 2 ^ 62) (rest : Bytes) :
    ackFrame level 0x02 (varint largest ++ varint 0 ++ varint 0 ++ varint first ++ rest) c =
      (some rest, c.applyAck level largest first) := by
  simp only [List.append_assoc]
  refine (Prog.ofOption_bind (getVarint_varint hlargest _) _ c).trans ?_
  refine (Prog.ofOption_bind (getVarint_varint (by decide) _) _ c).trans ?_
  refine (Prog.ofOption_bind (getVarint_varint (by decide) _) _ c).trans ?_
  exact Prog.ofOption_bind (getVarint_varint hfirst rest) _ c

/-- The slot of a level is cleared only if the ACK covers its packet. -/
lemma applyAck_clears {largest first : ℕ} (hlive : (c.flight level).live = true)
    (hclear : ((c.applyAck level largest first).flight level).live = false) :
    covers largest first (c.flight level).pn := by
  simp only [Conn.applyAck, Function.update_self, Flight.applyAck] at hclear
  split at hclear
  next h => exact h.2
  next => rw [hlive] at hclear; cases hclear

/-- The numbers `ps` were noted, and the buffer suffices.  Then the frame names the longest range of at most 64 noted
numbers that ends at the largest one; and the peer that parses it clears the slot of the level only if its packet was
noted, and no other slot. -/
theorem ack_sound (cr : Crypto) (env : Env) (level : Level) (ps : List ℕ) (hne : ps ≠ []) (hps : ∀ pn ∈ ps, pn < 2 ^ 62)
    (cap : ℕ) (hmin : 8 ≤ cap) (hcap : 4 + varintSize (RxAck.noteAll ps).max ≤ cap) :
    ∃ largest first, (RxAck.noteAll ps).max = largest ∧
      (RxAck.noteAll ps).encode cap = some (0x02 :: (varint largest ++ varint 0 ++ varint 0 ++ varint first)) ∧
      (largest ∈ ps ∧ ∀ pn ∈ ps, pn ≤ largest) ∧ first ≤ largest ∧ first < 64 ∧
      (∀ pn, largest - first ≤ pn → pn ≤ largest → pn ∈ ps) ∧
      (∀ k, k < 64 → k ≤ largest → (∀ pn, largest - k ≤ pn → pn ≤ largest → pn ∈ ps) → k ≤ first) ∧
      ∀ c n rest, ∃ c', parseFrames cr env level (n + 1)
          (0x02 :: (varint largest ++ varint 0 ++ varint 0 ++ varint first) ++ rest) c =
            parseFrames cr env level n rest c' ∧
        ((c.flight level).live = true → (c'.flight level).live = false → (c.flight level).pn ∈ ps) ∧
        ∀ level', level' ≠ level → c'.flight level' = c.flight level' := by
  have hr := RxAck.has_noteAll hne
  have hrec := RxAck.Records.noteAll ps
  have hwithin := RxAck.within_noteAll ps
  have hmax := hps _ (hrec.max hr)
  have hfirst := (RxAck.noteAll ps).first_lt
  refine ⟨(RxAck.noteAll ps).max, (RxAck.noteAll ps).first, rfl, encode_eq hr hmin hcap,
    ⟨hrec.max hr, hrec.le hr⟩, hwithin.first_le hr, hfirst, fun pn => hwithin.range hr,
    fun k hk hle hall => hrec.longest hr hk hle hall, fun c n rest => ?_⟩
  refine ⟨c.applyAck level (RxAck.noteAll ps).max (RxAck.noteAll ps).first, ?_, ?_, ?_⟩
  · rw [List.cons_append]
    exact parseFrames_cons n (Prog.map_of_eq some (ackFrame_varints hmax (by omega) rest))
  · intro hlive hclear
    exact hwithin.covers hr (applyAck_clears hlive hclear)
  · intro level' hlevel
    exact Function.update_of_ne hlevel _ _

/-- Packet 1 is missing, so that only 2 and 3 are acknowledged. -/
theorem ack_sound_gap : ∃ largest first, (RxAck.noteAll [0, 3, 2]).max = largest ∧
    (RxAck.noteAll [0, 3, 2]).encode 8 = some (0x02 :: (varint largest ++ varint 0 ++ varint 0 ++ varint first)) ∧
    (largest ∈ [0, 3, 2] ∧ ∀ pn ∈ [0, 3, 2], pn ≤ largest) ∧ first ≤ largest ∧ first < 64 := by
  obtain ⟨largest, first, hmax, henc, hbound, hle, hlt, -⟩ :=
    ack_sound .plain .plain .app [0, 3, 2] (by decide) (by decide) 8 (by decide) (by decide)
  exact ⟨largest, first, hmax, henc, hbound, hle, hlt⟩

end Suspenders.Quic
