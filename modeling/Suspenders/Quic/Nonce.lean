import Suspenders.Quic.Level

/-!
# Nonces

Every call of `s_quic_send_frames` takes a new packet number of its level, before anything can fail.  The nonce of a
packet is its number, added to the IV bit by bit, so that no two packets of a level have the same nonce under the same
keys.
-/

namespace Suspenders.Quic

open Lib Prog

variable {cr : Crypto} {env : Env} {c c₀ : Conn}

/-! ## The nonce of a packet -/

lemma length_nonce {iv : Bytes} (hiv : iv.length = 12) (pn : ℕ) : (nonce iv pn).length = 12 := by
  rw [nonce, List.length_append, List.length_take, List.length_mapIdx, length_toBytes, hiv]
  rfl

lemma mapIdx_injective {α β : Type} {f : ℕ → α → β} (hf : ∀ i, Function.Injective (f i)) :
    Function.Injective (List.mapIdx f) := by
  intro l l' h
  refine List.ext_getElem? fun i => ?_
  have hi : (l.mapIdx f)[i]? = (l'.mapIdx f)[i]? := by rw [h]
  rw [List.getElem?_mapIdx, List.getElem?_mapIdx] at hi
  exact Option.map_injective (hf i) hi

lemma nonce_injOn (iv : Bytes) : Set.InjOn (nonce iv) {pn | pn < 2 ^ 64} := by
  intro pn hpn pn' hpn' h
  rw [nonce, nonce] at h
  have hxor := List.append_cancel_left h
  have hinj (i : ℕ) : Function.Injective fun b : UInt8 => iv.getD (4 + i) 0 ^^^ b := fun a b => (UInt8.xor_right_inj _).1
  have hbytes : toBytes 8 pn = toBytes 8 pn' := mapIdx_injective hinj hxor
  have hread {v : ℕ} (hv : v ∈ {pn : ℕ | pn < 2 ^ 64}) : ofBytes (toBytes 8 v) = v := by
    rw [Set.mem_ofPred_eq] at hv
    exact ofBytes_toBytes (by omega)
  rw [← hread hpn, ← hread hpn', hbytes]

/-! ## The connection -/

/-- The packet numbers that were encrypted with were taken, and grow at each level. -/
structure Counted (c : Conn) : Prop where
  lt : ∀ e ∈ c.hist.encryptions, e.2.2 < c.txPn e.1
  ordered : c.hist.encryptions.Pairwise fun e e' => e.1 = e'.1 → e.2.2 < e'.2.2

/-- A packet takes the next number of its level. -/
lemma Draws.counted {level : Level} {txPn : Level → ℕ} {es : List (Level × Keys × ℕ)} (h : Draws level c txPn es)
    (hc : Counted c) : Counted { c with txPn := txPn, hist := { c.hist with encryptions := es } } := by
  have hle (l : Level) : c.txPn l ≤ Function.update c.txPn level (c.txPn level + 1) l := by
    by_cases hl : l = level
    · rw [hl, Function.update_self]
      exact Nat.le_succ _
    · rw [Function.update_of_ne hl]
  cases h with
  | number => exact ⟨fun e he => (hc.lt e he).trans_le (hle e.1), hc.ordered⟩
  | encryption k =>
    refine ⟨fun e he => ?_, List.pairwise_append.2 ⟨hc.ordered, List.pairwise_singleton _ _, fun e he e' he' heq => ?_⟩⟩
    · rcases List.mem_append.1 he with he | he
      · exact (hc.lt e he).trans_le (hle e.1)
      · rw [List.mem_singleton.1 he]
        simp only [Function.update_self, Nat.lt_add_one]
    · rw [List.mem_singleton] at he'
      subst he'
      have hlt := hc.lt e he
      rwa [heq] at hlt

lemma counted_shakes : Shakes Counted where
  numbers _ _ _ _ h hc := h.counted hc
  offset _ _ hc := ⟨hc.lt, hc.ordered⟩
  watches c c' hq hc := by
    have hn : c'.txPn = c.txPn := congrArg Watched.txPn hq
    have he : c'.hist.encryptions = c.hist.encryptions := congrArg Watched.encryptions hq
    refine ⟨?_, ?_⟩
    · rw [hn, he]
      exact hc.lt
    · rw [he]
      exact hc.ordered
  flags _ _ _ hc := ⟨hc.lt, hc.ordered⟩
  ackEncoded c level hc := by
    unfold Conn.ackEncoded
    split
    · exact ⟨hc.lt, hc.ordered⟩
    · exact hc
  record _ _ _ _ _ _ _ hc := ⟨hc.lt, hc.ordered⟩
  flight _ _ hc := ⟨hc.lt, hc.ordered⟩

lemma counted_new (isServer : Bool) (localCid peerCid origDcid : Bytes) : Counted { Conn.new with
    isServer := isServer, localCid := localCid, peerCid := peerCid, origDcid := origDcid } :=
  ⟨nofun, List.Pairwise.nil⟩

lemma counted_run (e : Event) : Keeps Counted (e.run cr) :=
  counted_shakes.run (fun _ _ _ _ hc => ⟨hc.lt, hc.ordered⟩) (fun _ _ _ hc => ⟨hc.lt, hc.ordered⟩)
    (fun _ _ _ _ _ _ hc => ⟨hc.lt, hc.ordered⟩) e

lemma counted_reachable (h₀ : Start cr c₀) (h : Reachable (Step cr) (some c₀) (some c)) : Counted c :=
  reachable_keeps (fun _ _ _ h => h) (fun _ e _ hc _ => (counted_run e).apply hc) (counted_shakes.start counted_new h₀) h

/-- A connection at any time of its life, also when it is about to be freed. -/
inductive Lives (cr : Crypto) : Conn → Prop
  /-- After `quic_dial`, which may have failed. -/
  | dial (env : Env) (c₀ : Conn) : Lives cr (dial cr env c₀).2
  | reached {c₀ c : Conn} : Start cr c₀ → Reachable (Step cr) (some c₀) (some c) → Lives cr c
  /-- After an event, which may have failed. -/
  | event {c₀ c : Conn} (e : Event) : Start cr c₀ → Reachable (Step cr) (some c₀) (some c) → Lives cr (e.run cr c).2
  | close {c₀ c : Conn} (env : Env) :
      Start cr c₀ → Reachable (Step cr) (some c₀) (some c) → Lives cr (quicClose cr env c).2

lemma counted_lives (h : Lives cr c) : Counted c := by
  cases h with
  | dial env c₀ => exact Spec.apply (counted_shakes.dial counted_new) (fun _ hc => hc) trivial
  | reached h₀ h => exact counted_reachable h₀ h
  | event e h₀ h => exact (counted_run e).apply (counted_reachable h₀ h)
  | close env h₀ h =>
    refine Keeps.apply (P := Counted) ?_ (counted_reachable h₀ h)
    exact Keeps.get_bind fun c _ => Keeps.ite (fun _ => counted_shakes.sendFrames .app _ false 0) fun _ => Keeps.pure ()

/-- Under the same key and IV no nonce is used twice at a level, as long as fewer than `2 ^ 64` packets are sent at each
level; for a packet number determines the nonce and the other way round. -/
theorem nonces_distinct :
    (∀ (cr : Crypto) (c : Conn), Lives cr c → (∀ level, c.txPn level < 2 ^ 64) →
      c.hist.encryptions.Pairwise fun e e' => e.1 = e'.1 → e.2.1.key = e'.2.1.key → e.2.1.iv = e'.2.1.iv →
        nonce e.2.1.iv e.2.2 ≠ nonce e'.2.1.iv e'.2.2) ∧
    ∀ iv, Set.InjOn (nonce iv) {pn | pn < 2 ^ 64} ∧ (iv.length = 12 → ∀ pn, (nonce iv pn).length = 12) := by
  refine ⟨fun cr c h hlt => ?_, fun iv => ⟨nonce_injOn iv, length_nonce⟩⟩
  have hc := counted_lives h
  refine hc.ordered.imp_of_mem fun {e e'} he he' hlevel heq _ hiv hnonce => ?_
  have hbound (e : Level × Keys × ℕ) (he : e ∈ c.hist.encryptions) : e.2.2 < 2 ^ 64 := (hc.lt e he).trans (hlt e.1)
  rw [← hiv] at hnonce
  have hpn := nonce_injOn e.2.1.iv (hbound e he) (hbound e' he') hnonce
  exact absurd (hlevel heq) (by rw [hpn]; exact Nat.lt_irrefl _)

/-- A server that writes a byte after the handshake, and then another one. -/
def plainWrites : Conn :=
  ((Event.write .plain [0x62]).run .plain (quicWrite .plain .plain [0x61] plainReady).2).2

theorem nonces_distinct_plain :
    plainWrites.hist.encryptions.map (fun e => (e.1, e.2.2)) = [(.initial, 0), (.handshake, 0), (.app, 0), (.app, 1)] ∧
    Lives .plain plainWrites ∧ (∀ level, plainWrites.txPn level < 2 ^ 64) ∧
    (plainWrites.hist.encryptions.Pairwise fun e e' => e.1 = e'.1 → e.2.1.key = e'.2.1.key → e.2.1.iv = e'.2.1.iv →
      nonce e.2.1.iv e.2.2 ≠ nonce e'.2.1.iv e'.2.2) ∧
    (nonce (List.replicate 12 0) 1).length = 12 := by
  have hwrite : Step .plain (some plainReady) (.write .plain [0x61]) (some (quicWrite .plain .plain [0x61] plainReady).2) :=
    .write
  have hrun : Reachable (Step .plain) (some plainServer) (some (quicWrite .plain .plain [0x61] plainReady).2) :=
    ⟨_, .cons step_plainHello (.cons step_plainFinished (.cons hwrite (.nil _)))⟩
  have hlives : Lives .plain plainWrites := .event (.write .plain [0x62]) start_plainServer hrun
  have hlt (level : Level) : plainWrites.txPn level < 2 ^ 64 := by
    cases level
    all_goals decide +kernel
  exact ⟨by decide +kernel, hlives, hlt, nonces_distinct.1 .plain plainWrites hlives hlt,
    (nonces_distinct.2 (List.replicate 12 0)).2 rfl 1⟩

end Suspenders.Quic
