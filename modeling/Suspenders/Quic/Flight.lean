import Suspenders.Quic.Level

/-!
# Retransmission

There is one slot for each level, with the frames that were sent last.  At the levels `initial` and `handshake` an
endpoint sends nothing but one flight, which stays in its slot until it is acknowledged or until `s_quic_retransmit`
gives it up after the handshake.  At level `app` the slot has what was written last (`flights_kept`).
-/

namespace Suspenders.Quic

open Lib Prog

variable {cr : Crypto} {env : Env} {c c₀ : Conn} {S : Level → Prop} {level : Level}

/-! ## The invariant -/

/-- The packets of a level that are to be retransmitted. -/
def Conn.payloads (c : Conn) (level : Level) : List Packet :=
  c.hist.sent.filter fun p => p.level = level ∧ p.retransmit = true

/-- The frames of a packet are in the live slot of its level. -/
def Conn.Stored (c : Conn) (p : Packet) : Prop := (c.flight p.level).live = true ∧ (c.flight p.level).frames = p.frames

/-- An ACK has covered a packet with the frames of this one. -/
def Conn.Covered (c : Conn) (p : Packet) : Prop := ∃ q ∈ c.hist.acked, q.level = p.level ∧ q.frames = p.frames

/-- What the slots have.  At the levels `S` the last packet is in its slot until it is acknowledged. -/
structure Flights (S : Level → Prop) (c : Conn) : Prop where
  last : ∀ level, S level → ∀ p, (c.payloads level).getLast? = some p →
    p ∈ c.hist.acked ∨ (c.flight level).live = true ∧ (c.flight level).pn = p.pn ∧ (c.flight level).frames = p.frames
  /-- Before level `app` there is only one flight. -/
  one : ∀ level, level ≠ .app → ∀ p ∈ c.payloads level, p.frames = (c.flight level).frames
  live : ∀ level, (c.flight level).live = true → c.payloads level ≠ []
  short : ∀ level, (c.flight level).frames.length ≤ 1200
  localCid : c.localCid.length = cidLen
  origDcid : c.origDcid.length = cidLen

/-- The flights of a handshake have not been sent before their time. -/
structure Fresh (c : Conn) : Prop where
  server : c.isServer = true → c.chDone = false → c.payloads .initial = [] ∧ c.payloads .handshake = []
  client : c.isServer = false → c.clientFinSent = false → c.payloads .handshake = []

lemma mem_payloads {p : Packet} (h : p ∈ c.payloads level) : p ∈ c.hist.sent ∧ p.level = level ∧ p.retransmit = true := by
  simpa [Conn.payloads] using h

lemma flights_watches : Watches (Flights S) := by
  intro c c' hq hc
  have hpay (level : Level) : c'.payloads level = c.payloads level := by
    unfold Conn.payloads
    rw [show c'.hist.sent = c.hist.sent from congrArg Watched.sent hq]
  have hflight : c'.flight = c.flight := congrArg Watched.flight hq
  have hacked : c'.hist.acked = c.hist.acked := congrArg Watched.acked hq
  refine ⟨?_, ?_, ?_, ?_, ?_, ?_⟩
  · simpa only [hpay, hflight, hacked] using hc.last
  · simpa only [hpay, hflight] using hc.one
  · simpa only [hpay, hflight] using hc.live
  · simpa only [hflight] using hc.short
  · exact (congrArg (fun w => w.localCid.length) hq).trans hc.localCid
  · exact (congrArg (fun w => w.origDcid.length) hq).trans hc.origDcid

/-- Packet numbers do not matter. -/
lemma flights_numbers (hc : Flights S c) (txPn : Level → ℕ) (es : List (Level × Keys × ℕ)) :
    Flights S { c with txPn := txPn, hist := { c.hist with encryptions := es } } :=
  ⟨hc.last, hc.one, hc.live, hc.short, hc.localCid, hc.origDcid⟩

lemma payloads_watches (level : Level) : Watches fun c => c.payloads level = [] := by
  intro c c' hq hc
  unfold Conn.payloads
  rw [show c'.hist.sent = c.hist.sent from congrArg Watched.sent hq]
  exact hc

lemma fresh_watches : Watches Fresh := by
  intro c c' hq hc
  have hserver : c'.isServer = c.isServer := congrArg Watched.isServer hq
  refine ⟨fun h hdone => ?_, fun h hsent => ?_⟩
  · obtain ⟨hinitial, hhandshake⟩ := hc.server (hserver ▸ h) ((congrArg Watched.chDone hq).symm.trans hdone)
    exact ⟨payloads_watches .initial c c' hq hinitial, payloads_watches .handshake c c' hq hhandshake⟩
  · exact payloads_watches .handshake c c' hq
      (hc.client (hserver ▸ h) ((congrArg Watched.clientFinSent hq).symm.trans hsent))

/-! ## One change at a time -/

lemma flights_ackEncoded (hc : Flights S c) (level : Level) : Flights S (c.ackEncoded level) := by
  unfold Conn.ackEncoded
  split
  · exact ⟨hc.last, hc.one, hc.live, hc.short, hc.localCid, hc.origDcid⟩
  · exact hc

/-- What an ACK takes out of a slot it covers. -/
lemma flights_applyAck (hc : Flights S c) (level : Level) (largest first : ℕ) :
    Flights S (c.applyAck level largest first) := by
  have hframes (l : Level) : ((c.applyAck level largest first).flight l).frames = (c.flight l).frames := by
    by_cases hl : l = level
    · subst hl
      simp only [Conn.applyAck, Function.update_self, Flight.applyAck]
      split <;> rfl
    · simp only [Conn.applyAck, Function.update_of_ne hl]
  refine ⟨fun l hS p hp => ?_, fun l hl p hp => ?_, fun l hl => hc.live l ?_, fun l => ?_, hc.localCid, hc.origDcid⟩
  · have hacked (q : Packet) (hq : q ∈ c.hist.acked) : q ∈ (c.applyAck level largest first).hist.acked :=
      List.mem_append_left _ hq
    rcases hc.last l hS p hp with hp' | ⟨hlive, hpn, hfr⟩
    · exact .inl (hacked p hp')
    by_cases hl : l = level
    · subst hl
      by_cases hcov : covers largest first p.pn
      · obtain ⟨hsent, hlevel, -⟩ := mem_payloads (List.mem_of_getLast? hp)
        refine .inl (List.mem_append_right _ (List.mem_filter.2 ⟨hsent, ?_⟩))
        simp [hlevel, hcov]
      · simp only [Conn.applyAck, Function.update_self, Flight.applyAck, hpn, hcov, and_false, if_false]
        exact .inr ⟨hlive, trivial, hfr⟩
    · simp only [Conn.applyAck, Function.update_of_ne hl]
      exact .inr ⟨hlive, hpn, hfr⟩
  · rw [hframes]
    exact hc.one l hl p hp
  · by_cases hlevel : l = level
    · subst hlevel
      simp only [Conn.applyAck, Function.update_self, Flight.applyAck] at hl
      split at hl
      · cases hl
      · exact hl
    · simpa only [Conn.applyAck, Function.update_of_ne hlevel] using hl
  · rw [hframes]
    exact hc.short l

lemma payloads_record (c : Conn) (level l : Level) (pn : ℕ) (frames : Bytes) (retransmit : Bool) (now : ℕ)
    (datagram : Bytes) : (c.record level pn frames retransmit now datagram).payloads l =
      if level = l ∧ retransmit = true then c.payloads l ++ [⟨level, pn, frames, retransmit, datagram⟩]
      else c.payloads l := by
  simp only [Conn.payloads, Conn.record, List.filter_append, List.filter_cons, List.filter_nil, decide_eq_true_eq]
  split
  · rfl
  · exact List.append_nil _

/-- Frames are sent that may come into the slot of their level. -/
lemma flights_record (hc : Flights S c) {pn now : ℕ} {frames datagram : Bytes} (hlen : frames.length ≤ 1200)
    (hone : level = .app ∨ c.payloads level = [] ∨ (c.flight level).frames = frames) :
    Flights S (c.record level pn frames true now datagram) := by
  have hflight : (c.record level pn frames true now datagram).flight =
      Function.update c.flight level ⟨true, pn, now, frames⟩ := if_pos ⟨rfl, hlen⟩
  refine ⟨fun l hS p hp => ?_, fun l hl p hp => ?_, fun l hl => ?_, fun l => ?_, hc.localCid, hc.origDcid⟩
  · rw [payloads_record] at hp
    rw [hflight]
    by_cases hl : level = l
    · subst hl
      rw [if_pos ⟨rfl, rfl⟩, List.getLast?_concat] at hp
      cases hp
      simp
    · rw [if_neg fun h => hl h.1] at hp
      rw [Function.update_of_ne (Ne.symm hl)]
      exact hc.last l hS p hp
  · rw [payloads_record] at hp
    rw [hflight]
    by_cases hlevel : level = l
    · subst hlevel
      rw [if_pos ⟨rfl, rfl⟩] at hp
      rw [Function.update_self]
      rcases List.mem_append.1 hp with hp | hp
      · rcases hone with happ | hnil | hsame
        · exact absurd happ hl
        · rw [hnil] at hp
          cases hp
        · exact (hc.one level hl p hp).trans hsame
      · rw [List.mem_singleton.1 hp]
    · rw [if_neg fun h => hlevel h.1] at hp
      rw [Function.update_of_ne (Ne.symm hlevel)]
      exact hc.one l hl p hp
  · rw [payloads_record]
    split
    next => simp
    next hlevel =>
      rw [hflight, Function.update_of_ne fun h => hlevel ⟨h.symm, rfl⟩] at hl
      exact hc.live l hl
  · rw [hflight]
    by_cases hlevel : l = level
    · subst hlevel
      rw [Function.update_self]
      exact hlen
    · rw [Function.update_of_ne hlevel]
      exact hc.short l

/-- Frames are sent that are not to be retransmitted. -/
lemma flights_record_once (hc : Flights S c) {pn now : ℕ} {frames datagram : Bytes} :
    Flights S (c.record level pn frames false now datagram) := by
  have hpay (l : Level) : (c.record level pn frames false now datagram).payloads l = c.payloads l := by
    rw [payloads_record, if_neg fun h => nomatch h.2]
  refine ⟨fun l hS p hp => ?_, fun l hl p hp => ?_, fun l hl => ?_, hc.short, hc.localCid, hc.origDcid⟩
  · exact hc.last l hS p (hpay l ▸ hp)
  · exact hc.one l hl p (hpay l ▸ hp)
  · rw [hpay]
    exact hc.live l hl

/-- A slot of another level is given up. -/
lemma flights_drop (hc : Flights S c) (hS : ¬ S level) :
    Flights S { c with flight := Function.update c.flight level { c.flight level with live := false } } := by
  have hframes (l : Level) : (Function.update c.flight level { c.flight level with live := false } l).frames =
      (c.flight l).frames := by
    by_cases hl : l = level
    · subst hl
      rw [Function.update_self]
    · rw [Function.update_of_ne hl]
  refine ⟨fun l hSl p hp => ?_, fun l hl p hp => ?_, fun l hl => hc.live l ?_, fun l => ?_, hc.localCid, hc.origDcid⟩
  · have hl : l ≠ level := fun h => hS (h ▸ hSl)
    simp only [Function.update_of_ne hl]
    exact hc.last l hSl p hp
  · exact (hc.one l hl p hp).trans (hframes l).symm
  · by_cases hlevel : l = level
    · subst hlevel
      simp only [Function.update_self] at hl
      cases hl
    · simpa only [Function.update_of_ne hlevel] using hl
  · exact (congrArg List.length (hframes l)).trans_le (hc.short l)

/-- Only what was sent before is sent again. -/
lemma fresh_record (hc : Fresh c) {pn now : ℕ} {frames datagram : Bytes} {retransmit : Bool}
    (h : retransmit = false ∨ level = .app ∨ c.payloads level ≠ []) :
    Fresh (c.record level pn frames retransmit now datagram) := by
  have hpay (l : Level) (hl : l ≠ .app) (hnil : c.payloads l = []) :
      (c.record level pn frames retransmit now datagram).payloads l = [] := by
    rw [payloads_record]
    split
    next hnew =>
      obtain ⟨rfl, hretransmit⟩ := hnew
      rcases h with h | h | h
      · rw [h] at hretransmit
        cases hretransmit
      · exact absurd h hl
      · exact absurd hnil h
    next => exact hnil
  refine ⟨fun hserver hdone => ?_, fun hserver hsent => ?_⟩
  · obtain ⟨hinitial, hhandshake⟩ := hc.server hserver hdone
    exact ⟨hpay .initial nofun hinitial, hpay .handshake nofun hhandshake⟩
  · exact hpay .handshake nofun (hc.client hserver hsent)

lemma fresh_ackEncoded (hc : Fresh c) (level : Level) : Fresh (c.ackEncoded level) := by
  unfold Conn.ackEncoded
  split
  · exact ⟨hc.server, hc.client⟩
  · exact hc

/-! ## Calls -/

/-- The slots are right, and nothing has been sent before its time. -/
def Held (S : Level → Prop) (c : Conn) : Prop := Flights S c ∧ Fresh c

lemma held_watches : Watches (Held S) := fun c c' hq hc => ⟨flights_watches c c' hq hc.1, fresh_watches c c' hq hc.2⟩

/-- An endpoint is about to send its flights of the levels `L`. -/
def Before (S : Level → Prop) (L : List Level) (server : Bool) (c : Conn) : Prop :=
  Flights S c ∧ c.isServer = server ∧ (server = true → c.chDone = true) ∧ ∀ level ∈ L, c.payloads level = []

lemma before_watches (L : List Level) (server : Bool) : Watches (Before S L server) := by
  intro c c' hq hc
  refine ⟨flights_watches c c' hq hc.1, (congrArg Watched.isServer hq).trans hc.2.1, fun h => ?_, fun level hL => ?_⟩
  · exact (congrArg Watched.chDone hq).trans (hc.2.2.1 h)
  · exact payloads_watches level c c' hq (hc.2.2.2 level hL)

/-- The flight of a level is sent. -/
lemma before_sendCrypto {E : Conn → Prop} {L : List Level} {server : Bool} {msg : Bytes} {padTo : ℕ}
    (hE : ∀ c, Before S (level :: L) server c → E c) (hlen : msg.length ≤ 1100) (hL : level ∉ L) :
    Spec (Before S (level :: L) server) (sendCrypto cr env level msg 0 padTo) (fun _ => Before S L server) E := by
  refine sendCrypto_spec hE (fun c _ _ _ hc => ⟨flights_numbers hc.1 _ _, hc.2⟩) (fun c hc => ?_)
    fun c pn frames now datagram hc hfr => ?_
  · have hpay : (c.ackEncoded level).payloads = c.payloads := by
      unfold Conn.ackEncoded
      split <;> rfl
    refine ⟨flights_ackEncoded hc.1 level, ?_, fun h => ?_, fun l hl => hpay ▸ hc.2.2.2 l hl⟩
    all_goals unfold Conn.ackEncoded
    all_goals split
    · exact hc.2.1
    · exact hc.2.1
    · exact hc.2.2.1 h
    · exact hc.2.2.1 h
  · have hnil := hc.2.2.2 level List.mem_cons_self
    refine ⟨flights_record hc.1 (by omega) (.inr (.inl hnil)), hc.2.1, hc.2.2.1, fun l hl => ?_⟩
    have hne : level ≠ l := fun h => hL (h ▸ hl)
    rw [payloads_record, if_neg fun h => hne h.1]
    exact hc.2.2.2 l (List.mem_cons_of_mem _ hl)

/-- A client that has not sent its Finished. -/
lemma Before.held_client {L : List Level} (hc : Before S L false c) (hL : .handshake ∈ L) : Held S c :=
  ⟨hc.1, fun h => (nomatch hc.2.1.symm.trans h), fun _ _ => hc.2.2.2 .handshake hL⟩

/-- A server that has accepted a ClientHello. -/
lemma Before.held_server {L : List Level} (hc : Before S L true c) : Held S c :=
  ⟨hc.1, fun _ h => (nomatch (hc.2.2.1 rfl).symm.trans h), fun h => (nomatch hc.2.1.symm.trans h)⟩

/-- A client sends its Finished. -/
lemma held_finish : Spec (fun c => Held S c ∧ c.isServer = false) (clientFinish cr env) (fun _ => Held S) (Held S) := by
  have hE (c : Conn) (hc : Before S [.handshake] false c) : Held S c := hc.held_client List.mem_cons_self
  have hw : Watches (Before S [.handshake] false) := before_watches _ _
  unfold clientFinish
  refine Spec.get_bind fun c => Spec.ite (fun _ => Spec.pure fun _ hc => hc.1 ▸ hc.2.1) fun hsent => ?_
  refine Spec.mono (P := Before S [.handshake] false) ?_ ?_ (fun _ _ hc => hc) fun _ hc => hc
  · refine (Keeps.require.spec hE).bind fun _ => ((hw.hash _).spec hE).bind fun _ => ?_
    have hlen (secret th : Bytes) : (buildFinished cr secret th).length ≤ 1100 := by
      rw [length_buildFinished]
      decide
    refine (before_sendCrypto hE (hlen _ _) (by decide)).bind fun _ => Spec.modify fun c hc => ?_
    refine ⟨⟨hc.1.last, hc.1.one, hc.1.live, hc.1.short, hc.1.localCid, hc.1.origDcid⟩, fun h => ?_, nofun⟩
    exact nomatch hc.2.1.symm.trans h
  · rintro _ ⟨rfl, hc, hserver⟩
    refine ⟨hc.1, hserver, nofun, fun level hlevel => ?_⟩
    rw [List.mem_singleton.1 hlevel]
    exact hc.2.client hserver (by simpa using hsent)

/-- A server answers a ClientHello. -/
lemma held_hello (level : Level) (msg : Bytes) : Spec (fun c => Held S c ∧ c.isServer = true ∧ c.chDone = false)
    (do
      Prog.modify fun c => { c.hear level msg with chDone := true }
      serverFlight cr env) (fun _ => Held S) (Held S) := by
  have hE (L : List Level) (c : Conn) (hc : Before S L true c) : Held S c := hc.held_server
  refine Spec.modify_bind (T := Before S [.initial, .handshake] true) (fun c hc => ?_) ?_
  · obtain ⟨hinitial, hhandshake⟩ := hc.1.2.server hc.2.1 hc.2.2
    refine ⟨flights_watches { c with chDone := true } _ rfl ?_, hc.2.1, fun _ => rfl, fun level hlevel => ?_⟩
    · exact ⟨hc.1.1.last, hc.1.1.one, hc.1.1.live, hc.1.1.short, hc.1.1.localCid, hc.1.1.origDcid⟩
    · rcases List.mem_cons.1 hlevel with rfl | hlevel
      · exact hinitial
      · rw [List.mem_singleton.1 hlevel]
        exact hhandshake
  · refine (serverFlight_spec (before_watches _ true) (before_watches [.handshake] true) (hE _) (hE _)
      (fun sh hsh => before_sendCrypto (hE _) (by omega) (by decide)) fun hs c hc hlen =>
        (before_sendCrypto (L := []) (hE _) ?_ (by decide)).mono (fun _ hc => hc) (fun _ c hc => hE [] c hc) fun _ hc => hc)
    have hlocal := hc.1.localCid
    have horig := hc.1.origDcid
    simp only [cidLen] at hlocal horig
    omega

lemma held_steady : Steady cr env (Held S) where
  watches := held_watches
  applyAck _ level largest first hc := ⟨flights_applyAck hc.1 level largest first, hc.2.server, hc.2.client⟩
  hello := held_hello
  finish := held_finish

lemma held_numbers (hc : Held S c) (txPn : Level → ℕ) (es : List (Level × Keys × ℕ)) :
    Held S { c with txPn := txPn, hist := { c.hist with encryptions := es } } :=
  ⟨flights_numbers hc.1 txPn es, ⟨hc.2.server, hc.2.client⟩⟩

lemma held_crypto (hc : Held S c) (rxCrypto : Level → Bytes) (rxCryptoParsed : Level → ℕ) :
    Held S { c with rxCrypto := rxCrypto, rxCryptoParsed := rxCryptoParsed } :=
  ⟨⟨hc.1.last, hc.1.one, hc.1.live, hc.1.short, hc.1.localCid, hc.1.origDcid⟩, ⟨hc.2.server, hc.2.client⟩⟩

/-- What was received does not matter. -/
lemma held_received (hc : Held S c) (rxAck : Level → RxAck) (stream appStream : Stream) (processed parsed : List (Level × ℕ)) :
    Held S { c with
      rxAck := rxAck, stream := stream,
      hist := { c.hist with processed := processed, appStream := appStream, parsed := parsed } } :=
  ⟨⟨hc.1.last, hc.1.one, hc.1.live, hc.1.short, hc.1.localCid, hc.1.origDcid⟩, ⟨hc.2.server, hc.2.client⟩⟩

lemma held_acceptPacket (level : Level) (pn : ℕ) (plain : Bytes) :
    Keeps (Held S) (acceptPacket cr env level pn plain) :=
  (held_steady.handles (fun _ _ _ hc => held_crypto hc _ _) level).acceptPacket (fun _ _ _ _ _ _ hc => held_received hc _ _ _ _ _) pn plain

/-- `s_quic_retransmit` gives up no slot of a level in `S`. -/
def Spares (S : Level → Prop) (c : Conn) : Prop := c.appReady = true → ∀ level, S level → level = .app

/-- What is retransmitted was in the slot before. -/
lemma held_retransmit (hc : Held S c) (hspare : Spares S c) : Held S (retransmit cr env c).2 := by
  have hlevel (level : Level) : Keeps (fun c => Held S c ∧ Spares S c) (retransmitLevel cr env level) := by
    unfold retransmitLevel
    refine Spec.get_bind fun c => Spec.ite (fun _ => Spec.pure fun _ hc => hc.1 ▸ hc.2) fun hlive => ?_
    refine Spec.ite (fun hdrop => Spec.modify ?_) fun _ => ?_
    · rintro _ ⟨rfl, hc, hspare⟩
      refine ⟨⟨flights_drop hc.1 fun hS => hdrop.2 (hspare hdrop.1 level hS), ⟨hc.2.server, hc.2.client⟩⟩, hspare⟩
    · refine Spec.ite (fun _ => Spec.pure fun _ hc => hc.1 ▸ hc.2) fun _ => ?_
      refine Spec.mono (P := fun c' => (Held S c' ∧ Spares S c') ∧ c'.flight level = c.flight level) ?_
        ?_ (fun _ _ hc => hc) fun _ hc => hc
      · refine sendFrames_spec (fun _ hc => hc.1) (fun c' _ _ _ hc => ?_) fun c' pn now datagram hc => ?_
        · exact ⟨⟨held_numbers hc.1.1 _ _, hc.1.2⟩, hc.2⟩
        · obtain ⟨⟨⟨hflights, hfresh⟩, hspare⟩, hsame⟩ := hc
          have hpay : c'.payloads level ≠ [] := hflights.live level (by rw [hsame]; simpa using hlive)
          exact ⟨⟨flights_record hflights (hsame ▸ hflights.short level) (.inr (.inr (by rw [hsame]))),
            fresh_record hfresh (.inr (.inr hpay))⟩, hspare⟩
      · rintro _ ⟨rfl, hc⟩
        exact ⟨hc, rfl⟩
  have hall : Keeps (fun c => Held S c ∧ Spares S c) (retransmit cr env) :=
    (hlevel .initial).bind fun _ => (hlevel .handshake).bind fun _ => hlevel .app
  exact (hall.apply ⟨hc, hspare⟩).1

lemma held_encodeAck (level : Level) (cap : ℕ) :
    Spec (Held S) (encodeAck level cap) (fun ack c => Held S c ∧ ack.length ≤ 33) (Held S) :=
  encodeAck_spec (fun _ hc => hc) fun _ hc => ⟨flights_ackEncoded hc.1 level, fresh_ackEncoded hc.2 level⟩

lemma held_handshakeDone : Keeps (Held S) (handshakeDone cr env) := by
  unfold handshakeDone
  refine (held_encodeAck .app 7).bind fun ack => sendFrames_spec (fun _ hc => hc.1) (fun c _ _ _ hc => ?_)
    fun c pn now datagram hc => ?_
  · exact ⟨held_numbers hc.1 _ _, hc.2⟩
  · exact ⟨flights_record_once hc.1.1, fresh_record hc.1.2 (.inl rfl)⟩

lemma length_of_mem_chunks {data d : Bytes} (h : d ∈ chunks data) : d.length ≤ 1000 := by
  induction data using chunks.induct with
  | case1 =>
    rw [chunks, if_pos rfl] at h
    cases h
  | case2 data hne ih =>
    rw [chunks, if_neg hne] at h
    rcases List.mem_cons.1 h with rfl | h
    · exact List.length_take_le 1000 data
    · exact ih h

lemma held_writeChunk {data : Bytes} (hdata : data.length ≤ 1000) : Keeps (Held S) (writeChunk cr env data) := by
  unfold writeChunk
  refine Keeps.get_bind fun c _ => Keeps.require.bind fun _ => (held_encodeAck .app 1200).bind fun ack => ?_
  refine Spec.bind (sendFrames_spec (fun _ hc => hc.1) (fun c' _ _ _ hc => ?_) fun c' pn now datagram hc => ?_) fun _ =>
    held_watches.modify fun _ => rfl
  · exact ⟨held_numbers hc.1 _ _, hc.2⟩
  · refine ⟨flights_record hc.1.1 ?_ (.inl rfl), fresh_record hc.1.2 (.inr (.inl rfl))⟩
    have hack := hc.2
    have hoff := varintSize_le c.txOff
    have hlen := varintSize_le data.length
    simp only [List.length_append, List.length_cons, length_varint]
    rw [show varintSize 0 = 1 from rfl]
    omega

lemma held_quicWrite (data : Bytes) : Keeps (Held S) (quicWrite cr env data) := by
  have hchunks (ds : List Bytes) (hds : ∀ d ∈ ds, d.length ≤ 1000) : Keeps (Held S) (writeChunks cr env ds) := by
    induction ds with
    | nil => exact Keeps.pure ()
    | cons d ds ih =>
      exact (held_writeChunk (hds d List.mem_cons_self)).bind fun _ => ih fun d hd => hds d (List.mem_cons_of_mem _ hd)
  exact Keeps.get_bind fun c _ => Keeps.require.bind fun _ => hchunks _ fun d hd => length_of_mem_chunks hd

/-! ## Runs -/

lemma length_buildClientHello {random myPub localCid : Bytes} (hrandom : random.length = 32) (hpub : myPub.length = 32)
    (hcid : localCid.length = cidLen) : (buildClientHello random myPub localCid).length ≤ 1100 := by
  simp [buildClientHello, message, ext, putParams, intParam, cidParam, length_varint, varintSize, flow, ascii, cidLen,
    hrandom, hpub, hcid]

/-- A new connection has sent nothing. -/
lemma flights_new {server : Bool} {localCid peerCid origDcid : Bytes} (hlocal : localCid.length = cidLen)
    (horig : origDcid.length = cidLen) : Flights S { Conn.new with
      isServer := server, localCid := localCid, peerCid := peerCid, origDcid := origDcid } :=
  ⟨fun _ _ _ hp => (nomatch hp), fun _ _ _ hp => (nomatch hp), fun _ h => (nomatch h), fun _ => Nat.zero_le _,
    hlocal, horig⟩

lemma held_start (h : Start cr c) : Held S c := by
  cases h with
  | @client env c c₀ h =>
    have hw : Watches (Before S [.initial, .handshake] false) := before_watches _ _
    have hE (c : Conn) (hc : Before S [.initial, .handshake] false c) : Held S c := hc.held_client (by decide)
    have hdial : Spec (fun _ => True) (dial cr env) (fun _ => Held S) (Held S) := by
      unfold dial
      refine Spec.modify_bind (T := Before S [.initial, .handshake] false) (fun _ _ => ?_) ?_
      · exact ⟨flights_new env.length_cid env.length_peerCid, rfl, nofun, fun _ _ => rfl⟩
      refine Spec.modify_bind (fun c hc => hw c _ rfl hc) ?_
      refine Spec.modify_bind (T := fun c => Before S [.initial, .handshake] false c ∧ c.myPub.length = 32)
        (fun c hc => ⟨hw c _ rfl hc, cr.length_publicKey _⟩) ?_
      refine Spec.get_bind_of fun c hc => Spec.modify_bind (fun c hc => hw c _ rfl hc.1) ?_
      exact (before_sendCrypto hE (length_buildClientHello env.length_random hc.2 hc.1.1.localCid) (by decide)).mono
        (fun _ hc => hc) (fun _ _ hc => hc.held_client List.mem_cons_self) fun _ hc => hc
    exact hdial.of_some trivial h
  | @server buf c h =>
    unfold acceptStart at h
    split at h
    · cases h
    next hlen =>
      cases h
      have hcid : ((buf.drop 6).take cidLen).length = cidLen := by
        simp only [not_or, cidLen] at hlen ⊢
        rw [List.length_take, List.length_drop]
        omega
      have hnew := @flights_new S true _ Conn.new.peerCid _ hcid hcid
      exact held_watches _ (Conn.installInitial cr _) rfl ⟨⟨hnew.last, hnew.one, hnew.live, hnew.short, hcid, hcid⟩,
        fun _ _ => ⟨rfl, rfl⟩, fun _ _ => rfl⟩

/-- No event is a retransmission after the handshake. -/
def NoGiveUp : Option Conn → Event → Option Conn → Prop
  | some c, .retransmit _, _ => c.appReady = false
  | _, _, _ => True

lemma held_run {e : Event} (hc : Held S c) (he : ∀ env, e = .retransmit env → Spares S c) : Held S (e.run cr c).2 := by
  cases e with
  | datagram env buf =>
    have hbuf : Keeps (Held S) (ingest cr env buf) := by
      refine ingest_spec (fun _ hc => hc) (fun c pkt hc => held_watches c _ (watched_learn c pkt) hc)
        (fun c pkt hd pn plain _ hc => ?_) buf
      exact (held_acceptPacket hd.level pn plain).mono (fun _ h => h ▸ hc) (fun _ _ hc => hc) fun _ hc => hc
    exact hbuf.apply hc
  | retransmit env => exact held_retransmit hc (he env rfl)
  | done env => exact held_handshakeDone.apply hc
  | write env data => exact (held_quicWrite data).apply hc
  | read len => exact held_received hc _ _ _ _ _

/-- Whatever was sent with `retransmit` at level `initial` or `handshake` is in the live slot of its level until an ACK
covers it or `s_quic_retransmit` gives up the slot after the handshake; and so is what was sent last at level `app`. -/
theorem flights_kept (h₀ : Start cr c₀) :
    (∀ c, Reachable (Step cr) (some c₀) (some c) → ∀ p, (c.payloads .app).getLast? = some p →
      c.Covered p ∨ c.Stored p) ∧
    ∀ c, Reachable (Restrict (Step cr) NoGiveUp) (some c₀) (some c) → ∀ p ∈ c.hist.sent, p.retransmit = true →
      p.level ≠ .app → c.Covered p ∨ c.Stored p := by
  constructor
  · intro c h p hp
    have hc : Held (fun level => level = .app) c :=
      reachable_keeps (fun _ _ _ h => h) (fun c e o hc _ => held_run hc fun _ _ _ _ h => h) (held_start h₀) h
    obtain ⟨-, hlevel, -⟩ := mem_payloads (List.mem_of_getLast? hp)
    rcases hc.1.last .app rfl p hp with hacked | ⟨hlive, -, hframes⟩
    · exact .inl ⟨p, hacked, rfl, rfl⟩
    · exact .inr ⟨hlevel ▸ hlive, hlevel ▸ hframes⟩
  · intro c h p hp hretransmit hlevel
    have hc : Held (fun _ => True) c := by
      refine reachable_keeps (fun _ _ _ h => h.1) (fun c e o hc hstep => held_run hc ?_) (held_start h₀) h
      rintro env rfl hready
      exact nomatch hready.symm.trans hstep.2
    have hmem : p ∈ c.payloads p.level := List.mem_filter.2 ⟨hp, by simp [hretransmit]⟩
    -- the last packet of the level has the same frames
    obtain ⟨q, hq⟩ : ∃ q, (c.payloads p.level).getLast? = some q :=
      ⟨_, List.getLast?_eq_some_getLast (List.ne_nil_of_mem hmem)⟩
    have hqmem := List.mem_of_getLast? hq
    have hsame : q.frames = p.frames := (hc.1.one _ hlevel q hqmem).trans (hc.1.one _ hlevel p hmem).symm
    rcases hc.1.last p.level trivial q hq with hacked | ⟨hlive, -, hframes⟩
    · exact .inl ⟨q, hacked, (mem_payloads hqmem).2.1, hsame⟩
    · exact .inr ⟨hlive, hframes.trans hsame⟩

theorem flights_kept_plain : Start .plain plainServer ∧
    Reachable (Step .plain) (some plainServer) (some plainShake) ∧
    Reachable (Restrict (Step .plain) NoGiveUp) (some plainServer) (some plainShake) ∧
    (plainShake.payloads .handshake).length = 1 ∧
    ∀ p ∈ plainShake.payloads .handshake, plainShake.Covered p ∨ plainShake.Stored p := by
  have hrun : Reachable (Step .plain) (some plainServer) (some plainShake) := ⟨_, .cons step_plainHello (.nil _)⟩
  have hkeep : Reachable (Restrict (Step .plain) NoGiveUp) (some plainServer) (some plainShake) :=
    ⟨_, .cons ⟨step_plainHello, trivial⟩ (.nil _)⟩
  refine ⟨start_plainServer, hrun, hkeep, by decide +kernel, fun p hp => ?_⟩
  obtain ⟨hsent, hlevel, hretransmit⟩ := mem_payloads hp
  exact (flights_kept start_plainServer).2 _ hkeep p hsent hretransmit (by rw [hlevel]; decide)

/-- The server after the handshake has given up its slots, and has written more than one chunk. -/
def plainWritten : Conn :=
  (quicWrite .plain .plain (List.replicate 1001 0) (retransmit .plain .plain plainReady).2).2

/-- Frames that were sent and not acknowledged are in no slot: the flight of the handshake, and the first chunk. -/
theorem flights_lost : Start .plain plainServer ∧ Reachable (Step .plain) (some plainServer) (some plainWritten) ∧
    plainWritten.hist.acked = [] ∧
    (∃ p ∈ plainWritten.payloads .handshake, (plainWritten.flight .handshake).live = false) ∧
    ∃ p ∈ plainWritten.payloads .app, p.frames ≠ (plainWritten.flight .app).frames := by
  refine ⟨start_plainServer, ⟨_, .cons step_plainHello (.cons step_plainFinished (.cons (@Step.retransmit _ _ .plain ?_)
    (.cons .write (.nil _))))⟩, ?_⟩
  all_goals decide +kernel

end Suspenders.Quic
