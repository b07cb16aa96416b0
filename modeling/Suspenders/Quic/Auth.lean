import Suspenders.Quic.Level

/-!
# Authentication

`s_quic_on_msg` looks at the type and at the level of a message, but not at what has come before.  Each message is
checked against what the client has then, and a Finished completes the handshake, whether there was a certificate or
not.  So a client has authenticated its server if and only if the messages came in their order
(`authenticated_iff`); a server has always authenticated its client.
-/

namespace Suspenders.Quic

open Lib Prog

variable {cr : Crypto} {env : Env} {c c₀ : Conn}

/-! ## What a parser looks at -/

section Local

variable {msg : Bytes} {len : ℕ}

lemma byteAt_take {i : ℕ} (hi : i < len) : byteAt (msg.take len) i = byteAt msg i := by
  simp [byteAt, List.getD_eq_getElem?_getD, hi]

lemma be16_drop_take {k : ℕ} (hk : k + 2 ≤ len) : be16 ((msg.take len).drop k) = be16 (msg.drop k) := by
  simp only [be16, byteAt_drop]
  rw [byteAt_take (by omega), byteAt_take (by omega)]

lemma be24_drop_take {k : ℕ} (hk : k + 3 ≤ len) : be24 ((msg.take len).drop k) = be24 (msg.drop k) := by
  simp only [be24, byteAt_drop]
  rw [byteAt_take (by omega), byteAt_take (by omega), byteAt_take (by omega)]

lemma drop_take_take {k n : ℕ} (h : k + n ≤ len) : ((msg.take len).drop k).take n = (msg.drop k).take n := by
  rw [List.drop_take, List.take_take, Nat.min_eq_left (by omega)]

lemma eeParams_take : eeParams (msg.take len) len = eeParams msg len := by
  unfold eeParams
  by_cases hlen : len < 6
  · simp [hlen]
  · rw [byteAt_take (by omega), be16_drop_take (by omega)]
    split
    · rfl
    · dsimp only
      split
      · rfl
      · rw [drop_take_take (by omega)]

lemma parseCertificate_take : parseCertificate (msg.take len) len = parseCertificate msg len := by
  unfold parseCertificate
  by_cases hlen : len < 13
  · simp [hlen]
  · rw [byteAt_take (by omega), byteAt_take (by omega), be24_drop_take (by omega)]
    split
    · rfl
    · dsimp only
      split
      · rfl
      · rw [drop_take_take (by omega)]

lemma parseCertVerify_take (certDer th : Bytes) :
    parseCertVerify cr certDer th (msg.take len) len = parseCertVerify cr certDer th msg len := by
  unfold parseCertVerify
  by_cases hlen : len < 8
  · simp [hlen]
  · rw [byteAt_take (by omega), byteAt_take (by omega), byteAt_take (by omega), be16_drop_take (by omega)]
    split
    · rfl
    · dsimp only
      split
      · rfl
      · rw [drop_take_take (by omega)]

lemma checkFinished_take (secret th : Bytes) (h : checkFinished cr secret th msg len) :
    checkFinished cr secret th (msg.take len) len := by
  obtain ⟨hlen, htype, hmac⟩ := h
  refine ⟨hlen, ?_, ?_⟩
  · rw [byteAt_take (by omega)]
    exact htype
  · rw [drop_take_take (by omega)]
    exact hmac

end Local

/-! ## What a client was told -/

/-- The type of a message. -/
def Heard.type (h : Heard) : UInt8 := byteAt h.msg 0

/-- The messages up to the first Finished. -/
def upToFinished : List Heard → List Heard
  | [] => []
  | h :: hs => if h.type = 20 then [h] else h :: upToFinished hs

lemma upToFinished_append {hs : List Heard} (h : ∃ h ∈ hs, h.type = 20) (hs' : List Heard) :
    upToFinished (hs ++ hs') = upToFinished hs := by
  induction hs with
  | nil =>
    obtain ⟨_, hmem, -⟩ := h
    cases hmem
  | cons a hs ih =>
    simp only [List.cons_append, upToFinished]
    split
    · rfl
    next ha =>
      obtain ⟨b, hb, htype⟩ := h
      rcases List.mem_cons.1 hb with rfl | hb
      · exact absurd htype ha
      · rw [ih ⟨b, hb, htype⟩]

lemma upToFinished_concat {hs : List Heard} (h : ∀ h ∈ hs, h.type ≠ 20) (a : Heard) :
    upToFinished (hs ++ [a]) = hs ++ [a] := by
  induction hs with
  | nil => simp [upToFinished]
  | cons b hs ih =>
    rw [List.cons_append, upToFinished, if_neg (h b List.mem_cons_self), ih fun x hx => h x (List.mem_cons_of_mem _ hx)]

lemma mem_of_mem_upToFinished {hs : List Heard} {a : Heard} (h : a ∈ upToFinished hs) : a ∈ hs := by
  induction hs with
  | nil => exact h
  | cons b hs ih =>
    rw [upToFinished] at h
    split at h
    · rw [List.mem_singleton.1 h]
      exact List.mem_cons_self
    · rcases List.mem_cons.1 h with rfl | h
      · exact List.mem_cons_self
      · exact List.mem_cons_of_mem _ (ih h)

lemma upToFinished_of_none {hs : List Heard} (h : ∀ h ∈ hs, h.type ≠ 20) : upToFinished hs = hs := by
  induction hs with
  | nil => rfl
  | cons b hs ih =>
    rw [upToFinished, if_neg (h b List.mem_cons_self), ih fun x hx => h x (List.mem_cons_of_mem _ hx)]

/-- The certificate of the last Certificate message. -/
def lastCert (hs : List Heard) : Bytes :=
  hs.foldl (fun der h => if h.type = 11 then (parseCertificate h.msg h.msg.length).getD der else der) []

lemma lastCert_concat (hs : List Heard) (h : Heard) : lastCert (hs ++ [h]) =
    if h.type = 11 then (parseCertificate h.msg h.msg.length).getD (lastCert hs) else lastCert hs := by
  simp [lastCert, List.foldl_append]

/-- A message was checked with what it was heard with. -/
inductive Heard.Valid (cr : Crypto) (peerCid origDcid : Bytes) (h : Heard) : Prop
  | serverHello : h.level = .initial → h.type = 2 → Valid cr peerCid origDcid h
  /-- EncryptedExtensions with the right protocol and with parameters that are accepted. -/
  | ee {params : Bytes} {limits : Limits} : h.level = .handshake → h.type = 8 →
      eeParams h.msg h.msg.length = some params →
      (takeParams peerCid origDcid true params.length params limits).1 = true → Valid cr peerCid origDcid h
  | cert {der : Bytes} : h.level = .handshake → h.type = 11 → parseCertificate h.msg h.msg.length = some der →
      Valid cr peerCid origDcid h
  | verify : h.level = .handshake → h.type = 15 →
      parseCertVerify cr h.certDer (cr.sha256 h.transcript.flatten) h.msg h.msg.length = true →
      Valid cr peerCid origDcid h
  | finished : h.level = .handshake → h.type = 20 →
      checkFinished cr h.secret (cr.sha256 h.transcript.flatten) h.msg h.msg.length → Valid cr peerCid origDcid h

namespace Heard.Valid

variable {peerCid origDcid : Bytes} {h : Heard} (hv : h.Valid cr peerCid origDcid)

include hv

lemma of_serverHello (ht : h.type = 2) : h.level = .initial := by
  cases hv with
  | serverHello hl _ => exact hl
  | ee _ h _ _ | cert _ h _ | verify _ h _ | finished _ h _ => exact absurd (ht.symm.trans h) (by decide)

lemma of_ee (ht : h.type = 8) : h.level = .handshake ∧ ∃ params limits, eeParams h.msg h.msg.length = some params ∧
    (takeParams peerCid origDcid true params.length params limits).1 = true := by
  cases hv with
  | ee hl _ hp hok => exact ⟨hl, _, _, hp, hok⟩
  | serverHello _ h | cert _ h _ | verify _ h _ | finished _ h _ => exact absurd (ht.symm.trans h) (by decide)

lemma of_cert (ht : h.type = 11) : h.level = .handshake ∧ ∃ der, parseCertificate h.msg h.msg.length = some der := by
  cases hv with
  | cert hl _ hder => exact ⟨hl, _, hder⟩
  | serverHello _ h | ee _ h _ _ | verify _ h _ | finished _ h _ => exact absurd (ht.symm.trans h) (by decide)

lemma of_verify (ht : h.type = 15) : h.level = .handshake ∧
    parseCertVerify cr h.certDer (cr.sha256 h.transcript.flatten) h.msg h.msg.length = true := by
  cases hv with
  | verify hl _ hok => exact ⟨hl, hok⟩
  | serverHello _ h | ee _ h _ _ | cert _ h _ | finished _ h _ => exact absurd (ht.symm.trans h) (by decide)

lemma of_finished (ht : h.type = 20) : h.level = .handshake ∧
    checkFinished cr h.secret (cr.sha256 h.transcript.flatten) h.msg h.msg.length := by
  cases hv with
  | finished hl _ hok => exact ⟨hl, hok⟩
  | serverHello _ h | ee _ h _ _ | cert _ h _ | verify _ h _ => exact absurd (ht.symm.trans h) (by decide)

end Heard.Valid

/-- The messages follow one another from the ClientHello `ch` on. -/
def Linked (ch : Bytes) (hs : List Heard) : Prop :=
  ∀ i h, hs[i]? = some h → h.transcript = ch :: (hs.take i).map Heard.msg ∧ h.certDer = lastCert (hs.take i)

/-- What a client has heard.  `ready` says whether its handshake was complete some time ago. -/
structure Told (cr : Crypto) (ready : Bool) (c : Conn) : Prop where
  client : c.isServer = false
  valid : ∀ h ∈ c.hist.heard, h.Valid cr c.peerCid c.origDcid
  linked : ∃ ch, Linked ch (upToFinished c.hist.heard) ∧
    (c.appReady = false → c.transcript = ch :: c.hist.heard.map Heard.msg)
  waiting : c.appReady = false → (∀ h ∈ c.hist.heard, h.type ≠ 20) ∧ c.certDer = lastCert c.hist.heard
  complete : c.appReady = true → ∃ h ∈ c.hist.heard, h.type = 20
  sent : c.clientFinSent = true → c.appReady = true
  stays : ready = true → c.appReady = true

lemma Linked.concat {ch : Bytes} {hs : List Heard} {h : Heard} (hl : Linked ch hs)
    (htr : h.transcript = ch :: hs.map Heard.msg) (hder : h.certDer = lastCert hs) : Linked ch (hs ++ [h]) := by
  intro i x hx
  rcases Nat.lt_trichotomy i hs.length with hi | rfl | hi
  · rw [List.getElem?_append_left hi] at hx
    rw [List.take_append_of_le_length hi.le]
    exact hl i x hx
  · rw [List.getElem?_concat_length] at hx
    cases hx
    rw [List.take_left]
    exact ⟨htr, hder⟩
  · rw [List.getElem?_eq_none (by simp; omega)] at hx
    cases hx

/-- A client has heard a Finished, and is about to answer it if it has not done so before. -/
structure Shaken (cr : Crypto) (ready : Bool) (c : Conn) : Prop where
  client : c.isServer = false
  valid : ∀ h ∈ c.hist.heard, h.Valid cr c.peerCid c.origDcid
  linked : ∃ ch, Linked ch (upToFinished c.hist.heard)
  complete : ∃ h ∈ c.hist.heard, h.type = 20
  sent : c.clientFinSent = true → c.appReady = true
  stays : ready = true → c.appReady = true

/-- A client after an error: if its handshake is not complete, it is given up. -/
def Astray (cr : Crypto) (ready : Bool) (c : Conn) : Prop :=
  (ready = true → c.appReady = true) ∧ (c.appReady = true → Told cr ready c)

variable {ready : Bool}

lemma Told.astray (hc : Told cr ready c) : Astray cr ready c := ⟨hc.stays, fun _ => hc⟩

lemma Shaken.told (hc : Shaken cr ready c) (hready : c.appReady = true) : Told cr ready c := by
  obtain ⟨ch, hl⟩ := hc.linked
  exact ⟨hc.client, hc.valid, ⟨ch, hl, fun h => (nomatch hready.symm.trans h)⟩, fun h => (nomatch hready.symm.trans h),
    fun _ => hc.complete, hc.sent, hc.stays⟩

lemma Shaken.astray (hc : Shaken cr ready c) : Astray cr ready c := ⟨hc.stays, hc.told⟩

/-- Another message is heard. -/
lemma Told.linked_concat (hc : Told cr ready c) {h : Heard} (htr : h.transcript = c.transcript)
    (hder : h.certDer = c.certDer) : ∃ ch, Linked ch (upToFinished (c.hist.heard ++ [h])) ∧
      (c.appReady = false → c.transcript ++ [h.msg] = ch :: (c.hist.heard ++ [h]).map Heard.msg) := by
  obtain ⟨ch, hl, hsame⟩ := hc.linked
  refine ⟨ch, ?_, fun hready => by simp [hsame hready]⟩
  cases hready : c.appReady with
  | true => rwa [upToFinished_append (hc.complete hready)]
  | false =>
    obtain ⟨hnone, hlast⟩ := hc.waiting hready
    rw [upToFinished_of_none hnone] at hl
    rw [upToFinished_concat hnone]
    exact hl.concat (htr.trans (hsame hready)) (hder.trans hlast)

lemma Told.valid_concat (hc : Told cr ready c) {h : Heard} (hvalid : h.Valid cr c.peerCid c.origDcid) :
    ∀ x ∈ c.hist.heard ++ [h], x.Valid cr c.peerCid c.origDcid := by
  intro x hx
  rcases List.mem_append.1 hx with hx | hx
  · exact hc.valid x hx
  · rw [List.mem_singleton.1 hx]
    exact hvalid

/-- The entry of a message. -/
def Conn.entry (c : Conn) (level : Level) (msg : Bytes) : Heard :=
  ⟨level, msg, c.transcript, c.certDer, (c.keys (!c.isServer) .handshake).secret⟩

/-- A message that is no Finished. -/
lemma Told.hear (hc : Told cr ready c) {level : Level} {msg : Bytes} (der : Bytes)
    (hvalid : (c.entry level msg).Valid cr c.peerCid c.origDcid) (htype : byteAt msg 0 ≠ 20)
    (hder : c.appReady = false → der = lastCert (c.hist.heard ++ [c.entry level msg])) :
    Told cr ready { c.hear level msg with certDer := der } where
  client := hc.client
  valid := hc.valid_concat hvalid
  linked := hc.linked_concat rfl rfl
  waiting hready := by
    refine ⟨fun x hx => ?_, hder hready⟩
    rcases List.mem_append.1 hx with hx | hx
    · exact (hc.waiting hready).1 x hx
    · rw [List.mem_singleton.1 hx]
      exact htype
  complete hready := by
    obtain ⟨h, hmem, hh⟩ := hc.complete hready
    exact ⟨h, List.mem_append_left _ hmem, hh⟩
  sent := hc.sent
  stays := hc.stays

/-- A Finished. -/
lemma Told.hear_finished (hc : Told cr ready c) {level : Level} {msg : Bytes}
    (hvalid : (c.entry level msg).Valid cr c.peerCid c.origDcid) (htype : byteAt msg 0 = 20) :
    Shaken cr ready (c.hear level msg) where
  client := hc.client
  valid := hc.valid_concat hvalid
  linked := (hc.linked_concat rfl rfl).imp fun _ h => h.1
  complete := ⟨c.entry level msg, List.mem_append_right _ (List.mem_singleton.2 rfl), htype⟩
  sent := hc.sent
  stays := hc.stays

lemma talk_eq {c c' : Conn} (h : c'.talk = c.talk) : c'.isServer = c.isServer ∧ c'.appReady = c.appReady ∧
    c'.chDone = c.chDone ∧ c'.clientFinSent = c.clientFinSent ∧ c'.peerCid = c.peerCid ∧ c'.origDcid = c.origDcid ∧
    c'.transcript = c.transcript ∧ c'.certDer = c.certDer ∧ c'.hist.heard = c.hist.heard := by
  simpa only [Conn.talk, Talk.mk.injEq] using h

lemma told_listens : Listens (Told cr ready) := by
  intro c c' ht hc
  obtain ⟨hserver, hready, -, hsent, hpeer, horig, htr, hder, hheard⟩ := talk_eq ht
  constructor
  · rw [hserver]
    exact hc.client
  · rw [hheard, hpeer, horig]
    exact hc.valid
  · rw [hheard, hready, htr]
    exact hc.linked
  · rw [hready, hheard, hder]
    exact hc.waiting
  · rw [hready, hheard]
    exact hc.complete
  · rw [hsent, hready]
    exact hc.sent
  · rw [hready]
    exact hc.stays

lemma shaken_listens : Listens (Shaken cr ready) := by
  intro c c' ht hc
  obtain ⟨hserver, hready, -, hsent, hpeer, horig, -, -, hheard⟩ := talk_eq ht
  constructor
  · rw [hserver]
    exact hc.client
  · rw [hheard, hpeer, horig]
    exact hc.valid
  · rw [hheard]
    exact hc.linked
  · rw [hheard]
    exact hc.complete
  · rw [hsent, hready]
    exact hc.sent
  · rw [hready]
    exact hc.stays

/-! ## The messages of a client -/

section Client

variable {msg : Bytes} {len : ℕ}

lemma entry_type (c : Conn) (level : Level) (hlen : 4 ≤ len) :
    (c.entry level (msg.take len)).type = byteAt msg 0 := byteAt_take (by omega)

/-- A message that is no Certificate and no Finished. -/
lemma Told.hear_other {level : Level} (hc : Told cr ready c)
    (hvalid : (c.entry level msg).Valid cr c.peerCid c.origDcid) (h₁ : byteAt msg 0 ≠ 11) (h₂ : byteAt msg 0 ≠ 20) :
    Told cr ready (c.hear level msg) := by
  refine hc.hear c.certDer hvalid h₂ fun hready => ?_
  rw [lastCert_concat, if_neg (show (c.entry level msg).type ≠ 11 from h₁)]
  exact (hc.waiting hready).2

lemma told_serverHello (hlen : 4 ≤ len) (htype : byteAt msg 0 = 2) : Spec (Told cr ready)
    (do
      parseServerHello msg len
      Prog.modify (·.hear .initial (msg.take len))
      deriveHandshake cr) (fun _ => Told cr ready) (Astray cr ready) := by
  have hw : Respects (Told cr ready) := told_listens.respects
  refine ((hw.parseServerHello msg len).spec fun _ => Told.astray).bind fun _ => Spec.modify_bind (fun c hc => ?_)
    (hw.deriveHandshake.spec fun _ => Told.astray)
  have ht := (entry_type c .initial hlen).trans htype
  exact hc.hear_other (.serverHello rfl ht) (ht.trans_ne (by decide)) (ht.trans_ne (by decide))

/-- EncryptedExtensions that are accepted. -/
lemma told_parseEe : Spec (Told cr ready) (parseEe msg len) (fun _ c => Told cr ready c ∧ ∃ params limits,
    eeParams msg len = some params ∧ (takeParams c.peerCid c.origDcid true params.length params limits).1 = true)
      (Astray cr ready) := by
  unfold parseEe
  refine Spec.ofOption_bind (fun params hparams => ?_) fun _ => Told.astray
  unfold Conn.takeParams
  refine Spec.get_bind fun c => Spec.modify_bind
    (T := fun c' => Told cr ready c' ∧ c'.peerCid = c.peerCid ∧ c'.origDcid = c.origDcid) ?_ ?_
  · rintro c' ⟨rfl, hc⟩
    exact ⟨told_listens c' _ rfl hc, rfl, rfl⟩
  · refine Spec.bind (Q := fun _ c' => (Told cr ready c' ∧ c'.peerCid = c.peerCid ∧ c'.origDcid = c.origDcid) ∧ _)
      (Spec.require (fun c' hok hc' => ⟨hc', hok⟩) fun _ _ hc' => hc'.1.astray) fun _ => Spec.modify ?_
    rintro c' ⟨⟨hc', hpeer, horig⟩, hok⟩
    refine ⟨told_listens c' _ rfl hc', params, ⟨c.peerBidiLocal, c.peerBidiRemote⟩, hparams, ?_⟩
    rw [← hpeer, ← horig] at hok
    exact hok

lemma told_ee (hlen : 4 ≤ len) (hle : len ≤ msg.length) (htype : byteAt msg 0 = 8) : Spec (Told cr ready)
    (do
      parseEe msg len
      Prog.modify (·.hear .handshake (msg.take len))) (fun _ => Told cr ready) (Astray cr ready) := by
  refine told_parseEe.bind fun _ => Spec.modify ?_
  rintro c ⟨hc, params, limits, hparams, hok⟩
  have ht := (entry_type c .handshake hlen).trans htype
  have hmsg : (msg.take len).length = len := List.length_take_of_le hle
  refine hc.hear_other (.ee rfl ht ?_ hok) (ht.trans_ne (by decide)) (ht.trans_ne (by decide))
  show eeParams (msg.take len) (msg.take len).length = some params
  rw [hmsg, eeParams_take]
  exact hparams

lemma told_cert (hlen : 4 ≤ len) (hle : len ≤ msg.length) (htype : byteAt msg 0 = 11) : Spec (Told cr ready)
    (do
      let der ← Prog.ofOption (parseCertificate msg len)
      Prog.modify fun c => { c.hear .handshake (msg.take len) with certDer := der }) (fun _ => Told cr ready)
      (Astray cr ready) := by
  refine Spec.ofOption_bind (fun der hder => Spec.modify fun c hc => ?_) fun _ => Told.astray
  have ht := (entry_type c .handshake hlen).trans htype
  have hmsg : (msg.take len).length = len := List.length_take_of_le hle
  have hcert : parseCertificate (msg.take len) (msg.take len).length = some der := by
    rw [hmsg, parseCertificate_take]
    exact hder
  refine hc.hear der (.cert rfl ht hcert) (ht.trans_ne (by decide)) fun _ => ?_
  rw [lastCert_concat, if_pos ht, show (c.entry .handshake (msg.take len)).msg = msg.take len from rfl, hcert]
  rfl

lemma told_verify (hlen : 4 ≤ len) (hle : len ≤ msg.length) (htype : byteAt msg 0 = 15) : Spec (Told cr ready)
    (do
      let c ← Prog.get
      Prog.require (parseCertVerify cr c.certDer (c.peek cr) msg len = true)
      Prog.modify (·.hear .handshake (msg.take len))) (fun _ => Told cr ready) (Astray cr ready) := by
  refine Spec.get_bind fun c => Spec.bind (Q := fun _ c' => (c' = c ∧ Told cr ready c) ∧ _)
    (Spec.require (fun _ hok hc => ⟨hc, hok⟩) fun _ _ hc => hc.1 ▸ hc.2.astray) fun _ => Spec.modify ?_
  rintro c ⟨⟨rfl, hc⟩, hok⟩
  have ht := (entry_type c .handshake hlen).trans htype
  have hmsg : (msg.take len).length = len := List.length_take_of_le hle
  refine hc.hear_other (.verify rfl ht ?_) (ht.trans_ne (by decide)) (ht.trans_ne (by decide))
  show parseCertVerify cr c.certDer (c.peek cr) (msg.take len) (msg.take len).length = true
  rw [hmsg, parseCertVerify_take]
  exact hok

/-- A client answers a Finished. -/
lemma shaken_clientFinish : Spec (Shaken cr ready) (clientFinish cr env) (fun _ => Told cr ready) (Astray cr ready) := by
  unfold clientFinish
  refine Spec.get_bind fun c => Spec.ite (fun hsent => Spec.pure ?_) fun _ => ?_
  · rintro _ ⟨rfl, hc⟩
    exact hc.told (hc.sent hsent)
  · refine Spec.mono (P := Shaken cr ready) ?_ (fun _ hc => hc.1 ▸ hc.2) (fun _ _ hc => hc) fun _ hc => hc
    refine (Keeps.require.spec fun _ => Shaken.astray).bind fun _ => Spec.modify_bind (T := Shaken cr ready) ?_ ?_
    · exact fun c hc => ⟨hc.client, hc.valid, hc.linked, hc.complete, hc.sent, hc.stays⟩
    refine (((shaken_listens.sends.sendCrypto .handshake _ 0)).spec fun _ => Shaken.astray).bind fun _ => ?_
    refine Spec.modify fun c hc => Shaken.told ?_ rfl
    exact ⟨hc.client, hc.valid, hc.linked, hc.complete, fun _ => rfl, fun _ => rfl⟩

lemma told_finished (hlen : 4 ≤ len) (hle : len ≤ msg.length) (htype : byteAt msg 0 = 20) : Spec (Told cr ready)
    (do
      let c ← Prog.get
      Prog.require (checkFinished cr (c.keys true .handshake).secret (c.peek cr) msg len)
      Prog.modify (·.hear .handshake (msg.take len))
      deriveApp cr
      clientFinish cr env) (fun _ => Told cr ready) (Astray cr ready) := by
  refine Spec.get_bind fun c => Spec.bind (Q := fun _ c' => (c' = c ∧ Told cr ready c) ∧ _)
    (Spec.require (fun _ hok hc => ⟨hc, hok⟩) fun _ _ hc => hc.1 ▸ hc.2.astray) fun _ =>
      Spec.modify_bind (T := Shaken cr ready) ?_ ?_
  · rintro c ⟨⟨rfl, hc⟩, hok⟩
    have ht := (entry_type c .handshake hlen).trans htype
    have hmsg : (msg.take len).length = len := List.length_take_of_le hle
    refine hc.hear_finished (.finished rfl ht ?_) ht
    show checkFinished cr (c.keys (!c.isServer) .handshake).secret (c.peek cr) (msg.take len) (msg.take len).length
    rw [hmsg, hc.client]
    exact checkFinished_take _ _ hok
  · exact (shaken_listens.respects.deriveApp.spec fun _ => Shaken.astray).bind fun _ => shaken_clientFinish

lemma told_onMsg (level : Level) (hle : len ≤ msg.length) :
    Spec (Told cr ready) (onMsg cr env level msg len) (fun _ => Told cr ready) (Astray cr ready) := by
  unfold onMsg
  refine Spec.bind (Q := fun _ c => Told cr ready c ∧ 4 ≤ len)
    (Spec.require (fun _ hlen hc => ⟨hc, hlen⟩) fun _ _ hc => hc.astray) fun _ => ?_
  refine Spec.get_bind_of fun c ⟨hc, hlen⟩ => ?_
  rw [hc.client, if_neg (by decide)]
  refine Spec.mono (P := Told cr ready) ?_ (fun _ hc => hc.1) (fun _ _ hc => hc) fun _ hc => hc
  unfold clientMsg
  refine Spec.ite ?_ fun _ => Spec.ite ?_ fun _ => Spec.ite ?_ fun _ => Spec.ite ?_ fun _ => Spec.ite ?_ fun _ =>
    Spec.fail fun _ => Told.astray
  · rintro ⟨rfl, htype⟩
    exact told_serverHello hlen htype
  · rintro ⟨rfl, htype⟩
    exact told_ee hlen hle htype
  · rintro ⟨rfl, htype⟩
    exact told_cert hlen hle htype
  · rintro ⟨rfl, htype⟩
    exact told_verify hlen hle htype
  · rintro ⟨rfl, htype⟩
    exact told_finished hlen hle htype

/-- Whatever a client receives. -/
lemma told_ingest (buf : Bytes) :
    Spec (Told cr ready) (ingest cr env buf) (fun _ => Told cr ready) (Astray cr ready) := by
  have hhandles (level : Level) : Handles cr env level (Told cr ready) (Astray cr ready) :=
    ⟨fun _ => Told.astray, fun c _ _ hc => told_listens c _ rfl hc, fun c hc => told_listens c _ rfl hc,
      fun c _ _ hc => told_listens c _ rfl hc, fun msg len hle => told_onMsg level hle⟩
  refine ingest_spec (fun _ => Told.astray) (fun c pkt hc => ?_) (fun c pkt hd pn plain _ hc => ?_) buf
  · rw [Conn.learn, if_neg (by simp [hc.client])]
    exact hc
  · exact ((hhandles hd.level).acceptPacket (fun c _ _ _ _ _ hc => told_listens c _ rfl hc) pn plain).mono
      (fun _ h => h ▸ hc) (fun _ _ hc => hc) fun _ hc => hc

end Client

/-! ## What a server was told -/

/-- The transcript of a server that has sent its flights. -/
def ServerTranscript (ch : Bytes) (ms : List Bytes) : Prop :=
  ∃ sh ee crt cv fin, ms = [ch, sh, ee, crt, cv, fin] ∧ byteAt sh 0 = 2 ∧ byteAt ee 0 = 8 ∧ byteAt crt 0 = 11 ∧
    byteAt cv 0 = 15 ∧ byteAt fin 0 = 20

/-- A ClientHello that a server has accepted. -/
def Heard.IsHello (h : Heard) : Prop := h.level = .initial ∧ h.type = 1

/-- A server has accepted a ClientHello, and then a Finished over the transcript up to its own Finished. -/
def ServerAuthenticated (cr : Crypto) (c : Conn) : Prop :=
  ∃ ch fin rest, c.hist.heard = ch :: fin :: rest ∧ ch.IsHello ∧ fin.level = .handshake ∧ fin.type = 20 ∧
    ServerTranscript ch.msg fin.transcript ∧
    checkFinished cr fin.secret (cr.sha256 fin.transcript.flatten) fin.msg fin.msg.length

/-- What a server has heard. -/
structure Served (cr : Crypto) (ready : Bool) (c : Conn) : Prop where
  server : c.isServer = true
  new : c.chDone = false → c.appReady = false ∧ c.hist.heard = [] ∧ c.transcript = [] ∧
    (c.keys false .handshake).installed = false
  waiting : c.chDone = true → c.appReady = false →
    ∃ ch, c.hist.heard = [ch] ∧ ch.IsHello ∧ ServerTranscript ch.msg c.transcript
  complete : c.appReady = true → ServerAuthenticated cr c
  stays : ready = true → c.appReady = true

/-- A server after an error. -/
def Dropped (cr : Crypto) (ready : Bool) (c : Conn) : Prop :=
  (ready = true → c.appReady = true) ∧ (c.appReady = true → Served cr ready c)

lemma Served.dropped (hc : Served cr ready c) : Dropped cr ready c := ⟨hc.stays, fun _ => hc⟩

lemma dropped_of_waiting (hready : ready = false) (hc : c.appReady = false) : Dropped cr ready c :=
  ⟨fun h => (nomatch hready.symm.trans h), fun h => (nomatch hc.symm.trans h)⟩

/-- A server that answers `ch` has hashed `ms`. -/
def Answering (ch : Heard) (ms : List Bytes) (c : Conn) : Prop :=
  c.isServer = true ∧ c.chDone = true ∧ c.appReady = false ∧ c.hist.heard = [ch] ∧ c.transcript = ms

lemma answering_listens (ch : Heard) (ms : List Bytes) : Listens (Answering ch ms) := by
  intro c c' ht hc
  obtain ⟨hserver, hready, hdone, -, -, -, htr, -, hheard⟩ := talk_eq ht
  unfold Answering
  rw [hserver, hdone, hready, hheard, htr]
  exact hc

lemma answering_hash {ch : Heard} {ms : List Bytes} (hc : Answering ch ms c) (m : Bytes) :
    Answering ch (ms ++ [m]) (c.hash m) := by
  obtain ⟨h₁, h₂, h₃, h₄, h₅⟩ := hc
  exact ⟨h₁, h₂, h₃, h₄, congrArg (· ++ [m]) h₅⟩

/-- The messages of the flights are hashed in order. -/
lemma answering_serverFlight (ch : Heard) : Spec (Answering ch [ch.msg]) (serverFlight cr env)
    (fun _ c => ∃ ms, ServerTranscript ch.msg ms ∧ Answering ch ms c) fun c => c.appReady = false := by
  have hE (ms : List Bytes) (c : Conn) (hc : Answering ch ms c) : c.appReady = false := hc.2.2.1
  have hl := answering_listens ch
  unfold serverFlight
  refine ((Keeps.ofOption env.cert).spec (hE _)).bind fun cert => Spec.modify_bind (fun c hc => hl _ c _ rfl hc) ?_
  refine Spec.get_bind_of fun c _ => Spec.modify_bind (fun c hc => answering_hash hc _) ?_
  refine ((hl _).respects.deriveHandshake.spec (hE _)).bind fun _ => ?_
  refine (((hl _).sends.sendCrypto .initial _ 0).spec (hE _)).bind fun _ => ?_
  refine Spec.modify_bind (fun c hc => answering_hash (answering_hash hc _) _) (Spec.get_bind_of fun c₁ _ => ?_)
  refine Spec.ofOption_bind (fun cv hcv => Spec.modify_bind (fun c hc => answering_hash hc cv) ?_) (hE _)
  refine Spec.get_bind_of fun c₂ _ => (Keeps.require.spec (hE _)).bind fun _ => ?_
  refine Spec.modify_bind (fun c hc => answering_hash hc _) ?_
  refine ((hl _).respects.deriveApp.spec (hE _)).bind fun _ => ?_
  refine (((hl _).sends.sendCrypto .handshake _ 0)).mono (fun _ hc => hc) (fun _ c hc => ⟨_, ?_, hc⟩) fun c hc => hE _ c hc
  refine ⟨_, _, _, cv, _, rfl, rfl, rfl, rfl, ?_, rfl⟩
  simp only [buildCertVerify, Option.ite_none_left_eq_some, Option.some.injEq] at hcv
  rw [← hcv.2]
  rfl

section Server

variable {msg : Bytes} {len : ℕ}

/-- A server that has the keys for a level. -/
def ServedAt (cr : Crypto) (ready : Bool) (level : Level) (c : Conn) : Prop :=
  Served cr ready c ∧ (level = .handshake → (c.keys false .handshake).installed = true)

lemma served_hello (hlen : 4 ≤ len) (htype : byteAt msg 0 = 1) : Spec (ServedAt cr ready .initial)
    (do
      let c ← Prog.get
      if c.chDone then pure ()
      else do
        parseClientHello msg len
        Prog.modify fun c => { c.hear .initial (msg.take len) with chDone := true }
        serverFlight cr env) (fun _ => ServedAt cr ready .initial) (Dropped cr ready) := by
  refine Spec.get_bind fun c => Spec.ite (fun _ => Spec.pure fun _ hc => hc.1 ▸ hc.2) fun hdone => ?_
  intro c' hc'
  obtain ⟨rfl, hc, -⟩ := hc'
  obtain ⟨hready, hheard, htr, -⟩ := hc.new (by simpa using hdone)
  have hwas : ready = false := by
    cases ready with
    | false => rfl
    | true => exact nomatch hready.symm.trans (hc.stays rfl)
  have hl : Listens fun c => c.isServer = true ∧ c.appReady = false ∧ c.hist.heard = [] ∧ c.transcript = [] := by
    intro c c' ht hc
    obtain ⟨hserver, hready, -, -, -, -, htr, -, hheard⟩ := talk_eq ht
    rw [hserver, hready, hheard, htr]
    exact hc
  refine Spec.bind ((hl.respects.parseClientHello msg len).spec fun _ hc => dropped_of_waiting hwas hc.2.1) (fun _ => ?_) c'
    ⟨hc.server, hready, hheard, htr⟩
  refine Spec.modify_bind (T := fun c => ∃ ch : Heard, ch.IsHello ∧ Answering ch [ch.msg] c) (fun c hc => ?_) ?_
  · obtain ⟨hserver, hready, hheard, htr⟩ := hc
    refine ⟨c.entry .initial (msg.take len), ⟨rfl, (entry_type c .initial hlen).trans htype⟩, hserver, rfl, hready, ?_, ?_⟩
    · exact congrArg (· ++ [_]) hheard
    · exact congrArg (· ++ [_]) htr
  · rintro c ⟨ch, hhello, hc⟩
    refine (answering_serverFlight ch).mono (fun _ hc => hc) ?_ (fun c hc => dropped_of_waiting hwas hc) c hc
    rintro _ c ⟨ms, hms, hserver, hdone, hready, hheard, htr⟩
    refine ⟨⟨hserver, fun h => (nomatch hdone.symm.trans h), fun _ _ => ⟨ch, hheard, hhello, htr ▸ hms⟩,
      fun h => (nomatch hready.symm.trans h), fun h => (nomatch hwas.symm.trans h)⟩, nofun⟩

lemma served_finished (hlen : 4 ≤ len) (hle : len ≤ msg.length) (htype : byteAt msg 0 = 20) :
    Spec (ServedAt cr ready .handshake)
      (do
        let c ← Prog.get
        Prog.require (checkFinished cr (c.keys false .handshake).secret (c.peek cr) msg len)
        Prog.modify fun c => { c.hear .handshake (msg.take len) with appReady := true })
      (fun _ => ServedAt cr ready .handshake) (Dropped cr ready) := by
  refine Spec.get_bind fun c => Spec.bind (Q := fun _ c' => (c' = c ∧ ServedAt cr ready .handshake c) ∧ _)
    (Spec.require (fun _ hok hc => ⟨hc, hok⟩) fun _ _ hc => hc.1 ▸ hc.2.1.dropped) fun _ => Spec.modify ?_
  rintro c ⟨⟨rfl, hc, hkeys⟩, hok⟩
  have hdone : c.chDone = true := by
    cases hdone : c.chDone with
    | true => rfl
    | false => exact nomatch (hc.new hdone).2.2.2.symm.trans (hkeys rfl)
  have hmsg : (msg.take len).length = len := List.length_take_of_le hle
  refine ⟨⟨hc.server, fun h => (nomatch hdone.symm.trans h), fun _ h => (nomatch h), fun _ => ?_, fun _ => rfl⟩, hkeys⟩
  cases hready : c.appReady with
  | true =>
    obtain ⟨ch, fin, rest, hheard, h⟩ := hc.complete hready
    exact ⟨ch, fin, rest ++ [c.entry .handshake (msg.take len)], congrArg (· ++ [_]) hheard, h⟩
  | false =>
    obtain ⟨ch, hheard, hhello, htr⟩ := hc.waiting hdone hready
    refine ⟨ch, c.entry .handshake (msg.take len), [], congrArg (· ++ [_]) hheard, hhello, rfl,
      (entry_type c .handshake hlen).trans htype, htr, ?_⟩
    show checkFinished cr (c.keys (!c.isServer) .handshake).secret (c.peek cr) (msg.take len) (msg.take len).length
    rw [hmsg, hc.server]
    exact checkFinished_take _ _ hok

lemma served_onMsg (level : Level) (hle : len ≤ msg.length) : Spec (ServedAt cr ready level)
    (onMsg cr env level msg len) (fun _ => ServedAt cr ready level) (Dropped cr ready) := by
  unfold onMsg
  refine Spec.bind (Q := fun _ c => ServedAt cr ready level c ∧ 4 ≤ len)
    (Spec.require (fun _ hlen hc => ⟨hc, hlen⟩) fun _ _ hc => hc.1.dropped) fun _ => ?_
  refine Spec.get_bind_of fun c ⟨hc, hlen⟩ => ?_
  rw [hc.1.server, if_pos rfl]
  refine Spec.mono (P := ServedAt cr ready level) ?_ (fun _ hc => hc.1) (fun _ _ hc => hc) fun _ hc => hc
  unfold serverMsg
  refine Spec.ite ?_ fun _ => Spec.ite ?_ fun _ => Spec.fail fun _ hc => hc.1.dropped
  · rintro ⟨rfl, htype⟩
    exact served_hello hlen htype
  · rintro ⟨rfl, htype⟩
    exact served_finished hlen hle htype

/-- Only the talk and the keys matter to a server. -/
lemma served_congr {c c' : Conn} (hc : Served cr ready c) (ht : c'.talk = c.talk) (hk : c'.keys = c.keys) :
    Served cr ready c' := by
  obtain ⟨hserver, hready, hdone, -, -, -, htr, -, hheard⟩ := talk_eq ht
  constructor
  · rw [hserver]
    exact hc.server
  · rw [hdone, hready, hheard, htr, hk]
    exact hc.new
  · rw [hdone, hready, hheard, htr]
    exact hc.waiting
  · unfold ServerAuthenticated
    rw [hready, hheard]
    exact hc.complete
  · rw [hready]
    exact hc.stays

lemma servedAt_congr {c c' : Conn} {level : Level} (hc : ServedAt cr ready level c) (ht : c'.talk = c.talk)
    (hk : c'.keys = c.keys) : ServedAt cr ready level c' :=
  ⟨served_congr hc.1 ht hk, fun h => hk ▸ hc.2 h⟩

/-- Only with its keys is a packet opened. -/
lemma keys_of_opened {pkt plain : Bytes} {hd : Header} {pn : ℕ} (h : opened cr c pkt = some (hd, pn, plain)) :
    (c.keys (!c.isServer) hd.level).installed = true := by
  have hun : ∃ r, unprotect cr (c.keys (!c.isServer) hd.level) hd pkt = some r := by
    unfold opened at h
    split at h
    · cases h
    · cases hlong : isLong pkt with
      | true =>
        simp only [hlong, if_true, Option.bind_eq_bind, Option.bind_eq_some_iff, Option.some.injEq, Prod.mk.injEq] at h
        obtain ⟨hd', -, r, hr, rfl, -⟩ := h
        exact ⟨r, hr⟩
      | false =>
        simp only [hlong, Bool.false_eq_true, if_false, Option.bind_eq_bind, Option.bind_eq_some_iff, Option.some.injEq,
          Prod.mk.injEq] at h
        obtain ⟨hd', -, r, hr, rfl, -⟩ := h
        exact ⟨r, hr⟩
  obtain ⟨r, hr⟩ := hun
  unfold unprotect at hr
  split at hr
  · cases hr
  next hinst => simpa using fun h => hinst (.inl h)

/-- Whatever a server receives. -/
lemma served_ingest (buf : Bytes) :
    Spec (Served cr ready) (ingest cr env buf) (fun _ => Served cr ready) (Dropped cr ready) := by
  have hhandles (level : Level) : Handles cr env level (ServedAt cr ready level) (Dropped cr ready) :=
    ⟨fun _ hc => hc.1.dropped, fun _ _ _ hc => servedAt_congr hc rfl rfl, fun _ hc => servedAt_congr hc rfl rfl,
      fun _ _ _ hc => servedAt_congr hc rfl rfl, fun msg len hle => served_onMsg level hle⟩
  refine ingest_spec (fun _ => Served.dropped) (fun c pkt hc => ?_) (fun c pkt hd pn plain ho hc => ?_) buf
  · unfold Conn.learn
    split
    · exact ⟨hc.server, hc.new, hc.waiting, hc.complete, hc.stays⟩
    · exact hc
  · have hkeys := keys_of_opened ho
    refine ((hhandles hd.level).acceptPacket (fun _ _ _ _ _ _ hc => servedAt_congr hc rfl rfl) pn plain).mono ?_
      (fun _ _ hc => hc.1) fun _ hc => hc
    rintro _ rfl
    refine ⟨hc, fun hlevel => ?_⟩
    have hsame : (c.learn pkt).keys = c.keys ∧ (c.learn pkt).isServer = c.isServer := by
      unfold Conn.learn
      split <;> exact ⟨rfl, rfl⟩
    have hserver := hsame.2.symm.trans hc.server
    rw [hlevel, hserver] at hkeys
    rw [hsame.1]
    exact hkeys

end Server

/-! ## Runs -/

/-- What an endpoint has heard. -/
def Spoken (cr : Crypto) (c : Conn) : Prop := Told cr c.appReady c ∨ Served cr c.appReady c

lemma Told.spoken (hc : Told cr ready c) : Spoken cr c :=
  .inl ⟨hc.client, hc.valid, hc.linked, hc.waiting, hc.complete, hc.sent, id⟩

lemma Served.spoken (hc : Served cr ready c) : Spoken cr c :=
  .inr ⟨hc.server, hc.new, hc.waiting, hc.complete, id⟩

lemma served_sends : Sends (Served cr ready) where
  numbers _ _ _ _ _ hc := served_congr hc rfl rfl
  offset _ _ hc := served_congr hc rfl rfl
  ackEncoded c level hc := by
    unfold Conn.ackEncoded
    split
    · exact served_congr hc rfl rfl
    · exact hc
  record _ _ _ _ _ _ _ hc := served_congr hc rfl rfl
  flight _ _ hc := served_congr hc rfl rfl

/-- Nothing is heard when packets are sent. -/
lemma Sends.run {P : Conn → Prop} (hP : Sends P) (hread : ∀ c len, P c → P (c.read len)) {e : Event} (hc : P c)
    (he : ∀ env buf, e ≠ .datagram env buf) : P (e.run cr c).2 := by
  cases e with
  | datagram env buf => exact absurd rfl (he env buf)
  | retransmit env => exact hP.retransmit.apply hc
  | done env => exact hP.handshakeDone.apply hc
  | write env data => exact (hP.quicWrite data).apply hc
  | read len => exact hread c len hc

/-- A datagram that does not free the connection. -/
lemma spoken_datagram {buf : Bytes} (hc : Spoken cr c)
    (hsome : c.appReady = false → (ingest cr env buf c).1.isSome = true) : Spoken cr (ingest cr env buf c).2 := by
  cases hready : c.appReady with
  | false =>
    rcases hc with hc | hc
    · exact ((told_ingest buf).of_isSome hc (hsome hready)).spoken
    · exact ((served_ingest buf).of_isSome hc (hsome hready)).spoken
  | true =>
    rw [Spoken, hready] at hc
    rcases hc with hc | hc
    · have hstray : Astray cr true (ingest cr env buf c).2 := (told_ingest buf).apply (fun _ => Told.astray) hc
      exact (hstray.2 (hstray.1 rfl)).spoken
    · have hdropped : Dropped cr true (ingest cr env buf c).2 := (served_ingest buf).apply (fun _ => Served.dropped) hc
      exact (hdropped.2 (hdropped.1 rfl)).spoken

/-- A client that has said and heard nothing. -/
def Silent (c : Conn) : Prop := c.isServer = false ∧ c.appReady = false ∧ c.clientFinSent = false ∧
  c.hist.heard = [] ∧ c.transcript = [] ∧ c.certDer = []

lemma silent_listens : Listens Silent := by
  intro c c' ht hc
  obtain ⟨hserver, hready, -, hsent, -, -, htr, hder, hheard⟩ := talk_eq ht
  unfold Silent
  rw [hserver, hready, hsent, htr, hder, hheard]
  exact hc

/-- A client begins with its ClientHello. -/
lemma Silent.told (hc : Silent c) (ch : Bytes) : Told cr false (c.hash ch) := by
  obtain ⟨hserver, hready, hsent, hheard, htr, hder⟩ := hc
  have hnone : (c.hash ch).hist.heard = [] := hheard
  have hwait : (c.hash ch).appReady = false := hready
  refine ⟨hserver, ?_, ⟨ch, ?_, fun _ => ?_⟩, fun _ => ⟨?_, ?_⟩, fun h => ?_, fun h => ?_, nofun⟩
  · rw [hnone]
    exact nofun
  · rw [hnone]
    exact nofun
  · rw [hnone]
    exact congrArg (· ++ [ch]) htr
  · rw [hnone]
    exact nofun
  · rw [hnone]
    exact hder
  · exact nomatch hwait.symm.trans h
  · exact nomatch hsent.symm.trans h

lemma spoken_start (h : Start cr c) : Spoken cr c := by
  cases h with
  | @client env c c₀ h =>
    have hdial : Spec (fun _ => True) (dial cr env) (fun _ => Told cr false) fun _ => True := by
      unfold dial
      refine Spec.modify_bind (T := Silent) (fun _ _ => ⟨rfl, rfl, rfl, rfl, rfl, rfl⟩) ?_
      refine Spec.modify_bind (fun c hc => silent_listens c _ rfl hc) ?_
      refine Spec.modify_bind (fun c hc => silent_listens c _ rfl hc) ?_
      exact Spec.get_bind_of fun c _ => Spec.modify_bind (fun c hc => hc.told _)
        ((told_listens.sends.sendCrypto .initial _ 1200).spec fun _ _ => trivial)
    exact (hdial.of_some trivial h).spoken
  | @server buf c h =>
    unfold acceptStart at h
    split at h
    · cases h
    · cases h
      have hserved : Served cr false (Conn.installInitial cr { Conn.new with
          isServer := true, localCid := (buf.drop 6).take cidLen, origDcid := (buf.drop 6).take cidLen }) :=
        ⟨rfl, fun _ => ⟨rfl, rfl, rfl, rfl⟩, nofun, nofun, nofun⟩
      exact hserved.spoken

lemma spoken_reachable (h₀ : Start cr c₀) (h : Reachable (Step cr) (some c₀) (some c)) : Spoken cr c := by
  obtain ⟨es, hes⟩ := h
  refine hes.invariant (I := fun o => ∀ c, o = some c → Spoken cr c) ?_ (fun c hc => Option.some.inj hc ▸ spoken_start h₀)
    c rfl
  intro o e o' hI hstep c' hc'
  subst hc'
  obtain ⟨c, rfl, hrun⟩ := step_run hstep
  have hc := hI c rfl
  by_cases he : ∃ env buf, e = .datagram env buf
  · obtain ⟨env, buf, rfl⟩ := he
    obtain ⟨rfl, hsome⟩ := step_datagram hstep rfl
    exact spoken_datagram hc hsome
  · rw [hrun c' rfl]
    replace he : ∀ env buf, e ≠ .datagram env buf := fun env buf h => he ⟨env, buf, h⟩
    rcases hc with hc | hc
    · exact (told_listens.sends.run (fun c _ hc => told_listens c _ rfl hc) hc he).spoken
    · exact (served_sends.run (fun _ _ hc => served_congr hc rfl rfl) hc he).spoken

/-! ## Authentication -/

/-- What a client has heard up to the first Finished has, in this order: a ServerHello; EncryptedExtensions with the
right protocol and with parameters that are accepted; a Certificate; a CertificateVerify whose signature was verified
under the key of that certificate over the transcript up to that Certificate; and a Finished whose MAC was verified over
the transcript up to that CertificateVerify. -/
def Authenticated (cr : Crypto) (c : Conn) : Prop :=
  ∃ i j k l m : ℕ, i < j ∧ j < k ∧ k < l ∧ l < m ∧ ∃ (sh ee crt cv fin : Heard) (params der : Bytes) (limits : Limits),
    ((upToFinished c.hist.heard)[i]? = some sh ∧ sh.level = .initial ∧ sh.type = 2) ∧
    ((upToFinished c.hist.heard)[j]? = some ee ∧ ee.level = .handshake ∧ ee.type = 8 ∧
      eeParams ee.msg ee.msg.length = some params ∧
      (takeParams c.peerCid c.origDcid true params.length params limits).1 = true) ∧
    ((upToFinished c.hist.heard)[k]? = some crt ∧ crt.level = .handshake ∧ crt.type = 11 ∧
      parseCertificate crt.msg crt.msg.length = some der) ∧
    ((upToFinished c.hist.heard)[l]? = some cv ∧ cv.level = .handshake ∧ cv.type = 15 ∧
      cv.transcript = crt.transcript ++ [crt.msg] ∧
      parseCertVerify cr der (cr.sha256 cv.transcript.flatten) cv.msg cv.msg.length = true) ∧
    ((upToFinished c.hist.heard)[m]? = some fin ∧ fin.level = .handshake ∧ fin.type = 20 ∧
      fin.transcript = cv.transcript ++ [cv.msg] ∧
      checkFinished cr fin.secret (cr.sha256 fin.transcript.flatten) fin.msg fin.msg.length)

/-- The types of messages: a ServerHello, later EncryptedExtensions, and at last a Certificate, a CertificateVerify and a
Finished, one right after the other. -/
def InOrder (types : List UInt8) : Prop :=
  ∃ i j k : ℕ, i < j ∧ j < k ∧ types[i]? = some 2 ∧ types[j]? = some 8 ∧ types[k]? = some 11 ∧ types[k + 1]? = some 15 ∧
    types[k + 2]? = some 20

lemma Linked.length {ch : Bytes} {hs : List Heard} (hl : Linked ch hs) {i : ℕ} {h : Heard} (hi : hs[i]? = some h) :
    h.transcript.length = i + 1 := by
  obtain ⟨hlt, -⟩ := List.getElem?_eq_some_iff.1 hi
  rw [(hl i h hi).1, List.length_cons, List.length_map, List.length_take_of_le hlt.le]

/-- Messages that follow one another directly. -/
lemma Linked.succ {ch : Bytes} {hs : List Heard} (hl : Linked ch hs) {i : ℕ} {h h' : Heard} (hi : hs[i]? = some h)
    (hi' : hs[i + 1]? = some h') :
    h'.transcript = h.transcript ++ [h.msg] ∧ h'.certDer = lastCert (hs.take i ++ [h]) := by
  have htake : hs.take (i + 1) = hs.take i ++ [h] := by
    rw [List.take_add_one, hi]
    rfl
  rw [(hl _ _ hi').1, (hl _ _ hi').2, (hl _ _ hi).1, htake, List.map_append]
  exact ⟨rfl, rfl⟩

lemma Told.checked_iff (hc : Told cr ready c) :
    Authenticated cr c ↔ InOrder ((upToFinished c.hist.heard).map Heard.type) := by
  obtain ⟨ch, hl, -⟩ := hc.linked
  have hvalid (i : ℕ) (h : Heard) (hi : (upToFinished c.hist.heard)[i]? = some h) : h.Valid cr c.peerCid c.origDcid :=
    hc.valid h (mem_of_mem_upToFinished (List.mem_of_getElem? hi))
  constructor
  · rintro ⟨i, j, k, l, m, hij, hjk, hkl, hlm, sh, ee, crt, cv, fin, params, der, limits, ⟨hsh, -, hsh'⟩, ⟨hee, -, hee', -⟩,
      ⟨hcrt, -, hcrt', -⟩, ⟨hcv, -, hcv', hcvtr, -⟩, hfin, -, hfin', hfintr, -⟩
    -- the lengths of the transcripts say where the messages are
    have h₁ := congrArg List.length hcvtr
    have h₂ := congrArg List.length hfintr
    rw [List.length_append, hl.length hcv, hl.length hcrt] at h₁
    rw [List.length_append, hl.length hfin, hl.length hcv] at h₂
    obtain rfl : l = k + 1 := by simpa using h₁
    obtain rfl : m = k + 2 := by simpa using h₂
    refine ⟨i, j, k, hij, hjk, ?_⟩
    simp only [List.getElem?_map, hsh, hee, hcrt, hcv, hfin, Option.map_some, hsh', hee', hcrt', hcv', hfin', and_self]
  · rintro ⟨i, j, k, hij, hjk, hsh, hee, hcrt, hcv, hfin⟩
    simp only [List.getElem?_map, Option.map_eq_some_iff] at hsh hee hcrt hcv hfin
    obtain ⟨sh, hsh, hsh'⟩ := hsh
    obtain ⟨ee, hee, hee'⟩ := hee
    obtain ⟨crt, hcrt, hcrt'⟩ := hcrt
    obtain ⟨cv, hcv, hcv'⟩ := hcv
    obtain ⟨fin, hfin, hfin'⟩ := hfin
    obtain ⟨hcvtr, hcvder⟩ := hl.succ hcrt hcv
    obtain ⟨hfintr, -⟩ := hl.succ hcv hfin
    obtain ⟨heelevel, params, limits, hparams, hok⟩ := (hvalid _ _ hee).of_ee hee'
    obtain ⟨hcrtlevel, der, hder⟩ := (hvalid _ _ hcrt).of_cert hcrt'
    obtain ⟨hcvlevel, hverify⟩ := (hvalid _ _ hcv).of_verify hcv'
    obtain ⟨hfinlevel, hcheck⟩ := (hvalid _ _ hfin).of_finished hfin'
    rw [hcvder, lastCert_concat, if_pos hcrt', hder] at hverify
    exact ⟨i, j, k, k + 1, k + 2, hij, hjk, by omega, by omega, sh, ee, crt, cv, fin, params, der, limits,
      ⟨hsh, (hvalid _ _ hsh).of_serverHello hsh', hsh'⟩, ⟨hee, heelevel, hee', hparams, hok⟩,
      ⟨hcrt, hcrtlevel, hcrt', hder⟩, ⟨hcv, hcvlevel, hcv', hcvtr, hverify⟩, hfin, hfinlevel, hfin', hfintr, hcheck⟩

/-- A client whose handshake is complete has authenticated its server if and only if the messages up to the first
Finished came in their order; and a server whose handshake is complete has authenticated its client. -/
theorem authenticated_iff (h₀ : Start cr c₀) (h : Reachable (Step cr) (some c₀) (some c)) (hready : c.appReady = true) :
    (c.isServer = false → (Authenticated cr c ↔ InOrder ((upToFinished c.hist.heard).map Heard.type))) ∧
    (c.isServer = true → ServerAuthenticated cr c) := by
  rcases spoken_reachable h₀ h with hc | hc
  · exact ⟨fun _ => hc.checked_iff, fun h => (nomatch hc.client.symm.trans h)⟩
  · exact ⟨fun h => (nomatch hc.server.symm.trans h), fun _ => hc.complete hready⟩

/-- A client that has sent its ClientHello. -/
def plainClient : Conn := (dial .plain .plain .new).2

/-- The client after the ServerHello. -/
def plainKeyed : Conn :=
  (ingest .plain .plain (plainPacket .initial 0 (cryptoFrame 0 (buildServerHello zeros zeros))) plainClient).2

/-- The client after the messages `hs` at level `handshake`. -/
def plainTold (hs : Bytes) : Conn := (ingest .plain .plain (plainPacket .handshake 0 (cryptoFrame 0 hs)) plainKeyed).2

/-- The flight of a server. -/
def plainFlight : Bytes :=
  buildEncryptedExtensions (List.replicate 8 0) (List.replicate 8 0) ++ buildCertificate [0] ++
    message 15 ([0x08, 0x07] ++ toBytes 2 64 ++ List.replicate 64 0) ++ buildFinished .plain zeros zeros

lemma start_plainClient : Start .plain plainClient := by
  have hok : (dial .plain .plain .new).1 = some () := by decide +kernel
  exact @Start.client _ .plain _ .new (Prod.ext hok (by rw [plainClient]))

lemma step_plainKeyed : Step .plain (some plainClient) (.datagram .plain
    (plainPacket .initial 0 (cryptoFrame 0 (buildServerHello zeros zeros)))) (some plainKeyed) :=
  step_handshake (by decide +kernel) (by decide +kernel) (by decide +kernel)

theorem authenticated_iff_plain : Start .plain plainClient ∧
    Reachable (Step .plain) (some plainClient) (some (plainTold plainFlight)) ∧
    (plainTold plainFlight).appReady = true ∧ (plainTold plainFlight).isServer = false ∧
    Authenticated .plain (plainTold plainFlight) := by
  have hrun : Reachable (Step .plain) (some plainClient) (some (plainTold plainFlight)) :=
    ⟨_, .cons step_plainKeyed (.cons (step_handshake (by decide +kernel) (by decide +kernel) (by decide +kernel)) (.nil _))⟩
  have hready : (plainTold plainFlight).appReady = true := by decide +kernel
  have hclient : (plainTold plainFlight).isServer = false := by decide +kernel
  refine ⟨start_plainClient, hrun, hready, hclient,
    ((authenticated_iff start_plainClient hrun hready).1 hclient).2 ⟨0, 1, 2, by decide, by decide, ?_⟩⟩
  decide +kernel

/-- A Finished right after the ServerHello completes the handshake, without any certificate. -/
theorem unauthenticated : Start .plain plainClient ∧
    Reachable (Step .plain) (some plainClient) (some (plainTold (buildFinished .plain zeros zeros))) ∧
    (plainTold (buildFinished .plain zeros zeros)).isServer = false ∧
    (plainTold (buildFinished .plain zeros zeros)).appReady = true ∧
    ¬ Authenticated .plain (plainTold (buildFinished .plain zeros zeros)) := by
  refine ⟨start_plainClient, ⟨_, .cons step_plainKeyed (.cons (step_handshake ?_ ?_ ?_) (.nil _))⟩, ?_, ?_, ?_⟩
  case refine_6 =>
    rintro ⟨i, j, k, l, m, hij, hjk, -, -, sh, ee, crt, cv, fin, params, der, limits, -, -, ⟨hcrt, -⟩, -⟩
    have hlen : (upToFinished (plainTold (buildFinished .plain zeros zeros)).hist.heard).length = 2 := by decide +kernel
    obtain ⟨hlt, -⟩ := List.getElem?_eq_some_iff.1 hcrt
    omega
  all_goals decide +kernel

end Suspenders.Quic
