import Suspenders.Quic.Parse
import Suspenders.Quic.Level

/-!
# Transport parameters

`s_quic_take_params` checks the connection ids that it finds.  It does not miss those that are not there, so that even
an empty block is accepted (`takeParams_empty`).
-/

namespace Suspenders.Quic

open Lib Prog

variable {peerCid origDcid p : Bytes} {fromServer : Bool} {l : Limits}

/-- The first parameter of a block, by the lengths in it: its id, its value, and what comes behind it. -/
def nextParam (p : Bytes) : Option (ℕ × Bytes × Bytes) := do
  let (id, p) ← getVarint p
  let (len, p) ← getVarint p
  if p.length < len then none else some (id, p.take len, p.drop len)

/-- A block is a complete sequence of parameters: their ids and their values. -/
inductive Entries : Bytes → List (ℕ × Bytes) → Prop
  | nil : Entries [] []
  | cons {p val rest : Bytes} {id : ℕ} {es : List (ℕ × Bytes)} :
      nextParam p = some (id, val, rest) → Entries rest es → Entries p ((id, val) :: es)

/-- An integer is there, and a connection id is that of the connection. -/
def Fits (peerCid origDcid : Bytes) (fromServer : Bool) (e : ℕ × Bytes) : Prop :=
  (e.1 = 0x05 ∨ e.1 = 0x06 ∨ e.1 = 0x04 ∨ e.1 = 0x01 → (getVarint e.2).isSome = true) ∧
  (e.1 = 0x0f → e.2.length = cidLen ∧ e.2 = peerCid) ∧
  (e.1 = 0x00 → fromServer = true → e.2.length = cidLen ∧ e.2 = origDcid)

/-- The check of a connection id. -/
lemma cid_check (val cid : Bytes) : (if val.length ≠ cidLen ∨ val ≠ cid then none else some l).isSome = true ↔
    val.length = cidLen ∧ val = cid := by
  split
  next h =>
    refine ⟨nofun, fun hval => ?_⟩
    exact h.elim (absurd hval.1) (absurd hval.2)
  next h =>
    push Not at h
    exact ⟨fun _ => h, fun _ => rfl⟩

lemma takeParam_isSome (e : ℕ × Bytes) :
    (takeParam peerCid origDcid fromServer e.1 e.2 l).isSome = true ↔ Fits peerCid origDcid fromServer e := by
  obtain ⟨id, val⟩ := e
  unfold takeParam Fits
  dsimp only
  split
  next hint =>
    have hcid : id ≠ 0x0f ∧ id ≠ 0x00 := by omega
    cases getVarint val <;> simp [hint, hcid]
  next hint =>
    split
    next hcid =>
      subst hcid
      rw [cid_check]
      exact ⟨fun h => ⟨fun h' => absurd h' hint, fun _ => h, nofun⟩, fun h => h.2.1 rfl⟩
    next hcid =>
      split
      next horig =>
        obtain ⟨rfl, rfl⟩ := horig
        rw [cid_check]
        exact ⟨fun h => ⟨fun h' => absurd h' hint, nofun, fun _ _ => h⟩, fun h => h.2.2 rfl rfl⟩
      next horig =>
        exact ⟨fun _ => ⟨fun h => absurd h hint, fun h => absurd h hcid, fun h₀ h₁ => absurd ⟨h₀, h₁⟩ horig⟩,
          fun _ => rfl⟩

lemma nextParam_length {val rest : Bytes} {id : ℕ} (h : nextParam p = some (id, val, rest)) : rest.length < p.length := by
  simp only [nextParam, Option.bind_eq_bind, Option.bind_eq_some_iff] at h
  obtain ⟨⟨id, p₁⟩, h₁, ⟨len, p₂⟩, h₂, h⟩ := h
  rw [Option.ite_none_left_eq_some] at h
  cases h.2
  have hlt₁ := getVarint_length h₁
  have hlt₂ := getVarint_length h₂
  rw [List.length_drop]
  dsimp only at hlt₂ ⊢
  omega

/-- One round of `s_quic_take_params`. -/
lemma takeParams_succ (n : ℕ) (hp : p ≠ []) : takeParams peerCid origDcid fromServer (n + 1) p l =
    match nextParam p with
    | none => (false, l)
    | some (id, val, rest) =>
      match takeParam peerCid origDcid fromServer id val l with
      | none => (false, l)
      | some l => takeParams peerCid origDcid fromServer n rest l := by
  rw [takeParams, if_neg hp, nextParam]
  cases getVarint p with
  | none => rfl
  | some r =>
    simp only [Option.bind_eq_bind, Option.bind_some]
    cases getVarint r.2 with
    | none => rfl
    | some r =>
      simp only [Option.bind_some]
      split <;> rfl

lemma Entries.unique {es es' : List (ℕ × Bytes)} (h : Entries p es) (h' : Entries p es') : es = es' := by
  induction h generalizing es' with
  | nil =>
    cases h' with
    | nil => rfl
    | cons h _ => cases h
  | cons hnext _ ih =>
    cases h' with
    | nil => cases hnext
    | cons hnext' h' =>
      cases hnext.symm.trans hnext'
      rw [ih h']

/-- What is accepted is a complete sequence of parameters that fit. -/
lemma takeParams_fst {n : ℕ} (hn : p.length ≤ n) : (takeParams peerCid origDcid fromServer n p l).1 = true ↔
    ∃ es, Entries p es ∧ ∀ e ∈ es, Fits peerCid origDcid fromServer e := by
  induction n generalizing p l with
  | zero =>
    obtain rfl := List.length_eq_zero_iff.1 (Nat.le_zero.1 hn)
    exact ⟨fun _ => ⟨[], .nil, nofun⟩, fun _ => rfl⟩
  | succ n ih =>
    by_cases hnil : p = []
    · subst hnil
      exact ⟨fun _ => ⟨[], .nil, nofun⟩, fun _ => rfl⟩
    · rw [takeParams_succ n hnil]
      cases hnext : nextParam p with
      | none =>
        refine ⟨nofun, fun ⟨es, hes, _⟩ => ?_⟩
        cases hes with
        | nil => exact absurd rfl hnil
        | cons h _ => cases hnext.symm.trans h
      | some r =>
        obtain ⟨id, val, rest⟩ := r
        have hfits := @takeParam_isSome peerCid origDcid fromServer l (id, val)
        have hlt := nextParam_length hnext
        dsimp only at hfits ⊢
        -- a sequence has the same first parameter
        have hsplit : (∃ es, Entries p es ∧ ∀ e ∈ es, Fits peerCid origDcid fromServer e) ↔
            Fits peerCid origDcid fromServer (id, val) ∧
              ∃ es, Entries rest es ∧ ∀ e ∈ es, Fits peerCid origDcid fromServer e := by
          constructor
          · rintro ⟨es, hes, hall⟩
            cases hes with
            | nil => exact absurd rfl hnil
            | cons h hes =>
              cases hnext.symm.trans h
              exact ⟨hall _ List.mem_cons_self, _, hes, fun e he => hall e (List.mem_cons_of_mem _ he)⟩
          · rintro ⟨hfit, es, hes, hall⟩
            refine ⟨_, .cons hnext hes, fun e he => ?_⟩
            rcases List.mem_cons.1 he with rfl | he
            · exact hfit
            · exact hall e he
        rw [hsplit, ← hfits]
        cases takeParam peerCid origDcid fromServer id val l with
        | none => exact ⟨nofun, fun h => nomatch h.1⟩
        | some l' => exact (ih (by omega)).trans ⟨fun h => ⟨rfl, h⟩, fun h => h.2⟩

/-- The block lists the connection id of its sender, and that of a server also the one that its client has used
first. -/
def ListsIds (fromServer : Bool) (es : List (ℕ × Bytes)) : Prop :=
  0x0f ∈ es.map Prod.fst ∧ (fromServer = true → 0x00 ∈ es.map Prod.fst)

/-- A block authenticates the connection ids if it is accepted, just when it lists them or cannot be accepted because a
parameter does not fit; and what the peer puts together for these ids is accepted, and its limits are taken. -/
theorem takeParams_authentic (c : Conn) (fromServer : Bool) :
    (∀ p, ((Conn.takeParams fromServer p c).1 = some () → ∃ es, Entries p es ∧ (0x0f, c.peerCid) ∈ es ∧
        (fromServer = true → (0x00, c.origDcid) ∈ es)) ↔
      ∀ es, Entries p es → (∀ e ∈ es, Fits c.peerCid c.origDcid fromServer e) → ListsIds fromServer es) ∧
    (c.peerCid.length = cidLen → c.origDcid.length = cidLen →
      Conn.takeParams fromServer (putParams c.peerCid (if fromServer then some c.origDcid else none)) c =
        (some (), { c with peerBidiLocal := flow, peerBidiRemote := flow, sawParams := true })) := by
  have haccept (p : Bytes) : (Conn.takeParams fromServer p c).1 = some () ↔
      ∃ es, Entries p es ∧ ∀ e ∈ es, Fits c.peerCid c.origDcid fromServer e := by
    rw [← takeParams_fst (l := ⟨c.peerBidiLocal, c.peerBidiRemote⟩) (Nat.le_refl p.length)]
    unfold Conn.takeParams
    rw [Prog.get_bind, Prog.modify_bind]
    generalize takeParams c.peerCid c.origDcid fromServer p.length p ⟨c.peerBidiLocal, c.peerBidiRemote⟩ = r
    by_cases hr : r.1 = true
    · rw [Prog.require_bind hr]
      exact ⟨fun _ => hr, fun _ => rfl⟩
    · rw [bind_apply, Prog.require, if_neg hr]
      exact ⟨(by cases ·), fun h => absurd h hr⟩
  -- an id that fits is the one of the connection
  have hids {es : List (ℕ × Bytes)} (hfits : ∀ e ∈ es, Fits c.peerCid c.origDcid fromServer e)
      (hlist : ListsIds fromServer es) :
      (0x0f, c.peerCid) ∈ es ∧ (fromServer = true → (0x00, c.origDcid) ∈ es) := by
    refine ⟨?_, fun hserver => ?_⟩
    · obtain ⟨⟨_, val⟩, he, rfl⟩ := List.mem_map.1 hlist.1
      exact ((hfits _ he).2.1 rfl).2 ▸ he
    · obtain ⟨⟨_, val⟩, he, rfl⟩ := List.mem_map.1 (hlist.2 hserver)
      exact ((hfits _ he).2.2 rfl hserver).2 ▸ he
  refine ⟨fun p => ⟨fun h es hes hfits => ?_, fun h haccepted => ?_⟩, fun hcid horig => ?_⟩
  · obtain ⟨es', hes', hpeer, horig⟩ := h ((haccept p).2 ⟨es, hes, hfits⟩)
    rw [hes'.unique hes] at hpeer horig
    exact ⟨List.mem_map_of_mem hpeer, fun hserver => List.mem_map_of_mem (horig hserver)⟩
  · obtain ⟨es, hes, hfits⟩ := (haccept p).1 haccepted
    exact ⟨es, hes, hids hfits (h es hes hfits)⟩
  · refine conn_takeParams hcid fun o ho => ?_
    split at ho
    next hserver =>
      cases ho
      exact ⟨rfl, horig, hserver⟩
    next => cases ho

theorem takeParams_authentic_plain :
    Entries (putParams (List.replicate 8 0) none) [(4, varint flow), (5, varint flow), (6, varint flow), (8, varint 4),
      (1, varint 30000), (0x0f, List.replicate 8 0)] ∧
    (∃ es, Entries (putParams (List.replicate 8 0) none) es ∧ (0x0f, plainServer.peerCid) ∈ es) ∧
    plainServer.peerCid.length = cidLen ∧ plainServer.origDcid.length = cidLen ∧
    Conn.takeParams false (putParams plainServer.peerCid none) plainServer =
      (some (), { plainServer with peerBidiLocal := flow, peerBidiRemote := flow, sawParams := true }) := by
  have hentries : Entries (putParams (List.replicate 8 0) none) [(4, varint flow), (5, varint flow), (6, varint flow),
      (8, varint 4), (1, varint 30000), (0x0f, List.replicate 8 0)] :=
    .cons rfl (.cons rfl (.cons rfl (.cons rfl (.cons rfl (.cons rfl .nil)))))
  have hauthentic := takeParams_authentic plainServer false
  have htake := hauthentic.2 rfl rfl
  obtain ⟨es, hes, hpeer, -⟩ := (hauthentic.1 (putParams plainServer.peerCid none)).2
    (fun es hes _ => hes.unique hentries ▸ ⟨by decide, nofun⟩) (congrArg Prod.fst htake)
  exact ⟨hentries, ⟨es, hes, hpeer⟩, rfl, rfl, htake⟩

/-- An empty block is accepted. -/
theorem takeParams_empty : (Conn.takeParams true [] plainServer).1 = some () ∧ Entries [] [] ∧
    ¬ ∃ es, Entries [] es ∧ (0x0f, plainServer.peerCid) ∈ es ∧ (0x00, plainServer.origDcid) ∈ es := by
  refine ⟨rfl, .nil, ?_⟩
  rintro ⟨es, hes, hmem, -⟩
  rw [hes.unique .nil] at hmem
  cases hmem

end Suspenders.Quic
