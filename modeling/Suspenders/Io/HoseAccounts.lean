import Mathlib
import Suspenders.Io.HoseOwners

/-!
# The accounts of descriptors

What a part of a call does to descriptors, connections and hoses is one of few effects (`Effect`), and each of them
keeps the accounts.

In every run of tidy calls a descriptor has one owner, none is closed twice, and nothing is left when all hoses are
closed (`hoses_accounted`).  A hose that is opened again before it is closed loses its descriptor for good
(`reopen_leaks`).
-/

namespace Suspenders.Hoses

open Lib (Bytes Prog Accounted Run Reachable Restrict)
open Lib.Prog
open Lib.Scanf (CInt)
open Io

/-! ## The accounts -/

section Accounts

variable {base : Finset ℕ} {s t u : Sys} {x : Hose} {p : Pc} {a b c h : ℕ} {o : Outcomes}

lemma Sys.owns_congr {w : Owner} (hhose : ∀ g, w = .hose g → (t.hose g).owned = (s.hose g).owned)
    (hconn : ∀ c, w = .conn c → (t.conns c).bind QuicConn.owned = (s.conns c).bind QuicConn.owned) :
    t.owns w = s.owns w := by
  cases w with
  | hose g => exact hhose g rfl
  | conn c => exact hconn c rfl

lemma Sys.holds_congr {w : Holder} (hhose : ∀ g, w = .hose g → (t.hose g).priv = (s.hose g).priv)
    (hpc : ∀ a, w = .call a → (t.pc a).conn = (s.pc a).conn) : t.holds w = s.holds w := by
  cases w with
  | hose g => exact hhose g rfl
  | call a => exact hpc a rfl

lemma Sys.exec_eq (s : Sys) (a : ℕ) (y : Prog Sys Pc) : s.exec a y = (y s).2.setPc a ((y s).1.getD .idle) := by
  unfold Sys.exec
  rcases y s with ⟨- | p, t⟩ <;> rfl

lemma Hose.Vacant.owned_eq (hx : x.Vacant) : x.owned = none := Hose.owned_of_fd hx.1

lemma Hose.Shut.sound (hx : x.Shut) : x.Sound := .of_fd hx.fd hx.priv hx.listener

/-- A call that does not wait has no connection and needs no hose. -/
lemma Pc.idle_needs : ¬ Pc.idle.Needs h := by
  rintro (hg | hg) <;> exact hg

/-- `s_quic_conn_free` after the descriptor of the connection, if it has one of its own, is closed. -/
def Sys.dropConn (c : ℕ) (y : QuicConn) (s : Sys) : Sys := (s.closeFd y.owned).freeConn c

/-- What a part of a call is about. -/
inductive Subject
  | none
  /-- It changes the hose. -/
  | change (h : ℕ)
  /-- It begins to read or to write the hose. -/
  | read (h : ℕ)

/-- What a part of a call does, and the state afterwards. -/
inductive Effect (s : Sys) (a : ℕ) : Subject → Sys → Prop
  /-- The call waits again, or returns, and nothing else changes. -/
  | moves {p : Pc} : (s.pc a).conn = p.conn → s.Held p → (∀ b g, b ≠ a → p.Takes g → ¬ (s.pc b).Needs g) →
      (∀ b g, b ≠ a → p.Listens g → ¬ (s.pc b).Takes g) → (s.Uses (s.pc a) → s.Uses p) →
      (∀ g, p.Reads g → (s.pc a).Reads g) → (∀ g, p.Takes g → (s.pc a).Takes g ∨ (s.hose g).Vacant) →
      (∀ g c, s.pc a ≠ .driving g c) → Effect s a .none (s.setPc a p)
  /-- A read or a write waits. -/
  | reads {h : ℕ} {fd c : Option ℕ} : s.pc a = .idle → s.Uses (.inUse h fd c) →
      Effect s a (.read h) (s.setPc a (.inUse h fd c))
  /-- The last frame of a connection is sent before its hose is closed. -/
  | closing {h c : ℕ} : s.pc a = .idle → (s.hose h).priv = some c → (∀ b c, s.pc b ≠ .closing h c) →
      Effect s a (.change h) (s.setPc a (.closing h c))
  /-- A hose changes that keeps what it owns. -/
  | kept {h : ℕ} {x : Hose} : (s.pc a).conn = none → (∀ b, b ≠ a → ¬ (s.pc b).Needs h) → x.Sound →
      x.owned = (s.hose h).owned → x.priv = (s.hose h).priv → (s.hose h).roles.listener = false →
      (∀ fd, x.fd = some fd → x.owned = some fd ∨ fd < 3) → Effect s a (.change h) ((s.setHose h x).setPc a .idle)
  /-- A hose gets a socket, which may not be connected yet. -/
  | got {h fd : ℕ} {x : Hose} {p : Pc} : (s.hose h).Vacant → (s.pc a).conn = none →
      (∀ b, b ≠ a → ¬ (s.pc b).Needs h) → fd ∉ s.fds → x.fd = some fd → x.owned = some fd → x.Sound → x.priv = none →
      (p = .idle ∨ p = .connecting h (some fd) ∧ x.Socket ∧ x.roles.listener = false) →
      Effect s a (.change h) (({ s.setHose h x with fds := insert fd s.fds } : Sys).setPc a p)
  /-- A hose gets a socket that belongs to a new connection. -/
  | driving {h fd c : ℕ} {x : Hose} : (s.hose h).Vacant → s.pc a = .idle → (∀ b, ¬ (s.pc b).Needs h) → fd ∉ s.fds →
      x.fd = some fd → x.Plain .quic → s.conns c = none →
      Effect s a (.change h)
        ((({ s.setHose h x with fds := insert fd s.fds } : Sys).setConn c (some ⟨some fd, true⟩)).setPc a
          (.driving h c))
  /-- A listener makes a connection. -/
  | alloc {l client c : ℕ} : s.pc a = .idle → (s.hose client).Vacant → (∀ b, ¬ (s.pc b).Needs client) →
      (s.hose l).transport = some .quic → (s.hose l).roles.listener = true → s.conns c = none →
      Effect s a .none ((s.setConn c (some ⟨(s.hose l).fd, false⟩)).setPc a (.receiving l client c (s.hose l).fd))
  /-- The connection of a call gets into a hose. -/
  | filled {h c : ℕ} {x : Hose} : (s.pc a).Takes h → (s.pc a).conn = some c → (s.hose h).owned = none →
      (s.hose h).priv = none → (∀ b, b ≠ a → ¬ (s.pc b).Needs h) →
      (s.hose h).roles.listener = false → x.transport = some .quic →
      x.priv = some c → x.roles.listener = false →
      (s.Uses (s.pc a) → ∃ fd y, x.fd = some fd ∧ s.conns c = some y ∧ y.fd = some fd) →
      Effect s a (.change h) ((s.setHose h x).setPc a .idle)
  /-- A hose without a connection is closed, and its own descriptor with it. -/
  | shut {h : ℕ} {x : Hose} : x.Shut → x.transport = (s.hose h).transport → (s.hose h).priv = none →
      (s.pc a).conn = none → (∀ b c, b ≠ a → s.pc b ≠ .closing h c) →
      Effect s a (.change h) (((s.closeFd (s.hose h).owned).setHose h x).setPc a .idle)
  /-- A call gives up its connection. -/
  | givesUp {h c : ℕ} {y : QuicConn} {x : Hose} : (s.pc a).Takes h → s.conns c = some y → (s.pc a).conn = some c →
      (∀ b, b ≠ a → ¬ (s.pc b).Needs h) → (s.hose h).roles.listener = false → x.Shut → (s.hose h).owned = none →
      (s.hose h).priv = none → Effect s a (.change h) (((s.dropConn c y).setHose h x).setPc a .idle)
  /-- A hose is closed with its connection. -/
  | shutConn {h c : ℕ} {y : QuicConn} {x : Hose} : s.conns c = some y → (s.hose h).priv = some c →
      (s.pc a).conn = none → x.Shut → x.transport = (s.hose h).transport →
      (∀ b c, b ≠ a → s.pc b ≠ .closing h c) →
      Effect s a (.change h) (((s.dropConn c y).setHose h x).setPc a .idle)

/-- The other calls do not need the hose that a call opens or closes. -/
lemma Sys.Inv.not_needs (hs : s.Inv base) (ha : (s.pc a).Takes h) {b : ℕ} (hb : b ≠ a) : ¬ (s.pc b).Needs h :=
  fun hn => hb (hs.apart ha hn).symm

/-- A hose that a call opens or closes does not listen. -/
lemma Sys.Inv.taken_listener (hs : s.Inv base) (ha : (s.pc a).Takes h) : (s.hose h).roles.listener = false := by
  have hheld := hs.held a
  cases hp : s.pc a with
  | idle => rw [hp] at ha; exact ha.elim
  | inUse => rw [hp] at ha; exact ha.elim
  | connecting g fd =>
    rw [hp] at ha hheld
    obtain rfl : g = h := ha
    exact hheld.2
  | driving g c =>
    rw [hp] at ha hheld
    obtain rfl : g = h := ha
    exact hheld.2.2.1
  | accepting l client fd =>
    rw [hp] at ha hheld
    obtain rfl : client = h := ha
    exact (hs.sound client).not_listener hheld.2.2
  | receiving l client c fd =>
    rw [hp] at ha hheld
    obtain rfl : client = h := ha
    exact (hs.sound client).not_listener hheld.2.2.2.1
  | greeting l client c =>
    rw [hp] at ha hheld
    obtain rfl : client = h := ha
    exact (hs.sound client).not_listener hheld.2.2.2.1
  | closing g c =>
    rw [hp] at ha hheld
    obtain rfl : g = h := ha
    exact ((hs.sound g).priv (by rw [show (s.hose g).priv = some c from hheld]; simp)).2

/-- The hose of a call changes, and no descriptor and no connection is gained or lost by it. -/
lemma Sys.Inv.kept (hs : s.Inv base) (hp : (s.pc a).conn = none) (hneeds : ∀ b, b ≠ a → ¬ (s.pc b).Needs h)
    (hx : x.Sound) (howned : x.owned = (s.hose h).owned) (hpriv : x.priv = (s.hose h).priv) :
    ((s.setHose h x).setPc a .idle).Inv base := by
  have hhose {g : ℕ} (hg : g ≠ h) : ((s.setHose h x).setPc a .idle).hose g = s.hose g := Function.update_of_ne hg ..
  have hself : ((s.setHose h x).setPc a .idle).hose h = x := Function.update_self ..
  have hpc : ((s.setHose h x).setPc a .idle).pc = Function.update s.pc a .idle := rfl
  refine hs.after (h := h) (a := a) (p := .idle) ?_ ?_ (fun g hg => hhose hg) (by rwa [hself]) hpc (fun _ _ _ _ => rfl)
    hneeds trivial (fun g hg => hg.elim) (fun g hg => hg.elim) rfl
  · refine hs.fds.congr (fun _ => Iff.rfl) fun w => Sys.owns_congr (fun g _ => ?_) fun _ _ => rfl
    by_cases hg : g = h
    · rw [hg, hself, howned]
    · rw [hhose hg]
  · refine hs.conns.congr (fun _ => Iff.rfl) fun w => Sys.holds_congr (fun g _ => ?_) fun b _ => ?_
    · by_cases hg : g = h
      · rw [hg, hself, hpriv]
      · rw [hhose hg]
    · rw [hpc]
      by_cases hb : b = a
      · rw [hb, Function.update_self, hp]
        rfl
      · rw [Function.update_of_ne hb]

/-- The hose of a call gets a new socket. -/
lemma Sys.Inv.got {fd : ℕ} (hs : s.Inv base) (hv : (s.hose h).Vacant) (hp : (s.pc a).conn = none)
    (hneeds : ∀ b, b ≠ a → ¬ (s.pc b).Needs h) (hfree : fd ∉ s.fds) (howned : x.owned = some fd) (hsound : x.Sound)
    (hpriv : x.priv = none) (hconn : p.conn = none)
    (hheld : ({ s.setHose h x with fds := insert fd s.fds } : Sys).Held p) (htakes : ∀ g, p.Takes g → g = h)
    (hlistens : ∀ g, ¬ p.Listens g) : (({ s.setHose h x with fds := insert fd s.fds } : Sys).setPc a p).Inv base := by
  have hhose {g : ℕ} (hg : g ≠ h) : ({ s.setHose h x with fds := insert fd s.fds }.setPc a p).hose g = s.hose g :=
    Function.update_of_ne hg ..
  have hself : ({ s.setHose h x with fds := insert fd s.fds }.setPc a p).hose h = x := Function.update_self ..
  refine hs.after (h := h) (a := a) (p := p) ?_ ?_ (fun g hg => hhose hg) (by rwa [hself]) rfl (fun _ _ _ _ => rfl)
    hneeds ?_ htakes (fun g hg => absurd hg (hlistens g)) rfl
  · refine hs.fds.acquire (o := .hose h) (r := fd) hfree (fun q => Finset.mem_insert) hv.owned_eq ?_ fun w hw => ?_
    · exact (congrArg Hose.owned hself).trans howned
    · refine Sys.owns_congr (fun g hg => ?_) fun _ _ => rfl
      rw [hhose fun heq => hw (heq ▸ hg)]
  · refine hs.conns.congr (fun _ => Iff.rfl) fun w => Sys.holds_congr (fun g _ => ?_) fun b _ => ?_
    · by_cases hg : g = h
      · rw [hg, hself, hpriv, hv.2]
      · rw [hhose hg]
    · by_cases hb : b = a
      · rw [hb, hp]
        exact (congrArg Pc.conn (Function.update_self ..)).trans hconn
      · exact congrArg Pc.conn (Function.update_of_ne hb ..)
  · exact hheld

/-- A call that has opened a socket for a connection. -/
lemma Sys.Inv.driving {fd : ℕ} (hs : s.Inv base) (hv : (s.hose h).Vacant) (hidle : s.pc a = .idle)
    (hneeds : ∀ b, ¬ (s.pc b).Needs h) (hfree : fd ∉ s.fds) (hx : x.Plain .quic) (hc : s.conns c = none) :
    ((({ s.setHose h x with fds := insert fd s.fds } : Sys).setConn c (some ⟨some fd, true⟩)).setPc a
      (.driving h c)).Inv base := by
  have howned : x.owned = none := by simp [Hose.owned, hx.transport, hx.listener]
  have hsound : x.Sound :=
    ⟨fun hp => absurd hx.priv hp, fun hl => absurd (hx.listener.symm.trans hl) Bool.false_ne_true,
      fun ht => by rw [hx.transport] at ht; cases ht⟩
  generalize hu :
    ({ s.setHose h x with fds := insert fd s.fds }.setConn c (some ⟨some fd, true⟩)).setPc a (.driving h c) = u
  have hhose {g : ℕ} (hg : g ≠ h) : u.hose g = s.hose g := by
    subst hu
    exact Function.update_of_ne hg ..
  have hself : u.hose h = x := by
    subst hu
    exact Function.update_self ..
  have hconn : u.conns c = some ⟨some fd, true⟩ := by
    subst hu
    exact Function.update_self ..
  have hconns {d : ℕ} (hd : d ≠ c) : u.conns d = s.conns d := by
    subst hu
    exact Function.update_of_ne hd ..
  have hpc : u.pc = Function.update s.pc a (.driving h c) := by
    subst hu
    rfl
  have hmem (q : ℕ) : q ∈ u.fds ↔ q = fd ∨ q ∈ s.fds := by
    subst hu
    exact Finset.mem_insert
  refine hs.after (h := h) (a := a) (p := .driving h c) ?_ ?_ (fun g hg => hhose hg) (by rwa [hself]) hpc ?_
    (fun b _ => hneeds b) ?_ (fun g hg => Eq.symm hg) (fun g hg => hg.elim) (by subst hu; rfl)
  · refine hs.fds.acquire (o := .conn c) (r := fd) hfree hmem ?_ ?_ fun w hw => ?_
    · simp [Sys.owns, hc]
    · simp [Sys.owns, hconn, QuicConn.owned]
    · refine Sys.owns_congr (fun g _ => ?_) fun d hd => by rw [hconns fun heq => hw (heq ▸ hd)]
      by_cases hg : g = h
      · rw [hg, hself, howned, hv.owned_eq]
      · rw [hhose hg]
  · refine hs.conns.acquire (o := .call a) (r := c) (fun hne => hne hc) (fun d => ?_) ?_ ?_ fun w hw => ?_
    · by_cases hd : d = c
      · simp [hd, hconn]
      · simp [hd, hconns hd]
    · simp [Sys.holds, hidle, Pc.conn]
    · simp [Sys.holds, hpc, Pc.conn]
    · refine Sys.holds_congr (fun g _ => ?_) fun b hb => ?_
      · by_cases hg : g = h
        · rw [hg, hself, hx.priv, hv.2]
        · rw [hhose hg]
      · rw [hpc, Function.update_of_ne fun heq => hw (hb.trans (congrArg Holder.call heq))]
  · intro b _ d hd
    refine hconns fun heq => ?_
    exact hs.conns.ne_of_not_used (fun hne => hne hc) (.call b) (heq ▸ hd)
  · exact ⟨by rw [hself, hx.transport], by rw [hself, hx.priv], by rw [hself, hx.listener], some fd, hconn⟩

/-- A listener makes a connection. -/
lemma Sys.Inv.alloc {l client : ℕ} (hs : s.Inv base) (hidle : s.pc a = .idle) (hv : (s.hose client).Vacant)
    (hneeds : ∀ b, ¬ (s.pc b).Needs client) (htr : (s.hose l).transport = some .quic)
    (hl : (s.hose l).roles.listener = true) (hfree : s.conns c = none) :
    ((s.setConn c (some ⟨(s.hose l).fd, false⟩)).setPc a (.receiving l client c (s.hose l).fd)).Inv base := by
  have hnone : (s.pc a).conn = none := by
    rw [hidle]
    rfl
  generalize hu : (s.setConn c (some ⟨(s.hose l).fd, false⟩)).setPc a (.receiving l client c (s.hose l).fd) = u
  have hconn : u.conns c = some ⟨(s.hose l).fd, false⟩ := by
    subst hu
    exact Function.update_self ..
  have hconns {d : ℕ} (hd : d ≠ c) : u.conns d = s.conns d := by
    subst hu
    exact Function.update_of_ne hd ..
  have hpc : u.pc = Function.update s.pc a (.receiving l client c (s.hose l).fd) := by
    subst hu
    rfl
  have hhose : u.hose = s.hose := by
    subst hu
    rfl
  refine hs.after (h := client) (a := a) (p := .receiving l client c (s.hose l).fd) ?_ ?_
    (fun g _ => congrFun hhose g) (by rw [hhose]; exact hs.sound client) hpc (fun b _ d hd => ?_) (fun b _ => hneeds b)
    ?_ (fun g hg => Eq.symm hg) (fun g hg b _ ht => ?_) (by subst hu; rfl)
  · refine hs.fds.congr (fun q => by subst hu; exact Iff.rfl) fun w =>
      Sys.owns_congr (fun g _ => by rw [hhose]) fun d _ => ?_
    by_cases hd : d = c
    · simp [hd, hconn, hfree, QuicConn.owned]
    · rw [hconns hd]
  · refine hs.conns.acquire (o := .call a) (r := c) (fun hne => hne hfree) (fun d => ?_) hnone ?_ fun w hw => ?_
    · by_cases hd : d = c
      · simp [hd, hconn]
      · simp [hd, hconns hd]
    · simp [Sys.holds, hpc, Pc.conn]
    · refine Sys.holds_congr (fun g _ => by rw [hhose]) fun b hb => ?_
      rw [hpc, Function.update_of_ne fun heq => hw (hb.trans (congrArg Holder.call heq))]
  · exact hconns fun heq => hs.conns.ne_of_not_used (fun hne => hne hfree) (.call b) (heq ▸ hd)
  · have hpriv : (s.hose l).priv = none := by
      by_contra hp
      exact Bool.false_ne_true (((hs.sound l).priv hp).2.symm.trans hl)
    have hne : l ≠ client := by
      rintro rfl
      exact Bool.false_ne_true (((hs.sound l).not_listener hv).symm.trans hl)
    exact ⟨by rw [hhose]; exact htr, by rw [hhose]; exact hpriv, hne, by rw [hhose]; exact hv, _, hconn⟩
  · obtain rfl : l = g := hg
    exact Bool.false_ne_true ((hs.taken_listener ht).symm.trans hl)

/-- A call goes on to the next wait, or returns, and leaves everything as it is. -/
lemma Sys.Inv.moves (hs : s.Inv base) (hp : (s.pc a).conn = p.conn) (hheld : s.Held p)
    (htakes : ∀ b g, b ≠ a → p.Takes g → ¬ (s.pc b).Needs g)
    (hlistens : ∀ b g, b ≠ a → p.Listens g → ¬ (s.pc b).Takes g) : (s.setPc a p).Inv base := by
  refine hs.go (a := a) (p := p) (hs.fds.congr (fun _ => Iff.rfl) fun _ => rfl) ?_ hs.sound rfl
    (fun b _ => hs.held b) hheld htakes hlistens rfl
  refine hs.conns.congr (fun _ => Iff.rfl) fun w => Sys.holds_congr (fun _ _ => rfl) fun b _ => ?_
  by_cases hb : b = a
  · rw [hb, hp]
    simp [Sys.setPc]
  · exact congrArg Pc.conn (Function.update_of_ne hb ..)

/-- A call puts its connection into its hose. -/
lemma Sys.Inv.filled (hs : s.Inv base) (hp : (s.pc a).conn = some c) (howned : (s.hose h).owned = none)
    (hpriv : (s.hose h).priv = none) (hneeds : ∀ b, b ≠ a → ¬ (s.pc b).Needs h) (htr : x.transport = some .quic)
    (hxp : x.priv = some c) (hxl : x.roles.listener = false) : ((s.setHose h x).setPc a .idle).Inv base := by
  have hself : ((s.setHose h x).setPc a .idle).hose h = x := Function.update_self ..
  have hother {g : ℕ} (hg : g ≠ h) : ((s.setHose h x).setPc a .idle).hose g = s.hose g := Function.update_of_ne hg ..
  refine hs.after (h := h) (a := a) (p := .idle) ?_ ?_ (fun g hg => hother hg) ?_ rfl (fun _ _ _ _ => rfl) hneeds
    trivial (fun g hg => hg.elim) (fun g hg => hg.elim) rfl
  · refine hs.fds.congr (fun _ => Iff.rfl) fun w => Sys.owns_congr (fun g _ => ?_) fun _ _ => rfl
    by_cases hg : g = h
    · rw [hg, hself, howned]
      simp [Hose.owned, htr, hxl]
    · rw [hother hg]
  · refine hs.conns.pass (o := .call a) (p := .hose h) (r := c) (by rintro ⟨⟩) hp hpriv ?_ ?_ fun w hwa hwh => ?_
    · simp [Sys.holds, Sys.setPc, Pc.conn]
    · rw [Sys.holds, hself, hxp]
    · refine Sys.holds_congr (fun g hg => by rw [hother fun heq => hwh (heq ▸ hg)]) fun b hb => ?_
      exact congrArg Pc.conn (Function.update_of_ne (fun heq => hwa (hb.trans (congrArg Holder.call heq))) ..)
  · rw [hself]
    exact ⟨fun _ => ⟨htr, hxl⟩, fun hl => absurd (hxl.symm.trans hl) Bool.false_ne_true,
      fun ht => by rw [htr] at ht; cases ht⟩

/-! ### Closing -/

lemma Sys.mem_closeFd (fd : Option ℕ) (s : Sys) (q : ℕ) : q ∈ (s.closeFd fd).fds ↔ fd ≠ some q ∧ q ∈ s.fds := by
  cases fd with
  | none => simp [Sys.closeFd]
  | some fd => simp [Sys.closeFd, Finset.mem_erase, eq_comm]

/-- What is owned may be closed. -/
lemma Sys.Inv.closeFd_badClose (hs : s.Inv base) (w : Owner) : (s.closeFd (s.owns w)).badClose = s.badClose := by
  cases hw : s.owns w with
  | none => rfl
  | some fd =>
    have hused : fd ∈ s.fds := hs.fds.used_of hw
    simp [Sys.closeFd, hused]

@[simp] lemma Sys.closeFd_none (s : Sys) : s.closeFd none = s := rfl

lemma Sys.closeFd_frame (fd : Option ℕ) (s : Sys) : (s.closeFd fd).conns = s.conns ∧ (s.closeFd fd).hose = s.hose ∧
    (s.closeFd fd).pc = s.pc := by
  cases fd <;> exact ⟨rfl, rfl, rfl⟩

/-- The calls that another hose's close does not disturb. -/
lemma Sys.Held.shut (hp : s.Held p) (hx : x.Shut) (htr : x.transport = (s.hose h).transport)
    (hclosing : ∀ c, p ≠ .closing h c) (hself : t.hose h = x) (hhose : ∀ g, g ≠ h → t.hose g = s.hose g)
    (hconn : ∀ c, p.conn = some c → t.conns c = s.conns c) : t.Held p := by
  have hcases (g : ℕ) : t.hose g = s.hose g ∨ ((t.hose g).Shut ∧ (t.hose g).transport = (s.hose g).transport) := by
    by_cases hg : g = h
    · subst hg
      rw [hself]
      exact .inr ⟨hx, htr⟩
    · exact .inl (hhose g hg)
  have htransport (g : ℕ) : (t.hose g).transport = (s.hose g).transport := by
    rcases hcases g with heq | ⟨-, heq⟩
    · rw [heq]
    · exact heq
  have hsocket {g : ℕ} (hg : (s.hose g).Socket) : (t.hose g).Socket := by
    unfold Hose.Socket
    rw [htransport g]
    exact hg
  have hlistener {g : ℕ} (hg : (s.hose g).roles.listener = false) : (t.hose g).roles.listener = false := by
    rcases hcases g with heq | ⟨hshut, -⟩
    · rw [heq, hg]
    · exact hshut.listener
  have hpriv {g : ℕ} (hg : (s.hose g).priv = none) : (t.hose g).priv = none := by
    rcases hcases g with heq | ⟨hshut, -⟩
    · rw [heq, hg]
    · exact hshut.priv
  have hvacant {g : ℕ} (hg : (s.hose g).Vacant) : (t.hose g).Vacant := by
    rcases hcases g with heq | ⟨hshut, -⟩
    · rw [heq]
      exact hg
    · exact ⟨hshut.fd, hshut.priv⟩
  cases p with
  | idle => trivial
  | inUse => trivial
  | connecting g fd => exact ⟨hsocket hp.1, hlistener hp.2⟩
  | driving g c =>
    obtain ⟨htr, hp, hl, fd, hc⟩ := hp
    exact ⟨(htransport g).trans htr, hpriv hp, hlistener hl, fd, (hconn c rfl).trans hc⟩
  | accepting l client fd =>
    obtain ⟨hl, hne, hv⟩ := hp
    exact ⟨hsocket hl, hne, hvacant hv⟩
  | receiving l client c fd =>
    obtain ⟨htr, hp, hne, hv, d, hc⟩ := hp
    exact ⟨(htransport l).trans htr, hpriv hp, hne, hvacant hv, d, (hconn c rfl).trans hc⟩
  | greeting l client c =>
    obtain ⟨htr, hp, hne, hv, d, hc⟩ := hp
    exact ⟨(htransport l).trans htr, hpriv hp, hne, hvacant hv, d, (hconn c rfl).trans hc⟩
  | closing g c =>
    have hg : g ≠ h := fun heq => hclosing c (by rw [heq])
    exact (congrArg Hose.priv (hhose g hg)).trans hp

/-- A hose without a connection is closed, and its own descriptor with it. -/
lemma Sys.Inv.shut (hs : s.Inv base) (hx : x.Shut) (htr : x.transport = (s.hose h).transport)
    (hpriv : (s.hose h).priv = none) (hp : (s.pc a).conn = none) (hclosing : ∀ b c, b ≠ a → s.pc b ≠ .closing h c) :
    (((s.closeFd (s.hose h).owned).setHose h x).setPc a .idle).Inv base := by
  have hbad : (s.closeFd (s.hose h).owned).badClose = s.badClose := hs.closeFd_badClose (.hose h)
  obtain ⟨hconns, hhoses, hpcs⟩ := s.closeFd_frame (s.hose h).owned
  have hmem := s.mem_closeFd (s.hose h).owned
  generalize s.closeFd (s.hose h).owned = u at hbad hconns hhoses hpcs hmem
  have hhose {g : ℕ} (hg : g ≠ h) : ((u.setHose h x).setPc a .idle).hose g = s.hose g := by
    rw [← hhoses]
    exact Function.update_of_ne hg ..
  have hself : ((u.setHose h x).setPc a .idle).hose h = x := Function.update_self ..
  have hpc : ((u.setHose h x).setPc a .idle).pc = Function.update s.pc a .idle := by
    rw [← hpcs]
    rfl
  refine hs.go (a := a) (p := .idle) ?_ ?_ (fun g => ?_) hpc (fun b hb => ?_) trivial (fun _ _ _ hg => hg.elim)
    (fun _ _ _ hg => hg.elim) hbad
  · refine hs.fds.release (o := .hose h) hmem ?_ fun w hw => ?_
    · exact (congrArg Hose.owned hself).trans (Hose.owned_of_fd hx.fd)
    · refine Sys.owns_congr (fun g hg => ?_) fun c _ => congrArg (Option.bind · QuicConn.owned) (congrFun hconns c)
      rw [hhose fun heq => hw (heq ▸ hg)]
  · refine hs.conns.congr (fun c => ?_) fun w => Sys.holds_congr (fun g _ => ?_) fun b _ => ?_
    · exact not_congr (Eq.congr_left (congrFun hconns c))
    · by_cases hg : g = h
      · rw [hg, hself, hx.priv, hpriv]
      · rw [hhose hg]
    · rw [hpc]
      by_cases hb : b = a
      · rw [hb, Function.update_self, hp]
        rfl
      · rw [Function.update_of_ne hb]
  · by_cases hg : g = h
    · rw [hg, hself]
      exact hx.sound
    · rw [hhose hg]
      exact hs.sound g
  · exact (hs.held b).shut hx htr (fun c => hclosing b c hb) hself (fun g hg => hhose hg) fun c _ => congrFun hconns c

/-- What dropping a connection does. -/
lemma Sys.Inv.dropConn {y : QuicConn} (hs : s.Inv base) (hc : s.conns c = some y) :
    (∀ q, q ∈ (s.dropConn c y).fds ↔ y.owned ≠ some q ∧ q ∈ s.fds) ∧
      (s.dropConn c y).conns = Function.update s.conns c none ∧ (s.dropConn c y).hose = s.hose ∧
      (s.dropConn c y).pc = s.pc ∧ (s.dropConn c y).badClose = s.badClose := by
  obtain ⟨hconns, hhoses, hpcs⟩ := s.closeFd_frame y.owned
  have hbad : (s.closeFd y.owned).badClose = s.badClose := by
    have hw := hs.closeFd_badClose (.conn c)
    rwa [Sys.owns, hc] at hw
  refine ⟨s.mem_closeFd y.owned, ?_, hhoses, hpcs, ?_⟩
  · simp only [Sys.dropConn, Sys.freeConn, hconns]
  · simp [Sys.dropConn, Sys.freeConn, hconns, hbad, hc]

/-- A connection is dropped, by the call that has it or with the hose that it is in. -/
lemma Sys.Inv.dropped {y : QuicConn} {w : Holder} (hs : s.Inv base) (hc : s.conns c = some y) (hw : s.holds w = some c)
    (hfds : t.fds = (s.dropConn c y).fds) (hconns : t.conns = (s.dropConn c y).conns)
    (hhose : ∀ g, g ≠ h → t.hose g = s.hose g) (hsound : (t.hose h).Sound)
    (howned : (t.hose h).owned = (s.hose h).owned) (hpc : t.pc = Function.update s.pc a .idle)
    (hnew : t.holds w = none) (hold : ∀ v, v ≠ w → t.holds v = s.holds v)
    (hother : ∀ b, b ≠ a → t.Held (s.pc b)) (hbad : t.badClose = (s.dropConn c y).badClose) : t.Inv base := by
  obtain ⟨hfds', hconns', -, -, hbad'⟩ := hs.dropConn hc
  rw [hconns'] at hconns
  have hgone : t.conns c = none := by rw [hconns, Function.update_self]
  have hkeep {d : ℕ} (hd : d ≠ c) : t.conns d = s.conns d := by rw [hconns, Function.update_of_ne hd]
  have hhoses (g : ℕ) : (t.hose g).owned = (s.hose g).owned ∧ (t.hose g).Sound := by
    by_cases hg : g = h
    · rw [hg]
      exact ⟨howned, hsound⟩
    · rw [hhose g hg]
      exact ⟨rfl, hs.sound g⟩
  refine hs.go (a := a) (p := .idle) ?_ ?_ (fun g => (hhoses g).2) hpc hother trivial (fun _ _ _ hg => hg.elim)
    (fun _ _ _ hg => hg.elim) (hbad.trans hbad')
  · refine hs.fds.release (o := .conn c) (fun q => ?_) ?_ fun v hv => ?_
    · rw [hfds, hfds' q, Sys.owns, hc]
      rfl
    · simp [Sys.owns, hgone]
    · exact Sys.owns_congr (fun g _ => (hhoses g).1) fun d hd => by rw [hkeep fun heq => hv (heq ▸ hd)]
  · refine hs.conns.release (o := w) (fun d => ?_) hnew hold
    rw [hw]
    by_cases hd : d = c
    · simp [hd, hgone]
    · simp [hkeep hd, Ne.symm hd]

/-- Other calls do not have the connection. -/
lemma Sys.Inv.conn_ne {w : Holder} (hs : s.Inv base) (hw : s.holds w = some c) {b : ℕ} (hb : w ≠ .call b) {d : ℕ}
    (hd : (s.pc b).conn = some d) : d ≠ c := by
  rintro rfl
  exact hb (hs.conns.unique hw hd)

/-- A call that has a connection gives it up. -/
lemma Sys.Inv.give_up {y : QuicConn} (hs : s.Inv base) (hc : s.conns c = some y) (hw : (s.pc a).conn = some c)
    (hneeds : ∀ b, b ≠ a → ¬ (s.pc b).Needs h) (hx : x.Sound) (howned : x.owned = (s.hose h).owned)
    (hpriv : x.priv = (s.hose h).priv) : (((s.dropConn c y).setHose h x).setPc a .idle).Inv base := by
  obtain ⟨-, hconns, hhoses, hpcs, -⟩ := hs.dropConn hc
  have hhose {g : ℕ} (hg : g ≠ h) : (((s.dropConn c y).setHose h x).setPc a .idle).hose g = s.hose g := by
    rw [← hhoses]
    exact Function.update_of_ne hg ..
  have hself : (((s.dropConn c y).setHose h x).setPc a .idle).hose h = x := Function.update_self ..
  have hpc : (((s.dropConn c y).setHose h x).setPc a .idle).pc = Function.update s.pc a .idle := by
    rw [← hpcs]
    rfl
  refine hs.dropped (h := h) (a := a) (w := .call a) hc hw rfl rfl (fun g hg => hhose hg) (by rwa [hself])
    (by rw [hself, howned]) hpc ?_ (fun v hv => ?_) (fun b hb => ?_) rfl
  · rw [Sys.holds, hpc, Function.update_self]
    rfl
  · refine Sys.holds_congr (fun g _ => ?_) fun b hb => ?_
    · by_cases hg : g = h
      · rw [hg, hself, hpriv]
      · rw [hhose hg]
    · rw [hpc, Function.update_of_ne fun heq => hv (hb.trans (congrArg Holder.call heq))]
  · refine (hs.held b).congr (fun g hg => hhose fun heq => hneeds b hb (heq ▸ hg)) fun d hd => ?_
    have hne : d ≠ c := hs.conn_ne (w := .call a) hw (fun heq => hb (by cases heq; rfl)) hd
    exact (congrFun hconns d).trans (Function.update_of_ne hne ..)

/-- A hose is closed with its connection. -/
lemma Sys.Inv.shut_conn {y : QuicConn} (hs : s.Inv base) (hc : s.conns c = some y) (hw : (s.hose h).priv = some c)
    (hp : (s.pc a).conn = none) (hx : x.Shut) (htr : x.transport = (s.hose h).transport)
    (hclosing : ∀ b c, b ≠ a → s.pc b ≠ .closing h c) :
    (((s.dropConn c y).setHose h x).setPc a .idle).Inv base := by
  obtain ⟨-, hconns, hhoses, hpcs, -⟩ := hs.dropConn hc
  have hhose {g : ℕ} (hg : g ≠ h) : (((s.dropConn c y).setHose h x).setPc a .idle).hose g = s.hose g := by
    rw [← hhoses]
    exact Function.update_of_ne hg ..
  have hself : (((s.dropConn c y).setHose h x).setPc a .idle).hose h = x := Function.update_self ..
  have hpc : (((s.dropConn c y).setHose h x).setPc a .idle).pc = Function.update s.pc a .idle := by
    rw [← hpcs]
    rfl
  refine hs.dropped (h := h) (a := a) (w := .hose h) hc hw rfl rfl (fun g hg => hhose hg)
    (by rw [hself]; exact hx.sound) ?_ hpc ?_ (fun v hv => ?_) (fun b hb => ?_) rfl
  · rw [hself, Hose.owned_of_fd hx.fd, (hs.sound h).owned_of_priv (by simp [hw])]
  · rw [Sys.holds, hself, hx.priv]
  · refine Sys.holds_congr (fun g hg => ?_) fun b _ => ?_
    · rw [hhose fun heq => hv (heq ▸ hg)]
    · rw [hpc]
      by_cases hb : b = a
      · rw [hb, Function.update_self, hp]
        rfl
      · rw [Function.update_of_ne hb]
  · refine (hs.held b).shut hx htr (fun c => hclosing b c hb) hself (fun g hg => hhose hg) fun d hd => ?_
    have hdc := hs.conn_ne (w := .hose h) hw (fun heq => by cases heq) hd
    exact (congrFun hconns d).trans (Function.update_of_ne hdc ..)

/-- No call needs a hose with a connection, unless it closes it. -/
lemma Sys.Inv.not_needs_priv (hs : s.Inv base) (hw : (s.hose h).priv ≠ none) (hclosing : ∀ c, s.pc b ≠ .closing h c) :
    ¬ (s.pc b).Needs h := by
  have hheld := hs.held b
  have hsocket (hx : (s.hose h).Socket) : False := hw (hx.priv_eq (hs.sound h))
  rintro (hb | hb)
  · cases hp : s.pc b with
    | idle => rw [hp] at hb; exact hb
    | inUse => rw [hp] at hb; exact hb
    | connecting g fd =>
      rw [hp] at hb hheld
      obtain rfl : g = h := hb
      exact hsocket hheld.1
    | driving g c =>
      rw [hp] at hb hheld
      obtain rfl : g = h := hb
      exact hw hheld.2.1
    | accepting l client fd =>
      rw [hp] at hb hheld
      obtain rfl : client = h := hb
      exact hw hheld.2.2.2
    | receiving l client c fd =>
      rw [hp] at hb hheld
      obtain rfl : client = h := hb
      exact hw hheld.2.2.2.1.2
    | greeting l client c =>
      rw [hp] at hb hheld
      obtain rfl : client = h := hb
      exact hw hheld.2.2.2.1.2
    | closing g c =>
      rw [hp] at hb
      obtain rfl : g = h := hb
      exact hclosing c hp
  · cases hp : s.pc b with
    | accepting l client fd =>
      rw [hp] at hb hheld
      obtain rfl : l = h := hb
      exact hsocket hheld.1
    | receiving l client c fd =>
      rw [hp] at hb hheld
      obtain rfl : l = h := hb
      exact hw hheld.2.1
    | greeting l client c =>
      rw [hp] at hb hheld
      obtain rfl : l = h := hb
      exact hw hheld.2.1
    | _ => rw [hp] at hb; exact hb

/-- Every effect keeps the accounts. -/
lemma Sys.Inv.effect {r : Subject} (hs : s.Inv base) (ht : Effect s a r t) : t.Inv base := by
  cases ht with
  | moves hconn hheld htakes hlistens => exact hs.moves hconn hheld htakes hlistens
  | @reads h fd c hidle =>
    refine hs.moves (by rw [hidle]; rfl) trivial (fun _ _ _ hg => hg.elim) fun _ _ _ hg => hg.elim
  | @closing h c hidle hp hclosing =>
    refine hs.moves (by rw [hidle]; rfl) hp (fun b g _ hg => ?_) fun _ _ _ hg => hg.elim
    obtain rfl : h = g := hg
    exact hs.not_needs_priv (by simp [hp]) (hclosing b)
  | kept hconn hneeds hsound howned hpriv _ _ => exact hs.kept hconn hneeds hsound howned hpriv
  | @got h fd x p hv hconn hneeds hfree hfd howned hsound hpriv hp =>
    rcases hp with rfl | ⟨rfl, hsocket, hlistener⟩
    · exact hs.got hv hconn hneeds hfree howned hsound hpriv rfl trivial (fun _ hg => hg.elim) fun _ hg => hg
    · refine hs.got hv hconn hneeds hfree howned hsound hpriv rfl ?_ (fun _ hg => Eq.symm hg) fun _ hg => hg
      have hself : ({ s.setHose h x with fds := insert fd s.fds } : Sys).hose h = x := Function.update_self ..
      exact ⟨by rwa [hself], by rwa [hself]⟩
  | driving hv hidle hneeds hfree hfd hx hc => exact hs.driving hv hidle hneeds hfree hx hc
  | alloc hidle hv hneeds htr hl hc => exact hs.alloc hidle hv hneeds htr hl hc
  | filled _ hconn howned hpriv hneeds _ htr hxp hxl _ => exact hs.filled hconn howned hpriv hneeds htr hxp hxl
  | shut hx htr hpriv hconn hclosing => exact hs.shut hx htr hpriv hconn hclosing
  | givesUp _ hc hw hneeds _ hx howned hpriv =>
    exact hs.give_up hc hw hneeds hx.sound ((Hose.owned_of_fd hx.fd).trans howned.symm) (hx.priv.trans hpriv.symm)
  | shutConn hc hw hconn hx htr hclosing => exact hs.shut_conn hc hw hconn hx htr hclosing

/-! ### What a call does -/

/-- The effect of a part of a call that changes no hose but `h`. -/
def Affects (s : Sys) (a h : ℕ) (t : Sys) : Prop := Effect s a .none t ∨ Effect s a (.change h) t

/-- A call that has no connection returns. -/
lemma Effect.returns (hp : (s.pc a).conn = none) : Effect s a .none (s.setPc a .idle) := by
  refine .moves hp trivial (fun _ _ _ hg => hg.elim) (fun _ _ _ hg => hg.elim) (fun _ => trivial) (fun _ hg => hg.elim)
    (fun _ hg => hg.elim) fun g c hpc => ?_
  rw [hpc] at hp
  cases hp

/-- A dial or a listen, as far as it gets without waiting. -/
lemma Opened.affects {r : Option Pc} (hx : (s.hose h).Shut) (hidle : s.pc a = .idle) (hneeds : ∀ b, ¬ (s.pc b).Needs h)
    (hfresh : Fresh s o) (ht : Opened h o s r t) : Affects s a h (t.setPc a (r.getD .idle)) := by
  have hv : (s.hose h).Vacant := ⟨hx.fd, hx.priv⟩
  have hconn : (s.pc a).conn = none := by rw [hidle]; rfl
  cases ht with
  | failed ht =>
    obtain ⟨x, hx', rfl⟩ := ht
    refine Or.inr (.kept hconn (fun b _ => hneeds b) hx'.sound (by rw [Hose.owned_of_fd hx'.fd, hv.owned_eq])
      (by rw [hx'.priv, hv.2]) hx.listener fun fd hfd => ?_)
    rw [hx'.fd] at hfd
    cases hfd
  | served ht =>
    obtain ⟨fd, x, -, hfree, hfd, hx', rfl⟩ := ht
    refine Or.inr (.got hv hconn (fun b _ => hneeds b) hfree hfd (hx'.owned.trans hfd) ?_ hx'.priv (.inl rfl))
    exact ⟨fun hp => absurd hx'.priv hp, fun _ => by simp [hfd], fun ht => absurd ht hx'.transport⟩
  | tty ht =>
    obtain ⟨x, ⟨hx', hfd⟩, rfl⟩ := ht
    refine Or.inr (.kept hconn (fun b _ => hneeds b) hx'.sound ?_ (by rw [hx'.priv, hv.2]) hx.listener
      fun fd hfd' => .inr ?_)
    · rw [hv.owned_eq]
      simp [Hose.owned, hx'.transport]
    · obtain ⟨fd', hlt, heq⟩ := hfd
      rw [hfd'] at heq
      cases heq
      exact hlt
  | @connecting _ tr htr ht =>
    obtain ⟨fd, x, ho, hfree, hfd, hx', rfl⟩ := ht
    have hsocket : x.Socket := by
      rcases htr with rfl | rfl
      · exact .inl hx'.transport
      · exact .inr (.inr hx'.transport)
    rw [ho]
    exact Or.inr (.got hv hconn (fun b _ => hneeds b) hfree hfd (hsocket.owned_eq.trans hfd) hx'.sound hx'.priv
      (.inr ⟨rfl, hsocket, hx'.listener⟩))
  | driving hc ht =>
    obtain ⟨fd, x, ho, hfree, hfd, hx', rfl⟩ := ht
    rw [ho]
    exact Or.inr (.driving hv hidle hneeds hfree hfd hx' (hfresh.conn _ hc))

@[simp] lemma fail_apply {α : Type} (s : Sys) : (fail : Prog Sys α) s = (none, s) := rfl

@[simp] lemma onHose_apply (h : ℕ) (f : Hose → Hose) (s : Sys) :
    onHose h f s = (some (), s.setHose h (f (s.hose h))) := rfl

@[simp] lemma dropFd_apply (h : ℕ) (s : Sys) :
    dropFd h s = (some (), (s.closeFd (s.hose h).fd).setHose h { s.hose h with fd := none }) := by
  cases hfd : (s.hose h).fd <;> simp [dropFd, bind_apply, hfd, Sys.closeFd, Sys.setHose]

lemma Sys.Inv.connected {fd : Option ℕ} (hs : s.Inv base) (hpc : s.pc a = .connecting h fd) :
    Affects s a h (s.exec a (connected h o)) := by
  have hheld := hs.held a
  rw [hpc] at hheld
  obtain ⟨hsocket, hlistener⟩ := hheld
  have htakes : (s.pc a).Takes h := by
    rw [hpc]
    rfl
  have hconn : (s.pc a).conn = none := by
    rw [hpc]
    rfl
  have hpriv := hsocket.priv_eq (hs.sound h)
  by_cases hd : o.done = true
  · have hexec : s.exec a (Hoses.connected h o) =
        (s.setHose h { s.hose h with roles := (s.hose h).roles.or dialing }).setPc a .idle := by
      simp [Sys.exec_eq, Hoses.connected, check, addRoles, bind_apply, hd]
    rw [hexec]
    have hsocket' : Hose.Socket { s.hose h with roles := (s.hose h).roles.or dialing } := hsocket
    refine Or.inr (.kept hconn (fun b hb => hs.not_needs htakes hb) ?_
      (hsocket'.owned_eq.trans hsocket.owned_eq.symm) rfl hlistener fun fd hfd => .inl (hsocket'.owned_eq.trans hfd))
    refine ⟨fun hne => absurd hpriv hne, fun hl => ?_, (hs.sound h).transport⟩
    exact absurd hl (by simp [Roles.or, dialing, hlistener])
  · have hexec : s.exec a (Hoses.connected h o) =
        ((s.closeFd (s.hose h).owned).setHose h { s.hose h with fd := none }).setPc a .idle := by
      simp [Sys.exec_eq, Hoses.connected, check, addRoles, bind_apply, hd, hsocket.owned_eq]
    rw [hexec]
    have hshut : Hose.Shut { s.hose h with fd := none } := ⟨rfl, hpriv, hlistener⟩
    refine Or.inr (.shut hshut rfl hpriv hconn fun b c hb hclosing => ?_)
    exact hs.not_needs htakes hb (by rw [hclosing]; exact .inl rfl)

lemma Sys.Inv.driven (hs : s.Inv base) (hpc : s.pc a = .driving h c) : Affects s a h (s.exec a (driven h c o)) := by
  have hheld := hs.held a
  rw [hpc] at hheld
  obtain ⟨htr, hpriv, hlistener, fd, hc⟩ := hheld
  have htakes : (s.pc a).Takes h := by
    rw [hpc]
    rfl
  have hconn : (s.pc a).conn = some c := by
    rw [hpc]
    rfl
  have howned : (s.hose h).owned = none := by simp [Hose.owned, htr, hlistener]
  by_cases hd : o.done = true
  · have hexec : s.exec a (Hoses.driven h c o) = (s.setHose h
        { s.hose h with
          priv := some c, roles := (s.hose h).roles.or dialing, protocol := some .quic }).setPc a .idle := by
      simp [Sys.exec_eq, Hoses.driven, bind_apply, hd]
    rw [hexec]
    refine Or.inr (.filled htakes hconn howned hpriv (fun b hb => hs.not_needs htakes hb) hlistener htr rfl ?_ ?_)
    · simp [Roles.or, dialing, hlistener]
    · rw [hpc]
      rintro ⟨fd', hfd', hc'⟩
      exact ⟨fd', _, hfd', hc', rfl⟩
  · have hexec : s.exec a (Hoses.driven h c o) =
        ((s.dropConn c ⟨fd, true⟩).setHose h { s.hose h with fd := none }).setPc a .idle := by
      have hdrop := s.closeFd_frame fd
      simp [Sys.exec_eq, Hoses.driven, quicFail, bind_apply, hd, hc, Sys.dropConn, QuicConn.owned, Sys.freeConn,
        Sys.setHose, hdrop]
    rw [hexec]
    have hshut : Hose.Shut { s.hose h with fd := none } := ⟨rfl, hpriv, hlistener⟩
    exact Or.inr (.givesUp htakes hc hconn (fun b hb => hs.not_needs htakes hb) hlistener hshut howned hpriv)

lemma Sys.Inv.streamAccepted {l client : ℕ} {fd : Option ℕ} (hs : s.Inv base)
    (hfree : ∀ fd, o.accepted = some fd → fd ∉ s.fds) (hpc : s.pc a = .accepting l client fd) :
    Affects s a client (s.exec a (streamAccepted l client o)) := by
  have hheld := hs.held a
  rw [hpc] at hheld
  obtain ⟨hsocket, -, hv⟩ := hheld
  have htakes : (s.pc a).Takes client := by
    rw [hpc]
    rfl
  have hconn : (s.pc a).conn = none := by
    rw [hpc]
    rfl
  cases hacc : o.accepted with
  | none =>
    have hexec : s.exec a (Hoses.streamAccepted l client o) = s.setPc a .idle := by
      simp [Sys.exec_eq, Hoses.streamAccepted, bind_apply, hacc, ofOption]
    rw [hexec]
    exact Or.inl (.returns hconn)
  | some new =>
    by_cases hn : o.nonblocking = true
    · have hexec : s.exec a (Hoses.streamAccepted l client o) =
          ({ s.setHose client ⟨duplex, (s.hose l).protocol, some new, (s.hose l).transport, none⟩ with
            fds := insert new s.fds } : Sys).setPc a .idle := by
        simp [Sys.exec_eq, Hoses.streamAccepted, bind_apply, hacc, ofOption, hn, Sys.setHose, Hose.blank]
      rw [hexec]
      have hx : Hose.Socket ⟨duplex, (s.hose l).protocol, some new, (s.hose l).transport, none⟩ := hsocket
      refine Or.inr (.got hv hconn (fun b hb => hs.not_needs htakes hb) (hfree new hacc) rfl hx.owned_eq ?_ rfl
        (.inl rfl))
      exact ⟨fun hp => absurd rfl hp, fun _ => by simp, fun ht => absurd ht hx.transport_ne⟩
    · have hexec : s.exec a (Hoses.streamAccepted l client o) = s.setPc a .idle := by
        simp [Sys.exec_eq, Hoses.streamAccepted, bind_apply, hacc, ofOption, hn, Sys.closeFd,
          Finset.erase_insert (hfree new hacc)]
      rw [hexec]
      exact Or.inl (.returns hconn)

lemma Sys.Inv.received {l client : ℕ} {fd : Option ℕ} (hs : s.Inv base) (hpc : s.pc a = .receiving l client c fd) :
    Affects s a client (s.exec a (received l client c o)) := by
  have hheld := hs.held a
  rw [hpc] at hheld
  obtain ⟨htr, hpriv, hne, hv, d, hc⟩ := hheld
  have htakes : (s.pc a).Takes client := by
    rw [hpc]
    rfl
  have hlistens : (s.pc a).Listens l := by
    rw [hpc]
    rfl
  have hconn : (s.pc a).conn = some c := by
    rw [hpc]
    rfl
  by_cases hd : o.done = true
  · have hexec : s.exec a (Hoses.received l client c o) = s.setPc a (.greeting l client c) := by
      simp [Sys.exec_eq, Hoses.received, hd]
    rw [hexec]
    refine Or.inl (.moves hconn ⟨htr, hpriv, hne, hv, d, hc⟩ (fun b g hb hg => ?_) (fun b g hb hg ht => ?_) ?_
      (fun _ hg => hg.elim) (fun g hg => .inl ?_) fun g c' hdriving => by rw [hpc] at hdriving; cases hdriving)
    · obtain rfl : client = g := hg
      exact hs.not_needs htakes hb
    · obtain rfl : l = g := hg
      exact hb (hs.apart ht (.inr hlistens))
    · rw [hpc]
      rintro ⟨hl, hfd, hne, hc⟩
      obtain ⟨fd', hfd'⟩ := Option.ne_none_iff_exists'.mp hne
      exact ⟨hl, fd', hfd.trans hfd', hfd' ▸ hc⟩
    · rw [hpc]
      exact hg
  · have hexec : s.exec a (Hoses.received l client c o) =
        ((s.dropConn c ⟨d, false⟩).setHose client (s.hose client)).setPc a .idle := by
      simp [Sys.exec_eq, Hoses.received, bind_apply, hd, Sys.dropConn, QuicConn.owned, Sys.freeConn, Sys.setHose]
    rw [hexec]
    have hl := (hs.sound client).not_listener hv
    exact Or.inr (.givesUp htakes hc hconn (fun b hb => hs.not_needs htakes hb) hl ⟨hv.1, hv.2, hl⟩ hv.owned_eq hv.2)

lemma Sys.Inv.greeted {l client : ℕ} (hs : s.Inv base) (hpc : s.pc a = .greeting l client c) :
    Affects s a client (s.exec a (greeted l client c o)) := by
  have hheld := hs.held a
  rw [hpc] at hheld
  obtain ⟨htr, -, -, hv, d, hc⟩ := hheld
  have htakes : (s.pc a).Takes client := by
    rw [hpc]
    rfl
  have hconn : (s.pc a).conn = some c := by
    rw [hpc]
    rfl
  have hl := (hs.sound client).not_listener hv
  by_cases hd : o.done = true
  · have hexec : s.exec a (Hoses.greeted l client c o) = (s.setHose client
        ⟨duplex, some .quic, (s.hose l).fd, (s.hose l).transport, some c⟩).setPc a .idle := by
      simp [Sys.exec_eq, Hoses.greeted, bind_apply, hd]
    rw [hexec]
    refine Or.inr (.filled htakes hconn hv.owned_eq hv.2 (fun b hb => hs.not_needs htakes hb) hl htr rfl rfl ?_)
    rw [hpc]
    rintro ⟨-, fd, hfd, hc⟩
    exact ⟨fd, _, hfd, hc, rfl⟩
  · have hexec : s.exec a (Hoses.greeted l client c o) =
        ((s.dropConn c ⟨d, false⟩).setHose client (s.hose client)).setPc a .idle := by
      simp [Sys.exec_eq, Hoses.greeted, bind_apply, hd, Sys.dropConn, QuicConn.owned, Sys.freeConn, Sys.setHose]
    rw [hexec]
    exact Or.inr (.givesUp htakes hc hconn (fun b hb => hs.not_needs htakes hb) hl ⟨hv.1, hv.2, hl⟩ hv.owned_eq hv.2)

/-- A hose that is closed. -/
def Hose.cleared (x : Hose) : Hose := { x with fd := none, roles := .zero, priv := none }

lemma Hose.cleared_shut (x : Hose) : x.cleared.Shut := ⟨rfl, rfl, rfl⟩

lemma Sys.Inv.closed (hs : s.Inv base) (hw : (s.hose h).priv = some c) (hp : (s.pc a).conn = none)
    (hclosing : ∀ b c, b ≠ a → s.pc b ≠ .closing h c) : Affects s a h (s.exec a (closed h c)) := by
  obtain ⟨y, hc⟩ : ∃ y, s.conns c = some y :=
    Option.ne_none_iff_exists'.mp (hs.conns.used_of (show s.holds (.hose h) = some c from hw))
  obtain ⟨hconns, hhose, -⟩ := s.closeFd_frame y.fd
  have hexec : s.exec a (Hoses.closed h c) = ((s.dropConn c y).setHose h (s.hose h).cleared).setPc a .idle := by
    by_cases hy : y.ownsFd = true <;>
      simp [Sys.exec_eq, Hoses.closed, clear, bind_apply, hc, hy, Sys.dropConn, QuicConn.owned, Sys.freeConn,
        Sys.setHose, Hose.cleared, hconns, hhose]
  rw [hexec]
  exact Or.inr (.shutConn hc hw hp (s.hose h).cleared_shut rfl hclosing)

/-- What a coroutine does when it goes on changes no hose but the one that its call opens or closes. -/
lemma Sys.Inv.resume (hs : s.Inv base) (hfree : ∀ fd, o.accepted = some fd → fd ∉ s.fds) (hpc : s.pc a ≠ .idle) :
    Effect s a .none (s.exec a ((s.pc a).prog o)) ∨
      ∃ h, (s.pc a).Takes h ∧ Effect s a (.change h) (s.exec a ((s.pc a).prog o)) := by
  have htake {h : ℕ} {t : Sys} {p : Pc} (ht : Affects s a h t) (hh : p.Takes h) :
      Effect s a .none t ∨ ∃ h, p.Takes h ∧ Effect s a (.change h) t :=
    ht.imp_right fun ht => ⟨h, hh, ht⟩
  cases hp : s.pc a with
  | idle => exact absurd hp hpc
  | connecting h fd => exact htake (hs.connected hp) rfl
  | driving h c => exact htake (hs.driven hp) rfl
  | accepting l client fd => exact htake (hs.streamAccepted hfree hp) rfl
  | receiving l client c fd => exact htake (hs.received hp) rfl
  | greeting l client c => exact htake (hs.greeted hp) rfl
  | closing h c =>
    have hheld := hs.held a
    rw [hp] at hheld
    refine htake (hs.closed hheld (by rw [hp]; rfl) fun b d hb hclosing => ?_) rfl
    exact hs.not_needs (a := a) (h := h) (by rw [hp]; rfl) hb (by rw [hclosing]; exact .inl rfl)
  | inUse h fd c =>
    have hexec : s.exec a (Pc.prog o (.inUse h fd c)) = s.setPc a (if o.done then .idle else .inUse h fd c) := by
      simp [Sys.exec_eq, Pc.prog]
    rw [hexec]
    have hnone : (s.pc a).conn = none := by
      rw [hp]
      rfl
    left
    split_ifs
    · exact .returns hnone
    · refine .moves hnone trivial (fun _ _ _ hg => hg.elim) (fun _ _ _ hg => hg.elim) (fun hu => hp ▸ hu)
        (fun g hg => hp ▸ hg) (fun _ hg => hg.elim) fun g d hd => ?_
      rw [hp] at hd
      cases hd

/-- A dial, a listen or another call that opens the hose. -/
lemma Opens.affects {y : Prog Sys Pc} (hy : Opens h o s (fun t => t = s) y) (hx : (s.hose h).Shut)
    (hidle : s.pc a = .idle) (hneeds : ∀ b, ¬ (s.pc b).Needs h) (hfresh : Fresh s o) : Affects s a h (s.exec a y) := by
  have hspec := hy s rfl
  rw [Sys.exec_eq]
  rcases hr : y s with ⟨- | p, t⟩ <;> rw [hr] at hspec
  · exact hspec.affects hx hidle hneeds hfresh
  · exact hspec.affects hx hidle hneeds hfresh

lemma Sys.Inv.quicAccept {l client : ℕ} (hfresh : Fresh s o) (hidle : s.pc a = .idle) (hv : (s.hose client).Vacant)
    (hneeds : ∀ b, ¬ (s.pc b).Needs client) (htr : (s.hose l).transport = some .quic) :
    Effect s a .none (s.exec a (quicAccept l client (s.hose l) o)) := by
  have hnone : (s.pc a).conn = none := by
    rw [hidle]
    rfl
  by_cases hl : (s.hose l).roles.listener = true
  · cases hc : o.conn with
    | none =>
      have hexec : s.exec a (Hoses.quicAccept l client (s.hose l) o) = s.setPc a .idle := by
        simp [Sys.exec_eq, Hoses.quicAccept, require_of hl, hc, ofOption]
      rw [hexec]
      exact .returns hnone
    | some c =>
      have hfree := hfresh.conn c hc
      by_cases hset : o.setup = true
      · have hexec : s.exec a (Hoses.quicAccept l client (s.hose l) o) =
            (s.setConn c (some ⟨(s.hose l).fd, false⟩)).setPc a (.receiving l client c (s.hose l).fd) := by
          simp [Sys.exec_eq, Hoses.quicAccept, require_of hl, hc, ofOption, hset]
        rw [hexec]
        exact .alloc hidle hv hneeds htr hl hfree
      · have hback : Function.update s.conns c none = s.conns := by rw [← hfree, Function.update_eq_self]
        have hexec : s.exec a (Hoses.quicAccept l client (s.hose l) o) = s.setPc a .idle := by
          simp [Sys.exec_eq, Hoses.quicAccept, require_of hl, hc, ofOption, hset, Sys.setConn, Sys.freeConn, hback]
        rw [hexec]
        exact .returns hnone
  · have hexec : s.exec a (Hoses.quicAccept l client (s.hose l) o) = s.setPc a .idle := by
      simp [Sys.exec_eq, Hoses.quicAccept, require_of_not hl]
    rw [hexec]
    exact .returns hnone

lemma Sys.Inv.accept {l client : ℕ} (hs : s.Inv base) (hfresh : Fresh s o) (hidle : s.pc a = .idle)
    (hv : (s.hose client).Vacant) (hneeds : ∀ b, ¬ (s.pc b).Needs client) :
    Effect s a .none (s.exec a (accept l client o)) := by
  have hnone : (s.pc a).conn = none := by
    rw [hidle]
    rfl
  have hstream (hsocket : (s.hose l).Socket) : Effect s a .none (s.exec a (streamAccept l client (s.hose l))) := by
    by_cases hl : (s.hose l).roles.listener = true ∧ (s.hose l).fd ≠ none
    · have hexec : s.exec a (streamAccept l client (s.hose l)) = s.setPc a (.accepting l client (s.hose l).fd) := by
        simp [Sys.exec_eq, streamAccept, require_of hl]
      rw [hexec]
      -- a hose that listens is open, and no call opens it
      have hne : l ≠ client := fun heq => hl.2 (heq ▸ hv.1)
      refine .moves hnone ⟨hsocket, hne, hv⟩ (fun b g _ hg => ?_) (fun b g _ hg hb => ?_) (fun _ => ⟨rfl, hl.2⟩)
        (fun _ hg => hg.elim) (fun g hg => .inr ?_) fun g c hd => by rw [hidle] at hd; cases hd
      · obtain rfl : client = g := hg
        exact hneeds b
      · obtain rfl : l = g := hg
        exact Bool.false_ne_true ((hs.taken_listener hb).symm.trans hl.1)
      · obtain rfl : client = g := hg
        exact hv
    · have hexec : s.exec a (streamAccept l client (s.hose l)) = s.setPc a .idle := by
        simp [Sys.exec_eq, streamAccept, require_of_not hl]
      rw [hexec]
      exact .returns hnone
  have hfail : Effect s a .none (s.exec a fail) := by
    rw [Sys.exec_eq]
    exact .returns hnone
  have hget {y : Prog Sys Pc} (hy : Hoses.accept l client o s = y s) (ht : Effect s a .none (s.exec a y)) :
      Effect s a .none (s.exec a (Hoses.accept l client o)) := by
    rw [Sys.exec_eq] at ht ⊢
    rwa [hy]
  cases htr : (s.hose l).transport with
  | none => exact hget (by simp [Hoses.accept, htr]) hfail
  | some tr =>
    cases tr with
    | tcp => exact hget (by simp [Hoses.accept, htr]) (hstream (.inl htr))
    | unix => exact hget (by simp [Hoses.accept, htr]) (hstream (.inr (.inr htr)))
    | udp => exact hget (by simp [Hoses.accept, htr]) hfail
    | tty => exact hget (by simp [Hoses.accept, htr]) hfail
    | quic => exact hget (by simp [Hoses.accept, htr]) (Sys.Inv.quicAccept hfresh hidle hv hneeds htr)

lemma Sys.Inv.close (hs : s.Inv base) (hidle : s.pc a = .idle) (hclosing : ∀ b c, s.pc b ≠ .closing h c) :
    Affects s a h (s.exec a (close h o)) := by
  have hnone : (s.pc a).conn = none := by
    rw [hidle]
    rfl
  have hget {y : Prog Sys Pc} (hy : Hoses.close h o s = y s) (ht : Affects s a h (s.exec a y)) :
      Affects s a h (s.exec a (Hoses.close h o)) := by
    rw [Sys.exec_eq] at ht ⊢
    rwa [hy]
  have hpriv (hne : (s.hose h).transport ≠ some .quic) : (s.hose h).priv = none := by
    by_contra hp
    exact hne ((hs.sound h).priv hp).1
  have hshut {y : Prog Sys Pc} (hp : (s.hose h).priv = none) (hexec : s.exec a y =
      ((s.closeFd (s.hose h).owned).setHose h { s.hose h with fd := none, roles := .zero }).setPc a .idle) :
      Affects s a h (s.exec a y) := by
    have hx : Hose.Shut { s.hose h with fd := none, roles := .zero } := ⟨rfl, hp, rfl⟩
    rw [hexec]
    exact Or.inr (.shut hx rfl hp hnone fun b c _ => hclosing b c)
  have hsock (hne : (s.hose h).transport ≠ some .quic) (howned : (s.hose h).owned = (s.hose h).fd) :
      Affects s a h (s.exec a (sockClose h)) :=
    hshut (hpriv hne) (by simp [Sys.exec_eq, sockClose, clear, bind_apply, howned])
  cases htr : (s.hose h).transport with
  | none => exact hget (by simp [Hoses.close, htr]) (hsock (by simp [htr]) (by simp [Hose.owned, htr]))
  | some tr =>
    cases tr with
    | tcp => exact hget (by simp [Hoses.close, htr]) (hsock (by simp [htr]) (by simp [Hose.owned, htr]))
    | udp => exact hget (by simp [Hoses.close, htr]) (hsock (by simp [htr]) (by simp [Hose.owned, htr]))
    | unix => exact hget (by simp [Hoses.close, htr]) (hsock (by simp [htr]) (by simp [Hose.owned, htr]))
    | tty =>
      have howned : (s.hose h).owned = none := by simp [Hose.owned, htr]
      refine hget (y := ttyClose h) (by simp [Hoses.close, htr]) (hshut (hpriv (by simp [htr])) ?_)
      simp [Sys.exec_eq, ttyClose, clear, bind_apply, howned]
    | quic =>
      refine hget (y := quicClose h (s.hose h) o) (by simp [Hoses.close, htr]) ?_
      cases hp : (s.hose h).priv with
      | none =>
        have howned : (if (s.hose h).roles.listener = true then s.closeFd (s.hose h).fd else s) =
            s.closeFd (s.hose h).owned := by
          simp only [Hose.owned, htr]
          split_ifs <;> rfl
        have hhose := (s.closeFd_frame (s.hose h).owned).2.1
        exact hshut hp (by simp [Sys.exec_eq, quicClose, clear, bind_apply, hp, howned, hhose])
      | some c =>
        by_cases happ : o.appReady = true
        · have hexec : s.exec a (quicClose h (s.hose h) o) = s.setPc a (.closing h c) := by
            simp [Sys.exec_eq, quicClose, hp, happ]
          rw [hexec]
          exact Or.inr (.closing hidle hp hclosing)
        · have hexec : s.exec a (quicClose h (s.hose h) o) = s.exec a (Hoses.closed h c) := by
            simp [Sys.exec_eq, quicClose, hp, happ]
          rw [hexec]
          exact hs.closed hp hnone fun b d _ => hclosing b d

/-- A read or a write that does not fail at once waits for I/O. -/
lemma readWrite_waits (h : ℕ) (role : Roles → Bool) (s : Sys) :
    Spec (fun t => t = s) (readWrite h role) (fun p t => t = s ∧ (∃ fd c, p = .inUse h fd c) ∧ s.Uses p)
      (fun t => t = s) := by
  have hsock : Spec (fun t => t = s) (do
      require (role (s.hose h).roles = true ∧ (s.hose h).fd ≠ none)
      return Pc.inUse h (s.hose h).fd none) (fun p t => t = s ∧ (∃ fd c, p = .inUse h fd c) ∧ s.Uses p)
      (fun t => t = s) :=
    Spec.bind (Q := fun _ t => t = s ∧ (s.hose h).fd ≠ none) (Spec.require (fun _ hr ht => ⟨ht, hr.2⟩) fun _ _ ht => ht)
      fun _ => Spec.pure fun t ht => ⟨ht.1, ⟨_, _, rfl⟩, rfl, ht.2⟩
  refine Spec.get_bind_of fun u hu => ?_
  subst hu
  dsimp only
  split
  · exact hsock
  · exact hsock
  · exact hsock
  · refine Spec.ofOption_bind (fun c hc => ?_) fun t ht => ht
    exact Spec.bind (Q := fun _ t => t = u) (Spec.require (fun _ _ ht => ht) fun _ _ ht => ht) fun _ =>
      Spec.pure fun t ht => ⟨ht, ⟨_, _, rfl⟩, hc, rfl⟩
  · exact Spec.fail fun t ht => ht
  · exact Spec.fail fun t ht => ht

/-- A read or a write fails at once, or waits. -/
lemma Effect.of_readWrite (role : Roles → Bool) (hidle : s.pc a = .idle) :
    Effect s a .none (s.exec a (readWrite h role)) ∨ Effect s a (.read h) (s.exec a (readWrite h role)) := by
  have hrun := readWrite_waits h role s s rfl
  rw [Sys.exec_eq]
  rcases hr : readWrite h role s with ⟨- | p, t⟩ <;> rw [hr] at hrun
  · obtain rfl : t = s := hrun
    exact .inl (.returns (by rw [hidle]; rfl))
  · obtain ⟨rfl, ⟨fd, c, rfl⟩, huses⟩ := hrun
    exact .inr (.reads hidle huses)

lemma Sys.useFd_frame (fd : Option ℕ) (s : Sys) : (s.useFd fd).fds = s.fds ∧ (s.useFd fd).conns = s.conns ∧
    (s.useFd fd).hose = s.hose ∧ (s.useFd fd).pc = s.pc ∧ (s.useFd fd).badClose = s.badClose := by
  cases fd <;> exact ⟨rfl, rfl, rfl, rfl, rfl⟩

lemma Sys.useConn_frame (c : ℕ) (s : Sys) : (s.useConn c).fds = s.fds ∧ (s.useConn c).conns = s.conns ∧
    (s.useConn c).hose = s.hose ∧ (s.useConn c).pc = s.pc ∧ (s.useConn c).badClose = s.badClose := by
  unfold Sys.useConn
  split
  · exact ⟨rfl, rfl, rfl, rfl, rfl⟩
  · exact Sys.useFd_frame ..

/-- The state when what the step uses has been used. -/
def Sys.before (s : Sys) : Event → Sys
  | .call _ (.onSocket h) _ => s.useFd (s.hose h).fd
  | .call .. => s
  | .resume a _ => s.touch (s.pc a)

/-- Who takes the step. -/
def Event.ctx : Event → ℕ
  | .call a _ _ | .resume a _ => a

/-- What a step may be about. -/
def Event.About (s : Sys) : Event → Subject → Prop
  | _, .none => True
  | .call _ (.init g) _, .change h | .call _ (.dial g _) _, .change h | .call _ (.listen g _) _, .change h
  | .call _ (.close g) _, .change h | .call _ (.read g) _, .read h | .call _ (.write g) _, .read h => g = h
  | .resume a _, .change h => (s.pc a).Takes h
  | _, _ => False

lemma Sys.touch_frame (p : Pc) (s : Sys) : (s.touch p).fds = s.fds ∧ (s.touch p).conns = s.conns ∧
    (s.touch p).hose = s.hose ∧ (s.touch p).pc = s.pc ∧ (s.touch p).badClose = s.badClose := by
  cases p with
  | idle => exact ⟨rfl, rfl, rfl, rfl, rfl⟩
  | connecting | accepting | receiving => exact Sys.useFd_frame ..
  | driving | greeting | closing => exact Sys.useConn_frame ..
  | inUse h fd c =>
    cases c with
    | none => exact Sys.useFd_frame ..
    | some c =>
      obtain ⟨hfds, hconns, hhose, hpc, hbad⟩ := (s.useFd fd).useConn_frame c
      obtain ⟨hfds', hconns', hhose', hpc', hbad'⟩ := s.useFd_frame fd
      exact ⟨hfds.trans hfds', hconns.trans hconns', hhose.trans hhose', hpc.trans hpc', hbad.trans hbad'⟩

lemma Sys.before_frame (e : Event) (s : Sys) : (s.before e).fds = s.fds ∧ (s.before e).conns = s.conns ∧
    (s.before e).hose = s.hose ∧ (s.before e).pc = s.pc ∧ (s.before e).badClose = s.badClose := by
  cases e with
  | call a k o =>
    cases k with
    | onSocket h => exact Sys.useFd_frame ..
    | _ => exact ⟨rfl, rfl, rfl, rfl, rfl⟩
  | resume a o => exact Sys.touch_frame ..

/-- What a step does. -/
lemma Sys.Inv.step_effect {wide : ℤ → CInt} {e : Event} (hs : s.Inv base) (h : Restrict (Step wide) Tidy s e t) :
    ∃ r, e.About s r ∧ Effect (s.before e) e.ctx r t := by
  obtain ⟨hstep, htidy⟩ := h
  have hshut {h : ℕ} (hv : (s.hose h).Vacant) : (s.hose h).Shut := ⟨hv.1, hv.2, (hs.sound h).not_listener hv⟩
  have hone {e : Event} {u t : Sys} {a h : ℕ} (ht : Affects u a h t) (he : e.About s (.change h)) :
      ∃ r, e.About s r ∧ Effect u a r t := by
    rcases ht with ht | ht
    · exact ⟨.none, trivial, ht⟩
    · exact ⟨.change h, he, ht⟩
  cases hstep with
  | @call a k o hidle hfresh =>
    have hnone : (s.pc a).conn = none := by
      rw [hidle]
      rfl
    cases k with
    | init h =>
      obtain ⟨hv, hneeds⟩ := htidy
      have hexec : s.exec a (Call.prog wide o (.init h)) = (s.setHose h .blank).setPc a .idle := by
        simp [Sys.exec_eq, Call.prog, bind_apply]
      refine ⟨.change h, rfl, ?_⟩
      change Effect s a _ (s.exec a (Call.prog wide o (.init h)))
      rw [hexec]
      exact .kept hnone (fun b _ => hneeds b) (Hose.Shut.sound ⟨rfl, rfl, rfl⟩) hv.owned_eq.symm hv.2.symm
        (hshut hv).listener fun fd hfd => by cases hfd
    | dial h uri =>
      obtain ⟨hv, hneeds⟩ := htidy
      exact hone ((opens_dial hfresh.socket wide uri hfresh.conn (hshut hv)).affects (hshut hv) hidle hneeds hfresh) rfl
    | listen h uri =>
      obtain ⟨hv, hneeds⟩ := htidy
      exact hone ((opens_listen hfresh.socket wide uri (hshut hv)).affects (hshut hv) hidle hneeds hfresh) rfl
    | accept l client => exact ⟨.none, trivial, hs.accept hfresh hidle htidy.1 htidy.2⟩
    | close h => exact hone (hs.close hidle htidy) rfl
    | read h =>
      rcases Effect.of_readWrite (h := h) Roles.reader hidle with ht | ht
      · exact ⟨.none, trivial, ht⟩
      · exact ⟨.read h, rfl, ht⟩
    | write h =>
      rcases Effect.of_readWrite (h := h) Roles.writer hidle with ht | ht
      · exact ⟨.none, trivial, ht⟩
      · exact ⟨.read h, rfl, ht⟩
    | onSocket h =>
      refine ⟨.none, trivial, ?_⟩
      have hexec : s.exec a (Call.prog wide o (.onSocket h)) = (s.useFd (s.hose h).fd).setPc a .idle := by
        by_cases hfd : (s.hose h).fd ≠ none
        · by_cases hd : o.done = true <;>
            simp [Sys.exec_eq, Call.prog, Hoses.onSocket, require, hfd, hd, bind_apply]
        · rw [not_not] at hfd
          simp [Sys.exec_eq, Call.prog, Hoses.onSocket, require, hfd, Sys.useFd]
      change Effect _ a .none (s.exec a (Call.prog wide o (.onSocket h)))
      rw [hexec]
      exact .returns (by rw [(s.before_frame (.call a (.onSocket h) o)).2.2.2.1]; exact hnone)
  | @resume a o hpc hfresh =>
    obtain ⟨hfds, hconns, hhose, hpcs, hbad⟩ := s.touch_frame (s.pc a)
    have hs' : (s.touch (s.pc a)).Inv base := hs.congr hfds hconns hhose hpcs hbad
    have hresume := hs'.resume (a := a) (o := o) (by rw [hfds]; exact hfresh.accepted) (by rwa [hpcs])
    rw [hpcs] at hresume
    rcases hresume with ht | ⟨h, hh, ht⟩
    · exact ⟨.none, trivial, ht⟩
    · exact ⟨.change h, hh, ht⟩

lemma Sys.Inv.step {wide : ℤ → CInt} {e : Event} (hs : s.Inv base)
    (h : Restrict (Step wide) Tidy s e t) : t.Inv base := by
  obtain ⟨r, -, hr⟩ := hs.step_effect h
  obtain ⟨hfds, hconns, hhose, hpc, hbad⟩ := s.before_frame e
  exact (hs.congr hfds hconns hhose hpc hbad).effect hr

lemma Sys.Inv.start (base : Finset ℕ) : (Sys.start base).Inv base := by
  have hnone (w : Holder) : (Sys.start base).holds w = none := by cases w <;> rfl
  refine ⟨.start fun w => by cases w <;> rfl, ?_, fun _ => Hose.Shut.sound ⟨rfl, rfl, rfl⟩, fun _ => trivial,
    fun ha => ha.elim, rfl⟩
  exact (Accounted.start hnone).congr (fun c => by simp [Sys.start]) fun _ => rfl

/-- The system says yes; a new descriptor is `fd`. -/
def granted (fd : ℕ) : Outcomes := ⟨some fd, true, true, true, true, true, true, true, none, true, true, true, none⟩

lemma zero_fits : (-2 ^ 31 : ℤ) ≤ 0 ∧ (0 : ℤ) < 2 ^ 31 := by decide

/-- An `int` for the witnesses below. -/
def zeroInt : ℤ → CInt := fun _ => ⟨0, zero_fits⟩

/-- `"unix://s"` -/
def unixUri : Bytes := unixScheme ++ cstr ['s']

lemma granted_fresh {fd : ℕ} (hfd : fd ∉ s.fds) : Fresh s (granted fd) :=
  ⟨fun _ h => Option.some.inj h ▸ hfd, fun _ h => (Option.some_ne_none _ h.symm).elim,
    fun _ h => (Option.some_ne_none _ h.symm).elim⟩

/-- The state when coroutine 0 dials a socket with hose 0. -/
def unixDialing : Sys :=
  ({ (Sys.start {0, 1, 2}).setHose 0 ⟨.zero, some .unix, some 3, some .unix, none⟩ with
    fds := {3, 0, 1, 2} } : Sys).setPc 0 (.connecting 0 (some 3))

/-- And when it is connected. -/
def unixConnected : Sys :=
  { Sys.start {0, 1, 2} with
    fds := {3, 0, 1, 2}
    hose := Function.update (fun _ => .blank) 0 ⟨dialing, some .unix, some 3, some .unix, none⟩ }

lemma unixDialing_eq :
    (Sys.start {0, 1, 2}).exec 0 (Call.prog zeroInt (granted 3) (.dial 0 unixUri)) = unixDialing := by
  have hdial : hoseDial zeroInt registry unixUri = some (unixOps, .unix, cstr ['s'], ⟨0, by decide⟩) := rfl
  have hproto : (schemes.find? fun s => s.1.isPrefixOf unixUri) = some (unixScheme, .unix) := rfl
  simp [Sys.exec_eq, Call.prog, dial, setProtocol, hdial, hproto, bind_apply, ofOption, unixDial, openSock, require,
    check, granted, Sys.openFd, Sys.setHose, Sys.start, Hose.blank, unixDialing]

lemma unixConnected_eq : (unixDialing.touch (unixDialing.pc 0)).exec 0 (Pc.prog (granted 4) (unixDialing.pc 0)) =
    unixConnected := by
  have hpc : unixDialing.pc 0 = .connecting 0 (some 3) := rfl
  rw [hpc]
  simp [Sys.exec_eq, Pc.prog, connected, check, addRoles, bind_apply, granted, Sys.touch, Sys.useFd, unixDialing,
    unixConnected, Sys.setHose, Sys.setPc, Sys.start, Roles.or, Roles.zero, dialing]

lemma unixDialing_step : Step zeroInt (.start {0, 1, 2}) (.call 0 (.dial 0 unixUri) (granted 3)) unixDialing :=
  unixDialing_eq ▸ .call rfl (granted_fresh (by decide))

lemma unixConnected_step : Step zeroInt unixDialing (.resume 0 (granted 4)) unixConnected :=
  unixConnected_eq ▸ .resume (fun h => by cases h) (granted_fresh (by decide))

lemma unixDialing_tidy : Tidy (.start {0, 1, 2}) (.call 0 (.dial 0 unixUri) (granted 3)) unixDialing :=
  ⟨⟨rfl, rfl⟩, fun _ => Pc.idle_needs⟩

/-- Coroutine 0 dials with hose 0, waits, and is connected. -/
lemma unixConnected_reachable : Reachable (Restrict (Step zeroInt) Tidy) (.start {0, 1, 2}) unixConnected :=
  ⟨_, .cons ⟨unixDialing_step, unixDialing_tidy⟩ <| .cons ⟨unixConnected_step, trivial⟩ <| .nil _⟩

/-! ### Opening a hose again -/

/-- The call initialises, dials or listens with the hose, and does not stop before it gets a new socket. -/
def Call.Reopens (wide : ℤ → CInt) (h : ℕ) : Call → Prop
  | .init g => g = h
  | .dial g uri => g = h ∧ ∃ r, hoseDial wide registry uri = some r ∧ r.2.1 ≠ .quic ∧ r.2.1 ≠ .tty
  | .listen g uri => g = h ∧ ∃ r, hoseListen wide registry uri = some r ∧ r.2.1 ≠ .quic ∧ r.2.1 ≠ .tty
  | _ => False

/-- The state in which the hose has forgotten its descriptor. -/
def Sys.forget (h : ℕ) (s : Sys) : Sys := s.setHose h { s.hose h with fd := none }

lemma Sys.Inv.forget {fd : ℕ} (hs : s.Inv base) (hsocket : (s.hose h).Socket) (hl : (s.hose h).roles.listener = false)
    (hfd : (s.hose h).fd = some fd) (hneeds : ∀ b, ¬ (s.pc b).Needs h) : (s.forget h).Inv (insert fd base) := by
  have hpriv := hsocket.priv_eq (hs.sound h)
  have hself : (s.forget h).hose h = { s.hose h with fd := none } := Function.update_self ..
  have hother {g : ℕ} (hg : g ≠ h) : (s.forget h).hose g = s.hose g := Function.update_of_ne hg ..
  have howns {w : Owner} (hw : w ≠ .hose h) : (s.forget h).owns w = s.owns w :=
    Sys.owns_congr (fun g hg => by rw [hother fun heq => hw (heq ▸ hg)]) fun _ _ => rfl
  refine ⟨?_, ?_, fun g => ?_, fun b => ?_, fun hb hb' => hs.apart hb hb', hs.badClose⟩
  · have howned : s.owns (.hose h) = some fd := hsocket.owned_eq.trans hfd
    have hforget := hs.fds.forget howned
      ((congrArg Hose.owned hself).trans (Hose.owned_of_fd rfl)) fun w hw => howns hw
    have hbase : (fun q => q = fd ∨ q ∈ base) = fun q => q ∈ insert fd base := funext fun q => by simp
    rwa [hbase] at hforget
  · refine hs.conns.congr (fun _ => Iff.rfl) fun w => Sys.holds_congr (fun g _ => ?_) fun _ _ => rfl
    by_cases hg : g = h
    · rw [hg, hself]
    · rw [hother hg]
  · by_cases hg : g = h
    · rw [hg, hself]
      exact .of_fd rfl hpriv hl
    · rw [hother hg]
      exact hs.sound g
  · exact (hs.held b).congr (fun g hg => hother fun heq => hneeds b (heq ▸ hg)) fun _ _ => rfl

/-- What opens the hose does not look at its descriptor. -/
lemma opens_again {t : Transport} {α : Type} {v : Option α} {f : α → Transport} {k : α → Prog Sys Pc} {r : α} {u : Sys}
    (uri : Bytes) (hu : s = u.setHose h (s.hose h)) (hpriv : (s.hose h).priv = none)
    (hl : (s.hose h).roles.listener = false) (hv : v = some r) (ht : f r = t)
    (hk : Opens h o u (At (Hose.Plain t) h u) (k r)) : Opens h o u (fun w => w = s) (do
      setProtocol h uri
      let a ← ofOption v
      onHose h fun x => { x with transport := some (f a) }
      k a) := by
  refine Spec.bind (Q := fun _ => At (fun y => ∃ proto, y = { s.hose h with protocol := proto }) h u) ?_ fun _ => ?_
  · refine Spec.mono (spec_setProtocol uri rfl _) (fun _ hw => hw) (fun _ w hw => ?_) fun _ hw => hw
    obtain ⟨x, hx, rfl⟩ := hw
    refine ⟨x, hx, ?_⟩
    rw [hu, Sys.setHose_setHose]
  · subst hv
    change Spec _ (do
      onHose h fun x => { x with transport := some (f r) }
      k r) _ _
    refine Spec.bind (At.spec_onHose ?_) fun _ => hk
    rintro _ ⟨proto, rfl⟩
    exact ⟨by rw [ht], hpriv, hl⟩

lemma Sys.Inv.reopened {wide : ℤ → CInt} {k : Call} {fd : ℕ} (hs : s.Inv base) (hsocket : (s.hose h).Socket)
    (hl : (s.hose h).roles.listener = false) (hfd : (s.hose h).fd = some fd) (hneeds : ∀ b, ¬ (s.pc b).Needs h)
    (hk : k.Reopens wide h) (hidle : s.pc a = .idle) (hfresh : Fresh s o) :
    (s.exec a (k.prog wide o)).Inv (insert fd base) := by
  have hs' := hs.forget hsocket hl hfd hneeds
  have hpriv := hsocket.priv_eq (hs.sound h)
  have hself : (s.forget h).hose h = { s.hose h with fd := none } := Function.update_self ..
  have hback : s = (s.forget h).setHose h (s.hose h) := by simp [Sys.forget, Sys.setHose]
  have hshut : ((s.forget h).hose h).Shut := by
    rw [hself]
    exact ⟨rfl, hpriv, hl⟩
  have hfresh' : Fresh (s.forget h) o := ⟨hfresh.socket, hfresh.accepted, hfresh.conn⟩
  have hopened {y : Prog Sys Pc} (hy : Opens h o (s.forget h) (fun w => w = s) y) :
      (s.exec a y).Inv (insert fd base) := by
    have hspec := hy s rfl
    rw [Sys.exec_eq]
    have haffects : Affects (s.forget h) a h ((y s).2.setPc a ((y s).1.getD .idle)) := by
      rcases hr : y s with ⟨- | p, t⟩ <;> rw [hr] at hspec
      · exact hspec.affects hshut hidle hneeds hfresh'
      · exact hspec.affects hshut hidle hneeds hfresh'
    rcases haffects with ht | ht
    · exact hs'.effect ht
    · exact hs'.effect ht
  cases k with
  | init g =>
    obtain rfl : g = h := hk
    have hexec : s.exec a (Call.prog wide o (.init g)) = ((s.forget g).setHose g .blank).setPc a .idle := by
      simp [Sys.exec_eq, Call.prog, bind_apply, Sys.forget]
    rw [hexec]
    refine hs'.kept (by change (s.pc a).conn = none; rw [hidle]; rfl) (fun b _ => hneeds b)
      (Hose.Shut.sound ⟨rfl, rfl, rfl⟩) ?_ (by rw [hself]; exact hpriv.symm)
    rw [hself]
    exact (Hose.owned_of_fd rfl).symm
  | dial g uri =>
    obtain ⟨rfl, ⟨ops, tr, host, port⟩, hr, hquic, htty⟩ := hk
    refine hopened
      (opens_again (f := fun r : Ops Transport × Transport × Bytes × CInt => r.2.1) uri hback hpriv hl hr rfl ?_)
    cases tr with
    | tcp => exact opens_tcpDial hfresh'.socket
    | udp => exact opens_udpDial hfresh'.socket
    | unix => exact opens_unixDial hfresh'.socket
    | quic => exact absurd rfl hquic
    | tty => exact absurd rfl htty
  | listen g uri =>
    obtain ⟨rfl, ⟨ops, tr, host, port⟩, hr, hquic, htty⟩ := hk
    refine hopened
      (opens_again (f := fun r : Ops Transport × Transport × Bytes × CInt => r.2.1) uri hback hpriv hl hr rfl ?_)
    cases tr with
    | tcp => exact opens_tcpListen hfresh'.socket
    | udp => exact opens_udpListen hfresh'.socket
    | unix => exact opens_unixListen hfresh'.socket
    | quic => exact absurd rfl hquic
    | tty => exact absurd rfl htty
  | accept | close | read | write | onSocket => exact hk.elim

/-- A hose that was dialed or accepted, and is initialised, dialed or made to listen again before it is closed, loses
its descriptor: whether the call succeeds or not, the descriptor is open for good, and nobody owns it. -/
theorem reopen_leaks {wide : ℤ → CInt} {k : Call} {fd : ℕ} {u : Sys} {es : List Event}
    (h₀ : Reachable (Restrict (Step wide) Tidy) (.start base) s) (hsocket : (s.hose h).Socket)
    (hl : (s.hose h).roles.listener = false) (hfd : (s.hose h).fd = some fd) (hneeds : ∀ b, ¬ (s.pc b).Needs h)
    (hk : k.Reopens wide h) (hstep : Step wide s (.call a k o) t) (hrun : Run (Restrict (Step wide) Tidy) t es u) :
    fd ∈ u.fds ∧ ∀ w, u.owns w ≠ some fd := by
  have hs : s.Inv base := h₀.invariant (.start base) fun _ _ _ hs hstep => hs.step hstep
  have ht : t.Inv (insert fd base) := by
    cases hstep with
    | call hidle hfresh => exact hs.reopened hsocket hl hfd hneeds hk hidle hfresh
  have hu : u.Inv (insert fd base) := hrun.invariant (fun _ _ _ hs hstep => hs.step hstep) ht
  have hbase : fd ∈ insert fd base := Finset.mem_insert_self ..
  exact ⟨hu.fds.base_used hbase, fun w hw => hu.fds.not_base hw hbase⟩

/-- Dialed again, the hose has descriptor 4, and descriptor 3 is open without an owner. -/
theorem reopen_leaks_unix : ∃ t, Step zeroInt unixConnected (.call 0 (.dial 0 unixUri) (granted 4)) t ∧
    (t.hose 0).fd = some 4 ∧ 3 ∈ t.fds ∧ ∀ w, t.owns w ≠ some 3 := by
  have hstep : Step zeroInt unixConnected (.call 0 (.dial 0 unixUri) (granted 4)) _ :=
    .call rfl (granted_fresh (by decide))
  have hk : (Call.dial 0 unixUri).Reopens zeroInt 0 := ⟨rfl, _, rfl, by decide, by decide⟩
  exact ⟨_, hstep, rfl, reopen_leaks (h := 0) unixConnected_reachable (.inr (.inr rfl)) rfl rfl (fun _ => Pc.idle_needs)
    hk hstep (.nil _)⟩

end Accounts

end Suspenders.Hoses
