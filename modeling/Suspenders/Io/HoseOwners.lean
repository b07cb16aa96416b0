import Suspenders.Io.Hoses
import Suspenders.Lib.Ledger

/-!
# The owners of descriptors

A descriptor that a call opens belongs to a hose or to a QUIC connection, and a connection to a hose or to the call
that makes it.  `Sys.Inv` keeps the accounts, together with what a waiting call relies on when it goes on.  Calls that
are `Tidy` open a hose only when it is vacant and no other call will come back to it.

What a dial or a listen leads to before it waits is said by `Opened`: whichever step fails, what was opened before it
is closed again.
-/

namespace Suspenders.Hoses

open Lib (Bytes Prog Accounted)
open Lib.Prog
open Lib.Scanf (CInt)
open Io

/-! ## Owners -/

/-- Who may own a descriptor. -/
inductive Owner
  | hose (h : ℕ)
  | conn (c : ℕ)

/-- What may have a connection. -/
inductive Holder
  | hose (h : ℕ)
  | call (a : ℕ)

/-- The descriptor that the close of a hose closes. -/
def Hose.owned (x : Hose) : Option ℕ :=
  match x.transport with
  | some .tcp | some .udp | some .unix | none => x.fd
  | some .quic => if x.roles.listener then x.fd else none
  | some .tty => none

/-- The descriptor that is closed with a connection. -/
def QuicConn.owned (x : QuicConn) : Option ℕ := if x.ownsFd then x.fd else none

/-- The connection of a call that has not got into a hose yet. -/
def Pc.conn : Pc → Option ℕ
  | .driving _ c | .receiving _ _ c _ | .greeting _ _ c => some c
  | _ => none

/-- The hose that a call opens or closes. -/
def Pc.Takes (h : ℕ) : Pc → Prop
  | .connecting g _ | .driving g _ | .closing g _ => g = h
  | .accepting _ client _ | .receiving _ client _ _ | .greeting _ client _ => client = h
  | _ => False

/-- The hose whose transport a call looks at again. -/
def Pc.Listens (h : ℕ) : Pc → Prop
  | .accepting l _ _ | .receiving l _ _ _ | .greeting l _ _ => l = h
  | _ => False

/-- A call will come back to the hose. -/
def Pc.Needs (h : ℕ) (p : Pc) : Prop := p.Takes h ∨ p.Listens h

/-- A call reads or writes the hose. -/
def Pc.Reads (h : ℕ) : Pc → Prop
  | .inUse g _ _ => g = h
  | _ => False

/-- A hose that may be opened. -/
def Hose.Vacant (x : Hose) : Prop := x.fd = none ∧ x.priv = none

/-- The descriptor of the hose is a socket of its own. -/
def Hose.Socket (x : Hose) : Prop :=
  x.transport = some .tcp ∨ x.transport = some .udp ∨ x.transport = some .unix

/-- What the fields of a hose say about each other. -/
structure Hose.Sound (x : Hose) : Prop where
  priv : x.priv ≠ none → x.transport = some .quic ∧ x.roles.listener = false
  listener : x.roles.listener = true → x.fd ≠ none
  transport : x.transport = none → x.fd = none

namespace Sys

/-- The descriptors and their owners. -/
def owns (s : Sys) : Owner → Option ℕ
  | .hose h => (s.hose h).owned
  | .conn c => (s.conns c).bind QuicConn.owned

/-- The connections and where they are. -/
def holds (s : Sys) : Holder → Option ℕ
  | .hose h => (s.hose h).priv
  | .call a => (s.pc a).conn

/-- What a waiting call finds when it goes on. -/
def Held (s : Sys) : Pc → Prop
  | .idle | .inUse .. => True
  | .connecting h _ => (s.hose h).Socket ∧ (s.hose h).roles.listener = false
  | .driving h c => (s.hose h).transport = some .quic ∧ (s.hose h).priv = none ∧
      (s.hose h).roles.listener = false ∧ ∃ fd, s.conns c = some ⟨fd, true⟩
  | .accepting l client _ => (s.hose l).Socket ∧ l ≠ client ∧ (s.hose client).Vacant
  | .receiving l client c _ | .greeting l client c => (s.hose l).transport = some .quic ∧ (s.hose l).priv = none ∧
      l ≠ client ∧ (s.hose client).Vacant ∧ ∃ fd, s.conns c = some ⟨fd, false⟩
  | .closing h c => (s.hose h).priv = some c

/-- What a waiting call uses is still there. -/
def Uses (s : Sys) : Pc → Prop
  | .idle | .closing .. => True
  | .connecting h fd => (s.hose h).fd = fd ∧ fd ≠ none
  | .driving h c => ∃ fd, (s.hose h).fd = some fd ∧ s.conns c = some ⟨some fd, true⟩
  | .accepting l _ fd => (s.hose l).fd = fd ∧ fd ≠ none
  | .receiving l _ c fd =>
      (s.hose l).roles.listener = true ∧ (s.hose l).fd = fd ∧ fd ≠ none ∧ s.conns c = some ⟨fd, false⟩
  | .greeting l _ c =>
    (s.hose l).roles.listener = true ∧ ∃ fd, (s.hose l).fd = some fd ∧ s.conns c = some ⟨some fd, false⟩
  | .inUse h fd none => (s.hose h).fd = fd ∧ fd ≠ none
  | .inUse h fd (some c) => (s.hose h).priv = some c ∧ fd = none

/-- The accounts of descriptors and connections, and what the calls in progress rely on. -/
structure Inv (base : Finset ℕ) (s : Sys) : Prop where
  fds : Accounted (· ∈ base) (· ∈ s.fds) s.owns
  conns : Accounted (fun _ => False) (fun c => s.conns c ≠ none) s.holds
  sound : ∀ h, (s.hose h).Sound
  held : ∀ a, s.Held (s.pc a)
  apart : ∀ {a b h}, (s.pc a).Takes h → (s.pc b).Needs h → a = b
  badClose : s.badClose = false

end Sys

/-- A hose is initialised, dialed, made to listen or accepted into only if it is vacant and no call will come back to
it, and closed only if no call is closing it. -/
def Tidy (s : Sys) : Event → Sys → Prop
  | .call _ k _, _ =>
    match k with
    | .init h | .dial h _ | .listen h _ | .accept _ h => (s.hose h).Vacant ∧ ∀ b, ¬ (s.pc b).Needs h
    | .close h => ∀ b c, s.pc b ≠ .closing h c
    | .read _ | .write _ | .onSocket _ => True
  | .resume .., _ => True

section Owners

variable {base : Finset ℕ} {s t : Sys} {x : Hose} {p : Pc} {a b c h : ℕ} {o : Outcomes}

lemma Hose.Sound.not_listener (hx : x.Sound) (hv : x.Vacant) : x.roles.listener = false := by
  by_contra hl
  exact hx.listener (Bool.eq_true_of_not_eq_false hl) hv.1

lemma Hose.Socket.owned_eq (hx : x.Socket) : x.owned = x.fd := by
  rcases hx with h | h | h <;> simp [Hose.owned, h]

/-- A hose with a connection owns no descriptor. -/
lemma Hose.Sound.owned_of_priv (hx : x.Sound) (hp : x.priv ≠ none) : x.owned = none := by
  obtain ⟨ht, hl⟩ := hx.priv hp
  simp [Hose.owned, ht, hl]

lemma Hose.Socket.priv_eq (hx : x.Socket) (hs : x.Sound) : x.priv = none := by
  by_contra hp
  have ht := (hs.priv hp).1
  rcases hx with h | h | h <;> · rw [h] at ht; cases ht

lemma Hose.Socket.transport_ne (hx : x.Socket) : x.transport ≠ none := by
  rcases hx with h | h | h <;> simp [h]

lemma Hose.owned_of_fd (hx : x.fd = none) : x.owned = none := by
  unfold Hose.owned
  split <;> simp [hx]

/-- A hose that owns a descriptor has no connection. -/
lemma Hose.Sound.of_fd (hf : x.fd = none) (hp : x.priv = none) (hl : x.roles.listener = false) : x.Sound :=
  ⟨fun h => absurd hp h, fun h => absurd (hl.symm.trans h) Bool.false_ne_true, fun _ => hf⟩

/-- What a call relies on is in the hoses it needs and in its connection. -/
lemma Sys.Held.congr (hs : s.Held p) (hhose : ∀ g, p.Needs g → t.hose g = s.hose g)
    (hconn : ∀ c, p.conn = some c → t.conns c = s.conns c) : t.Held p := by
  cases p with
  | idle => trivial
  | inUse => trivial
  | connecting g fd =>
    have hg := hhose g (.inl rfl)
    simpa only [Sys.Held, hg] using hs
  | driving g c =>
    have hg := hhose g (.inl rfl)
    simpa only [Sys.Held, hg, hconn c rfl] using hs
  | accepting l client fd =>
    have hl := hhose l (.inr rfl)
    have hclient := hhose client (.inl rfl)
    simpa only [Sys.Held, hl, hclient] using hs
  | receiving l client c fd =>
    have hl := hhose l (.inr rfl)
    have hclient := hhose client (.inl rfl)
    simpa only [Sys.Held, hl, hclient, hconn c rfl] using hs
  | greeting l client c =>
    have hl := hhose l (.inr rfl)
    have hclient := hhose client (.inl rfl)
    simpa only [Sys.Held, hl, hclient, hconn c rfl] using hs
  | closing g c =>
    have hg := hhose g (.inl rfl)
    simpa only [Sys.Held, hg] using hs

/-- The accounts do not depend on the uses. -/
lemma Sys.Inv.congr (hs : s.Inv base) (hfds : t.fds = s.fds) (hconns : t.conns = s.conns) (hhose : t.hose = s.hose)
    (hpc : t.pc = s.pc) (hbad : t.badClose = s.badClose) : t.Inv base := by
  obtain ⟨fds, conns, hose, pc, badClose, badUse⟩ := t
  obtain rfl : fds = s.fds := hfds
  obtain rfl : conns = s.conns := hconns
  obtain rfl : hose = s.hose := hhose
  obtain rfl : pc = s.pc := hpc
  obtain rfl : badClose = s.badClose := hbad
  exact ⟨hs.fds, hs.conns, hs.sound, hs.held, hs.apart, hs.badClose⟩

/-- A step of a call, after which the others find what they rely on. -/
lemma Sys.Inv.go (hs : s.Inv base) (fds : Accounted (· ∈ base) (· ∈ t.fds) t.owns)
    (conns : Accounted (fun _ => False) (fun c => t.conns c ≠ none) t.holds) (hsound : ∀ g, (t.hose g).Sound)
    (hpc : t.pc = Function.update s.pc a p) (hother : ∀ b, b ≠ a → t.Held (s.pc b)) (hheld : t.Held p)
    (htakes : ∀ b g, b ≠ a → p.Takes g → ¬ (s.pc b).Needs g)
    (hlistens : ∀ b g, b ≠ a → p.Listens g → ¬ (s.pc b).Takes g)
    (hbad : t.badClose = s.badClose) : t.Inv base := by
  have hself : t.pc a = p := by rw [hpc, Function.update_self]
  have hpcs {b : ℕ} (hb : b ≠ a) : t.pc b = s.pc b := by rw [hpc, Function.update_of_ne hb]
  refine ⟨fds, conns, hsound, fun b => ?_, fun {b b' g} hb hb' => ?_, hbad.trans hs.badClose⟩
  · by_cases hba : b = a
    · rw [hba, hself]
      exact hheld
    · rw [hpcs hba]
      exact hother b hba
  · by_cases hba : b = a
    · subst hba
      by_contra hne
      rw [hself] at hb
      rw [hpcs (Ne.symm hne)] at hb'
      exact htakes b' g (Ne.symm hne) hb hb'
    · rw [hpcs hba] at hb
      by_cases hba' : b' = a
      · subst hba'
        rw [hself] at hb'
        rcases hb' with hg | hg
        · exact absurd (.inl hb) (htakes b g hba hg)
        · exact absurd hb (hlistens b g hba hg)
      · rw [hpcs hba'] at hb'
        exact hs.apart hb hb'

/-- A step of a call that changes one hose, which no other call needs. -/
lemma Sys.Inv.after (hs : s.Inv base) (fds : Accounted (· ∈ base) (· ∈ t.fds) t.owns)
    (conns : Accounted (fun _ => False) (fun c => t.conns c ≠ none) t.holds)
    (hhose : ∀ g, g ≠ h → t.hose g = s.hose g) (hsound : (t.hose h).Sound) (hpc : t.pc = Function.update s.pc a p)
    (hconn : ∀ b, b ≠ a → ∀ c, (s.pc b).conn = some c → t.conns c = s.conns c)
    (hneeds : ∀ b, b ≠ a → ¬ (s.pc b).Needs h) (hheld : t.Held p) (htakes : ∀ g, p.Takes g → g = h)
    (hlistens : ∀ g, p.Listens g → ∀ b, b ≠ a → ¬ (s.pc b).Takes g) (hbad : t.badClose = s.badClose) : t.Inv base := by
  refine hs.go fds conns (fun g => ?_) hpc (fun b hb => ?_) hheld (fun b g hb hg => ?_)
    (fun b g hb hg => hlistens g hg b hb) hbad
  · by_cases hg : g = h
    · exact hg ▸ hsound
    · exact hhose g hg ▸ hs.sound g
  · exact (hs.held b).congr (fun g hg => hhose g fun heq => hneeds b hb (heq ▸ hg)) (hconn b hb)
  · exact htakes g hg ▸ hneeds b hb

end Owners

/-! ## Opening a hose -/

/-- The state is `s` but for the hose. -/
def At (P : Hose → Prop) (h : ℕ) (s t : Sys) : Prop := ∃ x, P x ∧ t = s.setHose h x

/-- The state is `s` but for the hose, which has got the new socket. -/
def Got (P : Hose → Prop) (h : ℕ) (o : Outcomes) (s t : Sys) : Prop :=
  ∃ fd x, o.socket = some fd ∧ fd ∉ s.fds ∧ x.fd = some fd ∧ P x ∧
    t = { s.setHose h x with fds := insert fd s.fds }

/-- A hose of a transport that is neither connected nor listens. -/
structure Hose.Plain (t : Transport) (x : Hose) : Prop where
  transport : x.transport = some t
  priv : x.priv = none
  listener : x.roles.listener = false

lemma Hose.Plain.sound {t : Transport} {x : Hose} (hx : x.Plain t) : x.Sound :=
  ⟨fun hp => absurd hx.priv hp, fun hl => absurd (hx.listener.symm.trans hl) Bool.false_ne_true,
    fun ht => by rw [hx.transport] at ht; cases ht⟩

/-- A hose that is not open. -/
structure Hose.Shut (x : Hose) : Prop where
  fd : x.fd = none
  priv : x.priv = none
  listener : x.roles.listener = false

section Opening

variable {P Q : Hose → Prop} {E : Sys → Prop} {s : Sys} {h : ℕ} {o : Outcomes} {tr : Transport}

@[simp] lemma Sys.setHose_hose (h : ℕ) (x : Hose) (s : Sys) : (s.setHose h x).hose h = x := Function.update_self ..

@[simp] lemma Sys.setHose_setHose (h : ℕ) (x y : Hose) (s : Sys) : (s.setHose h x).setHose h y = s.setHose h y := by
  simp [Sys.setHose]

lemma At.spec_onHose {f : Hose → Hose} (hf : ∀ x, P x → Q (f x)) :
    Spec (At P h s) (onHose h f) (fun _ => At Q h s) E := by
  refine Spec.modify ?_
  rintro t ⟨x, hx, rfl⟩
  exact ⟨f x, hf x hx, by simp⟩

lemma Got.spec_onHose {f : Hose → Hose} (hf : ∀ x, P x → Q (f x)) (hfd : ∀ x, (f x).fd = x.fd) :
    Spec (Got P h o s) (onHose h f) (fun _ => Got Q h o s) E := by
  refine Spec.modify ?_
  rintro t ⟨fd, x, ho, hfree, hx, hP, rfl⟩
  refine ⟨fd, f x, ho, hfree, (hfd x).trans hx, hf x hP, ?_⟩
  simp [Sys.setHose]

/-- A hose is closed again after a failure. -/
lemma Got.spec_dropFd :
    Spec (Got P h o s) (dropFd h) (fun _ => At (fun x => ∃ y, P y ∧ x = { y with fd := none }) h s) E := by
  refine Spec.modify_bind (T := fun t => ∃ y, P y ∧ t = s.setHose h y) ?_ ?_
  · rintro t ⟨fd, x, -, hfree, hx, hP, rfl⟩
    refine ⟨x, hP, ?_⟩
    simp [Sys.closeFd, hx, Sys.setHose, Finset.erase_insert hfree]
  · refine Spec.modify ?_
    rintro t ⟨y, hy, rfl⟩
    exact ⟨_, ⟨y, hy, rfl⟩, by simp⟩

lemma Hose.Plain.shut {x y : Hose} (hy : y.Plain tr) (hx : x = { y with fd := none }) : x.Shut := by
  subst hx
  exact ⟨rfl, hy.priv, hy.listener⟩

lemma Got.spec_check (ok : Bool) : Spec (Got (Hose.Plain tr) h o s) (check h ok) (fun _ => Got (Hose.Plain tr) h o s)
    (At Hose.Shut h s) := by
  unfold check
  refine Spec.ite (fun _ => Spec.pure fun t ht => ht) fun _ => ?_
  refine Spec.bind Got.spec_dropFd fun _ => Spec.fail ?_
  rintro t ⟨x, ⟨y, hy, hx⟩, rfl⟩
  exact ⟨x, hy.shut hx, rfl⟩

lemma At.spec_openSock (hfresh : ∀ fd, o.socket = some fd → fd ∉ s.fds) :
    Spec (At (Hose.Plain tr) h s) (openSock h o) (fun _ => Got (Hose.Plain tr) h o s) (At Hose.Shut h s) := by
  unfold openSock
  cases ho : o.socket with
  | none =>
    refine Spec.modify_bind (T := At Hose.Shut h s) ?_ (Spec.bind (Q := fun _ _ => False) ?_ fun _ t ht => ht.elim)
    · rintro t ⟨x, hx, rfl⟩
      exact ⟨{ x with fd := none }, ⟨rfl, hx.priv, hx.listener⟩, by simp [Sys.openFd, Sys.setHose]⟩
    · exact Spec.require (fun t hfalse => by cases hfalse) fun t _ ht => ht
  | some fd =>
    refine Spec.modify_bind (T := Got (Hose.Plain tr) h o s) ?_
      (Spec.bind (Q := fun _ => Got (Hose.Plain tr) h o s) ?_ fun _ => ?_)
    · rintro t ⟨x, hx, rfl⟩
      refine ⟨fd, { x with fd := some fd }, ho, hfresh fd ho, rfl, ⟨hx.transport, hx.priv, hx.listener⟩, ?_⟩
      simp [Sys.openFd, Sys.setHose]
    · exact Spec.require (fun t _ ht => ht) fun t hfalse => absurd rfl hfalse
    · exact Got.spec_check o.nonblocking

/-- A hose that owns its socket. -/
structure Hose.Served (x : Hose) : Prop where
  owned : x.owned = x.fd
  priv : x.priv = none
  transport : x.transport ≠ none

/-- What a dial or a listen leads to, if the hose was not open. -/
inductive Opened (h : ℕ) (o : Outcomes) (s : Sys) : Option Pc → Sys → Prop
  /-- It failed. -/
  | failed {t : Sys} : At Hose.Shut h s t → Opened h o s none t
  /-- The hose has a socket. -/
  | served {t : Sys} : Got Hose.Served h o s t → Opened h o s (some .idle) t
  /-- It is a terminal. -/
  | tty {t : Sys} : At (fun x => x.Plain .tty ∧ ∃ fd < 3, x.fd = some fd) h s t → Opened h o s (some .idle) t
  /-- The hose has a socket that is not connected yet. -/
  | connecting {t : Sys} {tr : Transport} : tr = .tcp ∨ tr = .unix → Got (Hose.Plain tr) h o s t →
      Opened h o s (some (.connecting h o.socket)) t
  /-- The hose has a socket, which a connection owns. -/
  | driving {t : Sys} {c : ℕ} : o.conn = some c → Got (Hose.Plain .quic) h o s t →
      Opened h o s (some (.driving h c)) (t.setConn c (some ⟨o.socket, true⟩))

/-- What a program leads to. -/
def Opens (h : ℕ) (o : Outcomes) (s : Sys) (P : Sys → Prop) (x : Prog Sys Pc) : Prop :=
  Spec P x (fun p => Opened h o s (some p)) (Opened h o s none)

lemma Hose.Plain.served {x : Hose} {roles : Roles} (hx : x.Plain tr) (htr : tr = .tcp ∨ tr = .udp ∨ tr = .unix) :
    Hose.Served { x with roles := roles } := by
  have hsocket : Hose.Socket { x with roles := roles } := by
    rcases htr with rfl | rfl | rfl
    · exact .inl hx.transport
    · exact .inr (.inl hx.transport)
    · exact .inr (.inr hx.transport)
  refine ⟨hsocket.owned_eq, hx.priv, ?_⟩
  change x.transport ≠ none
  rw [hx.transport]
  exact Option.some_ne_none tr

lemma Got.served {roles : Roles} (htr : tr = .tcp ∨ tr = .udp ∨ tr = .unix) :
    Opens h o s (Got (Hose.Plain tr) h o s) (do addRoles h roles; return .idle) :=
  Spec.bind (Got.spec_onHose (fun _ hx => hx.served htr) fun _ => rfl) fun _ => Spec.pure fun _ ht => .served ht

/-- The next check of a program. -/
lemma Got.check_bind {x : Prog Sys Pc} (ok : Bool) (hx : Opens h o s (Got (Hose.Plain tr) h o s) x) :
    Opens h o s (Got (Hose.Plain tr) h o s) (do check h ok; x) :=
  Spec.bind (Spec.mono (Got.spec_check ok) (fun _ ht => ht) (fun _ _ ht => ht) fun _ ht => .failed ht) fun _ => hx

lemma At.openSock_bind {x : Prog Sys Pc} (hfresh : ∀ fd, o.socket = some fd → fd ∉ s.fds)
    (hx : Opens h o s (Got (Hose.Plain tr) h o s) x) :
    Opens h o s (At (Hose.Plain tr) h s) (do openSock h o; x) :=
  Spec.bind (Spec.mono (At.spec_openSock hfresh) (fun _ ht => ht) (fun _ _ ht => ht) fun _ ht => .failed ht) fun _ => hx

variable (hfresh : ∀ fd, o.socket = some fd → fd ∉ s.fds)
include hfresh

lemma opens_tcpDial : Opens h o s (At (Hose.Plain .tcp) h s) (tcpDial h o) :=
  At.openSock_bind hfresh <| Got.check_bind _ <| Spec.pure fun _ ht => .connecting (.inl rfl) ht

lemma opens_unixDial : Opens h o s (At (Hose.Plain .unix) h s) (unixDial h o) :=
  At.openSock_bind hfresh <| Spec.pure fun _ ht => .connecting (.inr rfl) ht

lemma opens_udpDial : Opens h o s (At (Hose.Plain .udp) h s) (udpDial h o) :=
  At.openSock_bind hfresh <| Got.check_bind _ <| Got.check_bind _ <| Got.served (.inr (.inl rfl))

lemma opens_tcpListen : Opens h o s (At (Hose.Plain .tcp) h s) (tcpListen h o) :=
  At.openSock_bind hfresh <| Got.check_bind _ <| Got.check_bind _ <| Got.served (.inl rfl)

lemma opens_unixListen : Opens h o s (At (Hose.Plain .unix) h s) (unixListen h o) :=
  At.openSock_bind hfresh <| Got.check_bind _ <| Got.check_bind _ <| Got.served (.inr (.inr rfl))

lemma opens_udpListen : Opens h o s (At (Hose.Plain .udp) h s) (udpListen h o) :=
  At.openSock_bind hfresh <| Got.check_bind _ <| Got.served (.inr (.inl rfl))

/-- The hose is not open before the dial. -/
def Hose.Ready (t : Transport) (x : Hose) : Prop := x.Plain t ∧ x.fd = none

omit hfresh in
lemma Hose.Ready.shut {x : Hose} (hx : x.Ready tr) : x.Shut := ⟨hx.2, hx.1.priv, hx.1.listener⟩

omit hfresh in
lemma At.mono {P Q : Hose → Prop} {t : Sys} (hPQ : ∀ x, P x → Q x) (ht : At P h s t) : At Q h s t := by
  obtain ⟨x, hx, rfl⟩ := ht
  exact ⟨x, hPQ x hx, rfl⟩

omit hfresh in
lemma At.require_bind {tr : Transport} {q : Prop} [Decidable q] {x : Prog Sys Pc}
    (hx : Opens h o s (At (Hose.Ready tr) h s) x) :
    Opens h o s (At (Hose.Ready tr) h s) (do require q; x) :=
  Spec.bind (Spec.require (Q := fun _ => At (Hose.Ready tr) h s) (fun _ _ ht => ht)
    fun _ _ ht => .failed (ht.mono fun _ hx => hx.shut)) fun _ => hx

lemma At.quicUdp_bind {x : Prog Sys Pc} {l : Bool} (hx : Opens h o s (Got (Hose.Plain .quic) h o s) x) :
    Opens h o s (At (Hose.Ready .quic) h s) (do quicUdp h l o; x) := by
  unfold quicUdp
  rw [bind_assoc]
  refine At.require_bind ?_
  rw [bind_assoc]
  exact Spec.mono (At.openSock_bind hfresh (Got.check_bind _ hx)) (fun t ht => ht.mono fun _ hx => hx.1)
    (fun _ _ ht => ht) fun _ ht => ht

lemma opens_quicListen : Opens h o s (At (Hose.Ready .quic) h s) (quicListen h o) := by
  refine At.require_bind <| At.require_bind <| At.quicUdp_bind hfresh ?_
  refine Spec.bind (Got.spec_onHose (Q := Hose.Served) ?_ fun _ => rfl) fun _ => Spec.pure fun _ ht => .served ht
  intro x hx
  refine ⟨?_, hx.priv, ?_⟩
  · simp [Hose.owned, hx.transport, Roles.or, listening]
  · simp [hx.transport]

lemma opens_quicDial (hconn : ∀ c, o.conn = some c → s.conns c = none) :
    Opens h o s (At (Hose.Ready .quic) h s) (quicDial h o) := by
  refine At.require_bind <| At.quicUdp_bind hfresh ?_
  cases hc : o.conn with
  | none =>
    refine Spec.bind Got.spec_dropFd fun _ => Spec.fail ?_
    rintro t ht
    exact .failed (ht.mono fun x ⟨y, hy, hx⟩ => hy.shut hx)
  | some c =>
    refine Spec.modify_bind
      (T := fun t => ∃ u, Got (Hose.Plain .quic) h o s u ∧ t = u.setConn c (some ⟨o.socket, true⟩)) ?_
      (Spec.ite (fun _ => Spec.pure ?_) fun _ => ?_)
    · rintro t ht
      refine ⟨t, ht, ?_⟩
      obtain ⟨fd, x, ho, -, hx, -, rfl⟩ := ht
      simp [Sys.setConn, Sys.setHose, hx, ho]
    · rintro t ⟨u, hu, rfl⟩
      exact .driving hc hu
    · rintro t ⟨u, ⟨fd, x, ho, hfree, hx, hP, rfl⟩, rfl⟩
      refine .failed ⟨{ x with fd := none }, ⟨rfl, hP.priv, hP.listener⟩, ?_⟩
      have hback : Function.update s.conns c none = s.conns := by rw [← hconn c hc, Function.update_eq_self]
      simp [Sys.setConn, Sys.setHose, Sys.closeFd, Sys.freeConn, ho, hback, Finset.erase_insert hfree]

omit hfresh in
lemma opens_ttyDial (name : Bytes) : Opens h o s (At (Hose.Ready .tty) h s) (ttyDial h name) := by
  refine Spec.ofOption_bind (fun fd hfd => ?_) fun _ ht => .failed (ht.mono fun _ hx => hx.shut)
  refine Spec.bind (At.spec_onHose ?_) fun _ => Spec.pure fun _ ht => .tty ht
  intro x hx
  refine ⟨⟨hx.1.transport, hx.1.priv, ?_⟩, fd, ?_, rfl⟩
  · simp [Roles.or, duplex, hx.1.listener]
  · unfold device at hfd
    split_ifs at hfd <;> cases hfd <;> omega

omit hfresh in
/-- What the URI says about the protocol changes neither the descriptor nor the connection nor the roles. -/
lemma spec_setProtocol {x : Hose} (uri : Bytes) (hx : s.hose h = x) (E : Sys → Prop) :
    Spec (fun t => t = s) (setProtocol h uri) (fun _ => At (fun y => ∃ proto, y = { x with protocol := proto }) h s)
      E := by
  have hset (proto : Option Proto) :
      At (fun y => ∃ proto, y = { x with protocol := proto }) h s (s.setHose h { x with protocol := proto }) :=
    ⟨_, ⟨proto, rfl⟩, rfl⟩
  unfold setProtocol
  split
  · refine Spec.pure ?_
    rintro t rfl
    refine ⟨x, ⟨x.protocol, rfl⟩, ?_⟩
    subst hx
    simp [Sys.setHose]
  · refine Spec.modify ?_
    rintro t rfl
    rw [hx]
    exact hset _

omit hfresh in
/-- A dial or a listen up to the function of the transport. -/
lemma opens_of {α : Type} {f : α → Transport} {v : Option α} {k : α → Prog Sys Pc} (uri : Bytes) (hx : (s.hose h).Shut)
    (hk : ∀ a, v = some a → Opens h o s (At (Hose.Ready (f a)) h s) (k a)) :
    Opens h o s (fun t => t = s) (do
      setProtocol h uri
      let a ← ofOption v
      onHose h fun x => { x with transport := some (f a) }
      k a) := by
  refine Spec.bind (spec_setProtocol uri rfl _) fun _ => ?_
  refine Spec.ofOption_bind (fun a ha => ?_) fun t ht => .failed (ht.mono ?_)
  · refine Spec.bind (At.spec_onHose ?_) fun _ => hk a ha
    rintro _ ⟨proto, rfl⟩
    exact ⟨⟨rfl, hx.priv, hx.listener⟩, hx.fd⟩
  · rintro _ ⟨proto, rfl⟩
    exact ⟨hx.fd, hx.priv, hx.listener⟩

omit hfresh in
lemma Opens.ready {x : Prog Sys Pc} (hx : Opens h o s (At (Hose.Plain tr) h s) x) :
    Opens h o s (At (Hose.Ready tr) h s) x :=
  Spec.mono hx (fun _ ht => ht.mono fun _ hx => hx.1) (fun _ _ ht => ht) fun _ ht => ht

lemma opens_dial (wide : ℤ → CInt) (uri : Bytes) (hconn : ∀ c, o.conn = some c → s.conns c = none)
    (hx : (s.hose h).Shut) : Opens h o s (fun t => t = s) (dial wide h uri o) := by
  refine opens_of (f := fun r : Ops Transport × Transport × Bytes × CInt => r.2.1) uri hx ?_
  rintro ⟨ops, tr, host, port⟩ -
  cases tr with
  | tcp => exact (opens_tcpDial hfresh).ready
  | udp => exact (opens_udpDial hfresh).ready
  | quic => exact opens_quicDial hfresh hconn
  | unix => exact (opens_unixDial hfresh).ready
  | tty => exact opens_ttyDial host

lemma opens_listen (wide : ℤ → CInt) (uri : Bytes) (hx : (s.hose h).Shut) :
    Opens h o s (fun t => t = s) (listen wide h uri o) := by
  refine opens_of (f := fun r : Ops Transport × Transport × Bytes × CInt => r.2.1) uri hx ?_
  rintro ⟨ops, tr, host, port⟩ -
  cases tr with
  | tcp => exact (opens_tcpListen hfresh).ready
  | udp => exact (opens_udpListen hfresh).ready
  | quic => exact opens_quicListen hfresh
  | unix => exact (opens_unixListen hfresh).ready
  | tty => exact Spec.fail fun _ ht => .failed (ht.mono fun _ hx => hx.shut)

end Opening

end Suspenders.Hoses
