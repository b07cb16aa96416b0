import Suspenders.Io.HoseAccounts

/-!
# The use of descriptors

A connection that a listener accepts borrows the descriptor of the listener, and the close of such a connection sends
a last frame with it.  So a descriptor may be closed while others use it.

Calls that are `Careful` close a hose only when no call uses it, and a listener only when none of its connections is
left; and they do not read or write a hose that is being dialed.  In every run of them, no system call gets a descriptor
that is not open, and no call uses a connection that is not allocated (`hoses_open`).
-/

namespace Suspenders.Hoses

open Lib (Reachable Restrict)
open Lib.Scanf (CInt)

/-- The connection uses the descriptor of a listener. -/
def QuicConn.Borrows (y : QuicConn) (x : Hose) : Prop :=
  x.transport = some .quic ∧ x.roles.listener = true ∧ x.fd = y.fd

/-- The calls are tidy, a hose is closed only if no call needs it, and no connection borrows its descriptor, and it is
read or written only if no call opens or closes it. -/
def Careful (s : Sys) (e : Event) (t : Sys) : Prop :=
  Tidy s e t ∧
    match e with
    | .call _ (.close h) _ =>
      (∀ b, ¬ (s.pc b).Needs h ∧ ¬ (s.pc b).Reads h) ∧
        ∀ c y, s.conns c = some y → y.ownsFd = false → ¬ y.Borrows (s.hose h)
    | .call _ (.read h) _ | .call _ (.write h) _ => ∀ b, ¬ (s.pc b).Takes h
    | _ => True

namespace Sys

/-- Why the descriptor of a hose is open: the hose owns it, or it is a terminal, or a connection has it. -/
def Opened (s : Sys) (h fd : ℕ) : Prop :=
  (s.hose h).owned = some fd ∨ fd < 3 ∨
    ∃ c y, s.conns c = some y ∧ y.fd = some fd ∧ ((s.hose h).priv = some c ∨ ∃ a, s.pc a = .driving h c)

/-- The descriptors of hoses and connections are open, and so is what waiting calls use. -/
structure Open (s : Sys) : Prop where
  hose : ∀ {h fd}, (s.hose h).fd = some fd → s.Opened h fd
  conn : ∀ {c y}, s.conns c = some y → y.ownsFd = false → ∃ l, y.Borrows (s.hose l)
  uses : ∀ a, s.Uses (s.pc a)
  apart : ∀ {a b h}, (s.pc a).Reads h → ¬ (s.pc b).Takes h
  badUse : s.badUse = false

end Sys

section Open

variable {base : Finset ℕ} {s t : Sys} {a b c h fd : ℕ} {p : Pc} {y : QuicConn}

/-- The descriptor of a connection is open. -/
lemma Sys.Open.conn_mem (ho : s.Open) (hs : s.Inv base) (hc : s.conns c = some y) (hfd : y.fd = some fd) :
    fd ∈ s.fds := by
  by_cases hy : y.ownsFd = true
  · refine hs.fds.used_of (o := .conn c) ?_
    simp [Sys.owns, hc, QuicConn.owned, hy, hfd]
  · obtain ⟨l, htr, hl, hfd'⟩ := ho.conn hc (Bool.eq_false_of_not_eq_true hy)
    refine hs.fds.used_of (o := .hose l) ?_
    simp [Sys.owns, Hose.owned, htr, hl, hfd', hfd]

/-- The descriptor of a hose is open. -/
lemma Sys.Open.hose_mem (ho : s.Open) (hs : s.Inv base) (hbase : ∀ fd < 3, fd ∈ base) (hfd : (s.hose h).fd = some fd) :
    fd ∈ s.fds := by
  rcases ho.hose hfd with howned | hlt | ⟨c, y, hc, hy, -⟩
  · exact hs.fds.used_of (show s.owns (.hose h) = some fd from howned)
  · exact hs.fds.base_used (hbase fd hlt)
  · exact ho.conn_mem hs hc hy

lemma Sys.useFd_badUse {o : Option ℕ} (ho : ∀ q, o = some q → q ∈ s.fds) : (s.useFd o).badUse = s.badUse := by
  cases o with
  | none => rfl
  | some q => simp [Sys.useFd, ho q rfl]

lemma Sys.Open.congr (ho : s.Open) (hfds : t.fds = s.fds) (hconns : t.conns = s.conns) (hhose : t.hose = s.hose)
    (hpc : t.pc = s.pc) (hbad : t.badUse = false) : t.Open := by
  obtain ⟨fds, conns, hose, pc, badClose, badUse⟩ := t
  obtain rfl : fds = s.fds := hfds
  obtain rfl : conns = s.conns := hconns
  obtain rfl : hose = s.hose := hhose
  obtain rfl : pc = s.pc := hpc
  exact ⟨ho.hose, ho.conn, ho.uses, ho.apart, hbad⟩

/-- A connection that is allocated may be used. -/
lemma Sys.Open.useConn_badUse (ho : s.Open) (hs : s.Inv base) (hc : s.conns c = some y) :
    (s.useConn c).badUse = s.badUse := by
  simp only [Sys.useConn, hc]
  exact Sys.useFd_badUse fun q hq => ho.conn_mem hs hc hq

/-- What a step uses is open. -/
lemma Sys.Open.before (ho : s.Open) (hs : s.Inv base) (hbase : ∀ fd < 3, fd ∈ base) (e : Event) :
    (s.before e).badUse = false := by
  have hhose {g : ℕ} {o : Option ℕ} (hfd : (s.hose g).fd = o) : (s.useFd o).badUse = false :=
    (Sys.useFd_badUse fun q hq => ho.hose_mem hs hbase (hfd.trans hq)).trans ho.badUse
  cases e with
  | call a k o =>
    cases k with
    | onSocket h => exact hhose rfl
    | _ => exact ho.badUse
  | resume a o =>
    have huses := ho.uses a
    have hheld := hs.held a
    change (s.touch (s.pc a)).badUse = false
    cases hp : s.pc a with
    | idle => exact ho.badUse
    | connecting h fd =>
      rw [hp] at huses
      exact hhose huses.1
    | accepting l client fd =>
      rw [hp] at huses
      exact hhose huses.1
    | receiving l client c fd =>
      rw [hp] at huses
      exact hhose huses.2.1
    | driving h c =>
      rw [hp] at huses
      obtain ⟨fd, -, hc⟩ := huses
      exact (ho.useConn_badUse hs hc).trans ho.badUse
    | greeting l client c =>
      rw [hp] at huses
      obtain ⟨-, fd, -, hc⟩ := huses
      exact (ho.useConn_badUse hs hc).trans ho.badUse
    | closing h c =>
      rw [hp] at hheld
      obtain ⟨y, hc⟩ : ∃ y, s.conns c = some y :=
        Option.ne_none_iff_exists'.mp (hs.conns.used_of (show s.holds (.hose h) = some c from hheld))
      exact (ho.useConn_badUse hs hc).trans ho.badUse
    | inUse h fd c =>
      rw [hp] at huses
      cases c with
      | none => exact hhose huses.1
      | some c =>
        obtain ⟨hpriv, rfl⟩ := huses
        obtain ⟨y, hc⟩ : ∃ y, s.conns c = some y :=
          Option.ne_none_iff_exists'.mp (hs.conns.used_of (show s.holds (.hose h) = some c from hpriv))
        exact (ho.useConn_badUse hs hc).trans ho.badUse

/-- What a call uses is in the hoses that it needs or reads, and in its connection. -/
lemma Sys.Uses.congr (hu : s.Uses p) (hhose : ∀ g, p.Needs g ∨ p.Reads g → t.hose g = s.hose g)
    (hconn : ∀ c, p.conn = some c → t.conns c = s.conns c) : t.Uses p := by
  cases p with
  | idle => trivial
  | closing => trivial
  | connecting g fd => simpa only [Sys.Uses, hhose g (.inl (.inl rfl))] using hu
  | driving g c => simpa only [Sys.Uses, hhose g (.inl (.inl rfl)), hconn c rfl] using hu
  | accepting l client fd => simpa only [Sys.Uses, hhose l (.inl (.inr rfl))] using hu
  | receiving l client c fd => simpa only [Sys.Uses, hhose l (.inl (.inr rfl)), hconn c rfl] using hu
  | greeting l client c => simpa only [Sys.Uses, hhose l (.inl (.inr rfl)), hconn c rfl] using hu
  | inUse g fd c =>
    cases c with
    | none => simpa only [Sys.Uses, hhose g (.inr rfl)] using hu
    | some c => simpa only [Sys.Uses, hhose g (.inr rfl)] using hu

/-- A hose that is read is open. -/
lemma Sys.Open.not_vacant (ho : s.Open) (hb : (s.pc b).Reads h) : ¬ (s.hose h).Vacant := by
  intro hv
  have huses := ho.uses b
  cases hp : s.pc b with
  | inUse g fd c =>
    rw [hp] at hb huses
    obtain rfl : g = h := hb
    cases c with
    | none => exact huses.2 (huses.1.symm.trans hv.1)
    | some c => exact Option.some_ne_none c (huses.1.symm.trans hv.2)
  | _ => rw [hp] at hb; exact hb

/-- A step of a call that changes one hose at most, which no other call needs or reads, and one connection at most,
which is the call's or in that hose. -/
lemma Sys.Open.step {r : Option ℕ} (ho : s.Open) (hs : s.Inv base) (hpc : t.pc = Function.update s.pc a p)
    (hhose : ∀ g, r ≠ some g → t.hose g = s.hose g)
    (hcare : ∀ g, r = some g → ∀ b, b ≠ a → ¬ (s.pc b).Needs g ∧ ¬ (s.pc b).Reads g)
    (hkeep : ∀ c, s.conns c ≠ none →
      t.conns c = s.conns c ∨ (s.pc a).conn = some c ∨ ∃ g, r = some g ∧ (s.hose g).priv = some c)
    (hnew : ∀ c y, t.conns c = some y → y.ownsFd = false → s.conns c = some y ∨ ∃ l, r ≠ some l ∧ y.Borrows (s.hose l))
    (hlisten : ∀ g, r = some g → ∀ c y, s.conns c = some y → y.ownsFd = false → ¬ y.Borrows (s.hose g))
    (hopen : ∀ g, r = some g → ∀ fd, (t.hose g).fd = some fd → t.Opened g fd)
    (hdriving : ∀ g c, s.pc a = .driving g c → r = some g) (huses : t.Uses p)
    (hreads : ∀ g, p.Reads g → ∀ b, b ≠ a → ¬ (s.pc b).Takes g)
    (htakes : ∀ g, p.Takes g → ∀ b, b ≠ a → ¬ (s.pc b).Reads g)
    (hbad : t.badUse = s.badUse) : t.Open := by
  have hself : t.pc a = p := by rw [hpc, Function.update_self]
  have hpcs {b : ℕ} (hb : b ≠ a) : t.pc b = s.pc b := by rw [hpc, Function.update_of_ne hb]
  have hconns {w : Holder} (hw : w ≠ .call a) (hw' : ∀ g, r = some g → w ≠ .hose g) {c : ℕ} (hc : s.holds w = some c) :
      t.conns c = s.conns c := by
    rcases hkeep c (hs.conns.used_of hc) with heq | hcall | ⟨g, hg, hpriv⟩
    · exact heq
    · exact absurd (hs.conns.unique hc (show s.holds (.call a) = some c from hcall)) hw
    · exact absurd (hs.conns.unique hc (show s.holds (.hose g) = some c from hpriv)) (hw' g hg)
  refine ⟨fun {g fd} hfd => ?_, fun {c y} hc hy => ?_, fun b => ?_, fun {b b' g} hb hb' => ?_, hbad.trans ho.badUse⟩
  · by_cases hg : r = some g
    · exact hopen g hg fd hfd
    · rw [hhose g hg] at hfd
      rcases ho.hose hfd with howned | hlt | ⟨c, y, hc, hy, hwhere⟩
      · exact .inl (by rwa [hhose g hg])
      · exact .inr (.inl hlt)
      · refine .inr (.inr ⟨c, y, ?_, hy, ?_⟩)
        · rw [← hc]
          rcases hwhere with hpriv | ⟨b, hb⟩
          · exact hconns (w := .hose g) (by rintro ⟨⟩) (fun g' hg' heq => hg (by cases heq; exact hg')) hpriv
          · refine hconns (w := .call b) (fun heq => ?_) (fun _ _ heq => by cases heq) (by rw [Sys.holds, hb]; rfl)
            cases heq
            exact hg (hdriving g c hb)
        · rcases hwhere with hpriv | ⟨b, hb⟩
          · exact .inl (by rwa [hhose g hg])
          · refine .inr ⟨b, ?_⟩
            rwa [hpcs fun heq => hg (hdriving g c (heq ▸ hb))]
  · rcases hnew c y hc hy with hc | ⟨l, hl, hborrows⟩
    · obtain ⟨l, hborrows⟩ := ho.conn hc hy
      have hne : r ≠ some l := fun heq => hlisten l heq c y hc hy hborrows
      exact ⟨l, by rwa [hhose l hne]⟩
    · exact ⟨l, by rwa [hhose l hl]⟩
  · by_cases hba : b = a
    · rw [hba, hself]
      exact huses
    · rw [hpcs hba]
      refine (ho.uses b).congr (fun g hg => hhose g fun heq => ?_) fun c hc => ?_
      · obtain ⟨hneeds, hreads⟩ := hcare g heq b hba
        exact hg.elim hneeds hreads
      · exact hconns (w := .call b) (fun heq => hba (by cases heq; rfl)) (fun _ _ heq => by cases heq) hc
  · by_cases hba : b = a
    · subst hba
      rw [hself] at hb
      by_cases hba' : b' = b
      · subst hba'
        rw [hself] at hb'
        cases p <;> first | exact hb | exact hb'
      · rw [hpcs hba'] at hb'
        exact hreads g hb b' hba' hb'
    · rw [hpcs hba] at hb
      by_cases hba' : b' = a
      · subst hba'
        rw [hself] at hb'
        exact htakes g hb' b hba hb
      · rw [hpcs hba'] at hb'
        exact ho.apart hb hb'

/-- A call goes on, and no hose and no connection changes. -/
lemma Sys.Open.setPc (ho : s.Open) (hs : s.Inv base) (hdriving : ∀ g c, s.pc a ≠ .driving g c) (huses : s.Uses p)
    (hreads : ∀ g, p.Reads g → ∀ b, b ≠ a → ¬ (s.pc b).Takes g)
    (htakes : ∀ g, p.Takes g → ∀ b, b ≠ a → ¬ (s.pc b).Reads g) : (s.setPc a p).Open := by
  refine ho.step (r := none) hs rfl (fun _ _ => rfl) (fun _ hg => ?_) (fun _ _ => .inl rfl) (fun _ _ hc _ => .inl hc)
    (fun _ hg => ?_) (fun _ hg => ?_) (fun g c hd => absurd hd (hdriving g c))
    (huses.congr (fun _ _ => rfl) fun _ _ => rfl) hreads htakes rfl
  · cases hg
  · cases hg
  · cases hg

lemma Sys.closeFd_badUse (o : Option ℕ) (s : Sys) : (s.closeFd o).badUse = s.badUse := by
  cases o <;> rfl

/-- No other call needs or reads the hose, and no connection borrows its descriptor. -/
structure Sys.Spared (s : Sys) (a h : ℕ) : Prop where
  calls : ∀ b, b ≠ a → ¬ (s.pc b).Needs h ∧ ¬ (s.pc b).Reads h
  conns : ∀ c y, s.conns c = some y → y.ownsFd = false → ¬ y.Borrows (s.hose h)

/-- A step of a call that changes a hose. -/
lemma Sys.Open.change (ho : s.Open) (hs : s.Inv base) (hsp : s.Spared a h) (hpc : t.pc = Function.update s.pc a p)
    (hhose : ∀ g, g ≠ h → t.hose g = s.hose g)
    (hkeep : ∀ c, s.conns c ≠ none → t.conns c = s.conns c ∨ (s.pc a).conn = some c ∨ (s.hose h).priv = some c)
    (hnew : ∀ c y, t.conns c = some y → y.ownsFd = false → s.conns c = some y)
    (hopen : ∀ fd, (t.hose h).fd = some fd → t.Opened h fd) (hdriving : ∀ g c, s.pc a = .driving g c → h = g)
    (huses : t.Uses p) (hreads : ∀ g, ¬ p.Reads g) (htakes : ∀ g, p.Takes g → g = h) (hbad : t.badUse = s.badUse) :
    t.Open := by
  refine ho.step (r := some h) hs hpc (fun g hg => hhose g fun heq => hg (by rw [heq])) ?_ (fun c hc => ?_)
    (fun c y hc hy => .inl (hnew c y hc hy)) ?_ ?_ (fun g c hd => congrArg some (hdriving g c hd)) huses
    (fun g hg => absurd hg (hreads g)) (fun g hg b hb => ?_) hbad
  · rintro g ⟨⟩
    exact hsp.calls
  · rcases hkeep c hc with heq | hcall | hpriv
    · exact .inl heq
    · exact .inr (.inl hcall)
    · exact .inr (.inr ⟨h, rfl, hpriv⟩)
  · rintro g ⟨⟩
    exact hsp.conns
  · rintro g ⟨⟩
    exact hopen
  · rw [htakes g hg]
    exact (hsp.calls b hb).2

/-- A hose changes, and the call returns. -/
lemma Sys.Open.setHose {x : Hose} (ho : s.Open) (hs : s.Inv base) (hsp : s.Spared a h)
    (hdriving : ∀ g c, s.pc a = .driving g c → h = g)
    (hx : ∀ fd, x.fd = some fd → x.owned = some fd ∨ fd < 3 ∨
      ∃ c y, s.conns c = some y ∧ y.fd = some fd ∧ x.priv = some c) :
    ((s.setHose h x).setPc a .idle).Open := by
  have hself : ((s.setHose h x).setPc a .idle).hose h = x := Function.update_self ..
  refine ho.change hs hsp rfl (fun g hg => Function.update_of_ne hg ..) (fun _ _ => .inl rfl) (fun _ _ hc _ => hc)
    (fun fd hfd => ?_) hdriving trivial (fun _ hg => hg) (fun _ hg => hg.elim) rfl
  rw [hself] at hfd
  rcases hx fd hfd with howned | hlt | ⟨c, y, hc, hy, hpriv⟩
  · exact .inl (by rwa [hself])
  · exact .inr (.inl hlt)
  · exact .inr (.inr ⟨c, y, hc, hy, .inl (by rw [hself, hpriv])⟩)

/-- A hose gets a socket. -/
lemma Sys.Open.got {x : Hose} (ho : s.Open) (hs : s.Inv base) (hsp : s.Spared a h)
    (hdriving : ∀ g c, s.pc a = .driving g c → h = g) (hfd : x.fd = some fd) (howned : x.owned = some fd)
    (hp : p = .idle ∨ p = .connecting h (some fd)) :
    (({ s.setHose h x with fds := insert fd s.fds } : Sys).setPc a p).Open := by
  have hself : (({ s.setHose h x with fds := insert fd s.fds } : Sys).setPc a p).hose h = x := Function.update_self ..
  refine ho.change (p := p) hs hsp rfl (fun g hg => Function.update_of_ne hg ..) (fun _ _ => .inl rfl)
    (fun _ _ hc _ => hc) (fun fd' hfd' => ?_) hdriving ?_ (fun g hg => ?_) (fun g hg => ?_) rfl
  · rw [hself, hfd] at hfd'
    cases hfd'
    exact .inl (by rwa [hself])
  · rcases hp with rfl | rfl
    · trivial
    · exact ⟨(congrArg Hose.fd hself).trans hfd, Option.some_ne_none fd⟩
  · rcases hp with rfl | rfl <;> exact hg
  · rcases hp with rfl | rfl
    · exact hg.elim
    · exact Eq.symm hg

/-- A hose gets a socket that belongs to a new connection. -/
lemma Sys.Open.driving {x : Hose} (ho : s.Open) (hs : s.Inv base) (hsp : s.Spared a h)
    (hdriving : ∀ g c, s.pc a = .driving g c → h = g) (hfd : x.fd = some fd) (hc : s.conns c = none) :
    ((({ s.setHose h x with fds := insert fd s.fds } : Sys).setConn c (some ⟨some fd, true⟩)).setPc a
      (.driving h c)).Open := by
  generalize hu : (({ s.setHose h x with fds := insert fd s.fds } : Sys).setConn c (some ⟨some fd, true⟩)).setPc a
    (.driving h c) = u
  have hself : u.hose h = x := by
    subst hu
    exact Function.update_self ..
  have hconn : u.conns c = some ⟨some fd, true⟩ := by
    subst hu
    exact Function.update_self ..
  have hconns {d : ℕ} (hd : d ≠ c) : u.conns d = s.conns d := by
    subst hu
    exact Function.update_of_ne hd ..
  have hpc : u.pc = Function.update s.pc a (.driving h c) := by
    subst hu
    rfl
  refine ho.change hs hsp hpc (fun g hg => ?_) (fun d hd => .inl ?_) (fun d y hd hy => ?_) (fun fd' hfd' => ?_) hdriving
    ⟨fd, by rw [hself, hfd], hconn⟩ (fun _ hg => hg) (fun g hg => Eq.symm hg) (by subst hu; rfl)
  · subst hu
    exact Function.update_of_ne hg ..
  · exact hconns fun heq => hd (heq ▸ hc)
  · have hne : d ≠ c := by
      rintro rfl
      rw [hconn] at hd
      cases hd
      cases hy
    rwa [hconns hne] at hd
  · rw [hself, hfd] at hfd'
    cases hfd'
    exact .inr (.inr ⟨c, _, hconn, rfl, .inr ⟨a, by rw [hpc, Function.update_self]⟩⟩)

/-- A listener makes a connection, which borrows its descriptor. -/
lemma Sys.Open.alloc {l client : ℕ} (ho : s.Open) (hs : s.Inv base) (hdriving : ∀ g c, s.pc a ≠ .driving g c)
    (hv : (s.hose client).Vacant) (htr : (s.hose l).transport = some .quic) (hl : (s.hose l).roles.listener = true)
    (hc : s.conns c = none) :
    ((s.setConn c (some ⟨(s.hose l).fd, false⟩)).setPc a (.receiving l client c (s.hose l).fd)).Open := by
  generalize hu : (s.setConn c (some ⟨(s.hose l).fd, false⟩)).setPc a (.receiving l client c (s.hose l).fd) = u
  have hconn : u.conns c = some ⟨(s.hose l).fd, false⟩ := by
    subst hu
    exact Function.update_self ..
  have hconns {d : ℕ} (hd : d ≠ c) : u.conns d = s.conns d := by
    subst hu
    exact Function.update_of_ne hd ..
  have hhose : u.hose = s.hose := by
    subst hu
    rfl
  have huses : u.Uses (.receiving l client c (s.hose l).fd) :=
    ⟨by rw [hhose, hl], by rw [hhose], (hs.sound l).listener hl, hconn⟩
  refine ho.step (r := none) hs (by subst hu; rfl) (fun g _ => by rw [hhose]) (fun _ hg => ?_)
    (fun d hd => .inl (hconns fun heq => hd (heq ▸ hc))) (fun d y hd _ => ?_) (fun _ hg => ?_) (fun _ hg => ?_)
    (fun g d hd => absurd hd (hdriving g d)) huses (fun _ hg => hg.elim) (fun g hg b _ hb => ?_) (by subst hu; rfl)
  · cases hg
  · by_cases hdc : d = c
    · subst hdc
      rw [hconn] at hd
      cases hd
      exact .inr ⟨l, Option.some_ne_none l |>.symm, htr, hl, rfl⟩
    · exact .inl (by rwa [hconns hdc] at hd)
  · cases hg
  · cases hg
  · obtain rfl : client = g := hg
    exact ho.not_vacant hb hv

/-- A hose is closed, and its own descriptor with it. -/
lemma Sys.Open.shut {x : Hose} (ho : s.Open) (hs : s.Inv base) (hsp : s.Spared a h)
    (hdriving : ∀ g c, s.pc a = .driving g c → h = g) (hx : x.Shut) :
    (((s.closeFd (s.hose h).owned).setHose h x).setPc a .idle).Open := by
  obtain ⟨hconns, hhoses, hpcs⟩ := s.closeFd_frame (s.hose h).owned
  have hself : (((s.closeFd (s.hose h).owned).setHose h x).setPc a .idle).hose h = x := Function.update_self ..
  refine ho.change (p := .idle) hs hsp (by rw [← hpcs]; rfl) (fun g hg => ?_) (fun d _ => .inl (congrFun hconns d))
    (fun d y hd _ => (congrFun hconns d).symm.trans hd) (fun fd hfd => ?_) hdriving trivial (fun _ hg => hg)
    (fun _ hg => hg.elim) (s.closeFd_badUse _)
  · exact (Function.update_of_ne hg ..).trans (congrFun hhoses g)
  · rw [hself, hx.fd] at hfd
    cases hfd

/-- A hose is closed, and a connection of the call or of the hose is freed. -/
lemma Sys.Open.dropConn {x : Hose} (ho : s.Open) (hs : s.Inv base) (hsp : s.Spared a h)
    (hdriving : ∀ g c, s.pc a = .driving g c → h = g) (hc : s.conns c = some y)
    (hw : (s.pc a).conn = some c ∨ (s.hose h).priv = some c) (hx : x.Shut) :
    (((s.dropConn c y).setHose h x).setPc a .idle).Open := by
  obtain ⟨-, hconns, hhoses, hpcs, -⟩ := hs.dropConn hc
  have hself : (((s.dropConn c y).setHose h x).setPc a .idle).hose h = x := Function.update_self ..
  have hother {d : ℕ} (hd : d ≠ c) : (s.dropConn c y).conns d = s.conns d := by rw [hconns, Function.update_of_ne hd]
  refine ho.change (p := .idle) hs hsp (by rw [← hpcs]; rfl) (fun g hg => ?_) (fun d _ => ?_) (fun d z hd _ => ?_)
    (fun fd hfd => ?_) hdriving trivial (fun _ hg => hg) (fun _ hg => hg.elim) (s.closeFd_badUse _)
  · exact (Function.update_of_ne hg ..).trans (congrFun hhoses g)
  · by_cases hdc : d = c
    · exact .inr (hdc ▸ hw)
    · exact .inl (hother hdc)
  · have hdc : d ≠ c := by
      rintro rfl
      have hnone : (s.dropConn d y).conns d = none := by rw [hconns, Function.update_self]
      exact Option.some_ne_none z (hd.symm.trans hnone)
    exact (hother hdc).symm.trans hd
  · rw [hself, hx.fd] at hfd
    cases hfd

/-- Every effect keeps what is used open, if no other call uses the hose that changes, and no connection borrows its
descriptor. -/
lemma Sys.Open.effect {r : Subject} (ho : s.Open) (hs : s.Inv base) (ht : Effect s a r t)
    (hcare : ∀ g, r = .change g → s.Spared a g) (hread : ∀ g, r = .read g → ∀ b, ¬ (s.pc b).Takes g) : t.Open := by
  have hno (hc : (s.pc a).conn = none) (g d : ℕ) : s.pc a ≠ .driving g d := by
    intro hd
    rw [hd] at hc
    cases hc
  have hidle (hi : s.pc a = .idle) : (s.pc a).conn = none := by
    rw [hi]
    rfl
  have htaken {h : ℕ} (hh : (s.pc a).Takes h) (g d : ℕ) (hd : s.pc a = .driving g d) : h = g := by
    rw [hd] at hh
    exact Eq.symm hh
  cases ht with
  | moves _ _ _ _ huses hreads htakes hnot =>
    refine ho.setPc hs hnot (huses (ho.uses a)) (fun g hg b _ => ho.apart (hreads g hg)) fun g hg b _ hb => ?_
    rcases htakes g hg with hg | hv
    · exact ho.apart hb hg
    · exact ho.not_vacant hb hv
  | @reads h fd c hi huses =>
    refine ho.setPc hs (hno (hidle hi)) huses (fun g hg b _ => ?_) fun _ hg => hg.elim
    obtain rfl : h = g := hg
    exact hread h rfl b
  | @closing h c hi hpriv _ =>
    refine ho.setPc hs (hno (hidle hi)) trivial (fun _ hg => hg.elim) fun g hg b hb => ?_
    obtain rfl : h = g := hg
    exact ((hcare h rfl).calls b hb).2
  | kept hconn _ _ _ _ _ hfd =>
    refine ho.setHose hs (hcare _ rfl) (fun g d hd => absurd hd (hno hconn g d)) fun fd hx => ?_
    rcases hfd fd hx with howned | hlt
    · exact .inl howned
    · exact .inr (.inl hlt)
  | got _ hconn _ _ hfd howned _ _ hp =>
    exact ho.got hs (hcare _ rfl) (fun g d hd => absurd hd (hno hconn g d)) hfd howned (hp.imp_right And.left)
  | driving _ hi _ _ hfd _ hc =>
    exact ho.driving hs (hcare _ rfl) (fun g d hd => absurd hd (hno (hidle hi) g d)) hfd hc
  | alloc hi hv _ htr hl hc => exact ho.alloc hs (hno (hidle hi)) hv htr hl hc
  | filled htakes _ _ _ _ _ _ hxp _ hx =>
    refine ho.setHose hs (hcare _ rfl) (htaken htakes) fun fd hfd => ?_
    obtain ⟨fd', y, hfd', hc, hy⟩ := hx (ho.uses a)
    rw [hfd] at hfd'
    cases hfd'
    exact .inr (.inr ⟨_, y, hc, hy, hxp⟩)
  | shut hx _ _ hconn _ => exact ho.shut hs (hcare _ rfl) (fun g d hd => absurd hd (hno hconn g d)) hx
  | givesUp htakes hc hw _ _ hx _ _ => exact ho.dropConn hs (hcare _ rfl) (htaken htakes) hc (.inl hw) hx
  | shutConn hc hw hconn hx _ _ =>
    exact ho.dropConn hs (hcare _ rfl) (fun g d hd => absurd hd (hno hconn g d)) hc (.inr hw) hx

lemma Sys.Open.start (base : Finset ℕ) : (Sys.start base).Open := by
  refine ⟨?_, ?_, fun _ => trivial, fun hb => hb.elim, rfl⟩
  · intro h fd hfd
    cases hfd
  · intro c y hc
    cases hc

/-- A careful step. -/
lemma Sys.Open.careful {wide : ℤ → CInt} {e : Event} (hbase : ∀ fd < 3, fd ∈ base) (hs : s.Inv base) (ho : s.Open)
    (h : Restrict (Step wide) Careful s e t) : t.Open := by
  obtain ⟨hstep, htidy, hcareful⟩ := h
  obtain ⟨r, habout, hr⟩ := hs.step_effect ⟨hstep, htidy⟩
  obtain ⟨hfds, hconns, hhose, hpcs, hbad⟩ := s.before_frame e
  have hs' := hs.congr hfds hconns hhose hpcs hbad
  have ho' : (s.before e).Open := ho.congr hfds hconns hhose hpcs (ho.before hs hbase e)
  have hvacant {g : ℕ} (hv : (s.hose g).Vacant) (b : ℕ) : ¬ (s.pc b).Reads g := fun hb => ho.not_vacant hb hv
  refine ho'.effect hs' hr ?_ ?_
  · rintro g rfl
    suffices hsp : s.Spared e.ctx g by
      refine ⟨?_, ?_⟩
      · rw [hpcs]
        exact hsp.calls
      · rw [hhose, hconns]
        exact hsp.conns
    have hopens (hv : (s.hose g).Vacant) (hneeds : ∀ b, ¬ (s.pc b).Needs g) : s.Spared e.ctx g := by
      refine ⟨fun b _ => ⟨hneeds b, hvacant hv b⟩, fun c y _ _ hb => ?_⟩
      exact Bool.false_ne_true (((hs.sound g).not_listener hv).symm.trans hb.2.1)
    cases e with
    | resume a o =>
      refine ⟨fun b hb => ⟨hs.not_needs habout hb, fun hr => ho.apart hr habout⟩, fun c y _ _ hb => ?_⟩
      exact Bool.false_ne_true ((hs.taken_listener habout).symm.trans hb.2.1)
    | call a k o =>
      cases k with
      | init h =>
        obtain rfl : h = g := habout
        exact hopens htidy.1 htidy.2
      | dial h uri =>
        obtain rfl : h = g := habout
        exact hopens htidy.1 htidy.2
      | listen h uri =>
        obtain rfl : h = g := habout
        exact hopens htidy.1 htidy.2
      | close h =>
        obtain rfl : h = g := habout
        exact ⟨fun b _ => hcareful.1 b, hcareful.2⟩
      | accept | read | write | onSocket => exact habout.elim
  · rintro g rfl b
    rw [hpcs]
    cases e with
    | resume a o => exact habout.elim
    | call a k o =>
      cases k with
      | read h =>
        obtain rfl : h = g := habout
        exact hcareful b
      | write h =>
        obtain rfl : h = g := habout
        exact hcareful b
      | init | dial | listen | accept | close | onSocket => exact habout.elim

/-- In every run of careful calls, no system call gets a descriptor that is not open, no connection is used that is not
allocated, and the descriptors of hoses and connections are open. -/
theorem hoses_open {wide : ℤ → CInt} (hbase : ∀ fd < 3, fd ∈ base)
    (h : Reachable (Restrict (Step wide) Careful) (.start base) s) :
    s.badUse = false ∧ (∀ g fd, (s.hose g).fd = some fd → fd ∈ s.fds) ∧
      ∀ c y fd, s.conns c = some y → y.fd = some fd → fd ∈ s.fds := by
  have hboth : s.Inv base ∧ s.Open := by
    refine h.invariant (I := fun s => s.Inv base ∧ s.Open) ⟨.start base, .start base⟩ ?_
    rintro s e t ⟨hs, ho⟩ hstep
    exact ⟨hs.step ⟨hstep.1, hstep.2.1⟩, ho.careful hbase hs hstep⟩
  obtain ⟨hs, ho⟩ := hboth
  exact ⟨ho.badUse, fun g fd hfd => ho.hose_mem hs hbase hfd, fun c y fd hc hfd => ho.conn_mem hs hc hfd⟩

/-- The descriptor of a hose that is connected is open. -/
theorem hoses_open_unix : unixConnected.badUse = false ∧ 3 ∈ unixConnected.fds := by
  have hreach : Reachable (Restrict (Step zeroInt) Careful) (.start {0, 1, 2}) unixConnected :=
    ⟨_, .cons ⟨unixDialing_step, unixDialing_tidy, trivial⟩ <| .cons ⟨unixConnected_step, trivial, trivial⟩ <| .nil _⟩
  have hbase : ∀ fd < 3, fd ∈ ({0, 1, 2} : Finset ℕ) := by decide
  exact ⟨(hoses_open hbase hreach).1, (hoses_open hbase hreach).2.1 0 3 rfl⟩

end Open

end Suspenders.Hoses
