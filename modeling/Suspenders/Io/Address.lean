import Suspenders.Io.Transport

/-!
# The addresses of the socket transports

`tcp://`, `udp://` and `unix://` are registered by `suspenders_init`.  Their functions make an address from the
host and the port, or from the path, and connect to it or bind it.

A URI spells an address if it is made up of a host, a colon and a port below `2 ^ 16`, or of a path.  The
transports use the address that is spelled, and none otherwise, as long as the text is not cut short anywhere and
nothing in it is passed over (`Whole`, `open_exact_iff`): what stands around the port, what the cast to
`uint16_t` drops, what the two copies of a path leave out, and, in a listen, the host.
-/

namespace Suspenders.Io

open Lib (Bytes)
open Lib.Scanf

/-- What the C library and the platform say. -/
structure Libc where
  /-- `inet_pton(AF_INET, ..)`: the address that a text spells. -/
  pton : Bytes → Option ℕ
  /-- `sizeof(addr.sun_path)` -/
  sunPath : ℕ
  /-- What `sscanf` stores for a number that is not an `int`. -/
  wide : ℤ → CInt

/-- Which system calls succeed. -/
structure Net where
  /-- `socket` -/
  socket : Bool
  /-- `suspenders_set_nonblocking` -/
  nonblocking : Bool
  /-- `connect`, or `s_io_connect` -/
  connect : Bool
  /-- `bind` -/
  bind : Bool
  /-- `listen` -/
  listen : Bool

/-- A socket address. -/
inductive Addr
  /-- `sockaddr_in` -/
  | inet (ip port : ℕ)
  /-- `sockaddr_un` -/
  | unix (path : Bytes)
  deriving DecidableEq

/-- The system calls that name an address. -/
inductive SysCall
  | connect (a : Addr)
  | bind (a : Addr)
  | unlink (path : Bytes)
  | listen
  deriving DecidableEq

/-- A dial or listen function: the system calls it makes, and what it returns. -/
abbrev TransportFn := Net → Bytes → CInt → List SysCall × Bool

/-- Opening a non-blocking socket first. -/
def withSocket (net : Net) (k : List SysCall × Bool) : List SysCall × Bool :=
  if net.socket && net.nonblocking then k else ([], false)

/-- `(uint16_t)port` -/
def port16 (port : CInt) : ℕ := (port.1 % 2 ^ 16).toNat

/-- `INADDR_ANY` -/
def inaddrAny : ℕ := 0

/-- What `tcp_dial` and `udp_dial` do. -/
def inetDial (lib : Libc) : TransportFn := fun net host port =>
  withSocket net <|
    match lib.pton host with
    | none => ([], false)
    | some ip => ([.connect (.inet ip (port16 port))], net.connect)

/-- `tcp_dial` -/
def tcpDial (lib : Libc) : TransportFn := inetDial lib

/-- `tcp_listen` -/
def tcpListen : TransportFn := fun net _ port =>
  withSocket net <|
    if net.bind then ([.bind (.inet inaddrAny (port16 port)), .listen], net.listen)
    else ([.bind (.inet inaddrAny (port16 port))], false)

/-- `udp_dial` -/
def udpDial (lib : Libc) : TransportFn := inetDial lib

/-- `udp_listen` -/
def udpListen : TransportFn := fun net _ port =>
  withSocket net ([.bind (.inet inaddrAny (port16 port))], net.bind)

/-- What `strncpy` leaves of a path in a zeroed `sun_path`. -/
def sunPath (lib : Libc) (path : Bytes) : Bytes := path.take (lib.sunPath - 1)

/-- `unix_dial` -/
def unixDial (lib : Libc) : TransportFn := fun net path _ =>
  withSocket net ([.connect (.unix (sunPath lib path))], net.connect)

/-- `unix_listen` -/
def unixListen (lib : Libc) : TransportFn := fun net path _ =>
  withSocket net <|
    if net.bind then ([.unlink path, .bind (.unix (sunPath lib path)), .listen], net.listen)
    else ([.unlink path, .bind (.unix (sunPath lib path))], false)

/-- `tty_dial` -/
def ttyDial : TransportFn := fun _ device _ =>
  ([], device = cstr ['s', 't', 'd', 'i', 'n'] ∨ device = cstr ['s', 't', 'd', 'o', 'u', 't'] ∨
    device = cstr ['s', 't', 'd', 'e', 'r', 'r'])

/-- `tcp_transport_ops` -/
def tcpOps (lib : Libc) : Ops TransportFn := ⟨tcpScheme, some (tcpDial lib), some tcpListen⟩

/-- `udp_transport_ops` -/
def udpOps (lib : Libc) : Ops TransportFn := ⟨udpScheme, some (udpDial lib), some udpListen⟩

/-- `unix_transport_ops` -/
def unixOps (lib : Libc) : Ops TransportFn := ⟨unixScheme, some (unixDial lib), some (unixListen lib)⟩

/-- `tty_transport_ops` -/
def ttyOps : Ops TransportFn := ⟨ttyScheme, some ttyDial, none⟩

/-- `quic_transport_ops`, in a build that has it. -/
abbrev QuicOps := Option { o : Ops TransportFn // o.scheme = quicScheme }

/-- The registrations of `suspenders_init`. -/
def initCalls (lib : Libc) (quic : QuicOps) : List (Option (Ops TransportFn)) :=
  [some (tcpOps lib), some (udpOps lib), quic.map Subtype.val, some (unixOps lib), some ttyOps]

/-- A dial or a listen after `suspenders_init` and some further registrations. -/
def openHose (side : Side) (lib : Libc) (quic : QuicOps) (calls : List (Option (Ops TransportFn))) (uri : Bytes)
    (net : Net) : List SysCall × Bool :=
  match hoseOpen side lib.wide (registerAll [] (initCalls lib quic ++ calls)) uri with
  | none => ([], false)
  | some (_, f, host, port) => f net host port

/-! ## What a URI spells -/

/-- The address that a URI spells. -/
inductive Spells (lib : Libc) : Bytes → Addr → Prop
  /-- A host, a colon and a port that is a decimal number below `2 ^ 16`. -/
  | inet {scheme host port : Bytes} {ip : ℕ} : scheme = tcpScheme ∨ scheme = udpScheme → colon ∉ host →
      lib.pton host = some ip → IsDecimal port → value port < 2 ^ 16 →
      Spells lib (scheme ++ (host ++ colon :: port)) (.inet ip (value port))
  /-- A path. -/
  | unix (path : Bytes) : Spells lib (unixScheme ++ path) (.unix path)

/-- The URIs of the other schemes of the table. -/
def Foreign (uri : Bytes) : Prop := quicScheme <+: uri ∨ pipeScheme <+: uri ∨ ttyScheme <+: uri

/-- The call gets as far as `connect` or `bind` with an address. -/
def Reached (a : Addr) (calls : List SysCall) : Prop := .connect a ∈ calls ∨ .bind a ∈ calls

/-- An address that is used is the one the URI spells, and a URI that spells none is rejected.  URIs of the other
transports are not meant. -/
def Exact (lib : Libc) (run : Net → List SysCall × Bool) (uri : Bytes) : Prop :=
  ¬ Foreign uri → (∀ net a, Reached a (run net).1 → Spells lib uri a) ∧
    ((∀ a, ¬ Spells lib uri a) → ∀ net, (run net).2 = false)

/-- What stands behind the first colon is a port, if it begins with a number and the host is one: for a listen
`INADDR_ANY`, whatever is written there.  A path fits into the buffer of the parser and into `sun_path`. -/
def Whole (lib : Libc) (side : Side) (uri : Bytes) : Prop :=
  (∀ scheme host text, scheme = tcpScheme ∨ scheme = udpScheme → uri = scheme ++ (host ++ colon :: text) →
    host ≠ [] → colon ∉ host → host.length ≤ 255 → NumberAhead text →
    match side with
    | .dial => lib.pton host = none ∨ (IsDecimal text ∧ value text < 2 ^ 16)
    | .listen => lib.pton host = some inaddrAny ∧ IsDecimal text ∧ value text < 2 ^ 16) ∧
  ∀ path, uri = unixScheme ++ path → path.length ≤ 255 ∧ path.length ≤ lib.sunPath - 1

/-! ## The transport functions -/

/-- Function `f` uses the address `target` says, or none. -/
structure Opens (f : TransportFn) (target : Bytes → CInt → Option Addr) : Prop where
  /-- It uses no other address. -/
  only : ∀ net host port a, Reached a (f net host port).1 → target host port = some a
  /-- It fails if there is none. -/
  fails : ∀ net host port, target host port = none → (f net host port).2 = false
  /-- It does use it if the system lets it. -/
  opens : ∀ host port a, target host port = some a → Reached a (f ⟨true, true, true, true, true⟩ host port).1

section Functions

variable (lib : Libc)

lemma opens_inetDial : Opens (inetDial lib) fun host port =>
    (lib.pton host).map fun ip => .inet ip (port16 port) where
  only := by
    intro net host port a h
    unfold inetDial withSocket at h
    split at h
    · split at h
      · simp [Reached] at h
      · rename_i ip hip
        simp only [Reached, List.mem_singleton, SysCall.connect.injEq, reduceCtorEq, or_false] at h
        rw [h, hip]
        rfl
    · simp [Reached] at h
  fails := by
    intro net host port h
    rw [Option.map_eq_none_iff] at h
    simp [inetDial, withSocket, h]
  opens := by
    intro host port a h
    obtain ⟨ip, hip, rfl⟩ := Option.map_eq_some_iff.mp h
    simp [inetDial, withSocket, hip, Reached]

lemma opens_tcpListen : Opens tcpListen fun _ port => some (.inet inaddrAny (port16 port)) where
  only := by
    intro net host port a h
    unfold tcpListen withSocket at h
    split_ifs at h <;> simp_all [Reached]
  fails := by simp
  opens := by simp [tcpListen, withSocket, Reached]

lemma opens_udpListen : Opens udpListen fun _ port => some (.inet inaddrAny (port16 port)) where
  only := by
    intro net host port a h
    unfold udpListen withSocket at h
    split_ifs at h <;> simp_all [Reached]
  fails := by simp
  opens := by simp [udpListen, withSocket, Reached]

lemma opens_unixDial : Opens (unixDial lib) fun path _ => some (.unix (sunPath lib path)) where
  only := by
    intro net host port a h
    unfold unixDial withSocket at h
    split_ifs at h <;> simp_all [Reached]
  fails := by simp
  opens := by simp [unixDial, withSocket, Reached]

lemma opens_unixListen : Opens (unixListen lib) fun path _ => some (.unix (sunPath lib path)) where
  only := by
    intro net host port a h
    unfold unixListen withSocket at h
    split_ifs at h <;> simp_all [Reached]
  fails := by simp
  opens := by simp [unixListen, withSocket, Reached]

end Functions

/-! ## What is registered -/

section Registered

variable {lib : Libc} {side : Side} {quic : QuicOps} {calls : List (Option (Ops TransportFn))} {uri rest : Bytes}

/-- The built-in transports are found, whatever is registered later. -/
lemma find_init {ops : Ops TransportFn} (h : ops = tcpOps lib ∨ ops = udpOps lib ∨ ops = unixOps lib) :
    find (registerAll [] (initCalls lib quic ++ calls)) ops.scheme = some ops := by
  refine First.find ?_
  rcases h with rfl | rfl | rfl
  · exact @first_of_new _ _ [] _ (by simp) (by simp)
  · refine @first_of_new _ _ [some (tcpOps lib)] _ ?_ (by simp)
    intro o ho
    simp only [List.mem_singleton, Option.some.injEq] at ho
    rw [ho]
    exact show tcpScheme ≠ udpScheme by decide
  · refine @first_of_new _ _ [some (tcpOps lib), some (udpOps lib), quic.map Subtype.val] _ ?_ (by simp)
    intro o ho
    simp only [List.mem_cons, List.not_mem_nil, or_false, Option.some.injEq] at ho
    rcases ho with rfl | rfl | ho
    · exact show tcpScheme ≠ unixScheme by decide
    · exact show udpScheme ≠ unixScheme by decide
    · obtain ⟨⟨q, hq⟩, -, rfl⟩ := Option.map_eq_some_iff.mp ho.symm
      rw [hq]
      exact show quicScheme ≠ unixScheme by decide

/-- A URI whose transport uses the address `target` says. -/
lemma exact_of_opens {ops : Ops TransportFn} {f : TransportFn} {host : Bytes} {port : CInt}
    {target : Bytes → CInt → Option Addr} (hf : Opens f target) (huri : ¬ Foreign uri)
    (hopen : hoseOpen side lib.wide (registerAll [] (initCalls lib quic ++ calls)) uri = some (ops, f, host, port)) :
    Exact lib (openHose side lib quic calls uri) uri ↔ ∀ a, target host port = some a → Spells lib uri a := by
  have hrun : openHose side lib quic calls uri = fun net => f net host port := by
    funext net
    rw [openHose, hopen]
  rw [hrun]
  constructor
  · intro hexact a ha
    exact (hexact huri).1 _ a (hf.opens host port a ha)
  · intro hspells _
    refine ⟨?_, ?_⟩
    · intro net a hreached
      exact hspells a (hf.only net host port a hreached)
    · intro hnone net
      refine hf.fails net host port ?_
      cases htarget : target host port with
      | none => rfl
      | some a => exact absurd (hspells a htarget) (hnone a)

lemma exact_of_none (hopen : hoseOpen side lib.wide (registerAll [] (initCalls lib quic ++ calls)) uri = none) :
    Exact lib (openHose side lib quic calls uri) uri := by
  intro _
  have hrun : ∀ net, openHose side lib quic calls uri net = ([], false) := by
    intro net
    rw [openHose, hopen]
  refine ⟨?_, fun _ net => by rw [hrun net]⟩
  intro net a hreached
  rw [hrun net] at hreached
  simp [Reached] at hreached

lemma hoseOpen_hostPort {F : Type*} {wide : ℤ → CInt} {reg : List (Ops F)} {ops : Ops F} {f : F} {proto : Proto}
    (hmem : (ops.scheme, proto) ∈ schemes) (hproto : proto.hostPort = true) (hfind : find reg ops.scheme = some ops)
    (hfn : ops.fn side = some f) (rest : Bytes) : hoseOpen side wide reg (ops.scheme ++ rest) =
      (scanHostPort wide rest).map fun r => (ops, f, r.1, r.2) := by
  rw [hoseOpen, parseUri_hostPort hmem hproto]
  cases scanHostPort wide rest with
  | none => rfl
  | some r => simp [hfind, hfn]

lemma hoseOpen_path {F : Type*} {wide : ℤ → CInt} {reg : List (Ops F)} {ops : Ops F} {f : F} {proto : Proto}
    (hmem : (ops.scheme, proto) ∈ schemes) (hproto : proto.hostPort = false) (hfind : find reg ops.scheme = some ops)
    (hfn : ops.fn side = some f) (rest : Bytes) : hoseOpen side wide reg (ops.scheme ++ rest) =
      some (ops, f, rest.take 255, ⟨0, by decide⟩) := by
  rw [hoseOpen, parseUri_path hmem hproto]
  simp [hfind, hfn]

end Registered

/-! ## The condition -/

section Condition

variable {lib : Libc} {side : Side} {quic : QuicOps} {calls : List (Option (Ops TransportFn))} {rest : Bytes}

/-- No scheme of the table begins another one. -/
lemma scheme_unique {s t : Bytes} {p q : Proto} (hs : (s, p) ∈ schemes) (ht : (t, q) ∈ schemes) {x y : Bytes}
    (h : s ++ x = t ++ y) : s = t ∧ x = y := by
  have hfind := find?_schemes hs x
  rw [h, find?_schemes ht y] at hfind
  obtain ⟨rfl, -⟩ := Prod.mk.inj (Option.some.inj hfind)
  exact ⟨rfl, List.append_cancel_left h⟩

lemma port16_eq {port : CInt} {v : ℕ} (h : port.1 = v) (hv : v < 2 ^ 16) : port16 port = v := by
  rw [port16, h]
  omega

/-- The address of a `tcp://` or `udp://` URI, cut at its first colon. -/
lemma spells_inet_iff {scheme host text : Bytes} {a : Addr} (hscheme : scheme = tcpScheme ∨ scheme = udpScheme)
    (hhost : colon ∉ host) : Spells lib (scheme ++ (host ++ colon :: text)) a ↔
      ∃ ip, lib.pton host = some ip ∧ IsDecimal text ∧ value text < 2 ^ 16 ∧ a = .inet ip (value text) := by
  have hmem : ∀ {s : Bytes}, s = tcpScheme ∨ s = udpScheme → ∃ p, (s, p) ∈ schemes := by
    rintro s (rfl | rfl)
    · exact ⟨.tcp, by decide⟩
    · exact ⟨.udp, by decide⟩
  obtain ⟨p, hp⟩ := hmem hscheme
  constructor
  · intro hspells
    generalize huri : scheme ++ (host ++ colon :: text) = uri at hspells
    cases hspells with
    | @inet scheme' host' port ip hscheme' hhost' hip hdec hlt =>
      obtain ⟨q, hq⟩ := hmem hscheme'
      obtain ⟨rfl, hrest⟩ := scheme_unique hp hq huri
      obtain ⟨rfl, rfl⟩ := cut_unique hhost hhost' hrest
      exact ⟨ip, hip, hdec, hlt, rfl⟩
    | unix path =>
      obtain ⟨hsame, -⟩ := scheme_unique hp (show (unixScheme, Proto.unix) ∈ schemes by decide) huri
      rcases hscheme with rfl | rfl <;> exact absurd hsame (by decide)
  · rintro ⟨ip, hip, hdec, hlt, rfl⟩
    exact .inet hscheme hhost hip hdec hlt

lemma spells_unix_iff {path : Bytes} {a : Addr} : Spells lib (unixScheme ++ path) a ↔ a = .unix path := by
  have hunix : (unixScheme, Proto.unix) ∈ schemes := by decide
  constructor
  · intro hspells
    generalize huri : unixScheme ++ path = uri at hspells
    cases hspells with
    | inet hscheme =>
      rcases hscheme with rfl | rfl
      · exact absurd (scheme_unique hunix (show (tcpScheme, Proto.tcp) ∈ schemes by decide) huri).1 (by decide)
      · exact absurd (scheme_unique hunix (show (udpScheme, Proto.udp) ∈ schemes by decide) huri).1 (by decide)
    | unix path' => rw [List.append_cancel_left huri]
  · rintro rfl
    exact .unix path

lemma mem_schemes_of_inet {s : Bytes} (h : s = tcpScheme ∨ s = udpScheme) :
    ∃ p, (s, p) ∈ schemes ∧ p.hostPort = true := by
  rcases h with rfl | rfl
  · exact ⟨.tcp, by decide, rfl⟩
  · exact ⟨.udp, by decide, rfl⟩

lemma not_foreign {s : Bytes} (h : s = tcpScheme ∨ s = udpScheme ∨ s = unixScheme) (rest : Bytes) :
    ¬ Foreign (s ++ rest) := by
  obtain ⟨p, hp⟩ : ∃ p, (s, p) ∈ schemes := by
    rcases h with rfl | rfl | rfl
    · exact ⟨.tcp, by decide⟩
    · exact ⟨.udp, by decide⟩
    · exact ⟨.unix, by decide⟩
  rintro (⟨x, hx⟩ | ⟨x, hx⟩ | ⟨x, hx⟩)
  · have hsame := (scheme_unique (show (quicScheme, Proto.quic) ∈ schemes by decide) hp hx).1
    rcases h with rfl | rfl | rfl <;> exact absurd hsame (by decide)
  · have hsame := (scheme_unique (show (pipeScheme, Proto.pipe) ∈ schemes by decide) hp hx).1
    rcases h with rfl | rfl | rfl <;> exact absurd hsame (by decide)
  · have hsame := (scheme_unique (show (ttyScheme, Proto.tty) ∈ schemes by decide) hp hx).1
    rcases h with rfl | rfl | rfl <;> exact absurd hsame (by decide)

/-- The condition for a `tcp://` or `udp://` URI is about its only cut. -/
lemma whole_inet_iff {scheme : Bytes} (hscheme : scheme = tcpScheme ∨ scheme = udpScheme) :
    Whole lib side (scheme ++ rest) ↔ ∀ host text, rest = host ++ colon :: text → host ≠ [] → colon ∉ host →
      host.length ≤ 255 → NumberAhead text →
      match side with
      | .dial => lib.pton host = none ∨ (IsDecimal text ∧ value text < 2 ^ 16)
      | .listen => lib.pton host = some inaddrAny ∧ IsDecimal text ∧ value text < 2 ^ 16 := by
  obtain ⟨p, hp, -⟩ := mem_schemes_of_inet hscheme
  constructor
  · rintro ⟨hcut, -⟩ host text rfl
    exact hcut scheme host text hscheme rfl
  · intro hcut
    refine ⟨?_, ?_⟩
    · intro scheme' host text hscheme' huri
      obtain ⟨q, hq, -⟩ := mem_schemes_of_inet hscheme'
      exact hcut host text (scheme_unique hp hq huri).2
    · intro path huri
      obtain ⟨hsame, -⟩ := scheme_unique hp (show (unixScheme, Proto.unix) ∈ schemes by decide) huri
      rcases hscheme with rfl | rfl <;> exact absurd hsame (by decide)

/-- A dial or a listen on a `tcp://` or `udp://` URI. -/
lemma exact_inet_iff {ops : Ops TransportFn} (hops : ops = tcpOps lib ∨ ops = udpOps lib) :
    Exact lib (openHose side lib quic calls (ops.scheme ++ rest)) (ops.scheme ++ rest) ↔
      Whole lib side (ops.scheme ++ rest) := by
  have hscheme : ops.scheme = tcpScheme ∨ ops.scheme = udpScheme := hops.imp (congrArg Ops.scheme)
    (congrArg Ops.scheme)
  obtain ⟨p, hp, hproto⟩ := mem_schemes_of_inet hscheme
  have hfind := @find_init lib quic calls ops (hops.imp_right Or.inl)
  obtain ⟨f, hfn⟩ : ∃ f, ops.fn side = some f := by
    rcases hops with rfl | rfl <;> cases side <;> exact ⟨_, rfl⟩
  have hopen := @hoseOpen_hostPort side _ lib.wide _ _ _ _ hp hproto hfind hfn rest
  rw [whole_inet_iff hscheme]
  cases hscan : scanHostPort lib.wide rest with
  | none =>
    rw [hscan, Option.map_none] at hopen
    refine iff_of_true (exact_of_none hopen) ?_
    intro host text hrest hne hnot hlen hnumber
    obtain ⟨port, hport⟩ := (@scanInt_isSome_iff lib.wide _).mpr hnumber
    rw [scanHostPort_eq_some.mpr ⟨text, hrest, hne, hnot, hlen, hport⟩] at hscan
    cases hscan
  | some r =>
    obtain ⟨host, port⟩ := r
    rw [hscan, Option.map_some] at hopen
    obtain ⟨text, hrest, hne, hnot, hlen, hport⟩ := scanHostPort_eq_some.mp hscan
    have hnumber := (@scanInt_isSome_iff lib.wide _).mp ⟨port, hport⟩
    have hport16 : IsDecimal text → value text < 2 ^ 16 → port16 port = value text := by
      intro hdec hlt
      have hvalue := scanInt_decimal hdec hport
      rw [if_pos (by omega)] at hvalue
      exact port16_eq hvalue hlt
    have hcut : ∀ {P : Bytes → Bytes → Prop}, (∀ host' text', rest = host' ++ colon :: text' → host' ≠ [] →
        colon ∉ host' → host'.length ≤ 255 → NumberAhead text' → P host' text') ↔ P host text := by
      intro P
      constructor
      · intro hall
        exact hall host text hrest hne hnot hlen hnumber
      · intro hP host' text' hrest' _ hnot' _ _
        obtain ⟨rfl, rfl⟩ := cut_unique hnot hnot' (hrest.symm.trans hrest')
        exact hP
    have huri := not_foreign (s := ops.scheme) (hscheme.imp_right Or.inl) rest
    cases side with
    | dial =>
      have hf : Opens f fun host port => (lib.pton host).map fun ip => .inet ip (port16 port) := by
        rcases hops with rfl | rfl <;> cases hfn <;> exact opens_inetDial lib
      rw [exact_of_opens hf huri hopen, hcut, hrest]
      constructor
      · intro hspells
        cases hip : lib.pton host with
        | none => exact Or.inl rfl
        | some ip =>
          obtain ⟨-, -, hdec, hlt, -⟩ := (spells_inet_iff hscheme hnot).mp (hspells (.inet ip (port16 port)) (by
            rw [hip]
            rfl))
          exact Or.inr ⟨hdec, hlt⟩
      · intro hcond a ha
        obtain ⟨ip, hip, rfl⟩ := Option.map_eq_some_iff.mp ha
        rcases hcond with hnone | ⟨hdec, hlt⟩
        · rw [hnone] at hip
          cases hip
        · exact (spells_inet_iff hscheme hnot).mpr ⟨ip, hip, hdec, hlt, by rw [hport16 hdec hlt]⟩
    | listen =>
      have hf : Opens f fun _ port => some (.inet inaddrAny (port16 port)) := by
        rcases hops with rfl | rfl <;> cases hfn
        · exact opens_tcpListen
        · exact opens_udpListen
      rw [exact_of_opens hf huri hopen, hcut, hrest]
      constructor
      · intro hspells
        obtain ⟨ip, hip, hdec, hlt, haddr⟩ := (spells_inet_iff hscheme hnot).mp (hspells _ rfl)
        obtain ⟨rfl, -⟩ := Addr.inet.inj haddr
        exact ⟨hip, hdec, hlt⟩
      · rintro ⟨hip, hdec, hlt⟩ a ha
        cases ha
        exact (spells_inet_iff hscheme hnot).mpr ⟨_, hip, hdec, hlt, by rw [hport16 hdec hlt]⟩

/-- A dial or a listen on a `unix://` URI. -/
lemma exact_unix_iff : Exact lib (openHose side lib quic calls (unixScheme ++ rest)) (unixScheme ++ rest) ↔
    Whole lib side (unixScheme ++ rest) := by
  have hunix : (unixScheme, Proto.unix) ∈ schemes := by decide
  have hfind := @find_init lib quic calls (unixOps lib) (Or.inr (Or.inr rfl))
  obtain ⟨f, hfn, hf⟩ : ∃ f, (unixOps lib).fn side = some f ∧
      Opens f fun path _ => some (.unix (sunPath lib path)) := by
    cases side with
    | dial => exact ⟨_, rfl, opens_unixDial lib⟩
    | listen => exact ⟨_, rfl, opens_unixListen lib⟩
  have hopen := @hoseOpen_path side _ lib.wide _ _ _ _ hunix rfl hfind hfn rest
  have huri := not_foreign (s := unixScheme) (Or.inr (Or.inr rfl)) rest
  have hwhole : Whole lib side (unixScheme ++ rest) ↔ rest.length ≤ 255 ∧ rest.length ≤ lib.sunPath - 1 := by
    constructor
    · rintro ⟨-, hpath⟩
      exact hpath rest rfl
    · intro hlen
      refine ⟨?_, ?_⟩
      · intro scheme host text hscheme heq
        obtain ⟨q, hq, -⟩ := mem_schemes_of_inet hscheme
        obtain ⟨hsame, -⟩ := scheme_unique hunix hq heq
        rw [← hsame] at hscheme
        exact absurd hscheme (by decide)
      · intro path heq
        rw [← List.append_cancel_left heq]
        exact hlen
  rw [exact_of_opens hf huri hopen, hwhole]
  constructor
  · intro hspells
    have hsame := Addr.unix.inj (spells_unix_iff.mp (hspells _ rfl))
    have hlen := congrArg List.length hsame
    simp only [sunPath, List.length_take] at hlen
    omega
  · rintro ⟨hbuf, hsun⟩ a ha
    cases ha
    rw [spells_unix_iff, sunPath, List.take_of_length_le hbuf, List.take_of_length_le hsun]

/-- A dial or a listen uses exactly the address in its URI if, and only if, it reads the URI as a whole. -/
theorem open_exact_iff (side : Side) (lib : Libc) (quic : QuicOps) (calls : List (Option (Ops TransportFn)))
    (uri : Bytes) : Exact lib (openHose side lib quic calls uri) uri ↔ Whole lib side uri := by
  by_cases htcp : ∃ rest, uri = tcpScheme ++ rest
  · obtain ⟨rest, rfl⟩ := htcp
    exact @exact_inet_iff _ _ _ _ _ (tcpOps lib) (Or.inl rfl)
  · by_cases hudp : ∃ rest, uri = udpScheme ++ rest
    · obtain ⟨rest, rfl⟩ := hudp
      exact @exact_inet_iff _ _ _ _ _ (udpOps lib) (Or.inr rfl)
    · by_cases hunix : ∃ rest, uri = unixScheme ++ rest
      · obtain ⟨rest, rfl⟩ := hunix
        exact exact_unix_iff
      · -- a URI of another scheme, or of none
        refine iff_of_true ?_ ⟨?_, fun path hpath => absurd ⟨path, hpath⟩ hunix⟩
        · intro huri
          refine exact_of_none ?_ huri
          cases hopen : hoseOpen side lib.wide (registerAll [] (initCalls lib quic ++ calls)) uri with
          | none => rfl
          | some r =>
            obtain ⟨⟨rest, hrest⟩, p, hp⟩ := parseUri_scheme (hoseOpen_eq_some.mp hopen).1
            simp only [schemes, List.mem_cons, Prod.mk.injEq, List.not_mem_nil, or_false] at hp
            rcases hp with ⟨hs, -⟩ | ⟨hs, -⟩ | ⟨hs, -⟩ | ⟨hs, -⟩ | ⟨hs, -⟩ | ⟨hs, -⟩ <;> rw [hs] at hrest
            · exact absurd ⟨rest, hrest.symm⟩ htcp
            · exact absurd ⟨rest, hrest.symm⟩ hudp
            · exact absurd (Or.inl ⟨rest, hrest⟩) huri
            · exact absurd ⟨rest, hrest.symm⟩ hunix
            · exact absurd (Or.inr (Or.inl ⟨rest, hrest⟩)) huri
            · exact absurd (Or.inr (Or.inr ⟨rest, hrest⟩)) huri
        · rintro scheme host text (rfl | rfl) hcut
          · exact absurd ⟨_, hcut⟩ htcp
          · exact absurd ⟨_, hcut⟩ hudp

end Condition

lemma zero_isInt : -2 ^ 31 ≤ (0 : ℤ) ∧ (0 : ℤ) < 2 ^ 31 := by decide

/-- A C library that knows one address, on a platform with 108 bytes for a path. -/
def someLibc : Libc :=
  ⟨fun s => if s = cstr ['1', '2', '7', '.', '0', '.', '0', '.', '1'] then some 0x7F000001 else none, 108,
    fun _ => ⟨0, zero_isInt⟩⟩

/-- `tcp://127.0.0.1:65616` -/
def bigPort : Bytes := tcpScheme ++ (cstr ['1', '2', '7', '.', '0', '.', '0', '.', '1'] ++ colon ::
  cstr ['6', '5', '6', '1', '6'])

/-- The port 65616 is reduced to 80: the dial connects to an address that the URI does not spell. -/
theorem dial_of_big_port :
    openHose .dial someLibc none [] bigPort ⟨true, true, true, true, true⟩ =
      ([.connect (.inet 0x7F000001 80)], true) ∧
    ¬ Exact someLibc (openHose .dial someLibc none [] bigPort) bigPort := by
  have hdial : openHose .dial someLibc none [] bigPort ⟨true, true, true, true, true⟩ =
      ([.connect (.inet 0x7F000001 80)], true) := by decide
  refine ⟨hdial, ?_⟩
  intro hexact
  have hspells := (hexact (not_foreign (Or.inl rfl) _)).1 _ (.inet 0x7F000001 80)
    (Or.inl (by rw [hdial]; exact List.mem_singleton_self _))
  obtain ⟨ip, -, -, hlt, -⟩ := (spells_inet_iff (Or.inl rfl) (by decide)).mp hspells
  exact absurd hlt (by decide)

end Suspenders.Io
