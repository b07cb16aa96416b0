import Suspenders.Base
import Suspenders.Lib.Bytes
import Suspenders.Lib.Scanf
import Mathlib.Data.List.Induction

/-!
# The transports

A transport is a scheme and a table of functions.  `suspenders_transport_register` puts it into a registry of
sixteen entries, where `suspenders_transport_find` looks it up by its scheme.  A dial or a listen finds the scheme
of its URI in another table, `schemes`, which is fixed, and which also says how the rest of the URI is read.

So a registered transport is reached if its scheme is one of the six of that table and the rest of the URI
survives the reading (`Passes`).
-/

namespace Suspenders.Io

open Lib (Bytes)
open Lib.Scanf

/-- The characters of a C string. -/
def cstr (cs : List Char) : Bytes := cs.map Char.toUInt8

/-- `suspenders_hose_protocol_t`, as far as URIs name it. -/
inductive Proto
  | tcp
  | udp
  | quic
  | unix
  | pipe
  | tty
  deriving DecidableEq

/-- Whether the rest of the URI is a host and a port; otherwise it is a path. -/
def Proto.hostPort : Proto → Bool
  | tcp | udp | quic => true
  | unix | pipe | tty => false

/-- `"tcp://"` -/
def tcpScheme : Bytes := cstr ['t', 'c', 'p', ':', '/', '/']

/-- `"udp://"` -/
def udpScheme : Bytes := cstr ['u', 'd', 'p', ':', '/', '/']

/-- `"quic://"` -/
def quicScheme : Bytes := cstr ['q', 'u', 'i', 'c', ':', '/', '/']

/-- `"unix://"` -/
def unixScheme : Bytes := cstr ['u', 'n', 'i', 'x', ':', '/', '/']

/-- `"pipe://"` -/
def pipeScheme : Bytes := cstr ['p', 'i', 'p', 'e', ':', '/', '/']

/-- `"tty://"` -/
def ttyScheme : Bytes := cstr ['t', 't', 'y', ':', '/', '/']

/-- `schemes` of `suspenders_hose_parse_uri`. -/
def schemes : List (Bytes × Proto) :=
  [(tcpScheme, .tcp), (udpScheme, .udp), (quicScheme, .quic), (unixScheme, .unix), (pipeScheme, .pipe),
    (ttyScheme, .tty)]

/-- `':'` -/
def colon : UInt8 := 58

/-- `sscanf(s, "%255[^:]:%d", host, port)`, if it converts both. -/
def scanHostPort (wide : ℤ → CInt) (s : Bytes) : Option (Bytes × CInt) :=
  match scanUntil 255 colon s with
  | some (host, c :: text) => if c = colon then (scanInt wide text).map fun port => (host, port) else none
  | _ => none

/-- `suspenders_hose_parse_uri`: the scheme, the host or path, and the port. -/
def parseUri (wide : ℤ → CInt) (uri : Bytes) : Option (Bytes × Bytes × CInt) :=
  match schemes.find? fun s => s.1.isPrefixOf uri with
  | none => none
  | some (scheme, proto) =>
    if proto.hostPort then scanHostPort wide (uri.drop scheme.length) |>.map fun r => (scheme, r.1, r.2)
    else some (scheme, (uri.drop scheme.length).take 255, ⟨0, by decide⟩)

/-- `suspenders_transport_ops_t`, as far as dial and listen look at it. -/
structure Ops (F : Type*) where
  /-- `scheme` -/
  scheme : Bytes
  /-- `dial` -/
  dial : Option F
  /-- `listen` -/
  listen : Option F

variable {F : Type*}

/-- `suspenders_transport_register`; `none` stands for a table that is `NULL` or has no scheme. -/
def register (reg : List (Ops F)) : Option (Ops F) → List (Ops F) × Bool
  | none => (reg, false)
  | some ops =>
    if reg.any fun o => o.scheme == ops.scheme then (reg, true)
    else if 16 ≤ reg.length then (reg, false)
    else (reg ++ [ops], true)

/-- A sequence of calls of `suspenders_transport_register`. -/
def registerAll (reg : List (Ops F)) (calls : List (Option (Ops F))) : List (Ops F) :=
  calls.foldl (fun reg ops => (register reg ops).1) reg

/-- `suspenders_transport_find`. -/
def find (reg : List (Ops F)) (scheme : Bytes) : Option (Ops F) := reg.find? fun o => o.scheme == scheme

/-- Which function of a transport is called. -/
inductive Side
  | dial
  | listen
  deriving DecidableEq

/-- That function. -/
def Ops.fn (ops : Ops F) : Side → Option F
  | .dial => ops.dial
  | .listen => ops.listen

/-- A dial or a listen: the transport, its function, and the two arguments it is called with; nothing if the call
returns false without one. -/
def hoseOpen (side : Side) (wide : ℤ → CInt) (reg : List (Ops F)) (uri : Bytes) : Option (Ops F × F × Bytes × CInt) :=
  match parseUri wide uri with
  | none => none
  | some (scheme, host, port) =>
    match find reg scheme with
    | none => none
    | some ops => (ops.fn side).map fun f => (ops, f, host, port)

/-- `suspenders_hose_dial`. -/
def hoseDial (wide : ℤ → CInt) (reg : List (Ops F)) := hoseOpen .dial wide reg

/-- `suspenders_hose_listen`. -/
def hoseListen (wide : ℤ → CInt) (reg : List (Ops F)) := hoseOpen .listen wide reg

/-! ## Parsing -/

section Parse

variable {wide : ℤ → CInt} {s rest uri : Bytes}

/-- No scheme of the table begins another one. -/
lemma find?_schemes {scheme : Bytes} {proto : Proto} (h : (scheme, proto) ∈ schemes) (rest : Bytes) :
    (schemes.find? fun s => s.1.isPrefixOf (scheme ++ rest)) = some (scheme, proto) := by
  simp only [schemes, List.mem_cons, List.not_mem_nil, or_false] at h
  rcases h with h | h | h | h | h | h <;> cases h <;> rfl

/-- The text that `sscanf` cuts into a host and a port. -/
lemma scanHostPort_eq_some {host : Bytes} {port : CInt} : scanHostPort wide s = some (host, port) ↔
    ∃ text, s = host ++ colon :: text ∧ host ≠ [] ∧ colon ∉ host ∧ host.length ≤ 255 ∧
      scanInt wide text = some port := by
  unfold scanHostPort
  constructor
  · intro h
    split at h
    · rename_i host' c text hscan
      split_ifs at h with hc
      subst hc
      obtain ⟨port', hport, heq⟩ := Option.map_eq_some_iff.mp h
      cases heq
      obtain ⟨hs, hne, hnot, hlen⟩ := scanUntil_cons.mp hscan
      exact ⟨text, hs, hne, hnot, hlen, hport⟩
    · cases h
  · rintro ⟨text, hs, hne, hnot, hlen, hport⟩
    rw [scanUntil_cons.mpr ⟨hs, hne, hnot, hlen⟩]
    simp [hport]

lemma parseUri_hostPort {scheme : Bytes} {proto : Proto} (h : (scheme, proto) ∈ schemes)
    (hproto : proto.hostPort = true) (rest : Bytes) :
    parseUri wide (scheme ++ rest) = (scanHostPort wide rest).map fun r => (scheme, r.1, r.2) := by
  rw [parseUri, find?_schemes h]
  simp [hproto]

lemma parseUri_path {scheme : Bytes} {proto : Proto} (h : (scheme, proto) ∈ schemes)
    (hproto : proto.hostPort = false) (rest : Bytes) :
    parseUri wide (scheme ++ rest) = some (scheme, rest.take 255, ⟨0, by decide⟩) := by
  rw [parseUri, find?_schemes h]
  simp [hproto]

/-- A URI that is parsed begins with the scheme that is found. -/
lemma parseUri_scheme {scheme host : Bytes} {port : CInt} (h : parseUri wide uri = some (scheme, host, port)) :
    scheme <+: uri ∧ ∃ proto, (scheme, proto) ∈ schemes := by
  unfold parseUri at h
  split at h
  · cases h
  · rename_i scheme' proto hfind
    have hmem := List.mem_of_find?_eq_some hfind
    have hstarts : scheme' <+: uri := by simpa using List.find?_some hfind
    split_ifs at h
    · obtain ⟨r, -, heq⟩ := Option.map_eq_some_iff.mp h
      cases heq
      exact ⟨hstarts, proto, hmem⟩
    · cases h
      exact ⟨hstarts, proto, hmem⟩

end Parse

/-! ## The registry -/

section Registry

variable {reg : List (Ops F)} {calls : List (Option (Ops F))} {ops o : Ops F} {scheme : Bytes}

/-- What a registration does, and when. -/
lemma register_cases (reg : List (Ops F)) (ops : Ops F) :
    ((∃ o ∈ reg, o.scheme = ops.scheme) ∧ register reg (some ops) = (reg, true)) ∨
    ((∀ o ∈ reg, o.scheme ≠ ops.scheme) ∧ 16 ≤ reg.length ∧ register reg (some ops) = (reg, false)) ∨
    ((∀ o ∈ reg, o.scheme ≠ ops.scheme) ∧ reg.length < 16 ∧ register reg (some ops) = (reg ++ [ops], true)) := by
  simp only [register]
  by_cases hany : (reg.any fun o => o.scheme == ops.scheme) = true
  · left
    obtain ⟨o, ho, heq⟩ := List.any_eq_true.mp hany
    exact ⟨⟨o, ho, by simpa using heq⟩, if_pos hany⟩
  · right
    rw [if_neg hany]
    have hno : ∀ o ∈ reg, o.scheme ≠ ops.scheme := by
      intro o ho heq
      exact hany (List.any_eq_true.mpr ⟨o, ho, by simpa using heq⟩)
    by_cases hfull : 16 ≤ reg.length
    · exact Or.inl ⟨hno, hfull, if_pos hfull⟩
    · exact Or.inr ⟨hno, by omega, if_neg hfull⟩

lemma find_eq_none : find reg scheme = none ↔ ∀ o ∈ reg, o.scheme ≠ scheme := by
  simp [find]

lemma find_scheme (h : find reg scheme = some ops) : ops.scheme = scheme := by
  simpa using List.find?_some h

/-- The registry only grows. -/
lemma prefix_register (reg : List (Ops F)) (call : Option (Ops F)) : reg <+: (register reg call).1 := by
  cases call with
  | none => exact List.prefix_refl _
  | some ops =>
    rcases register_cases reg ops with ⟨-, heq⟩ | ⟨-, -, heq⟩ | ⟨-, -, heq⟩
    · exact heq ▸ List.prefix_refl _
    · exact heq ▸ List.prefix_refl _
    · exact heq ▸ List.prefix_append _ _

lemma prefix_registerAll (reg : List (Ops F)) (calls : List (Option (Ops F))) : reg <+: registerAll reg calls := by
  induction calls generalizing reg with
  | nil => exact List.prefix_refl _
  | cons call rest ih => exact (prefix_register reg call).trans (ih _)

/-- So a registration does not change what is found. -/
lemma find_registerAll (h : find reg scheme = some ops) (calls : List (Option (Ops F))) :
    find (registerAll reg calls) scheme = some ops := by
  obtain ⟨new, hnew⟩ := prefix_registerAll reg calls
  rw [← hnew, find, List.find?_append, show reg.find? (fun o => o.scheme == scheme) = some ops from h, Option.some_or]

lemma registerAll_append (reg : List (Ops F)) (pre post : List (Option (Ops F))) :
    registerAll reg (pre ++ post) = registerAll (registerAll reg pre) post := List.foldl_append ..

/-- What is in the registry has been registered. -/
lemma mem_registerAll (h : o ∈ registerAll reg calls) : o ∈ reg ∨ some o ∈ calls := by
  induction calls generalizing reg with
  | nil => exact Or.inl h
  | cons call rest ih =>
    replace h : o ∈ registerAll (register reg call).1 rest := h
    rcases ih h with hmem | hmem
    · cases call with
      | none => exact Or.inl hmem
      | some ops =>
        rcases register_cases reg ops with ⟨-, heq⟩ | ⟨-, -, heq⟩ | ⟨-, -, heq⟩
        · rw [heq] at hmem
          exact Or.inl hmem
        · rw [heq] at hmem
          exact Or.inl hmem
        · rw [heq] at hmem
          rcases List.mem_append.mp hmem with hmem | hmem
          · exact Or.inl hmem
          · rw [List.mem_singleton.mp hmem]
            exact Or.inr List.mem_cons_self
    · exact Or.inr (List.mem_cons_of_mem _ hmem)

/-- As long as there is room no scheme has been turned away. -/
lemma exists_scheme_of_room (hroom : (registerAll reg calls).length < 16) (h : some o ∈ calls) :
    ∃ ops ∈ registerAll reg calls, ops.scheme = o.scheme := by
  induction calls generalizing reg with
  | nil => cases h
  | cons call rest ih =>
    rcases List.mem_cons.mp h with rfl | h
    · have hgrow : (register reg (some o)).1 <+: registerAll reg (some o :: rest) := prefix_registerAll _ rest
      rcases register_cases reg o with ⟨⟨ops, hops, hscheme⟩, heq⟩ | ⟨-, hfull, heq⟩ | ⟨-, -, heq⟩
      · rw [heq] at hgrow
        exact ⟨ops, hgrow.subset hops, hscheme⟩
      · rw [heq] at hgrow
        have hlen : reg.length ≤ (registerAll reg (some o :: rest)).length := hgrow.length_le
        omega
      · rw [heq] at hgrow
        exact ⟨o, hgrow.subset (by simp), rfl⟩
    · exact ih hroom h

/-- `ops` are the first with their scheme among the calls, and that call has returned true. -/
def First (calls : List (Option (Ops F))) (ops : Ops F) : Prop :=
  ∃ pre post, calls = pre ++ some ops :: post ∧ (∀ o, some o ∈ pre → o.scheme ≠ ops.scheme) ∧
    (register (registerAll [] pre) (some ops)).2 = true

lemma length_registerAll (reg : List (Ops F)) (calls : List (Option (Ops F))) :
    (registerAll reg calls).length ≤ reg.length + calls.length := by
  induction calls generalizing reg with
  | nil => exact le_rfl
  | cons call rest ih =>
    have hnext : (registerAll reg (call :: rest)).length ≤ (register reg call).1.length + rest.length := ih _
    have hstep : (register reg call).1.length ≤ reg.length + 1 := by
      cases call with
      | none => simp [register]
      | some ops =>
        rcases register_cases reg ops with ⟨-, heq⟩ | ⟨-, -, heq⟩ | ⟨-, -, heq⟩ <;> rw [heq] <;> simp
    rw [List.length_cons]
    omega

/-- A new scheme among the first sixteen calls is registered. -/
lemma first_of_new {pre post : List (Option (Ops F))} (hnew : ∀ o, some o ∈ pre → o.scheme ≠ ops.scheme)
    (hlen : pre.length < 16) : First (pre ++ some ops :: post) ops := by
  refine ⟨pre, post, rfl, hnew, ?_⟩
  have hle := length_registerAll [] pre
  rw [List.length_nil] at hle
  rcases register_cases (registerAll [] pre) ops with ⟨-, heq⟩ | ⟨-, hfull, -⟩ | ⟨-, -, heq⟩
  · rw [heq]
  · omega
  · rw [heq]

/-- The first transport registered with a scheme is the one that is found. -/
lemma First.find (h : First calls ops) : find (registerAll [] calls) ops.scheme = some ops := by
  obtain ⟨pre, post, rfl, hfirst, htrue⟩ := h
  have hno : ∀ o ∈ registerAll [] pre, o.scheme ≠ ops.scheme := by
    intro o ho
    rcases mem_registerAll ho with hnil | hpre
    · cases hnil
    · exact hfirst o hpre
  rw [registerAll_append]
  refine @find_registerAll _ (register (registerAll [] pre) (some ops)).1 _ _ ?_ post
  rcases register_cases (registerAll [] pre) ops with ⟨⟨o, ho, hscheme⟩, -⟩ | ⟨-, -, heq⟩ | ⟨-, -, heq⟩
  · exact absurd hscheme (hno o ho)
  · rw [heq] at htrue
    cases htrue
  · rw [heq, Io.find, List.find?_append, show (registerAll [] pre).find? (fun o => o.scheme == ops.scheme) = none
      from find_eq_none.mpr hno]
    simp

/-- What is found is the first transport registered with its scheme. -/
lemma first_of_find (h : find (registerAll [] calls) scheme = some ops) : First calls ops := by
  induction calls using List.reverseRecOn with
  | nil => cases h
  | append_singleton pre call ih =>
    rw [registerAll_append] at h
    cases hpre : find (registerAll [] pre) scheme with
    | some o =>
      rw [find_registerAll hpre] at h
      cases h
      obtain ⟨pre', post, rfl, hfirst, htrue⟩ := ih hpre
      exact ⟨pre', post ++ [call], by simp, hfirst, htrue⟩
    | none =>
      have hstep : registerAll (registerAll [] pre) [call] = (register (registerAll [] pre) call).1 := rfl
      rw [hstep] at h
      cases call with
      | none =>
        rw [register, hpre] at h
        cases h
      | some o =>
        rcases register_cases (registerAll [] pre) o with ⟨-, heq⟩ | ⟨-, -, heq⟩ | ⟨-, hroom, heq⟩
        · rw [heq, hpre] at h
          cases h
        · rw [heq, hpre] at h
          cases h
        · rw [heq, find, List.find?_append, show (registerAll [] pre).find? (fun o => o.scheme == scheme) = none
            from hpre, Option.none_or] at h
          obtain rfl : ops = o := List.mem_singleton.mp (List.mem_of_find?_eq_some h)
          refine ⟨pre, [], rfl, ?_, by rw [heq]⟩
          intro o ho hscheme
          obtain ⟨o', hmem, hscheme'⟩ := exists_scheme_of_room hroom ho
          refine find_eq_none.mp hpre o' hmem ?_
          rw [hscheme', hscheme]
          simpa using List.find?_some h

end Registry

/-! ## What is reached -/

/-- The two arguments carry the rest of the URI: cut into a host and a port where the scheme asks for these, and
as it is otherwise. -/
def Carried (scheme rest host : Bytes) (port : CInt) : Prop :=
  if scheme = tcpScheme ∨ scheme = udpScheme ∨ scheme = quicScheme then
    ∃ digits, rest = host ++ colon :: digits ∧ IsDecimal digits ∧ port.1 = value digits
  else host = rest ∧ port.1 = 0

/-- The scheme is one that URIs are looked through for, and the rest of the URI survives the reading: a path of at
most 255 bytes, or a host and a port that is a number alone and an `int`. -/
def Passes (scheme rest : Bytes) : Prop :=
  ∃ proto, (scheme, proto) ∈ schemes ∧
    if proto.hostPort then
      ∃ host digits, rest = host ++ colon :: digits ∧ host ≠ [] ∧ colon ∉ host ∧ host.length ≤ 255 ∧
        IsDecimal digits ∧ value digits < 2 ^ 31
    else rest.length ≤ 255

section Reach

variable {wide : ℤ → CInt} {scheme rest : Bytes}

lemma hostPort_iff {proto : Proto} (h : (scheme, proto) ∈ schemes) :
    proto.hostPort = true ↔ scheme = tcpScheme ∨ scheme = udpScheme ∨ scheme = quicScheme := by
  simp only [schemes, List.mem_cons, List.not_mem_nil, or_false] at h
  rcases h with h | h | h | h | h | h <;> cases h <;> decide

lemma carried_iff {proto : Proto} (h : (scheme, proto) ∈ schemes) (host : Bytes) (port : CInt) :
    Carried scheme rest host port ↔
      if proto.hostPort then ∃ digits, rest = host ++ colon :: digits ∧ IsDecimal digits ∧ port.1 = value digits
      else host = rest ∧ port.1 = 0 := by
  unfold Carried
  by_cases hproto : proto.hostPort = true
  · rw [if_pos hproto, if_pos ((hostPort_iff h).mp hproto)]
  · rw [if_neg hproto, if_neg fun hs => hproto ((hostPort_iff h).mpr hs)]

/-- A text is cut at its first colon. -/
lemma cut_unique {host host' text text' : Bytes} (h : colon ∉ host) (h' : colon ∉ host')
    (heq : host ++ colon :: text = host' ++ colon :: text') : host = host' ∧ text = text' := by
  induction host generalizing host' with
  | nil =>
    cases host' with
    | nil => exact ⟨rfl, (List.cons.inj heq).2⟩
    | cons c t => exact absurd (by rw [(List.cons.inj heq).1]; exact List.mem_cons_self) h'
  | cons c t ih =>
    cases host' with
    | nil => exact absurd (by rw [← (List.cons.inj heq).1]; exact List.mem_cons_self) h
    | cons c' t' =>
      obtain ⟨rfl, htail⟩ := List.cons.inj heq
      obtain ⟨rfl, rfl⟩ := ih (fun hm => h (List.mem_cons_of_mem _ hm)) (fun hm => h' (List.mem_cons_of_mem _ hm)) htail
      exact ⟨rfl, rfl⟩

/-- The parser passes on just what passes. -/
lemma passes_iff : Passes scheme rest ↔
    ∃ host port, parseUri wide (scheme ++ rest) = some (scheme, host, port) ∧ Carried scheme rest host port := by
  constructor
  · rintro ⟨proto, hmem, hpass⟩
    simp only [carried_iff hmem]
    cases hproto : proto.hostPort with
    | true =>
      rw [hproto, if_pos rfl] at hpass
      obtain ⟨host, digits, hrest, hne, hnot, hlen, hdec, hint⟩ := hpass
      obtain ⟨port, hport⟩ := (@scanInt_isSome_iff wide _).mpr hdec.numberAhead
      have hvalue := scanInt_decimal hdec hport
      rw [if_pos hint] at hvalue
      refine ⟨host, port, ?_, ?_⟩
      · rw [parseUri_hostPort hmem hproto, scanHostPort_eq_some.mpr ⟨digits, hrest, hne, hnot, hlen, hport⟩]
        rfl
      · rw [if_pos rfl]
        exact ⟨digits, hrest, hdec, hvalue⟩
    | false =>
      rw [hproto, if_neg (by decide)] at hpass
      refine ⟨rest, ⟨0, by decide⟩, ?_, ?_⟩
      · rw [parseUri_path hmem hproto, List.take_of_length_le hpass]
      · rw [if_neg (by decide)]
        exact ⟨rfl, rfl⟩
  · rintro ⟨host, port, hparse, hcarried⟩
    obtain ⟨-, proto, hmem⟩ := parseUri_scheme hparse
    refine ⟨proto, hmem, ?_⟩
    rw [carried_iff hmem] at hcarried
    cases hproto : proto.hostPort with
    | true =>
      rw [hproto, if_pos rfl] at hcarried
      rw [if_pos rfl]
      rw [parseUri_hostPort hmem hproto] at hparse
      obtain ⟨r, hscan, heq⟩ := Option.map_eq_some_iff.mp hparse
      cases heq
      obtain ⟨text, hrest, hne, hnot, hlen, hport⟩ := scanHostPort_eq_some.mp hscan
      obtain ⟨digits, hrest', hdec, hvalue⟩ := hcarried
      rw [hrest] at hrest'
      obtain rfl : text = digits := (List.cons.inj (List.append_cancel_left hrest')).2
      refine ⟨_, text, hrest, hne, hnot, hlen, hdec, ?_⟩
      have hlt := r.2.2.2
      rw [hvalue] at hlt
      exact_mod_cast hlt
    | false =>
      rw [hproto, if_neg (by decide)] at hcarried
      rw [if_neg (by decide)]
      rw [parseUri_path hmem hproto] at hparse
      simp only [Option.some.injEq, Prod.mk.injEq, true_and] at hparse
      have hlen := congrArg List.length (hparse.1.trans hcarried.1)
      rw [List.length_take] at hlen
      omega

/-- What is called, and with what. -/
lemma hoseOpen_eq_some {side : Side} {reg : List (Ops F)} {uri host : Bytes} {port : CInt} {ops : Ops F} {f : F} :
    hoseOpen side wide reg uri = some (ops, f, host, port) ↔
      parseUri wide uri = some (ops.scheme, host, port) ∧ find reg ops.scheme = some ops ∧ ops.fn side = some f := by
  unfold hoseOpen
  constructor
  · intro hopen
    split at hopen
    · cases hopen
    · rename_i scheme host' port' hparse
      split at hopen
      · cases hopen
      · rename_i ops' hfind
        obtain ⟨f', hfn, heq⟩ := Option.map_eq_some_iff.mp hopen
        cases heq
        rw [find_scheme hfind]
        exact ⟨hparse, hfind, hfn⟩
  · rintro ⟨hparse, hfind, hfn⟩
    rw [hparse]
    simp [hfind, hfn]

/-- A registered transport is reached by a URI if, and only if, its scheme and the rest of the URI pass; a URI
without a registered scheme reaches none. -/
theorem transport_reached_iff (wide : ℤ → CInt) (side : Side) (calls : List (Option (Ops F))) :
    (∀ ops f rest, First calls ops → ops.fn side = some f →
      ((∃ host port, hoseOpen side wide (registerAll [] calls) (ops.scheme ++ rest) = some (ops, f, host, port) ∧
        Carried ops.scheme rest host port) ↔ Passes ops.scheme rest)) ∧
    ∀ uri, (∀ ops, First calls ops → ¬ ops.scheme <+: uri) →
      hoseOpen side wide (registerAll [] calls) uri = none := by
  constructor
  · intro ops f rest hfirst hfn
    rw [@passes_iff wide]
    refine exists_congr fun host => exists_congr fun port => and_congr_left fun _ => ?_
    rw [hoseOpen_eq_some, and_iff_left ⟨hfirst.find, hfn⟩]
  · intro uri hnone
    cases hopen : hoseOpen side wide (registerAll [] calls) uri with
    | none => rfl
    | some r =>
      obtain ⟨hparse, hfind, -⟩ := hoseOpen_eq_some.mp hopen
      exact absurd (parseUri_scheme hparse).1 (hnone r.1 (first_of_find hfind))

end Reach

/-- A transport that only dials. -/
def dialer (scheme : Bytes) : Ops Unit := ⟨scheme, some (), none⟩

lemma first_singleton (ops : Ops F) : First [some ops] ops :=
  @first_of_new _ _ [] [] (by simp) (by simp)

/-- A transport with the scheme `unix://`, and the URI `unix://a`. -/
theorem transport_reached_of_unix : ∃ host port,
    hoseDial (fun _ => ⟨0, by decide⟩) (registerAll [] [some (dialer unixScheme)]) (unixScheme ++ cstr ['a']) =
      some (dialer unixScheme, (), host, port) ∧ Carried unixScheme (cstr ['a']) host port :=
  ((transport_reached_iff (fun _ => ⟨0, by decide⟩) .dial [some (dialer unixScheme)]).1 (dialer unixScheme) ()
    (cstr ['a']) (first_singleton _) rfl).mpr ⟨.unix, by decide, show (cstr ['a']).length ≤ 255 by decide⟩

/-- A transport with the scheme `mem://`, and the URI `mem://a`: it is registered and not reached. -/
theorem transport_of_mem : First [some (dialer (cstr ['m', 'e', 'm', ':', '/', '/']))]
      (dialer (cstr ['m', 'e', 'm', ':', '/', '/'])) ∧
    (dialer (cstr ['m', 'e', 'm', ':', '/', '/'])).dial = some () ∧
    hoseDial (fun _ => ⟨0, by decide⟩) (registerAll [] [some (dialer (cstr ['m', 'e', 'm', ':', '/', '/']))])
      (cstr ['m', 'e', 'm', ':', '/', '/', 'a']) = none :=
  ⟨first_singleton _, rfl, rfl⟩

end Suspenders.Io
