import Suspenders.Io.Transport
import Suspenders.Lib.Prog
import Suspenders.Lib.Run
import Mathlib.Data.Finset.Basic

/-!
# The descriptors of hoses

A dial or a listen gives a hose a descriptor, an accept gives one to its client, and a close takes it away.  A QUIC
connection is in memory of its own.  It owns its descriptor on the side that dials; the connections that a listener
accepts borrow the listener's.

Here is what these calls do to descriptors and connections, on every path that fails too.  A call that waits for I/O
stops at the wait (`Pc`), and other coroutines go on with theirs.
-/

namespace Suspenders.Hoses

open Lib (Bytes Prog)
open Lib.Prog
open Lib.Scanf (CInt)
open Io

/-! ## The calls -/

/-- The transports of the library. -/
inductive Transport
  | tcp
  | udp
  | quic
  | unix
  | tty
  deriving DecidableEq

/-- `tcp_transport_ops` -/
def tcpOps : Ops Transport := ⟨tcpScheme, some .tcp, some .tcp⟩

/-- `udp_transport_ops` -/
def udpOps : Ops Transport := ⟨udpScheme, some .udp, some .udp⟩

/-- `quic_transport_ops` -/
def quicOps : Ops Transport := ⟨quicScheme, some .quic, some .quic⟩

/-- `unix_transport_ops` -/
def unixOps : Ops Transport := ⟨unixScheme, some .unix, some .unix⟩

/-- `tty_transport_ops`; it has no `listen`. -/
def ttyOps : Ops Transport := ⟨ttyScheme, some .tty, none⟩

/-- What `suspenders_init` registers. -/
def registry : List (Ops Transport) :=
  registerAll [] [some tcpOps, some udpOps, some quicOps, some unixOps, some ttyOps]

/-- `roles` -/
structure Roles where
  reader : Bool
  writer : Bool
  dialer : Bool
  listener : Bool
  deriving DecidableEq

/-- `SUSPENDERS_HOSE_ROLE_READER | SUSPENDERS_HOSE_ROLE_WRITER` -/
def duplex : Roles := ⟨true, true, false, false⟩

/-- `SUSPENDERS_HOSE_ROLE_DIALER | SUSPENDERS_HOSE_ROLE_READER | SUSPENDERS_HOSE_ROLE_WRITER` -/
def dialing : Roles := ⟨true, true, true, false⟩

/-- `SUSPENDERS_HOSE_ROLE_LISTENER` -/
def listening : Roles := ⟨false, false, false, true⟩

/-- `a | b` -/
def Roles.or (a b : Roles) : Roles :=
  ⟨a.reader || b.reader, a.writer || b.writer, a.dialer || b.dialer, a.listener || b.listener⟩

/-- No role. -/
def Roles.zero : Roles := ⟨false, false, false, false⟩

/-- `suspenders_hose_t`; `none` is `SUSPENDERS_INVALID_SOCK`, `SUSPENDERS_HOSE_PROTO_UNKNOWN` and `NULL`. -/
structure Hose where
  roles : Roles
  protocol : Option Proto
  fd : Option ℕ
  transport : Option Transport
  priv : Option ℕ
  deriving DecidableEq

/-- `suspenders_hose_init`. -/
def Hose.blank : Hose := ⟨.zero, none, none, none, none⟩

/-- `s_quic_conn_t`, as far as its descriptor goes. -/
structure QuicConn where
  fd : Option ℕ
  ownsFd : Bool

/-- Where a call is. -/
inductive Pc
  | idle
  /-- in `s_io_connect` of `tcp_dial` or `unix_dial` -/
  | connecting (h : ℕ) (fd : Option ℕ)
  /-- in `s_quic_send_crypto` or `s_quic_drive` of `quic_dial` -/
  | driving (h c : ℕ)
  /-- in `s_io_accept` of `s_stream_accept` -/
  | accepting (listener client : ℕ) (fd : Option ℕ)
  /-- in `s_io_recvfrom` of `quic_accept` -/
  | receiving (listener client c : ℕ) (fd : Option ℕ)
  /-- in `s_quic_ingest`, `s_quic_drive` or `s_quic_send_frames` of `quic_accept` -/
  | greeting (listener client c : ℕ)
  /-- in `s_quic_send_frames` of `quic_close` -/
  | closing (h c : ℕ)
  /-- in a read or a write -/
  | inUse (h : ℕ) (fd : Option ℕ) (c : Option ℕ)
  deriving DecidableEq

/-- Descriptors, connections, hoses and calls. -/
structure Sys where
  /-- The descriptors that are open. -/
  fds : Finset ℕ
  /-- The connections that are allocated. -/
  conns : ℕ → Option QuicConn
  hose : ℕ → Hose
  pc : ℕ → Pc
  /-- A descriptor was closed that was not open, or a connection freed that was not allocated. -/
  badClose : Bool
  /-- A system call got a descriptor that was not open, or a connection was used that was not allocated. -/
  badUse : Bool

/-- What the system answers. -/
structure Outcomes where
  /-- `suspenders_socket` -/
  socket : Option ℕ
  /-- `suspenders_set_nonblocking` -/
  nonblocking : Bool
  /-- `inet_pton` -/
  pton : Bool
  /-- `bind` -/
  bind : Bool
  /-- `listen` -/
  listen : Bool
  /-- `connect` of `udp_dial` -/
  connect : Bool
  /-- `s_quic_selftest_keys` -/
  keys : Bool
  /-- `s_quic_make_cert` -/
  cert : Bool
  /-- `memento_thread_heap_alloc` of `s_quic_conn_new` -/
  conn : Option ℕ
  /-- The steps of `quic_dial` and `quic_accept` that do not wait, from the keys to the first message. -/
  setup : Bool
  /-- Whether a connection has its application keys and has not been closed. -/
  appReady : Bool
  /-- Whether what was waited for has succeeded. -/
  done : Bool
  /-- `s_io_accept` -/
  accepted : Option ℕ

namespace Sys

/-- Change a hose. -/
def setHose (h : ℕ) (x : Hose) (s : Sys) : Sys := { s with hose := Function.update s.hose h x }

/-- Change a connection. -/
def setConn (c : ℕ) (x : Option QuicConn) (s : Sys) : Sys := { s with conns := Function.update s.conns c x }

/-- Change what a call is at. -/
def setPc (a : ℕ) (p : Pc) (s : Sys) : Sys := { s with pc := Function.update s.pc a p }

/-- The hose gets a descriptor that was not open. -/
def openFd (h : ℕ) (fd : Option ℕ) (s : Sys) : Sys :=
  { s with fds := fd.elim s.fds (insert · s.fds), hose := Function.update s.hose h { s.hose h with fd := fd } }

/-- `suspenders_close_socket`; there is nothing to close without a descriptor. -/
def closeFd (fd : Option ℕ) (s : Sys) : Sys :=
  match fd with
  | none => s
  | some fd => { s with fds := s.fds.erase fd, badClose := s.badClose || decide (fd ∉ s.fds) }

/-- A system call gets a descriptor. -/
def useFd (fd : Option ℕ) (s : Sys) : Sys :=
  match fd with
  | none => s
  | some fd => { s with badUse := s.badUse || decide (fd ∉ s.fds) }

/-- A connection and its descriptor are used. -/
def useConn (c : ℕ) (s : Sys) : Sys :=
  match s.conns c with
  | none => { s with badUse := true }
  | some x => s.useFd x.fd

/-- `s_quic_conn_free`. -/
def freeConn (c : ℕ) (s : Sys) : Sys :=
  { s with conns := Function.update s.conns c none, badClose := s.badClose || decide ((s.conns c).isNone = true) }

end Sys

/-- Change a hose in a program. -/
def onHose (h : ℕ) (f : Hose → Hose) : Prog Sys Unit := modify fun s => s.setHose h (f (s.hose h))

/-- `suspenders_close_socket(h->fd); h->fd = SUSPENDERS_INVALID_SOCK;` -/
def dropFd (h : ℕ) : Prog Sys Unit := do
  modify fun s => s.closeFd (s.hose h).fd
  onHose h fun x => { x with fd := none }

/-- What must succeed; otherwise the descriptor is closed again. -/
def check (h : ℕ) (ok : Bool) : Prog Sys Unit :=
  if ok then pure () else do
    dropFd h
    fail

/-- `h->roles |= roles` -/
def addRoles (h : ℕ) (roles : Roles) : Prog Sys Unit := onHose h fun x => { x with roles := x.roles.or roles }

/-- A socket for the hose, nonblocking. -/
def openSock (h : ℕ) (o : Outcomes) : Prog Sys Unit := do
  modify fun s => s.openFd h o.socket
  require (o.socket.isSome = true)
  check h o.nonblocking

/-- `tcp_dial`, up to `s_io_connect`. -/
def tcpDial (h : ℕ) (o : Outcomes) : Prog Sys Pc := do
  openSock h o
  check h o.pton
  return .connecting h o.socket

/-- `tcp_listen`. -/
def tcpListen (h : ℕ) (o : Outcomes) : Prog Sys Pc := do
  openSock h o
  check h o.bind
  check h o.listen
  addRoles h listening
  return .idle

/-- `udp_dial`. -/
def udpDial (h : ℕ) (o : Outcomes) : Prog Sys Pc := do
  openSock h o
  check h o.pton
  check h o.connect
  addRoles h dialing
  return .idle

/-- `udp_listen`. -/
def udpListen (h : ℕ) (o : Outcomes) : Prog Sys Pc := do
  openSock h o
  check h o.bind
  addRoles h (listening.or duplex)
  return .idle

/-- `unix_dial`, up to `s_io_connect`. -/
def unixDial (h : ℕ) (o : Outcomes) : Prog Sys Pc := do
  openSock h o
  return .connecting h o.socket

/-- `unix_listen`. -/
def unixListen (h : ℕ) (o : Outcomes) : Prog Sys Pc := do
  openSock h o
  check h o.bind
  check h o.listen
  addRoles h listening
  return .idle

/-- `tcp_dial` and `unix_dial`, after `s_io_connect`. -/
def connected (h : ℕ) (o : Outcomes) : Prog Sys Pc := do
  check h o.done
  addRoles h dialing
  return .idle

/-- The descriptor of a device of `tty_dial`. -/
def device (name : Bytes) : Option ℕ :=
  if name = cstr ['s', 't', 'd', 'i', 'n'] then some 0
  else if name = cstr ['s', 't', 'd', 'o', 'u', 't'] then some 1
  else if name = cstr ['s', 't', 'd', 'e', 'r', 'r'] then some 2
  else none

/-- `tty_dial`. -/
def ttyDial (h : ℕ) (name : Bytes) : Prog Sys Pc := do
  let fd ← ofOption (device name)
  onHose h fun x => { x with fd := some fd, roles := x.roles.or duplex }
  return .idle

/-- `s_quic_udp`. -/
def quicUdp (h : ℕ) (listen : Bool) (o : Outcomes) : Prog Sys Unit := do
  require ((listen || o.pton) = true)
  openSock h o
  check h (!listen || o.bind)

/-- `fail` of `quic_dial`. -/
def quicFail (h c : ℕ) : Prog Sys Pc := do
  modify fun s => match s.conns c with
    | some x => if x.ownsFd then s.closeFd x.fd else s
    | none => s
  onHose h fun x => { x with fd := none }
  modify fun s => s.freeConn c
  fail

/-- `quic_dial`, up to the first packet. -/
def quicDial (h : ℕ) (o : Outcomes) : Prog Sys Pc := do
  require (o.keys = true)
  quicUdp h false o
  match o.conn with
  | none => do
    dropFd h
    fail
  | some c => do
    modify fun s => s.setConn c (some ⟨(s.hose h).fd, true⟩)
    if o.setup then return .driving h c else quicFail h c

/-- `quic_dial`, after `s_quic_drive`. -/
def driven (h c : ℕ) (o : Outcomes) : Prog Sys Pc :=
  if o.done then do
    onHose h fun x => { x with priv := some c, roles := x.roles.or dialing, protocol := some .quic }
    return .idle
  else quicFail h c

/-- `quic_listen`. -/
def quicListen (h : ℕ) (o : Outcomes) : Prog Sys Pc := do
  require (o.keys = true)
  require (o.cert = true)
  quicUdp h true o
  onHose h fun x => { x with roles := x.roles.or listening, protocol := some .quic }
  return .idle

/-- The protocol that `suspenders_hose_parse_uri` puts into the hose. -/
def setProtocol (h : ℕ) (uri : Bytes) : Prog Sys Unit :=
  match schemes.find? fun s => s.1.isPrefixOf uri with
  | none => pure ()
  | some (_, proto) => onHose h fun x => { x with protocol := some proto }

/-- `suspenders_hose_dial`. -/
def dial (wide : ℤ → CInt) (h : ℕ) (uri : Bytes) (o : Outcomes) : Prog Sys Pc := do
  setProtocol h uri
  let (_, t, host, _) ← ofOption (hoseDial wide registry uri)
  onHose h fun x => { x with transport := some t }
  match t with
  | .tcp => tcpDial h o
  | .udp => udpDial h o
  | .quic => quicDial h o
  | .unix => unixDial h o
  | .tty => ttyDial h host

/-- `suspenders_hose_listen`; `tty_transport_ops` has no `listen`. -/
def listen (wide : ℤ → CInt) (h : ℕ) (uri : Bytes) (o : Outcomes) : Prog Sys Pc := do
  setProtocol h uri
  let (_, t, _, _) ← ofOption (hoseListen wide registry uri)
  onHose h fun x => { x with transport := some t }
  match t with
  | .tcp => tcpListen h o
  | .udp => udpListen h o
  | .quic => quicListen h o
  | .unix => unixListen h o
  | .tty => fail

/-- `s_stream_accept`, up to `s_io_accept`. -/
def streamAccept (l client : ℕ) (x : Hose) : Prog Sys Pc := do
  require (x.roles.listener = true ∧ x.fd ≠ none)
  return .accepting l client x.fd

/-- `s_stream_accept`, after `s_io_accept`. -/
def streamAccepted (l client : ℕ) (o : Outcomes) : Prog Sys Pc := do
  let new ← ofOption o.accepted
  modify fun s => { s with fds := insert new s.fds }
  if o.nonblocking then do
    let s ← get
    onHose client fun _ =>
      { Hose.blank with
        fd := some new, protocol := (s.hose l).protocol, transport := (s.hose l).transport, roles := duplex }
    return .idle
  else do
    modify fun s => s.closeFd (some new)
    fail

/-- `quic_accept`, up to `s_io_recvfrom`. -/
def quicAccept (l client : ℕ) (x : Hose) (o : Outcomes) : Prog Sys Pc := do
  require (x.roles.listener = true)
  let c ← ofOption o.conn
  modify fun s => s.setConn c (some ⟨x.fd, false⟩)
  if o.setup then return .receiving l client c x.fd
  else do
    modify fun s => s.freeConn c
    fail

/-- `quic_accept`, after `s_io_recvfrom`. -/
def received (l client c : ℕ) (o : Outcomes) : Prog Sys Pc :=
  if o.done then return .greeting l client c
  else do
    modify fun s => s.freeConn c
    fail

/-- `quic_accept`, after `s_quic_drive`. -/
def greeted (l client c : ℕ) (o : Outcomes) : Prog Sys Pc :=
  if o.done then do
    let s ← get
    onHose client fun _ =>
      { Hose.blank with
        fd := (s.hose l).fd, protocol := some .quic, transport := (s.hose l).transport, roles := duplex,
        priv := some c }
    return .idle
  else do
    modify fun s => s.freeConn c
    fail

/-- `suspenders_hose_accept`; `udp_transport_ops` and `tty_transport_ops` have no `accept`. -/
def accept (l client : ℕ) (o : Outcomes) : Prog Sys Pc := do
  let s ← get
  match (s.hose l).transport with
  | some .tcp | some .unix => streamAccept l client (s.hose l)
  | some .quic => quicAccept l client (s.hose l) o
  | some .udp | some .tty | none => fail

/-- `h->fd = SUSPENDERS_INVALID_SOCK; h->roles = 0;` -/
def clear (h : ℕ) : Prog Sys Unit := onHose h fun x => { x with fd := none, roles := .zero }

/-- `s_sock_close`, and what `suspenders_hose_close` does without a transport. -/
def sockClose (h : ℕ) : Prog Sys Pc := do
  dropFd h
  clear h
  return .idle

/-- `tty_close`. -/
def ttyClose (h : ℕ) : Prog Sys Pc := do
  clear h
  return .idle

/-- `quic_close` with a connection, after the last frame. -/
def closed (h c : ℕ) : Prog Sys Pc := do
  modify fun s => match s.conns c with
    | some x => if x.ownsFd then s.closeFd x.fd else s
    | none => s
  modify fun s => s.freeConn c
  onHose h fun x => { x with priv := none }
  clear h
  return .idle

/-- `quic_close`, up to the last frame. -/
def quicClose (h : ℕ) (x : Hose) (o : Outcomes) : Prog Sys Pc :=
  match x.priv with
  | some c => if o.appReady then pure (.closing h c) else closed h c
  | none => do
    modify fun s => if x.roles.listener then s.closeFd x.fd else s
    clear h
    return .idle

/-- `suspenders_hose_close`. -/
def close (h : ℕ) (o : Outcomes) : Prog Sys Pc := do
  let s ← get
  match (s.hose h).transport with
  | some .tcp | some .udp | some .unix | none => sockClose h
  | some .tty => ttyClose h
  | some .quic => quicClose h (s.hose h) o

/-- A read or a write of a hose that has a role for it: of a socket, or of a connection.  `tty_transport_ops` has
neither. -/
def readWrite (h : ℕ) (role : Roles → Bool) : Prog Sys Pc := do
  let s ← get
  let x := s.hose h
  match x.transport with
  | some .tcp | some .udp | some .unix => do
    require (role x.roles = true ∧ x.fd ≠ none)
    return .inUse h x.fd none
  | some .quic => do
    let c ← ofOption x.priv
    require (role x.roles = true)
    return .inUse h none (some c)
  | some .tty | none => fail

/-- `suspenders_hose_shutdown`, `suspenders_hose_set_option`, `suspenders_hose_peername` and
`suspenders_hose_sockname`. -/
def onSocket (h : ℕ) (o : Outcomes) : Prog Sys Pc := do
  let s ← get
  require ((s.hose h).fd ≠ none)
  modify fun s => s.useFd (s.hose h).fd
  require (o.done = true)
  return .idle

/-- A call. -/
inductive Call
  | init (h : ℕ)
  | dial (h : ℕ) (uri : Bytes)
  | listen (h : ℕ) (uri : Bytes)
  | accept (l client : ℕ)
  | close (h : ℕ)
  | read (h : ℕ)
  | write (h : ℕ)
  | onSocket (h : ℕ)

/-- What a call does until it returns or waits. -/
def Call.prog (wide : ℤ → CInt) (o : Outcomes) : Call → Prog Sys Pc
  | .init h => do
    onHose h fun _ => .blank
    return .idle
  | .dial h uri => Hoses.dial wide h uri o
  | .listen h uri => Hoses.listen wide h uri o
  | .accept l client => Hoses.accept l client o
  | .close h => Hoses.close h o
  | .read h => readWrite h Roles.reader
  | .write h => readWrite h Roles.writer
  | .onSocket h => Hoses.onSocket h o

/-- What a call has used when it goes on. -/
def Sys.touch (s : Sys) : Pc → Sys
  | .idle => s
  | .connecting _ fd | .accepting _ _ fd | .receiving _ _ _ fd => s.useFd fd
  | .driving _ c | .greeting _ _ c | .closing _ c => s.useConn c
  | .inUse _ fd c => c.elim (s.useFd fd) (s.useFd fd).useConn

/-- What a call does after it has waited; a read or a write may wait again. -/
def Pc.prog (o : Outcomes) : Pc → Prog Sys Pc
  | .idle => fail
  | .connecting h _ => connected h o
  | .driving h c => driven h c o
  | .accepting l client _ => streamAccepted l client o
  | .receiving l client c _ => received l client c o
  | .greeting l client c => greeted l client c o
  | .closing h c => closed h c
  | .inUse h fd c => pure (if o.done then .idle else .inUse h fd c)

/-- A coroutine makes a call, or goes on with one. -/
inductive Event
  | call (a : ℕ) (k : Call) (o : Outcomes)
  | resume (a : ℕ) (o : Outcomes)

/-- Run a part of a call: it waits at a `Pc`, or has returned true (`Pc.idle`) or false. -/
def Sys.exec (s : Sys) (a : ℕ) (x : Prog Sys Pc) : Sys :=
  match x s with
  | (some p, s') => s'.setPc a p
  | (none, s') => s'.setPc a .idle

/-- A new descriptor was not open before, and memory is not allocated twice. -/
structure Fresh (s : Sys) (o : Outcomes) : Prop where
  socket : ∀ fd, o.socket = some fd → fd ∉ s.fds
  accepted : ∀ fd, o.accepted = some fd → fd ∉ s.fds
  conn : ∀ c, o.conn = some c → s.conns c = none

/-- The steps of the system. -/
inductive Step (wide : ℤ → CInt) : Sys → Event → Sys → Prop
  | call {s : Sys} {a : ℕ} {k : Call} {o : Outcomes} :
      s.pc a = .idle → Fresh s o → Step wide s (.call a k o) (s.exec a (k.prog wide o))
  | resume {s : Sys} {a : ℕ} {o : Outcomes} :
      s.pc a ≠ .idle → Fresh s o → Step wide s (.resume a o) ((s.touch (s.pc a)).exec a ((s.pc a).prog o))

/-- Hoses are initialised, and `base` is open. -/
def Sys.start (base : Finset ℕ) : Sys := ⟨base, fun _ => none, fun _ => .blank, fun _ => .idle, false, false⟩

end Suspenders.Hoses
