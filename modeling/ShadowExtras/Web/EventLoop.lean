import ShadowExtras.Web.ConnectionManager

/-!
# The event loop of the connections

Every `Connection` of a manager owns a `myevent_socket_t`. The event loop calls `trigger` with the
events that epoll reports for the socket, and `trigger` calls the handlers one after the other: the
event handler for an error, the event handler for a hangup of the peer, the event or the write
handler for a writable socket, the read handler for a readable one. The event handlers test the
event with `&`, although its values are 1, 2 and 3: they take an error for the end of the stream,
and the end of the stream for the event that the socket is connected. A connection whose manager
knows a SOCKS proxy starts with the handlers of the proxy handshake.

A handler that finds the connection unusable reports it to the manager, which releases the
connection: it takes the connection out of its lists and schedules its deletion. Until a later turn
of the loop deletes it, the connection still has its socket and its handlers, and so have the
connections that `reset()` has scheduled for deletion.

What the sockets deliver is left to the events: whether a write handler is set and finds bytes to
send, what the received bytes amount to, whether the peer has closed the connection, what the proxy
answers. Faults are assertions that fail.
-/

namespace ShadowExtras.Web

open Foundation

/-! ## Sockets -/

/-- `mev_state_t`, once `socket_connect` was called. -/
inductive MevState
  | connecting
  | connected
  | error
  | closed
  deriving DecidableEq, Repr

/-- `mev_event_t` -/
inductive MevEvent
  | connected
  | error
  | eof
  deriving DecidableEq, Repr

namespace MevEvent

/-- The value of an event. -/
def value : MevEvent → Nat
  | .connected => 1
  | .error => 2
  | .eof => 3

/-- `events & flag` -/
def has (events flag : MevEvent) : Bool := events.value &&& flag.value ≠ 0

end MevEvent

/-- The handlers that `readcb_` is set to. -/
inductive ReadCb
  | mevReadcb
  | mevSocks5ProxyReadcb
  deriving DecidableEq, Repr

/-- The handlers that `eventcb_` is set to; `writecb_` is changed together with them. -/
inductive EventCb
  | mevEventcb
  | mevSocks5ProxyEventcb
  deriving DecidableEq, Repr

/-- `Connection::state_`, from `initiate_connection` to the destructor. -/
inductive CnxState
  | connecting
  | connected
  deriving DecidableEq, Repr

/-- `Connection::socks5_state_`. -/
inductive Socks5State
  | none
  | greeting
  | writeRequestNext
  | readRespNext
  deriving DecidableEq, Repr

/-- The `myevent_socket_t` of a connection, with the states of the connection itself. -/
structure Sock where
  state : MevState
  readcb : Option ReadCb
  eventcb : EventCb
  cnxState : CnxState
  socks5State : Socks5State
  deriving DecidableEq, Repr

namespace Sock

/-- `Connection::initiate_connection`, with or without a proxy; `connect` is in progress or succeeds
at once. -/
def initiate (socks5 atOnce : Bool) : Sock where
  state := if atOnce then .connected else .connecting
  readcb := if socks5 then none else some .mevReadcb
  eventcb := if socks5 then .mevSocks5ProxyEventcb else .mevEventcb
  cnxState := .connecting
  socks5State := .none

/-- The socket of `Connection::send_`: `writes` says that there are bytes to send. -/
def send (writes : Bool) (s : Sock) : Sock :=
  if writes then { s with readcb := some .mevReadcb } else s

/-- `Connection::on_socks5_proxy_connected`. -/
def onSocks5ProxyConnected (s : Sock) : Sock :=
  { s with socks5State := .greeting, readcb := some .mevSocks5ProxyReadcb }

/-- `Connection::on_socks5_proxy_writable`. -/
def onSocks5ProxyWritable (s : Sock) : Sock :=
  if s.socks5State = .writeRequestNext then
    { s with socks5State := .readRespNext, readcb := some .mevSocks5ProxyReadcb }
  else s

/-- The socket after the part of `trigger` for an error. -/
def erred (reported : Bool) (s : Sock) : Sock :=
  if reported then { s with state := .error } else s

/-- The socket after an event handler that takes its event for the one that the socket is
connected. -/
def onConnected (writes : Bool) (s : Sock) : Sock :=
  match s.eventcb with
  | .mevEventcb => send writes { s with cnxState := .connected }
  | .mevSocks5ProxyEventcb => s.onSocks5ProxyConnected

/-- The socket after the part of `trigger` for a hangup. -/
def hungUp (reported writes : Bool) (s : Sock) : Sock :=
  if reported then { s.onConnected writes with state := .closed } else s

/-- The socket after the part of `trigger` for a writable socket. -/
def writable (writes : Bool) (s : Sock) : Sock :=
  if s.state = .connecting then onConnected writes { s with state := .connected }
  else
    match s.eventcb with
    | .mevEventcb => s.send writes
    | .mevSocks5ProxyEventcb => s.onSocks5ProxyWritable

/-- The tunnel through the proxy is established. -/
def tunnel (s : Sock) : Sock :=
  { s with
    cnxState := .connected
    socks5State := .none
    readcb := some .mevReadcb
    eventcb := .mevEventcb }

end Sock

/-! ## What epoll reports -/

/-- What the bytes read by `http_receive` amount to. -/
inductive Arrival
  /-- Body bytes. -/
  | bodyData (len : Nat)
  /-- A response is complete; the callback submits to these locations. -/
  | responseDone (netlocs : List NetLoc)
  /-- The callback for the headers or for body bytes submits to these locations. -/
  | submits (netlocs : List NetLoc)
  deriving DecidableEq, Repr

/-- A call of `trigger` on the socket of a connection, with what its handlers find. -/
structure Trigger where
  netloc : NetLoc
  instNum : Nat
  epollin : Bool
  epollout : Bool
  epollerr : Bool
  /-- `trigger` does not look at this one. -/
  epollhup : Bool
  epollrdhup : Bool
  /-- The write handler is set and there are bytes to send. -/
  writes : Bool
  /-- What the bytes amount to that the read handler receives. -/
  arrivals : List Arrival
  /-- The read handler finds that the peer has closed the connection. -/
  eof : Bool
  /-- The proxy does not grant the request for a tunnel. -/
  refused : Bool
  /-- The locations that the error callback of a request submits to. -/
  errorCb : ReqId → List NetLoc

/-- A failed assertion. -/
inductive Fault
  /-- In the manager. -/
  | manager (fault : AssertFailed)
  /-- `state_` in `myevent_socket_t::trigger`. -/
  | triggerState
  /-- `myassert(0)` in `mev_socks5_proxy_eventcb`. -/
  | socks5Proxy
  /-- `state_ == CONNECTING` in `Connection::on_connect`. -/
  | onConnect
  deriving DecidableEq, Repr

/-! ## The loop -/

/-- The manager, the sockets of its connections and the calls of `release_conn`. -/
structure EventLoop where
  manager : ConnectionManager
  /-- The socket of every connection, also of those that will be opened. -/
  sock : Nat → Sock
  /-- How often `release_conn` was called for a connection. -/
  releases : NetLoc × Nat → Nat

namespace EventLoop

variable (w : EventLoop) (t : Trigger)

/-- A loop without connections; `atOnce` says for which ones `connect` succeeds at once. -/
def new (maxPersist maxRetries : Nat) (socks5 : Bool) (atOnce : Nat → Bool) : EventLoop where
  manager := ConnectionManager.new maxPersist maxRetries fun _ => []
  sock n := Sock.initiate socks5 (atOnce n)
  releases _ := 0

/-- Change the socket of the connection. -/
def setSock (s : Sock) : EventLoop :=
  { w with sock := Function.update w.sock t.instNum s }

/-- `cnx_error_cb` and `cnx_eof_cb`: the connection is reported to be unusable. -/
def unusable : Except Fault EventLoop :=
  match w.manager.handleUnusableConn t.netloc t.instNum t.errorCb with
  | .error fault => .error (.manager fault)
  | .ok manager =>
    .ok { w with
      manager := manager
      releases := Function.update w.releases (t.netloc, t.instNum)
        (w.releases (t.netloc, t.instNum) + 1) }

/-- The manager and the socket when `send_` has written the next request. -/
def written (s : Sock) : EventLoop :=
  { w.setSock t s with
    manager := w.manager.updateCnx t.netloc t.instNum Cnx.httpWriteToOutbuf }

/-- `Connection::on_connect` -/
def onConnect : Except Fault EventLoop :=
  let s := w.sock t.instNum
  if s.cnxState ≠ .connecting then .error .onConnect
  else .ok (w.written t (Sock.send t.writes { s with cnxState := .connected }))

/-- `mev_eventcb` -/
def mevEventcb (events : MevEvent) : Except Fault EventLoop :=
  if events.has .connected then w.onConnect t
  else if events.has .eof then w.unusable t
  else if events.has .error then w.unusable t
  else .ok w

/-- `mev_socks5_proxy_eventcb` -/
def mevSocks5ProxyEventcb (events : MevEvent) : Except Fault EventLoop :=
  if events.has .connected then .ok (w.setSock t (w.sock t.instNum).onSocks5ProxyConnected)
  else if events.has .eof then .error .socks5Proxy
  else if events.has .error then .error .socks5Proxy
  else .ok w

/-- The event handler of the socket. -/
def eventcb (events : MevEvent) : Except Fault EventLoop :=
  match (w.sock t.instNum).eventcb with
  | .mevEventcb => w.mevEventcb t events
  | .mevSocks5ProxyEventcb => w.mevSocks5ProxyEventcb t events

/-- A part of `trigger` that calls the event handler and sets the state of the socket. -/
def hangup (reported : Bool) (events : MevEvent) (state : MevState) : Except Fault EventLoop :=
  if reported then
    match w.eventcb t events with
    | .error fault => .error fault
    | .ok w' => .ok (w'.setSock t { w'.sock t.instNum with state := state })
  else .ok w

/-- The part of `trigger` for `EPOLLERR`. -/
def onErr : Except Fault EventLoop := w.hangup t t.epollerr .error .error

/-- The part of `trigger` for `EPOLLRDHUP`. -/
def onRdhup : Except Fault EventLoop := w.hangup t t.epollrdhup .eof .closed

/-- The part of `trigger` for `EPOLLOUT`. -/
def onOut : Except Fault EventLoop :=
  let s := w.sock t.instNum
  if t.epollout then
    if s.state = .connecting then
      (w.setSock t { s with state := .connected }).eventcb t .connected
    else match s.eventcb with
      | .mevEventcb => .ok (w.written t (s.send t.writes))
      | .mevSocks5ProxyEventcb => .ok (w.setSock t s.onSocks5ProxyWritable)
  else .ok w

/-- The manager while `http_receive` works on what arrived. -/
def receive (netloc : NetLoc) (instNum : Nat) :
    ConnectionManager → List Arrival → Except AssertFailed ConnectionManager
  | m, [] => .ok m
  | m, .bodyData len :: rest =>
    receive netloc instNum (m.responseBodyData netloc instNum len) rest
  | m, .submits netlocs :: rest => receive netloc instNum (m.submitAll netlocs) rest
  | m, .responseDone netlocs :: rest =>
    match m.responseDone netloc instNum netlocs with
    | .error fault => .error fault
    | .ok m' => receive netloc instNum m' rest

/-- `Connection::on_read`. Without an active request `http_receive` reads nothing and returns the
value that it also returns at the end of the stream. -/
def onRead (c : Cnx) : Except Fault EventLoop :=
  if c.active.length = 0 then
    (w.setSock t { w.sock t.instNum with readcb := none }).unusable t
  else
    match receive t.netloc t.instNum w.manager t.arrivals with
    | .error fault => .error (.manager fault)
    | .ok manager =>
      if t.eof then { w with manager := manager }.unusable t else .ok { w with manager := manager }

/-- `Connection::on_socks5_proxy_readable`. -/
def onSocks5ProxyReadable : Except Fault EventLoop :=
  let s := w.sock t.instNum
  match s.socks5State with
  | .greeting => .ok (w.setSock t { s with socks5State := .writeRequestNext, readcb := none })
  | .readRespNext => if t.refused then w.unusable t else .ok (w.setSock t s.tunnel)
  | _ => .ok w

/-- The part of `trigger` for `EPOLLIN`. -/
def onIn : Except Fault EventLoop :=
  if t.epollin then
    match (w.sock t.instNum).readcb, w.manager.cnx t.netloc t.instNum with
    | some .mevReadcb, some c => w.onRead t c
    | some .mevSocks5ProxyReadcb, some _ => w.onSocks5ProxyReadable t
    | _, _ => .ok w
  else .ok w

/-- `myevent_socket_t::trigger`, called by the loop for a socket that it still knows. -/
def trigger : Except Fault EventLoop :=
  match w.manager.cnx t.netloc t.instNum with
  | none => .ok w
  | some _ =>
    if (w.sock t.instNum).state = .connecting ∨ (w.sock t.instNum).state = .connected then do
      let w ← w.onErr t
      let w ← w.onRdhup t
      let w ← w.onOut t
      w.onIn t
    else .error .triggerState

/-- What happens in turns of the loop. -/
inductive Event
  /-- The user submits a request. -/
  | submit (netloc : NetLoc)
  /-- Epoll reports events for a connection. -/
  | trigger (t : Trigger)
  /-- The user resets the manager. -/
  | reset
  /-- A connection that is scheduled for deletion is destroyed, and its socket with it. -/
  | delete (netloc : NetLoc) (instNum : Nat)

/-- One turn. -/
def step (w : EventLoop) : Event → Except Fault EventLoop
  | .submit netloc => .ok { w with manager := w.manager.newRequest netloc }
  | .trigger t => w.trigger t
  | .reset => .ok { w with manager := w.manager.reset }
  | .delete netloc instNum =>
    let conns := Cnx.erase instNum (w.manager.released netloc)
    .ok { w with manager :=
      { w.manager with released := Function.update w.manager.released netloc conns } }

end EventLoop

end ShadowExtras.Web
