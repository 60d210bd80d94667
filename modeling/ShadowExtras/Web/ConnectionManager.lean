import Mathlib.Logic.Function.Basic
import ShadowExtras.Foundation.Bytes
import ShadowExtras.Foundation.Run

/-!
# The connection manager

`ConnectionManager` of the web utilities. Requests are submitted for a network location; the manager
keeps for every location a `Server` with the waiting requests and the open connections. A request is
handed to an idle connection, or to a new one while fewer than `maxPersist` are open, or it waits. A
connection that reports the completion of a response gets the next waiting request. A connection
that reports an error or the end of the stream is released, and its active requests are submitted
again until their retries are exhausted.

Of a `Connection` the manager sees two queues: `submitted`, and `active` for the requests written to
the socket, at most one at a time. The bytes on the socket are left out here, and so are the byte
totals and the time stamp, which do not influence where requests go; the events say what arrived. A
released connection is destroyed later from the event loop, and until then it can still receive.

The user's callbacks run in the middle of an operation and may submit new requests; an event carries
the locations they submit to. A failed assertion is a fault.
-/

namespace ShadowExtras.Web

open Foundation

/-- `ConnectionManager::NetLoc`: host name and port. -/
abbrev NetLoc := Bytes × UInt16

/-- A request object. -/
abbrev ReqId := Nat

/-- The fields of a `Request` that the manager uses. -/
structure Request where
  netloc : NetLoc
  numRetries : Nat
  bodySize : Nat
  firstBytePos : Nat
  deriving DecidableEq, Repr

/-! ## Connections -/

/-- A `Connection` with its two queues. -/
structure Cnx where
  instNum : Nat
  /-- `submitted_req_queue_` -/
  submitted : List ReqId
  /-- `active_req_queue_` -/
  active : List ReqId
  deriving DecidableEq, Repr

namespace Cnx

/-- A connection that was just opened. -/
def new (instNum : Nat) : Cnx := { instNum := instNum, submitted := [], active := [] }

/-- `Connection::get_queue_size`. -/
def getQueueSize (c : Cnx) : Nat := c.submitted.length + c.active.length

/-- `Connection::http_write_to_outbuf`, without pipelining: the next submitted request becomes
active when no other is. -/
def httpWriteToOutbuf (c : Cnx) : Cnx :=
  match c.submitted with
  | [] => c
  | req :: rest =>
    if c.active.length > 0 then c else { c with submitted := rest, active := c.active ++ [req] }

/-- `Connection::submit_request`. -/
def submitRequest (req : ReqId) (c : Cnx) : Cnx :=
  httpWriteToOutbuf { c with submitted := c.submitted ++ [req] }

/-- `active_req_queue_.pop()`. -/
def popActive (c : Cnx) : Cnx := { c with active := c.active.tail }

/-- Submit a request on the first connection with an empty queue, if there is one. -/
def submitIdle (req : ReqId) : List Cnx → Option (List Cnx)
  | [] => none
  | c :: cs =>
    if c.getQueueSize = 0 then some (c.submitRequest req :: cs)
    else (submitIdle req cs).map fun cs' => c :: cs'

/-- Change the connection with the given number. -/
def update (instNum : Nat) (f : Cnx → Cnx) : List Cnx → List Cnx
  | [] => []
  | c :: cs => if c.instNum = instNum then f c :: cs else c :: update instNum f cs

/-- The connection with the given number. -/
def find (instNum : Nat) : List Cnx → Option Cnx
  | [] => none
  | c :: cs => if c.instNum = instNum then some c else find instNum cs

/-- Erase the connection with the given number. -/
def erase (instNum : Nat) : List Cnx → List Cnx
  | [] => []
  | c :: cs => if c.instNum = instNum then cs else c :: erase instNum cs

end Cnx

/-! ## The manager -/

/-- `ConnectionManager::Server`. -/
structure Server where
  requests : List ReqId
  connections : List Cnx
  deriving DecidableEq, Repr

/-- `ConnectionManager`, with the requests it was given and the notifications it made. -/
structure ConnectionManager where
  maxPersist : Nat
  maxRetries : Nat
  servers : NetLoc → Option Server
  /-- Connections that are released and not destroyed yet. -/
  released : NetLoc → List Cnx
  request : ReqId → Request
  /-- The number of requests submitted so far; the next one gets this number. -/
  nextReq : Nat
  nextInstNum : Nat
  /-- The requests notified by `notify_rsp_body_done`. -/
  done : List ReqId
  /-- The requests reported by `notify_req_error_`. -/
  failed : List ReqId

/-- An assertion that fails. -/
inductive AssertFailed
  /-- `inMap(servers_, netloc)` in `release_conn`. -/
  | netlocInMap
  /-- `finditer != conns.end()` in `release_conn`. -/
  | connInList
  /-- `conn->get_pending_request_queue().empty()` in `handle_unusable_conn`. -/
  | noPending
  /-- `server` in `cnx_request_done_cb`. -/
  | server
  deriving DecidableEq, Repr

namespace ConnectionManager

variable (s : ConnectionManager)

/-- A manager without servers; `released` are connections that an earlier `reset()` has scheduled
for deletion. -/
def new (maxPersist maxRetries : Nat) (released : NetLoc → List Cnx) : ConnectionManager where
  maxPersist := maxPersist
  maxRetries := maxRetries
  servers _ := none
  released := released
  request _ := { netloc := ([], 0), numRetries := 0, bodySize := 0, firstBytePos := 0 }
  nextReq := 0
  nextInstNum := 0
  done := []
  failed := []

/-- `servers_[netloc] = server`. -/
def setServer (netloc : NetLoc) (server : Option Server) : ConnectionManager :=
  { s with servers := Function.update s.servers netloc server }

/-- `ConnectionManager::submit_request`. -/
def submitRequest (req : ReqId) : ConnectionManager :=
  let netloc := (s.request req).netloc
  let server := (s.servers netloc).getD { requests := [], connections := [] }
  let requests := server.requests ++ [req]
  let reqtosubmit := requests.headD req
  match Cnx.submitIdle reqtosubmit server.connections with
  | some connections =>
    s.setServer netloc (some { requests := requests.tail, connections := connections })
  | none =>
    if server.connections.length < s.maxPersist then
      let conn := (Cnx.new s.nextInstNum).submitRequest reqtosubmit
      { s.setServer netloc
          (some { requests := requests.tail, connections := server.connections ++ [conn] }) with
        nextInstNum := s.nextInstNum + 1 }
    else
      s.setServer netloc (some { requests := requests, connections := server.connections })

/-- The user submits a new request. -/
def newRequest (netloc : NetLoc) : ConnectionManager :=
  submitRequest
    { s with
      request := Function.update s.request s.nextReq
        { netloc := netloc, numRetries := 0, bodySize := 0, firstBytePos := 0 }
      nextReq := s.nextReq + 1 } s.nextReq

/-- A callback of the user submits new requests. -/
def submitAll (netlocs : List NetLoc) : ConnectionManager :=
  netlocs.foldl newRequest s

/-- Is the connection in the list of its server? -/
def isLive (netloc : NetLoc) (instNum : Nat) : Bool :=
  match s.servers netloc with
  | none => false
  | some server => (Cnx.find instNum server.connections).isSome

/-- The connection with the given number, live or released. -/
def cnx (netloc : NetLoc) (instNum : Nat) : Option Cnx :=
  match s.servers netloc with
  | none => Cnx.find instNum (s.released netloc)
  | some server =>
    (Cnx.find instNum server.connections).or (Cnx.find instNum (s.released netloc))

/-- Change the connection with the given number, live or released. -/
def updateCnx (netloc : NetLoc) (instNum : Nat) (f : Cnx → Cnx) : ConnectionManager :=
  if s.isLive netloc instNum then
    s.setServer netloc ((s.servers netloc).map fun server =>
      { server with connections := Cnx.update instNum f server.connections })
  else
    let conns := Cnx.update instNum f (s.released netloc)
    { s with released := Function.update s.released netloc conns }

/-- `ConnectionManager::cnx_request_done_cb`: hand the next waiting request to the connection. -/
def cnxRequestDoneCb (netloc : NetLoc) (instNum : Nat) : Except AssertFailed ConnectionManager :=
  match s.servers netloc with
  | none => .error .server
  | some server =>
    match server.requests with
    | [] => .ok s
    | reqtosubmit :: rest =>
      .ok (updateCnx (s.setServer netloc (some { server with requests := rest })) netloc instNum
        (Cnx.submitRequest reqtosubmit))

/-- A response is complete on a connection: the request is notified, its callback submits to
`netlocs`, and the connection gets more work. A connection without active request does not read. -/
def responseDone (netloc : NetLoc) (instNum : Nat) (netlocs : List NetLoc) :
    Except AssertFailed ConnectionManager :=
  match (s.cnx netloc instNum).bind fun c => c.active.head? with
  | none => .ok s
  | some req =>
    let popped := s.updateCnx netloc instNum Cnx.popActive
    let notified := { popped with done := popped.done ++ [req] }.submitAll netlocs
    match notified.cnxRequestDoneCb netloc instNum with
    | .error fault => .error fault
    | .ok s' => .ok (s'.updateCnx netloc instNum Cnx.httpWriteToOutbuf)

/-- Body bytes of a response arrive on a connection. -/
def responseBodyData (netloc : NetLoc) (instNum len : Nat) : ConnectionManager :=
  match (s.cnx netloc instNum).bind fun c => c.active.head? with
  | none => s
  | some req =>
    let q := s.request req
    let q' := { q with bodySize := q.bodySize + len }
    { s with request := Function.update s.request req q' }

/-- `ConnectionManager::release_conn`, with the released connection. -/
def releaseConn (netloc : NetLoc) (instNum : Nat) :
    Except AssertFailed (ConnectionManager × Cnx) :=
  match s.servers netloc with
  | none => .error .netlocInMap
  | some server =>
    match Cnx.find instNum server.connections with
    | none => .error .connInList
    | some conn =>
      let conns := Cnx.erase instNum server.connections
      let kept := if conns.length = 0 then none else some { server with connections := conns }
      let released := s.released netloc ++ [conn]
      .ok ({ s.setServer netloc kept with
        released := Function.update s.released netloc released }, conn)

/-- `ConnectionManager::retry_requests`; `errorCb` gives the locations that the error callback of a
request submits to. -/
def retryRequests (errorCb : ReqId → List NetLoc) : ConnectionManager → List ReqId →
    ConnectionManager
  | s, [] => s
  | s, req :: rest =>
    let q := s.request req
    if q.numRetries = s.maxRetries then
      retryRequests errorCb ({ s with failed := s.failed ++ [req] }.submitAll (errorCb req)) rest
    else
      let q' := { q with
        numRetries := q.numRetries + 1
        firstBytePos := if q.bodySize > 0 then q.bodySize else q.firstBytePos }
      retryRequests errorCb
        (submitRequest { s with request := Function.update s.request req q' } req) rest

/-- `ConnectionManager::handle_unusable_conn`. -/
def handleUnusableConn (netloc : NetLoc) (instNum : Nat) (errorCb : ReqId → List NetLoc) :
    Except AssertFailed ConnectionManager :=
  match s.releaseConn netloc instNum with
  | .error fault => .error fault
  | .ok (s', conn) =>
    if conn.submitted.isEmpty then .ok (retryRequests errorCb s' conn.active)
    else .error .noPending

/-- `ConnectionManager::reset`: all connections are scheduled for deletion and the servers are
forgotten. -/
def reset : ConnectionManager :=
  { s with
    servers := fun _ => none
    released := fun netloc => s.released netloc ++ (s.servers netloc).elim [] Server.connections }

/-- What happens to a manager between two calls of `reset()`. -/
inductive Event
  /-- The user submits a new request. -/
  | submit (netloc : NetLoc)
  /-- Body bytes arrive on a connection. -/
  | bodyData (netloc : NetLoc) (instNum len : Nat)
  /-- A response is complete on a connection. -/
  | responseDone (netloc : NetLoc) (instNum : Nat) (netlocs : List NetLoc)
  /-- A connection reports the end of the stream, a read error or a connect error. -/
  | unusable (netloc : NetLoc) (instNum : Nat) (errorCb : ReqId → List NetLoc)
  /-- A released connection is destroyed. -/
  | delete (netloc : NetLoc) (instNum : Nat)

/-- One event. -/
def step (s : ConnectionManager) : Event → Except AssertFailed ConnectionManager
  | .submit netloc => .ok (s.newRequest netloc)
  | .bodyData netloc instNum len => .ok (s.responseBodyData netloc instNum len)
  | .responseDone netloc instNum netlocs => s.responseDone netloc instNum netlocs
  | .unusable netloc instNum errorCb => s.handleUnusableConn netloc instNum errorCb
  | .delete netloc instNum =>
    let conns := Cnx.erase instNum (s.released netloc)
    .ok { s with released := Function.update s.released netloc conns }

end ConnectionManager

end ShadowExtras.Web
