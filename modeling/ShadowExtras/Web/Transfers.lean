import ShadowExtras.Web.EventLoop
import ShadowExtras.Web.HttpConnection

/-!
# Transfers

The bodies of responses on their way through the connections of a manager. A request that waits is
written to a connection, with a `Range` header once a part of the body has arrived; the connection
parses what it receives and hands the body to the request. A connection that fails is released, and
its request waits again until its retries are exhausted. A released connection keeps its socket
until it is deleted.

Here the manager decides nothing: a waiting request is written to any connection without an active
request, at any time, also in the middle of `http_receive`. The server answers a request as a
function of its text; the answer is received in pieces, and the connection may fail, close or be
reported with any mask at any point. A step of `http_receive` goes from one label to the next.
-/

namespace ShadowExtras.Web

open Foundation

/-! ## Data -/

/-- What a `Request` asks for. -/
structure Resource where
  netloc : NetLoc
  path : Bytes
  headers : List (Bytes × Bytes)

/-- A `Connection`, with what the server still sends on it. -/
structure Link (E : Evbuffer) where
  http : HttpConnection E
  /-- `active_req_queue_` -/
  active : List ReqId
  toRecv : Bytes
  /-- The state of its `myevent_socket_t`. -/
  state : MevState
  released : Bool

/-- A place in `http_receive` of a connection, with the local variables. -/
inductive TransferLabel
  /-- No callback is running. -/
  | idle
  /-- `read_more` -/
  | readMore (c : Nat) (contentRangeFound reachedEof : Bool)
  /-- `handle_response` -/
  | handleResponse (c : Nat) (contentRangeFound reachedEof : Bool)
  deriving DecidableEq, Repr

/-- An assertion that fails. -/
inductive TransferFault
  /-- In `http_receive`. -/
  | http (fault : HttpFault)
  /-- In `release_conn`, for a connection that is not in the lists. -/
  | releaseConn
  /-- `state_` in `myevent_socket_t::trigger`. -/
  | triggerState
  deriving DecidableEq, Repr

/-- What the surroundings decide in a step. -/
inductive TransferChoice
  /-- The user submits a request. -/
  | submit
  /-- A waiting request is written to a connection. -/
  | write (req : ReqId) (c : Nat)
  /-- Epoll reports events for a connection. -/
  | trigger (c : Nat) (epollerr epollrdhup epollin : Bool)
  /-- The proxy does not grant a connection its tunnel. -/
  | refused (c : Nat)
  /-- What `recv` returns for the vectors. -/
  | recv (results : List NumRead)
  /-- Nothing is left open. -/
  | go
  deriving DecidableEq, Repr

/-- The requests and the connections. -/
structure Transfers (E : Evbuffer) where
  maxRetries : Nat
  request : ReqId → Request
  /-- The number of requests submitted so far; the next one gets this number. -/
  nextReq : Nat
  /-- The requests that wait for a connection. -/
  waiting : List ReqId
  conn : Nat → Link E
  label : TransferLabel
  /-- The bytes that `notify_rsp_body_data` was called with, for every request. -/
  data : ReqId → Bytes
  /-- The requests notified by `notify_rsp_body_done`. -/
  done : List ReqId
  /-- The requests reported by `notify_req_error_`. -/
  failed : List ReqId

namespace Transfers

variable {E : Evbuffer} (w : Transfers E)

/-- A connection that was just opened. -/
def newLink (E : Evbuffer) : Link E where
  http := HttpConnection.new E
  active := []
  toRecv := []
  state := .connecting
  released := false

/-- A manager without requests. -/
def new (E : Evbuffer) (maxRetries : Nat) : Transfers E where
  maxRetries := maxRetries
  request _ := { netloc := ([], 0), numRetries := 0, bodySize := 0, firstBytePos := 0 }
  nextReq := 0
  waiting := []
  conn _ := newLink E
  label := .idle
  data _ := []
  done := []
  failed := []

/-- Change a connection. -/
def setConn (c : Nat) (l : Link E) : Transfers E :=
  { w with conn := Function.update w.conn c l }

/-! ## Requests -/

section Requests

variable (ask : ReqId → Resource) (serve : NetLoc → Bytes → Bytes)

/-- The user submits a request. -/
def submit : Transfers E :=
  { w with
    request := Function.update w.request w.nextReq
      { netloc := (ask w.nextReq).netloc, numRetries := 0, bodySize := 0, firstBytePos := 0 }
    nextReq := w.nextReq + 1
    waiting := w.waiting ++ [w.nextReq] }

/-- The text of a request. -/
def textOf (req : ReqId) : Bytes :=
  requestText (ask req).path (ask req).headers (w.request req).firstBytePos

/-- `Connection::http_write_to_outbuf`; the answer of the server is on its way. -/
def writeToOutbuf (req : ReqId) (c : Nat) : Transfers E :=
  let l := w.conn c
  if req ∈ w.waiting ∧ l.active = [] then
    { w with waiting := w.waiting.erase req }.setConn c
      { l with
        http := { l.http with firstBytePos := (w.request req).firstBytePos }
        active := [req]
        toRecv := l.toRecv ++ serve (ask req).netloc (w.textOf ask req) }
  else w

end Requests

/-- The loop of `ConnectionManager::retry_requests`. -/
def retry (req : ReqId) : Transfers E :=
  let q := w.request req
  if q.numRetries = w.maxRetries then { w with failed := w.failed ++ [req] }
  else
    let q' := { q with
      numRetries := q.numRetries + 1
      firstBytePos := if 0 < q.bodySize then q.bodySize else q.firstBytePos }
    { w with request := Function.update w.request req q', waiting := w.waiting ++ [req] }

/-- `ConnectionManager::handle_unusable_conn` -/
def unusable (c : Nat) : Except TransferFault (Transfers E) :=
  let l := w.conn c
  if l.released then .error .releaseConn
  else .ok (l.active.foldl retry (w.setConn c { l with released := true }))

/-- What a request is told. -/
def notify (req : ReqId) (w : Transfers E) : Notice → Transfers E
  | .rspMeta _ _ => w
  | .rspBodyData data =>
    let q := w.request req
    let q' := { q with bodySize := q.bodySize + data.length }
    { w with
      request := Function.update w.request req q'
      data := Function.update w.data req (w.data req ++ data) }
  | .rspBodyDone => { w with done := w.done ++ [req] }

/-! ## `trigger` -/

/-- The part of `trigger` for an error. -/
def onErr (c : Nat) (reported : Bool) : Except TransferFault (Transfers E) :=
  if reported then
    match w.unusable c with
    | .error f => .error f
    | .ok w => .ok (w.setConn c { w.conn c with state := .error })
  else .ok w

/-- The part of `trigger` for a hangup. The event handler takes it for the event that the socket is
connected; what `on_connect` asserts and sends is left out. -/
def onRdhup (c : Nat) (reported : Bool) : Transfers E :=
  if reported then w.setConn c { w.conn c with state := .closed } else w

/-- The beginning of `http_receive`, for a readable socket. Without an active request it returns the
value that it also returns at the end of the stream. -/
def onRead (c : Nat) (epollin : Bool) : Except TransferFault (Transfers E) :=
  if epollin then
    if (w.conn c).active = [] then w.unusable c
    else .ok { w with label := .readMore c false false }
  else .ok w

/-- `myevent_socket_t::trigger`; what a writable socket sends is left out. -/
def trigger (c : Nat) (epollerr epollrdhup epollin : Bool) : Except TransferFault (Transfers E) :=
  if (w.conn c).state = .connecting ∨ (w.conn c).state = .connected then
    match w.onErr c epollerr with
    | .error f => .error f
    | .ok w => (w.onRdhup c epollrdhup).onRead c epollin
  else .error .triggerState

/-! ## `http_receive` -/

/-- `read_more` -/
def readMore (c : Nat) (found eof : Bool) (results : List NumRead) :
    Except TransferFault (Transfers E) :=
  let l := w.conn c
  let (inbuf, sizes) := E.reserve l.http.inbuf nToAdd
  match HttpConnection.recvLoop sizes results l.toRecv with
  | .error f => .error (.http f)
  | .ok r =>
    let eof := eof || r.reachedEof
    if r.numToCommit = 0 then
      let w := { w with label := .idle }.setConn c
        { l with http := { l.http with inbuf := inbuf }, toRecv := r.rest }
      if eof then w.unusable c else .ok w
    else
      let inbuf := E.commit inbuf (r.vectors.take r.numToCommit)
      .ok ({ w with label := .handleResponse c found eof }.setConn c
        { l with http := { l.http with inbuf := inbuf }, toRecv := r.rest })

/-- The connection behind a round of the parser; the completion of a response takes its request out
of `active_req_queue_`. -/
def handled (c : Nat) (eof : Bool) (h : Handled E) : Transfers E :=
  let l := w.conn c
  let label := if h.readMore then TransferLabel.readMore c h.contentRangeFound eof
    else .handleResponse c h.contentRangeFound eof
  let active := if .rspBodyDone ∈ h.notices then l.active.tail else l.active
  { w with label := label }.setConn c { l with http := h.conn, active := active }

/-- `handle_response` -/
def handleResponse (c : Nat) (found eof : Bool) : Except TransferFault (Transfers E) :=
  let l := w.conn c
  match l.http.handleResponse (!l.active.isEmpty) found with
  | .error f => .error (.http f)
  | .ok h =>
    .ok (match l.active with
      | [] => w.handled c eof h
      | req :: _ => h.notices.foldl (notify req) (w.handled c eof h))

/-! ## Steps -/

/-- One step. A choice that does not fit the place changes nothing. -/
def step (ask : ReqId → Resource) (serve : NetLoc → Bytes → Bytes) (w : Transfers E)
    (choice : TransferChoice) : Except TransferFault (Transfers E) :=
  match choice, w.label with
  | .submit, _ => .ok (w.submit ask)
  | .write req c, _ => .ok (w.writeToOutbuf ask serve req c)
  | .trigger c epollerr epollrdhup epollin, .idle => w.trigger c epollerr epollrdhup epollin
  | .refused c, .idle => w.unusable c
  | .recv results, .readMore c found eof => w.readMore c found eof results
  | .go, .handleResponse c found eof => w.handleResponse c found eof
  | _, _ => .ok w

end Transfers

end ShadowExtras.Web
