import ShadowExtras.Web.EventBase
import ShadowExtras.Web.EventLoop
import ShadowExtras.Web.Handler

/-!
# The socket of a handler

A `Handler` owns a `myevent_socket_t`. The event loop calls `trigger` with the events that epoll
reports for the socket, and `trigger` calls the callbacks one after the other: `mev_eventcb` for an
error and for a hangup of the client, `mev_writecb`, which is `send_to_client`, and `mev_readcb`,
which is `recv_from_client`. The last two may be switched off: `set_readcb` and `set_writecb` change
what is called and what epoll watches for, and the handler keeps a flag for either, so as not to
call them twice.

A handler deletes itself: `deleteLater` asks Shadow to call `delete_handler` when the turn of the
loop is over. Nothing is noted in the handler, and the socket keeps its callbacks until then. The
destructor takes the socket out of the event loop.

A step is one step of the callback that is running, or what `trigger` does between two of its
callbacks; new events, and the call of `delete_handler`, come when no callback is running.
`epoll_ctl` succeeds.
-/

namespace ShadowExtras.Web

open Foundation

/-- The socket of a handler: `true` stands for `mev_readcb` and `mev_writecb`, `false` for
`NULL`. -/
structure ClientSock where
  state : MevState
  readcb : Bool
  writecb : Bool
  /-- What epoll watches for. -/
  what : UInt32
  deriving DecidableEq, Repr

namespace ClientSock

/-- What epoll is told to watch for. -/
def whatOf (readcb writecb : Bool) : UInt32 :=
  (if readcb then EventBase.epollIn else 0) ||| (if writecb then EventBase.epollOut else 0)

/-- The constructor, `set_connected` and `start_monitoring`. -/
def new : ClientSock where
  state := .connected
  readcb := true
  writecb := false
  what := whatOf true false

variable (s : ClientSock)

/-- `myevent_socket_t::setcb` -/
def setcb (readcb writecb : Bool) : ClientSock :=
  { s with readcb := readcb, writecb := writecb, what := whatOf readcb writecb }

/-- `myevent_socket_t::set_readcb` -/
def setReadcb (readcb : Bool) : ClientSock := s.setcb readcb s.writecb

/-- `myevent_socket_t::set_writecb` -/
def setWritecb (writecb : Bool) : ClientSock := s.setcb s.readcb writecb

end ClientSock

/-- The flags of a handler, and its socket. -/
structure Switches where
  writeToClientEnabled : Bool
  readFromClientEnabled : Bool
  sock : ClientSock
  deriving DecidableEq, Repr

namespace Switches

variable (s : Switches)

/-- `Handler::enable_write_to_client_` -/
def enableWriteToClient : Switches :=
  if !s.writeToClientEnabled then
    { s with sock := s.sock.setWritecb true, writeToClientEnabled := true }
  else s

/-- `Handler::disable_write_to_client_` -/
def disableWriteToClient : Switches :=
  if s.writeToClientEnabled then
    { s with sock := s.sock.setWritecb false, writeToClientEnabled := false }
  else s

/-- `Handler::enable_read_from_client_` -/
def enableReadFromClient : Switches :=
  if !s.readFromClientEnabled then
    { s with sock := s.sock.setReadcb true, readFromClientEnabled := true }
  else s

/-- `Handler::disable_read_from_client_` -/
def disableReadFromClient : Switches :=
  if s.readFromClientEnabled then
    { s with sock := s.sock.setReadcb false, readFromClientEnabled := false }
  else s

end Switches

/-- The flags of the handler, and its socket. -/
def Handler.switches (s : Handler) (sock : ClientSock) : Switches :=
  ⟨s.writeToClientEnabled, s.readFromClientEnabled, sock⟩

/-- What a step of a callback switches on and off. -/
def HandlerMachine.switch (m : HandlerMachine) (c : Choice) (s : Switches) : Switches :=
  match m.label, c with
  | .readMore, .go | .readMore, .recv _ =>
    if m.handler.submittedReqQueue.length = maxPipelineReqs then s.disableReadFromClient else s
  | .processInbuf _, .go =>
    match m.handler.extractRequest with
    | .error _ => s
    | .ok (t, wantMoreData) =>
      -- after the last header line
      let s := if wantMoreData then s else s.enableWriteToClient
      let s := if t.submittedReqQueue.isEmpty then s else s.enableWriteToClient
      if wantMoreData then s.enableReadFromClient else s
  | .check _, .go =>
    if m.handler.submittedReqQueue = [] ∧ m.handler.outbuf = [] then s.disableWriteToClient else s
  | _, _ => s

/-- The events that epoll reports. -/
structure EpollEvents where
  epollin : Bool
  epollout : Bool
  epollerr : Bool
  /-- `trigger` does not look at this one. -/
  epollhup : Bool
  epollrdhup : Bool
  deriving DecidableEq, Repr

/-- The parts of `trigger`. -/
inductive TriggerPart
  | error
  | hangup
  | writable
  | readable
  deriving DecidableEq, Repr

/-- The parts of `trigger` that the events lead to, in their order. -/
def EpollEvents.parts (what : EpollEvents) : List TriggerPart :=
  (if what.epollerr then [.error] else []) ++ (if what.epollrdhup then [.hangup] else []) ++
    (if what.epollout then [.writable] else []) ++ if what.epollin then [.readable] else []

/-- The ways a handler in the event loop ends the program. -/
inductive HandlerLoopFault
  /-- In a callback of the handler. -/
  | handler (fault : HandlerFault)
  /-- `state_` in `myevent_socket_t::trigger`. -/
  | triggerState
  /-- `myassert(0)` in `mev_eventcb`. -/
  | connected
  /-- A handler that does not exist any more is deleted. -/
  | deletedTwice
  deriving DecidableEq, Repr

/-- A handler in the event loop. -/
structure HandlerLoop where
  machine : HandlerMachine
  sock : ClientSock
  /-- What the call of `trigger` has still to come to. -/
  parts : List TriggerPart
  /-- How often `delete_handler` was called. -/
  deleted : Nat
  deriving DecidableEq, Repr

/-- What happens next. -/
inductive HandlerEvent
  /-- epoll reports events for the socket. -/
  | trigger (what : EpollEvents)
  /-- `trigger` goes on. -/
  | next
  /-- The callback goes on. -/
  | run (c : Choice)
  /-- Shadow calls `delete_handler`. -/
  | deleteHandler
  deriving DecidableEq, Repr

namespace HandlerLoop

variable (files : Files) (w : HandlerLoop)

/-- `Handler::Handler` -/
def new (docroot : Bytes) : HandlerLoop where
  machine := HandlerMachine.new docroot
  sock := ClientSock.new
  parts := []
  deleted := 0

/-- The handler. -/
abbrev handler : Handler := w.machine.handler

/-- Has `deleteLater` been called? -/
def Doomed : Prop := 0 < w.handler.deletions

instance : Decidable w.Doomed := inferInstanceAs (Decidable (_ < _))

/-- `Handler::deleteLater` -/
def deleteLater : HandlerLoop :=
  { w with machine.handler.deletions := w.handler.deletions + 1 }

/-- `Handler::on_client_sock_eof` -/
def onClientSockEof : HandlerLoop := w.deleteLater

/-- `Handler::on_client_sock_error` -/
def onClientSockError : HandlerLoop := w.deleteLater

/-- `mev_eventcb` -/
def mevEventcb (events : MevEvent) : Except HandlerLoopFault HandlerLoop :=
  if events.has .connected then .error .connected
  else if events.has .eof then .ok w.onClientSockEof
  else if events.has .error then .ok w.onClientSockError
  else .ok w

/-- Set the state of the socket. -/
def setState (state : MevState) : HandlerLoop := { w with sock.state := state }

/-- Call a callback of the handler, which begins at the label. -/
def call (label : Label) : HandlerLoop := { w with machine.label := label }

/-- A part of `trigger`. -/
def part : TriggerPart → Except HandlerLoopFault HandlerLoop
  | .error => (w.mevEventcb .error).map fun w => w.setState .error
  | .hangup => (w.mevEventcb .eof).map fun w => w.setState .closed
  | .writable =>
    if w.sock.state = .connecting then (w.setState .connected).mevEventcb .connected
    else if w.sock.writecb then
      .ok (w.call (.addMore { sendWouldBlock := false, count := 0, runningNumWritten := 0 }))
    else .ok w
  | .readable => .ok (if w.sock.readcb then w.call .readMore else w)

/-- `myevent_socket_t::trigger`, up to its first part. After the destructor the loop does not know
the socket any more. -/
def trigger (what : EpollEvents) : Except HandlerLoopFault HandlerLoop :=
  if w.parts ≠ [] ∨ w.deleted ≠ 0 then .ok w
  else if w.sock.state = .connecting ∨ w.sock.state = .connected then
    .ok { w with parts := what.parts }
  else .error .triggerState

/-- A step of the callback that is running. -/
def run (c : Choice) : Except HandlerLoopFault HandlerLoop :=
  match w.machine.step files c with
  | .error f => .error (.handler f)
  | .ok m => .ok { w with
      machine := m, sock := (w.machine.switch c (w.handler.switches w.sock)).sock }

/-- `delete_handler`, once for each time that it was scheduled. -/
def deleteHandler : Except HandlerLoopFault HandlerLoop :=
  if w.parts ≠ [] ∨ w.handler.deletions ≤ w.deleted then .ok w
  else if w.deleted ≠ 0 then .error .deletedTwice
  else .ok { w with deleted := 1 }

/-- One step. What does not fit changes nothing. -/
def step (w : HandlerLoop) (e : HandlerEvent) : Except HandlerLoopFault HandlerLoop :=
  if w.machine.label ≠ .idle then
    match e with
    | .run c => w.run files c
    | _ => .ok w
  else
    match e with
    | .trigger what => w.trigger what
    | .next =>
      match w.parts with
      | [] => .ok w
      | p :: parts => { w with parts := parts }.part p
    | .run _ => .ok w
    | .deleteHandler => w.deleteHandler

end HandlerLoop

end ShadowExtras.Web
