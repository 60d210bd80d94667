import Mathlib.Logic.Function.Basic
import ShadowExtras.Foundation.Stream
import ShadowExtras.FileTransfer.Defs

/-!
# The file server

`fileserver.c`: a minimal HTTP server. A connection is a state machine that
`fileserver_activate` runs until a call on the socket would block. A request is collected in
`request.buf` until it holds an empty line; the reply is a 404 line, or a header followed by the
content of the requested file. Header and file go through one buffer `reply.buf`, which is filled
from the file up to its size and drained by `send`; `buf_read_offset` counts what was sent of it and
it is filled again only when it is full no more, that is when it has been drained.

An activation takes what the environment does: the outcome of its `recv`, if it gets that far, and
the outcomes of its `send`s, in order; when these run out `send` would block. The loop over
`goto start` ends at the latest then.
-/

namespace ShadowExtras.FileTransfer

open Foundation

/-- `enum fileserver_code` -/
inductive ServerCode
  | success | closed | errInvalid | errFatal | errBadsd | errWouldblock | errBufspace
  | errSocket | errBind | errListen | errAccept | errRecv | errSend | errClose | errEpoll
  deriving DecidableEq, Repr

/-- `enum fileserver_state` -/
inductive ServerState
  | idle | request | reply404Start | replyFileStart | replyFileContinue | replySend
  deriving DecidableEq, Repr

/-- `fileserver_request_t`; `buf` holds the bytes up to `buf_write_offset`. -/
structure Request where
  filepath : Bytes
  buf : Bytes
  bytesReceived : Nat
  done : Bool
  deriving DecidableEq, Repr

/-- `fileserver_reply_t`; `buf` holds the bytes up to `buf_write_offset`. -/
structure Reply where
  f : Option OpenFile
  fLength : Nat
  fReadOffset : Nat
  buf : Bytes
  bufReadOffset : Nat
  bytesSent : Nat
  done : Bool
  deriving DecidableEq, Repr

/-- `fileserver_connection_t`, with the history of its current reply. -/
structure ServerConnection where
  request : Request
  reply : Reply
  state : ServerState
  epoll : EpollEvent
  /-- History: the content of the file that the current reply serves, none for a 404 reply. -/
  serving : Option Bytes
  /-- History: the bytes of the current reply that `send` accepted. -/
  accepted : Bytes
  deriving DecidableEq, Repr

/-- The zeroed connection of `fileserver_accept_one`. -/
def ServerConnection.new : ServerConnection where
  request := { filepath := [], buf := [], bytesReceived := 0, done := false }
  reply := { f := none, fLength := 0, fReadOffset := 0, buf := [], bufReadOffset := 0,
             bytesSent := 0, done := false }
  state := .idle
  epoll := .input
  serving := none
  accepted := []

/-- `fileserver_progress_t` -/
structure Progress where
  bytesRead : Nat
  bytesWritten : Nat
  replyLength : Nat
  requestDone : Bool
  replyDone : Bool
  changed : Bool
  deriving DecidableEq, Repr

/-- An activation of a connection while it runs: what it has done so far. -/
structure Activation where
  conn : ServerConnection
  progress : Progress
  /-- The bytes received and the bytes accepted by `send` in this activation. -/
  received : Nat
  sent : Bytes
  /-- The replies completed in this activation. -/
  replies : Nat
  deriving DecidableEq, Repr

/-- An activation that has returned. -/
structure Outcome where
  act : Activation
  code : ServerCode
  /-- Was `fileserve_connection_close` called? -/
  closed : Bool
  deriving DecidableEq, Repr

/-- Return with the connection open. -/
def Activation.return (a : Activation) (code : ServerCode) : Outcome :=
  { act := a, code := code, closed := false }

/-- Close the connection and return. -/
def Activation.close (a : Activation) (code : ServerCode) : Outcome :=
  { act := a, code := code, closed := true }

/-! ## Sending a reply -/

/-- The reply buffer after more of the file was read into it, in state `FS_REPLY_FILE_CONTINUE`. -/
def fileContinue (c : ServerConnection) : ServerConnection :=
  match c.reply.f with
  | none => c
  | some f =>
    let space := bufSize - c.reply.buf.length
    if space > 0 ∧ c.reply.fReadOffset ≠ c.reply.fLength then
      let (bytes, f') := f.read space
      let reply := { c.reply with buf := c.reply.buf ++ bytes, fReadOffset := f'.pos }
      if f'.eof then { c with reply := { reply with f := none }, state := .replySend }
      else { c with reply := { reply with f := some f' } }
    else c

/-- The bytes of the reply buffer that are not sent yet. -/
def Reply.unsent (r : Reply) : Bytes := r.buf.drop r.bufReadOffset

/-- The offsets and counters after `send` has accepted `bytes` bytes. -/
def Activation.advance (a : Activation) (bytes : Nat) : Activation :=
  let sent := a.conn.reply.unsent.take bytes
  let reply := { a.conn.reply with
    bufReadOffset := a.conn.reply.bufReadOffset + bytes
    bytesSent := a.conn.reply.bytesSent + bytes }
  { a with
    conn := { a.conn with reply := reply, accepted := a.conn.accepted ++ sent }
    progress := { a.progress with bytesWritten := reply.bytesSent, changed := true }
    sent := a.sent ++ sent }

/-- `reply.buf_read_offset = 0; reply.buf_write_offset = 0` -/
def Activation.resetOffsets (a : Activation) : Activation :=
  { a with conn := { a.conn with reply := { a.conn.reply with buf := [], bufReadOffset := 0 } } }

/-- The reply is complete. -/
def Activation.replyDone (a : Activation) : Activation :=
  { a with
    conn := { a.conn with reply := { a.conn.reply with done := true }, state := .idle }
    progress := { a.progress with replyDone := true, changed := true }
    replies := a.replies + 1 }

/-- Read more of the file when the state asks for it. -/
def Activation.load (a : Activation) : Activation :=
  if a.conn.state = .replyFileContinue then { a with conn := fileContinue a.conn } else a

/-- The states `FS_REPLY_FILE_CONTINUE` and `FS_REPLY_SEND`, round after round, for the given
outcomes of `send`. -/
def replyLoop (a : Activation) : List Answer → Outcome
  | [] => a.load.return .errWouldblock
  | answer :: answers =>
    match answer.send a.load.conn.reply.unsent.length with
    | .error .wouldBlock => a.load.return .errWouldblock
    | .error _ => a.load.close .errSend
    | .ok 0 => a.load.close .closed
    | .ok (bytes + 1) =>
      let a' := a.load.advance (bytes + 1)
      if a'.conn.reply.bufReadOffset = a'.conn.reply.buf.length then
        if a'.resetOffsets.conn.reply.f = none then a'.resetOffsets.replyDone.return .success
        else replyLoop a'.resetOffsets answers
      else replyLoop a' answers

/-! ## Starting a reply -/

/-- The state `FS_REPLY_404_START`. -/
def reply404Start (c : ServerConnection) : ServerConnection :=
  { c with
    reply := { c.reply with buf := http404, f := none }
    state := .replySend
    serving := none
    accepted := [] }

/-- The state `FS_REPLY_FILE_START` for a file with the given content, once the header fits into
the buffer. -/
def replyFileStart (c : ServerConnection) (content : Bytes) : ServerConnection :=
  let reply := { c.reply with
    fLength := content.length
    buf := http200Header content.length
    f := if content.length = 0 then none else some (OpenFile.open content) }
  { c with
    reply := reply
    state := if content.length = 0 then .replySend else .replyFileContinue
    epoll := .output
    serving := some content
    accepted := [] }

/-- The request is complete: reply with the file at `filepath` below the document root, or with a
404 line if it cannot be opened. -/
def startReply (files : Bytes → Option Bytes) (docroot : Bytes) (a : Activation)
    (answers : List Answer) : Outcome :=
  match files (docroot ++ a.conn.request.filepath) with
  | none =>
    replyLoop { a with conn := reply404Start { a.conn with epoll := .output } } answers
  | some content =>
    if (http200Header content.length).length ≥ bufSize then
      { a with conn := { a.conn with epoll := .output } }.close .errBufspace
    else replyLoop { a with conn := replyFileStart a.conn content } answers

/-! ## Requests -/

/-- The path of a complete request, if it is well formed and not too long. -/
def requestPath (buf : Bytes) : Option Bytes :=
  match strcasestr (ascii "GET ") (cString buf) with
  | none => none
  | some start =>
    let relpath := (cString buf).drop (start + 4)
    match strcasestr (ascii " ") relpath with
    | none => none
    | some len => if len = 0 ∨ len > strSize - 1 then none else some (relpath.take len)

/-- The state `FS_IDLE`: get ready for the next request. -/
def resetIdle (c : ServerConnection) : ServerConnection :=
  { c with
    request := { c.request with buf := [] }
    reply := { c.reply with
      f := none, fLength := 0, fReadOffset := 0, buf := [], bufReadOffset := 0 }
    epoll := .input }

/-- `bytes` were received and appended to the request buffer. -/
def Activation.receive (a : Activation) (bytes : Bytes) : Activation :=
  let request := { a.conn.request with
    buf := a.conn.request.buf ++ bytes
    bytesReceived := a.conn.request.bytesReceived + bytes.length }
  { a with
    conn := { a.conn with request := request, state := .request }
    progress := { a.progress with bytesRead := request.bytesReceived, changed := true }
    received := a.received + bytes.length }

/-- The request is complete and asks for `filepath`. -/
def Activation.requestDone (a : Activation) (filepath : Bytes) : Activation :=
  { a with
    conn := { a.conn with request := { a.conn.request with filepath := filepath, done := true } }
    progress := { a.progress with requestDone := true, changed := true } }

/-- The state `FS_REQUEST`: `received` is the outcome of `recv`, which delivers no more than
fits. -/
def requestStep (files : Bytes → Option Bytes) (docroot : Bytes) (a : Activation)
    (received : Except Errno Bytes) (answers : List Answer) : Outcome :=
  let space := strSize - a.conn.request.buf.length - 1
  if space = 0 then replyLoop { a with conn := reply404Start a.conn } answers
  else
    match received with
    | .error .wouldBlock => a.return .errWouldblock
    | .error _ => a.close .errRecv
    | .ok [] => a.close .closed
    | .ok (b :: bs) =>
      let a := a.receive ((b :: bs).take space)
      match strcasestr twoCrlf (cString a.conn.request.buf) with
      | none => a.return .success
      | some _ =>
        match requestPath a.conn.request.buf with
        | none => replyLoop { a with conn := reply404Start a.conn } answers
        | some filepath => startReply files docroot (a.requestDone filepath) answers

/-! ## Activating a connection -/

/-- The progress that is filled in at the start of an activation. -/
def Progress.ofConnection (c : ServerConnection) : Progress where
  bytesRead := c.request.bytesReceived
  bytesWritten := c.reply.bytesSent
  replyLength := c.reply.fLength
  requestDone := c.request.done
  replyDone := c.reply.done
  changed := false

/-- The state machine of `fileserver_activate` for one connection. -/
def activateConnection (files : Bytes → Option Bytes) (docroot : Bytes) (c : ServerConnection)
    (received : Except Errno Bytes) (answers : List Answer) : Outcome :=
  let a : Activation :=
    { conn := c, progress := Progress.ofConnection c, received := 0, sent := [], replies := 0 }
  match c.state with
  | .idle => requestStep files docroot { a with conn := resetIdle c } received answers
  | .request => requestStep files docroot a received answers
  | .reply404Start => replyLoop { a with conn := reply404Start c } answers
  | .replyFileStart => startReply files docroot a answers
  | .replyFileContinue | .replySend => replyLoop a answers

/-- `fileserver_t`; the hash table of connections is keyed by socket. -/
structure FileServer where
  listenSockd : Int
  docroot : Bytes
  connections : Int → Option ServerConnection
  bytesReceived : Nat
  bytesSent : Nat
  repliesSent : Nat

namespace FileServer

/-- `fileserver_start` -/
def start (listenSockd : Int) (docroot : Bytes) : FileServer where
  listenSockd := listenSockd
  docroot := docroot
  connections _ := none
  bytesReceived := 0
  bytesSent := 0
  repliesSent := 0

/-- `fileserver_accept_one` for a connection with the given socket. -/
def acceptOne (fs : FileServer) (sockd : Int) : FileServer :=
  { fs with connections := Function.update fs.connections sockd (some ServerConnection.new) }

/-- The server after an activation of the connection `sockd`. -/
def finish (fs : FileServer) (sockd : Int) (o : Outcome) : FileServer :=
  { fs with
    connections := Function.update fs.connections sockd
      (if o.closed then none else some o.act.conn)
    bytesReceived := fs.bytesReceived + o.act.received
    bytesSent := fs.bytesSent + o.act.sent.length
    repliesSent := fs.repliesSent + o.act.replies }

/-- What the environment does in one call of `fileserver_activate`. -/
structure Input where
  sockd : Int
  /-- The sockets that the listening socket accepts. -/
  accepts : List Int
  /-- The files that can be opened. -/
  files : Bytes → Option Bytes
  received : Except Errno Bytes
  answers : List Answer

/-- `fileserver_activate` -/
def activate (fs : FileServer) (i : Input) : FileServer × ServerCode :=
  if i.sockd < 0 then (fs, .errInvalid)
  else if i.sockd = fs.listenSockd then (i.accepts.foldl acceptOne fs, .errWouldblock)
  else
    match fs.connections i.sockd with
    | none => (fs, .errBadsd)
    | some c =>
      let o := activateConnection i.files fs.docroot c i.received i.answers
      (fs.finish i.sockd o, o.code)

end FileServer

end ShadowExtras.FileTransfer
