import ShadowExtras.Foundation.Lines
import ShadowExtras.Foundation.Stream

/-!
# A connection of the Tor control plugin

The part of `torcontrol.c` that moves bytes: `torControl_sendCommand`, and the two halves of
`torControl_activate`, one for `EPOLLOUT` and one for `EPOLLIN`.

Commands are appended to `sendBuf` and every `send` is tried on the whole buffer. Received bytes
are appended to `buf`, cut into lines, and the lines are collected in `reply` until the reply is
complete; a line whose code is followed by `+` opens a data block, and while `readingData` is set
the lines are data of the last reply line. A complete reply is handed to `torControl_processReply`;
here it is part of the result of an activation, and the modules that consume it are modelled
elsewhere.

Accesses outside a buffer are faults. The connection's host name, address, port and mode are left
out, since nothing below reads them.
-/

namespace ShadowExtras.TorControl

open Foundation

/-- The early `return`s of `TORCTL_ASSERTIO`. -/
inductive TorctlReturn
  /-- `return -1`: the call would have blocked, or the socket is not connected yet. -/
  | again
  /-- `return TORCTL_ERR_FATAL`. -/
  | errFatal
  deriving DecidableEq, Repr

/-- `TORCTL_ASSERTIO`: the checks on the result of a `send` or `recv`. -/
def assertIO (result : Except Errno Nat) (allowed : Errno → Bool) : Except TorctlReturn Nat :=
  match result with
  | .error errno => .error (if allowed errno then .again else .errFatal)
  | .ok 0 => .error .errFatal
  | .ok (bytes + 1) => .ok (bytes + 1)

/-- `TorControl_ReplyLine`. -/
structure ReplyLine where
  code : Int
  body : Bytes
  data : List Bytes
  deriving DecidableEq, Repr

/-- The event a socket is watched for. -/
inductive Epoll
  | input
  | output
  deriving DecidableEq, Repr

/-- `TorControl_Connection`. -/
structure Connection where
  /-- The first `bufOffset` bytes of `buf`: an incomplete line kept for the next activation. -/
  buf : Bytes
  sendBuf : Bytes
  reply : List ReplyLine
  readingData : Bool
  epoll : Epoll
  deriving DecidableEq, Repr

/-- The connection that `torControl_createConnection` leaves behind. -/
def Connection.new : Connection where
  buf := []
  sendBuf := []
  reply := []
  readingData := false
  epoll := .output

/-! ## Sending -/

/-- The `errno`s after which a `send` is tried again later. -/
def sendAllowed : Errno → Bool
  | .wouldBlock | .notConn | .already => true
  | .other => false

/-- What a `send` leaves behind. -/
structure Sent where
  conn : Connection
  /-- The bytes that `send` accepted. -/
  accepted : Bytes
  /-- The value of `bytes`, or the early return. -/
  bytes : Except TorctlReturn Nat

/-- The `send` of the send buffer with the check of its result: the buffer is emptied when all of
it was accepted, and otherwise left as it is. -/
def flush (c : Connection) (answer : Answer) : Sent :=
  match assertIO (answer.send c.sendBuf.length) sendAllowed with
  | .error ret => { conn := c, accepted := [], bytes := .error ret }
  | .ok bytes =>
    { conn := if bytes ≥ c.sendBuf.length then { c with epoll := .input, sendBuf := [] } else c
      accepted := c.sendBuf.take bytes
      bytes := .ok bytes }

/-- `torControl_sendCommand`. -/
def sendCommand (c : Connection) (command : Bytes) (answer : Answer) : Sent :=
  flush { c with sendBuf := c.sendBuf ++ (command ++ crlf), epoll := .output } answer

/-- The `EPOLLOUT` part of `torControl_activate`. -/
def activateOutput (c : Connection) (answer : Answer) : Sent :=
  if c.sendBuf.length > 0 then flush c answer
  else { conn := { c with epoll := .input }, accepted := [], bytes := .ok 0 }

/-! ## Receiving -/

/-- Accesses outside a buffer on the receive path. -/
inductive Fault
  /-- `recvpos[bytes] = 0` behind the end of `buf`. -/
  | bufOverrun
  /-- `lines[idx] + 4` behind the terminator of a line shorter than four characters. -/
  | shortLine
  /-- `g_list_last(connection->reply)->data` of an empty list. -/
  | emptyReply
  deriving DecidableEq, Repr

/-- `sizeof(connection->buf)`. -/
def bufSize : Nat := 16384

/-- The lines that `torControl_activate` takes for the end of a data block. -/
def endsData (line : Bytes) : Bool :=
  caselessEq line (ascii ".\r\n") || caselessEq line (ascii "650 OK\r\n") ||
    caselessEq line (ascii ".\n") || caselessEq line (ascii "650 OK\n")

/-- What the line loop works on: the reply under construction, the data-mode flag, and the replies
handed to `torControl_processReply` so far. -/
structure Replies where
  reply : List ReplyLine
  readingData : Bool
  processed : List (List ReplyLine)
  deriving DecidableEq, Repr

/-- One line outside a data block. -/
def replyLine (r : Replies) (line : Bytes) : Except Fault Replies :=
  if line.length < 4 then .error .shortLine
  else
    let replyLine : ReplyLine :=
      { code := toInt32 (strtol line), body := line.drop 4, data := [] }
    let reply := r.reply ++ [replyLine]
    if (line.drop 3).head? = some 43 then  -- '+'
      .ok { r with reply := reply, readingData := true }
    else if (line.drop 3).head? = some 32 then  -- ' '
      .ok { r with reply := [], processed := r.processed ++ [reply] }
    else
      .ok { r with reply := reply }

/-- One line inside a data block. -/
def dataLine (r : Replies) (line : Bytes) : Except Fault Replies :=
  match r.reply.getLast? with
  | none => .error .emptyReply
  | some last =>
    if endsData line then
      -- an event is complete here; other replies still need their final line
      if Int.tdiv last.code 600 ≠ 0 then
        .ok { reply := [], readingData := false, processed := r.processed ++ [r.reply] }
      else
        .ok { r with readingData := false }
    else
      .ok { r with reply := r.reply.dropLast ++ [{ last with data := last.data ++ [line] }] }

/-- One round of the line loop. -/
def processLine (r : Replies) (line : Bytes) : Except Fault Replies :=
  if r.readingData then dataLine r line else replyLine r line

/-- What an activation for `EPOLLIN` leaves behind. -/
structure Received where
  conn : Connection
  /-- The replies handed to `torControl_processReply`, in order. -/
  processed : List (List ReplyLine)
  deriving DecidableEq, Repr

/-- The `EPOLLIN` part of `torControl_activate`, for the bytes that `recv` delivered. A `recv` that
fails or finds the connection closed returns before anything is changed. -/
def activateInput (c : Connection) (received : Bytes) : Except Fault Received :=
  if bufSize ≤ c.buf.length + received.length then .error .bufOverrun
  else
    let split := splitLines (cString (c.buf ++ received))
    match runSteps processLine { reply := c.reply, readingData := c.readingData, processed := [] }
        split.1 with
    | .error fault => .error fault
    | .ok r =>
      .ok { conn := { c with buf := split.2, reply := r.reply, readingData := r.readingData }
            processed := r.processed }

end ShadowExtras.TorControl
