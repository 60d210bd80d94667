import ShadowExtras.Torrent.Client

/-!
# The torrent server

`torrent-server.c`: it registers at the authority, waits on each connection for the request for a
block, passes the payload of the block in both directions and says when the block is complete.

`serve` is the state machine of `torrentServer_activate` for one connection. When the other side
closes, the connection leaves the table and is freed. The time stamps in the payload, which are kept
for a report, are left out.
-/

namespace ShadowExtras.Torrent

open Foundation

/-- `enum torrentServer_code`, as far as it is returned. -/
inductive ServerCode
  | success | closed | errFatal | errWouldblock | errAccept | errRecv | errSend | errNoconn
  deriving DecidableEq, Repr

/-- `enum torrentServer_state` -/
inductive ServerState
  | idle | authRegister | authIdle | request | transfer | finished
  deriving DecidableEq, Repr

/-- `TorrentServer_Connection` -/
structure TorrentServer.Connection where
  sockd : Int
  addr : InAddr
  state : ServerState
  downBytesTransfered : Int
  upBytesTransfered : Int
  cookie : UInt32
  deriving DecidableEq, Repr

/-- `TorrentServer` -/
structure TorrentServer where
  listenSockd : Int
  serverPort : InPort
  /-- The hash table, keyed by `sockd`. -/
  connections : List TorrentServer.Connection
  downBlockSize : Int
  upBlockSize : Int
  errcode : ServerCode
  deriving DecidableEq, Repr

/-- What the environment does in one activation, apart from the socket that it is about. -/
structure ServerInput where
  sockd : Int
  /-- The events that the descriptor is ready for. -/
  pollIn : Bool
  pollOut : Bool
  /-- The sockets that the listening socket accepts, with the addresses of the peers. -/
  accepts : List (Int × InAddr)
  /-- What stands in memory behind the bytes received. -/
  stack : Bytes
  deriving DecidableEq, Repr

/-! ## Texts -/

/-- The value of a hexadecimal digit. -/
def hexValue (b : Byte) : Option ℕ :=
  if isDigit b then some (b.toNat - 48)
  else if 65 ≤ b ∧ b ≤ 70 then some (b.toNat - 55)
  else if 97 ≤ b ∧ b ≤ 102 then some (b.toNat - 87)
  else none

/-- The number written by the leading hexadecimal digits, on top of those already read. -/
def leadingHex (acc : ℕ) : Bytes → ℕ
  | [] => acc
  | b :: bs =>
    match hexValue b with
    | some digit => leadingHex (acc * 16 + digit) bs
    | none => acc

/-- The number behind the sign, which may have a prefix. -/
def unsignedHex : Bytes → ℕ
  | 48 :: x :: ds => if toLower x = 120 then leadingHex 0 ds else leadingHex 0 (48 :: x :: ds)
  | ds => leadingHex 0 ds

/-- `g_ascii_strtoll(s, NULL, 16)` -/
def strtollHex (s : Bytes) : Int :=
  match s.dropWhile isSpace with
  | 45 :: ds => clampInt64 (-(unsignedHex ds : Int))
  | 43 :: ds => clampInt64 (unsignedHex ds)
  | ds => clampInt64 (unsignedHex ds)

/-- Conversion to `guint32`. -/
def toUint32 (n : Int) : UInt32 := (n % 2 ^ 32).toNat.toUInt32

/-- The text by which a request is recognised. -/
def requestText : Bytes := ascii "FILE REQUEST"

/-- What stands in front of a cookie. -/
def cookieText : Bytes := ascii "TOR-COOKIE: "

/-- `torrentServer_populateCookies`: each line overwrites the end of the one before. The NUL behind
the last line, which may fall behind the end, is not part of the buffer's content. -/
def populateCookies (length : ℕ) (cookie : UInt32) : Bytes :=
  let line := cookieLine cookie
  let copies := (length - 1) / 18
  let lines := (List.replicate copies (line.take 18)).flatten ++
    if copies = 0 then [] else line.drop 18
  (lines ++ List.replicate length 0).take length

namespace TorrentServer

/-! ## The states of a connection -/

/-- What an activation leaves of the server, the connection and the socket, and what it returns; a
connection that was closed is gone. -/
structure Outcome where
  ts : TorrentServer
  connection : Option Connection
  socket : Socket
  code : ServerCode
  deriving DecidableEq, Repr

/-- `TS_ASSERTIO` for a call that fails. -/
def failed (ts : TorrentServer) (connection : Connection) (socket : Socket) (excused : Bool)
    (errcode : ServerCode) : Outcome :=
  if excused then ⟨ts, some connection, socket, .errWouldblock⟩
  else ⟨{ ts with errcode := errcode }, some connection, socket, .errFatal⟩

/-- `TS_ASSERTIO` when the other side has closed. -/
def closedByPeer (ts : TorrentServer) (socket : Socket) : Outcome :=
  ⟨{ ts with errcode := .closed }, none, socket, .errFatal⟩

/-- The state `TS_AUTH_REGISTER`. -/
def authRegister (ts : TorrentServer) (connection : Connection) (socket : Socket) : Outcome :=
  match socket.send (msgRegister :: ts.serverPort.1) with
  | (.error errno, socket) =>
    ts.failed connection socket (TorrentClient.sendExcused errno) .errSend
  | (.ok 0, socket) => ts.closedByPeer socket
  | (.ok (_ + 1), socket) => ⟨ts, some { connection with state := .authIdle }, socket, .success⟩

/-- The cookie that is read from a request, if there is one. -/
def cookieOf (connection : Connection) (text : Bytes) : UInt32 :=
  match strcasestr cookieText text with
  | none => connection.cookie
  | some position => toUint32 (strtollHex (text.drop (position + cookieText.length)))

/-- The state `TS_REQUEST`. -/
def receiveRequest (ts : TorrentServer) (connection : Connection) (socket : Socket)
    (stack : Bytes) : Outcome :=
  match socket.recv bufSize with
  | (.error errno, socket) => ts.failed connection socket (errno = .wouldBlock) .errRecv
  | (.ok [], socket) => ts.closedByPeer socket
  | (.ok (b :: bs), socket) =>
    if TorrentClient.standsIn requestText (b :: bs) stack then
      ⟨ts,
        some { connection with
          state := .transfer
          cookie := cookieOf connection (cString ((b :: bs) ++ stack)) },
        socket, .success⟩
    else ⟨ts, some { connection with state := .request }, socket, .success⟩

/-- The state `TS_IDLE`, which goes on to `TS_REQUEST`. -/
def idle (ts : TorrentServer) (connection : Connection) (socket : Socket) (stack : Bytes) :
    Outcome :=
  ts.receiveRequest
    { connection with downBytesTransfered := 0, upBytesTransfered := 0, state := .request } socket
    stack

/-- Receive from a block; the next step goes on with what it leaves, unless the activation
returns. -/
def transferDown (ts : TorrentServer) (connection : Connection) (socket : Socket) (pollIn : Bool) :
    Outcome ⊕ (Connection × Socket) :=
  if pollIn ∧ connection.downBytesTransfered < ts.downBlockSize then
    match socket.recv
      (TorrentClient.chunk ts.downBlockSize connection.downBytesTransfered) with
    | (.error errno, socket) => .inl (ts.failed connection socket (errno = .wouldBlock) .errRecv)
    | (.ok [], socket) => .inl (ts.closedByPeer socket)
    | (.ok (b :: bs), socket) =>
      .inr ({ connection with
        downBytesTransfered := connection.downBytesTransfered + (b :: bs).length }, socket)
  else .inr (connection, socket)

/-- Send from a block. -/
def transferUp (ts : TorrentServer) (connection : Connection) (socket : Socket) (pollOut : Bool) :
    Outcome ⊕ (Connection × Socket) :=
  if pollOut ∧ connection.upBytesTransfered < ts.upBlockSize then
    match socket.send (populateCookies
      (TorrentClient.chunk ts.upBlockSize connection.upBytesTransfered) connection.cookie) with
    | (.error errno, socket) =>
      .inl (ts.failed connection socket (TorrentClient.sendExcused errno) .errSend)
    | (.ok 0, socket) => .inl (ts.closedByPeer socket)
    | (.ok (bytes + 1), socket) =>
      .inr ({ connection with
        upBytesTransfered := connection.upBytesTransfered + (bytes + 1) }, socket)
  else .inr (connection, socket)

/-- The state `TS_TRANSFER`. -/
def transfer (ts : TorrentServer) (connection : Connection) (socket : Socket) (i : ServerInput) :
    Outcome :=
  match ts.transferDown connection socket i.pollIn with
  | .inl outcome => outcome
  | .inr (connection, socket) =>
    match ts.transferUp connection socket i.pollOut with
    | .inl outcome => outcome
    | .inr (connection, socket) =>
      let finished := connection.downBytesTransfered ≥ ts.downBlockSize ∧
        connection.upBytesTransfered ≥ ts.upBlockSize
      ⟨ts, some (if finished then { connection with state := .finished } else connection), socket,
        .success⟩

/-- The state `TS_FINISHED`. -/
def finished (ts : TorrentServer) (connection : Connection) (socket : Socket) : Outcome :=
  match socket.send TorrentClient.finishedText with
  | (.error errno, socket) =>
    ts.failed connection socket (TorrentClient.sendExcused errno) .errSend
  | (.ok 0, socket) => ts.closedByPeer socket
  | (.ok (_ + 1), socket) => ⟨ts, some { connection with state := .idle }, socket, .success⟩

/-- `torrentServer_activate` for the connection of the descriptor. -/
def serve (ts : TorrentServer) (connection : Connection) (socket : Socket) (i : ServerInput) :
    Outcome :=
  match connection.state with
  | .authIdle => ⟨ts, some connection, socket, .success⟩
  | .authRegister => ts.authRegister connection socket
  | .idle => ts.idle connection socket i.stack
  | .request => ts.receiveRequest connection socket i.stack
  | .transfer => ts.transfer connection socket i
  | .finished => ts.finished connection socket

/-! ## The table -/

/-- A connection that was accepted. -/
def Connection.accepted (sockd : Int) (addr : InAddr) : Connection where
  sockd := sockd
  addr := addr
  state := .idle
  downBytesTransfered := 0
  upBytesTransfered := 0
  cookie := 0

/-- `g_hash_table_remove` -/
def remove (ts : TorrentServer) (sockd : Int) : TorrentServer :=
  { ts with connections := ts.connections.filter fun c => c.sockd ≠ sockd }

/-- `g_hash_table_replace`, or writing a record that is in the table. -/
def replace (ts : TorrentServer) (connection : Connection) : TorrentServer :=
  { ts with connections := connection :: (ts.remove connection.sockd).connections }

/-- `torrentServer_activate` -/
def activate (ts : TorrentServer) (i : ServerInput) (socket : Socket) :
    TorrentServer × Socket × ServerCode :=
  if i.sockd < 0 then (ts, socket, .errFatal)
  else if i.sockd = ts.listenSockd then
    (i.accepts.foldl (fun ts peer => ts.replace (Connection.accepted peer.1 peer.2)) ts, socket,
      .errAccept)
  else
    match ts.connections.find? fun c => c.sockd = i.sockd with
    | none => (ts, socket, .errNoconn)
    | some connection =>
      let outcome := ts.serve connection socket i
      match outcome.connection with
      | none => (outcome.ts.remove i.sockd, outcome.socket, outcome.code)
      | some connection => (outcome.ts.replace connection, outcome.socket, outcome.code)

end TorrentServer

end ShadowExtras.Torrent
