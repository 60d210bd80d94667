import ShadowExtras.Foundation.Socket
import ShadowExtras.Torrent.Authority

/-!
# The torrent client

`torrent-client.c`: a client that learns from the authority where the servers are, connects to each
of them, directly or through a SOCKS proxy, and downloads block after block from all of them.

There is one record for each connection, the one to the authority included. Records are named here
by the number of their allocation: the list `servers` and the hash table point to them, and none is
freed before the client is. `torrentClient_activate` looks up the record of a descriptor and goes on
in the state of that record; `serve` is this state machine for one record.
-/

namespace ShadowExtras.Torrent

open Foundation

/-- `enum torrentClient_code`, as far as it is returned. -/
inductive ClientCode
  | success | blockDownloaded | closed | errFatal | errWouldblock | errRecv | errSend | errConnect
  | errSocksinit | errSocksconn | errNoserver
  deriving DecidableEq, Repr

/-- `enum TorrentClient_State` -/
inductive ClientState
  | socksRequestInit | socksToreplyInit | socksReplyInit | socksRequestConn | socksToreplyConn
  | socksReplyConn | send | receive | authRequestNodes | authReceiveNodes | serverRequest
  | serverTransfer | serverFinished | serverIdle
  deriving DecidableEq, Repr

/-- `TC_BUF_SIZE` and `TS_BUF_SIZE` -/
def bufSize : ℕ := 16384

/-- The number of bytes that the client asks for when it receives node lists. -/
def nodeListSize : ℕ := 1024

/-- `TorrentClient_Server` -/
structure TorrentClient.Server where
  addr : InAddr
  port : InPort
  sockd : Int
  state : ClientState
  nextstate : ClientState
  /-- The bytes of the buffer up to `buf_write_offset`. -/
  buf : Bytes
  bufReadOffset : ℕ
  cookie : UInt32
  downBytesTransfered : Int
  upBytesTransfered : Int
  deriving DecidableEq, Repr

/-- `TorrentClient` -/
structure TorrentClient where
  socksAddr : InAddr
  /-- The records that were allocated. -/
  records : List TorrentClient.Server
  servers : List ℕ
  /-- The hash table. -/
  connections : List (Int × ℕ)
  errcode : ClientCode
  totalBytesDown : Int
  totalBytesUp : Int
  bytesInProgress : Int
  downBlockSize : Int
  upBlockSize : Int
  numBlocks : Int
  blocksRemaining : Int
  blocksDownloaded : Int
  currentBlockTransfer : Option ℕ
  deriving DecidableEq, Repr

/-- The outcome of `torrentClient_connect`. -/
inductive Connect
  | errSocket | errConnect | errEpoll
  | connected (sockd : ℕ)
  deriving DecidableEq, Repr

/-- What `torrentClient_connect` returns: a descriptor, or an error code, which is positive. -/
def Connect.result : Connect → Int
  | .errSocket => 8
  | .errEpoll => 15
  | .errConnect => 16
  | .connected sockd => sockd

/-- What the environment does in one activation, apart from the socket that it is about. -/
structure ClientInput where
  sockd : Int
  /-- The events that the descriptor is ready for. -/
  pollIn : Bool
  pollOut : Bool
  /-- The outcomes of `torrentClient_connect`, in order; when they run out there is no socket. -/
  connects : List Connect
  /-- The values of `rand() % G_MAXUINT`. -/
  cookies : List UInt32
  /-- What stands in memory behind the bytes received. -/
  stack : Bytes
  /-- The time in nanoseconds. -/
  now : ℕ
  deriving DecidableEq, Repr

/-! ## Texts -/

/-- A hexadecimal digit, as `%X` writes it. -/
def hexDigit (n : ℕ) : Byte := if n < 10 then (48 + n).toUInt8 else (55 + n).toUInt8

/-- `%8.8X` -/
def hex8 (n : UInt32) : Bytes :=
  [7, 6, 5, 4, 3, 2, 1, 0].map fun i => hexDigit (n.toNat / 16 ^ i % 16)

/-- The line with the cookie. -/
def cookieLine (cookie : UInt32) : Bytes := ascii "TOR-COOKIE: " ++ hex8 cookie ++ crlf

/-- The request for a block. -/
def fileRequest (cookie : UInt32) : Bytes := ascii "FILE REQUEST\r\n" ++ cookieLine cookie

/-- `TC_BUF_FILLER` -/
def bufFiller (cookie : UInt32) (time : ℕ) : Bytes :=
  cookieLine cookie ++ ascii "TIME: " ++ decimal time ++ crlf

/-- `torrentClient_fillBuffer`. The length is compared as an unsigned number, so a buffer that is
shorter than the filler is left. -/
def fillBuffer (length : ℕ) (filler : Bytes) : Except Fault Bytes :=
  if length < filler.length then .error .outOfBounds
  else
    let copies := (List.replicate ((length - 1) / filler.length) filler).flatten
    .ok (copies ++ List.replicate (length - copies.length) 0)

namespace TorrentClient

/-- How the server at the other end is announced. -/
def Server.node (server : Server) : Node where
  addr := server.addr
  port := server.port

/-- A zeroed record. -/
def Server.zero (node : Node) (sockd : Int) (state : ClientState) : Server where
  addr := node.addr
  port := node.port
  sockd := sockd
  state := state
  nextstate := .socksRequestInit
  buf := []
  bufReadOffset := 0
  cookie := 0
  downBytesTransfered := 0
  upBytesTransfered := 0

/-! ## The tables -/

/-- `g_hash_table_insert`: an entry for the key keeps its key and gets the new value. -/
def insertConnection (tc : TorrentClient) (sockd : Int) (id : ℕ) : TorrentClient :=
  { tc with connections := (sockd, id) :: tc.connections.filter fun entry => entry.1 ≠ sockd }

/-- `g_hash_table_lookup` -/
def lookup (tc : TorrentClient) (sockd : Int) : Option ℕ :=
  (tc.connections.find? fun entry => entry.1 = sockd).map Prod.snd

/-- `torrentClient_start` with the outcome of connecting to the authority. -/
def start (socksAddr : InAddr) (authority : Node) (connect : Connect)
    (fileSize downBlockSize upBlockSize : Int) : TorrentClient :=
  let numBlocks := (fileSize + downBlockSize - 1).tdiv downBlockSize
  { socksAddr := socksAddr
    records := [Server.zero authority connect.result .authRequestNodes]
    servers := []
    connections := [(connect.result, 0)]
    errcode := .success
    totalBytesDown := 0
    totalBytesUp := 0
    bytesInProgress := 0
    downBlockSize := downBlockSize
    upBlockSize := upBlockSize
    numBlocks := numBlocks
    blocksRemaining := numBlocks
    blocksDownloaded := 0
    currentBlockTransfer := none }

/-! ## The SOCKS handshake -/

/-- Where a state of the handshake leads: on to a call of `send` or `recv`, on to the request for a
block, or out of the activation. -/
inductive Next
  | call (server : Server)
  | request (server : Server)
  | return (server : Server) (code : ClientCode)
  /-- Out of the activation with `TC_ERR_FATAL`. -/
  | fatal (server : Server) (errcode : ClientCode)
  deriving DecidableEq, Repr

namespace Server

/-- Send what is in the buffer, and then go to `nextstate`. -/
def sendThen (server : Server) (nextstate : ClientState) : Server :=
  { server with state := .send, nextstate := nextstate }

/-- The states `TC_SOCKS_TOREPLY_*`. -/
def toReply (server : Server) (nextstate : ClientState) : Server :=
  { server with state := .receive, nextstate := nextstate }

/-- The state `TC_SOCKS_REQUEST_INIT`. -/
def requestInit (server : Server) : Except Fault Next :=
  if bufSize - server.buf.length < 3 then .error .assertion
  else .ok (.call ({ server with buf := server.buf ++ [5, 1, 0] }.sendThen .socksToreplyInit))

/-- The state `TC_SOCKS_REQUEST_CONN`; `htons` swaps the bytes of the port. -/
def requestConn (server : Server) : Except Fault Next :=
  if bufSize - server.buf.length < 4 + 6 then .error .assertion
  else
    let request := [5, 1, 0, 1] ++ server.addr.1 ++ server.port.1.reverse
    .ok (.call ({ server with buf := server.buf ++ request }.sendThen .socksToreplyConn))

/-- The state `TC_SOCKS_REPLY_INIT`. -/
def replyInit (server : Server) : Except Fault Next :=
  match server.buf.drop server.bufReadOffset with
  | version :: method :: _ =>
    if version ≠ 5 ∨ method ≠ 0 then .ok (.return server .errSocksinit)
    else
      { server with
        bufReadOffset := server.bufReadOffset + 2
        state := .socksRequestConn }.requestConn
  | _ => .ok (.call (server.toReply .socksReplyInit))

/-- The state `TC_SOCKS_REPLY_CONN`. A connection to another address is refused: what
`torrentClient_connect` returns for it is compared with `TC_SUCCESS`. -/
def replyConn (server : Server) (reconnect : Connect) : Next :=
  match server.buf.drop server.bufReadOffset with
  | version :: reply :: _ :: addressType :: a :: b :: c :: d :: p :: q :: _ =>
    if version ≠ 5 ∨ reply ≠ 0 ∨ addressType ≠ 1 then .return server .errSocksconn
    else
      let server := { server with bufReadOffset := server.bufReadOffset + 10 }
      if [a, b, c, d] ≠ [0, 0, 0, 0] ∧ [p, q] ≠ [0, 0] ∧ reconnect.result ≠ 0 then
        .return server .errSocksconn
      else .request { server with state := .serverRequest, nextstate := .serverRequest }
  | _ => .call (server.toReply .socksReplyConn)

/-- The states of the handshake, up to the next call of `send` or `recv`. -/
def proceed (server : Server) (reconnect : Connect) : Except Fault Next :=
  match server.state with
  | .socksRequestInit => server.requestInit
  | .socksToreplyInit => .ok (.call (server.toReply .socksReplyInit))
  | .socksReplyInit => server.replyInit
  | .socksRequestConn => server.requestConn
  | .socksToreplyConn => .ok (.call (server.toReply .socksReplyConn))
  | .socksReplyConn => .ok (server.replyConn reconnect)
  | .send | .receive => .ok (.call server)
  | _ => .ok (.request server)

end Server

/-- Is the `errno` of `send` excused by `TC_ASSERTIO`? -/
def sendExcused : Errno → Bool
  | .wouldBlock | .notConn | .already => true
  | .other => false

namespace Server

/-- `TC_ASSERTIO` in the handshake, for a call that fails. -/
def failed (server : Server) (excused : Bool) (errcode : ClientCode) : Next :=
  if excused then .return server .errWouldblock else .fatal server errcode

/-- The state `TC_SEND`. -/
def send (server : Server) (socket : Socket) (reconnect : Connect) : Except Fault (Next × Socket) :=
  if server.buf.length < server.bufReadOffset then .error .assertion
  else
    match socket.send (server.buf.drop server.bufReadOffset) with
    | (.error errno, socket) => .ok (server.failed (sendExcused errno) .errSend, socket)
    | (.ok 0, socket) => .ok (.fatal server .closed, socket)
    | (.ok (bytes + 1), socket) =>
      let readOffset := server.bufReadOffset + (bytes + 1)
      if readOffset = server.buf.length then
        match { server with
          buf := []
          bufReadOffset := 0
          state := server.nextstate }.proceed reconnect with
        | .error fault => .error fault
        | .ok next => .ok (next, socket)
      else .ok (.call { server with bufReadOffset := readOffset }, socket)

/-- The state `TC_RECEIVE`. -/
def receive (server : Server) (socket : Socket) (reconnect : Connect) :
    Except Fault (Next × Socket) :=
  match socket.recv (bufSize - server.buf.length) with
  | (.error errno, socket) => .ok (server.failed (errno = .wouldBlock) .errRecv, socket)
  | (.ok [], socket) => .ok (.fatal server .closed, socket)
  | (.ok (b :: bs), socket) =>
    match { server with
      buf := server.buf ++ b :: bs
      state := server.nextstate }.proceed reconnect with
    | .error fault => .error fault
    | .ok next => .ok (next, socket)

/-- The calls of `send` and `recv` of the handshake, at most as many as there are outcomes; then the
next call would block. -/
def callLoop (reconnect : Connect) : ℕ → Next → Socket → Except Fault (Next × Socket)
  | calls + 1, .call server, socket =>
    match if server.state = .send then server.send socket reconnect
      else server.receive socket reconnect with
    | .error fault => .error fault
    | .ok (next, socket) => callLoop reconnect calls next socket
  | 0, .call server, socket => .ok (.return server .errWouldblock, socket)
  | _, next, socket => .ok (next, socket)

/-- The handshake in one activation. -/
def handshake (server : Server) (socket : Socket) (reconnect : Connect) :
    Except Fault (Next × Socket) :=
  match server.proceed reconnect with
  | .error fault => .error fault
  | .ok next => callLoop reconnect socket.answers.length next socket

end Server

/-! ## The states of a connection -/

/-- What an activation leaves of the client, the record and the socket, and what it returns. -/
structure Outcome where
  tc : TorrentClient
  server : Server
  socket : Socket
  code : ClientCode
  deriving DecidableEq, Repr

/-- `TC_ASSERTIO` for a call that fails. -/
def failed (tc : TorrentClient) (server : Server) (socket : Socket) (excused : Bool)
    (errcode : ClientCode) : Outcome :=
  if excused then ⟨tc, server, socket, .errWouldblock⟩
  else ⟨{ tc with errcode := errcode }, server, socket, .errFatal⟩

/-- `TC_ASSERTIO` when the other side has closed. -/
def closedByPeer (tc : TorrentClient) (server : Server) (socket : Socket) : Outcome :=
  ⟨{ tc with errcode := .closed }, server, socket, .errFatal⟩

/-- The state `TC_AUTH_REQUEST_NODES`. -/
def authRequestNodes (tc : TorrentClient) (server : Server) (socket : Socket) : Outcome :=
  match socket.send [msgRequestNodes] with
  | (.error errno, socket) => tc.failed server socket (sendExcused errno) .errSend
  | (.ok 0, socket) => tc.closedByPeer server socket
  | (.ok (_ + 1), socket) => ⟨tc, { server with state := .authReceiveNodes }, socket, .success⟩

/-- The servers that the client knows. -/
def known (tc : TorrentClient) : List Node :=
  tc.servers.filterMap fun id => tc.records[id]?.map Server.node

/-- A server that was not known, with the return value of connecting to it or to the proxy. -/
def addNode (tc : TorrentClient) (node : Node) (sockd : Int) (cookie : UInt32) : TorrentClient :=
  let state : ClientState :=
    if tc.socksAddr.1 = [255, 255, 255, 255] then .serverRequest else .socksRequestInit
  let id := tc.records.length
  { tc with
    records := tc.records ++ [{ Server.zero node sockd state with cookie := cookie }]
    servers := tc.servers ++ [id] }.insertConnection sockd id

/-- The loop over the entries of a node list. -/
def receiveNodes (tc : TorrentClient) :
    List Node → List Connect → List UInt32 → TorrentClient × ClientCode
  | [], _, _ => (tc, .success)
  | node :: nodes, connects, cookies =>
    if node ∈ tc.known then tc.receiveNodes nodes connects cookies
    else
      let sockd := (connects.headD .errSocket).result
      if sockd < 0 then (tc, .errConnect)
      else (tc.addNode node sockd (cookies.headD 0)).receiveNodes nodes connects.tail cookies.tail

/-- The count of a node list: a `char`, which has a sign. -/
def nodeCount (count : Byte) : ℕ := if count < 128 then count.toNat else 0

/-- The entries that are read from the buffer, whatever stands behind the bytes received. -/
def nodesInBuffer (count : Byte) (entries : Bytes) : List Node :=
  let length := entryLength * nodeCount count
  takeNodes (nodeCount count) (entries ++ List.replicate (length - entries.length) 0)

/-- The state `TC_AUTH_RECEIVE_NODES`. -/
def authReceiveNodes (tc : TorrentClient) (server : Server) (socket : Socket) (i : ClientInput) :
    Outcome :=
  match socket.recv nodeListSize with
  | (.error errno, socket) => tc.failed server socket (errno = .wouldBlock) .errRecv
  | (.ok [], socket) => tc.closedByPeer server socket
  | (.ok (count :: entries), socket) =>
    let (tc, code) :=
      tc.receiveNodes (nodesInBuffer count (entries ++ i.stack)) i.connects i.cookies
    ⟨tc, server, socket, code⟩

/-- The state `TC_SERVER_REQUEST`. -/
def serverRequest (tc : TorrentClient) (server : Server) (socket : Socket) : Outcome :=
  if tc.blocksRemaining ≤ 0 then ⟨tc, { server with state := .serverIdle }, socket, .success⟩
  else
    match socket.send (fileRequest server.cookie) with
    | (.error errno, socket) => tc.failed server socket (sendExcused errno) .errSend
    | (.ok 0, socket) => tc.closedByPeer server socket
    | (.ok (_ + 1), socket) =>
      ⟨{ tc with blocksRemaining := tc.blocksRemaining - 1 },
        { server with
          downBytesTransfered := 0
          upBytesTransfered := 0
          buf := []
          bufReadOffset := 0
          state := .serverTransfer },
        socket, .success⟩

/-- How many bytes of a block are passed in one call, when so many are left. -/
def chunk (blockSize transfered : Int) : ℕ := min (blockSize - transfered).toNat bufSize

/-- Receive from a block; the next step goes on with what it leaves, unless the activation
returns. -/
def transferDown (tc : TorrentClient) (server : Server) (socket : Socket) (pollIn : Bool) :
    Outcome ⊕ (TorrentClient × Server × Socket) :=
  if pollIn ∧ server.downBytesTransfered < tc.downBlockSize then
    match socket.recv (chunk tc.downBlockSize server.downBytesTransfered) with
    | (.error errno, socket) => .inl (tc.failed server socket (errno = .wouldBlock) .errRecv)
    | (.ok [], socket) => .inl (tc.closedByPeer server socket)
    | (.ok (b :: bs), socket) =>
      let bytes : Int := (b :: bs).length
      .inr ({ tc with
          totalBytesDown := tc.totalBytesDown + bytes
          bytesInProgress := tc.bytesInProgress - bytes },
        { server with downBytesTransfered := server.downBytesTransfered + bytes }, socket)
  else .inr (tc, server, socket)

/-- Send from a block. -/
def transferUp (tc : TorrentClient) (server : Server) (socket : Socket) (pollOut : Bool) (now : ℕ) :
    Except Fault (Outcome ⊕ (TorrentClient × Server × Socket)) :=
  if pollOut ∧ server.upBytesTransfered < tc.upBlockSize then
    match fillBuffer (chunk tc.upBlockSize server.upBytesTransfered)
        (bufFiller server.cookie now) with
    | .error fault => .error fault
    | .ok buf =>
      match socket.send buf with
      | (.error errno, socket) =>
        .ok (.inl (tc.failed server socket (sendExcused errno) .errSend))
      | (.ok 0, socket) => .ok (.inl (tc.closedByPeer server socket))
      | (.ok (bytes + 1), socket) =>
        .ok (.inr ({ tc with totalBytesUp := tc.totalBytesUp + (bytes + 1) },
          { server with upBytesTransfered := server.upBytesTransfered + (bytes + 1) }, socket))
  else .ok (.inr (tc, server, socket))

/-- The state `TC_SERVER_TRANSFER`. -/
def serverTransfer (tc : TorrentClient) (id : ℕ) (server : Server) (socket : Socket)
    (i : ClientInput) : Except Fault Outcome :=
  match tc.transferDown server socket i.pollIn with
  | .inl outcome => .ok outcome
  | .inr (tc, server, socket) =>
    match tc.transferUp server socket i.pollOut i.now with
    | .error fault => .error fault
    | .ok (.inl outcome) => .ok outcome
    | .ok (.inr (tc, server, socket)) =>
      let finished := server.downBytesTransfered ≥ tc.downBlockSize ∧
        server.upBytesTransfered ≥ tc.upBlockSize
      .ok ⟨{ tc with currentBlockTransfer := some id },
        if finished then { server with state := .serverFinished } else server, socket, .success⟩

/-- The message that a block is complete. -/
def finishedText : Bytes := ascii "FINISHED"

/-- Does a text stand in the buffer, which holds the bytes received and what stood behind them? -/
def standsIn (text received stack : Bytes) : Bool :=
  (strcasestr text (cString (received ++ stack))).isSome

/-- The state `TC_SERVER_FINISHED`. -/
def serverFinished (tc : TorrentClient) (id : ℕ) (server : Server) (socket : Socket)
    (stack : Bytes) : Outcome :=
  match socket.recv bufSize with
  | (.error errno, socket) => tc.failed server socket (errno = .wouldBlock) .errRecv
  | (.ok [], socket) => tc.closedByPeer server socket
  | (.ok (b :: bs), socket) =>
    if standsIn finishedText (b :: bs) stack then
      ⟨{ tc with
          currentBlockTransfer := some id
          blocksDownloaded := tc.blocksDownloaded + 1 },
        { server with state := .serverRequest }, socket, .blockDownloaded⟩
    else ⟨tc, server, socket, .success⟩

/-- `torrentClient_activate` for the record of the descriptor. -/
def serve (tc : TorrentClient) (id : ℕ) (server : Server) (socket : Socket) (i : ClientInput) :
    Except Fault Outcome :=
  match server.state with
  | .authRequestNodes => .ok (tc.authRequestNodes server socket)
  | .authReceiveNodes => .ok (tc.authReceiveNodes server socket i)
  | .serverRequest => .ok (tc.serverRequest server socket)
  | .serverTransfer => tc.serverTransfer id server socket i
  | .serverFinished => .ok (tc.serverFinished id server socket i.stack)
  | .serverIdle => .ok ⟨tc, server, socket, .success⟩
  | _ =>
    match server.handshake socket (i.connects.headD .errSocket) with
    | .error fault => .error fault
    | .ok (.call server, socket) => .ok ⟨tc, server, socket, .errWouldblock⟩
    | .ok (.request server, socket) => .ok (tc.serverRequest server socket)
    | .ok (.return server code, socket) => .ok ⟨tc, server, socket, code⟩
    | .ok (.fatal server errcode, socket) =>
      .ok ⟨{ tc with errcode := errcode }, server, socket, .errFatal⟩

/-- `torrentClient_activate` -/
def activate (tc : TorrentClient) (i : ClientInput) (socket : Socket) :
    Except Fault (TorrentClient × Socket × ClientCode) :=
  match tc.lookup i.sockd with
  | none => .ok (tc, socket, .errNoserver)
  | some id =>
    match tc.records[id]? with
    | none => .error .useAfterFree
    | some server =>
      match tc.serve id server socket i with
      | .error fault => .error fault
      | .ok outcome =>
        .ok ({ outcome.tc with records := outcome.tc.records.set id outcome.server },
          outcome.socket, outcome.code)

end TorrentClient

end ShadowExtras.Torrent
