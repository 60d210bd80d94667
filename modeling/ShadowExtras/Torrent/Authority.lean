import ShadowExtras.Foundation.Run
import ShadowExtras.Foundation.Stream
import ShadowExtras.Torrent.NodeList

/-!
# The torrent authority

`torrent-authority.c`: a directory of servers. A peer that sends `TA_MSG_REGISTER` is entered into
the list `servers` and announced to everybody in the list `clients`; a peer that sends
`TA_MSG_REQUEST_NODES` is entered into `clients` and is sent all servers.

The two lists hold pointers to connections that the hash table owns. A connection is allocated once
and freed when it leaves the table, so it is named here by the number of its allocation; following a
pointer to a freed connection is a fault, as is writing behind the end of the buffer.
-/

namespace ShadowExtras.Torrent

open Foundation

/-- `enum torrentAuthority_code`, as far as it is returned. -/
inductive AuthorityCode
  | success | closed | errFatal | errWouldblock | errAccept | errRecv | errSend | errNoconn
  deriving DecidableEq, Repr

/-- What ends the run of a program. -/
inductive Fault
  /-- A pointer to a connection that was freed is followed. -/
  | useAfterFree
  /-- An assertion fails. -/
  | assertion
  /-- An access outside of a buffer. -/
  | outOfBounds
  deriving DecidableEq, Repr

/-- `TA_MSG_REGISTER` -/
def msgRegister : Byte := 1

/-- `TA_MSG_REQUEST_NODES` -/
def msgRequestNodes : Byte := 2

/-- The size of the buffer in `torrentAuthority_activate`. -/
def authorityBufSize : ℕ := 4096

/-- `TorrentAuthority_Connection` -/
structure Connection where
  /-- The number of its allocation. -/
  id : ℕ
  sockd : Int
  addr : InAddr
  serverPort : InPort
  deriving DecidableEq, Repr

/-- How the server at the other end is announced. -/
def Connection.node (c : Connection) : Node where
  addr := c.addr
  port := c.serverPort

/-- `TorrentAuthority`, with what was sent. -/
structure TorrentAuthority where
  listenSockd : Int
  servers : List ℕ
  clients : List ℕ
  /-- The hash table, keyed by `sockd`. -/
  connections : List Connection
  /-- History: how many connections were allocated. -/
  allocated : ℕ
  /-- History: what `send` accepted, call by call, with the connection. -/
  sent : List (ℕ × Bytes)
  deriving DecidableEq, Repr

/-- What the environment does in one call of `torrentAuthority_activate`. -/
structure AuthorityInput where
  sockd : Int
  /-- The sockets that the listening socket accepts, with the addresses of the peers. -/
  accepts : List (Int × InAddr)
  /-- What the `accept` after these fails with. -/
  acceptFails : Errno
  received : Except Errno Bytes
  /-- What stands in the buffer behind the bytes received. -/
  stack : Bytes
  /-- The outcomes of `send`, in order; when they run out `send` would block. -/
  sends : List Answer
  deriving DecidableEq, Repr

namespace TorrentAuthority

/-- `torrentAuthority_start`, once the listening socket is set up. -/
def start (listenSockd : Int) : TorrentAuthority where
  listenSockd := listenSockd
  servers := []
  clients := []
  connections := []
  allocated := 0
  sent := []

/-- `g_hash_table_lookup` -/
def lookup (ta : TorrentAuthority) (sockd : Int) : Option Connection :=
  ta.connections.find? fun c => c.sockd = sockd

/-- Follow a pointer to a connection. -/
def deref (ta : TorrentAuthority) (id : ℕ) : Except Fault Connection :=
  match ta.connections.find? fun c => c.id = id with
  | none => .error .useAfterFree
  | some c => .ok c

/-- `torrentAuthority_connectionClose`: the connection leaves the table and is freed. -/
def connectionClose (ta : TorrentAuthority) (c : Connection) : TorrentAuthority :=
  { ta with connections := ta.connections.filter fun c' => c'.sockd ≠ c.sockd }

/-- `torrentAuthority_accept` for a connection with the given socket and address. -/
def accept (ta : TorrentAuthority) (sockd : Int) (addr : InAddr) : TorrentAuthority :=
  let c : Connection := { id := ta.allocated, sockd := sockd, addr := addr, serverPort := .of 0 0 }
  { ta.connectionClose c with
    connections := c :: (ta.connectionClose c).connections
    allocated := ta.allocated + 1 }

/-- `connection->serverPort = port` -/
def setServerPort (ta : TorrentAuthority) (id : ℕ) (port : InPort) : TorrentAuthority :=
  { ta with connections := ta.connections.map fun c =>
      if c.id = id then { c with serverPort := port } else c }

/-- `send` on the socket of a connection. -/
def send (ta : TorrentAuthority) (id : ℕ) (message : Bytes) (answer : Answer) :
    TorrentAuthority × Bool :=
  match answer.send message.length with
  | .error _ => (ta, false)
  | .ok bytes => ({ ta with sent := ta.sent ++ [(id, message.take bytes)] }, true)

/-- The outcome of the next call of `send`. -/
def nextAnswer (sends : List Answer) : Answer := sends.headD (.failed .wouldBlock)

/-- The loop that announces a server to the clients. -/
def announce (ta : TorrentAuthority) (message : Bytes) :
    List ℕ → List Answer → Except Fault (TorrentAuthority × AuthorityCode)
  | [], _ => .ok (ta, .success)
  | id :: ids, sends =>
    match ta.deref id with
    | .error fault => .error fault
    | .ok client =>
      match ta.send client.id message (nextAnswer sends) with
      | (ta, false) => .ok (ta, .errSend)
      | (ta, true) => announce ta message ids sends.tail

/-- `TA_MSG_REGISTER` on a connection. -/
def register (ta : TorrentAuthority) (c : Connection) (port : InPort) (sends : List Answer) :
    Except Fault (TorrentAuthority × AuthorityCode) :=
  let ta := ta.setServerPort c.id port
  let ta := { ta with servers := ta.servers ++ [c.id] }
  ta.announce (nodeMessage [{ addr := c.addr, port := port }]) ta.clients sends

/-- The entries that the loop over `ta->servers` writes. -/
def serverNodes (ta : TorrentAuthority) : List ℕ → Except Fault (List Node)
  | [] => .ok []
  | id :: ids =>
    match ta.deref id with
    | .error fault => .error fault
    | .ok server =>
      match ta.serverNodes ids with
      | .error fault => .error fault
      | .ok nodes => .ok (server.node :: nodes)

/-- `TA_MSG_REQUEST_NODES` on a connection. -/
def requestNodes (ta : TorrentAuthority) (c : Connection) (sends : List Answer) :
    Except Fault (TorrentAuthority × AuthorityCode) :=
  let ta := { ta with clients := ta.clients ++ [c.id] }
  match ta.serverNodes ta.servers with
  | .error fault => .error fault
  | .ok nodes =>
    if (nodeMessage nodes).length > authorityBufSize then .error .outOfBounds
    else
      match ta.send c.id (nodeMessage nodes) (nextAnswer sends) with
      | (ta, false) => .ok (ta, .errSend)
      | (ta, true) => .ok (ta, .success)

/-- The port behind the first byte of the buffer. -/
def portOf (buffer : Bytes) : InPort := ⟨[buffer.getD 1 0, buffer.getD 2 0], rfl⟩

/-- A message on a connection; the buffer holds the bytes received and what stood behind them. -/
def handle (ta : TorrentAuthority) (c : Connection) (i : AuthorityInput) (bytes : Bytes) :
    Except Fault (TorrentAuthority × AuthorityCode) :=
  let kind := bytes.headD 0
  if kind = msgRegister then ta.register c (portOf (bytes ++ i.stack)) i.sends
  else if kind = msgRequestNodes then ta.requestNodes c i.sends
  else .ok (ta, .success)

/-- `torrentAuthority_activate` -/
def activate (ta : TorrentAuthority) (i : AuthorityInput) :
    Except Fault (TorrentAuthority × AuthorityCode) :=
  if i.sockd < 0 then .ok (ta, .errFatal)
  else if i.sockd = ta.listenSockd then
    .ok (i.accepts.foldl (fun ta peer => ta.accept peer.1 peer.2) ta,
      if i.acceptFails = .wouldBlock then .errWouldblock else .errAccept)
  else
    match ta.lookup i.sockd with
    | none => .ok (ta, .errNoconn)
    | some c =>
      match i.received with
      | .error .wouldBlock => .ok (ta, .errWouldblock)
      | .error _ => .ok (ta.connectionClose c, .errRecv)
      | .ok [] => .ok (ta.connectionClose c, .closed)
      | .ok (b :: bs) => ta.handle c i ((b :: bs).take authorityBufSize)

/-- One activation as a step. -/
def step (ta : TorrentAuthority) (i : AuthorityInput) : Except Fault TorrentAuthority :=
  (ta.activate i).map Prod.fst

end TorrentAuthority

end ShadowExtras.Torrent
