import ShadowExtras.Foundation.Run
import ShadowExtras.Torrent.Server

/-!
# Blocks between a torrent client and a torrent server

One connection, seen from both ends. The client sends a request; the server recognises it and both
sides pass the payload of the block, each in its direction; when the server has both, it says so,
and the client goes on to the next request. Requests, payload and the final message share the two
streams without any framing.

An `Exchange` is the two ends and the bytes on the way, each with a tag that says what it was sent
as. The histories tell of every request and every final message how much of it was sent, how much
was received and how often it was recognised, and of every counter what it has counted.
-/

namespace ShadowExtras.Torrent

open Foundation

/-- What a byte was sent as. -/
inductive Tag
  /-- Part of the control message with this number. -/
  | control (number : ℕ)
  /-- Payload of this block. -/
  | payload (block : ℕ)
  deriving DecidableEq, Repr

/-- History of a control message. -/
structure Message where
  number : ℕ
  length : ℕ
  /-- How many bytes of it `send` accepted; the others are lost. -/
  accepted : ℕ
  received : ℕ
  /-- How often the receiver recognised it. -/
  recognised : ℕ
  deriving DecidableEq, Repr

namespace Message

/-- All of it was sent. -/
def Complete (m : Message) : Prop := m.accepted = m.length

/-- All of it was received. -/
def Delivered (m : Message) : Prop := m.Complete ∧ m.received = m.length

instance (m : Message) : Decidable m.Complete := inferInstanceAs (Decidable (_ = _))

instance (m : Message) : Decidable m.Delivered := inferInstanceAs (Decidable (_ ∧ _))

/-- Some bytes of the stream were received. -/
def receive (m : Message) (tags : List Tag) : Message :=
  { m with received := m.received + tags.count (.control m.number) }

/-- The last message, which is the first of the list, was recognised. -/
def recogniseLast : List Message → List Message
  | [] => []
  | m :: ms => { m with recognised := m.recognised + 1 } :: ms

/-- The last message was sent as a whole. -/
def LastComplete : List Message → Prop
  | [] => False
  | m :: _ => m.Complete

instance : ∀ ms, Decidable (LastComplete ms)
  | [] => isFalse id
  | m :: _ => inferInstanceAs (Decidable m.Complete)

end Message

/-- Bytes on the way. -/
abbrev Tagged := List (Byte × Tag)

/-- Bytes that are sent with one tag. -/
def tagAll (bytes : Bytes) (tag : Tag) : Tagged := bytes.map fun b => (b, tag)

/-- How many bytes of control messages there are. -/
def controlBytes (stream : Tagged) : ℕ :=
  stream.countP fun b => match b.2 with
    | .control _ => true
    | .payload _ => false

/-- A client and a server at the two ends of a connection. -/
structure Exchange where
  tc : TorrentClient
  /-- The number of the client's record. -/
  id : ℕ
  server : TorrentClient.Server
  ts : TorrentServer
  connection : TorrentServer.Connection
  /-- The server has closed and freed the connection. -/
  closed : Bool
  toServer : Tagged
  toClient : Tagged
  /-- History: the requests, the last one first. -/
  requests : List Message
  /-- History: the messages `FINISHED`, the last one first. -/
  finisheds : List Message
  /-- History: the number of requests that the server recognised. -/
  block : ℕ
  /-- History: what the counters have counted since they were reset. -/
  clientDown : List Tag
  clientUp : List Tag
  serverDown : List Tag
  serverUp : List Tag
  deriving DecidableEq, Repr

/-- What happens. -/
inductive ExchangeEvent
  /-- The client is activated for the connection. -/
  | client (i : ClientInput) (answers : List Answer)
  /-- The server is activated for the connection. -/
  | server (i : ServerInput) (answers : List Answer)
  /-- Activations for other connections leave these two, up to the sizes of the blocks. -/
  | elsewhere (tc : TorrentClient) (ts : TorrentServer)
  deriving DecidableEq, Repr

namespace Exchange

/-- A connection that was just made, with a server for blocks of the same size. -/
def start (tc : TorrentClient) (id : ℕ) (node : Node) (sockd : Int) (cookie : UInt32)
    (ts : TorrentServer) (connection : TorrentServer.Connection) : Exchange where
  tc := tc
  id := id
  server := { TorrentClient.Server.zero node sockd .serverRequest with cookie := cookie }
  ts := { ts with downBlockSize := tc.upBlockSize, upBlockSize := tc.downBlockSize }
  connection := { connection with
    state := .idle
    downBytesTransfered := 0
    upBytesTransfered := 0 }
  closed := false
  toServer := []
  toClient := []
  requests := []
  finisheds := []
  block := 0
  clientDown := []
  clientUp := []
  serverDown := []
  serverUp := []

/-- The socket of the client, with the outcomes of the calls. -/
def clientSocket (s : Exchange) (answers : List Answer) : Socket where
  incoming := s.toClient.map Prod.fst
  sent := []
  answers := answers

/-- The socket of the server. -/
def serverSocket (s : Exchange) (answers : List Answer) : Socket where
  incoming := s.toServer.map Prod.fst
  sent := []
  answers := answers

/-- How many bytes of a stream an activation has received. -/
def taken (stream : Tagged) (socket : Socket) : ℕ := stream.length - socket.incoming.length

/-- A request of which some bytes were sent. -/
def requested (s : Exchange) (sent : Bytes) : Exchange :=
  if sent = [] then s
  else
    let number := s.requests.length + 1
    { s with
      toServer := s.toServer ++ tagAll sent (.control number)
      requests :=
        { number := number
          length := (fileRequest s.server.cookie).length
          accepted := sent.length
          received := 0
          recognised := 0 } :: s.requests
      clientDown := []
      clientUp := [] }

/-- Payload that the client has received and sent. -/
def clientTransfered (s : Exchange) (received : List Tag) (sent : Bytes) : Exchange :=
  { s with
    toServer := s.toServer ++ tagAll sent (.payload s.requests.length)
    clientDown := s.clientDown ++ received
    clientUp := s.clientUp ++ (tagAll sent (.payload s.requests.length)).map Prod.snd }

/-- The histories after an activation of the client, according to the state it was in. -/
def clientHistory (s : Exchange) (state : ClientState) (received : List Tag) (sent : Bytes) :
    Exchange :=
  let s := { s with finisheds := s.finisheds.map fun m => m.receive received }
  match state with
  | .serverRequest => s.requested sent
  | .serverTransfer => s.clientTransfered received sent
  | .serverFinished =>
    if s.server.state = .serverRequest then
      { s with finisheds := Message.recogniseLast s.finisheds }
    else s
  | _ => s

/-- Payload that the server has received and sent. -/
def serverTransfered (s : Exchange) (received : List Tag) (sent : Bytes) : Exchange :=
  { s with
    toClient := s.toClient ++ tagAll sent (.payload s.block)
    serverDown := s.serverDown ++ received
    serverUp := s.serverUp ++ (tagAll sent (.payload s.block)).map Prod.snd }

/-- A message `FINISHED` of which some bytes were sent. -/
def said (s : Exchange) (sent : Bytes) : Exchange :=
  if sent = [] then s
  else
    let number := s.finisheds.length + 1
    { s with
      toClient := s.toClient ++ tagAll sent (.control number)
      finisheds :=
        { number := number
          length := TorrentClient.finishedText.length
          accepted := sent.length
          received := 0
          recognised := 0 } :: s.finisheds }

/-- The server has looked for a request. -/
def looked (s : Exchange) : Exchange :=
  if s.connection.state = .transfer then
    { s with requests := Message.recogniseLast s.requests, block := s.block + 1 }
  else s

/-- The histories after an activation of the server, according to the state it was in. -/
def serverHistory (s : Exchange) (state : ServerState) (received : List Tag) (sent : Bytes) :
    Exchange :=
  let s := { s with requests := s.requests.map fun m => m.receive received }
  match state with
  | .idle => { s with serverDown := [], serverUp := [] }.looked
  | .request => s.looked
  | .transfer => s.serverTransfered received sent
  | .finished => s.said sent
  | _ => s

/-- One event. -/
def step (s : Exchange) : ExchangeEvent → Except Fault Exchange
  | .client i answers =>
    match s.tc.serve s.id s.server (s.clientSocket answers) i with
    | .error fault => .error fault
    | .ok outcome =>
      let count := taken s.toClient outcome.socket
      .ok ({ s with
        tc := outcome.tc
        server := outcome.server
        toClient := s.toClient.drop count }.clientHistory s.server.state
          ((s.toClient.take count).map Prod.snd) outcome.socket.sent)
  | .server i answers =>
    if s.closed then .ok s
    else
      let outcome := s.ts.serve s.connection (s.serverSocket answers) i
      let count := taken s.toServer outcome.socket
      match outcome.connection with
      | none =>
        .ok { s with ts := outcome.ts, closed := true, toServer := s.toServer.drop count }
      | some connection =>
        .ok ({ s with
          ts := outcome.ts
          connection := connection
          toServer := s.toServer.drop count }.serverHistory s.connection.state
            ((s.toServer.take count).map Prod.snd) outcome.socket.sent)
  | .elsewhere tc ts =>
    .ok { s with
      tc := { tc with downBlockSize := s.tc.downBlockSize, upBlockSize := s.tc.upBlockSize }
      ts := { ts with downBlockSize := s.ts.downBlockSize, upBlockSize := s.ts.upBlockSize } }

/-- A counter has counted these bytes, and they are payload of one block. -/
def Counts (counter : Int) (tags : List Tag) (block : ℕ) : Prop :=
  counter = tags.length ∧ ∀ tag ∈ tags, tag = .payload block

/-- What the protocol is for: every control message that was delivered is recognised once, and the
counters count payload of the current block. -/
structure Proper (s : Exchange) : Prop where
  requests : ∀ m ∈ s.requests, m.Delivered → m.recognised = 1
  finisheds : ∀ m ∈ s.finisheds, m.Delivered → m.recognised = 1
  clientDown : Counts s.server.downBytesTransfered s.clientDown s.requests.length
  clientUp : Counts s.server.upBytesTransfered s.clientUp s.requests.length
  serverDown : Counts s.connection.downBytesTransfered s.serverDown s.block
  serverUp : Counts s.connection.upBytesTransfered s.serverUp s.block

/-- A receiver that waits for a control message and receives bytes of it receives all that there is
of it, when the message was sent as a whole or is recognised. -/
def TakesControl (stream : Tagged) (messages : List Message) (text received stack : Bytes) : Prop :=
  Message.LastComplete messages ∨ TorrentClient.standsIn text received stack = true →
    controlBytes stream ≤ received.length

instance (stream : Tagged) (messages : List Message) (text received stack : Bytes) :
    Decidable (TakesControl stream messages text received stack) :=
  inferInstanceAs (Decidable (_ → _))

/-- No control message is cut. -/
def KeepsWhole (s : Exchange) : ExchangeEvent → Prop
  | .client i answers =>
    s.server.state = .serverFinished →
      match ((s.clientSocket answers).recv bufSize).1 with
      | .error _ | .ok [] => True
      | .ok (b :: bs) =>
        TakesControl s.toClient s.finisheds TorrentClient.finishedText (b :: bs) i.stack
  | .server i answers =>
    s.closed = false → s.connection.state = .idle ∨ s.connection.state = .request →
      match ((s.serverSocket answers).recv bufSize).1 with
      | .error _ | .ok [] => True
      | .ok (b :: bs) => TakesControl s.toServer s.requests requestText (b :: bs) i.stack
  | .elsewhere _ _ => True

instance (s : Exchange) (e : ExchangeEvent) : Decidable (s.KeepsWhole e) := by
  unfold KeepsWhole
  cases e with
  | client i answers =>
    refine @instDecidableForall _ _ _ ?_
    split <;> infer_instance
  | server i answers =>
    refine @instDecidableForall _ _ _ (@instDecidableForall _ _ _ ?_)
    split <;> infer_instance
  | elsewhere tc ts => exact isTrue trivial

end Exchange

end ShadowExtras.Torrent
