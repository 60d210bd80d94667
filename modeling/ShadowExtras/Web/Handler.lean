import ShadowExtras.Foundation.Lines
import ShadowExtras.Web.HttpParse

/-!
# A connection of the web server

A `Handler` serves the requests that arrive on one connection. `recv_from_client` puts what it
receives into `inbuf_`, `process_inbuf_` takes requests out of `inbuf_` and queues them,
`send_to_client` puts the response to the first request of the queue into `outbuf_`, from the file
as far as there is room, and writes `outbuf_` to the socket.

The two callbacks are loops with labels and jumps; a step of the machine goes from one label to the
next, so that what is said about every state is said about the middle of a callback too. A label
keeps the local variables that are read behind it. The body of the loop that writes `outbuf_` to the
socket is one step: between its calls of `write` and of `evbuffer_drain` what was written is still
in the buffer.

What the surroundings decide comes with the step: which callback runs, the vectors that
`evbuffer_reserve_space` and `evbuffer_peek` fill in, what `recv` and `write` return. The files do
not change. A handler that has scheduled its deletion is still called until it is deleted.
-/

namespace ShadowExtras.Web

open Foundation

/-! ## Data -/

/-- `Handler::RequestInfo`; `first_byte_pos` is `-1` if there is no range. -/
structure RequestInfo where
  path : Bytes
  firstBytePos : Int
  deriving DecidableEq, Repr

/-- `MAX_PIPELINE_REQS` -/
def maxPipelineReqs : Nat := 1

/-- `READ_HIGH_WATER_MARK` -/
def readHighWaterMark : Nat := 16 * 1024

/-- `HTTP_REQ_STATE_*` -/
inductive HttpReqState
  | reqLine
  | headers
  deriving DecidableEq, Repr

/-- `HTTP_RSP_STATE_*` -/
inductive HttpRspState
  | metadata
  | body
  deriving DecidableEq, Repr

/-- The ways a callback ends the program. -/
inductive HandlerFault
  /-- The request line is not `GET` followed by a path that begins with a slash and ends with a
  space. -/
  | requestLine
  /-- `MAX_PIPELINE_REQS >= submitted_req_queue_.size()` -/
  | pipeline
  /-- `-1 != parseRange(..)`, `last_byte_pos == -1` or `first_byte_pos >= 0` -/
  | range
  /-- Undefined behaviour of `parseRange`. -/
  | parse (fault : ParseFault)
  /-- `submitted_req_queue_.back()` of an empty queue. -/
  | emptyQueue
  /-- `submitted_req_queue_.front()` of an empty queue, for what is logged when a write fails. -/
  | emptyFront
  /-- The file does not exist, is empty or ends before the first byte that is asked for. -/
  | file
  /-- `last_byte_pos == (sb.st_size - 1)` -/
  | lastBytePos
  /-- `-1 == active_fd_` -/
  | activeFd
  /-- `read(active_fd_, ..)` fails. -/
  | read
  /-- `numRespBodyBytesExpectedToSend_ == numBodyBytesRead_` -/
  | bodyBytes
  /-- `count < 0x2f` -/
  | count
  /-- Space of `inbuf_` is committed that nothing was received into. -/
  | commit
  deriving DecidableEq, Repr

/-- `Handler`, with the bytes received from and sent to the client, the requests that were answered
and the number of deletions scheduled. -/
structure Handler where
  docroot : Bytes
  inbuf : Bytes
  outbuf : Bytes
  httpReqState : HttpReqState
  httpRspState : HttpRspState
  submittedReqQueue : List RequestInfo
  /-- `active_fd_`, by what is left to read of the file; `none` for `-1`. -/
  activeFd : Option Bytes
  writeToClientEnabled : Bool
  readFromClientEnabled : Bool
  numRespBodyBytesExpectedToSend : Nat
  numRespBytesSent : Nat
  numBodyBytesRead : Nat
  received : Bytes
  sent : Bytes
  answered : List RequestInfo
  deletions : Nat
  deriving DecidableEq, Repr

/-- The files by their absolute paths. -/
abbrev Files := Bytes → Option Bytes

namespace Handler

variable (files : Files) (s : Handler)

/-- `Handler::Handler` -/
def new (docroot : Bytes) : Handler where
  docroot := docroot
  inbuf := []
  outbuf := []
  httpReqState := .reqLine
  httpRspState := .metadata
  submittedReqQueue := []
  activeFd := none
  writeToClientEnabled := false
  readFromClientEnabled := true
  numRespBodyBytesExpectedToSend := 0
  numRespBytesSent := 0
  numBodyBytesRead := 0
  received := []
  sent := []
  answered := []
  deletions := 0

/-! ## `process_inbuf_` -/

/-- `evbuffer_readln(inbuf_, NULL, EVBUFFER_EOL_CRLF_STRICT)`: the first line without its end, and
the handler after it was drained. -/
def readln : Option (Bytes × Handler) :=
  (findCrlf s.inbuf).map fun i => (s.inbuf.take i, { s with inbuf := s.inbuf.drop (i + 2) })

/-- The path of a request line. -/
def relpath (line : Bytes) : Except HandlerFault Bytes :=
  match strcasestr (ascii "GET ") line with
  | none => .error .requestLine
  | some i =>
    let path := line.drop (i + 4)
    if path.head? ≠ some 47 then .error .requestLine
    else match strcasestr [32] path with
    | none => .error .requestLine
    | some j => .ok (path.take j)

/-- Is the line a range header? -/
def isRange (line : Bytes) : Bool := caselessPrefix (ascii "Range: ") line

/-- The first byte position of a range header. -/
def firstBytePosOf (line : Bytes) : Except HandlerFault Int :=
  match parseRange (line.drop 7) with
  | .error f => .error (.parse f)
  | .ok none => .error .range
  | .ok (some (first, last)) => if last = -1 ∧ 0 ≤ first then .ok first else .error .range

/-- `submitted_req_queue_.back().first_byte_pos = first_byte_pos` -/
def setFirstBytePos (first : Int) : Except HandlerFault Handler :=
  match s.submittedReqQueue.getLast? with
  | none => .error .emptyQueue
  | some req => .ok { s with
      submittedReqQueue := s.submittedReqQueue.dropLast ++ [{ req with firstBytePos := first }] }

/-- A header line of a request. -/
def headerLine (line : Bytes) : Except HandlerFault Handler :=
  if isRange line then
    match firstBytePosOf line with
    | .error f => .error f
    | .ok first => s.setFirstBytePos first
  else .ok s

/-- `process_inbuf_` in `HTTP_REQ_STATE_HEADERS`: the loop over the lines, each of which takes bytes
out of `inbuf_`; `want_more_data` is the second result. -/
def processHeaders : Nat → Handler → Except HandlerFault (Handler × Bool)
  | 0, s => .ok (s, true)
  | fuel + 1, s =>
    match s.readln with
    | none => .ok (s, true)
    | some (line, s) =>
      if cString line = [] then
        .ok ({ s with httpReqState := .reqLine, writeToClientEnabled := true }, false)
      else match s.headerLine (cString line) with
      | .error f => .error f
      | .ok s => processHeaders fuel s

/-- `process_inbuf_` in `HTTP_REQ_STATE_REQ_LINE`, then in `HTTP_REQ_STATE_HEADERS`. -/
def processReqLine : Except HandlerFault (Handler × Bool) :=
  match s.readln with
  | none => .ok (s, true)
  | some (line, s) =>
    match relpath (cString line) with
    | .error f => .error f
    | .ok path =>
      let queue := s.submittedReqQueue ++ [{ path := path, firstBytePos := -1 }]
      if queue.length ≤ maxPipelineReqs then
        { s with submittedReqQueue := queue, httpReqState := .headers }.processHeaders
          (s.inbuf.length + 1)
      else .error .pipeline

/-- `process_inbuf_` up to the label `done`. -/
def extractRequest : Except HandlerFault (Handler × Bool) :=
  if s.inbuf = [] then .ok (s, true)
  else match s.httpReqState with
  | .reqLine => s.processReqLine
  | .headers => s.processHeaders (s.inbuf.length + 1)

/-- `Handler::process_inbuf_` -/
def processInbuf : Except HandlerFault (Handler × Bool) :=
  match s.extractRequest with
  | .error f => .error f
  | .ok (s, wantMoreData) =>
    .ok ({ s with
      writeToClientEnabled := s.writeToClientEnabled || !s.submittedReqQueue.isEmpty
      readFromClientEnabled := s.readFromClientEnabled || wantMoreData }, wantMoreData)

/-! ## The response -/

/-- The absolute path of a request. -/
def abspath (req : RequestInfo) : Bytes := s.docroot ++ req.path

/-- The content type: what follows the last dot of the path, unless the path begins with it. -/
def contentType (path : Bytes) : Bytes :=
  let suffix := (path.reverse.takeWhile fun b => b != 46).reverse
  if suffix.length + 1 < path.length ∧ suffix = ascii "html" then ascii "text/html"
  else ascii "unknown"

/-- `content_length` -/
def contentLength (req : RequestInfo) (size : Nat) : Nat :=
  if 0 ≤ req.firstBytePos then size - req.firstBytePos.toNat else size

/-- `last_byte_pos`, an `int`, of a request with a range. -/
def lastBytePos (req : RequestInfo) (size : Nat) : Int :=
  toInt32 (req.firstBytePos + contentLength req size - 1)

/-- What `evbuffer_add_printf` adds for the header of a response. -/
def header (path : Bytes) (req : RequestInfo) (size : Nat) : Bytes :=
  ascii "HTTP/1.1 " ++ decimal (if 0 ≤ req.firstBytePos then 206 else 200) ++ ascii " OK" ++ crlf ++
    ascii "Content-Length: " ++ decimal (contentLength req size) ++ crlf ++
    ascii "Content-Type: " ++ contentType path ++ crlf ++
    (if 0 ≤ req.firstBytePos then
      ascii "Content-Range: bytes " ++ decimal req.firstBytePos.toNat ++ ascii "-" ++
        decimal (lastBytePos req size).toNat ++ ascii "/" ++ decimal size ++ crlf
    else []) ++ crlf

/-- `HTTP_RSP_STATE_META` -/
def responseMeta (req : RequestInfo) : Except HandlerFault Handler :=
  match files (s.abspath req) with
  | none => .error .file
  | some content =>
    if content = [] then .error .file
    else if ¬req.firstBytePos < content.length then .error .file
    else if 0 ≤ req.firstBytePos ∧ ¬(lastBytePos req content.length = content.length - 1 ∧
        req.firstBytePos ≤ lastBytePos req content.length) then .error .lastBytePos
    else if s.activeFd ≠ none then .error .activeFd
    else .ok { s with
      outbuf := s.outbuf ++ header (s.abspath req) req content.length
      httpRspState := .body
      activeFd := some (content.drop req.firstBytePos.toNat)
      numRespBodyBytesExpectedToSend := contentLength req content.length
      numBodyBytesRead := 0 }

/-- The loop of `HTTP_RSP_STATE_BODY` over the vectors: what was read, what is left of the file and
`done_with_current_file`. `read` returns less than it is asked for only at the end of the file. -/
def readLoop (expected : Nat) : List Nat → Bytes → Nat → Except HandlerFault (Bytes × Bytes × Bool)
  | [], rest, _ => .ok ([], rest, false)
  | size :: sizes, rest, numBodyBytesRead =>
    let len := min size (2 * 4096)
    let got := rest.take len
    if got = [] then .ok ([], rest, true)
    else if got.length < len then
      if expected = numBodyBytesRead + got.length then .ok (got, rest.drop len, true)
      else .error .bodyBytes
    else match readLoop expected sizes (rest.drop len) (numBodyBytesRead + got.length) with
      | .error f => .error f
      | .ok (more, rest, done) => .ok (got ++ more, rest, done)

/-- The request at the front is answered: the end of `HTTP_RSP_STATE_BODY` before
`process_inbuf_`. -/
def finishResponse : Handler :=
  { s with
    activeFd := none
    numRespBytesSent := 0
    numBodyBytesRead := 0
    numRespBodyBytesExpectedToSend := 0
    submittedReqQueue := s.submittedReqQueue.tail
    answered := s.answered ++ s.submittedReqQueue.head?.toList
    httpRspState := .metadata }

end Handler

/-! ## Sockets -/

/-- What `recv` returns. -/
inductive RecvResult
  | bytes (data : Bytes)
  | eof
  | wouldBlock
  | error
  deriving DecidableEq, Repr

/-- What `write` returns. -/
inductive WriteResult
  | wrote (n : Nat)
  | wouldBlock
  | error
  deriving DecidableEq, Repr

/-- The vectors that `evbuffer_reserve_space(buf, n, v, 2)` may fill in, by their sizes. -/
def Reserves (n : Nat) (sizes : List Nat) : Prop :=
  sizes.length ≤ 2 ∧ (∀ size ∈ sizes, 0 < size) ∧ n ≤ sizes.sum

/-- The extents that `evbuffer_peek(buf, -1, NULL, v, 2)` may fill in, by their sizes. -/
def Peeks (buf : Bytes) (sizes : List Nat) : Prop :=
  sizes.length ≤ 2 ∧ (∀ size ∈ sizes, 0 < size) ∧ sizes.sum ≤ buf.length ∧
    (sizes.length < 2 → sizes.sum = buf.length)

instance (n : Nat) (sizes : List Nat) : Decidable (Reserves n sizes) := by
  unfold Reserves
  infer_instance

instance (buf : Bytes) (sizes : List Nat) : Decidable (Peeks buf sizes) := by
  unfold Peeks
  infer_instance

/-- What the loop over the vectors in `recv_from_client` ends with. -/
inductive Received
  /-- The peer has closed the connection, or an error. -/
  | closed
  /-- What is committed, and `no_more_to_read`. -/
  | bytes (data : Bytes) (noMoreToRead : Bool)
  deriving DecidableEq, Repr

/-- The loop over the vectors in `recv_from_client`; a vector is skipped when `recv` would block,
and then the vectors that are committed are not those that were filled. The code goes on with what
stood in them; the handler is followed up to there. -/
def recvLoop : List (Nat × RecvResult) → Bytes → Bool → Except HandlerFault Received
  | [], data, _ => .ok (.bytes data false)
  | (_, .eof) :: _, _, _ | (_, .error) :: _, _, _ => .ok .closed
  | (_, .wouldBlock) :: vs, data, _ => recvLoop vs data true
  | (size, .bytes d) :: vs, data, skipped =>
    let len := min size (2 * 1024)
    let d := d.take len
    if d = [] then .ok .closed
    else if skipped then .error .commit
    else if d.length < len then .ok (.bytes (data ++ d) true)
    else recvLoop vs (data ++ d) skipped

/-- What the loop over the extents in `send_to_client` ends with. -/
structure Written where
  bytes : Bytes
  sendWouldBlock : Bool
  error : Bool
  deriving DecidableEq, Repr

/-- The loop over the extents in `send_to_client`. -/
def writeLoop : List (Nat × WriteResult) → Bytes → Written
  | [], _ => { bytes := [], sendWouldBlock := false, error := false }
  | (_, .wouldBlock) :: _, _ => { bytes := [], sendWouldBlock := true, error := false }
  | (_, .error) :: _, _ => { bytes := [], sendWouldBlock := false, error := true }
  | (size, .wrote n) :: vs, buf =>
    let w := (buf.take size).take n
    if w.length ≠ (buf.take size).length then { bytes := w, sendWouldBlock := true, error := false }
    else
      let more := writeLoop vs (buf.drop size)
      { more with bytes := w ++ more.bytes }

/-! ## The machine -/

/-- The local variables of `send_to_client`. -/
structure Locals where
  sendWouldBlock : Bool
  count : Nat
  runningNumWritten : Nat
  deriving DecidableEq, Repr

/-- Where a call of `process_inbuf_` returns to. -/
inductive After
  /-- `recv_from_client` -/
  | recv (noMoreToRead : Bool)
  /-- The break of `add_more` after 256 KB. -/
  | addMore (l : Locals)
  /-- The end of a response. -/
  | response (l : Locals)
  /-- The end of `send_to_client`. -/
  | done
  deriving DecidableEq, Repr

/-- A place in the code. -/
inductive Label
  /-- No callback is running. -/
  | idle
  /-- `read_more` -/
  | readMore
  | processInbuf (next : After)
  /-- `add_more` -/
  | addMore (l : Locals)
  /-- `add_more` after the break. -/
  | check (l : Locals)
  /-- The head of the loop that fills `outbuf_`. -/
  | fill (l : Locals)
  /-- `HTTP_RSP_STATE_BODY` -/
  | body (l : Locals)
  /-- `send_more` -/
  | sendMore (l : Locals)
  /-- The head of the loop that drains `outbuf_`. -/
  | drain (l : Locals)
  deriving DecidableEq, Repr

/-- What the surroundings decide in a step. -/
inductive Choice
  /-- The socket is readable. -/
  | readable
  /-- The socket is writable. -/
  | writable
  /-- Nothing is left open. -/
  | go
  /-- The vectors of `inbuf_` and what `recv` returns for each. -/
  | recv (vectors : List (Nat × RecvResult))
  /-- The vectors of `outbuf_`. -/
  | reserve (sizes : List Nat)
  /-- The extents of `outbuf_` and what `write` returns for each. -/
  | write (extents : List (Nat × WriteResult))
  deriving DecidableEq, Repr

/-- A handler at a place in the code. -/
structure HandlerMachine where
  handler : Handler
  label : Label
  deriving DecidableEq, Repr

namespace HandlerMachine

variable (files : Files)

/-- `read_more` -/
def readMore (s : Handler) (vectors : List (Nat × RecvResult)) :
    Except HandlerFault HandlerMachine :=
  if s.submittedReqQueue.length = maxPipelineReqs then
    .ok ⟨{ s with readFromClientEnabled := false }, .idle⟩
  else if ¬Reserves (2 * 1024) (vectors.map Prod.fst) then .ok ⟨s, .readMore⟩
  else match recvLoop vectors [] false with
  | .error f => .error f
  | .ok .closed => .ok ⟨{ s with deletions := s.deletions + 1 }, .idle⟩
  | .ok (.bytes data noMoreToRead) =>
    if data = [] then .ok ⟨s, .idle⟩
    else .ok ⟨{ s with inbuf := s.inbuf ++ data, received := s.received ++ data },
      .processInbuf (.recv noMoreToRead)⟩

/-- Return from `process_inbuf_`. -/
def returnTo (wantMoreData : Bool) : After → Label
  | .recv noMoreToRead => if wantMoreData && !noMoreToRead then .readMore else .idle
  | .addMore l => .check l
  | .response l => .fill l
  | .done => .idle

/-- Call `process_inbuf_`. -/
def processInbuf (s : Handler) (next : After) : Except HandlerFault HandlerMachine :=
  match s.processInbuf with
  | .error f => .error f
  | .ok (s, wantMoreData) => .ok ⟨s, returnTo wantMoreData next⟩

/-- `add_more` -/
def addMore (s : Handler) (l : Locals) : HandlerMachine :=
  let l := { l with count := l.count + 1 }
  if 256 * 1024 ≤ l.runningNumWritten then
    ⟨s, .processInbuf (.addMore { l with runningNumWritten := 0 })⟩
  else ⟨s, .check l⟩

/-- `add_more` after the break. -/
def check (s : Handler) (l : Locals) : Except HandlerFault HandlerMachine :=
  if ¬l.count < 0x2f then .error .count
  else if s.submittedReqQueue = [] ∧ s.outbuf = [] then
    .ok ⟨{ s with writeToClientEnabled := false }, .processInbuf .done⟩
  else if readHighWaterMark ≤ s.outbuf.length ∧ l.sendWouldBlock then .ok ⟨s, .idle⟩
  else .ok ⟨s, .fill l⟩

/-- The loop that fills `outbuf_`, up to `HTTP_RSP_STATE_BODY`. -/
def fill (s : Handler) (l : Locals) : Except HandlerFault HandlerMachine :=
  match s.submittedReqQueue with
  | [] => .ok ⟨s, .sendMore l⟩
  | req :: _ =>
    if readHighWaterMark ≤ s.outbuf.length then .ok ⟨s, .sendMore l⟩
    else
      let l := { l with count := 0 }
      if 1 < s.outbuf.length ∧ !l.sendWouldBlock then .ok ⟨s, .sendMore l⟩
      else match s.httpRspState with
      | .metadata => match s.responseMeta files req with
        | .error f => .error f
        -- want to get the meta info out quick
        | .ok s => .ok ⟨s, if l.sendWouldBlock then .body l else .sendMore l⟩
      | .body => .ok ⟨s, .body l⟩

/-- `HTTP_RSP_STATE_BODY` -/
def body (s : Handler) (l : Locals) (sizes : List Nat) : Except HandlerFault HandlerMachine :=
  if ¬Reserves (2 * 4096) sizes then .ok ⟨s, .body l⟩
  else match s.activeFd with
  | none => .error .read
  | some rest =>
    match Handler.readLoop s.numRespBodyBytesExpectedToSend sizes rest s.numBodyBytesRead with
    | .error f => .error f
    | .ok (got, rest, done) =>
      let s := { s with
        outbuf := s.outbuf ++ got
        activeFd := some rest
        numBodyBytesRead := s.numBodyBytesRead + got.length }
      if done then .ok ⟨s.finishResponse, .processInbuf (.response l)⟩ else .ok ⟨s, .fill l⟩

/-- A write of the loop that drains `outbuf_` fails while no request is in the queue. The path of
the request at the front is logged all the same. -/
def FailsUnqueued (s : Handler) (l : Locals) (extents : List (Nat × WriteResult)) : Prop :=
  s.submittedReqQueue = [] ∧ (s.outbuf ≠ [] ∧ l.sendWouldBlock = false) ∧
    Peeks s.outbuf (extents.map Prod.fst) ∧ (writeLoop extents s.outbuf).error = true

instance (s : Handler) (l : Locals) (extents : List (Nat × WriteResult)) :
    Decidable (FailsUnqueued s l extents) :=
  inferInstanceAs (Decidable (_ ∧ _))

/-- The loop that drains `outbuf_`, and what follows it, behind the log. -/
def drained (s : Handler) (l : Locals) (extents : List (Nat × WriteResult)) : HandlerMachine :=
  if s.outbuf ≠ [] ∧ !l.sendWouldBlock then
    if ¬Peeks s.outbuf (extents.map Prod.fst) then ⟨s, .drain l⟩
    else
      let w := writeLoop extents s.outbuf
      let s := { s with
        sent := s.sent ++ w.bytes, numRespBytesSent := s.numRespBytesSent + w.bytes.length }
      -- after an error nothing is drained
      if w.error then ⟨{ s with deletions := s.deletions + 1 }, .idle⟩
      else ⟨{ s with outbuf := s.outbuf.drop w.bytes.length },
        .drain { l with
          count := 0
          sendWouldBlock := w.sendWouldBlock
          runningNumWritten := l.runningNumWritten + w.bytes.length }⟩
  else if s.submittedReqQueue ≠ [] then ⟨s, .addMore l⟩ else ⟨s, .idle⟩

/-- The loop that drains `outbuf_`, and what follows it. -/
def drain (s : Handler) (l : Locals) (extents : List (Nat × WriteResult)) :
    Except HandlerFault HandlerMachine :=
  if FailsUnqueued s l extents then .error .emptyFront else .ok (drained s l extents)

/-- One step. A choice that does not fit the place changes nothing. -/
def step (m : HandlerMachine) (c : Choice) : Except HandlerFault HandlerMachine :=
  let s := m.handler
  match m.label, c with
  | .idle, .readable => .ok (if s.readFromClientEnabled then ⟨s, .readMore⟩ else m)
  | .idle, .writable =>
    .ok (if s.writeToClientEnabled then
      ⟨s, .addMore { sendWouldBlock := false, count := 0, runningNumWritten := 0 }⟩ else m)
  | .readMore, .go => readMore s []
  | .readMore, .recv vectors => readMore s vectors
  | .processInbuf next, .go => processInbuf s next
  | .addMore l, .go => .ok (addMore s l)
  | .check l, .go => check s l
  | .fill l, .go => fill files s l
  | .body l, .reserve sizes => body s l sizes
  | .sendMore l, .go => .ok ⟨s, .drain { l with count := l.count + 1 }⟩
  | .drain l, .go => drain s l []
  | .drain l, .write extents => drain s l extents
  | _, _ => .ok m

/-- A new handler. -/
def new (docroot : Bytes) : HandlerMachine := ⟨Handler.new docroot, .idle⟩

/-- The loop goes on unless a write fails without a request. -/
theorem drain_eq_ok {s : Handler} {l : Locals} {extents : List (Nat × WriteResult)}
    {m : HandlerMachine} (h : drain s l extents = .ok m) : m = drained s l extents := by
  unfold drain at h
  split at h
  · cases h
  · exact (Except.ok.inj h).symm

/-- The loop fails for the log of a write that fails without a request. -/
theorem drain_fault {s : Handler} {l : Locals} {extents : List (Nat × WriteResult)}
    {f : HandlerFault}
    (h : drain s l extents = .error f) : f = .emptyFront ∧ FailsUnqueued s l extents := by
  unfold drain at h
  split at h
  · rename_i hfails
    exact ⟨(Except.error.inj h).symm, hfails⟩
  · cases h

/-- A loop in which no write fails, or a request is in the queue, goes on. -/
theorem drain_of_not_fails {s : Handler} {l : Locals} {extents : List (Nat × WriteResult)}
    (h : s.submittedReqQueue ≠ [] ∨ (writeLoop extents s.outbuf).error = false) :
    drain s l extents = .ok (drained s l extents) := by
  unfold drain
  rw [if_neg]
  rintro ⟨hqueue, -, -, herror⟩
  rcases h with hne | hnone
  · exact hne hqueue
  · rw [hnone] at herror
    cases herror

/-- Where nothing can be written, the loop goes on. -/
@[simp] theorem drain_nil (s : Handler) (l : Locals) : drain s l [] = .ok (drained s l []) :=
  drain_of_not_fails (.inr rfl)

end HandlerMachine

end ShadowExtras.Web
