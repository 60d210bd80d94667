import ShadowExtras.Web.ConnectionManager
import ShadowExtras.Web.Vectors

/-!
# Responses and requests of a connection

`Connection` writes requests to `outbuf_` in the order in which they are submitted and hands the
responses to the requests in `active_req_queue_`, whose front is popped when a body is complete.
Requests are submitted at any time, also by the callbacks in the middle of `http_receive`: there
they are those that come before the next label. `bodyDone` is the place in front of the pop,
`requestDone` the place between the callbacks and the call of `http_write_to_outbuf`.

The server answers each request once, in order, at any time after it was written; what it sends is
cut in any way. What follows the end of the stream in `on_read` is left out, and so is the socket
behind `outbuf_`: a connection may be read from on.
-/

namespace ShadowExtras.Web

open Foundation HttpConnection

/-! ## Data -/

/-- A response: its lines without their ends, the last `Content-Length` of which is the length of
the body. -/
structure HttpResponse where
  status : Bytes
  lines : List Bytes
  content : Bytes
  isLine : IsLine status
  headers : HeaderLines (-1) lines content

namespace HttpResponse

/-- The bytes of a response. -/
def text (r : HttpResponse) :
    Bytes := r.status ++ (crlf ++ (joinLines r.lines ++ (crlf ++ r.content)))

/-- The bytes of responses, one after the other. -/
def texts (rs : List HttpResponse) : Bytes := (rs.map text).flatten

/-- The status that `http_receive` reads. -/
def statusNumber (r : HttpResponse) : Int := (statusOf (cString r.status)).getD 0

/-- The names and values of header lines. -/
def nameValues (lines : List Bytes) : List (Bytes × Bytes) :=
  lines.filterMap fun l => (splitHeader l).toOption

/-- What `notify_rsp_meta` is called with. -/
def metadata (r : HttpResponse) : Notice := .rspMeta r.statusNumber (nameValues r.lines)

@[simp] theorem texts_nil : texts [] = [] := by
  simp [texts]

@[simp] theorem texts_cons (r : HttpResponse) (rs : List HttpResponse) :
    texts (r :: rs) = r.text ++ texts rs := by
  simp [texts]

@[simp] theorem texts_append (rs rs' : List HttpResponse) :
    texts (rs ++ rs') = texts rs ++ texts rs' := by
  simp [texts]

theorem nameValues_append (lines lines' : List Bytes) :
    nameValues (lines ++ lines') = nameValues lines ++ nameValues lines' := by
  simp [nameValues]

end HttpResponse

open HttpResponse

/-! ## A response in the parser -/

namespace HttpConnection

variable {E : Evbuffer}

/-- Between two responses. -/
structure Between (c : HttpConnection E) : Prop where
  rspState : c.rspState = .statusLine
  rspHdrs : c.rspHdrs = []
  bodyLen : c.bodyLen = -1

/-- The parser is in this response, of which its request was told this; the rest comes next. -/
inductive Within (c : HttpConnection E) (r : HttpResponse) : List Notice → Bytes → Prop
  | statusLine (between : c.Between) : Within c r [] r.text
  | headers (before lines : List Bytes) (rspState : c.rspState = .headers)
      (rspStatus : c.rspStatus = r.statusNumber) (rspHdrs : c.rspHdrs = nameValues before)
      (bodyLen : c.bodyLen = before.foldl bodyLenStep (-1)) (all : r.lines = before ++ lines) :
      Within c r [] (joinLines lines ++ (crlf ++ r.content))
  | body (data : List Bytes) (left : Bytes) (rspState : c.rspState = .body)
      (rspHdrs : c.rspHdrs = [])
      (bodyLen : c.bodyLen = left.length) (content : r.content = data.flatten ++ left) :
      Within c r (r.metadata :: data.map .rspBodyData) left

/-- The parser is in the same place. -/
structure SameParser (c c' : HttpConnection E) : Prop where
  rspState : c'.rspState = c.rspState
  rspStatus : c'.rspStatus = c.rspStatus
  rspHdrs : c'.rspHdrs = c.rspHdrs
  bodyLen : c'.bodyLen = c.bodyLen

/-- The parser cannot go on with what is in `inbuf_`. -/
def Stalled (c : HttpConnection E) : Prop :=
  match c.rspState with
  | .body => E.bytes c.inbuf = [] ∧ c.bodyLen ≠ 0
  | _ => IsLine (E.bytes c.inbuf)

/-- What a round leaves of a response: it goes on in it, or has told its request the rest of it. -/
inductive Leaves (h : Handled E) (r : HttpResponse) (told : List Notice) (toRecv future : Bytes) :
    Prop
  | goesOn (left : Bytes) (within : Within h.conn r (told ++ h.notices) left)
      (stream : E.bytes h.conn.inbuf ++ toRecv = left ++ future) (goesOn : .rspBodyDone ∉ h.notices)
  | ends (data last : List Bytes) (notices : h.notices = last.map .rspBodyData ++ [.rspBodyDone])
      (told : told ++ last.map .rspBodyData = r.metadata :: data.map .rspBodyData)
      (content : r.content = data.flatten) (between : h.conn.Between)
      (stream : E.bytes h.conn.inbuf ++ toRecv = future)

section Rounds

variable {c c' : HttpConnection E} {h : Handled E} {r : HttpResponse} {told : List Notice}
variable {left toRecv future line : Bytes} {active found : Bool}

/-- Being between two responses depends on the parser only. -/
theorem Between.congr (hc : c.Between) (hsame : c.SameParser c') : c'.Between := by
  constructor
  · exact hsame.rspState.trans hc.rspState
  · exact hsame.rspHdrs.trans hc.rspHdrs
  · exact hsame.bodyLen.trans hc.bodyLen

/-- Being within a response depends on the parser only. -/
theorem Within.congr (hc : c.Within r told left) (hsame : c.SameParser c') :
    c'.Within r told left := by
  cases hc with
  | statusLine hbetween => exact .statusLine (hbetween.congr hsame)
  | headers before lines hstate hstatus hrspHdrs hlen hall =>
    exact .headers before lines (hsame.rspState.trans hstate) (hsame.rspStatus.trans hstatus)
      (hsame.rspHdrs.trans hrspHdrs) (hsame.bodyLen.trans hlen) hall
  | body data left hstate hrspHdrs hlen hcontent =>
    exact .body data left (hsame.rspState.trans hstate) (hsame.rspHdrs.trans hrspHdrs)
      (hsame.bodyLen.trans hlen) hcontent

/-- What a header line adds. -/
theorem headerLine_rspHdrs {found' : Bool}
    (hstep : c.headerLine line found = .ok (c', found')) :
    c'.rspStatus = c.rspStatus ∧ c'.rspHdrs = c.rspHdrs ++ nameValues [line] := by
  unfold headerLine at hstep
  cases hsplit : splitHeader line with
  | error f => simp [hsplit] at hstep
  | ok header =>
    obtain ⟨name, value⟩ := header
    have hadded : nameValues [line] = [(name, value)] := by
      simp [nameValues, hsplit, Except.toOption]
    simp only [hsplit] at hstep
    rw [hadded]
    split at hstep
    · obtain ⟨rfl, -⟩ := Prod.mk.inj (Except.ok.inj hstep)
      constructor <;> rfl
    · split at hstep
      · split at hstep
        · simp at hstep
        · simp at hstep
        · split at hstep
          · obtain ⟨rfl, -⟩ := Prod.mk.inj (Except.ok.inj hstep)
            constructor <;> rfl
          · simp at hstep
      · obtain ⟨rfl, -⟩ := Prod.mk.inj (Except.ok.inj hstep)
        constructor <;> rfl

/-- The status line is read from the stream. -/
theorem Within.handleStatusLine (hstate : c.rspState = .statusLine) (hc : c.Within r told left)
    (hstream : E.bytes c.inbuf ++ toRecv = left ++ future)
    (hstep : c.handleStatusLine found = .ok h) :
    Leaves h r told toRecv future := by
  cases hc with
  | headers _ _ hother => simp [hstate] at hother
  | body _ _ hother => simp [hstate] at hother
  | statusLine hbetween =>
    unfold HttpConnection.handleStatusLine at hstep
    cases hread : E.readln c.inbuf with
    | none =>
      simp only [hread] at hstep
      obtain rfl := Except.ok.inj hstep
      exact .goesOn r.text (.statusLine hbetween) hstream (by simp)
    | some found =>
      obtain ⟨line, inbuf⟩ := found
      simp only [hread] at hstep
      obtain ⟨hline, hbytes⟩ := Evbuffer.bytes_of_readln hread
      rw [hbytes, HttpResponse.text, List.append_assoc, List.append_assoc, List.append_assoc,
        List.append_assoc] at hstream
      obtain ⟨rfl, hrest⟩ := line_append_inj hline r.isLine hstream
      cases hstatus : statusOf (cString r.status) with
      | none => simp [hstatus] at hstep
      | some status =>
        simp only [hstatus] at hstep
        split_ifs at hstep
        obtain rfl := Except.ok.inj hstep
        have hnumber : r.statusNumber = status := by
          rw [HttpResponse.statusNumber, hstatus, Option.getD_some]
        refine .goesOn _ (.headers [] r.lines ?_ hnumber.symm hbetween.rspHdrs hbetween.bodyLen ?_)
          ?_
          (by simp)
        · rfl
        · rfl
        · rw [hrest, List.append_assoc]

/-- The header lines are read from the stream. -/
theorem Within.handleHeaders (hstate : c.rspState = .headers) (hc : c.Within r told left)
    (hstream : E.bytes c.inbuf ++ toRecv = left ++ future)
    (hstep : c.handleHeaders active found = .ok h) : Leaves h r told toRecv future := by
  cases hc with
  | statusLine hbetween => simp [hbetween.rspState] at hstate
  | body _ _ hother => simp [hstate] at hother
  | headers before lines _ hstatus hrspHdrs hlen hall =>
    unfold HttpConnection.handleHeaders at hstep
    cases hread : E.readln c.inbuf with
    | none =>
      simp only [hread] at hstep
      obtain rfl := Except.ok.inj hstep
      exact .goesOn _ (.headers before lines hstate hstatus hrspHdrs hlen hall) hstream (by simp)
    | some read =>
      obtain ⟨line, inbuf⟩ := read
      simp only [hread] at hstep
      obtain ⟨hline, hbytes⟩ := Evbuffer.bytes_of_readln hread
      rw [hbytes, List.append_assoc, List.append_assoc, List.append_assoc, List.append_assoc]
        at hstream
      have hlines : ∀ l ∈ lines, IsLine l := fun l hl => r.headers.isLine l (by simp [hall, hl])
      rcases line_append_joinLines hline hlines hstream with ⟨rfl, rfl, hrest⟩ | ⟨rest, rfl, hrest⟩
      · -- the blank line
        have hblank : cString [] = [] := rfl
        rw [if_pos hblank] at hstep
        split_ifs at hstep
        obtain rfl := Except.ok.inj hstep
        rw [List.append_nil] at hall
        have hmeta : r.metadata = .rspMeta c.rspStatus c.rspHdrs := by
          rw [HttpResponse.metadata, hall, ← hstatus, ← hrspHdrs]
        refine .goesOn r.content ?_ hrest (by simp)
        dsimp only
        rw [List.nil_append, ← hmeta]
        apply Within.body []
        · rfl
        · rfl
        · rw [hlen, ← hall]
          exact r.headers.length
        · rw [List.flatten_nil, List.nil_append]
      · have hmem : line ∈ r.lines := by simp [hall]
        rw [if_neg (r.headers.notBlank line hmem)] at hstep
        split at hstep
        · simp at hstep
        · rename_i c' found' hheader
          obtain rfl := Except.ok.inj hstep
          obtain ⟨hinbuf, hstate', hlen'⟩ := headerLine_spec hheader
          obtain ⟨hstatus', hrspHdrs'⟩ := headerLine_rspHdrs hheader
          refine .goesOn _ (.headers (before ++ [line]) rest ?_ ?_ ?_ ?_ ?_) ?_ (by simp)
          · rw [hstate']
            exact hstate
          · rw [hstatus']
            exact hstatus
          · rw [hrspHdrs', nameValues_append]
            exact congrArg (· ++ _) hrspHdrs
          · rw [hlen', List.foldl_append]
            exact congrArg (bodyLenStep · line) hlen
          · rw [hall, List.append_assoc, List.singleton_append]
          · rw [hinbuf, hrest, List.append_assoc, List.append_assoc]

/-- The body is read from the stream. -/
theorem Within.handleBody (hstate : c.rspState = .body) (hc : c.Within r told left)
    (hstream : E.bytes c.inbuf ++ toRecv = left ++ future)
    (hstep : c.handleBody active found = .ok h) : Leaves h r told toRecv future := by
  cases hc with
  | statusLine hbetween => simp [hbetween.rspState] at hstate
  | headers _ _ hother => simp [hstate] at hother
  | body data left _ hrspHdrs hlen hcontent =>
    unfold HttpConnection.handleBody at hstep
    have hlength : c.bodyLen.toNat = left.length := by omega
    have hlast : (consumed c.bodyLen.toNat (E.peek c.inbuf c.bodyLen.toNat)).flatten =
        (E.bytes c.inbuf).take left.length := by
      rw [flatten_consumed, Evbuffer.take_flatten_peek, hlength]
    split_ifs at hstep
    dsimp only at hstep
    generalize consumed c.bodyLen.toNat (E.peek c.inbuf c.bodyLen.toNat) = last at hstep hlast
    split at hstep
    · simp at hstep
    rcases Nat.lt_or_ge (E.bytes c.inbuf).length left.length with hshort | henough
    · -- all of it belongs to the body, which goes on
      rw [List.take_of_length_le hshort.le] at hlast
      rw [if_neg (by rw [hlast]; omega)] at hstep
      obtain rfl := Except.ok.inj hstep
      obtain ⟨left', rfl⟩ : E.bytes c.inbuf <+: left :=
        List.prefix_of_prefix_length_le ⟨toRecv, hstream⟩ ⟨future, rfl⟩ hshort.le
      rw [List.append_assoc] at hstream
      refine .goesOn left' ?_ ?_ (by simp)
      · dsimp only
        rw [List.cons_append, ← List.map_append]
        refine .body (data ++ last) left' hstate hrspHdrs ?_ ?_
        · simp [hlen, hlast]
        · rw [hcontent, List.flatten_append, hlast, List.append_assoc]
      · dsimp only
        rw [Evbuffer.bytes_drain, hlast, List.drop_length, List.nil_append]
        exact List.append_cancel_left hstream
    · obtain ⟨inbuf, hinbuf⟩ : left <+: E.bytes c.inbuf :=
        List.prefix_of_prefix_length_le ⟨future, rfl⟩ ⟨toRecv, hstream⟩ henough
      rw [← hinbuf, List.take_left] at hlast
      rw [if_pos (by rw [hlast, hlen, Int.sub_self])] at hstep
      obtain rfl := Except.ok.inj hstep
      refine .ends (data ++ last) last ?_ ?_ ?_ ?_ ?_
      · rfl
      · rw [List.map_append, List.cons_append]
      · rw [hcontent, List.flatten_append, hlast]
      · exact ⟨rfl, hrspHdrs, rfl⟩
      · dsimp only
        rw [Evbuffer.bytes_drain, hlast, ← hinbuf, List.drop_left]
        rw [← hinbuf, List.append_assoc] at hstream
        exact List.append_cancel_left hstream

/-- A round in a response that does not fail. -/
theorem Within.handleResponse (hc : c.Within r told left)
    (hstream : E.bytes c.inbuf ++ toRecv = left ++ future)
    (hstep : c.handleResponse active found = .ok h) : Leaves h r told toRecv future := by
  unfold HttpConnection.handleResponse at hstep
  cases hstate : c.rspState with
  | statusLine =>
    simp only [hstate] at hstep
    exact hc.handleStatusLine hstate hstream hstep
  | headers =>
    simp only [hstate] at hstep
    exact hc.handleHeaders hstate hstream hstep
  | body =>
    simp only [hstate] at hstep
    exact hc.handleBody hstate hstream hstep

/-- The parser wants to read more when it cannot go on. -/
theorem stalled_of_readMore (hstep : c.handleResponse active found = .ok h)
    (hmore : h.readMore = true) : h.conn.Stalled := by
  unfold HttpConnection.handleResponse at hstep
  unfold Stalled
  cases hstate : c.rspState with
  | statusLine =>
    simp only [hstate, HttpConnection.handleStatusLine] at hstep
    split at hstep
    · rename_i hread
      obtain rfl := Except.ok.inj hstep
      simpa [hstate] using Evbuffer.readln_eq_none.mp hread
    · split at hstep
      · simp at hstep
      · split_ifs at hstep
        obtain rfl := Except.ok.inj hstep
        simp at hmore
  | headers =>
    simp only [hstate, HttpConnection.handleHeaders] at hstep
    split at hstep
    · rename_i hread
      obtain rfl := Except.ok.inj hstep
      simpa [hstate] using Evbuffer.readln_eq_none.mp hread
    · split_ifs at hstep
      · obtain rfl := Except.ok.inj hstep
        simp at hmore
      · split at hstep
        · simp at hstep
        · obtain rfl := Except.ok.inj hstep
          simp at hmore
  | body =>
    simp only [hstate, HttpConnection.handleBody] at hstep
    have hlast : (consumed c.bodyLen.toNat (E.peek c.inbuf c.bodyLen.toNat)).flatten =
        (E.bytes c.inbuf).take c.bodyLen.toNat := by
      rw [flatten_consumed, Evbuffer.take_flatten_peek]
    split_ifs at hstep with hpos hactive hmany hzero
    · obtain rfl := Except.ok.inj hstep
      simp at hmore
    · obtain rfl := Except.ok.inj hstep
      simp only [hlast, List.length_take] at hzero
      simp only [hlast, Evbuffer.bytes_drain, List.length_take]
      constructor
      · apply List.drop_eq_nil_of_le
        omega
      · omega

/-- Nothing is left to receive of a response in which the parser cannot go on only if it has not
begun. -/
theorem Stalled.left_ne_bytes (hstalled : c.Stalled) (hc : c.Within r told left) :
    E.bytes c.inbuf ≠ left ++ future := by
  intro hstream
  have hends (l rest : Bytes) : ¬IsLine (l ++ (crlf ++ rest)) :=
    fun hline => hline ⟨l, rest, by rw [List.append_assoc]⟩
  cases hc with
  | statusLine hbetween =>
    simp only [Stalled, hbetween.rspState, hstream, HttpResponse.text, List.append_assoc]
      at hstalled
    exact hends _ _ hstalled
  | headers before lines hstate =>
    simp only [Stalled, hstate, hstream, List.append_assoc] at hstalled
    exact hends _ _ hstalled
  | body data left hstate hrspHdrs hlen =>
    simp only [Stalled, hstate] at hstalled
    obtain ⟨hempty, hlen'⟩ := hstalled
    rw [hempty] at hstream
    obtain ⟨rfl, -⟩ := List.append_eq_nil_iff.mp hstream.symm
    exact hlen' hlen

end Rounds

end HttpConnection

/-! ## The connection -/

/-- What a request asks for. -/
structure Asked where
  path : Bytes
  headers : List (Bytes × Bytes)
  firstBytePos : Nat
  deriving DecidableEq, Repr

/-- The text of a request. -/
def Asked.text (a : Asked) : Bytes := requestText a.path a.headers a.firstBytePos

/-- A place in `http_receive`, with the local variable `content_range_found`. -/
inductive PipelineLabel
  /-- No callback is running. -/
  | idle
  /-- `read_more` -/
  | readMore (contentRangeFound : Bool)
  /-- `handle_response` -/
  | handleResponse (contentRangeFound : Bool)
  /-- The body is complete, and its request is still active. -/
  | bodyDone (contentRangeFound : Bool)
  /-- The request was told that the body is complete. -/
  | requestDone (contentRangeFound : Bool)
  deriving DecidableEq, Repr

/-- A `Connection` with its two queues. -/
structure Pipeline (E : Evbuffer) where
  http : HttpConnection E
  doPipeline : Bool
  maxPipelineSize : Nat
  submittedReqQueue : List ReqId
  activeReqQueue : List ReqId
  label : PipelineLabel
  /-- Environment: what was sent by the server and not received yet. -/
  toRecv : Bytes
  /-- History: what was put into `outbuf_`. -/
  outbuf : Bytes
  /-- History: the requests that were written to `outbuf_`. -/
  written : List ReqId
  /-- History: the responses of the server. -/
  responses : List HttpResponse
  /-- History: what the requests were told. -/
  told : List (ReqId × Notice)

/-- What happens next. -/
inductive PipelineChoice
  /-- A request is submitted. -/
  | submit (req : ReqId)
  /-- The server answers the first request that it has not answered yet. -/
  | answer (r : HttpResponse)
  /-- The socket is writable. -/
  | writable
  /-- The socket is readable. -/
  | readable
  /-- What `recv` returns for the vectors. -/
  | recv (results : List NumRead)
  /-- Nothing is left open. -/
  | go

namespace Pipeline

variable {E : Evbuffer} (asked : ReqId → Asked) (s : Pipeline E)

/-- A connection that was just opened. -/
def new (E : Evbuffer) (doPipeline : Bool) (maxPipelineSize : Nat) : Pipeline E where
  http := HttpConnection.new E
  doPipeline := doPipeline
  maxPipelineSize := maxPipelineSize
  submittedReqQueue := []
  activeReqQueue := []
  label := .idle
  toRecv := []
  outbuf := []
  written := []
  responses := []
  told := []

/-- `Connection::http_write_to_outbuf` -/
def httpWriteToOutbuf : Pipeline E :=
  match s.submittedReqQueue with
  | [] => s
  | req :: submitted =>
    let qsize := s.activeReqQueue.length
    if !s.doPipeline ∧ 0 < qsize then s
    else if s.doPipeline ∧ s.maxPipelineSize ≤ qsize then s
    else { s with
      submittedReqQueue := submitted
      outbuf := s.outbuf ++ (asked req).text
      http := { s.http with firstBytePos := (asked req).firstBytePos }
      activeReqQueue := s.activeReqQueue ++ [req]
      written := s.written ++ [req] }

/-- `Connection::submit_request` -/
def submitRequest (req : ReqId) : Pipeline E :=
  { s with submittedReqQueue := s.submittedReqQueue ++ [req] }.httpWriteToOutbuf asked

/-- The server answers a request that was written. -/
def answer (r : HttpResponse) : Pipeline E :=
  if s.responses.length < s.written.length then
    { s with responses := s.responses ++ [r], toRecv := s.toRecv ++ r.text }
  else s

/-- The beginning of `http_receive`; without an active request nothing is received. -/
def onRead : Pipeline E :=
  if s.activeReqQueue = [] then s else { s with label := .readMore false }

/-- `read_more` -/
def readMore (found : Bool) (results : List NumRead) : Except HttpFault (Pipeline E) :=
  let (inbuf, sizes) := E.reserve s.http.inbuf nToAdd
  match HttpConnection.recvLoop sizes results s.toRecv with
  | .error f => .error f
  | .ok r =>
    if r.numToCommit = 0 then
      .ok { s with http := { s.http with inbuf := inbuf }, toRecv := r.rest, label := .idle }
    else
      .ok { s with
        http := { s.http with inbuf := E.commit inbuf (r.vectors.take r.numToCommit) }
        toRecv := r.rest
        label := .handleResponse found }

/-- What `active_req_queue_.front()` is told. -/
def tell (notices : List Notice) : List (ReqId × Notice) :=
  match s.activeReqQueue with
  | [] => []
  | req :: _ => notices.map fun notice => (req, notice)

/-- `handle_response`, up to the end of a body. -/
def handleResponse (found : Bool) : Except HttpFault (Pipeline E) :=
  match s.http.handleResponse (!s.activeReqQueue.isEmpty) found with
  | .error f => .error f
  | .ok h =>
    .ok { s with
      http := h.conn
      told := s.told ++ s.tell (h.notices.filter (· ≠ .rspBodyDone))
      label :=
        if .rspBodyDone ∈ h.notices then .bodyDone h.contentRangeFound
        else if h.readMore then .readMore h.contentRangeFound
        else .handleResponse h.contentRangeFound }

/-- The request is popped and told. -/
def bodyDone (found : Bool) : Pipeline E :=
  { s with
    activeReqQueue := s.activeReqQueue.tail
    told := s.told ++ s.tell [.rspBodyDone]
    label := .requestDone found }

/-- One step. A choice that does not fit the place changes nothing. -/
def step (asked : ReqId → Asked) (s : Pipeline E) (choice : PipelineChoice) :
    Except HttpFault (Pipeline E) :=
  match choice, s.label with
  | .submit req, _ => .ok (s.submitRequest asked req)
  | .answer r, _ => .ok (s.answer r)
  | .writable, .idle => .ok (s.httpWriteToOutbuf asked)
  | .readable, .idle => .ok s.onRead
  | .recv results, .readMore found => s.readMore found results
  | .go, .handleResponse found => s.handleResponse found
  | .go, .bodyDone found => .ok (s.bodyDone found)
  | .go, .requestDone found =>
    .ok ({ s with label := .handleResponse found }.httpWriteToOutbuf asked)
  | _, _ => .ok s

/-! ## What is promised -/

/-- What a request is told of a response, with the body in pieces. -/
def delivery (req : ReqId) (r : HttpResponse) (data : List Bytes) : List (ReqId × Notice) :=
  (r.metadata :: data.map .rspBodyData).map fun notice => (req, notice)

/-- The request is told the metadata, the whole body and that it is complete. -/
def Delivers (served : ReqId × HttpResponse) (block : List (ReqId × Notice)) : Prop :=
  ∃ data, data.flatten = served.2.content ∧
    block = delivery served.1 served.2 data ++ [(served.1, .rspBodyDone)]

/-- The request is told a first part of this. -/
def BeginsToDeliver (served : ReqId × HttpResponse) (block : List (ReqId × Notice)) : Prop :=
  ∃ data, data.flatten <+: served.2.content ∧ block = delivery served.1 served.2 data

/-- The responses reach their requests: `finished` and then `todo` are the requests in the order in
which they were written, each with the response at its place on the wire. -/
structure Demultiplexes (asked : ReqId → Asked) (s : Pipeline E) : Prop where
  outbuf : s.outbuf = (s.written.map fun req => (asked req).text).flatten
  inOrder : ∃ finished todo blocks block, s.written.zip s.responses = finished ++ todo ∧
    s.told = blocks.flatten ++ block ∧ List.Forall₂ Delivers finished blocks ∧
    (block = [] ∨ ∃ served, todo.head? = some served ∧ BeginsToDeliver served block) ∧
    (s.label = .idle → s.toRecv = [] → todo = [])

/-- What is appended to `inbuf_` is what was received. -/
def AppendsReceived (s : Pipeline E) (choice : PipelineChoice) : Prop :=
  match choice, s.label with
  | .recv results, .readMore _ =>
    match HttpConnection.recvLoop (E.reserve s.http.inbuf nToAdd).2 results s.toRecv with
    | .error _ => True
    | .ok r => s.toRecv = (r.vectors.take r.numToCommit).flatten ++ r.rest
  | _, _ => True

instance (s : Pipeline E) (choice : PipelineChoice) : Decidable (s.AppendsReceived choice) := by
  unfold AppendsReceived
  split
  · split <;> infer_instance
  · infer_instance

/-! ## Where the responses are -/

variable {asked : ReqId → Asked} {s t : Pipeline E} {rs : List HttpResponse}
variable {part : List (ReqId × Notice)} {blocks : List (List (ReqId × Notice))}
variable {finished : List (ReqId × HttpResponse)} {found : Bool}

/-- What is received, and what is still to be received. -/
def stream (s : Pipeline E) : Bytes := E.bytes s.http.inbuf ++ s.toRecv

/-- The responses that are still to be delivered, and what the first active request was told of the
first of them. -/
inductive AtWire (s : Pipeline E) : List HttpResponse → List (ReqId × Notice) → Prop
  | rest (between : s.http.Between) (stream : s.stream = []) : AtWire s [] []
  | response (req : ReqId) (r : HttpResponse) (rs : List HttpResponse) (told : List Notice)
      (left : Bytes)
      (front : s.activeReqQueue.head? = some req) (within : s.http.Within r told left)
      (stream : s.stream = left ++ texts rs) :
      AtWire s (r :: rs) (told.map fun notice => (req, notice))

/-- This at the label: in front of `recv` the parser cannot go on. -/
inductive Stage (s : Pipeline E) : List HttpResponse → List (ReqId × Notice) → Prop
  | waits (rs : List HttpResponse) (part : List (ReqId × Notice))
      (label : s.label = .idle ∨ ∃ found, s.label = .readMore found) (atWire : AtWire s rs part)
      (stalled : s.http.Stalled) : Stage s rs part
  | parses (rs : List HttpResponse) (part : List (ReqId × Notice))
      (label : ∃ found, s.label = .handleResponse found ∨ s.label = .requestDone found)
      (atWire : AtWire s rs part) : Stage s rs part
  | bodyDone (label : ∃ found, s.label = .bodyDone found) (req : ReqId) (r : HttpResponse)
      (rs : List HttpResponse) (data : List Bytes) (front : s.activeReqQueue.head? = some req)
      (content : r.content = data.flatten) (between : s.http.Between)
        (stream : s.stream = texts rs) :
      Stage s (r :: rs) (delivery req r data)

/-- The responses that were sent are those of the requests that are finished, and then those of the
first active requests. -/
structure Accounts (asked : ReqId → Asked) (s : Pipeline E) (finished : List (ReqId × HttpResponse))
    (rs : List HttpResponse) (blocks : List (List (ReqId × Notice)))
    (part : List (ReqId × Notice)) :
    Prop where
  outbuf : s.outbuf = (s.written.map fun req => (asked req).text).flatten
  written : s.written = finished.map Prod.fst ++ s.activeReqQueue
  responses : s.responses = finished.map Prod.snd ++ rs
  answered : rs.length ≤ s.activeReqQueue.length
  told : s.told = blocks.flatten ++ part
  delivers : List.Forall₂ Delivers finished blocks
  stage : s.Stage rs part

/-- A new pipeline was told nothing. -/
theorem accounts_new (asked : ReqId → Asked) (doPipeline : Bool) (maxPipelineSize : Nat) :
    (new E doPipeline maxPipelineSize).Accounts asked [] [] [] [] where
  outbuf := by simp [new]
  written := by simp [new]
  responses := by simp [new]
  answered := by simp
  told := by simp [new]
  delivers := .nil
  stage := by
    refine .waits [] [] (.inl ?_) (.rest ⟨?_, ?_, ?_⟩ ?_) ?_
    all_goals simp [new, HttpConnection.new, stream, Stalled, IsLine, crlf]

/-! ## What is promised holds -/

/-- The first active request is told the first part of its response. -/
theorem Stage.beginsToDeliver (h : s.Stage rs part) :
    part = [] ∨ ∃ req r rs', s.activeReqQueue.head? = some req ∧ rs = r :: rs' ∧
      BeginsToDeliver (req, r) part := by
  have hatWire (hwire : AtWire s rs part) : part = [] ∨ ∃ req r rs',
      s.activeReqQueue.head? = some req ∧ rs = r :: rs' ∧ BeginsToDeliver (req, r) part := by
    cases hwire with
    | rest => exact .inl rfl
    | response req r rs told left hfront hwithin =>
      cases hwithin with
      | statusLine => exact .inl rfl
      | headers => exact .inl rfl
      | body data _ _ _ _ hcontent =>
        exact .inr ⟨req, r, rs, hfront, rfl, data, ⟨left, hcontent.symm⟩, rfl⟩
  cases h with
  | waits _ _ _ hwire => exact hatWire hwire
  | parses _ _ _ hwire => exact hatWire hwire
  | bodyDone _ req r rs data hfront hcontent =>
    exact .inr ⟨req, r, rs, hfront, rfl, data, ⟨[], by rw [List.append_nil, hcontent]⟩, rfl⟩

/-- When nothing is running and nothing is left to receive, all responses are delivered. -/
theorem Stage.eq_nil (h : s.Stage rs part) (hidle : s.label = .idle) (htoRecv : s.toRecv = []) :
    rs = [] := by
  cases h with
  | parses _ _ hlabel =>
    obtain ⟨found, hlabel | hlabel⟩ := hlabel
    · simp [hidle] at hlabel
    · simp [hidle] at hlabel
  | bodyDone hlabel =>
    obtain ⟨found, hlabel⟩ := hlabel
    simp [hidle] at hlabel
  | waits _ _ _ hwire hstalled =>
    cases hwire with
    | rest => exact rfl
    | response req r rs told left hfront hwithin hstream =>
      rw [stream, htoRecv, List.append_nil] at hstream
      exact absurd hstream (hstalled.left_ne_bytes hwithin)

/-- What is accounted for was told to the requests in order. -/
theorem Accounts.demultiplexes (h : s.Accounts asked finished rs blocks part) :
    s.Demultiplexes asked := by
  constructor
  · exact h.outbuf
  · refine ⟨finished, s.activeReqQueue.zip rs, blocks, part, ?_, h.told, h.delivers, ?_, ?_⟩
    · rw [h.written, h.responses, List.zip_append (by simp), List.zip_map', List.map_id']
    · rcases h.stage.beginsToDeliver with hnil | ⟨req, r, rs', hfront, hrs, hbegins⟩
      · exact .inl hnil
      · refine .inr ⟨(req, r), ?_, hbegins⟩
        obtain ⟨reqs, hactive⟩ := List.head?_eq_some_iff.mp hfront
        rw [hactive, hrs, List.zip_cons_cons, List.head?_cons]
    · intro hidle htoRecv
      rw [h.stage.eq_nil hidle htoRecv, List.zip_nil_right]

/-! ## Requests -/

section Requests

/-- What the place on the wire depends on. -/
theorem AtWire.congr (h : s.AtWire rs part) (hsame : s.http.SameParser t.http)
    (hstream : t.stream = s.stream)
    (hfront : ∀ req, s.activeReqQueue.head? = some req → t.activeReqQueue.head? = some req) :
    t.AtWire rs part := by
  cases h with
  | rest hbetween hnil => exact .rest (hbetween.congr hsame) (hstream.trans hnil)
  | response req r rs told left hs hwithin hleft =>
    exact .response req r rs told left (hfront req hs) (hwithin.congr hsame) (hstream.trans hleft)

/-- What a stage depends on. -/
theorem Stage.congr (h : s.Stage rs part) (hlabel : t.label = s.label)
    (hsame : s.http.SameParser t.http) (hinbuf : t.http.inbuf = s.http.inbuf)
    (htoRecv : t.toRecv = s.toRecv)
    (hfront : ∀ req, s.activeReqQueue.head? = some req → t.activeReqQueue.head? = some req) :
    t.Stage rs part := by
  have hstream : t.stream = s.stream := by rw [stream, stream, hinbuf, htoRecv]
  cases h with
  | waits _ _ hs hwire hstalled =>
    refine .waits _ _ (by rwa [hlabel]) (hwire.congr hsame hstream hfront) ?_
    rwa [Stalled, hsame.rspState, hsame.bodyLen, hinbuf]
  | parses _ _ hs hwire => exact .parses _ _ (by rwa [hlabel]) (hwire.congr hsame hstream hfront)
  | bodyDone hs req r rs data hactive hcontent hbetween hleft =>
    exact .bodyDone (by rwa [hlabel]) req r rs data (hfront req hactive) hcontent
      (hbetween.congr hsame)
      (hstream.trans hleft)

/-- A request is written behind the active ones. -/
theorem Accounts.httpWriteToOutbuf (h : s.Accounts asked finished rs blocks part) :
    (s.httpWriteToOutbuf asked).Accounts asked finished rs blocks part := by
  unfold Pipeline.httpWriteToOutbuf
  split
  · exact h
  · rename_i req submitted hsubmitted
    dsimp only
    split_ifs
    · exact h
    · exact h
    · constructor
      · simp [h.outbuf]
      · simp [h.written]
      · exact h.responses
      · simp only [List.length_append]
        exact h.answered.trans (Nat.le_add_right _ _)
      · exact h.told
      · exact h.delivers
      · refine h.stage.congr rfl ⟨rfl, rfl, rfl, rfl⟩ rfl rfl ?_
        intro front hfront
        simp [List.head?_append, hfront]

/-- A submitted request keeps the accounts. -/
theorem Accounts.submitRequest (req : ReqId) (h : s.Accounts asked finished rs blocks part) :
    (s.submitRequest asked req).Accounts asked finished rs blocks part := by
  apply Accounts.httpWriteToOutbuf
  exact ⟨h.outbuf, h.written, h.responses, h.answered, h.told, h.delivers,
    h.stage.congr rfl ⟨rfl, rfl, rfl, rfl⟩ rfl rfl fun _ hfront => hfront⟩

/-- A response comes behind those that were sent before. -/
theorem Stage.answer (r : HttpResponse) (h : s.Stage rs part)
    (hactive : rs.length < s.activeReqQueue.length) :
    { s with responses := s.responses ++ [r], toRecv := s.toRecv ++ r.text }.Stage
      (rs ++ [r]) part := by
  have hstream : { s with responses := s.responses ++ [r], toRecv := s.toRecv ++ r.text }.stream =
      s.stream ++ r.text := by
    rw [stream, stream, List.append_assoc]
  have hatWire (hwire : AtWire s rs part) :
      AtWire { s with responses := s.responses ++ [r], toRecv := s.toRecv ++ r.text }
        (rs ++ [r]) part := by
    cases hwire with
    | rest hbetween hnil =>
      obtain ⟨req, reqs, hreqs⟩ := List.exists_cons_of_length_pos hactive
      refine .response req r [] [] r.text ?_ (.statusLine hbetween) ?_
      · simp [hreqs]
      · rw [hstream, hnil, texts_nil, List.nil_append, List.append_nil]
    | response req r' rs told left hfront hwithin hleft =>
      refine .response req r' (rs ++ [r]) told left hfront hwithin ?_
      rw [hstream, hleft, texts_append, texts_cons, texts_nil, List.append_nil, List.append_assoc]
  cases h with
  | waits _ _ hlabel hwire hstalled => exact .waits _ _ hlabel (hatWire hwire) hstalled
  | parses _ _ hlabel hwire => exact .parses _ _ hlabel (hatWire hwire)
  | bodyDone hlabel req r' rs data hfront hcontent hbetween hleft =>
    rw [List.cons_append]
    apply Stage.bodyDone ?_ req r' (rs ++ [r]) data ?_ hcontent ?_ ?_
    · exact hlabel
    · exact hfront
    · exact hbetween
    · rw [hstream, hleft, texts_append, texts_cons, texts_nil, List.append_nil]

/-- An answer of the server keeps the accounts. -/
theorem Accounts.answer (r : HttpResponse) (h : s.Accounts asked finished rs blocks part) :
    ∃ rs', (s.answer r).Accounts asked finished rs' blocks part := by
  unfold Pipeline.answer
  split_ifs with hwritten
  · have hactive : rs.length < s.activeReqQueue.length := by
      rw [h.written, h.responses] at hwritten
      simpa using hwritten
    refine ⟨rs ++ [r], h.outbuf, h.written, ?_, ?_, h.told, h.delivers, h.stage.answer r hactive⟩
    · rw [h.responses, List.append_assoc]
    · rw [List.length_append]
      exact hactive
  · exact ⟨rs, h⟩

end Requests

/-! ## The receive loop -/

section Receive

/-- Nothing happens between two calls of `http_receive` and in front of `recv`. -/
theorem Stage.of_waits (h : s.Stage rs part)
    (hlabel : s.label = .idle ∨ s.label = .readMore found) :
    s.AtWire rs part ∧ s.http.Stalled := by
  cases h with
  | waits _ _ _ hwire hstalled => exact ⟨hwire, hstalled⟩
  | parses _ _ hother =>
    obtain ⟨found', hother | hother⟩ := hother
    · simp [hother] at hlabel
    · simp [hother] at hlabel
  | bodyDone hother =>
    obtain ⟨found', hother⟩ := hother
    simp [hother] at hlabel

/-- A pipeline that parses is at the bytes that come from the server. -/
theorem Stage.of_parses (h : s.Stage rs part)
    (hlabel : s.label = .handleResponse found ∨ s.label = .requestDone found) :
    s.AtWire rs part := by
  cases h with
  | parses _ _ _ hwire => exact hwire
  | waits _ _ hother =>
    rcases hother with hother | ⟨found', hother⟩
    · simp [hother] at hlabel
    · simp [hother] at hlabel
  | bodyDone hother =>
    obtain ⟨found', hother⟩ := hother
    simp [hother] at hlabel

/-- The read callback keeps the accounts. -/
theorem Accounts.onRead (h : s.Accounts asked finished rs blocks part) (hlabel : s.label = .idle) :
    s.onRead.Accounts asked finished rs blocks part := by
  unfold Pipeline.onRead
  split_ifs
  · exact h
  · obtain ⟨hwire, hstalled⟩ := h.stage.of_waits (.inl (b := s.label = .readMore false) hlabel)
    refine ⟨h.outbuf, h.written, h.responses, h.answered, h.told, h.delivers, ?_⟩
    refine .waits _ _ (.inr ⟨false, rfl⟩) ?_ hstalled
    exact hwire.congr ⟨rfl, rfl, rfl, rfl⟩ rfl fun _ hfront => hfront

/-- What is committed fits into the vectors. -/
theorem fitsInto_of_recvLoop {sizes : List Nat} {results : List NumRead} {bytes : Bytes}
    {filled : Filled} (h : HttpConnection.recvLoop sizes results bytes = .ok filled) :
    FitsInto (filled.vectors.take filled.numToCommit) sizes := by
  obtain ⟨memory, outcomes, hmemory, ⟨hvectors, hcommit, hle⟩, -⟩ := recvLoop_eq_vectorLoop h
  obtain ⟨rest, hrest⟩ := hvectors
  have hfits := fitsInto_committed nToAdd memory outcomes
  rwa [VectorLoop.committed, ← hcommit, ← hrest, List.take_append_of_le_length hle, hmemory]
    at hfits

/-- Receiving keeps the accounts. -/
theorem Accounts.readMore {results : List NumRead} (h : s.Accounts asked finished rs blocks part)
    (hlabel : s.label = .readMore found) (happends : s.AppendsReceived (.recv results))
    (hstep : s.readMore found results = .ok t) : t.Accounts asked finished rs blocks part := by
  obtain ⟨hwire, hstalled⟩ := h.stage.of_waits (.inr hlabel)
  simp only [AppendsReceived, hlabel] at happends
  simp only [Pipeline.readMore] at hstep
  cases hrecv : HttpConnection.recvLoop (E.reserve s.http.inbuf nToAdd).2 results s.toRecv with
  | error fault => simp [hrecv] at hstep
  | ok filled =>
    simp only [hrecv] at hstep happends
    split_ifs at hstep with hnone
    · obtain rfl := Except.ok.inj hstep
      rw [hnone, List.take_zero, List.flatten_nil, List.nil_append] at happends
      refine ⟨h.outbuf, h.written, h.responses, h.answered, h.told, h.delivers, ?_⟩
      refine .waits _ _ (.inl rfl) ?_ ?_
      · refine hwire.congr ⟨rfl, rfl, rfl, rfl⟩ ?_ fun _ hfront => hfront
        rw [stream, stream, Evbuffer.bytes_reserve, happends]
      · simpa only [Stalled, Evbuffer.bytes_reserve] using hstalled
    · obtain rfl := Except.ok.inj hstep
      refine ⟨h.outbuf, h.written, h.responses, h.answered, h.told, h.delivers, ?_⟩
      refine .parses _ _ ⟨found, .inl rfl⟩ ?_
      refine hwire.congr ⟨rfl, rfl, rfl, rfl⟩ ?_ fun _ hfront => hfront
      rw [stream, stream, Evbuffer.bytes_commit (fitsInto_of_recvLoop hrecv), List.append_assoc,
        ← happends]

/-- The first active request is told what the parser finds. -/
theorem Accounts.handleResponse (h : s.Accounts asked finished rs blocks part)
    (hlabel : s.label = .handleResponse found) (hstep : s.handleResponse found = .ok t) :
    ∃ part', t.Accounts asked finished rs blocks part' := by
  have hwire := h.stage.of_parses (.inl hlabel)
  have htold := h.told
  have hanswered := h.answered
  unfold Pipeline.handleResponse at hstep
  split at hstep
  · simp at hstep
  rename_i round hround
  obtain rfl := Except.ok.inj hstep
  cases hwire with
  | rest hbetween hnil =>
    have hempty : E.bytes s.http.inbuf = [] := (List.append_eq_nil_iff.mp hnil).1
    obtain ⟨hconn, hnotices, hmore⟩ :=
      AtRest.handleResponse ⟨hbetween.rspState, hbetween.bodyLen, hempty⟩ hround
    have htell : s.tell [] = [] := by
      unfold tell
      split
      · rfl
      · rfl
    refine ⟨[], h.outbuf, h.written, h.responses, h.answered, ?_, h.delivers, ?_⟩
    · simp only [hnotices, List.filter_nil, htell, htold, List.append_nil]
    · refine .waits _ _ (.inr ⟨round.contentRangeFound, ?_⟩) (.rest ?_ ?_) ?_
      · simp [hnotices, hmore]
      · dsimp only
        rwa [hconn]
      · simpa only [stream, hconn] using hnil
      · exact stalled_of_readMore hround hmore
  | response req r rs told left hfront hwithin hstream =>
    obtain ⟨reqs, hactive⟩ := List.head?_eq_some_iff.mp hfront
    have htell (notices : List Notice) : s.tell notices = notices.map fun notice =>
        (req, notice) := by
      rw [tell, hactive]
    cases hwithin.handleResponse hstream hround with
    | goesOn left' hwithin' hstream' hgoes =>
      have hfilter : round.notices.filter (· ≠ .rspBodyDone) = round.notices := by
        rw [List.filter_eq_self]
        intro notice hmem
        have hne : notice ≠ .rspBodyDone := ne_of_mem_of_not_mem hmem hgoes
        simpa using hne
      refine ⟨(told ++ round.notices).map fun notice => (req, notice), h.outbuf, h.written,
        h.responses, h.answered, ?_, h.delivers, ?_⟩
      · dsimp only
        rw [hfilter, htell, htold, List.map_append, List.append_assoc]
      · cases hmore : round.readMore with
        | true =>
          refine .waits _ _ (.inr ⟨round.contentRangeFound, ?_⟩) ?_
            (stalled_of_readMore hround hmore)
          · simp [hgoes]
          · exact .response req r rs _ left' hfront hwithin' hstream'
        | false =>
          refine .parses _ _ ⟨round.contentRangeFound, .inl ?_⟩ ?_
          · simp [hgoes]
          · exact .response req r rs _ left' hfront hwithin' hstream'
    | ends data last hnotices htold' hcontent hbetween hstream' =>
      have hfilter : round.notices.filter (· ≠ .rspBodyDone) = last.map .rspBodyData := by
        rw [hnotices, List.filter_append, List.filter_cons_of_neg (by simp), List.filter_nil,
          List.append_nil, List.filter_eq_self]
        simp
      refine ⟨delivery req r data, h.outbuf, h.written, h.responses, h.answered, ?_, h.delivers, ?_⟩
      · dsimp only
        rw [hfilter, htell, htold, List.append_assoc, ← List.map_append, htold', delivery]
      · refine .bodyDone ⟨round.contentRangeFound,
          ?_⟩ req r rs data hfront hcontent hbetween hstream'
        simp [hnotices]

/-- The first active request is finished, and the next one is in front. -/
theorem Accounts.bodyDone (h : s.Accounts asked finished rs blocks part)
    (hlabel : s.label = .bodyDone found) :
    ∃ finished' rs' blocks', (s.bodyDone found).Accounts asked finished' rs' blocks' [] := by
  have htold := h.told
  have hresponses := h.responses
  have hanswered := h.answered
  cases h.stage with
  | waits _ _ hother =>
    rcases hother with hother | ⟨found', hother⟩
    · simp [hlabel] at hother
    · simp [hlabel] at hother
  | parses _ _ hother =>
    obtain ⟨found', hother | hother⟩ := hother
    · simp [hlabel] at hother
    · simp [hlabel] at hother
  | bodyDone _ req r rs data hfront hcontent hbetween hstream =>
    obtain ⟨reqs, hactive⟩ := List.head?_eq_some_iff.mp hfront
    have hdelivers : Delivers (req, r) (delivery req r data ++ [(req, .rspBodyDone)]) :=
      ⟨data, hcontent.symm, rfl⟩
    have hlength : rs.length ≤ reqs.length := by
      rw [hactive] at hanswered
      simpa using hanswered
    refine ⟨finished ++ [(req, r)], rs, blocks ++ [delivery req r data ++ [(req, .rspBodyDone)]],
      h.outbuf, ?_, ?_, ?_, ?_, List.rel_append h.delivers (.cons hdelivers .nil), ?_⟩
    · simp [Pipeline.bodyDone, h.written, hactive]
    · simp [Pipeline.bodyDone, hresponses]
    · simpa [Pipeline.bodyDone, hactive] using hlength
    · simp [Pipeline.bodyDone, htold, tell, hactive]
    · refine .parses _ _ ⟨found, .inr rfl⟩ ?_
      cases rs with
      | nil =>
        rw [texts_nil] at hstream
        exact .rest hbetween hstream
      | cons r' rs =>
        obtain ⟨req', reqs', hreqs⟩ :=
          List.exists_cons_of_length_pos (Nat.lt_of_lt_of_le (by simp) hlength)
        rw [texts_cons] at hstream
        refine .response req' r' rs [] r'.text ?_ (.statusLine hbetween) hstream
        simp [Pipeline.bodyDone, hactive, hreqs]

end Receive

/-! ## Runs -/

/-- A step whose received bytes are appended. -/
theorem Accounts.step {choice : PipelineChoice} (h : s.Accounts asked finished rs blocks part)
    (happends : s.AppendsReceived choice) (hstep : step asked s choice = .ok t) :
    ∃ finished rs blocks part, t.Accounts asked finished rs blocks part := by
  unfold Pipeline.step at hstep
  split at hstep
  · obtain rfl := Except.ok.inj hstep
    exact ⟨_, _, _, _, h.submitRequest _⟩
  · obtain rfl := Except.ok.inj hstep
    obtain ⟨rs', hanswer⟩ := h.answer _
    exact ⟨_, _, _, _, hanswer⟩
  · obtain rfl := Except.ok.inj hstep
    exact ⟨_, _, _, _, h.httpWriteToOutbuf⟩
  · rename_i hlabel
    obtain rfl := Except.ok.inj hstep
    exact ⟨_, _, _, _, h.onRead hlabel⟩
  · rename_i hlabel
    exact ⟨_, _, _, _, h.readMore hlabel happends hstep⟩
  · rename_i hlabel
    obtain ⟨part', hround⟩ := h.handleResponse hlabel hstep
    exact ⟨_, _, _, _, hround⟩
  · rename_i hlabel
    obtain rfl := Except.ok.inj hstep
    obtain ⟨finished', rs', blocks', hdone⟩ := h.bodyDone hlabel
    exact ⟨_, _, _, _, hdone⟩
  · rename_i hlabel
    obtain rfl := Except.ok.inj hstep
    refine ⟨finished, rs, blocks, part, Accounts.httpWriteToOutbuf ?_⟩
    refine ⟨h.outbuf, h.written, h.responses, h.answered, h.told, h.delivers, ?_⟩
    refine .parses _ _ ⟨_, .inl rfl⟩ ?_
    exact (h.stage.of_parses (.inr hlabel)).congr ⟨rfl, rfl, rfl, rfl⟩ rfl fun _ hfront => hfront
  · obtain rfl := Except.ok.inj hstep
    exact ⟨_, _, _, _, h⟩

/-- A response with a body of one byte. -/
def small (content : Byte) : HttpResponse where
  status := ascii "HTTP/1.1 200 OK"
  lines := [ascii "Content-Length: 1"]
  content := [content]
  isLine := by decide +kernel
  headers := by
    constructor
    · decide +kernel
    · decide +kernel
    · rw [List.length_singleton]
      decide +kernel

end Pipeline

end ShadowExtras.Web
