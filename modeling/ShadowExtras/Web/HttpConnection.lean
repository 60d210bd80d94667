import ShadowExtras.Foundation.Evbuffer
import ShadowExtras.Web.HttpParse

/-!
# The HTTP client of a connection

`Connection` writes the text of a request to the socket and parses the response that it receives:
the status line, the headers up to a blank line, then as many bytes of the body as the headers say.
The parser takes lines and body bytes out of `inbuf_` as they become complete and keeps its state in
members between two calls; `handleResponse` is one round of it. What it tells the request is a list
of notices.

`inbuf_` is any implementation of `evbuffer`. Lines are C strings: a name ends at the colon, and the
value begins two bytes behind the colon, whatever stands in between. The faults are the assertions,
and the places where memory is read that was not written.
-/

namespace ShadowExtras.Web

open Foundation

/-! ## Data -/

/-- `HTTP_RSP_STATE_*` of a connection. -/
inductive RspState
  | statusLine
  | headers
  | body
  deriving DecidableEq, Repr

/-- The ways `http_receive` ends the program. -/
inductive HttpFault
  /-- `tmp` in a status line, or a status other than 200 and 206. -/
  | status
  /-- `tmp` in a header line. -/
  | colon
  /-- Undefined behaviour of `parseContentRange`. -/
  | parse (fault : ParseFault)
  /-- A `Content-Range` that is not understood, does not begin with `first_byte_pos_` or does not
  reach to the end. -/
  | contentRange
  /-- The header `Content-Range` is missing. -/
  | rangeMissing
  /-- `body_len_ >= 0` -/
  | contentLength
  /-- `body_len_ > 0` -/
  | emptyBody
  /-- `active_req_queue_.front()` of an empty queue. -/
  | noActive
  /-- Bytes behind the end of a line, or a vector that was not filled in. -/
  | overrun
  /-- `errno == EWOULDBLOCK` -/
  | recv
  deriving DecidableEq, Repr

/-- What a request is told. -/
inductive Notice
  /-- `notify_rsp_meta` -/
  | rspMeta (status : Int) (headers : List (Bytes × Bytes))
  /-- `notify_rsp_body_data` -/
  | rspBodyData (data : Bytes)
  /-- `notify_rsp_body_done` -/
  | rspBodyDone
  deriving DecidableEq, Repr

/-- The members of `Connection` that the parser uses. -/
structure HttpConnection (E : Evbuffer) where
  inbuf : E.Buf
  rspState : RspState
  rspStatus : Int
  rspHdrs : List (Bytes × Bytes)
  firstBytePos : Nat
  bodyLen : Int

/-- What a round of the parser ends with. -/
structure Handled (E : Evbuffer) where
  conn : HttpConnection E
  /-- The local variable `content_range_found`. -/
  contentRangeFound : Bool
  notices : List Notice
  /-- Jump to `read_more`, else to `handle_response`. -/
  readMore : Bool

/-! ## `recv` -/

/-- What a call of `recv` returns. -/
inductive NumRead
  /-- So many bytes, or as many as there are; 0 at the end of the stream. -/
  | bytes (n : Nat)
  /-- `-1` with `EWOULDBLOCK`; the vector keeps what it holds. -/
  | wouldBlock (held : Bytes)
  /-- `-1` with another error. -/
  | error
  deriving DecidableEq, Repr

/-- `n_to_add` -/
def nToAdd : Nat := 4096 * 2

/-- What the loop over the vectors ends with. -/
structure Filled where
  /-- The contents of the vectors that were looked at. -/
  vectors : List Bytes
  numToCommit : Nat
  /-- What is left to receive of the stream. -/
  rest : Bytes
  reachedEof : Bool
  deriving DecidableEq, Repr

/-! ## Requests -/

/-- What `http_write_to_outbuf` prints for a request. -/
def requestText (path : Bytes) (headers : List (Bytes × Bytes)) (firstBytePos : Nat) : Bytes :=
  ascii "GET " ++ path ++ ascii " HTTP/1.1" ++ crlf ++
    (headers.map fun h => h.1 ++ ascii ": " ++ h.2 ++ crlf).flatten ++
    (if 0 < firstBytePos then ascii "Range: bytes=" ++ decimal firstBytePos ++ ascii "-" ++ crlf
      else []) ++ crlf

namespace HttpConnection

/-- A connection that was just opened. -/
def new (E : Evbuffer) : HttpConnection E where
  inbuf := E.new
  rspState := .statusLine
  rspStatus := -1
  rspHdrs := []
  firstBytePos := 0
  bodyLen := -1

/-! ## The loop over the vectors -/

/-- The loop over the vectors, by their sizes. A vector for which `recv` would block is skipped, but
counted from the front when the vectors are committed. -/
def recvLoop : List Nat → List NumRead → Bytes → Except HttpFault Filled
  | _ :: _, .error :: _, _ => .error .recv
  | size :: sizes, .wouldBlock held :: results, stream =>
    match recvLoop sizes results stream with
    | .error f => .error f
    | .ok r => .ok { r with vectors := held.takeD size 0 :: r.vectors }
  | size :: sizes, .bytes n :: results, stream =>
    let len := min size nToAdd
    let got := stream.take (min n len)
    if got = [] then
      .ok { vectors := [], numToCommit := 0, rest := stream, reachedEof := true }
    else if got.length < len then
      .ok { vectors := [got], numToCommit := 1, rest := stream.drop got.length, reachedEof := false
        }
    else match recvLoop sizes results (stream.drop got.length) with
    | .error f => .error f
    | .ok r => .ok { r with vectors := got :: r.vectors, numToCommit := r.numToCommit + 1 }
  | _, _, stream => .ok { vectors := [], numToCommit := 0, rest := stream, reachedEof := false }

/-! ## Lines -/

variable {E : Evbuffer} (c : HttpConnection E)

/-- The status in a status line, a C string: what follows the first space. -/
def statusOf (line : Bytes) : Option Int :=
  match line.dropWhile fun b => b != 32 with
  | [] => none
  | _ :: rest => some (atoi rest)

/-- The name and the value of a header line; the line is cut in place. -/
def splitHeader (line : Bytes) : Except HttpFault (Bytes × Bytes) :=
  let name := (cString line).takeWhile fun b => b != 58
  if name.length = (cString line).length then .error .colon
  else if line.length < name.length + 2 then .error .overrun
  else .ok (name, cString (line.drop (name.length + 2)))

/-- A header line of a response. -/
def headerLine (line : Bytes) (found : Bool) : Except HttpFault (HttpConnection E × Bool) :=
  match splitHeader line with
  | .error f => .error f
  | .ok (name, value) =>
    let c := { c with rspHdrs := c.rspHdrs ++ [(name, value)] }
    if caselessEq name (ascii "content-length") then
      .ok ({ c with bodyLen := strtol value }, found)
    else if caselessEq name (ascii "content-range") then
      match parseContentRange value with
      | .error f => .error (.parse f)
      | .ok none => .error .contentRange
      | .ok (some (first, last, full)) =>
        if first = c.firstBytePos ∧ full - 1 = last then .ok (c, true) else .error .contentRange
    else .ok (c, found)

/-! ## The parser -/

/-- `HTTP_RSP_STATE_STATUS_LINE` -/
def handleStatusLine (found : Bool) : Except HttpFault (Handled E) :=
  match E.readln c.inbuf with
  | none => .ok { conn := c, contentRangeFound := found, notices := [], readMore := true }
  | some (line, inbuf) =>
    match statusOf (cString line) with
    | none => .error .status
    | some status =>
      if status ≠ 200 ∧ status ≠ 206 then .error .status
      else .ok {
        conn := { c with inbuf := inbuf, rspStatus := status, rspState := .headers }
        contentRangeFound := false
        notices := []
        readMore := false }

/-- `HTTP_RSP_STATE_HEADERS`, for the next line. -/
def handleHeaders (active found : Bool) : Except HttpFault (Handled E) :=
  match E.readln c.inbuf with
  | none => .ok { conn := c, contentRangeFound := found, notices := [], readMore := true }
  | some (line, inbuf) =>
    let c := { c with inbuf := inbuf }
    if cString line = [] then
      if c.bodyLen < (0 : Int) then .error .contentLength
      else if !found ∧ 0 < c.firstBytePos then .error .rangeMissing
      else if !active then .error .noActive
      else .ok {
        conn := { c with rspHdrs := [], rspState := .body }
        contentRangeFound := found
        notices := [.rspMeta c.rspStatus c.rspHdrs]
        readMore := false }
    else match c.headerLine line found with
    | .error f => .error f
    | .ok (c, found) =>
      .ok { conn := c, contentRangeFound := found, notices := [], readMore := false }

/-- The parts of the extents that make up the first `len` bytes. -/
def consumed : Nat → List Bytes → List Bytes
  | _, [] => []
  | len, e :: es => e.take len :: consumed (len - e.length) es

/-- `HTTP_RSP_STATE_BODY`. The extents that `evbuffer_peek` finds for `body_len_` bytes hold these,
or all there are, so that one round of the loop takes everything. -/
def handleBody (active found : Bool) : Except HttpFault (Handled E) :=
  if ¬(0 : Int) < c.bodyLen then .error .emptyBody
  else if !active then .error .noActive
  else
    let es := E.peek c.inbuf c.bodyLen.toNat
    if 2 < es.length then .error .overrun
    else
      let data := consumed c.bodyLen.toNat es
      let numconsumed := data.flatten.length
      let bodyLen := c.bodyLen - numconsumed
      let c := { c with inbuf := E.drain c.inbuf numconsumed, bodyLen := bodyLen }
      let notices := data.map Notice.rspBodyData
      if bodyLen = 0 then .ok {
        conn := { c with bodyLen := -1, rspState := .statusLine }
        contentRangeFound := found
        notices := notices ++ [.rspBodyDone]
        readMore := false }
      else .ok { conn := c, contentRangeFound := found, notices := notices, readMore := true }

/-- One round from `handle_response`; `active` says whether there is an active request. -/
def handleResponse (active found : Bool) : Except HttpFault (Handled E) :=
  match c.rspState with
  | .statusLine => c.handleStatusLine found
  | .headers => c.handleHeaders active found
  | .body => c.handleBody active found

end HttpConnection

end ShadowExtras.Web
