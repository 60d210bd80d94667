import ShadowExtras.Web.HandlerWatches
import ShadowExtras.Web.HttpResponse

/-!
# Ranges between the client and the web server

A client that has got the first `k` bytes of a file asks for the rest with a header line that
`process_inbuf_` reads back. The response of the web server says in its header which part of the
file follows; `http_receive` reads that back, and checks that the part begins where the client asked
for and reaches to the end. The positions are printed and read in decimal, as `size_t` and as `int`;
they agree up to the greatest `int`.
-/

namespace ShadowExtras.Web

open Foundation

/-- The header line for a range that begins at a position. -/
def rangeLine (first : ℕ) : Bytes := ascii "Range: bytes=" ++ decimal first ++ ascii "-"

namespace HttpConnection

/-- So many rounds from `handle_response`, or until more has to be read. -/
def rounds {E : Evbuffer} (active : Bool) : ℕ → Handled E → Except HttpFault (Handled E)
  | 0, h => .ok h
  | n + 1, h =>
    if h.readMore then .ok h
    else match h.conn.handleResponse active h.contentRangeFound with
    | .error f => .error f
    | .ok h' => rounds active n { h' with notices := h.notices ++ h'.notices }

/-- `handle_response`, before the first round. -/
def begin {E : Evbuffer} (c : HttpConnection E) : Handled E where
  conn := c
  contentRangeFound := false
  notices := []
  readMore := false

end HttpConnection

/-- The header of a response is read as one for the part of a file of `n` bytes that begins at
`k`. -/
def ReadsPart (k n : ℕ) (head : Bytes) : Prop :=
  ∀ (E : Evbuffer) (c : HttpConnection E) (rest : Bytes), c.rspState = .statusLine →
    c.rspHdrs = [] → c.firstBytePos = k → E.bytes c.inbuf = head ++ rest →
    ∃ h type range, HttpConnection.rounds true 5 c.begin = .ok h ∧
      h.notices =
        [.rspMeta 206 [(ascii "Content-Length", decimal (n - k)), (ascii "Content-Type", type),
        (ascii "Content-Range", range)]] ∧
      parseContentRange range = .ok (some (k, n - 1, n)) ∧ h.contentRangeFound = true ∧
      h.conn.rspState = .body ∧ h.conn.bodyLen = n - k ∧ E.bytes h.conn.inbuf = rest

/-- A client asks for a file of `n` bytes from position `k` on, and understands the response. -/
structure Negotiates (k n : ℕ) : Prop where
  /-- `http_write_to_outbuf` adds the line behind the other headers. -/
  written : ∀ path headers, ∃ before, requestText path headers 0 = before ++ crlf ∧
    requestText path headers k = before ++ (rangeLine k ++ crlf) ++ crlf
  parsed : parseRange ((rangeLine k).drop 7) = .ok (some (k, -1))
  /-- `process_inbuf_` goes on behind the line with the position in the last request. -/
  processed : ∀ (s : Handler) (reqs : List RequestInfo) (req : RequestInfo) (rest : Bytes),
    s.httpReqState = .headers → s.submittedReqQueue = reqs ++ [req] →
    s.inbuf = rangeLine k ++ (crlf ++ rest) →
    s.processInbuf = { s with
      inbuf := rest
      submittedReqQueue := reqs ++ [{ req with firstBytePos := k }] }.processInbuf
  /-- `send_to_client` answers with the rest of the file. -/
  answered : ∀ (files : Files) (s : Handler) (req : RequestInfo) (content : Bytes),
    files (s.abspath req) = some content → content.length = n → req.firstBytePos = k →
    s.activeFd = none → ∃ t head, s.responseMeta files req = .ok t ∧ t.outbuf = s.outbuf ++ head ∧
      t.activeFd = some (content.drop k) ∧ t.numRespBodyBytesExpectedToSend = n - k ∧
      ReadsPart k n head

/-! ## Texts -/

/-- The text is a C string without CR. -/
def IsText (l : Bytes) : Prop := ∀ b ∈ l, b ≠ 0 ∧ b ≠ cr

instance (l : Bytes) : Decidable (IsText l) := List.decidableBAll _ l

theorem IsText.append {l m : Bytes} (hl : IsText l) (hm : IsText m) : IsText (l ++ m) := by
  intro b hb
  exact (List.mem_append.mp hb).elim (hl b) (hm b)

/-- A number is text. -/
theorem isText_decimal (n : ℕ) : IsText (decimal n) := by
  intro b hb
  have hdigit := isDigit_of_mem_decimal hb
  constructor
  · rintro rfl
    exact absurd hdigit (by decide)
  · rintro rfl
    exact absurd hdigit (by decide)

theorem IsText.cString {l : Bytes} (hl : IsText l) : cString l = l :=
  cString_eq_self fun b hb => (hl b hb).1

theorem IsText.isLine {l : Bytes} (hl : IsText l) : IsLine l := by
  have hline :=
    IsLine.append_of_forall_ne (l := []) (fun b hb => (hl b hb).2) (by simp [IsLine, crlf])
  rwa [List.append_nil] at hline

theorem isText_rangeLine (k : ℕ) : IsText (rangeLine k) :=
  ((by decide : IsText (ascii "Range: bytes=")).append (isText_decimal k)).append (by decide)

/-! ## The request -/

/-- The parts of a range header. -/
theorem rangeLine_eq (k : ℕ) :
    rangeLine k = ascii "Range: " ++ (ascii "bytes=" ++ decimal k ++ ascii "-") := by
  have hname : ascii "Range: bytes=" = ascii "Range: " ++ ascii "bytes=" := by decide
  simp [rangeLine, hname]

/-- A request from a position has the range header in front of its blank line. -/
theorem requestText_rangeLine {k : ℕ} (hk : 0 < k) (path : Bytes) (headers : List (Bytes × Bytes)) :
    ∃ before, requestText path headers 0 = before ++ crlf ∧
      requestText path headers k = before ++ (rangeLine k ++ crlf) ++ crlf := by
  refine ⟨_, by rw [requestText, if_neg (lt_irrefl 0), List.append_nil], ?_⟩
  rw [requestText, if_pos hk, rangeLine]

namespace Handler

variable {s t : Handler}

/-- More rounds than there are bytes make no difference. -/
theorem processHeaders_fuel {f g : ℕ} (hf : s.inbuf.length < f) (hg : s.inbuf.length < g) :
    processHeaders f s = processHeaders g s := by
  induction f generalizing s g with
  | zero => omega
  | succ f ih =>
    cases g with
    | zero => omega
    | succ g =>
      unfold processHeaders
      cases hread : s.readln with
      | none => rfl
      | some r =>
        obtain ⟨line, u⟩ := r
        have hshorter := length_inbuf_of_readln hread
        dsimp only
        split_ifs
        · rfl
        · cases hline : u.headerLine (cString line) with
          | error e => rfl
          | ok v =>
            obtain ⟨queue, rfl⟩ := headerLine_eq_ok hline
            exact ih (by dsimp only; omega) (by dsimp only; omega)

/-- The server reads the position that was asked for. -/
theorem firstBytePosOf_rangeLine {k : ℕ} (hk : k < 2 ^ 31) :
    isRange (rangeLine k) = true ∧ firstBytePosOf (rangeLine k) = .ok (k : ℤ) := by
  rw [rangeLine_eq]
  constructor
  · exact caselessPrefix_append_self _ _
  · rw [firstBytePosOf, List.drop_left' (by decide), parseRange_decimal hk]
    simp

/-- In the headers, the headers are processed. -/
theorem extractRequest_headers (hstate : s.httpReqState = .headers) :
    s.extractRequest = processHeaders (s.inbuf.length + 1) s := by
  unfold extractRequest
  split_ifs with hempty
  · rw [processHeaders_of_isLine]
    rw [hempty]
    simp [IsLine, crlf]
  · rw [hstate]

/-- The line is taken out of `inbuf_`, and its position goes to the last request. -/
theorem processInbuf_rangeLine {k : ℕ} (hk : k < 2 ^ 31) {reqs : List RequestInfo}
    {req : RequestInfo} {rest : Bytes} (hstate : s.httpReqState = .headers)
    (hqueue : s.submittedReqQueue = reqs ++ [req])
    (hinbuf : s.inbuf = rangeLine k ++ (crlf ++ rest)) :
    s.processInbuf = { s with
      inbuf := rest
      submittedReqQueue := reqs ++ [{ req with firstBytePos := k }] }.processInbuf := by
  obtain ⟨hrange, hfirst⟩ := firstBytePosOf_rangeLine hk
  have hread : s.readln = some (rangeLine k, { s with inbuf := rest }) := by
    rw [readln, hinbuf, findCrlf_line (isText_rangeLine k).isLine]
    simp [crlf]
  have hne : rangeLine k ≠ [] := by simp [rangeLine, decimal_ne_nil]
  have hline : headerLine { s with inbuf := rest } (rangeLine k) = .ok { s with
      inbuf := rest
      submittedReqQueue := reqs ++ [{ req with firstBytePos := k }] } := by
    simp only [headerLine, hrange, hfirst, if_true, setFirstBytePos, hqueue]
    simp
  have hextract : ∀ u : Handler, headerLine { s with inbuf := rest } (rangeLine k) = .ok u →
      u.inbuf = rest → u.httpReqState = .headers → s.extractRequest = u.extractRequest := by
    intro u hu hrest hheaders
    rw [extractRequest_headers hstate, extractRequest_headers hheaders, processHeaders, hread]
    simp only [(isText_rangeLine k).cString, hne, if_false, hu]
    refine processHeaders_fuel ?_ (Nat.lt_succ_self _)
    rw [hinbuf, hrest]
    simp [crlf]
    omega
  rw [processInbuf, hextract _ hline rfl hstate]
  rfl

end Handler

/-! ## The response -/

namespace HttpConnection

variable {E : Evbuffer} {c : HttpConnection E} {active found : Bool} {name value rest : Bytes}

/-- A round that does not ask for more is followed by another one. -/
theorem rounds_of_ok {n : ℕ} {h h' : Handled E} (hmore : h.readMore = false)
    (hstep : h.conn.handleResponse active h.contentRangeFound = .ok h') :
    rounds active (n + 1) h = rounds active n { h' with notices := h.notices ++ h'.notices } := by
  rw [rounds, hmore, hstep]
  simp

/-- The first line and the buffer behind it. -/
theorem readln_text {b : E.Buf} {line : Bytes} (hline : IsText line)
    (hb : E.bytes b = line ++ (crlf ++ rest)) :
    ∃ b', E.readln b = some (line, b') ∧ E.bytes b' = rest := by
  refine ⟨_, Evbuffer.readln_eq_some hline.isLine hb, ?_⟩
  rw [Evbuffer.bytes_drain, hb, ← List.append_assoc]
  exact List.drop_left' (by simp [crlf])

/-- The name and the value of a header. -/
theorem splitHeader_text (hname : IsText name) (hcolon : 58 ∉ name) (hvalue : IsText value) :
    splitHeader (name ++ (ascii ": " ++ value)) = .ok (name, value) := by
  have hsep : ascii ": " = [58, 32] := by decide
  have hnone : ∀ b ∈ name, b ≠ 58 ∧ b ≠ 0 := fun b hb =>
      ⟨ne_of_mem_of_not_mem hb hcolon, (hname b hb).1⟩
  rw [hsep, List.cons_append, List.singleton_append, splitHeader_header hnone, hvalue.cString]

/-- A round that takes a header line. -/
theorem handleResponse_header (active found : Bool) (hstate : c.rspState = .headers)
    (hname : IsText name) (hvalue : IsText value)
    (hinbuf : E.bytes c.inbuf = name ++ (ascii ": " ++ value) ++ (crlf ++ rest)) :
    ∃ b, E.bytes b = rest ∧ c.handleResponse active found =
      (headerLine { c with inbuf := b } (name ++ (ascii ": " ++ value)) found).map fun r =>
        { conn := r.1, contentRangeFound := r.2, notices := [], readMore := false } := by
  have htext : IsText (name ++ (ascii ": " ++ value)) :=
    hname.append ((by decide : IsText _).append hvalue)
  obtain ⟨b, hread, hb⟩ := readln_text htext hinbuf
  have hne : name ++ (ascii ": " ++ value) ≠ [] := by simp [ascii]
  refine ⟨b, hb, ?_⟩
  have hround : c.handleResponse active found = c.handleHeaders active found := by
    simp only [handleResponse, hstate]
  rw [hround]
  simp only [handleHeaders, hread, htext.cString, hne, if_false]
  cases headerLine { c with inbuf := b } (name ++ (ascii ": " ++ value)) found with
  | error f => rfl
  | ok r => rfl

/-- The round is over, `hdrs` were read and `rest` is left in `inbuf_`. -/
structure InHeader (h : Handled E) (first : ℕ) (hdrs : List (Bytes × Bytes)) (len : ℤ)
    (found : Bool) (rest : Bytes) : Prop where
  state : h.conn.rspState = .headers
  status : h.conn.rspStatus = 206
  hdrs : h.conn.rspHdrs = hdrs
  first : h.conn.firstBytePos = first
  len : h.conn.bodyLen = len
  found : h.contentRangeFound = found
  notices : h.notices = []
  more : h.readMore = false
  inbuf : E.bytes h.conn.inbuf = rest

variable {h : Handled E} {n first : ℕ} {hdrs : List (Bytes × Bytes)} {len : ℤ}

/-- A header line is read, and what follows it is left. -/
theorem InHeader.header (name value : Bytes) (len' : ℤ) (found' : Bool)
    (hh : InHeader h first hdrs len found (name ++ (ascii ": " ++ value) ++ (crlf ++ rest)))
    (hname : IsText name) (hvalue : IsText value)
    (hline : ∀ b : E.Buf,
      headerLine (E := E) { h.conn with inbuf := b } (name ++ (ascii ": " ++ value)) found =
        .ok ({ h.conn with
          inbuf := b, rspHdrs := h.conn.rspHdrs ++ [(name, value)], bodyLen := len' }, found')) :
    ∃ h', rounds true (n + 1) h = rounds true n h' ∧
      InHeader h' first (hdrs ++ [(name, value)]) len' found' rest := by
  obtain ⟨b, hb, hround⟩ := handleResponse_header true found hh.state hname hvalue hh.inbuf
  rw [hline b] at hround
  refine ⟨_, rounds_of_ok hh.more (hh.found.symm ▸ hround), ?_⟩
  constructor
  · exact hh.state
  · exact hh.status
  · exact congrArg (· ++ [(name, value)]) hh.hdrs
  · exact hh.first
  · rfl
  · rfl
  · exact congrArg (· ++ []) hh.notices
  · rfl
  · exact hb

/-- The blank line behind the headers. -/
theorem InHeader.blank (hh : InHeader h first hdrs len true (crlf ++ rest)) (hlen : 0 ≤ len) :
    ∃ h', rounds true (n + 1) h = rounds true n h' ∧ h'.notices = [.rspMeta 206 hdrs] ∧
      h'.contentRangeFound = true ∧ h'.conn.rspState = .body ∧ h'.conn.bodyLen = len ∧
      E.bytes h'.conn.inbuf = rest ∧ h'.readMore = false := by
  have hblank : IsText [] := by decide
  obtain ⟨b, hread, hb⟩ := readln_text hblank hh.inbuf
  have hround : h.conn.handleResponse true h.contentRangeFound = .ok
      { conn := { h.conn with inbuf := b, rspHdrs := [], rspState := .body }
        contentRangeFound := true
        notices := [.rspMeta 206 hdrs]
        readMore := false } := by
    have hnot : ¬h.conn.bodyLen < 0 := by
      rw [hh.len]
      omega
    simp [handleResponse, hh.state, handleHeaders, hread, cString, hnot, hh.found, hh.status,
      hh.hdrs]
  refine ⟨_, rounds_of_ok hh.more hround, ?_, rfl, rfl, hh.len, hb, rfl⟩
  rw [hh.notices, List.nil_append]

/-- `content-length` -/
theorem headerLine_contentLength {len : ℕ} (hlen : len < 2 ^ 63) :
    c.headerLine (ascii "Content-Length" ++ (ascii ": " ++ decimal len)) found =
      .ok ({ c with
        rspHdrs := c.rspHdrs ++ [(ascii "Content-Length", decimal len)], bodyLen := len },
        found) := by
  have hvalue : strtol (decimal len) = len := by
    have hread : strtol (decimal len ++ []) = len := strtol_decimal_append hlen (by simp)
    rwa [List.append_nil] at hread
  have hname : caselessEq (ascii "Content-Length") (ascii "content-length") = true := by decide
  rw [headerLine, splitHeader_text (by decide) (by decide) (isText_decimal len)]
  simp only [hname, if_true, hvalue]

/-- A header that the client does not look at. -/
theorem headerLine_contentType {type : Bytes} (htype : IsText type) :
    c.headerLine (ascii "Content-Type" ++ (ascii ": " ++ type)) found =
      .ok ({ c with rspHdrs := c.rspHdrs ++ [(ascii "Content-Type", type)] }, found) := by
  have hlength : caselessEq (ascii "Content-Type") (ascii "content-length") = false := by decide
  have hrange : caselessEq (ascii "Content-Type") (ascii "content-range") = false := by decide
  rw [headerLine, splitHeader_text (by decide) (by decide) htype]
  simp only [hlength, hrange, Bool.false_eq_true, if_false]

/-- `content-range`, with the position that is expected. -/
theorem headerLine_contentRange {first last full : ℕ} (hvalue : IsText value)
    (hparsed : parseContentRange value = .ok (some (first, last, full)))
    (hfirst : c.firstBytePos = first) (hfull : full = last + 1) :
    c.headerLine (ascii "Content-Range" ++ (ascii ": " ++ value)) found =
      .ok ({ c with rspHdrs := c.rspHdrs ++ [(ascii "Content-Range", value)] }, true) := by
  have hlength : caselessEq (ascii "Content-Range") (ascii "content-length") = false := by decide
  have hrange : caselessEq (ascii "Content-Range") (ascii "content-range") = true := by decide
  rw [headerLine, splitHeader_text (by decide) (by decide) hvalue]
  simp [hlength, hrange, hparsed, hfirst, hfull]

end HttpConnection

/-- The value of the content range for the part of a file of `n` bytes that begins at `k`. -/
def contentRange (k n : ℕ) : Bytes :=
  ascii "bytes " ++ (decimal k ++ ascii "-" ++ decimal (n - 1) ++ ascii "/" ++ decimal n)

/-- A content range is text. -/
theorem isText_contentRange (k n : ℕ) : IsText (contentRange k n) := by
  have hnumbers : IsText (decimal k ++ ascii "-" ++ decimal (n - 1) ++ ascii "/" ++ decimal n) :=
    ((((isText_decimal k).append (by decide)).append (isText_decimal (n - 1))).append
      (by decide)).append (isText_decimal n)
  exact (by decide : IsText (ascii "bytes ")).append hnumbers

/-- The header of a response with a range. -/
def rangeHead (type : Bytes) (k n : ℕ) : Bytes :=
  joinLines [ascii "HTTP/1.1 206 OK", ascii "Content-Length" ++ (ascii ": " ++ decimal (n - k)),
    ascii "Content-Type" ++ (ascii ": " ++ type),
    ascii "Content-Range" ++ (ascii ": " ++ contentRange k n)] ++ crlf

open HttpConnection in
/-- The client reads the header in five rounds: the status line, three headers, and the blank
line. -/
theorem readsPart_rangeHead {type : Bytes} {k n : ℕ} (htype : IsText type) (hkn : k < n)
    (hn : n < 2 ^ 31) : ReadsPart k n (rangeHead type k n) := by
  intro E c rest hstate hhdrs hfirst hinbuf
  have hparsed : parseContentRange (contentRange k n) = .ok (some (k, (n - 1 : ℕ), n)) :=
    parseContentRange_decimal (by omega) (by omega) hn
  simp only [rangeHead, joinLines_cons, joinLines_nil, List.append_nil, List.append_assoc] at hinbuf
  obtain ⟨b, hread, hb⟩ := readln_text (by decide) hinbuf
  have hstatus : statusOf (cString (ascii "HTTP/1.1 206 OK")) = some 206 := by decide
  obtain ⟨h₁, hround₁, hh₁⟩ : ∃ h₁, rounds true 5 c.begin = rounds true 4 h₁ ∧
      InHeader h₁ k [] c.bodyLen false (E.bytes b) := by
    have hround : c.handleResponse true false = .ok
        { conn := { c with inbuf := b, rspStatus := 206, rspState := .headers }
          contentRangeFound := false, notices := [], readMore := false } := by
      simp only [handleResponse, hstate, handleStatusLine, hread, hstatus]
      rfl
    refine ⟨_, rounds_of_ok (h := c.begin) rfl hround, ?_⟩
    exact ⟨rfl, rfl, hhdrs, hfirst, rfl, rfl, rfl, rfl, rfl⟩
  rw [hb] at hh₁
  obtain ⟨h₂, hround₂, hh₂⟩ := InHeader.header (n := 3) (ascii "Content-Length")
    (decimal (n - k)) (n - k : ℕ) false (by simpa using hh₁) (by decide) (isText_decimal _)
    fun b => headerLine_contentLength (by omega)
  obtain ⟨h₃, hround₃, hh₃⟩ := InHeader.header (n := 2) (ascii "Content-Type") type
    (n - k : ℕ) false (by simpa using hh₂) (by decide) htype
    fun b => by rw [headerLine_contentType htype, hh₂.len]
  obtain ⟨h₄, hround₄, hh₄⟩ := InHeader.header (n := 1) (ascii "Content-Range")
    (contentRange k n) (n - k : ℕ) true (by simpa using hh₃) (by decide)
    (isText_contentRange k n) fun b => by
      rw [headerLine_contentRange (isText_contentRange k n) hparsed, hh₃.len]
      case hfirst => exact hh₃.first
      case hfull => omega
  obtain ⟨h₅, hround₅, hnotices, hfound, hbody, hlen, hrest, -⟩ := hh₄.blank (n := 0) (by omega)
  refine ⟨h₅, type, contentRange k n, ?_, ?_, ?_, hfound, hbody, ?_, hrest⟩
  · rw [hround₁, hround₂, hround₃, hround₄, hround₅]
    rfl
  · simpa using hnotices
  · rw [hparsed]
    congr 4
    omega
  · rw [hlen]
    omega

/-- The header of the server, for a range. -/
theorem header_eq_rangeHead (path : Bytes) {req : RequestInfo} {k n : ℕ}
    (hreq : req.firstBytePos = k) (hkn : k < n) (hn : n < 2 ^ 31) :
    Handler.lastBytePos req n = n - 1 ∧
      Handler.header path req n = rangeHead (Handler.contentType path) k n := by
  have hlength : Handler.contentLength req n = n - k := by
    rw [Handler.contentLength, hreq]
    simp
  have hlast : Handler.lastBytePos req n = n - 1 := by
    rw [Handler.lastBytePos, hlength, hreq, toInt32, Int.bmod_eq_of_le]
    · omega
    · omega
    · omega
  have hlastNat : (Handler.lastBytePos req n).toNat = n - 1 := by omega
  have hsplit : ascii "Content-Range: bytes " =
      ascii "Content-Range" ++ (ascii ": " ++ ascii "bytes ") := by decide
  have hstatus : ascii "HTTP/1.1 " ++ decimal 206 ++ ascii " OK" = ascii "HTTP/1.1 206 OK" := by
    decide
  have hlengthName : ascii "Content-Length: " = ascii "Content-Length" ++ ascii ": " := by decide
  have htypeName : ascii "Content-Type: " = ascii "Content-Type" ++ ascii ": " := by decide
  refine ⟨hlast, ?_⟩
  have hranged : 0 ≤ req.firstBytePos := by omega
  unfold Handler.header rangeHead contentRange
  rw [if_pos hranged, if_pos hranged, hstatus, hlength, hlastNat, hsplit, hlengthName, htypeName,
    hreq]
  simp

/-- The content type is a text, whatever the path is. -/
theorem isText_contentType (path : Bytes) : IsText (Handler.contentType path) := by
  unfold Handler.contentType
  dsimp only
  split_ifs
  · decide
  · decide

/-- The response to a request with a range: the header, and the part of the file that is sent. -/
theorem responseMeta_rangeHead {files : Files} {s : Handler} {req : RequestInfo} {content : Bytes}
    {k n : ℕ} (hfile : files (s.abspath req) = some content) (hlength : content.length = n)
    (hreq : req.firstBytePos = k) (hfd : s.activeFd = none) (hkn : k < n) (hn : n < 2 ^ 31) :
    s.responseMeta files req = .ok { s with
      outbuf := s.outbuf ++ rangeHead (Handler.contentType (s.abspath req)) k n
      httpRspState := .body
      activeFd := some (content.drop k)
      numRespBodyBytesExpectedToSend := n - k
      numBodyBytesRead := 0 } := by
  obtain ⟨hlast, hhead⟩ := header_eq_rangeHead (s.abspath req) hreq hkn hn
  have hne : content ≠ [] := by
    rintro rfl
    simp at hlength
    omega
  have hcontent : Handler.contentLength req n = n - k := by
    rw [Handler.contentLength, hreq]
    simp
  unfold Handler.responseMeta
  rw [hfile]
  simp only [hne, if_false, hlength, hlast, hhead, hcontent, hfd, hreq]
  rw [if_neg (by omega)]
  simp [hkn]

/-- The negotiation of a range round-trips for every position inside a file, up to the greatest
`int`. -/
theorem negotiates (k n : ℕ) (hk : 0 < k) (hkn : k < n) (hn : n ≤ 2 ^ 31 - 1) : Negotiates k n := by
  have hn' : n < 2 ^ 31 := by omega
  constructor
  · exact requestText_rangeLine hk
  · rw [rangeLine_eq, List.drop_left' (by decide)]
    exact parseRange_decimal (by omega)
  · intro s reqs req rest hstate hqueue hinbuf
    exact Handler.processInbuf_rangeLine (by omega) hstate hqueue hinbuf
  · intro files s req content hfile hlength hreq hfd
    refine ⟨_, _, responseMeta_rangeHead hfile hlength hreq hfd hkn hn', rfl, rfl, rfl, ?_⟩
    exact readsPart_rangeHead (isText_contentType _) hkn hn'

/-- The last byte of the longest file whose positions are `int`s. -/
theorem negotiates_lastByte : Negotiates (2 ^ 31 - 2) (2 ^ 31 - 1) :=
  negotiates (2 ^ 31 - 2) (2 ^ 31 - 1) (by decide) (by decide) (by decide)

end ShadowExtras.Web
