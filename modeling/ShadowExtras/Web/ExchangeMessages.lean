import ShadowExtras.Web.Demultiplexing
import ShadowExtras.Web.HandlerSegments
import ShadowExtras.Web.RangeNegotiation

/-!
# The messages between the client and the web server

Each side has its own description of a message: the client prints what is `Asked` for and parses an
`HttpResponse`, the server parses an `HttpRequest` and sends the `responseOf` what it found. Here
they are compared. A request for a path without blanks is well-formed for the server, which reads
from it what was asked for (`info_request`); a response of the server is one for the client, and its
content is the part of the file (`text_fileResponse`).
-/

namespace ShadowExtras.Web

open Foundation HttpConnection

/-! ## Requests -/

/-- A line with a header. -/
def nameValueLine (header : Bytes × Bytes) : Bytes := header.1 ++ ascii ": " ++ header.2

namespace Asked

variable {a : Asked}

/-- The lines that `http_write_to_outbuf` prints. -/
def request (a : Asked) : HttpRequest where
  line := ascii "GET " ++ a.path ++ ascii " HTTP/1.1"
  headers := a.headers.map nameValueLine ++
    if 0 < a.firstBytePos then [rangeLine a.firstBytePos] else []

/-- What the server should read: no range for the position zero. -/
def wanted (a : Asked) : RequestInfo where
  path := a.path
  firstBytePos := if 0 < a.firstBytePos then a.firstBytePos else -1

/-- A path without blanks and header lines that are no ranges. -/
structure Plain (a : Asked) : Prop where
  slash : a.path.head? = some 47
  path : IsText a.path
  noBlank : 32 ∉ a.path
  headers : ∀ h ∈ a.headers, IsText (nameValueLine h) ∧ Handler.isRange (nameValueLine h) = false
  firstBytePos : a.firstBytePos < 2 ^ 31

/-- The lines are those of the text. -/
theorem text_request (a : Asked) : a.request.text = a.text := by
  have hheaders : joinLines (a.headers.map nameValueLine) =
      (a.headers.map fun h => h.1 ++ ascii ": " ++ h.2 ++ crlf).flatten := by
    unfold joinLines
    rw [List.map_map]
    rfl
  unfold HttpRequest.text Asked.text requestText request
  simp only [joinLines_append, hheaders]
  split_ifs
  · simp [rangeLine, joinLines]
  · simp [joinLines]

/-- A blank is not found where there is none. -/
theorem clashAll_blank {s : Bytes} (h : 32 ∉ s) : clashAll [32] s = true := by
  refine clashAll_of_forall_ne fun b hb heq => ?_
  have hblank : toLower 32 = 32 := by decide
  rw [hblank] at heq
  unfold toLower at heq
  split_ifs at heq with hupper
  · have hsum : (b + 32).toNat = (32 : Byte).toNat := by rw [← heq]
    obtain ⟨h65, h90⟩ := hupper
    rw [UInt8.le_iff_toNat_le] at h65 h90
    rw [UInt8.toNat_add] at hsum
    have hsize : (32 : Byte).toNat = 32 := rfl
    have hsize' : (65 : Byte).toNat = 65 := rfl
    have hsize'' : (90 : Byte).toNat = 90 := rfl
    omega
  · exact h (heq ▸ hb)

theorem isText_line (h : a.Plain) : IsText a.request.line :=
  ((by decide : IsText (ascii "GET ")).append h.path).append (by decide)

/-- The server finds the path in the request line. -/
theorem relpath_line (h : a.Plain) : Handler.relpath a.request.line = .ok a.path := by
  have hfound : strcasestr (ascii "GET ") a.request.line = some 0 := by
    unfold request
    rw [List.append_assoc]
    exact strcasestr_of_caselessPrefix (caselessPrefix_append_self _ _)
  have hrest : a.request.line.drop (0 + 4) = a.path ++ ascii " HTTP/1.1" := by
    unfold request
    rw [List.append_assoc]
    exact List.drop_left' (by decide)
  have hend : strcasestr [32] (a.path ++ ascii " HTTP/1.1") = some a.path.length := by
    have hblank : strcasestr [32] (ascii " HTTP/1.1") = some 0 := by decide
    rw [strcasestr_append_of_clashAll (clashAll_blank h.noBlank), hblank]
    simp
  have hhead : (a.path ++ ascii " HTTP/1.1").head? = some 47 := by
    rw [List.head?_append, h.slash]
    rfl
  unfold Handler.relpath
  rw [hfound]
  dsimp only
  rw [hrest, hend, if_neg (by simp [hhead])]
  dsimp only
  rw [List.take_left]

theorem path_request (h : a.Plain) : a.request.path = a.path := by
  unfold HttpRequest.path
  rw [(isText_line h).cString, relpath_line h]

/-- The server understands the request. -/
theorem wellFormed_request (h : a.Plain) : a.request.WellFormed := by
  refine ⟨(isText_line h).isLine, ?_, fun l hl => ?_⟩
  · rw [(isText_line h).cString, relpath_line h, path_request h]
  · rcases List.mem_append.mp hl with hheader | hrange
    · obtain ⟨header, hmem, rfl⟩ := List.mem_map.mp hheader
      obtain ⟨htext, hno⟩ := h.headers header hmem
      refine ⟨htext.isLine, ?_, fun hisRange => ?_⟩
      · rw [htext.cString]
        simp [nameValueLine, ascii]
      · rw [htext.cString, hno] at hisRange
        cases hisRange
    · split_ifs at hrange with hpos
      · obtain rfl := List.mem_singleton.mp hrange
        have htext := isText_rangeLine a.firstBytePos
        refine ⟨htext.isLine, ?_, fun _ => ?_⟩
        · rw [htext.cString]
          simp [rangeLine, ascii]
        · rw [htext.cString]
          exact ⟨_, (Handler.firstBytePosOf_rangeLine h.firstBytePos).2⟩
      · cases hrange

/-- Headers that are no ranges leave the position alone. -/
theorem foldl_rangeStep_of_plain {headers : List (Bytes × Bytes)} (first : ℤ)
    (h : ∀ h ∈ headers, IsText (nameValueLine h) ∧ Handler.isRange (nameValueLine h) = false) :
    (headers.map nameValueLine).foldl HttpRequest.rangeStep first = first := by
  induction headers with
  | nil => rfl
  | cons header headers ih =>
    obtain ⟨htext, hno⟩ := h header (by simp)
    have hstep : HttpRequest.rangeStep first (nameValueLine header) = first := by
      simp [HttpRequest.rangeStep, htext.cString, hno]
    rw [List.map_cons, List.foldl_cons, hstep]
    exact ih fun header hmem => h header (List.mem_cons_of_mem _ hmem)

/-- The server reads what was asked for. -/
theorem info_request (h : a.Plain) : a.request.info = a.wanted := by
  unfold HttpRequest.info wanted
  rw [path_request h]
  congr 1
  unfold request
  rw [List.foldl_append, foldl_rangeStep_of_plain (-1) h.headers]
  split_ifs
  · obtain ⟨hrange, hfirst⟩ := Handler.firstBytePosOf_rangeLine h.firstBytePos
    simp [HttpRequest.rangeStep, (isText_rangeLine a.firstBytePos).cString, hrange, hfirst]
  · rfl

end Asked

/-! ## Responses -/

variable {files : Files} {docroot : Bytes}

/-- Files whose positions are `int`s. -/
def SmallFiles (files : Files) : Prop := ∀ path, ∀ content ∈ files path, content.length < 2 ^ 31

/-- A part of a small file is small. -/
theorem length_partOf_lt (h : SmallFiles files) (req : RequestInfo) :
    (partOf files docroot req).length < 2 ^ 31 := by
  have hfile : (fileOf files docroot req).length < 2 ^ 31 := by
    unfold fileOf
    cases hpath : files (docroot ++ req.path) with
    | none => decide
    | some content => exact h (docroot ++ req.path) content hpath
  rw [partOf, List.length_drop]
  omega

/-- The status line of a response. -/
def statusLine (req : RequestInfo) : Bytes :=
  ascii "HTTP/1.1 " ++ (if 0 ≤ req.firstBytePos then ascii "206" else ascii "200") ++ ascii " OK"

/-- The header lines of a response. -/
def headersOf (files : Files) (docroot : Bytes) (req : RequestInfo) : List Bytes :=
  [ascii "Content-Length" ++ (ascii ": " ++ decimal (partOf files docroot req).length),
    ascii "Content-Type" ++ (ascii ": " ++ Handler.contentType (docroot ++ req.path))] ++
  if 0 ≤ req.firstBytePos then
    [ascii "Content-Range" ++ (ascii ": " ++ contentRange req.firstBytePos.toNat
      (fileOf files docroot req).length)]
  else []

/-- The lines of a response. -/
theorem responseLines_eq (req : RequestInfo) :
    responseLines files docroot req = statusLine req :: headersOf files docroot req := by
  have hlength : ascii "Content-Length: " = ascii "Content-Length" ++ ascii ": " := by decide
  have htype : ascii "Content-Type: " = ascii "Content-Type" ++ ascii ": " := by decide
  have hrange : ascii "Content-Range: bytes " = ascii "Content-Range" ++
      (ascii ": " ++ ascii "bytes ") := by
    decide
  unfold responseLines statusLine headersOf contentRange
  rw [hlength, htype, hrange]
  split_ifs <;> simp

/-- The status line is text. -/
theorem isText_statusLine (req : RequestInfo) : IsText (statusLine req) := by
  unfold statusLine
  split_ifs
  · decide
  · decide

/-- The lines are texts that are not blank. -/
theorem isText_of_mem_headersOf {req : RequestInfo} {l : Bytes}
    (hl : l ∈ headersOf files docroot req) :
    IsText l ∧ l ≠ [] := by
  have hline : ∀ {name value : Bytes}, IsText name → name ≠ [] → IsText value →
      IsText (name ++ (ascii ": " ++ value)) ∧ name ++ (ascii ": " ++ value) ≠ [] :=
    fun hname hne hvalue =>
      ⟨hname.append ((by decide : IsText (ascii ": ")).append hvalue), by simp [hne]⟩
  rcases List.mem_append.mp hl with hfirst | hrange
  · rcases List.mem_pair.mp hfirst with rfl | rfl
    · exact hline (by decide) (by decide) (isText_decimal _)
    · exact hline (by decide) (by decide) (isText_contentType _)
  · split_ifs at hrange
    · obtain rfl := List.mem_singleton.mp hrange
      exact hline (by decide) (by decide) (isText_contentRange _ _)
    · cases hrange

/-- A header other than `Content-Length` leaves the length alone. -/
theorem bodyLenStep_of_ne {name value : Bytes} (len : ℤ) (hname : IsText name) (hcolon : 58 ∉ name)
    (hvalue : IsText value) (hno : caselessEq name (ascii "content-length") = false) :
    bodyLenStep len (name ++ (ascii ": " ++ value)) = len := by
  unfold bodyLenStep
  rw [splitHeader_text hname hcolon hvalue]
  simp [hno]

/-- The client reads the length of the part that is sent. -/
theorem foldl_bodyLenStep_headersOf (h : SmallFiles files) (req : RequestInfo) :
    (headersOf files docroot req).foldl bodyLenStep (-1) = (partOf files docroot req).length := by
  have hlength : bodyLenStep (-1) (ascii "Content-Length" ++
      (ascii ": " ++ decimal (partOf files docroot req).length)) =
        (partOf files docroot req).length := by
    have hsmall : (partOf files docroot req).length < 2 ^ 63 := by
      have : (partOf files docroot req).length < 2 ^ 31 := length_partOf_lt h req
      omega
    have hvalue : strtol (decimal (partOf files docroot req).length) =
        (partOf files docroot req).length := by
      have hread : strtol (decimal (partOf files docroot req).length ++ []) =
          (partOf files docroot req).length := strtol_decimal_append hsmall (by simp)
      rwa [List.append_nil] at hread
    have hname : caselessEq (ascii "Content-Length") (ascii "content-length") = true := by decide
    unfold bodyLenStep
    rw [splitHeader_text (by decide) (by decide) (isText_decimal _)]
    simp only [hname, if_true, hvalue]
  have htype := bodyLenStep_of_ne (partOf files docroot req).length
      (by decide : IsText (ascii "Content-Type"))
    (by decide) (isText_contentType (docroot ++ req.path)) (by decide)
  have hrange := bodyLenStep_of_ne (partOf files docroot req).length
      (by decide : IsText (ascii "Content-Range"))
    (by decide) (isText_contentRange req.firstBytePos.toNat (fileOf files docroot req).length)
      (by decide)
  unfold headersOf
  simp only [List.cons_append, List.nil_append, List.foldl_cons, hlength, htype]
  split_ifs
  · rw [List.foldl_cons, hrange, List.foldl_nil]
  · rfl

/-- The response to a request, as the client takes it. -/
def fileResponse (docroot : Bytes) (h : SmallFiles files) (req : RequestInfo) : HttpResponse where
  status := statusLine req
  lines := headersOf files docroot req
  content := partOf files docroot req
  isLine := (isText_statusLine req).isLine
  headers :=
    { isLine := fun _ hl => (isText_of_mem_headersOf hl).1.isLine
      notBlank := fun _ hl => by
        rw [(isText_of_mem_headersOf hl).1.cString]
        exact (isText_of_mem_headersOf hl).2
      length := foldl_bodyLenStep_headersOf h req }

/-- It is what the server sends. -/
theorem text_fileResponse (h : SmallFiles files) (req : RequestInfo) :
    (fileResponse docroot h req).text = responseOf files docroot req := by
  unfold responseOf
  rw [responseLines_eq, joinLines_cons]
  unfold HttpResponse.text fileResponse
  simp only [List.append_assoc]

/-- The same for responses in their order. -/
theorem texts_fileResponse (h : SmallFiles files) (reqs : List RequestInfo) :
    HttpResponse.texts (reqs.map (fileResponse docroot h)) = responses files docroot reqs := by
  unfold HttpResponse.texts responses
  rw [List.map_map]
  congr 1
  exact List.map_congr_left fun req _ => text_fileResponse h req

end ShadowExtras.Web
