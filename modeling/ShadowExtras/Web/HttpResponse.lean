import ShadowExtras.Web.HttpConnection

/-!
# A response in the parser

A response to a request is a status line, header lines whose last `Content-Length` is the length of
the body, a blank line and the body. `Lacks` says of a connection in the middle of a response what
is left of it: in the state of the parser, and in the bytes that are in `inbuf_` or have not been
received. A round of the parser that does not fail hands out a first part of the body and leaves the
rest of the response; the request is told that the response is complete just when nothing is left.
-/

namespace ShadowExtras.Web

open Foundation

/-! ## Responses -/

namespace HttpConnection

/-- The member `body_len_` behind a header line. -/
def bodyLenStep (bodyLen : Int) (line : Bytes) : Int :=
  match splitHeader line with
  | .error _ => bodyLen
  | .ok (name, value) =>
    if caselessEq name (ascii "content-length") then strtol value else bodyLen

/-- Header lines behind which `body_len_` is the length of the body. -/
structure HeaderLines (bodyLen : Int) (lines : List Bytes) (content : Bytes) : Prop where
  isLine : ∀ l ∈ lines, IsLine l
  notBlank : ∀ l ∈ lines, cString l ≠ []
  length : lines.foldl bodyLenStep bodyLen = content.length

/-- A response with this body. -/
def IsResponse (content stream : Bytes) : Prop :=
  ∃ status lines, IsLine status ∧ HeaderLines (-1) lines content ∧
    stream = status ++ (crlf ++ (joinLines lines ++ (crlf ++ content)))

variable {E : Evbuffer}

/-- The response that is received still lacks `content`: its rest is `stream`. -/
def Lacks (c : HttpConnection E) (content stream : Bytes) : Prop :=
  match c.rspState with
  | .statusLine => c.bodyLen = -1 ∧ IsResponse content stream
  | .headers => ∃ lines, HeaderLines c.bodyLen lines content ∧
      stream = joinLines lines ++ (crlf ++ content)
  | .body => c.bodyLen = content.length ∧ stream = content

/-- Between two responses. -/
structure AtRest (c : HttpConnection E) : Prop where
  rspState : c.rspState = .statusLine
  bodyLen : c.bodyLen = -1
  inbuf : E.bytes c.inbuf = []

theorem atRest_new (E : Evbuffer) : (HttpConnection.new E).AtRest :=
  ⟨rfl, rfl, Evbuffer.bytes_new⟩

/-! ## Header lines -/

/-- The string of a header line. -/
theorem cString_header {name : Bytes} (hname : ∀ b ∈ name, b ≠ 58 ∧ b ≠ 0) (value : Bytes) :
    cString (name ++ (58 :: 32 :: value)) = name ++ (58 :: 32 :: cString value) := by
  have hfront : ∀ b ∈ name ++ [58, 32], b ≠ 0 := by
    intro b hb
    rcases List.mem_append.mp hb with hb | hb
    · exact (hname b hb).2
    · rcases List.mem_pair.mp hb with rfl | rfl
      · decide
      · decide
  have hsplit (rest : Bytes) : name ++ (58 :: 32 :: rest) = name ++ [58, 32] ++ rest := by
    rw [List.append_assoc, List.cons_append, List.singleton_append]
  rw [hsplit, cString_append_of_forall hfront, ← hsplit]

/-- A header is cut at the colon. -/
theorem splitHeader_header {name : Bytes} (hname : ∀ b ∈ name, b ≠ 58 ∧ b ≠ 0) (value : Bytes) :
    splitHeader (name ++ (58 :: 32 :: value)) = .ok (name, cString value) := by
  have htake : (name ++ (58 :: 32 :: cString value)).takeWhile (fun b => b != 58) = name := by
    rw [List.takeWhile_append_of_pos fun b hb => by simpa using (hname b hb).1]
    simp
  have hdrop : (name ++ (58 :: 32 :: value)).drop (name.length + 2) = value := by
    rw [← List.drop_drop, List.drop_left]
    rfl
  unfold splitHeader
  rw [cString_header hname, htake]
  simp only [hdrop, List.length_append, List.length_cons]
  rw [if_neg (by omega), if_neg (by omega)]

/-! ## Notices -/

/-- The body bytes of a notice. -/
def bodyData : Notice → Bytes
  | .rspBodyData data => data
  | _ => []

/-- The body bytes of notices. -/
def bodyBytes (notices : List Notice) : Bytes := (notices.map bodyData).flatten

theorem bodyBytes_rspBodyData (data : List Bytes) :
    bodyBytes (data.map Notice.rspBodyData) = data.flatten := by
  simp [bodyBytes, bodyData, Function.comp_def]

@[simp] theorem bodyBytes_nil : bodyBytes [] = [] := rfl

@[simp] theorem bodyBytes_rspMeta (status : Int) (headers : List (Bytes × Bytes)) :
    bodyBytes [.rspMeta status headers] = [] := rfl

@[simp] theorem bodyBytes_append_rspBodyDone (notices : List Notice) :
    bodyBytes (notices ++ [.rspBodyDone]) = bodyBytes notices := by
  simp [bodyBytes, bodyData]

/-- The parts of the extents are the first bytes of the content. -/
theorem flatten_consumed (len : Nat) (es : List Bytes) :
    (consumed len es).flatten = es.flatten.take len := by
  induction es generalizing len with
  | nil => simp [consumed]
  | cons e es ih => rw [consumed, List.flatten_cons, ih, List.flatten_cons, List.take_append]

/-! ## What is received -/

/-- Nothing is committed when every `recv` would block or finds the end. -/
theorem recvLoop_of_forall {sizes : List Nat} {results : List NumRead} {stream : Bytes} {f : Filled}
    (hnone : ∀ n, .bytes n ∈ results → stream.take n = [])
    (hstep : recvLoop sizes results stream = .ok f) :
    f.numToCommit = 0 ∧ f.rest = stream := by
  induction sizes generalizing results f with
  | nil =>
    cases results <;> simp only [recvLoop] at hstep <;>
      obtain rfl := Except.ok.inj hstep <;> exact ⟨rfl, rfl⟩
  | cons size sizes ih =>
    cases results with
    | nil =>
      simp only [recvLoop] at hstep
      obtain rfl := Except.ok.inj hstep
      exact ⟨rfl, rfl⟩
    | cons result results =>
      cases result with
      | error => simp [recvLoop] at hstep
      | wouldBlock held =>
        simp only [recvLoop] at hstep
        split at hstep
        · simp at hstep
        · rename_i g hrec
          obtain rfl := Except.ok.inj hstep
          have hg : g.numToCommit = 0 ∧ g.rest = stream :=
            ih (fun n hn => hnone n (List.mem_cons_of_mem _ hn)) hrec
          exact hg
      | bytes n =>
        have hnil : stream.take (min n (min size nToAdd)) = [] := by
          rw [Nat.min_comm, ← List.take_take, hnone n List.mem_cons_self, List.take_nil]
        simp only [recvLoop, hnil, if_true] at hstep
        obtain rfl := Except.ok.inj hstep
        exact ⟨rfl, rfl⟩

/-- When nothing is received behind a vector that was passed over, what is committed is what was
received. -/
theorem recvLoop_spec {sizes : List Nat} {results : List NumRead} {stream : Bytes} {f : Filled}
    (hno : results.Pairwise fun a b => ∀ held n, a = .wouldBlock held → b = .bytes n → n = 0)
    (hstep : recvLoop sizes results stream = .ok f) :
    FitsInto (f.vectors.take f.numToCommit) sizes ∧
      stream = (f.vectors.take f.numToCommit).flatten ++ f.rest := by
  induction sizes generalizing results stream f with
  | nil =>
    cases results <;> simp only [recvLoop] at hstep <;>
      obtain rfl := Except.ok.inj hstep <;> exact ⟨trivial, rfl⟩
  | cons size sizes ih =>
    cases results with
    | nil =>
      simp only [recvLoop] at hstep
      obtain rfl := Except.ok.inj hstep
      exact ⟨trivial, rfl⟩
    | cons result results =>
      obtain ⟨hfirst, hrest⟩ := List.pairwise_cons.mp hno
      cases result with
      | error => simp [recvLoop] at hstep
      | wouldBlock held =>
        have hnone : ∀ n, .bytes n ∈ results → stream.take n = [] := by
          intro n hn
          rw [hfirst _ hn held n rfl rfl, List.take_zero]
        simp only [recvLoop] at hstep
        split at hstep
        · simp at hstep
        · rename_i g hrec
          obtain rfl := Except.ok.inj hstep
          obtain ⟨hzero, hsame⟩ := recvLoop_of_forall hnone hrec
          simp [hzero, hsame, FitsInto]
      | bytes n =>
        simp only [recvLoop] at hstep
        have hsplit : stream = stream.take (min n (min size nToAdd)) ++
            stream.drop (stream.take (min n (min size nToAdd))).length :=
          (List.prefix_iff_eq_append.mp (List.take_prefix _ stream)).symm
        have hfits : (stream.take (min n (min size nToAdd))).length ≤ size := by
          rw [List.length_take]
          omega
        generalize stream.take (min n (min size nToAdd)) = got at hstep hsplit hfits
        split_ifs at hstep
        · obtain rfl := Except.ok.inj hstep
          exact ⟨trivial, rfl⟩
        · obtain rfl := Except.ok.inj hstep
          exact ⟨⟨hfits, trivial⟩, by simpa using hsplit⟩
        · split at hstep
          · simp at hstep
          · rename_i g hrec
            obtain rfl := Except.ok.inj hstep
            obtain ⟨hfitsRest, hstream⟩ := ih hrest hrec
            refine ⟨⟨hfits, hfitsRest⟩, ?_⟩
            simp only [List.take_succ_cons, List.flatten_cons, List.append_assoc]
            rw [← hstream]
            exact hsplit

/-! ## Rounds of the parser -/

variable {c : HttpConnection E} {h : Handled E} {content stream line : Bytes} {inbuf : E.Buf}
variable {active found : Bool}

/-- What a header line leaves. -/
theorem headerLine_spec {c' : HttpConnection E} {found' : Bool}
    (hstep : c.headerLine line found = .ok (c', found')) :
    c'.inbuf = c.inbuf ∧ c'.rspState = c.rspState ∧ c'.bodyLen = bodyLenStep c.bodyLen line := by
  unfold headerLine at hstep
  unfold bodyLenStep
  cases hsplit : splitHeader line with
  | error f => simp [hsplit] at hstep
  | ok header =>
    obtain ⟨name, value⟩ := header
    simp only [hsplit] at hstep ⊢
    split at hstep
    · rename_i hlength
      obtain ⟨rfl, -⟩ := Prod.mk.inj (Except.ok.inj hstep)
      rw [if_pos hlength]
      exact ⟨rfl, rfl, rfl⟩
    · rename_i hlength
      rw [if_neg hlength]
      split at hstep
      · split at hstep
        · simp at hstep
        · simp at hstep
        · split at hstep
          · obtain ⟨rfl, -⟩ := Prod.mk.inj (Except.ok.inj hstep)
            exact ⟨rfl, rfl, rfl⟩
          · simp at hstep
      · obtain ⟨rfl, -⟩ := Prod.mk.inj (Except.ok.inj hstep)
        exact ⟨rfl, rfl, rfl⟩

/-- What a round leaves of a response that lacks `content`, when `toRecv` is not received yet. -/
structure Progress (h : Handled E) (content toRecv content' : Bytes) : Prop where
  bodyBytes : content = bodyBytes h.notices ++ content'
  done : .rspBodyDone ∈ h.notices ↔ content' = []
  lacks : content' ≠ [] → h.conn.Lacks content' (E.bytes h.conn.inbuf ++ toRecv)
  atRest : content' = [] → h.conn.AtRest ∧ toRecv = []

/-- A round that hands out nothing. -/
theorem progress_of_quiet {toRecv : Bytes} (hcontent : content ≠ [])
    (hquiet : bodyBytes h.notices = [] ∧ .rspBodyDone ∉ h.notices)
    (hlacks : h.conn.Lacks content (E.bytes h.conn.inbuf ++ toRecv)) :
    Progress h content toRecv content := by
  constructor
  · rw [hquiet.1, List.nil_append]
  · exact iff_of_false hquiet.2 hcontent
  · exact fun _ => hlacks
  · exact fun hnil => absurd hnil hcontent

/-- The status line leaves the body to come. -/
theorem Lacks.handleStatusLine {toRecv : Bytes} (hcontent : content ≠ [])
    (hstate : c.rspState = .statusLine) (hc : c.Lacks content (E.bytes c.inbuf ++ toRecv))
    (hstep : c.handleStatusLine found = .ok h) : Progress h content toRecv content := by
  unfold HttpConnection.handleStatusLine at hstep
  cases hread : E.readln c.inbuf with
  | none =>
    simp only [hread] at hstep
    obtain rfl := Except.ok.inj hstep
    exact progress_of_quiet hcontent (by simp) hc
  | some r =>
    obtain ⟨line, inbuf⟩ := r
    simp only [hread] at hstep
    obtain ⟨hline, hbytes⟩ := Evbuffer.bytes_of_readln hread
    simp only [Lacks, hstate] at hc
    obtain ⟨hlen, status, lines, hstatus, hlines, hstream⟩ := hc
    rw [hbytes, List.append_assoc, List.append_assoc] at hstream
    obtain ⟨-, hrest⟩ := line_append_inj hline hstatus hstream
    split at hstep
    · simp at hstep
    · split at hstep
      · simp at hstep
      · obtain rfl := Except.ok.inj hstep
        refine progress_of_quiet hcontent (by simp) ?_
        simp only [Lacks]
        exact ⟨lines, hlen ▸ hlines, hrest⟩

/-- The headers leave the body to come. -/
theorem Lacks.handleHeaders {toRecv : Bytes} (hcontent : content ≠ [])
    (hstate : c.rspState = .headers) (hc : c.Lacks content (E.bytes c.inbuf ++ toRecv))
    (hstep : c.handleHeaders active found = .ok h) : Progress h content toRecv content := by
  unfold HttpConnection.handleHeaders at hstep
  cases hread : E.readln c.inbuf with
  | none =>
    simp only [hread] at hstep
    obtain rfl := Except.ok.inj hstep
    exact progress_of_quiet hcontent (by simp) hc
  | some r =>
    obtain ⟨line, inbuf⟩ := r
    simp only [hread] at hstep
    obtain ⟨hline, hbytes⟩ := Evbuffer.bytes_of_readln hread
    simp only [Lacks, hstate] at hc
    obtain ⟨lines, hlines, hstream⟩ := hc
    rw [hbytes, List.append_assoc, List.append_assoc] at hstream
    rcases line_append_joinLines hline hlines.isLine hstream with ⟨rfl, rfl, hrest⟩ |
        ⟨rest, rfl, hrest⟩
    · -- the blank line
      have hblank : cString [] = [] := rfl
      rw [if_pos hblank] at hstep
      split_ifs at hstep
      obtain rfl := Except.ok.inj hstep
      refine progress_of_quiet hcontent (by simp) ?_
      simp only [Lacks]
      exact ⟨hlines.length, hrest⟩
    · rw [if_neg (hlines.notBlank line (by simp))] at hstep
      split at hstep
      · simp at hstep
      · rename_i c' found' hheader
        obtain rfl := Except.ok.inj hstep
        obtain ⟨hinbuf, hstate', hlen⟩ := headerLine_spec hheader
        refine progress_of_quiet hcontent (by simp) ?_
        simp only [Lacks, hstate', hstate]
        refine ⟨rest, ⟨?_, ?_, ?_⟩, ?_⟩
        · exact fun l hl => hlines.isLine l (by simp [hl])
        · exact fun l hl => hlines.notBlank l (by simp [hl])
        · rw [hlen]
          exact hlines.length
        · rw [hinbuf]
          exact hrest

/-- What is read of the body is not lacking any more. -/
theorem Lacks.handleBody {toRecv : Bytes} (hstate : c.rspState = .body)
    (hc : c.Lacks content (E.bytes c.inbuf ++ toRecv))
    (hstep : c.handleBody active found = .ok h) : Progress h content toRecv toRecv := by
  unfold HttpConnection.handleBody at hstep
  simp only [Lacks, hstate] at hc
  obtain ⟨hlen, hcontent⟩ := hc
  have hlength : content.length = (E.bytes c.inbuf).length + toRecv.length := by
    rw [← hcontent, List.length_append]
  have hdata : (consumed c.bodyLen.toNat (E.peek c.inbuf c.bodyLen.toNat)).flatten =
      E.bytes c.inbuf := by
    rw [flatten_consumed, Evbuffer.take_flatten_peek, List.take_of_length_le (by omega)]
  split_ifs at hstep
  dsimp only at hstep
  rw [hdata] at hstep
  split_ifs at hstep with hzero
  · obtain rfl := Except.ok.inj hstep
    have htoRecv : toRecv = [] := List.length_eq_zero_iff.mp (by omega)
    constructor
    · simp [bodyBytes_rspBodyData, hdata, hcontent]
    · simp [htoRecv]
    · exact fun hne => absurd htoRecv hne
    · exact fun _ => ⟨⟨rfl, rfl, by simp⟩, htoRecv⟩
  · obtain rfl := Except.ok.inj hstep
    have hne : toRecv ≠ [] := by
      rintro rfl
      simp at hlength
      omega
    constructor
    · simp [bodyBytes_rspBodyData, hdata, hcontent]
    · simp [hne]
    · intro _
      simp only [Lacks, hstate, Evbuffer.bytes_drain, List.drop_length, List.nil_append, and_true]
      omega
    · exact fun hnil => absurd hnil hne

/-- A round that does not fail makes progress. -/
theorem Lacks.handleResponse {toRecv : Bytes} (hcontent : content ≠ [])
    (hc : c.Lacks content (E.bytes c.inbuf ++ toRecv))
    (hstep : c.handleResponse active found = .ok h) :
    ∃ content', Progress h content toRecv content' := by
  unfold HttpConnection.handleResponse at hstep
  cases hstate : c.rspState with
  | statusLine =>
    simp only [hstate] at hstep
    exact ⟨content, hc.handleStatusLine hcontent hstate hstep⟩
  | headers =>
    simp only [hstate] at hstep
    exact ⟨content, hc.handleHeaders hcontent hstate hstep⟩
  | body =>
    simp only [hstate] at hstep
    exact ⟨toRecv, hc.handleBody hstate hstep⟩

/-- What a round does: it hands out nothing, the metadata behind the blank line, a part of the body,
or the rest of it. -/
inductive Round (c : HttpConnection E) (active : Bool) (h : Handled E) : Prop
  | quiet (notices : h.notices = []) (before : c.rspState ≠ .body) (after : h.conn.rspState ≠ .body)
  | rspMeta (status : Int) (headers : List (Bytes × Bytes))
      (notices : h.notices = [.rspMeta status headers]) (before : c.rspState = .headers)
      (after : h.conn.rspState = .body) (active : active = true)
  | rspBodyData (data : List Bytes) (notices : h.notices = data.map .rspBodyData)
      (before : c.rspState = .body) (after : h.conn.rspState = .body) (active : active = true)
  | rspBodyDone (data : List Bytes) (notices : h.notices = data.map .rspBodyData ++ [.rspBodyDone])
      (before : c.rspState = .body) (after : h.conn.rspState = .statusLine) (active : active = true)

/-- A round of the parser. -/
theorem round_of_handleResponse (hstep : c.handleResponse active found = .ok h) :
    Round c active h := by
  unfold HttpConnection.handleResponse at hstep
  cases hstate : c.rspState with
  | statusLine =>
    simp only [hstate, HttpConnection.handleStatusLine] at hstep
    split at hstep
    · obtain rfl := Except.ok.inj hstep
      exact .quiet rfl (by simp [hstate]) (by simp [hstate])
    · split at hstep
      · cases hstep
      · split at hstep
        · cases hstep
        · obtain rfl := Except.ok.inj hstep
          exact .quiet rfl (by simp [hstate]) (by simp)
  | headers =>
    simp only [hstate, HttpConnection.handleHeaders] at hstep
    split at hstep
    · obtain rfl := Except.ok.inj hstep
      exact .quiet rfl (by simp [hstate]) (by simp [hstate])
    · split at hstep
      · split at hstep
        · cases hstep
        · split at hstep
          · cases hstep
          · split at hstep
            · cases hstep
            · rename_i hactive
              obtain rfl := Except.ok.inj hstep
              exact .rspMeta _ _ rfl hstate rfl (by simpa using hactive)
      · split at hstep
        · cases hstep
        · rename_i c' found' hheader
          obtain rfl := Except.ok.inj hstep
          obtain ⟨-, hstate', -⟩ := headerLine_spec hheader
          refine .quiet rfl (by simp [hstate]) ?_
          simp [hstate']
  | body =>
    simp only [hstate, HttpConnection.handleBody] at hstep
    split at hstep
    · cases hstep
    · split at hstep
      · cases hstep
      · rename_i hactive
        rw [Bool.not_eq_true', Bool.not_eq_false] at hactive
        split at hstep
        · cases hstep
        · split at hstep
          · obtain rfl := Except.ok.inj hstep
            exact .rspBodyDone _ rfl hstate rfl hactive
          · obtain rfl := Except.ok.inj hstep
            exact .rspBodyData _ rfl hstate rfl hactive

/-- Without a byte of the body in `inbuf_` a round hands out nothing. -/
theorem quiet_of_no_body (hbody : c.rspState = .body → E.bytes c.inbuf = [])
    (hstep : c.handleResponse active found = .ok h) :
    bodyBytes h.notices = [] ∧ .rspBodyDone ∉ h.notices := by
  unfold HttpConnection.handleResponse at hstep
  cases hstate : c.rspState with
  | statusLine =>
    simp only [hstate, HttpConnection.handleStatusLine] at hstep
    repeat' split at hstep
    all_goals first | (simp at hstep; done) | (obtain rfl := Except.ok.inj hstep; simp)
  | headers =>
    simp only [hstate, HttpConnection.handleHeaders] at hstep
    repeat' split at hstep
    all_goals first | (simp at hstep; done) | (obtain rfl := Except.ok.inj hstep; simp)
  | body =>
    simp only [hstate, HttpConnection.handleBody] at hstep
    have hdata : (consumed c.bodyLen.toNat (E.peek c.inbuf c.bodyLen.toNat)).flatten = [] := by
      rw [flatten_consumed, Evbuffer.take_flatten_peek, hbody hstate, List.take_nil]
    rw [hdata] at hstep
    split_ifs at hstep
    · simp at *
      omega
    · obtain rfl := Except.ok.inj hstep
      simp [bodyBytes_rspBodyData, hdata]

/-- A connection between two responses stays there. -/
theorem AtRest.handleResponse (hc : c.AtRest) (hstep : c.handleResponse active found = .ok h) :
    h.conn = c ∧ h.notices = [] ∧ h.readMore = true := by
  have hread : E.readln c.inbuf = none := by
    rw [Evbuffer.readln_eq_none, hc.inbuf]
    simp [IsLine, crlf]
  simp only [HttpConnection.handleResponse, hc.rspState, HttpConnection.handleStatusLine, hread]
    at hstep
  obtain rfl := Except.ok.inj hstep
  exact ⟨rfl, rfl, rfl⟩

end HttpConnection

end ShadowExtras.Web
