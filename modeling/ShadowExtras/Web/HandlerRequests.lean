import ShadowExtras.Web.HandlerSends

/-!
# Requests in the web server

A well-formed stream is the text of requests, one after the other. `Follows` says how far a handler
has come in such a stream: which requests it has taken out of `inbuf_`, and that these are the
requests that it has answered, followed by those in its queue. `process_inbuf_` keeps that, whatever
part of the stream has been received, unless it meets a range of a request that is no longer in the
queue, or a second request when the queue is full.
-/

namespace ShadowExtras.Web

open Foundation

/-! ## Requests -/

/-- The lines of a request. -/
structure HttpRequest where
  line : Bytes
  headers : List Bytes
  deriving DecidableEq, Repr

namespace HttpRequest

/-- The bytes of a request. -/
def text (r : HttpRequest) : Bytes := r.line ++ (crlf ++ (joinLines r.headers ++ crlf))

/-- The bytes of requests, one after the other. -/
def texts (rs : List HttpRequest) : Bytes := (rs.map text).flatten

/-- The path that is asked for. -/
def path (r : HttpRequest) : Bytes :=
  match Handler.relpath (cString r.line) with
  | .error _ => []
  | .ok path => path

/-- The first byte position behind a header line. -/
def rangeStep (first : Int) (line : Bytes) : Int :=
  if Handler.isRange (cString line) then
    match Handler.firstBytePosOf (cString line) with
    | .error _ => first
    | .ok first => first
  else first

/-- What is asked for. -/
def info (r : HttpRequest) : RequestInfo where
  path := r.path
  firstBytePos := r.headers.foldl rangeStep (-1)

/-- A header line that is not blank, and understood if it is a range. -/
structure IsHeader (l : Bytes) : Prop where
  isLine : IsLine l
  notBlank : cString l ≠ []
  range : Handler.isRange (cString l) = true → ∃ first,
    Handler.firstBytePosOf (cString l) = .ok first

/-- A GET request with any headers. -/
structure WellFormed (r : HttpRequest) : Prop where
  isLine : IsLine r.line
  relpath : Handler.relpath (cString r.line) = .ok r.path
  headers : ∀ l ∈ r.headers, IsHeader l

variable {r : HttpRequest} {rs rs' : List HttpRequest}

@[simp] theorem texts_nil : texts [] = [] := rfl

@[simp] theorem texts_cons : texts (r :: rs) =
    r.line ++ (crlf ++ (joinLines r.headers ++ (crlf ++ texts rs))) := by
  simp [texts, text]

@[simp] theorem texts_append : texts (rs ++ rs') = texts rs ++ texts rs' := by
  simp [texts]

end HttpRequest

open HttpRequest

namespace Handler

variable {s t : Handler} {line : Bytes}

/-! ## Lines of `inbuf_` -/

theorem readln_eq_none : s.readln = none ↔ IsLine s.inbuf := by
  rw [readln, Option.map_eq_none_iff, findCrlf_eq_none]

/-- The first line is taken out of `inbuf_`. -/
theorem inbuf_of_readln (h : s.readln = some (line, t)) :
    IsLine line ∧ s.inbuf = line ++ (crlf ++ t.inbuf) ∧ t = { s with inbuf := t.inbuf } := by
  obtain ⟨i, hi, hpair⟩ := Option.map_eq_some_iff.mp h
  obtain ⟨l, rest, hinbuf, hl, rfl⟩ := eq_of_findCrlf_eq_some hi
  obtain ⟨hline, rfl⟩ := Prod.mk.inj hpair
  rw [hinbuf, List.take_left] at hline
  have hdrop : s.inbuf.drop (l.length + 2) = rest := by
    rw [hinbuf, ← List.append_assoc]
    exact List.drop_left' (by simp [crlf])
  refine ⟨hline ▸ hl, ?_, rfl⟩
  rw [hdrop, ← hline]
  exact hinbuf

/-- The lines in `inbuf_` up to the first blank one. -/
def headerLines (inbuf : Bytes) : List Bytes :=
  (splitLines inbuf).1.takeWhile fun l => cString l != []

/-- What `process_inbuf_` leaves alone. -/
structure Kept (s t : Handler) : Prop where
  output : t.output = s.output
  received : t.received = s.received
  deletions : t.deletions = s.deletions

theorem Kept.refl (s : Handler) : Kept s s := ⟨rfl, rfl, rfl⟩

/-- What was answered stays so. -/
theorem Kept.answered (h : Kept s t) : t.answered = s.answered := by
  have houtput := h.output
  simp only [Handler.output, Prod.mk.injEq] at houtput
  exact houtput.2.2.2.2.2.2.2

/-! ## Headers -/

/-- The requests that were taken out of `inbuf_`. -/
def read (s : Handler) : List RequestInfo := s.answered ++ s.submittedReqQueue

/-- In the headers of a request: `lines` are left of it, and `rest` follows it. -/
structure InHeaders (s : Handler) (lines : List Bytes) (rest future : Bytes)
    (before : List RequestInfo) (req : RequestInfo) : Prop where
  state : s.httpReqState = .headers
  stream : s.inbuf ++ future = joinLines lines ++ (crlf ++ rest)
  read : s.read = before ++ [req]

variable {lines : List Bytes} {rest future : Bytes} {before : List RequestInfo} {req : RequestInfo}

/-- The first header line and the others. -/
theorem headerLines_line {l : Bytes} (hl : IsHeader l) (inbuf : Bytes) :
    headerLines (l ++ (crlf ++ inbuf)) = l :: headerLines inbuf := by
  rw [headerLines, splitLines_line hl.isLine,
    List.takeWhile_cons_of_pos (by simpa using hl.notBlank), headerLines]

/-- A header line of the request. -/
theorem InHeaders.headerLine {l : Bytes} {inbuf : Bytes}
    (h : s.InHeaders (l :: lines) rest future before req) (hl : IsHeader l)
    (hinbuf : inbuf ++ future = joinLines lines ++ (crlf ++ rest))
    (hqueue : s.submittedReqQueue = [] → Handler.isRange (cString l) = false) :
    ∃ queue, { s with inbuf := inbuf }.headerLine (cString l) =
        .ok { s with inbuf := inbuf, submittedReqQueue := queue } ∧
      queue.length = s.submittedReqQueue.length ∧
      { s with inbuf := inbuf, submittedReqQueue := queue }.InHeaders lines rest future before
        { req with firstBytePos := rangeStep req.firstBytePos l } := by
  unfold Handler.headerLine rangeStep
  cases hrange : Handler.isRange (cString l) with
  | false => exact ⟨s.submittedReqQueue, rfl, rfl, h.state, hinbuf, h.read⟩
  | true =>
    obtain ⟨first, hfirst⟩ := hl.range hrange
    simp only [if_true, hfirst]
    rcases List.eq_nil_or_concat s.submittedReqQueue with hnil | ⟨queue, last, hlast⟩
    · simp [hqueue hnil] at hrange
    · rw [List.concat_eq_append] at hlast
      have hread := h.read
      rw [Handler.read, hlast, ← List.append_assoc] at hread
      obtain ⟨hbefore, hreq⟩ := List.append_inj' hread rfl
      obtain rfl : last = req := by simpa using hreq
      refine ⟨queue ++ [{ last with firstBytePos := first }], ?_, ?_, h.state, hinbuf, ?_⟩
      · simp [setFirstBytePos, hlast]
      · simp [hlast]
      · simp only [Handler.read, ← hbefore, List.append_assoc]

/-- The loop over the header lines ends at the blank line, or where `inbuf_` has no other line. -/
theorem InHeaders.processHeaders {fuel : Nat} (h : s.InHeaders lines rest future before req)
    (hlines : ∀ l ∈ lines, IsHeader l) (hfuel : s.inbuf.length < fuel)
    (hqueue : s.submittedReqQueue = [] →
      ∀ l ∈ headerLines s.inbuf, Handler.isRange (cString l) = false) :
    ∃ t want, Handler.processHeaders fuel s = .ok (t, want) ∧ Kept s t ∧
      t.submittedReqQueue.length = s.submittedReqQueue.length ∧
      t.readFromClientEnabled = s.readFromClientEnabled ∧
      ((want = true ∧ t.writeToClientEnabled = s.writeToClientEnabled ∧ IsLine t.inbuf ∧
          (∀ l ∈ (splitLines s.inbuf).1, cString l ≠ []) ∧
          ∃ lines' req', lines' <:+ lines ∧ t.InHeaders lines' rest future before req' ∧
            req'.path = req.path ∧ lines'.foldl rangeStep req'.firstBytePos =
              lines.foldl rangeStep req.firstBytePos) ∨
        (want = false ∧ t.httpReqState = .reqLine ∧ t.writeToClientEnabled = true ∧
          t.inbuf ++ future = rest ∧ t.read = before ++
            [{ req with firstBytePos := lines.foldl rangeStep req.firstBytePos }])) := by
  induction fuel generalizing s lines req with
  | zero => exact absurd hfuel (Nat.not_lt_zero _)
  | succ fuel ih =>
    unfold Handler.processHeaders
    cases hread : s.readln with
    | none =>
      have hline : IsLine s.inbuf := readln_eq_none.mp hread
      refine ⟨s, true, rfl, Kept.refl s, rfl, rfl, .inl ⟨rfl, rfl, hline, ?_, ?_⟩⟩
      · rw [splitLines_of_isLine hline]
        simp
      · exact ⟨lines, req, List.suffix_rfl, h, rfl, rfl⟩
    | some r =>
      obtain ⟨line, t⟩ := r
      obtain ⟨hline, hinbuf, ht⟩ := inbuf_of_readln hread
      generalize t.inbuf = inbuf at hinbuf ht
      subst ht
      have hstream := h.stream
      rw [hinbuf, List.append_assoc, List.append_assoc] at hstream
      have hlength : s.inbuf.length = line.length + (2 + inbuf.length) := by
        rw [hinbuf, List.length_append, List.length_append]
        rfl
      rcases line_append_joinLines hline (fun l hl => (hlines l hl).isLine) hstream with
        ⟨rfl, rfl, hrest⟩ | ⟨lines, rfl, hrest⟩
      · -- the blank line
        have hblank : cString [] = [] := by simp [cString]
        simp only [hblank, if_true]
        refine ⟨_, false, rfl, ⟨rfl, rfl, rfl⟩, rfl, rfl, .inr ⟨rfl, rfl, rfl, hrest, ?_⟩⟩
        exact h.read
      · have hl : IsHeader line := hlines line (by simp)
        have hhead : headerLines s.inbuf = line :: headerLines inbuf := by
          rw [hinbuf, headerLines_line hl]
        obtain ⟨queue, hheader, hlen, hin⟩ := h.headerLine hl hrest fun hnil =>
          hqueue hnil line (by simp [hhead])
        simp only [hl.notBlank, if_false, hheader]
        obtain ⟨u, want, hu, hkept, hlen', hreads, hcases⟩ := ih hin
          (fun l' hl' => hlines l' (by simp [hl']))
          (by
            change inbuf.length < fuel
            omega)
          (fun hnil l' hl' => by
            have hempty : s.submittedReqQueue = [] := by
              rw [← List.length_eq_zero_iff, ← hlen]
              exact List.length_eq_zero_iff.mpr hnil
            exact hqueue hempty l' (by rw [hhead]; exact List.mem_cons_of_mem _ hl'))
        refine ⟨u, want, hu, ⟨hkept.output, hkept.received, hkept.deletions⟩, hlen'.trans hlen,
          hreads, ?_⟩
        rcases hcases with ⟨hwant, hwrites, hisLine, hnotBlank, lines', req', hsuffix, hin', hpath,
          hfold⟩ | ⟨hwant, hstate, hwrites, hrest', hread'⟩
        · refine .inl ⟨hwant, hwrites, hisLine, ?_, lines', req', ?_, hin', hpath, hfold⟩
          · rw [hinbuf, splitLines_line hl.isLine]
            simp only [List.mem_cons, forall_eq_or_imp]
            exact ⟨hl.notBlank, hnotBlank⟩
          · exact hsuffix.trans (List.suffix_cons line lines)
        · exact .inr ⟨hwant, hstate, hwrites, hrest', hread'⟩

/-! ## `process_inbuf_` -/

/-- How far a handler has come in the requests; `future` is not received yet. -/
def Follows (s : Handler) (reqs : List HttpRequest) (future : Bytes) : Prop :=
  match s.httpReqState with
  | .reqLine => ∃ parsed todo, reqs = parsed ++ todo ∧ s.inbuf ++ future = texts todo ∧
      s.read = parsed.map info
  | .headers => ∃ parsed r todo lines req, reqs = parsed ++ r :: todo ∧ lines <:+ r.headers ∧
      s.InHeaders lines (texts todo) future (parsed.map info) req ∧ req.path = r.path ∧
      lines.foldl rangeStep req.firstBytePos = r.info.firstBytePos

/-- What follows depends on `inbuf_` and the state of the parser. -/
theorem Follows.congr {reqs : List HttpRequest} (h : s.Follows reqs future)
    (hinbuf : t.inbuf = s.inbuf) (hstate : t.httpReqState = s.httpReqState)
    (hread : t.read = s.read) : t.Follows reqs future := by
  unfold Follows at h ⊢
  rw [hstate, hinbuf, hread]
  split at h
  · exact h
  · obtain ⟨parsed, r, todo, lines, req, hreqs, hsuffix, hin, hpath, hfold⟩ := h
    refine ⟨parsed, r, todo, lines, req, hreqs, hsuffix, ⟨?_, ?_, ?_⟩, hpath, hfold⟩
    · rw [hstate, hin.state]
    · rw [hinbuf, hin.stream]
    · rw [hread, hin.read]

/-- `process_inbuf_` finds no request line while the queue is full, and no range of a request that
has left the queue. -/
def OneAtATime (s : Handler) : Prop :=
  match s.httpReqState with
  | .reqLine => s.submittedReqQueue ≠ [] → IsLine s.inbuf
  | .headers => s.submittedReqQueue = [] →
      ∀ l ∈ headerLines s.inbuf, Handler.isRange (cString l) = false

/-- `process_inbuf_` finds no request line, or the blank line of the request too. -/
def Whole (s : Handler) : Prop :=
  s.httpReqState = .reqLine ∧ (IsLine s.inbuf ∨ ∃ l ∈ (splitLines s.inbuf).1, cString l = [])

instance (s : Handler) : Decidable s.OneAtATime := by
  unfold OneAtATime
  split <;> infer_instance

instance (s : Handler) : Decidable s.Whole := by
  unfold Whole
  infer_instance

/-- What `process_inbuf_` makes of a handler. -/
structure Processed (reqs : List HttpRequest) (future : Bytes) (s t : Handler) : Prop where
  kept : Kept s t
  follows : t.Follows reqs future
  bound : t.submittedReqQueue.length ≤ maxPipelineReqs
  waits : t.writeToClientEnabled = false → s.writeToClientEnabled = false ∧ IsLine t.inbuf
  whole : s.Whole → t.httpReqState = .reqLine

variable {reqs : List HttpRequest}

/-- The handler has no line to process. -/
theorem Processed.refl (h : s.Follows reqs future)
    (hbound : s.submittedReqQueue.length ≤ maxPipelineReqs) (hline : IsLine s.inbuf) :
    Processed reqs future s s :=
  ⟨Kept.refl s, h, hbound, fun hwrites => ⟨hwrites, hline⟩, fun hwhole => hwhole.1⟩

/-- The headers of a request. -/
theorem Follows.processHeaders {u : Handler} {parsed todo : List HttpRequest} {r : HttpRequest}
    (hreqs : reqs = parsed ++ r :: todo) (hr : r.WellFormed) (hsuffix : lines <:+ r.headers)
    (hin : s.InHeaders lines (texts todo) future (parsed.map info) req) (hpath : req.path = r.path)
    (hfold : lines.foldl rangeStep req.firstBytePos = r.info.firstBytePos)
    (hbound : s.submittedReqQueue.length ≤ maxPipelineReqs)
    (hqueue : s.submittedReqQueue = [] →
      ∀ l ∈ headerLines s.inbuf, Handler.isRange (cString l) = false)
    (hkept : Kept u s) (hwrites : s.writeToClientEnabled = u.writeToClientEnabled)
    (hwhole : u.Whole → ∃ l ∈ (splitLines s.inbuf).1, cString l = []) :
    ∃ t want, Handler.processHeaders (s.inbuf.length + 1) s = .ok (t, want) ∧
      Processed reqs future u t := by
  obtain ⟨t, want, ht, hkept', hlen, -, hcases⟩ :=
    hin.processHeaders (fun l hl => hr.headers l (hsuffix.subset hl)) (Nat.lt_succ_self _) hqueue
  refine ⟨t, want, ht, ⟨?_, ?_, ?_⟩, ?_, ?_, ?_, ?_⟩
  · exact hkept'.output.trans hkept.output
  · exact hkept'.received.trans hkept.received
  · exact hkept'.deletions.trans hkept.deletions
  · rcases hcases with ⟨-, -, -, -, lines', req', hsuffix', hin', hpath', hfold'⟩ |
      ⟨-, hstate, -, hrest, hread⟩
    · simp only [Follows, hin'.state]
      exact ⟨parsed, r, todo, lines', req', hreqs, hsuffix'.trans hsuffix, hin',
        hpath'.trans hpath, hfold'.trans hfold⟩
    · simp only [Follows, hstate]
      refine ⟨parsed ++ [r], todo, by simp [hreqs], hrest, ?_⟩
      rw [hread, hfold, hpath, List.map_append]
      rfl
  · rw [hlen]
    exact hbound
  · intro hfalse
    rcases hcases with ⟨-, hsame, hline, -, -⟩ | ⟨-, -, htrue, -, -⟩
    · rw [← hwrites, ← hsame]
      exact ⟨hfalse, hline⟩
    · simp [htrue] at hfalse
  · intro hu
    obtain ⟨l, hl, hblank⟩ := hwhole hu
    rcases hcases with ⟨-, -, -, hnotBlank, -⟩ | ⟨-, hstate, -, -, -⟩
    · exact absurd hblank (hnotBlank l hl)
    · exact hstate

/-- A request line. -/
theorem Follows.processReqLine (h : s.Follows reqs future) (hreqs : ∀ r ∈ reqs, r.WellFormed)
    (hstate : s.httpReqState = .reqLine) (hbound : s.submittedReqQueue.length ≤ maxPipelineReqs)
    (hqueue : s.submittedReqQueue ≠ [] → IsLine s.inbuf) :
    ∃ t want, s.processReqLine = .ok (t, want) ∧ Processed reqs future s t := by
  unfold Handler.processReqLine
  cases hread : s.readln with
  | none => exact ⟨s, true, rfl, Processed.refl h hbound (readln_eq_none.mp hread)⟩
  | some found =>
    obtain ⟨line, t⟩ := found
    obtain ⟨hline, hinbuf, ht⟩ := inbuf_of_readln hread
    generalize t.inbuf = inbuf at hinbuf ht
    subst ht
    have hcrlf : ¬IsLine s.inbuf := by
      rw [hinbuf, ← findCrlf_eq_none, findCrlf_line hline]
      simp
    have hempty : s.submittedReqQueue = [] := by
      by_contra hne
      exact hcrlf (hqueue hne)
    simp only [Follows, hstate] at h
    obtain ⟨parsed, todo, hsplit, hstream, hparsed⟩ := h
    rw [hinbuf, List.append_assoc, List.append_assoc] at hstream
    cases todo with
    | nil => simp [crlf] at hstream
    | cons r todo =>
      have hr : r.WellFormed := hreqs r (by simp [hsplit])
      rw [texts_cons] at hstream
      obtain ⟨rfl, hrest⟩ := line_append_inj hline hr.isLine hstream
      simp only [hr.relpath, hempty, List.nil_append]
      rw [if_pos (by simp [maxPipelineReqs])]
      refine Follows.processHeaders hsplit hr List.suffix_rfl
        (⟨rfl, hrest, ?_⟩ : InHeaders _ _ _ _ _ ⟨r.path, -1⟩) rfl rfl (by simp [maxPipelineReqs])
        (by simp) ⟨rfl, rfl, rfl⟩ rfl fun hwhole => ?_
      · rw [← hparsed]
        simp [Handler.read, hempty]
      · obtain ⟨-, hwhole⟩ := hwhole
        obtain ⟨l, hl, hblank⟩ := hwhole.resolve_left hcrlf
        rw [hinbuf, splitLines_line hline] at hl
        rcases List.mem_cons.mp hl with rfl | hl
        · -- a request line is not blank
          have hrelpath := hr.relpath
          rw [hblank] at hrelpath
          simp [relpath, strcasestr, ascii] at hrelpath
        · exact ⟨l, hl, hblank⟩

/-- `process_inbuf_` goes on in the stream. -/
theorem Follows.processInbuf (h : s.Follows reqs future) (hreqs : ∀ r ∈ reqs, r.WellFormed)
    (hbound : s.submittedReqQueue.length ≤ maxPipelineReqs) (hone : s.OneAtATime) :
    ∃ t want, s.processInbuf = .ok (t, want) ∧ Processed reqs future s t ∧
      (t.writeToClientEnabled = false → t.submittedReqQueue = []) := by
  have hextract : ∃ t want, s.extractRequest = .ok (t, want) ∧ Processed reqs future s t := by
    unfold Handler.extractRequest
    by_cases hempty : s.inbuf = []
    · rw [if_pos hempty]
      refine ⟨s, true, rfl, Processed.refl h hbound ?_⟩
      simp [hempty, IsLine, crlf]
    · rw [if_neg hempty]
      cases hstate : s.httpReqState with
      | reqLine =>
        simp only [OneAtATime, hstate] at hone
        exact h.processReqLine hreqs hstate hbound hone
      | headers =>
        simp only [OneAtATime, hstate] at hone
        simp only [Follows, hstate] at h
        obtain ⟨parsed, r, todo, lines, req, hsplit, hsuffix, hin, hpath, hfold⟩ := h
        refine Follows.processHeaders hsplit (hreqs r (by simp [hsplit])) hsuffix hin hpath hfold
          hbound hone (Kept.refl s) rfl fun hwhole => ?_
        simp [hwhole.1] at hstate
  obtain ⟨t, want, ht, hprocessed⟩ := hextract
  unfold Handler.processInbuf
  rw [ht]
  refine ⟨_, want, rfl, ⟨⟨hprocessed.kept.output, hprocessed.kept.received,
    hprocessed.kept.deletions⟩, hprocessed.follows.congr rfl rfl rfl, hprocessed.bound,
      fun hfalse => ?_,
    hprocessed.whole⟩, fun hfalse => ?_⟩
  · refine hprocessed.waits ?_
    simp at hfalse
    exact hfalse.1
  · simp at hfalse
    exact hfalse.2

/-- A request line is an error while the queue is full. -/
theorem processInbuf_full (hstate : s.httpReqState = .reqLine) (hqueue : s.submittedReqQueue ≠ [])
    (hread : s.readln = some (line, t)) : s.processInbuf =
      match relpath (cString line) with
      | .error f => .error f
      | .ok _ => .error .pipeline := by
  have hempty : s.inbuf ≠ [] := by
    rintro hnil
    rw [readln, hnil] at hread
    simp [findCrlf] at hread
  obtain ⟨-, -, ht⟩ := inbuf_of_readln hread
  have hsame : t.submittedReqQueue = s.submittedReqQueue := by rw [ht]
  have hlen : ¬s.submittedReqQueue.length + 1 ≤ maxPipelineReqs := by
    have hpos := List.length_pos_iff.mpr hqueue
    unfold maxPipelineReqs
    omega
  unfold Handler.processInbuf Handler.extractRequest Handler.processReqLine
  simp only [hempty, if_false, hstate, hread, hsame, List.length_append, List.length_singleton,
    hlen]
  cases relpath (cString line) <;> rfl

end Handler

end ShadowExtras.Web
