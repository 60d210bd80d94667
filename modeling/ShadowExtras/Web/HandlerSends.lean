import ShadowExtras.Web.Handler

/-!
# What the web server sends

`responseOf` is the response to a request: the header, then the file from the first byte that is
asked for. While a response is being sent, the bytes written, those in `outbuf_` and those that are
left of the file are the responses so far with this one (`Sends`); between two responses nothing is
left of a file. Writes of any length only move bytes from `outbuf_` to the socket.
-/

namespace ShadowExtras.Web

open Foundation

variable {files : Files} {docroot : Bytes}

/-! ## Responses -/

/-- The file that a request asks for. -/
def fileOf (files : Files) (docroot : Bytes) (req : RequestInfo) : Bytes :=
  (files (docroot ++ req.path)).getD []

/-- The part of the file that a request asks for: the whole file if there is no range. -/
def partOf (files : Files) (docroot : Bytes) (req : RequestInfo) : Bytes :=
  (fileOf files docroot req).drop req.firstBytePos.toNat

/-- The lines of the header. -/
def responseLines (files : Files) (docroot : Bytes) (req : RequestInfo) : List Bytes :=
  [ascii "HTTP/1.1 " ++ (if 0 ≤ req.firstBytePos then ascii "206" else ascii "200") ++ ascii " OK",
    ascii "Content-Length: " ++ decimal (partOf files docroot req).length,
    ascii "Content-Type: " ++ Handler.contentType (docroot ++ req.path)] ++
  if 0 ≤ req.firstBytePos then
    [ascii "Content-Range: bytes " ++ decimal req.firstBytePos.toNat ++ ascii "-" ++
      decimal ((fileOf files docroot req).length - 1) ++ ascii "/" ++
      decimal (fileOf files docroot req).length]
  else []

/-- The response to a request. -/
def responseOf (files : Files) (docroot : Bytes) (req : RequestInfo) : Bytes :=
  joinLines (responseLines files docroot req) ++ (crlf ++ partOf files docroot req)

/-- The responses to requests, in their order. -/
def responses (files : Files) (docroot : Bytes) (reqs : List RequestInfo) : Bytes :=
  (reqs.map (responseOf files docroot)).flatten

@[simp] theorem responses_nil : responses files docroot [] = [] := rfl

/-- The responses to two lists of requests. -/
@[simp] theorem responses_append (reqs reqs' : List RequestInfo) :
    responses files docroot (reqs ++ reqs') =
      responses files docroot reqs ++ responses files docroot reqs' := by
  simp [responses]

@[simp] theorem responses_singleton (req : RequestInfo) :
    responses files docroot [req] = responseOf files docroot req := by
  simp [responses]

/-- The header gives the length of the part that is sent. -/
theorem contentLength_mem_responseLines (req : RequestInfo) :
    ascii "Content-Length: " ++ decimal (partOf files docroot req).length ∈
      responseLines files docroot req := by
  simp [responseLines]

/-- The header has a content range just if the request has a range. -/
theorem contentRange_mem_responseLines_iff (req : RequestInfo) :
    (∃ value, ascii "Content-Range: " ++ value ∈ responseLines files docroot req) ↔
      0 ≤ req.firstBytePos := by
  have hne : ∀ {a : Bytes} (x value : Bytes), 9 ≤ a.length →
      a.take 9 ≠ (ascii "Content-Range: ").take 9 → ascii "Content-Range: " ++ value ≠ a ++ x := by
    intro a x value hlength ha heq
    have htake := congrArg (List.take 9) heq
    rw [List.take_append_of_le_length (by decide), List.take_append_of_le_length hlength] at htake
    exact ha htake.symm
  constructor
  · rintro ⟨value, hmem⟩
    by_contra hranged
    simp only [responseLines, hranged, if_false, List.append_nil, List.mem_cons, List.not_mem_nil,
      or_false, List.append_assoc] at hmem
    rcases hmem with h | h | h
    · exact hne _ value (by decide) (by decide) h
    · exact hne _ value (by decide) (by decide) h
    · exact hne _ value (by decide) (by decide) h
  · intro hranged
    refine ⟨ascii "bytes " ++ (decimal req.firstBytePos.toNat ++ ascii "-" ++
      decimal ((fileOf files docroot req).length - 1) ++ ascii "/" ++
      decimal (fileOf files docroot req).length), ?_⟩
    have hsplit : ascii "Content-Range: bytes " = ascii "Content-Range: " ++ ascii "bytes " := by
      decide
    simp [responseLines, hranged, hsplit]

namespace Handler

variable {s t u : Handler} {req : RequestInfo}

/-- What is printed is the header of the response, when the last byte position is right. -/
theorem header_append (hlast : 0 ≤ req.firstBytePos →
      lastBytePos req (fileOf files docroot req).length = (fileOf files docroot req).length - 1) :
    header (docroot ++ req.path) req (fileOf files docroot req).length ++ partOf files docroot req =
      responseOf files docroot req := by
  have h206 : decimal 206 = ascii "206" := by decide
  have h200 : decimal 200 = ascii "200" := by decide
  unfold header responseOf responseLines contentLength
  by_cases hranged : 0 ≤ req.firstBytePos
  · have hlastNat : (lastBytePos req (fileOf files docroot req).length).toNat =
        (fileOf files docroot req).length - 1 := by
      rw [hlast hranged]
      omega
    have hlength : (partOf files docroot req).length =
        (fileOf files docroot req).length - req.firstBytePos.toNat := List.length_drop
    simp [hranged, hlastNat, hlength, h206]
  · have hlength : (partOf files docroot req).length = (fileOf files docroot req).length := by
      have hzero : req.firstBytePos.toNat = 0 := by omega
      rw [partOf, hzero, List.drop_zero]
    simp [hranged, hlength, h200]

/-- `responseMeta` puts the header into `outbuf_` and opens the file. -/
theorem responseMeta_spec (h : s.responseMeta files req = .ok t) :
    ∃ head, head ++ partOf files s.docroot req = responseOf files s.docroot req ∧
    s.activeFd = none ∧
      t = { s with
        outbuf := s.outbuf ++ head
        httpRspState := .body
        activeFd := some (partOf files s.docroot req)
        numRespBodyBytesExpectedToSend := (partOf files s.docroot req).length
        numBodyBytesRead := 0 } := by
  unfold responseMeta at h
  split at h
  · cases h
  · rename_i content hcontent
    obtain rfl : fileOf files s.docroot req = content := by
      rw [abspath] at hcontent
      rw [fileOf, hcontent, Option.getD_some]
    split_ifs at h with hempty hsize hlast hactive
    obtain rfl := Except.ok.inj h
    rw [not_and, not_not] at hlast
    refine ⟨_, header_append fun hranged => (hlast hranged).1, ?_, ?_⟩
    · simpa using hactive
    · have hlength : (partOf files s.docroot req).length =
          contentLength req (fileOf files s.docroot req).length := by
        rw [partOf, List.length_drop, contentLength]
        split_ifs with hranged
        · rfl
        · omega
      rw [hlength]
      rfl

/-! ## `process_inbuf_` and the response -/

/-- The part of the state that only `send_to_client` changes. -/
def output (s : Handler) :=
  (s.docroot, s.outbuf, s.httpRspState, s.activeFd, s.numRespBodyBytesExpectedToSend,
    s.numBodyBytesRead, s.sent, s.answered)

/-- The first request of the queue is parsed completely. -/
def FrontParsed (s : Handler) (req : RequestInfo) : Prop :=
  ∃ reqs, s.submittedReqQueue = req :: reqs ∧ (s.httpReqState = .reqLine ∨ reqs ≠ [])

/-- Reading a line takes it out of `inbuf_`. -/
theorem readln_spec {line : Bytes} (h : s.readln = some (line, t)) :
    ∃ inbuf, t = { s with inbuf := inbuf } := by
  unfold readln at h
  obtain ⟨i, -, hi⟩ := Option.map_eq_some_iff.mp h
  obtain ⟨-, rfl⟩ := Prod.mk.inj hi
  exact ⟨_, rfl⟩

/-- A header line changes the last request of the queue alone. -/
theorem headerLine_spec {line : Bytes} (h : s.headerLine line = .ok t) :
    t.output = s.output ∧ t.httpReqState = s.httpReqState ∧
      ∀ req reqs, s.submittedReqQueue = req :: reqs → reqs ≠ [] →
        ∃ reqs', t.submittedReqQueue = req :: reqs' ∧ reqs' ≠ [] := by
  unfold headerLine at h
  split at h
  · split at h
    · cases h
    · rename_i first hfirst
      unfold setFirstBytePos at h
      split at h
      · cases h
      · rename_i last hlast
        obtain rfl := Except.ok.inj h
        refine ⟨rfl, rfl, ?_⟩
        intro req reqs hqueue hne
        refine ⟨reqs.dropLast ++ [{ last with firstBytePos := first }], ?_, by simp⟩
        simp only [hqueue, List.dropLast_cons_of_ne_nil hne, List.cons_append]
  · obtain rfl := Except.ok.inj h
    exact ⟨rfl, rfl, fun _ reqs hqueue hne => ⟨reqs, hqueue, hne⟩⟩

/-- The headers of a request leave the output and the other requests alone. -/
theorem processHeaders_spec {fuel : ℕ} {want : Bool}
    (h : processHeaders fuel s = .ok (t, want)) :
    t.output = s.output ∧ ∀ req reqs, s.submittedReqQueue = req :: reqs → reqs ≠ [] →
      ∃ reqs', t.submittedReqQueue = req :: reqs' ∧ reqs' ≠ [] := by
  induction fuel generalizing s with
  | zero =>
    obtain ⟨rfl, -⟩ := Prod.mk.inj (Except.ok.inj h)
    exact ⟨rfl, fun _ reqs hqueue hne => ⟨reqs, hqueue, hne⟩⟩
  | succ fuel ih =>
    unfold processHeaders at h
    split at h
    · obtain ⟨rfl, -⟩ := Prod.mk.inj (Except.ok.inj h)
      exact ⟨rfl, fun _ reqs hqueue hne => ⟨reqs, hqueue, hne⟩⟩
    · rename_i line u hline
      obtain ⟨inbuf, rfl⟩ := readln_spec hline
      split_ifs at h
      · obtain ⟨rfl, -⟩ := Prod.mk.inj (Except.ok.inj h)
        exact ⟨rfl, fun _ reqs hqueue hne => ⟨reqs, hqueue, hne⟩⟩
      · split at h
        · cases h
        · rename_i u hu
          obtain ⟨houtput, -, hfront⟩ := headerLine_spec hu
          obtain ⟨houtput', hfront'⟩ := ih h
          refine ⟨houtput'.trans houtput, ?_⟩
          intro req reqs hqueue hne
          obtain ⟨reqs', hqueue', hne'⟩ := hfront req reqs hqueue hne
          exact hfront' req reqs' hqueue' hne'

/-- Taking a request out of `inbuf_` leaves the output alone, and what is parsed stays parsed. -/
theorem extractRequest_spec {want : Bool} (h : s.extractRequest = .ok (t, want)) :
    t.output = s.output ∧ ∀ req, s.FrontParsed req → t.FrontParsed req := by
  unfold extractRequest at h
  split_ifs at h
  · obtain ⟨rfl, -⟩ := Prod.mk.inj (Except.ok.inj h)
    exact ⟨rfl, fun _ hfront => hfront⟩
  · split at h
    · unfold processReqLine at h
      split at h
      · obtain ⟨rfl, -⟩ := Prod.mk.inj (Except.ok.inj h)
        exact ⟨rfl, fun _ hfront => hfront⟩
      · rename_i line u hline
        obtain ⟨inbuf, rfl⟩ := readln_spec hline
        split at h
        · cases h
        · rename_i path hpath
          dsimp only at h
          split_ifs at h
          obtain ⟨houtput, hfront⟩ := processHeaders_spec h
          refine ⟨houtput, ?_⟩
          rintro req ⟨reqs, hqueue, -⟩
          obtain ⟨reqs', hqueue', hne'⟩ :=
            hfront req (reqs ++ [{ path := path, firstBytePos := -1 }])
            (by simp [hqueue]) (by simp)
          exact ⟨reqs', hqueue', .inr hne'⟩
    · rename_i hheaders
      obtain ⟨houtput, hfront⟩ := processHeaders_spec h
      refine ⟨houtput, ?_⟩
      rintro req ⟨reqs, hqueue, hparsed⟩
      have hne : reqs ≠ [] := hparsed.resolve_left (by simp [hheaders])
      obtain ⟨reqs', hqueue', hne'⟩ := hfront req reqs hqueue hne
      exact ⟨reqs', hqueue', .inr hne'⟩

/-- `process_inbuf_` leaves the output alone, and what is parsed stays parsed. -/
theorem processInbuf_spec {want : Bool} (h : s.processInbuf = .ok (t, want)) :
    t.output = s.output ∧ ∀ req, s.FrontParsed req → t.FrontParsed req := by
  unfold processInbuf at h
  split at h
  · cases h
  · rename_i u want' hu
    obtain ⟨rfl, -⟩ := Prod.mk.inj (Except.ok.inj h)
    obtain ⟨houtput, hfront⟩ := extractRequest_spec hu
    exact ⟨houtput, hfront⟩

end Handler

/-! ## Loops -/

/-- What is read is taken from the file, and the file is done when nothing is left of it. -/
theorem readLoop_spec {expected n : ℕ} {sizes : List ℕ} {rest got rest' : Bytes} {done : Bool}
    (hsizes : ∀ size ∈ sizes, 0 < size)
    (h : Handler.readLoop expected sizes rest n = .ok (got, rest', done)) :
    rest = got ++ rest' ∧ (done = true → rest' = []) := by
  induction sizes generalizing rest n got with
  | nil =>
    simp only [Handler.readLoop, Except.ok.injEq, Prod.mk.injEq] at h
    obtain ⟨rfl, rfl, rfl⟩ := h
    simp
  | cons size sizes ih =>
    unfold Handler.readLoop at h
    dsimp only at h
    have hpos : 0 < min size (2 * 4096) := by
      have := hsizes size (by simp)
      omega
    split_ifs at h with hnil hshort hexpected
    · simp only [Except.ok.injEq, Prod.mk.injEq] at h
      obtain ⟨rfl, rfl, rfl⟩ := h
      rcases List.take_eq_nil_iff.mp hnil with h | h
      · omega
      · simp [h]
    · simp only [Except.ok.injEq, Prod.mk.injEq] at h
      obtain ⟨rfl, rfl, rfl⟩ := h
      rw [List.length_take] at hshort
      refine ⟨(List.take_append_drop _ _).symm, fun _ => ?_⟩
      exact List.drop_eq_nil_of_le (by omega)
    · split at h
      · cases h
      · rename_i more rest'' done' hmore
        simp only [Except.ok.injEq, Prod.mk.injEq] at h
        obtain ⟨rfl, rfl, rfl⟩ := h
        obtain ⟨hrest, hdone⟩ := ih (fun size hsize => hsizes size (by simp [hsize])) hmore
        refine ⟨?_, hdone⟩
        rw [List.append_assoc, ← hrest, List.take_append_drop]

/-- The body bytes are counted right, so the assertion on their number holds. -/
theorem readLoop_eq_ok {expected n : ℕ} {sizes : List ℕ} {rest : Bytes}
    (hexpected : expected = n + rest.length) :
    ∃ found, Handler.readLoop expected sizes rest n = .ok found := by
  induction sizes generalizing rest n with
  | nil => exact ⟨_, rfl⟩
  | cons size sizes ih =>
    unfold Handler.readLoop
    dsimp only
    split_ifs with hnil hshort hcount
    · exact ⟨_, rfl⟩
    · exact ⟨_, rfl⟩
    · rw [List.length_take] at hshort hcount
      omega
    · have hrest : expected = n + (rest.take (min size (2 * 4096))).length +
          (rest.drop (min size (2 * 4096))).length := by
        rw [hexpected, List.length_take, List.length_drop]
        omega
      obtain ⟨found, hfound⟩ := ih hrest
      rw [hfound]
      exact ⟨_, rfl⟩

/-- What is written is taken from the front of the buffer. -/
theorem writeLoop_spec (extents : List (ℕ × WriteResult)) (buf : Bytes) :
    (writeLoop extents buf).bytes <+: buf := by
  induction extents generalizing buf with
  | nil => exact List.nil_prefix
  | cons extent extents ih =>
    obtain ⟨size, result⟩ := extent
    cases result with
    | wouldBlock => exact List.nil_prefix
    | error => exact List.nil_prefix
    | wrote n =>
      simp only [writeLoop]
      split_ifs with hshort
      · exact (List.take_prefix _ _).trans (List.take_prefix _ _)
      · rw [not_not] at hshort
        have hfull : (buf.take size).take n = buf.take size :=
          (List.take_prefix _ _).eq_of_length hshort
        have hsplit : buf = buf.take size ++ buf.drop size := (List.take_append_drop _ _).symm
        rw [hfull]
        conv_rhs => rw [hsplit]
        exact (List.prefix_append_right_inj _).mpr (ih _)

namespace HandlerMachine

variable {m m' : HandlerMachine} {s : Handler} {l : Locals} {c : Choice}

/-! ## The invariant -/

/-- Between two responses those to the requests that were answered are complete; within a response,
what is left of the file completes it. -/
structure Sends (files : Files) (docroot : Bytes) (s : Handler) : Prop where
  root : s.docroot = docroot
  between : s.httpRspState = .metadata →
    s.activeFd = none ∧ s.sent ++ s.outbuf = responses files docroot s.answered
  within : s.httpRspState = .body → ∃ req rest, s.FrontParsed req ∧ s.activeFd = some rest ∧
    s.sent ++ (s.outbuf ++ rest) = responses files docroot s.answered ++
      responseOf files docroot req ∧
    s.numRespBodyBytesExpectedToSend = s.numBodyBytesRead + rest.length

/-- The handler is in the middle of the loop that fills `outbuf_` only for a response that has
begun. -/
def Reads (m : HandlerMachine) : Prop := ∀ l, m.label = .body l → m.handler.httpRspState = .body

/-- The buffer limit is reached, or there is nothing to put into `outbuf_`. -/
def Full (s : Handler) : Prop :=
  s.submittedReqQueue = [] ∨ readHighWaterMark ≤ s.outbuf.length

/-- The bound that `count` keeps at each label: a round through all labels that neither fills nor
drains `outbuf_` ends in `check`. -/
def Counts (m : HandlerMachine) : Prop :=
  match m.label with
  | .idle | .readMore => True
  | .processInbuf (.addMore l) | .check l =>
    l.count ≤ 2 ∨ l.count ≤ 4 ∧ readHighWaterMark ≤ m.handler.outbuf.length ∧ l.sendWouldBlock
  | .processInbuf (.response l) => l.count = 0
  | .processInbuf _ => True
  | .addMore l =>
    l.count ≤ 1 ∨ l.count ≤ 3 ∧ readHighWaterMark ≤ m.handler.outbuf.length ∧ l.sendWouldBlock
  | .fill l => l.count ≤ 2
  | .body l => l.count = 0
  | .sendMore l => l.count = 0 ∨ l.count ≤ 2 ∧ Full m.handler
  | .drain l => l.count ≤ 1 ∨ l.count ≤ 3 ∧ Full m.handler

/-- What is sent depends on the output and on what is parsed. -/
theorem Sends.congr {t : Handler} (hs : Sends files docroot s) (houtput : t.output = s.output)
    (hfront : ∀ req, s.FrontParsed req → t.FrontParsed req) : Sends files docroot t := by
  simp only [Handler.output, Prod.mk.injEq] at houtput
  obtain ⟨hroot, houtbuf, hstate, hfd, hexpected, hread, hsent, hanswered⟩ := houtput
  constructor
  · rw [hroot, hs.root]
  · rw [hstate, hfd, hsent, houtbuf, hanswered]
    exact hs.between
  · rw [hstate, hfd, hsent, houtbuf, hanswered, hexpected, hread]
    intro hbody
    obtain ⟨req, rest, hparsed, hrest⟩ := hs.within hbody
    exact ⟨req, rest, hfront req hparsed, hrest⟩

/-- A response begins only when its request is parsed completely. -/
def BeginsParsed (m : HandlerMachine) : Prop :=
  match m.label with
  | .fill _ => m.handler.httpRspState = .metadata → m.handler.submittedReqQueue.length = 1 →
    m.handler.httpReqState = .reqLine
  | _ => True

/-- A response begins only when its request is parsed completely, and no write fails. -/
def ServesParsed (m : HandlerMachine) (c : Choice) : Prop :=
  BeginsParsed m ∧
  match c with
  | .write extents => ∀ e ∈ extents, e.2 ≠ .error
  | _ => True

instance (m : HandlerMachine) : Decidable (BeginsParsed m) := by
  unfold BeginsParsed
  match m.label with
  | .fill _ =>
    dsimp only
    infer_instance
  | .idle | .readMore | .processInbuf _ | .addMore _ | .check _ | .body _ | .sendMore _ |
    .drain _ => exact instDecidableTrue

instance (m : HandlerMachine) (c : Choice) : Decidable (ServesParsed m c) := by
  unfold ServesParsed
  have : Decidable (match c with
      | .write extents => ∀ e ∈ extents, e.2 ≠ .error
      | _ => True) := by
    split <;> infer_instance
  infer_instance

/-! ## Steps -/

/-- Receiving leaves the output alone. -/
theorem readMore_spec {vectors : List (ℕ × RecvResult)} (h : readMore s vectors = .ok m') :
    m'.handler.output = s.output ∧ (∀ req, s.FrontParsed req → m'.handler.FrontParsed req) ∧
      (m'.label = .idle ∨ m'.label = .readMore ∨ ∃ noMore,
        m'.label = .processInbuf (.recv noMore)) := by
  unfold readMore at h
  split_ifs at h
  · obtain rfl := Except.ok.inj h
    exact ⟨rfl, fun _ hfront => hfront, .inl rfl⟩
  · split at h
    · cases h
    · obtain rfl := Except.ok.inj h
      exact ⟨rfl, fun _ hfront => hfront, .inl rfl⟩
    · split_ifs at h
      · obtain rfl := Except.ok.inj h
        exact ⟨rfl, fun _ hfront => hfront, .inl rfl⟩
      · obtain rfl := Except.ok.inj h
        exact ⟨rfl, fun _ hfront => hfront, .inr (.inr ⟨_, rfl⟩)⟩
  · obtain rfl := Except.ok.inj h
    exact ⟨rfl, fun _ hfront => hfront, .inr (.inl rfl)⟩

/-- Behind the check the counter is small, and `outbuf_` is not full or can be written. -/
theorem check_spec (h : check s l = .ok m') :
    l.count < 0x2f ∧ m'.handler.output = s.output ∧
      (∀ req, s.FrontParsed req → m'.handler.FrontParsed req) ∧
      (m'.label = .processInbuf .done ∨ m'.label = .idle ∨
        ¬(readHighWaterMark ≤ s.outbuf.length ∧ l.sendWouldBlock = true) ∧ m' = ⟨s, .fill l⟩) := by
  unfold check at h
  split_ifs at h with hcount hempty hfull
  all_goals
    obtain rfl := Except.ok.inj h
  · exact ⟨hcount, rfl, fun _ hfront => hfront, .inl rfl⟩
  · exact ⟨hcount, rfl, fun _ hfront => hfront, .inr (.inl rfl)⟩
  · exact ⟨hcount, rfl, fun _ hfront => hfront, .inr (.inr ⟨hfull, rfl⟩)⟩

/-- The loop that fills `outbuf_` leaves it alone, or begins a response, or goes on with one. -/
theorem fill_spec (h : fill files s l = .ok m') :
    (Full s ∧ m' = ⟨s, .sendMore l⟩) ∨
    m' = ⟨s, .sendMore { l with count := 0 }⟩ ∨
    (s.httpRspState = .body ∧ m' = ⟨s, .body { l with count := 0 }⟩) ∨
    ∃ req reqs t, s.submittedReqQueue = req :: reqs ∧ s.httpRspState = .metadata ∧
      s.responseMeta files req = .ok t ∧ m'.handler = t ∧
      (m'.label = .body { l with count := 0 } ∨ m'.label = .sendMore { l with count := 0 }) := by
  unfold fill at h
  split at h
  · rename_i hnil
    exact .inl ⟨.inl hnil, (Except.ok.inj h).symm⟩
  · rename_i req reqs hqueue
    dsimp only at h
    split at h
    · rename_i hfull
      exact .inl ⟨.inr hfull, (Except.ok.inj h).symm⟩
    · split at h
      · exact .inr (.inl (Except.ok.inj h).symm)
      · split at h
        · rename_i hmeta
          split at h
          · cases h
          · rename_i t ht
            obtain rfl := Except.ok.inj h
            refine .inr (.inr (.inr ⟨req, reqs, t, hqueue, hmeta, ht, rfl, ?_⟩))
            dsimp only
            split_ifs
            · exact .inl rfl
            · exact .inr rfl
        · rename_i hbody
          exact .inr (.inr (.inl ⟨hbody, (Except.ok.inj h).symm⟩))

/-- A response begins. -/
theorem Sends.responseMeta {req : RequestInfo} {t : Handler} (hs : Sends files docroot s)
    (hmeta : s.httpRspState = .metadata) (hparsed : s.FrontParsed req)
    (h : s.responseMeta files req = .ok t) : Sends files docroot t := by
  obtain ⟨head, hhead, hfd, rfl⟩ := Handler.responseMeta_spec h
  obtain ⟨-, hsent⟩ := hs.between hmeta
  refine ⟨hs.root, by simp, fun _ => ?_⟩
  refine ⟨req, partOf files s.docroot req, hparsed, rfl, ?_, by simp⟩
  rw [hs.root] at hhead ⊢
  rw [← hhead, ← hsent]
  simp only [List.append_assoc]

/-- The vectors of `outbuf_` are filled from the file. -/
theorem Sends.body {sizes : List ℕ} (hs : Sends files docroot s) (hstate : s.httpRspState = .body)
    (h : body s l sizes = .ok m') :
    Sends files docroot m'.handler ∧
      (m' = ⟨s, .body l⟩ ∨ m'.label = .processInbuf (.response l) ∨ m'.label = .fill l) := by
  unfold HandlerMachine.body at h
  split_ifs at h with hsizes
  · obtain ⟨req, rest, hparsed, hfd, hsent, hexpected⟩ := hs.within hstate
    simp only [hfd] at h
    split at h
    · cases h
    · rename_i got rest' done hread
      obtain ⟨hrest, hdone⟩ := readLoop_spec hsizes.2.1 hread
      obtain ⟨reqs, hqueue, hreqs⟩ := hparsed
      have hbytes : s.sent ++ (s.outbuf ++ got ++ rest') =
          responses files docroot s.answered ++ responseOf files docroot req := by
        rw [← hsent, hrest, List.append_assoc]
      split_ifs at h with hd
      · obtain rfl := Except.ok.inj h
        refine ⟨⟨hs.root, fun _ => ⟨rfl, ?_⟩, by simp [Handler.finishResponse]⟩, .inr (.inl rfl)⟩
        rw [hdone hd, List.append_nil] at hbytes
        simp only [Handler.finishResponse, hqueue, List.head?_cons, Option.toList_some,
          responses_append, responses_singleton]
        exact hbytes
      · obtain rfl := Except.ok.inj h
        refine ⟨⟨hs.root, ?_, fun _ => ?_⟩, .inr (.inr rfl)⟩
        · simp [hstate]
        · refine ⟨req, rest', ⟨reqs, hqueue, hreqs⟩, rfl, hbytes, ?_⟩
          rw [hexpected, hrest, List.length_append, Nat.add_assoc]
  · obtain rfl := Except.ok.inj h
    exact ⟨hs, .inl rfl⟩

/-- Without an error of `write` no deletion is scheduled. -/
theorem deletions_drain {extents : List (ℕ × WriteResult)} (hwrites : ∀ e ∈ extents, e.2 ≠ .error) :
    (drained s l extents).handler.deletions = s.deletions := by
  have herror : ∀ {vs : List (ℕ × WriteResult)} {buf : Bytes}, (∀ e ∈ vs, e.2 ≠ .error) →
      (writeLoop vs buf).error = false := by
    intro vs
    induction vs with
    | nil => intro buf _; rfl
    | cons v vs ih =>
      intro buf hvs
      obtain ⟨size, result⟩ := v
      cases result with
      | wouldBlock => rfl
      | error => exact absurd rfl (hvs (size, .error) (by simp))
      | wrote n =>
        simp only [writeLoop]
        split_ifs
        · rfl
        · exact ih fun e he => hvs e (by simp [he])
  unfold HandlerMachine.drained
  dsimp only
  simp only [herror hwrites, Bool.false_eq_true, if_false]
  split_ifs <;> rfl

/-- Bytes move from `outbuf_` to the socket. -/
theorem Sends.drain {extents : List (ℕ × WriteResult)} (hs : Sends files docroot s)
    (hkept : (drained s l extents).handler.deletions = s.deletions) :
    Sends files docroot (drained s l extents).handler := by
  unfold HandlerMachine.drained at hkept ⊢
  dsimp only at hkept ⊢
  split_ifs with hdrain hpeeks hfailed
  · -- a failed `write` schedules the deletion
    simp [hdrain, hpeeks, hfailed] at hkept
  · obtain ⟨left, hleft⟩ := writeLoop_spec extents s.outbuf
    generalize (writeLoop extents s.outbuf).bytes = w at hleft ⊢
    have hdrop : s.outbuf.drop w.length = left := by rw [← hleft, List.drop_left]
    constructor
    · exact hs.root
    · intro hmeta
      obtain ⟨hfd, hsent⟩ := hs.between hmeta
      refine ⟨hfd, ?_⟩
      rw [← hleft] at hsent
      simp only [hdrop, List.append_assoc]
      exact hsent
    · intro hbody
      obtain ⟨req, rest, hparsed, hfd, hsent, hexpected⟩ := hs.within hbody
      refine ⟨req, rest, hparsed, hfd, ?_, hexpected⟩
      rw [← hleft] at hsent
      simp only [hdrop, List.append_assoc] at hsent ⊢
      exact hsent
  · exact hs
  · exact hs
  · exact hs

/-- Where the loop that writes `outbuf_` goes on. -/
theorem label_drain (extents : List (ℕ × WriteResult)) :
    (drained s l extents).label = .idle ∨ (∃ l', (drained s l extents).label = .drain l') ∨
      (drained s l extents).label = .addMore l := by
  unfold drained
  dsimp only
  split_ifs
  · exact .inl rfl
  · exact .inr (.inl ⟨_, rfl⟩)
  · exact .inr (.inl ⟨_, rfl⟩)
  · exact .inr (.inr rfl)
  · exact .inl rfl

/-- One step. -/
theorem Sends.step (hs : Sends files docroot m.handler) (hreads : Reads m)
    (hbegins : BeginsParsed m) (hkept : ∀ l extents, m.label = .drain l → c = .write extents →
      m'.handler.deletions = m.handler.deletions)
    (h : step files m c = .ok m') : Sends files docroot m'.handler ∧ Reads m' := by
  obtain ⟨s, label⟩ := m
  unfold HandlerMachine.step at h
  dsimp only at h hs
  split at h
  · -- a readable event
    split_ifs at h
    · obtain rfl := Except.ok.inj h
      exact ⟨hs, by simp [Reads]⟩
    · obtain rfl := Except.ok.inj h
      exact ⟨hs, hreads⟩
  · -- a writable event
    split_ifs at h
    · obtain rfl := Except.ok.inj h
      exact ⟨hs, by simp [Reads]⟩
    · obtain rfl := Except.ok.inj h
      exact ⟨hs, hreads⟩
  · obtain ⟨houtput, hfront, hlabel⟩ := readMore_spec h
    refine ⟨hs.congr houtput hfront, ?_⟩
    rcases hlabel with hl | hl | ⟨noMore, hl⟩ <;> simp [Reads, hl]
  · obtain ⟨houtput, hfront, hlabel⟩ := readMore_spec h
    refine ⟨hs.congr houtput hfront, ?_⟩
    rcases hlabel with hl | hl | ⟨noMore, hl⟩ <;> simp [Reads, hl]
  · rename_i next
    unfold processInbuf at h
    split at h
    · cases h
    · rename_i t want ht
      obtain ⟨houtput, hfront⟩ := Handler.processInbuf_spec ht
      obtain rfl := Except.ok.inj h
      refine ⟨hs.congr houtput hfront, ?_⟩
      intro l hl
      cases next <;> simp only [returnTo] at hl
      · split_ifs at hl
      all_goals cases hl
  · obtain rfl := Except.ok.inj h
    unfold addMore
    dsimp only
    split_ifs
    · exact ⟨hs, by simp [Reads]⟩
    · exact ⟨hs, by simp [Reads]⟩
  · obtain ⟨-, houtput, hfront, hlabel⟩ := check_spec h
    refine ⟨hs.congr houtput hfront, ?_⟩
    rcases hlabel with hl | hl | ⟨-, rfl⟩
    · simp [Reads, hl]
    · simp [Reads, hl]
    · simp [Reads]
  · rename_i l
    rcases fill_spec h with ⟨-, rfl⟩ | rfl | ⟨hbody, rfl⟩ |
        ⟨req, reqs, t, hqueue, hmeta, ht, rfl, -⟩
    · exact ⟨hs, by simp [Reads]⟩
    · exact ⟨hs, by simp [Reads]⟩
    · exact ⟨hs, fun _ _ => hbody⟩
    · have hparsed : s.FrontParsed req := by
        refine ⟨reqs, hqueue, ?_⟩
        by_cases hreqs : reqs = []
        · exact .inl (hbegins hmeta (by simp [hqueue, hreqs]))
        · exact .inr hreqs
      refine ⟨hs.responseMeta hmeta hparsed ht, fun _ _ => ?_⟩
      obtain ⟨head, -, -, ht⟩ := Handler.responseMeta_spec ht
      rw [ht]
  · rename_i l sizes
    have hbody : s.httpRspState = .body := hreads l rfl
    obtain ⟨hs', hlabel⟩ := hs.body hbody h
    refine ⟨hs', ?_⟩
    rcases hlabel with rfl | hl | hl
    · exact fun _ _ => hbody
    · simp [Reads, hl]
    · simp [Reads, hl]
  · obtain rfl := Except.ok.inj h
    exact ⟨hs, by simp [Reads]⟩
  · rename_i l
    obtain rfl := drain_eq_ok h
    refine ⟨hs.drain (deletions_drain (by simp)), ?_⟩
    rcases label_drain (s := s) (l := l) [] with hl | ⟨l', hl⟩ | hl <;> simp [Reads, hl]
  · rename_i l extents
    obtain rfl := drain_eq_ok h
    refine ⟨hs.drain (hkept l extents rfl rfl), ?_⟩
    rcases label_drain (s := s) (l := l) extents with hl | ⟨l', hl⟩ | hl <;> simp [Reads, hl]
  · obtain rfl := Except.ok.inj h
    exact ⟨hs, hreads⟩

/-- A step with the conditions keeps what is sent. -/
theorem Sends.step_of_servesParsed (hs : Sends files docroot m.handler) (hreads : Reads m)
    (hc : ServesParsed m c) (h : HandlerMachine.step files m c = .ok m') :
    Sends files docroot m'.handler ∧ Reads m' := by
  refine hs.step hreads hc.1 ?_ h
  rintro l extents hlabel rfl
  obtain ⟨s, label⟩ := m
  obtain rfl : label = .drain l := hlabel
  obtain rfl := drain_eq_ok h
  exact deletions_drain hc.2

/-! ## The assertions of `send_to_client` -/

/-- Writing sets the counter back or leaves it. -/
theorem Counts.drain {extents : List (ℕ × WriteResult)} (h : Counts ⟨s, .drain l⟩) :
    Counts (drained s l extents) := by
  simp only [Counts] at h
  unfold HandlerMachine.drained
  dsimp only
  split_ifs with hdrain hpeeks hfailed hqueue
  · trivial
  · exact .inl (Nat.zero_le _)
  · exact h
  · simp only [Counts]
    rcases h with h | ⟨hcount, hempty | hfull⟩
    · exact .inl h
    · exact absurd hempty hqueue
    · refine .inr ⟨hcount, hfull, ?_⟩
      by_contra hblock
      apply hdrain
      refine ⟨?_, by simpa using hblock⟩
      rintro hnil
      simp [hnil, readHighWaterMark] at hfull
  · trivial

/-- Every step keeps the bound of the counter. -/
theorem Counts.step (hm : Counts m) (h : step files m c = .ok m') : Counts m' := by
  obtain ⟨s, label⟩ := m
  unfold HandlerMachine.step at h
  dsimp only at h
  split at h
  · obtain rfl := Except.ok.inj h
    split_ifs
    · trivial
    · exact hm
  · obtain rfl := Except.ok.inj h
    split_ifs
    · exact .inl (Nat.zero_le _)
    · exact hm
  · obtain ⟨-, -, hl | hl | ⟨noMore, hl⟩⟩ := readMore_spec h <;> simp [Counts, hl]
  · obtain ⟨-, -, hl | hl | ⟨noMore, hl⟩⟩ := readMore_spec h <;> simp [Counts, hl]
  · rename_i next
    unfold processInbuf at h
    split at h
    · cases h
    · rename_i t want ht
      obtain ⟨houtput, -⟩ := Handler.processInbuf_spec ht
      have houtbuf : t.outbuf = s.outbuf := congrArg (fun o => o.2.1) houtput
      obtain rfl := Except.ok.inj h
      cases next with
      | recv noMore =>
        simp only [returnTo]
        split_ifs <;> trivial
      | addMore l =>
        simp only [Counts, returnTo, houtbuf] at hm ⊢
        exact hm
      | response l =>
        simp only [Counts, returnTo] at hm ⊢
        omega
      | done => trivial
  · obtain rfl := Except.ok.inj h
    unfold addMore
    simp only [Counts] at hm
    dsimp only
    split_ifs
    all_goals
      simp only [Counts]
      rcases hm with hcount | ⟨hcount, hfull⟩
      · exact .inl (by omega)
      · exact .inr ⟨by omega, hfull⟩
  · obtain ⟨-, -, -, hl | hl | ⟨hfull, rfl⟩⟩ := check_spec h
    · simp [Counts, hl]
    · simp [Counts, hl]
    · simp only [Counts] at hm ⊢
      rcases hm with hcount | ⟨-, hfull'⟩
      · exact hcount
      · exact absurd hfull' hfull
  · simp only [Counts] at hm
    rcases fill_spec h with ⟨hfull, rfl⟩ | rfl | ⟨hbody, rfl⟩ |
        ⟨req, reqs, t, -, -, -, rfl, hl | hl⟩
    · exact .inr ⟨hm, hfull⟩
    · exact .inl rfl
    · rfl
    · simp [Counts, hl]
    · simp [Counts, hl]
  · simp only [Counts] at hm
    unfold HandlerMachine.body at h
    split_ifs at h
    · split at h
      · cases h
      · split at h
        · cases h
        · split_ifs at h
          · obtain rfl := Except.ok.inj h
            exact hm
          · obtain rfl := Except.ok.inj h
            simp [Counts, hm]
    · obtain rfl := Except.ok.inj h
      exact hm
  · obtain rfl := Except.ok.inj h
    simp only [Counts] at hm ⊢
    rcases hm with hcount | ⟨hcount, hfull⟩
    · exact .inl (by omega)
    · exact .inr ⟨by omega, hfull⟩
  · obtain rfl := drain_eq_ok h
    exact hm.drain
  · obtain rfl := drain_eq_ok h
    exact hm.drain
  · obtain rfl := Except.ok.inj h
    exact hm

/-- The assertions on the files and the numbers of bytes in `send_to_client`, and its guard against
loops that make no progress. -/
def SendAssertion (f : HandlerFault) : Prop :=
  f = .bodyBytes ∨ f = .activeFd ∨ f = .read ∨ f = .count

/-- Receiving fails only for a vector that was skipped. -/
theorem recvLoop_fault {vectors : List (ℕ × RecvResult)} {data : Bytes} {skipped : Bool}
    {f : HandlerFault} (h : recvLoop vectors data skipped = .error f) : f = .commit := by
  induction vectors generalizing data skipped with
  | nil => simp [recvLoop] at h
  | cons v vs ih =>
    obtain ⟨size, result⟩ := v
    cases result with
    | bytes d =>
      simp only [recvLoop] at h
      split_ifs at h
      · exact (Except.error.inj h).symm
      · exact ih h
    | eof => simp [recvLoop] at h
    | wouldBlock => exact ih h
    | error => simp [recvLoop] at h

/-- Reading fails only for a vector that was skipped. -/
theorem readMore_fault {vectors : List (ℕ × RecvResult)} {f : HandlerFault}
    (h : readMore s vectors = .error f) : f = .commit := by
  unfold readMore at h
  split_ifs at h
  split at h
  · rename_i hloop
    obtain rfl := Except.error.inj h
    exact recvLoop_fault hloop
  · cases h
  · split_ifs at h

/-- Filling `outbuf_` fails only where a response is begun. -/
theorem fill_fault {l : Locals} {f : HandlerFault} (h : fill files s l = .error f) :
    s.httpRspState = .metadata ∧
    (f = .file ∨ f = .lastBytePos ∨ f = .activeFd ∧ s.activeFd ≠ none) := by
  unfold fill at h
  split at h
  · cases h
  · dsimp only at h
    split at h
    · cases h
    · split at h
      · cases h
      · split at h
        · rename_i hmeta
          refine ⟨hmeta, ?_⟩
          split at h
          · rename_i f' hresponse
            obtain rfl := Except.error.inj h
            unfold Handler.responseMeta at hresponse
            split at hresponse
            · exact .inl (Except.error.inj hresponse).symm
            · split_ifs at hresponse with _ _ _ hfd
              · exact .inl (Except.error.inj hresponse).symm
              · exact .inr (.inl (Except.error.inj hresponse).symm)
              · exact .inr (.inr ⟨(Except.error.inj hresponse).symm, hfd⟩)
              · exact .inl (Except.error.inj hresponse).symm
          · cases h
        · cases h

/-- The checks of `process_inbuf_`: on a request line, on the length of the queue and on a range. -/
def InbufCheck : HandlerFault → Prop
  | .requestLine | .pipeline | .range | .parse _ | .emptyQueue => True
  | _ => False

/-- What `process_inbuf_` checks is not asserted by `send_to_client`. -/
theorem InbufCheck.not_sendAssertion {f : HandlerFault} (h : InbufCheck f) : ¬SendAssertion f := by
  rintro (rfl | rfl | rfl | rfl) <;> exact h

/-- A header line fails a check of `process_inbuf_`. -/
theorem headerLine_fault {line : Bytes} {f : HandlerFault} (h : s.headerLine line = .error f) :
    InbufCheck f := by
  unfold Handler.headerLine at h
  split_ifs at h
  split at h
  · rename_i f' hrange
    unfold Handler.firstBytePosOf at hrange
    obtain rfl := Except.error.inj h
    split at hrange
    · obtain rfl := Except.error.inj hrange
      simp [InbufCheck]
    · obtain rfl := Except.error.inj hrange
      simp [InbufCheck]
    · split_ifs at hrange
      obtain rfl := Except.error.inj hrange
      simp [InbufCheck]
  · unfold Handler.setFirstBytePos at h
    split at h
    · obtain rfl := Except.error.inj h
      simp [InbufCheck]
    · cases h

/-- The header lines fail checks of `process_inbuf_`. -/
theorem processHeaders_fault {fuel : ℕ} {f : HandlerFault}
    (h : Handler.processHeaders fuel s = .error f) : InbufCheck f := by
  induction fuel generalizing s with
  | zero => simp [Handler.processHeaders] at h
  | succ fuel ih =>
    unfold Handler.processHeaders at h
    split at h
    · cases h
    · split_ifs at h
      split at h
      · rename_i hline
        obtain rfl := Except.error.inj h
        exact headerLine_fault hline
      · exact ih h

/-- `process_inbuf_` fails its own checks. -/
theorem processInbuf_fault {f : HandlerFault} (h : s.processInbuf = .error f) :
    InbufCheck f := by
  unfold Handler.processInbuf at h
  split at h
  · rename_i f' hextract
    obtain rfl := Except.error.inj h
    unfold Handler.extractRequest at hextract
    split_ifs at hextract
    split at hextract
    · unfold Handler.processReqLine at hextract
      split at hextract
      · cases hextract
      · split at hextract
        · rename_i f'' hpath
          obtain rfl := Except.error.inj hextract
          unfold Handler.relpath at hpath
          dsimp only at hpath
          split at hpath
          · obtain rfl := Except.error.inj hpath
            simp [InbufCheck]
          · split_ifs at hpath
            · obtain rfl := Except.error.inj hpath
              simp [InbufCheck]
            · split at hpath
              · obtain rfl := Except.error.inj hpath
                simp [InbufCheck]
              · cases hpath
        · dsimp only at hextract
          split_ifs at hextract
          · exact processHeaders_fault hextract
          · obtain rfl := Except.error.inj hextract
            simp [InbufCheck]
    · exact processHeaders_fault hextract
  · cases h

/-- How a step ends the program: for what was received, in a check of `process_inbuf_`, by the guard
of the loop, for the file of a request, or in the log of a write that fails. -/
inductive StepFault (m : HandlerMachine) (c : Choice) : HandlerFault → Prop
  | received (label : m.label = .readMore) : StepFault m c .commit
  | request {f : HandlerFault} (next : After) (label : m.label = .processInbuf next)
      (check : InbufCheck f) : StepFault m c f
  | guard (l : Locals) (label : m.label = .check l) (count : 0x2f ≤ l.count) : StepFault m c .count
  | file {f : HandlerFault} (l : Locals) (label : m.label = .fill l)
      (metadata : m.handler.httpRspState = .metadata)
      (check : f = .file ∨ f = .lastBytePos ∨ f = .activeFd ∧ m.handler.activeFd ≠ none) :
      StepFault m c f
  | unopened (l : Locals) (label : m.label = .body l) (closed : m.handler.activeFd = none) :
      StepFault m c .read
  | body {f : HandlerFault} (l : Locals) (sizes : List ℕ) (rest : Bytes) (label : m.label = .body l)
      (opened : m.handler.activeFd = some rest)
      (read : Handler.readLoop m.handler.numRespBodyBytesExpectedToSend sizes rest
        m.handler.numBodyBytesRead = .error f) : StepFault m c f
  | log (l : Locals) (extents : List (ℕ × WriteResult)) (label : m.label = .drain l)
      (choice : c = .write extents) (unqueued : FailsUnqueued m.handler l extents) :
      StepFault m c .emptyFront

/-- A step that faults does so at its place. -/
theorem step_fault {f : HandlerFault} (h : HandlerMachine.step files m c = .error f) :
    StepFault m c f := by
  obtain ⟨s, label⟩ := m
  unfold HandlerMachine.step at h
  dsimp only at h
  split at h
  · cases h
  · cases h
  · rw [readMore_fault h]
    exact .received rfl
  · rw [readMore_fault h]
    exact .received rfl
  · unfold HandlerMachine.processInbuf at h
    split at h
    · rename_i hprocess
      obtain rfl := Except.error.inj h
      exact .request _ rfl (processInbuf_fault hprocess)
    · cases h
  · cases h
  · unfold check at h
    split_ifs at h with hcount
    obtain rfl := Except.error.inj h
    exact .guard _ rfl (not_lt.mp hcount)
  · obtain ⟨hmeta, hcheck⟩ := fill_fault h
    exact .file _ rfl hmeta hcheck
  · unfold HandlerMachine.body at h
    split_ifs at h
    split at h
    · rename_i hclosed
      obtain rfl := Except.error.inj h
      exact .unopened _ rfl hclosed
    · rename_i hopened
      split at h
      · rename_i hread
        obtain rfl := Except.error.inj h
        exact .body _ _ _ rfl hopened hread
      · split_ifs at h
  · cases h
  · simp at h
  · obtain ⟨rfl, hunqueued⟩ := drain_fault h
    exact .log _ _ rfl rfl hunqueued
  · cases h

/-- The counter stays below the limit of the guard. -/
theorem Counts.count_lt {l : Locals} (h : Counts m) (hlabel : m.label = .check l) :
    l.count < 0x2f := by
  simp only [Counts, hlabel] at h
  omega

/-- The assertions of `send_to_client` hold. -/
theorem Sends.not_sendAssertion {f : HandlerFault} (hs : Sends files docroot m.handler)
    (hreads : Reads m) (hcounts : Counts m) (h : HandlerMachine.step files m c = .error f) :
    ¬SendAssertion f := by
  cases step_fault h with
  | received => simp [SendAssertion]
  | request next hlabel hcheck => exact hcheck.not_sendAssertion
  | guard l hlabel hcount => exact absurd (hcounts.count_lt hlabel) (not_lt.mpr hcount)
  | file l hlabel hmeta hcheck =>
    obtain rfl | rfl | ⟨-, hfd⟩ := hcheck
    · simp [SendAssertion]
    · simp [SendAssertion]
    · exact absurd (hs.between hmeta).1 hfd
  | unopened l hlabel hclosed =>
    obtain ⟨req, rest, -, hfd, -⟩ := hs.within (hreads l hlabel)
    rw [hclosed] at hfd
    cases hfd
  | body l sizes rest hlabel hopened hread =>
    obtain ⟨req, rest', -, hfd, -, hexpected⟩ := hs.within (hreads l hlabel)
    obtain rfl := Option.some.inj (hfd.symm.trans hopened)
    obtain ⟨found, hfound⟩ := readLoop_eq_ok hexpected
    rw [hfound] at hread
    cases hread
  | log => simp [SendAssertion]

/-! ## Runs -/

/-- A new handler has sent nothing. -/
theorem sends_new (files : Files) (docroot : Bytes) :
    Sends files docroot (new docroot).handler ∧ Reads (new docroot) ∧ Counts (new docroot) := by
  refine ⟨⟨rfl, fun _ => ⟨rfl, rfl⟩, ?_⟩, ?_, trivial⟩
  · simp [new, Handler.new]
  · simp [Reads, new]

/-- What was sent and what is in `outbuf_` are the beginning of the responses. -/
theorem Sends.sent_isPrefix (hs : Sends files docroot s) :
    s.sent ++ s.outbuf <+: responses files docroot (s.answered ++ s.submittedReqQueue) := by
  rw [responses_append]
  cases hstate : s.httpRspState with
  | metadata =>
    rw [(hs.between hstate).2]
    exact List.prefix_append _ _
  | body =>
    obtain ⟨req, rest, ⟨reqs, hqueue, -⟩, -, hsent, -⟩ := hs.within hstate
    refine ⟨rest ++ responses files docroot reqs, ?_⟩
    have hcons : req :: reqs = [req] ++ reqs := rfl
    rw [hqueue, hcons, responses_append, responses_singleton, ← List.append_assoc,
      List.append_assoc s.sent, hsent, List.append_assoc]

/-- Writing `outbuf_` answers no request. -/
theorem answered_drained {extents : List (ℕ × WriteResult)} :
    (drained s l extents).handler.answered = s.answered := by
  unfold HandlerMachine.drained
  dsimp only
  split_ifs <;> rfl

/-- A request is answered only by a step that ends its response. -/
theorem answered_or_metadata (h : HandlerMachine.step files m c = .ok m') :
    m'.handler.answered = m.handler.answered ∨ m'.handler.httpRspState = .metadata := by
  obtain ⟨s, label⟩ := m
  have houtput : ∀ {t : Handler}, t.output = s.output → t.answered = s.answered := by
    intro t ht
    simp only [Handler.output, Prod.mk.injEq] at ht
    exact ht.2.2.2.2.2.2.2
  unfold HandlerMachine.step at h
  dsimp only at h
  split at h
  · obtain rfl := Except.ok.inj h
    split_ifs <;> exact .inl rfl
  · obtain rfl := Except.ok.inj h
    split_ifs <;> exact .inl rfl
  · exact .inl (houtput (readMore_spec h).1)
  · exact .inl (houtput (readMore_spec h).1)
  · unfold HandlerMachine.processInbuf at h
    split at h
    · cases h
    · rename_i t want ht
      obtain rfl := Except.ok.inj h
      exact .inl (houtput (Handler.processInbuf_spec ht).1)
  · obtain rfl := Except.ok.inj h
    unfold addMore
    dsimp only
    split_ifs <;> exact .inl rfl
  · exact .inl (houtput (check_spec h).2.1)
  · rcases fill_spec h with ⟨-, rfl⟩ | rfl | ⟨-, rfl⟩ | ⟨req, reqs, t, -, -, ht, rfl, -⟩
    · exact .inl rfl
    · exact .inl rfl
    · exact .inl rfl
    · obtain ⟨head, -, -, ht⟩ := Handler.responseMeta_spec ht
      rw [ht]
      exact .inl rfl
  · unfold HandlerMachine.body at h
    split_ifs at h
    · split at h
      · cases h
      · split at h
        · cases h
        · split_ifs at h
          · obtain rfl := Except.ok.inj h
            exact .inr rfl
          · obtain rfl := Except.ok.inj h
            exact .inl rfl
    · obtain rfl := Except.ok.inj h
      exact .inl rfl
  · obtain rfl := Except.ok.inj h
    exact .inl rfl
  · obtain rfl := drain_eq_ok h
    exact .inl answered_drained
  · obtain rfl := drain_eq_ok h
    exact .inl answered_drained
  · obtain rfl := Except.ok.inj h
    exact .inl rfl

/-- The state after a run whose responses begin only when their requests are parsed. -/
theorem sends_of_servesParsed {cs : List Choice}
    (hc : StepsMeet (HandlerMachine.step files) ServesParsed (new docroot) cs)
    (hrun : runSteps (HandlerMachine.step files) (new docroot) cs = .ok m) :
    Sends files docroot m.handler ∧ Reads m ∧ Counts m := by
  refine invariant_of_stepsMeet (fun m => Sends files docroot m.handler ∧ Reads m ∧ Counts m) ?_
    (sends_new files docroot) hc hrun
  rintro m c m' ⟨hs, hreads, hcounts⟩ hP hstep
  obtain ⟨hs', hreads'⟩ := hs.step_of_servesParsed hreads hP hstep
  exact ⟨hs', hreads', hcounts.step hstep⟩

/-- In every run in which responses begin only when their requests are parsed completely and no
write fails, at every step: what was written and what is in `outbuf_` are the beginning of the
responses in the order of the requests, they end with a response when a request is popped, and the
assertions of `send_to_client` hold. The header of a response gives the length of the part that is
sent, and a content range just if the request has a range. -/
theorem sends_exactly (files : Files) (docroot : Bytes) (cs : List Choice)
    (hc : StepsMeet (HandlerMachine.step files) ServesParsed (new docroot) cs) :
    (∀ m, runSteps (HandlerMachine.step files) (new docroot) cs = .ok m →
      m.handler.sent ++ m.handler.outbuf <+:
        responses files docroot (m.handler.answered ++ m.handler.submittedReqQueue) ∧
      ∀ c m', ServesParsed m c → HandlerMachine.step files m c = .ok m' →
        m'.handler.answered ≠ m.handler.answered →
        m'.handler.sent ++ m'.handler.outbuf = responses files docroot m'.handler.answered) ∧
    (∀ f, runSteps (HandlerMachine.step files) (new docroot) cs = .error f → ¬SendAssertion f) ∧
    ∀ req, ascii "Content-Length: " ++ decimal (partOf files docroot req).length ∈
        responseLines files docroot req ∧
      ((∃ value, ascii "Content-Range: " ++ value ∈ responseLines files docroot req) ↔
        0 ≤ req.firstBytePos) := by
  refine ⟨?_, ?_, ?_⟩
  · intro m hrun
    obtain ⟨hs, hreads, -⟩ := sends_of_servesParsed hc hrun
    refine ⟨hs.sent_isPrefix, ?_⟩
    intro c m' hP hstep hanswered
    have hmeta := (answered_or_metadata hstep).resolve_left hanswered
    exact ((hs.step_of_servesParsed hreads hP hstep).1.between hmeta).2
  · intro f hrun
    refine fault_of_stepsMeet (fun m => Sends files docroot m.handler ∧ Reads m ∧ Counts m)
      (fun f => ¬SendAssertion f) ?_ ?_ (sends_new files docroot) hc hrun
    · rintro m c m' ⟨hs, hreads, hcounts⟩ hP hstep
      obtain ⟨hs', hreads'⟩ := hs.step_of_servesParsed hreads hP hstep
      exact ⟨hs', hreads', hcounts.step hstep⟩
    · rintro m c f ⟨hs, hreads, hcounts⟩ - hstep
      exact hs.not_sendAssertion hreads hcounts hstep
  · exact fun req => ⟨contentLength_mem_responseLines req, contentRange_mem_responseLines_iff req⟩

/-- A file of two bytes. -/
def twoBytes : Files := fun path => if path = ascii "d/a" then some (ascii "hi") else none

/-- The second byte is asked for. The socket first takes ten bytes of the response. -/
def secondByte : List Choice :=
  [.readable,
    .recv [(2048,
      .bytes (ascii "GET /a HTTP/1.1" ++ crlf ++ ascii "Range: bytes=1-" ++ crlf ++ crlf))], .go,
    .writable, .go, .go, .go, .go, .write [(89, .wrote 10)], .go, .go, .go, .go, .reserve [8192],
      .go, .go,
    .go, .go, .writable, .go, .go, .go, .go, .write [(80, .wrote 80)], .go]

/-- One byte of a file of two is asked for and sent. -/
theorem sends_exactly_secondByte :
    ∃ m, runSteps (HandlerMachine.step twoBytes) (new (ascii "d")) secondByte = .ok m ∧
      m.handler.outbuf = [] ∧ m.handler.sent.length = 90 ∧
      m.handler.sent ++ m.handler.outbuf <+:
        responses twoBytes (ascii "d") (m.handler.answered ++ m.handler.submittedReqQueue) :=
  ⟨_, rfl, rfl, rfl, ((sends_exactly twoBytes (ascii "d") secondByte (by decide)).1 _ rfl).1⟩

end HandlerMachine

end ShadowExtras.Web
