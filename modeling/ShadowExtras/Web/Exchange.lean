import ShadowExtras.Web.ExchangeMessages

/-!
# A client and the web server on one connection

The client submits requests at any time, writes them to the connection and parses what it receives;
the server handles the same connection. The bytes that the server has written and the client has not
received are in `toRecv`. A step is one of the client or one of the server, as the surroundings
choose, and they choose how much every call of `recv` and `write` passes.

The client of `Demultiplexing` gets whole responses. Here a part of the responses, `rest`, is still
in the server; what the client does is what it would do if `rest` were on its way as well
(`step_after`), and what the server sends next comes out of `rest`. `exchanges_of_run`: the requests
are told the files that they ask for, each from the byte position on that it asks for, once and in
order.
-/

namespace ShadowExtras.Web

open Foundation HttpConnection HttpRequest

/-! ## The system -/

/-- A connection with both of its ends. -/
structure Exchange (E : Evbuffer) where
  client : Pipeline E
  server : HandlerMachine

/-- A step of the client or of the server. -/
inductive ExchangeEvent
  | client (choice : PipelineChoice)
  | server (c : Choice)

/-- The ways a step fails. -/
inductive ExchangeFault
  | client (fault : HttpFault)
  | server (fault : HandlerFault)

namespace Exchange

variable {E : Evbuffer}

/-- A connection that was just accepted. -/
def new (E : Evbuffer) (doPipeline : Bool) (maxPipelineSize : ℕ) (docroot : Bytes) :
    Exchange E where
  client := Pipeline.new E doPipeline maxPipelineSize
  server := HandlerMachine.new docroot

/-- One step; what the server writes is on its way. -/
def step (asked : ReqId → Asked) (files : Files) (s : Exchange E) :
    ExchangeEvent → Except ExchangeFault (Exchange E)
  | .client choice =>
    match Pipeline.step asked s.client choice with
    | .error fault => .error (.client fault)
    | .ok client => .ok { s with client := client }
  | .server c =>
    match HandlerMachine.step files s.server c with
    | .error fault => .error (.server fault)
    | .ok server =>
      .ok {
        client := { s.client with
          toRecv := s.client.toRecv ++ server.handler.sent.drop s.server.handler.sent.length }
        server := server }

/-- No socket of the server fails in this step. -/
def KeepsSocket (files : Files) (m : HandlerMachine) (c : Choice) : Prop :=
  match HandlerMachine.step files m c with
  | .error _ => True
  | .ok m' => m'.handler.deletions = 0

/-- What is left to the surroundings: the responses come from the server, which receives what the
client has written, and takes every request line with the headers behind it. -/
def Proper (files : Files) (s : Exchange E) : ExchangeEvent → Prop
  | .client (.answer _) => False
  | .client choice => s.client.AppendsReceived choice
  | .server c => HandlerMachine.ReceivesFrom files s.client.outbuf s.server c ∧
      HandlerMachine.ParsesWhole s.server c ∧ KeepsSocket files s.server c

/-- The same as an equation of numbers. -/
theorem keepsSocket_iff (files : Files) (m : HandlerMachine) (c : Choice) :
    ((HandlerMachine.step files m c).toOption.map fun m' => m'.handler.deletions).getD 0 = 0 ↔
      KeepsSocket files m c := by
  unfold KeepsSocket
  cases HandlerMachine.step files m c with
  | error fault => exact ⟨fun _ => trivial, fun _ => rfl⟩
  | ok m' => exact Iff.rfl

instance (files : Files) (m : HandlerMachine) (c : Choice) : Decidable (KeepsSocket files m c) :=
  @decidable_of_iff _ _ (keepsSocket_iff files m c) (Nat.decEq _ 0)

instance (files : Files) (s : Exchange E) (e : ExchangeEvent) : Decidable (s.Proper files e) := by
  unfold Proper
  split <;> infer_instance

/-- The request of the client, with the response that the server should send. -/
def served (asked : ReqId → Asked) (docroot : Bytes) {files : Files} (h : SmallFiles files)
    (req : ReqId) :
    ReqId × HttpResponse :=
  (req, fileResponse docroot h (asked req).wanted)

/-- Nothing is left to be done: both ends are idle, and have received what the other one has
sent. -/
structure Quiet (s : Exchange E) : Prop where
  client : s.client.label = .idle
  toRecv : s.client.toRecv = []
  server : s.server.label = .idle
  writes : s.server.handler.writeToClientEnabled = false
  received : s.server.handler.received = s.client.outbuf

/-- The requests were told their files: the first ones completely, the next one a first part of its
file, and all of them when nothing is left to be done. -/
def Exchanges (asked : ReqId → Asked) (docroot : Bytes) {files : Files} (h : SmallFiles files)
    (s : Exchange E) : Prop :=
  ∃ finished todo blocks block, s.client.written = finished ++ todo ∧
    s.client.told = blocks.flatten ++ block ∧
    List.Forall₂ Pipeline.Delivers (finished.map (served asked docroot h)) blocks ∧
    (block = [] ∨ ∃ req, todo.head? = some req ∧
      Pipeline.BeginsToDeliver (served asked docroot h req) block) ∧
    (s.Quiet → todo = [])

end Exchange

/-! ## The client while a part of the responses is in the server -/

namespace Pipeline

variable {E : Evbuffer} {asked : ReqId → Asked} {s t : Pipeline E} {rest : Bytes}
    {rs : List HttpResponse}

/-- The client when `rest` is on its way as well, and the responses are `rs`. -/
def after (s : Pipeline E) (rest : Bytes) (rs : List HttpResponse) : Pipeline E :=
  { s with toRecv := s.toRecv ++ rest, responses := rs }

/-- Calls of `recv` find the same in front of more bytes. -/
theorem recvLoop_append {sizes : List ℕ} {results : List NumRead} {stream : Bytes} {r : Filled}
    (h : HttpConnection.recvLoop sizes results stream = .ok r) (rest : Bytes) :
    ∃ results', HttpConnection.recvLoop sizes results' (stream ++ rest) =
      .ok { r with rest := r.rest ++ rest } := by
  induction sizes generalizing results stream r with
  | nil =>
    rw [HttpConnection.recvLoop] at h
    · obtain rfl := Except.ok.inj h
      exact ⟨[], by simp [HttpConnection.recvLoop]⟩
    all_goals simp
  | cons size sizes ih =>
    cases results with
    | nil =>
      rw [HttpConnection.recvLoop] at h
      · obtain rfl := Except.ok.inj h
        exact ⟨[], by simp [HttpConnection.recvLoop]⟩
      all_goals simp
    | cons result results =>
      cases result with
      | error => simp [HttpConnection.recvLoop] at h
      | wouldBlock held =>
        rw [HttpConnection.recvLoop] at h
        cases hloop : HttpConnection.recvLoop sizes results stream with
        | error f =>
          rw [hloop] at h
          cases h
        | ok r' =>
          rw [hloop] at h
          obtain rfl := Except.ok.inj h
          obtain ⟨results', hresults'⟩ := ih hloop
          exact ⟨.wouldBlock held :: results', by rw [HttpConnection.recvLoop, hresults']⟩
      | bytes n =>
        obtain ⟨got, hgot⟩ : ∃ got, got = stream.take (min n (min size nToAdd)) := ⟨_, rfl⟩
        have hlength : got.length ≤ stream.length := by
          rw [hgot, List.length_take]
          omega
        have hle : got.length ≤ min size nToAdd := by
          rw [hgot, List.length_take]
          omega
        -- as many bytes as were got
        have hsame : (stream ++ rest).take (min got.length (min size nToAdd)) = got := by
          rw [Nat.min_eq_left hle, List.take_append_of_le_length hlength, hgot]
          simp
        have hdrop : (stream ++ rest).drop got.length = stream.drop got.length ++ rest :=
          List.drop_append_of_le_length hlength
        rw [HttpConnection.recvLoop] at h
        simp only [← hgot] at h
        split_ifs at h with hnil hshort
        · obtain rfl := Except.ok.inj h
          refine ⟨[.bytes 0], ?_⟩
          rw [HttpConnection.recvLoop]
          simp
        · obtain rfl := Except.ok.inj h
          refine ⟨[.bytes got.length], ?_⟩
          rw [HttpConnection.recvLoop]
          simp only [hsame, if_neg hnil, if_pos hshort, hdrop]
        · cases hloop : HttpConnection.recvLoop sizes results (stream.drop got.length) with
          | error f =>
            rw [hloop] at h
            cases h
          | ok r' =>
            rw [hloop] at h
            obtain rfl := Except.ok.inj h
            obtain ⟨results', hresults'⟩ := ih hloop
            refine ⟨.bytes got.length :: results', ?_⟩
            rw [HttpConnection.recvLoop]
            simp only [hsame, if_neg hnil, if_neg hshort, hdrop, hresults']

/-- Nothing but `recv` depends on what is on its way. -/
theorem httpWriteToOutbuf_after (asked : ReqId → Asked) (s : Pipeline E) (rest : Bytes)
    (rs : List HttpResponse) :
    (s.after rest rs).httpWriteToOutbuf asked = (s.httpWriteToOutbuf asked).after rest rs := by
  unfold httpWriteToOutbuf after
  dsimp only
  split
  · rfl
  · split_ifs <;> rfl

/-- Parsing does not depend on what comes after. -/
theorem handleResponse_after (s : Pipeline E) (found : Bool) (rest : Bytes)
    (rs : List HttpResponse) :
    (s.after rest rs).handleResponse found = (s.handleResponse found).map (·.after rest rs) := by
  unfold handleResponse
  rw [show (s.after rest rs).http = s.http from rfl,
    show (s.after rest rs).activeReqQueue = s.activeReqQueue from rfl]
  cases s.http.handleResponse (!s.activeReqQueue.isEmpty) found <;> rfl

/-- `read_more` finds the same in front of more bytes. -/
theorem readMore_after {found : Bool} {results : List NumRead}
    (h : s.readMore found results = .ok t) (rest : Bytes) (rs : List HttpResponse) :
    ∃ results', (s.after rest rs).readMore found results' = .ok (t.after rest rs) ∧
      ∃ r, HttpConnection.recvLoop (E.reserve s.http.inbuf nToAdd).2 results s.toRecv = .ok r ∧
        HttpConnection.recvLoop (E.reserve s.http.inbuf nToAdd).2 results' (s.toRecv ++ rest) =
          .ok { r with rest := r.rest ++ rest } := by
  unfold readMore at h
  dsimp only at h
  cases hloop : HttpConnection.recvLoop (E.reserve s.http.inbuf nToAdd).2 results s.toRecv with
  | error f =>
    rw [hloop] at h
    cases h
  | ok r =>
    rw [hloop] at h
    obtain ⟨results', hresults'⟩ := recvLoop_append hloop rest
    refine ⟨results', ?_, r, rfl, hresults'⟩
    unfold readMore after
    dsimp only
    rw [hresults']
    dsimp only at h ⊢
    split_ifs at h ⊢
    · obtain rfl := Except.ok.inj h
      rfl
    · obtain rfl := Except.ok.inj h
      rfl

/-- A step of the client is one of the client when `rest` is on its way as well. -/
theorem step_after {choice : PipelineChoice} (hchoice : ∀ r, choice ≠ .answer r)
    (happends : s.AppendsReceived choice) (h : step asked s choice = .ok t) (rest : Bytes)
    (rs : List HttpResponse) :
    ∃ choice', (s.after rest rs).AppendsReceived choice' ∧
      step asked (s.after rest rs) choice' = .ok (t.after rest rs) := by
  have hlabel : (s.after rest rs).label = s.label := rfl
  have hidle : ∀ choice', (∀ results, choice' ≠ .recv results) →
      (s.after rest rs).AppendsReceived choice' := by
    intro choice' hne
    unfold AppendsReceived
    split
    · exact absurd rfl (hne _)
    · trivial
  cases choice with
  | submit req =>
    refine ⟨.submit req, hidle _ (by simp), ?_⟩
    obtain rfl := Except.ok.inj h
    exact congrArg Except.ok (httpWriteToOutbuf_after asked
      { s with submittedReqQueue := s.submittedReqQueue ++ [req] } rest rs)
  | answer r => exact absurd rfl (hchoice r)
  | writable =>
    refine ⟨.writable, hidle _ (by simp), ?_⟩
    unfold step at h ⊢
    rw [hlabel]
    cases hs : s.label with
    | idle =>
      simp only [hs] at h ⊢
      obtain rfl := Except.ok.inj h
      exact congrArg Except.ok (httpWriteToOutbuf_after asked s rest rs)
    | readMore | handleResponse | bodyDone | requestDone =>
      simp only [hs] at h ⊢
      obtain rfl := Except.ok.inj h
      rfl
  | readable =>
    refine ⟨.readable, hidle _ (by simp), ?_⟩
    unfold step at h ⊢
    rw [hlabel]
    cases hs : s.label with
    | idle =>
      simp only [hs] at h ⊢
      obtain rfl := Except.ok.inj h
      unfold onRead after
      dsimp only
      split_ifs <;> rfl
    | readMore | handleResponse | bodyDone | requestDone =>
      simp only [hs] at h ⊢
      obtain rfl := Except.ok.inj h
      rfl
  | go =>
    refine ⟨.go, hidle _ (by simp), ?_⟩
    unfold step at h ⊢
    rw [hlabel]
    cases hs : s.label with
    | idle | readMore =>
      simp only [hs] at h ⊢
      obtain rfl := Except.ok.inj h
      rfl
    | handleResponse found =>
      simp only [hs] at h ⊢
      rw [handleResponse_after, h]
      rfl
    | bodyDone found =>
      simp only [hs] at h ⊢
      obtain rfl := Except.ok.inj h
      rfl
    | requestDone found =>
      simp only [hs] at h ⊢
      obtain rfl := Except.ok.inj h
      exact congrArg Except.ok (httpWriteToOutbuf_after asked
        { s with label := .handleResponse found } rest rs)
  | recv results =>
    unfold step at h
    cases hs : s.label with
    | readMore found =>
      simp only [hs] at h
      obtain ⟨results', hstep, r, hloop, hloop'⟩ := readMore_after h rest rs
      refine ⟨.recv results', ?_, ?_⟩
      · have hreceived : s.toRecv = (r.vectors.take r.numToCommit).flatten ++ r.rest := by
          unfold AppendsReceived at happends
          simp only [hs, hloop] at happends
          exact happends
        unfold AppendsReceived
        rw [hlabel, hs]
        dsimp only
        rw [show (s.after rest rs).http = s.http from rfl,
          show (s.after rest rs).toRecv = s.toRecv ++ rest from rfl, hloop']
        dsimp only
        rw [hreceived, List.append_assoc]
      · unfold step
        rw [hlabel, hs]
        exact hstep
    | idle | handleResponse | bodyDone | requestDone =>
      simp only [hs] at h
      obtain rfl := Except.ok.inj h
      refine ⟨.recv results, ?_, ?_⟩
      · unfold AppendsReceived
        rw [hlabel, hs]
        trivial
      · unfold step
        rw [hlabel, hs]

/-- A step of the client writes at most one request. -/
theorem written_httpWriteToOutbuf (asked : ReqId → Asked) (s : Pipeline E) :
    (s.httpWriteToOutbuf asked).written = s.written ∨
      ∃ req, (s.httpWriteToOutbuf asked).written = s.written ++ [req] := by
  unfold httpWriteToOutbuf
  split
  · exact .inl rfl
  · dsimp only
    split_ifs
    · exact .inl rfl
    · exact .inl rfl
    · exact .inr ⟨_, rfl⟩

/-- A step writes at most one request. -/
theorem written_step {choice : PipelineChoice} (h : step asked s choice = .ok t) :
    t.written = s.written ∨ ∃ req, t.written = s.written ++ [req] := by
  unfold step at h
  split at h
  · obtain rfl := Except.ok.inj h
    exact written_httpWriteToOutbuf asked _
  · obtain rfl := Except.ok.inj h
    unfold answer
    split_ifs <;> exact .inl rfl
  · obtain rfl := Except.ok.inj h
    exact written_httpWriteToOutbuf asked s
  · obtain rfl := Except.ok.inj h
    unfold onRead
    split_ifs <;> exact .inl rfl
  · unfold readMore at h
    dsimp only at h
    split at h
    · cases h
    · split_ifs at h
      · obtain rfl := Except.ok.inj h
        exact .inl rfl
      · obtain rfl := Except.ok.inj h
        exact .inl rfl
  · unfold handleResponse at h
    split at h
    · cases h
    · obtain rfl := Except.ok.inj h
      exact .inl rfl
  · obtain rfl := Except.ok.inj h
    exact .inl rfl
  · obtain rfl := Except.ok.inj h
    exact written_httpWriteToOutbuf asked _
  · obtain rfl := Except.ok.inj h
    exact .inl rfl

end Pipeline

/-! ## The server -/

namespace HandlerMachine

variable {files : Files} {docroot : Bytes} {m m' : HandlerMachine} {c : Choice} {s : Handler}

/-- What was written stays written. -/
theorem sent_isPrefix_step (h : step files m c = .ok m') : m.handler.sent <+: m'.handler.sent := by
  have hkept : ∀ {s t : Handler}, t.output = s.output → s.sent <+: t.sent := by
    intro s t houtput
    simp only [Handler.output, Prod.mk.injEq] at houtput
    rw [houtput.2.2.2.2.2.2.1]
  have hdrain : ∀ (s : Handler) (l : Locals) (extents : List (ℕ × WriteResult)),
      s.sent <+: (drained s l extents).handler.sent := by
    intro s l extents
    unfold drained
    dsimp only
    split_ifs
    · exact List.prefix_append _ _
    · exact List.prefix_append _ _
    · exact List.prefix_rfl
    · exact List.prefix_rfl
    · exact List.prefix_rfl
  obtain ⟨s, label⟩ := m
  unfold step at h
  dsimp only at h
  split at h
  · obtain rfl := Except.ok.inj h
    split_ifs <;> exact List.prefix_rfl
  · obtain rfl := Except.ok.inj h
    split_ifs <;> exact List.prefix_rfl
  · exact hkept (readMore_spec h).1
  · exact hkept (readMore_spec h).1
  · unfold processInbuf at h
    split at h
    · cases h
    · rename_i ht
      obtain rfl := Except.ok.inj h
      exact hkept (Handler.processInbuf_spec ht).1
  · obtain rfl := Except.ok.inj h
    unfold addMore
    dsimp only
    split_ifs <;> exact List.prefix_rfl
  · exact hkept (check_spec h).2.1
  · rcases fill_spec h with ⟨-, rfl⟩ | rfl | ⟨-, rfl⟩ | ⟨req, reqs, t, -, -, ht, rfl, -⟩
    · exact List.prefix_rfl
    · exact List.prefix_rfl
    · exact List.prefix_rfl
    · obtain ⟨head, -, -, ht⟩ := Handler.responseMeta_spec ht
      rw [ht]
  · unfold body at h
    split_ifs at h
    · split at h
      · cases h
      · split at h
        · cases h
        · dsimp only at h
          split_ifs at h
          · obtain rfl := Except.ok.inj h
            exact List.prefix_rfl
          · obtain rfl := Except.ok.inj h
            exact List.prefix_rfl
    · obtain rfl := Except.ok.inj h
      exact List.prefix_rfl
  · obtain rfl := Except.ok.inj h
    exact List.prefix_rfl
  · obtain rfl := drain_eq_ok h
    exact hdrain s _ _
  · obtain rfl := drain_eq_ok h
    exact hdrain s _ _
  · obtain rfl := Except.ok.inj h
    exact List.prefix_rfl

variable {reqs : List HttpRequest}

/-- More requests may follow in the stream. -/
theorem FollowsWhole.append (h : FollowsWhole files docroot reqs m) (more : List HttpRequest) :
    FollowsWhole files docroot (reqs ++ more) m := by
  refine ⟨⟨h.follows.bound, ?_, h.follows.waits⟩, h.state, h.begun, h.sends⟩
  obtain ⟨future, hstream, hfollows⟩ := h.follows.stream
  refine ⟨future ++ texts more, ?_, ?_⟩
  · rw [← List.append_assoc, hstream, texts_append]
  · simp only [Handler.Follows, h.state] at hfollows ⊢
    obtain ⟨parsed, todo, rfl, hinbuf, hread⟩ := hfollows
    refine ⟨parsed, todo ++ more, by simp, ?_, hread⟩
    rw [← List.append_assoc, hinbuf, texts_append]

/-- What was written are the first bytes of the responses. -/
theorem FollowsWhole.sent_isPrefix (h : FollowsWhole files docroot reqs m)
    (hzero : m.handler.deletions = 0) :
    m.handler.sent <+: responses files docroot (reqs.map info) :=
  (List.prefix_append _ _).trans (h.segmentFree.bytes hzero)

/-- An idle server that does not wait for the client, and has received all requests, has written all
responses. -/
theorem FollowsWhole.sent_of_idle (h : FollowsWhole files docroot reqs m)
    (hzero : m.handler.deletions = 0) (hidle : m.label = .idle)
    (hwrites : m.handler.writeToClientEnabled = false)
    (hreceived : m.handler.received = texts reqs) :
    m.handler.sent = responses files docroot (reqs.map info) := by
  obtain ⟨parsed, rest, hreqs, hpaths, houtbuf, hrest⟩ :=
    h.follows.answersInOrder.owes hidle hwrites
  have hnil : rest = [] := by
    by_contra hne
    obtain ⟨next, rest', rfl⟩ := List.exists_cons_of_ne_nil hne
    refine hrest next rfl ⟨joinLines next.headers ++ (crlf ++ texts rest'), ?_⟩
    rw [hreceived, hreqs, texts_append, texts_cons]
    simp only [List.append_assoc]
  -- all requests were answered
  have hanswered : m.handler.answered = reqs.map info := by
    obtain ⟨future, -, hfollows⟩ := h.follows.stream
    simp only [Handler.Follows, h.state] at hfollows
    obtain ⟨taken, todo, htaken, -, hread⟩ := hfollows
    have hprefix : m.handler.answered <+: reqs.map info := by
      refine List.IsPrefix.trans ⟨m.handler.submittedReqQueue, hread⟩ ?_
      rw [htaken, List.map_append]
      exact List.prefix_append _ _
    refine hprefix.eq_of_length ?_
    have hlength := congrArg List.length hpaths
    rw [hnil, List.append_nil] at hreqs
    rw [List.length_map, List.length_map, ← hreqs] at hlength
    rw [hlength, List.length_map]
  have hmeta : m.handler.httpRspState = .metadata := by
    cases hstate : m.handler.httpRspState with
    | metadata => rfl
    | body => exact absurd (h.follows.waits hwrites).1 (h.begun hstate)
  have hsent := h.segmentFree.between hzero hmeta
  rw [houtbuf, List.append_nil, hanswered] at hsent
  exact hsent

end HandlerMachine

/-! ## Runs -/

namespace Exchange

open HandlerMachine Pipeline

variable {E : Evbuffer} {asked : ReqId → Asked} {files : Files} {docroot : Bytes}
    {s s' : Exchange E}
variable {hsmall : SmallFiles files} {e : ExchangeEvent}

/-- The requests that the client has written, as the server takes them. -/
def requests (asked : ReqId → Asked) (s : Exchange E) : List HttpRequest :=
  s.client.written.map fun req => (asked req).request

/-- The responses that the server should send. -/
def expected (asked : ReqId → Asked) (docroot : Bytes) (h : SmallFiles files) (s : Exchange E) :
    List HttpResponse :=
  s.client.written.map fun req => fileResponse docroot h (asked req).wanted

/-- The two ends fit together: the server follows the requests of the client, and when `rest`, which
it has not sent yet, is on its way as well, the client accounts for all responses. -/
structure Linked (asked : ReqId → Asked) (docroot : Bytes) (h : SmallFiles files) (s : Exchange E) :
    Prop where
  keeps : s.server.handler.deletions = 0
  follows : FollowsWhole files docroot (s.requests asked) s.server
  outbuf : s.client.outbuf = texts (s.requests asked)
  accounts : ∃ rest finished rs blocks part,
    s.server.handler.sent ++ rest = HttpResponse.texts (s.expected asked docroot h) ∧
    (s.client.after rest (s.expected asked docroot h)).Accounts asked finished rs blocks part

/-- The text that the client writes is that of the requests. -/
theorem flatten_text (asked : ReqId → Asked) (reqs : List ReqId) :
    (reqs.map fun req => (asked req).text).flatten =
      texts (reqs.map fun req => (asked req).request) := by
  unfold texts
  rw [List.map_map]
  congr 1
  exact List.map_congr_left fun req _ => (Asked.text_request (asked req)).symm

/-- The responses to the requests, as the server has them. -/
theorem texts_expected (hplain : ∀ req, (asked req).Plain) (h : SmallFiles files) (s : Exchange E) :
    HttpResponse.texts (s.expected asked docroot h) =
      responses files docroot ((s.requests asked).map info) := by
  have hinfo : (s.requests asked).map info = s.client.written.map fun req =>
      (asked req).wanted := by
    unfold requests
    rw [List.map_map]
    exact List.map_congr_left fun req _ => Asked.info_request (hplain req)
  rw [hinfo, ← texts_fileResponse h]
  unfold expected
  rw [List.map_map]
  rfl

/-- A new exchange is linked. -/
theorem linked_new (asked : ReqId → Asked) (docroot : Bytes) (h : SmallFiles files)
    (doPipeline : Bool)
    (maxPipelineSize : ℕ) : (new E doPipeline maxPipelineSize docroot).Linked asked docroot h := by
  refine ⟨rfl, followsWhole_new files docroot [], rfl, [], [], [], [], [], rfl, ?_⟩
  have hafter : (Pipeline.new E doPipeline maxPipelineSize).after [] [] =
      Pipeline.new E doPipeline maxPipelineSize := rfl
  show ((Pipeline.new E doPipeline maxPipelineSize).after [] []).Accounts asked [] [] [] []
  rw [hafter]
  exact accounts_new asked doPipeline maxPipelineSize

/-- A step of the client; the response to a request that it writes is in the server. -/
theorem Linked.client {choice : PipelineChoice} {client : Pipeline E}
    (h : s.Linked asked docroot hsmall)
    (hchoice : ∀ r, choice ≠ .answer r) (happends : s.client.AppendsReceived choice)
    (hstep : Pipeline.step asked s.client choice = .ok client) :
    ({ s with client := client } : Exchange E).Linked asked docroot hsmall := by
  obtain ⟨rest, finished, rs, blocks, part, hsent, haccounts⟩ := h.accounts
  obtain ⟨choice', happends', hstep'⟩ :=
    step_after hchoice happends hstep rest (s.expected asked docroot hsmall)
  obtain ⟨finished', rs', blocks', part', haccounts'⟩ := haccounts.step happends' hstep'
  have houtbuf : client.outbuf = texts (client.written.map fun req => (asked req).request) :=
    haccounts'.outbuf.trans (flatten_text asked client.written)
  rcases written_step hstep with hsame | ⟨req, hmore⟩
  · have hrequests : ({ s with client := client } : Exchange E).requests asked =
      s.requests asked := by
      unfold requests
      rw [hsame]
    have hexpected : ({ s with client := client } : Exchange E).expected asked docroot hsmall =
        s.expected asked docroot hsmall := by
      unfold expected
      rw [hsame]
    refine ⟨h.keeps, ?_, houtbuf, rest, finished', rs', blocks', part', ?_, ?_⟩
    · rw [hrequests]
      exact h.follows
    · rw [hexpected]
      exact hsent
    · rw [hexpected]
      exact haccounts'
  · obtain ⟨r, hr⟩ : ∃ r, r = fileResponse docroot hsmall (asked req).wanted := ⟨_, rfl⟩
    have hrequests : ({ s with client := client } : Exchange E).requests asked =
        s.requests asked ++ [(asked req).request] := by
      unfold requests
      rw [hmore, List.map_append]
      rfl
    have hexpected : ({ s with client := client } : Exchange E).expected asked docroot hsmall =
        s.expected asked docroot hsmall ++ [r] := by
      unfold expected
      rw [hmore, List.map_append, hr]
      rfl
    -- the server answers the request that was written
    have hanswer : (client.after rest (s.expected asked docroot hsmall)).answer r =
        client.after (rest ++ r.text) (s.expected asked docroot hsmall ++ [r]) := by
      have hlength : (s.expected asked docroot hsmall).length < client.written.length := by
        unfold expected
        rw [List.length_map, hmore, List.length_append]
        simp
      unfold Pipeline.answer after
      simp only [if_pos hlength, List.append_assoc]
    obtain ⟨rs'', haccounts''⟩ := haccounts'.answer r
    rw [hanswer] at haccounts''
    refine ⟨h.keeps, ?_, houtbuf, rest ++ r.text, finished', rs'', blocks', part', ?_, ?_⟩
    · rw [hrequests]
      exact h.follows.append _
    · rw [hexpected, HttpResponse.texts_append, ← hsent, List.append_assoc]
      simp [HttpResponse.texts]
    · rw [hexpected]
      exact haccounts''

/-- A step of the server; what it writes was still in it. -/
theorem Linked.server {c : Choice} {server : HandlerMachine} (hplain : ∀ req, (asked req).Plain)
    (h : s.Linked asked docroot hsmall) (hreceives : ReceivesFrom files s.client.outbuf s.server c)
    (hwhole : ParsesWhole s.server c) (hkeeps : KeepsSocket files s.server c)
    (hstep : HandlerMachine.step files s.server c = .ok server) :
    ({ client := { s.client with
          toRecv := s.client.toRecv ++ server.handler.sent.drop s.server.handler.sent.length }
       server := server } : Exchange E).Linked asked docroot hsmall := by
  have hwellFormed : ∀ r ∈ s.requests asked, r.WellFormed := by
    intro r hr
    obtain ⟨req, -, rfl⟩ := List.mem_map.mp hr
    exact Asked.wellFormed_request (hplain req)
  have hzero : server.handler.deletions = 0 := by
    unfold KeepsSocket at hkeeps
    rw [hstep] at hkeeps
    exact hkeeps
  rw [h.outbuf] at hreceives
  have hfollows := h.follows.step hwellFormed hreceives hwhole hstep
  obtain ⟨new, hnew⟩ := sent_isPrefix_step hstep
  obtain ⟨rest', hrest'⟩ := hfollows.sent_isPrefix hzero
  obtain ⟨rest, finished, rs, blocks, part, hsent, haccounts⟩ := h.accounts
  have hsplit : rest = new ++ rest' := by
    have hall : s.server.handler.sent ++ rest = s.server.handler.sent ++ (new ++ rest') := by
      rw [hsent, texts_expected hplain, ← hrest', ← hnew, List.append_assoc]
    exact List.append_cancel_left hall
  have hdrop : server.handler.sent.drop s.server.handler.sent.length = new := by
    rw [← hnew, List.drop_left]
  rw [hdrop]
  refine ⟨hzero, hfollows, h.outbuf, rest', finished, rs, blocks, part, ?_, ?_⟩
  · exact hrest'.trans (texts_expected hplain hsmall s).symm
  · have hafter : ({ s.client with toRecv := s.client.toRecv ++ new } : Pipeline E).after rest'
        (s.expected asked docroot hsmall) = s.client.after rest
          (s.expected asked docroot hsmall) := by
      unfold after
      rw [hsplit]
      simp only [List.append_assoc]
    show (({ s.client with toRecv := s.client.toRecv ++ new } : Pipeline E).after rest'
      (s.expected asked docroot hsmall)).Accounts asked finished rs blocks part
    rw [hafter]
    exact haccounts

/-- Every proper step keeps the exchange linked. -/
theorem Linked.step (hplain : ∀ req, (asked req).Plain) (h : s.Linked asked docroot hsmall)
    (hproper : s.Proper files e) (hstep : step asked files s e = .ok s') :
    s'.Linked asked docroot hsmall := by
  unfold Exchange.step at hstep
  cases e with
  | client choice =>
    have hchoice : ∀ r, choice ≠ .answer r := by
      rintro r rfl
      exact hproper
    have happends : s.client.AppendsReceived choice := by
      unfold Proper at hproper
      cases choice <;> first | exact hproper | exact absurd rfl (hchoice _)
    dsimp only at hstep
    split at hstep
    · cases hstep
    · rename_i hclient
      obtain rfl := Except.ok.inj hstep
      exact h.client hchoice happends hclient
  | server c =>
    obtain ⟨hreceives, hwhole, hkeeps⟩ := hproper
    dsimp only at hstep
    split at hstep
    · cases hstep
    · rename_i hserver
      obtain rfl := Except.ok.inj hstep
      exact h.server hplain hreceives hwhole hkeeps hserver

/-- The requests, each with its response. -/
theorem zip_expected (h : SmallFiles files) (s : Exchange E) :
    s.client.written.zip (s.expected asked docroot h) =
      s.client.written.map (served asked docroot h) := by
  unfold expected
  rw [List.zip_map_right, List.zip_eq_zipWith, List.zipWith_self, List.map_map]
  rfl

/-- When nothing is left to be done, the server has sent everything. -/
theorem Linked.rest_of_quiet {rest : Bytes} (hplain : ∀ req, (asked req).Plain)
    (h : s.Linked asked docroot hsmall)
    (hsent : s.server.handler.sent ++ rest = HttpResponse.texts (s.expected asked docroot hsmall))
    (hquiet : s.Quiet) : rest = [] := by
  have hall : s.server.handler.sent = HttpResponse.texts (s.expected asked docroot hsmall) := by
    rw [texts_expected hplain]
    exact h.follows.sent_of_idle h.keeps hquiet.server hquiet.writes
      (hquiet.received.trans h.outbuf)
  rw [hall] at hsent
  exact List.append_right_eq_self.mp hsent

/-- The two ends together tell the requests their files. -/
theorem Linked.exchanges (hplain : ∀ req, (asked req).Plain) (h : s.Linked asked docroot hsmall) :
    s.Exchanges asked docroot hsmall := by
  obtain ⟨rest, _, _, _, _, hsent, haccounts⟩ := h.accounts
  obtain ⟨-, served', todo', blocks, block, hzip, htold, hdelivers, hbegins, hdone⟩ :=
    haccounts.demultiplexes
  have hmap : s.client.written.map (served asked docroot hsmall) = served' ++ todo' :=
    (zip_expected hsmall s).symm.trans hzip
  obtain ⟨finished, todo, hwritten, rfl, rfl⟩ := List.map_eq_append_iff.mp hmap
  refine ⟨finished, todo, blocks, block, hwritten, htold, hdelivers, ?_, ?_⟩
  · rcases hbegins with hnil | ⟨next, hnext, hbegins⟩
    · exact .inl hnil
    · rw [List.head?_map, Option.map_eq_some_iff] at hnext
      obtain ⟨req, hreq, rfl⟩ := hnext
      exact .inr ⟨req, hreq, hbegins⟩
  · intro hquiet
    have hrest := h.rest_of_quiet hplain hsent hquiet
    have htoRecv : (s.client.after rest (s.expected asked docroot hsmall)).toRecv = [] := by
      unfold after
      dsimp only
      rw [hquiet.toRecv, hrest, List.append_nil]
    exact List.map_eq_nil_iff.mp (hdone hquiet.client htoRecv)

/-- The client and the server on one connection: in every state of a run the requests that the
client has written were told their files, completely and in order, up to one that was told a first
part of its file; and all of them when both ends are idle and nothing is on its way. -/
theorem exchanges_of_run (asked : ReqId → Asked) (files : Files) (docroot : Bytes)
    (doPipeline : Bool)
    (maxPipelineSize : ℕ) (hplain : ∀ req, (asked req).Plain) (hsmall : SmallFiles files)
    {es : List ExchangeEvent} {s : Exchange E}
    (hes : StepsMeet (Exchange.step asked files) (Proper files)
      (new E doPipeline maxPipelineSize docroot) es)
    (hrun : runSteps (Exchange.step asked files) (new E doPipeline maxPipelineSize docroot) es =
      .ok s) :
    s.Exchanges asked docroot hsmall :=
  (invariant_of_stepsMeet (fun t : Exchange E => t.Linked asked docroot hsmall)
    (fun _ _ _ hlinked hproper hstep => hlinked.step hplain hproper hstep)
    (linked_new asked docroot hsmall doPipeline maxPipelineSize) hes hrun).exchanges hplain

/-- Every request is for the second byte of the file. -/
def askSecondByte :
    ReqId → Asked := fun _ => { path := ascii "/a", headers := [], firstBytePos := 1 }

theorem plain_askSecondByte (req : ReqId) : (askSecondByte req).Plain := by
  refine ⟨rfl, (by decide : IsText (ascii "/a")), (by decide : 32 ∉ ascii "/a"), ?_,
    (by decide : 1 < 2 ^ 31)⟩
  rintro h ⟨⟩

/-- A file of two bytes is small. -/
theorem smallFiles_twoBytes : SmallFiles twoBytes := by
  intro path content hcontent
  unfold twoBytes at hcontent
  split_ifs at hcontent
  · obtain rfl := Option.some.inj hcontent
    decide
  · cases hcontent

/-- A request whose response is written, and received, in two parts; then both ends are idle. -/
def inTwoParts : List ExchangeEvent :=
  [.client (.submit 0), .server .readable, .server (.recv [(2048, .bytes (askSecondByte 0).text)]),
    .server .go, .server .writable, .server .go, .server .go, .server .go, .server .go,
    .server (.write [(89, .wrote 10)]), .client .readable, .client (.recv [.bytes 10]), .client .go,
    .server .go, .server .go, .server .go, .server .go, .server (.reserve [8192]), .server .go,
      .server .go,
    .server .go, .server .go, .server .writable, .server .go, .server .go, .server .go, .server .go,
    .server (.write [(80, .wrote 80)]), .server .go, .client (.recv [.bytes 80]), .client .go,
      .client .go,
    .client .go, .client .go, .client .go, .client .go, .client .go, .client .go, .client .go,
    .client (.recv [.bytes 0]), .server .writable, .server .go, .server .go, .server .go]

/-- Three requests for the second byte, in parts. -/
theorem exchanges_of_run_inTwoParts :
    ∃ s : Exchange Evbuffer.chunked, s.client.told.length = 3 ∧
      s.Exchanges askSecondByte (ascii "d") smallFiles_twoBytes := by
  have hmeets : StepsMeet (Exchange.step askSecondByte twoBytes) (Proper twoBytes)
      (new Evbuffer.chunked true 4 (ascii "d")) inTwoParts := by
    unfold inTwoParts
    decide +kernel
  have htold :
      (runSteps (Exchange.step askSecondByte twoBytes) (new Evbuffer.chunked true 4 (ascii "d"))
      inTwoParts).toOption.map (fun s => s.client.told.length) = some 3 := by
    unfold inTwoParts
    decide +kernel
  cases hrun : runSteps (Exchange.step askSecondByte twoBytes)
    (new Evbuffer.chunked true 4 (ascii "d"))
      inTwoParts with
  | error f => simp [hrun, Except.toOption] at htold
  | ok s =>
    have hs : s.client.told.length = 3 := by simpa [hrun, Except.toOption] using htold
    exact ⟨s, hs, exchanges_of_run askSecondByte twoBytes (ascii "d") true 4 plain_askSecondByte
      smallFiles_twoBytes hmeets hrun⟩

end Exchange

end ShadowExtras.Web
