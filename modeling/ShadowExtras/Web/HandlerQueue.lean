import ShadowExtras.Web.HandlerRequests

/-!
# The queue of the web server

Reading stops while a request is in the queue, and `process_inbuf_` takes one request out of
`inbuf_` at a time. But `send_to_client` calls it also in the middle of a response, after 256 KB,
when the queue is full; and the headers of a request that arrive after it was answered are read for
a queue that is empty. `ProcessesOne` says that `process_inbuf_` meets neither a further request
line in the one case nor a range in the other. Then the queue never holds more than one request, and
the requests are answered in the order in which they were received.
-/

namespace ShadowExtras.Web

open Foundation HttpRequest

namespace HandlerMachine

variable {files : Files} {docroot : Bytes} {reqs : List HttpRequest} {m m' : HandlerMachine}
variable {s : Handler} {l : Locals} {c : Choice} {label : Label}

/-! ## The condition and the property -/

/-- What is received is a beginning of the stream. -/
def ReceivesFrom (files : Files) (stream : Bytes) (m : HandlerMachine) (c : Choice) : Prop :=
  match step files m c with
  | .error _ => True
  | .ok m' => m'.handler.received <+: stream

/-- `process_inbuf_` finds no request line while the queue is full, and no range of a request that
has left the queue. -/
def ProcessesOne (m : HandlerMachine) (_ : Choice) : Prop :=
  match m.label with
  | .processInbuf _ => m.handler.OneAtATime
  | _ => True

/-- The queue is not too long, the requests are taken and answered in their order, and when the
handler does not wait for the client, it has answered all requests whose request lines were
received. -/
structure AnswersInOrder (reqs : List HttpRequest) (m : HandlerMachine) : Prop where
  bound : m.handler.submittedReqQueue.length ≤ maxPipelineReqs
  order : m.handler.read.map RequestInfo.path <+: reqs.map HttpRequest.path
  owes : m.label = .idle → m.handler.writeToClientEnabled = false →
    ∃ parsed rest, reqs = parsed ++ rest ∧
      m.handler.answered.map RequestInfo.path = parsed.map HttpRequest.path ∧
      m.handler.outbuf = [] ∧
      ∀ next ∈ rest.head?, ¬texts parsed ++ (next.line ++ crlf) <+: m.handler.received

/-- A run has not failed in the assertion on the queue nor taken the last element of an empty queue,
and if it has not failed at all, the requests are answered in order. -/
def QueueHolds (reqs : List HttpRequest) : Except HandlerFault HandlerMachine → Prop
  | .ok m => AnswersInOrder reqs m
  | .error f => f ≠ .pipeline ∧ f ≠ .emptyQueue

instance (stream : Bytes) (m : HandlerMachine) (c : Choice) :
    Decidable (ReceivesFrom files stream m c) := by
  unfold ReceivesFrom
  split <;> infer_instance

instance (m : HandlerMachine) (c : Choice) : Decidable (ProcessesOne m c) := by
  unfold ProcessesOne
  match m.label with
  | .processInbuf _ =>
    dsimp only
    infer_instance
  | .idle | .readMore | .addMore _ | .check _ | .fill _ | .body _ | .sendMore _ | .drain _ =>
    exact instDecidableTrue

/-! ## The invariant -/

/-- When the handler does not wait for the client, nothing is queued, nothing is in `outbuf_`, and
`inbuf_` was processed. -/
def Waits (m : HandlerMachine) : Prop :=
  m.handler.writeToClientEnabled = false →
    m.handler.submittedReqQueue = [] ∧ m.handler.outbuf = [] ∧
    match m.label with
    | .idle | .readMore => IsLine m.handler.inbuf
    | .processInbuf (.recv _) | .processInbuf .done => True
    | _ => False

/-- The handler follows a stream of requests. -/
structure FollowsStream (reqs : List HttpRequest) (m : HandlerMachine) : Prop where
  bound : m.handler.submittedReqQueue.length ≤ maxPipelineReqs
  stream : ∃ future, m.handler.received ++ future = texts reqs ∧ m.handler.Follows reqs future
  waits : Waits m

/-- A new handler follows every stream. -/
theorem followsStream_new (reqs : List HttpRequest) (docroot : Bytes) :
    FollowsStream reqs (new docroot) := by
  refine ⟨Nat.zero_le _, ⟨texts reqs, rfl, [], reqs, rfl, rfl, rfl⟩, fun _ => ⟨rfl, rfl, ?_⟩⟩
  simp [new, Handler.new, IsLine, crlf]

/-! ## `send_to_client` -/

/-- What `send_to_client` leaves alone apart from its calls of `process_inbuf_`; a request goes from
the queue to those answered. -/
structure Moves (s t : Handler) : Prop where
  inbuf : t.inbuf = s.inbuf
  state : t.httpReqState = s.httpReqState
  received : t.received = s.received
  read : t.read = s.read
  length : t.submittedReqQueue.length ≤ s.submittedReqQueue.length
  deletions : s.deletions ≤ t.deletions
  begun : t.httpRspState = .body → t.submittedReqQueue = s.submittedReqQueue ∧
    (s.httpRspState = .body ∨ s.submittedReqQueue ≠ [])

theorem Moves.refl (s : Handler) : Moves s s :=
  ⟨rfl, rfl, rfl, rfl, le_rfl, le_rfl, fun hbody => ⟨rfl, .inl hbody⟩⟩

/-- Where `send_to_client` is, apart from its calls of `process_inbuf_`. -/
def Sending (label : Label) : Prop :=
  match label with
  | .idle | .readMore | .processInbuf _ => False
  | _ => True

/-- A step of `send_to_client`: writing stays enabled until nothing is left to write. -/
theorem send_spec (hlabel : Sending label) (h : step files ⟨s, label⟩ c = .ok m') :
    Moves s m'.handler ∧
      (m'.handler.writeToClientEnabled = s.writeToClientEnabled ∨
        s.submittedReqQueue = [] ∧ m'.handler.submittedReqQueue = [] ∧ m'.handler.outbuf = [] ∧
          m'.label = .processInbuf .done) := by
  unfold step at h
  dsimp only at h
  split at h
  · exact absurd hlabel (by simp [Sending])
  · exact absurd hlabel (by simp [Sending])
  · exact absurd hlabel (by simp [Sending])
  · exact absurd hlabel (by simp [Sending])
  · exact absurd hlabel (by simp [Sending])
  · obtain rfl := Except.ok.inj h
    unfold addMore
    dsimp only
    split_ifs <;> exact ⟨Moves.refl s, .inl rfl⟩
  · unfold check at h
    split_ifs at h with hcount hempty hfull
    · obtain rfl := Except.ok.inj h
      exact ⟨⟨rfl, rfl, rfl, rfl, le_rfl, le_rfl, fun hbody => ⟨rfl, .inl hbody⟩⟩,
        .inr ⟨hempty.1, hempty.1, hempty.2, rfl⟩⟩
    · obtain rfl := Except.ok.inj h
      exact ⟨Moves.refl s, .inl rfl⟩
    · obtain rfl := Except.ok.inj h
      exact ⟨Moves.refl s, .inl rfl⟩
  · rcases fill_spec h with ⟨-, rfl⟩ | rfl | ⟨-, rfl⟩ | ⟨req, rest, t, hqueue, -, ht, rfl, -⟩
    · exact ⟨Moves.refl s, .inl rfl⟩
    · exact ⟨Moves.refl s, .inl rfl⟩
    · exact ⟨Moves.refl s, .inl rfl⟩
    · obtain ⟨head, -, -, ht⟩ := Handler.responseMeta_spec ht
      rw [ht]
      exact ⟨⟨rfl, rfl, rfl, rfl, le_rfl, le_rfl, fun _ => ⟨rfl, .inr (by simp [hqueue])⟩⟩,
        .inl rfl⟩
  · unfold body at h
    split_ifs at h
    · split at h
      · cases h
      · split at h
        · cases h
        · split_ifs at h
          · obtain rfl := Except.ok.inj h
            refine ⟨⟨rfl, rfl, rfl, ?_, ?_, le_rfl, ?_⟩, .inl rfl⟩
            · -- the request at the front is answered
              simp only [Handler.read, Handler.finishResponse]
              cases s.submittedReqQueue <;> simp
            · simp [Handler.finishResponse]
            · simp [Handler.finishResponse]
          · obtain rfl := Except.ok.inj h
            exact ⟨⟨rfl, rfl, rfl, rfl, le_rfl, le_rfl, fun hbody => ⟨rfl, .inl hbody⟩⟩, .inl rfl⟩
    · obtain rfl := Except.ok.inj h
      exact ⟨Moves.refl s, .inl rfl⟩
  · obtain rfl := Except.ok.inj h
    exact ⟨Moves.refl s, .inl rfl⟩
  · obtain rfl := drain_eq_ok h
    unfold drained
    dsimp only
    split_ifs <;>
      exact ⟨⟨rfl, rfl, rfl, rfl, le_rfl, by simp, fun hbody => ⟨rfl, .inl hbody⟩⟩, .inl rfl⟩
  · obtain rfl := drain_eq_ok h
    unfold drained
    dsimp only
    split_ifs <;>
      exact ⟨⟨rfl, rfl, rfl, rfl, le_rfl, by simp, fun hbody => ⟨rfl, .inl hbody⟩⟩, .inl rfl⟩
  · obtain rfl := Except.ok.inj h
    exact ⟨Moves.refl s, .inl rfl⟩

/-- A step of `send_to_client` follows the stream. -/
theorem FollowsStream.send (hm : FollowsStream reqs ⟨s, label⟩) (hlabel : Sending label)
    (h : step files ⟨s, label⟩ c = .ok m') : FollowsStream reqs m' := by
  obtain ⟨hmoves, hwrites⟩ := send_spec hlabel h
  constructor
  · exact hmoves.length.trans hm.bound
  · obtain ⟨future, hreceived, hfollows⟩ := hm.stream
    refine ⟨future, ?_, hfollows.congr hmoves.inbuf hmoves.state hmoves.read⟩
    rw [hmoves.received]
    exact hreceived
  · intro hfalse
    rcases hwrites with hsame | ⟨-, hqueue, houtbuf, hdone⟩
    · have hnot := (hm.waits (hsame ▸ hfalse)).2.2
      cases label <;> simp [Sending] at hlabel hnot
    · refine ⟨hqueue, houtbuf, ?_⟩
      rw [hdone]
      trivial

/-! ## `recv_from_client` -/

/-- `read_more` receives nothing, or more of the stream. -/
theorem readMore_cases {vectors : List (ℕ × RecvResult)} (h : readMore s vectors = .ok m') :
    (m'.handler.inbuf = s.inbuf ∧ m'.handler.httpReqState = s.httpReqState ∧
      m'.handler.received = s.received ∧ m'.handler.answered = s.answered ∧
      m'.handler.submittedReqQueue = s.submittedReqQueue ∧ m'.handler.outbuf = s.outbuf ∧
      m'.handler.writeToClientEnabled = s.writeToClientEnabled ∧
      m'.handler.httpRspState = s.httpRspState ∧ s.deletions ≤ m'.handler.deletions ∧
      (m'.label = .idle ∨ m'.label = .readMore)) ∨
    ∃ data noMore, m' = ⟨{ s with inbuf := s.inbuf ++ data, received := s.received ++ data },
      .processInbuf (.recv noMore)⟩ := by
  unfold readMore at h
  split_ifs at h
  · obtain rfl := Except.ok.inj h
    exact .inl ⟨rfl, rfl, rfl, rfl, rfl, rfl, rfl, rfl, by simp, .inl rfl⟩
  · split at h
    · cases h
    · obtain rfl := Except.ok.inj h
      exact .inl ⟨rfl, rfl, rfl, rfl, rfl, rfl, rfl, rfl, by simp, .inl rfl⟩
    · split_ifs at h
      · obtain rfl := Except.ok.inj h
        exact .inl ⟨rfl, rfl, rfl, rfl, rfl, rfl, rfl, rfl, by simp, .inl rfl⟩
      · obtain rfl := Except.ok.inj h
        exact .inr ⟨_, _, rfl⟩
  · obtain rfl := Except.ok.inj h
    exact .inl ⟨rfl, rfl, rfl, rfl, rfl, rfl, rfl, rfl, by simp, .inr rfl⟩

/-- More of the stream is received. -/
theorem follows_received {data future future' : Bytes} (h : s.Follows reqs future)
    (hfuture : future = data ++ future') :
    Handler.Follows { s with inbuf := s.inbuf ++ data, received := s.received ++ data } reqs
      future' := by
  unfold Handler.Follows at h ⊢
  rw [hfuture, ← List.append_assoc] at h
  split at h
  · rename_i hstate
    simp only [hstate]
    exact h
  · rename_i hstate
    simp only [hstate]
    obtain ⟨parsed, r, todo, lines, req, hreqs, hsuffix, hin, hpath, hfold⟩ := h
    refine ⟨parsed, r, todo, lines, req, hreqs, hsuffix, ⟨rfl, ?_, hin.read⟩, hpath, hfold⟩
    rw [List.append_assoc, hin.stream]

/-- Receiving follows the stream. -/
theorem FollowsStream.readMore {vectors : List (ℕ × RecvResult)}
    (hm : FollowsStream reqs ⟨s, .readMore⟩) (h : readMore s vectors = .ok m')
    (hreceives : m'.handler.received <+: texts reqs) : FollowsStream reqs m' := by
  obtain ⟨future, hreceived, hfollows⟩ := hm.stream
  rcases readMore_cases h with
    ⟨hinbuf, hstate, hsame, hanswered, hqueue, houtbuf, hwrites, -, -, hlabel⟩ |
    ⟨data, noMore, rfl⟩
  · constructor
    · rw [hqueue]
      exact hm.bound
    · refine ⟨future, by rw [hsame]; exact hreceived, hfollows.congr hinbuf hstate ?_⟩
      rw [Handler.read, hanswered, hqueue, Handler.read]
    · intro hfalse
      rw [hwrites] at hfalse
      obtain ⟨hnil, hout, hline⟩ := hm.waits hfalse
      rw [hqueue, houtbuf, hinbuf]
      refine ⟨hnil, hout, ?_⟩
      rcases hlabel with hlabel | hlabel
      · rw [hlabel]
        exact hline
      · rw [hlabel]
        exact hline
  · obtain ⟨future', hfuture'⟩ := hreceives
    have hfuture : future = data ++ future' := by
      have hboth : s.received ++ future = s.received ++ (data ++ future') := by
        rw [hreceived, ← hfuture', List.append_assoc]
      exact List.append_cancel_left hboth
    refine ⟨hm.bound, ⟨future', hfuture', follows_received hfollows hfuture⟩, fun hfalse => ?_⟩
    obtain ⟨hnil, hout, -⟩ := hm.waits hfalse
    exact ⟨hnil, hout, trivial⟩

/-! ## `process_inbuf_` -/

/-- `process_inbuf_` goes through and follows the stream. -/
theorem FollowsStream.processInbuf {next : After} (hreqs : ∀ r ∈ reqs, r.WellFormed)
    (hm : FollowsStream reqs ⟨s, .processInbuf next⟩) (hone : s.OneAtATime) :
    ∃ m', processInbuf s next = .ok m' ∧ FollowsStream reqs m' := by
  obtain ⟨future, hreceived, hfollows⟩ := hm.stream
  obtain ⟨t, want, ht, hprocessed, hqueue⟩ := hfollows.processInbuf hreqs hm.bound hone
  refine ⟨⟨t, returnTo want next⟩, by rw [HandlerMachine.processInbuf, ht], hprocessed.bound,
    ⟨future, ?_, hprocessed.follows⟩, ?_⟩
  · rw [hprocessed.kept.received]
    exact hreceived
  · intro hfalse
    obtain ⟨hsame, hline⟩ := hprocessed.waits hfalse
    obtain ⟨-, hout, hnext⟩ := hm.waits hsame
    have houtbuf : t.outbuf = s.outbuf := congrArg (fun o => o.2.1) hprocessed.kept.output
    refine ⟨hqueue hfalse, houtbuf.trans hout, ?_⟩
    cases next with
    | recv noMore =>
      simp only [returnTo]
      split_ifs <;> exact hline
    | done => exact hline
    | addMore l => exact absurd hnext id
    | response l => exact absurd hnext id

/-! ## Steps and runs -/

/-- Reading a file fails for the number of bytes only. -/
theorem readLoop_fault {expected n : ℕ} {sizes : List ℕ} {rest : Bytes} {f : HandlerFault}
    (h : Handler.readLoop expected sizes rest n = .error f) : f = .bodyBytes := by
  induction sizes generalizing rest n with
  | nil => simp [Handler.readLoop] at h
  | cons size sizes ih =>
    unfold Handler.readLoop at h
    dsimp only at h
    split_ifs at h
    · exact (Except.error.inj h).symm
    · split at h
      · rename_i f' hmore
        obtain rfl := Except.error.inj h
        exact ih hmore
      · cases h

/-- The queue is touched only by `process_inbuf_`. -/
theorem fault_of_not_processInbuf {f : HandlerFault} (hlabel : ∀ next, label ≠ .processInbuf next)
    (h : step files ⟨s, label⟩ c = .error f) : f ≠ .pipeline ∧ f ≠ .emptyQueue := by
  cases step_fault h with
  | received => simp
  | request next hnext => exact absurd hnext (hlabel next)
  | guard => simp
  | file l hfill hmeta hcheck => obtain rfl | rfl | ⟨rfl, -⟩ := hcheck <;> simp
  | unopened => simp
  | body l sizes rest hbody hopened hread =>
    rw [readLoop_fault hread]
    simp
  | log => simp

/-- A step that meets the condition follows the stream. -/
theorem FollowsStream.step (hreqs : ∀ r ∈ reqs, r.WellFormed) (hm : FollowsStream reqs m)
    (hreceives : ReceivesFrom files (texts reqs) m c) (hone : ProcessesOne m c)
    (h : step files m c = .ok m') : FollowsStream reqs m' := by
  obtain ⟨s, label⟩ := m
  simp only [ReceivesFrom, h] at hreceives
  cases label with
  | idle =>
    cases c with
    | readable =>
      simp only [HandlerMachine.step] at h
      obtain rfl := Except.ok.inj h
      split_ifs
      · exact ⟨hm.bound, hm.stream, hm.waits⟩
      · exact hm
    | writable =>
      simp only [HandlerMachine.step] at h
      obtain rfl := Except.ok.inj h
      split_ifs with hwrites
      · exact ⟨hm.bound, hm.stream, fun hfalse => by simp [hwrites] at hfalse⟩
      · exact hm
    | _ =>
      simp only [HandlerMachine.step] at h
      obtain rfl := Except.ok.inj h
      exact hm
  | readMore =>
    cases c with
    | go => exact hm.readMore h hreceives
    | recv vectors => exact hm.readMore h hreceives
    | _ =>
      simp only [HandlerMachine.step] at h
      obtain rfl := Except.ok.inj h
      exact hm
  | processInbuf next =>
    cases c with
    | go =>
      obtain ⟨m₂, hm₂, hfollows⟩ := hm.processInbuf hreqs hone
      obtain rfl : m₂ = m' := Except.ok.inj (hm₂.symm.trans h)
      exact hfollows
    | _ =>
      simp only [HandlerMachine.step] at h
      obtain rfl := Except.ok.inj h
      exact hm
  | _ => exact hm.send trivial h

/-- A step that meets the condition does not fail for the queue. -/
theorem FollowsStream.fault {f : HandlerFault} (hreqs : ∀ r ∈ reqs, r.WellFormed)
    (hm : FollowsStream reqs m) (hone : ProcessesOne m c)
    (h : HandlerMachine.step files m c = .error f) :
    f ≠ .pipeline ∧ f ≠ .emptyQueue := by
  obtain ⟨s, label⟩ := m
  by_cases hlabel : ∃ next, label = .processInbuf next
  · obtain ⟨next, rfl⟩ := hlabel
    cases c with
    | go =>
      obtain ⟨m', hm', -⟩ := hm.processInbuf hreqs hone
      exact absurd (hm'.symm.trans h) (by simp)
    | _ => simp [HandlerMachine.step] at h
  · exact fault_of_not_processInbuf (fun next hnext => hlabel ⟨next, hnext⟩) h

/-- A request line that was received is not left in `inbuf_` when the handler waits for more. -/
theorem FollowsStream.answersInOrder (hm : FollowsStream reqs m) : AnswersInOrder reqs m := by
  obtain ⟨future, hreceived, hfollows⟩ := hm.stream
  have hpaths : ∀ rs : List HttpRequest,
      (rs.map info).map RequestInfo.path = rs.map HttpRequest.path := fun rs => by
    simp [info, Function.comp_def]
  constructor
  · exact hm.bound
  · unfold Handler.Follows at hfollows
    split at hfollows
    · obtain ⟨parsed, todo, hreqs, -, hread⟩ := hfollows
      rw [hread, hpaths, hreqs, List.map_append]
      exact List.prefix_append _ _
    · obtain ⟨parsed, r, todo, lines, req, hreqs, -, hin, hpath, -⟩ := hfollows
      rw [hin.read, List.map_append, hpaths, hreqs, List.map_append]
      refine ⟨todo.map HttpRequest.path, ?_⟩
      simp [hpath]
  · intro hidle hfalse
    obtain ⟨hnil, hout, hline⟩ := hm.waits hfalse
    simp only [hidle] at hline
    have hread : m.handler.read = m.handler.answered := by
      rw [Handler.read, hnil, List.append_nil]
    have hno : ∀ {a b : Bytes}, m.handler.inbuf ≠ a ++ (crlf ++ b) := by
      intro a b hinbuf
      apply hline
      exact ⟨a, b, by rw [hinbuf, List.append_assoc]⟩
    unfold Handler.Follows at hfollows
    split at hfollows
    · obtain ⟨parsed, todo, hreqs, hstream, hparsed⟩ := hfollows
      refine ⟨parsed, todo, hreqs, by rw [← hread, hparsed, hpaths], hout, ?_⟩
      rintro next - ⟨rest, hrest⟩
      have hinbuf : m.handler.inbuf = next.line ++ (crlf ++ rest) := by
        apply (List.append_left_inj future).mp
        apply (List.append_right_inj (texts parsed)).mp
        rw [hstream, ← texts_append, ← hreqs, ← hreceived, ← hrest]
        simp
      exact hno hinbuf
    · obtain ⟨parsed, r, todo, lines, req, hreqs, -, hin, hpath, -⟩ := hfollows
      refine ⟨parsed ++ [r], todo, by simp [hreqs], ?_, hout, ?_⟩
      · rw [← hread, hin.read, List.map_append, hpaths, List.map_append]
        simp [hpath]
      · rintro next - ⟨rest, hrest⟩
        have hstream : next.line ++ (crlf ++ rest) ++ future = texts todo := by
          apply (List.append_right_inj (texts (parsed ++ [r]))).mp
          rw [← texts_append, List.append_assoc parsed, List.singleton_append, ← hreqs, ← hreceived,
            ← hrest]
          simp
        have hinbuf : m.handler.inbuf =
            joinLines lines ++ (crlf ++ (next.line ++ (crlf ++ rest))) := by
          apply (List.append_left_inj future).mp
          rw [hin.stream, ← hstream]
          simp
        exact hno hinbuf

/-- In every run in which a stream of well-formed requests is received and `process_inbuf_` always
processes one request, the queue is never too long and the requests are answered in order. -/
theorem queueHolds_of_processesOne (files : Files) (docroot : Bytes) (reqs : List HttpRequest)
    (hreqs : ∀ r ∈ reqs, r.WellFormed) (cs : List Choice)
    (hc : StepsMeet (HandlerMachine.step files)
      (fun m c => ReceivesFrom files (texts reqs) m c ∧ ProcessesOne m c) (new docroot) cs) :
    QueueHolds reqs (runSteps (HandlerMachine.step files) (new docroot) cs) := by
  have hstep : ∀ m c m', FollowsStream reqs m →
      ReceivesFrom files (texts reqs) m c ∧ ProcessesOne m c →
      HandlerMachine.step files m c = .ok m' → FollowsStream reqs m' :=
    fun m c m' hm hP h => hm.step hreqs hP.1 hP.2 h
  cases hrun : runSteps (HandlerMachine.step files) (new docroot) cs with
  | ok m =>
    have hm : FollowsStream reqs m :=
      invariant_of_stepsMeet _ hstep (followsStream_new reqs docroot) hc hrun
    exact hm.answersInOrder
  | error f =>
    exact fault_of_stepsMeet (FollowsStream reqs) (fun f => f ≠ .pipeline ∧ f ≠ .emptyQueue) hstep
      (fun m c f hm hP h => hm.fault hreqs hP.2 h) (followsStream_new reqs docroot) hc hrun

/-- A request for the second byte of the file. -/
def secondByteRequest : HttpRequest where
  line := ascii "GET /a HTTP/1.1"
  headers := [ascii "Range: bytes=1-"]

/-- The request for the second byte is well-formed. -/
theorem wellFormed_secondByteRequest : secondByteRequest.WellFormed := by
  constructor
  · decide
  · decide
  · intro l hl
    obtain rfl := List.mem_singleton.mp hl
    exact ⟨by decide, by decide, fun _ => ⟨1, by decide⟩⟩

/-- The request for the second byte is answered. -/
theorem queueHolds_of_processesOne_secondByte :
    QueueHolds [secondByteRequest]
      (runSteps (HandlerMachine.step twoBytes) (new (ascii "d")) secondByte) :=
  queueHolds_of_processesOne twoBytes (ascii "d") [secondByteRequest]
    (fun r hr => List.mem_singleton.mp hr ▸ wellFormed_secondByteRequest) secondByte
    (by decide +kernel)

/-! ## A file of 256 KB -/

/-- A content of zeros. -/
def zeros (n : ℕ) : Bytes := List.replicate n 0

@[simp] theorem length_zeros (n : ℕ) : (zeros n).length = n := List.length_replicate

@[simp] theorem zeros_eq_nil {n : ℕ} : zeros n = [] ↔ n = 0 := List.replicate_eq_nil_iff 0

@[simp] theorem take_zeros (m n : ℕ) : (zeros n).take m = zeros (min m n) := List.take_replicate

@[simp] theorem drop_zeros (m n : ℕ) : (zeros n).drop m = zeros (n - m) := List.drop_replicate

/-- Two vectors of the file are put into `outbuf_` and written to the socket. -/
def round : List Choice :=
  [.go, .reserve [8192, 8192], .go, .go, .write [(16384, .wrote 16384)], .go]

/-- A handler in the middle of a response, with `n` rounds left of the file. -/
structure MidResponse (n : ℕ) (s : Handler) : Prop where
  queue : ∃ req, s.submittedReqQueue = [req]
  outbuf : s.outbuf = []
  state : s.httpRspState = .body
  file : s.activeFd = some (zeros (n * 16384))

/-- Two vectors are filled from the file. -/
theorem readLoop_round (expected m k : ℕ) :
    Handler.readLoop expected [8192, 8192] (zeros (16384 + k)) m =
      .ok (zeros 16384, zeros k, false) := by
  have hfirst : min 8192 (16384 + k) = 8192 := by omega
  have hsecond : min 8192 (16384 + k - 8192) = 8192 := by omega
  have hrest : 16384 + k - 8192 - 8192 = k := by omega
  have hjoin : zeros 8192 ++ zeros 8192 = zeros 16384 := by
    simp only [zeros, ← List.replicate_add]
  simp [Handler.readLoop, hfirst, hsecond, hrest, hjoin]

/-- A round writes 16 KB. -/
theorem round_spec {n : ℕ} (hs : MidResponse (n + 1) s) (hblock : l.sendWouldBlock = false) :
    ∃ t, runSteps (HandlerMachine.step files) ⟨s, .fill l⟩ round = .ok ⟨t, .addMore
        { sendWouldBlock := false, count := 0, runningNumWritten := l.runningNumWritten + 16384 }⟩ ∧
      MidResponse n t ∧ t.inbuf = s.inbuf ∧ t.httpReqState = s.httpReqState := by
  obtain ⟨⟨req, hqueue⟩, houtbuf, hstate, hfile⟩ := hs
  have hblocks : (n + 1) * 16384 = 16384 + n * 16384 := by omega
  have hfill : HandlerMachine.step files ⟨s, .fill l⟩ .go =
      .ok ⟨s, .body { l with count := 0 }⟩ := by
    simp [HandlerMachine.step, fill, hqueue, houtbuf, hstate, readHighWaterMark]
  set t : Handler := { s with
    outbuf := zeros 16384
    activeFd := some (zeros (n * 16384))
    numBodyBytesRead := s.numBodyBytesRead + 16384 } with ht
  have hbody : HandlerMachine.step files ⟨s, .body { l with count := 0 }⟩ (.reserve [8192, 8192]) =
      .ok ⟨t, .fill { l with count := 0 }⟩ := by
    have hreserves : Reserves (2 * 4096) [8192, 8192] := by decide
    simp only [HandlerMachine.step, body, hreserves, not_true_eq_false, if_false, hfile, hblocks,
      readLoop_round, houtbuf, List.nil_append, length_zeros, Bool.false_eq_true, ht]
  have hfull : HandlerMachine.step files ⟨t, .fill { l with count := 0 }⟩ .go =
      .ok ⟨t, .sendMore { l with count := 0 }⟩ := by
    simp [HandlerMachine.step, fill, ht, hqueue, readHighWaterMark]
  set u : Handler := { t with
    sent := s.sent ++ zeros 16384
    outbuf := []
    numRespBytesSent := s.numRespBytesSent + 16384 } with hu
  set l' : Locals :=
    { sendWouldBlock := false, count := 0, runningNumWritten := l.runningNumWritten + 16384 }
  have hwrite : HandlerMachine.step files ⟨t, .drain { l with count := 1 }⟩
      (.write [(16384, .wrote 16384)]) = .ok ⟨u, .drain l'⟩ := by
    have hpeeks : Peeks (zeros 16384) [16384] := ⟨by decide, by simp, by simp, by simp⟩
    have hwriteLoop : writeLoop [(16384, .wrote 16384)] (zeros 16384) =
        { bytes := zeros 16384, sendWouldBlock := false, error := false } := by
      simp [writeLoop]
    simp [HandlerMachine.step, drain, FailsUnqueued, drained, ht, hblock, hpeeks, hwriteLoop, hu,
      l']
  have hdrained : HandlerMachine.step files ⟨u, .drain l'⟩ .go = .ok ⟨u, .addMore l'⟩ := by
    simp [HandlerMachine.step, drain, FailsUnqueued, drained, hu, ht, hqueue]
  refine ⟨u, ?_, ⟨⟨req, hqueue⟩, rfl, hstate, rfl⟩, rfl, rfl⟩
  rw [round, runSteps_cons_of_ok hfill, runSteps_cons_of_ok hbody, runSteps_cons_of_ok hfull,
    runSteps_cons_of_ok rfl, runSteps_cons_of_ok hwrite, runSteps_cons_of_ok hdrained, runSteps_nil]

/-- Rounds without a break. -/
def rounds : ℕ → List Choice
  | 0 => []
  | n + 1 => round ++ ([.go, .go] ++ rounds n)

/-- After some rounds of 16 KB so much less of the file is left. -/
theorem rounds_spec {n k : ℕ} (hs : MidResponse (n + k) s) (hblock : l.sendWouldBlock = false)
    (hrunning : l.runningNumWritten + n * 16384 < 256 * 1024) :
    ∃ t l', runSteps (HandlerMachine.step files) ⟨s, .fill l⟩ (rounds n) = .ok ⟨t, .fill l'⟩ ∧
      MidResponse k t ∧ t.inbuf = s.inbuf ∧ t.httpReqState = s.httpReqState ∧
      l'.sendWouldBlock = false ∧ l'.runningNumWritten = l.runningNumWritten + n * 16384 := by
  induction n generalizing s l with
  | zero => exact ⟨s, l, rfl, by simpa using hs, rfl, rfl, hblock, by simp⟩
  | succ n ih =>
    have hblocks : n + 1 + k = n + k + 1 := by omega
    rw [hblocks] at hs
    obtain ⟨t, ht, hmid, hinbuf, hstate⟩ := round_spec hs hblock
    set m : Locals :=
      { sendWouldBlock := false, count := 1, runningNumWritten := l.runningNumWritten + 16384 }
      with hm
    have hadd : HandlerMachine.step files ⟨t, .addMore { m with count := 0 }⟩ .go =
        .ok ⟨t, .check m⟩ := by
      have hlow : ¬256 * 1024 ≤ l.runningNumWritten + 16384 := by omega
      simp only [HandlerMachine.step, addMore, hm, hlow, if_false]
    have hcheck : HandlerMachine.step files ⟨t, .check m⟩ .go = .ok ⟨t, .fill m⟩ := by
      obtain ⟨req, hqueue⟩ := hmid.queue
      simp [HandlerMachine.step, check, hqueue, hm]
    obtain ⟨u, l', hu, hmid', hinbuf', hstate', hblock', hrunning'⟩ := ih (l := m) hmid rfl (by
      simp only [hm]
      omega)
    refine ⟨u, l', ?_, hmid', hinbuf'.trans hinbuf, hstate'.trans hstate, hblock', ?_⟩
    · rw [rounds, runSteps_append]
      refine ⟨_, ht, ?_⟩
      rw [List.cons_append, runSteps_cons_of_ok hadd, List.singleton_append,
        runSteps_cons_of_ok hcheck]
      exact hu
    · rw [hrunning', hm]
      dsimp only
      omega

/-- A file of 256 KB. -/
def bigFile : Files := fun path => if path = ascii "d/b" then some (zeros (16 * 16384)) else none

/-- A request for it. -/
def bigFileRequest : HttpRequest where
  line := ascii "GET /b HTTP/1.1"
  headers := []

/-- The request for the big file is well-formed. -/
theorem wellFormed_bigFileRequest : bigFileRequest.WellFormed := by
  constructor
  · decide
  · decide
  · simp [bigFileRequest]

/-- The handler that has received two requests and taken the first one out of `inbuf_`. -/
def twoReceived : Handler :=
  { Handler.new (ascii "d") with
    inbuf := bigFileRequest.text
    submittedReqQueue := [bigFileRequest.info]
    received := texts [bigFileRequest, bigFileRequest]
    writeToClientEnabled := true }

/-- Two requests arrive together, and the header of the first response is written. -/
def headerWritten : List Choice :=
  [.readable, .recv [(2048, .bytes (texts [bigFileRequest, bigFileRequest]))], .go, .writable, .go,
    .go, .go, .go, .write [(66, .wrote 66)], .go, .go, .go]

/-- When the header was written, the second request is still in `inbuf_`. -/
theorem headerWritten_spec : ∃ s l,
    runSteps (HandlerMachine.step bigFile) (new (ascii "d")) headerWritten = .ok ⟨s, .fill l⟩ ∧
      MidResponse 16 s ∧ s.inbuf = bigFileRequest.text ∧ s.httpReqState = .reqLine ∧
      l.sendWouldBlock = false ∧ l.runningNumWritten = 66 := by
  set l : Locals := { sendWouldBlock := false, count := 1, runningNumWritten := 0 } with hl
  have hreceived : runSteps (HandlerMachine.step bigFile) (new (ascii "d"))
      [.readable, .recv [(2048, .bytes (texts [bigFileRequest, bigFileRequest]))], .go, .writable,
        .go, .go] = .ok ⟨twoReceived, .fill l⟩ := by
    rw [hl]
    decide +kernel
  set head := Handler.header (ascii "d/b") bigFileRequest.info (16 * 16384) with hhead
  have hlength : head.length = 66 := by
    rw [hhead]
    decide +kernel
  have hne : head ≠ [] := by
    rintro h
    simp [h] at hlength
  set s : Handler := { twoReceived with
    outbuf := head
    httpRspState := .body
    activeFd := some (zeros (16 * 16384))
    numRespBodyBytesExpectedToSend := 16 * 16384 } with hs
  have hpath : twoReceived.abspath bigFileRequest.info = ascii "d/b" := by decide
  have hfile : bigFile (ascii "d/b") = some (zeros (16 * 16384)) := if_pos rfl
  have hpos : bigFileRequest.info.firstBytePos = -1 := by decide
  have hmeta : twoReceived.responseMeta bigFile bigFileRequest.info = .ok s := by
    unfold Handler.responseMeta
    rw [hpath, hfile]
    simp [hpos, hs, hhead, twoReceived, Handler.new, Handler.contentLength]
  have hfill : HandlerMachine.step bigFile ⟨twoReceived, .fill l⟩ .go =
      .ok ⟨s, .sendMore { l with count := 0 }⟩ := by
    have hqueue : twoReceived.submittedReqQueue = [bigFileRequest.info] := rfl
    have hout : twoReceived.outbuf = [] := rfl
    have hstate : twoReceived.httpRspState = .metadata := rfl
    simp [HandlerMachine.step, fill, hqueue, hout, hstate, hmeta, readHighWaterMark, hl]
  set t : Handler := { s with sent := head, outbuf := [], numRespBytesSent := 66 } with ht
  set l' : Locals := { sendWouldBlock := false, count := 0, runningNumWritten := 66 } with hl'
  have hwrite : HandlerMachine.step bigFile ⟨s, .drain { l with count := 1 }⟩
      (.write [(66, .wrote 66)]) = .ok ⟨t, .drain l'⟩ := by
    have hpeeks : Peeks head [66] := ⟨by decide, by simp, by simp [hlength], by simp [hlength]⟩
    have htake : head.take 66 = head := List.take_of_length_le hlength.le
    have hwriteLoop : writeLoop [(66, .wrote 66)] head =
        { bytes := head, sendWouldBlock := false, error := false } := by
      simp [writeLoop, htake]
    simp [HandlerMachine.step, drain, FailsUnqueued, drained, hs, hl, hpeeks, hwriteLoop, hne,
      hlength, ht, hl', twoReceived, Handler.new]
  have hdrained : HandlerMachine.step bigFile ⟨t, .drain l'⟩ .go = .ok ⟨t, .addMore l'⟩ := by
    simp [HandlerMachine.step, drain, FailsUnqueued, drained, ht, hs, twoReceived]
  have hcheck : HandlerMachine.step bigFile ⟨t, .check { l' with count := 1 }⟩ .go =
      .ok ⟨t, .fill { l' with count := 1 }⟩ := by
    simp [HandlerMachine.step, check, ht, hs, hl', twoReceived]
  have hadd : HandlerMachine.step bigFile ⟨t, .addMore l'⟩ .go =
      .ok ⟨t, .check { l' with count := 1 }⟩ := by
    simp [HandlerMachine.step, addMore, hl']
  refine ⟨t, { l' with count := 1 }, ?_, ⟨⟨_, rfl⟩, rfl, rfl, rfl⟩, rfl, rfl, rfl, rfl⟩
  have hsplit : headerWritten = [.readable,
      .recv [(2048, .bytes (texts [bigFileRequest, bigFileRequest]))], .go, .writable, .go, .go] ++
      [.go, .go, .write [(66, .wrote 66)], .go, .go, .go] := rfl
  rw [hsplit, runSteps_append]
  refine ⟨_, hreceived, ?_⟩
  rw [runSteps_cons_of_ok hfill, runSteps_cons_of_ok rfl, runSteps_cons_of_ok hwrite,
    runSteps_cons_of_ok hdrained, runSteps_cons_of_ok hadd, runSteps_cons_of_ok hcheck,
      runSteps_nil]

/-- Two requests for a file of 256 KB arrive together and the client takes whatever is written:
after 256 KB the second request is taken out of `inbuf_` while the first one is still in the
queue. -/
theorem not_queueHolds_bigFile :
    (∀ r ∈ [bigFileRequest, bigFileRequest], r.WellFormed) ∧
      ¬QueueHolds [bigFileRequest, bigFileRequest]
        (runSteps (HandlerMachine.step bigFile) (new (ascii "d"))
          (headerWritten ++ (rounds 15 ++ (round ++ [.go, .go])))) := by
  refine ⟨by simp [wellFormed_bigFileRequest], ?_⟩
  obtain ⟨s, l, hs, hmid, hinbuf, hstate, hblock, hrunning⟩ := headerWritten_spec
  obtain ⟨t, l', ht, hmid', hinbuf', hstate', hblock', hrunning'⟩ :=
    rounds_spec (n := 15) (k := 1) hmid hblock (by omega)
  obtain ⟨u, hu, hmid'', hinbuf'', hstate''⟩ := round_spec hmid' hblock'
  set m : Locals :=
    { sendWouldBlock := false, count := 0, runningNumWritten := l'.runningNumWritten + 16384 }
    with hm
  have hbreak : HandlerMachine.step bigFile ⟨u, .addMore m⟩ .go =
      .ok ⟨u, .processInbuf (.addMore { m with count := 1, runningNumWritten := 0 })⟩ := by
    have hhigh : 256 * 1024 ≤ l'.runningNumWritten + 16384 := by omega
    simp only [HandlerMachine.step, addMore, hm, hhigh, if_true]
  have hpipeline : u.processInbuf = .error .pipeline := by
    obtain ⟨req, hqueue⟩ := hmid''.queue
    have hread : u.readln =
        some (bigFileRequest.line, { u with inbuf := u.inbuf.drop (15 + 2) }) := by
      have hfind : findCrlf bigFileRequest.text = some 15 := by decide
      have htake : bigFileRequest.text.take 15 = bigFileRequest.line := by decide
      rw [Handler.readln, hinbuf'', hinbuf', hinbuf, hfind, Option.map_some, htake]
    rw [Handler.processInbuf_full (hstate''.trans (hstate'.trans hstate)) (by simp [hqueue]) hread,
      wellFormed_bigFileRequest.relpath]
  have hrun : runSteps (HandlerMachine.step bigFile) (new (ascii "d"))
      (headerWritten ++ (rounds 15 ++ (round ++ [.go, .go]))) = .error .pipeline := by
    have hfault : runSteps (HandlerMachine.step bigFile) ⟨u, .addMore m⟩ [.go, .go] =
        .error .pipeline := by
      rw [runSteps_cons_of_ok hbreak]
      refine runSteps_cons_of_error ?_
      simp only [HandlerMachine.step, HandlerMachine.processInbuf, hpipeline]
    rw [runSteps_append_of_ok hs, runSteps_append_of_ok ht, runSteps_append_of_ok hu, hfault]
  rw [hrun]
  simp [QueueHolds]

end HandlerMachine

end ShadowExtras.Web
