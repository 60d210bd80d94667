import ShadowExtras.Web.HandlerQueue

/-!
# Requests that arrive in pieces

`process_inbuf_` puts a request into the queue when it has its request line, and `send_to_client`
serves what is in the queue. So a request whose headers are not in `inbuf_` yet is served without
them: reading stops while it is in the queue. `ParsesWhole` says that the blank line is there
whenever a request line is taken out of `inbuf_`. Then a response begins only for a request that was
parsed up to its blank line, and the bytes of the responses are those to the requests of the stream,
however it was cut.
-/

namespace ShadowExtras.Web

open Foundation HttpRequest

namespace HandlerMachine

variable {files : Files} {docroot : Bytes} {reqs : List HttpRequest} {m m' : HandlerMachine}
variable {s t : Handler} {c : Choice}

/-- When a request line is taken out of `inbuf_`, the blank line of the request is there too. -/
def ParsesWhole (m : HandlerMachine) (_ : Choice) : Prop :=
  match m.label with
  | .processInbuf _ => m.handler.httpReqState = .reqLine →
      IsLine m.handler.inbuf ∨ ∃ l ∈ (splitLines m.handler.inbuf).1, cString l = []
  | _ => True

instance (m : HandlerMachine) (c : Choice) : Decidable (ParsesWhole m c) := by
  unfold ParsesWhole
  match m.label with
  | .processInbuf _ =>
    dsimp only
    infer_instance
  | .idle | .readMore | .addMore _ | .check _ | .fill _ | .body _ | .sendMore _ | .drain _ =>
    exact instDecidableTrue

/-- A response has begun only for a request whose bytes up to the blank line were received and
parsed, and what was written and what is in `outbuf_` are the beginning of the responses to the
requests of the stream, ending with one between two responses, until a failure of the socket. -/
structure SegmentFree (files : Files) (docroot : Bytes) (reqs : List HttpRequest)
    (m : HandlerMachine) : Prop where
  begins : m.handler.httpRspState = .body → ∃ parsed r, parsed ++ [r] <+: reqs ∧
    m.handler.received = texts (parsed ++ [r]) ++ m.handler.inbuf ∧
    m.handler.answered = parsed.map info ∧ m.handler.submittedReqQueue = [r.info]
  bytes : m.handler.deletions = 0 →
    m.handler.sent ++ m.handler.outbuf <+: responses files docroot (reqs.map info)
  between : m.handler.deletions = 0 → m.handler.httpRspState = .metadata →
    m.handler.sent ++ m.handler.outbuf = responses files docroot m.handler.answered

/-! ## The invariant -/

/-- The handler follows the stream from one whole request to the next. -/
structure FollowsWhole (files : Files) (docroot : Bytes) (reqs : List HttpRequest)
    (m : HandlerMachine) : Prop where
  follows : FollowsStream reqs m
  state : m.handler.httpReqState = .reqLine
  begun : m.handler.httpRspState = .body → m.handler.submittedReqQueue ≠ []
  sends : m.handler.deletions = 0 → Sends files docroot m.handler ∧ Reads m

theorem followsWhole_new (files : Files) (docroot : Bytes) (reqs : List HttpRequest) :
    FollowsWhole files docroot reqs (new docroot) :=
  ⟨followsStream_new reqs docroot, rfl, fun h => by simp [new, Handler.new] at h,
    fun _ => ⟨(sends_new files docroot).1, (sends_new files docroot).2.1⟩⟩

/-- `process_inbuf_` has succeeded, so it has found no request line while the queue was full. -/
theorem oneAtATime_of_ok {want : Bool} (hstate : s.httpReqState = .reqLine)
    (h : s.processInbuf = .ok (t, want)) : s.OneAtATime := by
  simp only [Handler.OneAtATime, hstate]
  intro hqueue
  by_contra hline
  cases hread : s.readln with
  | none => exact hline (Handler.readln_eq_none.mp hread)
  | some found =>
    obtain ⟨line, u⟩ := found
    rw [Handler.processInbuf_full hstate hqueue hread] at h
    split at h <;> cases h

/-- A step keeps the requests whole, apart from what was sent. -/
theorem FollowsWhole.requests (hreqs : ∀ r ∈ reqs, r.WellFormed)
    (hm : FollowsWhole files docroot reqs m) (hreceives : ReceivesFrom files (texts reqs) m c)
    (hwhole : ParsesWhole m c) (h : step files m c = .ok m') :
    FollowsStream reqs m' ∧ m'.handler.httpReqState = .reqLine ∧
      (m'.handler.httpRspState = .body → m'.handler.submittedReqQueue ≠ []) ∧
      m.handler.deletions ≤ m'.handler.deletions := by
  obtain ⟨s, label⟩ := m
  have hsame : m'.handler = s → ProcessesOne ⟨s, label⟩ c → FollowsStream reqs m' ∧
      m'.handler.httpReqState = .reqLine ∧
      (m'.handler.httpRspState = .body → m'.handler.submittedReqQueue ≠ []) ∧
      s.deletions ≤ m'.handler.deletions := by
    intro heq hone
    refine ⟨hm.follows.step hreqs hreceives hone h, ?_⟩
    rw [heq]
    exact ⟨hm.state, hm.begun, le_rfl⟩
  have hsend : Sending label → FollowsStream reqs m' ∧
      m'.handler.httpReqState = .reqLine ∧
      (m'.handler.httpRspState = .body → m'.handler.submittedReqQueue ≠ []) ∧
      s.deletions ≤ m'.handler.deletions := by
    intro hlabel
    obtain ⟨hmoves, -⟩ := send_spec hlabel h
    refine ⟨hm.follows.send hlabel h, hmoves.state.trans hm.state, fun hbody => ?_,
      hmoves.deletions⟩
    obtain ⟨hqueue, hbegan⟩ := hmoves.begun hbody
    rw [hqueue]
    rcases hbegan with hbegan | hne
    · exact hm.begun hbegan
    · exact hne
  cases label with
  | idle =>
    cases c with
    | readable =>
      refine hsame ?_ trivial
      simp only [HandlerMachine.step] at h
      obtain rfl := Except.ok.inj h
      split_ifs <;> rfl
    | writable =>
      refine hsame ?_ trivial
      simp only [HandlerMachine.step] at h
      obtain rfl := Except.ok.inj h
      split_ifs <;> rfl
    | _ =>
      obtain rfl := Except.ok.inj h
      exact hsame rfl trivial
  | readMore =>
    have hread : ∀ {vectors}, readMore s vectors = .ok m' → m'.handler.httpReqState = .reqLine ∧
        (m'.handler.httpRspState = .body → m'.handler.submittedReqQueue ≠ []) ∧
        s.deletions ≤ m'.handler.deletions := by
      intro vectors h
      rcases readMore_cases h with ⟨-, hstate, -, -, hqueue, -, -, hrsp, hdeletions, -⟩ |
        ⟨data, noMore, rfl⟩
      · rw [hstate, hrsp, hqueue]
        exact ⟨hm.state, hm.begun, hdeletions⟩
      · exact ⟨hm.state, hm.begun, le_rfl⟩
    have hfollows := hm.follows.step hreqs hreceives (by trivial : ProcessesOne _ c) h
    cases c with
    | go => exact ⟨hfollows, hread h⟩
    | recv vectors => exact ⟨hfollows, hread h⟩
    | _ =>
      obtain rfl := Except.ok.inj h
      exact ⟨hfollows, hm.state, hm.begun, le_rfl⟩
  | processInbuf next =>
    cases c with
    | go =>
      have hprocess := h
      simp only [HandlerMachine.step, HandlerMachine.processInbuf] at hprocess
      split at hprocess
      · cases hprocess
      · rename_i t want ht
        have hone : s.OneAtATime := oneAtATime_of_ok hm.state ht
        obtain ⟨future, -, hfollows⟩ := hm.follows.stream
        obtain ⟨t', want', ht', hprocessed, -⟩ :=
          hfollows.processInbuf hreqs hm.follows.bound hone
        obtain ⟨rfl, -⟩ := Prod.mk.inj (Except.ok.inj (ht.symm.trans ht'))
        obtain rfl := Except.ok.inj hprocess
        refine ⟨hm.follows.step hreqs hreceives hone h, ?_, fun hbody => ?_, ?_⟩
        · exact hprocessed.whole ⟨hm.state, hwhole hm.state⟩
        · obtain ⟨houtput, hfront⟩ := Handler.processInbuf_spec ht
          have hrsp : t.httpRspState = s.httpRspState := congrArg (fun o => o.2.2.1) houtput
          obtain ⟨req, rest, hqueue⟩ := List.exists_cons_of_ne_nil (hm.begun (hrsp ▸ hbody))
          obtain ⟨rest', hqueue', -⟩ := hfront req ⟨rest, hqueue, .inl hm.state⟩
          simp [hqueue']
        · exact hprocessed.kept.deletions.ge
    | _ =>
      obtain rfl := Except.ok.inj h
      exact ⟨hm.follows, hm.state, hm.begun, le_rfl⟩
  | _ => exact hsend trivial

/-- One step. -/
theorem FollowsWhole.step (hreqs : ∀ r ∈ reqs, r.WellFormed)
    (hm : FollowsWhole files docroot reqs m) (hreceives : ReceivesFrom files (texts reqs) m c)
    (hwhole : ParsesWhole m c) (h : HandlerMachine.step files m c = .ok m') :
    FollowsWhole files docroot reqs m' := by
  obtain ⟨hfollows, hstate, hbegun, hdeletions⟩ := hm.requests hreqs hreceives hwhole h
  refine ⟨hfollows, hstate, hbegun, fun hzero => ?_⟩
  have hbefore : m.handler.deletions = 0 := by omega
  obtain ⟨hsends, hreads⟩ := hm.sends hbefore
  refine hsends.step hreads ?_ (fun l extents _ _ => hzero.trans hbefore.symm) h
  unfold BeginsParsed
  split
  · exact fun _ _ => hm.state
  · trivial

/-! ## Runs -/

theorem FollowsWhole.segmentFree (hm : FollowsWhole files docroot reqs m) :
    SegmentFree files docroot reqs m := by
  obtain ⟨future, hreceived, hfollows⟩ := hm.follows.stream
  unfold Handler.Follows at hfollows
  rw [hm.state] at hfollows
  obtain ⟨parsed, todo, hreqs, hstream, hread⟩ := hfollows
  have hparsed : m.handler.received = texts parsed ++ m.handler.inbuf := by
    apply (List.append_left_inj future).mp
    rw [hreceived, hreqs, texts_append, List.append_assoc, hstream]
  constructor
  · intro hbody
    obtain ⟨req, rest, hqueue⟩ := List.exists_cons_of_ne_nil (hm.begun hbody)
    have hbound := hm.follows.bound
    obtain rfl : rest = [] := by
      simp only [hqueue, maxPipelineReqs, List.length_cons] at hbound
      exact List.length_eq_zero_iff.mp (by omega)
    rw [Handler.read, hqueue] at hread
    obtain ⟨front, last, rfl, hfront, hlast⟩ := List.map_eq_append_iff.mp hread.symm
    obtain ⟨r, rfl, hr⟩ := List.map_eq_singleton_iff.mp hlast
    exact ⟨front, r, ⟨todo, hreqs.symm⟩, hparsed, hfront.symm, by rw [hqueue, hr]⟩
  · intro hzero
    have hpre := (hm.sends hzero).1.sent_isPrefix
    rw [← Handler.read, hread] at hpre
    refine hpre.trans ?_
    rw [hreqs, List.map_append, responses_append]
    exact List.prefix_append _ _
  · exact fun hzero hmeta => ((hm.sends hzero).1.between hmeta).2

/-- In every run in which a stream of well-formed requests is received and every request line is
taken out of `inbuf_` with the headers behind it, responses begin after the blank line and do not
depend on how the stream was cut. -/
theorem segmentFree_of_parsesWhole (files : Files) (docroot : Bytes) (reqs : List HttpRequest)
    (hreqs : ∀ r ∈ reqs, r.WellFormed) (cs : List Choice)
    (hc : StepsMeet (HandlerMachine.step files)
      (fun m c => ReceivesFrom files (texts reqs) m c ∧ ParsesWhole m c) (new docroot) cs)
    (hrun : runSteps (HandlerMachine.step files) (new docroot) cs = .ok m) :
    SegmentFree files docroot reqs m := by
  have hm : FollowsWhole files docroot reqs m :=
    invariant_of_stepsMeet (FollowsWhole files docroot reqs)
      (fun m c m' hm hP h => hm.step hreqs hP.1 hP.2 h)
        (followsWhole_new files docroot reqs) hc hrun
  exact hm.segmentFree

/-- The end of the request line arrives with the headers. -/
def cutInLine : List Choice :=
  [.readable, .recv [(2048, .bytes (ascii "GET /a HT"))], .go,
    .readable,
      .recv [(2048, .bytes (ascii "TP/1.1" ++ crlf ++ ascii "Range: bytes=1-" ++ crlf ++ crlf))],
    .go, .writable, .go, .go, .go, .go, .write [(89, .wrote 89)], .go, .go, .go, .go,
      .reserve [8192]]

theorem segmentFree_of_parsesWhole_cutInLine :
    ∃ m, runSteps (HandlerMachine.step twoBytes) (new (ascii "d")) cutInLine = .ok m ∧
      m.handler.answered = [secondByteRequest.info] ∧
      SegmentFree twoBytes (ascii "d") [secondByteRequest] m := by
  have hrun : (runSteps (HandlerMachine.step twoBytes) (new (ascii "d")) cutInLine).map
      (fun m => m.handler.answered) = .ok [secondByteRequest.info] := by
    decide +kernel
  cases hm : runSteps (HandlerMachine.step twoBytes) (new (ascii "d")) cutInLine with
  | error f => simp [hm, Except.map] at hrun
  | ok m =>
    refine ⟨m, rfl, by simpa [hm, Except.map] using hrun, ?_⟩
    exact segmentFree_of_parsesWhole twoBytes (ascii "d") [secondByteRequest]
      (fun r hr => List.mem_singleton.mp hr ▸ wellFormed_secondByteRequest) cutInLine
      (by decide +kernel) hm

/-- The headers arrive after the request line. -/
def cutBehindLine : List Choice :=
  [.readable, .recv [(2048, .bytes (ascii "GET /a HTTP/1.1" ++ crlf))], .go, .writable, .go, .go,
    .go, .go, .write [(66, .wrote 66)]]

/-- The request for the second byte of the file is answered with the whole file, before its headers
were received. -/
theorem not_segmentFree_cutBehindLine :
    secondByteRequest.WellFormed ∧
      ∃ m, runSteps (HandlerMachine.step twoBytes) (new (ascii "d")) cutBehindLine = .ok m ∧
        m.handler.received <+: secondByteRequest.text ∧
        ¬SegmentFree twoBytes (ascii "d") [secondByteRequest] m := by
  refine ⟨wellFormed_secondByteRequest, ?_⟩
  have hrun : (runSteps (HandlerMachine.step twoBytes) (new (ascii "d")) cutBehindLine).map
      (fun m => (m.handler.deletions, decide (m.handler.received <+: secondByteRequest.text),
        decide (m.handler.sent ++ m.handler.outbuf <+:
          responses twoBytes (ascii "d") [secondByteRequest.info]))) = .ok (0, true, false) := by
    decide +kernel
  cases hm : runSteps (HandlerMachine.step twoBytes) (new (ascii "d")) cutBehindLine with
  | error f => simp [hm, Except.map] at hrun
  | ok m =>
    rw [hm] at hrun
    obtain ⟨hdeletions, hrest⟩ := Prod.mk.inj (Except.ok.inj hrun)
    obtain ⟨hreceived, hsent⟩ := Prod.mk.inj hrest
    refine ⟨m, rfl, of_decide_eq_true hreceived, fun hfree => ?_⟩
    exact of_decide_eq_false hsent (hfree.bytes hdeletions)

end HandlerMachine

end ShadowExtras.Web
