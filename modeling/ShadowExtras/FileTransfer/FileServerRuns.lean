import ShadowExtras.FileTransfer.FileServerReply

/-!
# Runs of the file server

A run is a sequence of activations of the server from its start. In every reachable state each
connection is `Settled`: it waits for a request, with the reply before it complete, or it is in the
middle of a reply. `activateConnection_cases` says what one activation does with such a connection;
the invariant of the runs and both results about replies are read off it.

`servesThroughout_iff_startsClear`: the accepted bytes are the reply's whenever `reply.done` is set,
throughout a run, exactly if every reply for a file starts with `reply.done` clear.
`replyCompletes_iff`: an activation in which the last byte of a reply is accepted completes the
reply exactly if header and file do not fill the reply buffer a whole number of times.
-/

namespace ShadowExtras.FileTransfer

open Foundation

/-! ## Connections between two activations -/

/-- A reply that has not been started. -/
structure ReplyClear (r : Reply) : Prop where
  f : r.f = none
  fReadOffset : r.fReadOffset = 0
  buf : r.buf = []
  bufReadOffset : r.bufReadOffset = 0

/-- A connection that waits for a request, or for the rest of one. -/
def Waiting (c : ServerConnection) : Prop :=
  c.state = .idle ∨ (c.state = .request ∧ ReplyClear c.reply)

/-- A connection between two activations. -/
inductive Settled (c : ServerConnection) : Prop
  /-- It waits, and the last reply was sent as a whole. -/
  | waiting (waiting : Waiting c)
      (whole : ∀ content, c.serving = some content → c.accepted = http200Reply content)
  /-- It is sending the reply for a file. -/
  | serving (content : Bytes) (serving : Serving c content)
  /-- It is sending a 404 reply. -/
  | notFound (state : c.state = .replySend) (closed : c.reply.f = none)
      (serving : c.serving = none)

/-- A file is served exactly: what was accepted of the current reply is the beginning of header and
content, and all of it if the reply is marked done. -/
def ServesExactly (c : ServerConnection) : Prop :=
  ∀ content, c.serving = some content →
    c.accepted <+: http200Reply content ∧
      (c.reply.done = true → c.accepted = http200Reply content)

/-! ## One activation -/

/-- The file whose reply is started when `received` completes the request that begins with
`held`. -/
def startedFile (files : Bytes → Option Bytes) (docroot held : Bytes)
    (received : Except Errno Bytes) : Option Bytes :=
  match received with
  | .error _ => none
  | .ok bytes =>
    let space := strSize - held.length - 1
    let buf := held ++ bytes.take space
    if space = 0 ∨ bytes = [] ∨ strcasestr twoCrlf (cString buf) = none then none
    else (requestPath buf).bind fun filepath =>
      (files (docroot ++ filepath)).filter fun content =>
        (http200Header content.length).length < bufSize

/-- The file whose reply an activation of the connection starts. -/
def ServerConnection.startedFile (c : ServerConnection) (files : Bytes → Option Bytes)
    (docroot : Bytes) (received : Except Errno Bytes) : Option Bytes :=
  match c.state with
  | .idle => FileTransfer.startedFile files docroot [] received
  | .request => FileTransfer.startedFile files docroot c.request.buf received
  | _ => none

/-- Two activations that agree on the reply. -/
structure SameReply (a a' : Activation) : Prop where
  reply : a'.conn.reply = a.conn.reply
  serving : a'.conn.serving = a.conn.serving
  accepted : a'.conn.accepted = a.conn.accepted
  sent : a'.sent = a.sent
  replies : a'.replies = a.replies

/-- Some bytes of a request are received, for which there is room. -/
def ReceivesBytes (held : Bytes) (received : Except Errno Bytes) : Prop :=
  strSize - held.length - 1 ≠ 0 ∧ ∃ b bs, received = .ok (b :: bs)

/-- Two activations that agree on what is reported of the reply; the later one reports progress if
bytes of a request were received in between. -/
structure SameReport (a a' : Activation) (receives : Prop) : Prop where
  bytesWritten : a'.progress.bytesWritten = a.progress.bytesWritten
  replyLength : a'.progress.replyLength = a.progress.replyLength
  replyDone : a'.progress.replyDone = a.progress.replyDone
  changed : a'.progress.changed = true ↔ a.progress.changed = true ∨ receives
  state : receives → a'.conn.state = .request

section Activation

variable {files : Bytes → Option Bytes} {docroot : Bytes} {received : Except Errno Bytes}
  {answers : List Answer}

/-- What receiving a part of a request does: the connection waits for more or is closed, a 404 reply
starts, or the reply for a file does. -/
theorem requestStep_cases (files : Bytes → Option Bytes) (docroot : Bytes)
    (received : Except Errno Bytes) (answers : List Answer) (a : Activation)
    (hstate : a.conn.state = .idle ∨ a.conn.state = .request) :
    ∃ a', SameReply a a' ∧ SameReport a a' (ReceivesBytes a.conn.request.buf received) ∧
      (a'.conn.state = .idle ∨ a'.conn.state = .request) ∧
      ((startedFile files docroot a.conn.request.buf received = none ∧
          ((strSize - a.conn.request.buf.length - 1 ≠ 0 ∧ ∃ code closed,
              requestStep files docroot a received answers =
                { act := a', code := code, closed := closed }) ∨
            (strSize - a.conn.request.buf.length - 1 = 0 ∨
              ReceivesBytes a.conn.request.buf received) ∧
              requestStep files docroot a received answers =
                replyLoop { a' with conn := reply404Start a'.conn } answers)) ∨
        ∃ content, startedFile files docroot a.conn.request.buf received = some content ∧
          (http200Header content.length).length < bufSize ∧
          requestStep files docroot a received answers =
            replyLoop { a' with conn := replyFileStart a'.conn content } answers) := by
  have hself : SameReply a a := ⟨rfl, rfl, rfl, rfl, rfl⟩
  have hquiet : ¬ReceivesBytes a.conn.request.buf received →
      SameReport a a (ReceivesBytes a.conn.request.buf received) := fun hnot =>
    ⟨rfl, rfl, rfl, by simp [hnot], fun hreceives => absurd hreceives hnot⟩
  unfold requestStep startedFile
  by_cases hspace : strSize - a.conn.request.buf.length - 1 = 0
  · refine ⟨a, hself, hquiet fun hreceives => hreceives.1 hspace, hstate,
      .inl ⟨?_, .inr ⟨.inl hspace, by simp [hspace]⟩⟩⟩
    cases received with
    | error errno => rfl
    | ok bytes => simp [hspace]
  · simp only [hspace, if_false, false_or]
    cases received with
    | error errno =>
      refine ⟨a, hself, hquiet (by rintro ⟨-, b, bs, hreceived⟩; simp at hreceived), hstate,
        .inl ⟨rfl, .inl ⟨hspace, ?_⟩⟩⟩
      cases errno <;> exact ⟨_, _, rfl⟩
    | ok bytes =>
      cases bytes with
      | nil =>
        exact ⟨a, hself, hquiet (by rintro ⟨-, b, bs, hreceived⟩; simp at hreceived), hstate,
          .inl ⟨by simp, .inl ⟨hspace, _, _, rfl⟩⟩⟩
      | cons b bs =>
        dsimp only
        have hreceives : ReceivesBytes a.conn.request.buf (.ok (b :: bs)) := ⟨hspace, b, bs, rfl⟩
        set bytes := (b :: bs).take (strSize - a.conn.request.buf.length - 1)
        have hreceive : SameReply a (a.receive bytes) := ⟨rfl, rfl, rfl, rfl, rfl⟩
        have hreport : ∀ a' : Activation, a'.progress.bytesWritten = a.progress.bytesWritten →
            a'.progress.replyLength = a.progress.replyLength →
            a'.progress.replyDone = a.progress.replyDone → a'.progress.changed = true →
            a'.conn.state = .request →
              SameReport a a' (ReceivesBytes a.conn.request.buf (.ok (b :: bs))) :=
          fun a' hwritten hlength hdone hchanged hrequest =>
            ⟨hwritten, hlength, hdone, by simp [hchanged, hreceives], fun _ => hrequest⟩
        rw [show (a.receive bytes).conn.request.buf = a.conn.request.buf ++ bytes from rfl]
        cases hempty : strcasestr twoCrlf (cString (a.conn.request.buf ++ bytes)) with
        | none =>
          exact ⟨a.receive bytes, hreceive, hreport (a.receive bytes) rfl rfl rfl rfl rfl, .inr rfl,
            .inl ⟨by simp, .inl ⟨hspace, _, _, rfl⟩⟩⟩
        | some pos =>
          simp only [reduceCtorEq, or_self, if_false]
          cases hpath : requestPath (a.conn.request.buf ++ bytes) with
          | none =>
            exact ⟨a.receive bytes, hreceive, hreport (a.receive bytes) rfl rfl rfl rfl rfl,
              .inr rfl, .inl ⟨rfl, .inr ⟨hreceives, rfl⟩⟩⟩
          | some filepath =>
            have hsame : SameReply a ((a.receive bytes).requestDone filepath) :=
              ⟨rfl, rfl, rfl, rfl, rfl⟩
            have houtput : SameReply a { (a.receive bytes).requestDone filepath with
                conn := { ((a.receive bytes).requestDone filepath).conn with epoll := .output } } :=
              ⟨rfl, rfl, rfl, rfl, rfl⟩
            simp only [Option.bind_some]
            unfold startReply
            rw [show ((a.receive bytes).requestDone filepath).conn.request.filepath = filepath
              from rfl]
            cases hfile : files (docroot ++ filepath) with
            | none =>
              exact ⟨_, houtput, hreport _ rfl rfl rfl rfl rfl, .inr rfl,
                .inl ⟨rfl, .inr ⟨hreceives, rfl⟩⟩⟩
            | some content =>
              by_cases hheader : (http200Header content.length).length < bufSize
              · refine ⟨_, hsame, hreport _ rfl rfl rfl rfl rfl, .inr rfl,
                  .inr ⟨content, ?_, hheader, ?_⟩⟩
                · simp [Option.filter, hheader]
                · simp only [Nat.not_le.mpr hheader, if_false]
              · refine ⟨_, houtput, hreport _ rfl rfl rfl rfl rfl, .inr rfl,
                  .inl ⟨?_, .inl ⟨hspace, .errBufspace, true, ?_⟩⟩⟩
                · simp [Option.filter, hheader]
                · simp only [Nat.le_of_not_lt hheader, if_true]
                  rfl

/-- What an activation does with a settled connection. -/
inductive Activated (files : Bytes → Option Bytes) (docroot : Bytes) (c : ServerConnection)
    (received : Except Errno Bytes) (answers : List Answer) (o : Outcome) : Prop
  /-- It still waits for a request, or is closed while it does. -/
  | waits (started : c.startedFile files docroot received = none)
      (waitingBefore : c.state = .idle ∨ c.state = .request) (waiting : Waiting o.act.conn)
      (serving : o.act.conn.serving = c.serving) (accepted : o.act.conn.accepted = c.accepted)
      (sent : o.act.sent = [])
  /-- It sends a 404 reply. -/
  | notFound (started : c.startedFile files docroot received = none)
      (serving : o.act.conn.serving = none)
      (state : o.act.conn.state = .idle ∨
        (o.act.conn.state = .replySend ∧ o.act.conn.reply.f = none))
  /-- It starts the reply for a file. -/
  | begins (content : Bytes) (a : Activation)
      (started : c.startedFile files docroot received = some content)
      (serving : Serving a.conn content) (done : a.conn.reply.done = c.reply.done)
      (accepted : a.conn.accepted = []) (sent : a.sent = []) (replies : a.replies = 0)
      (outcome : o = replyLoop a answers)
  /-- It continues with the reply for a file. -/
  | continues (content : Bytes) (a : Activation)
      (started : c.startedFile files docroot received = none)
      (serving : Serving a.conn content) (conn : a.conn = c) (sent : a.sent = [])
      (replies : a.replies = 0) (outcome : o = replyLoop a answers)

/-- A connection that waits: the reply is clear once the state `FS_IDLE` was left. -/
theorem activated_of_requestStep {c : ServerConnection} {a : Activation} {o : Outcome}
    (hc : c.state = .idle ∨ c.state = .request)
    (hstarted : c.startedFile files docroot received =
      startedFile files docroot a.conn.request.buf received)
    (hstate : a.conn.state = .idle ∨ a.conn.state = .request) (hclear : ReplyClear a.conn.reply)
    (hdone : a.conn.reply.done = c.reply.done) (hserving : a.conn.serving = c.serving)
    (haccepted : a.conn.accepted = c.accepted) (hsent : a.sent = []) (hreplies : a.replies = 0)
    (ho : o = requestStep files docroot a received answers) :
    Activated files docroot c received answers o := by
  obtain ⟨a', hsame, -, hstate', ⟨hnone, ⟨-, code, closed, hstep⟩ | ⟨-, hstep⟩⟩ |
      ⟨content, hsome, hheader, hstep⟩⟩ :=
    requestStep_cases files docroot received answers a hstate
  · subst ho
    rw [hstep]
    refine .waits (hstarted.trans hnone) hc ?_ (hsame.serving.trans hserving)
      (hsame.accepted.trans haccepted) (hsame.sent.trans hsent)
    rcases hstate' with hidle | hrequest
    · exact .inl hidle
    · exact .inr ⟨hrequest, hsame.reply ▸ hclear⟩
  · subst ho
    rw [hstep]
    obtain ⟨hserving', hstate''⟩ := replyLoop_notFound
      (a := { a' with conn := reply404Start a'.conn }) rfl rfl rfl answers
    exact .notFound (hstarted.trans hnone) hserving' hstate''
  · subst ho
    refine .begins content { a' with conn := replyFileStart a'.conn content }
      (hstarted.trans hsome) (serving_replyFileStart content ?_ ?_ hheader) ?_ rfl
      (hsame.sent.trans hsent) (hsame.replies.trans hreplies) hstep
    · rw [hsame.reply]
      exact hclear.bufReadOffset
    · rw [hsame.reply]
      exact hclear.fReadOffset
    · show a'.conn.reply.done = c.reply.done
      rw [hsame.reply, hdone]

/-- Every activation of a settled connection is one of the four kinds. -/
theorem activateConnection_cases (files : Bytes → Option Bytes) (docroot : Bytes)
    (received : Except Errno Bytes) (answers : List Answer) {c : ServerConnection}
    (h : Settled c) :
    Activated files docroot c received answers
      (activateConnection files docroot c received answers) := by
  rcases h with ⟨hidle | ⟨hrequest, hclear⟩, -⟩ | ⟨content, hserving⟩ | ⟨hstate, hclosed, hserving⟩
  · refine activated_of_requestStep (.inl hidle) ?_ (.inl hidle) ⟨rfl, rfl, rfl, rfl⟩ rfl rfl rfl
      rfl rfl (by simp only [activateConnection, hidle]; rfl)
    simp only [ServerConnection.startedFile, hidle]
    rfl
  · refine activated_of_requestStep (.inr hrequest) ?_ (.inr hrequest) hclear rfl rfl rfl rfl rfl
      (by simp only [activateConnection, hrequest]; rfl)
    simp only [ServerConnection.startedFile, hrequest]
  · have hstate : c.state = .replySend ∨ c.state = .replyFileContinue := by
      rcases hserving.file with hread | ⟨f, hopen, -⟩
      · exact .inl hread.state
      · exact .inr hopen.state
    have hstarted : c.startedFile files docroot received = none := by
      rcases hstate with hstate | hstate <;> simp [ServerConnection.startedFile, hstate]
    refine .continues content
      { conn := c, progress := Progress.ofConnection c, received := 0, sent := [], replies := 0 }
      hstarted hserving rfl rfl rfl ?_
    rcases hstate with hstate | hstate <;> simp [activateConnection, hstate]
  · have hstarted : c.startedFile files docroot received = none := by
      simp [ServerConnection.startedFile, hstate]
    obtain ⟨hserving', hstate'⟩ := replyLoop_notFound
      (a := { conn := c, progress := Progress.ofConnection c, received := 0, sent := [],
              replies := 0 }) hstate hclosed hserving answers
    have hloop : activateConnection files docroot c received answers =
        replyLoop { conn := c, progress := Progress.ofConnection c, received := 0, sent := [],
                    replies := 0 } answers := by
      simp [activateConnection, hstate]
    rw [hloop]
    exact .notFound hstarted hserving' hstate'

/-- A connection that waits has sent its last reply as a whole. -/
theorem Settled.whole {c : ServerConnection} (h : Settled c)
    (hstate : c.state = .idle ∨ c.state = .request) :
    ∀ content, c.serving = some content → c.accepted = http200Reply content := by
  rcases h with ⟨-, hwhole⟩ | ⟨content, hserving⟩ | ⟨hsend, -, -⟩
  · exact hwhole
  · rcases hserving.file with hread | ⟨f, hopen, -⟩
    · have hsend := hread.state
      rcases hstate with hstate | hstate <;> simp [hstate] at hsend
    · have hcontinue := hopen.state
      rcases hstate with hstate | hstate <;> simp [hstate] at hcontinue
  · rcases hstate with hstate | hstate <;> simp [hstate] at hsend

/-- Sending a part of the reply for a file leaves the connection settled. -/
theorem Sends.settled {a : Activation} {content : Bytes} {o : Outcome} (h : Sends a content o) :
    Settled o.act.conn := by
  rcases h.ends with hcompleted | hunfinished
  · refine .waiting (.inl hcompleted.state) fun content' hcontent' => ?_
    obtain rfl : content = content' := by simpa [h.serving] using hcontent'
    exact hcompleted.accepted
  · exact .serving content hunfinished.serving

/-- Sending a part of the reply for a file serves it exactly if `done` was not set too early. -/
theorem Sends.servesExactly {a : Activation} {content : Bytes} {o : Outcome}
    (h : Sends a content o)
    (hdone : a.conn.reply.done = true → a.conn.accepted = http200Reply content) :
    ServesExactly o.act.conn := by
  intro content' hcontent'
  obtain rfl : content = content' := by simpa [h.serving] using hcontent'
  rcases h.ends with hcompleted | hunfinished
  · rw [hcompleted.accepted]
    exact ⟨List.prefix_rfl, fun _ => rfl⟩
  · refine ⟨hunfinished.serving.accepted_prefix, fun hset => ?_⟩
    rw [hunfinished.done] at hset
    exact h.accepted_eq (hdone hset)

/-- An activation leaves a settled connection settled. -/
theorem Settled.activated {c : ServerConnection} (h : Settled c) :
    Settled (activateConnection files docroot c received answers).act.conn := by
  cases activateConnection_cases files docroot received answers h with
  | waits _ hbefore hwaiting hserving haccepted _ =>
    refine .waiting hwaiting fun content hcontent => ?_
    rw [haccepted]
    exact h.whole hbefore content (hserving ▸ hcontent)
  | notFound _ hserving hstate =>
    rcases hstate with hidle | ⟨hsend, hclosed⟩
    · exact .waiting (.inl hidle) fun content hcontent => by simp [hserving] at hcontent
    · exact .notFound hsend hclosed hserving
  | begins content a _ hserving _ _ _ _ houtcome =>
    rw [houtcome]
    exact (hserving.replyLoop answers).settled
  | continues content a _ hserving _ _ _ houtcome =>
    rw [houtcome]
    exact (hserving.replyLoop answers).settled

/-- An activation serves exactly if a reply for a file starts with `done` clear. -/
theorem Settled.servesExactly {c : ServerConnection} (h : Settled c) (hexact : ServesExactly c)
    (hclear : c.startedFile files docroot received ≠ none → c.reply.done = false) :
    ServesExactly (activateConnection files docroot c received answers).act.conn := by
  cases activateConnection_cases files docroot received answers h with
  | waits _ hbefore _ hserving haccepted _ =>
    intro content hcontent
    rw [haccepted, h.whole hbefore content (hserving ▸ hcontent)]
    exact ⟨List.prefix_rfl, fun _ => rfl⟩
  | notFound _ hserving _ =>
    intro content hcontent
    simp [hserving] at hcontent
  | begins content a hstarted hserving hdone _ _ _ houtcome =>
    rw [houtcome]
    refine (hserving.replyLoop answers).servesExactly fun hset => ?_
    simp [hdone, hclear (by simp [hstarted])] at hset
  | continues content a _ hserving hconn _ _ houtcome =>
    rw [houtcome]
    refine (hserving.replyLoop answers).servesExactly fun hset => ?_
    subst hconn
    exact (hexact content hserving.serving).2 hset

/-- Before the first `send` of a reply for a file nothing was accepted, so `done` has to be
clear. -/
theorem Settled.done_eq_false {c : ServerConnection} (h : Settled c)
    (hexact : ServesExactly (activateConnection files docroot c received []).act.conn)
    (hstarted : c.startedFile files docroot received ≠ none) : c.reply.done = false := by
  cases activateConnection_cases files docroot received [] h with
  | waits hnone => exact absurd hnone hstarted
  | notFound hnone => exact absurd hnone hstarted
  | continues _ _ hnone => exact absurd hnone hstarted
  | begins content a _ hserving hdone haccepted _ _ houtcome =>
    rw [houtcome] at hexact
    obtain ⟨haccepted', hserving', hdone', -, -⟩ := load_frame a
    have hwhole := (hexact content (hserving'.trans hserving.serving)).2
    by_contra hset
    have hempty : a.load.conn.accepted = http200Reply content :=
      hwhole (hdone'.trans (hdone.trans (by simpa using hset)))
    have hlength := congrArg List.length hempty
    rw [haccepted', haccepted, length_http200Reply] at hlength
    have hpos := length_http200Header_pos content.length
    simp only [List.length_nil] at hlength
    omega

/-- An activation in which the last byte of a reply for a file is accepted completes the reply
unless header and file fill the buffer a whole number of times. -/
theorem Settled.completes_iff {c : ServerConnection} {content : Bytes} (h : Settled c)
    {o : Outcome} (ho : o = activateConnection files docroot c received answers)
    (hserving : o.act.conn.serving = some content)
    (hall : o.act.conn.accepted = http200Reply content) (hlast : o.act.sent ≠ []) :
    (o.closed = false ∧ o.act.conn.state = .idle ∧ o.act.conn.reply.done = true ∧
        o.act.replies = 1) ↔ ¬bufSize ∣ (http200Reply content).length := by
  have hsends : ∀ {a : Activation} {content' : Bytes}, Serving a.conn content' → a.replies = 0 →
      o = replyLoop a answers →
      ((o.closed = false ∧ o.act.conn.state = .idle ∧ o.act.conn.reply.done = true ∧
        o.act.replies = 1) ↔ ¬bufSize ∣ (http200Reply content).length) := by
    intro a content' hserving' hreplies houtcome
    have hsends := hserving'.replyLoop answers
    rw [← houtcome] at hsends
    obtain rfl : content = content' := by simpa [hserving] using hsends.serving
    rcases hsends.ends with hcompleted | hunfinished
    · have hone : o.act.replies = 1 := by rw [hcompleted.replies, hreplies]
      exact ⟨fun _ => hcompleted.not_dvd,
        fun _ => ⟨hcompleted.open_, hcompleted.state, hcompleted.done, hone⟩⟩
    · have hzero : o.act.replies = 0 := hunfinished.replies.trans hreplies
      have hdvd := hunfinished.serving.dvd_of_accepted hall
      simp [hzero, hdvd]
  have hcases := activateConnection_cases files docroot received answers h
  rw [← ho] at hcases
  cases hcases with
  | waits _ _ _ _ _ hsent => exact absurd hsent hlast
  | notFound _ hnone _ => simp [hnone] at hserving
  | begins content' a _ hserving' _ _ _ hreplies houtcome =>
    exact hsends hserving' hreplies houtcome
  | continues content' a _ hserving' _ _ hreplies houtcome =>
    exact hsends hserving' hreplies houtcome

end Activation

namespace FileServer

/-! ## Runs -/

/-- One activation as a step of a machine that does not fault. -/
def step (fs : FileServer) (i : Input) : Except Empty FileServer := .ok (fs.activate i).1

/-- The connection that an activation is about. -/
def target (fs : FileServer) (i : Input) : Option ServerConnection :=
  if i.sockd < 0 ∨ i.sockd = fs.listenSockd then none else fs.connections i.sockd

/-- An activation with the given connection, up to the first `n` calls of `send`. -/
def outcomeUpTo (fs : FileServer) (i : Input) (c : ServerConnection) (n : ℕ) : Outcome :=
  activateConnection i.files fs.docroot c i.received (i.answers.take n)

/-- An activation with the given connection. -/
def outcome (fs : FileServer) (i : Input) (c : ServerConnection) : Outcome :=
  activateConnection i.files fs.docroot c i.received i.answers

/-- Every connection has a property. -/
def EachConnection (P : ServerConnection → Prop) (fs : FileServer) : Prop :=
  ∀ sockd c, fs.connections sockd = some c → P c

variable {fs t : FileServer} {i : Input} {c : ServerConnection}

theorem activate_of_target (h : fs.target i = some c) :
    fs.activate i = (fs.finish i.sockd (fs.outcome i c), (fs.outcome i c).code) := by
  unfold target at h
  split_ifs at h with hnot
  obtain ⟨hneg, hlisten⟩ := not_or.mp hnot
  simp [activate, hneg, hlisten, h, outcome]

/-- New connections keep a property that `ServerConnection.new` has. -/
theorem EachConnection.foldl_acceptOne {P : ServerConnection → Prop}
    (h : EachConnection P fs) (hnew : P ServerConnection.new) (accepts : List Int) :
    EachConnection P (accepts.foldl acceptOne fs) := by
  induction accepts generalizing fs with
  | nil => exact h
  | cons sockd accepts ih =>
    refine ih fun k c hc => ?_
    by_cases hk : k = sockd
    · subst hk
      obtain rfl : ServerConnection.new = c := by simpa [acceptOne] using hc
      exact hnew
    · exact h k c (by simpa [acceptOne, hk] using hc)

/-- A property of connections is kept by an activation if new connections have it and if the
activation of a connection that stays open keeps it. -/
theorem EachConnection.activate_of_open {P : ServerConnection → Prop} (h : EachConnection P fs)
    (hnew : P ServerConnection.new)
    (houtcome : ∀ c, P c → fs.target i = some c → (fs.outcome i c).closed = false →
      P (fs.outcome i c).act.conn) :
    EachConnection P (fs.activate i).1 := by
  cases htarget : fs.target i with
  | some c =>
    have hc : P c := by
      unfold target at htarget
      split_ifs at htarget
      exact h _ c htarget
    rw [activate_of_target htarget]
    intro k c' hc'
    by_cases hk : k = i.sockd
    · subst hk
      have hopen : (if (fs.outcome i c).closed then none else some (fs.outcome i c).act.conn) =
          some c' := by simpa [finish] using hc'
      split_ifs at hopen with hclosed
      obtain rfl : (fs.outcome i c).act.conn = c' := by simpa using hopen
      exact houtcome c hc htarget (by simpa using hclosed)
    · exact h k c' (by simpa [finish, hk] using hc')
  | none =>
    unfold FileServer.activate
    split_ifs with hneg hlisten
    · exact h
    · exact h.foldl_acceptOne hnew i.accepts
    · have hnone : fs.connections i.sockd = none := by simpa [target, hneg, hlisten] using htarget
      rw [hnone]
      exact h

/-- A property of connections is kept by an activation if new connections have it and if the
activation of a connection keeps it. -/
theorem EachConnection.activate {P : ServerConnection → Prop} (h : EachConnection P fs)
    (hnew : P ServerConnection.new)
    (houtcome : ∀ c, P c → fs.target i = some c → P (fs.outcome i c).act.conn) :
    EachConnection P (fs.activate i).1 :=
  h.activate_of_open hnew fun c hc htarget _ => houtcome c hc htarget

/-- A new connection is settled and serves no file. -/
theorem settled_new : Settled ServerConnection.new ∧ ServesExactly ServerConnection.new :=
  ⟨.waiting (.inl rfl) fun content h => by simp [ServerConnection.new] at h,
    fun content h => by simp [ServerConnection.new] at h⟩

/-- In every reachable state every connection is settled. -/
theorem settled_of_runSteps {listenSockd : Int} {docroot : Bytes} {is : List Input}
    (hrun : runSteps step (start listenSockd docroot) is = .ok t) : EachConnection Settled t := by
  refine invariant_of_steps (EachConnection Settled) ?_ ?_ hrun
  · intro fs i fs' h hstep
    obtain rfl : (fs.activate i).1 = fs' := by simpa [step] using hstep
    exact h.activate settled_new.1 fun c hc _ => hc.activated
  · intro sockd c hc
    simp [start] at hc

/-! ## Serving exactly -/

/-- At every moment of the activation, after each number of calls of `send`, the connection serves
its file exactly. -/
def ServesThroughout (fs : FileServer) (i : Input) : Prop :=
  ∀ c, fs.target i = some c → ∀ n, ServesExactly (fs.outcomeUpTo i c n).act.conn

/-- If the activation starts the reply for a file, `reply.done` is clear before. -/
def StartsClear (fs : FileServer) (i : Input) : Prop :=
  ∀ c, fs.target i = some c → c.startedFile i.files fs.docroot i.received ≠ none →
    c.reply.done = false

/-- An activation that receives a request for a file with the given content. -/
def requestOf (content : Bytes) (answers : List Answer) : Input where
  sockd := 4
  accepts := []
  files _ := some content
  received := .ok (ascii "GET a \r\n\r\n")
  answers := answers

/-- The listening socket accepts a connection. -/
def acceptFour : Input where
  sockd := 3
  accepts := [4]
  files _ := none
  received := .error .wouldBlock
  answers := []

/-- The server with one new connection. -/
def withNewConnection : FileServer := ((start 3 []).activate acceptFour).1

/-- Throughout a run of the server every file is served exactly, if and only if no reply for a file
starts on a connection with `reply.done` set. -/
theorem servesThroughout_iff_startsClear (listenSockd : Int) (docroot : Bytes)
    (is : List Input) :
    StepsMeet step ServesThroughout (start listenSockd docroot) is ↔
      StepsMeet step StartsClear (start listenSockd docroot) is := by
  refine stepsMeet_iff_stepsMeet (EachConnection fun c => Settled c ∧ ServesExactly c) ?_ ?_ ?_
  · intro fs i h
    have hconn : ∀ c, fs.target i = some c → Settled c ∧ ServesExactly c := by
      intro c hc
      unfold target at hc
      split_ifs at hc
      exact h _ c hc
    constructor
    · intro hserves c hc
      exact (hconn c hc).1.done_eq_false (hserves c hc 0)
    · intro hclear c hc n
      exact (hconn c hc).1.servesExactly (hconn c hc).2 (hclear c hc)
  · intro fs i fs' h hclear hstep
    obtain rfl : (fs.activate i).1 = fs' := by simpa [step] using hstep
    exact h.activate settled_new fun c hc htarget =>
      ⟨hc.1.activated, hc.1.servesExactly hc.2 (hclear c htarget)⟩
  · intro sockd c hc
    simp [start] at hc

/-- The second reply on a connection has one byte accepted while `done` is still set. -/
theorem not_servesThroughout_second_request :
    ¬StepsMeet step ServesThroughout (start 3 [])
      [acceptFour, requestOf (ascii "x") [.ready 99], requestOf (ascii "x") [.ready 0]] := by
  intro h
  obtain ⟨-, hafter⟩ := h
  obtain ⟨-, hafter⟩ := hafter withNewConnection rfl
  obtain ⟨hserves, -⟩ := hafter
    (withNewConnection.activate (requestOf (ascii "x") [.ready 99])).1 rfl
  have hwhole := (hserves _ rfl 1 (ascii "x") rfl).2 rfl
  exact absurd hwhole (by decide)

/-! ## Completing a reply -/

/-- The activation completes a reply: it is counted, and the connection is registered and idle. -/
def ReplyCompletes (fs : FileServer) (i : Input) : Prop :=
  (fs.activate i).1.repliesSent = fs.repliesSent + 1 ∧
    ∃ c, (fs.activate i).1.connections i.sockd = some c ∧ c.state = .idle ∧ c.reply.done = true

/-- Completing a reply, read off the outcome of the activation. -/
theorem replyCompletes_iff_outcome (htarget : t.target i = some c) :
    ReplyCompletes t i ↔ (t.outcome i c).closed = false ∧ (t.outcome i c).act.conn.state = .idle ∧
      (t.outcome i c).act.conn.reply.done = true ∧ (t.outcome i c).act.replies = 1 := by
  unfold ReplyCompletes
  rw [activate_of_target htarget]
  simp only [finish, Function.update_self]
  constructor
  · rintro ⟨hreplies, c', hc', hidle, hdone⟩
    split_ifs at hc' with hclosed
    obtain rfl : (t.outcome i c).act.conn = c' := by simpa using hc'
    exact ⟨by simpa using hclosed, hidle, hdone, by omega⟩
  · rintro ⟨hopen, hidle, hdone, hreplies⟩
    exact ⟨by rw [hreplies], _, by rw [if_neg (by simp [hopen])], hidle, hdone⟩

/-- In every reachable state: an activation in which the last byte of the reply for a file is
accepted completes the reply, if and only if header and file do not fill the reply buffer a whole
number of times. -/
theorem replyCompletes_iff {listenSockd : Int} {docroot : Bytes} {is : List Input}
    (hrun : runSteps step (start listenSockd docroot) is = .ok t) (htarget : t.target i = some c)
    {content : Bytes} (hserving : (t.outcome i c).act.conn.serving = some content)
    (hall : (t.outcome i c).act.conn.accepted = http200Reply content)
    (hlast : (t.outcome i c).act.sent ≠ []) :
    ReplyCompletes t i ↔ ¬bufSize ∣ (http200Header content.length).length + content.length := by
  have hsettled : Settled c := by
    unfold target at htarget
    split_ifs at htarget
    exact settled_of_runSteps hrun _ c htarget
  have hcompletes := hsettled.completes_iff (o := t.outcome i c) rfl hserving hall hlast
  rw [replyCompletes_iff_outcome htarget, hcompletes, length_http200Reply]

/-- A reply of one byte that one `send` accepts as a whole. -/
theorem replyCompletes_iff_one_byte :
    ReplyCompletes withNewConnection (requestOf (ascii "x") [.ready 99]) ↔
      ¬bufSize ∣ (http200Header (ascii "x").length).length + (ascii "x").length := by
  have hrun : runSteps step (start 3 []) [acceptFour] = .ok withNewConnection := rfl
  have htarget : withNewConnection.target (requestOf (ascii "x") [.ready 99]) =
      some ServerConnection.new := rfl
  have hserving : (withNewConnection.outcome (requestOf (ascii "x") [.ready 99])
      ServerConnection.new).act.conn.serving = some (ascii "x") := rfl
  exact replyCompletes_iff hrun htarget hserving (by decide) (by decide)

/-- An activation of a new connection that receives the whole request. -/
theorem outcome_requestOf (content : Bytes) (answers : List Answer)
    (hheader : (http200Header content.length).length < bufSize) :
    ∃ (a : Activation) (c : ServerConnection), c.reply.bufReadOffset = 0 ∧ c.reply.fReadOffset = 0 ∧
      withNewConnection.outcome (requestOf content answers) ServerConnection.new =
        replyLoop { a with conn := replyFileStart c content } answers := by
  let a : Activation :=
    { conn := resetIdle ServerConnection.new,
      progress := Progress.ofConnection ServerConnection.new, received := 0, sent := [],
      replies := 0 }
  let b := (a.receive (ascii "GET a \r\n\r\n")).requestDone (ascii "a")
  refine ⟨b, b.conn, rfl, rfl, ?_⟩
  have hstart : startReply (fun _ => some content) [] b answers =
      replyLoop { b with conn := replyFileStart b.conn content } answers := by
    unfold startReply
    dsimp only
    rw [if_neg (Nat.not_le.mpr hheader)]
  rw [← hstart]
  rfl

/-- The reply for a file of 51158 bytes fills the buffer: it is sent as a whole and the connection
is closed then. -/
theorem closed_of_length_eq {content : Bytes} (hlength : content.length = 51158) {o : Outcome}
    (ho : o = withNewConnection.outcome (requestOf content [.ready 51199, .ready 0])
      ServerConnection.new) :
    o.act.conn.serving = some content ∧ o.act.conn.accepted = http200Reply content ∧
      o.act.sent ≠ [] ∧
      ¬ReplyCompletes withNewConnection (requestOf content [.ready 51199, .ready 0]) := by
  have hheader : (http200Header content.length).length = 42 := by
    rw [hlength]
    decide
  obtain ⟨a, c, hread, hoffset, hloop⟩ := outcome_requestOf content [.ready 51199, .ready 0]
    (by rw [hheader]; decide)
  obtain ⟨hserving, hall, hlast⟩ := replyLoop_fullBuffer a hread hoffset (by rw [hlength]; decide)
    (by rw [hheader, hlength]; rfl) [.ready 0]
  have ho' : o = replyLoop { a with conn := replyFileStart c content }
      [.ready (bufSize - 1), .ready 0] := ho.trans hloop
  rw [← ho'] at hserving hall hlast
  have hdvd : bufSize ∣ (http200Reply content).length := by
    rw [length_http200Reply, hheader, hlength]
    exact dvd_refl _
  have hcompletes := settled_new.1.completes_iff ho hserving hall hlast
  subst ho
  refine ⟨hserving, hall, hlast, ?_⟩
  rw [replyCompletes_iff_outcome rfl, hcompletes]
  exact not_not.mpr hdvd

/-- A request for a file of 51158 bytes, whose header has 42 bytes, with `send` accepting
everything. -/
def fullBufferRequest : Input :=
  requestOf (List.replicate 51158 120) [.ready 51199, .ready 0]

/-- The last byte of that reply is accepted, and the reply is not complete. -/
theorem not_replyCompletes_full_buffer :
    runSteps step (start 3 []) [acceptFour] = .ok withNewConnection ∧
      withNewConnection.target fullBufferRequest = some ServerConnection.new ∧
      (withNewConnection.outcome fullBufferRequest ServerConnection.new).act.conn.serving =
        some (List.replicate 51158 120) ∧
      (withNewConnection.outcome fullBufferRequest ServerConnection.new).act.conn.accepted =
        http200Reply (List.replicate 51158 120) ∧
      (withNewConnection.outcome fullBufferRequest ServerConnection.new).act.sent ≠ [] ∧
      ¬ReplyCompletes withNewConnection fullBufferRequest := by
  have hlength : (List.replicate 51158 (120 : Byte)).length = 51158 := List.length_replicate
  have htarget : withNewConnection.target fullBufferRequest = some ServerConnection.new := rfl
  unfold fullBufferRequest at htarget ⊢
  exact ⟨rfl, htarget, closed_of_length_eq hlength rfl⟩

end FileServer

end ShadowExtras.FileTransfer
