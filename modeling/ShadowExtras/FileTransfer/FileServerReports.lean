import ShadowExtras.FileTransfer.FileServerRuns

/-!
# What the file server reports

An activation fills in a progress record from the fields of the connection and then overwrites what
it changes. The fields survive a request: `reply.done` is never cleared and `reply.bytes_sent` never
set back, and `reply.f_length` is copied before a new reply sets it. So a report is right just if it
is about the first reply of the connection and this reply was not started by the same activation
with a non-empty file, or if no bytes have moved and nothing is reported (`FirstReply`).

`Sent` says what the loop that sends a reply does to the connection and to the report; the header
and the length of the file bound what was accepted as long as a reply is under way (`Underway`).
-/

namespace ShadowExtras.FileTransfer

open Foundation

/-! ## Right reports -/

/-- What a reply begins with. -/
def replyHeader (c : ServerConnection) : Bytes :=
  match c.serving with
  | none => http404
  | some content => http200Header content.length

/-- The report is about the reply in progress; while a request is being received there is none. -/
def Describes (c : ServerConnection) (p : Progress) : Prop :=
  if c.state = .request then p.bytesWritten = 0 ∧ p.replyLength = 0
  else p.bytesWritten = c.accepted.length ∧ p.replyLength = (c.serving.getD []).length

/-- A reply is reported complete just if one was completed; and what is reported is about the reply
in progress and no more than it. -/
structure Outcome.ReportsRight (o : Outcome) : Prop where
  completes : o.act.replies = (o.act.progress.changed && o.act.progress.replyDone).toNat
  describes : o.act.progress.changed = true → Describes o.act.conn o.act.progress
  bounded : o.act.progress.changed = true →
    o.act.progress.bytesWritten ≤ (replyHeader o.act.conn).length + o.act.progress.replyLength

/-- The first call of `send`, for `len` bytes, accepts some. -/
def Accepts (answers : List Answer) (len : ℕ) : Prop :=
  ∃ n, (answers.headD (.failed .wouldBlock)).send len = .ok (n + 1)

/-- An activation of the connection receives or sends something. -/
def ServerConnection.MovesBytes (c : ServerConnection) (received : Except Errno Bytes)
    (answers : List Answer) : Prop :=
  match c.state with
  | .idle => ReceivesBytes [] received
  | .request =>
    if strSize - c.request.buf.length - 1 = 0 then Accepts answers http404.length
    else ReceivesBytes c.request.buf received
  | .replyFileContinue => Accepts answers (fileContinue c).reply.unsent.length
  | _ => Accepts answers c.reply.unsent.length

/-- On a connection that has completed a reply nothing moves, and on any other the activation does
not start the reply for a file that is not empty. -/
def ServerConnection.FirstReply (c : ServerConnection) (files : Bytes → Option Bytes)
    (docroot : Bytes) (received : Except Errno Bytes) (answers : List Answer) : Prop :=
  (c.reply.done = true → ¬c.MovesBytes received answers) ∧
    (c.reply.done = false → ∀ content, c.startedFile files docroot received = some content →
      content = [])

/-! ## Sending -/

variable {a a' : Activation} {o : Outcome} {new : Bytes} {answers : List Answer}

/-- The states in which a reply is sent. -/
def Replying (s : ServerState) : Prop := s = .replySend ∨ s = .replyFileContinue

/-- What an activation does from `a` on, when it sends `new` of a reply. -/
structure Sent (a : Activation) (o : Outcome) (new : Bytes) : Prop where
  accepted : o.act.conn.accepted = a.conn.accepted ++ new
  bytesSent : o.act.conn.reply.bytesSent = a.conn.reply.bytesSent + new.length
  fLength : o.act.conn.reply.fLength = a.conn.reply.fLength
  serving : o.act.conn.serving = a.conn.serving
  replyLength : o.act.progress.replyLength = a.progress.replyLength
  quiet : new = [] → o.act.progress = a.progress
  moved : new ≠ [] → o.act.progress.changed = true ∧
    o.act.progress.bytesWritten = o.act.conn.reply.bytesSent
  /-- It completes the reply, or goes on with it later. -/
  ends : (new ≠ [] ∧ o.act.conn.state = .idle ∧ o.act.conn.reply.done = true ∧
      o.act.progress.replyDone = true ∧ o.act.replies = a.replies + 1) ∨
    (Replying o.act.conn.state ∧ o.act.conn.reply.done = a.conn.reply.done ∧
      o.act.progress.replyDone = a.progress.replyDone ∧ o.act.replies = a.replies)

/-- Filling the buffer leaves the counters alone. -/
theorem load_fields (a : Activation) :
    a.load.conn.reply.bytesSent = a.conn.reply.bytesSent ∧
      a.load.conn.reply.fLength = a.conn.reply.fLength ∧ a.load.progress = a.progress := by
  unfold Activation.load fileContinue
  split_ifs
  · split
    · exact ⟨rfl, rfl, rfl⟩
    · dsimp only
      split_ifs <;> exact ⟨rfl, rfl, rfl⟩
  · exact ⟨rfl, rfl, rfl⟩

/-- Filling the buffer goes on with the reply. -/
theorem replying_load (h : Replying a.conn.state) : Replying a.load.conn.state := by
  rcases (load_epoll a).2 with hstate | hstate
  · rw [hstate]
    exact h
  · exact .inl hstate

/-- The activation ends without sending. -/
theorem sent_load (h : Replying a.conn.state) (code : ServerCode) (closed : Bool) :
    Sent a { act := a.load, code := code, closed := closed } [] := by
  obtain ⟨haccepted, hserving, hdone, -, hreplies⟩ := load_frame a
  obtain ⟨hbytes, hlength, hprogress⟩ := load_fields a
  exact
    { accepted := by simpa using haccepted
      bytesSent := hbytes
      fLength := hlength
      serving := hserving
      replyLength := congrArg Progress.replyLength hprogress
      quiet := fun _ => hprogress
      moved := fun hne => absurd rfl hne
      ends := .inr ⟨replying_load h, hdone, congrArg Progress.replyDone hprogress, hreplies⟩ }

/-- A `send` first and the rest of the activation after it. -/
theorem Sent.trans {first : Bytes} (h : Sent a' o new) (hne : first ≠ [])
    (haccepted : a'.conn.accepted = a.conn.accepted ++ first)
    (hbytes : a'.conn.reply.bytesSent = a.conn.reply.bytesSent + first.length)
    (hlength : a'.conn.reply.fLength = a.conn.reply.fLength)
    (hserving : a'.conn.serving = a.conn.serving)
    (hreplyLength : a'.progress.replyLength = a.progress.replyLength)
    (hchanged : a'.progress.changed = true)
    (hwritten : a'.progress.bytesWritten = a'.conn.reply.bytesSent)
    (hdone : a'.conn.reply.done = a.conn.reply.done)
    (hreplyDone : a'.progress.replyDone = a.progress.replyDone)
    (hreplies : a'.replies = a.replies) :
    Sent a o (first ++ new) where
  accepted := by rw [h.accepted, haccepted, List.append_assoc]
  bytesSent := by rw [h.bytesSent, hbytes, List.length_append, Nat.add_assoc]
  fLength := h.fLength.trans hlength
  serving := h.serving.trans hserving
  replyLength := h.replyLength.trans hreplyLength
  quiet := fun hnil => absurd (List.append_eq_nil_iff.mp hnil).1 hne
  moved := by
    intro _
    by_cases hnew : new = []
    · have hquiet := h.quiet hnew
      rw [hquiet, hchanged, hwritten, h.bytesSent, hnew]
      exact ⟨rfl, rfl⟩
    · exact h.moved hnew
  ends := by
    rcases h.ends with ⟨-, hstate, hset, hreport, hcount⟩ | ⟨hstate, hset, hreport, hcount⟩
    · exact .inl ⟨by simp [hne], hstate, hset, hreport, by rw [hcount, hreplies]⟩
    · exact .inr ⟨hstate, hset.trans hdone, hreport.trans hreplyDone, hcount.trans hreplies⟩

/-- The loop that sends a reply: something is sent just if the first `send` accepts some. -/
theorem replyLoop_sent (h : Replying a.conn.state) (answers : List Answer) :
    ∃ new, Sent a (replyLoop a answers) new ∧
      (new ≠ [] ↔ Accepts answers a.load.conn.reply.unsent.length) := by
  induction answers generalizing a with
  | nil => exact ⟨[], sent_load h _ _, by simp [Accepts, Answer.send]⟩
  | cons answer answers ih =>
    obtain ⟨haccepted, hserving, hdone, -, hreplies⟩ := load_frame a
    obtain ⟨hbytes, hlength, hprogress⟩ := load_fields a
    unfold replyLoop Accepts
    rw [List.headD_cons]
    cases hanswer : answer.send a.load.conn.reply.unsent.length with
    | error errno => cases errno <;> exact ⟨[], sent_load h _ _, by simp⟩
    | ok bytes =>
      cases bytes with
      | zero => exact ⟨[], sent_load h _ _, by simp⟩
      | succ k =>
        have hn : k + 1 ≤ a.load.conn.reply.unsent.length := Answer.le_of_send_eq_ok hanswer
        obtain ⟨first, hfirst⟩ : ∃ first, first = a.load.conn.reply.unsent.take (k + 1) := ⟨_, rfl⟩
        have hcount : first.length = k + 1 := by
          rw [hfirst, List.length_take]
          omega
        have hne : first ≠ [] := by
          apply List.ne_nil_of_length_pos
          omega
        have haccepted' : (a.load.advance (k + 1)).conn.accepted = a.conn.accepted ++ first := by
          rw [← haccepted, hfirst]
          rfl
        have hbytes' : (a.load.advance (k + 1)).conn.reply.bytesSent =
            a.conn.reply.bytesSent + first.length := by
          rw [← hbytes, hcount]
          rfl
        have hreplyLength := congrArg Progress.replyLength hprogress
        have hreplyDone := congrArg Progress.replyDone hprogress
        have hgo : ∀ b o new, b = a.load.advance (k + 1) ∨
            b = (a.load.advance (k + 1)).resetOffsets →
            Sent b o new → Sent a o (first ++ new) := by
          rintro b o new (rfl | rfl) hsent
          · exact hsent.trans hne haccepted' hbytes' hlength hserving hreplyLength rfl rfl hdone
              hreplyDone
              hreplies
          · exact hsent.trans hne haccepted' hbytes' hlength hserving hreplyLength rfl rfl hdone
              hreplyDone
              hreplies
        dsimp only
        split_ifs with hdrained hclosed
        · refine ⟨first, ?_, by simp [hne]⟩
          exact
            { accepted := haccepted'
              bytesSent := hbytes'
              fLength := hlength
              serving := hserving
              replyLength := hreplyLength
              quiet := fun hnil => absurd hnil hne
              moved := fun _ => ⟨rfl, rfl⟩
              ends := .inl ⟨hne, rfl, rfl, rfl, congrArg (· + 1) hreplies⟩ }
        · obtain ⟨new, hsent, -⟩ :=
            ih (a := (a.load.advance (k + 1)).resetOffsets) (replying_load h)
          exact ⟨first ++ new, hgo _ _ _ (.inr rfl) hsent, by simp [hne]⟩
        · obtain ⟨new, hsent, -⟩ := ih (a := a.load.advance (k + 1)) (replying_load h)
          exact ⟨first ++ new, hgo _ _ _ (.inl rfl) hsent, by simp [hne]⟩

/-! ## A reply under way -/

/-- A connection that sends the 404 reply. -/
structure SendsNotFound (c : ServerConnection) : Prop where
  serving : c.serving = none
  state : c.state = .replySend
  f : c.reply.f = none
  issued : c.accepted ++ c.reply.unsent = http404

/-- A connection that sends a reply, for a file or not. -/
def Underway (c : ServerConnection) : Prop := (∃ content, Serving c content) ∨ SendsNotFound c

/-- A connection with a file under way replies. -/
theorem Underway.replying {c : ServerConnection} (h : Underway c) : Replying c.state := by
  rcases h with ⟨content, hserving⟩ | hnot
  · rcases hserving.file with hread | ⟨f, hopen, -⟩
    · exact .inl hread.state
    · exact .inr hopen.state
  · exact .inl hnot.state

/-- No more was accepted than there is of a reply. -/
theorem Underway.length_accepted_le {c : ServerConnection} (h : Underway c) :
    c.accepted.length ≤ (replyHeader c).length + (c.serving.getD []).length := by
  rcases h with ⟨content, hserving⟩ | hnot
  · have hle := hserving.accepted_prefix.length_le
    rw [length_http200Reply] at hle
    simpa [replyHeader, hserving.serving] using hle
  · have hlength := congrArg List.length hnot.issued
    rw [List.length_append] at hlength
    simp only [replyHeader, hnot.serving, Option.getD_none, List.length_nil]
    omega

/-- No more is accepted than the reply has. -/
theorem SendsNotFound.length_accepted_le {c : ServerConnection} (h : SendsNotFound c) :
    c.accepted.length ≤ http404.length := by
  have hlength := congrArg List.length h.issued
  rw [List.length_append] at hlength
  omega

/-- What `send` accepts of the 404 reply is no longer unsent. -/
theorem SendsNotFound.advance (h : SendsNotFound a.conn) (n : ℕ) :
    SendsNotFound (a.advance n).conn where
  serving := h.serving
  state := h.state
  f := h.f
  issued := by
    have hunsent : (a.advance n).conn.reply.unsent = a.conn.reply.unsent.drop n := by
      rw [Reply.unsent, Reply.unsent, List.drop_drop]
      rfl
    rw [hunsent]
    show (a.conn.accepted ++ a.conn.reply.unsent.take n) ++ _ = http404
    rw [List.append_assoc, List.take_append_drop, h.issued]

/-- The 404 reply goes on until it is complete. -/
theorem SendsNotFound.replyLoop (h : SendsNotFound a.conn) (answers : List Answer) :
    (replyLoop a answers).act.conn.accepted.length ≤ http404.length ∧
      ((replyLoop a answers).act.conn.state = .idle ∨
        SendsNotFound (replyLoop a answers).act.conn) := by
  induction answers generalizing a with
  | nil =>
    have hload : a.load = a := by simp [Activation.load, h.state]
    unfold FileTransfer.replyLoop
    rw [hload]
    exact ⟨h.length_accepted_le, .inr h⟩
  | cons answer answers ih =>
    have hload : a.load = a := by simp [Activation.load, h.state]
    unfold FileTransfer.replyLoop
    rw [hload]
    cases answer.send a.conn.reply.unsent.length with
    | error errno => cases errno <;> exact ⟨h.length_accepted_le, .inr h⟩
    | ok bytes =>
      cases bytes with
      | zero => exact ⟨h.length_accepted_le, .inr h⟩
      | succ k =>
        have hnext := h.advance (k + 1)
        dsimp only
        split_ifs with hdrained hclosed
        · exact ⟨hnext.length_accepted_le, .inl rfl⟩
        · exact absurd h.f hclosed
        · exact ih hnext

/-- A reply that is under way goes on until it is complete. -/
theorem Underway.replyLoop (h : Underway a.conn) (answers : List Answer) :
    (replyLoop a answers).act.conn.accepted.length ≤
      (replyHeader (replyLoop a answers).act.conn).length +
        ((replyLoop a answers).act.conn.serving.getD []).length ∧
      ((replyLoop a answers).act.conn.state = .idle ∨ Underway (replyLoop a answers).act.conn) := by
  rcases h with ⟨content, hserving⟩ | hnot
  · have hsends := hserving.replyLoop answers
    rcases hsends.ends with hcompleted | hunfinished
    · refine ⟨?_, .inl hcompleted.state⟩
      rw [hcompleted.accepted, length_http200Reply]
      simp [replyHeader, hsends.serving]
    · have hunderway : Underway (FileTransfer.replyLoop a answers).act.conn :=
        .inl ⟨content, hunfinished.serving⟩
      exact ⟨hunderway.length_accepted_le, .inr hunderway⟩
  · obtain ⟨hlength, hends⟩ := hnot.replyLoop answers
    obtain ⟨hserving, -⟩ := replyLoop_notFound hnot.state hnot.f hnot.serving answers
    refine ⟨?_, hends.imp_right .inr⟩
    simp only [replyHeader, hserving, Option.getD_none, List.length_nil]
    omega

/-! ## Connections between two activations -/

/-- What the fields that are reported hold between two activations: `earlier` bytes were sent before
the reply in progress, some if and only if a reply was completed. -/
inductive Accountable (c : ServerConnection) : Prop
  /-- It waits for a request. -/
  | waiting
      (state : c.state = .idle ∨ c.state = .request ∧ ReplyClear c.reply ∧ c.reply.fLength = 0)
      (done : c.reply.done = true ↔ 0 < c.reply.bytesSent)
      (fLength : c.reply.done = false → c.reply.fLength = 0)
  /-- It sends a reply. -/
  | replying (earlier : ℕ) (underway : Underway c)
      (done : c.reply.done = true ↔ 0 < earlier)
      (bytesSent : c.reply.bytesSent = earlier + c.accepted.length)
      (fLength : c.reply.fLength = (c.serving.getD []).length)

theorem accountable_new : Accountable ServerConnection.new :=
  .waiting (.inl (by simp [ServerConnection.new])) (by simp [ServerConnection.new])
    (by simp [ServerConnection.new])

/-! ## One activation -/

/-- An activation that sends a reply keeps the account, and its report is right just if nothing has
moved, or no reply was completed before and the length of the file was known when the report was
filled in. -/
theorem reportsRight_replyLoop (earlier : ℕ) (hunderway : Underway a.conn)
    (hdone : a.conn.reply.done = true ↔ 0 < earlier)
    (hbytes : a.conn.reply.bytesSent = earlier + a.conn.accepted.length)
    (hlength : a.conn.reply.fLength = (a.conn.serving.getD []).length)
    (hwritten : a.progress.bytesWritten = a.conn.reply.bytesSent)
    (hreport : a.progress.replyDone = a.conn.reply.done) (hreplies : a.replies = 0)
    (answers : List Answer) :
    Accountable (replyLoop a answers).act.conn ∧
      ((replyLoop a answers).ReportsRight ↔
        (a.progress.changed = true ∨ Accepts answers a.load.conn.reply.unsent.length →
          a.conn.reply.done = false ∧ a.progress.replyLength =
            (a.conn.serving.getD []).length)) := by
  obtain ⟨new, hsent, hmoves⟩ := replyLoop_sent hunderway.replying answers
  obtain ⟨hbound, hends⟩ := hunderway.replyLoop answers
  generalize replyLoop a answers = o at hsent hbound hends ⊢
  have hbytes' : o.act.conn.reply.bytesSent = earlier + o.act.conn.accepted.length := by
    rw [hsent.bytesSent, hsent.accepted, hbytes, List.length_append, Nat.add_assoc]
  have hwritten' : o.act.progress.bytesWritten = earlier + o.act.conn.accepted.length := by
    by_cases hnew : new = []
    · rw [hsent.quiet hnew, hwritten, hbytes, hsent.accepted, hnew, List.append_nil]
    · rw [(hsent.moved hnew).2, hbytes']
  have hchanged : o.act.progress.changed = true ↔
      a.progress.changed = true ∨ Accepts answers a.load.conn.reply.unsent.length := by
    rw [← hmoves]
    by_cases hnew : new = []
    · simp [hsent.quiet hnew, hnew]
    · simp [(hsent.moved hnew).1, hnew]
  have hstate : o.act.conn.state ≠ .request := by
    rcases hsent.ends with ⟨-, hidle, -⟩ | ⟨hreplying, -⟩
    · simp [hidle]
    · rcases hreplying with hsend | hcontinue
      · simp [hsend]
      · simp [hcontinue]
  constructor
  · rcases hsent.ends with ⟨hnew, hidle, hset, -, -⟩ | ⟨hreplying, hset, -, -⟩
    · refine .waiting (.inl hidle) ?_ fun hclear => by simp [hset] at hclear
      have hpos := List.length_pos_iff.mpr hnew
      have hcount := hsent.bytesSent
      constructor
      · intro _
        omega
      · intro _
        exact hset
    · refine .replying earlier (hends.resolve_left ?_) (hset ▸ hdone) hbytes' ?_
      · intro hidle
        rcases hreplying with hsend | hcontinue
        · simp [hidle] at hsend
        · simp [hidle] at hcontinue
      · rw [hsent.fLength, hsent.serving, hlength]
  · constructor
    · intro hright hmoved
      have hdescribes := hright.describes (hchanged.mpr hmoved)
      rw [Describes, if_neg hstate, hwritten', hsent.replyLength, hsent.serving] at hdescribes
      have hfirst : ¬0 < earlier := by omega
      refine ⟨?_, hdescribes.2⟩
      rw [← hdone] at hfirst
      simpa using hfirst
    · intro hgood
      have hfirst : o.act.progress.changed = true →
          earlier = 0 ∧ a.progress.replyLength = (o.act.conn.serving.getD []).length := by
        intro hmoved
        obtain ⟨hclear, hknown⟩ := hgood (hchanged.mp hmoved)
        refine ⟨?_, by rw [hsent.serving, hknown]⟩
        have hnot : ¬a.conn.reply.done = true := by simp [hclear]
        rw [hdone] at hnot
        omega
      constructor
      · rcases hsent.ends with ⟨hnew, -, -, hreported, hcount⟩ | ⟨-, -, hreported, hcount⟩
        · rw [hcount, hreplies, hreported, (hsent.moved hnew).1]
          rfl
        · rw [hcount, hreplies, hreported, hreport]
          by_cases hmoved : o.act.progress.changed = true
          · have hclear := (hgood (hchanged.mp hmoved)).1
            simp [hclear]
          · simp [hmoved]
      · intro hmoved
        obtain ⟨hzero, hknown⟩ := hfirst hmoved
        rw [Describes, if_neg hstate, hwritten', hsent.replyLength]
        exact ⟨by omega, hknown⟩
      · intro hmoved
        obtain ⟨hzero, hknown⟩ := hfirst hmoved
        rw [hwritten', hsent.replyLength, hknown]
        omega

/-- The activation of a connection that waits, from the states `FS_IDLE` and `FS_REQUEST` on. -/
theorem reportsRight_requestStep (files : Bytes → Option Bytes) (docroot : Bytes)
    (received : Except Errno Bytes) (hstate : a.conn.state = .idle ∨ a.conn.state = .request)
    (hclear : ReplyClear a.conn.reply) (hlength : a.conn.reply.fLength = 0)
    (hdone : a.conn.reply.done = true ↔ 0 < a.conn.reply.bytesSent)
    (hreported : a.conn.reply.done = false → a.progress.replyLength = 0)
    (hwritten : a.progress.bytesWritten = a.conn.reply.bytesSent)
    (hreport : a.progress.replyDone = a.conn.reply.done) (hchanged : a.progress.changed = false)
    (hreplies : a.replies = 0) (answers : List Answer) :
    Accountable (requestStep files docroot a received answers).act.conn ∧
      ((requestStep files docroot a received answers).ReportsRight ↔
        (a.conn.reply.done = true → ¬(if strSize - a.conn.request.buf.length - 1 = 0 then
            Accepts answers http404.length else ReceivesBytes a.conn.request.buf received)) ∧
          (a.conn.reply.done = false → ∀ content,
            startedFile files docroot a.conn.request.buf received = some content →
            content = [])) := by
  obtain ⟨a', hsame, hsameReport, hstate', ⟨hnone, ⟨hspace, code, closed, hstep⟩ |
      ⟨hmoves, hstep⟩⟩ |
      ⟨content, hsome, hheader, hstep⟩⟩ :=
    requestStep_cases files docroot received answers a hstate
  · -- the connection waits on
    rw [hstep]
    have hmoved : a'.progress.changed = true ↔ ReceivesBytes a.conn.request.buf received := by
      rw [hsameReport.changed]
      simp [hchanged]
    constructor
    · refine .waiting ?_ (by rw [hsame.reply]; exact hdone) fun _ => by rw [hsame.reply, hlength]
      rcases hstate' with hidle | hrequest
      · exact .inl hidle
      · exact .inr ⟨hrequest, by rw [hsame.reply]; exact hclear, by rw [hsame.reply, hlength]⟩
    · rw [if_neg hspace, ← hmoved]
      simp only [hnone, reduceCtorEq, false_implies, implies_true, and_true]
      constructor
      · intro hright hset hreports
        have hcompletes := hright.completes
        rw [hreports, hsameReport.replyDone, hreport, hset, hsame.replies, hreplies] at hcompletes
        exact absurd hcompletes (by simp)
      · intro hquiet
        have hfirst : a'.progress.changed = true → a.conn.reply.done = false := fun hreports => by
          by_contra hset
          exact hquiet (by simpa using hset) hreports
        have hzero : a'.progress.changed = true → a'.progress.bytesWritten = 0 := by
          intro hreports
          have hnot : ¬a.conn.reply.done = true := by simp [hfirst hreports]
          rw [hdone] at hnot
          rw [hsameReport.bytesWritten, hwritten]
          omega
        constructor
        · rw [hsame.replies, hreplies, hsameReport.replyDone, hreport]
          by_cases hreports : a'.progress.changed = true
          · simp [hfirst hreports]
          · simp [hreports]
        · intro hreports
          rw [Describes, if_pos (hsameReport.state (hmoved.mp hreports))]
          refine ⟨hzero hreports, ?_⟩
          rw [hsameReport.replyLength, hreported (hfirst hreports)]
        · intro hreports
          show a'.progress.bytesWritten ≤ _
          rw [hzero hreports]
          exact Nat.zero_le _
  · -- a 404 reply starts
    rw [hstep]
    obtain ⟨b, hb⟩ : ∃ b, b = { a' with conn := reply404Start a'.conn } := ⟨_, rfl⟩
    rw [← hb]
    have hunsent : b.conn.reply.unsent = http404 := by
      have hoffset : a'.conn.reply.bufReadOffset = 0 := by rw [hsame.reply, hclear.bufReadOffset]
      simp [hb, reply404Start, Reply.unsent, hoffset]
    have hsends : SendsNotFound b.conn := by
      refine ⟨by simp [hb, reply404Start], by simp [hb, reply404Start], by simp [hb, reply404Start],
        ?_⟩
      rw [hunsent]
      simp [hb, reply404Start]
    have hload : b.load = b := by simp [Activation.load, hsends.state]
    have hreply : b.conn.reply.done = a.conn.reply.done ∧
        b.conn.reply.bytesSent = a.conn.reply.bytesSent ∧ b.conn.reply.fLength = 0 := by
      simp [hb, reply404Start, hsame.reply, hlength]
    have hnothing : b.conn.accepted = [] := by simp [hb, reply404Start]
    have hprogress : b.progress = a'.progress := by simp [hb]
    obtain ⟨haccount, hright⟩ := reportsRight_replyLoop a.conn.reply.bytesSent (.inr hsends)
      (by rw [hreply.1]; exact hdone) (by rw [hreply.2.1, hnothing, List.length_nil, Nat.add_zero])
      (by simp [hreply.2.2, hsends.serving])
      (by rw [hprogress, hsameReport.bytesWritten, hwritten, hreply.2.1])
      (by rw [hprogress, hsameReport.replyDone, hreport, hreply.1])
      (by simp [hb, hsame.replies, hreplies]) answers
    refine ⟨haccount, hright.trans ?_⟩
    have hmoved : (b.progress.changed = true ∨ Accepts answers b.load.conn.reply.unsent.length) ↔
        if strSize - a.conn.request.buf.length - 1 = 0 then Accepts answers http404.length
        else ReceivesBytes a.conn.request.buf received := by
      rw [hload, hunsent, hprogress, hsameReport.changed, hchanged]
      by_cases hspace : strSize - a.conn.request.buf.length - 1 = 0
      · have hno : ¬ReceivesBytes a.conn.request.buf received := fun hreceives => hreceives.1 hspace
        simp [hspace, hno]
      · have hreceives := hmoves.resolve_left hspace
        simp [hspace, hreceives]
    rw [hmoved, hreply.1, hprogress, hsameReport.replyLength, hsends.serving]
    simp only [hnone, reduceCtorEq, false_implies, implies_true, and_true]
    constructor
    · intro hgood hset hmoves'
      simp [(hgood hmoves').1] at hset
    · intro hquiet hmoves'
      have hfirst : a.conn.reply.done = false := by
        by_contra hset
        exact hquiet (by simpa using hset) hmoves'
      exact ⟨hfirst, hreported hfirst⟩
  · -- the reply for a file starts
    rw [hstep]
    have hreceives : ReceivesBytes a.conn.request.buf received := by
      unfold startedFile at hsome
      cases received with
      | error errno => simp at hsome
      | ok bytes =>
        dsimp only at hsome
        split_ifs at hsome with hnot
        obtain ⟨hspace, hnil, -⟩ := by simpa only [not_or] using hnot
        obtain ⟨b, bs, rfl⟩ := List.exists_cons_of_ne_nil hnil
        exact ⟨hspace, b, bs, rfl⟩
    obtain ⟨b, hb⟩ : ∃ b, b = { a' with conn := replyFileStart a'.conn content } := ⟨_, rfl⟩
    rw [← hb]
    have hserving : Serving b.conn content := by
      rw [hb]
      refine serving_replyFileStart content ?_ ?_ hheader
      · rw [hsame.reply]
        exact hclear.bufReadOffset
      · rw [hsame.reply]
        exact hclear.fReadOffset
    have hreply : b.conn.reply.done = a.conn.reply.done ∧
        b.conn.reply.bytesSent = a.conn.reply.bytesSent ∧
          b.conn.reply.fLength = content.length := by
      simp [hb, replyFileStart, hsame.reply]
    have hnothing : b.conn.accepted = [] := by simp [hb, replyFileStart]
    have hprogress : b.progress = a'.progress := by simp [hb]
    obtain ⟨haccount, hright⟩ := reportsRight_replyLoop a.conn.reply.bytesSent
      (.inl ⟨content, hserving⟩)
      (by rw [hreply.1]; exact hdone) (by rw [hreply.2.1, hnothing, List.length_nil, Nat.add_zero])
      (by simp [hreply.2.2, hserving.serving])
      (by rw [hprogress, hsameReport.bytesWritten, hwritten, hreply.2.1])
      (by rw [hprogress, hsameReport.replyDone, hreport, hreply.1])
      (by simp [hb, hsame.replies, hreplies]) answers
    refine ⟨haccount, hright.trans ?_⟩
    have hmoved : b.progress.changed = true := by
      rw [hprogress]
      exact hsameReport.changed.mpr (.inr hreceives)
    rw [hreply.1, hprogress, hsameReport.replyLength, hserving.serving, ← hprogress,
      if_neg hreceives.1]
    simp only [hmoved, true_or, true_implies, hsome, Option.some.injEq, Option.getD_some, hreceives,
      not_true_eq_false]
    constructor
    · rintro ⟨hfirst, hknown⟩
      refine ⟨fun hset => by simp [hfirst] at hset, ?_⟩
      rintro _ content' rfl
      rw [hreported hfirst] at hknown
      exact List.length_eq_zero_iff.mp hknown.symm
    · rintro ⟨hset, hempty⟩
      have hfirst : a.conn.reply.done = false := by simpa using hset
      refine ⟨hfirst, ?_⟩
      rw [hreported hfirst, hempty hfirst content rfl, List.length_nil]

/-- What one activation does with an accountable connection. -/
theorem Accountable.activated {c : ServerConnection} (h : Accountable c)
    (files : Bytes → Option Bytes) (docroot : Bytes) (received : Except Errno Bytes)
    (answers : List Answer) :
    Accountable (activateConnection files docroot c received answers).act.conn ∧
      ((activateConnection files docroot c received answers).ReportsRight ↔
        c.FirstReply files docroot received answers) := by
  unfold ServerConnection.FirstReply
  cases h with
  | waiting state done fLength =>
    rcases state with hidle | ⟨hrequest, hclear, hlength⟩
    · obtain ⟨haccount, hright⟩ := reportsRight_requestStep files docroot received
        (a := { conn := resetIdle c, progress := Progress.ofConnection c, received := 0, sent := [],
                replies := 0 })
        (.inl hidle) ⟨rfl, rfl, rfl, rfl⟩ rfl done fLength rfl rfl rfl rfl answers
      unfold activateConnection ServerConnection.MovesBytes ServerConnection.startedFile
      simp only [hidle]
      exact ⟨haccount, hright⟩
    · obtain ⟨haccount, hright⟩ := reportsRight_requestStep files docroot received
        (a :=
          { conn := c, progress := Progress.ofConnection c, received := 0, sent := [],
            replies := 0 })
        (.inr hrequest) hclear hlength done (fun _ => hlength) rfl rfl rfl rfl answers
      unfold activateConnection ServerConnection.MovesBytes ServerConnection.startedFile
      simp only [hrequest]
      exact ⟨haccount, hright⟩
  | replying earlier underway done bytesSent fLength =>
    obtain ⟨haccount, hright⟩ := reportsRight_replyLoop earlier
      (a :=
        { conn := c, progress := Progress.ofConnection c, received := 0, sent := [], replies := 0 })
      underway done bytesSent fLength rfl rfl rfl answers
    have hknown : (Progress.ofConnection c).replyLength = (c.serving.getD []).length := fLength
    rw [hknown] at hright
    unfold activateConnection ServerConnection.MovesBytes ServerConnection.startedFile
    unfold Activation.load at hright
    rcases underway.replying with hsend | hcontinue
    · simp only [hsend] at hright ⊢
      refine ⟨haccount, hright.trans ?_⟩
      cases c.reply.done <;> simp [Progress.ofConnection]
    · simp only [hcontinue] at hright ⊢
      refine ⟨haccount, hright.trans ?_⟩
      cases c.reply.done <;> simp [Progress.ofConnection]

/-! ## Runs -/

namespace FileServer

variable {fs t : FileServer} {i : Input} {c : ServerConnection}

/-- Reports are right. -/
def ReportsRight (fs : FileServer) (i : Input) : Prop :=
  ∀ c, fs.target i = some c → (fs.outcome i c).ReportsRight

/-- An activation is about the first reply of its connection, and did not start it with a file that
is not empty; or it is about a later one and nothing moves. -/
def FirstReply (fs : FileServer) (i : Input) : Prop :=
  ∀ c, fs.target i = some c → c.FirstReply i.files fs.docroot i.received i.answers

/-- The activation reports a reply complete. -/
def reportsReply (fs : FileServer) (i : Input) : Bool :=
  (fs.target i).any fun c =>
    (fs.outcome i c).act.progress.changed && (fs.outcome i c).act.progress.replyDone

/-- The number of replies reported complete. -/
def replyReports : FileServer → List Input → ℕ
  | _, [] => 0
  | fs, i :: is => (fs.reportsReply i).toNat + replyReports (fs.activate i).1 is

/-- Accepting connections completes no reply. -/
theorem repliesSent_foldl_acceptOne (fs : FileServer) (accepts : List Int) :
    (accepts.foldl acceptOne fs).repliesSent = fs.repliesSent := by
  induction accepts generalizing fs with
  | nil => rfl
  | cons sockd accepts ih => exact ih (fs.acceptOne sockd)

/-- Right reports are as many as there are completed replies. -/
theorem repliesSent_of_reportsRight (h : fs.ReportsRight i) :
    (fs.activate i).1.repliesSent = fs.repliesSent + (fs.reportsReply i).toNat := by
  cases htarget : fs.target i with
  | some c =>
    rw [activate_of_target htarget]
    simp only [finish, reportsReply, htarget, Option.any_some, (h c htarget).completes]
  | none =>
    simp only [reportsReply, htarget, Option.any_none, Bool.toNat_false, Nat.add_zero]
    unfold FileServer.activate
    split_ifs with hneg hlisten
    · rfl
    · exact repliesSent_foldl_acceptOne fs i.accepts
    · have hnone : fs.connections i.sockd = none := by simpa [target, hneg, hlisten] using htarget
      rw [hnone]

/-- The replies that are counted are those that were reported. -/
theorem repliesSent_of_stepsMeet {is : List Input} (h : StepsMeet step ReportsRight fs is)
    (hrun : runSteps step fs is = .ok t) : t.repliesSent = fs.repliesSent + replyReports fs is := by
  induction is generalizing fs with
  | nil =>
    obtain rfl : fs = t := by simpa using hrun
    exact (Nat.add_zero _).symm
  | cons i is ih =>
    obtain ⟨fs', hstep, hrest⟩ := runSteps_cons_eq_ok.mp hrun
    obtain rfl : (fs.activate i).1 = fs' := by simpa [step] using hstep
    rw [ih (h.2 _ hstep) hrest, repliesSent_of_reportsRight h.1, replyReports, Nat.add_assoc]

/-- Throughout a run of the server all reports are right if and only if every activation is about
the first reply of its connection, which it did not start with a file that is not empty, or nothing
moves in it. Then as many replies are reported complete as were sent. -/
theorem reportsRight_iff_firstReply (listenSockd : Int) (docroot : Bytes) (is : List Input) :
    (StepsMeet step ReportsRight (start listenSockd docroot) is ↔
      StepsMeet step FirstReply (start listenSockd docroot) is) ∧
    (StepsMeet step FirstReply (start listenSockd docroot) is →
      ∀ t, runSteps step (start listenSockd docroot) is = .ok t →
        t.repliesSent = replyReports (start listenSockd docroot) is) := by
  have hiff : ∀ fs i, EachConnection Accountable fs → (ReportsRight fs i ↔ FirstReply fs i) := by
    intro fs i h
    have hconn : ∀ c, fs.target i = some c → Accountable c := by
      intro c hc
      unfold target at hc
      split_ifs at hc
      exact h _ c hc
    constructor
    · intro hright c hc
      exact ((hconn c hc).activated i.files fs.docroot i.received i.answers).2.mp (hright c hc)
    · intro hfirst c hc
      exact ((hconn c hc).activated i.files fs.docroot i.received i.answers).2.mpr (hfirst c hc)
  have hkeep : ∀ fs i fs', EachConnection Accountable fs → step fs i = .ok fs' →
      EachConnection Accountable fs' := by
    intro fs i fs' h hstep
    obtain rfl : (fs.activate i).1 = fs' := by simpa [step] using hstep
    exact h.activate accountable_new fun c hc _ =>
      (hc.activated i.files fs.docroot i.received i.answers).1
  have hstart : EachConnection Accountable (start listenSockd docroot) := by
    intro sockd c hc
    simp [start] at hc
  have hall : StepsMeet step ReportsRight (start listenSockd docroot) is ↔
      StepsMeet step FirstReply (start listenSockd docroot) is :=
    stepsMeet_iff_stepsMeet (EachConnection Accountable) hiff
      (fun fs i fs' h _ hstep => hkeep fs i fs' h hstep) hstart
  refine ⟨hall, fun hfirst => ?_⟩
  intro t hrun
  rw [repliesSent_of_stepsMeet (hall.mpr hfirst) hrun]
  exact Nat.zero_add _

/-- The first bytes of a further request. -/
def partOfRequest : Input where
  sockd := 4
  accepts := []
  files _ := none
  received := .ok (ascii "GET")
  answers := []

/-- After the reply for an empty file the first bytes of the next request are reported as another
completed reply. -/
theorem not_reportsRight_partOfRequest :
    ¬StepsMeet step ReportsRight (start 3 []) [acceptFour, requestOf [] [.ready 99],
      partOfRequest] := by
  rintro ⟨-, hafter⟩
  obtain ⟨-, hafter⟩ := hafter withNewConnection rfl
  obtain ⟨hright, -⟩ := hafter (withNewConnection.activate (requestOf [] [.ready 99])).1 rfl
  exact absurd (hright _ rfl).completes (by decide)

end FileServer

end ShadowExtras.FileTransfer
