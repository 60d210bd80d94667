import Mathlib.Data.List.Infix
import ShadowExtras.FileTransfer.DownloadSystem
import ShadowExtras.FileTransfer.FileServerReports

/-!
# The server's part in a download

While the request is under way the server holds a beginning of it (`AwaitsRequest`); the activation
that receives the last byte starts the reply. From then on what the server sends and what it has not
sent yet (`SendsRest`) are together the reply. A connection whose reply fills the server's buffer a
whole number of times does not become idle when all of it was sent (`Stuck`): it is left with
nothing to send.
-/

namespace ShadowExtras.FileTransfer

open Foundation

/-! ## The server while it replies -/

variable {c : ServerConnection} {a : Activation} {reply : Option Bytes} {rest : Bytes}
    {docroot : Bytes}
  {i : Arrival}

/-- The server is sending a reply. -/
inductive SendsReply (c : ServerConnection) : Option Bytes → Prop
  | file (content : Bytes) (serving : Serving c content) : SendsReply c (some content)
  | notFound (notFound : SendsNotFound c) : SendsReply c none

/-- What was accepted and what is still to be sent are together the reply. -/
theorem SendsReply.issued (h : SendsReply c reply) : c.pipe.issued = replyText reply := by
  cases h with
  | file content h => exact h.issued
  | notFound h =>
    have hissued := h.issued
    simp only [Pipe.issued, ServerConnection.pipe, h.f, Option.elim_none, List.append_nil]
    exact hissued

/-- A connection that sends a reply is in one of two states. -/
theorem SendsReply.state (h : SendsReply c reply) :
    c.state = .replySend ∨ c.state = .replyFileContinue := by
  cases h with
  | file content h =>
    rcases h.file with hread | ⟨f, hopen, -⟩
    · exact .inl hread.state
    · exact .inr hopen.state
  | notFound h => exact .inl h.state

/-- Sending does not receive. -/
theorem received_load (a : Activation) : a.load.received = a.received := by
  unfold Activation.load
  split_ifs <;> rfl

/-- Sending receives nothing. -/
theorem replyLoop_received (a : Activation) (answers : List Answer) :
    (replyLoop a answers).act.received = a.received := by
  induction answers generalizing a with
  | nil => exact received_load a
  | cons answer answers ih =>
    unfold replyLoop
    cases answer.send a.load.conn.reply.unsent.length with
    | error errno => cases errno <;> exact received_load a
    | ok bytes =>
      cases bytes with
      | zero => exact received_load a
      | succ k =>
        dsimp only
        split_ifs
        · exact received_load a
        · exact (ih _).trans (received_load a)
        · exact (ih _).trans (received_load a)

/-- The loop that sends a 404 reply: what it sends is a front piece of what is left of it. -/
theorem sendsNotFound_replyLoop (h : SendsNotFound a.conn) (answers : List Answer) :
    (∃ new, (replyLoop a answers).act.conn.accepted = a.conn.accepted ++ new ∧
      (replyLoop a answers).act.sent = a.sent ++ new) ∧
    (SendsNotFound (replyLoop a answers).act.conn ∨
      ((replyLoop a answers).act.conn.state = .idle ∧
        (replyLoop a answers).act.conn.accepted = http404)) := by
  induction answers generalizing a with
  | nil =>
    have hload : a.load = a := by simp [Activation.load, h.state]
    unfold replyLoop
    rw [hload]
    exact ⟨⟨[], (List.append_nil _).symm, (List.append_nil _).symm⟩, .inl h⟩
  | cons answer answers ih =>
    have hload : a.load = a := by simp [Activation.load, h.state]
    unfold replyLoop
    rw [hload]
    cases answer.send a.conn.reply.unsent.length with
    | error errno =>
      cases errno <;> exact ⟨⟨[], (List.append_nil _).symm, (List.append_nil _).symm⟩, .inl h⟩
    | ok bytes =>
      cases bytes with
      | zero => exact ⟨⟨[], (List.append_nil _).symm, (List.append_nil _).symm⟩, .inl h⟩
      | succ k =>
        have hnext := h.advance (k + 1)
        dsimp only
        split_ifs with hdrained hclosed
        · refine ⟨⟨_, rfl, rfl⟩, .inr ⟨rfl, ?_⟩⟩
          have hissued := hnext.issued
          rw [Reply.unsent, hdrained, List.drop_length, List.append_nil] at hissued
          exact hissued
        · exact absurd h.f hclosed
        · obtain ⟨⟨new, haccepted, hsent⟩, hends⟩ := ih hnext
          refine ⟨⟨a.conn.reply.unsent.take (k + 1) ++ new, ?_, ?_⟩, hends⟩
          · rw [haccepted, ← List.append_assoc]
            rfl
          · rw [hsent, ← List.append_assoc]
            rfl

/-- A reply that is being sent goes on: what an activation sends is a front piece of what is left,
and a reply that has ended was sent as a whole. -/
theorem SendsReply.replyLoop (h : SendsReply a.conn reply) (answers : List Answer) :
    ∃ new, (FileTransfer.replyLoop a answers).act.conn.accepted = a.conn.accepted ++ new ∧
      (FileTransfer.replyLoop a answers).act.sent = a.sent ++ new ∧
      (SendsReply (FileTransfer.replyLoop a answers).act.conn reply ∨
        ((FileTransfer.replyLoop a answers).act.conn.state = .idle ∧
          (FileTransfer.replyLoop a answers).act.conn.accepted = replyText reply)) := by
  cases h with
  | file content h =>
    obtain ⟨-, ⟨new, haccepted, hsent⟩, hcompleted | hunfinished⟩ := h.replyLoop answers
    · exact ⟨new, haccepted, hsent, .inr ⟨hcompleted.state, hcompleted.accepted⟩⟩
    · exact ⟨new, haccepted, hsent, .inl (.file content hunfinished.serving)⟩
  | notFound h =>
    obtain ⟨⟨new, haccepted, hsent⟩, hends⟩ := sendsNotFound_replyLoop h answers
    exact ⟨new, haccepted, hsent, hends.imp SendsReply.notFound id⟩

/-- Filling the buffer goes on with the reply. -/
theorem SendsReply.load (h : SendsReply a.conn reply) : SendsReply a.load.conn reply := by
  cases h with
  | file content h => exact .file content h.load.1
  | notFound h =>
    have hload : a.load = a := by simp [Activation.load, h.state]
    rw [hload]
    exact .notFound h

/-- Reading more of the file changes nothing of what is left to be sent. -/
theorem SendsReply.pending_load (h : SendsReply a.conn reply) :
    a.load.conn.pipe.pending = a.conn.pipe.pending := by
  obtain ⟨haccepted, -⟩ := load_frame a
  have hissued : a.load.conn.accepted ++ a.load.conn.pipe.pending = replyText reply := h.load.issued
  have hissued' : a.conn.accepted ++ a.conn.pipe.pending = replyText reply := h.issued
  rw [haccepted, ← hissued'] at hissued
  exact List.append_cancel_left hissued

/-- Something is in the buffer after reading more of the file, as long as something is left. -/
theorem SendsReply.unsent_load (h : SendsReply a.conn reply) (hpending : a.conn.pipe.pending ≠ []) :
    a.load.conn.reply.unsent ≠ [] := by
  cases h with
  | notFound h =>
    have hload : a.load = a := by simp [Activation.load, h.state]
    rw [hload]
    simpa [ServerConnection.pipe, h.f] using hpending
  | file content h =>
    -- a buffer with bytes that are not sent
    have hbuffer : ∀ {r : Reply}, r.bufReadOffset < r.buf.length → r.unsent ≠ [] := by
      intro r hlt
      rw [Reply.unsent, Ne, List.drop_eq_nil_iff]
      omega
    rcases h.file with hread | ⟨f, hopen, -⟩
    · have hload : a.load = a := by simp [Activation.load, hread.state]
      rw [hload]
      exact hbuffer (h.offsets.resolve_right fun hreset => hread.buf_ne_nil hreset.1)
    · have hload : a.load = { a with conn := fileContinue a.conn } := by
        simp [Activation.load, hopen.state]
      rw [hload]
      show (fileContinue a.conn).reply.unsent ≠ []
      by_cases hend : f.pos = content.length
      · rw [hopen.fileContinue_eq_self (.inr hend)]
        have hrest : f.rest = [] := by
          rw [OpenFile.rest, hopen.content_eq, hend, List.drop_length]
        simpa [ServerConnection.pipe, hopen.opened, hrest] using hpending
      by_cases hfull : bufSize ≤ a.conn.reply.buf.length
      · rw [hopen.fileContinue_eq_self (.inl hfull)]
        refine hbuffer (h.offsets.resolve_right fun hreset => ?_)
        rw [hreset.1] at hfull
        exact absurd hfull (by decide)
      · -- some of the file is read
        have hleft : f.pos < content.length := lt_of_le_of_ne hopen.pos_le hend
        have hcount := hopen.length_read (bufSize - a.conn.reply.buf.length)
        have hoffset := h.readOffset_le
        rw [hopen.fileContinue_eq (Nat.lt_of_not_le hfull) hleft]
        have hlt : a.conn.reply.bufReadOffset <
            (a.conn.reply.buf ++ (f.read (bufSize - a.conn.reply.buf.length)).1).length := by
          rw [List.length_append]
          omega
        dsimp only
        split_ifs
        · exact hbuffer hlt
        · exact hbuffer hlt

/-- `send` takes bytes in every call. -/
def AllReady (answers : List Answer) : Prop := ∀ answer ∈ answers, ∃ k, answer = .ready k

/-- What is left once a part of the buffer was sent. -/
theorem SendsReply.advance (h : SendsReply a.conn reply) {n : ℕ}
    (hn : n ≤ a.load.conn.reply.unsent.length) :
    ((a.load.advance n).conn.reply.bufReadOffset ≠ (a.load.advance n).conn.reply.buf.length →
        SendsReply (a.load.advance n).conn reply) ∧
      ((a.load.advance n).conn.reply.bufReadOffset = (a.load.advance n).conn.reply.buf.length →
        (a.load.advance n).resetOffsets.conn.reply.f ≠ none →
          SendsReply (a.load.advance n).resetOffsets.conn reply) := by
  cases h with
  | file content h =>
    obtain ⟨hload, hfilled⟩ := h.load
    exact ⟨fun hmore => .file content (hload.advance hn hmore),
      fun hdrained hopen => .file content ((hload.drained hfilled hn hdrained).2 hopen)⟩
  | notFound h =>
    have hload : a.load = a := by simp [Activation.load, h.state]
    rw [hload]
    exact ⟨fun _ => .notFound (h.advance n), fun _ hopen => absurd h.f hopen⟩

/-- While `send` takes bytes, a connection is closed only when nothing is left of its reply. By
induction on the calls of `send`. -/
theorem SendsReply.pending_of_closed (h : SendsReply a.conn reply) {answers : List Answer}
    (hready : AllReady answers) (hclosed : (FileTransfer.replyLoop a answers).closed = true) :
    (FileTransfer.replyLoop a answers).act.conn.pipe.pending = [] := by
  induction answers generalizing a with
  | nil => cases hclosed
  | cons answer answers ih =>
    obtain ⟨k, rfl⟩ := hready answer (by simp)
    have hrest : AllReady answers := fun answer hanswer =>
        hready answer (List.mem_cons_of_mem _ hanswer)
    unfold FileTransfer.replyLoop at hclosed ⊢
    cases hsend : (Answer.ready k).send a.load.conn.reply.unsent.length with
    | error errno => simp [Answer.send] at hsend
    | ok bytes =>
      rw [hsend] at hclosed
      cases bytes with
      | zero =>
        have hempty : a.load.conn.reply.unsent = [] := by
          have hzero : min (k + 1) a.load.conn.reply.unsent.length = 0 := Except.ok.inj hsend
          exact List.length_eq_zero_iff.mp (by omega)
        show a.load.conn.pipe.pending = []
        rw [h.pending_load]
        by_contra hne
        exact h.unsent_load hne hempty
      | succ n =>
        obtain ⟨hmore, hdrained⟩ := h.advance (Answer.le_of_send_eq_ok hsend)
        dsimp only at hclosed ⊢
        split_ifs at hclosed ⊢ with hall hfile
        · cases hclosed
        · exact ih (hdrained hall hfile) hrest hclosed
        · exact ih (hmore hall) hrest hclosed

/-- Something is sent of what is left. -/
theorem SendsReply.sends_of_ready (h : SendsReply a.conn reply)
    (hpending : a.conn.pipe.pending ≠ []) (k : ℕ) (answers : List Answer) :
    a.sent.length < (FileTransfer.replyLoop a (.ready k :: answers)).act.sent.length := by
  have hpos := List.length_pos_iff.mpr (h.unsent_load hpending)
  obtain ⟨-, -, -, hsent, -⟩ := load_frame a
  have hsend : (Answer.ready k).send a.load.conn.reply.unsent.length =
      .ok (min k (a.load.conn.reply.unsent.length - 1) + 1) := by
    rw [Answer.send]
    congr 1
    omega
  obtain ⟨hmore, hdrained⟩ := h.advance (Answer.le_of_send_eq_ok hsend)
  have hless : a.sent.length <
      (a.load.advance (min k (a.load.conn.reply.unsent.length - 1) + 1)).sent.length := by
    show _ < (a.load.sent ++ a.load.conn.reply.unsent.take _).length
    rw [hsent, List.length_append, List.length_take]
    omega
  unfold FileTransfer.replyLoop
  rw [hsend]
  dsimp only
  split_ifs with hall hfile
  · exact hless
  · obtain ⟨new, -, hnew, -⟩ := (hdrained hall hfile).replyLoop answers
    rw [hnew, List.length_append]
    exact hless.trans_le (Nat.le_add_right _ _)
  · obtain ⟨new, -, hnew, -⟩ := (hmore hall).replyLoop answers
    rw [hnew, List.length_append]
    exact hless.trans_le (Nat.le_add_right _ _)

/-- `rest` of a reply is still to be sent by the server. -/
inductive SendsRest (c : ServerConnection) (reply : Option Bytes) (rest : Bytes) : Prop
  | sending (sends : SendsReply c reply) (pending : c.pipe.pending = rest)
  | sent (state : c.state = .idle) (rest_eq : rest = [])

/-- What an activation with these calls of `send` does with the `rest` of a reply: it sends a front
piece, and `rest'` is left. -/
structure SendsOn (o : Outcome) (answers : List Answer) (reply : Option Bytes)
    (rest rest' : Bytes) : Prop where
  split : rest = o.act.sent ++ rest'
  rests : SendsRest o.act.conn reply rest'
  closed : AllReady answers → o.closed = true → rest' = []
  progress : AllReady answers → answers ≠ [] → rest ≠ [] → rest'.length < rest.length

/-- The loop sends on from where the reply is. -/
theorem SendsReply.sendsOn (h : SendsReply a.conn reply) (hsent : a.sent = [])
    (answers : List Answer) :
    ∃ rest',
    SendsOn (FileTransfer.replyLoop a answers) answers reply a.conn.pipe.pending rest' := by
  obtain ⟨new, haccepted, hnew, hends⟩ := h.replyLoop answers
  rw [hsent, List.nil_append] at hnew
  have hissued : a.conn.accepted ++ a.conn.pipe.pending = replyText reply := h.issued
  have hprogress : ∀ rest', a.conn.pipe.pending = (FileTransfer.replyLoop a answers).act.sent ++
      rest' →
      AllReady answers → answers ≠ [] → a.conn.pipe.pending ≠ [] →
      rest'.length < a.conn.pipe.pending.length := by
    intro rest' hsplit hready hne hpending
    obtain ⟨answer, answers, rfl⟩ := List.exists_cons_of_ne_nil hne
    obtain ⟨k, rfl⟩ := hready answer (by simp)
    have hless := h.sends_of_ready hpending k answers
    have hlength := congrArg List.length hsplit
    rw [List.length_append] at hlength
    omega
  rcases hends with hsends | ⟨hidle, hall⟩
  · have hissued' : (FileTransfer.replyLoop a answers).act.conn.accepted ++
        (FileTransfer.replyLoop a answers).act.conn.pipe.pending = replyText reply := hsends.issued
    rw [haccepted, ← hissued, List.append_assoc] at hissued'
    have hsplit : a.conn.pipe.pending = (FileTransfer.replyLoop a answers).act.sent ++
        (FileTransfer.replyLoop a answers).act.conn.pipe.pending := by
      rw [hnew]
      exact (List.append_cancel_left hissued').symm
    exact ⟨_, hsplit, .sending hsends rfl, fun hready hclosed => h.pending_of_closed hready hclosed,
      hprogress _ hsplit⟩
  · have hsplit : a.conn.pipe.pending = (FileTransfer.replyLoop a answers).act.sent ++ [] := by
      rw [haccepted, ← hissued] at hall
      rw [hnew, List.append_nil]
      exact (List.append_cancel_left hall).symm
    exact ⟨[], hsplit, .sent hidle rfl, fun _ _ => rfl, hprogress _ hsplit⟩

/-- A connection that has nothing to receive, and no reply to send, sends nothing. -/
theorem activate_of_idle (docroot : Bytes) (i : Arrival) (hidle : c.state = .idle) :
    (i.activate docroot c []).act.conn.state = .idle ∧ (i.activate docroot c []).act.sent = [] ∧
      (i.activate docroot c []).act.received = 0 := by
  have hheld : c.held = [] := by simp [ServerConnection.held, hidle]
  obtain ⟨hactivate, hbuf, -⟩ := activateConnection_of_awaits i.files docroot (.inl hidle)
    (i.received c []) i.sends
  have hspace : ¬strSize - (Activation.begin c).conn.request.buf.length - 1 = 0 := by
    rw [hbuf, hheld]
    decide
  have hbegin : (Activation.begin c).conn.state = .idle := by
    simp [Activation.begin, hidle, resetIdle]
  have hnothing : i.received c [] = .ok [] ∨ ∃ errno, i.received c [] = .error errno := by
    unfold Arrival.received
    cases i.recv with
    | ready k =>
      simp only [Answer.recv]
      split_ifs
      · exact .inl rfl
      · exact .inr ⟨_, rfl⟩
      · simp at *
    | closed => exact .inl rfl
    | failed errno => exact .inr ⟨_, rfl⟩
  unfold Arrival.activate
  rw [hactivate]
  unfold requestStep
  simp only [hspace, if_false]
  rcases hnothing with hclosed | ⟨errno, herror⟩
  · rw [hclosed]
    exact ⟨hbegin, rfl, rfl⟩
  · rw [herror]
    cases errno <;> exact ⟨hbegin, rfl, rfl⟩

/-- An activation while a reply is sent. -/
theorem SendsRest.activate (h : SendsRest c reply rest) (docroot : Bytes) (i : Arrival) :
    ∃ rest', SendsOn (i.activate docroot c []) i.sends reply rest rest' := by
  cases h with
  | sent hidle hrest =>
    obtain ⟨hidle', hsent, -⟩ := activate_of_idle docroot i hidle
    exact ⟨[], by rw [hsent, hrest]; rfl, .sent hidle' rfl, fun _ _ => rfl,
      fun _ _ hne => absurd hrest hne⟩
  | sending hsends hpending =>
    obtain ⟨b, hb⟩ : ∃ b : Activation, b =
        { conn := c, progress := Progress.ofConnection c, received := 0, sent := [],
          replies := 0 } :=
      ⟨_, rfl⟩
    have hconn : b.conn = c := by rw [hb]
    have hloop : i.activate docroot c [] = FileTransfer.replyLoop b i.sends := by
      unfold Arrival.activate activateConnection
      rcases hsends.state with hstate | hstate <;> simp [hstate, hb]
    have hsends' : SendsReply b.conn reply := hconn ▸ hsends
    obtain ⟨rest', hsendsOn⟩ := hsends'.sendsOn (by rw [hb]) i.sends
    rw [hloop, ← hpending, ← hconn]
    exact ⟨rest', hsendsOn⟩

/-- The server has sent all of a reply that fills its buffer, and is about to send nothing more of
it. -/
def Stuck (c : ServerConnection) : Prop := ∃ reply, SendsReply c reply ∧ c.pipe.pending = []

/-- Sending nothing ends the activation, and the connection if `send` returns zero. -/
theorem Stuck.activate (h : Stuck c) (docroot wire : Bytes) (i : Arrival) :
    Stuck (i.activate docroot c wire).act.conn ∧ (i.activate docroot c wire).act.sent = [] ∧
      (i.activate docroot c wire).act.received = 0 := by
  obtain ⟨reply, hsends, hpending⟩ := h
  obtain ⟨b, hb⟩ : ∃ b : Activation, b =
      { conn := c, progress := Progress.ofConnection c, received := 0, sent := [], replies := 0 } :=
    ⟨_, rfl⟩
  have hconn : b.conn = c := by rw [hb]
  have hloop : i.activate docroot c wire = FileTransfer.replyLoop b i.sends := by
    unfold Arrival.activate activateConnection
    rcases hsends.state with hstate | hstate <;> simp [hstate, hb]
  have hsends' : SendsReply b.load.conn reply := SendsReply.load (hconn ▸ hsends)
  obtain ⟨-, -, -, hsent, -⟩ := load_frame b
  -- nothing is left after reading more of the file either
  have hnothing : b.load.conn.pipe.pending = [] := by
    have hsends'' : SendsReply b.conn reply := hconn ▸ hsends
    rw [hsends''.pending_load, hconn, hpending]
  have hunsent : b.load.conn.reply.unsent = [] := (List.append_eq_nil_iff.mp hnothing).1
  have hact : (FileTransfer.replyLoop b i.sends).act = b.load := by
    cases i.sends with
    | nil => rfl
    | cons answer answers =>
      unfold FileTransfer.replyLoop
      rw [hunsent]
      cases answer with
      | ready k => simp [Answer.send, Activation.close]
      | closed => rfl
      | failed errno => cases errno <;> rfl
  rw [hloop, hact]
  exact ⟨⟨reply, hsends', hnothing⟩, hsent.trans (by rw [hb]), (received_load b).trans (by rw [hb])⟩

/-! ## The server while it receives the request -/

namespace DownloadSystem

section Request

variable {fspec : FileSpec} {sspec : ServerSpec} {requests : Bytes}

/-- The request for a file. -/
def requestOf (fspec : FileSpec) (sspec : ServerSpec) : Bytes :=
  Filegetter.getRequest fspec.remotePath sspec.httpHostname

/-- The request fits into the server's buffer, and its only empty line is at its end. -/
theorem Askable.request (h : Askable fspec sspec) :
    (requestOf fspec sspec).length < strSize ∧ requestPath (requestOf fspec sspec) =
      some fspec.remotePath ∧
      ∀ p, p <+: requestOf fspec sspec →
        cString p = p ∧ (strcasestr twoCrlf p = none ↔ p ≠ requestOf fspec sspec) := by
  obtain ⟨front, hfront⟩ : ∃ front, front =
      getText ++ (fspec.remotePath ++ (hostText ++ sspec.httpHostname)) := ⟨_, rfl⟩
  have htext : requestOf fspec sspec = front ++ twoCrlf := by
    rw [requestOf, getRequest_eq h.path h.host, hfront]
    simp
  have hskip : clashAll twoCrlf front = true := by
    rw [hfront]
    apply clashAll_append (by decide)
    apply clashAll_append (clashAll_of_not_mem (by decide) fun hmem =>
      (h.path.chars _ hmem).2.1 rfl)
    exact clashAll_append (by decide) (clashAll_of_not_mem (by decide) h.noBreak)
  have hfound : strcasestr twoCrlf (requestOf fspec sspec) = some front.length := by
    have hend : strcasestr twoCrlf twoCrlf = some 0 := by decide
    rw [htext, strcasestr_append_of_clashAll hskip, hend]
    simp
  have hget : getText.length = 4 := by decide
  have hmid : hostText.length = 17 := by decide
  have hend : twoCrlf.length = 4 := by decide
  have hlength : (requestOf fspec sspec).length =
      fspec.remotePath.length + sspec.httpHostname.length + 25 := by
    rw [htext, hfront]
    simp only [List.length_append]
    omega
  refine ⟨?_, ?_, fun p hp => ⟨?_, ?_, ?_⟩⟩
  · have := h.length
    have hsize : strSize = 256 := rfl
    omega
  · exact requestPath_of_isPrefix h.path h.host List.prefix_rfl (by
      show strcasestr twoCrlf (requestOf fspec sspec) ≠ none
      rw [hfound]
      simp)
  · exact cString_eq_self fun b hb => ne_zero_of_mem_getRequest h.path h.host b (hp.subset hb)
  · rintro hnone rfl
    rw [hfound] at hnone
    cases hnone
  · intro hne
    by_contra hsome
    obtain ⟨j, hj⟩ := Option.ne_none_iff_exists'.mp hsome
    have hfits := add_length_le_of_strcasestr hj
    obtain ⟨t, ht⟩ := hp
    have hj' := strcasestr_append_of_some hj t
    rw [ht, hfound] at hj'
    obtain rfl := Option.some.inj hj'
    have hp : p <+: requestOf fspec sspec := ⟨t, ht⟩
    refine hne (hp.eq_of_length_le ?_)
    rw [htext, List.length_append]
    exact hfits

/-- The server holds the beginning of the request; `requests` is under way, and the getter has not
sent `unsent` yet. -/
structure AwaitsRequest (c : ServerConnection) (requests unsent request : Bytes) : Prop where
  waiting : Waiting c
  split : c.held ++ (requests ++ unsent) = request
  ne_nil : requests ++ unsent ≠ []

/-- What the getter sends is under way. -/
theorem AwaitsRequest.sendsFront {fg fg' : Filegetter} {unsent unsent' request : Bytes}
    (h : AwaitsRequest c requests unsent request) (hfront : SendsFront fg fg' unsent unsent') :
    AwaitsRequest c (requests ++ fg'.sent.drop fg.sent.length) unsent' request := by
  obtain ⟨new, hsplit, hsent⟩ := hfront.front
  have hmove : (requests ++ fg'.sent.drop fg.sent.length) ++ unsent' = requests ++ unsent := by
    rw [hsent, List.drop_left, hsplit, List.append_assoc]
  refine ⟨h.waiting, ?_, ?_⟩
  · rw [hmove]
    exact h.split
  · rw [hmove]
    exact h.ne_nil

/-- An activation after which the server still waits for the rest of the request. -/
structure WaitsOn (o : Outcome) (recv : Answer) (requests unsent request : Bytes) : Prop where
  sent : o.act.sent = []
  awaits : AwaitsRequest o.act.conn (requests.drop o.act.received) unsent request
  ready : ∀ k, recv = .ready k → o.closed = false ∧ (requests ≠ [] → 0 < o.act.received)

/-- What an activation starts from when the connection waits. -/
theorem begin_of_waiting (h : Waiting c) :
    Waiting (Activation.begin c).conn ∧ ReplyClear (Activation.begin c).conn.reply ∧
      (Activation.begin c).conn.request.buf = c.held ∧ (Activation.begin c).conn.held = c.held := by
  rcases h with hidle | ⟨hrequest, hclear⟩
  · have hbegin : (Activation.begin c).conn = resetIdle c := by simp [Activation.begin, hidle]
    have hstate : (resetIdle c).state = .idle := hidle
    rw [hbegin]
    exact ⟨.inl hstate, ⟨rfl, rfl, rfl, rfl⟩, by simp [resetIdle, ServerConnection.held, hidle],
      by simp [ServerConnection.held, hidle, hstate]⟩
  · have hbegin : (Activation.begin c).conn = c := by simp [Activation.begin, hrequest]
    rw [hbegin]
    exact ⟨.inr ⟨hrequest, hclear⟩, hclear, by simp [ServerConnection.held, hrequest], rfl⟩

/-- The reply that starts when a request is complete. -/
theorem sendsOn_startReply (files : Bytes → Option Bytes) (docroot : Bytes) (answers : List Answer)
    (hclear : ReplyClear a.conn.reply) (hsent : a.sent = [])
    (hsmall : ∀ content ∈ files (docroot ++ a.conn.request.filepath), content.length < 2 ^ 31) :
    (startReply files docroot a answers).act.received = a.received ∧
      ∃ rest, SendsOn (startReply files docroot a answers) answers
        (files (docroot ++ a.conn.request.filepath))
        (replyText (files (docroot ++ a.conn.request.filepath))) rest := by
  -- nothing was accepted of a reply that starts
  have hstarts : ∀ {b : Activation} {reply : Option Bytes}, SendsReply b.conn reply → b.sent = [] →
      b.conn.accepted = [] → b.received = a.received →
      (FileTransfer.replyLoop b answers).act.received = a.received ∧
        ∃ rest, SendsOn (FileTransfer.replyLoop b answers) answers reply
          (replyText reply) rest := by
    intro b reply hsends hbsent haccepted hreceived
    obtain ⟨rest, hsendsOn⟩ := hsends.sendsOn hbsent answers
    have hissued : b.conn.accepted ++ b.conn.pipe.pending = replyText reply := hsends.issued
    rw [haccepted, List.nil_append] at hissued
    exact ⟨(replyLoop_received b answers).trans hreceived, rest, hissued ▸ hsendsOn⟩
  unfold startReply
  cases hfile : files (docroot ++ a.conn.request.filepath) with
  | none =>
    refine hstarts (b := { a with conn := reply404Start { a.conn with epoll := .output } })
      (.notFound ⟨rfl, rfl, rfl, ?_⟩) hsent rfl rfl
    show [] ++ http404.drop a.conn.reply.bufReadOffset = http404
    rw [hclear.bufReadOffset, List.drop_zero, List.nil_append]
  | some content =>
    have hheader := length_http200Header_lt (hsmall content (by simp [hfile]))
    dsimp only
    rw [if_neg (Nat.not_le.mpr hheader)]
    exact hstarts (b := { a with conn := replyFileStart a.conn content })
      (.file content
        (serving_replyFileStart content hclear.bufReadOffset hclear.fReadOffset hheader))
      hsent rfl rfl

/-- An activation of a connection that waits for the rest of the request: it waits on, or has
received all of the request and starts the reply. -/
theorem AwaitsRequest.activate {unsent : Bytes} (docroot : Bytes) (i : Arrival)
    (hask : Askable fspec sspec) (h : AwaitsRequest c requests unsent (requestOf fspec sspec))
    (hsmall : ∀ content ∈ i.files (docroot ++ fspec.remotePath), content.length < 2 ^ 31) :
    WaitsOn (i.activate docroot c requests) i.recv requests unsent (requestOf fspec sspec) ∨
    (unsent = [] ∧ requests.drop (i.activate docroot c requests).act.received = [] ∧
      ∃ rest, SendsOn (i.activate docroot c requests) i.sends
        (i.files (docroot ++ fspec.remotePath))
        (replyText (i.files (docroot ++ fspec.remotePath))) rest) := by
  obtain ⟨hlength, hpath, hpiece⟩ := hask.request
  obtain ⟨hwaiting, hclear, hbuf, hheld⟩ := begin_of_waiting h.waiting
  have hawaits : Awaits c := h.waiting.imp_right And.left
  have hpos := List.length_pos_iff.mpr h.ne_nil
  have hsplit := congrArg List.length h.split
  rw [List.length_append] at hsplit
  have hspace : ¬strSize - c.held.length - 1 = 0 := by omega
  obtain ⟨hactivate, -, -⟩ := activateConnection_of_awaits i.files docroot hawaits
    (i.received c requests) i.sends
  unfold Arrival.activate
  rw [hactivate]
  unfold requestStep
  simp only [hbuf, hspace, if_false]
  -- what a `recv` finds that is not disturbed
  have hready : ∀ k, i.recv = .ready k →
      (requests = [] ∧ i.received c requests = .error .wouldBlock) ∨
      ∃ b bs, i.received c requests = .ok (b :: bs) := by
    intro k hk
    by_cases hne : requests = []
    · exact .inl ⟨hne, by simp [Arrival.received, hk, Answer.recv, hspace, hne]⟩
    · refine .inr ?_
      obtain ⟨b, bs, hcons⟩ := List.exists_cons_of_ne_nil
        (show requests.take (min (k + 1) (strSize - c.held.length - 1)) ≠ [] by simp [hspace, hne])
      exact ⟨b, bs, by rw [Arrival.received, hk, Answer.recv_ready k hspace hne, hcons]⟩
  -- nothing is received
  have hnothing : ∀ {o : Outcome}, o.act = Activation.begin c →
      (∀ k, i.recv = .ready k → requests = [] ∧ o.closed = false) →
      WaitsOn o i.recv requests unsent (requestOf fspec sspec) := by
    intro o hact hquiet
    refine ⟨by rw [hact]; rfl, ?_,
      fun k hk => ⟨(hquiet k hk).2, fun hne => absurd (hquiet k hk).1 hne⟩⟩
    rw [hact]
    exact ⟨hwaiting, by rw [hheld]; exact h.split, h.ne_nil⟩
  cases hreceived : i.received c requests with
  | error errno =>
    rw [hreceived] at hready
    cases errno with
    | wouldBlock =>
      refine .inl (hnothing (by rfl) fun k hk => ⟨?_, by rfl⟩)
      rcases hready k hk with ⟨hempty, -⟩ | ⟨b, bs, hsome⟩
      · exact hempty
      · cases hsome
    | notConn | already | other =>
      refine .inl (hnothing (by rfl) fun k hk => ?_)
      rcases hready k hk with ⟨-, hsome⟩ | ⟨b, bs, hsome⟩ <;> cases hsome
  | ok bytes =>
    rw [hreceived] at hready
    cases bytes with
    | nil =>
      refine .inl (hnothing (by rfl) fun k hk => ?_)
      rcases hready k hk with ⟨-, hsome⟩ | ⟨b, bs, hsome⟩ <;> cases hsome
    | cons b bs =>
      dsimp only
      obtain ⟨bytes, hbytes⟩ : ∃ bytes, bytes = (b :: bs).take (strSize - c.held.length - 1) :=
        ⟨_, rfl⟩
      have hne : bytes ≠ [] := by
        rw [hbytes]
        simp [hspace]
      have hfirst : bytes <+: requests := by
        rw [hbytes]
        exact (List.take_prefix _ _).trans (Answer.prefix_of_recv_eq_ok hreceived)
      rw [← hbytes]
      obtain ⟨left, rfl⟩ := hfirst
      have hbuf' : ((Activation.begin c).receive bytes).conn.request.buf = c.held ++ bytes := by
        rw [← hbuf]
        rfl
      have hcount : ((Activation.begin c).receive bytes).received = bytes.length := Nat.zero_add _
      have hsplit' : (c.held ++ bytes) ++ (left ++ unsent) = requestOf fspec sspec := by
        rw [← h.split]
        simp
      obtain ⟨hself, hempty⟩ := hpiece (c.held ++ bytes) ⟨_, hsplit'⟩
      rw [hbuf', hself]
      by_cases hall : c.held ++ bytes = requestOf fspec sspec
      · right
        obtain ⟨hleft, hunsent⟩ : left = [] ∧ unsent = [] := by
          rw [hall] at hsplit'
          exact List.append_eq_nil_iff.mp (List.append_right_eq_self.mp hsplit')
        obtain ⟨j, hj⟩ := Option.ne_none_iff_exists'.mp fun hnone => hempty.mp hnone hall
        rw [hj, hall, hpath]
        dsimp only
        obtain ⟨a, ha⟩ : ∃ a,
            a = ((Activation.begin c).receive bytes).requestDone fspec.remotePath :=
          ⟨_, rfl⟩
        have hfilepath : a.conn.request.filepath = fspec.remotePath := by rw [ha]; rfl
        have hclear' : ReplyClear a.conn.reply := by rw [ha]; exact hclear
        have hcount' : a.received = bytes.length := by rw [ha]; exact hcount
        obtain ⟨hreceived', rest, hsendsOn⟩ := sendsOn_startReply i.files docroot i.sends hclear'
          (by rw [ha]; rfl) (by rw [hfilepath]; exact hsmall)
        rw [hfilepath] at hsendsOn
        rw [← ha]
        refine ⟨hunsent, ?_, rest, hsendsOn⟩
        rw [hreceived', hcount', hleft, List.append_nil, List.drop_length]
      · left
        rw [hempty.mpr hall]
        refine ⟨rfl, ⟨.inr ⟨rfl, hclear⟩, ?_, ?_⟩, fun k _ => ⟨rfl, fun _ => ?_⟩⟩
        · show ((Activation.begin c).receive bytes).conn.held ++
            ((bytes ++ left).drop ((Activation.begin c).receive bytes).received ++ unsent) = _
          rw [hcount, List.drop_left]
          exact (congrArg (· ++ (left ++ unsent)) hbuf').trans hsplit'
        · show (bytes ++ left).drop ((Activation.begin c).receive bytes).received ++ unsent ≠ []
          rw [hcount, List.drop_left]
          intro hnil
          rw [hnil, List.append_nil] at hsplit'
          exact hall hsplit'
        · show 0 < ((Activation.begin c).receive bytes).received
          rw [hcount]
          exact List.length_pos_iff.mpr hne

end Request

end DownloadSystem

end ShadowExtras.FileTransfer
