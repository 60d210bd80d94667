import ShadowExtras.FileTransfer.FileServerRuns

/-!
# The events that the file server waits for

A connection is watched for input or for output, and `fileserver_activate` changes that in two
states only: in `FS_IDLE` to input, in `FS_REPLY_FILE_START` to output. So a reply for a file, and
the 404 reply for a file that cannot be opened, is sent with the socket watched for output. The 404
reply for a malformed request does not pass through `FS_REPLY_FILE_START`: unless it leaves at once,
the server waits for input while it has output to send (`rightEvent_iff_refusalsLeave`).
-/

namespace ShadowExtras.FileTransfer

open Foundation

/-- A connection waits for the right event: for output while bytes of its reply are unsent, for
input while a part of a request is missing. -/
structure RightEvent (c : ServerConnection) : Prop where
  output : c.reply.unsent ≠ [] ∨ c.reply.f ≠ none → c.epoll = .output
  input : c.state = .request → c.epoll = .input

/-- Is the request that begins with `held` malformed, or too long, once `received` has arrived? -/
def Malformed (held : Bytes) (received : Except Errno Bytes) : Prop :=
  let space := strSize - held.length - 1
  space = 0 ∨
    match received with
    | .error _ => False
    | .ok bytes =>
      let buf := held ++ bytes.take space
      bytes ≠ [] ∧ strcasestr twoCrlf (cString buf) ≠ none ∧ requestPath buf = none

instance (held : Bytes) (received : Except Errno Bytes) : Decidable (Malformed held received) := by
  unfold Malformed
  cases received <;> infer_instance

/-- Does an activation of the connection refuse the request? -/
def ServerConnection.Refuses (c : ServerConnection) (received : Except Errno Bytes) : Prop :=
  match c.state with
  | .idle => Malformed [] received
  | .request => Malformed c.request.buf received
  | _ => False

instance (c : ServerConnection) (received : Except Errno Bytes) :
    Decidable (c.Refuses received) := by
  unfold ServerConnection.Refuses
  split <;> infer_instance

/-- Do `n` bytes go out, or does the connection end, before a `send` would block? -/
def drains : List Answer → ℕ → Bool
  | [], _ => false
  | answer :: answers, n =>
    match answer.send n with
    | .error .wouldBlock => false
    | .error _ => true
    | .ok 0 => true
    | .ok (bytes + 1) => if bytes + 1 = n then true else drains answers (n - (bytes + 1))

/-! ## Connections between two activations -/

/-- A connection that waits for the right event, in each of the states between two activations. -/
inductive Watched (c : ServerConnection) : Prop
  /-- The last reply was sent. -/
  | idle (state : c.state = .idle) (unsent : c.reply.unsent = []) (f : c.reply.f = none)
  /-- A part of a request has arrived. -/
  | request (state : c.state = .request) (clear : ReplyClear c.reply) (epoll : c.epoll = .input)
  /-- A reply is on its way. -/
  | replying (state : c.state = .replySend ∨ c.state = .replyFileContinue)
      (epoll : c.epoll = .output)

variable {c : ServerConnection} {a : Activation}

theorem ReplyClear.unsent_eq_nil {r : Reply} (h : ReplyClear r) : r.unsent = [] := by
  rw [Reply.unsent, h.buf, List.drop_nil]

/-- A connection that is watched waits for the right event. -/
theorem Watched.rightEvent (h : Watched c) : RightEvent c := by
  cases h with
  | idle state unsent f =>
    refine ⟨?_, ?_⟩
    · rintro (hunsent | hf)
      · exact absurd unsent hunsent
      · exact absurd f hf
    · intro hrequest
      simp [hrequest] at state
  | request state clear epoll =>
    refine ⟨?_, fun _ => epoll⟩
    rintro (hunsent | hf)
    · exact absurd clear.unsent_eq_nil hunsent
    · exact absurd clear.f hf
  | replying state epoll =>
    refine ⟨fun _ => epoll, ?_⟩
    intro hrequest
    rcases state with hstate | hstate <;> simp [hrequest] at hstate

/-! ## Sending a reply -/

/-- A reply that starts with the socket watched for output. -/
theorem replyLoop_watched (hstate : a.conn.state = .replySend ∨ a.conn.state = .replyFileContinue)
    (hepoll : a.conn.epoll = .output) (answers : List Answer) :
    Watched (replyLoop a answers).act.conn := by
  induction answers generalizing a with
  | nil =>
    obtain ⟨hsame, hloaded⟩ := load_epoll a
    unfold replyLoop
    refine .replying ?_ (hsame.trans hepoll)
    rcases hloaded with hloaded | hloaded
    · rw [Activation.return, hloaded]
      exact hstate
    · exact .inl hloaded
  | cons answer answers ih =>
    obtain ⟨hsame, hloaded⟩ := load_epoll a
    have hwatches : a.load.conn.epoll = .output := hsame.trans hepoll
    have hsends : a.load.conn.state = .replySend ∨ a.load.conn.state = .replyFileContinue := by
      rcases hloaded with hloaded | hloaded
      · rw [hloaded]
        exact hstate
      · exact .inl hloaded
    unfold replyLoop
    cases answer.send a.load.conn.reply.unsent.length with
    | error errno => cases errno <;> exact .replying hsends hwatches
    | ok bytes =>
      cases bytes with
      | zero => exact .replying hsends hwatches
      | succ bytes =>
        dsimp only
        split_ifs with hdrained hf
        · exact .idle (by simp [Activation.return, Activation.replyDone])
            (by simp [Activation.return, Activation.replyDone, Activation.resetOffsets,
              Reply.unsent]) hf
        · exact ih hsends hwatches
        · exact ih hsends hwatches

/-- What is left of a reply after `send` has accepted some bytes. -/
theorem length_unsent_advance (a : Activation) (n : ℕ) :
    (a.advance n).conn.reply.unsent.length = a.conn.reply.unsent.length - n := by
  simp only [Activation.advance, Reply.unsent, List.length_drop]
  omega

/-- The last bytes of a reply: they go out or the connection ends, or some are left and the socket
is watched as before. -/
theorem replyLoop_last (hstate : a.conn.state = .replySend) (hf : a.conn.reply.f = none)
    (hunsent : a.conn.reply.unsent ≠ []) (answers : List Answer) :
    (drains answers a.conn.reply.unsent.length = true →
        (replyLoop a answers).closed = true ∨ Watched (replyLoop a answers).act.conn) ∧
      (drains answers a.conn.reply.unsent.length = false →
        (replyLoop a answers).closed = false ∧ (replyLoop a answers).act.conn.reply.unsent ≠ [] ∧
          (replyLoop a answers).act.conn.epoll = a.conn.epoll) := by
  induction answers generalizing a with
  | nil =>
    have hload : a.load = a := by simp [Activation.load, hstate]
    unfold replyLoop drains
    rw [hload]
    exact ⟨by simp, fun _ => ⟨rfl, hunsent, rfl⟩⟩
  | cons answer answers ih =>
    have hload : a.load = a := by simp [Activation.load, hstate]
    unfold replyLoop drains
    rw [hload]
    cases hsend : answer.send a.conn.reply.unsent.length with
    | error errno =>
      cases errno with
      | wouldBlock => exact ⟨by simp, fun _ => ⟨rfl, hunsent, rfl⟩⟩
      | notConn | already | other => exact ⟨fun _ => .inl rfl, by simp⟩
    | ok bytes =>
      cases bytes with
      | zero => exact ⟨fun _ => .inl rfl, by simp⟩
      | succ bytes =>
        have hle := Answer.le_of_send_eq_ok hsend
        have hlength : a.conn.reply.unsent.length =
            a.conn.reply.buf.length - a.conn.reply.bufReadOffset := by
          simp [Reply.unsent]
        dsimp only
        by_cases hall : bytes + 1 = a.conn.reply.unsent.length
        · have hdrained : (a.advance (bytes + 1)).conn.reply.bufReadOffset =
              (a.advance (bytes + 1)).conn.reply.buf.length := by
            simp only [Activation.advance]
            omega
          have hclosed : (a.advance (bytes + 1)).resetOffsets.conn.reply.f = none := hf
          rw [if_pos hdrained, if_pos hclosed, if_pos hall]
          refine ⟨fun _ => .inr (.idle ?_ ?_ hf), by simp⟩
          · simp [Activation.return, Activation.replyDone]
          · simp [Activation.return, Activation.replyDone, Activation.resetOffsets, Reply.unsent]
        · have hsome : ¬(a.advance (bytes + 1)).conn.reply.bufReadOffset =
              (a.advance (bytes + 1)).conn.reply.buf.length := by
            simp only [Activation.advance]
            omega
          rw [if_neg hsome, if_neg hall]
          have hleft := length_unsent_advance a (bytes + 1)
          rw [← hleft]
          refine ih hstate hf fun hnil => ?_
          rw [hnil] at hleft
          simp only [List.length_nil] at hleft
          omega

/-! ## One activation -/

section Activation

variable {files : Bytes → Option Bytes} {docroot : Bytes} {received : Except Errno Bytes}
  {answers : List Answer} {o : Outcome}

/-- The connection is closed or waits for the right event. -/
def EndsWatched (o : Outcome) : Prop := o.closed = true ∨ Watched o.act.conn

/-- A complete request is answered with the socket watched for output. -/
theorem endsWatched_startReply (files : Bytes → Option Bytes) (docroot : Bytes) (a : Activation)
    (answers : List Answer) : EndsWatched (startReply files docroot a answers) := by
  unfold startReply
  split
  · exact .inr
      (replyLoop_watched (.inl (by simp [reply404Start])) (by simp [reply404Start]) answers)
  · rename_i content hfile
    split
    · exact .inl (by simp [Activation.close])
    · refine .inr (replyLoop_watched ?_ (by simp [replyFileStart]) answers)
      dsimp only [replyFileStart]
      split
      · exact .inl (by simp)
      · exact .inr (by simp)

/-- A request that is not refused. -/
theorem endsWatched_requestStep (files : Bytes → Option Bytes) (docroot : Bytes)
    (answers : List Answer)
    (hstate : a.conn.state = .idle ∨ a.conn.state = .request) (hclear : ReplyClear a.conn.reply)
    (hinput : a.conn.epoll = .input) (haccepts : ¬Malformed a.conn.request.buf received) :
    EndsWatched (requestStep files docroot a received answers) := by
  unfold Malformed at haccepts
  unfold requestStep
  dsimp only at haccepts ⊢
  obtain ⟨hspace, haccepts⟩ := not_or.mp haccepts
  rw [if_neg hspace]
  cases received with
  | error errno =>
    cases errno with
    | wouldBlock =>
      rcases hstate with hidle | hrequest
      · exact .inr (.idle hidle hclear.unsent_eq_nil hclear.f)
      · exact .inr (.request hrequest hclear hinput)
    | notConn | already | other => exact .inl (by simp [Activation.close])
  | ok bytes =>
    cases bytes with
    | nil => exact .inl (by simp [Activation.close])
    | cons b bs =>
      dsimp only at haccepts ⊢
      split
      · exact .inr (.request (by simp [Activation.return, Activation.receive]) hclear hinput)
      · rename_i pos hfound
        cases hpath : requestPath (a.receive
            ((b :: bs).take (strSize - a.conn.request.buf.length - 1))).conn.request.buf with
        | none => exact absurd ⟨by simp, by rw [Activation.receive] at hfound; simp [hfound],
            hpath⟩ haccepts
        | some filepath => exact endsWatched_startReply files docroot _ answers

/-- A request that is refused: the 404 reply starts with the socket watched for input. -/
theorem requestStep_of_malformed (files : Bytes → Option Bytes) (docroot : Bytes)
    (answers : List Answer) (hclear : ReplyClear a.conn.reply) (hinput : a.conn.epoll = .input)
    (hrefuses : Malformed a.conn.request.buf received) :
    ∃ a', a'.conn.state = .replySend ∧ a'.conn.reply.f = none ∧ a'.conn.reply.unsent = http404 ∧
      a'.conn.epoll = .input ∧ requestStep files docroot a received answers =
        replyLoop a' answers := by
  have hstarts : ∀ a₁ : Activation, a₁.conn.reply = a.conn.reply →
      (reply404Start a₁.conn).reply.unsent = http404 := by
    intro a₁ hreply
    simp [reply404Start, Reply.unsent, hreply, hclear.bufReadOffset]
  unfold Malformed at hrefuses
  unfold requestStep
  dsimp only at hrefuses ⊢
  rcases hrefuses with hspace | hmalformed
  · rw [if_pos hspace]
    exact ⟨_, by simp [reply404Start], by simp [reply404Start], hstarts a rfl,
      by simp [reply404Start, hinput], rfl⟩
  · by_cases hspace : strSize - a.conn.request.buf.length - 1 = 0
    · rw [if_pos hspace]
      exact ⟨_, by simp [reply404Start], by simp [reply404Start], hstarts a rfl,
        by simp [reply404Start, hinput], rfl⟩
    · rw [if_neg hspace]
      cases received with
      | error errno => exact absurd hmalformed (by simp)
      | ok bytes =>
        obtain ⟨hbytes, hfound, hpath⟩ := hmalformed
        cases bytes with
        | nil => exact absurd rfl hbytes
        | cons b bs =>
          obtain ⟨pos, hpos⟩ := Option.ne_none_iff_exists'.mp hfound
          dsimp only [Activation.receive]
          simp only [hpos, hpath]
          exact ⟨_, by simp [reply404Start], by simp [reply404Start], hstarts _ (by rfl),
            by simp [reply404Start, hinput], rfl⟩

/-- A connection that refuses a request sends a 404 reply with the socket watched for input. -/
theorem Watched.refused (files : Bytes → Option Bytes) (docroot : Bytes) (answers : List Answer)
    (h : Watched c) (hrefuses : c.Refuses received) :
    ∃ a', a'.conn.state = .replySend ∧ a'.conn.reply.f = none ∧ a'.conn.reply.unsent = http404 ∧
      a'.conn.epoll = .input ∧
      activateConnection files docroot c received answers = replyLoop a' answers := by
  unfold ServerConnection.Refuses at hrefuses
  unfold activateConnection
  cases h with
  | idle state unsent f =>
    simp only [state] at hrefuses ⊢
    refine requestStep_of_malformed files docroot answers ?_ ?_ hrefuses
    · exact ⟨rfl, rfl, rfl, rfl⟩
    · simp [resetIdle]
  | request state clear epoll =>
    simp only [state] at hrefuses ⊢
    exact requestStep_of_malformed files docroot answers clear epoll hrefuses
  | replying state epoll =>
    rcases state with hstate | hstate <;> simp [hstate] at hrefuses

/-- A connection that is watched for the right event stays so, unless a refusal does not go out. -/
theorem Watched.activated (h : Watched c)
    (hleaves : c.Refuses received → drains answers http404.length = true) :
    EndsWatched (activateConnection files docroot c received answers) := by
  by_cases hrefuses : c.Refuses received
  · obtain ⟨a', hstate, hf, hunsent, -, hloop⟩ := h.refused files docroot answers hrefuses
    have hsome : a'.conn.reply.unsent ≠ [] := by
      rw [hunsent]
      decide
    rw [hloop]
    refine (replyLoop_last hstate hf hsome answers).1 ?_
    rw [hunsent]
    exact hleaves hrefuses
  · unfold ServerConnection.Refuses at hrefuses
    unfold activateConnection
    cases h with
    | idle state unsent f =>
      simp only [state] at hrefuses ⊢
      refine endsWatched_requestStep files docroot answers ?_ ?_ ?_ hrefuses
      · exact .inl state
      · exact ⟨rfl, rfl, rfl, rfl⟩
      · simp [resetIdle]
    | request state clear epoll =>
      simp only [state] at hrefuses ⊢
      exact endsWatched_requestStep files docroot answers (.inr state) clear epoll hrefuses
    | replying state epoll =>
      rcases state with hstate | hstate
      · simp only [hstate]
        exact .inr (replyLoop_watched (.inl hstate) epoll answers)
      · simp only [hstate]
        exact .inr (replyLoop_watched (.inr hstate) epoll answers)

/-- A refusal that does not go out leaves the connection waiting for input. -/
theorem Watched.not_rightEvent (files : Bytes → Option Bytes) (docroot : Bytes) (h : Watched c)
    (hrefuses : c.Refuses received) (hstays : drains answers http404.length = false) :
    (activateConnection files docroot c received answers).closed = false ∧
      ¬RightEvent (activateConnection files docroot c received answers).act.conn := by
  obtain ⟨a', hstate, hf, hunsent, hinput, hloop⟩ := h.refused files docroot answers hrefuses
  have hsome : a'.conn.reply.unsent ≠ [] := by
    rw [hunsent]
    decide
  rw [hloop]
  obtain ⟨hopen, hleft, hepoll⟩ :=
    (replyLoop_last hstate hf hsome answers).2 (by rw [hunsent]; exact hstays)
  refine ⟨hopen, fun hright => ?_⟩
  have houtput := hright.output (.inl hleft)
  rw [hepoll, hinput] at houtput
  cases houtput

end Activation

/-! ## Runs -/

namespace FileServer

variable {fs fs' t : FileServer} {i : Input}

/-- A refusal goes out, or the connection ends, before a `send` of the same activation would
block. -/
def RefusalLeaves (fs : FileServer) (i : Input) : Prop :=
  ∀ c, fs.target i = some c → c.Refuses i.received → drains i.answers http404.length = true

/-- A run of the server does not fail. -/
theorem exists_runSteps (fs : FileServer) (is : List Input) : ∃ t, runSteps step fs is = .ok t := by
  induction is generalizing fs with
  | nil => exact ⟨fs, runSteps_nil⟩
  | cons i is ih =>
    have hstep : step fs i = .ok (fs.activate i).1 := by simp [step]
    obtain ⟨t, ht⟩ := ih (fs.activate i).1
    exact ⟨t, by rw [runSteps_cons_of_ok hstep, ht]⟩

/-- The connection that is activated is in the table. -/
theorem connections_of_target (h : fs.target i = some c) : fs.connections i.sockd = some c := by
  unfold target at h
  split_ifs at h
  exact h

/-- A step in which refusals leave keeps the connections watched. -/
theorem watched_of_step (h : EachConnection Watched fs) (hleaves : fs.RefusalLeaves i)
    (hstep : step fs i = .ok fs') : EachConnection Watched fs' := by
  obtain rfl : (fs.activate i).1 = fs' := by simpa [step] using hstep
  refine h.activate_of_open ?_ fun c hc htarget hopen => ?_
  · exact .idle (by simp [ServerConnection.new]) (by simp [ServerConnection.new, Reply.unsent])
      (by simp [ServerConnection.new])
  · exact (hc.activated (hleaves c htarget)).resolve_left fun hclosed => by
      rw [outcome, hclosed] at hopen
      cases hopen

/-- A step in which a refusal stays leaves a wrong event. -/
theorem not_rightEvent_of_step (h : EachConnection Watched fs) (hleaves : ¬fs.RefusalLeaves i)
    (hstep : step fs i = .ok fs') : ¬EachConnection RightEvent fs' := by
  obtain rfl : (fs.activate i).1 = fs' := by simpa [step] using hstep
  unfold RefusalLeaves at hleaves
  push Not at hleaves
  obtain ⟨c, htarget, hrefuses, hstays⟩ := hleaves
  obtain ⟨hopen, hwrong⟩ :=
    (h _ c (connections_of_target htarget)).not_rightEvent i.files fs.docroot
    hrefuses (Bool.eq_false_of_not_eq_true hstays)
  intro hright
  refine hwrong (hright i.sockd _ ?_)
  rw [activate_of_target htarget]
  simp [finish, outcome, hopen]

/-- In every state of a run each open connection waits for the right event, if and only if every
refusal of a malformed request goes out in the activation that refuses it. -/
theorem rightEvent_iff_refusalsLeave (listenSockd : Int) (docroot : Bytes) (is : List Input) :
    (∀ u, Visits step (start listenSockd docroot) is u → EachConnection RightEvent u) ↔
      StepsMeet step RefusalLeaves (start listenSockd docroot) is := by
  obtain ⟨t, hrun⟩ := exists_runSteps (start listenSockd docroot) is
  refine forall_visits_iff_stepsMeet_of_inv (EachConnection Watched)
    (EachConnection RightEvent) ?_ ?_ ?_
    ?_ hrun
  · exact fun fs h sockd c hc => (h sockd c hc).rightEvent
  · exact fun fs i fs' h hleaves hstep => watched_of_step h hleaves hstep
  · exact fun fs i fs' h hleaves hstep => not_rightEvent_of_step h hleaves hstep
  · intro sockd c hc
    simp [start] at hc

/-- A request without a method; the reply to it would block. -/
def malformedRequest : Input where
  sockd := 4
  accepts := []
  files _ := none
  received := .ok (ascii "x\r\n\r\n")
  answers := []

/-- After a malformed request the server waits for input with the whole reply unsent. -/
theorem not_rightEvent_malformedRequest :
    ∃ u, Visits step (start 3 []) [acceptFour, malformedRequest] u ∧
    ¬EachConnection RightEvent u := by
  refine ⟨(withNewConnection.activate malformedRequest).1, ⟨_, List.prefix_rfl, rfl⟩, ?_⟩
  intro hright
  have houtput := (hright 4 _ rfl).output (by decide)
  exact absurd houtput (by decide)

end FileServer

end ShadowExtras.FileTransfer
