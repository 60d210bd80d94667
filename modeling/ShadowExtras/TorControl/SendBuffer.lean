import ShadowExtras.TorControl.Connection

/-!
# What reaches the control port

A session of commands on one control connection: calls of `torControl_sendCommand` and activations
with `EPOLLOUT`, in any order, each with any outcome of its `send`. `wire` are the bytes that `send`
accepted and `issued` the commands, each followed by CR LF, in call order.

A sender that keeps exactly the bytes not yet accepted is a `Pipe` with `wire` delivered and
`sendBuf` pending. `torControl_sendCommand` is one as long as every `send` takes the whole buffer or
nothing (`WholeOrNothing`): after a partial `send` the buffer keeps the accepted bytes as well, and
they go out a second time.
-/

namespace ShadowExtras.TorControl

open Foundation

/-- The sending side of a connection with the history of its socket. -/
structure SendSession where
  conn : Connection
  /-- The bytes accepted by `send`. -/
  wire : Bytes
  /-- The commands handed to `torControl_sendCommand`, each followed by CR LF. -/
  issued : Bytes

/-- A connection before its first command. -/
def SendSession.new : SendSession := { conn := Connection.new, wire := [], issued := [] }

/-- What happens on the sending side. -/
inductive SendEvent
  /-- `torControl_sendCommand(sockd, text)`. -/
  | command (text : Bytes) (answer : Answer)
  /-- `torControl_activate` with `EPOLLOUT`. -/
  | writable (answer : Answer)

/-- The bytes that an event issues. -/
def SendEvent.issues : SendEvent → Bytes
  | .command text _ => text ++ crlf
  | .writable _ => []

/-- The outcome of the event's `send`. -/
def SendEvent.answer : SendEvent → Answer
  | .command _ answer => answer
  | .writable answer => answer

/-- One event of a session. -/
def sendStep (s : SendSession) (e : SendEvent) : Except Fault SendSession :=
  let sent := match e with
    | .command text answer => sendCommand s.conn text answer
    | .writable answer => activateOutput s.conn answer
  .ok { conn := sent.conn, wire := s.wire ++ sent.accepted, issued := s.issued ++ e.issues }

/-- Every command reaches the control port once: the accepted bytes are the beginning of the issued
ones, and all of them when the send buffer is empty. -/
def CommandsOnce (s : SendSession) : Prop :=
  s.wire <+: s.issued ∧ (s.conn.sendBuf = [] → s.wire = s.issued)

/-- The `send` of the event, if it accepts anything, accepts the whole send buffer. -/
def WholeOrNothing (s : SendSession) (e : SendEvent) : Prop :=
  ∀ n, e.answer.send (s.conn.sendBuf ++ e.issues).length = .ok n →
    n = 0 ∨ n = (s.conn.sendBuf ++ e.issues).length

/-! ## One step -/

/-- The three outcomes of a `send`: nothing was accepted, the whole buffer was accepted and
dropped, or a proper part was accepted and the buffer stays as it is. -/
theorem flush_cases (c : Connection) (answer : Answer) :
    ((flush c answer).accepted = [] ∧ (flush c answer).conn.sendBuf = c.sendBuf ∧
        ∀ n, answer.send c.sendBuf.length = .ok n → n = 0) ∨
      ((flush c answer).accepted = c.sendBuf ∧ (flush c answer).conn.sendBuf = [] ∧
        answer.send c.sendBuf.length = .ok c.sendBuf.length) ∨
      ∃ n, 0 < n ∧ n < c.sendBuf.length ∧ answer.send c.sendBuf.length = .ok n ∧
        (flush c answer).accepted = c.sendBuf.take n ∧
        (flush c answer).conn.sendBuf = c.sendBuf := by
  cases hsend : answer.send c.sendBuf.length with
  | error errno => exact .inl ⟨by simp [flush, hsend, assertIO], by simp [flush, hsend, assertIO],
      by simp⟩
  | ok n =>
    have hle : n ≤ c.sendBuf.length := Answer.le_of_send_eq_ok hsend
    rcases n with - | n
    · exact .inl ⟨by simp [flush, hsend, assertIO], by simp [flush, hsend, assertIO], by simp⟩
    · by_cases hfull : n + 1 = c.sendBuf.length
      · refine .inr (.inl ⟨?_, ?_, by rw [hfull]⟩)
        · simp only [flush, hsend, assertIO]
          exact List.take_of_length_le (by omega)
        · simp only [flush, hsend, assertIO, if_pos (show n + 1 ≥ c.sendBuf.length by omega)]
      · have hlt : ¬n + 1 ≥ c.sendBuf.length := by omega
        refine .inr (.inr ⟨n + 1, by omega, by omega, rfl, ?_, ?_⟩)
        · simp [flush, hsend, assertIO]
        · simp only [flush, hsend, assertIO, if_neg hlt]

/-- The view of a session as an output stream. -/
def SendSession.pipe (s : SendSession) : Pipe Byte :=
  { delivered := s.wire, pending := s.conn.sendBuf }

/-- An event issues its bytes and then delivers a front part of the buffer; the whole part leaves
the buffer, a proper part stays in it. -/
theorem sendStep_cases {s s' : SendSession} {e : SendEvent} (h : sendStep s e = .ok s') :
    s'.issued = s.issued ++ e.issues ∧
      ((WholeOrNothing s e ∧ ∃ n, s'.pipe = (s.pipe.issue e.issues).deliver n) ∨
        ∃ n, 0 < n ∧ n < (s.conn.sendBuf ++ e.issues).length ∧
          e.answer.send (s.conn.sendBuf ++ e.issues).length = .ok n ∧
          s'.wire = s.wire ++ (s.conn.sendBuf ++ e.issues).take n ∧
          s'.conn.sendBuf = s.conn.sendBuf ++ e.issues) := by
  -- both kinds of event flush a connection whose buffer is the old one and the issued bytes
  have hflush : ∃ c : Connection, c.sendBuf = s.conn.sendBuf ++ e.issues ∧
      s'.issued = s.issued ++ e.issues ∧ s'.wire = s.wire ++ (flush c e.answer).accepted ∧
      s'.conn.sendBuf = (flush c e.answer).conn.sendBuf := by
    obtain rfl := Except.ok.inj h
    cases e with
    | command text answer => exact ⟨_, rfl, rfl, rfl, rfl⟩
    | writable answer =>
      refine ⟨s.conn, by simp [SendEvent.issues], rfl, ?_⟩
      by_cases hempty : s.conn.sendBuf.length > 0
      · simp [activateOutput, hempty, SendEvent.answer]
      · have hnil : s.conn.sendBuf = [] := by simpa using hempty
        rcases flush_cases s.conn answer with ⟨hacc, hbuf, -⟩ | ⟨hacc, hbuf, -⟩ | ⟨n, hpos, hlt, -⟩
        · simp [activateOutput, hnil, SendEvent.answer, hacc, hbuf]
        · simp [activateOutput, hnil, SendEvent.answer, hacc, hbuf]
        · simp [hnil] at hlt
  obtain ⟨c, hc, hissued, hwire, hbuf⟩ := hflush
  refine ⟨hissued, ?_⟩
  rcases flush_cases c e.answer with ⟨hacc, hkeep, hzero⟩ | ⟨hacc, hkeep, hall⟩ |
    ⟨n, hpos, hlt, hn, hacc, hkeep⟩
  · refine .inl ⟨fun n hn => .inl (hzero n (by rw [hc]; exact hn)), 0, ?_⟩
    simp [SendSession.pipe, Pipe.issue, hwire, hbuf, hacc, hkeep, hc]
  · refine .inl ⟨fun n hn => .inr ?_, c.sendBuf.length, ?_⟩
    · rw [hc] at hall
      rw [hall] at hn
      exact (Except.ok.inj hn).symm
    · simp [SendSession.pipe, Pipe.issue, Pipe.deliver, hwire, hbuf, hacc, hkeep, hc]
  · exact .inr ⟨n, hpos, hc ▸ hlt, hc ▸ hn, by rw [hwire, hacc, hc], by rw [hbuf, hkeep, hc]⟩

/-- A `send` of the whole buffer or nothing is a step of the output stream. -/
theorem pipe_of_wholeOrNothing {s s' : SendSession} {e : SendEvent} (h : sendStep s e = .ok s')
    (he : WholeOrNothing s e) : ∃ n, s'.pipe = (s.pipe.issue e.issues).deliver n := by
  rcases (sendStep_cases h).2 with ⟨-, hpipe⟩ | ⟨n, hpos, hlt, hn, -⟩
  · exact hpipe
  · rcases he n hn with rfl | rfl
    · exact absurd hpos (lt_irrefl 0)
    · exact absurd hlt (lt_irrefl _)

/-! ## Runs -/

/-- Along a run whose `send`s take the whole buffer or nothing, the accepted bytes and the buffer
are together what was issued. -/
theorem issued_eq_of_stepsMeet {s : SendSession} {es : List SendEvent}
    (hP : StepsMeet sendStep WholeOrNothing SendSession.new es)
    (hrun : runSteps sendStep SendSession.new es = .ok s) : s.issued = s.pipe.issued := by
  refine invariant_of_stepsMeet (fun s => s.issued = s.pipe.issued) ?_ rfl hP hrun
  intro s e s' hs he hstep
  obtain ⟨n, hpipe⟩ := pipe_of_wholeOrNothing hstep he
  rw [(sendStep_cases hstep).1, hpipe, Pipe.issued_deliver, Pipe.issued_issue, hs]

/-- No byte is ever dropped, and every partial `send` duplicates at least one: the accepted bytes
and the buffer are together at least as long as what was issued, and longer after a partial
`send`. -/
theorem length_issued_le_of_run {s₀ s : SendSession} {es : List SendEvent}
    (hs₀ : s₀.issued.length ≤ s₀.pipe.issued.length)
    (hrun : runSteps sendStep s₀ es = .ok s) :
    s.issued.length ≤ s.pipe.issued.length ∧
      (s.issued.length = s.pipe.issued.length →
        s₀.issued.length = s₀.pipe.issued.length ∧ StepsMeet sendStep WholeOrNothing s₀ es) := by
  induction es generalizing s₀ with
  | nil =>
    obtain rfl : s₀ = s := by simpa using hrun
    exact ⟨hs₀, fun h => ⟨h, trivial⟩⟩
  | cons e es ih =>
    obtain ⟨s₁, hstep, hrest⟩ := runSteps_cons_eq_ok.mp hrun
    have hissued : s₁.issued.length = s₀.issued.length + e.issues.length := by
      rw [(sendStep_cases hstep).1, List.length_append]
    rcases (sendStep_cases hstep).2 with ⟨he, n, hpipe⟩ | ⟨n, hpos, hlt, -, hwire, hbuf⟩
    · have hlen : s₁.pipe.issued.length = s₀.pipe.issued.length + e.issues.length := by
        rw [hpipe, Pipe.issued_deliver, Pipe.issued_issue, List.length_append]
      obtain ⟨hle, heq⟩ := ih (by omega) hrest
      refine ⟨hle, fun h => ?_⟩
      obtain ⟨heq₁, hmeet⟩ := heq h
      refine ⟨by omega, he, fun s₁' hs₁' => ?_⟩
      obtain rfl : s₁ = s₁' := Except.ok.inj (hstep.symm.trans hs₁')
      exact hmeet
    · have hlen : s₁.pipe.issued.length = s₀.pipe.issued.length + e.issues.length + n := by
        simp only [Pipe.issued, SendSession.pipe, hwire, hbuf, List.length_append,
          List.length_take] at hlt ⊢
        omega
      obtain ⟨hle, heq⟩ := ih (by omega) hrest
      refine ⟨hle, fun h => ?_⟩
      have := (heq h).1
      omega

/-- Commands reach the control port exactly once along every run whose `send`s take the whole
buffer or nothing; and a run that ends with an empty buffer has put exactly the issued commands on
the wire only if it is such a run. -/
theorem commandsOnce_iff_wholeOrNothing (es : List SendEvent) (s : SendSession)
    (hrun : runSteps sendStep SendSession.new es = .ok s) :
    (StepsMeet sendStep WholeOrNothing SendSession.new es → CommandsOnce s) ∧
      (s.conn.sendBuf = [] →
        (CommandsOnce s ↔ StepsMeet sendStep WholeOrNothing SendSession.new es)) := by
  have honce : StepsMeet sendStep WholeOrNothing SendSession.new es → CommandsOnce s := by
    intro hP
    have hissued := issued_eq_of_stepsMeet hP hrun
    refine ⟨?_, fun hempty => ?_⟩
    · rw [hissued]
      exact s.pipe.delivered_prefix_issued
    · rw [hissued]
      exact s.pipe.delivered_eq_issued_of_pending_eq_nil hempty
  refine ⟨honce, fun hempty => ⟨fun h => ?_, honce⟩⟩
  have hwire : s.wire = s.issued := h.2 hempty
  refine ((length_issued_le_of_run le_rfl hrun).2 ?_).2
  simp [Pipe.issued, SendSession.pipe, hempty, hwire]

/-- For the first of two commands `send` would block, and it takes both with the second one. -/
theorem commandsOnce_iff_wholeOrNothing_quit :
    CommandsOnce { conn := { Connection.new with epoll := .input }
                   wire := ascii "PROTOCOLINFO\r\nQUIT\r\n"
                   issued := ascii "PROTOCOLINFO\r\nQUIT\r\n" } := by
  refine ((commandsOnce_iff_wholeOrNothing
    [.command (ascii "PROTOCOLINFO") (.failed .wouldBlock), .command (ascii "QUIT") (.ready 20)] _
    rfl).2 rfl).2 ⟨?_, ?_⟩
  · intro n hn
    cases hn
  · intro s hs
    obtain rfl := Except.ok.inj hs
    exact ⟨fun _ hn => .inr (Except.ok.inj hn).symm, fun _ _ => trivial⟩

/-- A `send` that takes the first two bytes of `QUIT` leaves all six in the buffer: the control port
receives `QUQUIT`. -/
theorem not_commandsOnce_partial_send :
    ∃ s, runSteps sendStep SendSession.new
        [.command (ascii "QUIT") (.ready 1), .writable (.ready 9)] = .ok s ∧
      s.wire = ascii "QUQUIT\r\n" ∧ ¬CommandsOnce s := by
  refine ⟨{ conn := { Connection.new with epoll := .input }
            wire := ascii "QUQUIT\r\n", issued := ascii "QUIT\r\n" }, rfl, rfl, ?_⟩
  intro h
  exact absurd (h.2 rfl) (by decide)

end ShadowExtras.TorControl
