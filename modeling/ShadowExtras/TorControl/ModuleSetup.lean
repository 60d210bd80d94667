import ShadowExtras.TorControl.SendBuffer

/-!
# The setup of a module

Each module of the plugin starts with a fixed list of commands and goes on to the next one when the
controller has answered. A `SetupModule` is such a module: its commands, the function that is called
on every activation until it says that it is done, and the one that is called for every line of a
reply. A session runs one on a connection: the bytes that `send` accepts are the `wire`, and the
controller answers the lines on the wire one after the other.

A command whose `send` would block stays in the send buffer, but the module does not know it and
sends it again on the next activation; a partial `send` repeats the bytes it has taken. As long as
neither happens during the setup, and no reply has a line too many (`Clean`), the wire holds the
first commands of the module, once each, and the module is at the step of the command that is
answered next (`Aligned`). This is proved for any module whose steps follow its commands
(`Stepwise`).
-/

namespace ShadowExtras.TorControl

open Foundation

/-! ## Modules -/

/-- The setup of a module with states `σ`, whose reply handler may fail with `φ`. The flags tell
whether `send` returned a positive value. -/
structure SetupModule (σ φ : Type) where
  /-- The setup commands, in the module's order. -/
  commands : List Bytes
  start : σ
  /-- The step of the setup that a state is at: the number of setup commands that are done. -/
  position : σ → Nat
  /-- `initialize`, with its return value. -/
  onInitialize : σ → Bool → (σ × List Bytes) × Bool
  /-- What a line of a reply with the given first line leads to. -/
  responseLine : σ → ReplyLine → ReplyLine → Bool → Except φ (σ × List Bytes)
  /-- What is sent does not depend on the outcome of sending it. -/
  onInitialize_sends : ∀ s, (onInitialize s true).1.2 = (onInitialize s false).1.2
  responseLine_sends : ∀ s first line,
    (responseLine s first line true).map Prod.snd = (responseLine s first line false).map Prod.snd

/-! ## Sessions -/

/-- Is the value that `torControl_sendCommand` returns positive? A failure for good is, since
`TORCTL_ERR_FATAL` is a positive constant. -/
def returnsPositive : Except TorctlReturn Nat → Bool
  | .ok bytes => decide (0 < bytes)
  | .error .again => false
  | .error .errFatal => true

/-- The commands of a handler are sent, and the flag is that of the last one. -/
def sendAll (port : SendSession) (answer : Answer) : List Bytes → SendSession × Bool
  | [] => (port, false)
  | command :: commands =>
    let sent := sendCommand port.conn command answer
    let port' : SendSession :=
      { conn := sent.conn
        wire := port.wire ++ sent.accepted
        issued := port.issued ++ (command ++ crlf) }
    match commands with
    | [] => (port', returnsPositive sent.bytes)
    | _ => sendAll port' answer commands

/-- A module on its connection. -/
structure SetupSession (σ : Type) where
  state : σ
  /-- `connection->initialized`. -/
  initialized : Bool
  port : SendSession
  /-- The commands sent so far. -/
  commands : List Bytes
  /-- The number of commands that the controller has answered. -/
  answered : Nat

/-- What happens in a session. An activation of the connection is an `activation`, a `writable` if
the socket is watched for it and ready, and the replies that it finds. -/
inductive SetupEvent
  /-- The start of an activation. -/
  | activation (answer : Answer)
  /-- The part of an activation for `EPOLLOUT`. -/
  | writable (answer : Answer)
  /-- The next line on the wire is answered; a line of the reply comes with the outcome of the
  `send` that it leads to. -/
  | reply (lines : List (ReplyLine × Answer))

namespace SetupModule

variable {σ φ : Type} (m : SetupModule σ φ)

/-- A session that is about to start. -/
def newSession : SetupSession σ where
  state := m.start
  initialized := false
  port := SendSession.new
  commands := []
  answered := 0

/-- A line of a reply with the given first line. Its commands are known before the outcome of
sending them. -/
def replyLine (first : ReplyLine) (s : SetupSession σ) (line : ReplyLine × Answer) :
    Except φ (SetupSession σ) :=
  match m.responseLine s.state first line.1 false with
  | .error fault => .error fault
  | .ok r =>
    let sent := sendAll s.port line.2 r.2
    match m.responseLine s.state first line.1 sent.2 with
    | .error fault => .error fault
    | .ok r' => .ok { s with state := r'.1, port := sent.1, commands := s.commands ++ r.2 }

/-- One event of a session. -/
def step (s : SetupSession σ) : SetupEvent → Except φ (SetupSession σ)
  | .activation answer =>
    if s.initialized then .ok s
    else
      let commands := (m.onInitialize s.state false).1.2
      let sent := sendAll s.port answer commands
      let r := m.onInitialize s.state sent.2
      .ok { s with
        state := r.1.1, initialized := r.2, port := sent.1, commands := s.commands ++ commands }
  | .writable answer =>
    let sent := activateOutput s.port.conn answer
    .ok { s with port := { s.port with conn := sent.conn, wire := s.port.wire ++ sent.accepted } }
  | .reply lines =>
    match lines with
    | [] => .ok { s with answered := s.answered + 1 }
    | first :: _ =>
      if Int.tdiv first.1.code 100 ∈ [2, 4, 5] then
        (runSteps (m.replyLine first.1) s lines).map fun t => { t with answered := s.answered + 1 }
      else .ok { s with answered := s.answered + 1 }

end SetupModule

/-! ## The property and the condition -/

/-- The `send` takes the whole buffer, or it fails for good. -/
def TakesWhole (answer : Answer) (len : Nat) : Prop :=
  match answer.send len with
  | .ok n => n = 0 ∨ n = len
  | .error errno => sendAllowed errno = false

instance (answer : Answer) (len : Nat) : Decidable (TakesWhole answer len) := by
  unfold TakesWhole
  split <;> infer_instance

/-- The `send` takes the whole buffer or nothing. -/
def AllOrNothing (answer : Answer) (len : Nat) : Prop :=
  match answer.send len with
  | .ok n => n = 0 ∨ n = len
  | .error _ => True

instance (answer : Answer) (len : Nat) : Decidable (AllOrNothing answer len) := by
  unfold AllOrNothing
  split <;> infer_instance

namespace SetupModule

variable {σ φ : Type} (m : SetupModule σ φ)

/-- The controller answers the next line on the wire with a success reply, of any number of
lines. -/
def Admissible (s : SetupSession σ) : SetupEvent → Prop
  | .reply lines => s.answered < (splitLines s.port.wire).1.length ∧ lines ≠ [] ∧
      ∀ first ∈ lines.head?, Int.tdiv first.1.code 100 = 2
  | _ => True

instance (s : SetupSession σ) (e : SetupEvent) : Decidable (Admissible s e) := by
  cases e <;> unfold Admissible <;> infer_instance

/-- During the setup, no `send` of a setup command would block or takes only a part of the buffer,
no `send` on an activation takes only a part of it, and a reply has one line as long as another
setup command follows: every line of a reply is taken for an answer. -/
def Clean (s : SetupSession σ) : SetupEvent → Prop
  | .activation answer => s.answered < m.commands.length → s.initialized = false →
      ∀ command ∈ (m.onInitialize s.state false).1.2,
        TakesWhole answer (s.port.conn.sendBuf ++ (command ++ crlf)).length
  | .writable answer => s.answered < m.commands.length →
      AllOrNothing answer s.port.conn.sendBuf.length
  | .reply lines => (s.answered + 1 < m.commands.length → lines.length = 1) ∧
      ∀ command ∈ m.commands[s.answered + 1]?, ∀ line ∈ lines,
        TakesWhole line.2 (s.port.conn.sendBuf ++ (command ++ crlf)).length

instance (s : SetupSession σ) (e : SetupEvent) : Decidable (m.Clean s e) := by
  cases e <;> unfold Clean <;> infer_instance

/-- The setup commands go out once and in order, and the module is at the step whose command is
answered next. -/
structure Aligned (s : SetupSession σ) : Prop where
  /-- The first setup commands were sent, or all of them and then others. -/
  order : s.commands <+: m.commands ∨
    ∃ later, s.commands = m.commands ++ later ∧ ∀ command ∈ later, command ∉ m.commands
  /-- During the setup, the wire holds the commands that were answered and at most the next one. -/
  wire : s.answered < m.commands.length → ∃ k, s.answered ≤ k ∧ k ≤ s.answered + 1 ∧
    s.port.wire = joinLines (m.commands.take k)
  /-- After the setup, the wire begins with the setup commands. -/
  done : m.commands.length ≤ s.answered → joinLines m.commands <+: s.port.wire
  /-- During the setup, the module has passed the steps whose commands were answered. -/
  passed : s.answered < m.commands.length → m.position s.state = s.answered
  /-- The module never passes a step without an answer. -/
  passed_le : m.position s.state ≤ s.answered

/-- The steps of a module follow its commands: it waits for the answer to one after the other, and
is late when it waits for the last answer or is done. -/
structure Stepwise where
  waiting : σ → Nat → Prop
  late : σ → Prop
  isLine : ∀ command ∈ m.commands, IsLine command
  nonempty : m.commands ≠ []
  start_sends : ∀ sent, (m.onInitialize m.start sent).1.2 = m.commands.take 1
  start_waits : waiting (m.onInitialize m.start true).1.1 0
  waiting_sends : ∀ {s i}, waiting s i → ∀ sent, (m.onInitialize s sent).1 = (s, [])
  late_sends : ∀ {s}, late s → ∀ sent, (m.onInitialize s sent).1 = (s, [])
  late_of_waiting : ∀ {s i}, waiting s i → i + 1 = m.commands.length → late s
  waiting_reply : ∀ {s i first line sent r command}, waiting s i → Int.tdiv first.code 100 = 2 →
    m.commands[i + 1]? = some command → m.responseLine s first line sent = .ok r →
      r.2 = [command] ∧ (sent = true → waiting r.1 (i + 1))
  late_reply : ∀ {s first line sent r}, late s → m.responseLine s first line sent = .ok r →
    late r.1 ∧ ∀ command ∈ r.2, command ∉ m.commands
  start_position : m.position m.start = 0
  waiting_position : ∀ {s i}, waiting s i → m.position s = i
  late_position : ∀ {s}, late s → m.position s ≤ m.commands.length

end SetupModule

/-! ## The buffer during the setup -/

/-- The commands sent so far are on the wire up to the `k`th, and the others are in the send
buffer. -/
structure Buffered (port : SendSession) (commands : List Bytes) (k : Nat) : Prop where
  le : k ≤ commands.length
  wire : port.wire = joinLines (commands.take k)
  sendBuf : port.conn.sendBuf = joinLines (commands.drop k)

theorem TakesWhole.allOrNothing {answer : Answer} {len : Nat} (h : TakesWhole answer len) :
    AllOrNothing answer len := by
  unfold TakesWhole at h
  unfold AllOrNothing
  split at h
  · next hsend => simpa [hsend] using h
  · simp

/-- Nothing was accepted. -/
theorem Buffered.kept {port port' : SendSession} {commands more : List Bytes} {k : Nat}
    (h : Buffered port commands k) (hwire : port'.wire = port.wire)
    (hbuf : port'.conn.sendBuf = port.conn.sendBuf ++ joinLines more) :
    Buffered port' (commands ++ more) k where
  le := by rw [List.length_append]; exact h.le.trans (Nat.le_add_right _ _)
  wire := by rw [hwire, h.wire, List.take_append_of_le_length h.le]
  sendBuf := by rw [hbuf, h.sendBuf, List.drop_append_of_le_length h.le, joinLines_append]

/-- Everything was accepted. -/
theorem Buffered.emptied {port port' : SendSession} {commands : List Bytes} (more : List Bytes)
    {k : Nat} (h : Buffered port commands k)
    (hwire : port'.wire = port.wire ++ (port.conn.sendBuf ++ joinLines more))
    (hbuf : port'.conn.sendBuf = []) :
    Buffered port' (commands ++ more) (commands ++ more).length where
  le := le_rfl
  wire := by
    rw [hwire, h.wire, h.sendBuf, ← List.append_assoc, ← joinLines_append, List.take_append_drop,
      ← joinLines_append, List.take_length]
  sendBuf := by rw [hbuf, List.drop_length, joinLines_nil]

/-- A `send` that takes the whole buffer or nothing. -/
theorem flush_of_allOrNothing {c : Connection} {answer : Answer}
    (hall : AllOrNothing answer c.sendBuf.length) :
    ((flush c answer).accepted = [] ∧ (flush c answer).conn.sendBuf = c.sendBuf) ∨
      ((flush c answer).accepted = c.sendBuf ∧ (flush c answer).conn.sendBuf = []) := by
  rcases flush_cases c answer with ⟨hacc, hbuf, -⟩ | ⟨hacc, hbuf, -⟩ | ⟨n, hpos, hlt, hn, -⟩
  · exact .inl ⟨hacc, hbuf⟩
  · exact .inr ⟨hacc, hbuf⟩
  · rw [AllOrNothing, hn] at hall
    rcases hall with rfl | rfl
    · exact absurd hpos (lt_irrefl 0)
    · exact absurd hlt (lt_irrefl _)

/-- A `send` that takes the whole buffer or fails for good returns a positive value. -/
theorem returnsPositive_of_takesWhole {c : Connection} {answer : Answer}
    (hwhole : TakesWhole answer c.sendBuf.length) :
    returnsPositive (flush c answer).bytes = true := by
  unfold TakesWhole at hwhole
  unfold flush
  cases hsend : answer.send c.sendBuf.length with
  | error errno =>
    rw [hsend] at hwhole
    simp only at hwhole
    simp [hwhole, assertIO, returnsPositive]
  | ok n =>
    cases n with
    | zero => simp [returnsPositive, assertIO]
    | succ n => simp [returnsPositive, assertIO]

/-- A command whose `send` takes the whole buffer is on the wire, and one whose `send` fails for
good is in the buffer; the module takes both for sent. -/
theorem Buffered.sendAll {port : SendSession} {commands : List Bytes} {k : Nat} {answer : Answer}
    {command : Bytes} (h : Buffered port commands k)
    (hwhole : TakesWhole answer (port.conn.sendBuf ++ (command ++ crlf)).length) :
    (TorControl.sendAll port answer [command]).2 = true ∧ ∃ k', k ≤ k' ∧
      Buffered (TorControl.sendAll port answer [command]).1 (commands ++ [command]) k' := by
  let c : Connection :=
    { port.conn with sendBuf := port.conn.sendBuf ++ (command ++ crlf), epoll := .output }
  have hline : command ++ crlf = joinLines [command] := by simp
  have hall : AllOrNothing answer c.sendBuf.length := hwhole.allOrNothing
  refine ⟨returnsPositive_of_takesWhole (c := c) hwhole, ?_⟩
  rcases flush_of_allOrNothing hall with ⟨hacc, hbuf⟩ | ⟨hacc, hbuf⟩
  · refine ⟨k, le_rfl, h.kept ?_ ?_⟩
    · change port.wire ++ (flush c answer).accepted = port.wire
      rw [hacc, List.append_nil]
    · change (flush c answer).conn.sendBuf = _
      rw [hbuf, ← hline]
  · refine ⟨_, ?_, h.emptied [command] ?_ hbuf⟩
    · rw [List.length_append]
      exact h.le.trans (Nat.le_add_right _ _)
    · change port.wire ++ (flush c answer).accepted = _
      rw [hacc, ← hline]

/-- A `send` on an activation empties the buffer or leaves it. -/
theorem Buffered.writable {port : SendSession} {commands : List Bytes} {k : Nat} {answer : Answer}
    (h : Buffered port commands k) (hall : AllOrNothing answer port.conn.sendBuf.length) :
    ∃ k', k ≤ k' ∧ Buffered
      { port with
        conn := (activateOutput port.conn answer).conn
        wire := port.wire ++ (activateOutput port.conn answer).accepted } commands k' := by
  rw [← List.append_nil commands]
  unfold activateOutput
  split_ifs
  · rcases flush_of_allOrNothing hall with ⟨hacc, hbuf⟩ | ⟨hacc, hbuf⟩
    · exact ⟨k, le_rfl, h.kept (by simp [hacc]) (by simp [hbuf])⟩
    · refine ⟨_, ?_, h.emptied [] (by simp [hacc]) hbuf⟩
      rw [List.append_nil]
      exact h.le
  · exact ⟨k, le_rfl, h.kept (by simp) (by simp)⟩

/-- What is on the wire stays there. -/
theorem wire_prefix_sendAll (port : SendSession) (answer : Answer) (commands : List Bytes) :
    port.wire <+: (TorControl.sendAll port answer commands).1.wire := by
  induction commands generalizing port with
  | nil => exact List.prefix_rfl
  | cons command commands ih =>
    cases commands with
    | nil => exact List.prefix_append _ _
    | cons next rest =>
      let port' : SendSession :=
        { conn := (sendCommand port.conn command answer).conn
          wire := port.wire ++ (sendCommand port.conn command answer).accepted
          issued := port.issued ++ (command ++ crlf) }
      exact (List.prefix_append _ _).trans (ih port')

/-! ## The invariant -/

namespace SetupModule

variable {σ φ : Type} {m : SetupModule σ φ} (w : m.Stepwise)

/-- What holds between the events of a session: the first command is not sent yet, or the module
waits for the next answer, or the setup is over. -/
inductive Inv (s : SetupSession σ) : Prop
  | fresh (hstate : s.state = m.start) (hanswered : s.answered = 0) (hcommands : s.commands = [])
      (hport : Buffered s.port [] 0)
  | waiting (k : Nat) (hstate : w.waiting s.state s.answered)
      (hanswered : s.answered < m.commands.length)
      (hcommands : s.commands = m.commands.take (s.answered + 1))
      (hport : Buffered s.port s.commands k) (hk : s.answered ≤ k)
  | late (later : List Bytes) (hstate : w.late s.state) (hanswered : m.commands.length ≤ s.answered)
      (hcommands : s.commands = m.commands ++ later)
      (hlater : ∀ command ∈ later, command ∉ m.commands)
      (hwire : joinLines m.commands <+: s.port.wire)

variable {w} {s t : SetupSession σ}

/-- The invariant says that the commands go out once and in order. -/
theorem Inv.aligned (h : Inv w s) : m.Aligned s := by
  cases h with
  | fresh hstate hanswered hcommands hport =>
    have hposition : m.position s.state = s.answered := by
      rw [hstate, hanswered, w.start_position]
    exact
      { order := .inl (hcommands ▸ List.nil_prefix)
        wire := fun _ => ⟨0, by omega, by omega, by simpa using hport.wire⟩
        done := fun hle => absurd (List.length_pos_iff.mpr w.nonempty) (by omega)
        passed := fun _ => hposition
        passed_le := hposition.le }
  | waiting k hstate hanswered hcommands hport hk =>
    have hposition : m.position s.state = s.answered := w.waiting_position hstate
    have hle : k ≤ s.answered + 1 := by
      have := hport.le
      rw [hcommands, List.length_take] at this
      omega
    exact
      { order := .inl (hcommands ▸ List.take_prefix _ _)
        wire := fun _ => ⟨k, hk, hle, by
          rw [hport.wire, hcommands, List.take_take, min_eq_left hle]⟩
        done := fun hlen => absurd hanswered (Nat.not_lt.mpr hlen)
        passed := fun _ => hposition
        passed_le := hposition.le }
  | late later hstate hanswered hcommands hlater hwire =>
    exact
      { order := .inr ⟨later, hcommands, hlater⟩
        wire := fun hlt => absurd hanswered (Nat.not_le.mpr hlt)
        done := fun _ => hwire
        passed := fun hlt => absurd hanswered (Nat.not_le.mpr hlt)
        passed_le := (w.late_position hstate).trans hanswered }

/-- A session starts before its first command. -/
theorem inv_newSession : Inv w m.newSession :=
  .fresh rfl rfl rfl ⟨le_rfl, rfl, rfl⟩

/-- The start of an activation sends the first command, or nothing. -/
theorem Inv.activation {answer : Answer} (h : Inv w s) (hclean : m.Clean s (.activation answer))
    (hstep : m.step s (.activation answer) = .ok t) : Inv w t := by
  unfold step at hstep
  split_ifs at hstep with hinit
  · obtain rfl := Except.ok.inj hstep
    exact h
  obtain rfl := Except.ok.inj hstep
  have hquiet : (∀ sent, (m.onInitialize s.state sent).1 = (s.state, [])) →
      Inv w { s with initialized := (m.onInitialize s.state false).2 } →
      Inv w { s with
        state := (m.onInitialize s.state (sendAll s.port answer
          (m.onInitialize s.state false).1.2).2).1.1
        initialized := (m.onInitialize s.state (sendAll s.port answer
          (m.onInitialize s.state false).1.2).2).2
        port := (sendAll s.port answer (m.onInitialize s.state false).1.2).1
        commands := s.commands ++ (m.onInitialize s.state false).1.2 } := by
    intro hnone hinv
    simpa only [hnone, sendAll, List.append_nil] using hinv
  cases h with
  | fresh hstate hanswered hcommands hport =>
    obtain ⟨command, rest, hlist⟩ := List.exists_cons_of_ne_nil w.nonempty
    have hpos : s.answered < m.commands.length := by simp [hanswered, hlist]
    have hsends : (m.onInitialize s.state false).1.2 = [command] := by
      rw [hstate, w.start_sends, hlist, List.take_succ_cons, List.take_zero]
    have hwhole := hclean hpos (by simpa using hinit) command (by simp [hsends])
    obtain ⟨hflag, k, -, hbuffered⟩ := hport.sendAll hwhole
    rw [hsends, hflag, hstate]
    refine .waiting k (by simpa only [hanswered] using w.start_waits) hpos ?_ ?_
      (by simp [hanswered])
    · simp [hcommands, hanswered, hlist]
    · simpa only [hcommands] using hbuffered
  | waiting k hstate hanswered hcommands hport hk =>
    exact hquiet (w.waiting_sends hstate) (.waiting k hstate hanswered hcommands hport hk)
  | late later hstate hanswered hcommands hlater hwire =>
    exact hquiet (w.late_sends hstate) (.late later hstate hanswered hcommands hlater hwire)

/-- A `send` on an activation only empties the buffer. -/
theorem Inv.writable {answer : Answer} (h : Inv w s) (hclean : m.Clean s (.writable answer))
    (hstep : m.step s (.writable answer) = .ok t) : Inv w t := by
  obtain rfl := Except.ok.inj hstep
  cases h with
  | fresh hstate hanswered hcommands hport =>
    have hpos : s.answered < m.commands.length := by
      rw [hanswered]
      exact List.length_pos_iff.mpr w.nonempty
    obtain ⟨k', -, hport'⟩ := hport.writable (hclean hpos)
    obtain rfl : k' = 0 := Nat.le_zero.mp hport'.le
    exact .fresh hstate hanswered hcommands hport'
  | waiting k hstate hanswered hcommands hport hk =>
    obtain ⟨k', hle, hport'⟩ := hport.writable (hclean hanswered)
    exact .waiting k' hstate hanswered hcommands hport' (hk.trans hle)
  | late later hstate hanswered hcommands hlater hwire =>
    exact .late later hstate hanswered hcommands hlater (hwire.trans (List.prefix_append _ _))

/-- The lines of a late reply send no setup command, and what is on the wire stays there. -/
theorem late_of_replyLine {first : ReplyLine} {lines : List (ReplyLine × Answer)}
    (later : List Bytes) (hstate : w.late s.state) (hcommands : s.commands = m.commands ++ later)
    (hlater : ∀ command ∈ later, command ∉ m.commands)
    (hrun : runSteps (m.replyLine first) s lines = .ok t) :
    w.late t.state ∧ s.port.wire <+: t.port.wire ∧
      ∃ later, t.commands = m.commands ++ later ∧ ∀ command ∈ later, command ∉ m.commands := by
  refine invariant_of_steps (fun t => w.late t.state ∧ s.port.wire <+: t.port.wire ∧
    ∃ later, t.commands = m.commands ++ later ∧ ∀ command ∈ later, command ∉ m.commands) ?_
    ⟨hstate, List.prefix_rfl, later, hcommands, hlater⟩ hrun
  rintro u line u' ⟨hlate, hwire, later, hcommands, hlater⟩ hline
  unfold replyLine at hline
  split at hline
  · cases hline
  · next r hr =>
    dsimp only at hline
    split at hline
    · cases hline
    · next r' hr' =>
      obtain rfl := Except.ok.inj hline
      refine ⟨(w.late_reply hlate hr').1, hwire.trans (wire_prefix_sendAll _ _ _),
        later ++ r.2, ?_, ?_⟩
      · simp [hcommands]
      · intro command hmem
        rcases List.mem_append.mp hmem with hmem | hmem
        · exact hlater command hmem
        · exact (w.late_reply hlate hr).2 command hmem

/-- An answer to a setup command that another one follows leads to that one. -/
theorem waiting_of_replyLine {first : ReplyLine} {line : ReplyLine × Answer} {i k : Nat}
    {command : Bytes} (hstate : w.waiting s.state i) (hcode : Int.tdiv first.code 100 = 2)
    (hnext : m.commands[i + 1]? = some command) (hport : Buffered s.port s.commands k)
    (hwhole : TakesWhole line.2 (s.port.conn.sendBuf ++ (command ++ crlf)).length)
    (hline : m.replyLine first s line = .ok t) :
    w.waiting t.state (i + 1) ∧ t.commands = s.commands ++ [command] ∧
      ∃ k', k ≤ k' ∧ Buffered t.port t.commands k' := by
  unfold replyLine at hline
  split at hline
  · cases hline
  · next r hr =>
    obtain ⟨hsends, -⟩ := w.waiting_reply hstate hcode hnext hr
    obtain ⟨hflag, k', hk', hbuffered⟩ := hport.sendAll hwhole
    dsimp only at hline
    rw [hsends, hflag] at hline
    split at hline
    · cases hline
    · next r' hr' =>
      obtain rfl := Except.ok.inj hline
      exact ⟨(w.waiting_reply hstate hcode hnext hr').2 rfl, rfl, k', hk', hbuffered⟩

/-- The lines on the wire are the commands on the wire. -/
theorem length_lines_wire {port : SendSession} {commands : List Bytes} {k : Nat}
    (hport : Buffered port commands k) (hline : ∀ command ∈ commands, IsLine command) :
    (splitLines port.wire).1.length = k := by
  have hlines : splitLines (joinLines (commands.take k) ++ []) = _ := splitLines_joinLines_append
    (fun l hl => hline l (List.mem_of_mem_take hl)) []
  rw [List.append_nil] at hlines
  rw [hport.wire, hlines]
  simp [hport.le]

/-- A success reply to the next line on the wire. -/
theorem Inv.reply {lines : List (ReplyLine × Answer)} (h : Inv w s)
    (hadm : Admissible s (.reply lines)) (hclean : m.Clean s (.reply lines))
    (hstep : m.step s (.reply lines) = .ok t) : Inv w t := by
  obtain ⟨hwire, hne, hcode⟩ := hadm
  obtain ⟨hone, hwhole⟩ := hclean
  obtain ⟨first, rest, rfl⟩ := List.exists_cons_of_ne_nil hne
  have hsuccess : Int.tdiv first.1.code 100 = 2 := hcode first rfl
  unfold step at hstep
  dsimp only at hstep
  rw [if_pos (by simp [hsuccess])] at hstep
  cases hrun : runSteps (m.replyLine first.1) s (first :: rest) with
  | error fault => simp [hrun, Except.map] at hstep
  | ok u =>
    rw [hrun] at hstep
    obtain rfl := Except.ok.inj hstep
    cases h with
    | fresh hstate hanswered hcommands hport =>
      have hnil : s.port.wire = [] := by simpa using hport.wire
      simp [hnil] at hwire
    | waiting k hstate hanswered hcommands hport hk =>
      have hlines : ∀ command ∈ s.commands, IsLine command := fun command hmem =>
        w.isLine command (List.mem_of_mem_take (hcommands ▸ hmem))
      -- the line that is answered is on the wire
      rw [length_lines_wire hport hlines] at hwire
      by_cases hlast : s.answered + 1 < m.commands.length
      · obtain rfl : rest = [] := by simpa using hone hlast
        have hnext : m.commands[s.answered + 1]? = some m.commands[s.answered + 1] :=
          List.getElem?_eq_getElem hlast
        obtain ⟨v, hv, hrest⟩ := runSteps_cons_eq_ok.mp hrun
        obtain rfl := Except.ok.inj hrest
        obtain ⟨hwaits, hsent, k', hk', hport'⟩ := waiting_of_replyLine hstate hsuccess hnext hport
          (hwhole _ hnext first (by simp)) hv
        refine .waiting k' hwaits hlast ?_ hport' (by dsimp only; omega)
        rw [hsent, hcommands, List.take_succ_eq_append_getElem hlast]
      · have hlen : s.answered + 1 = m.commands.length := by omega
        have hall : s.commands = m.commands := by rw [hcommands, hlen, List.take_length]
        obtain ⟨hlate, hgrows, later, hcommands', hlater⟩ := late_of_replyLine []
          (w.late_of_waiting hstate hlen) (by rw [hall, List.append_nil]) (by simp) hrun
        have hfull : s.port.wire = joinLines m.commands := by
          have hle := hport.le
          rw [hall] at hle
          rw [hport.wire, hall, List.take_of_length_le (by omega)]
        exact .late later hlate hlen.ge hcommands' hlater (hfull ▸ hgrows)
    | late later hstate hanswered hcommands hlater hwire' =>
      obtain ⟨hlate, hgrows, later', hcommands', hlater'⟩ :=
        late_of_replyLine _ hstate hcommands hlater hrun
      exact .late later' hlate (by dsimp only; omega) hcommands' hlater' (hwire'.trans hgrows)

/-- Every event of a clean session keeps the invariant. -/
theorem Inv.step {e : SetupEvent} (h : Inv w s) (hadm : Admissible s e) (hclean : m.Clean s e)
    (hstep : SetupModule.step m s e = .ok t) : Inv w t := by
  cases e with
  | activation answer => exact h.activation hclean hstep
  | writable answer => exact h.writable hclean hstep
  | reply lines => exact h.reply hadm hclean hstep

/-- In every clean session the commands go out once and in order. -/
theorem aligned_of_clean (w : m.Stepwise) {es : List SetupEvent}
    (hmeet : StepsMeet m.step (fun s e => Admissible s e ∧ m.Clean s e) m.newSession es)
    (hrun : runSteps m.step m.newSession es = .ok t) : m.Aligned t :=
  (invariant_of_stepsMeet (Inv w) (fun _ _ _ hs he hstep => hs.step he.1 he.2 hstep) inv_newSession
    hmeet hrun).aligned

end SetupModule

end ShadowExtras.TorControl
