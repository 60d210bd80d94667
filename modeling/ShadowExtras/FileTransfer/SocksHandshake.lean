import ShadowExtras.Foundation.Run
import ShadowExtras.FileTransfer.Filegetter

/-!
# The SOCKS handshake of the file getter

A getter whose server specification names a proxy sends a greeting, waits for the method that the
proxy chooses, sends a CONNECT request, waits for the reply and then sends the GET request, all of
it through the one buffer of the getter. `Handshake` is the getter with the proxy at the other end
of its socket. Its steps are the beginning of an activation, one call of `send` or `recv` at a time,
and the bytes that the proxy sends; an activation of `filegetter_activate` is a run of these steps
(`runSteps_of_activate`).

In every run with a proxy that keeps to the protocol the getter passes through the phases of
`Phase`, and `handshakes_of_proxyKeeps` reads off what it has sent, what it has been told when the
GET request goes out, and how a refusal ends.
-/

namespace ShadowExtras.FileTransfer

open Foundation

/-! ## The protocol -/

/-- Where a CONNECT request leads. -/
inductive Destination
  | address (addr : Octets 4)
  | name (hostname : Bytes)
  deriving DecidableEq, Repr

/-- The CONNECT request of SOCKS 5: version, command, a reserved byte, the type of the address, the
address or the hostname behind its length, and the port. -/
def connectRequest (port : Octets 2) : Destination → Bytes
  | .address addr => [5, 1, 0, 1] ++ addr.1 ++ port.1
  | .name hostname => [5, 1, 0, 3] ++ hostname.length.toUInt8 :: hostname ++ port.1

/-- The destination of a server specification: its address, or the first `hostnameLength` bytes of
the array that holds its hostname. -/
def ServerSpec.destination (sspec : ServerSpec) : Destination :=
  if sspec.useHostname then
    .name ((sspec.httpHostname ++ List.replicate (strSize - sspec.httpHostname.length) 0).take
      sspec.hostnameLength)
  else .address sspec.httpAddr

/-- The getter asks for the destination of its specification. -/
theorem socksRequest_eq {sspec : ServerSpec}
    (hhost : sspec.useHostname = true → sspec.hostnameLength ≤ strSize) :
    Filegetter.socksRequest sspec = connectRequest sspec.httpPort sspec.destination := by
  unfold Filegetter.socksRequest ServerSpec.destination
  by_cases huse : sspec.useHostname = true
  · rw [if_pos huse, if_pos huse]
    have hlength : sspec.hostnameLength ≤ strSize := hhost huse
    have hroom : sspec.hostnameLength ≤
        sspec.httpHostname.length + (strSize - sspec.httpHostname.length) := by omega
    simp [connectRequest, hroom]
  · rw [if_neg huse, if_neg huse]
    simp [connectRequest]

/-- The method choice that lets the getter go on. -/
def acceptedChoice : Bytes := [5, 0]

/-- A reply that lets the getter go on: version, success, a reserved byte, an IPv4 address. -/
def AcceptedReply (reply : Bytes) : Prop :=
  reply.take 2 = [5, 0] ∧ (reply.drop 3).take 1 = [1]

instance (reply : Bytes) : Decidable (AcceptedReply reply) :=
  inferInstanceAs (Decidable (_ ∧ _))

/-- The length of a method choice. -/
def choiceLength : Nat := 2

/-- The length of a reply with an IPv4 address. -/
def replyLength : Nat := 10

/-! ## The getter and its proxy -/

/-- A getter and the proxy at the other end of its socket. -/
structure Handshake where
  fg : Filegetter
  /-- An activation is under way. -/
  running : Bool
  /-- What the last activation has returned. -/
  code : Option GetterCode
  /-- History: the bytes that the proxy has sent. -/
  answered : Bytes
  deriving DecidableEq, Repr

/-- What happens next. -/
inductive HandshakeEvent
  /-- `filegetter_activate` is called. -/
  | activate (around : Surroundings)
  /-- The activation under way calls `send` or `recv`. -/
  | call (call : Call)
  /-- The call of the activation under way would block. -/
  | block
  /-- The proxy sends. -/
  | answer (bytes : Bytes)
  deriving DecidableEq, Repr

namespace Handshake

/-- A getter that has just connected to the proxy. -/
def begin (fg : Filegetter) : Handshake where
  fg := fg
  running := false
  code := none
  answered := []

/-- The bytes that the getter has received. -/
def received (w : Handshake) : Bytes := w.answered.take (w.answered.length - w.fg.incoming.length)

/-- Where a state of the getter leads. -/
def enter (w : Handshake) : Next → Handshake
  | .call fg => { w with fg := fg, running := true }
  | .return fg code => { w with fg := fg, running := false, code := some code }

/-- One step; a call without an activation and an activation within one do nothing. -/
def step (w : Handshake) : HandshakeEvent → Except Fault Handshake
  | .activate around =>
    if w.running then .ok w
    else if w.fg.AssertState then (w.fg.proceed around).map w.enter
    else .error .assertion
  | .call call =>
    if w.running then
      (if w.fg.state = .send then w.fg.send call else w.fg.receive call).map w.enter
    else .ok w
  | .block =>
    .ok (if w.running then { w with running := false, code := some .errWouldblock } else w)
  | .answer bytes =>
    .ok { w with
      fg := { w.fg with incoming := w.fg.incoming ++ bytes }
      answered := w.answered ++ bytes }

/-- The events of one activation. -/
def eventsOf (e : GetterEvent) : List HandshakeEvent :=
  .activate e.around :: (e.calls.map .call ++ [.block])

/-- Calls that come after an activation has returned do nothing. -/
theorem runSteps_of_not_running {w : Handshake} (hw : w.running = false) (calls : List Call) :
    runSteps step w (calls.map .call ++ [.block]) = .ok w := by
  induction calls with
  | nil => simp [runSteps, step, hw]
  | cons call calls ih =>
    have hstep : w.step (.call call) = .ok w := by simp [step, hw]
    rw [List.map_cons, List.cons_append, runSteps_cons_of_ok hstep, ih]

/-- The calls of an activation, one step each. -/
theorem runSteps_of_callLoop {w : Handshake} {calls : List Call} {fg : Filegetter}
    {code : GetterCode} (hw : w.running = true) (h : w.fg.callLoop calls = .ok (fg, code)) :
    runSteps step w (calls.map .call ++ [.block]) =
      .ok { w with fg := fg, running := false, code := some code } := by
  induction calls generalizing w with
  | nil =>
    obtain ⟨rfl, rfl⟩ : w.fg = fg ∧ .errWouldblock = code := by
      simpa [Filegetter.callLoop] using h
    simp [runSteps, step, hw]
  | cons call calls ih =>
    rw [List.map_cons, List.cons_append]
    simp only [Filegetter.callLoop] at h
    cases hnext : (if w.fg.state = .send then w.fg.send call else w.fg.receive call) with
    | error fault => simp [hnext] at h
    | ok next =>
      have hstep : w.step (.call call) = .ok (w.enter next) := by
        simp only [step, hw, if_true, hnext]
        rfl
      rw [runSteps_cons_of_ok hstep]
      rw [hnext] at h
      cases next with
      | call fg' => exact ih rfl h
      | «return» fg' code' =>
        obtain ⟨rfl, rfl⟩ : fg' = fg ∧ code' = code := by simpa using h
        exact runSteps_of_not_running rfl calls

/-- An activation of the getter is a run of the steps. -/
theorem runSteps_of_activate {w : Handshake} {e : GetterEvent} {fg : Filegetter}
    {code : GetterCode} (hw : w.running = false) (h : w.fg.activate e = .ok (fg, code)) :
    runSteps step w (eventsOf e) =
      .ok { w with fg := fg, running := false, code := some code } := by
  unfold Filegetter.activate at h
  split_ifs at h with hassert
  cases hnext : w.fg.proceed e.around with
  | error fault => simp [hnext] at h
  | ok next =>
    have hstep : w.step (.activate e.around) = .ok (w.enter next) := by
      simp only [step, hw, hassert, if_true, hnext]
      rfl
    rw [eventsOf, runSteps_cons_of_ok hstep]
    rw [hnext] at h
    cases next with
    | call fg' => exact runSteps_of_callLoop rfl h
    | «return» fg' code' =>
      obtain ⟨rfl, rfl⟩ : fg' = fg ∧ code' = code := by simpa using h
      exact runSteps_of_not_running rfl e.calls

/-! ## What is promised -/

/-- What the getter sends before the GET request. -/
def overture (sspec : ServerSpec) : Bytes :=
  socksInit ++ connectRequest sspec.httpPort sspec.destination

/-- All that the getter sends. -/
def conversation (sspec : ServerSpec) (fspec : FileSpec) : Bytes :=
  overture sspec ++ Filegetter.getRequest fspec.remotePath sspec.httpHostname

/-- A proxy that keeps to the protocol: its choice comes after the greeting, its reply after the
CONNECT request and names no address, and what it relays comes after the GET request. -/
def ProxyKeeps (sspec : ServerSpec) (fspec : FileSpec) (w : Handshake) : HandshakeEvent → Prop
  | .answer bytes =>
    let answered := w.answered ++ bytes
    (bytes ≠ [] → socksInit.length ≤ w.fg.sent.length) ∧
      (choiceLength < answered.length → (overture sspec).length ≤ w.fg.sent.length) ∧
      (choiceLength + replyLength < answered.length →
        (conversation sspec fspec).length ≤ w.fg.sent.length) ∧
      (choiceLength + replyLength ≤ answered.length →
        (answered.drop (choiceLength + 4)).take 4 = [0, 0, 0, 0])
  | _ => True

instance (sspec : ServerSpec) (fspec : FileSpec) (w : Handshake) (e : HandshakeEvent) :
    Decidable (ProxyKeeps sspec fspec w e) := by
  cases e <;> unfold ProxyKeeps <;> infer_instance

/-- The GET request has been written to the buffer. -/
def GetStarted (sspec : ServerSpec) (w : Handshake) : Prop :=
  (w.fg.state = .send ∧ w.fg.nextstate = .toReplyHttp) ∨
    (overture sspec).length < w.fg.sent.length

/-- The handshake as it should be. -/
structure Handshakes (sspec : ServerSpec) (fspec : FileSpec) (w : Handshake) : Prop where
  /-- What was sent is the beginning of the greeting, the CONNECT request and the GET request. -/
  sent_prefix : w.fg.sent <+: conversation sspec fspec
  /-- The GET request starts when both answers were received in full and let the getter go on. -/
  accepted_of_getStarted : GetStarted sspec w →
    choiceLength + replyLength ≤ w.received.length ∧
      w.received.take choiceLength = acceptedChoice ∧
      AcceptedReply (w.received.drop choiceLength)
  /-- Another choice ends in `FG_ERR_SOCKSINIT`. -/
  choice_refused : choiceLength ≤ w.received.length →
    w.received.take choiceLength ≠ acceptedChoice →
      w.running = false ∧ w.code = some .errSocksinit ∧ w.fg.sent = socksInit
  /-- Another reply ends in `FG_ERR_SOCKSCONN`. -/
  reply_refused : choiceLength + replyLength ≤ w.received.length →
    w.received.take choiceLength = acceptedChoice →
    ¬AcceptedReply (w.received.drop choiceLength) →
      w.running = false ∧ w.code = some .errSocksconn ∧ w.fg.sent = overture sspec

end Handshake

/-! ## Sending a message, receiving an answer -/

variable {fg : Filegetter} {before read message sent got : Bytes} {nextstate : GetterState}
  {call : Call} {result : Next}

/-- Two getters with the same specifications and the same bytes to receive. -/
structure SameTask (fg fg' : Filegetter) : Prop where
  sspec : fg'.sspec = fg.sspec
  fspec : fg'.fspec = fg.fspec
  incoming : fg'.incoming = fg.incoming

theorem SameTask.refl (fg : Filegetter) : SameTask fg fg := ⟨rfl, rfl, rfl⟩

/-- A message that the getter is sending: it was written to the buffer behind `read`, which was
looked at before, and goes out behind `before`. -/
structure Sending (fg : Filegetter) (before read message : Bytes) (nextstate : GetterState) :
    Prop where
  state : fg.state = .send
  nextstate : fg.nextstate = nextstate
  buf : fg.buf = read ++ message
  progress : ∃ k < message.length,
    fg.bufReadOffset = read.length + k ∧ fg.sent = before ++ message.take k

/-- An answer that the getter is receiving, `got` of it so far. -/
structure Receiving (fg : Filegetter) (sent got : Bytes) (nextstate : GetterState) : Prop where
  state : fg.state = .receive
  nextstate : fg.nextstate = nextstate
  buf : fg.buf = got
  offset : fg.bufReadOffset = 0
  sent : fg.sent = sent

/-- A call that ends the activation and may end the connection, without passing a byte. -/
def Passes (fg : Filegetter) (result : Next) : Prop :=
  result = .return fg .errWouldblock ∨
    ∃ fg', result = .return fg' .errFatal ∧ fg'.state = .idle ∧ fg'.sent = fg.sent ∧
      fg'.incoming = fg.incoming

/-- A call that fails passes nothing. -/
theorem passes_ioError (excused : Bool) (errcode : GetterCode) :
    Passes fg (fg.ioError excused errcode) := by
  cases excused with
  | true => exact .inl rfl
  | false => exact .inr ⟨_, rfl, rfl, rfl, rfl⟩

/-- What has been sent of a message is a proper part of it. -/
theorem Sending.sent_prefix (h : Sending fg before read message nextstate) :
    fg.sent <+: before ++ message := by
  obtain ⟨k, -, -, hsent⟩ := h.progress
  rw [hsent]
  exact List.prefix_append_right_inj _ |>.mpr (List.take_prefix _ _)

/-- While a message is sent, not all of it was. -/
theorem Sending.length_sent_lt (h : Sending fg before read message nextstate) :
    fg.sent.length < (before ++ message).length := by
  obtain ⟨k, hk, -, hsent⟩ := h.progress
  rw [hsent]
  simp only [List.length_append, List.length_take]
  omega

/-- A call of `send` passes nothing, a part of the message, or the rest of it. -/
theorem Sending.send (h : Sending fg before read message nextstate)
    (hsend : fg.send call = .ok result) :
    Passes fg result ∨
      (∃ fg', result = .call fg' ∧ SameTask fg fg' ∧
        Sending fg' before read message nextstate) ∨
      ∃ fg' : Filegetter, fg'.proceed call.around = .ok result ∧ SameTask fg fg' ∧
        fg'.state = nextstate ∧ fg'.buf = [] ∧ fg'.bufReadOffset = 0 ∧
        fg'.sent = before ++ message := by
  obtain ⟨k, hk, hoffset, hsent⟩ := h.progress
  have hunsent : fg.buf.drop fg.bufReadOffset = message.drop k := by
    rw [h.buf, hoffset, List.drop_append]
    simp
  have hlength : fg.buf.length - fg.bufReadOffset = message.length - k := by
    rw [h.buf, hoffset, List.length_append]
    omega
  unfold Filegetter.send at hsend
  split_ifs at hsend with hassert
  rw [hlength] at hsend
  cases hanswer : call.answer.send (message.length - k) with
  | error errno =>
    rw [hanswer] at hsend
    obtain rfl := Except.ok.inj hsend
    exact .inl (passes_ioError _ _)
  | ok bytes =>
    have hbytes : bytes ≤ message.length - k := Answer.le_of_send_eq_ok hanswer
    rw [hanswer] at hsend
    cases bytes with
    | zero =>
      obtain rfl := Except.ok.inj hsend
      exact .inl (.inr ⟨_, rfl, rfl, rfl, rfl⟩)
    | succ bytes =>
      dsimp only at hsend
      have hadvanced : (fg.advance (bytes + 1)).sent =
          before ++ message.take (k + (bytes + 1)) := by
        simp only [Filegetter.advance, hunsent, hsent, List.append_assoc, List.take_add]
      have hread : (fg.advance (bytes + 1)).bufReadOffset = read.length + (k + (bytes + 1)) := by
        simp only [Filegetter.advance, hoffset, Nat.add_assoc]
      have hwrite : (fg.advance (bytes + 1)).buf.length = read.length + message.length := by
        simp only [Filegetter.advance, h.buf, List.length_append]
      rw [hread, hwrite] at hsend
      split_ifs at hsend with hall
      · -- the message went out whole
        have hk' : k + (bytes + 1) = message.length := by omega
        rw [hk', List.take_length] at hadvanced
        exact .inr (.inr ⟨_, hsend, ⟨rfl, rfl, rfl⟩, h.nextstate, rfl, rfl, hadvanced⟩)
      · obtain rfl := Except.ok.inj hsend
        refine .inr (.inl ⟨_, rfl, ⟨rfl, rfl, rfl⟩, h.state, h.nextstate, h.buf,
          k + (bytes + 1), ?_, hread, hadvanced⟩)
        omega

/-- A call of `recv` passes nothing or some of the bytes on the socket. -/
theorem receive_cases (hreceive : fg.receive call = .ok result) :
    Passes fg result ∨ ∃ bytes rest : Bytes, fg.incoming = bytes ++ rest ∧
      (fg.received bytes).incoming = rest ∧
      (fg.received bytes).proceed call.around = .ok result := by
  unfold Filegetter.receive at hreceive
  cases hanswer : call.answer.recv fg.incoming (bufSize - fg.buf.length) with
  | error errno =>
    rw [hanswer] at hreceive
    obtain rfl := Except.ok.inj hreceive
    exact .inl (passes_ioError _ _)
  | ok bytes =>
    obtain ⟨rest, hrest⟩ := Answer.prefix_of_recv_eq_ok hanswer
    rw [hanswer] at hreceive
    cases bytes with
    | nil =>
      obtain rfl := Except.ok.inj hreceive
      exact .inl (.inr ⟨_, rfl, rfl, rfl, rfl⟩)
    | cons b bs =>
      refine .inr ⟨b :: bs, rest, hrest.symm, ?_, hreceive⟩
      simp only [Filegetter.received, ← hrest, List.drop_left]

/-! ## After the GET request -/

/-- A getter that waits for the reply of the file server. -/
def AwaitsServer (fg : Filegetter) : Prop :=
  fg.state = .receive ∧ (fg.nextstate = .replyHttp ∨ fg.nextstate = .checkDownload)

/-- Looking at the file server's reply, the getter sends nothing: it goes on receiving, waits for
the next file, or has shut down. -/
def Relays (fg : Filegetter) : Next → Prop
  | .call fg' => fg'.sent = fg.sent ∧ fg'.incoming = fg.incoming ∧ AwaitsServer fg'
  | .return fg' _ => fg'.sent = fg.sent ∧ fg'.incoming = fg.incoming ∧
      (fg'.state = .spec ∨ fg'.state = .idle)

/-- Counting the bytes of a body leaves the socket alone. -/
theorem countBody_sent (fg : Filegetter) (around : Surroundings) (bytes : Nat) :
    (fg.countBody around bytes).sent = fg.sent ∧
      (fg.countBody around bytes).incoming = fg.incoming := by
  unfold Filegetter.countBody
  dsimp only
  split_ifs <;> exact ⟨rfl, rfl⟩

/-- The end of a download leaves the socket alone. -/
theorem relays_finish {fg' : Filegetter} (around : Surroundings) (hsent : fg'.sent = fg.sent)
    (hincoming : fg'.incoming = fg.incoming) :
    Relays fg (.return (fg'.finish around) .ok200) := by
  unfold Filegetter.finish
  dsimp only
  split_ifs
  · exact ⟨hsent, hincoming, .inl rfl⟩
  · exact ⟨hsent, hincoming, .inl rfl⟩

/-- A check of the download leaves the socket alone. -/
theorem relays_checkDownload (fg : Filegetter) (around : Surroundings) :
    Relays fg (fg.checkDownload around) := by
  obtain ⟨hsent, hincoming⟩ := countBody_sent fg around (fg.buf.drop fg.bufReadOffset).length
  unfold Filegetter.checkDownload
  dsimp only
  split
  · exact ⟨hsent, hincoming, .inr rfl⟩
  · split
    · exact relays_finish around hsent hincoming
    · exact ⟨hsent, hincoming, rfl, .inr rfl⟩

/-- The header of a reply leaves the socket alone. -/
theorem relays_replyHttp {around : Surroundings} (h : fg.replyHttp around = .ok result) :
    Relays fg result := by
  unfold Filegetter.replyHttp at h
  dsimp only at h
  split_ifs at h
  split at h
  · obtain rfl := Except.ok.inj h
    exact ⟨rfl, rfl, .inl rfl⟩
  · split at h
    · split at h
      · obtain rfl := Except.ok.inj h
        exact ⟨rfl, rfl, .inr rfl⟩
      · obtain rfl := Except.ok.inj h
        exact relays_checkDownload _ _
    · obtain rfl := Except.ok.inj h
      exact ⟨rfl, rfl, rfl, .inl rfl⟩

/-- A call of `recv` while the file server replies. -/
theorem AwaitsServer.receive (h : AwaitsServer fg) (hreceive : fg.receive call = .ok result) :
    Passes fg result ∨ ∃ bytes rest : Bytes, fg.incoming = bytes ++ rest ∧
      (fg.received bytes).incoming = rest ∧ Relays (fg.received bytes) result := by
  rcases receive_cases hreceive with hpass | ⟨bytes, rest, hsplit, hrest, hproceed⟩
  · exact .inl hpass
  · refine .inr ⟨bytes, rest, hsplit, hrest, ?_⟩
    have hstate : (fg.received bytes).state = fg.nextstate := rfl
    unfold Filegetter.proceed at hproceed
    rcases h.2 with hnext | hnext
    · rw [hstate, hnext] at hproceed
      exact relays_replyHttp hproceed
    · rw [hstate, hnext] at hproceed
      obtain rfl := Except.ok.inj hproceed
      exact relays_checkDownload _ _

/-! ## Looking at the answers -/

variable {around : Surroundings}

theorem proceed_toReplySocksInit (h : fg.state = .toReplySocksInit) :
    fg.proceed around = .ok (.call (fg.toReply .replySocksInit)) := by
  simp [Filegetter.proceed, h]

theorem proceed_toReplySocksConn (h : fg.state = .toReplySocksConn) :
    fg.proceed around = .ok (.call (fg.toReply .replySocksConn)) := by
  simp [Filegetter.proceed, h]

theorem proceed_toReplyHttp (h : fg.state = .toReplyHttp) :
    fg.proceed around = .ok (.call (fg.toReply .replyHttp)) := by
  simp [Filegetter.proceed, h]

/-- Writing a message behind what was looked at of the buffer. -/
theorem sending_sendThen {fg : Filegetter} (hmessage : message ≠ [])
    (hbuf : fg.buf = read ++ message) (hoffset : fg.bufReadOffset = read.length)
    (hsent : fg.sent = before) :
    Sending (fg.sendThen nextstate) before read message nextstate := by
  refine ⟨rfl, rfl, hbuf, 0, List.length_pos_iff.mpr hmessage, ?_, ?_⟩
  · exact hoffset
  · rw [List.take_zero, List.append_nil]
    exact hsent

/-- Half a method choice. -/
theorem proceed_replySocksInit_of_short (hstate : fg.state = .replySocksInit)
    (hbuf : fg.buf = got) (hoffset : fg.bufReadOffset = 0) (hgot : got.length < choiceLength) :
    fg.proceed around = .ok (.call (fg.toReply .replySocksInit)) := by
  have hdrop : fg.buf.drop fg.bufReadOffset = got := by rw [hbuf, hoffset, List.drop_zero]
  simp only [Filegetter.proceed, hstate, Filegetter.replySocksInit, hdrop]
  match got, hgot with
  | [], _ => rfl
  | [_], _ => rfl
  | _ :: _ :: _, h => exact absurd h (by simp [choiceLength])

/-- A method choice. -/
theorem proceed_replySocksInit_of_length (hstate : fg.state = .replySocksInit)
    (hbuf : fg.buf = got) (hoffset : fg.bufReadOffset = 0) (hgot : got.length = choiceLength)
    (hproceed : fg.proceed around = .ok result) :
    (got ≠ acceptedChoice ∧ result = .return fg .errSocksinit) ∨
      (got = acceptedChoice ∧ ({ fg with bufReadOffset := 2, state := .requestSocksConn } :
        Filegetter).requestSocksConn = .ok result) := by
  have hdrop : fg.buf.drop fg.bufReadOffset = got := by rw [hbuf, hoffset, List.drop_zero]
  obtain ⟨version, method, rfl⟩ := List.length_eq_two.mp hgot
  simp only [Filegetter.proceed, hstate, Filegetter.replySocksInit, hdrop] at hproceed
  simp only [hoffset, Nat.zero_add] at hproceed
  split_ifs at hproceed with hrefused
  · refine .inl ⟨?_, (Except.ok.inj hproceed).symm⟩
    rintro heq
    obtain ⟨rfl, rfl⟩ : version = 5 ∧ method = 0 := by simpa [acceptedChoice] using heq
    simp at hrefused
  · obtain ⟨rfl, rfl⟩ : version = 5 ∧ method = 0 := by simpa [not_or] using hrefused
    exact .inr ⟨rfl, hproceed⟩

/-- The CONNECT request is written to the buffer. -/
theorem requestSocksConn_eq
    (hhost : fg.sspec.useHostname = true → fg.sspec.hostnameLength ≤ strSize)
    (h : fg.requestSocksConn = .ok result) :
    result = .call ({ fg with
      buf := fg.buf ++ connectRequest fg.sspec.httpPort fg.sspec.destination }.sendThen
        .toReplySocksConn) := by
  unfold Filegetter.requestSocksConn at h
  dsimp only at h
  split_ifs at h
  all_goals
    rw [socksRequest_eq hhost] at h
    exact (Except.ok.inj h).symm

/-- A part of a reply. -/
theorem proceed_replySocksConn_of_short (hstate : fg.state = .replySocksConn)
    (hbuf : fg.buf = got) (hoffset : fg.bufReadOffset = 0) (hgot : got.length < replyLength) :
    fg.proceed around = .ok (.call (fg.toReply .replySocksConn)) := by
  have hdrop : fg.buf.drop fg.bufReadOffset = got := by rw [hbuf, hoffset, List.drop_zero]
  simp only [Filegetter.proceed, hstate, Filegetter.replySocksConn, hdrop]
  split
  · simp [replyLength] at hgot
    omega
  · rfl

/-- The GET request is written to the buffer, or is too long for it. -/
theorem requestHttp_eq (h : fg.requestHttp = .ok result) :
    result = fg.die ∨ result = .call ({ fg with
      buf := fg.buf ++ Filegetter.getRequest fg.fspec.remotePath fg.sspec.httpHostname }.sendThen
        .toReplyHttp) := by
  unfold Filegetter.requestHttp at h
  dsimp only at h
  split_ifs at h
  · exact .inl (Except.ok.inj h).symm
  · exact .inr (Except.ok.inj h).symm

/-- A reply that names no address. -/
theorem proceed_replySocksConn_of_length (hstate : fg.state = .replySocksConn)
    (hbuf : fg.buf = got) (hoffset : fg.bufReadOffset = 0) (hgot : got.length = replyLength)
    (hzero : (got.drop 4).take 4 = [0, 0, 0, 0]) (hproceed : fg.proceed around = .ok result) :
    (¬AcceptedReply got ∧ result = .return fg .errSocksconn) ∨
      (AcceptedReply got ∧ ({ fg with
        bufReadOffset := 10, state := .requestHttp, nextstate := .requestHttp } :
          Filegetter).requestHttp = .ok result) := by
  have hdrop : fg.buf.drop fg.bufReadOffset = got := by rw [hbuf, hoffset, List.drop_zero]
  match got, hgot with
  | [version, reply, reserved, type, a, b, c, d, p, q], _ =>
    have haddress : [a, b, c, d] = [0, 0, 0, 0] := by simpa using hzero
    simp only [Filegetter.proceed, hstate, Filegetter.replySocksConn, hdrop] at hproceed
    simp only [hoffset, Nat.zero_add, haddress, ne_eq, not_true_eq_false, false_and,
      if_false] at hproceed
    split_ifs at hproceed with hrefused
    · refine .inl ⟨?_, (Except.ok.inj hproceed).symm⟩
      rintro ⟨htwo, htype⟩
      obtain ⟨rfl, rfl⟩ : version = 5 ∧ reply = 0 := by simpa using htwo
      obtain rfl : type = 1 := by simpa using htype
      simp at hrefused
    · obtain ⟨rfl, rfl, rfl⟩ : version = 5 ∧ reply = 0 ∧ type = 1 := by
        simpa [not_or] using hrefused
      exact .inr ⟨⟨rfl, rfl⟩, hproceed⟩

/-! ## The phases of a handshake -/

/-- What the getter has been told so far lets it go on. -/
def Unrefused (got : Bytes) : Prop :=
  (choiceLength ≤ got.length → got.take choiceLength = acceptedChoice) ∧
    (choiceLength + replyLength ≤ got.length → AcceptedReply (got.drop choiceLength))

/-- A choice that did not arrive completely refuses nothing. -/
theorem unrefused_of_short (h : got.length < choiceLength) : Unrefused got := by
  constructor
  · intro hlength
    omega
  · intro hlength
    simp only [choiceLength] at h hlength
    omega

/-- A reply that did not arrive completely refuses nothing. -/
theorem unrefused_choice (h : got.length < replyLength) : Unrefused (acceptedChoice ++ got) := by
  constructor
  · intro _
    rfl
  · intro hlength
    simp [choiceLength, replyLength, acceptedChoice] at h hlength
    omega

/-- A reply that accepts does so whatever follows. -/
theorem AcceptedReply.append {reply : Bytes} (h : AcceptedReply reply)
    (hlength : reply.length = replyLength) (rest : Bytes) : AcceptedReply (reply ++ rest) := by
  have htwo : (reply ++ rest).take 2 = reply.take 2 :=
    List.take_append_of_le_length (by simp [hlength, replyLength])
  have hone : ((reply ++ rest).drop 3).take 1 = (reply.drop 3).take 1 := by
    rw [List.drop_append_of_le_length (by simp [hlength, replyLength]),
      List.take_append_of_le_length (by simp [hlength, replyLength])]
  exact ⟨htwo.trans h.1, hone.trans h.2⟩

/-- A reply that accepts refuses nothing. -/
theorem unrefused_reply {reply : Bytes} (h : AcceptedReply reply)
    (hlength : reply.length = replyLength) (rest : Bytes) :
    Unrefused (acceptedChoice ++ reply ++ rest) := by
  constructor
  · intro _
    rfl
  · intro _
    exact h.append hlength rest

namespace Handshake

variable {sspec : ServerSpec} {fspec : FileSpec} {w w' : Handshake}

/-- What holds of a getter that was not refused. -/
structure Unhindered (sspec : ServerSpec) (fspec : FileSpec) (w : Handshake) : Prop where
  sent_prefix : w.fg.sent <+: conversation sspec fspec
  told : ∃ got, w.answered = got ++ w.fg.incoming ∧ Unrefused got ∧
    (GetStarted sspec w → choiceLength + replyLength ≤ got.length)

/-- The getter works for this server and this file. -/
def Tasked (sspec : ServerSpec) (fspec : FileSpec) (fg : Filegetter) : Prop :=
  fg.sspec = sspec ∧ fg.fspec = fspec

/-- The phases of a handshake. -/
inductive Phase (sspec : ServerSpec) (fspec : FileSpec) : Handshake → Prop
  | fresh {w : Handshake} (state : w.fg.state = .requestSocksInit) (buf : w.fg.buf = [])
      (offset : w.fg.bufReadOffset = 0) (sent : w.fg.sent = []) (running : w.running = false)
      (task : Tasked sspec fspec w.fg) (answered : w.answered = [])
        (incoming : w.fg.incoming = []) :
      Phase sspec fspec w
  | greeting {w : Handshake} (sending : Sending w.fg [] [] socksInit .toReplySocksInit)
      (task : Tasked sspec fspec w.fg) (answered : w.answered = [])
        (incoming : w.fg.incoming = []) : Phase sspec fspec w
  | awaitsChoice {w : Handshake} (got : Bytes)
      (receiving : Receiving w.fg socksInit got .replySocksInit) (task : Tasked sspec fspec w.fg)
      (short : got.length < choiceLength) (answered : w.answered = got ++ w.fg.incoming)
      (length_le : w.answered.length ≤ choiceLength) : Phase sspec fspec w
  | choiceRefused {w : Handshake} (state : w.fg.state = .replySocksInit)
      (buf : w.fg.buf = w.answered) (offset : w.fg.bufReadOffset = 0)
      (length : w.answered.length = choiceLength) (refused : w.answered ≠ acceptedChoice)
      (incoming : w.fg.incoming = []) (sent : w.fg.sent = socksInit) (running : w.running = false)
      (code : w.code = some .errSocksinit) : Phase sspec fspec w
  | connect {w : Handshake} (sending : Sending w.fg socksInit acceptedChoice
        (connectRequest sspec.httpPort sspec.destination) .toReplySocksConn)
      (task : Tasked sspec fspec w.fg) (answered : w.answered = acceptedChoice)
        (incoming : w.fg.incoming = []) :
      Phase sspec fspec w
  | awaitsReply {w : Handshake} (got : Bytes)
      (receiving : Receiving w.fg (overture sspec) got .replySocksConn)
      (task : Tasked sspec fspec w.fg) (short : got.length < replyLength)
      (answered : w.answered = acceptedChoice ++ (got ++ w.fg.incoming))
      (length_le : (got ++ w.fg.incoming).length ≤ replyLength)
      (zero : (got ++ w.fg.incoming).length = replyLength →
        ((got ++ w.fg.incoming).drop 4).take 4 = [0, 0, 0, 0]) : Phase sspec fspec w
  | replyRefused {w : Handshake} (reply : Bytes) (state : w.fg.state = .replySocksConn)
      (buf : w.fg.buf = reply) (offset : w.fg.bufReadOffset = 0)
      (answered : w.answered = acceptedChoice ++ reply) (length : reply.length = replyLength)
      (zero : (reply.drop 4).take 4 = [0, 0, 0, 0]) (refused : ¬AcceptedReply reply)
      (incoming : w.fg.incoming = []) (sent : w.fg.sent = overture sspec)
      (running : w.running = false) (code : w.code = some .errSocksconn) : Phase sspec fspec w
  | get {w : Handshake} (reply : Bytes) (sending : Sending w.fg (overture sspec) reply
        (Filegetter.getRequest fspec.remotePath sspec.httpHostname) .toReplyHttp)
      (answered : w.answered = acceptedChoice ++ reply) (length : reply.length = replyLength)
      (accepted : AcceptedReply reply) (incoming : w.fg.incoming = []) : Phase sspec fspec w
  | relayed {w : Handshake} (reply rest : Bytes)
      (state : AwaitsServer w.fg ∨ (w.fg.state = .spec ∧ w.running = false))
      (sent : w.fg.sent = conversation sspec fspec)
      (answered : w.answered = acceptedChoice ++ reply ++ rest ++ w.fg.incoming)
      (length : reply.length = replyLength) (accepted : AcceptedReply reply) : Phase sspec fspec w
  | dead {w : Handshake} (state : w.fg.state = .idle) (running : w.running = false)
      (unhindered : Unhindered sspec fspec w) : Phase sspec fspec w

/-- The first message is a part of the handshake. -/
theorem length_socksInit_lt : socksInit.length < (overture sspec).length := by
  unfold overture connectRequest
  rw [List.length_append]
  cases sspec.destination <;> simp

theorem getRequest_ne_nil (remotePath hostname : Bytes) :
    Filegetter.getRequest remotePath hostname ≠ [] := by
  simp [Filegetter.getRequest, ascii]

theorem length_overture_lt : (overture sspec).length < (conversation sspec fspec).length := by
  rw [conversation, List.length_append]
  exact Nat.lt_add_of_pos_right (List.length_pos_iff.mpr (getRequest_ne_nil _ _))

theorem connectRequest_ne_nil (port : Octets 2) (destination : Destination) :
    connectRequest port destination ≠ [] := by
  cases destination <;> simp [connectRequest]

theorem overture_prefix : overture sspec <+: conversation sspec fspec := List.prefix_append _ _

theorem socksInit_prefix : socksInit <+: conversation sspec fspec :=
  (List.prefix_append _ _).trans overture_prefix

/-- The GET request has not been started while another message goes out. -/
theorem not_getStarted_of_sending (h : Sending w.fg before read message nextstate)
    (hnext : nextstate ≠ .toReplyHttp)
    (hlength : (before ++ message).length ≤ (overture sspec).length) : ¬GetStarted sspec w := by
  have hlt := h.length_sent_lt
  rintro (⟨-, hstate⟩ | hsent)
  · exact hnext (h.nextstate.symm.trans hstate)
  · omega

/-- The GET request has not been started while an answer of the proxy is awaited. -/
theorem not_getStarted_of_receiving (h : Receiving w.fg sent got nextstate)
    (hlength : sent.length ≤ (overture sspec).length) : ¬GetStarted sspec w := by
  rintro (⟨hstate, -⟩ | hsent)
  · rw [h.state] at hstate
    cases hstate
  · rw [h.sent] at hsent
    omega

/-- In every phase but the two refusals the getter is unhindered. -/
theorem Phase.unhindered_or_refused (h : Phase sspec fspec w) :
    Unhindered sspec fspec w ∨
      (w.fg.state = .replySocksInit ∧ w.answered.length = choiceLength ∧
        w.answered ≠ acceptedChoice ∧ w.fg.incoming = [] ∧ w.fg.sent = socksInit ∧
        w.running = false ∧ w.code = some .errSocksinit) ∨
      ∃ reply, w.fg.state = .replySocksConn ∧ w.answered = acceptedChoice ++ reply ∧
        reply.length = replyLength ∧ ¬AcceptedReply reply ∧ w.fg.incoming = [] ∧
        w.fg.sent = overture sspec ∧ w.running = false ∧ w.code = some .errSocksconn := by
  cases h with
  | fresh state buf offset sent running task answered incoming =>
    refine .inl ⟨by rw [sent]; exact List.nil_prefix, [], by rw [answered, incoming]; rfl,
      unrefused_of_short (by decide), ?_⟩
    rintro (⟨hstate, -⟩ | hsent)
    · rw [state] at hstate
      cases hstate
    · rw [sent] at hsent
      exact absurd hsent (Nat.not_lt_zero _)
  | greeting sending task answered incoming =>
    refine .inl ⟨sending.sent_prefix.trans socksInit_prefix, [], by rw [answered, incoming]; rfl,
      unrefused_of_short (by decide), fun hget => ?_⟩
    exact absurd hget (not_getStarted_of_sending sending (by decide) length_socksInit_lt.le)
  | awaitsChoice got receiving task short answered length_le =>
    refine .inl ⟨by rw [receiving.sent]; exact socksInit_prefix, got, answered,
      unrefused_of_short short, fun hget => ?_⟩
    exact absurd hget (not_getStarted_of_receiving receiving length_socksInit_lt.le)
  | choiceRefused state buf offset length refused incoming sent running code =>
    exact .inr (.inl ⟨state, length, refused, incoming, sent, running, code⟩)
  | connect sending task answered incoming =>
    refine .inl ⟨sending.sent_prefix.trans overture_prefix, acceptedChoice ++ [],
      by rw [answered, incoming]; rfl, unrefused_choice (by decide), fun hget => ?_⟩
    exact absurd hget (not_getStarted_of_sending sending (by decide) le_rfl)
  | awaitsReply got receiving task short answered length_le zero =>
    refine .inl ⟨by rw [receiving.sent]; exact overture_prefix, acceptedChoice ++ got,
      by rw [answered, List.append_assoc], unrefused_choice short, fun hget => ?_⟩
    exact absurd hget (not_getStarted_of_receiving receiving le_rfl)
  | replyRefused reply state buf offset answered length zero refused incoming sent running code =>
    exact .inr (.inr ⟨reply, state, answered, length, refused, incoming, sent, running, code⟩)
  | get reply sending answered length accepted incoming =>
    refine .inl ⟨sending.sent_prefix, acceptedChoice ++ reply ++ [],
      by rw [answered, incoming, List.append_nil, List.append_nil],
        unrefused_reply accepted length [], fun _ => ?_⟩
    simp [length, acceptedChoice, choiceLength]
    omega
  | relayed reply rest state sent answered length accepted =>
    refine .inl ⟨by rw [sent], acceptedChoice ++ reply ++ rest, answered,
      unrefused_reply accepted length rest, fun _ => ?_⟩
    simp [length, acceptedChoice, choiceLength]
    omega
  | dead state running unhindered => exact .inl unhindered

/-- What has been received is what was answered and is not on the socket any more. -/
theorem received_eq (h : w.answered = got ++ w.fg.incoming) : w.received = got := by
  simp [received, h]

/-- In every phase the handshake is as it should be. -/
theorem Phase.handshakes (h : Phase sspec fspec w) : Handshakes sspec fspec w := by
  rcases h.unhindered_or_refused with hfree | ⟨hstate, hlength, hrefused, hincoming, hsent,
    hrunning, hcode⟩ | ⟨reply, hstate, hanswered, hlength, hrefused, hincoming, hsent, hrunning,
    hcode⟩
  · obtain ⟨got, hanswered, hunrefused, hget⟩ := hfree.told
    have hreceived : w.received = got := received_eq hanswered
    rw [← hreceived] at hunrefused hget
    refine ⟨hfree.sent_prefix, fun hstarted => ?_, fun hlong hchoice => ?_,
      fun hlong hchoice hreply => ?_⟩
    · have hlong := hget hstarted
      exact ⟨hlong, hunrefused.1 (le_trans (Nat.le_add_right _ _) hlong), hunrefused.2 hlong⟩
    · exact absurd (hunrefused.1 hlong) hchoice
    · exact absurd (hunrefused.2 hlong) hreply
  · have hreceived : w.received = w.answered := received_eq (by rw [hincoming, List.append_nil])
    refine ⟨by rw [hsent]; exact socksInit_prefix, ?_, fun _ _ => ⟨hrunning, hcode, hsent⟩, ?_⟩
    · rintro (⟨hsend, -⟩ | hlong)
      · rw [hstate] at hsend
        cases hsend
      · rw [hsent] at hlong
        exact absurd hlong (Nat.not_lt.mpr length_socksInit_lt.le)
    · intro hlong
      rw [hreceived, hlength] at hlong
      exact absurd hlong (by decide)
  · have hreceived : w.received = acceptedChoice ++ reply :=
      received_eq (by rw [hanswered, hincoming, List.append_nil])
    refine ⟨by rw [hsent]; exact overture_prefix, ?_, ?_, fun _ _ _ => ⟨hrunning, hcode, hsent⟩⟩
    · rintro (⟨hsend, -⟩ | hlong)
      · rw [hstate] at hsend
        cases hsend
      · rw [hsent] at hlong
        exact absurd hlong (lt_irrefl _)
    · intro _ hchoice
      exact absurd (by rw [hreceived]; rfl) hchoice

/-! ## The proxy answers -/

theorem receiving_incoming {fg : Filegetter} (h : Receiving fg sent got nextstate)
    (incoming : Bytes) : Receiving { fg with incoming := incoming } sent got nextstate :=
  ⟨h.state, h.nextstate, h.buf, h.offset, h.sent⟩

/-- A proxy that keeps silent. -/
theorem phase_silent {bytes : Bytes} (h : Phase sspec fspec w) (hbytes : bytes = []) :
    Phase sspec fspec { w with
      fg := { w.fg with incoming := w.fg.incoming ++ bytes }
      answered := w.answered ++ bytes } := by
  subst hbytes
  simpa using h

/-- An answer of the proxy keeps the phase. -/
theorem Phase.answer {bytes : Bytes} (h : Phase sspec fspec w)
    (hkeeps : ProxyKeeps sspec fspec w (.answer bytes)) :
    Phase sspec fspec { w with
      fg := { w.fg with incoming := w.fg.incoming ++ bytes }
      answered := w.answered ++ bytes } := by
  obtain ⟨hgreeting, hconnect, hget, hzero⟩ := hkeeps
  -- before the greeting and the CONNECT request have gone out, the proxy has nothing to answer
  have hsilent_greeting : w.fg.sent.length < socksInit.length → bytes = [] := by
    intro hlt
    by_contra hne
    exact absurd (hgreeting hne) (Nat.not_le.mpr hlt)
  have hchoice : w.fg.sent.length < (overture sspec).length →
      (w.answered ++ bytes).length ≤ choiceLength := by
    intro hlt
    by_contra hle
    exact absurd (hconnect (Nat.not_le.mp hle)) (Nat.not_le.mpr hlt)
  have hreply : w.fg.sent.length < (conversation sspec fspec).length →
      (w.answered ++ bytes).length ≤ choiceLength + replyLength := by
    intro hlt
    by_contra hle
    exact absurd (hget (Nat.not_le.mp hle)) (Nat.not_le.mpr hlt)
  have hsilent_full : ∀ n, w.answered.length = n → (w.answered ++ bytes).length ≤ n →
      bytes = [] := by
    intro n hn hle
    rw [List.length_append] at hle
    exact List.length_eq_zero_iff.mp (by omega)
  cases h with
  | fresh state buf offset sent running task answered incoming =>
    exact phase_silent (.fresh state buf offset sent running task answered incoming)
      (hsilent_greeting (by rw [sent]; decide))
  | greeting sending task answered incoming =>
    exact phase_silent (.greeting sending task answered incoming)
      (hsilent_greeting sending.length_sent_lt)
  | awaitsChoice got receiving task short answered length_le =>
    refine .awaitsChoice got (receiving_incoming receiving _) task short ?_ ?_
    · rw [answered, List.append_assoc]
    · exact hchoice (by rw [receiving.sent]; exact length_socksInit_lt)
  | choiceRefused state buf offset length refused incoming sent running code =>
    exact phase_silent (.choiceRefused state buf offset length refused incoming sent running code)
      (hsilent_full _ length (hchoice (by rw [sent]; exact length_socksInit_lt)))
  | connect sending task answered incoming =>
    exact phase_silent (.connect sending task answered incoming)
      (hsilent_full _ (by rw [answered]; rfl) (hchoice sending.length_sent_lt))
  | awaitsReply got receiving task short answered length_le zero =>
    have hlength := hreply (by rw [receiving.sent]; exact length_overture_lt)
    have happend : w.answered ++ bytes = acceptedChoice ++ (got ++ (w.fg.incoming ++ bytes)) := by
      rw [answered]
      simp only [List.append_assoc]
    rw [happend] at hlength hzero
    refine .awaitsReply got (receiving_incoming receiving _) task short happend ?_ fun hfull => ?_
    · have hchoice_length : acceptedChoice.length = choiceLength := rfl
      rw [List.length_append, hchoice_length] at hlength
      exact Nat.le_of_add_le_add_left hlength
    · exact hzero (by rw [List.length_append, hfull]; decide)
  | replyRefused reply state buf offset answered length zero refused incoming sent running code =>
    exact phase_silent
      (.replyRefused reply state buf offset answered length zero refused incoming sent running code)
      (hsilent_full _ (by rw [answered, List.length_append, length]; rfl)
        (hreply (by rw [sent]; exact length_overture_lt)))
  | get reply sending answered length accepted incoming =>
    exact phase_silent (.get reply sending answered length accepted incoming)
      (hsilent_full _ (by rw [answered, List.length_append, length]; rfl)
        (hreply sending.length_sent_lt))
  | relayed reply rest state sent answered length accepted =>
    refine .relayed reply rest state sent ?_ length accepted
    rw [answered]
    simp only [List.append_assoc]
  | dead state running unhindered =>
    obtain ⟨got, hanswered, hunrefused, hstarted⟩ := unhindered.told
    refine .dead state running ⟨unhindered.sent_prefix, got, ?_, hunrefused, hstarted⟩
    rw [hanswered]
    simp only [List.append_assoc]

/-! ## The getter goes on -/

/-- The getter is at a call of `send` or `recv`. -/
def AtCall (fg : Filegetter) : Prop := fg.state = .send ∨ fg.state = .receive

/-- At a call, a phase does not depend on whether an activation is under way. -/
theorem Phase.of_atCall {running : Bool} {code : Option GetterCode} (h : Phase sspec fspec w)
    (hat : AtCall w.fg) : Phase sspec fspec { w with running := running, code := code } := by
  cases h with
  | fresh state buf offset sent _ task answered incoming => simp [AtCall, state] at hat
  | greeting sending task answered incoming => exact .greeting sending task answered incoming
  | awaitsChoice got receiving task short answered length_le =>
    exact .awaitsChoice got receiving task short answered length_le
  | choiceRefused state buf offset length refused incoming sent _ _ =>
    simp [AtCall, state] at hat
  | connect sending task answered incoming => exact .connect sending task answered incoming
  | awaitsReply got receiving task short answered length_le zero =>
    exact .awaitsReply got receiving task short answered length_le zero
  | replyRefused reply state buf offset answered length zero refused incoming sent _ _ =>
    simp [AtCall, state] at hat
  | get reply sending answered length accepted incoming =>
    exact .get reply sending answered length accepted incoming
  | relayed reply rest state sent answered length accepted =>
    rcases state with hawaits | ⟨hspec, -⟩
    · exact .relayed reply rest (.inl hawaits) sent answered length accepted
    · simp [AtCall, hspec] at hat
  | dead state _ unhindered => simp [AtCall, state] at hat

/-- A getter that shuts down has sent and received what it had before. -/
theorem Unhindered.dead {fg' : Filegetter} {code : GetterCode} (h : Unhindered sspec fspec w)
    (hidle : fg'.state = .idle) (hsent : fg'.sent = w.fg.sent)
    (hincoming : fg'.incoming = w.fg.incoming) :
    Phase sspec fspec (w.enter (.return fg' code)) := by
  obtain ⟨got, hanswered, hunrefused, hget⟩ := h.told
  refine .dead hidle rfl ⟨?_, got, ?_, hunrefused, ?_⟩
  · change fg'.sent <+: _
    rw [hsent]
    exact h.sent_prefix
  · change w.answered = got ++ fg'.incoming
    rw [hincoming]
    exact hanswered
  · rintro (⟨hsend, -⟩ | hlong)
    · change fg'.state = .send at hsend
      rw [hidle] at hsend
      cases hsend
    · change _ < fg'.sent.length at hlong
      rw [hsent] at hlong
      exact hget (.inr hlong)

/-- A getter at a call is unhindered. -/
theorem Phase.unhindered (h : Phase sspec fspec w) (hat : AtCall w.fg) :
    Unhindered sspec fspec w := by
  rcases h.unhindered_or_refused with hfree | ⟨hstate, -⟩ | ⟨_, hstate, -⟩
  · exact hfree
  · simp [AtCall, hstate] at hat
  · simp [AtCall, hstate] at hat

/-- A call that passes nothing. -/
theorem Phase.passes (h : Phase sspec fspec w) (hat : AtCall w.fg) (hpass : Passes w.fg result) :
    Phase sspec fspec (w.enter result) := by
  rcases hpass with rfl | ⟨fg', rfl, hidle, hsent, hincoming⟩
  · exact h.of_atCall hat
  · exact (h.unhindered hat).dead hidle hsent hincoming

/-- The getter looks at what there is of the method choice. -/
theorem phase_of_choice {fg : Filegetter}
    (hhost : sspec.useHostname = true → sspec.hostnameLength ≤ strSize)
    (hstate : fg.state = .replySocksInit) (hbuf : fg.buf = got) (hoffset : fg.bufReadOffset = 0)
    (hsent : fg.sent = socksInit) (htask : Tasked sspec fspec fg)
    (hanswered : w.answered = got ++ fg.incoming) (hlength : w.answered.length ≤ choiceLength)
    (hproceed : fg.proceed around = .ok result) : Phase sspec fspec (w.enter result) := by
  have hsplit : got.length + fg.incoming.length ≤ choiceLength := by
    rw [hanswered, List.length_append] at hlength
    exact hlength
  rcases Nat.lt_or_ge got.length choiceLength with hshort | hfull
  · rw [proceed_replySocksInit_of_short hstate hbuf hoffset hshort] at hproceed
    obtain rfl := Except.ok.inj hproceed
    exact .awaitsChoice got ⟨rfl, rfl, hbuf, hoffset, hsent⟩ htask hshort hanswered hlength
  · have hgot : got.length = choiceLength := by omega
    have hincoming : fg.incoming = [] := List.length_eq_zero_iff.mp (by omega)
    have hall : w.answered = got := by rw [hanswered, hincoming, List.append_nil]
    rcases proceed_replySocksInit_of_length hstate hbuf hoffset hgot hproceed with
      ⟨hrefused, rfl⟩ | ⟨haccepted, hconn⟩
    · exact .choiceRefused hstate (hbuf.trans hall.symm) hoffset (hall ▸ hgot) (hall ▸ hrefused)
        hincoming hsent rfl rfl
    · obtain ⟨hsspec, hfspec⟩ := htask
      rw [← hsspec] at hhost
      obtain rfl := requestSocksConn_eq (by exact hhost) hconn
      refine .connect (sending_sendThen (connectRequest_ne_nil _ _) ?_ rfl hsent)
        ⟨hsspec, hfspec⟩ (hall.trans haccepted) hincoming
      change fg.buf ++ connectRequest fg.sspec.httpPort fg.sspec.destination = _
      rw [hbuf, haccepted, hsspec]

/-- The getter looks at what there is of the reply. -/
theorem phase_of_reply {fg : Filegetter} (hstate : fg.state = .replySocksConn)
    (hbuf : fg.buf = got) (hoffset : fg.bufReadOffset = 0) (hsent : fg.sent = overture sspec)
    (htask : Tasked sspec fspec fg)
    (hanswered : w.answered = acceptedChoice ++ (got ++ fg.incoming))
    (hlength : (got ++ fg.incoming).length ≤ replyLength)
    (hzero : (got ++ fg.incoming).length = replyLength →
      ((got ++ fg.incoming).drop 4).take 4 = [0, 0, 0, 0])
    (hproceed : fg.proceed around = .ok result) : Phase sspec fspec (w.enter result) := by
  have hsplit : got.length + fg.incoming.length ≤ replyLength := by
    rw [List.length_append] at hlength
    exact hlength
  rcases Nat.lt_or_ge got.length replyLength with hshort | hfull
  · rw [proceed_replySocksConn_of_short hstate hbuf hoffset hshort] at hproceed
    obtain rfl := Except.ok.inj hproceed
    exact .awaitsReply got ⟨rfl, rfl, hbuf, hoffset, hsent⟩ htask hshort hanswered hlength hzero
  · have hgot : got.length = replyLength := by omega
    have hincoming : fg.incoming = [] := List.length_eq_zero_iff.mp (by omega)
    rw [hincoming, List.append_nil] at hanswered hzero
    rcases proceed_replySocksConn_of_length hstate hbuf hoffset hgot (hzero hgot) hproceed with
      ⟨hrefused, rfl⟩ | ⟨haccepted, hget⟩
    · exact .replyRefused got hstate hbuf hoffset hanswered hgot (hzero hgot) hrefused hincoming
        hsent rfl rfl
    · obtain ⟨hsspec, hfspec⟩ := htask
      have hfree : Unhindered sspec fspec { w with fg := fg } := by
        refine ⟨?_, acceptedChoice ++ got ++ [], ?_, unrefused_reply haccepted hgot [], ?_⟩
        · change fg.sent <+: _
          rw [hsent]
          exact overture_prefix
        · change w.answered = _ ++ fg.incoming
          rw [hanswered, hincoming, List.append_nil, List.append_nil]
        · intro _
          simp only [List.length_append, List.length_nil, hgot]
          exact le_rfl
      rcases requestHttp_eq hget with rfl | rfl
      · exact hfree.dead rfl rfl rfl
      · refine .get got (sending_sendThen (getRequest_ne_nil _ _) ?_ hgot.symm hsent) hanswered
          hgot haccepted hincoming
        change fg.buf ++ Filegetter.getRequest fg.fspec.remotePath fg.sspec.httpHostname = _
        rw [hbuf, hsspec, hfspec]

/-- The getter looks at the file server's reply. -/
theorem phase_of_relays {fg : Filegetter} {reply rest : Bytes} (hrelays : Relays fg result)
    (hsent : fg.sent = conversation sspec fspec)
    (hanswered : w.answered = acceptedChoice ++ reply ++ rest ++ fg.incoming)
    (hlength : reply.length = replyLength) (haccepted : AcceptedReply reply) :
    Phase sspec fspec (w.enter result) := by
  cases result with
  | call fg' =>
    obtain ⟨hsent', hincoming', hawaits⟩ := hrelays
    refine .relayed reply rest (.inl hawaits) (hsent'.trans hsent) ?_ hlength haccepted
    change w.answered = _ ++ fg'.incoming
    rw [hincoming']
    exact hanswered
  | «return» fg' code =>
    obtain ⟨hsent', hincoming', hspec | hidle⟩ := hrelays
    · refine .relayed reply rest (.inr ⟨hspec, rfl⟩) (hsent'.trans hsent) ?_ hlength haccepted
      change w.answered = _ ++ fg'.incoming
      rw [hincoming']
      exact hanswered
    · have hfree : Unhindered sspec fspec { w with fg := fg } := by
        refine ⟨by rw [hsent], acceptedChoice ++ reply ++ rest, hanswered,
          unrefused_reply haccepted hlength rest, fun _ => ?_⟩
        simp only [List.length_append, hlength]
        exact Nat.le_add_right _ _
      exact hfree.dead hidle hsent' hincoming'

/-- One call of `send` or `recv`. -/
theorem Phase.of_call (hhost : sspec.useHostname = true → sspec.hostnameLength ≤ strSize)
    (h : Phase sspec fspec w) (hat : AtCall w.fg)
    (hcall : (if w.fg.state = .send then w.fg.send call else w.fg.receive call) = .ok result) :
    Phase sspec fspec (w.enter result) := by
  cases id h with
  | fresh state => simp [AtCall, state] at hat
  | greeting sending task answered incoming =>
    rw [if_pos sending.state] at hcall
    rcases sending.send hcall with hpass | ⟨fg', rfl, hsame, hsending⟩ |
      ⟨fg', hproceed, hsame, hstate, hbuf, hoffset, hsent⟩
    · exact h.passes hat hpass
    · exact .greeting hsending ⟨hsame.sspec.trans task.1, hsame.fspec.trans task.2⟩ answered
        (hsame.incoming.trans incoming)
    · rw [proceed_toReplySocksInit hstate] at hproceed
      obtain rfl := Except.ok.inj hproceed
      have hincoming : fg'.incoming = [] := hsame.incoming.trans incoming
      refine .awaitsChoice [] ⟨rfl, rfl, hbuf, hoffset, hsent⟩
        ⟨hsame.sspec.trans task.1, hsame.fspec.trans task.2⟩ (by decide) ?_ ?_
      · change w.answered = [] ++ fg'.incoming
        rw [answered, hincoming]
        rfl
      · change w.answered.length ≤ _
        rw [answered]
        exact Nat.zero_le _
  | awaitsChoice got receiving task short answered length_le =>
    rw [receiving.state, if_neg (by decide)] at hcall
    rcases receive_cases hcall with hpass | ⟨bytes, rest, hsplit, hrest, hproceed⟩
    · exact h.passes hat hpass
    · have hbuf : (w.fg.received bytes).buf = got ++ bytes := by
        rw [← receiving.buf]
        rfl
      refine phase_of_choice hhost receiving.nextstate hbuf receiving.offset receiving.sent task
        ?_ length_le hproceed
      rw [hrest, answered, hsplit, List.append_assoc]
  | choiceRefused state => simp [AtCall, state] at hat
  | connect sending task answered incoming =>
    rw [if_pos sending.state] at hcall
    rcases sending.send hcall with hpass | ⟨fg', rfl, hsame, hsending⟩ |
      ⟨fg', hproceed, hsame, hstate, hbuf, hoffset, hsent⟩
    · exact h.passes hat hpass
    · exact .connect hsending ⟨hsame.sspec.trans task.1, hsame.fspec.trans task.2⟩ answered
        (hsame.incoming.trans incoming)
    · rw [proceed_toReplySocksConn hstate] at hproceed
      obtain rfl := Except.ok.inj hproceed
      have hincoming : fg'.incoming = [] := hsame.incoming.trans incoming
      refine .awaitsReply [] ⟨rfl, rfl, hbuf, hoffset, hsent⟩
        ⟨hsame.sspec.trans task.1, hsame.fspec.trans task.2⟩ (by decide) ?_ ?_ ?_
      · change w.answered = acceptedChoice ++ ([] ++ fg'.incoming)
        rw [answered, hincoming]
        rfl
      · change ([] ++ fg'.incoming).length ≤ _
        rw [hincoming]
        exact Nat.zero_le _
      · change ([] ++ fg'.incoming).length = _ → _
        rw [hincoming]
        intro hzero
        exact absurd hzero (by decide)
  | awaitsReply got receiving task short answered length_le zero =>
    rw [receiving.state, if_neg (by decide)] at hcall
    rcases receive_cases hcall with hpass | ⟨bytes, rest, hsplit, hrest, hproceed⟩
    · exact h.passes hat hpass
    · have hall : got ++ bytes ++ rest = got ++ w.fg.incoming := by
        rw [hsplit, List.append_assoc]
      have hbuf : (w.fg.received bytes).buf = got ++ bytes := by
        rw [← receiving.buf]
        rfl
      refine phase_of_reply receiving.nextstate hbuf receiving.offset receiving.sent task
        ?_ ?_ ?_ hproceed
      · rw [hrest, hall]
        exact answered
      · rw [hrest, hall]
        exact length_le
      · rw [hrest, hall]
        exact zero
  | replyRefused _ state => simp [AtCall, state] at hat
  | get reply sending answered length accepted incoming =>
    rw [if_pos sending.state] at hcall
    rcases sending.send hcall with hpass | ⟨fg', rfl, hsame, hsending⟩ |
      ⟨fg', hproceed, hsame, hstate, hbuf, hoffset, hsent⟩
    · exact h.passes hat hpass
    · exact .get reply hsending answered length accepted (hsame.incoming.trans incoming)
    · rw [proceed_toReplyHttp hstate] at hproceed
      obtain rfl := Except.ok.inj hproceed
      have hincoming : fg'.incoming = [] := hsame.incoming.trans incoming
      refine .relayed reply [] (.inl ⟨rfl, .inl rfl⟩) hsent ?_ length accepted
      change w.answered = acceptedChoice ++ reply ++ [] ++ fg'.incoming
      rw [answered, hincoming, List.append_nil, List.append_nil]
  | relayed reply rest state sent answered length accepted =>
    rcases state with hawaits | ⟨hspec, -⟩
    · rw [hawaits.1, if_neg (by decide)] at hcall
      rcases hawaits.receive hcall with hpass | ⟨bytes, left, hsplit, hrest, hrelays⟩
      · exact h.passes hat hpass
      · have hanswered : w.answered =
            acceptedChoice ++ reply ++ (rest ++ bytes) ++ (w.fg.received bytes).incoming := by
          rw [hrest, answered, hsplit]
          simp only [List.append_assoc]
        exact phase_of_relays hrelays sent hanswered length accepted
    · simp [AtCall, hspec] at hat
  | dead state => simp [AtCall, state] at hat

/-- At a call, an activation begins with this call. -/
theorem proceed_of_atCall (h : AtCall fg) : fg.proceed around = .ok (.call fg) := by
  rcases h with hstate | hstate
  · simp [Filegetter.proceed, hstate]
  · simp [Filegetter.proceed, hstate]

/-- The beginning of an activation. -/
theorem Phase.of_activate (h : Phase sspec fspec w) (hassert : w.fg.AssertState)
    (hproceed : w.fg.proceed around = .ok result) : Phase sspec fspec (w.enter result) := by
  by_cases hat : AtCall w.fg
  · rw [proceed_of_atCall hat] at hproceed
    obtain rfl := Except.ok.inj hproceed
    exact h.of_atCall hat
  · cases h with
    | fresh state buf offset sent running task answered incoming =>
      simp only [Filegetter.proceed, state, Filegetter.requestSocksInit] at hproceed
      split_ifs at hproceed
      obtain rfl := Except.ok.inj hproceed
      refine .greeting (sending_sendThen (by decide) ?_ offset sent) task answered incoming
      change w.fg.buf ++ socksInit = _
      rw [buf]
    | greeting sending => exact absurd (.inl sending.state) hat
    | awaitsChoice got receiving => exact absurd (.inr receiving.state) hat
    | choiceRefused state buf offset length refused incoming sent running code =>
      rcases proceed_replySocksInit_of_length state buf offset length hproceed with
        ⟨-, rfl⟩ | ⟨haccepted, -⟩
      · exact .choiceRefused state buf offset length refused incoming sent rfl rfl
      · exact absurd haccepted refused
    | connect sending => exact absurd (.inl sending.state) hat
    | awaitsReply got receiving => exact absurd (.inr receiving.state) hat
    | replyRefused reply state buf offset answered length zero refused incoming sent running code =>
      rcases proceed_replySocksConn_of_length state buf offset length zero hproceed with
        ⟨-, rfl⟩ | ⟨haccepted, -⟩
      · exact .replyRefused reply state buf offset answered length zero refused incoming sent
          rfl rfl
      · exact absurd haccepted refused
    | get reply sending => exact absurd (.inl sending.state) hat
    | relayed reply rest state sent answered length accepted =>
      rcases state with hawaits | ⟨hspec, -⟩
      · exact absurd (.inr hawaits.1) hat
      · simp only [Filegetter.proceed, hspec] at hproceed
        obtain rfl := Except.ok.inj hproceed
        exact .relayed reply rest (.inr ⟨hspec, rfl⟩) sent answered length accepted
    | dead state => exact absurd state hassert.1

/-- While an activation is under way, the getter is at a call. -/
theorem Phase.atCall_of_running (h : Phase sspec fspec w) (hrunning : w.running = true) :
    AtCall w.fg := by
  cases h with
  | greeting sending | connect sending => exact .inl sending.state
  | get reply sending => exact .inl sending.state
  | awaitsChoice got receiving | awaitsReply got receiving => exact .inr receiving.state
  | relayed reply rest state =>
    rcases state with hawaits | ⟨-, hrest⟩
    · exact .inr hawaits.1
    · exact absurd hrunning (by simp [hrest])
  | fresh _ _ _ _ hrest | dead _ hrest => exact absurd hrunning (by simp [hrest])
  | choiceRefused _ _ _ _ _ _ _ hrest => exact absurd hrunning (by simp [hrest])
  | replyRefused _ _ _ _ _ _ _ _ _ _ hrest => exact absurd hrunning (by simp [hrest])

/-- Every step leads from one phase to a phase. -/
theorem Phase.step {e : HandshakeEvent}
    (hhost : sspec.useHostname = true → sspec.hostnameLength ≤ strSize)
    (h : Phase sspec fspec w) (hkeeps : ProxyKeeps sspec fspec w e)
    (hstep : Handshake.step w e = .ok w') : Phase sspec fspec w' := by
  cases e with
  | activate around =>
    simp only [Handshake.step] at hstep
    split_ifs at hstep with hrunning hassert
    · obtain rfl := Except.ok.inj hstep
      exact h
    · cases hproceed : w.fg.proceed around with
      | error fault => simp [hproceed, Except.map] at hstep
      | ok next =>
        rw [hproceed] at hstep
        obtain rfl := Except.ok.inj hstep
        exact h.of_activate hassert hproceed
  | call call =>
    simp only [Handshake.step] at hstep
    split_ifs at hstep with hrunning hsend
    · cases hcall : w.fg.send call with
      | error fault => simp [hcall, Except.map] at hstep
      | ok next =>
        rw [hcall] at hstep
        obtain rfl := Except.ok.inj hstep
        exact h.of_call hhost (h.atCall_of_running hrunning) (by rw [if_pos hsend]; exact hcall)
    · cases hcall : w.fg.receive call with
      | error fault => simp [hcall, Except.map] at hstep
      | ok next =>
        rw [hcall] at hstep
        obtain rfl := Except.ok.inj hstep
        exact h.of_call hhost (h.atCall_of_running hrunning) (by rw [if_neg hsend]; exact hcall)
    · obtain rfl := Except.ok.inj hstep
      exact h
  | block =>
    simp only [Handshake.step] at hstep
    split_ifs at hstep with hrunning
    · obtain rfl := Except.ok.inj hstep
      exact h.of_atCall (h.atCall_of_running hrunning)
    · obtain rfl := Except.ok.inj hstep
      exact h
  | answer bytes =>
    obtain rfl := Except.ok.inj hstep
    exact h.answer hkeeps

/-- What `filegetter_set_specs` leaves of a getter that waits for its specifications. -/
theorem setSpecs_of_spec {fg₀ : Filegetter} (hspec : fg₀.state = .spec) (sspec : ServerSpec)
    (fspec : FileSpec) (fopenOk : Bool) :
    ∃ fg code, fg₀.setSpecs sspec fspec fopenOk = (fg, code) ∧ Tasked sspec fspec fg ∧
      fg.sockd = fg₀.sockd ∧ (code = .success → fg.buf = [] ∧ fg.bufReadOffset = 0) := by
  unfold Filegetter.setSpecs
  rw [if_neg (not_not.mpr hspec)]
  dsimp only
  by_cases hopen : fspec.doSave = true ∧ ¬fopenOk = true
  · rw [if_pos hopen]
    exact ⟨_, _, rfl, ⟨rfl, rfl⟩, rfl, by simp⟩
  · rw [if_neg hopen]
    exact ⟨_, _, rfl, ⟨rfl, rfl⟩, rfl, fun _ => ⟨rfl, rfl⟩⟩

/-- A getter that has connected to a proxy is about to send its greeting, whatever it did before. -/
theorem phase_begin {fg₀ : Filegetter} {sockd : Int} {fopenOk : Bool} {now : Timespec}
    (hspec : fg₀.state = .spec) (hnew : ¬(sspec.persistent = true ∧ fg₀.sockd > 0))
    (hsocks : sspec.hasSocks = true)
    (hdownload : fg₀.download sspec fspec fopenOk (.connected sockd []) now = (fg, .success)) :
    Phase sspec fspec (begin fg) := by
  obtain ⟨fg', code, hset, ⟨rfl, rfl⟩, hsockd, hbuf⟩ := setSpecs_of_spec hspec sspec fspec fopenOk
  simp only [Filegetter.download, hset, hsockd, hsocks, Filegetter.connect] at hdownload
  rw [if_neg hnew] at hdownload
  split_ifs at hdownload with hcode
  · obtain ⟨rfl, -⟩ := Prod.mk.inj hdownload
    exact .fresh rfl (hbuf hcode).1 (hbuf hcode).2 rfl rfl ⟨rfl, rfl⟩ rfl rfl
  · exact absurd (Prod.mk.inj hdownload).2 hcode

/-- With a proxy that keeps to the protocol, in every run of a download that opens a connection: the
bytes sent are the beginning of the greeting, the CONNECT request and the GET request; the GET
request starts when both answers of the proxy were received in full and let it start; and any other
answer ends in an error without it. -/
theorem handshakes_of_proxyKeeps {fg₀ : Filegetter} {sockd : Int} {fopenOk : Bool}
    {now : Timespec} {es : List HandshakeEvent} (hspec : fg₀.state = .spec)
    (hnew : ¬(sspec.persistent = true ∧ fg₀.sockd > 0)) (hsocks : sspec.hasSocks = true)
    (hhost : sspec.useHostname = true → sspec.hostnameLength ≤ 255)
    (hdownload : fg₀.download sspec fspec fopenOk (.connected sockd []) now = (fg, .success))
    (hkeeps : StepsMeet step (ProxyKeeps sspec fspec) (begin fg) es)
    (hrun : runSteps step (begin fg) es = .ok w) : Handshakes sspec fspec w := by
  have hroom : sspec.useHostname = true → sspec.hostnameLength ≤ strSize := fun huse =>
    (hhost huse).trans (by decide)
  have hphase : Phase sspec fspec w :=
    invariant_of_stepsMeet (Phase sspec fspec)
      (fun _ _ _ hphase hkeeps hstep => hphase.step hroom hkeeps hstep)
      (phase_begin hspec hnew hsocks hdownload) hkeeps hrun
  exact hphase.handshakes

/-! ## A handshake with a hostname -/

/-- A server behind a proxy, given by its name. -/
def namedServer : ServerSpec :=
  { ServerSpec.zero with
    httpHostname := ascii "a.b"
    httpPort := ⟨[0, 80], rfl⟩
    socksAddr := ⟨[127, 0, 0, 1], rfl⟩
    socksPort := ⟨[35, 40], rfl⟩
    useHostname := true
    hostnameLength := 3 }

/-- The file to get. -/
def wantedFile : FileSpec :=
  { remotePath := ascii "/x", localPath := [], doSave := false, saveToMemory := false }

/-- A getter that has done a download, and has read its buffer up to the end. -/
def usedGetter : Filegetter :=
  { Filegetter.start with
    sockd := 3
    buf := ascii "HTTP"
    bufReadOffset := 4
    sent := ascii "GET" }

/-- The getter once it has connected to the proxy. -/
def connectedGetter : Filegetter :=
  (usedGetter.download namedServer wantedFile true (.connected 4 []) ⟨0, 0⟩).1

/-- Surroundings in which nothing goes wrong. -/
def quiet : Surroundings where
  firstByte := ⟨1, 0⟩
  progress := ⟨1, 0⟩
  complete := ⟨1, 0⟩
  fwriteOk := true
  reconnect := .failed

/-- A call that passes at most `k + 1` bytes. -/
def passing (k : Nat) : HandshakeEvent := .call ⟨.ready k, quiet⟩

/-- The greeting goes out in two pieces, and both answers arrive in two. -/
def namedRun : List HandshakeEvent :=
  [.activate quiet, passing 0, passing 9, .answer [5], passing 9, .block, .answer [0],
    .activate quiet, passing 9, passing 99, .answer [5, 0, 0, 1], passing 9,
    .answer [0, 0, 0, 0, 0, 0], passing 9, passing 4]

/-- Five bytes of the GET request have gone out. -/
theorem handshakes_of_proxyKeeps_namedServer :
    ∃ w, runSteps step (begin connectedGetter) namedRun = .ok w ∧
      w.fg.sent = [5, 1, 0] ++ [5, 1, 0, 3, 3] ++ ascii "a.b" ++ [0, 80] ++ ascii "GET /" ∧
      Handshakes namedServer wantedFile w := by
  have hok : (runSteps step (begin connectedGetter) namedRun).toOption.map (·.fg.sent) =
      some ([5, 1, 0] ++ [5, 1, 0, 3, 3] ++ ascii "a.b" ++ [0, 80] ++ ascii "GET /") := by
    decide +kernel
  cases hrun : runSteps step (begin connectedGetter) namedRun with
  | error fault => simp [hrun, Except.toOption] at hok
  | ok w =>
    refine ⟨w, rfl, by simpa [hrun, Except.toOption] using hok, ?_⟩
    have hdownload : usedGetter.download namedServer wantedFile true (.connected 4 []) ⟨0, 0⟩ =
        (connectedGetter, .success) := by decide +kernel
    exact handshakes_of_proxyKeeps (by decide) (by decide) (by decide) (by decide) hdownload
      (by decide +kernel) hrun

end Handshake

end ShadowExtras.FileTransfer
