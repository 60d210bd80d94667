import ShadowExtras.FileTransfer.FilegetterReply
import ShadowExtras.FileTransfer.SocksHandshake

/-!
# The buffer of the getter

The getter writes requests and receives answers behind what its buffer holds already, and goes back
to the beginning of the buffer only when all was sent or when a piece of a body was saved. Nothing
in between asks whether there is room for the next byte: the header of a reply, or what a proxy
sends behind its answer, may fill the buffer.

The first part says which indices of the buffer each step writes. The second part shows that the
offsets stay where they should, in every run in which each request still finds room (`Roomy`).
-/

namespace ShadowExtras.FileTransfer

open Foundation

/-! ## What is written to the buffer -/

/-- The length of the CONNECT request. -/
def ServerSpec.connectLength (sspec : ServerSpec) : ℕ :=
  if sspec.useHostname then 4 + 1 + sspec.hostnameLength + 2 else 4 + 6

namespace Filegetter

/-- The state whose code writes to the buffer: an answer of the proxy that lets the getter go on
leads to the state that writes the next request. -/
def writer (fg : Filegetter) (around : Surroundings) : GetterState :=
  match fg.state with
  | .replySocksInit =>
    match fg.buf.drop fg.bufReadOffset with
    | version :: method :: _ =>
      if version ≠ 5 ∨ method ≠ 0 then .replySocksInit else .requestSocksConn
    | _ => .replySocksInit
  | .replySocksConn =>
    match fg.buf.drop fg.bufReadOffset with
    | version :: reply :: _ :: addressType :: a :: b :: c :: d :: p :: q :: _ =>
      if version ≠ 5 ∨ reply ≠ 0 ∨ addressType ≠ 1 then .replySocksConn
      else if ([a, b, c, d] ≠ [0, 0, 0, 0] ∧ [p, q] ≠ [0, 0]) ∧ around.reconnect = .failed then
        .replySocksConn
      else .requestHttp
    | _ => .replySocksConn
  | state => state

/-- The length of the request that a state writes. -/
def requestLength (fg : Filegetter) : GetterState → ℕ
  | .requestSocksInit => socksInit.length
  | .requestSocksConn => fg.sspec.connectLength
  | .requestHttp => (getRequest fg.fspec.remotePath fg.sspec.httpHostname).length
  | _ => 0

/-- Where `FG_REPLY_HTTP` ends a complete header with a NUL. -/
def headerEnd (fg : Filegetter) : Option ℕ :=
  let text := cString (fg.buf.drop fg.bufReadOffset)
  match strcasestr http404 text, strcasestr http200 text, strcasestr contentText text with
  | none, some _, some _ => (strcasestr twoCrlf text).map (fg.bufReadOffset + ·)
  | _, _, _ => none

/-- The indices of the buffer that are written from one state up to the next call. -/
def stateWrites (fg : Filegetter) (around : Surroundings) : List ℕ :=
  let offset := fg.buf.length
  let length := fg.requestLength (fg.writer around)
  match fg.writer around with
  | .requestSocksInit | .requestSocksConn =>
    -- the assertion comes before the first `memcpy`
    if bufSize - offset < length then [] else List.range' offset length
  | .requestHttp =>
    -- `snprintf` writes a NUL behind the request, all within the space that it is given
    List.range' offset (min (length + 1) (bufSize - offset))
  | .replyHttp => offset :: fg.headerEnd.toList
  | _ => []

/-- What a call of `recv` delivers. -/
def delivered (fg : Filegetter) (call : Call) : Bytes :=
  (call.answer.recv fg.incoming (bufSize - fg.buf.length)).toOption.getD []

/-- The indices of the buffer that are written by a call and from there up to the next call. -/
def callWrites (fg : Filegetter) (call : Call) : List ℕ :=
  if fg.state = .send then
    match call.answer.send (fg.buf.length - fg.bufReadOffset) with
    | .ok (bytes + 1) =>
      if fg.bufReadOffset + (bytes + 1) = fg.buf.length then
        { fg.advance (bytes + 1) with
          buf := [], bufReadOffset := 0, state := fg.nextstate }.stateWrites call.around
      else []
    | _ => []
  else if fg.delivered call = [] then []
  else
    List.range' fg.buf.length (fg.delivered call).length ++
      (fg.received (fg.delivered call)).stateWrites call.around

/-- The offsets as `FG_ASSERTSTATE` demands them. -/
def OffsetsInside (fg : Filegetter) : Prop :=
  fg.bufReadOffset < bufSize ∧ fg.buf.length < bufSize ∧ fg.bufReadOffset ≤ fg.buf.length

end Filegetter

/-! ## Runs of downloads and activations -/

/-- What happens to a getter: a step of an activation, or `filegetter_download`. -/
inductive Occurrence
  | event (e : HandshakeEvent)
  | download (sspec : ServerSpec) (fspec : FileSpec) (fopenOk : Bool) (connection : Connect)
      (now : Timespec)
  deriving DecidableEq, Repr

namespace Handshake

/-- One step; a download within an activation does nothing. -/
def occur (w : Handshake) : Occurrence → Except Fault Handshake
  | .event e => w.step e
  | .download sspec fspec fopenOk connection now =>
    .ok (if w.running then w
      else { w with fg := (w.fg.download sspec fspec fopenOk connection now).1 })

/-- The indices of the buffer that a step writes. -/
def writes (w : Handshake) : Occurrence → List ℕ
  | .event (.activate around) =>
    if ¬w.running ∧ w.fg.AssertState then w.fg.stateWrites around else []
  | .event (.call call) => if w.running then w.fg.callWrites call else []
  | _ => []

/-- The next step does not overrun the buffer: an activation is entered with the offsets that
`FG_ASSERTSTATE` demands, `recv` is called with some space, and nothing is written outside. -/
structure Contained (w : Handshake) (o : Occurrence) : Prop where
  entry : ∀ around, o = .event (.activate around) → w.running = false → w.fg.OffsetsInside
  space : w.running = true → w.fg.state = .receive → w.fg.buf.length < bufSize
  writes : ∀ i ∈ w.writes o, i < bufSize

end Handshake

namespace Filegetter

/-- There is room for what the state writes behind the bytes in the buffer. A piece of a body may
fill the buffer, as long as it can be saved. -/
def HasRoom (fg : Filegetter) (around : Surroundings) : Prop :=
  fg.buf.length + fg.requestLength (fg.writer around) < bufSize ∨
    fg.state = .checkDownload ∧ (fg.f = true → around.fwriteOk = true)

instance (fg : Filegetter) (around : Surroundings) : Decidable (fg.HasRoom around) := by
  unfold HasRoom
  infer_instance

end Filegetter

namespace Handshake

/-- When an activation starts and after each `recv` there is room for what is written next. -/
def Roomy (w : Handshake) : Occurrence → Prop
  | .event (.activate around) => w.running = false → w.fg.HasRoom around
  | .event (.call call) =>
    w.running = true → w.fg.state = .receive → w.fg.delivered call ≠ [] →
      (w.fg.received (w.fg.delivered call)).HasRoom call.around
  | _ => True

instance (w : Handshake) (o : Occurrence) : Decidable (w.Roomy o) := by
  unfold Roomy
  split <;> infer_instance

end Handshake

/-! ## The states keep the offsets inside -/

namespace Filegetter

open Handshake (AtCall)

variable {fg : Filegetter} {around : Surroundings} {call : Call} {result : Next} {message : Bytes}
  {nextstate : GetterState}

/-- The offsets are inside the buffer, and after sending the getter turns to receiving. -/
structure Bounded (fg : Filegetter) : Prop where
  offset_le : fg.bufReadOffset ≤ fg.buf.length
  length_lt : fg.buf.length < bufSize
  sends : fg.state = .send → fg.nextstate = .toReplySocksInit ∨ fg.nextstate = .toReplySocksConn ∨
    fg.nextstate = .toReplyHttp
  receives : fg.state = .receive → fg.nextstate ≠ .send

/-- Where a state leads, the offsets are inside. -/
def Confined : Next → Prop
  | .call fg => fg.Bounded ∧ AtCall fg
  | .return fg _ => fg.Bounded

/-- An empty buffer. -/
theorem bounded_of_nil (hbuf : fg.buf = []) (hoffset : fg.bufReadOffset = 0)
    (hsend : fg.state ≠ .send) (hreceive : fg.nextstate ≠ .send) : fg.Bounded := by
  refine ⟨?_, ?_, fun hstate => absurd hstate hsend, fun _ => hreceive⟩
  · rw [hoffset]
    exact Nat.zero_le _
  · rw [hbuf]
    decide

theorem confined_die (hoffset : fg.bufReadOffset ≤ fg.buf.length)
    (hlength : fg.buf.length < bufSize) :
    Confined fg.die :=
  ⟨hoffset, hlength, by simp [shutdown], by simp [shutdown]⟩

/-- A message that fits stays in the buffer. -/
theorem confined_sendThen (hoffset : fg.bufReadOffset ≤ fg.buf.length)
    (hroom : fg.buf.length + message.length < bufSize)
    (hnext : nextstate = .toReplySocksInit ∨ nextstate = .toReplySocksConn ∨
      nextstate = .toReplyHttp) :
    Confined (.call ({ fg with buf := fg.buf ++ message }.sendThen nextstate)) := by
  refine ⟨⟨?_, ?_, fun _ => hnext, by simp [sendThen]⟩, .inl rfl⟩
  · simp only [sendThen, List.length_append]
    omega
  · simp only [sendThen, List.length_append]
    exact hroom

/-- Waiting for a reply stays in the buffer. -/
theorem confined_toReply (hoffset : fg.bufReadOffset ≤ fg.buf.length)
    (hlength : fg.buf.length < bufSize) (hnext : nextstate ≠ .send) :
    Confined (.call (fg.toReply nextstate)) :=
  ⟨⟨hoffset, hlength, by simp [toReply], fun _ => hnext⟩, .inr rfl⟩

/-- The first message to the proxy stays in the buffer. -/
theorem confined_requestSocksInit (hoffset : fg.bufReadOffset ≤ fg.buf.length)
    (hroom : fg.buf.length + socksInit.length < bufSize)
    (hstep : fg.requestSocksInit = .ok result) :
    Confined result := by
  unfold requestSocksInit at hstep
  split at hstep
  · cases hstep
  · obtain rfl := Except.ok.inj hstep
    exact confined_sendThen hoffset hroom (.inl rfl)

/-- The CONNECT request has the length that the assertion asks for. -/
theorem length_socksRequest {sspec : ServerSpec}
    (hhost : ¬(sspec.useHostname = true ∧ sspec.hostnameLength > strSize)) :
    (socksRequest sspec).length = sspec.connectLength := by
  unfold socksRequest ServerSpec.connectLength
  by_cases huse : sspec.useHostname = true
  · have hlength : sspec.hostnameLength ≤ strSize := Nat.not_lt.mp fun hlong => hhost ⟨huse, hlong⟩
    have hport : sspec.httpPort.1.length = 2 := sspec.httpPort.2
    simp only [huse, if_true, List.length_append, List.length_take, List.length_replicate,
      List.length_cons, List.length_nil, hport]
    omega
  · have haddr : sspec.httpAddr.1.length = 4 := sspec.httpAddr.2
    have hport : sspec.httpPort.1.length = 2 := sspec.httpPort.2
    rw [if_neg huse, if_neg huse]
    simp only [List.length_append, List.length_cons, List.length_nil, hport, haddr]

/-- The request to the proxy stays in the buffer. -/
theorem confined_requestSocksConn (hoffset : fg.bufReadOffset ≤ fg.buf.length)
    (hroom : fg.buf.length + fg.sspec.connectLength < bufSize)
    (hstep : fg.requestSocksConn = .ok result) : Confined result := by
  unfold requestSocksConn at hstep
  generalize (if fg.sspec.useHostname = true then 4 + 1 + fg.sspec.hostnameLength + 2 else 4 + 6) =
    needed at hstep
  dsimp only at hstep
  split at hstep
  · cases hstep
  · split at hstep
    · cases hstep
    · rename_i hhost
      obtain rfl := Except.ok.inj hstep
      refine confined_sendThen hoffset ?_ (.inr (.inl rfl))
      rw [length_socksRequest hhost]
      exact hroom

/-- The request to the server stays in the buffer. -/
theorem confined_requestHttp (hoffset : fg.bufReadOffset ≤ fg.buf.length)
    (hroom : fg.buf.length + (getRequest fg.fspec.remotePath fg.sspec.httpHostname).length <
      bufSize)
    (hstep : fg.requestHttp = .ok result) : Confined result := by
  rcases requestHttp_eq hstep with rfl | rfl
  · exact confined_die hoffset (by omega)
  · exact confined_sendThen hoffset hroom (.inr (.inr rfl))

/-- The first reply of the proxy stays in the buffer. -/
theorem confined_replySocksInit (hstate : fg.state = .replySocksInit)
    (hoffset : fg.bufReadOffset ≤ fg.buf.length)
    (hroom : fg.buf.length + fg.requestLength (fg.writer around) < bufSize)
    (hstep : fg.replySocksInit = .ok result) : Confined result := by
  have hlength : fg.buf.length < bufSize := by omega
  simp only [writer, hstate] at hroom
  unfold replySocksInit at hstep
  split at hstep
  · rename_i version method rest hdrop
    have htwo : fg.bufReadOffset + 2 ≤ fg.buf.length := by
      have hcount := congrArg List.length hdrop
      simp only [List.length_drop, List.length_cons] at hcount
      omega
    simp only [hdrop] at hroom
    split at hstep
    · obtain rfl := Except.ok.inj hstep
      exact ⟨hoffset, hlength, by simp [hstate], by simp [hstate]⟩
    · rename_i haccepted
      rw [if_neg haccepted] at hroom
      refine confined_requestSocksConn ?_ ?_ hstep
      · exact htwo
      · exact hroom
  · obtain rfl := Except.ok.inj hstep
    exact confined_toReply hoffset hlength (by simp)

/-- The reply of the proxy stays in the buffer. -/
theorem confined_replySocksConn (hstate : fg.state = .replySocksConn)
    (hoffset : fg.bufReadOffset ≤ fg.buf.length)
    (hroom : fg.buf.length + fg.requestLength (fg.writer around) < bufSize)
    (hstep : fg.replySocksConn around = .ok result) : Confined result := by
  have hlength : fg.buf.length < bufSize := by omega
  simp only [writer, hstate] at hroom
  unfold replySocksConn at hstep
  split at hstep
  · rename_i version reply reserved addressType a b c d p q rest hdrop
    have hten : fg.bufReadOffset + 10 ≤ fg.buf.length := by
      have hcount := congrArg List.length hdrop
      simp only [List.length_drop, List.length_cons] at hcount
      omega
    simp only [hdrop] at hroom
    split at hstep
    · obtain rfl := Except.ok.inj hstep
      exact ⟨hoffset, hlength, by simp [hstate], by simp [hstate]⟩
    · rename_i haccepted
      rw [if_neg haccepted] at hroom
      dsimp only at hstep
      split at hstep
      · rename_i hnamed
        cases hconnect : around.reconnect with
        | failed =>
          simp only [hconnect, connect] at hstep
          obtain rfl := Except.ok.inj hstep
          exact ⟨hten, hlength, by simp [hstate], by simp [hstate]⟩
        | connected sockd incoming =>
          rw [if_neg (by simp [hconnect])] at hroom
          simp only [hconnect, connect] at hstep
          refine confined_requestHttp ?_ ?_ hstep
          · exact hten
          · exact hroom
      · rename_i hnamed
        rw [if_neg fun hboth => hnamed hboth.1] at hroom
        refine confined_requestHttp ?_ ?_ hstep
        · exact hten
        · exact hroom
  · obtain rfl := Except.ok.inj hstep
    exact confined_toReply hoffset hlength (by simp)

/-- A piece of a body leaves an empty buffer, or one that was not full. -/
theorem confined_checkDownload (hoffset : fg.bufReadOffset ≤ fg.buf.length)
    (hsaved : fg.buf.length < bufSize ∨ (fg.f = true → around.fwriteOk = true)) :
    Confined (fg.checkDownload around) := by
  obtain ⟨curstats, allstats, first, hcounted, -, -⟩ :=
    countBody_frame fg around (fg.buf.drop fg.bufReadOffset).length
  unfold checkDownload
  simp only [hcounted]
  split
  · rename_i hfailed
    have hlength : fg.buf.length < bufSize :=
      hsaved.resolve_right fun hok => hfailed.2 (hok hfailed.1)
    exact confined_die hoffset hlength
  · split
    · unfold finish metricsComplete
      dsimp only [Confined]
      split <;> exact ⟨Nat.le_refl 0, Nat.zero_lt_succ _, by simp, by simp⟩
    · exact ⟨bounded_of_nil rfl rfl (by simp) (by simp), .inr rfl⟩

/-- What is found in the reply ends within the buffer. -/
theorem add_le_of_found {needle : Bytes} {i : ℕ} (hoffset : fg.bufReadOffset ≤ fg.buf.length)
    (hfound : strcasestr needle (cString (fg.buf.drop fg.bufReadOffset)) = some i) :
    fg.bufReadOffset + i + needle.length ≤ fg.buf.length := by
  have hfits := add_length_le_of_strcasestr hfound
  have htext := (isPrefix_cString (fg.buf.drop fg.bufReadOffset)).length_le
  rw [List.length_drop] at htext
  omega

/-- The header of a reply stays in the buffer. -/
theorem confined_replyHttp (hoffset : fg.bufReadOffset ≤ fg.buf.length)
    (hlength : fg.buf.length < bufSize) (hstep : fg.replyHttp around = .ok result) :
    Confined result := by
  unfold replyHttp at hstep
  rw [if_neg (by omega)] at hstep
  dsimp only at hstep
  split at hstep
  · rename_i h404
    have hfits := add_le_of_found hoffset h404
    obtain rfl := Except.ok.inj hstep
    refine ⟨?_, hlength, by simp, by simp⟩
    dsimp only
    omega
  · split at hstep
    · rename_i content hcontent
      have hfits := add_le_of_found hoffset hcontent
      split at hstep
      · obtain rfl := Except.ok.inj hstep
        exact confined_die hoffset hlength
      · obtain rfl := Except.ok.inj hstep
        exact confined_checkDownload hfits (.inl hlength)
    · obtain rfl := Except.ok.inj hstep
      exact ⟨⟨hoffset, hlength, by simp, by simp⟩, .inr rfl⟩

/-- A state without a call stays in the buffer. -/
theorem confined_proceed (hoffset : fg.bufReadOffset ≤ fg.buf.length)
    (hsends : fg.state = .send → fg.nextstate = .toReplySocksInit ∨
      fg.nextstate = .toReplySocksConn ∨
      fg.nextstate = .toReplyHttp)
    (hreceives : fg.state = .receive → fg.nextstate ≠ .send) (hroom : fg.HasRoom around)
    (hstep : fg.proceed around = .ok result) : Confined result := by
  by_cases hcheck : fg.state = .checkDownload
  · simp only [proceed, hcheck] at hstep
    obtain rfl := Except.ok.inj hstep
    exact confined_checkDownload hoffset (hroom.imp (fun h => by omega) fun h => h.2)
  have hrequest : fg.buf.length + fg.requestLength (fg.writer around) < bufSize :=
    hroom.resolve_right fun h => hcheck h.1
  have hlength : fg.buf.length < bufSize := by omega
  have hrests : fg.Bounded := ⟨hoffset, hlength, hsends, hreceives⟩
  unfold proceed at hstep
  cases hstate : fg.state with
  | checkDownload => exact absurd hstate hcheck
  | idle | spec =>
    simp only [hstate] at hstep
    obtain rfl := Except.ok.inj hstep
    exact hrests
  | send =>
    simp only [hstate] at hstep
    obtain rfl := Except.ok.inj hstep
    exact ⟨hrests, .inl hstate⟩
  | receive =>
    simp only [hstate] at hstep
    obtain rfl := Except.ok.inj hstep
    exact ⟨hrests, .inr hstate⟩
  | requestSocksInit =>
    simp only [hstate] at hstep
    simp only [writer, hstate, requestLength] at hrequest
    exact confined_requestSocksInit hoffset hrequest hstep
  | replySocksInit =>
    simp only [hstate] at hstep
    exact confined_replySocksInit hstate hoffset hrequest hstep
  | requestSocksConn =>
    simp only [hstate] at hstep
    simp only [writer, hstate, requestLength] at hrequest
    exact confined_requestSocksConn hoffset hrequest hstep
  | replySocksConn =>
    simp only [hstate] at hstep
    exact confined_replySocksConn hstate hoffset hrequest hstep
  | requestHttp =>
    simp only [hstate] at hstep
    simp only [writer, hstate, requestLength] at hrequest
    exact confined_requestHttp hoffset hrequest hstep
  | toReplySocksInit | toReplySocksConn | toReplyHttp =>
    simp only [hstate] at hstep
    obtain rfl := Except.ok.inj hstep
    exact confined_toReply hoffset hlength (by simp)
  | replyHttp =>
    simp only [hstate] at hstep
    exact confined_replyHttp hoffset hlength hstep

/-- A call that fails stays in the buffer. -/
theorem Bounded.confined_ioError (h : fg.Bounded) (excused : Bool) (errcode : GetterCode) :
    Confined (fg.ioError excused errcode) := by
  unfold ioError
  split
  · exact h
  · exact confined_die h.offset_le h.length_lt

/-- When all was sent the getter is at the beginning of its buffer, and waits for the answer. -/
theorem Bounded.confined_send (h : fg.Bounded) (hstate : fg.state = .send)
    (hstep : fg.send call = .ok result) : Confined result := by
  have hnext := h.sends hstate
  unfold send at hstep
  rw [if_neg (Nat.not_lt.mpr h.offset_le)] at hstep
  split at hstep
  · obtain rfl := Except.ok.inj hstep
    exact h.confined_ioError _ _
  · obtain rfl := Except.ok.inj hstep
    exact confined_die h.offset_le h.length_lt
  · rename_i bytes haccepted
    have hbytes := Answer.le_of_send_eq_ok haccepted
    dsimp only at hstep
    split at hstep
    · obtain ⟨u, hu⟩ : ∃ u : Filegetter, u = { fg.advance (bytes + 1) with
        buf := [], bufReadOffset := 0, state := fg.nextstate } := ⟨_, rfl⟩
      have hproceed : u.proceed call.around = .ok result := by rw [hu]; exact hstep
      have hustate : u.state = fg.nextstate := by rw [hu]
      have hubuf : u.buf = [] := by rw [hu]
      have huoffset : u.bufReadOffset = 0 := by rw [hu]
      have hwriter : u.requestLength (u.writer call.around) = 0 := by
        rcases hnext with hnext | hnext | hnext <;> simp [writer, hustate, hnext, requestLength]
      refine confined_proceed ?_ ?_ ?_ (.inl ?_) hproceed
      · rw [huoffset]
        exact Nat.zero_le _
      · rw [hustate]
        rcases hnext with hnext | hnext | hnext <;> simp [hnext]
      · rw [hustate]
        rcases hnext with hnext | hnext | hnext <;> simp [hnext]
      · rw [hwriter, hubuf]
        decide
    · obtain rfl := Except.ok.inj hstep
      refine ⟨⟨?_, h.length_lt, h.sends, h.receives⟩, .inl hstate⟩
      have hoffset := h.offset_le
      dsimp only [advance]
      omega

/-- What `recv` delivers finds room, and so does what is written behind it. -/
theorem Bounded.confined_receive (h : fg.Bounded) (hstate : fg.state = .receive)
    (hroom : fg.delivered call ≠ [] → (fg.received (fg.delivered call)).HasRoom call.around)
    (hstep : fg.receive call = .ok result) : Confined result := by
  have hnext := h.receives hstate
  unfold receive at hstep
  split at hstep
  · obtain rfl := Except.ok.inj hstep
    exact h.confined_ioError _ _
  · obtain rfl := Except.ok.inj hstep
    exact confined_die h.offset_le h.length_lt
  · rename_i b bs hrecv
    have hdelivered : fg.delivered call = b :: bs := by simp [delivered, hrecv, Except.toOption]
    rw [hdelivered] at hroom
    refine confined_proceed ?_ ?_ ?_ (hroom (by simp)) hstep
    · have hoffset := h.offset_le
      simp only [received, List.length_append]
      omega
    · intro hsend
      exact absurd hsend hnext
    · intro _
      exact hnext

/-- A download starts with an empty buffer or leaves the buffer as it is. -/
theorem Bounded.download (h : fg.Bounded) (sspec : ServerSpec) (fspec : FileSpec) (fopenOk : Bool)
    (connection : Connect) (now : Timespec) :
    (fg.download sspec fspec fopenOk connection now).1.Bounded := by
  obtain ⟨u, hu⟩ : ∃ u, u = (fg.setSpecs sspec fspec fopenOk).1 := ⟨_, rfl⟩
  have hbounded : u.Bounded := by
    rw [hu]
    unfold setSpecs
    split
    · exact h
    · rename_i hspec
      have hstate : fg.state = .spec := not_not.mp hspec
      dsimp only
      split
      · exact ⟨h.offset_le, h.length_lt, h.sends, h.receives⟩
      · exact ⟨Nat.le_refl 0, Nat.zero_lt_succ _, h.sends, h.receives⟩
  have hother : ∀ fg' : Filegetter, fg'.bufReadOffset = u.bufReadOffset → fg'.buf = u.buf →
      fg'.state ≠ .send → fg'.state ≠ .receive → fg'.Bounded := by
    intro fg' hoffset hbuf hsend hreceive
    refine ⟨?_, ?_, fun hstate => absurd hstate hsend, fun hstate => absurd hstate hreceive⟩
    · rw [hoffset, hbuf]
      exact hbounded.offset_le
    · rw [hbuf]
      exact hbounded.length_lt
  unfold Filegetter.download
  dsimp only
  rw [← hu]
  split
  · apply hother <;> simp
  · split
    · cases connection with
      | failed =>
        simp only [connect]
        split <;> exact ⟨hbounded.offset_le, hbounded.length_lt, hbounded.sends, hbounded.receives⟩
      | connected sockd incoming =>
        simp only [connect]
        split <;> apply hother <;> simp
    · exact ⟨hbounded.offset_le, hbounded.length_lt, hbounded.sends, hbounded.receives⟩

/-! ## What is written is inside -/

/-- The NUL at the end of a header is written into the header. -/
theorem headerEnd_lt {i : ℕ} (hoffset : fg.bufReadOffset ≤ fg.buf.length)
    (hend : fg.headerEnd = some i) : i < fg.buf.length := by
  unfold headerEnd at hend
  dsimp only at hend
  split at hend
  · obtain ⟨content, hcontent, rfl⟩ := Option.map_eq_some_iff.mp hend
    have hfits := add_le_of_found hoffset hcontent
    have htwo : twoCrlf.length = 4 := by decide
    omega
  · cases hend

/-- A state without a call writes inside of the buffer. -/
theorem stateWrites_lt {i : ℕ} (hoffset : fg.bufReadOffset ≤ fg.buf.length)
    (hroom : fg.HasRoom around) (hi : i ∈ fg.stateWrites around) : i < bufSize := by
  unfold stateWrites at hi
  dsimp only at hi
  rcases hroom with hrequest | ⟨hcheck, -⟩
  · split at hi
    · split at hi
      · cases hi
      · have hlast := (List.mem_range'_1.mp hi).2
        omega
    · split at hi
      · cases hi
      · have hlast := (List.mem_range'_1.mp hi).2
        omega
    · have hlast := (List.mem_range'_1.mp hi).2
      omega
    · rcases List.mem_cons.mp hi with rfl | hi
      · omega
      · have hlast := headerEnd_lt hoffset (Option.mem_toList.mp hi)
        omega
    · cases hi
  · simp [writer, hcheck] at hi

/-- `recv` delivers no more than there is room for. -/
theorem length_delivered_le (fg : Filegetter) (call : Call) :
    (fg.delivered call).length ≤ bufSize - fg.buf.length := by
  unfold delivered
  cases call.answer with
  | ready k =>
    simp only [Answer.recv]
    split_ifs
    · exact Nat.zero_le _
    · exact Nat.zero_le _
    · simp only [Except.toOption, Option.getD_some, List.length_take]
      omega
  | closed | failed => exact Nat.zero_le _

/-- A call writes inside of the buffer. -/
theorem Bounded.callWrites_lt {i : ℕ} (h : fg.Bounded) (hat : AtCall fg)
    (hroom : fg.state = .receive → fg.delivered call ≠ [] →
      (fg.received (fg.delivered call)).HasRoom call.around)
    (hi : i ∈ fg.callWrites call) : i < bufSize := by
  unfold callWrites at hi
  split at hi
  · rename_i hsend
    have hnext := h.sends hsend
    split at hi
    · split at hi
      · -- after sending the getter only turns to receiving
        rcases hnext with hnext | hnext | hnext <;> simp [stateWrites, writer, hnext] at hi
      · cases hi
    · cases hi
  · rename_i hsend
    split at hi
    · cases hi
    · rename_i hsome
      have hcount := length_delivered_le fg call
      have hlength := h.length_lt
      rcases List.mem_append.mp hi with hi | hi
      · have hlast := (List.mem_range'_1.mp hi).2
        omega
      · refine stateWrites_lt ?_ (hroom (hat.resolve_left hsend) hsome) hi
        have hoffset := h.offset_le
        simp only [received, List.length_append]
        omega

end Filegetter

/-! ## Runs -/

namespace Handshake

variable {w w' : Handshake} {o : Occurrence}

/-- The offsets are inside, and an activation is under way only at a call. -/
structure Holds (w : Handshake) : Prop where
  bounded : w.fg.Bounded
  atCall : w.running = true → AtCall w.fg

/-- A state that does not fault leads somewhere. -/
theorem exists_of_map_enter {x : Except Fault Next} (h : x.map w.enter = .ok w') :
    ∃ next, x = .ok next ∧ w.enter next = w' := by
  cases x with
  | error fault => simp [Except.map] at h
  | ok next => exact ⟨next, rfl, Except.ok.inj h⟩

/-- A getter that is confined holds. -/
theorem Holds.enter {next : Next} (w : Handshake) (h : Filegetter.Confined next) :
    (w.enter next).Holds := by
  cases next with
  | call fg => exact ⟨h.1, fun _ => h.2⟩
  | «return» fg code => exact ⟨h, by simp [Handshake.enter]⟩

/-- Every roomy occurrence keeps the bounds. -/
theorem Holds.occur (h : w.Holds) (hroomy : w.Roomy o) (hstep : w.occur o = .ok w') : w'.Holds := by
  cases o with
  | download sspec fspec fopenOk connection now =>
    obtain rfl := Except.ok.inj hstep
    split
    · exact h
    · rename_i hidle
      exact ⟨h.bounded.download sspec fspec fopenOk connection now,
        fun hrunning => absurd hrunning hidle⟩
  | event e =>
    unfold Handshake.occur Handshake.step at hstep
    cases e with
    | activate around =>
      dsimp only at hstep
      split at hstep
      · obtain rfl := Except.ok.inj hstep
        exact h
      · rename_i hidle
        split at hstep
        · obtain ⟨next, hnext, rfl⟩ := exists_of_map_enter hstep
          apply Holds.enter
          exact Filegetter.confined_proceed h.bounded.offset_le h.bounded.sends h.bounded.receives
            (hroomy (by simpa using hidle)) hnext
        · cases hstep
    | call call =>
      dsimp only at hstep
      split at hstep
      · rename_i hrunning
        obtain ⟨next, hnext, rfl⟩ := exists_of_map_enter hstep
        apply Holds.enter
        split at hnext
        · rename_i hsend
          exact h.bounded.confined_send hsend hnext
        · rename_i hsend
          have hreceive := (h.atCall hrunning).resolve_left hsend
          exact h.bounded.confined_receive hreceive (hroomy hrunning hreceive) hnext
      · obtain rfl := Except.ok.inj hstep
        exact h
    | block =>
      obtain rfl := Except.ok.inj hstep
      split
      · exact ⟨h.bounded, by simp⟩
      · exact h
    | answer bytes =>
      obtain rfl := Except.ok.inj hstep
      exact ⟨⟨h.bounded.offset_le, h.bounded.length_lt, h.bounded.sends, h.bounded.receives⟩,
        h.atCall⟩

/-- What a roomy occurrence writes is in the buffer. -/
theorem Holds.contained (h : w.Holds) (hroomy : w.Roomy o) : w.Contained o where
  entry := by
    intro around _ _
    exact ⟨h.bounded.offset_le.trans_lt h.bounded.length_lt, h.bounded.length_lt,
      h.bounded.offset_le⟩
  space := fun _ _ => h.bounded.length_lt
  writes := by
    intro i hi
    unfold Handshake.writes at hi
    split at hi
    · split at hi
      · rename_i hentered
        have hidle : w.running = false := by simpa using hentered.1
        exact Filegetter.stateWrites_lt h.bounded.offset_le (hroomy hidle) hi
      · cases hi
    · split at hi
      · rename_i hrunning
        exact h.bounded.callWrites_lt (h.atCall hrunning) (hroomy hrunning) hi
      · cases hi
    · cases hi

/-- A new getter holds. -/
theorem holds_begin : (begin Filegetter.start).Holds where
  bounded := Filegetter.bounded_of_nil (by simp [begin, Filegetter.start])
    (by simp [begin, Filegetter.start]) (by simp [begin, Filegetter.start])
    (by simp [begin, Filegetter.start])
  atCall := by simp [begin]

/-- Steps of activations only. -/
theorem runSteps_map_event {es : List HandshakeEvent} :
    runSteps occur w (es.map .event) = runSteps step w es := by
  induction es generalizing w with
  | nil => rfl
  | cons e es ih =>
    cases hstep : w.step e with
    | error fault =>
      rw [List.map_cons, runSteps_cons_of_error hstep]
      exact runSteps_cons_of_error hstep
    | ok w' =>
      rw [List.map_cons, runSteps_cons_of_ok hstep, ← ih]
      exact runSteps_cons_of_ok hstep

/-- A download and the activation behind it are a run of the steps. -/
theorem runSteps_of_download {sspec : ServerSpec} {fspec : FileSpec} {fopenOk : Bool}
    {connection : Connect} {now : Timespec} {e : GetterEvent} {fg' : Filegetter} {code : GetterCode}
    (hidle : w.running = false)
    (hactivate : (w.fg.download sspec fspec fopenOk connection now).1.activate e =
      .ok (fg', code)) :
    runSteps occur w (.download sspec fspec fopenOk connection now :: (eventsOf e).map .event) =
      .ok { w with fg := fg', running := false, code := some code } := by
  have hdownload : w.occur (.download sspec fspec fopenOk connection now) =
      .ok { w with fg := (w.fg.download sspec fspec fopenOk connection now).1 } := by
    simp [Handshake.occur, hidle]
  rw [runSteps_cons_of_ok hdownload, runSteps_map_event,
    runSteps_of_activate (by exact hidle) hactivate]

/-- In every run of downloads and activations in which there is room for what is written next, no
step overruns the buffer. -/
theorem contained_of_roomy {os : List Occurrence}
    (hroomy : StepsMeet occur Roomy (begin Filegetter.start) os) :
    ∀ w o, Takes occur (begin Filegetter.start) os w o → w.Contained o := by
  intro w o htakes
  exact of_takes_of_stepsMeet Holds Contained
    (fun _ _ _ hholds hroomy hstep => hholds.occur hroomy hstep)
    (fun _ _ hholds hroomy => hholds.contained hroomy) holds_begin hroomy htakes

/-- A getter that downloads through a proxy and gets half of a reply. -/
def proxiedRun : List Occurrence :=
  .download namedServer wantedFile true (.connected 4 []) ⟨0, 0⟩ ::
    (namedRun ++ [passing 99, .answer (ascii "HTTP/1.1 200"), passing 99]).map .event

/-- A run with a proxy and a short reply. -/
theorem contained_of_roomy_proxiedRun :
    StepsMeet occur Roomy (begin Filegetter.start) proxiedRun ∧
      ∀ w o, Takes occur (begin Filegetter.start) proxiedRun w o → w.Contained o := by
  have hroomy : StepsMeet occur Roomy (begin Filegetter.start) proxiedRun := by decide +kernel
  exact ⟨hroomy, contained_of_roomy hroomy⟩

/-- A getter that downloads without a proxy, up to where it waits for the reply. -/
def directRun : List Occurrence :=
  [.download ServerSpec.zero wantedFile true (.connected 4 []) ⟨0, 0⟩, .event (.activate quiet),
    .event (passing 99)]

/-- The server answers with a line as long as the buffer. -/
def overlongRun : List Occurrence :=
  directRun ++ [.event (.answer (List.replicate bufSize 97)), .event (passing bufSize)]

/-- When a part of a header fills the buffer, the NUL is written behind its end. -/
theorem bufSize_mem_writes {line : Bytes} (hrunning : w.running = true)
    (hstate : w.fg.state = .receive)
    (hnext : w.fg.nextstate = .replyHttp) (hbuf : w.fg.buf = []) (hincoming : w.fg.incoming = line)
    (hline : line.length = bufSize) : bufSize ∈ w.writes (.event (passing bufSize)) := by
  have hsome : line.length ≠ 0 := by
    rw [hline]
    decide
  have hdelivered : w.fg.delivered ⟨.ready bufSize, quiet⟩ = line := by
    unfold Filegetter.delivered
    rw [hbuf, hincoming, Answer.recv_ready bufSize (by decide) fun hnil =>
      hsome (by rw [hnil]; decide)]
    apply List.take_of_length_le
    rw [hline]
    decide
  have hstateWrites : bufSize ∈ (w.fg.received line).stateWrites quiet := by
    unfold Filegetter.stateWrites
    simp [Filegetter.writer, Filegetter.received, hnext, hbuf, hline]
  have hcall : w.writes (.event (passing bufSize)) = w.fg.callWrites ⟨.ready bufSize, quiet⟩ :=
    if_pos hrunning
  rw [hcall, Filegetter.callWrites, if_neg (by simp [hstate]), hdelivered,
    if_neg fun hnil => hsome (by rw [hnil]; decide)]
  exact List.mem_append_right _ hstateWrites

/-- The NUL behind the line is written outside the buffer. -/
theorem not_contained_overlongRun :
    ∃ w o, Takes occur (begin Filegetter.start) overlongRun w o ∧ ¬w.Contained o := by
  have hrun : (runSteps occur (begin Filegetter.start) directRun).toOption.map
      (fun w => (w.running, w.fg.state, w.fg.nextstate, w.fg.buf, w.fg.incoming)) =
        some (true, .receive, .replyHttp, [], []) := by
    decide +kernel
  cases hdirect : runSteps occur (begin Filegetter.start) directRun with
  | error fault => simp [hdirect, Except.toOption] at hrun
  | ok w =>
    simp only [hdirect, Except.toOption, Option.map_some, Option.some.injEq, Prod.mk.injEq] at hrun
    obtain ⟨hrunning, hstate, hnext, hbuf, hincoming⟩ := hrun
    obtain ⟨w', hw'⟩ : ∃ w', w.occur (.event (.answer (List.replicate bufSize 97))) = .ok w' :=
      ⟨_, rfl⟩
    refine ⟨w', .event (passing bufSize),
      ⟨directRun ++ [.event (.answer (List.replicate bufSize 97))], [], by simp [overlongRun], ?_⟩,
        ?_⟩
    · rw [runSteps_append_of_ok hdirect, runSteps_cons_of_ok hw', runSteps_nil]
    · intro hcontained
      have hlast := hcontained.writes bufSize ?_
      · exact absurd hlast (Nat.lt_irrefl _)
      · obtain rfl := Except.ok.inj hw'
        have hline : (List.replicate bufSize 97 : Bytes).length = bufSize := List.length_replicate
        refine bufSize_mem_writes hrunning hstate hnext hbuf ?_ hline
        dsimp only
        rw [hincoming, List.nil_append]

end Handshake

end ShadowExtras.FileTransfer
