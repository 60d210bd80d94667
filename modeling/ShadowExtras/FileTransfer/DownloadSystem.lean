import ShadowExtras.FileTransfer.ReplyStream
import ShadowExtras.FileTransfer.RequestCuts

/-!
# A getter and a server on one connection

The file getter downloads one file after the other from the file server, on new connections or, when
the connection is persistent, on one that is open already. The system has both programs and the
bytes under way between them: `requests` was sent by the getter and not received by the server, and
what the server sent and the getter did not receive is `getter.incoming`. A step is one activation
of either program or a call of `filegetter_download`. The environment decides how many bytes each
call of `send` and `recv` passes, whether it fails, and which files the server finds at each of its
activations.

The getter sends its request (`Asking`) and waits for a reply (`Quiet`); from then on `ReplyStream`
follows it.
-/

namespace ShadowExtras.FileTransfer

open Foundation

/-! ## The system -/

/-- The getter, the server's side of its connection, and the bytes under way. -/
structure DownloadSystem where
  getter : Filegetter
  /-- None when the server has closed it, or none was opened. -/
  connection : Option ServerConnection
  requests : Bytes
  /-- History: what the server found under the requested path at its activations during the
  download. -/
  looked : List (Option Bytes)
  deriving DecidableEq, Repr

/-- A step of the system. -/
inductive SystemEvent
  | getter (e : GetterEvent)
  | server (i : Arrival)
  /-- `filegetter_download`; `sockd` is the outcome of `socket` and `connect`. -/
  | download (sspec : ServerSpec) (fspec : FileSpec) (fopenOk : Bool) (sockd : Option Int)
      (now : Timespec)

namespace DownloadSystem

/-- Before the first download. -/
def start : DownloadSystem where
  getter := Filegetter.start
  connection := none
  requests := []
  looked := []

/-- The outcome of connecting; nothing has been sent on a new connection. -/
def connectOf : Option Int → Connect
  | none => .failed
  | some sockd => .connected sockd []

/-- The path of the file that is downloaded. -/
def path (s : DownloadSystem) : Bytes := s.getter.fspec.remotePath

/-- An activation of the getter; what it sends is under way. -/
def getterStep (s : DownloadSystem) (e : GetterEvent) : Except Fault DownloadSystem :=
  match s.getter.activate e with
  | .error fault => .error fault
  | .ok (fg, _) =>
    .ok { s with getter := fg, requests := s.requests ++ fg.sent.drop s.getter.sent.length }

/-- An activation of the server's connection, if it is open. -/
def serverStep (docroot : Bytes) (s : DownloadSystem) (i : Arrival) : DownloadSystem :=
  match s.connection with
  | none => s
  | some c =>
    let o := i.activate docroot c s.requests
    { getter := { s.getter with incoming := s.getter.incoming ++ o.act.sent }
      connection := if o.closed then none else some o.act.conn
      requests := s.requests.drop o.act.received
      looked := s.looked ++ [i.files (docroot ++ s.path)] }

/-- A call of `filegetter_download`: the server accepts a new connection unless the old one is used
again. -/
def downloadStep (s : DownloadSystem) (sspec : ServerSpec) (fspec : FileSpec) (fopenOk : Bool)
    (sockd : Option Int) (now : Timespec) : DownloadSystem :=
  match s.getter.download sspec fspec fopenOk (connectOf sockd) now with
  | (fg, .success) =>
    if sspec.persistent ∧ s.getter.sockd > 0 then { s with getter := fg, looked := [] }
    else { getter := fg, connection := some .new, requests := [], looked := [] }
  | (fg, _) => { s with getter := fg }

/-- A step. -/
def step (docroot : Bytes) (s : DownloadSystem) : SystemEvent → Except Fault DownloadSystem
  | .getter e => s.getterStep e
  | .server i => .ok (s.serverStep docroot i)
  | .download sspec fspec fopenOk sockd now => .ok (s.downloadStep sspec fspec fopenOk sockd now)

/-- What can be asked for: a path and a host name whose request fits into the server's buffer. -/
structure Askable (fspec : FileSpec) (sspec : ServerSpec) : Prop where
  path : ValidPath fspec.remotePath
  host : ValidHost sspec.httpHostname
  noBreak : cr ∉ sspec.httpHostname
  length : fspec.remotePath.length + sspec.httpHostname.length ≤ 230

/-- A step as the programs are used: files are shorter than 2 GiB, a download is started when the
last one has ended and its local file can be opened, without a proxy, and a connection is not used
again after a file that holds the line of a 404 reply. -/
def Proper (docroot : Bytes) (s : DownloadSystem) : SystemEvent → Prop
  | .getter _ => True
  | .server i => ∀ content ∈ i.files (docroot ++ s.path), content.length < 2 ^ 31
  | .download sspec fspec fopenOk sockd _ =>
    s.getter.state = .spec ∧ sspec.hasSocks = false ∧ (fspec.doSave = true → fopenOk = true) ∧
      (∀ sockd' ∈ sockd, 0 < sockd') ∧ Askable fspec sspec ∧
      (sspec.persistent = true → ∀ reply ∈ s.looked, ∀ content ∈ reply, ¬LooksMissing content)

end DownloadSystem

/-! ## The getter before a reply -/

variable {fg fg' : Filegetter} {unsent : Bytes} {call : Call} {next : Next}

/-- The getter has written its request, or is about to, and `unsent` of it was not accepted yet. -/
structure Asking (fg : Filegetter) (unsent : Bytes) : Prop where
  sockd : fg.sockd ≠ 0
  incoming : fg.incoming = []
  downloaded : fg.curstats.bodyBytesDownloaded = 0
  saving : Saving fg []
  unsent_ne_nil : unsent ≠ []
  room : fg.buf.length < bufSize
  stage : (fg.state = .requestHttp ∧ fg.buf = [] ∧ fg.bufReadOffset = 0 ∧
      Filegetter.getRequest fg.fspec.remotePath fg.sspec.httpHostname = unsent) ∨
    (fg.state = .send ∧ fg.nextstate = .toReplyHttp ∧ fg.buf.drop fg.bufReadOffset = unsent)

/-- The getter has sent its request and nothing was sent to it. -/
structure Quiet (fg : Filegetter) : Prop where
  state : fg.state = .receive
  nextstate : fg.nextstate = .replyHttp
  sockd : fg.sockd ≠ 0
  bufReadOffset : fg.bufReadOffset = 0
  buf : fg.buf = []
  incoming : fg.incoming = []
  downloaded : fg.curstats.bodyBytesDownloaded = 0
  saving : Saving fg []

/-- The bytes of a reply. -/
def replyText : Option Bytes → Bytes
  | none => http404
  | some content => http200Reply content

/-- Any reply can follow. -/
theorem Quiet.hears (h : Quiet fg) (reply : Option Bytes) :
    Hears reply (fg.after (replyText reply)) := by
  have hincoming : (fg.after (replyText reply)).incoming = replyText reply := by
    simp [Filegetter.after, h.incoming]
  cases reply with
  | none =>
    refine .refusal 0 ⟨h.state, h.nextstate, h.sockd, h.bufReadOffset, ?_, ?_, by decide⟩
    · rw [List.take_zero]
      exact h.buf
    · rw [List.drop_zero]
      exact hincoming
  | some content =>
    refine .header 0 ⟨h.state, h.nextstate, h.sockd, h.bufReadOffset, ?_, ?_,
      length_http200Header_pos content.length, h.downloaded, ⟨h.saving.file, h.saving.memory⟩⟩
    · rw [List.take_zero]
      exact h.buf
    · rw [List.drop_zero]
      exact hincoming

/-- A call of `recv` finds nothing. -/
theorem Quiet.receive (h : Quiet fg) (call : Call) :
    fg.receive call = .ok (.return fg .errWouldblock) ∨ Fatal (fg.receive call) := by
  obtain ⟨answer, around⟩ := call
  cases answer with
  | closed => exact .inr (fatal_die _)
  | failed errno =>
    unfold Filegetter.receive
    simp only [Answer.recv, Filegetter.ioError]
    by_cases hblock : errno = .wouldBlock
    · simp [hblock]
    · simp only [hblock, decide_false, Bool.false_eq_true, if_false]
      exact .inr (fatal_die _)
  | ready k =>
    left
    have hroom : bufSize - fg.buf.length ≠ 0 := by
      rw [h.buf]
      decide
    unfold Filegetter.receive
    simp [Answer.recv, hroom, h.incoming, Filegetter.ioError]

/-- How an activation leaves a getter that waits for a reply which has not started. -/
def Unanswered (fg fg' : Filegetter) (code : GetterCode) : Prop :=
  (code = .errWouldblock ∧ fg' = fg) ∨ (code = .errFatal ∧ fg'.state = .idle)

/-- Calls of a quiet getter are not answered. -/
theorem Quiet.callLoop {calls : List Call} {code : GetterCode} (h : Quiet fg)
    (hresult : fg.callLoop calls = .ok (fg', code)) :
    Unanswered fg fg' code ∧ SameErrand fg fg' := by
  cases calls with
  | nil =>
    obtain ⟨rfl, rfl⟩ := Prod.mk.inj (Except.ok.inj hresult)
    exact ⟨.inl ⟨rfl, rfl⟩, SameErrand.refl fg⟩
  | cons call calls =>
    rw [callLoop_cons h.state] at hresult
    have hlistens : Listens fg := ⟨h.state, .inl h.nextstate⟩
    rcases h.receive call with hblock | ⟨fg₁, hdie, hstate⟩
    · rw [hblock] at hresult
      obtain ⟨rfl, rfl⟩ := Prod.mk.inj (Except.ok.inj hresult)
      exact ⟨.inl ⟨rfl, rfl⟩, SameErrand.refl fg⟩
    · have hheard := hlistens.heard hdie
      rw [hdie] at hresult
      obtain ⟨rfl, rfl⟩ := Prod.mk.inj (Except.ok.inj hresult)
      exact ⟨.inr ⟨rfl, hstate⟩, hheard.errand⟩

/-- The getter has sent a front piece of `unsent`, and `unsent'` is left. -/
structure SendsFront (fg fg' : Filegetter) (unsent unsent' : Bytes) : Prop where
  sspec : fg'.sspec = fg.sspec
  fspec : fg'.fspec = fg.fspec
  front : ∃ new, unsent = new ++ unsent' ∧ fg'.sent = fg.sent ++ new

theorem SameErrand.sendsFront (h : SameErrand fg fg') (unsent : Bytes) :
    SendsFront fg fg' unsent unsent :=
  ⟨h.sspec, h.fspec, [], rfl, by rw [h.sent, List.append_nil]⟩

/-- What is sent, one part after the other. -/
theorem SendsFront.trans {fg₁ fg₂ fg₃ : Filegetter} {unsent₁ unsent₂ unsent₃ : Bytes}
    (h : SendsFront fg₁ fg₂ unsent₁ unsent₂) (h' : SendsFront fg₂ fg₃ unsent₂ unsent₃) :
    SendsFront fg₁ fg₃ unsent₁ unsent₃ := by
  obtain ⟨new, hsplit, hsent⟩ := h.front
  obtain ⟨new', hsplit', hsent'⟩ := h'.front
  exact ⟨h'.sspec.trans h.sspec, h'.fspec.trans h.fspec, new ++ new',
    by rw [hsplit, hsplit', List.append_assoc], by rw [hsent', hsent, List.append_assoc]⟩

/-- How an activation leaves a getter that sends its request: it goes on, or has sent it and
waits. -/
def Requests (fg fg' : Filegetter) (unsent : Bytes) (code : GetterCode) : Prop :=
  (code = .errWouldblock ∧ ∃ unsent', SendsFront fg fg' unsent unsent' ∧
      (Asking fg' unsent' ∨ (unsent' = [] ∧ Quiet fg'))) ∨
    (code = .errFatal ∧ fg'.state = .idle)

/-- A part that is sent before the request is complete. -/
theorem SendsFront.requests {fg₁ : Filegetter} {unsent₁ : Bytes} {code : GetterCode}
    (h : SendsFront fg fg₁ unsent unsent₁) (h' : Requests fg₁ fg' unsent₁ code) :
    Requests fg fg' unsent code := by
  rcases h' with ⟨hcode, unsent', hfront, hasks⟩ | hfatal
  · exact .inl ⟨hcode, unsent', h.trans hfront, hasks⟩
  · exact .inr hfatal

/-- A call of `send` that has passed a part of the request, or the rest of it. -/
structure Passed (fg fg' : Filegetter) (unsent unsent' : Bytes) : Prop where
  front : SendsFront fg fg' unsent unsent'
  progress : unsent'.length < unsent.length
  phase : (Asking fg' unsent' ∧ fg'.state = .send) ∨ (unsent' = [] ∧ Quiet fg')

/-- A call of `send` that accepts bytes. -/
theorem Asking.send_ok (h : Asking fg unsent) (hstate : fg.state = .send) {k : ℕ}
    (hanswer : call.answer.send unsent.length = .ok (k + 1)) :
    ∃ fg' unsent', fg.send call = .ok (.call fg') ∧ Passed fg fg' unsent unsent' := by
  obtain ⟨hrequest, -⟩ | ⟨-, hnext, hunsent⟩ := h.stage
  · rw [hrequest] at hstate
    cases hstate
  have hlength : fg.buf.length - fg.bufReadOffset = unsent.length := by
    rw [← hunsent, List.length_drop]
  have hpos := List.length_pos_iff.mpr h.unsent_ne_nil
  have hle := Answer.le_of_send_eq_ok hanswer
  have hsent : (fg.advance (k + 1)).sent = fg.sent ++ unsent.take (k + 1) := by
    rw [← hunsent]
    rfl
  have hleft : fg.buf.drop (fg.bufReadOffset + (k + 1)) = unsent.drop (k + 1) := by
    rw [← hunsent, List.drop_drop]
  have hsplit : unsent = unsent.take (k + 1) ++ unsent.drop (k + 1) :=
    (List.take_append_drop _ _).symm
  have hless : (unsent.drop (k + 1)).length < unsent.length := by
    rw [List.length_drop]
    omega
  unfold Filegetter.send
  rw [if_neg (by omega), hlength, hanswer]
  dsimp only
  by_cases hall : (fg.advance (k + 1)).bufReadOffset = (fg.advance (k + 1)).buf.length
  · -- the whole request was accepted
    have hdone : unsent.drop (k + 1) = [] := by
      have hend : fg.bufReadOffset + (k + 1) = fg.buf.length := hall
      rw [List.drop_eq_nil_iff]
      omega
    have hproceed : (fg.advance (k + 1)).nextstate = .toReplyHttp := hnext
    rw [if_pos hall]
    simp only [Filegetter.proceed, hproceed]
    refine ⟨_, [], rfl, ⟨rfl, rfl, unsent.take (k + 1), ?_, hsent⟩, hpos, .inr ⟨rfl, ?_⟩⟩
    · rw [← hdone]
      exact hsplit
    · exact ⟨rfl, rfl, h.sockd, rfl, rfl, h.incoming, h.downloaded, h.saving.file, h.saving.memory⟩
  · have hmore : unsent.drop (k + 1) ≠ [] := by
      have hnot : ¬fg.bufReadOffset + (k + 1) = fg.buf.length := hall
      rw [Ne, List.drop_eq_nil_iff]
      omega
    rw [if_neg hall]
    refine ⟨_, unsent.drop (k + 1), rfl, ⟨rfl, rfl, unsent.take (k + 1), hsplit, hsent⟩, hless,
      .inl ⟨?_, hstate⟩⟩
    exact ⟨h.sockd, h.incoming, h.downloaded, ⟨h.saving.file, h.saving.memory⟩, hmore, h.room,
      .inr ⟨hstate, hnext, hleft⟩⟩

/-- A call of `send` passes nothing, or some of the request. -/
theorem Asking.send (h : Asking fg unsent) (hstate : fg.state = .send)
    (hresult : fg.send call = .ok next) :
    next = .return fg .errWouldblock ∨ Fatal (.ok next) ∨
      ∃ fg' unsent', next = .call fg' ∧ Passed fg fg' unsent unsent' := by
  cases hanswer : call.answer.send unsent.length with
  | ok bytes =>
    cases bytes with
    | succ k =>
      obtain ⟨fg', unsent', hsend, hpassed⟩ := h.send_ok hstate hanswer
      obtain rfl := Except.ok.inj (hresult.symm.trans hsend)
      exact .inr (.inr ⟨fg', unsent', rfl, hpassed⟩)
    | zero =>
      obtain ⟨hrequest, -⟩ | ⟨-, -, hunsent⟩ := h.stage
      · rw [hrequest] at hstate
        cases hstate
      unfold Filegetter.send at hresult
      split_ifs at hresult
      rw [← List.length_drop, hunsent, hanswer] at hresult
      obtain rfl := Except.ok.inj hresult
      exact .inr (.inl (fatal_die _))
  | error errno =>
    obtain ⟨hrequest, -⟩ | ⟨-, -, hunsent⟩ := h.stage
    · rw [hrequest] at hstate
      cases hstate
    unfold Filegetter.send at hresult
    split_ifs at hresult
    rw [← List.length_drop, hunsent, hanswer] at hresult
    obtain rfl := Except.ok.inj hresult
    unfold Filegetter.ioError
    split_ifs
    · exact .inl rfl
    · exact .inr (.inl (fatal_die _))

/-- The calls of an activation while the request is sent, by induction on the calls. -/
theorem Asking.callLoop {calls : List Call} {code : GetterCode} (h : Asking fg unsent)
    (hstate : fg.state = .send) (hresult : fg.callLoop calls = .ok (fg', code)) :
    Requests fg fg' unsent code := by
  induction calls generalizing fg unsent with
  | nil =>
    obtain ⟨rfl, rfl⟩ := Prod.mk.inj (Except.ok.inj hresult)
    exact .inl ⟨rfl, unsent, (SameErrand.refl fg).sendsFront unsent, .inl h⟩
  | cons call calls ih =>
    unfold Filegetter.callLoop at hresult
    rw [if_pos hstate] at hresult
    cases hsend : fg.send call with
    | error fault =>
      rw [hsend] at hresult
      cases hresult
    | ok next =>
      rw [hsend] at hresult
      rcases h.send hstate hsend with rfl | ⟨fg₁, hdie, hidle⟩ |
          ⟨fg₁, unsent₁, rfl, hfront, -, hphase⟩
      · obtain ⟨rfl, rfl⟩ := Prod.mk.inj (Except.ok.inj hresult)
        exact .inl ⟨rfl, unsent, (SameErrand.refl fg).sendsFront unsent, .inl h⟩
      · obtain rfl := Except.ok.inj hdie
        obtain ⟨rfl, rfl⟩ := Prod.mk.inj (Except.ok.inj hresult)
        exact .inr ⟨rfl, hidle⟩
      · rcases hphase with ⟨hasking, hsending⟩ | ⟨rfl, hquiet⟩
        · exact hfront.requests (ih hasking hsending hresult)
        · obtain ⟨hcode | hcode, hsame⟩ := hquiet.callLoop hresult
          · obtain ⟨rfl, rfl⟩ := hcode
            exact .inl ⟨rfl, [], hfront, .inr ⟨rfl, hquiet⟩⟩
          · exact .inr hcode

/-- An activation of a getter that has to send its request or a part of it. -/
theorem Asking.activate {e : GetterEvent} {code : GetterCode} (h : Asking fg unsent)
    (hresult : fg.activate e = .ok (fg', code)) : Requests fg fg' unsent code := by
  unfold Filegetter.activate at hresult
  split_ifs at hresult with hassert
  rcases h.stage with ⟨hstate, hbuf, hoffset, hrequest⟩ | ⟨hstate, -⟩
  · simp only [Filegetter.proceed, hstate] at hresult
    cases hwrite : fg.requestHttp with
    | error fault =>
      rw [hwrite] at hresult
      cases hresult
    | ok next =>
      rw [hwrite] at hresult
      unfold Filegetter.requestHttp at hwrite
      dsimp only at hwrite
      split_ifs at hwrite with hspace hlong hfits
      · obtain rfl := Except.ok.inj hwrite
        obtain ⟨rfl, rfl⟩ := Prod.mk.inj (Except.ok.inj hresult)
        exact .inr ⟨rfl, rfl⟩
      · obtain rfl := Except.ok.inj hwrite
        have hroom : unsent.length < bufSize := by
          rw [← hrequest]
          exact Nat.lt_of_not_le hlong
        rw [hrequest, hbuf, List.nil_append] at hresult
        have hsending :
            Asking (({ fg with buf := unsent } : Filegetter).sendThen .toReplyHttp) unsent :=
          ⟨h.sockd, h.incoming, h.downloaded, ⟨h.saving.file, h.saving.memory⟩, h.unsent_ne_nil,
            hroom, .inr ⟨rfl, rfl, by
              show unsent.drop fg.bufReadOffset = unsent
              rw [hoffset, List.drop_zero]⟩⟩
        have hfront : SendsFront fg (({ fg with buf := unsent } : Filegetter).sendThen .toReplyHttp)
            unsent unsent := ⟨rfl, rfl, [], rfl, (List.append_nil _).symm⟩
        exact hfront.requests (hsending.callLoop rfl hresult)
  · simp only [Filegetter.proceed, hstate] at hresult
    exact h.callLoop hstate hresult

/-- An activation of a getter that waits for a reply which has not started. -/
theorem Quiet.activate {e : GetterEvent} {code : GetterCode} (h : Quiet fg)
    (hresult : fg.activate e = .ok (fg', code)) : Unanswered fg fg' code ∧ SameErrand fg fg' := by
  have hassert : fg.AssertState := by
    by_contra hnot
    unfold Filegetter.activate at hresult
    rw [if_neg hnot] at hresult
    cases hresult
  rw [activate_of_receive h.state hassert] at hresult
  exact h.callLoop hresult

/-- An activation of a getter that receives a reply. -/
theorem Hears.activate {e : GetterEvent} {code : GetterCode} {reply : Option Bytes} {rest : Bytes}
    (h : Hears reply (fg.after rest)) (hsmall : ∀ body, reply = some body → body.length < 2 ^ 31)
    (hresult : fg.activate e = .ok (fg', code)) :
    Reports reply (fg'.after rest) code ∧ SameErrand fg fg' := by
  have hassert : fg.AssertState := by
    by_contra hnot
    unfold Filegetter.activate at hresult
    rw [if_neg hnot] at hresult
    cases hresult
  rw [activate_of_receive h.listens.state hassert] at hresult
  exact h.callLoop hsmall hresult

end ShadowExtras.FileTransfer
