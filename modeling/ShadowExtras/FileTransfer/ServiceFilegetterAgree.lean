import ShadowExtras.FileTransfer.ServiceFilegetter

/-!
# The service and its getter agree

The service and its getter keep states of their own. What an activation does to the getter is said
once, by `returns_activate`, and what a pass does to the service by `startOver_cases`,
`afterGetter_cases` and `complete_cases`. From these follows that the two states agree (`Agrees`) in
every run: a thinking service has a getter that waits for its next download, and a downloading
service has one in the middle of a download, or one that was shut down.
-/

namespace ShadowExtras.FileTransfer

open Foundation

/-! ## What an activation does to the getter -/

/-- The state and socket part of `FG_ASSERTSTATE`. -/
def Filegetter.Live (fg : Filegetter) : Prop := fg.state ≠ .idle ∧ fg.sockd ≠ 0

/-- A getter that sends or receives knows how to go on. -/
def Filegetter.Directed (fg : Filegetter) : Prop :=
  fg.state = .send ∨ fg.state = .receive → fg.nextstate ≠ .idle

/-- A getter that sends or receives. Its socket is not zero if no connection got the descriptor
zero, which is what `nonzero` says. -/
structure Filegetter.Calling (nonzero : Prop) (fg : Filegetter) : Prop where
  state : fg.state = .send ∨ fg.state = .receive
  nextstate : fg.nextstate ≠ .idle
  sockd : nonzero → fg.sockd ≠ 0

/-- Between two moments of one download: the aggregate times did not change, and what was added to
the body bytes of the download was added to those of all downloads. -/
structure Counts (fg fg' : Filegetter) : Prop where
  sspec : fg'.sspec = fg.sspec
  firstByteTime : fg'.allstats.firstByteTime = fg.allstats.firstByteTime
  downloadTime : fg'.allstats.downloadTime = fg.allstats.downloadTime
  body : fg'.allstats.bodyBytesDownloaded + fg.curstats.bodyBytesDownloaded =
    fg.allstats.bodyBytesDownloaded + fg'.curstats.bodyBytesDownloaded

/-- The download is complete and its statistics were added to those of all downloads. -/
structure Completes (fg fg' : Filegetter) : Prop where
  sspec : fg'.sspec = fg.sspec
  state : fg'.state = .spec
  sockd : fg.sspec.persistent = false → fg'.sockd = 0
  firstByteTime : fg'.allstats.firstByteTime =
    fg.allstats.firstByteTime.plus fg'.curstats.firstByteTime
  downloadTime : fg'.allstats.downloadTime = fg.allstats.downloadTime.plus fg'.curstats.downloadTime
  body : fg'.allstats.bodyBytesDownloaded + fg.curstats.bodyBytesDownloaded =
    fg.allstats.bodyBytesDownloaded + fg'.curstats.bodyBytesDownloaded

/-- What a return of the getter means for the download. -/
structure Returns (nonzero : Prop) (fg fg' : Filegetter) (code : GetterCode) : Prop where
  blocked : code = .errWouldblock → fg'.Calling nonzero
  complete : code = .ok200 → Completes fg fg'
  incomplete : code ≠ .ok200 → Counts fg fg'

/-- What the getter does up to its next call of `send` or `recv`. -/
def Kept (nonzero : Prop) (fg : Filegetter) : Next → Prop
  | .call fg' => fg'.Calling nonzero ∧ Counts fg fg'
  | .return fg' code => Returns nonzero fg fg' code

/-- A connection does not get the descriptor zero. -/
def Connect.NonZero : Connect → Prop
  | .failed => True
  | .connected sockd _ => sockd ≠ 0

instance (c : Connect) : Decidable c.NonZero :=
  match c with
  | .failed => instDecidableTrue
  | .connected sockd _ => inferInstanceAs (Decidable (sockd ≠ 0))

/-- No reconnection during an activation of the getter gets the descriptor zero. -/
def GetterEvent.NonZero (e : GetterEvent) : Prop :=
  e.around.reconnect.NonZero ∧ ∀ call ∈ e.calls, call.around.reconnect.NonZero

instance (e : GetterEvent) : Decidable e.NonZero := by
  unfold GetterEvent.NonZero
  infer_instance

/-- Nothing is counted between a moment and itself. -/
theorem Counts.refl (fg : Filegetter) : Counts fg fg := ⟨rfl, rfl, rfl, rfl⟩

section Getter

variable {nonzero : Prop} {fg fg' m : Filegetter} {around : Surroundings} {n : Next}
  {code : GetterCode}

/-- What counts, one after the other. -/
theorem Counts.trans (h : Counts fg m) (h' : Counts m fg') : Counts fg fg' where
  sspec := h'.sspec.trans h.sspec
  firstByteTime := h'.firstByteTime.trans h.firstByteTime
  downloadTime := h'.downloadTime.trans h.downloadTime
  body := by
    have := h.body
    have := h'.body
    omega

/-- A getter that counts may complete. -/
theorem Counts.completes (h : Counts fg m) (h' : Completes m fg') : Completes fg fg' where
  sspec := h'.sspec.trans h.sspec
  state := h'.state
  sockd := by
    rw [← h.sspec]
    exact h'.sockd
  firstByteTime := by rw [h'.firstByteTime, h.firstByteTime]
  downloadTime := by rw [h'.downloadTime, h.downloadTime]
  body := by
    have := h.body
    have := h'.body
    omega

/-- What was kept from a later moment on was kept. -/
theorem Counts.kept (h : Counts fg m) (hn : Kept nonzero m n) : Kept nonzero fg n := by
  cases n with
  | call fg' => exact ⟨hn.1, h.trans hn.2⟩
  | «return» fg' code =>
    exact ⟨hn.blocked, fun hok => h.completes (hn.complete hok),
      fun hne => h.trans (hn.incomplete hne)⟩

/-- A return with an error. -/
theorem kept_return (hcounts : Counts fg fg') (hblock : code ≠ .errWouldblock)
    (hok : code ≠ .ok200) :
    Kept nonzero fg (.return fg' code) :=
  ⟨fun h => absurd h hblock, fun h => absurd h hok, fun _ => hcounts⟩

/-- A getter that dies keeps what was counted. -/
theorem kept_die (hcounts : Counts fg fg') : Kept nonzero fg fg'.die := by
  show Kept nonzero fg (.return fg'.shutdown .errFatal)
  refine kept_return ?_ (by decide) (by decide)
  exact ⟨hcounts.sspec, hcounts.firstByteTime, hcounts.downloadTime, hcounts.body⟩

/-- Going on to send. -/
theorem kept_sendThen (hcounts : Counts fg m) (hsockd : nonzero → m.sockd ≠ 0)
    {nextstate : GetterState}
    (hnext : nextstate ≠ .idle) : Kept nonzero fg (.call (m.sendThen nextstate)) := by
  constructor
  · exact ⟨.inl rfl, hnext, hsockd⟩
  · exact ⟨hcounts.sspec, hcounts.firstByteTime, hcounts.downloadTime, hcounts.body⟩

/-- Going on to receive. -/
theorem kept_toReply (hcounts : Counts fg m) (hsockd : nonzero → m.sockd ≠ 0)
    {nextstate : GetterState}
    (hnext : nextstate ≠ .idle) : Kept nonzero fg (.call (m.toReply nextstate)) := by
  constructor
  · exact ⟨.inr rfl, hnext, hsockd⟩
  · exact ⟨hcounts.sspec, hcounts.firstByteTime, hcounts.downloadTime, hcounts.body⟩

/-- The first message to the proxy keeps what was counted. -/
theorem kept_requestSocksInit (hcounts : Counts fg m) (hsockd : nonzero → m.sockd ≠ 0)
    (h : m.requestSocksInit = .ok n) : Kept nonzero fg n := by
  unfold Filegetter.requestSocksInit at h
  split_ifs at h
  obtain rfl := Except.ok.inj h
  refine kept_sendThen ?_ ?_ ?_
  · exact ⟨hcounts.sspec, hcounts.firstByteTime, hcounts.downloadTime, hcounts.body⟩
  · exact hsockd
  · decide

/-- The request to the proxy keeps what was counted. -/
theorem kept_requestSocksConn (hcounts : Counts fg m) (hsockd : nonzero → m.sockd ≠ 0)
    (h : m.requestSocksConn = .ok n) : Kept nonzero fg n := by
  unfold Filegetter.requestSocksConn at h
  dsimp only at h
  split_ifs at h
  all_goals
    obtain rfl := Except.ok.inj h
    refine kept_sendThen ?_ ?_ ?_
    · exact ⟨hcounts.sspec, hcounts.firstByteTime, hcounts.downloadTime, hcounts.body⟩
    · exact hsockd
    · decide

/-- The first reply of the proxy keeps what was counted. -/
theorem kept_replySocksInit (hcounts : Counts fg m) (hsockd : nonzero → m.sockd ≠ 0)
    (h : m.replySocksInit = .ok n) : Kept nonzero fg n := by
  unfold Filegetter.replySocksInit at h
  split at h
  · split_ifs at h
    · obtain rfl := Except.ok.inj h
      exact kept_return hcounts (by decide) (by decide)
    · refine kept_requestSocksConn ?_ ?_ h
      · exact ⟨hcounts.sspec, hcounts.firstByteTime, hcounts.downloadTime, hcounts.body⟩
      · exact hsockd
  · obtain rfl := Except.ok.inj h
    exact kept_toReply hcounts hsockd (by decide)

/-- The request to the server keeps what was counted. -/
theorem kept_requestHttp (hcounts : Counts fg m) (hsockd : nonzero → m.sockd ≠ 0)
    (h : m.requestHttp = .ok n) : Kept nonzero fg n := by
  unfold Filegetter.requestHttp at h
  dsimp only at h
  split_ifs at h
  · obtain rfl := Except.ok.inj h
    exact kept_die hcounts
  · obtain rfl := Except.ok.inj h
    refine kept_sendThen ?_ ?_ ?_
    · exact ⟨hcounts.sspec, hcounts.firstByteTime, hcounts.downloadTime, hcounts.body⟩
    · exact hsockd
    · decide

/-- The reply of the proxy keeps what was counted. -/
theorem kept_replySocksConn (hcounts : Counts fg m) (hsockd : nonzero → m.sockd ≠ 0)
    (haround : nonzero → around.reconnect.NonZero) (h : m.replySocksConn around = .ok n) :
    Kept nonzero fg n := by
  unfold Filegetter.replySocksConn at h
  split at h
  · split_ifs at h
    · obtain rfl := Except.ok.inj h
      exact kept_return hcounts (by decide) (by decide)
    · cases hconnect : around.reconnect with
      | failed =>
        simp only [hconnect, Filegetter.connect] at h
        obtain rfl := Except.ok.inj h
        refine kept_return ?_ (by decide) (by decide)
        exact ⟨hcounts.sspec, hcounts.firstByteTime, hcounts.downloadTime, hcounts.body⟩
      | connected sockd incoming =>
        rw [hconnect] at haround
        simp only [hconnect, Filegetter.connect] at h
        refine kept_requestHttp ?_ ?_ h
        · exact ⟨hcounts.sspec, hcounts.firstByteTime, hcounts.downloadTime, hcounts.body⟩
        · exact haround
    · refine kept_requestHttp ?_ ?_ h
      · exact ⟨hcounts.sspec, hcounts.firstByteTime, hcounts.downloadTime, hcounts.body⟩
      · exact hsockd
  · obtain rfl := Except.ok.inj h
    exact kept_toReply hcounts hsockd (by decide)


/-- Counting body bytes counts them twice: for the download and for all downloads. -/
theorem counts_countBody (hcounts : Counts fg m) (bytes : Nat) :
    Counts fg (m.countBody around bytes) := by
  refine hcounts.trans ?_
  unfold Filegetter.countBody
  by_cases hfirst : m.curstats.bodyBytesDownloaded = 0 ∧ bytes > 0
  · rw [if_pos hfirst]
    exact ⟨rfl, rfl, rfl, by simp only; omega⟩
  · rw [if_neg hfirst]
    exact ⟨rfl, rfl, rfl, by simp only; omega⟩

/-- Counting the bytes of a body leaves the socket alone. -/
theorem sockd_countBody (bytes : Nat) : (m.countBody around bytes).sockd = m.sockd := by
  unfold Filegetter.countBody
  by_cases hfirst : m.curstats.bodyBytesDownloaded = 0 ∧ bytes > 0
  · rw [if_pos hfirst]
  · rw [if_neg hfirst]

/-- The end of a download. -/
theorem completes_finish (hcounts : Counts fg m) : Completes fg (m.finish around) := by
  refine hcounts.completes ?_
  unfold Filegetter.finish
  dsimp only
  split_ifs with hpersistent
  · exact ⟨rfl, rfl, fun h => absurd (h.symm.trans hpersistent) (by decide), rfl, rfl, rfl⟩
  · exact ⟨rfl, rfl, fun _ => rfl, rfl, rfl, rfl⟩

/-- A check of the download keeps what was counted. -/
theorem kept_checkDownload (hcounts : Counts fg m) (hsockd : nonzero → m.sockd ≠ 0) :
    Kept nonzero fg (m.checkDownload around) := by
  have hbody : Counts fg (m.countBody around (m.buf.drop m.bufReadOffset).length) :=
    counts_countBody hcounts _
  have hopen : (m.countBody around (m.buf.drop m.bufReadOffset).length).sockd = m.sockd :=
    sockd_countBody _
  unfold Filegetter.checkDownload
  dsimp only
  generalize m.countBody around (m.buf.drop m.bufReadOffset).length = c at hbody hopen ⊢
  by_cases hfile : c.f = true ∧ ¬around.fwriteOk = true
  · rw [if_pos hfile]
    refine kept_die ?_
    exact ⟨hbody.sspec, hbody.firstByteTime, hbody.downloadTime, hbody.body⟩
  · rw [if_neg hfile]
    by_cases hall : c.curstats.bodyBytesDownloaded ≥ c.curstats.bodyBytesExpected
    · rw [if_pos hall]
      refine ⟨fun h => absurd h (by decide), fun _ => completes_finish ?_, fun h => absurd rfl h⟩
      exact ⟨hbody.sspec, hbody.firstByteTime, hbody.downloadTime, hbody.body⟩
    · rw [if_neg hall]
      constructor
      · refine ⟨.inr rfl, by simp, ?_⟩
        show nonzero → c.sockd ≠ 0
        rw [hopen]
        exact hsockd
      · exact ⟨hbody.sspec, hbody.firstByteTime, hbody.downloadTime, hbody.body⟩

/-- The header of a reply keeps what was counted. -/
theorem kept_replyHttp (hcounts : Counts fg m) (hsockd : nonzero → m.sockd ≠ 0)
    (h : m.replyHttp around = .ok n) : Kept nonzero fg n := by
  unfold Filegetter.replyHttp at h
  dsimp only at h
  split_ifs at h
  split at h
  · obtain rfl := Except.ok.inj h
    refine kept_return ?_ (by decide) (by decide)
    exact ⟨hcounts.sspec, hcounts.firstByteTime, hcounts.downloadTime, hcounts.body⟩
  · split at h
    · split at h
      · obtain rfl := Except.ok.inj h
        exact kept_die hcounts
      · obtain rfl := Except.ok.inj h
        refine kept_checkDownload ?_ ?_
        · exact ⟨hcounts.sspec, hcounts.firstByteTime, hcounts.downloadTime, hcounts.body⟩
        · exact hsockd
    · obtain rfl := Except.ok.inj h
      constructor
      · exact ⟨.inr rfl, by simp, hsockd⟩
      · exact ⟨hcounts.sspec, hcounts.firstByteTime, hcounts.downloadTime, hcounts.body⟩

/-- The loop over `goto start`; a getter that is told to send or to receive knows how to go on. -/
theorem kept_proceed (hcounts : Counts fg m) (hsockd : nonzero → m.sockd ≠ 0)
    (hnext : m.Directed)
    (haround : nonzero → around.reconnect.NonZero) (h : m.proceed around = .ok n) :
    Kept nonzero fg n := by
  have hstates : ∀ code, code ≠ .errWouldblock → code ≠ .ok200 →
      Except.ok (Next.return m code) = (Except.ok n : Except Fault Next) → Kept nonzero fg n := by
    intro code hblock hok h
    obtain rfl := Except.ok.inj h
    exact kept_return hcounts hblock hok
  unfold Filegetter.proceed at h
  cases hstate : m.state with
  | idle =>
    simp only [hstate] at h
    exact hstates .errNotstarted (by decide) (by decide) h
  | spec =>
    simp only [hstate] at h
    exact hstates .errNeedfspec (by decide) (by decide) h
  | send | receive =>
    simp only [hstate] at h
    obtain rfl := Except.ok.inj h
    exact ⟨⟨by simp [hstate], hnext (by simp [hstate]), hsockd⟩, hcounts⟩
  | checkDownload =>
    simp only [hstate] at h
    obtain rfl := Except.ok.inj h
    exact kept_checkDownload hcounts hsockd
  | requestSocksInit =>
    simp only [hstate] at h
    exact kept_requestSocksInit hcounts hsockd h
  | replySocksInit =>
    simp only [hstate] at h
    exact kept_replySocksInit hcounts hsockd h
  | requestSocksConn =>
    simp only [hstate] at h
    exact kept_requestSocksConn hcounts hsockd h
  | replySocksConn =>
    simp only [hstate] at h
    exact kept_replySocksConn hcounts hsockd haround h
  | requestHttp =>
    simp only [hstate] at h
    exact kept_requestHttp hcounts hsockd h
  | replyHttp =>
    simp only [hstate] at h
    exact kept_replyHttp hcounts hsockd h
  | toReplySocksInit | toReplySocksConn | toReplyHttp =>
    simp only [hstate] at h
    obtain rfl := Except.ok.inj h
    exact kept_toReply hcounts hsockd (by decide)

/-- A call that fails. -/
theorem kept_ioError (hcounts : Counts fg m) (hcalling : m.Calling nonzero) (excused : Bool) :
    Kept nonzero fg (m.ioError excused code) := by
  unfold Filegetter.ioError
  split_ifs
  · exact ⟨fun _ => hcalling, fun h => absurd h (by decide), fun _ => hcounts⟩
  · refine kept_die ?_
    exact ⟨hcounts.sspec, hcounts.firstByteTime, hcounts.downloadTime, hcounts.body⟩

/-- Sending keeps what was counted. -/
theorem kept_send {call : Call} (hcalling : fg.Calling nonzero) (hstate : fg.state = .send)
    (hcall : nonzero → call.around.reconnect.NonZero) (h : fg.send call = .ok n) :
    Kept nonzero fg n := by
  unfold Filegetter.send at h
  split_ifs at h
  have hcounts : ∀ bytes, Counts fg (fg.advance bytes) := fun _ => ⟨rfl, rfl, rfl, rfl⟩
  cases hanswer : call.answer.send (fg.buf.length - fg.bufReadOffset) with
  | error errno =>
    rw [hanswer] at h
    obtain rfl := Except.ok.inj h
    exact kept_ioError (.refl fg) hcalling _
  | ok bytes =>
    rw [hanswer] at h
    cases bytes with
    | zero =>
      obtain rfl := Except.ok.inj h
      exact kept_die ⟨rfl, rfl, rfl, rfl⟩
    | succ bytes =>
      dsimp only at h
      split_ifs at h
      · refine kept_proceed (m := { fg.advance (bytes + 1) with
          buf := [], bufReadOffset := 0, state := fg.nextstate }) ?_ ?_ ?_ hcall h
        · exact ⟨rfl, rfl, rfl, rfl⟩
        · exact hcalling.sockd
        · exact fun _ => hcalling.nextstate
      · obtain rfl := Except.ok.inj h
        exact ⟨⟨.inl hstate, hcalling.nextstate, hcalling.sockd⟩, hcounts _⟩

/-- Receiving keeps what was counted. -/
theorem kept_receive {call : Call} (hcalling : fg.Calling nonzero)
    (hcall : nonzero → call.around.reconnect.NonZero) (h : fg.receive call = .ok n) :
    Kept nonzero fg n := by
  unfold Filegetter.receive at h
  cases hanswer : call.answer.recv fg.incoming (bufSize - fg.buf.length) with
  | error errno =>
    rw [hanswer] at h
    obtain rfl := Except.ok.inj h
    exact kept_ioError (.refl fg) hcalling _
  | ok bytes =>
    rw [hanswer] at h
    cases bytes with
    | nil =>
      obtain rfl := Except.ok.inj h
      exact kept_die ⟨rfl, rfl, rfl, rfl⟩
    | cons b bs =>
      refine kept_proceed (m := fg.received (b :: bs)) ?_ ?_ ?_ hcall h
      · exact ⟨rfl, rfl, rfl, rfl⟩
      · exact hcalling.sockd
      · exact fun _ => hcalling.nextstate

/-- The calls of `send` and `recv`. -/
theorem returns_callLoop {calls : List Call} (hcalling : fg.Calling nonzero)
    (hcalls : nonzero → ∀ call ∈ calls, call.around.reconnect.NonZero)
    (h : fg.callLoop calls = .ok (fg', code)) : Returns nonzero fg fg' code := by
  induction calls generalizing fg with
  | nil =>
    obtain ⟨rfl, rfl⟩ := Prod.mk.inj (Except.ok.inj h)
    exact ⟨fun _ => hcalling, fun hok => absurd hok (by decide), fun _ => .refl fg⟩
  | cons call calls ih =>
    have hcall : nonzero → call.around.reconnect.NonZero := fun h0 => hcalls h0 call (by simp)
    have hkept : ∀ n, (if fg.state = .send then fg.send call else fg.receive call) = .ok n →
        Kept nonzero fg n := by
      intro n hn
      split_ifs at hn with hstate
      · exact kept_send hcalling hstate hcall hn
      · exact kept_receive hcalling hcall hn
    rw [Filegetter.callLoop] at h
    split at h
    · cases h
    · rename_i fg₁ code₁ hn
      obtain ⟨rfl, rfl⟩ := Prod.mk.inj (Except.ok.inj h)
      exact hkept _ hn
    · rename_i m hn
      obtain ⟨hcalling', hcounts⟩ := hkept _ hn
      exact hcounts.kept (n := .return fg' code)
        (ih hcalling' (fun h0 c hc => hcalls h0 c (by simp [hc])) h)

/-- What an activation of a getter does to it. -/
theorem returns_activate {e : GetterEvent} (hdirected : fg.Directed)
    (h : fg.activate e = .ok (fg', code)) : Returns e.NonZero fg fg' code := by
  unfold Filegetter.activate at h
  split_ifs at h with hassert
  have hkept : ∀ n, fg.proceed e.around = .ok n → Kept e.NonZero fg n := fun n hn =>
    kept_proceed (.refl fg) (fun _ => hassert.2.1) hdirected (fun h0 => h0.1) hn
  split at h
  · cases h
  · rename_i fg₁ code₁ hn
    obtain ⟨rfl, rfl⟩ := Prod.mk.inj (Except.ok.inj h)
    exact hkept _ hn
  · rename_i m hn
    obtain ⟨hcalling, hcounts⟩ := hkept _ hn
    exact hcounts.kept (n := .return fg' code) (returns_callLoop hcalling (fun h0 => h0.2) h)

end Getter

/-! ## Agreement of the service and its getter -/

/-- What the service makes of its arguments: the connection is not persistent and nothing is
saved. -/
structure Download.Plain (dl : Download) : Prop where
  persistent : dl.sspec.persistent = false
  doSave : dl.fspec.doSave = false

/-- A getter that waits for its next download. -/
structure Filegetter.Rests (fg : Filegetter) : Prop where
  state : fg.state = .spec
  sockd : fg.sockd = 0

/-- A getter in the middle of a download. -/
structure Filegetter.Runs (fg : Filegetter) : Prop where
  state : fg.state ≠ .idle
  directed : fg.Directed
  persistent : fg.sspec.persistent = false

/-- A getter that was shut down. -/
structure Filegetter.Dead (fg : Filegetter) : Prop where
  state : fg.state = .idle
  sockd : fg.sockd = 0

/-- The state of the service agrees with the state of its getter. -/
structure Agrees (s : ServiceFilegetter) : Prop where
  picks : s.state = .thinking ∨ s.state = .downloading →
    ∀ next, ∃ dl, s.picked next = some dl ∧ dl.Plain
  thinking : s.state = .thinking → s.fg.Rests
  downloading : s.state = .downloading → s.fg.Runs ∨ s.fg.Dead
  control : ∀ sockd, s.control = .reactivate sockd → s.state = .thinking ∨ s.state = .downloading

/-- The getter after `filegetter_download`: what all cases have in common. -/
structure Begins (fg fg' : Filegetter) : Prop where
  persistent : fg'.sspec.persistent = false
  allstats : fg'.allstats = fg.allstats
  curstats : fg'.curstats = FileStats.zero

namespace ServiceFilegetter

/-- The service when its getter has returned. -/
def handBack (s : ServiceFilegetter) (fg : Filegetter) (code : GetterCode) : ServiceFilegetter :=
  { s with fg := fg, openSocket := openAfter fg code }

/-- The service when it has counted a complete download. -/
def counted (s : ServiceFilegetter) : ServiceFilegetter :=
  { s with
    downloadsCompleted := s.downloadsCompleted + 1
    state := .thinking
    completed := s.completed ++ [s.fg.curstats] }

/-- A download that is completed now is followed by the next one without a pause. -/
def ContinuesAtOnce (s : ServiceFilegetter) : Prop :=
  ¬(s.downloadsRequested > 0 ∧ ((s.downloadsCompleted + 1 : ℕ) : Int) ≥ s.downloadsRequested) ∧
    ¬(s.type = .multi ∧ s.thinkTimes = true)

instance (s : ServiceFilegetter) : Decidable s.ContinuesAtOnce := by
  unfold ContinuesAtOnce
  infer_instance

end ServiceFilegetter

section Service

variable {s s' t : ServiceFilegetter} {next : NextDownload} {p : Pass} {e : ServiceEvent}

/-- Every download that the service makes of its arguments is plain. -/
theorem plain_of_getDownloadFromArgs {getaddr : Bytes → Octets 4} {http : ServerArgs}
    {socks : Option ServerArgs} {filepath : Bytes} {dl : Download}
    (h : getDownloadFromArgs getaddr http socks filepath = some dl) : dl.Plain := by
  unfold getDownloadFromArgs at h
  dsimp only at h
  split_ifs at h
  all_goals
    obtain rfl := Option.some.inj h
    exact ⟨rfl, rfl⟩

/-- Starting a plain download with a getter that rests. -/
theorem download_cases {fg : Filegetter} (hrests : fg.Rests) {dl : Download} (hdl : dl.Plain)
    (next : NextDownload) :
    ∃ fg' code, fg.download dl.sspec dl.fspec next.fopenOk next.connection next.now = (fg', code) ∧
      Begins fg fg' ∧
      ((∃ sockd incoming, next.connection = .connected sockd incoming ∧ code = .success ∧
          fg'.sockd = sockd ∧ fg'.Runs) ∨
        next.connection = .failed ∧ code ≠ .success ∧ fg'.Rests) := by
  have hset : fg.setSpecs dl.sspec dl.fspec next.fopenOk = ({ fg with
      sspec := dl.sspec, fspec := dl.fspec
      content := if dl.fspec.saveToMemory then some [] else fg.content
      f := fg.f, fileContent := fg.fileContent, buf := [], bufReadOffset := 0
      curstats := FileStats.zero }, .success) := by
    simp [Filegetter.setSpecs, hrests.state, hdl.doSave]
  unfold Filegetter.download
  rw [hset]
  dsimp only
  rw [if_neg (by simp [hdl.persistent]), if_pos rfl]
  have hcommon : ∀ fg' : Filegetter, fg'.sspec = dl.sspec → fg'.allstats = fg.allstats →
      fg'.curstats = FileStats.zero → Begins fg fg' := by
    intro fg' hsspec hall hcur
    exact ⟨by rw [hsspec, hdl.persistent], hall, hcur⟩
  by_cases hsocks : dl.sspec.hasSocks = true
  · rw [if_pos hsocks]
    cases next.connection with
    | failed =>
        exact ⟨_, _, rfl, hcommon _ rfl rfl rfl, .inr ⟨rfl, by decide, hrests.state, hrests.sockd⟩⟩
    | connected sockd incoming =>
      refine ⟨_, _, rfl, hcommon _ rfl rfl rfl, .inl ⟨sockd, incoming, rfl, rfl, rfl, ?_⟩⟩
      exact ⟨by simp, by simp [Filegetter.Directed], hdl.persistent⟩
  · rw [if_neg hsocks]
    cases next.connection with
    | failed =>
        exact ⟨_, _, rfl, hcommon _ rfl rfl rfl, .inr ⟨rfl, by decide, hrests.state, hrests.sockd⟩⟩
    | connected sockd incoming =>
      refine ⟨_, _, rfl, hcommon _ rfl rfl rfl, .inl ⟨sockd, incoming, rfl, rfl, rfl, ?_⟩⟩
      exact ⟨by simp, by simp [Filegetter.Directed], hdl.persistent⟩

/-- What `service_filegetter_download_next` does with a getter that rests. -/
theorem downloadNext_cases (hrests : s.fg.Rests)
    (hpicks : ∃ dl, s.picked next = some dl ∧ dl.Plain) :
    ∃ fg' dl, s.picked next = some dl ∧ Begins s.fg fg' ∧
      ((∃ sockd incoming, next.connection = .connected sockd incoming ∧ fg'.sockd = sockd ∧
        fg'.Runs ∧
          s.downloadNext next = ({ s with
            state := .downloading, currentDownload := some dl, fg := fg', openSocket :=
          some sockd },
            .success)) ∨
        next.connection = .failed ∧ fg'.Rests ∧ ∃ code, code ≠ .success ∧
          s.downloadNext next = ({ s with currentDownload := some dl, fg := fg' }, code)) := by
  obtain ⟨dl, hpicked, hplain⟩ := hpicks
  obtain ⟨fg', code, hdownload, hbegins, hcases⟩ := download_cases hrests hplain next
  refine ⟨fg', dl, hpicked, hbegins, ?_⟩
  unfold ServiceFilegetter.downloadNext
  rw [hpicked]
  dsimp only
  rw [hdownload]
  dsimp only
  rcases hcases with ⟨sockd, incoming, hconnection, rfl, rfl, hruns⟩ | ⟨hconnection, hcode, hrests'⟩
  · exact .inl ⟨_, incoming, hconnection, rfl, hruns, by rw [if_pos rfl]⟩
  · exact .inr ⟨hconnection, hrests', code, hcode, by rw [if_neg hcode]⟩

/-- The pass from `start_over`. -/
theorem startOver_cases (s : ServiceFilegetter) (sockd : Int) (p : Pass) :
    (s.IsExpired p.expireCheck ∧ s.startOver sockd p = s.expired) ∨
      (s.state = .thinking ∧ p.thinkCheck.sec < s.wakeup.sec ∧
        s.startOver sockd p = s.leave .errWouldblock) ∨
      ∃ t, (¬s.IsExpired p.expireCheck ∧
          (s.state = .thinking ∧ s.wakeup.sec ≤ p.thinkCheck.sec ∧ t = (s.downloadNext p.next).1 ∨
            s.state ≠ .thinking ∧ t = s)) ∧
        (s.startOver sockd p = t.leave .errInvalid ∨
          t.state = .downloading ∧ t.fg.sockd = sockd ∧
            s.startOver sockd p = { t with control := .reactivate sockd }) := by
  unfold ServiceFilegetter.startOver
  by_cases hexpired : s.IsExpired p.expireCheck
  · exact .inl ⟨hexpired, by rw [if_pos hexpired]⟩
  · rw [if_neg hexpired]
    by_cases hearly : s.state = .thinking ∧ p.thinkCheck.sec < s.wakeup.sec
    · exact .inr (.inl ⟨hearly.1, hearly.2, by rw [if_pos hearly]⟩)
    · rw [if_neg hearly]
      refine .inr (.inr ⟨if s.state = .thinking then (s.downloadNext p.next).1 else s, ?_, ?_⟩)
      · refine ⟨hexpired, ?_⟩
        by_cases hthinking : s.state = .thinking
        · have hlate : ¬p.thinkCheck.sec < s.wakeup.sec := fun h => hearly ⟨hthinking, h⟩
          exact .inl ⟨hthinking, by omega, by rw [if_pos hthinking]⟩
        · exact .inr ⟨hthinking, by rw [if_neg hthinking]⟩
      · generalize (if s.state = .thinking then (s.downloadNext p.next).1 else s) = t
        dsimp only
        by_cases hready : t.state ≠ .downloading ∨ t.fg.sockd ≠ sockd
        · rw [if_pos hready]
          exact .inl rfl
        · rw [if_neg hready]
          rw [not_or, not_not, not_not] at hready
          exact .inr ⟨hready.1, hready.2, rfl⟩

/-- A download is complete: the service is done, thinks, or starts the next download at once. -/
theorem complete_cases (s : ServiceFilegetter) (sockd : Int) (p : Pass) :
    (∃ wakeup, s.complete sockd p = { s.counted with wakeup := wakeup }.expired) ∨
      (¬(s.downloadsRequested > 0 ∧ ((s.downloadsCompleted + 1 : ℕ) : Int) ≥ s.downloadsRequested) ∧
        s.complete sockd p =
          { s.counted.sleep (p.pauseFrom.after p.sleeptime) p.sleepAt p.sleeptime with
            control := .startOver sockd }) ∨
      (s.ContinuesAtOnce ∧ s.complete sockd p =
        { (s.counted.downloadNext p.following).1 with control := .reactivate sockd }) := by
  unfold ServiceFilegetter.complete
  dsimp only
  split_ifs with hlast hthinks
  · exact .inl ⟨s.wakeup, rfl⟩
  · exact .inl ⟨_, rfl⟩
  · exact .inr (.inl ⟨hlast, rfl⟩)
  · exact .inr (.inr ⟨⟨hlast, hthinks⟩, rfl⟩)

/-- What the service does when its getter has returned with `code`. -/
theorem afterGetter_cases (s : ServiceFilegetter) (sockd : Int) (p : Pass) (code : GetterCode) :
    ((code = .errFatal ∨ code = .errSocksconn) ∧ s.afterGetter sockd p code = s.retry p) ∨
      (code ≠ .ok200 ∧ code ≠ .errWouldblock ∧ s.afterGetter sockd p code = s.shutdown.leave code) ∨
      (code = .ok200 ∧ s.afterGetter sockd p code = s.complete sockd p) ∨
      (code = .errWouldblock ∧ s.afterGetter sockd p code = s.leave code) := by
  unfold ServiceFilegetter.afterGetter
  by_cases hretry : code = .errFatal ∨ code = .errSocksconn
  · exact .inl ⟨hretry, by rw [if_pos hretry]⟩
  · rw [if_neg hretry]
    by_cases hprotocol : code ≠ .ok200 ∧ code ≠ .errWouldblock
    · exact .inr (.inl ⟨hprotocol.1, hprotocol.2, by rw [if_pos hprotocol]⟩)
    · rw [if_neg hprotocol]
      by_cases hok : code = .ok200
      · exact .inr (.inr (.inl ⟨hok, by rw [if_pos hok]⟩))
      · have hblock : code = .errWouldblock := by
          by_contra hne
          exact hprotocol ⟨hok, hne⟩
        exact .inr (.inr (.inr ⟨hblock, by rw [if_neg hok]⟩))

theorem thinking_ne_downloading : ServiceState.thinking ≠ .downloading := by decide

theorem returned_ne_reactivate {code : GetterCode} {sockd : Int} :
    Control.returned code ≠ .reactivate sockd := by simp

/-- The state of a service that has expired. -/
theorem state_expired (s : ServiceFilegetter) : s.expired.state = .done := by
  unfold ServiceFilegetter.expired ServiceFilegetter.stop
  dsimp only
  split_ifs with hdone
  · rfl
  · exact not_not.mp hdone

/-- A service that is done agrees with its getter. -/
theorem agrees_expired (s : ServiceFilegetter) : Agrees s.expired where
  picks h := by simp [state_expired] at h
  thinking h := by simp [state_expired] at h
  downloading h := by simp [state_expired] at h
  control sockd h := by simp [ServiceFilegetter.expired, ServiceFilegetter.leave] at h

/-- Leaving an activation keeps the agreement. -/
theorem Agrees.leave (h : Agrees s) (code : GetterCode) : Agrees (s.leave code) where
  picks := h.picks
  thinking := h.thinking
  downloading := h.downloading
  control sockd hcontrol := by simp [ServiceFilegetter.leave] at hcontrol

/-- What can be picked after a download was picked could be picked before. -/
theorem picks_of_picked {dl : Download} (hpicks : ∀ next, ∃ dl, s.picked next = some dl ∧ dl.Plain)
    (hpicked : s.picked next = some dl) (htype : t.type = s.type)
    (hdownloads : t.downloads = s.downloads) (hcurrent : t.currentDownload = some dl)
    (next' : NextDownload) : ∃ dl', t.picked next' = some dl' ∧ dl'.Plain := by
  have hdl : dl.Plain := by
    obtain ⟨dl', hdl', hplain⟩ := hpicks next
    obtain rfl : dl = dl' := by simpa [hpicked] using hdl'
    exact hplain
  unfold ServiceFilegetter.picked
  rw [htype, hdownloads, hcurrent]
  cases hs : s.type with
  | single => exact ⟨dl, rfl, hdl⟩
  | multi =>
    obtain ⟨dl', hdl', hplain⟩ := hpicks next'
    rw [ServiceFilegetter.picked, hs] at hdl'
    exact ⟨dl', hdl', hplain⟩

/-- The service agrees with its getter after the next download was started, or could not be. -/
theorem Agrees.downloadNext (h : Agrees s) (hthinking : s.state = .thinking) (next : NextDownload) :
    Agrees (s.downloadNext next).1 ∧
      ((s.downloadNext next).1.state = .thinking ∨
        (s.downloadNext next).1.state = .downloading) := by
  have hpicks := h.picks (.inl hthinking)
  obtain ⟨fg', dl, hpicked, -, hcases⟩ := downloadNext_cases (h.thinking hthinking) (hpicks next)
  rcases hcases with ⟨sockd, incoming, -, -, hruns, ht⟩ | ⟨-, hrests, code, -, ht⟩
  · rw [ht]
    refine ⟨⟨fun _ => picks_of_picked hpicks hpicked rfl rfl rfl, fun h => by simp at h,
      fun _ => .inl hruns,
      fun _ _ => .inr rfl⟩, .inr rfl⟩
  · rw [ht]
    refine ⟨⟨fun _ => picks_of_picked hpicks hpicked rfl rfl rfl, fun _ => hrests, fun h => ?_,
      fun _ _ => .inl hthinking⟩,
      .inl hthinking⟩
    exact absurd (hthinking.symm.trans h) (by decide)

/-- A getter that is activated is in the middle of a download. -/
theorem runs_of_activate {g : GetterEvent} {fg' : Filegetter} {code : GetterCode} (h : Agrees s)
    {sockd : Int} (hcontrol : s.control = .reactivate sockd)
    (hactivate : s.fg.activate g = .ok (fg', code)) : s.state = .downloading ∧ s.fg.Runs := by
  have hassert : s.fg.AssertState := by
    by_contra hnot
    rw [Filegetter.activate, if_neg hnot] at hactivate
    cases hactivate
  rcases h.control sockd hcontrol with hthinking | hdownloading
  · exact absurd (h.thinking hthinking).sockd hassert.2.1
  · rcases h.downloading hdownloading with hruns | hdead
    · exact ⟨hdownloading, hruns⟩
    · exact absurd hdead.sockd hassert.2.1

/-- Starting over keeps the agreement. -/
theorem Agrees.startOver (h : Agrees s) (sockd : Int) (p : Pass) :
    Agrees (s.startOver sockd p) := by
  rcases startOver_cases s sockd p with ⟨-, heq⟩ | ⟨-, -, heq⟩ | ⟨t, ⟨-, ht⟩, hend⟩
  · rw [heq]
    exact agrees_expired s
  · rw [heq]
    exact h.leave _
  · have hagrees : Agrees t := by
      rcases ht with ⟨hthinking, -, rfl⟩ | ⟨-, rfl⟩
      · exact (h.downloadNext hthinking _).1
      · exact h
    rcases hend with heq | ⟨hdownloading, -, heq⟩
    · rw [heq]
      exact hagrees.leave _
    · rw [heq]
      exact ⟨hagrees.picks, hagrees.thinking, hagrees.downloading, fun _ _ => .inr hdownloading⟩

/-- The pass from `reactivate`: the getter returned, and the service retries, gives up, counts a
complete download or waits. -/
theorem reactivate_cases (h : Agrees s) {sockd : Int} (hcontrol : s.control = .reactivate sockd)
    (hstep : s.reactivate sockd p = .ok s') :
    ∃ fg' code, s.fg.activate p.getter = .ok (fg', code) ∧ s.state = .downloading ∧ s.fg.Runs ∧
      Returns p.getter.NonZero s.fg fg' code ∧
      (((code = .errFatal ∨ code = .errSocksconn) ∧ s' = (s.handBack fg' code).retry p) ∨
        (code ≠ .ok200 ∧ s' = (s.handBack fg' code).shutdown.leave code) ∨
        (code = .ok200 ∧ fg'.Rests ∧ Agrees (s.handBack fg' code).counted ∧
          ((∃ wakeup, s' = { (s.handBack fg' code).counted with wakeup := wakeup }.expired) ∨
            s' = { (s.handBack fg' code).counted.sleep (p.pauseFrom.after p.sleeptime) p.sleepAt
                p.sleeptime with control := .startOver sockd } ∨
            (s.ContinuesAtOnce ∧
              s' = { ((s.handBack fg' code).counted.downloadNext p.following).1 with
                control := .reactivate sockd }))) ∨
        (code = .errWouldblock ∧ s' = (s.handBack fg' code).leave code)) := by
  unfold ServiceFilegetter.reactivate at hstep
  cases hactivate : s.fg.activate p.getter with
  | error fault =>
    rw [hactivate] at hstep
    cases hstep
  | ok result =>
    obtain ⟨fg', code⟩ := result
    rw [hactivate] at hstep
    obtain rfl := Except.ok.inj hstep
    obtain ⟨hdownloading, hruns⟩ := runs_of_activate h hcontrol hactivate
    have hreturns := returns_activate hruns.directed hactivate
    refine ⟨fg', code, rfl, hdownloading, hruns, hreturns, ?_⟩
    rcases afterGetter_cases (s.handBack fg' code) sockd p code with
      ⟨hcode, heq⟩ | ⟨hok, -, heq⟩ | ⟨hok, heq⟩ | ⟨hblock, heq⟩
    · exact .inl ⟨hcode, heq⟩
    · exact .inr (.inl ⟨hok, heq⟩)
    · have hcomplete := hreturns.complete hok
      have hrests : fg'.Rests := ⟨hcomplete.state, hcomplete.sockd hruns.persistent⟩
      have hagrees : Agrees (s.handBack fg' code).counted :=
        ⟨fun _ => h.picks (.inr hdownloading), fun _ => hrests,
          fun h => absurd h thinking_ne_downloading, fun _ _ => .inl rfl⟩
      refine .inr (.inr (.inl ⟨hok, hrests, hagrees, ?_⟩))
      rcases complete_cases (s.handBack fg' code) sockd p with ⟨wakeup, hc⟩ | ⟨-, hc⟩ | ⟨honce, hc⟩
      · exact .inl ⟨wakeup, heq.trans hc⟩
      · exact .inr (.inl (heq.trans hc))
      · exact .inr (.inr ⟨honce, heq.trans hc⟩)
    · exact .inr (.inr (.inr ⟨hblock, heq⟩))

/-- Another activation keeps the agreement. -/
theorem Agrees.reactivate (h : Agrees s) {sockd : Int} (hcontrol : s.control = .reactivate sockd)
    (hstep : s.reactivate sockd p = .ok s') : Agrees s' := by
  obtain ⟨fg', code, -, hdownloading, hruns, hreturns, hcases⟩ := reactivate_cases h hcontrol hstep
  have hpicks := h.picks (.inr hdownloading)
  rcases hcases with ⟨-, rfl⟩ | ⟨-, rfl⟩ | ⟨-, hrests, hcounted, hnext⟩ | ⟨hblock, rfl⟩
  · refine ⟨fun _ => hpicks, fun _ => ⟨rfl, rfl⟩, fun h => ?_, fun _ h => ?_⟩
    · exact absurd h thinking_ne_downloading
    · exact absurd h returned_ne_reactivate
  · refine ⟨fun _ => hpicks, fun h => ?_, fun _ => .inr ⟨rfl, rfl⟩, fun _ h => ?_⟩
    · exact absurd (hdownloading.symm.trans h) (by decide)
    · exact absurd h returned_ne_reactivate
  · rcases hnext with ⟨wakeup, rfl⟩ | rfl | ⟨-, rfl⟩
    · exact agrees_expired _
    · refine ⟨fun _ => hpicks, fun _ => hrests, fun h => ?_, fun _ h => Control.noConfusion h⟩
      exact absurd h thinking_ne_downloading
    · obtain ⟨hagrees, hstate⟩ := hcounted.downloadNext rfl p.following
      exact ⟨hagrees.picks, hagrees.thinking, hagrees.downloading, fun _ _ => hstate⟩
  · have hcalling := hreturns.blocked hblock
    have hcounts := hreturns.incomplete (by rw [hblock]; decide)
    refine ⟨fun _ => hpicks, fun h => absurd (hdownloading.symm.trans h) (by decide),
      fun _ => .inl ⟨?_, fun _ => hcalling.nextstate, ?_⟩, fun _ h =>
        absurd h returned_ne_reactivate⟩
    · rcases hcalling.state with hstate | hstate <;>
        simp [ServiceFilegetter.leave, ServiceFilegetter.handBack, hstate]
    · exact (congrArg ServerSpec.persistent hcounts.sspec).trans hruns.persistent

/-- Every event keeps the agreement. -/
theorem Agrees.step (h : Agrees s) (hstep : s.step e = .ok s') : Agrees s' := by
  have hbegin : ∀ t : ServiceFilegetter, t.state = s.state → t.type = s.type →
      t.downloads = s.downloads → t.currentDownload = s.currentDownload → t.fg = s.fg →
      (∀ sockd, t.control ≠ .reactivate sockd) → Agrees t := by
    intro t hstate htype hdownloads hcurrent hfg hcontrol
    have hpicked : ∀ next, t.picked next = s.picked next := by
      intro next
      rw [ServiceFilegetter.picked, ServiceFilegetter.picked, htype, hdownloads, hcurrent]
    refine ⟨?_, ?_, ?_, fun sockd h => absurd h (hcontrol sockd)⟩
    · rw [hstate]
      intro hs next
      rw [hpicked]
      exact h.picks hs next
    · rw [hstate, hfg]
      exact h.thinking
    · rw [hstate, hfg]
      exact h.downloading
  unfold ServiceFilegetter.step at hstep
  split at hstep
  · obtain rfl := Except.ok.inj hstep
    exact hbegin _ rfl rfl rfl rfl rfl fun _ h => by cases h
  · split_ifs at hstep
    · obtain rfl := Except.ok.inj hstep
      exact hbegin _ rfl rfl rfl rfl rfl fun _ h => by cases h
    · obtain rfl := Except.ok.inj hstep
      exact h
  · obtain rfl := Except.ok.inj hstep
    exact h.startOver _ _
  · rename_i hcontrol
    exact h.reactivate hcontrol hstep
  · obtain rfl := Except.ok.inj hstep
    exact h

end Service

end ShadowExtras.FileTransfer
