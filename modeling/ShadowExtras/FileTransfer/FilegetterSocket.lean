import ShadowExtras.FileTransfer.Filegetter

/-!
# The socket of a persistent getter

A getter with a persistent connection keeps its socket open until `filegetter_die` closes it, or
exchanges it for another one when the proxy names an address. So an activation that does not return
`FG_ERR_FATAL` leaves the getter connected (`Established`), and one that does leaves it shut down.
-/

namespace ShadowExtras.FileTransfer

open Foundation

/-- The descriptors that a proxy's reply makes the getter connect to are descriptors. -/
def ReconnectsTo (around : Surroundings) : Prop :=
  match around.reconnect with
  | .failed => True
  | .connected sockd _ => 0 < sockd

instance (around : Surroundings) : Decidable (ReconnectsTo around) := by
  unfold ReconnectsTo
  split <;> infer_instance

/-- What happens around the calls of an activation can happen. -/
def Possible (e : GetterEvent) : Prop :=
  ReconnectsTo e.around ∧ ∀ call ∈ e.calls, ReconnectsTo call.around

instance (e : GetterEvent) : Decidable (Possible e) := by
  unfold Possible
  infer_instance

namespace Filegetter

variable {fg : Filegetter} {around : Surroundings} {call : Call} {result : Next}

/-- A getter with a persistent connection that is in use. -/
structure Established (fg : Filegetter) : Prop where
  sockd : 0 < fg.sockd
  state : fg.state ≠ .idle
  persistent : fg.sspec.persistent = true
  nextstate : fg.state = .send ∨ fg.state = .receive → fg.nextstate ≠ .idle

/-- A getter that was shut down. -/
structure Closed (fg : Filegetter) : Prop where
  sockd : fg.sockd = 0
  state : fg.state = .idle

/-- The getter is closed just if the code is `FG_ERR_FATAL`, and else it is connected. -/
def Ends (fg : Filegetter) (code : GetterCode) : Prop :=
  code = .errFatal ∧ fg.Closed ∨ code ≠ .errFatal ∧ fg.Established

/-- Where a state leads keeps the connection or ends it. -/
def Keeps : Next → Prop
  | .call fg => fg.Established ∧ (fg.state = .send ∨ fg.state = .receive)
  | .return fg code => fg.Ends code

theorem keeps_die (fg : Filegetter) : Keeps fg.die := .inl ⟨rfl, rfl, rfl⟩

/-- Another state on the same connection. -/
theorem Established.congr {fg' : Filegetter} (h : fg.Established) (hsockd : fg'.sockd = fg.sockd)
    (hsspec : fg'.sspec = fg.sspec) (hstate : fg'.state ≠ .idle)
    (hnext : fg'.state = .send ∨ fg'.state = .receive → fg'.nextstate ≠ .idle) :
    fg'.Established where
  sockd := by rw [hsockd]; exact h.sockd
  state := hstate
  persistent := by rw [hsspec]; exact h.persistent
  nextstate := hnext

/-- The first message to the proxy keeps the socket. -/
theorem Established.keeps_requestSocksInit (h : fg.Established)
    (hstep : fg.requestSocksInit = .ok result) :
    Keeps result := by
  unfold requestSocksInit at hstep
  split at hstep
  · cases hstep
  · obtain rfl := Except.ok.inj hstep
    refine ⟨?_, .inl rfl⟩
    apply h.congr <;> simp [sendThen]

/-- The request to the proxy keeps the socket. -/
theorem Established.keeps_requestSocksConn (h : fg.Established)
    (hstep : fg.requestSocksConn = .ok result) : Keeps result := by
  unfold requestSocksConn at hstep
  generalize (if fg.sspec.useHostname = true then 4 + 1 + fg.sspec.hostnameLength + 2 else 4 + 6) =
    needed at hstep
  dsimp only at hstep
  split at hstep
  · cases hstep
  · split at hstep
    · cases hstep
    · obtain rfl := Except.ok.inj hstep
      refine ⟨?_, .inl rfl⟩
      apply h.congr <;> simp [sendThen]

/-- Waiting for a reply keeps the socket. -/
theorem Established.keeps_toReply {nextstate : GetterState} (h : fg.Established)
    (hnext : nextstate ≠ .idle) : Keeps (.call (fg.toReply nextstate)) := by
  refine ⟨?_, .inr rfl⟩
  apply h.congr <;> simp [toReply, hnext]

/-- The first reply of the proxy keeps the socket. -/
theorem Established.keeps_replySocksInit (h : fg.Established)
    (hstep : fg.replySocksInit = .ok result) :
    Keeps result := by
  unfold replySocksInit at hstep
  split at hstep
  · split at hstep
    · obtain rfl := Except.ok.inj hstep
      exact .inr ⟨by simp, h⟩
    · refine Established.keeps_requestSocksConn ?_ hstep
      apply h.congr <;> simp
  · obtain rfl := Except.ok.inj hstep
    exact h.keeps_toReply (by simp)

/-- The request to the server keeps the socket. -/
theorem Established.keeps_requestHttp (h : fg.Established) (hstep : fg.requestHttp = .ok result) :
    Keeps result := by
  unfold requestHttp at hstep
  dsimp only at hstep
  split at hstep
  · cases hstep
  · split at hstep
    · obtain rfl := Except.ok.inj hstep
      exact keeps_die fg
    · split at hstep
      · cases hstep
      · obtain rfl := Except.ok.inj hstep
        refine ⟨?_, .inl rfl⟩
        apply h.congr <;> simp [sendThen]

/-- The reply of the proxy keeps the socket, or brings a new one. -/
theorem Established.keeps_replySocksConn (h : fg.Established) (haround : ReconnectsTo around)
    (hstep : fg.replySocksConn around = .ok result) : Keeps result := by
  unfold replySocksConn at hstep
  split at hstep
  · split at hstep
    · obtain rfl := Except.ok.inj hstep
      exact .inr ⟨by simp, h⟩
    · dsimp only at hstep
      split at hstep
      · unfold ReconnectsTo at haround
        cases hconnect : around.reconnect with
        | failed =>
          simp only [hconnect, connect] at hstep
          obtain rfl := Except.ok.inj hstep
          refine .inr ⟨by simp, ?_⟩
          exact ⟨h.sockd, h.state, h.persistent, h.nextstate⟩
        | connected sockd incoming =>
          rw [hconnect] at haround
          simp only [hconnect, connect] at hstep
          refine Established.keeps_requestHttp ?_ hstep
          exact ⟨haround, by simp, h.persistent, by simp⟩
      · refine Established.keeps_requestHttp ?_ hstep
        apply h.congr <;> simp
  · obtain rfl := Except.ok.inj hstep
    exact h.keeps_toReply (by simp)

/-- Counting the bytes of a body does not touch the connection. -/
theorem countBody_connection (fg : Filegetter) (around : Surroundings) (bytes : Nat) :
    (fg.countBody around bytes).sockd = fg.sockd ∧
    (fg.countBody around bytes).sspec = fg.sspec := by
  unfold countBody
  dsimp only
  split <;> exact ⟨rfl, rfl⟩

/-- A check of the download keeps the socket. -/
theorem Established.keeps_checkDownload (h : fg.Established) : Keeps (fg.checkDownload around) := by
  obtain ⟨hsockd, hsspec⟩ := countBody_connection fg around (fg.buf.drop fg.bufReadOffset).length
  have hpersistent : (fg.countBody around (fg.buf.drop fg.bufReadOffset).length).sspec.persistent =
      true := by
    rw [hsspec]
    exact h.persistent
  unfold checkDownload
  dsimp only
  split
  · exact keeps_die _
  · split
    · refine .inr ⟨by simp, ?_⟩
      unfold finish metricsComplete
      simp only [hpersistent, if_true]
      apply h.congr
      · exact hsockd
      · exact hsspec
      · simp
      · simp
    · refine ⟨?_, .inr rfl⟩
      apply h.congr
      · exact hsockd
      · exact hsspec
      · simp
      · simp

/-- The header of a reply keeps the socket. -/
theorem Established.keeps_replyHttp (h : fg.Established)
    (hstep : fg.replyHttp around = .ok result) :
    Keeps result := by
  unfold replyHttp at hstep
  dsimp only at hstep
  split at hstep
  · cases hstep
  · split at hstep
    · obtain rfl := Except.ok.inj hstep
      refine .inr ⟨by simp, ?_⟩
      apply h.congr <;> simp
    · split at hstep
      · split at hstep
        · obtain rfl := Except.ok.inj hstep
          exact keeps_die fg
        · obtain rfl := Except.ok.inj hstep
          apply Established.keeps_checkDownload
          apply h.congr <;> simp
      · obtain rfl := Except.ok.inj hstep
        refine ⟨?_, .inr rfl⟩
        apply h.congr <;> simp

/-- A state without a call keeps the socket. -/
theorem Established.keeps_proceed (h : fg.Established) (haround : ReconnectsTo around)
    (hstep : fg.proceed around = .ok result) : Keeps result := by
  unfold proceed at hstep
  cases hstate : fg.state with
  | idle => exact absurd hstate h.state
  | spec =>
    simp only [hstate] at hstep
    obtain rfl := Except.ok.inj hstep
    exact .inr ⟨by simp, h⟩
  | send =>
    simp only [hstate] at hstep
    obtain rfl := Except.ok.inj hstep
    exact ⟨h, .inl hstate⟩
  | receive =>
    simp only [hstate] at hstep
    obtain rfl := Except.ok.inj hstep
    exact ⟨h, .inr hstate⟩
  | checkDownload =>
    simp only [hstate] at hstep
    obtain rfl := Except.ok.inj hstep
    exact h.keeps_checkDownload
  | requestSocksInit =>
    simp only [hstate] at hstep
    exact h.keeps_requestSocksInit hstep
  | toReplySocksInit =>
    simp only [hstate] at hstep
    obtain rfl := Except.ok.inj hstep
    exact h.keeps_toReply (by simp)
  | replySocksInit =>
    simp only [hstate] at hstep
    exact h.keeps_replySocksInit hstep
  | requestSocksConn =>
    simp only [hstate] at hstep
    exact h.keeps_requestSocksConn hstep
  | toReplySocksConn =>
    simp only [hstate] at hstep
    obtain rfl := Except.ok.inj hstep
    exact h.keeps_toReply (by simp)
  | replySocksConn =>
    simp only [hstate] at hstep
    exact h.keeps_replySocksConn haround hstep
  | requestHttp =>
    simp only [hstate] at hstep
    exact h.keeps_requestHttp hstep
  | toReplyHttp =>
    simp only [hstate] at hstep
    obtain rfl := Except.ok.inj hstep
    exact h.keeps_toReply (by simp)
  | replyHttp =>
    simp only [hstate] at hstep
    exact h.keeps_replyHttp hstep

/-- A call that fails keeps the socket. -/
theorem Established.keeps_ioError (h : fg.Established) (excused : Bool) (errcode : GetterCode) :
    Keeps (fg.ioError excused errcode) := by
  unfold ioError
  split
  · exact .inr ⟨by simp, h⟩
  · exact keeps_die _

/-- Sending keeps the socket. -/
theorem Established.keeps_send (h : fg.Established) (hstate : fg.state = .send)
    (haround : ReconnectsTo call.around) (hstep : fg.send call = .ok result) : Keeps result := by
  have hnext := h.nextstate (.inl hstate)
  unfold send at hstep
  split at hstep
  · cases hstep
  · split at hstep
    · obtain rfl := Except.ok.inj hstep
      exact h.keeps_ioError _ _
    · obtain rfl := Except.ok.inj hstep
      exact keeps_die _
    · dsimp only at hstep
      split at hstep
      · refine Established.keeps_proceed ?_ haround hstep
        apply h.congr <;> simp [advance, hnext]
      · obtain rfl := Except.ok.inj hstep
        refine ⟨?_, .inl hstate⟩
        apply h.congr <;> simp [advance, hstate, hnext]

/-- Receiving keeps the socket. -/
theorem Established.keeps_receive (h : fg.Established) (hstate : fg.state = .receive)
    (haround : ReconnectsTo call.around) (hstep : fg.receive call = .ok result) : Keeps result := by
  have hnext := h.nextstate (.inr hstate)
  unfold receive at hstep
  split at hstep
  · obtain rfl := Except.ok.inj hstep
    exact h.keeps_ioError _ _
  · obtain rfl := Except.ok.inj hstep
    exact keeps_die _
  · refine Established.keeps_proceed ?_ haround hstep
    apply h.congr <;> simp [received, hnext]

/-- Any number of calls keeps the socket. -/
theorem Established.ends_callLoop {calls : List Call} {fg' : Filegetter} {code : GetterCode}
    (h : fg.Established) (hat : fg.state = .send ∨ fg.state = .receive)
    (harounds : ∀ call ∈ calls, ReconnectsTo call.around)
    (hstep : fg.callLoop calls = .ok (fg', code)) : fg'.Ends code := by
  induction calls generalizing fg with
  | nil =>
    obtain ⟨rfl, rfl⟩ := Prod.mk.inj (Except.ok.inj hstep)
    exact .inr ⟨by simp, h⟩
  | cons call calls ih =>
    have haround := harounds call (by simp)
    unfold callLoop at hstep
    cases hnext : (if fg.state = .send then fg.send call else fg.receive call) with
    | error fault => simp [hnext] at hstep
    | ok next =>
      have hkeeps : Keeps next := by
        split at hnext
        · rename_i hsend
          exact h.keeps_send hsend haround hnext
        · rename_i hsend
          exact h.keeps_receive (hat.resolve_left hsend) haround hnext
      simp only [hnext] at hstep
      cases next with
      | «return» fg₁ code₁ =>
        obtain ⟨rfl, rfl⟩ := Prod.mk.inj (Except.ok.inj hstep)
        exact hkeeps
      | call fg₁ =>
        exact ih hkeeps.1 hkeeps.2 (fun call hcall => harounds call (List.mem_cons_of_mem _ hcall))
          hstep

/-- An activation leaves the getter connected, or closed if it returns `FG_ERR_FATAL`. -/
theorem Established.ends_activate {e : GetterEvent} {fg' : Filegetter} {code : GetterCode}
    (h : fg.Established) (he : Possible e) (hstep : fg.activate e = .ok (fg', code)) :
    fg'.Ends code := by
  unfold activate at hstep
  split at hstep
  · split at hstep
    · cases hstep
    · rename_i fg₁ code₁ hproceed
      obtain ⟨rfl, rfl⟩ := Prod.mk.inj (Except.ok.inj hstep)
      exact h.keeps_proceed he.1 hproceed
    · rename_i fg₁ hproceed
      obtain ⟨h₁, hat⟩ := h.keeps_proceed he.1 hproceed
      exact h₁.ends_callLoop hat he.2 hstep
  · cases hstep

/-- Only a getter with a socket can be activated. -/
theorem sockd_ne_of_activate {e : GetterEvent} {x : Filegetter × GetterCode}
    (hstep : fg.activate e = .ok x) : fg.sockd ≠ 0 ∧ fg.state ≠ .idle := by
  unfold activate at hstep
  split at hstep
  · rename_i hassert
    exact ⟨hassert.2.1, hassert.1⟩
  · cases hstep

/-! ## Downloads -/

/-- `filegetter_set_specs` leaves the socket, and takes the specifications if the getter waits for
them. -/
theorem setSpecs_connection (fg : Filegetter) (sspec : ServerSpec) (fspec : FileSpec)
    (hsave : fspec.doSave = false) :
    (fg.setSpecs sspec fspec true).1.sockd = fg.sockd ∧
      (fg.setSpecs sspec fspec true).1.sspec = (if fg.state = .spec then sspec else fg.sspec) := by
  by_cases hspec : fg.state = .spec
  · simp [setSpecs, hspec, hsave]
  · simp [setSpecs, hspec]

/-- A connection that is established is used again. -/
theorem Established.download (h : fg.Established) (sspec : ServerSpec) (fspec : FileSpec)
    (connection : Connect) (now : Timespec) (hpersistent : sspec.persistent = true)
    (hsave : fspec.doSave = false) :
    (fg.download sspec fspec true connection now).1.sockd = fg.sockd ∧
      (fg.download sspec fspec true connection now).1.Established := by
  obtain ⟨hsockd, hsspec⟩ := setSpecs_connection fg sspec fspec hsave
  have hkept : (fg.setSpecs sspec fspec true).1.sspec.persistent = true := by
    rw [hsspec]
    split
    · exact hpersistent
    · exact h.persistent
  have hpos : (fg.setSpecs sspec fspec true).1.sockd > 0 := by
    rw [hsockd]
    exact h.sockd
  unfold Filegetter.download
  dsimp only
  rw [if_pos ⟨hkept, hpos⟩]
  refine ⟨hsockd, hpos, by simp, hkept, by simp⟩

/-- What `filegetter_download` leaves of a getter that was just started: it is connected, or it has
no socket. -/
theorem download_start (sspec : ServerSpec) (fspec : FileSpec) (connection : Connect)
    (now : Timespec) (hpersistent : sspec.persistent = true) (hsave : fspec.doSave = false)
    (hdial : ∀ sockd incoming, connection = .connected sockd incoming → 0 < sockd) :
    let fg := (start.download sspec fspec true connection now).1
    (connection = .failed ∧ fg.sockd = 0) ∨
      ∃ sockd incoming, connection = .connected sockd incoming ∧ fg.sockd = sockd ∧
        fg.Established := by
  obtain ⟨hsockd, hsspec⟩ := setSpecs_connection start sspec fspec hsave
  have hok : (start.setSpecs sspec fspec true).2 = .success := by simp [setSpecs, start, hsave]
  rw [if_pos (show start.state = .spec from rfl)] at hsspec
  have hnone : ¬((start.setSpecs sspec fspec true).1.sspec.persistent = true ∧
      (start.setSpecs sspec fspec true).1.sockd > 0) := by
    rw [hsockd]
    simp [start]
  unfold Filegetter.download
  dsimp only
  rw [if_neg hnone, if_pos hok]
  cases connection with
  | failed =>
    refine .inl ⟨by rfl, ?_⟩
    simp only [connect]
    split <;> exact hsockd
  | connected sockd incoming =>
    have hpos := hdial sockd incoming rfl
    refine .inr ⟨sockd, incoming, by rfl, ?_⟩
    simp only [connect]
    split <;> refine ⟨by simp, hpos, by simp, ?_, by simp⟩
    · rw [hsspec]
      exact hpersistent
    · rw [hsspec]
      exact hpersistent

/-! ## Downloads that are rejected -/

/-- Two getters that are the same to the socket, if there is one, and in all that follows. -/
structure Undisturbed (fg fg' : Filegetter) : Prop where
  same : fg' = { fg with epoll := fg'.epoll }
  epoll : fg.sockd ≠ 0 → fg'.epoll = fg.epoll
  continues : ∀ e, fg'.activate e = fg.activate e

/-- `filegetter_download` returns `FG_ERR_INVALID` and does nothing else. -/
def Rejects (fg : Filegetter) (sspec : ServerSpec) (fspec : FileSpec) (fopenOk : Bool)
    (connection : Connect) (now : Timespec) : Prop :=
  ∃ fg', fg.download sspec fspec fopenOk connection now = (fg', .errInvalid) ∧ Undisturbed fg fg'

/-- Without a socket the getter cannot be activated. -/
theorem activate_of_sockd_eq_zero (hsockd : fg.sockd = 0) (e : GetterEvent) :
    fg.activate e = .error .assertion := by
  unfold activate
  rw [if_neg fun hassert => hassert.2.1 hsockd]

/-- What `filegetter_download` does in a state other than `FG_SPEC`. -/
theorem download_of_state_ne (hstate : fg.state ≠ .spec) (sspec : ServerSpec) (fspec : FileSpec)
    (fopenOk : Bool) (connection : Connect) (now : Timespec) :
    fg.download sspec fspec fopenOk connection now =
      if fg.sspec.persistent = true ∧ fg.sockd > 0 then
        ({ fg with state := .requestHttp, epoll := .output }, .success)
      else ({ fg with epoll := .output }, .errInvalid) := by
  have hset : fg.setSpecs sspec fspec fopenOk = (fg, .errInvalid) := by
    unfold setSpecs
    rw [if_pos hstate]
  unfold Filegetter.download
  rw [hset]
  simp

/-- In a state other than `FG_SPEC` a download is rejected without a trace exactly if the getter has
no socket, or one that is not persistent and is watched for output. -/
theorem rejects_iff (hstate : fg.state ≠ .spec) (sspec : ServerSpec) (fspec : FileSpec)
    (fopenOk : Bool) (connection : Connect) (now : Timespec) :
    fg.Rejects sspec fspec fopenOk connection now ↔
      ¬(fg.sspec.persistent = true ∧ fg.sockd > 0) ∧ (fg.sockd ≠ 0 → fg.epoll = .output) := by
  unfold Rejects
  rw [download_of_state_ne hstate]
  constructor
  · rintro ⟨fg', hdownload, hundisturbed⟩
    split at hdownload
    · cases (Prod.mk.inj hdownload).2
    · rename_i hpersistent
      obtain ⟨rfl, -⟩ := Prod.mk.inj hdownload
      exact ⟨hpersistent, fun hsockd => (hundisturbed.epoll hsockd).symm⟩
  · rintro ⟨hpersistent, hepoll⟩
    refine ⟨{ fg with epoll := .output }, by rw [if_neg hpersistent], rfl, fun hsockd => ?_,
      fun e => ?_⟩
    · exact (hepoll hsockd).symm
    · by_cases hsockd : fg.sockd = 0
      · rw [activate_of_sockd_eq_zero hsockd]
        refine activate_of_sockd_eq_zero ?_ e
        exact hsockd
      · have hsame : { fg with epoll := .output } = fg := by rw [← hepoll hsockd]
        rw [hsame]

/-- A file to get. -/
def someFile : FileSpec :=
  { remotePath := ascii "/a", localPath := [], doSave := false, saveToMemory := false }

/-- A getter that has just connected to a server. -/
def connectedTo (persistent : Bool) : Filegetter :=
  (start.download { ServerSpec.zero with persistent := persistent } someFile true (.connected 4 [])
    ⟨0, 0⟩).1

/-- A getter that has connected but not sent its request yet. -/
theorem rejects_iff_connectedTo :
    (connectedTo false).Rejects ServerSpec.zero someFile true .failed ⟨1, 0⟩ ↔
      ¬((connectedTo false).sspec.persistent = true ∧ (connectedTo false).sockd > 0) ∧
        ((connectedTo false).sockd ≠ 0 → (connectedTo false).epoll = .output) := by
  have hstate : (connectedTo false).state ≠ .spec := by decide
  exact rejects_iff hstate ServerSpec.zero someFile true .failed ⟨1, 0⟩

/-- One call that passes as much as it can, with a clock that stands still. -/
def requestSent : GetterEvent :=
  let around : Surroundings :=
    { firstByte := ⟨0, 0⟩, progress := ⟨0, 0⟩, complete := ⟨0, 0⟩, fwriteOk := true,
      reconnect := .failed }
  { around := around, calls := [{ answer := .ready 99, around := around }] }

/-- A persistent getter that waits for its reply takes a second download for a new one. -/
theorem not_rejects_waiting :
    ∃ fg code, (connectedTo true).activate requestSent = .ok (fg, code) ∧ fg.state = .receive ∧
      ¬fg.Rejects ServerSpec.zero someFile true .failed ⟨1, 0⟩ := by
  have hwaits : ((connectedTo true).activate requestSent).toOption.map
      (fun x => (x.1.state, x.1.sspec.persistent, x.1.sockd)) = some (.receive, true, 4) := by
    decide +kernel
  cases hactivate : (connectedTo true).activate requestSent with
  | error fault => simp [hactivate, Except.toOption] at hwaits
  | ok x =>
    simp only [hactivate, Except.toOption, Option.map_some, Option.some.injEq, Prod.mk.injEq]
      at hwaits
    obtain ⟨hstate, hpersistent, hsockd⟩ := hwaits
    refine ⟨x.1, x.2, by rfl, hstate, ?_⟩
    rintro ⟨fg', hdownload, -⟩
    rw [download_of_state_ne (by simp [hstate]), if_pos ⟨hpersistent, by simp [hsockd]⟩]
      at hdownload
    cases (Prod.mk.inj hdownload).2

end Filegetter

end ShadowExtras.FileTransfer
