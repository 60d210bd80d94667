import ShadowExtras.Foundation.Fallible
import ShadowExtras.Foundation.Run
import ShadowExtras.FileTransfer.FilegetterSocket

/-!
# What the socket of a getter is watched for

The states `FG_SEND` and `FG_RECEIVE` are entered from the others, and only those change the event
that the socket is watched for: `FG_REQUEST_*` to `EPOLLOUT`, `FG_TOREPLY_*` to `EPOLLIN`. The two
loops that go back to `FG_RECEIVE` for more of a reply change nothing. `Waits` is what holds of a
getter between two activations, and `Ready` what holds whenever a state is entered.

`filegetter_download` sets `EPOLLOUT` on every path, also after `filegetter_set_specs` has refused
it. So the getter is watched for the wrong event if a download is refused while it waits for a
reply.
-/

namespace ShadowExtras.FileTransfer

open Foundation

/-! ## The use of a getter -/

/-- What a getter is called with. -/
inductive GetterUse
  | start
  | download (sspec : ServerSpec) (fspec : FileSpec) (fopenOk : Bool) (connection : Connect)
      (now : Timespec)
  | activate (e : GetterEvent)
  | shutdown
  deriving DecidableEq, Repr

namespace Filegetter

/-- One call. -/
def use (fg : Filegetter) : GetterUse → Except Fault Filegetter
  | .start => .ok start
  | .download sspec fspec fopenOk connection now =>
      .ok (fg.download sspec fspec fopenOk connection now).1
  | .activate e => (fg.activate e).map Prod.fst
  | .shutdown => .ok fg.shutdown

/-- The socket is watched for what the getter waits for. -/
structure Watched (fg : Filegetter) : Prop where
  send : fg.state = .send → fg.epoll = .output
  receive : fg.state = .receive → fg.epoll = .input

/-- Every activation that returns `FG_ERR_WOULDBLOCK` leaves the socket watched for what the getter
waits for. -/
def WatchedAtBlock (fg : Filegetter) : Prop :=
  ∀ e fg', fg.activate e = .ok (fg', .errWouldblock) → fg'.Watched

/-- `filegetter_download` is refused, and goes on to change what the socket is watched for. -/
def RefusesDownload (fg : Filegetter) : Prop :=
  fg.state ≠ .spec ∧ ¬(fg.sspec.persistent = true ∧ fg.sockd > 0)

instance (fg : Filegetter) : Decidable fg.RefusesDownload := by
  unfold RefusesDownload
  infer_instance

/-- No download is refused while the getter waits for a reply. -/
def InTurn (fg : Filegetter) : GetterUse → Prop
  | .download _ _ _ _ _ => ¬(fg.state = .receive ∧ fg.AssertState ∧ fg.RefusesDownload)
  | _ => True

instance (fg : Filegetter) (op : GetterUse) : Decidable (fg.InTurn op) := by
  unfold InTurn
  split <;> infer_instance

/-! ## Between two activations -/

/-- The states that follow when a request was sent. -/
def IsToReply (state : GetterState) : Prop :=
  state = .toReplySocksInit ∨ state = .toReplySocksConn ∨ state = .toReplyHttp

/-- The states that look at what was received. -/
def IsReply (state : GetterState) : Prop :=
  state = .replySocksInit ∨ state = .replySocksConn ∨ state = .replyHttp ∨ state = .checkDownload

/-- A getter that is about to enter its state. -/
structure Ready (fg : Filegetter) : Prop where
  send : fg.state = .send → fg.epoll = .output ∧ IsToReply fg.nextstate
  receive : fg.state = .receive → fg.epoll = .input ∧ IsReply fg.nextstate
  /-- The states that go back to `FG_RECEIVE` and change nothing. -/
  replyHttp : fg.state = .replyHttp → fg.epoll = .input
  checkDownload : fg.state = .checkDownload → fg.epoll = .input

/-- A getter between two activations. -/
structure Waits (fg : Filegetter) : Prop where
  ready : fg.Ready
  replyHttp : fg.state ≠ .replyHttp
  checkDownload : fg.state ≠ .checkDownload

/-- A state leads to a call of `send` or `recv`, or leaves the getter waiting. -/
def Leads : Next → Prop
  | .call fg => fg.Waits ∧ (fg.state = .send ∨ fg.state = .receive)
  | .return fg _ => fg.Waits

variable {fg fg' : Filegetter} {around : Surroundings} {call : Call} {result : Next}

theorem Waits.watched (h : fg.Waits) : fg.Watched :=
  ⟨fun hstate => (h.ready.send hstate).1, fun hstate => (h.ready.receive hstate).1⟩

/-- In the other states nothing is asked of the socket. -/
theorem waits_of_state (hsend : fg.state ≠ .send) (hreceive : fg.state ≠ .receive)
    (hreply : fg.state ≠ .replyHttp) (hcheck : fg.state ≠ .checkDownload) : fg.Waits where
  ready :=
    ⟨fun h => absurd h hsend, fun h => absurd h hreceive, fun h => absurd h hreply,
      fun h => absurd h hcheck⟩
  replyHttp := hreply
  checkDownload := hcheck

theorem waits_shutdown (fg : Filegetter) : fg.shutdown.Waits := by
  apply waits_of_state <;> simp [shutdown]

theorem leads_die (fg : Filegetter) : Leads fg.die := waits_shutdown fg

/-! ## One state after the other -/

/-- A message that is to be sent waits for output. -/
theorem leads_sendThen {nextstate : GetterState} (hnext : IsToReply nextstate) :
    Leads (.call (fg.sendThen nextstate)) := by
  refine ⟨⟨⟨fun _ => ⟨by simp [sendThen], hnext⟩, ?_, ?_, ?_⟩, ?_, ?_⟩, .inl (by simp [sendThen])⟩
    <;>
    simp [sendThen]

/-- The getter is in `FG_RECEIVE` on a socket that is watched for input. -/
theorem leads_receive (hstate : fg.state = .receive) (hepoll : fg.epoll = .input)
    (hnext : IsReply fg.nextstate) : Leads (.call fg) := by
  refine ⟨⟨⟨?_, fun _ => ⟨hepoll, hnext⟩, ?_, ?_⟩, ?_, ?_⟩, .inr hstate⟩ <;> simp [hstate]

/-- A reply that is to be received waits for input. -/
theorem leads_toReply {nextstate : GetterState} (hnext : IsReply nextstate) :
    Leads (.call (fg.toReply nextstate)) := by
  apply leads_receive
  · simp [toReply]
  · simp [toReply]
  · exact hnext

/-- The first message to the proxy waits for output. -/
theorem leads_requestSocksInit (hstep : fg.requestSocksInit = .ok result) : Leads result := by
  unfold requestSocksInit at hstep
  split at hstep
  · cases hstep
  · obtain rfl := Except.ok.inj hstep
    exact leads_sendThen (.inl rfl)

/-- The request to the proxy waits for output. -/
theorem leads_requestSocksConn (hstep : fg.requestSocksConn = .ok result) : Leads result := by
  unfold requestSocksConn at hstep
  dsimp only at hstep
  generalize (if fg.sspec.useHostname = true then 4 + 1 + fg.sspec.hostnameLength + 2 else 4 + 6) =
    needed at hstep
  split at hstep
  · cases hstep
  · split at hstep
    · cases hstep
    · obtain rfl := Except.ok.inj hstep
      exact leads_sendThen (.inr (.inl rfl))

/-- The first reply of the proxy is followed by a message. -/
theorem leads_replySocksInit (hstate : fg.state = .replySocksInit)
    (hstep : fg.replySocksInit = .ok result) : Leads result := by
  unfold replySocksInit at hstep
  split at hstep
  · split at hstep
    · obtain rfl := Except.ok.inj hstep
      apply waits_of_state <;> simp [hstate]
    · exact leads_requestSocksConn hstep
  · obtain rfl := Except.ok.inj hstep
    exact leads_toReply (.inl rfl)

/-- The request to the server waits for output. -/
theorem leads_requestHttp (hstep : fg.requestHttp = .ok result) : Leads result := by
  unfold requestHttp at hstep
  dsimp only at hstep
  split at hstep
  · cases hstep
  · split at hstep
    · obtain rfl := Except.ok.inj hstep
      exact leads_die fg
    · split at hstep
      · cases hstep
      · obtain rfl := Except.ok.inj hstep
        exact leads_sendThen (.inr (.inr rfl))

/-- The proxy has answered; with an address it is left for another socket. -/
theorem leads_replySocksConn (hstate : fg.state = .replySocksConn)
    (hstep : fg.replySocksConn around = .ok result) : Leads result := by
  unfold replySocksConn at hstep
  split at hstep
  · split at hstep
    · obtain rfl := Except.ok.inj hstep
      apply waits_of_state <;> simp [hstate]
    · dsimp only at hstep
      split at hstep
      · split at hstep
        · obtain rfl := Except.ok.inj hstep
          apply waits_of_state <;> simp [hstate]
        · exact leads_requestHttp hstep
      · exact leads_requestHttp hstep
  · obtain rfl := Except.ok.inj hstep
    exact leads_toReply (.inr (.inl rfl))

/-- Counting the bytes of a body leaves what the socket is watched for. -/
theorem epoll_countBody (fg : Filegetter) (around : Surroundings) (bytes : ℕ) :
    (fg.countBody around bytes).epoll = fg.epoll := by
  unfold countBody
  dsimp only
  split <;> rfl

/-- A download that is not complete waits for input. -/
theorem leads_checkDownload (hepoll : fg.epoll = .input) : Leads (fg.checkDownload around) := by
  have hcount : (fg.countBody around (fg.buf.drop fg.bufReadOffset).length).epoll = .input := by
    rw [epoll_countBody, hepoll]
  unfold checkDownload
  dsimp only
  split
  · exact leads_die _
  · split
    · apply waits_of_state <;> simp [finish]
    · apply leads_receive
      · simp
      · exact hcount
      · exact .inr (.inr (.inr rfl))

/-- A header that is not complete waits for input. -/
theorem leads_replyHttp (hepoll : fg.epoll = .input) (hstep : fg.replyHttp around = .ok result) :
    Leads result := by
  unfold replyHttp at hstep
  dsimp only at hstep
  split at hstep
  · cases hstep
  · split at hstep
    · obtain rfl := Except.ok.inj hstep
      apply waits_of_state <;> simp
    · split at hstep
      · split at hstep
        · obtain rfl := Except.ok.inj hstep
          exact leads_die fg
        · obtain rfl := Except.ok.inj hstep
          exact leads_checkDownload hepoll
      · obtain rfl := Except.ok.inj hstep
        apply leads_receive
        · simp
        · exact hepoll
        · exact .inr (.inr (.inl rfl))

/-- Every state that is entered leads to a call on a socket watched for it, or leaves the getter
waiting. -/
theorem Ready.leads_proceed (h : fg.Ready) (hstep : fg.proceed around = .ok result) :
    Leads result := by
  unfold proceed at hstep
  cases hstate : fg.state with
  | idle =>
    simp only [hstate] at hstep
    obtain rfl := Except.ok.inj hstep
    apply waits_of_state <;> simp [hstate]
  | spec =>
    simp only [hstate] at hstep
    obtain rfl := Except.ok.inj hstep
    apply waits_of_state <;> simp [hstate]
  | send =>
    simp only [hstate] at hstep
    obtain rfl := Except.ok.inj hstep
    exact ⟨⟨h, by simp [hstate], by simp [hstate]⟩, .inl hstate⟩
  | receive =>
    simp only [hstate] at hstep
    obtain rfl := Except.ok.inj hstep
    exact ⟨⟨h, by simp [hstate], by simp [hstate]⟩, .inr hstate⟩
  | checkDownload =>
    simp only [hstate] at hstep
    obtain rfl := Except.ok.inj hstep
    exact leads_checkDownload (h.checkDownload hstate)
  | requestSocksInit =>
    simp only [hstate] at hstep
    exact leads_requestSocksInit hstep
  | toReplySocksInit =>
    simp only [hstate] at hstep
    obtain rfl := Except.ok.inj hstep
    exact leads_toReply (.inl rfl)
  | replySocksInit =>
    simp only [hstate] at hstep
    exact leads_replySocksInit hstate hstep
  | requestSocksConn =>
    simp only [hstate] at hstep
    exact leads_requestSocksConn hstep
  | toReplySocksConn =>
    simp only [hstate] at hstep
    obtain rfl := Except.ok.inj hstep
    exact leads_toReply (.inr (.inl rfl))
  | replySocksConn =>
    simp only [hstate] at hstep
    exact leads_replySocksConn hstate hstep
  | requestHttp =>
    simp only [hstate] at hstep
    exact leads_requestHttp hstep
  | toReplyHttp =>
    simp only [hstate] at hstep
    obtain rfl := Except.ok.inj hstep
    exact leads_toReply (.inr (.inr (.inl rfl)))
  | replyHttp =>
    simp only [hstate] at hstep
    exact leads_replyHttp (h.replyHttp hstate) hstep

/-! ## Calls of `send` and `recv` -/

/-- A call that fails leaves the getter waiting, or shut down. -/
theorem Waits.leads_ioError (h : fg.Waits) (excused : Bool) (errcode : GetterCode) :
    Leads (fg.ioError excused errcode) := by
  unfold ioError
  split
  · exact h
  · exact leads_die _

/-- Behind a request comes the state that watches for its reply. -/
theorem ready_of_isToReply (hstate : IsToReply fg.state) : fg.Ready := by
  rcases hstate with hstate | hstate | hstate <;> constructor <;> simp [hstate]

/-- What was received is looked at on a socket that is watched for input. -/
theorem ready_of_isReply (hepoll : fg.epoll = .input) (hstate : IsReply fg.state) : fg.Ready := by
  rcases hstate with hstate | hstate | hstate | hstate <;> constructor <;> simp [hstate, hepoll]

/-- After `send` a getter waits for what comes next. -/
theorem Waits.leads_send (h : fg.Waits) (hstate : fg.state = .send)
    (hstep : fg.send call = .ok result) :
    Leads result := by
  obtain ⟨hepoll, hnext⟩ := h.ready.send hstate
  unfold send at hstep
  split at hstep
  · cases hstep
  · split at hstep
    · obtain rfl := Except.ok.inj hstep
      exact h.leads_ioError _ _
    · obtain rfl := Except.ok.inj hstep
      exact leads_die _
    · dsimp only at hstep
      split at hstep
      · refine Ready.leads_proceed (ready_of_isToReply ?_) hstep
        exact hnext
      · -- the rest of the request is sent from the same state
        obtain rfl := Except.ok.inj hstep
        refine ⟨⟨⟨fun _ => ⟨hepoll, hnext⟩, ?_, ?_, ?_⟩, ?_, ?_⟩, .inl hstate⟩ <;>
          simp [advance, hstate]

/-- After `recv` a getter waits for what comes next. -/
theorem Waits.leads_recv (h : fg.Waits) (hstate : fg.state = .receive)
    (hstep : fg.receive call = .ok result) : Leads result := by
  obtain ⟨hepoll, hnext⟩ := h.ready.receive hstate
  unfold receive at hstep
  split at hstep
  · obtain rfl := Except.ok.inj hstep
    exact h.leads_ioError _ _
  · obtain rfl := Except.ok.inj hstep
    exact leads_die _
  · refine Ready.leads_proceed (ready_of_isReply ?_ ?_) hstep
    · exact hepoll
    · exact hnext

/-- Any number of calls leaves a getter that waits. -/
theorem Waits.callLoop {calls : List Call} {code : GetterCode} (h : fg.Waits)
    (hat : fg.state = .send ∨ fg.state = .receive) (hstep : fg.callLoop calls = .ok (fg', code)) :
    fg'.Waits := by
  induction calls generalizing fg with
  | nil =>
    obtain ⟨rfl, -⟩ := Prod.mk.inj (Except.ok.inj hstep)
    exact h
  | cons call calls ih =>
    unfold Filegetter.callLoop at hstep
    cases hnext : (if fg.state = .send then fg.send call else fg.receive call) with
    | error fault => simp [hnext] at hstep
    | ok next =>
      have hleads : Leads next := by
        split at hnext
        · rename_i hsend
          exact h.leads_send hsend hnext
        · rename_i hsend
          exact h.leads_recv (hat.resolve_left hsend) hnext
      simp only [hnext] at hstep
      cases next with
      | «return» fg₁ code₁ =>
        obtain ⟨rfl, -⟩ := Prod.mk.inj (Except.ok.inj hstep)
        exact hleads
      | call fg₁ => exact ih hleads.1 hleads.2 hstep

/-- An activation leaves a getter that waits. -/
theorem Waits.activate {e : GetterEvent} {code : GetterCode} (h : fg.Waits)
    (hstep : fg.activate e = .ok (fg', code)) : fg'.Waits := by
  unfold Filegetter.activate at hstep
  split at hstep
  · split at hstep
    · cases hstep
    · rename_i hproceed
      obtain ⟨rfl, -⟩ := Prod.mk.inj (Except.ok.inj hstep)
      exact h.ready.leads_proceed hproceed
    · rename_i hproceed
      obtain ⟨h₁, hat⟩ := h.ready.leads_proceed hproceed
      exact h₁.callLoop hat hstep
  · cases hstep

/-! ## Every use -/

/-- An activation asserts that the state is consistent. -/
theorem assertState_of_activate {e : GetterEvent} {x : Filegetter × GetterCode}
    (hstep : fg.activate e = .ok x) : fg.AssertState := by
  unfold Filegetter.activate at hstep
  split at hstep
  · assumption
  · cases hstep

/-- A getter that can be activated waits. -/
def Idles (fg : Filegetter) : Prop := fg.AssertState → fg.Waits

/-- A download that is refused changes what the socket is watched for, and nothing else. -/
theorem download_of_refuses (h : fg.RefusesDownload) (sspec : ServerSpec) (fspec : FileSpec)
    (fopenOk : Bool) (connection : Connect) (now : Timespec) :
    (fg.download sspec fspec fopenOk connection now).1 = { fg with epoll := .output } := by
  rw [download_of_state_ne h.1, if_neg h.2]

/-- Any other download leaves the getter in front of a request, or without one. -/
theorem state_download (h : ¬fg.RefusesDownload) (sspec : ServerSpec) (fspec : FileSpec)
    (fopenOk : Bool) (connection : Connect) (now : Timespec) :
    let state := (fg.download sspec fspec fopenOk connection now).1.state
    state = .requestHttp ∨ state = .requestSocksInit ∨ state = .spec := by
  by_cases hspec : fg.state = .spec
  · have hkept : (fg.setSpecs sspec fspec fopenOk).1.state = .spec := by
      unfold setSpecs
      rw [if_neg (not_not.mpr hspec)]
      dsimp only
      split <;> exact hspec
    unfold Filegetter.download
    dsimp only
    split
    · exact .inl rfl
    · split
      · cases connection with
        | failed =>
          simp only [connect]
          split <;> exact .inr (.inr hkept)
        | connected sockd incoming =>
          simp only [connect]
          split
          · exact .inr (.inl rfl)
          · exact .inl rfl
      · exact .inr (.inr hkept)
  · have hpersistent : fg.sspec.persistent = true ∧ fg.sockd > 0 := by
      by_contra hnot
      exact h ⟨hspec, hnot⟩
    rw [download_of_state_ne hspec, if_pos hpersistent]
    exact .inl rfl

/-- A use in turn leaves a getter that waits or is idle. -/
theorem Idles.use {op : GetterUse} (h : fg.Idles) (hturn : fg.InTurn op)
    (hstep : fg.use op = .ok fg') :
    fg'.Idles := by
  cases op with
  | start =>
    obtain rfl := Except.ok.inj hstep
    intro _
    apply waits_of_state <;> simp [start]
  | download sspec fspec fopenOk connection now =>
    obtain rfl := Except.ok.inj hstep
    by_cases hrefuses : fg.RefusesDownload
    · rw [download_of_refuses hrefuses]
      intro hassert
      have hwaits : fg.Waits := h hassert
      have hnot : fg.state ≠ .receive := fun hstate => hturn ⟨hstate, hassert, hrefuses⟩
      refine ⟨⟨fun hstate => ⟨by simp, (hwaits.ready.send hstate).2⟩,
        fun hstate => absurd hstate hnot,
        fun hstate => absurd hstate hwaits.replyHttp, fun hstate =>
          absurd hstate hwaits.checkDownload⟩,
        hwaits.replyHttp, hwaits.checkDownload⟩
    · intro _
      rcases state_download hrefuses sspec fspec fopenOk connection now with hstate | hstate |
          hstate <;>
        apply waits_of_state <;> simp [hstate]
  | activate e =>
    obtain ⟨⟨fg₁, code⟩, hactivate, rfl⟩ := map_eq_ok.mp hstep
    intro _
    exact (h (assertState_of_activate hactivate)).activate hactivate
  | shutdown =>
    obtain rfl := Except.ok.inj hstep
    intro _
    exact waits_shutdown fg

theorem Idles.watchedAtBlock (h : fg.Idles) : fg.WatchedAtBlock := by
  intro e fg' hactivate
  exact ((h (assertState_of_activate hactivate)).activate hactivate).watched

/-- Nothing is received, and nothing is ready. -/
def blocked : GetterEvent where
  around :=
    { firstByte := ⟨0, 0⟩, progress := ⟨0, 0⟩, complete := ⟨0, 0⟩, fwriteOk := true,
      reconnect := .failed }
  calls := []

/-- A getter that waits for a reply on a socket that is watched for output. -/
theorem not_watchedAtBlock_of_output (hstate : fg.state = .receive) (hassert : fg.AssertState)
    (hepoll : fg.epoll = .output) : ¬fg.WatchedAtBlock := by
  intro h
  have hblocks : fg.activate blocked = .ok (fg, .errWouldblock) := by
    unfold Filegetter.activate
    rw [if_pos hassert]
    simp [proceed, hstate, blocked, Filegetter.callLoop]
  have hinput : fg.epoll = .input := (h blocked fg hblocks).receive hstate
  rw [hepoll] at hinput
  cases hinput

/-- The socket is watched for what the getter waits for, at every activation that would block,
exactly if no download is refused while the getter waits for a reply. -/
theorem watchedAtBlock_iff_inTurn (ops : List GetterUse) :
    (∀ fg, Visits use start ops fg → fg.WatchedAtBlock) ↔ StepsMeet use InTurn start ops := by
  apply forall_visits_iff_stepsMeet_of_leaves Idles WatchedAtBlock
  · intro fg h
    exact h.watchedAtBlock
  · intro fg op fg' h hturn hstep
    exact h.use hturn hstep
  · intro fg op _ hturn
    cases op with
    | download sspec fspec fopenOk connection now =>
      obtain ⟨hstate, hassert, hrefuses⟩ := not_not.mp hturn
      refine ⟨_, by rfl, ?_⟩
      rw [download_of_refuses hrefuses]
      exact not_watchedAtBlock_of_output hstate hassert (by simp)
    | _ => exact absurd trivial hturn
  · intro _
    apply waits_of_state <;> simp [start]

/-- A download is refused while the getter waits for the reply to an earlier one. -/
def refusedMeanwhile : List GetterUse :=
  [.download ServerSpec.zero someFile true (.connected 4 []) ⟨0, 0⟩, .activate requestSent,
    .download ServerSpec.zero someFile true .failed ⟨1, 0⟩]

/-- The getter goes on to wait for the reply with a socket that is watched for output. -/
theorem not_watched_refusedMeanwhile :
    ∃ fg fg', runSteps use start refusedMeanwhile = .ok fg ∧
      fg.activate blocked = .ok (fg', .errWouldblock) ∧ fg'.state = .receive ∧
      fg'.epoll = .output := by
  have hwaits : (runSteps use start refusedMeanwhile).toOption.map
      (fun fg => (fg.activate blocked).toOption.map fun x => (x.1.state, x.1.epoll, x.2)) =
        some (some (.receive, .output, .errWouldblock)) := by
    decide +kernel
  cases hrun : runSteps use start refusedMeanwhile with
  | error fault => simp [hrun, Except.toOption] at hwaits
  | ok fg =>
    simp only [hrun, Except.toOption, Option.map_some, Option.some.injEq] at hwaits
    cases hactivate : fg.activate blocked with
    | error fault => simp [hactivate] at hwaits
    | ok x =>
      simp only [hactivate, Option.map_some, Option.some.injEq, Prod.mk.injEq] at hwaits
      obtain ⟨hstate, hepoll, hcode⟩ := hwaits
      exact ⟨fg, x.1, by rfl, by rw [hactivate, ← hcode], hstate, hepoll⟩

end Filegetter

end ShadowExtras.FileTransfer
