import ShadowExtras.FileTransfer.ServiceFilegetterAgree

/-!
# What holds in every run of the file getter service

The results of starting the next download are ignored in two places, and a retry starts the getter
anew, together with the statistics that it keeps.

`drivable_of_startsFollowing`: the getter that is activated has an open socket, as long as the
download that follows a complete one without a pause can be started and no callback arrives after a
protocol error. `awake_of_startsWoken`: a thinking service waits for a callback, as long as the last
callback finds the next download startable. `covers_of_neverDiscards`: the aggregate statistics
cover all complete downloads, as long as no retry follows one.
-/

namespace ShadowExtras.FileTransfer

open Foundation

/-- A service that was started. -/
inductive Launched (s : ServiceFilegetter) : Prop
  | single (getaddr : Bytes → Octets 4) (http : ServerArgs) (socks : Option ServerArgs)
      (filepath numDownloads : Bytes) (next : NextDownload)
      (h : ServiceFilegetter.startSingle getaddr http socks filepath numDownloads next =
        (s, .success))
  | multi (getaddr : Bytes → Octets 4) (lines : List (ServerArgs × Bytes))
      (socks : Option ServerArgs) (thinkTimes : Bool) (runtimeSeconds : Bytes)
      (numDownloads : Option Bytes) (now : Timespec) (next : NextDownload)
      (h : ServiceFilegetter.startMulti getaddr lines socks thinkTimes runtimeSeconds numDownloads
        now next = (s, .success))

/-- The service that a successful start leaves. -/
structure Started (s : ServiceFilegetter) : Prop where
  agrees : Agrees s
  state : s.state = .downloading
  control : s.control = .returned .success
  openSocket : s.openSocket = some s.fg.sockd
  runs : s.fg.Runs
  allstats : s.fg.allstats = FileStats.zero
  curstats : s.fg.curstats = FileStats.zero
  downloadsCompleted : s.downloadsCompleted = 0
  completed : s.completed = []
  reports : s.reports = []

section Start

variable {s t : ServiceFilegetter} {next : NextDownload}

/-- The getter rests after `filegetter_start`. -/
theorem rests_start : Filegetter.start.Rests := ⟨rfl, rfl⟩

/-- What comes out of a map came from an element. -/
theorem mem_of_mapM_eq_some {α β : Type} {f : α → Option β} {xs : List α} {ys : List β} {y : β}
    (h : xs.mapM f = some ys) (hy : y ∈ ys) : ∃ x ∈ xs, f x = some y := by
  induction xs generalizing ys with
  | nil =>
    obtain rfl : [] = ys := by simpa using h
    simp at hy
  | cons x xs ih =>
    simp only [List.mapM_cons, Option.bind_eq_bind, Option.bind_eq_some_iff] at h
    obtain ⟨z, hz, zs, hzs, hys⟩ := h
    obtain rfl : z :: zs = ys := by simpa using hys
    rcases List.mem_cons.mp hy with rfl | hy
    · exact ⟨x, by simp, hz⟩
    · obtain ⟨x', hx', hfx'⟩ := ih hzs hy
      exact ⟨x', by simp [hx'], hfx'⟩

/-- Launching a service whose downloads are plain. -/
theorem started_launch (hpicks : ∀ dl, s.picked next = some dl →
      ∀ next', ∃ dl', s.picked next' = some dl' ∧ dl'.Plain)
    (hcontrol : s.control = .returned .success) (hcounted : s.downloadsCompleted = 0)
    (hcompleted : s.completed = []) (hreports : s.reports = [])
    (h : s.launch next = (t, .success)) : Started t := by
  unfold ServiceFilegetter.launch at h
  have hsome : ∃ dl, s.picked next = some dl := by
    cases hpicked : s.picked next with
    | some dl => exact ⟨dl, rfl⟩
    | none =>
      have hnone : ({ s with fg := Filegetter.start } : ServiceFilegetter).picked next = none :=
        hpicked
      rw [ServiceFilegetter.downloadNext, hnone] at h
      cases (Prod.mk.inj h).2
  obtain ⟨dl, hdl⟩ := hsome
  have hall := hpicks dl hdl
  obtain ⟨fg', dl', hpicked, hbegins, hcases⟩ :=
    downloadNext_cases (s := { s with fg := Filegetter.start }) rests_start (hall next)
  rcases hcases with ⟨sockd, incoming, -, rfl, hruns, hnext⟩ | ⟨-, -, code, hcode, hnext⟩
  · rw [hnext] at h
    obtain ⟨rfl, -⟩ := Prod.mk.inj h
    exact {
      agrees := ⟨fun _ => picks_of_picked hall hpicked rfl rfl rfl, fun h => by simp at h,
        fun _ => .inl hruns, fun _ h => absurd (hcontrol.symm.trans h) returned_ne_reactivate⟩
      state := rfl
      control := hcontrol
      openSocket := rfl
      runs := hruns
      allstats := hbegins.allstats
      curstats := hbegins.curstats
      downloadsCompleted := hcounted
      completed := hcompleted
      reports := hreports }
  · rw [hnext] at h
    exact absurd (Prod.mk.inj h).2 hcode

/-- Every service that was started. -/
theorem Launched.started (h : Launched s) : Started s := by
  cases h with
  | single getaddr http socks filepath numDownloads next h =>
    unfold ServiceFilegetter.startSingle at h
    cases hdl : getDownloadFromArgs getaddr http socks filepath with
    | none =>
      rw [hdl] at h
      cases (Prod.mk.inj h).2
    | some dl =>
      rw [hdl] at h
      dsimp only at h
      split_ifs at h
      · cases (Prod.mk.inj h).2
      · refine started_launch ?_ rfl rfl rfl rfl h
        intro _ _ next'
        exact ⟨dl, rfl, plain_of_getDownloadFromArgs hdl⟩
  | multi getaddr lines socks thinkTimes runtimeSeconds numDownloads now next h =>
    unfold ServiceFilegetter.startMulti at h
    cases hdls : lines.mapM fun line => getDownloadFromArgs getaddr line.1 socks line.2 with
    | none =>
      rw [hdls] at h
      cases (Prod.mk.inj h).2
    | some downloads =>
      rw [hdls] at h
      dsimp only at h
      refine started_launch ?_ rfl rfl rfl rfl h
      intro dl hdl next'
      have hlength : 0 < downloads.length := by
        have hlt := (List.getElem?_eq_some_iff.mp hdl).1
        exact Nat.pos_of_ne_zero fun h0 => by simp [h0] at hlt
      have hlt : next'.random % downloads.length < downloads.length := Nat.mod_lt _ hlength
      refine ⟨downloads[next'.random % downloads.length], List.getElem?_eq_getElem hlt, ?_⟩
      obtain ⟨line, -, hline⟩ := mem_of_mapM_eq_some hdls (List.getElem_mem hlt)
      exact plain_of_getDownloadFromArgs hline

end Start

/-! ## A service for two downloads -/

/-- Starting a download at a time, with the outcome of its connection. -/
def startAt (sec : Int) (connection : Connect) : NextDownload where
  random := 0
  fopenOk := true
  connection := connection
  now := ⟨sec, 0⟩

/-- A pass at a time, with the outcomes of the getter's calls and of a connection. -/
def passAt (sec : Int) (answers : List Answer) (connection : Connect) : Pass :=
  let around : Surroundings :=
    { firstByte := ⟨sec, 0⟩, progress := ⟨sec, 0⟩, complete := ⟨sec, 0⟩, fwriteOk := true
      reconnect := .failed }
  { expireCheck := ⟨sec, 0⟩, thinkCheck := ⟨sec, 0⟩, next := startAt sec connection
    getter :=
      { around := around
        calls := answers.map fun answer => { answer := answer, around := around } }
    pauseFrom := ⟨sec, 0⟩, sleepAt := ⟨sec, 0⟩, sleeptime := 0
    following := startAt sec connection }

/-- A reply with a body of one byte. -/
def shortReply : Bytes := http200Reply (ascii "x")

/-- A service that downloads one file twice, connected to a server that replies. -/
def downloadTwice : ServiceFilegetter :=
  (ServiceFilegetter.startSingle (fun _ => ⟨[10, 0, 0, 1], rfl⟩) ⟨ascii "server", ascii "80"⟩ none
    (ascii "/a") (ascii "2") (startAt 0 (.connected 4 shortReply))).1

/-- The service of two downloads is launched. -/
theorem launched_downloadTwice : Launched downloadTwice := by
  apply Launched.single (fun _ => ⟨[10, 0, 0, 1], rfl⟩) ⟨ascii "server", ascii "80"⟩ none
    (ascii "/a") (ascii "2") (startAt 0 (.connected 4 shortReply))
  exact Prod.ext rfl (by decide)

/-! ## A thinking service waits for a callback -/

/-- A callback is still to come at or after the wakeup time of a thinking service. -/
def Awake (s : ServiceFilegetter) : Prop :=
  s.state = .thinking → ∃ due ∈ s.callbacks, s.wakeup ≤ due

/-- The clock does not go back. -/
def Timely (s : ServiceFilegetter) : ServiceEvent → Prop
  | .pass p => s.delivered ≤ p.thinkCheck ∧ p.pauseFrom ≤ p.sleepAt
  | _ => True

instance (s : ServiceFilegetter) (e : ServiceEvent) : Decidable (Timely s e) := by
  cases e <;> unfold Timely <;> infer_instance

/-- The download that is due after a pause can be started, or another callback is still to come. -/
def StartsWoken (s : ServiceFilegetter) (e : ServiceEvent) : Prop :=
  match e, s.control with
  | .pass p, .startOver _ =>
    s.state = .thinking → s.wakeup.sec ≤ p.thinkCheck.sec → ¬s.IsExpired p.expireCheck →
      (∃ due ∈ s.callbacks, s.wakeup ≤ due) ∨ p.next.connection ≠ .failed
  | _, _ => True

instance (s : ServiceFilegetter) (e : ServiceEvent) : Decidable (StartsWoken s e) := by
  unfold StartsWoken
  split <;> infer_instance

/-- Where the activation is while a service that thinks has a callback to come, or had one that was
due and is being delivered. -/
structure Wakes (s : ServiceFilegetter) : Prop where
  agrees : Agrees s
  returned : ∀ code, s.control = .returned code → Awake s
  startOver : ∀ sockd, s.control = .startOver sockd → s.state = .thinking →
    (∃ due ∈ s.callbacks, s.wakeup ≤ due) ∨ s.wakeup.sec ≤ s.delivered.sec

section Wakeups

variable {s s' : ServiceFilegetter} {e : ServiceEvent} {p : Pass}

theorem Timespec.trans {a b c : Timespec} (hab : a ≤ b) (hbc : b ≤ c) : a ≤ c := by
  rw [Timespec.le_def] at *
  omega

theorem Timespec.sec_le {a b : Timespec} (h : a ≤ b) : a.sec ≤ b.sec := by
  rw [Timespec.le_def] at h
  omega

/-- Later times stay so after as many seconds. -/
theorem Timespec.after_le_after {a b : Timespec} (h : a ≤ b) (seconds : Int) :
    a.after seconds ≤ b.after seconds := by
  rw [Timespec.le_def] at *
  simp only [Timespec.after]
  omega

/-- A service that is done is awake. -/
theorem awake_expired (s : ServiceFilegetter) : Awake s.expired := by
  intro h
  rw [state_expired] at h
  cases h

/-- The pass from `start_over`. -/
theorem Wakes.of_startOver (h : Wakes s) {sockd : Int} (hcontrol : s.control = .startOver sockd)
    (hclock : s.delivered ≤ p.thinkCheck)
    (hstarts : s.state = .thinking → s.wakeup.sec ≤ p.thinkCheck.sec → ¬s.IsExpired p.expireCheck →
      (∃ due ∈ s.callbacks, s.wakeup ≤ due) ∨ p.next.connection ≠ .failed) :
    Wakes (s.startOver sockd p) := by
  have hagrees := h.agrees.startOver sockd p
  rcases startOver_cases s sockd p with ⟨-, heq⟩ | ⟨hthinking, hearly, heq⟩ |
      ⟨t, ⟨hexpired, ht⟩, hend⟩
  · rw [heq] at hagrees ⊢
    refine ⟨hagrees, fun _ _ => awake_expired s, fun _ h => ?_⟩
    simp [ServiceFilegetter.expired, ServiceFilegetter.leave] at h
  · rw [heq] at hagrees ⊢
    refine ⟨hagrees, fun _ _ _ => ?_, fun _ h => by simp [ServiceFilegetter.leave] at h⟩
    rcases h.startOver sockd hcontrol hthinking with hdue | hdelivered
    · exact hdue
    · -- a callback that was delivered is not early
      have := Timespec.sec_le hclock
      omega
  · have hawake : Awake t := by
      rcases ht with ⟨hthinking, hlate, rfl⟩ | ⟨hne, rfl⟩
      · have hpicks := h.agrees.picks (.inl hthinking) p.next
        obtain ⟨fg', dl, -, -, hcases⟩ :=
          downloadNext_cases (h.agrees.thinking hthinking) hpicks
        rcases hcases with ⟨_, _, -, -, -, hnext⟩ | ⟨hfailed, -, _, -, hnext⟩
        · rw [hnext]
          exact fun h => absurd h (by simp)
        · rw [hnext]
          intro _
          rcases hstarts hthinking hlate hexpired with hdue | hconnected
          · exact hdue
          · exact absurd hfailed hconnected
      · exact fun h => absurd h hne
    rcases hend with heq | ⟨-, -, heq⟩
    · rw [heq] at hagrees ⊢
      exact ⟨hagrees, fun _ _ => hawake, fun _ h => by simp [ServiceFilegetter.leave] at h⟩
    · rw [heq] at hagrees ⊢
      exact ⟨hagrees, fun _ h => by simp at h, fun _ h => by simp at h⟩

/-- The pass from `reactivate`. -/
theorem Wakes.of_reactivate (h : Wakes s) {sockd : Int} (hcontrol : s.control = .reactivate sockd)
    (hclock : p.pauseFrom ≤ p.sleepAt) (hstep : s.reactivate sockd p = .ok s') : Wakes s' := by
  have hagrees := h.agrees.reactivate hcontrol hstep
  obtain ⟨fg', code, -, hdownloading, -, -, hcases⟩ := reactivate_cases h.agrees hcontrol hstep
  have hwakes : ∀ t, (∃ due ∈ (s.handBack fg' code).callbacks ++ [p.sleepAt.after t],
      p.pauseFrom.after t ≤ due) := fun t =>
    ⟨p.sleepAt.after t, by simp, Timespec.after_le_after hclock t⟩
  rcases hcases with ⟨-, rfl⟩ | ⟨-, rfl⟩ | ⟨-, -, -, ⟨wakeup, rfl⟩ | rfl | ⟨-, rfl⟩⟩ | ⟨-, rfl⟩
  · exact ⟨hagrees, fun _ _ _ => hwakes 60, fun _ h => Control.noConfusion h⟩
  · exact ⟨hagrees, fun _ _ h => absurd (hdownloading.symm.trans h) (by decide),
      fun _ h => Control.noConfusion h⟩
  · exact ⟨hagrees, fun _ _ => awake_expired _, fun _ h => Control.noConfusion h⟩
  · exact ⟨hagrees, fun _ h => Control.noConfusion h, fun _ _ _ => .inl (hwakes p.sleeptime)⟩
  · exact ⟨hagrees, fun _ h => Control.noConfusion h, fun _ h => Control.noConfusion h⟩
  · exact ⟨hagrees, fun _ _ h => absurd (hdownloading.symm.trans h) (by decide),
      fun _ h => Control.noConfusion h⟩

/-- Every event after which the last callback finds the next download startable. -/
theorem Wakes.step (h : Wakes s) (he : Timely s e ∧ StartsWoken s e) (hstep : s.step e = .ok s') :
    Wakes s' := by
  have hagrees := h.agrees.step hstep
  obtain ⟨htimely, hstarts⟩ := he
  unfold ServiceFilegetter.step at hstep
  split at hstep
  · rename_i sockd code hcontrol
    obtain rfl := Except.ok.inj hstep
    exact ⟨hagrees, fun _ h => by simp at h, fun _ _ hthinking =>
      .inl (h.returned code hcontrol hthinking)⟩
  · rename_i due now code hcontrol
    split_ifs at hstep with hdue
    · obtain rfl := Except.ok.inj hstep
      refine ⟨hagrees, fun _ h => by simp at h, fun _ _ hthinking => ?_⟩
      obtain ⟨last, hlast, hwakeup⟩ := h.returned code hcontrol hthinking
      by_cases hsame : last = due
      · subst hsame
        exact .inr (Timespec.sec_le (Timespec.trans hwakeup hdue.2))
      · exact .inl ⟨last, (List.mem_erase_of_ne hsame).mpr hlast, hwakeup⟩
    · obtain rfl := Except.ok.inj hstep
      exact h
  · rename_i p sockd hcontrol
    obtain rfl := Except.ok.inj hstep
    simp only [StartsWoken, hcontrol] at hstarts
    exact h.of_startOver hcontrol htimely.1 hstarts
  · rename_i p sockd hcontrol
    exact h.of_reactivate hcontrol htimely.2 hstep
  · obtain rfl := Except.ok.inj hstep
    exact h

variable {es : List ServiceEvent}

/-- Whenever an activation returns with the service thinking, a callback is still to come at or
after its wakeup time, if the download that is due after a pause could be started whenever it was
the last callback that found it due. -/
theorem awake_of_startsWoken (hs : Launched s)
    (hes : StepsMeet ServiceFilegetter.step (fun s e => Timely s e ∧ StartsWoken s e) s es)
    (hrun : runSteps ServiceFilegetter.step s es = .ok s') {code : GetterCode}
    (hreturned : s'.control = .returned code) : Awake s' := by
  have hstarted := hs.started
  have hwakes : Wakes s := by
    refine ⟨hstarted.agrees, fun _ _ h => ?_, fun _ h => ?_⟩
    · exact absurd (hstarted.state.symm.trans h) (by decide)
    · exact absurd (hstarted.control.symm.trans h) (by simp)
  have hend : Wakes s' :=
    invariant_of_stepsMeet Wakes (fun _ _ _ h he hstep => h.step he hstep) hwakes hes hrun
  exact hend.returned code hreturned

/-- The server closes the connection at once, and the service thinks for a minute. -/
def closedAtOnce : List ServiceEvent :=
  [.activate 4, .pass (passAt 0 [] .failed), .pass (passAt 0 [.ready 99, .closed] .failed)]

/-- The service that thinks waits for its callback. -/
theorem awake_of_startsWoken_closedAtOnce : ∃ t,
    runSteps ServiceFilegetter.step downloadTwice closedAtOnce = .ok t ∧
      t.control = .returned .errWouldblock ∧ t.state = .thinking ∧ Awake t := by
  have hrun : (runSteps ServiceFilegetter.step downloadTwice closedAtOnce).map
      (fun t => (t.control, t.state)) = .ok (.returned .errWouldblock, .thinking) := by decide
  cases h : runSteps ServiceFilegetter.step downloadTwice closedAtOnce with
  | error fault =>
    rw [h] at hrun
    cases hrun
  | ok t =>
    rw [h] at hrun
    obtain ⟨hcontrol, hstate⟩ := Prod.mk.inj (Except.ok.inj hrun)
    exact ⟨t, rfl, hcontrol, hstate,
      awake_of_startsWoken launched_downloadTwice (by decide) h hcontrol⟩

/-- The callback finds the server unreachable, and the service thinks on without another one. -/
theorem not_awake_unreachable : Launched downloadTwice ∧ ∃ t,
    runSteps ServiceFilegetter.step downloadTwice
      (closedAtOnce ++ [.wakeup ⟨60, 0⟩ ⟨60, 0⟩, .pass (passAt 60 [] .failed)]) = .ok t ∧
      t.control = .returned .errInvalid ∧ ¬Awake t := by
  refine ⟨launched_downloadTwice, ?_⟩
  have hrun : (runSteps ServiceFilegetter.step downloadTwice
      (closedAtOnce ++ [.wakeup ⟨60, 0⟩ ⟨60, 0⟩, .pass (passAt 60 [] .failed)])).map
        (fun t => (t.control, t.state, t.callbacks)) =
          .ok (.returned .errInvalid, .thinking, []) := by
    decide
  cases h : runSteps ServiceFilegetter.step downloadTwice
      (closedAtOnce ++ [.wakeup ⟨60, 0⟩ ⟨60, 0⟩, .pass (passAt 60 [] .failed)]) with
  | error fault =>
    rw [h] at hrun
    cases hrun
  | ok t =>
    rw [h] at hrun
    obtain ⟨hcontrol, hrest⟩ := Prod.mk.inj (Except.ok.inj hrun)
    obtain ⟨hstate, hcallbacks⟩ := Prod.mk.inj hrest
    refine ⟨t, rfl, hcontrol, fun hawake => ?_⟩
    obtain ⟨due, hdue, -⟩ := hawake hstate
    rw [hcallbacks] at hdue
    cases hdue

end Wakeups

/-! ## The getter that is activated is live -/

/-- What `filegetter_activate` would return in this pass. -/
def getterReturns (s : ServiceFilegetter) (p : Pass) : Option GetterCode :=
  match s.fg.activate p.getter with
  | .ok (_, code) => some code
  | .error _ => none

/-- The download that follows a complete one without a pause can be started, a getter that was shut
down is not woken by a callback, and no connection gets the descriptor zero. -/
def StartsFollowing (s : ServiceFilegetter) (e : ServiceEvent) : Prop :=
  match e, s.control with
  | .pass p, .startOver sockd =>
    p.next.connection.NonZero ∧
      (¬s.IsExpired p.expireCheck → s.state = .downloading → s.fg.state = .idle → sockd ≠ 0)
  | .pass p, .reactivate _ =>
    p.getter.NonZero ∧ p.following.connection.NonZero ∧
      (getterReturns s p = some .ok200 → s.ContinuesAtOnce → p.following.connection ≠ .failed)
  | _, _ => True

instance (s : ServiceFilegetter) (e : ServiceEvent) : Decidable (StartsFollowing s e) := by
  unfold StartsFollowing
  split <;> infer_instance

/-- The getter is live, and its socket is the open socket of the current download. -/
structure Drivable (s : ServiceFilegetter) : Prop where
  live : s.fg.Live
  openSocket : s.openSocket = some s.fg.sockd

/-- A getter in the middle of a download has an open socket, and it is this getter that is about to
be activated. -/
structure Drives (s : ServiceFilegetter) : Prop where
  agrees : Agrees s
  sockets : s.state = .downloading → s.fg.Runs → s.fg.sockd ≠ 0 ∧ s.openSocket = some s.fg.sockd
  reactivate : ∀ sockd, s.control = .reactivate sockd → s.state = .downloading ∧ s.fg.Runs

section Driving

variable {s s' t : ServiceFilegetter} {e : ServiceEvent} {es : List ServiceEvent} {p : Pass}

/-- A service that is to be activated again can be driven. -/
theorem Drives.drivable (h : Drives s) {sockd : Int} (hcontrol : s.control = .reactivate sockd) :
    Drivable s := by
  obtain ⟨hdownloading, hruns⟩ := h.reactivate sockd hcontrol
  obtain ⟨hsockd, hopen⟩ := h.sockets hdownloading hruns
  exact ⟨⟨hruns.state, hsockd⟩, hopen⟩

/-- The socket of a download that was just started. -/
theorem sockets_downloadNext {next : NextDownload} (h : Agrees s) (hthinking : s.state = .thinking)
    (hnonzero : next.connection.NonZero) :
    ((s.downloadNext next).1.state = .downloading → (s.downloadNext next).1.fg.sockd ≠ 0 ∧
        (s.downloadNext next).1.openSocket = some (s.downloadNext next).1.fg.sockd ∧
        (s.downloadNext next).1.fg.Runs) ∧
      (next.connection ≠ .failed → (s.downloadNext next).1.state = .downloading) := by
  obtain ⟨fg', dl, -, -, hcases⟩ :=
    downloadNext_cases (h.thinking hthinking) (h.picks (.inl hthinking) next)
  rcases hcases with ⟨sockd, incoming, hconnection, hsockd, hruns, hnext⟩ |
      ⟨hfailed, -, _, -, hnext⟩
  · rw [hnext]
    refine ⟨fun _ => ⟨?_, congrArg some hsockd.symm, hruns⟩, fun _ => rfl⟩
    rw [hconnection] at hnonzero
    exact fun h => hnonzero (hsockd.symm.trans h)
  · rw [hnext]
    exact ⟨fun h => absurd (hthinking.symm.trans h) (by decide), fun h => absurd hfailed h⟩

/-- A download that is started over is driven. -/
theorem Drives.of_startOver (h : Drives s) (sockd : Int) (hnonzero : p.next.connection.NonZero)
    (hdead : ¬s.IsExpired p.expireCheck → s.state = .downloading → s.fg.state = .idle → sockd ≠ 0) :
    Drives (s.startOver sockd p) := by
  have hagrees := h.agrees.startOver sockd p
  rcases startOver_cases s sockd p with ⟨-, heq⟩ | ⟨-, -, heq⟩ | ⟨t, ⟨hexpired, ht⟩, hend⟩
  · rw [heq] at hagrees ⊢
    refine ⟨hagrees, fun h => ?_, fun _ h => Control.noConfusion h⟩
    rw [state_expired] at h
    cases h
  · rw [heq] at hagrees ⊢
    exact ⟨hagrees, h.sockets, fun _ h => Control.noConfusion h⟩
  · have hsockets : t.state = .downloading → t.fg.Runs →
        t.fg.sockd ≠ 0 ∧ t.openSocket = some t.fg.sockd := by
      rcases ht with ⟨hthinking, -, rfl⟩ | ⟨-, rfl⟩
      · intro hdownloading _
        obtain ⟨hsockd, hopen, -⟩ :=
          (sockets_downloadNext h.agrees hthinking hnonzero).1 hdownloading
        exact ⟨hsockd, hopen⟩
      · exact h.sockets
    rcases hend with heq | ⟨hdownloading, hsockd, heq⟩
    · rw [heq] at hagrees ⊢
      exact ⟨hagrees, hsockets, fun _ h => Control.noConfusion h⟩
    · rw [heq] at hagrees ⊢
      refine ⟨hagrees, hsockets, fun _ _ => ⟨hdownloading, ?_⟩⟩
      rcases ht with ⟨hthinking, -, rfl⟩ | ⟨-, rfl⟩
      · exact ((sockets_downloadNext h.agrees hthinking hnonzero).1 hdownloading).2.2
      · rcases h.agrees.downloading hdownloading with hruns | hgone
        · exact hruns
        · -- only a callback for descriptor zero gets here with a getter that was shut down
          exact absurd (hsockd.symm.trans hgone.sockd) (hdead hexpired hdownloading hgone.state)

/-- Another activation is driven. -/
theorem Drives.of_reactivate (h : Drives s) {sockd : Int} (hcontrol : s.control = .reactivate sockd)
    (hgetter : p.getter.NonZero) (hnonzero : p.following.connection.NonZero)
    (hfollowing : getterReturns s p = some .ok200 → s.ContinuesAtOnce →
      p.following.connection ≠ .failed)
    (hstep : s.reactivate sockd p = .ok s') : Drives s' := by
  have hagrees := h.agrees.reactivate hcontrol hstep
  obtain ⟨fg', code, hactivate, hdownloading, hruns, hreturns, hcases⟩ :=
    reactivate_cases h.agrees hcontrol hstep
  rcases hcases with ⟨-, rfl⟩ | ⟨-, rfl⟩ | ⟨hok, -, hcounted, ⟨wakeup, rfl⟩ | rfl | ⟨honce, rfl⟩⟩ |
    ⟨hblock, rfl⟩
  · exact ⟨hagrees, fun h => absurd h thinking_ne_downloading, fun _ h => Control.noConfusion h⟩
  · exact ⟨hagrees, fun _ hgone => absurd rfl hgone.state, fun _ h => Control.noConfusion h⟩
  · refine ⟨hagrees, fun h => ?_, fun _ h => Control.noConfusion h⟩
    rw [state_expired] at h
    cases h
  · exact ⟨hagrees, fun h => absurd h thinking_ne_downloading, fun _ h => Control.noConfusion h⟩
  · have hreturned : getterReturns s p = some .ok200 := by
      rw [getterReturns, hactivate, hok]
    have hconnected := hfollowing hreturned honce
    obtain ⟨hsockets, hstarted⟩ := sockets_downloadNext hcounted rfl hnonzero
    obtain ⟨hsockd, hopen, hnext⟩ := hsockets (hstarted hconnected)
    exact ⟨hagrees, fun _ _ => ⟨hsockd, hopen⟩, fun _ _ => ⟨hstarted hconnected, hnext⟩⟩
  · have hsockd := (hreturns.blocked hblock).sockd hgetter
    refine ⟨hagrees, fun _ _ => ⟨hsockd, ?_⟩, fun _ h => Control.noConfusion h⟩
    show ServiceFilegetter.openAfter fg' code = some fg'.sockd
    rw [ServiceFilegetter.openAfter, if_neg]
    rintro (hzero | hconn)
    · exact hsockd hzero
    · rw [hblock] at hconn
      cases hconn

/-- Every event that starts what follows keeps the service driven. -/
theorem Drives.step (h : Drives s) (he : StartsFollowing s e) (hstep : s.step e = .ok s') :
    Drives s' := by
  have hagrees := h.agrees.step hstep
  unfold ServiceFilegetter.step at hstep
  split at hstep
  · obtain rfl := Except.ok.inj hstep
    exact ⟨hagrees, h.sockets, fun _ h => Control.noConfusion h⟩
  · split_ifs at hstep with hdue
    · obtain rfl := Except.ok.inj hstep
      exact ⟨hagrees, h.sockets, fun _ h => Control.noConfusion h⟩
    · obtain rfl := Except.ok.inj hstep
      exact h
  · rename_i p sockd hcontrol
    obtain rfl := Except.ok.inj hstep
    simp only [StartsFollowing, hcontrol] at he
    exact h.of_startOver sockd he.1 he.2
  · rename_i p sockd hcontrol
    simp only [StartsFollowing, hcontrol] at he
    exact h.of_reactivate hcontrol he.1 he.2.1 he.2.2 hstep
  · obtain rfl := Except.ok.inj hstep
    exact h

/-- Whenever the service is about to activate its getter, the getter is not idle and has the open
socket of the current download, if every download that follows a complete one without a pause could
be started, no callback woke a getter that was shut down, and no connection got the descriptor
zero. -/
theorem drivable_of_startsFollowing (hs : Launched s) (hsockd : s.fg.sockd ≠ 0)
    (hes : StepsMeet ServiceFilegetter.step StartsFollowing s es)
    (hrun : runSteps ServiceFilegetter.step s es = .ok s') {sockd : Int}
    (hactivates : s'.control = .reactivate sockd) : Drivable s' := by
  have hstarted := hs.started
  have hdrives : Drives s :=
    ⟨hstarted.agrees, fun _ _ => ⟨hsockd, hstarted.openSocket⟩,
      fun _ h => absurd (hstarted.control.symm.trans h) (by simp)⟩
  have hend : Drives s' :=
    invariant_of_stepsMeet Drives (fun _ _ _ h he hstep => h.step he hstep) hdrives hes hrun
  exact hend.drivable hactivates

/-- The first activation. -/
theorem drivable_of_startsFollowing_first : ∃ t,
    runSteps ServiceFilegetter.step downloadTwice [.activate 4, .pass (passAt 0 [] .failed)] =
      .ok t ∧
      t.control = .reactivate 4 ∧ Drivable t := by
  have hrun : (runSteps ServiceFilegetter.step downloadTwice
      [.activate 4, .pass (passAt 0 [] .failed)]).map (fun t => t.control) =
        .ok (.reactivate 4) := by
    decide
  cases h : runSteps ServiceFilegetter.step downloadTwice
      [.activate 4, .pass (passAt 0 [] .failed)] with
  | error fault =>
    rw [h] at hrun
    cases hrun
  | ok t =>
    rw [h] at hrun
    have hcontrol := Except.ok.inj hrun
    exact ⟨t, rfl, hcontrol,
      drivable_of_startsFollowing launched_downloadTwice (by decide) (by decide) h hcontrol⟩

/-- The first download is complete and the connection for the second one fails: the getter is about
to be activated without a socket. -/
theorem not_drivable_second_connection : Launched downloadTwice ∧ ∃ t,
    runSteps ServiceFilegetter.step downloadTwice
      [.activate 4, .pass (passAt 0 [] .failed), .pass (passAt 1 [.ready 99, .ready 99] .failed)] =
        .ok t ∧ t.control = .reactivate 4 ∧ ¬Drivable t := by
  refine ⟨launched_downloadTwice, ?_⟩
  have hrun : (runSteps ServiceFilegetter.step downloadTwice
      [.activate 4, .pass (passAt 0 [] .failed),
        .pass (passAt 1 [.ready 99, .ready 99] .failed)]).map
        (fun t => (t.control, t.fg.sockd)) = .ok (.reactivate 4, 0) := by
    decide
  cases h : runSteps ServiceFilegetter.step downloadTwice
      [.activate 4, .pass (passAt 0 [] .failed), .pass (passAt 1 [.ready 99, .ready 99] .failed)]
        with
  | error fault =>
    rw [h] at hrun
    cases hrun
  | ok t =>
    rw [h] at hrun
    obtain ⟨hcontrol, hsockd⟩ := Prod.mk.inj (Except.ok.inj hrun)
    exact ⟨t, rfl, hcontrol, fun hdrivable => hdrivable.live.2 hsockd⟩

end Driving

/-! ## The aggregate statistics cover all complete downloads -/

/-- The report covers all downloads that had been reported complete. -/
structure Report.Covers (r : Report) : Prop where
  firstByteTime : r.total.firstByteTime.nanoseconds =
    (r.completed.map fun stats => stats.firstByteTime.nanoseconds).sum
  downloadTime : r.total.downloadTime.nanoseconds =
    (r.completed.map fun stats => stats.downloadTime.nanoseconds).sum
  body : (r.completed.map fun stats => stats.bodyBytesDownloaded).sum ≤ r.total.bodyBytesDownloaded

/-- A download that fails and is tried again is not preceded by a complete one. -/
def NeverDiscards (s : ServiceFilegetter) (e : ServiceEvent) : Prop :=
  match e, s.control with
  | .pass p, .reactivate _ =>
    getterReturns s p = some .errFatal ∨ getterReturns s p = some .errSocksconn → s.completed = []
  | _, _ => True

instance (s : ServiceFilegetter) (e : ServiceEvent) : Decidable (NeverDiscards s e) := by
  unfold NeverDiscards
  split <;> infer_instance

/-- The statistics that the getter keeps of all downloads cover the complete ones, and the bytes of
the current one as well while it is not complete. -/
structure Keeps (s : ServiceFilegetter) : Prop where
  agrees : Agrees s
  covers : Report.Covers { total := s.fg.allstats, completed := s.completed }
  current : s.state = .downloading → s.fg.Runs →
    (s.completed.map fun stats => stats.bodyBytesDownloaded).sum +
      s.fg.curstats.bodyBytesDownloaded ≤ s.fg.allstats.bodyBytesDownloaded
  reports : ∀ r ∈ s.reports, r.Covers

section Statistics

variable {s s' t : ServiceFilegetter} {e : ServiceEvent} {es : List ServiceEvent} {p : Pass}

/-- A service that is done reports its statistics. -/
theorem reports_expired (s : ServiceFilegetter) :
    s.expired.reports = s.reports ++ [{ total := s.fg.allstats, completed := s.completed }] := by
  unfold ServiceFilegetter.expired ServiceFilegetter.stop
  dsimp only
  split_ifs <;> rfl

/-- A service that is done keeps its statistics. -/
theorem stats_expired (s : ServiceFilegetter) :
    s.expired.fg.allstats = s.fg.allstats ∧ s.expired.completed = s.completed := by
  unfold ServiceFilegetter.expired ServiceFilegetter.stop
  dsimp only
  split_ifs <;> exact ⟨rfl, rfl⟩

/-- A service that expires reports what its getter keeps. -/
theorem keeps_expired
    (hcovers : Report.Covers { total := s.fg.allstats, completed := s.completed })
    (hreports : ∀ r ∈ s.reports, r.Covers) : Keeps s.expired := by
  obtain ⟨hallstats, hcompleted⟩ := stats_expired s
  refine ⟨agrees_expired s, ?_, fun h => ?_, ?_⟩
  · rw [hallstats, hcompleted]
    exact hcovers
  · rw [state_expired] at h
    cases h
  · rw [reports_expired]
    intro r hr
    rcases List.mem_append.mp hr with hr | hr
    · exact hreports r hr
    · obtain rfl := List.mem_singleton.mp hr
      exact hcovers

/-- Starting the next download keeps the statistics of all downloads. -/
theorem Keeps.downloadNext (h : Keeps s) (hthinking : s.state = .thinking) (next : NextDownload) :
    Keeps (s.downloadNext next).1 := by
  have hagrees := (h.agrees.downloadNext hthinking next).1
  obtain ⟨fg', dl, -, hbegins, hcases⟩ :=
    downloadNext_cases (h.agrees.thinking hthinking) (h.agrees.picks (.inl hthinking) next)
  have hcovers := h.covers
  rw [← hbegins.allstats] at hcovers
  rcases hcases with ⟨sockd, incoming, -, -, -, hnext⟩ | ⟨-, -, _, -, hnext⟩
  · rw [hnext] at hagrees ⊢
    refine ⟨hagrees, hcovers, fun _ _ => ?_, h.reports⟩
    show _ + fg'.curstats.bodyBytesDownloaded ≤ _
    rw [hbegins.curstats]
    exact hcovers.body
  · rw [hnext] at hagrees ⊢
    exact ⟨hagrees, hcovers, fun h => absurd (hthinking.symm.trans h) (by decide), h.reports⟩

/-- A download that is started over keeps the statistics. -/
theorem Keeps.of_startOver (h : Keeps s) (sockd : Int) : Keeps (s.startOver sockd p) := by
  have hagrees := h.agrees.startOver sockd p
  rcases startOver_cases s sockd p with ⟨-, heq⟩ | ⟨-, -, heq⟩ | ⟨t, ⟨-, ht⟩, hend⟩
  · rw [heq]
    exact keeps_expired h.covers h.reports
  · rw [heq] at hagrees ⊢
    exact ⟨hagrees, h.covers, h.current, h.reports⟩
  · have hkeeps : Keeps t := by
      rcases ht with ⟨hthinking, -, rfl⟩ | ⟨-, rfl⟩
      · exact h.downloadNext hthinking _
      · exact h
    rcases hend with heq | ⟨-, -, heq⟩
    · rw [heq] at hagrees ⊢
      exact ⟨hagrees, hkeeps.covers, hkeeps.current, hkeeps.reports⟩
    · rw [heq] at hagrees ⊢
      exact ⟨hagrees, hkeeps.covers, hkeeps.current, hkeeps.reports⟩

/-- The statistics while a download goes on or fails. -/
theorem Keeps.covers_of_counts (h : Keeps s) (hdownloading : s.state = .downloading)
    (hruns : s.fg.Runs) {fg' : Filegetter} (hcounts : Counts s.fg fg') :
    Report.Covers { total := fg'.allstats, completed := s.completed } ∧
      (s.completed.map fun stats => stats.bodyBytesDownloaded).sum +
        fg'.curstats.bodyBytesDownloaded ≤ fg'.allstats.bodyBytesDownloaded := by
  have hcurrent := h.current hdownloading hruns
  have hbody := hcounts.body
  refine ⟨⟨?_, ?_, ?_⟩, ?_⟩
  · show fg'.allstats.firstByteTime.nanoseconds = _
    rw [hcounts.firstByteTime]
    exact h.covers.firstByteTime
  · show fg'.allstats.downloadTime.nanoseconds = _
    rw [hcounts.downloadTime]
    exact h.covers.downloadTime
  · show _ ≤ fg'.allstats.bodyBytesDownloaded
    dsimp only
    omega
  · omega

/-- The statistics when a download is complete. -/
theorem Keeps.covers_of_completes (h : Keeps s) (hdownloading : s.state = .downloading)
    (hruns : s.fg.Runs) {fg' : Filegetter} (hcompletes : Completes s.fg fg') :
    Report.Covers { total := fg'.allstats, completed := s.completed ++ [fg'.curstats] } := by
  have hcurrent := h.current hdownloading hruns
  have hbody := hcompletes.body
  have hfirst := h.covers.firstByteTime
  have hdownload := h.covers.downloadTime
  dsimp only at hfirst hdownload
  refine ⟨?_, ?_, ?_⟩
  · show fg'.allstats.firstByteTime.nanoseconds = _
    rw [hcompletes.firstByteTime, Timespec.nanoseconds_plus]
    simp only [List.map_append, List.sum_append, List.map_cons, List.map_nil, List.sum_singleton]
    omega
  · show fg'.allstats.downloadTime.nanoseconds = _
    rw [hcompletes.downloadTime, Timespec.nanoseconds_plus]
    simp only [List.map_append, List.sum_append, List.map_cons, List.map_nil, List.sum_singleton]
    omega
  · simp only [List.map_append, List.sum_append, List.map_cons, List.map_nil, List.sum_singleton]
    omega

/-- Another activation keeps the statistics. -/
theorem Keeps.of_reactivate (h : Keeps s) {sockd : Int} (hcontrol : s.control = .reactivate sockd)
    (hdiscards : getterReturns s p = some .errFatal ∨ getterReturns s p = some .errSocksconn →
      s.completed = [])
    (hstep : s.reactivate sockd p = .ok s') : Keeps s' := by
  have hagrees := h.agrees.reactivate hcontrol hstep
  obtain ⟨fg', code, hactivate, hdownloading, hruns, hreturns, hcases⟩ :=
    reactivate_cases h.agrees hcontrol hstep
  rcases hcases with ⟨hcode, rfl⟩ | ⟨hne, rfl⟩ | ⟨hok, -, hcounted, hnext⟩ | ⟨hblock, rfl⟩
  · have hnone : s.completed = [] := by
      apply hdiscards
      rw [getterReturns, hactivate]
      exact hcode.imp (congrArg some) (congrArg some)
    refine ⟨hagrees, ?_, fun h => absurd h thinking_ne_downloading, h.reports⟩
    show Report.Covers { total := Filegetter.start.allstats, completed := s.completed }
    rw [hnone]
    exact ⟨rfl, rfl, le_rfl⟩
  · have hcounts := hreturns.incomplete hne
    obtain ⟨hcovers, -⟩ := h.covers_of_counts hdownloading hruns hcounts
    exact ⟨hagrees, hcovers, fun _ hgone => absurd rfl hgone.state, h.reports⟩
  · have hcovers := h.covers_of_completes hdownloading hruns (hreturns.complete hok)
    rcases hnext with ⟨wakeup, rfl⟩ | rfl | ⟨-, rfl⟩
    · exact keeps_expired hcovers h.reports
    · exact ⟨hagrees, hcovers, fun h => absurd h thinking_ne_downloading, h.reports⟩
    · have hthinks : Keeps (s.handBack fg' code).counted :=
        ⟨hcounted, hcovers, fun h => absurd h thinking_ne_downloading, h.reports⟩
      have hkeeps := hthinks.downloadNext rfl p.following
      exact ⟨hagrees, hkeeps.covers, hkeeps.current, hkeeps.reports⟩
  · have hcounts := hreturns.incomplete (by rw [hblock]; decide)
    obtain ⟨hcovers, hcurrent⟩ := h.covers_of_counts hdownloading hruns hcounts
    exact ⟨hagrees, hcovers, fun _ _ => hcurrent, h.reports⟩

/-- Every event that discards nothing keeps the statistics. -/
theorem Keeps.step (h : Keeps s) (he : NeverDiscards s e) (hstep : s.step e = .ok s') :
    Keeps s' := by
  have hagrees := h.agrees.step hstep
  unfold ServiceFilegetter.step at hstep
  split at hstep
  · obtain rfl := Except.ok.inj hstep
    exact ⟨hagrees, h.covers, h.current, h.reports⟩
  · split_ifs at hstep with hdue
    · obtain rfl := Except.ok.inj hstep
      exact ⟨hagrees, h.covers, h.current, h.reports⟩
    · obtain rfl := Except.ok.inj hstep
      exact h
  · obtain rfl := Except.ok.inj hstep
    exact h.of_startOver _
  · rename_i p sockd hcontrol
    simp only [NeverDiscards, hcontrol] at he
    exact h.of_reactivate hcontrol he hstep
  · obtain rfl := Except.ok.inj hstep
    exact h

/-- Every report of aggregate statistics covers the downloads that were reported complete since the
start, if no retry followed a complete download. -/
theorem covers_of_neverDiscards (hs : Launched s)
    (hes : StepsMeet ServiceFilegetter.step NeverDiscards s es)
    (hrun : runSteps ServiceFilegetter.step s es = .ok s') : ∀ r ∈ s'.reports, r.Covers := by
  have hstarted := hs.started
  have hkeeps : Keeps s := by
    refine ⟨hstarted.agrees, ?_, fun _ _ => ?_, ?_⟩
    · rw [hstarted.allstats, hstarted.completed]
      exact ⟨rfl, rfl, le_rfl⟩
    · rw [hstarted.allstats, hstarted.completed, hstarted.curstats]
      exact le_rfl
    · rw [hstarted.reports]
      simp
  have hend : Keeps s' :=
    invariant_of_stepsMeet Keeps (fun _ _ _ h he hstep => h.step he hstep) hkeeps hes hrun
  exact hend.reports

/-- Both downloads are complete after the first attempt. -/
def completeTwice : List ServiceEvent :=
  [.activate 4, .pass (passAt 0 [] .failed),
    .pass (passAt 1 [.ready 99, .ready 99] (.connected 4 shortReply)),
    .pass (passAt 3 [.ready 99, .ready 99] .failed)]

/-- The report covers both downloads. -/
theorem covers_of_neverDiscards_completeTwice : ∃ t,
    runSteps ServiceFilegetter.step downloadTwice completeTwice = .ok t ∧
      t.reports.map (fun r => (r.total.downloadTime, r.completed.length)) = [(⟨3, 0⟩, 2)] ∧
      ∀ r ∈ t.reports, r.Covers := by
  have hrun : (runSteps ServiceFilegetter.step downloadTwice completeTwice).map
      (fun t => t.reports.map fun r => (r.total.downloadTime, r.completed.length)) =
        .ok [(⟨3, 0⟩, 2)] := by decide
  cases h : runSteps ServiceFilegetter.step downloadTwice completeTwice with
  | error fault =>
    rw [h] at hrun
    cases hrun
  | ok t =>
    rw [h] at hrun
    exact ⟨t, rfl, Except.ok.inj hrun,
      covers_of_neverDiscards launched_downloadTwice (by decide) h⟩

/-- The server closes the connection of the second download once, before it is completed. -/
def retrySecond : List ServiceEvent :=
  [.activate 4, .pass (passAt 0 [] .failed),
    .pass (passAt 1 [.ready 99, .ready 99] (.connected 4 [])),
    .pass (passAt 1 [.ready 99, .closed] .failed), .wakeup ⟨61, 0⟩ ⟨61, 0⟩,
    .pass (passAt 61 [] (.connected 5 shortReply)), .activate 5, .pass (passAt 61 [] .failed),
    .pass (passAt 63 [.ready 99, .ready 99] .failed)]

/-- The report leaves out the second that the first download took. -/
theorem not_covers_retrySecond : Launched downloadTwice ∧ ∃ t,
    runSteps ServiceFilegetter.step downloadTwice retrySecond = .ok t ∧
    ∃ r ∈ t.reports, ¬r.Covers := by
  refine ⟨launched_downloadTwice, ?_⟩
  have hrun : (runSteps ServiceFilegetter.step downloadTwice retrySecond).map
      (fun t => t.reports.map fun r => (r.total.downloadTime.nanoseconds,
        (r.completed.map fun stats => stats.downloadTime.nanoseconds).sum)) =
          .ok [(2000000000, 3000000000)] := by decide
  cases h : runSteps ServiceFilegetter.step downloadTwice retrySecond with
  | error fault =>
    rw [h] at hrun
    cases hrun
  | ok t =>
    rw [h] at hrun
    obtain ⟨r, hr, htimes⟩ := List.map_eq_singleton_iff.mp (Except.ok.inj hrun)
    obtain ⟨htotal, hsum⟩ := Prod.mk.inj htimes
    refine ⟨t, rfl, r, by simp [hr], fun hcovers => ?_⟩
    have hdownload := hcovers.downloadTime
    rw [htotal, hsum] at hdownload
    exact absurd hdownload (by decide)

end Statistics

end ShadowExtras.FileTransfer
