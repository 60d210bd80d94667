import ShadowExtras.Foundation.Fallible
import ShadowExtras.Web.BrowserPageDone

/-!
# The life of a load

Neither the deferred notification nor the timer of a load can be taken back. What keeps them apart
is the flag `notified_`, which says that a notification is scheduled, and the load number that the
timer carries. But `reset()` clears the flag of a notification that is still scheduled. It does no
harm at the end of `on_notified`, where the flag was cleared before; when the timer of the current
load fires while the document or the page is done and a notification is outstanding, a second one is
scheduled beside the first (`Timely` rules that out).

The connection manager may also report a request that it has reported before: one that runs out of
retries is reported as failed, and the same call of `trigger` can still read its response. A second
report of the document finds the flag set (`step_late_document`).

`Loads` is the browser with its history: the loads are counted without a bound, and so are the
timers that are armed, while `loadnum_` is the remainder of the count. It also knows the requests
that the manager does not hold any more.
-/

namespace ShadowExtras.Web

open Foundation

/-! ## History -/

/-- The timer of a load cancelled a load. -/
structure Cancel where
  timer : Nat
  load : Nat
  /-- The number of the load was reported before. -/
  reported : Bool
  deriving DecidableEq, Repr

/-- The browser and what it did with its loads. -/
structure Loads where
  browser : Browser
  /-- The current load. -/
  load : Nat
  /-- The loads whose timers have not fired. -/
  armed : List Nat
  /-- The load numbers that `report_result` and `report_failed_load` were called for. -/
  reports : List UInt32
  cancels : List Cancel
  /-- The requests that `connman_` had and has no more: it reported them, or it was reset. -/
  past : List PageRequest

/-- A callback; the timer of a load fires by its load. -/
inductive LoadEvent
  | timer (load : Nat)
  /-- Any callback but `timeout_timer_fired`. -/
  | callback (e : BrowserEvent)
  /-- A callback about a request that was reported before, or that `connman_` was to forget. -/
  | late (e : BrowserEvent)
  deriving DecidableEq, Repr

/-- The request that a report of the connection manager is about. -/
def BrowserEvent.instNum : BrowserEvent → Option Nat
  | .responseMeta instNum _ _ => some instNum
  | .responseBodyData instNum _ => some instNum
  | .responseFinished instNum _ => some instNum
  | _ => none

namespace Browser

/-- Does `on_notified` call `report_result`? -/
def reportsResult (env : Env) (s : Browser) : Bool :=
  match s.state with
  | .done => true
  | .doneDocument =>
    if s.docIsHtml then
      match { s with notified := false }.requestEmbeddedObjects env with
      | .ok t => t.isPageDone
      | .error _ => false
    else true
  | _ => false

end Browser

namespace Loads

variable (env : Env) (s : Loads)

/-- Does the callback call `report_result`? -/
def reportsResult : BrowserEvent → Bool
  | .notified _ =>
    s.browser.scheduled ≠ 0 &&
      { s.browser with scheduled := s.browser.scheduled - 1 }.reportsResult env
  | _ => false

/-- The requests that are gone when the browser is left in the state `b`. -/
def gone (b : Browser) : List PageRequest := s.browser.submitted.filter (· ∉ b.submitted)

/-- The request that a late report is about. -/
def pastRequest (e : BrowserEvent) : Option PageRequest :=
  s.past.find? fun r => some r.instNum = e.instNum

/-- The current load is reported, and the next one is counted. -/
def report : Loads := { s with reports := s.reports ++ [s.browser.loadnum], load := s.load + 1 }

/-- Fire the timer of `load`, which leaves the browser in the state `b`. -/
def timerFired (load : Nat) (b : Browser) : Loads :=
  if UInt32.ofNat load = s.browser.loadnum then
    { s.report with
      browser := b
      armed := s.armed.erase load
      cancels := s.cancels ++
        [{ timer := load, load := s.load, reported := s.browser.loadnum ∈ s.reports }]
      past := s.past ++ s.gone b }
  else { s with browser := b, armed := s.armed.erase load }

/-- A callback that leaves the browser in the state `b`: it may report the load, or arm its
timer. -/
def calledBack (e : BrowserEvent) (b : Browser) : Loads :=
  let s' := if s.reportsResult env e then s.report else s
  { s' with
    browser := b
    armed := if s.browser.timers.length < b.timers.length then s.armed ++ [s.load] else s.armed
    past := s.past ++ s.gone b }

/-- A callback about a request of the past: the browser is called as if the manager still held
it. -/
def late (e : BrowserEvent) (req : PageRequest) : Except BrowserFault Browser :=
  match { s.browser with submitted := s.browser.submitted ++ [req] }.step env e with
  | .error f => .error f
  | .ok b => .ok { b with submitted := b.submitted.filter fun r => r.instNum ≠ req.instNum }

/-- One callback. -/
def step (s : Loads) : LoadEvent → Except BrowserFault Loads
  | .timer load =>
    if load ∈ s.armed then
      match s.browser.step env (.timeout (UInt32.ofNat load)) with
      | .error f => .error f
      | .ok b => .ok (s.timerFired load b)
    else .ok s
  | .callback (.timeout _) => .ok s
  | .callback e =>
    match s.browser.step env e with
    | .error f => .error f
    | .ok b => .ok (s.calledBack env e b)
  | .late e =>
    match s.pastRequest e with
    | none => .ok s
    | some req => match s.late env e req with
      | .error f => .error f
      | .ok b => .ok { s with browser := b }

/-- `browser_t::start`: the first load. -/
def start (page : Nat) : Except BrowserFault Loads :=
  match Browser.start env page with
  | .error f => .error f
  | .ok b => .ok
    { browser := b
      load := 1
      armed := if env.timeout then [1] else []
      reports := []
      cancels := []
      past := [] }

/-- The lifecycle of the loads: at most one notification is outstanding, no load number is reported
twice, and the timer of a load cancels that load before it is reported or nothing. -/
structure Lifecycle (s : Loads) : Prop where
  outstanding : s.browser.scheduled ≤ 1
  reports : s.reports.Nodup
  cancels : ∀ c ∈ s.cancels, c.timer = c.load ∧ c.reported = false

/-- No request is reported that was reported before or that the manager was to forget. -/
def Once (s : Loads) : LoadEvent → Prop
  | .late e => s.pastRequest e = none
  | _ => True

/-- No timer cancels the current load while a notification is outstanding, the load numbers do not
run out, and no request is reported late. -/
def Timely (s : Loads) : LoadEvent → Prop
  | .timer load => load ∈ s.armed → UInt32.ofNat load = s.browser.loadnum →
      s.browser.notified = false ∧ s.reports.length < 2 ^ 32
  | .callback e => s.reportsResult env e = true → s.reports.length < 2 ^ 32
  | .late e => s.pastRequest e = none

instance (s : Loads) (e : LoadEvent) : Decidable (s.Timely env e) := by
  unfold Timely
  split <;> infer_instance

end Loads

namespace Browser

variable {env : Env} {s t : Browser} {x : Except BrowserFault Browser} {req : PageRequest}
  {url : Bytes} {page : Nat} {e : BrowserEvent}

/-! ## Operations that leave the schedule alone -/

/-- The notification and the timers, and the number of the load. -/
def timing (s : Browser) := (s.notified, s.scheduled, s.timers, s.loadnum)

/-- A fault other than those of the assertions on `notified_`. -/
def Other (f : BrowserFault) : Prop := f ≠ .notified ∧ f ≠ .notNotified

/-- What schedules nothing and does not fail an assertion on `notified_`. -/
def KeepsTiming (s : Browser) : Except BrowserFault Browser → Prop
  | .ok t => t.timing = s.timing
  | .error f => Other f

/-- What keeps the timing may follow what kept it. -/
theorem KeepsTiming.trans (h : KeepsTiming t x) (hst : t.timing = s.timing) : KeepsTiming s x := by
  cases x with
  | error f => exact h
  | ok u => exact Eq.trans h hst

/-- A line of a script fails no assertion on `notified_`. -/
theorem other_of_urlToFetch {line : Bytes} {f : BrowserFault} (h : urlToFetch line = .error f) :
    Other f := by
  unfold urlToFetch at h
  repeat' split at h
  all_goals cases h
  all_goals simp [Other]

/-- A request keeps the timing. -/
theorem keepsTiming_requestOneUrl : KeepsTiming s (s.requestOneUrl env url) := by
  unfold requestOneUrl
  dsimp only
  split
  · simp [KeepsTiming, Other]
  · split
    · simp [KeepsTiming, Other]
    · simp [KeepsTiming, timing, submitRequest]

/-- The lines of a script keep the timing. -/
theorem keepsTiming_processLines {lines : List Bytes} :
    KeepsTiming s (s.processLines env lines) := by
  induction lines generalizing s with
  | nil => simp [processLines, KeepsTiming]
  | cons line lines ih =>
    unfold processLines
    split
    · rename_i f hline
      exact other_of_urlToFetch hline
    · exact ih
    · rename_i url hline
      have hfirst : KeepsTiming s (s.requestOneUrl env url) := keepsTiming_requestOneUrl
      split
      · rename_i f hrequest
        rwa [hrequest] at hfirst
      · rename_i u hrequest
        rw [hrequest] at hfirst
        exact ih.trans hfirst

/-- A script of the document keeps the timing. -/
theorem keepsTiming_processAScript {sr : ScriptResource} :
    KeepsTiming s (s.processAScript env sr) := by
  unfold processAScript
  split
  · split
    · simp [KeepsTiming, Other]
    · exact keepsTiming_requestOneUrl
  · exact keepsTiming_processLines

/-- The requests for the images keep the timing. -/
theorem keepsTiming_requestImages {urls : List Bytes} :
    KeepsTiming s (s.requestImages env urls) := by
  induction urls generalizing s with
  | nil => simp [requestImages, KeepsTiming]
  | cons url urls ih =>
    unfold requestImages
    have hfirst : KeepsTiming s (s.requestOneUrl env (cString url)) := keepsTiming_requestOneUrl
    split
    · rename_i f hrequest
      rwa [hrequest] at hfirst
    · rename_i u hrequest
      rw [hrequest] at hfirst
      exact ih.trans hfirst

/-- The scripts of the document keep the timing. -/
theorem keepsTiming_processScripts {scripts : List ScriptResource} :
    KeepsTiming s (s.processScripts env scripts) := by
  induction scripts generalizing s with
  | nil => simp [processScripts, KeepsTiming]
  | cons sr scripts ih =>
    unfold processScripts
    have hfirst : KeepsTiming s (s.processAScript env sr) := keepsTiming_processAScript
    split
    · rename_i f hscript
      rwa [hscript] at hfirst
    · rename_i u hscript
      rw [hscript] at hfirst
      exact ih.trans hfirst

/-- The requests for the embedded objects keep the timing. -/
theorem keepsTiming_requestEmbeddedObjects : KeepsTiming s (s.requestEmbeddedObjects env) := by
  unfold requestEmbeddedObjects
  dsimp only
  have himages : KeepsTiming s
      ({ s with docContent := [] }.requestImages env (env.htmlParse (cString s.docContent)).1) :=
    keepsTiming_requestImages.trans (by simp [timing])
  split
  · rename_i f hrequest
    rwa [hrequest] at himages
  · rename_i u hrequest
    rw [hrequest] at himages
    exact keepsTiming_processScripts.trans himages

/-- A fetched object keeps the timing. -/
theorem keepsTiming_processFetched : KeepsTiming s (s.processFetched env req) := by
  unfold processFetched
  split
  · simp [KeepsTiming]
  · exact keepsTiming_processAScript.trans (by simp [timing])

/-! ## Operations that schedule -/

/-- The notifications that are scheduled are those that the flag says, and none is while the browser
fetches. -/
structure Scheduled (s : Browser) : Prop where
  scheduled : s.scheduled = if s.notified then 1 else 0
  fetching : s.state = .fetchingDocument ∨ s.state = .fetchingEmbedded → s.notified = false

/-- The load of `s` is over in `t` and the next one scheduled. -/
structure Advances (s t : Browser) : Prop where
  notified : t.notified = true
  scheduled : t.scheduled = s.scheduled + 1
  timers : t.timers = s.timers
  loadnum : t.loadnum = s.loadnum + 1
  state : t.state = .init

/-- What ends the load of `s`, unless an assertion fails that is not about `notified_`. -/
def Ends (s : Browser) : Except BrowserFault Browser → Prop
  | .ok t => Advances s t
  | .error f => Other f

/-- What goes on with the load of `s` without a notification. -/
def GoesOn (s : Browser) : Except BrowserFault Browser → Prop
  | .ok t => t.notified = false ∧ t.scheduled = s.scheduled ∧ t.loadnum = s.loadnum ∧
      (t.timers = s.timers ∨ t.timers = s.timers ++ [s.loadnum])
  | .error f => Other f

/-- `reset()` clears the flag, so that the next load can be scheduled. -/
theorem exists_advances (h : s.reset = .ok t) :
    ∃ u, { t with loadnum := t.loadnum + 1 }.notify = .ok u ∧ Advances s u := by
  unfold reset at h
  split at h
  · cases h
  · obtain rfl := Except.ok.inj h
    exact ⟨_, rfl, ⟨rfl, rfl, rfl, rfl, rfl⟩⟩

/-- A load that is done is reported. -/
theorem ends_finishLoad (h : s.state = .done) : Ends s s.finishLoad := by
  unfold finishLoad
  rw [if_pos h]
  split
  · rename_i f hreset
    unfold reset at hreset
    split at hreset
    · obtain rfl := Except.error.inj hreset
      simp [Ends, Other]
    · cases hreset
  · rename_i u hreset
    obtain ⟨v, hv, hadvances⟩ := exists_advances hreset
    rw [hv]
    exact hadvances

theorem finishLoad_of_ne (h : s.state ≠ .done) : s.finishLoad = .ok s := by
  unfold finishLoad
  rw [if_neg h]

/-- What ends a load depends on the notification, the timers and the number. -/
theorem Ends.congr (h : Ends t x) (hscheduled : t.scheduled = s.scheduled)
    (htimers : t.timers = s.timers) (hloadnum : t.loadnum = s.loadnum) : Ends s x := by
  cases x with
  | error f => exact h
  | ok u =>
    obtain ⟨hnotified, husched, hutimers, huload, hstate⟩ := h
    rw [hscheduled] at husched
    rw [htimers] at hutimers
    rw [hloadnum] at huload
    exact ⟨hnotified, husched, hutimers, huload, hstate⟩

/-- The next load begins without a notification. -/
theorem goesOn_load (h : s.notified = false) : GoesOn s (s.load env url) := by
  unfold load
  split
  · simp [GoesOn, Other]
  · split
    · simp [GoesOn, Other]
    · refine ⟨h, rfl, rfl, ?_⟩
      by_cases htimeout : env.timeout <;> simp [submitRequest, htimeout]

/-- `on_notified` ends the load or goes on with it. -/
theorem onNotified_timing (env : Env) (page : Nat) (h : s.notified = true) :
    if s.reportsResult env = true then Ends s (s.onNotified env page)
    else GoesOn s (s.onNotified env page) := by
  obtain ⟨u, hu⟩ : ∃ u, u = { s with notified := false } := ⟨_, rfl⟩
  have hnotified : u.notified = false := by rw [hu]
  have hstateu : u.state = s.state := by rw [hu]
  have hends : ∀ x, Ends u x → Ends s x := by
    intro x hx
    exact hx.congr (by rw [hu]) (by rw [hu]) (by rw [hu])
  have hgoesOn : ∀ x, GoesOn u x → GoesOn s x := by
    intro x hx
    rw [hu] at hx
    exact hx
  have hstay : u.state ≠ .done → GoesOn s u.finishLoad := by
    intro hne
    rw [finishLoad_of_ne hne]
    exact hgoesOn (.ok u) ⟨hnotified, rfl, rfl, .inl rfl⟩
  unfold onNotified reportsResult
  simp only [h, Bool.not_true, Bool.false_eq_true, if_false, ← hu]
  cases hstate : s.state with
  | closed => exact hgoesOn (.ok u) ⟨hnotified, rfl, rfl, .inl rfl⟩
  | init =>
    simp only [Bool.false_eq_true, if_false]
    split
    · simp [GoesOn, Other]
    · exact hgoesOn _ (goesOn_load hnotified)
  | doneDocument =>
    by_cases hhtml : s.docIsHtml
    · have hkeeps : KeepsTiming u (u.requestEmbeddedObjects env) :=
        keepsTiming_requestEmbeddedObjects
      simp only [hhtml, if_true]
      cases hrequest : u.requestEmbeddedObjects env with
      | error f =>
        rw [hrequest] at hkeeps
        simp only [Bool.false_eq_true, if_false]
        exact hkeeps
      | ok v =>
        rw [hrequest] at hkeeps
        simp only [KeepsTiming, timing, Prod.mk.injEq] at hkeeps
        obtain ⟨hvnotified, hscheduled, htimers, hloadnum⟩ := hkeeps
        by_cases hdone : v.isPageDone = true
        · simp only [hdone, if_true]
          exact hends _ ((ends_finishLoad rfl).congr hscheduled htimers hloadnum)
        · simp only [hdone, Bool.false_eq_true, if_false]
          rw [finishLoad_of_ne (by simp)]
          exact hgoesOn (.ok _) ⟨hvnotified.trans hnotified, hscheduled, hloadnum, .inl htimers⟩
    · simp only [hhtml, Bool.false_eq_true, if_false, if_true]
      exact (ends_finishLoad rfl).congr rfl rfl rfl
  | done =>
    simp only [if_true]
    exact hends _ (ends_finishLoad (hstateu.trans hstate))
  | fetchingDocument =>
    simp only [Bool.false_eq_true, if_false]
    apply hstay
    simp [hstateu, hstate]
  | fetchingEmbedded =>
    simp only [Bool.false_eq_true, if_false]
    apply hstay
    simp [hstateu, hstate]

/-- The document is pending only while it is fetched. -/
theorem Consistent.state_of_doc (hs : s.Consistent) (hreq : req ∈ s.pendingRequests)
    (hdoc : some req.instNum = s.docReqInstNum) : s.state = .fetchingDocument := by
  have hphase := hs.phase
  unfold Phase at hphase
  cases hstate : s.state <;> simp only [hstate] at hphase
  case fetchingDocument => rfl
  case fetchingEmbedded | done => exact absurd hdoc.symm (hphase.2 req hreq)
  case init | doneDocument => simp [hphase.1] at hreq
  case closed => simp [hphase] at hreq

/-- What a callback keeps: it may arm the timer of the current load, and it goes on to the next load
just if it reports the current one. -/
def KeepsSchedule (s : Browser) (reports : Bool) : Except BrowserFault Browser → Prop
  | .ok t => t.Scheduled ∧ (t.timers = s.timers ∨ t.timers = s.timers ++ [s.loadnum]) ∧
      t.loadnum = if reports then s.loadnum + 1 else s.loadnum
  | .error f => Other f

/-- A notification where none is outstanding. -/
theorem keepsSchedule_notify (hsched : t.Scheduled) (hnotified : t.notified = false)
    (htimers : t.timers = s.timers) (hloadnum : t.loadnum = s.loadnum)
    (hstate : t.state ≠ .fetchingDocument ∧ t.state ≠ .fetchingEmbedded) :
    KeepsSchedule s false t.notify := by
  unfold notify
  simp only [hnotified, Bool.false_eq_true, if_false]
  refine ⟨⟨?_, ?_⟩, .inl htimers, hloadnum⟩
  · simp [hsched.scheduled, hnotified]
  · simp [hstate.1, hstate.2]

/-- The end of an object keeps the schedule. -/
theorem keepsSchedule_responseFinishedCb (hs : s.Consistent) (hsched : s.Scheduled)
    (hreq : req ∈ s.pendingRequests) :
    KeepsSchedule s false ({ s with
      submitted :=
    s.submitted.filter fun r => r.instNum ≠ req.instNum }.responseFinishedCb env req) := by
  unfold responseFinishedCb
  dsimp only
  split
  · rename_i hdoc
    have hnotified := hsched.fetching (.inl (hs.state_of_doc hreq hdoc))
    refine keepsSchedule_notify ⟨hsched.scheduled, ?_⟩ hnotified rfl rfl ?_ <;> simp
  · unfold embeddedFinished
    dsimp only
    split
    · simp [KeepsSchedule, Other]
    · rename_i hstate
      rw [not_not] at hstate
      have hnotified := hsched.fetching (.inr hstate)
      let base : Browser := { s with
        submitted := s.submitted.filter fun r => r.instNum ≠ req.instNum
        pendingRequests := s.pendingRequests.filter fun r => r.url ≠ req.url
        receivedResources := insert req.url s.receivedResources }
      have hkeeps : KeepsTiming base (base.processFetched env req) := keepsTiming_processFetched
      change KeepsSchedule s false (match base.processFetched env req with
        | .error f => .error f
        | .ok s => if s.isPageDone then { s with state := .done }.notify else .ok s)
      cases hscript : base.processFetched env req with
      | error f =>
        rw [hscript] at hkeeps
        exact hkeeps
      | ok u =>
        rw [hscript] at hkeeps
        simp only [KeepsTiming, timing, Prod.mk.injEq] at hkeeps
        obtain ⟨hunotified, huscheduled, hutimers, huloadnum⟩ := hkeeps
        have hnone : u.notified = false := hunotified.trans hnotified
        have husched : u.scheduled = if u.notified then 1 else 0 := by
          rw [huscheduled, hunotified]
          exact hsched.scheduled
        simp only
        split
        · refine keepsSchedule_notify ⟨husched, ?_⟩ hnone hutimers huloadnum ?_ <;> simp
        · exact ⟨⟨husched, fun _ => hnone⟩, .inl hutimers, huloadnum⟩

/-- Ending a load whose notification is outstanding no more. -/
theorem KeepsSchedule.of_ends (h : Ends t x) (hscheduled : t.scheduled = 0)
    (htimers : t.timers = s.timers) (hloadnum : t.loadnum = s.loadnum) :
    KeepsSchedule s true x := by
  cases x with
  | error f => exact h
  | ok u =>
    obtain ⟨hnotified, husched, hutimers, huloadnum, hstate⟩ := h
    refine ⟨⟨?_, ?_⟩, .inl (hutimers.trans htimers), ?_⟩
    · simp [husched, hscheduled, hnotified]
    · simp [hstate]
    · simp [huloadnum, hloadnum]

/-- A load that goes on without a notification keeps the schedule. -/
theorem KeepsSchedule.of_goesOn (h : GoesOn t x) (hscheduled : t.scheduled = 0)
    (htimers : t.timers = s.timers) (hloadnum : t.loadnum = s.loadnum) :
    KeepsSchedule s false x := by
  cases x with
  | error f => exact h
  | ok u =>
    obtain ⟨hnotified, husched, huloadnum, hutimers⟩ := h
    rw [htimers, hloadnum] at hutimers
    refine ⟨⟨?_, fun _ => hnotified⟩, hutimers, ?_⟩
    · simp [husched, hscheduled, hnotified]
    · simp [huloadnum, hloadnum]

/-- A notification that is due finds the flag set. -/
theorem keepsSchedule_notified (hsched : s.Scheduled) (hdue : s.scheduled ≠ 0) :
    KeepsSchedule s ({ s with scheduled := s.scheduled - 1 }.reportsResult env)
      ({ s with scheduled := s.scheduled - 1 }.onNotified env page) := by
  have hnotified : s.notified = true := by
    by_contra hnot
    have := hsched.scheduled
    simp only [hnot, if_false] at this
    exact hdue this
  have hone : s.scheduled - 1 = 0 := by
    rw [hsched.scheduled, if_pos hnotified]
  have htiming := onNotified_timing env page
    (s := { s with scheduled := s.scheduled - 1 }) hnotified
  split at htiming
  · rename_i hreports
    rw [hreports]
    exact .of_ends htiming hone rfl rfl
  · rename_i hreports
    rw [Bool.not_eq_true] at hreports
    rw [hreports]
    exact .of_goesOn htiming hone rfl rfl

/-- What leaves the notifications, the timers, the number and the state of the load alone. -/
theorem keepsSchedule_of_eq (hsched : s.Scheduled) (htiming : t.timing = s.timing)
    (hstate : t.state = s.state ∨ t.state = .closed) : KeepsSchedule s false (.ok t) := by
  simp only [timing, Prod.mk.injEq] at htiming
  obtain ⟨hnotified, hscheduled, htimers, hloadnum⟩ := htiming
  refine ⟨⟨?_, ?_⟩, .inl htimers, hloadnum⟩
  · rw [hscheduled, hnotified]
    exact hsched.scheduled
  · rcases hstate with hstate | hstate
    · rw [hstate, hnotified]
      exact hsched.fetching
    · simp [hstate]

/-- The timer of another load changes nothing. -/
theorem step_timeout_of_ne {loadnum : UInt32} (hmem : loadnum ∈ s.timers)
    (hne : loadnum ≠ s.loadnum) :
    step env s (.timeout loadnum) = .ok { s with timers := s.timers.erase loadnum } := by
  simp only [step, if_pos hmem, onTimeoutTimerFired]
  rw [if_neg hne]

/-- The timer of the current load ends it. -/
theorem step_timeout_of_eq (env : Env) {loadnum : UInt32} (hmem : loadnum ∈ s.timers)
    (heq : loadnum = s.loadnum) :
    ∃ t, step env s (.timeout loadnum) = .ok t ∧
      Advances { s with timers := s.timers.erase loadnum } t := by
  simp only [step, if_pos hmem, onTimeoutTimerFired, stopLoad]
  rw [if_pos heq]
  obtain ⟨u, hreset⟩ := reset_eq_ok (s := { s with
    timers := s.timers.erase loadnum, pendingRequests := [] }) rfl
  obtain ⟨t, hnotify, hadvances⟩ := exists_advances hreset
  refine ⟨t, ?_, ?_⟩
  · rw [hreset]
    exact hnotify
  · exact ⟨hadvances.notified, hadvances.scheduled, hadvances.timers, hadvances.loadnum,
      hadvances.state⟩

end Browser

namespace Loads

variable {env : Env} {s t : Loads} {e : LoadEvent}

open Browser

/-! ## Callbacks other than timers -/

/-- A callback of the browser that is not a timer. -/
theorem keepsSchedule_step (env : Env) {e : BrowserEvent} (hs : s.browser.Consistent)
    (hsched : s.browser.Scheduled) (he : ∀ n, e ≠ .timeout n) :
    KeepsSchedule s.browser (s.reportsResult env e) (s.browser.step env e) := by
  cases e with
  | notified page =>
    simp only [Browser.step, reportsResult]
    split
    · rename_i hnone
      simp only [hnone, ne_eq, not_true_eq_false, decide_false, Bool.false_and]
      exact keepsSchedule_of_eq hsched rfl (.inl rfl)
    · rename_i hdue
      simp only [ne_eq, hdue, not_false_eq_true, decide_true, Bool.true_and]
      exact keepsSchedule_notified hsched hdue
  | timeout n => exact absurd rfl (he n)
  | responseMeta instNum status headers =>
    simp only [Browser.step, reportsResult]
    split
    · exact keepsSchedule_of_eq hsched rfl (.inl rfl)
    · unfold responseMetaCb
      split
      · simp [KeepsSchedule, Other]
      · split
        · exact keepsSchedule_of_eq hsched rfl (.inl rfl)
        · exact keepsSchedule_of_eq hsched rfl (.inl rfl)
  | responseBodyData instNum data =>
    simp only [Browser.step, reportsResult]
    split
    · exact keepsSchedule_of_eq hsched rfl (.inl rfl)
    · unfold responseBodyDataCb
      split
      · exact keepsSchedule_of_eq hsched rfl (.inl rfl)
      · exact keepsSchedule_of_eq hsched rfl (.inl rfl)
  | responseFinished instNum success =>
    simp only [Browser.step, reportsResult]
    split
    · exact keepsSchedule_of_eq hsched rfl (.inl rfl)
    · rename_i req hrequest
      obtain ⟨hreq, rfl⟩ := request_spec hs.registered hrequest
      exact keepsSchedule_responseFinishedCb hs hsched hreq
  | close => exact keepsSchedule_of_eq hsched rfl (.inr rfl)

/-! ## The invariant -/

/-- The invariant of the loads: those before the current one are reported, in order, and the timers
are those of loads that were begun. -/
structure Numbered (s : Loads) : Prop where
  consistent : s.browser.Consistent
  scheduled : s.browser.Scheduled
  loadnum : s.browser.loadnum = UInt32.ofNat s.load
  timers : s.browser.timers = s.armed.map UInt32.ofNat
  armed : ∀ k ∈ s.armed, 1 ≤ k ∧ k ≤ s.load
  reports : s.reports = (List.range' 1 (s.load - 1)).map UInt32.ofNat
  load : 1 ≤ s.load ∧ s.load ≤ 2 ^ 32 + 1
  cancels : ∀ c ∈ s.cancels, c.timer = c.load ∧ c.reported = false

/-- Loads have different numbers as long as these do not run out. -/
theorem ofNat_inj {j k : Nat} (hj : 1 ≤ j ∧ j ≤ 2 ^ 32) (hk : 1 ≤ k ∧ k ≤ 2 ^ 32)
    (h : UInt32.ofNat j = UInt32.ofNat k) : j = k := by
  have hmod : j % 2 ^ 32 = k % 2 ^ 32 := by
    have := congrArg UInt32.toNat h
    simpa using this
  omega

theorem Numbered.length_reports (hs : s.Numbered) : s.reports.length = s.load - 1 := by
  simp [hs.reports]

/-- Numbered loads keep the lifecycle. -/
theorem Numbered.lifecycle (hs : s.Numbered) : s.Lifecycle where
  outstanding := by
    rw [hs.scheduled.scheduled]
    split <;> omega
  reports := by
    rw [hs.reports]
    apply List.Nodup.map_on _ List.nodup_range'
    intro j hj k hk heq
    have hload := hs.load
    rw [List.mem_range'_1] at hj hk
    exact ofNat_inj (by omega) (by omega) heq
  cancels := hs.cancels

/-- The numbers of the loads that are reported once the current load is. -/
theorem Numbered.reports_report (hs : s.Numbered) :
    s.report.reports = (List.range' 1 (s.report.load - 1)).map UInt32.ofNat := by
  have hload : s.load + 1 - 1 = s.load - 1 + 1 := by
    have := hs.load
    omega
  have hlast : 1 + (s.load - 1) = s.load := by
    have := hs.load
    omega
  simp only [report]
  rw [hload, List.range'_1_concat, List.map_append, List.map_singleton, hlast, ← hs.reports,
    hs.loadnum]

/-- The current load is not reported yet. -/
theorem Numbered.loadnum_notMem (hs : s.Numbered) (hlength : s.reports.length < 2 ^ 32) :
    s.browser.loadnum ∉ s.reports := by
  have hload := hs.load
  rw [hs.length_reports] at hlength
  rw [hs.loadnum, hs.reports, List.mem_map]
  rintro ⟨k, hk, heq⟩
  rw [List.mem_range'_1] at hk
  have := ofNat_inj (by omega) (by omega) heq
  omega

/-- A report too many repeats a number. -/
theorem Numbered.not_nodup (hs : s.Numbered) (hlength : ¬s.reports.length < 2 ^ 32) :
    ¬s.report.reports.Nodup := by
  have hload := hs.load
  have hlen := hs.length_reports
  have hlast : s.load = 2 ^ 32 + 1 := by omega
  have hmem : s.browser.loadnum ∈ s.reports := by
    rw [hs.loadnum, hs.reports, hlast, List.mem_map]
    refine ⟨1, ?_, rfl⟩
    rw [List.mem_range'_1]
    omega
  intro hnodup
  have hdisjoint := (List.nodup_append.mp hnodup).2.2
  exact hdisjoint _ hmem _ (List.mem_singleton.mpr rfl) rfl

/-- A report keeps the loads numbered if the browser goes on to the next load. -/
theorem Numbered.report (hs : s.Numbered) {b : Browser} {armed : List Nat} {cancels : List Cancel}
    {past : List PageRequest} (hlength : s.reports.length < 2 ^ 32) (hconsistent : b.Consistent)
    (hscheduled : b.Scheduled)
    (hloadnum : b.loadnum = s.browser.loadnum + 1) (htimers : b.timers = armed.map UInt32.ofNat)
    (harmed : ∀ k ∈ armed, 1 ≤ k ∧ k ≤ s.load + 1)
    (hcancels : ∀ c ∈ cancels, c.timer = c.load ∧ c.reported = false) :
    { s.report with browser := b, armed := armed, cancels := cancels, past := past }.Numbered := by
  have hload := hs.load
  rw [hs.length_reports] at hlength
  constructor
  · exact hconsistent
  · exact hscheduled
  · simp only [hloadnum, hs.loadnum, Loads.report, UInt32.ofNat_add]
    rfl
  · exact htimers
  · exact harmed
  · exact hs.reports_report
  · simp only [Loads.report]
    omega
  · exact hcancels

/-- The timers after a callback. -/
theorem Numbered.armed_calledBack (hs : s.Numbered) {b : Browser}
    (htimers : b.timers = s.browser.timers ∨ b.timers = s.browser.timers ++ [s.browser.loadnum]) :
    let armed := if s.browser.timers.length < b.timers.length then s.armed ++ [s.load] else s.armed
    b.timers = armed.map UInt32.ofNat ∧ ∀ k ∈ armed, 1 ≤ k ∧ k ≤ s.load := by
  rcases htimers with htimers | htimers
  · simp only [htimers, lt_irrefl, if_false]
    exact ⟨hs.timers, hs.armed⟩
  · simp only [htimers, List.length_append, List.length_singleton, Nat.lt_succ_self, if_true]
    constructor
    · rw [List.map_append, List.map_singleton, ← hs.timers, hs.loadnum]
    · intro k hk
      rcases List.mem_append.mp hk with hk | hk
      · exact hs.armed k hk
      · obtain rfl := List.mem_singleton.mp hk
        exact ⟨hs.load.1, le_rfl⟩

/-- A callback keeps the loads numbered. -/
theorem Numbered.calledBack (hs : s.Numbered) {e : BrowserEvent} {b : Browser}
    (hmeet : s.reportsResult env e = true → s.reports.length < 2 ^ 32) (hconsistent : b.Consistent)
    (hkeeps : KeepsSchedule s.browser (s.reportsResult env e) (.ok b)) :
    (s.calledBack env e b).Numbered := by
  obtain ⟨hscheduled, htimers, hloadnum⟩ := hkeeps
  obtain ⟨hmap, harmed⟩ := hs.armed_calledBack htimers
  unfold Loads.calledBack
  by_cases hreports : s.reportsResult env e = true
  · simp only [hreports, if_true] at hloadnum ⊢
    apply hs.report (hmeet hreports) hconsistent hscheduled hloadnum hmap _ hs.cancels
    intro k hk
    exact ⟨(harmed k hk).1, (harmed k hk).2.trans (Nat.le_succ _)⟩
  · simp only [hreports, Bool.false_eq_true, if_false] at hloadnum ⊢
    exact ⟨hconsistent, hscheduled, hloadnum.trans hs.loadnum, hmap, harmed, hs.reports, hs.load,
      hs.cancels⟩

/-! ## Timers -/

/-- A timer that is armed is one of the browser. -/
theorem Numbered.mem_timers (hs : s.Numbered) {load : Nat} (h : load ∈ s.armed) :
    UInt32.ofNat load ∈ s.browser.timers := by
  rw [hs.timers]
  exact List.mem_map_of_mem h

/-- The timers that are left when one fires; no other one has its number. -/
theorem map_erase {load : Nat} {armed : List Nat}
    (h : ∀ k ∈ armed, UInt32.ofNat k = UInt32.ofNat load → k = load) :
    (armed.map UInt32.ofNat).erase (UInt32.ofNat load) = (armed.erase load).map UInt32.ofNat := by
  induction armed with
  | nil => simp
  | cons k armed ih =>
    have hrest := ih fun j hj => h j (List.mem_cons_of_mem _ hj)
    by_cases hk : k = load
    · simp [hk]
    · have hne : UInt32.ofNat k ≠ UInt32.ofNat load := fun heq => hk (h k (by simp) heq)
      rw [List.map_cons, List.erase_cons_tail (by simpa using hne),
        List.erase_cons_tail (by simpa using hk), List.map_cons, hrest]

/-- The timer of a load that is not the current one, or of the current one while the numbers have
not run out, is the only one of its number. -/
theorem Numbered.timers_erase (hs : s.Numbered) {load : Nat} (hmem : load ∈ s.armed)
    (h : UInt32.ofNat load ≠ s.browser.loadnum ∨ s.reports.length < 2 ^ 32) :
    s.browser.timers.erase (UInt32.ofNat load) = (s.armed.erase load).map UInt32.ofNat := by
  rw [hs.timers]
  apply map_erase
  intro k hk heq
  have hload := hs.load
  have hka := hs.armed k hk
  have hla := hs.armed load hmem
  rcases h with hne | hlength
  · -- only the first load and the last one may share a number, which is the current one
    have hmod : k % 2 ^ 32 = load % 2 ^ 32 := by
      have := congrArg UInt32.toNat heq
      simpa using this
    have hcurrent : load % 2 ^ 32 ≠ s.load % 2 ^ 32 := by
      intro hmodload
      apply hne
      rw [hs.loadnum]
      apply UInt32.toNat_inj.mp
      simpa using hmodload
    omega
  · rw [hs.length_reports] at hlength
    exact ofNat_inj (by omega) (by omega) heq

/-- A timer that fires in time keeps the loads numbered. -/
theorem Numbered.timerFired (hs : s.Numbered) {load : Nat} {b : Browser} (hmem : load ∈ s.armed)
    (hmeet : s.Timely env (.timer load))
    (h : s.browser.step env (.timeout (UInt32.ofNat load)) = .ok b) :
    (s.timerFired load b).Numbered := by
  have hconsistent := hs.consistent.step h
  have hin := hs.mem_timers hmem
  have harmed : ∀ k ∈ s.armed.erase load, 1 ≤ k ∧ k ≤ s.load :=
    fun k hk => hs.armed k (List.mem_of_mem_erase hk)
  unfold Loads.timerFired
  split
  · rename_i heq
    obtain ⟨hnotified, hlength⟩ := hmeet hmem heq
    have herase := hs.timers_erase hmem (.inr hlength)
    obtain ⟨b', hb', hadvances⟩ := step_timeout_of_eq env hin heq
    obtain rfl : b' = b := Except.ok.inj (hb'.symm.trans h)
    have hscheduled : b'.Scheduled := by
      constructor
      · simp [hadvances.scheduled, hadvances.notified, hs.scheduled.scheduled, hnotified]
      · simp [hadvances.state]
    apply hs.report hlength hconsistent hscheduled hadvances.loadnum
    · rw [hadvances.timers]
      exact herase
    · intro k hk
      exact ⟨(harmed k hk).1, (harmed k hk).2.trans (Nat.le_succ _)⟩
    · intro c hc
      rcases List.mem_append.mp hc with hc | hc
      · exact hs.cancels c hc
      · obtain rfl := List.mem_singleton.mp hc
        have hload := hs.load
        have hla := hs.armed load hmem
        have hlen := hs.length_reports
        constructor
        · have : load = s.load := ofNat_inj (by omega) (by omega) (heq.trans hs.loadnum)
          exact this
        · exact decide_eq_false (hs.loadnum_notMem hlength)
  · rename_i hne
    have herase := hs.timers_erase hmem (.inl hne)
    rw [step_timeout_of_ne hin hne] at h
    obtain rfl := Except.ok.inj h
    exact ⟨hconsistent, ⟨hs.scheduled.scheduled, hs.scheduled.fetching⟩, hs.loadnum, herase, harmed,
      hs.reports, hs.load, hs.cancels⟩

/-! ## Steps and runs -/

/-- A late report that is not due does not happen. -/
theorem step_late_of_none {e : BrowserEvent} (h : s.pastRequest e = none) :
    step env s (.late e) = .ok s := by
  simp only [step, h]

/-- A callback that happens in a state that keeps the invariant. -/
theorem step_callback {e : BrowserEvent} (he : ∀ n, e ≠ .timeout n) :
    step env s (.callback e) = match s.browser.step env e with
      | .error f => .error f
      | .ok b => .ok (s.calledBack env e b) := by
  cases e with
  | timeout n => exact absurd rfl (he n)
  | _ => rfl

/-- Every timely event keeps the loads numbered. -/
theorem Numbered.step (hs : s.Numbered) (hmeet : s.Timely env e) (h : step env s e = .ok t) :
    t.Numbered := by
  cases e with
  | timer load =>
    simp only [Loads.step] at h
    split at h
    · rename_i hmem
      split at h
      · cases h
      · rename_i b hb
        obtain rfl := Except.ok.inj h
        exact hs.timerFired hmem hmeet hb
    · obtain rfl := Except.ok.inj h
      exact hs
  | callback e =>
    by_cases he : ∃ n, e = .timeout n
    · obtain ⟨n, rfl⟩ := he
      obtain rfl := Except.ok.inj h
      exact hs
    · push Not at he
      rw [step_callback he] at h
      have hkeeps := keepsSchedule_step env hs.consistent hs.scheduled he
      split at h
      · cases h
      · rename_i b hb
        obtain rfl := Except.ok.inj h
        rw [hb] at hkeeps
        exact hs.calledBack hmeet (hs.consistent.step hb) hkeeps
  | late e =>
    rw [step_late_of_none hmeet] at h
    obtain rfl := Except.ok.inj h
    exact hs

/-- No timely step fails an assertion on `notified_` while the invariant holds. -/
theorem Numbered.other_of_step (hs : s.Numbered) (hmeet : s.Timely env e) {f : BrowserFault}
    (h : Loads.step env s e = .error f) : Other f := by
  cases e with
  | timer load =>
    simp only [Loads.step] at h
    split at h
    · rename_i hmem
      have hin := hs.mem_timers hmem
      by_cases heq : UInt32.ofNat load = s.browser.loadnum
      · obtain ⟨b, hb, -⟩ := step_timeout_of_eq env hin heq
        simp [hb] at h
      · simp [step_timeout_of_ne hin heq] at h
    · cases h
  | callback e =>
    by_cases he : ∃ n, e = .timeout n
    · obtain ⟨n, rfl⟩ := he
      cases h
    · push Not at he
      rw [step_callback he] at h
      have hkeeps := keepsSchedule_step env hs.consistent hs.scheduled he
      split at h
      · rename_i g hg
        obtain rfl := Except.error.inj h
        rw [hg] at hkeeps
        exact hkeeps
      · cases h
  | late e =>
    rw [step_late_of_none hmeet] at h
    cases h

/-- A step that is not timely, and no late report, leaves two notifications or repeats a number. -/
theorem Numbered.not_lifecycle (hs : s.Numbered) (honce : s.Once e) (hmeet : ¬s.Timely env e)
    (h : Loads.step env s e = .ok t) : ¬t.Lifecycle := by
  intro ht
  cases e with
  | timer load =>
    unfold Timely at hmeet
    push Not at hmeet
    obtain ⟨hmem, heq, hlate⟩ := hmeet
    simp only [Loads.step, if_pos hmem] at h
    obtain ⟨b, hb, hadvances⟩ := step_timeout_of_eq env (hs.mem_timers hmem) heq
    rw [hb] at h
    obtain rfl := Except.ok.inj h
    unfold Loads.timerFired at ht
    rw [if_pos heq] at ht
    by_cases hnotified : s.browser.notified = false
    · exact hs.not_nodup (not_lt.mpr (hlate hnotified)) ht.reports
    · have htwo := ht.outstanding
      have hone := hs.scheduled.scheduled
      rw [if_pos (by simpa using hnotified)] at hone
      simp only [hadvances.scheduled, hone] at htwo
      omega
  | callback e =>
    unfold Timely at hmeet
    push Not at hmeet
    obtain ⟨hreports, hlength⟩ := hmeet
    have he : ∀ n, e ≠ .timeout n := by
      rintro n rfl
      cases hreports
    rw [step_callback he] at h
    split at h
    · cases h
    · obtain rfl := Except.ok.inj h
      unfold Loads.calledBack at ht
      rw [if_pos hreports] at ht
      exact hs.not_nodup (not_lt.mpr hlength) ht.reports
  | late e => exact absurd honce hmeet

/-- The document is reported again while the notification of its first report is outstanding: the
assertion of `notify` fails. -/
theorem step_late_document (env : Env) {instNum : Nat} {success : Bool} {req : PageRequest}
    (hpast : s.pastRequest (.responseFinished instNum success) = some req)
    (hfirst : s.browser.request instNum = none) (hdoc : some req.instNum = s.browser.docReqInstNum)
    (hnotified : s.browser.notified = true) :
    step env s (.late (.responseFinished instNum success)) = .error .notified := by
  have hnumber : req.instNum = instNum := by
    have := List.find?_some hpast
    simpa [BrowserEvent.instNum] using this
  obtain ⟨u, hu⟩ : ∃ u, u = { s.browser with submitted := s.browser.submitted ++ [req] } := ⟨_, rfl⟩
  have hrequest : u.request instNum = some req := by
    unfold Browser.request at hfirst ⊢
    rw [hu, List.find?_append, hfirst, Option.none_or, List.find?_singleton, hnumber]
    simp
  have hstep : u.step env (.responseFinished instNum success) = .error .notified := by
    simp only [Browser.step, hrequest]
    unfold Browser.responseFinishedCb
    rw [if_pos (by rw [hu]; exact hdoc)]
    unfold Browser.notify
    rw [if_pos (by rw [hu]; exact hnotified)]
  have hlate : s.late env (.responseFinished instNum success) req = .error .notified := by
    unfold late
    rw [← hu, hstep]
  simp only [step, hpast, hlate]

/-- The first load is numbered. -/
theorem numbered_start {page : Nat} (h : start env page = .ok s) : s.Numbered := by
  unfold start at h
  split at h
  · cases h
  · rename_i b hb
    obtain rfl := Except.ok.inj h
    have hconsistent := (start_spec hb).1
    unfold Browser.start at hb
    split at hb
    · cases hb
    · unfold Browser.load at hb
      split at hb
      · cases hb
      · split at hb
        · cases hb
        · obtain rfl := Except.ok.inj hb
          refine ⟨hconsistent, ⟨rfl, fun _ => rfl⟩, rfl, ?_, ?_, rfl, by simp, by simp⟩
          · by_cases htimeout : env.timeout
            · simp [htimeout, submitRequest, new]
            · simp [htimeout, submitRequest, new]
          · by_cases htimeout : env.timeout <;> simp [htimeout]

/-- A timely run of the browser keeps the lifecycle of its loads, and no assertion on `notified_`
fails in it, not even at its end. A run in which no request is reported late keeps the lifecycle
just if it is timely. -/
theorem lifecycle_iff_timely (env : Env) (page : Nat) (es : List LoadEvent) (s₀ : Loads)
    (hstart : start env page = .ok s₀) :
    (StepsMeet (step env) (Timely env) s₀ es →
      (∀ t, Visits (step env) s₀ es t → t.Lifecycle) ∧
      runSteps (step env) s₀ es ≠ .error .notified ∧
      runSteps (step env) s₀ es ≠ .error .notNotified) ∧
    (∀ s, StepsMeet (step env) Once s₀ es → runSteps (step env) s₀ es = .ok s →
      ((∀ t, Visits (step env) s₀ es t → t.Lifecycle) ↔
        StepsMeet (step env) (Timely env) s₀ es)) := by
  have hs := numbered_start hstart
  constructor
  · intro hmeet
    have hother : ∀ f, runSteps (step env) s₀ es = .error f → Other f := by
      intro f hrun
      exact fault_of_stepsMeet Numbered Other (fun _ _ _ hs hmeet h => hs.step hmeet h)
        (fun _ _ _ hs hmeet h => hs.other_of_step hmeet h) hs hmeet hrun
    refine ⟨?_, fun hrun => (hother _ hrun).1 rfl, fun hrun => (hother _ hrun).2 rfl⟩
    rintro t ⟨before, ⟨after, rfl⟩, hrun⟩
    exact (invariant_of_stepsMeet Numbered (fun _ _ _ hs hmeet h => hs.step hmeet h) hs
      hmeet.of_append hrun).lifecycle
  · intro s honce hrun
    exact forall_visits_iff_stepsMeet_within Numbered Lifecycle (fun _ hs => hs.lifecycle)
      (fun _ _ _ hs hmeet h => hs.step hmeet h)
      (fun _ _ _ hs honce hmeet h => hs.not_lifecycle honce hmeet h) hs honce hrun

/-- A page without embedded objects that has to be loaded in time. -/
def plainPage : Env where
  pages := [ascii "http://h/"]
  myhostname := ascii "b"
  timeout := true
  urlGetParts := fun _ => some { hostname := ascii "h", port := none, path := ascii "/" }
  htmlParse := fun _ => ([], [])

/-- The document arrives. -/
def documentArrives : List LoadEvent :=
  [.callback (.responseMeta 0 200 []), .callback (.responseFinished 0 true)]

/-- The load is reported and the next one begun; only then the timer of the first one fires. -/
def timerFiresLate : List LoadEvent :=
  documentArrives ++ [.callback (.notified 0), .callback (.notified 0), .timer 1]

/-- The first load is reported before its timer fires. -/
theorem lifecycle_iff_timely_plainPage :
    ∃ s₀, start plainPage 0 = .ok s₀ ∧
      StepsMeet (step plainPage) (Timely plainPage) s₀ timerFiresLate ∧
      (∀ t, Visits (step plainPage) s₀ timerFiresLate t → t.Lifecycle) ∧
      runSteps (step plainPage) s₀ timerFiresLate ≠ .error .notified ∧
      runSteps (step plainPage) s₀ timerFiresLate ≠ .error .notNotified := by
  have hmeets : (start plainPage 0).toOption.any (fun s₀ =>
      decide (StepsMeet (step plainPage) (Timely plainPage) s₀ timerFiresLate)) = true := by
    decide +kernel
  cases hstart : start plainPage 0 with
  | error f => simp [hstart, Except.toOption] at hmeets
  | ok s₀ =>
    have hmeet : StepsMeet (step plainPage) (Timely plainPage) s₀ timerFiresLate := by
      simpa [hstart, Except.toOption] using hmeets
    exact ⟨s₀, rfl, hmeet, (lifecycle_iff_timely plainPage 0 timerFiresLate s₀ hstart).1 hmeet⟩

/-- Does a run of the page load end in a state with `scheduled` notifications? -/
def endsWith (scheduled : Nat) (events : List LoadEvent) : Bool :=
  match start plainPage 0 with
  | .error _ => false
  | .ok s₀ => match runSteps (step plainPage) s₀ events with
    | .error _ => false
    | .ok s => s.browser.scheduled = scheduled

/-- The timer fires while the notification that the document arrived is outstanding: a second one is
scheduled, the first one begins the next load, and the second one fails the assertion of
`on_notified`. -/
theorem not_lifecycle_timer :
    ∃ s₀ s, start plainPage 0 = .ok s₀ ∧
      runSteps (step plainPage) s₀ (documentArrives ++ [.timer 1]) = .ok s ∧ ¬s.Lifecycle ∧
      runSteps (step plainPage) s₀ (documentArrives ++ [.timer 1] ++
        [.callback (.notified 0), .callback (.notified 0)]) = .error .notNotified := by
  have htwo : endsWith 2 (documentArrives ++ [.timer 1]) = true := by decide +kernel
  have hfails : (start plainPage 0).toOption.all (fun s₀ =>
      match runSteps (step plainPage) s₀ (documentArrives ++ [.timer 1] ++
        [.callback (.notified 0), .callback (.notified 0)]) with
      | .error .notNotified => true
      | _ => false) = true := by
    decide +kernel
  unfold endsWith at htwo
  split at htwo
  · cases htwo
  · rename_i s₀ hstart
    split at htwo
    · cases htwo
    · rename_i s hrun
      rw [hstart] at hfails
      refine ⟨s₀, s, hstart, hrun, ?_, ?_⟩
      · intro h
        have hone := h.outstanding
        rw [of_decide_eq_true htwo] at hone
        omega
      · simp only [Except.toOption, Option.all_some] at hfails
        split at hfails
        · assumption
        · cases hfails

end Loads

end ShadowExtras.Web
