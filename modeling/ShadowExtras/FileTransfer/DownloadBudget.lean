import ShadowExtras.FileTransfer.ServiceFilegetterRuns

/-!
# The download budget of the file getter service

A service can be asked for a number of downloads. A download is complete where `filegetter_activate`
returns `FG_OK_200` (`returnsOk`). The service counts these passes, and expires in the same
activation in which the last one is made. From then on it is done: sockets that become ready,
callbacks that were requested before and `service_filegetter_stop` find a service that neither
starts a download nor completes or reports one (`keepsBudget_of_launched`).
-/

namespace ShadowExtras.FileTransfer

open Foundation

/-! ## Runs with stops -/

/-- What happens to a service that may be stopped. -/
inductive ServiceCall
  | event (e : ServiceEvent)
  /-- `service_filegetter_stop`, between two activations. -/
  | stop
  deriving DecidableEq, Repr

namespace ServiceFilegetter

/-- One step of a service that may be stopped. -/
def proceed (s : ServiceFilegetter) : ServiceCall → Except Fault ServiceFilegetter
  | .event e => s.step e
  | .stop =>
    match s.control with
    | .returned _ => .ok s.stop
    | _ => .ok s

/-- Is the step a pass in which `filegetter_activate` returns `FG_OK_200`? -/
def returnsOk (s : ServiceFilegetter) : ServiceCall → Bool
  | .event (.pass p) =>
    match s.control with
    | .reactivate _ =>
      match s.fg.activate p.getter with
      | .ok (_, code) => code = .ok200
      | .error _ => false
    | _ => false
  | _ => false

/-- The passes of a run in which `filegetter_activate` returns `FG_OK_200`. -/
def okPasses (s : ServiceFilegetter) : List ServiceCall → Nat
  | [] => 0
  | call :: calls =>
    (if s.returnsOk call then 1 else 0) +
      match s.proceed call with
      | .ok t => t.okPasses calls
      | .error _ => 0

/-- A service that is done and in which no getter is about to be activated. -/
structure Resting (s : ServiceFilegetter) : Prop where
  state : s.state = .done
  control : ∀ sockd, s.control ≠ .reactivate sockd

/-- No download was started, and nothing was counted or reported. -/
structure Unmoved (s t : ServiceFilegetter) : Prop where
  state : t.state = s.state
  fg : t.fg = s.fg
  openSocket : t.openSocket = s.openSocket
  currentDownload : t.currentDownload = s.currentDownload
  downloadsRequested : t.downloadsRequested = s.downloadsRequested
  downloadsCompleted : t.downloadsCompleted = s.downloadsCompleted
  completed : t.completed = s.completed
  reports : t.reports = s.reports

/-- The service has expired, and its activation has returned. -/
structure Expires (s t : ServiceFilegetter) : Prop where
  state : t.state = .done
  control : t.control = .returned .ok200
  reports : ∃ report, t.reports = s.reports ++ [report]

/-- The budget of `n` downloads is not exceeded, and is used up only by a service that is done. -/
structure Budgeted (n : Int) (s : ServiceFilegetter) : Prop where
  requested : s.downloadsRequested = n
  below : s.state ≠ .done → (s.downloadsCompleted : Int) < n
  le : (s.downloadsCompleted : Int) ≤ n
  completed : s.completed.length = s.downloadsCompleted
  rests : s.state = .done → s.Resting

variable {s t : ServiceFilegetter} {n : Int} {sockd : Int} {p : Pass} {call : ServiceCall}

/-- What a call does: the activation waits or begins, or the service is stopped, or one pass is
made; only the pass from `reactivate` asks the getter. -/
theorem proceed_cases (hstep : s.proceed call = .ok t) :
    (s.returnsOk call = false ∧
      ((∃ callbacks delivered control,
          t = { s with callbacks := callbacks, delivered := delivered, control := control }) ∨
        (∃ code, s.control = .returned code ∧ t = s.stop) ∨
        ∃ sockd p, t = s.startOver sockd p)) ∨
      ∃ sockd p fg code, s.returnsOk call = decide (code = .ok200) ∧
        t = (s.handBack fg code).afterGetter sockd p code := by
  have hwaits : ∀ {callbacks delivered control},
      (.ok { s with callbacks := callbacks, delivered := delivered, control := control } :
        Except Fault ServiceFilegetter) = .ok t →
      ∃ callbacks delivered control,
        t = { s with callbacks := callbacks, delivered := delivered, control := control } := by
    intro callbacks delivered control h
    exact ⟨callbacks, delivered, control, (Except.ok.inj h).symm⟩
  cases call with
  | stop =>
    refine .inl ⟨rfl, ?_⟩
    cases hcontrol : s.control with
    | returned code =>
      simp only [ServiceFilegetter.proceed, hcontrol] at hstep
      exact .inr (.inl ⟨code, rfl, (Except.ok.inj hstep).symm⟩)
    | startOver sockd | reactivate sockd =>
      simp only [ServiceFilegetter.proceed, hcontrol] at hstep
      exact .inl (hwaits hstep)
  | event e =>
    cases hcontrol : s.control with
    | returned code =>
      cases e with
      | activate sockd =>
        simp only [ServiceFilegetter.proceed, step, hcontrol] at hstep
        exact .inl ⟨rfl, .inl (hwaits hstep)⟩
      | wakeup due now =>
        simp only [ServiceFilegetter.proceed, step, hcontrol] at hstep
        split_ifs at hstep
        · exact .inl ⟨rfl, .inl (hwaits hstep)⟩
        · exact .inl ⟨rfl, .inl (hwaits hstep)⟩
      | pass p =>
        simp only [ServiceFilegetter.proceed, step, hcontrol] at hstep
        exact .inl ⟨by simp [returnsOk, hcontrol], .inl (hwaits hstep)⟩
    | startOver sockd =>
      cases e with
      | pass p =>
        simp only [ServiceFilegetter.proceed, step, hcontrol] at hstep
        exact .inl ⟨by simp [returnsOk, hcontrol],
          .inr (.inr ⟨sockd, p, (Except.ok.inj hstep).symm⟩)⟩
      | activate | wakeup =>
        simp only [ServiceFilegetter.proceed, step, hcontrol] at hstep
        exact .inl ⟨rfl, .inl (hwaits hstep)⟩
    | reactivate sockd =>
      cases e with
      | pass p =>
        have hreactivate : s.reactivate sockd p = .ok t := by
          simpa [ServiceFilegetter.proceed, step, hcontrol] using hstep
        unfold reactivate at hreactivate
        split at hreactivate
        · cases hreactivate
        · rename_i fg code hgetter
          refine .inr ⟨sockd, p, fg, code, ?_, (Except.ok.inj hreactivate).symm⟩
          simp [returnsOk, hcontrol, hgetter]
      | activate | wakeup =>
        simp only [ServiceFilegetter.proceed, step, hcontrol] at hstep
        exact .inl ⟨rfl, .inl (hwaits hstep)⟩

/-- A step that ends in a fault completes no download. -/
theorem returnsOk_of_error {fault : Fault} (h : s.proceed call = .error fault) :
    s.returnsOk call = false := by
  cases call with
  | stop => rfl
  | event e =>
    cases e with
    | activate | wakeup => rfl
    | pass p =>
      cases hcontrol : s.control with
      | returned code => simp [returnsOk, hcontrol]
      | startOver sockd => simp [returnsOk, hcontrol]
      | reactivate sockd =>
        simp only [ServiceFilegetter.proceed, step, hcontrol, reactivate] at h
        split at h
        · rename_i hgetter
          simp [returnsOk, hcontrol, hgetter]
        · cases h

/-! ## A service that is done -/

theorem Unmoved.refl (s : ServiceFilegetter) : Unmoved s s :=
  ⟨rfl, rfl, rfl, rfl, rfl, rfl, rfl, rfl⟩

/-- Nothing moves, one step after the other. -/
theorem Unmoved.trans {r : ServiceFilegetter} (h : Unmoved r s) (h' : Unmoved s t) :
    Unmoved r t where
  state := h'.state.trans h.state
  fg := h'.fg.trans h.fg
  openSocket := h'.openSocket.trans h.openSocket
  currentDownload := h'.currentDownload.trans h.currentDownload
  downloadsRequested := h'.downloadsRequested.trans h.downloadsRequested
  downloadsCompleted := h'.downloadsCompleted.trans h.downloadsCompleted
  completed := h'.completed.trans h.completed
  reports := h'.reports.trans h.reports

/-- The pass from `start_over` of a service that is done returns. -/
theorem startOver_of_done (hdone : s.state = .done) (sockd : Int) (p : Pass) :
    s.startOver sockd p = s.leave .errInvalid := by
  rcases startOver_cases s sockd p with ⟨hexpired, -⟩ | ⟨hthinking, -, -⟩ | ⟨t, ⟨-, hnext⟩, hends⟩
  · rcases hexpired.1 with hstate | hstate <;> simp [hdone] at hstate
  · simp [hdone] at hthinking
  · rcases hnext with ⟨hthinking, -, -⟩ | ⟨-, rfl⟩
    · simp [hdone] at hthinking
    · rcases hends with hleaves | ⟨hdownloading, -, -⟩
      · exact hleaves
      · simp [hdone] at hdownloading

/-- Nothing moves a service that is done. -/
theorem Resting.proceed (h : s.Resting) (call : ServiceCall) :
    ∃ t, s.proceed call = .ok t ∧ t.Resting ∧ Unmoved s t := by
  cases call with
  | stop =>
    cases hcontrol : s.control with
    | returned code =>
      refine ⟨s.stop, by simp [ServiceFilegetter.proceed, hcontrol], ?_, ?_⟩
      · constructor
        · simp [stop, h.state]
        · simpa [stop, h.state] using h.control
      · unfold stop
        rw [if_neg (by simp [h.state])]
        exact ⟨rfl, rfl, rfl, rfl, rfl, rfl, rfl, rfl⟩
    | startOver sockd =>
      exact ⟨s, by simp [ServiceFilegetter.proceed, hcontrol], h, .refl s⟩
    | reactivate sockd => exact absurd hcontrol (h.control sockd)
  | event e =>
    cases hcontrol : s.control with
    | reactivate sockd => exact absurd hcontrol (h.control sockd)
    | returned code =>
      cases e with
      | activate sockd =>
        refine ⟨{ s with control := .startOver sockd }, ?_, ⟨h.state, by simp⟩, ?_⟩
        · simp [ServiceFilegetter.proceed, step, hcontrol]
        · exact ⟨rfl, rfl, rfl, rfl, rfl, rfl, rfl, rfl⟩
      | wakeup due now =>
        by_cases hdue : due ∈ s.callbacks ∧ due ≤ now
        · refine ⟨{ s with
            callbacks := s.callbacks.erase due, delivered := now, control := .startOver 0 }, ?_,
            ⟨h.state, by simp⟩, ?_⟩
          · simp [ServiceFilegetter.proceed, step, hcontrol, hdue]
          · exact ⟨rfl, rfl, rfl, rfl, rfl, rfl, rfl, rfl⟩
        · refine ⟨s, ?_, h, .refl s⟩
          simp only [ServiceFilegetter.proceed, step, hcontrol]
          rw [if_neg hdue]
      | pass p => exact ⟨s, by simp [ServiceFilegetter.proceed, step, hcontrol], h, .refl s⟩
    | startOver sockd =>
      cases e with
      | activate other => exact ⟨s, by simp [ServiceFilegetter.proceed, step, hcontrol], h, .refl s⟩
      | wakeup due now => exact ⟨s, by simp [ServiceFilegetter.proceed, step, hcontrol], h, .refl s⟩
      | pass p =>
        refine ⟨s.leave .errInvalid, ?_, ⟨h.state, by simp [leave]⟩,
          ⟨rfl, rfl, rfl, rfl, rfl, rfl, rfl, rfl⟩⟩
        simp [ServiceFilegetter.proceed, step, hcontrol, startOver_of_done h.state]

/-- The getter of a service that is done is not asked. -/
theorem Resting.returnsOk (h : s.Resting) (call : ServiceCall) : s.returnsOk call = false := by
  cases call with
  | stop => rfl
  | event e =>
    cases e with
    | activate | wakeup => rfl
    | pass p =>
      cases hcontrol : s.control with
      | reactivate sockd => exact absurd hcontrol (h.control sockd)
      | returned | startOver => simp [ServiceFilegetter.returnsOk, hcontrol]

/-- Whatever comes after the end, nothing moves and no download completes. -/
theorem Resting.runSteps (h : s.Resting) (calls : List ServiceCall) :
    (∃ t, Foundation.runSteps ServiceFilegetter.proceed s calls = .ok t ∧ Unmoved s t) ∧
      s.okPasses calls = 0 := by
  induction calls generalizing s with
  | nil => exact ⟨⟨s, runSteps_nil, .refl s⟩, rfl⟩
  | cons call calls ih =>
    obtain ⟨u, hu, hrests, hunmoved⟩ := h.proceed call
    obtain ⟨⟨t, ht, hrest⟩, hnone⟩ := ih hrests
    refine ⟨⟨t, by rw [runSteps_cons_of_ok hu, ht], hunmoved.trans hrest⟩, ?_⟩
    simp [okPasses, h.returnsOk call, hu, hnone]

/-! ## Counting -/

/-- Starting the next download does not count anything. -/
theorem downloadNext_counts (s : ServiceFilegetter) (next : NextDownload) :
    (s.downloadNext next).1.downloadsRequested = s.downloadsRequested ∧
      (s.downloadNext next).1.downloadsCompleted = s.downloadsCompleted ∧
      (s.downloadNext next).1.completed = s.completed ∧
      ((s.downloadNext next).1.state = s.state ∨ (s.downloadNext next).1.state = .downloading) := by
  unfold downloadNext
  split
  · exact ⟨rfl, rfl, rfl, .inl rfl⟩
  · dsimp only
    split
    · exact ⟨rfl, rfl, rfl, .inr rfl⟩
    · exact ⟨rfl, rfl, rfl, .inl rfl⟩

/-- A service that expires keeps what it has counted. -/
theorem expired_counts (s : ServiceFilegetter) :
    s.expired.downloadsRequested = s.downloadsRequested ∧
      s.expired.downloadsCompleted = s.downloadsCompleted ∧ s.expired.completed = s.completed := by
  unfold expired stop
  dsimp only
  split_ifs <;> exact ⟨rfl, rfl, rfl⟩

/-- A service that is done has expired. -/
theorem expires_expired (s : ServiceFilegetter) : Expires s s.expired where
  state := state_expired s
  control := rfl
  reports := ⟨_, reports_expired s⟩

/-- Another service with the same counters that is not done. -/
theorem Budgeted.congr (h : Budgeted n s) (hstate : s.state ≠ .done)
    (hrequested : t.downloadsRequested = s.downloadsRequested)
    (hcounted : t.downloadsCompleted = s.downloadsCompleted)
    (hcompleted : t.completed = s.completed)
    (hrests : t.state = .done → t.Resting) : Budgeted n t where
  requested := hrequested.trans h.requested
  below _ := by rw [hcounted]; exact h.below hstate
  le := by rw [hcounted]; exact h.le
  completed := by rw [hcompleted, hcounted]; exact h.completed
  rests := hrests

theorem resting_expired (s : ServiceFilegetter) : s.expired.Resting where
  state := state_expired s
  control := by simp [expired, leave]

theorem Budgeted.expired (h : Budgeted n s) (hstate : s.state ≠ .done) : Budgeted n s.expired := by
  obtain ⟨hrequested, hcounted, hcompleted⟩ := expired_counts s
  exact h.congr hstate hrequested hcounted hcompleted fun _ => resting_expired s

/-- A download that is started over keeps the budget. -/
theorem Budgeted.startOver (h : Budgeted n s) (hstate : s.state ≠ .done) (sockd : Int) (p : Pass) :
    Budgeted n (s.startOver sockd p) ∧ (s.startOver sockd p).downloadsCompleted =
      s.downloadsCompleted := by
  rcases startOver_cases s sockd p with ⟨-, hends⟩ | ⟨-, -, hends⟩ | ⟨t, ⟨-, hnext⟩, hends⟩
  · rw [hends]
    exact ⟨h.expired hstate, (expired_counts s).2.1⟩
  · rw [hends]
    exact ⟨h.congr hstate rfl rfl rfl fun hdone => absurd hdone hstate, rfl⟩
  · have hcounts : t.downloadsRequested = s.downloadsRequested ∧
        t.downloadsCompleted = s.downloadsCompleted ∧ t.completed = s.completed ∧
          t.state ≠ .done := by
      rcases hnext with ⟨hthinking, -, rfl⟩ | ⟨-, rfl⟩
      · obtain ⟨hrequested, hcounted, hcompleted, hgoes⟩ := downloadNext_counts s p.next
        refine ⟨hrequested, hcounted, hcompleted, ?_⟩
        rcases hgoes with hgoes | hgoes
        · rw [hgoes]
          exact hstate
        · simp [hgoes]
      · exact ⟨rfl, rfl, rfl, hstate⟩
    obtain ⟨hrequested, hcounted, hcompleted, ht⟩ := hcounts
    rcases hends with hleaves | ⟨-, -, hgoes⟩
    · rw [hleaves]
      exact ⟨h.congr hstate hrequested hcounted hcompleted fun hdone => absurd hdone ht, hcounted⟩
    · rw [hgoes]
      exact ⟨h.congr hstate hrequested hcounted hcompleted fun hdone => absurd hdone ht, hcounted⟩

/-- The service with one more download counted. -/
theorem Budgeted.of_counted (h : Budgeted n s) (hstate : s.state ≠ .done)
    (hrequested : t.downloadsRequested = s.counted.downloadsRequested)
    (hcounted : t.downloadsCompleted = s.counted.downloadsCompleted)
    (hcompleted : t.completed = s.counted.completed) (hrests : t.state = .done → t.Resting)
    (hmore : t.state ≠ .done → ((s.downloadsCompleted + 1 : ℕ) : Int) < n) : Budgeted n t where
  requested := hrequested.trans h.requested
  below hgoes := by
    rw [hcounted]
    exact hmore hgoes
  le := by
    have hbelow := h.below hstate
    rw [hcounted, counted]
    push_cast
    omega
  completed := by
    rw [hcompleted, hcounted, counted, List.length_append, h.completed, List.length_singleton]
  rests := hrests

/-- Completing a download: the service goes on below its budget, or expires with the last one. -/
theorem Budgeted.complete (h : Budgeted n s) (hn : 0 < n) (hstate : s.state ≠ .done) (sockd : Int)
    (p : Pass) :
    Budgeted n (s.complete sockd p) ∧
      (s.complete sockd p).downloadsCompleted = s.downloadsCompleted + 1 ∧
      (((s.complete sockd p).downloadsCompleted : Int) = n → Expires s (s.complete sockd p)) := by
  have hless : ¬(s.downloadsRequested > 0 ∧
      ((s.downloadsCompleted + 1 : ℕ) : Int) ≥ s.downloadsRequested) →
        ((s.downloadsCompleted + 1 : ℕ) : Int) < n := by
    intro hmore
    rw [h.requested] at hmore
    push Not at hmore
    exact hmore hn
  rcases complete_cases s sockd p with ⟨wakeup, hends⟩ | ⟨hmore, hends⟩ | ⟨⟨hmore, -⟩, hends⟩
  · obtain ⟨hrequested, hcounted, hcompleted⟩ := expired_counts { s.counted with wakeup := wakeup }
    obtain ⟨report, hreport⟩ := (expires_expired { s.counted with wakeup := wakeup }).reports
    rw [hends]
    refine ⟨h.of_counted hstate hrequested hcounted hcompleted (fun _ => resting_expired _) ?_,
      hcounted, fun _ => ?_⟩
    · exact fun hgoes => absurd (state_expired _) hgoes
    · exact ⟨state_expired _, rfl, report, hreport⟩
  · have hbudget : Budgeted n (s.complete sockd p) := by
      rw [hends]
      exact h.of_counted hstate rfl rfl rfl (by simp [sleep]) fun _ => hless hmore
    refine ⟨hbudget, by rw [hends]; rfl, fun hall => ?_⟩
    have hrest := hbudget.below (by rw [hends]; simp [sleep])
    omega
  · obtain ⟨hrequested, hcounted, hcompleted, hgoes⟩ := downloadNext_counts s.counted p.following
    have hgoing : (s.complete sockd p).state ≠ .done := by
      rw [hends]
      dsimp only
      rcases hgoes with hgoes | hgoes
      · rw [hgoes]
        simp [counted]
      · rw [hgoes]
        simp
    have hbudget : Budgeted n (s.complete sockd p) := by
      refine h.of_counted hstate ?_ ?_ ?_ (fun hdone => absurd hdone hgoing) fun _ => hless hmore
      · rw [hends]
        exact hrequested
      · rw [hends]
        exact hcounted
      · rw [hends]
        exact hcompleted
    refine ⟨hbudget, by rw [hends]; exact hcounted, fun hall => ?_⟩
    have hrest := hbudget.below hgoing
    omega

/-- What the service does when its getter has returned. -/
theorem Budgeted.afterGetter (h : Budgeted n s) (hn : 0 < n) (hstate : s.state ≠ .done)
    (sockd : Int) (p : Pass) (code : GetterCode) :
    Budgeted n (s.afterGetter sockd p code) ∧
      (s.afterGetter sockd p code).downloadsCompleted =
        s.downloadsCompleted + (if code = .ok200 then 1 else 0) ∧
      (code = .ok200 → ((s.afterGetter sockd p code).downloadsCompleted : Int) = n →
        Expires s (s.afterGetter sockd p code)) := by
  have hother : ∀ t : ServiceFilegetter, code ≠ .ok200 → Budgeted n t →
      t.downloadsCompleted = s.downloadsCompleted →
      Budgeted n t ∧ t.downloadsCompleted = s.downloadsCompleted +
        (if code = .ok200 then 1 else 0) ∧
        (code = .ok200 → (t.downloadsCompleted : Int) = n → Expires s t) := by
    intro t hcode hbudget hcounted
    refine ⟨hbudget, ?_, fun hok => absurd hok hcode⟩
    rw [if_neg hcode, hcounted]
    rfl
  rcases afterGetter_cases s sockd p code with ⟨hcode, hends⟩ | ⟨hcode, -, hends⟩ | ⟨hcode, hends⟩ |
    ⟨hcode, hends⟩
  · rw [hends]
    refine hother _ ?_ (h.congr hstate rfl rfl rfl (by simp [retry, sleep, leave])) rfl
    rcases hcode with rfl | rfl <;> simp
  · rw [hends]
    exact hother _ hcode (h.congr hstate rfl rfl rfl fun hdone => absurd hdone hstate) rfl
  · obtain ⟨hbudget, hcounted, hlast⟩ := h.complete hn hstate sockd p
    rw [hends, if_pos hcode]
    exact ⟨hbudget, hcounted, fun _ => hlast⟩
  · rw [hends]
    refine hother _ ?_ (h.congr hstate rfl rfl rfl fun hdone => absurd hdone hstate) rfl
    simp [hcode]

/-- A service that is stopped keeps what it has counted. -/
theorem stop_counts (s : ServiceFilegetter) :
    s.stop.downloadsRequested = s.downloadsRequested ∧
      s.stop.downloadsCompleted = s.downloadsCompleted ∧ s.stop.completed = s.completed := by
  unfold stop
  dsimp only
  split_ifs <;> exact ⟨rfl, rfl, rfl⟩

/-- A service that is stopped rests. -/
theorem resting_stop (s : ServiceFilegetter) {code : GetterCode}
    (hcontrol : s.control = .returned code) :
    s.stop.Resting where
  state := by
    unfold stop
    dsimp only
    split_ifs with hdone
    · simp
    · simpa using hdone
  control := by
    unfold stop
    dsimp only
    split_ifs <;> simp [shutdown, hcontrol]

/-- One step keeps the budget, counts the pass in which the getter returned `FG_OK_200`, and expires
the service if it uses the budget up. -/
theorem Budgeted.proceed (h : Budgeted n s) (hn : 0 < n) (hstep : s.proceed call = .ok t) :
    Budgeted n t ∧
      t.downloadsCompleted = s.downloadsCompleted + (if s.returnsOk call then 1 else 0) ∧
      (s.returnsOk call = true → (t.downloadsCompleted : Int) = n → Expires s t) := by
  have hother : ∀ v : ServiceFilegetter, s.returnsOk call = false → Budgeted n v →
      v.downloadsCompleted = s.downloadsCompleted →
      Budgeted n v ∧ v.downloadsCompleted = s.downloadsCompleted +
        (if s.returnsOk call then 1 else 0) ∧
        (s.returnsOk call = true → (v.downloadsCompleted : Int) = n → Expires s v) := by
    intro v hnone hbudget hcounted
    simp [hnone, hbudget, hcounted]
  by_cases hdone : s.state = .done
  · have hresting := h.rests hdone
    obtain ⟨u, hu, hrests, hunmoved⟩ := hresting.proceed call
    obtain rfl : u = t := Except.ok.inj (hu.symm.trans hstep)
    refine hother _ (hresting.returnsOk call) ⟨?_, ?_, ?_, ?_, fun _ => hrests⟩
      hunmoved.downloadsCompleted
    · exact hunmoved.downloadsRequested.trans h.requested
    · exact fun hgoes => absurd (hunmoved.state.trans hdone) hgoes
    · rw [hunmoved.downloadsCompleted]
      exact h.le
    · rw [hunmoved.downloadsCompleted, hunmoved.completed]
      exact h.completed
  · rcases proceed_cases hstep with
      ⟨hnone, ⟨callbacks, delivered, control, rfl⟩ | ⟨code, hcontrol, rfl⟩ | ⟨sockd, p, rfl⟩⟩ |
      ⟨sockd, p, fg, code, hok, rfl⟩
    · exact hother _ hnone (h.congr hdone rfl rfl rfl fun hdone' => absurd hdone' hdone) rfl
    · obtain ⟨hrequested, hcounted, hcompleted⟩ := stop_counts s
      exact hother _ hnone
        (h.congr hdone hrequested hcounted hcompleted fun _ => resting_stop s hcontrol) hcounted
    · obtain ⟨hbudget, hcounted⟩ := h.startOver hdone sockd p
      exact hother _ hnone hbudget hcounted
    · have hreturned : Budgeted n (s.handBack fg code) :=
        h.congr hdone rfl rfl rfl fun hdone' => absurd hdone' hdone
      obtain ⟨hbudget, hcounted, hlast⟩ := hreturned.afterGetter hn hdone sockd p code
      refine ⟨hbudget, ?_, fun hreturns hall => ?_⟩
      · rw [hcounted, hok]
        simp only [decide_eq_true_eq]
        rfl
      · obtain ⟨hstate, hcontrol, hreports⟩ := hlast (of_decide_eq_true (hok ▸ hreturns)) hall
        exact ⟨hstate, hcontrol, hreports⟩

/-! ## Runs -/

/-- A run of a service within a budget of `n` downloads. -/
structure KeepsBudget (n : Int) (s : ServiceFilegetter) (calls : List ServiceCall) : Prop where
  /-- At most `n` downloads complete, even if the run ends in a fault. -/
  atMost : (s.okPasses calls : Int) ≤ n
  /-- In every state the downloads that completed so far are counted, and each was reported once. -/
  counts : ∀ before after u, calls = before ++ after →
    Foundation.runSteps ServiceFilegetter.proceed s before = .ok u →
    u.downloadsCompleted = s.okPasses before ∧ u.completed.length = s.okPasses before
  /-- The step in which the last one completes expires the service. -/
  last : ∀ before call after u t, calls = before ++ call :: after →
    Foundation.runSteps ServiceFilegetter.proceed s before = .ok u → u.proceed call = .ok t →
    u.returnsOk call = true → (s.okPasses before : Int) + 1 = n → Expires u t
  /-- Whatever comes after the end, nothing moves and no download completes. -/
  ended : ∀ u, Visits ServiceFilegetter.proceed s calls u → u.state = .done →
    ∀ later, (∃ t, Foundation.runSteps ServiceFilegetter.proceed u later = .ok t ∧ Unmoved u t) ∧
      u.okPasses later = 0

/-- A run counts the passes in which the getter returned `FG_OK_200`. -/
theorem budgeted_of_runSteps (hbudget : Budgeted n s) (hn : 0 < n) {calls : List ServiceCall}
    (hrun : Foundation.runSteps ServiceFilegetter.proceed s calls = .ok t) :
    Budgeted n t ∧ t.downloadsCompleted = s.downloadsCompleted + s.okPasses calls := by
  induction calls generalizing s with
  | nil =>
    obtain rfl : s = t := by simpa using hrun
    exact ⟨hbudget, rfl⟩
  | cons call calls ih =>
    obtain ⟨u, hu, hrest⟩ := runSteps_cons_eq_ok.mp hrun
    obtain ⟨hbudgetu, hcounted, -⟩ := hbudget.proceed hn hu
    obtain ⟨hbudgett, hall⟩ := ih hbudgetu hrest
    refine ⟨hbudgett, ?_⟩
    simp only [okPasses, hu]
    omega

/-- No more downloads complete than the budget leaves. -/
theorem okPasses_le (hbudget : Budgeted n s) (hn : 0 < n) (calls : List ServiceCall) :
    (s.downloadsCompleted : Int) + s.okPasses calls ≤ n := by
  induction calls generalizing s with
  | nil => simpa [okPasses] using hbudget.le
  | cons call calls ih =>
    cases hu : s.proceed call with
    | error fault =>
      simpa [okPasses, hu, returnsOk_of_error hu] using hbudget.le
    | ok u =>
      obtain ⟨hbudgetu, hcounted, -⟩ := hbudget.proceed hn hu
      have hrest := ih hbudgetu
      simp only [okPasses, hu]
      omega

/-- The service that a successful start leaves has not completed a download. -/
theorem budgeted_of_launched (hs : Launched s) (hn : 0 < s.downloadsRequested) :
    Budgeted s.downloadsRequested s := by
  have hstarted := hs.started
  have hzero := hstarted.downloadsCompleted
  refine ⟨rfl, fun _ => ?_, ?_, ?_, fun hdone => ?_⟩
  · rw [hzero]
    exact hn
  · rw [hzero]
    exact hn.le
  · rw [hstarted.completed, hzero]
    exact List.length_nil
  · rw [hstarted.state] at hdone
    cases hdone

/-- Every run of a service that was asked for some downloads keeps its budget. -/
theorem keepsBudget_of_launched (hs : Launched s) (hn : 0 < s.downloadsRequested)
    (calls : List ServiceCall) : KeepsBudget s.downloadsRequested s calls where
  atMost := by
    have hall := okPasses_le (budgeted_of_launched hs hn) hn calls
    rwa [hs.started.downloadsCompleted, Nat.cast_zero, zero_add] at hall
  counts := by
    rintro before after u - hrun
    obtain ⟨hbudget, hcounted⟩ := budgeted_of_runSteps (budgeted_of_launched hs hn) hn hrun
    rw [hs.started.downloadsCompleted, zero_add] at hcounted
    exact ⟨hcounted, hbudget.completed.trans hcounted⟩
  last := by
    rintro before call after u t - hrun hstep hreturns hlast
    obtain ⟨hbudget, hcounted⟩ := budgeted_of_runSteps (budgeted_of_launched hs hn) hn hrun
    obtain ⟨-, hnext, hexpires⟩ := hbudget.proceed hn hstep
    rw [hs.started.downloadsCompleted, zero_add] at hcounted
    rw [hreturns, if_pos rfl, hcounted] at hnext
    refine hexpires hreturns ?_
    rw [hnext]
    exact_mod_cast hlast
  ended := by
    rintro u ⟨before, -, hrun⟩ hdone later
    have hbudget := (budgeted_of_runSteps (budgeted_of_launched hs hn) hn hrun).1
    exact (hbudget.rests hdone).runSteps later

/-- The two downloads of a service, and what comes after them. -/
def twiceAndOn : List ServiceCall :=
  completeTwice.map .event ++ [.event (.activate 4), .event (.pass (passAt 4 [] .failed)), .stop]

/-- A service that was asked for two downloads completes two, and is activated again after them. -/
theorem keepsBudget_of_launched_downloadTwice :
    downloadTwice.downloadsRequested = 2 ∧ downloadTwice.okPasses twiceAndOn = 2 ∧
      KeepsBudget downloadTwice.downloadsRequested downloadTwice twiceAndOn := by
  have hn : 0 < downloadTwice.downloadsRequested := by decide
  have htwo : downloadTwice.okPasses twiceAndOn = 2 := by decide +kernel
  exact ⟨by decide, htwo, keepsBudget_of_launched launched_downloadTwice hn twiceAndOn⟩

end ServiceFilegetter

end ShadowExtras.FileTransfer
