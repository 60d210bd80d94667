import ShadowExtras.FileTransfer.ContentLength
import ShadowExtras.FileTransfer.FilegetterBuffer
import ShadowExtras.Foundation.Fallible

/-!
# The times of the downloads

`filegetter_metrics_first` and `filegetter_metrics_progress` subtract `download_start` from a
reading of the clock, and `filegetter_metrics_complete` adds the two times of a download to those of
all downloads. Seconds and nanoseconds are computed apart from each other, and a loop makes the
nanoseconds normal again: `Timespec.borrow` and `Timespec.carry`. A round of either keeps the time,
and the rounds that `since` and `plus` grant are enough for every time.

A `Stopwatch` runs the getter and notes the readings of the clock, the differences that are measured
and the statistics of the completed downloads. `exact_of_chronological` says that all of them are
exact.
-/

namespace ShadowExtras.FileTransfer

open Foundation

/-! ## Seconds and nanoseconds -/

namespace Timespec

variable {t a b start stop : Timespec} {rounds : ℕ}

/-- The nanoseconds make less than a second. -/
def Normalised (t : Timespec) : Prop := 0 ≤ t.nsec ∧ t.nsec < 1000000000

instance (t : Timespec) : Decidable t.Normalised := inferInstanceAs (Decidable (_ ∧ _))

/-- A borrowed second is the same time. -/
theorem nanoseconds_borrow (rounds : ℕ) (t : Timespec) :
    (t.borrow rounds).nanoseconds = t.nanoseconds := by
  induction rounds generalizing t with
  | zero => rfl
  | succ rounds ih =>
    rw [borrow]
    split
    · rw [ih, nanoseconds, nanoseconds]
      ring
    · rfl

/-- As many rounds as the nanoseconds are below zero are enough: the loop is left. -/
theorem nsec_borrow_nonneg (h : -t.nsec ≤ rounds) : 0 ≤ (t.borrow rounds).nsec := by
  induction rounds generalizing t with
  | zero =>
    rw [borrow]
    omega
  | succ rounds ih =>
    rw [borrow]
    split
    · apply ih
      dsimp only
      omega
    · omega

/-- Borrowing does not make more of the nanoseconds than a second. -/
theorem nsec_borrow_lt (h : t.nsec < 1000000000) : (t.borrow rounds).nsec < 1000000000 := by
  induction rounds generalizing t with
  | zero => exact h
  | succ rounds ih =>
    rw [borrow]
    split
    · apply ih
      dsimp only
      omega
    · exact h

/-- As many rounds as there are nanoseconds are enough: the loop is left. -/
theorem nsec_carry_lt (h : t.nsec ≤ rounds) : (t.carry rounds).nsec < 1000000000 := by
  induction rounds generalizing t with
  | zero =>
    rw [carry]
    omega
  | succ rounds ih =>
    rw [carry]
    split
    · apply ih
      dsimp only
      omega
    · omega

/-- Carrying does not make the nanoseconds negative. -/
theorem nsec_carry_nonneg (h : 0 ≤ t.nsec) : 0 ≤ (t.carry rounds).nsec := by
  induction rounds generalizing t with
  | zero => exact h
  | succ rounds ih =>
    rw [carry]
    split
    · apply ih
      dsimp only
      omega
    · exact h

/-- The loops that make a time normal are left. -/
def LoopsEnd (t : Timespec) : Prop :=
  (∃ rounds, ¬(t.borrow rounds).nsec < 0) ∧ ∃ rounds, ¬(t.carry rounds).nsec ≥ 1000000000

/-- Both loops end for every time. -/
theorem loopsEnd (t : Timespec) : t.LoopsEnd := by
  constructor
  · refine ⟨(-t.nsec).toNat, ?_⟩
    have hleft : 0 ≤ (t.borrow (-t.nsec).toNat).nsec := nsec_borrow_nonneg (Int.self_le_toNat _)
    omega
  · refine ⟨t.nsec.toNat, ?_⟩
    have hleft : (t.carry t.nsec.toNat).nsec < 1000000000 := nsec_carry_lt (Int.self_le_toNat _)
    omega

/-- The difference of two normal times is exact and normal. -/
theorem nanoseconds_since (stop start : Timespec) :
    (stop.since start).nanoseconds = stop.nanoseconds - start.nanoseconds := by
  rw [since, nanoseconds_borrow, nanoseconds, nanoseconds, nanoseconds]
  ring

/-- The difference of two normal times is normal. -/
theorem Normalised.since (hstop : stop.Normalised) (hstart : start.Normalised) :
    (stop.since start).Normalised := by
  obtain ⟨-, hstop⟩ := hstop
  obtain ⟨hstart, -⟩ := hstart
  refine ⟨nsec_borrow_nonneg (Int.self_le_toNat _), nsec_borrow_lt ?_⟩
  dsimp only
  omega

/-- The sum of two normal times is normal. -/
theorem Normalised.plus (ha : a.Normalised) (hb : b.Normalised) : (a.plus b).Normalised := by
  obtain ⟨ha, -⟩ := ha
  obtain ⟨hb, -⟩ := hb
  refine ⟨nsec_carry_nonneg ?_, nsec_carry_lt (Int.self_le_toNat _)⟩
  dsimp only
  omega

/-- The times of the completed downloads, added one after the other; the latest is the first. -/
def total (times : List Timespec) : Timespec := times.foldr (fun t sum => sum.plus t) ⟨0, 0⟩

/-- The sum of normal times is normal. -/
theorem normalised_total {times : List Timespec} (h : ∀ t ∈ times, t.Normalised) :
    (total times).Normalised := by
  induction times with
  | nil => decide
  | cons t times ih =>
    obtain ⟨ht, htimes⟩ := List.forall_mem_cons.mp h
    exact (ih htimes).plus ht

/-- The sum of times is exact. -/
theorem nanoseconds_total (times : List Timespec) :
    (total times).nanoseconds = (times.map nanoseconds).sum := by
  induction times with
  | nil => rfl
  | cons t times ih =>
    show ((total times).plus t).nanoseconds = _
    rw [nanoseconds_plus, ih, List.map_cons, List.sum_cons, add_comm]

end Timespec

/-! ## The times of a getter -/

/-- What a getter measures. -/
structure Gauges where
  downloadStart : Timespec
  curFirst : Timespec
  curTime : Timespec
  allFirst : Timespec
  allTime : Timespec
  curBody : ℕ
  allBody : ℕ

/-- What `FG_CHECK_DOWNLOAD` does to the gauges for some bytes of the body. -/
def Gauges.count (g : Gauges) (around : Surroundings) (bytes : ℕ) : Gauges :=
  { g with
    curFirst := if g.curBody = 0 ∧ bytes > 0 then around.firstByte.since g.downloadStart
      else g.curFirst
    curTime := if bytes > 0 then around.progress.since g.downloadStart else g.curTime
    curBody := g.curBody + bytes
    allBody := g.allBody + bytes }

/-- What `filegetter_metrics_complete` does to the gauges. -/
def Gauges.complete (g : Gauges) : Gauges :=
  { g with
    allFirst := g.allFirst.plus g.curFirst
    allTime := g.allTime.plus g.curTime }

/-- The code that a state returns, if it does. -/
def Next.code : Next → Option GetterCode
  | .call _ => none
  | .return _ code => some code

namespace Filegetter

variable {fg : Filegetter} {around : Surroundings} {next : Next} {call : Call}

/-- The gauges of a getter. -/
def gauges (fg : Filegetter) : Gauges where
  downloadStart := fg.downloadStart
  curFirst := fg.curstats.firstByteTime
  curTime := fg.curstats.downloadTime
  allFirst := fg.allstats.firstByteTime
  allTime := fg.allstats.downloadTime
  curBody := fg.curstats.bodyBytesDownloaded
  allBody := fg.allstats.bodyBytesDownloaded

/-- `filegetter_metrics_first` -/
def metricsFirst (fg : Filegetter) : Filegetter :=
  { fg with curstats := { fg.curstats with
      firstByteTime := fg.downloadFirstByte.since fg.downloadStart } }

/-- `filegetter_metrics_progress`; `now` is the reading of the clock. -/
def metricsProgress (fg : Filegetter) (now : Timespec) : Filegetter :=
  { fg with curstats := { fg.curstats with downloadTime := now.since fg.downloadStart } }

/-- What `FG_CHECK_DOWNLOAD` does for the bytes of the body, in the functions of the source. -/
theorem countBody_eq (fg : Filegetter) (around : Surroundings) {bytes : ℕ} (h : bytes > 0) :
    fg.countBody around bytes =
      let first := if fg.curstats.bodyBytesDownloaded = 0 then
          { fg with downloadFirstByte := around.firstByte }.metricsFirst else fg
      { first with
        curstats := { first.curstats with
          bodyBytesDownloaded := first.curstats.bodyBytesDownloaded + bytes }
        allstats := { first.allstats with
          bodyBytesDownloaded := first.allstats.bodyBytesDownloaded + bytes } }.metricsProgress
            around.progress := by
  unfold countBody metricsProgress
  simp only [h, and_true, if_true]
  rfl

/-- The bytes of a body are counted by the gauges. -/
theorem gauges_countBody (fg : Filegetter) (around : Surroundings) (bytes : ℕ) :
    (fg.countBody around bytes).gauges = fg.gauges.count around bytes := by
  unfold countBody Gauges.count
  by_cases hfirst : fg.curstats.bodyBytesDownloaded = 0 ∧ bytes > 0
  · have hgauge : fg.gauges.curBody = 0 ∧ bytes > 0 := hfirst
    rw [if_pos hfirst, if_pos hgauge]
    rfl
  · have hgauge : ¬(fg.gauges.curBody = 0 ∧ bytes > 0) := hfirst
    rw [if_neg hfirst, if_neg hgauge]
    rfl

/-- The end of a download completes the gauges. -/
theorem gauges_finish (fg : Filegetter) (around : Surroundings) :
    (fg.finish around).gauges = fg.gauges.complete := by
  unfold finish
  dsimp only
  split
  · rfl
  · rfl

/-! ## What a state does to the gauges -/

/-- The body has grown by some bytes, and the download is complete when the state returns
`FG_OK_200`. -/
def Measures (g : Gauges) (around : Surroundings) (next : Next) : Prop :=
  ∃ bytes, (next.getter.gauges = g.count around bytes ∧ next.code ≠ some .ok200) ∨
    (next.getter.gauges = (g.count around bytes).complete ∧ next.code = some .ok200)

/-- A state that leaves the gauges as they are. -/
theorem measures_of_gauges_eq (hgauges : next.getter.gauges = fg.gauges)
    (hcode : next.code ≠ some .ok200) :
    Measures fg.gauges around next := by
  refine ⟨0, .inl ⟨?_, hcode⟩⟩
  rw [hgauges]
  simp [Gauges.count]

/-- A check of the download takes the times that are due. -/
theorem measures_checkDownload (fg : Filegetter) (around : Surroundings) :
    Measures fg.gauges around (fg.checkDownload around) := by
  refine ⟨(fg.buf.drop fg.bufReadOffset).length, ?_⟩
  rw [← gauges_countBody]
  unfold checkDownload
  dsimp only
  split
  · exact .inl ⟨rfl, by simp [die, Next.code]⟩
  · split
    · exact .inr ⟨gauges_finish _ _, rfl⟩
    · exact .inl ⟨rfl, by simp [Next.code]⟩

/-- So does one of a getter with the same gauges. -/
theorem measures_checkDownload_of_eq {fg' : Filegetter} (h : fg'.gauges = fg.gauges) :
    Measures fg.gauges around (fg'.checkDownload around) := by
  rw [← h]
  exact measures_checkDownload fg' around

/-- A request takes no time. -/
theorem measures_requestHttp (h : fg.requestHttp = .ok next) : Measures fg.gauges around next := by
  unfold requestHttp at h
  dsimp only at h
  split at h
  · cases h
  · split at h
    · obtain rfl := Except.ok.inj h
      exact measures_of_gauges_eq rfl (by simp [die, Next.code])
    · split at h
      · cases h
      · obtain rfl := Except.ok.inj h
        exact measures_of_gauges_eq rfl (by simp [Next.code])

/-- The first message to a proxy takes no time. -/
theorem measures_requestSocksInit (h : fg.requestSocksInit = .ok next) :
    Measures fg.gauges around next := by
  unfold requestSocksInit at h
  split at h
  · cases h
  · obtain rfl := Except.ok.inj h
    exact measures_of_gauges_eq rfl (by simp [Next.code])

/-- The request to a proxy takes no time. -/
theorem measures_requestSocksConn (h : fg.requestSocksConn = .ok next) :
    Measures fg.gauges around next := by
  unfold requestSocksConn at h
  extract_lets needed at h
  split at h
  · cases h
  · split at h
    · cases h
    · obtain rfl := Except.ok.inj h
      exact measures_of_gauges_eq rfl (by simp [Next.code])

/-- The first reply of a proxy takes no time. -/
theorem measures_replySocksInit (h : fg.replySocksInit = .ok next) :
    Measures fg.gauges around next := by
  unfold replySocksInit at h
  split at h
  · split at h
    · obtain rfl := Except.ok.inj h
      exact measures_of_gauges_eq rfl (by simp [Next.code])
    · have hmeasures : Measures _ around next := measures_requestSocksConn h
      exact hmeasures
  · obtain rfl := Except.ok.inj h
    exact measures_of_gauges_eq rfl (by simp [Next.code])

/-- The reply of a proxy takes no time. -/
theorem measures_replySocksConn (h : fg.replySocksConn around = .ok next) :
    Measures fg.gauges around next := by
  unfold replySocksConn at h
  split at h
  · split at h
    · obtain rfl := Except.ok.inj h
      exact measures_of_gauges_eq rfl (by simp [Next.code])
    · dsimp only at h
      split at h
      · cases hconnect : around.reconnect with
        | failed =>
          simp only [hconnect, connect] at h
          obtain rfl := Except.ok.inj h
          exact measures_of_gauges_eq rfl (by simp [Next.code])
        | connected sockd incoming =>
          simp only [hconnect, connect] at h
          have hmeasures : Measures _ around next := measures_requestHttp h
          exact hmeasures
      · have hmeasures : Measures _ around next := measures_requestHttp h
        exact hmeasures
  · obtain rfl := Except.ok.inj h
    exact measures_of_gauges_eq rfl (by simp [Next.code])

/-- The header of a reply takes the time of the first byte. -/
theorem measures_replyHttp (h : fg.replyHttp around = .ok next) :
    Measures fg.gauges around next := by
  unfold replyHttp at h
  dsimp only at h
  split at h
  · cases h
  · split at h
    · obtain rfl := Except.ok.inj h
      exact measures_of_gauges_eq rfl (by simp [Next.code])
    · split at h
      · split at h
        · obtain rfl := Except.ok.inj h
          exact measures_of_gauges_eq rfl (by simp [die, Next.code])
        · obtain rfl := Except.ok.inj h
          exact measures_checkDownload_of_eq rfl
      · obtain rfl := Except.ok.inj h
        exact measures_of_gauges_eq rfl (by simp [Next.code])

/-- Every state either leaves the gauges as they are or counts bytes of the body. -/
theorem measures_proceed (h : fg.proceed around = .ok next) : Measures fg.gauges around next := by
  unfold proceed at h
  split at h
  · obtain rfl := Except.ok.inj h
    exact measures_of_gauges_eq rfl (by simp [Next.code])
  · obtain rfl := Except.ok.inj h
    exact measures_of_gauges_eq rfl (by simp [Next.code])
  · obtain rfl := Except.ok.inj h
    exact measures_of_gauges_eq rfl (by simp [Next.code])
  · obtain rfl := Except.ok.inj h
    exact measures_of_gauges_eq rfl (by simp [Next.code])
  · obtain rfl := Except.ok.inj h
    exact measures_checkDownload fg around
  · exact measures_requestSocksInit h
  · obtain rfl := Except.ok.inj h
    exact measures_of_gauges_eq rfl (by simp [Next.code])
  · exact measures_replySocksInit h
  · exact measures_requestSocksConn h
  · obtain rfl := Except.ok.inj h
    exact measures_of_gauges_eq rfl (by simp [Next.code])
  · exact measures_replySocksConn h
  · exact measures_requestHttp h
  · obtain rfl := Except.ok.inj h
    exact measures_of_gauges_eq rfl (by simp [Next.code])
  · exact measures_replyHttp h

/-- A call that fails takes no time. -/
theorem measures_ioError (fg : Filegetter) (around : Surroundings) (excused : Bool)
    (errcode : GetterCode) :
    Measures fg.gauges around (fg.ioError excused errcode) := by
  unfold ioError
  split
  · exact measures_of_gauges_eq rfl (by simp [Next.code])
  · exact measures_of_gauges_eq rfl (by simp [die, Next.code])

/-- Sending takes no time. -/
theorem measures_send (h : fg.send call = .ok next) : Measures fg.gauges call.around next := by
  unfold send at h
  split at h
  · cases h
  · split at h
    · obtain rfl := Except.ok.inj h
      exact measures_ioError fg _ _ _
    · obtain rfl := Except.ok.inj h
      exact measures_of_gauges_eq rfl (by simp [die, Next.code])
    · dsimp only at h
      split at h
      · have hmeasures : Measures _ call.around next := measures_proceed h
        exact hmeasures
      · obtain rfl := Except.ok.inj h
        exact measures_of_gauges_eq rfl (by simp [Next.code])

/-- What is received takes the times that are due. -/
theorem measures_receive (h : fg.receive call = .ok next) :
    Measures fg.gauges call.around next := by
  unfold receive at h
  split at h
  · obtain rfl := Except.ok.inj h
    exact measures_ioError fg _ _ _
  · obtain rfl := Except.ok.inj h
    exact measures_of_gauges_eq rfl (by simp [die, Next.code])
  · have hmeasures : Measures _ call.around next := measures_proceed h
    exact hmeasures

end Filegetter

/-! ## Runs -/

/-- A difference that the getter has computed. -/
structure Measurement where
  start : Timespec
  stop : Timespec
  result : Timespec

/-- The result is the time from `start` to `stop`, not negative and normal. -/
structure Measurement.Exact (m : Measurement) : Prop where
  normalised : m.result.Normalised
  nonneg : 0 ≤ m.result.sec
  difference : m.result.nanoseconds = m.stop.nanoseconds - m.start.nanoseconds

namespace Occurrence

/-- What happens around a step of the getter. -/
def around : Occurrence → Option Surroundings
  | .event (.activate around) => some around
  | .event (.call call) => some call.around
  | _ => none

/-- The readings of the clock, in order. Which of those around a step of the getter are taken is up
to the step; the others may be any between. -/
def readings : Occurrence → List Timespec
  | .download _ _ _ _ now => [now]
  | .event (.activate around) => [around.firstByte, around.progress, around.complete]
  | .event (.call call) => [call.around.firstByte, call.around.progress, call.around.complete]
  | _ => []

end Occurrence

/-- The readings of a clock that does not go back, all of them normal. -/
structure Chronological (readings : List Timespec) : Prop where
  normalised : ∀ t ∈ readings, t.Normalised
  ordered : readings.Pairwise fun a b => a.nanoseconds ≤ b.nanoseconds

instance (readings : List Timespec) : Decidable (Chronological readings) :=
  decidable_of_iff ((∀ t ∈ readings, t.Normalised) ∧
      readings.Pairwise fun a b => a.nanoseconds ≤ b.nanoseconds)
    ⟨fun h => ⟨h.1, h.2⟩, fun h => ⟨h.1, h.2⟩⟩

/-- A getter, with what was measured. -/
structure Stopwatch where
  w : Handshake
  /-- History: the readings of the clock. -/
  readings : List Timespec
  /-- History: the differences that were computed. -/
  measurements : List Measurement
  /-- History: the statistics of each download that was completed, the latest first. -/
  completed : List FileStats

namespace Stopwatch

/-- A getter that was started. -/
def start : Stopwatch where
  w := .begin Filegetter.start
  readings := []
  measurements := []
  completed := []

/-- What was measured in a step. When bytes of a body were counted, the getter has called
`filegetter_metrics_progress`, and before it `filegetter_metrics_first` if they are the first of the
body. -/
def measured (before after : Gauges) : Option Surroundings → List Measurement
  | none => []
  | some around =>
    if before.allBody < after.allBody then
      (if before.curBody = 0 then [⟨after.downloadStart, around.firstByte, after.curFirst⟩]
        else []) ++
        [⟨after.downloadStart, around.progress, after.curTime⟩]
    else []

/-- The state after a step of the getter. The code that the step returns is noted and forgotten. -/
def after (s : Stopwatch) (o : Occurrence) (w : Handshake) : Stopwatch where
  w := { w with code := none }
  readings := s.readings ++ o.readings
  measurements := s.measurements ++ measured s.w.fg.gauges w.fg.gauges o.around
  completed := if w.code = some .ok200 then w.fg.curstats :: s.completed else s.completed

/-- One step. -/
def step (s : Stopwatch) (o : Occurrence) : Except Fault Stopwatch := (s.w.occur o).map (s.after o)

/-- Everything that was measured is exact, and the times of all downloads are normal and the exact
sums of those of the completed downloads. -/
structure Exact (s : Stopwatch) : Prop where
  measurements : ∀ m ∈ s.measurements, m.Exact
  firstByteTime : s.w.fg.allstats.firstByteTime.Normalised ∧
    s.w.fg.allstats.firstByteTime.nanoseconds =
      (s.completed.map fun stats => stats.firstByteTime.nanoseconds).sum
  downloadTime : s.w.fg.allstats.downloadTime.Normalised ∧
    s.w.fg.allstats.downloadTime.nanoseconds =
      (s.completed.map fun stats => stats.downloadTime.nanoseconds).sum

/-! ## What holds in every run -/

variable {s s' : Stopwatch} {o : Occurrence} {around : Surroundings} {next : Next}
  {ms ms' : List Measurement} {t : Timespec}

/-- The time is that of a measurement, or zero. -/
def Taken (ms : List Measurement) (t : Timespec) : Prop := t = ⟨0, 0⟩ ∨ ∃ m ∈ ms, m.result = t

/-- A time that was taken stays taken. -/
theorem Taken.append (h : Taken ms t) (ms' : List Measurement) : Taken (ms ++ ms') t := by
  rcases h with hzero | ⟨m, hm, hresult⟩
  · exact .inl hzero
  · exact .inr ⟨m, List.mem_append_left _ hm, hresult⟩

/-- What was measured goes back to readings of the clock in their order, and the statistics to what
was measured. -/
structure Sound (s : Stopwatch) : Prop where
  begun : s.w.fg.downloadStart ∈ s.readings ∨ s.w.running = false ∧ s.w.fg.sockd = 0
  measurements : ∀ m ∈ s.measurements, m.result = m.stop.since m.start ∧
    [m.start, m.stop].Sublist s.readings
  curFirst : Taken s.measurements s.w.fg.curstats.firstByteTime
  curTime : Taken s.measurements s.w.fg.curstats.downloadTime
  completed : ∀ stats ∈ s.completed, Taken s.measurements stats.firstByteTime ∧
    Taken s.measurements stats.downloadTime
  allFirst : s.w.fg.allstats.firstByteTime =
    Timespec.total (s.completed.map FileStats.firstByteTime)
  allTime : s.w.fg.allstats.downloadTime = Timespec.total (s.completed.map FileStats.downloadTime)
  code : s.w.code = none

/-- A new getter is sound. -/
theorem sound_start : start.Sound where
  begun := .inr ⟨rfl, rfl⟩
  measurements := by simp [start]
  curFirst := .inl rfl
  curTime := .inl rfl
  completed := by simp [start]
  allFirst := rfl
  allTime := rfl
  code := rfl

/-- The measurements of a step that counts bytes. -/
theorem mem_measured_count {g : Gauges} {bytes : ℕ} {m : Measurement} {after : Gauges}
    (hstart : after.downloadStart = g.downloadStart)
    (hfirst : after.curFirst = (g.count around bytes).curFirst)
    (htime : after.curTime = (g.count around bytes).curTime)
    (hbody : after.allBody = g.allBody + bytes) (hm : m ∈ measured g after (some around)) :
    m.result = m.stop.since m.start ∧ m.start = g.downloadStart ∧
      (m.stop = around.firstByte ∨ m.stop = around.progress) := by
  simp only [measured, hstart, hfirst, htime, hbody, Gauges.count] at hm
  split at hm
  · rename_i hgrown
    have hbytes : bytes > 0 := by omega
    rcases List.mem_append.mp hm with hm | hm
    · split at hm
      · rename_i hnone
        obtain rfl := List.mem_singleton.mp hm
        exact ⟨if_pos ⟨hnone, hbytes⟩, rfl, .inl rfl⟩
      · cases hm
    · obtain rfl := List.mem_singleton.mp hm
      exact ⟨if_pos hbytes, rfl, .inr rfl⟩
  · cases hm

/-- The time of the first bytes after such a step: measured in it, or as before. -/
theorem taken_curFirst {g : Gauges} {bytes : ℕ} {after : Gauges} (h : Taken ms g.curFirst)
    (hfirst : after.curFirst = (g.count around bytes).curFirst)
    (hbody : after.allBody = g.allBody + bytes) :
    Taken (ms ++ measured g after (some around)) after.curFirst := by
  by_cases hcounted : g.curBody = 0 ∧ bytes > 0
  · have hgrown : g.allBody < after.allBody := by omega
    refine .inr ⟨⟨after.downloadStart, around.firstByte, after.curFirst⟩, ?_, rfl⟩
    simp [measured, hgrown, hcounted.1]
  · have hkept : after.curFirst = g.curFirst := hfirst.trans (if_neg hcounted)
    rw [hkept]
    exact h.append _

/-- The time of the download after such a step. -/
theorem taken_curTime {g : Gauges} {bytes : ℕ} {after : Gauges} (h : Taken ms g.curTime)
    (htime : after.curTime = (g.count around bytes).curTime)
    (hbody : after.allBody = g.allBody + bytes) :
    Taken (ms ++ measured g after (some around)) after.curTime := by
  by_cases hcounted : bytes > 0
  · have hgrown : g.allBody < after.allBody := by omega
    refine .inr ⟨⟨after.downloadStart, around.progress, after.curTime⟩, ?_, rfl⟩
    simp [measured, hgrown]
  · have hkept : after.curTime = g.curTime := htime.trans (if_neg hcounted)
    rw [hkept]
    exact h.append _

/-- A reading that was there before, and one that is taken now. -/
theorem sublist_append {a b : Timespec} {old new : List Timespec} (ha : a ∈ old) (hb : b ∈ new) :
    [a, b].Sublist (old ++ new) :=
  (List.singleton_sublist.mpr ha).append (List.singleton_sublist.mpr hb)

/-- A step of a download under way. -/
theorem Sound.enter (h : s.Sound) (hbegun : s.w.fg.downloadStart ∈ s.readings)
    (haround : o.around = some around)
    (hreadings : o.readings = [around.firstByte, around.progress, around.complete])
    (hmeasures : Filegetter.Measures s.w.fg.gauges around next) :
    (s.after o (s.w.enter next)).Sound := by
  have hfg : (s.w.enter next).fg = next.getter := by cases next <;> rfl
  have hcode : (s.w.enter next).code = next.code := by
    cases next with
    | call fg => exact h.code
    | «return» fg code => rfl
  obtain ⟨bytes, hmeasures⟩ := hmeasures
  have hkept : next.getter.gauges.downloadStart = s.w.fg.gauges.downloadStart ∧
      next.getter.gauges.curFirst = (s.w.fg.gauges.count around bytes).curFirst ∧
      next.getter.gauges.curTime = (s.w.fg.gauges.count around bytes).curTime ∧
      next.getter.gauges.allBody = s.w.fg.gauges.allBody + bytes := by
    rcases hmeasures with ⟨hgauges, -⟩ | ⟨hgauges, -⟩
    · rw [hgauges]
      exact ⟨rfl, rfl, rfl, rfl⟩
    · rw [hgauges]
      exact ⟨rfl, rfl, rfl, rfl⟩
  obtain ⟨hstart, hfirst, htime, hbody⟩ := hkept
  have hcurFirst : Taken (s.measurements ++ measured s.w.fg.gauges next.getter.gauges (some around))
      next.getter.curstats.firstByteTime := taken_curFirst h.curFirst hfirst hbody
  have hcurTime : Taken (s.measurements ++ measured s.w.fg.gauges next.getter.gauges (some around))
      next.getter.curstats.downloadTime := taken_curTime h.curTime htime hbody
  have hcompleted : ∀ stats ∈ s.completed,
      Taken (s.measurements ++ measured s.w.fg.gauges next.getter.gauges (some around))
          stats.firstByteTime ∧
        Taken (s.measurements ++ measured s.w.fg.gauges next.getter.gauges (some around))
          stats.downloadTime :=
    fun stats hstats =>
      ⟨(h.completed stats hstats).1.append _, (h.completed stats hstats).2.append _⟩
  have hmeasurements : ∀ m ∈ s.measurements ++ measured s.w.fg.gauges next.getter.gauges
      (some around),
      m.result = m.stop.since m.start ∧ [m.start, m.stop].Sublist (s.readings ++ o.readings) := by
    intro m hm
    rcases List.mem_append.mp hm with hm | hm
    · obtain ⟨hresult, hsublist⟩ := h.measurements m hm
      exact ⟨hresult, hsublist.trans (List.sublist_append_left _ _)⟩
    · obtain ⟨hresult, hfrom, hstop⟩ := mem_measured_count hstart hfirst htime hbody hm
      refine ⟨hresult, sublist_append ?_ ?_⟩
      · rw [hfrom]
        exact hbegun
      · rw [hreadings]
        rcases hstop with hstop | hstop
        · simp [hstop]
        · simp [hstop]
  have hbegun' : next.getter.downloadStart ∈ s.readings ++ o.readings := by
    have hsame : next.getter.downloadStart = s.w.fg.downloadStart := hstart
    rw [hsame]
    exact List.mem_append_left _ hbegun
  unfold after
  rw [hfg, hcode, haround]
  rcases hmeasures with ⟨hgauges, hgoes⟩ | ⟨hgauges, hdone⟩
  · rw [if_neg hgoes]
    have hall := h.allFirst
    have hallTime := h.allTime
    exact ⟨.inl hbegun', hmeasurements, hcurFirst, hcurTime, hcompleted,
      (congrArg Gauges.allFirst hgauges).trans hall,
        (congrArg Gauges.allTime hgauges).trans hallTime, rfl⟩
  · rw [if_pos hdone]
    refine ⟨.inl hbegun', hmeasurements, hcurFirst, hcurTime,
      List.forall_mem_cons.mpr ⟨⟨hcurFirst, hcurTime⟩, hcompleted⟩, ?_, ?_, rfl⟩
    · have hall : next.getter.allstats.firstByteTime =
          s.w.fg.allstats.firstByteTime.plus (s.w.fg.gauges.count around bytes).curFirst :=
        congrArg Gauges.allFirst hgauges
      have hcur : next.getter.curstats.firstByteTime =
          (s.w.fg.gauges.count around bytes).curFirst := hfirst
      dsimp only
      rw [hall, ← hcur, h.allFirst]
      rfl
    · have hall : next.getter.allstats.downloadTime =
          s.w.fg.allstats.downloadTime.plus (s.w.fg.gauges.count around bytes).curTime :=
        congrArg Gauges.allTime hgauges
      have hcur : next.getter.curstats.downloadTime = (s.w.fg.gauges.count around bytes).curTime :=
        htime
      dsimp only
      rw [hall, ← hcur, h.allTime]
      rfl

/-- A step in which nothing is counted. -/
theorem Sound.keep {w : Handshake} (h : s.Sound)
    (hbegun : w.fg.downloadStart ∈ s.readings ++ o.readings ∨ w.running = false ∧ w.fg.sockd = 0)
    (hcur : w.fg.curstats = s.w.fg.curstats ∨ w.fg.curstats = FileStats.zero)
    (hall : w.fg.allstats = s.w.fg.allstats) (hcode : w.code ≠ some .ok200) :
    (s.after o w).Sound := by
  have hnone : measured s.w.fg.gauges w.fg.gauges o.around = [] := by
    have hbody : ¬s.w.fg.gauges.allBody < w.fg.gauges.allBody := by
      show ¬s.w.fg.allstats.bodyBytesDownloaded < w.fg.allstats.bodyBytesDownloaded
      rw [hall]
      exact lt_irrefl _
    cases o.around with
    | none => rfl
    | some around => exact if_neg hbody
  have htaken : Taken s.measurements w.fg.curstats.firstByteTime ∧
      Taken s.measurements w.fg.curstats.downloadTime := by
    rcases hcur with hcur | hcur
    · rw [hcur]
      exact ⟨h.curFirst, h.curTime⟩
    · rw [hcur]
      exact ⟨.inl rfl, .inl rfl⟩
  unfold after
  rw [hnone, List.append_nil, if_neg hcode]
  refine ⟨hbegun, fun m hm => ?_, htaken.1, htaken.2, h.completed, ?_, ?_, rfl⟩
  · obtain ⟨hresult, hsublist⟩ := h.measurements m hm
    exact ⟨hresult, hsublist.trans (List.sublist_append_left _ _)⟩
  · exact (congrArg FileStats.firstByteTime hall).trans h.allFirst
  · exact (congrArg FileStats.downloadTime hall).trans h.allTime

/-- A step that leaves the getter as it is. -/
theorem Sound.keep_self (h : s.Sound) : (s.after o s.w).Sound := by
  refine h.keep ?_ (.inl rfl) rfl (by simp [h.code])
  exact h.begun.imp_left (List.mem_append_left _)

/-- A download clears the statistics or leaves them, and sets the clock or leaves it and the
socket. -/
theorem download_frame (fg : Filegetter) (sspec : ServerSpec) (fspec : FileSpec) (fopenOk : Bool)
    (connection : Connect) (now : Timespec) :
    let fg' := (fg.download sspec fspec fopenOk connection now).1
    (fg'.curstats = fg.curstats ∨ fg'.curstats = FileStats.zero) ∧ fg'.allstats = fg.allstats ∧
      (fg'.downloadStart = now ∨ fg'.downloadStart = fg.downloadStart ∧ fg'.sockd = fg.sockd) := by
  have hspecs : ((fg.setSpecs sspec fspec fopenOk).1.curstats = fg.curstats ∨
        (fg.setSpecs sspec fspec fopenOk).1.curstats = FileStats.zero) ∧
      (fg.setSpecs sspec fspec fopenOk).1.allstats = fg.allstats ∧
      (fg.setSpecs sspec fspec fopenOk).1.downloadStart = fg.downloadStart ∧
      (fg.setSpecs sspec fspec fopenOk).1.sockd = fg.sockd := by
    unfold Filegetter.setSpecs
    split
    · exact ⟨.inl rfl, rfl, rfl, rfl⟩
    · dsimp only
      split
      · exact ⟨.inl rfl, rfl, rfl, rfl⟩
      · exact ⟨.inr rfl, rfl, rfl, rfl⟩
  unfold Filegetter.download
  generalize fg.setSpecs sspec fspec fopenOk = specs at hspecs ⊢
  obtain ⟨u, result⟩ := specs
  obtain ⟨hcur, hall, hstart, hsockd⟩ := hspecs
  dsimp only at hcur hall hstart hsockd ⊢
  split
  · exact ⟨hcur, hall, .inr ⟨hstart, hsockd⟩⟩
  · split
    · split
      · cases connection with
        | failed => exact ⟨hcur, hall, .inl rfl⟩
        | connected sockd incoming => exact ⟨hcur, hall, .inl rfl⟩
      · cases connection with
        | failed => exact ⟨hcur, hall, .inl rfl⟩
        | connected sockd incoming => exact ⟨hcur, hall, .inl rfl⟩
    · exact ⟨hcur, hall, .inr ⟨hstart, hsockd⟩⟩

/-- Every event keeps the measurements sound. -/
theorem Sound.step (h : s.Sound) (hstep : s.step o = .ok s') : s'.Sound := by
  obtain ⟨w, hoccur, rfl⟩ := map_eq_ok.mp hstep
  cases o with
  | download sspec fspec fopenOk connection now =>
    obtain rfl := Except.ok.inj hoccur
    split
    · exact h.keep_self
    · rename_i hidle
      obtain ⟨hcur, hall, hclock⟩ := download_frame s.w.fg sspec fspec fopenOk connection now
      refine h.keep ?_ hcur hall (by simp [h.code])
      rcases hclock with hclock | ⟨hclock, hsockd⟩
      · exact .inl (List.mem_append_right _ (by simp [hclock, Occurrence.readings]))
      · rcases h.begun with hbegun | ⟨hrunning, hnone⟩
        · refine .inl (List.mem_append_left _ ?_)
          rw [hclock]
          exact hbegun
        · exact .inr ⟨hrunning, hsockd.trans hnone⟩
  | event e =>
    unfold Handshake.occur Handshake.step at hoccur
    cases e with
    | activate around =>
      dsimp only at hoccur
      split at hoccur
      · obtain rfl := Except.ok.inj hoccur
        exact h.keep_self
      · split at hoccur
        · rename_i hassert
          obtain ⟨next, hnext, rfl⟩ := Handshake.exists_of_map_enter hoccur
          have hbegun := h.begun.resolve_right fun hnone => hassert.2.1 hnone.2
          exact h.enter hbegun rfl rfl (Filegetter.measures_proceed hnext)
        · cases hoccur
    | call call =>
      dsimp only at hoccur
      split at hoccur
      · rename_i hrunning
        obtain ⟨next, hnext, rfl⟩ := Handshake.exists_of_map_enter hoccur
        have hbegun := h.begun.resolve_right fun hnone => by simp [hrunning] at hnone
        split at hnext
        · exact h.enter hbegun rfl rfl (Filegetter.measures_send hnext)
        · exact h.enter hbegun rfl rfl (Filegetter.measures_receive hnext)
      · obtain rfl := Except.ok.inj hoccur
        exact h.keep_self
    | block =>
      obtain rfl := Except.ok.inj hoccur
      split
      · refine h.keep ?_ (.inl rfl) rfl (by simp)
        exact h.begun.imp (List.mem_append_left _) fun hnone => ⟨rfl, hnone.2⟩
      · exact h.keep_self
    | answer bytes =>
      obtain rfl := Except.ok.inj hoccur
      refine h.keep ?_ (.inl rfl) rfl (by simp [h.code])
      exact h.begun.imp_left (List.mem_append_left _)

/-! ## Exactness -/

/-- A measurement of a clock that does not go back is exact. -/
theorem Sound.exact_measurement (h : s.Sound) (hclock : Chronological s.readings) {m : Measurement}
    (hm : m ∈ s.measurements) : m.Exact := by
  obtain ⟨hresult, hsublist⟩ := h.measurements m hm
  have hstart : m.start.Normalised := hclock.normalised _ (hsublist.subset (by simp))
  have hstop : m.stop.Normalised := hclock.normalised _ (hsublist.subset (by simp))
  have hordered : m.start.nanoseconds ≤ m.stop.nanoseconds := by
    simpa using hclock.ordered.sublist hsublist
  have hnormalised : m.result.Normalised := by
    rw [hresult]
    exact hstop.since hstart
  have hdifference : m.result.nanoseconds = m.stop.nanoseconds - m.start.nanoseconds := by
    rw [hresult, Timespec.nanoseconds_since]
  refine ⟨hnormalised, ?_, hdifference⟩
  obtain ⟨-, hless⟩ := hnormalised
  unfold Timespec.nanoseconds at hdifference hordered
  omega

/-- A time that was taken is normal. -/
theorem Sound.normalised_of_taken (h : s.Sound) (hclock : Chronological s.readings)
    (ht : Taken s.measurements t) : t.Normalised := by
  rcases ht with rfl | ⟨m, hm, rfl⟩
  · decide
  · exact (h.exact_measurement hclock hm).normalised

/-- Sound measurements are exact. -/
theorem Sound.exact (h : s.Sound) (hclock : Chronological s.readings) : s.Exact where
  measurements := fun _ hm => h.exact_measurement hclock hm
  firstByteTime := by
    rw [h.allFirst]
    refine ⟨Timespec.normalised_total fun t ht => ?_, ?_⟩
    · obtain ⟨stats, hstats, rfl⟩ := List.mem_map.mp ht
      exact h.normalised_of_taken hclock (h.completed stats hstats).1
    · rw [Timespec.nanoseconds_total, List.map_map]
      rfl
  downloadTime := by
    rw [h.allTime]
    refine ⟨Timespec.normalised_total fun t ht => ?_, ?_⟩
    · obtain ⟨stats, hstats, rfl⟩ := List.mem_map.mp ht
      exact h.normalised_of_taken hclock (h.completed stats hstats).2
    · rw [Timespec.nanoseconds_total, List.map_map]
      rfl

/-- The readings that were noted are those of the events. -/
theorem readings_of_runSteps {os : List Occurrence} (hrun : runSteps step s os = .ok s') :
    s'.readings = s.readings ++ os.flatMap Occurrence.readings := by
  induction os generalizing s with
  | nil =>
    obtain rfl := Except.ok.inj hrun
    simp
  | cons o os ih =>
    obtain ⟨u, hu, hrest⟩ := runSteps_cons_eq_ok.mp hrun
    obtain ⟨w, -, rfl⟩ := map_eq_ok.mp hu
    rw [ih hrest, List.flatMap_cons, ← List.append_assoc]
    rfl

/-- In every run of downloads over a clock that does not go back, the times that are measured are
exact differences of its readings and the times of all downloads exact sums, all of them normal; and
the loops that make a time normal are left, whatever the time is. -/
theorem exact_of_chronological {os : List Occurrence}
    (hclock : Chronological (os.flatMap Occurrence.readings))
    (hrun : runSteps step start os = .ok s) : s.Exact ∧ ∀ t : Timespec, t.LoopsEnd := by
  have hsound : s.Sound := invariant_of_steps Sound (fun _ _ _ => Sound.step) sound_start hrun
  refine ⟨hsound.exact ?_, Timespec.loopsEnd⟩
  rw [readings_of_runSteps hrun]
  exact hclock

/-- A time that was taken is no longer than the time in which all readings lie. -/
theorem Sound.nanoseconds_le (h : s.Sound) (hclock : Chronological s.readings) {first last : ℤ}
    (hle : first ≤ last)
    (hreadings : ∀ r ∈ s.readings, first ≤ r.nanoseconds ∧ r.nanoseconds ≤ last)
    (ht : Taken s.measurements t) : t.nanoseconds ≤ last - first := by
  rcases ht with rfl | ⟨m, hm, rfl⟩
  · exact Int.sub_nonneg_of_le hle
  · obtain ⟨-, hsublist⟩ := h.measurements m hm
    have hstart := (hreadings _ (hsublist.subset (List.mem_cons_self ..))).1
    have hstop := (hreadings m.stop (hsublist.subset (by simp))).2
    rw [(h.exact_measurement hclock hm).difference]
    omega

/-- The times of all downloads grow by no more than the time in which the clock was read, with each
download that is completed: this is how far they are from an overflow. -/
theorem allstats_le_of_chronological {os : List Occurrence}
    (hclock : Chronological (os.flatMap Occurrence.readings)) {first last : ℤ} (hle : first ≤ last)
    (hreadings : ∀ r ∈ os.flatMap Occurrence.readings, first ≤ r.nanoseconds ∧ r.nanoseconds ≤ last)
    (hrun : runSteps step start os = .ok s) :
    s.w.fg.allstats.firstByteTime.nanoseconds ≤ s.completed.length * (last - first) ∧
      s.w.fg.allstats.downloadTime.nanoseconds ≤ s.completed.length * (last - first) := by
  have hsound : s.Sound := invariant_of_steps Sound (fun _ _ _ => Sound.step) sound_start hrun
  have hnoted : s.readings = os.flatMap Occurrence.readings := readings_of_runSteps hrun
  rw [← hnoted] at hclock hreadings
  have hbound : ∀ time : FileStats → Timespec,
      (∀ stats ∈ s.completed, Taken s.measurements (time stats)) →
      (s.completed.map fun stats => (time stats).nanoseconds).sum ≤
        s.completed.length * (last - first) := by
    intro time htaken
    have hsum := List.sum_le_card_nsmul (s.completed.map fun stats => (time stats).nanoseconds)
      (last - first)
    rw [List.length_map, nsmul_eq_mul] at hsum
    refine hsum fun n hn => ?_
    obtain ⟨stats, hstats, rfl⟩ := List.mem_map.mp hn
    exact hsound.nanoseconds_le hclock hle hreadings (htaken stats hstats)
  have hexact := hsound.exact hclock
  rw [hexact.firstByteTime.2, hexact.downloadTime.2]
  exact ⟨hbound _ fun stats hstats => (hsound.completed stats hstats).1,
    hbound _ fun stats hstats => (hsound.completed stats hstats).2⟩

/-- Surroundings whose clock stands still. -/
def clockAt (t : Timespec) : Surroundings where
  firstByte := t
  progress := t
  complete := t
  fwriteOk := true
  reconnect := .failed

/-- A download that is started at one time and gets a body of one byte at another; the last call
before the reply would block. -/
def downloadBetween (start stop : Timespec) : List Occurrence :=
  [.download ServerSpec.zero Handshake.wantedFile true (.connected 4 []) start,
    .event (.activate (clockAt start)),
    .event (.call ⟨.ready 99, clockAt start⟩),
    .event .block,
    .event (.answer (http200Header 1 ++ [120])),
    .event (.activate (clockAt stop)),
    .event (.call ⟨.ready 99, clockAt stop⟩)]

/-- Two downloads, the first from 0.9 to 1.1 seconds and the second from 1.5 to 3.4. -/
theorem exact_of_chronological_twice :
    ∃ s, runSteps step start (downloadBetween ⟨0, 900000000⟩ ⟨1, 100000000⟩ ++
        downloadBetween ⟨1, 500000000⟩ ⟨3, 400000000⟩) = .ok s ∧
      s.w.fg.allstats.downloadTime = ⟨2, 100000000⟩ ∧ s.Exact ∧ ∀ t : Timespec, t.LoopsEnd := by
  obtain ⟨s, hrun, htotal⟩ : ∃ s,
      runSteps step start (downloadBetween ⟨0, 900000000⟩ ⟨1, 100000000⟩ ++
      downloadBetween ⟨1, 500000000⟩ ⟨3, 400000000⟩) = .ok s ∧
      s.w.fg.allstats.downloadTime = ⟨2, 100000000⟩ := exists_ok_of_map (by decide +kernel)
  exact ⟨s, hrun, htotal, exact_of_chronological (by decide +kernel) hrun⟩

end Stopwatch

end ShadowExtras.FileTransfer
