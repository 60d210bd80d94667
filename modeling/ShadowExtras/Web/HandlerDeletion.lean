import ShadowExtras.Web.HandlerWatches

/-!
# The deletion of a handler

A handler finds that its client is gone in three ways: `trigger` reports an error, `recv` returns
the end of the stream or an error, `write` returns an error. Each of them schedules the deletion of
the handler, and nothing looks whether that was done before, nor keeps the callbacks from being
called until the deletion takes place. `Quiet` says that until then nothing comes that a callback
could handle. Then, and only then, the handler is deleted once, and nothing is sent or parsed for a
client that is gone.
-/

namespace ShadowExtras.Web

open Foundation

/-! ## The condition and the property -/

namespace HandlerMachine

/-- Each call of `recv` would block. -/
def ReadsNothing (s : Handler) (vectors : List (ℕ × RecvResult)) : Prop :=
  s.submittedReqQueue.length ≠ maxPipelineReqs → Reserves (2 * 1024) (vectors.map Prod.fst) →
    ∀ v ∈ vectors, v.2 = .wouldBlock

/-- The first call of `write` would block, or writes nothing. -/
def WritesNothing (s : Handler) (l : Locals) (extents : List (ℕ × WriteResult)) : Prop :=
  s.outbuf ≠ [] → l.sendWouldBlock = false → Peeks s.outbuf (extents.map Prod.fst) →
    ∀ v ∈ extents.head?, v.2 = .wouldBlock ∨ v.2 = .wrote 0

/-- A step of a callback receives nothing, parses nothing and writes nothing. -/
def StepQuiet (m : HandlerMachine) (c : Choice) : Prop :=
  match m.label, c with
  | .readMore, .recv vectors => ReadsNothing m.handler vectors
  | .processInbuf _, .go => IsLine m.handler.inbuf
  | .drain l, .write extents => WritesNothing m.handler l extents
  | _, _ => True

end HandlerMachine

/-- Nothing is sent, received or parsed between two states. -/
structure Handler.Silent (s t : Handler) : Prop where
  sent : t.sent = s.sent
  received : t.received = s.received
  inbuf : t.inbuf = s.inbuf

/-- Nor is a deletion scheduled. -/
structure Handler.Undisturbed (s t : Handler) : Prop where
  deletions : t.deletions = s.deletions
  silent : s.Silent t

/-- At most one deletion is scheduled between two states. -/
def Handler.DeletedOnceMore (s t : Handler) : Prop :=
  t.deletions = s.deletions ∨ t.deletions = s.deletions + 1

namespace HandlerLoop

/-- `trigger` comes to no error, and the callback that is running has nothing to handle. -/
def NothingToHandle (w : HandlerLoop) (e : HandlerEvent) : Prop :=
  match e with
  | .next => w.machine.label = .idle → w.parts.head? ≠ some .error
  | .run c => w.machine.StepQuiet c
  | _ => True

/-- Once the deletion of the handler is scheduled, nothing comes that it could handle. -/
def Quiet (w : HandlerLoop) (e : HandlerEvent) : Prop := w.Doomed → w.NothingToHandle e

/-- A handler is deleted once in a run, and nothing is sent or parsed after it found that its client
is gone. -/
structure CleansUpOnce (files : Files) (docroot : Bytes) (es : List HandlerEvent) : Prop where
  once : ∀ w, Visits (step files) (new docroot) es w → w.handler.deletions ≤ 1
  deleted : runSteps (step files) (new docroot) es ≠ .error .deletedTwice
  silent : ∀ fs gs u w, fs ++ gs <+: es → runSteps (step files) (new docroot) fs = .ok u →
    u.Doomed →
    runSteps (step files) u gs = .ok w → u.handler.Silent w.handler

end HandlerLoop

/-! ## `recv_from_client` -/

variable {s t : Handler}

/-- Where every `recv` would block nothing is received. -/
theorem recvLoop_wouldBlock {vectors : List (ℕ × RecvResult)} (h : ∀ v ∈ vectors, v.2 = .wouldBlock)
    (data : Bytes) (skipped : Bool) : recvLoop vectors data skipped = .ok (.bytes data false) := by
  induction vectors generalizing skipped with
  | nil => rfl
  | cons v vectors ih =>
    obtain ⟨size, r⟩ := v
    obtain rfl : r = .wouldBlock := h (size, r) (by simp)
    exact ih (fun v hv => h v (by simp [hv])) true

/-- What is received is appended. -/
theorem prefix_of_recvLoop {vectors : List (ℕ × RecvResult)} {data data' : Bytes}
    {skipped noMore : Bool} (h : recvLoop vectors data skipped = .ok (.bytes data' noMore)) :
    data <+: data' := by
  induction vectors generalizing data skipped with
  | nil =>
    obtain ⟨rfl, -⟩ : data = data' ∧ false = noMore := by simpa [recvLoop] using h
    exact List.prefix_rfl
  | cons v vectors ih =>
    obtain ⟨size, r⟩ := v
    cases r with
    | eof => simp [recvLoop] at h
    | error => simp [recvLoop] at h
    | wouldBlock => exact ih h
    | bytes d =>
      simp only [recvLoop] at h
      split_ifs at h
      · simp at h
      · obtain ⟨rfl, -⟩ := Received.bytes.inj (Except.ok.inj h)
        exact List.prefix_append _ _
      · exact (List.prefix_append _ _).trans (ih h)

/-- Nothing is received only when each call would block. -/
theorem wouldBlock_of_recvLoop {vectors : List (ℕ × RecvResult)} {data : Bytes}
    {skipped noMore : Bool} (h : recvLoop vectors data skipped = .ok (.bytes data noMore)) :
    ∀ v ∈ vectors, v.2 = .wouldBlock := by
  induction vectors generalizing skipped with
  | nil => simp
  | cons v vectors ih =>
    obtain ⟨size, r⟩ := v
    cases r with
    | eof => simp [recvLoop] at h
    | error => simp [recvLoop] at h
    | wouldBlock =>
      have hrest := ih h
      simpa using hrest
    | bytes d =>
      simp only [recvLoop] at h
      split_ifs at h with hempty
      · simp at h
      · obtain ⟨hdata, -⟩ := Received.bytes.inj (Except.ok.inj h)
        exact absurd hdata (by simpa using hempty)
      · have hpre := (prefix_of_recvLoop h).length_le
        have hpos := List.length_pos_iff.mpr hempty
        rw [List.length_append] at hpre
        omega

/-! ## `process_inbuf_` -/

namespace Handler

/-- The headers leave the socket alone. -/
theorem processHeaders_eq_ok {fuel : ℕ} {want : Bool} (h : processHeaders fuel s = .ok (t, want)) :
    t.inbuf.length ≤ s.inbuf.length ∧ t.sent = s.sent ∧ t.received = s.received ∧
      t.deletions = s.deletions := by
  induction fuel generalizing s with
  | zero =>
    obtain ⟨rfl, -⟩ := Prod.mk.inj (Except.ok.inj h)
    exact ⟨le_rfl, rfl, rfl, rfl⟩
  | succ fuel ih =>
    unfold processHeaders at h
    split at h
    · obtain ⟨rfl, -⟩ := Prod.mk.inj (Except.ok.inj h)
      exact ⟨le_rfl, rfl, rfl, rfl⟩
    · rename_i line u hline
      have hshorter := length_inbuf_of_readln hline
      obtain ⟨inbuf, rfl⟩ := readln_spec hline
      split_ifs at h
      · obtain ⟨rfl, -⟩ := Prod.mk.inj (Except.ok.inj h)
        exact ⟨hshorter.le, rfl, rfl, rfl⟩
      · split at h
        · cases h
        · rename_i v hv
          obtain ⟨queue, rfl⟩ := headerLine_eq_ok hv
          obtain ⟨hlength, hrest⟩ := ih h
          exact ⟨hlength.trans hshorter.le, hrest⟩

/-- Without a complete line no request is taken. -/
theorem extractRequest_of_isLine (h : IsLine s.inbuf) : s.extractRequest = .ok (s, true) := by
  unfold extractRequest
  split_ifs
  · rfl
  · split
    · unfold processReqLine
      rw [readln_eq_none.mpr h]
    · exact processHeaders_of_isLine h

/-- A line that waits in `inbuf_` is processed. -/
theorem extractRequest_of_not_isLine {want : Bool} (hline : ¬IsLine s.inbuf)
    (h : s.extractRequest = .ok (t, want)) : t.inbuf.length < s.inbuf.length := by
  have hsome : s.readln ≠ none := fun hnone => hline (readln_eq_none.mp hnone)
  unfold extractRequest at h
  split_ifs at h with hempty
  · rw [hempty] at hline
    exact absurd (by simp [IsLine, crlf]) hline
  · split at h
    · unfold processReqLine at h
      split at h
      · rename_i hnone
        exact absurd hnone hsome
      · rename_i line u hread
        have hshorter := length_inbuf_of_readln hread
        split at h
        · cases h
        · dsimp only at h
          split_ifs at h
          exact (processHeaders_eq_ok h).1.trans_lt hshorter
    · unfold processHeaders at h
      split at h
      · rename_i hnone
        exact absurd hnone hsome
      · rename_i line u hread
        have hshorter := length_inbuf_of_readln hread
        split_ifs at h
        · obtain ⟨rfl, -⟩ := Prod.mk.inj (Except.ok.inj h)
          exact hshorter
        · split at h
          · cases h
          · rename_i v hv
            obtain ⟨queue, rfl⟩ := headerLine_eq_ok hv
            exact (processHeaders_eq_ok h).1.trans_lt hshorter

/-- Taking a request out of `inbuf_` leaves the socket alone. -/
theorem extractRequest_kept {want : Bool} (h : s.extractRequest = .ok (t, want)) :
    t.sent = s.sent ∧ t.received = s.received ∧ t.deletions = s.deletions := by
  unfold extractRequest at h
  split_ifs at h
  · obtain ⟨rfl, -⟩ := Prod.mk.inj (Except.ok.inj h)
    exact ⟨rfl, rfl, rfl⟩
  · split at h
    · unfold processReqLine at h
      split at h
      · obtain ⟨rfl, -⟩ := Prod.mk.inj (Except.ok.inj h)
        exact ⟨rfl, rfl, rfl⟩
      · rename_i line u hread
        obtain ⟨inbuf, rfl⟩ := readln_spec hread
        split at h
        · cases h
        · dsimp only at h
          split_ifs at h
          exact (processHeaders_eq_ok h).2
    · exact (processHeaders_eq_ok h).2

end Handler

namespace HandlerMachine

variable {files : Files} {m m' : HandlerMachine} {c : Choice} {l : Locals} {label : Label}

/-- `process_inbuf_` parses nothing just if there is no complete line. -/
theorem processInbuf_silent_iff {next : After} (h : processInbuf s next = .ok m') :
    (s.Undisturbed m'.handler ↔ IsLine s.inbuf) ∧ m'.handler.deletions = s.deletions := by
  unfold HandlerMachine.processInbuf Handler.processInbuf at h
  cases ht : s.extractRequest with
  | error f => simp [ht] at h
  | ok r =>
    obtain ⟨t, want⟩ := r
    simp only [ht] at h
    obtain rfl := Except.ok.inj h
    obtain ⟨hsent, hreceived, hdeletions⟩ := Handler.extractRequest_kept ht
    refine ⟨⟨fun hsame => ?_, fun hline => ?_⟩, hdeletions⟩
    · by_contra hline
      have hshorter := Handler.extractRequest_of_not_isLine hline ht
      have hinbuf : t.inbuf = s.inbuf := hsame.silent.inbuf
      rw [hinbuf] at hshorter
      exact lt_irrefl _ hshorter
    · rw [Handler.extractRequest_of_isLine hline] at ht
      obtain ⟨rfl, -⟩ := Prod.mk.inj (Except.ok.inj ht)
      exact ⟨rfl, ⟨rfl, rfl, rfl⟩⟩

/-- Reading changes nothing just if nothing is received. -/
theorem readMore_silent_iff (vectors : List (ℕ × RecvResult)) (h : readMore s vectors = .ok m') :
    (s.Undisturbed m'.handler ↔ ReadsNothing s vectors) ∧ s.DeletedOnceMore m'.handler := by
  unfold readMore at h
  unfold ReadsNothing
  split_ifs at h with hfull hreserves
  · obtain rfl := Except.ok.inj h
    refine ⟨iff_of_true ⟨rfl, ⟨rfl, rfl, rfl⟩⟩ fun hnot => absurd hfull hnot, .inl rfl⟩
  · split at h
    · cases h
    · rename_i hloop
      obtain rfl := Except.ok.inj h
      refine ⟨iff_of_false (fun hsame => absurd hsame.deletions (by simp)) fun hquiet => ?_,
        .inr rfl⟩
      rw [recvLoop_wouldBlock (hquiet hfull hreserves)] at hloop
      simp at hloop
    · rename_i data noMore hloop
      split_ifs at h with hempty
      · obtain rfl := Except.ok.inj h
        subst hempty
        exact ⟨iff_of_true ⟨rfl, ⟨rfl, rfl, rfl⟩⟩ fun _ _ => wouldBlock_of_recvLoop hloop, .inl rfl⟩
      · obtain rfl := Except.ok.inj h
        refine ⟨iff_of_false (fun hsame => ?_) fun hquiet => ?_, .inl rfl⟩
        · exact hempty (by simpa using hsame.silent.received)
        · rw [recvLoop_wouldBlock (hquiet hfull hreserves)] at hloop
          obtain ⟨rfl, -⟩ := Received.bytes.inj (Except.ok.inj hloop)
          exact hempty rfl
  · obtain rfl := Except.ok.inj h
    exact ⟨iff_of_true ⟨rfl, ⟨rfl, rfl, rfl⟩⟩ fun _ hreserves' => absurd hreserves' hreserves,
      .inl rfl⟩

/-! ## `send_to_client` -/

/-- The loop that writes `outbuf_` writes nothing and finds no error just when its first call of
`write` would block, or writes nothing. -/
theorem writeLoop_silent_iff {extents : List (ℕ × WriteResult)} {buf : Bytes} (hbuf : buf ≠ [])
    (hpeeks : Peeks buf (extents.map Prod.fst)) :
    ((writeLoop extents buf).bytes = [] ∧ (writeLoop extents buf).error = false) ↔
      ∀ v ∈ extents.head?, v.2 = .wouldBlock ∨ v.2 = .wrote 0 := by
  obtain ⟨-, hsizes, -, hall⟩ := hpeeks
  cases extents with
  | nil =>
    have hlength : 0 = buf.length := hall (by simp)
    exact absurd (List.length_eq_zero_iff.mp hlength.symm) hbuf
  | cons v extents =>
    obtain ⟨size, r⟩ := v
    have hsize : 0 < size := hsizes size (by simp)
    have htake : buf.take size ≠ [] := by
      simp only [ne_eq, List.take_eq_nil_iff, not_or]
      exact ⟨hsize.ne', hbuf⟩
    cases r with
    | wouldBlock => simp [writeLoop]
    | error => simp [writeLoop]
    | wrote n =>
      have hnil : (buf.take size).take n = [] ↔ n = 0 := by
        rw [List.take_eq_nil_iff]
        exact or_iff_left htake
      simp only [writeLoop]
      split_ifs with hpart
      · simp [hnil]
      · have hn : n ≠ 0 := by
          rintro rfl
          exact hpart (by simpa using (List.length_pos_iff.mpr htake).ne)
        simp [hnil, hn]

/-- Writing changes nothing just if nothing is written. -/
theorem drain_silent_iff (extents : List (ℕ × WriteResult)) :
    (s.Undisturbed (drained s l extents).handler ↔ WritesNothing s l extents) ∧
      s.DeletedOnceMore (drained s l extents).handler := by
  have hsame : s.Undisturbed s := ⟨rfl, ⟨rfl, rfl, rfl⟩⟩
  by_cases hdrain : s.outbuf ≠ [] ∧ (!l.sendWouldBlock) = true
  · by_cases hpeeks : Peeks s.outbuf (extents.map Prod.fst)
    · obtain ⟨hbuf, hblock⟩ := hdrain
      have hquiet : WritesNothing s l extents ↔
          ∀ v ∈ extents.head?, v.2 = .wouldBlock ∨ v.2 = .wrote 0 :=
        ⟨fun h => h hbuf (by simpa using hblock) hpeeks, fun h _ _ _ => h⟩
      rw [hquiet, ← writeLoop_silent_iff hbuf hpeeks]
      simp only [drained, if_pos (And.intro hbuf hblock), if_neg (not_not.mpr hpeeks)]
      cases herror : (writeLoop extents s.outbuf).error with
      | true =>
        exact ⟨iff_of_false (fun h => absurd h.deletions (by simp)) (by simp), .inr rfl⟩
      | false =>
        refine ⟨⟨fun h => ⟨?_, rfl⟩, fun h => ⟨rfl, ⟨?_, rfl, rfl⟩⟩⟩, .inl rfl⟩
        · simpa using h.silent.sent
        · simp [h.1]
    · have hquiet : WritesNothing s l extents := fun _ _ hpeeks' => absurd hpeeks' hpeeks
      simp only [drained, if_pos hdrain, if_pos hpeeks]
      exact ⟨iff_of_true hsame hquiet, .inl rfl⟩
  · have hquiet : WritesNothing s l extents :=
      fun hbuf hblock _ => absurd ⟨hbuf, by simpa using hblock⟩ hdrain
    simp only [drained, if_neg hdrain]
    split_ifs
    · exact ⟨iff_of_true hsame hquiet, .inl rfl⟩
    · exact ⟨iff_of_true hsame hquiet, .inl rfl⟩

/-! ## Steps -/

/-- A step of a callback is quiet just if nothing is sent, received, parsed or scheduled in it. -/
theorem step_silent_iff (hlabel : m.label ≠ .idle) (h : step files m c = .ok m') :
    (m.handler.Undisturbed m'.handler ↔ m.StepQuiet c) ∧
      m.handler.DeletedOnceMore m'.handler := by
  obtain ⟨s, label⟩ := m
  have hnone : m' = ⟨s, label⟩ → s.Undisturbed m'.handler ∧ s.DeletedOnceMore m'.handler := by
    rintro rfl
    exact ⟨⟨rfl, ⟨rfl, rfl, rfl⟩⟩, .inl rfl⟩
  cases label with
  | idle => exact absurd rfl hlabel
  | readMore =>
    cases c with
    | go =>
      obtain ⟨hiff, hmore⟩ := readMore_silent_iff [] h
      exact ⟨iff_of_true (hiff.mpr fun _ _ _ hv => by simp at hv) trivial, hmore⟩
    | recv vectors => exact readMore_silent_iff vectors h
    | _ =>
      obtain ⟨hsame, hmore⟩ := hnone (Except.ok.inj h).symm
      exact ⟨iff_of_true hsame trivial, hmore⟩
  | processInbuf next =>
    cases c with
    | go =>
      obtain ⟨hiff, hdeletions⟩ := processInbuf_silent_iff h
      exact ⟨hiff, .inl hdeletions⟩
    | _ =>
      obtain ⟨hsame, hmore⟩ := hnone (Except.ok.inj h).symm
      exact ⟨iff_of_true hsame trivial, hmore⟩
  | check l =>
    cases c with
    | go =>
      simp only [step, check] at h
      split_ifs at h
      all_goals
        obtain rfl := Except.ok.inj h
        exact ⟨iff_of_true ⟨rfl, ⟨rfl, rfl, rfl⟩⟩ trivial, .inl rfl⟩
    | _ =>
      obtain ⟨hsame, hmore⟩ := hnone (Except.ok.inj h).symm
      exact ⟨iff_of_true hsame trivial, hmore⟩
  | drain l =>
    cases c with
    | go =>
      obtain rfl := drain_eq_ok h
      obtain ⟨hiff, hmore⟩ := drain_silent_iff (s := s) (l := l) []
      exact ⟨iff_of_true (hiff.mpr fun _ _ _ v hv => by simp at hv) trivial, hmore⟩
    | write extents =>
      obtain rfl := drain_eq_ok h
      exact drain_silent_iff extents
    | _ =>
      obtain ⟨hsame, hmore⟩ := hnone (Except.ok.inj h).symm
      exact ⟨iff_of_true hsame trivial, hmore⟩
  | _ =>
    have hsame := untouched_send h trivial (by simp) (by simp)
    simp only [Handler.untouched, Prod.mk.injEq] at hsame
    obtain ⟨hinbuf, hreceived, hsent, hdeletions, -⟩ := hsame
    exact ⟨iff_of_true ⟨hdeletions, ⟨hsent, hreceived, hinbuf⟩⟩ trivial,
      .inl hdeletions⟩

end HandlerMachine

namespace HandlerLoop

variable {files : Files} {docroot : Bytes} {w w' : HandlerLoop} {e : HandlerEvent}
variable {es : List HandlerEvent}

/-- `mev_eventcb` takes an error for the end of the stream. -/
theorem mevEventcb_error : w.mevEventcb .error = .ok w.deleteLater := by
  unfold mevEventcb
  rw [if_neg (by decide), if_pos (by decide)]
  rfl

/-- It takes the end of the stream for the event that the socket is connected. -/
theorem mevEventcb_eof : w.mevEventcb .eof = .error .connected := by
  unfold mevEventcb
  rw [if_pos (by decide)]

theorem mevEventcb_connected : w.mevEventcb .connected = .error .connected := by
  unfold mevEventcb
  rw [if_pos (by decide)]

/-- Only an error disturbs the handler in front of its callbacks. -/
theorem part_undisturbed_iff {p : TriggerPart} (h : w.part p = .ok w') :
    (w.handler.Undisturbed w'.handler ↔ p ≠ .error) ∧ w.handler.DeletedOnceMore w'.handler := by
  have hsame : ∀ label, w.handler.Undisturbed (w.call label).handler :=
    fun _ => ⟨rfl, ⟨rfl, rfl, rfl⟩⟩
  cases p with
  | error =>
    simp only [part, mevEventcb_error, Except.map] at h
    obtain rfl := Except.ok.inj h
    exact ⟨iff_of_false (fun hsame => absurd hsame.deletions (by simp [deleteLater, setState]))
      (by simp), .inr rfl⟩
  | hangup => simp [part, mevEventcb_eof, Except.map] at h
  | writable =>
    simp only [part, mevEventcb_connected] at h
    split_ifs at h
    · obtain rfl := Except.ok.inj h
      exact ⟨iff_of_true (hsame _) (by simp), .inl rfl⟩
    · obtain rfl := Except.ok.inj h
      exact ⟨iff_of_true (hsame w.machine.label) (by simp), .inl rfl⟩
  | readable =>
    simp only [part] at h
    obtain rfl := Except.ok.inj h
    split_ifs
    · exact ⟨iff_of_true (hsame _) (by simp), .inl rfl⟩
    · exact ⟨iff_of_true (hsame w.machine.label) (by simp), .inl rfl⟩

/-- A step disturbs nothing just if there is nothing to handle in it. -/
theorem step_undisturbed_iff (h : step files w e = .ok w') :
    (w.handler.Undisturbed w'.handler ↔ w.NothingToHandle e) ∧
      w.handler.DeletedOnceMore w'.handler := by
  have hnone : ∀ u : HandlerLoop, u.machine = w.machine →
      w.handler.Undisturbed u.handler ∧ w.handler.DeletedOnceMore u.handler := by
    intro u hu
    rw [handler, handler, hu]
    exact ⟨⟨rfl, ⟨rfl, rfl, rfl⟩⟩, .inl rfl⟩
  unfold step at h
  split_ifs at h with hlabel
  · cases e with
    | run c =>
      dsimp only at h
      unfold run at h
      split at h
      · cases h
      · rename_i m hm
        obtain rfl := Except.ok.inj h
        exact HandlerMachine.step_silent_iff hlabel hm
    | next =>
      obtain rfl := Except.ok.inj h
      exact ⟨iff_of_true (hnone w rfl).1 fun hidle => absurd hidle hlabel, (hnone w rfl).2⟩
    | _ =>
      obtain rfl := Except.ok.inj h
      exact ⟨iff_of_true (hnone w rfl).1 trivial, (hnone w rfl).2⟩
  · have hidle : w.machine.label = .idle := not_not.mp hlabel
    cases e with
    | trigger what =>
      dsimp only at h
      unfold trigger at h
      split_ifs at h
      all_goals
        obtain rfl := Except.ok.inj h
        exact ⟨iff_of_true (hnone _ rfl).1 trivial, (hnone _ rfl).2⟩
    | next =>
      dsimp only at h
      split at h
      · rename_i hparts
        obtain rfl := Except.ok.inj h
        exact ⟨iff_of_true (hnone w rfl).1 fun _ => by simp [hparts], (hnone w rfl).2⟩
      · rename_i p parts hparts
        obtain ⟨hiff, hmore⟩ := part_undisturbed_iff h
        refine ⟨hiff.trans ?_, hmore⟩
        simp [NothingToHandle, hparts, hidle]
    | run c =>
      obtain rfl := Except.ok.inj h
      refine ⟨iff_of_true (hnone w rfl).1 ?_, (hnone w rfl).2⟩
      simp [NothingToHandle, HandlerMachine.StepQuiet, hidle]
    | deleteHandler =>
      dsimp only at h
      unfold deleteHandler at h
      split_ifs at h
      all_goals
        obtain rfl := Except.ok.inj h
        exact ⟨iff_of_true (hnone _ rfl).1 trivial, (hnone _ rfl).2⟩

/-! ## Runs -/

/-- At most one deletion is scheduled. -/
def DeletedOnce (w : HandlerLoop) : Prop := w.handler.deletions ≤ 1

/-- A quiet event deletes the handler at most once. -/
theorem DeletedOnce.step (hw : w.DeletedOnce) (hquiet : Quiet w e) (h : step files w e = .ok w') :
    w'.DeletedOnce := by
  obtain ⟨hiff, hmore⟩ := step_undisturbed_iff h
  unfold DeletedOnce at hw ⊢
  by_cases hdoomed : w.Doomed
  · rw [(hiff.mpr (hquiet hdoomed)).deletions]
    exact hw
  · have hzero : w.handler.deletions = 0 := Nat.eq_zero_of_not_pos hdoomed
    rcases hmore with hsame | hsame <;> omega

/-- `delete_handler` is called for a handler that exists. -/
theorem step_ne_deletedTwice (hw : w.DeletedOnce) :
    step files w e ≠ .error .deletedTwice := by
  unfold DeletedOnce at hw
  intro h
  unfold HandlerLoop.step at h
  split_ifs at h
  · cases e with
    | run c =>
      dsimp only at h
      unfold run at h
      split at h <;> simp at h
    | _ => simp at h
  · cases e with
    | trigger what =>
      dsimp only at h
      unfold trigger at h
      split_ifs at h
      simp at h
    | next =>
      dsimp only at h
      split at h
      · simp at h
      · rename_i p parts hparts
        cases p with
        | error => simp [part, mevEventcb_error, Except.map] at h
        | hangup => simp [part, mevEventcb_eof, Except.map] at h
        | writable =>
          simp only [part, mevEventcb_connected] at h
          split_ifs at h
          simp at h
        | readable => simp [part] at h
    | run c => simp at h
    | deleteHandler =>
      dsimp only at h
      unfold deleteHandler at h
      split_ifs at h with hnot hdeleted
      omega

/-- What a handler that is to be deleted keeps as long as nothing comes that it could handle. -/
theorem silent_of_stepsMeet {u : HandlerLoop} (hu : u.Doomed)
    (hquiet : StepsMeet (step files) Quiet u es) (hrun : runSteps (step files) u es = .ok w) :
    u.handler.Silent w.handler := by
  have hkept : w.Doomed ∧ u.handler.Silent w.handler := by
    refine invariant_of_stepsMeet (fun v => v.Doomed ∧ u.handler.Silent v.handler) ?_
      ⟨hu, ⟨rfl, rfl, rfl⟩⟩ hquiet hrun
    rintro v e v' ⟨hdoomed, hsilent⟩ hquiet hstep
    have hsame := (step_undisturbed_iff hstep).1.mpr (hquiet hdoomed)
    refine ⟨?_, ⟨?_, ?_, ?_⟩⟩
    · unfold Doomed at hdoomed ⊢
      rw [hsame.deletions]
      exact hdoomed
    · exact hsame.silent.sent.trans hsilent.sent
    · exact hsame.silent.received.trans hsilent.received
    · exact hsame.silent.inbuf.trans hsilent.inbuf
  exact hkept.2

/-- A handler is deleted once and sends and parses nothing for a client that is gone in every run in
which nothing comes that it could handle between the call of `deleteLater` and the deletion; and in
no other run that an assertion does not end. -/
theorem cleansUpOnce_quiet (files : Files) (docroot : Bytes)
    (es : List HandlerEvent) :
    (StepsMeet (step files) Quiet (new docroot) es → CleansUpOnce files docroot es) ∧
      ((∃ w, runSteps (step files) (new docroot) es = .ok w) → CleansUpOnce files docroot es →
        StepsMeet (step files) Quiet (new docroot) es) := by
  have hnew : (new docroot).DeletedOnce := Nat.zero_le 1
  constructor
  · intro hquiet
    constructor
    · rintro w ⟨fs, ⟨gs, rfl⟩, hrun⟩
      exact invariant_of_stepsMeet DeletedOnce (fun _ _ _ hw hq h => hw.step hq h) hnew
        hquiet.of_append hrun
    · intro hdeleted
      exact fault_of_stepsMeet DeletedOnce (· ≠ .deletedTwice) (fun _ _ _ hw hq h => hw.step hq h)
        (fun _ _ _ hw _ h hf => step_ne_deletedTwice hw (hf ▸ h)) hnew hquiet hdeleted rfl
    · rintro fs gs u w ⟨hs, rfl⟩ hfs hdoomed hgs
      exact silent_of_stepsMeet hdoomed (hquiet.of_append.of_append_of_ok hfs) hgs
  · rintro ⟨w, hrun⟩ hclean
    refine stepsMeet_of_forall_takes fun u e htakes hdoomed => ?_
    obtain ⟨fs, gs, rfl, hfs⟩ := htakes
    obtain ⟨u₁, hu₁, hrest⟩ := runSteps_append.mp hrun
    obtain rfl := Except.ok.inj (hfs.symm.trans hu₁)
    obtain ⟨u', hu', -⟩ := runSteps_cons_eq_ok.mp hrest
    obtain ⟨hiff, hmore⟩ := step_undisturbed_iff hu'
    have hone : runSteps (step files) u [e] = .ok u' := by
      rw [runSteps_cons_of_ok hu', runSteps_nil]
    have hpre : fs ++ [e] <+: fs ++ e :: gs := ⟨gs, by simp⟩
    have hvisits : u'.handler.deletions ≤ 1 :=
      hclean.once u' ⟨fs ++ [e], hpre, runSteps_append.mpr ⟨u, hfs, hone⟩⟩
    have hsilent := hclean.silent fs [e] u u' hpre hfs hdoomed hone
    refine hiff.mp ⟨?_, hsilent⟩
    unfold Doomed at hdoomed
    rcases hmore with hsame | hmore
    · exact hsame
    · omega

/-- The client closes the connection and the socket is reported to be readable twice before the
handler is deleted. The deletion is scheduled twice, and the second one finds no handler. -/
theorem not_cleansUpOnce_eof :
    let readable : EpollEvents := ⟨true, false, false, false, false⟩
    let closed : List HandlerEvent := [.trigger readable, .next, .run (.recv [(2048, .eof)])]
    (∃ w, runSteps (step fun _ => none) (new []) (closed ++ closed) = .ok w ∧
      w.handler.deletions = 2) ∧
    runSteps (step fun _ => none) (new []) (closed ++ closed ++ [.deleteHandler, .deleteHandler]) =
      .error .deletedTwice ∧
    ¬CleansUpOnce (fun _ => none) [] (closed ++ closed) := by
  intro readable closed
  obtain ⟨w, hw⟩ : ∃ w, runSteps (step fun _ => none) (new []) (closed ++ closed) = .ok w :=
    ⟨_, rfl⟩
  have htwice : w.handler.deletions = 2 := by
    obtain rfl := Except.ok.inj hw
    decide +kernel
  refine ⟨⟨w, hw, htwice⟩, by decide +kernel, fun hclean => ?_⟩
  have honce := hclean.once w ⟨closed ++ closed, List.prefix_rfl, hw⟩
  omega

/-- An error is reported together with a request: the request is parsed after the deletion was
scheduled. -/
example :
    let es : List HandlerEvent := [.trigger ⟨true, false, true, false, false⟩, .next, .next,
      .run (.recv [(2048, .bytes (ascii "GET /a HTTP/1.1" ++ crlf ++ crlf))]), .run .go]
    (runSteps (step fun _ => none) (new []) es).map
      (fun w => (w.handler.deletions, w.handler.submittedReqQueue.map RequestInfo.path)) =
        .ok (1, [ascii "/a"]) := by
  decide +kernel

end HandlerLoop

end ShadowExtras.Web
