import Mathlib.Data.Finset.Max
import Mathlib.Data.Fintype.Basic
import ShadowExtras.TorControl.AttachedStreams

/-!
# Time windows pick one circuit

Every circuit of the builder has a window of time, from its own start to the start of the circuit
behind it; the window of the last circuit stays open. A new stream is attached to the first circuit
whose window contains the present. When the start times do not decrease (`Windowed`), that is the
last circuit that has started, and no other window contains the present (`inWindow_iff`): windows of
circuits with the same start are empty, but for the last of them.

The times are set by `torControlCircuitBuild_new` and never change (`sameTimes_run`).
-/

namespace ShadowExtras.TorControl

open Foundation

/-! ## Windows -/

section Windows

variable {n : ℕ} {c : CircuitBuild n} {now : ℤ} {i j : Fin n}

/-- The time is in the window of the circuit; a window that ends at `-1` stays open. -/
def CircuitBuild.InWindow (c : CircuitBuild n) (now : ℤ) (i : Fin n) : Prop :=
  (c.circuits i).startTime ≤ now ∧ (now < (c.circuits i).endTime ∨ (c.circuits i).endTime = -1)

/-- The circuit is the last one that has started. -/
def CircuitBuild.LastStarted (c : CircuitBuild n) (now : ℤ) (i : Fin n) : Prop :=
  (c.circuits i).startTime ≤ now ∧ ∀ j, i < j → now < (c.circuits j).startTime

/-- Start times that do not decrease, with the windows between them. -/
structure CircuitBuild.Windowed (c : CircuitBuild n) : Prop where
  nonneg : ∀ i, 0 ≤ (c.circuits i).startTime
  sorted : ∀ i j, i ≤ j → (c.circuits i).startTime ≤ (c.circuits j).startTime
  next : ∀ i j : Fin n, j.val = i.val + 1 → (c.circuits i).endTime = (c.circuits j).startTime
  last : ∀ i : Fin n, i.val + 1 = n → (c.circuits i).endTime = -1

/-- A new stream is attached to the last circuit that has started, if there is one. -/
structure CircuitBuild.PicksLast (c : CircuitBuild n) (now : ℤ) : Prop where
  attaches : c.bootstrapped = true → ∀ streamID, circuitBuildStreamEvent c streamID .new now =
    (c, [.attachStream streamID ((c.circuitAt now).elim 0 fun i => (c.circuits i).circID)])
  selects : ∀ i, c.circuitAt now = some i ↔ c.LastStarted now i
  unique : ∀ i j, c.InWindow now i → c.InWindow now j → i = j
  none : c.circuitAt now = none ↔ ∀ first : Fin n, first.val = 0 →
    now < (c.circuits first).startTime

/-- The window of a circuit contains the time exactly if the circuit is the last one that has
started. -/
theorem CircuitBuild.Windowed.inWindow_iff (h : c.Windowed) :
    c.InWindow now i ↔ c.LastStarted now i := by
  unfold CircuitBuild.InWindow CircuitBuild.LastStarted
  refine and_congr_right fun _ => ?_
  by_cases hlast : i.val + 1 = n
  · have hnone : ∀ j, ¬i < j := by
      intro j hj
      have hlt := j.isLt
      omega
    rw [h.last i hlast]
    simp [hnone]
  · have hlt : i.val + 1 < n := by
      have hi := i.isLt
      omega
    have hnext : (c.circuits i).endTime = (c.circuits ⟨i.val + 1, hlt⟩).startTime := by
      apply h.next
      simp
    have hclosed : (c.circuits i).endTime ≠ -1 := by
      have hnonneg := h.nonneg ⟨i.val + 1, hlt⟩
      omega
    rw [or_iff_left hclosed, hnext]
    constructor
    · intro hbefore j hj
      have hle : (⟨i.val + 1, hlt⟩ : Fin n) ≤ j := hj
      exact hbefore.trans_le (h.sorted _ _ hle)
    · intro hbefore
      exact hbefore _ (Nat.lt_succ_self i.val)

/-- At most one circuit is the last that has started. -/
theorem CircuitBuild.LastStarted.eq (hi : c.LastStarted now i) (hj : c.LastStarted now j) :
    i = j := by
  rcases lt_trichotomy i j with hlt | heq | hgt
  · exact absurd (hi.2 j hlt) (not_lt.mpr hj.1)
  · exact heq
  · exact absurd (hj.2 i hgt) (not_lt.mpr hi.1)

/-- If a circuit has started, one of them is the last. -/
theorem exists_lastStarted (hstarted : (c.circuits i).startTime ≤ now) :
    ∃ j, c.LastStarted now j := by
  obtain ⟨last, hlast, hmax⟩ :=
    (Finset.univ.filter fun i => (c.circuits i).startTime ≤ now).exists_max_image
    id ⟨i, by simpa using hstarted⟩
  refine ⟨last, by simpa using hlast, fun j hj => ?_⟩
  by_contra hnot
  exact absurd (hmax j (by simpa using hnot)) (not_le.mpr hj)

theorem circuitAt_eq_some (h : c.circuitAt now = some i) : c.InWindow now i := by
  have hwindow := List.find?_some h
  simpa [CircuitBuild.InWindow] using hwindow

/-- No circuit is picked when no window holds the time. -/
theorem circuitAt_eq_none : c.circuitAt now = none ↔ ∀ i, ¬c.InWindow now i := by
  unfold CircuitBuild.circuitAt
  rw [List.find?_eq_none]
  constructor
  · intro h i hi
    exact absurd (by simpa [CircuitBuild.InWindow] using hi) (h i (List.mem_finRange i))
  · intro h i _ hi
    exact h i (by simpa [CircuitBuild.InWindow] using hi)

/-- Windows in order pick the last circuit that was to start. -/
theorem CircuitBuild.Windowed.picksLast (h : c.Windowed) (now : ℤ) : c.PicksLast now where
  attaches := by
    intro hbootstrapped streamID
    unfold circuitBuildStreamEvent CircuitBuild.circuitAt
    rw [if_pos ⟨by simp, hbootstrapped⟩]
    split
    · rename_i i hat
      rw [hat, Option.elim_some]
    · rename_i hat
      rw [hat, Option.elim_none]
  selects := by
    intro i
    constructor
    · intro hat
      exact h.inWindow_iff.mp (circuitAt_eq_some hat)
    · intro hlast
      cases hat : c.circuitAt now with
      | none => exact absurd (h.inWindow_iff.mpr hlast) (circuitAt_eq_none.mp hat i)
      | some j =>
        have hj : c.LastStarted now j := h.inWindow_iff.mp (circuitAt_eq_some hat)
        rw [hj.eq hlast]
  unique := fun i j hi hj => (h.inWindow_iff.mp hi).eq (h.inWindow_iff.mp hj)
  none := by
    rw [circuitAt_eq_none]
    constructor
    · intro hnone first _
      by_contra hstarted
      obtain ⟨j, hj⟩ := exists_lastStarted (not_lt.mp hstarted)
      exact hnone j (h.inWindow_iff.mpr hj)
    · intro hbefore i hi
      have hpos : 0 < n := i.pos
      have hsorted := h.sorted ⟨0, hpos⟩ i (Nat.zero_le i.val)
      have hfirst := hbefore ⟨0, hpos⟩ (by simp)
      exact absurd hi.1 (by omega)

end Windows

/-! ## The times do not change -/

section SameTimes

variable {n : ℕ} {c c' : CircuitBuild n}

/-- The circuits have the same windows. -/
def SameTimes (c c' : CircuitBuild n) : Prop :=
  ∀ i, (c'.circuits i).startTime = (c.circuits i).startTime ∧
    (c'.circuits i).endTime = (c.circuits i).endTime

/-- The same circuits have the same times. -/
theorem SameTimes.of_eq (h : c'.circuits = c.circuits) : SameTimes c c' := by
  intro i
  rw [h]
  exact ⟨rfl, rfl⟩

theorem SameTimes.trans {c'' : CircuitBuild n} (h : SameTimes c c') (h' : SameTimes c' c'') :
    SameTimes c c'' :=
  fun i => ⟨(h' i).1.trans (h i).1, (h' i).2.trans (h i).2⟩

/-- The setup keeps the times. -/
theorem sameTimes_setup (c : CircuitBuild n) (sent : Bool) :
    SameTimes c (circuitBuildInitialize c sent).1.1 := by
  apply SameTimes.of_eq
  unfold circuitBuildInitialize setupCommand
  split
  · rfl
  · split <;> dsimp only <;> split <;> rfl

/-- An event of a circuit keeps the times. -/
theorem sameTimes_circEvent (c : CircuitBuild n) (circID : ℤ) (status : CircStatus) :
    SameTimes c (circuitBuildCircEvent c circID status).1 := by
  apply SameTimes.of_eq
  unfold circuitBuildCircEvent
  split
  · split <;> rfl
  · rfl

/-- An event of a stream keeps the times. -/
theorem sameTimes_streamEvent (c : CircuitBuild n) (streamID : ℤ) (status : StreamStatus)
    (now : ℤ) :
    SameTimes c (circuitBuildStreamEvent c streamID status now).1 := by
  apply SameTimes.of_eq
  unfold circuitBuildStreamEvent
  split
  · split <;> rfl
  · rfl

/-- An event of the status keeps the times. -/
theorem sameTimes_statusEvent (c : CircuitBuild n) (type : StatusType) (action : Bytes)
    (progress : Option Bytes) : SameTimes c (circuitBuildStatusEvent c type action progress).1 := by
  apply SameTimes.of_eq
  unfold circuitBuildStatusEvent
  split
  · split <;> rfl
  · rfl

/-- A circuit that gets its id keeps its window. -/
theorem sameTimes_update (c : CircuitBuild n) (i : Fin n) (circID : ℤ) :
    SameTimes c { c with
      circuits := Function.update c.circuits i { c.circuits i with circID := circID } } := by
  intro j
  by_cases hj : j = i
  · subst hj
    simp
  · simp [Function.update_of_ne hj]

/-- A success keeps the times. -/
theorem sameTimes_successEvent {userData : Option ℤ} {r : CircuitBuild n × List Command}
    (hstep : successEvent c userData = .ok r) : SameTimes c r.1 := by
  unfold successEvent at hstep
  split at hstep
  · obtain rfl := Except.ok.inj hstep
    exact SameTimes.of_eq rfl
  · obtain rfl := Except.ok.inj hstep
    exact SameTimes.of_eq rfl
  · obtain rfl := Except.ok.inj hstep
    exact SameTimes.of_eq rfl
  · split at hstep
    · obtain rfl := Except.ok.inj hstep
      exact SameTimes.of_eq rfl
    · split at hstep
      · split at hstep
        · cases hstep
        · obtain rfl := Except.ok.inj hstep
          exact SameTimes.of_eq rfl
      · obtain rfl := Except.ok.inj hstep
        exact SameTimes.of_eq rfl
  · split at hstep
    · obtain rfl := Except.ok.inj hstep
      exact SameTimes.of_eq rfl
    · rename_i circID
      split at hstep
      · cases hstep
      · rename_i i rest hqueue
        dsimp only at hstep
        split at hstep
        · obtain rfl := Except.ok.inj hstep
          exact sameTimes_update c i circID
        · obtain rfl := Except.ok.inj hstep
          exact sameTimes_update c i circID
  · obtain rfl := Except.ok.inj hstep
    exact SameTimes.of_eq rfl
  · obtain rfl := Except.ok.inj hstep
    exact SameTimes.of_eq rfl

/-- A response keeps the times. -/
theorem sameTimes_responseEvent {code : ℤ} {userData : Option ℤ} {sent : Bool}
    {r : CircuitBuild n × List Command}
    (hstep : circuitBuildResponseEvent c code userData sent = .ok r) :
    SameTimes c r.1 := by
  unfold circuitBuildResponseEvent at hstep
  split at hstep
  · cases hsuccess : successEvent c userData with
    | error fault => simp [hsuccess] at hstep
    | ok r' =>
      simp only [hsuccess] at hstep
      obtain rfl := Except.ok.inj hstep
      exact (sameTimes_successEvent hsuccess).trans (sameTimes_setup r'.1 sent)
  · obtain rfl := Except.ok.inj hstep
    exact SameTimes.of_eq rfl

/-- A reply keeps the times. -/
theorem sameTimes_processReply {reply : List (ReplyLine × Bool)} {r : CircuitBuild n × List Command}
    (hstep : processReply c reply = .ok r) : SameTimes c r.1 := by
  unfold processReply at hstep
  split at hstep
  · obtain rfl := Except.ok.inj hstep
    exact SameTimes.of_eq rfl
  · rename_i first _
    split at hstep
    · apply invariant_of_steps (fun s : CircuitBuild n × List Command => SameTimes c s.1) ?_ _ hstep
      · intro s line s' hs hline
        unfold processReplyLine at hline
        split at hline
        · cases hline
        · split at hline
          · cases hline
          · rename_i hresponse
            obtain rfl := Except.ok.inj hline
            have hsame := sameTimes_responseEvent hresponse
            exact hs.trans hsame
      · exact SameTimes.of_eq rfl
    · obtain rfl := Except.ok.inj hstep
      exact SameTimes.of_eq rfl

/-- Every event keeps the times. -/
theorem sameTimes_step {s t : BuildSession n} {e : BuildEvent} (hstep : s.step e = .ok t) :
    SameTimes s.builder t.builder := by
  have hanswered : ∀ {u : BuildSession n} {reply}, u.answered reply = .ok t →
      SameTimes u.builder t.builder := by
    intro u reply hanswer
    unfold BuildSession.answered at hanswer
    cases hreply : processReply u.builder reply with
    | error fault => simp [hreply] at hanswer
    | ok r =>
      simp only [hreply] at hanswer
      obtain rfl := Except.ok.inj hanswer
      exact sameTimes_processReply hreply
  cases e with
  | activate sent =>
    simp only [BuildSession.step] at hstep
    split at hstep
    · obtain rfl := Except.ok.inj hstep
      exact SameTimes.of_eq rfl
    · obtain rfl := Except.ok.inj hstep
      exact sameTimes_setup s.builder sent
  | extended id sent =>
    have hannounce : (s.announce id).builder = s.builder := by
      unfold BuildSession.announce
      split <;> rfl
    rw [← hannounce]
    exact hanswered hstep
  | reply lines => exact hanswered hstep
  | circ circID status =>
    obtain rfl := Except.ok.inj hstep
    exact sameTimes_circEvent s.builder circID status
  | stream streamID status now =>
    obtain rfl := Except.ok.inj hstep
    exact sameTimes_streamEvent s.builder streamID status now
  | status type action progress =>
    obtain rfl := Except.ok.inj hstep
    exact sameTimes_statusEvent s.builder type action progress
  | other =>
    obtain rfl := Except.ok.inj hstep
    exact SameTimes.of_eq rfl

/-- In every session the circuits keep the times that they were given. -/
theorem sameTimes_run {s t : BuildSession n} {events : List BuildEvent}
    (hrun : runSteps BuildSession.step s events = .ok t) : SameTimes s.builder t.builder :=
  invariant_of_steps (fun u => SameTimes s.builder u.builder)
    (fun _ _ _ hs hstep => hs.trans (sameTimes_step hstep)) (SameTimes.of_eq rfl) hrun

/-- Windows in order depend on the times only. -/
theorem CircuitBuild.Windowed.congr (h : c.Windowed) (hsame : SameTimes c c') : c'.Windowed where
  nonneg := by
    intro i
    rw [(hsame i).1]
    exact h.nonneg i
  sorted := by
    intro i j hij
    rw [(hsame i).1, (hsame j).1]
    exact h.sorted i j hij
  next := by
    intro i j hij
    rw [(hsame i).2, (hsame j).1]
    exact h.next i j hij
  last := by
    intro i hi
    rw [(hsame i).2]
    exact h.last i hi

end SameTimes

/-! ## Circuits from arguments -/

/-- The start times of the arguments are not negative and do not decrease. -/
structure InOrder (args : List Bytes) : Prop where
  nonneg : ∀ arg ∈ args, 0 ≤ (Circuit.ofArg arg).startTime
  sorted : args.Pairwise fun a b => (Circuit.ofArg a).startTime ≤ (Circuit.ofArg b).startTime

/-- The circuits have windows from the arguments. -/
theorem InOrder.windowed {args : List Bytes} (h : InOrder args) :
    (torControlCircuitBuildNew args).Windowed where
  nonneg := fun i => h.nonneg _ (List.getElem_mem i.isLt)
  sorted := by
    intro i j hij
    rcases Nat.lt_or_eq_of_le (show i.val ≤ j.val from hij) with hlt | heq
    · exact List.pairwise_iff_getElem.mp h.sorted i.val j.val i.isLt j.isLt hlt
    · rw [Fin.ext heq]
  next := by
    intro i j hij
    have hbehind : args[i.val + 1]? = some args[j] := by
      rw [← hij]
      exact List.getElem?_eq_getElem j.isLt
    simp only [torControlCircuitBuildNew, hbehind]
  last := by
    intro i hi
    have hbehind : args[i.val + 1]? = none := List.getElem?_eq_none hi.ge
    simp only [torControlCircuitBuildNew, hbehind]

/-- In every session with circuits from ordered arguments, a new stream is attached to the last
circuit that has started. -/
theorem picksLast_of_inOrder {args : List Bytes} (h : InOrder args) {events : List BuildEvent}
    {s : BuildSession args.length}
    (hrun : runSteps BuildSession.step (BuildSession.new args) events = .ok s)
    (now : ℤ) : s.builder.PicksLast now :=
  (h.windowed.congr (sameTimes_run hrun)).picksLast now

/-- Two circuits from the start, and one after a minute. -/
def threeCircuits : List Bytes := [ascii "0:a,b,c", ascii "d,e,f", ascii "60:g,h,i"]

/-- Three circuits, and a time at the start of the last one. -/
theorem picksLast_of_inOrder_threeCircuits :
    ∃ s : BuildSession threeCircuits.length, s.builder.bootstrapped = true ∧
    s.builder.PicksLast 30 := by
  have horder : InOrder threeCircuits := by
    constructor
    · decide +kernel
    · decide +kernel
  obtain ⟨s, hrun, hbootstrapped⟩ : ∃ s,
      runSteps BuildSession.step (BuildSession.new threeCircuits)
        [.status .client (ascii "BOOTSTRAP") (some (ascii "100"))] = .ok s ∧
      s.builder.bootstrapped = true := ⟨_, by rfl, by rfl⟩
  exact ⟨s, hbootstrapped, picksLast_of_inOrder horder hrun 30⟩

end ShadowExtras.TorControl
