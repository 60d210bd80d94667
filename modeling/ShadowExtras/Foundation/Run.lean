import Mathlib.Data.List.Basic
import Mathlib.Tactic.Common

/-!
# Runs of a state machine

A machine is a step function `σ → ε → Except φ σ`: from a state and an event to the next state or
to a fault (a failed assertion, an access outside a buffer). A run folds the step function over a
list of events and stops at the first fault.

Properties of runs come in the two shapes that code with a known defect needs. An invariant that
every step keeps holds after every run. An invariant that a step keeps only when a condition on
the state and the event holds is kept along every run *all of whose steps meet the condition*:
`StepsMeet` says that, and `invariant_of_stepsMeet` is the induction.
-/

namespace Foundation

variable {σ ε φ : Type*} (step : σ → ε → Except φ σ) (P : σ → ε → Prop)

/-- Fold the step function over the events, stopping at the first fault. -/
def runSteps (s : σ) : List ε → Except φ σ
  | [] => .ok s
  | e :: es => match step s e with
    | .ok s' => runSteps s' es
    | .error f => .error f

/-- Every step of the run meets the condition `P` in the state it is taken from. -/
def StepsMeet (s : σ) : List ε → Prop
  | [] => True
  | e :: es => P s e ∧ ∀ s', step s e = .ok s' → StepsMeet s' es

variable {step P} {s s' t : σ} {e : ε} {es fs : List ε} {f : φ}

@[simp] theorem runSteps_nil : runSteps step s [] = .ok s := rfl

@[simp] theorem stepsMeet_nil : StepsMeet step P s [] := trivial

theorem runSteps_cons_of_ok (h : step s e = .ok s') :
    runSteps step s (e :: es) = runSteps step s' es := by
  simp [runSteps, h]

theorem runSteps_cons_of_error (h : step s e = .error f) :
    runSteps step s (e :: es) = .error f := by
  simp [runSteps, h]

/-- A run that succeeds begins with a step that succeeds. -/
theorem runSteps_cons_eq_ok :
    runSteps step s (e :: es) = .ok t ↔ ∃ s', step s e = .ok s' ∧ runSteps step s' es = .ok t := by
  cases h : step s e with
  | error f => simp [runSteps_cons_of_error h]
  | ok s' => simp [runSteps_cons_of_ok h]

/-- Two runs one after the other. -/
theorem runSteps_append :
    runSteps step s (es ++ fs) = .ok t ↔
      ∃ s', runSteps step s es = .ok s' ∧ runSteps step s' fs = .ok t := by
  induction es generalizing s with
  | nil => simp
  | cons e es ih =>
    simp only [List.cons_append, runSteps_cons_eq_ok, ih]
    constructor
    · rintro ⟨u, hu, s', hs', ht⟩
      exact ⟨s', ⟨u, hu, hs'⟩, ht⟩
    · rintro ⟨s', ⟨u, hu, hs'⟩, ht⟩
      exact ⟨u, hu, s', hs', ht⟩

/-- A run that goes on where another one ended. -/
theorem runSteps_append_of_ok (h : runSteps step s es = .ok s') :
    runSteps step s (es ++ fs) = runSteps step s' fs := by
  induction es generalizing s with
  | nil =>
    obtain rfl : s = s' := by simpa using h
    rfl
  | cons e es ih =>
    obtain ⟨u, hu, hrest⟩ := runSteps_cons_eq_ok.mp h
    rw [List.cons_append, runSteps_cons_of_ok hu, ih hrest]

/-- A map of states that commutes with every step commutes with every run. -/
theorem runSteps_map {g : σ → σ} (hg : ∀ s e, step (g s) e = (step s e).map g) (s : σ)
    (es : List ε) : runSteps step (g s) es = (runSteps step s es).map g := by
  induction es generalizing s with
  | nil => rfl
  | cons e es ih =>
    cases h : step s e with
    | error f =>
      rw [runSteps_cons_of_error h, runSteps_cons_of_error (by rw [hg, h]; rfl)]
      rfl
    | ok s' =>
      have hgs : step (g s) e = .ok (g s') := by rw [hg, h]; rfl
      rw [runSteps_cons_of_ok h, runSteps_cons_of_ok hgs, ih]

/-- Meeting a condition along a run whose first step succeeds. -/
theorem stepsMeet_cons_of_ok (h : step s e = .ok s') :
    StepsMeet step P s (e :: es) ↔ P s e ∧ StepsMeet step P s' es := by
  simp [StepsMeet, h]

/-- Meeting a condition along a run whose first step faults. -/
theorem stepsMeet_cons_of_error (h : step s e = .error f) :
    StepsMeet step P s (e :: es) ↔ P s e := by
  simp [StepsMeet, h]

instance decidableStepsMeet [∀ s e, Decidable (P s e)] :
    ∀ s es, Decidable (StepsMeet step P s es)
  | _, [] => isTrue trivial
  | s, e :: es =>
    match h : step s e with
    | .ok s' =>
      have := decidableStepsMeet s' es
      decidable_of_iff _ (stepsMeet_cons_of_ok h).symm
    | .error _ => decidable_of_iff _ (stepsMeet_cons_of_error h).symm

/-- Every initial part of a run whose steps meet a condition does so too. -/
theorem StepsMeet.of_append (h : StepsMeet step P s (es ++ fs)) : StepsMeet step P s es := by
  induction es generalizing s with
  | nil => trivial
  | cons e es ih => exact ⟨h.1, fun s' hs' => ih (h.2 s' hs')⟩

/-- The rest of a run whose steps meet a condition does so too. -/
theorem StepsMeet.of_append_of_ok (h : StepsMeet step P s (es ++ fs))
    (hrun : runSteps step s es = .ok s') : StepsMeet step P s' fs := by
  induction es generalizing s with
  | nil =>
    obtain rfl : s = s' := by simpa using hrun
    exact h
  | cons e es ih =>
    obtain ⟨u, hu, hrest⟩ := runSteps_cons_eq_ok.mp hrun
    exact ih (h.2 u hu) hrest

/-- Weaken the condition that the steps meet. -/
theorem StepsMeet.imp {Q : σ → ε → Prop} (h : StepsMeet step P s es)
    (hPQ : ∀ s, ∀ e ∈ es, P s e → Q s e) : StepsMeet step Q s es := by
  induction es generalizing s with
  | nil => trivial
  | cons e es ih =>
    exact ⟨hPQ s e (by simp) h.1, fun s' hs' =>
      ih (h.2 s' hs') fun u f hf => hPQ u f (by simp [hf])⟩

/-- Two conditions that the steps meet. -/
theorem StepsMeet.and {Q : σ → ε → Prop} (hP : StepsMeet step P s es) (hQ : StepsMeet step Q s es) :
    StepsMeet step (fun s e => P s e ∧ Q s e) s es := by
  induction es generalizing s with
  | nil => trivial
  | cons e es ih => exact ⟨⟨hP.1, hQ.1⟩, fun s' hs' => ih (hP.2 s' hs') (hQ.2 s' hs')⟩

/-- A condition that the events meet in every state. -/
theorem stepsMeet_of_forall_mem (h : ∀ s, ∀ e ∈ es, P s e) : StepsMeet step P s es := by
  induction es generalizing s with
  | nil => trivial
  | cons e es ih =>
    exact ⟨h s e (by simp), fun s' _ => ih fun u f hf => h u f (by simp [hf])⟩

/-- Two conditions that agree wherever an invariant holds that they keep are met along the same
runs. -/
theorem stepsMeet_iff_stepsMeet {Q : σ → ε → Prop} (Inv : σ → Prop)
    (hiff : ∀ s e, Inv s → (P s e ↔ Q s e))
    (hstep : ∀ s e s', Inv s → Q s e → step s e = .ok s' → Inv s') (hs : Inv s) :
    StepsMeet step P s es ↔ StepsMeet step Q s es := by
  induction es generalizing s with
  | nil => exact Iff.rfl
  | cons e es ih =>
    constructor
    · rintro ⟨hP, hrest⟩
      have hQ : Q s e := (hiff s e hs).mp hP
      exact ⟨hQ, fun s' hs' => (ih (hstep s e s' hs hQ hs')).mp (hrest s' hs')⟩
    · rintro ⟨hQ, hrest⟩
      exact ⟨(hiff s e hs).mpr hQ, fun s' hs' => (ih (hstep s e s' hs hQ hs')).mpr (hrest s' hs')⟩

/-- The invariant rule: what every step that meets `P` keeps, holds after every run all of whose
steps meet `P`. -/
theorem invariant_of_stepsMeet (Inv : σ → Prop)
    (hstep : ∀ s e s', Inv s → P s e → step s e = .ok s' → Inv s')
    (hs : Inv s) (hP : StepsMeet step P s es) (hrun : runSteps step s es = .ok t) : Inv t := by
  induction es generalizing s with
  | nil =>
    obtain rfl : s = t := by simpa using hrun
    exact hs
  | cons e es ih =>
    obtain ⟨s', hs', hrest⟩ := runSteps_cons_eq_ok.mp hrun
    exact ih (hstep s e s' hs hP.1 hs') (hP.2 s' hs') hrest

/-- The invariant rule without a condition. -/
theorem invariant_of_steps (Inv : σ → Prop)
    (hstep : ∀ s e s', Inv s → step s e = .ok s' → Inv s')
    (hs : Inv s) (hrun : runSteps step s es = .ok t) : Inv t := by
  induction es generalizing s with
  | nil =>
    obtain rfl : s = t := by simpa using hrun
    exact hs
  | cons e es ih =>
    obtain ⟨s', hs', hrest⟩ := runSteps_cons_eq_ok.mp hrun
    exact ih (hstep s e s' hs hs') hrest

/-- The rule for faults: what every fault of a step that meets `P` satisfies under the invariant,
the fault of a run all of whose steps meet `P` satisfies. -/
theorem fault_of_stepsMeet (Inv : σ → Prop) (Q : φ → Prop)
    (hstep : ∀ s e s', Inv s → P s e → step s e = .ok s' → Inv s')
    (hfault : ∀ s e f, Inv s → P s e → step s e = .error f → Q f)
    (hs : Inv s) (hP : StepsMeet step P s es) (hrun : runSteps step s es = .error f) : Q f := by
  induction es generalizing s with
  | nil => simp at hrun
  | cons e es ih =>
    cases he : step s e with
    | error g =>
      rw [runSteps_cons_of_error he] at hrun
      obtain rfl := Except.error.inj hrun
      exact hfault s e g hs hP.1 he
    | ok s' =>
      rw [runSteps_cons_of_ok he] at hrun
      exact ih (hstep s e s' hs hP.1 he) (hP.2 s' he) hrun

/-- The rule for an exact condition of faults: when under an invariant a step that meets `P` has a
fault at most that is allowed, and any other step has one that is not, a run has at most an allowed
fault just if all its steps meet `P`. -/
theorem forall_fault_iff_stepsMeet (Inv : σ → Prop) (Q : φ → Prop)
    (hstep : ∀ s e s', Inv s → P s e → step s e = .ok s' → Inv s')
    (hfault : ∀ s e f, Inv s → P s e → step s e = .error f → Q f)
    (hbad : ∀ s e, Inv s → ¬P s e → ∃ f, step s e = .error f ∧ ¬Q f) (hs : Inv s) :
    (∀ f, runSteps step s es = .error f → Q f) ↔ StepsMeet step P s es := by
  constructor
  · intro h
    induction es generalizing s with
    | nil => trivial
    | cons e es ih =>
      have hP : P s e := by
        by_contra hP
        obtain ⟨f, hf, hnot⟩ := hbad s e hs hP
        exact hnot (h f (runSteps_cons_of_error hf))
      refine ⟨hP, fun s' hs' => ih (hstep s e s' hs hP hs') fun f hf => h f ?_⟩
      rw [runSteps_cons_of_ok hs', hf]
  · intro hP f hf
    exact fault_of_stepsMeet Inv Q hstep hfault hs hP hf

/-- The progress rule: when no step that meets `P` faults under the invariant, no run all of whose
steps meet `P` faults. -/
theorem runSteps_ok_of_stepsMeet (Inv : σ → Prop)
    (hstep : ∀ s e, Inv s → P s e → ∃ s', step s e = .ok s' ∧ Inv s')
    (hs : Inv s) (hP : StepsMeet step P s es) : ∃ t, runSteps step s es = .ok t ∧ Inv t := by
  induction es generalizing s with
  | nil => exact ⟨s, rfl, hs⟩
  | cons e es ih =>
    obtain ⟨s', hs', hinv⟩ := hstep s e hs hP.1
    obtain ⟨t, ht, hinvt⟩ := ih hinv (hP.2 s' hs')
    exact ⟨t, by rw [runSteps_cons_of_ok hs', ht], hinvt⟩

/-- The states that a run goes through, its first state included. -/
def Visits (step : σ → ε → Except φ σ) (s : σ) (es : List ε) (t : σ) : Prop :=
  ∃ fs, fs <+: es ∧ runSteps step s fs = .ok t

theorem visits_self : Visits step s es s := ⟨[], List.nil_prefix, rfl⟩

/-- A run visits its first state and those after the first step. -/
theorem visits_cons_of_ok (h : step s e = .ok s') :
    Visits step s (e :: es) t ↔ t = s ∨ Visits step s' es t := by
  constructor
  · rintro ⟨fs, hfs, hrun⟩
    cases fs with
    | nil => exact .inl (by simpa using hrun.symm)
    | cons f fs =>
      obtain ⟨rfl, htail⟩ := List.cons_prefix_cons.mp hfs
      rw [runSteps_cons_of_ok h] at hrun
      exact .inr ⟨fs, htail, hrun⟩
  · rintro (rfl | ⟨fs, hfs, hrun⟩)
    · exact visits_self
    · refine ⟨e :: fs, List.cons_prefix_cons.mpr ⟨rfl, hfs⟩, ?_⟩
      rw [runSteps_cons_of_ok h, hrun]

/-- The run takes the event `e` in the state `t`. -/
def Takes (step : σ → ε → Except φ σ) (s : σ) (es : List ε) (t : σ) (e : ε) : Prop :=
  ∃ fs gs, es = fs ++ e :: gs ∧ runSteps step s fs = .ok t

/-- The steps of a run meet what holds at the moments at which it takes its events. -/
theorem stepsMeet_of_forall_takes (h : ∀ t e, Takes step s es t e → P t e) :
    StepsMeet step P s es := by
  induction es generalizing s with
  | nil => trivial
  | cons e es ih =>
    refine ⟨h s e ⟨[], es, rfl, rfl⟩, fun s' hs' => ih fun t f htakes => ?_⟩
    obtain ⟨fs, gs, rfl, hrun⟩ := htakes
    exact h t f ⟨e :: fs, gs, rfl, by rw [runSteps_cons_of_ok hs', hrun]⟩

/-- The rule for the moments at which a run takes its events, those of the last event included: what
an event that meets `P` satisfies under the invariant. -/
theorem of_takes_of_stepsMeet (Inv : σ → Prop) (Q : σ → ε → Prop)
    (hstep : ∀ s e s', Inv s → P s e → step s e = .ok s' → Inv s')
    (hgood : ∀ s e, Inv s → P s e → Q s e)
    (hs : Inv s) (hP : StepsMeet step P s es) (htakes : Takes step s es t e) : Q t e := by
  obtain ⟨fs, gs, rfl, hrun⟩ := htakes
  induction fs generalizing s with
  | nil =>
    obtain rfl : s = t := by simpa using hrun
    exact hgood s e hs hP.1
  | cons f fs ih =>
    obtain ⟨s', hs', hrest⟩ := runSteps_cons_eq_ok.mp hrun
    exact ih (hstep s f s' hs hP.1 hs') hrest (hP.2 s' hs')

/-- The rule for an exact condition: when under an invariant a step from a good state leads to a
good state just if it meets `P`, a run stays among the good states just if all its steps meet
`P`. -/
theorem forall_visits_iff_stepsMeet (Inv Good : σ → Prop)
    (hinv : ∀ s e s', Inv s → step s e = .ok s' → Inv s')
    (hgood : ∀ s e s', Inv s → Good s → step s e = .ok s' → (Good s' ↔ P s e))
    (hs : Inv s) (hg : Good s) (hrun : runSteps step s es = .ok t) :
    (∀ u, Visits step s es u → Good u) ↔ StepsMeet step P s es := by
  induction es generalizing s with
  | nil =>
    simp only [stepsMeet_nil, iff_true]
    rintro u ⟨fs, hfs, hu⟩
    obtain rfl := List.prefix_nil.mp hfs
    obtain rfl : s = u := by simpa using hu
    exact hg
  | cons e es ih =>
    obtain ⟨s', hs', hrest⟩ := runSteps_cons_eq_ok.mp hrun
    rw [stepsMeet_cons_of_ok hs']
    simp only [visits_cons_of_ok hs']
    constructor
    · intro h
      have hg' : Good s' := h s' (.inr visits_self)
      exact ⟨(hgood s e s' hs hg hs').mp hg',
        (ih (hinv s e s' hs hs') hg' hrest).mp fun u hu => h u (.inr hu)⟩
    · rintro ⟨hP, hmeet⟩ u (rfl | hu)
      · exact hg
      · have hg' : Good s' := (hgood s e s' hs hg hs').mpr hP
        exact (ih (hinv s e s' hs hs') hg' hrest).mpr hmeet u hu

/-- The rule for an exact condition that carries the invariant: when a step that meets `P` keeps the
invariant and any other step that meets `Q` leaves the good states, a run whose steps meet `Q` stays
among the good states just if they all meet `P`. -/
theorem forall_visits_iff_stepsMeet_within {Q : σ → ε → Prop} (Inv Good : σ → Prop)
    (hgood : ∀ s, Inv s → Good s)
    (hinv : ∀ s e s', Inv s → P s e → step s e = .ok s' → Inv s')
    (hbad : ∀ s e s', Inv s → Q s e → ¬P s e → step s e = .ok s' → ¬Good s')
    (hs : Inv s) (hQ : StepsMeet step Q s es) (hrun : runSteps step s es = .ok t) :
    (∀ u, Visits step s es u → Good u) ↔ StepsMeet step P s es := by
  induction es generalizing s with
  | nil =>
    simp only [stepsMeet_nil, iff_true]
    rintro u ⟨fs, hfs, hu⟩
    obtain rfl := List.prefix_nil.mp hfs
    obtain rfl : s = u := by simpa using hu
    exact hgood s hs
  | cons e es ih =>
    obtain ⟨s', hs', hrest⟩ := runSteps_cons_eq_ok.mp hrun
    obtain ⟨hQe, hQes⟩ := (stepsMeet_cons_of_ok hs').mp hQ
    rw [stepsMeet_cons_of_ok hs']
    simp only [visits_cons_of_ok hs']
    constructor
    · intro h
      have hP : P s e := by
        by_contra hP
        exact hbad s e s' hs hQe hP hs' (h s' (.inr visits_self))
      exact ⟨hP, (ih (hinv s e s' hs hP hs') hQes hrest).mp fun u hu => h u (.inr hu)⟩
    · rintro ⟨hP, hmeet⟩ u (rfl | hu)
      · exact hgood u hs
      · exact (ih (hinv s e s' hs hP hs') hQes hrest).mpr hmeet u hu

/-- The rule for an exact condition that carries the invariant, for all runs. -/
theorem forall_visits_iff_stepsMeet_of_inv (Inv Good : σ → Prop)
    (hgood : ∀ s, Inv s → Good s)
    (hinv : ∀ s e s', Inv s → P s e → step s e = .ok s' → Inv s')
    (hbad : ∀ s e s', Inv s → ¬P s e → step s e = .ok s' → ¬Good s')
    (hs : Inv s) (hrun : runSteps step s es = .ok t) :
    (∀ u, Visits step s es u → Good u) ↔ StepsMeet step P s es :=
  forall_visits_iff_stepsMeet_within (Q := fun _ _ => True) Inv Good hgood hinv
    (fun s e s' hs _ hP hstep => hbad s e s' hs hP hstep) hs
    (stepsMeet_of_forall_mem fun _ _ _ => trivial) hrun

/-- A run whose first step faults visits its first state only. -/
theorem visits_cons_of_error (h : step s e = .error f) : Visits step s (e :: es) t ↔ t = s := by
  constructor
  · rintro ⟨fs, hfs, hrun⟩
    cases fs with
    | nil => simpa using hrun.symm
    | cons e' fs =>
      obtain ⟨rfl, -⟩ := List.cons_prefix_cons.mp hfs
      rw [runSteps_cons_of_error h] at hrun
      simp at hrun
  · rintro rfl
    exact visits_self

/-- The rule for an exact condition of runs that may end in a fault: when a step that meets `P`
keeps the invariant and any other step succeeds and leaves the good states, a run stays among the
good states just if all its steps meet `P`. -/
theorem forall_visits_iff_stepsMeet_of_leaves (Inv Good : σ → Prop)
    (hgood : ∀ s, Inv s → Good s)
    (hinv : ∀ s e s', Inv s → P s e → step s e = .ok s' → Inv s')
    (hbad : ∀ s e, Inv s → ¬P s e → ∃ s', step s e = .ok s' ∧ ¬Good s') (hs : Inv s) :
    (∀ u, Visits step s es u → Good u) ↔ StepsMeet step P s es := by
  induction es generalizing s with
  | nil =>
    simp only [stepsMeet_nil, iff_true]
    rintro u ⟨fs, hfs, hu⟩
    obtain rfl := List.prefix_nil.mp hfs
    obtain rfl : s = u := by simpa using hu
    exact hgood s hs
  | cons e es ih =>
    constructor
    · intro h
      have hP : P s e := by
        by_contra hP
        obtain ⟨s', hs', hnot⟩ := hbad s e hs hP
        exact hnot (h s' ((visits_cons_of_ok hs').mpr (.inr visits_self)))
      refine ⟨hP, fun s' hs' => (ih (hinv s e s' hs hP hs')).mp fun u hu => ?_⟩
      exact h u ((visits_cons_of_ok hs').mpr (.inr hu))
    · rintro ⟨hP, hmeet⟩ u hu
      cases he : step s e with
      | error f =>
        rw [visits_cons_of_error he] at hu
        exact hu ▸ hgood s hs
      | ok s' =>
        rcases (visits_cons_of_ok he).mp hu with rfl | hu
        · exact hgood u hs
        · exact (ih (hinv s e s' hs hP he)).mpr (hmeet s' he) u hu

/-- The rule for an exact condition of runs that must not fault: when a step that meets `P` succeeds
and keeps the invariant, and any other step faults or leaves the good states, every initial part of
a run succeeds in a good state just if all steps meet `P`. -/
theorem forall_prefix_ok_iff_stepsMeet (Inv Good : σ → Prop)
    (hgood : ∀ s, Inv s → Good s)
    (hinv : ∀ s e, Inv s → P s e → ∃ s', step s e = .ok s' ∧ Inv s')
    (hbad : ∀ s e s', Inv s → ¬P s e → step s e = .ok s' → ¬Good s') (hs : Inv s) :
    (∀ fs, fs <+: es → ∃ t, runSteps step s fs = .ok t ∧ Good t) ↔ StepsMeet step P s es := by
  induction es generalizing s with
  | nil =>
    simp only [stepsMeet_nil, iff_true]
    intro fs hfs
    obtain rfl := List.prefix_nil.mp hfs
    exact ⟨s, rfl, hgood s hs⟩
  | cons e es ih =>
    constructor
    · intro h
      have hP : P s e := by
        by_contra hP
        obtain ⟨t, ht, hgt⟩ := h [e] (List.cons_prefix_cons.mpr ⟨rfl, List.nil_prefix⟩)
        obtain ⟨s', hs', hrest⟩ := runSteps_cons_eq_ok.mp ht
        obtain rfl : s' = t := by simpa using hrest
        exact hbad s e s' hs hP hs' hgt
      refine ⟨hP, fun s' hs' => ?_⟩
      obtain ⟨u, hu, hinvu⟩ := hinv s e hs hP
      obtain rfl := Except.ok.inj (hu.symm.trans hs')
      refine (ih hinvu).mp fun fs hfs => ?_
      obtain ⟨t, ht, hgt⟩ := h (e :: fs) (List.cons_prefix_cons.mpr ⟨rfl, hfs⟩)
      rw [runSteps_cons_of_ok hs'] at ht
      exact ⟨t, ht, hgt⟩
    · rintro ⟨hP, hmeet⟩ fs hfs
      cases fs with
      | nil => exact ⟨s, rfl, hgood s hs⟩
      | cons f fs =>
        obtain ⟨rfl, htail⟩ := List.cons_prefix_cons.mp hfs
        obtain ⟨s', hs', hinv'⟩ := hinv s f hs hP
        rw [runSteps_cons_of_ok hs']
        exact (ih hinv').mpr (hmeet s' hs') fs htail

end Foundation
