import ShadowExtras.Foundation.Run

/-!
# Runs that come to an end

A measure that every step makes smaller until the state is final bounds the number of steps.
-/

namespace Foundation

variable {σ ε φ : Type*} {step : σ → ε → Except φ σ} {P : σ → ε → Prop} {s : σ} {es : List ε}

/-- The rule for reaching a final state: when every step that meets `P` succeeds, keeps the
invariant, stays in the final states, and from any other state leads to a final one or makes the
measure smaller, every run of more steps than the measure ends in a final state. -/
theorem final_of_measure (Inv Final : σ → Prop) (measure : σ → ℕ)
    (hstep : ∀ s e, Inv s → P s e → ∃ s', step s e = .ok s' ∧ Inv s' ∧ (Final s → Final s') ∧
      (Final s' ∨ measure s' < measure s))
    (hs : Inv s) (hP : StepsMeet step P s es) (hlength : measure s < es.length) :
    ∃ t, runSteps step s es = .ok t ∧ Inv t ∧ Final t := by
  induction es generalizing s with
  | nil => simp at hlength
  | cons e es ih =>
    obtain ⟨s', hs', hinv, -, hfinal | hless⟩ := hstep s e hs hP.1
    · -- a final state is not left
      obtain ⟨t, ht, hinvt, hfinalt⟩ := runSteps_ok_of_stepsMeet (fun s => Inv s ∧ Final s)
        (fun s e hs hP => by
          obtain ⟨s', hs', hinv, hstays, -⟩ := hstep s e hs.1 hP
          exact ⟨s', hs', hinv, hstays hs.2⟩) ⟨hinv, hfinal⟩ (hP.2 s' hs')
      exact ⟨t, by rw [runSteps_cons_of_ok hs', ht], hinvt, hfinalt⟩
    · rw [List.length_cons] at hlength
      obtain ⟨t, ht, hend⟩ := ih hinv (hP.2 s' hs') (by omega)
      exact ⟨t, by rw [runSteps_cons_of_ok hs', ht], hend⟩

end Foundation
