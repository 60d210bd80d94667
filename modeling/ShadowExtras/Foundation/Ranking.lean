import Mathlib.Order.WellFounded
import ShadowExtras.Foundation.Run

/-!
# Runs that end

A machine that takes step after step comes to an end when a measure in a well-founded order
decreases with every step. The events are an infinite sequence here; `firstEvents` are the finite
runs it begins with.
-/

namespace Foundation

variable {σ ε φ : Type*} {step : σ → ε → Except φ σ} {P : σ → ε → Prop} {s s' t : σ} {f : φ}

/-- The first `n` events of a sequence. -/
def firstEvents (es : ℕ → ε) (n : ℕ) : List ε := (List.range n).map es

@[simp] theorem firstEvents_zero (es : ℕ → ε) : firstEvents es 0 = [] := by simp [firstEvents]

/-- One event more is taken from the front. -/
theorem firstEvents_succ (es : ℕ → ε) (n : ℕ) :
    firstEvents es (n + 1) = es 0 :: firstEvents (fun k => es (k + 1)) n := by
  simp [firstEvents, List.range_succ_eq_map, Function.comp_def]

/-- The first events, and those that follow them. -/
theorem firstEvents_add (es : ℕ → ε) (k n : ℕ) :
    firstEvents es (k + n) = firstEvents es k ++ firstEvents (fun i => es (k + i)) n := by
  simp [firstEvents, List.range_add, Function.comp_def]

/-- The sequence that begins with a finite run begins with each beginning of the run. -/
theorem firstEvents_getD {es : List ε} {n : ℕ} (hn : n ≤ es.length) (e : ε) :
    firstEvents (fun k => es.getD k e) n = es.take n := by
  apply List.ext_getElem
  · simpa [firstEvents] using hn
  · intro i hi _
    have hin : i < es.length := by
      simp only [firstEvents, List.length_map, List.length_range] at hi
      omega
    simp [firstEvents, hin]

/-- The ranking rule: when, under an invariant, every step that is taken before the machine is done
decreases a measure, a state is reached in which the machine is done or its next step faults. -/
theorem exists_done_of_decreases {α : Type*} [Preorder α] [WellFoundedLT α] (μ : σ → α)
    (Inv Done : σ → Prop)
    (hstep : ∀ s e s', Inv s → ¬Done s → P s e → step s e = .ok s' → Inv s' ∧ μ s' < μ s)
    {es : ℕ → ε} (hs : Inv s)
    (hP : ∀ n t, runSteps step s (firstEvents es n) = .ok t → ¬Done t → P t (es n)) :
    ∃ n t, runSteps step s (firstEvents es n) = .ok t ∧ Inv t ∧
      (Done t ∨ ¬Done t ∧ ∃ f, step t (es n) = .error f) := by
  induction hμ : μ s using WellFoundedLT.induction generalizing s es with
  | ind a ih =>
    subst hμ
    by_cases hdone : Done s
    · exact ⟨0, s, by simp, hs, .inl hdone⟩
    · have hfirst : P s (es 0) := hP 0 s (by simp) hdone
      cases he : step s (es 0) with
      | error f => exact ⟨0, s, by simp, hs, .inr ⟨hdone, f, he⟩⟩
      | ok s' =>
        obtain ⟨hs', hless⟩ := hstep s (es 0) s' hs hdone hfirst he
        have hrest : ∀ n t, runSteps step s' (firstEvents (fun k => es (k + 1)) n) = .ok t →
            ¬Done t →
            P t (es (n + 1)) := by
          intro n t hrun hnot
          apply hP (n + 1) t _ hnot
          rw [firstEvents_succ, runSteps_cons_of_ok he, hrun]
        obtain ⟨n, t, hrun, ht⟩ := ih (μ s') hless hs' hrest rfl
        refine ⟨n + 1, t, ?_, ht⟩
        rw [firstEvents_succ, runSteps_cons_of_ok he]
        exact hrun

end Foundation
