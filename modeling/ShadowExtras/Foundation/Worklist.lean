import Mathlib.Data.List.Basic
import Mathlib.Tactic.Common

/-!
# Loops over a list that grows

The loop `for(int i = 0; i < length(list); i++) visit(nth(list, i))`, whose body may append to the
list that the loop walks over. `walk` runs it for a limited number of rounds and has no result when
they do not suffice; it has at most one result (`walk_unique`).

The rule `walk_finishes` says what it ends in. It asks for an invariant with the position of the
loop, and for a cost that pays for everything that is appended; what the list and the cost add up to
bounds the rounds.
-/

namespace Foundation

variable {σ α : Type*} {items : σ → List α} {visit : α → σ → σ} {rounds i : ℕ} {s t : σ}

/-- The loop from the position `i` on, for so many rounds at most. -/
def walk (items : σ → List α) (visit : α → σ → σ) : ℕ → ℕ → σ → Option σ
  | 0, _, _ => none
  | rounds + 1, i, s =>
    match (items s)[i]? with
    | some a => walk items visit rounds (i + 1) (visit a s)
    | none => some s

/-- The loop is left behind the end of the list. -/
theorem walk_of_le (h : (items s).length ≤ i) : walk items visit (rounds + 1) i s = some s := by
  rw [walk, List.getElem?_eq_none h]

/-- One round. -/
theorem walk_of_getElem? {a : α} (h : (items s)[i]? = some a) :
    walk items visit (rounds + 1) i s = walk items visit rounds (i + 1) (visit a s) := by
  rw [walk, h]

/-- More rounds than are needed change nothing. -/
theorem walk_mono (h : walk items visit rounds i s = some t) {more : ℕ} (hle : rounds ≤ more) :
    walk items visit more i s = some t := by
  induction rounds generalizing more i s with
  | zero => cases h
  | succ rounds ih =>
    obtain ⟨more, rfl⟩ :=
      Nat.exists_eq_succ_of_ne_zero (Nat.ne_of_gt (Nat.lt_of_lt_of_le rounds.succ_pos hle))
    cases ha : (items s)[i]? with
    | none =>
      have hend : (items s).length ≤ i := List.getElem?_eq_none_iff.mp ha
      rw [walk_of_le hend] at h ⊢
      exact h
    | some a =>
      rw [walk_of_getElem? ha] at h ⊢
      exact ih h (Nat.le_of_succ_le_succ hle)

/-- The loop has at most one result. -/
theorem walk_unique {rounds' : ℕ} {t' : σ} (h : walk items visit rounds i s = some t)
    (h' : walk items visit rounds' i s = some t') : t = t' := by
  have hmax := walk_mono h (Nat.le_max_left rounds rounds')
  rw [walk_mono h' (Nat.le_max_right rounds rounds')] at hmax
  exact (Option.some.inj hmax).symm

/-- The rule for a loop over a list that grows: an invariant that every round keeps, and a cost that
pays for what is appended. The loop ends, behind the end of the list, and the invariant holds
there. -/
theorem walk_finishes (Inv : ℕ → σ → Prop) (cost : σ → ℕ)
    (hstep : ∀ i s a, Inv i s → (items s)[i]? = some a →
      Inv (i + 1) (visit a s) ∧
        (items (visit a s)).length + cost (visit a s) ≤ (items s).length + cost s)
    (h : Inv i s) :
    ∃ rounds j t, walk items visit rounds i s = some t ∧ Inv j t ∧ (items t).length ≤ j := by
  obtain ⟨n, hn⟩ : ∃ n, (items s).length + cost s ≤ i + n :=
    ⟨(items s).length + cost s, Nat.le_add_left _ _⟩
  induction n generalizing i s with
  | zero =>
    have hend : (items s).length ≤ i := Nat.le_trans (Nat.le_add_right _ _) hn
    exact ⟨1, i, s, walk_of_le hend, h, hend⟩
  | succ n ih =>
    cases ha : (items s)[i]? with
    | none =>
      have hend : (items s).length ≤ i := List.getElem?_eq_none_iff.mp ha
      exact ⟨1, i, s, walk_of_le hend, h, hend⟩
    | some a =>
      obtain ⟨hinv, hcost⟩ := hstep i s a h ha
      obtain ⟨rounds, j, t, hwalk, hj, hend⟩ := ih hinv (by omega)
      exact ⟨rounds + 1, j, t, by rw [walk_of_getElem? ha, hwalk], hj, hend⟩

end Foundation
