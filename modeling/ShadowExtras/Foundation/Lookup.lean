import Mathlib.Data.List.Basic
import Mathlib.Tactic.Common

/-!
# Association lists

A map with keys is a list of pairs, and `List.lookup` finds the value of a key. Taking out a key and
changing the value of a key leave the other keys alone.
-/

namespace Foundation

variable {α β : Type*} [BEq α] [LawfulBEq α]

/-- Take out the key `b`. -/
theorem lookup_filter_ne [DecidableEq α] (l : List (α × β)) (a b : α) :
    (l.filter fun p => p.1 ≠ b).lookup a = if a = b then none else l.lookup a := by
  induction l with
  | nil => simp
  | cons p l ih =>
    obtain ⟨k, x⟩ := p
    by_cases hb : k = b
    · subst hb
      rw [List.filter_cons_of_neg (by simp), ih]
      by_cases ha : a = k
      · simp [ha]
      · have hne : (a == k) = false := beq_eq_false_iff_ne.mpr ha
        simp [ha, List.lookup_cons, hne]
    · rw [List.filter_cons_of_pos (by simpa using hb), List.lookup_cons, ih, List.lookup_cons]
      by_cases hk : a = k
      · subst hk
        simp [hb]
      · have hne : (a == k) = false := beq_eq_false_iff_ne.mpr hk
        rw [hne]

/-- Change the value of the key `b`. -/
theorem lookup_map_update [DecidableEq α] (l : List (α × β)) (a b : α) (f : β → β) :
    (l.map fun p => if p.1 = b then (p.1, f p.2) else p).lookup a =
      if a = b then (l.lookup a).map f else l.lookup a := by
  induction l with
  | nil => simp
  | cons p l ih =>
    obtain ⟨k, x⟩ := p
    rw [List.map_cons]
    by_cases hk : a = k
    · subst hk
      by_cases hb : a = b
      · simp [hb]
      · simp [hb]
    · have hne : (a == k) = false := beq_eq_false_iff_ne.mpr hk
      by_cases hb : k = b
      · simp only [hb, if_true] at ih ⊢
        rw [List.lookup_cons, ih]
        simp [List.lookup_cons, ← hb, hne]
      · simp only [hb, if_false]
        rw [List.lookup_cons, ih]
        simp [List.lookup_cons, hne]

omit [LawfulBEq α] in
/-- Change the values of all keys. -/
theorem lookup_map_values {γ : Type*} (l : List (α × β)) (a : α) (f : β → γ) :
    (l.map fun p => (p.1, f p.2)).lookup a = (l.lookup a).map f := by
  induction l with
  | nil => simp
  | cons p l ih =>
    obtain ⟨k, x⟩ := p
    rw [List.map_cons, List.lookup_cons, List.lookup_cons, ih]
    cases a == k <;> simp

theorem lookup_concat [DecidableEq α] (l : List (α × β)) (a b : α) (x : β) (h : l.lookup b = none) :
    (l ++ [(b, x)]).lookup a = if a = b then some x else l.lookup a := by
  rw [List.lookup_append]
  by_cases ha : a = b
  · subst ha
    simp [h]
  · have hne : (a == b) = false := beq_eq_false_iff_ne.mpr ha
    simp [ha, List.lookup_cons, hne]

end Foundation
