import Mathlib.Data.List.Induction
import Mathlib.Data.List.Sort

/-!
# Inserting into a sorted list

A list that is built by inserting one element after the other is sorted by its key. Any other
relation holds along the list exactly if it holds, in the order of the keys, between every two
elements that were inserted; of two elements with one key the later one comes first.
-/

namespace Foundation

variable {α κ : Type*} [LinearOrder κ] (key : α → κ)

/-- Insert into a list that is sorted by its key, in front of the first element whose key is not
less. -/
def insertSorted (a : α) (l : List α) : List α := l.orderedInsert (fun a b => key a ≤ key b) a

/-- Insert one element after the other. -/
def insertAll (as : List α) : List α := as.foldl (fun l a => insertSorted key a l) []

/-- The order in which two elements end up when `a` is inserted before `b`. -/
def OrdersBy (R : α → α → Prop) (a b : α) : Prop := if key a < key b then R a b else R b a

variable {key} {R : α → α → Prop} {as l : List α} {a b : α}

theorem insertAll_append_singleton :
    insertAll key (as ++ [a]) = insertSorted key a (insertAll key as) := by
  simp [insertAll]

@[simp] theorem mem_insertSorted : b ∈ insertSorted key a l ↔ b = a ∨ b ∈ l :=
  List.mem_orderedInsert _

/-- An insertion keeps the list sorted. -/
theorem sorted_insertSorted (h : l.Pairwise fun a b => key a ≤ key b) :
    (insertSorted key a l).Pairwise fun a b => key a ≤ key b := by
  have : Std.Total (α := α) fun a b => key a ≤ key b := ⟨fun a b => le_total (key a) (key b)⟩
  have : IsTrans α fun a b => key a ≤ key b := ⟨fun _ _ _ hab hbc => le_trans hab hbc⟩
  exact List.Pairwise.orderedInsert a l h

/-- A relation along a sorted list with one more element. -/
theorem pairwise_insertSorted_iff (h : l.Pairwise fun a b => key a ≤ key b) :
    (insertSorted key a l).Pairwise R ↔ l.Pairwise R ∧ ∀ b ∈ l, OrdersBy key R b a := by
  induction l with
  | nil => simp [insertSorted]
  | cons b l ih =>
    obtain ⟨hb, hl⟩ := List.pairwise_cons.mp h
    by_cases hle : key a ≤ key b
    · have hinsert : insertSorted key a (b :: l) = a :: b :: l := by simp [insertSorted, hle]
      -- every key of the list is at least the new one
      have horders : ∀ c ∈ b :: l, OrdersBy key R c a ↔ R a c := by
        intro c hc
        have hac : key a ≤ key c := by
          rcases List.mem_cons.mp hc with rfl | hc
          · exact hle
          · exact hle.trans (hb c hc)
        simp [OrdersBy, not_lt.mpr hac]
      rw [hinsert, List.pairwise_cons, and_comm, and_congr_right_iff]
      intro _
      exact forall₂_congr fun c hc => (horders c hc).symm
    · have hinsert : insertSorted key a (b :: l) = b :: insertSorted key a l := by
        simp [insertSorted, hle]
      have hba : OrdersBy key R b a ↔ R b a := by simp [OrdersBy, not_le.mp hle]
      rw [hinsert, List.pairwise_cons, ih hl, List.pairwise_cons]
      simp only [mem_insertSorted, forall_eq_or_imp, List.mem_cons, hba]
      tauto

/-- The inserted elements are sorted. -/
theorem sorted_insertAll (as : List α) : (insertAll key as).Pairwise fun a b => key a ≤ key b := by
  induction as using List.reverseRecOn with
  | nil => simp [insertAll]
  | append_singleton as a ih =>
    rw [insertAll_append_singleton]
    exact sorted_insertSorted ih

/-- All elements are inserted. -/
@[simp] theorem mem_insertAll : b ∈ insertAll key as ↔ b ∈ as := by
  induction as using List.reverseRecOn with
  | nil => simp [insertAll]
  | append_singleton as a ih =>
    rw [insertAll_append_singleton, mem_insertSorted, ih, List.mem_append, List.mem_singleton]
    exact or_comm

/-- A relation along the list of all elements that were inserted. -/
theorem pairwise_insertAll_iff : (insertAll key as).Pairwise R ↔ as.Pairwise (OrdersBy key R) := by
  induction as using List.reverseRecOn with
  | nil => simp [insertAll]
  | append_singleton as a ih =>
    rw [insertAll_append_singleton, pairwise_insertSorted_iff (sorted_insertAll as), ih,
      List.pairwise_append]
    simp

end Foundation
