import Mathlib.Data.List.Basic
import Mathlib.Data.List.Nodup
import Mathlib.Tactic.Common

/-!
# Hash tables whose keys may change

A hash table that stores pointers to its keys computes the hash of a key once, when the entry is
inserted, and compares keys through the pointers when an entry is searched. So an entry is found
under the value that its key had at the insertion, provided that the key has this value still.
`read` gives the value behind a pointer; the hash function is taken to be injective, so that the
hash is the value at the insertion.

`Keyed` says that every entry is found under the present value of its key, and no two entries under
the same.
-/

namespace Foundation

/-- An entry of a hash table. -/
structure Entry (κ ν η : Type*) where
  /-- The hash: the value of the key when the entry was inserted. -/
  hash : η
  /-- The pointer to the key. -/
  key : κ
  value : ν
  deriving DecidableEq, Repr

namespace HashTable

variable {κ ν η : Type*} [DecidableEq η] (read : κ → η) (t : List (Entry κ ν η))

/-- Is the entry found under the key? -/
def found (k : η) (e : Entry κ ν η) : Bool := e.hash = k && read e.key = k

/-- The entry that is found under a key. -/
def lookup (k : η) : Option (Entry κ ν η) := t.find? (found read k)

/-- Take out the entry that is found under a key. -/
def remove (k : η) : List (Entry κ ν η) := t.eraseP (found read k)

/-- Insert a value. An entry that is found under the key keeps its pointer to the key and gets the
new value. -/
def insert : List (Entry κ ν η) → κ → ν → List (Entry κ ν η)
  | [], key, value => [{ hash := read key, key := key, value := value }]
  | e :: t, key, value =>
    if found read (read key) e then { e with value := value } :: t else e :: insert t key value

/-- Every entry is stored under the present value of its key, and no two under the same. -/
structure Keyed : Prop where
  hash : ∀ e ∈ t, e.hash = read e.key
  nodup : (t.map Entry.hash).Nodup

variable {read t} {k : η} {e : Entry κ ν η} {key : κ} {value : ν}

@[simp] theorem found_iff : found read k e = true ↔ e.hash = k ∧ read e.key = k := by
  simp [found]

theorem mem_of_lookup (h : lookup read t k = some e) : e ∈ t ∧ e.hash = k ∧ read e.key = k :=
  ⟨List.mem_of_find?_eq_some h, found_iff.mp (List.find?_some h)⟩

theorem lookup_eq_none : lookup read t k = none ↔ ∀ e ∈ t, e.hash = k → read e.key ≠ k := by
  simp [lookup]

theorem mem_of_mem_remove (h : e ∈ remove read t k) : e ∈ t := List.mem_of_mem_eraseP h

/-- An entry that is not found under the key stays. -/
theorem mem_remove_of_not_found (h : e ∈ t) (hnot : e.hash = k → read e.key ≠ k) :
    e ∈ remove read t k := by
  rw [remove, List.mem_eraseP_of_neg]
  · exact h
  · rw [found_iff]
    exact fun hfound => hnot hfound.1 hfound.2

/-- Where no entry is found under the key, a new one is added. -/
theorem insert_of_forall (h : ∀ e ∈ t, e.hash = read key → read e.key ≠ read key) :
    insert read t key value = t ++ [{ hash := read key, key := key, value := value }] := by
  induction t with
  | nil => rfl
  | cons e t ih =>
    have hnot : ¬found read (read key) e = true := by
      rw [found_iff]
      exact fun hfound => h e (by simp) hfound.1 hfound.2
    rw [insert, if_neg hnot, ih fun e he => h e (List.mem_cons_of_mem _ he), List.cons_append]

/-- What an entry is after an insertion. Its pointer to the key is an old one or the one that was
inserted. -/
theorem mem_insert (h : e ∈ insert read t key value) :
    e ∈ t ∨ (e.hash = read key ∧ read e.key = read key ∧ e.value = value) ∧
      (e.key = key ∨ ∃ e' ∈ t, e'.key = e.key) := by
  induction t with
  | nil =>
    obtain rfl := List.mem_singleton.mp h
    exact .inr ⟨⟨rfl, rfl, rfl⟩, .inl rfl⟩
  | cons e' t ih =>
    unfold insert at h
    split at h
    · rename_i hfound
      obtain ⟨hhash, hread⟩ := found_iff.mp hfound
      rcases List.mem_cons.mp h with rfl | h
      · exact .inr ⟨⟨hhash, hread, rfl⟩, .inr ⟨e', by simp, rfl⟩⟩
      · exact .inl (List.mem_cons_of_mem _ h)
    · rcases List.mem_cons.mp h with rfl | h
      · exact .inl (by simp)
      · rcases ih h with hold | ⟨hnew, hkey⟩
        · exact .inl (List.mem_cons_of_mem _ hold)
        · refine .inr ⟨hnew, hkey.imp_right ?_⟩
          rintro ⟨e'', he'', heq⟩
          exact ⟨e'', List.mem_cons_of_mem _ he'', heq⟩

/-- The inserted value is in the table. -/
theorem exists_mem_insert (read : κ → η) (t : List (Entry κ ν η)) (key : κ) (value : ν) :
    ∃ e ∈ insert read t key value, e.hash = read key ∧ read e.key = read key ∧ e.value = value := by
  induction t with
  | nil => exact ⟨_, List.mem_singleton.mpr rfl, rfl, rfl, rfl⟩
  | cons e t ih =>
    unfold insert
    split
    · rename_i hfound
      obtain ⟨hhash, hread⟩ := found_iff.mp hfound
      exact ⟨_, List.mem_cons_self, hhash, hread, rfl⟩
    · obtain ⟨e', he', hspec⟩ := ih
      exact ⟨e', List.mem_cons_of_mem _ he', hspec⟩

/-! ## Keyed tables -/

omit [DecidableEq η] in
theorem keyed_nil : Keyed read ([] : List (Entry κ ν η)) where
  hash := by simp
  nodup := by simp

/-- In a keyed table an entry is found under its key. -/
theorem Keyed.lookup (h : Keyed read t) (he : e ∈ t) : lookup read t (read e.key) = some e := by
  have hhash := h.hash e he
  cases hlookup : HashTable.lookup read t (read e.key) with
  | none => exact absurd rfl (lookup_eq_none.mp hlookup e he hhash)
  | some e' =>
    obtain ⟨he', hhash', -⟩ := mem_of_lookup hlookup
    rw [List.inj_on_of_nodup_map h.nodup he' he (hhash'.trans hhash.symm)]

theorem Keyed.remove (h : Keyed read t) (k : η) : Keyed read (remove read t k) where
  hash := fun e he => h.hash e (mem_of_mem_remove he)
  nodup := h.nodup.sublist (List.eraseP_sublist.map _)

/-- In a keyed table no entry is left under a key that was taken out. -/
theorem Keyed.ne_of_mem_remove (h : Keyed read t) (he : e ∈ HashTable.remove read t k) :
    read e.key ≠ k := by
  intro hread
  have hmem := mem_of_mem_remove he
  have hhash : e.hash = k := (h.hash e hmem).trans hread
  have hfound : found read k e = true := found_iff.mpr ⟨hhash, hread⟩
  obtain ⟨e', l₁, l₂, hnone, hfound', hsplit, herase⟩ := List.exists_of_eraseP hmem hfound
  unfold HashTable.remove at he
  rw [herase] at he
  have hnodup := h.nodup
  rw [hsplit, List.map_append, List.map_cons] at hnodup
  obtain ⟨-, hcons, hdisjoint⟩ := List.nodup_append.mp hnodup
  rcases List.mem_append.mp he with he | he
  · exact hnone e he hfound
  · have hsame : e'.hash = e.hash := (found_iff.mp hfound').1.trans hhash.symm
    apply (List.nodup_cons.mp hcons).1
    rw [hsame]
    exact List.mem_map_of_mem he

/-- A value that no key has is inserted under it. -/
theorem Keyed.insert (h : Keyed read t) (hfresh : ∀ e ∈ t, read e.key ≠ read key) :
    Keyed read (insert read t key value) := by
  rw [insert_of_forall fun e he _ => hfresh e he]
  constructor
  · intro e he
    rcases List.mem_append.mp he with he | he
    · exact h.hash e he
    · obtain rfl := List.mem_singleton.mp he
      rfl
  · rw [List.map_append, List.map_singleton]
    refine List.nodup_append.mpr ⟨h.nodup, List.nodup_singleton _, ?_⟩
    rintro a ha b hb rfl
    obtain ⟨e, he, rfl⟩ := List.mem_map.mp ha
    obtain heq := List.mem_singleton.mp hb
    exact hfresh e he ((h.hash e he).symm.trans heq)

omit [DecidableEq η] in
/-- The values of the keys in the table do not change. -/
theorem Keyed.congr {read' : κ → η} (h : Keyed read t) (hread : ∀ e ∈ t, read' e.key = read e.key) :
    Keyed read' t where
  hash := fun e he => (h.hash e he).trans (hread e he).symm
  nodup := h.nodup

end HashTable

end Foundation
