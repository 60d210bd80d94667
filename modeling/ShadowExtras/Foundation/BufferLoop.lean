import ShadowExtras.Foundation.Bytes

/-!
# Loops that write into a buffer

The loop `for(int i = start; guard(i); i += stride) body(i)`. `forLoop` runs it for a limited number
of rounds and has no result when they do not suffice; a round that faults ends it. More rounds than
are needed change nothing (`forLoop_of_le`), so the loop has at most one result. It is found by
naming the state before each round: `forLoop_eq_ok` and `forLoop_eq_error`.

`writeAt` is what the rounds of such a loop do to a buffer: they overwrite bytes, all of them
inside.
-/

namespace Foundation

/-! ## Loops -/

section Loops

variable {σ φ : Type*}

/-- The loop from the index `i` on, for so many rounds at most. -/
def forLoop (guard : ℕ → Bool) (stride : ℕ) (body : ℕ → σ → Except φ σ) :
    ℕ → ℕ → σ → Option (Except φ σ)
  | 0, _, _ => none
  | rounds + 1, i, s =>
    if guard i then
      match body i s with
      | .error fault => some (.error fault)
      | .ok s => forLoop guard stride body rounds (i + stride) s
    else some (.ok s)

/-- The loop is left, and none of its rounds has faulted. -/
def Finishes (loop : ℕ → Option (Except φ σ)) : Prop := ∃ rounds s, loop rounds = some (.ok s)

variable {guard : ℕ → Bool} {stride : ℕ} {body : ℕ → σ → Except φ σ} {rounds i n : ℕ} {s : σ}
  {fault : φ} {r : Except φ σ}

/-- More rounds than are needed change nothing. -/
theorem forLoop_of_le (h : forLoop guard stride body rounds i s = some r) {more : ℕ}
    (hle : rounds ≤ more) : forLoop guard stride body more i s = some r := by
  induction rounds generalizing more i s with
  | zero => cases h
  | succ rounds ih =>
    obtain ⟨more, rfl⟩ :=
      Nat.exists_eq_succ_of_ne_zero (Nat.ne_of_gt (Nat.lt_of_lt_of_le rounds.succ_pos hle))
    rw [forLoop] at h ⊢
    split
    · rename_i hguard
      rw [if_pos hguard] at h
      split
      · rename_i hbody
        rw [hbody] at h
        exact h
      · rename_i hbody
        rw [hbody] at h
        exact ih h (Nat.le_of_succ_le_succ hle)
    · rename_i hguard
      rw [if_neg hguard] at h
      exact h

/-- The loop has at most one result. -/
theorem forLoop_unique {rounds' : ℕ} {r' : Except φ σ}
    (h : forLoop guard stride body rounds i s = some r)
    (h' : forLoop guard stride body rounds' i s = some r') : r = r' := by
  have hmax := forLoop_of_le h (Nat.le_max_left rounds rounds')
  rw [forLoop_of_le h' (Nat.le_max_right rounds rounds')] at hmax
  exact (Option.some.inj hmax).symm

/-- The first rounds of the loop, with the state before each of them. -/
theorem forLoop_add (states : ℕ → σ)
    (hguard : ∀ j < n, guard (i + j * stride) = true)
    (hbody : ∀ j < n, body (i + j * stride) (states j) = .ok (states (j + 1))) (more : ℕ) :
    forLoop guard stride body (n + more) i (states 0) =
      forLoop guard stride body more (i + n * stride) (states n) := by
  induction n generalizing more with
  | zero => simp
  | succ n ih =>
    rw [Nat.add_assoc, Nat.add_comm 1 more, ih (fun j hj => hguard j (Nat.lt_succ_of_lt hj))
      (fun j hj => hbody j (Nat.lt_succ_of_lt hj))]
    rw [forLoop, if_pos (hguard n n.lt_succ_self), hbody n n.lt_succ_self, Nat.succ_mul,
      ← Nat.add_assoc]

/-- A loop that is left after `n` rounds. -/
theorem forLoop_eq_ok (states : ℕ → σ)
    (hguard : ∀ j < n, guard (i + j * stride) = true)
    (hbody : ∀ j < n, body (i + j * stride) (states j) = .ok (states (j + 1)))
    (hend : guard (i + n * stride) = false) :
    forLoop guard stride body (n + 1) i (states 0) = some (.ok (states n)) := by
  rw [forLoop_add states hguard hbody, forLoop, if_neg (by simp [hend])]

/-- A loop that faults in the round behind the first `n`. -/
theorem forLoop_eq_error (states : ℕ → σ)
    (hguard : ∀ j ≤ n, guard (i + j * stride) = true)
    (hbody : ∀ j < n, body (i + j * stride) (states j) = .ok (states (j + 1)))
    (hfault : body (i + n * stride) (states n) = .error fault) :
    forLoop guard stride body (n + 1) i (states 0) = some (.error fault) := by
  rw [forLoop_add states (fun j hj => hguard j (Nat.le_of_lt hj)) hbody, forLoop,
    if_pos (hguard n le_rfl), hfault]

/-- A loop that faults does not finish. -/
theorem not_finishes_of_error (h : forLoop guard stride body rounds i s = some (.error fault)) :
    ¬Finishes fun rounds => forLoop guard stride body rounds i s := by
  rintro ⟨rounds', s', h'⟩
  cases forLoop_unique h h'

end Loops

/-! ## Writing -/

section Writing

variable {φ : Type*} {fault : φ} {bytes buf : Bytes} {i : ℕ}

/-- Overwrite the bytes of a buffer from the index `i` on; none outside of it. -/
def writeAt (fault : φ) (bytes : Bytes) (i : ℕ) (buf : Bytes) : Except φ Bytes :=
  if i + bytes.length ≤ buf.length then
    .ok (buf.take i ++ bytes ++ buf.drop (i + bytes.length))
  else .error fault

theorem writeAt_eq_error (h : buf.length < i + bytes.length) :
    writeAt fault bytes i buf = .error fault := by
  rw [writeAt, if_neg (by omega)]

/-- Overwrite the bytes behind `front`. -/
theorem writeAt_append (front old rest : Bytes) (hlength : old.length = bytes.length) :
    writeAt fault bytes front.length (front ++ (old ++ rest)) = .ok (front ++ (bytes ++ rest)) := by
  have hfits : front.length + bytes.length ≤ (front ++ (old ++ rest)).length := by
    simp only [List.length_append]
    omega
  have hdrop : (front ++ (old ++ rest)).drop (front.length + bytes.length) = rest := by
    rw [← hlength, ← List.drop_drop, List.drop_left, List.drop_left]
  rw [writeAt, if_pos hfits, List.take_left, hdrop, List.append_assoc]

/-- Overwrite the first bytes. -/
theorem writeAt_zero (old rest : Bytes) (hlength : old.length = bytes.length) :
    writeAt fault bytes 0 (old ++ rest) = .ok (bytes ++ rest) :=
  writeAt_append [] old rest hlength

end Writing

end Foundation
