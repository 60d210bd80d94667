import ShadowExtras.Foundation.Bytes

/-!
# Reading a text file line by line

`fgets` reads a line with its newline, but not more than the buffer holds besides the NUL byte
behind it. `fgetsAll` is what a program gets that calls it until the end of the file, `fileLines`
the lines of the file. Both agree if every line fits into the buffer (`fgetsAll_eq_fileLines`); else
there are more pieces than lines (`length_lt_of_length_fgetsAll`).
-/

namespace Foundation

/-- The lines of a file, with the newlines at their ends. -/
def fileLines : Bytes → List Bytes
  | [] => []
  | b :: s =>
    if b = lf then [b] :: fileLines s
    else
      match fileLines s with
      | [] => [[b]]
      | line :: lines => (b :: line) :: lines

/-- How much `fgets` reads into a buffer. -/
def fgetsLength (size : ℕ) (s : Bytes) : ℕ := min (size - 1) ((s.takeWhile (· ≠ lf)).length + 1)

/-- A piece that is read is not empty. -/
theorem length_drop_fgetsLength_lt {size : ℕ} (hsize : 1 < size) {s : Bytes} (hs : s ≠ []) :
    (s.drop (fgetsLength size s)).length < s.length := by
  have hpos := List.length_pos_of_ne_nil hs
  rw [List.length_drop, fgetsLength]
  omega

/-- What `fgets` reads, call after call. -/
def fgetsAll {size : ℕ} (hsize : 1 < size) (s : Bytes) : List Bytes :=
  if s = [] then []
  else s.take (fgetsLength size s) :: fgetsAll hsize (s.drop (fgetsLength size s))
termination_by s.length
decreasing_by exact length_drop_fgetsLength_lt hsize ‹_›

/-- The first line of a file, and the rest. -/
structure FirstLine (line rest : Bytes) : Prop where
  ne_nil : line ≠ []
  inside : lf ∉ line.dropLast
  ends : line.getLast? = some lf ∨ rest = []

variable {size : ℕ} {s line rest : Bytes}

/-! ## The first line -/

/-- A text that is not empty has a first line. -/
theorem exists_firstLine (hs : s ≠ []) : ∃ line rest, s = line ++ rest ∧ FirstLine line rest := by
  induction s with
  | nil => exact absurd rfl hs
  | cons b s ih =>
    by_cases hb : b = lf
    · exact ⟨[b], s, by simp, by simp, by simp, by simp [hb]⟩
    · cases s with
      | nil => exact ⟨[b], [], by simp, by simp, by simp, .inr rfl⟩
      | cons c s =>
        obtain ⟨line, rest, hsplit, hne, hinside, hends⟩ := ih (by simp)
        refine ⟨b :: line, rest, by rw [hsplit, List.cons_append], by simp, ?_, ?_⟩
        · rw [List.dropLast_cons_of_ne_nil hne, List.mem_cons, not_or]
          exact ⟨Ne.symm hb, hinside⟩
        · rwa [List.getLast?_cons_of_ne_nil hne]

/-- The first line without its first byte. -/
theorem FirstLine.tail {b : Byte} (h : FirstLine (b :: line) rest) (hne : line ≠ []) :
    b ≠ lf ∧ FirstLine line rest := by
  obtain ⟨-, hinside, hends⟩ := h
  rw [List.dropLast_cons_of_ne_nil hne, List.mem_cons, not_or] at hinside
  rw [List.getLast?_cons_of_ne_nil hne] at hends
  exact ⟨Ne.symm hinside.1, hne, hinside.2, hends⟩

/-- The lines of a text are the first one and the others. -/
theorem FirstLine.fileLines_eq (h : FirstLine line rest) :
    fileLines (line ++ rest) = line :: fileLines rest := by
  induction line with
  | nil => exact absurd rfl h.ne_nil
  | cons b line ih =>
    by_cases hne : line = []
    · subst hne
      by_cases hb : b = lf
      · simp [fileLines, hb]
      · have hrest : rest = [] := h.ends.resolve_left (by simpa using hb)
        simp [fileLines, hb, hrest]
    · obtain ⟨hb, htail⟩ := h.tail hne
      rw [List.cons_append, fileLines, if_neg hb, ih htail]

/-- A file that is not empty has a line. -/
theorem fileLines_ne_nil (hs : s ≠ []) : fileLines s ≠ [] := by
  obtain ⟨line, rest, rfl, hfirst⟩ := exists_firstLine hs
  rw [hfirst.fileLines_eq]
  exact List.cons_ne_nil line _

/-- What remains of a line is a line. -/
theorem FirstLine.drop (h : FirstLine line rest) {n : ℕ} (hn : n < line.length) :
    FirstLine (line.drop n) rest := by
  induction n generalizing line with
  | zero => simpa using h
  | succ n ih =>
    cases line with
    | nil => simp at hn
    | cons b line =>
      rw [List.length_cons] at hn
      have hne : line ≠ [] := List.ne_nil_of_length_pos (by omega)
      exact ih (h.tail hne).2 (by omega)

/-- The first line ends with its newline or with the text. -/
theorem FirstLine.length_takeWhile (h : FirstLine line rest) :
    ((line ++ rest).takeWhile (· ≠ lf)).length + 1 = line.length ∨
      ((line ++ rest).takeWhile (· ≠ lf)).length = line.length ∧ rest = [] := by
  induction line with
  | nil => exact absurd rfl h.ne_nil
  | cons b line ih =>
    by_cases hne : line = []
    · subst hne
      by_cases hb : b = lf
      · simp [hb]
      · have hrest : rest = [] := h.ends.resolve_left (by simpa using hb)
        simp [hb, hrest]
    · obtain ⟨hb, htail⟩ := h.tail hne
      have htaken : ((b :: line ++ rest).takeWhile (· ≠ lf)).length =
          ((line ++ rest).takeWhile (· ≠ lf)).length + 1 := by simp [hb]
      rw [htaken, List.length_cons]
      rcases ih htail with hline | ⟨hline, hrest⟩
      · exact .inl (by omega)
      · exact .inr ⟨by omega, hrest⟩

/-- The line, as far as it fits, is read. -/
theorem FirstLine.take_drop_fgetsLength (h : FirstLine line rest) (size : ℕ) :
    (line ++ rest).take (fgetsLength size (line ++ rest)) = line.take (size - 1) ∧
      (line ++ rest).drop (fgetsLength size (line ++ rest)) = line.drop (size - 1) ++ rest := by
  unfold fgetsLength
  rcases h.length_takeWhile with hline | ⟨hline, hrest⟩
  · have hle : min (size - 1) line.length ≤ line.length := Nat.min_le_right _ _
    rw [hline, List.take_append_of_le_length hle, List.drop_append_of_le_length hle,
      ← List.take_eq_take_min, ← List.drop_eq_drop_min]
    exact ⟨rfl, rfl⟩
  · rw [hline, hrest, List.append_nil, List.append_nil, List.take_eq_take_iff,
      List.drop_eq_drop_iff]
    omega

/-! ## Lines and what is read -/

/-- A first piece is read of the first line. -/
theorem FirstLine.fgetsAll_eq (h : FirstLine line rest) (hsize : 1 < size) :
    fgetsAll hsize (line ++ rest) = line.take (size - 1) ::
      fgetsAll hsize (line.drop (size - 1) ++ rest) := by
  obtain ⟨htake, hdrop⟩ := h.take_drop_fgetsLength size
  have hne : line ++ rest ≠ [] := by simp [h.ne_nil]
  rw [fgetsAll, if_neg hne, htake, hdrop]

@[simp] theorem fgetsAll_nil (hsize : 1 < size) : fgetsAll hsize [] = [] := by
  rw [fgetsAll, if_pos rfl]

/-- If every line fits into the buffer, the lines are read. -/
theorem fgetsAll_eq_fileLines (hsize : 1 < size)
    (hfits : ∀ line ∈ fileLines s, line.length < size) :
    fgetsAll hsize s = fileLines s := by
  induction hlength : s.length using Nat.strong_induction_on generalizing s with
  | _ n ih =>
    by_cases hs : s = []
    · simp [hs, fileLines]
    · obtain ⟨line, rest, rfl, hfirst⟩ := exists_firstLine hs
      rw [hfirst.fileLines_eq, List.forall_mem_cons] at hfits
      have hshort : line.length ≤ size - 1 := by omega
      have hpos := List.length_pos_of_ne_nil hfirst.ne_nil
      rw [List.length_append] at hlength
      rw [hfirst.fgetsAll_eq hsize, hfirst.fileLines_eq, List.take_of_length_le hshort,
        List.drop_eq_nil_of_le hshort, List.nil_append, ih rest.length (by omega) hfits.2 rfl]

/-- There are at least as many pieces as lines, and more if some line does not fit. -/
theorem length_fileLines_le_and_lt (hsize : 1 < size) (s : Bytes) :
    (fileLines s).length ≤ (fgetsAll hsize s).length ∧
      ((∃ line ∈ fileLines s, size ≤ line.length) →
        (fileLines s).length < (fgetsAll hsize s).length) := by
  induction hlength : s.length using Nat.strong_induction_on generalizing s with
  | _ n ih =>
    by_cases hs : s = []
    · simp [hs, fileLines]
    · obtain ⟨line, rest, rfl, hfirst⟩ := exists_firstLine hs
      have hpos := List.length_pos_of_ne_nil hfirst.ne_nil
      rw [List.length_append] at hlength
      rw [hfirst.fgetsAll_eq hsize, hfirst.fileLines_eq, List.length_cons, List.length_cons]
      by_cases hshort : line.length ≤ size - 1
      · rw [List.drop_eq_nil_of_le hshort, List.nil_append]
        obtain ⟨hle, hlt⟩ := ih rest.length (by omega) rest rfl
        refine ⟨by omega, ?_⟩
        rintro ⟨long, hmem, hlong⟩
        have hrest : long ∈ fileLines rest := by
          rcases List.mem_cons.mp hmem with rfl | hmem
          · omega
          · exact hmem
        have hmore := hlt ⟨long, hrest, hlong⟩
        omega
      · have hremains : (line.drop (size - 1) ++ rest).length < n := by
          rw [List.length_append, List.length_drop]
          omega
        obtain ⟨hle, -⟩ := ih _ hremains _ rfl
        rw [(hfirst.drop (by omega)).fileLines_eq, List.length_cons] at hle
        refine ⟨by omega, fun _ => by omega⟩

/-- If as many pieces are read as there are lines, every line fits into the buffer. -/
theorem length_lt_of_length_fgetsAll (hsize : 1 < size)
    (hsame : (fgetsAll hsize s).length = (fileLines s).length) (hline : line ∈ fileLines s) :
    line.length < size := by
  by_contra hlong
  have hlt := (length_fileLines_le_and_lt hsize s).2 ⟨line, hline, not_lt.mp hlong⟩
  omega

end Foundation
