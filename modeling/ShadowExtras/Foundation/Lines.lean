import ShadowExtras.Foundation.Bytes
import ShadowExtras.Foundation.Run

/-!
# Cutting a byte stream into lines

Text protocols end their lines with CR LF. `splitLines` cuts a text at these and returns the
complete lines, without their ends, and the incomplete rest. It is a fold over the bytes, so that a
text that arrives in pieces is cut the same way when the rest of one piece is put in front of the
next: `splitLines_append`. `findCrlf` finds the end of the first line alone.
-/

namespace Foundation

/-- A line: a text in which no CR is followed directly by LF. -/
def IsLine (l : Bytes) : Prop := ¬ crlf <:+: l

/-- Add one byte to the complete lines and the incomplete rest read so far. -/
def lineStep (acc : List Bytes × Bytes) (b : Byte) : List Bytes × Bytes :=
  if b = lf ∧ acc.2.getLast? = some cr then (acc.1 ++ [acc.2.dropLast], [])
  else (acc.1, acc.2 ++ [b])

/-- The complete lines of a text and the incomplete rest behind the last of them, as
`g_strsplit(s, "\r\n", 0)` cuts it. -/
def splitLines (s : Bytes) : List Bytes × Bytes := s.foldl lineStep ([], [])

/-- Every line with its end. -/
def joinLines (ls : List Bytes) : Bytes := (ls.map (· ++ crlf)).flatten

@[simp] theorem splitLines_nil : splitLines [] = ([], []) := rfl

@[simp] theorem joinLines_nil : joinLines [] = [] := rfl

@[simp] theorem joinLines_cons (l : Bytes) (ls : List Bytes) :
    joinLines (l :: ls) = l ++ (crlf ++ joinLines ls) := by
  simp [joinLines]

@[simp] theorem joinLines_append (ls ms : List Bytes) :
    joinLines (ls ++ ms) = joinLines ls ++ joinLines ms := by
  simp [joinLines]

theorem isLine_nil : IsLine [] := by simp [IsLine, crlf]

/-- A piece of a line is a line. -/
theorem IsLine.of_infix {l m : Bytes} (hl : IsLine l) (h : m <:+: l) : IsLine m :=
  fun hm => hl (hm.trans h)

/-- The lines read before do not matter for the next byte. -/
theorem lineStep_append (ls : List Bytes) (acc : List Bytes × Bytes) (b : Byte) :
    lineStep (ls ++ acc.1, acc.2) b = (ls ++ (lineStep acc b).1, (lineStep acc b).2) := by
  by_cases h : b = lf ∧ acc.2.getLast? = some cr
  · simp [lineStep, h]
  · simp [lineStep, h]

/-- The lines read before do not matter for the bytes that follow. -/
theorem foldl_lineStep_append (ls : List Bytes) (acc : List Bytes × Bytes) (s : Bytes) :
    s.foldl lineStep (ls ++ acc.1, acc.2) =
      (ls ++ (s.foldl lineStep acc).1, (s.foldl lineStep acc).2) := by
  induction s generalizing acc with
  | nil => rfl
  | cons b s ih =>
    simp only [List.foldl_cons]
    rw [lineStep_append ls acc b, ih]

/-- A line that grows by a byte stays one unless the byte completes a CR LF. -/
theorem isLine_append_singleton {l : Bytes} {b : Byte} :
    IsLine (l ++ [b]) ↔ IsLine l ∧ ¬(b = lf ∧ l.getLast? = some cr) := by
  constructor
  · intro h
    refine ⟨h.of_infix (List.prefix_append l [b]).isInfix, ?_⟩
    rintro ⟨rfl, hcr⟩
    obtain ⟨l', rfl⟩ := List.getLast?_eq_some_iff.mp hcr
    exact h ⟨l', [], by simp [crlf]⟩
  · rintro ⟨hl, hno⟩ ⟨u, v, huv⟩
    rcases List.eq_nil_or_concat v with rfl | ⟨v', c, rfl⟩
    · have hlast : (u ++ [cr]) ++ [lf] = l ++ [b] := by rw [← huv]; simp [crlf]
      obtain ⟨hu, hb⟩ := List.append_inj' hlast rfl
      exact hno ⟨by simpa using hb.symm, by rw [← hu]; simp⟩
    · have hlast : (u ++ crlf ++ v') ++ [c] = l ++ [b] := by rw [← huv]; simp
      exact hl ⟨u, v', (List.append_inj' hlast rfl).1⟩

/-- Bytes other than CR in front of a line. -/
theorem IsLine.append_of_forall_ne {a l : Bytes} (ha : ∀ b ∈ a, b ≠ cr) (hl : IsLine l) :
    IsLine (a ++ l) := by
  induction a with
  | nil => exact hl
  | cons b a ih =>
    intro hinf
    rcases List.infix_cons_iff.mp hinf with hpre | hinf
    · obtain ⟨v, hv⟩ := hpre
      have hb : cr = b := (List.cons.inj hv).1
      exact ha b (by simp) hb.symm
    · exact ih (fun c hc => ha c (by simp [hc])) hinf

/-- A text without CR is a line. -/
theorem isLine_of_forall_ne {l : Bytes} (h : ∀ b ∈ l, b ≠ cr) : IsLine l := by
  have hl := isLine_nil.append_of_forall_ne h
  rwa [List.append_nil] at hl

/-- Cutting a text that grows by one byte. -/
theorem splitLines_append_singleton (s : Bytes) (b : Byte) :
    splitLines (s ++ [b]) = lineStep (splitLines s) b := by
  simp [splitLines, List.foldl_append]

/-- A line is its own incomplete rest. -/
theorem splitLines_of_isLine {l : Bytes} (hl : IsLine l) : splitLines l = ([], l) := by
  induction l using List.reverseRecOn with
  | nil => rfl
  | append_singleton l b ih =>
    obtain ⟨hl', hno⟩ := isLine_append_singleton.mp hl
    rw [splitLines_append_singleton, ih hl', lineStep, if_neg hno]

/-- The incomplete rest is a line. -/
theorem isLine_splitLines (s : Bytes) : IsLine (splitLines s).2 := by
  induction s using List.reverseRecOn with
  | nil => simp [splitLines, IsLine, crlf]
  | append_singleton s b ih =>
    rw [splitLines_append_singleton, lineStep]
    split
    · simp [IsLine, crlf]
    · rename_i hno
      exact isLine_append_singleton.mpr ⟨ih, hno⟩

/-- The incomplete rest is made of bytes of the text. -/
theorem mem_of_mem_splitLines {s : Bytes} {b : Byte} (hb : b ∈ (splitLines s).2) : b ∈ s := by
  induction s using List.reverseRecOn with
  | nil => simp at hb
  | append_singleton s c ih =>
    rw [splitLines_append_singleton, lineStep] at hb
    split at hb
    · simp at hb
    · rcases List.mem_append.mp hb with hb | hb
      · exact List.mem_append_left _ (ih hb)
      · exact List.mem_append_right _ hb

/-- Cutting a text that arrives in two pieces: the rest of the first goes in front of the second. -/
theorem splitLines_append (a b : Bytes) :
    splitLines (a ++ b) =
      ((splitLines a).1 ++ (splitLines ((splitLines a).2 ++ b)).1,
        (splitLines ((splitLines a).2 ++ b)).2) := by
  have hrest : ([] , (splitLines a).2) = splitLines (splitLines a).2 :=
    (splitLines_of_isLine (isLine_splitLines a)).symm
  have hfront := foldl_lineStep_append (splitLines a).1 ([], (splitLines a).2) b
  rw [List.append_nil] at hfront
  have hwhole : splitLines (a ++ b) = b.foldl lineStep (splitLines a) := by
    simp [splitLines, List.foldl_append]
  have hpiece : splitLines ((splitLines a).2 ++ b) = b.foldl lineStep ([], (splitLines a).2) := by
    rw [hrest]
    simp [splitLines, List.foldl_append]
  rw [hwhole, hpiece]
  exact hfront

/-- The first line of a text. -/
theorem splitLines_line {l : Bytes} (hl : IsLine l) (s : Bytes) :
    splitLines (l ++ (crlf ++ s)) = (l :: (splitLines s).1, (splitLines s).2) := by
  have hend : splitLines (l ++ crlf) = ([l], []) := by
    have hcr : IsLine (l ++ [cr]) :=
      isLine_append_singleton.mpr ⟨hl, fun h => absurd h.1 (by decide)⟩
    have hstep : splitLines (l ++ crlf) = lineStep (splitLines (l ++ [cr])) lf := by
      simp [splitLines, crlf, List.foldl_append]
    rw [hstep, splitLines_of_isLine hcr, lineStep, if_pos (by simp)]
    simp
  rw [← List.append_assoc, splitLines_append, hend]
  simp

/-- Cutting joined lines gives the lines back. -/
theorem splitLines_joinLines_append {ls : List Bytes} (hls : ∀ l ∈ ls, IsLine l) (s : Bytes) :
    splitLines (joinLines ls ++ s) = (ls ++ (splitLines s).1, (splitLines s).2) := by
  induction ls with
  | nil => simp
  | cons l ls ih =>
    have hl : IsLine l := hls l (by simp)
    rw [joinLines_cons, List.append_assoc, List.append_assoc, splitLines_line hl,
      ih fun m hm => hls m (by simp [hm])]
    rfl

/-- The lines and the rest of a text are the text. -/
theorem joinLines_splitLines (s : Bytes) : joinLines (splitLines s).1 ++ (splitLines s).2 = s := by
  induction s using List.reverseRecOn with
  | nil => rfl
  | append_singleton s b ih =>
    rw [splitLines_append_singleton, lineStep]
    split
    · rename_i hend
      obtain ⟨rfl, hcr⟩ := hend
      obtain ⟨l, hl⟩ := List.getLast?_eq_some_iff.mp hcr
      rw [hl] at ih
      simp only [hl, List.dropLast_concat, joinLines_append, joinLines_cons, joinLines_nil,
        List.append_nil]
      conv_rhs => rw [← ih]
      simp [crlf]
    · rw [← List.append_assoc, ih]

/-- The lines of a text are lines. -/
theorem isLine_of_mem_splitLines {s l : Bytes} (hl : l ∈ (splitLines s).1) : IsLine l := by
  induction s using List.reverseRecOn with
  | nil => simp at hl
  | append_singleton s b ih =>
    rw [splitLines_append_singleton, lineStep] at hl
    split at hl
    · rcases List.mem_append.mp hl with hl | hl
      · exact ih hl
      · rw [List.mem_singleton.mp hl]
        exact IsLine.of_infix (isLine_splitLines s) (List.dropLast_prefix _).isInfix
    · exact ih hl

/-- Where a line of a text stands. -/
theorem exists_of_mem_splitLines {s l : Bytes} (hl : l ∈ (splitLines s).1) :
    ∃ a c, s = a ++ (l ++ (crlf ++ c)) := by
  obtain ⟨ls, ms, hls⟩ := List.append_of_mem hl
  refine ⟨joinLines ls, joinLines ms ++ (splitLines s).2, ?_⟩
  conv_lhs => rw [← joinLines_splitLines s, hls]
  simp

/-! ## The first line -/

/-- The position of the first CR LF. -/
def findCrlf : Bytes → Option Nat
  | [] => none
  | b :: s => if b = cr ∧ s.head? = some lf then some 0 else (findCrlf s).map (· + 1)

/-- A text without CR LF is a line. -/
theorem findCrlf_eq_none {s : Bytes} : findCrlf s = none ↔ IsLine s := by
  induction s with
  | nil => simp [findCrlf, IsLine, crlf]
  | cons b s ih =>
    have hhead : crlf <+: b :: s ↔ b = cr ∧ s.head? = some lf := by
      cases s with
      | nil => simp [crlf]
      | cons c s => simp [crlf, eq_comm]
    rw [IsLine, List.infix_cons_iff, hhead, not_or]
    by_cases h : b = cr ∧ s.head? = some lf
    · simp [findCrlf, h]
    · rw [findCrlf, if_neg h, Option.map_eq_none_iff, ih, IsLine]
      exact ⟨fun hs => ⟨h, hs⟩, fun hs => hs.2⟩

instance (l : Bytes) : Decidable (IsLine l) := decidable_of_iff _ findCrlf_eq_none

/-- A map of bytes that neither makes nor loses a CR or LF. -/
theorem isLine_map {f : Byte → Byte} (hf : ∀ b, (f b = cr ↔ b = cr) ∧ (f b = lf ↔ b = lf))
    {l : Bytes} (hl : IsLine l) : IsLine (l.map f) := by
  have hfind : findCrlf (l.map f) = findCrlf l := by
    clear hl
    induction l with
    | nil => rfl
    | cons b l ih =>
      have hhead : (l.map f).head? = some lf ↔ l.head? = some lf := by
        cases l with
        | nil => simp
        | cons c l => simpa using (hf c).2
      simp only [List.map_cons, findCrlf, ih, (hf b).1, hhead]
  rw [← findCrlf_eq_none] at hl ⊢
  rw [hfind, hl]

/-- The first CR LF ends the first line. -/
theorem findCrlf_line {l : Bytes} (hl : IsLine l) (s : Bytes) :
    findCrlf (l ++ (crlf ++ s)) = some l.length := by
  induction l with
  | nil => simp [findCrlf, crlf]
  | cons b l ih =>
    have hrest : IsLine l := hl.of_infix (List.suffix_cons b l).isInfix
    have hno : ¬(b = cr ∧ (l ++ (crlf ++ s)).head? = some lf) := by
      rintro ⟨rfl, hhead⟩
      cases l with
      | nil => simp [crlf, cr, lf] at hhead
      | cons c l =>
        obtain rfl : c = lf := by simpa using hhead
        exact hl ⟨[], l, rfl⟩
    rw [List.cons_append, findCrlf, if_neg hno, ih hrest]
    rfl

/-- What the first CR LF separates. -/
theorem eq_of_findCrlf_eq_some {s : Bytes} {i : Nat} (h : findCrlf s = some i) :
    ∃ l rest, s = l ++ (crlf ++ rest) ∧ IsLine l ∧ l.length = i := by
  induction s generalizing i with
  | nil => simp [findCrlf] at h
  | cons b s ih =>
    rw [findCrlf] at h
    split_ifs at h with hb
    · obtain rfl : 0 = i := by simpa using h
      obtain ⟨rfl, hs⟩ := hb
      obtain ⟨rest, rfl⟩ : ∃ rest, s = lf :: rest := by
        cases s with
        | nil => simp at hs
        | cons c rest => exact ⟨rest, by simpa using hs⟩
      exact ⟨[], rest, rfl, by simp [IsLine, crlf], rfl⟩
    · obtain ⟨j, hj, rfl⟩ := Option.map_eq_some_iff.mp h
      obtain ⟨l, rest, rfl, hl, rfl⟩ := ih hj
      refine ⟨b :: l, rest, rfl, ?_, rfl⟩
      intro hinf
      rcases List.infix_cons_iff.mp hinf with ⟨v, hv⟩ | hinf
      · obtain ⟨hcr, hlf⟩ := List.cons.inj hv
        apply hb
        constructor
        · exact hcr.symm
        · cases l with
          | nil => simp at hlf
          | cons c l =>
            obtain rfl : lf = c := (List.cons.inj hlf).1
            rfl
      · exact hl hinf

/-- The first line of a text is determined by it. -/
theorem line_append_inj {l m s t : Bytes} (hl : IsLine l) (hm : IsLine m)
    (h : l ++ (crlf ++ s) = m ++ (crlf ++ t)) : l = m ∧ s = t := by
  have hlength : l.length = m.length := by
    have hfind := findCrlf_line hl s
    rw [h, findCrlf_line hm t] at hfind
    exact (Option.some.inj hfind).symm
  obtain ⟨hlm, hst⟩ := List.append_inj h hlength
  exact ⟨hlm, (List.append_cancel_left hst)⟩

/-- The first line of a text is the blank one behind these lines, or the first of them. -/
theorem line_append_joinLines {l s t : Bytes} {ls : List Bytes} (hl : IsLine l)
    (hls : ∀ m ∈ ls, IsLine m) (h : l ++ (crlf ++ s) = joinLines ls ++ (crlf ++ t)) :
    (ls = [] ∧ l = [] ∧ s = t) ∨ ∃ ms, ls = l :: ms ∧ s = joinLines ms ++ (crlf ++ t) := by
  cases ls with
  | nil =>
    obtain ⟨rfl, hst⟩ := line_append_inj hl isLine_nil h
    exact .inl ⟨rfl, rfl, hst⟩
  | cons m ms =>
    rw [joinLines_cons, List.append_assoc, List.append_assoc] at h
    obtain ⟨rfl, hst⟩ := line_append_inj hl (hls m List.mem_cons_self) h
    exact .inr ⟨ms, rfl, hst⟩

/-! ## Beginnings and ends of a text -/

/-- A text that begins another one ends in its first part or behind that. -/
theorem prefix_append_cases {α : Type*} {v a b : List α} (h : v <+: a ++ b) :
    v <+: a ∨ ∃ w, w ≠ [] ∧ v = a ++ w ∧ w <+: b := by
  rcases List.prefix_or_prefix_of_prefix h (List.prefix_append a b) with hshort | ⟨w, rfl⟩
  · exact .inl hshort
  · by_cases hw : w = []
    · subst hw
      rw [List.append_nil]
      exact .inl List.prefix_rfl
    · exact .inr ⟨w, hw, rfl, (List.prefix_append_right_inj a).mp h⟩

/-- A line and perhaps the CR behind it. -/
theorem IsLine.of_prefix_cr {l v : Bytes} (hl : IsLine l) (hv : v <+: l ++ [cr]) : IsLine v := by
  have hcr : IsLine (l ++ [cr]) := isLine_append_singleton.mpr ⟨hl, fun h => absurd h.1 (by decide)⟩
  exact hcr.of_infix hv.isInfix

/-- A text that begins a line with its end and what follows stops before the end, or goes on. -/
theorem prefix_line_cases {l v s : Bytes} (h : v <+: l ++ (crlf ++ s)) :
    v <+: l ++ [cr] ∨ ∃ w, v = l ++ (crlf ++ w) ∧ w <+: s := by
  have hassoc : l ++ (crlf ++ s) = (l ++ [cr]) ++ (lf :: s) := by simp [crlf]
  rw [hassoc] at h
  rcases prefix_append_cases h with hshort | ⟨w, hne, rfl, hw⟩
  · exact .inl hshort
  · cases w with
    | nil => exact absurd rfl hne
    | cons b w =>
      obtain ⟨rfl, hrest⟩ := List.cons_prefix_cons.mp hw
      exact .inr ⟨w, by simp [crlf], hrest⟩

/-- A text that begins with a byte which does not stand in the first part ends in the second one. -/
theorem suffix_of_notMem {α : Type*} {x : α} {z a b : List α} (hx : x ∉ a) (h : x :: z <:+ a ++ b) :
    x :: z <:+ b := by
  induction a with
  | nil => exact h
  | cons c a ih =>
    rcases List.suffix_cons_iff.mp h with heq | hrest
    · obtain ⟨rfl, -⟩ := List.cons.inj heq
      exact absurd List.mem_cons_self hx
    · exact ih (fun hmem => hx (List.mem_cons_of_mem _ hmem)) hrest

end Foundation
