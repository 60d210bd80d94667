import ShadowExtras.Foundation.Lines

/-!
# Buffers made of extents

What a program may rely on in libevent's `evbuffer`: a queue of bytes that is stored in extents of
contiguous memory. An `Evbuffer` is any implementation of the calls with their documented behaviour
as fields; which extents a content is stored in is up to the implementation, within what `drain` and
`commit` say about them. `Evbuffer.chunked` is an implementation.

`evbuffer_readln` is built from the others: with `EVBUFFER_EOL_CRLF_STRICT` it takes the first line,
whose end is CR LF, out of the buffer. `evbuffer_peek` returns the number of extents that the
requested bytes need, also when it was given fewer vectors to fill in.
-/

namespace Foundation

/-! ## Lists of extents -/

/-- What is left of the extents when the first `n` bytes are removed. -/
def dropExtents : ℕ → List Bytes → List Bytes
  | _, [] => []
  | n, e :: es => if n < e.length then e.drop n :: es else dropExtents (n - e.length) es

/-- The first extents, as many as are needed for `n` bytes, or all. -/
def takeExtents : ℕ → List Bytes → List Bytes
  | _, [] => []
  | 0, _ => []
  | n + 1, e :: es => e :: takeExtents (n + 1 - e.length) es

/-- What was read into the first of the vectors fits into them. -/
def FitsInto : List Bytes → List ℕ → Prop
  | [], _ => True
  | _ :: _, [] => False
  | p :: ps, s :: ss => p.length ≤ s ∧ FitsInto ps ss

section Extents

variable {es : List Bytes} {m n : ℕ}

/-- The bytes behind those that were dropped. -/
theorem flatten_dropExtents (n : ℕ) (es : List Bytes) :
    (dropExtents n es).flatten = es.flatten.drop n := by
  induction es generalizing n with
  | nil => simp [dropExtents]
  | cons e es ih =>
    by_cases hn : n < e.length
    · rw [dropExtents, if_pos hn, List.flatten_cons, List.flatten_cons,
        List.drop_append_of_le_length hn.le]
    · have hle : e.length ≤ n := Nat.le_of_not_lt hn
      rw [dropExtents, if_neg hn, ih, List.flatten_cons, List.drop_append,
        List.drop_eq_nil_of_le hle, List.nil_append]

/-- Dropping bytes makes no further extents. -/
theorem length_dropExtents_le (n : ℕ) (es : List Bytes) :
    (dropExtents n es).length ≤ es.length := by
  induction es generalizing n with
  | nil => simp [dropExtents]
  | cons e es ih =>
    rw [dropExtents]
    split_ifs
    · simp
    · exact (ih _).trans (Nat.le_succ _)

/-- Bytes that are dropped one after the other. -/
theorem dropExtents_dropExtents (m n : ℕ) (es : List Bytes) :
    dropExtents n (dropExtents m es) = dropExtents (m + n) es := by
  induction es generalizing m with
  | nil => simp [dropExtents]
  | cons e es ih =>
    by_cases hm : m < e.length
    · have hlength : (e.drop m).length = e.length - m := List.length_drop
      rw [dropExtents, if_pos hm]
      by_cases hmn : m + n < e.length
      · rw [dropExtents, dropExtents, if_pos (by omega), if_pos hmn, List.drop_drop]
      · rw [dropExtents, dropExtents, if_neg (by omega), if_neg hmn, hlength]
        congr 1
        omega
    · rw [dropExtents, if_neg hm, ih, dropExtents, if_neg (by omega)]
      congr 1
      omega

/-- The extents for `n` bytes hold as many bytes, or all. -/
theorem length_flatten_takeExtents (n : ℕ) (es : List Bytes) :
    min n es.flatten.length ≤ (takeExtents n es).flatten.length := by
  induction es generalizing n with
  | nil => simp [takeExtents]
  | cons e es ih =>
    cases n with
    | zero => simp
    | succ n =>
      have := ih (n + 1 - e.length)
      simp only [takeExtents, List.flatten_cons, List.length_append]
      omega

/-- No extent is empty. -/
theorem ne_nil_of_mem_dropExtents (hes : ∀ e ∈ es, e ≠ []) {e : Bytes}
    (he : e ∈ dropExtents n es) : e ≠ [] := by
  induction es generalizing n with
  | nil => simp [dropExtents] at he
  | cons d es ih =>
    rw [dropExtents] at he
    split_ifs at he with hn
    · rcases List.mem_cons.mp he with rfl | he
      · simpa using hn
      · exact hes e (by simp [he])
    · exact ih (fun c hc => hes c (by simp [hc])) he

/-- Removing a content that others were appended to. -/
theorem dropExtents_append (es : List Bytes) {fs : List Bytes} (hfs : ∀ f ∈ fs, f ≠ []) :
    dropExtents es.flatten.length (es ++ fs) = fs := by
  induction es with
  | nil =>
    cases fs with
    | nil => simp [dropExtents]
    | cons f fs =>
      have hf : 0 < f.length := List.length_pos_iff.mpr (hfs f (by simp))
      simp [dropExtents, hf]
  | cons e es ih =>
    rw [List.cons_append, dropExtents, List.flatten_cons, List.length_append,
      if_neg (by omega), Nat.add_sub_cancel_left, ih]

/-- Empty pieces do not count. -/
theorem flatten_filter_ne_nil (es : List Bytes) : (es.filter (· ≠ [])).flatten = es.flatten := by
  induction es with
  | nil => rfl
  | cons e es ih =>
    by_cases he : e = []
    · rw [List.filter_cons_of_neg (by simp [he]), ih, he, List.flatten_cons, List.nil_append]
    · rw [List.filter_cons_of_pos (by simp [he]), List.flatten_cons, List.flatten_cons, ih]

/-- The first extents. -/
theorem takeExtents_prefix (n : ℕ) (es : List Bytes) : takeExtents n es <+: es := by
  induction es generalizing n with
  | nil => simp [takeExtents]
  | cons e es ih =>
    cases n with
    | zero => simp [takeExtents]
    | succ n => exact (List.prefix_cons_inj e).mpr (ih _)

/-- There are as many vectors. -/
theorem length_le_of_fitsInto {ps : List Bytes} {ss : List ℕ} (h : FitsInto ps ss) :
    ps.length ≤ ss.length := by
  induction ps generalizing ss with
  | nil => exact Nat.zero_le _
  | cons p ps ih =>
    cases ss with
    | nil => exact h.elim
    | cons s ss => exact Nat.succ_le_succ (ih h.2)

/-- Fewer of the vectors. -/
theorem fitsInto_take {ps : List Bytes} {ss : List ℕ} (h : FitsInto ps ss) (k : ℕ) :
    FitsInto (ps.take k) ss := by
  induction ps generalizing ss k with
  | nil => simpa using h
  | cons p ps ih =>
    cases ss with
    | nil => exact h.elim
    | cons s ss =>
      cases k with
      | zero => exact trivial
      | succ k => exact ⟨h.1, ih h.2 k⟩

end Extents

/-! ## The interface -/

/-- An implementation of `evbuffer`. -/
structure Evbuffer where
  /-- A buffer. -/
  Buf : Type
  /-- `evbuffer_new` -/
  new : Buf
  /-- The content as the extents that hold it, in order. -/
  extents : Buf → List Bytes
  /-- `evbuffer_reserve_space(buf, size, vec, 2)`: the sizes of the vectors that were filled in. -/
  reserve : Buf → ℕ → Buf × List ℕ
  /-- `evbuffer_commit_space`: the content of the first of the vectors reserved. -/
  commit : Buf → List Bytes → Buf
  /-- `evbuffer_add_printf`, for the text it prints. -/
  add : Buf → Bytes → Buf
  /-- `evbuffer_drain` -/
  drain : Buf → ℕ → Buf
  extents_new : extents new = []
  /-- Extents are not empty. -/
  ne_nil_of_mem_extents : ∀ {b e}, e ∈ extents b → e ≠ []
  /-- Reserving leaves the content alone. -/
  extents_reserve : ∀ b n, extents (reserve b n).1 = extents b
  /-- One or two vectors with room are filled in. -/
  length_reserve : ∀ b n, 1 ≤ (reserve b n).2.length ∧ (reserve b n).2.length ≤ 2
  pos_of_mem_reserve : ∀ {b n s}, s ∈ (reserve b n).2 → 0 < s
  /-- What was committed comes after the content. -/
  flatten_commit : ∀ {b n ps}, FitsInto ps (reserve b n).2 →
    (extents (commit (reserve b n).1 ps)).flatten = (extents b).flatten ++ ps.flatten
  /-- What was committed in one vector is contiguous. -/
  length_commit : ∀ {b n ps}, FitsInto ps (reserve b n).2 →
    (dropExtents (extents b).flatten.length (extents (commit (reserve b n).1 ps))).length ≤
      ps.length
  flatten_add : ∀ b bytes, (extents (add b bytes)).flatten = (extents b).flatten ++ bytes
  extents_drain : ∀ b n, extents (drain b n) = dropExtents n (extents b)

namespace Evbuffer

variable (E : Evbuffer)

/-- The content. -/
def bytes (b : E.Buf) : Bytes := (E.extents b).flatten

/-- `evbuffer_get_length` -/
def length (b : E.Buf) : ℕ := (E.bytes b).length

/-- `evbuffer_peek(buf, len, NULL, ..)`: the extents that hold the first `len` bytes; the last of
them may hold more. -/
def peek (b : E.Buf) (len : ℕ) : List Bytes := takeExtents len (E.extents b)

/-- `evbuffer_readln(buf, NULL, EVBUFFER_EOL_CRLF_STRICT)`: the first line without its end, and the
buffer behind it. -/
def readln (b : E.Buf) : Option (Bytes × E.Buf) :=
  (findCrlf (E.bytes b)).map fun i => ((E.bytes b).take i, E.drain b (i + 2))

variable {E}

@[simp] theorem bytes_new : E.bytes E.new = [] := by
  simp [bytes, E.extents_new]

@[simp] theorem bytes_reserve (b : E.Buf) (n : ℕ) : E.bytes (E.reserve b n).1 = E.bytes b := by
  rw [bytes, E.extents_reserve, bytes]

theorem bytes_commit {b : E.Buf} {n : ℕ} {ps : List Bytes} (hps : FitsInto ps (E.reserve b n).2) :
    E.bytes (E.commit (E.reserve b n).1 ps) = E.bytes b ++ ps.flatten := E.flatten_commit hps

@[simp] theorem bytes_add (b : E.Buf) (s : Bytes) : E.bytes (E.add b s) = E.bytes b ++ s :=
  E.flatten_add b s

@[simp] theorem bytes_drain (b : E.Buf) (n : ℕ) : E.bytes (E.drain b n) = (E.bytes b).drop n := by
  rw [bytes, E.extents_drain, flatten_dropExtents, bytes]

/-- No line is taken out of a content without CR LF. -/
theorem readln_eq_none {b : E.Buf} : E.readln b = none ↔ IsLine (E.bytes b) := by
  rw [readln, Option.map_eq_none_iff, findCrlf_eq_none]

/-- The first line is taken out with its end. -/
theorem readln_eq_some {b : E.Buf} {l rest : Bytes} (hl : IsLine l)
    (hb : E.bytes b = l ++ (crlf ++ rest)) : E.readln b = some (l, E.drain b (l.length + 2)) := by
  rw [readln, hb, findCrlf_line hl]
  simp

/-- What is taken out of a content as its first line. -/
theorem bytes_of_readln {b b' : E.Buf} {l : Bytes} (h : E.readln b = some (l, b')) :
    IsLine l ∧ E.bytes b = l ++ (crlf ++ E.bytes b') := by
  obtain ⟨i, hi, hpair⟩ := Option.map_eq_some_iff.mp h
  obtain ⟨m, rest, hbytes, hm, rfl⟩ := eq_of_findCrlf_eq_some hi
  obtain ⟨hl, hb'⟩ := Prod.mk.inj hpair
  have hlm : l = m := by rw [← hl, hbytes, List.take_left]
  have hrest : E.bytes b' = rest := by
    rw [← hb', bytes_drain, hbytes, ← List.append_assoc]
    exact List.drop_left' (by simp [crlf])
  rw [hlm, hrest]
  exact ⟨hm, hbytes⟩

/-- The extents that hold the first `len` bytes hold these bytes, or all. -/
theorem take_flatten_peek (b : E.Buf) (len : ℕ) :
    (E.peek b len).flatten.take len = (E.bytes b).take len := by
  obtain ⟨rest, hrest⟩ := takeExtents_prefix len (E.extents b)
  have hlen := length_flatten_takeExtents len (E.extents b)
  have hbytes : E.bytes b = (E.peek b len).flatten ++ rest.flatten := by
    rw [bytes, ← hrest, List.flatten_append]
    rfl
  rw [hbytes, List.take_append]
  rcases Nat.le_total len (E.extents b).flatten.length with hle | hle
  · have hshort : len ≤ (E.peek b len).flatten.length := by
      rwa [Nat.min_eq_left hle] at hlen
    rw [Nat.sub_eq_zero_of_le hshort, List.take_zero, List.append_nil]
  · have hall : rest.flatten = [] := by
      rw [← List.length_eq_zero_iff]
      have hsum : (E.extents b).flatten.length = (E.peek b len).flatten.length +
          rest.flatten.length := by
        rw [← List.length_append, ← hbytes, bytes]
      rw [Nat.min_eq_right hle] at hlen
      change _ ≤ (E.peek b len).flatten.length at hlen
      omega
    simp [hall]

/-! ## An implementation -/

/-- Every piece that is committed or added is an extent of its own; `reserve` offers one vector of
the size asked for. -/
def chunked : Evbuffer where
  Buf := { es : List Bytes // ∀ e ∈ es, e ≠ [] }
  new := ⟨[], by simp⟩
  extents b := b.1
  reserve b n := (b, [n + 1])
  commit b ps := ⟨b.1 ++ ps.filter (· ≠ []), by
    intro e he
    rcases List.mem_append.mp he with he | he
    · exact b.2 e he
    · simpa using (List.mem_filter.mp he).2⟩
  add b s := ⟨b.1 ++ [s].filter (· ≠ []), by
    intro e he
    rcases List.mem_append.mp he with he | he
    · exact b.2 e he
    · simpa using (List.mem_filter.mp he).2⟩
  drain b n := ⟨dropExtents n b.1, fun e he => ne_nil_of_mem_dropExtents b.2 he⟩
  extents_new := rfl
  ne_nil_of_mem_extents {b e} he := b.2 e he
  extents_reserve _ _ := rfl
  length_reserve _ _ := by simp
  pos_of_mem_reserve {b n s} hs := by
    obtain rfl : s = n + 1 := by simpa using hs
    exact Nat.succ_pos n
  flatten_commit {b n ps} _ := by rw [List.flatten_append, flatten_filter_ne_nil]
  length_commit {b n ps} _ := by
    rw [dropExtents_append b.1 fun f hf => by simpa using (List.mem_filter.mp hf).2]
    exact List.length_filter_le _ _
  flatten_add b s := by
    rw [List.flatten_append, flatten_filter_ne_nil, List.flatten_singleton]
  extents_drain _ _ := rfl

end Evbuffer

end Foundation
