import ShadowExtras.Foundation.Bytes

/-!
# Parsing header values

The parsers for the values of `Range` and `Content-Range` headers in `http_parse.c`. A parser gets a
`char *` and a position in it; here it gets the bytes from that position to the terminating NUL, and
gives back the bytes from the position that it returns, `none` for `-1`. The NUL itself is left out:
a text that is empty is at its end. Two things end a parser in neither way: a comment that is not
closed, which is read past the NUL, and digits whose value does not fit an `int`.
-/

namespace ShadowExtras.Web

open Foundation

/-- Undefined behaviour of a parser. -/
inductive ParseFault
  /-- Bytes behind the terminating NUL are read. -/
  | overrun
  /-- A value does not fit an `int`. -/
  | intOverflow
  deriving DecidableEq, Repr

/-- A space or a tab. -/
def isBlank (b : Byte) : Bool := b == 32 || b == 9

/-- `skipComment`, from behind the opening parenthesis. -/
def skipComment : Bytes → Except ParseFault (Option Bytes)
  | [] => .error .overrun
  | 92 :: 41 :: rest => skipComment rest
  | 41 :: rest => .ok (some rest)
  | 10 :: b :: rest => if isBlank b then skipComment rest else .ok none
  | 10 :: [] => .ok none
  | 13 :: 10 :: b :: rest => if isBlank b then skipComment rest else .ok none
  | 13 :: _ => .ok none
  | _ :: rest => skipComment rest

/-- The loop of `skipWhitespace`; every round but the last one takes a byte. -/
def skipWhitespaceLoop : Nat → Bytes → Except ParseFault (Option Bytes)
  | 0, s => .ok (some s)
  | fuel + 1, s => match s with
    | 40 :: rest => match skipComment rest with
      | .error f => .error f
      | .ok none => .ok none
      | .ok (some rest) => skipWhitespaceLoop fuel rest
    | 10 :: b :: rest => if isBlank b then skipWhitespaceLoop fuel rest else .ok (some s)
    | 13 :: 10 :: b :: rest => if isBlank b then skipWhitespaceLoop fuel rest else .ok (some s)
    | b :: rest => if isBlank b then skipWhitespaceLoop fuel rest else .ok (some s)
    | [] => .ok (some s)

/-- `skipWhitespace` -/
def skipWhitespace (s : Bytes) : Except ParseFault (Option Bytes) :=
  skipWhitespaceLoop (s.length + 1) s

/-- The loop of `parseInt`, with the value so far. -/
def parseDigits (val : Nat) : Bytes → Except ParseFault (Nat × Bytes)
  | [] => .ok (val, [])
  | b :: rest =>
    if isDigit b then
      let val := val * 10 + (b.toNat - 48)
      if val < 2 ^ 31 then parseDigits val rest else .error .intOverflow
    else .ok (val, b :: rest)

/-- `parseInt` -/
def parseInt (s : Bytes) : Except ParseFault (Option (Nat × Bytes)) :=
  match s with
  | [] => .ok none
  | b :: _ =>
    if isDigit b then
      match parseDigits 0 s with
      | .error f => .error f
      | .ok found => .ok (some found)
    else .ok none

/-- `parseRange`: the values of `*from_return` and `*to_return`. -/
def parseRange (s : Bytes) : Except ParseFault (Option (Int × Int)) :=
  match skipWhitespace s with
  | .error f => .error f
  | .ok none => .ok none
  | .ok (some s) =>
    if !(ascii "bytes=").isPrefixOf s then .ok none else
    match skipWhitespace (s.drop 6) with
    | .error f => .error f
    -- the position -1 is outside the text
    | .ok none => .error .overrun
    | .ok (some s) =>
      let start := if s.head? = some 45 then .ok (some (0, s)) else parseInt s
      match start with
      | .error f => .error f
      | .ok none => .ok none
      | .ok (some (first, s)) =>
        if s.head? ≠ some 45 then .ok none else
        match parseInt s.tail with
        | .error f => .error f
        | .ok none => .ok (some (first, -1))
        | .ok (some (last, _)) => .ok (some (first, last))

/-- `parseContentRange`: the values of `*from_return`, `*to_return` and `*full_len_return`. -/
def parseContentRange (s : Bytes) : Except ParseFault (Option (Int × Int × Int)) :=
  match skipWhitespace s with
  | .error f => .error f
  | .ok none => .ok none
  | .ok (some s) =>
    if !(ascii "bytes").isPrefixOf s then .ok none else
    match skipWhitespace (s.drop 5) with
    | .error f => .error f
    -- the position -1 is outside the text
    | .ok none => .error .overrun
    | .ok (some s) =>
      match firstAndLast s with
      | .error f => .error f
      | .ok none => .ok none
      | .ok (some (first, last, s)) =>
        if s.head? ≠ some 47 then .ok none
        else if s.tail.head? = some 42 then .ok (some (first, last, -1))
        else match parseInt s.tail with
        | .error f => .error f
        | .ok none => .ok none
        | .ok (some (full, _)) => .ok (some (first, last, full))
where
  /-- The part of the value in front of the slash. -/
  firstAndLast (s : Bytes) : Except ParseFault (Option (Int × Int × Bytes)) :=
    if s.head? = some 42 then .ok (some (0, -1, s.tail))
    else match parseInt s with
    | .error f => .error f
    | .ok none => .ok none
    | .ok (some (first, s)) =>
      if s.head? ≠ some 45 then .ok none else
      match parseInt s.tail with
      | .error f => .error f
      | .ok none => .ok none
      | .ok (some (last, s)) => .ok (some (first, last, s))

/-! ## Numbers -/

theorem parseDigits_append {ds rest : Bytes} (val : Nat) (hds : ∀ b ∈ ds, isDigit b = true)
    (hrest : ∀ b ∈ rest.head?, isDigit b = false) (hfits : leadingNat val ds < 2 ^ 31) :
    parseDigits val (ds ++ rest) = .ok (leadingNat val ds, rest) := by
  induction ds generalizing val with
  | nil =>
    cases rest with
    | nil => rfl
    | cons b rest => simp [parseDigits, leadingNat, hrest b rfl]
  | cons d ds ih =>
    have hd : isDigit d = true := hds d (by simp)
    simp only [leadingNat, hd, if_true] at hfits ⊢
    have hval : val * 10 + (d.toNat - 48) < 2 ^ 31 := (le_leadingNat _ ds).trans_lt hfits
    simp only [List.cons_append, parseDigits, hd, hval, if_true]
    exact ih _ (fun b hb => hds b (by simp [hb])) hfits

/-- `parseInt` reads back a printed number, also the greatest `int`. -/
theorem parseInt_decimal_append {n : Nat} (hn : n < 2 ^ 31) {rest : Bytes}
    (hrest : ∀ b ∈ rest.head?, isDigit b = false) :
    parseInt (decimal n ++ rest) = .ok (some (n, rest)) := by
  have hdigits := parseDigits_append 0 (fun b hb => isDigit_of_mem_decimal (n := n) hb) hrest
    (by rw [leadingNat_decimal]; exact hn)
  obtain ⟨d, ds, hd⟩ := List.exists_cons_of_ne_nil (decimal_ne_nil n)
  have hdigit : isDigit d = true := isDigit_of_mem_decimal (n := n) (by simp [hd])
  rw [hd, List.cons_append] at hdigits ⊢
  simp only [parseInt, hdigit, if_true]
  rw [hdigits, ← hd, leadingNat_decimal]

/-! ## White space -/

theorem skipWhitespace_blank (s : Bytes) : skipWhitespace (32 :: s) = skipWhitespace s := by
  simp [skipWhitespace, skipWhitespaceLoop, isBlank]

/-- Nothing is skipped in front of anything but a comment or white space. -/
theorem skipWhitespace_cons {b : Byte} (hb : b ≠ 40 ∧ b ≠ 10 ∧ b ≠ 13 ∧ isBlank b = false)
    (s : Bytes) :
    skipWhitespace (b :: s) = .ok (some (b :: s)) := by
  obtain ⟨h40, h10, h13, hblank⟩ := hb
  unfold skipWhitespace skipWhitespaceLoop
  split
  · rename_i heq
    exact absurd (List.cons.inj heq).1 h40
  · rename_i heq
    exact absurd (List.cons.inj heq).1 h10
  · rename_i heq
    exact absurd (List.cons.inj heq).1 h13
  · rename_i heq
    obtain ⟨rfl, rfl⟩ := List.cons.inj heq
    simp [hblank]
  · rfl

/-- Nor in front of a number. -/
theorem skipWhitespace_decimal (n : Nat) (rest : Bytes) :
    skipWhitespace (decimal n ++ rest) = .ok (some (decimal n ++ rest)) := by
  obtain ⟨d, ds, hd⟩ := List.exists_cons_of_ne_nil (decimal_ne_nil n)
  have hdigit : isDigit d = true := isDigit_of_mem_decimal (n := n) (by simp [hd])
  rw [hd, List.cons_append]
  refine skipWhitespace_cons ⟨?_, ?_, ?_, ?_⟩ _
  · rintro rfl
    exact absurd hdigit (by decide)
  · rintro rfl
    exact absurd hdigit (by decide)
  · rintro rfl
    exact absurd hdigit (by decide)
  · rw [Bool.eq_false_iff]
    intro hblank
    simp only [isBlank, Bool.or_eq_true, beq_iff_eq] at hblank
    rcases hblank with rfl | rfl
    · exact absurd hdigit (by decide)
    · exact absurd hdigit (by decide)

/-! ## Ranges -/

/-- A printed number does not begin with a given character that is no digit. -/
theorem head?_decimal_append_ne {b : Byte} (hb : isDigit b = false) (n : Nat) (rest : Bytes) :
    (decimal n ++ rest).head? ≠ some b := by
  obtain ⟨d, ds, hd⟩ := List.exists_cons_of_ne_nil (decimal_ne_nil n)
  have hdigit : isDigit d = true := isDigit_of_mem_decimal (n := n) (by simp [hd])
  rw [hd, List.cons_append, List.head?_cons]
  rintro heq
  obtain rfl := Option.some.inj heq
  simp [hdigit] at hb

/-- A range without an end. -/
theorem parseRange_decimal {first : Nat} (hfirst : first < 2 ^ 31) :
    parseRange (ascii "bytes=" ++ decimal first ++ ascii "-") = .ok (some (first, -1)) := by
  have hunit : ascii "bytes=" = [98, 121, 116, 101, 115, 61] := by decide
  have hminus : ascii "-" = [45] := by decide
  have hstart : skipWhitespace (ascii "bytes=" ++ decimal first ++ ascii "-") =
      .ok (some (ascii "bytes=" ++ decimal first ++ ascii "-")) := by
    rw [hunit, List.append_assoc]
    exact skipWhitespace_cons (by decide) _
  have hbytes : (ascii "bytes=").isPrefixOf (ascii "bytes=" ++ decimal first ++ ascii "-") =
      true := by
    rw [List.isPrefixOf_iff_prefix, List.append_assoc]
    exact List.prefix_append _ _
  have hdrop : (ascii "bytes=" ++ decimal first ++ ascii "-").drop 6 =
      decimal first ++ ascii "-" := by
    rw [List.append_assoc]
    exact List.drop_left' (by decide)
  have hnumber : parseInt (decimal first ++ ascii "-") = .ok (some (first, ascii "-")) :=
    parseInt_decimal_append hfirst (by decide +kernel)
  have hfrom : (decimal first ++ ascii "-").head? ≠ some 45 :=
    head?_decimal_append_ne (by decide +kernel) first _
  have hopen : parseInt [] = .ok none := rfl
  unfold parseRange
  rw [hstart]
  simp only [hbytes, hdrop, skipWhitespace_decimal, hnumber, Bool.not_true, Bool.false_eq_true,
    if_false, if_neg hfrom]
  simp [hminus, hopen]

/-- The range of a part, with the length of the whole. -/
theorem parseContentRange_decimal {first last full : Nat} (hfirst : first < 2 ^ 31)
    (hlast : last < 2 ^ 31) (hfull : full < 2 ^ 31) :
    parseContentRange (ascii "bytes " ++ (decimal first ++ ascii "-" ++ decimal last ++ ascii "/" ++
      decimal full)) = .ok (some (first, last, full)) := by
  have hunit : ascii "bytes " = [98, 121, 116, 101, 115, 32] := by decide
  have hminus : ascii "-" = [45] := by decide
  have hslash : ascii "/" = [47] := by decide
  have hrest : decimal first ++ ascii "-" ++ decimal last ++ ascii "/" ++ decimal full =
      decimal first ++ (45 :: (decimal last ++ (47 :: decimal full))) := by
    simp [hminus, hslash]
  rw [hrest]
  generalize hnumbers : decimal first ++ (45 :: (decimal last ++ (47 :: decimal full))) = numbers
  have hstart : skipWhitespace (ascii "bytes " ++ numbers) =
      .ok (some (ascii "bytes " ++ numbers)) := by
    rw [hunit]
    exact skipWhitespace_cons (by decide) _
  have hbytes : (ascii "bytes").isPrefixOf (ascii "bytes " ++ numbers) = true := by
    have hsplit : ascii "bytes " = ascii "bytes" ++ [32] := by decide
    rw [List.isPrefixOf_iff_prefix, hsplit, List.append_assoc]
    exact List.prefix_append _ _
  have hskip : skipWhitespace ((ascii "bytes " ++ numbers).drop 5) = .ok (some numbers) := by
    have hdrop : (ascii "bytes " ++ numbers).drop 5 = 32 :: numbers := by
      rw [hunit]
      rfl
    rw [hdrop, skipWhitespace_blank, ← hnumbers]
    exact skipWhitespace_decimal first _
  have hpart : parseContentRange.firstAndLast numbers =
      .ok (some (first, last, 47 :: decimal full)) := by
    have hnumber : parseInt numbers =
        .ok (some (first, 45 :: (decimal last ++ (47 :: decimal full)))) := by
      rw [← hnumbers]
      exact parseInt_decimal_append hfirst (by simp [isDigit])
    have hnumber' : parseInt (decimal last ++ (47 :: decimal full)) =
        .ok (some (last, 47 :: decimal full)) :=
      parseInt_decimal_append hlast (by simp [isDigit])
    have hstar : numbers.head? ≠ some 42 := by
      rw [← hnumbers]
      exact head?_decimal_append_ne (by decide) first _
    unfold parseContentRange.firstAndLast
    rw [if_neg hstar, hnumber]
    simp [hnumber']
  have hlength : parseInt (decimal full) = .ok (some (full, [])) := by
    have hall : parseInt (decimal full ++ []) = _ := parseInt_decimal_append hfull (by simp)
    rwa [List.append_nil] at hall
  have hstar : (decimal full).head? ≠ some 42 := by
    have hall := head?_decimal_append_ne (b := 42) (by decide) full []
    rwa [List.append_nil] at hall
  unfold parseContentRange
  rw [hstart]
  simp [hbytes, hskip, hpart, hlength, hstar]

end ShadowExtras.Web
