import Mathlib.Data.List.Infix
import Mathlib.Data.Int.Bitwise
import Mathlib.Tactic

/-!
# Bytes, C strings and decimal numbers

The byte-level vocabulary of programs that talk to sockets in C: byte strings, the part of a
buffer that a `char *` denotes (`cString`), the case-insensitive search `strcasestr`, the parsers
`strtol` and `atoi` of the C library, and the decimal digits that `printf("%zu")` writes.

Searching a text whose beginning is known and whose end is arbitrary is reduced to a check on the
beginning alone: `clashAll needle a` says that no occurrence of `needle` can start inside `a`,
whatever follows, and `strcasestr_append_of_clashAll` then skips `a`.
-/

namespace Foundation

/-- A byte. -/
abbrev Byte := UInt8

/-- A byte string. -/
abbrev Bytes := List Byte

instance : LawfulBEq Bytes := inferInstance

/-- The bytes of an ASCII text. -/
def ascii (s : String) : Bytes := s.toList.map fun c => c.toNat.toUInt8

/-- Carriage return. -/
def cr : Byte := 13

/-- Line feed. -/
def lf : Byte := 10

/-- The line end of the text protocols. -/
def crlf : Bytes := [cr, lf]

/-- Check a property of every byte of a closed string. -/
theorem forall_mem_of_all {s : Bytes} {p : Byte → Prop} [DecidablePred p]
    (h : (s.all fun b => decide (p b)) = true) : ∀ b ∈ s, p b := by
  intro b hb
  exact of_decide_eq_true (List.all_eq_true.mp h b hb)

/-- The string a `char *` to these bytes denotes: everything before the first NUL. -/
def cString (s : Bytes) : Bytes := s.takeWhile fun b => b != 0

/-- A string without NUL is its own C string, whatever follows is cut separately. -/
theorem cString_append_of_forall {a : Bytes} (ha : ∀ b ∈ a, b ≠ 0) (x : Bytes) :
    cString (a ++ x) = a ++ cString x := by
  induction a with
  | nil => rfl
  | cons b a ih =>
    have hb : b ≠ 0 := ha b (by simp)
    have hrest : cString (a ++ x) = a ++ cString x := ih fun c hc => ha c (by simp [hc])
    have hcons : cString ((b :: a) ++ x) = b :: cString (a ++ x) := by
      simp [cString, hb]
    rw [hcons, hrest, List.cons_append]

/-- A string without NUL is its own C string. -/
theorem cString_eq_self {a : Bytes} (ha : ∀ b ∈ a, b ≠ 0) : cString a = a := by
  simpa [cString] using cString_append_of_forall ha []

/-- A C string is an initial segment of the buffer. -/
theorem isPrefix_cString (a : Bytes) : cString a <+: a := List.takeWhile_prefix _

/-- `g_strsplit(s, d, 0)` for a delimiter of one character: the parts between the delimiters, none
for the empty string. -/
def strsplit (d : Byte) (s : Bytes) : List Bytes := if s = [] then [] else s.splitOn d

/-- `g_strsplit(s, d, 2)`: the part before the first delimiter, and everything behind it if there is
one. -/
def strsplit2 (d : Byte) (s : Bytes) : Bytes × Option Bytes :=
  match s.dropWhile fun b => b != d with
  | [] => (s, none)
  | _ :: rest => (s.takeWhile fun b => b != d, some rest)

/-! ## Case-insensitive comparison and search -/

/-- `tolower` of the C locale. -/
def toLower (b : Byte) : Byte := if 65 ≤ b ∧ b ≤ 90 then b + 32 else b

/-- Equality up to ASCII case, `strcasecmp(a, b) == 0`. -/
def caselessEq (a b : Bytes) : Bool := a.map toLower == b.map toLower

/-- Is `needle` an initial segment of the text, up to ASCII case? -/
def caselessPrefix : Bytes → Bytes → Bool
  | [], _ => true
  | _ :: _, [] => false
  | n :: ns, h :: hs => toLower n == toLower h && caselessPrefix ns hs

/-- `strcasestr`: the position of the first occurrence of `needle`, up to ASCII case. -/
def strcasestr (needle : Bytes) : Bytes → Option Nat
  | [] => if needle = [] then some 0 else none
  | h :: hs =>
    if caselessPrefix needle (h :: hs) then some 0 else (strcasestr needle hs).map (· + 1)

/-- The two strings differ, up to case, at a position both have. -/
def clash : Bytes → Bytes → Bool
  | n :: ns, h :: hs => toLower n != toLower h || clash ns hs
  | _, _ => false

/-- No occurrence of `needle` can start at any position of the text, whatever follows it. -/
def clashAll (needle : Bytes) : Bytes → Bool
  | [] => true
  | h :: hs => clash needle (h :: hs) && clashAll needle hs

/-- A string begins with itself. -/
theorem caselessPrefix_append_self (needle x : Bytes) :
    caselessPrefix needle (needle ++ x) = true := by
  induction needle with
  | nil => rfl
  | cons n ns ih => simp [caselessPrefix, ih]

/-- An initial segment is no longer than the text. -/
theorem length_le_of_caselessPrefix {needle hay : Bytes} (h : caselessPrefix needle hay = true) :
    needle.length ≤ hay.length := by
  induction needle generalizing hay with
  | nil => simp
  | cons n ns ih =>
    cases hay with
    | nil => simp [caselessPrefix] at h
    | cons c hs =>
      simp only [caselessPrefix, Bool.and_eq_true] at h
      simpa using ih h.2

/-- An initial segment stays one when the text grows. -/
theorem caselessPrefix_append {needle hay : Bytes} (h : caselessPrefix needle hay = true)
    (x : Bytes) : caselessPrefix needle (hay ++ x) = true := by
  induction needle generalizing hay with
  | nil => rfl
  | cons n ns ih =>
    cases hay with
    | nil => simp [caselessPrefix] at h
    | cons c hs =>
      simp only [caselessPrefix, Bool.and_eq_true] at h
      simp [caselessPrefix, h.1, ih h.2]

/-- A clash rules out an occurrence, whatever follows. -/
theorem caselessPrefix_append_of_clash {needle hay : Bytes} (h : clash needle hay = true)
    (x : Bytes) : caselessPrefix needle (hay ++ x) = false := by
  induction needle generalizing hay with
  | nil => simp [clash] at h
  | cons n ns ih =>
    cases hay with
    | nil => simp [clash] at h
    | cons c hs =>
      simp only [clash, Bool.or_eq_true, bne_iff_ne] at h
      rcases h with h | h
      · simp [caselessPrefix, h]
      · simp [caselessPrefix, ih h]

/-- A text in which no occurrence can start is skipped by the search. -/
theorem strcasestr_append_of_clashAll {needle a : Bytes} (h : clashAll needle a = true)
    (x : Bytes) : strcasestr needle (a ++ x) = (strcasestr needle x).map (· + a.length) := by
  induction a with
  | nil => simp
  | cons c a ih =>
    simp only [clashAll, Bool.and_eq_true] at h
    have hno : caselessPrefix needle (c :: a ++ x) = false :=
      caselessPrefix_append_of_clash h.1 x
    rw [List.cons_append] at hno ⊢
    rw [strcasestr, if_neg (by simp [hno]), ih h.2, Option.map_map]
    rfl

/-- Concatenating two clashing texts. -/
theorem clashAll_append {needle a b : Bytes} (ha : clashAll needle a = true)
    (hb : clashAll needle b = true) : clashAll needle (a ++ b) = true := by
  have hgrow : ∀ {n h : Bytes}, clash n h = true → clash n (h ++ b) = true := by
    intro n
    induction n with
    | nil => simp [clash]
    | cons c n ih =>
      intro h hc
      cases h with
      | nil => simp [clash] at hc
      | cons d h =>
        simp only [clash, Bool.or_eq_true, List.cons_append] at hc ⊢
        exact hc.imp id ih
  induction a with
  | nil => simpa using hb
  | cons c a ih =>
    simp only [clashAll, Bool.and_eq_true, List.cons_append] at ha ⊢
    exact ⟨hgrow (h := c :: a) ha.1, ih ha.2⟩

/-- No occurrence starts at bytes that differ from the first byte of the needle. -/
theorem clashAll_of_forall_ne {n : Byte} {ns a : Bytes} (h : ∀ b ∈ a, toLower n ≠ toLower b) :
    clashAll (n :: ns) a = true := by
  induction a with
  | nil => rfl
  | cons c a ih =>
    have hc : toLower n ≠ toLower c := h c (by simp)
    simp [clashAll, clash, hc, ih fun b hb => h b (by simp [hb])]

/-- An occurrence at the very beginning. -/
theorem strcasestr_of_caselessPrefix {needle hay : Bytes} (h : caselessPrefix needle hay = true) :
    strcasestr needle hay = some 0 := by
  cases hay with
  | nil =>
    have : needle = [] := by
      cases needle with
      | nil => rfl
      | cons n ns => simp [caselessPrefix] at h
    simp [strcasestr, this]
  | cons c hs => simp [strcasestr, h]

/-- An occurrence fits into the text. -/
theorem add_length_le_of_strcasestr {needle p : Bytes} {j : Nat}
    (h : strcasestr needle p = some j) : j + needle.length ≤ p.length := by
  induction p generalizing j with
  | nil =>
    simp only [strcasestr] at h
    split at h
    · rename_i hn
      obtain rfl : j = 0 := by simpa using h.symm
      simp [hn]
    · simp at h
  | cons c p ih =>
    simp only [strcasestr] at h
    split at h
    · rename_i hp
      obtain rfl : j = 0 := by simpa using h.symm
      simpa using length_le_of_caselessPrefix hp
    · obtain ⟨k, hk, rfl⟩ := Option.map_eq_some_iff.mp h
      have := ih hk
      simp only [List.length_cons]
      omega

/-- Only the first `needle.length` bytes of a text decide whether it begins with `needle`. -/
theorem caselessPrefix_of_append {needle p x : Bytes}
    (h : caselessPrefix needle (p ++ x) = true) (hlen : needle.length ≤ p.length) :
    caselessPrefix needle p = true := by
  induction needle generalizing p with
  | nil => rfl
  | cons c n ih =>
    cases p with
    | nil => simp at hlen
    | cons d p =>
      simp only [List.cons_append, caselessPrefix, Bool.and_eq_true] at h ⊢
      exact ⟨h.1, ih h.2 (by simpa using hlen)⟩

/-- The first occurrence stays the first when the text grows. -/
theorem strcasestr_append_of_some {needle p : Bytes} {i : Nat} (h : strcasestr needle p = some i)
    (x : Bytes) : strcasestr needle (p ++ x) = some i := by
  induction p generalizing i with
  | nil =>
    simp only [strcasestr] at h
    split at h
    · rename_i hn
      obtain rfl : i = 0 := by simpa using h.symm
      exact strcasestr_of_caselessPrefix (by simp [hn, caselessPrefix])
    · simp at h
  | cons c p ih =>
    simp only [strcasestr] at h
    split at h
    · rename_i hp
      obtain rfl : i = 0 := by simpa using h.symm
      exact strcasestr_of_caselessPrefix (caselessPrefix_append hp x)
    · rename_i hp
      obtain ⟨j, hj, rfl⟩ := Option.map_eq_some_iff.mp h
      -- an occurrence at the front would fit in front of the later one at `j`
      have hno : ¬caselessPrefix needle (c :: (p ++ x)) = true := by
        intro hyes
        have hlen := add_length_le_of_strcasestr hj
        exact hp (caselessPrefix_of_append (x := x) hyes (by simp only [List.length_cons]; omega))
      rw [List.cons_append, strcasestr, if_neg hno, ih hj]
      rfl

/-! ## Numbers -/

/-- The decimal digits of a number, as `printf("%zu")` writes them. -/
def decimal (n : Nat) : Bytes := (Nat.toDigits 10 n).map fun c => c.toNat.toUInt8

/-- `isspace` of the C locale. -/
def isSpace (b : Byte) : Bool := b == 32 || (9 ≤ b && b ≤ 13)

/-- `isdigit`. -/
def isDigit (b : Byte) : Bool := 48 ≤ b && b ≤ 57

/-- The number written by the leading digits of a text, on top of those already read. -/
def leadingNat (acc : Nat) : Bytes → Nat
  | [] => acc
  | b :: bs => if isDigit b then leadingNat (acc * 10 + (b.toNat - 48)) bs else acc

/-- Clamp to the range of a 64-bit `long`, as `strtol` does on overflow. -/
def clampInt64 (i : Int) : Int := max (-2 ^ 63) (min (2 ^ 63 - 1) i)

/-- `strtol(s, &end, 10)` and `g_ascii_strtoll(s, NULL, 10)` for a 64-bit result: white space, an
optional sign, digits; zero when there are none. -/
def strtol (s : Bytes) : Int :=
  match s.dropWhile isSpace with
  | 45 :: ds => clampInt64 (-(leadingNat 0 ds : Int))
  | 43 :: ds => clampInt64 (leadingNat 0 ds)
  | ds => clampInt64 (leadingNat 0 ds)

/-- Conversion of a wide integer to a 32-bit `int`. -/
def toInt32 (i : Int) : Int := Int.bmod i (2 ^ 32)

/-- `atoi`, which is `(int) strtol(s, NULL, 10)`. -/
def atoi (s : Bytes) : Int := toInt32 (strtol s)

/-- The text after the leading digits does not matter once it starts with something else. -/
theorem leadingNat_append_of_not_isDigit {ds : Bytes} (acc : Nat) {b : Byte} (rest : Bytes)
    (hb : isDigit b = false) : leadingNat acc (ds ++ b :: rest) = leadingNat acc ds := by
  induction ds generalizing acc with
  | nil => simp [leadingNat, hb]
  | cons d ds ih =>
    by_cases hd : isDigit d = true
    · simp [leadingNat, hd, ih]
    · simp [leadingNat, hd]

/-- A digit character and its byte carry the same value. -/
theorem toNat_sub_of_isDigit {c : Char} (hc : c.isDigit = true) :
    isDigit c.toNat.toUInt8 = true ∧ c.toNat.toUInt8.toNat - 48 = c.toNat - '0'.toNat := by
  have hbounds : 48 ≤ c.toNat ∧ c.toNat ≤ 57 := by
    simp only [Char.isDigit, Bool.and_eq_true, decide_eq_true_eq, ge_iff_le,
      UInt32.le_iff_toNat_le] at hc
    exact ⟨hc.1, hc.2⟩
  have htoNat : c.toNat.toUInt8.toNat = c.toNat := by
    simp only [Nat.toUInt8, UInt8.toNat_ofNat']
    omega
  refine ⟨?_, by rw [htoNat]; rfl⟩
  simp only [isDigit, Bool.and_eq_true, decide_eq_true_eq, UInt8.le_iff_toNat_le, htoNat]
  exact ⟨hbounds.1, hbounds.2⟩

/-- Reading digit bytes is reading the digit characters. -/
theorem leadingNat_map_of_forall {cs : List Char} (acc : Nat)
    (hcs : ∀ c ∈ cs, c.isDigit = true) :
    leadingNat acc (cs.map fun c => c.toNat.toUInt8) = Nat.ofDigitChars 10 cs acc := by
  induction cs generalizing acc with
  | nil => simp [leadingNat, Nat.ofDigitChars]
  | cons c cs ih =>
    obtain ⟨hdigit, hval⟩ := toNat_sub_of_isDigit (hcs c (by simp))
    have hstep := ih (acc * 10 + (c.toNat - '0'.toNat)) fun d hd => hcs d (by simp [hd])
    rw [List.map_cons, leadingNat, if_pos hdigit, hval, hstep, Nat.ofDigitChars_cons,
      Nat.mul_comm]

/-- Every byte of a printed number is a digit. -/
theorem isDigit_of_mem_decimal {n : Nat} {b : Byte} (hb : b ∈ decimal n) : isDigit b = true := by
  obtain ⟨c, hc, rfl⟩ := List.mem_map.mp hb
  exact (toNat_sub_of_isDigit (Nat.isDigit_of_mem_toDigits (by decide) (by decide) hc)).1

/-- Reading a printed number back. -/
theorem leadingNat_decimal (n : Nat) : leadingNat 0 (decimal n) = n := by
  rw [decimal, leadingNat_map_of_forall 0
    fun c hc => Nat.isDigit_of_mem_toDigits (by decide) (by decide) hc]
  exact Nat.ofDigitChars_ten_toDigits

/-- A printed number has at least one digit. -/
theorem decimal_ne_nil (n : Nat) : decimal n ≠ [] := by
  simp [decimal, Nat.toDigits_ne_nil]

/-- A number below `10 ^ e` has at most `e` digits. -/
theorem length_decimal_le {n e : Nat} (he : 0 < e) (hn : n < 10 ^ e) : (decimal n).length ≤ e := by
  rw [decimal, List.length_map]
  exact Nat.toDigits_length 10 n e he hn

/-- Splitting at a delimiter that the first part does not hold. -/
theorem strsplit_append_cons {d : Byte} {a rest : Bytes} (ha : d ∉ a) :
    strsplit d (a ++ d :: rest) = a :: rest.splitOn d := by
  rw [strsplit, if_neg (by simp), List.splitOn_append_cons_self_of_not_mem ha]

/-- A text that starts with a digit is read as a number without sign. -/
theorem strtol_of_isDigit {b : Byte} {bs : Bytes} (hb : isDigit b = true) :
    strtol (b :: bs) = clampInt64 (leadingNat 0 (b :: bs)) := by
  have hbounds : 48 ≤ b.toNat ∧ b.toNat ≤ 57 := by
    simpa [isDigit, UInt8.le_iff_toNat_le] using hb
  have hspace : isSpace b = false := by
    have h32 : b ≠ 32 := by
      rintro rfl
      exact absurd hb (by decide)
    have h13 : ¬b ≤ 13 := by
      rw [UInt8.le_iff_toNat_le]
      exact fun h => absurd (hbounds.1.trans h) (by decide)
    simp [isSpace, h32, h13]
  have hminus : b ≠ 45 := by
    rintro rfl
    exact absurd hb (by decide)
  have hplus : b ≠ 43 := by
    rintro rfl
    exact absurd hb (by decide)
  rw [strtol, List.dropWhile_cons_of_neg (by simp [hspace])]
  split
  · rename_i h
    exact absurd (List.cons.inj h).1 hminus
  · rename_i h
    exact absurd (List.cons.inj h).1 hplus
  · rfl

/-- Reading on makes the number no smaller. -/
theorem le_leadingNat (acc : Nat) (ds : Bytes) : acc ≤ leadingNat acc ds := by
  induction ds generalizing acc with
  | nil => exact le_rfl
  | cons d ds ih =>
    rw [leadingNat]
    split
    · have hmore := ih (acc * 10 + (d.toNat - 48))
      omega
    · exact le_rfl

/-- A printed number that is followed by something else. -/
theorem leadingNat_decimal_append (n : Nat) {rest : Bytes}
    (hrest : ∀ b ∈ rest.head?, isDigit b = false) : leadingNat 0 (decimal n ++ rest) = n := by
  cases rest with
  | nil => rw [List.append_nil, leadingNat_decimal]
  | cons b rest =>
    rw [leadingNat_append_of_not_isDigit 0 rest (hrest b rfl), leadingNat_decimal]

theorem strtol_decimal_append {n : Nat} (hn : n < 2 ^ 63) {rest : Bytes}
    (hrest : ∀ b ∈ rest.head?, isDigit b = false) : strtol (decimal n ++ rest) = n := by
  have hread := leadingNat_decimal_append n hrest
  obtain ⟨d, ds, hd⟩ := List.exists_cons_of_ne_nil (decimal_ne_nil n)
  have hdigit : isDigit d = true := isDigit_of_mem_decimal (n := n) (by simp [hd])
  rw [hd, List.cons_append] at hread ⊢
  rw [strtol_of_isDigit hdigit, hread, clampInt64]
  omega

/-- Reading back a printed number that is followed by something else. -/
theorem atoi_decimal_append {n : Nat} (hn : n < 2 ^ 31) {rest : Bytes}
    (hrest : ∀ b ∈ rest.head?, isDigit b = false) : atoi (decimal n ++ rest) = n := by
  rw [atoi, strtol_decimal_append (by omega) hrest, toInt32, Int.bmod_eq_of_le]
  · omega
  · omega

end Foundation
