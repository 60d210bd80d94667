import ShadowExtras.Ping.PingServer

/-!
# The records of pings

What the ping server reads from pieces of a stream of records. A whole record is read in three
parts, the last of them blank, and recorded (`reads_record`); of a piece of a record nothing is
recorded, with two exceptions that end behind a line (`heard_reads_of_prefix`). Nothing is recorded
without the line with the cookie, so what is recorded of a piece of the stream has the cookie of a
record that begins in it (`cookie_of_mem_heard`).
-/

namespace ShadowExtras.Ping

open Foundation Torrent

/-! ## Numbers -/

/-- The digits of a cookie. -/
theorem mem_hex8 {n : UInt32} {b : Byte} (hb : b ∈ hex8 n) : ∃ k < 16, b = hexDigit k := by
  obtain ⟨i, -, rfl⟩ := List.mem_map.mp hb
  exact ⟨_, Nat.mod_lt _ (by decide), rfl⟩

theorem hexValue_hexDigit {k : ℕ} (hk : k < 16) : hexValue (hexDigit k) = some k := by
  interval_cases k <;> decide

/-- The digits of a cookie are read back. -/
theorem leadingHex_hex8 (n : UInt32) : leadingHex 0 (hex8 n) = n.toNat := by
  have hdigit : ∀ i, hexValue (hexDigit (n.toNat / 16 ^ i % 16)) = some (n.toNat / 16 ^ i % 16) :=
    fun i => hexValue_hexDigit (Nat.mod_lt _ (by decide))
  have hlt := n.toNat_lt
  simp only [hex8, List.map_cons, List.map_nil, leadingHex, hdigit]
  omega

/-- Eight digits have the value that they were written for. -/
theorem unsignedHex_hex8 (n : UInt32) : unsignedHex (hex8 n) = n.toNat := by
  have hx : ∀ b ∈ hex8 n, toLower b ≠ 120 := by
    intro b hb
    obtain ⟨k, hk, rfl⟩ := mem_hex8 hb
    interval_cases k <;> decide
  rw [← leadingHex_hex8]
  unfold unsignedHex
  split
  · rename_i x ds hds
    rw [if_neg (hx x (by simp [hds]))]
    rw [hds]
  · rfl

theorem saturate_toNat (n : UInt64) : saturate n.toNat = n := by
  have hlt := n.toNat_lt
  rw [saturate, Nat.min_eq_left (by omega), UInt64.ofNat_toNat]

/-- A number that begins with neither white space nor a sign. -/
theorem strtoull_of_head {digits : Bytes → ℕ} {s : Bytes}
    (h : ∀ b ∈ s.head?, isSpace b = false ∧ b ≠ 45 ∧ b ≠ 43) :
    strtoull digits s = saturate (digits s) := by
  unfold strtoull
  cases s with
  | nil => rfl
  | cons b s =>
    obtain ⟨hspace, hminus, hplus⟩ := h b (by simp)
    rw [List.dropWhile_cons_of_neg (by simp [hspace])]
    split
    · simp_all
    · simp_all
    · rfl

/-- The cookie is read as it was written. -/
theorem cookieValue_hex8 (n : UInt32) : cookieValue (hex8 n) = n := by
  have hhead : ∀ b ∈ (hex8 n).head?, isSpace b = false ∧ b ≠ 45 ∧ b ≠ 43 := by
    intro b hb
    obtain ⟨k, hk, rfl⟩ := mem_hex8 (List.mem_of_mem_head? hb)
    interval_cases k <;> decide
  have hvalue : n.toNat = n.toUInt64.toNat := by simp
  rw [cookieValue, strtoull_of_head hhead, unsignedHex_hex8, hvalue, saturate_toNat]
  simp

/-- The time is read as it was written. -/
theorem timeValue_decimal (n : UInt64) : timeValue (decimal n.toNat) = n := by
  have hhead : ∀ b ∈ (decimal n.toNat).head?, isSpace b = false ∧ b ≠ 45 ∧ b ≠ 43 := by
    intro b hb
    have hdigit := isDigit_of_mem_decimal (List.mem_of_mem_head? hb)
    simp only [isDigit, Bool.and_eq_true, decide_eq_true_eq] at hdigit
    simp only [isSpace]
    refine ⟨?_, ?_, ?_⟩ <;> grind
  rw [timeValue, strtoull_of_head hhead, leadingNat_decimal, saturate_toNat]

/-! ## Records -/

/-- A ping that counts: neither its cookie nor its time is 0. -/
structure SentPing where
  cookie : UInt32
  time : UInt64
  cookie_ne : cookie ≠ 0
  time_ne : time ≠ 0
  deriving DecidableEq, Repr

namespace SentPing

/-- What the client sends of a ping. -/
def record (p : SentPing) : Bytes := pingRecord p.cookie p.time

/-- What the server should record of a ping. -/
def heard (p : SentPing) : Heard := ⟨p.cookie, p.time⟩

/-- The first line. -/
def cookiePart (p : SentPing) : Bytes := ascii "TOR-COOKIE: " ++ hex8 p.cookie

/-- The second line. -/
def timePart (p : SentPing) : Bytes := ascii "TIME: " ++ decimal p.time.toNat

/-- The two lines with their ends, which is the record without its last line end. -/
def lines (p : SentPing) : Bytes := p.cookiePart ++ (crlf ++ (p.timePart ++ crlf))

variable (p : SentPing)

theorem record_eq : p.record = p.cookiePart ++ (crlf ++ (p.timePart ++ (crlf ++ crlf))) := by
  simp [record, pingRecord, cookieLine, cookiePart, timePart]

theorem record_eq_lines : p.record = p.lines ++ crlf := by
  rw [record_eq, lines]
  simp only [List.append_assoc]

theorem cookieLine_eq : cookieLine p.cookie = p.cookiePart ++ crlf := rfl

/-- The line of the cookie holds no CR and no NUL. -/
theorem ne_of_mem_cookiePart {b : Byte} (hb : b ∈ p.cookiePart) : b ≠ cr ∧ b ≠ 0 := by
  rcases List.mem_append.mp hb with hb | hb
  · have htext : ∀ b ∈ ascii "TOR-COOKIE: ", b ≠ cr ∧ b ≠ 0 := forall_mem_of_all (by decide)
    exact htext b hb
  · obtain ⟨k, hk, rfl⟩ := mem_hex8 hb
    interval_cases k <;> decide

/-- The line of the time holds no CR and no NUL. -/
theorem ne_of_mem_timePart {b : Byte} (hb : b ∈ p.timePart) : b ≠ cr ∧ b ≠ 0 := by
  rcases List.mem_append.mp hb with hb | hb
  · have htext : ∀ b ∈ ascii "TIME: ", b ≠ cr ∧ b ≠ 0 := forall_mem_of_all (by decide)
    exact htext b hb
  · have hdigit := isDigit_of_mem_decimal hb
    constructor
    · rintro rfl
      exact absurd hdigit (by decide)
    · rintro rfl
      exact absurd hdigit (by decide)

theorem isLine_cookiePart : IsLine p.cookiePart :=
  isLine_of_forall_ne fun _ hb => (p.ne_of_mem_cookiePart hb).1

theorem isLine_timePart : IsLine p.timePart :=
  isLine_of_forall_ne fun _ hb => (p.ne_of_mem_timePart hb).1

/-- A record holds no NUL. -/
theorem ne_zero_of_mem_record {b : Byte} (hb : b ∈ p.record) : b ≠ 0 := by
  have hend : ∀ b ∈ crlf, b ≠ 0 := forall_mem_of_all (by decide)
  rw [record_eq] at hb
  simp only [List.mem_append] at hb
  rcases hb with hb | hb | hb | hb | hb
  · exact (p.ne_of_mem_cookiePart hb).2
  · exact hend b hb
  · exact (p.ne_of_mem_timePart hb).2
  · exact hend b hb
  · exact hend b hb

end SentPing

/-! ## Parts -/

/-- A field whose name holds no colon. -/
theorem splitField_append {name : Bytes} (hname : ∀ b ∈ name, b ≠ 58) (value : Bytes) :
    splitField (name ++ (58 :: 32 :: value)) = (name, some value) := by
  induction name with
  | nil => simp [splitField]
  | cons b name ih =>
    have hb : b ≠ 58 := hname b List.mem_cons_self
    rw [List.cons_append, splitField, if_neg fun h => hb h.1,
      ih fun c hc => hname c (List.mem_cons_of_mem _ hc)]

/-- A part with a field. -/
theorem eq_of_splitField {s name value : Bytes} (h : splitField s = (name, some value)) :
    s = name ++ (58 :: 32 :: value) := by
  induction s generalizing name with
  | nil => simp [splitField] at h
  | cons b s ih =>
    rw [splitField] at h
    split_ifs at h with hsep
    · obtain ⟨rfl, hvalue⟩ := Prod.mk.inj h
      obtain ⟨rfl, hhead⟩ := hsep
      obtain ⟨s, rfl⟩ : ∃ t, s = 32 :: t := by
        cases s with
        | nil => simp at hhead
        | cons c t => exact ⟨t, by simpa using hhead⟩
      obtain rfl := Option.some.inj hvalue
      rfl
    · obtain ⟨rfl, hvalue⟩ := Prod.mk.inj h
      rw [List.cons_append, ← ih (Prod.ext rfl hvalue)]

namespace Reading

variable (r : Reading) (p : SentPing)

/-- The line of the cookie gives the cookie. -/
theorem part_cookiePart : r.part p.cookiePart = { r with cookie := p.cookie } := by
  have hne : p.cookiePart ≠ [] := List.append_ne_nil_of_left_ne_nil (by decide) _
  have hfield : splitField p.cookiePart = (ascii "TOR-COOKIE", some (hex8 p.cookie)) :=
    @splitField_append (ascii "TOR-COOKIE") (forall_mem_of_all (by decide)) (hex8 p.cookie)
  rw [part, if_neg hne, hfield]
  simp only [if_true, cookieValue_hex8]

/-- The line of the time gives the time. -/
theorem part_timePart : r.part p.timePart = { r with sentTime := p.time } := by
  have hne : p.timePart ≠ [] := List.append_ne_nil_of_left_ne_nil (by decide) _
  have hfield : splitField p.timePart = (ascii "TIME", some (decimal p.time.toNat)) :=
    @splitField_append (ascii "TIME") (forall_mem_of_all (by decide)) (decimal p.time.toNat)
  have hname : ascii "TIME" ≠ ascii "TOR-COOKIE" := by decide
  rw [part, if_neg hne, hfield]
  simp only [if_neg hname, if_true, timeValue_decimal]

/-- Only a blank part records something. -/
theorem heard_part {part : Bytes} (hne : part ≠ []) : (r.part part).heard = r.heard := by
  rw [Reading.part, if_neg hne]
  split
  · rfl
  · split_ifs <;> rfl

/-- A blank part, when cookie and time are set. -/
theorem part_nil_of_ne (hcookie : r.cookie ≠ 0) (htime : r.sentTime ≠ 0) :
    r.part [] = { r with heard := r.heard ++ [⟨r.cookie, r.sentTime⟩] } := by
  rw [Reading.part, if_pos rfl, if_pos ⟨htime, hcookie⟩]

/-- A blank part, when the cookie or the time is not set. -/
theorem part_nil_of_eq (h : r.cookie = 0 ∨ r.sentTime = 0) : r.part [] = r := by
  rw [Reading.part, if_pos rfl, if_neg]
  rintro ⟨htime, hcookie⟩
  exact h.elim hcookie htime

end Reading

/-! ## Reading records -/

/-- The text of some records. -/
def recordsText (ps : List SentPing) : Bytes := (ps.map SentPing.record).flatten

@[simp] theorem recordsText_nil : recordsText [] = [] := rfl

theorem recordsText_cons (p : SentPing) (ps : List SentPing) :
    recordsText (p :: ps) = p.record ++ recordsText ps := rfl

theorem recordsText_append (ps qs : List SentPing) :
    recordsText (ps ++ qs) = recordsText ps ++ recordsText qs := by
  simp [recordsText]

namespace Reading

/-- The loop over the parts of a text that is not empty. -/
def reads (r : Reading) (s : Bytes) :
    Reading := ((splitLines s).1 ++ [(splitLines s).2]).foldl part r

variable (r : Reading) {p : SentPing} {s v : Bytes}

theorem reads_line {l : Bytes} (hl : IsLine l) (s : Bytes) :
    r.reads (l ++ (crlf ++ s)) = (r.part l).reads s := by
  rw [reads, splitLines_line hl]
  rfl

theorem reads_of_isLine {l : Bytes} (hl : IsLine l) : r.reads l = r.part l := by
  rw [reads, splitLines_of_isLine hl]
  rfl

theorem reads_nil : r.reads [] = r.part [] := rfl

/-- A line end in front. -/
theorem reads_crlf (s : Bytes) : r.reads (crlf ++ s) = (r.part []).reads s :=
  r.reads_line isLine_nil s

/-- The two lines of a record, with what follows. -/
theorem reads_lines (p : SentPing) (s : Bytes) :
    r.reads (p.lines ++ s) = reads ⟨p.cookie, p.time, r.heard⟩ s := by
  have hassoc : p.lines ++ s = p.cookiePart ++ (crlf ++ (p.timePart ++ (crlf ++ s))) := by
    simp [SentPing.lines]
  rw [hassoc, reads_line _ p.isLine_cookiePart, reads_line _ p.isLine_timePart, part_cookiePart,
    part_timePart]

/-- A record, with what follows. -/
theorem reads_record (p : SentPing) (s : Bytes) :
    r.reads (p.record ++ s) = reads ⟨p.cookie, p.time, r.heard ++ [p.heard]⟩ s := by
  rw [p.record_eq_lines, List.append_assoc, reads_lines, reads_crlf,
    part_nil_of_ne _ p.cookie_ne p.time_ne]
  rfl

/-- A record that lacks its last line end. -/
theorem heard_reads_lines (p : SentPing) : (r.reads p.lines).heard = r.heard ++ [p.heard] := by
  have hread := r.reads_lines p []
  rw [List.append_nil] at hread
  rw [hread, reads_nil, part_nil_of_ne _ p.cookie_ne p.time_ne]
  rfl

/-- The line with the cookie: its end records a ping with the time that was read before. -/
theorem reads_cookieLine (p : SentPing) :
    r.reads (cookieLine p.cookie) = part { r with cookie := p.cookie } [] := by
  have hread := r.reads_line p.isLine_cookiePart []
  rw [List.append_nil, ← p.cookieLine_eq, reads_nil, part_cookiePart] at hread
  exact hread

/-- The variables behind some records. -/
def after (r : Reading) (ps : List SentPing) : Reading :=
  ps.foldl (fun r p => ⟨p.cookie, p.time, r.heard ++ [p.heard]⟩) r

/-- The records at the front of a text are read one by one. -/
theorem reads_text (ps : List SentPing) (s : Bytes) :
    r.reads (recordsText ps ++ s) = (r.after ps).reads s := by
  induction ps generalizing r with
  | nil => rfl
  | cons p ps ih => rw [recordsText_cons, List.append_assoc, reads_record, ih]; rfl

/-- Each record that was read is heard. -/
theorem heard_after (ps : List SentPing) :
    (r.after ps).heard = r.heard ++ ps.map SentPing.heard := by
  induction ps generalizing r with
  | nil => simp [after]
  | cons p ps ih =>
    have hcons : r.after (p :: ps) = after ⟨p.cookie, p.time, r.heard ++ [p.heard]⟩ ps := rfl
    rw [hcons, ih]
    simp

/-- Behind some records, the variables are those of the last one. -/
theorem after_concat (ps : List SentPing) (p : SentPing) :
    r.after (ps ++ [p]) = ⟨p.cookie, p.time, r.heard ++ (ps ++ [p]).map SentPing.heard⟩ := by
  have hconcat : r.after (ps ++ [p]) = ⟨p.cookie, p.time, (r.after ps).heard ++ [p.heard]⟩ := by
    simp [after, List.foldl_append]
  rw [hconcat, heard_after]
  simp

end Reading

/-! ## Pieces of records -/

/-- The beginning of a record records nothing, unless it ends behind a line. -/
theorem heard_reads_of_prefix (r : Reading) {p : SentPing} {v : Bytes} (hv : v <+: p.record)
    (hne : v ≠ [])
    (hcookie : v ≠ cookieLine p.cookie) (hlines : v ≠ p.lines) (hrecord : v ≠ p.record) :
    (r.reads v).heard = r.heard := by
  rw [p.record_eq] at hv
  rcases prefix_line_cases hv with hshort | ⟨w, rfl, hw⟩
  · rw [Reading.reads_of_isLine _ (p.isLine_cookiePart.of_prefix_cr hshort),
      Reading.heard_part _ hne]
  · rw [Reading.reads_line _ p.isLine_cookiePart, Reading.part_cookiePart]
    have hw0 : w ≠ [] := by
      rintro rfl
      exact hcookie (by rw [p.cookieLine_eq, List.append_nil])
    rcases prefix_line_cases hw with hshort | ⟨w', rfl, hw'⟩
    · rw [Reading.reads_of_isLine _ (p.isLine_timePart.of_prefix_cr hshort),
        Reading.heard_part _ hw0]
    · rw [Reading.reads_line _ p.isLine_timePart, Reading.part_timePart]
      have hw1 : w' ≠ [] := by
        rintro rfl
        exact hlines (by rw [SentPing.lines, List.append_nil])
      have hw2 : w' ≠ crlf := by
        rintro rfl
        exact hrecord p.record_eq.symm
      have hw3 : w' <+: [] ++ (crlf ++ []) := hw'
      rcases prefix_line_cases hw3 with hshort | ⟨w'', rfl, hw''⟩
      · rw [Reading.reads_of_isLine _ (isLine_nil.of_prefix_cr hshort), Reading.heard_part _ hw1]
      · obtain rfl := List.prefix_nil.mp hw''
        exact absurd rfl hw2

/-! ## Where a cookie comes from -/

/-- One of the lines is that of a cookie with this value. -/
def FromLine (ls : List Bytes) (cookie : UInt32) : Prop :=
  ∃ y, ascii "TOR-COOKIE: " ++ y ∈ ls ∧ cookieValue y = cookie

/-- A cookie of one of the lines is one of more lines. -/
theorem FromLine.mono {ls ms : List Bytes} {cookie : UInt32} (h : FromLine ls cookie)
    (hsub : ls ⊆ ms) :
    FromLine ms cookie := by
  obtain ⟨y, hy, hvalue⟩ := h
  exact ⟨y, hsub hy, hvalue⟩

namespace Reading

/-- The cookie behind a part. -/
theorem cookie_part (r : Reading) (part : Bytes) :
    (r.part part).cookie = r.cookie ∨
      ∃ y, part = ascii "TOR-COOKIE: " ++ y ∧ (r.part part).cookie = cookieValue y := by
  unfold Reading.part
  split
  · split_ifs
    · exact .inl rfl
    · exact .inl rfl
  · split
    · exact .inl rfl
    · rename_i name value hfield
      split_ifs with hcookie
      · subst hcookie
        exact .inr ⟨value, eq_of_splitField hfield, rfl⟩
      · exact .inl rfl
      · exact .inl rfl

/-- What a part adds has the cookie that was set. -/
theorem mem_heard_part {r : Reading} {part : Bytes} {h : Heard} (hh : h ∈ (r.part part).heard) :
    h ∈ r.heard ∨ r.cookie ≠ 0 ∧ h.cookie = r.cookie := by
  by_cases hpart : part = []
  · subst hpart
    by_cases hset : r.cookie = 0 ∨ r.sentTime = 0
    · rw [part_nil_of_eq r hset] at hh
      exact .inl hh
    · obtain ⟨hcookie, htime⟩ := not_or.mp hset
      rw [part_nil_of_ne r hcookie htime] at hh
      rcases List.mem_append.mp hh with hh | hh
      · exact .inl hh
      · rw [List.mem_singleton.mp hh]
        exact .inr ⟨hcookie, rfl⟩
  · rw [heard_part r hpart] at hh
    exact .inl hh

/-- The cookie, and those of what was recorded, come from the lines. -/
structure Known (old : List Heard) (ls : List Bytes) (r : Reading) : Prop where
  cookie : r.cookie = 0 ∨ FromLine ls r.cookie
  heard : ∀ h ∈ r.heard, h ∈ old ∨ FromLine ls h.cookie

/-- What is known of a reading after one more part. -/
theorem Known.part {old : List Heard} {ls : List Bytes} {r : Reading} (hr : Known old ls r)
    (l : Bytes) :
    Known old (ls ++ [l]) (r.part l) := by
  have hsub : ls ⊆ ls ++ [l] := List.subset_append_left ls [l]
  refine ⟨?_, fun h hh => ?_⟩
  · rcases r.cookie_part l with hsame | ⟨y, rfl, hvalue⟩
    · rw [hsame]
      exact hr.cookie.imp_right fun hfrom => hfrom.mono hsub
    · exact .inr ⟨y, by simp, hvalue.symm⟩
  · rcases mem_heard_part hh with hh | ⟨hne, hcookie⟩
    · exact (hr.heard h hh).imp_right fun hfrom => hfrom.mono hsub
    · rw [hcookie]
      exact .inr ((hr.cookie.resolve_left hne).mono hsub)

/-- What is known of a reading after its parts. -/
theorem known_foldl {r : Reading} (hcookie : r.cookie = 0) (ls : List Bytes) :
    Known r.heard ls (ls.foldl Reading.part r) := by
  induction ls using List.reverseRecOn with
  | nil => exact ⟨.inl hcookie, fun h hh => .inl hh⟩
  | append_singleton ls l ih =>
    rw [List.foldl_append]
    exact ih.part l

/-- When no cookie is set, what is recorded of a text has the cookie in a line of the text. -/
theorem fromLine_of_mem_heard {r : Reading} {s : Bytes} {h : Heard} (hcookie : r.cookie = 0)
    (hh : h ∈ (r.reads s).heard) : h ∈ r.heard ∨ FromLine (splitLines s).1 h.cookie := by
  have hknown := known_foldl hcookie (splitLines s).1
  rw [reads, List.foldl_append] at hh
  rcases mem_heard_part hh with hh | ⟨hne, heq⟩
  · exact hknown.heard h hh
  · rw [heq]
    exact .inr (hknown.cookie.resolve_left hne)

end Reading

/-! ## Where a record begins -/

/-- No other record begins inside of a record. -/
theorem suffix_of_suffix_record (p : SentPing) {z rest : Bytes}
    (h : 84 :: 79 :: z <:+ p.record.tail ++ rest) : 84 :: 79 :: z <:+ rest := by
  have htail : p.record.tail ++ rest = (ascii "OR-COOKIE: " ++ hex8 p.cookie ++ crlf) ++
      (84 :: (73 :: (ascii "ME: " ++ decimal p.time.toNat ++ crlf ++ crlf)) ++ rest) := by
    have hcookie : ascii "TOR-COOKIE: " = 84 :: ascii "OR-COOKIE: " := by decide
    have htime : ascii "TIME: " = 84 :: 73 :: ascii "ME: " := by decide
    rw [p.record_eq, SentPing.cookiePart, SentPing.timePart, hcookie, htime]
    simp
  have hfirst : (84 : Byte) ∉ ascii "OR-COOKIE: " ++ hex8 p.cookie ++ crlf := by
    intro hmem
    rw [List.mem_append, List.mem_append] at hmem
    rcases hmem with (hmem | hmem) | hmem
    · exact absurd hmem (by decide)
    · obtain ⟨k, hk, heq⟩ := mem_hex8 hmem
      revert heq
      interval_cases k <;> decide
    · exact absurd hmem (by decide)
  have hsecond : (84 : Byte) ∉ 73 :: (ascii "ME: " ++ decimal p.time.toNat ++ crlf ++ crlf) := by
    intro hmem
    rw [List.mem_cons, List.mem_append, List.mem_append, List.mem_append] at hmem
    rcases hmem with hmem | ((hmem | hmem) | hmem) | hmem
    · exact absurd hmem (by decide)
    · exact absurd hmem (by decide)
    · exact absurd (isDigit_of_mem_decimal hmem) (by decide)
    · exact absurd hmem (by decide)
    · exact absurd hmem (by decide)
  rw [htail] at h
  have hbehind := suffix_of_notMem hfirst h
  rw [List.cons_append] at hbehind
  rcases List.suffix_cons_iff.mp hbehind with heq | hrest
  · have hsame : (79 : Byte) = 73 := (List.cons.inj (List.cons.inj heq).2).1
    exact absurd hsame (by decide)
  · exact suffix_of_notMem hsecond hrest

/-- The line with a cookie stands at the beginning of the record, or behind it. -/
theorem line_of_suffix_record {p : SentPing} {y z rest : Bytes} (hy : IsLine y)
    (h : ascii "TOR-COOKIE: " ++ (y ++ (crlf ++ z)) <:+ p.record ++ rest) :
    y = hex8 p.cookie ∨ ascii "TOR-COOKIE: " ++ (y ++ (crlf ++ z)) <:+ rest := by
  have htext : ascii "TOR-COOKIE: " = 84 :: 79 :: ascii "R-COOKIE: " := by decide
  have hhead : p.record = 84 :: p.record.tail := by
    rw [p.record_eq, SentPing.cookiePart, htext]
    rfl
  rw [hhead, List.cons_append] at h
  rcases List.suffix_cons_iff.mp h with heq | hrest
  · left
    rw [← List.cons_append, ← hhead, p.record_eq, SentPing.cookiePart] at heq
    simp only [List.append_assoc] at heq
    have hhex : IsLine (hex8 p.cookie) :=
      p.isLine_cookiePart.of_infix (List.suffix_append _ _).isInfix
    exact (line_append_inj hy hhex (List.append_cancel_left heq)).1
  · right
    rw [htext] at hrest ⊢
    exact suffix_of_suffix_record p hrest

/-- The line with a cookie stands at the beginning of one of the records, the last of which may be
cut. -/
theorem line_of_suffix {ps : List SentPing} {next : SentPing} {y z tail : Bytes} (hy : IsLine y)
    (htail : tail <+: next.record)
    (h : ascii "TOR-COOKIE: " ++ (y ++ (crlf ++ z)) <:+ recordsText ps ++ tail) :
    ∃ q ∈ ps ++ [next], y = hex8 q.cookie := by
  induction ps with
  | nil =>
    obtain ⟨rest, hrest⟩ := htail
    obtain ⟨front, hfront⟩ := h
    have hlonger : ascii "TOR-COOKIE: " ++ (y ++ (crlf ++ (z ++ rest))) <:+ next.record ++ [] := by
      refine ⟨front, ?_⟩
      rw [recordsText_nil, List.nil_append] at hfront
      rw [List.append_nil, ← hrest, ← hfront]
      simp only [List.append_assoc]
    rcases line_of_suffix_record hy hlonger with heq | hnil
    · exact ⟨next, by simp, heq⟩
    · have hempty := List.suffix_nil.mp hnil
      simp [crlf] at hempty
  | cons p ps ih =>
    rw [recordsText_cons, List.append_assoc] at h
    rcases line_of_suffix_record hy h with heq | hrest
    · exact ⟨p, by simp, heq⟩
    · obtain ⟨q, hq, heq⟩ := ih hrest
      exact ⟨q, List.mem_cons_of_mem _ hq, heq⟩

/-- In the text stands the line of a cookie with this value. -/
def CookieStands (s : Bytes) (cookie : UInt32) : Prop :=
  ∃ y z, IsLine y ∧ cookieValue y = cookie ∧ ascii "TOR-COOKIE: " ++ (y ++ (crlf ++ z)) <:+ s

/-- No cookie stands in an empty buffer. -/
theorem not_cookieStands_nil (cookie : UInt32) : ¬CookieStands [] cookie := by
  rintro ⟨y, z, -, -, hsuffix⟩
  have hempty := List.suffix_nil.mp hsuffix
  simp [crlf] at hempty

/-- The cookies in a stream are those of its records, the last of which may be cut. -/
theorem CookieStands.exists_mem {ps : List SentPing} {next : SentPing} {tail : Bytes}
    {cookie : UInt32}
    (h : CookieStands (recordsText ps ++ tail) cookie) (htail : tail <+: next.record) :
    ∃ q ∈ ps ++ [next], cookie = q.cookie := by
  obtain ⟨y, z, hy, hvalue, hsuffix⟩ := h
  obtain ⟨q, hq, heq⟩ := line_of_suffix hy htail hsuffix
  exact ⟨q, hq, by rw [← hvalue, heq, cookieValue_hex8]⟩

/-- What is recorded of a piece of the stream behind the first byte of a record has a cookie that
stands behind that record. -/
theorem cookieStands_of_mem_heard {r : Reading} {p : SentPing} {w rest u : Bytes} {h : Heard}
    (hcookie : r.cookie = 0) (hw : w <:+ p.record.tail) (hu : u <:+: w ++ rest)
    (hh : h ∈ (r.reads u).heard) : h ∈ r.heard ∨ CookieStands rest h.cookie := by
  refine (Reading.fromLine_of_mem_heard hcookie hh).imp_right ?_
  rintro ⟨y, hmem, hvalue⟩
  have hy : IsLine y :=
    IsLine.of_infix (isLine_of_mem_splitLines hmem) (List.suffix_append _ _).isInfix
  obtain ⟨a, c, hsplit⟩ := exists_of_mem_splitLines hmem
  obtain ⟨front, back, hwithin⟩ := hu
  obtain ⟨x, hx⟩ := hw
  have hsuffix : ascii "TOR-COOKIE: " ++ (y ++ (crlf ++ (c ++ back))) <:+ p.record.tail ++
      rest := by
    refine ⟨x ++ (front ++ a), ?_⟩
    rw [← hx, List.append_assoc x w, ← hwithin, hsplit]
    simp only [List.append_assoc]
  have htext : ascii "TOR-COOKIE: " = 84 :: 79 :: ascii "R-COOKIE: " := by decide
  refine ⟨y, c ++ back, hy, hvalue, ?_⟩
  rw [htext] at hsuffix ⊢
  exact suffix_of_suffix_record p hsuffix

/-- Nothing is recorded of a piece of a record without its first byte. -/
theorem heard_reads_within {r : Reading} {p : SentPing} {u : Bytes} (hcookie : r.cookie = 0)
    (hu : u <:+: p.record.tail) {h : Heard} (hh : h ∈ (r.reads u).heard) : h ∈ r.heard := by
  have hpiece : u <:+: p.record.tail ++ [] := by
    rw [List.append_nil]
    exact hu
  exact (cookieStands_of_mem_heard hcookie List.suffix_rfl hpiece hh).resolve_right
    (not_cookieStands_nil _)

/-- Behind a LF the line with the cookie is not recognised. -/
theorem Reading.part_lf (r : Reading) (p : SentPing) : r.part (lf :: p.cookiePart) = r := by
  have hfield : splitField (lf :: p.cookiePart) =
      (lf :: ascii "TOR-COOKIE", some (hex8 p.cookie)) :=
    @splitField_append (lf :: ascii "TOR-COOKIE") (forall_mem_of_all (by decide)) (hex8 p.cookie)
  have hcookie : lf :: ascii "TOR-COOKIE" ≠ ascii "TOR-COOKIE" := by decide
  have htime : lf :: ascii "TOR-COOKIE" ≠ ascii "TIME" := by decide
  rw [part, if_neg (List.cons_ne_nil _ _), hfield]
  simp only [if_neg hcookie, if_neg htime]

/-- The record behind a LF is not recorded. -/
theorem cookieStands_of_mem_heard_lf {r : Reading} {p : SentPing} {v rest : Bytes} {h : Heard}
    (hcookie : r.cookie = 0) (hv : v <+: p.record ++ rest) (hh : h ∈ (r.reads (lf :: v)).heard) :
    h ∈ r.heard ∨ CookieStands rest h.cookie := by
  have hline : IsLine (lf :: p.cookiePart) := by
    apply isLine_of_forall_ne
    rintro b hb
    rcases List.mem_cons.mp hb with rfl | hb
    · decide
    · exact (p.ne_of_mem_cookiePart hb).1
  have hassoc : p.record ++ rest = p.cookiePart ++
      (crlf ++ (p.timePart ++ (crlf ++ crlf) ++ rest)) := by
    rw [p.record_eq]
    simp only [List.append_assoc]
  rw [hassoc] at hv
  rcases prefix_line_cases hv with hshort | ⟨w, rfl, hw⟩
  · have hcr : lf :: v <+: (lf :: p.cookiePart) ++ [cr] := List.cons_prefix_cons.mpr ⟨rfl, hshort⟩
    rw [Reading.reads_of_isLine _ (hline.of_prefix_cr hcr),
      Reading.heard_part _ (List.cons_ne_nil _ _)] at hh
    exact .inl hh
  · rw [← List.cons_append, Reading.reads_line _ hline, Reading.part_lf] at hh
    have hsuffix : p.timePart ++ (crlf ++ crlf) <:+ p.record.tail := by
      have hne : p.cookiePart ≠ [] := List.append_ne_nil_of_left_ne_nil (by decide) _
      refine ⟨p.cookiePart.tail ++ crlf, ?_⟩
      rw [p.record_eq, List.tail_append_of_ne_nil hne]
      simp only [List.append_assoc]
    exact cookieStands_of_mem_heard hcookie hsuffix hw.isInfix hh

/-- A record has at most 52 bytes. -/
theorem length_record_le (p : SentPing) : p.record.length ≤ 52 := by
  have hdigits : (decimal p.time.toNat).length ≤ 20 :=
    length_decimal_le (by decide) (p.time.toNat_lt.trans (by decide))
  have htext : (ascii "TIME: ").length = 6 := by decide
  simp only [SentPing.record, pingRecord, List.length_append, length_cookieLine, htext, crlf,
    List.length_cons, List.length_nil]
  omega

end ShadowExtras.Ping
