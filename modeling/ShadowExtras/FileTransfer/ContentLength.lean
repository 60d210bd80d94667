import ShadowExtras.FileTransfer.FilegetterReply

/-!
# The announced length of a file

The server prints the length of a file with `%zu`, and the getter reads it with `atoi` and converts
the `int` to a `size_t` (`announced`). `strtol` stops at `LONG_MAX`, the `int` keeps the lower 32
bits and its sign, and the conversion extends the sign: so only the numbers below `2 ^ 31` come
back, and the largest number of all, which goes through `LONG_MAX` and `-1`.

Wherever the header is in the buffer, the searches of `FG_REPLY_HTTP` find its parts; they also go
through what has arrived of the body, and the NUL behind it has to fit into the buffer.
-/

namespace ShadowExtras.FileTransfer

open Foundation

/-! ## Printing and reading -/

/-- What becomes of a length that is printed with `%zu` and read by `(size_t) atoi(..)`. -/
def announced (length : ℕ) : ℕ := Filegetter.toSize (toInt32 (clampInt64 length))

/-- A length comes back just if it is the value of an `int`, or the largest `size_t`. -/
theorem announced_eq_iff {length : ℕ} (h : length < 2 ^ 64) :
    announced length = length ↔ length < 2 ^ 31 ∨ length = 2 ^ 64 - 1 := by
  unfold announced Filegetter.toSize toInt32 clampInt64
  rw [Int.bmod_def]
  split_ifs
  · omega
  · omega

/-- A printed number that is followed by something else, read by `atoi`. -/
theorem toSize_atoi_decimal (length : ℕ) {rest : Bytes}
    (hrest : ∀ b ∈ rest.head?, isDigit b = false) :
    Filegetter.toSize (atoi (decimal length ++ rest)) = announced length := by
  have hread := leadingNat_decimal_append length hrest
  obtain ⟨d, ds, hd⟩ := List.exists_cons_of_ne_nil (decimal_ne_nil length)
  have hdigit : isDigit d = true := isDigit_of_mem_decimal (n := length) (by simp [hd])
  rw [hd, List.cons_append] at hread ⊢
  rw [atoi, strtol_of_isDigit hdigit, hread, announced]

/-! ## The header in the buffer -/

section Header

variable (fg : Filegetter) (around : Surroundings) (before : Bytes) (length : ℕ) (arrived : Bytes)

/-- A getter that has taken `before` out of its buffer and finds the header behind it, with what has
arrived of the body. -/
def holdingHeader : Filegetter :=
  { fg with buf := before ++ (http200Header length ++ arrived), bufReadOffset := before.length }

/-- `FG_REPLY_HTTP` stores this number as the length of the body and goes on to the body. -/
def StoresLength (number : ℕ) : Prop :=
  ∃ fg' : Filegetter, fg.replyHttp around = .ok (fg'.checkDownload around) ∧
    fg'.state = .checkDownload ∧ fg'.curstats.bodyBytesExpected = number

/-- The getter that a state leaves. -/
def Next.getter : Next → Filegetter
  | .call fg => fg
  | .return fg _ => fg

theorem text_holdingHeader :
    cString ((holdingHeader fg before length arrived).buf.drop
        (holdingHeader fg before length arrived).bufReadOffset) =
      http200Header length ++ cString arrived := by
  show cString ((before ++ (http200Header length ++ arrived)).drop before.length) = _
  rw [List.drop_left]
  exact cString_append_of_forall (fun b hb => ne_zero_of_mem_http200Header length hb) arrived

/-- The body leaves the announced length alone. -/
theorem bodyBytesExpected_checkDownload :
    (fg.checkDownload around).getter.curstats.bodyBytesExpected =
      fg.curstats.bodyBytesExpected := by
  obtain ⟨curstats, allstats, first, hcounted, -, hexpected⟩ :=
    countBody_frame fg around (fg.buf.drop fg.bufReadOffset).length
  unfold Filegetter.checkDownload
  dsimp only
  rw [hcounted]
  split
  · exact hexpected
  · split
    · exact (congrArg FileStats.bodyBytesExpected (finish_frame _ around).2.1).trans hexpected
    · exact hexpected

/-- What `FG_CHECK_DOWNLOAD` returns is not the code of a 404 reply. -/
theorem checkDownload_ne_err404 (fg' : Filegetter) :
    fg.checkDownload around ≠ .return fg' .err404 := by
  unfold Filegetter.checkDownload Filegetter.die
  dsimp only
  split
  · simp
  · split
    · simp
    · simp

/-- The header is read, unless what has arrived of the body looks like a 404 reply. -/
theorem replyHttp_holdingHeader
    (hfits : (holdingHeader fg before length arrived).buf.length < bufSize)
    (hclean : strcasestr http404 (cString arrived) = none) :
    ∃ fg' : Filegetter, fg'.state = .checkDownload ∧
      fg'.curstats.bodyBytesExpected = announced length ∧
      (holdingHeader fg before length arrived).replyHttp around =
        .ok (fg'.checkDownload around) := by
  have hnumber : Filegetter.toSize (atoi (((http200Header length ++ cString arrived).set
      ((http200Header length).length - 4) 0).drop (http200.length + contentText.length))) =
        announced length := by
    rw [drop_set_header]
    refine toSize_atoi_decimal length fun b hb => ?_
    obtain rfl : 0 = b := by simpa using hb
    rfl
  have h404 : strcasestr http404 (http200Header length ++ cString arrived) = none := by
    rw [strcasestr_http404_header, hclean, Option.map_none]
  unfold Filegetter.replyHttp
  simp only [text_holdingHeader, h404, strcasestr_http200_header, strcasestr_twoCrlf_header,
    strcasestr_contentText_header, Nat.not_le.mpr hfits, if_false, hnumber]
  exact ⟨_, rfl, rfl, rfl⟩

end Header

/-- For every length that the server can print and every place of the header in the buffer: the
getter stores this length just if it is the value of an `int` or the largest `size_t`, and what has
arrived of the body neither fills the buffer nor holds the line of a 404 reply. -/
theorem storesLength_iff (fg : Filegetter) (around : Surroundings) (before arrived : Bytes)
    (length : UInt64) :
    StoresLength (holdingHeader fg before length.toNat arrived) around length.toNat ↔
      (length.toNat < 2 ^ 31 ∨ length.toNat = 2 ^ 64 - 1) ∧
        (holdingHeader fg before length.toNat arrived).buf.length < bufSize ∧
        strcasestr http404 (cString arrived) = none := by
  constructor
  · rintro ⟨fg', hreply, -, hstored⟩
    have hfits : (holdingHeader fg before length.toNat arrived).buf.length < bufSize := by
      by_contra hfull
      unfold Filegetter.replyHttp at hreply
      rw [if_pos (Nat.not_lt.mp hfull)] at hreply
      cases hreply
    have hclean : strcasestr http404 (cString arrived) = none := by
      by_contra hfound
      obtain ⟨i, hi⟩ := Option.ne_none_iff_exists'.mp hfound
      unfold Filegetter.replyHttp at hreply
      simp only [text_holdingHeader, strcasestr_http404_header, hi, Option.map_some,
        Nat.not_le.mpr hfits, if_false] at hreply
      exact checkDownload_ne_err404 fg' around _ (Except.ok.inj hreply).symm
    refine ⟨?_, hfits, hclean⟩
    obtain ⟨fg₁, -, hnumber, hreply₁⟩ :=
      replyHttp_holdingHeader fg around before length.toNat arrived
      hfits hclean
    have hsame : fg'.checkDownload around = fg₁.checkDownload around :=
      Except.ok.inj (hreply.symm.trans hreply₁)
    have hexpected := congrArg (fun next => next.getter.curstats.bodyBytesExpected) hsame
    simp only [bodyBytesExpected_checkDownload, hstored, hnumber] at hexpected
    exact (announced_eq_iff length.toNat_lt).mp hexpected.symm
  · rintro ⟨hlength, hfits, hclean⟩
    obtain ⟨fg', hstate, hnumber, hreply⟩ :=
      replyHttp_holdingHeader fg around before length.toNat arrived
      hfits hclean
    refine ⟨fg', hreply, hstate, ?_⟩
    rw [hnumber]
    exact (announced_eq_iff length.toNat_lt).mpr hlength

/-- A file of two gigabytes. -/
theorem not_storesLength_two_gigabytes :
    ¬StoresLength (holdingHeader Filegetter.start [] 2147483648 []) calm 2147483648 := by
  rintro ⟨fg', hreply, -, hstored⟩
  obtain ⟨fg₁, -, hnumber, hreply₁⟩ :=
    replyHttp_holdingHeader Filegetter.start calm [] 2147483648 []
    (by decide +kernel) (by decide +kernel)
  have hsame : fg'.checkDownload calm = fg₁.checkDownload calm :=
    Except.ok.inj (hreply.symm.trans hreply₁)
  have hexpected := congrArg (fun next => next.getter.curstats.bodyBytesExpected) hsame
  simp only [bodyBytesExpected_checkDownload, hstored, hnumber] at hexpected
  exact absurd hexpected (by decide +kernel)

end ShadowExtras.FileTransfer
