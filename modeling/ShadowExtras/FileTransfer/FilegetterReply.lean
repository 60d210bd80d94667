import ShadowExtras.FileTransfer.Filegetter

/-!
# What the file getter makes of a reply

A reply to a getter that waits for it arrives in pieces. While the header is incomplete everything
received stays in the buffer (`InHeader`); afterwards every piece is saved and the buffer emptied
(`InBody`), until the announced number of bytes has been saved (`Downloaded`).

The piece that completes the header is special, since it can hold bytes of the body as well: the
whole buffer is searched for the line of a 404 reply, the body included, and the NUL that ends the
search is written behind the last byte received. `reassembles_iff_cleanCut`: the reply is
reassembled for a given way of cutting it if and only if that piece is clean.
-/

namespace ShadowExtras.FileTransfer

open Foundation

/-! ## Searching the header -/

section Header

variable (n : Nat) (x : Bytes)

/-- The fixed part of the header, before the number. -/
theorem http200Header_eq :
    http200Header n = (http200 ++ contentText) ++ (decimal n ++ twoCrlf) := by
  simp [http200Header]

/-- The length of the header. -/
theorem length_http200Header :
    (http200Header n).length = (http200 ++ contentText ++ decimal n).length + 4 := by
  have hend : twoCrlf.length = 4 := by decide
  rw [http200Header, List.length_append, hend]

/-- The header holds no NUL. -/
theorem ne_zero_of_mem_http200Header {b : Byte} (hb : b ∈ http200Header n) : b ≠ 0 := by
  rw [http200Header, List.mem_append, List.mem_append] at hb
  rcases hb with (hfixed | hdigit) | hend
  · have hall : ∀ c ∈ http200 ++ contentText, c ≠ 0 := forall_mem_of_all (by decide)
    exact hall b hfixed
  · have hisDigit := isDigit_of_mem_decimal hdigit
    rintro rfl
    exact absurd hisDigit (by decide)
  · have hall : ∀ c ∈ twoCrlf, c ≠ 0 := forall_mem_of_all (by decide)
    exact hall b hend

/-- What is not a digit does not start in the number. -/
theorem clashAll_decimal {c : Byte} {cs : Bytes}
    (hc : ∀ b, isDigit b = true → toLower c ≠ toLower b) :
    clashAll (c :: cs) (decimal n) = true :=
  clashAll_of_forall_ne fun b hb => hc b (isDigit_of_mem_decimal hb)

/-- A digit is not changed by `tolower`. -/
theorem toLower_of_isDigit {b : Byte} (hb : isDigit b = true) : toLower b = b := by
  have hbounds : 48 ≤ b.toNat ∧ b.toNat ≤ 57 := by
    simpa [isDigit, UInt8.le_iff_toNat_le] using hb
  have hno : ¬(65 ≤ b ∧ b ≤ 90) := by
    rw [UInt8.le_iff_toNat_le, UInt8.le_iff_toNat_le]
    intro h
    have h65 : (65 : Byte).toNat = 65 := rfl
    omega
  rw [toLower, if_neg hno]

/-- The line of a 404 reply does not start in the header. -/
theorem clashAll_http404_header : clashAll http404 (http200Header n) = true := by
  rw [http200Header_eq]
  refine clashAll_append (by decide) (clashAll_append ?_ (by decide))
  refine clashAll_decimal n fun b hb => ?_
  rw [toLower_of_isDigit hb]
  rintro rfl
  exact absurd hb (by decide)

/-- The header of a file holds no text of the 404 reply. -/
theorem strcasestr_http404_header :
    strcasestr http404 (http200Header n ++ x) =
      (strcasestr http404 x).map (· + (http200Header n).length) :=
  strcasestr_append_of_clashAll (clashAll_http404_header n) x

/-- The status line is found at the beginning. -/
theorem strcasestr_http200_header : strcasestr http200 (http200Header n ++ x) = some 0 := by
  rw [http200Header_eq, List.append_assoc, List.append_assoc]
  exact strcasestr_of_caselessPrefix (caselessPrefix_append_self _ _)

/-- The empty line is found at the end. -/
theorem strcasestr_twoCrlf_header :
    strcasestr twoCrlf (http200Header n ++ x) = some ((http200Header n).length - 4) := by
  have hskip : clashAll twoCrlf (http200 ++ contentText ++ decimal n) = true := by
    refine clashAll_append (by decide) (clashAll_decimal n fun b hb => ?_)
    rw [toLower_of_isDigit hb]
    rintro rfl
    exact absurd hb (by decide)
  rw [length_http200Header, Nat.add_sub_cancel, http200Header, List.append_assoc,
    strcasestr_append_of_clashAll hskip,
    strcasestr_of_caselessPrefix (caselessPrefix_append_self _ _), Option.map_some, Nat.zero_add]

/-- The length follows the status line. -/
theorem strcasestr_contentText_header :
    strcasestr contentText (http200Header n ++ x) = some http200.length := by
  have hskip : clashAll contentText http200 = true := by decide
  rw [http200Header_eq, List.append_assoc, List.append_assoc,
    strcasestr_append_of_clashAll hskip,
    strcasestr_of_caselessPrefix (caselessPrefix_append_self _ _)]
  simp

/-- What `atoi` reads in the header whose empty line is cut off. -/
theorem drop_set_header :
    ((http200Header n ++ x).set ((http200Header n).length - 4) 0).drop
        (http200.length + contentText.length) =
      decimal n ++ (0 :: (twoCrlf.drop 1 ++ x)) := by
  have hlength : (http200Header n).length - 4 =
      (http200 ++ contentText ++ decimal n).length := by
    rw [length_http200Header, Nat.add_sub_cancel]
  have hsplit : http200Header n ++ x =
      (http200 ++ contentText ++ decimal n) ++ (twoCrlf ++ x) := by
    simp [http200Header]
  rw [hlength, hsplit, List.set_append_right _ _ le_rfl, Nat.sub_self, ← List.length_append,
    List.append_assoc, List.drop_left]
  rfl

/-- The header has fewer bytes than the buffer. -/
theorem length_http200Header_lt {n : Nat} (hn : n < 2 ^ 31) :
    (http200Header n).length < bufSize := by
  have hdigits : (decimal n).length ≤ 10 := length_decimal_le (by decide) (by omega)
  have hfixed : (http200 ++ contentText).length = 33 := by decide
  rw [length_http200Header, List.length_append, hfixed, bufSize]
  omega

variable {n x} {p q : Bytes}

/-- An incomplete header holds neither an empty line nor the line of a 404 reply. -/
theorem strcasestr_of_incomplete (hpq : p ++ q = http200Header n) (hq : q ≠ []) :
    strcasestr http404 p = none ∧ strcasestr twoCrlf p = none := by
  constructor
  · cases hfound : strcasestr http404 p with
    | none => rfl
    | some i =>
      have hwhole := strcasestr_append_of_some hfound q
      have hnone := strcasestr_http404_header n []
      rw [List.append_nil, ← hpq, hwhole] at hnone
      simp [strcasestr, http404, ascii] at hnone
  · cases hfound : strcasestr twoCrlf p with
    | none => rfl
    | some i =>
      -- the first empty line ends with the header, of which a part is missing
      have hwhole := strcasestr_append_of_some hfound q
      have hend := strcasestr_twoCrlf_header n []
      rw [List.append_nil, ← hpq, hwhole] at hend
      have hi : i = (p ++ q).length - 4 := by simpa using hend
      have hfits := add_length_le_of_strcasestr hfound
      have hfour := length_http200Header n
      have hlength : twoCrlf.length = 4 := by decide
      have hqlength := List.length_pos_iff.mpr hq
      rw [← hpq] at hfour
      rw [hlength] at hfits
      rw [List.length_append] at hi hfour
      omega

end Header

/-! ## The getter while a reply arrives -/

/-- What arrived of the body is saved where the file specification wants it. -/
structure Saving (fg : Filegetter) (bytes : Bytes) : Prop where
  file : fg.fspec.doSave = true → fg.f = true ∧ fg.fileContent = bytes
  memory : fg.fspec.saveToMemory = true → fg.content = some bytes

/-- `count` bytes of the reply have arrived, and they do not complete the header. -/
structure InHeader (fg : Filegetter) (body : Bytes) (count : Nat) : Prop where
  state : fg.state = .receive
  nextstate : fg.nextstate = .replyHttp
  sockd : fg.sockd ≠ 0
  bufReadOffset : fg.bufReadOffset = 0
  buf : fg.buf = (http200Reply body).take count
  incoming : fg.incoming = (http200Reply body).drop count
  count_lt : count < (http200Header body.length).length
  downloaded : fg.curstats.bodyBytesDownloaded = 0
  saving : Saving fg []

/-- A getter whose request was sent, before the reply for `body` arrives. -/
def AwaitsReply (fg : Filegetter) (body : Bytes) : Prop := InHeader fg body 0

/-- The header and `count` bytes of the body have arrived. -/
structure InBody (fg : Filegetter) (body : Bytes) (count : Nat) : Prop where
  state : fg.state = .receive
  nextstate : fg.nextstate = .checkDownload
  sockd : fg.sockd ≠ 0
  bufReadOffset : fg.bufReadOffset = 0
  buf : fg.buf = []
  incoming : fg.incoming = body.drop count
  count_lt : count < body.length
  expected : fg.curstats.bodyBytesExpected = body.length
  downloaded : fg.curstats.bodyBytesDownloaded = count
  saving : Saving fg (body.take count)

/-- All of the reply has arrived, all of the body is counted and saved. -/
structure Downloaded (fg : Filegetter) (body : Bytes) : Prop where
  incoming : fg.incoming = []
  downloaded : fg.curstats.bodyBytesDownloaded = body.length
  file : fg.fspec.doSave = true → fg.fileContent = body
  memory : fg.fspec.saveToMemory = true → fg.content = some body

/-- The download goes on, or is complete. -/
def Goes (body : Bytes) : Next → Prop
  | .call fg => ∃ count, InBody fg body count
  | .return fg code => code = .ok200 ∧ Downloaded fg body

section Phases

variable {fg : Filegetter} {body x : Bytes} {around : Surroundings} {count : Nat}

/-- Counting does not change the rest of the getter. -/
theorem countBody_frame (fg : Filegetter) (around : Surroundings) (bytes : Nat) :
    ∃ curstats allstats first,
      fg.countBody around bytes =
        { fg with curstats := curstats, allstats := allstats, downloadFirstByte := first } ∧
      curstats.bodyBytesDownloaded = fg.curstats.bodyBytesDownloaded + bytes ∧
      curstats.bodyBytesExpected = fg.curstats.bodyBytesExpected := by
  unfold Filegetter.countBody
  by_cases hfirst : fg.curstats.bodyBytesDownloaded = 0 ∧ bytes > 0
  · rw [if_pos hfirst]
    exact ⟨_, _, _, rfl, rfl, rfl⟩
  · rw [if_neg hfirst]
    exact ⟨_, _, _, rfl, rfl, rfl⟩

/-- A getter that has finished a download keeps what it saved. -/
theorem finish_frame (fg : Filegetter) (around : Surroundings) :
    (fg.finish around).incoming = fg.incoming ∧ (fg.finish around).curstats = fg.curstats ∧
      (fg.finish around).fspec = fg.fspec ∧ (fg.finish around).fileContent = fg.fileContent ∧
      (fg.finish around).content = fg.content := by
  unfold Filegetter.finish
  dsimp only
  split_ifs <;> exact ⟨rfl, rfl, rfl, rfl, rfl⟩

/-- The state `FG_CHECK_DOWNLOAD` after the next bytes `x` of the body have arrived. -/
theorem goes_checkDownload (count : Nat) (hsockd : fg.sockd ≠ 0)
    (hbuf : fg.buf.drop fg.bufReadOffset = x)
    (hincoming : x ++ fg.incoming = body.drop count) (hcount : count ≤ body.length)
    (hexpected : fg.curstats.bodyBytesExpected = body.length)
    (hdownloaded : fg.curstats.bodyBytesDownloaded = count)
    (hsaving : Saving fg (body.take count)) (hok : around.fwriteOk = true) :
    Goes body (fg.checkDownload around) := by
  obtain ⟨curstats, allstats, first, hcounted, htotal, hannounced⟩ :=
    countBody_frame fg around x.length
  have hx : body.take (count + x.length) = body.take count ++ x := by
    rw [List.take_add, ← hincoming, List.take_left]
  have hrest : fg.incoming = body.drop (count + x.length) := by
    rw [← List.drop_drop, ← hincoming, List.drop_left]
  have hlength : x.length + fg.incoming.length = body.length - count := by
    rw [← List.length_append, hincoming, List.length_drop]
  -- the getter once `x` is counted and saved
  let saved : Filegetter := { fg with
    curstats := curstats, allstats := allstats, downloadFirstByte := first
    content := fg.content.map (· ++ x)
    fileContent := if fg.f then fg.fileContent ++ x else fg.fileContent
    buf := [], bufReadOffset := 0 }
  have hfile : fg.fspec.doSave = true → saved.f = true ∧
      saved.fileContent = body.take (count + x.length) := by
    intro hsave
    obtain ⟨hf, hcontent⟩ := hsaving.file hsave
    exact ⟨hf, by simp only [saved, hf, if_true, hcontent, hx]⟩
  have hmemory : fg.fspec.saveToMemory = true →
      saved.content = some (body.take (count + x.length)) := by
    intro hsave
    simp only [saved, hsaving.memory hsave, Option.map_some, hx]
  have hstep : fg.checkDownload around =
      if curstats.bodyBytesDownloaded ≥ curstats.bodyBytesExpected then
        .return (saved.finish around) .ok200
      else .call { saved with state := .receive, nextstate := .checkDownload } := by
    unfold Filegetter.checkDownload
    simp only [hbuf, hcounted, hok, not_true_eq_false, and_false, if_false, saved]
  rw [hstep]
  by_cases hmore : count + x.length < body.length
  · rw [if_neg (by omega)]
    exact ⟨count + x.length, rfl, rfl, hsockd, rfl, rfl, hrest, hmore,
      hannounced.trans hexpected, htotal.trans (by rw [hdownloaded]), hfile, hmemory⟩
  · have hall : count + x.length = body.length := by omega
    rw [if_pos (by omega)]
    rw [hall, List.take_length] at hfile hmemory
    obtain ⟨hincoming', hcurstats, hfspec, hcontent, hmemory'⟩ := finish_frame saved around
    refine ⟨rfl, ?_, ?_, ?_, ?_⟩
    · rw [hincoming']
      simp only [saved, hrest, hall, List.drop_length]
    · rw [hcurstats]
      exact htotal.trans (by rw [hdownloaded, hall])
    · rw [hfspec, hcontent]
      exact fun hsave => (hfile hsave).2
    · rw [hfspec, hmemory']
      exact hmemory

/-- The state `FG_REPLY_HTTP` while the header is incomplete. -/
theorem replyHttp_incomplete (hoffset : fg.bufReadOffset = 0) {q : Bytes}
    (hbuf : fg.buf ++ q = http200Header body.length) (hq : q ≠ [])
    (hlength : fg.buf.length < bufSize) :
    fg.replyHttp around = .ok (.call { fg with state := .receive, nextstate := .replyHttp }) := by
  have htext : cString (fg.buf.drop fg.bufReadOffset) = fg.buf := by
    rw [hoffset, List.drop_zero]
    exact cString_eq_self fun b hb =>
      ne_zero_of_mem_http200Header body.length (hbuf ▸ List.mem_append_left q hb)
  obtain ⟨h404, hempty⟩ := strcasestr_of_incomplete hbuf hq
  unfold Filegetter.replyHttp
  simp only [htext, h404, hempty, Nat.not_le.mpr hlength, if_false]
  cases strcasestr http200 fg.buf <;> rfl

/-- The state `FG_REPLY_HTTP` when the header is complete and `x` of the body has arrived with it:
if `x` does not look like a 404 reply, the length is extracted. -/
theorem replyHttp_complete (hoffset : fg.bufReadOffset = 0)
    (hbuf : fg.buf = http200Header body.length ++ x) (hlength : fg.buf.length < bufSize)
    (hx : strcasestr http404 (cString x) = none) (hbody : body.length < 2 ^ 31) :
    fg.replyHttp around = .ok ({ fg with
      curstats := { fg.curstats with bodyBytesExpected := body.length }
      allstats := { fg.allstats with
        bodyBytesExpected := (fg.allstats.bodyBytesExpected + body.length) % 2 ^ 64 }
      bufReadOffset := (http200Header body.length).length
      state := .checkDownload }.checkDownload around) := by
  have htext : cString (fg.buf.drop fg.bufReadOffset) =
      http200Header body.length ++ cString x := by
    rw [hoffset, List.drop_zero, hbuf]
    exact cString_append_of_forall
      (fun b hb => ne_zero_of_mem_http200Header body.length hb) x
  have h404 : strcasestr http404 (http200Header body.length ++ cString x) = none := by
    rw [strcasestr_http404_header, hx, Option.map_none]
  have hnumber : Filegetter.toSize (atoi (((http200Header body.length ++ cString x).set
      ((http200Header body.length).length - 4) 0).drop
        (http200.length + contentText.length))) = body.length := by
    have hcut : ∀ b ∈ (0 :: (twoCrlf.drop 1 ++ cString x)).head?, isDigit b = false := by
      intro b hb
      obtain rfl : 0 = b := by simpa using hb
      rfl
    rw [drop_set_header, atoi_decimal_append hbody hcut, Filegetter.toSize]
    omega
  have hend : fg.bufReadOffset + ((http200Header body.length).length - 4) + twoCrlf.length =
      (http200Header body.length).length := by
    have hfour := length_http200Header body.length
    have htwo : twoCrlf.length = 4 := by decide
    rw [hoffset]
    omega
  unfold Filegetter.replyHttp
  simp only [htext, h404, strcasestr_http200_header, strcasestr_twoCrlf_header,
    strcasestr_contentText_header, Nat.not_le.mpr hlength, if_false, hnumber, hend]

/-- The state `FG_REPLY_HTTP` when `x` looks like a 404 reply. -/
theorem replyHttp_404 (around : Surroundings) (hoffset : fg.bufReadOffset = 0)
    (hbuf : fg.buf = http200Header body.length ++ x) (hlength : fg.buf.length < bufSize)
    (hx : strcasestr http404 (cString x) ≠ none) :
    ∃ fg', fg.replyHttp around = .ok (.return fg' .err404) := by
  have htext : cString (fg.buf.drop fg.bufReadOffset) =
      http200Header body.length ++ cString x := by
    rw [hoffset, List.drop_zero, hbuf]
    exact cString_append_of_forall
      (fun b hb => ne_zero_of_mem_http200Header body.length hb) x
  obtain ⟨i, hi⟩ := Option.ne_none_iff_exists'.mp hx
  have h404 : strcasestr http404 (http200Header body.length ++ cString x) =
      some (i + (http200Header body.length).length) := by
    rw [strcasestr_http404_header, hi, Option.map_some]
  unfold Filegetter.replyHttp
  simp only [htext, h404, Nat.not_le.mpr hlength, if_false]
  exact ⟨_, rfl⟩

/-- A `recv` with room in the buffer while some of the reply is missing. -/
theorem receive_ready {k : Nat} (hincoming : fg.incoming ≠ []) (hroom : fg.buf.length < bufSize) :
    fg.receive { answer := .ready k, around := around } =
      (fg.received (fg.incoming.take (min (k + 1) (bufSize - fg.buf.length)))).proceed around := by
  unfold Filegetter.receive
  rw [Answer.recv_ready k (by omega) hincoming]
  obtain ⟨b, bs, hbs⟩ := List.exists_cons_of_ne_nil hincoming
  have hcons : fg.incoming.take (min (k + 1) (bufSize - fg.buf.length)) =
      b :: bs.take (min (k + 1) (bufSize - fg.buf.length) - 1) := by
    obtain ⟨m, hm⟩ : ∃ m, min (k + 1) (bufSize - fg.buf.length) = m + 1 :=
      Nat.exists_eq_succ_of_ne_zero (by omega)
    rw [hbs, hm, List.take_succ_cons, Nat.add_sub_cancel]
  rw [hcons]

/-- One `recv` while the body arrives. -/
theorem InBody.receive (h : InBody fg body count) (k : Nat) (hok : around.fwriteOk = true) :
    ∃ next, fg.receive { answer := .ready k, around := around } = .ok next ∧ Goes body next := by
  have hincoming : fg.incoming ≠ [] := by
    rw [h.incoming, ne_eq, List.drop_eq_nil_iff]
    exact Nat.not_le.mpr h.count_lt
  have hroom : fg.buf.length < bufSize := by
    rw [h.buf]
    decide
  set bytes := fg.incoming.take (min (k + 1) (bufSize - fg.buf.length)) with hbytes
  have hstream : bytes ++ fg.incoming.drop bytes.length = fg.incoming :=
    List.prefix_iff_eq_append.mp (List.take_prefix _ _)
  have hstate : (fg.received bytes).state = .checkDownload := h.nextstate
  refine ⟨(fg.received bytes).checkDownload around, ?_, ?_⟩
  · rw [receive_ready hincoming hroom]
    simp only [Filegetter.proceed, hstate, ← hbytes]
  · refine goes_checkDownload count (x := bytes) h.sockd ?_ ?_ h.count_lt.le h.expected h.downloaded
      ⟨h.saving.file, h.saving.memory⟩ hok
    · show (fg.buf ++ bytes).drop fg.bufReadOffset = bytes
      rw [h.buf, h.bufReadOffset, List.nil_append, List.drop_zero]
    · show bytes ++ fg.incoming.drop bytes.length = body.drop count
      rw [hstream, h.incoming]

/-! ## Ways of cutting a reply -/

/-- The number of bytes that have arrived after a `recv` of at most `k + 1` bytes, for a reply of
`total` bytes of which `count` have arrived before and are in the buffer. -/
def arrived (total count k : Nat) : Nat := min (count + (k + 1)) (min bufSize total)

/-- The number of bytes that have arrived when the header of `hlen` bytes is complete, for a reply
of `total` bytes of which `count` have arrived and `recv`s that deliver at most `k + 1` bytes each;
none when the header stays incomplete. -/
def headerCut (hlen total : Nat) : Nat → List Nat → Option Nat
  | _, [] => none
  | count, k :: ks =>
    if hlen ≤ arrived total count k then some (arrived total count k)
    else headerCut hlen total (arrived total count k) ks

/-- The sizes of the `recv`s of an activation, up to the first that would block. -/
def recvSizes : List Call → List Nat
  | { answer := .ready k, around := _ } :: calls => k :: recvSizes calls
  | _ => []

/-- The first `cut` bytes of the reply can be looked at: they leave room for the NUL behind them,
and what they hold of the body, up to its first NUL, does not look like a 404 reply. -/
def CleanCut (body : Bytes) (cut : Nat) : Prop :=
  cut < bufSize ∧
    strcasestr http404 (cString (body.take (cut - (http200Header body.length).length))) = none

/-- The search for the end of the header and the length goes wrong. -/
def Fails : Except Fault Next → Prop
  | .error _ => True
  | .ok (.return _ code) => code = .err404
  | .ok (.call _) => False

/-- The buffer and the stream after a `recv` while the header is incomplete. -/
theorem InHeader.received (h : InHeader fg body count) (hbody : body.length < 2 ^ 31)
    (around : Surroundings) (k : Nat) :
    ∃ fg', fg.receive { answer := .ready k, around := around } = fg'.replyHttp around ∧
      fg'.sockd ≠ 0 ∧ fg'.bufReadOffset = 0 ∧
      fg'.buf = (http200Reply body).take (arrived (http200Reply body).length count k) ∧
      fg'.incoming = (http200Reply body).drop (arrived (http200Reply body).length count k) ∧
      fg'.curstats.bodyBytesDownloaded = 0 ∧ Saving fg' [] := by
  have hheader := length_http200Header_lt hbody
  have htotal := length_http200Reply body
  have hcount := h.count_lt
  have hincoming : fg.incoming ≠ [] := by
    rw [h.incoming, ne_eq, List.drop_eq_nil_iff]
    omega
  have hlength : fg.buf.length = count := by
    rw [h.buf, List.length_take]
    omega
  set m := min (k + 1) (bufSize - fg.buf.length) with hm
  have hcount' : arrived (http200Reply body).length count k =
      min (count + m) (http200Reply body).length := by
    unfold arrived
    omega
  have hstate : (fg.received (fg.incoming.take m)).state = .replyHttp := h.nextstate
  refine ⟨fg.received (fg.incoming.take m), ?_, h.sockd, h.bufReadOffset, ?_, ?_, h.downloaded,
    ⟨h.saving.file, h.saving.memory⟩⟩
  · rw [receive_ready hincoming (by omega)]
    simp only [Filegetter.proceed, hstate, ← hm]
  · show fg.buf ++ fg.incoming.take m = _
    rw [h.buf, h.incoming, ← List.take_add, hcount', ← List.take_eq_take_min]
  · show fg.incoming.drop (fg.incoming.take m).length = _
    rw [List.length_take, h.incoming, List.length_drop, List.drop_drop, hcount']
    congr 1
    omega

/-- What a `recv` makes of an incomplete header: it stays incomplete, or the download of the body
starts, or the search goes wrong. -/
theorem InHeader.receive (h : InHeader fg body count) (hbody : body.length < 2 ^ 31) (k : Nat)
    (hok : around.fwriteOk = true) :
    let count' := arrived (http200Reply body).length count k
    let result := fg.receive { answer := .ready k, around := around }
    if (http200Header body.length).length ≤ count' then
      (CleanCut body count' → ∃ next, result = .ok next ∧ Goes body next) ∧
        (¬CleanCut body count' → Fails result)
    else ∃ fg', result = .ok (.call fg') ∧ InHeader fg' body count' := by
  intro count' result
  obtain ⟨fg', hreceive, hsockd, hoffset, hbuf, hincoming, hdownloaded, hsaving⟩ :=
    h.received hbody around k
  have hresult : result = fg'.replyHttp around := hreceive
  have hheader := length_http200Header_lt hbody
  have hle : count' ≤ min bufSize (http200Reply body).length := Nat.min_le_right _ _
  change fg'.buf = (http200Reply body).take count' at hbuf
  change fg'.incoming = (http200Reply body).drop count' at hincoming
  generalize count' = count' at *
  have hlength : fg'.buf.length = count' := by
    rw [hbuf, List.length_take]
    omega
  rw [hresult]
  split_ifs with hcomplete
  · set x := body.take (count' - (http200Header body.length).length) with hx
    have hsplit : fg'.buf = http200Header body.length ++ x := by
      rw [hbuf, http200Reply, List.take_append, List.take_of_length_le hcomplete]
    have hrest : fg'.incoming = body.drop (count' - (http200Header body.length).length) := by
      rw [hincoming, http200Reply, List.drop_append, List.drop_eq_nil_of_le hcomplete,
        List.nil_append]
    constructor
    · rintro ⟨hroom, hclean⟩
      refine ⟨_, replyHttp_complete hoffset hsplit (hlength ▸ hroom) hclean hbody, ?_⟩
      refine goes_checkDownload 0 (x := x) hsockd ?_ ?_ (Nat.zero_le _) rfl hdownloaded
        ⟨hsaving.file, hsaving.memory⟩ hok
      · show fg'.buf.drop (http200Header body.length).length = x
        rw [hsplit, List.drop_left]
      · show x ++ fg'.incoming = body.drop 0
        rw [hrest, hx, List.take_append_drop, List.drop_zero]
    · intro hdirty
      by_cases hroom : count' < bufSize
      · obtain ⟨fg'', h404⟩ := replyHttp_404 around hoffset hsplit (hlength ▸ hroom)
          fun hclean => hdirty ⟨hroom, hclean⟩
        rw [h404]
        rfl
      · have hfull : fg'.buf.length ≥ bufSize := by omega
        unfold Filegetter.replyHttp
        rw [if_pos hfull]
        trivial
  · have hlt : count' < (http200Header body.length).length := Nat.lt_of_not_le hcomplete
    have hsplit : fg'.buf ++ (http200Header body.length).drop count' =
        http200Header body.length := by
      rw [hbuf, http200Reply, List.take_append_of_le_length hlt.le, List.take_append_drop]
    have hmissing : (http200Header body.length).drop count' ≠ [] := by
      rw [ne_eq, List.drop_eq_nil_iff]
      exact hcomplete
    refine ⟨_, replyHttp_incomplete hoffset hsplit hmissing (by omega), ?_⟩
    exact ⟨rfl, rfl, hsockd, hoffset, hbuf, hincoming, hlt, hdownloaded,
      ⟨hsaving.file, hsaving.memory⟩⟩

/-! ## Activations -/

/-- The socket delivers bytes or would block, and the local file can be written. -/
def UndisturbedCall (call : Call) : Prop :=
  ((∃ k, call.answer = .ready k) ∨ call.answer = .failed .wouldBlock) ∧
    call.around.fwriteOk = true

/-- An activation of a getter that is in the middle of a reply. -/
theorem activate_of_receive (hstate : fg.state = .receive) (hassert : fg.AssertState)
    (e : GetterEvent) : fg.activate e = fg.callLoop e.calls := by
  unfold Filegetter.activate
  rw [if_pos hassert]
  simp only [Filegetter.proceed, hstate]

/-- A `recv` that would block ends the activation. -/
theorem callLoop_wouldBlock (hstate : fg.state = .receive) (calls : List Call) :
    fg.callLoop ({ answer := .failed .wouldBlock, around := around } :: calls) =
      .ok (fg, .errWouldblock) := by
  simp [Filegetter.callLoop, hstate, Filegetter.receive, Answer.recv, Filegetter.ioError]

/-- The first of the calls of an activation. -/
theorem callLoop_cons (hstate : fg.state = .receive) (call : Call) (calls : List Call) :
    fg.callLoop (call :: calls) =
      match fg.receive call with
      | .error fault => .error fault
      | .ok (.return fg code) => .ok (fg, code)
      | .ok (.call fg) => fg.callLoop calls := by
  have hnot : ¬fg.state = .send := by simp [hstate]
  cases hresult : fg.receive call with
  | error fault => simp only [Filegetter.callLoop, if_neg hnot, hresult]
  | ok next => cases next <;> simp only [Filegetter.callLoop, if_neg hnot, hresult]

/-- The result of an activation in which the body arrives: more is to come, or all has arrived. -/
def Progresses (body : Bytes) (result : Except Fault (Filegetter × GetterCode)) : Prop :=
  ∃ fg code, result = .ok (fg, code) ∧
    ((code = .errWouldblock ∧ ∃ count, InBody fg body count) ∨
      (code = .ok200 ∧ Downloaded fg body))

/-- The calls of an activation while the body arrives. -/
theorem InBody.callLoop (h : InBody fg body count) {calls : List Call}
    (hcalls : ∀ call ∈ calls, UndisturbedCall call) : Progresses body (fg.callLoop calls) := by
  induction calls generalizing fg count with
  | nil => exact ⟨fg, .errWouldblock, rfl, .inl ⟨rfl, count, h⟩⟩
  | cons call calls ih =>
    obtain ⟨⟨k, hk⟩ | hblock, hok⟩ := hcalls call (by simp)
    · obtain ⟨answer, around⟩ := call
      simp only at hk hok
      subst hk
      obtain ⟨next, hnext, hgoes⟩ := h.receive k hok
      rw [callLoop_cons h.state, hnext]
      cases next with
      | call fg' =>
        obtain ⟨count', hbody⟩ := hgoes
        exact ih hbody fun call hcall => hcalls call (by simp [hcall])
      | «return» fg' code => exact ⟨fg', code, rfl, .inr hgoes⟩
    · obtain ⟨answer, around⟩ := call
      simp only at hblock
      subst hblock
      rw [callLoop_wouldBlock h.state]
      exact ⟨fg, .errWouldblock, rfl, .inl ⟨rfl, count, h⟩⟩

/-- The calls of an activation that finds the header incomplete: what they deliver decides whether
the header is completed, and the piece that completes it whether the download goes on. -/
theorem InHeader.callLoop (h : InHeader fg body count) (hbody : body.length < 2 ^ 31)
    {calls : List Call} (hcalls : ∀ call ∈ calls, UndisturbedCall call) :
    let cutOf := headerCut (http200Header body.length).length (http200Reply body).length
    match cutOf count (recvSizes calls) with
    | none => ∃ fg' count', fg.callLoop calls = .ok (fg', .errWouldblock) ∧
        InHeader fg' body count' ∧ ∀ ks, cutOf count (recvSizes calls ++ ks) = cutOf count' ks
    | some cut =>
      (CleanCut body cut → Progresses body (fg.callLoop calls)) ∧
        (¬CleanCut body cut → ∀ fg' code, fg.callLoop calls = .ok (fg', code) → code = .err404) ∧
        ∀ ks, cutOf count (recvSizes calls ++ ks) = some cut := by
  intro cutOf
  induction calls generalizing fg count with
  | nil => exact ⟨fg, count, rfl, h, fun ks => rfl⟩
  | cons call calls ih =>
    obtain ⟨⟨k, hk⟩ | hblock, hok⟩ := hcalls call (by simp)
    · obtain ⟨answer, around⟩ := call
      simp only at hk hok
      subst hk
      have hreceive := h.receive hbody k hok
      rw [callLoop_cons h.state]
      simp only [cutOf, recvSizes, List.cons_append, headerCut] at hreceive ⊢
      split_ifs at hreceive ⊢ with hcomplete
      · obtain ⟨hclean, hdirty⟩ := hreceive
        refine ⟨fun hcut => ?_, fun hcut fg' code hresult => ?_, fun _ => rfl⟩
        · obtain ⟨next, hnext, hgoes⟩ := hclean hcut
          rw [hnext]
          cases next with
          | call fg' =>
            obtain ⟨count', hinBody⟩ := hgoes
            exact hinBody.callLoop fun call hcall => hcalls call (by simp [hcall])
          | «return» fg' code => exact ⟨fg', code, rfl, .inr hgoes⟩
        · have hfails := hdirty hcut
          cases hnext : fg.receive { answer := .ready k, around := around } with
          | error fault =>
            rw [hnext] at hresult
            cases hresult
          | ok next =>
            rw [hnext] at hfails hresult
            cases next with
            | call fg'' => exact absurd hfails id
            | «return» fg'' code' =>
              obtain ⟨-, rfl⟩ : fg'' = fg' ∧ code' = code := by simpa using hresult
              exact hfails
      · obtain ⟨fg', hnext, hinHeader⟩ := hreceive
        rw [hnext]
        exact ih hinHeader fun call hcall => hcalls call (by simp [hcall])
    · obtain ⟨answer, around⟩ := call
      simp only at hblock
      subst hblock
      rw [callLoop_wouldBlock h.state]
      exact ⟨fg, count, rfl, h, fun ks => rfl⟩

end Phases

/-! ## Reassembling the reply -/

/-- The reply is reassembled: an activation in which bytes are still missing would block, and the
one in which the last byte arrives returns `FG_OK_200`, with all of the body counted and saved. -/
def Reassembles (body : Bytes) (fg : Filegetter) : List GetterEvent → Prop
  | [] => True
  | e :: es => ∃ fg' code, fg.activate e = .ok (fg', code) ∧
      ((fg'.incoming ≠ [] ∧ code = .errWouldblock ∧ Reassembles body fg' es) ∨
        (code = .ok200 ∧ Downloaded fg' body))

/-- An activation that the environment does not disturb. -/
def Undisturbed (e : GetterEvent) : Prop := ∀ call ∈ e.calls, UndisturbedCall call

/-- The number of bytes of the reply that have arrived with the piece that completes the header. -/
def firstCut (body : Bytes) (es : List GetterEvent) : Option Nat :=
  headerCut (http200Header body.length).length (http200Reply body).length 0
    (es.flatMap fun e => recvSizes e.calls)

section Reassembles

variable {fg : Filegetter} {body : Bytes} {count : Nat} {es : List GetterEvent}

/-- A getter in the header is in a consistent state. -/
theorem InHeader.assertState (h : InHeader fg body count) (hbody : body.length < 2 ^ 31) :
    fg.AssertState := by
  have hheader := length_http200Header_lt hbody
  have hcount := h.count_lt
  have hlength : fg.buf.length ≤ count := by
    rw [h.buf, List.length_take]
    omega
  refine ⟨by simp [h.state], h.sockd, ?_, by omega, ?_⟩
  · rw [h.bufReadOffset]
    omega
  · rw [h.bufReadOffset]
    exact Nat.zero_le _

/-- A getter in the body is in a consistent state. -/
theorem InBody.assertState (h : InBody fg body count) : fg.AssertState := by
  refine ⟨by simp [h.state], h.sockd, ?_, ?_, ?_⟩
  · rw [h.bufReadOffset]
    decide
  · rw [h.buf]
    decide
  · rw [h.bufReadOffset]
    exact Nat.zero_le _

/-- Once the header is complete the body is reassembled, however it is cut. -/
theorem InBody.reassembles (h : InBody fg body count) (hes : ∀ e ∈ es, Undisturbed e) :
    Reassembles body fg es := by
  induction es generalizing fg count with
  | nil => trivial
  | cons e es ih =>
    obtain ⟨fg', code, hresult, hcases⟩ := h.callLoop (hes e (by simp))
    refine ⟨fg', code, by rw [activate_of_receive h.state h.assertState, hresult], ?_⟩
    rcases hcases with ⟨hcode, count', hinBody⟩ | hdone
    · refine .inl ⟨?_, hcode, ih hinBody fun e he => hes e (by simp [he])⟩
      rw [hinBody.incoming, ne_eq, List.drop_eq_nil_iff]
      exact Nat.not_le.mpr hinBody.count_lt
    · exact .inr hdone

/-- By induction on the activations: as long as the header is incomplete the first cut is still to
come, and the piece that completes the header decides. -/
theorem InHeader.reassembles_iff (h : InHeader fg body count) (hbody : body.length < 2 ^ 31)
    (hes : ∀ e ∈ es, Undisturbed e) :
    Reassembles body fg es ↔
      ∀ cut, headerCut (http200Header body.length).length (http200Reply body).length count
        (es.flatMap fun e => recvSizes e.calls) = some cut → CleanCut body cut := by
  induction es generalizing fg count with
  | nil =>
    constructor
    · intro _ cut hcut
      simp [headerCut] at hcut
    · exact fun _ => trivial
  | cons e es ih =>
    have hactivate := activate_of_receive h.state (h.assertState hbody) e
    have hrest : ∀ e ∈ es, Undisturbed e := fun e he => hes e (by simp [he])
    have hloop := h.callLoop hbody (hes e (by simp))
    rw [List.flatMap_cons]
    cases hcut : headerCut (http200Header body.length).length (http200Reply body).length count
        (recvSizes e.calls) with
    | none =>
      simp only [hcut] at hloop
      obtain ⟨fg', count', hresult, hinHeader, hlater⟩ := hloop
      rw [hlater, ← ih hinHeader hrest]
      have hmissing : fg'.incoming ≠ [] := by
        have hlt := hinHeader.count_lt
        rw [hinHeader.incoming, ne_eq, List.drop_eq_nil_iff, length_http200Reply]
        omega
      constructor
      · rintro ⟨fg'', code, hstep, hcases⟩
        rw [hactivate, hresult] at hstep
        obtain ⟨rfl, rfl⟩ : fg' = fg'' ∧ GetterCode.errWouldblock = code := by simpa using hstep
        rcases hcases with ⟨-, -, hreassembles⟩ | ⟨hcode, -⟩
        · exact hreassembles
        · cases hcode
      · intro hreassembles
        exact ⟨fg', .errWouldblock, by rw [hactivate, hresult], .inl ⟨hmissing, rfl, hreassembles⟩⟩
    | some cut =>
      simp only [hcut] at hloop
      obtain ⟨hclean, hdirty, hsame⟩ := hloop
      rw [hsame]
      constructor
      · rintro ⟨fg', code, hstep, hcases⟩ cut' hcut'
        obtain rfl : cut = cut' := by simpa using hcut'
        by_contra hnot
        rw [hactivate] at hstep
        have h404 := hdirty hnot fg' code hstep
        rcases hcases with ⟨-, hcode, -⟩ | ⟨hcode, -⟩
        · rw [hcode] at h404
          cases h404
        · rw [hcode] at h404
          cases h404
      · intro hall
        obtain ⟨fg', code, hresult, hcases⟩ := hclean (hall cut rfl)
        refine ⟨fg', code, by rw [hactivate, hresult], ?_⟩
        rcases hcases with ⟨hcode, count', hinBody⟩ | hdone
        · refine .inl ⟨?_, hcode, hinBody.reassembles hrest⟩
          rw [hinBody.incoming, ne_eq, List.drop_eq_nil_iff]
          exact Nat.not_le.mpr hinBody.count_lt
        · exact .inr hdone

/-- A getter that waits for the reply reassembles it from the pieces in which it arrives, if and
only if the piece that completes the header is clean. -/
theorem reassembles_iff_cleanCut (hawaits : AwaitsReply fg body) (hbody : body.length < 2 ^ 31)
    (hes : ∀ e ∈ es, Undisturbed e) :
    Reassembles body fg es ↔ ∀ cut, firstCut body es = some cut → CleanCut body cut :=
  InHeader.reassembles_iff hawaits hbody hes

/-- A getter that has sent all of its request but what is in the buffer. -/
structure Requesting (fg : Filegetter) (body : Bytes) : Prop where
  state : fg.state = .send
  nextstate : fg.nextstate = .toReplyHttp
  sockd : fg.sockd ≠ 0
  incoming : fg.incoming = http200Reply body
  downloaded : fg.curstats.bodyBytesDownloaded = 0
  saving : Saving fg []

/-- A getter that goes on after sending a part of its request is still sending it, or waits for the
reply. -/
theorem Requesting.send (h : Requesting fg body) {call : Call} {fg' : Filegetter}
    (hsend : fg.send call = .ok (.call fg')) : Requesting fg' body ∨ AwaitsReply fg' body := by
  unfold Filegetter.send at hsend
  split_ifs at hsend with hassert
  cases hanswer : call.answer.send (fg.buf.length - fg.bufReadOffset) with
  | error errno =>
    rw [hanswer] at hsend
    simp only [Except.ok.injEq, Filegetter.ioError] at hsend
    split_ifs at hsend
    cases hsend
  | ok bytes =>
    rw [hanswer] at hsend
    cases bytes with
    | zero => cases Except.ok.inj hsend
    | succ bytes =>
      dsimp only at hsend
      split_ifs at hsend with hall
      · -- the whole request was sent
        have hnext : (fg.advance (bytes + 1)).nextstate = .toReplyHttp := h.nextstate
        simp only [Filegetter.proceed, hnext] at hsend
        obtain rfl := Next.call.inj (Except.ok.inj hsend)
        refine .inr ⟨rfl, rfl, h.sockd, rfl, rfl, ?_, ?_, h.downloaded, h.saving.file,
          h.saving.memory⟩
        · exact h.incoming
        · rw [length_http200Header]
          exact Nat.succ_pos _
      · obtain rfl := Next.call.inj (Except.ok.inj hsend)
        exact .inl ⟨h.state, h.nextstate, h.sockd, h.incoming, h.downloaded, h.saving.file,
          h.saving.memory⟩

end Reassembles

/-! ## A direct download -/

/-- Surroundings in which nothing goes wrong. -/
def calm : Surroundings where
  firstByte := ⟨1, 0⟩
  progress := ⟨1, 0⟩
  complete := ⟨1, 0⟩
  fwriteOk := true
  reconnect := .failed

/-- An activation whose calls pass at most the given numbers of bytes. -/
def eventOf (sizes : List Nat) : GetterEvent where
  around := calm
  calls := sizes.map fun k => { answer := .ready k, around := calm }

/-- A getter that saves to a file and to memory, after it has sent its request for `body`. -/
def requested (body : Bytes) : Filegetter :=
  let fg := (Filegetter.start.download ServerSpec.zero
    { remotePath := ascii "/a", localPath := ascii "a", doSave := true, saveToMemory := true }
    true (.connected 4 (http200Reply body)) ⟨0, 0⟩).1
  match fg.activate (eventOf [999]) with
  | .ok (fg, _) => fg
  | .error _ => fg

/-- Three bytes of a body arrive with the header and two after it, in the next activation. -/
theorem reassembles_iff_cleanCut_hello :
    Reassembles (ascii "hello") (requested (ascii "hello")) [eventOf [10, 30], eventOf [9]] ↔
      ∀ cut, firstCut (ascii "hello") [eventOf [10, 30], eventOf [9]] = some cut →
        CleanCut (ascii "hello") cut := by
  have hawaits : AwaitsReply (requested (ascii "hello")) (ascii "hello") :=
    ⟨rfl, rfl, by decide, rfl, rfl, rfl, by decide, rfl, fun _ => ⟨rfl, rfl⟩, fun _ => rfl⟩
  have hundisturbed : ∀ e ∈ [eventOf [10, 30], eventOf [9]], Undisturbed e := by
    intro e he call hcall
    simp only [List.mem_cons, List.not_mem_nil, or_false] at he
    rcases he with rfl | rfl <;>
    · obtain ⟨k, -, rfl⟩ := List.mem_map.mp hcall
      exact ⟨.inl ⟨k, rfl⟩, rfl⟩
  exact reassembles_iff_cleanCut hawaits (by decide) hundisturbed

/-- A file that holds the line of a 404 reply, all of which arrives at once. -/
theorem not_reassembles_http404_body :
    AwaitsReply (requested http404) http404 ∧ Undisturbed (eventOf [999]) ∧
      ¬Reassembles http404 (requested http404) [eventOf [999]] := by
  refine ⟨⟨rfl, rfl, by decide, rfl, rfl, rfl, by decide, rfl, fun _ => ⟨rfl, rfl⟩, fun _ => rfl⟩,
    ?_, ?_⟩
  · intro call hcall
    obtain ⟨k, -, rfl⟩ := List.mem_map.mp hcall
    exact ⟨.inl ⟨k, rfl⟩, rfl⟩
  · rintro ⟨fg', code, hactivate, hcases⟩
    have hcode : ((requested http404).activate (eventOf [999])).map Prod.snd = .ok .err404 := by
      decide
    rw [hactivate] at hcode
    obtain rfl : code = .err404 := by simpa [Except.map] using hcode
    rcases hcases with ⟨-, hblock, -⟩ | ⟨hok, -⟩
    · cases hblock
    · cases hok

end ShadowExtras.FileTransfer
