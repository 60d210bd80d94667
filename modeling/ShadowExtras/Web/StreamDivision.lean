import ShadowExtras.Foundation.Fallible
import ShadowExtras.Web.Demultiplexing

/-!
# How a stream of responses is divided

The same responses reach `http_receive` in any division: into events, and in an event into what the
calls of `recv` return. What the requests are told depends on the division only in how the bodies
are cut, and `joinData` puts these together again. Two things break this. The members of the
connection outlive an event, but `content_range_found` is a local variable: a response to a resumed
request ends the program when an event ends between its `Content-Range` header and its blank line.
And a vector for which `recv` would block is committed in place of the next one.

A stream is well-formed by what its responses are; `rangeFits` is what the parser asks of their
lines at the place where they are read. `first_byte_pos_` is that of the request that was written
last.
-/

namespace ShadowExtras.Web

open Foundation HttpConnection HttpResponse

/-! ## Well-formed responses -/

/-- A header line `name: value`. -/
def IsHeaderLine (line : Bytes) : Prop :=
  ∃ name value, line = name ++ (58 :: 32 :: value) ∧ ∀ b ∈ name, b ≠ 58 ∧ b ≠ 0

/-- A header `Content-Range` for what follows this position. -/
def IsRangeLine (pos : Nat) (line : Bytes) : Prop :=
  ∃ name last, caselessEq name (ascii "content-range") = true ∧
    line = name ++
      (58 :: 32 :: (ascii "bytes " ++ (decimal pos ++ ascii "-" ++ decimal last ++ ascii "/" ++
      decimal (last + 1))))

/-- The status line of a response with this status. -/
def IsStatusLine (code : Nat) (line : Bytes) : Prop :=
  ∃ version reason, line = version ++ (32 :: (decimal code ++ reason)) ∧
    (∀ b ∈ version, b ≠ 32 ∧ b ≠ 0) ∧
    ∀ b ∈ reason.head?, isDigit b = false

/-- A response with status 200 or 206 to a request from this position on; the latter has the
range. -/
structure HttpResponse.WellFormed (r : HttpResponse) (pos : Nat) : Prop where
  status : IsStatusLine 200 r.status ∨ IsStatusLine 206 r.status ∧
    ∃ line ∈ r.lines, IsRangeLine pos line
  lines : ∀ line ∈ r.lines, IsHeaderLine line
  content : r.content ≠ []

/-! ## Conditions -/

/-- A range that begins at this position and reaches to the end. -/
def reachesEnd (pos : Nat) (value : Bytes) : Bool :=
  match parseContentRange value with
  | .ok (some (first, last, full)) => first = pos && full - 1 = last
  | _ => false

/-- A line among the headers fits `first_byte_pos_`: the header `Content-Range` is understood, and
in front of the blank line it was found, if it is needed. -/
def rangeFits (pos : Nat) (found : Bool) (line : Bytes) : Bool :=
  if cString line = [] then pos = 0 || found
  else match splitHeader line with
  | .error _ => true
  | .ok (name, value) => !caselessEq name (ascii "content-range") || reachesEnd pos value

/-- For the first of the vectors `recv` would block, and the second one gets bytes. -/
def skipsFirst : List Nat → List NumRead → Bool
  | _ :: _ :: _, .wouldBlock _ :: .bytes n :: _ => 0 < n
  | _, _ => false

/-! ## Lines -/

section Lines

variable {line name value version reason : Bytes} {pos code : Nat} {found : Bool}

/-- The status is read from a status line. -/
theorem statusOf_of_isStatusLine (hline : IsStatusLine code line) (hcode : code < 2 ^ 31) :
    statusOf (cString line) = some (code : Int) := by
  obtain ⟨version, reason, rfl, hversion, hreason⟩ := hline
  have hfront : ∀ b ∈ version ++ (32 :: decimal code), b ≠ 0 := by
    intro b hb
    rcases List.mem_append.mp hb with hb | hb
    · exact (hversion b hb).2
    · rcases List.mem_cons.mp hb with rfl | hb
      · decide
      · rintro rfl
        exact absurd (isDigit_of_mem_decimal hb) (by decide)
  have hsplit : version ++ (32 :: (decimal code ++ reason)) =
      version ++ (32 :: decimal code) ++ reason := by
    rw [List.append_assoc, List.cons_append]
  have hspace : (version ++ (32 :: (decimal code ++ cString reason))).dropWhile (fun b => b != 32) =
      32 :: (decimal code ++ cString reason) := by
    rw [List.dropWhile_append_of_pos fun b hb => by simpa using (hversion b hb).1]
    rfl
  have hdigit : ∀ b ∈ (cString reason).head?, isDigit b = false := by
    cases reason with
    | nil => simp [cString]
    | cons b reason =>
      intro b' hb'
      by_cases hzero : b = 0
      · simp [cString, hzero] at hb'
      · rw [cString, List.takeWhile_cons_of_pos (by simpa using hzero)] at hb'
        exact hreason b' hb'
  rw [hsplit, cString_append_of_forall hfront, List.append_assoc, List.cons_append, statusOf,
    hspace]
  exact congrArg some (atoi_decimal_append hcode hdigit)

/-- A header line is split. -/
theorem splitHeader_of_isHeaderLine (hline : IsHeaderLine line) :
    cString line ≠ [] ∧ ∃ header, splitHeader line = .ok header := by
  obtain ⟨name, value, rfl, hname⟩ := hline
  constructor
  · rw [cString_header hname]
    simp
  · exact ⟨_, splitHeader_header hname value⟩

end Lines

/-! ## The receive loop -/

section Receive

variable {sizes : List Nat} {results : List NumRead} {stream : Bytes} {filled : Filled}

/-- A receive loop in which no `recv` fails goes through. -/
theorem exists_recvLoop (sizes : List Nat) (stream : Bytes) (hresults : .error ∉ results) :
    ∃ filled, HttpConnection.recvLoop sizes results stream = .ok filled := by
  induction sizes generalizing results stream with
  | nil => cases results <;> exact ⟨_, rfl⟩
  | cons size sizes ih =>
    cases results with
    | nil => exact ⟨_, rfl⟩
    | cons result results =>
      have hrest : .error ∉ results := fun hmem => hresults (List.mem_cons_of_mem _ hmem)
      cases result with
      | error => exact absurd List.mem_cons_self hresults
      | wouldBlock held =>
        obtain ⟨filled, hfilled⟩ := ih stream hrest
        simp only [HttpConnection.recvLoop, hfilled]
        exact ⟨_, rfl⟩
      | bytes n =>
        obtain ⟨filled, hfilled⟩ :=
          ih (stream.drop (stream.take (min n (min size nToAdd))).length) hrest
        simp only [HttpConnection.recvLoop, hfilled]
        split_ifs
        · exact ⟨_, rfl⟩
        · exact ⟨_, rfl⟩
        · exact ⟨_, rfl⟩

/-- There is a result for each vector. -/
theorem recvLoop_take (sizes : List Nat) (results : List NumRead) (stream : Bytes) :
    HttpConnection.recvLoop sizes (results.take sizes.length) stream =
      HttpConnection.recvLoop sizes results stream := by
  induction sizes generalizing results stream with
  | nil => cases results <;> rfl
  | cons size sizes ih =>
    cases results with
    | nil => rfl
    | cons result results =>
      rw [List.length_cons, List.take_succ_cons]
      cases result with
      | error => rfl
      | wouldBlock held => simp only [HttpConnection.recvLoop, ih]
      | bytes n => simp only [HttpConnection.recvLoop, ih]

/-- Unless a vector is skipped, what is committed is what is received. -/
theorem appends_of_skipsFirst_eq_false (hsizes : sizes.length ≤ 2)
    (hskips : stream = [] ∨ skipsFirst sizes results = false)
    (h : HttpConnection.recvLoop sizes results stream = .ok filled) :
    stream = (filled.vectors.take filled.numToCommit).flatten ++ filled.rest := by
  rcases hskips with rfl | hskips
  · obtain ⟨hzero, hrest⟩ := recvLoop_of_forall (fun n _ => List.take_nil) h
    rw [hzero, hrest, List.take_zero, List.flatten_nil, List.nil_append]
  · rw [← recvLoop_take] at h
    refine (recvLoop_spec ?_ h).2
    match sizes, results, hsizes with
    | [], _, _ => exact .nil
    | [_], [], _ => exact .nil
    | [_], [_], _ => exact List.pairwise_singleton _ _
    | [_], _ :: _ :: _, _ => exact List.pairwise_singleton _ _
    | [_, _], [], _ => exact .nil
    | [_, _], [_], _ => exact List.pairwise_singleton _ _
    | [_, _], a :: b :: _, _ =>
      refine List.pairwise_pair.mpr ?_
      rintro held n rfl rfl
      simpa [skipsFirst] using hskips

end Receive

/-! ## The extents of the buffer -/

section Extents

variable {E : Evbuffer} {c : HttpConnection E} {h : Handled E} {active found : Bool}

/-- Behind a first part without the end of a line, the content of the buffer stands in as many
extents as there are vectors; in a body there is no such part. -/
def HttpConnection.FewExtents (c : HttpConnection E) : Prop :=
  ∃ old, IsLine ((E.bytes c.inbuf).take old) ∧ (dropExtents old (E.extents c.inbuf)).length ≤ 2 ∧
    (c.rspState = .body → old = 0)

/-- An empty buffer has no extents. -/
theorem fewExtents_new : (HttpConnection.new E).FewExtents := by
  refine ⟨0, ?_, ?_, fun _ => rfl⟩
  · simp [IsLine, crlf]
  · simp [HttpConnection.new, E.extents_new, dropExtents]

/-- What is committed when the parser could not go on. -/
theorem HttpConnection.Stalled.fewExtents_commit (hc : c.Stalled) {n : Nat} {ps : List Bytes}
    (hfits : FitsInto ps (E.reserve c.inbuf n).2) :
    { c with inbuf := E.commit (E.reserve c.inbuf n).1 ps }.FewExtents := by
  have hlength : (dropExtents (E.bytes c.inbuf).length
      (E.extents (E.commit (E.reserve c.inbuf n).1 ps))).length ≤ 2 := calc
    _ ≤ ps.length := E.length_commit hfits
    _ ≤ (E.reserve c.inbuf n).2.length := length_le_of_fitsInto hfits
    _ ≤ 2 := (E.length_reserve c.inbuf n).2
  refine ⟨(E.bytes c.inbuf).length, ?_, hlength, ?_⟩
  · dsimp only
    rw [Evbuffer.bytes_commit hfits, List.take_left]
    unfold Stalled at hc
    split at hc
    · rw [hc.1]
      simp [IsLine, crlf]
    · exact hc
  · intro hbody
    dsimp only at hbody
    simp only [Stalled, hbody] at hc
    rw [hc.1, List.length_nil]

/-- All of the first part goes with the first line. -/
theorem HttpConnection.FewExtents.readln {line : Bytes} {inbuf : E.Buf} (hc : c.FewExtents)
    (hread : E.readln c.inbuf = some (line, inbuf)) :
    (dropExtents 0 (E.extents inbuf)).length ≤ 2 := by
  obtain ⟨old, hold, hlength, -⟩ := hc
  obtain ⟨hline, hbytes⟩ := Evbuffer.bytes_of_readln hread
  have hinbuf : inbuf = E.drain c.inbuf (line.length + 2) :=
    (Prod.mk.inj (Option.some.inj (hread.symm.trans (Evbuffer.readln_eq_some hline hbytes)))).2
  have hlt : old < line.length + 2 := by
    by_contra hge
    apply hold
    have hprefix : line ++ crlf <+: (E.bytes c.inbuf).take old := by
      rw [List.prefix_take_iff, hbytes, ← List.append_assoc]
      exact ⟨List.prefix_append _ _, by simpa [crlf] using Nat.le_of_not_lt hge⟩
    exact (List.suffix_append line crlf).isInfix.trans hprefix.isInfix
  rw [hinbuf, E.extents_drain, dropExtents_dropExtents, Nat.add_zero]
  have hdrop : dropExtents (line.length + 2) (E.extents c.inbuf) =
      dropExtents (line.length + 2 - old) (dropExtents old (E.extents c.inbuf)) := by
    rw [dropExtents_dropExtents]
    congr 1
    omega
  rw [hdrop]
  exact (length_dropExtents_le _ _).trans hlength

/-- The front bytes of a body stand in few extents. -/
theorem HttpConnection.FewExtents.length_peek (hc : c.FewExtents) (hbody : c.rspState = .body)
    (n : Nat) :
    (E.peek c.inbuf n).length ≤ 2 := by
  obtain ⟨old, -, hlength, hold⟩ := hc
  rw [hold hbody] at hlength
  have hall : dropExtents 0 (E.extents c.inbuf) = E.extents c.inbuf := by
    have happend : dropExtents ([] : List Bytes).flatten.length ([] ++ E.extents c.inbuf) =
        E.extents c.inbuf := dropExtents_append [] fun _ => E.ne_nil_of_mem_extents
    exact happend
  rw [hall] at hlength
  have hprefix := takeExtents_prefix n (E.extents c.inbuf)
  exact hprefix.length_le.trans hlength

/-- A buffer with at most two extents has few. -/
theorem fewExtents_of_dropExtents_zero {c : HttpConnection E}
    (hlength : (dropExtents 0 (E.extents c.inbuf)).length ≤ 2) : c.FewExtents := by
  refine ⟨0, ?_, hlength, fun _ => rfl⟩
  simp [IsLine, crlf]

/-- Parsing leaves few extents. -/
theorem HttpConnection.FewExtents.handleResponse (hc : c.FewExtents)
    (hstep : c.handleResponse active found = .ok h) : h.conn.FewExtents := by
  unfold HttpConnection.handleResponse at hstep
  cases hstate : c.rspState with
  | statusLine =>
    simp only [hstate, HttpConnection.handleStatusLine] at hstep
    split at hstep
    · obtain rfl := Except.ok.inj hstep
      exact hc
    · rename_i line inbuf hread
      split at hstep
      · cases hstep
      · split_ifs at hstep
        obtain rfl := Except.ok.inj hstep
        exact fewExtents_of_dropExtents_zero (hc.readln hread)
  | headers =>
    simp only [hstate, HttpConnection.handleHeaders] at hstep
    split at hstep
    · obtain rfl := Except.ok.inj hstep
      exact hc
    · rename_i line inbuf hread
      split_ifs at hstep
      · obtain rfl := Except.ok.inj hstep
        exact fewExtents_of_dropExtents_zero (hc.readln hread)
      · split at hstep
        · cases hstep
        · rename_i c' found' hheader
          obtain rfl := Except.ok.inj hstep
          have hinbuf : c'.inbuf = inbuf := (headerLine_spec hheader).1
          apply fewExtents_of_dropExtents_zero
          rw [hinbuf]
          exact hc.readln hread
  | body =>
    have hlength : (dropExtents 0 (E.extents c.inbuf)).length ≤ 2 := by
      obtain ⟨old, -, hlength, hold⟩ := hc
      rwa [hold hstate] at hlength
    have hdrain (n : Nat) : (dropExtents 0 (E.extents (E.drain c.inbuf n))).length ≤ 2 := by
      rw [E.extents_drain, dropExtents_dropExtents, Nat.add_comm, ← dropExtents_dropExtents]
      exact (length_dropExtents_le _ _).trans hlength
    simp only [hstate, HttpConnection.handleBody] at hstep
    split_ifs at hstep
    · obtain rfl := Except.ok.inj hstep
      exact fewExtents_of_dropExtents_zero (hdrain _)
    · obtain rfl := Except.ok.inj hstep
      exact fewExtents_of_dropExtents_zero (hdrain _)

end Extents

/-! ## Rounds -/

section Rounds

variable {E : Evbuffer} {c : HttpConnection E} {h : Handled E} {r : HttpResponse}
    {told : List Notice}
variable {left toRecv future line : Bytes} {pos : Nat} {active found : Bool}

/-- In a body something of it is missing. -/
def HttpConnection.InBody (c : HttpConnection E) : Prop := c.rspState = .body → 0 < c.bodyLen

/-- A round that goes on in a body has not read all of it. -/
theorem inBody_of_handleBody (hstep : c.handleBody active found = .ok h) : h.conn.InBody := by
  have hle : (consumed c.bodyLen.toNat (E.peek c.inbuf c.bodyLen.toNat)).flatten.length ≤
      c.bodyLen.toNat := by
    rw [flatten_consumed]
    exact List.length_take_le _ _
  unfold HttpConnection.handleBody at hstep
  split_ifs at hstep with hpos
  dsimp only at hstep
  split_ifs at hstep with hmany hzero
  · obtain rfl := Except.ok.inj hstep
    intro hbody
    cases hbody
  · obtain rfl := Except.ok.inj hstep
    intro _
    dsimp only
    omega

/-- Within a body something of it is left. -/
theorem HttpConnection.Within.inBody (hc : c.Within r told left) (hcontent : r.content ≠ [])
    (hstream : E.bytes c.inbuf ++ toRecv = left ++ future)
    (hstep : c.handleResponse active found = .ok h) : h.conn.InBody := by
  intro hbody
  cases hstate : c.rspState with
  | body =>
    rw [HttpConnection.handleResponse, hstate] at hstep
    exact inBody_of_handleBody hstep hbody
  | statusLine =>
    cases round_of_handleResponse hstep with
    | quiet _ _ hafter => exact absurd hbody hafter
    | rspMeta _ _ _ hbefore => simp [hstate] at hbefore
    | rspBodyData _ _ hbefore => simp [hstate] at hbefore
    | rspBodyDone _ _ hbefore => simp [hstate] at hbefore
  | headers =>
    cases round_of_handleResponse hstep with
    | quiet _ _ hafter => exact absurd hbody hafter
    | rspBodyData _ _ hbefore => simp [hstate] at hbefore
    | rspBodyDone _ _ hbefore => simp [hstate] at hbefore
    | rspMeta status headers hnotices =>
      have htold : told = [] := by
        cases hc with
        | statusLine => rfl
        | headers => rfl
        | body _ _ hother => simp [hstate] at hother
      cases hc.handleResponse hstream hstep with
      | ends _ _ _ _ _ hbetween => simp [hbetween.rspState] at hbody
      | goesOn left' hwithin =>
        rw [htold, hnotices, List.nil_append] at hwithin
        generalize hall : [Notice.rspMeta status headers] = all at hwithin
        cases hwithin with
        | statusLine hbetween => simp [hbetween.rspState] at hbody
        | headers _ _ hother => simp [hbody] at hother
        | body data left' _ _ hlen hcontent' =>
          -- nothing of the body has been told yet
          obtain rfl : data = [] := List.map_eq_nil_iff.mp (List.cons.inj hall).2.symm
          rw [List.flatten_nil, List.nil_append] at hcontent'
          rw [hlen, ← hcontent']
          exact_mod_cast List.length_pos_iff.mpr hcontent

/-- What the parser asks of the header lines that it reads. -/
def HttpConnection.RangeFits (c : HttpConnection E) (found : Bool) : Prop :=
  c.rspState = .headers → ∀ line inbuf, E.readln c.inbuf = some (line, inbuf) →
    rangeFits c.firstBytePos found line = true

/-- A header line that fits is read. -/
theorem exists_headerLine (hline : IsHeaderLine line)
    (hfits : rangeFits c.firstBytePos found line = true) :
    ∃ header, c.headerLine line found = .ok header := by
  obtain ⟨hblank, ⟨name, value⟩, hsplit⟩ := splitHeader_of_isHeaderLine hline
  rw [rangeFits, if_neg hblank, hsplit] at hfits
  simp only [Bool.or_eq_true, Bool.not_eq_true'] at hfits
  unfold HttpConnection.headerLine
  simp only [hsplit]
  split_ifs with hlength hrange
  · exact ⟨_, rfl⟩
  · have hreaches : reachesEnd c.firstBytePos value = true := by
      rcases hfits with hfits | hfits
      · simp [hrange] at hfits
      · exact hfits
    unfold reachesEnd at hreaches
    split at hreaches
    · rename_i first last full hparse
      simp only [hparse]
      rw [if_pos (by simpa using hreaches)]
      exact ⟨_, rfl⟩
    · cases hreaches
  · exact ⟨_, rfl⟩

/-- A round in a well-formed response does not fail while its header lines fit. -/
theorem HttpConnection.Within.exists_handleResponse (hc : c.Within r told left)
    (hr : r.WellFormed pos)
    (hstream : E.bytes c.inbuf ++ toRecv = left ++ future) (hfew : c.FewExtents) (hbody : c.InBody)
    (hfits : c.RangeFits found) : ∃ h, c.handleResponse true found = .ok h := by
  unfold HttpConnection.handleResponse
  cases hc with
  | statusLine hbetween =>
    simp only [hbetween.rspState, HttpConnection.handleStatusLine]
    cases hread : E.readln c.inbuf with
    | none => exact ⟨_, rfl⟩
    | some read =>
      obtain ⟨line, inbuf⟩ := read
      obtain ⟨hline, hbytes⟩ := Evbuffer.bytes_of_readln hread
      rw [hbytes, HttpResponse.text, List.append_assoc, List.append_assoc, List.append_assoc,
        List.append_assoc] at hstream
      obtain ⟨rfl, -⟩ := line_append_inj hline r.isLine hstream
      dsimp only
      rcases hr.status with hstatus | ⟨hstatus, -⟩
      · rw [statusOf_of_isStatusLine hstatus (by decide)]
        exact ⟨_, rfl⟩
      · rw [statusOf_of_isStatusLine hstatus (by decide)]
        exact ⟨_, rfl⟩
  | headers before lines hstate _ _ hlen hall =>
    simp only [hstate, HttpConnection.handleHeaders]
    cases hread : E.readln c.inbuf with
    | none => exact ⟨_, rfl⟩
    | some read =>
      obtain ⟨line, inbuf⟩ := read
      obtain ⟨hline, hbytes⟩ := Evbuffer.bytes_of_readln hread
      have hfit : rangeFits c.firstBytePos found line = true := hfits hstate line inbuf hread
      rw [hbytes, List.append_assoc, List.append_assoc, List.append_assoc, List.append_assoc]
        at hstream
      dsimp only
      have hlines : ∀ l ∈ lines, IsLine l := fun l hl => r.headers.isLine l (by simp [hall, hl])
      rcases line_append_joinLines hline hlines hstream with ⟨rfl, rfl, -⟩ | ⟨rest, rfl, -⟩
      · have hblank : cString [] = [] := rfl
        have hlen' : c.bodyLen = r.content.length := by
          rw [hlen, ← r.headers.length, hall, List.append_nil]
        rw [rangeFits, if_pos hblank, Bool.or_eq_true, decide_eq_true_eq] at hfit
        rw [if_pos hblank, if_neg (by omega), if_neg, if_neg (by simp)]
        · exact ⟨_, rfl⟩
        · rintro ⟨hmissing, hpos⟩
          rcases hfit with hzero | hfound
          · omega
          · simp [hfound] at hmissing
      · have hmem : line ∈ r.lines := by simp [hall]
        rw [if_neg (r.headers.notBlank line hmem)]
        obtain ⟨header, hheader⟩ :=
          exists_headerLine (c := { c with inbuf := inbuf }) (hr.lines line hmem) hfit
        rw [hstate] at hheader
        rw [hheader]
        exact ⟨_, rfl⟩
  | body data left hstate =>
    simp only [hstate, HttpConnection.handleBody]
    have hpeek : ¬2 < (E.peek c.inbuf c.bodyLen.toNat).length :=
      Nat.not_lt.mpr (hfew.length_peek hstate _)
    rw [if_neg (not_not.mpr (hbody hstate)), if_neg (by simp), if_neg hpeek]
    split_ifs
    · exact ⟨_, rfl⟩
    · exact ⟨_, rfl⟩

/-- A header line that does not fit ends the program. -/
theorem exists_error_of_rangeFits_eq_false {inbuf : E.Buf}
    (hread : E.readln c.inbuf = some (line, inbuf))
    (hfits : rangeFits c.firstBytePos found line = false) :
    ∃ fault, c.handleHeaders active found = .error fault := by
  simp only [HttpConnection.handleHeaders, hread]
  unfold rangeFits at hfits
  split_ifs at hfits with hblank
  · rw [Bool.or_eq_false_iff, decide_eq_false_iff_not] at hfits
    obtain ⟨hpos, rfl⟩ := hfits
    rw [if_pos hblank]
    split_ifs with hlen hmissing
    · exact ⟨_, rfl⟩
    · exact ⟨_, rfl⟩
    · exact absurd ⟨rfl, Nat.pos_of_ne_zero hpos⟩ hmissing
    · exact absurd ⟨rfl, Nat.pos_of_ne_zero hpos⟩ hmissing
  · rw [if_neg hblank]
    cases hsplit : splitHeader line with
    | error fault => simp [hsplit] at hfits
    | ok header =>
      obtain ⟨name, value⟩ := header
      simp only [hsplit, Bool.or_eq_false_iff, Bool.not_eq_false'] at hfits
      obtain ⟨hname, hreaches⟩ := hfits
      have hlength : caselessEq name (ascii "content-length") = false := by
        rw [Bool.eq_false_iff]
        intro hlength
        simp only [caselessEq, beq_iff_eq] at hname hlength
        exact absurd (hlength.symm.trans hname) (by decide +kernel)
      have hheader : ∃ fault, headerLine { c with inbuf := inbuf } line found = .error fault := by
        unfold HttpConnection.headerLine
        simp only [hsplit, hlength, hname, if_true, Bool.false_eq_true, if_false]
        cases hparse : parseContentRange value with
        | error fault => exact ⟨_, rfl⟩
        | ok range =>
          rcases range with _ | ⟨first, last, full⟩
          · exact ⟨_, rfl⟩
          · simp only [reachesEnd, hparse, Bool.and_eq_false_iff, decide_eq_false_iff_not]
              at hreaches
            dsimp only
            rw [if_neg fun hfit => hreaches.elim (· hfit.1) (· hfit.2)]
            exact ⟨_, rfl⟩
      obtain ⟨fault, hfault⟩ := hheader
      rw [hfault]
      exact ⟨_, rfl⟩

end Rounds

namespace Pipeline

variable {E : Evbuffer} {asked : ReqId → Asked} {s t : Pipeline E} {choice : PipelineChoice}
    {found : Bool}

/-! ## Divisions -/

/-- The server sends well-formed responses, and `recv` fails only because it would block. -/
def Proper (asked : ReqId → Asked) (s : Pipeline E) (choice : PipelineChoice) : Prop :=
  match choice with
  | .answer r => ∀ req, s.written[s.responses.length]? = some req →
      r.WellFormed (asked req).firstBytePos
  | .recv results => .error ∉ results
  | _ => True

/-- No vector is skipped, and the header lines of a response are read while they fit. -/
def undisturbed (s : Pipeline E) (choice : PipelineChoice) : Bool :=
  match choice, s.label with
  | .recv results, .readMore _ =>
      s.toRecv = [] || !skipsFirst (E.reserve s.http.inbuf nToAdd).2 results
  | .go, .handleResponse found =>
    match s.http.rspState, E.readln s.http.inbuf with
    | .headers, some (line, _) => rangeFits s.http.firstBytePos found line
    | _, _ => true
  | _, _ => true

/-- A step that the division does not disturb. -/
def Undisturbed (s : Pipeline E) (choice : PipelineChoice) : Prop := s.undisturbed choice = true

instance (s : Pipeline E) (choice : PipelineChoice) : Decidable (s.Undisturbed choice) :=
  inferInstanceAs (Decidable (s.undisturbed choice = true))

/-! ## What is promised -/

/-- The requests that were answered, with their responses. -/
def served (s : Pipeline E) : List (ReqId × HttpResponse) := s.written.zip s.responses

/-- Everything was received, and no event is going on. -/
def Finished (s : Pipeline E) : Prop := s.label = .idle ∧ s.toRecv = []

/-- The callbacks, with the pieces of each body put together. -/
def joinData : List (ReqId × Notice) → List (ReqId × Notice)
  | [] => []
  | (req, .rspBodyData data) :: told =>
    match joinData told with
    | (req', .rspBodyData data') :: rest =>
      if req = req' then (req, .rspBodyData (data ++ data')) :: rest
      else (req, .rspBodyData data) :: (req', .rspBodyData data') :: rest
    | rest => (req, .rspBodyData data) :: rest
  | (req, notice) :: told => (req, notice) :: joinData told

/-- What a request is told of its response. -/
def callbacks (answered : ReqId × HttpResponse) : List (ReqId × Notice) :=
  [(answered.1, answered.2.metadata), (answered.1, .rspBodyData answered.2.content),
    (answered.1, .rspBodyDone)]

/-! ## Steps -/

/-- What is received is appended. -/
theorem Undisturbed.appendsReceived (h : s.Undisturbed choice) : s.AppendsReceived choice := by
  unfold Undisturbed undisturbed at h
  unfold AppendsReceived
  split
  · rename_i results found hlabel
    simp only [hlabel, Bool.or_eq_true, decide_eq_true_eq, Bool.not_eq_true'] at h
    split
    · exact trivial
    · rename_i filled hfilled
      exact appends_of_skipsFirst_eq_false (E.length_reserve s.http.inbuf nToAdd).2 h hfilled
  · exact trivial

/-- The parser is in a response of the first active request, or at rest. -/
theorem AtWire.cases {rs : List HttpResponse} {part : List (ReqId × Notice)}
    (h : s.AtWire rs part) :
    (s.http.Between ∧ E.bytes s.http.inbuf = []) ∨ ∃ r ∈ rs, ∃ told left, s.activeReqQueue ≠ [] ∧
      s.http.Within r told left ∧ ∃ future, E.bytes s.http.inbuf ++ s.toRecv = left ++ future := by
  cases h with
  | rest hbetween hnil => exact .inl ⟨hbetween, (List.append_eq_nil_iff.mp hnil).1⟩
  | response req r rs told left hfront hwithin hstream =>
    refine .inr ⟨r, List.mem_cons_self, told, left, ?_, hwithin, texts rs, hstream⟩
    rintro hnil
    simp [hnil] at hfront

/-- Writing a request changes nothing of the parser but the position. -/
theorem httpWriteToOutbuf_http (asked : ReqId → Asked) (s : Pipeline E) :
    (s.httpWriteToOutbuf asked).responses = s.responses ∧
      ∃ pos, (s.httpWriteToOutbuf asked).http = { s.http with firstBytePos := pos } := by
  unfold Pipeline.httpWriteToOutbuf
  split
  · exact ⟨rfl, _, rfl⟩
  · dsimp only
    split_ifs
    · exact ⟨rfl, _, rfl⟩
    · exact ⟨rfl, _, rfl⟩
    · exact ⟨rfl, _, rfl⟩

/-- What a step keeps beside the accounts: the responses are well-formed and the parser can go
on. -/
structure Ready (s : Pipeline E) : Prop where
  wellFormed : ∀ r ∈ s.responses, ∃ pos, r.WellFormed pos
  fewExtents : s.http.FewExtents
  inBody : s.http.InBody

/-- A new pipeline is ready. -/
theorem ready_new (doPipeline : Bool) (maxPipelineSize : Nat) :
    (new E doPipeline maxPipelineSize).Ready where
  wellFormed := by simp [new]
  fewExtents := fewExtents_new
  inBody := by simp [new, HttpConnection.new, InBody]

/-- Writing a request keeps the pipeline ready. -/
theorem Ready.httpWriteToOutbuf (h : s.Ready) : (s.httpWriteToOutbuf asked).Ready := by
  obtain ⟨hresponses, pos, hhttp⟩ := httpWriteToOutbuf_http asked s
  constructor
  · rw [hresponses]
    exact h.wellFormed
  · rw [hhttp]
    exact h.fewExtents
  · rw [hhttp]
    exact h.inBody

/-- A well-formed answer keeps the pipeline ready. -/
theorem Ready.answer {r : HttpResponse} (h : s.Ready)
    (hproper : ∀ req, s.written[s.responses.length]? = some req →
      r.WellFormed (asked req).firstBytePos) :
    (s.answer r).Ready := by
  unfold Pipeline.answer
  split_ifs with hwritten
  · refine ⟨?_, h.fewExtents, h.inBody⟩
    intro r' hr'
    rcases List.mem_append.mp hr' with hr' | hr'
    · exact h.wellFormed r' hr'
    · obtain rfl : r' = r := List.mem_singleton.mp hr'
      exact ⟨_, hproper _ (List.getElem?_eq_getElem hwritten)⟩
  · exact h

/-- `recv` appends to a buffer in which the parser could not go on. -/
theorem Ready.readMore {results : List NumRead} (h : s.Ready) (hstalled : s.http.Stalled)
    (hresults : .error ∉ results) : ∃ t, s.readMore found results = .ok t ∧ t.Ready := by
  obtain ⟨filled, hfilled⟩ := exists_recvLoop (E.reserve s.http.inbuf nToAdd).2 s.toRecv hresults
  simp only [Pipeline.readMore, hfilled]
  split_ifs
  · refine ⟨_, rfl, h.wellFormed, ?_, h.inBody⟩
    obtain ⟨old, hold, hlength, hbody⟩ := h.fewExtents
    refine ⟨old, ?_, ?_, hbody⟩
    · dsimp only
      rwa [Evbuffer.bytes_reserve]
    · dsimp only
      rwa [E.extents_reserve]
  · exact ⟨_, rfl, h.wellFormed, hstalled.fewExtents_commit (fitsInto_of_recvLoop hfilled),
      h.inBody⟩

/-- A round while the header lines fit. -/
theorem Ready.handleResponse {rs : List HttpResponse} {part : List (ReqId × Notice)} (h : s.Ready)
    (hwire : s.AtWire rs part) (hrs : ∀ r ∈ rs, r ∈ s.responses) (hfits : s.http.RangeFits found) :
    ∃ t, s.handleResponse found = .ok t ∧ t.Ready := by
  obtain ⟨round, hround, hinBody⟩ : ∃ round,
      s.http.handleResponse (!s.activeReqQueue.isEmpty) found =
      .ok round ∧ round.conn.InBody := by
    rcases hwire.cases with ⟨hbetween, hnil⟩ |
        ⟨r, hr, told, left, hactive, hwithin, future, hstream⟩
    · have hread : E.readln s.http.inbuf = none := by
        rw [Evbuffer.readln_eq_none, hnil]
        simp [IsLine, crlf]
      simp only [HttpConnection.handleResponse, hbetween.rspState, HttpConnection.handleStatusLine,
        hread]
      exact ⟨_, rfl, h.inBody⟩
    · obtain ⟨pos, hwell⟩ := h.wellFormed r (hrs r hr)
      have hempty : (!s.activeReqQueue.isEmpty) = true := by simpa using hactive
      rw [hempty]
      obtain ⟨round, hround⟩ :=
        hwithin.exists_handleResponse hwell hstream h.fewExtents h.inBody hfits
      exact ⟨round, hround, hwithin.inBody hwell.content hstream hround⟩
  simp only [Pipeline.handleResponse, hround]
  exact ⟨_, rfl, h.wellFormed, h.fewExtents.handleResponse hround, hinBody⟩

/-- A step that is proper and undisturbed does not fail. -/
theorem Ready.step {finished : List (ReqId × HttpResponse)} {rs : List HttpResponse}
    {blocks : List (List (ReqId × Notice))} {part : List (ReqId × Notice)} (h : s.Ready)
    (haccounts : s.Accounts asked finished rs blocks part) (hproper : s.Proper asked choice)
    (hundisturbed : s.Undisturbed choice) : ∃ t, step asked s choice = .ok t ∧ t.Ready := by
  unfold Pipeline.step
  split
  · exact ⟨_, rfl, Ready.httpWriteToOutbuf ⟨h.wellFormed, h.fewExtents, h.inBody⟩⟩
  · exact ⟨_, rfl, h.answer hproper⟩
  · exact ⟨_, rfl, h.httpWriteToOutbuf⟩
  · refine ⟨_, rfl, ?_⟩
    unfold Pipeline.onRead
    split_ifs
    · exact h
    · exact ⟨h.wellFormed, h.fewExtents, h.inBody⟩
  · rename_i hlabel
    exact h.readMore (haccounts.stage.of_waits (.inr hlabel)).2 hproper
  · rename_i hlabel
    refine h.handleResponse (haccounts.stage.of_parses (.inl hlabel)) ?_ ?_
    · intro r hr
      rw [haccounts.responses]
      exact List.mem_append_right _ hr
    · intro hstate line inbuf hread
      simpa only [Undisturbed, undisturbed, hlabel, hstate, hread] using hundisturbed
  · exact ⟨_, rfl, h.wellFormed, h.fewExtents, h.inBody⟩
  · exact ⟨_, rfl, Ready.httpWriteToOutbuf ⟨h.wellFormed, h.fewExtents, h.inBody⟩⟩
  · exact ⟨_, rfl, h⟩

/-! ## The callbacks -/

/-- The pieces of a body are put together. -/
theorem joinData_pieces (req : ReqId) {data : List Bytes} (hdata : data ≠ [])
    (rest : List (ReqId × Notice)) :
    joinData ((data.map fun piece => (req, .rspBodyData piece)) ++ (req, .rspBodyDone) :: rest) =
      (req, .rspBodyData data.flatten) :: (req, .rspBodyDone) :: joinData rest := by
  induction data with
  | nil => exact absurd rfl hdata
  | cons piece data ih =>
    rw [List.map_cons, List.cons_append, joinData]
    cases data with
    | nil => simp [joinData]
    | cons piece' data =>
      rw [ih (List.cons_ne_nil _ _)]
      simp

/-- The pieces of the first body are put together. -/
theorem joinData_append_of_delivers {answered : ReqId × HttpResponse}
    {block : List (ReqId × Notice)}
    (hcontent : answered.2.content ≠ []) (h : Delivers answered block)
    (rest : List (ReqId × Notice)) :
    joinData (block ++ rest) = callbacks answered ++ joinData rest := by
  obtain ⟨data, hdata, rfl⟩ := h
  have hsome : data ≠ [] := by
    rintro rfl
    exact hcontent hdata.symm
  have hpieces := joinData_pieces answered.1 hsome rest
  simp only [delivery, callbacks, HttpResponse.metadata, List.map_cons, List.map_map,
    List.cons_append, List.append_assoc, List.nil_append, joinData, Function.comp_def]
  rw [hpieces, hdata]

/-- All the requests that were answered are called back. -/
theorem joinData_flatten {finished : List (ReqId × HttpResponse)}
    {blocks : List (List (ReqId × Notice))}
    (hcontent : ∀ answered ∈ finished, answered.2.content ≠ [])
    (h : List.Forall₂ Delivers finished blocks) :
    joinData blocks.flatten = finished.flatMap callbacks := by
  induction h with
  | nil => rfl
  | cons hblock _ ih =>
    rw [List.flatten_cons, joinData_append_of_delivers (hcontent _ List.mem_cons_self) hblock,
      ih fun answered hmem => hcontent answered (List.mem_cons_of_mem _ hmem), List.flatMap_cons]

/-- When everything was received the callbacks do not depend on how. -/
theorem joinData_told (h : s.Demultiplexes asked) (hcontent : ∀ r ∈ s.responses, r.content ≠ [])
    (hfinished : s.Finished) : joinData s.told = s.served.flatMap callbacks := by
  obtain ⟨finished, todo, blocks, block, hserved, htold, hdelivers, hblock, hall⟩ := h.inOrder
  obtain rfl : todo = [] := hall hfinished.1 hfinished.2
  obtain rfl : block = [] := by
    rcases hblock with hblock | ⟨served, hnone, -⟩
    · exact hblock
    · simp at hnone
  rw [List.append_nil] at hserved htold
  rw [htold, served, hserved]
  apply joinData_flatten _ hdelivers
  intro answered hmem
  rw [← hserved] at hmem
  exact hcontent answered.2 (List.of_mem_zip hmem).2

/-! ## Runs -/

/-- A run that is proper and undisturbed does not fail, and tells the requests what they are to be
told. -/
theorem runSteps_of_undisturbed (asked : ReqId → Asked) (doPipeline : Bool) (maxPipelineSize : Nat)
    {choices : List PipelineChoice}
    (hproper : StepsMeet (step asked) (Proper asked) (new E doPipeline maxPipelineSize) choices)
    (hundisturbed : StepsMeet (step asked) Undisturbed (new E doPipeline maxPipelineSize) choices) :
    ∃ s, runSteps (step asked) (new E doPipeline maxPipelineSize) choices = .ok s ∧
      (s.Finished → joinData s.told = s.served.flatMap callbacks) := by
  obtain ⟨s, hrun, hready, finished, rs, blocks, part, haccounts⟩ := runSteps_ok_of_stepsMeet
    (fun s => s.Ready ∧ ∃ finished rs blocks part, Accounts asked s finished rs blocks part)
    (fun s choice ⟨hready, finished, rs, blocks, part, haccounts⟩ ⟨hproper, hundisturbed⟩ => by
      obtain ⟨t, hstep, ht⟩ := hready.step haccounts hproper hundisturbed
      exact ⟨t, hstep, ht, haccounts.step hundisturbed.appendsReceived hstep⟩)
    ⟨ready_new doPipeline maxPipelineSize, [], [], [], [],
      accounts_new asked doPipeline maxPipelineSize⟩
    (hproper.and hundisturbed)
  refine ⟨s, hrun, joinData_told haccounts.demultiplexes fun r hr => ?_⟩
  obtain ⟨pos, hwell⟩ := hready.wellFormed r hr
  exact hwell.content

/-- Two runs in which the same responses answer the same requests, divided in any two ways, do not
fail and call back the same. -/
theorem sameCallbacks_of_undisturbed (asked : ReqId → Asked) (doPipeline : Bool)
    (maxPipelineSize : Nat) (choices choices' : List PipelineChoice)
    (hproper : StepsMeet (step asked) (Proper asked) (new E doPipeline maxPipelineSize) choices)
    (hproper' : StepsMeet (step asked) (Proper asked) (new E doPipeline maxPipelineSize) choices')
    (hundisturbed : StepsMeet (step asked) Undisturbed (new E doPipeline maxPipelineSize) choices)
    (hundisturbed' : StepsMeet (step asked) Undisturbed
      (new E doPipeline maxPipelineSize) choices') :
    ∃ s s', runSteps (step asked) (new E doPipeline maxPipelineSize) choices = .ok s ∧
      runSteps (step asked) (new E doPipeline maxPipelineSize) choices' = .ok s' ∧
      (s.Finished → s'.Finished → s.served = s'.served → joinData s.told = joinData s'.told) := by
  obtain ⟨s, hrun, htold⟩ :=
    runSteps_of_undisturbed asked doPipeline maxPipelineSize hproper hundisturbed
  obtain ⟨s', hrun', htold'⟩ :=
    runSteps_of_undisturbed asked doPipeline maxPipelineSize hproper' hundisturbed'
  refine ⟨s, s', hrun, hrun', fun hfinished hfinished' hserved => ?_⟩
  rw [htold hfinished, htold' hfinished', hserved]

/-! ## A resumed request -/

theorem httpResponse_eq_iff (r r' : HttpResponse) :
    r = r' ↔ r.status = r'.status ∧ r.lines = r'.lines ∧ r.content = r'.content := by
  rw [HttpResponse.mk.injEq]

/-- The rest of a file from position 5 on. -/
def restOfFile : HttpResponse where
  status := ascii "HTTP/1.1 206 Partial Content"
  lines := [ascii "Content-Length: 2", ascii "Content-Range: bytes 5-6/7"]
  content := ascii "ab"
  isLine := by decide +kernel
  headers := by
    constructor
    · decide +kernel
    · decide +kernel
    · decide +kernel

/-- The response to a resumed request is well-formed. -/
theorem wellFormed_restOfFile : restOfFile.WellFormed 5 where
  status := by
    refine .inr ⟨⟨ascii "HTTP/1.1", ascii " Partial Content", ?_, ?_, ?_⟩,
      ascii "Content-Range: bytes 5-6/7", ?_, ascii "Content-Range", 6, ?_, ?_⟩
    all_goals decide +kernel
  lines := by
    intro line hline
    rcases List.mem_pair.mp hline with rfl | rfl
    · exact ⟨ascii "Content-Length", ascii "2", by decide +kernel⟩
    · exact ⟨ascii "Content-Range", ascii "bytes 5-6/7", by decide +kernel⟩
  content := by decide +kernel

instance : DecidableEq HttpResponse := fun r r' =>
  decidable_of_iff (r.status = r'.status ∧ r.lines = r'.lines ∧ r.content = r'.content)
    (httpResponse_eq_iff r r').symm

/-- A `GET` of the rest of `/f`. -/
def askRest : ReqId → Asked := fun _ => { path := ascii "/f", headers := [], firstBytePos := 5 }

/-- Everything is received at once. -/
def inOnePiece : List PipelineChoice :=
  [.submit 0, .answer restOfFile, .readable, .recv [.bytes 1000], .go, .go, .go, .go, .go, .go, .go,
    .go, .recv [.wouldBlock []]]

/-- The header `Content-Range` and the body are cut in the middle, each by the end of an event. -/
def inPieces : List PipelineChoice :=
  [.submit 0, .answer restOfFile, .readable, .recv [.bytes 60], .go, .go, .go,
    .recv [.wouldBlock []], .readable, .recv [.bytes 20], .go, .go, .go, .recv [.wouldBlock []],
    .readable, .recv [.bytes 1000], .go, .go, .go, .go, .recv [.wouldBlock []]]

/-- An event ends behind the header `Content-Range`. -/
def cutBehindRange : List PipelineChoice :=
  [.submit 0, .answer restOfFile, .readable, .recv [.bytes 77], .go, .go, .go, .go,
    .recv [.wouldBlock []], .readable, .recv [.bytes 1000], .go]

/-- Choices in which this response is sent, and `recv` only blocks. -/
theorem stepsMeet_proper {E : Evbuffer} {s : Pipeline E} {choices : List PipelineChoice}
    (hanswer : ∀ r, .answer r ∈ choices → r = restOfFile)
    (hrecv : ∀ results, .recv results ∈ choices → .error ∉ results) :
    StepsMeet (step askRest) (Proper askRest) s choices := by
  apply stepsMeet_of_forall_mem
  intro s choice hmem
  cases choice with
  | answer r =>
    rw [hanswer r hmem]
    exact fun _ _ => wellFormed_restOfFile
  | recv results => exact hrecv results hmem
  | submit => trivial
  | writable => trivial
  | readable => trivial
  | go => trivial

/-- The surroundings of the run in one piece are proper. -/
theorem proper_inOnePiece {E : Evbuffer} (s : Pipeline E) :
    StepsMeet (step askRest) (Proper askRest) s inOnePiece := by
  apply stepsMeet_proper
  · intro r hr
    simpa [inOnePiece] using hr
  · intro results hresults
    simp only [inOnePiece, List.mem_cons, List.not_mem_nil, or_false, reduceCtorEq, false_or,
      PipelineChoice.recv.injEq] at hresults
    rcases hresults with rfl | rfl
    all_goals decide

/-- Put together, the callbacks are the same. -/
theorem sameCallbacks_of_undisturbed_inPieces : ∃ s s' : Pipeline Evbuffer.chunked,
    runSteps (step askRest) (new Evbuffer.chunked true 4) inOnePiece = .ok s ∧
      runSteps (step askRest) (new Evbuffer.chunked true 4) inPieces = .ok s' ∧
      s.told ≠ s'.told ∧ joinData s.told = joinData s'.told := by
  have hproper : StepsMeet (step askRest) (Proper askRest)
      (new Evbuffer.chunked true 4) inPieces := by
    apply stepsMeet_proper
    · intro r hr
      simpa [inPieces] using hr
    · intro results hresults
      simp only [inPieces, List.mem_cons, List.not_mem_nil, or_false, reduceCtorEq, false_or,
        PipelineChoice.recv.injEq] at hresults
      rcases hresults with rfl | rfl | rfl | rfl | rfl | rfl
      all_goals decide
  have hundisturbed : StepsMeet (step askRest) Undisturbed
      (new Evbuffer.chunked true 4) inOnePiece := by
    unfold inOnePiece
    decide +kernel
  have hundisturbed' : StepsMeet (step askRest) Undisturbed
      (new Evbuffer.chunked true 4) inPieces := by
    unfold inPieces
    decide +kernel
  obtain ⟨s, s', hrun, hrun', hsame⟩ :=
    sameCallbacks_of_undisturbed askRest true 4 inOnePiece inPieces
    (proper_inOnePiece _) hproper hundisturbed hundisturbed'
  have hends : (runSteps (step askRest) (new Evbuffer.chunked true 4) inOnePiece).map
      (fun s => (s.label, s.toRecv, s.written, s.responses, s.told.length)) =
      .ok (.idle, [], [0], [restOfFile], 3) := by
    unfold inOnePiece
    decide +kernel
  have hends' : (runSteps (step askRest) (new Evbuffer.chunked true 4) inPieces).map
      (fun s => (s.label, s.toRecv, s.written, s.responses, s.told.length)) =
      .ok (.idle, [], [0], [restOfFile], 4) := by
    unfold inPieces
    decide +kernel
  simp only [hrun, hrun', Except.map, Except.ok.injEq, Prod.mk.injEq] at hends hends'
  obtain ⟨hidle, htoRecv, hwritten, hresponses, hlength⟩ := hends
  obtain ⟨hidle', htoRecv', hwritten', hresponses', hlength'⟩ := hends'
  refine ⟨s, s', hrun, hrun', ?_, hsame ⟨hidle, htoRecv⟩ ⟨hidle', htoRecv'⟩ ?_⟩
  · intro htold
    rw [htold] at hlength
    omega
  · rw [served, served, hwritten, hresponses, hwritten', hresponses']

/-- The same response to the same request ends the program when an event ends behind its header
`Content-Range`. -/
theorem not_sameCallbacks_cutBehindRange :
    StepsMeet (step askRest) (Proper askRest) (new Evbuffer.chunked true 4) inOnePiece ∧
      StepsMeet (step askRest) (Proper askRest) (new Evbuffer.chunked true 4) cutBehindRange ∧
      (runSteps (step askRest) (new Evbuffer.chunked true 4) inOnePiece).map
        (fun s => (s.label, s.toRecv, s.responses)) = .ok (.idle, [], [restOfFile]) ∧
      runSteps (step askRest) (new Evbuffer.chunked true 4) cutBehindRange =
        .error .rangeMissing := by
  refine ⟨proper_inOnePiece _, ?_, ?_, ?_⟩
  · apply stepsMeet_proper
    · intro r hr
      simpa [cutBehindRange] using hr
    · intro results hresults
      simp only [cutBehindRange, List.mem_cons, List.not_mem_nil, or_false, reduceCtorEq, false_or,
        PipelineChoice.recv.injEq] at hresults
      rcases hresults with rfl | rfl | rfl
      all_goals decide
  · unfold inOnePiece
    decide +kernel
  · have hfault : (runSteps (step askRest) (new Evbuffer.chunked true 4) cutBehindRange).map
        (fun s => s.toRecv) = .error .rangeMissing := by
      unfold cutBehindRange
      decide +kernel
    cases hrun : runSteps (step askRest) (new Evbuffer.chunked true 4) cutBehindRange with
    | error fault => simpa [hrun, Except.map] using hfault
    | ok s => simp [hrun, Except.map] at hfault

end Pipeline

end ShadowExtras.Web
