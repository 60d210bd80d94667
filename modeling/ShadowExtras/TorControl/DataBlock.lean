import ShadowExtras.TorControl.Connection

/-!
# Data blocks on the control connection

A reply may carry data: `ddd+keyword=`, the data lines, a line holding a single `.`, and a final
line `ddd text`. `torControl_activate` enters data mode at the `+` and leaves it at a line that
`endsData` accepts. Lines are cut at CR LF before they are compared, so that none of them still ends
in CR LF, and of the four texts in `endsData` only `".\n"` and `"650 OK\n"` can occur; the lone `.`
is none of them and becomes data.

The file first reduces the activations of a connection to the lines they receive
(`runSteps_processLine_of_receive`), which makes the segmentation of the stream irrelevant, and then
follows the reply that a data block opens: from the lone `.` on it is `Lost`, since its data either
was cut short before that line or contains it.
-/

namespace ShadowExtras.TorControl

open Foundation

/-! ## Receiving in pieces -/

/-- One activation for `EPOLLIN`, on top of the replies handed over before. -/
def receiveStep (s : Received) (received : Bytes) : Except Fault Received :=
  match activateInput s.conn received with
  | .error fault => .error fault
  | .ok r => .ok { conn := r.conn, processed := s.processed ++ r.processed }

/-- The state of the line loop in a connection. -/
def Received.replies (s : Received) : Replies :=
  { reply := s.conn.reply, readingData := s.conn.readingData, processed := s.processed }

/-- The same state, with more replies handed over before. -/
def Replies.after (processed : List (List ReplyLine)) (r : Replies) : Replies :=
  { r with processed := processed ++ r.processed }

/-- The replies handed over before do not matter for a line. -/
theorem processLine_after (processed : List (List ReplyLine)) (r : Replies) (line : Bytes) :
    processLine (r.after processed) line = (processLine r line).map (Replies.after processed) := by
  obtain ⟨reply, readingData, before⟩ := r
  cases readingData with
  | false =>
    simp only [processLine, replyLine, Replies.after, Bool.false_eq_true, if_false]
    split_ifs <;> simp [Except.map, Replies.after]
  | true =>
    simp only [processLine, dataLine, Replies.after, if_true]
    cases reply.getLast? with
    | none => rfl
    | some last =>
      dsimp only
      split_ifs <;> simp [Except.map, Replies.after]

/-- What an activation does: it runs the line loop over the complete lines and keeps the rest. -/
theorem receiveStep_eq_ok {s t : Received} {received : Bytes}
    (hnul : ∀ b ∈ s.conn.buf ++ received, b ≠ 0) (h : receiveStep s received = .ok t) :
    runSteps processLine s.replies (splitLines (s.conn.buf ++ received)).1 = .ok t.replies ∧
      t.conn.buf = (splitLines (s.conn.buf ++ received)).2 := by
  simp only [receiveStep, activateInput, cString_eq_self hnul] at h
  by_cases hspace : bufSize ≤ s.conn.buf.length + received.length
  · simp [hspace] at h
  · rw [if_neg hspace] at h
    let start : Replies :=
      { reply := s.conn.reply, readingData := s.conn.readingData, processed := [] }
    have hstart : s.replies = start.after s.processed := by
      simp [start, Received.replies, Replies.after]
    rw [hstart, runSteps_map (processLine_after s.processed)]
    cases hloop : runSteps processLine start (splitLines (s.conn.buf ++ received)).1 with
    | error fault => simp [start, hloop] at h
    | ok r =>
      simp only [start, hloop, Except.ok.injEq] at h
      subst h
      exact ⟨rfl, rfl⟩

/-- However a stream without NUL is cut into activations, the line loop sees its lines. -/
theorem runSteps_processLine_of_receive {s t : Received} {chunks : List Bytes}
    (hbuf : IsLine s.conn.buf) (hnul : ∀ b ∈ s.conn.buf ++ chunks.flatten, b ≠ 0)
    (hrun : runSteps receiveStep s chunks = .ok t) :
    runSteps processLine s.replies (splitLines (s.conn.buf ++ chunks.flatten)).1 =
        .ok t.replies ∧
      t.conn.buf = (splitLines (s.conn.buf ++ chunks.flatten)).2 := by
  induction chunks generalizing s with
  | nil =>
    obtain rfl : s = t := by simpa using hrun
    simp [splitLines_of_isLine hbuf]
  | cons chunk chunks ih =>
    obtain ⟨s₁, hstep, hrest⟩ := runSteps_cons_eq_ok.mp hrun
    rw [List.flatten_cons, ← List.append_assoc] at hnul ⊢
    have hnul₁ : ∀ b ∈ s.conn.buf ++ chunk, b ≠ 0 := fun b hb =>
      hnul b (List.mem_append_left _ hb)
    obtain ⟨hlines, hrestBuf⟩ := receiveStep_eq_ok hnul₁ hstep
    have hnul₂ : ∀ b ∈ s₁.conn.buf ++ chunks.flatten, b ≠ 0 := by
      intro b hb
      rcases List.mem_append.mp hb with hb | hb
      · rw [hrestBuf] at hb
        exact hnul₁ b (mem_of_mem_splitLines hb)
      · exact hnul b (List.mem_append_right _ hb)
    obtain ⟨hlines₂, hbuf₂⟩ := ih (hrestBuf ▸ isLine_splitLines _) hnul₂ hrest
    rw [splitLines_append, ← hrestBuf]
    exact ⟨runSteps_append.mpr ⟨s₁.replies, hlines, hlines₂⟩, hbuf₂⟩

/-! ## What a line does -/

/-- Outside a data block a line is appended to the reply, which then may go on with data or be
complete. Inside one it is appended to the data of the last reply line, unless it ends the data. -/
theorem processLine_cases {r r' : Replies} {line : Bytes} (h : processLine r line = .ok r') :
    (r.readingData = false ∧ ∃ new : ReplyLine, new.data = [] ∧
      (r' = { r with reply := r.reply ++ [new] } ∨
        r' = { r with reply := r.reply ++ [new], readingData := true } ∨
        r' = { r with reply := [], processed := r.processed ++ [r.reply ++ [new]] })) ∨
    (r.readingData = true ∧ ∃ init last, r.reply = init ++ [last] ∧
      ((endsData line = false ∧
          r' = { r with reply := init ++ [{ last with data := last.data ++ [line] }] }) ∨
        (endsData line = true ∧
          (r' = { r with readingData := false } ∨
            r' = { reply := [], readingData := false, processed := r.processed ++ [r.reply]
              })))) := by
  obtain ⟨reply, readingData, processed⟩ := r
  cases readingData with
  | true =>
    refine .inr ⟨rfl, ?_⟩
    simp only [processLine, if_true, dataLine] at h
    cases hlast : reply.getLast? with
    | none => simp [hlast] at h
    | some last =>
      obtain ⟨init, rfl⟩ := List.getLast?_eq_some_iff.mp hlast
      refine ⟨init, last, rfl, ?_⟩
      simp only [hlast] at h
      by_cases hend : endsData line = true
      · rw [if_pos hend] at h
        refine .inr ⟨hend, ?_⟩
        split at h
        · exact .inr (Except.ok.inj h).symm
        · exact .inl (Except.ok.inj h).symm
      · rw [if_neg hend, List.dropLast_concat] at h
        exact .inl ⟨by simpa using hend, (Except.ok.inj h).symm⟩
  | false =>
    refine .inl ⟨rfl, ?_⟩
    simp only [processLine, replyLine, Bool.false_eq_true, if_false] at h
    split at h
    · simp at h
    · refine ⟨{ code := toInt32 (strtol line), body := line.drop 4, data := [] }, rfl, ?_⟩
      split at h
      · exact .inr (.inl (Except.ok.inj h).symm)
      · split at h
        · exact .inr (.inr (Except.ok.inj h).symm)
        · exact .inl (Except.ok.inj h).symm

/-! ## The reply of a data block -/

/-- A reply with data: `ddd+keyword=`, the data lines, `.` and `ddd text`. -/
structure DataBlock where
  code : Bytes
  keyword : Bytes
  data : List Bytes
  finalCode : Bytes
  text : Bytes
  code_digits : code.length = 3 ∧ ∀ b ∈ code, isDigit b = true
  finalCode_digits : finalCode.length = 3 ∧ ∀ b ∈ finalCode, isDigit b = true
  /-- The texts are lines without NUL. -/
  isLine : ∀ l ∈ keyword :: text :: data, IsLine l ∧ ∀ b ∈ l, b ≠ 0
  /-- No data line looks like the end of the data. -/
  data_ne_dot : ∀ l ∈ data, l ≠ ascii "."

namespace DataBlock

variable (b : DataBlock)

/-- The line that opens the data. -/
def firstLine : Bytes := b.code ++ ascii "+" ++ (b.keyword ++ ascii "=")

/-- The line that completes the reply. -/
def finalLine : Bytes := b.finalCode ++ ascii " " ++ b.text

/-- All lines of the reply. -/
def lines : List Bytes := b.firstLine :: (b.data ++ [ascii ".", b.finalLine])

/-- The reply line that opens the data, with the data. -/
def dataReply : ReplyLine :=
  { code := leadingNat 0 b.code, body := b.keyword ++ ascii "=", data := b.data }

/-- The last reply line. -/
def finalReply : ReplyLine :=
  { code := leadingNat 0 b.finalCode, body := b.text, data := [] }

/-- What is to be handed to `torControl_processReply`: an event is complete with its data, another
reply with its final line. -/
def replies : List (List ReplyLine) :=
  if b.dataReply.code / 600 ≠ 0 then [[b.dataReply], [b.finalReply]]
  else [[b.dataReply, b.finalReply]]

/-- A code of three digits and the separator hold no CR and no NUL. -/
theorem ne_cr_and_ne_zero_of_mem {code : Bytes} (hcode : ∀ c ∈ code, isDigit c = true)
    {sep c : Byte} (hsep : sep ≠ cr ∧ sep ≠ 0) (hc : c ∈ code ++ [sep]) : c ≠ cr ∧ c ≠ 0 := by
  rcases List.mem_append.mp hc with hc | hc
  · have hdigit := hcode c hc
    constructor
    · rintro rfl
      exact absurd hdigit (by decide)
    · rintro rfl
      exact absurd hdigit (by decide)
  · obtain rfl : c = sep := by simpa using hc
    exact hsep

/-- Every line of the reply is a line without NUL. -/
theorem isLine_of_mem_lines {l : Bytes} (hl : l ∈ b.lines) : IsLine l ∧ ∀ c ∈ l, c ≠ 0 := by
  have hkeyword := b.isLine b.keyword (by simp)
  have htext := b.isLine b.text (by simp)
  have hplus : ∀ c ∈ b.code ++ ascii "+", c ≠ cr ∧ c ≠ 0 := fun c hc =>
    ne_cr_and_ne_zero_of_mem b.code_digits.2 (by decide) hc
  have hblank : ∀ c ∈ b.finalCode ++ ascii " ", c ≠ cr ∧ c ≠ 0 := fun c hc =>
    ne_cr_and_ne_zero_of_mem b.finalCode_digits.2 (by decide) hc
  have hassign : IsLine (b.keyword ++ ascii "=") ∧ ∀ c ∈ b.keyword ++ ascii "=", c ≠ 0 := by
    refine ⟨isLine_append_singleton.mpr ⟨hkeyword.1, fun h => absurd h.1 (by decide)⟩, ?_⟩
    intro c hc
    rcases List.mem_append.mp hc with hc | hc
    · exact hkeyword.2 c hc
    · rintro rfl
      exact absurd hc (by decide)
  have happend : ∀ {a m : Bytes}, (∀ c ∈ a, c ≠ cr ∧ c ≠ 0) → (IsLine m ∧ ∀ c ∈ m, c ≠ 0) →
      IsLine (a ++ m) ∧ ∀ c ∈ a ++ m, c ≠ 0 := fun ha hm =>
    ⟨IsLine.append_of_forall_ne (fun c hc => (ha c hc).1) hm.1,
      fun c hc => (List.mem_append.mp hc).elim (fun h => (ha c h).2) (hm.2 c)⟩
  simp only [lines, List.mem_cons, List.mem_append, List.not_mem_nil, or_false] at hl
  rcases hl with rfl | hl | rfl | rfl
  · exact happend hplus hassign
  · exact b.isLine l (by simp [hl])
  · exact ⟨by simp [IsLine, crlf, ascii, List.infix_cons_iff], forall_mem_of_all (by decide)⟩
  · exact happend hblank htext

/-- The first line opens a reply and its data. -/
theorem processLine_firstLine :
    ∃ l, processLine { reply := [], readingData := false, processed := [] } b.firstLine =
      .ok { reply := [l], readingData := true, processed := [] } ∧ l.data = [] := by
  have hdrop : b.firstLine.drop 3 = ascii "+" ++ (b.keyword ++ ascii "=") := by
    rw [firstLine, List.append_assoc, ← b.code_digits.1, List.drop_left]
  have hlen : ¬b.firstLine.length < 4 := by
    have : (b.firstLine.drop 3).length = b.firstLine.length - 3 := List.length_drop
    rw [hdrop] at this
    simp only [ascii, List.length_append, List.length_map] at this
    have hplus : "+".toList.length = 1 := rfl
    have hequals : "=".toList.length = 1 := rfl
    omega
  have hplus : (b.firstLine.drop 3).head? = some 43 := by
    rw [hdrop]
    rfl
  refine ⟨{ code := toInt32 (strtol b.firstLine), body := b.firstLine.drop 4, data := [] }, ?_, rfl⟩
  simp only [processLine, Bool.false_eq_true, if_false, replyLine, if_neg hlen, hplus, if_true,
    List.nil_append]

end DataBlock

/-- Data mode ends at the lone `.` of the block. -/
def LeavesDataMode (b : DataBlock) : Prop :=
  ∃ r r', runSteps processLine { reply := [], readingData := false, processed := [] }
      (b.firstLine :: b.data) = .ok r ∧ r.readingData = true ∧
    processLine r (ascii ".") = .ok r' ∧ r'.readingData = false

/-- However the block and a later stream are cut into activations, the block's replies and then
those of the later stream are handed to `torControl_processReply`. -/
def HandsOver (c : Connection) (b : DataBlock) (later : Bytes) (chunks : List Bytes) : Prop :=
  ∃ t u, runSteps receiveStep { conn := c, processed := [] } chunks = .ok t ∧
    runSteps processLine { reply := [], readingData := false, processed := [] }
      (splitLines later).1 = .ok u ∧
    t.processed = b.replies ++ u.processed

/-- The first reply can no longer carry exactly these data: it was handed over with other data, or
it is under construction and its first line either has other data that no longer grow or has more
of them. -/
def Lost (data : List Bytes) (r : Replies) : Prop :=
  (∃ first tl rest, r.processed = (first :: tl) :: rest ∧ first.data ≠ data) ∨
    (r.processed = [] ∧ ∃ first tl, r.reply = first :: tl ∧ first.data ≠ data ∧
      (r.readingData = true → tl = [] → data.length < first.data.length))

/-- No later line recovers a lost reply. -/
theorem Lost.processLine {data : List Bytes} {r r' : Replies} {line : Bytes} (hr : Lost data r)
    (h : processLine r line = .ok r') : Lost data r' := by
  rcases hr with ⟨first, tl, rest, hproc, hne⟩ | ⟨hproc, first, tl, hreply, hne, hlong⟩
  · refine .inl ⟨first, tl, ?_⟩
    rcases processLine_cases h with ⟨-, new, -, rfl | rfl | rfl⟩ |
      ⟨-, init, last, -, ⟨-, rfl⟩ | ⟨-, rfl | rfl⟩⟩
    all_goals simp [hproc, hne]
  · rcases processLine_cases h with ⟨hmode, new, -, rfl | rfl | rfl⟩ |
      ⟨hmode, init, last, hinit, ⟨-, rfl⟩ | ⟨-, rfl | rfl⟩⟩
    · exact .inr ⟨hproc, first, tl ++ [new], by simp [hreply], hne, by simp⟩
    · exact .inr ⟨hproc, first, tl ++ [new], by simp [hreply], hne, by simp⟩
    · exact .inl ⟨first, tl ++ [new], [], by simp [hproc, hreply], hne⟩
    · rw [hreply] at hinit
      cases init with
      | nil =>
        -- the first line is the one that takes the data
        obtain ⟨rfl, rfl⟩ : first = last ∧ tl = [] := by simpa using hinit
        have hlen : data.length < first.data.length := hlong hmode rfl
        have hlen' : data.length < (first.data ++ [line]).length := by
          rw [List.length_append]
          omega
        refine .inr ⟨hproc, _, [], rfl, ?_, fun _ _ => hlen'⟩
        intro heq
        exact absurd hlen' (by simp only at heq; rw [heq]; exact lt_irrefl _)
      | cons x init =>
        obtain ⟨rfl, rfl⟩ : first = x ∧ tl = init ++ [last] := by simpa using hinit
        exact .inr ⟨hproc, first, _, rfl, hne, by simp⟩
    · exact .inr ⟨hproc, first, tl, hreply, hne, by simp⟩
    · exact .inl ⟨first, tl, [], by simp [hproc, hreply], hne⟩

/-- The lone `.` does not end the data. -/
theorem endsData_dot : endsData (ascii ".") = false := by decide

/-- While the data lines and the lone `.` are read, the reply is lost. -/
theorem lost_of_data {data done todo : List Bytes} {first : ReplyLine} {t : Replies}
    (hdata : data = done ++ todo) (hfirst : first.data = done)
    (hrun : runSteps processLine { reply := [first], readingData := true, processed := [] }
      (todo ++ [ascii "."]) = .ok t) : Lost data t := by
  induction todo generalizing done first with
  | nil =>
    obtain ⟨r', hstep, hrest⟩ := runSteps_cons_eq_ok.mp hrun
    obtain rfl : r' = t := by simpa using hrest
    rcases processLine_cases hstep with ⟨hmode, -⟩ | ⟨-, init, last, hinit, ⟨-, rfl⟩ | ⟨hend, -⟩⟩
    · simp at hmode
    · obtain ⟨rfl, rfl⟩ : init = [] ∧ first = last := by
        cases init with
        | nil => exact ⟨rfl, by simpa using hinit⟩
        | cons x init => simp at hinit
      refine .inr ⟨rfl, _, [], rfl, ?_, fun _ _ => ?_⟩
      · simp [hdata, hfirst]
      · simp [hdata, hfirst]
    · rw [endsData_dot] at hend
      exact absurd hend (by decide)
  | cons line todo ih =>
    obtain ⟨r', hstep, hrest⟩ := runSteps_cons_eq_ok.mp hrun
    have hshort : first.data ≠ data := by
      rw [hfirst, hdata]
      simp
    have hlost : ∀ {r}, Lost data r → runSteps processLine r (todo ++ [ascii "."]) = .ok t →
        Lost data t := fun hr h =>
      invariant_of_steps (Lost data) (fun _ _ _ hs hstep => hs.processLine hstep) hr h
    rcases processLine_cases hstep with ⟨hmode, -⟩ |
      ⟨-, init, last, hinit, ⟨-, rfl⟩ | ⟨-, rfl | rfl⟩⟩
    · simp at hmode
    · obtain ⟨rfl, rfl⟩ : init = [] ∧ first = last := by
        cases init with
        | nil => exact ⟨rfl, by simpa using hinit⟩
        | cons x init => simp at hinit
      have hdata' : data = (done ++ [line]) ++ todo := by simp [hdata]
      exact ih hdata' (by simp [hfirst]) hrest
    · exact hlost (.inr ⟨rfl, first, [], rfl, hshort, by simp⟩) hrest
    · exact hlost (.inl ⟨first, [], [], rfl, hshort⟩) hrest

/-- A lost reply is not handed over. -/
theorem Lost.processed_ne {b : DataBlock} {r : Replies} (hr : Lost b.data r)
    (rest : List (List ReplyLine)) : r.processed ≠ b.replies ++ rest := by
  intro h
  have hhead : ∃ tl rest', b.replies ++ rest = (b.dataReply :: tl) :: rest' := by
    unfold DataBlock.replies
    split
    · exact ⟨_, _, rfl⟩
    · exact ⟨_, _, rfl⟩
  obtain ⟨tl, rest', hhead⟩ := hhead
  rw [hhead] at h
  rcases hr with ⟨first, tl', rest'', hproc, hne⟩ | ⟨hproc, -⟩
  · rw [hproc] at h
    obtain rfl : first = b.dataReply := by simp_all
    exact hne rfl
  · rw [hproc] at h
    simp at h

/-- No data block is delimited correctly: whatever its code, keyword, data and final line, whatever
follows on the stream and however the stream is cut into activations of an idle connection, data
mode does not end at the lone `.`, and the block's replies are not handed over. -/
theorem not_leavesDataMode_and_not_handsOver (c : Connection) (b : DataBlock) (later : Bytes)
    (chunks : List Bytes) (hidle : c.buf = [] ∧ c.reply = [] ∧ c.readingData = false)
    (hlater : ∀ x ∈ later, x ≠ 0) (hchunks : chunks.flatten = joinLines b.lines ++ later) :
    ¬LeavesDataMode b ∧ ¬HandsOver c b later chunks := by
  constructor
  · rintro ⟨r, r', -, hmode, hstep, hleft⟩
    rcases processLine_cases hstep with ⟨hmode', -⟩ | ⟨-, init, last, -, ⟨-, rfl⟩ | ⟨hend, -⟩⟩
    · simp [hmode] at hmode'
    · simp [hmode] at hleft
    · rw [endsData_dot] at hend
      exact absurd hend (by decide)
  · rintro ⟨t, u, hrun, -, hproc⟩
    have hnul : ∀ x ∈ c.buf ++ chunks.flatten, x ≠ 0 := by
      rw [hidle.1, List.nil_append, hchunks]
      intro x hx
      rcases List.mem_append.mp hx with hx | hx
      · simp only [joinLines, List.mem_flatten, List.mem_map] at hx
        obtain ⟨_, ⟨l, hl, rfl⟩, hx⟩ := hx
        rcases List.mem_append.mp hx with hx | hx
        · exact (b.isLine_of_mem_lines hl).2 x hx
        · rintro rfl
          exact absurd hx (by decide)
      · exact hlater x hx
    have hlines := (runSteps_processLine_of_receive (hidle.1 ▸ by simp [IsLine, crlf]) hnul hrun).1
    rw [hidle.1, List.nil_append, hchunks,
      splitLines_joinLines_append fun l hl => (b.isLine_of_mem_lines hl).1] at hlines
    simp only [Received.replies, hidle.2.1, hidle.2.2] at hlines
    -- the first line, the data and the lone `.`, and everything behind it
    have hcut : b.lines ++ (splitLines later).1 =
        b.firstLine :: ((b.data ++ [ascii "."]) ++ (b.finalLine :: (splitLines later).1)) := by
      simp [DataBlock.lines]
    rw [hcut] at hlines
    obtain ⟨r₁, hfirst, hlines⟩ := runSteps_cons_eq_ok.mp hlines
    obtain ⟨l, hopen, hl⟩ := b.processLine_firstLine
    obtain rfl := Except.ok.inj (hopen.symm.trans hfirst)
    obtain ⟨r₂, hdata, hlines⟩ := runSteps_append.mp hlines
    have hlost : Lost b.data r₂ := lost_of_data rfl hl hdata
    have hend : Lost b.data t.replies :=
      invariant_of_steps (Lost b.data) (fun _ _ _ hs hstep => hs.processLine hstep) hlost hlines
    exact hend.processed_ne u.processed hproc

/-- A short block. -/
def infoBlock : DataBlock where
  code := ascii "250"
  keyword := ascii "info"
  data := [ascii "x"]
  finalCode := ascii "250"
  text := ascii "OK"
  code_digits := ⟨rfl, forall_mem_of_all (by decide)⟩
  finalCode_digits := ⟨rfl, forall_mem_of_all (by decide)⟩
  isLine := by simp [IsLine, crlf, cr, lf, ascii, List.infix_cons_iff]
  data_ne_dot := by decide

/-- The short block on its own, in one activation. -/
theorem not_leavesDataMode_and_not_handsOver_infoBlock :
    ¬LeavesDataMode infoBlock ∧
      ¬HandsOver Connection.new infoBlock [] [joinLines infoBlock.lines] :=
  not_leavesDataMode_and_not_handsOver Connection.new infoBlock [] [joinLines infoBlock.lines]
    ⟨rfl, rfl, rfl⟩ (by simp) (by simp)

/-- After the short block and one event the connection is still in data mode: the lone `.`, the
final line and the event became data, and nothing was handed to `torControl_processReply`. -/
theorem infoBlock_swallows_event :
    receiveStep { conn := Connection.new, processed := [] }
        (joinLines infoBlock.lines ++ ascii "650 BW 1 2\r\n") =
      .ok { conn := { Connection.new with
              readingData := true
              reply := [{ code := 250, body := ascii "info=",
                          data := [ascii "x", ascii ".", ascii "250 OK", ascii "650 BW 1 2"] }] }
            processed := [] } ∧
      ¬HandsOver Connection.new infoBlock (ascii "650 BW 1 2\r\n")
        [joinLines infoBlock.lines ++ ascii "650 BW 1 2\r\n"] := by
  have hstep : receiveStep { conn := Connection.new, processed := [] }
      (joinLines infoBlock.lines ++ ascii "650 BW 1 2\r\n") =
      .ok { conn := { Connection.new with
              readingData := true
              reply := [{ code := 250, body := ascii "info=",
                          data := [ascii "x", ascii ".", ascii "250 OK", ascii "650 BW 1 2"] }] }
            processed := [] } := by decide
  refine ⟨hstep, ?_⟩
  rintro ⟨t, u, hrun, -, hproc⟩
  rw [runSteps_cons_of_ok hstep, runSteps_nil] at hrun
  obtain rfl := Except.ok.inj hrun
  have hne : infoBlock.replies ≠ [] := by decide
  exact hne (List.append_eq_nil_iff.mp hproc.symm).1

end ShadowExtras.TorControl
