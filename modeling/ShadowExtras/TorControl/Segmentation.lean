import ShadowExtras.TorControl.DataBlock

/-!
# However the replies are cut

The control port sends a stream of lines, and `recv` cuts it anywhere, also inside a line or between
the CR and the LF of its end. As long as the rest of a line and the bytes that are received fit into
the buffer, and no line outside a data block is too short for a code, no activation fails; then the
line loop has seen the lines of the whole stream, and everything it leaves behind is determined by
them.
-/

namespace ShadowExtras.TorControl

open Foundation

/-- The reply under construction is not empty while its data are read. -/
def Replies.Sane (r : Replies) : Prop := r.readingData = true → r.reply ≠ []

/-- A line outside a data block has a code and a separator. -/
def LongEnough (r : Replies) (line : Bytes) : Prop := r.readingData = false → 4 ≤ line.length

instance (r : Replies) (line : Bytes) : Decidable (LongEnough r line) :=
  inferInstanceAs (Decidable (_ → _))

/-- The rest of a line and the bytes received next are shorter than the buffer. -/
def Fits (s : Received) (received : Bytes) : Prop :=
  s.conn.buf.length + received.length < bufSize

instance (s : Received) (received : Bytes) : Decidable (Fits s received) :=
  inferInstanceAs (Decidable (_ < _))

/-- The lines of a stream that arrives at an idle connection and lie outside of data blocks have at
least four characters. -/
def LongLines (stream : Bytes) : Prop :=
  StepsMeet processLine LongEnough { reply := [], readingData := false, processed := [] }
    (splitLines stream).1

instance (stream : Bytes) : Decidable (LongLines stream) := by
  unfold LongLines
  infer_instance

/-- A line that is long enough is no fault. -/
theorem Replies.Sane.processLine {r : Replies} {line : Bytes} (hr : r.Sane)
    (hlong : LongEnough r line) : ∃ r', TorControl.processLine r line = .ok r' ∧ r'.Sane := by
  have hok : ∃ r', TorControl.processLine r line = .ok r' := by
    unfold TorControl.processLine
    cases hmode : r.readingData with
    | false =>
      have hlen : ¬line.length < 4 := Nat.not_lt.mpr (hlong hmode)
      simp only [Bool.false_eq_true, if_false, replyLine, if_neg hlen]
      split
      · exact ⟨_, rfl⟩
      · split <;> exact ⟨_, rfl⟩
    | true =>
      obtain ⟨last, hlast⟩ := List.getLast?_isSome.mpr (hr hmode) |> Option.isSome_iff_exists.mp
      simp only [if_true, dataLine, hlast]
      split
      · split <;> exact ⟨_, rfl⟩
      · exact ⟨_, rfl⟩
  obtain ⟨r', hstep⟩ := hok
  refine ⟨r', hstep, fun hmode => ?_⟩
  rcases processLine_cases hstep with ⟨hbefore, new, -, rfl | rfl | rfl⟩ |
    ⟨-, init, last, -, ⟨-, rfl⟩ | ⟨-, rfl | rfl⟩⟩
  · rw [hbefore] at hmode
    simp at hmode
  · simp
  · rw [hbefore] at hmode
    simp at hmode
  · simp
  · simp at hmode
  · simp at hmode

/-- The line loop runs through lines that are long enough. -/
theorem Replies.Sane.runSteps {r : Replies} {lines : List Bytes} (hr : r.Sane)
    (hlong : StepsMeet TorControl.processLine LongEnough r lines) :
    ∃ r', Foundation.runSteps TorControl.processLine r lines = .ok r' ∧ r'.Sane :=
  runSteps_ok_of_stepsMeet Replies.Sane (fun _ _ hr hlong => hr.processLine hlong) hr hlong

/-- An activation that finds room and lines that are long enough. -/
theorem receiveStep_of_fits {s : Received} {received : Bytes} {r : Replies}
    (hnul : ∀ b ∈ s.conn.buf ++ received, b ≠ 0) (hfits : Fits s received)
    (hloop : runSteps processLine s.replies (splitLines (s.conn.buf ++ received)).1 = .ok r) :
    receiveStep s received = .ok
      { conn := { s.conn with
          buf := (splitLines (s.conn.buf ++ received)).2
          reply := r.reply
          readingData := r.readingData }
        processed := r.processed } := by
  let start : Replies :=
    { reply := s.conn.reply, readingData := s.conn.readingData, processed := [] }
  have hstart : s.replies = start.after s.processed := by
    simp [start, Received.replies, Replies.after]
  rw [hstart, runSteps_map (processLine_after s.processed)] at hloop
  cases hrun : runSteps processLine start (splitLines (s.conn.buf ++ received)).1 with
  | error fault => simp [hrun, Except.map] at hloop
  | ok u =>
    rw [hrun] at hloop
    obtain rfl := Except.ok.inj hloop
    have hspace : ¬bufSize ≤ s.conn.buf.length + received.length := Nat.not_le.mpr hfits
    simp only [receiveStep, activateInput, cString_eq_self hnul, if_neg hspace]
    rw [show runSteps processLine
      { reply := s.conn.reply, readingData := s.conn.readingData, processed := [] } _ = _ from hrun]
    simp [Replies.after]

/-- What is left when a stream was received in pieces that fit: the lines of the stream determine
it. -/
theorem runSteps_receiveStep {s : Received} {chunks : List Bytes} {r : Replies}
    (hbuf : IsLine s.conn.buf) (hnul : ∀ b ∈ s.conn.buf ++ chunks.flatten, b ≠ 0)
    (hfits : StepsMeet receiveStep Fits s chunks)
    (hloop : runSteps processLine s.replies (splitLines (s.conn.buf ++ chunks.flatten)).1 = .ok r) :
    runSteps receiveStep s chunks = .ok
      { conn := { s.conn with
          buf := (splitLines (s.conn.buf ++ chunks.flatten)).2
          reply := r.reply
          readingData := r.readingData }
        processed := r.processed } := by
  induction chunks generalizing s with
  | nil =>
    rw [List.flatten_nil, List.append_nil, splitLines_of_isLine hbuf] at hloop ⊢
    obtain rfl := Except.ok.inj hloop
    rfl
  | cons chunk chunks ih =>
    rw [List.flatten_cons, ← List.append_assoc] at hnul hloop ⊢
    rw [splitLines_append] at hloop ⊢
    obtain ⟨u, hfirst, hrest⟩ := runSteps_append.mp hloop
    have hnul₁ : ∀ b ∈ s.conn.buf ++ chunk, b ≠ 0 := fun b hb =>
      hnul b (List.mem_append_left _ hb)
    have hstep := receiveStep_of_fits hnul₁ hfits.1 hfirst
    rw [runSteps_cons_of_ok hstep]
    refine ih (isLine_splitLines _) ?_ (hfits.2 _ hstep) hrest
    intro b hb
    rcases List.mem_append.mp hb with hb | hb
    · exact hnul₁ b (mem_of_mem_splitLines hb)
    · exact hnul b (List.mem_append_right _ hb)

/-- Two ways of cutting one stream lead to the same replies and to the same connection. -/
theorem received_eq_of_flatten_eq (c : Connection) (chunks chunks' : List Bytes)
    (hidle : c.buf = [] ∧ c.reply = [] ∧ c.readingData = false)
    (hsame : chunks.flatten = chunks'.flatten) (hnul : ∀ b ∈ chunks.flatten, b ≠ 0)
    (hlong : LongLines chunks.flatten)
    (hfits : StepsMeet receiveStep Fits { conn := c, processed := [] } chunks)
    (hfits' : StepsMeet receiveStep Fits { conn := c, processed := [] } chunks') :
    ∃ t, runSteps receiveStep { conn := c, processed := [] } chunks = .ok t ∧
      runSteps receiveStep { conn := c, processed := [] } chunks' = .ok t := by
  obtain ⟨hbuf, hreply, hmode⟩ := hidle
  have hsane : Replies.Sane { reply := [], readingData := false, processed := [] } := by
    simp [Replies.Sane]
  obtain ⟨r, hloop, -⟩ := hsane.runSteps hlong
  have hstart : Received.replies { conn := c, processed := [] } =
      { reply := [], readingData := false, processed := [] } := by
    rw [Received.replies, hreply, hmode]
  have hline : IsLine c.buf := by simp [hbuf, IsLine, crlf]
  refine ⟨_, runSteps_receiveStep (r := r) hline ?_ hfits ?_, ?_⟩
  · rwa [hbuf]
  · rwa [hstart, hbuf, List.nil_append]
  · rw [hsame] at hnul hloop ⊢
    refine runSteps_receiveStep hline ?_ hfits' ?_
    · rwa [hbuf]
    · rwa [hstart, hbuf, List.nil_append]

/-- A reply of two lines, cut inside a line and inside the end of a line. -/
theorem received_eq_of_flatten_eq_ok :
    ∃ t, runSteps receiveStep { conn := Connection.new, processed := [] }
        [ascii "250-a\r\n250 OK\r\n65"] = .ok t ∧
      runSteps receiveStep { conn := Connection.new, processed := [] }
        [ascii "25", ascii "0-a\r", ascii "\n250 OK\r\n65"] = .ok t :=
  received_eq_of_flatten_eq Connection.new [ascii "250-a\r\n250 OK\r\n65"]
    [ascii "25", ascii "0-a\r", ascii "\n250 OK\r\n65"] ⟨rfl, rfl, rfl⟩ (by decide)
    (by decide +kernel)
    (by decide +kernel) (by decide +kernel) (by decide +kernel)

end ShadowExtras.TorControl
