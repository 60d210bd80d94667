import ShadowExtras.Foundation.Run
import ShadowExtras.FileTransfer.FileServer

/-!
# What the file server sends

A reply for a file is an output stream: `accepted` was delivered, and the unsent part of the reply
buffer followed by the unread part of the file is pending. Reading more of the file into the buffer
does not change the stream, and `send` delivers a front part of it; so at all times the accepted
bytes are an initial segment of the header followed by the file (`Serving`).

Two things go wrong around this. `reply.done` is set when a reply is complete and never cleared, so
that it is set while a later reply of the same connection is still being sent
(`servesThroughout_iff_startsClear` has the condition that excludes it). And the file counts as read
completely only when `feof` says so, that is when `fread` was asked for more than was left: when
header and file together fill the buffer a whole number of times, the last `fread` takes exactly
what is left, the file stays open, and once everything was sent a `send` of no bytes returns zero,
which is taken for a closed peer (`replyCompletes_iff`).
-/

namespace ShadowExtras.FileTransfer

open Foundation

/-! ## A reply in progress -/

/-- The reply of a connection as an output stream. -/
def ServerConnection.pipe (c : ServerConnection) : Pipe Byte where
  delivered := c.accepted
  pending := c.reply.unsent ++ c.reply.f.elim [] OpenFile.rest

/-- The last piece of the file was read into the buffer. -/
structure FileRead (c : ServerConnection) (content : Bytes) : Prop where
  closed : c.reply.f = none
  state : c.state = .replySend
  buf_ne_nil : c.reply.buf ≠ []
  /-- The last piece did not fill the buffer. -/
  not_dvd : ¬bufSize ∣ (http200Reply content).length

/-- The file is open. -/
structure FileOpen (c : ServerConnection) (content : Bytes) (f : OpenFile) : Prop where
  opened : c.reply.f = some f
  state : c.state = .replyFileContinue
  content_eq : f.content = content
  fLength : c.reply.fLength = content.length
  fReadOffset : c.reply.fReadOffset = f.pos
  pos_le : f.pos ≤ content.length
  eof : f.eof = false

/-- Nothing of the file was read yet; the buffer holds the header. -/
structure Fresh (c : ServerConnection) (content : Bytes) (f : OpenFile) : Prop where
  pos : f.pos = 0
  length_pos : 0 < content.length
  header_lt : (http200Header content.length).length < bufSize
  buf : c.reply.buf = http200Header content.length

/-- The buffer was filled a whole number of times. -/
structure Filled (c : ServerConnection) (content : Bytes) (f : OpenFile) : Prop where
  dvd : bufSize ∣ (http200Header content.length).length + f.pos
  buf : c.reply.buf = [] ∨ c.reply.buf.length = bufSize

/-- A connection that is sending the reply for a file. -/
structure Serving (c : ServerConnection) (content : Bytes) : Prop where
  serving : c.serving = some content
  /-- What was accepted and what is still to be sent are together the reply. -/
  issued : c.pipe.issued = http200Reply content
  /-- The buffer is not drained, or it was reset. -/
  offsets : c.reply.bufReadOffset < c.reply.buf.length ∨
    (c.reply.buf = [] ∧ c.reply.bufReadOffset = 0)
  file : FileRead c content ∨
    ∃ f, FileOpen c content f ∧ (Fresh c content f ∨ Filled c content f)

/-- The header is not empty. -/
theorem length_http200Header_pos (length : Nat) : 0 < (http200Header length).length := by
  simp [http200Header, http200, ascii]

section Serving

variable {c : ServerConnection} {content : Bytes} {f : OpenFile} {a : Activation}

/-- The accepted bytes are an initial segment of the reply. -/
theorem Serving.accepted_prefix (h : Serving c content) : c.accepted <+: http200Reply content := by
  have := c.pipe.delivered_prefix_issued
  rwa [h.issued] at this

/-- The read offset is inside the buffer. -/
theorem Serving.readOffset_le (h : Serving c content) :
    c.reply.bufReadOffset ≤ c.reply.buf.length := by
  rcases h.offsets with hlt | ⟨hnil, hzero⟩
  · exact hlt.le
  · simp [hzero]

/-- A connection whose reply is accepted as a whole and which is still sending it has filled its
buffer a whole number of times. -/
theorem Serving.dvd_of_accepted (h : Serving c content) (hall : c.accepted = http200Reply content) :
    bufSize ∣ (http200Reply content).length := by
  have hpending : c.pipe.pending = [] := by
    have hissued := h.issued
    rw [Pipe.issued, show c.pipe.delivered = c.accepted from rfl, hall] at hissued
    simpa using hissued
  obtain ⟨hunsent, hrest⟩ := List.append_eq_nil_iff.mp hpending
  rcases h.file with hread | ⟨f, hopen, hfresh | hfilled⟩
  · -- an unread part of the buffer is left as long as the connection is sending
    have hdrained := List.drop_eq_nil_iff.mp hunsent
    rcases h.offsets with hlt | ⟨hnil, -⟩
    · omega
    · exact absurd hnil hread.buf_ne_nil
  all_goals
    have hpos : f.pos = content.length := by
      have hdrop : f.content.drop f.pos = [] := by simpa [hopen.opened, OpenFile.rest] using hrest
      have hle := List.drop_eq_nil_iff.mp hdrop
      have hle' := hopen.pos_le
      rw [hopen.content_eq] at hle
      omega
  · have hzero := hfresh.pos
    have hlength := hfresh.length_pos
    omega
  · have hdvd := hfilled.dvd
    rwa [hpos, ← length_http200Reply] at hdvd

/-- A connection that starts the reply for a file. -/
theorem serving_replyFileStart {c : ServerConnection} (content : Bytes)
    (hread : c.reply.bufReadOffset = 0) (hoffset : c.reply.fReadOffset = 0)
    (hheader : (http200Header content.length).length < bufSize) :
    Serving (replyFileStart c content) content := by
  have hpos := length_http200Header_pos content.length
  refine ⟨rfl, ?_, .inl (by simpa [replyFileStart, hread] using hpos), ?_⟩
  · by_cases hempty : content.length = 0
    · have hnil : content = [] := List.length_eq_zero_iff.mp hempty
      simp [ServerConnection.pipe, Pipe.issued, replyFileStart, Reply.unsent, hread, hnil,
        http200Reply]
    · simp [ServerConnection.pipe, Pipe.issued, replyFileStart, Reply.unsent, hread, hempty,
        http200Reply, OpenFile.rest, OpenFile.open]
  · by_cases hempty : content.length = 0
    · refine .inl ⟨by simp [replyFileStart, hempty], by simp [replyFileStart, hempty],
        List.length_pos_iff.mp hpos, ?_⟩
      rw [length_http200Reply, hempty, Nat.add_zero]
      intro hdvd
      have hle := Nat.le_of_dvd (hempty ▸ hpos) hdvd
      rw [hempty] at hheader
      omega
    · refine .inr ⟨OpenFile.open content, ?_, .inl ?_⟩
      · exact
          { opened := by simp [replyFileStart, hempty]
            state := by simp [replyFileStart, hempty]
            content_eq := rfl
            fLength := rfl
            fReadOffset := hoffset
            pos_le := Nat.zero_le _
            eof := rfl }
      · exact ⟨rfl, Nat.pos_of_ne_zero hempty, hheader, rfl⟩

/-! ## Reading more of the file -/

/-- The length of what `fread` returns. -/
theorem FileOpen.length_read (h : FileOpen c content f) (n : Nat) :
    (f.read n).1.length = min n (content.length - f.pos) := by
  simp [OpenFile.read, OpenFile.rest, h.content_eq]

/-- `fread` moves the position by what it returns. -/
theorem OpenFile.pos_read (f : OpenFile) (n : Nat) :
    (f.read n).2.pos = f.pos + (f.read n).1.length := rfl

/-- The end-of-file indicator is set when less than asked for is left. -/
theorem FileOpen.eof_read (h : FileOpen c content f) (n : Nat) :
    (f.read n).2.eof = decide (content.length - f.pos < n) := by
  have hlength := h.length_read n
  have heof : (f.read n).2.eof = (f.eof || decide ((f.read n).1.length < n)) := rfl
  rw [heof, h.eof, hlength, Bool.false_or]
  congr 1
  rw [eq_iff_iff]
  omega

/-- The connection after `fread`, before the end-of-file indicator is looked at. -/
def ServerConnection.afterRead (c : ServerConnection) (bytes : Bytes) (f : OpenFile) :
    ServerConnection :=
  { c with reply := { c.reply with
      buf := c.reply.buf ++ bytes
      fReadOffset := f.pos
      f := some f } }

/-- Reading into a buffer that is full or from a file that was read completely changes nothing. -/
theorem FileOpen.fileContinue_eq_self (h : FileOpen c content f)
    (hskip : bufSize ≤ c.reply.buf.length ∨ f.pos = content.length) : fileContinue c = c := by
  have hguard : ¬(bufSize - c.reply.buf.length > 0 ∧ c.reply.fReadOffset ≠ c.reply.fLength) := by
    rw [h.fReadOffset, h.fLength]
    omega
  unfold fileContinue
  simp only [h.opened]
  rw [if_neg hguard]

/-- Reading when there is space in the buffer and something left of the file. -/
theorem FileOpen.fileContinue_eq (h : FileOpen c content f)
    (hspace : c.reply.buf.length < bufSize) (hleft : f.pos < content.length) :
    fileContinue c =
      let n := bufSize - c.reply.buf.length
      if content.length - f.pos < n then
        { c with
          reply := { c.reply with
            buf := c.reply.buf ++ (f.read n).1, fReadOffset := (f.read n).2.pos, f := none }
          state := .replySend }
      else c.afterRead (f.read n).1 (f.read n).2 := by
  have hguard : bufSize - c.reply.buf.length > 0 ∧ c.reply.fReadOffset ≠ c.reply.fLength := by
    rw [h.fReadOffset, h.fLength]
    omega
  unfold fileContinue
  simp only [h.opened]
  rw [if_pos hguard]
  have heof := h.eof_read (bufSize - c.reply.buf.length)
  by_cases hshort : content.length - f.pos < bufSize - c.reply.buf.length
  · simp [heof, hshort]
  · simp [heof, hshort, ServerConnection.afterRead]

/-- What is still to be sent does not change when a piece of the file moves into the buffer. -/
theorem drop_append_read (buf : Bytes) {k : Nat} (hk : k ≤ buf.length) (f : OpenFile) (n : Nat) :
    (buf ++ (f.read n).1).drop k ++ (f.read n).2.rest = buf.drop k ++ f.rest := by
  rw [List.drop_append_of_le_length hk, List.append_assoc, f.read_append_rest n]

/-- Reading more of the file keeps `Serving`, and afterwards the buffer was filled a whole number of
times if the file is still open. -/
theorem Serving.fileContinue (h : Serving c content) (hopen : FileOpen c content f)
    (hfile : Fresh c content f ∨ Filled c content f) :
    Serving (fileContinue c) content ∧
      ∀ g, (FileTransfer.fileContinue c).reply.f = some g →
        Filled (FileTransfer.fileContinue c) content g := by
  by_cases hskip : bufSize ≤ c.reply.buf.length ∨ f.pos = content.length
  · rw [hopen.fileContinue_eq_self hskip]
    refine ⟨h, fun g hg => ?_⟩
    obtain rfl : f = g := by simpa [hopen.opened] using hg
    rcases hfile with hfresh | hfilled
    · -- a header alone neither fills the buffer nor is the file empty
      have hheader := hfresh.header_lt
      have hlength := hfresh.length_pos
      have hpos := hfresh.pos
      rw [hfresh.buf] at hskip
      omega
    · exact hfilled
  · obtain ⟨hspace, hne⟩ := not_or.mp hskip
    have hspace : c.reply.buf.length < bufSize := Nat.lt_of_not_le hspace
    have hleft : f.pos < content.length := lt_of_le_of_ne hopen.pos_le hne
    -- header and file position are a whole number of buffers plus what is in the buffer
    obtain ⟨k, hk⟩ : ∃ k, (http200Header content.length).length + f.pos =
        bufSize * k + c.reply.buf.length := by
      rcases hfile with hfresh | hfilled
      · exact ⟨0, by rw [hfresh.pos, hfresh.buf]; omega⟩
      · obtain ⟨k, hk⟩ := hfilled.dvd
        rcases hfilled.buf with hnil | hfull
        · exact ⟨k, by rw [hk, hnil]; rfl⟩
        · omega
    have hissued := h.issued
    simp only [Pipe.issued, ServerConnection.pipe, hopen.opened, Option.elim_some,
      Reply.unsent] at hissued
    rw [hopen.fileContinue_eq hspace hleft]
    have hlength := hopen.length_read (bufSize - c.reply.buf.length)
    have hstream := drop_append_read c.reply.buf h.readOffset_le f (bufSize - c.reply.buf.length)
    have hpos := f.pos_read (bufSize - c.reply.buf.length)
    have hoffset := h.readOffset_le
    set n := bufSize - c.reply.buf.length with hn
    have hreadOffset : c.reply.bufReadOffset < (c.reply.buf ++ (f.read n).1).length := by
      rw [List.length_append, hlength]
      omega
    by_cases hshort : content.length - f.pos < n
    · simp only [hshort, if_true]
      refine ⟨⟨h.serving, ?_, .inl hreadOffset, .inl ?_⟩, fun g hg => by simp at hg⟩
      · have hrest : (f.read n).2.rest = [] := by
          rw [OpenFile.rest, List.drop_eq_nil_iff, hpos, hlength,
            show (f.read n).2.content = f.content from rfl, hopen.content_eq]
          omega
        rw [hrest, List.append_nil] at hstream
        simp only [Pipe.issued, ServerConnection.pipe, Reply.unsent, Option.elim_none,
          List.append_nil, hstream]
        exact hissued
      · refine ⟨rfl, rfl, List.length_pos_iff.mp (by simp only; omega), ?_⟩
        -- the last piece is shorter than the space that was left
        rw [length_http200Reply]
        rintro ⟨m, hm⟩
        have hlt : bufSize * k < bufSize * m := by omega
        have hlt' : bufSize * m < bufSize * (k + 1) := by
          rw [Nat.mul_add]
          omega
        have := Nat.lt_of_mul_lt_mul_left hlt
        have := Nat.lt_of_mul_lt_mul_left hlt'
        omega
    · simp only [hshort, if_false]
      have hfilled : Filled (c.afterRead (f.read n).1 (f.read n).2) content (f.read n).2 := by
        refine ⟨⟨k + 1, ?_⟩, .inr ?_⟩
        · rw [hpos, hlength, Nat.mul_add]
          omega
        · simp only [ServerConnection.afterRead, List.length_append, hlength]
          omega
      refine ⟨⟨h.serving, ?_, .inl hreadOffset, .inr ⟨(f.read n).2, ?_, .inr hfilled⟩⟩, ?_⟩
      · simp only [Pipe.issued, ServerConnection.pipe, ServerConnection.afterRead, Reply.unsent,
          Option.elim_some, hstream]
        exact hissued
      · exact
          { opened := rfl
            state := hopen.state
            content_eq := hopen.content_eq
            fLength := hopen.fLength
            fReadOffset := rfl
            pos_le := by rw [hpos, hlength]; omega
            eof := by rw [hopen.eof_read]; simpa using hshort }
      · intro g hg
        obtain rfl : (f.read n).2 = g := by simpa [ServerConnection.afterRead] using hg
        exact hfilled

/-- An activation that is sending the reply for a file still is after reading more of it. -/
theorem Serving.load (h : Serving a.conn content) :
    Serving a.load.conn content ∧
      ∀ g, a.load.conn.reply.f = some g → Filled a.load.conn content g := by
  rcases h.file with hread | ⟨f, hopen, hfile⟩
  · have hload : a.load = a := by simp [Activation.load, hread.state]
    rw [hload]
    exact ⟨h, fun g hg => by simp [hread.closed] at hg⟩
  · have hload : a.load = { a with conn := FileTransfer.fileContinue a.conn } := by
      simp [Activation.load, hopen.state]
    rw [hload]
    exact h.fileContinue hopen hfile

/-- Reading more of the file leaves everything else alone. -/
theorem fileContinue_frame (c : ServerConnection) :
    (fileContinue c).accepted = c.accepted ∧ (fileContinue c).serving = c.serving ∧
      (fileContinue c).reply.done = c.reply.done := by
  unfold fileContinue
  cases c.reply.f with
  | none => exact ⟨rfl, rfl, rfl⟩
  | some f =>
    dsimp only
    split_ifs <;> exact ⟨rfl, rfl, rfl⟩

/-- What an activation has recorded does not change when it reads more of the file. -/
theorem load_frame (a : Activation) :
    a.load.conn.accepted = a.conn.accepted ∧ a.load.conn.serving = a.conn.serving ∧
      a.load.conn.reply.done = a.conn.reply.done ∧ a.load.sent = a.sent ∧
      a.load.replies = a.replies := by
  unfold Activation.load
  split_ifs
  · obtain ⟨haccepted, hserving, hdone⟩ := fileContinue_frame a.conn
    exact ⟨haccepted, hserving, hdone, rfl, rfl⟩
  · exact ⟨rfl, rfl, rfl, rfl, rfl⟩

/-- Reading more of the file leaves the events that the socket is watched for, and goes on to
sending. -/
theorem load_epoll (a : Activation) :
    a.load.conn.epoll = a.conn.epoll ∧
      (a.load.conn.state = a.conn.state ∨ a.load.conn.state = .replySend) := by
  unfold Activation.load fileContinue
  split
  · dsimp only
    split
    · exact ⟨rfl, .inl rfl⟩
    · split
      · split
        · exact ⟨rfl, .inr rfl⟩
        · exact ⟨rfl, .inl rfl⟩
      · exact ⟨rfl, .inl rfl⟩
  · exact ⟨rfl, .inl rfl⟩

/-! ## Sending -/

/-- What `send` accepts is delivered. -/
theorem pipe_advance {n : Nat} (hn : n ≤ a.conn.reply.unsent.length) :
    (a.advance n).conn.pipe = a.conn.pipe.deliver n := by
  ext1
  · show a.conn.accepted ++ a.conn.reply.unsent.take n = a.conn.accepted ++ List.take n (_ ++ _)
    rw [List.take_append_of_le_length hn]
  · show List.drop (a.conn.reply.bufReadOffset + n) a.conn.reply.buf ++ _ = List.drop n (_ ++ _)
    rw [List.drop_append_of_le_length hn, Reply.unsent, List.drop_drop]
    rfl

/-- Sending a part of the buffer keeps `Serving`. -/
theorem Serving.advance (h : Serving a.conn content) {n : Nat}
    (hn : n ≤ a.conn.reply.unsent.length)
    (hmore : (a.advance n).conn.reply.bufReadOffset ≠ (a.advance n).conn.reply.buf.length) :
    Serving (a.advance n).conn content := by
  have hlength : a.conn.reply.unsent.length =
      a.conn.reply.buf.length - a.conn.reply.bufReadOffset := List.length_drop
  have hle := h.readOffset_le
  refine ⟨h.serving, by rw [pipe_advance hn, Pipe.issued_deliver, h.issued], .inl ?_, ?_⟩
  · have hle' : a.conn.reply.bufReadOffset + n ≤ a.conn.reply.buf.length := by omega
    exact lt_of_le_of_ne hle' hmore
  · rcases h.file with ⟨h₁, h₂, h₃, h₄⟩ | ⟨f, ⟨h₁, h₂, h₃, h₄, h₅, h₆, h₇⟩, hfile⟩
    · exact .inl ⟨h₁, h₂, h₃, h₄⟩
    · refine .inr ⟨f, ⟨h₁, h₂, h₃, h₄, h₅, h₆, h₇⟩, ?_⟩
      rcases hfile with ⟨k₁, k₂, k₃, k₄⟩ | ⟨k₁, k₂⟩
      · exact .inl ⟨k₁, k₂, k₃, k₄⟩
      · exact .inr ⟨k₁, k₂⟩

/-- Draining the buffer: once it is reset, either the file is still open and `Serving` holds, or
everything was accepted. -/
theorem Serving.drained (h : Serving a.conn content) {n : Nat}
    (hfilled : ∀ g, a.conn.reply.f = some g → Filled a.conn content g)
    (hn : n ≤ a.conn.reply.unsent.length)
    (hdrained : (a.advance n).conn.reply.bufReadOffset = (a.advance n).conn.reply.buf.length) :
    (a.conn.reply.f = none → (a.advance n).conn.accepted = http200Reply content) ∧
      (a.conn.reply.f ≠ none → Serving (a.advance n).resetOffsets.conn content) := by
  have hunsent : (a.advance n).conn.reply.unsent = [] := by
    rw [Reply.unsent, hdrained, List.drop_length]
  have hissued : (a.advance n).conn.pipe.issued = http200Reply content := by
    rw [pipe_advance hn, Pipe.issued_deliver, h.issued]
  constructor
  · intro hclosed
    have hpending : (a.advance n).conn.pipe.pending = [] := by
      have hf : (a.advance n).conn.reply.f = none := hclosed
      simp [ServerConnection.pipe, hunsent, hf]
    rw [← hissued]
    exact Pipe.delivered_eq_issued_of_pending_eq_nil _ hpending
  · intro hsome
    rcases h.file with hread | ⟨f, ⟨h₁, h₂, h₃, h₄, h₅, h₆, h₇⟩, -⟩
    · exact absurd hread.closed hsome
    · refine ⟨h.serving, ?_, .inr ⟨rfl, rfl⟩,
        .inr ⟨f, ⟨h₁, h₂, h₃, h₄, h₅, h₆, h₇⟩, .inr ⟨(hfilled f h₁).dvd, .inl rfl⟩⟩⟩
      rw [← hissued]
      simp only [Pipe.issued, ServerConnection.pipe, hunsent]
      rfl

/-! ## The loop -/

/-- A reply for `content` that was completed: the connection is open and idle again. -/
structure Completed (a : Activation) (content : Bytes) (o : Outcome) : Prop where
  open_ : o.closed = false
  state : o.act.conn.state = .idle
  done : o.act.conn.reply.done = true
  accepted : o.act.conn.accepted = http200Reply content
  replies : o.act.replies = a.replies + 1
  not_dvd : ¬bufSize ∣ (http200Reply content).length

/-- A reply for `content` that is not complete: the connection is still sending it, or was
closed. -/
structure Unfinished (a : Activation) (content : Bytes) (o : Outcome) : Prop where
  serving : Serving o.act.conn content
  done : o.act.conn.reply.done = a.conn.reply.done
  replies : o.act.replies = a.replies

/-- What an activation that sends the reply for a file does. -/
structure Sends (a : Activation) (content : Bytes) (o : Outcome) : Prop where
  serving : o.act.conn.serving = some content
  /-- What is sent is appended to what was accepted before. -/
  appended : ∃ new, o.act.conn.accepted = a.conn.accepted ++ new ∧ o.act.sent = a.sent ++ new
  ends : Completed a content o ∨ Unfinished a content o

/-- A `send` first and the rest of the activation after it. -/
theorem Sends.trans {a a' : Activation} {o : Outcome} (h : Sends a' content o) {new : Bytes}
    (haccepted : a'.conn.accepted = a.conn.accepted ++ new) (hsent : a'.sent = a.sent ++ new)
    (hdone : a'.conn.reply.done = a.conn.reply.done) (hreplies : a'.replies = a.replies) :
    Sends a content o := by
  refine ⟨h.serving, ?_, ?_⟩
  · obtain ⟨more, hmore, hmore'⟩ := h.appended
    exact ⟨new ++ more, by rw [hmore, haccepted, List.append_assoc],
      by rw [hmore', hsent, List.append_assoc]⟩
  · rcases h.ends with ⟨h₁, h₂, h₃, h₄, h₅, h₆⟩ | ⟨h₁, h₂, h₃⟩
    · exact .inl ⟨h₁, h₂, h₃, h₄, by rw [h₅, hreplies], h₆⟩
    · exact .inr ⟨h₁, by rw [h₂, hdone], by rw [h₃, hreplies]⟩

/-- Nothing is sent after the reply was accepted as a whole. -/
theorem Sends.accepted_eq {o : Outcome} (h : Sends a content o)
    (hall : a.conn.accepted = http200Reply content) :
    o.act.conn.accepted = http200Reply content := by
  rcases h.ends with hcompleted | hunfinished
  · exact hcompleted.accepted
  · have hinit := hunfinished.serving.accepted_prefix
    obtain ⟨new, hnew, -⟩ := h.appended
    rw [hnew, hall] at hinit ⊢
    exact hinit.eq_of_length_le (by simp)

/-- The activation ends without sending more. -/
theorem Serving.sends_load (h : Serving a.conn content) (code : ServerCode) (closed : Bool) :
    Sends a content { act := a.load, code := code, closed := closed } := by
  obtain ⟨haccepted, hserving, hdone, hsent, hreplies⟩ := load_frame a
  exact
    { serving := hserving.trans h.serving
      appended := ⟨[], by simpa using haccepted, by simpa using hsent⟩
      ends := .inr ⟨h.load.1, hdone, hreplies⟩ }

/-- The reply loop: by induction on the outcomes of `send`, with `Serving` as the invariant. -/
theorem Serving.replyLoop (h : Serving a.conn content) (answers : List Answer) :
    Sends a content (replyLoop a answers) := by
  induction answers generalizing a with
  | nil => exact h.sends_load _ _
  | cons answer answers ih =>
    obtain ⟨haccepted, -, hdone, hsent, hreplies⟩ := load_frame a
    obtain ⟨hload, hfilled⟩ := h.load
    unfold FileTransfer.replyLoop
    cases hanswer : answer.send a.load.conn.reply.unsent.length with
    | error errno => cases errno <;> exact h.sends_load _ _
    | ok bytes =>
      cases bytes with
      | zero => exact h.sends_load _ _
      | succ k =>
        have hn : k + 1 ≤ a.load.conn.reply.unsent.length := Answer.le_of_send_eq_ok hanswer
        dsimp only
        have haccepted' : (a.load.advance (k + 1)).conn.accepted =
            a.conn.accepted ++ a.load.conn.reply.unsent.take (k + 1) := by
          rw [← haccepted]
          rfl
        have hsent' : (a.load.advance (k + 1)).sent =
            a.sent ++ a.load.conn.reply.unsent.take (k + 1) := by
          rw [← hsent]
          rfl
        split_ifs with hdrained hclosed
        · obtain ⟨hall, -⟩ := hload.drained hfilled hn hdrained
          have hfile : a.load.conn.reply.f = none := hclosed
          have hread : FileRead a.load.conn content := by
            rcases hload.file with hread | ⟨f, hopen, -⟩
            · exact hread
            · rw [hopen.opened] at hfile
              cases hfile
          refine ⟨hload.serving, ⟨_, haccepted', hsent'⟩, .inl ?_⟩
          exact
            { open_ := rfl
              state := rfl
              done := rfl
              accepted := hall hfile
              replies := congrArg (· + 1) hreplies
              not_dvd := hread.not_dvd }
        · obtain ⟨-, hserving⟩ := hload.drained hfilled hn hdrained
          exact (ih (hserving hclosed)).trans haccepted' hsent' hdone hreplies
        · exact (ih (hload.advance hn hdrained)).trans haccepted' hsent' hdone hreplies

/-! ## A reply that fills the buffer -/

/-- When header and file fill the buffer once, one `send` can take all of the reply. -/
theorem replyLoop_fullBuffer (a : Activation) (hread : c.reply.bufReadOffset = 0)
    (hoffset : c.reply.fReadOffset = 0) (hcontent : 0 < content.length)
    (hfull : (http200Header content.length).length + content.length = bufSize)
    (answers : List Answer) :
    let o := replyLoop { a with conn := replyFileStart c content } (.ready (bufSize - 1) :: answers)
    o.act.conn.serving = some content ∧ o.act.conn.accepted = http200Reply content ∧
      o.act.sent ≠ [] := by
  generalize hb : ({ a with conn := replyFileStart c content } : Activation) = b
  have hconn : b.conn = replyFileStart c content := by rw [← hb]
  have hserving : Serving b.conn content := by
    rw [hconn]
    exact serving_replyFileStart content hread hoffset (by omega)
  have hopen : FileOpen b.conn content (OpenFile.open content) := by
    rw [hconn]
    exact ⟨by simp [replyFileStart, hcontent.ne'], by simp [replyFileStart, hcontent.ne'],
      rfl, rfl, hoffset, Nat.zero_le _, rfl⟩
  have hbuf : b.conn.reply.buf = http200Header content.length := by rw [hconn]; rfl
  -- the whole file fits into the buffer, and `fread` is not asked for more
  have hread' : (OpenFile.open content).read (bufSize - b.conn.reply.buf.length) =
      (content, { content := content, pos := content.length, eof := false }) := by
    have hspace : bufSize - b.conn.reply.buf.length = content.length := by rw [hbuf]; omega
    simp [OpenFile.read, OpenFile.rest, OpenFile.open, hspace]
  have hload : b.load.conn = b.conn.afterRead content
      { content := content, pos := content.length, eof := false } := by
    have hstep := hopen.fileContinue_eq (by rw [hbuf]; omega) hcontent
    dsimp only at hstep
    rw [hread', if_neg (by rw [hbuf]; simp only [OpenFile.open]; omega)] at hstep
    simpa [Activation.load, hopen.state] using hstep
  obtain ⟨hk, hnone⟩ : b.load.conn.reply.bufReadOffset = 0 ∧ b.load.conn.accepted = [] := by
    rw [hload, hconn]
    exact ⟨hread, rfl⟩
  have hbuf' : b.load.conn.reply.buf = http200Reply content := by
    simp [hload, ServerConnection.afterRead, hbuf, http200Reply]
  have hunsent : b.load.conn.reply.unsent = http200Reply content := by
    rw [Reply.unsent, hk, hbuf', List.drop_zero]
  have hlength : (http200Reply content).length = bufSize - 1 + 1 := by
    rw [length_http200Reply, hfull]
    rfl
  have hanswer : (Answer.ready (bufSize - 1)).send b.load.conn.reply.unsent.length =
      .ok (bufSize - 1 + 1) := by
    rw [hunsent, hlength, Answer.send, Nat.min_self]
  have hsome : (b.load.advance (bufSize - 1 + 1)).resetOffsets.conn.reply.f ≠ none := by
    simp [Activation.resetOffsets, Activation.advance, hload, ServerConnection.afterRead]
  have hdrained : (b.load.advance (bufSize - 1 + 1)).conn.reply.bufReadOffset =
      (b.load.advance (bufSize - 1 + 1)).conn.reply.buf.length := by
    show b.load.conn.reply.bufReadOffset + (bufSize - 1 + 1) = b.load.conn.reply.buf.length
    rw [hk, hbuf', hlength, Nat.zero_add]
  have hsent : b.load.conn.reply.unsent.take (bufSize - 1 + 1) = http200Reply content := by
    rw [hunsent, ← hlength, List.take_length]
  have hrest := (hserving.load.1.drained hserving.load.2 (Answer.le_of_send_eq_ok hanswer)
    hdrained).2 hsome
  have hall : (b.load.advance (bufSize - 1 + 1)).resetOffsets.conn.accepted =
      http200Reply content := by
    show b.load.conn.accepted ++ b.load.conn.reply.unsent.take (bufSize - 1 + 1) = _
    rw [hnone, hsent, List.nil_append]
  have hsends := hrest.replyLoop answers
  unfold replyLoop
  rw [hanswer]
  dsimp only
  rw [if_pos hdrained, if_neg hsome]
  refine ⟨hsends.serving, hsends.accepted_eq hall, ?_⟩
  obtain ⟨new, -, hnew⟩ := hsends.appended
  rw [hnew]
  show b.load.sent ++ b.load.conn.reply.unsent.take (bufSize - 1 + 1) ++ new ≠ []
  rw [hsent]
  intro hnil
  have hnil' := congrArg List.length hnil
  simp [hlength] at hnil'

end Serving

/-- The reply loop for a 404 reply: it stays one until it is complete. -/
theorem replyLoop_notFound {a : Activation} (hstate : a.conn.state = .replySend)
    (hclosed : a.conn.reply.f = none) (hserving : a.conn.serving = none)
    (answers : List Answer) :
    (replyLoop a answers).act.conn.serving = none ∧
      ((replyLoop a answers).act.conn.state = .idle ∨
        ((replyLoop a answers).act.conn.state = .replySend ∧
          (replyLoop a answers).act.conn.reply.f = none)) := by
  induction answers generalizing a with
  | nil =>
    have hload : a.load = a := by simp [Activation.load, hstate]
    unfold replyLoop
    rw [hload]
    exact ⟨hserving, .inr ⟨hstate, hclosed⟩⟩
  | cons answer answers ih =>
    have hload : a.load = a := by simp [Activation.load, hstate]
    unfold replyLoop
    rw [hload]
    cases answer.send a.conn.reply.unsent.length with
    | error errno => cases errno <;> exact ⟨hserving, .inr ⟨hstate, hclosed⟩⟩
    | ok bytes =>
      cases bytes with
      | zero => exact ⟨hserving, .inr ⟨hstate, hclosed⟩⟩
      | succ k =>
        dsimp only
        split_ifs with hdrained hfile
        · exact ⟨hserving, .inl rfl⟩
        · exact ih hstate hclosed hserving
        · exact ih hstate hclosed hserving

end ShadowExtras.FileTransfer
