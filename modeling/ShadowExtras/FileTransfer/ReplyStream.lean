import ShadowExtras.FileTransfer.ContentLength
import ShadowExtras.FileTransfer.FilegetterReply

/-!
# A reply that is still being sent

`FilegetterReply` follows a getter to which all of a reply has been sent already. Here a part of the
reply, `rest`, is still at the server. What the getter does with the bytes that are there is what it
would do if `rest` stood behind them (`receive_after`), so that the phases of `FilegetterReply` are
used for the getter `fg.after rest`, and the line of a 404 reply gets a phase of its own
(`InRefusal`).

Nothing is assumed of the environment: a call of `recv` may fail or find the connection closed at
any time, and the local file may refuse what is written. `Hears.callLoop` has all that an activation
can report.
-/

namespace ShadowExtras.FileTransfer

open Foundation

variable {fg fg' : Filegetter} {around : Surroundings} {rest body : Bytes} {call : Call} {count : ℕ}

/-! ## Bytes that are still to be sent -/

/-- The getter when `rest` has been sent to it as well. -/
def Filegetter.after (fg : Filegetter) (rest : Bytes) : Filegetter :=
  { fg with incoming := fg.incoming ++ rest }

/-- A state that leads somewhere when `rest` has been sent as well. -/
def Next.after (rest : Bytes) : Next → Next
  | .call fg => .call (fg.after rest)
  | .return fg code => .return (fg.after rest) code

theorem after_nil (fg : Filegetter) : fg.after [] = fg := by
  simp [Filegetter.after]

/-- Bytes that are sent come out of those that are still to be sent. -/
theorem after_append (fg : Filegetter) (new rest : Bytes) :
    ({ fg with incoming := fg.incoming ++ new } : Filegetter).after rest =
      fg.after (new ++ rest) := by
  simp [Filegetter.after]

/-- Counting the bytes of a body does not look at what is to come. -/
theorem countBody_after (fg : Filegetter) (around : Surroundings) (bytes : ℕ) (rest : Bytes) :
    (fg.after rest).countBody around bytes = (fg.countBody around bytes).after rest := by
  unfold Filegetter.countBody Filegetter.after
  dsimp only
  split_ifs <;> rfl

/-- The end of a download does not depend on what comes after. -/
theorem finish_after (fg : Filegetter) (around : Surroundings) (rest : Bytes) :
    (fg.after rest).finish around = (fg.finish around).after rest := by
  unfold Filegetter.finish Filegetter.after
  dsimp only [Filegetter.metricsComplete]
  split_ifs <;> rfl

/-- A check of the download does not depend on what comes after. -/
theorem checkDownload_after (fg : Filegetter) (around : Surroundings) (rest : Bytes) :
    (fg.after rest).checkDownload around = (fg.checkDownload around).after rest := by
  unfold Filegetter.checkDownload
  dsimp only
  rw [show (fg.after rest).buf.drop (fg.after rest).bufReadOffset =
    fg.buf.drop fg.bufReadOffset from rfl, countBody_after]
  generalize fg.countBody around (fg.buf.drop fg.bufReadOffset).length = counted
  have hf : (counted.after rest).f = counted.f := rfl
  have hcurstats : (counted.after rest).curstats = counted.curstats := rfl
  simp only [hf, hcurstats]
  by_cases hrefused : counted.f = true ∧ ¬around.fwriteOk = true
  · simp only [if_pos hrefused]
    rfl
  · simp only [if_neg hrefused]
    by_cases hall : counted.curstats.bodyBytesDownloaded ≥ counted.curstats.bodyBytesExpected
    · simp only [if_pos hall]
      exact congrArg (Next.return · .ok200) (finish_after { counted with
        content := counted.content.map (· ++ fg.buf.drop fg.bufReadOffset)
        fileContent := if counted.f then counted.fileContent ++ fg.buf.drop fg.bufReadOffset
          else counted.fileContent
        buf := []
        bufReadOffset := 0 } around rest)
    · simp only [if_neg hall]
      rfl

/-- The getter once the header was read: the body starts at `offset` and has `number` bytes. -/
def Filegetter.announced (fg : Filegetter) (offset number : ℕ) : Filegetter :=
  { fg with
    curstats := { fg.curstats with bodyBytesExpected := number }
    allstats := { fg.allstats with
      bodyBytesExpected := (fg.allstats.bodyBytesExpected + number) % 2 ^ 64 }
    bufReadOffset := offset
    state := .checkDownload }

/-- The header of a reply does not depend on what comes after. -/
theorem replyHttp_after (fg : Filegetter) (around : Surroundings) (rest : Bytes) :
    (fg.after rest).replyHttp around = (fg.replyHttp around).map (Next.after rest) := by
  have hbuf : (fg.after rest).buf = fg.buf := rfl
  have hoffset : (fg.after rest).bufReadOffset = fg.bufReadOffset := rfl
  unfold Filegetter.replyHttp
  simp only [hbuf, hoffset]
  by_cases hfull : fg.buf.length ≥ bufSize
  · simp only [if_pos hfull]
    rfl
  · simp only [if_neg hfull]
    cases strcasestr http404 (cString (fg.buf.drop fg.bufReadOffset)) with
    | some i => rfl
    | none =>
      dsimp only
      cases strcasestr http200 (cString (fg.buf.drop fg.bufReadOffset)) with
      | none => rfl
      | some j =>
        cases strcasestr twoCrlf (cString (fg.buf.drop fg.bufReadOffset)) with
        | none => rfl
        | some content =>
          dsimp only
          cases strcasestr contentText (cString (fg.buf.drop fg.bufReadOffset)) with
          | none => rfl
          | some cl =>
            dsimp only
            generalize Filegetter.toSize _ = number
            exact congrArg Except.ok (checkDownload_after
              (fg.announced (fg.bufReadOffset + content + twoCrlf.length) number) around rest)

/-- The getter waits for more of a reply. -/
structure Listens (fg : Filegetter) : Prop where
  state : fg.state = .receive
  nextstate : fg.nextstate = .replyHttp ∨ fg.nextstate = .checkDownload

/-- A state without a call does not depend on what comes after. -/
theorem proceed_after (h : fg.state = .replyHttp ∨ fg.state = .checkDownload)
    (around : Surroundings) (rest : Bytes) :
    (fg.after rest).proceed around = (fg.proceed around).map (Next.after rest) := by
  unfold Filegetter.proceed
  rw [show (fg.after rest).state = fg.state from rfl]
  rcases h with hstate | hstate
  · simp only [hstate]
    exact replyHttp_after fg around rest
  · simp only [hstate]
    exact congrArg Except.ok (checkDownload_after fg around rest)

/-- The getter was shut down. -/
def Fatal (result : Except Fault Next) : Prop :=
  ∃ fg : Filegetter, result = .ok (.return fg .errFatal) ∧ fg.state = .idle

theorem fatal_die (fg : Filegetter) : Fatal (.ok fg.die) := ⟨fg.shutdown, rfl, rfl⟩

/-- A call of `recv` that finds bytes is one that finds a front piece of all that is sent. -/
theorem receive_ready_after (h : Listens fg) {k : ℕ} (hincoming : fg.incoming ≠ [])
    (hroom : fg.buf.length < bufSize) (around : Surroundings) (rest : Bytes) :
    ∃ k' ≤ k, (fg.after rest).receive { answer := .ready k', around := around } =
      (fg.receive { answer := .ready k, around := around }).map (Next.after rest) := by
  have hincoming' : (fg.after rest).incoming ≠ [] := by simp [Filegetter.after, hincoming]
  obtain ⟨bytes, hbytes⟩ : ∃ bytes,
      bytes = fg.incoming.take (min (k + 1) (bufSize - fg.buf.length)) := ⟨_, rfl⟩
  have hlength : bytes.length = min (min (k + 1) (bufSize - fg.buf.length)) fg.incoming.length := by
    rw [hbytes, List.length_take]
  have hpos := List.length_pos_iff.mpr hincoming
  refine ⟨bytes.length - 1, by omega, ?_⟩
  rw [receive_ready hincoming' hroom, receive_ready hincoming hroom, ← hbytes]
  -- the same bytes are received
  have hsame : (fg.after rest).incoming.take
      (min (bytes.length - 1 + 1) (bufSize - (fg.after rest).buf.length)) = bytes := by
    show (fg.incoming ++ rest).take (min (bytes.length - 1 + 1) (bufSize - fg.buf.length)) = bytes
    have hmin : min (bytes.length - 1 + 1) (bufSize - fg.buf.length) = bytes.length := by omega
    rw [hmin, List.take_append_of_le_length (by omega), hbytes]
    simp
  have hreceived : (fg.after rest).received bytes = (fg.received bytes).after rest := by
    unfold Filegetter.received Filegetter.after
    dsimp only
    rw [List.drop_append_of_le_length (by omega)]
  rw [hsame, hreceived]
  exact @proceed_after (fg.received bytes) h.nextstate around rest

/-- A call of `recv` finds nothing, ends the connection, or is one that finds a front piece of all
that is sent. -/
theorem receive_after (h : Listens fg) (call : Call) (rest : Bytes) :
    fg.receive call = .ok (.return fg .errWouldblock) ∨ Fatal (fg.receive call) ∨
      ∃ k, (fg.after rest).receive { answer := .ready k, around := call.around } =
        (fg.receive call).map (Next.after rest) := by
  obtain ⟨answer, around⟩ := call
  cases answer with
  | closed => exact .inr (.inl (fatal_die _))
  | failed errno =>
    unfold Filegetter.receive
    simp only [Answer.recv, Filegetter.ioError]
    by_cases hblock : errno = .wouldBlock
    · simp [hblock]
    · simp only [hblock, decide_false, Bool.false_eq_true, if_false]
      exact .inr (.inl (fatal_die _))
  | ready k =>
    by_cases hroom : bufSize - fg.buf.length = 0
    · unfold Filegetter.receive
      simp only [Answer.recv, hroom, if_true]
      exact .inr (.inl (fatal_die _))
    by_cases hincoming : fg.incoming = []
    · refine .inl ?_
      unfold Filegetter.receive
      simp [Answer.recv, hroom, hincoming, Filegetter.ioError]
    · obtain ⟨k', -, hafter⟩ := receive_ready_after h (k := k) hincoming (by omega) around rest
      exact .inr (.inr ⟨k', hafter⟩)

/-! ## A local file that refuses what is written -/

/-- The same surroundings, in which the local file takes what is written. -/
def Surroundings.writable (around : Surroundings) : Surroundings := { around with fwriteOk := true }

/-- A check of the download fails for good, or the local file takes all. -/
theorem checkDownload_writable (fg : Filegetter) (around : Surroundings) :
    Fatal (.ok (fg.checkDownload around)) ∨
      fg.checkDownload around = fg.checkDownload around.writable := by
  unfold Filegetter.checkDownload
  dsimp only
  rw [show fg.countBody around.writable = fg.countBody around from rfl]
  generalize fg.countBody around (fg.buf.drop fg.bufReadOffset).length = counted
  by_cases hrefused : counted.f = true ∧ ¬around.fwriteOk = true
  · simp only [if_pos hrefused]
    exact .inl (fatal_die _)
  · have hwritable : ¬(counted.f = true ∧ ¬around.writable.fwriteOk = true) := by
      simp [Surroundings.writable]
    simp only [if_neg hrefused, if_neg hwritable]
    exact .inr rfl

/-- A reply fails for good, or the local file takes all. -/
theorem replyHttp_writable (fg : Filegetter) (around : Surroundings) :
    Fatal (fg.replyHttp around) ∨ fg.replyHttp around = fg.replyHttp around.writable := by
  unfold Filegetter.replyHttp
  dsimp only
  split_ifs
  · exact .inr rfl
  · cases strcasestr http404 (cString (fg.buf.drop fg.bufReadOffset)) with
    | some i => exact .inr rfl
    | none =>
      dsimp only
      cases strcasestr http200 (cString (fg.buf.drop fg.bufReadOffset)) with
      | none => exact .inr rfl
      | some j =>
        cases strcasestr twoCrlf (cString (fg.buf.drop fg.bufReadOffset)) with
        | none => exact .inr rfl
        | some content =>
          dsimp only
          cases strcasestr contentText (cString (fg.buf.drop fg.bufReadOffset)) with
          | none => exact .inr rfl
          | some cl =>
            dsimp only
            exact (checkDownload_writable _ around).imp id (congrArg Except.ok)

/-- Receiving fails for good, or the local file takes all. -/
theorem receive_writable (h : Listens fg) (around : Surroundings) (k : ℕ) :
    Fatal (fg.receive { answer := .ready k, around := around }) ∨
      fg.receive { answer := .ready k, around := around } =
        fg.receive { answer := .ready k, around := around.writable } := by
  unfold Filegetter.receive
  cases (Answer.ready k).recv fg.incoming (bufSize - fg.buf.length) with
  | error errno => exact .inr rfl
  | ok bytes =>
    cases bytes with
    | nil => exact .inr rfl
    | cons b bs =>
      dsimp only
      have hstate : (fg.received (b :: bs)).state = fg.nextstate := rfl
      unfold Filegetter.proceed
      rcases h.nextstate with hnext | hnext
      · simp only [hstate, hnext]
        exact replyHttp_writable _ around
      · simp only [hstate, hnext]
        exact (checkDownload_writable _ around).imp id (congrArg Except.ok)

/-! ## What a state leaves alone -/

/-- Two getters with the same specifications that have sent the same. -/
structure SameErrand (fg fg' : Filegetter) : Prop where
  sspec : fg'.sspec = fg.sspec
  fspec : fg'.fspec = fg.fspec
  sent : fg'.sent = fg.sent

theorem SameErrand.refl (fg : Filegetter) : SameErrand fg fg := ⟨rfl, rfl, rfl⟩

theorem SameErrand.trans {fg₁ fg₂ fg₃ : Filegetter} (h : SameErrand fg₁ fg₂)
    (h' : SameErrand fg₂ fg₃) :
    SameErrand fg₁ fg₃ :=
  ⟨h'.sspec.trans h.sspec, h'.fspec.trans h.fspec, h'.sent.trans h.sent⟩

/-- A download that ends leaves the getter ready for the next one, or shut down. -/
def Next.Ends : Next → Prop
  | .call _ => True
  | .return fg code => (fg.state = .spec ∧ (code = .ok200 ∨ code = .err404)) ∨
      (fg.state = .idle ∧ code = .errFatal)

/-- A state that does not receive: the errand stays the same until the download ends. -/
structure Course (fg : Filegetter) (next : Next) : Prop where
  errand : SameErrand fg next.getter
  incoming : next.getter.incoming = fg.incoming
  ends : next.Ends

theorem Course.trans (herrand : SameErrand fg fg') (hincoming : fg'.incoming = fg.incoming)
    {next : Next} (h : Course fg' next) : Course fg next :=
  ⟨herrand.trans h.errand, h.incoming.trans hincoming, h.ends⟩

theorem SameErrand.course_die (h : SameErrand fg fg') (hincoming : fg'.incoming = fg.incoming) :
    Course fg fg'.die :=
  ⟨⟨h.sspec, h.fspec, h.sent⟩, hincoming, .inr ⟨rfl, rfl⟩⟩

/-- A getter that is done keeps its errand. -/
theorem SameErrand.course_finish (h : SameErrand fg fg') (hincoming : fg'.incoming = fg.incoming)
    (around : Surroundings) : Course fg (.return (fg'.finish around) .ok200) := by
  refine Course.trans h hincoming ?_
  unfold Filegetter.finish
  dsimp only
  split_ifs <;> exact ⟨⟨rfl, rfl, rfl⟩, rfl, .inl ⟨rfl, .inl rfl⟩⟩

/-- A check of the download keeps the errand. -/
theorem course_checkDownload (fg : Filegetter) (around : Surroundings) :
    Course fg (fg.checkDownload around) := by
  obtain ⟨curstats, allstats, first, hcounted, -, -⟩ :=
    countBody_frame fg around (fg.buf.drop fg.bufReadOffset).length
  unfold Filegetter.checkDownload
  simp only [hcounted]
  generalize (if fg.f = true then fg.fileContent ++ fg.buf.drop fg.bufReadOffset
    else fg.fileContent) =
    fileContent
  split_ifs with hrefused hall
  · refine SameErrand.course_die ?_ ?_
    · exact ⟨rfl, rfl, rfl⟩
    · rfl
  · refine SameErrand.course_finish ?_ ?_ around
    · exact ⟨rfl, rfl, rfl⟩
    · rfl
  · exact ⟨⟨rfl, rfl, rfl⟩, rfl, trivial⟩

/-- The header of a reply keeps the errand. -/
theorem course_replyHttp {next : Next} (h : fg.replyHttp around = .ok next) : Course fg next := by
  unfold Filegetter.replyHttp at h
  split_ifs at h with hfull
  dsimp only at h
  cases h404 : strcasestr http404 (cString (fg.buf.drop fg.bufReadOffset)) with
  | some i =>
    rw [h404] at h
    obtain rfl := Except.ok.inj h
    exact ⟨⟨rfl, rfl, rfl⟩, rfl, .inl ⟨rfl, .inr rfl⟩⟩
  | none =>
    rw [h404] at h
    dsimp only at h
    cases h200 : strcasestr http200 (cString (fg.buf.drop fg.bufReadOffset)) with
    | none =>
      rw [h200] at h
      obtain rfl := Except.ok.inj h
      exact ⟨⟨rfl, rfl, rfl⟩, rfl, trivial⟩
    | some j =>
      cases hend : strcasestr twoCrlf (cString (fg.buf.drop fg.bufReadOffset)) with
      | none =>
        rw [h200, hend] at h
        obtain rfl := Except.ok.inj h
        exact ⟨⟨rfl, rfl, rfl⟩, rfl, trivial⟩
      | some content =>
        rw [h200, hend] at h
        dsimp only at h
        cases hlength : strcasestr contentText (cString (fg.buf.drop fg.bufReadOffset)) with
        | none =>
          rw [hlength] at h
          obtain rfl := Except.ok.inj h
          exact (SameErrand.refl fg).course_die rfl
        | some cl =>
          rw [hlength] at h
          dsimp only at h
          generalize Filegetter.toSize _ = number at h
          obtain rfl := Except.ok.inj h
          obtain ⟨read, hread⟩ : ∃ read,
              read = fg.announced (fg.bufReadOffset + content + twoCrlf.length)
            number := ⟨_, rfl⟩
          have hsame : SameErrand fg read := hread ▸ ⟨rfl, rfl, rfl⟩
          have hincoming : read.incoming = fg.incoming := hread ▸ rfl
          have hcourse := Course.trans hsame hincoming (course_checkDownload read around)
          rw [hread] at hcourse
          exact hcourse

/-- A call of `recv` keeps the errand, and has received something if the getter goes on. -/
structure Heard (fg : Filegetter) (next : Next) : Prop where
  errand : SameErrand fg next.getter
  ends : next = .return fg .errWouldblock ∨ next.Ends
  progress : ∀ fg', next = .call fg' → fg'.incoming.length < fg.incoming.length

theorem heard_die {errcode : GetterCode} :
    Heard fg ({ fg with errcode := errcode } : Filegetter).die :=
  ⟨⟨rfl, rfl, rfl⟩, .inr (.inr ⟨rfl, rfl⟩), fun fg' h => by cases h⟩

/-- What is received is heard. -/
theorem Listens.heard (h : Listens fg) {next : Next} (hresult : fg.receive call = .ok next) :
    Heard fg next := by
  unfold Filegetter.receive at hresult
  cases hrecv : call.answer.recv fg.incoming (bufSize - fg.buf.length) with
  | error errno =>
    rw [hrecv] at hresult
    obtain rfl := Except.ok.inj hresult
    unfold Filegetter.ioError
    split_ifs
    · exact ⟨SameErrand.refl fg, .inl rfl, fun fg' h => by cases h⟩
    · exact heard_die
  | ok bytes =>
    rw [hrecv] at hresult
    cases bytes with
    | nil =>
      obtain rfl := Except.ok.inj hresult
      exact heard_die
    | cons b bs =>
      dsimp only at hresult
      have hstate : (fg.received (b :: bs)).state = fg.nextstate := rfl
      have hsame : SameErrand fg (fg.received (b :: bs)) := ⟨rfl, rfl, rfl⟩
      have hless : (fg.received (b :: bs)).incoming.length < fg.incoming.length := by
        have hle := (Answer.prefix_of_recv_eq_ok hrecv).length_le
        show (fg.incoming.drop (b :: bs).length).length < fg.incoming.length
        rw [List.length_drop]
        simp only [List.length_cons] at hle ⊢
        omega
      have hcourse : Course (fg.received (b :: bs)) next := by
        unfold Filegetter.proceed at hresult
        rcases h.nextstate with hnext | hnext
        · simp only [hstate, hnext] at hresult
          exact course_replyHttp hresult
        · simp only [hstate, hnext] at hresult
          obtain rfl := Except.ok.inj hresult
          exact course_checkDownload (fg.received (b :: bs)) call.around
      refine ⟨hsame.trans hcourse.errand, .inr hcourse.ends, fun fg' hcall => ?_⟩
      have hincoming := hcourse.incoming
      rw [hcall] at hincoming
      exact (congrArg List.length hincoming).trans_lt hless

/-- A download that ends with a reply leaves the getter ready for the next one. -/
theorem Listens.spec_of_return (h : Listens fg) {code : GetterCode}
    (hresult : fg.receive call = .ok (.return fg' code)) (hblock : code ≠ .errWouldblock)
    (hfatal : code ≠ .errFatal) : fg'.state = .spec := by
  rcases (h.heard hresult).ends with hreturn | ⟨hstate, -⟩ | ⟨-, hcode⟩
  · cases hreturn
    exact absurd rfl hblock
  · exact hstate
  · exact absurd hcode hfatal

/-! ## The line of a 404 reply -/

/-- `count` bytes of a 404 reply have arrived, which is not all of it. -/
structure InRefusal (fg : Filegetter) (count : ℕ) : Prop where
  state : fg.state = .receive
  nextstate : fg.nextstate = .replyHttp
  sockd : fg.sockd ≠ 0
  bufReadOffset : fg.bufReadOffset = 0
  buf : fg.buf = http404.take count
  incoming : fg.incoming = http404.drop count
  count_lt : count < http404.length

/-- A part of the line is not the whole line, and holds no empty line. -/
theorem strcasestr_of_partOf_http404 (hcount : count < http404.length) :
    strcasestr http404 (http404.take count) = none ∧
    strcasestr twoCrlf (http404.take count) = none := by
  have hlength : (http404.take count).length = count := by
    rw [List.length_take]
    omega
  have hwhole : strcasestr twoCrlf http404 = none := by decide
  constructor
  · cases hfound : strcasestr http404 (http404.take count) with
    | none => rfl
    | some i =>
      have hfits := add_length_le_of_strcasestr hfound
      omega
  · cases hfound : strcasestr twoCrlf (http404.take count) with
    | none => rfl
    | some i =>
      have hsome := strcasestr_append_of_some hfound (http404.drop count)
      rw [List.take_append_drop, hwhole] at hsome
      cases hsome

/-- One `recv` while a 404 reply arrives. -/
theorem InRefusal.receive (h : InRefusal fg count) (k : ℕ) (around : Surroundings) :
    (∃ fg' count', fg.receive { answer := .ready k, around := around } = .ok (.call fg') ∧
        InRefusal fg' count') ∨
      ∃ fg', fg.receive { answer := .ready k, around := around } = .ok (.return fg' .err404) ∧
        fg'.incoming = [] := by
  have hcount := h.count_lt
  have hline : http404.length = 24 := by decide
  have hincoming : fg.incoming ≠ [] := by
    rw [h.incoming, ne_eq, List.drop_eq_nil_iff]
    omega
  have hlength : fg.buf.length = count := by
    rw [h.buf, List.length_take]
    omega
  have hsize : bufSize = 51200 := rfl
  obtain ⟨m, hm⟩ : ∃ m, m = min (k + 1) (bufSize - fg.buf.length) := ⟨_, rfl⟩
  obtain ⟨fg', hfg'⟩ : ∃ fg', fg' = fg.received (fg.incoming.take m) := ⟨_, rfl⟩
  have hbuf : fg'.buf = http404.take (min (count + m) http404.length) := by
    rw [hfg']
    show fg.buf ++ fg.incoming.take m = _
    rw [h.buf, h.incoming, ← List.take_add, ← List.take_eq_take_min]
  have hrest : fg'.incoming = http404.drop (min (count + m) http404.length) := by
    rw [hfg']
    show fg.incoming.drop (fg.incoming.take m).length = _
    rw [List.length_take, h.incoming, List.length_drop, List.drop_drop]
    congr 1
    omega
  obtain ⟨count', hcount'⟩ : ∃ count', count' = min (count + m) http404.length := ⟨_, rfl⟩
  rw [← hcount'] at hbuf hrest
  have hstep : fg.receive { answer := .ready k, around := around } = fg'.replyHttp around := by
    rw [receive_ready hincoming (by omega), ← hm, ← hfg']
    have hstate : fg'.state = .replyHttp := hfg' ▸ h.nextstate
    simp only [Filegetter.proceed, hstate]
  have hoffset : fg'.bufReadOffset = 0 := hfg' ▸ h.bufReadOffset
  have hsockd : fg'.sockd ≠ 0 := hfg' ▸ h.sockd
  have htext : cString (fg'.buf.drop fg'.bufReadOffset) = http404.take count' := by
    have hno : ∀ b ∈ http404, b ≠ 0 := forall_mem_of_all (by decide)
    rw [hoffset, List.drop_zero, hbuf]
    exact cString_eq_self fun b hb => hno b (List.mem_of_mem_take hb)
  have hroom : ¬fg'.buf.length ≥ bufSize := by
    rw [hbuf, List.length_take]
    omega
  rw [hstep]
  unfold Filegetter.replyHttp
  simp only [htext, if_neg hroom]
  by_cases hall : count' < http404.length
  · obtain ⟨h404, hempty⟩ := strcasestr_of_partOf_http404 hall
    refine .inl ⟨{ fg' with state := .receive, nextstate := .replyHttp }, count', ?_, ?_⟩
    · rw [h404, hempty]
      cases strcasestr http200 (http404.take count') <;> rfl
    · exact ⟨rfl, rfl, hsockd, hoffset, hbuf, hrest, hall⟩
  · have hwhole : http404.take count' = http404 := List.take_of_length_le (by omega)
    have h404 : strcasestr http404 http404 = some 0 := by decide
    rw [hwhole, h404]
    refine .inr ⟨_, rfl, ?_⟩
    show fg'.incoming = []
    rw [hrest, List.drop_eq_nil_iff]
    omega

/-! ## A whole activation -/

/-- The getter is receiving the reply for a file, or a 404 reply. -/
inductive Hears : Option Bytes → Filegetter → Prop
  | refusal {fg : Filegetter} (count : ℕ) (inRefusal : InRefusal fg count) : Hears none fg
  | header {fg : Filegetter} {body : Bytes} (count : ℕ) (inHeader : InHeader fg body count) :
      Hears (some body) fg
  | body {fg : Filegetter} {body : Bytes} (count : ℕ) (inBody : InBody fg body count) :
      Hears (some body) fg

/-- A `recv` that does not write behind the buffer leaves room in it. -/
theorem InHeader.lt_of_receive (h : InHeader fg body count) (hbody : body.length < 2 ^ 31) {k : ℕ}
    {next : Next} (hresult : fg.receive { answer := .ready k, around := around } = .ok next) :
    arrived (http200Reply body).length count k < bufSize := by
  obtain ⟨fg', hreceive, -, -, hbuf, -⟩ := h.received hbody around k
  rw [hreceive] at hresult
  have hle : arrived (http200Reply body).length count k ≤ min bufSize (http200Reply body).length :=
    Nat.min_le_right _ _
  have hlength : fg'.buf.length = arrived (http200Reply body).length count k := by
    rw [hbuf, List.length_take]
    omega
  unfold Filegetter.replyHttp at hresult
  split_ifs at hresult with hfull
  omega

/-- The text up to its first NUL holds the line of a 404 reply. -/
def LooksMissing (body : Bytes) : Prop := strcasestr http404 (cString body) ≠ none

instance : DecidablePred LooksMissing := fun body => by
  unfold LooksMissing
  infer_instance

/-- What an activation reports of a reply. -/
inductive Reports (reply : Option Bytes) (fg : Filegetter) : GetterCode → Prop
  | waits (hears : Hears reply fg) : Reports reply fg .errWouldblock
  | complete (body : Bytes) (reply_eq : reply = some body) (state : fg.state = .spec)
      (downloaded : Downloaded fg body) : Reports reply fg .ok200
  | refused (reply_eq : reply = none) (state : fg.state = .spec) (incoming : fg.incoming = []) :
      Reports reply fg .err404
  | mistaken (body : Bytes) (reply_eq : reply = some body) (state : fg.state = .spec)
      (looksMissing : LooksMissing body) : Reports reply fg .err404
  | fatal (state : fg.state = .idle) : Reports reply fg .errFatal

/-- Where a state leads to while a reply arrives. -/
def Next.Reports (reply : Option Bytes) : Next → Prop
  | .call fg => Hears reply fg
  | .return fg code => FileTransfer.Reports reply fg code

/-- A beginning of the text up to its first NUL is a beginning of the text. -/
theorem cString_prefix_append (a x : Bytes) : cString a <+: cString (a ++ x) := by
  unfold cString
  rw [List.takeWhile_append]
  split
  · exact (List.takeWhile_prefix _).trans (List.prefix_append _ _)
  · exact List.prefix_rfl

/-- A text that begins with one that holds the line of a 404 reply holds it. -/
theorem LooksMissing.of_take {n : ℕ} (h : LooksMissing (body.take n)) : LooksMissing body := by
  obtain ⟨i, hi⟩ := Option.ne_none_iff_exists'.mp h
  obtain ⟨t, ht⟩ := cString_prefix_append (body.take n) (body.drop n)
  rw [List.take_append_drop] at ht
  unfold LooksMissing
  rw [← ht, strcasestr_append_of_some hi t]
  simp

variable {reply : Option Bytes} {next : Next}

/-- A getter that hears a reply listens. -/
theorem Hears.listens (h : Hears reply (fg.after rest)) : Listens fg := by
  cases h with
  | refusal count h => exact ⟨h.state, .inl h.nextstate⟩
  | header count h => exact ⟨h.state, .inl h.nextstate⟩
  | body count h => exact ⟨h.state, .inr h.nextstate⟩

/-- One `recv` of a getter to which all of the reply has been sent. -/
theorem Hears.receive_ready (h : Hears reply fg)
    (hsmall : ∀ body, reply = some body → body.length < 2 ^ 31)
    (hlistens : Listens fg) (k : ℕ) (hok : around.fwriteOk = true)
    (hresult : fg.receive { answer := .ready k, around := around } = .ok next) :
    next.Reports reply := by
  -- the download of a body goes on or is complete
  have hgoes : ∀ {body next'}, reply = some body →
      fg.receive { answer := .ready k, around := around } = .ok next' → Goes body next' →
      next.Reports reply := by
    rintro body next' rfl hnext hgoes
    obtain rfl := Except.ok.inj (hresult.symm.trans hnext)
    cases next with
    | call fg' =>
      obtain ⟨count', hbody⟩ := hgoes
      exact .body count' hbody
    | «return» fg' code =>
      obtain ⟨rfl, hdownloaded⟩ := hgoes
      exact .complete body rfl (hlistens.spec_of_return hresult (by simp) (by simp)) hdownloaded
  cases h with
  | refusal count h =>
    rcases h.receive k around with ⟨fg', count', hcall, hrefusal⟩ | ⟨fg', hreturn, hincoming⟩
    · obtain rfl := Except.ok.inj (hresult.symm.trans hcall)
      exact .refusal count' hrefusal
    · obtain rfl := Except.ok.inj (hresult.symm.trans hreturn)
      exact .refused rfl (hlistens.spec_of_return hresult (by simp) (by simp)) hincoming
  | @body _ body count h =>
    obtain ⟨next', hnext, hnext'⟩ := h.receive k hok
    exact hgoes rfl hnext hnext'
  | @header _ body count h =>
    have hbody := hsmall body rfl
    have hreceive := h.receive hbody k hok
    dsimp only at hreceive
    split_ifs at hreceive with hcomplete
    · obtain ⟨hclean, hdirty⟩ := hreceive
      by_cases hcut : CleanCut body (arrived (http200Reply body).length count k)
      · obtain ⟨next', hnext, hnext'⟩ := hclean hcut
        exact hgoes rfl hnext hnext'
      · have hfails := hdirty hcut
        rw [hresult] at hfails
        cases next with
        | call fg' => exact absurd hfails id
        | «return» fg' code =>
          obtain rfl : code = .err404 := hfails
          have hroom := h.lt_of_receive hbody hresult
          have hlooks : LooksMissing body := by
            by_contra hnot
            refine hcut ⟨hroom, ?_⟩
            by_contra hfound
            exact hnot (LooksMissing.of_take hfound)
          exact .mistaken body rfl (hlistens.spec_of_return hresult (by simp) (by simp)) hlooks
    · obtain ⟨fg', hcall, hheader⟩ := hreceive
      obtain rfl := Except.ok.inj (hresult.symm.trans hcall)
      exact .header _ hheader

/-- One `recv` of a getter while `rest` is still at the server. -/
theorem Hears.receive (h : Hears reply (fg.after rest))
    (hsmall : ∀ body, reply = some body → body.length < 2 ^ 31)
    (hresult : fg.receive call = .ok next) :
    (next.after rest).Reports reply := by
  have hfatal : Fatal (fg.receive call) → (next.after rest).Reports reply := by
    rintro ⟨fg', hdie, hstate⟩
    obtain rfl := Except.ok.inj (hresult.symm.trans hdie)
    exact FileTransfer.Reports.fatal hstate
  have hlistens : Listens (fg.after rest) := ⟨h.listens.state, h.listens.nextstate⟩
  rcases receive_after h.listens call rest with hblock | hdie | ⟨k, hafter⟩
  · obtain rfl := Except.ok.inj (hresult.symm.trans hblock)
    exact FileTransfer.Reports.waits h
  · exact hfatal hdie
  · rw [hresult] at hafter
    rcases receive_writable hlistens call.around k with ⟨fg', hdie, hstate⟩ | hsame
    · have hnext : next.after rest = .return fg' .errFatal := Except.ok.inj (hafter.symm.trans hdie)
      rw [hnext]
      exact FileTransfer.Reports.fatal hstate
    · rw [hsame] at hafter
      exact h.receive_ready hsmall hlistens k rfl hafter

/-- An activation while a reply arrives: what it reports is so, whatever the environment does. By
induction on the calls of `recv`; the reply goes on arriving until one ends the activation. -/
theorem Hears.callLoop {calls : List Call} {code : GetterCode} (h : Hears reply (fg.after rest))
    (hsmall : ∀ body, reply = some body → body.length < 2 ^ 31)
    (hresult : fg.callLoop calls = .ok (fg', code)) :
    Reports reply (fg'.after rest) code ∧ SameErrand fg fg' := by
  induction calls generalizing fg with
  | nil =>
    obtain ⟨rfl, rfl⟩ := Prod.mk.inj (Except.ok.inj hresult)
    exact ⟨.waits h, SameErrand.refl fg⟩
  | cons call calls ih =>
    rw [callLoop_cons h.listens.state] at hresult
    cases hreceive : fg.receive call with
    | error fault =>
      rw [hreceive] at hresult
      cases hresult
    | ok next =>
      rw [hreceive] at hresult
      have hreports := h.receive hsmall hreceive
      have hsame := (h.listens.heard hreceive).errand
      cases next with
      | call fg₁ =>
        obtain ⟨hreports', hsame'⟩ := ih hreports hresult
        exact ⟨hreports', hsame.trans hsame'⟩
      | «return» fg₁ code₁ =>
        obtain ⟨rfl, rfl⟩ := Prod.mk.inj (Except.ok.inj hresult)
        exact ⟨hreports, hsame⟩

end ShadowExtras.FileTransfer
