import Mathlib.Data.Prod.Lex
import ShadowExtras.Foundation.Ranking
import ShadowExtras.Web.HandlerDeletion

/-!
# Sending to a client ends

`send_to_client` jumps between filling `outbuf_`, writing it to the socket and parsing more input. A
step inside a call makes progress in one of these, compared in this order: bytes of `inbuf_`,
requests in the queue, the header of the response at the front, bytes left of its file, whether
`write` would block, and bytes of `outbuf_`; or it only goes on in the code. How far the code can go
on without any of these depends on whether it is about to write: `rank` is the distance.

So a call returns unless the program ends in it: for an assertion on a request or on its file, or
for the log of a write that fails when no request is in the queue. The counter `count` is no such
assertion, since no two rounds in a row go by without reading or writing.
-/

namespace ShadowExtras.Web

open Foundation

namespace HandlerMachine

variable {files : Files} {s s' : Handler} {m m' : HandlerMachine} {c : Choice} {l : Locals}

/-! ## Calls -/

/-- The beginning of a call of `send_to_client`. -/
def call (s : Handler) : HandlerMachine :=
  ⟨s, .addMore { sendWouldBlock := false, count := 0, runningNumWritten := 0 }⟩

/-- What the surroundings decide in a call fits the place: space is reserved where the file is read,
and extents are given where there is something to write. -/
def Fits (m : HandlerMachine) (c : Choice) : Prop :=
  match m.label, c with
  | .processInbuf (.recv _), _ => False
  | .processInbuf _, .go | .addMore _, .go | .check _, .go | .fill _, .go | .sendMore _, .go => True
  | .body _, .reserve sizes => Reserves (2 * 4096) sizes
  | .drain l, .write extents =>
    (m.handler.outbuf ≠ [] ∧ l.sendWouldBlock = false) ∧
      Peeks m.handler.outbuf (extents.map Prod.fst)
  | .drain l, .go => ¬(m.handler.outbuf ≠ [] ∧ l.sendWouldBlock = false)
  | _, _ => False

/-! ## Progress -/

/-- The next thing to do is to write. -/
def Writes (s : Handler) (l : Locals) : Prop := s.outbuf ≠ [] ∧ l.sendWouldBlock = false

/-- A response is begun or goes on, but `outbuf_` is full and cannot be written. -/
def Blocked (s : Handler) (l : Locals) : Prop :=
  s.submittedReqQueue ≠ [] ∧ readHighWaterMark ≤ s.outbuf.length ∧ l.sendWouldBlock = true

instance (s : Handler) (l : Locals) : Decidable (Writes s l) := inferInstanceAs (Decidable (_ ∧ _))

instance (s : Handler) (l : Locals) : Decidable (Blocked s l) := inferInstanceAs (Decidable (_ ∧ _))

/-- The local variables at a place of `send_to_client`. -/
def locals : Label → Option Locals
  | .addMore l | .check l | .fill l | .body l | .sendMore l | .drain l => some l
  | .processInbuf (.addMore l) | .processInbuf (.response l) => some l
  | _ => none

/-- The distance from the head of the loop that fills `outbuf_` to reading or writing. -/
def rankFill (s : Handler) (l : Locals) : ℕ := if Blocked s l then 9 else 3

/-- The distance from the loop that drains `outbuf_` to reading or writing. -/
def rankDrain (s : Handler) (l : Locals) : ℕ :=
  if s.submittedReqQueue ≠ [] ∧ ¬Writes s l then 7 else 1

/-- How far the code can go on without any progress. -/
def rank (s : Handler) : Label → ℕ
  | .processInbuf (.response _) => 10
  | .fill l => rankFill s l
  | .sendMore l => rankDrain s l + 1
  | .drain l => rankDrain s l
  | .addMore _ => 6
  | .processInbuf (.addMore _) => 5
  | .check _ => 4
  | .body _ => 2
  | .processInbuf .done => 1
  | _ => 0

/-- May `write` still be called? -/
def unblocked (label : Label) : ℕ :=
  match locals label with
  | some l => if l.sendWouldBlock then 0 else 1
  | none => 0

/-- Is the header of the response at the front still to be written? -/
def headerLeft (s : Handler) : ℕ := if s.httpRspState = .metadata then 1 else 0

/-- The bytes left of the file of the response at the front. -/
def fileLeft (s : Handler) : ℕ := (s.activeFd.getD []).length

/-- What is left of a call. -/
def remaining (m : HandlerMachine) : ℕ ×ₗ ℕ ×ₗ ℕ ×ₗ ℕ ×ₗ ℕ ×ₗ ℕ ×ₗ ℕ :=
  toLex (m.handler.inbuf.length, toLex (m.handler.submittedReqQueue.length,
    toLex (headerLeft m.handler, toLex (fileLeft m.handler, toLex (unblocked m.label,
      toLex (m.handler.outbuf.length, rank m.handler m.label))))))

/-- The file of the request at the front is read only for a response that has begun. -/
def Begun (m : HandlerMachine) : Prop :=
  ∀ l, m.label = .body l → m.handler.submittedReqQueue ≠ [] ∧ m.handler.httpRspState = .body

/-- A step of a call makes progress. -/
def Progress (m m' : HandlerMachine) : Prop := Begun m' ∧ remaining m' < remaining m

/-- The part of the state that is progressed in. -/
def work (s : Handler) :=
  (s.inbuf, s.submittedReqQueue, s.httpRspState, s.activeFd, s.outbuf)

/-! ## Steps -/

/-- What is left gets less in the first component that changes. -/
theorem remaining_lt_iff :
    remaining m' < remaining m ↔
      m'.handler.inbuf.length < m.handler.inbuf.length ∨
      m'.handler.inbuf.length = m.handler.inbuf.length ∧
        (m'.handler.submittedReqQueue.length < m.handler.submittedReqQueue.length ∨
        m'.handler.submittedReqQueue.length = m.handler.submittedReqQueue.length ∧
          (headerLeft m'.handler < headerLeft m.handler ∨
          headerLeft m'.handler = headerLeft m.handler ∧
            (fileLeft m'.handler < fileLeft m.handler ∨
            fileLeft m'.handler = fileLeft m.handler ∧
              (unblocked m'.label < unblocked m.label ∨
              unblocked m'.label = unblocked m.label ∧
                (m'.handler.outbuf.length < m.handler.outbuf.length ∨
                m'.handler.outbuf.length = m.handler.outbuf.length ∧
                  rank m'.handler m'.label < rank m.handler m.label))))) := by
  simp only [remaining, Prod.Lex.toLex_lt_toLex]

/-- The code goes on. -/
theorem remaining_lt_of_rank (hwork : work m'.handler = work m.handler)
    (hunblocked : unblocked m'.label ≤ unblocked m.label)
    (hrank : rank m'.handler m'.label < rank m.handler m.label) : remaining m' < remaining m := by
  simp only [work, Prod.mk.injEq] at hwork
  obtain ⟨hinbuf, hqueue, hstate, hfd, houtbuf⟩ := hwork
  rw [remaining_lt_iff, headerLeft, headerLeft, fileLeft, fileLeft, hinbuf, hqueue, hstate, hfd,
    houtbuf]
  omega

/-- A call of `process_inbuf_` that finds no line only returns. -/
theorem processInbuf_progress {next : After} (hnext : ∀ noMore, next ≠ .recv noMore)
    (h : processInbuf s next = .ok m') : Progress ⟨s, .processInbuf next⟩ m' := by
  unfold HandlerMachine.processInbuf Handler.processInbuf at h
  cases ht : s.extractRequest with
  | error f => simp [ht] at h
  | ok r =>
    obtain ⟨t, want⟩ := r
    simp only [ht] at h
    obtain rfl := Except.ok.inj h
    constructor
    · intro l hl
      cases next <;> simp [returnTo] at hl hnext
    · by_cases hline : IsLine s.inbuf
      · rw [Handler.extractRequest_of_isLine hline] at ht
        obtain ⟨rfl, rfl⟩ := Prod.mk.inj (Except.ok.inj ht)
        apply remaining_lt_of_rank
        · rfl
        · cases next with
          | recv noMore => exact absurd rfl (hnext noMore)
          | addMore l => exact le_rfl
          | response l => exact le_rfl
          | done => exact le_rfl
        · cases next with
          | recv noMore => exact absurd rfl (hnext noMore)
          | addMore l => simp [returnTo, rank]
          | response l =>
            simp only [returnTo, rank, rankFill]
            split_ifs
            · omega
            · omega
          | done => simp [returnTo, rank]
      · rw [remaining_lt_iff]
        have hshorter := Handler.extractRequest_of_not_isLine hline ht
        exact .inl hshorter

/-- The code goes on behind `add_more`. -/
theorem addMore_progress : Progress ⟨s, .addMore l⟩ (addMore s l) := by
  unfold addMore
  dsimp only
  split_ifs
  · exact ⟨nofun, remaining_lt_of_rank rfl le_rfl (by simp [rank])⟩
  · exact ⟨nofun, remaining_lt_of_rank rfl le_rfl (by simp [rank])⟩

/-- Before `outbuf_` is filled, it is not full or can be written. -/
theorem check_progress (h : check s l = .ok m') : Progress ⟨s, .check l⟩ m' := by
  unfold check at h
  split_ifs at h with hcount hempty hfull
  · obtain rfl := Except.ok.inj h
    exact ⟨nofun, remaining_lt_of_rank rfl (Nat.zero_le _) (by simp [rank])⟩
  · obtain rfl := Except.ok.inj h
    exact ⟨nofun, remaining_lt_of_rank rfl (Nat.zero_le _) (by simp [rank])⟩
  · obtain rfl := Except.ok.inj h
    have hnot : ¬Blocked s l := fun hblocked => hfull hblocked.2
    exact ⟨nofun,
      remaining_lt_of_rank rfl le_rfl (by simp [rank, rankFill, hnot])⟩

/-- When nothing is put into `outbuf_` for a request, it is written unless it is full and
blocked. -/
theorem rank_sendMore_lt {l' : Locals} (hblock : l'.sendWouldBlock = l.sendWouldBlock)
    (hstop : s.submittedReqQueue = [] ∨ Blocked s l ∨ Writes s l) :
    rank s (.sendMore l') < rank s (.fill l) := by
  have hwrites : Writes s l' ↔ Writes s l := by rw [Writes, Writes, hblock]
  simp only [rank, rankDrain, rankFill, hwrites]
  rcases hstop with hqueue | hblocked | hw
  · rw [if_neg fun h => h.1 hqueue]
    split_ifs <;> omega
  · rw [if_pos hblocked]
    split_ifs <;> omega
  · rw [if_neg fun h => h.2 hw]
    split_ifs <;> omega

/-- A full `outbuf_` is written unless it is blocked. -/
theorem writes_of_full (hfull : readHighWaterMark ≤ s.outbuf.length)
    (hblock : ¬l.sendWouldBlock = true) :
    Writes s l := by
  refine ⟨?_, by simpa using hblock⟩
  rintro hnil
  simp [hnil, readHighWaterMark] at hfull

/-- A round that fills `outbuf_` begins a response or goes on. -/
theorem fill_progress (h : fill files s l = .ok m') : Progress ⟨s, .fill l⟩ m' := by
  unfold fill at h
  cases hqueue : s.submittedReqQueue with
  | nil =>
    simp only [hqueue] at h
    obtain rfl := Except.ok.inj h
    exact ⟨nofun,
      remaining_lt_of_rank rfl le_rfl (rank_sendMore_lt rfl (.inl hqueue))⟩
  | cons req reqs =>
    simp only [hqueue] at h
    have hne : s.submittedReqQueue ≠ [] := by simp [hqueue]
    by_cases hfull : readHighWaterMark ≤ s.outbuf.length
    · rw [if_pos hfull] at h
      obtain rfl := Except.ok.inj h
      refine ⟨nofun, remaining_lt_of_rank rfl le_rfl (rank_sendMore_lt rfl (.inr ?_))⟩
      by_cases hblock : l.sendWouldBlock = true
      · exact .inl ⟨hne, hfull, hblock⟩
      · exact .inr (writes_of_full hfull hblock)
    rw [if_neg hfull] at h
    by_cases hsome : 1 < s.outbuf.length ∧ (!l.sendWouldBlock) = true
    · rw [if_pos hsome] at h
      obtain rfl := Except.ok.inj h
      have hw : Writes s l := by
        refine ⟨?_, by simpa using hsome.2⟩
        rintro hnil
        simp [hnil] at hsome
      exact ⟨nofun, remaining_lt_of_rank rfl le_rfl (rank_sendMore_lt rfl (.inr (.inr hw)))⟩
    · rw [if_neg hsome] at h
      cases hstate : s.httpRspState with
      | metadata =>
        simp only [hstate] at h
        cases ht : s.responseMeta files req with
        | error f => simp [ht] at h
        | ok t =>
          simp only [ht] at h
          obtain rfl := Except.ok.inj h
          obtain ⟨head, -, -, rfl⟩ := Handler.responseMeta_spec ht
          constructor
          · intro _ _
            exact ⟨hne, rfl⟩
          · rw [remaining_lt_iff]
            exact .inr ⟨rfl, .inr ⟨rfl, .inl (by simp [headerLeft, hstate])⟩⟩
      | body =>
        simp only [hstate] at h
        obtain rfl := Except.ok.inj h
        have hnot : ¬Blocked s l := fun hblocked => hfull hblocked.2.1
        refine ⟨fun _ _ => ⟨hne, hstate⟩, remaining_lt_of_rank rfl le_rfl ?_⟩
        simp [rank, rankFill, hnot]

/-- A pass over reserved space reads something, unless it comes to the end of the file. -/
theorem got_ne_nil_of_readLoop {expected n : ℕ} {sizes : List ℕ} {rest got rest' : Bytes}
    (hsizes : ∀ size ∈ sizes, 0 < size) (hne : sizes ≠ [])
    (h : Handler.readLoop expected sizes rest n = .ok (got, rest', false)) : got ≠ [] := by
  cases sizes with
  | nil => exact absurd rfl hne
  | cons size sizes =>
    unfold Handler.readLoop at h
    dsimp only at h
    split_ifs at h with hnil hshort hexpected
    · simp at h
    · simp at h
    · split at h
      · cases h
      · simp only [Except.ok.injEq, Prod.mk.injEq] at h
        obtain ⟨rfl, -, -⟩ := h
        simp [hnil]

/-- A pass over a file reads something or ends the response. -/
theorem body_progress {sizes : List ℕ} (hqueue : s.submittedReqQueue ≠ [])
    (hsizes : Reserves (2 * 4096) sizes) (h : body s l sizes = .ok m') :
    Progress ⟨s, .body l⟩ m' := by
  have hpos := hsizes.2.1
  have hne : sizes ≠ [] := by
    rintro rfl
    simpa using hsizes.2.2
  unfold HandlerMachine.body at h
  rw [if_neg (not_not.mpr hsizes)] at h
  cases hfd : s.activeFd with
  | none => simp [hfd] at h
  | some rest =>
    simp only [hfd] at h
    cases hloop :
      Handler.readLoop s.numRespBodyBytesExpectedToSend sizes rest s.numBodyBytesRead with
    | error f => simp [hloop] at h
    | ok r =>
      obtain ⟨got, rest', done⟩ := r
      simp only [hloop] at h
      split_ifs at h with hdone
      · -- the request at the front is answered
        obtain rfl := Except.ok.inj h
        refine ⟨nofun, ?_⟩
        rw [remaining_lt_iff]
        have hshorter : s.submittedReqQueue.tail.length < s.submittedReqQueue.length := by
          have := List.length_pos_iff.mpr hqueue
          rw [List.length_tail]
          omega
        exact .inr ⟨rfl, .inl hshorter⟩
      · obtain rfl := Except.ok.inj h
        refine ⟨nofun, ?_⟩
        rw [Bool.not_eq_true] at hdone
        subst hdone
        have hgot := got_ne_nil_of_readLoop hpos hne hloop
        obtain ⟨rfl, -⟩ := readLoop_spec hpos hloop
        have hlength := List.length_pos_iff.mpr hgot
        rw [remaining_lt_iff]
        refine .inr ⟨rfl, .inr ⟨rfl, .inr ⟨rfl, .inl ?_⟩⟩⟩
        simpa [fileLeft, hfd] using hlength

/-- A pass over the extents writes something, or `write` would block or fails. -/
theorem bytes_ne_nil_of_writeLoop {extents : List (ℕ × WriteResult)} {buf : Bytes} (hbuf : buf ≠ [])
    (hpos : ∀ size ∈ extents.map Prod.fst, 0 < size) (hne : extents ≠ [])
    (herror : (writeLoop extents buf).error = false)
    (hblock : (writeLoop extents buf).sendWouldBlock = false) :
    (writeLoop extents buf).bytes ≠ [] := by
  cases extents with
  | nil => exact absurd rfl hne
  | cons extent extents =>
    obtain ⟨size, result⟩ := extent
    cases result with
    | wouldBlock => simp [writeLoop] at hblock
    | error => simp [writeLoop] at herror
    | wrote n =>
      have hsize : 0 < size := hpos size (by simp)
      simp only [writeLoop] at hblock ⊢
      split_ifs at hblock ⊢ with hshort
      rintro hnil
      obtain ⟨hwrote, -⟩ := List.append_eq_nil_iff.mp hnil
      have hfull : buf.take size = [] := by
        rw [not_not, hwrote] at hshort
        exact List.length_eq_zero_iff.mp hshort.symm
      rcases List.take_eq_nil_iff.mp hfull with h | h
      · omega
      · exact hbuf h

/-- A write makes progress. -/
theorem drain_progress_of_writes {extents : List (ℕ × WriteResult)} (hwrites : Writes s l)
    (hpeeks : Peeks s.outbuf (extents.map Prod.fst)) :
    Progress ⟨s, .drain l⟩ (drained s l extents) := by
  obtain ⟨houtbuf, hblock⟩ := hwrites
  have hne : extents ≠ [] := by
    rintro rfl
    obtain ⟨-, -, -, hall⟩ := hpeeks
    have hzero : 0 = s.outbuf.length := hall (by simp)
    exact houtbuf (List.length_eq_zero_iff.mp hzero.symm)
  unfold drained
  rw [if_pos ⟨houtbuf, by simpa using hblock⟩, if_neg (not_not.mpr hpeeks)]
  dsimp only
  have hopen : unblocked (.drain l) = 1 := by simp [unblocked, locals, hblock]
  split_ifs with herror
  · refine ⟨nofun, ?_⟩
    rw [remaining_lt_iff, hopen]
    exact .inr ⟨rfl, .inr ⟨rfl, .inr ⟨rfl, .inr ⟨rfl, .inl Nat.zero_lt_one⟩⟩⟩⟩
  · refine ⟨nofun, ?_⟩
    rw [remaining_lt_iff, hopen]
    refine .inr ⟨rfl, .inr ⟨rfl, .inr ⟨rfl, .inr ⟨rfl, ?_⟩⟩⟩⟩
    cases hwould : (writeLoop extents s.outbuf).sendWouldBlock with
    | true => exact .inl (by simp [unblocked, locals])
    | false =>
      have hbytes := bytes_ne_nil_of_writeLoop houtbuf hpeeks.2.1 hne (by simpa using herror) hwould
      refine .inr ⟨by simp [unblocked, locals], .inl ?_⟩
      have hlength := List.length_pos_iff.mpr hbytes
      have hpos := List.length_pos_iff.mpr houtbuf
      show (s.outbuf.drop (writeLoop extents s.outbuf).bytes.length).length < s.outbuf.length
      rw [List.length_drop]
      omega

/-- When nothing can be written, sending goes on only for requests in the queue. -/
theorem drain_progress_of_not_writes (hwrites : ¬Writes s l) (extents : List (ℕ × WriteResult)) :
    Progress ⟨s, .drain l⟩ (drained s l extents) := by
  unfold drained
  have hnot : ¬(s.outbuf ≠ [] ∧ (!l.sendWouldBlock) = true) := by simpa [Writes] using hwrites
  rw [if_neg hnot]
  split_ifs with hqueue
  · exact ⟨nofun, remaining_lt_of_rank rfl le_rfl (by simp [rank, rankDrain, hqueue, hwrites])⟩
  · exact ⟨nofun, remaining_lt_of_rank rfl (Nat.zero_le _) (by simp [rank, rankDrain, hqueue])⟩

/-- A step of a call that fits its place makes progress. -/
theorem step_progress (hbegun : Begun m) (hfits : Fits m c) (h : step files m c = .ok m') :
    Progress m m' := by
  obtain ⟨s, label⟩ := m
  cases label with
  | idle => exact False.elim hfits
  | readMore => exact False.elim hfits
  | processInbuf next =>
    cases next with
    | recv noMore => exact False.elim hfits
    | addMore l =>
      cases c with
      | go => exact processInbuf_progress nofun h
      | _ => exact False.elim hfits
    | response l =>
      cases c with
      | go => exact processInbuf_progress nofun h
      | _ => exact False.elim hfits
    | done =>
      cases c with
      | go => exact processInbuf_progress nofun h
      | _ => exact False.elim hfits
  | addMore l =>
    cases c with
    | go =>
      obtain rfl := Except.ok.inj h
      exact addMore_progress
    | _ => exact False.elim hfits
  | check l =>
    cases c with
    | go => exact check_progress h
    | _ => exact False.elim hfits
  | fill l =>
    cases c with
    | go => exact fill_progress h
    | _ => exact False.elim hfits
  | body l =>
    cases c with
    | reserve sizes => exact body_progress (hbegun l rfl).1 hfits h
    | _ => exact False.elim hfits
  | sendMore l =>
    cases c with
    | go =>
      obtain rfl := Except.ok.inj h
      exact ⟨nofun, remaining_lt_of_rank rfl le_rfl (Nat.lt_succ_self _)⟩
    | _ => exact False.elim hfits
  | drain l =>
    cases c with
    | go =>
      obtain rfl := drain_eq_ok h
      exact drain_progress_of_not_writes hfits []
    | write extents =>
      obtain rfl := drain_eq_ok h
      exact drain_progress_of_writes hfits.1 hfits.2
    | _ => exact False.elim hfits

/-- The faults that are left to a step of a call, each at its place: a check of `process_inbuf_`, a
check on the file of a request, or the log of a write that fails without a request. -/
def FaultsAt (m : HandlerMachine) (c : Choice) (f : HandlerFault) : Prop :=
  match m.label, c with
  | .processInbuf _, _ => InbufCheck f
  | .fill _, _ => f = .file ∨ f = .lastBytePos ∨ f = .activeFd
  | .body _, _ => f = .read ∨ f = .bodyBytes
  | .drain l, .write extents => f = .emptyFront ∧ FailsUnqueued m.handler l extents
  | _, _ => False

/-- The assertion on the counter holds. -/
theorem Counts.step_ne_count (hm : Counts m) : HandlerMachine.step files m c ≠ .error .count := by
  intro h
  cases step_fault h with
  | request next hlabel hcheck => exact hcheck
  | guard l hlabel hcount => exact absurd (hm.count_lt hlabel) (not_lt.mpr hcount)
  | file l hlabel hmeta hcheck => simp at hcheck
  | body l sizes rest hlabel hopened hread => exact absurd (readLoop_fault hread) (by simp)

/-- A step of a call that fits its place faults for a request, for its file or for its log. -/
theorem faultsAt_of_fits {f : HandlerFault} (hm : Counts m) (hfits : Fits m c)
    (h : step files m c = .error f) : FaultsAt m c f := by
  cases step_fault h with
  | received hlabel => simp [Fits, hlabel] at hfits
  | request next hlabel hcheck => simpa [FaultsAt, hlabel] using hcheck
  | guard l hlabel hcount => exact absurd (hm.count_lt hlabel) (not_lt.mpr hcount)
  | file l hlabel hmeta hcheck =>
    simpa [FaultsAt, hlabel] using hcheck.imp_right (Or.imp_right And.left)
  | unopened l hlabel => simp [FaultsAt, hlabel]
  | body l sizes rest hlabel hopened hread => simp [FaultsAt, hlabel, readLoop_fault hread]
  | log l extents hlabel hchoice hunqueued =>
    subst hchoice
    simpa [FaultsAt, hlabel] using hunqueued

/-! ## Runs -/

/-- What the surroundings decide fits every place of a call. -/
def FitsCall (files : Files) (s : Handler) (cs : ℕ → Choice) : Prop :=
  ∀ n m, runSteps (step files) (call s) (firstEvents cs n) = .ok m → m.label ≠ .idle → Fits m (cs n)

/-- A call of `send_to_client` ends, whatever its requests, files and buffers are and whatever is
written: after finitely many steps it returns, or the next step fails a check on a request or on its
file, or logs the request at the front of an empty queue for a write that fails. Its guard against
loops never fails, neither in this call nor in any later one. -/
theorem call_ends (files : Files) (s : Handler) (cs : ℕ → Choice) (hfits : FitsCall files s cs) :
    (∃ n m, runSteps (step files) (call s) (firstEvents cs n) = .ok m ∧
      (m.label = .idle ∨ ∃ f, step files m (cs n) = .error f ∧ FaultsAt m (cs n) f)) ∧
    ∀ cs, runSteps (step files) (call s) cs ≠ .error .count := by
  have hcall : Counts (call s) := .inl (Nat.zero_le _)
  have hbegun : Begun (call s) := by
    intro l hl
    cases hl
  refine ⟨?_, ?_⟩
  · obtain ⟨n, m, hrun, ⟨-, hcounts⟩, hends⟩ := exists_done_of_decreases (P := Fits) remaining
      (fun m => Begun m ∧ Counts m) (fun m => m.label = .idle)
      (by
        rintro m c m' ⟨hbegun, hcounts⟩ - hfit hstep
        obtain ⟨hbegun', hless⟩ := step_progress hbegun hfit hstep
        exact ⟨⟨hbegun', hcounts.step hstep⟩, hless⟩)
      ⟨hbegun, hcall⟩ hfits
    refine ⟨n, m, hrun, hends.imp_right ?_⟩
    rintro ⟨hnot, f, hfault⟩
    exact ⟨f, hfault, faultsAt_of_fits hcounts (hfits n m hrun hnot) hfault⟩
  · intro cs hrun
    refine fault_of_stepsMeet (P := fun _ _ => True) Counts (fun f => f ≠ .count) ?_ ?_ hcall
      (stepsMeet_of_forall_mem fun _ _ _ => trivial) hrun rfl
    · exact fun m c m' hm _ hstep => hm.step hstep
    · rintro m c f hm - hstep rfl
      exact hm.step_ne_count hstep

instance (m : HandlerMachine) (c : Choice) : Decidable (Fits m c) := by
  unfold Fits
  match m.label with
  | .idle | .readMore | .processInbuf (.recv _) =>
    match c with
    | .readable | .writable | .go | .recv _ | .reserve _ | .write _ => exact instDecidableFalse
  | .processInbuf (.addMore _) | .processInbuf (.response _) | .processInbuf .done | .addMore _ |
    .check _ | .fill _ | .sendMore _ =>
    match c with
    | .go => exact instDecidableTrue
    | .readable | .writable | .recv _ | .reserve _ | .write _ => exact instDecidableFalse
  | .body _ =>
    match c with
    | .reserve sizes => exact inferInstanceAs (Decidable (Reserves _ _))
    | .readable | .writable | .go | .recv _ | .write _ => exact instDecidableFalse
  | .drain _ =>
    match c with
    | .write extents => exact inferInstanceAs (Decidable (_ ∧ _))
    | .go => exact inferInstanceAs (Decidable ¬(_ ∧ _))
    | .readable | .writable | .recv _ | .reserve _ => exact instDecidableFalse

/-- A callback that has returned stays where it is until the next event. -/
theorem run_idle (files : Files) (s : Handler) (n : ℕ) :
    runSteps (step files) ⟨s, .idle⟩ (firstEvents (fun _ => .go) n) = .ok ⟨s, .idle⟩ := by
  induction n with
  | zero => rfl
  | succ n ih => rwa [firstEvents_succ, runSteps_cons_of_ok rfl]

/-- What fits every place of a run that returns fits the call. -/
theorem fitsCall_of_stepsMeet {cs : List Choice} (hfits : StepsMeet (step files) Fits (call s) cs)
    (hreturns : ∃ t, runSteps (step files) (call s) cs = .ok ⟨t, .idle⟩) :
    FitsCall files s fun n => cs.getD n .go := by
  intro n m hrun hlabel
  rcases lt_or_ge n cs.length with hlt | hge
  · have hsplit : cs = cs.take n ++ cs[n] :: cs.drop (n + 1) := by
      rw [List.getElem_cons_drop, List.take_append_drop]
    have hget : cs.getD n .go = cs[n] := by simp [hlt]
    rw [firstEvents_getD hlt.le] at hrun
    rw [hsplit] at hfits
    dsimp only
    rw [hget]
    exact (hfits.of_append_of_ok hrun).1
  · obtain ⟨t, ht⟩ := hreturns
    obtain ⟨k, rfl⟩ := Nat.exists_eq_add_of_le hge
    have hlater : (fun i => cs.getD (cs.length + i) Choice.go) = fun _ => .go := by
      funext i
      exact List.getD_eq_default _ _ (Nat.le_add_right _ _)
    rw [firstEvents_add, firstEvents_getD le_rfl, List.take_length, runSteps_append_of_ok ht,
      hlater, run_idle] at hrun
    obtain rfl := Except.ok.inj hrun
    exact absurd rfl hlabel

/-- A handler with a request in its queue. -/
def oneQueued : Handler :=
  { Handler.new [] with submittedReqQueue := [{ path := ascii "/a", firstBytePos := -1 }] }

/-- A file of three bytes. -/
def threeBytes : Files := fun path => if path = ascii "/a" then some (ascii "abc") else none

/-- Five bytes of the header are written, then `write` would block; the file is read behind the
rest. -/
def partWritten : List Choice :=
  [.go, .go, .go, .go, .write [(61, .wrote 5)], .go, .go, .go, .go, .reserve [8192], .go, .go, .go,
    .go]

theorem call_ends_partWritten :
    (∃ n m, runSteps (step threeBytes) (call oneQueued)
        (firstEvents (fun n => partWritten.getD n .go) n) = .ok m ∧
      (m.label = .idle ∨ ∃ f, step threeBytes m (partWritten.getD n .go) = .error f ∧
        FaultsAt m (partWritten.getD n .go) f)) ∧
    ∀ cs, runSteps (step threeBytes) (call oneQueued) cs ≠ .error .count :=
  call_ends threeBytes oneQueued (fun n => partWritten.getD n .go)
    (fitsCall_of_stepsMeet (by decide) ⟨_, rfl⟩)

/-- The file of the queued request does not exist. -/
theorem run_oneQueued (n : ℕ) :
    runSteps (step fun _ => none) (call oneQueued) (firstEvents (fun _ => .go) (n + 3)) =
      .error .file := by
  rw [firstEvents_succ, firstEvents_succ, firstEvents_succ, runSteps_cons_of_ok rfl,
    runSteps_cons_of_ok rfl, runSteps_cons_of_error rfl]

/-- A call does not return when the file of a request does not exist, though the assertion on the
length of the queue holds. -/
theorem not_returns_oneQueued :
    ¬∀ (files : Files) (s : Handler) (cs : ℕ → Choice), FitsCall files s cs →
      (∀ n, runSteps (step files) (call s) (firstEvents cs n) ≠ .error .pipeline) →
      ∃ n m, runSteps (step files) (call s) (firstEvents cs n) = .ok m ∧ m.label = .idle := by
  intro h
  have hrun : ∀ n, (∃ m, runSteps (step fun _ => none) (call oneQueued)
        (firstEvents (fun _ => .go) n) = .ok m ∧ Fits m .go ∧ m.label ≠ .idle) ∨
      runSteps (step fun _ => none) (call oneQueued) (firstEvents (fun _ => .go) n) =
        .error .file := by
    intro n
    match n with
    | 0 => exact .inl ⟨_, rfl, trivial, nofun⟩
    | 1 => exact .inl ⟨_, rfl, trivial, nofun⟩
    | 2 => exact .inl ⟨_, rfl, trivial, nofun⟩
    | n + 3 => exact .inr (run_oneQueued n)
  obtain ⟨n, m, hm, hlabel⟩ := h (fun _ => none) oneQueued (fun _ => .go)
    (by
      intro n m hm _
      rcases hrun n with ⟨m', hm', hfit, -⟩ | hfault
      · obtain rfl := Except.ok.inj (hm'.symm.trans hm)
        exact hfit
      · cases hfault.symm.trans hm)
    (by
      intro n hpipeline
      rcases hrun n with ⟨m', hm', -⟩ | hfault
      · cases hm'.symm.trans hpipeline
      · cases hfault.symm.trans hpipeline)
  rcases hrun n with ⟨m', hm', -, hnot⟩ | hfault
  · obtain rfl := Except.ok.inj (hm'.symm.trans hm)
    exact hnot hlabel
  · cases hfault.symm.trans hm

end HandlerMachine

end ShadowExtras.Web
