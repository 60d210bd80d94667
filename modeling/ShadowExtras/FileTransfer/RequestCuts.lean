import ShadowExtras.FileTransfer.RequestRoundTrip

/-!
# However a request is cut

The file server takes a request out of any number of `recv` results and decides on it in one of
three places: the buffer is full, the request is malformed, or it asks for a path. A request that
ends with its first empty line is decided on as `Decision.of` says, which knows nothing of the cuts:
a request that fits into the buffer is seen as a whole by the activation that receives its last byte
and by no earlier one, and of any other the buffer is full before the empty line arrives.
-/

namespace ShadowExtras.FileTransfer

open Foundation

/-! ## Decisions -/

/-- The text holds no NUL, and its first empty line is at its end. -/
structure EndsFirst (text : Bytes) : Prop where
  noNul : ∀ b ∈ text, b ≠ 0
  ends : twoCrlf <:+ text
  first : ∀ k < text.length, ¬twoCrlf <:+ text.take k

/-- What is decided on a request. -/
inductive Decision
  /-- `c->state = FS_REPLY_404_START` -/
  | notFound
  /-- `c->state = FS_REPLY_FILE_START` with `c->request.filepath` -/
  | file (filepath : Bytes)
  deriving DecidableEq, Repr

/-- The decision on a request. -/
def Decision.of (text : Bytes) : Decision :=
  if text.length < strSize then
    match requestPath text with
    | none => .notFound
    | some filepath => .file filepath
  else .notFound

/-- Where an activation goes on with a decision. -/
def Decision.outcome (files : Bytes → Option Bytes) (docroot : Bytes) (a : Activation)
    (sends : List Answer) : Decision → Outcome
  | .notFound => replyLoop { a with conn := reply404Start a.conn } sends
  | .file filepath => startReply files docroot (a.requestDone filepath) sends

/-! ## Runs -/

/-- What the environment does in an activation: the files there are, the outcome of `recv` and those
of `send`. -/
structure Arrival where
  files : Bytes → Option Bytes
  recv : Answer
  sends : List Answer

variable {docroot : Bytes} {c c' : ServerConnection} {wire wire' text : Bytes} {i : Arrival}
  {is : List Arrival} {d : Decision}

/-- The result of `recv` when `wire` was not received yet. -/
def Arrival.received (i : Arrival) (c : ServerConnection) (wire : Bytes) : Except Errno Bytes :=
  i.recv.recv wire (strSize - c.held.length - 1)

/-- What is not received yet after `recv`. -/
def Arrival.left (i : Arrival) (c : ServerConnection) (wire : Bytes) : Bytes :=
  wire.drop ((i.received c wire).toOption.getD []).length

/-- The activation. -/
def Arrival.activate (docroot : Bytes) (c : ServerConnection) (wire : Bytes) (i : Arrival) :
    Outcome :=
  activateConnection i.files docroot c (i.received c wire) i.sends

/-- The activation takes a decision, after `recv` or because there is no room for it. -/
def TakesDecision (docroot : Bytes) (c : ServerConnection) (wire : Bytes) (i : Arrival)
    (d : Decision) : Prop :=
  ∃ a, (a = Activation.begin c ∨ ∃ bytes, a = (Activation.begin c).receive bytes) ∧
    i.activate docroot c wire = d.outcome i.files docroot a i.sends

/-- The activation leaves the connection open and waiting, and has not replied. -/
structure StillWaits (o : Outcome) : Prop where
  closed : o.closed = false
  awaits : Awaits o.act.conn
  sent : o.act.sent = []
  replies : o.act.replies = 0

/-- After these activations the connection still waits, and `wire'` was not received yet. -/
inductive Reads (docroot : Bytes) : ServerConnection → Bytes → List Arrival → ServerConnection →
    Bytes → Prop
  | nil (c : ServerConnection) (wire : Bytes) (awaits : Awaits c) : Reads docroot c wire [] c wire
  | cons (c : ServerConnection) (wire : Bytes) (i : Arrival) (is : List Arrival)
      (c' : ServerConnection)
      (wire' : Bytes) (awaits : Awaits c) (waits : StillWaits (i.activate docroot c wire))
      (reads : Reads docroot (i.activate docroot c wire).act.conn (i.left c wire) is c' wire') :
      Reads docroot c wire (i :: is) c' wire'

/-- The first decision in a run. -/
def Decides (docroot : Bytes) (c : ServerConnection) (wire : Bytes) (is : List Arrival)
    (d : Decision) :
    Prop :=
  ∃ before i after c' wire', is = before ++ i :: after ∧ Reads docroot c wire before c' wire' ∧
    TakesDecision docroot c' wire' i d

/-- No decision was taken, and a part of the request is still to be received. -/
def Undecided (docroot : Bytes) (c : ServerConnection) (wire : Bytes) (is : List Arrival) : Prop :=
  ∃ c' wire', Reads docroot c wire is c' wire' ∧ wire' ≠ []

/-- Does `recv` find something? -/
def Arrival.IsReady (i : Arrival) : Prop :=
  match i.recv with
  | .ready _ => True
  | _ => False

instance : DecidablePred Arrival.IsReady := fun i => by
  unfold Arrival.IsReady
  split <;> infer_instance

/-- The number of activations for which something has arrived. -/
def readies (is : List Arrival) : ℕ := is.countP fun i => i.IsReady

/-! ## The first empty line -/

/-- A text without letters is compared as it is. -/
theorem isPrefix_of_caselessPrefix {needle hay : Bytes} (hneedle : ∀ b ∈ needle, b.toNat < 65)
    (h : caselessPrefix needle hay = true) : needle <+: hay := by
  induction needle generalizing hay with
  | nil => exact List.nil_prefix
  | cons n ns ih =>
    cases hay with
    | nil => simp [caselessPrefix] at h
    | cons b hay =>
      simp only [caselessPrefix, Bool.and_eq_true, beq_iff_eq] at h
      obtain rfl : n = b := eq_of_toLower_eq (hneedle n (by simp)) h.1
      rw [List.prefix_cons_inj]
      exact ih (fun b hb => hneedle b (by simp [hb])) h.2

theorem isPrefix_drop_of_strcasestr {needle p : Bytes} {j : ℕ}
    (hneedle : ∀ b ∈ needle, b.toNat < 65)
    (h : strcasestr needle p = some j) : needle <+: p.drop j := by
  induction p generalizing j with
  | nil =>
    simp only [strcasestr] at h
    split_ifs at h with hnil
    rw [hnil]
    exact List.nil_prefix
  | cons b p ih =>
    simp only [strcasestr] at h
    split_ifs at h with hfound
    · obtain rfl := Option.some.inj h
      exact isPrefix_of_caselessPrefix hneedle hfound
    · obtain ⟨k, hk, rfl⟩ := Option.map_eq_some_iff.mp h
      exact ih hk

/-- The search for an empty line finds one. -/
theorem isSuffix_of_strcasestr {p : Bytes} {j : ℕ} (h : strcasestr twoCrlf p = some j) :
    twoCrlf <:+ p.take (j + twoCrlf.length) := by
  have hfirst := isPrefix_drop_of_strcasestr (by decide +kernel) h
  rw [List.take_add, ← List.prefix_iff_eq_take.mp hfirst]
  exact List.suffix_append _ _

/-- A beginning of the request holds an empty line just if it is the whole request. -/
theorem EndsFirst.strcasestr_eq_none_iff (h : EndsFirst text) {p : Bytes} (hp : p <+: text) :
    strcasestr twoCrlf p = none ↔ p ≠ text := by
  constructor
  · rintro hnone rfl
    obtain ⟨front, rfl⟩ := h.ends
    exact strcasestr_append_self_ne_none twoCrlf front hnone
  · intro hne
    by_contra hfound
    obtain ⟨j, hj⟩ := Option.ne_none_iff_exists'.mp hfound
    have hlength := add_length_le_of_strcasestr hj
    have hshort : p.length < text.length := by
      refine lt_of_le_of_ne hp.length_le fun heq => hne ?_
      exact hp.eq_of_length heq
    apply h.first (j + twoCrlf.length) (by omega)
    have htake : text.take (j + twoCrlf.length) = p.take (j + twoCrlf.length) := by
      obtain ⟨rest, rfl⟩ := hp
      exact List.take_append_of_le_length hlength
    rw [htake]
    exact isSuffix_of_strcasestr hj

theorem EndsFirst.cString_eq (h : EndsFirst text) {p : Bytes} (hp : p <+: text) : cString p = p :=
  cString_eq_self fun b hb => h.noNul b (hp.subset hb)

/-! ## One activation -/

/-- The connection holds the beginning of the request, and `wire` is the rest. -/
structure Holds (text : Bytes) (c : ServerConnection) (wire : Bytes) : Prop where
  awaits : Awaits c
  split : c.held ++ wire = text
  wire : wire ≠ []
  fits : c.held.length < strSize

/-- An activation that does not find anything leaves all as it is. -/
theorem Holds.wouldBlock (docroot : Bytes) (h : Holds text c wire)
    (hspace : strSize - c.held.length - 1 ≠ 0)
    (hreceived : i.received c wire = .error .wouldBlock) :
    StillWaits (i.activate docroot c wire) ∧
    Holds text (i.activate docroot c wire).act.conn wire := by
  obtain ⟨hactivate, hbuf, hawaits⟩ := activateConnection_of_awaits i.files docroot h.awaits
    (.error .wouldBlock) i.sends
  have hstep : i.activate docroot c wire = (Activation.begin c).return .errWouldblock := by
    rw [Arrival.activate, hreceived, hactivate]
    simp [requestStep, hbuf, hspace]
  rw [hstep]
  have hheld : (Activation.begin c).conn.held = c.held := by
    unfold ServerConnection.held
    by_cases hidle : c.state = .idle
    · simp [hidle, Activation.begin, resetIdle]
    · simp [hidle, Activation.begin]
  constructor
  · exact ⟨rfl, hawaits, rfl, rfl⟩
  · exact ⟨hawaits, (congrArg (· ++ wire) hheld).trans h.split, h.wire, hheld ▸ h.fits⟩

/-- When the buffer is full, the request is too long. -/
theorem Holds.full (h : Holds text c wire) (hspace : strSize - c.held.length - 1 = 0) :
    TakesDecision docroot c wire i (.of text) := by
  obtain ⟨hactivate, hbuf, -⟩ := activateConnection_of_awaits i.files docroot h.awaits
    (i.received c wire) i.sends
  have hlong : ¬text.length < strSize := by
    have hwire := List.length_pos_iff.mpr h.wire
    rw [← h.split, List.length_append]
    omega
  refine ⟨Activation.begin c, .inl rfl, ?_⟩
  rw [Arrival.activate, hactivate, Decision.of, if_neg hlong]
  simp [requestStep, hbuf, hspace, Decision.outcome]

/-- An activation that receives bytes decides when these are the last ones, and waits on
otherwise. -/
theorem Holds.received (docroot : Bytes) (htext : EndsFirst text) (h : Holds text c wire)
    {bytes : Bytes} (hspace : strSize - c.held.length - 1 ≠ 0)
    (hlength : bytes.length ≤ strSize - c.held.length - 1)
    (hne : bytes ≠ []) (hfirst : bytes <+: wire) (hreceived : i.received c wire = .ok bytes) :
    TakesDecision docroot c wire i (.of text) ∨
      StillWaits (i.activate docroot c wire) ∧
        Holds text (i.activate docroot c wire).act.conn (wire.drop bytes.length) := by
  obtain ⟨hactivate, hbuf, -⟩ :=
    activateConnection_of_awaits i.files docroot h.awaits (.ok bytes) i.sends
  have hpre : c.held ++ bytes <+: text := by
    rw [← h.split, List.prefix_append_right_inj]
    exact hfirst
  obtain ⟨b, bs, rfl⟩ := List.exists_cons_of_ne_nil hne
  have htake : (b :: bs).take (strSize - c.held.length - 1) = b :: bs :=
    List.take_of_length_le hlength
  have hstep : i.activate docroot c wire = requestStep i.files docroot (Activation.begin c)
      (.ok (b :: bs)) i.sends := by
    rw [Arrival.activate, hreceived, hactivate]
  have hbuf' : ((Activation.begin c).receive (b :: bs)).conn.request.buf = c.held ++ b :: bs := by
    rw [← hbuf]
    rfl
  unfold requestStep at hstep
  simp only [hbuf, hspace, if_false, htake, hbuf', htext.cString_eq hpre] at hstep
  by_cases hall : c.held ++ b :: bs = text
  · left
    have hfound : strcasestr twoCrlf (c.held ++ b :: bs) ≠ none := fun hnone =>
      (htext.strcasestr_eq_none_iff hpre).mp hnone hall
    obtain ⟨j, hj⟩ := Option.ne_none_iff_exists'.mp hfound
    have hshort : text.length < strSize := by
      rw [← hall, List.length_append]
      omega
    refine ⟨(Activation.begin c).receive (b :: bs), .inr ⟨_, rfl⟩, ?_⟩
    rw [hj] at hstep
    rw [hstep, Decision.of, if_pos hshort, ← hall]
    cases requestPath (c.held ++ b :: bs) with
    | none => rfl
    | some filepath => rfl
  · right
    rw [(htext.strcasestr_eq_none_iff hpre).mpr hall] at hstep
    rw [hstep]
    have hheld : ((Activation.begin c).receive (b :: bs)).conn.held = c.held ++ b :: bs := hbuf'
    obtain ⟨rest, rfl⟩ := hfirst
    have hsplit : (c.held ++ b :: bs) ++ rest = text := by
      rw [← h.split, List.append_assoc]
    rw [List.drop_left]
    refine ⟨⟨rfl, .inr rfl, rfl, rfl⟩, .inr rfl, ?_, ?_, ?_⟩
    · exact (congrArg (· ++ rest) hheld).trans hsplit
    · rintro rfl
      exact hall (by simpa using hsplit)
    · refine (congrArg List.length hheld).trans_lt ?_
      rw [List.length_append]
      omega

/-- One activation takes the decision on the request, or waits on and has made progress if `recv`
has found something. -/
theorem Holds.activate (docroot : Bytes) (htext : EndsFirst text) (h : Holds text c wire)
    (hdelivers : Delivers i.recv) :
    TakesDecision docroot c wire i (.of text) ∨
      StillWaits (i.activate docroot c wire) ∧
        Holds text (i.activate docroot c wire).act.conn (i.left c wire) ∧
        (i.left c wire).length + (if i.IsReady then 1 else 0) ≤ wire.length := by
  by_cases hspace : strSize - c.held.length - 1 = 0
  · exact .inl (h.full hspace)
  cases hrecv : i.recv with
  | closed => simp [hrecv, Delivers] at hdelivers
  | failed errno =>
    obtain rfl : errno = .wouldBlock := by simpa [hrecv, Delivers] using hdelivers
    have hreceived : i.received c wire = .error .wouldBlock := by
      simp [Arrival.received, hrecv, Answer.recv]
    have hleft : i.left c wire = wire := by simp [Arrival.left, hreceived, Except.toOption]
    obtain ⟨hwaits, hholds⟩ := h.wouldBlock docroot hspace hreceived
    refine .inr ⟨hwaits, ?_, ?_⟩
    · rw [hleft]
      exact hholds
    · simp [hleft, Arrival.IsReady, hrecv]
  | ready k =>
    have hpos := List.length_pos_iff.mpr h.wire
    obtain ⟨bytes, hbytes⟩ : ∃ bytes,
        bytes = wire.take (min (k + 1) (strSize - c.held.length - 1)) :=
      ⟨_, rfl⟩
    have hreceived : i.received c wire = .ok bytes := by
      rw [Arrival.received, hrecv, Answer.recv, if_neg hspace, if_neg (by omega), hbytes]
    have hcount : bytes.length = min (min (k + 1) (strSize - c.held.length - 1)) wire.length := by
      rw [hbytes, List.length_take]
    have hne : bytes ≠ [] := by
      apply List.ne_nil_of_length_pos
      omega
    have hfirst : bytes <+: wire := hbytes ▸ List.take_prefix _ _
    have hleft : i.left c wire = wire.drop bytes.length := by
      simp [Arrival.left, hreceived, Except.toOption]
    rcases h.received docroot htext hspace (by omega) hne hfirst hreceived with
      htakes | ⟨hwaits, hholds⟩
    · exact .inl htakes
    · refine .inr ⟨hwaits, ?_, ?_⟩
      · rw [hleft]
        exact hholds
      · rw [hleft, List.length_drop]
        have hready : i.IsReady := by simp [Arrival.IsReady, hrecv]
        rw [if_pos hready]
        omega

/-! ## Runs -/

/-- A run takes the decision on the request, or has not received all of it. -/
theorem Holds.decides (docroot : Bytes) (htext : EndsFirst text) (h : Holds text c wire)
    (hdelivers : ∀ i ∈ is, Delivers i.recv) :
    Decides docroot c wire is (.of text) ∨
      ∃ c' wire', Reads docroot c wire is c' wire' ∧ wire' ≠ [] ∧
        wire'.length + readies is ≤ wire.length := by
  induction is generalizing c wire with
  | nil => exact .inr ⟨c, wire, .nil c wire h.awaits, h.wire, by simp [readies]⟩
  | cons i is ih =>
    rcases h.activate docroot htext (hdelivers i (by simp)) with
      htakes | ⟨hwaits, hholds, hleft⟩
    · exact .inl ⟨[], i, is, c, wire, by simp, .nil c wire h.awaits, htakes⟩
    rcases ih hholds (fun j hj => hdelivers j (by simp [hj])) with
      ⟨before, j, after, c', wire', rfl, hreads, htakes⟩ | ⟨c', wire', hreads, hne, hlength⟩
    · exact .inl ⟨i :: before, j, after, c', wire', by simp,
        .cons c wire i _ _ _ h.awaits hwaits hreads, htakes⟩
    · refine .inr ⟨c', wire', .cons c wire i _ _ _ h.awaits hwaits hreads, hne, ?_⟩
      rw [readies, List.countP_cons]
      simp only [decide_eq_true_eq]
      rw [readies] at hlength
      omega

/-- The server decides alike on a request however it is cut: on every connection that is idle, in
every run of activations that find bytes or nothing yet, the first decision is the same one, unless
a part of the request was not received so far; and as many activations that find something as the
request has bytes are enough. -/
theorem same_decision (htext : EndsFirst text) : ∃ d, ∀ docroot c is, c.state = .idle →
    (∀ i ∈ is, Delivers i.recv) →
      (Decides docroot c text is d ∨ Undecided docroot c text is) ∧
      (text.length ≤ readies is → Decides docroot c text is d) := by
  refine ⟨.of text, ?_⟩
  intro docroot c is hidle hdelivers
  have hheld : c.held = [] := by simp [ServerConnection.held, hidle]
  have hne : text ≠ [] := by
    rintro rfl
    exact absurd htext.ends (by decide)
  have hholds : Holds text c text :=
    ⟨.inl hidle, by rw [hheld, List.nil_append], hne, by simp [hheld, strSize]⟩
  rcases hholds.decides docroot htext hdelivers with hdecides | ⟨c', wire', hreads, hwire, hlength⟩
  · exact ⟨.inl hdecides, fun _ => hdecides⟩
  · refine ⟨.inr ⟨c', wire', hreads, hwire⟩, fun hready => ?_⟩
    have hpos := List.length_pos_iff.mpr hwire
    omega

/-- A request for a path of one character. -/
theorem same_decision_short :
    EndsFirst (ascii "GET /a HTTP/1.1\r\n\r\n") ∧
      ∃ d, ∀ docroot c is, c.state = .idle → (∀ i ∈ is, Delivers i.recv) →
        (Decides docroot c (ascii "GET /a HTTP/1.1\r\n\r\n") is d ∨
          Undecided docroot c (ascii "GET /a HTTP/1.1\r\n\r\n") is) ∧
        ((ascii "GET /a HTTP/1.1\r\n\r\n").length ≤ readies is →
          Decides docroot c (ascii "GET /a HTTP/1.1\r\n\r\n") is d) := by
  have htext : EndsFirst (ascii "GET /a HTTP/1.1\r\n\r\n") :=
    ⟨forall_mem_of_all (by decide), by decide, by decide⟩
  exact ⟨htext, same_decision htext⟩

end ShadowExtras.FileTransfer
