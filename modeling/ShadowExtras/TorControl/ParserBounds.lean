import ShadowExtras.Foundation.Fallible
import ShadowExtras.TorControl.ReplyParser
import ShadowExtras.TorControl.Segmentation

/-!
# When the parsers stay inside a line

The parsers rely on the shape of the lines that Tor writes, and none of them checks it. For each of
them the shape that it needs is a predicate on the text (`CircShape`, `StreamShape`, `StatusShape`,
`BodyShape`), and the parser succeeds on exactly the texts of that shape. A line is in bounds
(`LineInBounds`) if it is long enough for the columns that are read and the reply it completes has
the shape that its code asks for; an activation is in bounds if the bytes received leave room for
the terminator and all its lines are. Nothing is read out of bounds in a run exactly if all its
activations are in bounds.
-/

namespace ShadowExtras.TorControl

open Foundation

/-! ## Shapes -/

/-- A time stamp `year-month-dayThour:minute:second`. -/
def TimeShape (datetimestamp : Bytes) : Prop :=
  match strsplitMax 84 1 datetimestamp with
  | date :: time :: _ => 3 ≤ (strsplitMax 45 2 date).length ∧ 3 ≤ (strsplitMax 58 2 time).length
  | _ => False

/-- A name without a value is no name of a parameter; then it is a path without an empty element. -/
def CircParamShape (part : Bytes) : Prop :=
  match strsplitMax 61 1 part with
  | [] => True
  | [name] =>
    caselessEq name (ascii "BUILD_FLAGS") = false ∧ caselessEq name (ascii "PURPOSE") = false ∧
      caselessEq name (ascii "REASON") = false ∧ caselessEq name (ascii "TIME_CREATED") = false ∧
      ∀ longname ∈ strsplitMax 44 9 name, longname ≠ []
  | name :: value :: _ => caselessEq name (ascii "TIME_CREATED") = true → TimeShape value

/-- `CIRC`, an id, a status and parameters. -/
def CircShape (line : Bytes) : Prop :=
  3 ≤ (strsplit 32 line).length ∧ ∀ part ∈ (strsplit 32 line).drop 3, CircParamShape part

/-- A name without a value is none of those whose value is read. -/
def StreamParamShape (part : Bytes) : Prop :=
  match strsplitMax 61 1 part with
  | [name] =>
    caselessEq name (ascii "REASON") = false ∧ caselessEq name (ascii "REMOTE_REASON") = false ∧
      caselessEq name (ascii "SOURCE_ADDR") = false ∧ caselessEq name (ascii "PURPOSE") = false
  | _ => True

/-- `STREAM`, an id, a status, the id of a circuit, a target that is not empty, and parameters. -/
def StreamShape (line : Bytes) : Prop :=
  (∃ target, (strsplit 32 line)[4]? = some target ∧ target ≠ []) ∧
    ∀ part ∈ (strsplit 32 line).drop 5, StreamParamShape part

/-- `STATUS_CLIENT`, a severity, an action, and arguments that are not empty. -/
def StatusShape (line : Bytes) : Prop :=
  3 ≤ (strsplit 32 line).length ∧ ∀ part ∈ (strsplit 32 line).drop 3, part ≠ []

/-- `PROGRESS` comes with a value. -/
def PhaseShape (part : Bytes) : Prop := strsplitMax 61 1 part ≠ [ascii "PROGRESS"]

/-- An `EXTENDED` line has an id, and the parts of a bootstrap-phase line have their values. -/
def BodyShape (body : Bytes) : Prop :=
  if isExtended body then 2 ≤ (strsplit 32 body).length
  else isBootstrapPhase body = true → ∀ part ∈ strsplit 32 body, PhaseShape part

/-- An event line whose first word has a parser has the shape that the parser needs. -/
def EventShape (funcs : Handlers) (line : Bytes) : Prop :=
  match strsplit 32 line with
  | [] => funcs.circEvent = false ∧ funcs.streamEvent = false ∧ funcs.statusEvent = false
  | event :: _ =>
    if funcs.circEvent = true ∧ caselessEq event (ascii "CIRC") = true then CircShape line
    else if funcs.streamEvent = true ∧ caselessEq event (ascii "STREAM") = true then
      StreamShape line
    else funcs.statusEvent = true ∧ caselessEq event (ascii "STATUS_CLIENT") = true →
      StatusShape line

/-- The lines of a reply have the shape that its code asks for. -/
def ReplyShape (funcs : Handlers) (reply : List ReplyLine) : Prop :=
  match reply with
  | [] => True
  | first :: _ =>
    if Int.tdiv first.code 100 ∈ [2, 4, 5] then
      funcs.responseEvent = true → ∀ line ∈ reply, BodyShape line.body
    else Int.tdiv first.code 100 = 6 → EventShape funcs first.body

/-! ## Tokens -/

theorem succeeds_token {v : List Bytes} {i : Nat} : Succeeds (token v i) ↔ i < v.length := by
  simp only [Succeeds, token_eq_ok, ← Option.isSome_iff_exists]
  simp

/-- What follows a token that exists. -/
theorem succeeds_bind_token {α : Type} {v : List Bytes} {i : Nat} {s : Bytes}
    {f : Bytes → Except TokenFault α} (hs : v[i]? = some s) :
    Succeeds (token v i >>= f) ↔ Succeeds (f s) := by
  rw [token_eq_ok.mpr hs]
  exact Iff.rfl

/-- A token that does not exist is a fault. -/
theorem not_succeeds_bind_token {α : Type} {v : List Bytes} {i : Nat}
    {f : Bytes → Except TokenFault α} (hi : v.length ≤ i) : ¬Succeeds (token v i >>= f) := by
  rw [succeeds_bind]
  rintro ⟨s, hs, -⟩
  rw [token_eq_ok, List.getElem?_eq_none hi] at hs
  simp at hs

theorem succeeds_entry {v : List Bytes} {i : Nat} : Succeeds (entry v i) ↔ i ≤ v.length := by
  simp [Succeeds, entry_eq_ok]

/-- Only the empty string has no parts. -/
theorem strsplitMax_eq_nil {d : Byte} {n : Nat} {s : Bytes} : strsplitMax d n s = [] ↔ s = [] := by
  unfold strsplitMax
  by_cases hs : s = []
  · simp [hs]
  · rw [if_neg hs]
    cases n with
    | zero => simp [splitUpTo, hs]
    | succ n =>
      unfold splitUpTo
      split <;> simp [hs]

/-! ## Each parser succeeds on the texts of its shape -/

/-- Three tokens whose texts do not matter for what follows. -/
theorem succeeds_three_tokens {α : Type} {parts : List Bytes}
    {f : Bytes → Bytes → Bytes → Except TokenFault α} {P : Prop}
    (hf : ∀ a b c, Succeeds (f a b c) ↔ P) :
    Succeeds (do
      let a ← token parts 0
      let b ← token parts 1
      let c ← token parts 2
      f a b c) ↔ 3 ≤ parts.length ∧ P := by
  rw [succeeds_bind_const fun a => succeeds_bind_const fun b => succeeds_bind_const fun c =>
    hf a b c]
  simp only [succeeds_token]
  constructor
  · rintro ⟨-, -, hlen, h⟩
    exact ⟨hlen, h⟩
  · rintro ⟨hlen, h⟩
    exact ⟨by omega, by omega, hlen, h⟩

/-- The time of creation is read where it has its shape. -/
theorem succeeds_getCreateTime {v : Bytes} : Succeeds (getCreateTime v) ↔ TimeShape v := by
  unfold getCreateTime TimeShape
  rcases strsplitMax 84 1 v with - | ⟨date, - | ⟨time, rest⟩⟩
  · simp only [succeeds_bind, token_eq_ok]
    simp
  · simp only [succeeds_bind, token_eq_ok]
    simp
  · rw [succeeds_bind_token (s := date) (by simp), succeeds_bind_token (s := time) (by simp),
      succeeds_three_tokens fun _ _ _ => succeeds_three_tokens fun _ _ _ =>
        iff_true_intro (succeeds_pure _), and_true]

/-- A short name is made of a name that is not empty. -/
theorem succeeds_getShortName {longname : Bytes} :
    Succeeds (getShortName longname) ↔ longname ≠ [] := by
  rw [getShortName, succeeds_entry, Nat.one_le_iff_ne_zero, Ne, List.length_eq_zero_iff,
    strsplitMax_eq_nil]

/-- A short name is appended for a name that is not empty. -/
theorem succeeds_appendShortName {path : Option Bytes} {longname : Bytes} :
    Succeeds (appendShortName path longname) ↔ longname ≠ [] := by
  unfold appendShortName
  rw [succeeds_bind_const (P := True), succeeds_getShortName, and_true]
  intro name
  cases name <;> cases path <;> simp

/-- A text that is equal to one constant, up to case, is not equal to another. -/
theorem caselessEq_eq_false {s a b : Bytes} (ha : caselessEq s a = true)
    (hab : caselessEq a b = false) : caselessEq s b = false := by
  simp only [caselessEq, beq_iff_eq, beq_eq_false_iff_ne] at ha hab ⊢
  rwa [ha]

/-- A parameter of a circuit is read where it has its shape. -/
theorem succeeds_circParam {args : CircArgs} {part : Bytes} :
    Succeeds (circParam args part) ↔ CircParamShape part := by
  have hother : ∀ {name value : Bytes} {a : String}, caselessEq name (ascii a) = true →
      caselessEq (ascii a) (ascii "TIME_CREATED") = false →
      (caselessEq name (ascii "TIME_CREATED") = true → TimeShape value) := by
    intro name value a ha hne htime
    rw [caselessEq_eq_false ha hne] at htime
    simp at htime
  unfold circParam CircParamShape
  rcases strsplitMax 61 1 part with - | ⟨name, - | ⟨value, rest⟩⟩
  · simp
  · have hnone : ∀ {f : Bytes → Except TokenFault CircArgs},
        ¬Succeeds (token [name] 1 >>= f) := not_succeeds_bind_token (by simp)
    dsimp only
    split_ifs with h₁ h₂ h₃ h₄
    · exact iff_of_false hnone (by simp [h₁])
    · exact iff_of_false hnone (by simp [h₂])
    · exact iff_of_false hnone (by simp [h₃])
    · exact iff_of_false hnone (by simp [h₄])
    · rw [succeeds_bind_const fun _ => iff_true_intro (succeeds_pure _), and_true,
        succeeds_foldlM (f := appendShortName) fun _ _ => succeeds_appendShortName]
      simp [h₁, h₂, h₃, h₄]
    · simp at *
  · have hvalue : ∀ {f : Bytes → Except TokenFault CircArgs},
        Succeeds (token (name :: value :: rest) 1 >>= f) ↔ Succeeds (f value) :=
      succeeds_bind_token (by simp)
    dsimp only
    split_ifs with h₁ h₂ h₃ h₄ h₅
    · exact iff_of_true (hvalue.mpr (succeeds_pure _)) (hother h₁ (by decide))
    · exact iff_of_true (hvalue.mpr (succeeds_pure _)) (hother h₂ (by decide))
    · exact iff_of_true (hvalue.mpr (succeeds_pure _)) (hother h₃ (by decide))
    · rw [hvalue, succeeds_bind_const fun _ => iff_true_intro (succeeds_pure _), and_true,
        succeeds_getCreateTime]
      simp [h₄]
    · simp at h₅
    · simp [h₄]

/-- A line about a circuit is read where it has its shape. -/
theorem succeeds_processAsyncCircReply {line : Bytes} :
    Succeeds (processAsyncCircReply line) ↔ CircShape line := by
  unfold processAsyncCircReply CircShape
  dsimp only
  rw [succeeds_bind_const fun _ => succeeds_bind_const fun _ =>
    succeeds_foldlM (f := circParam) (fun _ _ => succeeds_circParam) _ _]
  simp only [succeeds_token]
  constructor
  · rintro ⟨-, hlen, hparts⟩
    exact ⟨hlen, hparts⟩
  · rintro ⟨hlen, hparts⟩
    exact ⟨by omega, hlen, hparts⟩

/-- A parameter of a stream is read where it has its shape. -/
theorem succeeds_streamParam {args : StreamArgs} {part : Bytes} :
    Succeeds (streamParam args part) ↔ StreamParamShape part := by
  unfold streamParam StreamParamShape
  rcases strsplitMax 61 1 part with - | ⟨name, - | ⟨value, rest⟩⟩
  · simp
  · have hnone : ∀ {f : Bytes → Except TokenFault StreamArgs},
        ¬Succeeds (token [name] 1 >>= f) := not_succeeds_bind_token (by simp)
    dsimp only
    split_ifs with h₁ h₂ h₃ h₄ h₅
    · exact iff_of_false hnone (by simp [h₁])
    · exact iff_of_false hnone (by simp [h₂])
    · -- `g_strdup` takes the NULL, and the name is none of the others
      have haddr := caselessEq_eq_false h₃ (b := ascii "SOURCE_ADDR") (by decide)
      have hpurpose := caselessEq_eq_false h₃ (b := ascii "PURPOSE") (by decide)
      rw [succeeds_bind_const fun _ => iff_true_intro (succeeds_pure _), succeeds_entry]
      simp [h₁, h₂, haddr, hpurpose]
    · exact iff_of_false hnone (by simp [h₄])
    · exact iff_of_false hnone (by simp [h₅])
    · simp [h₁, h₂, h₄, h₅]
  · have hvalue : ∀ {f : Bytes → Except TokenFault StreamArgs},
        Succeeds (token (name :: value :: rest) 1 >>= f) ↔ Succeeds (f value) :=
      succeeds_bind_token (by simp)
    dsimp only
    split_ifs
    · exact iff_of_true (hvalue.mpr (succeeds_pure _)) trivial
    · exact iff_of_true (hvalue.mpr (succeeds_pure _)) trivial
    · rw [succeeds_bind_const fun _ => iff_true_intro (succeeds_pure _), succeeds_entry]
      simp
    · exact iff_of_true (hvalue.mpr (succeeds_pure _)) trivial
    · exact iff_of_true (hvalue.mpr (succeeds_pure _)) trivial
    · simp

/-- The target of a stream has an address, and then its vector can be read at the port. -/
theorem succeeds_target {α : Type} {parts : List Bytes}
    {f : Bytes → Option Bytes → Except TokenFault α} {P : Prop}
    (hf : ∀ targetIP targetPort, Succeeds (f targetIP targetPort) ↔ P) :
    Succeeds (do
      let address ← token parts 4
      let targetIP ← token (strsplitMax 58 1 address) 0
      let targetPort ← entry (strsplitMax 58 1 address) 1
      f targetIP targetPort) ↔ (∃ address, parts[4]? = some address ∧ address ≠ []) ∧ P := by
  cases haddress : parts[4]? with
  | none =>
    have hlen : parts.length ≤ 4 := List.getElem?_eq_none_iff.mp haddress
    exact iff_of_false (not_succeeds_bind_token hlen) (by simp)
  | some address =>
    rw [succeeds_bind_token haddress,
      succeeds_bind_const fun _ => succeeds_bind_const fun _ => hf _ _, succeeds_token,
      succeeds_entry, Nat.one_le_iff_ne_zero, ← Nat.pos_iff_ne_zero, ← and_assoc, and_self,
      List.length_pos_iff_ne_nil, Ne, strsplitMax_eq_nil]
    simp

/-- A line about a stream is read where it has its shape. -/
theorem succeeds_processAsyncStreamReply {line : Bytes} :
    Succeeds (processAsyncStreamReply line) ↔ StreamShape line := by
  unfold processAsyncStreamReply StreamShape
  dsimp only
  rw [succeeds_bind_const fun _ => succeeds_bind_const fun _ => succeeds_bind_const fun _ =>
    succeeds_target fun _ _ =>
      succeeds_foldlM (f := streamParam) (fun _ _ => succeeds_streamParam) _ _]
  simp only [succeeds_token]
  constructor
  · rintro ⟨-, -, -, h⟩
    exact h
  · rintro ⟨⟨target, htarget, hne⟩, hparts⟩
    have hlen : 4 < (strsplit 32 line).length := (List.getElem?_eq_some_iff.mp htarget).1
    exact ⟨by omega, by omega, by omega, ⟨target, htarget, hne⟩, hparts⟩

/-- An argument of a status is read where it is not empty. -/
theorem succeeds_statusArgument {args : StatusArgs} {part : Bytes} :
    Succeeds (statusArgument args part) ↔ part ≠ [] := by
  unfold statusArgument
  dsimp only
  rw [succeeds_bind_const fun _ => succeeds_bind_const fun _ => iff_true_intro (succeeds_pure _),
    succeeds_entry, succeeds_token, and_true, Nat.succ_le_iff, and_self, List.length_pos_iff_ne_nil,
    Ne, strsplitMax_eq_nil]

/-- A line about a status is read where it has its shape. -/
theorem succeeds_processAsyncStatusReply {line : Bytes} :
    Succeeds (processAsyncStatusReply line) ↔ StatusShape line := by
  unfold processAsyncStatusReply StatusShape
  dsimp only
  rw [succeeds_bind_const fun _ => succeeds_bind_const fun _ => succeeds_bind_const fun _ =>
    succeeds_bind_const fun _ =>
      succeeds_foldlM (f := statusArgument) (fun _ _ => succeeds_statusArgument) _ _]
  simp only [succeeds_token, succeeds_entry]
  constructor
  · rintro ⟨-, -, -, hlen, hparts⟩
    exact ⟨hlen, hparts⟩
  · rintro ⟨hlen, hparts⟩
    exact ⟨by omega, by omega, by omega, hlen, hparts⟩

/-- A part of the bootstrap phase is read where it has its shape. -/
theorem succeeds_phasePart {phase : Int × Option Bytes} {part : Bytes} :
    Succeeds (phasePart phase part) ↔ PhaseShape part := by
  unfold phasePart PhaseShape
  rcases strsplitMax 61 1 part with - | ⟨name, - | ⟨value, rest⟩⟩
  · simp
  · dsimp only
    split_ifs with h₁ h₂
    · exact iff_of_false (not_succeeds_bind_token (by simp)) (by simp [h₁])
    · rw [succeeds_bind_const fun _ => iff_true_intro (succeeds_pure _), succeeds_entry]
      simp [h₁]
    · simp [h₁]
  · dsimp only
    split_ifs
    · exact iff_of_true ((succeeds_bind_token (s := value) (by simp)).mpr (succeeds_pure _))
        (by simp)
    · rw [succeeds_bind_const fun _ => iff_true_intro (succeeds_pure _), succeeds_entry]
      simp
    · simp

/-- A body is read where it has its shape. -/
theorem succeeds_parseUserData {body : Bytes} :
    Succeeds (parseUserData body) ↔ BodyShape body := by
  unfold parseUserData BodyShape
  dsimp only
  split_ifs with hext hphase
  · rw [succeeds_bind_const fun _ => iff_true_intro (succeeds_pure _), and_true, succeeds_token]
    exact Iff.rfl
  · rw [succeeds_bind_const fun _ => iff_true_intro (succeeds_pure _), and_true,
      succeeds_foldlM (f := phasePart) fun _ _ => succeeds_phasePart]
    simp [hphase]
  · simp [hphase]

/-- The name of the event is read for every handler that is set. -/
theorem succeeds_isEvent_nil {α : Type} {handler : Bool} {name : String}
    {f : Bool → Except TokenFault α} :
    Succeeds (isEvent handler [] name >>= f) ↔ handler = false ∧ Succeeds (f false) := by
  cases handler with
  | false => simp [isEvent, succeeds_bind]
  | true => simp [isEvent, token, entry, Except.map, succeeds_bind]

/-- The name of an event can be compared where there is one. -/
theorem succeeds_isEvent_cons {α : Type} {handler : Bool} {event : Bytes} {rest : List Bytes}
    {name : String} {f : Bool → Except TokenFault α} :
    Succeeds (isEvent handler (event :: rest) name >>= f) ↔
      Succeeds (f (handler && caselessEq event (ascii name))) := by
  cases handler with
  | false => simp [isEvent, succeeds_bind]
  | true => simp [isEvent, token, entry, Except.map, succeeds_bind]

/-- An event is processed where it has its shape. -/
theorem succeeds_processEvent {funcs : Handlers} {line : Bytes} :
    Succeeds (processEvent funcs line) ↔ EventShape funcs line := by
  unfold processEvent EventShape
  cases strsplit 32 line with
  | nil =>
    dsimp only
    simp only [succeeds_isEvent_nil, Bool.false_eq_true, if_false]
    cases funcs.genericEvent <;> simp
  | cons event rest =>
    dsimp only
    rw [succeeds_isEvent_cons]
    by_cases hcirc : (funcs.circEvent && caselessEq event (ascii "CIRC")) = true
    · rw [if_pos hcirc, if_pos (Bool.and_eq_true_iff.mp hcirc),
        succeeds_bind_const fun _ => iff_true_intro (succeeds_pure _), and_true,
        succeeds_processAsyncCircReply]
    rw [if_neg hcirc, if_neg fun h => hcirc (Bool.and_eq_true_iff.mpr h), succeeds_isEvent_cons]
    by_cases hstream : (funcs.streamEvent && caselessEq event (ascii "STREAM")) = true
    · rw [if_pos hstream, if_pos (Bool.and_eq_true_iff.mp hstream),
        succeeds_bind_const fun _ => iff_true_intro (succeeds_pure _), and_true,
        succeeds_processAsyncStreamReply]
    rw [if_neg hstream, if_neg fun h => hstream (Bool.and_eq_true_iff.mpr h), succeeds_isEvent_cons,
      ← Bool.and_eq_true_iff]
    split_ifs with hstatus hgeneric
    · rw [succeeds_bind_const fun _ => iff_true_intro (succeeds_pure _), and_true,
        succeeds_processAsyncStatusReply]
      simp [hstatus]
    · simp [hstatus]
    · simp [hstatus]

/-- A reply is processed where it has its shape. -/
theorem succeeds_processReplyCalls {funcs : Handlers} {reply : List ReplyLine} :
    Succeeds (processReplyCalls funcs reply) ↔ ReplyShape funcs reply := by
  unfold processReplyCalls ReplyShape
  cases reply with
  | nil => exact iff_of_true (succeeds_ok _) trivial
  | cons first rest =>
    dsimp only
    split_ifs with hreply hfuncs hevent
    · rw [succeeds_mapM]
      simp [succeeds_map, succeeds_parseUserData, hfuncs]
    · exact iff_of_true (succeeds_ok _) (by simp [hfuncs])
    · rw [succeeds_processEvent]
      simp [hevent]
    · exact iff_of_true (succeeds_ok _) (by simp [hevent])

/-! ## Lines and activations -/

/-- The reply that a line completes: outside a data block a line with a blank behind the code does,
and inside one the end of the data of an event. -/
def completedBy (s : Parsed) (line : Bytes) : Option (List ReplyLine) :=
  if s.conn.readingData then
    match s.conn.reply.getLast? with
    | none => none
    | some last => if endsData line ∧ Int.tdiv last.code 600 ≠ 0 then some s.conn.reply else none
  else if (line.drop 3).head? = some 32 then
    some (s.conn.reply ++ [{ code := toInt32 (strtol line), body := line.drop 4, data := [] }])
  else none

/-- A line outside a data block has a code and a separator, and the reply that is complete with the
line has the shape that its parsers need. -/
def LineInBounds (funcs : Handlers) (s : Parsed) (line : Bytes) : Prop :=
  (s.conn.readingData = false → 4 ≤ line.length) ∧
    ∀ reply, completedBy s line = some reply → ReplyShape funcs reply

/-- The bytes received leave room for the terminator, and all complete lines are in bounds. -/
def InputInBounds (funcs : Handlers) (s : Parsed) (received : Bytes) : Prop :=
  s.conn.buf.length + received.length < bufSize ∧
    StepsMeet (parseLine funcs) (LineInBounds funcs) s
      (splitLines (cString (s.conn.buf ++ received))).1

/-- The reply under construction is not empty while its data are read. -/
def Parsed.Sane (s : Parsed) : Prop := s.conn.readingData = true → s.conn.reply ≠ []

/-- What the line loop hands over for a line. -/
theorem processed_eq_completedBy {s : Parsed} {line : Bytes} {r : Replies}
    (h : processLine { reply := s.conn.reply, readingData := s.conn.readingData, processed := [] }
      line
      = .ok r) : r.processed = (completedBy s line).toList := by
  unfold processLine at h
  unfold completedBy
  cases hmode : s.conn.readingData with
  | false =>
    simp only [hmode, Bool.false_eq_true, if_false, replyLine] at h ⊢
    split_ifs at h with hlen hplus hblank
    · have hnot : ¬(line.drop 3).head? = some 32 := by simp [hplus]
      rw [if_neg hnot, ← Except.ok.inj h]
      simp
    · rw [if_pos hblank, ← Except.ok.inj h]
      simp
    · rw [if_neg hblank, ← Except.ok.inj h]
      simp
  | true =>
    simp only [hmode, if_true, dataLine] at h ⊢
    cases hlast : s.conn.reply.getLast? with
    | none => simp [hlast] at h
    | some last =>
      simp only [hlast] at h ⊢
      split_ifs at h with hend hevent
      · rw [if_pos ⟨hend, hevent⟩, ← Except.ok.inj h]
        simp
      · rw [if_neg fun h => hevent h.2, ← Except.ok.inj h]
        simp
      · rw [if_neg fun h => hend h.1, ← Except.ok.inj h]
        simp

/-- Outside a data block, only a line that is long enough is no fault. -/
theorem longEnough_of_processLine {r r' : Replies} {line : Bytes}
    (h : processLine r line = .ok r') :
    LongEnough r line := by
  intro hmode
  by_contra hlen
  simp [processLine, hmode, replyLine, Nat.lt_of_not_le hlen] at h

/-- A line is processed without a read out of bounds if and only if it is in bounds. -/
theorem Parsed.Sane.succeeds_parseLine {funcs : Handlers} {s : Parsed} {line : Bytes}
    (hs : s.Sane) :
    Succeeds (parseLine funcs s line) ↔ LineInBounds funcs s line := by
  unfold parseLine LineInBounds
  constructor
  · rintro ⟨s', h⟩
    split at h
    · simp at h
    · next r hline =>
      split at h
      · simp at h
      · next calls hcalls =>
        refine ⟨longEnough_of_processLine hline, fun reply hreply => ?_⟩
        rw [processed_eq_completedBy hline, hreply] at hcalls
        have hall := (succeeds_mapM _).mp ⟨calls, hcalls⟩
        exact succeeds_processReplyCalls.mp (hall reply (by simp))
  · rintro ⟨hlong, hshape⟩
    obtain ⟨r, hline, -⟩ := Replies.Sane.processLine
      (r := { reply := s.conn.reply, readingData := s.conn.readingData, processed := [] }) hs hlong
    have hall : Succeeds (r.processed.mapM (processReplyCalls funcs)) := by
      rw [succeeds_mapM, processed_eq_completedBy hline]
      intro reply hreply
      exact succeeds_processReplyCalls.mpr (hshape reply (by simpa using hreply))
    obtain ⟨calls, hcalls⟩ := hall
    simp only [hline, hcalls]
    exact succeeds_ok _

/-- The line loop keeps the reply under construction sane. -/
theorem Parsed.Sane.parseLine {funcs : Handlers} {s s' : Parsed} {line : Bytes} (hs : s.Sane)
    (h : TorControl.parseLine funcs s line = .ok s') : s'.Sane := by
  unfold TorControl.parseLine at h
  split at h
  · simp at h
  · next r hline =>
    have hr := Replies.Sane.processLine
      (r := { reply := s.conn.reply, readingData := s.conn.readingData, processed := [] }) hs
      (longEnough_of_processLine hline)
    obtain ⟨r', hline', hsane⟩ := hr
    obtain rfl := Except.ok.inj (hline.symm.trans hline')
    split at h
    · simp at h
    · rw [← Except.ok.inj h]
      exact hsane

/-- An activation reads nothing out of bounds if and only if its input is in bounds. -/
theorem Parsed.Sane.succeeds_parseInput {funcs : Handlers} {s : Parsed} {received : Bytes}
    (hs : s.Sane) : Succeeds (parseInput funcs s received) ↔ InputInBounds funcs s received := by
  unfold parseInput InputInBounds
  rw [← succeeds_runSteps Parsed.Sane (fun _ _ hs => hs.succeeds_parseLine)
    (fun _ _ _ hs h => hs.parseLine h) hs, ← Nat.not_le]
  split_ifs with hspace
  · exact iff_of_false (not_succeeds_error _) (by simp [hspace])
  · cases hrun : runSteps (TorControl.parseLine funcs) s
        (splitLines (cString (s.conn.buf ++ received))).1 with
    | error fault =>
      refine iff_of_false (by simp [hrun, not_succeeds_error]) ?_
      exact fun h => not_succeeds_error _ h.2
    | ok s' => exact iff_of_true (by simp [hrun, succeeds_ok]) ⟨hspace, succeeds_ok _⟩

/-- An activation keeps the reply under construction sane. -/
theorem Parsed.Sane.parseInput {funcs : Handlers} {s s' : Parsed} {received : Bytes} (hs : s.Sane)
    (h : TorControl.parseInput funcs s received = .ok s') : s'.Sane := by
  unfold TorControl.parseInput at h
  split_ifs at h with hspace
  dsimp only at h
  split at h
  · simp at h
  · next t hrun =>
    have ht : t.Sane := invariant_of_steps Parsed.Sane (fun _ _ _ hs h => hs.parseLine h) hs hrun
    rw [← Except.ok.inj h]
    exact ht

/-- A connection reads nothing out of bounds, whatever module it has and however its input is cut,
if and only if the input of every activation is in bounds. -/
theorem succeeds_runSteps_parseInput (funcs : Handlers) (chunks : List Bytes) :
    Succeeds (runSteps (parseInput funcs) { conn := Connection.new, calls := [] } chunks) ↔
      StepsMeet (parseInput funcs) (InputInBounds funcs) { conn := Connection.new, calls := [] }
        chunks :=
  succeeds_runSteps Parsed.Sane (fun _ _ hs => hs.succeeds_parseInput)
    (fun _ _ _ hs h => hs.parseInput h) (by simp [Parsed.Sane, Connection.new])

/-! ## The line loop and the builder's view of a reply -/

/-- The line loop with the parsers is the line loop, and the parsers see the replies that it hands
over. -/
theorem runSteps_parseLine_eq_ok {funcs : Handlers} {s s' : Parsed} {lines : List Bytes}
    (h : runSteps (parseLine funcs) s lines = .ok s') :
    ∃ r calls, runSteps processLine
        { reply := s.conn.reply, readingData := s.conn.readingData, processed := [] } lines =
          .ok r ∧
      r.processed.mapM (processReplyCalls funcs) = .ok calls ∧
      s' = { conn := { s.conn with reply := r.reply, readingData := r.readingData }
             calls := s.calls ++ calls.flatten } := by
  induction lines generalizing s with
  | nil =>
    obtain rfl := Except.ok.inj h
    exact ⟨_, [], rfl, rfl, by simp⟩
  | cons line lines ih =>
    obtain ⟨u, hu, hrest⟩ := runSteps_cons_eq_ok.mp h
    unfold parseLine at hu
    split at hu
    · simp at hu
    · next r hline =>
      split at hu
      · simp at hu
      · next calls hcalls =>
        obtain rfl := Except.ok.inj hu
        obtain ⟨t, more, hloop, hmore, rfl⟩ := ih hrest
        refine ⟨t.after r.processed, calls ++ more, ?_, ?_, ?_⟩
        · rw [runSteps_cons_of_ok hline]
          have hr : r = Replies.after r.processed
              { reply := r.reply, readingData := r.readingData, processed := [] } := by
            simp [Replies.after]
          rw [hr, runSteps_map (processLine_after r.processed)]
          dsimp only [Replies.after] at hloop ⊢
          rw [hloop]
          simp [Except.map, Replies.after]
        · dsimp only [Replies.after]
          rw [List.mapM_append, hcalls, hmore]
          rfl
        · dsimp only [Replies.after]
          rw [List.flatten_append, List.append_assoc]

/-- An activation with the parsers is an activation, and the parsers see the replies that it hands
over. -/
theorem activateInput_of_parseInput {funcs : Handlers} {s s' : Parsed} {received : Bytes}
    (h : parseInput funcs s received = .ok s') :
    ∃ r calls, activateInput s.conn received = .ok r ∧ s'.conn = r.conn ∧
      r.processed.mapM (processReplyCalls funcs) = .ok calls ∧
      s'.calls = s.calls ++ calls.flatten := by
  unfold parseInput at h
  split_ifs at h with hspace
  dsimp only at h
  split at h
  · simp at h
  · next t hrun =>
    obtain ⟨r, calls, hloop, hcalls, rfl⟩ := runSteps_parseLine_eq_ok hrun
    obtain rfl := Except.ok.inj h
    refine ⟨{ conn := _, processed := r.processed }, calls, ?_, rfl, hcalls, rfl⟩
    simp only [activateInput, if_neg hspace, hloop]

/-- The field by which the circuit builder knows a struct. -/
def UserData.firstField : UserData → Int
  | .extended circID => circID
  | .bootstrapPhase progress _ => progress

/-- The parts of a string at the first delimiter, as a vector and as a pair. -/
theorem strsplitMax_one {d : Byte} {s : Bytes} (hs : s ≠ []) :
    strsplitMax d 1 s = (strsplit2 d s).1 :: (strsplit2 d s).2.toList := by
  unfold strsplitMax
  rw [if_neg hs]
  unfold splitUpTo
  split
  · next part hsplit => simp [hsplit]
  · next part rest hsplit => simp [hsplit, splitUpTo]

/-- One part of a bootstrap-phase line sets the progress or leaves it. -/
theorem fst_eq_of_phasePart {phase phase' : Int × Option Bytes} {part : Bytes}
    (h : phasePart phase part = .ok phase') :
    phase'.1 = if (strsplit2 61 part).1 = ascii "PROGRESS" then
      toInt32 (strtol ((strsplit2 61 part).2.getD [])) else phase.1 := by
  unfold phasePart at h
  by_cases hpart : part = []
  · subst hpart
    obtain rfl := Except.ok.inj h
    rw [if_neg (by decide)]
  · rw [strsplitMax_one hpart] at h
    dsimp only at h
    split_ifs at h ⊢ with hprogress hsummary
    · cases hvalue : (strsplit2 61 part).2 with
      | none => simp [hvalue, token, entry] at h
      | some value =>
        simp only [hvalue, Option.toList_some] at h
        obtain rfl := Except.ok.inj h
        rfl
    · cases hvalue : (strsplit2 61 part).2 with
      | none =>
        simp only [hvalue, Option.toList_none] at h
        obtain rfl := Except.ok.inj h
        rfl
      | some value =>
        simp only [hvalue, Option.toList_some] at h
        obtain rfl := Except.ok.inj h
        rfl
    · obtain rfl := Except.ok.inj h
      rfl

/-- Where the parser succeeds, the builder is given the first field of the struct. -/
theorem userDataOf_of_parseUserData {body : Bytes} {userData : Option UserData}
    (h : parseUserData body = .ok userData) :
    userDataOf body = .ok (userData.map UserData.firstField) := by
  have hphases : ∀ {parts : List Bytes} {phase phase' : Int × Option Bytes},
      parts.foldlM phasePart phase = .ok phase' →
      phase'.1 = parts.foldl (fun progress part =>
        let var := strsplit2 61 part
        if var.1 = ascii "PROGRESS" then toInt32 (strtol (var.2.getD []))
          else progress) phase.1 := by
    intro parts
    induction parts with
    | nil =>
      intro phase phase' h
      obtain rfl := Except.ok.inj h
      rfl
    | cons part parts ih =>
      intro phase phase' h
      rw [List.foldlM_cons] at h
      cases hpart : phasePart phase part with
      | error fault =>
        rw [hpart] at h
        cases h
      | ok phase₁ =>
        rw [hpart] at h
        rw [ih h, fst_eq_of_phasePart hpart]
        rfl
  unfold parseUserData at h
  unfold userDataOf
  dsimp only at h
  split_ifs at h ⊢ with hext hphase
  · cases hid : token (strsplit 32 body) 1 with
    | error fault =>
      rw [hid] at h
      simp at h
    | ok circID =>
      rw [hid] at h
      obtain rfl := Except.ok.inj h
      rw [token_eq_ok.mp hid]
      rfl
  · cases hphases' : (strsplit 32 body).foldlM phasePart (0, none) with
    | error fault =>
      rw [hphases'] at h
      simp at h
    | ok phase =>
      rw [hphases'] at h
      obtain rfl := Except.ok.inj h
      unfold progressOf
      rw [← hphases hphases']
      rfl
  · obtain rfl := Except.ok.inj h
    rfl

/-- A circuit event of two words. -/
theorem not_succeeds_shortCircEvent :
    ¬∀ (funcs : Handlers) (chunks : List Bytes),
      Succeeds (runSteps (parseInput funcs) { conn := Connection.new, calls := [] } chunks) := by
  intro h
  have hfault : runSteps (parseInput Handlers.circuitBuild) { conn := Connection.new, calls := [] }
      [ascii "650 CIRC 5\r\n"] = .error (.token .missing) := by decide +kernel
  have hok := h Handlers.circuitBuild [ascii "650 CIRC 5\r\n"]
  rw [hfault] at hok
  exact not_succeeds_error _ hok

end ShadowExtras.TorControl
