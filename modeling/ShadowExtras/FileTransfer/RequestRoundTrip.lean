import ShadowExtras.FileTransfer.FileServerRuns
import ShadowExtras.FileTransfer.Filegetter

/-!
# From the getter's request to the server

The getter writes `FT_HTTP_GET_FMT` into a buffer of `FT_BUF_SIZE` bytes; path and host name may
have up to 255 bytes each. The server collects the request in a buffer of `FT_STR_SIZE` bytes and
gives up when it is full before an empty line was found. So the path arrives just if the first empty
line of the request ends within 255 bytes (`Fits`), however the bytes are cut.
-/

namespace ShadowExtras.FileTransfer

open Foundation

/-! ## The request on the wire -/

/-- A remote path that fits into its field and is one word of a request line. -/
structure ValidPath (path : Bytes) : Prop where
  length : path.length < strSize
  head : path.head? = some 47
  chars : ∀ b ∈ path, b ≠ 32 ∧ b ≠ cr ∧ b ≠ lf ∧ b ≠ 0

/-- A host name that fits into its field. -/
structure ValidHost (hostname : Bytes) : Prop where
  ne_nil : hostname ≠ []
  length : hostname.length < strSize
  chars : ∀ b ∈ hostname, b ≠ 0

/-- The first empty line of the request ends within the bytes that the server can hold. -/
def Fits (path hostname : Bytes) : Prop :=
  (strcasestr twoCrlf (Filegetter.getRequest path hostname)).any fun i =>
    i + twoCrlf.length < strSize

instance (path hostname : Bytes) : Decidable (Fits path hostname) := by
  unfold Fits
  infer_instance

/-- An outcome of `recv` while the peer sends: some bytes, or none yet. -/
def Delivers : Answer → Prop
  | .ready _ => True
  | .closed => False
  | .failed errno => errno = .wouldBlock

instance : DecidablePred Delivers := fun answer => by
  unfold Delivers
  split <;> infer_instance

/-- The bytes that the calls of `recv` ask for. -/
def asked : List Answer → Nat
  | [] => 0
  | .ready k :: answers => k + 1 + asked answers
  | _ :: answers => asked answers

/-- The part of the request that the server holds. -/
def ServerConnection.held (c : ServerConnection) :
    Bytes := if c.state = .idle then [] else c.request.buf

/-- The connection waits for the request or its rest. -/
def Awaits (c : ServerConnection) : Prop := c.state = .idle ∨ c.state = .request

instance : DecidablePred Awaits := fun c => by
  unfold Awaits
  infer_instance

/-- The activations of a connection on which `wire` is still to be received, up to the one that
leaves `FS_REQUEST`; its outcome. -/
def readRequest (files : Bytes → Option Bytes) (docroot : Bytes) (c : ServerConnection)
    (wire : Bytes) :
    List Answer → Option Outcome
  | [] => none
  | answer :: answers =>
    let received := answer.recv wire (strSize - c.held.length - 1)
    let o := activateConnection files docroot c received []
    if Awaits o.act.conn ∧ o.closed = false then
      readRequest files docroot o.act.conn (wire.drop (received.toOption.getD []).length) answers
    else some o

/-- The activation has gone through `FS_REPLY_FILE_START` with this path in `request.filepath`. -/
def RepliesFile (files : Bytes → Option Bytes) (docroot filepath : Bytes) (o : Outcome) : Prop :=
  ∃ a : Activation, a.conn.request.filepath = filepath ∧ a.conn.request.done = true ∧
    o = startReply files docroot a []

/-- However the request is cut, it is understood as one for the path once it was received. -/
def RoundTrips (files : Bytes → Option Bytes) (docroot : Bytes) (c : ServerConnection)
    (request path : Bytes) : Prop :=
  ∀ answers, (∀ answer ∈ answers, Delivers answer) → request.length ≤ asked answers →
    ∃ o, readRequest files docroot c request answers = some o ∧ RepliesFile files docroot path o

/-! ## The text of the request -/

/-- A character below the letters is like no other one. -/
theorem eq_of_toLower_eq {a b : Byte} (ha : a.toNat < 65) (h : toLower a = toLower b) : a = b := by
  have hself : toLower a = a := by
    rw [toLower, if_neg]
    rw [UInt8.le_iff_toNat_le]
    exact fun hcapital => absurd hcapital.1 (Nat.not_le.mpr ha)
  rw [hself, toLower] at h
  split at h
  · rename_i hcapital
    have h65 : 65 ≤ b.toNat := UInt8.le_iff_toNat_le.mp hcapital.1
    have h90 : b.toNat ≤ 90 := UInt8.le_iff_toNat_le.mp hcapital.2
    have hsum : a.toNat = (b.toNat + 32) % 256 := by
      rw [h, UInt8.toNat_add]
      rfl
    omega
  · exact h

/-- A text without the first character of the needle is skipped. -/
theorem clashAll_of_not_mem {n : Byte} {ns a : Bytes} (hn : n.toNat < 65) (h : n ∉ a) :
    clashAll (n :: ns) a = true := by
  refine clashAll_of_forall_ne fun b hb heq => ?_
  exact h (eq_of_toLower_eq hn heq ▸ hb)

/-- No occurrence where the first character of the needle does not occur. -/
theorem strcasestr_eq_none_of_not_mem {n : Byte} {ns a : Bytes} (hn : n.toNat < 65) (h : n ∉ a) :
    strcasestr (n :: ns) a = none := by
  have hclash : clashAll (n :: ns) a = true := clashAll_of_not_mem hn h
  have hskip := strcasestr_append_of_clashAll hclash []
  rw [List.append_nil] at hskip
  rw [hskip]
  simp [strcasestr]

/-- The first occurrence is the first in every beginning of the text that holds it. -/
theorem strcasestr_of_append {needle p x : Bytes} {i : Nat}
    (h : strcasestr needle (p ++ x) = some i)
    (hlength : i + needle.length ≤ p.length) : strcasestr needle p = some i := by
  induction p generalizing i with
  | nil =>
    obtain ⟨rfl, hneedle⟩ : i = 0 ∧ needle = [] := by simpa using hlength
    simp [strcasestr, hneedle]
  | cons c p ih =>
    rw [List.cons_append, strcasestr] at h
    split at h
    · rename_i hp
      obtain rfl : i = 0 := (Option.some.inj h).symm
      refine strcasestr_of_caselessPrefix (caselessPrefix_of_append (p := c :: p) (x := x) hp ?_)
      simpa using hlength
    · rename_i hp
      obtain ⟨j, hj, rfl⟩ := Option.map_eq_some_iff.mp h
      have hlength' : j + needle.length ≤ p.length := by
        simp only [List.length_cons] at hlength
        omega
      have hno : ¬caselessPrefix needle (c :: p) = true :=
        fun hyes => hp (caselessPrefix_append hyes x)
      rw [strcasestr, if_neg hno, ih hj hlength']
      rfl

/-- A text that ends with the needle holds it. -/
theorem strcasestr_append_self_ne_none (needle a : Bytes) :
    strcasestr needle (a ++ needle) ≠ none := by
  induction a with
  | nil =>
    have hself := caselessPrefix_append_self needle []
    rw [List.append_nil] at hself
    rw [List.nil_append, strcasestr_of_caselessPrefix hself]
    simp
  | cons c a ih =>
    rw [List.cons_append, strcasestr]
    split
    · simp
    · rw [Ne, Option.map_eq_none_iff]
      exact ih

/-- The text before the path, and between path and host name. -/
def getText : Bytes := ascii "GET "

def hostText : Bytes := ascii " HTTP/1.1\r\nHost: "

/-- The parts of a request. -/
theorem getRequest_eq {path hostname : Bytes} (hpath : ValidPath path)
    (hhost : ValidHost hostname) :
    Filegetter.getRequest path hostname = getText ++
      (path ++ (hostText ++ (hostname ++ twoCrlf))) := by
  unfold Filegetter.getRequest
  rw [cString_eq_self fun b hb => (hpath.chars b hb).2.2.2, cString_eq_self hhost.chars]
  simp only [List.append_assoc]
  rfl

section RequestText

variable {path hostname : Bytes}

/-- A request holds no NUL. -/
theorem ne_zero_of_mem_getRequest (hpath : ValidPath path) (hhost : ValidHost hostname) :
    ∀ b ∈ Filegetter.getRequest path hostname, b ≠ 0 := by
  have hget : ∀ b ∈ getText, b ≠ 0 := forall_mem_of_all (by decide)
  have hmid : ∀ b ∈ hostText, b ≠ 0 := forall_mem_of_all (by decide)
  have hend : ∀ b ∈ twoCrlf, b ≠ 0 := forall_mem_of_all (by decide)
  intro b hb
  rw [getRequest_eq hpath hhost] at hb
  simp only [List.mem_append] at hb
  rcases hb with hb | hb | hb | hb | hb
  · exact hget b hb
  · exact (hpath.chars b hb).2.2.2
  · exact hmid b hb
  · exact hhost.chars b hb
  · exact hend b hb

/-- A beginning of the request that holds an empty line reaches beyond the path. -/
theorem eq_append_of_prefix {p : Bytes} (hpath : ValidPath path) (hhost : ValidHost hostname)
    (hpre : p <+: Filegetter.getRequest path hostname) (hfound : strcasestr twoCrlf p ≠ none) :
    ∃ rest, p = getText ++ (path ++ 32 :: rest) := by
  have hget : cr ∉ getText := by decide
  rw [getRequest_eq hpath hhost, ← List.append_assoc] at hpre
  by_cases hlength : p.length ≤ (getText ++ path).length
  · -- without a carriage return there is no empty line
    have hshort : p <+: getText ++ path := List.prefix_of_prefix_length_le hpre
      (List.prefix_append _ _) hlength
    refine absurd (strcasestr_eq_none_of_not_mem (by decide) fun hmem => ?_) hfound
    rcases List.mem_append.mp (hshort.subset hmem) with hmem | hmem
    · exact hget hmem
    · exact (hpath.chars _ hmem).2.1 rfl
  · have hlong : getText ++ path ++ [32] <+: getText ++ path ++
      (hostText ++ (hostname ++ twoCrlf)) := by
      rw [List.prefix_append_right_inj]
      exact ⟨ascii "HTTP/1.1\r\nHost: " ++ (hostname ++ twoCrlf), by rfl⟩
    obtain ⟨rest, hrest⟩ := List.prefix_of_prefix_length_le hlong hpre (by
      rw [List.length_append, List.length_singleton]
      omega)
    refine ⟨rest, ?_⟩
    rw [← hrest]
    simp

/-- The path is found in every beginning of the request that holds an empty line. -/
theorem requestPath_of_isPrefix {p : Bytes} (hpath : ValidPath path) (hhost : ValidHost hostname)
    (hpre : p <+: Filegetter.getRequest path hostname) (hfound : strcasestr twoCrlf p ≠ none) :
    requestPath p = some path := by
  have hself : cString p = p := cString_eq_self fun b hb =>
    ne_zero_of_mem_getRequest hpath hhost b (hpre.subset hb)
  obtain ⟨rest, hp⟩ := eq_append_of_prefix hpath hhost hpre hfound
  have hget : strcasestr (ascii "GET ") p = some 0 := by
    rw [hp]
    exact strcasestr_of_caselessPrefix (caselessPrefix_append_self _ _)
  have hdrop : p.drop (0 + 4) = path ++ 32 :: rest := by
    rw [hp]
    exact List.drop_left' (by rfl)
  have hspace : strcasestr (ascii " ") (path ++ 32 :: rest) = some path.length := by
    have hskip : clashAll (ascii " ") path = true :=
      clashAll_of_not_mem (by decide) fun hmem => (hpath.chars _ hmem).1 rfl
    rw [strcasestr_append_of_clashAll hskip]
    simp [strcasestr, ascii, caselessPrefix]
  have hlength : ¬(path.length = 0 ∨ path.length > strSize - 1) := by
    rintro (hzero | hlong)
    · have hhead := hpath.head
      rw [List.length_eq_zero_iff.mp hzero] at hhead
      cases hhead
    · have := hpath.length
      omega
  unfold requestPath
  rw [hself, hget]
  dsimp only
  rw [hdrop, hspace]
  dsimp only
  rw [if_neg hlength, List.take_left]

/-- The request holds an empty line. -/
theorem exists_strcasestr_getRequest (path hostname : Bytes) :
    ∃ i, strcasestr twoCrlf (Filegetter.getRequest path hostname) = some i :=
  Option.ne_none_iff_exists'.mp (strcasestr_append_self_ne_none twoCrlf _)

end RequestText

/-! ## Reading the request -/

section Reading

variable {files : Bytes → Option Bytes} {docroot path hostname : Bytes} {c : ServerConnection}
  {wire : Bytes}

/-- What an activation starts from. -/
def Activation.begin (c : ServerConnection) : Activation :=
  { conn := if c.state = .idle then resetIdle c else c
    progress := Progress.ofConnection c
    received := 0
    sent := []
    replies := 0 }

/-- A connection that awaits a request takes a step with it. -/
theorem activateConnection_of_awaits (files : Bytes → Option Bytes) (docroot : Bytes) (h : Awaits c)
    (received : Except Errno Bytes) (answers : List Answer) :
    activateConnection files docroot c received answers =
        requestStep files docroot (Activation.begin c) received answers ∧
      (Activation.begin c).conn.request.buf = c.held ∧ Awaits (Activation.begin c).conn := by
  rcases h with hidle | hrequest
  · refine ⟨?_, ?_, ?_⟩
    · simp [activateConnection, Activation.begin, hidle]
    · simp [Activation.begin, ServerConnection.held, hidle, resetIdle]
    · simp [Activation.begin, Awaits, hidle, resetIdle]
  · refine ⟨?_, ?_, ?_⟩
    · simp [activateConnection, Activation.begin, hrequest]
    · simp [Activation.begin, ServerConnection.held, hrequest]
    · simp [Activation.begin, Awaits, hrequest]

/-- What a reply that has started looks like before the first `send`. -/
theorem startReply_cases (files : Bytes → Option Bytes) (docroot : Bytes) (a : Activation) :
    (startReply files docroot a []).act.conn.epoll = .output ∧
      ((startReply files docroot a []).closed = true ∨
        ¬Awaits (startReply files docroot a []).act.conn) := by
  unfold startReply
  split
  · refine ⟨rfl, .inr ?_⟩
    simp [replyLoop, Activation.load, Activation.return, reply404Start, Awaits]
  · rename_i content _
    split
    · exact ⟨rfl, .inl rfl⟩
    · obtain ⟨hepoll, hstate⟩ := load_epoll { a with conn := replyFileStart a.conn content }
      have hstarted : ¬Awaits (replyFileStart a.conn content) := by
        unfold replyFileStart Awaits
        dsimp only
        split <;> simp
      refine ⟨hepoll, .inr ?_⟩
      simp only [replyLoop, Activation.return]
      rcases hstate with hsame | hsend
      · unfold Awaits
        rw [hsame]
        exact hstarted
      · simp [Awaits, hsend]

/-- Nothing has arrived: the connection goes on waiting. -/
theorem readRequest_wouldBlock (files : Bytes → Option Bytes) (docroot : Bytes) (h : Awaits c)
    (hspace : c.held.length < strSize - 1) {answer : Answer}
    (hanswer : answer.recv wire (strSize - c.held.length - 1) = .error .wouldBlock)
    (answers : List Answer) : ∃ c', Awaits c' ∧ c'.held = c.held ∧
      readRequest files docroot c wire (answer :: answers) =
        readRequest files docroot c' wire answers := by
  obtain ⟨hactivate, hbuf, hawaits⟩ := activateConnection_of_awaits files docroot h
    (.error .wouldBlock) []
  have hstep : requestStep files docroot (Activation.begin c) (.error .wouldBlock) [] =
      (Activation.begin c).return .errWouldblock := by
    have hne : ¬strSize - (Activation.begin c).conn.request.buf.length - 1 = 0 := by
      rw [hbuf]
      omega
    simp [requestStep, hne]
  refine ⟨(Activation.begin c).conn, hawaits, ?_, ?_⟩
  · unfold ServerConnection.held
    rw [hbuf]
    unfold ServerConnection.held
    by_cases hidle : c.state = .idle
    · simp [hidle, Activation.begin, resetIdle]
    · simp [hidle, Activation.begin]
  · rw [readRequest, hanswer, hactivate, hstep]
    exact if_pos ⟨hawaits, rfl⟩

/-- Bytes have arrived: the connection goes on waiting if there is no empty line, and else
replies. -/
theorem readRequest_received (files : Bytes → Option Bytes) (docroot : Bytes) (h : Awaits c)
    (hspace : c.held.length < strSize - 1) {answer : Answer}
    {bytes : Bytes} (hne : bytes ≠ []) (hlength : bytes.length ≤ strSize - c.held.length - 1)
    (hanswer : answer.recv wire (strSize - c.held.length - 1) = .ok bytes) (answers : List Answer) :
    (strcasestr twoCrlf (cString (c.held ++ bytes)) = none → ∃ c', c'.state = .request ∧
      c'.held = c.held ++ bytes ∧ (c.state = .idle → c'.epoll = .input) ∧
      readRequest files docroot c wire (answer :: answers) =
        readRequest files docroot c' (wire.drop bytes.length) answers) ∧
    (∀ filepath, strcasestr twoCrlf (cString (c.held ++ bytes)) ≠ none →
      requestPath (c.held ++ bytes) = some filepath → ∃ o,
        readRequest files docroot c wire (answer :: answers) = some o ∧
          RepliesFile files docroot filepath o) := by
  obtain ⟨hactivate, hbuf, hawaits⟩ := activateConnection_of_awaits files docroot h (.ok bytes) []
  obtain ⟨b, bs, rfl⟩ := List.exists_cons_of_ne_nil hne
  have hroom : ¬strSize - c.held.length - 1 = 0 := by omega
  have htake : (b :: bs).take (strSize - c.held.length - 1) = b :: bs :=
    List.take_of_length_le hlength
  have hstep := hactivate
  unfold requestStep at hstep
  rw [hbuf] at hstep
  simp only [hroom, if_false, htake] at hstep
  have hreceived : ((Activation.begin c).receive (b :: bs)).conn.request.buf =
      c.held ++ b :: bs := by
    rw [← hbuf]
    rfl
  rw [hreceived] at hstep
  refine ⟨fun hnone => ?_, fun filepath hfound hpath => ?_⟩
  · rw [hnone] at hstep
    dsimp only at hstep
    refine ⟨((Activation.begin c).receive (b :: bs)).conn, by rfl, hreceived, fun hidle => ?_, ?_⟩
    · simp [Activation.receive, Activation.begin, hidle, resetIdle]
    rw [readRequest, hanswer, hstep]
    exact if_pos ⟨.inr rfl, rfl⟩
  · obtain ⟨i, hi⟩ := Option.ne_none_iff_exists'.mp hfound
    rw [hi] at hstep
    dsimp only at hstep
    rw [hpath] at hstep
    dsimp only at hstep
    obtain ⟨a, ha⟩ : ∃ a, a = ((Activation.begin c).receive (b :: bs)).requestDone filepath :=
      ⟨_, rfl⟩
    rw [← ha] at hstep
    refine ⟨startReply files docroot a [], ?_, a, ?_, ?_, by rfl⟩
    · rw [readRequest, hanswer, hstep]
      refine if_neg ?_
      rintro ⟨hawaits', hopen⟩
      rcases (startReply_cases files docroot a).2 with hclosed | hreplies
      · rw [hopen] at hclosed
        cases hclosed
      · exact hreplies hawaits'
    · rw [ha]
      rfl
    · rw [ha]
      rfl

/-- The buffer is full: the connection gives up. -/
theorem readRequest_full (files : Bytes → Option Bytes) (docroot wire : Bytes)
    (hstate : c.state = .request) (hfull : strSize - c.held.length - 1 = 0)
    (answer : Answer) (answers : List Answer) : ∃ o,
      readRequest files docroot c wire (answer :: answers) = some o ∧
      o.act.conn.epoll = c.epoll := by
  obtain ⟨hactivate, hbuf, -⟩ := activateConnection_of_awaits files docroot (.inr hstate)
    (answer.recv wire (strSize - c.held.length - 1)) []
  unfold requestStep at hactivate
  rw [hbuf] at hactivate
  simp only [hfull, if_true] at hactivate
  have hbegin : (Activation.begin c).conn = c := by simp [Activation.begin, hstate]
  rw [hbegin] at hactivate
  obtain ⟨a, ha⟩ : ∃ a, a = { Activation.begin c with conn := reply404Start c } := ⟨_, rfl⟩
  rw [← ha] at hactivate
  obtain ⟨hepoll, hsend⟩ := load_epoll a
  have hsending : a.load.conn.state = .replySend := by
    rw [ha] at hsend ⊢
    exact hsend.elim id id
  refine ⟨replyLoop a [], ?_, ?_⟩
  · rw [readRequest, hfull, hactivate]
    refine if_neg fun hwaits => ?_
    rcases hwaits.1 with hidle | hrequest
    · exact absurd (hsending.symm.trans hidle) (by simp)
    · exact absurd (hsending.symm.trans hrequest) (by simp)
  · refine hepoll.trans ?_
    rw [ha]
    rfl

/-- A request whose first empty line ends within the buffer is understood. -/
theorem readRequest_of_fits (hpath : ValidPath path) (hhost : ValidHost hostname)
    (hfits : Fits path hostname) {answers : List Answer}
    (hdelivers : ∀ answer ∈ answers, Delivers answer) (hawaits : Awaits c)
    (hsplit : c.held ++ wire = Filegetter.getRequest path hostname)
    (hnone : strcasestr twoCrlf c.held = none) (hasked : wire.length ≤ asked answers) :
    ∃ o, readRequest files docroot c wire answers = some o ∧ RepliesFile files docroot path o := by
  obtain ⟨i, hi⟩ := exists_strcasestr_getRequest path hostname
  have hlt : i + twoCrlf.length < strSize := by simpa [Fits, hi] using hfits
  have hshort : ∀ p, p <+: Filegetter.getRequest path hostname → strcasestr twoCrlf p = none →
      p.length < i + twoCrlf.length := by
    rintro p ⟨rest, hrest⟩ hp
    by_contra hlong
    rw [← hrest] at hi
    rw [strcasestr_of_append hi (Nat.le_of_not_lt hlong)] at hp
    cases hp
  induction answers generalizing c wire with
  | nil =>
    have hempty : wire = [] := List.length_eq_zero_iff.mp (Nat.le_zero.mp hasked)
    rw [hempty, List.append_nil] at hsplit
    rw [hsplit, hi] at hnone
    cases hnone
  | cons answer answers ih =>
    have hheld : c.held.length < i + twoCrlf.length := hshort c.held ⟨wire, hsplit⟩ hnone
    have hspace : c.held.length < strSize - 1 := by omega
    have hwire : wire ≠ [] := by
      rintro rfl
      rw [List.append_nil] at hsplit
      rw [hsplit, hi] at hnone
      cases hnone
    have hrest : ∀ answer ∈ answers, Delivers answer :=
      fun answer hmem => hdelivers answer (List.mem_cons_of_mem _ hmem)
    cases answer with
    | closed => exact absurd (hdelivers .closed (by simp)) (by simp [Delivers])
    | failed errno =>
      have hblocks : (Answer.failed errno).recv wire (strSize - c.held.length - 1) =
          .error .wouldBlock := by
        rw [show errno = .wouldBlock from hdelivers (.failed errno) (by simp)]
        rfl
      obtain ⟨c', hawaits', hheld', hread⟩ := readRequest_wouldBlock files docroot
        hawaits hspace hblocks answers
      rw [hread]
      exact ih hrest hawaits' (by rw [hheld']; exact hsplit) (by rw [hheld']; exact hnone) hasked
    | ready k =>
      obtain ⟨bytes, hbytes⟩ : ∃ bytes,
          bytes = wire.take (min (k + 1) (strSize - c.held.length - 1)) :=
        ⟨_, rfl⟩
      have hpos : 0 < wire.length := List.length_pos_iff.mpr hwire
      have hanswer : (Answer.ready k).recv wire (strSize - c.held.length - 1) = .ok bytes := by
        have hroom : ¬strSize - c.held.length - 1 = 0 := by omega
        rw [Answer.recv, if_neg hroom, if_neg (by omega), hbytes]
      have hcount : bytes.length = min (min (k + 1) (strSize - c.held.length - 1)) wire.length := by
        rw [hbytes, List.length_take]
      have hne : bytes ≠ [] := by
        apply List.ne_nil_of_length_pos
        omega
      have hpre : c.held ++ bytes <+: Filegetter.getRequest path hostname := by
        rw [← hsplit, List.prefix_append_right_inj, hbytes]
        exact List.take_prefix _ _
      have hself : cString (c.held ++ bytes) = c.held ++ bytes := cString_eq_self fun b hb =>
        ne_zero_of_mem_getRequest hpath hhost b (hpre.subset hb)
      obtain ⟨hwaits, hreplies⟩ := readRequest_received files docroot hawaits
        hspace hne (by omega) hanswer answers
      rw [hself] at hwaits hreplies
      by_cases hfound : strcasestr twoCrlf (c.held ++ bytes) = none
      · obtain ⟨c', hstate, hheld', -, hread⟩ := hwaits hfound
        have hlength := hshort _ hpre hfound
        rw [List.length_append] at hlength
        rw [hread]
        refine ih hrest (.inr hstate) ?_ ?_ ?_
        · have htake : bytes <+: wire := hbytes ▸ List.take_prefix _ _
          rw [hheld', ← hsplit, List.append_assoc, ← List.prefix_iff_eq_append.mp htake]
          simp
        · rw [hheld']
          exact hfound
        · rw [List.length_drop]
          simp only [asked] at hasked
          omega
      · exact hreplies path hfound (requestPath_of_isPrefix hpath hhost hpre hfound)

/-- The server gives up a request whose first empty line ends behind its buffer. -/
theorem not_roundTrips_of_not_fits (hpath : ValidPath path) (hhost : ValidHost hostname)
    (hidle : c.state = .idle) (hfits : ¬Fits path hostname) :
    ¬RoundTrips files docroot c (Filegetter.getRequest path hostname) path := by
  obtain ⟨i, hi⟩ := exists_strcasestr_getRequest path hostname
  have hlong : strSize ≤ i + twoCrlf.length := by simpa [Fits, hi] using hfits
  have hlength := add_length_le_of_strcasestr hi
  obtain ⟨request, hrequest⟩ : ∃ request, request = Filegetter.getRequest path hostname := ⟨_, rfl⟩
  rw [← hrequest] at hi hlength ⊢
  have hheld : c.held = [] := by simp [ServerConnection.held, hidle]
  obtain ⟨bytes, hbytes⟩ : ∃ bytes, bytes = request.take 255 := ⟨_, rfl⟩
  have hcount : bytes.length = 255 := by
    have : strSize = 256 := rfl
    rw [hbytes, List.length_take]
    omega
  have hpre : bytes <+: request := hbytes ▸ List.take_prefix _ _
  -- the first call of `recv` fills the buffer
  have hanswer : (Answer.ready 254).recv request (strSize - c.held.length - 1) = .ok bytes := by
    have : strSize = 256 := rfl
    rw [hheld, Answer.recv, if_neg (by simp [this]), if_neg (by omega), hbytes]
    rfl
  have hself : cString bytes = bytes := cString_eq_self fun b hb =>
    ne_zero_of_mem_getRequest hpath hhost b (hrequest ▸ hpre.subset hb)
  have hnone : strcasestr twoCrlf bytes = none := by
    by_contra hfound
    obtain ⟨j, hj⟩ := Option.ne_none_iff_exists'.mp hfound
    obtain ⟨rest, hrest⟩ := hpre
    have hsome := strcasestr_append_of_some hj rest
    rw [hrest, hi] at hsome
    obtain rfl := Option.some.inj hsome
    have hfit := add_length_le_of_strcasestr hj
    have : strSize = 256 := rfl
    omega
  intro hround
  obtain ⟨o, hread, a, -, -, ho⟩ := hround [.ready 254, .ready request.length]
    (by simp [Delivers]) (by simp only [asked]; omega)
  obtain ⟨hwaits, -⟩ := readRequest_received files docroot (.inl hidle)
    (by rw [hheld]; decide) (List.ne_nil_of_length_pos (by omega))
    (by rw [hheld, hcount]; decide) hanswer [.ready request.length]
  rw [hheld, List.nil_append, hself] at hwaits
  obtain ⟨c', hstate, hheld', hepoll, hread'⟩ := hwaits hnone
  have hfull : strSize - c'.held.length - 1 = 0 := by
    rw [hheld', hcount]
    rfl
  obtain ⟨o', hread'', hepoll'⟩ := readRequest_full files docroot (request.drop bytes.length) hstate
    hfull (.ready request.length) []
  rw [hread', hread''] at hread
  obtain rfl := Option.some.inj hread
  have houtput := (startReply_cases files docroot a).1
  rw [← ho, hepoll', hepoll hidle] at houtput
  cases houtput

/-- The request that the getter writes is understood, however it is cut, just if its first empty
line ends within the server's buffer. -/
theorem roundTrips_iff_fits {fg fg' : Filegetter} (hwrite : fg.requestHttp = .ok (.call fg'))
    (hpath : ValidPath fg.fspec.remotePath) (hhost : ValidHost fg.sspec.httpHostname)
    (files : Bytes → Option Bytes) (docroot : Bytes) (hidle : c.state = .idle) :
    RoundTrips files docroot c (fg'.buf.drop fg.buf.length) fg.fspec.remotePath ↔
      Fits fg.fspec.remotePath fg.sspec.httpHostname := by
  have hrequest : fg'.buf.drop fg.buf.length =
      Filegetter.getRequest fg.fspec.remotePath fg.sspec.httpHostname := by
    unfold Filegetter.requestHttp at hwrite
    dsimp only at hwrite
    split at hwrite
    · cases hwrite
    · split at hwrite
      · cases hwrite
      · split at hwrite
        · cases hwrite
        · obtain rfl := Next.call.inj (Except.ok.inj hwrite)
          simp [Filegetter.sendThen]
  rw [hrequest]
  constructor
  · intro hround
    by_contra hfits
    exact not_roundTrips_of_not_fits hpath hhost hidle hfits hround
  · intro hfits answers hdelivers hasked
    have hheld : c.held = [] := by simp [ServerConnection.held, hidle]
    apply readRequest_of_fits hpath hhost hfits hdelivers (.inl hidle) ?_ ?_ hasked
    · rw [hheld, List.nil_append]
    · rw [hheld]
      decide

end Reading

/-- For a host name without line breaks the whole request has to fit. -/
theorem fits_iff_length {path hostname : Bytes} (hpath : ValidPath path)
    (hhost : ValidHost hostname)
    (hbreaks : cr ∉ hostname) : Fits path hostname ↔ path.length + hostname.length ≤ 230 := by
  have hskip : clashAll twoCrlf (getText ++ (path ++ (hostText ++ hostname))) = true := by
    apply clashAll_append (by decide)
    apply clashAll_append (clashAll_of_not_mem (by decide) fun hmem => (hpath.chars _ hmem).2.1 rfl)
    exact clashAll_append (by decide) (clashAll_of_not_mem (by decide) hbreaks)
  have hfound : strcasestr twoCrlf twoCrlf = some 0 := by decide
  have hrequest := getRequest_eq hpath hhost
  have hassoc : getText ++ (path ++ (hostText ++ (hostname ++ twoCrlf))) =
      getText ++ (path ++ (hostText ++ hostname)) ++ twoCrlf := by simp
  unfold Fits
  rw [hrequest, hassoc, strcasestr_append_of_clashAll hskip, hfound]
  have hget : getText.length = 4 := by decide
  have hmid : hostText.length = 17 := by decide
  have hend : twoCrlf.length = 4 := by decide
  have hsize : strSize = 256 := rfl
  simp only [Option.map_some, Option.any_some, List.length_append, decide_eq_true_eq]
  omega

/-- The getter at the point where it writes its request. -/
def requesting (path hostname : Bytes) : Filegetter :=
  { Filegetter.start with
    fspec := { remotePath := path, localPath := [], doSave := false, saveToMemory := false }
    sspec := { ServerSpec.zero with httpHostname := hostname }
    state := .requestHttp }

/-- A short path and a short host name. -/
theorem roundTrips_iff_fits_short :
    RoundTrips (fun _ => none) [] ServerConnection.new
      (Filegetter.getRequest (ascii "/a") (ascii "b")) (ascii "/a") := by
  have hwrite : (requesting (ascii "/a") (ascii "b")).requestHttp =
      .ok (.call ({ requesting (ascii "/a") (ascii "b") with
        buf := Filegetter.getRequest (ascii "/a") (ascii "b") }.sendThen .toReplyHttp)) := by
    decide +kernel
  exact (roundTrips_iff_fits hwrite ⟨by decide, by decide, forall_mem_of_all (by decide)⟩
    ⟨by decide, by decide, forall_mem_of_all (by decide)⟩ (fun _ => none) [] rfl).mpr (by decide)

/-- The longest path that fits into its field, and a host name of one character. -/
def longPath : Bytes := 47 :: List.replicate 254 97

theorem length_longPath : longPath.length = 255 := by
  rw [longPath, List.length_cons, List.length_replicate]

/-- A request with a path of 255 bytes does not fit. -/
theorem not_roundTrips_longPath : ValidPath longPath ∧ ValidHost (ascii "b") ∧
    ¬RoundTrips (fun _ => none) [] ServerConnection.new
      (Filegetter.getRequest longPath (ascii "b")) longPath := by
  have hpath : ValidPath longPath := by
    refine ⟨by rw [length_longPath]; decide, by rw [longPath, List.head?_cons], fun b hb => ?_⟩
    rcases List.mem_cons.mp hb with rfl | hb
    · decide
    · obtain ⟨-, rfl⟩ := List.mem_replicate.mp hb
      decide
  have hhost : ValidHost (ascii "b") := ⟨by decide, by decide, forall_mem_of_all (by decide)⟩
  refine ⟨hpath, hhost, not_roundTrips_of_not_fits hpath hhost rfl ?_⟩
  rw [fits_iff_length hpath hhost (by decide), length_longPath]
  decide

end ShadowExtras.FileTransfer
