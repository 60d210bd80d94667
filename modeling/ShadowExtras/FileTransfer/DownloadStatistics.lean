import ShadowExtras.FileTransfer.FilegetterBuffer

/-!
# The statistics of a download

`curstats` counts what goes over the socket and measures two times from `download_start`. A call of
`filegetter_download` that connects sets the clock and clears the counters; one that goes on with an
established connection leaves the clock as it is, and goes on even when `filegetter_set_specs` has
refused and cleared nothing.

A `Tally` is kept beside the getter: the reading of the clock at the call that started the download,
and what `send` and `recv` have passed since. `right_of_punctual` compares the statistics with the
tally at each `FG_OK_200`.
-/

namespace ShadowExtras.FileTransfer

open Foundation

/-! ## What belongs to a download -/

/-- The length of the header of a reply, once it is there as a whole. -/
def headerLength (reply : Bytes) : Option ℕ :=
  match strcasestr http200 (cString reply), strcasestr twoCrlf (cString reply) with
  | some _, some content => some (content + twoCrlf.length)
  | _, _ => none

/-- How much of the body is in a reply. -/
def bodyLength (reply : Bytes) : ℕ :=
  match headerLength reply with
  | none => 0
  | some header => reply.length - header

/-- The time from `start` to a reading of the clock; none without a reading. -/
def elapsed (start : Timespec) : Option Timespec → Timespec
  | none => ⟨0, 0⟩
  | some stop => stop.since start

/-- What happened since the call of `filegetter_download` that started the download. -/
structure Tally where
  /-- The reading of the clock at the call. -/
  calledAt : Timespec
  /-- The bytes that `send` has accepted. -/
  uploaded : ℕ
  /-- The bytes that `recv` has delivered. -/
  downloaded : ℕ
  /-- How many of these belong to replies to earlier downloads. -/
  strange : ℕ
  /-- The bytes of such replies that wait on the socket. -/
  waiting : ℕ
  /-- What the file server has replied. -/
  reply : Bytes
  /-- The readings of the clock when the first and the latest bytes of the body were there. -/
  firstAt : Option Timespec
  lastAt : Option Timespec
  deriving DecidableEq, Repr

namespace Tally

/-- A download that starts now, with bytes of earlier replies on its socket. -/
def begin (now : Timespec) (waiting : ℕ) : Tally where
  calledAt := now
  uploaded := 0
  downloaded := 0
  strange := 0
  waiting := waiting
  reply := []
  firstAt := none
  lastAt := none

/-- The reply has grown. -/
def extend (t : Tally) (reply : Bytes) (around : Surroundings) : Tally :=
  if bodyLength t.reply < bodyLength reply then
    { t with
      reply := reply
      firstAt := if bodyLength t.reply = 0 then some around.firstByte else t.firstAt
      lastAt := some around.progress }
  else { t with reply := reply }

/-- `recv` has delivered bytes; bytes of earlier replies come first. -/
def receive (t : Tally) (bytes : Bytes) : Tally :=
  { t with
    downloaded := t.downloaded + bytes.length
    strange := t.strange + min bytes.length t.waiting
    waiting := t.waiting - bytes.length }

/-- The tally after a call of `recv`, which serves the reply of the file server or that of a
proxy. -/
def afterReceive (t : Tally) (nextstate : GetterState) (bytes : Bytes) (around : Surroundings) :
    Tally :=
  let tally := t.receive bytes
  if nextstate = .replyHttp ∨ nextstate = .checkDownload
    then tally.extend (tally.reply ++ bytes) around
  else tally

end Tally

/-- The statistics that a caller finds after `FG_OK_200`, and what happened in truth. -/
structure Receipt where
  stats : FileStats
  tally : Tally
  deriving DecidableEq, Repr

/-- The statistics belong to the download. -/
structure Receipt.Right (r : Receipt) : Prop where
  firstByteTime : r.stats.firstByteTime = elapsed r.tally.calledAt r.tally.firstAt
  downloadTime : r.stats.downloadTime = elapsed r.tally.calledAt r.tally.lastAt
  body : r.stats.bodyBytesDownloaded = bodyLength r.tally.reply
  downloaded : r.stats.bytesDownloaded = r.tally.downloaded
  uploaded : r.stats.bytesUploaded = r.tally.uploaded
  /-- Nothing of another download was counted. -/
  own : r.tally.strange = 0

instance (r : Receipt) : Decidable r.Right :=
  decidable_of_iff
    (r.stats.firstByteTime = elapsed r.tally.calledAt r.tally.firstAt ∧
      r.stats.downloadTime = elapsed r.tally.calledAt r.tally.lastAt ∧
      r.stats.bodyBytesDownloaded = bodyLength r.tally.reply ∧
      r.stats.bytesDownloaded = r.tally.downloaded ∧ r.stats.bytesUploaded = r.tally.uploaded ∧
      r.tally.strange = 0)
    ⟨fun ⟨first, time, body, downloaded, uploaded, own⟩ =>
        ⟨first, time, body, downloaded, uploaded, own⟩,
      fun h => ⟨h.firstByteTime, h.downloadTime, h.body, h.downloaded, h.uploaded, h.own⟩⟩

/-! ## Runs of downloads -/

/-- The download goes on with the connection that is there. -/
def Filegetter.Reuses (fg : Filegetter) (sspec : ServerSpec) (fspec : FileSpec) (fopenOk : Bool) :
    Prop :=
  (fg.setSpecs sspec fspec fopenOk).1.sspec.persistent = true ∧
    (fg.setSpecs sspec fspec fopenOk).1.sockd > 0

instance (fg : Filegetter) (sspec : ServerSpec) (fspec : FileSpec) (fopenOk : Bool) :
    Decidable (fg.Reuses sspec fspec fopenOk) :=
  inferInstanceAs (Decidable (_ ∧ _))

/-- How many bytes a call of `send` accepts. -/
def Filegetter.accepted (fg : Filegetter) (call : Call) : ℕ :=
  (call.answer.send (fg.buf.length - fg.bufReadOffset)).toOption.getD 0

/-- A getter with the tally of its download. -/
structure Metering where
  w : Handshake
  tally : Tally
  /-- History: one for each `FG_OK_200`. -/
  receipts : List Receipt
  deriving DecidableEq, Repr

/-- What happens next: a step of the getter or of its peer, or the peer sends what belongs to the
reply to an earlier download. -/
inductive MeteringEvent
  | occur (o : Occurrence)
  | late (bytes : Bytes)
  deriving DecidableEq, Repr

namespace Metering

/-- A getter that was started. -/
def start : Metering where
  w := .begin Filegetter.start
  tally := .begin ⟨0, 0⟩ 0
  receipts := []

/-- The tally after a call. -/
def tallyCall (s : Metering) (call : Call) : Tally :=
  if s.w.fg.state = .send then
    { s.tally with uploaded := s.tally.uploaded + s.w.fg.accepted call }
  else s.tally.afterReceive s.w.fg.nextstate (s.w.fg.delivered call) call.around

/-- The tally after a step; a download that fails to start leaves it as it is. -/
def tallyAfter (s : Metering) : Occurrence → Tally
  | .download sspec fspec fopenOk connection now =>
    if s.w.running = false ∧ (s.w.fg.download sspec fspec fopenOk connection now).2 = .success then
      .begin now (if s.w.fg.Reuses sspec fspec fopenOk then s.w.fg.incoming.length else 0)
    else s.tally
  | .event (.call call) => if s.w.running then s.tallyCall call else s.tally
  | .event _ => s.tally

/-- The state after a step of the getter. The code that the step returns is noted and forgotten. -/
def after (s : Metering) (w : Handshake) (tally : Tally) : Metering where
  w := { w with code := none }
  tally := tally
  receipts := if w.code = some .ok200 then ⟨w.fg.curstats, tally⟩ :: s.receipts else s.receipts

/-- One step. -/
def step (s : Metering) : MeteringEvent → Except Fault Metering
  | .occur o => (s.w.occur o).map fun w => s.after w (s.tallyAfter o)
  | .late bytes =>
    (s.w.occur (.event (.answer bytes))).map fun w =>
      { s with w := w, tally := { s.tally with waiting := s.tally.waiting + bytes.length } }

/-- A download that goes on with an established connection does so when `filegetter_set_specs`
accepts its specifications, at the reading of the clock that the getter has, and with nothing of an
earlier reply on the socket; nor does any come later. -/
def Punctual (s : Metering) : MeteringEvent → Prop
  | .occur (.download sspec fspec fopenOk _ now) =>
    s.w.running = false → s.w.fg.Reuses sspec fspec fopenOk →
      (s.w.fg.setSpecs sspec fspec fopenOk).2 = .success ∧ s.w.fg.downloadStart = now ∧
        s.w.fg.incoming = []
  | .occur _ => True
  | .late bytes => bytes = []

instance (s : Metering) (e : MeteringEvent) : Decidable (s.Punctual e) := by
  unfold Punctual
  split <;> infer_instance

end Metering

/-! ## Replies that grow -/

section Replies

variable {reply bytes : Bytes} {header : ℕ}

/-- A C string that grows begins as before. -/
theorem isPrefix_cString_append (a x : Bytes) : cString a <+: cString (a ++ x) := by
  induction a with
  | nil => exact List.nil_prefix
  | cons b a ih =>
    by_cases hb : b = 0
    · have hempty : cString (b :: a) = [] := by simp [cString, hb]
      rw [hempty]
      exact List.nil_prefix
    · have hcons : ∀ c : Bytes, cString (b :: c) = b :: cString c := by
        intro c
        simp [cString, hb]
      rw [List.cons_append, hcons, hcons]
      exact (List.prefix_cons_inj b).mpr ih

/-- A header that is there stays where it is. -/
theorem headerLength_append (h : headerLength reply = some header) (bytes : Bytes) :
    headerLength (reply ++ bytes) = some header := by
  obtain ⟨x, hx⟩ := isPrefix_cString_append reply bytes
  unfold headerLength at h ⊢
  rw [← hx]
  split at h
  · rename_i i content h200 hend
    rw [strcasestr_append_of_some h200 x, strcasestr_append_of_some hend x]
    exact h
  · cases h

/-- The header is a part of the reply. -/
theorem headerLength_le (h : headerLength reply = some header) : header ≤ reply.length := by
  unfold headerLength at h
  split at h
  · rename_i hend
    obtain rfl := Option.some.inj h
    have hfits := add_length_le_of_strcasestr hend
    have hle := (isPrefix_cString reply).length_le
    omega
  · cases h

theorem bodyLength_of_headerLength (h : headerLength reply = some header) :
    bodyLength reply = reply.length - header := by
  rw [bodyLength, h]

theorem bodyLength_of_none (h : headerLength reply = none) : bodyLength reply = 0 := by
  rw [bodyLength, h]

/-- Behind the header everything is body. -/
theorem bodyLength_append (h : headerLength reply = some header) (bytes : Bytes) :
    bodyLength (reply ++ bytes) = bodyLength reply + bytes.length := by
  have hle := headerLength_le h
  rw [bodyLength_of_headerLength h, bodyLength_of_headerLength (headerLength_append h bytes),
    List.length_append]
  omega

end Replies

/-! ## The statistics keep up with the tally -/

variable {t : Tally} {clock : Timespec} {stats : FileStats} {fg : Filegetter}
    {around : Surroundings}
  {call : Call} {result : Next}

/-- The statistics of a download under way, measured from `clock`. -/
structure Metered (clock : Timespec) (stats : FileStats) (t : Tally) : Prop where
  right : Receipt.Right ⟨stats, t⟩
  clock : clock = t.calledAt
  waiting : t.waiting = 0

theorem metered_begin (now : Timespec) : Metered now FileStats.zero (.begin now 0) := by
  have hempty : 0 = bodyLength [] := by decide +kernel
  exact ⟨⟨rfl, rfl, hempty, rfl, rfl, rfl⟩, rfl, rfl⟩

/-- The calls of `recv` count what they deliver. -/
theorem Metered.receive (h : Metered clock stats t) (bytes : Bytes) :
    Metered clock { stats with bytesDownloaded := stats.bytesDownloaded + bytes.length }
      (t.receive bytes) := by
  obtain ⟨hfirst, htime, hbody, hdownloaded, huploaded, hown⟩ := h.right
  refine ⟨⟨hfirst, htime, hbody, ?_, huploaded, ?_⟩, h.clock, ?_⟩
  · exact congrArg (· + bytes.length) hdownloaded
  · simp only [Tally.receive, h.waiting]
    simpa using hown
  · simp [Tally.receive, h.waiting]

/-- The calls of `send` count what they accept. -/
theorem Metered.send (h : Metered clock stats t) (bytes : ℕ) :
    Metered clock { stats with bytesUploaded := stats.bytesUploaded + bytes }
      { t with uploaded := t.uploaded + bytes } := by
  obtain ⟨hfirst, htime, hbody, hdownloaded, huploaded, hown⟩ := h.right
  exact ⟨⟨hfirst, htime, hbody, hdownloaded, congrArg (· + bytes) huploaded, hown⟩, h.clock,
    h.waiting⟩

/-- The announced length is not compared. -/
theorem Metered.expect (h : Metered clock stats t) (number : ℕ) :
    Metered clock { stats with bodyBytesExpected := number } t := by
  obtain ⟨hfirst, htime, hbody, hdownloaded, huploaded, hown⟩ := h.right
  exact ⟨⟨hfirst, htime, hbody, hdownloaded, huploaded, hown⟩, h.clock, h.waiting⟩

/-- A reply that grows without a byte of the body. -/
theorem Metered.extend_of_bodyLength_eq {reply : Bytes} (h : Metered clock stats t)
    (hbody : bodyLength reply = bodyLength t.reply) (around : Surroundings) :
    Metered clock stats (t.extend reply around) := by
  have hright := h.right
  unfold Tally.extend
  rw [if_neg (by omega)]
  exact ⟨⟨hright.firstByteTime, hright.downloadTime, hright.body.trans hbody.symm,
    hright.downloaded, hright.uploaded, hright.own⟩, h.clock, h.waiting⟩

/-- The state `FG_CHECK_DOWNLOAD` counts the bytes of the body by which the reply has grown. -/
theorem Metered.countBody {reply : Bytes} {bytes : ℕ} (h : Metered fg.downloadStart fg.curstats t)
    (hbody : bodyLength reply = bodyLength t.reply + bytes) (around : Surroundings) :
    Metered (fg.countBody around bytes).downloadStart (fg.countBody around bytes).curstats
      (t.extend reply around) := by
  obtain ⟨hfirst, htime, hcount, hdownloaded, huploaded, hown⟩ := h.right
  dsimp only at hfirst htime hcount hdownloaded huploaded hown
  by_cases hsome : bytes > 0
  · have hgrows : bodyLength t.reply < bodyLength reply := by omega
    have htotal : fg.curstats.bodyBytesDownloaded + bytes = bodyLength reply := by omega
    unfold Filegetter.countBody Tally.extend
    rw [if_pos hgrows, hcount]
    simp only [hsome, and_true, if_true]
    split
    · rename_i hnone
      refine ⟨⟨?_, ?_, ?_, hdownloaded, huploaded, hown⟩, h.clock, h.waiting⟩
      · exact congrArg (Timespec.since around.firstByte) h.clock
      · exact congrArg (Timespec.since around.progress) h.clock
      · exact htotal
    · refine ⟨⟨hfirst, ?_, ?_, hdownloaded, huploaded, hown⟩, h.clock, h.waiting⟩
      · exact congrArg (Timespec.since around.progress) h.clock
      · exact htotal
  · obtain rfl : bytes = 0 := by omega
    have hsame : (fg.countBody around 0).curstats = fg.curstats ∧
        (fg.countBody around 0).downloadStart = fg.downloadStart := by
      simp [Filegetter.countBody]
    rw [hsame.1, hsame.2]
    exact h.extend_of_bodyLength_eq (by omega) around

/-! ## The stages of a download -/

/-- The getter asks: nothing of the file server's reply was looked at. -/
def Asks (fg : Filegetter) : Prop :=
  (fg.state = .send ∧ (fg.nextstate = .toReplySocksInit ∨ fg.nextstate = .toReplySocksConn ∨
      fg.nextstate = .toReplyHttp)) ∨
    (fg.state = .receive ∧ (fg.nextstate = .replySocksInit ∨ fg.nextstate = .replySocksConn)) ∨
    fg.state = .requestSocksInit ∨ fg.state = .replySocksInit ∨ fg.state = .replySocksConn ∨
    fg.state = .requestHttp

/-- Where a getter is between two calls, and what its statistics are then. -/
inductive DownloadStage (fg : Filegetter) (t : Tally) : Prop
  | asks (asks : Asks fg) (reply : t.reply = []) (metered : Metered fg.downloadStart fg.curstats t)
  | awaitsHeader (state : fg.state = .receive) (nextstate : fg.nextstate = .replyHttp)
      (buf : fg.buf = t.reply) (offset : fg.bufReadOffset = 0)
        (header : headerLength t.reply = none)
      (metered : Metered fg.downloadStart fg.curstats t)
  | awaitsBody (state : fg.state = .receive) (nextstate : fg.nextstate = .checkDownload)
      (buf : fg.buf = []) (offset : fg.bufReadOffset = 0) (header : headerLength t.reply ≠ none)
      (metered : Metered fg.downloadStart fg.curstats t)
  | idle (state : fg.state = .spec ∨ fg.state = .idle)

/-- Where a state leads; with `FG_OK_200` the statistics are right. -/
def LeadsOn (t : Tally) : Next → Prop
  | .call fg => DownloadStage fg t ∧ Handshake.AtCall fg
  | .return fg code => DownloadStage fg t ∧ (code = .ok200 → Receipt.Right ⟨fg.curstats, t⟩)

theorem leadsOn_die (fg : Filegetter) (t : Tally) : LeadsOn t fg.die :=
  ⟨.idle (.inr rfl), nofun⟩

/-- A call that fails meters nothing. -/
theorem leadsOn_ioError (h : DownloadStage fg t) (excused : Bool) (errcode : GetterCode) :
    LeadsOn t (fg.ioError excused errcode) := by
  cases excused with
  | true => exact ⟨h, nofun⟩
  | false => exact leadsOn_die _ t

section Asking

variable {nextstate : GetterState}

/-- A message that is to be sent meters nothing. -/
theorem leadsOn_sendThen (hreply : t.reply = []) (hmetered : Metered fg.downloadStart fg.curstats t)
    (hnext : nextstate = .toReplySocksInit ∨ nextstate = .toReplySocksConn ∨
      nextstate = .toReplyHttp)
    (buf : Bytes) : LeadsOn t (.call ({ fg with buf := buf }.sendThen nextstate)) :=
  ⟨.asks (.inl ⟨rfl, hnext⟩) hreply hmetered, .inl rfl⟩

/-- Waiting for a reply of the proxy meters nothing. -/
theorem leadsOn_toReply (hreply : t.reply = []) (hmetered : Metered fg.downloadStart fg.curstats t)
    (hnext : nextstate = .replySocksInit ∨ nextstate = .replySocksConn) :
    LeadsOn t (.call (fg.toReply nextstate)) :=
  ⟨.asks (.inr (.inl ⟨rfl, hnext⟩)) hreply hmetered, .inr rfl⟩

/-- The first message to the proxy meters nothing. -/
theorem leadsOn_requestSocksInit (hreply : t.reply = [])
    (hmetered : Metered fg.downloadStart fg.curstats t) (hstep : fg.requestSocksInit = .ok result) :
    LeadsOn t result := by
  unfold Filegetter.requestSocksInit at hstep
  split at hstep
  · cases hstep
  · obtain rfl := Except.ok.inj hstep
    exact leadsOn_sendThen hreply hmetered (.inl rfl) _

/-- The request to the proxy meters nothing. -/
theorem leadsOn_requestSocksConn (hreply : t.reply = [])
    (hmetered : Metered fg.downloadStart fg.curstats t) (hstep : fg.requestSocksConn = .ok result) :
    LeadsOn t result := by
  unfold Filegetter.requestSocksConn at hstep
  dsimp only at hstep
  split_ifs at hstep
  all_goals
    obtain rfl := Except.ok.inj hstep
    exact leadsOn_sendThen hreply hmetered (.inr (.inl rfl)) _

/-- The request to the server meters nothing. -/
theorem leadsOn_requestHttp (hreply : t.reply = [])
    (hmetered : Metered fg.downloadStart fg.curstats t) (hstep : fg.requestHttp = .ok result) :
    LeadsOn t result := by
  rcases requestHttp_eq hstep with rfl | rfl
  · exact leadsOn_die fg t
  · exact leadsOn_sendThen hreply hmetered (.inr (.inr rfl)) _

/-- The first reply of the proxy meters nothing. -/
theorem leadsOn_replySocksInit (hstate : fg.state = .replySocksInit) (hreply : t.reply = [])
    (hmetered : Metered fg.downloadStart fg.curstats t) (hstep : fg.replySocksInit = .ok result) :
    LeadsOn t result := by
  unfold Filegetter.replySocksInit at hstep
  split at hstep
  · split at hstep
    · obtain rfl := Except.ok.inj hstep
      exact ⟨.asks (.inr (.inr (.inr (.inl hstate)))) hreply hmetered, nofun⟩
    · exact leadsOn_requestSocksConn hreply (by exact hmetered) hstep
  · obtain rfl := Except.ok.inj hstep
    exact leadsOn_toReply hreply hmetered (.inl rfl)

/-- The reply of the proxy meters nothing. -/
theorem leadsOn_replySocksConn (hstate : fg.state = .replySocksConn) (hreply : t.reply = [])
    (hmetered : Metered fg.downloadStart fg.curstats t)
    (hstep : fg.replySocksConn around = .ok result) :
    LeadsOn t result := by
  have hrefused : ∀ fg' : Filegetter, fg'.state = .replySocksConn →
      fg'.downloadStart = fg.downloadStart →
      fg'.curstats = fg.curstats → LeadsOn t (.return fg' .errSocksconn) := by
    intro fg' hstate' hstart hstats
    refine ⟨.asks (.inr (.inr (.inr (.inr (.inl hstate'))))) hreply ?_, nofun⟩
    rw [hstart, hstats]
    exact hmetered
  unfold Filegetter.replySocksConn at hstep
  split at hstep
  · split at hstep
    · obtain rfl := Except.ok.inj hstep
      exact hrefused fg hstate rfl rfl
    · dsimp only at hstep
      split at hstep
      · cases hconnect : around.reconnect with
        | failed =>
          simp only [hconnect, Filegetter.connect] at hstep
          obtain rfl := Except.ok.inj hstep
          exact hrefused _ hstate rfl rfl
        | connected sockd incoming =>
          simp only [hconnect, Filegetter.connect] at hstep
          exact leadsOn_requestHttp hreply (by exact hmetered) hstep
      · exact leadsOn_requestHttp hreply (by exact hmetered) hstep
  · obtain rfl := Except.ok.inj hstep
    exact leadsOn_toReply hreply hmetered (.inr rfl)

end Asking

section Replying

variable {reply : Bytes}

/-- The reply of an extended tally. -/
@[simp] theorem Tally.reply_extend (t : Tally) (reply : Bytes) (around : Surroundings) :
    (t.extend reply around).reply = reply := by
  unfold Tally.extend
  split
  · rfl
  · rfl

/-- A check of the download meters what the body has got. -/
theorem leadsOn_checkDownload
    (hmetered : Metered (fg.countBody around (fg.buf.drop fg.bufReadOffset).length).downloadStart
      (fg.countBody around (fg.buf.drop fg.bufReadOffset).length).curstats t)
    (hheader : headerLength t.reply ≠ none) : LeadsOn t (fg.checkDownload around) := by
  unfold Filegetter.checkDownload
  dsimp only
  split
  · exact leadsOn_die _ t
  · split
    · refine ⟨.idle (.inl ?_), fun _ => ?_⟩
      · simp [Filegetter.finish]
      · rw [(finish_frame _ around).2.1]
        exact hmetered.right
    · refine ⟨?_, ?_⟩
      · apply DownloadStage.awaitsBody <;> first | exact hheader | exact hmetered | rfl
      · exact .inr rfl

/-- The first bytes of the body are those behind the header. -/
theorem leadsOn_replyHttp (hbuf : fg.buf = reply) (hoffset : fg.bufReadOffset = 0)
    (hheader : headerLength t.reply = none) (hmetered : Metered fg.downloadStart fg.curstats t)
    (hstep : fg.replyHttp around = .ok result) : LeadsOn (t.extend reply around) result := by
  have hnone := bodyLength_of_none hheader
  have htext : fg.buf.drop fg.bufReadOffset = reply := by rw [hbuf, hoffset, List.drop_zero]
  unfold Filegetter.replyHttp at hstep
  rw [htext] at hstep
  dsimp only at hstep
  split at hstep
  · cases hstep
  · split at hstep
    · obtain rfl := Except.ok.inj hstep
      exact ⟨.idle (.inl rfl), nofun⟩
    · split at hstep
      · rename_i i content h200 hend
        have hreply : headerLength reply = some (content + twoCrlf.length) := by
          simp only [headerLength, h200, hend]
        split at hstep
        · obtain rfl := Except.ok.inj hstep
          exact leadsOn_die _ _
        · obtain rfl := Except.ok.inj hstep
          apply leadsOn_checkDownload
          · refine Metered.countBody ?_ ?_ around
            · exact hmetered.expect _
            · dsimp only
              rw [bodyLength_of_headerLength hreply, hnone, hbuf, hoffset, List.length_drop]
              omega
          · rw [Tally.reply_extend, hreply]
            simp
      · rename_i hnotfound
        have hreply : headerLength reply = none := by
          unfold headerLength
          split
          · rename_i i content h200 hend
            exact absurd hend (hnotfound i content h200)
          · rfl
        obtain rfl := Except.ok.inj hstep
        refine ⟨.awaitsHeader rfl rfl ?_ hoffset ?_ ?_, .inr rfl⟩
        · rw [Tally.reply_extend]
          exact hbuf
        · rw [Tally.reply_extend]
          exact hreply
        · exact hmetered.extend_of_bodyLength_eq (by rw [hnone, bodyLength_of_none hreply]) around

end Replying

/-! ## Steps -/

/-- The beginning of an activation. -/
theorem DownloadStage.leadsOn (h : DownloadStage fg t) (hstep : fg.proceed around = .ok result) :
    LeadsOn t result := by
  have hcall : Handshake.AtCall fg → LeadsOn t result := by
    intro hat
    rw [Handshake.proceed_of_atCall hat] at hstep
    obtain rfl := Except.ok.inj hstep
    exact ⟨h, hat⟩
  cases h with
  | asks asks reply metered =>
    rcases asks with ⟨hstate, -⟩ | ⟨hstate, -⟩ | hstate | hstate | hstate | hstate
    · exact hcall (.inl hstate)
    · exact hcall (.inr hstate)
    · simp only [Filegetter.proceed, hstate] at hstep
      exact leadsOn_requestSocksInit reply metered hstep
    · simp only [Filegetter.proceed, hstate] at hstep
      exact leadsOn_replySocksInit hstate reply metered hstep
    · simp only [Filegetter.proceed, hstate] at hstep
      exact leadsOn_replySocksConn hstate reply metered hstep
    · simp only [Filegetter.proceed, hstate] at hstep
      exact leadsOn_requestHttp reply metered hstep
  | awaitsHeader state => exact hcall (.inr state)
  | awaitsBody state => exact hcall (.inr state)
  | idle state =>
    rcases state with hstate | hstate
    · simp only [Filegetter.proceed, hstate] at hstep
      obtain rfl := Except.ok.inj hstep
      exact ⟨.idle (.inl hstate), by simp⟩
    · simp only [Filegetter.proceed, hstate] at hstep
      obtain rfl := Except.ok.inj hstep
      exact ⟨.idle (.inr hstate), by simp⟩

@[simp] theorem Tally.receive_nil (t : Tally) : t.receive [] = t := by simp [Tally.receive]

@[simp] theorem Tally.extend_self (t : Tally) (around : Surroundings) :
    t.extend t.reply around = t := by
  simp [Tally.extend]

/-- A call of `send`. -/
theorem DownloadStage.leadsOn_send (h : DownloadStage fg t) (hstate : fg.state = .send)
    (hstep : fg.send call = .ok result) :
    LeadsOn { t with uploaded := t.uploaded + fg.accepted call } result := by
  have hasks : (fg.nextstate = .toReplySocksInit ∨ fg.nextstate = .toReplySocksConn ∨
      fg.nextstate = .toReplyHttp) ∧ t.reply = [] ∧ Metered fg.downloadStart fg.curstats t := by
    cases h with
    | asks asks reply metered => exact ⟨by simpa [Asks, hstate] using asks, reply, metered⟩
    | awaitsHeader state => simp [hstate] at state
    | awaitsBody state => simp [hstate] at state
    | idle state => simp [hstate] at state
  obtain ⟨hnext, hreply, hmetered⟩ := hasks
  unfold Filegetter.send at hstep
  unfold Filegetter.accepted
  split at hstep
  · cases hstep
  · cases hanswer : call.answer.send (fg.buf.length - fg.bufReadOffset) with
    | error errno =>
      rw [hanswer] at hstep
      obtain rfl := Except.ok.inj hstep
      exact leadsOn_ioError h _ _
    | ok bytes =>
      rw [hanswer] at hstep
      cases bytes with
      | zero =>
        obtain rfl := Except.ok.inj hstep
        exact leadsOn_die _ _
      | succ bytes =>
        have hsent := hmetered.send (bytes + 1)
        dsimp only at hstep
        split at hstep
        · -- all was sent, and the getter turns to receiving
          rcases hnext with hnext | hnext | hnext
          · rw [proceed_toReplySocksInit (by exact hnext)] at hstep
            obtain rfl := Except.ok.inj hstep
            exact leadsOn_toReply hreply hsent (.inl rfl)
          · rw [proceed_toReplySocksConn (by exact hnext)] at hstep
            obtain rfl := Except.ok.inj hstep
            exact leadsOn_toReply hreply hsent (.inr rfl)
          · rw [proceed_toReplyHttp (by exact hnext)] at hstep
            obtain rfl := Except.ok.inj hstep
            refine ⟨.awaitsHeader rfl rfl hreply.symm rfl ?_ hsent, .inr rfl⟩
            show headerLength t.reply = none
            rw [hreply]
            decide +kernel
        · obtain rfl := Except.ok.inj hstep
          exact ⟨.asks (.inl ⟨hstate, hnext⟩) hreply hsent, .inl hstate⟩

/-- A call of `recv`. -/
theorem DownloadStage.leadsOn_receive (h : DownloadStage fg t) (hstate : fg.state = .receive)
    (hstep : fg.receive call = .ok result) :
    LeadsOn (t.afterReceive fg.nextstate (fg.delivered call) call.around) result := by
  unfold Filegetter.receive at hstep
  unfold Filegetter.delivered
  cases hanswer : call.answer.recv fg.incoming (bufSize - fg.buf.length) with
  | error errno =>
    rw [hanswer] at hstep
    obtain rfl := Except.ok.inj hstep
    have hsame : t.afterReceive fg.nextstate [] call.around = t := by simp [Tally.afterReceive]
    show LeadsOn (t.afterReceive fg.nextstate [] call.around) _
    rw [hsame]
    exact leadsOn_ioError h _ _
  | ok bytes =>
    rw [hanswer] at hstep
    cases bytes with
    | nil =>
      obtain rfl := Except.ok.inj hstep
      exact leadsOn_die _ _
    | cons b bs =>
      have hproceed : (fg.received (b :: bs)).proceed call.around = .ok result := hstep
      show LeadsOn (t.afterReceive fg.nextstate (b :: bs) call.around) _
      generalize b :: bs = bytes at hproceed ⊢
      cases h with
      | asks asks reply metered =>
        have hreceived : Metered (fg.received bytes).downloadStart (fg.received bytes).curstats
            (t.receive bytes) := metered.receive bytes
        have hnext : fg.nextstate = .replySocksInit ∨ fg.nextstate = .replySocksConn := by
          simpa [Asks, hstate] using asks
        have htally : t.afterReceive fg.nextstate bytes call.around = t.receive bytes := by
          rcases hnext with hnext | hnext <;> simp [Tally.afterReceive, hnext]
        rw [htally]
        refine DownloadStage.leadsOn (.asks ?_ reply hreceived) hproceed
        rcases hnext with hnext | hnext
        · exact .inr (.inr (.inr (.inl hnext)))
        · exact .inr (.inr (.inr (.inr (.inl hnext))))
      | awaitsHeader state nextstate buf offset header metered =>
        have hreceived : Metered (fg.received bytes).downloadStart (fg.received bytes).curstats
            (t.receive bytes) := metered.receive bytes
        have htally : t.afterReceive fg.nextstate bytes call.around =
            (t.receive bytes).extend (t.reply ++ bytes) call.around := by
          simp [Tally.afterReceive, nextstate, Tally.receive]
        have hreplied : (fg.received bytes).state = .replyHttp := nextstate
        have hbuf : (fg.received bytes).buf = t.reply ++ bytes := congrArg (· ++ bytes) buf
        simp only [Filegetter.proceed, hreplied] at hproceed
        rw [htally]
        exact leadsOn_replyHttp hbuf offset header hreceived hproceed
      | awaitsBody state nextstate buf offset header metered =>
        have hreceived : Metered (fg.received bytes).downloadStart (fg.received bytes).curstats
            (t.receive bytes) := metered.receive bytes
        have htally : t.afterReceive fg.nextstate bytes call.around =
            (t.receive bytes).extend (t.reply ++ bytes) call.around := by
          simp [Tally.afterReceive, nextstate, Tally.receive]
        have hchecks : (fg.received bytes).state = .checkDownload := nextstate
        simp only [Filegetter.proceed, hchecks] at hproceed
        obtain rfl := Except.ok.inj hproceed
        obtain ⟨n, hn⟩ := Option.ne_none_iff_exists'.mp header
        have harrived : (fg.received bytes).buf.drop (fg.received bytes).bufReadOffset = bytes := by
          simp [Filegetter.received, buf, offset]
        rw [htally]
        apply leadsOn_checkDownload
        · rw [harrived]
          refine Metered.countBody ?_ ?_ call.around
          · exact hreceived
          · exact bodyLength_append hn bytes
        · rw [Tally.reply_extend, headerLength_append hn bytes]
          simp
      | idle state => simp [hstate] at state

section Downloads

variable {sspec : ServerSpec} {fspec : FileSpec} {fopenOk : Bool} {connection : Connect}
    {now : Timespec}
  {fg' u : Filegetter} {code : GetterCode}

/-- What a stage says is about a part of the getter. -/
theorem DownloadStage.congr (h : DownloadStage fg t) (hstate : fg'.state = fg.state)
    (hnext : fg'.nextstate = fg.nextstate) (hbuf : fg'.buf = fg.buf)
    (hoffset : fg'.bufReadOffset = fg.bufReadOffset) (hclock : fg'.downloadStart = fg.downloadStart)
    (hstats : fg'.curstats = fg.curstats) : DownloadStage fg' t := by
  have hmetered : Metered fg.downloadStart fg.curstats t →
      Metered fg'.downloadStart fg'.curstats t := by
    rw [hclock, hstats]
    exact id
  cases h with
  | asks asks reply metered =>
    refine .asks ?_ reply (hmetered metered)
    unfold Asks at asks ⊢
    rw [hstate, hnext]
    exact asks
  | awaitsHeader state nextstate buf offset header metered =>
    exact .awaitsHeader (hstate.trans state) (hnext.trans nextstate) (hbuf.trans buf)
      (hoffset.trans offset) header (hmetered metered)
  | awaitsBody state nextstate buf offset header metered =>
    exact .awaitsBody (hstate.trans state) (hnext.trans nextstate) (hbuf.trans buf)
      (hoffset.trans offset) header (hmetered metered)
  | idle state =>
    rw [← hstate] at state
    exact .idle state

/-- Specifications that are refused leave a download under way as it is. -/
theorem DownloadStage.setSpecs (h : DownloadStage fg t)
    (hspecs : fg.setSpecs sspec fspec fopenOk = (u, code)) (hrefused : code ≠ .success)
    (epoll : EpollEvent) : DownloadStage { u with epoll := epoll } t := by
  unfold Filegetter.setSpecs at hspecs
  split at hspecs
  · obtain ⟨rfl, -⟩ := Prod.ext_iff.mp hspecs
    exact h.congr rfl rfl rfl rfl rfl rfl
  · rename_i hspec
    dsimp only at hspecs
    split at hspecs
    · obtain ⟨rfl, -⟩ := Prod.ext_iff.mp hspecs
      exact .idle (.inl (not_not.mp hspec))
    · exact absurd (congrArg Prod.snd hspecs).symm hrefused

/-- Specifications that are accepted clear the counters, and leave the clock. -/
theorem cleared_of_setSpecs (hspecs : fg.setSpecs sspec fspec fopenOk = (u, .success)) :
    u.state = .spec ∧ u.curstats = FileStats.zero ∧ u.downloadStart = fg.downloadStart := by
  unfold Filegetter.setSpecs at hspecs
  split at hspecs
  · exact absurd (congrArg Prod.snd hspecs) (by simp)
  · rename_i hspec
    dsimp only at hspecs
    split at hspecs
    · exact absurd (congrArg Prod.snd hspecs) (by simp)
    · obtain ⟨rfl, -⟩ := Prod.ext_iff.mp hspecs
      exact ⟨not_not.mp hspec, rfl, rfl⟩

/-- The beginning of a download. -/
theorem downloadStage_begin (hstate : fg.state = .requestSocksInit ∨ fg.state = .requestHttp)
    (hstats : fg.curstats = FileStats.zero) (hclock : fg.downloadStart = now) :
    DownloadStage fg (.begin now 0) := by
  refine .asks ?_ rfl ?_
  · rcases hstate with hstate | hstate
    · exact .inr (.inr (.inl hstate))
    · exact .inr (.inr (.inr (.inr (.inr hstate))))
  · rw [hstats, hclock]
    exact metered_begin now

/-- A download begins, or fails and leaves what is under way as it is. -/
theorem DownloadStage.download (connection : Connect) (h : DownloadStage fg t)
    (hpunctual : fg.Reuses sspec fspec fopenOk →
      (fg.setSpecs sspec fspec fopenOk).2 = .success ∧ fg.downloadStart = now ∧ fg.incoming = [])
    (hdownload : fg.download sspec fspec fopenOk connection now = (fg', code)) :
    DownloadStage fg' (if code = .success then
        .begin now (if fg.Reuses sspec fspec fopenOk then fg.incoming.length else 0)
      else t) := by
  obtain ⟨u, result, hspecs⟩ : ∃ u result, fg.setSpecs sspec fspec fopenOk = (u, result) :=
    ⟨_, _, rfl⟩
  have hreuses : fg.Reuses sspec fspec fopenOk ↔ u.sspec.persistent = true ∧ u.sockd > 0 := by
    rw [Filegetter.Reuses, hspecs]
  rw [hspecs] at hpunctual
  unfold Filegetter.download at hdownload
  rw [hspecs] at hdownload
  dsimp only at hdownload hpunctual
  split at hdownload
  · rename_i hagain
    obtain ⟨rfl, hclock, hincoming⟩ := hpunctual (hreuses.mpr hagain)
    obtain ⟨-, hstats, hkept⟩ := cleared_of_setSpecs hspecs
    obtain ⟨rfl, rfl⟩ := Prod.ext_iff.mp hdownload
    rw [if_pos rfl, if_pos (hreuses.mpr hagain), hincoming]
    exact downloadStage_begin (.inr rfl) hstats (hkept.trans hclock)
  · rename_i hnew
    rw [if_neg (mt hreuses.mp hnew)]
    split at hdownload
    · rename_i hok
      subst hok
      obtain ⟨hspec, hstats, -⟩ := cleared_of_setSpecs hspecs
      cases connection with
      | failed =>
        simp only [Filegetter.connect] at hdownload
        split at hdownload
        · obtain ⟨rfl, rfl⟩ := Prod.ext_iff.mp hdownload
          exact .idle (.inl hspec)
        · obtain ⟨rfl, rfl⟩ := Prod.ext_iff.mp hdownload
          exact .idle (.inl hspec)
      | connected sockd incoming =>
        simp only [Filegetter.connect] at hdownload
        split at hdownload
        · obtain ⟨rfl, rfl⟩ := Prod.ext_iff.mp hdownload
          rw [if_pos rfl]
          exact downloadStage_begin (.inl rfl) hstats rfl
        · obtain ⟨rfl, rfl⟩ := Prod.ext_iff.mp hdownload
          rw [if_pos rfl]
          exact downloadStage_begin (.inr rfl) hstats rfl
    · rename_i hrefused
      obtain ⟨rfl, rfl⟩ := Prod.ext_iff.mp hdownload
      rw [if_neg hrefused]
      exact h.setSpecs hspecs hrefused _

end Downloads

/-! ## Runs -/

namespace Metering

variable {s s' : Metering} {e : MeteringEvent}

/-- The getter is at a stage of its download, and everything that was noted is right. -/
structure Sound (s : Metering) : Prop where
  stage : DownloadStage s.w.fg s.tally
  atCall : s.w.running = true → Handshake.AtCall s.w.fg
  right : ∀ r ∈ s.receipts, r.Right
  code : s.w.code = none

/-- A new getter has sound statistics. -/
theorem sound_start : start.Sound where
  stage := .idle (.inl rfl)
  atCall := by simp [start, Handshake.begin]
  right := by simp [start]
  code := by simp [start, Handshake.begin]

/-- What an occurrence does is tallied. -/
theorem step_occur {o : Occurrence} (hstep : s.step (.occur o) = .ok s') :
    ∃ w, s.w.occur o = .ok w ∧ s' = s.after w (s.tallyAfter o) := by
  simp only [step] at hstep
  cases hoccur : s.w.occur o with
  | error fault => simp [hoccur, Except.map] at hstep
  | ok w =>
    rw [hoccur] at hstep
    exact ⟨w, rfl, (Except.ok.inj hstep).symm⟩

/-- A step that returns nothing, or another code. -/
theorem Sound.after {w : Handshake} {tally : Tally} (h : s.Sound)
    (hstage : DownloadStage w.fg tally) (hat : w.running = true → Handshake.AtCall w.fg)
    (hright : w.code = some .ok200 → Receipt.Right ⟨w.fg.curstats, tally⟩) :
    (s.after w tally).Sound where
  stage := hstage
  atCall := hat
  right := by
    intro r hr
    unfold Metering.after at hr
    dsimp only at hr
    split at hr
    · rename_i hcode
      rcases List.mem_cons.mp hr with rfl | hr
      · exact hright hcode
      · exact h.right r hr
    · exact h.right r hr
  code := rfl

/-- A getter that goes on has sound statistics. -/
theorem Sound.after_of_code_eq_none {w : Handshake} {tally : Tally} (h : s.Sound)
    (hstage : DownloadStage w.fg tally) (hat : w.running = true → Handshake.AtCall w.fg)
    (hcode : w.code = none) : (s.after w tally).Sound :=
  h.after hstage hat (by simp [hcode])

/-- Nothing happens. -/
theorem Sound.after_self (h : s.Sound) : (s.after s.w s.tally).Sound :=
  h.after_of_code_eq_none h.stage h.atCall h.code

/-- A state leads to a call, or out of the activation. -/
theorem Sound.enter {next : Next} {tally : Tally} (h : s.Sound) (hleads : LeadsOn tally next) :
    (s.after (s.w.enter next) tally).Sound := by
  cases next with
  | call fg => exact h.after_of_code_eq_none hleads.1 (fun _ => hleads.2) h.code
  | «return» fg code =>
    refine h.after hleads.1 ?_ ?_
    · simp [Handshake.enter]
    · intro hcode
      exact hleads.2 (Option.some.inj hcode)

/-- A call of a running getter leads on from what was tallied. -/
theorem Sound.leadsOn {call : Call} {next : Next} (h : s.Sound) (hrunning : s.w.running = true)
    (hnext : (if s.w.fg.state = .send then s.w.fg.send call else s.w.fg.receive call) = .ok next) :
    LeadsOn (s.tallyCall call) next := by
  unfold tallyCall
  split at hnext
  · rename_i hsend
    rw [if_pos hsend]
    exact h.stage.leadsOn_send hsend hnext
  · rename_i hsend
    rw [if_neg hsend]
    exact h.stage.leadsOn_receive ((h.atCall hrunning).resolve_left hsend) hnext

/-- Every punctual occurrence keeps the statistics sound. -/
theorem Sound.occur {o : Occurrence} (h : s.Sound) (hpunctual : s.Punctual (.occur o))
    {w : Handshake} (hoccur : s.w.occur o = .ok w) : (s.after w (s.tallyAfter o)).Sound := by
  cases o with
  | download sspec fspec fopenOk connection now =>
    obtain rfl := Except.ok.inj hoccur
    simp only [tallyAfter]
    by_cases hrunning : s.w.running = true
    · rw [if_pos hrunning, if_neg (by simp [hrunning])]
      exact h.after_self
    · have hidle : s.w.running = false := by simpa using hrunning
      have hstage := h.stage.download connection (hpunctual hidle) rfl
      rw [if_neg hrunning]
      simp only [hidle, true_and]
      exact h.after_of_code_eq_none hstage (by simp) h.code
  | event e =>
    unfold Handshake.occur Handshake.step at hoccur
    cases e with
    | activate around =>
      dsimp only at hoccur
      split at hoccur
      · obtain rfl := Except.ok.inj hoccur
        exact h.after_self
      · split at hoccur
        · obtain ⟨next, hnext, rfl⟩ := Handshake.exists_of_map_enter hoccur
          exact h.enter (h.stage.leadsOn hnext)
        · cases hoccur
    | call call =>
      dsimp only at hoccur
      simp only [tallyAfter]
      split at hoccur
      · rename_i hrunning
        obtain ⟨next, hnext, rfl⟩ := Handshake.exists_of_map_enter hoccur
        rw [if_pos hrunning]
        exact h.enter (h.leadsOn hrunning hnext)
      · rename_i hrunning
        obtain rfl := Except.ok.inj hoccur
        rw [if_neg hrunning]
        exact h.after_self
    | block =>
      obtain rfl := Except.ok.inj hoccur
      split
      · exact h.after h.stage (by simp) (by simp)
      · exact h.after_self
    | answer bytes =>
      obtain rfl := Except.ok.inj hoccur
      exact h.after_of_code_eq_none (h.stage.congr rfl rfl rfl rfl rfl rfl) h.atCall h.code

/-- Every punctual event keeps the statistics sound. -/
theorem Sound.step (h : s.Sound) (hpunctual : s.Punctual e) (hstep : s.step e = .ok s') :
    s'.Sound := by
  cases e with
  | occur o =>
    obtain ⟨w, hoccur, rfl⟩ := step_occur hstep
    exact h.occur hpunctual hoccur
  | late bytes =>
    obtain rfl : bytes = [] := hpunctual
    obtain rfl := Except.ok.inj hstep
    exact ⟨h.stage.congr rfl rfl rfl rfl rfl rfl, h.atCall, h.right, h.code⟩

/-- In every run whose downloads go on with an established connection only when its clock, its
counters and its socket are as a new one's, the statistics after each `FG_OK_200` belong to the
download. -/
theorem right_of_punctual {es : List MeteringEvent} (hpunctual : StepsMeet step Punctual start es)
    (hrun : runSteps step start es = .ok s) : ∀ r ∈ s.receipts, r.Right :=
  (invariant_of_stepsMeet Sound (fun _ _ _ hsound hpunctual hstep => hsound.step hpunctual hstep)
    sound_start hpunctual hrun).right

/-- A server that keeps its connections. -/
def persistentServer : ServerSpec := { ServerSpec.zero with persistent := true }

/-- Surroundings whose clock shows `sec` seconds. -/
def clockAt (sec : Int) : Surroundings where
  firstByte := ⟨sec, 0⟩
  progress := ⟨sec, 0⟩
  complete := ⟨sec, 0⟩
  fwriteOk := true
  reconnect := .failed

/-- A download that is started at `sec` seconds and gets a body of one byte a second later; the last
call before the reply would block. -/
def downloadAt (sspec : ServerSpec) (sec : Int) : List MeteringEvent :=
  [.occur (.download sspec Handshake.wantedFile true (.connected 4 []) ⟨sec, 0⟩),
    .occur (.event (.activate (clockAt sec))),
    .occur (.event (.call ⟨.ready 99, clockAt sec⟩)),
    .occur (.event .block),
    .occur (.event (.answer (http200Header 1 ++ [120]))),
    .occur (.event (.activate (clockAt (sec + 1)))),
    .occur (.event (.call ⟨.ready 99, clockAt (sec + 1)⟩))]

/-- Two downloads over two connections. -/
theorem right_of_punctual_twoConnections :
    ∃ s, runSteps step start (downloadAt ServerSpec.zero 0 ++ downloadAt ServerSpec.zero 10) =
      .ok s ∧
      s.receipts.length = 2 ∧ ∀ r ∈ s.receipts, r.Right := by
  have hcount : (runSteps step start
      (downloadAt ServerSpec.zero 0 ++ downloadAt ServerSpec.zero 10)).toOption.map
        (fun s => s.receipts.length) = some 2 := by
    decide +kernel
  cases hrun : runSteps step start (downloadAt ServerSpec.zero 0 ++ downloadAt ServerSpec.zero 10)
    with
  | error fault => simp [hrun, Except.toOption] at hcount
  | ok s =>
    rw [hrun] at hcount
    exact ⟨s, rfl, Option.some.inj hcount, right_of_punctual (by decide +kernel) hrun⟩

/-- Two downloads over one connection: the second one reports eleven seconds. -/
theorem not_right_oneConnection :
    ¬∀ s, runSteps step start (downloadAt persistentServer 0 ++ downloadAt persistentServer 10) =
      .ok s →
      ∀ r ∈ s.receipts, r.Right := by
  intro hright
  have hwrong : (runSteps step start
      (downloadAt persistentServer 0 ++ downloadAt persistentServer 10)).toOption.map
        (fun s => decide (∀ r ∈ s.receipts, r.Right)) = some false := by
    decide +kernel
  cases hrun : runSteps step start (downloadAt persistentServer 0 ++ downloadAt persistentServer 10)
    with
  | error fault => simp [hrun, Except.toOption] at hwrong
  | ok s =>
    rw [hrun] at hwrong
    exact of_decide_eq_false (Option.some.inj hwrong) (hright s hrun)

end Metering

end ShadowExtras.FileTransfer
