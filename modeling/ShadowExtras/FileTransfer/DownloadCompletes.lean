import ShadowExtras.FileTransfer.DownloadRuns

/-!
# Downloads end

In a calm round the server and then the getter are activated, their calls pass something on whenever
there is something to pass on, and no call of `recv` fills the buffer of the getter. `Pending`
measures what is left of a download: a byte that still has to be sent counts twice, a byte under way
once. Each calm round ends the download or makes the measure smaller (`Pending.round`), so a
connection that can still be answered completes its download, and what the getter then reports is so
(`completes_of_run`).
-/

namespace ShadowExtras.FileTransfer

open Foundation

variable {fg fg' : Filegetter} {unsent rest : Bytes} {reply : Option Bytes} {around : Surroundings}

/-! ## The getter in calm surroundings -/

/-- A call that passes something on if it can, without filling the buffer. -/
structure CalmCall (call : Call) : Prop where
  ready : ∃ k < 50000, call.answer = .ready k
  fwriteOk : call.around.fwriteOk = true

/-- An activation of the getter with at least one call, all of them calm. -/
structure CalmEvent (e : GetterEvent) : Prop where
  calls_ne_nil : e.calls ≠ []
  calm : ∀ call ∈ e.calls, CalmCall call

/-- A getter that asks is in a consistent state. -/
theorem Asking.assertState (h : Asking fg unsent) : fg.AssertState := by
  have hoffset : fg.bufReadOffset ≤ fg.buf.length := by
    rcases h.stage with ⟨-, -, hoffset, -⟩ | ⟨-, -, hunsent⟩
    · rw [hoffset]
      exact Nat.zero_le _
    · by_contra hlt
      refine h.unsent_ne_nil ?_
      rw [← hunsent, List.drop_eq_nil_iff]
      omega
  have hstate : fg.state ≠ .idle := by
    rcases h.stage with ⟨hstate, -⟩ | ⟨hstate, -⟩ <;> simp [hstate]
  have hroom := h.room
  exact ⟨hstate, h.sockd, by omega, hroom, hoffset⟩

/-- A quiet getter is in a consistent state. -/
theorem Quiet.assertState (h : Quiet fg) : fg.AssertState := by
  refine ⟨by simp [h.state], h.sockd, ?_, ?_, ?_⟩
  · rw [h.bufReadOffset]
    decide
  · rw [h.buf]
    decide
  · rw [h.bufReadOffset]
    exact Nat.zero_le _

/-- A refusal stays in the buffer. -/
theorem InRefusal.length_buf_lt {count : ℕ} (h : InRefusal fg count) : fg.buf.length < bufSize := by
  have hline : http404.length < bufSize := by decide
  have hcount := h.count_lt
  rw [h.buf, List.length_take]
  omega

/-- The buffer has room while a reply arrives. -/
theorem Hears.length_buf_lt (h : Hears reply fg)
    (hsmall : ∀ body, reply = some body → body.length < 2 ^ 31) :
    fg.buf.length < bufSize := by
  cases h with
  | refusal count h => exact h.length_buf_lt
  | @header _ body count h => exact (h.assertState (hsmall body rfl)).2.2.2.1
  | body count h => exact h.assertState.2.2.2.1

/-- A getter that hears a reply is in a consistent state. -/
theorem Hears.assertState (h : Hears reply (fg.after rest))
    (hsmall : ∀ body, reply = some body → body.length < 2 ^ 31) : fg.AssertState := by
  have hassert : (fg.after rest).AssertState := by
    cases h with
    | refusal count h =>
      refine ⟨by simp [h.state], h.sockd, ?_, h.length_buf_lt, ?_⟩
      · rw [h.bufReadOffset]
        decide
      · rw [h.bufReadOffset]
        exact Nat.zero_le _
    | @header _ body count h => exact h.assertState (hsmall body rfl)
    | body count h => exact h.assertState
  exact hassert

/-- Something of a reply is still to come. -/
theorem Hears.incoming_ne_nil (h : Hears reply fg) : fg.incoming ≠ [] := by
  cases h with
  | refusal count h =>
    rw [h.incoming, ne_eq, List.drop_eq_nil_iff]
    exact Nat.not_le.mpr h.count_lt
  | @header _ body count h =>
    have htotal := length_http200Reply body
    have hcount := h.count_lt
    rw [h.incoming, ne_eq, List.drop_eq_nil_iff]
    omega
  | body count h =>
    rw [h.incoming, ne_eq, List.drop_eq_nil_iff]
    exact Nat.not_le.mpr h.count_lt

/-- A call of `send` that passes some of the request. -/
theorem Asking.send_calm {call : Call} (h : Asking fg unsent) (hstate : fg.state = .send)
    (hcall : CalmCall call) :
    ∃ fg' unsent', fg.send call = .ok (.call fg') ∧ Passed fg fg' unsent unsent' := by
  obtain ⟨k, -, hready⟩ := hcall.ready
  have hpos := List.length_pos_iff.mpr h.unsent_ne_nil
  refine h.send_ok hstate (k := min k (unsent.length - 1)) ?_
  rw [hready, Answer.send]
  congr 1
  omega

/-- A getter that waits for a reply waits on. -/
theorem Quiet.callLoop_calm {calls : List Call} (h : Quiet fg)
    (hcalm : ∀ call ∈ calls, CalmCall call) :
    fg.callLoop calls = .ok (fg, .errWouldblock) := by
  cases calls with
  | nil => rfl
  | cons call calls =>
    obtain ⟨k, -, hready⟩ := (hcalm call (by simp)).ready
    have hroom : bufSize - fg.buf.length ≠ 0 := by
      rw [h.buf]
      decide
    have hreceive : fg.receive call = .ok (.return fg .errWouldblock) := by
      unfold Filegetter.receive
      simp [hready, Answer.recv, hroom, h.incoming, Filegetter.ioError]
    rw [callLoop_cons h.state, hreceive]

/-- The getter has sent some of its request, or all of it. -/
structure SendsSome (fg fg' : Filegetter) (unsent unsent' : Bytes) : Prop where
  front : SendsFront fg fg' unsent unsent'
  asks : Asking fg' unsent' ∨ (unsent' = [] ∧ Quiet fg')
  progress : unsent'.length < unsent.length

/-- The calls of an activation that sends the request, by induction on the calls. -/
theorem Asking.callLoop_calm {calls : List Call} (h : Asking fg unsent) (hstate : fg.state = .send)
    (hcalm : ∀ call ∈ calls, CalmCall call) (hne : calls ≠ []) :
    ∃ fg' unsent', fg.callLoop calls = .ok (fg', .errWouldblock) ∧
    SendsSome fg fg' unsent unsent' := by
  induction calls generalizing fg unsent with
  | nil => exact absurd rfl hne
  | cons call calls ih =>
    have hcalm' : ∀ call ∈ calls, CalmCall call :=
      fun call hcall => hcalm call (List.mem_cons_of_mem _ hcall)
    obtain ⟨fg₁, unsent₁, hsend, hfront, hless, hphase⟩ := h.send_calm hstate (hcalm call (by simp))
    have hloop : fg.callLoop (call :: calls) = fg₁.callLoop calls := by
      rw [Filegetter.callLoop, if_pos hstate, hsend]
    rw [hloop]
    rcases hphase with ⟨hasking, hsending⟩ | ⟨rfl, hquiet⟩
    · by_cases hlast : calls = []
      · rw [hlast]
        exact ⟨fg₁, unsent₁, rfl, hfront, .inl hasking, hless⟩
      · obtain ⟨fg', unsent', hresult, hsends⟩ := ih hasking hsending hcalm' hlast
        exact ⟨fg', unsent', hresult, hfront.trans hsends.front, hsends.asks,
          hsends.progress.trans hless⟩
    · exact ⟨fg₁, [], hquiet.callLoop_calm hcalm', hfront, .inr ⟨rfl, hquiet⟩, hless⟩

/-- An activation of a getter that has to send its request, or a part of it. -/
theorem Asking.activate_calm {e : GetterEvent} (h : Asking fg unsent)
    (hfits : (Filegetter.getRequest fg.fspec.remotePath fg.sspec.httpHostname).length < bufSize)
    (hcalm : CalmEvent e) :
    ∃ fg' unsent', fg.activate e = .ok (fg', .errWouldblock) ∧ SendsSome fg fg' unsent unsent' := by
  unfold Filegetter.activate
  rw [if_pos h.assertState]
  rcases h.stage with ⟨hstate, hbuf, hoffset, hrequest⟩ | ⟨hstate, -⟩
  · obtain ⟨fg₁, hfg₁⟩ : ∃ fg₁,
      fg₁ = ({ fg with buf := unsent } : Filegetter).sendThen .toReplyHttp :=
      ⟨_, rfl⟩
    rw [hrequest] at hfits
    have hwrite : fg.requestHttp = .ok (.call fg₁) := by
      have hspace : ¬bufSize = 0 := by decide
      unfold Filegetter.requestHttp
      simp only [hrequest, hbuf, List.length_nil, Nat.sub_zero, List.nil_append]
      rw [if_neg hspace, if_neg (Nat.not_le.mpr hfits), if_neg (Nat.not_le.mpr hfits), hfg₁]
    have hsending : Asking fg₁ unsent := by
      rw [hfg₁]
      exact ⟨h.sockd, h.incoming, h.downloaded, ⟨h.saving.file, h.saving.memory⟩, h.unsent_ne_nil,
        hfits, .inr ⟨rfl, rfl, by
          show unsent.drop fg.bufReadOffset = unsent
          rw [hoffset, List.drop_zero]⟩⟩
    have hfront : SendsFront fg fg₁ unsent unsent := by
      rw [hfg₁]
      exact ⟨rfl, rfl, [], rfl, (List.append_nil _).symm⟩
    simp only [Filegetter.proceed, hstate, hwrite]
    obtain ⟨fg', unsent', hresult, hsends⟩ :=
      hsending.callLoop_calm (by rw [hfg₁]; rfl) hcalm.calm hcalm.calls_ne_nil
    exact ⟨fg', unsent', hresult, hfront.trans hsends.front, hsends.asks, hsends.progress⟩
  · simp only [Filegetter.proceed, hstate]
    exact h.callLoop_calm hstate hcalm.calm hcalm.calls_ne_nil

/-- A calm activation of a quiet getter does nothing. -/
theorem Quiet.activate_calm {e : GetterEvent} (h : Quiet fg) (hcalm : CalmEvent e) :
    fg.activate e = .ok (fg, .errWouldblock) := by
  rw [activate_of_receive h.state h.assertState]
  exact h.callLoop_calm hcalm.calm

/-- The digits of the length of a file are few. -/
theorem length_http200Header_le {n : ℕ} (hn : n < 2 ^ 31) : (http200Header n).length ≤ 47 := by
  have hdigits : (decimal n).length ≤ 10 := length_decimal_le (by decide) (by omega)
  have hfixed : (http200 ++ contentText).length = 33 := by decide
  rw [length_http200Header, List.length_append, hfixed]
  omega

/-- With room for the NUL behind the text the header is read. -/
theorem exists_replyHttp_eq_ok (hroom : ¬fg.buf.length ≥ bufSize) :
    ∃ next, fg.replyHttp around = .ok next := by
  unfold Filegetter.replyHttp
  rw [if_neg hroom]
  dsimp only
  cases strcasestr http404 (cString (fg.buf.drop fg.bufReadOffset)) with
  | some i => exact ⟨_, rfl⟩
  | none =>
    dsimp only
    cases strcasestr http200 (cString (fg.buf.drop fg.bufReadOffset)) with
    | none => exact ⟨_, rfl⟩
    | some j =>
      cases strcasestr twoCrlf (cString (fg.buf.drop fg.bufReadOffset)) with
      | none => exact ⟨_, rfl⟩
      | some content =>
        dsimp only
        cases strcasestr contentText (cString (fg.buf.drop fg.bufReadOffset)) with
        | none => exact ⟨_, rfl⟩
        | some cl => exact ⟨_, rfl⟩

/-- A state that goes on, or ends the download with a reply. -/
def Next.Replied : Next → Prop
  | .call _ => True
  | .return _ code => code = .ok200 ∨ code = .err404

/-- One `recv` of a getter to which all of the reply has been sent; it does not fill the buffer. -/
theorem Hears.receive_calm (h : Hears reply fg)
    (hsmall : ∀ body, reply = some body → body.length < 2 ^ 31)
    {k : ℕ} (hk : k < 50000) (hok : around.fwriteOk = true) :
    ∃ next, fg.receive { answer := .ready k, around := around } = .ok next ∧ next.Replied := by
  -- the download of a body goes on or is complete
  have hgoes : ∀ {body next}, fg.receive { answer := .ready k, around := around } = .ok next →
      Goes body next → ∃ next, fg.receive { answer := .ready k, around := around } = .ok next ∧
        next.Replied := by
    intro body next hnext hgoes
    refine ⟨next, hnext, ?_⟩
    cases next with
    | call fg' => trivial
    | «return» fg' code => exact .inl hgoes.1
  cases h with
  | refusal count h =>
    rcases h.receive k around with ⟨fg', -, hcall, -⟩ | ⟨fg', hreturn, -⟩
    · exact ⟨_, hcall, trivial⟩
    · exact ⟨_, hreturn, .inr rfl⟩
  | body count h =>
    obtain ⟨next, hnext, hnext'⟩ := h.receive k hok
    exact hgoes hnext hnext'
  | @header _ body count h =>
    have hbody := hsmall body rfl
    have hreceive := h.receive hbody k hok
    dsimp only at hreceive
    split_ifs at hreceive with hcomplete
    · obtain ⟨hclean, hdirty⟩ := hreceive
      by_cases hcut : CleanCut body (arrived (http200Reply body).length count k)
      · obtain ⟨next, hnext, hnext'⟩ := hclean hcut
        exact hgoes hnext hnext'
      · have hfails := hdirty hcut
        -- there is room for the NUL behind what was received
        obtain ⟨fg', hreceived, -, -, hbuf, -⟩ := h.received hbody around k
        have hroom : ¬fg'.buf.length ≥ bufSize := by
          have hheader := length_http200Header_le hbody
          have hcount := h.count_lt
          have hle : arrived (http200Reply body).length count k ≤ count + (k + 1) :=
            Nat.min_le_left _ _
          have hsize : bufSize = 51200 := rfl
          rw [hbuf, List.length_take]
          omega
        obtain ⟨next, hnext⟩ : ∃ next, fg'.replyHttp around = .ok next :=
          exists_replyHttp_eq_ok hroom
        rw [hreceived, hnext] at hfails ⊢
        refine ⟨next, rfl, ?_⟩
        cases next with
        | call fg₁ => trivial
        | «return» fg₁ code => exact .inr hfails
    · obtain ⟨fg', hcall, -⟩ := hreceive
      exact ⟨_, hcall, trivial⟩

/-- How an activation leaves a getter to which a part of the reply was sent: the download has ended,
or the getter has received what was there. -/
inductive HearsSome (fg fg' : Filegetter) : GetterCode → Prop
  | ended {code : GetterCode} (replied : code = .ok200 ∨ code = .err404) : HearsSome fg fg' code
  | more (le : fg'.incoming.length ≤ fg.incoming.length)
      (progress : fg.incoming ≠ [] → fg'.incoming.length < fg.incoming.length) :
      HearsSome fg fg' .errWouldblock

/-- One `recv` while `rest` is still at the server. -/
theorem Hears.receive_after_calm {call : Call} (h : Hears reply (fg.after rest))
    (hsmall : ∀ body, reply = some body → body.length < 2 ^ 31) (hcall : CalmCall call)
    (hincoming : fg.incoming ≠ []) : ∃ next, fg.receive call = .ok next ∧ next.Replied := by
  obtain ⟨answer, around⟩ := call
  obtain ⟨⟨k, hk, hready⟩, hok⟩ := hcall
  obtain rfl : answer = .ready k := hready
  obtain ⟨k', hk', hafter⟩ :=
    receive_ready_after h.listens (k := k) hincoming (h.length_buf_lt hsmall)
    around rest
  obtain ⟨next', hnext', hreplied⟩ := h.receive_calm hsmall (hk'.trans_lt hk) hok
  rw [hnext'] at hafter
  cases hreceive : fg.receive { answer := .ready k, around := around } with
  | error fault =>
    rw [hreceive] at hafter
    cases hafter
  | ok next =>
    rw [hreceive] at hafter
    obtain rfl : next' = next.after rest := Except.ok.inj hafter
    refine ⟨next, rfl, ?_⟩
    cases next with
    | call fg' => trivial
    | «return» fg' code => exact hreplied

/-- The calls of an activation while a reply arrives, by induction on the calls. -/
theorem Hears.callLoop_calm {calls : List Call} (h : Hears reply (fg.after rest))
    (hsmall : ∀ body, reply = some body → body.length < 2 ^ 31)
    (hcalm : ∀ call ∈ calls, CalmCall call) (hne : calls ≠ []) :
    ∃ fg' code, fg.callLoop calls = .ok (fg', code) ∧ HearsSome fg fg' code := by
  induction calls generalizing fg with
  | nil => exact absurd rfl hne
  | cons call calls ih =>
    rw [callLoop_cons h.listens.state]
    by_cases hincoming : fg.incoming = []
    · obtain ⟨k, -, hready⟩ := (hcalm call (by simp)).ready
      have hroom : bufSize - fg.buf.length ≠ 0 := by
        have := h.length_buf_lt hsmall
        show bufSize - (fg.after rest).buf.length ≠ 0
        omega
      have hreceive : fg.receive call = .ok (.return fg .errWouldblock) := by
        unfold Filegetter.receive
        simp [hready, Answer.recv, hroom, hincoming, Filegetter.ioError]
      rw [hreceive]
      exact ⟨fg, .errWouldblock, rfl, .more le_rfl fun hne => absurd hincoming hne⟩
    · obtain ⟨next, hreceive, hreplied⟩ :=
        h.receive_after_calm hsmall (hcalm call (by simp)) hincoming
      have hreports := h.receive hsmall hreceive
      have hprogress := (h.listens.heard hreceive).progress
      rw [hreceive]
      cases next with
      | «return» fg₁ code => exact ⟨fg₁, code, rfl, .ended hreplied⟩
      | call fg₁ =>
        have hless := hprogress fg₁ rfl
        by_cases hlast : calls = []
        · rw [hlast]
          exact ⟨fg₁, .errWouldblock, rfl, .more hless.le fun _ => hless⟩
        · obtain ⟨fg', code, hresult, hhears⟩ :=
            ih hreports (fun call hcall => hcalm call (List.mem_cons_of_mem _ hcall)) hlast
          refine ⟨fg', code, hresult, ?_⟩
          cases hhears with
          | ended hended => exact .ended hended
          | more hle _ => exact .more (hle.trans hless.le) fun _ => hle.trans_lt hless

/-- A calm activation of a getter that hears a reply hears some of it. -/
theorem Hears.activate_calm {e : GetterEvent} (h : Hears reply (fg.after rest))
    (hsmall : ∀ body, reply = some body → body.length < 2 ^ 31) (hcalm : CalmEvent e) :
    ∃ fg' code, fg.activate e = .ok (fg', code) ∧ HearsSome fg fg' code := by
  rw [activate_of_receive h.listens.state (h.assertState hsmall)]
  exact h.callLoop_calm hsmall hcalm.calm hcalm.calls_ne_nil

/-! ## Rounds -/

namespace DownloadSystem

variable {s : DownloadSystem} {docroot : Bytes} {n : ℕ}

/-- An activation of the server in which its calls pass something on if they can; files are shorter
than 2 GiB. -/
structure CalmArrival (i : Arrival) : Prop where
  recv : ∃ k, i.recv = .ready k
  sends_ne_nil : i.sends ≠ []
  sends : AllReady i.sends
  small : ∀ path, ∀ content ∈ i.files path, content.length < 2 ^ 31

/-- A calm activation of the server, and then one of the getter. -/
structure CalmRound (round : Arrival × GetterEvent) : Prop where
  server : CalmArrival round.1
  getter : CalmEvent round.2

/-- One of the rounds ends the download with a reply, without a fault before, and what is reported
is so. -/
def Completes (docroot : Bytes) (s : DownloadSystem) : List (Arrival × GetterEvent) → Prop
  | [] => False
  | (i, e) :: rounds =>
    ∃ fg code, (s.serverStep docroot i).getter.activate e = .ok (fg, code) ∧
      Truthful (s.serverStep docroot i) fg code ∧
      (code = .ok200 ∨ code = .err404 ∨
        (code = .errWouldblock ∧ Completes docroot ((s.serverStep docroot i).activated fg) rounds))

/-- No reply is longer. -/
def maxReply : ℕ := 2 ^ 31 + 47

/-- A reply has a bounded length. -/
theorem length_replyText_le (hsmall : ∀ content, reply = some content → content.length < 2 ^ 31) :
    (replyText reply).length ≤ maxReply := by
  cases reply with
  | none => decide
  | some content =>
    have hcontent := hsmall content rfl
    have hheader := length_http200Header_le hcontent
    have htotal := length_http200Reply content
    show (http200Reply content).length ≤ 2 ^ 31 + 47
    omega

/-- A download is in progress, and its connection can be answered; `n` bounds what is left of it. -/
inductive Pending (s : DownloadSystem) (n : ℕ) : Prop
  | asking (c : ServerConnection) (unsent : Bytes) (asking : Asking s.getter unsent)
      (askable : Askable s.getter.fspec s.getter.sspec) (connection : s.connection = some c)
      (awaits : AwaitsRequest c s.requests unsent (requestOf s.getter.fspec s.getter.sspec))
      (measure : 2 * unsent.length + s.requests.length + 2 * maxReply ≤ n)
  | quiet (c : ServerConnection) (quiet : Quiet s.getter)
      (askable : Askable s.getter.fspec s.getter.sspec) (connection : s.connection = some c)
      (awaits : AwaitsRequest c s.requests [] (requestOf s.getter.fspec s.getter.sspec))
      (measure : s.requests.length + 2 * maxReply ≤ n)
  | hears (reply : Option Bytes) (rest : Bytes)
      (small : ∀ content, reply = some content → content.length < 2 ^ 31)
      (hears : Hears reply (s.getter.after rest)) (requests : s.requests = [])
      (rests : ∀ c, s.connection = some c → SendsRest c reply rest)
      (closed : s.connection = none → rest = [])
      (measure : 2 * rest.length + s.getter.incoming.length ≤ n)

/-- Something is left of a download in progress. -/
theorem Pending.pos (h : Pending s n) : 0 < n := by
  cases h with
  | asking c unsent _ _ _ _ hmeasure =>
    have hpos : 0 < maxReply := by decide
    omega
  | quiet c _ _ _ _ hmeasure =>
    have hpos : 0 < maxReply := by decide
    omega
  | hears reply rest _ hhears _ _ _ hmeasure =>
    have hpos := List.length_pos_iff.mpr hhears.incoming_ne_nil
    have hlength : (s.getter.after rest).incoming.length = s.getter.incoming.length + rest.length :=
      List.length_append
    omega

/-- The getter has something to send or to receive. -/
def Moves (fg : Filegetter) : Prop := (∃ unsent, Asking fg unsent) ∨ fg.incoming ≠ []

/-- The system after an activation of an open connection. -/
theorem serverStep_of_some {c : ServerConnection} (hconn : s.connection = some c) (docroot : Bytes)
    (i : Arrival) :
    s.serverStep docroot i =
      { getter := { s.getter with
          incoming := s.getter.incoming ++ (i.activate docroot c s.requests).act.sent }
        connection := if (i.activate docroot c s.requests).closed then none
          else some (i.activate docroot c s.requests).act.conn
        requests := s.requests.drop (i.activate docroot c s.requests).act.received
        looked := s.looked ++ [i.files (docroot ++ s.path)] } := by
  unfold DownloadSystem.serverStep
  rw [hconn]

/-- A connection that is closed while `send` takes bytes has sent all of the reply. -/
theorem rest_of_closed {o : Outcome} {answers : List Answer} {rest rest' : Bytes}
    (hsends : SendsOn o answers reply rest rest') (hready : AllReady answers)
    (hclosed : (if o.closed then none else some o.act.conn) = none) : rest' = [] := by
  split_ifs at hclosed with hclose
  exact hsends.closed hready hclose

/-- A calm activation of the server makes less to be done, or leaves it to the getter. -/
theorem Pending.serverStep (h : Pending s n) {i : Arrival} (hcalm : CalmArrival i)
    (docroot : Bytes) :
    ∃ m ≤ n, Pending (s.serverStep docroot i) m ∧
    (m < n ∨ Moves (s.serverStep docroot i).getter) := by
  obtain ⟨k, hrecv⟩ := hcalm.recv
  have hsmall := hcalm.small (docroot ++ s.path)
  cases h with
  | asking c unsent hasking haskable hconn hawaits hmeasure =>
    rw [serverStep_of_some hconn]
    rcases hawaits.activate docroot i haskable hsmall with hwaits | ⟨hunsent, -⟩
    · obtain ⟨hopen, -⟩ := hwaits.ready k hrecv
      rw [hwaits.sent, List.append_nil, hopen, if_neg Bool.false_ne_true]
      refine ⟨n, le_rfl, .asking _ unsent hasking haskable rfl hwaits.awaits ?_,
        .inr (.inl ⟨unsent, hasking⟩)⟩
      dsimp only
      rw [List.length_drop]
      omega
    · exact absurd hunsent hasking.unsent_ne_nil
  | quiet c hquiet haskable hconn hawaits hmeasure =>
    have hrequests : s.requests ≠ [] := by simpa using hawaits.ne_nil
    have hpos := List.length_pos_iff.mpr hrequests
    rw [serverStep_of_some hconn]
    rcases hawaits.activate docroot i haskable hsmall with hwaits | ⟨-, hall, rest, hsends⟩
    · obtain ⟨hopen, hreceived⟩ := hwaits.ready k hrecv
      have hreceived := hreceived hrequests
      rw [hwaits.sent, List.append_nil, hopen, if_neg Bool.false_ne_true]
      refine ⟨n - 1, Nat.sub_le n 1, .quiet _ hquiet haskable rfl hwaits.awaits ?_, .inl (by omega)⟩
      dsimp only
      rw [List.length_drop]
      omega
    · have hsmall' : ∀ content, i.files (docroot ++ s.path) = some content →
        content.length < 2 ^ 31 :=
        fun content hfile => hsmall content (by simp [hfile])
      have hlong := length_replyText_le hsmall'
      have hlength : (replyText (i.files (docroot ++ s.path))).length = _ :=
        congrArg List.length hsends.split
      rw [List.length_append] at hlength
      refine ⟨n - 1, Nat.sub_le n 1, .hears (i.files (docroot ++ s.path)) rest hsmall' ?_ hall
        (connection_of_activated hsends.rests) (rest_of_closed hsends hcalm.sends) ?_,
          .inl (by omega)⟩
      · rw [after_append, ← hsends.split]
        exact hquiet.hears _
      · dsimp only
        rw [hquiet.incoming, List.nil_append]
        omega
  | hears reply rest hsmall' hhears hrequests hrests hclosed hmeasure =>
    -- bytes that were sent and not received are left to the getter
    have hincoming : rest = [] → s.getter.incoming ≠ [] := by
      rintro rfl
      have hne := hhears.incoming_ne_nil
      rwa [after_nil] at hne
    cases hconn : s.connection with
    | none =>
      have hsame : s.serverStep docroot i = s := by
        unfold DownloadSystem.serverStep
        rw [hconn]
      rw [hsame]
      exact ⟨n, le_rfl, .hears reply rest hsmall' hhears hrequests hrests hclosed hmeasure,
        .inr (.inr (hincoming (hclosed hconn)))⟩
    | some c =>
      obtain ⟨rest', hsends⟩ := (hrests c hconn).activate docroot i
      have hlength := congrArg List.length hsends.split
      rw [List.length_append] at hlength
      have hphase : ∀ m, 2 * rest'.length + s.getter.incoming.length +
          (i.activate docroot c []).act.sent.length ≤ m → Pending (s.serverStep docroot i) m := by
        intro m hm
        rw [serverStep_of_some hconn, hrequests]
        refine .hears reply rest' hsmall' ?_ List.drop_nil (connection_of_activated hsends.rests)
          (rest_of_closed hsends hcalm.sends) ?_
        · rw [after_append, ← hsends.split]
          exact hhears
        · dsimp only
          rw [List.length_append]
          omega
      by_cases hrest : rest = []
      · have hmoves := hincoming hrest
        rw [hrest, List.length_nil] at hlength
        refine ⟨n, le_rfl, hphase n (by omega), .inr (.inr ?_)⟩
        rw [serverStep_of_some hconn]
        simp [hmoves]
      · have hless := hsends.progress hcalm.sends hcalm.sends_ne_nil hrest
        exact ⟨n - 1, Nat.sub_le n 1, hphase (n - 1) (by omega), .inl (by omega)⟩

/-- A calm activation of the getter ends the download, or makes less to be done if it was left to
the getter. -/
theorem Pending.getter (h : Pending s n) {e : GetterEvent} (hcalm : CalmEvent e) :
    ∃ fg code, s.getter.activate e = .ok (fg, code) ∧
      ((code = .ok200 ∨ code = .err404) ∨
        (code = .errWouldblock ∧ ∃ m ≤ n, Pending (s.activated fg) m ∧
          (Moves s.getter → m < n))) := by
  cases h with
  | asking c unsent hasking haskable hconn hawaits hmeasure =>
    have hfits :
        (Filegetter.getRequest s.getter.fspec.remotePath s.getter.sspec.httpHostname).length <
        bufSize := haskable.request.1.trans (by decide)
    obtain ⟨fg, unsent', hresult, hsends⟩ := hasking.activate_calm hfits hcalm
    obtain ⟨new, hsplit, hsent⟩ := hsends.front.front
    have hawaits' : AwaitsRequest c (s.activated fg).requests unsent'
        (requestOf fg.fspec fg.sspec) := by
      rw [hsends.front.fspec, hsends.front.sspec]
      exact hawaits.sendsFront hsends.front
    have haskable' : Askable fg.fspec fg.sspec := by
      rw [hsends.front.fspec, hsends.front.sspec]
      exact haskable
    have hrequests : (s.activated fg).requests.length = s.requests.length + new.length := by
      show (s.requests ++ fg.sent.drop s.getter.sent.length).length = _
      rw [hsent, List.drop_left, List.length_append]
    have hless := hsends.progress
    rw [hsplit, List.length_append] at hless hmeasure
    refine ⟨fg, .errWouldblock, hresult, .inr ⟨rfl, n - 1, Nat.sub_le n 1, ?_, fun _ => by omega⟩⟩
    rcases hsends.asks with hasking' | ⟨rfl, hquiet⟩
    · exact .asking c unsent' hasking' haskable' hconn hawaits' (by omega)
    · exact .quiet c hquiet haskable' hconn hawaits' (by omega)
  | quiet c hquiet haskable hconn hawaits hmeasure =>
    have hsame : s.activated s.getter = s := by
      unfold activated
      rw [List.drop_length, List.append_nil]
    refine ⟨s.getter, .errWouldblock, hquiet.activate_calm hcalm, .inr ⟨rfl, n, le_rfl, ?_, ?_⟩⟩
    · rw [hsame]
      exact .quiet c hquiet haskable hconn hawaits hmeasure
    · rintro (⟨unsent, hasking⟩ | hincoming)
      · rcases hasking.stage with ⟨hstate, -⟩ | ⟨hstate, -⟩ <;>
          exact absurd (hquiet.state.symm.trans hstate) (by simp)
      · exact absurd hquiet.incoming hincoming
  | hears reply rest hsmall hhears hrequests hrests hclosed hmeasure =>
    obtain ⟨fg, code, hresult, hsome⟩ := hhears.activate_calm hsmall hcalm
    refine ⟨fg, code, hresult, ?_⟩
    obtain ⟨hreports, herrand⟩ := hhears.activate hsmall hresult
    cases hsome with
    | ended hreplied => exact .inl hreplied
    | more hle hprogress =>
      right
      obtain ⟨hhears'⟩ : Reports reply (fg.after rest) .errWouldblock := hreports
      have hrequests' : (s.activated fg).requests = [] := by
        show s.requests ++ fg.sent.drop s.getter.sent.length = []
        rw [hrequests, herrand.sent, List.drop_length, List.append_nil]
      have hpending : ∀ m, 2 * rest.length + fg.incoming.length ≤ m → Pending (s.activated fg) m :=
        fun m hm => .hears reply rest hsmall hhears' hrequests' hrests hclosed hm
      by_cases hincoming : s.getter.incoming = []
      · refine ⟨rfl, n, le_rfl, hpending n (by omega), ?_⟩
        rintro (⟨unsent, hasking⟩ | hne)
        · have hstate := hhears.listens.state
          rcases hasking.stage with ⟨hstate', -⟩ | ⟨hstate', -⟩ <;>
            exact absurd (hstate.symm.trans hstate') (by simp)
        · exact absurd hincoming hne
      · have hless := hprogress hincoming
        exact ⟨rfl, n - 1, Nat.sub_le n 1, hpending (n - 1) (by omega), fun _ => by omega⟩

/-- A calm round ends the download, or makes less to be done. -/
theorem Pending.round (h : Pending s n) {i : Arrival} {e : GetterEvent} (hcalm : CalmRound (i, e))
    (docroot : Bytes) :
    ∃ fg code, (s.serverStep docroot i).getter.activate e = .ok (fg, code) ∧
      ((code = .ok200 ∨ code = .err404) ∨
        (code = .errWouldblock ∧ ∃ m < n, Pending ((s.serverStep docroot i).activated fg) m)) := by
  obtain ⟨m, hm, hpending, hmoves⟩ := h.serverStep hcalm.server docroot
  obtain ⟨fg, code, hresult, hended | ⟨hcode, m', hm', hpending', hless⟩⟩ :=
    hpending.getter hcalm.getter
  · exact ⟨fg, code, hresult, .inl hended⟩
  · refine ⟨fg, code, hresult, .inr ⟨hcode, m', ?_, hpending'⟩⟩
    rcases hmoves with hlt | hmoves
    · omega
    · have := hless hmoves
      omega

/-- Enough calm rounds end the download, by induction on the rounds. -/
theorem Pending.completes (h : Pending s n) (hphase : Phase s)
    {rounds : List (Arrival × GetterEvent)}
    (hcalm : ∀ round ∈ rounds, CalmRound round) (hlength : n ≤ rounds.length) :
    Completes docroot s rounds := by
  induction rounds generalizing s n with
  | nil =>
    have hpos := h.pos
    rw [List.length_nil] at hlength
    omega
  | cons round rounds ih =>
    obtain ⟨i, e⟩ := round
    have hround := hcalm (i, e) (by simp)
    have hserver : Phase (s.serverStep docroot i) :=
      hphase.serverStep docroot i (hround.server.small (docroot ++ s.path))
    obtain ⟨fg, code, hresult, hends⟩ := h.round hround docroot
    obtain ⟨htruthful, hgetter⟩ := hserver.getter hresult
    refine ⟨fg, code, hresult, htruthful, ?_⟩
    rcases hends with (hok | h404) | ⟨hcode, m, hm, hpending⟩
    · exact .inl hok
    · exact .inr (.inl h404)
    · refine .inr (.inr ⟨hcode, ih hpending hgetter ?_ ?_⟩)
      · exact fun round hmem => hcalm round (List.mem_cons_of_mem _ hmem)
      · rw [List.length_cons] at hlength
        omega

/-- A download in progress whose connection can be answered. -/
theorem Phase.pending {c : ServerConnection} (h : Phase s) (hspec : s.getter.state ≠ .spec)
    (hidle : s.getter.state ≠ .idle) (hconn : s.connection = some c) (hstuck : ¬Stuck c) :
    ∃ n, Pending s n := by
  cases h with
  | ready hstate => exact absurd hstate hspec
  | stale hstate => exact absurd hstate hspec
  | dead hstate => exact absurd hstate hidle
  | asking unsent hasking hcomes =>
    exact ⟨_,
      .asking c unsent hasking hcomes.1 hconn ((hcomes.2 c hconn).resolve_right hstuck) le_rfl⟩
  | quiet hquiet hcomes =>
    exact ⟨_, .quiet c hquiet hcomes.1 hconn ((hcomes.2 c hconn).resolve_right hstuck) le_rfl⟩
  | hears reply rest _ hsmall hhears hrequests hrests =>
    refine ⟨_, .hears reply rest hsmall hhears hrequests hrests (fun hnone => ?_) le_rfl⟩
    rw [hconn] at hnone
    cases hnone

end DownloadSystem

end ShadowExtras.FileTransfer
