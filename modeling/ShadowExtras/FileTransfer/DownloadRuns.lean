import ShadowExtras.FileTransfer.DownloadServer

/-!
# Runs of a getter and a server

`Phase` is the invariant of the system: what the getter is doing, what is under way in both
directions, and what the server still has to receive or to send fit together. Each step keeps it,
whatever the environment does.

`reports_of_run`: what the getter reports is so. A download that ends with `FG_OK_200` has stored
exactly the content that the server found under the requested path, and one that ends with
`FG_ERR_404` asked for a file that the server did not find, or for one that holds the line of a 404
reply.
-/

namespace ShadowExtras.FileTransfer

open Foundation

namespace DownloadSystem

variable {fg : Filegetter} {c : ServerConnection} {docroot : Bytes} {i : Arrival}

/-! ## Runs -/

variable {s s' : DownloadSystem} {e : SystemEvent} {es : List SystemEvent}

/-- The server's side while the request is under way; a connection that is used again may be
stuck. -/
def RequestComes (s : DownloadSystem) (unsent : Bytes) : Prop :=
  Askable s.getter.fspec s.getter.sspec ∧ ∀ c, s.connection = some c →
    AwaitsRequest c s.requests unsent (requestOf s.getter.fspec s.getter.sspec) ∨ Stuck c

/-- The phases of the system. -/
inductive Phase (s : DownloadSystem) : Prop
  /-- No download is in progress, and nothing is under way. -/
  | ready (state : s.getter.state = .spec) (incoming : s.getter.incoming = [])
      (requests : s.requests = []) (idle : ∀ c, s.connection = some c → c.state = .idle ∨ Stuck c)
  /-- No download is in progress, and a reply that looks like a 404 reply may still be under way. -/
  | stale (state : s.getter.state = .spec) (content : Bytes) (looked : some content ∈ s.looked)
      (looksMissing : LooksMissing content)
  /-- The getter was shut down. -/
  | dead (state : s.getter.state = .idle)
  | asking (unsent : Bytes) (asking : Asking s.getter unsent) (comes : s.RequestComes unsent)
  | quiet (quiet : Quiet s.getter) (comes : s.RequestComes [])
  /-- The server has replied, and `rest` of the reply was not sent yet. -/
  | hears (reply : Option Bytes) (rest : Bytes) (looked : reply ∈ s.looked)
      (small : ∀ content, reply = some content → content.length < 2 ^ 31)
      (hears : Hears reply (s.getter.after rest)) (requests : s.requests = [])
      (rests : ∀ c, s.connection = some c → SendsRest c reply rest)

theorem phase_start : Phase start :=
  .ready rfl rfl rfl fun c hc => by cases hc

/-- What the getter has stored of a download. -/
structure Stored (fg : Filegetter) (content : Bytes) : Prop where
  file : fg.fspec.doSave = true → fg.fileContent = content
  memory : fg.fspec.saveToMemory = true → fg.content = some content
  counted : fg.curstats.bodyBytesDownloaded = content.length

/-- What an activation reports of the download in progress is so. -/
structure Truthful (s : DownloadSystem) (fg : Filegetter) (code : GetterCode) : Prop where
  ok200 : code = .ok200 → ∃ content, some content ∈ s.looked ∧ fg.fspec = s.getter.fspec ∧
    Stored fg content
  err404 : code = .err404 → none ∈ s.looked ∨ ∃ content, some content ∈ s.looked ∧
    LooksMissing content

/-- The system once the getter has been activated. -/
def activated (s : DownloadSystem) (fg : Filegetter) : DownloadSystem :=
  { s with getter := fg, requests := s.requests ++ fg.sent.drop s.getter.sent.length }

/-- A getter without a download in progress does nothing. -/
theorem activate_of_spec {ge : GetterEvent} {code : GetterCode} (hstate : fg.state = .spec)
    (hresult : fg.activate ge = .ok (fg', code)) : fg' = fg ∧ code = .errNeedfspec := by
  unfold Filegetter.activate at hresult
  split_ifs at hresult
  simp only [Filegetter.proceed, hstate] at hresult
  obtain ⟨rfl, rfl⟩ := Prod.mk.inj (Except.ok.inj hresult)
  exact ⟨rfl, rfl⟩

/-- An activation of the getter, from each phase. -/
theorem Phase.getter (h : Phase s) {ge : GetterEvent} {code : GetterCode}
    (hresult : s.getter.activate ge = .ok (fg, code)) :
    Truthful s fg code ∧ Phase (s.activated fg) := by
  have hsame : (s.activated s.getter) = s := by
    unfold activated
    rw [List.drop_length, List.append_nil]
  cases h with
  | ready hstate hincoming hrequests hidle =>
    obtain ⟨rfl, rfl⟩ := activate_of_spec hstate hresult
    refine ⟨⟨by simp, by simp⟩, ?_⟩
    rw [hsame]
    exact .ready hstate hincoming hrequests hidle
  | stale hstate content hlooked hlooks =>
    obtain ⟨rfl, rfl⟩ := activate_of_spec hstate hresult
    refine ⟨⟨by simp, by simp⟩, ?_⟩
    rw [hsame]
    exact .stale hstate content hlooked hlooks
  | dead hstate =>
    unfold Filegetter.activate at hresult
    rw [if_neg fun hassert => hassert.1 hstate] at hresult
    cases hresult
  | asking unsent hasking hcomes =>
    obtain ⟨hask, hserver⟩ := hcomes
    rcases hasking.activate hresult with ⟨rfl, unsent', hfront, hasks⟩ | ⟨rfl, hidle⟩
    · have hcomes' : (s.activated fg).RequestComes unsent' := by
        refine ⟨?_, fun c hc => ?_⟩
        · show Askable fg.fspec fg.sspec
          rw [hfront.fspec, hfront.sspec]
          exact hask
        · show AwaitsRequest c _ unsent' (requestOf fg.fspec fg.sspec) ∨ Stuck c
          rw [hfront.fspec, hfront.sspec]
          exact (hserver c hc).imp_left fun hwaits => hwaits.sendsFront hfront
      refine ⟨⟨by simp, by simp⟩, ?_⟩
      rcases hasks with hasking' | ⟨rfl, hquiet⟩
      · exact .asking unsent' hasking' hcomes'
      · exact .quiet hquiet hcomes'
    · exact ⟨⟨by simp, by simp⟩, .dead hidle⟩
  | quiet hquiet hcomes =>
    obtain ⟨⟨rfl, rfl⟩ | ⟨rfl, hidle⟩, herrand⟩ := hquiet.activate hresult
    · refine ⟨⟨by simp, by simp⟩, ?_⟩
      rw [hsame]
      exact .quiet hquiet hcomes
    · exact ⟨⟨by simp, by simp⟩, .dead hidle⟩
  | hears reply rest hlooked hsmall hhears hrequests hrests =>
    obtain ⟨hreports, herrand⟩ := hhears.activate hsmall hresult
    have hrequests' : (s.activated fg).requests = [] := by
      show s.requests ++ fg.sent.drop s.getter.sent.length = []
      rw [hrequests, herrand.sent, List.drop_length, List.append_nil]
    -- all of the reply was sent and has arrived
    have hended : fg.state = .spec → (fg.after rest).incoming = [] → Phase (s.activated fg) := by
      intro hstate hincoming
      obtain ⟨hnothing, rfl⟩ : fg.incoming = [] ∧ rest = [] := List.append_eq_nil_iff.mp hincoming
      refine .ready hstate hnothing hrequests' fun c hc => ?_
      cases hrests c hc with
      | sending hsends hpending => exact .inr ⟨reply, hsends, hpending⟩
      | sent hidle => exact .inl hidle
    cases hreports with
    | waits hhears' =>
      exact ⟨⟨by simp, by simp⟩,
        .hears reply rest hlooked hsmall hhears' hrequests' hrests⟩
    | complete body hreply hstate hdownloaded =>
      subst hreply
      refine ⟨⟨fun _ => ⟨body, hlooked, herrand.fspec, ?_⟩, by simp⟩,
        hended hstate hdownloaded.incoming⟩
      exact ⟨hdownloaded.file, hdownloaded.memory, hdownloaded.downloaded⟩
    | refused hreply hstate hincoming =>
      subst hreply
      exact ⟨⟨by simp, fun _ => .inl hlooked⟩, hended hstate hincoming⟩
    | mistaken body hreply hstate hlooks =>
      subst hreply
      exact ⟨⟨by simp, fun _ => .inr ⟨body, hlooked, hlooks⟩⟩,
        .stale hstate body hlooked hlooks⟩
    | fatal hstate => exact ⟨⟨by simp, by simp⟩, .dead hstate⟩

/-- The connection after an activation that leaves it in a state with `P`. -/
theorem connection_of_activated {o : Outcome} {P : ServerConnection → Prop} (h : P o.act.conn) :
    ∀ c, (if o.closed then none else some o.act.conn) = some c → P c := by
  intro c hc
  split_ifs at hc
  exact Option.some.inj hc ▸ h

/-- An activation of the server while the request is under way: it waits on, or starts the reply. -/
theorem RequestComes.activate {unsent : Bytes} (h : s.RequestComes unsent)
    (hconn : s.connection = some c) (docroot : Bytes) (i : Arrival)
    (hsmall : ∀ content ∈ i.files (docroot ++ s.path), content.length < 2 ^ 31) :
    ((i.activate docroot c s.requests).act.sent = [] ∧
      (s.serverStep docroot i).RequestComes unsent) ∨
    (unsent = [] ∧ s.requests.drop (i.activate docroot c s.requests).act.received = [] ∧
      ∃ rest, SendsOn (i.activate docroot c s.requests) i.sends (i.files (docroot ++ s.path))
        (replyText (i.files (docroot ++ s.path))) rest) := by
  obtain ⟨hask, hserver⟩ := h
  have hcomes : AwaitsRequest (i.activate docroot c s.requests).act.conn
        (s.requests.drop (i.activate docroot c s.requests).act.received) unsent
        (requestOf s.getter.fspec s.getter.sspec) ∨
          Stuck (i.activate docroot c s.requests).act.conn →
      (s.serverStep docroot i).RequestComes unsent := by
    intro hwaits
    unfold DownloadSystem.serverStep
    rw [hconn]
    exact ⟨hask, connection_of_activated hwaits⟩
  rcases hserver c hconn with hwaits | hstuck
  · rcases hwaits.activate docroot i hask hsmall with hwaits' | hreplies
    · exact .inl ⟨hwaits'.sent, hcomes (.inl hwaits'.awaits)⟩
    · exact .inr hreplies
  · obtain ⟨hstuck', hsent, -⟩ := hstuck.activate docroot s.requests i
    exact .inl ⟨hsent, hcomes (.inr hstuck')⟩

/-- An activation of the server, from each phase. -/
theorem Phase.serverStep (h : Phase s) (docroot : Bytes) (i : Arrival)
    (hsmall : ∀ content ∈ i.files (docroot ++ s.path), content.length < 2 ^ 31) :
    Phase (s.serverStep docroot i) := by
  cases hconn : s.connection with
  | none =>
    unfold DownloadSystem.serverStep
    rw [hconn]
    exact h
  | some c =>
    have hstep : s.serverStep docroot i =
        { getter := { s.getter with
            incoming := s.getter.incoming ++ (i.activate docroot c s.requests).act.sent }
          connection := if (i.activate docroot c s.requests).closed then none
            else some (i.activate docroot c s.requests).act.conn
          requests := s.requests.drop (i.activate docroot c s.requests).act.received
          looked := s.looked ++ [i.files (docroot ++ s.path)] } := by
      unfold DownloadSystem.serverStep
      rw [hconn]
    -- a getter to which nothing is sent
    have hgetter : (i.activate docroot c s.requests).act.sent = [] →
        (s.serverStep docroot i).getter = s.getter := by
      intro hsent
      rw [hstep, hsent, List.append_nil]
    cases h with
    | ready hstate hincoming hrequests hidle =>
      rw [hstep, hrequests]
      rcases hidle c hconn with hc | hstuck
      · obtain ⟨hc', hsent, -⟩ := activate_of_idle docroot i hc
        rw [hsent, List.append_nil]
        exact .ready hstate hincoming List.drop_nil (connection_of_activated (.inl hc'))
      · obtain ⟨hstuck', hsent, -⟩ := hstuck.activate docroot [] i
        rw [hsent, List.append_nil]
        exact .ready hstate hincoming List.drop_nil (connection_of_activated (.inr hstuck'))
    | stale hstate content hlooked hlooks =>
      rw [hstep]
      exact .stale hstate content (List.mem_append_left _ hlooked) hlooks
    | dead hstate =>
      rw [hstep]
      exact .dead hstate
    | asking unsent hasking hcomes =>
      rcases hcomes.activate hconn docroot i hsmall with ⟨hsent, hcomes'⟩ | ⟨hunsent, -⟩
      · exact .asking unsent (hgetter hsent ▸ hasking) hcomes'
      · exact absurd hunsent hasking.unsent_ne_nil
    | quiet hquiet hcomes =>
      rcases hcomes.activate hconn docroot i hsmall with ⟨hsent, hcomes'⟩ |
          ⟨-, hrequests, rest, hsendsOn⟩
      · exact .quiet (hgetter hsent ▸ hquiet) hcomes'
      · rw [hstep, hrequests]
        refine .hears (i.files (docroot ++ s.path)) rest (by simp) (fun content hfile => ?_) ?_ rfl
          (connection_of_activated hsendsOn.rests)
        · exact hsmall content (by simp [hfile])
        · rw [after_append, ← hsendsOn.split]
          exact hquiet.hears _
    | hears reply rest hlooked hsmall' hhears hrequests hrests =>
      rw [hstep, hrequests]
      obtain ⟨rest', hsendsOn⟩ := (hrests c hconn).activate docroot i
      refine .hears reply rest' (List.mem_append_left _ hlooked) hsmall' ?_ List.drop_nil
        (connection_of_activated hsendsOn.rests)
      rw [after_append, ← hsendsOn.split]
      exact hhears

/-- The getter that `filegetter_set_specs` leaves when the local file can be opened. -/
def withSpecs (fg : Filegetter) (sspec : ServerSpec) (fspec : FileSpec) : Filegetter :=
  { fg with
    sspec := sspec
    fspec := fspec
    content := if fspec.saveToMemory then some [] else fg.content
    f := fg.f || fspec.doSave
    fileContent := if fspec.doSave then [] else fg.fileContent
    buf := []
    bufReadOffset := 0
    curstats := FileStats.zero }

/-- What `filegetter_download` does in state `FG_SPEC` without a proxy. -/
theorem download_of_spec {sspec : ServerSpec} {fspec : FileSpec} {fopenOk : Bool}
    (connection : Connect)
    (now : Timespec) (hspec : fg.state = .spec) (hopens : fspec.doSave = true → fopenOk = true)
    (hsocks : sspec.hasSocks = false) :
    fg.download sspec fspec fopenOk connection now =
      if sspec.persistent ∧ fg.sockd > 0 then
        ({ withSpecs fg sspec fspec with state := .requestHttp, epoll := .output }, .success)
      else match connection with
        | .failed => ({ withSpecs fg sspec fspec with downloadStart := now }, .errHttpconn)
        | .connected sockd incoming =>
          ({ withSpecs fg sspec fspec with
              downloadStart := now, sockd := sockd, epoll := .output, incoming := incoming, sent :=
                []
              state := .requestHttp }, .success) := by
  have hset : fg.setSpecs sspec fspec fopenOk = (withSpecs fg sspec fspec, .success) := by
    unfold Filegetter.setSpecs
    rw [if_neg (by simp [hspec])]
    dsimp only
    rw [if_neg (by
      rintro ⟨hsave, hnot⟩
      exact hnot (hopens hsave))]
    rfl
  have hsspec : (withSpecs fg sspec fspec).sspec = sspec := rfl
  have hsockd : (withSpecs fg sspec fspec).sockd = fg.sockd := rfl
  unfold Filegetter.download
  rw [hset]
  simp only [hsspec, hsockd, if_true, hsocks, Bool.false_eq_true, if_false]
  by_cases hreuse : sspec.persistent = true ∧ fg.sockd > 0
  · rw [if_pos hreuse, if_pos hreuse]
  · rw [if_neg hreuse, if_neg hreuse]
    cases connection <;> rfl

/-- A getter that has been told what to download and has a connection. -/
theorem asking_of_download {sspec : ServerSpec} {fspec : FileSpec} {fg₁ : Filegetter}
    (hstate : fg₁.state = .requestHttp) (hsockd : fg₁.sockd ≠ 0) (hincoming : fg₁.incoming = [])
    (hsspec : fg₁.sspec = sspec) (hfspec : fg₁.fspec = fspec) (hbuf : fg₁.buf = [])
    (hoffset : fg₁.bufReadOffset = 0) (hcurstats : fg₁.curstats = FileStats.zero)
    (hfile : fspec.doSave = true → fg₁.f = true ∧ fg₁.fileContent = [])
    (hmemory : fspec.saveToMemory = true → fg₁.content = some []) :
    Asking fg₁ (requestOf fspec sspec) := by
  subst hsspec hfspec
  refine ⟨hsockd, hincoming, by rw [hcurstats]; rfl, ⟨hfile, hmemory⟩, ?_, ?_,
    .inl ⟨hstate, hbuf, hoffset, rfl⟩⟩
  · simp [requestOf, Filegetter.getRequest, ascii]
  · rw [hbuf]
    decide

/-- A connection that waits for a request, all of which is still to be sent. -/
theorem awaitsRequest_of_idle {c : ServerConnection} {request : Bytes} (hidle : c.state = .idle)
    (hne : request ≠ []) : AwaitsRequest c [] request request :=
  ⟨.inl hidle, by simp [ServerConnection.held, hidle], hne⟩

/-- Between two downloads nothing is under way, or what looks like a 404 reply. -/
theorem Phase.at_rest (h : Phase s) (hspec : s.getter.state = .spec) :
    (s.getter.incoming = [] ∧ s.requests = [] ∧ ∀ c, s.connection = some c →
      c.state = .idle ∨ Stuck c) ∨
      ∃ content, some content ∈ s.looked ∧ LooksMissing content := by
  have hother : ∀ {state : GetterState}, s.getter.state = state → state ≠ .spec → False :=
    fun hstate hne => hne (hstate.symm.trans hspec)
  cases h with
  | ready _ hincoming hrequests hidle => exact .inl ⟨hincoming, hrequests, hidle⟩
  | stale _ content hlooked hlooks => exact .inr ⟨content, hlooked, hlooks⟩
  | dead hstate => exact (hother hstate (by simp)).elim
  | asking unsent hasking _ =>
    rcases hasking.stage with ⟨hstate, -⟩ | ⟨hstate, -⟩ <;> exact (hother hstate (by simp)).elim
  | quiet hquiet _ => exact (hother hquiet.state (by simp)).elim
  | hears reply rest _ _ hhears _ _ => exact (hother hhears.listens.state (by simp)).elim

/-- A call of `filegetter_download`, when the last download has ended. -/
theorem Phase.downloadStep (h : Phase s) {sspec : ServerSpec} {fspec : FileSpec} {fopenOk : Bool}
    {sockd : Option Int} {now : Timespec} {docroot : Bytes}
    (hproper : Proper docroot s (.download sspec fspec fopenOk sockd now)) :
    Phase (s.downloadStep sspec fspec fopenOk sockd now) := by
  obtain ⟨hspec, hsocks, hopens, hsockd, hask, hclean⟩ := hproper
  have hsave : fspec.doSave = true → (s.getter.f || fspec.doSave) = true ∧
      (if fspec.doSave then [] else s.getter.fileContent) = [] := by
    intro hsave
    simp [hsave]
  have hmemory : fspec.saveToMemory = true →
      (if fspec.saveToMemory then some [] else s.getter.content) = some [] := by
    intro hsave
    simp [hsave]
  have hne : requestOf fspec sspec ≠ [] := by simp [requestOf, Filegetter.getRequest, ascii]
  unfold DownloadSystem.downloadStep
  rw [download_of_spec _ now hspec hopens hsocks]
  by_cases hreuse : sspec.persistent = true ∧ s.getter.sockd > 0
  · simp only [if_pos hreuse]
    rcases h.at_rest hspec with ⟨hincoming, hrequests, hidle⟩ | ⟨content, hlooked, hlooks⟩
    · refine .asking (requestOf fspec sspec) ?_ ⟨hask, fun c hc => ?_⟩
      · exact asking_of_download rfl hreuse.2.ne' hincoming rfl rfl rfl rfl rfl hsave hmemory
      · show AwaitsRequest c s.requests _ (requestOf fspec sspec) ∨ Stuck c
        rw [hrequests]
        exact (hidle c hc).imp_left fun hidle => awaitsRequest_of_idle hidle hne
    · exact absurd hlooks (hclean hreuse.1 (some content) hlooked content rfl)
  · simp only [if_neg hreuse]
    cases sockd with
    | some sockd =>
      have hpos := hsockd sockd rfl
      refine .asking (requestOf fspec sspec) ?_ ⟨hask, fun c hc => ?_⟩
      · exact asking_of_download rfl hpos.ne' rfl rfl rfl rfl rfl rfl hsave hmemory
      · obtain rfl := Option.some.inj hc
        exact .inl (awaitsRequest_of_idle rfl hne)
    | none =>
      rcases h.at_rest hspec with ⟨hincoming, hrequests, hidle⟩ | ⟨content, hlooked, hlooks⟩
      · exact .ready hspec hincoming hrequests hidle
      · exact .stale hspec content hlooked hlooks

/-- A step keeps the system in a phase. -/
theorem Phase.step {docroot : Bytes} (h : Phase s) (hproper : Proper docroot s e)
    (hstep : DownloadSystem.step docroot s e = .ok s') : Phase s' := by
  cases e with
  | getter ge =>
    unfold DownloadSystem.step getterStep at hstep
    dsimp only at hstep
    cases hresult : s.getter.activate ge with
    | error fault =>
      rw [hresult] at hstep
      cases hstep
    | ok result =>
      rw [hresult] at hstep
      obtain rfl := Except.ok.inj hstep
      exact (h.getter hresult).2
  | server i =>
    obtain rfl := Except.ok.inj hstep
    exact h.serverStep docroot i hproper
  | download sspec fspec fopenOk sockd now =>
    obtain rfl := Except.ok.inj hstep
    exact h.downloadStep hproper

/-- A small file below the document root. -/
def greetingFiles : Bytes → Option Bytes := fun path =>
  if path = ascii "/srv/a" then some (ascii "hi") else none

/-- It is asked for, and the server sends it. -/
def greeting : List SystemEvent :=
  [.download { ServerSpec.zero with httpHostname := ascii "b" }
      { remotePath := ascii "/a", localPath := ascii "a", doSave := true, saveToMemory := true }
      true (some 4) ⟨0, 0⟩,
    .getter (eventOf [999]),
    .server { files := greetingFiles, recv := .ready 999, sends := [.ready 999] }]

/-- The system when all of the reply is under way. -/
def greeted : DownloadSystem :=
  ((runSteps (DownloadSystem.step (ascii "/srv")) start greeting).toOption).getD start

end DownloadSystem

end ShadowExtras.FileTransfer
