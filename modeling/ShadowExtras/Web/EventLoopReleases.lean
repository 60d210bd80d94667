import ShadowExtras.Web.ConnectionManagerNumbers
import ShadowExtras.Web.EventLoop

/-!
# Connections are released once

`release_conn` expects a connection in the lists of the manager. A connection leaves them when it is
released or when the manager is reset, but its handlers stay until it is deleted: `trigger` goes on
with the next part of the mask, and epoll may report the socket again. `ReportsOnce` says which
calls of `trigger` are harmless: the socket is not in one of the states that an error or a hangup
leaves behind, and the handlers report the connection at most once, and not at all once it has left
the lists.
-/

namespace ShadowExtras.Web

open Foundation

namespace EventLoop

open ConnectionManager

variable {w w' : EventLoop} {t : Trigger} {fault : Fault} {c : Cnx}

/-- The assertions in `release_conn` and in `trigger`. -/
def OnRelease (fault : Fault) : Prop :=
  fault = .triggerState ∨ fault = .manager .netlocInMap ∨ fault = .manager .connInList

/-- A run has not failed in `release_conn` or `trigger`, and if it has not failed at all,
`release_conn` was called at most once for every connection. -/
def ReleasesOnce : Except Fault EventLoop → Prop
  | .ok w => ∀ cnx, w.releases cnx ≤ 1
  | .error fault => ¬OnRelease fault

/-- The socket when `trigger` comes to the read handler. -/
def atRead (t : Trigger) (s : Sock) : Sock :=
  let s := (s.erred t.epollerr).hungUp t.epollrdhup t.writes
  if t.epollout then s.writable t.writes else s

/-- How often the event handler reports the connection for an error. -/
def errReports (reported : Bool) (s : Sock) : Nat :=
  match s.eventcb with
  | .mevEventcb => reported.toNat
  | .mevSocks5ProxyEventcb => 0

/-- How often the read handler reports a connection. -/
def readReports (t : Trigger) (s : Sock) (c : Cnx) : Nat :=
  if t.epollin then
    match s.readcb with
    | none => 0
    | some .mevReadcb => if c.active = [] ∨ t.eof = true then 1 else 0
    | some .mevSocks5ProxyReadcb =>
      if s.socks5State = .readRespNext ∧ t.refused = true then 1 else 0
  else 0

/-- How often a connection may still be reported. -/
def allowance (m : ConnectionManager) (t : Trigger) : Nat :=
  if m.isLive t.netloc t.instNum then 1 else 0

/-- Epoll reports events for a socket that is connecting or connected, and the handlers report the
connection at most once, and not at all when it is in none of the lists. -/
def ReportsOnce (w : EventLoop) : Event → Prop
  | .trigger t => ∀ c ∈ w.manager.cnx t.netloc t.instNum,
      ((w.sock t.instNum).state = .connecting ∨ (w.sock t.instNum).state = .connected) ∧
        errReports t.epollerr (w.sock t.instNum) +
          readReports t (atRead t (w.sock t.instNum)) c ≤ allowance w.manager t
  | _ => True

instance (w : EventLoop) (e : Event) : Decidable (w.ReportsOnce e) := by
  cases e <;> unfold ReportsOnce <;> infer_instance

/-- The numbers are distinct and no connection in the lists was ever released. -/
structure Tidy (w : EventLoop) : Prop where
  numbered : w.manager.Numbered
  once : ∀ cnx, w.releases cnx ≤ 1
  left : ∀ netloc n, w.releases (netloc, n) ≠ 0 →
    n < w.manager.nextInstNum ∧ n ∉ w.manager.liveNums netloc

/-- Connections that grow release nothing. -/
theorem Tidy.grows (h : w.Tidy) (hgrows : w.manager.Grows w'.manager)
    (hreleases : w'.releases = w.releases) : w'.Tidy := by
  constructor
  · exact h.numbered.grows hgrows
  · intro cnx
    rw [hreleases]
    exact h.once cnx
  · intro netloc n hn
    rw [hreleases] at hn
    obtain ⟨hlt, hnot⟩ := h.left netloc n hn
    have hnext := hgrows.next
    exact ⟨by omega, fun hmem => hnot ((hgrows.mem_liveNums hlt).mp hmem)⟩

/-- The number of a connection that is found was given out. -/
theorem Tidy.lt_nextInstNum (h : w.Tidy) (hc : w.manager.cnx t.netloc t.instNum = some c) :
    t.instNum < w.manager.nextInstNum := by
  refine h.numbered.below t.netloc t.instNum ?_
  cases hlive : w.manager.isLive t.netloc t.instNum with
  | true => exact List.mem_append_left _ (isLive_iff.mp hlive)
  | false =>
    rw [cnx_of_not_isLive hlive] at hc
    exact List.mem_append_right _ (Cnx.isSome_find_iff.mp (by rw [hc]; rfl))

/-! ## The parts of `trigger` -/

/-- No assertion in `release_conn` or `trigger` fails, and what comes out satisfies `Q`. -/
def Passes (r : Except Fault EventLoop) (Q : EventLoop → Prop) : Prop :=
  (∀ fault, r = .error fault → ¬OnRelease fault) ∧ ∀ w, r = .ok w → Q w

theorem passes_ok {Q : EventLoop → Prop} (h : Q w) : Passes (.ok w) Q :=
  ⟨fun _ herror => by simp at herror, fun _ hok => Except.ok.inj hok ▸ h⟩

theorem passes_error {Q : EventLoop → Prop} (h : ¬OnRelease fault) : Passes (.error fault) Q :=
  ⟨fun _ herror => Except.error.inj herror ▸ h, fun _ hok => by simp at hok⟩

theorem Passes.imp {r : Except Fault EventLoop} {Q R : EventLoop → Prop} (h : Passes r Q)
    (hQR : ∀ w, Q w → R w) : Passes r R :=
  ⟨h.1, fun w hw => hQR w (h.2 w hw)⟩

/-- One part after the other. -/
theorem Passes.bind {r : Except Fault EventLoop} {f : EventLoop → Except Fault EventLoop}
    {Q R : EventLoop → Prop} (h : Passes r Q) (hf : ∀ w, Q w → Passes (f w) R) :
    Passes (r >>= f) R := by
  cases r with
  | error fault => exact passes_error (h.1 fault rfl)
  | ok w => exact hf w (h.2 w rfl)

/-- A connection in the lists can be reported once; it keeps its requests. -/
theorem Tidy.unusable (h : w.Tidy) (hlive : w.manager.isLive t.netloc t.instNum = true) :
    Passes (w.unusable t) fun w' => w'.Tidy ∧ w'.sock = w.sock ∧
      w'.manager.cnx t.netloc t.instNum = w.manager.cnx t.netloc t.instNum := by
  rw [isLive_iff] at hlive
  unfold EventLoop.unusable
  cases hstep : w.manager.handleUnusableConn t.netloc t.instNum t.errorCb with
  | error f =>
    refine passes_error ?_
    unfold handleUnusableConn at hstep
    split at hstep
    · rename_i g hrelease
      exact absurd hrelease (releaseConn_ne_error hlive)
    · split at hstep
      · simp at hstep
      · obtain rfl := Except.error.inj hstep
        simp [OnRelease]
  | ok manager =>
    obtain ⟨s, conn, hrelease, hgrows, hcnx⟩ := handleUnusableConn_spec h.numbered hstep
    obtain ⟨hnumbered, hnot, -⟩ := h.numbered.releaseConn hrelease
    obtain ⟨hlive', -, hnext, hother, -, -⟩ := releaseConn_spec hrelease
    have hzero : w.releases (t.netloc, t.instNum) = 0 := by
      by_contra hne
      exact (h.left t.netloc t.instNum hne).2 hlive
    have hbelow : t.instNum < s.nextInstNum := by
      rw [hnext]
      exact h.numbered.below t.netloc t.instNum (by simp [hlive])
    have hnext' := hgrows.next
    refine passes_ok ⟨⟨hnumbered.grows hgrows, fun cnx => ?_, fun netloc n hn => ?_⟩, rfl, hcnx⟩
    · by_cases hc : cnx = (t.netloc, t.instNum)
      · simp [hc, hzero]
      · simp only [Function.update_of_ne hc]
        exact h.once cnx
    · by_cases hc : (netloc, n) = (t.netloc, t.instNum)
      · obtain ⟨rfl, rfl⟩ := Prod.mk.inj hc
        exact ⟨Nat.lt_of_lt_of_le hbelow hnext',
          fun hmem => hnot ((hgrows.mem_liveNums hbelow).mp hmem)⟩
      · simp only [Function.update_of_ne hc] at hn
        obtain ⟨hlt, hnotin⟩ := h.left netloc n hn
        have hlt' : n < s.nextInstNum := by omega
        refine ⟨Nat.lt_of_lt_of_le hlt' hnext', fun hmem => hnotin ?_⟩
        have hmem' := (hgrows.mem_liveNums hlt').mp hmem
        by_cases hk : netloc = t.netloc
        · subst hk
          rw [hlive'] at hmem'
          exact List.mem_of_mem_erase hmem'
        · rwa [(hother netloc hk).1] at hmem'

/-- Between two parts of `trigger`: the socket, the requests of the connection and the number of
reports that may still come. -/
structure Ready (w : EventLoop) (t : Trigger) (s : Sock) (c : Cnx) (k : Nat) : Prop where
  tidy : w.Tidy
  sock : w.sock t.instNum = s
  allowed : k ≤ allowance w.manager t
  found : ∃ c', w.manager.cnx t.netloc t.instNum = some c' ∧ (c.active ≠ [] → c'.active ≠ [])

variable {s : Sock} {k : Nat}

/-- A connection that may be released is live. -/
theorem isLive_of_allowance (h : 0 < allowance w.manager t) :
    w.manager.isLive t.netloc t.instNum = true := by
  unfold allowance at h
  by_contra hnot
  simp [hnot] at h

theorem Tidy.setSock (h : w.Tidy) : (w.setSock t s).Tidy := ⟨h.numbered, h.once, h.left⟩

/-- The part for an error. -/
theorem Ready.onErr (h : w.Ready t s c (errReports t.epollerr s + k)) :
    Passes (w.onErr t) fun w' => w'.Ready t (s.erred t.epollerr) c k := by
  unfold EventLoop.onErr EventLoop.hangup Sock.erred
  have hallowed := h.allowed
  cases hreported : t.epollerr with
  | false => exact passes_ok ⟨h.tidy, h.sock, le_trans (Nat.le_add_left _ _) hallowed, h.found⟩
  | true =>
    rw [hreported] at hallowed
    unfold errReports at hallowed
    unfold eventcb
    rw [h.sock]
    cases hcb : s.eventcb with
    | mevSocks5ProxyEventcb => exact passes_error (by simp [OnRelease])
    | mevEventcb =>
      simp only [hcb, Bool.toNat_true] at hallowed
      have hlive : w.manager.isLive t.netloc t.instNum = true := isLive_of_allowance (by omega)
      have hone : allowance w.manager t ≤ 1 := by
        unfold allowance
        split <;> omega
      have hunusable := h.tidy.unusable hlive
      have herror : w.mevEventcb t .error = w.unusable t := rfl
      simp only [if_true, herror]
      cases hstep : w.unusable t with
      | error f => exact passes_error (hunusable.1 f hstep)
      | ok w' =>
        obtain ⟨htidy, hsock, hcnx⟩ := hunusable.2 w' hstep
        refine passes_ok ⟨htidy.setSock, ?_, by omega, ?_⟩
        · simp [EventLoop.setSock, hsock, h.sock, hcb]
        · obtain ⟨c', hc', hactive⟩ := h.found
          exact ⟨c', hcnx.trans hc', hactive⟩

theorem Ready.setSock (h : w.Ready t s c k) (s' : Sock) : (w.setSock t s').Ready t s' c k :=
  ⟨h.tidy.setSock, by simp [EventLoop.setSock], h.allowed, h.found⟩

/-- Writing requests keeps those that are active. -/
theorem Ready.written (h : w.Ready t s c k) (s' : Sock) : (w.written t s').Ready t s' c k := by
  have hgrows : w.manager.Grows
      (w.manager.updateCnx t.netloc t.instNum Cnx.httpWriteToOutbuf) :=
    grows_updateCnx w.manager fun _ => Cnx.instNum_httpWriteToOutbuf
  obtain ⟨c', hc', hactive⟩ := h.found
  refine ⟨h.tidy.grows hgrows rfl, by simp [EventLoop.written, EventLoop.setSock], ?_, ?_⟩
  · have hlt := h.tidy.lt_nextInstNum hc'
    have hallowed := h.allowed
    unfold allowance at hallowed ⊢
    unfold EventLoop.written
    simpa only [isLive_iff, hgrows.mem_liveNums hlt] using hallowed
  · refine ⟨c'.httpWriteToOutbuf, cnx_updateCnx (fun _ => Cnx.instNum_httpWriteToOutbuf) hc',
      fun hc => ?_⟩
    rw [Cnx.httpWriteToOutbuf_of_active (hactive hc)]
    exact hactive hc

/-- A connection that was made stays ready. -/
theorem Ready.onConnect (h : w.Ready t s c k) :
    Passes (w.onConnect t) fun w' =>
      w'.Ready t (Sock.send t.writes { s with cnxState := .connected }) c k := by
  unfold EventLoop.onConnect
  rw [h.sock]
  dsimp only
  split
  · exact passes_error (by simp [OnRelease])
  · exact passes_ok (h.written _)

/-- An event that is taken for the one that the socket is connected. -/
theorem Ready.eventcb {events : MevEvent} (hevents : events.has .connected = true)
    (h : w.Ready t s c k) :
    Passes (w.eventcb t events) fun w' => w'.Ready t (s.onConnected t.writes) c k := by
  have hsock := h.sock
  unfold EventLoop.eventcb Sock.onConnected
  rw [hsock]
  cases hcb : s.eventcb with
  | mevSocks5ProxyEventcb =>
    dsimp only
    unfold EventLoop.mevSocks5ProxyEventcb
    rw [if_pos hevents, hsock]
    exact passes_ok (h.setSock _)
  | mevEventcb =>
    dsimp only
    unfold EventLoop.mevEventcb
    rw [if_pos hevents]
    have hconnect := h.onConnect
    rwa [hcb] at hconnect

/-- The part for a hangup. -/
theorem Ready.onRdhup (h : w.Ready t s c k) :
    Passes (w.onRdhup t) fun w' => w'.Ready t (s.hungUp t.epollrdhup t.writes) c k := by
  unfold EventLoop.onRdhup EventLoop.hangup Sock.hungUp
  cases t.epollrdhup with
  | false => exact passes_ok h
  | true =>
    have hevents : MevEvent.eof.has .connected = true := by decide
    have hcalled := h.eventcb hevents
    simp only [if_true]
    cases hstep : w.eventcb t .eof with
    | error f => exact passes_error (hcalled.1 f hstep)
    | ok w' =>
      have hready := hcalled.2 w' hstep
      refine passes_ok ?_
      rw [hready.sock]
      exact hready.setSock _

/-- The part for a writable socket. -/
theorem Ready.onOut (h : w.Ready t s c k) :
    Passes (w.onOut t) fun w' =>
      w'.Ready t (if t.epollout then s.writable t.writes else s) c k := by
  unfold EventLoop.onOut
  rw [h.sock]
  cases t.epollout with
  | false => exact passes_ok h
  | true =>
    unfold Sock.writable
    simp only [if_true]
    by_cases hconnecting : s.state = .connecting
    · rw [if_pos hconnecting, if_pos hconnecting]
      exact (h.setSock _).eventcb (by decide)
    · rw [if_neg hconnecting, if_neg hconnecting]
      cases s.eventcb with
      | mevSocks5ProxyEventcb => exact passes_ok (h.setSock _)
      | mevEventcb => exact passes_ok (h.written _)

/-- What arrives opens connections with new numbers. -/
theorem grows_receive {netloc : NetLoc} {n : Nat} {m m' : ConnectionManager}
    {arrivals : List Arrival} (h : receive netloc n m arrivals = .ok m') : m.Grows m' := by
  induction arrivals generalizing m with
  | nil =>
    obtain rfl := Except.ok.inj h
    exact Grows.refl m
  | cons a rest ih =>
    cases a with
    | bodyData len => exact (grows_responseBodyData m len).trans (ih h)
    | submits netlocs => exact (grows_submitAll m netlocs).trans (ih h)
    | responseDone netlocs =>
      simp only [receive] at h
      split at h
      · simp at h
      · rename_i t hdone
        exact (grows_responseDone hdone).trans (ih h)

/-- Only `release_conn` looks for the connection in the lists of its server. -/
theorem receive_error {netloc : NetLoc} {n : Nat} {m : ConnectionManager}
    {arrivals : List Arrival} {f : AssertFailed} (h : receive netloc n m arrivals = .error f) :
    f = .server := by
  induction arrivals generalizing m with
  | nil => simp [receive] at h
  | cons a rest ih =>
    cases a with
    | bodyData len => exact ih h
    | submits netlocs => exact ih h
    | responseDone netlocs =>
      simp only [receive] at h
      split at h
      · rename_i f' hdone
        obtain rfl := Except.error.inj h
        unfold responseDone at hdone
        split at hdone
        · simp at hdone
        · dsimp only at hdone
          split at hdone
          · rename_i g hcb
            obtain rfl := Except.error.inj hdone
            unfold cnxRequestDoneCb at hcb
            split at hcb
            · exact (Except.error.inj hcb).symm
            · split at hcb <;> simp at hcb
          · simp at hdone
      · exact ih h

/-- The part for a readable socket. -/
theorem Ready.onIn (h : w.Ready t s c (readReports t s c)) : Passes (w.onIn t) Tidy := by
  obtain ⟨c', hc', hactive⟩ := h.found
  have hallowed := h.allowed
  unfold readReports at hallowed
  unfold EventLoop.onIn
  rw [h.sock, hc']
  cases hin : t.epollin with
  | false => exact passes_ok h.tidy
  | true =>
    simp only [hin, if_true] at hallowed ⊢
    cases hcb : s.readcb with
    | none => exact passes_ok h.tidy
    | some cb =>
      cases cb with
      | mevReadcb =>
        simp only [hcb] at hallowed
        simp only [onRead]
        by_cases hidle : c'.active.length = 0
        · -- nothing is expected: the same report as at the end of the stream
          have hempty : c.active = [] := by
            by_contra hne
            exact hactive hne (List.length_eq_zero_iff.mp hidle)
          rw [if_pos (Or.inl hempty)] at hallowed
          rw [if_pos hidle]
          exact (h.tidy.setSock.unusable (isLive_of_allowance hallowed)).imp fun _ hw => hw.1
        · rw [if_neg hidle]
          cases hreceive : receive t.netloc t.instNum w.manager t.arrivals with
          | error f =>
            obtain rfl := receive_error hreceive
            exact passes_error (by simp [OnRelease])
          | ok manager =>
            have hgrows := grows_receive hreceive
            have htidy : Tidy { w with manager := manager } := h.tidy.grows hgrows rfl
            cases heof : t.eof with
            | false => exact passes_ok htidy
            | true =>
              rw [if_pos (Or.inr heof)] at hallowed
              have hlive := isLive_of_allowance hallowed
              have hstill : manager.isLive t.netloc t.instNum = true := by
                rw [isLive_iff, hgrows.mem_liveNums (h.tidy.lt_nextInstNum hc'), ← isLive_iff]
                exact hlive
              simp only [if_true]
              exact (htidy.unusable hstill).imp fun _ hw => hw.1
      | mevSocks5ProxyReadcb =>
        simp only [hcb] at hallowed
        simp only [onSocks5ProxyReadable, h.sock]
        cases hsocks : s.socks5State with
        | none => exact passes_ok h.tidy
        | greeting => exact passes_ok h.tidy.setSock
        | writeRequestNext => exact passes_ok h.tidy
        | readRespNext =>
          cases hrefused : t.refused with
          | false => exact passes_ok h.tidy.setSock
          | true =>
            rw [if_pos ⟨hsocks, hrefused⟩] at hallowed
            simp only [if_true]
            exact (h.tidy.unusable (isLive_of_allowance hallowed)).imp fun _ hw => hw.1

/-! ## Runs -/

/-- One turn of the loop. -/
theorem Tidy.step {e : Event} (h : w.Tidy) (honce : w.ReportsOnce e) :
    Passes (step w e) Tidy := by
  cases e with
  | submit netloc => exact passes_ok (h.grows (grows_newRequest w.manager netloc) rfl)
  | reset =>
    refine passes_ok ⟨h.numbered.reset, h.once, fun netloc n hn => ?_⟩
    exact ⟨(h.left netloc n hn).1, by simp [liveNums, ConnectionManager.reset]⟩
  | delete netloc instNum =>
    refine passes_ok ⟨⟨fun k => ?_, fun k n hn => ?_⟩, h.once, h.left⟩
    · refine (h.numbered.distinct k).sublist (List.Sublist.append_left ?_ _)
      exact goneNums_delete
    · refine h.numbered.below k n ?_
      rcases List.mem_append.mp hn with hn | hn
      · exact List.mem_append_left _ hn
      · exact List.mem_append_right _ (goneNums_delete.subset hn)
  | trigger t =>
    simp only [EventLoop.step, EventLoop.trigger]
    cases hc : w.manager.cnx t.netloc t.instNum with
    | none => exact passes_ok h
    | some c =>
      obtain ⟨hstate, hreports⟩ := honce c hc
      simp only [hstate, if_true]
      have hready : w.Ready t (w.sock t.instNum) c _ := ⟨h, rfl, hreports, c, hc, id⟩
      refine hready.onErr.bind fun w₁ h₁ => ?_
      refine h₁.onRdhup.bind fun w₂ h₂ => ?_
      exact h₂.onOut.bind fun w₃ h₃ => h₃.onIn

/-- In every run whose turns report every connection at most once, no assertion in `release_conn` or
`trigger` fails and every connection is released at most once. -/
theorem releasesOnce_of_reportsOnce (maxPersist maxRetries : Nat) (socks5 : Bool)
    (atOnce : Nat → Bool) (es : List Event)
    (honce : StepsMeet step ReportsOnce (new maxPersist maxRetries socks5 atOnce) es) :
    ReleasesOnce (runSteps step (new maxPersist maxRetries socks5 atOnce) es) := by
  have htidy : (new maxPersist maxRetries socks5 atOnce).Tidy := by
    refine ⟨⟨fun netloc => ?_, fun netloc n hn => ?_⟩, fun _ => Nat.zero_le 1, ?_⟩
    · simp [liveNums, goneNums, new, ConnectionManager.new]
    · simp [liveNums, goneNums, new, ConnectionManager.new] at hn
    · intro netloc n hn
      exact absurd rfl hn
  cases hrun : runSteps step (new maxPersist maxRetries socks5 atOnce) es with
  | ok w =>
    exact (invariant_of_stepsMeet Tidy (fun _ _ _ hw hP hstep => (hw.step hP).2 _ hstep) htidy honce
      hrun).once
  | error fault =>
    exact fault_of_stepsMeet Tidy (fun f => ¬OnRelease f)
      (fun _ _ _ hw hP hstep => (hw.step hP).2 _ hstep)
      (fun _ _ _ hw hP hstep => (hw.step hP).1 _ hstep) htidy honce hrun

/-- A call of `trigger` on the first connection to a location. -/
def first (epollin epollout epollerr eof : Bool) (arrivals : List Arrival) : Trigger where
  netloc := ([], 80)
  instNum := 0
  epollin := epollin
  epollout := epollout
  epollerr := epollerr
  epollhup := epollerr
  epollrdhup := false
  writes := epollout
  arrivals := arrivals
  eof := eof
  refused := false
  errorCb := fun _ => []

/-- The connection becomes writable, its response is received, and the peer closes it. -/
theorem releasesOnce_of_reportsOnce_eof :
    ReleasesOnce (runSteps step (new 1 2 false fun _ => false)
      [.submit ([], 80), .trigger (first false true false false []),
        .trigger (first true false false false [.responseDone []]),
        .trigger (first true false false true []), .delete ([], 80) 0]) :=
  releasesOnce_of_reportsOnce 1 2 false (fun _ => false) _ (by decide)

/-- The peer resets an idle connection. The error releases it, the read handler finds no active
request and reports it again, and the location is not in the map of the servers any more. -/
theorem not_releasesOnce_reset_by_peer :
    ¬ReleasesOnce (runSteps step (new 1 2 false fun _ => false)
      [.submit ([], 80), .trigger (first false true false false []),
        .trigger (first true false false false [.responseDone []]),
        .trigger (first true false true false [])]) := by
  intro h
  exact h (.inr (.inl rfl))

end EventLoop

end ShadowExtras.Web
