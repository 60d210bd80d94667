import ShadowExtras.Web.ConnectionManager

/-!
# Where the requests are

Every request that was submitted is in exactly one place: the waiting list of its server, a queue of
one live connection, notified as done, or reported as failed. The invariant `Accounted` counts the
places of every request at every location; the operations in between move requests out of one place
before they put them into the next, so that the invariant also counts the requests in the program's
hands.

Two things break it, and `KeepsRequests` excludes them. When the last connection of a server is
released, the server is dropped from the map together with its waiting requests. And a connection
that was released, but not destroyed yet, still has the requests that were submitted again
elsewhere in its active queue: when a response completes on it, its request is notified as done
while it is also somewhere else, and the connection even takes over a waiting request.
-/

namespace ShadowExtras.Web

open Foundation

/-! ## Counting places -/

/-- How often a request is in the queues of a connection. -/
def Cnx.count (req : ReqId) (c : Cnx) : Nat := c.submitted.count req + c.active.count req

/-- How often a request is in the queues of some connections. -/
def Cnx.countAll (req : ReqId) (cs : List Cnx) : Nat := (cs.map (Cnx.count req)).sum

namespace ConnectionManager

/-- How often a request is in the waiting list of a location. -/
def waitingAt (s : ConnectionManager) (netloc : NetLoc) (req : ReqId) : Nat :=
  match s.servers netloc with
  | none => 0
  | some server => server.requests.count req

/-- How often a request is in the queues of the live connections of a location. -/
def carriedAt (s : ConnectionManager) (netloc : NetLoc) (req : ReqId) : Nat :=
  match s.servers netloc with
  | none => 0
  | some server => Cnx.countAll req server.connections

/-- A request is in exactly one place: the waiting list of its location, the queues of one live
connection to it, the notified or the failed requests. -/
structure ExactlyOnePlace (s : ConnectionManager) (req : ReqId) : Prop where
  /-- At its own location and in the notifications it is counted once. -/
  own : s.waitingAt (s.request req).netloc req + s.carriedAt (s.request req).netloc req +
    s.done.count req + s.failed.count req = 1
  /-- It is nowhere at another location. -/
  others : ∀ netloc ≠ (s.request req).netloc,
    s.waitingAt netloc req = 0 ∧ s.carriedAt netloc req = 0

/-- The event does not lose track of requests: a connection that is released as the last one of its
server leaves no waiting request behind, and no response completes on a released connection. -/
def KeepsRequests (s : ConnectionManager) : Event → Prop
  | .unusable netloc _ _ => ∀ server ∈ s.servers netloc,
      server.connections.length = 1 → server.requests = []
  | .responseDone netloc instNum _ =>
      s.isLive netloc instNum = true ∨ s.cnx netloc instNum = none
  | _ => True

instance (s : ConnectionManager) (e : Event) : Decidable (s.KeepsRequests e) := by
  cases e <;> unfold KeepsRequests <;> infer_instance

/-- How often a request is at a location. -/
def heldAt (s : ConnectionManager) (netloc : NetLoc) (req : ReqId) : Nat :=
  s.waitingAt netloc req + s.carriedAt netloc req

/-- Every submitted request is counted once at its own location, in the notifications or in the
program's hands, and nothing is counted anywhere else. -/
structure Accounted (s : ConnectionManager) (hand : List ReqId) : Prop where
  /-- Once in its own places if it was submitted, and not at all otherwise. -/
  own : ∀ req, s.heldAt (s.request req).netloc req + s.done.count req + s.failed.count req +
    hand.count req = if req < s.nextReq then 1 else 0
  /-- Nowhere at another location. -/
  others : ∀ req, ∀ netloc ≠ (s.request req).netloc, s.heldAt netloc req = 0

end ConnectionManager

/-! ## Connections -/

namespace Cnx

variable {req q : ReqId} {c : Cnx} {cs cs' : List Cnx} {instNum : Nat}

@[simp] theorem countAll_nil : countAll req [] = 0 := rfl

@[simp] theorem countAll_cons : countAll req (c :: cs) = c.count req + countAll req cs := rfl

@[simp] theorem countAll_append :
    countAll req (cs ++ cs') = countAll req cs + countAll req cs' := by
  simp [countAll]

@[simp] theorem count_new : (new instNum).count req = 0 := rfl

/-- Making a submitted request active keeps it in the queues. -/
@[simp] theorem count_httpWriteToOutbuf : c.httpWriteToOutbuf.count req = c.count req := by
  unfold httpWriteToOutbuf
  split
  · rfl
  · rename_i q rest hsubmitted
    split
    · rfl
    · simp only [count, hsubmitted, List.count_append, List.count_cons, List.count_nil]
      omega

/-- A submitted request is in the queues once more. -/
@[simp] theorem count_submitRequest :
    (c.submitRequest q).count req = c.count req + [q].count req := by
  rw [submitRequest, count_httpWriteToOutbuf]
  simp only [count, List.count_append]
  omega

/-- Submitting on an idle connection. -/
theorem countAll_submitIdle (req : ReqId) (h : submitIdle q cs = some cs') :
    countAll req cs' = countAll req cs + [q].count req := by
  induction cs generalizing cs' with
  | nil => simp [submitIdle] at h
  | cons c cs ih =>
    simp only [submitIdle] at h
    split at h
    · obtain rfl := Option.some.inj h
      simp only [countAll_cons, count_submitRequest]
      omega
    · obtain ⟨cs'', hcs'', rfl⟩ := Option.map_eq_some_iff.mp h
      simp only [countAll_cons, ih hcs'']
      omega

/-- Changing one connection changes the count by what changes there. -/
theorem countAll_update (req : ReqId) (f : Cnx → Cnx) (h : find instNum cs = some c) :
    countAll req (update instNum f cs) + c.count req = countAll req cs + (f c).count req := by
  induction cs with
  | nil => simp [find] at h
  | cons d cs ih =>
    simp only [find] at h
    simp only [update]
    split at h
    · rename_i hd
      obtain rfl := Option.some.inj h
      simp only [hd, if_true, countAll_cons]
      omega
    · rename_i hd
      have := ih h
      simp only [hd, if_false, countAll_cons]
      omega

/-- Erasing a connection takes its requests away. -/
theorem countAll_erase (req : ReqId) (h : find instNum cs = some c) :
    countAll req (erase instNum cs) + c.count req = countAll req cs := by
  induction cs with
  | nil => simp [find] at h
  | cons d cs ih =>
    simp only [find] at h
    simp only [erase]
    split at h
    · rename_i hd
      obtain rfl := Option.some.inj h
      simp only [hd, if_true, countAll_cons]
      omega
    · rename_i hd
      have := ih h
      simp only [hd, if_false, countAll_cons]
      omega

/-- Erasing a connection shortens the list by one. -/
theorem length_erase (h : find instNum cs = some c) :
    (erase instNum cs).length + 1 = cs.length := by
  induction cs with
  | nil => simp [find] at h
  | cons d cs ih =>
    simp only [find] at h
    simp only [erase]
    split at h
    · rename_i hd
      simp [hd]
    · rename_i hd
      simp [hd, ih h]

/-- A changed connection is found where it was. -/
theorem find_update {f : Cnx → Cnx} (hf : ∀ c, (f c).instNum = c.instNum)
    (h : find instNum cs = some c) : find instNum (update instNum f cs) = some (f c) := by
  induction cs with
  | nil => simp [find] at h
  | cons d cs ih =>
    simp only [find] at h
    simp only [update]
    split at h
    · rename_i hd
      obtain rfl := Option.some.inj h
      simp [hd, find, hf]
    · rename_i hd
      simp [hd, find, ih h]

/-- Writing a request keeps the number. -/
@[simp] theorem instNum_httpWriteToOutbuf : c.httpWriteToOutbuf.instNum = c.instNum := by
  unfold httpWriteToOutbuf
  split
  · rfl
  · split <;> rfl

@[simp] theorem instNum_submitRequest : (c.submitRequest q).instNum = c.instNum := by
  simp [submitRequest]

/-- No connection is lost when a request is submitted on an idle one. -/
theorem isSome_find_submitIdle (h : submitIdle q cs = some cs') :
    (find instNum cs').isSome = (find instNum cs).isSome := by
  induction cs generalizing cs' with
  | nil => simp [submitIdle] at h
  | cons c cs ih =>
    simp only [submitIdle] at h
    split at h
    · obtain rfl := Option.some.inj h
      by_cases hc : c.instNum = instNum
      · simp [find, hc]
      · simp [find, hc]
    · obtain ⟨cs'', hcs'', rfl⟩ := Option.map_eq_some_iff.mp h
      by_cases hc : c.instNum = instNum
      · simp [find, hc]
      · simp [find, hc, ih hcs'']

/-- No connection is lost when another one is opened. -/
theorem isSome_find_append (h : (find instNum cs).isSome = true) :
    (find instNum (cs ++ cs')).isSome = true := by
  induction cs with
  | nil => simp [find] at h
  | cons d cs ih =>
    by_cases hd : d.instNum = instNum
    · simp [find, hd]
    · simp only [find, hd, if_false, List.cons_append] at h ⊢
      exact ih h

end Cnx

/-! ## The operations of the manager -/

/-- How often a request is in a server. -/
def Server.held (req : ReqId) (server : Server) : Nat :=
  server.requests.count req + Cnx.countAll req server.connections

namespace ConnectionManager

variable {s : ConnectionManager} {netloc : NetLoc} {req q : ReqId} {hand : List ReqId}
  {instNum : Nat}

/-- How often a request is held at a location. -/
theorem heldAt_eq (s : ConnectionManager) (netloc : NetLoc) (req : ReqId) :
    s.heldAt netloc req = (s.servers netloc).elim 0 (Server.held req) := by
  unfold heldAt waitingAt carriedAt
  cases s.servers netloc <;> rfl

/-- Replacing the server of a location. -/
theorem heldAt_setServer (s : ConnectionManager) (netloc : NetLoc) (req : ReqId) (n : NetLoc)
    (server : Option Server) :
    (s.setServer netloc server).heldAt n req =
      if n = netloc then server.elim 0 (Server.held req) else s.heldAt n req := by
  rw [heldAt_eq, heldAt_eq, setServer]
  by_cases hn : n = netloc
  · subst hn
    simp
  · simp [hn]

/-- The request at the front of a waiting list and those behind it. -/
theorem count_tail_add_headD (reqs : List ReqId) (q req : ReqId) :
    ((reqs ++ [q]).tail).count req + [(reqs ++ [q]).headD q].count req =
      reqs.count req + [q].count req := by
  cases reqs with
  | nil => simp
  | cons x xs =>
    simp only [List.cons_append, List.tail_cons, List.headD_cons, List.count_append,
      List.count_cons, List.count_nil]
    omega

/-- What `submit_request` does: the server of the request's location has the request once more, and
keeps its connections. -/
theorem submitRequest_spec (s : ConnectionManager) (q : ReqId) :
    ∃ server nextInstNum,
      s.submitRequest q =
        { s.setServer (s.request q).netloc (some server) with nextInstNum := nextInstNum } ∧
      (∀ req, server.held req = s.heldAt (s.request q).netloc req + [q].count req) ∧
      ∀ old ∈ s.servers (s.request q).netloc, ∀ instNum,
        (Cnx.find instNum old.connections).isSome = true →
          (Cnx.find instNum server.connections).isSome = true := by
  obtain ⟨server, hserver⟩ : ∃ server, (s.servers (s.request q).netloc).getD
      { requests := [], connections := [] } = server := ⟨_, rfl⟩
  have hold : ∀ req, s.heldAt (s.request q).netloc req = server.held req := by
    intro req
    rw [heldAt_eq, ← hserver]
    cases s.servers (s.request q).netloc <;> rfl
  have hconns : ∀ old ∈ s.servers (s.request q).netloc, old = server := by
    intro old hmem
    rw [← hserver, Option.mem_def.mp hmem, Option.getD_some]
  unfold submitRequest
  simp only [hserver]
  cases hidle : Cnx.submitIdle ((server.requests ++ [q]).headD q) server.connections with
  | some connections =>
    refine ⟨_, s.nextInstNum, rfl, ?_, ?_⟩
    · intro req
      have hcount := Cnx.countAll_submitIdle req hidle
      have hfront := count_tail_add_headD server.requests q req
      simp only [hold, Server.held]
      omega
    · intro old hmem instNum hfind
      rw [hconns old hmem] at hfind
      rwa [Cnx.isSome_find_submitIdle hidle]
  | none =>
    by_cases hmax : server.connections.length < s.maxPersist
    · simp only [hmax, if_true]
      refine ⟨_, _, rfl, ?_, ?_⟩
      · intro req
        have hfront := count_tail_add_headD server.requests q req
        simp only [hold, Server.held, Cnx.countAll_append, Cnx.countAll_cons, Cnx.countAll_nil,
          Cnx.count_submitRequest, Cnx.count_new]
        omega
      · intro old hmem instNum hfind
        rw [hconns old hmem] at hfind
        exact Cnx.isSome_find_append hfind
    · simp only [hmax, if_false]
      refine ⟨_, s.nextInstNum, rfl, ?_, ?_⟩
      · intro req
        simp only [hold, Server.held, List.count_append]
        omega
      · intro old hmem instNum hfind
        rw [hconns old hmem] at hfind
        exact hfind

/-- A submitted request stays as it was. -/
@[simp] theorem request_submitRequest : (s.submitRequest q).request = s.request := by
  obtain ⟨server, n, h, -⟩ := submitRequest_spec s q
  rw [h]
  rfl

/-- A submitted request uses no number. -/
@[simp] theorem nextReq_submitRequest : (s.submitRequest q).nextReq = s.nextReq := by
  obtain ⟨server, n, h, -⟩ := submitRequest_spec s q
  rw [h]
  rfl

/-- A submitted request is not done by that. -/
@[simp] theorem done_submitRequest : (s.submitRequest q).done = s.done := by
  obtain ⟨server, n, h, -⟩ := submitRequest_spec s q
  rw [h]
  rfl

/-- A submitted request does not fail by that. -/
@[simp] theorem failed_submitRequest : (s.submitRequest q).failed = s.failed := by
  obtain ⟨server, n, h, -⟩ := submitRequest_spec s q
  rw [h]
  rfl

/-- A submitted request is once more at its location, and nothing else changes. -/
theorem heldAt_submitRequest (n : NetLoc) :
    (s.submitRequest q).heldAt n req =
      s.heldAt n req + if n = (s.request q).netloc then [q].count req else 0 := by
  obtain ⟨server, nextInstNum, h, hheld, -⟩ := submitRequest_spec s q
  have hset : (s.submitRequest q).heldAt n req =
      (s.setServer (s.request q).netloc (some server)).heldAt n req := by
    rw [h, heldAt_eq, heldAt_eq]
  rw [hset, heldAt_setServer]
  by_cases hn : n = (s.request q).netloc
  · simp [hn, hheld]
  · simp [hn]

/-- Submitting keeps the connections. -/
theorem isLive_submitRequest (h : s.isLive netloc instNum = true) :
    (s.submitRequest q).isLive netloc instNum = true := by
  obtain ⟨server, nextInstNum, hspec, -, hconns⟩ := submitRequest_spec s q
  simp only [isLive, hspec, setServer] at h ⊢
  by_cases hn : netloc = (s.request q).netloc
  · subst hn
    rw [Function.update_self]
    cases hserver : s.servers (s.request q).netloc with
    | none => simp [hserver] at h
    | some old =>
      rw [hserver] at h
      exact hconns old hserver instNum h
  · rw [Function.update_of_ne hn]
    exact h

/-! ## Accounting -/

/-- A request that is found at a location belongs there. -/
theorem Accounted.netloc_eq (h : s.Accounted hand) (hheld : 0 < s.heldAt netloc req) :
    (s.request req).netloc = netloc := by
  by_contra hne
  have := h.others req netloc (Ne.symm hne)
  omega

/-- A request that was not submitted yet is nowhere. -/
theorem Accounted.notYet (h : s.Accounted hand) (hreq : s.nextReq ≤ req) (n : NetLoc) :
    s.heldAt n req = 0 ∧ s.done.count req = 0 ∧ s.failed.count req = 0 ∧ hand.count req = 0 := by
  have hown := h.own req
  rw [if_neg (Nat.not_lt.mpr hreq)] at hown
  have hheld : s.heldAt n req = 0 := by
    by_cases hn : n = (s.request req).netloc
    · subst hn
      omega
    · exact h.others req n hn
  omega

/-- A request in the program's hands is submitted. -/
theorem Accounted.submitRequest (h : s.Accounted (q :: hand)) :
    (s.submitRequest q).Accounted hand where
  own := by
    intro req
    have hown := h.own req
    rw [heldAt_submitRequest, request_submitRequest, nextReq_submitRequest, done_submitRequest,
      failed_submitRequest]
    by_cases hq : q = req
    · subst hq
      simp only [List.count_cons_self, List.count_nil, if_true] at hown ⊢
      omega
    · simp only [List.count_cons_of_ne hq, List.count_nil, ite_self] at hown ⊢
      omega
  others := by
    intro req n hn
    rw [request_submitRequest] at hn
    rw [heldAt_submitRequest, h.others req n hn]
    by_cases hq : q = req
    · subst hq
      simp [hn]
    · simp [List.count_cons_of_ne hq]

/-- A new request is accounted for. -/
theorem Accounted.newRequest (h : s.Accounted hand) (netloc : NetLoc) :
    (s.newRequest netloc).Accounted hand := by
  refine Accounted.submitRequest ⟨?_, ?_⟩
  · intro req
    by_cases hreq : req = s.nextReq
    · subst hreq
      obtain ⟨hheld, hdone, hfailed, hhand⟩ := h.notYet le_rfl netloc
      simp only [Function.update_self, List.count_cons_self, hdone, hfailed, hhand]
      rw [if_pos (Nat.lt_succ_self _)]
      simpa [heldAt_eq] using hheld
    · have hown := h.own req
      simp only [Function.update_of_ne hreq, List.count_cons_of_ne (Ne.symm hreq)]
      by_cases hlt : req < s.nextReq
      · rw [if_pos (Nat.lt_succ_of_lt hlt)]
        rwa [if_pos hlt] at hown
      · have hnot : ¬req < s.nextReq + 1 := fun hle =>
          hlt (lt_of_le_of_ne (Nat.le_of_lt_succ hle) hreq)
        rw [if_neg hnot]
        rwa [if_neg hlt] at hown
  · intro req n hn
    by_cases hreq : req = s.nextReq
    · subst hreq
      exact (h.notYet le_rfl n).1
    · simp only [Function.update_of_ne hreq] at hn
      exact h.others req n hn

/-- New requests of a callback are accounted for. -/
theorem Accounted.submitAll (h : s.Accounted hand) (netlocs : List NetLoc) :
    (s.submitAll netlocs).Accounted hand := by
  induction netlocs generalizing s with
  | nil => exact h
  | cons netloc netlocs ih => exact ih (h.newRequest netloc)

/-- Callbacks keep the connections. -/
theorem isLive_submitAll (h : s.isLive netloc instNum = true) (netlocs : List NetLoc) :
    (s.submitAll netlocs).isLive netloc instNum = true := by
  induction netlocs generalizing s with
  | nil => exact h
  | cons n netlocs ih => exact ih (isLive_submitRequest h)

/-- Changing a live connection changes the count at its location by what changes there. -/
theorem heldAt_updateCnx (req : ReqId) (f : Cnx → Cnx) {server : Server} {c : Cnx}
    (hserver : s.servers netloc = some server) (hc : Cnx.find instNum server.connections = some c)
    (n : NetLoc) :
    (s.updateCnx netloc instNum f).heldAt n req + (if n = netloc then c.count req else 0) =
      s.heldAt n req + (if n = netloc then (f c).count req else 0) := by
  have hlive : s.isLive netloc instNum = true := by simp [isLive, hserver, hc]
  rw [updateCnx, if_pos hlive, heldAt_setServer]
  by_cases hn : n = netloc
  · subst hn
    have hcount := Cnx.countAll_update req f hc
    simp only [if_true, hserver, Option.map_some, Option.elim_some, heldAt_eq, Server.held]
    omega
  · simp [hn]

/-- A live connection and its server. -/
theorem exists_of_isLive (h : s.isLive netloc instNum = true) :
    ∃ server c, s.servers netloc = some server ∧
      Cnx.find instNum server.connections = some c := by
  unfold isLive at h
  split at h
  · simp at h
  · rename_i server hserver
    obtain ⟨c, hc⟩ := Option.isSome_iff_exists.mp h
    exact ⟨server, c, hserver, hc⟩

/-- Changing a connection leaves the request objects and the notifications alone. -/
theorem updateCnx_spec (s : ConnectionManager) (netloc : NetLoc) (instNum : Nat) (f : Cnx → Cnx) :
    (s.updateCnx netloc instNum f).request = s.request ∧
      (s.updateCnx netloc instNum f).nextReq = s.nextReq ∧
      (s.updateCnx netloc instNum f).done = s.done ∧
      (s.updateCnx netloc instNum f).failed = s.failed := by
  unfold updateCnx
  split
  · exact ⟨rfl, rfl, rfl, rfl⟩
  · exact ⟨rfl, rfl, rfl, rfl⟩

/-- A changed connection stays live. -/
theorem isLive_updateCnx {f : Cnx → Cnx} (hf : ∀ c, (f c).instNum = c.instNum)
    (h : s.isLive netloc instNum = true) :
    (s.updateCnx netloc instNum f).isLive netloc instNum = true := by
  obtain ⟨server, c, hserver, hc⟩ := exists_of_isLive h
  rw [updateCnx, if_pos h]
  simp [isLive, setServer, hserver, Cnx.find_update hf hc]

/-- A change of a live connection that keeps its requests keeps the account. -/
theorem Accounted.updateCnx {f : Cnx → Cnx} (h : s.Accounted hand)
    (hlive : s.isLive netloc instNum = true) (hf : ∀ c req, (f c).count req = c.count req) :
    (s.updateCnx netloc instNum f).Accounted hand := by
  obtain ⟨server, c, hserver, hc⟩ := exists_of_isLive hlive
  obtain ⟨hrequest, hnext, hdone, hfailed⟩ := updateCnx_spec s netloc instNum f
  have hheld : ∀ n req, (s.updateCnx netloc instNum f).heldAt n req = s.heldAt n req := by
    intro n req
    have := heldAt_updateCnx req f hserver hc n
    rw [hf] at this
    omega
  refine ⟨fun req => ?_, fun req n hn => ?_⟩
  · rw [hheld, hrequest, hnext, hdone, hfailed]
    exact h.own req
  · rw [hrequest] at hn
    rw [hheld]
    exact h.others req n hn

/-- A live connection that gets the next waiting request changes nothing in how often requests are
held. -/
theorem heldAt_cnxRequestDoneCb {s' : ConnectionManager}
    (hlive : s.isLive netloc instNum = true) (hstep : s.cnxRequestDoneCb netloc instNum = .ok s')
    (n : NetLoc) (req : ReqId) : s'.heldAt n req = s.heldAt n req := by
  obtain ⟨server, c, hserver, hc⟩ := exists_of_isLive hlive
  unfold ConnectionManager.cnxRequestDoneCb at hstep
  simp only [hserver] at hstep
  split at hstep
  · obtain rfl := Except.ok.inj hstep
    rfl
  · rename_i reqtosubmit rest hrequests
    -- the request leaves the waiting list and joins the connection
    obtain rfl := Except.ok.inj hstep
    have hserver' : (s.setServer netloc (some { server with requests := rest })).servers netloc =
        some { server with requests := rest } := by simp [setServer]
    have hupdate := heldAt_updateCnx req (Cnx.submitRequest reqtosubmit) hserver' hc n
    have hset := heldAt_setServer s netloc req n (some { server with requests := rest })
    rw [Cnx.count_submitRequest] at hupdate
    by_cases hn : n = netloc
    · subst hn
      have hold : s.heldAt n req = server.held req := by rw [heldAt_eq, hserver, Option.elim_some]
      simp only [if_true, Option.elim_some, Server.held, hrequests, List.count_cons,
        List.count_nil] at hset hupdate hold
      omega
    · simp only [hn, if_false] at hset hupdate
      omega

/-- Handing the next waiting request to a live connection keeps the account. -/
theorem Accounted.cnxRequestDoneCb {s' : ConnectionManager} (h : s.Accounted hand)
    (hlive : s.isLive netloc instNum = true) (hstep : s.cnxRequestDoneCb netloc instNum = .ok s') :
    s'.Accounted hand ∧ s'.isLive netloc instNum = true := by
  obtain ⟨server, c, hserver, hc⟩ := exists_of_isLive hlive
  have hheld := heldAt_cnxRequestDoneCb hlive hstep
  unfold ConnectionManager.cnxRequestDoneCb at hstep
  simp only [hserver] at hstep
  split at hstep
  · obtain rfl := Except.ok.inj hstep
    exact ⟨h, hlive⟩
  · rename_i reqtosubmit rest hrequests
    obtain ⟨shorter, hshorter⟩ : ∃ shorter,
      s.setServer netloc (some { server with requests := rest }) = shorter := ⟨_, rfl⟩
    rw [hshorter] at hstep
    obtain rfl := Except.ok.inj hstep
    have hserver' : shorter.servers netloc = some { server with requests := rest } := by
      simp [← hshorter, setServer]
    have hlive' : shorter.isLive netloc instNum = true := by simp [isLive, hserver', hc]
    obtain ⟨hrequest, hnext, hdone, hfailed⟩ := updateCnx_spec shorter netloc instNum
      (Cnx.submitRequest reqtosubmit)
    refine ⟨⟨fun req => ?_, fun req n hn => ?_⟩, ?_⟩
    · rw [hheld, hrequest, hnext, hdone, hfailed, ← hshorter]
      exact h.own req
    · rw [hrequest, ← hshorter] at hn
      rw [hheld]
      exact h.others req n hn
    · exact isLive_updateCnx (fun c => Cnx.instNum_submitRequest) hlive'

/-- The completion of a response on a live connection keeps the account. -/
theorem Accounted.responseDone {s' : ConnectionManager} {netlocs : List NetLoc}
    (h : s.Accounted [])
    (hkeep : s.isLive netloc instNum = true ∨ s.cnx netloc instNum = none)
    (hstep : s.responseDone netloc instNum netlocs = .ok s') : s'.Accounted [] := by
  unfold ConnectionManager.responseDone at hstep
  cases hreq : (s.cnx netloc instNum).bind fun c => c.active.head? with
  | none =>
    simp only [hreq] at hstep
    obtain rfl := Except.ok.inj hstep
    exact h
  | some req =>
    simp only [hreq] at hstep
    obtain ⟨c, hcnx, hactive⟩ := Option.bind_eq_some_iff.mp hreq
    have hlive : s.isLive netloc instNum = true := by
      rcases hkeep with hlive | hnone
      · exact hlive
      · simp [hnone] at hcnx
    obtain ⟨server, c', hserver, hc'⟩ := exists_of_isLive hlive
    obtain rfl : c' = c := by simpa [cnx, hserver, hc'] using hcnx
    obtain ⟨rest, hrest⟩ := List.head?_eq_some_iff.mp hactive
    -- the request is taken from the connection and then notified
    have hcount : ∀ x, (Cnx.popActive c').count x + [req].count x = c'.count x := by
      intro x
      simp only [Cnx.popActive, Cnx.count, hrest, List.tail_cons, List.count_cons, List.count_nil]
      omega
    obtain ⟨hrequest, hnext, hdone, hfailed⟩ := updateCnx_spec s netloc instNum Cnx.popActive
    have hnetloc : (s.request req).netloc = netloc := by
      refine h.netloc_eq ?_
      have := hcount req
      rw [heldAt_eq, hserver, Option.elim_some, Server.held]
      have hin := Cnx.countAll_erase req hc'
      simp only [List.count_cons_self, List.count_nil] at this
      omega
    have hpop : ∀ n x, (s.updateCnx netloc instNum Cnx.popActive).heldAt n x +
        (if n = netloc then [req].count x else 0) = s.heldAt n x := by
      intro n x
      have hupdate := heldAt_updateCnx x Cnx.popActive hserver hc' n
      have hx := hcount x
      by_cases hn : n = netloc
      · simp only [hn, if_true] at hupdate ⊢
        omega
      · simp only [hn, if_false] at hupdate ⊢
        omega
    have hpopped : Accounted { s.updateCnx netloc instNum Cnx.popActive with
        done := (s.updateCnx netloc instNum Cnx.popActive).done ++ [req] } [] := by
      refine ⟨fun x => ?_, fun x n hn => ?_⟩
      · have hown := h.own x
        have hx := hpop (s.request x).netloc x
        simp only [hrequest, hnext, hdone, hfailed, List.count_append]
        rw [← hown]
        by_cases hreqx : req = x
        · subst hreqx
          rw [if_pos hnetloc] at hx
          simp only [heldAt_eq] at hx ⊢
          omega
        · have hzero : [req].count x = 0 := by simp [List.count_cons_of_ne hreqx]
          rw [hzero, ite_self] at hx
          simp only [heldAt_eq] at hx ⊢
          omega
      · simp only [hrequest] at hn
        have hother := h.others x n hn
        have hx := hpop n x
        simp only [heldAt_eq] at hx hother ⊢
        omega
    have hsubmitted := hpopped.submitAll netlocs
    have hliveDone : isLive { s.updateCnx netloc instNum Cnx.popActive with
        done := (s.updateCnx netloc instNum Cnx.popActive).done ++ [req] } netloc instNum = true :=
      isLive_updateCnx (fun _ => rfl) hlive
    have hliveAll := isLive_submitAll hliveDone netlocs
    split at hstep
    · simp at hstep
    · rename_i s'' hcb
      obtain rfl := Except.ok.inj hstep
      obtain ⟨haccount, hlive''⟩ := hsubmitted.cnxRequestDoneCb hliveAll hcb
      exact haccount.updateCnx hlive'' fun c x => Cnx.count_httpWriteToOutbuf

/-- Of a request that is written to, only the location matters. -/
theorem Accounted.setRequest {hand : List ReqId} (h : s.Accounted hand) (req : ReqId) {q : Request}
    (hnetloc : q.netloc = (s.request req).netloc) :
    Accounted { s with request := Function.update s.request req q } hand := by
  have hsame : ∀ x, (Function.update s.request req q x).netloc = (s.request x).netloc := by
    intro x
    by_cases hx : x = req
    · subst hx
      rw [Function.update_self, hnetloc]
    · rw [Function.update_of_ne hx]
  refine ⟨fun x => ?_, fun x n hn => ?_⟩
  · simp only [hsame]
    exact h.own x
  · simp only [hsame] at hn
    exact h.others x n hn

/-- Retrying accounts for the requests in the program's hands. -/
theorem Accounted.retryRequests {errorCb : ReqId → List NetLoc} {reqs : List ReqId}
    (h : s.Accounted reqs) : (retryRequests errorCb s reqs).Accounted [] := by
  induction reqs generalizing s with
  | nil => exact h
  | cons req rest ih =>
    simp only [ConnectionManager.retryRequests]
    split
    · -- the request is reported and the error callback runs
      have hfailed : Accounted { s with failed := s.failed ++ [req] } rest := by
        refine ⟨fun x => ?_, fun x n hn => ?_⟩
        · have hown := h.own x
          simp only [heldAt_eq, List.count_append, List.count_cons, List.count_nil] at hown ⊢
          omega
        · exact h.others x n hn
      exact ih (hfailed.submitAll (errorCb req))
    · -- the request is submitted again; its location stays the same
      exact ih (Accounted.submitRequest (h.setRequest req rfl))

/-- A release takes the requests of the connection away, and those that wait when it is the last
connection of its server. -/
theorem heldAt_releaseConn {s' : ConnectionManager} {conn : Cnx}
    (hstep : s.releaseConn netloc instNum = .ok (s', conn)) :
    s'.request = s.request ∧ s'.nextReq = s.nextReq ∧ s'.done = s.done ∧ s'.failed = s.failed ∧
      ∃ dropped, (dropped ≠ [] → ∃ server ∈ s.servers netloc,
          server.connections.length = 1 ∧ server.requests = dropped) ∧
        ∀ n x, s'.heldAt n x + (if n = netloc then conn.count x + dropped.count x else 0) =
          s.heldAt n x := by
  unfold ConnectionManager.releaseConn at hstep
  split at hstep
  · simp at hstep
  · rename_i server hserver
    split at hstep
    · simp at hstep
    · rename_i c hc
      obtain ⟨hs', rfl⟩ := Prod.mk.inj (Except.ok.inj hstep)
      have hlength := Cnx.length_erase hc
      refine ⟨by rw [← hs']; rfl, by rw [← hs']; rfl, by rw [← hs']; rfl, by rw [← hs']; rfl, ?_⟩
      have hset : ∀ n x, s'.heldAt n x = (s.setServer netloc
          (if (Cnx.erase instNum server.connections).length = 0 then none
            else some { server with
              connections := Cnx.erase instNum server.connections })).heldAt n x := by
        intro n x
        rw [← hs', heldAt_eq, heldAt_eq]
      have hold : ∀ x, s.heldAt netloc x = server.held x := by
        intro x
        rw [heldAt_eq, hserver, Option.elim_some]
      -- the server is kept or dropped
      by_cases hempty : (Cnx.erase instNum server.connections).length = 0
      · refine ⟨server.requests, fun _ => ⟨server, hserver, by omega, rfl⟩, fun n x => ?_⟩
        have herase := Cnx.countAll_erase x hc
        rw [List.length_eq_zero_iff.mp hempty, Cnx.countAll_nil] at herase
        rw [hset, heldAt_setServer]
        by_cases hn : n = netloc
        · subst hn
          simp only [hempty, if_true, Option.elim_none, hold, Server.held]
          omega
        · simp [hn]
      · refine ⟨[], fun hne => absurd rfl hne, fun n x => ?_⟩
        have herase := Cnx.countAll_erase x hc
        rw [hset, heldAt_setServer]
        by_cases hn : n = netloc
        · subst hn
          simp only [hempty, if_true, if_false, Option.elim_some, hold, Server.held,
            List.count_nil]
          omega
        · simp [hn]

/-- Releasing a connection puts its active requests into the program's hands, unless the server is
dropped with waiting requests. -/
theorem Accounted.releaseConn {s' : ConnectionManager} {conn : Cnx} (h : s.Accounted [])
    (hkeep : ∀ server ∈ s.servers netloc, server.connections.length = 1 → server.requests = [])
    (hstep : s.releaseConn netloc instNum = .ok (s', conn)) (hpending : conn.submitted = []) :
    s'.Accounted conn.active := by
  obtain ⟨hrequest, hnext, hdone, hfailed, dropped, hdropped, hheld⟩ := heldAt_releaseConn hstep
  have hnone : dropped = [] := by
    by_contra hne
    obtain ⟨server, hserver, hlength, hrequests⟩ := hdropped hne
    exact hne (hrequests.symm.trans (hkeep server hserver hlength))
  simp only [hnone, List.count_nil, Nat.add_zero] at hheld
  have hcount : ∀ x, conn.count x = conn.active.count x := by
    intro x
    simp [Cnx.count, hpending]
  have hactive : ∀ x, 0 < conn.active.count x → (s.request x).netloc = netloc := by
    intro x hx
    refine h.netloc_eq ?_
    have := hheld netloc x
    rw [if_pos rfl, hcount] at this
    omega
  refine ⟨fun x => ?_, fun x n hn => ?_⟩
  · have hown := h.own x
    have hx := hheld (s.request x).netloc x
    rw [hrequest, hnext, hdone, hfailed]
    rw [hcount] at hx
    simp only [List.count_nil] at hown
    by_cases hpos : 0 < conn.active.count x
    · rw [if_pos (hactive x hpos)] at hx
      omega
    · have hzero : conn.active.count x = 0 := by omega
      rw [hzero, ite_self] at hx
      omega
  · rw [hrequest] at hn
    have hother := h.others x n hn
    have hx := hheld n x
    omega

/-- Every event that keeps the requests keeps the account. -/
theorem Accounted.step {s' : ConnectionManager} {e : Event} (h : s.Accounted [])
    (hkeep : s.KeepsRequests e) (hstep : step s e = .ok s') : s'.Accounted [] := by
  cases e with
  | submit netloc =>
    obtain rfl := Except.ok.inj hstep
    exact h.newRequest netloc
  | bodyData netloc instNum len =>
    obtain rfl := Except.ok.inj hstep
    unfold responseBodyData
    split
    · exact h
    · rename_i req hreq
      exact h.setRequest req rfl
  | responseDone netloc instNum netlocs => exact h.responseDone hkeep hstep
  | unusable netloc instNum errorCb =>
    simp only [ConnectionManager.step, handleUnusableConn] at hstep
    split at hstep
    · simp at hstep
    · rename_i t conn hrelease
      split at hstep
      · rename_i hpending
        obtain rfl := Except.ok.inj hstep
        exact (h.releaseConn hkeep hrelease (by simpa using hpending)).retryRequests
      · simp at hstep
  | delete netloc instNum =>
    obtain rfl := Except.ok.inj hstep
    exact ⟨h.own, h.others⟩

/-- A manager without requests accounts for them. -/
theorem accounted_new (maxPersist maxRetries : Nat) (released : NetLoc → List Cnx) :
    (new maxPersist maxRetries released).Accounted [] :=
  ⟨fun _ => by simp [heldAt_eq, new], fun _ _ _ => by simp [heldAt_eq, new]⟩

/-- Between two calls of `reset()`, in every state reached without a failed assertion by events that
keep the requests, every submitted request is in exactly one place. -/
theorem exactlyOnePlace_of_keepsRequests (maxPersist maxRetries : Nat)
    (released : NetLoc → List Cnx) (es : List Event) (s : ConnectionManager)
    (hrun : runSteps step (new maxPersist maxRetries released) es = .ok s)
    (hkeep : StepsMeet step KeepsRequests (new maxPersist maxRetries released) es)
    (req : ReqId) (hreq : req < s.nextReq) : s.ExactlyOnePlace req := by
  have h : s.Accounted [] :=
    invariant_of_stepsMeet (fun s => s.Accounted [])
      (fun _ _ _ hs hkeep hstep => hs.step hkeep hstep)
      (accounted_new maxPersist maxRetries released) hkeep hrun
  refine ⟨?_, fun netloc hne => ?_⟩
  · have hown := h.own req
    rw [if_pos hreq, heldAt] at hown
    simpa using hown
  · have hother := h.others req netloc hne
    rw [heldAt] at hother
    omega

/-- One request whose connection fails once and is then answered. -/
theorem exactlyOnePlace_of_keepsRequests_retried :
    ExactlyOnePlace
      (match runSteps step (new 1 2 fun _ => [])
          [.submit ([], 80), .unusable ([], 80) 0 fun _ => [], .responseDone ([], 80) 1 []] with
        | .ok s => s
        | .error _ => new 1 2 fun _ => []) 0 :=
  exactlyOnePlace_of_keepsRequests 1 2 (fun _ => [])
    [.submit ([], 80), .unusable ([], 80) 0 fun _ => [], .responseDone ([], 80) 1 []] _ rfl
    (by decide) 0 (by decide)

/-- Two requests for one location with at most one connection: the first is active and the second
waits when the connection reports the end of the stream. The first is retried on a new connection;
the second is in no place at all. -/
theorem not_exactlyOnePlace_server_dropped :
    ∃ s, runSteps step (new 1 2 fun _ => [])
        [.submit ([], 80), .submit ([], 80), .unusable ([], 80) 0 fun _ => []] = .ok s ∧
      1 < s.nextReq ∧ ¬s.ExactlyOnePlace 1 := by
  refine ⟨_, rfl, by decide, ?_⟩
  intro h
  exact absurd h.own (by decide)

end ConnectionManager

end ShadowExtras.Web
