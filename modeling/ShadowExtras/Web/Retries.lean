import ShadowExtras.Web.ConnectionLimit

/-!
# The journal of the retries

How often a request is handed to a connection, and when it is given up. The journal of a run holds,
in the order in which the manager does them, what concerns a single request: it is handed to a
connection, it is requested again, its response is done, its error is reported. `Records` says what
the journal contains: each request is handed out at most once for its submission and once for every
retry, and its error is reported after the last retry.

The journal says what the manager does: a request that is handed out leaves the waiting ones and
joins the connections (`waitingAt_submitRequest`, `carriedAt_submitRequest`,
`waitingAt_cnxRequestDoneCb`, `carriedAt_cnxRequestDoneCb`), and from `Records` the manager has the
verdicts of the journal in its order and the retries of each request.
-/

namespace ShadowExtras.Web

open Foundation

namespace ConnectionManager

/-! ## The journal -/

/-- What the manager does with a request. -/
inductive Deed
  /-- `conn->submit_request(req)` -/
  | handed (req : ReqId)
  /-- `req->increment_num_retries()` -/
  | retried (req : ReqId)
  /-- `req->notify_rsp_body_done()` -/
  | done (req : ReqId)
  /-- `notify_req_error_(req)` -/
  | failed (req : ReqId)
  deriving DecidableEq, Repr

/-- The requests that a journal has done, in order. -/
def doneRequests (j : List Deed) : List ReqId :=
  j.filterMap fun
    | .done req => some req
    | _ => none

/-- The requests that a journal has failed, in order. -/
def failedRequests (j : List Deed) : List ReqId :=
  j.filterMap fun
    | .failed req => some req
    | _ => none

section Deeds

variable (s : ConnectionManager)

/-- The deeds of `submitRequest`. -/
def submitDeeds (req : ReqId) : List Deed :=
  let server := (s.servers (s.request req).netloc).getD { requests := [], connections := [] }
  let reqtosubmit := (server.requests ++ [req]).headD req
  if (Cnx.submitIdle reqtosubmit server.connections).isSome ∨
      server.connections.length < s.maxPersist then [.handed reqtosubmit]
  else []

/-- The deeds of `userCall`. -/
def userCallDeeds : UserCall → List Deed
  | .submit netloc => (s.created netloc).submitDeeds s.nextReq
  | .reset => []

/-- The deeds of `userCalls`. -/
def userCallsDeeds : ConnectionManager → List UserCall → List Deed
  | _, [] => []
  | s, call :: calls => s.userCallDeeds call ++ userCallsDeeds (s.userCall call) calls

/-- The deeds of `cnxRequestDoneCb`. -/
def cnxRequestDoneDeeds (netloc : NetLoc) : List Deed :=
  match s.servers netloc with
  | none => []
  | some server =>
    match server.requests with
    | [] => []
    | reqtosubmit :: _ => [.handed reqtosubmit]

/-- The deeds of `responseDoneWith`. -/
def responseDoneDeeds (netloc : NetLoc) (instNum : Nat) (calls : List UserCall) : List Deed :=
  match (s.cnx netloc instNum).bind fun c => c.active.head? with
  | none => []
  | some req =>
    let popped := s.updateCnx netloc instNum Cnx.popActive
    let notified := { popped with done := popped.done ++ [req] }
    [.done req] ++ notified.userCallsDeeds calls ++
      (notified.userCalls calls).cnxRequestDoneDeeds netloc

/-- The deeds of `retryRequestsWith`. -/
def retryDeeds (errorCb : ReqId → List UserCall) : ConnectionManager → List ReqId → List Deed
  | _, [] => []
  | s, req :: rest =>
    let q := s.request req
    if q.numRetries = s.maxRetries then
      let reported := { s with failed := s.failed ++ [req] }
      [.failed req] ++ reported.userCallsDeeds (errorCb req) ++
        retryDeeds errorCb (reported.userCalls (errorCb req)) rest
    else
      let q' := { q with
        numRetries := q.numRetries + 1
        firstBytePos := if q.bodySize > 0 then q.bodySize else q.firstBytePos }
      let counted := { s with request := Function.update s.request req q' }
      [.retried req] ++ counted.submitDeeds req ++
        retryDeeds errorCb (counted.submitRequest req) rest

/-- The deeds of `occur`. -/
def deeds : Occasion → List Deed
  | .call c => s.userCallDeeds c
  | .bodyData _ _ _ => []
  | .responseDone netloc instNum calls => s.responseDoneDeeds netloc instNum calls
  | .unusable netloc instNum errorCb =>
    match s.releaseConn netloc instNum with
    | .error _ => []
    | .ok (s', conn) => retryDeeds errorCb s' conn.active
  | .delete _ _ => []

end Deeds

/-- A run of a manager with its journal. -/
structure Journal where
  manager : ConnectionManager
  deeds : List Deed
  /-- The connections that reported an error or the end of the stream. -/
  broken : List (NetLoc × Nat)

namespace Journal

def new (maxPersist maxRetries : Nat) : Journal where
  manager := ConnectionManager.new maxPersist maxRetries fun _ => []
  deeds := []
  broken := []

/-- The connection that an event finds to be broken. -/
def breaks : Occasion → List (NetLoc × Nat)
  | .unusable netloc instNum _ => [(netloc, instNum)]
  | _ => []

def step (w : Journal) (e : Occasion) : Except AssertFailed Journal :=
  match w.manager.occur e with
  | .error fault => .error fault
  | .ok m => .ok
      { manager := m
        deeds := w.deeds ++ w.manager.deeds e
        broken := w.broken ++ breaks e }

end Journal

variable {m m' : ConnectionManager} {netloc : NetLoc} {n : Nat} {q r : ReqId} {j : List Deed}

/-! ## Handing out -/

/-- A request that is handed out is counted once. -/
theorem count_handed (q r : ReqId) :
    [Deed.handed q].count (.handed r) = [q].count r := by
  by_cases h : q = r
  · simp [h]
  · rw [List.count_cons_of_ne h, List.count_cons_of_ne fun heq => h (Deed.handed.inj heq)]
    simp

theorem count_append_singleton_of_ne {d e : Deed} (h : e ≠ d) : (j ++ [e]).count d = j.count d := by
  rw [List.count_append, List.count_cons_of_ne h, List.count_nil, Nat.add_zero]

/-- A submitted request joins those that wait, and the first of them may be handed out. -/
theorem waitingAt_submitRequest (m : ConnectionManager) (q r : ReqId) :
    (m.submitRequest q).waitingAt (m.request q).netloc r + (m.submitDeeds q).count (.handed r) =
        m.waitingAt (m.request q).netloc r + [q].count r ∧
      ∀ k, k ≠ (m.request q).netloc → (m.submitRequest q).waitingAt k r = m.waitingAt k r := by
  obtain ⟨server, hservers, -, -, hcases⟩ := submitRequest_cases m q
  obtain ⟨old, hold⟩ : ∃ old, (m.servers (m.request q).netloc).getD
      { requests := [], connections := [] } = old := ⟨_, rfl⟩
  have hwaits : m.waitingAt (m.request q).netloc r = old.requests.count r := by
    unfold waitingAt
    rw [← hold]
    cases m.servers (m.request q).netloc <;> rfl
  have hwaits' : (m.submitRequest q).waitingAt (m.request q).netloc r =
      server.requests.count r := by
    simp [waitingAt, hservers]
  refine ⟨?_, fun k hk => by simp [waitingAt, hservers, hk]⟩
  have hfront := count_tail_add_headD old.requests q r
  simp only [hold] at hcases
  rw [hwaits, hwaits']
  unfold submitDeeds
  simp only [hold]
  rcases hcases with ⟨hidle, hrequests, -⟩ | ⟨hidle, hroom, -, hrequests, -⟩ |
    ⟨hidle, hfull, -, hrequests, -⟩
  · rw [if_pos (.inl (by rw [hidle, Option.isSome_some])), count_handed, hrequests]
    exact hfront
  · rw [if_pos (.inr hroom), count_handed, hrequests]
    exact hfront
  · rw [if_neg (by rw [hidle]; simp [hfull]), hrequests, List.count_append]
    simp

/-- A submitted request only makes the manager hand one out. -/
theorem eq_handed_of_mem_submitDeeds {d : Deed} (h : d ∈ m.submitDeeds q) :
    ∃ x, d = .handed x := by
  unfold submitDeeds at h
  dsimp only at h
  split at h
  · exact ⟨_, List.mem_singleton.mp h⟩
  · simp at h

/-- A request that is handed out by a submission is on one more connection of its location. -/
theorem carriedAt_submitRequest (m : ConnectionManager) (q r : ReqId) :
    (m.submitRequest q).carriedAt (m.request q).netloc r =
      m.carriedAt (m.request q).netloc r + (m.submitDeeds q).count (.handed r) := by
  have hheld : (m.submitRequest q).heldAt (m.request q).netloc r =
      m.heldAt (m.request q).netloc r + [q].count r :=
    (heldAt_submitRequest (m.request q).netloc).trans (by rw [if_pos rfl])
  have hwaiting := (waitingAt_submitRequest m q r).1
  unfold heldAt at hheld
  omega

/-- A change of a connection leaves those that wait alone. -/
theorem waitingAt_updateCnx (m : ConnectionManager) (f : Cnx → Cnx) (k : NetLoc) (r : ReqId) :
    (m.updateCnx netloc n f).waitingAt k r = m.waitingAt k r := by
  unfold updateCnx
  split
  · by_cases hk : k = netloc
    · subst hk
      unfold waitingAt setServer
      cases hserver : m.servers k <;> simp
    · simp [waitingAt, setServer, hk]
  · rfl

/-- A request that is handed to the connection whose response is done has waited for it. -/
theorem waitingAt_cnxRequestDoneCb (h : m.cnxRequestDoneCb netloc n = .ok m') (r : ReqId) :
    m'.waitingAt netloc r + (m.cnxRequestDoneDeeds netloc).count (.handed r) =
      m.waitingAt netloc r := by
  unfold ConnectionManager.cnxRequestDoneCb at h
  unfold cnxRequestDoneDeeds
  cases hserver : m.servers netloc with
  | none => simp [hserver] at h
  | some server =>
    simp only [hserver] at h ⊢
    cases hrequests : server.requests with
    | nil =>
      simp only [hrequests] at h ⊢
      obtain rfl := Except.ok.inj h
      rfl
    | cons q rest =>
      simp only [hrequests] at h ⊢
      obtain rfl := Except.ok.inj h
      rw [waitingAt_updateCnx, count_handed]
      simp [waitingAt, setServer, hserver, hrequests, List.count_cons]

/-- It is then on one more connection, if that one is live. -/
theorem carriedAt_cnxRequestDoneCb (hlive : m.isLive netloc n = true)
    (h : m.cnxRequestDoneCb netloc n = .ok m') (r : ReqId) :
    m'.carriedAt netloc r =
      m.carriedAt netloc r + (m.cnxRequestDoneDeeds netloc).count (.handed r) := by
  have hheld := heldAt_cnxRequestDoneCb hlive h netloc r
  have hwaiting := waitingAt_cnxRequestDoneCb h r
  unfold heldAt at hheld
  omega

/-! ## The verdicts -/

@[simp] theorem doneRequests_append (j l : List Deed) :
    doneRequests (j ++ l) = doneRequests j ++ doneRequests l := List.filterMap_append

@[simp] theorem failedRequests_append (j l : List Deed) :
    failedRequests (j ++ l) = failedRequests j ++ failedRequests l := List.filterMap_append

/-- How often a request is done. -/
theorem count_doneRequests (j : List Deed) (r : ReqId) :
    (doneRequests j).count r = j.count (.done r) := by
  rw [doneRequests, List.count_filterMap, List.count]
  refine List.countP_congr fun d _ => ?_
  cases d <;> simp

/-- How often a request fails. -/
theorem count_failedRequests (j : List Deed) (r : ReqId) :
    (failedRequests j).count r = j.count (.failed r) := by
  rw [failedRequests, List.count_filterMap, List.count]
  refine List.countP_congr fun d _ => ?_
  cases d <;> simp

/-- A submission gives no verdict. -/
theorem verdicts_submitDeeds (m : ConnectionManager) (q : ReqId) :
    doneRequests (m.submitDeeds q) = [] ∧ failedRequests (m.submitDeeds q) = [] := by
  unfold submitDeeds
  dsimp only
  split_ifs <;> exact ⟨rfl, rfl⟩

/-! ## The record of the retries -/

/-- Before an error is reported, the request was requested again `maxRetries` times. -/
def Exhausted (maxRetries : Nat) (j : List Deed) : Prop :=
  ∀ i r, j[i]? = some (.failed r) → (j.take i).count (.retried r) = maxRetries

/-- What reports no error keeps the retries exhausted. -/
theorem Exhausted.append {maxRetries : Nat} {l : List Deed} (h : Exhausted maxRetries j)
    (hl : ∀ d ∈ l, ∀ r, d ≠ .failed r) : Exhausted maxRetries (j ++ l) := by
  intro i r hi
  by_cases hlt : i < j.length
  · rw [List.getElem?_append_left hlt] at hi
    rw [List.take_append_of_le_length hlt.le]
    exact h i r hi
  · rw [List.getElem?_append_right (Nat.le_of_not_lt hlt)] at hi
    exact absurd rfl (hl _ (List.mem_of_getElem? hi) r)

/-- An error that is reported after the last retry. -/
theorem Exhausted.append_failed {maxRetries : Nat} (h : Exhausted maxRetries j)
    (hr : j.count (.retried r) = maxRetries) : Exhausted maxRetries (j ++ [.failed r]) := by
  intro i x hi
  by_cases hlt : i < j.length
  · rw [List.getElem?_append_left hlt] at hi
    rw [List.take_append_of_le_length hlt.le]
    exact h i x hi
  · have hle := Nat.le_of_not_lt hlt
    rw [List.getElem?_append_right hle, List.getElem?_singleton] at hi
    split at hi
    · rename_i heq
      obtain rfl := Deed.failed.inj (Option.some.inj hi)
      obtain rfl : i = j.length := by omega
      rw [List.take_left]
      exact hr
    · simp at hi

/-- What the journal says about the retries of a manager that has the requests `hand` in its
hands. -/
structure Records (m : ConnectionManager) (j : List Deed) (hand : List ReqId) : Prop where
  /-- Every time that a request was handed out or may be is for its submission or a retry. -/
  handed : ∀ r, j.count (.handed r) + m.waitingAt (m.request r).netloc r + hand.count r ≤
    (m.request r).numRetries + if r < m.nextReq then 1 else 0
  elsewhere : ∀ r, ∀ k ≠ (m.request r).netloc, m.waitingAt k r = 0
  retried : ∀ r, j.count (.retried r) = (m.request r).numRetries
  bound : ∀ r, (m.request r).numRetries ≤ m.maxRetries
  fresh : ∀ r, m.nextReq ≤ r → (m.request r).numRetries = 0
  /-- The manager has the verdicts of the journal, in its order. -/
  done : doneRequests j = m.done
  failed : failedRequests j = m.failed
  exhausted : Exhausted m.maxRetries j

variable {hand : List ReqId}

/-- Requests may stop waiting. -/
theorem Records.congr (h : m.Records j hand) (hwait : ∀ k r, m'.waitingAt k r ≤ m.waitingAt k r)
    (hrequest : ∀ r, (m'.request r).netloc = (m.request r).netloc ∧
      (m'.request r).numRetries = (m.request r).numRetries)
    (hnext : m'.nextReq = m.nextReq) (hmax : m'.maxRetries = m.maxRetries)
    (hdone : m'.done = m.done) (hfailed : m'.failed = m.failed) : m'.Records j hand := by
  constructor
  · intro r
    have hhanded := h.handed r
    have hle := hwait (m.request r).netloc r
    rw [(hrequest r).1, (hrequest r).2, hnext]
    omega
  · intro r k hk
    rw [(hrequest r).1] at hk
    have hle := hwait k r
    have hzero := h.elsewhere r k hk
    omega
  · intro r
    rw [(hrequest r).2]
    exact h.retried r
  · intro r
    rw [(hrequest r).2, hmax]
    exact h.bound r
  · intro r hr
    rw [hnext] at hr
    rw [(hrequest r).2]
    exact h.fresh r hr
  · rw [hdone]
    exact h.done
  · rw [hfailed]
    exact h.failed
  · rw [hmax]
    exact h.exhausted

/-- A submitted request keeps the bound. -/
theorem maxRetries_submitRequest (m : ConnectionManager) (q : ReqId) :
    (m.submitRequest q).maxRetries = m.maxRetries := by
  obtain ⟨server, nextInstNum, hspec, -⟩ := submitRequest_spec m q
  rw [hspec]
  rfl

/-- A request in the hands of the manager is submitted. -/
theorem Records.submitRequest (h : m.Records j (q :: hand)) :
    (m.submitRequest q).Records (j ++ m.submitDeeds q) hand := by
  have hnone : ∀ d : Deed, (∀ x, d ≠ .handed x) → (m.submitDeeds q).count d = 0 := by
    intro d hd
    rw [List.count_eq_zero]
    intro hmem
    obtain ⟨x, hx⟩ := eq_handed_of_mem_submitDeeds hmem
    exact hd x hx
  have hmax := maxRetries_submitRequest m q
  constructor
  · intro r
    obtain ⟨hown, hother⟩ := waitingAt_submitRequest m q r
    have hhanded := h.handed r
    rw [request_submitRequest, nextReq_submitRequest, List.count_append]
    rw [List.count_cons] at hhanded
    simp only [List.count_cons, List.count_nil, Nat.zero_add, beq_iff_eq] at hown hhanded
    by_cases hr : (m.request r).netloc = (m.request q).netloc
    · rw [hr] at hhanded ⊢
      omega
    · -- requests for another location are not handed out
      rw [hother _ hr]
      have hqr : q ≠ r := fun heq => hr (by rw [heq])
      rw [if_neg hqr] at hown hhanded
      have hzero := h.elsewhere r _ (Ne.symm hr)
      omega
  · intro r k hk
    obtain ⟨hown, hother⟩ := waitingAt_submitRequest m q r
    rw [request_submitRequest] at hk
    have hzero := h.elsewhere r k hk
    by_cases hkq : k = (m.request q).netloc
    · subst hkq
      have hqr : q ≠ r := fun heq => hk (by rw [heq])
      rw [List.count_cons_of_ne hqr, List.count_nil] at hown
      omega
    · rw [hother k hkq]
      exact hzero
  · intro r
    rw [List.count_append, hnone _ fun x => by simp, request_submitRequest]
    exact h.retried r
  · intro r
    rw [request_submitRequest, hmax]
    exact h.bound r
  · intro r hr
    rw [nextReq_submitRequest] at hr
    rw [request_submitRequest]
    exact h.fresh r hr
  · rw [doneRequests_append, (verdicts_submitDeeds m q).1, List.append_nil, done_submitRequest]
    exact h.done
  · rw [failedRequests_append, (verdicts_submitDeeds m q).2, List.append_nil, failed_submitRequest]
    exact h.failed
  · rw [hmax]
    refine h.exhausted.append fun d hd r heq => ?_
    obtain ⟨x, hx⟩ := eq_handed_of_mem_submitDeeds hd
    simp [hx] at heq

/-- A new request is in the hands of the manager before it is submitted. -/
theorem Records.created (h : m.Records j hand) (netloc : NetLoc) :
    (m.created netloc).Records j (m.nextReq :: hand) := by
  have hself : ((m.created netloc).request m.nextReq).numRetries = 0 := by
    simp [ConnectionManager.created]
  have hother : ∀ r, r ≠ m.nextReq → (m.created netloc).request r = m.request r := by
    intro r hr
    simp [ConnectionManager.created, hr]
  have hnew := h.handed m.nextReq
  rw [h.fresh _ le_rfl, if_neg (Nat.lt_irrefl _)] at hnew
  have hnowhere : ∀ k, m.waitingAt k m.nextReq = 0 := by
    intro k
    by_cases hk : k = (m.request m.nextReq).netloc
    · rw [hk]
      omega
    · exact h.elsewhere _ k hk
  have hnext : (m.created netloc).nextReq = m.nextReq + 1 := rfl
  constructor
  · intro r
    change _ + m.waitingAt _ r + _ ≤ _
    by_cases hr : r = m.nextReq
    · subst hr
      rw [hself, hnowhere, hnext, if_pos (Nat.lt_succ_self _), List.count_cons_self]
      omega
    · have hhanded := h.handed r
      rw [hother r hr, hnext, List.count_cons_of_ne (Ne.symm hr)]
      by_cases hlt : r < m.nextReq
      · rw [if_pos hlt] at hhanded
        rw [if_pos (Nat.lt_succ_of_lt hlt)]
        exact hhanded
      · rw [if_neg hlt] at hhanded
        rw [if_neg fun hle => hlt (lt_of_le_of_ne (Nat.le_of_lt_succ hle) hr)]
        exact hhanded
  · intro r k hk
    change m.waitingAt k r = 0
    by_cases hr : r = m.nextReq
    · rw [hr]
      exact hnowhere k
    · rw [hother r hr] at hk
      exact h.elsewhere r k hk
  · intro r
    by_cases hr : r = m.nextReq
    · subst hr
      rw [hself, h.retried]
      exact h.fresh _ le_rfl
    · rw [hother r hr]
      exact h.retried r
  · intro r
    by_cases hr : r = m.nextReq
    · subst hr
      rw [hself]
      exact Nat.zero_le _
    · rw [hother r hr]
      exact h.bound r
  · intro r hr
    rw [hnext] at hr
    rw [hother r (by omega)]
    exact h.fresh r (by omega)
  · exact h.done
  · exact h.failed
  · exact h.exhausted

/-- A call of the user is recorded. -/
theorem Records.userCall (h : m.Records j hand) (call : UserCall) :
    (m.userCall call).Records (j ++ m.userCallDeeds call) hand := by
  cases call with
  | submit netloc => exact (h.created netloc).submitRequest
  | reset =>
    rw [userCallDeeds, List.append_nil]
    exact h.congr (fun k r => Nat.zero_le _) (fun r => ⟨rfl, rfl⟩) rfl rfl rfl rfl

/-- The calls of the user are recorded. -/
theorem Records.userCalls (h : m.Records j hand) (calls : List UserCall) :
    (m.userCalls calls).Records (j ++ m.userCallsDeeds calls) hand := by
  induction calls generalizing m j with
  | nil => simpa [ConnectionManager.userCalls, userCallsDeeds] using h
  | cons call rest ih =>
    rw [userCallsDeeds, ← List.append_assoc]
    exact ih (h.userCall call)

/-- A change of a connection keeps the bound. -/
theorem maxRetries_updateCnx (m : ConnectionManager) (f : Cnx → Cnx) :
    (m.updateCnx netloc n f).maxRetries = m.maxRetries := by
  unfold updateCnx
  split <;> rfl

/-- A change of a connection keeps the record. -/
theorem Records.updateCnx (h : m.Records j hand) (f : Cnx → Cnx) :
    (m.updateCnx netloc n f).Records j hand := by
  obtain ⟨hrequest, hnext, hdone, hfailed⟩ := updateCnx_spec m netloc n f
  refine h.congr (fun k r => (waitingAt_updateCnx m f k r).le) (fun r => ?_) hnext
    (maxRetries_updateCnx m f) hdone hfailed
  rw [hrequest]
  exact ⟨rfl, rfl⟩

/-- The first waiting request is handed out. -/
theorem Records.handOut {server : Server} {rest : List ReqId} (h : m.Records j hand)
    (hserver : m.servers netloc = some server) (hrequests : server.requests = q :: rest) :
    (m.setServer netloc (some { server with requests := rest })).Records (j ++ [.handed q])
      hand := by
  obtain ⟨u, hu⟩ : ∃ u, m.setServer netloc (some { server with requests := rest }) = u := ⟨_, rfl⟩
  have hwait : ∀ r, u.waitingAt netloc r + [q].count r = m.waitingAt netloc r := by
    intro r
    simp [← hu, waitingAt, setServer, hserver, hrequests, List.count_cons]
  have hother : ∀ k, k ≠ netloc → ∀ r, u.waitingAt k r = m.waitingAt k r := by
    intro k hk r
    simp [← hu, waitingAt, setServer, hk]
  have hle : ∀ k r, u.waitingAt k r ≤ m.waitingAt k r := by
    intro k r
    by_cases hk : k = netloc
    · subst hk
      have := hwait r
      omega
    · exact (hother k hk r).le
  have hu' : u.Records j hand := by
    refine h.congr hle (fun r => ?_) ?_ ?_ ?_ ?_
    all_goals
      rw [← hu]
      simp [setServer]
  rw [hu]
  refine ⟨fun r => ?_, hu'.elsewhere, fun r => ?_, hu'.bound, hu'.fresh, ?_, ?_, ?_⟩
  · have hhanded := h.handed r
    have hrequest : u.request = m.request := by rw [← hu]; rfl
    have hnext : u.nextReq = m.nextReq := by rw [← hu]; rfl
    rw [List.count_append, count_handed, hrequest, hnext]
    by_cases hr : (m.request r).netloc = netloc
    · have := hwait r
      rw [hr] at hhanded ⊢
      omega
    · have hzero := h.elsewhere r netloc (Ne.symm hr)
      have := hwait r
      rw [hother _ hr]
      omega
  · rw [count_append_singleton_of_ne (by simp)]
    exact hu'.retried r
  · simpa [doneRequests] using hu'.done
  · simpa [failedRequests] using hu'.failed
  · exact hu'.exhausted.append fun d hd r heq => by simp [heq] at hd

/-- A waiting request that is handed out is recorded. -/
theorem Records.cnxRequestDoneCb (h : m.Records j hand)
    (hcb : m.cnxRequestDoneCb netloc n = .ok m') :
    m'.Records (j ++ m.cnxRequestDoneDeeds netloc) hand := by
  unfold ConnectionManager.cnxRequestDoneCb at hcb
  unfold cnxRequestDoneDeeds
  cases hserver : m.servers netloc with
  | none => simp [hserver] at hcb
  | some server =>
    simp only [hserver] at hcb ⊢
    cases hrequests : server.requests with
    | nil =>
      simp only [hrequests, List.append_nil] at hcb ⊢
      obtain rfl := Except.ok.inj hcb
      exact h
    | cons q rest =>
      simp only [hrequests] at hcb ⊢
      obtain rfl := Except.ok.inj hcb
      exact (h.handOut hserver hrequests).updateCnx _

/-- The response of a request is done. -/
theorem Records.notified (h : m.Records j hand) (q : ReqId) :
    Records { m with done := m.done ++ [q] } (j ++ [.done q]) hand := by
  refine ⟨fun r => ?_, h.elsewhere, fun r => ?_, h.bound, h.fresh, ?_, ?_, ?_⟩
  · rw [count_append_singleton_of_ne (by simp)]
    exact h.handed r
  · rw [count_append_singleton_of_ne (by simp)]
    exact h.retried r
  · simp [doneRequests, ← h.done]
  · simpa [failedRequests] using h.failed
  · exact h.exhausted.append fun d hd r heq => by simp [heq] at hd

/-- The error of a request is reported after its last retry. -/
theorem Records.reported (h : m.Records j hand) (hq : (m.request q).numRetries = m.maxRetries) :
    Records { m with failed := m.failed ++ [q] } (j ++ [.failed q]) hand := by
  refine ⟨fun r => ?_, h.elsewhere, fun r => ?_, h.bound, h.fresh, ?_, ?_, ?_⟩
  · rw [count_append_singleton_of_ne (by simp)]
    exact h.handed r
  · rw [count_append_singleton_of_ne (by simp)]
    exact h.retried r
  · simpa [doneRequests] using h.done
  · simp [failedRequests, ← h.failed]
  · exact h.exhausted.append_failed ((h.retried q).trans hq)

/-- A request that has retries left is in the hands of the manager again. -/
theorem Records.counted {q' : Request} (h : m.Records j hand) (hlt : q < m.nextReq)
    (hq : (m.request q).numRetries ≠ m.maxRetries) (hnetloc : q'.netloc = (m.request q).netloc)
    (hretries : q'.numRetries = (m.request q).numRetries + 1) :
    Records { m with request := Function.update m.request q q' } (j ++ [.retried q])
      (q :: hand) := by
  have hsame : ∀ r, (Function.update m.request q q' r).netloc = (m.request r).netloc := by
    intro r
    by_cases hr : r = q
    · rw [hr, Function.update_self, hnetloc]
    · rw [Function.update_of_ne hr]
  have hnum : ∀ r, (Function.update m.request q q' r).numRetries =
      (m.request r).numRetries + [q].count r := by
    intro r
    by_cases hr : r = q
    · rw [hr, Function.update_self, hretries, List.count_cons_self, List.count_nil]
    · rw [Function.update_of_ne hr, List.count_cons_of_ne (Ne.symm hr), List.count_nil]
      rfl
  refine ⟨fun r => ?_, fun r k hk => ?_, fun r => ?_, fun r => ?_, fun r hr => ?_, ?_, ?_, ?_⟩
  · have hhanded := h.handed r
    rw [count_append_singleton_of_ne (by simp)]
    simp only [hsame, hnum]
    rw [List.count_cons, List.count_cons, List.count_nil]
    change _ + m.waitingAt _ r + _ ≤ _
    omega
  · simp only [hsame] at hk
    exact h.elsewhere r k hk
  · simp only [hnum]
    rw [List.count_append, h.retried r]
    by_cases hr : q = r
    · subst hr
      simp
    · rw [List.count_cons_of_ne hr, List.count_cons_of_ne fun heq => hr (Deed.retried.inj heq)]
      simp
  · have hbound := h.bound r
    simp only [hnum]
    by_cases hr : q = r
    · subst hr
      rw [List.count_cons_self, List.count_nil]
      exact lt_of_le_of_ne hbound hq
    · rw [List.count_cons_of_ne hr, List.count_nil]
      exact hbound
  · have hne : q ≠ r := fun heq => Nat.not_lt.mpr hr (heq ▸ hlt)
    simp only [hnum]
    rw [List.count_cons_of_ne hne, List.count_nil]
    exact h.fresh r hr
  · simpa [doneRequests] using h.done
  · simpa [failedRequests] using h.failed
  · exact h.exhausted.append fun d hd r heq => by simp [heq] at hd

/-- A release may lose waiting requests. -/
theorem waitingAt_releaseConn_le {conn : Cnx} (h : m.releaseConn netloc n = .ok (m', conn))
    (k : NetLoc) (r : ReqId) : m'.waitingAt k r ≤ m.waitingAt k r := by
  unfold releaseConn at h
  split at h
  · simp at h
  · rename_i server hserver
    split at h
    · simp at h
    · obtain ⟨rfl, -⟩ := Prod.mk.inj (Except.ok.inj h)
      by_cases hk : k = netloc
      · subst hk
        unfold waitingAt setServer
        simp only [Function.update_self, hserver]
        by_cases hempty : (Cnx.erase n server.connections).length = 0
        · rw [if_pos hempty]
          exact Nat.zero_le _
        · rw [if_neg hempty]
      · simp [waitingAt, setServer, hk]

/-- A release keeps the bound. -/
theorem maxRetries_releaseConn {conn : Cnx} (h : m.releaseConn netloc n = .ok (m', conn)) :
    m'.maxRetries = m.maxRetries := by
  unfold releaseConn at h
  split at h
  · simp at h
  · split at h
    · simp at h
    · obtain ⟨rfl, -⟩ := Prod.mk.inj (Except.ok.inj h)
      rfl

/-! ## The number of retries -/

/-- The calls of the user keep the bound. -/
theorem maxRetries_userCalls (m : ConnectionManager) (calls : List UserCall) :
    (m.userCalls calls).maxRetries = m.maxRetries := by
  unfold ConnectionManager.userCalls
  induction calls generalizing m with
  | nil => rfl
  | cons call rest ih =>
    rw [List.foldl_cons, ih]
    cases call with
    | submit netloc => exact maxRetries_submitRequest _ _
    | reset => rfl

/-- Handing out a waiting request keeps the bound. -/
theorem maxRetries_cnxRequestDoneCb (h : m.cnxRequestDoneCb netloc n = .ok m') :
    m'.maxRetries = m.maxRetries := by
  unfold ConnectionManager.cnxRequestDoneCb at h
  split at h
  · simp at h
  · split at h
    · obtain rfl := Except.ok.inj h
      rfl
    · obtain rfl := Except.ok.inj h
      exact maxRetries_updateCnx _ _

/-- The retries keep the bound. -/
theorem maxRetries_retryRequestsWith (errorCb : ReqId → List UserCall) (m : ConnectionManager)
    (reqs : List ReqId) : (retryRequestsWith errorCb m reqs).maxRetries = m.maxRetries := by
  induction reqs generalizing m with
  | nil => rfl
  | cons req rest ih =>
    simp only [retryRequestsWith]
    split
    · rw [ih, maxRetries_userCalls]
    · rw [ih, maxRetries_submitRequest]

/-- Every occasion keeps the bound. -/
theorem maxRetries_occur {e : Occasion} (h : m.occur e = .ok m') :
    m'.maxRetries = m.maxRetries := by
  cases e with
  | call c =>
    obtain rfl := Except.ok.inj h
    exact maxRetries_userCalls m [c]
  | bodyData netloc instNum len =>
    obtain rfl := Except.ok.inj h
    unfold responseBodyData
    split <;> rfl
  | responseDone netloc instNum calls =>
    simp only [occur, responseDoneWith] at h
    split at h
    · obtain rfl := Except.ok.inj h
      rfl
    · split at h
      · simp at h
      · rename_i t hcb
        obtain rfl := Except.ok.inj h
        rw [maxRetries_updateCnx, maxRetries_cnxRequestDoneCb hcb, maxRetries_userCalls]
        exact maxRetries_updateCnx _ _
  | unusable netloc instNum errorCb =>
    simp only [occur, handleUnusableConnWith] at h
    split at h
    · simp at h
    · rename_i t conn hrelease
      split at h
      · obtain rfl := Except.ok.inj h
        rw [maxRetries_retryRequestsWith, maxRetries_releaseConn hrelease]
      · simp at h
  | delete netloc instNum =>
    obtain rfl := Except.ok.inj h
    rfl

end ConnectionManager

end ShadowExtras.Web
