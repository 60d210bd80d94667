import ShadowExtras.Web.ConnectionManagerNumbers

/-!
# The connection limit

How many connections a manager keeps at a location, and where a connection is listed. A connection
is opened only when a request finds no idle one, at the location of the request and while fewer than
`maxPersist` are open there; afterwards it can only leave its list, by a release or by a reset of
the manager.

Here a reset may come at any moment, also from a callback of the user in the middle of a completion
or of the retries. An operation `Leads` to a manager whose lists are again separate, and in which
every listed connection was listed at the same location before or is new.
-/

namespace ShadowExtras.Web

open Foundation

namespace ConnectionManager

/-! ## Callbacks that reset -/

/-- What the user does with the manager, in a callback or on its own. -/
inductive UserCall
  | submit (netloc : NetLoc)
  | reset
  deriving DecidableEq, Repr

section Operations

variable (s : ConnectionManager)

def userCall : UserCall → ConnectionManager
  | .submit netloc => s.newRequest netloc
  | .reset => s.reset

/-- The calls of a callback. -/
def userCalls (calls : List UserCall) : ConnectionManager :=
  calls.foldl userCall s

/-- `responseDone` with a callback that makes any calls. -/
def responseDoneWith (netloc : NetLoc) (instNum : Nat) (calls : List UserCall) :
    Except AssertFailed ConnectionManager :=
  match (s.cnx netloc instNum).bind fun c => c.active.head? with
  | none => .ok s
  | some req =>
    let popped := s.updateCnx netloc instNum Cnx.popActive
    let notified := { popped with done := popped.done ++ [req] }.userCalls calls
    match notified.cnxRequestDoneCb netloc instNum with
    | .error fault => .error fault
    | .ok s' => .ok (s'.updateCnx netloc instNum Cnx.httpWriteToOutbuf)

/-- `retryRequests` with an error callback that makes any calls. -/
def retryRequestsWith (errorCb : ReqId → List UserCall) : ConnectionManager → List ReqId →
    ConnectionManager
  | s, [] => s
  | s, req :: rest =>
    let q := s.request req
    if q.numRetries = s.maxRetries then
      retryRequestsWith errorCb ({ s with failed := s.failed ++ [req] }.userCalls (errorCb req))
        rest
    else
      let q' := { q with
        numRetries := q.numRetries + 1
        firstBytePos := if q.bodySize > 0 then q.bodySize else q.firstBytePos }
      retryRequestsWith errorCb
        (submitRequest { s with request := Function.update s.request req q' } req) rest

/-- `handleUnusableConn` with an error callback that makes any calls. -/
def handleUnusableConnWith (netloc : NetLoc) (instNum : Nat) (errorCb : ReqId → List UserCall) :
    Except AssertFailed ConnectionManager :=
  match s.releaseConn netloc instNum with
  | .error fault => .error fault
  | .ok (s', conn) =>
    if conn.submitted.isEmpty then .ok (retryRequestsWith errorCb s' conn.active)
    else .error .noPending

end Operations

/-- What happens to a manager, resets included. -/
inductive Occasion
  | call (c : UserCall)
  | bodyData (netloc : NetLoc) (instNum len : Nat)
  | responseDone (netloc : NetLoc) (instNum : Nat) (calls : List UserCall)
  | unusable (netloc : NetLoc) (instNum : Nat) (errorCb : ReqId → List UserCall)
  | delete (netloc : NetLoc) (instNum : Nat)

def occur (s : ConnectionManager) : Occasion → Except AssertFailed ConnectionManager
  | .call c => .ok (s.userCall c)
  | .bodyData netloc instNum len => .ok (s.responseBodyData netloc instNum len)
  | .responseDone netloc instNum calls => s.responseDoneWith netloc instNum calls
  | .unusable netloc instNum errorCb => s.handleUnusableConnWith netloc instNum errorCb
  | .delete netloc instNum => s.step (.delete netloc instNum)

/-- An event between two resets, as an occasion. -/
def Event.occasion : Event → Occasion
  | .submit netloc => .call (.submit netloc)
  | .bodyData netloc instNum len => .bodyData netloc instNum len
  | .responseDone netloc instNum netlocs => .responseDone netloc instNum (netlocs.map .submit)
  | .unusable netloc instNum errorCb =>
    .unusable netloc instNum fun req => (errorCb req).map .submit
  | .delete netloc instNum => .delete netloc instNum

variable {m m' m'' : ConnectionManager} {netloc : NetLoc} {n : Nat}

/-- Calls that only submit are new requests. -/
theorem userCalls_map_submit (m : ConnectionManager) (netlocs : List NetLoc) :
    m.userCalls (netlocs.map .submit) = m.submitAll netlocs := by
  unfold userCalls submitAll
  rw [List.foldl_map]
  rfl

/-- Retries whose callbacks only submit are those of the manager. -/
theorem retryRequestsWith_submit (errorCb : ReqId → List NetLoc) (m : ConnectionManager)
    (reqs : List ReqId) :
    retryRequestsWith (fun req => (errorCb req).map .submit) m reqs =
      retryRequests errorCb m reqs := by
  induction reqs generalizing m with
  | nil => rfl
  | cons req rest ih =>
    simp only [retryRequestsWith, retryRequests, userCalls_map_submit, ih]

/-- Without resets this is the manager as before. -/
theorem occur_occasion (m : ConnectionManager) (e : Event) : m.occur e.occasion = m.step e := by
  cases e with
  | submit netloc => rfl
  | bodyData netloc instNum len => rfl
  | responseDone netloc instNum netlocs =>
    grind [Event.occasion, occur, step, responseDoneWith, responseDone, userCalls_map_submit]
  | unusable netloc instNum errorCb =>
    grind [Event.occasion, occur, step, handleUnusableConnWith, handleUnusableConn,
      retryRequestsWith_submit]
  | delete netloc instNum => rfl

/-! ## Separate lists -/

/-- The numbers of the connections at a location, listed or scheduled for deletion. -/
def nums (m : ConnectionManager) (netloc : NetLoc) : List Nat :=
  m.liveNums netloc ++ m.goneNums netloc

/-- Every list is within the limit, and a connection is in one place. -/
structure Separate (m : ConnectionManager) : Prop where
  limit : ∀ netloc, (m.liveNums netloc).length ≤ m.maxPersist
  distinct : ∀ netloc, (m.nums netloc).Nodup
  below : ∀ netloc, ∀ n ∈ m.nums netloc, n < m.nextInstNum
  apart : ∀ netloc netloc', ∀ n ∈ m.nums netloc, n ∈ m.nums netloc' → netloc = netloc'

/-- A listed connection was listed at the same location before, or it is new. -/
structure Evolves (m m' : ConnectionManager) : Prop where
  maxPersist : m'.maxPersist = m.maxPersist
  next : m.nextInstNum ≤ m'.nextInstNum
  live : ∀ netloc, ∀ n ∈ m'.liveNums netloc, n ∈ m.liveNums netloc ∨ m.nextInstNum ≤ n

/-- An operation that keeps the lists separate. -/
structure Leads (m m' : ConnectionManager) : Prop where
  separate : m.Separate → m'.Separate
  evolves : m.Evolves m'

theorem Leads.refl (m : ConnectionManager) : m.Leads m :=
  ⟨fun h => h, ⟨rfl, le_rfl, fun _ _ hn => .inl hn⟩⟩

/-- Two changes are one. -/
theorem Leads.trans (h : m.Leads m') (h' : m'.Leads m'') : m.Leads m'' := by
  refine ⟨fun hm => h'.separate (h.separate hm), ?_⟩
  constructor
  · exact h'.evolves.maxPersist.trans h.evolves.maxPersist
  · exact h.evolves.next.trans h'.evolves.next
  · intro netloc n hn
    rcases h'.evolves.live netloc n hn with hn | hn
    · exact h.evolves.live netloc n hn
    · exact .inr (h.evolves.next.trans hn)

/-- No connection is opened; listed ones may become scheduled for deletion, and those may go. -/
theorem leads_of_subperm (hmax : m'.maxPersist = m.maxPersist)
    (hnext : m'.nextInstNum = m.nextInstNum)
    (hlive : ∀ netloc, (m'.liveNums netloc).Sublist (m.liveNums netloc))
    (hnums : ∀ netloc, (m'.nums netloc).Subperm (m.nums netloc)) : m.Leads m' := by
  constructor
  · intro h
    constructor
    · intro netloc
      rw [hmax]
      exact (hlive netloc).length_le.trans (h.limit netloc)
    · intro netloc
      obtain ⟨l, hperm, hsublist⟩ := hnums netloc
      exact hperm.nodup_iff.mp (hsublist.nodup (h.distinct netloc))
    · intro netloc n hn
      rw [hnext]
      exact h.below netloc n ((hnums netloc).subset hn)
    · intro netloc netloc' n hn hn'
      exact h.apart netloc netloc' n ((hnums netloc).subset hn) ((hnums netloc').subset hn')
  · exact ⟨hmax, hnext.ge, fun netloc n hn => .inl ((hlive netloc).subset hn)⟩

/-- The connections stay what they are. -/
theorem leads_of_eq (hmax : m'.maxPersist = m.maxPersist) (hnext : m'.nextInstNum = m.nextInstNum)
    (hlive : ∀ netloc, m'.liveNums netloc = m.liveNums netloc)
    (hgone : ∀ netloc, m'.goneNums netloc = m.goneNums netloc) : m.Leads m' := by
  refine leads_of_subperm hmax hnext (fun netloc => ?_) fun netloc => ?_
  · rw [hlive]
  · unfold nums
    rw [hlive, hgone]

/-- A connection is opened where the limit is not reached. -/
theorem leads_of_open (hmax : m'.maxPersist = m.maxPersist)
    (hnext : m'.nextInstNum = m.nextInstNum + 1)
    (hroom : (m.liveNums netloc).length < m.maxPersist)
    (hlive : m'.liveNums netloc = m.liveNums netloc ++ [m.nextInstNum])
    (hother : ∀ k, k ≠ netloc → m'.liveNums k = m.liveNums k)
    (hgone : ∀ k, m'.goneNums k = m.goneNums k) : m.Leads m' := by
  have hperm : (m'.nums netloc).Perm (m.nextInstNum :: m.nums netloc) := by
    unfold nums
    rw [hlive, hgone, List.append_assoc]
    exact List.perm_middle
  have hsame : ∀ k, k ≠ netloc → m'.nums k = m.nums k := by
    intro k hk
    unfold nums
    rw [hother k hk, hgone]
  constructor
  · intro h
    have hfresh : ∀ k, m.nextInstNum ∉ m.nums k :=
      fun k hmem => Nat.lt_irrefl _ (h.below k _ hmem)
    -- the new number is in no place, so nothing coincides with it
    have hcases : ∀ k, ∀ i ∈ m'.nums k, i ∈ m.nums k ∨ k = netloc ∧ i = m.nextInstNum := by
      intro k i hi
      by_cases hk : k = netloc
      · subst hk
        rcases List.mem_cons.mp (hperm.subset hi) with hi | hi
        · exact .inr ⟨rfl, hi⟩
        · exact .inl hi
      · exact .inl (hsame k hk ▸ hi)
    constructor
    · intro k
      rw [hmax]
      by_cases hk : k = netloc
      · subst hk
        rw [hlive, List.length_append]
        exact hroom
      · rw [hother k hk]
        exact h.limit k
    · intro k
      by_cases hk : k = netloc
      · subst hk
        exact hperm.nodup_iff.mpr (List.nodup_cons.mpr ⟨hfresh k, h.distinct k⟩)
      · rw [hsame k hk]
        exact h.distinct k
    · intro k i hi
      rw [hnext]
      rcases hcases k i hi with hi | ⟨-, rfl⟩
      · exact Nat.lt_succ_of_lt (h.below k i hi)
      · exact Nat.lt_succ_self _
    · intro k k' i hi hi'
      rcases hcases k i hi with hi | ⟨rfl, rfl⟩
      · rcases hcases k' i hi' with hi' | ⟨rfl, rfl⟩
        · exact h.apart k k' i hi hi'
        · exact absurd hi (hfresh k)
      · rcases hcases k' _ hi' with hi' | ⟨rfl, -⟩
        · exact absurd hi' (hfresh k')
        · rfl
  · refine ⟨hmax, by omega, fun k i hi => ?_⟩
    by_cases hk : k = netloc
    · subst hk
      rw [hlive] at hi
      rcases List.mem_append.mp hi with hi | hi
      · exact .inl hi
      · exact .inr (List.mem_singleton.mp hi).ge
    · rw [hother k hk] at hi
      exact .inl hi

/-! ## The operations -/

/-- A submitted request keeps the lists apart. -/
theorem leads_submitRequest (m : ConnectionManager) (q : ReqId) : m.Leads (m.submitRequest q) := by
  obtain ⟨hmax, hgone, ⟨hlive, hnext⟩ | ⟨hroom, hown, hother, hnext⟩⟩ := liveNums_submitRequest m q
  · exact leads_of_eq hmax hnext hlive hgone
  · exact leads_of_open hmax hnext hroom hown hother hgone

/-- A new request keeps the lists apart. -/
theorem leads_newRequest (m : ConnectionManager) (netloc : NetLoc) :
    m.Leads (m.newRequest netloc) := by
  have hcreated : m.Leads (m.created netloc) :=
    leads_of_eq rfl rfl (fun _ => rfl) fun _ => rfl
  rw [newRequest_eq]
  exact hcreated.trans (leads_submitRequest _ _)

/-- A reset schedules the listed connections for deletion. -/
theorem nums_reset (m : ConnectionManager) (netloc : NetLoc) :
    m.reset.nums netloc = m.goneNums netloc ++ m.liveNums netloc := by
  simp only [nums, goneNums, liveNums, ConnectionManager.reset]
  cases m.servers netloc <;> simp

/-- A reset schedules every connection for deletion. -/
theorem leads_reset (m : ConnectionManager) : m.Leads m.reset := by
  apply leads_of_subperm
  · rfl
  · rfl
  · intro netloc
    exact List.nil_sublist _
  · intro netloc
    rw [nums_reset]
    exact List.perm_append_comm.subperm

/-- The calls of the user keep the lists apart. -/
theorem leads_userCalls (m : ConnectionManager) (calls : List UserCall) :
    m.Leads (m.userCalls calls) := by
  unfold userCalls
  induction calls generalizing m with
  | nil => exact Leads.refl m
  | cons call rest ih =>
    refine Leads.trans ?_ (ih _)
    cases call with
    | submit netloc => exact leads_newRequest m netloc
    | reset => exact leads_reset m

/-- Connections that grow keep the lists apart. -/
theorem Grows.leads (h : m.Grows m') (hmax : m'.maxPersist = m.maxPersist)
    (hnext : m'.nextInstNum = m.nextInstNum) : m.Leads m' := by
  refine leads_of_eq hmax hnext (fun netloc => ?_) h.gone
  obtain ⟨opened, hlive, -, hopened⟩ := h.live netloc
  have hnil : opened = [] := by
    rw [List.eq_nil_iff_forall_not_mem]
    intro i hi
    have hrange := hopened i hi
    omega
  rw [hlive, hnil, List.append_nil]

/-- A change of a connection keeps the lists apart. -/
theorem leads_updateCnx (m : ConnectionManager) {f : Cnx → Cnx}
    (hf : ∀ c, (f c).instNum = c.instNum) : m.Leads (m.updateCnx netloc n f) := by
  refine (grows_updateCnx m hf).leads ?_ (nextInstNum_updateCnx f)
  unfold updateCnx
  split <;> rfl

/-- Handing out a waiting request keeps the lists apart. -/
theorem leads_cnxRequestDoneCb (h : m.cnxRequestDoneCb netloc n = .ok m') : m.Leads m' := by
  unfold cnxRequestDoneCb at h
  split at h
  · simp at h
  · rename_i server hserver
    split at h
    · obtain rfl := Except.ok.inj h
      exact Leads.refl m
    · rename_i req rest hrequests
      obtain rfl := Except.ok.inj h
      have htaken : m.Leads (m.setServer netloc (some { server with requests := rest })) := by
        refine leads_of_eq rfl rfl (fun k => ?_) fun _ => rfl
        by_cases hk : k = netloc
        · subst hk
          simp [liveNums, setServer, hserver]
        · simp [liveNums, setServer, hk]
      exact htaken.trans (leads_updateCnx _ fun _ => Cnx.instNum_submitRequest)

/-- The end of a response keeps the lists apart. -/
theorem leads_responseDoneWith {calls : List UserCall}
    (h : m.responseDoneWith netloc n calls = .ok m') : m.Leads m' := by
  unfold responseDoneWith at h
  split at h
  · obtain rfl := Except.ok.inj h
    exact Leads.refl m
  · rename_i req hreq
    dsimp only at h
    split at h
    · simp at h
    · rename_i t hcb
      obtain rfl := Except.ok.inj h
      have hpopped : m.Leads (m.updateCnx netloc n Cnx.popActive) :=
        leads_updateCnx m fun _ => rfl
      have hdone : (m.updateCnx netloc n Cnx.popActive).Leads
          { m.updateCnx netloc n Cnx.popActive with
            done := (m.updateCnx netloc n Cnx.popActive).done ++ [req] } :=
        leads_of_eq rfl rfl (fun _ => rfl) fun _ => rfl
      have hcallback := leads_userCalls { m.updateCnx netloc n Cnx.popActive with
            done := (m.updateCnx netloc n Cnx.popActive).done ++ [req] } calls
      exact (((hpopped.trans hdone).trans hcallback).trans (leads_cnxRequestDoneCb hcb)).trans
        (leads_updateCnx t fun _ => Cnx.instNum_httpWriteToOutbuf)

/-- The retries keep the lists apart. -/
theorem leads_retryRequestsWith (errorCb : ReqId → List UserCall) (m : ConnectionManager)
    (reqs : List ReqId) : m.Leads (retryRequestsWith errorCb m reqs) := by
  induction reqs generalizing m with
  | nil => exact Leads.refl m
  | cons req rest ih =>
    simp only [retryRequestsWith]
    split
    · have hfailed : m.Leads { m with failed := m.failed ++ [req] } :=
        leads_of_eq rfl rfl (fun _ => rfl) fun _ => rfl
      exact (hfailed.trans (leads_userCalls _ (errorCb req))).trans (ih _)
    · refine Leads.trans ?_ (ih _)
      refine Leads.trans ?_ (leads_submitRequest _ req)
      exact leads_of_eq rfl rfl (fun _ => rfl) fun _ => rfl

/-- A released connection leaves its list. -/
theorem leads_releaseConn {conn : Cnx} (h : m.releaseConn netloc n = .ok (m', conn)) :
    m.Leads m' := by
  obtain ⟨hlive, -, hnext, hother, -, -⟩ := releaseConn_spec h
  have hmax : m'.maxPersist = m.maxPersist := by
    unfold releaseConn at h
    split at h
    · simp at h
    · split at h
      · simp at h
      · obtain ⟨rfl, -⟩ := Prod.mk.inj (Except.ok.inj h)
        rfl
  refine leads_of_subperm hmax hnext (fun k => ?_) fun k => ?_
  · by_cases hk : k = netloc
    · subst hk
      rw [hlive]
      exact List.erase_sublist
    · rw [(hother k hk).1]
  · unfold nums
    by_cases hk : k = netloc
    · subst hk
      exact (nums_releaseConn h).2.subperm
    · rw [(hother k hk).1, (hother k hk).2]

/-- Every occasion keeps the lists apart. -/
theorem leads_occur {e : Occasion} (h : m.occur e = .ok m') : m.Leads m' := by
  cases e with
  | call c =>
    obtain rfl := Except.ok.inj h
    exact leads_userCalls m [c]
  | bodyData netloc instNum len =>
    obtain rfl := Except.ok.inj h
    refine (grows_responseBodyData m len).leads ?_ ?_
    all_goals
      unfold responseBodyData
      split <;> rfl
  | responseDone netloc instNum calls => exact leads_responseDoneWith h
  | unusable netloc instNum errorCb =>
    simp only [occur, handleUnusableConnWith] at h
    split at h
    · simp at h
    · rename_i t conn hrelease
      split at h
      · obtain rfl := Except.ok.inj h
        exact (leads_releaseConn hrelease).trans (leads_retryRequestsWith errorCb t _)
      · simp at h
  | delete netloc instNum =>
    simp only [occur, step] at h
    obtain rfl := Except.ok.inj h
    refine leads_of_subperm rfl rfl (fun k => List.Sublist.refl _) fun k => ?_
    exact (goneNums_delete.append_left (m.liveNums k)).subperm

/-! ## Runs -/

theorem separate_new (maxPersist maxRetries : Nat) :
    (new maxPersist maxRetries fun _ => []).Separate := by
  constructor <;> simp [nums, liveNums, goneNums, new]

theorem leads_run {es : List Occasion} (hrun : runSteps occur m es = .ok m') : m.Leads m' :=
  invariant_of_steps (fun t => m.Leads t) (fun _ _ _ ht hstep => ht.trans (leads_occur hstep))
    (Leads.refl m) hrun

/-- After any events, at every location no more than `maxPersist` connections are listed, a listed
connection is in one list and was never in another one, and no connection that was scheduled for
deletion is listed. -/
theorem listed_of_run (maxPersist maxRetries : Nat) (earlier later : List Occasion)
    (hearlier : runSteps occur (new maxPersist maxRetries fun _ => []) earlier = .ok m)
    (hlater : runSteps occur m later = .ok m') :
    (∀ netloc, (m'.liveNums netloc).length ≤ maxPersist) ∧
      (∀ netloc, ∀ n ∈ m'.liveNums netloc, (m'.liveNums netloc).count n = 1 ∧
        ∀ netloc', n ∈ m.liveNums netloc' ∨ n ∈ m'.liveNums netloc' → netloc' = netloc) ∧
      ∀ netloc, ∀ n ∈ m.goneNums netloc, ∀ netloc', n ∉ m'.liveNums netloc' := by
  have hstart := leads_run hearlier
  have hrest := leads_run hlater
  have hseparate := hstart.separate (separate_new maxPersist maxRetries)
  have hseparate' := hrest.separate hseparate
  have hmax : m'.maxPersist = maxPersist :=
    hrest.evolves.maxPersist.trans hstart.evolves.maxPersist
  have hlisted : ∀ netloc, ∀ n ∈ m'.liveNums netloc, n < m.nextInstNum →
      n ∈ m.liveNums netloc := by
    intro netloc n hn hlt
    rcases hrest.evolves.live netloc n hn with hn | hle
    · exact hn
    · omega
  refine ⟨fun netloc => hmax ▸ hseparate'.limit netloc, fun netloc n hn => ⟨?_, ?_⟩, ?_⟩
  · exact List.count_eq_one_of_mem (List.nodup_append'.mp (hseparate'.distinct netloc)).1 hn
  · rintro netloc' (hn' | hn')
    · have hlt := hseparate.below netloc' n (List.mem_append_left _ hn')
      exact hseparate.apart netloc' netloc n (List.mem_append_left _ hn')
        (List.mem_append_left _ (hlisted netloc n hn hlt))
    · exact hseparate'.apart netloc' netloc n (List.mem_append_left _ hn')
        (List.mem_append_left _ hn)
  · intro netloc n hn netloc' hn'
    have hlt := hseparate.below netloc n (List.mem_append_right _ hn)
    have hold := hlisted netloc' n hn' hlt
    obtain rfl := hseparate.apart netloc netloc' n (List.mem_append_right _ hn)
      (List.mem_append_left _ hold)
    exact (List.nodup_append'.mp (hseparate.distinct netloc)).2.2 hold hn

/-- A connection fails, its request goes to a new one, and the error callback of a later failure
resets the manager and submits: the first connection does not come back. -/
theorem listed_of_run_reset : ∃ m m' : ConnectionManager,
    runSteps occur (new 2 1 fun _ => [])
      [.call (.submit ([], 80)), .unusable ([], 80) 0 fun _ => []] = .ok m ∧
    runSteps occur m
      [.unusable ([], 80) 1 fun _ => [.reset, .submit ([], 80)]] = .ok m' ∧
    m.goneNums ([], 80) = [0] ∧ m'.liveNums ([], 80) = [2] ∧
    ∀ netloc, 0 ∉ m'.liveNums netloc := by
  have hgone : (runSteps occur (new 2 1 fun _ => [])
      [.call (.submit ([], 80)), .unusable ([], 80) 0 fun _ => []]).map
        (fun m => m.goneNums ([], 80)) = .ok [0] := by
    decide +kernel
  have hlive : (runSteps occur (new 2 1 fun _ => [])
      ([.call (.submit ([], 80)), .unusable ([], 80) 0 fun _ => []] ++
        [.unusable ([], 80) 1 fun _ => [.reset, .submit ([], 80)]])).map
        (fun m => m.liveNums ([], 80)) = .ok [2] := by
    decide +kernel
  cases hm : runSteps occur (new 2 1 fun _ => [])
      [.call (.submit ([], 80)), .unusable ([], 80) 0 fun _ => []] with
  | error fault => simp [hm, Except.map] at hgone
  | ok m =>
    rw [runSteps_append_of_ok hm] at hlive
    cases hm' : runSteps occur m
        [.unusable ([], 80) 1 fun _ => [.reset, .submit ([], 80)]] with
    | error fault => simp [hm', Except.map] at hlive
    | ok m' =>
      have hgone : m.goneNums ([], 80) = [0] := by simpa [hm, Except.map] using hgone
      have hlive : m'.liveNums ([], 80) = [2] := by simpa [hm', Except.map] using hlive
      exact ⟨m, m', rfl, hm', hgone, hlive,
        (listed_of_run 2 1 _ _ hm hm').2.2 ([], 80) 0 (by simp [hgone])⟩

end ConnectionManager

end ShadowExtras.Web
