import ShadowExtras.Web.Retries

/-!
# One verdict for a request

A request is told that its response is done, or its error is reported, and only one of both and only
once: it is in one place at a time (`OnePlace`), and it leaves the last one when it is told. But a
connection that failed was released and its requests were requested again, and it still receives
until it is destroyed. `Unbroken` says that no response is completed on it. A connection that was
released by a reset may complete its responses, since they were not requested again.
-/

namespace ShadowExtras.Web

open Foundation

/-! ## Connections by number -/

namespace Cnx

variable {c : Cnx} {cs cs' : List Cnx} {n : Nat} {req : ReqId} {p : Nat → Bool}

/-- Keep the connections whose number passes a test. -/
def keep (p : Nat → Bool) (cs : List Cnx) : List Cnx := cs.filter fun c => p c.instNum

/-- Fewer connections hold a request no more often. -/
theorem countAll_le_of_sublist (h : cs.Sublist cs') : countAll req cs ≤ countAll req cs' := by
  induction h with
  | slnil => exact le_rfl
  | cons c _ ih =>
    rw [countAll_cons]
    omega
  | cons_cons c _ ih =>
    rw [countAll_cons, countAll_cons]
    omega

/-- The first connection is kept or not. -/
theorem keep_cons (c : Cnx) (cs : List Cnx) :
    keep p (c :: cs) = if p c.instNum then c :: keep p cs else keep p cs := by
  unfold keep
  rw [List.filter_cons]

/-- A connection that is kept is found. -/
theorem find_keep (hn : p n = true) : find n (keep p cs) = find n cs := by
  induction cs with
  | nil => rfl
  | cons c cs ih =>
    by_cases hc : c.instNum = n
    · rw [keep_cons, if_pos (by rw [hc]; exact hn), find, find, if_pos hc, if_pos hc]
    · rw [keep_cons]
      split
      · rw [find, find, if_neg hc, if_neg hc, ih]
      · rw [find, if_neg hc, ih]

/-- A change of a connection that is kept. -/
theorem keep_update {f : Cnx → Cnx} (hf : ∀ c, (f c).instNum = c.instNum) (hn : p n = true) :
    keep p (update n f cs) = update n f (keep p cs) := by
  induction cs with
  | nil => rfl
  | cons c cs ih =>
    by_cases hc : c.instNum = n
    · rw [update, if_pos hc, keep_cons, keep_cons, hf, if_pos (by rw [hc]; exact hn),
        if_pos (by rw [hc]; exact hn), update, if_pos hc]
    · rw [update, if_neg hc, keep_cons, keep_cons]
      split
      · rw [update, if_neg hc, ih]
      · exact ih

/-- A connection that is not there is not changed. -/
theorem update_of_find_eq_none {f : Cnx → Cnx} (h : find n cs = none) : update n f cs = cs := by
  induction cs with
  | nil => rfl
  | cons c cs ih =>
    by_cases hc : c.instNum = n
    · simp [find, hc] at h
    · rw [find, if_neg hc] at h
      rw [update, if_neg hc, ih h]

/-- Erasing leaves a sublist. -/
theorem erase_sublist : (erase n cs).Sublist cs := by
  induction cs with
  | nil => exact List.Sublist.slnil
  | cons c cs ih =>
    rw [erase]
    split
    · exact List.sublist_cons_self c cs
    · exact ih.cons_cons c

end Cnx

namespace ConnectionManager

variable {m m' : ConnectionManager} {netloc : NetLoc} {n : Nat} {q r : ReqId} {j : List Deed}
  {hand : List ReqId}

namespace Journal

/-- No response is completed on a connection that reported an error or the end of the stream
before. -/
def Unbroken (w : Journal) : Occasion → Prop
  | .responseDone netloc instNum _ => (netloc, instNum) ∈ w.broken →
      ((w.manager.cnx netloc instNum).bind fun c => c.active.head?) = none
  | _ => True

instance (w : Journal) (e : Occasion) : Decidable (w.Unbroken e) := by
  cases e <;> unfold Unbroken <;> infer_instance

end Journal

/-! ## One place for a request -/

/-- The connections at a location that were scheduled for deletion by a reset. -/
def strays (m : ConnectionManager) (broken : List (NetLoc × Nat)) (netloc : NetLoc) : List Cnx :=
  Cnx.keep (fun n => (netloc, n) ∉ broken) (m.released netloc)

/-- How often a request is at a location, where it still can be completed. -/
def presentAt (m : ConnectionManager) (broken : List (NetLoc × Nat)) (netloc : NetLoc)
    (req : ReqId) : Nat :=
  m.heldAt netloc req + Cnx.countAll req (m.strays broken netloc)

/-- Every submitted request is at most once in its own places, in the notifications and in the hands
of the manager, and nothing is anywhere else. -/
structure OnePlace (m : ConnectionManager) (broken : List (NetLoc × Nat)) (hand : List ReqId) :
    Prop where
  own : ∀ r, m.presentAt broken (m.request r).netloc r + m.done.count r + m.failed.count r +
    hand.count r ≤ if r < m.nextReq then 1 else 0
  others : ∀ r, ∀ k ≠ (m.request r).netloc, m.presentAt broken k r = 0

variable {broken broken' : List (NetLoc × Nat)}

/-- A request is at its location only. -/
theorem OnePlace.netloc_eq (h : m.OnePlace broken hand)
    (hpresent : 0 < m.presentAt broken netloc r) :
    (m.request r).netloc = netloc := by
  by_contra hne
  have := h.others r netloc (Ne.symm hne)
  omega

/-- A request in the hands of the manager was created. -/
theorem OnePlace.lt_nextReq (h : m.OnePlace broken hand) (hr : r ∈ hand) : r < m.nextReq := by
  by_contra hlt
  have hown := h.own r
  have hpos := List.count_pos_iff.mpr hr
  rw [if_neg hlt] at hown
  omega

/-- Requests may get lost, and their objects change. -/
theorem OnePlace.congr (h : m.OnePlace broken hand)
    (hpresent : ∀ k r, m'.presentAt broken' k r ≤ m.presentAt broken k r)
    (hrequest : ∀ r, (m'.request r).netloc = (m.request r).netloc)
    (hnext : m'.nextReq = m.nextReq) (hdone : m'.done = m.done) (hfailed : m'.failed = m.failed) :
    m'.OnePlace broken' hand := by
  constructor
  · intro r
    have hown := h.own r
    have hle := hpresent (m.request r).netloc r
    rw [hrequest, hnext, hdone, hfailed]
    omega
  · intro r k hk
    rw [hrequest] at hk
    have hzero := h.others r k hk
    have hle := hpresent k r
    omega

/-- A request leaves the hands of the manager for its own location. -/
theorem OnePlace.put (h : m.OnePlace broken (q :: hand))
    (hpresent : ∀ k r, m'.presentAt broken k r ≤
      m.presentAt broken k r + if k = (m.request q).netloc then [q].count r else 0)
    (hrequest : m'.request = m.request) (hnext : m'.nextReq = m.nextReq)
    (hdone : m'.done = m.done) (hfailed : m'.failed = m.failed) : m'.OnePlace broken hand := by
  constructor
  · intro r
    have hown := h.own r
    have hle := hpresent (m.request r).netloc r
    rw [hrequest, hnext, hdone, hfailed]
    simp only [List.count_cons, List.count_nil] at hown hle
    split_ifs at hown hle ⊢ <;> omega
  · intro r k hk
    rw [hrequest] at hk
    have hzero := h.others r k hk
    have hle := hpresent k r
    by_cases hkq : k = (m.request q).netloc
    · have hqr : q ≠ r := fun heq => hk (by rw [hkq, heq])
      rw [List.count_cons_of_ne hqr, List.count_nil, ite_self] at hle
      omega
    · rw [if_neg hkq] at hle
      omega

/-- A submitted request has one place. -/
theorem OnePlace.submitRequest (h : m.OnePlace broken (q :: hand)) :
    (m.submitRequest q).OnePlace broken hand := by
  refine h.put (fun k r => ?_) request_submitRequest nextReq_submitRequest done_submitRequest
    failed_submitRequest
  unfold presentAt strays
  rw [heldAt_submitRequest, released_submitRequest]
  omega

/-- A new request is in the hands of the manager. -/
theorem OnePlace.created (h : m.OnePlace broken hand) (netloc : NetLoc) :
    (m.created netloc).OnePlace broken (m.nextReq :: hand) := by
  have hother : ∀ r, r ≠ m.nextReq → (m.created netloc).request r = m.request r := by
    intro r hr
    simp [ConnectionManager.created, hr]
  have hnext : (m.created netloc).nextReq = m.nextReq + 1 := rfl
  have hnew := h.own m.nextReq
  rw [if_neg (Nat.lt_irrefl _)] at hnew
  have hnowhere : ∀ k, m.presentAt broken k m.nextReq = 0 := by
    intro k
    by_cases hk : k = (m.request m.nextReq).netloc
    · rw [hk]
      omega
    · exact h.others _ k hk
  constructor
  · intro r
    change m.presentAt broken _ r + m.done.count r + m.failed.count r + _ ≤ _
    by_cases hr : r = m.nextReq
    · subst hr
      rw [hnowhere, hnext, if_pos (Nat.lt_succ_self _), List.count_cons_self]
      omega
    · have hown := h.own r
      rw [hother r hr, hnext, List.count_cons_of_ne (Ne.symm hr)]
      by_cases hlt : r < m.nextReq
      · rw [if_pos hlt] at hown
        rw [if_pos (Nat.lt_succ_of_lt hlt)]
        exact hown
      · rw [if_neg hlt] at hown
        rw [if_neg fun hle => hlt (lt_of_le_of_ne (Nat.le_of_lt_succ hle) hr)]
        exact hown
  · intro r k hk
    change m.presentAt broken k r = 0
    by_cases hr : r = m.nextReq
    · rw [hr]
      exact hnowhere k
    · rw [hother r hr] at hk
      exact h.others r k hk

/-- A reset loses the waiting requests; those of the connections can still be completed. -/
theorem presentAt_reset_le (m : ConnectionManager) (k : NetLoc) (r : ReqId) :
    m.reset.presentAt broken k r ≤ m.presentAt broken k r := by
  have hheld : m.reset.heldAt k r = 0 := rfl
  unfold presentAt strays
  rw [hheld, heldAt_eq]
  unfold ConnectionManager.reset Cnx.keep
  simp only [List.filter_append, Cnx.countAll_append]
  cases m.servers k with
  | none => simp
  | some server =>
    have hle : Cnx.countAll r (server.connections.filter fun c => (k, c.instNum) ∉ broken) ≤
        Cnx.countAll r server.connections :=
      Cnx.countAll_le_of_sublist List.filter_sublist
    simp only [Option.elim_some, Server.held]
    omega

/-- A call of the user keeps every request in one place. -/
theorem OnePlace.userCall (h : m.OnePlace broken hand) (call : UserCall) :
    (m.userCall call).OnePlace broken hand := by
  cases call with
  | submit netloc => exact (h.created netloc).submitRequest
  | reset => exact h.congr (presentAt_reset_le m) (fun r => rfl) rfl rfl rfl

/-- The calls of the user keep every request in one place. -/
theorem OnePlace.userCalls (h : m.OnePlace broken hand) (calls : List UserCall) :
    (m.userCalls calls).OnePlace broken hand := by
  induction calls generalizing m with
  | nil => exact h
  | cons call rest ih => exact ih (h.userCall call)

/-! ## Changing a connection -/

/-- Changing a connection that is not broken. -/
theorem presentAt_updateCnx {f : Cnx → Cnx} {c : Cnx} (hf : ∀ c, (f c).instNum = c.instNum)
    (hunbroken : (netloc, n) ∉ broken) (hc : m.cnx netloc n = some c) (k : NetLoc) (r : ReqId) :
    (m.updateCnx netloc n f).presentAt broken k r + (if k = netloc then c.count r else 0) =
      m.presentAt broken k r + if k = netloc then (f c).count r else 0 := by
  cases hlive : m.isLive netloc n with
  | true =>
    obtain ⟨server, d, hserver, hd⟩ := exists_of_isLive hlive
    obtain rfl : d = c := by simpa [cnx, hserver, hd] using hc
    have hheld := heldAt_updateCnx r f hserver hd k
    have hstrays : (m.updateCnx netloc n f).strays broken k = m.strays broken k := by
      unfold updateCnx
      rw [if_pos hlive]
      rfl
    unfold presentAt
    rw [hstrays]
    omega
  | false =>
    rw [cnx_of_not_isLive hlive] at hc
    have hheld : (m.updateCnx netloc n f).heldAt k r = m.heldAt k r := by
      unfold updateCnx
      rw [hlive]
      rfl
    unfold presentAt
    rw [hheld]
    by_cases hk : k = netloc
    · subst hk
      have hstrays : (m.updateCnx k n f).strays broken k =
          Cnx.update n f (m.strays broken k) := by
        unfold updateCnx strays
        rw [hlive]
        simp only [Bool.false_eq_true, if_false, Function.update_self]
        exact Cnx.keep_update hf (by simpa using hunbroken)
      have hfind : Cnx.find n (m.strays broken k) = some c := by
        unfold strays
        rw [Cnx.find_keep (by simpa using hunbroken)]
        exact hc
      have hcount := Cnx.countAll_update r f hfind
      rw [hstrays, if_pos rfl, if_pos rfl]
      omega
    · have hstrays : (m.updateCnx netloc n f).strays broken k = m.strays broken k := by
        unfold updateCnx strays
        rw [hlive]
        simp [hk]
      rw [hstrays, if_neg hk, if_neg hk]

/-- A change that adds requests to a connection. -/
theorem presentAt_updateCnx_le {f : Cnx → Cnx} {d : Nat} (hf : ∀ c, (f c).instNum = c.instNum)
    (hd : ∀ c, (f c).count r = c.count r + d) (hunbroken : (netloc, n) ∉ broken) (k : NetLoc) :
    (m.updateCnx netloc n f).presentAt broken k r ≤
      m.presentAt broken k r + if k = netloc then d else 0 := by
  cases hc : m.cnx netloc n with
  | some c =>
    have hcount := presentAt_updateCnx hf hunbroken hc k r
    rw [hd] at hcount
    split_ifs at hcount ⊢ <;> omega
  | none =>
    -- there is no such connection
    have hlive : m.isLive netloc n = false := by
      cases hlive : m.isLive netloc n with
      | false => rfl
      | true =>
        obtain ⟨server, c, hserver, hfind⟩ := exists_of_isLive hlive
        simp [cnx, hserver, hfind] at hc
    rw [cnx_of_not_isLive hlive] at hc
    have hsame : m.updateCnx netloc n f = m := by
      unfold updateCnx
      rw [hlive, Cnx.update_of_find_eq_none hc]
      simp
    rw [hsame]
    exact Nat.le_add_right _ _

/-! ## The operations -/

/-- Requests are taken from a location into the hands of the manager. -/
theorem OnePlace.take {reqs : List ReqId} (h : m.OnePlace broken hand) (netloc : NetLoc)
    (hpresent : ∀ k r, m'.presentAt broken' k r + (if k = netloc then reqs.count r else 0) ≤
      m.presentAt broken k r)
    (hrequest : m'.request = m.request) (hnext : m'.nextReq = m.nextReq)
    (hdone : m'.done = m.done) (hfailed : m'.failed = m.failed) :
    m'.OnePlace broken' (reqs ++ hand) := by
  constructor
  · intro r
    have hown := h.own r
    have hle := hpresent (m.request r).netloc r
    rw [hrequest, hnext, hdone, hfailed, List.count_append]
    by_cases hr : (m.request r).netloc = netloc
    · rw [if_pos hr] at hle
      omega
    · -- a request of another location is not among those that are taken
      have hnot : reqs.count r = 0 := by
        have hat := hpresent netloc r
        have hzero := h.others r netloc (Ne.symm hr)
        rw [if_pos rfl] at hat
        omega
      rw [if_neg hr] at hle
      omega
  · intro r k hk
    rw [hrequest] at hk
    have hzero := h.others r k hk
    have hle := hpresent k r
    omega

/-- A request whose response is done has its verdict. -/
theorem OnePlace.notified (h : m.OnePlace broken (q :: hand)) :
    OnePlace { m with done := m.done ++ [q] } broken hand := by
  refine ⟨fun r => ?_, h.others⟩
  have hown := h.own r
  rw [List.count_cons] at hown
  change m.presentAt broken (m.request r).netloc r + (m.done ++ [q]).count r + m.failed.count r +
    hand.count r ≤ if r < m.nextReq then 1 else 0
  rw [List.count_append, List.count_cons, List.count_nil]
  omega

/-- A request whose error is reported has its verdict. -/
theorem OnePlace.reported (h : m.OnePlace broken (q :: hand)) :
    OnePlace { m with failed := m.failed ++ [q] } broken hand := by
  refine ⟨fun r => ?_, h.others⟩
  have hown := h.own r
  rw [List.count_cons] at hown
  change m.presentAt broken (m.request r).netloc r + m.done.count r + (m.failed ++ [q]).count r +
    hand.count r ≤ if r < m.nextReq then 1 else 0
  rw [List.count_append, List.count_cons, List.count_nil]
  omega

/-- A waiting request that is handed out has one place. -/
theorem OnePlace.cnxRequestDoneCb (h : m.OnePlace broken hand) (hunbroken : (netloc, n) ∉ broken)
    (hcb : m.cnxRequestDoneCb netloc n = .ok m') : m'.OnePlace broken hand := by
  unfold ConnectionManager.cnxRequestDoneCb at hcb
  split at hcb
  · simp at hcb
  · rename_i server hserver
    split at hcb
    · obtain rfl := Except.ok.inj hcb
      exact h
    · rename_i q rest hrequests
      obtain rfl := Except.ok.inj hcb
      obtain ⟨u, hu⟩ : ∃ u, m.setServer netloc (some { server with requests := rest }) = u :=
        ⟨_, rfl⟩
      rw [hu]
      obtain ⟨hrequest, hnext, hdone, hfailed⟩ := updateCnx_spec u netloc n (Cnx.submitRequest q)
      -- the request leaves the waiting list and joins the connection
      have htaken : ∀ k r, u.presentAt broken k r + (if k = netloc then [q].count r else 0) =
          m.presentAt broken k r := by
        intro k r
        have hset := heldAt_setServer m netloc r k (some { server with requests := rest })
        rw [hu] at hset
        have hstrays : u.strays broken k = m.strays broken k := by
          rw [← hu]
          rfl
        unfold presentAt
        rw [hstrays, hset]
        by_cases hk : k = netloc
        · subst hk
          rw [if_pos rfl, if_pos rfl, heldAt_eq, hserver]
          simp only [Option.elim_some, Server.held, hrequests, List.count_cons, List.count_nil]
          omega
        · rw [if_neg hk, if_neg hk]
          omega
      have hjoined : ∀ k r, (u.updateCnx netloc n (Cnx.submitRequest q)).presentAt broken k r ≤
          u.presentAt broken k r + if k = netloc then [q].count r else 0 := by
        intro k r
        exact presentAt_updateCnx_le (fun _ => Cnx.instNum_submitRequest)
          (fun _ => Cnx.count_submitRequest) hunbroken k
      refine h.congr (fun k r => ?_) (fun r => ?_) ?_ ?_ ?_
      · have h1 := htaken k r
        have h2 := hjoined k r
        omega
      · rw [hrequest, ← hu]
        rfl
      · rw [hnext, ← hu]
        rfl
      · rw [hdone, ← hu]
        rfl
      · rw [hfailed, ← hu]
        rfl

/-- A response is done on a connection that is not broken. -/
theorem responseDoneWith_keeps {calls : List UserCall} (hrecords : m.Records j [])
    (hone : m.OnePlace broken [])
    (hunbroken : (netloc, n) ∈ broken → ((m.cnx netloc n).bind fun c => c.active.head?) = none)
    (h : m.responseDoneWith netloc n calls = .ok m') :
    m'.Records (j ++ m.responseDoneDeeds netloc n calls) [] ∧ m'.OnePlace broken [] := by
  unfold responseDoneWith at h
  unfold responseDoneDeeds
  cases hreq : (m.cnx netloc n).bind fun c => c.active.head? with
  | none =>
    simp only [hreq] at h
    obtain rfl := Except.ok.inj h
    simpa using ⟨hrecords, hone⟩
  | some req =>
    simp only [hreq] at h
    have hnot : (netloc, n) ∉ broken := by
      intro hmem
      rw [hunbroken hmem] at hreq
      simp at hreq
    obtain ⟨c, hcnx, hactive⟩ := Option.bind_eq_some_iff.mp hreq
    obtain ⟨rest, hrest⟩ := List.head?_eq_some_iff.mp hactive
    have hcount : ∀ r, c.count r = (Cnx.popActive c).count r + [req].count r := by
      intro r
      simp only [Cnx.popActive, Cnx.count, hrest, List.tail_cons, List.count_cons, List.count_nil]
      omega
    obtain ⟨u, hu⟩ : ∃ u, m.updateCnx netloc n Cnx.popActive = u := ⟨_, rfl⟩
    obtain ⟨hrequest, hnext, hdone, hfailed⟩ := updateCnx_spec m netloc n Cnx.popActive
    have hpopped : u.OnePlace broken ([req] ++ []) := by
      rw [hu] at hrequest hnext hdone hfailed
      refine hone.take netloc (fun k r => ?_) hrequest hnext hdone hfailed
      have hupdate := presentAt_updateCnx (f := Cnx.popActive) (fun _ => rfl) hnot hcnx k r
      rw [hu, hcount r] at hupdate
      split_ifs at hupdate ⊢ <;> omega
    have hrecords' : u.Records j [] := by
      rw [← hu]
      exact hrecords.updateCnx Cnx.popActive
    simp only [hu] at h ⊢
    split at h
    · simp at h
    · rename_i t hcb
      obtain rfl := Except.ok.inj h
      have hcalled := (hrecords'.notified req).userCalls calls
      have hcalledOne := hpopped.notified.userCalls calls
      refine ⟨?_, ?_⟩
      · rw [← List.append_assoc, ← List.append_assoc]
        exact (hcalled.cnxRequestDoneCb hcb).updateCnx _
      · obtain ⟨hrequest', hnext', hdone', hfailed'⟩ :=
          updateCnx_spec t netloc n Cnx.httpWriteToOutbuf
        refine (hcalledOne.cnxRequestDoneCb hnot hcb).congr (fun k r => ?_) (fun r => ?_) hnext'
          hdone' hfailed'
        · simpa using presentAt_updateCnx_le (m := t) (r := r) (d := 0)
            (fun _ => Cnx.instNum_httpWriteToOutbuf) (fun _ => Cnx.count_httpWriteToOutbuf) hnot k
        · rw [hrequest']

/-- The loop over the requests that are in the hands of the manager. -/
theorem retryRequestsWith_keeps (errorCb : ReqId → List UserCall) {reqs : List ReqId}
    (hrecords : m.Records j []) (hone : m.OnePlace broken reqs) :
    (retryRequestsWith errorCb m reqs).Records (j ++ retryDeeds errorCb m reqs) [] ∧
      (retryRequestsWith errorCb m reqs).OnePlace broken [] := by
  induction reqs generalizing m j with
  | nil =>
    simp only [retryRequestsWith, retryDeeds, List.append_nil]
    exact ⟨hrecords, hone⟩
  | cons req rest ih =>
    simp only [retryRequestsWith, retryDeeds]
    split
    · rename_i hretries
      rw [← List.append_assoc, ← List.append_assoc]
      exact ih ((hrecords.reported hretries).userCalls (errorCb req))
        (hone.reported.userCalls (errorCb req))
    · rename_i hretries
      have hlt : req < m.nextReq := hone.lt_nextReq (by simp)
      rw [← List.append_assoc, ← List.append_assoc]
      refine ih (hrecords.counted hlt hretries ?_ ?_).submitRequest (OnePlace.submitRequest ?_)
      · rfl
      · rfl
      · refine hone.congr (fun k r => le_rfl) (fun r => ?_) rfl rfl rfl
        by_cases hr : r = req
        · subst hr
          simp
        · simp [hr]

/-- The requests of a released connection are in the hands of the manager. -/
theorem OnePlace.releaseConn {conn : Cnx} (h : m.OnePlace broken [])
    (hrelease : m.releaseConn netloc n = .ok (m', conn)) :
    m'.OnePlace (broken ++ [(netloc, n)]) conn.active := by
  obtain ⟨hrequest, hnext, hdone, hfailed, dropped, -, hheld⟩ := heldAt_releaseConn hrelease
  obtain ⟨hnum, -⟩ := nums_releaseConn hrelease
  have hreleased : m'.released =
      Function.update m.released netloc (m.released netloc ++ [conn]) := by
    unfold ConnectionManager.releaseConn at hrelease
    split at hrelease
    · simp at hrelease
    · split at hrelease
      · simp at hrelease
      · obtain ⟨rfl, rfl⟩ := Prod.mk.inj (Except.ok.inj hrelease)
        rfl
  -- the released connection is broken, and the others are as before
  have hstrays : ∀ k r, Cnx.countAll r (m'.strays (broken ++ [(netloc, n)]) k) ≤
      Cnx.countAll r (m.strays broken k) := by
    intro k r
    have hsub : (m'.strays (broken ++ [(netloc, n)]) k).Sublist (m.strays broken k) := by
      unfold strays Cnx.keep
      rw [hreleased]
      by_cases hk : k = netloc
      · subst hk
        rw [Function.update_self, List.filter_append]
        have hnone : List.filter (fun c => decide ((k, c.instNum) ∉ broken ++ [(k, n)]))
            [conn] = [] := by
          simp [hnum]
        rw [hnone, List.append_nil]
        exact List.monotone_filter_right _ fun c hc => by simp at hc ⊢; exact hc.1
      · rw [Function.update_of_ne hk]
        exact List.monotone_filter_right _ fun c hc => by simp at hc ⊢; exact hc.1
    exact Cnx.countAll_le_of_sublist hsub
  rw [← List.append_nil conn.active]
  refine h.take netloc (fun k r => ?_) hrequest hnext hdone hfailed
  have hle := hstrays k r
  have hat := hheld k r
  unfold presentAt
  unfold Cnx.count at hat
  split_ifs at hat ⊢ <;> omega

/-! ## Runs -/

/-- What is kept along a run. -/
structure Journal.Told (w : Journal) : Prop where
  records : w.manager.Records w.deeds []
  one : w.manager.OnePlace w.broken []

/-- A new manager has told nothing. -/
theorem Journal.told_new (maxPersist maxRetries : Nat) :
    (Journal.new maxPersist maxRetries).Told := by
  have hwait : ∀ k r, (Journal.new maxPersist maxRetries).manager.waitingAt k r = 0 :=
    fun _ _ => rfl
  have hpresent : ∀ k r, (Journal.new maxPersist maxRetries).manager.presentAt [] k r = 0 :=
    fun _ _ => rfl
  constructor
  · constructor
    · intro r
      rw [hwait]
      simp [Journal.new]
    · exact fun r k _ => hwait k r
    · exact fun r => rfl
    · exact fun r => Nat.zero_le _
    · exact fun r _ => rfl
    · rfl
    · rfl
    · intro i r hi
      simp [Journal.new] at hi
  · constructor
    · intro r
      change (Journal.new maxPersist maxRetries).manager.presentAt [] _ r + _ + _ + _ ≤ _
      rw [hpresent]
      simp [Journal.new, ConnectionManager.new]
    · exact fun r k _ => hpresent k r

/-- A step of an unbroken connection tells each verdict once. -/
theorem Journal.Told.step {w w' : Journal} {e : Occasion} (h : w.Told) (hunbroken : w.Unbroken e)
    (hstep : w.step e = .ok w') : w'.Told := by
  unfold Journal.step at hstep
  split at hstep
  · simp at hstep
  · rename_i m hoccur
    obtain rfl := Except.ok.inj hstep
    obtain ⟨hrecords, hone⟩ := h
    cases e with
    | call c =>
      obtain rfl := Except.ok.inj hoccur
      refine ⟨hrecords.userCall c, ?_⟩
      simpa only [Journal.breaks, List.append_nil] using hone.userCall c
    | bodyData netloc instNum len =>
      obtain rfl := Except.ok.inj hoccur
      simp only [Journal.breaks, ConnectionManager.deeds, List.append_nil]
      unfold responseBodyData
      split
      · exact ⟨hrecords, hone⟩
      · rename_i req hreq
        have hsame : ∀ r, (Function.update w.manager.request req
            { w.manager.request req with
              bodySize := (w.manager.request req).bodySize + len } r).netloc =
              (w.manager.request r).netloc ∧
            (Function.update w.manager.request req
            { w.manager.request req with
              bodySize := (w.manager.request req).bodySize + len } r).numRetries =
              (w.manager.request r).numRetries := by
          intro r
          by_cases hr : r = req
          · subst hr
            simp
          · simp [hr]
        constructor
        · exact hrecords.congr (fun _ _ => le_rfl) hsame rfl rfl rfl rfl
        · exact hone.congr (fun _ _ => le_rfl) (fun r => (hsame r).1) rfl rfl rfl
    | responseDone netloc instNum calls =>
      have hkeeps := responseDoneWith_keeps hrecords hone hunbroken hoccur
      refine ⟨hkeeps.1, ?_⟩
      simpa only [Journal.breaks, List.append_nil] using hkeeps.2
    | unusable netloc instNum errorCb =>
      simp only [occur, handleUnusableConnWith] at hoccur
      split at hoccur
      · simp at hoccur
      · rename_i t conn hrelease
        split at hoccur
        · obtain rfl := Except.ok.inj hoccur
          simp only [ConnectionManager.deeds, hrelease, Journal.breaks]
          obtain ⟨hrequest, hnext, hdone, hfailed, dropped, -, hheld⟩ := heldAt_releaseConn hrelease
          have hreleased : t.Records w.deeds [] := by
            refine hrecords.congr (fun k r => ?_) (fun r => ?_) hnext ?_ hdone hfailed
            · exact waitingAt_releaseConn_le hrelease k r
            · rw [hrequest]
              exact ⟨rfl, rfl⟩
            · exact maxRetries_releaseConn hrelease
          obtain ⟨h1, h2⟩ := retryRequestsWith_keeps errorCb hreleased (hone.releaseConn hrelease)
          exact ⟨h1, h2⟩
        · simp at hoccur
    | delete netloc instNum =>
      obtain rfl := Except.ok.inj hoccur
      simp only [Journal.breaks, ConnectionManager.deeds, List.append_nil]
      constructor
      · exact hrecords.congr (fun _ _ => le_rfl) (fun _ => ⟨rfl, rfl⟩) rfl rfl rfl rfl
      · refine hone.congr (fun k r => ?_) (fun _ => rfl) rfl rfl rfl
        refine Nat.add_le_add_left (Cnx.countAll_le_of_sublist ?_) _
        unfold strays Cnx.keep
        by_cases hk : k = netloc
        · subst hk
          simp only [Function.update_self]
          exact Cnx.erase_sublist.filter _
        · simp only [Function.update_of_ne hk]
          exact List.Sublist.refl _

/-- A run keeps the bound of the retries. -/
theorem Journal.maxRetries_run {maxRetries : Nat} {w w' : Journal} {es : List Occasion}
    (hmax : w.manager.maxRetries = maxRetries) (hrun : runSteps Journal.step w es = .ok w') :
    w'.manager.maxRetries = maxRetries := by
  refine invariant_of_steps (fun u => u.manager.maxRetries = maxRetries) ?_ hmax hrun
  intro u e u' hu hstep
  unfold Journal.step at hstep
  split at hstep
  · simp at hstep
  · rename_i m hoccur
    obtain rfl := Except.ok.inj hstep
    exact (maxRetries_occur hoccur).trans hu

/-- In every run without a failed assertion in which no response is completed on a connection that
failed, a request is handed to a connection at most `maxRetries + 1` times, it is told at most one
verdict, and before its error is reported it is requested again `maxRetries` times. -/
theorem oneVerdict_of_unbroken (maxPersist maxRetries : Nat) (es : List Occasion) {w : Journal}
    (hunbroken : StepsMeet Journal.step Journal.Unbroken (Journal.new maxPersist maxRetries) es)
    (hrun : runSteps Journal.step (Journal.new maxPersist maxRetries) es = .ok w) (r : ReqId) :
    w.deeds.count (.handed r) ≤ maxRetries + 1 ∧
      w.deeds.count (.done r) + w.deeds.count (.failed r) ≤ 1 ∧
      ∀ i, w.deeds[i]? = some (.failed r) → (w.deeds.take i).count (.retried r) = maxRetries := by
  have htold : w.Told :=
    invariant_of_stepsMeet Journal.Told (fun u e u' hu hmeets hstep => hu.step hmeets hstep)
      (Journal.told_new maxPersist maxRetries) hunbroken hrun
  have hmax : w.manager.maxRetries = maxRetries := Journal.maxRetries_run rfl hrun
  obtain ⟨hrecords, hone⟩ := htold
  refine ⟨?_, ?_, fun i hi => ?_⟩
  · have hhanded := hrecords.handed r
    have hbound := hrecords.bound r
    split_ifs at hhanded <;> omega
  · have hown := hone.own r
    rw [← count_doneRequests, ← count_failedRequests, hrecords.done, hrecords.failed]
    split_ifs at hown <;> omega
  · rw [← hmax]
    exact hrecords.exhausted i r hi

/-- A request whose connection fails, and whose retry is answered. -/
theorem oneVerdict_of_unbroken_retried : ∃ w : Journal,
    runSteps Journal.step (Journal.new 1 1)
      [.call (.submit ([], 80)), .unusable ([], 80) 0 fun _ => [],
        .responseDone ([], 80) 1 []] = .ok w ∧
    w.deeds = [.handed 0, .retried 0, .handed 0, .done 0] ∧
    w.deeds.count (.done 0) + w.deeds.count (.failed 0) ≤ 1 := by
  set es : List Occasion := [.call (.submit ([], 80)), .unusable ([], 80) 0 fun _ => [],
    .responseDone ([], 80) 1 []] with hes
  have hunbroken : StepsMeet Journal.step Journal.Unbroken (Journal.new 1 1) es := by
    rw [hes]
    decide +kernel
  have hdeeds : (runSteps Journal.step (Journal.new 1 1) es).map (fun w => w.deeds) =
      .ok [.handed 0, .retried 0, .handed 0, .done 0] := by
    rw [hes]
    decide +kernel
  cases hrun : runSteps Journal.step (Journal.new 1 1) es with
  | error fault => simp [hrun, Except.map] at hdeeds
  | ok w =>
    have hw : w.deeds = [.handed 0, .retried 0, .handed 0, .done 0] := by
      simpa [hrun, Except.map] using hdeeds
    exact ⟨w, rfl, hw, (oneVerdict_of_unbroken 1 1 es hunbroken hrun 0).2.1⟩

/-- The connection of a request reports an error, and the read handler of the same turn receives the
rest of the response. The request was requested again, and it is told a second time that its
response is done. -/
theorem not_oneVerdict_released : ∃ w : Journal,
    runSteps Journal.step (Journal.new 1 1)
      [.call (.submit ([], 80)), .unusable ([], 80) 0 fun _ => [], .responseDone ([], 80) 0 [],
        .responseDone ([], 80) 1 []] = .ok w ∧
    ¬w.deeds.count (.done 0) + w.deeds.count (.failed 0) ≤ 1 := by
  set es : List Occasion := [.call (.submit ([], 80)), .unusable ([], 80) 0 fun _ => [],
    .responseDone ([], 80) 0 [], .responseDone ([], 80) 1 []] with hes
  have hdeeds : (runSteps Journal.step (Journal.new 1 1) es).map (fun w => w.deeds) =
      .ok [.handed 0, .retried 0, .handed 0, .done 0, .done 0] := by
    rw [hes]
    decide +kernel
  cases hrun : runSteps Journal.step (Journal.new 1 1) es with
  | error fault => simp [hrun, Except.map] at hdeeds
  | ok w =>
    have hw : w.deeds = [.handed 0, .retried 0, .handed 0, .done 0, .done 0] := by
      simpa [hrun, Except.map] using hdeeds
    refine ⟨w, rfl, ?_⟩
    rw [hw]
    decide

end ConnectionManager

end ShadowExtras.Web
