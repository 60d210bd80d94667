import ShadowExtras.Web.ConnectionManagerPlaces

/-!
# How many requests a connection carries

The manager hands a request only to a connection that is idle, or that reports that it has just
become idle. So a connection carries at most one request (`Cnx.Single`), and none of them is pending
when the connection becomes unusable.

But a completing response notifies its request before it reports to the manager, and the callback
may submit. A request that is submitted to the same location can take the connection that has just
become idle, and the report then hands it another one. `ServesCallback` excludes that: the callback
submits nothing to the location, or nothing waits there and there is a connection for each of its
requests.
-/

namespace ShadowExtras.Web

open Foundation

/-! ## Connections -/

namespace Cnx

/-- A connection with at most one request, which is not pending. -/
structure Single (c : Cnx) : Prop where
  submitted : c.submitted = []
  active : c.active.length ≤ 1

/-- The number of idle connections. -/
def idle (cs : List Cnx) : Nat := cs.countP fun c => c.getQueueSize = 0

variable {c : Cnx} {cs cs' : List Cnx} {instNum : Nat} {req : ReqId}

/-- A connection with one request has a queue of at most one. -/
theorem Single.getQueueSize_le (h : c.Single) : c.getQueueSize ≤ 1 := by
  have := h.active
  rw [getQueueSize, h.submitted, List.length_nil]
  omega

/-- An idle connection carries the request that it is handed. -/
theorem single_submitRequest (h : c.getQueueSize = 0) : (c.submitRequest req).Single := by
  have hsubmitted : c.submitted = [] := by
    rw [← List.length_eq_zero_iff]
    unfold getQueueSize at h
    omega
  have hactive : c.active = [] := by
    rw [← List.length_eq_zero_iff]
    unfold getQueueSize at h
    omega
  simp only [submitRequest, httpWriteToOutbuf, hsubmitted, hactive, List.nil_append,
    List.length_nil, Nat.lt_irrefl, if_false]
  exact ⟨rfl, le_rfl⟩

/-- A connection that gets a request is not idle. -/
theorem getQueueSize_submitRequest (h : c.getQueueSize = 0) :
    (c.submitRequest req).getQueueSize ≠ 0 := by
  unfold getQueueSize at h
  have hlengths : c.submitted.length = 0 ∧ c.active.length = 0 := by omega
  have hsubmitted := List.length_eq_zero_iff.mp hlengths.1
  have hactive := List.length_eq_zero_iff.mp hlengths.2
  simp [submitRequest, httpWriteToOutbuf, hsubmitted, hactive, getQueueSize]

/-- Nothing is left on a connection after its only response. -/
theorem getQueueSize_popActive (h : c.Single) : c.popActive.getQueueSize = 0 := by
  have := h.active
  simp only [getQueueSize, popActive, h.submitted, List.length_nil, List.length_tail]
  omega

/-- A connection whose request is done has none. -/
theorem single_popActive (h : c.Single) : c.popActive.Single := by
  have := h.active
  refine ⟨h.submitted, ?_⟩
  simp only [popActive, List.length_tail]
  omega

/-- Without a pending request there is nothing to write. -/
theorem httpWriteToOutbuf_of_single (h : c.Single) : c.httpWriteToOutbuf = c := by
  unfold httpWriteToOutbuf
  rw [h.submitted]

/-- While a request is active nothing is written. -/
theorem httpWriteToOutbuf_of_active (h : c.active ≠ []) : c.httpWriteToOutbuf = c := by
  unfold httpWriteToOutbuf
  split
  · rfl
  · rw [if_pos (List.length_pos_iff.mpr h)]

/-- Submitting changes an idle connection only. -/
theorem mem_submitIdle (h : submitIdle req cs = some cs') (hc : c ∈ cs') :
    c ∈ cs ∨ ∃ d ∈ cs, d.getQueueSize = 0 ∧ c = d.submitRequest req := by
  induction cs generalizing cs' with
  | nil => simp [submitIdle] at h
  | cons d cs ih =>
    simp only [submitIdle] at h
    split at h
    · rename_i hd
      obtain rfl := Option.some.inj h
      rcases List.mem_cons.mp hc with rfl | hc
      · exact .inr ⟨d, by simp, hd, rfl⟩
      · exact .inl (by simp [hc])
    · obtain ⟨cs'', hcs'', rfl⟩ := Option.map_eq_some_iff.mp h
      rcases List.mem_cons.mp hc with rfl | hc
      · exact .inl (by simp)
      · rcases ih hcs'' hc with hc | ⟨e, he, hidle, rfl⟩
        · exact .inl (by simp [hc])
        · exact .inr ⟨e, by simp [he], hidle, rfl⟩

/-- One idle connection less. -/
theorem idle_submitIdle (h : submitIdle req cs = some cs') : idle cs' + 1 = idle cs := by
  induction cs generalizing cs' with
  | nil => simp [submitIdle] at h
  | cons d cs ih =>
    simp only [submitIdle] at h
    split at h
    · rename_i hd
      obtain rfl := Option.some.inj h
      simp only [idle, List.countP_cons, hd, getQueueSize_submitRequest hd, decide_true,
        decide_false, if_true]
      simp
    · rename_i hd
      obtain ⟨cs'', hcs'', rfl⟩ := Option.map_eq_some_iff.mp h
      have := ih hcs''
      simp only [idle, List.countP_cons, hd, decide_false] at this ⊢
      simpa using this

/-- There is no idle connection. -/
theorem idle_of_submitIdle_eq_none (h : submitIdle req cs = none) : idle cs = 0 := by
  induction cs with
  | nil => rfl
  | cons d cs ih =>
    simp only [submitIdle] at h
    split at h
    · simp at h
    · rename_i hd
      have := ih (by simpa using h)
      simpa [idle, hd] using this

/-- Changing a connection changes the one that is found. -/
theorem mem_update {f : Cnx → Cnx} (hc : c ∈ update instNum f cs) :
    c ∈ cs ∨ ∃ d, find instNum cs = some d ∧ c = f d := by
  induction cs with
  | nil => simp [update] at hc
  | cons d cs ih =>
    by_cases hd : d.instNum = instNum
    · rw [update, if_pos hd] at hc
      rcases List.mem_cons.mp hc with rfl | hc
      · exact .inr ⟨d, by simp [find, hd], rfl⟩
      · exact .inl (by simp [hc])
    · rw [update, if_neg hd] at hc
      rcases List.mem_cons.mp hc with rfl | hc
      · exact .inl (by simp)
      · rcases ih hc with hc | ⟨e, he, rfl⟩
        · exact .inl (by simp [hc])
        · exact .inr ⟨e, by simp [find, hd, he], rfl⟩

/-- A connection that is found is in the list. -/
theorem mem_of_find (h : find instNum cs = some c) : c ∈ cs := by
  induction cs with
  | nil => simp [find] at h
  | cons d cs ih =>
    simp only [find] at h
    split at h
    · obtain rfl := Option.some.inj h
      simp
    · exact List.mem_cons_of_mem _ (ih h)

/-- Erasing adds no connection. -/
theorem mem_of_mem_erase (h : c ∈ erase instNum cs) : c ∈ cs := by
  induction cs with
  | nil => simp [erase] at h
  | cons d cs ih =>
    simp only [erase] at h
    split at h
    · exact List.mem_cons_of_mem _ h
    · rcases List.mem_cons.mp h with rfl | h
      · simp
      · exact List.mem_cons_of_mem _ (ih h)

/-- One more idle connection after a response. -/
theorem idle_update_popActive (hcs : ∀ c ∈ cs, c.Single) (h : find instNum cs = some c)
    (hactive : c.active ≠ []) : idle (update instNum popActive cs) = idle cs + 1 := by
  induction cs with
  | nil => simp [find] at h
  | cons d cs ih =>
    simp only [find] at h
    simp only [update]
    split at h
    · rename_i hd
      obtain rfl := Option.some.inj h
      have hbusy : d.getQueueSize ≠ 0 := by
        have := List.length_pos_iff.mpr hactive
        unfold getQueueSize
        omega
      have hpopped := getQueueSize_popActive (hcs d (by simp))
      simp [idle, hd, hbusy, hpopped]
    · rename_i hd
      have hrest := ih (fun c hc => hcs c (by simp [hc])) h
      simp only [idle] at hrest
      simp only [idle, hd, if_false, List.countP_cons, hrest]
      omega

/-- A change keeps the number of the connections. -/
@[simp] theorem length_update (f : Cnx → Cnx) : (update instNum f cs).length = cs.length := by
  induction cs with
  | nil => rfl
  | cons d cs ih =>
    by_cases hd : d.instNum = instNum
    · simp [update, hd]
    · simp [update, hd, ih]

/-- A submitted request takes a connection. -/
theorem length_submitIdle (h : submitIdle req cs = some cs') : cs'.length = cs.length := by
  induction cs generalizing cs' with
  | nil => simp [submitIdle] at h
  | cons d cs ih =>
    simp only [submitIdle] at h
    split at h
    · obtain rfl := Option.some.inj h
      simp
    · obtain ⟨cs'', hcs'', rfl⟩ := Option.map_eq_some_iff.mp h
      simp [ih hcs'']

/-- A connection that is found has the number. -/
theorem instNum_of_find (h : find instNum cs = some c) : c.instNum = instNum := by
  induction cs with
  | nil => simp [find] at h
  | cons d cs ih =>
    simp only [find] at h
    split at h
    · rename_i hd
      obtain rfl := Option.some.inj h
      exact hd
    · exact ih h

/-- A connection that is in neither list is not found. -/
theorem find_append_eq_none (h : find instNum cs = none) (h' : find instNum cs' = none) :
    find instNum (cs ++ cs') = none := by
  induction cs with
  | nil => exact h'
  | cons d cs ih =>
    simp only [find] at h
    split at h
    · simp at h
    · rename_i hd
      rw [List.cons_append, find, if_neg hd]
      exact ih h

end Cnx

namespace ConnectionManager

variable {s s' : ConnectionManager} {netloc : NetLoc} {q : ReqId} {instNum : Nat}

/-! ## One request for a connection -/

/-- The connections to a location that are not destroyed yet. -/
def cnxs (s : ConnectionManager) (netloc : NetLoc) : List Cnx :=
  (s.servers netloc).elim [] Server.connections ++ s.released netloc

/-- Every connection carries at most one request, and none is pending when a connection becomes
unusable. -/
structure CarriesOne (s : ConnectionManager) : Prop where
  size : ∀ netloc, ∀ c ∈ s.cnxs netloc, c.getQueueSize ≤ 1
  pending : ∀ netloc instNum errorCb,
    s.handleUnusableConn netloc instNum errorCb ≠ .error .noPending

/-- The requests that wait for a connection to a location. -/
def waiting (s : ConnectionManager) (netloc : NetLoc) : List ReqId :=
  (s.servers netloc).elim [] Server.requests

/-- How many more requests the connections to a location can carry. -/
def slots (s : ConnectionManager) (netloc : NetLoc) : Nat :=
  (s.servers netloc).elim s.maxPersist fun server =>
    Cnx.idle server.connections + (s.maxPersist - server.connections.length)

/-- When a response completes on a live connection, its callback submits nothing to the location, or
nothing waits there and the connections can carry all that it submits. -/
def ServesCallback (s : ConnectionManager) : Event → Prop
  | .responseDone netloc instNum netlocs => s.isLive netloc instNum = true →
      ∀ c ∈ s.cnx netloc instNum, c.active ≠ [] →
        netloc ∉ netlocs ∨ (s.waiting netloc = [] ∧ netlocs.count netloc ≤ s.slots netloc + 1)
  | _ => True

instance (s : ConnectionManager) (e : Event) : Decidable (s.ServesCallback e) := by
  match e with
  | .responseDone netloc instNum netlocs =>
    unfold ServesCallback
    infer_instance
  | .submit _ | .bodyData .. | .unusable .. | .delete .. => exact instDecidableTrue

/-- Every connection carries at most one request and has a number that was given out. -/
def AllSingle (s : ConnectionManager) : Prop :=
  ∀ netloc, ∀ c ∈ s.cnxs netloc, c.Single ∧ c.instNum < s.nextInstNum

/-! ## Looking up connections -/

/-- The connections at a location are listed or released. -/
theorem mem_cnxs {c : Cnx} : c ∈ s.cnxs netloc ↔
    (∃ server ∈ s.servers netloc, c ∈ server.connections) ∨ c ∈ s.released netloc := by
  unfold cnxs
  cases s.servers netloc <;> simp

/-- The connection with a number is one of the location. -/
theorem mem_cnxs_of_cnx {c : Cnx} (h : s.cnx netloc instNum = some c) : c ∈ s.cnxs netloc := by
  rw [mem_cnxs]
  unfold cnx at h
  cases hserver : s.servers netloc with
  | none =>
    rw [hserver] at h
    exact .inr (Cnx.mem_of_find h)
  | some server =>
    rw [hserver] at h
    rcases Option.or_eq_some_iff.mp h with h | ⟨-, h⟩
    · exact .inl ⟨server, rfl, Cnx.mem_of_find h⟩
    · exact .inr (Cnx.mem_of_find h)

/-- A live connection is found at its server. -/
theorem cnx_of_isLive (h : s.isLive netloc instNum = true) : ∃ server c,
    s.servers netloc = some server ∧ Cnx.find instNum server.connections = some c ∧
      s.cnx netloc instNum = some c := by
  unfold isLive at h
  split at h
  · simp at h
  · rename_i server hserver
    obtain ⟨c, hc⟩ := Option.isSome_iff_exists.mp h
    refine ⟨server, c, hserver, hc, ?_⟩
    simp only [cnx, hserver, hc, Option.some_or]

/-- A connection that is not live is looked for among the released ones. -/
theorem cnx_of_not_isLive (h : s.isLive netloc instNum = false) :
    s.cnx netloc instNum = Cnx.find instNum (s.released netloc) := by
  unfold isLive at h
  unfold cnx
  cases hserver : s.servers netloc with
  | none => rfl
  | some server =>
    rw [hserver] at h
    have hnone : Cnx.find instNum server.connections = none := by simpa using h
    simp only [hnone, Option.none_or]

/-- Where a connection is found depends on its location only. -/
theorem cnx_congr (hservers : s'.servers netloc = s.servers netloc)
    (hreleased : s'.released netloc = s.released netloc) :
    s'.cnx netloc instNum = s.cnx netloc instNum := by
  unfold cnx
  rw [hservers, hreleased]

/-- Whether a connection is live depends on the list of its location. -/
theorem isLive_congr (hservers : s'.servers netloc = s.servers netloc) :
    s'.isLive netloc instNum = s.isLive netloc instNum := by
  unfold isLive
  rw [hservers]

/-! ## The operations -/

/-- Changing a connection, live or released, changes the one that is found. -/
theorem mem_cnxs_updateCnx {f : Cnx → Cnx} {n : NetLoc} {c : Cnx}
    (hc : c ∈ (s.updateCnx netloc instNum f).cnxs n) :
    c ∈ s.cnxs n ∨ ∃ d, s.cnx netloc instNum = some d ∧ n = netloc ∧ c = f d := by
  unfold updateCnx at hc
  by_cases hlive : s.isLive netloc instNum = true
  · obtain ⟨server, d, hserver, hfind, hcnx⟩ := cnx_of_isLive hlive
    rw [if_pos hlive, hserver, Option.map_some] at hc
    rcases mem_cnxs.mp hc with ⟨sv, hsv, hc⟩ | hc
    · by_cases hn : n = netloc
      · subst hn
        simp only [setServer, Function.update_self, Option.mem_some_iff] at hsv
        subst hsv
        rcases Cnx.mem_update hc with hc | ⟨e, he, rfl⟩
        · exact .inl (mem_cnxs.mpr (.inl ⟨server, hserver, hc⟩))
        · rw [hfind] at he
          obtain rfl := Option.some.inj he
          exact .inr ⟨d, hcnx, rfl, rfl⟩
      · rw [setServer] at hsv
        simp only [Function.update_of_ne hn] at hsv
        exact .inl (mem_cnxs.mpr (.inl ⟨sv, hsv, hc⟩))
    · exact .inl (mem_cnxs.mpr (.inr hc))
  · have hcnx := cnx_of_not_isLive (Bool.not_eq_true _ ▸ hlive)
    rw [if_neg hlive] at hc
    rcases mem_cnxs.mp hc with hc | hc
    · exact .inl (mem_cnxs.mpr (.inl hc))
    · by_cases hn : n = netloc
      · subst hn
        simp only [Function.update_self] at hc
        rcases Cnx.mem_update hc with hc | ⟨e, he, rfl⟩
        · exact .inl (mem_cnxs.mpr (.inr hc))
        · exact .inr ⟨e, hcnx.trans he, rfl, rfl⟩
      · simp only [Function.update_of_ne hn] at hc
        exact .inl (mem_cnxs.mpr (.inr hc))

/-- A change of a connection uses no number. -/
@[simp] theorem nextInstNum_updateCnx (f : Cnx → Cnx) :
    (s.updateCnx netloc instNum f).nextInstNum = s.nextInstNum := by
  unfold updateCnx
  split <;> rfl

/-- Changing one connection. -/
theorem AllSingle.updateCnx {f : Cnx → Cnx} (h : s.AllSingle)
    (hnum : ∀ c, (f c).instNum = c.instNum)
    (hf : ∀ c, s.cnx netloc instNum = some c → (f c).Single) :
    (s.updateCnx netloc instNum f).AllSingle := by
  intro n c hc
  rw [nextInstNum_updateCnx]
  rcases mem_cnxs_updateCnx hc with hc | ⟨d, hd, rfl, rfl⟩
  · exact h n c hc
  · refine ⟨hf d hd, ?_⟩
    rw [hnum]
    exact (h n d (mem_cnxs_of_cnx hd)).2

/-- What `submit_request` does to a location: the request goes to an idle connection or to a new one
together with those that wait, or it waits as well. -/
theorem submitRequest_cases (s : ConnectionManager) (q : ReqId) :
    ∃ server, (s.submitRequest q).servers =
        Function.update s.servers (s.request q).netloc (some server) ∧
      (s.submitRequest q).released = s.released ∧
      (s.submitRequest q).maxPersist = s.maxPersist ∧
      let old := (s.servers (s.request q).netloc).getD { requests := [], connections := [] }
      let req := (old.requests ++ [q]).headD q
      (Cnx.submitIdle req old.connections = some server.connections ∧
          server.requests = (old.requests ++ [q]).tail ∧
          (s.submitRequest q).nextInstNum = s.nextInstNum) ∨
      (Cnx.submitIdle req old.connections = none ∧ old.connections.length < s.maxPersist ∧
          server.connections =
            old.connections ++ [(Cnx.new s.nextInstNum).submitRequest req] ∧
          server.requests = (old.requests ++ [q]).tail ∧
          (s.submitRequest q).nextInstNum = s.nextInstNum + 1) ∨
      (Cnx.submitIdle req old.connections = none ∧ s.maxPersist ≤ old.connections.length ∧
          server.connections = old.connections ∧
          server.requests = old.requests ++ [q] ∧
          (s.submitRequest q).nextInstNum = s.nextInstNum) := by
  obtain ⟨old, hold⟩ : ∃ old, (s.servers (s.request q).netloc).getD
      { requests := [], connections := [] } = old := ⟨_, rfl⟩
  unfold submitRequest
  simp only [hold]
  cases hidle : Cnx.submitIdle ((old.requests ++ [q]).headD q) old.connections with
  | some connections =>
    exact ⟨{ requests := (old.requests ++ [q]).tail, connections := connections }, rfl, rfl, rfl,
      .inl ⟨rfl, rfl, rfl⟩⟩
  | none =>
    by_cases hmax : old.connections.length < s.maxPersist
    · simp only [hmax, if_true]
      exact ⟨{ requests := (old.requests ++ [q]).tail
               connections := old.connections ++
                 [(Cnx.new s.nextInstNum).submitRequest ((old.requests ++ [q]).headD q)] },
        rfl, rfl, rfl, .inr (.inl ⟨trivial, trivial, rfl, rfl, trivial⟩)⟩
    · simp only [hmax, if_false]
      exact ⟨{ requests := old.requests ++ [q], connections := old.connections }, rfl, rfl, rfl,
        .inr (.inr ⟨trivial, Nat.le_of_not_lt hmax, rfl, rfl, rfl⟩)⟩

/-- A submitted request is handed to an idle connection or to a new one. -/
theorem AllSingle.submitRequest (h : s.AllSingle) (q : ReqId) : (s.submitRequest q).AllSingle := by
  obtain ⟨server, hservers, hreleased, -, hcases⟩ := submitRequest_cases s q
  intro n c hc
  have hle : s.nextInstNum ≤ (s.submitRequest q).nextInstNum := by
    rcases hcases with ⟨-, -, h⟩ | ⟨-, -, -, -, h⟩ | ⟨-, -, -, -, h⟩ <;> omega
  have hold : ∀ d ∈ s.cnxs n, d.Single ∧ d.instNum < (s.submitRequest q).nextInstNum := by
    intro d hd
    obtain ⟨hsingle, hnum⟩ := h n d hd
    exact ⟨hsingle, by omega⟩
  rcases mem_cnxs.mp hc with ⟨sv, hsv, hc⟩ | hc
  · rw [hservers] at hsv
    by_cases hn : n = (s.request q).netloc
    · subst hn
      simp only [Function.update_self, Option.mem_some_iff] at hsv
      subst hsv
      have hmem : ∀ d ∈ ((s.servers (s.request q).netloc).getD
          { requests := [], connections := [] }).connections, d ∈ s.cnxs (s.request q).netloc := by
        intro d hd
        cases hserver : s.servers (s.request q).netloc with
        | none => simp [hserver] at hd
        | some old => exact mem_cnxs.mpr (.inl ⟨old, hserver, by simpa [hserver] using hd⟩)
      rcases hcases with ⟨hidle, -, -⟩ | ⟨-, -, hconns, -, hnext⟩ | ⟨-, -, hconns, -, -⟩
      · rcases Cnx.mem_submitIdle hidle hc with hc | ⟨d, hd, hsize, rfl⟩
        · exact hold c (hmem c hc)
        · refine ⟨Cnx.single_submitRequest hsize, ?_⟩
          rw [Cnx.instNum_submitRequest]
          exact (hold d (hmem d hd)).2
      · rw [hconns] at hc
        rcases List.mem_append.mp hc with hc | hc
        · exact hold c (hmem c hc)
        · obtain rfl := List.mem_singleton.mp hc
          refine ⟨Cnx.single_submitRequest rfl, ?_⟩
          rw [Cnx.instNum_submitRequest, hnext]
          exact Nat.lt_succ_self _
      · rw [hconns] at hc
        exact hold c (hmem c hc)
    · rw [Function.update_of_ne hn] at hsv
      exact hold c (mem_cnxs.mpr (.inl ⟨sv, hsv, hc⟩))
  · rw [hreleased] at hc
    exact hold c (mem_cnxs.mpr (.inr hc))

/-- Submitting at another location. -/
theorem servers_submitRequest_of_ne (h : netloc ≠ (s.request q).netloc) :
    (s.submitRequest q).servers netloc = s.servers netloc := by
  obtain ⟨server, hservers, -⟩ := submitRequest_cases s q
  rw [hservers, Function.update_of_ne h]

@[simp] theorem released_submitRequest : (s.submitRequest q).released = s.released := by
  obtain ⟨server, -, hreleased, -⟩ := submitRequest_cases s q
  exact hreleased

/-- A number that was given out is not given out again. -/
theorem isLive_submitRequest_eq_false (hlive : s.isLive netloc instNum = false)
    (hnum : instNum < s.nextInstNum) :
    (s.submitRequest q).isLive netloc instNum = false ∧
      instNum < (s.submitRequest q).nextInstNum := by
  obtain ⟨server, hservers, -, -, hcases⟩ := submitRequest_cases s q
  refine ⟨?_, by rcases hcases with ⟨-, -, h⟩ | ⟨-, -, -, -, h⟩ | ⟨-, -, -, -, h⟩ <;> omega⟩
  by_cases hn : netloc = (s.request q).netloc
  · subst hn
    have hold : Cnx.find instNum ((s.servers (s.request q).netloc).getD
        { requests := [], connections := [] }).connections = none := by
      unfold isLive at hlive
      cases hserver : s.servers (s.request q).netloc with
      | none => rfl
      | some old => simpa [hserver] using hlive
    simp only [isLive, hservers, Function.update_self, Option.isSome_eq_false_iff,
      Option.isNone_iff_eq_none]
    rcases hcases with ⟨hidle, -, -⟩ | ⟨-, -, hconns, -, -⟩ | ⟨-, -, hconns, -, -⟩
    · have hsame : (Cnx.find instNum server.connections).isSome = _ :=
        Cnx.isSome_find_submitIdle hidle
      simpa [hold] using hsame
    · rw [hconns]
      exact Cnx.find_append_eq_none hold (by simp [Cnx.find, Cnx.new, Nat.ne_of_gt hnum])
    · rw [hconns]
      exact hold
  · rw [isLive_congr (servers_submitRequest_of_ne hn)]
    exact hlive

/-- Nothing waits while a connection can carry the request. -/
theorem waiting_submitRequest (hnetloc : (s.request q).netloc = netloc)
    (hwait : s.waiting netloc = []) (hslots : 0 < s.slots netloc) :
    (s.submitRequest q).waiting netloc = [] ∧
      (s.submitRequest q).slots netloc + 1 = s.slots netloc := by
  subst hnetloc
  obtain ⟨server, hservers, -, hmax, hcases⟩ := submitRequest_cases s q
  obtain ⟨old, hold⟩ : ∃ old, (s.servers (s.request q).netloc).getD
      { requests := [], connections := [] } = old := ⟨_, rfl⟩
  have hrequests : old.requests = [] := by
    rw [← hold]
    cases hserver : s.servers (s.request q).netloc with
    | none => rfl
    | some sv => simpa [waiting, hserver] using hwait
  have hslots_eq : s.slots (s.request q).netloc =
      Cnx.idle old.connections + (s.maxPersist - old.connections.length) := by
    rw [← hold]
    unfold slots
    cases hserver : s.servers (s.request q).netloc with
    | none => simp [Cnx.idle]
    | some sv => rfl
  simp only [hold, hrequests, List.nil_append, List.tail_cons, List.headD_cons] at hcases
  rw [hslots_eq] at hslots ⊢
  simp only [waiting, slots, hservers, Function.update_self, Option.elim_some, hmax]
  rcases hcases with ⟨hidle, hreq, -⟩ | ⟨hidle, hlt, hconns, hreq, -⟩ | ⟨hidle, hle, -, -, -⟩
  · have hcount := Cnx.idle_submitIdle hidle
    have hlength := Cnx.length_submitIdle hidle
    exact ⟨hreq, by omega⟩
  · have hbusy : ((Cnx.new s.nextInstNum).submitRequest q).getQueueSize ≠ 0 :=
      Cnx.getQueueSize_submitRequest rfl
    have hcount : Cnx.idle server.connections = Cnx.idle old.connections := by
      simp [hconns, Cnx.idle, hbusy]
    rw [hcount, hconns, List.length_append, List.length_singleton]
    exact ⟨hreq, by omega⟩
  · have := Cnx.idle_of_submitIdle_eq_none hidle
    omega

/-! ## What a callback submits -/

/-- The manager with a new request that is not submitted yet. -/
def created (s : ConnectionManager) (netloc : NetLoc) : ConnectionManager :=
  { s with
    request := Function.update s.request s.nextReq
      { netloc := netloc, numRetries := 0, bodySize := 0, firstBytePos := 0 }
    nextReq := s.nextReq + 1 }

theorem newRequest_eq (netloc : NetLoc) :
    s.newRequest netloc = (s.created netloc).submitRequest s.nextReq := rfl

@[simp] theorem netloc_created (netloc : NetLoc) :
    ((s.created netloc).request s.nextReq).netloc = netloc := by
  simp [created]

/-- A new request keeps one request on each connection. -/
theorem AllSingle.newRequest (h : s.AllSingle) (netloc : NetLoc) :
    (s.newRequest netloc).AllSingle := by
  have hcreated : (s.created netloc).AllSingle := h
  rw [newRequest_eq]
  exact hcreated.submitRequest s.nextReq

/-- New requests keep one request on each connection. -/
theorem AllSingle.submitAll (h : s.AllSingle) (netlocs : List NetLoc) :
    (s.submitAll netlocs).AllSingle := by
  unfold ConnectionManager.submitAll
  induction netlocs generalizing s with
  | nil => exact h
  | cons netloc rest ih =>
    apply ih
    exact h.newRequest netloc

/-- New requests release no connection. -/
theorem released_submitAll (netlocs : List NetLoc) :
    (s.submitAll netlocs).released = s.released := by
  unfold submitAll
  induction netlocs generalizing s with
  | nil => rfl
  | cons netloc rest ih =>
    rw [List.foldl_cons, ih, newRequest, released_submitRequest]

/-- New requests for other locations leave a location alone. -/
theorem servers_submitAll_of_not_mem {netlocs : List NetLoc} (h : netloc ∉ netlocs) :
    (s.submitAll netlocs).servers netloc = s.servers netloc := by
  unfold submitAll
  induction netlocs generalizing s with
  | nil => rfl
  | cons n rest ih =>
    rw [List.mem_cons, not_or] at h
    rw [List.foldl_cons, ih h.2, newRequest_eq, servers_submitRequest_of_ne]
    · rfl
    · simpa using h.1

/-- New requests do not bring a connection back. -/
theorem isLive_submitAll_eq_false (hlive : s.isLive netloc instNum = false)
    (hnum : instNum < s.nextInstNum) (netlocs : List NetLoc) :
    (s.submitAll netlocs).isLive netloc instNum = false := by
  unfold submitAll
  induction netlocs generalizing s with
  | nil => exact hlive
  | cons n rest ih =>
    have hnext := isLive_submitRequest_eq_false (s := s.created n) (q := s.nextReq) hlive hnum
    exact ih hnext.1 hnext.2

/-- Nothing waits while the connections can carry all that is submitted. -/
theorem waiting_submitAll {netlocs : List NetLoc} (hwait : s.waiting netloc = [])
    (hslots : netlocs.count netloc ≤ s.slots netloc) :
    (s.submitAll netlocs).waiting netloc = [] := by
  unfold submitAll
  induction netlocs generalizing s with
  | nil => exact hwait
  | cons n rest ih =>
    rw [List.foldl_cons, newRequest_eq]
    have hsame : (s.created n).waiting netloc = [] ∧
        (s.created n).slots netloc = s.slots netloc := ⟨hwait, rfl⟩
    by_cases hn : n = netloc
    · subst hn
      rw [List.count_cons_self] at hslots
      obtain ⟨hwait', hslots'⟩ :=
        waiting_submitRequest (q := s.nextReq) (netloc_created n) hsame.1 (by omega)
      exact ih hwait' (by omega)
    · rw [List.count_cons_of_ne hn] at hslots
      have hservers : ((s.created n).submitRequest s.nextReq).servers netloc =
          (s.created n).servers netloc :=
        servers_submitRequest_of_ne (by simpa using Ne.symm hn)
      obtain ⟨-, -, -, hmax, -⟩ := submitRequest_cases (s.created n) s.nextReq
      apply ih
      · rw [waiting, hservers]
        exact hwait
      · rw [slots, hservers, hmax]
        exact hslots

/-! ## Events -/

/-- The report of a completed response hands a waiting request to a connection that is idle. -/
theorem AllSingle.cnxRequestDoneCb (h : s.AllSingle)
    (hidle : s.waiting netloc = [] ∨
      ∀ c, s.cnx netloc instNum = some c → c.getQueueSize = 0)
    (hstep : s.cnxRequestDoneCb netloc instNum = .ok s') : s'.AllSingle := by
  unfold ConnectionManager.cnxRequestDoneCb at hstep
  cases hserver : s.servers netloc with
  | none => simp [hserver] at hstep
  | some server =>
    cases hrequests : server.requests with
    | nil =>
      simp only [hserver, hrequests, Except.ok.injEq] at hstep
      subst hstep
      exact h
    | cons req rest =>
      simp only [hserver, hrequests, Except.ok.injEq] at hstep
      subst hstep
      have hidle : ∀ c, s.cnx netloc instNum = some c → c.getQueueSize = 0 := by
        rcases hidle with hwait | hidle
        · simp [waiting, hserver, hrequests] at hwait
        · exact hidle
      -- the waiting list does not matter for where the connections are
      have htaken : (s.setServer netloc (some { server with requests := rest })).AllSingle := by
        intro n c hc
        refine h n c ?_
        rcases mem_cnxs.mp hc with ⟨sv, hsv, hc⟩ | hc
        · by_cases hn : n = netloc
          · subst hn
            simp only [setServer, Function.update_self, Option.mem_some_iff] at hsv
            subst hsv
            exact mem_cnxs.mpr (.inl ⟨server, hserver, hc⟩)
          · rw [setServer] at hsv
            simp only [Function.update_of_ne hn] at hsv
            exact mem_cnxs.mpr (.inl ⟨sv, hsv, hc⟩)
        · exact mem_cnxs.mpr (.inr hc)
      refine htaken.updateCnx (fun _ => Cnx.instNum_submitRequest) fun c hc => ?_
      apply Cnx.single_submitRequest
      apply hidle
      rw [← hc]
      simp [cnx, hserver, setServer]

/-- A released connection does not become live by a change. -/
theorem isLive_updateCnx_eq_false {f : Cnx → Cnx} (hlive : s.isLive netloc instNum = false) :
    (s.updateCnx netloc instNum f).isLive netloc instNum = false := by
  have hservers : (s.updateCnx netloc instNum f).servers = s.servers := by
    simp [updateCnx, hlive]
  rw [isLive_congr (congrFun hservers netloc)]
  exact hlive

/-- After the response the connection is found without its request. -/
theorem cnx_updateCnx {c : Cnx} {f : Cnx → Cnx} (hnum : ∀ c, (f c).instNum = c.instNum)
    (hc : s.cnx netloc instNum = some c) :
    (s.updateCnx netloc instNum f).cnx netloc instNum = some (f c) := by
  by_cases hlive : s.isLive netloc instNum = true
  · obtain ⟨server, d, hserver, hfind, hcnx⟩ := cnx_of_isLive hlive
    rw [hcnx] at hc
    obtain rfl := Option.some.inj hc
    simp [updateCnx, hlive, cnx, setServer, hserver, Cnx.find_update hnum hfind]
  · rw [Bool.not_eq_true] at hlive
    rw [cnx_of_not_isLive hlive] at hc
    rw [cnx_of_not_isLive (isLive_updateCnx_eq_false hlive)]
    simp [updateCnx, hlive, Cnx.find_update hnum hc]

/-- Removing the active request of a live connection makes room for one more. -/
theorem slots_updateCnx_popActive {c : Cnx} (h : s.AllSingle)
    (hlive : s.isLive netloc instNum = true) (hc : s.cnx netloc instNum = some c)
    (hactive : c.active ≠ []) :
    (s.updateCnx netloc instNum Cnx.popActive).waiting netloc = s.waiting netloc ∧
      (s.updateCnx netloc instNum Cnx.popActive).slots netloc = s.slots netloc + 1 := by
  obtain ⟨server, d, hserver, hfind, hcnx⟩ := cnx_of_isLive hlive
  rw [hcnx] at hc
  obtain rfl := Option.some.inj hc
  have hidle := Cnx.idle_update_popActive
    (fun e he => (h netloc e (mem_cnxs.mpr (.inl ⟨server, hserver, he⟩))).1) hfind hactive
  simp only [updateCnx, hlive, if_true, waiting, slots, setServer, hserver, Option.map_some,
    Function.update_self, Option.elim_some, Cnx.length_update, hidle]
  exact ⟨trivial, by omega⟩

/-- A completed response. -/
theorem AllSingle.responseDone {netlocs : List NetLoc} (h : s.AllSingle)
    (hserves : s.ServesCallback (.responseDone netloc instNum netlocs))
    (hstep : s.responseDone netloc instNum netlocs = .ok s') : s'.AllSingle := by
  unfold ConnectionManager.responseDone at hstep
  cases hc : s.cnx netloc instNum with
  | none =>
    simp only [hc, Option.bind_none, Except.ok.injEq] at hstep
    exact hstep ▸ h
  | some c =>
    cases hhead : c.active.head? with
    | none =>
      simp only [hc, Option.bind_some, hhead, Except.ok.injEq] at hstep
      exact hstep ▸ h
    | some req =>
      simp only [hc, Option.bind_some, hhead] at hstep
      have hactive : c.active ≠ [] := by
        intro hnil
        simp [hnil] at hhead
      have hsingle : ∀ d, s.cnx netloc instNum = some d → d.Single :=
        fun d hd => (h netloc d (mem_cnxs_of_cnx hd)).1
      have hpopped : (s.updateCnx netloc instNum Cnx.popActive).AllSingle :=
        h.updateCnx (fun _ => rfl) fun d hd => Cnx.single_popActive (hsingle d hd)
      have hcnx : (s.updateCnx netloc instNum Cnx.popActive).cnx netloc instNum =
          some c.popActive := cnx_updateCnx (fun _ => rfl) hc
      obtain ⟨popped, hpopped_eq⟩ : ∃ popped, ({ s.updateCnx netloc instNum Cnx.popActive with
          done := (s.updateCnx netloc instNum Cnx.popActive).done ++ [req] } :
            ConnectionManager) = popped := ⟨_, rfl⟩
      rw [hpopped_eq] at hstep
      have hnotified : (popped.submitAll netlocs).AllSingle := by
        apply AllSingle.submitAll
        rw [← hpopped_eq]
        exact hpopped
      -- after the callback the connection is still idle, or nothing waits
      have hidle : (popped.submitAll netlocs).waiting netloc = [] ∨
          ∀ d, (popped.submitAll netlocs).cnx netloc instNum = some d → d.getQueueSize = 0 := by
        have hempty := Cnx.getQueueSize_popActive (hsingle c hc)
        by_cases hlive : s.isLive netloc instNum = true
        · rcases hserves hlive c hc hactive with hmem | ⟨hwait, hcount⟩
          · right
            intro d hd
            rw [cnx_congr (servers_submitAll_of_not_mem hmem)
              (congrFun (released_submitAll netlocs) netloc), ← hpopped_eq] at hd
            obtain rfl := Option.some.inj (hcnx.symm.trans hd)
            exact hempty
          · left
            obtain ⟨hwait', hslots⟩ := slots_updateCnx_popActive h hlive hc hactive
            rw [← hpopped_eq]
            apply waiting_submitAll
            · exact hwait'.trans hwait
            · exact hcount.trans (Nat.le_of_eq hslots.symm)
        · right
          intro d hd
          rw [Bool.not_eq_true] at hlive
          have hlive' : popped.isLive netloc instNum = false := by
            rw [← hpopped_eq]
            exact isLive_updateCnx_eq_false hlive
          have hnum : instNum < popped.nextInstNum := by
            have hfind := hc
            rw [cnx_of_not_isLive hlive] at hfind
            have := (h netloc c (mem_cnxs_of_cnx hc)).2
            rw [Cnx.instNum_of_find hfind] at this
            rw [← hpopped_eq]
            simpa using this
          rw [cnx_of_not_isLive (isLive_submitAll_eq_false hlive' hnum netlocs),
            released_submitAll, ← cnx_of_not_isLive hlive', ← hpopped_eq] at hd
          obtain rfl := Option.some.inj (hcnx.symm.trans hd)
          exact hempty
      cases hcb : (popped.submitAll netlocs).cnxRequestDoneCb netloc instNum with
      | error fault => simp [hcb] at hstep
      | ok t =>
        simp only [hcb, Except.ok.injEq] at hstep
        have ht : t.AllSingle := hnotified.cnxRequestDoneCb hidle hcb
        rw [← hstep]
        refine ht.updateCnx (fun _ => Cnx.instNum_httpWriteToOutbuf) fun d hd => ?_
        have hd := (ht netloc d (mem_cnxs_of_cnx hd)).1
        rwa [Cnx.httpWriteToOutbuf_of_single hd]

/-- Retrying submits requests. -/
theorem AllSingle.retryRequests {errorCb : ReqId → List NetLoc} {reqs : List ReqId}
    (h : s.AllSingle) : (retryRequests errorCb s reqs).AllSingle := by
  induction reqs generalizing s with
  | nil => exact h
  | cons req rest ih =>
    simp only [ConnectionManager.retryRequests]
    split
    · have hfailed : AllSingle { s with failed := s.failed ++ [req] } := h
      exact ih (hfailed.submitAll (errorCb req))
    · apply ih
      apply AllSingle.submitRequest
      exact h

/-- A released connection keeps its queues. -/
theorem AllSingle.releaseConn {conn : Cnx} (h : s.AllSingle)
    (hstep : s.releaseConn netloc instNum = .ok (s', conn)) : s'.AllSingle ∧ conn.Single := by
  unfold ConnectionManager.releaseConn at hstep
  split at hstep
  · simp at hstep
  · rename_i server hserver
    split at hstep
    · simp at hstep
    · rename_i c hc
      obtain ⟨rfl, rfl⟩ := Prod.mk.inj (Except.ok.inj hstep)
      have hlive : ∀ d ∈ server.connections, d ∈ s.cnxs netloc :=
        fun d hd => mem_cnxs.mpr (.inl ⟨server, hserver, hd⟩)
      have hmem := hlive c (Cnx.mem_of_find hc)
      refine ⟨fun n d hd => h n d ?_, (h netloc c hmem).1⟩
      rcases mem_cnxs.mp hd with ⟨sv, hsv, hd⟩ | hd
      · by_cases hn : n = netloc
        · subst hn
          simp only [setServer, Function.update_self] at hsv
          split at hsv
          · simp at hsv
          · obtain rfl := Option.some.inj hsv
            exact hlive d (Cnx.mem_of_mem_erase hd)
        · simp only [setServer, Function.update_of_ne hn] at hsv
          exact mem_cnxs.mpr (.inl ⟨sv, hsv, hd⟩)
      · by_cases hn : n = netloc
        · subst hn
          simp only [Function.update_self] at hd
          rcases List.mem_append.mp hd with hd | hd
          · exact mem_cnxs.mpr (.inr hd)
          · obtain rfl := List.mem_singleton.mp hd
            exact hmem
        · simp only [Function.update_of_ne hn] at hd
          exact mem_cnxs.mpr (.inr hd)

/-- Every event keeps at most one request on every connection. -/
theorem AllSingle.step {e : Event} (h : s.AllSingle) (hserves : s.ServesCallback e)
    (hstep : step s e = .ok s') : s'.AllSingle := by
  cases e with
  | submit netloc =>
    obtain rfl := Except.ok.inj hstep
    exact h.newRequest netloc
  | bodyData netloc instNum len =>
    obtain rfl := Except.ok.inj hstep
    unfold responseBodyData
    split
    · exact h
    · exact h
  | responseDone netloc instNum netlocs => exact h.responseDone hserves hstep
  | unusable netloc instNum errorCb =>
    simp only [ConnectionManager.step, handleUnusableConn] at hstep
    split at hstep
    · simp at hstep
    · rename_i t conn hrelease
      split at hstep
      · obtain rfl := Except.ok.inj hstep
        exact (h.releaseConn hrelease).1.retryRequests
      · simp at hstep
  | delete netloc instNum =>
    obtain rfl := Except.ok.inj hstep
    intro n c hc
    refine h n c ?_
    rcases mem_cnxs.mp hc with hc | hc
    · exact mem_cnxs.mpr (.inl hc)
    · by_cases hn : n = netloc
      · subst hn
        simp only [Function.update_self] at hc
        exact mem_cnxs.mpr (.inr (Cnx.mem_of_mem_erase hc))
      · simp only [Function.update_of_ne hn] at hc
        exact mem_cnxs.mpr (.inr hc)

/-- Nothing is pending on a connection that carries at most one request. -/
theorem AllSingle.carriesOne (h : s.AllSingle) : s.CarriesOne := by
  constructor
  · intro netloc c hc
    exact (h netloc c hc).1.getQueueSize_le
  · intro netloc instNum errorCb herror
    unfold handleUnusableConn at herror
    split at herror
    · rename_i fault hfault
      unfold ConnectionManager.releaseConn at hfault
      split at hfault
      · simp_all
      · split at hfault <;> simp_all
    · rename_i t conn hrelease
      have hpending := (h.releaseConn hrelease).2.submitted
      simp [hpending] at herror

/-- In every state reached without a failed assertion, if every callback of a completing response
leaves the connection to the report, every connection carries at most one request. -/
theorem carriesOne_of_servesCallback (maxPersist maxRetries : Nat) (es : List Event)
    (s : ConnectionManager)
    (hrun : runSteps step (new maxPersist maxRetries fun _ => []) es = .ok s)
    (hserves : StepsMeet step ServesCallback (new maxPersist maxRetries fun _ => []) es) :
    s.CarriesOne := by
  have hinit : (new maxPersist maxRetries fun _ => []).AllSingle := by
    intro netloc c hc
    simp [cnxs, new] at hc
  have h : s.AllSingle :=
    invariant_of_stepsMeet AllSingle (fun _ _ _ hs hserves hstep => hs.step hserves hstep)
      hinit hserves hrun
  exact h.carriesOne

/-- The callback of the only request submits another one to its location. -/
theorem carriesOne_of_servesCallback_resubmit :
    CarriesOne
      (match runSteps step (new 1 2 fun _ => [])
          [.submit ([], 80), .responseDone ([], 80) 0 [([], 80)]] with
        | .ok s => s
        | .error _ => new 1 2 fun _ => []) :=
  carriesOne_of_servesCallback 1 2 [.submit ([], 80), .responseDone ([], 80) 0 [([], 80)]] _ rfl
    (by decide)

/-- While another request waits, the callback of the first one submits a third to the location. The
second request takes the connection, the report hands it the third as well, and the connection
cannot be released without failing the assertion. -/
theorem not_carriesOne_resubmit :
    ∃ s, runSteps step (new 1 2 fun _ => [])
        [.submit ([], 80), .submit ([], 80), .responseDone ([], 80) 0 [([], 80)]] = .ok s ∧
      ¬s.CarriesOne := by
  refine ⟨_, rfl, ?_⟩
  intro h
  exact h.pending ([], 80) 0 (fun _ => []) rfl

end ConnectionManager

end ShadowExtras.Web
