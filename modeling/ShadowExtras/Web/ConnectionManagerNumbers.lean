import ShadowExtras.Web.ConnectionManagerQueues

/-!
# The numbers of the connections

A connection is opened with a fresh number, leaves the lists of its server when it is released or
when the manager is reset, and is deleted later. The numbers at a location are distinct
(`Numbered`). Everything that happens to a manager apart from that only opens connections (`Grows`),
so that a connection that has left the lists does not come back.
-/

namespace ShadowExtras.Web

open Foundation

/-! ## Numbers of connections -/

namespace Cnx

variable {c : Cnx} {cs cs' : List Cnx} {n : Nat} {req : ReqId}

/-- Submitting on an idle connection does not renumber. -/
theorem map_instNum_submitIdle (h : submitIdle req cs = some cs') :
    cs'.map Cnx.instNum = cs.map Cnx.instNum := by
  induction cs generalizing cs' with
  | nil => simp [submitIdle] at h
  | cons c cs ih =>
    simp only [submitIdle] at h
    split at h
    · obtain rfl := Option.some.inj h
      simp
    · obtain ⟨cs'', hcs'', rfl⟩ := Option.map_eq_some_iff.mp h
      simp [ih hcs'']

/-- Changing a connection does not renumber. -/
theorem map_instNum_update {f : Cnx → Cnx} (hf : ∀ c, (f c).instNum = c.instNum) :
    (update n f cs).map Cnx.instNum = cs.map Cnx.instNum := by
  induction cs with
  | nil => rfl
  | cons c cs ih =>
    by_cases hc : c.instNum = n
    · simp [update, hc, hf]
    · simp [update, hc, ih]

/-- Erasing a connection erases its number. -/
theorem map_instNum_erase : (erase n cs).map Cnx.instNum = (cs.map Cnx.instNum).erase n := by
  induction cs with
  | nil => rfl
  | cons c cs ih =>
    by_cases hc : c.instNum = n
    · simp [erase, hc]
    · simp [erase, hc, ih]

/-- A connection is found if its number is there. -/
theorem isSome_find_iff : (find n cs).isSome = true ↔ n ∈ cs.map Cnx.instNum := by
  induction cs with
  | nil => simp [find]
  | cons c cs ih =>
    by_cases hc : c.instNum = n
    · simp [find, hc]
    · rw [find, if_neg hc, ih, List.map_cons, List.mem_cons]
      simp [Ne.symm hc]

/-- The last connection is found if no other one has its number. -/
theorem find_append_singleton (h : c.instNum ∉ cs.map Cnx.instNum) :
    find c.instNum (cs ++ [c]) = some c := by
  induction cs with
  | nil => simp [find]
  | cons d cs ih =>
    simp only [List.map_cons, List.mem_cons, not_or] at h
    rw [List.cons_append, find, if_neg (Ne.symm h.1)]
    exact ih h.2

end Cnx

namespace ConnectionManager

variable {m m' m'' : ConnectionManager} {netloc : NetLoc} {n : Nat}

/-- The numbers of the connections in the list of a server. -/
def liveNums (m : ConnectionManager) (netloc : NetLoc) : List Nat :=
  (m.servers netloc).elim [] fun server => server.connections.map Cnx.instNum

/-- The numbers of the connections that are scheduled for deletion. -/
def goneNums (m : ConnectionManager) (netloc : NetLoc) : List Nat :=
  (m.released netloc).map Cnx.instNum

/-- The numbers at a location are distinct and were given out. -/
structure Numbered (m : ConnectionManager) : Prop where
  distinct : ∀ netloc, (m.liveNums netloc ++ m.goneNums netloc).Nodup
  below : ∀ netloc, ∀ n ∈ m.liveNums netloc ++ m.goneNums netloc, n < m.nextInstNum

/-- Connections may have been opened, and none has left the lists. -/
structure Grows (m m' : ConnectionManager) : Prop where
  next : m.nextInstNum ≤ m'.nextInstNum
  gone : ∀ netloc, m'.goneNums netloc = m.goneNums netloc
  live : ∀ netloc, ∃ opened, m'.liveNums netloc = m.liveNums netloc ++ opened ∧ opened.Nodup ∧
    ∀ n ∈ opened, m.nextInstNum ≤ n ∧ n < m'.nextInstNum

/-- A connection is live just if its number is in the list. -/
theorem isLive_iff : m.isLive netloc n = true ↔ n ∈ m.liveNums netloc := by
  unfold isLive liveNums
  cases m.servers netloc with
  | none => simp
  | some server => exact Cnx.isSome_find_iff

theorem Grows.refl (m : ConnectionManager) : m.Grows m :=
  ⟨le_rfl, fun _ => rfl, fun _ => ⟨[], by simp, by simp, by simp⟩⟩

/-- Two changes are one. -/
theorem Grows.trans (h : m.Grows m') (h' : m'.Grows m'') : m.Grows m'' := by
  refine ⟨h.next.trans h'.next, fun n => (h'.gone n).trans (h.gone n), fun netloc => ?_⟩
  obtain ⟨opened, hlive, hnodup, hopened⟩ := h.live netloc
  obtain ⟨opened', hlive', hnodup', hopened'⟩ := h'.live netloc
  refine ⟨opened ++ opened', by rw [hlive', hlive, List.append_assoc], ?_, ?_⟩
  · refine List.nodup_append'.mpr ⟨hnodup, hnodup', fun n hn hn' => ?_⟩
    have hold := (hopened n hn).2
    have hnew := (hopened' n hn').1
    omega
  · intro n hn
    have hnext := h.next
    have hnext' := h'.next
    rcases List.mem_append.mp hn with hn | hn
    · obtain ⟨hle, hlt⟩ := hopened n hn
      omega
    · obtain ⟨hle, hlt⟩ := hopened' n hn
      omega

/-- Nothing changes for the connections when the lists keep their numbers. -/
theorem grows_of_eq (hnext : m'.nextInstNum = m.nextInstNum)
    (hlive : ∀ netloc, m'.liveNums netloc = m.liveNums netloc)
    (hgone : ∀ netloc, m'.goneNums netloc = m.goneNums netloc) : m.Grows m' :=
  ⟨Nat.le_of_eq hnext.symm, hgone, fun netloc => ⟨[], by simp [hlive], by simp, by simp⟩⟩

/-- An old connection is in the lists if and only if it was. -/
theorem Grows.mem_liveNums (h : m.Grows m') (hn : n < m.nextInstNum) :
    n ∈ m'.liveNums netloc ↔ n ∈ m.liveNums netloc := by
  obtain ⟨opened, hlive, -, hopened⟩ := h.live netloc
  rw [hlive, List.mem_append]
  constructor
  · rintro (h | h)
    · exact h
    · have := (hopened n h).1
      omega
  · intro h
    exact .inl h

/-- Connections that grow stay numbered. -/
theorem Numbered.grows (h : m.Numbered) (hgrows : m.Grows m') : m'.Numbered := by
  have hnext := hgrows.next
  constructor
  · intro netloc
    obtain ⟨opened, hlive, hnodup, hopened⟩ := hgrows.live netloc
    rw [hlive, hgrows.gone]
    have hold := List.nodup_append'.mp (h.distinct netloc)
    have hbelow := h.below netloc
    simp only [List.nodup_append', List.disjoint_append_left] at hold ⊢
    refine ⟨⟨hold.1, hnodup, fun n hn hn' => ?_⟩, hold.2.1, hold.2.2, fun n hn hn' => ?_⟩
    · have hlt := hbelow n (by simp [hn])
      have hle := (hopened n hn').1
      omega
    · have hlt := hbelow n (by simp [hn'])
      have hle := (hopened n hn).1
      omega
  · intro netloc n hn
    obtain ⟨opened, hlive, -, hopened⟩ := hgrows.live netloc
    rw [hlive, hgrows.gone] at hn
    rcases List.mem_append.mp hn with hn | hn
    · rcases List.mem_append.mp hn with hn | hn
      · have := h.below netloc n (by simp [hn])
        omega
      · exact (hopened n hn).2
    · have := h.below netloc n (by simp [hn])
      omega

/-! ## What the operations open -/

/-- A submitted request opens at most one connection, at its own location, where the limit is not
reached. -/
theorem liveNums_submitRequest (m : ConnectionManager) (q : ReqId) :
    (m.submitRequest q).maxPersist = m.maxPersist ∧
      (∀ k, (m.submitRequest q).goneNums k = m.goneNums k) ∧
      ((∀ k, (m.submitRequest q).liveNums k = m.liveNums k) ∧
          (m.submitRequest q).nextInstNum = m.nextInstNum ∨
        (m.liveNums (m.request q).netloc).length < m.maxPersist ∧
          (m.submitRequest q).liveNums (m.request q).netloc =
            m.liveNums (m.request q).netloc ++ [m.nextInstNum] ∧
          (∀ k, k ≠ (m.request q).netloc → (m.submitRequest q).liveNums k = m.liveNums k) ∧
          (m.submitRequest q).nextInstNum = m.nextInstNum + 1) := by
  obtain ⟨server, hservers, hreleased, hmax, hcases⟩ := submitRequest_cases m q
  have hother : ∀ k, k ≠ (m.request q).netloc →
      (m.submitRequest q).liveNums k = m.liveNums k := by
    intro k hk
    simp only [liveNums, hservers, Function.update_of_ne hk]
  have hold : ((m.servers (m.request q).netloc).getD
      { requests := [], connections := [] }).connections.map Cnx.instNum =
        m.liveNums (m.request q).netloc := by
    unfold liveNums
    cases m.servers (m.request q).netloc <;> rfl
  have hown : (m.submitRequest q).liveNums (m.request q).netloc =
      server.connections.map Cnx.instNum := by
    simp [liveNums, hservers]
  have hkept : server.connections.map Cnx.instNum = m.liveNums (m.request q).netloc →
      ∀ k, (m.submitRequest q).liveNums k = m.liveNums k := by
    intro hsame k
    by_cases hk : k = (m.request q).netloc
    · rw [hk, hown, hsame]
    · exact hother k hk
  refine ⟨hmax, fun k => by simp only [goneNums, hreleased], ?_⟩
  rcases hcases with ⟨hidle, -, hnext⟩ | ⟨-, hroom, hconns, -, hnext⟩ | ⟨-, -, hconns, -, hnext⟩
  · -- an idle connection takes the request
    refine .inl ⟨hkept ?_, hnext⟩
    rw [Cnx.map_instNum_submitIdle hidle, hold]
  · -- a connection is opened
    refine .inr ⟨?_, ?_, hother, hnext⟩
    · rw [← hold, List.length_map]
      exact hroom
    · rw [hown, hconns, List.map_append, hold]
      simp [Cnx.new]
  · -- the request waits
    refine .inl ⟨hkept ?_, hnext⟩
    rw [hconns, hold]

/-- A submitted request opens at most a connection with a new number. -/
theorem grows_submitRequest (m : ConnectionManager) (q : ReqId) : m.Grows (m.submitRequest q) := by
  obtain ⟨-, hgone, ⟨hlive, hnext⟩ | ⟨-, hown, hother, hnext⟩⟩ := liveNums_submitRequest m q
  · exact grows_of_eq hnext hlive hgone
  · refine ⟨by omega, hgone, fun k => ?_⟩
    by_cases hk : k = (m.request q).netloc
    · exact ⟨[m.nextInstNum], by rw [hk, hown], by simp, by simp [hnext]⟩
    · exact ⟨[], by simp [hother k hk], by simp, by simp⟩

/-- A new request opens at most a connection with a new number. -/
theorem grows_newRequest (m : ConnectionManager) (netloc : NetLoc) :
    m.Grows (m.newRequest netloc) := by
  have hcreated : m.Grows (m.created netloc) := grows_of_eq rfl (fun _ => rfl) fun _ => rfl
  rw [newRequest_eq]
  exact hcreated.trans (grows_submitRequest _ _)

/-- New requests open connections with new numbers. -/
theorem grows_submitAll (m : ConnectionManager) (netlocs : List NetLoc) :
    m.Grows (m.submitAll netlocs) := by
  unfold submitAll
  induction netlocs generalizing m with
  | nil => exact Grows.refl m
  | cons netloc rest ih => exact (grows_newRequest m netloc).trans (ih _)

/-- A change of a connection keeps the numbers. -/
theorem grows_updateCnx (m : ConnectionManager) {f : Cnx → Cnx}
    (hf : ∀ c, (f c).instNum = c.instNum) : m.Grows (m.updateCnx netloc n f) := by
  refine grows_of_eq (nextInstNum_updateCnx f) (fun k => ?_) fun k => ?_
  · unfold updateCnx
    split
    · by_cases hk : k = netloc
      · subst hk
        unfold liveNums setServer
        cases hserver : m.servers k with
        | none => simp
        | some server => simp [Cnx.map_instNum_update hf]
      · simp [liveNums, setServer, hk]
    · rfl
  · unfold updateCnx
    split
    · rfl
    · by_cases hk : k = netloc
      · subst hk
        simp [goneNums, Cnx.map_instNum_update hf]
      · simp [goneNums, hk]

/-- The data of a response keep the numbers. -/
theorem grows_responseBodyData (m : ConnectionManager) (len : Nat) :
    m.Grows (m.responseBodyData netloc n len) := by
  unfold responseBodyData
  split
  · exact Grows.refl m
  · exact grows_of_eq rfl (fun _ => rfl) fun _ => rfl

/-- Handing out a waiting request keeps the numbers. -/
theorem grows_cnxRequestDoneCb (h : m.cnxRequestDoneCb netloc n = .ok m') : m.Grows m' := by
  unfold cnxRequestDoneCb at h
  split at h
  · simp at h
  · rename_i server hserver
    split at h
    · obtain rfl := Except.ok.inj h
      exact Grows.refl m
    · rename_i req rest hrequests
      obtain rfl := Except.ok.inj h
      have htaken : m.Grows (m.setServer netloc (some { server with requests := rest })) := by
        refine grows_of_eq rfl (fun k => ?_) fun _ => rfl
        by_cases hk : k = netloc
        · subst hk
          simp [liveNums, setServer, hserver]
        · simp [liveNums, setServer, hk]
      exact htaken.trans (grows_updateCnx _ fun _ => Cnx.instNum_submitRequest)

/-- The end of a response opens connections with new numbers. -/
theorem grows_responseDone {netlocs : List NetLoc}
    (h : m.responseDone netloc n netlocs = .ok m') : m.Grows m' := by
  unfold responseDone at h
  split at h
  · obtain rfl := Except.ok.inj h
    exact Grows.refl m
  · rename_i req hreq
    dsimp only at h
    split at h
    · simp at h
    · rename_i t hcb
      obtain rfl := Except.ok.inj h
      have hpopped : m.Grows (m.updateCnx netloc n Cnx.popActive) :=
        grows_updateCnx m fun _ => rfl
      have hdone : (m.updateCnx netloc n Cnx.popActive).Grows
          { m.updateCnx netloc n Cnx.popActive with
            done := (m.updateCnx netloc n Cnx.popActive).done ++ [req] } :=
        grows_of_eq rfl (fun _ => rfl) fun _ => rfl
      have hcallback := grows_submitAll { m.updateCnx netloc n Cnx.popActive with
            done := (m.updateCnx netloc n Cnx.popActive).done ++ [req] } netlocs
      exact (((hpopped.trans hdone).trans hcallback).trans (grows_cnxRequestDoneCb hcb)).trans
        (grows_updateCnx t fun _ => Cnx.instNum_httpWriteToOutbuf)

/-- The retries release no connection. -/
theorem released_retryRequests (errorCb : ReqId → List NetLoc) (m : ConnectionManager)
    (reqs : List ReqId) : (retryRequests errorCb m reqs).released = m.released := by
  induction reqs generalizing m with
  | nil => rfl
  | cons req rest ih =>
    simp only [retryRequests]
    split
    · rw [ih, released_submitAll]
    · rw [ih, released_submitRequest]

/-- The retries open connections with new numbers. -/
theorem grows_retryRequests (errorCb : ReqId → List NetLoc) (m : ConnectionManager)
    (reqs : List ReqId) : m.Grows (retryRequests errorCb m reqs) := by
  induction reqs generalizing m with
  | nil => exact Grows.refl m
  | cons req rest ih =>
    simp only [retryRequests]
    split
    · have hfailed : m.Grows { m with failed := m.failed ++ [req] } :=
        grows_of_eq rfl (fun _ => rfl) fun _ => rfl
      exact (hfailed.trans (grows_submitAll _ (errorCb req))).trans (ih _)
    · refine Grows.trans ?_ (ih _)
      refine Grows.trans ?_ (grows_submitRequest _ req)
      exact grows_of_eq rfl (fun _ => rfl) fun _ => rfl

/-! ## Releasing -/

/-- What a release does to the numbers. -/
theorem releaseConn_spec {conn : Cnx} (h : m.releaseConn netloc n = .ok (m', conn)) :
    m'.liveNums netloc = (m.liveNums netloc).erase n ∧
      m'.released netloc = m.released netloc ++ [conn] ∧ m'.nextInstNum = m.nextInstNum ∧
      (∀ k, k ≠ netloc → m'.liveNums k = m.liveNums k ∧ m'.goneNums k = m.goneNums k) ∧
      n ∈ m.liveNums netloc ∧ m.cnx netloc n = some conn := by
  unfold releaseConn at h
  split at h
  · simp at h
  · rename_i server hserver
    split at h
    · simp at h
    · rename_i c hc
      obtain ⟨rfl, rfl⟩ := Prod.mk.inj (Except.ok.inj h)
      have hmem : n ∈ server.connections.map Cnx.instNum :=
        Cnx.isSome_find_iff.mp (by rw [hc]; rfl)
      refine ⟨?_, by simp, rfl, fun k hk => ?_, ?_, ?_⟩
      · by_cases hempty : (Cnx.erase n server.connections).length = 0
        · have hnil := List.length_eq_zero_iff.mp hempty
          have hnums : (server.connections.map Cnx.instNum).erase n = [] := by
            rw [← Cnx.map_instNum_erase, hnil, List.map_nil]
          simp [liveNums, setServer, hserver, hnil, hnums]
        · simp [liveNums, setServer, hserver, hempty, Cnx.map_instNum_erase]
      · simp [liveNums, goneNums, setServer, hk]
      · simpa [liveNums, hserver] using hmem
      · simp [cnx, hserver, hc]

/-- A connection in the lists can be released. -/
theorem releaseConn_ne_error {fault : AssertFailed} (h : n ∈ m.liveNums netloc) :
    m.releaseConn netloc n ≠ .error fault := by
  unfold liveNums at h
  unfold releaseConn
  cases hserver : m.servers netloc with
  | none => simp [hserver] at h
  | some server =>
    rw [hserver, Option.elim_some, ← Cnx.isSome_find_iff] at h
    obtain ⟨c, hc⟩ := Option.isSome_iff_exists.mp h
    simp [hc]

/-- A release moves the number of the connection. -/
theorem nums_releaseConn {conn : Cnx} (h : m.releaseConn netloc n = .ok (m', conn)) :
    conn.instNum = n ∧ (m'.liveNums netloc ++ m'.goneNums netloc).Perm
      (m.liveNums netloc ++ m.goneNums netloc) := by
  obtain ⟨hlive, hreleased, -, -, hmem, hcnx⟩ := releaseConn_spec h
  have hnum : conn.instNum = n := by
    obtain ⟨server, c, -, hfind, hcnx'⟩ := cnx_of_isLive (isLive_iff.mpr hmem)
    obtain rfl := Option.some.inj (hcnx'.symm.trans hcnx)
    exact Cnx.instNum_of_find hfind
  have hgone : m'.goneNums netloc = m.goneNums netloc ++ [n] := by
    simp [goneNums, hreleased, hnum]
  refine ⟨hnum, ?_⟩
  rw [hlive, hgone, ← List.append_assoc]
  refine (List.perm_append_singleton n _).trans ?_
  rw [← List.cons_append]
  exact (List.perm_cons_erase hmem).symm.append_right _

/-- After the release of a connection the numbers are still distinct. -/
theorem Numbered.releaseConn {conn : Cnx} (h : m.Numbered)
    (hrelease : m.releaseConn netloc n = .ok (m', conn)) :
    m'.Numbered ∧ n ∉ m'.liveNums netloc ∧ conn.instNum = n := by
  obtain ⟨hlive, -, hnext, hother, -, -⟩ := releaseConn_spec hrelease
  obtain ⟨hnum, hperm⟩ := nums_releaseConn hrelease
  refine ⟨⟨fun k => ?_, fun k i hi => ?_⟩, ?_, hnum⟩
  · by_cases hk : k = netloc
    · subst hk
      exact hperm.nodup_iff.mpr (h.distinct k)
    · rw [(hother k hk).1, (hother k hk).2]
      exact h.distinct k
  · rw [hnext]
    by_cases hk : k = netloc
    · subst hk
      exact h.below k i (hperm.mem_iff.mp hi)
    · rw [(hother k hk).1, (hother k hk).2] at hi
      exact h.below k i hi
  · rw [hlive]
    have hnodup := (List.nodup_append'.mp (h.distinct netloc)).1
    exact hnodup.not_mem_erase

/-- A reset keeps the connections numbered. -/
theorem Numbered.reset (h : m.Numbered) : m.reset.Numbered := by
  have hlive : ∀ netloc, m.reset.liveNums netloc = [] := fun _ => rfl
  have hgone : ∀ netloc,
      m.reset.goneNums netloc = m.goneNums netloc ++ m.liveNums netloc := by
    intro netloc
    simp only [goneNums, liveNums, ConnectionManager.reset]
    cases m.servers netloc <;> simp
  constructor
  · intro netloc
    rw [hlive, hgone, List.nil_append]
    exact List.perm_append_comm.nodup_iff.mp (h.distinct netloc)
  · intro netloc n hn
    rw [hlive, hgone, List.nil_append] at hn
    exact h.below netloc n (List.perm_append_comm.mem_iff.mp hn)

/-- Destroying a connection takes its number away. -/
theorem goneNums_delete {k : NetLoc} :
    (goneNums { m with
      released := Function.update m.released netloc (Cnx.erase n (m.released netloc)) } k).Sublist
        (m.goneNums k) := by
  unfold goneNums
  by_cases hk : k = netloc
  · subst hk
    simp only [Function.update_self, Cnx.map_instNum_erase]
    exact List.erase_sublist
  · simp only [Function.update_of_ne hk]
    exact List.Sublist.refl _

/-- A connection that is released keeps its requests, also while they are retried. -/
theorem handleUnusableConn_spec {errorCb : ReqId → List NetLoc} (h : m.Numbered)
    (hstep : m.handleUnusableConn netloc n errorCb = .ok m') :
    ∃ t conn, m.releaseConn netloc n = .ok (t, conn) ∧ t.Grows m' ∧
      m'.cnx netloc n = m.cnx netloc n := by
  unfold handleUnusableConn at hstep
  split at hstep
  · simp at hstep
  · rename_i t conn hrelease
    split at hstep
    · obtain rfl := Except.ok.inj hstep
      have hgrows := grows_retryRequests errorCb t conn.active
      obtain ⟨hnumbered, hnot, hnum⟩ := h.releaseConn hrelease
      obtain ⟨-, hreleased, hnext, -, hmem, hcnx⟩ := releaseConn_spec hrelease
      refine ⟨t, conn, hrelease, hgrows, ?_⟩
      have hbelow : n < t.nextInstNum := by
        rw [hnext]
        exact h.below netloc n (by simp [hmem])
      have hdead : (retryRequests errorCb t conn.active).isLive netloc n = false := by
        rw [← Bool.not_eq_true, isLive_iff, hgrows.mem_liveNums hbelow]
        exact hnot
      rw [cnx_of_not_isLive hdead, released_retryRequests, hreleased, hcnx]
      subst hnum
      refine Cnx.find_append_singleton ?_
      have hdisjoint := (List.nodup_append'.mp (h.distinct netloc)).2.2
      exact hdisjoint hmem
    · simp at hstep

end ConnectionManager

end ShadowExtras.Web
