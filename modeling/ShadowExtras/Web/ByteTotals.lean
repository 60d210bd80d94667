import ShadowExtras.Foundation.Fallible
import ShadowExtras.Web.ConnectionLimit

/-!
# The byte totals of the manager

Every `Connection` counts the bytes that it sends and receives. `get_total_bytes` adds the counters
of the connections that are listed to the totals of the manager, into which `release_conn` folds the
counters of a connection that leaves its list; `reset` forgets the connections and the totals.

The counters go on after that: a released connection is destroyed later, and the descriptor of a
connection with an error may be readable in the same call of `trigger`. `ByteTotals` is the manager
of `occur` with all of this (`map_manager_occur`). A connection is accounted for as long as it is
listed or has been folded in, and nothing may be added to a counter in between two resets once it
was folded in.
-/

namespace ShadowExtras.Web

open Foundation

/-- What `get_total_bytes` looks at. -/
structure Snapshot where
  manager : ConnectionManager
  totaltxbytes : ℕ
  totalrxbytes : ℕ
  /-- `cumulative_num_sent_bytes_` of a connection -/
  sentBytes : ℕ → ℕ
  /-- `cumulative_num_recv_bytes_` of a connection -/
  recvBytes : ℕ → ℕ
  /-- History: the number of the first connection since the last `reset()`. -/
  since : ℕ

/-- The manager and its byte totals. -/
structure ByteTotals extends Snapshot where
  /-- History: the connections that were released since the last `reset()`. -/
  dropped : List ℕ
  /-- History: the moments at which `get_total_bytes` was called. -/
  reports : List Snapshot

namespace ConnectionManager

/-- The keys of `servers_`, in any order. -/
structure ListsKeys (m : ConnectionManager) (keys : List NetLoc) : Prop where
  nodup : keys.Nodup
  mem_iff : ∀ netloc, netloc ∈ keys ↔ (m.servers netloc).isSome

end ConnectionManager

namespace Snapshot

/-- `ConnectionManager::get_total_bytes`, with the keys in the order of the map. -/
def getTotalBytes (s : Snapshot) (keys : List NetLoc) : ℕ × ℕ :=
  (s.totaltxbytes + ((keys.flatMap s.manager.liveNums).map s.sentBytes).sum,
    s.totalrxbytes + ((keys.flatMap s.manager.liveNums).map s.recvBytes).sum)

/-- The connections created since the last `reset()`. -/
def created (s : Snapshot) : List ℕ := List.range' s.since (s.manager.nextInstNum - s.since)

/-- The totals are the bytes of the connections created since the last `reset()`. -/
structure Exact (s : Snapshot) : Prop where
  keys : ∃ keys, s.manager.ListsKeys keys
  totals : ∀ keys, s.manager.ListsKeys keys →
    s.getTotalBytes keys = ((s.created.map s.sentBytes).sum, (s.created.map s.recvBytes).sum)

end Snapshot

namespace ByteTotals

/-- What the user does with the manager, in a callback or on its own. -/
inductive UserCall
  | submit (netloc : NetLoc)
  | reset
  /-- `get_total_bytes` -/
  | report
  deriving DecidableEq, Repr

/-- The call as the manager sees it. -/
def UserCall.forget : UserCall → Option ConnectionManager.UserCall
  | .submit netloc => some (.submit netloc)
  | .reset => some .reset
  | .report => none

section Operations

variable (b : ByteTotals)

/-- An operation on the manager alone. -/
def withManager (m : ConnectionManager) : ByteTotals := { b with manager := m }

/-- `ConnectionManager::reset` -/
def reset : ByteTotals :=
  { b with
    manager := b.manager.reset
    totaltxbytes := 0
    totalrxbytes := 0
    since := b.manager.nextInstNum
    dropped := [] }

def userCall : UserCall → ByteTotals
  | .submit netloc => b.withManager (b.manager.newRequest netloc)
  | .reset => b.reset
  | .report => { b with reports := b.reports ++ [b.toSnapshot] }

/-- The calls of a callback. -/
def userCalls (calls : List UserCall) : ByteTotals := calls.foldl userCall b

/-- A response is complete on a connection. -/
def responseDone (netloc : NetLoc) (instNum : ℕ) (calls : List UserCall) :
    Except AssertFailed ByteTotals :=
  match (b.manager.cnx netloc instNum).bind fun c => c.active.head? with
  | none => .ok b
  | some req =>
    let popped := b.manager.updateCnx netloc instNum Cnx.popActive
    let notified := (b.withManager { popped with done := popped.done ++ [req] }).userCalls calls
    match notified.manager.cnxRequestDoneCb netloc instNum with
    | .error fault => .error fault
    | .ok m => .ok (notified.withManager (m.updateCnx netloc instNum Cnx.httpWriteToOutbuf))

/-- `ConnectionManager::retry_requests` -/
def retryRequests (errorCb : ReqId → List UserCall) : ByteTotals → List ReqId → ByteTotals
  | b, [] => b
  | b, req :: rest =>
    let m := b.manager
    let q := m.request req
    if q.numRetries = m.maxRetries then
      retryRequests errorCb
        ((b.withManager { m with failed := m.failed ++ [req] }).userCalls (errorCb req)) rest
    else
      let q' := { q with
        numRetries := q.numRetries + 1
        firstBytePos := if q.bodySize > 0 then q.bodySize else q.firstBytePos }
      retryRequests errorCb
        (b.withManager ({ m with request := Function.update m.request req q' }.submitRequest req))
          rest

/-- `ConnectionManager::release_conn`: the counters of the connection are added to the totals. -/
def releaseConn (netloc : NetLoc) (instNum : ℕ) : Except AssertFailed (ByteTotals × Cnx) :=
  match b.manager.releaseConn netloc instNum with
  | .error fault => .error fault
  | .ok (m, conn) =>
    .ok ({ b with
      manager := m
      totaltxbytes := b.totaltxbytes + b.sentBytes instNum
      totalrxbytes := b.totalrxbytes + b.recvBytes instNum
      dropped := instNum :: b.dropped }, conn)

/-- `ConnectionManager::handle_unusable_conn` -/
def handleUnusableConn (netloc : NetLoc) (instNum : ℕ) (errorCb : ReqId → List UserCall) :
    Except AssertFailed ByteTotals :=
  match b.releaseConn netloc instNum with
  | .error fault => .error fault
  | .ok (b, conn) =>
    if conn.submitted.isEmpty then .ok (retryRequests errorCb b conn.active)
    else .error .noPending

/-- A connection that is not destroyed sends and receives so many bytes. -/
def transfer (netloc : NetLoc) (instNum tx rx : ℕ) : ByteTotals :=
  if (b.manager.cnx netloc instNum).isSome then
    { b with
      sentBytes := Function.update b.sentBytes instNum (b.sentBytes instNum + tx)
      recvBytes := Function.update b.recvBytes instNum (b.recvBytes instNum + rx) }
  else b

end Operations

/-- What happens to the manager and the connections. -/
inductive Happening
  | call (c : UserCall)
  | transfer (netloc : NetLoc) (instNum tx rx : ℕ)
  | bodyData (netloc : NetLoc) (instNum len : ℕ)
  | responseDone (netloc : NetLoc) (instNum : ℕ) (calls : List UserCall)
  | unusable (netloc : NetLoc) (instNum : ℕ) (errorCb : ReqId → List UserCall)
  | delete (netloc : NetLoc) (instNum : ℕ)

def occur (b : ByteTotals) : Happening → Except AssertFailed ByteTotals
  | .call c => .ok (b.userCall c)
  | .transfer netloc instNum tx rx => .ok (b.transfer netloc instNum tx rx)
  | .bodyData netloc instNum len =>
      .ok (b.withManager (b.manager.responseBodyData netloc instNum len))
  | .responseDone netloc instNum calls => b.responseDone netloc instNum calls
  | .unusable netloc instNum errorCb => b.handleUnusableConn netloc instNum errorCb
  | .delete netloc instNum =>
    let conns := Cnx.erase instNum (b.manager.released netloc)
    let released := Function.update b.manager.released netloc conns
    .ok (b.withManager { b.manager with released := released })

/-- What happens as the manager sees it. -/
def Happening.forget : Happening → Option ConnectionManager.Occasion
  | .call c => c.forget.map .call
  | .transfer .. => none
  | .bodyData netloc instNum len => some (.bodyData netloc instNum len)
  | .responseDone netloc instNum calls =>
    some (.responseDone netloc instNum (calls.filterMap UserCall.forget))
  | .unusable netloc instNum errorCb =>
    some (.unusable netloc instNum fun req => (errorCb req).filterMap UserCall.forget)
  | .delete netloc instNum => some (.delete netloc instNum)

/-- A manager without connections, and its totals. -/
def new (maxPersist maxRetries : ℕ) : ByteTotals where
  manager := .new maxPersist maxRetries fun _ => []
  totaltxbytes := 0
  totalrxbytes := 0
  sentBytes := fun _ => 0
  recvBytes := fun _ => 0
  since := 0
  dropped := []
  reports := []

/-- A connection on which bytes pass is listed, or is one from before the last `reset()`. -/
def CountsListed (b : ByteTotals) : Happening → Prop
  | .transfer netloc instNum tx rx => (b.manager.cnx netloc instNum).isSome →
      (tx = 0 ∧ rx = 0) ∨ instNum ∈ b.manager.liveNums netloc ∨ instNum < b.since
  | _ => True

/-- The totals are right, and were so at every moment at which they were reported. -/
structure Exact (b : ByteTotals) : Prop where
  now : b.toSnapshot.Exact
  reports : ∀ report ∈ b.reports, report.Exact

end ByteTotals

/-! ## The manager without the totals -/

namespace ByteTotals

/-- The calls of the user reach the manager. -/
theorem manager_userCalls (b : ByteTotals) (calls : List UserCall) :
    (b.userCalls calls).manager = b.manager.userCalls (calls.filterMap UserCall.forget) := by
  unfold userCalls ConnectionManager.userCalls
  induction calls generalizing b with
  | nil => rfl
  | cons c rest ih =>
    rw [List.foldl_cons, ih]
    cases c <;> rfl

/-- The retries reach the manager. -/
theorem manager_retryRequests (errorCb : ReqId → List UserCall) (b : ByteTotals)
    (reqs : List ReqId) :
    (retryRequests errorCb b reqs).manager =
      ConnectionManager.retryRequestsWith (fun req => (errorCb req).filterMap UserCall.forget)
      b.manager
        reqs := by
  induction reqs generalizing b with
  | nil => rfl
  | cons req rest ih =>
    simp only [retryRequests, ConnectionManager.retryRequestsWith]
    split
    · rw [ih, manager_userCalls]
      rfl
    · rw [ih]
      rfl

/-- The totals have no influence on the manager. -/
theorem map_manager_occur (b : ByteTotals) (e : Happening) :
    (b.occur e).map (fun b => b.manager) =
      match e.forget with
      | none => .ok b.manager
      | some o => b.manager.occur o := by
  cases e with
  | call c => cases c <;> rfl
  | transfer netloc instNum tx rx =>
    simp only [occur, Happening.forget, Except.map, transfer]
    split <;> rfl
  | bodyData netloc instNum len => rfl
  | responseDone netloc instNum calls =>
    simp only [occur, Happening.forget, responseDone, ConnectionManager.occur,
      ConnectionManager.responseDoneWith]
    cases (b.manager.cnx netloc instNum).bind fun c => c.active.head? with
    | none => rfl
    | some req =>
      simp only [manager_userCalls, withManager]
      generalize ConnectionManager.cnxRequestDoneCb _ netloc instNum = result
      cases result <;> rfl
  | unusable netloc instNum errorCb =>
    simp only [occur, Happening.forget, handleUnusableConn, releaseConn, ConnectionManager.occur,
      ConnectionManager.handleUnusableConnWith]
    cases b.manager.releaseConn netloc instNum with
    | error fault => rfl
    | ok released =>
      simp only
      split
      · simp only [Except.map, manager_retryRequests]
      · rfl
  | delete netloc instNum => rfl

end ByteTotals

/-! ## Where the connections are -/

namespace ConnectionManager

variable {m m' m'' : ConnectionManager} {netloc : NetLoc} {n since : ℕ} {dropped : List ℕ}

/-- `servers_` is finite. -/
def HasKeys (m : ConnectionManager) : Prop := ∃ keys, m.ListsKeys keys

/-- Connections are opened and none leaves its list. -/
structure Opens (m m' : ConnectionManager) : Prop where
  leads : m.Leads m'
  keeps : ∀ netloc, ∀ n ∈ m.liveNums netloc, n ∈ m'.liveNums netloc
  opened : ∀ n, m.nextInstNum ≤ n → n < m'.nextInstNum → ∃ netloc, n ∈ m'.liveNums netloc
  keys : m.HasKeys → m'.HasKeys

/-- Nothing is opened. -/
theorem Opens.refl (m : ConnectionManager) : m.Opens m :=
  ⟨Leads.refl m, fun _ _ hn => hn, fun _ hle hlt => absurd hlt (not_lt.mpr hle), fun h => h⟩

/-- What is opened, one after the other. -/
theorem Opens.trans (h : m.Opens m') (h' : m'.Opens m'') : m.Opens m'' := by
  refine ⟨h.leads.trans h'.leads, fun netloc n hn => h'.keeps netloc n (h.keeps netloc n hn), ?_,
    fun hkeys => h'.keys (h.keys hkeys)⟩
  intro n hle hlt
  rcases Nat.lt_or_ge n m'.nextInstNum with hold | hnew
  · obtain ⟨netloc, hn⟩ := h.opened n hle hold
    exact ⟨netloc, h'.keeps netloc n hn⟩
  · exact h'.opened n hnew hlt

/-- The connections stay what they are. -/
theorem opens_of_eq (hmax : m'.maxPersist = m.maxPersist) (hnext : m'.nextInstNum = m.nextInstNum)
    (hlive : ∀ netloc, m'.liveNums netloc = m.liveNums netloc)
    (hgone : ∀ netloc, m'.goneNums netloc = m.goneNums netloc) (hkeys : m.HasKeys → m'.HasKeys) :
    m.Opens m' := by
  refine ⟨leads_of_eq hmax hnext hlive hgone, fun netloc n hn => ?_, fun n hle hlt => ?_, hkeys⟩
  · rw [hlive]
    exact hn
  · rw [hnext] at hlt
    exact absurd hlt (not_lt.mpr hle)

/-- Another entry of `servers_`. -/
theorem HasKeys.setServer (h : m.HasKeys) (netloc : NetLoc) (server : Option Server) :
    (m.setServer netloc server).HasKeys := by
  obtain ⟨keys, hkeys⟩ := h
  have hnot : netloc ∉ keys.filter (· ≠ netloc) := by simp
  cases server with
  | none =>
    refine ⟨keys.filter (· ≠ netloc), hkeys.nodup.filter _, fun k => ?_⟩
    by_cases hk : k = netloc
    · simp [hk, ConnectionManager.setServer]
    · simp [hk, ConnectionManager.setServer, hkeys.mem_iff]
  | some server =>
    refine ⟨netloc :: keys.filter (· ≠ netloc), List.nodup_cons.mpr ⟨hnot, hkeys.nodup.filter _⟩,
      fun k => ?_⟩
    by_cases hk : k = netloc
    · simp [hk, ConnectionManager.setServer]
    · simp [hk, ConnectionManager.setServer, hkeys.mem_iff]

/-- The same keys. -/
theorem HasKeys.congr (h : m.HasKeys) (hservers : m'.servers = m.servers) : m'.HasKeys := by
  obtain ⟨keys, hkeys⟩ := h
  exact ⟨keys, hkeys.nodup, fun k => by rw [hservers]; exact hkeys.mem_iff k⟩

/-- A submitted request keeps the locations. -/
theorem hasKeys_submitRequest (h : m.HasKeys) (q : ReqId) : (m.submitRequest q).HasKeys := by
  unfold submitRequest
  dsimp only
  split
  · exact h.setServer _ _
  · split
    · exact (h.setServer _ _).congr rfl
    · exact h.setServer _ _

/-- A changed connection keeps the locations. -/
theorem hasKeys_updateCnx (h : m.HasKeys) (f : Cnx → Cnx) : (m.updateCnx netloc n f).HasKeys := by
  unfold updateCnx
  split
  · exact h.setServer _ _
  · exact h.congr rfl

/-- A submitted request opens at most one connection. -/
theorem opens_submitRequest (m : ConnectionManager) (q : ReqId) : m.Opens (m.submitRequest q) := by
  have hleads := leads_submitRequest m q
  obtain ⟨hmax, hgone, ⟨hlive, hnext⟩ | ⟨-, hown, hother, hnext⟩⟩ := liveNums_submitRequest m q
  · exact opens_of_eq hmax hnext hlive hgone fun h => hasKeys_submitRequest h q
  · refine ⟨hleads, fun k i hi => ?_, fun i hle hlt => ?_, fun h => hasKeys_submitRequest h q⟩
    · by_cases hk : k = (m.request q).netloc
      · rw [hk, hown, ← hk]
        exact List.mem_append_left _ hi
      · rw [hother k hk]
        exact hi
    · refine ⟨(m.request q).netloc, ?_⟩
      rw [hown, show i = m.nextInstNum by omega]
      exact List.mem_append_right _ (List.mem_singleton_self _)

/-- A new request opens at most one connection. -/
theorem opens_newRequest (m : ConnectionManager) (netloc : NetLoc) :
    m.Opens (m.newRequest netloc) := by
  have hcreated : m.Opens (m.created netloc) :=
    opens_of_eq rfl rfl (fun _ => rfl) (fun _ => rfl) fun h => h.congr rfl
  rw [newRequest_eq]
  exact hcreated.trans (opens_submitRequest _ _)

/-- Where the connections grow, they are opened. -/
theorem Grows.opens (h : m.Grows m') (hmax : m'.maxPersist = m.maxPersist)
    (hnext : m'.nextInstNum = m.nextInstNum) (hkeys : m.HasKeys → m'.HasKeys) : m.Opens m' := by
  refine ⟨h.leads hmax hnext, fun k i hi => ?_, fun i hle hlt => ?_, hkeys⟩
  · obtain ⟨opened, hlive, -, -⟩ := h.live k
    rw [hlive]
    exact List.mem_append_left _ hi
  · rw [hnext] at hlt
    exact absurd hlt (not_lt.mpr hle)

/-- A changed connection opens nothing. -/
theorem opens_updateCnx (m : ConnectionManager) {f : Cnx → Cnx}
    (hf : ∀ c, (f c).instNum = c.instNum) : m.Opens (m.updateCnx netloc n f) := by
  refine (grows_updateCnx m hf).opens ?_ (nextInstNum_updateCnx f) fun h => hasKeys_updateCnx h f
  unfold updateCnx
  split <;> rfl

/-- A waiting request is handed to a connection that is open. -/
theorem opens_cnxRequestDoneCb (h : m.cnxRequestDoneCb netloc n = .ok m') : m.Opens m' := by
  unfold cnxRequestDoneCb at h
  split at h
  · simp at h
  · rename_i server hserver
    split at h
    · obtain rfl := Except.ok.inj h
      exact Opens.refl m
    · rename_i req rest hrequests
      obtain rfl := Except.ok.inj h
      have htaken : m.Opens (m.setServer netloc (some { server with requests := rest })) := by
        refine opens_of_eq rfl rfl (fun k => ?_) (fun _ => rfl) fun h => h.setServer _ _
        by_cases hk : k = netloc
        · subst hk
          simp [liveNums, ConnectionManager.setServer, hserver]
        · simp [liveNums, ConnectionManager.setServer, hk]
      exact htaken.trans (opens_updateCnx _ fun _ => Cnx.instNum_submitRequest)

/-- Every connection created since the last reset is listed or was released, and is so only once. -/
structure Placed (m : ConnectionManager) (since : ℕ) (dropped : List ℕ) : Prop where
  separate : m.Separate
  keys : m.HasKeys
  next : since ≤ m.nextInstNum
  listed : ∀ netloc, ∀ n ∈ m.liveNums netloc, since ≤ n
  nodup : dropped.Nodup
  gone : ∀ n ∈ dropped, since ≤ n ∧ n < m.nextInstNum ∧ ∀ netloc, n ∉ m.liveNums netloc
  placed : ∀ n, since ≤ n → n < m.nextInstNum → n ∈ dropped ∨ ∃ netloc, n ∈ m.liveNums netloc

/-- A connection that is opened has a place of its own. -/
theorem Placed.opens (h : m.Placed since dropped) (hopens : m.Opens m') :
    m'.Placed since dropped := by
  have hnext := hopens.leads.evolves.next
  have hsince := h.next
  refine ⟨hopens.leads.separate h.separate, hopens.keys h.keys, by omega, ?_, h.nodup, ?_, ?_⟩
  · intro netloc n hn
    rcases hopens.leads.evolves.live netloc n hn with hold | hnew
    · exact h.listed netloc n hold
    · omega
  · intro n hn
    obtain ⟨hle, hlt, hnot⟩ := h.gone n hn
    refine ⟨hle, by omega, fun netloc hmem => ?_⟩
    rcases hopens.leads.evolves.live netloc n hmem with hold | hnew
    · exact hnot netloc hold
    · omega
  · intro n hle hlt
    rcases Nat.lt_or_ge n m.nextInstNum with hold | hnew
    · rcases h.placed n hle hold with hn | ⟨netloc, hn⟩
      · exact .inl hn
      · exact .inr ⟨netloc, hopens.keeps netloc n hn⟩
    · exact .inr (hopens.opened n hnew hlt)

/-- After a reset every connection was opened before. -/
theorem Placed.reset (h : m.Placed since dropped) : m.reset.Placed m.nextInstNum [] := by
  refine ⟨(leads_reset m).separate h.separate,
    ⟨[], List.nodup_nil, by simp [ConnectionManager.reset]⟩,
    le_rfl, ?_, List.nodup_nil, by simp, ?_⟩
  · intro netloc n hn
    simp [liveNums, ConnectionManager.reset] at hn
  · intro n hle hlt
    exact absurd hlt (not_lt.mpr hle)

/-- A released connection is dropped. -/
theorem Placed.release {conn : Cnx} (h : m.Placed since dropped)
    (hrelease : m.releaseConn netloc n = .ok (m', conn)) : m'.Placed since (n :: dropped) := by
  obtain ⟨hlive, -, hnext, hother, hmem, -⟩ := releaseConn_spec hrelease
  have hleads := leads_releaseConn hrelease
  have hgone : ∀ k, n ∉ m'.liveNums k := by
    intro k hn
    by_cases hk : k = netloc
    · subst hk
      rw [hlive] at hn
      exact (List.nodup_append'.mp (h.separate.distinct k)).1.not_mem_erase hn
    · rw [(hother k hk).1] at hn
      exact hk
        (h.separate.apart k netloc n (List.mem_append_left _ hn) (List.mem_append_left _ hmem))
  have hkept : ∀ k, ∀ i ∈ m'.liveNums k, i ∈ m.liveNums k := by
    intro k i hi
    by_cases hk : k = netloc
    · subst hk
      rw [hlive] at hi
      exact List.mem_of_mem_erase hi
    · rw [(hother k hk).1] at hi
      exact hi
  refine ⟨hleads.separate h.separate, ?_, hnext ▸ h.next, fun k i hi => h.listed k i (hkept k i hi),
    ?_, ?_, ?_⟩
  · unfold releaseConn at hrelease
    split at hrelease
    · simp at hrelease
    · split at hrelease
      · simp at hrelease
      · obtain ⟨rfl, -⟩ := Prod.mk.inj (Except.ok.inj hrelease)
        exact (h.keys.setServer _ _).congr rfl
  · refine List.nodup_cons.mpr ⟨fun hn => (h.gone n hn).2.2 netloc hmem, h.nodup⟩
  · intro i hi
    rw [hnext]
    rcases List.mem_cons.mp hi with rfl | hi
    · exact ⟨h.listed netloc i hmem, h.separate.below netloc i (List.mem_append_left _ hmem), hgone⟩
    · obtain ⟨hle, hlt, hnot⟩ := h.gone i hi
      exact ⟨hle, hlt, fun k hk => hnot k (hkept k i hk)⟩
  · intro i hle hlt
    rw [hnext] at hlt
    rcases h.placed i hle hlt with hi | ⟨k, hi⟩
    · exact .inl (List.mem_cons_of_mem _ hi)
    · by_cases hin : i = n
      · exact .inl (hin ▸ List.mem_cons_self)
      · refine .inr ⟨k, ?_⟩
        by_cases hk : k = netloc
        · subst hk
          rw [hlive]
          exact (List.mem_erase_of_ne hin).mpr hi
        · rw [(hother k hk).1]
          exact hi

/-- All connections created since the last reset, once each. -/
theorem Placed.perm (h : m.Placed since dropped) {keys : List NetLoc} (hkeys : m.ListsKeys keys) :
    (keys.flatMap m.liveNums ++ dropped).Perm (List.range' since (m.nextInstNum - since)) := by
  have hsince := h.next
  have hlisted : (keys.flatMap m.liveNums).Nodup := by
    refine List.nodup_flatMap.mpr ⟨fun k _ => (List.nodup_append'.mp (h.separate.distinct k)).1, ?_⟩
    refine hkeys.nodup.imp fun {k k'} hne n hn hn' => ?_
    exact hne (h.separate.apart k k' n (List.mem_append_left _ hn) (List.mem_append_left _ hn'))
  have hkey (k : NetLoc) {n : ℕ} (hn : n ∈ m.liveNums k) : k ∈ keys := by
    rw [hkeys.mem_iff]
    unfold liveNums at hn
    cases hserver : m.servers k with
    | none => simp [hserver] at hn
    | some server => rfl
  refine (List.perm_ext_iff_of_nodup ?_ List.nodup_range').mpr fun n => ?_
  · refine List.nodup_append'.mpr ⟨hlisted, h.nodup, fun n hn hn' => ?_⟩
    obtain ⟨k, -, hk⟩ := List.mem_flatMap.mp hn
    exact (h.gone n hn').2.2 k hk
  · rw [List.mem_append, List.mem_flatMap, List.mem_range'_1]
    constructor
    · rintro (⟨k, -, hn⟩ | hn)
      · have hlow := h.listed k n hn
        have hhigh := h.separate.below k n (List.mem_append_left _ hn)
        omega
      · obtain ⟨hlow, hhigh, -⟩ := h.gone n hn
        omega
    · rintro ⟨hlow, hhigh⟩
      rcases h.placed n hlow (by omega) with hn | ⟨k, hn⟩
      · exact .inr hn
      · exact .inl ⟨k, hkey k hn, hn⟩

end ConnectionManager

/-! ## The totals -/

namespace ByteTotals

variable {b b' : ByteTotals} {netloc : NetLoc} {instNum : ℕ}

/-- The connections are placed, and the totals are those of the released ones. -/
structure Kept (b : ByteTotals) : Prop where
  placed : b.manager.Placed b.since b.dropped
  tx : b.totaltxbytes = (b.dropped.map b.sentBytes).sum
  rx : b.totalrxbytes = (b.dropped.map b.recvBytes).sum
  reports : ∀ report ∈ b.reports, report.Exact

/-- Totals that are kept are exact. -/
theorem Kept.exact (h : b.Kept) : b.Exact := by
  refine ⟨⟨h.placed.keys, fun keys hkeys => ?_⟩, h.reports⟩
  have hperm := h.placed.perm hkeys
  have hsum (count : ℕ → ℕ) : (b.dropped.map count).sum +
      ((keys.flatMap b.manager.liveNums).map count).sum = (b.created.map count).sum := by
    have hcount := (hperm.map count).sum_eq
    rw [List.map_append, List.sum_append] at hcount
    rw [Snapshot.created, ← hcount, Nat.add_comm]
  rw [Snapshot.getTotalBytes, h.tx, h.rx, hsum, hsum]

/-- What the manager opens has no bytes yet. -/
theorem Kept.withManager {m : ConnectionManager} (h : b.Kept) (hopens : b.manager.Opens m) :
    (b.withManager m).Kept :=
  ⟨h.placed.opens hopens, h.tx, h.rx, h.reports⟩

/-- A reset drops all connections with their bytes. -/
theorem Kept.reset (h : b.Kept) : b.reset.Kept :=
  ⟨h.placed.reset, by simp [ByteTotals.reset], by simp [ByteTotals.reset], h.reports⟩

/-- A call of the user keeps the totals. -/
theorem Kept.userCall (h : b.Kept) (c : UserCall) : (b.userCall c).Kept := by
  cases c with
  | submit netloc => exact h.withManager (ConnectionManager.opens_newRequest _ _)
  | reset => exact h.reset
  | report =>
    refine ⟨h.placed, h.tx, h.rx, fun report hreport => ?_⟩
    rcases List.mem_append.mp hreport with hreport | hreport
    · exact h.reports report hreport
    · rw [List.mem_singleton.mp hreport]
      exact h.exact.now

/-- The calls of the user keep the totals. -/
theorem Kept.userCalls (h : b.Kept) (calls : List UserCall) : (b.userCalls calls).Kept := by
  unfold ByteTotals.userCalls
  induction calls generalizing b with
  | nil => exact h
  | cons c rest ih => exact ih (h.userCall c)

/-- The end of a response keeps the totals. -/
theorem Kept.responseDone {calls : List UserCall} (h : b.Kept)
    (hdone : b.responseDone netloc instNum calls = .ok b') : b'.Kept := by
  unfold ByteTotals.responseDone at hdone
  split at hdone
  · obtain rfl := Except.ok.inj hdone
    exact h
  · rename_i req hreq
    dsimp only at hdone
    split at hdone
    · simp at hdone
    · rename_i m hcb
      obtain rfl := Except.ok.inj hdone
      have hpopped : b.manager.Opens (b.manager.updateCnx netloc instNum Cnx.popActive) :=
        ConnectionManager.opens_updateCnx _ fun _ => rfl
      have hdone : (b.manager.updateCnx netloc instNum Cnx.popActive).Opens
          { b.manager.updateCnx netloc instNum Cnx.popActive with
            done := (b.manager.updateCnx netloc instNum Cnx.popActive).done ++ [req] } :=
        ConnectionManager.opens_of_eq rfl rfl (fun _ => rfl) (fun _ => rfl) fun h => h.congr rfl
      have hnotified := (h.withManager (hpopped.trans hdone)).userCalls calls
      exact hnotified.withManager ((ConnectionManager.opens_cnxRequestDoneCb hcb).trans
        (ConnectionManager.opens_updateCnx m fun _ => Cnx.instNum_httpWriteToOutbuf))

/-- The retries keep the totals. -/
theorem Kept.retryRequests (errorCb : ReqId → List UserCall) (h : b.Kept) (reqs : List ReqId) :
    (ByteTotals.retryRequests errorCb b reqs).Kept := by
  induction reqs generalizing b with
  | nil => exact h
  | cons req rest ih =>
    simp only [ByteTotals.retryRequests]
    split
    · refine ih (Kept.userCalls (h.withManager ?_) _)
      exact ConnectionManager.opens_of_eq rfl rfl (fun _ => rfl) (fun _ => rfl) fun h => h.congr rfl
    · refine ih (h.withManager (ConnectionManager.Opens.trans ?_
        (ConnectionManager.opens_submitRequest _ req)))
      exact ConnectionManager.opens_of_eq rfl rfl (fun _ => rfl) (fun _ => rfl) fun h => h.congr rfl

/-- A release adds the bytes of the connection to the totals. -/
theorem Kept.releaseConn {conn : Cnx} (h : b.Kept)
    (hrelease : b.releaseConn netloc instNum = .ok (b', conn)) : b'.Kept := by
  unfold ByteTotals.releaseConn at hrelease
  split at hrelease
  · simp at hrelease
  · rename_i m c hm
    obtain ⟨rfl, -⟩ := Prod.mk.inj (Except.ok.inj hrelease)
    refine ⟨h.placed.release hm, ?_, ?_, h.reports⟩
    · simp only [h.tx, List.map_cons, List.sum_cons]
      omega
    · simp only [h.rx, List.map_cons, List.sum_cons]
      omega

/-- A counter that is not folded in yet goes on. -/
theorem Kept.transfer {tx rx : ℕ} (h : b.Kept)
    (hcounts : b.CountsListed (.transfer netloc instNum tx rx)) :
    (b.transfer netloc instNum tx rx).Kept := by
  unfold ByteTotals.transfer
  split
  · rename_i hcnx
    rcases hcounts hcnx with ⟨rfl, rfl⟩ | hplace
    · simpa using h
    · have hnot : instNum ∉ b.dropped := by
        intro hmem
        obtain ⟨hsince, -, hlisted⟩ := h.placed.gone instNum hmem
        rcases hplace with hlive | hold
        · exact hlisted netloc hlive
        · omega
      have hsame (count : ℕ → ℕ) (k : ℕ) :
          b.dropped.map (Function.update count instNum k) = b.dropped.map count := by
        refine List.map_congr_left fun i hi => Function.update_of_ne ?_ _ _
        rintro rfl
        exact hnot hi
      exact ⟨h.placed, by simp only [hsame, h.tx], by simp only [hsame, h.rx], h.reports⟩
  · exact h

/-- Every happening on a listed connection keeps the totals. -/
theorem Kept.occur {e : Happening} (h : b.Kept) (hcounts : b.CountsListed e)
    (hoccur : b.occur e = .ok b') : b'.Kept := by
  cases e with
  | call c =>
    obtain rfl := Except.ok.inj hoccur
    exact h.userCall c
  | transfer netloc instNum tx rx =>
    obtain rfl := Except.ok.inj hoccur
    exact h.transfer hcounts
  | bodyData netloc instNum len =>
    obtain rfl := Except.ok.inj hoccur
    have hgrows : b.manager.Grows (b.manager.responseBodyData netloc instNum len) :=
      ConnectionManager.grows_responseBodyData b.manager len
    refine h.withManager (hgrows.opens ?_ ?_ fun hkeys => hkeys.congr ?_)
    all_goals
      unfold ConnectionManager.responseBodyData
      split <;> rfl
  | responseDone netloc instNum calls => exact h.responseDone hoccur
  | unusable netloc instNum errorCb =>
    simp only [ByteTotals.occur, handleUnusableConn] at hoccur
    split at hoccur
    · simp at hoccur
    · rename_i b₁ conn hrelease
      split at hoccur
      · obtain rfl := Except.ok.inj hoccur
        exact (h.releaseConn hrelease).retryRequests errorCb conn.active
      · simp at hoccur
  | delete netloc instNum =>
    obtain rfl := Except.ok.inj hoccur
    have hleads := ConnectionManager.leads_occur (m := b.manager) (e := .delete netloc instNum) rfl
    exact h.withManager ⟨hleads, fun _ _ hn => hn, fun n hle hlt => absurd hlt (not_lt.mpr hle),
      fun hkeys => hkeys.congr rfl⟩

/-- One of the counters goes on. -/
theorem sum_map_update {l : List ℕ} (count : ℕ → ℕ) {n : ℕ} (k : ℕ) (hl : l.Nodup) (hn : n ∈ l) :
    (l.map (Function.update count n (count n + k))).sum = (l.map count).sum + k := by
  have hperm := List.perm_cons_erase hn
  have hrest : (l.erase n).map (Function.update count n (count n + k)) = (l.erase n).map count := by
    refine List.map_congr_left fun i hi => Function.update_of_ne ?_ _ _
    rintro rfl
    exact hl.not_mem_erase hi
  rw [(hperm.map _).sum_eq, (hperm.map count).sum_eq]
  simp only [List.map_cons, List.sum_cons, Function.update_self, hrest]
  omega

/-- Bytes that pass on a released connection are missing in the totals. -/
theorem not_exact_transfer {tx rx : ℕ} (h : b.Kept)
    (hcounts : ¬b.CountsListed (.transfer netloc instNum tx rx)) :
    ¬(b.transfer netloc instNum tx rx).Exact := by
  simp only [CountsListed, Classical.not_imp, not_or, not_lt] at hcounts
  obtain ⟨hcnx, hbytes, hdead, hsince⟩ := hcounts
  have hgone : instNum ∈ b.manager.goneNums netloc := by
    rw [ConnectionManager.cnx_of_not_isLive (by
      rw [← Bool.not_eq_true, ConnectionManager.isLive_iff]
      exact hdead)] at hcnx
    exact Cnx.isSome_find_iff.mp hcnx
  have hnum : instNum ∈ b.manager.nums netloc := List.mem_append_right _ hgone
  have hunlisted (k : NetLoc) : instNum ∉ b.manager.liveNums k := by
    intro hn
    obtain rfl := h.placed.separate.apart k netloc instNum (List.mem_append_left _ hn) hnum
    exact hdead hn
  have hcreated : instNum ∈ b.created := by
    have hlt := h.placed.separate.below netloc instNum hnum
    rw [Snapshot.created, List.mem_range'_1]
    omega
  intro hexact
  obtain ⟨keys, hkeys⟩ := h.placed.keys
  have hbefore := h.exact.now.totals keys hkeys
  have hlisted (count : ℕ → ℕ) (k : ℕ) :
      (keys.flatMap b.manager.liveNums).map (Function.update count instNum k) =
        (keys.flatMap b.manager.liveNums).map count := by
    refine List.map_congr_left fun i hi => Function.update_of_ne ?_ _ _
    rintro rfl
    obtain ⟨k, -, hk⟩ := List.mem_flatMap.mp hi
    exact hunlisted k hk
  have hafter := hexact.now
  rw [ByteTotals.transfer, if_pos hcnx] at hafter
  have htotals := hafter.totals keys hkeys
  simp only [Snapshot.getTotalBytes, Snapshot.created, Prod.mk.injEq, hlisted] at hbefore htotals
  have hsum (count : ℕ → ℕ) (k : ℕ) := sum_map_update count k List.nodup_range' hcreated
  simp only [hsum] at htotals
  omega

/-- A new manager has no bytes. -/
theorem kept_new (maxPersist maxRetries : ℕ) : (new maxPersist maxRetries).Kept := by
  have hlive (k : NetLoc) : (new maxPersist maxRetries).manager.liveNums k = [] := by
    rw [ConnectionManager.liveNums, new]
    rfl
  refine ⟨⟨ConnectionManager.separate_new maxPersist maxRetries, ⟨[], List.nodup_nil, ?_⟩, le_rfl,
    ?_, List.nodup_nil, ?_, ?_⟩, ?_, ?_, ?_⟩
  · intro k
    simp [new, ConnectionManager.new]
  · intro k n hn
    rw [hlive] at hn
    cases hn
  · simp [new]
  · intro n hle hlt
    simp [new, ConnectionManager.new] at hlt
  · simp [new]
  · simp [new]
  · simp [new]

/-- For every run, in any order of events and with any callbacks: the totals are right at all
moments, and in all reports, just if no bytes pass on a connection between its release and the next
reset. -/
theorem exact_iff_countsListed (maxPersist maxRetries : ℕ) (es : List Happening) :
    (∀ b, Visits occur (new maxPersist maxRetries) es b → b.Exact) ↔
      StepsMeet occur CountsListed (new maxPersist maxRetries) es := by
  refine forall_visits_iff_stepsMeet_of_leaves Kept Exact (fun _ h => h.exact)
    (fun _ _ _ h hcounts hstep => h.occur hcounts hstep) ?_ (kept_new maxPersist maxRetries)
  intro b e h hcounts
  cases e with
  | transfer netloc instNum tx rx => exact ⟨_, rfl, not_exact_transfer h hcounts⟩
  | _ => exact absurd trivial hcounts

/-- A connection reports an error and is released, and its descriptor was readable, too. -/
theorem not_exact_released : ∃ b, runSteps occur (new 2 1)
    [.call (.submit ([], 80)), .unusable ([], 80) 0 fun _ => [], .transfer ([], 80) 0 0 5] = .ok b ∧
      ¬b.Exact := by
  obtain ⟨b, hrun, hcnx, hlive, hsince⟩ : ∃ b, runSteps occur (new 2 1)
      [.call (.submit ([], 80)), .unusable ([], 80) 0 fun _ => []] = .ok b ∧
      (b.manager.cnx ([], 80) 0).isSome = true ∧ b.manager.liveNums ([], 80) = [1] ∧ b.since = 0 :=
    exists_ok_of_map (by decide +kernel)
  have hkept : b.Kept := by
    refine invariant_of_stepsMeet Kept (fun _ _ _ h hcounts hstep => h.occur hcounts hstep)
      (kept_new 2 1) ?_ hrun
    exact ⟨trivial, fun _ _ => ⟨trivial, fun _ _ => trivial⟩⟩
  refine ⟨_, (runSteps_append_of_ok hrun).trans rfl, not_exact_transfer hkept fun hcounts => ?_⟩
  rcases hcounts hcnx with ⟨-, hnone⟩ | hmem | hlt
  · cases hnone
  · rw [hlive] at hmem
    simp at hmem
  · omega

end ByteTotals

end ShadowExtras.Web
