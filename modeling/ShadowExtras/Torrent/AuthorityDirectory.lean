import ShadowExtras.Torrent.Authority

/-!
# The directory of the torrent authority

`Directory` is what the lists of the authority are for: they hold open connections only, none twice,
and every server in them has been announced to every client in them. The code loses it when a peer
that is in a list closes its connection (the list keeps the pointer), when a peer sends the same
message again, when a `send` fails or is cut short in the middle of a broadcast, and when there are
more servers than the count of a message can tell.

`directory_of_keepsDirectory` says that nothing else goes wrong: in every run whose activations meet
`KeepsDirectory` no freed connection is touched and every state has a directory.
-/

namespace ShadowExtras.Torrent

open Foundation

namespace TorrentAuthority

variable {ta ta' : TorrentAuthority} {i : AuthorityInput} {c : Connection} {id : ℕ}

/-- The connection is in the table, that is, it was accepted and not closed. -/
def IsOpen (ta : TorrentAuthority) (id : ℕ) : Prop := ∃ c ∈ ta.connections, c.id = id

/-- The connection has been sent a message that lists the node. -/
def Announced (ta : TorrentAuthority) (client : ℕ) (node : Node) : Prop :=
  ∃ bytes, (client, bytes) ∈ ta.sent ∧ node ∈ nodesOf bytes

/-- What the lists of the authority are for. -/
structure Directory (ta : TorrentAuthority) : Prop where
  servers_open : ∀ id ∈ ta.servers, ta.IsOpen id
  clients_open : ∀ id ∈ ta.clients, ta.IsOpen id
  servers_nodup : ta.servers.Nodup
  clients_nodup : ta.clients.Nodup
  announced : ∀ server ∈ ta.connections, server.id ∈ ta.servers →
    ∀ client ∈ ta.clients, ta.Announced client server.node

/-- The table holds connections that were allocated, none twice, under different descriptors. -/
structure WellFormed (ta : TorrentAuthority) : Prop where
  id_lt : ∀ c ∈ ta.connections, c.id < ta.allocated
  eq_of_id : ∀ c ∈ ta.connections, ∀ c' ∈ ta.connections, c.id = c'.id → c = c'
  eq_of_sockd : ∀ c ∈ ta.connections, ∀ c' ∈ ta.connections, c.sockd = c'.sockd → c = c'

/-- The connection that an activation is about. -/
def target (ta : TorrentAuthority) (i : AuthorityInput) : Option Connection :=
  if i.sockd < 0 ∨ i.sockd = ta.listenSockd then none else ta.lookup i.sockd

/-- `accept` gives descriptors that are not in use. -/
def KernelKeeps (ta : TorrentAuthority) (i : AuthorityInput) : Prop :=
  (i.accepts.map Prod.fst).Nodup ∧
    ∀ peer ∈ i.accepts, ∀ c ∈ ta.connections, c.sockd ≠ peer.1

instance (ta : TorrentAuthority) (i : AuthorityInput) : Decidable (KernelKeeps ta i) :=
  inferInstanceAs (Decidable (_ ∧ _))

/-- `send` accepts all of a message of this length. -/
def SendsWhole (length : ℕ) (answer : Answer) : Prop := answer.send length = .ok length

instance (length : ℕ) (answer : Answer) : Decidable (SendsWhole length answer) :=
  decidable_of_iff ((answer.send length).toOption = some length) (by
    unfold SendsWhole
    cases answer.send length <;> simp [Except.toOption])

/-- The first `count` calls of `send` accept all of a message of this length. -/
def AllSendWhole (length : ℕ) : ℕ → List Answer → Prop
  | 0, _ => True
  | count + 1, sends => SendsWhole length (nextAnswer sends) ∧ AllSendWhole length count sends.tail

instance decidableAllSendWhole (length : ℕ) :
    ∀ count sends, Decidable (AllSendWhole length count sends)
  | 0, _ => isTrue trivial
  | count + 1, sends =>
    have := decidableAllSendWhole length count sends.tail
    inferInstanceAs (Decidable (_ ∧ _))

/-- The length of an announcement. -/
def announcementLength : ℕ := 1 + entryLength

/-- An activation of a connection that does not lose the directory: a connection that is closed is
in no list, a server registers once and is announced to all clients in full, and a client asks once
and is sent all servers in one message that can count them. -/
def KeepsListed (ta : TorrentAuthority) (id : ℕ) (i : AuthorityInput) : Prop :=
  match i.received with
  | .error .wouldBlock => True
  | .error _ | .ok [] => id ∉ ta.servers ∧ id ∉ ta.clients
  | .ok (b :: _) =>
    (b = msgRegister →
      id ∉ ta.servers ∧ AllSendWhole announcementLength ta.clients.length i.sends) ∧
    (b = msgRequestNodes → id ∉ ta.clients ∧ (ta.servers ≠ [] → ta.servers.length < 256 ∧
      SendsWhole (1 + entryLength * ta.servers.length) (nextAnswer i.sends)))

instance (ta : TorrentAuthority) (id : ℕ) (i : AuthorityInput) :
    Decidable (KeepsListed ta id i) := by
  unfold KeepsListed
  split <;> infer_instance

/-- An activation that does not lose the directory. -/
def KeepsDirectory (ta : TorrentAuthority) (i : AuthorityInput) : Prop :=
  match ta.target i with
  | none => True
  | some c => KeepsListed ta c.id i

instance (ta : TorrentAuthority) (i : AuthorityInput) : Decidable (KeepsDirectory ta i) := by
  unfold KeepsDirectory
  split <;> infer_instance

/-! ## Following pointers -/

/-- A connection of the table is not freed. -/
theorem WellFormed.deref (h : ta.WellFormed) (hc : c ∈ ta.connections) :
    ta.deref c.id = .ok c := by
  unfold TorrentAuthority.deref
  cases hfind : ta.connections.find? fun c' => c'.id = c.id with
  | none =>
    have hnone := List.find?_eq_none.mp hfind c hc
    simp at hnone
  | some c' =>
    have hmem : c' ∈ ta.connections := List.mem_of_find?_eq_some hfind
    have hid : c'.id = c.id := by simpa using List.find?_some hfind
    rw [h.eq_of_id c' hmem c hc hid]

theorem mem_of_lookup {sockd : Int} (h : ta.lookup sockd = some c) :
    c ∈ ta.connections ∧ c.sockd = sockd :=
  ⟨List.mem_of_find?_eq_some h, by simpa using List.find?_some h⟩

/-- The connection that is activated is in the table. -/
theorem mem_of_target (h : ta.target i = some c) : c ∈ ta.connections := by
  unfold target at h
  split_ifs at h
  exact (mem_of_lookup h).1

/-! ## The operations -/

/-- A call of `send` changes nothing but what was sent. -/
theorem send_fst (ta : TorrentAuthority) (id : ℕ) (message : Bytes) (answer : Answer) :
    ∃ sent, (ta.send id message answer).1 = { ta with sent := sent } := by
  unfold send
  split
  · exact ⟨ta.sent, rfl⟩
  · exact ⟨_, rfl⟩

/-- A message that is sent as a whole. -/
theorem send_of_sendsWhole {message : Bytes} {answer : Answer}
    (h : SendsWhole message.length answer) (id : ℕ) :
    ta.send id message answer = ({ ta with sent := ta.sent ++ [(id, message)] }, true) := by
  unfold SendsWhole at h
  simp [send, h]

/-- A broadcast in which every message is sent as a whole. -/
theorem announce_of_allSendWhole {message : Bytes} {ids : List ℕ} {sends : List Answer}
    (h : ta.WellFormed) (hopen : ∀ id ∈ ids, ta.IsOpen id)
    (hsends : AllSendWhole message.length ids.length sends) :
    ta.announce message ids sends =
      .ok ({ ta with sent := ta.sent ++ ids.map fun id => (id, message) }, .success) := by
  induction ids generalizing ta sends with
  | nil => simp [announce]
  | cons id ids ih =>
    obtain ⟨client, hclient, rfl⟩ := hopen id (by simp)
    have hsent : ({ ta with sent := ta.sent ++ [(client.id, message)] } :
        TorrentAuthority).WellFormed := ⟨h.id_lt, h.eq_of_id, h.eq_of_sockd⟩
    have hrest := ih hsent (fun id hid => hopen id (by simp [hid])) hsends.2
    simp only [announce, h.deref hclient, send_of_sendsWhole hsends.1, hrest]
    simp

/-- The entries of a full list are the servers. -/
theorem serverNodes_of_isOpen {ids : List ℕ} (h : ta.WellFormed)
    (hopen : ∀ id ∈ ids, ta.IsOpen id) :
    ∃ nodes, ta.serverNodes ids = .ok nodes ∧ nodes.length = ids.length ∧
      ∀ server ∈ ta.connections, server.id ∈ ids → server.node ∈ nodes := by
  induction ids with
  | nil => exact ⟨[], rfl, rfl, by simp⟩
  | cons id ids ih =>
    obtain ⟨server, hserver, rfl⟩ := hopen id (by simp)
    obtain ⟨nodes, hnodes, hlength, hmem⟩ := ih fun id hid => hopen id (by simp [hid])
    refine ⟨server.node :: nodes, ?_, ?_, ?_⟩
    · simp only [serverNodes, h.deref hserver, hnodes]
    · simp [hlength]
    · intro other hother hid
      rcases List.mem_cons.mp hid with heq | hrest
      · rw [h.eq_of_id other hother server hserver heq]
        exact List.mem_cons_self
      · exact List.mem_cons_of_mem _ (hmem other hother hrest)

/-- A connection that is in no list may be closed. -/
theorem directory_connectionClose (hwf : ta.WellFormed) (h : ta.Directory)
    (hc : c ∈ ta.connections) (hserver : c.id ∉ ta.servers) (hclient : c.id ∉ ta.clients) :
    (ta.connectionClose c).WellFormed ∧ (ta.connectionClose c).Directory := by
  have hsub : ∀ c' ∈ (ta.connectionClose c).connections, c' ∈ ta.connections := fun c' hc' =>
    (List.mem_filter.mp hc').1
  have hopen : ∀ id, ta.IsOpen id → id ≠ c.id → (ta.connectionClose c).IsOpen id := by
    rintro _ ⟨c', hc', rfl⟩ hne
    refine ⟨c', List.mem_filter.mpr ⟨hc', ?_⟩, rfl⟩
    have hsockd : c'.sockd ≠ c.sockd := fun heq =>
      hne (congrArg Connection.id (hwf.eq_of_sockd c' hc' c hc heq))
    simpa using hsockd
  constructor
  · exact ⟨fun c' hc' => hwf.id_lt c' (hsub c' hc'),
      fun c' hc' d hd => hwf.eq_of_id c' (hsub c' hc') d (hsub d hd),
      fun c' hc' d hd => hwf.eq_of_sockd c' (hsub c' hc') d (hsub d hd)⟩
  · refine ⟨fun id hid => hopen id (h.servers_open id hid) ?_,
      fun id hid => hopen id (h.clients_open id hid) ?_, h.servers_nodup, h.clients_nodup,
      fun server hs => h.announced server (hsub server hs)⟩
    · rintro rfl
      exact hserver hid
    · rintro rfl
      exact hclient hid

/-- A connection is accepted under a descriptor that is not in use. -/
theorem directory_accept {sockd : Int} (addr : InAddr) (hwf : ta.WellFormed) (h : ta.Directory)
    (hfresh : ∀ c ∈ ta.connections, c.sockd ≠ sockd) :
    (ta.accept sockd addr).WellFormed ∧ (ta.accept sockd addr).Directory ∧
      ∀ c ∈ (ta.accept sockd addr).connections, c ∈ ta.connections ∨ c.sockd = sockd := by
  have hkept : ta.connections.filter (fun c => c.sockd ≠ sockd) = ta.connections :=
    List.filter_eq_self.mpr fun c hc => by simpa using hfresh c hc
  obtain ⟨new, hconnections, hid, hsockd⟩ : ∃ new : Connection,
      (ta.accept sockd addr).connections = new :: ta.connections ∧ new.id = ta.allocated ∧
        new.sockd = sockd := by
    refine ⟨{ id := ta.allocated, sockd := sockd, addr := addr, serverPort := .of 0 0 },
      ?_, rfl, rfl⟩
    simp only [accept, connectionClose, hkept]
  have hnew : ∀ c ∈ ta.connections, new.id ≠ c.id := by
    intro c hc heq
    have hlt := hwf.id_lt c hc
    omega
  have hopen : ∀ id, ta.IsOpen id → (ta.accept sockd addr).IsOpen id := by
    rintro _ ⟨c, hc, rfl⟩
    exact ⟨c, by rw [hconnections]; exact List.mem_cons_of_mem _ hc, rfl⟩
  refine ⟨⟨?_, ?_, ?_⟩, ⟨fun id hid => hopen id (h.servers_open id hid),
    fun id hid => hopen id (h.clients_open id hid), h.servers_nodup, h.clients_nodup, ?_⟩, ?_⟩
  · rw [hconnections]
    intro c hc
    change c.id < ta.allocated + 1
    rcases List.mem_cons.mp hc with rfl | hc
    · omega
    · have hlt := hwf.id_lt c hc
      omega
  · rw [hconnections]
    intro c hc d hd heq
    rcases List.mem_cons.mp hc with hc' | hc' <;> rcases List.mem_cons.mp hd with hd' | hd'
    · rw [hc', hd']
    · exact absurd (hc' ▸ heq) (hnew d hd')
    · exact absurd (hd' ▸ heq).symm (hnew c hc')
    · exact hwf.eq_of_id c hc' d hd' heq
  · rw [hconnections]
    intro c hc d hd heq
    rcases List.mem_cons.mp hc with hc' | hc' <;> rcases List.mem_cons.mp hd with hd' | hd'
    · rw [hc', hd']
    · exact absurd (heq.symm.trans (hc' ▸ hsockd)) (hfresh d hd')
    · exact absurd (heq.trans (hd' ▸ hsockd)) (hfresh c hc')
    · exact hwf.eq_of_sockd c hc' d hd' heq
  · rw [hconnections]
    intro server hs hid' client hclient
    rcases List.mem_cons.mp hs with rfl | hs
    · obtain ⟨c, hc, heq⟩ := h.servers_open _ hid'
      exact absurd heq.symm (hnew c hc)
    · exact h.announced server hs hid' client hclient
  · rw [hconnections]
    intro c hc
    rcases List.mem_cons.mp hc with rfl | hc
    · exact .inr hsockd
    · exact .inl hc

/-- Connections are accepted one after the other. -/
theorem directory_accepts {accepts : List (Int × InAddr)} (hwf : ta.WellFormed)
    (h : ta.Directory) (hnodup : (accepts.map Prod.fst).Nodup)
    (hfresh : ∀ peer ∈ accepts, ∀ c ∈ ta.connections, c.sockd ≠ peer.1) :
    (accepts.foldl (fun ta peer => ta.accept peer.1 peer.2) ta).WellFormed ∧
      (accepts.foldl (fun ta peer => ta.accept peer.1 peer.2) ta).Directory := by
  induction accepts generalizing ta with
  | nil => exact ⟨hwf, h⟩
  | cons peer accepts ih =>
    obtain ⟨hnotin, hnodup⟩ := List.nodup_cons.mp hnodup
    obtain ⟨hwf', h', hmem⟩ := directory_accept peer.2 hwf h (hfresh peer (by simp))
    refine ih hwf' h' hnodup fun other hother c hc => ?_
    rcases hmem c hc with hold | hsockd
    · exact hfresh other (by simp [hother]) c hold
    · rw [hsockd]
      intro heq
      exact hnotin (heq ▸ List.mem_map_of_mem hother)

/-- What was announced stays announced. -/
theorem Announced.mono {client : ℕ} {node : Node} (h : ta.Announced client node)
    (hsent : ∀ entry ∈ ta.sent, entry ∈ ta'.sent) : ta'.Announced client node := by
  obtain ⟨bytes, hbytes, hnode⟩ := h
  exact ⟨bytes, hsent _ hbytes, hnode⟩

/-- A connection registers, and everybody is told. -/
theorem directory_register {port : InPort} {sends : List Answer} (hwf : ta.WellFormed)
    (h : ta.Directory) (hc : c ∈ ta.connections) (hnew : c.id ∉ ta.servers)
    (hsends : AllSendWhole announcementLength ta.clients.length sends) :
    ∃ ta', ta.register c port sends = .ok (ta', .success) ∧ ta'.WellFormed ∧ ta'.Directory := by
  set ta₁ : TorrentAuthority :=
    { ta.setServerPort c.id port with servers := ta.servers ++ [c.id] } with hta₁
  -- a connection with the port set is one of the connections before
  have hmem : ∀ c' ∈ ta₁.connections, ∃ d ∈ ta.connections, d.id = c'.id ∧ d.sockd = c'.sockd ∧
      c'.node = if d.id = c.id then { addr := d.addr, port := port } else d.node := by
    intro c' hc'
    obtain ⟨d, hd, rfl⟩ := List.mem_map.mp hc'
    refine ⟨d, hd, ?_⟩
    split_ifs <;> exact ⟨rfl, rfl, rfl⟩
  have hopen : ∀ id, ta.IsOpen id → ta₁.IsOpen id := by
    rintro _ ⟨d, hd, rfl⟩
    refine ⟨_, List.mem_map_of_mem hd, ?_⟩
    split_ifs <;> rfl
  have hwf₁ : ta₁.WellFormed := by
    refine ⟨fun c' hc' => ?_, fun c' hc' c'' hc'' heq => ?_, fun c' hc' c'' hc'' heq => ?_⟩
    · obtain ⟨d, hd, hid, -⟩ := hmem c' hc'
      rw [← hid]
      exact hwf.id_lt d hd
    · obtain ⟨d, hd, rfl⟩ := List.mem_map.mp hc'
      obtain ⟨d', hd', rfl⟩ := List.mem_map.mp hc''
      rw [hwf.eq_of_id d hd d' hd' (by split_ifs at heq <;> exact heq)]
    · obtain ⟨d, hd, rfl⟩ := List.mem_map.mp hc'
      obtain ⟨d', hd', rfl⟩ := List.mem_map.mp hc''
      rw [hwf.eq_of_sockd d hd d' hd' (by split_ifs at heq <;> exact heq)]
  set node : Node := { addr := c.addr, port := port } with hnode
  have hsends' : AllSendWhole (nodeMessage [node]).length ta.clients.length sends := by
    rw [length_nodeMessage]
    exact hsends
  have hannounce := announce_of_allSendWhole hwf₁
    (fun id hid => hopen id (h.clients_open id hid)) hsends'
  refine ⟨_, hannounce, ⟨hwf₁.id_lt, hwf₁.eq_of_id, hwf₁.eq_of_sockd⟩, ?_, ?_, ?_,
    h.clients_nodup, ?_⟩
  · intro id hid
    rcases List.mem_append.mp hid with hold | hself
    · exact hopen id (h.servers_open id hold)
    · rw [List.mem_singleton.mp hself]
      exact hopen c.id ⟨c, hc, rfl⟩
  · exact fun id hid => hopen id (h.clients_open id hid)
  · exact List.nodup_append.mpr ⟨h.servers_nodup, List.nodup_singleton _, by
      intro a ha b hb
      rw [List.mem_singleton.mp hb]
      rintro rfl
      exact hnew ha⟩
  · intro server hs hid client hclient
    obtain ⟨d, hd, heq, -, hdnode⟩ := hmem server hs
    by_cases hself : d.id = c.id
    · -- the connection itself is announced to everybody now
      have hdc : d = c := hwf.eq_of_id d hd c hc hself
      rw [hdnode, if_pos hself, hdc]
      refine ⟨nodeMessage [node], ?_, ?_⟩
      · exact List.mem_append_right _ (List.mem_map_of_mem hclient)
      · rw [nodesOf_nodeMessage (by rw [List.length_singleton]; decide)]
        exact List.mem_singleton_self _
    · rw [hdnode, if_neg hself]
      have hold : d.id ∈ ta.servers := by
        rcases List.mem_append.mp hid with hold | hlast
        · rw [heq]
          exact hold
        · rw [← heq] at hlast
          exact absurd (List.mem_singleton.mp hlast) hself
      exact (h.announced d hd hold client hclient).mono fun entry hentry =>
        List.mem_append_left _ hentry

/-- A connection asks for the servers, and is told all of them. -/
theorem directory_requestNodes {sends : List Answer} (hwf : ta.WellFormed) (h : ta.Directory)
    (hc : c ∈ ta.connections) (hnew : c.id ∉ ta.clients)
    (hsend : ta.servers ≠ [] → ta.servers.length < 256 ∧
      SendsWhole (1 + entryLength * ta.servers.length) (nextAnswer sends)) :
    ∃ ta' code, ta.requestNodes c sends = .ok (ta', code) ∧ ta'.WellFormed ∧ ta'.Directory := by
  set ta₁ : TorrentAuthority := { ta with clients := ta.clients ++ [c.id] } with hta₁
  have hwf₁ : ta₁.WellFormed := ⟨hwf.id_lt, hwf.eq_of_id, hwf.eq_of_sockd⟩
  have hnodup : ta₁.clients.Nodup := List.nodup_append.mpr ⟨h.clients_nodup,
    List.nodup_singleton _, by
      intro a ha b hb
      rw [List.mem_singleton.mp hb]
      rintro rfl
      exact hnew ha⟩
  have hopen : ∀ id ∈ ta₁.clients, ta.IsOpen id := by
    intro id hid
    rcases List.mem_append.mp hid with hold | hself
    · exact h.clients_open id hold
    · rw [List.mem_singleton.mp hself]
      exact ⟨c, hc, rfl⟩
  obtain ⟨nodes, hnodes, hlength, hmem⟩ := serverNodes_of_isOpen hwf₁ h.servers_open
  have hmessage : (nodeMessage nodes).length = 1 + entryLength * ta.servers.length := by
    rw [length_nodeMessage, hlength]
  have hshort : ¬(nodeMessage nodes).length > authorityBufSize := by
    rw [hmessage, authorityBufSize, entryLength]
    by_cases hservers : ta.servers = []
    · rw [hservers]
      decide
    · have hcount := (hsend hservers).1
      omega
  obtain ⟨code, hstep⟩ : ∃ code, ta.requestNodes c sends =
      .ok ((ta₁.send c.id (nodeMessage nodes) (nextAnswer sends)).1, code) := by
    simp only [requestNodes, ← hta₁]
    rw [show ta₁.servers = ta.servers from rfl, hnodes]
    simp only [if_neg hshort]
    cases ta₁.send c.id (nodeMessage nodes) (nextAnswer sends) with
    | mk ta' ok => cases ok <;> exact ⟨_, rfl⟩
  refine ⟨_, code, hstep, ?_⟩
  by_cases hservers : ta.servers = []
  · -- there is nothing to tell, so it does not matter what happens to the message
    obtain ⟨sent, hsent⟩ := send_fst ta₁ c.id (nodeMessage nodes) (nextAnswer sends)
    rw [hsent]
    refine ⟨⟨hwf₁.id_lt, hwf₁.eq_of_id, hwf₁.eq_of_sockd⟩, h.servers_open, hopen,
      h.servers_nodup, hnodup, fun server _ hid => ?_⟩
    change server.id ∈ ta.servers at hid
    rw [hservers] at hid
    cases hid
  · obtain ⟨hcount, hwhole⟩ := hsend hservers
    rw [← hmessage] at hwhole
    rw [send_of_sendsWhole hwhole]
    refine ⟨⟨hwf₁.id_lt, hwf₁.eq_of_id, hwf₁.eq_of_sockd⟩, h.servers_open, hopen,
      h.servers_nodup, hnodup, fun server hs hid client hclient => ?_⟩
    rcases List.mem_append.mp hclient with hold | hself
    · exact (h.announced server hs hid client hold).mono fun entry hentry =>
        List.mem_append_left _ hentry
    · rw [List.mem_singleton.mp hself]
      refine ⟨nodeMessage nodes, List.mem_append_right _ (List.mem_singleton_self _), ?_⟩
      rw [nodesOf_nodeMessage (by rw [hlength]; exact hcount)]
      exact hmem server hs hid

/-! ## Runs -/

/-- An activation that meets the condition goes through and keeps the directory. -/
theorem directory_activate (hwf : ta.WellFormed) (h : ta.Directory) (hkernel : KernelKeeps ta i)
    (hkeeps : KeepsDirectory ta i) :
    ∃ ta' code, ta.activate i = .ok (ta', code) ∧ ta'.WellFormed ∧ ta'.Directory := by
  by_cases hneg : i.sockd < 0
  · exact ⟨ta, .errFatal, by rw [activate, if_pos hneg], hwf, h⟩
  by_cases hlisten : i.sockd = ta.listenSockd
  · obtain ⟨hwf', h'⟩ := directory_accepts hwf h hkernel.1 hkernel.2
    exact ⟨_, _, by rw [activate, if_neg hneg, if_pos hlisten], hwf', h'⟩
  unfold activate
  rw [if_neg hneg, if_neg hlisten]
  cases hlookup : ta.lookup i.sockd with
  | none => exact ⟨ta, .errNoconn, rfl, hwf, h⟩
  | some c =>
    have htarget : ta.target i = some c := by
      simp [target, hneg, hlisten, hlookup]
    have hc : c ∈ ta.connections := mem_of_target htarget
    have hcond : KeepsListed ta c.id i := by
      rw [KeepsDirectory, htarget] at hkeeps
      exact hkeeps
    unfold KeepsListed at hcond
    cases hreceived : i.received with
    | error errno =>
      rw [hreceived] at hcond
      cases errno with
      | wouldBlock => exact ⟨ta, .errWouldblock, rfl, hwf, h⟩
      | notConn | already | other =>
        obtain ⟨hwf', h'⟩ := directory_connectionClose hwf h hc hcond.1 hcond.2
        exact ⟨_, .errRecv, rfl, hwf', h'⟩
    | ok bytes =>
      rw [hreceived] at hcond
      cases bytes with
      | nil =>
        obtain ⟨hwf', h'⟩ := directory_connectionClose hwf h hc hcond.1 hcond.2
        exact ⟨_, .closed, rfl, hwf', h'⟩
      | cons b bs =>
        obtain ⟨hregister, hrequest⟩ := hcond
        have hhead : ((b :: bs).take authorityBufSize).headD 0 = b := rfl
        simp only [handle, hhead]
        split_ifs with hb hb'
        · obtain ⟨ta', hta', hwf', h'⟩ :=
            directory_register hwf h hc (hregister hb).1 (hregister hb).2
          exact ⟨ta', .success, hta', hwf', h'⟩
        · exact directory_requestNodes hwf h hc (hrequest hb').1 (hrequest hb').2
        · exact ⟨ta, .success, rfl, hwf, h⟩

/-- The condition of a run: the kernel keeps its promise, and no activation loses the directory. -/
def Keeps (ta : TorrentAuthority) (i : AuthorityInput) : Prop :=
  KernelKeeps ta i ∧ KeepsDirectory ta i

/-- Every run whose activations meet the condition goes through, and every state of it has a
directory: the lists hold open connections only, none twice, and every server that has registered
has been announced to every client. -/
theorem directory_of_keepsDirectory {listenSockd : Int} {is : List AuthorityInput}
    (hkeeps : StepsMeet step Keeps (start listenSockd) is) :
    ∃ ta, runSteps step (start listenSockd) is = .ok ta ∧ ta.Directory := by
  have hstart : (start listenSockd).WellFormed ∧ (start listenSockd).Directory := by
    constructor
    · exact ⟨by simp [start], by simp [start], by simp [start]⟩
    · exact ⟨by simp [start], by simp [start], List.nodup_nil, List.nodup_nil, by simp [start]⟩
  obtain ⟨ta, hrun, -, hta⟩ :=
    runSteps_ok_of_stepsMeet (fun ta => ta.WellFormed ∧ ta.Directory) (fun ta i hinv hcond => by
      obtain ⟨ta', code, hactivate, hinv'⟩ :=
        directory_activate hinv.1 hinv.2 hcond.1 hcond.2
      exact ⟨ta', by rw [step, hactivate]; rfl, hinv'⟩) hstart hkeeps
  exact ⟨ta, hrun, hta⟩

/-! ## Two clients and a server -/

/-- Three peers connect: a client, a server and another client. -/
def threePeers : AuthorityInput where
  sockd := 3
  accepts := [(4, .of 10 0 0 1), (5, .of 10 0 0 2), (6, .of 10 0 0 3)]
  acceptFails := .wouldBlock
  received := .error .wouldBlock
  stack := []
  sends := []

/-- A peer sends a message. -/
def messageFrom (sockd : Int) (message : Bytes) (sends : List Answer) : AuthorityInput where
  sockd := sockd
  accepts := []
  acceptFails := .wouldBlock
  received := .ok message
  stack := []
  sends := sends

/-- A client subscribes, the server registers, the other client subscribes. -/
theorem directory_of_keepsDirectory_threePeers :
    ∃ ta, runSteps step (start 3) [threePeers, messageFrom 4 [2] [.ready 9],
      messageFrom 5 [1, 31, 144] [.ready 9], messageFrom 6 [2] [.ready 9]] = .ok ta ∧
      ta.Directory := by
  have hkeeps : StepsMeet step (fun ta i => KernelKeeps ta i ∧ KeepsDirectory ta i) (start 3)
      [threePeers, messageFrom 4 [2] [.ready 9], messageFrom 5 [1, 31, 144] [.ready 9],
        messageFrom 6 [2] [.ready 9]] := by
    decide +kernel
  exact directory_of_keepsDirectory hkeeps

/-- Both clients subscribe, then the server registers, and the first client's socket is full: the
second client is not told. -/
theorem not_directory_socket_full :
    StepsMeet step KernelKeeps (start 3) [threePeers, messageFrom 4 [2] [.ready 9],
      messageFrom 6 [2] [.ready 9], messageFrom 5 [1, 31, 144] [.failed .wouldBlock, .ready 9]] ∧
    ∃ ta, runSteps step (start 3) [threePeers, messageFrom 4 [2] [.ready 9],
      messageFrom 6 [2] [.ready 9], messageFrom 5 [1, 31, 144] [.failed .wouldBlock, .ready 9]] =
        .ok ta ∧ ¬ta.Directory := by
  refine ⟨by decide +kernel,
    { listenSockd := 3
      servers := [1]
      clients := [0, 2]
      connections := [⟨2, 6, ⟨[10, 0, 0, 3], rfl⟩, ⟨[0, 0], rfl⟩⟩,
        ⟨1, 5, ⟨[10, 0, 0, 2], rfl⟩, ⟨[31, 144], rfl⟩⟩, ⟨0, 4, ⟨[10, 0, 0, 1], rfl⟩, ⟨[0, 0], rfl⟩⟩]
      allocated := 3
      sent := [(0, [0]), (2, [0])] }, by decide +kernel, fun h => ?_⟩
  obtain ⟨bytes, hsent, hnode⟩ := h.announced ⟨1, 5, ⟨[10, 0, 0, 2], rfl⟩, ⟨[31, 144], rfl⟩⟩
    (by decide) (by decide) 2 (by decide)
  obtain rfl : bytes = [0] := by simpa using hsent
  exact absurd hnode (by decide)

end TorrentAuthority

end ShadowExtras.Torrent
