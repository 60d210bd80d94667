import ShadowExtras.Foundation.Fallible
import ShadowExtras.Torrent.ClientRecords

/-!
# The servers that a torrent client knows

What the client learns from the authority: `agrees_of_takesMessage` says that in every run in which
each `recv` on the connection to the authority returns exactly one message, with at most 127
entries, the servers that the client knows are those in the messages it has received. A message that
is cut, or that arrives together with the next one, is read wrongly, because the client keeps
nothing from one `recv` to the next; and a count of 128 or more is negative to it.

The other connections of the client do what they like in between.
-/

namespace ShadowExtras.Torrent

open Foundation

namespace TorrentClient

variable {tc tc' : TorrentClient} {server server' : Server} {socket socket' : Socket}
  {i : ClientInput} {id : ℕ} {authSockd : Int}

/-! ## The connection to the authority -/

/-- The first record is that of the connection to the authority, and nothing else is stored under
its descriptor; the other records belong to servers. -/
structure Listens (tc : TorrentClient) (authSockd : Int) : Prop where
  servers_lt : ∀ id ∈ tc.servers, id < tc.records.length
  lookup_eq_zero : ∀ sockd, tc.lookup sockd = some 0 ↔ sockd = authSockd
  authority : ∃ server, tc.records[0]? = some server ∧ ofAuthority server.state = true
  peers : ∀ id server, tc.records[id + 1]? = some server → server.IsPeer

/-- A client that keeps its records listens to the authority. -/
theorem Listens.of_keepsServers (h : tc.Listens authSockd)
    (hkeeps : KeepsServers tc server tc' server') : tc'.Listens authSockd := by
  refine ⟨?_, fun sockd => ?_, ?_, ?_⟩
  · rw [hkeeps.servers, hkeeps.records]
    exact h.servers_lt
  · rw [lookup, hkeeps.connections]
    exact h.lookup_eq_zero sockd
  · rw [hkeeps.records]
    exact h.authority
  · rw [hkeeps.records]
    exact h.peers

/-- A new client listens to the authority. -/
theorem listens_start (socksAddr : InAddr) (authority : Node) (connect : Connect)
    (fileSize downBlockSize upBlockSize : Int) :
    (start socksAddr authority connect fileSize downBlockSize upBlockSize).Listens
      connect.result := by
  refine ⟨by simp [start], fun sockd => ?_, ⟨_, rfl, rfl⟩, by simp [start]⟩
  by_cases hsockd : connect.result = sockd
  · simp [start, lookup, hsockd]
  · simp [start, lookup, hsockd, Ne.symm hsockd]

/-- The known servers after a record was written back. -/
theorem known_set (hserver : tc.records[id]? = some server) (hnode : server'.node = server.node) :
    { tc with records := tc.records.set id server' }.known = tc.known := by
  have hentry : ∀ id' : ℕ, (tc.records.set id server')[id']?.map Server.node =
      tc.records[id']?.map Server.node := by
    intro id'
    by_cases hid : id = id'
    · subst hid
      obtain ⟨hlt, -⟩ := List.getElem?_eq_some_iff.mp hserver
      rw [List.getElem?_set_self hlt, hserver, Option.map_some, Option.map_some, hnode]
    · rw [List.getElem?_set_ne hid]
  simp only [known, hentry]

/-- The known servers after another one was added. -/
theorem known_addNode (h : ∀ id ∈ tc.servers, id < tc.records.length) (node : Node) (sockd : Int)
    (cookie : UInt32) : (tc.addNode node sockd cookie).known = tc.known ++ [node] := by
  have hold : ∀ id ∈ tc.servers, ∀ server : Server,
      (tc.records ++ [server])[id]?.map Server.node = tc.records[id]?.map Server.node := by
    intro id hid server
    rw [List.getElem?_append_left (h id hid)]
  simp only [known, addNode, insertConnection, List.filterMap_append, List.filterMap_cons,
    List.filterMap_nil, List.getElem?_concat_length, Option.map_some]
  rw [List.filterMap_congr fun id hid => hold id hid _]
  rfl

/-- The entry of another key. -/
theorem lookup_insertConnection_ne (tc : TorrentClient) {sockd sockd' : Int} (id : ℕ)
    (h : sockd' ≠ sockd) : (tc.insertConnection sockd id).lookup sockd' = tc.lookup sockd' := by
  simp only [lookup, insertConnection]
  rw [List.find?_cons_of_neg (by simpa using h.symm), List.find?_filter]
  congr 2
  funext entry
  by_cases hentry : entry.1 = sockd'
  · simp [hentry, h]
  · simp [hentry]

/-- A client with another node listens to the authority. -/
theorem listens_addNode (h : tc.Listens authSockd) (node : Node) {sockd : Int} (cookie : UInt32)
    (hsockd : sockd ≠ authSockd) : (tc.addNode node sockd cookie).Listens authSockd := by
  obtain ⟨authority, hauthority, hstate⟩ := h.authority
  obtain ⟨hpos, -⟩ := List.getElem?_eq_some_iff.mp hauthority
  refine ⟨?_, fun sockd' => ?_, ⟨authority, ?_, hstate⟩, fun id server hserver => ?_⟩
  · intro id hid
    simp only [addNode, insertConnection, List.length_append, List.length_singleton]
    rcases List.mem_append.mp hid with hold | hnew
    · exact Nat.lt_succ_of_lt (h.servers_lt id hold)
    · rw [List.mem_singleton.mp hnew]
      exact Nat.lt_succ_self _
  · by_cases hkey : sockd' = sockd
    · have hne : tc.records.length ≠ 0 := Nat.ne_of_gt hpos
      simp [addNode, insertConnection, lookup, hkey, hsockd, hne]
    · rw [addNode, lookup_insertConnection_ne _ _ hkey]
      exact h.lookup_eq_zero sockd'
  · simp only [addNode, insertConnection]
    rw [List.getElem?_append_left hpos]
    exact hauthority
  · simp only [addNode, insertConnection, List.getElem?_append] at hserver
    by_cases hlt : id + 1 < tc.records.length
    · rw [if_pos hlt] at hserver
      exact h.peers id server hserver
    · rw [if_neg hlt] at hserver
      obtain rfl := List.mem_singleton.mp (List.mem_of_getElem? hserver)
      refine ⟨?_, rfl⟩
      simp only [Server.zero]
      split <;> rfl

/-- Adding a server leaves the record of the authority. -/
theorem authority_addNode (h : tc.Listens authSockd) (node : Node) (sockd : Int)
    (cookie : UInt32) : (tc.addNode node sockd cookie).records[0]? = tc.records[0]? := by
  obtain ⟨authority, hauthority, -⟩ := h.authority
  obtain ⟨hpos, -⟩ := List.getElem?_eq_some_iff.mp hauthority
  rw [addNode, insertConnection, List.getElem?_append_left hpos]

/-- The loop over the entries of a node list adds those that were not known. -/
theorem listens_receiveNodes {nodes : List Node} {connects : List Connect} {cookies : List UInt32}
    (h : tc.Listens authSockd)
    (hconnects : ∀ connect ∈ connects, connect.result ≠ authSockd)
    (hlength : nodes.length ≤ connects.length) :
    (tc.receiveNodes nodes connects cookies).1.Listens authSockd ∧
      (tc.receiveNodes nodes connects cookies).1.records[0]? = tc.records[0]? ∧
      ∀ node, node ∈ (tc.receiveNodes nodes connects cookies).1.known ↔
        node ∈ tc.known ∨ node ∈ nodes := by
  induction nodes generalizing tc connects cookies with
  | nil => exact ⟨h, rfl, fun node => by simp [receiveNodes]⟩
  | cons node nodes ih =>
    simp only [receiveNodes]
    split
    · rename_i hknown
      have hshort : nodes.length ≤ connects.length := by
        rw [List.length_cons] at hlength
        omega
      obtain ⟨hlistens, hrecord, hmem⟩ := ih h hconnects hshort
      refine ⟨hlistens, hrecord, fun node' => ?_⟩
      rw [hmem, List.mem_cons]
      constructor
      · exact fun hnode => hnode.imp_right .inr
      · rintro (hnode | rfl | hnode)
        · exact .inl hnode
        · exact .inl hknown
        · exact .inr hnode
    · obtain ⟨connect, connects, rfl⟩ : ∃ c cs, connects = c :: cs := by
        cases connects with
        | nil => simp at hlength
        | cons c cs => exact ⟨c, cs, rfl⟩
      obtain ⟨hne, hrest⟩ := List.forall_mem_cons.mp hconnects
      have hpos : ¬connect.result < 0 := by
        cases connect <;> simp [Connect.result]
      have hadd := listens_addNode h node (cookies.headD 0) hne
      obtain ⟨hlistens, hrecord, hmem⟩ :=
        @ih _ connects cookies.tail hadd hrest (by simpa using hlength)
      rw [List.headD_cons, List.tail_cons, if_neg hpos]
      refine ⟨hlistens, hrecord.trans (authority_addNode h node _ _), fun node' => ?_⟩
      rw [hmem, known_addNode h.servers_lt, List.mem_append, List.mem_singleton, List.mem_cons,
        or_assoc]

/-- Writing the record of a server back. -/
theorem listens_setPeer (h : tc.Listens authSockd) (hpeer : server.IsPeer) :
    { tc with records := tc.records.set (id + 1) server }.Listens authSockd := by
  obtain ⟨authority, hauthority, hstate⟩ := h.authority
  refine ⟨fun id' hid => ?_, h.lookup_eq_zero, ⟨authority, ?_, hstate⟩,
    fun id' server' hserver => ?_⟩
  · rw [List.length_set]
    exact h.servers_lt id' hid
  · rw [List.getElem?_set_ne (Nat.succ_ne_zero id)]
    exact hauthority
  · by_cases hid : id = id'
    · subst hid
      obtain ⟨hlt, -⟩ := List.getElem?_eq_some_iff.mp hserver
      rw [List.length_set] at hlt
      rw [List.getElem?_set_self hlt] at hserver
      obtain rfl := Option.some.inj hserver
      exact hpeer
    · rw [List.getElem?_set_ne fun heq => hid (Nat.succ.inj heq)] at hserver
      exact h.peers id' server' hserver

/-- Writing the record of the authority back. -/
theorem listens_setAuthority (h : tc.Listens authSockd) (hstate : ofAuthority server.state = true) :
    { tc with records := tc.records.set 0 server }.Listens authSockd := by
  obtain ⟨authority, hauthority, -⟩ := h.authority
  obtain ⟨hpos, -⟩ := List.getElem?_eq_some_iff.mp hauthority
  refine ⟨fun id hid => ?_, h.lookup_eq_zero, ⟨server, List.getElem?_set_self hpos, hstate⟩,
    fun id server' hserver => ?_⟩
  · rw [List.length_set]
    exact h.servers_lt id hid
  · rw [List.getElem?_set_ne (Nat.succ_ne_zero id).symm] at hserver
    exact h.peers id server' hserver

/-- An activation is that of the record of the descriptor, if there is one. -/
theorem activate_cases {code : ClientCode}
    (h : tc.activate i socket = .ok (tc', socket', code)) :
    (tc.lookup i.sockd = none ∧ tc' = tc ∧ socket' = socket ∧ code = .errNoserver) ∨
      ∃ id server outcome, tc.lookup i.sockd = some id ∧ tc.records[id]? = some server ∧
        tc.serve id server socket i = .ok outcome ∧
        tc' = { outcome.tc with records := outcome.tc.records.set id outcome.server } ∧
        socket' = outcome.socket ∧ code = outcome.code := by
  unfold activate at h
  split at h
  · rename_i hlookup
    obtain ⟨rfl, hrest⟩ := Prod.mk.inj (Except.ok.inj h)
    obtain ⟨rfl, rfl⟩ := Prod.mk.inj hrest
    exact .inl ⟨hlookup, rfl, rfl, rfl⟩
  · rename_i id hlookup
    split at h
    · cases h
    · rename_i server hserver
      split at h
      · cases h
      · rename_i outcome houtcome
        obtain ⟨rfl, hrest⟩ := Prod.mk.inj (Except.ok.inj h)
        obtain ⟨rfl, rfl⟩ := Prod.mk.inj hrest
        exact .inr ⟨id, server, outcome, hlookup, hserver, houtcome, rfl, rfl, rfl⟩

/-- An activation for another descriptor. -/
theorem listens_activate_of_ne {code : ClientCode} (h : tc.Listens authSockd)
    (hsockd : i.sockd ≠ authSockd) (hactivate : tc.activate i socket = .ok (tc', socket', code)) :
    tc'.Listens authSockd ∧ tc'.known = tc.known := by
  obtain ⟨-, rfl, -⟩ | ⟨id, server, outcome, hlookup, hserver, hserve, rfl, -⟩ :=
    activate_cases hactivate
  · exact ⟨h, rfl⟩
  · cases id with
    | zero => exact absurd ((h.lookup_eq_zero i.sockd).mp hlookup) hsockd
    | succ id =>
      have hpeer := h.peers id server hserver
      have hkeeps := keepsServers_serve hpeer.1 hserve
      refine ⟨listens_setPeer (h.of_keepsServers hkeeps) (hkeeps.follows.2 hpeer), ?_⟩
      have hrecord : outcome.tc.records[id + 1]? = some server := by
        rw [hkeeps.records]
        exact hserver
      rw [known_set hrecord hkeeps.follows.1, known, known, hkeeps.servers, hkeeps.records]

/-- The connection to the authority waits for node lists. -/
def ReceivesNodes (tc : TorrentClient) : Prop :=
  tc.records[0]?.map Server.state = some .authReceiveNodes

instance (tc : TorrentClient) : Decidable tc.ReceivesNodes :=
  inferInstanceAs (Decidable (_ = _))

/-- An activation of the authority's record that receives nothing. -/
structure Quiet (tc : TorrentClient) (server : Server) (socket : Socket) (outcome : Outcome) :
    Prop where
  keeps : KeepsServers tc server outcome.tc outcome.server
  state : ofAuthority outcome.server.state = true
  incoming : outcome.socket.incoming = socket.incoming

/-- A failed call takes nothing. -/
theorem quiet_failed (tc : TorrentClient) (excused : Bool) (errcode : ClientCode)
    (hstate : ofAuthority server.state = true) (hincoming : socket'.incoming = socket.incoming) :
    Quiet tc server socket (tc.failed server socket' excused errcode) := by
  refine ⟨keepsServers_failed tc server socket' excused errcode, ?_, ?_⟩
  · rw [failed_server]
    exact hstate
  · rw [failed_socket]
    exact hincoming

/-- A connection that the peer closed takes nothing. -/
theorem quiet_closedByPeer (tc : TorrentClient) (hstate : ofAuthority server.state = true)
    (hincoming : socket'.incoming = socket.incoming) :
    Quiet tc server socket (tc.closedByPeer server socket') :=
  ⟨keepsServers_closedByPeer tc server socket', hstate, hincoming⟩

/-- The request for the nodes takes nothing. -/
theorem quiet_authRequestNodes (tc : TorrentClient) (socket : Socket)
    (hstate : ofAuthority server.state = true) :
    Quiet tc server socket (tc.authRequestNodes server socket) := by
  unfold authRequestNodes
  split
  · rename_i hsend
    exact quiet_failed tc _ _ hstate (Socket.same_of_send_error hsend).1
  · rename_i hsend
    exact quiet_closedByPeer tc hstate (Socket.sent_of_send hsend).2.1
  · rename_i hsend
    exact ⟨⟨rfl, rfl, rfl, rfl, fun hpeer => absurd (hstate.symm.trans hpeer.1) (by decide)⟩, rfl,
      (Socket.sent_of_send hsend).2.1⟩

/-- The connection to the authority receives nothing, or some bytes in which it looks for
entries. -/
theorem authReceiveNodes_cases (tc : TorrentClient) (socket : Socket) (i : ClientInput)
    (hstate : ofAuthority server.state = true) :
    Quiet tc server socket (tc.authReceiveNodes server socket i) ∨
      ∃ count entries socket', socket.recv nodeListSize = (.ok (count :: entries), socket') ∧
        (tc.authReceiveNodes server socket i).tc =
          (tc.receiveNodes (nodesInBuffer count (entries ++ i.stack)) i.connects i.cookies).1 ∧
        (tc.authReceiveNodes server socket i).server = server ∧
        (tc.authReceiveNodes server socket i).socket = socket' := by
  unfold authReceiveNodes
  split
  · rename_i hrecv
    exact .inl (quiet_failed tc _ _ hstate (Socket.same_of_recv_error hrecv).1)
  · rename_i hrecv
    exact .inl (quiet_closedByPeer tc hstate (Socket.incoming_of_recv hrecv).1.symm)
  · rename_i count entries socket' hrecv
    exact .inr ⟨count, entries, socket', hrecv, rfl, rfl, rfl⟩

/-- Writing the record of the authority back after an activation that receives nothing. -/
theorem listens_of_quiet {outcome : Outcome} (h : tc.Listens authSockd)
    (hserver : tc.records[0]? = some server) (hquiet : Quiet tc server socket outcome) :
    { outcome.tc with records := outcome.tc.records.set 0 outcome.server }.Listens authSockd ∧
      { outcome.tc with records := outcome.tc.records.set 0 outcome.server }.known = tc.known := by
  have hrecord : outcome.tc.records[0]? = some server := by
    rw [hquiet.keeps.records]
    exact hserver
  refine ⟨listens_setAuthority (h.of_keepsServers hquiet.keeps) hquiet.state, ?_⟩
  rw [known_set hrecord hquiet.keeps.follows.1, known, known, hquiet.keeps.servers,
    hquiet.keeps.records]

/-- An activation for the descriptor of the authority either receives nothing and learns nothing, or
it receives some bytes and looks for entries in them. -/
theorem activate_authority {code : ClientCode} (h : tc.Listens authSockd)
    (hsockd : i.sockd = authSockd) (hactivate : tc.activate i socket = .ok (tc', socket', code)) :
    (tc'.Listens authSockd ∧ tc'.known = tc.known ∧ socket'.incoming = socket.incoming) ∨
      ∃ count entries server, tc.ReceivesNodes ∧ ofAuthority server.state = true ∧
        tc.records[0]? = some server ∧
        socket.recv nodeListSize = (.ok (count :: entries), socket') ∧
        tc' =
          let tc := (tc.receiveNodes (nodesInBuffer count (entries ++ i.stack)) i.connects
            i.cookies).1
          { tc with records := tc.records.set 0 server } := by
  have hlookup : tc.lookup i.sockd = some 0 := (h.lookup_eq_zero i.sockd).mpr hsockd
  obtain ⟨server, hserver, hstate⟩ := h.authority
  obtain ⟨hnone, -⟩ | ⟨id, server', outcome, hid, hserver', hserve, rfl, rfl, -⟩ :=
    activate_cases hactivate
  · rw [hlookup] at hnone
    cases hnone
  · obtain rfl : 0 = id := Option.some.inj (hlookup.symm.trans hid)
    obtain rfl : server = server' := Option.some.inj (hserver.symm.trans hserver')
    have hquiet : Quiet tc server socket outcome → _ := fun hquiet =>
      (listens_of_quiet h hserver hquiet).imp_right fun hknown => And.intro hknown hquiet.incoming
    cases hs : server.state with
    | authRequestNodes =>
      simp only [serve, hs] at hserve
      obtain rfl := Except.ok.inj hserve
      exact .inl (hquiet (quiet_authRequestNodes tc socket hstate))
    | authReceiveNodes =>
      simp only [serve, hs] at hserve
      obtain rfl := Except.ok.inj hserve
      obtain hnothing | ⟨count, entries, socket', hrecv, htc, hserver₁, hsocket₁⟩ :=
        authReceiveNodes_cases tc socket i hstate
      · exact .inl (hquiet hnothing)
      · refine .inr ⟨count, entries, server, ?_, hstate, hserver, ?_, ?_⟩
        · rw [ReceivesNodes, hserver, Option.map_some, hs]
        · rw [hrecv, hsocket₁]
        · rw [htc, hserver₁]
    | _ =>
      rw [hs] at hstate
      cases hstate

/-- What is read from a message that the count is large enough for. -/
theorem nodesInBuffer_of_nodeMessage {count : Byte} {entries : Bytes} {nodes : List Node}
    (h : count :: entries = nodeMessage nodes) (hcount : nodes.length < 128) (stack : Bytes) :
    nodesInBuffer count (entries ++ stack) = nodes := by
  obtain ⟨rfl, rfl⟩ := List.cons.inj h
  have hnat : nodes.length.toUInt8.toNat = nodes.length := by
    rw [Nat.toUInt8, UInt8.toNat_ofNat']
    omega
  have hlt : nodes.length.toUInt8 < 128 := by
    rw [UInt8.lt_iff_toNat_lt, hnat]
    exact hcount
  rw [nodesInBuffer, nodeCount, if_pos hlt, hnat, List.append_assoc]
  exact takeNodes_flatMap nodes _

end TorrentClient

/-! ## Runs -/

/-- A client and what the authority sends it. -/
structure Subscription where
  client : TorrentClient
  /-- The descriptor of the connection to the authority. -/
  authSockd : Int
  /-- What the authority has sent and the client has not received. -/
  incoming : Bytes
  /-- History: the node lists that the authority has sent. -/
  messages : List (List Node)
  /-- History: how many calls of `recv` have returned some of it. -/
  received : ℕ
  deriving DecidableEq, Repr

/-- What happens. -/
inductive SubscriptionEvent
  /-- The authority sends a message. -/
  | message (nodes : List Node)
  /-- The client is activated for a descriptor; on the descriptor of the authority the bytes are
  those that the authority has sent. -/
  | activate (i : ClientInput) (socket : Socket)
  deriving DecidableEq, Repr

namespace Subscription

variable {s s' : Subscription} {e : SubscriptionEvent}

/-- A client that has been started, with the outcome of connecting to the authority. -/
def start (socksAddr : InAddr) (authority : Node) (connect : Connect)
    (fileSize downBlockSize upBlockSize : Int) : Subscription where
  client := TorrentClient.start socksAddr authority connect fileSize downBlockSize upBlockSize
  authSockd := connect.result
  incoming := []
  messages := []
  received := 0

/-- The socket of the connection to the authority, with the outcomes of the calls. -/
def authSocket (s : Subscription) (socket : Socket) : Socket :=
  { socket with incoming := s.incoming }

/-- One event. -/
def step (s : Subscription) : SubscriptionEvent → Except Fault Subscription
  | .message nodes =>
    .ok { s with incoming := s.incoming ++ nodeMessage nodes, messages := s.messages ++ [nodes] }
  | .activate i socket =>
    if i.sockd = s.authSockd then
      match s.client.activate i (s.authSocket socket) with
      | .error fault => .error fault
      | .ok (client, socket, _) =>
        .ok { s with
          client := client
          incoming := socket.incoming
          received := if socket.incoming = s.incoming then s.received else s.received + 1 }
    else
      match s.client.activate i socket with
      | .error fault => .error fault
      | .ok (client, _, _) => .ok { s with client := client }

/-- When everything was received, the client knows the servers in the messages. -/
def Agrees (s : Subscription) : Prop :=
  s.incoming = [] → ∀ node, node ∈ s.client.known ↔ ∃ nodes ∈ s.messages, node ∈ nodes

/-- The bytes are the next message, whole and alone, the count of it is not negative to the client,
and no connection to a server in it gets the number of the connection to the authority. -/
def IsMessage (s : Subscription) (bytes : Bytes) (connects : List Connect) : Prop :=
  match s.messages[s.received]? with
  | none => False
  | some nodes => bytes = nodeMessage nodes ∧ nodes.length < 128 ∧
      nodes.length ≤ connects.length ∧ ∀ connect ∈ connects, connect.result ≠ s.authSockd

instance (s : Subscription) (bytes : Bytes) (connects : List Connect) :
    Decidable (s.IsMessage bytes connects) := by
  unfold IsMessage
  split <;> infer_instance

/-- Whenever the client receives node lists, it receives one message. -/
def TakesMessage (s : Subscription) : SubscriptionEvent → Prop
  | .message _ => True
  | .activate i socket =>
    i.sockd = s.authSockd → s.client.ReceivesNodes →
      match ((s.authSocket socket).recv nodeListSize).1 with
      | .error _ | .ok [] => True
      | .ok (b :: bs) => s.IsMessage (b :: bs) i.connects

instance (s : Subscription) (e : SubscriptionEvent) : Decidable (s.TakesMessage e) := by
  unfold TakesMessage
  cases e with
  | message nodes => exact isTrue trivial
  | activate i socket =>
    refine @instDecidableForall _ _ _ (@instDecidableForall _ _ _ ?_)
    split <;> infer_instance

/-- The invariant: the client knows the servers in the messages that it has received, and the other
messages are on the way. -/
structure Synchronized (s : Subscription) : Prop where
  listens : s.client.Listens s.authSockd
  received_le : s.received ≤ s.messages.length
  incoming : s.incoming = (s.messages.drop s.received).flatMap nodeMessage
  known : ∀ node, node ∈ s.client.known ↔ ∃ nodes ∈ s.messages.take s.received, node ∈ nodes

/-- A client that is synchronized agrees with the authority. -/
theorem Synchronized.agrees (h : s.Synchronized) : s.Agrees := by
  intro hempty node
  have hall : s.messages.drop s.received = [] := by
    cases hdrop : s.messages.drop s.received with
    | nil => rfl
    | cons nodes rest =>
      have hincoming := h.incoming
      rw [hempty, hdrop, List.flatMap_cons, nodeMessage] at hincoming
      cases hincoming
  have htake : s.messages.take s.received = s.messages := by
    conv_rhs => rw [← List.take_append_drop s.received s.messages, hall, List.append_nil]
  rw [h.known node, htake]

/-- A new client is synchronized. -/
theorem synchronized_start (socksAddr : InAddr) (authority : Node) (connect : Connect)
    (fileSize downBlockSize upBlockSize : Int) :
    (start socksAddr authority connect fileSize downBlockSize upBlockSize).Synchronized := by
  refine ⟨TorrentClient.listens_start .., Nat.zero_le _, rfl, fun node => ?_⟩
  simp [start, TorrentClient.start, TorrentClient.known]

/-- The authority sends a message. -/
theorem synchronized_message (h : s.Synchronized) (nodes : List Node) :
    { s with
      incoming := s.incoming ++ nodeMessage nodes
      messages := s.messages ++ [nodes] }.Synchronized := by
  refine ⟨h.listens, ?_, ?_, fun node => ?_⟩
  · rw [List.length_append]
    exact Nat.le_add_right_of_le h.received_le
  · rw [List.drop_append_of_le_length h.received_le, List.flatMap_append, ← h.incoming]
    simp
  · rw [List.take_append_of_le_length h.received_le]
    exact h.known node

/-- The client receives one message. -/
theorem synchronized_receive {i : ClientInput} {socket socket' : Socket} {count : Byte}
    {entries : Bytes} {server : TorrentClient.Server} (h : s.Synchronized)
    (hmessage : s.IsMessage (count :: entries) i.connects)
    (hrecv : (s.authSocket socket).recv nodeListSize = (.ok (count :: entries), socket'))
    (hserver : s.client.records[0]? = some server)
    (hstate : TorrentClient.ofAuthority server.state = true) :
    { s with
      client :=
        let tc := (s.client.receiveNodes
          (TorrentClient.nodesInBuffer count (entries ++ i.stack)) i.connects i.cookies).1
        { tc with records := tc.records.set 0 server }
      incoming := socket'.incoming
      received := s.received + 1 }.Synchronized := by
  unfold IsMessage at hmessage
  cases hnext : s.messages[s.received]? with
  | none =>
    rw [hnext] at hmessage
    exact hmessage.elim
  | some nodes =>
    rw [hnext] at hmessage
    obtain ⟨hbytes, hcount, hlength, hconnects⟩ := hmessage
    obtain ⟨hlt, hget⟩ := List.getElem?_eq_some_iff.mp hnext
    rw [TorrentClient.nodesInBuffer_of_nodeMessage hbytes hcount]
    obtain ⟨hlistens, hrecord, hknown⟩ :=
      TorrentClient.listens_receiveNodes h.listens hconnects hlength
    refine ⟨TorrentClient.listens_setAuthority hlistens hstate, hlt, ?_, fun node => ?_⟩
    · have hstream : s.incoming = (count :: entries) ++ socket'.incoming :=
        (Socket.incoming_of_recv hrecv).1
      rw [h.incoming, List.drop_eq_getElem_cons hlt, hget, List.flatMap_cons, ← hbytes] at hstream
      exact (List.append_cancel_left hstream).symm
    · rw [TorrentClient.known_set (hrecord.trans hserver) rfl, hknown, h.known, List.take_add_one,
        hnext]
      simp [or_and_right, exists_or]

/-- An event that meets the condition keeps the client in step with the authority. -/
theorem synchronized_step (h : s.Synchronized) (htakes : s.TakesMessage e)
    (hstep : s.step e = .ok s') : s'.Synchronized := by
  cases e with
  | message nodes =>
    obtain rfl := Except.ok.inj hstep
    exact synchronized_message h nodes
  | activate i socket =>
    simp only [step] at hstep
    split_ifs at hstep with hsockd
    · split at hstep
      · cases hstep
      · rename_i client socket' code hactivate
        obtain rfl := Except.ok.inj hstep
        obtain ⟨hlistens, hknown, hincoming⟩ |
          ⟨count, entries, server, hwaits, hstate, hserver, hrecv, rfl⟩ :=
          TorrentClient.activate_authority h.listens hsockd hactivate
        · have hsame : socket'.incoming = s.incoming := hincoming
          refine ⟨hlistens, ?_, ?_, fun node => ?_⟩
          · simpa [hsame] using h.received_le
          · simpa [hsame] using h.incoming
          · simpa [hsame, hknown] using h.known node
        · have hmessage := htakes hsockd hwaits
          rw [hrecv] at hmessage
          have hstream : s.incoming = (count :: entries) ++ socket'.incoming :=
            (Socket.incoming_of_recv hrecv).1
          have hne : socket'.incoming ≠ s.incoming := by
            intro heq
            have hlength := congrArg List.length hstream
            rw [heq, List.length_append, List.length_cons] at hlength
            omega
          rw [if_neg hne]
          exact synchronized_receive h hmessage hrecv hserver hstate
    · split at hstep
      · cases hstep
      · rename_i client socket' code hactivate
        obtain rfl := Except.ok.inj hstep
        obtain ⟨hlistens, hknown⟩ :=
          TorrentClient.listens_activate_of_ne h.listens hsockd hactivate
        refine ⟨hlistens, h.received_le, h.incoming, fun node => ?_⟩
        rw [hknown]
        exact h.known node

/-- In every run in which the client receives the messages of the authority one by one, whatever its
other connections do, it knows the servers in the messages whenever it has received all of them. -/
theorem agrees_of_takesMessage {socksAddr : InAddr} {authority : Node} {connect : Connect}
    {fileSize downBlockSize upBlockSize : Int} {events : List SubscriptionEvent}
    (htakes : StepsMeet step TakesMessage
      (start socksAddr authority connect fileSize downBlockSize upBlockSize) events)
    (hrun : runSteps step (start socksAddr authority connect fileSize downBlockSize upBlockSize)
      events = .ok s) : s.Agrees :=
  (invariant_of_stepsMeet Synchronized (fun _ _ _ => synchronized_step)
    (synchronized_start ..) htakes hrun).agrees

/-! ## Two messages -/

/-- An activation for the authority, with the descriptor 5. -/
def wake (k : ℕ) : SubscriptionEvent :=
  .activate
    { sockd := 5
      pollIn := true
      pollOut := true
      connects := [.connected 6, .connected 7]
      cookies := []
      stack := []
      now := 0 }
    { incoming := [], sent := [], answers := [.ready k] }

/-- A server that the authority announces. -/
def someServer (last : Byte) : Node where
  addr := .of 10 0 0 last
  port := .of 144 31

/-- A client without a proxy. -/
def directClient : Subscription :=
  start (.of 255 255 255 255) ⟨.of 10 0 0 1, .of 80 35⟩ (.connected 5) 65536
    16384 16384

/-- The client asks, and receives the list of one server and the announcement of another. -/
theorem agrees_of_takesMessage_two :
    ∃ s, runSteps step directClient [wake 0, .message [someServer 2], wake 1023,
      .message [someServer 3], wake 1023] = .ok s ∧ s.Agrees := by
  have htakes : StepsMeet step TakesMessage directClient
      [wake 0, .message [someServer 2], wake 1023, .message [someServer 3], wake 1023] := by
    decide +kernel
  obtain ⟨s, hrun⟩ :
      Succeeds (runSteps step directClient [wake 0, .message [someServer 2], wake 1023,
      .message [someServer 3], wake 1023]) := succeeds_of_isOk (by decide +kernel)
  exact ⟨s, hrun, agrees_of_takesMessage htakes hrun⟩

/-- The list and the announcement arrive together: the second server stays unknown. -/
theorem not_agrees_coalesced :
    ∃ s, runSteps step directClient [wake 0, .message [someServer 2], .message [someServer 3],
      wake 1023] = .ok s ∧ ¬s.Agrees := by
  have hrun : ∃ s, runSteps step directClient [wake 0, .message [someServer 2],
      .message [someServer 3], wake 1023] = .ok s ∧ s.incoming = [] ∧
      s.messages = [[someServer 2], [someServer 3]] ∧ someServer 3 ∉ s.client.known :=
    exists_ok_of_map (by decide +kernel)
  obtain ⟨s, hs, hincoming, hmessages, hunknown⟩ := hrun
  refine ⟨s, hs, fun hagrees => hunknown ?_⟩
  refine (hagrees hincoming (someServer 3)).mpr ⟨[someServer 3], ?_, List.mem_singleton_self _⟩
  rw [hmessages]
  exact List.mem_cons_of_mem _ (List.mem_singleton_self _)

end Subscription

end ShadowExtras.Torrent
