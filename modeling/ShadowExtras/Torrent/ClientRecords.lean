import ShadowExtras.Torrent.Client

/-!
# What an activation for a server leaves alone

`keepsServers_serve`: an activation of the torrent client for one of its servers, in whatever state
the connection is, changes neither the servers that the client knows nor where its connections are
stored, and the record of the server keeps the address under which it was announced. `sockd_serve`:
no activation changes the descriptor in a record.
-/

namespace ShadowExtras.Torrent

open Foundation

namespace TorrentClient

/-! ## The records -/

/-- The states of the connection to the authority. -/
def ofAuthority : ClientState → Bool
  | .authRequestNodes | .authReceiveNodes => true
  | _ => false

/-- The record belongs to a server: it is not in a state of the connection to the authority, and
will not be. -/
def Server.IsPeer (server : Server) : Prop :=
  ofAuthority server.state = false ∧ ofAuthority server.nextstate = false

/-- What an activation keeps of a record. -/
def Server.Follows (server server' : Server) : Prop :=
  server'.node = server.node ∧ (server.IsPeer → server'.IsPeer)

/-- The states of the handshake, with the one behind it. -/
def ofHandshake : ClientState → Bool
  | .socksRequestInit | .socksToreplyInit | .socksReplyInit | .socksRequestConn | .socksToreplyConn
  | .socksReplyConn | .send | .receive | .serverRequest => true
  | _ => false

/-- What the handshake keeps of a record: its address and, but for its own, its states. -/
structure Server.Proceeds (server server' : Server) : Prop where
  node : server'.node = server.node
  state : server'.state = server.state ∨ server'.state = server.nextstate ∨
    ofHandshake server'.state = true
  nextstate : server'.nextstate = server.nextstate ∨ ofHandshake server'.nextstate = true

/-- The record that a state of the handshake leads to. -/
def Next.record : Next → Server
  | .call server | .request server | .return server _ | .fatal server _ => server

/-- The handshake returns with nothing but an error. -/
def Next.Fails : Next → Prop
  | .return _ code => code = .errWouldblock ∨ code = .errSocksinit ∨ code = .errSocksconn
  | _ => True

/-- A step of the handshake. -/
structure Server.LeadsTo (server : Server) (next : Next) : Prop where
  proceeds : server.Proceeds next.record
  fails : next.Fails

/-- A step of the handshake, which leaves the descriptor. -/
structure Server.Shakes (server : Server) (next : Next) : Prop where
  leads : server.LeadsTo next
  sockd : next.record.sockd = server.sockd

variable {tc tc' : TorrentClient} {server server' : Server} {socket socket' : Socket}
  {i : ClientInput} {id : ℕ} {authSockd : Int} {next : Next} {reconnect : Connect}

namespace Server

/-- A record follows itself. -/
theorem Follows.refl (server : Server) : server.Follows server := ⟨rfl, fun h => h⟩

/-- A record that follows one follows those that it followed. -/
theorem Follows.trans {server₁ server₂ server₃ : Server} (h : server₁.Follows server₂)
    (h' : server₂.Follows server₃) : server₁.Follows server₃ :=
  ⟨h'.1.trans h.1, fun hpeer => h'.2 (h.2 hpeer)⟩

/-- A record that stays as it is proceeds. -/
theorem Proceeds.refl (server : Server) : server.Proceeds server := ⟨rfl, .inl rfl, .inl rfl⟩

/-- Two proceedings are one. -/
theorem Proceeds.trans {server₁ server₂ server₃ : Server} (h : server₁.Proceeds server₂)
    (h' : server₂.Proceeds server₃) : server₁.Proceeds server₃ := by
  refine ⟨h'.node.trans h.node, ?_, ?_⟩
  · rcases h'.state with hstate | hstate | hstate
    · rw [hstate]
      exact h.state
    · rw [hstate]
      exact .inr h.nextstate
    · exact .inr (.inr hstate)
  · rcases h'.nextstate with hnext | hnext
    · rw [hnext]
      exact h.nextstate
    · exact .inr hnext

/-- A record that is not in certain states, and will not be, stays so. -/
theorem Proceeds.avoids {p : ClientState → Bool}
    (hp : ∀ state, ofHandshake state = true → p state = false)
    (h : server.Proceeds server') (hstate : p server.state = false)
    (hnext : p server.nextstate = false) :
    p server'.state = false ∧ p server'.nextstate = false := by
  constructor
  · rcases h.state with heq | heq | hshake
    · rw [heq]
      exact hstate
    · rw [heq]
      exact hnext
    · exact hp _ hshake
  · rcases h.nextstate with heq | hshake
    · rw [heq]
      exact hnext
    · exact hp _ hshake

/-- A record that proceeds follows. -/
theorem Proceeds.follows (h : server.Proceeds server') : server.Follows server' :=
  ⟨h.node, fun hpeer => h.avoids (fun state => by cases state <;> simp [ofHandshake, ofAuthority])
    hpeer.1 hpeer.2⟩

/-- A step behind a change of the record. -/
theorem Shakes.trans (h : server.Proceeds server') (hsockd : server'.sockd = server.sockd)
    (h' : server'.Shakes next) : server.Shakes next :=
  ⟨⟨h.trans h'.leads.proceeds, h'.leads.fails⟩, h'.sockd.trans hsockd⟩

/-- The first message of the handshake. -/
theorem shakes_requestInit (h : server.requestInit = .ok next) : server.Shakes next := by
  unfold requestInit at h
  split_ifs at h
  obtain rfl := Except.ok.inj h
  exact ⟨⟨⟨rfl, .inr (.inr rfl), .inr rfl⟩, trivial⟩, rfl⟩

/-- The request for a connection through the proxy. -/
theorem shakes_requestConn (h : server.requestConn = .ok next) : server.Shakes next := by
  unfold requestConn at h
  split_ifs at h
  obtain rfl := Except.ok.inj h
  exact ⟨⟨⟨rfl, .inr (.inr rfl), .inr rfl⟩, trivial⟩, rfl⟩

/-- Waiting for a reply is a part of the handshake. -/
theorem shakes_toReply (server : Server) {nextstate : ClientState}
    (h : ofHandshake nextstate = true) : server.Shakes (.call (server.toReply nextstate)) :=
  ⟨⟨⟨rfl, .inr (.inr rfl), .inr h⟩, trivial⟩, rfl⟩

/-- The first reply of the proxy. -/
theorem shakes_replyInit (h : server.replyInit = .ok next) : server.Shakes next := by
  unfold replyInit at h
  split at h
  · split_ifs at h
    · obtain rfl := Except.ok.inj h
      exact ⟨⟨Proceeds.refl server, .inr (.inl rfl)⟩, rfl⟩
    · refine Shakes.trans ?_ ?_ (shakes_requestConn h)
      · exact ⟨rfl, .inr (.inr rfl), .inl rfl⟩
      · rfl
  · obtain rfl := Except.ok.inj h
    exact shakes_toReply server rfl

/-- The reply to the request for a connection. -/
theorem shakes_replyConn (server : Server) (reconnect : Connect) :
    server.Shakes (server.replyConn reconnect) := by
  unfold replyConn
  split
  · split
    · exact ⟨⟨Proceeds.refl server, .inr (.inr rfl)⟩, rfl⟩
    · simp only
      split
      · exact ⟨⟨⟨rfl, .inl rfl, .inl rfl⟩, .inr (.inr rfl)⟩, rfl⟩
      · exact ⟨⟨⟨rfl, .inr (.inr rfl), .inr rfl⟩, trivial⟩, rfl⟩
  · exact shakes_toReply server rfl

/-- Each state of the handshake. -/
theorem shakes_proceed (h : server.proceed reconnect = .ok next) : server.Shakes next := by
  unfold proceed at h
  split at h
  · exact shakes_requestInit h
  · obtain rfl := Except.ok.inj h
    exact shakes_toReply server rfl
  · exact shakes_replyInit h
  · exact shakes_requestConn h
  · obtain rfl := Except.ok.inj h
    exact shakes_toReply server rfl
  · obtain rfl := Except.ok.inj h
    exact shakes_replyConn server reconnect
  · obtain rfl := Except.ok.inj h
    exact ⟨⟨Proceeds.refl server, trivial⟩, rfl⟩
  · obtain rfl := Except.ok.inj h
    exact ⟨⟨Proceeds.refl server, trivial⟩, rfl⟩
  · obtain rfl := Except.ok.inj h
    exact ⟨⟨Proceeds.refl server, trivial⟩, rfl⟩

/-- A failed call leaves the handshake as it is, or gives it up. -/
theorem shakes_failed (server : Server) (excused : Bool) (errcode : ClientCode) :
    server.Shakes (server.failed excused errcode) := by
  unfold failed
  split
  · exact ⟨⟨Proceeds.refl server, .inl rfl⟩, rfl⟩
  · exact ⟨⟨Proceeds.refl server, trivial⟩, rfl⟩

/-- Sending is a part of the handshake. -/
theorem shakes_send (h : server.send socket reconnect = .ok (next, socket')) :
    server.Shakes next := by
  unfold send at h
  split_ifs at h
  split at h
  · obtain ⟨rfl, rfl⟩ := Prod.mk.inj (Except.ok.inj h)
    exact shakes_failed server _ _
  · obtain ⟨rfl, rfl⟩ := Prod.mk.inj (Except.ok.inj h)
    exact ⟨⟨Proceeds.refl server, trivial⟩, rfl⟩
  · simp only at h
    split_ifs at h
    · split at h
      · cases h
      · rename_i hproceed
        obtain ⟨rfl, rfl⟩ := Prod.mk.inj (Except.ok.inj h)
        refine Shakes.trans ?_ ?_ (shakes_proceed hproceed)
        · exact ⟨rfl, .inr (.inl rfl), .inl rfl⟩
        · rfl
    · obtain ⟨rfl, rfl⟩ := Prod.mk.inj (Except.ok.inj h)
      exact ⟨⟨⟨rfl, .inl rfl, .inl rfl⟩, trivial⟩, rfl⟩

/-- Receiving is a part of the handshake. -/
theorem shakes_receive (h : server.receive socket reconnect = .ok (next, socket')) :
    server.Shakes next := by
  unfold receive at h
  split at h
  · obtain ⟨rfl, rfl⟩ := Prod.mk.inj (Except.ok.inj h)
    exact shakes_failed server _ _
  · obtain ⟨rfl, rfl⟩ := Prod.mk.inj (Except.ok.inj h)
    exact ⟨⟨Proceeds.refl server, trivial⟩, rfl⟩
  · split at h
    · cases h
    · rename_i hproceed
      obtain ⟨rfl, rfl⟩ := Prod.mk.inj (Except.ok.inj h)
      refine Shakes.trans ?_ ?_ (shakes_proceed hproceed)
      · exact ⟨rfl, .inr (.inl rfl), .inl rfl⟩
      · rfl

/-- So is any number of calls. -/
theorem shakes_callLoop {calls : ℕ} {next next' : Next} (hfails : next.Fails)
    (h : callLoop reconnect calls next socket = .ok (next', socket')) :
    next.record.Shakes next' := by
  induction calls generalizing next socket with
  | zero =>
    cases next with
    | call server =>
      obtain ⟨rfl, rfl⟩ := Prod.mk.inj (Except.ok.inj h)
      exact ⟨⟨Proceeds.refl server, .inl rfl⟩, rfl⟩
    | request server | «return» server code | fatal server errcode =>
      obtain ⟨rfl, rfl⟩ := Prod.mk.inj (Except.ok.inj h)
      exact ⟨⟨Proceeds.refl server, hfails⟩, rfl⟩
  | succ calls ih =>
    cases next with
    | call server =>
      simp only [callLoop] at h
      split at h
      · cases h
      · rename_i next₁ socket₁ hcall
        have hshakes : server.Shakes next₁ := by
          split_ifs at hcall
          · exact shakes_send hcall
          · exact shakes_receive hcall
        exact Shakes.trans hshakes.leads.proceeds hshakes.sockd (ih hshakes.leads.fails h)
    | request server | «return» server code | fatal server errcode =>
      obtain ⟨rfl, rfl⟩ := Prod.mk.inj (Except.ok.inj h)
      exact ⟨⟨Proceeds.refl server, hfails⟩, rfl⟩

/-- The handshake keeps the address of the server and its descriptor, and goes through its own
states. -/
theorem shakes_handshake (h : server.handshake socket reconnect = .ok (next, socket')) :
    server.Shakes next := by
  unfold handshake at h
  split at h
  · cases h
  · rename_i hproceed
    have hshakes := shakes_proceed hproceed
    exact Shakes.trans hshakes.leads.proceeds hshakes.sockd (shakes_callLoop hshakes.leads.fails h)

/-- The handshake leads to where the record was to go. -/
theorem leadsTo_handshake (h : server.handshake socket reconnect = .ok (next, socket')) :
    server.LeadsTo next := (shakes_handshake h).leads

end Server

/-! ## Activations for a server -/

/-- What an activation for a server keeps of the client and of the record. -/
structure KeepsServers (tc : TorrentClient) (server : Server) (tc' : TorrentClient)
    (server' : Server) : Prop where
  records : tc'.records = tc.records
  servers : tc'.servers = tc.servers
  connections : tc'.connections = tc.connections
  follows : server.Follows server'

/-- Nothing changes. -/
theorem KeepsServers.refl (tc : TorrentClient) (server : Server) :
    KeepsServers tc server tc server := ⟨rfl, rfl, rfl, Server.Follows.refl server⟩

/-- Two changes are one. -/
theorem KeepsServers.trans {tc₁ tc₂ tc₃ : TorrentClient} {server₁ server₂ server₃ : Server}
    (h : KeepsServers tc₁ server₁ tc₂ server₂) (h' : KeepsServers tc₂ server₂ tc₃ server₃) :
    KeepsServers tc₁ server₁ tc₃ server₃ :=
  ⟨h'.records.trans h.records, h'.servers.trans h.servers, h'.connections.trans h.connections,
    h.follows.trans h'.follows⟩

/-- A failed call keeps the records of the servers. -/
theorem keepsServers_failed (tc : TorrentClient) (server : Server) (socket : Socket)
    (excused : Bool) (errcode : ClientCode) :
    KeepsServers tc server (tc.failed server socket excused errcode).tc
      (tc.failed server socket excused errcode).server := by
  unfold failed
  split <;> exact ⟨rfl, rfl, rfl, Server.Follows.refl server⟩

/-- A failed call does not change the record. -/
@[simp] theorem failed_server (tc : TorrentClient) (server : Server) (socket : Socket)
    (excused : Bool) (errcode : ClientCode) :
    (tc.failed server socket excused errcode).server = server := by
  unfold failed
  split <;> rfl

/-- A failed call does not change the socket. -/
@[simp] theorem failed_socket (tc : TorrentClient) (server : Server) (socket : Socket)
    (excused : Bool) (errcode : ClientCode) :
    (tc.failed server socket excused errcode).socket = socket := by
  unfold failed
  split <;> rfl

/-- A connection that the peer closed leaves the records of the other servers alone. -/
theorem keepsServers_closedByPeer (tc : TorrentClient) (server : Server) (socket : Socket) :
    KeepsServers tc server (tc.closedByPeer server socket).tc
      (tc.closedByPeer server socket).server :=
  ⟨rfl, rfl, rfl, Server.Follows.refl server⟩

/-- What an activation for a server keeps, the descriptor included. -/
structure Keeps (tc : TorrentClient) (server : Server) (tc' : TorrentClient) (server' : Server) :
    Prop where
  servers : KeepsServers tc server tc' server'
  sockd : server'.sockd = server.sockd

/-- Nothing changes. -/
theorem Keeps.refl (tc : TorrentClient) (server : Server) : Keeps tc server tc server :=
  ⟨KeepsServers.refl tc server, rfl⟩

/-- Two changes are one. -/
theorem Keeps.trans {tc₁ tc₂ tc₃ : TorrentClient} {server₁ server₂ server₃ : Server}
    (h : Keeps tc₁ server₁ tc₂ server₂) (h' : Keeps tc₂ server₂ tc₃ server₃) :
    Keeps tc₁ server₁ tc₃ server₃ :=
  ⟨h.servers.trans h'.servers, h'.sockd.trans h.sockd⟩

/-- A failed call keeps the record. -/
theorem keeps_failed (tc : TorrentClient) (server : Server) (socket : Socket) (excused : Bool)
    (errcode : ClientCode) :
    Keeps tc server (tc.failed server socket excused errcode).tc
      (tc.failed server socket excused errcode).server :=
  ⟨keepsServers_failed tc server socket excused errcode, by rw [failed_server]⟩

/-- A connection that the peer closed keeps the record. -/
theorem keeps_closedByPeer (tc : TorrentClient) (server : Server) (socket : Socket) :
    Keeps tc server (tc.closedByPeer server socket).tc (tc.closedByPeer server socket).server :=
  ⟨keepsServers_closedByPeer tc server socket, rfl⟩

/-- The request for a block keeps the record. -/
theorem keeps_serverRequest (tc : TorrentClient) (server : Server) (socket : Socket) :
    Keeps tc server (tc.serverRequest server socket).tc
      (tc.serverRequest server socket).server := by
  unfold serverRequest
  split
  · exact ⟨⟨rfl, rfl, rfl, rfl, fun hpeer => ⟨rfl, hpeer.2⟩⟩, rfl⟩
  · split
    · exact keeps_failed tc server _ _ _
    · exact keeps_closedByPeer tc server _
    · exact ⟨⟨rfl, rfl, rfl, rfl, fun hpeer => ⟨rfl, hpeer.2⟩⟩, rfl⟩

/-- Receiving from a block, whether the activation goes on or returns. -/
theorem keeps_transferDown (tc : TorrentClient) (server : Server) (socket : Socket)
    (pollIn : Bool) :
    match tc.transferDown server socket pollIn with
    | .inl outcome => Keeps tc server outcome.tc outcome.server
    | .inr (tc', server', _) => Keeps tc server tc' server' := by
  unfold transferDown
  by_cases hpoll : pollIn = true ∧ server.downBytesTransfered < tc.downBlockSize
  · rw [if_pos hpoll]
    rcases socket.recv (chunk tc.downBlockSize server.downBytesTransfered) with
      ⟨errno | ⟨_ | ⟨b, bs⟩⟩, socket'⟩
    · exact keeps_failed tc server _ _ _
    · exact keeps_closedByPeer tc server _
    · exact ⟨⟨rfl, rfl, rfl, rfl, fun hpeer => hpeer⟩, rfl⟩
  · rw [if_neg hpoll]
    exact Keeps.refl tc server

/-- Sending from a block, whether the activation goes on or returns. -/
theorem keeps_transferUp {pollOut : Bool} {now : ℕ}
    {result : Outcome ⊕ (TorrentClient × Server × Socket)}
    (h : tc.transferUp server socket pollOut now = .ok result) :
    match result with
    | .inl outcome => Keeps tc server outcome.tc outcome.server
    | .inr (tc', server', _) => Keeps tc server tc' server' := by
  unfold transferUp at h
  split_ifs at h
  · split at h
    · cases h
    · split at h
      · obtain rfl := Except.ok.inj h
        exact keeps_failed tc server _ _ _
      · obtain rfl := Except.ok.inj h
        exact keeps_closedByPeer tc server _
      · obtain rfl := Except.ok.inj h
        exact ⟨⟨rfl, rfl, rfl, rfl, fun hpeer => hpeer⟩, rfl⟩
  · obtain rfl := Except.ok.inj h
    exact Keeps.refl tc server

/-- The transfer of a block keeps the record. -/
theorem keeps_serverTransfer {outcome : Outcome}
    (h : tc.serverTransfer id server socket i = .ok outcome) :
    Keeps tc server outcome.tc outcome.server := by
  unfold serverTransfer at h
  have hdown := keeps_transferDown tc server socket i.pollIn
  split at h
  · rename_i hresult
    rw [hresult] at hdown
    obtain rfl := Except.ok.inj h
    exact hdown
  · rename_i hresult
    rw [hresult] at hdown
    split at h
    · cases h
    · rename_i hup
      obtain rfl := Except.ok.inj h
      exact hdown.trans (keeps_transferUp hup)
    · rename_i hup
      obtain rfl := Except.ok.inj h
      refine (hdown.trans (keeps_transferUp hup)).trans ?_
      simp only
      split
      · exact ⟨⟨rfl, rfl, rfl, rfl, fun hpeer => ⟨rfl, hpeer.2⟩⟩, rfl⟩
      · exact ⟨⟨rfl, rfl, rfl, Server.Follows.refl _⟩, rfl⟩

/-- The end of a block keeps the record. -/
theorem keeps_serverFinished (tc : TorrentClient) (id : ℕ) (server : Server) (socket : Socket)
    (stack : Bytes) :
    Keeps tc server (tc.serverFinished id server socket stack).tc
      (tc.serverFinished id server socket stack).server := by
  unfold serverFinished
  split
  · exact keeps_failed tc server _ _ _
  · exact keeps_closedByPeer tc server _
  · split
    · exact ⟨⟨rfl, rfl, rfl, rfl, fun hpeer => ⟨rfl, hpeer.2⟩⟩, rfl⟩
    · exact Keeps.refl tc server

/-- An activation for a server leaves alone what the client knows. -/
theorem keeps_serve {outcome : Outcome} (hpeer : ofAuthority server.state = false)
    (h : tc.serve id server socket i = .ok outcome) :
    Keeps tc server outcome.tc outcome.server := by
  unfold serve at h
  split at h
  · rename_i hstate
    rw [hstate] at hpeer
    cases hpeer
  · rename_i hstate
    rw [hstate] at hpeer
    cases hpeer
  · obtain rfl := Except.ok.inj h
    exact keeps_serverRequest tc server socket
  · exact keeps_serverTransfer h
  · obtain rfl := Except.ok.inj h
    exact keeps_serverFinished tc id server socket i.stack
  · obtain rfl := Except.ok.inj h
    exact Keeps.refl tc server
  · split at h
    · cases h
    · rename_i hshake
      obtain rfl := Except.ok.inj h
      have hstep := Server.shakes_handshake hshake
      exact ⟨⟨rfl, rfl, rfl, hstep.leads.proceeds.follows⟩, hstep.sockd⟩
    · rename_i hshake
      obtain rfl := Except.ok.inj h
      have hstep := Server.shakes_handshake hshake
      have hrequest := keeps_serverRequest tc
      exact ⟨⟨(hrequest _ _).servers.records, (hrequest _ _).servers.servers,
        (hrequest _ _).servers.connections,
        hstep.leads.proceeds.follows.trans (hrequest _ _).servers.follows⟩,
        (hrequest _ _).sockd.trans hstep.sockd⟩
    · rename_i hshake
      obtain rfl := Except.ok.inj h
      have hstep := Server.shakes_handshake hshake
      exact ⟨⟨rfl, rfl, rfl, hstep.leads.proceeds.follows⟩, hstep.sockd⟩
    · rename_i hshake
      obtain rfl := Except.ok.inj h
      have hstep := Server.shakes_handshake hshake
      exact ⟨⟨rfl, rfl, rfl, hstep.leads.proceeds.follows⟩, hstep.sockd⟩

/-- Serving a connection to a server keeps the records of the servers. -/
theorem keepsServers_serve {outcome : Outcome} (hpeer : ofAuthority server.state = false)
    (h : tc.serve id server socket i = .ok outcome) :
    KeepsServers tc server outcome.tc outcome.server := (keeps_serve hpeer h).servers

/-- No activation changes the descriptor of a record. -/
theorem sockd_serve {outcome : Outcome} (h : tc.serve id server socket i = .ok outcome) :
    outcome.server.sockd = server.sockd := by
  by_cases hpeer : ofAuthority server.state = false
  · exact (keeps_serve hpeer h).sockd
  · have hstates : server.state = .authRequestNodes ∨ server.state = .authReceiveNodes := by
      cases hs : server.state <;> simp [hs, ofAuthority] at hpeer ⊢
    rcases hstates with hrequest | hreceive
    · simp only [serve, hrequest] at h
      obtain rfl := Except.ok.inj h
      unfold authRequestNodes
      split
      · rw [failed_server]
      · rfl
      · rfl
    · simp only [serve, hreceive] at h
      obtain rfl := Except.ok.inj h
      unfold authReceiveNodes
      split
      · rw [failed_server]
      · rfl
      · rfl

end TorrentClient

end ShadowExtras.Torrent
