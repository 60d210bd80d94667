import ShadowExtras.Foundation.Worklist
import ShadowExtras.Torrent.ClientNodes

/-!
# Shutting a torrent client down

`torrentClient_shutdown` walks over the list of servers and closes their connections. Closing one
appends its server to that list again, with the descriptor 0, so that the list grows while it is
walked over; the loop ends all the same, and it closes the connection of each server once:
`shutdown_eq`.

The record of the authority is in the hash table only. `Holding` follows a client with the sockets
that it has opened, the one to the authority and those that `torrentClient_connect` leaves open when
it fails included, and `closesAll_iff` says when shutting it down closes each of these once. While
the connection to the authority is open that is not so: `not_eachOwned_of_connected`.
-/

namespace ShadowExtras.Torrent

open Foundation

namespace TorrentClient

/-! ## The loop -/

/-- The client while it is shut down. -/
structure Shutdown where
  tc : TorrentClient
  /-- History: the servers whose sockets were closed, with the descriptors, in order. -/
  closed : List (ℕ × Int)
  deriving DecidableEq, Repr

/-- `torrentClient_connectionClose`; the server is appended although it is in the list. -/
def connectionClose (tc : TorrentClient) (id : ℕ) (server : Server) (closeSocket : Bool) :
    TorrentClient :=
  { tc with
    connections := tc.connections.filter fun entry => entry.1 ≠ server.sockd
    servers := tc.servers ++ [id]
    records := tc.records.set id
      { server with
        state := .serverIdle
        sockd := if closeSocket then 0 else server.sockd } }

/-- A round of the loop in `torrentClient_shutdown`. -/
def shutdownServer (id : ℕ) (s : Shutdown) : Shutdown :=
  match s.tc.records[id]? with
  | none => s
  | some server =>
    if server.sockd ≠ 0 then
      { tc := s.tc.connectionClose id server true
        closed := s.closed ++ [(id, server.sockd)] }
    else s

/-- `torrentClient_shutdown`, up to the destruction of the hash table, for so many rounds at
most. -/
def shutdown (tc : TorrentClient) (rounds : ℕ) : Option Shutdown :=
  walk (fun s : Shutdown => s.tc.servers) shutdownServer rounds 0 ⟨tc, []⟩

/-- The connection of a server, unless its descriptor is 0. -/
def socketOf (tc : TorrentClient) (id : ℕ) : Option (ℕ × Int) :=
  match tc.records[id]? with
  | none => none
  | some server => if server.sockd ≠ 0 then some (id, server.sockd) else none

/-- The list of servers is proper: none stands in it twice, each has a record, and none is the
authority. -/
structure Lists (tc : TorrentClient) : Prop where
  nodup : tc.servers.Nodup
  lt : ∀ id ∈ tc.servers, id < tc.records.length
  pos : ∀ id ∈ tc.servers, 0 < id

/-- The loop at a position: the first servers of the list as it was have been closed and appended,
the others are as they were. -/
structure Walked (tc : TorrentClient) (position : ℕ) (s : Shutdown) : Prop where
  closed : s.closed = (tc.servers.take position).filterMap tc.socketOf
  servers : s.tc.servers = tc.servers ++ s.closed.map Prod.fst
  connections : s.tc.connections =
    tc.connections.filter fun entry => entry.1 ∉ s.closed.map Prod.snd
  visited : ∀ id ∈ tc.servers.take position, s.tc.socketOf id = none
  unvisited : ∀ id ∈ tc.servers.drop position, s.tc.records[id]? = tc.records[id]?

variable {tc : TorrentClient} {s : Shutdown} {id position : ℕ} {server : Server}

/-- The socket of a record that has one. -/
theorem socketOf_eq_some {sockd : Int} :
    tc.socketOf id = some (id, sockd) ↔ sockd ≠ 0 ∧
    tc.records[id]?.map Server.sockd = some sockd := by
  unfold socketOf
  cases tc.records[id]? with
  | none => simp
  | some server =>
    by_cases h : server.sockd = 0
    · simp only [h, ne_eq, not_true_eq_false, if_false, Option.map_some, Option.some.injEq]
      constructor
      · intro hnone
        cases hnone
      · rintro ⟨hne, rfl⟩
        exact absurd rfl hne
    · simp only [ne_eq, h, not_false_eq_true, if_true, Option.map_some, Option.some.injEq,
        Prod.mk.injEq, true_and]
      constructor
      · rintro rfl
        exact ⟨h, rfl⟩
      · exact fun hsockd => hsockd.2

/-- The connection is that of the server. -/
theorem fst_of_socketOf {entry : ℕ × Int} (h : tc.socketOf id = some entry) : entry.1 = id := by
  unfold socketOf at h
  split at h
  · cases h
  · split_ifs at h
    obtain rfl := Option.some.inj h
    rfl

/-- A round for a server that has no connection does nothing. -/
theorem shutdownServer_of_none (h : s.tc.socketOf id = none) : shutdownServer id s = s := by
  unfold socketOf at h
  unfold shutdownServer
  split
  · rfl
  · rename_i server hserver
    rw [hserver] at h
    by_cases hopen : server.sockd ≠ 0
    · simp [hopen] at h
    · exact if_neg hopen

/-- A round for a server that has a connection closes it. -/
theorem shutdownServer_of_some {entry : ℕ × Int} (h : s.tc.socketOf id = some entry) :
    ∃ server, s.tc.records[id]? = some server ∧ entry = (id, server.sockd) ∧
      shutdownServer id s = ⟨s.tc.connectionClose id server true, s.closed ++ [entry]⟩ := by
  unfold socketOf at h
  unfold shutdownServer
  split at h
  · cases h
  · rename_i server hserver
    split_ifs at h with hopen
    obtain rfl := Option.some.inj h
    exact ⟨server, hserver, rfl, if_pos hopen⟩

/-- Nothing was walked. -/
theorem walked_start (tc : TorrentClient) : Walked tc 0 ⟨tc, []⟩ where
  closed := rfl
  servers := by simp
  connections := by simp
  visited := by simp
  unvisited := fun _ _ => rfl

/-- The connections of servers whose records agree. -/
theorem socketOf_congr {tc' : TorrentClient} (h : tc'.records[id]? = tc.records[id]?) :
    tc'.socketOf id = tc.socketOf id := by
  unfold socketOf
  rw [h]

/-- Closing a connection leaves the records of the other servers. -/
theorem records_connectionClose_ne {id' : ℕ} (hne : id ≠ id') (closeSocket : Bool) :
    (tc.connectionClose id server closeSocket).records[id']? = tc.records[id']? :=
  List.getElem?_set_ne hne

/-- A server whose connection was closed has none. -/
theorem socketOf_connectionClose : (tc.connectionClose id server true).socketOf id = none := by
  simp only [socketOf, connectionClose]
  by_cases hlt : id < tc.records.length
  · rw [List.getElem?_set_self hlt]
    simp
  · rw [List.getElem?_eq_none (by simpa using Nat.le_of_not_lt hlt)]

/-- The servers whose connections were closed are among those of the list. -/
theorem Walked.mem_of_closed (hw : Walked tc position s) (hid : id ∈ s.closed.map Prod.fst) :
    id ∈ tc.servers.take position := by
  obtain ⟨entry, hentry, rfl⟩ := List.mem_map.mp hid
  rw [hw.closed] at hentry
  obtain ⟨id, hmem, hsocket⟩ := List.mem_filterMap.mp hentry
  rw [fst_of_socketOf hsocket]
  exact hmem

/-- A round inside of the list as it was. -/
theorem walked_inside (hlists : tc.Lists) (hw : Walked tc position s)
    (hid : tc.servers[position]? = some id) : Walked tc (position + 1) (shutdownServer id s) := by
  obtain ⟨hlt, hget⟩ := List.getElem?_eq_some_iff.mp hid
  have htake : tc.servers.take (position + 1) = tc.servers.take position ++ [id] := by
    rw [List.take_add_one, hid]
    rfl
  have hdrop : tc.servers.drop position = id :: tc.servers.drop (position + 1) := by
    rw [List.drop_eq_getElem_cons hlt, hget]
  have hother : ∀ id' ∈ tc.servers.drop (position + 1), id ≠ id' := by
    have hnodup := (List.drop_sublist position tc.servers).nodup hlists.nodup
    rw [hdrop] at hnodup
    rintro id' hid' rfl
    exact (List.nodup_cons.mp hnodup).1 hid'
  have hkept : s.tc.socketOf id = tc.socketOf id :=
    socketOf_congr (hw.unvisited id (by rw [hdrop]; exact List.mem_cons_self))
  have hrest : ∀ id' ∈ tc.servers.drop (position + 1), s.tc.records[id']? = tc.records[id']? := by
    intro id' hid'
    apply hw.unvisited
    rw [hdrop]
    exact List.mem_cons_of_mem _ hid'
  cases hsocket : tc.socketOf id with
  | none =>
    rw [shutdownServer_of_none (hkept.trans hsocket)]
    refine ⟨?_, hw.servers, hw.connections, fun id' hid' => ?_, hrest⟩
    · rw [htake, List.filterMap_append, ← hw.closed]
      simp [hsocket]
    · rw [htake] at hid'
      rcases List.mem_append.mp hid' with hold | hnew
      · exact hw.visited id' hold
      · rw [List.mem_singleton.mp hnew, hkept, hsocket]
  | some entry =>
    obtain ⟨server, hserver, rfl, hround⟩ := shutdownServer_of_some (hkept.trans hsocket)
    rw [hround]
    refine ⟨?_, ?_, ?_, fun id' hid' => ?_, fun id' hid' => ?_⟩
    · rw [htake, List.filterMap_append, ← hw.closed]
      simp [hsocket]
    · simp only [connectionClose, hw.servers, List.map_append, List.append_assoc]
      rfl
    · simp only [connectionClose, hw.connections, List.filter_filter, List.map_append]
      congr 1
      funext entry
      rw [Bool.eq_iff_iff]
      simp [and_comm]
    · by_cases hne : id = id'
      · rw [← hne]
        exact socketOf_connectionClose
      · rw [socketOf_congr (records_connectionClose_ne hne true)]
        rw [htake] at hid'
        rcases List.mem_append.mp hid' with hold | hnew
        · exact hw.visited id' hold
        · exact absurd (List.mem_singleton.mp hnew).symm hne
    · rw [records_connectionClose_ne (hother id' hid')]
      exact hrest id' hid'

/-- A round among the servers that were appended. -/
theorem walked_behind (hw : Walked tc position s) (hlt : tc.servers.length ≤ position)
    (hid : s.tc.servers[position]? = some id) :
    shutdownServer id s = s ∧ Walked tc (position + 1) s := by
  have hnone : s.tc.socketOf id = none := by
    rw [hw.servers, List.getElem?_append_right hlt] at hid
    exact hw.visited id (hw.mem_of_closed (List.mem_of_getElem? hid))
  have htake : tc.servers.take (position + 1) = tc.servers.take position := by
    rw [List.take_of_length_le hlt, List.take_of_length_le (Nat.le_succ_of_le hlt)]
  refine ⟨shutdownServer_of_none hnone, ?_, hw.servers, hw.connections, ?_, ?_⟩
  · rw [htake]
    exact hw.closed
  · rw [htake]
    exact hw.visited
  · rw [List.drop_eq_nil_of_le (Nat.le_succ_of_le hlt)]
    simp

/-- A round closes at most one connection, and pays for it. -/
theorem walked_step (hlists : tc.Lists) (hw : Walked tc position s)
    (hid : s.tc.servers[position]? = some id) :
    Walked tc (position + 1) (shutdownServer id s) ∧
      (shutdownServer id s).tc.servers.length +
        (tc.servers.length - (shutdownServer id s).closed.length) ≤
        s.tc.servers.length + (tc.servers.length - s.closed.length) := by
  by_cases hlt : position < tc.servers.length
  · have hinside : tc.servers[position]? = some id := by
      rw [hw.servers, List.getElem?_append_left hlt] at hid
      exact hid
    have hnext := walked_inside hlists hw hinside
    refine ⟨hnext, ?_⟩
    have hclosed : (shutdownServer id s).closed.length ≤ tc.servers.length := by
      rw [hnext.closed]
      exact (List.length_filterMap_le _ _).trans (List.length_take_le' _ _)
    rw [hnext.servers, hw.servers]
    simp only [List.length_append, List.length_map]
    have hgrows : s.closed.length ≤ (shutdownServer id s).closed.length := by
      unfold shutdownServer
      split
      · exact le_rfl
      · split_ifs
        · simp
        · exact le_rfl
    omega
  · obtain ⟨hround, hnext⟩ := walked_behind hw (Nat.le_of_not_lt hlt) hid
    rw [hround]
    exact ⟨hnext, le_rfl⟩

/-- Shutting down ends. It closes the connection of each server that has one, once, and takes them
out of the table. -/
theorem shutdown_eq (hlists : tc.Lists) :
    ∃ rounds s, tc.shutdown rounds = some s ∧ s.closed = tc.servers.filterMap tc.socketOf ∧
      s.tc.connections = tc.connections.filter fun entry => entry.1 ∉ s.closed.map Prod.snd := by
  obtain ⟨rounds, j, s, hwalk, hw, hend⟩ := walk_finishes (Walked tc)
    (fun s => tc.servers.length - s.closed.length)
    (fun position s id hw hid => walked_step hlists hw hid) (walked_start tc)
  have hall : tc.servers.take j = tc.servers := by
    apply List.take_of_length_le
    rw [hw.servers, List.length_append] at hend
    exact Nat.le_trans (Nat.le_add_right _ _) hend
  refine ⟨rounds, s, hwalk, ?_, hw.connections⟩
  rw [hw.closed, hall]

/-! ## The list of servers -/

variable {i : ClientInput} {socket socket' : Socket} {tc' : TorrentClient}

/-- A new client lists nothing. -/
theorem lists_start (socksAddr : InAddr) (authority : Node) (connect : Connect)
    (fileSize downBlockSize upBlockSize : Int) :
    (start socksAddr authority connect fileSize downBlockSize upBlockSize).Lists where
  nodup := List.nodup_nil
  lt := by simp [start]
  pos := by simp [start]

/-- What the client knows of its servers does not depend on what stands in their records. -/
theorem Lists.congr (h : tc.Lists) (hservers : tc'.servers = tc.servers)
    (hlength : tc'.records.length = tc.records.length) : tc'.Lists := by
  refine ⟨?_, ?_, ?_⟩
  · rw [hservers]
    exact h.nodup
  · rw [hservers, hlength]
    exact h.lt
  · rw [hservers]
    exact h.pos

/-- A server that is added is new, and not the first record. -/
theorem Lists.addNode (h : tc.Lists) (hpos : 0 < tc.records.length) (node : Node) (sockd : Int)
    (cookie : UInt32) : (tc.addNode node sockd cookie).Lists := by
  have hnew : tc.records.length ∉ tc.servers := fun hid => (h.lt _ hid).false
  refine ⟨?_, fun id hid => ?_, fun id hid => ?_⟩
  · exact List.nodup_append.mpr ⟨h.nodup, List.nodup_singleton _, by
      rintro id hid _ hlast rfl
      rw [List.mem_singleton.mp hlast] at hid
      exact hnew hid⟩
  · simp only [TorrentClient.addNode, insertConnection, List.length_append, List.length_singleton]
    rcases List.mem_append.mp hid with hold | hlast
    · exact Nat.lt_succ_of_lt (h.lt id hold)
    · rw [List.mem_singleton.mp hlast]
      exact Nat.lt_succ_self _
  · rcases List.mem_append.mp hid with hold | hlast
    · exact h.pos id hold
    · rw [List.mem_singleton.mp hlast]
      exact hpos

/-- The rule for the loop over a node list: what every server that is added keeps, with the result
of one of the calls of `torrentClient_connect`. -/
theorem receiveNodes_invariant (P : TorrentClient → Prop) {results : Connect → Prop}
    (hadd : ∀ tc node connect cookie, results connect → P tc →
      P (tc.addNode node connect.result cookie))
    (hnone : results .errSocket) {nodes : List Node} {connects : List Connect}
    {cookies : List UInt32} (hconnects : ∀ connect ∈ connects, results connect) (h : P tc) :
    P (tc.receiveNodes nodes connects cookies).1 := by
  induction nodes generalizing tc connects cookies with
  | nil => exact h
  | cons node nodes ih =>
    simp only [receiveNodes]
    split
    · exact ih hconnects h
    · split
      · exact h
      · refine ih (fun connect hmem => hconnects connect (List.mem_of_mem_tail hmem))
          (hadd _ _ _ _ ?_ h)
        cases connects with
        | nil => exact hnone
        | cons connect connects => exact hconnects connect List.mem_cons_self

/-- An activation keeps what the client knows of its servers, or it receives a node list. -/
theorem serve_cases {outcome : Outcome} (h : tc.serve id server socket i = .ok outcome) :
    KeepsServers tc server outcome.tc outcome.server ∨
      ∃ nodes, outcome.tc = (tc.receiveNodes nodes i.connects i.cookies).1 := by
  by_cases hpeer : ofAuthority server.state = false
  · exact .inl (keepsServers_serve hpeer h)
  · have hstate : ofAuthority server.state = true := by simpa using hpeer
    have hstates : server.state = .authRequestNodes ∨ server.state = .authReceiveNodes := by
      cases hs : server.state <;> simp [hs, ofAuthority] at hstate ⊢
    rcases hstates with hrequest | hreceive
    · simp only [serve, hrequest] at h
      obtain rfl := Except.ok.inj h
      exact .inl (quiet_authRequestNodes tc socket hstate).keeps
    · simp only [serve, hreceive] at h
      obtain rfl := Except.ok.inj h
      rcases authReceiveNodes_cases tc socket i hstate with hquiet | ⟨_, _, _, -, htc, -⟩
      · exact .inl hquiet.keeps
      · exact .inr ⟨_, htc⟩

/-- An activation keeps the list of servers proper. -/
theorem lists_activate {code : ClientCode} (h : tc.Lists) (hpos : 0 < tc.records.length)
    (hactivate : tc.activate i socket = .ok (tc', socket', code)) :
    tc'.Lists ∧ 0 < tc'.records.length := by
  obtain ⟨-, rfl, -⟩ | ⟨id, server, outcome, -, -, hserve, rfl, -⟩ := activate_cases hactivate
  · exact ⟨h, hpos⟩
  · have houtcome : outcome.tc.Lists ∧ 0 < outcome.tc.records.length := by
      rcases serve_cases hserve with hkeeps | ⟨nodes, htc⟩
      · refine ⟨h.congr hkeeps.servers (by rw [hkeeps.records]), ?_⟩
        rw [hkeeps.records]
        exact hpos
      · rw [htc]
        refine receiveNodes_invariant (fun tc => tc.Lists ∧ 0 < tc.records.length)
          (fun tc node connect cookie _ hlists => ⟨hlists.1.addNode hlists.2 _ _ _, ?_⟩) trivial
          (fun _ _ => trivial) ⟨h, hpos⟩
        simp [TorrentClient.addNode, insertConnection]
    refine ⟨houtcome.1.congr rfl (by simp), ?_⟩
    simpa using houtcome.2

/-! ## The sockets of a client -/

/-- What `torrentClient_connect` does; when it fails behind `socket`, it leaves the socket open. -/
inductive Attempt
  | noSocket
  /-- `connect` fails. -/
  | refused (fd : ℕ)
  /-- `epoll_ctl` fails. -/
  | unwatched (fd : ℕ)
  | connected (fd : ℕ)
  deriving DecidableEq, Repr

/-- What the client learns of it. -/
def Attempt.connect : Attempt → Connect
  | .noSocket => .errSocket
  | .refused _ => .errConnect
  | .unwatched _ => .errEpoll
  | .connected fd => .connected fd

/-- The socket that was opened. -/
def Attempt.opened : Attempt → List ℕ
  | .noSocket => []
  | .refused fd | .unwatched fd | .connected fd => [fd]

/-- A client with the descriptors of the sockets that it has open. -/
structure Holding where
  tc : TorrentClient
  opened : List ℕ
  deriving DecidableEq, Repr

/-- What the environment does in one activation of the client. -/
structure Waking where
  /-- All but the outcomes of `torrentClient_connect`. -/
  input : ClientInput
  /-- What the calls of `torrentClient_connect` do, in order; when they run out there is no
  socket. -/
  attempts : List Attempt
  socket : Socket
  deriving DecidableEq, Repr

/-- The activation as the client sees it. -/
def Waking.clientInput (e : Waking) : ClientInput :=
  { e.input with connects := e.attempts.map Attempt.connect }

/-- Does the handshake call `torrentClient_connect`? It goes on just if that returns 0, so that the
outcome depends on the call if it is made. -/
def Server.connectsAnew (server : Server) (socket : Socket) : Bool :=
  decide (server.handshake socket (.connected 0) ≠ server.handshake socket .errSocket)

/-- The record has received a positive reply of the proxy that names an address. -/
def Server.namesAddress (server : Server) : Bool :=
  match server.buf.drop server.bufReadOffset with
  | version :: reply :: _ :: addressType :: a :: b :: c :: d :: p :: q :: _ =>
    decide (version = 5 ∧ reply = 0 ∧ addressType = 1 ∧ [a, b, c, d] ≠ [0, 0, 0, 0] ∧
      [p, q] ≠ [0, 0])
  | _ => false

/-- In the state that calls `torrentClient_connect`, the outcome depends on the call just if the
reply names an address. -/
theorem replyConn_ne_iff (server : Server) :
    server.replyConn (.connected 0) ≠ server.replyConn .errSocket ↔ server.namesAddress = true := by
  by_cases hlong : ∃ version reply head addressType a b c d p q tail,
    server.buf.drop server.bufReadOffset =
      version :: reply :: head :: addressType :: a :: b :: c :: d :: p :: q :: tail
  · obtain ⟨version, reply, head, addressType, a, b, c, d, p, q, tail, hbuf⟩ := hlong
    simp only [Server.replyConn, Server.namesAddress, hbuf, decide_eq_true_eq]
    by_cases hreply : version ≠ 5 ∨ reply ≠ 0 ∨ addressType ≠ 1
    · rw [if_pos hreply, if_pos hreply]
      grind
    · rw [if_neg hreply, if_neg hreply]
      by_cases haddress : [a, b, c, d] ≠ [0, 0, 0, 0] ∧ [p, q] ≠ [0, 0]
      · grind [Connect.result]
      · have hnot : ∀ r : Int, ¬([a, b, c, d] ≠ [0, 0, 0, 0] ∧ [p, q] ≠ [0, 0] ∧ r ≠ 0) :=
          fun r hr => haddress ⟨hr.1, hr.2.1⟩
        simp only [if_neg (hnot _), ne_eq, not_true_eq_false, false_iff]
        exact fun hnames => haddress hnames.2.2.2
  · have hcall (connect : Connect) : server.replyConn connect =
      .call (server.toReply .socksReplyConn) := by
      unfold Server.replyConn
      split
      · exact absurd ⟨_, _, _, _, _, _, _, _, _, _, _, by assumption⟩ hlong
      · rfl
    have hnames : server.namesAddress = false := by
      unfold Server.namesAddress
      split
      · exact absurd ⟨_, _, _, _, _, _, _, _, _, _, _, by assumption⟩ hlong
      · rfl
    simp [hcall, hnames]

namespace Holding

/-- `torrentClient_start` -/
def start (socksAddr : InAddr) (authority : Node) (attempt : Attempt)
    (fileSize downBlockSize upBlockSize : Int) : Holding where
  tc := TorrentClient.start socksAddr authority attempt.connect fileSize downBlockSize upBlockSize
  opened := attempt.opened

/-- Does the activation for a descriptor get to the call of `torrentClient_connect` in the
handshake? -/
def connectsAnew (h : Holding) (e : Waking) : Bool :=
  match (h.tc.lookup e.input.sockd).bind fun id => h.tc.records[id]? with
  | none => false
  | some server => server.connectsAnew e.socket

/-- The sockets that are open after an activation. Before the call in the handshake, the descriptor
in `tc->sockd` is closed, which is 0; nothing keeps the new socket. Otherwise there is a call for
each record that is added. -/
def openedAfter (h : Holding) (e : Waking) (tc : TorrentClient) : List ℕ :=
  if h.connectsAnew e then
    (h.opened.filter fun fd => fd ≠ 0) ++ (e.attempts.take 1).flatMap Attempt.opened
  else
    h.opened ++ (e.attempts.take (tc.records.length - h.tc.records.length)).flatMap Attempt.opened

/-- `torrentClient_activate` -/
def step (h : Holding) (e : Waking) : Except Fault Holding :=
  match h.tc.activate e.clientInput e.socket with
  | .error fault => .error fault
  | .ok (tc, _, _) => .ok ⟨tc, h.openedAfter e tc⟩

/-- The servers with a descriptor. -/
def owners (h : Holding) (fd : ℕ) : List ℕ :=
  h.tc.servers.filter fun id => h.tc.records[id]?.map Server.sockd = some (fd : Int)

/-- Each open socket is that of exactly one server in the list, and its descriptor is not 0. -/
def EachOwned (h : Holding) : Prop := ∀ fd ∈ h.opened, fd ≠ 0 ∧ (h.owners fd).length = 1

instance (h : Holding) : Decidable h.EachOwned :=
  inferInstanceAs (Decidable (∀ fd ∈ h.opened, fd ≠ 0 ∧ (h.owners fd).length = 1))

/-- The sockets that are still open after the loop. -/
def leftOpen (h : Holding) (s : Shutdown) : List ℕ :=
  h.opened.filter fun fd => (fd : Int) ∉ s.closed.map Prod.snd

/-- Every socket that the client had open is closed once, and the hash table holds none that is open
when it is destroyed. -/
structure ClosesAll (h : Holding) (s : Shutdown) : Prop where
  once : ∀ fd ∈ h.opened, (s.closed.map Prod.snd).count (fd : Int) = 1
  table : ∀ fd ∈ h.leftOpen s, (fd : Int) ∉ s.tc.connections.map Prod.fst

variable {h h' : Holding} {e : Waking} {fd : ℕ}

/-- How often a descriptor is closed when the connection of each server is. -/
theorem count_closed (h : Holding) (fd : ℕ) :
    ((h.tc.servers.filterMap h.tc.socketOf).map Prod.snd).count (fd : Int) =
      if fd = 0 then 0 else (h.owners fd).length := by
  have hsocket : ∀ id, ((h.tc.socketOf id).map Prod.snd == some (fd : Int)) =
      decide (fd ≠ 0 ∧ h.tc.records[id]?.map Server.sockd = some (fd : Int)) := by
    intro id
    rw [Bool.eq_iff_iff, beq_iff_eq, decide_eq_true_eq]
    constructor
    · intro hsome
      obtain ⟨entry, hentry, hfd⟩ := Option.map_eq_some_iff.mp hsome
      obtain rfl : entry = (id, (fd : Int)) := Prod.ext (fst_of_socketOf hentry) hfd
      obtain ⟨hne, hrecord⟩ := socketOf_eq_some.mp hentry
      exact ⟨by simpa using hne, hrecord⟩
    · rintro ⟨hne, hrecord⟩
      rw [socketOf_eq_some.mpr ⟨by simpa using hne, hrecord⟩]
      rfl
  rw [List.map_filterMap, List.count_filterMap]
  simp only [hsocket]
  by_cases hzero : fd = 0
  · simp [hzero]
  · simp only [ne_eq, hzero, not_false_eq_true, true_and]
    rw [List.countP_eq_length_filter]
    rfl

/-- When the connection of each server is closed, the client has none left just if each is owned. -/
theorem closesAll_iff_eachOwned {s : Shutdown}
    (hclosed : s.closed = h.tc.servers.filterMap h.tc.socketOf) : h.ClosesAll s ↔ h.EachOwned := by
  have hcount : ∀ fd : ℕ, (s.closed.map Prod.snd).count (fd : Int) =
      if fd = 0 then 0 else (h.owners fd).length := by
    intro fd
    rw [hclosed]
    exact count_closed h fd
  constructor
  · intro hall fd hfd
    have honce := hall.once fd hfd
    rw [hcount] at honce
    split_ifs at honce with hzero
    exact ⟨hzero, honce⟩
  · intro howned
    have honce : ∀ fd ∈ h.opened, (s.closed.map Prod.snd).count (fd : Int) = 1 := by
      intro fd hfd
      rw [hcount, if_neg (howned fd hfd).1]
      exact (howned fd hfd).2
    refine ⟨honce, fun fd hfd => ?_⟩
    obtain ⟨hopen, hleft⟩ := List.mem_filter.mp hfd
    have hmem : (fd : Int) ∈ s.closed.map Prod.snd :=
      List.count_pos_iff.mp (by rw [honce fd hopen]; exact Nat.one_pos)
    exact absurd hmem (by simpa using hleft)

/-- A step is an activation of the client. -/
theorem step_eq_ok (hstep : h.step e = .ok h') :
    ∃ tc socket code, h.tc.activate e.clientInput e.socket = .ok (tc, socket, code) ∧
      h' = ⟨tc, h.openedAfter e tc⟩ := by
  unfold step at hstep
  split at hstep
  · cases hstep
  · rename_i tc socket code hactivate
    obtain rfl := Except.ok.inj hstep
    exact ⟨tc, socket, code, hactivate, rfl⟩

/-- In every state that a client reaches, its list of servers is proper. -/
theorem lists_of_run {socksAddr : InAddr} {authority : Node} {attempt : Attempt}
    {fileSize downBlockSize upBlockSize : Int} {es : List Waking}
    (hrun : runSteps step (start socksAddr authority attempt fileSize downBlockSize upBlockSize)
      es = .ok h) :
    h.tc.Lists ∧ 0 < h.tc.records.length := by
  refine invariant_of_steps (fun h : Holding => h.tc.Lists ∧ 0 < h.tc.records.length) ?_
    ⟨lists_start .., by simp [start, TorrentClient.start]⟩ hrun
  intro h e h' hlists hstep
  obtain ⟨tc, socket, code, hactivate, rfl⟩ := step_eq_ok hstep
  exact lists_activate hlists.1 hlists.2 hactivate

/-- In every state that a client reaches, shutting it down ends and closes no server twice. It
closes every socket that the client has open just if each of them is that of exactly one server in
the list. -/
theorem closesAll_iff {socksAddr : InAddr} {authority : Node} {attempt : Attempt}
    {fileSize downBlockSize upBlockSize : Int} {es : List Waking}
    (hrun : runSteps step (start socksAddr authority attempt fileSize downBlockSize upBlockSize)
      es = .ok h) :
    ∃ rounds s, h.tc.shutdown rounds = some s ∧ (s.closed.map Prod.fst).Nodup ∧
      (h.ClosesAll s ↔ h.EachOwned) := by
  obtain ⟨hlists, -⟩ := lists_of_run hrun
  obtain ⟨rounds, s, hshutdown, hclosed, -⟩ := shutdown_eq hlists
  have hid : ∀ {id id'}, id' ∈ (h.tc.socketOf id).map Prod.fst → id' = id := by
    intro id id' hmem
    obtain ⟨entry, hentry, rfl⟩ := Option.map_eq_some_iff.mp hmem
    exact fst_of_socketOf hentry
  have honce : (s.closed.map Prod.fst).Nodup := by
    rw [hclosed, List.map_filterMap]
    exact hlists.nodup.filterMap fun id id' _ hfst hfst' => (hid hfst).symm.trans (hid hfst')
  exact ⟨rounds, s, hshutdown, honce, closesAll_iff_eachOwned hclosed⟩

/-- An activation of a client of the authority at descriptor 5. -/
def wake (attempts : List Attempt) (incoming : Bytes) (k : ℕ) : Waking where
  input :=
    { sockd := 5
      pollIn := true
      pollOut := true
      connects := []
      cookies := []
      stack := []
      now := 0 }
  attempts := attempts
  socket := { incoming := incoming, sent := [], answers := [.ready k] }

/-- A client without a proxy, with what connecting to the authority has come to. -/
def directClient (attempt : Attempt) : Holding :=
  start (.of 255 255 255 255) ⟨.of 10 0 0 1, .of 80 35⟩ attempt 65536 16384 16384

/-- The client has asked the authority, has received the list of two servers and has connected to
one. -/
def listed : List Waking :=
  [wake [] [] 0,
    wake [.connected 6, .refused 7] [2, 10, 0, 0, 2, 144, 31, 10, 0, 0, 3, 144, 31] 1023]

/-- The client is shut down behind that. -/
theorem closesAll_iff_listed :
    ∃ h, runSteps step (directClient (.connected 5)) listed = .ok h ∧ h.opened = [5, 6, 7] ∧
      ∃ rounds s, h.tc.shutdown rounds = some s ∧ (s.closed.map Prod.fst).Nodup ∧
        (h.ClosesAll s ↔ h.EachOwned) := by
  have hrun : ∃ h, runSteps step (directClient (.connected 5)) listed = .ok h ∧
      h.opened = [5, 6, 7] :=
    exists_ok_of_map (by decide +kernel)
  obtain ⟨h, hrun, hopened⟩ := hrun
  exact ⟨h, hrun, hopened, closesAll_iff hrun⟩

/-- A client that is shut down as soon as it has connected to the authority leaves this socket
open. -/
theorem not_closesAll_connected :
    ¬∀ (es : List Waking) (h : Holding), runSteps step (directClient (.connected 5)) es = .ok h →
      ∃ rounds s, h.tc.shutdown rounds = some s ∧ (s.closed.map Prod.fst).Nodup ∧
      h.ClosesAll s := by
  intro hall
  obtain ⟨rounds, s, hshutdown, -, hcloses⟩ := hall [] _ rfl
  have hresult : (directClient (.connected 5)).tc.shutdown 1 =
      some ⟨(directClient (.connected 5)).tc, []⟩ := rfl
  obtain rfl := walk_unique hresult hshutdown
  have honce := hcloses.once 5 (List.mem_singleton_self 5)
  cases honce

/-! ## The socket to the authority -/

/-- A new socket has a descriptor that is not in use. -/
def Fresh (h : Holding) (e : Waking) : Prop :=
  ∀ attempt ∈ e.attempts, ∀ fd ∈ attempt.opened, fd ∉ h.opened

/-- The descriptor is in the record of no server. -/
structure Avoids (tc : TorrentClient) (fd : ℕ) : Prop where
  pos : 0 < tc.records.length
  peers : ∀ (id : ℕ) (server : Server), tc.records[id + 1]? = some server →
    server.sockd ≠ (fd : Int)

/-- The codes that `torrentClient_connect` returns for its errors, and which the client takes for
descriptors, and the descriptor that the handshake closes. -/
def reserved : List ℕ := [0, 8, 15, 16]

/-- The result of a call of `torrentClient_connect` is not a descriptor that is in use. -/
theorem result_ne {attempt : Attempt} (hfd : fd ∉ reserved) (hfresh : fd ∉ attempt.opened) :
    attempt.connect.result ≠ (fd : Int) := by
  simp only [reserved, List.mem_cons, List.not_mem_nil, or_false, not_or] at hfd
  cases attempt with
  | connected fd' =>
    simp only [Attempt.connect, Connect.result, Attempt.opened, List.mem_singleton] at hfresh ⊢
    omega
  | noSocket | refused fd' | unwatched fd' =>
    simp only [Attempt.connect, Connect.result]
    omega

/-- A new node with another socket avoids it. -/
theorem Avoids.addNode {tc : TorrentClient} (hpeers : Avoids tc fd) {sockd : Int}
    (hsockd : sockd ≠ (fd : Int)) (node : Node) (cookie : UInt32) :
    Avoids (tc.addNode node sockd cookie) fd := by
  refine ⟨by simp [TorrentClient.addNode, insertConnection], fun id server hserver => ?_⟩
  simp only [TorrentClient.addNode, insertConnection, List.getElem?_append] at hserver
  by_cases hlt : id + 1 < tc.records.length
  · rw [if_pos hlt] at hserver
    exact hpeers.peers id server hserver
  · rw [if_neg hlt] at hserver
    obtain rfl := List.mem_singleton.mp (List.mem_of_getElem? hserver)
    exact hsockd

/-- Writing a record back with its descriptor. -/
theorem Avoids.set {tc : TorrentClient} (hpeers : Avoids tc fd) {id : ℕ} {server : Server}
    (hserver : 0 < id → server.sockd ≠ (fd : Int)) :
    Avoids { tc with records := tc.records.set id server } fd := by
  refine ⟨by simpa using hpeers.pos, fun id' server' hserver' => ?_⟩
  by_cases hid : id = id' + 1
  · subst hid
    obtain ⟨hlt, -⟩ := List.getElem?_eq_some_iff.mp hserver'
    rw [List.getElem?_set_self (by simpa using hlt)] at hserver'
    obtain rfl := Option.some.inj hserver'
    exact hserver (Nat.succ_pos id')
  · rw [List.getElem?_set_ne hid] at hserver'
    exact hpeers.peers id' server' hserver'

/-- An activation gives a descriptor that is in use to no server. -/
theorem avoids_activate {tc tc' : TorrentClient} {socket socket' : Socket} {code : ClientCode}
    (hpeers : Avoids tc fd) (hfd : fd ∉ reserved)
    (hfresh : ∀ attempt ∈ e.attempts, fd ∉ attempt.opened)
    (hactivate : tc.activate e.clientInput socket = .ok (tc', socket', code)) : Avoids tc' fd := by
  obtain ⟨-, rfl, -⟩ | ⟨id, server, outcome, -, hserver, hserve, rfl, -⟩ := activate_cases hactivate
  · exact hpeers
  · have houtcome : Avoids outcome.tc fd := by
      rcases serve_cases hserve with hkeeps | ⟨nodes, htc⟩
      · refine ⟨?_, ?_⟩
        · rw [hkeeps.records]
          exact hpeers.pos
        · rw [hkeeps.records]
          exact hpeers.peers
      · rw [htc]
        refine receiveNodes_invariant (fun tc => Avoids tc fd)
          (fun tc node connect cookie hresult hpeers => hpeers.addNode hresult node cookie) ?_ ?_
            hpeers
        · exact @result_ne _ .noSocket hfd (by simp [Attempt.opened])
        · intro connect hconnect
          obtain ⟨attempt, hattempt, rfl⟩ := List.mem_map.mp hconnect
          exact result_ne hfd (hfresh attempt hattempt)
    refine houtcome.set fun hpos => ?_
    obtain ⟨id, rfl⟩ := Nat.exists_eq_succ_of_ne_zero (Nat.ne_of_gt hpos)
    rw [sockd_serve hserve]
    exact hpeers.peers id server hserver

/-- An open socket that is that of no server stays so. -/
theorem unowned_step (hfd : fd ∉ reserved) (hopened : fd ∈ h.opened) (hpeers : Avoids h.tc fd)
    (hfresh : h.Fresh e) (hstep : h.step e = .ok h') : fd ∈ h'.opened ∧ Avoids h'.tc fd := by
  obtain ⟨tc, socket, code, hactivate, rfl⟩ := step_eq_ok hstep
  refine ⟨?_, avoids_activate hpeers hfd (fun attempt hattempt hmem =>
    hfresh attempt hattempt fd hmem hopened)
    hactivate⟩
  have hne : fd ≠ 0 := by
    rintro rfl
    exact hfd (by decide)
  unfold openedAfter
  split
  · exact List.mem_append_left _ (List.mem_filter.mpr ⟨hopened, by simpa using hne⟩)
  · exact List.mem_append_left _ hopened

/-- A descriptor that is in the record of no server has no owner. -/
theorem owners_eq_nil (hlists : h.tc.Lists) (hpeers : Avoids h.tc fd) : h.owners fd = [] := by
  rw [owners, List.filter_eq_nil_iff]
  intro id hid howner
  obtain ⟨id, rfl⟩ := Nat.exists_eq_succ_of_ne_zero (Nat.ne_of_gt (hlists.pos id hid))
  obtain ⟨server, hserver, hsockd⟩ := Option.map_eq_some_iff.mp (of_decide_eq_true howner)
  exact hpeers.peers id server hserver hsockd

/-- While the connection to the authority is open, some socket of the client is not that of a
server. -/
theorem not_eachOwned_of_connected {socksAddr : InAddr} {authority : Node}
    {fileSize downBlockSize upBlockSize : Int} {es : List Waking} (hfd : fd ∉ reserved)
    (hfresh : StepsMeet step Fresh
      (start socksAddr authority (.connected fd) fileSize downBlockSize upBlockSize) es)
    (hrun : runSteps step
      (start socksAddr authority (.connected fd) fileSize downBlockSize upBlockSize) es =
      .ok h) : ¬h.EachOwned := by
  have hunowned : fd ∈ h.opened ∧ Avoids h.tc fd := by
    refine invariant_of_stepsMeet (fun h : Holding => fd ∈ h.opened ∧ Avoids h.tc fd) ?_
      ⟨?_, ?_⟩ hfresh hrun
    · intro h e h' hunowned hfresh hstep
      exact unowned_step hfd hunowned.1 hunowned.2 hfresh hstep
    · exact List.mem_singleton_self fd
    · exact ⟨by simp [start, TorrentClient.start], by simp [start, TorrentClient.start]⟩
  intro howned
  have hlength := (howned fd hunowned.1).2
  rw [owners_eq_nil (lists_of_run hrun).1 hunowned.2] at hlength
  cases hlength

end Holding

end TorrentClient

end ShadowExtras.Torrent
