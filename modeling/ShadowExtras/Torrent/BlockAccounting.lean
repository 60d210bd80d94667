import Mathlib.Algebra.BigOperators.Group.List.Basic
import ShadowExtras.Foundation.Fallible
import ShadowExtras.Torrent.BlockMoves
import ShadowExtras.Torrent.ClientNodes

/-!
# The accounts of a download

A torrent client splits the file into blocks. A server that sends a request takes a block from
`blocksRemaining`, has it while it is transferred, and the message `FINISHED` adds it to
`blocksDownloaded`; an activation may return with an error between any two of these. `Balanced` says
where the blocks are and what has been received of each of them, for all servers at once:
`balanced_activate` is the step, whatever the state of the record that is activated.

The number of blocks is computed without a look at the sign of the file size. Of a negative number
of blocks none is ever requested, and `blocksRemaining` stays negative.
-/

namespace ShadowExtras.Torrent

open Foundation

namespace TorrentClient

/-! ## Blocks on their way -/

/-- `TC_SERVER_TRANSFER` and `TC_SERVER_FINISHED` -/
def ofTransfer : ClientState → Bool
  | .serverTransfer | .serverFinished => true
  | _ => false

/-- The number of servers that have a block. -/
def transferring (tc : TorrentClient) : ℕ := tc.records.countP fun server => ofTransfer server.state

/-- What was received of the block that a server has. -/
def Server.received (server : Server) : Int :=
  if ofTransfer server.state then server.downBytesTransfered else 0

/-- What was received of the blocks that servers have. -/
def received (tc : TorrentClient) : Int := (tc.records.map Server.received).sum

/-- One activation for any descriptor, with the socket as it is then. -/
def activateStep (tc : TorrentClient) (e : ClientInput × Socket) : Except Fault TorrentClient :=
  match tc.activate e.1 e.2 with
  | .error fault => .error fault
  | .ok (tc, _, _) => .ok tc

/-- The accounts of a download of a file of this size. -/
structure Accounted (tc : TorrentClient) (fileSize : Int) : Prop where
  blocks : tc.blocksDownloaded + tc.blocksRemaining + tc.transferring = tc.numBlocks
  downloaded : 0 ≤ tc.blocksDownloaded
  remaining : 0 ≤ tc.numBlocks → 0 ≤ tc.blocksRemaining
  total : tc.blocksDownloaded = tc.numBlocks →
    tc.totalBytesDown = tc.numBlocks * tc.downBlockSize ∧ fileSize ≤ tc.totalBytesDown
  /-- The counter of the bytes does not overflow. -/
  fits : 0 ≤ tc.totalBytesDown ∧ tc.totalBytesDown < 2 ^ 31

variable {tc tc' : TorrentClient} {server server' : Server} {socket socket' : Socket}
  {i : ClientInput} {id : ℕ} {outcome : Outcome}

/-! ## What an activation does to the accounts -/

/-- The accounts are the same. -/
structure SameAccounts (tc tc' : TorrentClient) : Prop where
  downBlockSize : tc'.downBlockSize = tc.downBlockSize
  numBlocks : tc'.numBlocks = tc.numBlocks
  blocksRemaining : tc'.blocksRemaining = tc.blocksRemaining
  blocksDownloaded : tc'.blocksDownloaded = tc.blocksDownloaded
  totalBytesDown : tc'.totalBytesDown = tc.totalBytesDown
  currentBlockTransfer : tc'.currentBlockTransfer = tc.currentBlockTransfer

theorem SameAccounts.refl (tc : TorrentClient) : tc.SameAccounts tc :=
  ⟨rfl, rfl, rfl, rfl, rfl, rfl⟩

/-- Two changes are one. -/
theorem SameAccounts.trans {tc₁ tc₂ tc₃ : TorrentClient} (h : tc₁.SameAccounts tc₂)
    (h' : tc₂.SameAccounts tc₃) : tc₁.SameAccounts tc₃ := by
  constructor
  · exact h'.downBlockSize.trans h.downBlockSize
  · exact h'.numBlocks.trans h.numBlocks
  · exact h'.blocksRemaining.trans h.blocksRemaining
  · exact h'.blocksDownloaded.trans h.blocksDownloaded
  · exact h'.totalBytesDown.trans h.totalBytesDown
  · exact h'.currentBlockTransfer.trans h.currentBlockTransfer

/-- What an activation of a record does to the accounts. -/
inductive BlockMove (tc : TorrentClient) (id : ℕ) (server : Server) (outcome : Outcome) : Prop
  /-- Nothing. -/
  | quiet (haccounts : tc.SameAccounts outcome.tc) (hcode : outcome.code ≠ .blockDownloaded)
      (hserver : outcome.server = server ∨
        ofTransfer server.state = false ∧ ofTransfer outcome.server.state = false)
  /-- A request is sent. -/
  | request (hstate : ofTransfer server.state = false) (hremaining : 0 < tc.blocksRemaining)
      (haccounts :
        { tc with blocksRemaining := tc.blocksRemaining - 1 }.SameAccounts outcome.tc)
      (hcode : outcome.code ≠ .blockDownloaded) (hnext : outcome.server.state = .serverTransfer)
      (hdown : outcome.server.downBytesTransfered = 0)
  /-- Some bytes of the block are received. -/
  | transfer (hstate : server.state = .serverTransfer) (bytes : ℕ)
      (hle : (bytes : Int) ≤ max (tc.downBlockSize - server.downBytesTransfered) 0)
      (block : Option ℕ) (hblock : block = tc.currentBlockTransfer ∨ block = some id)
      (haccounts :
        { tc with
          totalBytesDown := tc.totalBytesDown + bytes
          currentBlockTransfer := block }.SameAccounts outcome.tc)
      (hcode : outcome.code ≠ .blockDownloaded)
      (hdown : outcome.server.downBytesTransfered = server.downBytesTransfered + bytes)
      (hnext : outcome.server.state = .serverTransfer ∨ outcome.server.state = .serverFinished ∧
        tc.downBlockSize ≤ outcome.server.downBytesTransfered)
  /-- The block is downloaded. -/
  | finished (hstate : server.state = .serverFinished)
      (haccounts :
        { tc with
          blocksDownloaded := tc.blocksDownloaded + 1
          currentBlockTransfer := some id }.SameAccounts outcome.tc)
      (hcode : outcome.code = .blockDownloaded) (hnext : outcome.server.state = .serverRequest)

/-- A failed call leaves the accounts alone. -/
theorem sameAccounts_failed (tc : TorrentClient) (server : Server) (socket : Socket)
    (excused : Bool) (errcode : ClientCode) :
    tc.SameAccounts (tc.failed server socket excused errcode).tc ∧
      (tc.failed server socket excused errcode).code ≠ .blockDownloaded := by
  unfold failed
  split <;> exact ⟨⟨rfl, rfl, rfl, rfl, rfl, rfl⟩, by simp⟩

/-- A connection that the peer closed leaves the accounts alone. -/
theorem sameAccounts_closedByPeer (tc : TorrentClient) (server : Server) (socket : Socket) :
    tc.SameAccounts (tc.closedByPeer server socket).tc ∧
      (tc.closedByPeer server socket).code ≠ .blockDownloaded :=
  ⟨⟨rfl, rfl, rfl, rfl, rfl, rfl⟩, by simp [closedByPeer]⟩

/-- A failed call leaves the accounts. -/
theorem blockMove_failed (tc : TorrentClient) (id : ℕ) (server : Server) (socket : Socket)
    (excused : Bool) (errcode : ClientCode) :
    BlockMove tc id server (tc.failed server socket excused errcode) := by
  obtain ⟨haccounts, hcode⟩ := sameAccounts_failed tc server socket excused errcode
  exact .quiet haccounts hcode (.inl (failed_server ..))

/-- A connection that the peer closed moves its block back. -/
theorem blockMove_closedByPeer (tc : TorrentClient) (id : ℕ) (server : Server) (socket : Socket) :
    BlockMove tc id server (tc.closedByPeer server socket) := by
  obtain ⟨haccounts, hcode⟩ := sameAccounts_closedByPeer tc server socket
  exact .quiet haccounts hcode (.inl rfl)

/-- In the state in which a block is asked for; `before` is the record before the handshake. -/
theorem blockMove_serverRequest (tc : TorrentClient) (id : ℕ) {before : Server} (socket : Socket)
    (hbefore : ofTransfer before.state = false) (hstate : ofTransfer server.state = false) :
    BlockMove tc id before (tc.serverRequest server socket) := by
  unfold serverRequest
  split
  · exact .quiet (SameAccounts.refl tc) (by simp) (.inr ⟨hbefore, rfl⟩)
  · rename_i hremaining
    split
    · obtain ⟨haccounts, hcode⟩ := sameAccounts_failed tc server _ _ _
      exact .quiet haccounts hcode (.inr ⟨hbefore, by rw [failed_server]; exact hstate⟩)
    · obtain ⟨haccounts, hcode⟩ := sameAccounts_closedByPeer tc server _
      exact .quiet haccounts hcode (.inr ⟨hbefore, hstate⟩)
    · exact .request hbefore (by omega) ⟨rfl, rfl, rfl, rfl, rfl, rfl⟩ (by simp) rfl rfl

/-- Receiving from a block. -/
theorem transferDown_accounts (tc : TorrentClient) (server : Server) (socket : Socket)
    (pollIn : Bool) :
    match tc.transferDown server socket pollIn with
    | .inl outcome => tc.SameAccounts outcome.tc ∧ outcome.code ≠ .blockDownloaded ∧
        outcome.server = server
    | .inr (tc', server', _) => ∃ bytes : ℕ,
        (bytes : Int) ≤ max (tc.downBlockSize - server.downBytesTransfered) 0 ∧
        { tc with totalBytesDown := tc.totalBytesDown + bytes }.SameAccounts tc' ∧
        server' = { server with downBytesTransfered := server.downBytesTransfered + bytes } := by
  unfold transferDown
  by_cases hpoll : pollIn = true ∧ server.downBytesTransfered < tc.downBlockSize
  · rw [if_pos hpoll]
    cases hrecv : socket.recv (chunk tc.downBlockSize server.downBytesTransfered) with
    | mk result socket' =>
      rcases result with errno | ⟨_ | ⟨b, bs⟩⟩
      · obtain ⟨haccounts, hcode⟩ := sameAccounts_failed tc server socket' _ .errRecv
        exact ⟨haccounts, hcode, failed_server ..⟩
      · obtain ⟨haccounts, hcode⟩ := sameAccounts_closedByPeer tc server socket'
        exact ⟨haccounts, hcode, rfl⟩
      · have hlength := Socket.length_le_of_recv hrecv
        have hchunk := chunk_le tc.downBlockSize server.downBytesTransfered
        exact ⟨(b :: bs).length, by omega, ⟨rfl, rfl, rfl, rfl, rfl, rfl⟩, rfl⟩
  · rw [if_neg hpoll]
    exact ⟨0, by simp, ⟨rfl, rfl, rfl, rfl, by simp, rfl⟩, by simp⟩

/-- Sending from a block. -/
theorem transferUp_accounts {pollOut : Bool} {now : ℕ}
    {result : Outcome ⊕ (TorrentClient × Server × Socket)}
    (h : tc.transferUp server socket pollOut now = .ok result) :
    match result with
    | .inl outcome => tc.SameAccounts outcome.tc ∧ outcome.code ≠ .blockDownloaded ∧
        outcome.server = server
    | .inr (tc', server', _) => tc.SameAccounts tc' ∧ server'.state = server.state ∧
        server'.nextstate = server.nextstate ∧
        server'.downBytesTransfered = server.downBytesTransfered := by
  unfold transferUp at h
  split_ifs at h
  · split at h
    · cases h
    · split at h
      · obtain rfl := Except.ok.inj h
        obtain ⟨haccounts, hcode⟩ := sameAccounts_failed tc server _ _ _
        exact ⟨haccounts, hcode, failed_server ..⟩
      · obtain rfl := Except.ok.inj h
        obtain ⟨haccounts, hcode⟩ := sameAccounts_closedByPeer tc server _
        exact ⟨haccounts, hcode, rfl⟩
      · obtain rfl := Except.ok.inj h
        exact ⟨⟨rfl, rfl, rfl, rfl, rfl, rfl⟩, rfl, rfl, rfl⟩
  · obtain rfl := Except.ok.inj h
    exact ⟨SameAccounts.refl tc, rfl, rfl, rfl⟩

/-- The transfer of a block moves it on. -/
theorem blockMove_serverTransfer (hstate : server.state = .serverTransfer)
    (h : tc.serverTransfer id server socket i = .ok outcome) :
    BlockMove tc id server outcome ∧ outcome.server.nextstate = server.nextstate := by
  unfold serverTransfer at h
  have hdown := transferDown_accounts tc server socket i.pollIn
  split at h
  · rename_i hresult
    rw [hresult] at hdown
    obtain rfl := Except.ok.inj h
    obtain ⟨haccounts, hcode, hserver⟩ := hdown
    exact ⟨.quiet haccounts hcode (.inl hserver), by rw [hserver]⟩
  · rename_i tc₁ server₁ socket₁ hresult
    rw [hresult] at hdown
    obtain ⟨bytes, hle, haccounts, rfl⟩ := hdown
    split at h
    · cases h
    · rename_i hup
      obtain rfl := Except.ok.inj h
      obtain ⟨haccounts', hcode, hserver⟩ := transferUp_accounts hup
      refine ⟨.transfer hstate bytes hle tc.currentBlockTransfer (.inl rfl)
        (haccounts.trans haccounts') hcode ?_ (.inl ?_), ?_⟩
      · rw [hserver]
      · rw [hserver]
        exact hstate
      · rw [hserver]
    · rename_i tc₂ server₂ socket₂ hup
      obtain rfl := Except.ok.inj h
      obtain ⟨haccounts', hstate', hnext', hdown'⟩ := transferUp_accounts hup
      have hboth := haccounts.trans haccounts'
      refine ⟨.transfer hstate bytes hle (some id) (.inr rfl)
        ⟨hboth.downBlockSize, hboth.numBlocks, hboth.blocksRemaining, hboth.blocksDownloaded,
          hboth.totalBytesDown, rfl⟩ (by simp) ?_ ?_, ?_⟩
      · simp only
        split <;> exact hdown'
      · simp only
        split
        · rename_i hfinished
          have hsize : tc₂.downBlockSize = tc.downBlockSize := hboth.downBlockSize
          exact .inr ⟨rfl, hsize ▸ hfinished.1⟩
        · exact .inl (hstate'.trans hstate)
      · simp only
        split <;> exact hnext'

/-- The end of a block moves it to those that are downloaded. -/
theorem blockMove_serverFinished (tc : TorrentClient) (id : ℕ) (socket : Socket) (stack : Bytes)
    (hstate : server.state = .serverFinished) :
    BlockMove tc id server (tc.serverFinished id server socket stack) ∧
      (tc.serverFinished id server socket stack).server.nextstate = server.nextstate := by
  unfold serverFinished
  split
  · exact ⟨blockMove_failed tc id server _ _ _, by rw [failed_server]⟩
  · exact ⟨blockMove_closedByPeer tc id server _, rfl⟩
  · split
    · exact ⟨.finished hstate ⟨rfl, rfl, rfl, rfl, rfl, rfl⟩ rfl rfl, rfl⟩
    · exact ⟨.quiet (SameAccounts.refl tc) (by simp) (.inl rfl), rfl⟩

/-- The request for a block is sent at once. -/
theorem nextstate_serverRequest (tc : TorrentClient) (server : Server) (socket : Socket) :
    (tc.serverRequest server socket).server.nextstate = server.nextstate := by
  unfold serverRequest
  split
  · rfl
  · split
    · rw [failed_server]
    · rfl
    · rfl

/-- Neither the states of the handshake nor those of the authority are ones of a block. -/
theorem ofTransfer_of_ofHandshake (state : ClientState) (h : ofHandshake state = true) :
    ofTransfer state = false := by
  cases state <;> simp_all [ofHandshake, ofTransfer]

/-- The loop over the entries of a node list adds records and leaves the accounts. -/
theorem receiveNodes_accounts (tc : TorrentClient) (nodes : List Node) (connects : List Connect)
    (cookies : List UInt32) :
    tc.SameAccounts (tc.receiveNodes nodes connects cookies).1 ∧
      (tc.receiveNodes nodes connects cookies).2 ≠ .blockDownloaded ∧
      ∃ more, (tc.receiveNodes nodes connects cookies).1.records = tc.records ++ more ∧
        ∀ server ∈ more, ofTransfer server.state = false ∧ ofTransfer server.nextstate = false := by
  induction nodes generalizing tc connects cookies with
  | nil => exact ⟨SameAccounts.refl tc, by simp [receiveNodes], [], by simp [receiveNodes], by simp⟩
  | cons node nodes ih =>
    simp only [receiveNodes]
    split
    · exact ih tc connects cookies
    · split
      · exact ⟨SameAccounts.refl tc, by simp, [], by simp, by simp⟩
      · obtain ⟨haccounts, hcode, more, hrecords, hmore⟩ :=
          ih (tc.addNode node (connects.headD .errSocket).result (cookies.headD 0)) connects.tail
            cookies.tail
        have hadd : tc.SameAccounts
            (tc.addNode node (connects.headD .errSocket).result (cookies.headD 0)) :=
          ⟨rfl, rfl, rfl, rfl, rfl, rfl⟩
        refine ⟨hadd.trans haccounts, hcode, ?_⟩
        rw [hrecords]
        refine ⟨_ :: more, List.append_assoc _ [_] more, ?_⟩
        rintro server (_ | ⟨_, hserver⟩)
        · refine ⟨?_, rfl⟩
          simp only
          split <;> rfl
        · exact hmore server hserver

/-- The authority has no block. -/
theorem blockMove_authRequestNodes (tc : TorrentClient) (id : ℕ) (socket : Socket)
    (hstate : server.state = .authRequestNodes) (hnext : ofTransfer server.nextstate = false) :
    BlockMove tc id server (tc.authRequestNodes server socket) ∧
      ofTransfer (tc.authRequestNodes server socket).server.nextstate = false := by
  unfold authRequestNodes
  split
  · exact ⟨blockMove_failed tc id server _ _ _, by rw [failed_server]; exact hnext⟩
  · exact ⟨blockMove_closedByPeer tc id server _, hnext⟩
  · have hidle : ofTransfer server.state = false := by rw [hstate]; rfl
    exact ⟨.quiet (SameAccounts.refl tc) (by simp) (.inr ⟨hidle, rfl⟩), hnext⟩

/-- The authority has no block, whatever it sends. -/
theorem blockMove_authReceiveNodes (tc : TorrentClient) (id : ℕ) (socket : Socket)
    (i : ClientInput) (hnext : ofTransfer server.nextstate = false) :
    BlockMove tc id server (tc.authReceiveNodes server socket i) ∧
      ofTransfer (tc.authReceiveNodes server socket i).server.nextstate = false := by
  unfold authReceiveNodes
  split
  · exact ⟨blockMove_failed tc id server _ _ _, by rw [failed_server]; exact hnext⟩
  · exact ⟨blockMove_closedByPeer tc id server _, hnext⟩
  · obtain ⟨haccounts, hcode, -⟩ := receiveNodes_accounts tc
      (nodesInBuffer _ (_ ++ i.stack)) i.connects i.cookies
    exact ⟨.quiet haccounts hcode (.inl rfl), hnext⟩

/-- An activation adds records that have no block. -/
theorem records_serve (h : tc.serve id server socket i = .ok outcome) :
    ∃ more, outcome.tc.records = tc.records ++ more ∧
      ∀ server ∈ more, ofTransfer server.state = false ∧ ofTransfer server.nextstate = false := by
  have hnone (heq : outcome.tc.records = tc.records) : ∃ more,
      outcome.tc.records = tc.records ++ more ∧
      ∀ server ∈ more, ofTransfer server.state = false ∧ ofTransfer server.nextstate = false :=
    ⟨[], by rw [heq, List.append_nil], by simp⟩
  cases hauthority : ofAuthority server.state with
  | false => exact hnone (keepsServers_serve hauthority h).records
  | true =>
    cases hstate : server.state with
    | authRequestNodes =>
      simp only [serve, hstate] at h
      obtain rfl := Except.ok.inj h
      exact hnone (quiet_authRequestNodes tc socket hauthority).keeps.records
    | authReceiveNodes =>
      simp only [serve, hstate] at h
      obtain rfl := Except.ok.inj h
      obtain hquiet | ⟨count, entries, socket', -, htc, -⟩ :=
        authReceiveNodes_cases tc socket i hauthority
      · exact hnone hquiet.keeps.records
      · rw [htc]
        exact (receiveNodes_accounts tc _ _ _).2.2
    | _ =>
      rw [hstate] at hauthority
      cases hauthority

/-- An activation of a record that will not have a block by itself behind the handshake. -/
theorem blockMove_serve (hnext : ofTransfer server.nextstate = false)
    (h : tc.serve id server socket i = .ok outcome) :
    BlockMove tc id server outcome ∧ ofTransfer outcome.server.nextstate = false := by
  unfold serve at h
  split at h
  · rename_i hstate
    obtain rfl := Except.ok.inj h
    exact blockMove_authRequestNodes tc id socket hstate hnext
  · obtain rfl := Except.ok.inj h
    exact blockMove_authReceiveNodes tc id socket i hnext
  · rename_i hstate
    obtain rfl := Except.ok.inj h
    have hidle : ofTransfer server.state = false := by rw [hstate]; rfl
    refine ⟨blockMove_serverRequest tc id socket hidle hidle, ?_⟩
    rw [nextstate_serverRequest]
    exact hnext
  · rename_i hstate
    obtain ⟨hmove, hsame⟩ := blockMove_serverTransfer hstate h
    exact ⟨hmove, hsame ▸ hnext⟩
  · rename_i hstate
    obtain rfl := Except.ok.inj h
    obtain ⟨hmove, hsame⟩ := blockMove_serverFinished tc id socket i.stack hstate
    exact ⟨hmove, hsame ▸ hnext⟩
  · obtain rfl := Except.ok.inj h
    exact ⟨.quiet (SameAccounts.refl tc) (by simp) (.inl rfl), hnext⟩
  · have hidle : ofTransfer server.state = false := by
      cases hstate : server.state <;> simp_all [ofTransfer]
    split at h
    · cases h
    all_goals
      rename_i hshake
      obtain rfl := Except.ok.inj h
      have hlead := Server.leadsTo_handshake hshake
      obtain ⟨hidle', hnext'⟩ :=
        hlead.proceeds.avoids ofTransfer_of_ofHandshake hidle hnext
    · exact ⟨.quiet (SameAccounts.refl tc) (by simp) (.inr ⟨hidle, hidle'⟩), hnext'⟩
    · refine ⟨blockMove_serverRequest tc id _ hidle hidle', ?_⟩
      rw [nextstate_serverRequest]
      exact hnext'
    · refine ⟨.quiet (SameAccounts.refl tc) ?_ (.inr ⟨hidle, hidle'⟩), hnext'⟩
      rcases hlead.fails with rfl | rfl | rfl <;> simp
    · exact ⟨.quiet ⟨rfl, rfl, rfl, rfl, rfl, rfl⟩ (by simp) (.inr ⟨hidle, hidle'⟩), hnext'⟩

/-! ## The invariant -/

/-- What a record says of the block that its server has. -/
structure Server.Counted (server : Server) (blockBytes : Int) : Prop where
  transfer : server.state = .serverTransfer →
    0 ≤ server.downBytesTransfered ∧ server.downBytesTransfered ≤ blockBytes
  finished : server.state = .serverFinished → server.downBytesTransfered = blockBytes
  nextstate : ofTransfer server.nextstate = false

/-- The blocks and the bytes received of them are all accounted for. Of a block of a negative size
nothing is received. -/
structure Balanced (tc : TorrentClient) : Prop where
  blocks : tc.blocksDownloaded + tc.blocksRemaining + tc.transferring = tc.numBlocks
  downloaded : 0 ≤ tc.blocksDownloaded
  remaining : 0 ≤ tc.blocksRemaining ∨ tc.blocksRemaining = tc.numBlocks
  bytes : tc.totalBytesDown = tc.blocksDownloaded * max tc.downBlockSize 0 + tc.received
  records : ∀ server ∈ tc.records, server.Counted (max tc.downBlockSize 0)

/-- A server without a block has counted none. -/
theorem Server.Counted.of_idle {blockBytes : Int} (hstate : ofTransfer server.state = false)
    (hnext : ofTransfer server.nextstate = false) : server.Counted blockBytes := by
  refine ⟨fun h => ?_, fun h => ?_, hnext⟩
  · rw [h] at hstate
    cases hstate
  · rw [h] at hstate
    cases hstate

theorem Server.received_of_idle (hstate : ofTransfer server.state = false) :
    server.received = 0 := by
  rw [Server.received, hstate]
  rfl

/-- The sums over the records after others were added and one was written back. -/
theorem transferring_set {more : List Server} (hserver : tc.records[id]? = some server)
    (hrecords : tc'.records = (tc.records ++ more).set id server')
    (hmore : ∀ server ∈ more, ofTransfer server.state = false) :
    (tc'.transferring : Int) = tc.transferring - (if ofTransfer server.state then 1 else 0) +
        (if ofTransfer server'.state then 1 else 0) ∧
      tc'.received = tc.received - server.received + server'.received := by
  obtain ⟨hlt, hget⟩ := List.getElem?_eq_some_iff.mp hserver
  have hlt' : id < (tc.records ++ more).length := by
    rw [List.length_append]
    omega
  have hget' : (tc.records ++ more)[id] = server := by rw [List.getElem_append_left hlt, hget]
  constructor
  · have hcount : more.countP (fun server => ofTransfer server.state) = 0 :=
      List.countP_eq_zero.mpr fun server hmem => by simp [hmore server hmem]
    have hle := List.boole_getElem_le_countP (p := fun server => ofTransfer server.state) hlt'
    rw [hget', List.countP_append, hcount] at hle
    rw [transferring, hrecords, List.countP_set hlt', hget', List.countP_append, hcount,
      transferring]
    split_ifs at hle ⊢ <;> omega
  · have hsum : (more.map Server.received).sum = 0 := by
      apply List.sum_eq_zero
      intro bytes hmem
      obtain ⟨server, hserver', rfl⟩ := List.mem_map.mp hmem
      exact Server.received_of_idle (hmore server hserver')
    have hlt'' : id < ((tc.records ++ more).map Server.received).length := by simpa using hlt'
    rw [received, hrecords, List.map_set, List.sum_set', dif_pos hlt'', List.getElem_map, hget',
      List.map_append, List.sum_append, hsum, received]
    omega

/-- Accounts that are the same, and the records of which they are right. -/
theorem balanced_of_sameAccounts (haccounts : tc.SameAccounts tc')
    (hblocks : tc.blocksDownloaded + tc.blocksRemaining + tc'.transferring = tc.numBlocks)
    (hdownloaded : 0 ≤ tc.blocksDownloaded)
    (hremaining : 0 ≤ tc.blocksRemaining ∨ tc.blocksRemaining = tc.numBlocks)
    (hbytes : tc.totalBytesDown = tc.blocksDownloaded * max tc.downBlockSize 0 + tc'.received)
    (hrecords : ∀ server ∈ tc'.records, server.Counted (max tc.downBlockSize 0)) :
    tc'.Balanced := by
  constructor
  · rw [haccounts.blocksDownloaded, haccounts.blocksRemaining, haccounts.numBlocks]
    exact hblocks
  · rw [haccounts.blocksDownloaded]
    exact hdownloaded
  · rw [haccounts.blocksRemaining, haccounts.numBlocks]
    exact hremaining
  · rw [haccounts.totalBytesDown, haccounts.blocksDownloaded, haccounts.downBlockSize]
    exact hbytes
  · rw [haccounts.downBlockSize]
    exact hrecords

/-- The step: an activation keeps the accounts. -/
theorem Balanced.activate {code : ClientCode} (h : tc.Balanced)
    (hactivate : tc.activate i socket = .ok (tc', socket', code)) :
    tc'.Balanced ∧ tc'.downBlockSize = tc.downBlockSize ∧ tc'.numBlocks = tc.numBlocks := by
  obtain ⟨-, rfl, -⟩ | ⟨id, server, outcome, -, hserver, hserve, htc, -⟩ := activate_cases hactivate
  · exact ⟨h, rfl, rfl⟩
  have hback : outcome.tc.SameAccounts tc' := by
    rw [htc]
    exact ⟨rfl, rfl, rfl, rfl, rfl, rfl⟩
  have hcounted := h.records server (List.mem_of_getElem? hserver)
  obtain ⟨hmove, hnext⟩ := blockMove_serve hcounted.nextstate hserve
  obtain ⟨more, hrecords, hmore⟩ := records_serve hserve
  have hset : tc'.records = (tc.records ++ more).set id outcome.server := by rw [htc, hrecords]
  obtain ⟨hservers, hbytes⟩ :=
    transferring_set hserver hset fun server hmem => (hmore server hmem).1
  -- the other records say what they said before
  have hothers (hserver' : outcome.server.Counted (max tc.downBlockSize 0)) :
      ∀ server ∈ tc'.records, server.Counted (max tc.downBlockSize 0) := by
    intro server hmem
    rw [hset] at hmem
    rcases List.mem_or_eq_of_mem_set hmem with hmem | rfl
    · rcases List.mem_append.mp hmem with hmem | hmem
      · exact h.records server hmem
      · exact .of_idle (hmore server hmem).1 (hmore server hmem).2
    · exact hserver'
  have hblocks := h.blocks
  have hdownloaded := h.downloaded
  have hremaining := h.remaining
  have htotal := h.bytes
  cases hmove with
  | quiet haccounts hcode hsame =>
    have hstate : (if ofTransfer outcome.server.state then (1 : Int) else 0) =
        (if ofTransfer server.state then 1 else 0) ∧
        outcome.server.received = server.received ∧
          outcome.server.Counted (max tc.downBlockSize 0) := by
      rcases hsame with heq | ⟨hidle, hidle'⟩
      · rw [heq]
        exact ⟨rfl, rfl, hcounted⟩
      · rw [hidle, hidle', Server.received_of_idle hidle, Server.received_of_idle hidle']
        exact ⟨rfl, rfl, .of_idle hidle' hnext⟩
    obtain ⟨hone, hreceived, hserver'⟩ := hstate
    have hboth := haccounts.trans hback
    refine ⟨balanced_of_sameAccounts hboth ?_ hdownloaded hremaining ?_ (hothers hserver'),
      hboth.downBlockSize, hboth.numBlocks⟩
    · omega
    · omega
  | request hidle hsome haccounts hcode hnext' hdown =>
    have hbusy : ofTransfer outcome.server.state = true := by rw [hnext', ofTransfer]
    have hreceived : outcome.server.received = 0 := by rw [Server.received, if_pos hbusy, hdown]
    have hserver' : outcome.server.Counted (max tc.downBlockSize 0) := by
      refine ⟨fun _ => ?_, fun hstate => ?_, hnext⟩
      · omega
      · rw [hnext'] at hstate
        cases hstate
    rw [hidle, hbusy] at hservers
    rw [Server.received_of_idle hidle, hreceived] at hbytes
    have hboth := haccounts.trans hback
    refine ⟨balanced_of_sameAccounts hboth ?_ hdownloaded ?_ ?_ (hothers hserver'),
      hboth.downBlockSize, hboth.numBlocks⟩
    · simp only [Bool.false_eq_true, if_false, if_true] at hservers ⊢
      omega
    · simp only
      omega
    · simp only
      omega
  | transfer hstate bytes hle block hblock haccounts hcode hdown hnext' =>
    obtain ⟨hlow, hhigh⟩ := hcounted.transfer hstate
    have hbusy : ofTransfer server.state = true := by rw [hstate, ofTransfer]
    have hbusy' : ofTransfer outcome.server.state = true := by
      rcases hnext' with heq | ⟨heq, -⟩ <;> rw [heq, ofTransfer]
    have hserver' : outcome.server.Counted (max tc.downBlockSize 0) := by
      refine ⟨fun _ => ?_, fun hfinished => ?_, hnext⟩
      · omega
      · rcases hnext' with heq | ⟨-, hfull⟩
        · rw [heq] at hfinished
          cases hfinished
        · omega
    rw [hbusy, hbusy'] at hservers
    rw [Server.received, Server.received, if_pos hbusy, if_pos hbusy', hdown] at hbytes
    have hboth := haccounts.trans hback
    refine ⟨balanced_of_sameAccounts hboth ?_ hdownloaded hremaining ?_ (hothers hserver'),
      hboth.downBlockSize, hboth.numBlocks⟩
    · simp only at hservers ⊢
      omega
    · simp only
      omega
  | finished hstate haccounts hcode hnext' =>
    have hfull := hcounted.finished hstate
    have hbusy : ofTransfer server.state = true := by rw [hstate, ofTransfer]
    have hidle' : ofTransfer outcome.server.state = false := by
      rw [hnext']
      rfl
    rw [hbusy, hidle'] at hservers
    rw [Server.received, if_pos hbusy, hfull, Server.received_of_idle hidle'] at hbytes
    have hboth := haccounts.trans hback
    refine ⟨balanced_of_sameAccounts hboth ?_ ?_ hremaining ?_ (hothers (.of_idle hidle' hnext)),
      hboth.downBlockSize, hboth.numBlocks⟩
    · simp only [Bool.false_eq_true, if_false, if_true] at hservers ⊢
      omega
    · simp only
      omega
    · simp only
      rw [add_mul, one_mul]
      omega

/-! ## Runs -/

/-- A new client is balanced. -/
theorem balanced_start (socksAddr : InAddr) (authority : Node) (connect : Connect)
    (fileSize downBlockSize upBlockSize : Int) :
    (start socksAddr authority connect fileSize downBlockSize upBlockSize).Balanced := by
  refine ⟨?_, le_rfl, .inr rfl, ?_, ?_⟩
  · simp [start, transferring, Server.zero, ofTransfer]
  · simp [start, TorrentClient.received, Server.received, Server.zero, ofTransfer]
  · intro server hmem
    obtain rfl := List.mem_singleton.mp hmem
    exact .of_idle rfl rfl

/-- A server has received at most a block. -/
theorem Server.Counted.received_bounds {blockBytes : Int} (h : server.Counted blockBytes)
    (hsize : 0 ≤ blockBytes) :
    0 ≤ server.received ∧
      server.received ≤ (if ofTransfer server.state then 1 else 0) * blockBytes := by
  unfold Server.received
  cases hstate : server.state with
  | serverTransfer =>
    have hdown := h.transfer hstate
    simpa [ofTransfer] using hdown
  | serverFinished =>
    have hdown := h.finished hstate
    simp only [ofTransfer, if_true, one_mul]
    omega
  | _ => simp [ofTransfer]

/-- Of the blocks that servers have, at most all bytes were received. -/
theorem received_bounds (h : ∀ server ∈ tc.records, server.Counted (max tc.downBlockSize 0)) :
    0 ≤ tc.received ∧ tc.received ≤ tc.transferring * max tc.downBlockSize 0 := by
  unfold received transferring
  revert h
  induction tc.records with
  | nil => simp
  | cons server records ih =>
    intro h
    obtain ⟨hlow, hhigh⟩ := ih fun server hserver => h server (List.mem_cons_of_mem _ hserver)
    obtain ⟨hone, hmany⟩ := (h server List.mem_cons_self).received_bounds (le_max_right _ _)
    rw [List.map_cons, List.sum_cons, List.countP_cons]
    push_cast
    rw [add_mul]
    omega

/-- In whole blocks the file is not longer than the blocks, and not a block shorter. -/
theorem numBlocks_mul {fileSize downBlockSize numBlocks : Int} (hsize : 0 < downBlockSize)
    (hblocks : numBlocks = (fileSize + downBlockSize - 1).tdiv downBlockSize) :
    fileSize ≤ numBlocks * downBlockSize ∧
      (0 < numBlocks → numBlocks * downBlockSize < fileSize + downBlockSize) := by
  have hdiv := Int.tdiv_mul_add_tmod (fileSize + downBlockSize - 1) downBlockSize
  have hmod := Int.tmod_lt_of_pos (fileSize + downBlockSize - 1) hsize
  rw [← hblocks] at hdiv
  constructor
  · omega
  · intro hpos
    have hsome : 0 ≤ fileSize + downBlockSize - 1 := by
      by_contra hneg
      have hle : 0 ≤ (-(fileSize + downBlockSize - 1)).tdiv downBlockSize :=
        Int.tdiv_nonneg (by omega) hsize.le
      rw [Int.neg_tdiv] at hle
      omega
    have hrest := Int.tmod_nonneg downBlockSize hsome
    omega

/-- What the invariant says of a client that has as many blocks as its file needs. -/
theorem Balanced.accounted {fileSize : Int} (h : tc.Balanced) (hsize : 0 < tc.downBlockSize)
    (hfits : fileSize + tc.downBlockSize < 2 ^ 31)
    (hblocks : tc.numBlocks = (fileSize + tc.downBlockSize - 1).tdiv tc.downBlockSize) :
    tc.Accounted fileSize := by
  obtain ⟨hfile, hspare⟩ := numBlocks_mul hsize hblocks
  obtain ⟨hreceived, hbound⟩ := received_bounds h.records
  have hblock : max tc.downBlockSize 0 = tc.downBlockSize := max_eq_left hsize.le
  rw [hblock] at hbound
  have hlaw := h.blocks
  have hdownloaded := h.downloaded
  have hbytes := h.bytes
  rw [hblock] at hbytes
  have hbusy : 0 ≤ (tc.transferring : Int) * tc.downBlockSize :=
    Int.mul_nonneg (by omega) hsize.le
  have hall := Int.mul_nonneg hdownloaded hsize.le
  -- a client that requests nothing has received nothing
  have hremaining : 0 ≤ tc.blocksRemaining ∨ tc.blocksDownloaded = 0 ∧ tc.transferring = 0 := by
    rcases h.remaining with hremaining | hremaining
    · exact .inl hremaining
    · right
      omega
  refine ⟨hlaw, hdownloaded, fun _ => ?_, fun hcomplete => ?_, by omega, ?_⟩
  · rcases h.remaining with hremaining | hremaining <;> omega
  · have hidle : tc.transferring = 0 := by
      rcases hremaining with hremaining | hremaining <;> omega
    rw [hidle, Nat.cast_zero, zero_mul] at hbound
    rw [hcomplete] at hbytes
    constructor <;> omega
  · rcases hremaining with hremaining | ⟨hnone, hidle⟩
    · have hle : (tc.blocksDownloaded + tc.transferring) * tc.downBlockSize ≤
          tc.numBlocks * tc.downBlockSize :=
        Int.mul_le_mul_of_nonneg_right (by omega) hsize.le
      rw [add_mul] at hle
      rcases Int.lt_or_le 0 tc.numBlocks with hpos | hnone
      · have hless := hspare hpos
        omega
      · have hzero : tc.numBlocks * tc.downBlockSize ≤ 0 :=
          Int.mul_nonpos_of_nonpos_of_nonneg hnone hsize.le
        omega
    · rw [hidle, Nat.cast_zero, zero_mul] at hbound
      rw [hnone, zero_mul] at hbytes
      omega

/-- In every run of activations, for any descriptors and with any results of the calls, the blocks
are accounted for. -/
theorem accounted_of_run {socksAddr : InAddr} {authority : Node} {connect : Connect}
    {fileSize downBlockSize upBlockSize : Int} {es : List (ClientInput × Socket)}
    (hsize : 0 < downBlockSize) (hfits : fileSize + downBlockSize < 2 ^ 31)
    (hrun : runSteps activateStep
      (start socksAddr authority connect fileSize downBlockSize upBlockSize) es = .ok tc) :
    tc.Accounted fileSize := by
  have hinv : tc.Balanced ∧ tc.downBlockSize = downBlockSize ∧
      tc.numBlocks = (fileSize + downBlockSize - 1).tdiv downBlockSize := by
    refine invariant_of_steps (fun tc => tc.Balanced ∧ tc.downBlockSize = downBlockSize ∧
      tc.numBlocks = (fileSize + downBlockSize - 1).tdiv downBlockSize) ?_ ?_ hrun
    · rintro tc e tc' ⟨hbalanced, hblock, hblocks⟩ hstep
      unfold activateStep at hstep
      split at hstep
      · cases hstep
      · rename_i hactivate
        obtain rfl := Except.ok.inj hstep
        obtain ⟨hbalanced', hblock', hblocks'⟩ := hbalanced.activate hactivate
        exact ⟨hbalanced', hblock'.trans hblock, hblocks'.trans hblocks⟩
    · exact ⟨balanced_start socksAddr authority connect fileSize downBlockSize upBlockSize,
        by rw [start], by rw [start]⟩
  obtain ⟨hbalanced, rfl, hblocks⟩ := hinv
  exact hbalanced.accounted hsize hfits hblocks

/-- An activation for a descriptor that is ready, with what has arrived there. -/
def ready (sockd : Int) (connects : List Connect) (incoming : Bytes) : ClientInput × Socket :=
  (⟨sockd, true, true, connects, [7], [], 0⟩, ⟨incoming, [], [.ready 99]⟩)

/-- The authority names one server, and the server has the one block. -/
def oneDownload : List (ClientInput × Socket) :=
  [ready 5 [] [], ready 5 [.connected 6] [1, 10, 0, 0, 2, 144, 31], ready 6 [] [],
    ready 6 [] [88, 88], ready 6 [] (ascii "FINISHED")]

/-- The client that is started for a file. -/
def startFor (fileSize downBlockSize : Int) : TorrentClient :=
  start (.of 255 255 255 255) ⟨.of 10 0 0 1, .of 80 35⟩ (.connected 5) fileSize
    downBlockSize 0

/-- A download of one block. -/
theorem accounted_oneDownload :
    ∃ tc, runSteps activateStep (startFor 2 2) oneDownload = .ok tc ∧ tc.Accounted 2 := by
  obtain ⟨tc, hrun⟩ : Succeeds (runSteps activateStep (startFor 2 2) oneDownload) :=
    succeeds_of_isOk (by decide +kernel)
  exact ⟨tc, hrun, accounted_of_run (by decide) (by decide) hrun⟩

/-- A file of a negative size has a negative number of blocks, and that many remain. -/
theorem blocksRemaining_neg :
    ∃ tc, runSteps activateStep (startFor (-2) 1) [] = .ok tc ∧ tc.blocksRemaining < 0 :=
  ⟨startFor (-2) 1, by rw [runSteps_nil], by decide⟩

end TorrentClient

end ShadowExtras.Torrent
