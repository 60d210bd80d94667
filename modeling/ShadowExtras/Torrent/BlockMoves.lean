import ShadowExtras.Torrent.ClientRecords
import ShadowExtras.Torrent.Server

/-!
# What an activation does to a block

`clientMove_serve` and `serverMove_serve` say once what an activation of the torrent client and of
the torrent server can do on a connection between the two: which bytes pass, what becomes of the
counters and of the state. What follows about blocks is derived from these.
-/

namespace ShadowExtras.Torrent

open Foundation

namespace TorrentClient

variable {tc tc' : TorrentClient} {server server' : Server} {socket socket' : Socket}
  {i : ClientInput} {id : ℕ} {outcome : Outcome}

/-- The sizes of the blocks stay. -/
def SameSizes (tc tc' : TorrentClient) : Prop :=
  tc'.downBlockSize = tc.downBlockSize ∧ tc'.upBlockSize = tc.upBlockSize

/-- A failed call keeps the sizes. -/
theorem sameSizes_failed (tc : TorrentClient) (server : Server) (socket : Socket) (excused : Bool)
    (errcode : ClientCode) : tc.SameSizes (tc.failed server socket excused errcode).tc := by
  unfold failed
  split <;> exact ⟨rfl, rfl⟩

/-- The bytes of a block that pass in one activation. -/
structure Passes (downSize upSize down up : Int) (socket socket' : Socket) (received sent : Bytes) :
    Prop where
  incoming_eq : socket.incoming = received ++ socket'.incoming
  sent_eq : socket'.sent = socket.sent ++ sent
  down_le : (received.length : Int) ≤ max (downSize - down) 0
  up_le : (sent.length : Int) ≤ max (upSize - up) 0

/-- What an activation does on a connection to a server, behind the handshake. -/
inductive ClientMove (tc : TorrentClient) (server : Server) (socket : Socket) (stack : Bytes)
    (outcome : Outcome) : Prop
  /-- Nothing passes and nothing changes. -/
  | quiet (hserver : outcome.server = server) (hsame : socket.Same outcome.socket)
  /-- There is no block left to ask for. -/
  | idle (hstate : server.state = .serverRequest)
      (hserver : outcome.server = { server with state := .serverIdle })
      (hsame : socket.Same outcome.socket)
  /-- Some bytes of a request are sent. -/
  | request (hstate : server.state = .serverRequest) (n : ℕ) (hpos : 0 < n)
      (hle : n ≤ (fileRequest server.cookie).length)
      (hincoming : outcome.socket.incoming = socket.incoming)
      (hsent : outcome.socket.sent = socket.sent ++ (fileRequest server.cookie).take n)
      (hcookie : outcome.server.cookie = server.cookie)
      (hnext : outcome.server.state = .serverTransfer)
      (hdown : outcome.server.downBytesTransfered = 0) (hup : outcome.server.upBytesTransfered = 0)
  /-- Some payload passes. -/
  | transfer (hstate : server.state = .serverTransfer) (received sent : Bytes)
      (hpasses : Passes tc.downBlockSize tc.upBlockSize server.downBytesTransfered
        server.upBytesTransfered socket outcome.socket received sent)
      (hdown : outcome.server.downBytesTransfered = server.downBytesTransfered + received.length)
      (hup : outcome.server.upBytesTransfered = server.upBytesTransfered + sent.length)
      (hnext : outcome.server.state = .serverTransfer ∨ outcome.server.state = .serverFinished ∧
        tc.downBlockSize ≤ outcome.server.downBytesTransfered ∧
        tc.upBlockSize ≤ outcome.server.upBytesTransfered)
  /-- Bytes arrive where the message `FINISHED` is expected. -/
  | finished (hstate : server.state = .serverFinished) (b : Byte) (bs : Bytes)
      (hrecv : (socket.recv bufSize).1 = .ok (b :: bs))
      (hincoming : socket.incoming = (b :: bs) ++ outcome.socket.incoming)
      (hsent : outcome.socket.sent = socket.sent)
      (hserver : outcome.server =
        if standsIn finishedText (b :: bs) stack then { server with state := .serverRequest }
        else server)

/-- A failed call is no move. -/
theorem clientMove_failed (tc tc' : TorrentClient) (server : Server) {socket socket' : Socket}
    (stack : Bytes) (excused : Bool) (errcode : ClientCode) (hsame : socket.Same socket') :
    ClientMove tc server socket stack (tc'.failed server socket' excused errcode) := by
  apply ClientMove.quiet
  · rw [failed_server]
  · rw [failed_socket]
    exact hsame

/-- The request for a block is a move. -/
theorem clientMove_serverRequest (tc : TorrentClient) (socket : Socket) (stack : Bytes)
    (hstate : server.state = .serverRequest) :
    ClientMove tc server socket stack (tc.serverRequest server socket) ∧
      tc.SameSizes (tc.serverRequest server socket).tc := by
  unfold serverRequest
  split
  · exact ⟨.idle hstate rfl (Socket.Same.refl socket), rfl, rfl⟩
  · split
    · rename_i hsend
      exact ⟨clientMove_failed tc tc server stack _ _ (Socket.same_of_send_error hsend),
        sameSizes_failed ..⟩
    · rename_i hsend
      exact ⟨.quiet rfl (Socket.same_of_send_zero hsend), rfl, rfl⟩
    · rename_i n socket' hsend
      obtain ⟨hle, hincoming, hsent⟩ := Socket.sent_of_send hsend
      exact ⟨.request hstate (n + 1) (Nat.succ_pos n) hle hincoming hsent rfl rfl rfl rfl, rfl, rfl⟩

/-- What is passed in one call is no more than what is left of the block. -/
theorem chunk_le (blockSize transfered : Int) :
    (chunk blockSize transfered : Int) ≤ max (blockSize - transfered) 0 := by
  unfold chunk
  omega

/-- Receiving from a block. -/
theorem transferDown_cases (tc : TorrentClient) (server : Server) (socket : Socket)
    (pollIn : Bool) :
    match tc.transferDown server socket pollIn with
    | .inl outcome => outcome.server = server ∧ socket.Same outcome.socket ∧ tc.SameSizes outcome.tc
    | .inr (tc', server', socket') => tc.SameSizes tc' ∧ ∃ received : Bytes,
        socket.incoming = received ++ socket'.incoming ∧ socket'.sent = socket.sent ∧
        (received.length : Int) ≤ max (tc.downBlockSize - server.downBytesTransfered) 0 ∧
        server' = { server with
          downBytesTransfered := server.downBytesTransfered + received.length } := by
  unfold transferDown
  by_cases hpoll : pollIn = true ∧ server.downBytesTransfered < tc.downBlockSize
  · rw [if_pos hpoll]
    cases hrecv : socket.recv (chunk tc.downBlockSize server.downBytesTransfered) with
    | mk result socket' =>
      rcases result with errno | ⟨_ | ⟨b, bs⟩⟩
      · exact ⟨failed_server .., by rw [failed_socket]; exact Socket.same_of_recv_error hrecv,
          sameSizes_failed ..⟩
      · exact ⟨rfl, Socket.same_of_recv_nil hrecv, rfl, rfl⟩
      · obtain ⟨hincoming, hsent⟩ := Socket.incoming_of_recv hrecv
        have hlength := Socket.length_le_of_recv hrecv
        have hchunk := chunk_le tc.downBlockSize server.downBytesTransfered
        exact ⟨⟨rfl, rfl⟩, b :: bs, hincoming, hsent, by omega, rfl⟩
  · rw [if_neg hpoll]
    exact ⟨⟨rfl, rfl⟩, [], rfl, rfl, by simp, by simp⟩

/-- What is put into the buffer has the length that was asked for. -/
theorem length_of_fillBuffer {length : ℕ} {filler buf : Bytes}
    (h : fillBuffer length filler = .ok buf) : buf.length = length := by
  unfold fillBuffer at h
  split_ifs at h with hlt
  obtain rfl := Except.ok.inj h
  have hcopies : (length - 1) / filler.length * filler.length ≤ length :=
    (Nat.div_mul_le_self _ _).trans (Nat.sub_le _ _)
  simp only [List.length_append, List.length_flatten, List.map_replicate, List.sum_replicate,
    List.length_replicate, smul_eq_mul]
  omega

/-- Sending from a block. -/
theorem transferUp_cases {pollOut : Bool} {now : ℕ}
    {result : Outcome ⊕ (TorrentClient × Server × Socket)}
    (h : tc.transferUp server socket pollOut now = .ok result) :
    match result with
    | .inl outcome => outcome.server = server ∧ socket.Same outcome.socket ∧ tc.SameSizes outcome.tc
    | .inr (tc', server', socket') => tc.SameSizes tc' ∧ ∃ sent : Bytes,
        socket'.incoming = socket.incoming ∧ socket'.sent = socket.sent ++ sent ∧
        (sent.length : Int) ≤ max (tc.upBlockSize - server.upBytesTransfered) 0 ∧
        server' = { server with
          upBytesTransfered := server.upBytesTransfered + sent.length } := by
  unfold transferUp at h
  split_ifs at h with hpoll
  · split at h
    · cases h
    · rename_i buf hbuf
      split at h
      · rename_i hsend
        obtain rfl := Except.ok.inj h
        exact ⟨failed_server .., by rw [failed_socket]; exact Socket.same_of_send_error hsend,
          sameSizes_failed ..⟩
      · rename_i hsend
        obtain rfl := Except.ok.inj h
        exact ⟨rfl, Socket.same_of_send_zero hsend, rfl, rfl⟩
      · rename_i n socket' hsend
        obtain rfl := Except.ok.inj h
        obtain ⟨hle, hincoming, hsent⟩ := Socket.sent_of_send hsend
        have hlength : (buf.take (n + 1)).length = n + 1 := by
          rw [List.length_take]
          omega
        have hchunk := chunk_le tc.upBlockSize server.upBytesTransfered
        rw [length_of_fillBuffer hbuf] at hle
        refine ⟨⟨rfl, rfl⟩, buf.take (n + 1), hincoming, hsent, ?_, ?_⟩
        · rw [hlength]
          omega
        · rw [hlength]
          rfl
  · obtain rfl := Except.ok.inj h
    exact ⟨⟨rfl, rfl⟩, [], rfl, by simp, by simp, by simp⟩

/-- The transfer of a block is a move. -/
theorem clientMove_serverTransfer (stack : Bytes) (hstate : server.state = .serverTransfer)
    (h : tc.serverTransfer id server socket i = .ok outcome) :
    ClientMove tc server socket stack outcome ∧ tc.SameSizes outcome.tc := by
  unfold serverTransfer at h
  have hdown := transferDown_cases tc server socket i.pollIn
  split at h
  · rename_i outcome' hresult
    obtain rfl := Except.ok.inj h
    rw [hresult] at hdown
    obtain ⟨hserver, hsame, hsizes⟩ := hdown
    exact ⟨.quiet hserver hsame, hsizes⟩
  · rename_i tc₁ server₁ socket₁ hresult
    rw [hresult] at hdown
    obtain ⟨⟨hdownSize, hupSize⟩, received, hincoming, hsent, hreceived, rfl⟩ := hdown
    split at h
    · cases h
    · rename_i outcome' hup
      obtain rfl := Except.ok.inj h
      obtain ⟨hserver, ⟨hin, hout⟩, hsizes⟩ := transferUp_cases hup
      refine ⟨.transfer hstate received [] ⟨?_, ?_, hreceived, by simp⟩ ?_ ?_ ?_,
        hsizes.1.trans hdownSize, hsizes.2.trans hupSize⟩
      · rw [hin]
        exact hincoming
      · rw [hout, hsent, List.append_nil]
      · rw [hserver]
      · rw [hserver]
        simp
      · rw [hserver]
        exact .inl hstate
    · rename_i tc₂ server₂ socket₂ hup
      obtain rfl := Except.ok.inj h
      obtain ⟨⟨hdownSize₂, hupSize₂⟩, sent, hin, hout, hle, rfl⟩ := transferUp_cases hup
      rw [hupSize] at hle
      refine ⟨.transfer hstate received sent ⟨?_, ?_, hreceived, hle⟩ ?_ ?_ ?_,
        hdownSize₂.trans hdownSize, hupSize₂.trans hupSize⟩
      · rw [hin]
        exact hincoming
      · rw [hout, hsent]
      · simp only
        split <;> rfl
      · simp only
        split <;> rfl
      · simp only
        rw [hdownSize₂, hupSize₂, hdownSize, hupSize]
        split
        · rename_i hfinished
          exact .inr ⟨rfl, hfinished⟩
        · exact .inl hstate

/-- The end of a block is a move. -/
theorem clientMove_serverFinished (tc : TorrentClient) (id : ℕ) (socket : Socket) (stack : Bytes)
    (hstate : server.state = .serverFinished) :
    ClientMove tc server socket stack (tc.serverFinished id server socket stack) ∧
      tc.SameSizes (tc.serverFinished id server socket stack).tc := by
  unfold serverFinished
  split
  · rename_i hrecv
    exact ⟨clientMove_failed tc tc server stack _ _ (Socket.same_of_recv_error hrecv),
      sameSizes_failed ..⟩
  · rename_i hrecv
    exact ⟨.quiet rfl (Socket.same_of_recv_nil hrecv), rfl, rfl⟩
  · rename_i b bs socket' hrecv
    obtain ⟨hincoming, hsent⟩ := Socket.incoming_of_recv hrecv
    have hfst : (socket.recv bufSize).1 = .ok (b :: bs) := congrArg Prod.fst hrecv
    split
    · rename_i hfound
      exact ⟨.finished hstate b bs hfst hincoming hsent (by rw [if_pos hfound]), rfl, rfl⟩
    · rename_i hfound
      exact ⟨.finished hstate b bs hfst hincoming hsent (by rw [if_neg hfound]), rfl, rfl⟩

/-- The states of a connection to a server, behind the handshake. -/
def ofBlocks : ClientState → Bool
  | .serverRequest | .serverTransfer | .serverFinished | .serverIdle => true
  | _ => false

/-- What an activation does on a connection to a server. -/
theorem clientMove_serve (hstate : ofBlocks server.state = true)
    (h : tc.serve id server socket i = .ok outcome) :
    ClientMove tc server socket i.stack outcome ∧ tc.SameSizes outcome.tc := by
  unfold serve at h
  cases hs : server.state with
  | serverRequest =>
    rw [hs] at h
    obtain rfl := Except.ok.inj h
    exact clientMove_serverRequest tc socket i.stack hs
  | serverTransfer =>
    rw [hs] at h
    exact clientMove_serverTransfer i.stack hs h
  | serverFinished =>
    rw [hs] at h
    obtain rfl := Except.ok.inj h
    exact clientMove_serverFinished tc id socket i.stack hs
  | serverIdle =>
    rw [hs] at h
    obtain rfl := Except.ok.inj h
    exact ⟨.quiet rfl (Socket.Same.refl socket), rfl, rfl⟩
  | _ =>
    rw [hs] at hstate
    cases hstate

end TorrentClient

namespace TorrentServer

open TorrentClient (Passes chunk_le)

variable {ts : TorrentServer} {connection : Connection} {socket socket' : Socket} {i : ServerInput}

/-- The sizes of the blocks stay. -/
def SameSizes (ts ts' : TorrentServer) : Prop :=
  ts'.downBlockSize = ts.downBlockSize ∧ ts'.upBlockSize = ts.upBlockSize

/-- The connection where a request is looked for. -/
def Connection.waiting (connection : Connection) : Connection :=
  if connection.state = .idle then
    { connection with downBytesTransfered := 0, upBytesTransfered := 0, state := .request }
  else connection

/-- The server waits for a request. -/
def Connection.Waits (connection : Connection) : Prop :=
  connection.state = .idle ∨ connection.state = .request

/-- What an activation does on a connection to a client. -/
inductive ServerMove (ts : TorrentServer) (connection : Connection) (socket : Socket)
    (stack : Bytes) (outcome : Outcome) : Prop
  /-- The other side has closed; payload may have been received before. -/
  | closed (hconnection : outcome.connection = none) (received : Bytes)
      (hreceived : received = [] ∨ connection.state = .transfer)
      (hincoming : socket.incoming = received ++ outcome.socket.incoming)
  /-- Nothing passes where no request is looked for. -/
  | quiet (hstate : ¬connection.Waits) (hconnection : outcome.connection = some connection)
      (hsame : socket.Same outcome.socket)
  /-- There is no request. -/
  | waits (hstate : connection.Waits)
      (hconnection : outcome.connection = some connection.waiting)
      (hsame : socket.Same outcome.socket)
  /-- Bytes arrive where a request is expected. -/
  | request (hstate : connection.Waits) (b : Byte) (bs : Bytes)
      (hrecv : (socket.recv bufSize).1 = .ok (b :: bs))
      (hincoming : socket.incoming = (b :: bs) ++ outcome.socket.incoming)
      (hsent : outcome.socket.sent = socket.sent) (connection' : Connection)
      (hconnection : outcome.connection = some connection')
      (hdown : connection'.downBytesTransfered = connection.waiting.downBytesTransfered)
      (hup : connection'.upBytesTransfered = connection.waiting.upBytesTransfered)
      (hnext : connection'.state =
        if TorrentClient.standsIn requestText (b :: bs) stack then .transfer else .request)
  /-- Some payload passes. -/
  | transfer (hstate : connection.state = .transfer) (received sent : Bytes)
      (hpasses : Passes ts.downBlockSize ts.upBlockSize connection.downBytesTransfered
        connection.upBytesTransfered socket outcome.socket received sent)
      (connection' : Connection) (hconnection : outcome.connection = some connection')
      (hdown : connection'.downBytesTransfered = connection.downBytesTransfered + received.length)
      (hup : connection'.upBytesTransfered = connection.upBytesTransfered + sent.length)
      (hnext : connection'.state = .transfer ∨ connection'.state = .finished ∧
        ts.downBlockSize ≤ connection'.downBytesTransfered ∧
        ts.upBlockSize ≤ connection'.upBytesTransfered)
  /-- Some bytes of the message `FINISHED` are sent. -/
  | finished (hstate : connection.state = .finished) (n : ℕ) (hpos : 0 < n)
      (hle : n ≤ TorrentClient.finishedText.length)
      (hconnection : outcome.connection = some { connection with state := .idle })
      (hincoming : outcome.socket.incoming = socket.incoming)
      (hsent : outcome.socket.sent = socket.sent ++ TorrentClient.finishedText.take n)

/-- A failed call keeps the connection. -/
theorem failed_connection (ts : TorrentServer) (connection : Connection) (socket : Socket)
    (excused : Bool) (errcode : ServerCode) :
    (ts.failed connection socket excused errcode).connection = some connection := by
  unfold failed
  split <;> rfl

/-- A failed call keeps the socket. -/
theorem failed_socket (ts : TorrentServer) (connection : Connection) (socket : Socket)
    (excused : Bool) (errcode : ServerCode) :
    (ts.failed connection socket excused errcode).socket = socket := by
  unfold failed
  split <;> rfl

theorem sameSizes_failed (ts : TorrentServer) (connection : Connection) (socket : Socket)
    (excused : Bool) (errcode : ServerCode) :
    ts.SameSizes (ts.failed connection socket excused errcode).ts := by
  unfold failed
  split <;> exact ⟨rfl, rfl⟩

/-- Receiving a request is a move. -/
theorem serverMove_receiveRequest (ts : TorrentServer) (socket : Socket) (stack : Bytes)
    (hstate : connection.Waits) :
    ServerMove ts connection socket stack
        (ts.receiveRequest connection.waiting socket stack) ∧
      ts.SameSizes (ts.receiveRequest connection.waiting socket stack).ts := by
  unfold receiveRequest
  split
  · rename_i hrecv
    refine ⟨.waits hstate (failed_connection ..) ?_, sameSizes_failed ..⟩
    rw [failed_socket]
    exact Socket.same_of_recv_error hrecv
  · rename_i hrecv
    exact ⟨.closed rfl [] (.inl rfl) (Socket.same_of_recv_nil hrecv).1.symm, rfl, rfl⟩
  · rename_i b bs socket' hrecv
    obtain ⟨hincoming, hsent⟩ := Socket.incoming_of_recv hrecv
    have hfst : (socket.recv bufSize).1 = .ok (b :: bs) := congrArg Prod.fst hrecv
    split
    · rename_i hfound
      exact ⟨.request hstate b bs hfst hincoming hsent _ rfl rfl rfl (by rw [if_pos hfound]), rfl,
        rfl⟩
    · rename_i hfound
      exact ⟨.request hstate b bs hfst hincoming hsent _ rfl rfl rfl (by rw [if_neg hfound]), rfl,
        rfl⟩

/-- Receiving from a block. -/
theorem transferDown_cases (ts : TorrentServer) (connection : Connection) (socket : Socket)
    (pollIn : Bool) :
    match ts.transferDown connection socket pollIn with
    | .inl outcome => socket.Same outcome.socket ∧ ts.SameSizes outcome.ts ∧
        (outcome.connection = none ∨ outcome.connection = some connection)
    | .inr (connection', socket') => ∃ received : Bytes,
        socket.incoming = received ++ socket'.incoming ∧ socket'.sent = socket.sent ∧
        (received.length : Int) ≤ max (ts.downBlockSize - connection.downBytesTransfered) 0 ∧
        connection' = { connection with
          downBytesTransfered := connection.downBytesTransfered + received.length } := by
  unfold transferDown
  by_cases hpoll : pollIn = true ∧ connection.downBytesTransfered < ts.downBlockSize
  · rw [if_pos hpoll]
    cases hrecv : socket.recv (TorrentClient.chunk ts.downBlockSize
      connection.downBytesTransfered) with
    | mk result socket' =>
      rcases result with errno | ⟨_ | ⟨b, bs⟩⟩
      · refine ⟨?_, sameSizes_failed .., .inr (failed_connection ..)⟩
        rw [failed_socket]
        exact Socket.same_of_recv_error hrecv
      · exact ⟨Socket.same_of_recv_nil hrecv, ⟨rfl, rfl⟩, .inl rfl⟩
      · obtain ⟨hincoming, hsent⟩ := Socket.incoming_of_recv hrecv
        have hlength := Socket.length_le_of_recv hrecv
        have hchunk := chunk_le ts.downBlockSize connection.downBytesTransfered
        exact ⟨b :: bs, hincoming, hsent, by omega, rfl⟩
  · rw [if_neg hpoll]
    exact ⟨[], rfl, rfl, by simp, by simp⟩

/-- A buffer that is populated keeps its length. -/
theorem length_populateCookies (length : ℕ) (cookie : UInt32) :
    (populateCookies length cookie).length = length := by
  unfold populateCookies
  rw [List.length_take, List.length_append, List.length_replicate]
  omega

/-- Sending from a block. -/
theorem transferUp_cases (ts : TorrentServer) (connection : Connection) (socket : Socket)
    (pollOut : Bool) :
    match ts.transferUp connection socket pollOut with
    | .inl outcome => socket.Same outcome.socket ∧ ts.SameSizes outcome.ts ∧
        (outcome.connection = none ∨ outcome.connection = some connection)
    | .inr (connection', socket') => ∃ sent : Bytes,
        socket'.incoming = socket.incoming ∧ socket'.sent = socket.sent ++ sent ∧
        (sent.length : Int) ≤ max (ts.upBlockSize - connection.upBytesTransfered) 0 ∧
        connection' = { connection with
          upBytesTransfered := connection.upBytesTransfered + sent.length } := by
  unfold transferUp
  by_cases hpoll : pollOut = true ∧ connection.upBytesTransfered < ts.upBlockSize
  · rw [if_pos hpoll]
    set buf := populateCookies (TorrentClient.chunk ts.upBlockSize connection.upBytesTransfered)
      connection.cookie with hbuf
    have hlength : buf.length =
        TorrentClient.chunk ts.upBlockSize connection.upBytesTransfered := by
      rw [hbuf, length_populateCookies]
    cases hsend : socket.send buf with
    | mk result socket' =>
      rcases result with errno | ⟨_ | n⟩
      · refine ⟨?_, sameSizes_failed .., .inr (failed_connection ..)⟩
        rw [failed_socket]
        exact Socket.same_of_send_error hsend
      · exact ⟨Socket.same_of_send_zero hsend, ⟨rfl, rfl⟩, .inl rfl⟩
      · obtain ⟨hle, hincoming, hsent⟩ := Socket.sent_of_send hsend
        have hchunk := chunk_le ts.upBlockSize connection.upBytesTransfered
        have htake : (buf.take (n + 1)).length = n + 1 := by
          rw [List.length_take]
          omega
        refine ⟨buf.take (n + 1), hincoming, hsent, ?_, ?_⟩
        · rw [htake]
          omega
        · rw [htake]
          rfl
  · rw [if_neg hpoll]
    exact ⟨[], rfl, by simp, by simp, by simp⟩

/-- The transfer of a block is a move of the server. -/
theorem serverMove_transfer (ts : TorrentServer) (socket : Socket) (i : ServerInput)
    (hstate : connection.state = .transfer) :
    ServerMove ts connection socket i.stack (ts.transfer connection socket i) ∧
      ts.SameSizes (ts.transfer connection socket i).ts := by
  have hbusy : ¬connection.Waits := by
    rw [Connection.Waits, hstate]
    simp
  unfold transfer
  have hdown := transferDown_cases ts connection socket i.pollIn
  split
  · rename_i outcome hresult
    rw [hresult] at hdown
    obtain ⟨hsame, hsizes, hgone | hstays⟩ := hdown
    · exact ⟨.closed hgone [] (.inl rfl) hsame.1.symm, hsizes⟩
    · exact ⟨.quiet hbusy hstays hsame, hsizes⟩
  · rename_i connection₁ socket₁ hresult
    rw [hresult] at hdown
    obtain ⟨received, hincoming, hsent, hreceived, rfl⟩ := hdown
    have hup := transferUp_cases ts { connection with
      downBytesTransfered := connection.downBytesTransfered + received.length } socket₁ i.pollOut
    split
    · rename_i outcome hresult'
      rw [hresult'] at hup
      obtain ⟨⟨hin, hout⟩, hsizes, hgone | hstays⟩ := hup
      · exact ⟨.closed hgone received (.inr hstate) (by rw [hin]; exact hincoming), hsizes⟩
      · refine ⟨.transfer hstate received [] ⟨?_, ?_, hreceived, by simp⟩ _ hstays rfl (by simp)
          (.inl hstate), hsizes⟩
        · rw [hin]
          exact hincoming
        · rw [hout, hsent, List.append_nil]
    · rename_i connection₂ socket₂ hresult'
      rw [hresult'] at hup
      obtain ⟨sent, hin, hout, hle, rfl⟩ := hup
      refine ⟨.transfer hstate received sent ⟨?_, ?_, hreceived, hle⟩ _ rfl ?_ ?_ ?_, rfl, rfl⟩
      · rw [hin]
        exact hincoming
      · rw [hout, hsent]
      · split <;> rfl
      · split <;> rfl
      · split
        · rename_i hfinished
          exact .inr ⟨rfl, hfinished⟩
        · exact .inl hstate

/-- The end of a block is a move of the server. -/
theorem serverMove_finished (ts : TorrentServer) (socket : Socket) (stack : Bytes)
    (hstate : connection.state = .finished) :
    ServerMove ts connection socket stack (ts.finished connection socket) ∧
      ts.SameSizes (ts.finished connection socket).ts := by
  have hbusy : ¬connection.Waits := by
    rw [Connection.Waits, hstate]
    simp
  unfold finished
  split
  · rename_i hsend
    refine ⟨.quiet hbusy (failed_connection ..) ?_, sameSizes_failed ..⟩
    rw [failed_socket]
    exact Socket.same_of_send_error hsend
  · rename_i hsend
    exact ⟨.closed rfl [] (.inl rfl) (Socket.same_of_send_zero hsend).1.symm, rfl, rfl⟩
  · rename_i n socket' hsend
    obtain ⟨hle, hincoming, hsent⟩ := Socket.sent_of_send hsend
    exact ⟨.finished hstate (n + 1) (Nat.succ_pos n) hle rfl hincoming hsent, rfl, rfl⟩

/-- The states of a connection to a client. -/
def ofBlocks : ServerState → Bool
  | .authRegister | .authIdle => false
  | _ => true

/-- What an activation does on a connection to a client. -/
theorem serverMove_serve (ts : TorrentServer) (socket : Socket) (i : ServerInput)
    (hstate : ofBlocks connection.state = true) :
    ServerMove ts connection socket i.stack (ts.serve connection socket i) ∧
      ts.SameSizes (ts.serve connection socket i).ts := by
  unfold serve
  cases hs : connection.state with
  | idle =>
    have hwaits : connection.Waits := .inl hs
    have hmove := serverMove_receiveRequest ts socket i.stack hwaits
    rw [Connection.waiting, if_pos hs] at hmove
    exact hmove
  | request =>
    have hwaits : connection.Waits := .inr hs
    have hmove := serverMove_receiveRequest ts socket i.stack hwaits
    rw [Connection.waiting, if_neg (by rw [hs]; simp)] at hmove
    exact hmove
  | transfer => exact serverMove_transfer ts socket i hs
  | finished => exact serverMove_finished ts socket i.stack hs
  | authRegister | authIdle =>
    rw [hs] at hstate
    cases hstate

end TorrentServer

end ShadowExtras.Torrent
