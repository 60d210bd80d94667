import ShadowExtras.Echo.EchoClient
import ShadowExtras.Foundation.Progress

/-!
# The echo client and the echo server on one connection

`_echotcp_newPair` connects a client and a server by two sockets. The bytes that one end has sent
and the other one has not received are a part of the state; a step is the part of `echotcp_ready` of
one end, and the surroundings choose how much every call of `send` and `recv` passes.

The message is at all times what came back, what is on its way back, what the server holds and what
is on its way to it, in this order (`Linked`). So `echoes_of_run`: a client that ends finds its
message. And `finishes_of_run`: the client ends after enough activations in which sockets pass
bytes.
-/

namespace ShadowExtras.Echo

open Foundation

/-! ## The system -/

/-- What `epoll` reports of the socket of the server, and what the environment answers. -/
structure ServerReady where
  pollIn : Bool
  pollOut : Bool
  recv : Answer
  send : Answer
  deriving DecidableEq, Repr

/-- A connection with both of its ends. -/
structure EchoPair where
  client : EchoClient
  server : EchoServer
  /-- What the server has not received yet. -/
  toServer : Bytes
  /-- What the client has not received yet. -/
  toClient : Bytes

/-- An activation of one of the ends. -/
inductive PairEvent
  | client (e : ClientReady)
  | server (e : ServerReady)

namespace EchoPair

/-- `_echotcp_newPair` -/
def newPair (serverSocketd : ℕ) : EchoPair where
  client := .new
  server := .newPair serverSocketd
  toServer := []
  toClient := []

/-- The socket of the server is ready. -/
def serverReady (serverSocketd : ℕ) (s : EchoPair) (e : ServerReady) : Ready where
  socketd := serverSocketd
  pollIn := e.pollIn
  pollOut := e.pollOut
  accepted := none
  incoming := s.toServer
  recv := e.recv
  send := e.send

/-- The part of `echotcp_ready` of the client; what it sends is on its way. -/
def clientStep (s : EchoPair) (e : ClientReady) : Except EchoFault EchoPair :=
  match s.client.ready e s.toClient with
  | .error fault => .error fault
  | .ok (client, sent, rest) =>
    .ok { s with client := client, toServer := s.toServer ++ sent, toClient := rest }

/-- The part of `echotcp_ready` of the server; what it sends is on its way. -/
def serverStep (serverSocketd : ℕ) (s : EchoPair) (e : ServerReady) : Except EchoFault EchoPair :=
  match s.server.ready [s.serverReady serverSocketd e] with
  | .error fault => nomatch fault
  | .ok server =>
    .ok { s with
      server := server
      toServer := s.toServer.drop (server.received.length - s.server.received.length)
      toClient := s.toClient ++ (server.sent.drop s.server.sent.length).map Prod.snd }

/-- An activation of one of the ends. -/
def step (serverSocketd : ℕ) (s : EchoPair) : PairEvent → Except EchoFault EchoPair
  | .client e => s.clientStep e
  | .server e => s.serverStep serverSocketd e

/-- `echotcp_ready`, of both ends. -/
def ready (serverSocketd : ℕ) (s : EchoPair) (e : ClientReady × ServerReady) :
    Except EchoFault EchoPair :=
  match s.clientStep e.1 with
  | .error fault => .error fault
  | .ok s => s.serverStep serverSocketd e.2

/-- What is left to the surroundings: the client is woken for input when there is some or when the
server has closed its socket, and a socket says that it is closed when the other end has closed
it. -/
def Proper (serverSocketd : ℕ) (s : EchoPair) : PairEvent → Prop
  | .client e => (e.pollIn = true → s.toClient ≠ [] ∨ serverSocketd ∉ s.server.opened) ∧
      (e.send = .closed → serverSocketd ∉ s.server.opened)
  | .server e => (e.recv = .closed ∨ e.send = .closed) → s.client.opened = false

instance (serverSocketd : ℕ) (s : EchoPair) : ∀ e, Decidable (s.Proper serverSocketd e)
  | .client e => inferInstanceAs (Decidable ((e.pollIn = true → s.toClient ≠ [] ∨
      serverSocketd ∉ s.server.opened) ∧ (e.send = .closed → serverSocketd ∉ s.server.opened)))
  | .server e =>
      inferInstanceAs (Decidable ((e.recv = .closed ∨ e.send = .closed) → s.client.opened = false))

/-- What the two ends promise at every moment. -/
structure Echoes (s : EchoPair) : Prop where
  /-- No byte is lost, added or moved. -/
  kept : s.client.sendBuffer.take s.client.amountSent.toNat =
    s.client.recvBuffer ++ s.toClient ++ s.server.unsent ++ s.toServer
  /-- The client ends with its whole message. -/
  ends : s.client.isDone = true → s.client.verdict = some .consistent ∧ 0 < s.client.amountSent ∧
    s.client.recvBuffer = s.client.sendBuffer.take s.client.amountSent.toNat
  verdict : s.client.verdict ≠ some .inconsistent

/-- The sockets pass bytes: `epoll` reports what is to be received, and that a socket can be written
to. -/
structure Calm (s : EchoPair) (e : ClientReady × ServerReady) : Prop where
  clientIn : e.1.pollIn = true ↔ s.toClient ≠ []
  clientOut : e.1.pollOut = true
  clientRecv : ∃ k answers, e.1.recvs = .ready k :: answers
  clientSend : ∃ k, e.1.send = .ready k
  serverIn : e.2.pollIn = true
  serverOut : e.2.pollOut = true
  serverRecv : ∃ k, e.2.recv = .ready k
  serverSend : ∃ k, e.2.send = .ready k

end EchoPair

/-! ## The server on its one socket -/

namespace EchoServer

variable {es es' : EchoServer} {r : Ready}

/-- The server serves its one connection, and watches it for output when there is something to be
sent. -/
structure Serves (es : EchoServer) (socketd : ℕ) : Prop where
  listend : es.listend ≠ socketd
  opened : socketd ∈ es.opened
  watches : ∃ pollOut, es.watches = [⟨socketd, pollOut⟩] ∧ (pollOut = true ↔ es.unsent ≠ [])

/-- The bytes are in order, and `write_offset` counts some that were sent. -/
structure Holds (es : EchoServer) : Prop where
  order : es.InOrder
  offset : es.writeOffset ≤ es.sent.length

/-- An activation for one socket. -/
def activated (es : EchoServer) (r : Ready) (readable writable : Bool) : EchoServer :=
  let es := if readable then es.serverReadable r else es
  (if writable then es.serverWritable r else es).leave

/-- One ready descriptor is activated by its watch. -/
theorem ready_single (es : EchoServer) (r : Ready) :
    es.ready [r] = .ok (match es.watches.find? fun watch => watch.socketd = r.socketd with
      | none => es.activated r false false
      | some watch => es.activated r r.pollIn (r.pollOut && watch.pollOut)) := by
  unfold ready calls epollWait
  cases hwatch : es.watches.find? fun watch => watch.socketd = r.socketd with
  | none =>
    simp [hwatch, maxEvents, runSteps, step, activated]
  | some watch =>
    cases hin : r.pollIn <;> cases hout : (r.pollOut && watch.pollOut) <;>
      simp [hwatch, maxEvents, runSteps, step, activated, hin, hout] <;> rfl

/-- What is read is the beginning of what has arrived. -/
theorem received_serverReadable (es : EchoServer) (r : Ready) :
    (es.serverReadable r).sent = es.sent ∧ ∃ got, got <+: r.incoming ∧
      (es.serverReadable r).received = es.received ++ got.map fun b => (r.socketd, b) := by
  have hnone : ∃ got, got <+: r.incoming ∧ es.received = es.received ++ got.map fun b =>
      (r.socketd, b) :=
    ⟨[], List.nil_prefix, by simp⟩
  unfold serverReadable
  split
  · split
    · exact ⟨rfl, hnone⟩
    · split <;> exact ⟨rfl, hnone⟩
  · simp only
    split
    · split
      · exact ⟨rfl, hnone⟩
      · exact ⟨rfl, hnone⟩
      · rename_i hrecv
        exact ⟨rfl, _, Answer.prefix_of_recv_eq_ok hrecv, rfl⟩
    · exact ⟨rfl, hnone⟩

/-- A writable socket gets bytes of the buffer. -/
theorem sent_serverWritable (es : EchoServer) (r : Ready) :
    (es.serverWritable r).received = es.received ∧ ∃ new : Bytes,
      (es.serverWritable r).sent = es.sent ++ new.map fun b => (r.socketd, b) := by
  cases moves_serverWritable es r with
  | quiet _ hsame => exact ⟨hsame.received, [], by rw [hsame.sent]; simp⟩
  | send _ n hn hle hreceived hsent _ _ => exact ⟨hreceived, _, hsent⟩

theorem SameBytes.leave (es : EchoServer) :
    es.leave.received = es.received ∧ es.leave.sent = es.sent := by
  unfold EchoServer.leave
  split <;> exact ⟨rfl, rfl⟩

/-- What an activation receives is the beginning of what has arrived, and what was sent stays
sent. -/
theorem grows_activated (es : EchoServer) (r : Ready) (readable writable : Bool) :
    ∃ got new : Bytes, got <+: r.incoming ∧
      (es.activated r readable writable).received =
        es.received ++ got.map (fun b => (r.socketd, b)) ∧
      (es.activated r readable writable).sent = es.sent ++ new.map fun b => (r.socketd, b) := by
  obtain ⟨es₁, hes₁⟩ : ∃ es₁, es₁ = if readable then es.serverReadable r else es := ⟨_, rfl⟩
  obtain ⟨es₂, hes₂⟩ : ∃ es₂, es₂ = if writable then es₁.serverWritable r else es₁ := ⟨_, rfl⟩
  have hread : es₁.sent = es.sent ∧ ∃ got, got <+: r.incoming ∧
      es₁.received = es.received ++ got.map fun b => (r.socketd, b) := by
    rw [hes₁]
    split_ifs
    · exact received_serverReadable es r
    · exact ⟨rfl, [], List.nil_prefix, by simp⟩
  have hwrite : es₂.received = es₁.received ∧ ∃ new : Bytes,
      es₂.sent = es₁.sent ++ new.map fun b => (r.socketd, b) := by
    rw [hes₂]
    split_ifs
    · exact sent_serverWritable es₁ r
    · exact ⟨rfl, [], by simp⟩
  obtain ⟨hsent, got, hgot, hreceived⟩ := hread
  obtain ⟨hsame, new, hnew⟩ := hwrite
  have hleave := SameBytes.leave es₂
  have hactivated : es.activated r readable writable = es₂.leave := by
    rw [hes₂, hes₁]
    rfl
  rw [hactivated, hleave.1, hleave.2]
  exact ⟨got, new, hgot, hsame.trans hreceived, by rw [hnew, hsent]⟩

/-- `write_offset` goes up with what is sent. -/
theorem Holds.step {call : Call} (h : es.Holds) (hstep : es.step call = .ok es') : es'.Holds := by
  refine ⟨inOrder_step h.order hstep, ?_⟩
  have hoffset := h.offset
  cases moves_step hstep with
  | quiet call hsame =>
    rw [hsame.writeOffset, hsame.sent]
    exact hoffset
  | receive ready bytes hreceived hsent hbuffer hwrite =>
    rw [hwrite, hsent]
    exact hoffset
  | send ready n hn hle hreceived hsent hbuffer hwrite =>
    rw [hwrite, hsent, List.length_append, List.length_map, List.length_take]
    omega
  | reset hdrained hreceived hsent hbuffer hwrite =>
    rw [hwrite]
    exact Nat.zero_le _

theorem Holds.serverReadable (h : es.Holds) (r : Ready) : (es.serverReadable r).Holds :=
  h.step (show es.step (.readable r) = .ok (es.serverReadable r) from rfl)

theorem Holds.serverWritable (h : es.Holds) (r : Ready) : (es.serverWritable r).Holds :=
  h.step (show es.step (.writable r) = .ok (es.serverWritable r) from rfl)

/-- An activation keeps the buffer in its bounds. -/
theorem Holds.activated (h : es.Holds) (r : Ready) (readable writable : Bool) :
    (es.activated r readable writable).Holds := by
  have hleave : ∀ es : EchoServer, es.Holds → es.leave.Holds := fun es h =>
    h.step (show es.step .leave = .ok es.leave from rfl)
  unfold EchoServer.activated
  refine hleave _ ?_
  split_ifs
  · exact (h.serverReadable r).serverWritable r
  · exact h.serverWritable r
  · exact h.serverReadable r
  · exact h

/-- What was received is what was sent and what is in the buffer. -/
theorem Holds.length (h : es.Holds) : es.received.length = es.sent.length + es.unsent.length := by
  have hlength := congrArg List.length h.order.bytes
  simpa using hlength

/-- A server that has room takes more, and then has something to be sent. -/
theorem Serves.serverReadable (h : es.Serves r.socketd) (hholds : es.Holds)
    (hclosed : r.recv ≠ .closed) :
    (es.serverReadable r).Serves r.socketd ∧
      (∀ k, r.recv = .ready k → r.incoming ≠ [] → es.received.length < bufferSize →
        es.received.length < (es.serverReadable r).received.length) := by
  have hoffset := hholds.order.offset
  have hlength := hholds.length
  have hwritten := hholds.offset
  have hroom : es.received.length < bufferSize → bufferSize - es.readOffset > 0 := by
    intro hless
    unfold unsent at hlength
    unfold readOffset at hoffset ⊢
    rw [List.length_drop] at hlength
    omega
  unfold EchoServer.serverReadable
  rw [if_neg (Ne.symm h.listend)]
  dsimp only
  by_cases hreads : bufferSize - es.readOffset > 0 ∧ r.socketd ∈ es.opened
  · rw [if_pos hreads]
    cases hanswer : r.recv with
    | closed => exact absurd hanswer hclosed
    | failed errno => exact ⟨h, fun k hk => by cases hk⟩
    | ready k =>
      by_cases hincoming : r.incoming = []
      · rw [hincoming]
        have hblocks : (Answer.ready k).recv ([] : Bytes) (bufferSize - es.readOffset) =
            .error .wouldBlock := by
          simp only [Answer.recv]
          rw [if_neg (by omega)]
          rfl
        rw [hblocks]
        exact ⟨h, fun k hk hne => absurd rfl hne⟩
      · obtain ⟨b, bs, hbytes⟩ := List.exists_cons_of_ne_nil hincoming
        obtain ⟨m, hm⟩ : ∃ m, min (k + 1) (bufferSize - es.readOffset) = m + 1 :=
          ⟨min (k + 1) (bufferSize - es.readOffset) - 1, by omega⟩
        rw [Answer.recv_ready k (by omega) hincoming, hm, hbytes, List.take_succ_cons]
        dsimp only
        refine ⟨⟨h.listend, h.opened, ?_⟩, fun _ _ _ _ => ?_⟩
        · have hunsent : ((es.echoBuffer ++ b :: bs.take m).drop es.writeOffset) ≠ [] := by
            unfold readOffset at hoffset
            rw [List.drop_append_of_le_length hoffset]
            simp
          obtain ⟨pollOut, hwatches, -⟩ := h.watches
          refine ⟨true, ?_, fun _ => hunsent, fun _ => rfl⟩
          simp [modify, hwatches]
        · simp [modify]
  · rw [if_neg hreads]
    exact ⟨h, fun _ _ _ hless => absurd ⟨hroom hless, h.opened⟩ hreads⟩

/-- A server sends from the front of its buffer, and stops watching when nothing is left. -/
theorem Serves.serverWritable (h : es.Serves r.socketd) (hclosed : r.send ≠ .closed) :
    (es.serverWritable r).Serves r.socketd ∧
      (∀ k, r.send = .ready k → es.unsent ≠ [] → es.sent.length <
        (es.serverWritable r).sent.length) := by
  have hstop : ∀ (es : EchoServer) (pollOut : Bool), es.listend ≠ r.socketd →
      r.socketd ∈ es.opened →
      es.watches = [⟨r.socketd, pollOut⟩] → (es.unsent ≠ [] → pollOut = true) →
      (es.stopWriting r.socketd).Serves r.socketd := by
    intro es pollOut hlistend hopened hwatches hpending
    unfold stopWriting
    split_ifs with hempty
    · have hnil : (es.modify r.socketd false).unsent = [] := List.length_eq_zero_iff.mp hempty
      refine ⟨hlistend, hopened, false, ?_, fun h => absurd h (by simp), fun h => absurd hnil h⟩
      simp [modify, hwatches]
    · have hne : es.unsent ≠ [] := fun hnil => hempty (by rw [hnil]; rfl)
      exact ⟨hlistend, hopened, pollOut, hwatches, fun _ => hne, hpending⟩
  obtain ⟨pollOut, hwatches, hpollOut⟩ := h.watches
  unfold EchoServer.serverWritable
  split_ifs with hpos
  · have hne : es.unsent ≠ [] := List.length_pos_iff.mp hpos
    unfold sendResult
    rw [if_pos h.opened]
    cases hanswer : r.send with
    | closed => exact absurd hanswer hclosed
    | failed errno => exact ⟨h, fun k hk => by cases hk⟩
    | ready k =>
      obtain ⟨m, hm⟩ : ∃ m, min (k + 1) es.unsent.length = m + 1 :=
        ⟨min (k + 1) es.unsent.length - 1, by omega⟩
      have hsend : (Answer.ready k).send es.unsent.length = .ok (m + 1) := by
        simp only [Answer.send, hm]
      rw [hsend]
      dsimp only
      refine ⟨hstop _ pollOut h.listend h.opened hwatches fun _ => hpollOut.mpr hne,
        fun _ _ _ => ?_⟩
      · rw [(sameBytes_stopWriting _ r.socketd).sent]
        dsimp only
        rw [List.length_append, List.length_map, List.length_take]
        omega
  · have hnil : es.unsent = [] := by
      rw [← List.length_eq_zero_iff]
      omega
    exact ⟨hstop es pollOut h.listend h.opened hwatches hpollOut.mpr,
      fun _ _ hne => absurd hnil hne⟩

/-- Leaving the loop keeps whom the server serves. -/
theorem Serves.leave {socketd : ℕ} (h : es.Serves socketd) : es.leave.Serves socketd := by
  unfold EchoServer.leave
  split_ifs with hdrained
  · have hnil : es.unsent = [] := List.drop_of_length_le hdrained.le
    obtain ⟨pollOut, hwatches, hpollOut⟩ := h.watches
    rw [hnil] at hpollOut
    exact ⟨h.listend, h.opened, pollOut, hwatches, hpollOut⟩
  · exact h

/-- An activation of a server: it goes on serving, and passes bytes when there are some. -/
theorem Serves.activated (h : es.Serves r.socketd) (hholds : es.Holds) (hrecv : r.recv ≠ .closed)
    (hsend : r.send ≠ .closed) (readable writable : Bool) :
    (es.activated r readable writable).Serves r.socketd ∧
      (∀ k, r.recv = .ready k → readable = true → r.incoming ≠ [] →
        es.received.length < bufferSize →
        es.received.length < (es.activated r readable writable).received.length) ∧
      (∀ k, r.send = .ready k → writable = true → es.unsent ≠ [] →
        es.sent.length < (es.activated r readable writable).sent.length) := by
  obtain ⟨es₁, hes₁⟩ : ∃ es₁, es₁ = if readable then es.serverReadable r else es := ⟨_, rfl⟩
  obtain ⟨es₂, hes₂⟩ : ∃ es₂, es₂ = if writable then es₁.serverWritable r else es₁ := ⟨_, rfl⟩
  have hactivated : es.activated r readable writable = es₂.leave := by
    rw [hes₂, hes₁]
    rfl
  have hread : es₁.Serves r.socketd ∧ es₁.Holds ∧ es₁.sent = es.sent ∧
      es.received.length ≤ es₁.received.length ∧
      (∀ k, r.recv = .ready k → readable = true → r.incoming ≠ [] →
        es.received.length < bufferSize →
        es.received.length < es₁.received.length) := by
    rw [hes₁]
    split_ifs with hreadable
    · obtain ⟨hserves, hmore⟩ := h.serverReadable hholds hrecv
      obtain ⟨hsame, got, -, hreceived⟩ := received_serverReadable es r
      refine ⟨hserves, hholds.serverReadable r, hsame, ?_, fun k hk _ => hmore k hk⟩
      rw [hreceived, List.length_append]
      omega
    · exact ⟨h, hholds, rfl, le_rfl, fun _ _ hyes => absurd hyes hreadable⟩
  obtain ⟨hserves₁, hholds₁, hsent₁, hreceived₁, hmore₁⟩ := hread
  have hwrite : es₂.Serves r.socketd ∧ es₂.received = es₁.received ∧
      (∀ k, r.send = .ready k → writable = true → es₁.unsent ≠ [] →
        es₁.sent.length < es₂.sent.length) := by
    rw [hes₂]
    split_ifs with hwritable
    · obtain ⟨hserves, hmore⟩ := hserves₁.serverWritable hsend
      exact ⟨hserves, (sent_serverWritable es₁ r).1, fun k hk _ => hmore k hk⟩
    · exact ⟨hserves₁, rfl, fun _ _ hyes => absurd hyes hwritable⟩
  obtain ⟨hserves₂, hreceived₂, hmore₂⟩ := hwrite
  have hleave := SameBytes.leave es₂
  rw [hactivated, hleave.1, hleave.2, hreceived₂]
  refine ⟨hserves₂.leave, hmore₁, fun k hk hyes hne => ?_⟩
  rw [← hsent₁]
  refine hmore₂ k hk hyes ?_
  -- reading leaves what was unsent
  have hlength := hholds.length
  have hlength₁ := hholds₁.length
  have hpos := List.length_pos_iff.mpr hne
  rw [hsent₁] at hlength₁
  exact List.length_pos_iff.mp (by omega)

end EchoServer

/-! ## Both ends -/

namespace EchoPair

open EchoClient EchoServer

variable {serverSocketd : ℕ} {s s' : EchoPair}

/-- What is still to be passed: a byte passes three times. -/
def load (s : EchoPair) :
    ℕ := 3 * s.toServer.length + 2 * s.server.unsent.length + s.toClient.length

/-- The two ends fit together. -/
structure Linked (serverSocketd : ℕ) (s : EchoPair) : Prop where
  stage : s.client.Stage
  holds : s.server.Holds
  forth : s.client.message = s.server.received.map Prod.snd ++ s.toServer
  back : s.server.sent.map Prod.snd = s.client.recvBuffer ++ s.toClient
  serves : s.client.isDone = false → s.server.Serves serverSocketd

/-- A new pair is linked. -/
theorem linked_newPair (hsocketd : serverSocketd ≠ 0) :
    (newPair serverSocketd).Linked serverSocketd := by
  refine ⟨stage_new, ⟨(faithful_fresh 0 serverSocketd).order, le_rfl⟩, rfl, rfl,
    fun _ => ⟨?_, ?_, false, rfl, ?_⟩⟩
  · exact fun h => hsocketd h.symm
  · exact List.mem_singleton_self _
  · exact ⟨fun h => absurd h (by simp), fun h => absurd rfl h⟩

/-- The message is what came back, what is on its way back, what the server holds and what is on its
way to it. -/
theorem Linked.message (h : s.Linked serverSocketd) :
    s.client.message = s.client.recvBuffer ++ s.toClient ++ s.server.unsent ++ s.toServer := by
  rw [h.forth, h.holds.order.bytes, h.back]

/-- What came back is the front of the message. -/
theorem Linked.front (h : s.Linked serverSocketd) :
    s.client.recvBuffer ++ s.toClient <+: s.client.message := by
  rw [h.message, List.append_assoc (s.client.recvBuffer ++ s.toClient)]
  exact List.prefix_append _ _

/-- An activation of the client. -/
theorem Linked.clientStep (h : s.Linked serverSocketd) {e : ClientReady}
    (hproper : s.Proper serverSocketd (.client e)) :
    ∃ client sent rest, s.client.ready e s.toClient = .ok (client, sent, rest) ∧
      s.client.Passes client s.toClient sent rest ∧
      ({ s with client := client, toServer := s.toServer ++ sent, toClient := rest } :
        EchoPair).Linked
        serverSocketd := by
  obtain ⟨hin, hsend⟩ := hproper
  obtain ⟨client, sent, rest, hready, hpasses⟩ := h.stage.ready h.front
    (fun hdone hpollIn => (hin hpollIn).resolve_right fun hno => hno (h.serves hdone).opened)
    (fun hdone hclosed => hsend hclosed (h.serves hdone).opened)
  obtain ⟨got, hgot, hreceived⟩ := hpasses.received
  refine ⟨client, sent, rest, hready, hpasses, hpasses.stage, h.holds, ?_, ?_,
    fun hdone => h.serves ?_⟩
  · show client.message = s.server.received.map Prod.snd ++ (s.toServer ++ sent)
    rw [hpasses.message, h.forth, List.append_assoc]
  · show s.server.sent.map Prod.snd = client.recvBuffer ++ rest
    rw [h.back, hreceived, hgot, List.append_assoc]
  · by_contra hyes
    have hdone' := hpasses.stays (by simpa using hyes)
    rw [hdone] at hdone'
    cases hdone'

/-- An activation of the server: what it takes and what it gives. -/
theorem Linked.serverStep (h : s.Linked serverSocketd) {e : ServerReady}
    (hproper : s.Proper serverSocketd (.server e)) :
    ∃ s' got new, s.serverStep serverSocketd e = .ok s' ∧ s'.Linked serverSocketd ∧
    s'.client = s.client ∧
      s'.load + got + new = s.load ∧
      (s.client.isDone = false → ∀ k, e.recv = .ready k → e.pollIn = true → s.toServer ≠ [] →
        s.server.received.length < bufferSize → 0 < got) ∧
      (s.client.isDone = false → ∀ k, e.send = .ready k → e.pollOut = true → s.server.unsent ≠ [] →
        0 < new) := by
  obtain ⟨r, hr⟩ : ∃ r, r = s.serverReady serverSocketd e := ⟨_, rfl⟩
  have hsocketd : r.socketd = serverSocketd := by rw [hr]; rfl
  have hincoming : r.incoming = s.toServer := by rw [hr]; rfl
  -- which of its calls the server makes
  obtain ⟨readable, writable, hactivated, hflags⟩ : ∃ readable writable,
      s.server.ready [r] = .ok (s.server.activated r readable writable) ∧
      (s.server.Serves serverSocketd → readable = e.pollIn ∧
        (writable = true ↔ e.pollOut = true ∧ s.server.unsent ≠ [])) := by
    have hready := ready_single s.server r
    cases hwatch : s.server.watches.find? fun watch => watch.socketd = r.socketd with
    | none =>
      rw [hwatch] at hready
      refine ⟨false, false, hready, fun hserves => ?_⟩
      obtain ⟨pollOut, hwatches, -⟩ := hserves.watches
      rw [hwatches, hsocketd] at hwatch
      simp at hwatch
    | some watch =>
      rw [hwatch] at hready
      refine ⟨_, _, hready, fun hserves => ?_⟩
      obtain ⟨pollOut, hwatches, hpollOut⟩ := hserves.watches
      rw [hwatches, hsocketd] at hwatch
      simp only [List.find?_cons, decide_true, Option.some.injEq] at hwatch
      rw [← hwatch, hr, Bool.and_eq_true, ← hpollOut]
      exact ⟨rfl, Iff.rfl⟩
  obtain ⟨got, new, hgot, hreceived, hsent⟩ := grows_activated s.server r readable writable
  obtain ⟨rest, hrest⟩ := hgot
  rw [hincoming] at hrest
  have hholds := h.holds.activated r readable writable
  have htaken :
      (s.server.activated r readable writable).received.length - s.server.received.length =
      got.length := by
    rw [hreceived, List.length_append, List.length_map]
    omega
  have hgiven :
      ((s.server.activated r readable writable).sent.drop s.server.sent.length).map Prod.snd =
      new := by
    rw [hsent, List.drop_left, List.map_map]
    exact List.map_id new
  have hdrop : s.toServer.drop got.length = rest := by
    rw [← hrest, List.drop_left]
  have hserves : s.client.isDone = false → _ := fun hdone =>
    have hopened : s.client.opened = true := h.stage.opened hdone
    have hrecv : r.recv ≠ .closed := by
      intro hclosed
      rw [hr] at hclosed
      have := hproper (.inl hclosed)
      simp [hopened] at this
    have hsend : r.send ≠ .closed := by
      intro hclosed
      rw [hr] at hclosed
      have := hproper (.inr hclosed)
      simp [hopened] at this
    Serves.activated (hsocketd ▸ h.serves hdone) h.holds hrecv hsend readable writable
  unfold EchoPair.serverStep
  rw [← hr, hactivated]
  dsimp only
  rw [htaken, hgiven, hdrop]
  have hreceivedLength := congrArg List.length hreceived
  have hsentLength := congrArg List.length hsent
  rw [List.length_append, List.length_map] at hreceivedLength hsentLength
  refine ⟨_, got.length, new.length, rfl,
    ⟨h.stage, hholds, ?_, ?_, fun hdone => hsocketd ▸ (hserves hdone).1⟩, rfl, ?_, ?_, ?_⟩
  · show s.client.message = (s.server.activated r readable writable).received.map Prod.snd ++ rest
    rw [h.forth, hreceived, ← hrest, List.map_append, List.map_map, List.append_assoc]
    congr 1
    exact congrArg (· ++ rest) (List.map_id got).symm
  · show (s.server.activated r readable writable).sent.map Prod.snd =
      s.client.recvBuffer ++ (s.toClient ++ new)
    rw [hsent, List.map_append, h.back, List.map_map, List.append_assoc]
    congr 2
    exact List.map_id new
  · have hheld := h.holds.length
    have hheld' := hholds.length
    have htoServer := congrArg List.length hrest
    rw [List.length_append] at htoServer
    unfold load
    dsimp only
    rw [List.length_append]
    omega
  · intro hdone k hk hpollIn hne hless
    have hmore := (hserves hdone).2.1 k (by rw [hr]; exact hk)
      (by rw [(hflags (h.serves hdone)).1, hpollIn]) (by rw [hincoming]; exact hne) hless
    omega
  · intro hdone k hk hpollOut hne
    have hmore := (hserves hdone).2.2 k (by rw [hr]; exact hk)
      ((hflags (h.serves hdone)).2.mpr ⟨hpollOut, hne⟩) hne
    omega

/-- An activation of an end succeeds and keeps the ends together. -/
theorem Linked.step (h : s.Linked serverSocketd) {e : PairEvent}
    (hproper : s.Proper serverSocketd e) :
    ∃ s', EchoPair.step serverSocketd s e = .ok s' ∧ s'.Linked serverSocketd := by
  cases e with
  | client e =>
    obtain ⟨client, sent, rest, hready, -, hlinked⟩ := h.clientStep hproper
    refine ⟨_, ?_, hlinked⟩
    show EchoPair.clientStep s e = _
    unfold EchoPair.clientStep
    rw [hready]
  | server e =>
    obtain ⟨s', -, -, hstep, hlinked, -⟩ := h.serverStep hproper
    exact ⟨s', hstep, hlinked⟩

/-- Ends that fit together echo. -/
theorem Linked.echoes (h : s.Linked serverSocketd) : s.Echoes := by
  refine ⟨h.message, fun hdone => ?_, ?_⟩
  · cases h.stage with
    | fresh hrunning | refused hrunning | waits n hrunning =>
      rw [hrunning.isDone] at hdone
      cases hdone
    | done hfinished => exact ⟨hfinished.verdict, hfinished.pos, hfinished.same⟩
  · cases h.stage with
    | fresh hrunning | refused hrunning | waits n hrunning =>
      rw [hrunning.verdict]
      simp
    | done hfinished =>
      rw [hfinished.verdict]
      simp

/-- Whatever the order of the activations, and whatever is cut, delayed or refused: no activation
fails, and at every moment no byte was lost, and the client that ended has found its message. -/
theorem echoes_of_run (hsocketd : serverSocketd ≠ 0) {es : List PairEvent}
    (hproper : StepsMeet (step serverSocketd) (Proper serverSocketd) (newPair serverSocketd) es) :
    ∃ s, runSteps (step serverSocketd) (newPair serverSocketd) es = .ok s ∧ s.Echoes := by
  obtain ⟨s, hrun, hlinked⟩ := runSteps_ok_of_stepsMeet (fun s => s.Linked serverSocketd)
    (fun _ _ h hproper => h.step hproper) (linked_newPair hsocketd) hproper
  exact ⟨s, hrun, hlinked.echoes⟩

/-- The client is ready. -/
def clientOn (pollIn : Bool) (answer : Answer) : PairEvent :=
  .client ⟨pollIn, true, [answer], answer, fun i => i⟩

/-- The server is ready. -/
def serverOn (answer : Answer) : PairEvent := .server ⟨true, true, answer, answer⟩

/-- Two bytes are sent, and come back one by one. -/
def oneByOne : List PairEvent :=
  [clientOn false (.ready 1), serverOn (.ready 0), serverOn (.ready 0), clientOn true (.ready 9),
    serverOn (.ready 0), clientOn true (.failed .wouldBlock), clientOn true (.ready 9)]

theorem echoes_of_run_oneByOne :
    ∃ s, runSteps (step 4) (newPair 4) oneByOne = .ok s ∧ s.Echoes :=
  echoes_of_run (by decide) (by decide +kernel)

/-! ## The end of the echo -/

/-- The activations that are left. -/
def remaining (s : EchoPair) : ℕ := if s.client.sentMsg then s.load else 3 * bufferSize + 1

/-- The message fits into the buffer. -/
theorem Linked.message_length (h : s.Linked serverSocketd) :
    s.client.message.length ≤ bufferSize := by
  unfold EchoClient.message
  rw [List.length_take]
  cases h.stage with
  | fresh hrunning | refused hrunning | waits n hrunning =>
      exact (Nat.min_le_right _ _).trans hrunning.length.le
  | done hfinished => exact (Nat.min_le_right _ _).trans hfinished.length.le

/-- The server makes no more to be passed, and less when there is something for it. -/
theorem Linked.serverStep_calm (h : s.Linked serverSocketd) (hdone : s.client.isDone = false)
    {e : ClientReady × ServerReady} (hcalm : s'.Calm e) :
    ∃ t, s.serverStep serverSocketd e.2 = .ok t ∧ t.Linked serverSocketd ∧ t.client = s.client ∧
      t.load ≤ s.load ∧ (s.toServer ≠ [] ∨ s.server.unsent ≠ [] → t.load < s.load) := by
  obtain ⟨k, hrecv⟩ := hcalm.serverRecv
  obtain ⟨m, hsend⟩ := hcalm.serverSend
  have hproper : s.Proper serverSocketd (.server e.2) := by
    rintro (hclosed | hclosed)
    · rw [hrecv] at hclosed
      cases hclosed
    · rw [hsend] at hclosed
      cases hclosed
  obtain ⟨t, got, new, hstep, hlinked, hclient, hload, htakes, hgives⟩ := h.serverStep hproper
  refine ⟨t, hstep, hlinked, hclient, by omega, ?_⟩
  rintro (hne | hne)
  · have hmessage := congrArg List.length h.forth
    rw [List.length_append, List.length_map] at hmessage
    have hpos := List.length_pos_iff.mpr hne
    have hle := h.message_length
    have hgot := htakes hdone k hrecv hcalm.serverIn hne (by omega)
    omega
  · have hnew := hgives hdone m hsend hcalm.serverOut hne
    omega

/-- A client that waits has something to wait for. -/
theorem Linked.pending (h : s.Linked serverSocketd) (hdone : s.client.isDone = false)
    (hsentMsg : s.client.sentMsg = true) (hrefused : s.client.amountSent ≠ -1) :
    s.toClient ≠ [] ∨ s.toServer ≠ [] ∨ s.server.unsent ≠ [] := by
  by_contra hnone
  push Not at hnone
  obtain ⟨htoClient, htoServer, hunsent⟩ := hnone
  have hmessage := h.message
  rw [htoClient, htoServer, hunsent, List.append_nil, List.append_nil, List.append_nil] at hmessage
  cases h.stage with
  | fresh hrunning hno =>
    rw [hsentMsg] at hno
    cases hno
  | refused hrunning _ hamount => exact hrefused hamount
  | waits n hrunning _ hamount hle hless =>
    have hlength := congrArg List.length hmessage
    unfold EchoClient.message at hlength
    rw [List.length_take, hrunning.length, hamount, Int.toNat_natCast] at hlength
    omega
  | done hfinished =>
    rw [hfinished.isDone] at hdone
    cases hdone

/-- The bytes that are to be passed are some of the message. -/
theorem Linked.load_le (h : s.Linked serverSocketd) : s.load ≤ 3 * bufferSize := by
  have hmessage := congrArg List.length h.message
  have hle := h.message_length
  simp only [List.length_append] at hmessage
  unfold load
  omega

/-- A client that is done has sent its message. -/
theorem Linked.amountSent_ne (h : s.Linked serverSocketd) (hdone : s.client.isDone = true) :
    s.client.amountSent ≠ -1 := by
  have hpos := (h.echoes.ends hdone).2.1
  omega

/-- A round of both ends in which sockets pass bytes. -/
theorem Linked.ready_calm (h : s.Linked serverSocketd) (hrefused : s.client.amountSent ≠ -1)
    {e : ClientReady × ServerReady} (hcalm : s.Calm e) :
    ∃ t, s.ready serverSocketd e = .ok t ∧ (t.Linked serverSocketd ∧ t.client.amountSent ≠ -1) ∧
      (s.client.isDone = true → t.client.isDone = true) ∧
      (t.client.isDone = true ∨ t.remaining < s.remaining) := by
  obtain ⟨k, answers, hrecvs⟩ := hcalm.clientRecv
  obtain ⟨m, hsend⟩ := hcalm.clientSend
  obtain ⟨client, sent, rest, hready, hpasses, hlinked⟩ := h.clientStep (e := e.1)
    ⟨fun hin => .inl (hcalm.clientIn.mp hin), fun hclosed =>
      by rw [hsend] at hclosed; cases hclosed⟩
  obtain ⟨s₁, hs₁⟩ : ∃ s₁ : EchoPair, s₁ =
    { s with client := client, toServer := s.toServer ++ sent, toClient := rest } := ⟨_, rfl⟩
  have hclient : s₁.client = client := by rw [hs₁]
  rw [← hs₁] at hlinked
  have hstep : s.ready serverSocketd e = s₁.serverStep serverSocketd e.2 := by
    unfold EchoPair.ready EchoPair.clientStep
    rw [hready, hs₁]
  by_cases hdone₁ : s₁.client.isDone = true
  · -- the client has ended
    obtain ⟨t, -, -, hserver, hlinked', hsame, -⟩ := hlinked.serverStep (e := e.2) fun _ => by
      cases hlinked.stage with
      | fresh hrunning | refused hrunning | waits n hrunning =>
        rw [hrunning.isDone] at hdone₁
        cases hdone₁
      | done hfinished => exact hfinished.opened
    have hdone : t.client.isDone = true := by rw [hsame, hdone₁]
    exact ⟨t, hstep.trans hserver, ⟨hlinked', hlinked'.amountSent_ne hdone⟩, fun _ => hdone,
      .inl hdone⟩
  · have hwaits₁ : s₁.client.isDone = false := by simpa using hdone₁
    have hwaits : s.client.isDone = false := by
      by_contra hyes
      exact hdone₁ (hclient ▸ hpasses.stays (by simpa using hyes))
    obtain ⟨hsentMsg, hnot, hprogress⟩ := h.stage.ready_calm hwaits hrefused h.front hcalm.clientIn
      hcalm.clientOut hrecvs hsend hready
    obtain ⟨t, hserver, hlinked', hsame, hle, hless⟩ := hlinked.serverStep_calm hwaits₁ hcalm
    have hremaining : t.remaining = t.load := by
      unfold remaining
      rw [hsame, hclient, if_pos hsentMsg]
    refine ⟨t, hstep.trans hserver, ⟨hlinked', ?_⟩, fun hyes => ?_, .inr ?_⟩
    · rw [hsame, hclient]
      exact hnot
    · rw [hwaits] at hyes
      cases hyes
    · rw [hremaining]
      by_cases hbefore : s.client.sentMsg = true
      · obtain ⟨rfl, hreceives⟩ := hprogress hbefore
        have hload : s.remaining = s.load := by
          unfold remaining
          rw [if_pos hbefore]
        obtain ⟨got, hgot, -⟩ := hpasses.received
        have hlength := congrArg List.length hgot
        rw [List.length_append] at hlength
        have hload₁ : s₁.load + got.length = s.load := by
          rw [hs₁]
          unfold load
          dsimp only
          rw [List.append_nil]
          omega
        rw [hload]
        rcases h.pending hwaits hbefore hrefused with hne | hne
        · have := hreceives hne
          omega
        · have hlt := hless (by rw [hs₁]; simpa using hne)
          omega
      · have hload : s.remaining = 3 * bufferSize + 1 := by
          unfold remaining
          rw [if_neg hbefore]
        have := hlinked.load_le
        omega

/-- In every state of every run in which `send` did not refuse the message: the echo ends after
enough rounds in which sockets pass bytes, and the client has found its message. -/
theorem finishes_of_run (hsocketd : serverSocketd ≠ 0) {es : List PairEvent}
    (hproper : StepsMeet (step serverSocketd) (Proper serverSocketd) (newPair serverSocketd) es)
    (hrun : runSteps (step serverSocketd) (newPair serverSocketd) es = .ok s)
    (hrefused : s.client.amountSent ≠ -1) {rounds : List (ClientReady × ServerReady)}
    (hcalm : StepsMeet (ready serverSocketd) Calm s rounds)
    (hlength : 3 * bufferSize + 1 < rounds.length) :
    ∃ t, runSteps (ready serverSocketd) s rounds = .ok t ∧ t.client.isDone = true ∧ t.Echoes := by
  have hlinked : s.Linked serverSocketd := by
    obtain ⟨s', hs', hlinked⟩ := runSteps_ok_of_stepsMeet (fun s => s.Linked serverSocketd)
      (fun _ _ h hproper => h.step hproper) (linked_newPair hsocketd) hproper
    obtain rfl := Except.ok.inj (hrun.symm.trans hs')
    exact hlinked
  have hremaining : s.remaining ≤ 3 * bufferSize + 1 := by
    have hload := hlinked.load_le
    unfold remaining
    split_ifs <;> omega
  obtain ⟨t, ht, hinv, hdone⟩ := final_of_measure
    (fun s => s.Linked serverSocketd ∧ s.client.amountSent ≠ -1)
      (fun s => s.client.isDone = true) remaining
    (fun s e h hcalm => h.1.ready_calm h.2 hcalm) ⟨hlinked, hrefused⟩ hcalm (by omega)
  exact ⟨t, ht, hdone, hinv.1.echoes⟩

/-! ## Rounds of single bytes -/

/-- A round in which every call passes one byte. -/
def byteRound (s : EchoPair) : ClientReady × ServerReady :=
  (⟨decide (s.toClient ≠ []), true, [.ready 0], .ready 0, id⟩, ⟨true, true, .ready 0, .ready 0⟩)

/-- A number of them. -/
def byteRounds (serverSocketd : ℕ) : ℕ → EchoPair → List (ClientReady × ServerReady)
  | 0, _ => []
  | n + 1, s =>
    s.byteRound :: byteRounds serverSocketd n ((s.ready serverSocketd s.byteRound).toOption.getD s)

/-- As many rounds as were asked for. -/
theorem length_byteRounds (n : ℕ) (s : EchoPair) : (byteRounds serverSocketd n s).length = n := by
  induction n generalizing s with
  | zero => rfl
  | succ n ih => rw [byteRounds, List.length_cons, ih]

/-- The rounds are calm. -/
theorem calm_byteRounds (n : ℕ) (s : EchoPair) :
    StepsMeet (ready serverSocketd) Calm s (byteRounds serverSocketd n s) := by
  induction n generalizing s with
  | zero => exact stepsMeet_nil
  | succ n ih =>
    refine ⟨⟨decide_eq_true_iff, rfl, ⟨0, [], rfl⟩, ⟨0, rfl⟩, rfl, rfl, ⟨0, rfl⟩, ⟨0, rfl⟩⟩, ?_⟩
    intro t ht
    rw [ht]
    exact ih t

/-- From the beginning, byte by byte. -/
theorem finishes_of_run_newPair :
    ∃ t, runSteps (ready 4) (newPair 4) (byteRounds 4 60002 (newPair 4)) = .ok t ∧
      t.client.isDone = true ∧ t.Echoes := by
  have hlength : 3 * bufferSize + 1 < (byteRounds 4 60002 (newPair 4)).length := by
    rw [length_byteRounds]
    decide
  exact finishes_of_run (by decide) (stepsMeet_nil : StepsMeet (step 4) (Proper 4) (newPair 4) [])
    rfl (by decide)
    (calm_byteRounds 60002 (newPair 4)) hlength

end EchoPair

end ShadowExtras.Echo
