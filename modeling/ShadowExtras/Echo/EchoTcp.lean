import ShadowExtras.Foundation.Run
import ShadowExtras.Foundation.Stream

/-!
# The TCP echo server

`echo-tcp.c`, the server: it accepts connections and sends back what it receives. All connections
share one buffer with one offset for reading into it and one for writing from it, and both go back
to zero at the end of an activation in which they are equal.

So what is sent, over all sockets, is what was received over all sockets, in order (`inOrder_step`):
a byte comes back on the socket on which it was received just if that socket is written to when the
byte is at its turn. `OwnBytes` is this condition, and under it every socket gets its own bytes.
-/

namespace ShadowExtras.Echo

open Foundation

/-- `BUFFERSIZE` -/
def bufferSize : ℕ := 20000

/-- `MAX_EVENTS` -/
def maxEvents : ℕ := 10

/-- A descriptor that `epoll` watches for input, and perhaps for output. -/
structure Watch where
  socketd : ℕ
  pollOut : Bool
  deriving DecidableEq, Repr

/-- `EchoServer` -/
structure EchoServer where
  listend : ℕ
  /-- The descriptors that are open. -/
  opened : List ℕ
  watches : List Watch
  /-- The bytes of the buffer up to `read_offset`. -/
  echoBuffer : Bytes
  writeOffset : ℕ
  /-- History: the bytes received, each with its socket. -/
  received : List (ℕ × Byte)
  /-- History: the bytes sent, each with its socket. -/
  sent : List (ℕ × Byte)
  deriving DecidableEq, Repr

/-- A descriptor that is ready, and what the environment answers when it is handled. -/
structure Ready where
  socketd : ℕ
  pollIn : Bool
  pollOut : Bool
  /-- What `accept` returns. -/
  accepted : Option ℕ
  /-- What has arrived on the socket. -/
  incoming : Bytes
  recv : Answer
  send : Answer
  deriving DecidableEq, Repr

/-- What `echotcp_ready` calls for a descriptor, and the end of it. -/
inductive Call
  | readable (ready : Ready)
  | writable (ready : Ready)
  | leave
  deriving DecidableEq, Repr

namespace EchoServer

/-- A server before the first activation. -/
def fresh (listend socketd : ℕ) : EchoServer where
  listend := listend
  opened := [socketd]
  watches := [⟨socketd, false⟩]
  echoBuffer := []
  writeOffset := 0
  received := []
  sent := []

/-- `_echotcp_newServer` -/
def newServer (socketd : ℕ) : EchoServer := fresh socketd socketd

/-- The server of `_echotcp_newPair`, which has no listening socket: its `listend` is zero. -/
def newPair (serverSocketd : ℕ) : EchoServer := fresh 0 serverSocketd

/-- `read_offset` -/
def readOffset (es : EchoServer) : ℕ := es.echoBuffer.length

/-- `epoll_ctl` with `EPOLL_CTL_ADD` and `EPOLLIN` -/
def add (es : EchoServer) (socketd : ℕ) : EchoServer :=
  { es with
    opened := es.opened ++ [socketd]
    watches := es.watches ++ [⟨socketd, false⟩] }

/-- `epoll_ctl` with `EPOLL_CTL_MOD` -/
def modify (es : EchoServer) (socketd : ℕ) (pollOut : Bool) : EchoServer :=
  { es with
    watches := es.watches.map fun watch => if watch.socketd = socketd then ⟨socketd, pollOut⟩
      else watch }

/-- `epoll_ctl` with `EPOLL_CTL_DEL` -/
def unwatch (es : EchoServer) (socketd : ℕ) : EchoServer :=
  { es with watches := es.watches.filter fun watch => watch.socketd ≠ socketd }

/-- `close` -/
def close (es : EchoServer) (socketd : ℕ) : EchoServer :=
  { es.unwatch socketd with opened := es.opened.filter fun fd => fd ≠ socketd }

/-- `_echotcp_serverReadable` -/
def serverReadable (es : EchoServer) (ready : Ready) : EchoServer :=
  if ready.socketd = es.listend then
    match ready.accepted with
    | none => es
    | some acceptedDescriptor =>
      -- a listening socket that was closed accepts no more
      if es.listend ∈ es.opened then es.add acceptedDescriptor else es
  else
    let readSize := bufferSize - es.readOffset
    if readSize > 0 ∧ ready.socketd ∈ es.opened then
      match ready.recv.recv ready.incoming readSize with
      | .error _ => es
      | .ok [] => (es.close es.listend).close ready.socketd
      | .ok (b :: bs) =>
        { es with
          echoBuffer := es.echoBuffer ++ (b :: bs)
          received := es.received ++ (b :: bs).map fun b =>
            (ready.socketd, b) }.modify ready.socketd true
    else es

/-- What is in the buffer and was not sent. -/
def unsent (es : EchoServer) : Bytes := es.echoBuffer.drop es.writeOffset

/-- What `send` returns for the rest of the buffer. -/
def sendResult (es : EchoServer) (ready : Ready) : Except Errno ℕ :=
  if ready.socketd ∈ es.opened then ready.send.send es.unsent.length else .error .other

/-- `_echotcp_serverWritable`, once the rest of the buffer is empty: stop trying to write. -/
def stopWriting (es : EchoServer) (socketd : ℕ) : EchoServer :=
  if es.unsent.length = 0 then es.modify socketd false else es

/-- `_echotcp_serverWritable` -/
def serverWritable (es : EchoServer) (ready : Ready) : EchoServer :=
  if es.unsent.length > 0 then
    match es.sendResult ready with
    | .error _ => es
    | .ok 0 => es.unwatch ready.socketd
    | .ok (n + 1) =>
      { es with
        writeOffset := es.writeOffset + (n + 1)
        sent := es.sent ++ (es.unsent.take (n + 1)).map fun b => (ready.socketd, b) }.stopWriting
          ready.socketd
  else es.stopWriting ready.socketd

/-- The end of `echotcp_ready`. -/
def leave (es : EchoServer) : EchoServer :=
  if es.readOffset = es.writeOffset then { es with echoBuffer := [], writeOffset := 0 } else es

/-- One of the calls; none of them fails. -/
def step (es : EchoServer) : Call → Except Empty EchoServer
  | .readable ready => .ok (es.serverReadable ready)
  | .writable ready => .ok (es.serverWritable ready)
  | .leave => .ok es.leave

/-- `epoll_wait` on descriptors some of which it watches. -/
def epollWait (es : EchoServer) (events : List Ready) : List Ready :=
  (events.filterMap fun ready =>
    (es.watches.find? fun watch => watch.socketd = ready.socketd).map fun watch =>
      { ready with pollOut := ready.pollOut && watch.pollOut }).take maxEvents

/-- The calls that `echotcp_ready` makes. -/
def calls (es : EchoServer) (events : List Ready) : List Call :=
  (es.epollWait events).flatMap (fun ready =>
    (if ready.pollIn then [.readable ready] else []) ++
      if ready.pollOut then [.writable ready] else []) ++ [.leave]

/-- `echotcp_ready`, the part of the server. -/
def ready (es : EchoServer) (events : List Ready) : Except Empty EchoServer :=
  runSteps step es (es.calls events)

/-! ## What comes back -/

/-- What a history says of one socket. -/
def onSocket (socketd : ℕ) (log : List (ℕ × Byte)) : Bytes :=
  (log.filter fun entry => entry.1 = socketd).map Prod.snd

/-- Every socket gets back what was received on it: so far a part of it, and all of it when the
buffer is drained. -/
def Echoes (es : EchoServer) : Prop :=
  ∀ socketd, onSocket socketd es.sent <+: onSocket socketd es.received ∧
    (es.readOffset = es.writeOffset → onSocket socketd es.sent = onSocket socketd es.received)

/-- The bytes that are to be sent next, as many as `send` accepts, each with the socket on which it
was received. -/
def due (es : EchoServer) (ready : Ready) : List (ℕ × Byte) :=
  (es.received.drop es.sent.length).take ((es.sendResult ready).toOption.getD 0)

/-- When a socket is written to, the bytes that `send` accepts were all received on it. -/
def OwnBytes (es : EchoServer) : Call → Prop
  | .writable ready => ∀ entry ∈ es.due ready, entry.1 = ready.socketd
  | _ => True

instance (es : EchoServer) : ∀ call, Decidable (es.OwnBytes call)
  | .readable _ => isTrue trivial
  | .writable ready => inferInstanceAs (Decidable (∀ entry ∈ es.due ready, entry.1 = ready.socketd))
  | .leave => isTrue trivial

/-- All calls of an activation write to a socket its own bytes. -/
def OwnActivation (es : EchoServer) (events : List Ready) : Prop :=
  StepsMeet step OwnBytes es (es.calls events)

instance (es : EchoServer) (events : List Ready) : Decidable (es.OwnActivation events) :=
  inferInstanceAs (Decidable (StepsMeet step OwnBytes es (es.calls events)))

/-! ## The order over all sockets -/

variable {es es' : EchoServer} {call : Call} {socketd : ℕ}

/-- Over all sockets, what was sent and what is in the buffer are what was received. -/
structure InOrder (es : EchoServer) : Prop where
  bytes : es.received.map Prod.snd = es.sent.map Prod.snd ++ es.unsent
  offset : es.writeOffset ≤ es.readOffset

/-- The histories and the buffer are the same. -/
structure SameBytes (es es' : EchoServer) : Prop where
  received : es'.received = es.received
  sent : es'.sent = es.sent
  echoBuffer : es'.echoBuffer = es.echoBuffer
  writeOffset : es'.writeOffset = es.writeOffset

theorem SameBytes.refl (es : EchoServer) : es.SameBytes es := ⟨rfl, rfl, rfl, rfl⟩

theorem sameBytes_modify (es : EchoServer) (socketd : ℕ) (pollOut : Bool) :
    es.SameBytes (es.modify socketd pollOut) := ⟨rfl, rfl, rfl, rfl⟩

/-- Writing no more is not about the bytes. -/
theorem sameBytes_stopWriting (es : EchoServer) (socketd : ℕ) :
    es.SameBytes (es.stopWriting socketd) := by
  unfold stopWriting
  split
  · exact sameBytes_modify es socketd false
  · exact SameBytes.refl es

/-- What a call does to the bytes. -/
inductive Moves (es es' : EchoServer) : Call → Prop
  | quiet (call : Call) (hsame : es.SameBytes es') : Moves es es' call
  | receive (ready : Ready) (bytes : Bytes)
      (hreceived : es'.received = es.received ++ bytes.map fun b => (ready.socketd, b))
      (hsent : es'.sent = es.sent) (hbuffer : es'.echoBuffer = es.echoBuffer ++ bytes)
      (hoffset : es'.writeOffset = es.writeOffset) : Moves es es' (.readable ready)
  | send (ready : Ready) (n : ℕ) (hn : es.sendResult ready = .ok n) (hle : n ≤ es.unsent.length)
      (hreceived : es'.received = es.received)
      (hsent : es'.sent = es.sent ++ (es.unsent.take n).map fun b => (ready.socketd, b))
      (hbuffer : es'.echoBuffer = es.echoBuffer)
      (hoffset : es'.writeOffset = es.writeOffset + n) : Moves es es' (.writable ready)
  | reset (hdrained : es.readOffset = es.writeOffset) (hreceived : es'.received = es.received)
      (hsent : es'.sent = es.sent) (hbuffer : es'.echoBuffer = []) (hoffset : es'.writeOffset = 0) :
      Moves es es' .leave

/-- No more is sent than there is. -/
theorem le_of_sendResult {ready : Ready} {n : ℕ} (h : es.sendResult ready = .ok n) :
    n ≤ es.unsent.length := by
  unfold sendResult at h
  split at h
  · exact Answer.le_of_send_eq_ok h
  · cases h

/-- A readable socket moves bytes into the buffer. -/
theorem moves_serverReadable (es : EchoServer) (ready : Ready) :
    Moves es (es.serverReadable ready) (.readable ready) := by
  unfold serverReadable
  split
  · split
    · exact .quiet _ (SameBytes.refl es)
    · split <;> exact .quiet _ ⟨rfl, rfl, rfl, rfl⟩
  · simp only
    split
    · split
      · exact .quiet _ (SameBytes.refl es)
      · exact .quiet _ ⟨rfl, rfl, rfl, rfl⟩
      · exact .receive ready _ rfl rfl rfl rfl
    · exact .quiet _ (SameBytes.refl es)

/-- A writable socket moves bytes out of the buffer. -/
theorem moves_serverWritable (es : EchoServer) (ready : Ready) :
    Moves es (es.serverWritable ready) (.writable ready) := by
  unfold serverWritable
  split
  · split
    · exact .quiet _ (SameBytes.refl es)
    · exact .quiet _ ⟨rfl, rfl, rfl, rfl⟩
    · rename_i n hsend
      have hsame := sameBytes_stopWriting
        { es with
          writeOffset := es.writeOffset + (n + 1)
          sent := es.sent ++ (es.unsent.take (n + 1)).map fun b =>
            (ready.socketd, b) } ready.socketd
      exact .send ready (n + 1) hsend (le_of_sendResult hsend) hsame.received hsame.sent
        hsame.echoBuffer hsame.writeOffset
  · exact .quiet _ (sameBytes_stopWriting es ready.socketd)

/-- Every call moves bytes. -/
theorem moves_step (h : es.step call = .ok es') : Moves es es' call := by
  cases call with
  | readable ready =>
    obtain rfl := Except.ok.inj h
    exact moves_serverReadable es ready
  | writable ready =>
    obtain rfl := Except.ok.inj h
    exact moves_serverWritable es ready
  | leave =>
    obtain rfl := Except.ok.inj h
    unfold leave
    split
    · rename_i hdrained
      exact .reset hdrained rfl rfl rfl rfl
    · exact .quiet _ (SameBytes.refl es)

/-- The step: whatever the sockets, the order is kept. -/
theorem inOrder_step (h : es.InOrder) (hstep : es.step call = .ok es') : es'.InOrder := by
  have hbytes := h.bytes
  have hoffset := h.offset
  unfold readOffset at hoffset
  cases moves_step hstep with
  | quiet call hsame =>
    refine ⟨?_, ?_⟩
    · rw [hsame.received, hsame.sent, unsent, hsame.echoBuffer, hsame.writeOffset]
      exact hbytes
    · rw [readOffset, hsame.echoBuffer, hsame.writeOffset]
      exact hoffset
  | receive ready bytes hreceived hsent hbuffer hwrite =>
    refine ⟨?_, ?_⟩
    · rw [hreceived, hsent, List.map_append, hbytes, unsent, unsent, hbuffer, hwrite,
        List.drop_append_of_le_length hoffset, List.append_assoc]
      simp
    · rw [readOffset, hbuffer, hwrite, List.length_append]
      omega
  | send ready n hn hle hreceived hsent hbuffer hwrite =>
    rw [unsent, List.length_drop] at hle
    refine ⟨?_, ?_⟩
    · rw [hreceived, hsent, List.map_append, hbytes, List.append_assoc]
      congr 1
      rw [List.map_map, unsent, unsent, hbuffer, hwrite, ← List.drop_drop]
      simp
    · rw [readOffset, hbuffer, hwrite]
      omega
  | reset hdrained hreceived hsent hbuffer hwrite =>
    refine ⟨?_, ?_⟩
    · rw [hreceived, hsent, hbytes, unsent, unsent, hbuffer, hwrite]
      unfold readOffset at hdrained
      rw [List.drop_of_length_le hdrained.le, List.drop_nil]
    · rw [readOffset, hbuffer, hwrite]
      exact Nat.zero_le _

/-! ## Every socket by itself -/

/-- The bytes were sent on the sockets on which they were received. -/
structure Faithful (es : EchoServer) : Prop where
  order : es.InOrder
  sent : es.sent <+: es.received

theorem onSocket_append (socketd : ℕ) (log log' : List (ℕ × Byte)) :
    onSocket socketd (log ++ log') = onSocket socketd log ++ onSocket socketd log' := by
  simp [onSocket]

/-- Bytes that were all received on one socket. -/
theorem map_snd_of_own {log : List (ℕ × Byte)} (h : ∀ entry ∈ log, entry.1 = socketd) :
    (log.map Prod.snd).map (fun b => (socketd, b)) = log := by
  rw [List.map_map]
  conv_rhs => rw [← List.map_id log]
  apply List.map_congr_left
  intro entry hentry
  rw [Function.comp_apply, ← h entry hentry, id]

/-- The step: a socket that is written to gets its own bytes. -/
theorem faithful_step (h : es.Faithful) (hown : es.OwnBytes call) (hstep : es.step call = .ok es') :
    es'.Faithful := by
  refine ⟨inOrder_step h.order hstep, ?_⟩
  obtain ⟨rest, hrest⟩ := h.sent
  cases moves_step hstep with
  | quiet call hsame =>
    rw [hsame.sent, hsame.received]
    exact h.sent
  | receive ready bytes hreceived hsent hbuffer hwrite =>
    rw [hsent, hreceived]
    exact h.sent.trans (List.prefix_append _ _)
  | send ready n hn hle hreceived hsent hbuffer hwrite =>
    have hbytes := h.order.bytes
    rw [← hrest, List.map_append] at hbytes
    have hunsent : rest.map Prod.snd = es.unsent := List.append_cancel_left hbytes
    -- what is due is what is sent
    have hdue : es.due ready = rest.take n := by
      rw [due, hn, ← hrest, List.drop_left]
      rfl
    have htake : (es.unsent.take n).map (fun b => (ready.socketd, b)) = rest.take n := by
      rw [← hunsent, ← List.map_take]
      apply map_snd_of_own
      rw [← hdue]
      exact hown
    rw [hsent, hreceived, htake, ← hrest]
    exact List.prefix_append_right_inj _ |>.mpr (List.take_prefix n rest)
  | reset hdrained hreceived hsent hbuffer hwrite =>
    rw [hsent, hreceived]
    exact h.sent

/-- A faithful server echoes. -/
theorem Faithful.echoes (h : es.Faithful) : es.Echoes := by
  obtain ⟨rest, hrest⟩ := h.sent
  intro socketd
  refine ⟨?_, fun hdrained => ?_⟩
  · rw [← hrest, onSocket_append]
    exact List.prefix_append _ _
  · have hbytes := h.order.bytes
    have hempty : es.unsent = [] := List.drop_of_length_le hdrained.le
    rw [hempty, List.append_nil, ← hrest, List.map_append] at hbytes
    have hnone : rest = [] := by simpa using hbytes
    rw [← hrest, hnone, List.append_nil]

theorem faithful_run {made : List Call} (h : es.Faithful) (hown : StepsMeet step OwnBytes es made)
    (hrun : runSteps step es made = .ok es') : es'.Faithful :=
  invariant_of_stepsMeet Faithful (fun _ _ _ h hown hstep => faithful_step h hown hstep) h hown hrun

theorem faithful_fresh (listend socketd : ℕ) : (fresh listend socketd).Faithful := by
  refine ⟨⟨?_, le_rfl⟩, List.prefix_rfl⟩
  simp [fresh, unsent]

/-- For any number of connections and in any order of events: at every moment of a run in which
sockets are written their own bytes, every socket has got back what was received on it. -/
theorem echoes_of_ownBytes {listend : ℕ} {activations : List (List Ready)} {events : List Ready}
    {made : List Call}
    (hown : StepsMeet ready OwnActivation (fresh listend socketd) (activations ++ [events]))
    (hrun : runSteps ready (fresh listend socketd) activations = .ok es)
    (hmade : made <+: es.calls events) (hpart : runSteps step es made = .ok es') : es'.Echoes := by
  have hfaithful : es.Faithful := by
    refine invariant_of_stepsMeet Faithful ?_ (faithful_fresh listend socketd) hown.of_append hrun
    intro es events es' h hown hready
    exact faithful_run h hown hready
  obtain ⟨hlast, -⟩ := hown.of_append_of_ok hrun
  obtain ⟨rest, hrest⟩ := hmade
  rw [OwnActivation, ← hrest] at hlast
  exact (faithful_run hfaithful hlast.of_append hpart).echoes

/-- The listening socket is ready. -/
def connection (acceptedDescriptor : ℕ) : Ready :=
  ⟨4, true, false, some acceptedDescriptor, [], .failed .other, .failed .other⟩

/-- A socket is ready on which something may have arrived. -/
def arrival (socketd : ℕ) (incoming : Bytes) : Ready :=
  ⟨socketd, true, true, none, incoming, .ready 99, .ready 99⟩

/-- Two connections, one after the other. -/
theorem echoes_two :
    ∃ es es', runSteps ready (newServer 4) [[connection 5], [connection 6], [arrival 5 [97]],
        [arrival 5 []], [arrival 6 [98]]] = .ok es ∧
      runSteps step es (es.calls [arrival 6 []]) = .ok es' ∧ es'.Echoes := by
  obtain ⟨es, hes⟩ : ∃ es, runSteps ready (newServer 4) [[connection 5], [connection 6],
      [arrival 5 [97]], [arrival 5 []], [arrival 6 [98]]] = .ok es := ⟨_, rfl⟩
  cases hes' : runSteps step es (es.calls [arrival 6 []]) with
  | error fault => cases fault
  | ok es' =>
    exact ⟨es, es', hes, hes', echoes_of_ownBytes (by decide +kernel) hes List.prefix_rfl hes'⟩

/-- On two connections something arrives before either is written to: the first gets it all. -/
theorem not_echoes_mixed :
    ∃ es, runSteps ready (newServer 4) [[connection 5], [connection 6],
      [arrival 5 [97], arrival 6 [98]], [arrival 5 []]] = .ok es ∧ ¬es.Echoes := by
  refine ⟨_, rfl, fun hechoes => ?_⟩
  have hlength := (hechoes 5).1.length_le
  revert hlength
  decide +kernel

end EchoServer

end ShadowExtras.Echo
