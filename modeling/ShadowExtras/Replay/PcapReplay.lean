import ShadowExtras.Foundation.Run
import ShadowExtras.Replay.Capture

/-!
# The pcap replayer

An instance replays the packets of one direction of a flow. It holds the next packet; an activation
first reads the packet after that one and then, depending on the events of the socket, sends the
packet it held. When the file has no other packet, the last one is sent, the handle is closed, its
file is opened again at the end of the queue, and the replay goes on with the next file. The same
happens when the peer closes the connection.

What the system calls answer is given with the activation. Sleeping and logging are left out. A
fault is a failed assertion, an endless loop, or an access that C leaves undefined.
-/

namespace ShadowExtras.Replay

open Foundation

/-- A call of `send_packet`: the packet by its place in the capture, its length, the bytes that are
passed to `send` and how many of them it accepts. -/
structure Sent where
  index : Nat
  size : Nat
  bytes : Bytes
  accepted : Option Nat
  deriving DecidableEq, Repr

/-- The packet that is held, with its place in the capture. -/
structure Held where
  packet : CustomPacket
  index : Nat
  deriving DecidableEq, Repr

/-- `Pcap_Replay`, with what was sent. -/
structure PcapReplay where
  flow : Flow
  /-- The handle in use, the head of `pcapStructQueue`; none once it is closed for good. -/
  pcap : Option Pcap
  /-- The other handles. -/
  pcapStructQueue : List Pcap
  pcapFilePathQueue : List Capture
  /-- None once the packet or its payload is freed. -/
  nextPacket : Option Held
  isAllowedToSend : Bool
  isFirstPacketReceived : Bool
  isDone : Bool
  /-- What was sent from the file in use. -/
  sent : List Sent
  /-- The files that were replayed before, with what was sent. -/
  passes : List (Capture × List Sent)
  deriving DecidableEq, Repr

/-- The result of `recv`. -/
inductive Received
  | bytes
  | closed
  | failed
  deriving DecidableEq, Repr

/-- An epoll event for a socket of the instance, with the answers of the system calls. -/
structure Activation where
  /-- The socket is the one that listens for clients. -/
  listening : Bool
  epollin : Bool
  epollout : Bool
  /-- How many bytes `send` accepts, if it does not fail. -/
  send : Option Nat
  recv : Received
  /-- A server that waits for the first packet of the client empties the socket until `recv`
  fails. -/
  drains : Bool
  /-- `pcap_open_offline` succeeds. -/
  reopens : Bool
  timedOut : Bool
  deriving DecidableEq, Repr

/-- A connection that can be written to and accepts `n` bytes. -/
def Activation.writable (n : Nat) : Activation where
  listening := false
  epollin := false
  epollout := true
  send := some n
  recv := .failed
  drains := true
  reopens := true
  timedOut := false

/-- Faults of the replayer. -/
inductive Fault
  /-- `pcap_next_ex` on a handle that was closed. -/
  | closedHandle
  /-- The packet to send was freed. -/
  | freedPacket
  /-- A message buffer of negative size. -/
  | negativeSize
  /-- `assert(events & EPOLLIN)` for the listening socket. -/
  | assertEpollin
  /-- `recv` returns zero for ever. -/
  | endlessLoop
  deriving DecidableEq, Repr

namespace PcapReplay

variable (s : PcapReplay)

/-- `get_next_packet`: whether there was one. -/
def getNextPacket : Except Fault (Bool × PcapReplay) :=
  match s.pcap with
  | none => .error .closedHandle
  | some h =>
    match readNext s.flow h.records h.buffer with
    | (records, buffer, some found) =>
      .ok (true, { s with
        pcap := some { h with records := records, buffer := buffer, taken := h.taken + 1 }
        nextPacket := some { packet := found, index := h.taken } })
    | (records, buffer, none) =>
      .ok (false, { s with pcap := some { h with records := records, buffer := buffer } })

/-- `send_packet`: the payload is copied from where the pointer leads. -/
def sendPacket (held : Option Held) (send : Option Nat) : Except Fault PcapReplay :=
  match held, s.pcap with
  | some p, some h =>
    if p.packet.payloadSize < 0 then .error .negativeSize
    else
      let size := p.packet.payloadSize.toNat
      .ok { s with
        sent := s.sent ++ [{
          index := p.index
          size := size
          bytes := bytesAt h.buffer p.packet.payload size
          accepted := send.map (min size) }] }
  | _, _ => .error .freedPacket

/-- `change_pcap_file_to_send`. The packet that is held points into the closed handle. -/
def changePcapFileToSend (reopens : Bool) : Bool × PcapReplay :=
  let ended := (s.pcap.toList.map fun h => (h.capture, s.sent))
  let closed := { s with
    pcap := none
    nextPacket := none
    sent := []
    passes := s.passes ++ ended }
  match s.pcapFilePathQueue with
  | [] => (false, closed)
  | path :: paths =>
    if reopens then
      match s.pcapStructQueue ++ [Pcap.openOffline path] with
      | [] => (false, closed)
      | h :: rest =>
        (true, { closed with
          pcap := some h
          pcapStructQueue := rest
          pcapFilePathQueue := paths ++ [path] })
    else (false, closed)

/-- `deinstanciate`. -/
def deinstanciate : PcapReplay := { s with isDone := true }

/-- Replay the next file, or exit if that fails; `restarted` is what is set when it succeeds. -/
def restart (reopens : Bool) (restarted : PcapReplay → PcapReplay) : Except Fault PcapReplay :=
  match s.changePcapFileToSend reopens with
  | (false, s) => .ok s.deinstanciate
  | (true, s) =>
    match s.getNextPacket with
    | .error fault => .error fault
    | .ok (false, s) => .ok s.deinstanciate
    | .ok (true, s) => .ok (restarted s)

/-- `restart_client`. -/
def restartClient (reopens : Bool) : Except Fault PcapReplay := s.restart reopens id

/-- `restart_server`: it waits for the first packet of the client. -/
def restartServer (reopens : Bool) : Except Fault PcapReplay :=
  s.restart reopens fun s => { s with isAllowedToSend := false, isFirstPacketReceived := false }

/-- The end of an activation. -/
def checkTimeout (a : Activation) : PcapReplay := if a.timedOut then s.deinstanciate else s

/-- The last packet of a file is sent and freed. -/
def sendLast (held : Option Held) (a : Activation)
    (restart : PcapReplay → Bool → Except Fault PcapReplay) : Except Fault PcapReplay :=
  match s.sendPacket held a.send with
  | .error fault => .error fault
  | .ok s => restart { s with nextPacket := none } a.reopens

/-- `_pcap_activateClient`. -/
def activateClient (a : Activation) : Except Fault PcapReplay :=
  let pcktToSend := s.nextPacket
  match s.getNextPacket with
  | .error fault => .error fault
  | .ok (false, s) => s.sendLast pcktToSend a restartClient
  | .ok (true, s) =>
    if a.epollin ∧ a.epollout then
      match s.sendPacket pcktToSend a.send with
      | .error fault => .error fault
      | .ok s =>
        if a.recv = .closed then s.restartClient a.reopens else .ok (s.checkTimeout a)
    else if a.epollout then
      match s.sendPacket pcktToSend a.send with
      | .error fault => .error fault
      | .ok s => .ok (s.checkTimeout a)
    else if a.epollin then
      if a.recv = .closed then s.restartClient a.reopens else .ok (s.checkTimeout a)
    else .ok (s.checkTimeout a)

/-- `_pcap_activateServer`. -/
def activateServer (a : Activation) : Except Fault PcapReplay :=
  let pcktToSend := s.nextPacket
  if a.epollin ∧ s.isAllowedToSend = false then
    if a.drains then .ok { s with isAllowedToSend := true } else .error .endlessLoop
  else if a.epollin = false ∧ s.isFirstPacketReceived = false then .ok s
  else
    match s.getNextPacket with
    | .error fault => .error fault
    | .ok (false, s) => s.sendLast pcktToSend a restartServer
    | .ok (true, s) =>
      if a.listening then
        -- a new client is accepted
        if a.epollin then .ok (s.checkTimeout a) else .error .assertEpollin
      else if a.epollin ∧ a.epollout then
        match s.sendPacket pcktToSend a.send with
        | .error fault => .error fault
        | .ok s =>
          let s := { s with isFirstPacketReceived := true }
          if a.recv = .closed then s.restartServer a.reopens else .ok (s.checkTimeout a)
      else if a.epollin then
        if a.recv = .closed then s.restartServer a.reopens
        else .ok ({ s with isFirstPacketReceived := true }.checkTimeout a)
      else if a.epollout then
        match s.sendPacket pcktToSend a.send with
        | .error fault => .error fault
        | .ok s => .ok (s.checkTimeout a)
      else .ok (s.checkTimeout a)

/-- `pcap_replay_ready`, for one event. -/
def step (s : PcapReplay) (a : Activation) : Except Fault PcapReplay :=
  if s.flow.isClient then s.activateClient a else s.activateServer a

/-- `pcap_replay_new`: there is an instance if the first file has a packet to replay. -/
def new (flow : Flow) (captures : List Capture) : Option PcapReplay :=
  match captures.map Pcap.openOffline with
  | [] => none
  | h :: rest =>
    match getNextPacket
        { flow := flow
          pcap := some h
          pcapStructQueue := rest
          pcapFilePathQueue := captures
          nextPacket := none
          isAllowedToSend := true
          isFirstPacketReceived := true
          isDone := false
          sent := []
          passes := [] } with
    | .ok (true, s) => some s
    | _ => none

end PcapReplay

end ShadowExtras.Replay
