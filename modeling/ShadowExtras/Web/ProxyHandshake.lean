import ShadowExtras.Web.EventLoop

/-!
# The SOCKS handshake of a connection

A `Connection` that is given a proxy connects to it, writes a greeting, reads the method that the
proxy chooses, writes the request for a tunnel and reads the reply; then its socket is handed to
HTTP. Each of the writes and reads is a single call for a fixed number of bytes, made when epoll
reports the socket writable or readable, and each must do all of it at once, or an assertion fails.
So it does when epoll reports an error. A hangup of the proxy has the value 3, which the event
handler takes for the event that the proxy is connected: the greeting is written again. Only a reply
that does not grant the tunnel is reported to the user.

`ProxyCnx` is the connection up to the end of the handshake, with the bytes that the proxy has sent.
What `write` and `read` return is left to the surroundings. `Handshakes` is what the handshake
should make sure of in every state, and `Smooth` says for which triggers it does.
-/

namespace ShadowExtras.Web

open Foundation

/-! ## Data -/

/-- The handlers that `writecb_` is set to. -/
inductive WriteCb
  | mevWritecb
  | mevSocks5ProxyWritecb
  deriving DecidableEq, Repr

/-- What a connection reports to its user. -/
inductive CnxReport
  | onError
  | onEof
  deriving DecidableEq, Repr

/-- What `read` does. -/
inductive ProxyRead
  /-- It returns up to this many bytes of those that are there. -/
  | bytes (n : Nat)
  | wouldBlock
  | eof
  | error
  deriving DecidableEq, Repr

/-- A `Connection` with a proxy, its socket and the other end. -/
structure ProxyCnx where
  addr : UInt32
  port : UInt16
  sspAddr : UInt32
  sspPort : UInt16
  /-- `state_` of the `myevent_socket_t`. -/
  mevState : MevState
  readcb : Option ReadCb
  writecb : Option WriteCb
  eventcb : EventCb
  state : CnxState
  socks5State : Socks5State
  writeToServerEnabled : Bool
  /-- The connection was destroyed. -/
  deleted : Bool
  /-- The bytes that the proxy has sent and that were not read yet. -/
  incoming : Bytes
  /-- All bytes that the proxy has sent. -/
  fromProxy : Bytes
  /-- The bytes that the handshake has read. -/
  received : Bytes
  /-- The bytes that it has written. -/
  sent : Bytes
  /-- The calls of `on_error` and `on_eof`. -/
  reports : List CnxReport
  deriving DecidableEq, Repr

/-- An assertion that fails. -/
inductive ProxyFault
  /-- `state_` in `myevent_socket_t::trigger`. -/
  | triggerState
  /-- `myassert(0)` in `mev_socks5_proxy_eventcb`. -/
  | eventcb
  /-- `write(fd_, req, 3) == 3` -/
  | writeGreeting
  /-- `2 == read(fd_, mem, 2)` -/
  | readMethod
  /-- `0 == memcmp(mem, "\x05\x00", 2)` -/
  | method
  /-- `addr != 0` -/
  | addr
  /-- `port != 0` -/
  | port
  /-- `write(fd_, req.c_str(), req.size()) == req.size()` -/
  | writeRequest
  /-- `10 == read(fd_, mem, 10)` -/
  | readReply
  /-- `!write_to_server_enabled_` -/
  | writeEnabled
  deriving DecidableEq, Repr

/-- What epoll reports for the socket, with what `write` and `read` then return. -/
structure ProxyTrigger where
  epollin : Bool
  epollout : Bool
  epollerr : Bool
  epollrdhup : Bool
  /-- How many bytes of the greeting `write` accepts after a hangup. -/
  greeted : Nat
  /-- How many bytes `write` accepts when the socket is writable. -/
  written : Nat
  read : ProxyRead
  deriving DecidableEq, Repr

/-- What happens to a connection during the handshake. -/
inductive ProxyEvent
  /-- The proxy sends bytes. -/
  | arrive (bs : Bytes)
  | trigger (t : ProxyTrigger)
  /-- The connection is destroyed. -/
  | delete
  deriving DecidableEq, Repr

namespace ProxyCnx

/-- An `in_addr_t` in memory. -/
def addrBytes (addr : UInt32) : Bytes :=
  [addr.toUInt8, (addr >>> 8).toUInt8, (addr >>> 16).toUInt8, (addr >>> 24).toUInt8]

/-- `htons(port)` in memory. -/
def portBytes (port : UInt16) : Bytes := [(port >>> 8).toUInt8, port.toUInt8]

/-- The method that the proxy must choose. -/
def method : Bytes := [5, 0]

/-- The beginning of a reply that grants the tunnel. -/
def granted : Bytes := [5, 0, 0, 1]

/-- The connection that `initiate_connection` leaves; `atOnce` says that `connect` has succeeded and
is not in progress. -/
def initiate (addr : UInt32) (port : UInt16) (sspAddr : UInt32) (sspPort : UInt16)
    (atOnce : Bool) : ProxyCnx where
  addr := addr
  port := port
  sspAddr := sspAddr
  sspPort := sspPort
  mevState := if atOnce then .connected else .connecting
  readcb := none
  writecb := some .mevSocks5ProxyWritecb
  eventcb := .mevSocks5ProxyEventcb
  state := .connecting
  socks5State := .none
  writeToServerEnabled := false
  deleted := false
  incoming := []
  fromProxy := []
  received := []
  sent := []
  reports := []

section Handlers

variable (s : ProxyCnx)

/-- The address and the port that the proxy is asked for. -/
def target : UInt32 × UInt16 :=
  if s.sspAddr ≠ 0 then (s.sspAddr, s.sspPort) else (s.addr, s.port)

/-- What `read(fd_, mem, len)` puts into `mem`. -/
def got (len : Nat) : ProxyRead → Bytes
  | .bytes n => (s.incoming.take len).take n
  | _ => []

/-- `read(fd_, mem, len)` -/
def read (len : Nat) (r : ProxyRead) : ProxyCnx :=
  { s with
    incoming := s.incoming.drop (s.got len r).length
    received := s.received ++ s.got len r }

/-- `Connection::on_socks5_proxy_connected` -/
def onSocks5ProxyConnected (written : Nat) : Except ProxyFault ProxyCnx :=
  if written = 3 then .ok
    { s with
      sent := s.sent ++ [5, 1, 0]
      socks5State := .greeting
      readcb := some .mevSocks5ProxyReadcb
      writecb := none }
  else .error .writeGreeting

/-- `mev_socks5_proxy_eventcb` -/
def mevSocks5ProxyEventcb (events : MevEvent) (written : Nat) : Except ProxyFault ProxyCnx :=
  if events.has .connected then s.onSocks5ProxyConnected written
  else if events.has .eof then .error .eventcb
  else if events.has .error then .error .eventcb
  else .ok s

/-- `Connection::on_socks5_proxy_writable` -/
def onSocks5ProxyWritable (written : Nat) : Except ProxyFault ProxyCnx :=
  if s.socks5State = .writeRequestNext then
    if s.target.1 = 0 then .error .addr
    else if s.target.2 = 0 then .error .port
    else
      let req := [5, 1, 0, 1] ++ addrBytes s.target.1 ++ portBytes s.target.2
      if written = req.length then .ok
        { s with
          sent := s.sent ++ req
          socks5State := .readRespNext
          readcb := some .mevSocks5ProxyReadcb
          writecb := none }
      else .error .writeRequest
  else .ok s

/-- `Connection::on_socks5_proxy_readable` -/
def onSocks5ProxyReadable (r : ProxyRead) : Except ProxyFault ProxyCnx :=
  match s.socks5State with
  | .greeting =>
    let mem := s.got 2 r
    if mem.length ≠ 2 then .error .readMethod
    else if mem ≠ method then .error .method
    else .ok
      { s.read 2 r with
        socks5State := .writeRequestNext
        writecb := some .mevSocks5ProxyWritecb
        readcb := none }
  | .readRespNext =>
    let mem := s.got 10 r
    if mem.length ≠ 10 then .error .readReply
    else if mem.take 4 ≠ granted then
      .ok { s.read 10 r with reports := s.reports ++ [.onError] }
    else if s.writeToServerEnabled then .error .writeEnabled
    else .ok
      { s.read 10 r with
        state := .connected
        socks5State := .none
        readcb := some .mevReadcb
        writecb := some .mevWritecb
        eventcb := .mevEventcb
        writeToServerEnabled := true }
  | _ => .ok s

/-- A part of `trigger` that calls the event handler and sets the state of the socket. -/
def hangup (reported : Bool) (events : MevEvent) (mevState : MevState) (written : Nat) :
    Except ProxyFault ProxyCnx :=
  if reported then
    match s.mevSocks5ProxyEventcb events written with
    | .error f => .error f
    | .ok s' => .ok { s' with mevState := mevState }
  else .ok s

/-- The part of `trigger` for `EPOLLERR`. -/
def onErr (t : ProxyTrigger) : Except ProxyFault ProxyCnx :=
  s.hangup t.epollerr .error .error t.greeted

/-- The part of `trigger` for `EPOLLRDHUP`. -/
def onRdhup (t : ProxyTrigger) : Except ProxyFault ProxyCnx :=
  s.hangup t.epollrdhup .eof .closed t.greeted

/-- The part of `trigger` for `EPOLLOUT`. -/
def onOut (t : ProxyTrigger) : Except ProxyFault ProxyCnx :=
  if t.epollout then
    if s.mevState = .connecting then
      mevSocks5ProxyEventcb { s with mevState := .connected } .connected t.written
    else match s.writecb with
      | some .mevSocks5ProxyWritecb => s.onSocks5ProxyWritable t.written
      | _ => .ok s
  else .ok s

/-- The part of `trigger` for `EPOLLIN`. -/
def onIn (t : ProxyTrigger) : Except ProxyFault ProxyCnx :=
  if t.epollin then
    match s.readcb with
    | some .mevSocks5ProxyReadcb => s.onSocks5ProxyReadable t.read
    | _ => .ok s
  else .ok s

/-- `myevent_socket_t::trigger` -/
def trigger (t : ProxyTrigger) : Except ProxyFault ProxyCnx :=
  if s.mevState = .connecting ∨ s.mevState = .connected then do
    let s ← s.onErr t
    let s ← s.onRdhup t
    let s ← s.onOut t
    s.onIn t
  else .error .triggerState

end Handlers

/-- The handshake is over: the socket belongs to HTTP, or it does not exist any more. -/
def Over (s : ProxyCnx) : Prop := s.state = .connected ∨ s.deleted = true

instance (s : ProxyCnx) : Decidable s.Over := inferInstanceAs (Decidable (_ ∨ _))

/-- One step. -/
def step (s : ProxyCnx) : ProxyEvent → Except ProxyFault ProxyCnx
  | .arrive bs => .ok { s with incoming := s.incoming ++ bs, fromProxy := s.fromProxy ++ bs }
  | .trigger t => if s.Over then .ok s else s.trigger t
  | .delete => .ok { s with deleted := true }

/-! ## What the handshake should make sure of -/

/-- The method and a reply of ten bytes. -/
def Replies (reply received : Bytes) : Prop := received = method ++ reply ∧ reply.length = 10

/-- The socket is watched for the event that takes the handshake on. -/
def Waits (s : ProxyCnx) : Prop :=
  s.mevState = .connecting ∨ s.mevState = .connected ∧
    ((s.socks5State = .greeting ∨ s.socks5State = .readRespNext) ∧
        s.readcb = some .mevSocks5ProxyReadcb ∨
      s.socks5State = .writeRequestNext ∧ s.writecb = some .mevSocks5ProxyWritecb)

/-- The connection is established when the method and a reply that grants the tunnel were received
in full, it fails when another reply was received, and this is reported once; until then it goes on.
Every byte of the proxy was received by the handshake or is still there. -/
structure Handshakes (s : ProxyCnx) : Prop where
  connected : s.state = .connected ↔ ∃ reply, Replies reply s.received ∧ reply.take 4 = granted
  failed : s.reports ≠ [] ↔ ∃ reply, Replies reply s.received ∧ reply.take 4 ≠ granted
  once : s.reports.length ≤ 1
  waits : ¬s.Over → s.reports = [] → s.Waits
  bytes : s.received ++ s.incoming = s.fromProxy

/-- The state of the handshake when `trigger` comes to the read handler. -/
def atRead (s : ProxyCnx) (t : ProxyTrigger) : Socks5State :=
  if t.epollout then
    if s.mevState = .connecting then .greeting
    else if s.socks5State = .writeRequestNext then .readRespNext
    else s.socks5State
  else s.socks5State

/-- `write` accepts all bytes, and the proxy is asked for an address and a port. -/
structure WritesAll (s : ProxyCnx) (t : ProxyTrigger) : Prop where
  greeting : t.epollout = true → s.mevState = .connecting → t.written = 3
  request : t.epollout = true → s.mevState ≠ .connecting → s.socks5State = .writeRequestNext →
    s.target.1 ≠ 0 ∧ s.target.2 ≠ 0 ∧ t.written = 10

/-- `read` returns the method, or a reply in full if none was received before. -/
structure ReadsAll (s : ProxyCnx) (t : ProxyTrigger) (socks5State : Socks5State) : Prop where
  method : t.epollin = true → socks5State = .greeting → s.got 2 t.read = method
  reply : t.epollin = true → socks5State = .readRespNext →
    s.reports = [] ∧ (s.got 10 t.read).length = 10

/-- Epoll reports no error, and a hangup only after the refusal was reported; nothing is written or
read in parts. -/
structure SmoothTrigger (s : ProxyCnx) (t : ProxyTrigger) : Prop where
  alive : s.mevState = .connecting ∨ s.mevState = .connected
  err : t.epollerr = false
  rdhup : t.epollrdhup = true → s.reports ≠ [] ∧ t.greeted = 3 ∧ t.epollin = false
  writes : s.WritesAll t
  reads : s.ReadsAll t (s.atRead t)

/-- A trigger of a connection whose handshake is not over is smooth. -/
def Smooth (s : ProxyCnx) : ProxyEvent → Prop
  | .trigger t => ¬s.Over → s.SmoothTrigger t
  | _ => True

/-! ## Where the handshake stands -/

variable {s u : ProxyCnx} {t : ProxyTrigger}

/-- What the handlers look at in a connection that is not established. -/
structure At (s : ProxyCnx) (mevState : MevState) (socks5State : Socks5State)
    (readcb : Option ReadCb) (writecb : Option WriteCb) (received : Bytes)
    (reports : List CnxReport) : Prop where
  state : s.state = .connecting
  enabled : s.writeToServerEnabled = false
  mevState : s.mevState = mevState
  socks5State : s.socks5State = socks5State
  readcb : s.readcb = readcb
  writecb : s.writecb = writecb
  received : s.received = received
  reports : s.reports = reports

/-- The stages of the handshake. -/
inductive Stage (s : ProxyCnx) : Prop
  | connecting (h : s.At .connecting .none none (some .mevSocks5ProxyWritecb) [] [])
  | greeting (h : s.At .connected .greeting (some .mevSocks5ProxyReadcb) none [] [])
  | request (h : s.At .connected .writeRequestNext none (some .mevSocks5ProxyWritecb) method [])
  | reply (h : s.At .connected .readRespNext (some .mevSocks5ProxyReadcb) none method [])
  | refused (mem : Bytes) (hlen : mem.length = 10) (hmem : mem.take 4 ≠ granted)
      (h : s.At .connected .readRespNext (some .mevSocks5ProxyReadcb) none (method ++ mem)
        [.onError])
  /-- After a refusal, a hangup has closed the socket. -/
  | hungUp (mem : Bytes) (hlen : mem.length = 10) (hmem : mem.take 4 ≠ granted)
      (h : s.At .closed .greeting (some .mevSocks5ProxyReadcb) none (method ++ mem) [.onError])
  | tunnel (mem : Bytes) (hlen : mem.length = 10) (hmem : mem.take 4 = granted)
      (hstate : s.state = .connected) (hreceived : s.received = method ++ mem)
      (hreports : s.reports = [])

/-- The handshake is in one of its stages, and no byte is lost. -/
structure Proceeds (s : ProxyCnx) : Prop where
  stage : s.Stage
  bytes : s.received ++ s.incoming = s.fromProxy

/-- Only twelve bytes are a reply. -/
theorem not_replies_of_length {reply received : Bytes} (h : received.length ≠ 12) :
    ¬Replies reply received := by
  rintro ⟨rfl, hlen⟩
  apply h
  rw [List.length_append, hlen]
  rfl

/-- A reply behind the method. -/
theorem replies_append {reply mem : Bytes} :
    Replies reply (method ++ mem) ↔ reply = mem ∧ mem.length = 10 := by
  constructor
  · rintro ⟨h, hlen⟩
    have hmem : mem = reply := List.append_cancel_left h
    exact ⟨hmem.symm, hmem ▸ hlen⟩
  · rintro ⟨rfl, hlen⟩
    exact ⟨rfl, hlen⟩

/-- Before the reply was received. -/
theorem handshakes_of_short (hstate : s.state = .connecting) (hreports : s.reports = [])
    (hlen : s.received.length ≠ 12) (hwaits : s.Waits)
    (hbytes : s.received ++ s.incoming = s.fromProxy) : s.Handshakes := by
  constructor
  · simp [hstate, not_replies_of_length hlen]
  · simp [hreports, not_replies_of_length hlen]
  · simp [hreports]
  · intro _ _
    exact hwaits
  · exact hbytes

/-- After the reply. -/
theorem handshakes_of_reply {mem : Bytes} (hlen : mem.length = 10)
    (hreceived : s.received = method ++ mem)
    (hstate : s.state = .connected ↔ mem.take 4 = granted)
    (hreports : s.reports = if mem.take 4 = granted then [] else [.onError])
    (hbytes : s.received ++ s.incoming = s.fromProxy) : s.Handshakes := by
  constructor
  · simp [hstate, hreceived, replies_append, hlen]
  · rw [hreceived, hreports]
    simp only [replies_append]
    split <;> simp_all
  · rw [hreports]
    split <;> simp
  · intro hover hnone
    refine absurd (hstate.mpr ?_) fun h => hover (Or.inl h)
    by_contra hmem
    simp [hreports, hmem] at hnone
  · exact hbytes

/-- A connection that proceeds shakes hands. -/
theorem Proceeds.handshakes (h : s.Proceeds) : s.Handshakes := by
  cases h.stage with
  | connecting hs =>
    refine handshakes_of_short hs.state hs.reports ?_ (Or.inl hs.mevState) h.bytes
    simp [hs.received]
  | greeting hs =>
    refine handshakes_of_short hs.state hs.reports ?_ (Or.inr ⟨hs.mevState, Or.inl ?_⟩) h.bytes
    · simp [hs.received]
    · exact ⟨Or.inl hs.socks5State, hs.readcb⟩
  | request hs =>
    refine handshakes_of_short hs.state hs.reports ?_ (Or.inr ⟨hs.mevState, Or.inr ?_⟩) h.bytes
    · simp [hs.received, method]
    · exact ⟨hs.socks5State, hs.writecb⟩
  | reply hs =>
    refine handshakes_of_short hs.state hs.reports ?_ (Or.inr ⟨hs.mevState, Or.inl ?_⟩) h.bytes
    · simp [hs.received, method]
    · exact ⟨Or.inr hs.socks5State, hs.readcb⟩
  | refused mem hlen hmem hs | hungUp mem hlen hmem hs =>
    refine handshakes_of_reply hlen hs.received ?_ ?_ h.bytes
    · simp [hs.state, hmem]
    · simp [hs.reports, hmem]
  | tunnel mem hlen hmem hstate hreceived hreports =>
    refine handshakes_of_reply hlen hreceived ?_ ?_ h.bytes
    · simp [hstate, hmem]
    · simp [hreports, hmem]

/-! ## The parts of `trigger` -/

/-- The connection when a hangup was taken for the event that the proxy is connected. -/
def greetedAgain (s : ProxyCnx) : ProxyCnx :=
  { s with
    sent := s.sent ++ [5, 1, 0]
    socks5State := .greeting
    readcb := some .mevSocks5ProxyReadcb
    writecb := none
    mevState := .closed }

/-- With `EPOLLERR` the event fails. -/
theorem trigger_of_err (herr : t.epollerr = true) : ∃ f, s.trigger t = .error f := by
  unfold trigger
  split
  · exact ⟨.eventcb, by simp [onErr, hangup, herr, mevSocks5ProxyEventcb, MevEvent.has,
      MevEvent.value, bind, Except.bind]⟩
  · exact ⟨_, rfl⟩

theorem trigger_of_not_alive (h : ¬(s.mevState = .connecting ∨ s.mevState = .connected)) :
    s.trigger t = .error .triggerState := if_neg h

/-- With `EPOLLRDHUP` the greeting is sent a second time. -/
theorem trigger_of_rdhup (halive : s.mevState = .connecting ∨ s.mevState = .connected)
    (herr : t.epollerr = false) (hrdhup : t.epollrdhup = true) :
    s.trigger t =
      if t.greeted = 3 then s.greetedAgain.onIn t else .error .writeGreeting := by
  have hconnected : MevEvent.eof.has .connected = true := by decide
  have hout : s.greetedAgain.onOut t = .ok s.greetedAgain := by
    simp [onOut, greetedAgain]
  rw [trigger, if_pos halive]
  by_cases hgreeted : t.greeted = 3
  · have hhup : s.onRdhup t = .ok s.greetedAgain := by
      simp [onRdhup, hangup, hrdhup, mevSocks5ProxyEventcb, hconnected, onSocks5ProxyConnected,
        hgreeted, greetedAgain]
    simp [onErr, hangup, herr, hhup, hout, hgreeted, bind, Except.bind]
  · have hhup : s.onRdhup t = .error .writeGreeting := by
      simp [onRdhup, hangup, hrdhup, mevSocks5ProxyEventcb, hconnected, onSocks5ProxyConnected,
        hgreeted]
    simp [onErr, hangup, herr, hhup, hgreeted, bind, Except.bind]

/-- Without `EPOLLERR` and `EPOLLRDHUP` output goes before input. -/
theorem trigger_of_quiet (halive : s.mevState = .connecting ∨ s.mevState = .connected)
    (herr : t.epollerr = false) (hrdhup : t.epollrdhup = false) :
    s.trigger t = s.onOut t >>= fun u => u.onIn t := by
  rw [trigger, if_pos halive]
  simp [onErr, onRdhup, hangup, herr, hrdhup, bind, Except.bind]

/-- What is the same when the read handler runs, and where the handshake stands then. -/
structure Reached (s : ProxyCnx) (t : ProxyTrigger) (u : ProxyCnx) : Prop where
  stage : u.Stage
  state : u.state = .connecting
  mevState : u.mevState ≠ .closed
  socks5State : u.socks5State = s.atRead t
  incoming : u.incoming = s.incoming
  received : u.received = s.received
  fromProxy : u.fromProxy = s.fromProxy
  reports : u.reports = s.reports

/-- The writable socket of a connection to the proxy. -/
theorem onOut_of_connecting (hout : t.epollout = true) (hmev : s.mevState = .connecting) :
    s.onOut t = onSocks5ProxyConnected { s with mevState := .connected } t.written := by
  have hconnected : MevEvent.connected.has .connected = true := by decide
  rw [onOut, if_pos hout, if_pos hmev, mevSocks5ProxyEventcb, if_pos hconnected]

/-- A writable socket that nobody writes to. -/
theorem onOut_of_none (hmev : s.mevState ≠ .connecting) (hcb : s.writecb = none) :
    s.onOut t = .ok s := by
  unfold onOut
  rw [if_neg hmev, hcb]
  split <;> rfl

/-- The request is written. -/
theorem onOut_of_request (hout : t.epollout = true) (hmev : s.mevState ≠ .connecting)
    (hcb : s.writecb = some .mevSocks5ProxyWritecb) :
    s.onOut t = s.onSocks5ProxyWritable t.written := by
  rw [onOut, if_pos hout, if_neg hmev, hcb]

theorem reached_self (h : s.Stage) (hstate : s.state = .connecting)
    (hmev : s.mevState ≠ .closed) (hread : s.socks5State = s.atRead t) : s.Reached t s :=
  ⟨h, hstate, hmev, hread, rfl, rfl, rfl, rfl⟩

/-- The part for a writable socket. -/
theorem onOut_cases (h : s.Stage) (hstate : s.state = .connecting) (hmev : s.mevState ≠ .closed) :
    (∃ u, s.onOut t = .ok u ∧ s.Reached t u ∧ s.WritesAll t) ∨
      (∃ f, s.onOut t = .error f) ∧ ¬s.WritesAll t := by
  cases hout : t.epollout with
  | false =>
    refine Or.inl ⟨s, by simp [onOut, hout], reached_self h hstate hmev (by simp [atRead, hout]),
      ?_⟩
    exact ⟨by simp [hout], by simp [hout]⟩
  | true =>
    have hstage := h
    cases h with
    | connecting hs =>
      rw [onOut_of_connecting hout hs.mevState, onSocks5ProxyConnected]
      by_cases hwritten : t.written = 3
      · rw [if_pos hwritten]
        refine Or.inl ⟨_, rfl, ?_, fun _ _ => hwritten, fun _ hne => absurd hs.mevState hne⟩
        constructor
        · exact .greeting ⟨hs.state, hs.enabled, rfl, rfl, rfl, rfl, hs.received, hs.reports⟩
        · exact hs.state
        · simp
        · simp [atRead, hout, hs.mevState]
        all_goals rfl
      · rw [if_neg hwritten]
        exact Or.inr ⟨⟨_, rfl⟩, fun hw => hwritten (hw.greeting hout hs.mevState)⟩
    | request hs =>
      have hne : s.mevState ≠ .connecting := by simp [hs.mevState]
      rw [onOut_of_request hout hne hs.writecb, onSocks5ProxyWritable, if_pos hs.socks5State]
      by_cases haddr : s.target.1 = 0
      · rw [if_pos haddr]
        exact Or.inr ⟨⟨_, rfl⟩, fun hw => (hw.request hout hne hs.socks5State).1 haddr⟩
      rw [if_neg haddr]
      by_cases hport : s.target.2 = 0
      · rw [if_pos hport]
        exact Or.inr ⟨⟨_, rfl⟩, fun hw => (hw.request hout hne hs.socks5State).2.1 hport⟩
      rw [if_neg hport]
      have hlen : ([5, 1, 0, 1] ++ addrBytes s.target.1 ++ portBytes s.target.2).length = 10 := by
        simp [addrBytes, portBytes]
      dsimp only
      rw [hlen]
      by_cases hwritten : t.written = 10
      · rw [if_pos hwritten]
        refine Or.inl ⟨_, rfl, ?_, fun _ hc => absurd hc hne, fun _ _ _ => ⟨haddr, hport, hwritten⟩⟩
        constructor
        · exact .reply ⟨hs.state, hs.enabled, hs.mevState, rfl, rfl, rfl, hs.received, hs.reports⟩
        · exact hs.state
        · simp [hs.mevState]
        · simp [atRead, hout, hs.mevState, hs.socks5State]
        all_goals rfl
      · rw [if_neg hwritten]
        exact Or.inr ⟨⟨_, rfl⟩, fun hw => hwritten (hw.request hout hne hs.socks5State).2.2⟩
    | greeting hs | reply hs | refused _ _ _ hs =>
      have hne : s.mevState ≠ .connecting := by simp [hs.mevState]
      refine Or.inl ⟨s, onOut_of_none hne hs.writecb, reached_self hstage hstate hmev ?_, ?_⟩
      · simp [atRead, hout, hs.mevState, hs.socks5State]
      · exact ⟨fun _ hc => absurd hc hne, fun _ _ hc => by simp [hs.socks5State] at hc⟩
    | hungUp _ _ _ hs => exact absurd hs.mevState hmev
    | tunnel _ _ _ hc => simp [hstate] at hc

/-- Reading moves bytes from those that are there to those that were received. -/
theorem bytes_read (len : Nat) (r : ProxyRead) (h : s.received ++ s.incoming = s.fromProxy) :
    (s.read len r).received ++ (s.read len r).incoming = (s.read len r).fromProxy := by
  have hgot : s.got len r ++ s.incoming.drop (s.got len r).length = s.incoming := by
    have hpre : s.got len r <+: s.incoming := by
      unfold got
      split
      · exact (List.take_prefix _ _).trans (List.take_prefix _ _)
      · exact List.nil_prefix
    obtain ⟨rest, hrest⟩ := hpre
    rw [← hrest]
    simp
  unfold read
  dsimp only
  rw [List.append_assoc, hgot, h]

/-- Without input or a callback nothing is read. -/
theorem onIn_of_not_readable (h : t.epollin = false ∨ s.readcb = none) : s.onIn t = .ok s := by
  unfold onIn
  rcases h with h | h
  · simp [h]
  · rw [h]
    split <;> rfl

theorem onIn_of_readable (hin : t.epollin = true) (hcb : s.readcb = some .mevSocks5ProxyReadcb) :
    s.onIn t = s.onSocks5ProxyReadable t.read := by
  rw [onIn, if_pos hin, hcb]

/-- The handler while the method is awaited. -/
theorem onSocks5ProxyReadable_of_greeting {r : ProxyRead} (hsocks : s.socks5State = .greeting) :
    s.onSocks5ProxyReadable r =
      if (s.got 2 r).length ≠ 2 then .error .readMethod
      else if s.got 2 r ≠ method then .error .method
      else .ok
        { s.read 2 r with
          socks5State := .writeRequestNext
          writecb := some .mevSocks5ProxyWritecb
          readcb := none } := by
  unfold onSocks5ProxyReadable
  rw [hsocks]

/-- The handler while the reply is awaited. -/
theorem onSocks5ProxyReadable_of_readRespNext {r : ProxyRead}
    (hsocks : s.socks5State = .readRespNext) (henabled : s.writeToServerEnabled = false) :
    s.onSocks5ProxyReadable r =
      if (s.got 10 r).length ≠ 10 then .error .readReply
      else if (s.got 10 r).take 4 ≠ granted then
        .ok { s.read 10 r with reports := s.reports ++ [.onError] }
      else .ok
        { s.read 10 r with
          state := .connected
          socks5State := .none
          readcb := some .mevReadcb
          writecb := some .mevWritecb
          eventcb := .mevEventcb
          writeToServerEnabled := true } := by
  unfold onSocks5ProxyReadable
  rw [hsocks]
  simp [henabled]

/-- A handler that gets no method fails. -/
theorem onSocks5ProxyReadable_of_ne_method {r : ProxyRead} (hsocks : s.socks5State = .greeting)
    (h : s.got 2 r ≠ method) : ∃ f, s.onSocks5ProxyReadable r = .error f := by
  rw [onSocks5ProxyReadable_of_greeting hsocks, if_pos h]
  split <;> exact ⟨_, rfl⟩

/-- The part for a readable socket. -/
theorem onIn_cases (h : s.Proceeds) (hstate : s.state = .connecting) (hmev : s.mevState ≠ .closed) :
    (∃ s', s.onIn t = .ok s' ∧ s'.Proceeds ∧ s.ReadsAll t s.socks5State) ∨
      (∀ s', s.onIn t = .ok s' → ¬s'.Handshakes) ∧ ¬s.ReadsAll t s.socks5State := by
  cases hin : t.epollin with
  | false =>
    refine Or.inl ⟨s, onIn_of_not_readable (Or.inl hin), h, ?_⟩
    exact ⟨by simp [hin], by simp [hin]⟩
  | true =>
    cases h.stage with
    | connecting hs | request hs =>
      refine Or.inl ⟨s, onIn_of_not_readable (Or.inr hs.readcb), h, ?_⟩
      exact ⟨by simp [hs.socks5State], by simp [hs.socks5State]⟩
    | greeting hs =>
      rw [onIn_of_readable hin hs.readcb]
      by_cases hmethod : s.got 2 t.read = method
      · have hlen : (s.got 2 t.read).length = 2 := by rw [hmethod, method, List.length_cons]; rfl
        rw [onSocks5ProxyReadable_of_greeting hs.socks5State, if_neg (not_not.mpr hlen),
          if_neg (not_not.mpr hmethod)]
        refine Or.inl ⟨_, rfl, ⟨?_, bytes_read 2 t.read h.bytes⟩, ?_⟩
        · refine .request ⟨hs.state, hs.enabled, hs.mevState, rfl, rfl, rfl, ?_, hs.reports⟩
          simp [read, hs.received, hmethod]
        · exact ⟨fun _ _ => hmethod, by simp [hs.socks5State]⟩
      · obtain ⟨f, hf⟩ := onSocks5ProxyReadable_of_ne_method hs.socks5State hmethod
        refine Or.inr ⟨fun s' hs' => ?_, fun hr => hmethod (hr.method hin hs.socks5State)⟩
        simp [hf] at hs'
    | reply hs =>
      rw [onIn_of_readable hin hs.readcb,
        onSocks5ProxyReadable_of_readRespNext hs.socks5State hs.enabled]
      have hreceived : (s.read 10 t.read).received = method ++ s.got 10 t.read := by
        rw [read, hs.received]
      by_cases hlen : (s.got 10 t.read).length = 10
      · have hreads : s.ReadsAll t s.socks5State :=
          ⟨by simp [hs.socks5State], fun _ _ => ⟨hs.reports, hlen⟩⟩
        rw [if_neg (not_not.mpr hlen)]
        by_cases hgranted : (s.got 10 t.read).take 4 = granted
        · rw [if_neg (not_not.mpr hgranted)]
          refine Or.inl ⟨_, rfl, ⟨?_, bytes_read 10 t.read h.bytes⟩, hreads⟩
          exact .tunnel _ hlen hgranted rfl hreceived hs.reports
        · rw [if_pos hgranted]
          refine Or.inl ⟨_, rfl, ⟨?_, bytes_read 10 t.read h.bytes⟩, hreads⟩
          refine .refused _ hlen hgranted ⟨hs.state, hs.enabled, hs.mevState, hs.socks5State,
            hs.readcb, hs.writecb, hreceived, ?_⟩
          simp [hs.reports]
      · refine Or.inr ⟨fun s' hs' => ?_, fun hr => hlen (hr.reply hin hs.socks5State).2⟩
        simp [hlen] at hs'
    | refused mem hmem _ hs =>
      -- a second reply: the failure would be reported twice, or the tunnel opened after it
      have hnone : s.reports ≠ [] := by simp [hs.reports]
      refine Or.inr ⟨fun s' hs' => ?_, fun hr => hnone (hr.reply hin hs.socks5State).1⟩
      rw [onIn_of_readable hin hs.readcb,
        onSocks5ProxyReadable_of_readRespNext hs.socks5State hs.enabled] at hs'
      by_cases hlen : (s.got 10 t.read).length = 10
      · rw [if_neg (not_not.mpr hlen)] at hs'
        by_cases hgranted : (s.got 10 t.read).take 4 = granted
        · rw [if_neg (not_not.mpr hgranted)] at hs'
          obtain rfl := Except.ok.inj hs'
          intro hgood
          obtain ⟨reply, hreply, -⟩ := hgood.connected.mp rfl
          refine not_replies_of_length ?_ hreply
          simp [read, hs.received, hmem, hlen, method]
        · rw [if_pos hgranted] at hs'
          obtain rfl := Except.ok.inj hs'
          intro hgood
          simpa [hs.reports] using hgood.once
      · simp [hlen] at hs'
    | hungUp _ _ _ hs => exact absurd hs.mevState hmev
    | tunnel _ _ _ hc => simp [hstate] at hc

/-- What is left of a connection whose socket was closed by a hangup. -/
theorem onIn_greetedAgain {s' : ProxyCnx} (h : s.greetedAgain.onIn t = .ok s') :
    s'.mevState = .closed ∧ s'.state = s.state ∧ s'.deleted = s.deleted ∧ s'.reports = s.reports ∧
      (t.epollin = true → s'.received = s.received ++ method) := by
  cases hin : t.epollin with
  | false =>
    rw [onIn_of_not_readable (Or.inl hin)] at h
    obtain rfl := Except.ok.inj h
    exact ⟨rfl, rfl, rfl, rfl, by simp⟩
  | true =>
    rw [onIn_of_readable hin rfl] at h
    by_cases hmethod : s.greetedAgain.got 2 t.read = method
    · have hlen : (s.greetedAgain.got 2 t.read).length = 2 := by
        rw [hmethod, method, List.length_cons]; rfl
      rw [onSocks5ProxyReadable_of_greeting rfl, if_neg (not_not.mpr hlen),
        if_neg (not_not.mpr hmethod)] at h
      obtain rfl := Except.ok.inj h
      refine ⟨rfl, rfl, rfl, rfl, fun _ => ?_⟩
      rw [← hmethod]
      rfl
    · obtain ⟨f, hf⟩ := onSocks5ProxyReadable_of_ne_method rfl hmethod
      simp [hf] at h

/-- A hangup before the reply leaves a socket that nothing can be triggered for, and one after a
refusal is harmless if nothing is read then. -/
theorem trigger_of_hangup (h : s.Proceeds) (hover : ¬s.Over)
    (halive : s.mevState = .connecting ∨ s.mevState = .connected)
    (herr : t.epollerr = false) (hrdhup : t.epollrdhup = true) :
    (∃ s', s.trigger t = .ok s' ∧ s'.Proceeds ∧ s.SmoothTrigger t) ∨
      (∀ s', s.trigger t = .ok s' → ¬s'.Handshakes) ∧ ¬s.SmoothTrigger t := by
  obtain ⟨hstate, hdeleted⟩ : ¬s.state = .connected ∧ ¬s.deleted = true := not_or.mp hover
  rw [trigger_of_rdhup halive herr hrdhup]
  by_cases hgreeted : t.greeted = 3
  swap
  · rw [if_neg hgreeted]
    exact Or.inr ⟨by simp, fun hsmooth => hgreeted (hsmooth.rdhup hrdhup).2.1⟩
  rw [if_pos hgreeted]
  by_cases hreports : s.reports = []
  · refine Or.inr ⟨fun s' hs' hgood => ?_, fun hsmooth => (hsmooth.rdhup hrdhup).1 hreports⟩
    obtain ⟨hmev, hstate', hdeleted', hreports', -⟩ := onIn_greetedAgain hs'
    have hover' : ¬s'.Over := by
      unfold Over
      rw [hstate', hdeleted']
      exact hover
    rcases hgood.waits hover' (hreports'.trans hreports) with hw | ⟨hw, -⟩ <;> simp [hmev] at hw
  · cases h.stage with
    | connecting hs | greeting hs | request hs | reply hs => exact absurd hs.reports hreports
    | tunnel _ _ _ _ _ hs => exact absurd hs hreports
    | hungUp _ _ _ hs => simp [hs.mevState] at halive
    | refused mem hlen hmem hs =>
      cases hin : t.epollin with
      | false =>
        refine Or.inl ⟨_, onIn_of_not_readable (Or.inl hin), ⟨?_, h.bytes⟩, halive, herr, ?_, ?_,
          ?_⟩
        · exact .hungUp mem hlen hmem
            ⟨hs.state, hs.enabled, rfl, rfl, rfl, rfl, hs.received, hs.reports⟩
        · exact fun _ => ⟨hreports, hgreeted, hin⟩
        · exact ⟨by simp [hs.mevState], by simp [hs.socks5State]⟩
        · exact ⟨by simp [hin], by simp [hin]⟩
      | true =>
        refine Or.inr ⟨fun s' hs' hgood => ?_, fun hsmooth => ?_⟩
        · obtain ⟨-, -, -, hreports', hreceived⟩ := onIn_greetedAgain hs'
          obtain ⟨reply, hreply, -⟩ := hgood.failed.mp (hreports' ▸ hreports)
          refine not_replies_of_length ?_ hreply
          simp [hreceived hin, hs.received, hlen, method]
        · simpa [hin] using (hsmooth.rdhup hrdhup).2.2

/-- A trigger that is smooth takes the handshake on, and any other one spoils it. -/
theorem trigger_cases (h : s.Proceeds) (hover : ¬s.Over) :
    (∃ s', s.trigger t = .ok s' ∧ s'.Proceeds ∧ s.SmoothTrigger t) ∨
      (∀ s', s.trigger t = .ok s' → ¬s'.Handshakes) ∧ ¬s.SmoothTrigger t := by
  have hstate : s.state = .connecting := by
    cases hs : s.state with
    | connecting => rfl
    | connected => exact absurd (Or.inl hs) hover
  by_cases halive : s.mevState = .connecting ∨ s.mevState = .connected
  swap
  · rw [trigger_of_not_alive halive]
    exact Or.inr ⟨by simp, fun hsmooth => halive hsmooth.alive⟩
  cases herr : t.epollerr with
  | true =>
    obtain ⟨f, hf⟩ := trigger_of_err (s := s) herr
    exact Or.inr ⟨by simp [hf], fun hsmooth => by simpa [herr] using hsmooth.err⟩
  | false =>
    cases hrdhup : t.epollrdhup with
    | true => exact trigger_of_hangup h hover halive herr hrdhup
    | false =>
      have hmev : s.mevState ≠ .closed := by rcases halive with hm | hm <;> simp [hm]
      rw [trigger_of_quiet halive herr hrdhup]
      rcases onOut_cases (t := t) h.stage hstate hmev with
        ⟨u, hu, hreached, hwrites⟩ | ⟨⟨f, hf⟩, hwrites⟩
      swap
      · exact Or.inr ⟨by simp [hf, bind, Except.bind], fun hsmooth => hwrites hsmooth.writes⟩
      have hproceeds : u.Proceeds := by
        refine ⟨hreached.stage, ?_⟩
        rw [hreached.received, hreached.incoming, hreached.fromProxy]
        exact h.bytes
      have hgot (len : Nat) : u.got len t.read = s.got len t.read := by
        unfold got
        rw [hreached.incoming]
      have hreads : u.ReadsAll t u.socks5State ↔ s.ReadsAll t (s.atRead t) := by
        rw [hreached.socks5State]
        constructor
        · intro hr
          exact ⟨hgot 2 ▸ hr.method, hreached.reports ▸ hgot 10 ▸ hr.reply⟩
        · intro hr
          exact ⟨hgot 2 ▸ hr.method, hreached.reports ▸ hgot 10 ▸ hr.reply⟩
      simp only [hu, bind, Except.bind]
      rcases onIn_cases (t := t) hproceeds hreached.state hreached.mevState with
        ⟨s', hs', hproceeds', hr⟩ | ⟨hbad, hr⟩
      · refine Or.inl ⟨s', hs', hproceeds', halive, herr, ?_, hwrites, hreads.mp hr⟩
        simp [hrdhup]
      · exact Or.inr ⟨hbad, fun hsmooth => hr (hreads.mpr hsmooth.reads)⟩

/-! ## Runs -/

/-- The stage depends neither on the bytes of the proxy nor on the deletion. -/
theorem Stage.frame (h : s.Stage) (deleted : Bool) (incoming fromProxy : Bytes) :
    Stage { s with deleted := deleted, incoming := incoming, fromProxy := fromProxy } := by
  cases h with
  | connecting hs => exact .connecting { hs with }
  | greeting hs => exact .greeting { hs with }
  | request hs => exact .request { hs with }
  | reply hs => exact .reply { hs with }
  | refused mem hlen hmem hs => exact .refused mem hlen hmem { hs with }
  | hungUp mem hlen hmem hs => exact .hungUp mem hlen hmem { hs with }
  | tunnel mem hlen hmem hstate hreceived hreports =>
    exact .tunnel mem hlen hmem hstate hreceived hreports

/-- A smooth step. -/
theorem Proceeds.step {e : ProxyEvent} (h : s.Proceeds) (hsmooth : s.Smooth e) :
    ∃ s', s.step e = .ok s' ∧ s'.Proceeds := by
  cases e with
  | arrive bs =>
    refine ⟨_, rfl, h.stage.frame s.deleted _ _, ?_⟩
    rw [← h.bytes, List.append_assoc]
  | delete => exact ⟨_, rfl, h.stage.frame true s.incoming s.fromProxy, h.bytes⟩
  | trigger t =>
    by_cases hover : s.Over
    · exact ⟨s, if_pos hover, h⟩
    · rcases trigger_cases (t := t) h hover with ⟨s', hs', hproceeds, -⟩ | ⟨-, hnot⟩
      · exact ⟨s', (if_neg hover).trans hs', hproceeds⟩
      · exact absurd (hsmooth hover) hnot

/-- Any other step. -/
theorem Proceeds.not_handshakes_step {e : ProxyEvent} {s' : ProxyCnx} (h : s.Proceeds)
    (hsmooth : ¬s.Smooth e) (hstep : s.step e = .ok s') : ¬s'.Handshakes := by
  cases e with
  | arrive bs => exact absurd trivial hsmooth
  | delete => exact absurd trivial hsmooth
  | trigger t =>
    obtain ⟨hover, hnot⟩ : ¬s.Over ∧ ¬s.SmoothTrigger t := Classical.not_imp.mp hsmooth
    have htrigger : s.trigger t = .ok s' := (if_neg hover).symm.trans hstep
    rcases trigger_cases (t := t) h hover with ⟨-, -, -, hyes⟩ | ⟨hbad, -⟩
    · exact absurd hyes hnot
    · exact hbad s' htrigger

/-- A run never aborts and all its states are states of a handshake just if `connect` is in progress
at first and all triggers are smooth. -/
theorem handshakes_iff_smooth (addr : UInt32) (port : UInt16) (sspAddr : UInt32) (sspPort : UInt16)
    (atOnce : Bool) (es : List ProxyEvent) :
    (∀ fs, fs <+: es → ∃ s, runSteps step (initiate addr port sspAddr sspPort atOnce) fs = .ok s ∧
        s.Handshakes) ↔
      atOnce = false ∧ StepsMeet step Smooth (initiate addr port sspAddr sspPort atOnce) es := by
  cases atOnce with
  | true =>
    -- the event that takes the handshake on is never reported
    simp only [Bool.true_eq_false, false_and, iff_false]
    intro h
    obtain ⟨s, hs, hgood⟩ := h [] List.nil_prefix
    obtain rfl := Except.ok.inj hs
    exact absurd (hgood.waits (by simp [Over, initiate]) rfl) (by simp [Waits, initiate])
  | false =>
    have hproceeds : (initiate addr port sspAddr sspPort false).Proceeds :=
      ⟨.connecting ⟨rfl, rfl, rfl, rfl, rfl, rfl, rfl, rfl⟩, rfl⟩
    rw [forall_prefix_ok_iff_stepsMeet Proceeds Handshakes (fun _ h => h.handshakes)
      (fun _ _ h hsmooth => h.step hsmooth)
      (fun _ _ _ h hsmooth hstep => h.not_handshakes_step hsmooth hstep) hproceeds]
    simp

/-- A trigger without error and hangup, for which `write` accepts everything. -/
def quiet (epollin epollout : Bool) (written : Nat) (read : ProxyRead) : ProxyTrigger where
  epollin := epollin
  epollout := epollout
  epollerr := false
  epollrdhup := false
  greeted := 0
  written := written
  read := read

/-- The tunnel to port 80 of 10.0.0.1. -/
example :
    (runSteps step (initiate 0x0100000a 80 0 0 false)
        [.trigger (quiet false true 3 .wouldBlock), .arrive [5, 0],
          .trigger (quiet true true 3 (.bytes 2)), .trigger (quiet false true 10 .wouldBlock),
          .arrive [5, 0, 0, 1, 10, 0, 0, 1, 0, 80, 7],
          .trigger (quiet true false 0 (.bytes 11))]).map
      (fun s => (s.state, s.sent, s.incoming)) =
    .ok (.connected, [5, 1, 0, 5, 1, 0, 1, 10, 0, 0, 1, 0, 80], [7]) := by decide +kernel

/-- The proxy chooses a method, and its answer arrives one byte at a time. -/
theorem not_handshakes_shortRead :
    ¬∀ fs, fs <+: [.trigger (quiet false true 3 .wouldBlock), .arrive [5],
        .trigger (quiet true false 0 (.bytes 2)), .arrive [0]] →
      ∃ s, runSteps step (initiate 0x0100000a 80 0 0 false) fs = .ok s ∧ s.Handshakes := by
  intro h
  obtain ⟨s, hs, -⟩ := h _ List.prefix_rfl
  have hfault : runSteps step (initiate 0x0100000a 80 0 0 false)
      [.trigger (quiet false true 3 .wouldBlock), .arrive [5],
        .trigger (quiet true false 0 (.bytes 2)), .arrive [0]] = .error .readMethod := by rfl
  simp [hfault] at hs

end ProxyCnx

end ShadowExtras.Web
