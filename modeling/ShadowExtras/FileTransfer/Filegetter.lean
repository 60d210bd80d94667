import ShadowExtras.Foundation.Stream
import ShadowExtras.FileTransfer.Defs

/-!
# The file getter

`filegetter.c`: a minimal HTTP client that downloads one file after the other, directly or through a
SOCKS proxy. `filegetter_activate` is a state machine: two of its states call `send` or `recv`, the
others prepare what is to be sent or look at what was received and go on to another state. Requests
and replies go through one buffer; the bytes from `buf_read_offset` to `buf_write_offset` are those
still to be sent or looked at.

An activation takes what the environment does: the outcome of each `send` or `recv` in order, with
what happens up to the next one (the readings of the clock, whether writing to the local file
succeeds, and a reconnection when the proxy asks for one). When the outcomes run out, `send` or
`recv` would block. A state that continues with `goto start` calls the function of the next state.

An assertion that fails and a write outside the buffer end the run with a `Fault`.
-/

namespace ShadowExtras.FileTransfer

open Foundation

/-- `enum filegetter_code` -/
inductive GetterCode
  | success | errInvalid | errFatal | errNotstarted | errNeedfspec | errSocket | errSocksinit
  | errSocksconn | errHttpconn | errFopen | errClose | errWouldblock | errSend | errRecv | closed
  | ok200 | err404
  deriving DecidableEq, Repr

/-- `enum filegetter_state` -/
inductive GetterState
  | idle | spec | send | receive | checkDownload | requestSocksInit | toReplySocksInit
  | replySocksInit | requestSocksConn | toReplySocksConn | replySocksConn | requestHttp
  | toReplyHttp | replyHttp
  deriving DecidableEq, Repr

/-- What ends the run of a program. -/
inductive Fault
  | assertion
  /-- An access outside of `fg->buf` or of a field of the server specification. -/
  | outOfBounds
  deriving DecidableEq, Repr

/-! ## Time -/

/-- `struct timespec` -/
@[ext] structure Timespec where
  sec : Int
  nsec : Int
  deriving DecidableEq, Repr

/-- `while(tv_nsec < 0)`: borrow seconds, one in each round. -/
def Timespec.borrow : Nat → Timespec → Timespec
  | 0, t => t
  | rounds + 1, t =>
    if t.nsec < 0 then borrow rounds { sec := t.sec - 1, nsec := t.nsec + 1000000000 } else t

/-- `while(tv_nsec >= 1000000000)`: carry seconds, one in each round. -/
def Timespec.carry : Nat → Timespec → Timespec
  | 0, t => t
  | rounds + 1, t =>
    if t.nsec ≥ 1000000000 then
      carry rounds { sec := t.sec + 1, nsec := t.nsec - 1000000000 }
    else t

/-- The time from `start` to `stop`; each round adds to `tv_nsec`, so there are at most as many as
it is below zero. -/
def Timespec.since (stop start : Timespec) : Timespec :=
  let t : Timespec := { sec := stop.sec - start.sec, nsec := stop.nsec - start.nsec }
  t.borrow (-t.nsec).toNat

/-- The sum of two times; each round takes from `tv_nsec`. -/
def Timespec.plus (a b : Timespec) : Timespec :=
  let t : Timespec := { sec := a.sec + b.sec, nsec := a.nsec + b.nsec }
  t.carry t.nsec.toNat

/-- A time in nanoseconds. -/
def Timespec.nanoseconds (t : Timespec) : Int := t.sec * 1000000000 + t.nsec

/-- A carried second is the same time. -/
theorem Timespec.nanoseconds_carry (rounds : Nat) (t : Timespec) :
    (t.carry rounds).nanoseconds = t.nanoseconds := by
  induction rounds generalizing t with
  | zero => rfl
  | succ rounds ih =>
    rw [carry]
    split
    · rw [ih, nanoseconds, nanoseconds]
      dsimp only
      omega
    · rfl

/-- The sum of two times is exact. -/
theorem Timespec.nanoseconds_plus (a b : Timespec) :
    (a.plus b).nanoseconds = a.nanoseconds + b.nanoseconds := by
  rw [plus, nanoseconds_carry, nanoseconds, nanoseconds, nanoseconds]
  dsimp only
  omega

/-! ## The getter -/

/-- `filegetter_filestats_t` -/
structure FileStats where
  firstByteTime : Timespec
  downloadTime : Timespec
  bodyBytesDownloaded : Nat
  bodyBytesExpected : Nat
  bytesDownloaded : Nat
  bytesUploaded : Nat
  deriving DecidableEq, Repr

/-- Zeroed statistics. -/
def FileStats.zero : FileStats where
  firstByteTime := ⟨0, 0⟩
  downloadTime := ⟨0, 0⟩
  bodyBytesDownloaded := 0
  bodyBytesExpected := 0
  bytesDownloaded := 0
  bytesUploaded := 0

/-- `filegetter_filespec_t` -/
structure FileSpec where
  remotePath : Bytes
  localPath : Bytes
  doSave : Bool
  saveToMemory : Bool
  deriving DecidableEq, Repr

/-- An address or a port as its bytes in memory. -/
abbrev Octets (n : Nat) := { bytes : Bytes // bytes.length = n }

/-- `filegetter_serverspec_t` -/
structure ServerSpec where
  httpHostname : Bytes
  httpAddr : Octets 4
  httpPort : Octets 2
  socksAddr : Octets 4
  socksPort : Octets 2
  persistent : Bool
  useHostname : Bool
  hostnameLength : Nat
  deriving DecidableEq, Repr

/-- A zeroed specification. -/
def ServerSpec.zero : ServerSpec where
  httpHostname := []
  httpAddr := ⟨[0, 0, 0, 0], rfl⟩
  httpPort := ⟨[0, 0], rfl⟩
  socksAddr := ⟨[0, 0, 0, 0], rfl⟩
  socksPort := ⟨[0, 0], rfl⟩
  persistent := false
  useHostname := false
  hostnameLength := 0

/-- Is there a SOCKS proxy: `socks_port > 0 && socks_addr != htonl(INADDR_NONE)`? -/
def ServerSpec.hasSocks (sspec : ServerSpec) : Bool :=
  sspec.socksPort.1 != [0, 0] && sspec.socksAddr.1 != [255, 255, 255, 255]

/-- `filegetter_t`, with what is known of its local file and its socket. A `sockd` of zero is
none. -/
structure Filegetter where
  sspec : ServerSpec
  fspec : FileSpec
  curstats : FileStats
  allstats : FileStats
  sockd : Int
  /-- The event that the socket is watched for. -/
  epoll : EpollEvent
  /-- Is the local file open, `f != NULL`? -/
  f : Bool
  /-- History: what was written to the local file. -/
  fileContent : Bytes
  content : Option Bytes
  /-- The bytes of the buffer up to `buf_write_offset`. -/
  buf : Bytes
  bufReadOffset : Nat
  downloadStart : Timespec
  downloadFirstByte : Timespec
  downloadEnd : Timespec
  state : GetterState
  nextstate : GetterState
  errcode : GetterCode
  /-- Environment: what the peer sends on the socket and was not received yet. -/
  incoming : Bytes
  /-- History: the bytes that `send` accepted on the socket. -/
  sent : Bytes
  deriving DecidableEq, Repr

/-- The outcome of `socket` and `connect`, with what the peer sends on the new socket. -/
inductive Connect
  | failed
  | connected (sockd : Int) (incoming : Bytes)
  deriving DecidableEq, Repr

/-- What the environment does from one call of `send` or `recv` up to the next. -/
structure Surroundings where
  /-- The readings of the clock when the first bytes arrive, at progress and at the end. -/
  firstByte : Timespec
  progress : Timespec
  complete : Timespec
  /-- Does `fwrite` write everything? -/
  fwriteOk : Bool
  /-- The outcome of connecting to an address that the proxy names. -/
  reconnect : Connect
  deriving DecidableEq, Repr

namespace Filegetter

/-- `filegetter_connect`; the socket is watched for output. -/
def connect (fg : Filegetter) : Connect → Option Filegetter
  | .failed => none
  | .connected sockd incoming =>
    some { fg with sockd := sockd, epoll := .output, incoming := incoming, sent := [] }

/-- `filegetter_disconnect` -/
def disconnect (fg : Filegetter) : Filegetter := { fg with f := false, sockd := 0 }

/-- `filegetter_shutdown` -/
def shutdown (fg : Filegetter) : Filegetter := { fg.disconnect with state := .idle }

/-- The getter that `filegetter_start` leaves: everything is zero but the state. -/
def start : Filegetter where
  sspec := ServerSpec.zero
  fspec := { remotePath := [], localPath := [], doSave := false, saveToMemory := false }
  curstats := FileStats.zero
  allstats := FileStats.zero
  sockd := 0
  epoll := .input
  f := false
  fileContent := []
  content := none
  buf := []
  bufReadOffset := 0
  downloadStart := ⟨0, 0⟩
  downloadFirstByte := ⟨0, 0⟩
  downloadEnd := ⟨0, 0⟩
  state := .spec
  nextstate := .idle
  errcode := .success
  incoming := []
  sent := []

/-- `filegetter_set_specs`; `fopenOk` tells whether `fopen` succeeds. -/
def setSpecs (fg : Filegetter) (sspec : ServerSpec) (fspec : FileSpec) (fopenOk : Bool) :
    Filegetter × GetterCode :=
  if fg.state ≠ .spec then (fg, .errInvalid)
  else
    let fg := { fg with
      sspec := sspec
      fspec := fspec
      content := if fspec.saveToMemory then some [] else fg.content }
    if fspec.doSave ∧ ¬fopenOk then ({ fg with f := false }, .errFopen)
    else
      ({ fg with
          f := fg.f || fspec.doSave
          fileContent := if fspec.doSave then [] else fg.fileContent
          buf := []
          bufReadOffset := 0
          curstats := FileStats.zero },
        .success)

/-- `filegetter_download`; `now` is the reading of the clock. -/
def download (fg : Filegetter) (sspec : ServerSpec) (fspec : FileSpec) (fopenOk : Bool)
    (connection : Connect) (now : Timespec) : Filegetter × GetterCode :=
  let (fg, result) := fg.setSpecs sspec fspec fopenOk
  if fg.sspec.persistent ∧ fg.sockd > 0 then
    ({ fg with state := .requestHttp, epoll := .output }, .success)
  else if result = .success then
    let fg := { fg with downloadStart := now }
    if fg.sspec.hasSocks then
      match fg.connect connection with
      | none => (fg, .errSocksconn)
      | some fg => ({ fg with state := .requestSocksInit, epoll := .output }, .success)
    else
      match fg.connect connection with
      | none => (fg, .errHttpconn)
      | some fg => ({ fg with state := .requestHttp, epoll := .output }, .success)
  else ({ fg with epoll := .output }, result)

end Filegetter

/-! ## The states that do not touch the socket -/

/-- Where a state leads: on to a call of `send` or `recv`, or out of the activation. -/
inductive Next
  | call (fg : Filegetter)
  | return (fg : Filegetter) (code : GetterCode)
  deriving DecidableEq, Repr

namespace Filegetter

/-- `filegetter_die` -/
def die (fg : Filegetter) : Next := .return fg.shutdown .errFatal

/-- Send what is in the buffer, and then go to `nextstate`. -/
def sendThen (fg : Filegetter) (nextstate : GetterState) : Filegetter :=
  { fg with state := .send, nextstate := nextstate, epoll := .output }

/-- Receive, and then go to `nextstate`: the states `FG_TOREPLY_*`. -/
def toReply (fg : Filegetter) (nextstate : GetterState) : Filegetter :=
  { fg with state := .receive, nextstate := nextstate, epoll := .input }

/-- The state `FG_REQUEST_SOCKS_INIT`. -/
def requestSocksInit (fg : Filegetter) : Except Fault Next :=
  if bufSize - fg.buf.length < socksInit.length then .error .assertion
  else .ok (.call ({ fg with buf := fg.buf ++ socksInit }.sendThen .toReplySocksInit))

/-- The CONNECT request to the proxy. -/
def socksRequest (sspec : ServerSpec) : Bytes :=
  if sspec.useHostname then
    [5, 1, 0, 3] ++ [sspec.hostnameLength.toUInt8] ++
      (sspec.httpHostname ++ List.replicate (strSize - sspec.httpHostname.length) 0).take
        sspec.hostnameLength ++ sspec.httpPort.1
  else [5, 1, 0, 1] ++ sspec.httpAddr.1 ++ sspec.httpPort.1

/-- The state `FG_REQUEST_SOCKS_CONN`. -/
def requestSocksConn (fg : Filegetter) : Except Fault Next :=
  let needed := if fg.sspec.useHostname then 4 + 1 + fg.sspec.hostnameLength + 2 else 4 + 6
  if bufSize - fg.buf.length < needed then .error .assertion
  else if fg.sspec.useHostname ∧ fg.sspec.hostnameLength > strSize then .error .outOfBounds
  else
    .ok (.call ({ fg with buf := fg.buf ++ socksRequest fg.sspec }.sendThen .toReplySocksConn))

/-- The state `FG_REPLY_SOCKS_INIT`. -/
def replySocksInit (fg : Filegetter) : Except Fault Next :=
  match fg.buf.drop fg.bufReadOffset with
  | version :: method :: _ =>
    if version ≠ 5 ∨ method ≠ 0 then .ok (.return fg .errSocksinit)
    else
      { fg with bufReadOffset := fg.bufReadOffset + 2, state := .requestSocksConn }.requestSocksConn
  | _ => .ok (.call (fg.toReply .replySocksInit))

/-- The text of the GET request. -/
def getRequest (remotePath hostname : Bytes) : Bytes :=
  ascii "GET " ++ cString remotePath ++ ascii " HTTP/1.1\r\nHost: " ++ cString hostname ++ twoCrlf

/-- The state `FG_REQUEST_HTTP`. A request that the space left would truncate, in a buffer it would
fit into, leaves `buf_write_offset` outside the buffer. -/
def requestHttp (fg : Filegetter) : Except Fault Next :=
  let space := bufSize - fg.buf.length
  let request := getRequest fg.fspec.remotePath fg.sspec.httpHostname
  if space = 0 then .error .assertion
  else if request.length ≥ bufSize then .ok fg.die
  else if request.length ≥ space then .error .outOfBounds
  else .ok (.call ({ fg with buf := fg.buf ++ request }.sendThen .toReplyHttp))

/-- The state `FG_REPLY_SOCKS_CONN`. -/
def replySocksConn (fg : Filegetter) (around : Surroundings) : Except Fault Next :=
  match fg.buf.drop fg.bufReadOffset with
  | version :: reply :: _ :: addressType :: a :: b :: c :: d :: p :: q :: _ =>
    if version ≠ 5 ∨ reply ≠ 0 ∨ addressType ≠ 1 then .ok (.return fg .errSocksconn)
    else
      let fg := { fg with bufReadOffset := fg.bufReadOffset + 10 }
      if [a, b, c, d] ≠ [0, 0, 0, 0] ∧ [p, q] ≠ [0, 0] then
        match fg.connect around.reconnect with
        | none => .ok (.return fg .errSocksconn)
        | some fg => { fg with state := .requestHttp, nextstate := .requestHttp }.requestHttp
      else { fg with state := .requestHttp, nextstate := .requestHttp }.requestHttp
  | _ => .ok (.call (fg.toReply .replySocksConn))

/-- The statistics of a download and of all of them after `bytes` more bytes of the body. -/
def countBody (fg : Filegetter) (around : Surroundings) (bytes : Nat) : Filegetter :=
  let fg :=
    if fg.curstats.bodyBytesDownloaded = 0 ∧ bytes > 0 then
      { fg with
        downloadFirstByte := around.firstByte
        curstats := { fg.curstats with
          firstByteTime := around.firstByte.since fg.downloadStart } }
    else fg
  { fg with
    curstats := { fg.curstats with
      bodyBytesDownloaded := fg.curstats.bodyBytesDownloaded + bytes
      downloadTime :=
        if bytes > 0 then around.progress.since fg.downloadStart else fg.curstats.downloadTime }
    allstats := { fg.allstats with
      bodyBytesDownloaded := fg.allstats.bodyBytesDownloaded + bytes } }

/-- `filegetter_metrics_complete` -/
def metricsComplete (fg : Filegetter) : Filegetter :=
  { fg with allstats := { fg.allstats with
      firstByteTime := fg.allstats.firstByteTime.plus fg.curstats.firstByteTime
      downloadTime := fg.allstats.downloadTime.plus fg.curstats.downloadTime } }

/-- The download is complete. -/
def finish (fg : Filegetter) (around : Surroundings) : Filegetter :=
  let fg := { fg with downloadEnd := around.complete }.metricsComplete
  { (if fg.sspec.persistent then fg else fg.disconnect) with state := .spec }

/-- The state `FG_CHECK_DOWNLOAD`. -/
def checkDownload (fg : Filegetter) (around : Surroundings) : Next :=
  let bytes := fg.buf.drop fg.bufReadOffset
  let fg := fg.countBody around bytes.length
  let fg := { fg with content := fg.content.map (· ++ bytes) }
  if fg.f ∧ ¬around.fwriteOk then fg.die
  else
    let fg := { fg with
      fileContent := if fg.f then fg.fileContent ++ bytes else fg.fileContent
      buf := []
      bufReadOffset := 0 }
    if fg.curstats.bodyBytesDownloaded ≥ fg.curstats.bodyBytesExpected then
      .return (fg.finish around) .ok200
    else .call { fg with state := .receive, nextstate := .checkDownload }

/-- Conversion of an `int` to `size_t`. -/
def toSize (i : Int) : Nat := (i % 2 ^ 64).toNat

/-- The state `FG_REPLY_HTTP`. The NUL is written behind the last byte of the buffer when the buffer
is full. -/
def replyHttp (fg : Filegetter) (around : Surroundings) : Except Fault Next :=
  if fg.buf.length ≥ bufSize then .error .outOfBounds
  else
    let text := cString (fg.buf.drop fg.bufReadOffset)
    match strcasestr http404 text with
    | some _ =>
      .ok (.return
        { fg with
          bufReadOffset := fg.bufReadOffset + http404.length
          state := .spec
          nextstate := .requestHttp }
        .err404)
    | none =>
      match strcasestr http200 text, strcasestr twoCrlf text with
      | some _, some content =>
        match strcasestr contentText text with
        | none => .ok fg.die
        | some cl =>
          -- `content[0] = '\0'` ends the text that `atoi` reads
          let number := toSize (atoi ((text.set content 0).drop (cl + contentText.length)))
          .ok ({ fg with
            curstats := { fg.curstats with bodyBytesExpected := number }
            allstats := { fg.allstats with
              bodyBytesExpected := (fg.allstats.bodyBytesExpected + number) % 2 ^ 64 }
            bufReadOffset := fg.bufReadOffset + content + twoCrlf.length
            state := .checkDownload }.checkDownload around)
      | _, _ => .ok (.call { fg with state := .receive, nextstate := .replyHttp })

/-- The loop over `goto start`, up to the next call of `send` or `recv`. -/
def proceed (fg : Filegetter) (around : Surroundings) : Except Fault Next :=
  match fg.state with
  | .idle => .ok (.return fg .errNotstarted)
  | .spec => .ok (.return fg .errNeedfspec)
  | .send | .receive => .ok (.call fg)
  | .checkDownload => .ok (fg.checkDownload around)
  | .requestSocksInit => fg.requestSocksInit
  | .toReplySocksInit => .ok (.call (fg.toReply .replySocksInit))
  | .replySocksInit => fg.replySocksInit
  | .requestSocksConn => fg.requestSocksConn
  | .toReplySocksConn => .ok (.call (fg.toReply .replySocksConn))
  | .replySocksConn => fg.replySocksConn around
  | .requestHttp => fg.requestHttp
  | .toReplyHttp => .ok (.call (fg.toReply .replyHttp))
  | .replyHttp => fg.replyHttp around

end Filegetter

/-! ## Activations -/

/-- One call of `send` or `recv`, and what happens up to the next. -/
structure Call where
  answer : Answer
  around : Surroundings
  deriving DecidableEq, Repr

/-- One activation; `around` is what happens before its first call. -/
structure GetterEvent where
  around : Surroundings
  calls : List Call
  deriving DecidableEq, Repr

namespace Filegetter

/-- `FG_ASSERTIO` for a call that fails. -/
def ioError (fg : Filegetter) (excused : Bool) (errcode : GetterCode) : Next :=
  if excused then .return fg .errWouldblock else { fg with errcode := errcode }.die

/-- The offsets and counters after `send` has accepted `bytes` bytes. -/
def advance (fg : Filegetter) (bytes : Nat) : Filegetter :=
  { fg with
    sent := fg.sent ++ (fg.buf.drop fg.bufReadOffset).take bytes
    bufReadOffset := fg.bufReadOffset + bytes
    curstats := { fg.curstats with bytesUploaded := fg.curstats.bytesUploaded + bytes }
    allstats := { fg.allstats with bytesUploaded := fg.allstats.bytesUploaded + bytes } }

/-- The state `FG_SEND`. -/
def send (fg : Filegetter) (call : Call) : Except Fault Next :=
  if fg.buf.length < fg.bufReadOffset then .error .assertion
  else
    match call.answer.send (fg.buf.length - fg.bufReadOffset) with
    | .error errno =>
      .ok (fg.ioError (errno = .wouldBlock ∨ errno = .notConn ∨ errno = .already) .errSend)
    | .ok 0 => .ok { fg with errcode := .closed }.die
    | .ok (bytes + 1) =>
      let fg := fg.advance (bytes + 1)
      if fg.bufReadOffset = fg.buf.length then
        { fg with buf := [], bufReadOffset := 0, state := fg.nextstate }.proceed call.around
      else .ok (.call fg)

/-- The buffer and the counters after `recv` has delivered `bytes`. -/
def received (fg : Filegetter) (bytes : Bytes) : Filegetter :=
  { fg with
    incoming := fg.incoming.drop bytes.length
    buf := fg.buf ++ bytes
    curstats := { fg.curstats with bytesDownloaded := fg.curstats.bytesDownloaded + bytes.length }
    allstats := { fg.allstats with bytesDownloaded := fg.allstats.bytesDownloaded + bytes.length }
    state := fg.nextstate }

/-- The state `FG_RECEIVE`. -/
def receive (fg : Filegetter) (call : Call) : Except Fault Next :=
  match call.answer.recv fg.incoming (bufSize - fg.buf.length) with
  | .error errno => .ok (fg.ioError (errno = .wouldBlock) .errRecv)
  | .ok [] => .ok { fg with errcode := .closed }.die
  | .ok (b :: bs) => (fg.received (b :: bs)).proceed call.around

/-- The calls of `send` and `recv`, one after the other. -/
def callLoop (fg : Filegetter) : List Call → Except Fault (Filegetter × GetterCode)
  | [] => .ok (fg, .errWouldblock)
  | call :: calls =>
    match if fg.state = .send then fg.send call else fg.receive call with
    | .error fault => .error fault
    | .ok (.return fg code) => .ok (fg, code)
    | .ok (.call fg) => callLoop fg calls

/-- `FG_ASSERTSTATE` -/
def AssertState (fg : Filegetter) : Prop :=
  fg.state ≠ .idle ∧ fg.sockd ≠ 0 ∧ fg.bufReadOffset < bufSize ∧ fg.buf.length < bufSize ∧
    fg.bufReadOffset ≤ fg.buf.length

instance (fg : Filegetter) : Decidable fg.AssertState := by
  unfold AssertState
  infer_instance

/-- `filegetter_activate` -/
def activate (fg : Filegetter) (e : GetterEvent) : Except Fault (Filegetter × GetterCode) :=
  if fg.AssertState then
    match fg.proceed e.around with
    | .error fault => .error fault
    | .ok (.return fg code) => .ok (fg, code)
    | .ok (.call fg) => fg.callLoop e.calls
  else .error .assertion

end Filegetter

end ShadowExtras.FileTransfer
