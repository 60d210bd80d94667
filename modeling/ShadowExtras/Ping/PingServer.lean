import ShadowExtras.Foundation.Lines
import ShadowExtras.Foundation.Stream
import ShadowExtras.Torrent.Fillers

/-!
# The ping server

`ping-server.c`: it accepts connections and reads pings from them. A ping is a record of two lines,
the cookie of the client and the time at which it was sent, and a blank line. In each activation the
server calls `recv` once, for at most 128 bytes, and looks for records in what it has received; it
keeps nothing of it from one activation to the next.

What is received is cut at the ends of lines. Cookie and time are variables of the activation, and
every empty part records a ping if both are set; recording one does not reset them.

`sendPing` is the message that `pingClient_sendPing` sends: as many copies of one record as it
takes, cut at the size of a ping.
-/

namespace ShadowExtras.Ping

open Foundation Torrent

/-! ## Data -/

/-- `enum ping_server_code`, as far as it is returned by an activation. -/
inductive PingServerCode
  | success | errFatal | errWouldblock | errAccept | errEpoll
  deriving DecidableEq, Repr

/-- `PingInfo` -/
structure PingInfo where
  sentTime : UInt64
  recvTime : UInt64
  cookie : UInt32
  deriving DecidableEq, Repr

/-- `PingServer` -/
structure PingServer where
  /-- The listening socket. -/
  sockd : Int
  pings : List PingInfo
  deriving DecidableEq, Repr

/-- What a call of `pingServer_accept` comes to. -/
inductive Accept
  /-- `accept` fails. -/
  | failed
  /-- `epoll_ctl` fails for the new socket. -/
  | unwatched
  | accepted
  deriving DecidableEq, Repr

/-- What the environment does in one activation. -/
structure PingInput where
  sockd : Int
  /-- For the listening socket: its next connections; when they run out, `accept` would block. -/
  accepts : List Accept
  /-- For a connection: what `recv` returns. -/
  received : Except Errno Bytes
  /-- The time in nanoseconds. -/
  now : UInt64

/-- `sizeof(buf)` -/
def bufSize : ℕ := 128

/-! ## Numbers -/

/-- The value of a number that may be too large for 64 bits. -/
def saturate (n : ℕ) : UInt64 := UInt64.ofNat (min n (2 ^ 64 - 1))

/-- `g_ascii_strtoull`, with the reader of the digits behind white space and the sign. -/
def strtoull (digits : Bytes → ℕ) (s : Bytes) : UInt64 :=
  match s.dropWhile isSpace with
  | 45 :: ds => -saturate (digits ds)
  | 43 :: ds => saturate (digits ds)
  | ds => saturate (digits ds)

/-- `g_ascii_strtoull(s, NULL, 16)`, converted to 32 bits. -/
def cookieValue (s : Bytes) : UInt32 := (strtoull unsignedHex s).toUInt32

/-- `g_ascii_strtoull(s, NULL, 10)` -/
def timeValue (s : Bytes) : UInt64 := strtoull (leadingNat 0) s

/-! ## Reading -/

/-- The parts of `g_strsplit(s, "\r\n", 0)`; the empty text has none. -/
def parts (s : Bytes) : List Bytes := if s = [] then [] else (splitLines s).1 ++ [(splitLines s).2]

/-- `g_strsplit(s, ": ", 2)`: what stands in front of the first separator, and what stands behind
it. -/
def splitField : Bytes → Bytes × Option Bytes
  | [] => ([], none)
  | b :: s =>
    if b = 58 ∧ s.head? = some 32 then ([], some s.tail)
    else (b :: (splitField s).1, (splitField s).2)

/-- What a server records of a ping, apart from the time of its arrival. -/
structure Heard where
  cookie : UInt32
  sentTime : UInt64
  deriving DecidableEq, Repr

/-- The variables of an activation, with what was recorded in it. The variables are signed in the
source, but only compared with 0 and converted. -/
structure Reading where
  cookie : UInt32
  sentTime : UInt64
  heard : List Heard
  deriving DecidableEq, Repr

/-- The body of the loop over the parts. -/
def Reading.part (r : Reading) (part : Bytes) : Reading :=
  if part = [] then
    if r.sentTime ≠ 0 ∧ r.cookie ≠ 0 then
      { r with heard := r.heard ++ [⟨r.cookie, r.sentTime⟩] }
    else r
  else
    match splitField part with
    | (_, none) => r
    | (name, some value) =>
      if name = ascii "TOR-COOKIE" then { r with cookie := cookieValue value }
      else if name = ascii "TIME" then { r with sentTime := timeValue value }
      else r

/-- Before the loop over the parts. -/
def Reading.start : Reading := ⟨0, 0, []⟩

/-- What is recorded of the bytes that were received. -/
def heardIn (bytes : Bytes) :
    List Heard := ((parts (cString bytes)).foldl Reading.part .start).heard

/-- The entry for a ping. -/
def Heard.info (h : Heard) (now : UInt64) : PingInfo where
  sentTime := h.sentTime
  recvTime := now
  cookie := h.cookie

/-- The ping of an entry. -/
def PingInfo.heard (info : PingInfo) : Heard := ⟨info.cookie, info.sentTime⟩

/-! ## The activation -/

/-- The calls of `pingServer_accept` until one fails. -/
def acceptLoop : List Accept → PingServerCode
  | [] | .failed :: _ => .errAccept
  | .unwatched :: _ => .errEpoll
  | .accepted :: accepts => acceptLoop accepts

/-- `pingServer_activate`. The NUL behind the bytes received is a write into the buffer. -/
def activate (ps : PingServer) (i : PingInput) : Except Fault (PingServer × PingServerCode) :=
  if i.sockd = ps.sockd then .ok (ps, acceptLoop i.accepts)
  else
    match i.received with
    | .error .wouldBlock => .ok (ps, .errWouldblock)
    | .error _ => .ok (ps, .errFatal)
    | .ok [] => .ok (ps, .errFatal)
    | .ok (b :: bs) =>
      if (b :: bs).length < bufSize then
        .ok ({ ps with pings := ps.pings ++ (heardIn (b :: bs)).map fun h => h.info i.now },
          .success)
      else .error .outOfBounds

/-- An activation as a step of a machine. -/
def step (ps : PingServer) (i : PingInput) : Except Fault PingServer := (activate ps i).map Prod.fst

/-! ## The client -/

/-- The record of a ping. -/
def pingRecord (cookie : UInt32) (time : UInt64) : Bytes :=
  cookieLine cookie ++ (ascii "TIME: " ++ decimal time.toNat ++ crlf ++ crlf)

/-- The loop of `pingClient_sendPing`, which appends records as long as there is less than a
ping. -/
def appendPings (record : Bytes) (pingSize : ℕ) : ℕ → Bytes → Bytes
  | 0, buf => buf
  | rounds + 1, buf =>
    if buf.length < pingSize then appendPings record pingSize rounds (buf ++ record) else buf

/-- The message that `pingClient_sendPing` gives to `send`, for a size that is not negative. Each
round appends something, so that `pingSize` rounds suffice. -/
def sendPing (cookie : UInt32) (time : UInt64) (pingSize : ℕ) : Bytes :=
  (appendPings (pingRecord cookie time) pingSize pingSize []).take pingSize

end ShadowExtras.Ping
