import ShadowExtras.TorControl.CircuitBuild

/-!
# The parsers of replies and events

`torControl_processReply` splits the lines of a reply at blanks and takes their parts by position,
and the parameters of an event by name. The vectors of `g_strsplit` end with a NULL, and there is
none for an empty string; no position is checked first. Reading behind that NULL, or using the NULL
where a function needs a string, is a fault here: some functions crash on it (`atoi`, `inet_addr`),
others only complain and go on (those of GLib), but none of them has a string to look at. `g_strdup`
and `g_strcmp0` accept a NULL.

The result is the call of the module's handler with all of its arguments. Which handlers there are
depends on the module; the ones for `ORCONN`, `BW`, `CELL_STATS` and log events are set by none and
left out. Addresses and the seconds of a time stamp are kept as the texts that `inet_addr` and
`atof` are given.
-/

namespace ShadowExtras.TorControl

open Foundation

/-! ## Vectors of strings -/

/-- How a token is misused. -/
inductive TokenFault
  /-- A NULL is used as a string. -/
  | missing
  /-- An entry behind the NULL is read. -/
  | beyond
  deriving DecidableEq, Repr

/-- The parts of a string that `g_strsplit` makes of it when it may make `n + 1`. -/
def splitUpTo (d : Byte) : Nat → Bytes → List Bytes
  | 0, s => [s]
  | n + 1, s =>
    match strsplit2 d s with
    | (part, none) => [part]
    | (part, some rest) => part :: splitUpTo d n rest

/-- `g_strsplit(s, d, n + 1)`. -/
def strsplitMax (d : Byte) (n : Nat) (s : Bytes) : List Bytes :=
  if s = [] then [] else splitUpTo d n s

/-- `v[i]`, which is a NULL at the end of the vector. -/
def entry (v : List Bytes) (i : Nat) : Except TokenFault (Option Bytes) :=
  if i ≤ v.length then .ok v[i]? else .error .beyond

/-- `v[i]` where a string is needed. -/
def token (v : List Bytes) (i : Nat) : Except TokenFault Bytes :=
  match entry v i with
  | .error fault => .error fault
  | .ok none => .error .missing
  | .ok (some s) => .ok s

theorem entry_eq_ok {v : List Bytes} {i : Nat} {s : Option Bytes} :
    entry v i = .ok s ↔ i ≤ v.length ∧ v[i]? = s := by
  unfold entry
  by_cases hi : i ≤ v.length
  · simp [hi]
  · simp [hi]

theorem token_eq_ok {v : List Bytes} {i : Nat} {s : Bytes} :
    token v i = .ok s ↔ v[i]? = some s := by
  unfold token
  by_cases hi : i ≤ v.length
  · rw [show entry v i = .ok v[i]? from entry_eq_ok.mpr ⟨hi, rfl⟩]
    cases v[i]? with
    | none => simp
    | some s' => simp
  · have hnone : v[i]? = none := List.getElem?_eq_none (by omega)
    simp [entry, hi, hnone]

/-- The first entry of a table with this text, up to case. -/
def lookup {α : Type} (table : List (String × α)) (unknown : α) (s : Bytes) : α :=
  match table.find? fun row => caselessEq s (ascii row.1) with
  | some row => row.2
  | none => unknown

/-! ## The values of parameters -/

/-- `enum torControl_circPurpose`. -/
inductive CircPurpose
  | none | general | hsClientIntro | hsClientRend | hsServiceIntro | hsServiceRend | testing
  | controller | unknown
  deriving DecidableEq, Repr

/-- `enum torControl_circReason`. -/
inductive CircReason
  | none | torprotocol | internal | requested | hibernating | resourcelimit | connectfailed
  | orIdentity | orConnClosed | timeout | finished | destroyed | nopath | nosuchservice
  | measurementExpired | unknown
  deriving DecidableEq, Repr

/-- `enum torControl_streamReason`. -/
inductive StreamReason
  | none | misc | resolvefailed | connectrefused | exitpolicy | destroy | done | timeout | noroute
  | hibernating | internal | resourcelimit | connreset | torprotocol | notdirectory | end_
  | privateAddr | unknown
  deriving DecidableEq, Repr

/-- `enum torControl_streamPurpose`. -/
inductive StreamPurpose
  | none | dirFetch | uploadDesc | dnsRequest | user | dirportTest | unknown
  deriving DecidableEq, Repr

/-- `enum torControl_statusSeverity`. -/
inductive StatusSeverity
  | notice | warn | err | unknown
  deriving DecidableEq, Repr

/-- `_torControl_getCircStatus`. -/
def getCircStatus : Bytes → CircStatus :=
  lookup [("LAUNCHED", .launched), ("BUILT", .built), ("EXTENDED", .extended), ("FAILED", .failed),
    ("CLOSED", .closed)] .unknown

/-- One flag of `_torControl_getCircBuildFlags`. -/
def circBuildFlag : Bytes → Nat :=
  lookup [("ONEHOP_TUNNEL", 1), ("IS_INTERNAL", 2), ("NEED_CAPACITY", 4), ("NEED_UPTIME", 8)] 16

/-- `_torControl_getCircBuildFlags`. -/
def getCircBuildFlags (str : Bytes) : Nat :=
  (strsplit 44 str).foldl (fun ret flag => ret ||| circBuildFlag flag) 0  -- ','

/-- `_torControl_getCircPurpose`. -/
def getCircPurpose : Bytes → CircPurpose :=
  lookup [("GENERAL", .general), ("HS_CLIENT_INTRO", .hsClientIntro),
    ("HS_CLIENT_REND", .hsClientRend), ("HS_SERVICE_INTRO", .hsServiceIntro),
    ("HS_SERVICE_REND", .hsServiceRend), ("TESTING", .testing),
      ("CONTROLLER", .controller)] .unknown

/-- `_torControl_getCircReason`. -/
def getCircReason : Bytes → CircReason :=
  lookup [("NONE", .none), ("TORPROTOCOL", .torprotocol), ("INTERNAL", .internal),
    ("REQUESTED", .requested), ("HIBERNATING", .hibernating), ("RESOURCELIMIT", .resourcelimit),
    ("CONNECTFAILED", .connectfailed), ("OR_IDENTITY", .orIdentity),
    ("OR_CONN_CLOSED", .orConnClosed), ("TIMEOUT", .timeout), ("FINISHED", .finished),
    ("DESTROYED", .destroyed), ("NOPATH", .nopath), ("NOSUCHSERVICE", .nosuchservice),
    ("MEASUREMENT_EXPIRED", .measurementExpired)] .unknown

/-- `_torControl_getStreamStatus`, with the texts of the source. -/
def getStreamStatus : Bytes → StreamStatus :=
  lookup [("NEW", .new), ("NEW_RESOLVE", .newresolve), ("REMAP", .remap),
    ("SENT_CONNECT", .sentconnect), ("SENT_RESOLVE", .sentresolve), ("SUCCEECED", .succeeded),
    ("FAILED", .failed), ("CLOSED", .closed), ("DETATCHED", .detatched)] .unknown

/-- `_torControl_getStreamReason`. -/
def getStreamReason : Bytes → StreamReason :=
  lookup [("MISC", .misc), ("RESOLVEFAILED", .resolvefailed), ("CONNECTREFUSED", .connectrefused),
    ("EXITPOLICY", .exitpolicy), ("DESTROY", .destroy), ("DONE", .done), ("TIMEOUT", .timeout),
    ("NOROUTE", .noroute), ("HIBERNATING", .hibernating), ("INTERNAL", .internal),
    ("RESOURCELIMIT", .resourcelimit), ("CONNRESET", .connreset), ("TORPROTOCOL", .torprotocol),
    ("NOTDIRECTORY", .notdirectory), ("END", .end_), ("PRIVATE_ADDR", .privateAddr)] .unknown

/-- `_torControl_getStreamPurpose`. -/
def getStreamPurpose : Bytes → StreamPurpose :=
  lookup [("DIR_FETCH", .dirFetch), ("UPLOAD_DESC", .uploadDesc), ("DNS_REQUEST", .dnsRequest),
    ("USER", .user), ("DIRPORT_TEST", .dirportTest)] .unknown

/-- `_torControl_getStatusType`. -/
def getStatusType : Bytes → StatusType :=
  lookup [("STATUS_GENERAL", .general), ("STATUS_CLIENT", .client), ("STATUS_SERVER", .server)]
    .unknown

/-- `_torControl_getStatusSeverity`. -/
def getStatusSeverity : Bytes → StatusSeverity :=
  lookup [("NOTICE", .notice), ("WARN", .warn), ("ERR", .err)] .unknown

/-- The arguments of `g_date_time_new`. -/
structure CreateTime where
  year : Int
  month : Int
  day : Int
  hour : Int
  min : Int
  sec : Bytes
  deriving DecidableEq, Repr

/-- `_torControl_getCreateTime`; the assertions that the date and the time are there are faults
too. -/
def getCreateTime (datetimestamp : Bytes) : Except TokenFault CreateTime := do
  let parts := strsplitMax 84 1 datetimestamp  -- 'T'
  let date ← token parts 0
  let time ← token parts 1
  let dateparts := strsplitMax 45 2 date  -- '-'
  let year ← token dateparts 0
  let month ← token dateparts 1
  let day ← token dateparts 2
  let timeparts := strsplitMax 58 2 time  -- ':'
  let hour ← token timeparts 0
  let min ← token timeparts 1
  let sec ← token timeparts 2
  return { year := atoi year, month := atoi month, day := atoi day, hour := atoi hour,
           min := atoi min, sec := sec }

/-! ## Events -/

/-- The arguments of `circEvent`. -/
structure CircArgs where
  circID : Int
  path : Option Bytes
  status : CircStatus
  buildFlags : Nat
  purpose : CircPurpose
  reason : CircReason
  createTime : Option CreateTime
  deriving DecidableEq, Repr

/-- The arguments of `streamEvent`; the source address is never parsed. -/
structure StreamArgs where
  streamID : Int
  circID : Int
  targetIP : Bytes
  targetPort : UInt16
  status : StreamStatus
  reason : StreamReason
  remoteReason : StreamReason
  source : Option Bytes
  purpose : StreamPurpose
  deriving DecidableEq, Repr

/-- The arguments of `statusEvent`. -/
structure StatusArgs where
  type : StatusType
  severity : StatusSeverity
  action : Option Bytes
  arguments : List (Bytes × Option Bytes)
  deriving DecidableEq, Repr

/-- `_torControl_getShortName` -/
def getShortName (longname : Bytes) : Except TokenFault (Option Bytes) :=
  entry (strsplitMax 126 1 longname) 1  -- '~'

/-- One element of the path of a circuit. -/
def appendShortName (path : Option Bytes) (longname : Bytes) :
    Except TokenFault (Option Bytes) := do
  match ← getShortName longname, path with
  | none, path => return path
  | some name, none => return some name
  | some name, some path => return some (path ++ ascii "," ++ name)

/-- One parameter of a `CIRC` event. -/
def circParam (args : CircArgs) (part : Bytes) : Except TokenFault CircArgs := do
  let param := strsplitMax 61 1 part  -- '='
  match param with
  | [] => return args
  | name :: _ =>
    if caselessEq name (ascii "BUILD_FLAGS") then
      let value ← token param 1
      return { args with buildFlags := getCircBuildFlags value }
    else if caselessEq name (ascii "PURPOSE") then
      let value ← token param 1
      return { args with purpose := getCircPurpose value }
    else if caselessEq name (ascii "REASON") then
      let value ← token param 1
      return { args with reason := getCircReason value }
    else if caselessEq name (ascii "TIME_CREATED") then
      let value ← token param 1
      let createTime ← getCreateTime value
      return { args with createTime := some createTime }
    else if param.length = 1 then
      let path ← (strsplitMax 44 9 name).foldlM appendShortName args.path  -- ','
      return { args with path := path }
    else return args

/-- `_torControl_processAsyncCircReply`, up to the call of the handler. -/
def processAsyncCircReply (line : Bytes) : Except TokenFault CircArgs := do
  let parts := strsplit 32 line
  let circID ← token parts 1
  let status ← token parts 2
  (parts.drop 3).foldlM circParam
    { circID := atoi circID, path := none, status := getCircStatus status, buildFlags := 0,
      purpose := .none, reason := .none, createTime := none }

/-- One parameter of a `STREAM` event. -/
def streamParam (args : StreamArgs) (part : Bytes) : Except TokenFault StreamArgs := do
  let param := strsplitMax 61 1 part
  match param with
  | [] => return args
  | name :: _ =>
    if caselessEq name (ascii "REASON") then
      let value ← token param 1
      return { args with reason := getStreamReason value }
    else if caselessEq name (ascii "REMOTE_REASON") then
      let value ← token param 1
      return { args with remoteReason := getStreamReason value }
    else if caselessEq name (ascii "SOURCE") then
      let value ← entry param 1
      return { args with source := value }
    else if caselessEq name (ascii "SOURCE_ADDR") then
      let _ ← token param 1
      return args
    else if caselessEq name (ascii "PURPOSE") then
      let value ← token param 1
      return { args with purpose := getStreamPurpose value }
    else return args

/-- `_torControl_processAsyncStreamReply`, up to the call of the handler. -/
def processAsyncStreamReply (line : Bytes) : Except TokenFault StreamArgs := do
  let parts := strsplit 32 line
  let streamID ← token parts 1
  let status ← token parts 2
  let circID ← token parts 3
  let address ← token parts 4
  let target := strsplitMax 58 1 address
  let targetIP ← token target 0
  let targetPort ← entry target 1
  (parts.drop 5).foldlM streamParam
    { streamID := atoi streamID, circID := atoi circID, targetIP := targetIP
      targetPort := match targetPort with
        | none => 0
        | some port => UInt16.ofInt (atoi port)
      status := getStreamStatus status, reason := .none, remoteReason := .none, source := none
      purpose := .none }

/-- One argument of a status event. -/
def statusArgument (args : StatusArgs) (part : Bytes) : Except TokenFault StatusArgs := do
  let values := strsplitMax 61 1 part
  let value ← entry values 1
  -- the key of a hash table of strings
  let key ← token values 0
  return { args with arguments := args.arguments ++ [(key, value)] }

/-- `_torControl_processAsyncStatusReply`, up to the call of the handler. -/
def processAsyncStatusReply (line : Bytes) : Except TokenFault StatusArgs := do
  let parts := strsplit 32 line
  let type ← token parts 0
  let severity ← token parts 1
  let action ← entry parts 2
  -- the loop condition reads the next entry
  let _ ← entry parts 3
  (parts.drop 3).foldlM statusArgument
    { type := getStatusType type, severity := getStatusSeverity severity, action := action
      arguments := [] }

/-! ## Replies -/

/-- `TorControl_ReplyExtended` and `TorControl_BootstrapPhase`. -/
inductive UserData
  | extended (circID : Int)
  | bootstrapPhase (progress : Int) (summary : Option Bytes)
  deriving DecidableEq, Repr

/-- One part of a bootstrap-phase line. -/
def phasePart (phase : Int × Option Bytes) (part : Bytes) :
    Except TokenFault (Int × Option Bytes) := do
  let var := strsplitMax 61 1 part
  match var with
  | [] => return phase
  | name :: _ =>
    if name = ascii "PROGRESS" then
      let value ← token var 1
      return (toInt32 (strtol value), phase.2)
    else if name = ascii "SUMMARY" then
      let value ← entry var 1
      return (phase.1, value)
    else return phase

/-- The struct that is built for a reply line. -/
def parseUserData (body : Bytes) : Except TokenFault (Option UserData) := do
  let parts := strsplit 32 body
  if isExtended body then
    let circID ← token parts 1
    return some (.extended (atoi circID))
  else if isBootstrapPhase body then
    let phase ← parts.foldlM phasePart (0, none)
    return some (.bootstrapPhase phase.1 phase.2)
  else return none

/-- The handlers of `TorControl_EventHandlers` that the modules set. -/
structure Handlers where
  circEvent : Bool
  streamEvent : Bool
  statusEvent : Bool
  genericEvent : Bool
  responseEvent : Bool
  deriving DecidableEq, Repr

/-- The handlers of the circuit builder. -/
def Handlers.circuitBuild : Handlers where
  circEvent := true
  streamEvent := true
  statusEvent := true
  genericEvent := false
  responseEvent := true

/-- The handlers of the logger. -/
def Handlers.logger : Handlers where
  circEvent := false
  streamEvent := false
  statusEvent := false
  genericEvent := true
  responseEvent := true

/-- The handlers of the pinger. -/
def Handlers.pinger : Handlers where
  circEvent := true
  streamEvent := false
  statusEvent := false
  genericEvent := false
  responseEvent := true

/-- A call of a handler. -/
inductive HandlerCall
  | response (userData : Option UserData)
  | circ (args : CircArgs)
  | stream (args : StreamArgs)
  | status (args : StatusArgs)
  | generic (line : Bytes)
  deriving DecidableEq, Repr

/-- `funcs->handler && !g_ascii_strcasecmp(event, name)` -/
def isEvent (handler : Bool) (parts : List Bytes) (name : String) : Except TokenFault Bool :=
  if handler then (token parts 0).map fun event => caselessEq event (ascii name) else .ok false

/-- The part of `torControl_processReply` for events. -/
def processEvent (funcs : Handlers) (line : Bytes) : Except TokenFault (List HandlerCall) := do
  let parts := strsplit 32 line
  if ← isEvent funcs.circEvent parts "CIRC" then
    let args ← processAsyncCircReply line
    return [.circ args]
  else if ← isEvent funcs.streamEvent parts "STREAM" then
    let args ← processAsyncStreamReply line
    return [.stream args]
  else if ← isEvent funcs.statusEvent parts "STATUS_CLIENT" then
    let args ← processAsyncStatusReply line
    return [.status args]
  else if funcs.genericEvent then return [.generic line]
  else return []

/-- `torControl_processReply`, as the calls of the module's handlers. -/
def processReplyCalls (funcs : Handlers) (reply : List ReplyLine) :
    Except TokenFault (List HandlerCall) :=
  match reply with
  | [] => .ok []
  | first :: _ =>
    if Int.tdiv first.code 100 ∈ [2, 4, 5] then
      if funcs.responseEvent then
        reply.mapM fun line => (parseUserData line.body).map .response
      else .ok []
    else if Int.tdiv first.code 100 = 6 then processEvent funcs first.body
    else .ok []

/-! ## Activations -/

/-- A read outside the buffer or outside a line. -/
inductive InputFault
  | buffer (fault : Fault)
  | token (fault : TokenFault)
  deriving DecidableEq, Repr

/-- A connection with the calls of its module's handlers so far. -/
structure Parsed where
  conn : Connection
  calls : List HandlerCall
  deriving DecidableEq, Repr

/-- One round of the line loop, with the processing of the reply that the line completes. -/
def parseLine (funcs : Handlers) (s : Parsed) (line : Bytes) : Except InputFault Parsed :=
  match processLine
      { reply := s.conn.reply, readingData := s.conn.readingData, processed := [] } line with
  | .error fault => .error (.buffer fault)
  | .ok r =>
    match r.processed.mapM (processReplyCalls funcs) with
    | .error fault => .error (.token fault)
    | .ok calls =>
      .ok { conn := { s.conn with reply := r.reply, readingData := r.readingData }
            calls := s.calls ++ calls.flatten }

/-- The `EPOLLIN` part of `torControl_activate` with `torControl_processReply`, for the bytes that
`recv` delivered. -/
def parseInput (funcs : Handlers) (s : Parsed) (received : Bytes) : Except InputFault Parsed :=
  if bufSize ≤ s.conn.buf.length + received.length then .error (.buffer .bufOverrun)
  else
    let split := splitLines (cString (s.conn.buf ++ received))
    match runSteps (parseLine funcs) s split.1 with
    | .error fault => .error fault
    | .ok s' => .ok { s' with conn := { s'.conn with buf := split.2 } }

end ShadowExtras.TorControl
