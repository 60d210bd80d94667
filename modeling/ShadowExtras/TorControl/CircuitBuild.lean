import Mathlib.Data.List.FinRange
import ShadowExtras.TorControl.Connection

/-!
# The circuit builder

The module `torcontrol-circuitbuild.c` and the part of `torControl_processReply` that feeds it. The
builder authenticates and configures the controller, and once the node is bootstrapped it sends
`EXTENDCIRCUIT` for the circuit at the head of `circuitsToBuild`; the reply `250 EXTENDED id` pops
the queue and gives the popped circuit its id. A circuit that is reported closed is queued again.

`torControl_processReply` passes a reply line to the builder together with `userData`: a struct
whose first field is the circuit id of an `EXTENDED` line or the progress of a bootstrap-phase line.
The builder reads that field under either name, according to its own state and not to the line it
came from, so that `userData` is modelled by the value of the field.

The circuits are those given on the command line, and the pointers to them in the list and the queue
are their indices. Which commands are sent is part of the result of a handler; the return value of
`send` matters only in the setup phase, where it is an argument. Log output and the parsing of event
lines into the arguments of the event handlers are left out.
-/

namespace ShadowExtras.TorControl

open Foundation

/-- `enum torControl_circStatus`. -/
inductive CircStatus
  | none | launched | built | extended | failed | closed | unknown
  deriving DecidableEq, Repr

/-- `enum torControl_streamStatus`. -/
inductive StreamStatus
  | none | new | newresolve | remap | sentconnect | sentresolve | succeeded | failed | closed
  | detatched | unknown
  deriving DecidableEq, Repr

/-- `enum torControl_statusType`. -/
inductive StatusType
  | general | client | server | unknown
  deriving DecidableEq, Repr

/-- The commands of the circuit builder. -/
inductive Command
  /-- `AUTHENTICATE "password"` -/
  | authenticate
  /-- `SETCONF __LeaveStreamsUnattached=1 ExcludeSingleHopRelays=0 AllowSingleHopCircuits=1` -/
  | setconf
  /-- `SETEVENTS EXTENDED CIRC STREAM STATUS_CLIENT` -/
  | setevents
  /-- `GETINFO status/bootstrap-phase` -/
  | getInfoBootstrapStatus
  /-- `EXTENDCIRCUIT 0 relays` -/
  | extendCircuit (relays : Bytes)
  /-- `ATTACHSTREAM streamID circID` -/
  | attachStream (streamID circID : Int)
  deriving DecidableEq, Repr

/-- `enum TorCtlCircuitBuild_State`. -/
inductive BuildState
  | authenticate | setconfs | setevents | checkstatus | createCircuit | getCircId | attachStreams
  deriving DecidableEq, Repr

/-- `TorCtlCircuitBuild_Circuit`. -/
structure Circuit where
  startTime : Int
  endTime : Int
  relays : Bytes
  circID : Int
  deriving DecidableEq, Repr

/-- `TorCtlCircuitBuild`, for `n` circuits. -/
structure CircuitBuild (n : Nat) where
  bootstrapped : Bool
  circuits : Fin n → Circuit
  circuitsToBuild : List (Fin n)
  waitingForResponse : Bool
  state : BuildState
  nextState : BuildState

/-- A NULL pointer that the builder or the parser follows. -/
inductive BuildFault
  /-- `circuit->relays` for the head of an empty queue. -/
  | nullCircuit
  /-- `circuit->circID = ..` for a circuit popped from an empty queue. -/
  | emptyPop
  /-- `atoi(parts[1])` for a line of one word. -/
  | nullString
  deriving DecidableEq, Repr

/-! ## Setup -/

/-- One argument of the module: `time:relays` or `relays`. -/
def Circuit.ofArg (arg : Bytes) : Circuit :=
  let parts := strsplit2 58 arg  -- ':'
  match parts.2 with
  | none => { startTime := 0, endTime := -1, relays := parts.1, circID := -1 }
  | some relays =>
    { startTime := toInt32 (strtol parts.1), endTime := -1, relays := relays, circID := -1 }

/-- `torControlCircuitBuild_new`, for at least one argument: the circuits in the order of the
arguments, each ending where the next one starts, and all of them queued. -/
def torControlCircuitBuildNew (args : List Bytes) : CircuitBuild args.length where
  bootstrapped := false
  circuits i :=
    { Circuit.ofArg args[i] with
      endTime := match args[i.val + 1]? with
        | none => -1
        | some next => (Circuit.ofArg next).startTime }
  circuitsToBuild := List.finRange args.length
  waitingForResponse := false
  state := .authenticate
  nextState := .authenticate

/-! ## Handlers -/

section Handlers

variable {n : Nat} (c : CircuitBuild n)

/-- Send a setup command: `sent` tells whether `send` returned a positive value, and only then the
builder waits for the response. -/
def setupCommand (command : Command) (nextState : BuildState) (sent : Bool) :
    CircuitBuild n × List Command :=
  (if sent then { c with nextState := nextState, waitingForResponse := true } else c, [command])

/-- `_torControlCircuitBuild_initialize`, with its return value. -/
def circuitBuildInitialize (sent : Bool) : (CircuitBuild n × List Command) × Bool :=
  if c.waitingForResponse then ((c, []), false)
  else match c.state with
    | .authenticate => (setupCommand c .authenticate .setconfs sent, false)
    | .setconfs => (setupCommand c .setconf .setevents sent, false)
    | .setevents => (setupCommand c .setevents .checkstatus sent, false)
    | .checkstatus => (setupCommand c .getInfoBootstrapStatus .createCircuit sent, sent)
    | .createCircuit | .getCircId | .attachStreams => ((c, []), false)

/-- `_torControlCircuitBuild_circEvent`. -/
def circuitBuildCircEvent (circID : Int) (status : CircStatus) : CircuitBuild n × List Command :=
  if status = .closed then
    match (List.finRange n).find? fun i => (c.circuits i).circID = circID with
    | none => (c, [])
    | some i =>
      let circuitsToBuild := c.circuitsToBuild ++ [i]
      ({ c with circuitsToBuild := circuitsToBuild, state := .getCircId },
        if circuitsToBuild.length = 1 then [.extendCircuit (c.circuits i).relays] else [])
  else (c, [])

/-- `_torControlCircuitBuild_streamEvent`, at the time `now`. -/
def circuitBuildStreamEvent (streamID : Int) (status : StreamStatus) (now : Int) :
    CircuitBuild n × List Command :=
  if status = .new ∧ c.bootstrapped = true then
    match (List.finRange n).find? fun i => now ≥ (c.circuits i).startTime ∧
        (now < (c.circuits i).endTime ∨ (c.circuits i).endTime = -1) with
    | some i => (c, [.attachStream streamID (c.circuits i).circID])
    | none => (c, [.attachStream streamID 0])
  else (c, [])

/-- Is the event a `STATUS_CLIENT` event with `BOOTSTRAP PROGRESS=100`? -/
def fullyBootstrapped (type : StatusType) (action : Bytes) (progress : Option Bytes) : Bool :=
  type == .client && caselessEq action (ascii "BOOTSTRAP") &&
    match progress with
    | none => false
    | some progress => caselessEq progress (ascii "100")

/-- `_torControlCircuitBuild_statusEvent`; `progress` is the argument `PROGRESS`, if present. -/
def circuitBuildStatusEvent (type : StatusType) (action : Bytes) (progress : Option Bytes) :
    CircuitBuild n × List Command :=
  if fullyBootstrapped type action progress then
    match c.circuitsToBuild.head? with
    | none => ({ c with bootstrapped := true }, [])
    | some i =>
      ({ c with bootstrapped := true, state := .getCircId }, [.extendCircuit (c.circuits i).relays])
  else (c, [])

/-- The success case of `_torControlCircuitBuild_responseEvent`; `userData` is the first field of
the struct that came with the line. -/
def successEvent (userData : Option Int) : Except BuildFault (CircuitBuild n × List Command) :=
  match c.state with
  | .authenticate | .setconfs | .setevents =>
    .ok ({ c with state := c.nextState, waitingForResponse := false }, [])
  | .checkstatus =>
    match userData with
    | none => .ok (c, [])
    | some progress =>
      if progress = 100 then
        match c.circuitsToBuild.head? with
        | none => .error .nullCircuit
        | some i =>
          .ok ({ c with bootstrapped := true, state := .getCircId },
            [.extendCircuit (c.circuits i).relays])
      else .ok ({ c with state := .createCircuit }, [])
  | .getCircId =>
    match userData with
    | none => .ok (c, [])
    | some circID =>
      match c.circuitsToBuild with
      | [] => .error .emptyPop
      | i :: rest =>
        let circuits := Function.update c.circuits i { c.circuits i with circID := circID }
        let c := { c with circuits := circuits, circuitsToBuild := rest }
        match rest with
        | [] => .ok ({ c with state := .attachStreams }, [])
        | j :: _ => .ok (c, [.extendCircuit (circuits j).relays])
  | .createCircuit | .attachStreams => .ok (c, [])

/-- `_torControlCircuitBuild_responseEvent` for a reply whose first line has the given code. -/
def circuitBuildResponseEvent (code : Int) (userData : Option Int) (sent : Bool) :
    Except BuildFault (CircuitBuild n × List Command) :=
  if Int.tdiv code 100 = 2 then
    match successEvent c userData with
    | .error fault => .error fault
    | .ok (c', commands) =>
      let r := (circuitBuildInitialize c' sent).1
      .ok (r.1, commands ++ r.2)
  else .ok (c, [])

end Handlers

/-! ## Replies -/

/-- The `PROGRESS` of a bootstrap-phase line; the last one counts, and zero is the default. -/
def progressOf (body : Bytes) : Int :=
  (strsplit 32 body).foldl (fun progress part =>
    let var := strsplit2 61 part  -- '='
    if var.1 = ascii "PROGRESS" then toInt32 (strtol (var.2.getD [])) else progress) 0

/-- Does the line announce a circuit? -/
def isExtended (body : Bytes) : Bool := (ascii "EXTENDED").isPrefixOf body

/-- Is it a bootstrap-phase line? -/
def isBootstrapPhase (body : Bytes) : Bool := (ascii "status/bootstrap-phase").isPrefixOf body

/-- The struct that `torControl_processReply` builds for a line, by its first field. -/
def userDataOf (body : Bytes) : Except BuildFault (Option Int) :=
  if isExtended body then
    match (strsplit 32 body)[1]? with
    | none => .error .nullString
    | some text => .ok (some (atoi text))
  else if isBootstrapPhase body then .ok (some (progressOf body))
  else .ok none

/-- One round of the loop of `torControl_processReply`: the builder and the commands sent so far,
and a line with the outcome of a `send` in the setup phase. -/
def processReplyLine {n : Nat} (code : Int) (s : CircuitBuild n × List Command)
    (line : ReplyLine × Bool) : Except BuildFault (CircuitBuild n × List Command) :=
  match userDataOf line.1.body with
  | .error fault => .error fault
  | .ok userData =>
    match circuitBuildResponseEvent s.1 code userData line.2 with
    | .error fault => .error fault
    | .ok (c, commands) => .ok (c, s.2 ++ commands)

/-- `torControl_processReply` for a reply to a command. -/
def processReply {n : Nat} (c : CircuitBuild n) (reply : List (ReplyLine × Bool)) :
    Except BuildFault (CircuitBuild n × List Command) :=
  match reply with
  | [] => .ok (c, [])
  | first :: _ =>
    if Int.tdiv first.1.code 100 ∈ [2, 4, 5] then
      runSteps (processReplyLine first.1.code) (c, []) reply
    else .ok (c, [])

end ShadowExtras.TorControl
