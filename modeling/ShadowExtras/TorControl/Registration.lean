import Mathlib.Data.Finset.Insert
import ShadowExtras.TorControl.ReplyParser

/-!
# The logger and the pinger

The modules `torcontrol-logger.c` and `torcontrol-pinger.c`. Both authenticate, register for events
and then are done, by the same state machine: `manageState` with the events to register for, and
with what the pinger does at the end. A command is sent in a state whose name begins with `send`;
when `send` returned a positive value the machine is idle until a success reply moves it to its next
state.

The pinger then measures a relay by a circuit of one hop: `EXTENDCIRCUIT` starts a ping, its reply
puts the ping among `outstandingPings`, and the circuit event that ends it schedules the next one.
The ping table is kept as the set of its keys, since the start times are only logged.

Which commands a handler sends is part of its result, and `sent` tells whether `send` returned a
positive value.
-/

namespace ShadowExtras.TorControl

open Foundation

/-! ## Commands -/

/-- The commands of the logger and the pinger. -/
inductive ModuleCommand
  /-- `AUTHENTICATE "password"` -/
  | authenticate
  /-- `SETEVENTS EXTENDED events` -/
  | setevents (events : Bytes)
  /-- `EXTENDCIRCUIT 0 relays` -/
  | extendCircuit (relays : Bytes)
  /-- `CLOSECIRCUIT circID` -/
  | closeCircuit (circID : Int)
  deriving DecidableEq, Repr

/-! ## Registering for events -/

/-- `enum torcontrollogger_state` and `enum torcontrolpinger_state`. -/
inductive RegisterState
  | idle | sendAuthenticate | recvAuthenticate | sendSetevents | recvSetevents
  deriving DecidableEq, Repr

/-- The part of `TorControlLogger` and `TorControlPinger` that registers for events. -/
structure Registration where
  currentState : RegisterState
  nextState : RegisterState
  deriving DecidableEq, Repr

namespace Registration

/-- The registration that `torcontrollogger_new` and `torcontrolpinger_new` leave behind. -/
def new : Registration where
  currentState := .sendAuthenticate
  nextState := .idle

/-- Send a command, and wait for its reply if it was sent. -/
def sendAndWait (r : Registration) (command : ModuleCommand) (nextState : RegisterState)
    (sent : Bool) :
    Registration × List ModuleCommand :=
  (if sent then { currentState := .idle, nextState := nextState } else r, [command])

/-- `manageState`, which registers for `events` and does `whenDone` at the end, with its return
value. -/
def manageState (r : Registration) (events : Bytes) (whenDone : List ModuleCommand) (sent : Bool) :
    (Registration × List ModuleCommand) × Bool :=
  match r.currentState with
  | .sendAuthenticate => (r.sendAndWait .authenticate .recvAuthenticate sent, false)
  | .recvAuthenticate =>
    ({ r with currentState := .sendSetevents }.sendAndWait (.setevents events) .recvSetevents sent,
      false)
  | .sendSetevents => (r.sendAndWait (.setevents events) .recvSetevents sent, false)
  | .recvSetevents => (({ currentState := .idle, nextState := .idle }, whenDone), true)
  | .idle => ((r, []), r.nextState == .idle)

/-- A success reply: the next state is entered. -/
def success (r : Registration) (events : Bytes) (whenDone : List ModuleCommand) (sent : Bool) :
    Registration × List ModuleCommand :=
  ({ r with currentState := r.nextState }.manageState events whenDone sent).1

end Registration

/-! ## The logger -/

/-- `TorControlLogger`. -/
structure Logger where
  registration : Registration
  torctlEvents : Bytes
  deriving DecidableEq, Repr

/-- `toupper` of the C locale. -/
def toUpper (b : Byte) : Byte := if 97 ≤ b ∧ b ≤ 122 then b - 32 else b

/-- `torcontrollogger_new`, for the argument with the events. -/
def torcontrolloggerNew (arg : Bytes) : Logger where
  registration := Registration.new
  torctlEvents := (arg.map toUpper).map fun b => if b = 44 then 32 else b  -- ',' and ' '

/-- `_torcontrollogger_manageState`, with its return value. -/
def torcontrolloggerManageState (tcl : Logger) (sent : Bool) :
    (Logger × List ModuleCommand) × Bool :=
  let r := tcl.registration.manageState tcl.torctlEvents [] sent
  (({ tcl with registration := r.1.1 }, r.1.2), r.2)

/-- `_torcontrollogger_handleResponseEvent` for a reply whose first line has the given code. -/
def torcontrolloggerHandleResponseEvent (tcl : Logger) (code : Int) (sent : Bool) :
    Logger × List ModuleCommand :=
  if Int.tdiv code 100 = 2 then
    let r := tcl.registration.success tcl.torctlEvents [] sent
    ({ tcl with registration := r.1 }, r.2)
  else (tcl, [])

/-! ## The pinger -/

/-- `TorControlPinger`. -/
structure Pinger where
  registration : Registration
  pingRelay : Bytes
  /-- The keys of `outstandingPings`. -/
  outstandingPings : Finset Int
  deriving DecidableEq

/-- `torcontrolpinger_new`, for the argument with the relay. -/
def torcontrolpingerNew (pingRelay : Bytes) : Pinger where
  registration := Registration.new
  pingRelay := pingRelay
  outstandingPings := ∅

/-- `_torcontrolpinger_doPingCallback` -/
def torcontrolpingerDoPingCallback (tcp : Pinger) : List ModuleCommand :=
  [.extendCircuit tcp.pingRelay]

/-- `_torcontrolpinger_manageState`, with its return value. -/
def torcontrolpingerManageState (tcp : Pinger) (sent : Bool) :
    (Pinger × List ModuleCommand) × Bool :=
  let r := tcp.registration.manageState (ascii "CIRC") (torcontrolpingerDoPingCallback tcp) sent
  (({ tcp with registration := r.1.1 }, r.1.2), r.2)

/-- The start of a ping, if the first line of the reply announces its circuit. -/
def startPing (tcp : Pinger) (body : Bytes) : Except TokenFault Pinger :=
  let parts := strsplitMax 32 9 body
  if parts[0]? = some (ascii "EXTENDED") then
    (token parts 1).map fun circID =>
      { tcp with outstandingPings := insert (toInt32 (strtol circID)) tcp.outstandingPings }
  else .ok tcp

/-- `_torcontrolpinger_handleResponseEvent` for a reply with the given first line. -/
def torcontrolpingerHandleResponseEvent (tcp : Pinger) (first : ReplyLine) (sent : Bool) :
    Except TokenFault (Pinger × List ModuleCommand) :=
  if Int.tdiv first.code 100 = 2 then
    (startPing tcp first.body).map fun tcp =>
      let r := tcp.registration.success (ascii "CIRC") (torcontrolpingerDoPingCallback tcp) sent
      ({ tcp with registration := r.1 }, r.2)
  else .ok (tcp, [])

/-- What `_torcontrolpinger_handleCircEvent` leaves behind. -/
structure CircHandled where
  pinger : Pinger
  commands : List ModuleCommand
  /-- Whether `createCallback` was called. -/
  callback : Bool

/-- `_torcontrolpinger_handleCircEvent`; an extended circuit is logged with its path, which may be a
NULL. -/
def torcontrolpingerHandleCircEvent (tcp : Pinger) (args : CircArgs) :
    Except TokenFault CircHandled :=
  if args.circID ∈ tcp.outstandingPings then
    if args.status = .extended ∧ args.path = none then .error .missing
    else if args.status = .extended ∨ args.status = .failed ∨ args.status = .closed then
      .ok { pinger := { tcp with outstandingPings := tcp.outstandingPings.erase args.circID }
            commands := [.closeCircuit args.circID]
            callback := true }
    else .ok { pinger := tcp, commands := [], callback := false }
  else .ok { pinger := tcp, commands := [], callback := false }

/-! ## Replies -/

/-- One round of the loop of `torControl_processReply` for the logger: a line with the outcome of
the `send` that it leads to. -/
def loggerReplyLine (code : Int) (s : Logger × List ModuleCommand) (line : ReplyLine × Bool) :
    Except TokenFault (Logger × List ModuleCommand) :=
  (parseUserData line.1.body).map fun _ =>
    let r := torcontrolloggerHandleResponseEvent s.1 code line.2
    (r.1, s.2 ++ r.2)

/-- One round of the loop of `torControl_processReply` for the pinger. -/
def pingerReplyLine (first : ReplyLine) (s : Pinger × List ModuleCommand)
    (line : ReplyLine × Bool) :
    Except TokenFault (Pinger × List ModuleCommand) := do
  let _ ← parseUserData line.1.body
  let r ← torcontrolpingerHandleResponseEvent s.1 first line.2
  return (r.1, s.2 ++ r.2)

/-- `torControl_processReply` for a reply to a command of the pinger. -/
def pingerProcessReply (tcp : Pinger) (reply : List (ReplyLine × Bool)) :
    Except TokenFault (Pinger × List ModuleCommand) :=
  match reply with
  | [] => .ok (tcp, [])
  | first :: _ =>
    if Int.tdiv first.1.code 100 ∈ [2, 4, 5] then
      runSteps (pingerReplyLine first.1) (tcp, []) reply
    else .ok (tcp, [])

end ShadowExtras.TorControl
