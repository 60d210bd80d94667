import ShadowExtras.Foundation.Fallible
import ShadowExtras.TorControl.CircuitBuild
import ShadowExtras.TorControl.ModuleSetup
import ShadowExtras.TorControl.Registration

/-!
# The setup commands go out once and in order

The circuit builder, the logger and the pinger as `SetupModule`s, with the texts of their commands.
The steps of all three follow their commands, so that `ModuleSetup` applies to them: the logger and
the pinger because they register in the same way, and the circuit builder because it waits for a
response whenever a setup command was sent.
-/

namespace ShadowExtras.TorControl

open Foundation

/-! ## The modules -/

/-- `"%i"` -/
def printInt (i : Int) : Bytes :=
  if i < 0 then 45 :: decimal i.natAbs else decimal i.natAbs  -- '-'

/-- The text of a command. -/
def ModuleCommand.text : ModuleCommand → Bytes
  | .authenticate => ascii "AUTHENTICATE \"password\""
  | .setevents events => ascii "SETEVENTS EXTENDED " ++ events
  | .extendCircuit relays => ascii "EXTENDCIRCUIT 0 " ++ relays
  | .closeCircuit circID => ascii "CLOSECIRCUIT " ++ printInt circID

/-- The text of a command of the circuit builder. -/
def Command.text : Command → Bytes
  | .authenticate => ascii "AUTHENTICATE \"password\""
  | .setconf =>
    ascii "SETCONF __LeaveStreamsUnattached=1 ExcludeSingleHopRelays=0 AllowSingleHopCircuits=1"
  | .setevents => ascii "SETEVENTS EXTENDED CIRC STREAM STATUS_CLIENT"
  | .getInfoBootstrapStatus => ascii "GETINFO status/bootstrap-phase"
  | .extendCircuit relays => ascii "EXTENDCIRCUIT 0 " ++ relays
  | .attachStream streamID circID =>
    ascii "ATTACHSTREAM " ++ printInt streamID ++ ascii " " ++ printInt circID

/-- The step of the circuit builder's setup. -/
def BuildState.position : BuildState → Nat
  | .authenticate => 0
  | .setconfs => 1
  | .setevents => 2
  | .checkstatus => 3
  | .createCircuit | .getCircId | .attachStreams => 4

/-- What the circuit builder sends does not depend on the outcome of sending it. -/
theorem circuitBuildInitialize_sends {n : Nat} (c : CircuitBuild n) :
    (circuitBuildInitialize c true).1.2 = (circuitBuildInitialize c false).1.2 := by
  unfold circuitBuildInitialize
  split_ifs
  · rfl
  · cases c.state <;> rfl

/-- What the builder sends does not depend on the result of `send`. -/
theorem processReplyLine_sends {n : Nat} (c : CircuitBuild n) (code : Int) (line : ReplyLine) :
    (processReplyLine code (c, []) (line, true)).map Prod.snd =
      (processReplyLine code (c, []) (line, false)).map Prod.snd := by
  unfold processReplyLine
  cases userDataOf line.body with
  | error fault => rfl
  | ok userData =>
    simp only [circuitBuildResponseEvent]
    split_ifs
    · cases successEvent c userData with
      | error fault => rfl
      | ok r => simp only [Except.map, circuitBuildInitialize_sends]
    · rfl

/-- The setup of the circuit builder. -/
def circuitBuildSetup (args : List Bytes) : SetupModule (CircuitBuild args.length) BuildFault where
  commands := [Command.authenticate.text, Command.setconf.text, Command.setevents.text,
    Command.getInfoBootstrapStatus.text]
  start := torControlCircuitBuildNew args
  position c := c.state.position
  onInitialize c sent :=
    let r := circuitBuildInitialize c sent
    ((r.1.1, r.1.2.map Command.text), r.2)
  responseLine c first line sent :=
    (processReplyLine first.code (c, []) (line, sent)).map fun r => (r.1, r.2.map Command.text)
  onInitialize_sends c := congrArg (List.map Command.text) (circuitBuildInitialize_sends c)
  responseLine_sends c first line := map_snd_congr (processReplyLine_sends c first.code line)

/-- The step of a registration: a command is done when the reply to it has come. -/
def Registration.position (r : Registration) : Nat :=
  match r.currentState, r.nextState with
  | .sendAuthenticate, _ | .idle, .recvAuthenticate => 0
  | .recvAuthenticate, _ | .sendSetevents, _ | .idle, .recvSetevents => 1
  | _, _ => 2

/-- What a registration sends does not depend on the outcome of sending it. -/
theorem Registration.manageState_sends (r : Registration) (events : Bytes)
    (whenDone : List ModuleCommand) :
    (r.manageState events whenDone true).1.2 = (r.manageState events whenDone false).1.2 := by
  unfold Registration.manageState
  cases r.currentState <;> rfl

/-- What the logger sends does not depend on the result of `send`. -/
theorem loggerReplyLine_sends (tcl : Logger) (code : Int) (line : ReplyLine) :
    (loggerReplyLine code (tcl, []) (line, true)).map Prod.snd =
      (loggerReplyLine code (tcl, []) (line, false)).map Prod.snd := by
  unfold loggerReplyLine torcontrolloggerHandleResponseEvent
  cases parseUserData line.body with
  | error fault => rfl
  | ok userData =>
    split_ifs
    · simp only [Except.map, Registration.success, Registration.manageState_sends]
    · rfl

/-- What the pinger sends does not depend on the result of `send`. -/
theorem pingerReplyLine_sends (tcp : Pinger) (first line : ReplyLine) :
    (pingerReplyLine first (tcp, []) (line, true)).map Prod.snd =
      (pingerReplyLine first (tcp, []) (line, false)).map Prod.snd := by
  unfold pingerReplyLine torcontrolpingerHandleResponseEvent
  cases parseUserData line.body with
  | error fault => rfl
  | ok userData =>
    simp only [bind, Except.bind]
    split_ifs
    · cases startPing tcp first.body with
      | error fault => rfl
      | ok tcp' =>
        simp only [Except.map, Registration.success, Registration.manageState_sends, pure,
          Except.pure]
    · rfl

/-- The setup of the logger. -/
def loggerSetup (arg : Bytes) : SetupModule Logger TokenFault where
  commands := [ModuleCommand.authenticate.text,
    (ModuleCommand.setevents (torcontrolloggerNew arg).torctlEvents).text]
  start := torcontrolloggerNew arg
  position tcl := tcl.registration.position
  onInitialize tcl sent :=
    let r := torcontrolloggerManageState tcl sent
    ((r.1.1, r.1.2.map ModuleCommand.text), r.2)
  responseLine tcl first line sent :=
    (loggerReplyLine first.code (tcl, []) (line, sent)).map fun r =>
      (r.1, r.2.map ModuleCommand.text)
  onInitialize_sends tcl :=
    congrArg (List.map ModuleCommand.text) (tcl.registration.manageState_sends _ _)
  responseLine_sends tcl first line := map_snd_congr (loggerReplyLine_sends tcl first.code line)

/-- The setup of the pinger. -/
def pingerSetup (pingRelay : Bytes) : SetupModule Pinger TokenFault where
  commands := [ModuleCommand.authenticate.text, (ModuleCommand.setevents (ascii "CIRC")).text]
  start := torcontrolpingerNew pingRelay
  position tcp := tcp.registration.position
  onInitialize tcp sent :=
    let r := torcontrolpingerManageState tcp sent
    ((r.1.1, r.1.2.map ModuleCommand.text), r.2)
  responseLine tcp first line sent :=
    (pingerReplyLine first (tcp, []) (line, sent)).map fun r => (r.1, r.2.map ModuleCommand.text)
  onInitialize_sends tcp :=
    congrArg (List.map ModuleCommand.text) (tcp.registration.manageState_sends _ _)
  responseLine_sends tcp first line := map_snd_congr (pingerReplyLine_sends tcp first line)

/-! ## The steps of the modules -/

/-- A command that begins with another byte is another command. -/
theorem not_mem_of_head? {command : Bytes} {commands : List Bytes}
    (h : ∀ c ∈ commands, c.head? ≠ command.head?) : command ∉ commands := fun hmem =>
  h command hmem rfl

/-- The registration waits for the answer to its first or to its second command. -/
def Registration.Waits (r : Registration) : Nat → Prop
  | 0 => r = { currentState := .idle, nextState := .recvAuthenticate }
  | 1 => r = { currentState := .idle, nextState := .recvSetevents }
  | _ => False

/-- The registration waits for the answer to its second command, or is over. -/
def Registration.Late (r : Registration) : Prop :=
  r.Waits 1 ∨ r = { currentState := .idle, nextState := .idle }

namespace Registration

variable {r : Registration} {events : Bytes} {whenDone : List ModuleCommand} {sent : Bool}

/-- A module that waits for an answer sends nothing. -/
theorem Waits.manageState {i : Nat} (h : r.Waits i) :
    r.manageState events whenDone sent = ((r, []), false) := by
  rcases i with - | - | i
  · obtain rfl : r = _ := h
    rfl
  · obtain rfl : r = _ := h
    rfl
  · exact h.elim

/-- A module that is late sends nothing. -/
theorem Late.manageState (h : r.Late) :
    (r.manageState events whenDone sent).1 = (r, []) := by
  rcases h with hwaits | rfl
  · rw [hwaits.manageState]
  · rfl

/-- A success reply to the first command sends the second one. -/
theorem Waits.success (h : r.Waits 0) (events : Bytes) (whenDone : List ModuleCommand)
    (sent : Bool) :
    (r.success events whenDone sent).2 = [.setevents events] ∧
      (sent = true → (r.success events whenDone sent).1.Waits 1) := by
  obtain rfl : r = _ := h
  refine ⟨rfl, ?_⟩
  rintro rfl
  rfl

/-- Later success replies do what is done at the end, or nothing. -/
theorem Late.success (h : r.Late) (events : Bytes) (whenDone : List ModuleCommand) (sent : Bool) :
    (r.success events whenDone sent).1.Late ∧
      ∀ command ∈ (r.success events whenDone sent).2, command ∈ whenDone := by
  rcases h with hwaits | rfl
  · obtain rfl : r = _ := hwaits
    exact ⟨.inr rfl, fun command hmem => hmem⟩
  · exact ⟨.inr rfl, fun command hmem => absurd hmem List.not_mem_nil⟩

/-- The step that a module waits at. -/
theorem Waits.position {i : Nat} (h : r.Waits i) : r.position = i := by
  rcases i with - | - | i
  · obtain rfl : r = _ := h
    rfl
  · obtain rfl : r = _ := h
    rfl
  · exact h.elim

theorem position_le (r : Registration) : r.position ≤ 2 := by
  unfold position
  split <;> omega

end Registration

/-- A line of a reply to the pinger is a success reply to its registration, or nothing. -/
theorem pingerReplyLine_cases {tcp : Pinger} {first line : ReplyLine} {sent : Bool}
    {r : Pinger × List ModuleCommand} (h : pingerReplyLine first (tcp, []) (line, sent) = .ok r) :
    (Int.tdiv first.code 100 = 2 ∧ ∃ relay,
        (r.1.registration, r.2) =
          tcp.registration.success (ascii "CIRC") [.extendCircuit relay] sent) ∨
      (Int.tdiv first.code 100 ≠ 2 ∧ r = (tcp, [])) := by
  unfold pingerReplyLine at h
  cases hdata : parseUserData line.body with
  | error fault =>
    rw [hdata] at h
    cases h
  | ok userData =>
    rw [hdata] at h
    unfold torcontrolpingerHandleResponseEvent at h
    by_cases hcode : Int.tdiv first.code 100 = 2
    · simp only [if_pos hcode] at h
      cases hstart : startPing tcp first.body with
      | error fault =>
        rw [hstart] at h
        cases h
      | ok tcp' =>
        have hsame : tcp'.registration = tcp.registration := by
          unfold startPing at hstart
          dsimp only at hstart
          split_ifs at hstart
          · cases hid : token (strsplitMax 32 9 first.body) 1 with
            | error fault =>
              rw [hid] at hstart
              cases hstart
            | ok circID =>
              rw [hid] at hstart
              rw [← Except.ok.inj hstart]
          · rw [← Except.ok.inj hstart]
        rw [hstart] at h
        refine .inl ⟨hcode, tcp'.pingRelay, ?_⟩
        rw [← Except.ok.inj h, ← hsame]
        rfl
    · simp only [if_neg hcode] at h
      exact .inr ⟨hcode, (Except.ok.inj h).symm⟩

/-- The pinger's steps follow its commands. -/
def pingerStepwise (pingRelay : Bytes) : (pingerSetup pingRelay).Stepwise where
  waiting tcp i := tcp.registration.Waits i
  late tcp := tcp.registration.Late
  isLine := by
    intro command hmem
    simp only [pingerSetup, List.mem_cons, List.not_mem_nil, or_false] at hmem
    rcases hmem with rfl | rfl <;> decide
  nonempty := by simp [pingerSetup]
  start_sends := fun _ => rfl
  start_waits := rfl
  waiting_sends := by
    intro tcp i h sent
    simp only [pingerSetup, torcontrolpingerManageState, h.manageState, List.map_nil]
  late_sends := by
    intro tcp h sent
    simp only [pingerSetup, torcontrolpingerManageState, h.manageState, List.map_nil]
  late_of_waiting := by
    intro tcp i h hlast
    obtain rfl : i = 1 := by simpa [pingerSetup] using hlast
    exact .inl h
  waiting_reply := by
    intro tcp i first line sent r command h hcode hnext hreply
    obtain rfl : i = 0 := by
      rcases i with - | i
      · rfl
      · simp [pingerSetup] at hnext
    obtain ⟨u, hu, rfl⟩ := map_eq_ok.mp hreply
    rcases pingerReplyLine_cases hu with ⟨-, relay, hsuccess⟩ | ⟨hne, -⟩
    · obtain ⟨hsends, hwaits⟩ := h.success _ [.extendCircuit relay] _
      rw [← hsuccess] at hsends hwaits
      refine ⟨?_, hwaits⟩
      rw [hsends]
      simpa [pingerSetup] using hnext
    · exact absurd hcode hne
  late_reply := by
    intro tcp first line sent r h hreply
    obtain ⟨u, hu, rfl⟩ := map_eq_ok.mp hreply
    rcases pingerReplyLine_cases hu with ⟨-, relay, hsuccess⟩ | ⟨-, rfl⟩
    · obtain ⟨hlate, hsends⟩ := h.success _ [.extendCircuit relay] _
      rw [← hsuccess] at hlate hsends
      refine ⟨hlate, fun command hmem => ?_⟩
      obtain ⟨c, hc, rfl⟩ := List.mem_map.mp hmem
      obtain rfl := List.mem_singleton.mp (hsends c hc)
      refine not_mem_of_head? ?_
      simp [pingerSetup, ModuleCommand.text, ascii]
    · exact ⟨h, by simp⟩
  start_position := rfl
  waiting_position := fun h => h.position
  late_position := fun _ => Registration.position_le _

/-- The events of the logger are a line if its argument is. -/
theorem isLine_torctlEvents {arg : Bytes} (harg : IsLine arg) :
    IsLine (torcontrolloggerNew arg).torctlEvents := by
  refine isLine_map (fun b => ?_) (isLine_map (fun b => ?_) harg)
  · by_cases hb : b = 44
    · subst hb
      decide
    · simp [hb]
  · have hall : ∀ n < 256, (toUpper (UInt8.ofNat n) = cr ↔ UInt8.ofNat n = cr) ∧
        (toUpper (UInt8.ofNat n) = lf ↔ UInt8.ofNat n = lf) := by decide +kernel
    simpa using hall b.toNat b.toNat_lt

/-- The logger's steps follow its commands. -/
def loggerStepwise (arg : Bytes) (harg : IsLine arg) : (loggerSetup arg).Stepwise where
  waiting tcl i :=
    tcl.registration.Waits i ∧ tcl.torctlEvents = (torcontrolloggerNew arg).torctlEvents
  late tcl := tcl.registration.Late
  isLine := by
    intro command hmem
    simp only [loggerSetup, List.mem_cons, List.not_mem_nil, or_false] at hmem
    rcases hmem with rfl | rfl
    · decide +kernel
    · exact IsLine.append_of_forall_ne (by decide +kernel) (isLine_torctlEvents harg)
  nonempty := by simp [loggerSetup]
  start_sends := fun _ => rfl
  start_waits := ⟨rfl, rfl⟩
  waiting_sends := by
    intro tcl i h sent
    simp only [loggerSetup, torcontrolloggerManageState, h.1.manageState, List.map_nil]
  late_sends := by
    intro tcl h sent
    simp only [loggerSetup, torcontrolloggerManageState, h.manageState, List.map_nil]
  late_of_waiting := by
    intro tcl i h hlast
    obtain rfl : i = 1 := by simpa [loggerSetup] using hlast
    exact .inl h.1
  waiting_reply := by
    intro tcl i first line sent r command h hcode hnext hreply
    obtain rfl : i = 0 := by
      rcases i with - | i
      · rfl
      · simp [loggerSetup] at hnext
    obtain ⟨hsends, hwaits⟩ := h.1.success tcl.torctlEvents [] sent
    obtain ⟨u, hu, rfl⟩ := map_eq_ok.mp hreply
    obtain ⟨userData, -, rfl⟩ := map_eq_ok.mp hu
    simp only [torcontrolloggerHandleResponseEvent, if_pos hcode, List.nil_append]
    refine ⟨?_, fun hsent => ⟨hwaits hsent, h.2⟩⟩
    rw [hsends, h.2]
    simpa [loggerSetup] using hnext
  late_reply := by
    intro tcl first line sent r h hreply
    obtain ⟨hlate, hsends⟩ := h.success tcl.torctlEvents [] sent
    obtain ⟨u, hu, rfl⟩ := map_eq_ok.mp hreply
    obtain ⟨userData, -, rfl⟩ := map_eq_ok.mp hu
    unfold torcontrolloggerHandleResponseEvent
    split
    · refine ⟨hlate, fun command hmem => ?_⟩
      obtain ⟨c, hc, rfl⟩ := List.mem_map.mp hmem
      exact absurd (hsends c hc) List.not_mem_nil
    · exact ⟨h, by simp⟩
  start_position := rfl
  waiting_position := fun h => h.1.position
  late_position := fun _ => Registration.position_le _

section CircuitBuild

variable {n : Nat} {c : CircuitBuild n}

/-- The state of the circuit builder in which a setup command is sent, and the one behind it. -/
def setupStates : List (BuildState × BuildState) :=
  [(.authenticate, .setconfs), (.setconfs, .setevents), (.setevents, .checkstatus),
    (.checkstatus, .createCircuit)]

/-- The circuit builder waits for the answer to a setup command. -/
def CircuitBuild.Waits (c : CircuitBuild n) (i : Nat) : Prop :=
  c.waitingForResponse = true ∧ setupStates[i]? = some (c.state, c.nextState)

/-- The circuit builder waits for the bootstrap phase, or is done. -/
def CircuitBuild.Late (c : CircuitBuild n) : Prop :=
  c.waitingForResponse = true ∧ 3 ≤ c.state.position

/-- While it waits, the circuit builder sends nothing. -/
theorem circuitBuildInitialize_of_waiting (h : c.waitingForResponse = true) (sent : Bool) :
    circuitBuildInitialize c sent = ((c, []), false) := by
  simp [circuitBuildInitialize, h]

/-- A success reply to a setup command that another one follows sends that one. -/
theorem CircuitBuild.Waits.responseEvent {i : Nat} {code : Int} {userData : Option Int}
    {sent : Bool} {r : CircuitBuild n × List Command} {command : Bytes} (h : c.Waits i)
    (hcode : Int.tdiv code 100 = 2)
    (hnext : [Command.authenticate.text, Command.setconf.text, Command.setevents.text,
      Command.getInfoBootstrapStatus.text][i + 1]? = some command)
    (hr : circuitBuildResponseEvent c code userData sent = .ok r) :
    r.2.map Command.text = [command] ∧ (sent = true → r.1.Waits (i + 1)) := by
  obtain ⟨hwaiting, hstates⟩ := h
  have hlt : i < 3 := by
    by_contra hge
    rw [List.getElem?_eq_none] at hnext
    · cases hnext
    · simpa using hge
  rw [circuitBuildResponseEvent, if_pos hcode] at hr
  -- in each of the three states the next one is reached, and its command is sent
  interval_cases i
  all_goals
    obtain ⟨hstate, hnextState⟩ := Prod.mk.inj (Option.some.inj hstates)
    simp only [successEvent, ← hstate, List.nil_append, Except.ok.injEq] at hr
    subst hr
    simp only [circuitBuildInitialize, ← hnextState, Bool.false_eq_true, if_false]
    refine ⟨by simpa [setupCommand] using hnext, ?_⟩
    rintro rfl
    exact ⟨rfl, rfl⟩

/-- A late success sends `EXTENDCIRCUIT` commands only. -/
theorem CircuitBuild.Late.successEvent {userData : Option Int} {r : CircuitBuild n × List Command}
    (h : c.Late) (hr : TorControl.successEvent c userData = .ok r) :
    r.1.Late ∧ ∀ command ∈ r.2, ∃ relays, command = .extendCircuit relays := by
  obtain ⟨hwaiting, hposition⟩ := h
  unfold TorControl.successEvent at hr
  have hsame : Except.ok (c, []) = (.ok r : Except BuildFault (CircuitBuild n × List Command)) →
      r.1.Late ∧ ∀ command ∈ r.2, ∃ relays, command = .extendCircuit relays := by
    intro hr
    obtain rfl := Except.ok.inj hr
    exact ⟨⟨hwaiting, hposition⟩, by simp⟩
  cases hstate : c.state with
  | authenticate => simp [hstate, BuildState.position] at hposition
  | setconfs => simp [hstate, BuildState.position] at hposition
  | setevents => simp [hstate, BuildState.position] at hposition
  | createCircuit => exact hsame (by simpa only [hstate] using hr)
  | attachStreams => exact hsame (by simpa only [hstate] using hr)
  | checkstatus =>
    simp only [hstate] at hr
    cases userData with
    | none => exact hsame hr
    | some progress =>
      dsimp only at hr
      split_ifs at hr with hfull
      · split at hr
        · cases hr
        · obtain rfl := Except.ok.inj hr
          exact ⟨⟨hwaiting, by simp [BuildState.position]⟩, by simp⟩
      · obtain rfl := Except.ok.inj hr
        exact ⟨⟨hwaiting, by simp [BuildState.position]⟩, by simp⟩
  | getCircId =>
    simp only [hstate] at hr
    cases userData with
    | none => exact hsame hr
    | some circID =>
      dsimp only at hr
      split at hr
      · cases hr
      · split at hr
        · obtain rfl := Except.ok.inj hr
          exact ⟨⟨hwaiting, by simp [BuildState.position]⟩, by simp⟩
        · obtain rfl := Except.ok.inj hr
          exact ⟨⟨hwaiting, by simp [BuildState.position]⟩, by simp⟩

/-- Late replies send `EXTENDCIRCUIT` commands only. -/
theorem CircuitBuild.Late.responseEvent {code : Int} {userData : Option Int} {sent : Bool}
    {r : CircuitBuild n × List Command} (h : c.Late)
    (hr : circuitBuildResponseEvent c code userData sent = .ok r) :
    r.1.Late ∧ ∀ command ∈ r.2, ∃ relays, command = .extendCircuit relays := by
  unfold circuitBuildResponseEvent at hr
  split_ifs at hr with hcode
  · cases hsuccess : TorControl.successEvent c userData with
    | error fault => simp [hsuccess] at hr
    | ok u =>
      -- the builder still waits, so that the call of `initialize` sends nothing
      have hu : u.1.Late ∧ ∀ command ∈ u.2, ∃ relays, command = .extendCircuit relays := by
        exact h.successEvent hsuccess
      rw [hsuccess] at hr
      simp only [circuitBuildInitialize_of_waiting hu.1.1, List.append_nil, Except.ok.injEq] at hr
      subst hr
      exact hu
  · obtain rfl := Except.ok.inj hr
    exact ⟨h, by simp⟩

end CircuitBuild

/-- A line of a reply is handed to the circuit builder. -/
theorem processReplyLine_nil_eq_ok {n : Nat} {c : CircuitBuild n} {code : Int}
    {line : ReplyLine × Bool}
    {r : CircuitBuild n × List Command} (h : processReplyLine code (c, []) line = .ok r) :
    ∃ userData, circuitBuildResponseEvent c code userData line.2 = .ok r := by
  unfold processReplyLine at h
  split at h
  · cases h
  · next userData _ =>
    split at h
    · cases h
    · next c' commands hr =>
      refine ⟨userData, ?_⟩
      rw [← Except.ok.inj h]
      exact hr

/-- The circuit builder's steps follow its commands. -/
def circuitBuildStepwise (args : List Bytes) : (circuitBuildSetup args).Stepwise where
  waiting c i := c.Waits i
  late c := c.Late
  isLine := by
    intro command hmem
    simp only [circuitBuildSetup, List.mem_cons, List.not_mem_nil, or_false] at hmem
    rcases hmem with rfl | rfl | rfl | rfl <;> decide
  nonempty := by simp [circuitBuildSetup]
  start_sends := fun _ => rfl
  start_waits := ⟨rfl, rfl⟩
  waiting_sends := by
    intro c i h sent
    simp only [circuitBuildSetup, circuitBuildInitialize_of_waiting h.1, List.map_nil]
  late_sends := by
    intro c h sent
    simp only [circuitBuildSetup, circuitBuildInitialize_of_waiting h.1, List.map_nil]
  late_of_waiting := by
    intro c i h hlast
    obtain rfl : i = 3 := by simpa [circuitBuildSetup] using hlast
    obtain ⟨hstate, -⟩ := Prod.mk.inj (Option.some.inj h.2)
    exact ⟨h.1, by rw [← hstate]; exact le_rfl⟩
  waiting_reply := by
    intro c i first line sent r command h hcode hnext hreply
    obtain ⟨u, hu, rfl⟩ := map_eq_ok.mp hreply
    obtain ⟨userData, hresponse⟩ := processReplyLine_nil_eq_ok hu
    exact h.responseEvent hcode hnext hresponse
  late_reply := by
    intro c first line sent r h hreply
    obtain ⟨u, hu, rfl⟩ := map_eq_ok.mp hreply
    obtain ⟨userData, hresponse⟩ := processReplyLine_nil_eq_ok hu
    obtain ⟨hlate, hsends⟩ := h.responseEvent hresponse
    refine ⟨hlate, fun command hmem => ?_⟩
    obtain ⟨e, he, rfl⟩ := List.mem_map.mp hmem
    obtain ⟨relays, rfl⟩ := hsends e he
    refine not_mem_of_head? ?_
    simp [circuitBuildSetup, Command.text, ascii]
  start_position := rfl
  waiting_position := by
    intro c i h
    obtain ⟨-, hstates⟩ := h
    have hstate : ∀ {a b}, setupStates[i]? = some (a, b) → a.position = i := by
      intro a b hab
      rcases i with - | - | - | - | i
      · rw [← (Prod.mk.inj (Option.some.inj hab)).1, BuildState.position]
      · rw [← (Prod.mk.inj (Option.some.inj hab)).1, BuildState.position]
      · rw [← (Prod.mk.inj (Option.some.inj hab)).1, BuildState.position]
      · rw [← (Prod.mk.inj (Option.some.inj hab)).1, BuildState.position]
      · simp [setupStates] at hab
    exact hstate hstates
  late_position := by
    intro c _
    change c.state.position ≤ 4
    cases c.state <;> decide

/-- In every clean session of the circuit builder, the logger and the pinger, with a controller that
answers each command with one success reply in order, each setup command is put on the wire once and
in order, and the module passes a step only with the answer to its command. -/
theorem setup_once (es : List SetupEvent) :
    (∀ (args : List Bytes) (t : SetupSession (CircuitBuild args.length)),
      StepsMeet (circuitBuildSetup args).step
        (fun s e => SetupModule.Admissible s e ∧ (circuitBuildSetup args).Clean s e)
        (circuitBuildSetup args).newSession es →
      runSteps (circuitBuildSetup args).step (circuitBuildSetup args).newSession es = .ok t →
      (circuitBuildSetup args).Aligned t) ∧
    (∀ (arg : Bytes) (t : SetupSession Logger), IsLine arg →
      StepsMeet (loggerSetup arg).step
        (fun s e => SetupModule.Admissible s e ∧ (loggerSetup arg).Clean s e)
        (loggerSetup arg).newSession es →
      runSteps (loggerSetup arg).step (loggerSetup arg).newSession es = .ok t →
      (loggerSetup arg).Aligned t) ∧
    (∀ (pingRelay : Bytes) (t : SetupSession Pinger),
      StepsMeet (pingerSetup pingRelay).step
        (fun s e => SetupModule.Admissible s e ∧ (pingerSetup pingRelay).Clean s e)
        (pingerSetup pingRelay).newSession es →
      runSteps (pingerSetup pingRelay).step (pingerSetup pingRelay).newSession es = .ok t →
      (pingerSetup pingRelay).Aligned t) := by
  refine ⟨?_, ?_, ?_⟩
  · intro args t hmeet hrun
    exact SetupModule.aligned_of_clean (circuitBuildStepwise args) hmeet hrun
  · intro arg t harg hmeet hrun
    exact SetupModule.aligned_of_clean (loggerStepwise arg harg) hmeet hrun
  · intro pingRelay t hmeet hrun
    exact SetupModule.aligned_of_clean (pingerStepwise pingRelay) hmeet hrun

/-- The reply `250 OK`, where every `send` takes the whole buffer. -/
def okReply : SetupEvent := .reply [({ code := 250, body := ascii "OK", data := [] }, .ready 99)]

/-- The replies to a module that asks for the bootstrap phase. -/
def bootstrapReplies : List SetupEvent :=
  [.activation (.ready 99), okReply, okReply, okReply,
    .reply [({ code := 250, body := ascii "status/bootstrap-phase=NOTICE BOOTSTRAP PROGRESS=100",
               data := [] }, .ready 99),
      ({ code := 250, body := ascii "OK", data := [] }, .ready 99)]]

/-- Three setups without a disturbance. -/
theorem setup_once_ok :
    (∃ t, runSteps (circuitBuildSetup [ascii "a"]).step (circuitBuildSetup [ascii "a"]).newSession
        bootstrapReplies = .ok t ∧ (circuitBuildSetup [ascii "a"]).Aligned t) ∧
    (∃ t, runSteps (loggerSetup (ascii "bw")).step (loggerSetup (ascii "bw")).newSession
        [.activation (.ready 99), okReply, okReply] = .ok t ∧
      (loggerSetup (ascii "bw")).Aligned t) ∧
    (∃ t, runSteps (pingerSetup (ascii "a")).step (pingerSetup (ascii "a")).newSession
        [.activation (.ready 99), okReply, okReply] = .ok t ∧
      (pingerSetup (ascii "a")).Aligned t) := by
  refine ⟨?_, ?_, ?_⟩
  · obtain ⟨t, ht⟩ : Succeeds (runSteps (circuitBuildSetup [ascii "a"]).step
        (circuitBuildSetup [ascii "a"]).newSession bootstrapReplies) :=
      succeeds_of_isOk (by decide +kernel)
    exact ⟨t, ht, (setup_once bootstrapReplies).1 [ascii "a"] t (by decide +kernel) ht⟩
  · obtain ⟨t, ht⟩ : Succeeds (runSteps (loggerSetup (ascii "bw")).step
        (loggerSetup (ascii "bw")).newSession [.activation (.ready 99), okReply, okReply]) :=
      succeeds_of_isOk (by decide +kernel)
    exact ⟨t, ht, (setup_once [.activation (.ready 99), okReply, okReply]).2.1 (ascii "bw") t
      (by decide) (by decide +kernel) ht⟩
  · obtain ⟨t, ht⟩ : Succeeds (runSteps (pingerSetup (ascii "a")).step
        (pingerSetup (ascii "a")).newSession [.activation (.ready 99), okReply, okReply]) :=
      succeeds_of_isOk (by decide +kernel)
    exact ⟨t, ht, (setup_once [.activation (.ready 99), okReply, okReply]).2.2 (ascii "a") t
      (by decide +kernel) ht⟩

/-- The first `send` would block, and the next activation sends the command again. -/
theorem not_setup_once_wouldBlock :
    StepsMeet (circuitBuildSetup [ascii "a"]).step SetupModule.Admissible
        (circuitBuildSetup [ascii "a"]).newSession
        [.activation (.failed .wouldBlock), .activation (.ready 99)] ∧
      ∃ t, runSteps (circuitBuildSetup [ascii "a"]).step (circuitBuildSetup [ascii "a"]).newSession
          [.activation (.failed .wouldBlock), .activation (.ready 99)] = .ok t ∧
        t.port.wire = ascii "AUTHENTICATE \"password\"\r\nAUTHENTICATE \"password\"\r\n" ∧
        ¬(circuitBuildSetup [ascii "a"]).Aligned t := by
  refine ⟨by decide +kernel, _, rfl, by decide +kernel, ?_⟩
  intro h
  obtain ⟨k, -, hk, hwire⟩ := h.wire (by decide)
  have hle : k ≤ 1 := hk
  obtain rfl | rfl : k = 0 ∨ k = 1 := by omega
  · exact absurd hwire (by decide +kernel)
  · exact absurd hwire (by decide +kernel)

end ShadowExtras.TorControl
