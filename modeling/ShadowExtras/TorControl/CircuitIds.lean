import ShadowExtras.TorControl.CircuitBuild

/-!
# Circuit ids belong to their circuits

A session of the circuit builder with a controller: the builder's commands wait in the order in
which they were sent, the controller answers the oldest one, and asynchronous events come in between
at any time. `announced` records, for every `250 EXTENDED id`, the relays of the command that it
answers.

The builder matches an `EXTENDED` reply to the head of its queue, and reads the data of any success
reply that arrives in state `GET_CIRC_ID` as a circuit id. Both are right under the invariant
`Matched`: there is at most one unanswered `EXTENDCIRCUIT`, it is for the head of the queue, and
there is none outside that state. Two things break it, and `Undisturbed` excludes them: a bootstrap
event with progress 100 that arrives while an `EXTENDCIRCUIT` is unanswered makes the builder send
another one for the same circuit, and a bootstrap-phase reply that arrives in state `GET_CIRC_ID`
is taken for an `EXTENDED` reply.
-/

namespace ShadowExtras.TorControl

open Foundation

/-! ## Sessions -/

/-- A circuit builder and its controller. -/
structure BuildSession (n : Nat) where
  builder : CircuitBuild n
  /-- `connection->initialized`. -/
  initialized : Bool
  /-- The commands that are not answered yet, oldest first. -/
  outstanding : List Command
  /-- The relays and the id of every `EXTENDCIRCUIT` that was answered with `250 EXTENDED id`. -/
  announced : List (Bytes × Nat)

/-- A session that is about to start. -/
def BuildSession.new (args : List Bytes) : BuildSession args.length where
  builder := torControlCircuitBuildNew args
  initialized := false
  outstanding := []
  announced := []

/-- What happens in a session. The flags tell whether `send` accepts a setup command. -/
inductive BuildEvent
  /-- An activation of the connection, which starts with the module's `initialize`. -/
  | activate (sent : Bool)
  /-- The oldest command is answered with `250 EXTENDED id`. -/
  | extended (id : Nat) (sent : Bool)
  /-- The oldest command is answered with another reply. -/
  | reply (lines : List (ReplyLine × Bool))
  /-- A `CIRC` event. -/
  | circ (circID : Int) (status : CircStatus)
  /-- A `STREAM` event at the time `now`. -/
  | stream (streamID : Int) (status : StreamStatus) (now : Int)
  /-- A `STATUS_CLIENT` event. -/
  | status (type : StatusType) (action : Bytes) (progress : Option Bytes)
  /-- An event without a handler in the circuit builder. -/
  | other
  deriving DecidableEq

/-- The reply line `250 EXTENDED id`. -/
def extendedLine (id : Nat) : ReplyLine :=
  { code := 250, body := ascii "EXTENDED " ++ decimal id, data := [] }

/-- The relays of an `EXTENDCIRCUIT` command. -/
def Command.relays? : Command → Option Bytes
  | .extendCircuit relays => some relays
  | _ => none

namespace BuildSession

variable {n : Nat}

/-- The session after a handler has run. -/
def handled (s : BuildSession n) (r : CircuitBuild n × List Command) : BuildSession n :=
  { s with builder := r.1, outstanding := s.outstanding ++ r.2 }

/-- The session after the oldest command was answered with `reply`. -/
def answered (s : BuildSession n) (reply : List (ReplyLine × Bool)) :
    Except BuildFault (BuildSession n) :=
  match processReply s.builder reply with
  | .error fault => .error fault
  | .ok r => .ok ({ s with outstanding := s.outstanding.tail }.handled r)

/-- Record the id that the oldest command was answered with. -/
def announce (s : BuildSession n) (id : Nat) : BuildSession n :=
  match s.outstanding.head?.bind Command.relays? with
  | some relays => { s with announced := s.announced ++ [(relays, id)] }
  | none => s

/-- One event of a session. -/
def step (s : BuildSession n) : BuildEvent → Except BuildFault (BuildSession n)
  | .activate sent =>
    if s.initialized then .ok s
    else
      let r := circuitBuildInitialize s.builder sent
      .ok { s.handled r.1 with initialized := r.2 }
  | .extended id sent => (s.announce id).answered [(extendedLine id, sent)]
  | .reply lines => s.answered lines
  | .circ circID status => .ok (s.handled (circuitBuildCircEvent s.builder circID status))
  | .stream streamID status now =>
    .ok (s.handled (circuitBuildStreamEvent s.builder streamID status now))
  | .status type action progress =>
    .ok (s.handled (circuitBuildStatusEvent s.builder type action progress))
  | .other => .ok s

/-- The relays of the unanswered `EXTENDCIRCUIT` commands. -/
def extending (s : BuildSession n) : List Bytes := s.outstanding.filterMap Command.relays?

/-- What the controller does: it answers `EXTENDED` to `EXTENDCIRCUIT` commands only, and an answer
belongs to a command. -/
def Admissible (s : BuildSession n) : BuildEvent → Prop
  | .extended _ _ => s.outstanding.head?.bind Command.relays? ≠ none
  | .reply lines => s.outstanding ≠ [] ∧ ∀ line ∈ lines, isExtended line.1.body = false
  | _ => True

instance (s : BuildSession n) (e : BuildEvent) : Decidable (s.Admissible e) := by
  cases e <;> unfold Admissible <;> infer_instance

/-- The builder is not disturbed: no bootstrap event with progress 100 arrives while an
`EXTENDCIRCUIT` is unanswered, no bootstrap-phase line of a success reply is handled in state
`GET_CIRC_ID`, and the announced ids are in the range of `int`. -/
def Undisturbed (s : BuildSession n) : BuildEvent → Prop
  | .status type action progress => fullyBootstrapped type action progress = true → s.extending = []
  | .reply lines => ∀ first ∈ lines.head?, Int.tdiv first.1.code 100 = 2 →
      StepsMeet (processReplyLine first.1.code)
        (fun r line => r.1.state = .getCircId → isBootstrapPhase line.1.body = false)
        (s.builder, []) lines
  | .extended id _ => id < 2 ^ 31
  | _ => True

instance (s : BuildSession n) (e : BuildEvent) : Decidable (s.Undisturbed e) := by
  cases e <;> unfold Undisturbed <;> infer_instance

/-- Every circuit has no id yet, or one that was announced for a command with its relays. -/
def IdsBelong (s : BuildSession n) : Prop :=
  ∀ i, (s.builder.circuits i).circID = -1 ∨
    ∃ id : Nat, ((s.builder.circuits i).relays, id) ∈ s.announced ∧
      (s.builder.circuits i).circID = id

end BuildSession

/-! ## The invariant -/

/-- The relays of the `EXTENDCIRCUIT` commands among some commands. -/
def extendingOf (commands : List Command) : List Bytes := commands.filterMap Command.relays?

@[simp] theorem extendingOf_nil : extendingOf [] = [] := rfl

@[simp] theorem extendingOf_append (a b : List Command) :
    extendingOf (a ++ b) = extendingOf a ++ extendingOf b := List.filterMap_append

/-- The builder is in its setup phase. -/
def BuildState.isSetup : BuildState → Bool
  | .authenticate | .setconfs | .setevents | .checkstatus => true
  | .createCircuit | .getCircId | .attachStreams => false

/-- The builder's queue and state match the unanswered `EXTENDCIRCUIT` commands, and the ids of its
circuits were announced. -/
structure Matched {n : Nat} (c : CircuitBuild n) (extending : List Bytes)
    (announced : List (Bytes × Nat)) : Prop where
  /-- A circuit has no id, or an announced one. -/
  ids : ∀ i, (c.circuits i).circID = -1 ∨
    ∃ id : Nat, ((c.circuits i).relays, id) ∈ announced ∧ (c.circuits i).circID = id
  /-- At most one `EXTENDCIRCUIT` is unanswered, and it is for the head of the queue. -/
  head : extending = [] ∨
    ∃ i rest, c.circuitsToBuild = i :: rest ∧ extending = [(c.circuits i).relays]
  /-- A circuit that waits for its id is queued. -/
  queued : c.state = .getCircId → c.circuitsToBuild ≠ []
  /-- During the setup phase the circuits are still queued. -/
  setup : c.state.isSetup = true → c.circuitsToBuild ≠ []
  /-- Outside of `GET_CIRC_ID` no `EXTENDCIRCUIT` is unanswered. -/
  idle : c.state ≠ .getCircId → extending = []

section Matched

variable {n : Nat} {c : CircuitBuild n} {extending : List Bytes} {announced : List (Bytes × Nat)}

/-- Only the circuits, the queue and the state of the builder matter. -/
theorem Matched.of_eq {c' : CircuitBuild n} (h : Matched c extending announced)
    (hcircuits : c'.circuits = c.circuits) (hqueue : c'.circuitsToBuild = c.circuitsToBuild)
    (hstate : c'.state = c.state) : Matched c' extending announced where
  ids := hcircuits ▸ h.ids
  head := by rw [hcircuits, hqueue]; exact h.head
  queued := by rw [hstate, hqueue]; exact h.queued
  setup := by rw [hstate, hqueue]; exact h.setup
  idle := by rw [hstate]; exact h.idle

/-- Sending `EXTENDCIRCUIT` for the head of the queue, when no other is unanswered. -/
theorem Matched.extend {c' : CircuitBuild n} (h : Matched c [] announced)
    (hcircuits : c'.circuits = c.circuits) {i : Fin n} {rest : List (Fin n)}
    (hqueue : c'.circuitsToBuild = i :: rest) (hstate : c'.state = .getCircId)
    (hext : extending = [(c.circuits i).relays]) : Matched c' extending announced where
  ids := hcircuits ▸ h.ids
  head := .inr ⟨i, rest, hqueue, by rw [hcircuits, hext]⟩
  queued := by simp [hqueue]
  setup := by simp [hqueue]
  idle := fun hne => absurd hstate hne

/-- `_torControlCircuitBuild_initialize` sends setup commands only. -/
theorem Matched.setupCommands (h : Matched c extending announced) (sent : Bool) :
    Matched (circuitBuildInitialize c sent).1.1
      (extending ++ extendingOf (circuitBuildInitialize c sent).1.2) announced := by
  have hsetup : ∀ (command : Command) (next : BuildState), command.relays? = none →
      Matched (setupCommand c command next sent).1
        (extending ++ extendingOf (setupCommand c command next sent).2) announced := by
    intro command next hnone
    have hnil : extendingOf (setupCommand c command next sent).2 = [] := by
      simp [setupCommand, extendingOf, hnone]
    rw [hnil, List.append_nil]
    cases sent with
    | false => exact h
    | true => exact h.of_eq rfl rfl rfl
  unfold circuitBuildInitialize
  split
  · simpa using h
  · split
    · exact hsetup _ _ rfl
    · exact hsetup _ _ rfl
    · exact hsetup _ _ rfl
    · exact hsetup _ _ rfl
    all_goals simpa using h

/-- A closed circuit is queued again, and its `EXTENDCIRCUIT` is sent when the queue was empty. -/
theorem Matched.circEvent (h : Matched c extending announced) (circID : Int)
    (status : CircStatus) :
    Matched (circuitBuildCircEvent c circID status).1
      (extending ++ extendingOf (circuitBuildCircEvent c circID status).2) announced := by
  unfold circuitBuildCircEvent
  split
  · split
    · simpa using h
    · rename_i i hfind
      dsimp only
      by_cases hempty : c.circuitsToBuild = []
      · have hnone : extending = [] := by
          rcases h.head with hnil | ⟨j, rest, hqueue, -⟩
          · exact hnil
          · rw [hempty] at hqueue
            simp at hqueue
        subst hnone
        have hqueue : c.circuitsToBuild ++ [i] = [i] := by rw [hempty, List.nil_append]
        rw [hqueue]
        exact h.extend rfl rfl rfl rfl
      · have hlong : (c.circuitsToBuild ++ [i]).length ≠ 1 := by
          have := List.length_pos_iff.mpr hempty
          rw [List.length_append, List.length_singleton]
          omega
        rw [if_neg hlong, extendingOf_nil, List.append_nil]
        exact
          { ids := h.ids
            head := h.head.imp id fun ⟨j, rest, hqueue, hext⟩ =>
              ⟨j, rest ++ [i], by simp [hqueue], hext⟩
            queued := by simp
            setup := by simp
            idle := fun hne => absurd rfl hne }
  · simpa using h

/-- `_torControlCircuitBuild_streamEvent` sends `ATTACHSTREAM` only. -/
theorem Matched.streamEvent (h : Matched c extending announced) (streamID : Int)
    (status : StreamStatus) (now : Int) :
    Matched (circuitBuildStreamEvent c streamID status now).1
      (extending ++ extendingOf (circuitBuildStreamEvent c streamID status now).2) announced := by
  unfold circuitBuildStreamEvent
  split
  · split
    · exact (List.append_nil extending).symm ▸ h
    · exact (List.append_nil extending).symm ▸ h
  · simpa using h

/-- A bootstrap event with progress 100 sends `EXTENDCIRCUIT` for the head of the queue. -/
theorem Matched.statusEvent (h : Matched c extending announced) (type : StatusType)
    (action : Bytes) (progress : Option Bytes)
    (hnone : fullyBootstrapped type action progress = true → extending = []) :
    Matched (circuitBuildStatusEvent c type action progress).1
      (extending ++ extendingOf (circuitBuildStatusEvent c type action progress).2) announced := by
  unfold circuitBuildStatusEvent
  split
  · rename_i hfull
    obtain rfl := hnone hfull
    split
    · dsimp only
      exact h.of_eq rfl rfl rfl
    · rename_i i hhead
      obtain ⟨rest, hqueue⟩ := List.head?_eq_some_iff.mp hhead
      dsimp only
      exact h.extend rfl hqueue rfl rfl
  · simpa using h

/-- A success reply without data, or with the bootstrap phase outside of `GET_CIRC_ID`, never
follows a NULL pointer. -/
theorem Matched.successEvent (h : Matched c extending announced) (userData : Option Int)
    (hdata : c.state = .getCircId → userData = none) :
    ∃ r, TorControl.successEvent c userData = .ok r ∧
      Matched r.1 (extending ++ extendingOf r.2) announced := by
  unfold TorControl.successEvent
  have hnext : c.state.isSetup = true →
      Matched { c with state := c.nextState, waitingForResponse := false } extending
        announced := fun hsetup =>
    { ids := h.ids
      head := h.head
      queued := fun _ => h.setup hsetup
      setup := fun _ => h.setup hsetup
      idle := fun _ => h.idle (by rintro hstate; simp [hstate, BuildState.isSetup] at hsetup) }
  cases hstate : c.state with
  | authenticate => exact ⟨_, rfl, by simpa using hnext (by simp [hstate, BuildState.isSetup])⟩
  | setconfs => exact ⟨_, rfl, by simpa using hnext (by simp [hstate, BuildState.isSetup])⟩
  | setevents => exact ⟨_, rfl, by simpa using hnext (by simp [hstate, BuildState.isSetup])⟩
  | checkstatus =>
    have hqueue : c.circuitsToBuild ≠ [] := h.setup (by simp [hstate, BuildState.isSetup])
    obtain rfl : extending = [] := h.idle (by simp [hstate])
    cases userData with
    | none => exact ⟨_, rfl, by simpa using h⟩
    | some progress =>
      by_cases hfull : progress = 100
      · obtain ⟨i, rest, hcons⟩ := List.exists_cons_of_ne_nil hqueue
        simp only [hfull, if_true, hcons, List.head?_cons]
        refine ⟨_, rfl, ?_⟩
        dsimp only
        exact h.extend rfl rfl rfl rfl
      · simp only [hfull, if_false]
        refine ⟨_, rfl, ?_⟩
        exact
          { ids := h.ids
            head := .inl rfl
            queued := fun hget => by simp at hget
            setup := fun hsetup => by simp [BuildState.isSetup] at hsetup
            idle := fun _ => rfl }
  | getCircId =>
    rw [hdata hstate]
    exact ⟨_, rfl, by simpa using h⟩
  | createCircuit => exact ⟨_, rfl, by simpa using h⟩
  | attachStreams => exact ⟨_, rfl, by simpa using h⟩

/-- The head of the queue gets the announced id, and the next circuit is extended. -/
theorem Matched.popHead {relays : Bytes} (id : Nat) (h : Matched c [relays] announced) :
    ∃ r, TorControl.successEvent c (some (id : Int)) = .ok r ∧
      Matched r.1 (extendingOf r.2) (announced ++ [(relays, id)]) := by
  have hstate : c.state = .getCircId := by
    by_contra hne
    exact absurd (h.idle hne) (by simp)
  obtain ⟨i, rest, hqueue, hrelays⟩ := h.head.resolve_left (by simp)
  obtain rfl : relays = (c.circuits i).relays := by simpa using hrelays
  -- the circuits after the pop, and what is known of their ids
  let circuits := Function.update c.circuits i { c.circuits i with circID := id }
  have hids : ∀ j, (circuits j).circID = -1 ∨
      ∃ id' : Nat, ((circuits j).relays, id') ∈ announced ++ [((c.circuits i).relays, id)] ∧
        (circuits j).circID = id' := by
    intro j
    by_cases hj : j = i
    · subst hj
      exact .inr ⟨id, by simp [circuits], by simp [circuits]⟩
    · rcases h.ids j with hnone | ⟨id', hmem, hid⟩
      · exact .inl (by simpa [circuits, hj] using hnone)
      · exact .inr ⟨id', by simp [circuits, hj, hmem], by simpa [circuits, hj] using hid⟩
  simp only [TorControl.successEvent, hstate, hqueue]
  cases rest with
  | nil =>
    refine ⟨_, rfl, ?_⟩
    exact
      { ids := hids
        head := .inl rfl
        queued := fun hget => by simp at hget
        setup := fun hsetup => by simp [BuildState.isSetup] at hsetup
        idle := fun _ => rfl }
  | cons j rest =>
    refine ⟨_, rfl, ?_⟩
    exact
      { ids := hids
        head := .inr ⟨j, rest, rfl, rfl⟩
        queued := fun _ => by simp
        setup := fun _ => by simp
        idle := fun hne => absurd rfl hne }

/-- A line of a reply that is not `EXTENDED`, handled undisturbed. -/
theorem Matched.processReplyLine {commands : List Command} {line : ReplyLine × Bool} (code : Int)
    (h : Matched c (extending ++ extendingOf commands) announced)
    (hext : isExtended line.1.body = false)
    (hphase : Int.tdiv code 100 = 2 → c.state = .getCircId →
      isBootstrapPhase line.1.body = false) :
    ∃ r, TorControl.processReplyLine code (c, commands) line = .ok r ∧
      Matched r.1 (extending ++ extendingOf r.2) announced := by
  by_cases hcode : Int.tdiv code 100 = 2
  · obtain ⟨userData, hdata, hnone⟩ : ∃ userData, userDataOf line.1.body = .ok userData ∧
        (c.state = .getCircId → userData = none) := by
      by_cases hboot : isBootstrapPhase line.1.body = true
      · refine ⟨_, by simp only [userDataOf, hext, hboot]; rfl, fun hget => ?_⟩
        simp [hphase hcode hget] at hboot
      · exact ⟨none, by simp [userDataOf, hext, hboot], fun _ => rfl⟩
    obtain ⟨⟨c', sent⟩, hsuccess, hc'⟩ := h.successEvent userData hnone
    have hline : TorControl.processReplyLine code (c, commands) line =
        .ok ((circuitBuildInitialize c' line.2).1.1,
          commands ++ (sent ++ (circuitBuildInitialize c' line.2).1.2)) := by
      simp only [TorControl.processReplyLine, hdata, circuitBuildResponseEvent, hcode, if_true,
        hsuccess]
    refine ⟨_, hline, ?_⟩
    simpa [List.append_assoc] using hc'.setupCommands line.2
  · obtain ⟨userData, hdata⟩ : ∃ userData, userDataOf line.1.body = .ok userData := by
      by_cases hboot : isBootstrapPhase line.1.body = true
      · exact ⟨_, by simp only [userDataOf, hext, hboot]; rfl⟩
      · exact ⟨none, by simp [userDataOf, hext, hboot]⟩
    have hline : TorControl.processReplyLine code (c, commands) line = .ok (c, commands ++ []) := by
      simp only [TorControl.processReplyLine, hdata, circuitBuildResponseEvent, hcode, if_false]
    refine ⟨_, hline, ?_⟩
    simpa using h

/-- The line `250 EXTENDED id` carries the id. -/
theorem userDataOf_extendedLine {id : Nat} (hid : id < 2 ^ 31) :
    userDataOf (extendedLine id).body = .ok (some (id : Int)) := by
  have hblank : (32 : Byte) ∉ decimal id := fun hmem =>
    absurd (isDigit_of_mem_decimal hmem) (by decide)
  have hpre : isExtended (extendedLine id).body = true := by
    rw [isExtended, List.isPrefixOf_iff_prefix]
    exact ⟨32 :: decimal id, rfl⟩
  have hwords : strsplit 32 (extendedLine id).body = [ascii "EXTENDED", decimal id] := by
    have hbody : (extendedLine id).body = ascii "EXTENDED" ++ 32 :: decimal id := rfl
    rw [hbody, strsplit_append_cons (by decide), List.splitOn_eq_singleton hblank]
  have hread : atoi (decimal id) = id := by
    have hnil : atoi (decimal id ++ []) = id := atoi_decimal_append hid (by simp)
    rwa [List.append_nil] at hnil
  simp [userDataOf, hpre, hwords, hread]

end Matched

/-! ## Sessions keep the invariant -/

namespace BuildSession

variable {n : Nat} {s : BuildSession n}

/-- The invariant of a session. -/
def Inv (s : BuildSession n) : Prop :=
  Matched s.builder (extendingOf s.outstanding) s.announced

/-- A handler that keeps the builder matched keeps the session's invariant. -/
theorem Inv.handled {r : CircuitBuild n × List Command}
    (h : Matched r.1 (extendingOf s.outstanding ++ extendingOf r.2) s.announced) :
    Inv (s.handled r) := by
  have hout : extendingOf (s.handled r).outstanding =
      extendingOf s.outstanding ++ extendingOf r.2 := extendingOf_append _ _
  unfold Inv
  rw [hout]
  exact h

/-- Answering the oldest command leaves at most the same `EXTENDCIRCUIT` unanswered. -/
theorem Inv.tail (h : Inv s) :
    Matched s.builder (extendingOf s.outstanding.tail) s.announced := by
  have hcases : extendingOf s.outstanding.tail = extendingOf s.outstanding ∨
      extendingOf s.outstanding.tail = [] := by
    cases hout : s.outstanding with
    | nil => exact .inl rfl
    | cons command rest =>
      cases hrelays : command.relays? with
      | none => exact .inl (by simp [extendingOf, hrelays])
      | some relays =>
        right
        have hext : extendingOf s.outstanding = relays :: extendingOf rest := by
          simp [extendingOf, hout, hrelays]
        rcases h.head with hnil | ⟨i, queue, -, hone⟩
        · rw [hext] at hnil
          simp at hnil
        · rw [hext] at hone
          simpa using (List.cons.inj hone).2
  rcases hcases with hsame | hnil
  · rw [hsame]
    exact h
  · rw [hnil]
    exact
      { ids := h.ids
        head := .inl rfl
        queued := h.queued
        setup := h.setup
        idle := fun _ => rfl }

/-- An answer whose processing succeeds. -/
theorem answered_eq_ok {lines : List (ReplyLine × Bool)} {r : CircuitBuild n × List Command}
    (h : processReply s.builder lines = .ok r) :
    s.answered lines = .ok (handled { s with outstanding := s.outstanding.tail } r) := by
  simp only [answered, h]

/-- A reply that is not `EXTENDED`, handled undisturbed, keeps the invariant. -/
theorem Inv.reply (h : Inv s) {lines : List (ReplyLine × Bool)}
    (hext : ∀ line ∈ lines, isExtended line.1.body = false)
    (hphase : s.Undisturbed (.reply lines)) : ∃ t, s.answered lines = .ok t ∧ Inv t := by
  have hdone : ∃ r, processReply s.builder lines = .ok r ∧
      Matched r.1 (extendingOf s.outstanding.tail ++ extendingOf r.2) s.announced := by
    cases lines with
    | nil => exact ⟨(s.builder, []), rfl, by simpa using h.tail⟩
    | cons first rest =>
      simp only [processReply]
      by_cases hcode : Int.tdiv first.1.code 100 ∈ [2, 4, 5]
      · rw [if_pos hcode]
        have hmeet : StepsMeet (processReplyLine first.1.code)
            (fun r line => isExtended line.1.body = false ∧
              (Int.tdiv first.1.code 100 = 2 → r.1.state = .getCircId →
                isBootstrapPhase line.1.body = false)) (s.builder, []) (first :: rest) := by
          by_cases hsuccess : Int.tdiv first.1.code 100 = 2
          · exact (hphase first rfl hsuccess).imp fun r line hline hquiet =>
              ⟨hext line hline, fun _ => hquiet⟩
          · exact stepsMeet_of_forall_mem fun r line hline =>
              ⟨hext line hline, fun hcode => absurd hcode hsuccess⟩
        exact runSteps_ok_of_stepsMeet
          (fun r => Matched r.1 (extendingOf s.outstanding.tail ++ extendingOf r.2) s.announced)
          (fun r line hr hline => hr.processReplyLine first.1.code hline.1 hline.2)
          (by simpa using h.tail) hmeet
      · rw [if_neg hcode]
        exact ⟨(s.builder, []), rfl, by simpa using h.tail⟩
  obtain ⟨r, hr, hmatched⟩ := hdone
  exact ⟨_, answered_eq_ok hr, Inv.handled hmatched⟩

/-- The reply `250 EXTENDED id` to an `EXTENDCIRCUIT` keeps the invariant. -/
theorem Inv.extended (h : Inv s) {id : Nat} {sent : Bool} {relays : Bytes} {rest : List Command}
    (hout : s.outstanding = .extendCircuit relays :: rest) (hid : id < 2 ^ 31) :
    ∃ t, (s.announce id).answered [(extendedLine id, sent)] = .ok t ∧ Inv t := by
  have hext : extendingOf s.outstanding = relays :: extendingOf rest := by
    simp [extendingOf, hout, Command.relays?]
  have hrest : extendingOf rest = [] := by
    rcases h.head with hnil | ⟨i, queue, -, hone⟩
    · rw [hext] at hnil
      simp at hnil
    · rw [hext] at hone
      exact (List.cons.inj hone).2
  have hmatched : Matched s.builder [relays] s.announced := by
    have hs : Matched s.builder (extendingOf s.outstanding) s.announced := h
    rwa [hext, hrest] at hs
  obtain ⟨⟨c, commands⟩, hsuccess, hpop⟩ := hmatched.popHead id
  have hannounce : s.announce id = { s with announced := s.announced ++ [(relays, id)] } := by
    simp [announce, hout, Command.relays?]
  have hreply : processReply s.builder [(extendedLine id, sent)] =
      .ok ((circuitBuildInitialize c sent).1.1,
        commands ++ (circuitBuildInitialize c sent).1.2) := by
    have hcode : Int.tdiv (extendedLine id).code 100 = 2 := rfl
    simp [processReply, runSteps, TorControl.processReplyLine, userDataOf_extendedLine hid,
      circuitBuildResponseEvent, hcode, hsuccess]
  rw [hannounce]
  refine ⟨_, answered_eq_ok hreply, Inv.handled ?_⟩
  simpa [hout, hrest] using hpop.setupCommands sent

/-- Every admissible and undisturbed event of a session keeps the invariant, and no NULL pointer is
followed. -/
theorem Inv.step (h : Inv s) {e : BuildEvent} (hadm : s.Admissible e) (hquiet : s.Undisturbed e) :
    ∃ t, BuildSession.step s e = .ok t ∧ Inv t := by
  cases e with
  | activate sent =>
    by_cases hinit : s.initialized = true
    · exact ⟨s, by simp [BuildSession.step, hinit], h⟩
    · refine ⟨_, by simp only [BuildSession.step, hinit]; rfl, ?_⟩
      exact Inv.handled (Matched.setupCommands h sent)
  | extended id sent =>
    obtain ⟨relays, hrelays⟩ := Option.ne_none_iff_exists'.mp hadm
    obtain ⟨command, hhead, hcommand⟩ := Option.bind_eq_some_iff.mp hrelays
    obtain ⟨rest, hout⟩ := List.head?_eq_some_iff.mp hhead
    cases command with
    | extendCircuit relays => exact h.extended hout hquiet
    | _ => simp [Command.relays?] at hcommand
  | reply lines => exact h.reply hadm.2 hquiet
  | circ circID status => exact ⟨_, rfl, Inv.handled (Matched.circEvent h circID status)⟩
  | stream streamID status now =>
    exact ⟨_, rfl, Inv.handled (Matched.streamEvent h streamID status now)⟩
  | status type action progress =>
    exact ⟨_, rfl, Inv.handled (Matched.statusEvent h type action progress hquiet)⟩
  | other => exact ⟨s, rfl, h⟩

/-- A session starts matched. -/
theorem inv_new {args : List Bytes} (hargs : args ≠ []) : Inv (BuildSession.new args) where
  ids := by
    intro i
    left
    simp only [BuildSession.new, torControlCircuitBuildNew, Circuit.ofArg]
    split <;> rfl
  head := .inl rfl
  queued := fun hget => by simp [BuildSession.new, torControlCircuitBuildNew] at hget
  setup := by
    intro _ hnil
    have hlen : (List.finRange args.length).length = 0 := by
      rw [show List.finRange args.length = [] from hnil, List.length_nil]
    rw [List.length_finRange] at hlen
    exact hargs (List.length_eq_zero_iff.mp hlen)
  idle := fun _ => rfl

/-- Along every undisturbed session with a controller that answers commands in order, no NULL
pointer is followed, in particular the queue of circuits is never popped when it is empty, and
every circuit has no id or the one announced for a command with its relays. -/
theorem idsBelong_of_undisturbed (args : List Bytes) (hargs : args ≠ []) (es : List BuildEvent)
    (hmeet : StepsMeet step (fun s e => s.Admissible e ∧ s.Undisturbed e)
      (BuildSession.new args) es) :
    ∃ t, runSteps step (BuildSession.new args) es = .ok t ∧ t.IdsBelong := by
  obtain ⟨t, hrun, hinv⟩ := runSteps_ok_of_stepsMeet Inv
    (fun s e hs he => hs.step he.1 he.2) (inv_new hargs) hmeet
  exact ⟨t, hrun, hinv.ids⟩

/-- The replies of the controller up to the bootstrap phase, which is complete. -/
def setupEvents : List BuildEvent :=
  [.activate true,
    .reply [({ code := 250, body := ascii "OK", data := [] }, true)],
    .reply [({ code := 250, body := ascii "OK", data := [] }, true)],
    .reply [({ code := 250, body := ascii "OK", data := [] }, true)],
    .reply [({ code := 250, body := ascii "status/bootstrap-phase=NOTICE BOOTSTRAP PROGRESS=100",
               data := [] }, true),
      ({ code := 250, body := ascii "OK", data := [] }, true)]]

/-- Two circuits that get their ids one after the other. -/
theorem idsBelong_of_undisturbed_two :
    ∃ t, runSteps step (BuildSession.new [ascii "a", ascii "b"])
        (setupEvents ++ [.extended 5 true, .extended 6 true]) = .ok t ∧ t.IdsBelong :=
  idsBelong_of_undisturbed [ascii "a", ascii "b"] (by decide)
    (setupEvents ++ [.extended 5 true, .extended 6 true]) (by decide)

/-- A bootstrap event with progress 100 while the first circuit is being extended: the builder sends
`EXTENDCIRCUIT 0 a` twice, and gives the id of the second answer to the circuit `b`. -/
theorem not_idsBelong_bootstrap_twice :
    StepsMeet step Admissible (BuildSession.new [ascii "a", ascii "b"])
        (setupEvents ++ [.status .client (ascii "BOOTSTRAP") (some (ascii "100")),
          .extended 5 true, .extended 6 true]) ∧
      ∃ t, runSteps step (BuildSession.new [ascii "a", ascii "b"])
          (setupEvents ++ [.status .client (ascii "BOOTSTRAP") (some (ascii "100")),
            .extended 5 true, .extended 6 true]) = .ok t ∧
        t.announced = [(ascii "a", 5), (ascii "a", 6)] ∧ ¬t.IdsBelong := by
  refine ⟨by decide, _, rfl, rfl, ?_⟩
  intro h
  rcases h 1 with hnone | ⟨id, hmem, -⟩
  · exact absurd hnone (by decide)
  · change (ascii "b", id) ∈ [(ascii "a", 5), (ascii "a", 6)] at hmem
    simp [ascii] at hmem

end BuildSession

end ShadowExtras.TorControl
