import ShadowExtras.TorControl.CircuitIds

/-!
# Streams are attached to live circuits

An id is live from the `250 EXTENDED` reply that announces it until it is reported `CLOSED`. A
session with a history keeps the live ids, and for every `ATTACHSTREAM` the circuit id that it names
with the ids that were live when it was sent.

The builder attaches a new stream to the circuit of the current time span, whether that circuit has
an id or not. Under the invariant `Alive` every circuit that is not queued has a live id, so that
attaching is right when the circuit is not queued. A report that a circuit is closed queues only the
first circuit with its id, and the progress of a bootstrap phase may be taken for an id; `Steady`
excludes both.
-/

namespace ShadowExtras.TorControl

open Foundation

/-! ## Histories -/

/-- The circuit id of an `ATTACHSTREAM` command. -/
def Command.attachedTo? : Command → Option Int
  | .attachStream _ circID => some circID
  | _ => none

/-- The circuit ids of the `ATTACHSTREAM` commands among some commands. -/
def attachedTo (commands : List Command) : List Int := commands.filterMap Command.attachedTo?

@[simp] theorem attachedTo_nil : attachedTo [] = [] := rfl

@[simp] theorem attachedTo_append (a b : List Command) :
    attachedTo (a ++ b) = attachedTo a ++ attachedTo b := List.filterMap_append

/-- The ids that are live after an event. -/
def liveAfter (live : List Int) : BuildEvent → List Int
  | .extended id _ => (id : Int) :: live
  | .circ circID .closed => live.filter fun id => id ≠ circID
  | _ => live

/-- A session with its history. -/
structure LiveSession (n : Nat) where
  session : BuildSession n
  /-- The ids announced by `EXTENDED` replies and not reported closed since. -/
  live : List Int
  /-- The circuit id of every `ATTACHSTREAM`, with the ids that were live when it was sent. -/
  attached : List (Int × List Int)

/-- A session that is about to start. -/
def LiveSession.new (args : List Bytes) : LiveSession args.length where
  session := BuildSession.new args
  live := []
  attached := []

/-- The commands of a session that an event leaves unanswered. -/
def BuildSession.kept {n : Nat} (s : BuildSession n) : BuildEvent → List Command
  | .extended _ _ | .reply _ => s.outstanding.tail
  | _ => s.outstanding

namespace LiveSession

variable {n : Nat}

/-- One event of a session; the commands behind those that were kept are the ones sent. -/
def step (s : LiveSession n) (e : BuildEvent) : Except BuildFault (LiveSession n) :=
  match s.session.step e with
  | .error fault => .error fault
  | .ok t =>
    let live := liveAfter s.live e
    let sent := t.outstanding.drop (s.session.kept e).length
    .ok { session := t, live := live
          attached := s.attached ++ (attachedTo sent).map fun circID => (circID, live) }

/-- Every stream was attached to no circuit or to a live one. -/
def AttachesLive (s : LiveSession n) : Prop := ∀ a ∈ s.attached, a.1 = 0 ∨ a.1 ∈ a.2

end LiveSession

section Steady

variable {n : Nat}

/-- The circuit of the current time span. -/
def CircuitBuild.circuitAt (c : CircuitBuild n) (now : Int) : Option (Fin n) :=
  (List.finRange n).find? fun i => now ≥ (c.circuits i).startTime ∧
    (now < (c.circuits i).endTime ∨ (c.circuits i).endTime = -1)

/-- The first circuit with an id. -/
def CircuitBuild.circuitWith (c : CircuitBuild n) (circID : Int) : Option (Fin n) :=
  (List.finRange n).find? fun i => (c.circuits i).circID = circID

/-- A new stream arrives before the bootstrap is complete or in the time span of a circuit that is
not queued, every circuit with the id of a closed circuit but the first is queued, no
bootstrap-phase line of a success reply is handled in state `GET_CIRC_ID`, and the announced ids are
in the range of `int`. -/
def BuildSession.Steady (s : BuildSession n) : BuildEvent → Prop
  | .stream _ status now => status = .new ∧ s.builder.bootstrapped = true →
      ∀ i, s.builder.circuitAt now = some i → i ∉ s.builder.circuitsToBuild
  | .circ circID status => status = .closed →
      ∀ i, s.builder.circuitWith circID = some i →
        ∀ j, (s.builder.circuits j).circID = circID → j = i ∨ j ∈ s.builder.circuitsToBuild
  | .reply lines => ∀ first ∈ lines.head?, Int.tdiv first.1.code 100 = 2 →
      StepsMeet (processReplyLine first.1.code)
        (fun r line => r.1.state = .getCircId → isBootstrapPhase line.1.body = false)
        (s.builder, []) lines
  | .extended id _ => id < 2 ^ 31
  | _ => True

instance (s : BuildSession n) (e : BuildEvent) : Decidable (s.Steady e) := by
  match e with
  | .activate _ | .status .. | .other => exact instDecidableTrue
  | .extended .. | .reply _ | .circ .. | .stream .. =>
    unfold BuildSession.Steady
    infer_instance

end Steady

/-! ## The invariant -/

/-- A circuit that is not queued has a live id, and the queue is not empty where its head is
taken. -/
structure Alive {n : Nat} (c : CircuitBuild n) (live : List Int) : Prop where
  settled : ∀ i, i ∉ c.circuitsToBuild → (c.circuits i).circID ∈ live
  queued : c.state = .getCircId → c.circuitsToBuild ≠ []
  setup : c.state.isSetup = true → c.circuitsToBuild ≠ []

section Alive

variable {n : Nat} {c : CircuitBuild n} {live : List Int}

/-- Only the circuits, the queue and the state of the builder matter. -/
theorem Alive.of_eq {c' : CircuitBuild n} (h : Alive c live) (hcircuits : c'.circuits = c.circuits)
    (hqueue : c'.circuitsToBuild = c.circuitsToBuild) (hstate : c'.state = c.state) :
    Alive c' live where
  settled := by rw [hcircuits, hqueue]; exact h.settled
  queued := by rw [hstate, hqueue]; exact h.queued
  setup := by rw [hstate, hqueue]; exact h.setup

/-- `_torControlCircuitBuild_initialize` attaches no stream. -/
theorem Alive.setupCommands (h : Alive c live) (sent : Bool) :
    Alive (circuitBuildInitialize c sent).1.1 live ∧
      attachedTo (circuitBuildInitialize c sent).1.2 = [] := by
  have hsetup : ∀ (command : Command) (next : BuildState), command.attachedTo? = none →
      Alive (setupCommand c command next sent).1 live ∧
        attachedTo (setupCommand c command next sent).2 = [] := by
    intro command next hnone
    refine ⟨?_, by simp [setupCommand, attachedTo, hnone]⟩
    cases sent with
    | false => exact h
    | true => exact h.of_eq rfl rfl rfl
  unfold circuitBuildInitialize
  split
  · exact ⟨h, rfl⟩
  · split
    · exact hsetup _ _ rfl
    · exact hsetup _ _ rfl
    · exact hsetup _ _ rfl
    · exact hsetup _ _ rfl
    all_goals exact ⟨h, rfl⟩

/-- A closed circuit is queued, and then every circuit that is not has another id. -/
theorem Alive.circEvent (h : Alive c live) {circID : Int} {status : CircStatus}
    (hfirst : status = .closed → ∀ i, c.circuitWith circID = some i →
      ∀ j, (c.circuits j).circID = circID → j = i ∨ j ∈ c.circuitsToBuild) :
    Alive (circuitBuildCircEvent c circID status).1 (liveAfter live (.circ circID status)) ∧
      attachedTo (circuitBuildCircEvent c circID status).2 = [] := by
  by_cases hclosed : status = .closed
  · subst hclosed
    have hlive : ∀ {i}, (c.circuits i).circID ∈ live → (c.circuits i).circID ≠ circID →
        (c.circuits i).circID ∈ liveAfter live (.circ circID .closed) := by
      intro i hmem hne
      exact List.mem_filter.mpr ⟨hmem, by simpa using hne⟩
    unfold circuitBuildCircEvent
    rw [if_pos rfl]
    cases hfind : c.circuitWith circID with
    | none =>
      rw [show (List.finRange n).find? _ = none from hfind]
      refine ⟨⟨fun i hi => hlive (h.settled i hi) fun hid => ?_, h.queued, h.setup⟩, rfl⟩
      have hnone := List.find?_eq_none.mp hfind i (List.mem_finRange i)
      simp [hid] at hnone
    | some i =>
      rw [show (List.finRange n).find? _ = some i from hfind]
      dsimp only
      refine ⟨⟨fun j hj => ?_, by simp, by simp⟩, ?_⟩
      · rw [List.mem_append, List.mem_singleton, not_or] at hj
        refine hlive (h.settled j hj.1) fun hid => ?_
        rcases hfirst rfl i hfind j hid with rfl | hqueued
        · exact hj.2 rfl
        · exact hj.1 hqueued
      · split
        · rfl
        · rfl
  · have hsame : liveAfter live (.circ circID status) = live := by
      cases status <;> first | rfl | exact absurd rfl hclosed
    rw [hsame, circuitBuildCircEvent, if_neg hclosed]
    exact ⟨h, rfl⟩

/-- A bootstrap event with progress 100 changes the state only when a circuit is queued. -/
theorem Alive.statusEvent (h : Alive c live) (type : StatusType) (action : Bytes)
    (progress : Option Bytes) :
    Alive (circuitBuildStatusEvent c type action progress).1 live ∧
      attachedTo (circuitBuildStatusEvent c type action progress).2 = [] := by
  unfold circuitBuildStatusEvent
  split
  · split
    · exact ⟨h.of_eq rfl rfl rfl, rfl⟩
    · rename_i i hhead
      have hqueue : c.circuitsToBuild ≠ [] := by
        intro hnil
        simp [hnil] at hhead
      refine ⟨⟨h.settled, fun _ => hqueue, fun _ => hqueue⟩, rfl⟩
  · exact ⟨h, rfl⟩

/-- A success reply, with a live id if the builder takes it for one, attaches no stream. -/
theorem Alive.successEvent (h : Alive c live) (userData : Option Int)
    (hdata : c.state = .getCircId → ∀ id, userData = some id → id ∈ live) :
    ∃ r, TorControl.successEvent c userData = .ok r ∧ Alive r.1 live ∧ attachedTo r.2 = [] := by
  unfold TorControl.successEvent
  have hnext : c.state.isSetup = true →
      Alive { c with state := c.nextState, waitingForResponse := false } live := fun hsetup =>
    ⟨h.settled, fun _ => h.setup hsetup, fun _ => h.setup hsetup⟩
  cases hstate : c.state with
  | authenticate => exact ⟨_, rfl, hnext (by simp [hstate, BuildState.isSetup]), rfl⟩
  | setconfs => exact ⟨_, rfl, hnext (by simp [hstate, BuildState.isSetup]), rfl⟩
  | setevents => exact ⟨_, rfl, hnext (by simp [hstate, BuildState.isSetup]), rfl⟩
  | checkstatus =>
    have hqueue : c.circuitsToBuild ≠ [] := h.setup (by simp [hstate, BuildState.isSetup])
    cases userData with
    | none => exact ⟨_, rfl, h, rfl⟩
    | some progress =>
      by_cases hfull : progress = 100
      · obtain ⟨i, rest, hcons⟩ := List.exists_cons_of_ne_nil hqueue
        simp only [hfull, if_true, hcons, List.head?_cons]
        refine ⟨_, rfl, ⟨?_, fun _ => by simp, fun _ => by simp⟩, rfl⟩
        rw [← hcons]
        exact h.settled
      · simp only [hfull, if_false]
        refine ⟨_, rfl, ⟨h.settled, by simp, by simp [BuildState.isSetup]⟩, rfl⟩
  | getCircId =>
    cases userData with
    | none => exact ⟨_, rfl, h, rfl⟩
    | some circID =>
      obtain ⟨i, rest, hcons⟩ := List.exists_cons_of_ne_nil (h.queued hstate)
      -- the head of the queue has the live id, the others are as they were
      have hsettled : ∀ j, j ∉ rest →
          (Function.update c.circuits i { c.circuits i with circID := circID } j).circID ∈
            live := by
        intro j hj
        by_cases hji : j = i
        · subst hji
          rw [Function.update_self]
          exact hdata hstate circID rfl
        · rw [Function.update_of_ne hji]
          refine h.settled j ?_
          rw [hcons, List.mem_cons, not_or]
          exact ⟨hji, hj⟩
      simp only [hcons]
      cases rest with
      | nil => exact ⟨_, rfl, ⟨hsettled, by simp, by simp [BuildState.isSetup]⟩, rfl⟩
      | cons j rest => exact ⟨_, rfl, ⟨hsettled, fun _ => by simp, fun _ => by simp⟩, rfl⟩
  | createCircuit => exact ⟨_, rfl, h, rfl⟩
  | attachStreams => exact ⟨_, rfl, h, rfl⟩

/-- A line of a reply, with a live id if the builder takes its data for one, attaches no stream. -/
theorem Alive.processReplyLine (commands : List Command) (line : ReplyLine × Bool)
    (userData : Option Int) (code : Int) (h : Alive c live)
    (huser : userDataOf line.1.body = .ok userData) (hcommands : attachedTo commands = [])
    (hdata : Int.tdiv code 100 = 2 → c.state = .getCircId → ∀ id, userData = some id → id ∈ live) :
    ∃ r, TorControl.processReplyLine code (c, commands) line = .ok r ∧ Alive r.1 live ∧
      attachedTo r.2 = [] := by
  simp only [TorControl.processReplyLine, huser, circuitBuildResponseEvent]
  by_cases hcode : Int.tdiv code 100 = 2
  · obtain ⟨⟨c', sent⟩, hsuccess, hc', hsent⟩ := h.successEvent userData (hdata hcode)
    obtain ⟨halive, hinit⟩ := hc'.setupCommands line.2
    simp only [if_pos hcode, hsuccess]
    refine ⟨_, rfl, halive, ?_⟩
    simp [hcommands, hsent, hinit]
  · simp only [if_neg hcode]
    exact ⟨_, rfl, h, by simpa using hcommands⟩

/-- A circuit stays settled when more ids are live. -/
theorem Alive.mono {live' : List Int} (h : Alive c live) (hsub : live ⊆ live') : Alive c live' where
  settled := fun i hi => hsub (h.settled i hi)
  queued := h.queued
  setup := h.setup

/-- A reply whose lines are no `EXTENDED` lines and are handled steadily attaches no stream. -/
theorem Alive.processReply (h : Alive c live) {lines : List (ReplyLine × Bool)}
    (hext : ∀ line ∈ lines, isExtended line.1.body = false)
    (hphase : ∀ first ∈ lines.head?, Int.tdiv first.1.code 100 = 2 →
      StepsMeet (TorControl.processReplyLine first.1.code)
        (fun r line => r.1.state = .getCircId → isBootstrapPhase line.1.body = false)
        (c, []) lines) :
    ∃ r, TorControl.processReply c lines = .ok r ∧ Alive r.1 live ∧ attachedTo r.2 = [] := by
  cases lines with
  | nil => exact ⟨(c, []), rfl, h, rfl⟩
  | cons first rest =>
    simp only [TorControl.processReply]
    by_cases hcode : Int.tdiv first.1.code 100 ∈ [2, 4, 5]
    · rw [if_pos hcode]
      have hmeet : StepsMeet (TorControl.processReplyLine first.1.code)
          (fun r line => isExtended line.1.body = false ∧
            (Int.tdiv first.1.code 100 = 2 → r.1.state = .getCircId →
              isBootstrapPhase line.1.body = false)) (c, []) (first :: rest) := by
        by_cases hsuccess : Int.tdiv first.1.code 100 = 2
        · exact (hphase first rfl hsuccess).imp fun r line hline hquiet =>
            ⟨hext line hline, fun _ => hquiet⟩
        · exact stepsMeet_of_forall_mem fun r line hline =>
            ⟨hext line hline, fun hcode => absurd hcode hsuccess⟩
      refine runSteps_ok_of_stepsMeet (fun r => Alive r.1 live ∧ attachedTo r.2 = []) ?_
        ⟨h, rfl⟩ hmeet
      rintro ⟨c', commands⟩ line ⟨hc', hcommands⟩ ⟨hno, hquiet⟩
      by_cases hboot : isBootstrapPhase line.1.body = true
      · refine hc'.processReplyLine commands line (some (progressOf line.1.body)) first.1.code ?_
          hcommands fun hsuccess hget => ?_
        · simp [userDataOf, hno, hboot]
        · rw [hquiet hsuccess hget] at hboot
          simp at hboot
      · refine hc'.processReplyLine commands line none first.1.code ?_ hcommands fun _ _ => by simp
        simp [userDataOf, hno, hboot]
    · rw [if_neg hcode]
      exact ⟨(c, []), rfl, h, rfl⟩

/-- The reply `250 EXTENDED id` announces a live id and attaches no stream. -/
theorem Alive.processExtended (h : Alive c live) {id : Nat} (hid : id < 2 ^ 31) (sent : Bool) :
    ∃ r, TorControl.processReply c [(extendedLine id, sent)] = .ok r ∧
      Alive r.1 ((id : Int) :: live) ∧ attachedTo r.2 = [] := by
  obtain ⟨r, hline, hr⟩ := (h.mono (List.subset_cons_self (id : Int) live)).processReplyLine
    [] (extendedLine id, sent) _ (extendedLine id).code
    (userDataOf_extendedLine hid) rfl (by simp)
  refine ⟨r, ?_, hr⟩
  have hcode : Int.tdiv (extendedLine id).code 100 ∈ [2, 4, 5] := by simp [extendedLine]
  simp only [TorControl.processReply, if_pos hcode]
  rw [runSteps_cons_of_ok hline]
  rfl

end Alive

/-! ## Sessions -/

namespace LiveSession

variable {n : Nat} {s : LiveSession n} {e : BuildEvent}

/-- The invariant of a session with its history. -/
def Inv (s : LiveSession n) : Prop := Alive s.session.builder s.live ∧ s.AttachesLive

/-- What the history of an event is, from the commands that it sends. -/
theorem step_eq_ok {t : BuildSession n} {commands : List Command} (h : s.session.step e = .ok t)
    (hout : t.outstanding = s.session.kept e ++ commands) :
    s.step e = .ok
      { session := t
        live := liveAfter s.live e
        attached := s.attached ++
          (attachedTo commands).map fun circID => (circID, liveAfter s.live e) } := by
  simp only [step, h, hout, List.drop_left]

/-- An event that attaches no stream. -/
theorem Inv.quiet (h : Inv s) {t : BuildSession n} (commands : List Command)
    (hstep : s.session.step e = .ok t) (hout : t.outstanding = s.session.kept e ++ commands)
    (halive : Alive t.builder (liveAfter s.live e)) (hnone : attachedTo commands = []) :
    ∃ t', s.step e = .ok t' ∧ Inv t' := by
  refine ⟨_, step_eq_ok hstep hout, halive, ?_⟩
  rw [hnone, List.map_nil, List.append_nil]
  exact h.2

/-- A new stream is attached to no circuit or to one that is not queued. -/
theorem Inv.streamEvent (h : Inv s) {streamID : Int} {status : StreamStatus} {now : Int}
    (hsteady : s.session.Steady (.stream streamID status now)) :
    ∃ t, s.step (.stream streamID status now) = .ok t ∧ Inv t := by
  -- what an attachment adds to the history
  have hattach : ∀ circID, circID = 0 ∨ circID ∈ s.live →
      circuitBuildStreamEvent s.session.builder streamID status now =
        (s.session.builder, [.attachStream streamID circID]) →
      ∃ t, s.step (.stream streamID status now) = .ok t ∧ Inv t := by
    intro circID hlive hevent
    have hsession : s.session.step (.stream streamID status now) =
        .ok (s.session.handled (s.session.builder, [.attachStream streamID circID])) := by
      rw [BuildSession.step, hevent]
    refine ⟨_, step_eq_ok hsession rfl, h.1, ?_⟩
    intro a ha
    rcases List.mem_append.mp ha with ha | ha
    · exact h.2 a ha
    · obtain rfl : a = (circID, s.live) := by
        simpa [attachedTo, Command.attachedTo?, liveAfter] using ha
      exact hlive
  by_cases hnew : status = .new ∧ s.session.builder.bootstrapped = true
  · cases hfind : s.session.builder.circuitAt now with
    | none =>
      refine hattach 0 (.inl rfl) ?_
      rw [circuitBuildStreamEvent, if_pos hnew, show (List.finRange n).find? _ = none from hfind]
    | some i =>
      have hlive := h.1.settled i (hsteady hnew i hfind)
      refine hattach _ (.inr hlive) ?_
      rw [circuitBuildStreamEvent, if_pos hnew, show (List.finRange n).find? _ = some i from hfind]
  · have hsession : s.session.step (.stream streamID status now) =
        .ok (s.session.handled (s.session.builder, [])) := by
      rw [BuildSession.step, circuitBuildStreamEvent, if_neg hnew]
    exact h.quiet [] hsession rfl h.1 rfl

/-- Every admissible and steady event keeps the invariant, and no NULL pointer is followed. -/
theorem Inv.step (h : Inv s) (hadm : s.session.Admissible e) (hsteady : s.session.Steady e) :
    ∃ t, s.step e = .ok t ∧ Inv t := by
  cases e with
  | activate sent =>
    by_cases hinit : s.session.initialized = true
    · exact h.quiet [] (by simp only [BuildSession.step, hinit]; rfl)
        (List.append_nil _).symm h.1 rfl
    · obtain ⟨halive, hnone⟩ := h.1.setupCommands sent
      exact h.quiet _ (by simp only [BuildSession.step, hinit]; rfl) rfl halive hnone
  | extended id sent =>
    obtain ⟨r, hr, halive, hnone⟩ := h.1.processExtended hsteady sent
    have hbuilder : (s.session.announce id).builder = s.session.builder ∧
        (s.session.announce id).outstanding = s.session.outstanding := by
      unfold BuildSession.announce
      split <;> exact ⟨rfl, rfl⟩
    refine h.quiet r.2 (BuildSession.answered_eq_ok (by rwa [hbuilder.1])) ?_ halive hnone
    rw [BuildSession.handled, hbuilder.2]
    rfl
  | reply lines =>
    obtain ⟨r, hr, halive, hnone⟩ := h.1.processReply hadm.2 hsteady
    exact h.quiet _ (BuildSession.answered_eq_ok hr) rfl halive hnone
  | circ circID status =>
    obtain ⟨halive, hnone⟩ := h.1.circEvent hsteady
    exact h.quiet _ rfl rfl halive hnone
  | stream streamID status now => exact h.streamEvent hsteady
  | status type action progress =>
    obtain ⟨halive, hnone⟩ := h.1.statusEvent type action progress
    exact h.quiet _ rfl rfl halive hnone
  | other => exact h.quiet [] rfl (List.append_nil _).symm h.1 rfl

/-- A session starts with every circuit queued. -/
theorem inv_new {args : List Bytes} (hargs : args ≠ []) : Inv (LiveSession.new args) := by
  have hqueue : (LiveSession.new args).session.builder.circuitsToBuild ≠ [] := by
    intro hnil
    have hlen : (List.finRange args.length).length = 0 := by
      rw [show List.finRange args.length = [] from hnil, List.length_nil]
    rw [List.length_finRange] at hlen
    exact hargs (List.length_eq_zero_iff.mp hlen)
  refine ⟨⟨fun i hi => absurd (List.mem_finRange i) hi, fun _ => hqueue, fun _ => hqueue⟩, ?_⟩
  simp [AttachesLive, LiveSession.new]

/-- Along every steady session with a controller that answers commands in order, every stream is
attached to no circuit or to one whose id was announced and not reported closed since. -/
theorem attachesLive_of_steady (args : List Bytes) (hargs : args ≠ []) (es : List BuildEvent)
    (hmeet : StepsMeet step (fun s e => s.session.Admissible e ∧ s.session.Steady e)
      (LiveSession.new args) es) :
    ∃ t, runSteps step (LiveSession.new args) es = .ok t ∧ t.AttachesLive := by
  obtain ⟨t, hrun, hinv⟩ := runSteps_ok_of_stepsMeet Inv
    (fun s e hs he => hs.step he.1 he.2) (inv_new hargs) hmeet
  exact ⟨t, hrun, hinv.2⟩

/-- A circuit gets its id, a stream is attached to it, and it is closed and rebuilt before the next
stream. -/
theorem attachesLive_of_steady_rebuilt :
    ∃ t, runSteps step (LiveSession.new [ascii "a"]) (BuildSession.setupEvents ++
        [.extended 5 true, .stream 1 .new 0, .circ 5 .closed,
          .reply [({ code := 250, body := ascii "OK", data := [] }, true)],
          .extended 6 true, .stream 2 .new 0]) = .ok t ∧ t.AttachesLive :=
  attachesLive_of_steady [ascii "a"] (by decide) (BuildSession.setupEvents ++
    [.extended 5 true, .stream 1 .new 0, .circ 5 .closed,
      .reply [({ code := 250, body := ascii "OK", data := [] }, true)],
      .extended 6 true, .stream 2 .new 0]) (by decide)

/-- A stream arrives while the circuit is being built, and is attached to the circuit `-1`. -/
theorem not_attachesLive_building :
    StepsMeet step (fun s e => s.session.Admissible e) (LiveSession.new [ascii "a"])
        (BuildSession.setupEvents ++ [.stream 1 .new 0]) ∧
      ∃ t, runSteps step (LiveSession.new [ascii "a"])
          (BuildSession.setupEvents ++ [.stream 1 .new 0]) = .ok t ∧
        t.attached = [(-1, [])] ∧ ¬t.AttachesLive := by
  refine ⟨by decide, _, rfl, rfl, ?_⟩
  intro h
  have hbad := h (-1, []) (by decide)
  simp at hbad

end LiveSession

end ShadowExtras.TorControl
