import Mathlib.Data.Finset.Card
import ShadowExtras.TorControl.CircuitIds
import ShadowExtras.TorControl.Registration

/-!
# The pinger keeps pinging

A session of the pinger with a controller, from the success reply to `SETEVENTS` on. There is one
ping at a time, and it is in one of three places: an `EXTENDCIRCUIT` that is not answered yet, the
table `outstandingPings`, or a scheduled callback. `pings` counts them all.

Every event moves the ping or leaves it where it is, but for one: an `EXTENDCIRCUIT` that is
answered with anything but a success is only logged, and then there is no ping any more and nothing
that would start one. `Granted` excludes it.
-/

namespace ShadowExtras.TorControl

open Foundation

/-! ## Sessions -/

/-- Does the command start a ping? -/
def ModuleCommand.isExtend : ModuleCommand → Bool
  | .extendCircuit _ => true
  | _ => false

/-- A pinger and its controller. -/
structure PingSession where
  pinger : Pinger
  /-- `connection->initialized`. -/
  initialized : Bool
  /-- The commands that are not answered yet, oldest first. -/
  awaiting : List ModuleCommand
  /-- How many calls of `_torcontrolpinger_doPingCallback` are scheduled. -/
  callbacks : Nat

/-- What happens in a session. The flags tell whether `send` returns a positive value. -/
inductive PingEvent
  /-- An activation of the connection, which starts with the module's `initialize`. -/
  | activate (sent : Bool)
  /-- The oldest command is answered. -/
  | reply (lines : List (ReplyLine × Bool))
  /-- A `CIRC` event. -/
  | circ (args : CircArgs)
  /-- A scheduled callback is called. -/
  | callback
  deriving DecidableEq

/-- A success reply that begins with the word `EXTENDED`. -/
def startsPing (body : Bytes) : Prop := (strsplitMax 32 9 body)[0]? = some (ascii "EXTENDED")

instance (body : Bytes) : Decidable (startsPing body) := inferInstanceAs (Decidable (_ = _))

namespace PingSession

/-- One event of a session. -/
def step (s : PingSession) : PingEvent → Except TokenFault PingSession
  | .activate sent =>
    if s.initialized then .ok s
    else
      let r := torcontrolpingerManageState s.pinger sent
      .ok { s with pinger := r.1.1, initialized := r.2, awaiting := s.awaiting ++ r.1.2 }
  | .reply lines =>
    match pingerProcessReply s.pinger lines with
    | .error fault => .error fault
    | .ok r => .ok { s with pinger := r.1, awaiting := s.awaiting.tail ++ r.2 }
  | .circ args =>
    match torcontrolpingerHandleCircEvent s.pinger args with
    | .error fault => .error fault
    | .ok r =>
      .ok { s with
        pinger := r.pinger
        awaiting := s.awaiting ++ r.commands
        callbacks := if r.callback then s.callbacks + 1 else s.callbacks }
  | .callback =>
    .ok { s with
      awaiting := s.awaiting ++ torcontrolpingerDoPingCallback s.pinger
      callbacks := s.callbacks - 1 }

/-- The session when `SETEVENTS` was sent, with what the controller has not answered behind it. -/
def registering (pingRelay : Bytes) (unanswered : List ModuleCommand) : PingSession where
  pinger :=
    { registration := { currentState := .idle, nextState := .recvSetevents }
      pingRelay := pingRelay
      outstandingPings := ∅ }
  initialized := false
  awaiting := .setevents (ascii "CIRC") :: unanswered
  callbacks := 0

/-- The session when `SETEVENTS` has succeeded. -/
def registered (pingRelay : Bytes) (unanswered : List ModuleCommand) : PingSession where
  pinger :=
    { registration := { currentState := .idle, nextState := .idle }
      pingRelay := pingRelay
      outstandingPings := ∅ }
  initialized := false
  awaiting := unanswered ++ [.extendCircuit pingRelay]
  callbacks := 0

/-- A success reply to `SETEVENTS` ends the registration. -/
theorem step_registering (pingRelay : Bytes) (unanswered : List ModuleCommand) (sent : Bool) :
    (registering pingRelay unanswered).step
        (.reply [({ code := 250, body := ascii "OK", data := [] }, sent)]) =
      .ok (registered pingRelay unanswered) := by
  rfl

/-- The controller answers the oldest command, and with `EXTENDED` exactly the successful
`EXTENDCIRCUIT` commands; a callback is called when it is scheduled. -/
def Admissible (s : PingSession) : PingEvent → Prop
  | .reply lines => lines ≠ [] ∧ s.awaiting ≠ [] ∧
      ∀ command ∈ s.awaiting.head?, ∀ first ∈ lines.head?, Int.tdiv first.1.code 100 = 2 →
        (startsPing first.1.body ↔ command.isExtend = true)
  | .callback => 0 < s.callbacks
  | _ => True

instance (s : PingSession) (e : PingEvent) : Decidable (s.Admissible e) := by
  cases e <;> unfold Admissible <;> infer_instance

/-- No `EXTENDCIRCUIT` is answered with anything but a success. -/
def Granted (s : PingSession) : PingEvent → Prop
  | .reply lines => s.awaiting.head?.any ModuleCommand.isExtend = true →
      ∀ first ∈ lines.head?, Int.tdiv first.1.code 100 = 2
  | _ => True

instance (s : PingSession) (e : PingEvent) : Decidable (s.Granted e) := by
  cases e <;> unfold Granted <;> infer_instance

/-- The `EXTENDCIRCUIT` commands that are not answered yet. -/
def extending (s : PingSession) : Nat := s.awaiting.countP ModuleCommand.isExtend

/-- Exactly one of these: one `EXTENDCIRCUIT` awaits its reply, one ping is outstanding, or one
callback is scheduled. -/
def OnePing (s : PingSession) : Prop :=
  (s.extending = 1 ∧ s.pinger.outstandingPings.card = 0 ∧ s.callbacks = 0) ∨
    (s.extending = 0 ∧ s.pinger.outstandingPings.card = 1 ∧ s.callbacks = 0) ∨
      (s.extending = 0 ∧ s.pinger.outstandingPings.card = 0 ∧ s.callbacks = 1)

instance (s : PingSession) : Decidable s.OnePing := inferInstanceAs (Decidable (_ ∨ _))

/-- The pings, wherever they are. -/
def pings (s : PingSession) : Nat := s.extending + s.pinger.outstandingPings.card + s.callbacks

theorem onePing_iff {s : PingSession} : s.OnePing ↔ s.pings = 1 := by
  unfold OnePing pings
  omega

end PingSession

/-! ## Replies to a registered pinger -/

/-- The registration is over. -/
def Pinger.Registered (tcp : Pinger) : Prop :=
  tcp.registration = { currentState := .idle, nextState := .idle }

/-- A success reply does nothing to a registration that is over. -/
theorem Pinger.Registered.success {tcp : Pinger} (h : tcp.Registered) (sent : Bool) :
    tcp.registration.success (ascii "CIRC") (torcontrolpingerDoPingCallback tcp) sent =
      (tcp.registration, []) := by
  rw [show tcp.registration = _ from h]
  rfl

/-- An activation does nothing to a registration that is over. -/
theorem Pinger.Registered.manageState {tcp : Pinger} (h : tcp.Registered) (sent : Bool) :
    torcontrolpingerManageState tcp sent = ((tcp, []), true) := by
  obtain ⟨registration, pingRelay, outstandingPings⟩ := tcp
  obtain rfl : registration = _ := h
  rfl

/-- The circuit id behind the first word of a line. -/
def pingID (body : Bytes) : Int := toInt32 (strtol ((strsplitMax 32 9 body)[1]?.getD []))

/-- The start of a ping puts its circuit id among the outstanding pings. -/
theorem startPing_eq_ok {tcp tcp' : Pinger} {body : Bytes} (h : startPing tcp body = .ok tcp') :
    tcp' = if startsPing body then
      { tcp with outstandingPings := insert (pingID body) tcp.outstandingPings } else tcp := by
  unfold startPing at h
  by_cases hstart : startsPing body
  · rw [if_pos hstart]
    simp only [startsPing] at hstart
    simp only [if_pos hstart] at h
    cases hid : token (strsplitMax 32 9 body) 1 with
    | error fault =>
      rw [hid] at h
      cases h
    | ok circID =>
      rw [hid] at h
      rw [← Except.ok.inj h, pingID, token_eq_ok.mp hid]
      rfl
  · rw [if_neg hstart]
    simp only [startsPing] at hstart
    simp only [if_neg hstart] at h
    exact (Except.ok.inj h).symm

/-- The pinger after a reply with the given first line. -/
def Pinger.afterReply (tcp : Pinger) (first : ReplyLine) : Pinger :=
  if Int.tdiv first.code 100 = 2 ∧ startsPing first.body then
    { tcp with outstandingPings := insert (pingID first.body) tcp.outstandingPings }
  else tcp

/-- A reply starts a ping or does nothing, and the registration is still over. -/
theorem Pinger.Registered.afterReply {tcp : Pinger} (h : tcp.Registered) (first : ReplyLine) :
    (tcp.afterReply first).Registered := by
  unfold Pinger.afterReply
  split <;> exact h

/-- The lines behind the first one do nothing more. -/
theorem Pinger.afterReply_afterReply (tcp : Pinger) (first : ReplyLine) :
    (tcp.afterReply first).afterReply first = tcp.afterReply first := by
  unfold Pinger.afterReply
  split_ifs <;> simp

/-- One line of a reply. -/
theorem Pinger.Registered.replyLine {tcp : Pinger} (h : tcp.Registered) {first : ReplyLine}
    {commands : List ModuleCommand} {line : ReplyLine × Bool} {r : Pinger × List ModuleCommand}
    (hline : pingerReplyLine first (tcp, commands) line = .ok r) :
    r = (tcp.afterReply first, commands) := by
  unfold pingerReplyLine at hline
  cases hdata : parseUserData line.1.body with
  | error fault =>
    rw [hdata] at hline
    cases hline
  | ok userData =>
    rw [hdata] at hline
    unfold torcontrolpingerHandleResponseEvent at hline
    unfold Pinger.afterReply
    by_cases hcode : Int.tdiv first.code 100 = 2
    · simp only [if_pos hcode] at hline
      cases hstart : startPing tcp first.body with
      | error fault =>
        rw [hstart] at hline
        cases hline
      | ok tcp' =>
        have htcp := startPing_eq_ok hstart
        have hreg : tcp'.Registered := by
          rw [htcp]
          split <;> exact h
        rw [hstart] at hline
        have hr : r = (tcp', commands ++ []) := by
          rw [← Except.ok.inj hline]
          simp only [hreg.success line.2]
        rw [hr, htcp, List.append_nil]
        simp only [hcode, true_and]
    · simp only [if_neg hcode] at hline
      rw [if_neg fun h => hcode h.1, ← Except.ok.inj hline]
      exact congrArg _ (List.append_nil _)

/-- All lines of a reply. -/
theorem Pinger.Registered.processReply {tcp : Pinger} (h : tcp.Registered)
    {first : ReplyLine × Bool} {rest : List (ReplyLine × Bool)} {r : Pinger × List ModuleCommand}
    (hreply : pingerProcessReply tcp (first :: rest) = .ok r) :
    r = (tcp.afterReply first.1, []) := by
  unfold pingerProcessReply at hreply
  dsimp only at hreply
  split_ifs at hreply with hcode
  · obtain ⟨u, hu, hrest⟩ := runSteps_cons_eq_ok.mp hreply
    obtain rfl := h.replyLine hu
    refine invariant_of_steps (fun r => r = (tcp.afterReply first.1, [])) ?_ rfl hrest
    rintro s line s' rfl hline
    rw [(h.afterReply first.1).replyLine hline, Pinger.afterReply_afterReply]
  · rw [← Except.ok.inj hreply, Pinger.afterReply, if_neg]
    rintro ⟨hsuccess, -⟩
    simp [hsuccess] at hcode

/-! ## One event -/

namespace PingSession

variable {s t : PingSession} {e : PingEvent}

/-- An answer to an `EXTENDCIRCUIT` moves the ping to the table if it is a success, and loses it
otherwise; an answer to another command does nothing. -/
theorem pings_reply {lines : List (ReplyLine × Bool)} (hreg : s.pinger.Registered)
    (hone : s.pings ≤ 1) (hadm : s.Admissible (.reply lines)) (h : s.step (.reply lines) = .ok t) :
    t.pinger.Registered ∧ ((s.Granted (.reply lines) ∧ t.pings = s.pings) ∨
      (¬s.Granted (.reply lines) ∧ t.pings + 1 = s.pings)) := by
  obtain ⟨hne, hsome, hanswer⟩ := hadm
  obtain ⟨first, rest, rfl⟩ := List.exists_cons_of_ne_nil hne
  obtain ⟨command, more, hawait⟩ := List.exists_cons_of_ne_nil hsome
  unfold step at h
  cases hprocess : pingerProcessReply s.pinger (first :: rest) with
  | error fault => simp [hprocess] at h
  | ok r =>
    obtain rfl := hreg.processReply hprocess
    simp only [hprocess, Except.ok.injEq] at h
    subst h
    refine ⟨hreg.afterReply first.1, ?_⟩
    have hfirst := hanswer command (by rw [hawait, List.head?_cons, Option.mem_def]) first rfl
    simp only [pings, extending, hawait, List.countP_cons, List.tail_cons, List.append_nil,
      Granted, List.head?_cons, Option.any_some] at hone ⊢
    by_cases hext : command.isExtend = true
    · simp only [hext, if_true] at hone ⊢
      by_cases hsuccess : Int.tdiv first.1.code 100 = 2
      · have hempty : s.pinger.outstandingPings = ∅ := Finset.card_eq_zero.mp (by omega)
        rw [Pinger.afterReply, if_pos ⟨hsuccess, (hfirst hsuccess).mpr hext⟩]
        refine .inl ⟨by simpa using hsuccess, ?_⟩
        simp only [hempty, insert_empty_eq, Finset.card_singleton, Finset.card_empty]
      · rw [Pinger.afterReply, if_neg fun h => hsuccess h.1]
        refine .inr ⟨by simpa using hsuccess, ?_⟩
        omega
    · have hnone : ¬(Int.tdiv first.1.code 100 = 2 ∧ startsPing first.1.body) := fun h =>
        hext ((hfirst h.1).mp h.2)
      rw [Pinger.afterReply, if_neg hnone]
      refine .inl ⟨fun h => absurd h hext, ?_⟩
      simp [hext]

/-- A circuit event that ends a ping schedules the next one, and others do nothing. -/
theorem pings_circ {args : CircArgs} (hreg : s.pinger.Registered)
    (h : s.step (.circ args) = .ok t) :
    t.pinger.Registered ∧ t.pings = s.pings := by
  unfold step at h
  unfold torcontrolpingerHandleCircEvent at h
  dsimp only at h
  split_ifs at h with hping hnull hend
  · obtain rfl := Except.ok.inj h
    refine ⟨hreg, ?_⟩
    have hcard := Finset.card_erase_add_one hping
    simp only [pings, extending, List.countP_append, List.countP_singleton,
      ModuleCommand.isExtend, Bool.false_eq_true, if_true, if_false]
    omega
  · obtain rfl := Except.ok.inj h
    exact ⟨hreg, by simp [pings, extending]⟩
  · obtain rfl := Except.ok.inj h
    exact ⟨hreg, by simp [pings, extending]⟩

/-- Every event keeps the number of pings, but for a refused `EXTENDCIRCUIT`. -/
theorem pings_step (hreg : s.pinger.Registered) (hone : s.pings ≤ 1) (hadm : s.Admissible e)
    (h : s.step e = .ok t) :
    t.pinger.Registered ∧ ((s.Granted e ∧ t.pings = s.pings) ∨
      (¬s.Granted e ∧ t.pings + 1 = s.pings)) := by
  cases e with
  | activate sent =>
    have hsame : t.pinger = s.pinger ∧ t.awaiting = s.awaiting ∧ t.callbacks = s.callbacks := by
      unfold step at h
      split_ifs at h
      · obtain rfl := Except.ok.inj h
        exact ⟨rfl, rfl, rfl⟩
      · simp only [hreg.manageState sent] at h
        obtain rfl := Except.ok.inj h
        exact ⟨rfl, List.append_nil _, rfl⟩
    refine ⟨by rw [Pinger.Registered, hsame.1]; exact hreg, .inl ⟨trivial, ?_⟩⟩
    simp only [pings, extending, hsame]
  | reply lines => exact pings_reply hreg hone hadm h
  | circ args =>
    obtain ⟨hreg', hpings⟩ := pings_circ hreg h
    exact ⟨hreg', .inl ⟨trivial, hpings⟩⟩
  | callback =>
    obtain rfl := Except.ok.inj h
    refine ⟨hreg, .inl ⟨trivial, ?_⟩⟩
    have hpos : 0 < s.callbacks := hadm
    simp only [pings, extending, torcontrolpingerDoPingCallback, List.countP_append,
      List.countP_singleton, ModuleCommand.isExtend, if_true]
    omega

/-! ## Sessions -/

/-- The number of pings never grows, and it stays exactly if no `EXTENDCIRCUIT` is refused. -/
theorem pings_run {es : List PingEvent} (hreg : s.pinger.Registered) (hone : s.pings ≤ 1)
    (hadm : StepsMeet step Admissible s es) (hrun : runSteps step s es = .ok t) :
    t.pings ≤ s.pings ∧ (t.pings = s.pings ↔ StepsMeet step Granted s es) := by
  induction es generalizing s with
  | nil =>
    obtain rfl := Except.ok.inj hrun
    simp
  | cons e es ih =>
    obtain ⟨u, hu, hrest⟩ := runSteps_cons_eq_ok.mp hrun
    rw [stepsMeet_cons_of_ok hu]
    obtain ⟨hreg', hcases⟩ := pings_step hreg hone hadm.1 hu
    rcases hcases with ⟨hgranted, hpings⟩ | ⟨hrefused, hpings⟩
    · obtain ⟨hle, hiff⟩ := ih hreg' (by omega) (hadm.2 u hu) hrest
      refine ⟨by omega, ?_⟩
      rw [← hpings, hiff]
      exact (and_iff_right hgranted).symm
    · obtain ⟨hle, -⟩ := ih hreg' (by omega) (hadm.2 u hu) hrest
      refine ⟨by omega, iff_of_false (by omega) fun h => hrefused h.1⟩

/-- After the registration the pinger has exactly one ping, in one of the three places, in every
state of every session if and only if no `EXTENDCIRCUIT` was answered with anything but a
success. -/
theorem onePing_iff_granted (pingRelay : Bytes) (unanswered : List ModuleCommand)
    (hunanswered : ∀ command ∈ unanswered, command.isExtend = false) (es : List PingEvent)
    (t : PingSession) (hadm : StepsMeet step Admissible (registered pingRelay unanswered) es)
    (hrun : runSteps step (registered pingRelay unanswered) es = .ok t) :
    t.OnePing ↔ StepsMeet step Granted (registered pingRelay unanswered) es := by
  have hstart : (registered pingRelay unanswered).pings = 1 := by
    have hnone : unanswered.countP ModuleCommand.isExtend = 0 :=
      List.countP_eq_zero.mpr fun command hcommand => by simp [hunanswered command hcommand]
    simp [pings, extending, registered, hnone, ModuleCommand.isExtend]
  have hreg : (registered pingRelay unanswered).pinger.Registered := rfl
  rw [onePing_iff, ← hstart]
  exact (pings_run hreg hstart.le hadm hrun).2

/-- A ping that is answered, extended and followed by the next one. -/
def nextPing : List PingEvent :=
  [.reply [(extendedLine 5, true)],
    .circ { circID := 5, path := some (ascii "a"), status := .extended, buildFlags := 0,
            purpose := .none, reason := .none, createTime := none },
    .callback]

theorem onePing_iff_granted_next :
    ∃ t, runSteps step (registered (ascii "a") []) nextPing = .ok t ∧ t.OnePing := by
  obtain ⟨t, ht⟩ : ∃ t, runSteps step (registered (ascii "a") []) nextPing = .ok t := ⟨_, rfl⟩
  exact ⟨t, ht, (onePing_iff_granted (ascii "a") [] (by simp) nextPing t (by decide) ht).mpr
    (by decide)⟩

/-- An `EXTENDCIRCUIT` that is answered with an error: no ping is left. -/
theorem not_onePing_error :
    StepsMeet step Admissible (registered (ascii "a") [])
        [.reply [({ code := 552, body := ascii "No such router", data := [] }, true)]] ∧
      ∃ t, runSteps step (registered (ascii "a") [])
          [.reply [({ code := 552, body := ascii "No such router", data := [] }, true)]] = .ok t ∧
        ¬t.OnePing := by
  refine ⟨by decide, _, rfl, ?_⟩
  decide

end PingSession

end ShadowExtras.TorControl
