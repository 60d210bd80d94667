import ShadowExtras.Foundation.Fallible
import ShadowExtras.Web.HandlerQueue
import ShadowExtras.Web.HandlerSocket

/-!
# What a handler waits for

Between two events a handler can only be woken by its socket. The flags agree with the callbacks,
because both are changed together. Writing is switched off in one place, when nothing is left to
write, and `process_inbuf_` is called at once: either it finds a request and switches writing on
again, or it has used up what was received and switches reading on. Reading is switched off while a
request is in the queue, and then writing is on.
-/

namespace ShadowExtras.Web

open Foundation

/-! ## The switches -/

namespace ClientSock

/-- epoll watches for what has a callback. -/
def Watched (s : ClientSock) : Prop := s.what = whatOf s.readcb s.writecb

/-- Setting the write callback leaves the read callback alone. -/
@[simp] theorem readcb_setWritecb (s : ClientSock) (b : Bool) :
    (s.setWritecb b).readcb = s.readcb := rfl

/-- The write callback that was set. -/
@[simp] theorem writecb_setWritecb (s : ClientSock) (b : Bool) : (s.setWritecb b).writecb = b := rfl

/-- The read callback that was set. -/
@[simp] theorem readcb_setReadcb (s : ClientSock) (b : Bool) : (s.setReadcb b).readcb = b := rfl

/-- Setting the read callback leaves the write callback alone. -/
@[simp] theorem writecb_setReadcb (s : ClientSock) (b : Bool) :
    (s.setReadcb b).writecb = s.writecb := rfl

/-- Setting the write callback updates what is watched. -/
@[simp] theorem watched_setWritecb (s : ClientSock) (b : Bool) : (s.setWritecb b).Watched := rfl

/-- Setting the read callback updates what is watched. -/
@[simp] theorem watched_setReadcb (s : ClientSock) (b : Bool) : (s.setReadcb b).Watched := rfl

/-- Input is watched just if there is a read callback. -/
theorem Watched.epollIn {s : ClientSock} (h : s.Watched) :
    s.what &&& EventBase.epollIn ≠ 0 ↔ s.readcb = true := by
  unfold Watched at h
  rw [h]
  generalize s.readcb = r
  generalize s.writecb = b
  revert r b
  decide

/-- Output is watched just if there is a write callback. -/
theorem Watched.epollOut {s : ClientSock} (h : s.Watched) :
    s.what &&& EventBase.epollOut ≠ 0 ↔ s.writecb = true := by
  unfold Watched at h
  rw [h]
  generalize s.readcb = r
  generalize s.writecb = b
  revert r b
  decide

end ClientSock

namespace Switches

/-- The flags agree with the callbacks, and the callbacks with what epoll watches for. -/
structure Agrees (s : Switches) : Prop where
  read : s.sock.readcb = s.readFromClientEnabled
  write : s.sock.writecb = s.writeToClientEnabled
  watched : s.sock.Watched

variable {s : Switches}

/-- Enabling writing sets the flag and the callback together. -/
theorem Agrees.enableWriteToClient (h : s.Agrees) : s.enableWriteToClient.Agrees := by
  unfold Switches.enableWriteToClient
  split
  · exact ⟨h.read, by simp, by simp⟩
  · exact h

/-- Disabling writing sets the flag and the callback together. -/
theorem Agrees.disableWriteToClient (h : s.Agrees) : s.disableWriteToClient.Agrees := by
  unfold Switches.disableWriteToClient
  split
  · exact ⟨h.read, by simp, by simp⟩
  · exact h

/-- Enabling reading sets the flag and the callback together. -/
theorem Agrees.enableReadFromClient (h : s.Agrees) : s.enableReadFromClient.Agrees := by
  unfold Switches.enableReadFromClient
  split
  · exact ⟨by simp, h.write, by simp⟩
  · exact h

/-- Disabling reading sets the flag and the callback together. -/
theorem Agrees.disableReadFromClient (h : s.Agrees) : s.disableReadFromClient.Agrees := by
  unfold Switches.disableReadFromClient
  split
  · exact ⟨by simp, h.write, by simp⟩
  · exact h

/-- Writing is enabled. -/
@[simp] theorem write_enableWriteToClient : s.enableWriteToClient.writeToClientEnabled = true := by
  unfold enableWriteToClient
  split <;> simp_all

/-- Enabling writing leaves reading alone. -/
@[simp] theorem read_enableWriteToClient :
    s.enableWriteToClient.readFromClientEnabled = s.readFromClientEnabled := by
  unfold enableWriteToClient
  split <;> simp

/-- Writing is disabled. -/
@[simp] theorem write_disableWriteToClient :
    s.disableWriteToClient.writeToClientEnabled = false := by
  unfold disableWriteToClient
  split <;> simp_all

/-- Disabling writing leaves reading alone. -/
@[simp] theorem read_disableWriteToClient :
    s.disableWriteToClient.readFromClientEnabled = s.readFromClientEnabled := by
  unfold disableWriteToClient
  split <;> simp

/-- Reading is enabled. -/
@[simp] theorem read_enableReadFromClient :
    s.enableReadFromClient.readFromClientEnabled = true := by
  unfold enableReadFromClient
  split <;> simp_all

/-- Enabling reading leaves writing alone. -/
@[simp] theorem write_enableReadFromClient :
    s.enableReadFromClient.writeToClientEnabled = s.writeToClientEnabled := by
  unfold enableReadFromClient
  split <;> simp

/-- Reading is disabled. -/
@[simp] theorem read_disableReadFromClient :
    s.disableReadFromClient.readFromClientEnabled = false := by
  unfold disableReadFromClient
  split <;> simp_all

/-- Disabling reading leaves writing alone. -/
@[simp] theorem write_disableReadFromClient :
    s.disableReadFromClient.writeToClientEnabled = s.writeToClientEnabled := by
  unfold disableReadFromClient
  split <;> simp

/-- The flags are those of the handler. -/
structure SetsFlagsOf (s : Switches) (t : Handler) : Prop where
  write : s.writeToClientEnabled = t.writeToClientEnabled
  read : s.readFromClientEnabled = t.readFromClientEnabled

/-- The switches of a handler set its flags. -/
theorem setsFlagsOf_switches (t : Handler) (sock : ClientSock) :
    (t.switches sock).SetsFlagsOf t := by
  constructor
  · rfl
  · rfl

/-- What a step switches keeps the flags and the callbacks in agreement. -/
theorem Agrees.switch (h : s.Agrees) (m : HandlerMachine) (c : Choice) : (m.switch c s).Agrees := by
  unfold HandlerMachine.switch
  split
  · split_ifs
    · exact h.disableReadFromClient
    · exact h
  · split_ifs
    · exact h.disableReadFromClient
    · exact h
  · split
    · exact h
    · dsimp only
      split_ifs
      · exact h.enableReadFromClient
      · exact h.enableWriteToClient.enableReadFromClient
      · exact h.enableWriteToClient
      · exact h.enableWriteToClient.enableWriteToClient
  · split_ifs
    · exact h.disableWriteToClient
    · exact h
  · exact h

end Switches

/-! ## `process_inbuf_` -/

namespace Handler

variable {s t : Handler}

/-- What is received, parsed and sent, the deletions scheduled, and the flags. -/
def untouched (s : Handler) :=
  (s.inbuf, s.received, s.sent, s.deletions, s.writeToClientEnabled, s.readFromClientEnabled)

/-- A header line changes the queue only. -/
theorem headerLine_eq_ok {line : Bytes} (h : s.headerLine line = .ok t) :
    ∃ queue, t = { s with submittedReqQueue := queue } := by
  unfold headerLine at h
  split at h
  · split at h
    · cases h
    · unfold setFirstBytePos at h
      split at h
      · cases h
      · exact ⟨_, (Except.ok.inj h).symm⟩
  · exact ⟨_, (Except.ok.inj h).symm⟩

/-- A line that is taken out of `inbuf_` makes it shorter. -/
theorem length_inbuf_of_readln {line : Bytes} (h : s.readln = some (line, t)) :
    t.inbuf.length < s.inbuf.length := by
  obtain ⟨-, hinbuf, -⟩ := inbuf_of_readln h
  rw [hinbuf]
  simp [crlf]
  omega

/-- Without a complete line the headers wait for more data. -/
theorem processHeaders_of_isLine {fuel : ℕ} (h : IsLine s.inbuf) :
    processHeaders fuel s = .ok (s, true) := by
  cases fuel with
  | zero => rfl
  | succ fuel =>
    unfold processHeaders
    rw [readln_eq_none.mpr h]

/-- The loop over the header lines asks for more when it has used up all lines, and switches writing
on otherwise. -/
theorem processHeaders_wants {fuel : ℕ} {want : Bool} (hfuel : s.inbuf.length < fuel)
    (h : processHeaders fuel s = .ok (t, want)) :
    t.readFromClientEnabled = s.readFromClientEnabled ∧
      t.writeToClientEnabled = (s.writeToClientEnabled || !want) ∧
      (want = true → IsLine t.inbuf) := by
  induction fuel generalizing s with
  | zero => omega
  | succ fuel ih =>
    unfold processHeaders at h
    split at h
    · rename_i hnone
      obtain ⟨rfl, rfl⟩ := Prod.mk.inj (Except.ok.inj h)
      exact ⟨rfl, by simp, fun _ => readln_eq_none.mp hnone⟩
    · rename_i line u hline
      have hshorter := length_inbuf_of_readln hline
      obtain ⟨inbuf, rfl⟩ := readln_spec hline
      split_ifs at h
      · obtain ⟨rfl, rfl⟩ := Prod.mk.inj (Except.ok.inj h)
        exact ⟨rfl, by simp, by simp⟩
      · split at h
        · cases h
        · rename_i v hv
          obtain ⟨queue, rfl⟩ := headerLine_eq_ok hv
          obtain ⟨hread, hwrite, hwants⟩ := ih (by dsimp only at hshorter ⊢; omega) h
          exact ⟨hread, hwrite, hwants⟩

/-- `process_inbuf_` asks for more data only when no complete line is left, and else it enables
writing. -/
theorem extractRequest_wants {want : Bool} (h : s.extractRequest = .ok (t, want)) :
    t.readFromClientEnabled = s.readFromClientEnabled ∧
      t.writeToClientEnabled = (s.writeToClientEnabled || !want) ∧
      (want = true → IsLine t.inbuf) := by
  unfold extractRequest at h
  split_ifs at h with hempty
  · obtain ⟨rfl, rfl⟩ := Prod.mk.inj (Except.ok.inj h)
    refine ⟨rfl, by simp, fun _ => ?_⟩
    rw [hempty]
    simp [IsLine, crlf]
  · split at h
    · unfold processReqLine at h
      split at h
      · rename_i hnone
        obtain ⟨rfl, rfl⟩ := Prod.mk.inj (Except.ok.inj h)
        exact ⟨rfl, by simp, fun _ => readln_eq_none.mp hnone⟩
      · rename_i line u hline
        obtain ⟨inbuf, rfl⟩ := readln_spec hline
        split at h
        · cases h
        · dsimp only at h
          split_ifs at h
          obtain ⟨hread, hwrite, hwants⟩ := processHeaders_wants (Nat.lt_succ_self _) h
          exact ⟨hread, hwrite, hwants⟩
    · exact processHeaders_wants (Nat.lt_succ_self _) h

/-- `process_inbuf_` leaves reading or writing switched on, and asks for more only when nothing is
left that it could process. -/
theorem processInbuf_wants {want : Bool} (h : s.processInbuf = .ok (t, want)) :
    (t.writeToClientEnabled = false →
      s.writeToClientEnabled = false ∧ want = true ∧ t.submittedReqQueue = []) ∧
    (want = true → t.readFromClientEnabled = true ∧ IsLine t.inbuf) := by
  unfold processInbuf at h
  split at h
  · cases h
  · rename_i u want' hu
    obtain ⟨rfl, rfl⟩ := Prod.mk.inj (Except.ok.inj h)
    obtain ⟨-, hwrite, hwants⟩ := extractRequest_wants hu
    constructor
    · intro hfalse
      simp only [hwrite, Bool.or_eq_false_iff, Bool.not_eq_false', List.isEmpty_iff] at hfalse
      exact ⟨hfalse.1.1, hfalse.1.2, hfalse.2⟩
    · rintro rfl
      exact ⟨by simp, hwants rfl⟩

end Handler

/-! ## The callbacks -/

namespace HandlerMachine

variable {files : Files} {m m' : HandlerMachine} {s : Handler} {c : Choice}

/-- When the handler does not wait for the client to take what it sends, nothing is left to do until
the client sends something, and that is what the handler waits for. -/
structure Watches (m : HandlerMachine) : Prop where
  waits : Waits m
  listens : m.handler.writeToClientEnabled = false → m.label = .idle ∨ m.label = .readMore →
    m.handler.readFromClientEnabled = true

/-- A new handler watches its input. -/
theorem watches_new (docroot : Bytes) : Watches (new docroot) := by
  refine ⟨fun _ => ⟨rfl, rfl, ?_⟩, fun _ _ => rfl⟩
  simp [new, Handler.new, IsLine, crlf]

/-- Reading keeps what is watched. -/
theorem Watches.readMore {vectors : List (ℕ × RecvResult)} (hm : Watches ⟨s, .readMore⟩)
    (h : readMore s vectors = .ok m') : Watches m' := by
  unfold HandlerMachine.readMore at h
  split_ifs at h with hfull hreserves
  · obtain rfl := Except.ok.inj h
    -- reading is switched off only while writing is on
    have hwrites : s.writeToClientEnabled ≠ false := by
      intro hfalse
      rw [(hm.waits hfalse).1] at hfull
      simp [maxPipelineReqs] at hfull
    exact ⟨fun hfalse => absurd hfalse hwrites, fun hfalse => absurd hfalse hwrites⟩
  · split at h
    · cases h
    · obtain rfl := Except.ok.inj h
      exact ⟨fun hfalse => hm.waits hfalse, fun hfalse _ => hm.listens hfalse (.inr rfl)⟩
    · split_ifs at h
      · obtain rfl := Except.ok.inj h
        exact ⟨fun hfalse => hm.waits hfalse, fun hfalse _ => hm.listens hfalse (.inr rfl)⟩
      · obtain rfl := Except.ok.inj h
        refine ⟨fun hfalse => ?_, fun _ hlabel => ?_⟩
        · obtain ⟨hqueue, houtbuf, -⟩ := hm.waits hfalse
          exact ⟨hqueue, houtbuf, trivial⟩
        · simp at hlabel
  · obtain rfl := Except.ok.inj h
    exact hm

/-- `process_inbuf_` keeps what is watched. -/
theorem Watches.processInbuf {next : After} (hm : Watches ⟨s, .processInbuf next⟩)
    (h : processInbuf s next = .ok m') : Watches m' := by
  unfold HandlerMachine.processInbuf at h
  split at h
  · cases h
  · rename_i t want ht
    obtain rfl := Except.ok.inj h
    obtain ⟨hwrite, hwants⟩ := Handler.processInbuf_wants ht
    constructor
    · intro hfalse
      obtain ⟨hbefore, rfl, hqueue⟩ := hwrite hfalse
      obtain ⟨-, houtbuf, hnext⟩ := hm.waits hbefore
      have hout : t.outbuf = s.outbuf := congrArg (fun o => o.2.1) (Handler.processInbuf_spec ht).1
      refine ⟨hqueue, hout.trans houtbuf, ?_⟩
      have hline : IsLine t.inbuf := (hwants rfl).2
      cases next with
      | recv noMore =>
        simp only [returnTo]
        split_ifs <;> exact hline
      | done => exact hline
      | addMore l => exact absurd hnext id
      | response l => exact absurd hnext id
    · intro hfalse _
      obtain ⟨-, rfl, -⟩ := hwrite hfalse
      exact (hwants rfl).1

/-- A step of `send_to_client` keeps what is watched. -/
theorem Watches.send (hm : Watches m) (hlabel : Sending m.label) (h : step files m c = .ok m') :
    Watches m' := by
  obtain ⟨-, hwrites⟩ := send_spec hlabel h
  -- writing is on, or was switched off just now
  have hdone : m'.handler.writeToClientEnabled = false →
      m'.handler.submittedReqQueue = [] ∧ m'.handler.outbuf = [] ∧
        m'.label = .processInbuf .done := by
    intro hfalse
    rcases hwrites with hsame | ⟨-, hdone⟩
    · have hnot := (hm.waits (hsame ▸ hfalse)).2.2
      obtain ⟨s, label⟩ := m
      cases label <;> simp [Sending] at hlabel hnot
    · exact hdone
  constructor
  · intro hfalse
    obtain ⟨hqueue, houtbuf, hlabel⟩ := hdone hfalse
    refine ⟨hqueue, houtbuf, ?_⟩
    rw [hlabel]
    trivial
  · intro hfalse hidle
    rw [(hdone hfalse).2.2] at hidle
    simp at hidle

/-- A step of a callback. -/
theorem Watches.step (hm : Watches m) (hlabel : m.label ≠ .idle) (h : step files m c = .ok m') :
    Watches m' := by
  obtain ⟨s, label⟩ := m
  cases label with
  | idle => exact absurd rfl hlabel
  | readMore =>
    cases c with
    | go => exact hm.readMore h
    | recv vectors => exact hm.readMore h
    | _ =>
      obtain rfl := Except.ok.inj h
      exact hm
  | processInbuf next =>
    cases c with
    | go => exact hm.processInbuf h
    | _ =>
      obtain rfl := Except.ok.inj h
      exact hm
  | _ => exact hm.send trivial h

/-- What `send_to_client` leaves alone where it neither ends nor writes to the socket. -/
theorem untouched_send {label : Label} (h : step files ⟨s, label⟩ c = .ok m')
    (hlabel : Sending label) (hcheck : ∀ l, label ≠ .check l) (hdrain : ∀ l, label ≠ .drain l) :
    m'.handler.untouched = s.untouched := by
  unfold step at h
  dsimp only at h
  split at h
  · exact absurd hlabel (by simp [Sending])
  · exact absurd hlabel (by simp [Sending])
  · exact absurd hlabel (by simp [Sending])
  · exact absurd hlabel (by simp [Sending])
  · exact absurd hlabel (by simp [Sending])
  · obtain rfl := Except.ok.inj h
    unfold addMore
    dsimp only
    split_ifs <;> rfl
  · exact absurd rfl (hcheck _)
  · rcases fill_spec h with ⟨-, rfl⟩ | rfl | ⟨-, rfl⟩ | ⟨req, rest, t, -, -, ht, rfl, -⟩
    · rfl
    · rfl
    · rfl
    · obtain ⟨head, -, -, ht⟩ := Handler.responseMeta_spec ht
      rw [ht]
      rfl
  · unfold body at h
    split_ifs at h
    · split at h
      · cases h
      · split at h
        · cases h
        · split_ifs at h
          · obtain rfl := Except.ok.inj h
            rfl
          · obtain rfl := Except.ok.inj h
            rfl
    · obtain rfl := Except.ok.inj h
      rfl
  · obtain rfl := Except.ok.inj h
    rfl
  · exact absurd rfl (hdrain _)
  · exact absurd rfl (hdrain _)
  · obtain rfl := Except.ok.inj h
    rfl

/-- Writing `outbuf_` switches nothing. -/
theorem switches_drain {l : Locals} {extents : List (ℕ × WriteResult)} {sock : ClientSock} :
    (drained s l extents).handler.switches sock = s.switches sock := by
  unfold drained
  dsimp only
  split_ifs <;> rfl

/-- Reading is disabled where the queue is full. -/
theorem switches_readMore {vectors : List (ℕ × RecvResult)} {sock : ClientSock}
    (h : readMore s vectors = .ok m') :
    (if s.submittedReqQueue.length = maxPipelineReqs then (s.switches sock).disableReadFromClient
      else s.switches sock).SetsFlagsOf m'.handler := by
  obtain ⟨hwrite, hread⟩ := Switches.setsFlagsOf_switches s sock
  unfold readMore at h
  split_ifs at h with hfull hreserves
  · obtain rfl := Except.ok.inj h
    rw [if_pos hfull]
    exact ⟨by simp [Handler.switches], by simp⟩
  · rw [if_neg hfull]
    split at h
    · cases h
    · obtain rfl := Except.ok.inj h
      exact ⟨hwrite, hread⟩
    · split_ifs at h
      · obtain rfl := Except.ok.inj h
        exact ⟨hwrite, hread⟩
      · obtain rfl := Except.ok.inj h
        exact ⟨hwrite, hread⟩
  · obtain rfl := Except.ok.inj h
    rw [if_neg hfull]
    exact ⟨hwrite, hread⟩

/-- The flags after `process_inbuf_` are those of its switches. -/
theorem switches_processInbuf {next : After} {sock : ClientSock}
    (h : processInbuf s next = .ok m') :
    (switch ⟨s, .processInbuf next⟩ .go (s.switches sock)).SetsFlagsOf m'.handler := by
  unfold HandlerMachine.processInbuf Handler.processInbuf at h
  cases ht : s.extractRequest with
  | error f => simp [ht] at h
  | ok r =>
    obtain ⟨t, want⟩ := r
    simp only [ht] at h
    obtain rfl := Except.ok.inj h
    obtain ⟨hread, hwrite, -⟩ := Handler.extractRequest_wants ht
    simp only [switch, ht]
    constructor
    · cases want <;> cases t.submittedReqQueue.isEmpty <;> simp [hwrite, Handler.switches]
    · cases want <;> cases t.submittedReqQueue.isEmpty <;> simp [hread, Handler.switches]

/-- Writing is disabled where nothing is left to write. -/
theorem switches_check {l : Locals} {sock : ClientSock} (h : check s l = .ok m') :
    (switch ⟨s, .check l⟩ .go (s.switches sock)).SetsFlagsOf m'.handler := by
  unfold check at h
  split_ifs at h with hcount hempty hfull
  · obtain rfl := Except.ok.inj h
    simp only [switch, if_pos hempty]
    exact ⟨by simp, by simp [Handler.switches]⟩
  · obtain rfl := Except.ok.inj h
    simp only [switch, if_neg hempty]
    exact Switches.setsFlagsOf_switches s sock
  · obtain rfl := Except.ok.inj h
    simp only [switch, if_neg hempty]
    exact Switches.setsFlagsOf_switches s sock

/-- The flags after a step are those that the step switched. -/
theorem switches_step (sock : ClientSock) (hlabel : m.label ≠ .idle) (h : step files m c = .ok m') :
    (m.switch c (m.handler.switches sock)).SetsFlagsOf m'.handler := by
  obtain ⟨s, label⟩ := m
  have hnone : m' = ⟨s, label⟩ ∨ m'.handler.switches sock = s.switches sock →
      (s.switches sock).SetsFlagsOf m'.handler := by
    rintro (rfl | hsame)
    · exact Switches.setsFlagsOf_switches s sock
    · exact hsame ▸ Switches.setsFlagsOf_switches m'.handler sock
  cases label with
  | idle => exact absurd rfl hlabel
  | readMore =>
    cases c with
    | go => exact switches_readMore h
    | recv vectors => exact switches_readMore h
    | _ => exact hnone (.inl (Except.ok.inj h).symm)
  | processInbuf next =>
    cases c with
    | go => exact switches_processInbuf h
    | _ => exact hnone (.inl (Except.ok.inj h).symm)
  | check l =>
    cases c with
    | go => exact switches_check h
    | _ => exact hnone (.inl (Except.ok.inj h).symm)
  | drain l =>
    cases c with
    | go => exact hnone (.inr (drain_eq_ok h ▸ switches_drain))
    | write extents => exact hnone (.inr (drain_eq_ok h ▸ switches_drain))
    | _ => exact hnone (.inl (Except.ok.inj h).symm)
  | _ =>
    have hsame := untouched_send h trivial (by simp) (by simp)
    simp only [Handler.untouched, Prod.mk.injEq] at hsame
    obtain ⟨-, -, -, -, hwrite, hread⟩ := hsame
    exact hnone (.inr (by simp only [Handler.switches, hwrite, hread]))

end HandlerMachine

/-! ## The loop -/

namespace HandlerLoop

variable {files : Files} {w w' : HandlerLoop} {e : HandlerEvent}

/-- What a handler watches for between events. -/
structure NeverStalls (w : HandlerLoop) : Prop where
  /-- The flags agree with the callbacks. -/
  readcb : w.sock.readcb = w.handler.readFromClientEnabled
  writecb : w.sock.writecb = w.handler.writeToClientEnabled
  /-- epoll watches for what is enabled. -/
  epollIn : w.sock.what &&& EventBase.epollIn ≠ 0 ↔ w.handler.readFromClientEnabled = true
  epollOut : w.sock.what &&& EventBase.epollOut ≠ 0 ↔ w.handler.writeToClientEnabled = true
  /-- A handler that has something to write waits until it can. -/
  owes : w.handler.submittedReqQueue ≠ [] ∨ w.handler.outbuf ≠ [] →
    w.handler.writeToClientEnabled = true
  /-- A handler that does not wait until it can write waits until it can read, and it has used up
  all lines that it has received. -/
  listens : w.handler.writeToClientEnabled = false →
    w.handler.readFromClientEnabled = true ∧ IsLine w.handler.inbuf

/-- What holds in the middle of a callback too. -/
structure Wakeable (w : HandlerLoop) : Prop where
  agrees : (w.handler.switches w.sock).Agrees
  watches : w.machine.Watches

/-- A new handler can be woken up. -/
theorem wakeable_new (docroot : Bytes) : (new docroot).Wakeable := by
  refine ⟨⟨?_, ?_, ?_⟩, HandlerMachine.watches_new docroot⟩
  · rfl
  · rfl
  · rfl

/-- A step of a callback keeps the handler wakeable. -/
theorem Wakeable.run {c : Choice} (hw : w.Wakeable) (hlabel : w.machine.label ≠ .idle)
    (h : w.run files c = .ok w') : w'.Wakeable := by
  unfold HandlerLoop.run at h
  split at h
  · cases h
  · rename_i m hm
    obtain rfl := Except.ok.inj h
    obtain ⟨hwrite, hread⟩ := HandlerMachine.switches_step w.sock hlabel hm
    obtain ⟨hreadcb, hwritecb, hwatched⟩ := hw.agrees.switch w.machine c
    refine ⟨⟨?_, ?_, hwatched⟩, hw.watches.step hlabel hm⟩
    · exact hreadcb.trans hread
    · exact hwritecb.trans hwrite

/-- The event callback keeps the handler wakeable. -/
theorem Wakeable.mevEventcb {events : MevEvent} (hw : w.Wakeable)
    (h : w.mevEventcb events = .ok w') : w'.Wakeable := by
  have hlater : w.deleteLater.Wakeable := ⟨⟨hw.agrees.read, hw.agrees.write, hw.agrees.watched⟩,
    fun hfalse => hw.watches.waits hfalse, fun hfalse hlabel => hw.watches.listens hfalse hlabel⟩
  unfold HandlerLoop.mevEventcb at h
  split_ifs at h
  all_goals obtain rfl := Except.ok.inj h
  · exact hlater
  · exact hlater
  · exact hw

/-- The state of the event is not about the watches. -/
theorem Wakeable.setState (hw : w.Wakeable) (state : MevState) : (w.setState state).Wakeable :=
  ⟨⟨hw.agrees.read, hw.agrees.write, hw.agrees.watched⟩, hw.watches⟩

/-- Each part of `trigger` keeps the handler wakeable. -/
theorem Wakeable.part {p : TriggerPart} (hw : w.Wakeable) (hidle : w.machine.label = .idle)
    (h : w.part p = .ok w') : w'.Wakeable := by
  cases p with
  | error =>
    unfold HandlerLoop.part at h
    obtain ⟨u, hu, rfl⟩ := map_eq_ok.mp h
    exact (hw.mevEventcb hu).setState .error
  | hangup =>
    unfold HandlerLoop.part at h
    obtain ⟨u, hu, rfl⟩ := map_eq_ok.mp h
    exact (hw.mevEventcb hu).setState .closed
  | writable =>
    unfold HandlerLoop.part at h
    dsimp only at h
    split_ifs at h with hconnecting hwritecb
    · exact (hw.setState .connected).mevEventcb h
    · obtain rfl := Except.ok.inj h
      -- the callback runs only while writing is on
      have hwrites : w.handler.writeToClientEnabled = true := hw.agrees.write.symm.trans hwritecb
      refine ⟨⟨hw.agrees.read, hw.agrees.write, hw.agrees.watched⟩, fun hfalse => ?_,
        fun hfalse => ?_⟩
      · exact absurd (hwrites.symm.trans hfalse) (by simp)
      · exact absurd (hwrites.symm.trans hfalse) (by simp)
    · obtain rfl := Except.ok.inj h
      exact hw
  | readable =>
    unfold HandlerLoop.part at h
    dsimp only at h
    obtain rfl := Except.ok.inj h
    split_ifs
    · refine ⟨⟨hw.agrees.read, hw.agrees.write, hw.agrees.watched⟩, fun hfalse => ?_,
        fun hfalse _ => ?_⟩
      · have hwaits := hw.watches.waits hfalse
        rw [hidle] at hwaits
        exact hwaits
      · exact hw.watches.listens hfalse (.inl hidle)
    · exact hw

/-- Every event keeps the handler wakeable. -/
theorem Wakeable.step (hw : w.Wakeable) (h : step files w e = .ok w') : w'.Wakeable := by
  unfold HandlerLoop.step at h
  split_ifs at h with hlabel
  · cases e with
    | run c => exact hw.run hlabel h
    | _ =>
      obtain rfl := Except.ok.inj h
      exact hw
  · have hidle : w.machine.label = .idle := not_not.mp hlabel
    cases e with
    | trigger what =>
      dsimp only at h
      unfold trigger at h
      split_ifs at h
      · obtain rfl := Except.ok.inj h
        exact hw
      · obtain rfl := Except.ok.inj h
        exact ⟨hw.agrees, hw.watches⟩
    | next =>
      dsimp only at h
      split at h
      · obtain rfl := Except.ok.inj h
        exact hw
      · rename_i p parts _
        have hparts : ({ w with parts := parts } : HandlerLoop).Wakeable := ⟨hw.agrees, hw.watches⟩
        exact hparts.part hidle h
    | run c =>
      obtain rfl := Except.ok.inj h
      exact hw
    | deleteHandler =>
      dsimp only at h
      unfold deleteHandler at h
      split_ifs at h
      · obtain rfl := Except.ok.inj h
        exact hw
      · obtain rfl := Except.ok.inj h
        exact ⟨hw.agrees, hw.watches⟩

/-- A wakeable handler does not stall between the events. -/
theorem Wakeable.neverStalls (hw : w.Wakeable) (hidle : w.machine.label = .idle) :
    w.NeverStalls := by
  obtain ⟨hread, hwrite, hwatched⟩ := hw.agrees
  refine ⟨hread, hwrite, hwatched.epollIn.trans ?_, hwatched.epollOut.trans ?_, ?_, ?_⟩
  · exact hread ▸ Iff.rfl
  · exact hwrite ▸ Iff.rfl
  · intro howes
    by_contra hfalse
    obtain ⟨hqueue, houtbuf, -⟩ := hw.watches.waits (by simpa using hfalse)
    exact howes.elim (absurd hqueue) (absurd houtbuf)
  · intro hfalse
    obtain ⟨-, -, hline⟩ := hw.watches.waits hfalse
    rw [hidle] at hline
    exact ⟨hw.watches.listens hfalse (.inl hidle), hline⟩

/-- A handler never stalls. Whatever epoll reports and the socket calls return, when no callback
runs and no assertion has failed, the flags, the callbacks and what epoll watches for agree, the
handler waits to write when it has something to write, and otherwise it waits to read. -/
theorem neverStalls_run (files : Files) (docroot : Bytes) (es : List HandlerEvent) (w : HandlerLoop)
    (hrun : runSteps (step files) (new docroot) es = .ok w) (hidle : w.machine.label = .idle) :
    w.NeverStalls := by
  have hw : w.Wakeable := invariant_of_steps Wakeable (fun _ _ _ hw h => hw.step h)
    (wakeable_new docroot) hrun
  exact hw.neverStalls hidle

/-- A request arrives: it is in the queue when the read callback returns, and the handler waits to
write and still to read. -/
theorem neverStalls_run_received :
    let es : List HandlerEvent := [.trigger ⟨true, false, false, false, false⟩, .next,
      .run (.recv [(2048, .bytes (ascii "GET /a HTTP/1.1" ++ crlf ++ crlf))]), .run .go]
    ∃ w, runSteps (step fun _ => none) (new []) es = .ok w ∧ w.machine.label = .idle ∧
      w.handler.submittedReqQueue ≠ [] ∧ w.sock.what = 5 ∧ w.NeverStalls := by
  intro es
  obtain ⟨w, hw⟩ : ∃ w, runSteps (step fun _ => none) (new []) es = .ok w := ⟨_, rfl⟩
  have hend : w.machine.label = .idle ∧ w.handler.submittedReqQueue ≠ [] ∧ w.sock.what = 5 := by
    obtain rfl := Except.ok.inj hw
    decide +kernel
  exact ⟨w, hw, hend.1, hend.2.1, hend.2.2, neverStalls_run (fun _ => none) [] es w hw hend.1⟩

end HandlerLoop

end ShadowExtras.Web
