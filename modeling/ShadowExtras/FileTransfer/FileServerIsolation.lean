import ShadowExtras.FileTransfer.FileServerRuns

/-!
# The connections of the file server do not disturb each other

All connections of the file server share a table that is keyed by descriptor, one entry function and
the counters of `fileserver_t`. A `Ledger` is a server with the history of its connections: for each
connection ever accepted, the calls of `fileserver_activate` for its descriptor from its `accept` up
to the next `accept` of the same number, and what these calls have done to it.

`accounts_of_foldl` compares an interleaved run with the separate runs of its connections: what
happened on a connection is what `Service.alone` computes from the results for this connection, and
the counters of the server are the sums over all connections.
-/

namespace ShadowExtras.FileTransfer

open Foundation

/-! ## One connection on its own -/

/-- What the environment does in one activation of a connection. -/
structure ConnectionInput where
  files : Bytes → Option Bytes
  received : Except Errno Bytes
  answers : List Answer

/-- A connection and what has happened on it. -/
@[ext] structure Service where
  /-- The state of the connection, none once it is closed. -/
  conn : Option ServerConnection
  bytesReceived : ℕ
  /-- The bytes that `send` accepted. -/
  sent : Bytes
  repliesSent : ℕ

namespace Service

/-- A connection that was just accepted. -/
def new : Service where
  conn := some ServerConnection.new
  bytesReceived := 0
  sent := []
  repliesSent := 0

/-- What an activation with the outcome `o` has done. -/
def record (s : Service) (o : Outcome) : Service where
  conn := if o.closed then none else some o.act.conn
  bytesReceived := s.bytesReceived + o.act.received
  sent := s.sent ++ o.act.sent
  repliesSent := s.repliesSent + o.act.replies

/-- An activation of the connection; a closed one is not activated any more. -/
def activate (docroot : Bytes) (s : Service) (i : ConnectionInput) : Service :=
  match s.conn with
  | none => s
  | some c => s.record (activateConnection i.files docroot c i.received i.answers)

/-- The run of a connection that no other one interferes with. -/
def alone (docroot : Bytes) (is : List ConnectionInput) : Service :=
  is.foldl (activate docroot) new

@[simp] theorem alone_nil (docroot : Bytes) : alone docroot [] = new := rfl

@[simp] theorem alone_append_singleton (docroot : Bytes) (is : List ConnectionInput)
    (i : ConnectionInput) :
    alone docroot (is ++ [i]) = (alone docroot is).activate docroot i := by
  simp [alone]

end Service

/-! ## The history of a server -/

namespace FileServer

/-- What the environment does to the connection of an activation. -/
def Input.forConnection (i : Input) : ConnectionInput where
  files := i.files
  received := i.received
  answers := i.answers

/-- A connection that was accepted with this descriptor, the activations of the descriptor since
then, and what the server did to the connection in them. -/
structure Session where
  sockd : Int
  inputs : List ConnectionInput
  service : Service

/-- The session of a connection that was just accepted. -/
def Session.new (sockd : Int) : Session where
  sockd := sockd
  inputs := []
  service := Service.new

/-- A session after one more activation; `o` is its outcome, if the server had a connection to
activate. -/
def Session.extend (s : Session) (i : Input) (o : Option Outcome) : Session where
  sockd := s.sockd
  inputs := s.inputs ++ [i.forConnection]
  service := o.elim s.service s.service.record

/-- Enter an activation into the newest session of its descriptor. -/
def enter (i : Input) (o : Option Outcome) : List Session → List Session
  | [] => []
  | s :: ss => if s.sockd = i.sockd then s.extend i o :: ss else s :: enter i o ss

/-- A server and the sessions of all connections it ever accepted, newest first. -/
structure Ledger where
  server : FileServer
  sessions : List Session

/-- The newest session of a descriptor. -/
def newest (sessions : List Session) (sockd : Int) : Option Session :=
  sessions.find? fun s => s.sockd = sockd

/-- The sum of an amount over all sessions. -/
def total (amount : Service → ℕ) (sessions : List Session) : ℕ :=
  (sessions.map fun s => amount s.service).sum

namespace Ledger

/-- A server that was just started. -/
def start (listenSockd : Int) (docroot : Bytes) : Ledger where
  server := FileServer.start listenSockd docroot
  sessions := []

/-- A call of `fileserver_activate`. -/
def activate (l : Ledger) (i : Input) : Ledger where
  server := (l.server.activate i).1
  sessions :=
    if i.sockd < 0 then l.sessions
    else if i.sockd = l.server.listenSockd then
      i.accepts.foldl (fun sessions sockd => Session.new sockd :: sessions) l.sessions
    else enter i ((l.server.target i).map (l.server.outcome i)) l.sessions

/-- The connections of a server are isolated, and its counters account for all of them. -/
structure Accounts (root : Bytes) (l : Ledger) : Prop where
  docroot : l.server.docroot = root
  /-- What happened on a connection depends on its own results only. -/
  alone : ∀ s ∈ l.sessions, s.service = Service.alone root s.inputs
  /-- The state of a connection is that of its own run. -/
  connections : ∀ sockd,
    l.server.connections sockd = (newest l.sessions sockd).bind fun s => s.service.conn
  bytesReceived : l.server.bytesReceived = total Service.bytesReceived l.sessions
  bytesSent : l.server.bytesSent = total (fun s => s.sent.length) l.sessions
  repliesSent : l.server.repliesSent = total Service.repliesSent l.sessions

end Ledger

/-! ## Entering an activation -/

variable {i : Input} {o : Option Outcome} {sessions : List Session} {sockd : Int}

/-- The other descriptors keep their newest session. -/
theorem newest_enter_of_ne (hne : sockd ≠ i.sockd) :
    newest (enter i o sessions) sockd = newest sessions sockd := by
  induction sessions with
  | nil => rfl
  | cons s ss ih =>
    simp only [enter]
    split_ifs with hs
    · have hother : s.sockd ≠ sockd := by
        rw [hs]
        exact hne.symm
      simp [newest, Session.extend, hother]
    · by_cases hsockd : s.sockd = sockd
      · simp [newest, hsockd]
      · simpa [newest, hsockd] using ih

/-- The newest session of the descriptor of an activation. -/
theorem newest_enter_self {s : Session} (h : newest sessions i.sockd = some s) :
    newest (enter i o sessions) i.sockd = some (s.extend i o) := by
  induction sessions with
  | nil => simp [newest] at h
  | cons u us ih =>
    by_cases hu : u.sockd = i.sockd
    · obtain rfl : u = s := by simpa [newest, hu] using h
      simp [enter, newest, Session.extend, hu]
    · simpa [enter, newest, hu] using ih (by simpa [newest, hu] using h)

/-- A descriptor that no connection ever had. -/
theorem enter_of_newest_eq_none (h : newest sessions i.sockd = none) :
    enter i o sessions = sessions := by
  induction sessions with
  | nil => rfl
  | cons s ss ih =>
    have hs : s.sockd ≠ i.sockd := by
      intro heq
      simp [newest, heq] at h
    rw [enter, if_neg hs, ih (by simpa [newest, hs] using h)]

/-- Entering an activation changes nothing but the newest session of its descriptor. -/
theorem mem_enter {s' : Session} (h : s' ∈ enter i o sessions) :
    s' ∈ sessions ∨ ∃ s ∈ sessions, newest sessions i.sockd = some s ∧ s' = s.extend i o := by
  induction sessions with
  | nil => simp [enter] at h
  | cons s ss ih =>
    simp only [enter] at h
    split_ifs at h with hs
    · rcases List.mem_cons.mp h with rfl | hmem
      · exact .inr ⟨s, by simp, by simp [newest, hs], rfl⟩
      · exact .inl (List.mem_cons_of_mem _ hmem)
    · rcases List.mem_cons.mp h with rfl | hmem
      · exact .inl (by simp)
      · rcases ih hmem with hold | ⟨u, humem, hu, rfl⟩
        · exact .inl (List.mem_cons_of_mem _ hold)
        · exact .inr ⟨u, List.mem_cons_of_mem _ humem, by simpa [newest, hs] using hu, rfl⟩

/-- An amount that an activation adds to its connection is added to the sum. -/
theorem total_enter {s : Session} {amount : Service → ℕ} {added : ℕ}
    (h : newest sessions i.sockd = some s)
    (hamount : amount (s.extend i o).service = amount s.service + added) :
    total amount (enter i o sessions) = total amount sessions + added := by
  induction sessions with
  | nil => simp [newest] at h
  | cons u us ih =>
    by_cases hu : u.sockd = i.sockd
    · obtain rfl : u = s := by simpa [newest, hu] using h
      simp only [enter, if_pos hu, total, List.map_cons, List.sum_cons, hamount]
      omega
    · have hrest := ih (by simpa [newest, hu] using h)
      simp only [enter, if_neg hu, total, List.map_cons, List.sum_cons] at hrest ⊢
      omega

/-! ## One activation -/

namespace Ledger

variable {root : Bytes} {l : Ledger}

theorem accounts_start (listenSockd : Int) (root : Bytes) :
    Accounts root (start listenSockd root) where
  docroot := rfl
  alone := by simp [start]
  connections := by simp [start, FileServer.start, newest]
  bytesReceived := by simp [start, FileServer.start, total]
  bytesSent := by simp [start, FileServer.start, total]
  repliesSent := by simp [start, FileServer.start, total]

/-- A connection is accepted. -/
theorem Accounts.acceptOne (h : Accounts root l) (sockd : Int) :
    Accounts root
      { server := l.server.acceptOne sockd, sessions := Session.new sockd :: l.sessions } where
  docroot := h.docroot
  alone := by
    intro s hs
    rcases List.mem_cons.mp hs with rfl | hmem
    · simp [Session.new]
    · exact h.alone s hmem
  connections := by
    intro k
    by_cases hk : k = sockd
    · subst hk
      simp [FileServer.acceptOne, newest, Session.new, Service.new]
    · have hnew : (Session.new sockd).sockd ≠ k := fun heq => hk heq.symm
      simpa [FileServer.acceptOne, newest, hk, hnew] using h.connections k
  bytesReceived := by
    simpa [total, Session.new, Service.new, FileServer.acceptOne] using h.bytesReceived
  bytesSent := by
    simpa [total, Session.new, Service.new, FileServer.acceptOne] using h.bytesSent
  repliesSent := by
    simpa [total, Session.new, Service.new, FileServer.acceptOne] using h.repliesSent

/-- Connections are accepted one after the other. -/
theorem Accounts.foldl_acceptOne (h : Accounts root l) (accepts : List Int) :
    Accounts root
      { server := accepts.foldl FileServer.acceptOne l.server
        sessions := accepts.foldl (fun sessions sockd => Session.new sockd :: sessions)
          l.sessions } := by
  induction accepts generalizing l with
  | nil => exact h
  | cons sockd accepts ih => exact ih (h.acceptOne sockd)

/-- An activation of a connection is one of its own run. -/
theorem Accounts.finish {c : ServerConnection} (h : Accounts root l)
    (htarget : l.server.target i = some c) :
    Accounts root
      { server := l.server.finish i.sockd (l.server.outcome i c)
        sessions := enter i (some (l.server.outcome i c)) l.sessions } := by
  have hopen : l.server.connections i.sockd = some c := by
    unfold target at htarget
    split_ifs at htarget
    exact htarget
  obtain ⟨s, hs, hconn⟩ : ∃ s, newest l.sessions i.sockd = some s ∧ s.service.conn = some c := by
    rw [h.connections] at hopen
    exact Option.bind_eq_some_iff.mp hopen
  refine ⟨h.docroot, ?_, ?_, ?_, ?_, ?_⟩
  · intro s' hs'
    rcases mem_enter hs' with hold | ⟨u, humem, hu, rfl⟩
    · exact h.alone s' hold
    · obtain rfl : u = s := Option.some.inj (hu.symm.trans hs)
      have halone : (Service.alone root u.inputs).conn = some c := by rw [← h.alone u humem, hconn]
      change u.service.record (l.server.outcome i c) = Service.alone root (u.inputs ++ [_])
      rw [Service.alone_append_singleton, h.alone u humem, Service.activate, halone]
      change _ = (Service.alone root u.inputs).record (activateConnection i.files root c _ _)
      rw [FileServer.outcome, h.docroot]
      rfl
  · intro k
    by_cases hk : k = i.sockd
    · subst hk
      rw [newest_enter_self hs]
      simp [FileServer.finish, Session.extend, Service.record]
    · rw [newest_enter_of_ne hk]
      simpa [FileServer.finish, hk] using h.connections k
  · change l.server.bytesReceived + _ = _
    rw [h.bytesReceived, total_enter hs rfl]
  · change l.server.bytesSent + _ = _
    have hsent : (s.extend i (some (l.server.outcome i c))).service.sent.length =
        s.service.sent.length + (l.server.outcome i c).act.sent.length := List.length_append
    rw [h.bytesSent, total_enter hs hsent]
  · change l.server.repliesSent + _ = _
    rw [h.repliesSent, total_enter hs rfl]

/-- A call for a descriptor without a connection. -/
theorem Accounts.enter_none (h : Accounts root l) (hclosed : l.server.connections i.sockd = none) :
    Accounts root { l with sessions := enter i none l.sessions } := by
  cases hs : newest l.sessions i.sockd with
  | none =>
    rw [enter_of_newest_eq_none hs]
    exact h
  | some s =>
    have hconn : s.service.conn = none := by
      have hnone := h.connections i.sockd
      rw [hclosed, hs] at hnone
      exact hnone.symm
    refine ⟨h.docroot, ?_, ?_, ?_, ?_, ?_⟩
    · intro s' hs'
      rcases mem_enter hs' with hold | ⟨u, humem, hu, rfl⟩
      · exact h.alone s' hold
      · obtain rfl : u = s := Option.some.inj (hu.symm.trans hs)
        have halone : (Service.alone root u.inputs).conn = none := by
          rw [← h.alone u humem, hconn]
        change u.service = Service.alone root (u.inputs ++ [_])
        rw [Service.alone_append_singleton, Service.activate, halone]
        exact h.alone u humem
    · intro k
      by_cases hk : k = i.sockd
      · subst hk
        rw [newest_enter_self hs, hclosed]
        exact hconn.symm
      · rw [newest_enter_of_ne hk]
        exact h.connections k
    · rw [total_enter hs (Nat.add_zero _).symm]
      exact h.bytesReceived
    · rw [total_enter hs (Nat.add_zero _).symm]
      exact h.bytesSent
    · rw [total_enter hs (Nat.add_zero _).symm]
      exact h.repliesSent

/-- Every call of `fileserver_activate` keeps the accounts. -/
theorem Accounts.activate (h : Accounts root l) (i : Input) : Accounts root (l.activate i) := by
  unfold Ledger.activate
  by_cases hneg : i.sockd < 0
  · simpa [FileServer.activate, hneg] using h
  · by_cases hlisten : i.sockd = l.server.listenSockd
    · have haccept : (l.server.activate i).1 = i.accepts.foldl FileServer.acceptOne l.server := by
        rw [FileServer.activate, if_neg hneg, if_pos hlisten]
      rw [if_neg hneg, if_pos hlisten, haccept]
      exact h.foldl_acceptOne i.accepts
    · rw [if_neg hneg, if_neg hlisten]
      cases htarget : l.server.target i with
      | some c =>
        rw [activate_of_target htarget]
        exact h.finish htarget
      | none =>
        have hclosed : l.server.connections i.sockd = none := by
          simpa [target, hneg, hlisten] using htarget
        have hsame : (l.server.activate i).1 = l.server := by
          simp [FileServer.activate, hneg, hlisten, hclosed]
        rw [hsame]
        exact h.enter_none hclosed

/-- In every run, whatever the order of the calls, accepts, closes and reused descriptors: what
happened on each connection ever accepted is what happens in its own run, and the counters of the
server are the sums over these connections. -/
theorem accounts_of_foldl (listenSockd : Int) (root : Bytes) (is : List Input) :
    Accounts root (is.foldl activate (start listenSockd root)) := by
  induction is using List.reverseRecOn with
  | nil => exact accounts_start listenSockd root
  | append_singleton is i ih =>
    rw [List.foldl_append]
    exact ih.activate i

end Ledger

end FileServer

end ShadowExtras.FileTransfer
