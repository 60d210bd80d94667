import ShadowExtras.Browser.Plugin

/-!
# The connections of the browser plugin

What holds of the connections and of `b->connections` in every run (`Sockets`): two connections have
no socket in common, a connection with a socket has a getter that is in use, and an entry whose
pointer to the key is not that of its connection is one without socket. The operations on the table
and `browser_prepare_filegetter`, `browser_reuse_connection` keep this.

An entry may be stale, when its connection has another socket than at the insertion, or be inserted
without socket. Such an entry is never taken out again by a key that is a socket (`Stuck`).
-/

namespace ShadowExtras.BrowserPlugin

open Foundation FileTransfer

/-- What holds of a connection that was allocated. -/
structure Connection.Sound (conn : Connection) : Prop where
  persistent : conn.sspec.persistent = true
  doSave : conn.fspec.doSave = false
  established : conn.fg.sockd ≠ 0 → conn.fg.Established

namespace Browser

variable {env : Env} {b b' : Browser} {c d : ConnId} {conn : Connection} {fg : Filegetter}
  {n : Entry ConnId ConnId Int} {sockfd : Int}

/-- The host that a connection is for. -/
def host (b : Browser) (c : ConnId) : Bytes := (b.conn c).sspec.httpHostname

/-- The object that a connection downloads. -/
def downloads (b : Browser) (c : ConnId) : Option Object := (b.conn c).download

/-! ## One connection changes -/

/-- The socket of the connection is the new one, the others keep theirs. -/
theorem sockd_setConn (b : Browser) (c d : ConnId) (conn : Connection) :
    (b.setConn c conn).sockd d = if d = c then conn.fg.sockd else b.sockd d := by
  by_cases hd : d = c
  · subst hd
    simp [sockd, setConn]
  · simp [sockd, setConn, hd]

theorem sockd_setFg (b : Browser) (c d : ConnId) (fg : Filegetter) :
    (b.setFg c fg).sockd d = if d = c then fg.sockd else b.sockd d :=
  sockd_setConn b c d _

theorem sockd_shutdownConnection (b : Browser) (c d : ConnId) :
    (b.shutdownConnection c).sockd d = if d = c then 0 else b.sockd d :=
  sockd_setFg b c d _

/-- The host of the connection is the new one, the others keep theirs. -/
theorem host_setConn (b : Browser) (c d : ConnId) (conn : Connection) :
    (b.setConn c conn).host d = if d = c then conn.sspec.httpHostname else b.host d := by
  by_cases hd : d = c
  · subst hd
    simp [host, setConn]
  · simp [host, setConn, hd]

/-- The getter is not about the host. -/
@[simp] theorem host_setFg (b : Browser) (c d : ConnId) (fg : Filegetter) :
    (b.setFg c fg).host d = b.host d := by
  rw [setFg, host_setConn]
  split
  · rename_i hd
    rw [hd, host]
  · rfl

/-- The download of the connection is the new one, the others keep theirs. -/
theorem downloads_setConn (b : Browser) (c d : ConnId) (conn : Connection) :
    (b.setConn c conn).downloads d = if d = c then conn.download else b.downloads d := by
  by_cases hd : d = c
  · subst hd
    simp [downloads, setConn]
  · simp [downloads, setConn, hd]

/-- The getter is not about the download. -/
@[simp] theorem downloads_setFg (b : Browser) (c d : ConnId) (fg : Filegetter) :
    (b.setFg c fg).downloads d = b.downloads d := by
  rw [setFg, downloads_setConn]
  split
  · rename_i hd
    rw [hd, downloads]
  · rfl

/-! ## Sockets -/

/-- What holds of the connections and their entries in every run. -/
structure Sockets (b : Browser) : Prop where
  distinct : ∀ c d, b.sockd c = b.sockd d → b.sockd c ≠ 0 → c = d
  unused : ∀ c, b.nextConn ≤ c → b.conn c = noConnection
  sound : ∀ c < b.nextConn, (b.conn c).Sound
  values : ∀ e ∈ b.connections, e.value < b.nextConn
  keys : ∀ e ∈ b.connections, e.key = e.value ∨ e.hash = 0 ∧ b.sockd e.value = 0

theorem Sockets.sockd_unused (h : b.Sockets) (hc : b.nextConn ≤ c) : b.sockd c = 0 := by
  rw [sockd, h.unused c hc]
  rfl

/-- Nothing but the state of the browser, its tasks and its history changes, and entries go. -/
theorem Sockets.congr (h : b.Sockets) (hconn : b'.conn = b.conn) (hnext : b'.nextConn = b.nextConn)
    (hsub : b'.connections ⊆ b.connections) : b'.Sockets := by
  have hsockd : b'.sockd = b.sockd := by
    funext c
    rw [sockd, sockd, hconn]
  constructor
  · rw [hsockd]
    exact h.distinct
  · rw [hnext, hconn]
    exact h.unused
  · rw [hnext, hconn]
    exact h.sound
  · intro e he
    rw [hnext]
    exact h.values e (hsub he)
  · intro e he
    rw [hsockd]
    exact h.keys e (hsub he)

/-- A connection changes or is allocated, and gets no socket of another one. -/
theorem Sockets.update (h : b.Sockets) (hconn : b'.conn = Function.update b.conn c conn)
    (hconnections : b'.connections = b.connections)
    (hnext : ∀ d, d < b'.nextConn ↔ d < b.nextConn ∨ d = c) (hsound : conn.Sound)
    (hfree : b.Free c conn.fg.sockd)
    (hkeys : ∀ e ∈ b.connections, e.value = c → e.key ≠ c → conn.fg.sockd = 0) : b'.Sockets := by
  have hself : b'.sockd c = conn.fg.sockd := by simp [sockd, hconn]
  have hrest : ∀ d, d ≠ c → b'.sockd d = b.sockd d := by
    intro d hd
    simp [sockd, hconn, hd]
  have hother : ∀ d, d ≠ c → conn.fg.sockd ≠ 0 → b.sockd d ≠ conn.fg.sockd := by
    intro d hd hne
    rcases hfree with hzero | ⟨-, hfree⟩
    · exact absurd hzero hne
    · by_cases hlt : d < b.nextConn
      · exact hfree d hlt hd
      · rw [h.sockd_unused (Nat.le_of_not_lt hlt)]
        exact Ne.symm hne
  constructor
  · intro d d' heq hne
    by_cases hd : d = c
    · by_cases hd' : d' = c
      · rw [hd, hd']
      · rw [hd, hself, hrest d' hd'] at heq
        rw [hd, hself] at hne
        exact absurd heq.symm (hother d' hd' hne)
    · rw [hrest d hd] at heq hne
      by_cases hd' : d' = c
      · rw [hd', hself] at heq
        exact absurd heq (hother d hd (heq ▸ hne))
      · rw [hrest d' hd'] at heq
        exact h.distinct d d' heq hne
  · intro d hd
    have hnot : ¬(d < b.nextConn ∨ d = c) := fun hlt => Nat.not_lt.mpr hd ((hnext d).mpr hlt)
    rw [not_or] at hnot
    rw [hconn, Function.update_of_ne hnot.2]
    exact h.unused d (Nat.le_of_not_lt hnot.1)
  · intro d hd
    by_cases hdc : d = c
    · rw [hconn, hdc, Function.update_self]
      exact hsound
    · rw [hconn, Function.update_of_ne hdc]
      exact h.sound d (((hnext d).mp hd).resolve_right hdc)
  · intro e he
    rw [hconnections] at he
    exact (hnext e.value).mpr (.inl (h.values e he))
  · intro e he
    rw [hconnections] at he
    rcases h.keys e he with hkey | ⟨hhash, hzero⟩
    · exact .inl hkey
    · by_cases hvalue : e.value = c
      · by_cases hkey : e.key = c
        · exact .inl (hkey.trans hvalue.symm)
        · refine .inr ⟨hhash, ?_⟩
          rw [hvalue, hself]
          exact hkeys e he hvalue hkey
      · refine .inr ⟨hhash, ?_⟩
        rw [hrest e.value hvalue]
        exact hzero

/-- The sockets stay apart when a connection gets a free one. -/
theorem Sockets.setConn (h : b.Sockets) (hc : c < b.nextConn) (hsound : conn.Sound)
    (hfree : b.Free c conn.fg.sockd)
    (hkeys : ∀ e ∈ b.connections, e.value = c → e.key ≠ c → conn.fg.sockd = 0) :
    (b.setConn c conn).Sockets := by
  refine h.update ?_ ?_ (fun d => ⟨.inl, ?_⟩) hsound hfree hkeys
  · rfl
  · rfl
  · rintro (hd | rfl)
    · exact hd
    · exact hc

/-- A connection with the same socket is not in anyone's way. -/
theorem Sockets.free_self (h : b.Sockets) (hc : c < b.nextConn) : b.Free c (b.sockd c) := by
  by_cases hzero : b.sockd c = 0
  · exact .inl hzero
  · refine .inr ⟨((h.sound c hc).established hzero).sockd, fun d _ hd heq => ?_⟩
    exact hd (h.distinct d c heq (heq ▸ hzero))

/-- A connection changes, but not its socket. -/
theorem Sockets.setConn_same (h : b.Sockets) (hc : c < b.nextConn) (hsound : conn.Sound)
    (hsame : conn.fg.sockd = b.sockd c) : (b.setConn c conn).Sockets := by
  refine h.setConn hc hsound (hsame ▸ h.free_self hc) fun e he hvalue hkey => ?_
  rcases h.keys e he with heq | ⟨-, hzero⟩
  · exact absurd (heq.trans hvalue) hkey
  · rw [hsame, ← hvalue]
    exact hzero

/-- The sockets stay apart when a connection is shut down. -/
theorem Sockets.shutdownConnection (h : b.Sockets) (hc : c < b.nextConn) :
    (b.shutdownConnection c).Sockets := by
  have hsound := h.sound c hc
  refine h.setConn hc ?_ (.inl rfl) fun _ _ _ _ => rfl
  exact ⟨hsound.persistent, hsound.doSave, fun hne => absurd rfl hne⟩

/-- The sockets stay apart when an entry is stolen. -/
theorem Sockets.steal (h : b.Sockets) (sockfd : Int) : (b.steal sockfd).Sockets := by
  refine h.congr ?_ ?_ fun e he => HashTable.mem_of_mem_remove he
  · simp [Browser.steal]
  · simp [Browser.steal]

/-- The sockets stay apart when an entry is removed. -/
theorem Sockets.remove (h : b.Sockets) (sockfd : Int) : (b.remove sockfd).Sockets := by
  unfold Browser.remove
  split
  · exact h
  · rename_i entry hlookup
    apply (h.steal sockfd).shutdownConnection
    exact h.values entry (HashTable.mem_of_lookup hlookup).1

/-- The entry that is found under a socket of its connection. -/
theorem Sockets.of_lookup (h : b.Sockets) (hlookup : b.lookup sockfd = some n)
    (hne : b.sockd n.value ≠ 0) :
    n ∈ b.connections ∧ n.key = n.value ∧ n.hash = sockfd ∧ b.sockd n.value = sockfd := by
  obtain ⟨hmem, hhash, hread⟩ := HashTable.mem_of_lookup hlookup
  rcases h.keys n hmem with hkey | ⟨-, hzero⟩
  · exact ⟨hmem, hkey, hhash, hkey ▸ hread⟩
  · exact absurd hzero hne

/-- `browser_activate` changes the getter of the connection that it has found. -/
theorem Sockets.setFg_of_lookup (h : b.Sockets) (hlookup : b.lookup sockfd = some n)
    (hne : b.sockd n.value ≠ 0) (hestablished : fg.sockd ≠ 0 → fg.Established)
    (hfree : b.Free n.value fg.sockd) : (b.setFg n.value fg).Sockets := by
  obtain ⟨hmem, -⟩ := h.of_lookup hlookup hne
  have hlt := h.values n hmem
  have hsound := h.sound n.value hlt
  refine h.setConn hlt ⟨hsound.persistent, hsound.doSave, hestablished⟩ hfree ?_
  intro e he hvalue hkey
  rcases h.keys e he with heq | ⟨-, hzero⟩
  · exact absurd (heq.trans hvalue) hkey
  · rw [hvalue] at hzero
    exact absurd hzero hne

/-- Shutting down connections that are in use. -/
theorem Sockets.foldl_shutdown {entries : List (Entry ConnId ConnId Int)} (h : b.Sockets)
    (hentries : ∀ e ∈ entries, e.value < b.nextConn) :
    ∃ conn, entries.foldl (fun b e => b.shutdownConnection e.value) b = { b with conn := conn } ∧
      (∀ c, Browser.host { b with conn := conn } c = b.host c) ∧
        Sockets { b with conn := conn } := by
  induction entries generalizing b with
  | nil => exact ⟨b.conn, rfl, fun _ => rfl, h⟩
  | cons e entries ih =>
    have hshutdown := h.shutdownConnection (hentries e (by simp))
    obtain ⟨conn, hfold, hhost, hsockets⟩ :=
      ih hshutdown fun e' he' => hentries e' (List.mem_cons_of_mem _ he')
    exact ⟨conn, hfold, fun c => (hhost c).trans (host_setFg _ _ _ _), hsockets⟩

/-- `browser_free` destroys the table. -/
theorem Sockets.free (h : b.Sockets) :
    ∃ conn, b.free = { b with conn := conn, connections := [], freed := true } ∧
      (∀ c, b.free.host c = b.host c) ∧ b.free.Sockets := by
  obtain ⟨conn, hfold, hhost, hsockets⟩ := h.foldl_shutdown h.values
  have hfree : b.free = { b with conn := conn, connections := [], freed := true } := by
    unfold Browser.free
    rw [hfold]
  refine ⟨conn, hfree, ?_, ?_⟩
  · rw [hfree]
    exact hhost
  · rw [hfree]
    refine hsockets.congr ?_ ?_ (List.nil_subset _)
    · rfl
    · rfl

/-! ## Insertions -/

/-- An entry after an insertion is an old one, or that of the connection. -/
theorem Sockets.mem_insert (h : b.Sockets) {e : Entry ConnId ConnId Int}
    (he : e ∈ HashTable.insert b.sockd b.connections c c) :
    e ∈ b.connections ∨ e.hash = b.sockd c ∧ e.value = c ∧
    (e.key = c ∨ e.hash = 0 ∧ b.sockd c = 0) := by
  rcases HashTable.mem_insert he with hold | ⟨⟨hhash, hread, hvalue⟩, -⟩
  · exact .inl hold
  · refine .inr ⟨hhash, hvalue, ?_⟩
    by_cases hzero : b.sockd c = 0
    · exact .inr ⟨hhash.trans hzero, hzero⟩
    · exact .inl (h.distinct e.key c hread (hread ▸ hzero))

/-- The sockets stay apart when a connection is inserted. -/
theorem Sockets.insert (h : b.Sockets) (hc : c < b.nextConn) : (b.insert c).Sockets := by
  obtain ⟨b₁, hb₁⟩ : ∃ b₁ : Browser,
      b₁ = { b with connections := HashTable.insert b.sockd b.connections c c } := ⟨_, rfl⟩
  have h₁ : b₁.Sockets := by
    subst hb₁
    constructor
    · exact h.distinct
    · exact h.unused
    · exact h.sound
    · intro e he
      rcases h.mem_insert he with hold | ⟨-, hvalue, -⟩
      · exact h.values e hold
      · rw [hvalue]
        exact hc
    · intro e he
      rcases h.mem_insert he with hold | ⟨-, hvalue, hkey | ⟨hhash, hzero⟩⟩
      · exact h.keys e hold
      · exact .inl (hkey.trans hvalue.symm)
      · refine .inr ⟨hhash, ?_⟩
        rw [hvalue]
        exact hzero
  unfold Browser.insert
  rw [← hb₁]
  dsimp only
  split
  · exact h₁
  · rename_i entry hlookup
    have hentry := h.values entry (HashTable.mem_of_lookup hlookup).1
    have hnext : b₁.nextConn = b.nextConn := by rw [hb₁]
    apply Sockets.shutdownConnection
    · refine h₁.congr ?_ ?_ fun _ => id
      · rfl
      · rfl
    · rw [← hnext] at hentry
      exact hentry

/-- A connection with a socket that no entry has been stored under gets a new entry. -/
theorem insert_of_fresh
    (hfresh : ∀ e ∈ b.connections, e.hash = b.sockd c → b.sockd e.key ≠ b.sockd c) :
    b.insert c = { b with
      connections := b.connections ++ [{ hash := b.sockd c, key := c, value := c }] } := by
  have hlookup : b.lookup (b.sockd c) = none := HashTable.lookup_eq_none.mpr hfresh
  unfold Browser.insert
  dsimp only
  rw [hlookup]
  dsimp only
  rw [HashTable.insert_of_forall hfresh]

/-- An insertion changes the table and, when it replaces a value, that connection. -/
theorem insert_eq (b : Browser) (c : ConnId) :
    ∃ connections conn replaced, b.insert c =
      { b with connections := connections, conn := conn, replaced := replaced } := by
  unfold Browser.insert
  dsimp only
  split <;> exact ⟨_, _, _, rfl⟩

/-! ## Tasks -/

/-- The tasks of the host are the new ones, the others keep theirs. -/
theorem tasks_setTasks (b : Browser) (hostname hostname' : Bytes) (tasks : Tasks) :
    (b.setTasks hostname tasks).tasks hostname' =
      if hostname' = hostname then (b.tasks hostname').map fun _ => tasks else b.tasks hostname' :=
  lookup_map_update b.downloadTasks hostname' hostname fun _ => tasks

theorem tasks_setTasks_self {tasks : Tasks} {hostname : Bytes} (h : b.tasks hostname = some tasks)
    (tasks' : Tasks) : (b.setTasks hostname tasks').tasks hostname = some tasks' := by
  rw [tasks_setTasks, if_pos rfl, h, Option.map_some]

theorem tasks_setTasks_of_ne {hostname hostname' : Bytes} (h : hostname' ≠ hostname)
    (tasks : Tasks) :
    (b.setTasks hostname tasks).tasks hostname' = b.tasks hostname' := by
  rw [tasks_setTasks, if_neg h]

/-- A host has the tasks that it had, or new ones. -/
theorem tasks_initHost_eq (env : Env) (b : Browser) (hostname hostname' : Bytes) :
    (b.initHost env hostname).tasks hostname' = if hostname' = hostname then
        some ((b.tasks hostname).getD
          { running := 0
            added := []
            reachable := (env.getaddr hostname).1 ≠ [0, 0, 0, 0]
            pending := [] })
      else b.tasks hostname' := by
  unfold initHost
  cases hhost : b.tasks hostname with
  | some tasks =>
    dsimp only
    split_ifs with heq
    · rw [heq, hhost, Option.getD_some]
    · rfl
  | none =>
    rw [Browser.tasks, lookup_concat _ _ _ _ hhost]
    rfl

/-- A host that has tasks keeps them. -/
theorem tasks_initHost_of_some {tasks : Tasks} (hostname : Bytes) {hostname' : Bytes}
    (h : b.tasks hostname' = some tasks) :
    (b.initHost env hostname).tasks hostname' = some tasks := by
  rw [tasks_initHost_eq]
  split_ifs with heq
  · rw [← heq, h, Option.getD_some]
  · exact h

/-- A new host has nothing to do. -/
theorem tasks_initHost (b : Browser) (hostname hostname' : Bytes) {tasks : Tasks}
    (h : (b.initHost env hostname).tasks hostname' = some tasks) :
    b.tasks hostname' = some tasks ∨ tasks.running = 0 ∧ tasks.pending = [] := by
  cases hhost : b.tasks hostname' with
  | some tasks' =>
    rw [tasks_initHost_of_some hostname hhost] at h
    exact .inl h
  | none =>
    rw [tasks_initHost_eq] at h
    split_ifs at h with heq
    · subst heq
      rw [hhost, Option.getD_none] at h
      obtain rfl := Option.some.inj h
      exact .inr ⟨rfl, rfl⟩
    · rw [hhost] at h
      cases h

/-! ## New connections -/

/-- The connection that `browser_prepare_filegetter` makes. -/
structure Prepared (b : Browser) (hostname : Bytes) (object : Option Object) (dial : Dial)
    (conn : Connection) : Prop where
  host : conn.sspec.httpHostname = hostname
  download : conn.download = object
  sound : conn.Sound
  free : b.Free b.nextConn conn.fg.sockd
  connected : dial.connection ≠ .failed → conn.fg.sockd ≠ 0

/-- The browser with one more connection. -/
def allocated (b : Browser) (conn : Connection) : Browser :=
  { b.setConn b.nextConn conn with nextConn := b.nextConn + 1 }

/-- A getter that is prepared is allocated. -/
theorem prepareFilegetter_eq_ok {httpServer socksProxy : ServerArgs} {filepath : Bytes}
    {object : Option Object} {dial : Dial}
    (h : b.prepareFilegetter env httpServer socksProxy filepath object dial = .ok b') :
    ∃ conn, b.Prepared httpServer.host object dial conn ∧ b' = b.allocated conn := by
  unfold prepareFilegetter at h
  dsimp only at h
  split at h
  · cases h
  · split at h
    · cases h
    · split at h
      · cases h
      · split at h
        · cases h
        · rename_i hdial
          simp only [not_not] at hdial
          obtain rfl := Except.ok.inj h
          refine ⟨_, ?_, rfl⟩
          have hstart := Filegetter.download_start
            { httpHostname := httpServer.host
              httpAddr := env.getaddr httpServer.host
              httpPort := htons (atoi httpServer.port)
              socksAddr := env.getaddr socksProxy.host
              socksPort := htons (atoi socksProxy.port)
              persistent := true
              useHostname := false
              hostnameLength := 0 }
            { remotePath := filepath.take strSize
              localPath := []
              doSave := false
              saveToMemory := b.state = .document }
            dial.connection dial.now rfl rfl
            (by
              intro sockd incoming hconnected
              rw [hconnected] at hdial
              exact (hdial.2.resolve_left hdial.1).1)
          dsimp only at hstart
          constructor
          · simp
          · simp
          · refine ⟨by simp, by simp, fun hne => ?_⟩
            rcases hstart with ⟨-, hzero⟩ | ⟨_, _, -, -, hestablished⟩
            · exact absurd hzero hne
            · exact hestablished
          · rcases hstart with ⟨-, hzero⟩ | ⟨sockd, incoming, hconnected, hsockd, -⟩
            · exact .inl hzero
            · rw [hconnected] at hdial
              simp only [hsockd]
              exact hdial.2
          · intro hne
            rcases hstart with ⟨hfailed, -⟩ | ⟨_, _, -, -, hestablished⟩
            · exact absurd hfailed hne
            · exact ne_of_gt hestablished.sockd

/-- The sockets stay apart when a connection is allocated. -/
theorem Sockets.allocated {hostname : Bytes} {object : Option Object} {dial : Dial} (h : b.Sockets)
    (hconn : b.Prepared hostname object dial conn) : (b.allocated conn).Sockets := by
  refine h.update ?_ ?_ (fun d => ?_) hconn.sound hconn.free fun e he hvalue _ => ?_
  · rfl
  · rfl
  · exact Nat.lt_succ_iff_lt_or_eq
  · exact absurd (h.values e he) (hvalue ▸ lt_irrefl _)

theorem sockd_allocated (b : Browser) (c : ConnId) (conn : Connection) :
    (b.allocated conn).sockd c = if c = b.nextConn then conn.fg.sockd else b.sockd c :=
  sockd_setConn b b.nextConn c conn

/-- The browser after `browser_start_tasks` has started a path of a host. -/
def started (b : Browser) (hostname : Bytes) (tasks : Tasks) (conn : Connection) : Browser :=
  ((b.allocated conn).insert b.nextConn).setTasks hostname tasks

/-- Starting a path changes the tasks, the table and the connections. -/
theorem started_eq (b : Browser) (hostname : Bytes) (tasks : Tasks) (conn : Connection) :
    ∃ downloadTasks connections conns replaced, b.started hostname tasks conn = { b with
      downloadTasks := downloadTasks
      connections := connections
      conn := conns
      nextConn := b.nextConn + 1
      replaced := replaced } := by
  obtain ⟨connections, conns, replaced, hinsert⟩ := insert_eq (b.allocated conn) b.nextConn
  unfold started
  rw [hinsert]
  exact ⟨_, _, _, _, rfl⟩

/-- What the loop of `browser_start_tasks` does in a round: enough downloads are running, or one
more is started. -/
theorem startTasks_cons_eq_ok {hostname path : Bytes} {pending : List Bytes} {dials : List Dial}
    {tasks : Tasks} {x : Browser × List Dial} (htasks : b.tasks hostname = some tasks)
    (h : b.startTasks env hostname (path :: pending) dials = .ok x) :
    (¬tasks.running < b.maxConcurrentDownloads ∧ x = (b, dials)) ∨
      ∃ dial dials' conn, dials = dial :: dials' ∧
        b.Prepared hostname (some (hostname, path)) dial conn ∧
        (b.started hostname { tasks with running := tasks.running + 1, pending := pending }
          conn).startTasks env hostname pending dials' = .ok x := by
  unfold startTasks at h
  rw [htasks] at h
  dsimp only at h
  split at h
  · split at h
    · cases h
    · rename_i dial dials'
      split at h
      · cases h
      · rename_i b₁ hprepare
        obtain ⟨conn, hconn, rfl⟩ := prepareFilegetter_eq_ok hprepare
        exact .inr ⟨dial, dials', conn, rfl, hconn, h⟩
  · rename_i hrunning
    exact .inl ⟨hrunning, (Except.ok.inj h).symm⟩

/-- `browser_reuse_connection` for a connection that is established. -/
theorem Sockets.reuseConnection_eq_ok {reused : Bool} (h : b.Sockets) (hc : c < b.nextConn)
    (hestablished : (b.conn c).fg.Established) (hreuse : b.reuseConnection c = .ok (b', reused)) :
    ∃ tasks, b.tasks (b.host c) = some tasks ∧
      ((reused = false ∧ tasks.pending = [] ∧ b' = b) ∨
        ∃ path pending conn, reused = true ∧ tasks.pending = path :: pending ∧
          b' = (b.setTasks (b.host c) { tasks with pending := pending }).setConn c conn ∧
          conn.Sound ∧ conn.fg.sockd = b.sockd c ∧ conn.sspec.httpHostname = b.host c ∧
          conn.download = some (b.host c, path)) := by
  have hsound := h.sound c hc
  unfold Browser.reuseConnection at hreuse
  dsimp only at hreuse
  split at hreuse
  · cases hreuse
  · rename_i tasks htasks
    refine ⟨tasks, htasks, ?_⟩
    split at hreuse
    · rename_i hpending
      obtain ⟨rfl, rfl⟩ := Prod.mk.inj (Except.ok.inj hreuse)
      exact .inl ⟨rfl, hpending, rfl⟩
    · rename_i path pending hpending
      obtain ⟨rfl, rfl⟩ := Prod.mk.inj (Except.ok.inj hreuse)
      obtain ⟨hsockd, hdownload⟩ := hestablished.download (b.conn c).sspec
        { (b.conn c).fspec with remotePath := path.take strSize } .failed ⟨0, 0⟩ hsound.persistent
        hsound.doSave
      refine .inr ⟨path, pending, _, rfl, hpending, rfl, ?_, hsockd, ?_, ?_⟩
      · exact ⟨hsound.persistent, hsound.doSave, fun _ => hdownload⟩
      · rfl
      · rfl

/-! ## Activations -/

/-- An activation has found an entry, and the getter of its connection returned a code. -/
structure Activates (b : Browser) (sockfd : Int) (getter : GetterEvent)
    (n : Entry ConnId ConnId Int) (fg : Filegetter) (code : GetterCode) : Prop where
  lookup : b.lookup sockfd = some n
  mem : n ∈ b.connections
  key : n.key = n.value
  hash : n.hash = sockfd
  sockd : b.sockd n.value = sockfd
  nonzero : sockfd ≠ 0
  activate : (b.conn n.value).fg.activate getter = .ok (fg, code)
  ends : fg.Ends code
  sockets : (b.setFg n.value fg).Sockets

/-- What `browser_activate` does when it ends: nothing for an unknown socket, else what the code of
the getter asks for. -/
theorem Sockets.activate_eq_ok {getter : GetterEvent} {dials : List Dial} (h : b.Sockets)
    (hstep : b.activate env sockfd getter dials = .ok b') :
    b.freed = false ∧ ((b.lookup sockfd = none ∧ b' = b) ∨
      ∃ n fg code, b.Activates sockfd getter n fg code ∧
        (b.setFg n.value fg).activated env sockfd n.value code dials = .ok b') := by
  unfold Browser.activate at hstep
  split at hstep
  · cases hstep
  · rename_i hfreed
    refine ⟨by simpa using hfreed, ?_⟩
    split at hstep
    · rename_i hlookup
      exact .inl ⟨hlookup, (Except.ok.inj hstep).symm⟩
    · rename_i n hlookup
      dsimp only at hstep
      split at hstep
      · cases hstep
      · rename_i hpossible
        split at hstep
        · cases hstep
        · rename_i fg code hactivate
          split at hstep
          · cases hstep
          · rename_i hfree
            simp only [not_not] at hpossible hfree
            have hne : b.sockd n.value ≠ 0 := (Filegetter.sockd_ne_of_activate hactivate).1
            obtain ⟨hmem, hkey, hhash, hsockd⟩ := h.of_lookup hlookup hne
            have hestablished := (h.sound n.value (h.values n hmem)).established hne
            have hends := hestablished.ends_activate hpossible hactivate
            have hsockets : (b.setFg n.value fg).Sockets := by
              refine h.setFg_of_lookup hlookup hne (fun hnonzero => ?_) hfree
              rcases hends with ⟨-, hclosed⟩ | ⟨-, hestablished⟩
              · exact absurd hclosed.sockd hnonzero
              · exact hestablished
            exact .inr ⟨n, fg, code,
              ⟨hlookup, hmem, hkey, hhash, hsockd, hsockd ▸ hne, hactivate, hends, hsockets⟩, hstep⟩

/-- The getter that has returned is connected, if it has not returned `FG_ERR_FATAL`. -/
theorem Activates.established {getter : GetterEvent} {code : GetterCode}
    (h : b.Activates sockfd getter n fg code) (hcode : code ≠ .errFatal) :
    ((b.setFg n.value fg).conn n.value).fg.Established := by
  rcases h.ends with ⟨hfatal, -⟩ | ⟨-, hestablished⟩
  · exact absurd hfatal hcode
  · simpa [setFg, setConn] using hestablished

/-- The objects are queued, and nothing else changes. -/
theorem queueObjects_eq_ok {urls : List Bytes} (h : b.queueObjects env urls = .ok b') :
    ∃ downloadTasks queued, b' = { b with downloadTasks := downloadTasks, queued := queued } := by
  induction urls generalizing b with
  | nil =>
    obtain rfl := Except.ok.inj h
    exact ⟨_, _, rfl⟩
  | cons url urls ih =>
    unfold queueObjects at h
    dsimp only at h
    split at h
    · cases h
    · rename_i hostname path hparts
      have hinit : ∃ downloadTasks, b.initHost env hostname =
          { b with downloadTasks := downloadTasks } := by
        unfold initHost
        split <;> exact ⟨_, rfl⟩
      obtain ⟨downloadTasks, hinit⟩ := hinit
      rw [hinit] at h
      split at h
      · cases h
      · split at h
        · obtain ⟨downloadTasks', queued, rfl⟩ := ih h
          exact ⟨_, _, rfl⟩
        · obtain ⟨downloadTasks', queued, rfl⟩ := ih h
          exact ⟨_, _, rfl⟩

/-- The embedded objects change the tasks and what is queued. -/
theorem getEmbeddedObjects_eq_ok (h : b.getEmbeddedObjects env c = .ok b') :
    ∃ downloadTasks queued, b' = { b with downloadTasks := downloadTasks, queued := queued } := by
  unfold getEmbeddedObjects at h
  split at h
  · cases h
  · rename_i b₁ hqueue
    obtain ⟨downloadTasks, queued, rfl⟩ := queueObjects_eq_ok hqueue
    obtain rfl := Except.ok.inj h
    exact ⟨_, _, rfl⟩

/-! ## Launching -/

/-- The browser before its first connection is allocated. -/
structure Fresh (b : Browser) (firstHostname : Bytes) (maxConcurrentDownloads : Int) : Prop where
  state : b.state = .document
  firstHostname : b.firstHostname = firstHostname
  tasks : ∀ hostname tasks, b.tasks hostname = some tasks → tasks.running = 0 ∧ tasks.pending = []
  connections : b.connections = []
  maxConcurrentDownloads : b.maxConcurrentDownloads = maxConcurrentDownloads
  docConn : b.docConn = 0
  conn : b.conn = fun _ => noConnection
  nextConn : b.nextConn = 0
  wakeups : b.wakeups = 0
  queued : b.queued = []
  replaced : b.replaced = []

/-- The sockets of a new browser are apart. -/
theorem Fresh.sockets {firstHostname : Bytes} {maxConcurrentDownloads : Int}
    (h : b.Fresh firstHostname maxConcurrentDownloads) : b.Sockets where
  distinct := by
    intro c d _ hne
    simp [sockd, h.conn, noConnection, Filegetter.start] at hne
  unused := by
    intro c _
    rw [h.conn]
  sound := by
    intro c hc
    rw [h.nextConn] at hc
    exact absurd hc (Nat.not_lt_zero c)
  values := by simp [h.connections]
  keys := by simp [h.connections]

/-- `browser_launch` inserts the connection for the document. -/
theorem launch_eq_ok {httpServer socksProxy : ServerArgs}
    {maxConcurrentDownloads documentPath : Bytes} {dial : Dial}
    (h : launch env httpServer socksProxy maxConcurrentDownloads documentPath dial = .ok b) :
    ∃ (b₀ : Browser) (conn : Connection), b₀.Fresh httpServer.host (atoi maxConcurrentDownloads) ∧
      b₀.Prepared httpServer.host none dial conn ∧ b.Sockets ∧ b = { b₀.allocated conn with
        connections := [{ hash := conn.fg.sockd, key := 0, value := 0 }] } := by
  unfold launch at h
  dsimp only at h
  split at h
  · cases h
  · rename_i b₁ hprepare
    obtain ⟨conn, hconn, rfl⟩ := prepareFilegetter_eq_ok hprepare
    obtain rfl := Except.ok.inj h
    obtain ⟨b₀, hb₀⟩ : ∃ b₀ : Browser, b₀ = initHost env
      { state := .document
        firstHostname := httpServer.host
        socksProxy := socksProxy
        downloadTasks := []
        connections := []
        maxConcurrentDownloads := atoi maxConcurrentDownloads
        docConn := 0
        conn := fun _ => noConnection
        nextConn := 0
        wakeups := 0
        freed := false
        queued := []
        outcomes := []
        replaced := [] } httpServer.host := ⟨_, rfl⟩
    rw [← hb₀] at hconn ⊢
    have hfresh : b₀.Fresh httpServer.host (atoi maxConcurrentDownloads) := by
      rw [hb₀]
      constructor
      case tasks =>
        intro hostname tasks htasks
        rcases tasks_initHost _ httpServer.host hostname htasks with hold | hnew
        · cases hold
        · exact hnew
      all_goals simp [initHost, Browser.tasks]
    have hsockets := (hfresh.sockets.allocated hconn).insert (Nat.lt_succ_self b₀.nextConn)
    have hinsert := insert_of_fresh (b := b₀.allocated conn) (c := b₀.nextConn) (by
      simp [allocated, Browser.setConn, hfresh.connections])
    rw [sockd_allocated, if_pos rfl] at hinsert
    rw [hfresh.nextConn] at hsockets hinsert
    refine ⟨b₀, conn, hfresh, hconn, hsockets, ?_⟩
    rw [hinsert]
    simp [allocated, Browser.setConn, hfresh.connections]

/-! ## A page with two objects on another host -/

theorem length_otherAddr : ([10, 0, 0, 1] : Bytes).length = 4 := rfl

/-- The libraries for the page. -/
def otherHost : Env where
  getaddr _ := ⟨[10, 0, 0, 1], length_otherAddr⟩
  htmlParse _ := [ascii "http://b/x", ascii "http://b/y"]
  urlGetParts url := some (ascii "b", url.drop 8)
  foreachOrder hosts := ⟨hosts, List.Perm.refl _⟩

/-- The clock stands still, and no proxy names an address. -/
def still : Surroundings where
  firstByte := ⟨0, 0⟩
  progress := ⟨0, 0⟩
  complete := ⟨0, 0⟩
  fwriteOk := true
  reconnect := .failed

/-- The calls of `send` and `recv` in an activation. -/
def answering (answers : List Answer) : GetterEvent where
  around := still
  calls := answers.map fun answer => { answer := answer, around := still }

/-- The browser that downloads the page, one connection to a host, with what its server or proxy
sends. -/
def launchPage (socksPort : Bytes) (incoming : Bytes) : Except PluginFault Browser :=
  launch otherHost { host := ascii "a", port := ascii "80" }
    { host := ascii "p", port := socksPort }
    (ascii "1") (ascii "/") { connection := .connected 3 incoming, now := ⟨0, 0⟩ }

/-- The response with the page. -/
def pageResponse : Bytes := ascii "HTTP/1.1 200 OK\r\nContent-Length: 1\r\n\r\nx"

end Browser

end ShadowExtras.BrowserPlugin
