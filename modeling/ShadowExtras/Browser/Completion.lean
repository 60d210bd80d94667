import ShadowExtras.Browser.Connections
import ShadowExtras.Foundation.Fallible

/-!
# When the browser reports success

`SB_SUCCESS` is to mean that every object that was queued had an outcome. The paths of a host that
wait are taken over by its connections, so that they are not forgotten as long as the host has a
connection in the table (`Covered`). A connection that fails is taken out of the table, though no
other one may be left for its host.

A connection that dies is not taken out: its entry is not found any more and the table never gets
empty (`Stuck`). So the invariant is that the table is stuck or covers all that is to be downloaded.
-/

namespace ShadowExtras.BrowserPlugin

open Foundation FileTransfer

namespace Browser

variable {env : Env} {b b' : Browser} {c d : ConnId} {conn : Connection} {fg : Filegetter}
  {n : Entry ConnId ConnId Int} {sockfd : Int} {hostname : Bytes} {hosts : List Bytes}

/-- All that was queued had an outcome, no path waits and no download is running. -/
structure Complete (b : Browser) : Prop where
  pending : ∀ hostname tasks, b.tasks hostname = some tasks → tasks.pending = []
  downloads : ∀ c, b.downloads c = none
  outcomes : ∀ object ∈ b.queued, ∃ code, (object, code) ∈ b.outcomes

/-- The entry is not found under a socket. -/
def Stale (b : Browser) (e : Entry ConnId ConnId Int) : Prop := e.hash = 0 ∨ e.hash ≠ b.sockd e.key

instance (b : Browser) (e : Entry ConnId ConnId Int) : Decidable (b.Stale e) := by
  unfold Stale
  infer_instance

/-- When the connection is taken out of the table after a failed download, another one is left for
its host, or no path waits, or an entry is left for ever. -/
def HostServed (b : Browser) : PluginEvent → Prop
  | .wakeup _ => True
  | .activate sockfd getter _ =>
    match b.lookup sockfd with
    | none => True
    | some n =>
      match (b.conn n.value).fg.activate getter with
      | .error _ => True
      | .ok (fg, code) =>
        b.state = .embeddedObjects → code ∉ [.ok200, .err404, .errWouldblock] → fg.sockd = sockfd →
          (b.tasks (b.host n.value)).all (·.pending = []) ∨
            ∃ e ∈ b.connections, e ≠ n ∧ (b.host e.value = b.host n.value ∨ b.Stale e)

instance (b : Browser) (e : PluginEvent) : Decidable (b.HostServed e) := by
  unfold HostServed
  split
  · infer_instance
  · split
    · infer_instance
    · split <;> infer_instance

/-! ## Entries that are left for ever -/

/-- An entry is in the table that is not found under a socket. -/
def Stuck (b : Browser) : Prop := ∃ e ∈ b.connections, b.Stale e

/-- A stuck browser has a connection. -/
theorem Stuck.ne_nil (h : b.Stuck) : b.connections ≠ [] := by
  obtain ⟨e, he, -⟩ := h
  exact List.ne_nil_of_mem he

/-- What is stuck depends on the connections and their sockets. -/
theorem Stuck.congr (h : b.Stuck) (hsockd : b'.sockd = b.sockd)
    (hconnections : b.connections ⊆ b'.connections) : b'.Stuck := by
  obtain ⟨e, he, hstale⟩ := h
  refine ⟨e, hconnections he, ?_⟩
  rw [Stale, hsockd]
  exact hstale

/-- Stealing an entry of the table leaves a stuck connection. -/
theorem Stuck.steal (h : b.Stuck) (hne : sockfd ≠ 0) : (b.steal sockfd).Stuck := by
  obtain ⟨e, he, hstale⟩ := h
  refine ⟨e, HashTable.mem_remove_of_not_found he fun hhash hread => ?_, hstale⟩
  rcases hstale with hzero | hother
  · exact hne (hhash.symm.trans hzero)
  · exact hother (hhash.trans hread.symm)

/-- Shutting a connection down leaves a stuck connection. -/
theorem Stuck.shutdownConnection (h : b.Stuck) (c : ConnId) : (b.shutdownConnection c).Stuck := by
  obtain ⟨e, he, hstale⟩ := h
  refine ⟨e, he, ?_⟩
  by_cases hzero : e.hash = 0
  · exact .inl hzero
  · refine .inr ?_
    rw [sockd_shutdownConnection]
    split
    · exact hzero
    · exact hstale.resolve_left hzero

/-- Removing a connection by its socket leaves a stuck connection. -/
theorem Stuck.remove (h : b.Stuck) (hne : sockfd ≠ 0) : (b.remove sockfd).Stuck := by
  unfold Browser.remove
  split
  · exact h
  · exact (h.steal hne).shutdownConnection _

/-- The sockets are the same. -/
theorem sockd_setConn_same (hsame : conn.fg.sockd = b.sockd c) :
    (b.setConn c conn).sockd = b.sockd := by
  funext d
  rw [sockd_setConn]
  split
  · rename_i hd
    rw [hd, hsame]
  · rfl

/-- A connection that keeps its socket leaves a stuck connection. -/
theorem Stuck.setConn_same (h : b.Stuck) (hsame : conn.fg.sockd = b.sockd c) :
    (b.setConn c conn).Stuck :=
  h.congr (sockd_setConn_same hsame) (List.Subset.refl _)

/-- A connection that changes its socket leaves its entry for ever. -/
theorem Activates.stuck {getter : GetterEvent} {code : GetterCode}
    (h : b.Activates sockfd getter n fg code) (hne : fg.sockd ≠ sockfd) :
    (b.setFg n.value fg).Stuck := by
  refine ⟨n, h.mem, .inr ?_⟩
  rw [sockd_setFg, if_pos h.key, h.hash]
  exact Ne.symm hne

/-- A getter that is activated leaves a stuck connection. -/
theorem Stuck.setFg (h : b.Stuck) {getter : GetterEvent} {code : GetterCode}
    (hact : b.Activates sockfd getter n fg code) : (b.setFg n.value fg).Stuck := by
  by_cases hsame : fg.sockd = sockfd
  · exact h.setConn_same (hsame.trans hact.sockd.symm)
  · exact hact.stuck hsame

/-! ## Hosts and their connections -/

/-- The host has a connection in the table. -/
def Serves (b : Browser) (hostname : Bytes) : Prop := ∃ e ∈ b.connections, b.host e.value = hostname

/-- The paths that wait are those of hosts that are to be started or have a connection in the table,
and so are the connections that download. -/
structure Covered (b : Browser) (hosts : List Bytes) : Prop where
  serves : ∀ hostname tasks, b.tasks hostname = some tasks → tasks.pending ≠ [] →
    b.Serves hostname ∨ hostname ∈ hosts ∧ tasks.running = 0
  downloads : ∀ c, b.downloads c ≠ none → ∃ e ∈ b.connections, e.value = c

/-- The table is stuck, or covers all that is to be downloaded. -/
def Covers (b : Browser) (hosts : List Bytes) : Prop := b.Stuck ∨ b.Covered hosts

/-- The object waits, is being downloaded or had an outcome. -/
def Accounted (b : Browser) (object : Object) : Prop :=
  (∃ tasks, b.tasks object.1 = some tasks ∧ object.2 ∈ tasks.pending) ∨
    (∃ c, b.downloads c = some object) ∨ ∃ code, (object, code) ∈ b.outcomes

/-- An empty table covers nothing. -/
theorem Covers.complete (h : b.Covers []) (hempty : b.connections = [])
    (haccounted : ∀ object ∈ b.queued, b.Accounted object) : b.Complete := by
  have hcovered : b.Covered [] := h.resolve_left fun hstuck => hstuck.ne_nil hempty
  have hpending : ∀ hostname tasks, b.tasks hostname = some tasks → tasks.pending = [] := by
    intro hostname tasks htasks
    by_contra hne
    rcases hcovered.serves hostname tasks htasks hne with ⟨e, he, -⟩ | ⟨hmem, -⟩
    · rw [hempty] at he
      cases he
    · cases hmem
  have hdownloads : ∀ c, b.downloads c = none := by
    intro c
    by_contra hne
    obtain ⟨e, he, -⟩ := hcovered.downloads c hne
    rw [hempty] at he
    cases he
  refine ⟨hpending, hdownloads, fun object hobject => ?_⟩
  rcases haccounted object hobject with ⟨tasks, htasks, hmem⟩ | ⟨c, hdownload⟩ | houtcome
  · rw [hpending object.1 tasks htasks] at hmem
    cases hmem
  · rw [hdownloads c] at hdownload
    cases hdownload
  · exact houtcome

/-! ## The objects of the page -/

/-- The objects that are queued wait, and no download is running. -/
structure Waiting (b : Browser) : Prop where
  running : ∀ hostname tasks, b.tasks hostname = some tasks → tasks.running = 0
  waits : ∀ object ∈ b.queued, ∃ tasks, b.tasks object.1 = some tasks ∧ object.2 ∈ tasks.pending
  queued : ∀ hostname tasks, b.tasks hostname = some tasks →
    ∀ path ∈ tasks.pending, (hostname, path) ∈ b.queued

/-- A new host is waited for. -/
theorem Waiting.initHost (h : b.Waiting) (env : Env) (hostname : Bytes) :
    (b.initHost env hostname).Waiting := by
  have hqueued : (b.initHost env hostname).queued = b.queued := by
    unfold Browser.initHost
    split <;> rfl
  constructor
  · intro hostname' tasks htasks
    rcases tasks_initHost b hostname hostname' htasks with hold | ⟨hrunning, -⟩
    · exact h.running hostname' tasks hold
    · exact hrunning
  · intro object hobject
    rw [hqueued] at hobject
    obtain ⟨tasks, htasks, hmem⟩ := h.waits object hobject
    exact ⟨tasks, tasks_initHost_of_some _ htasks, hmem⟩
  · intro hostname' tasks htasks path hpath
    rw [hqueued]
    rcases tasks_initHost b hostname hostname' htasks with hold | ⟨-, hpending⟩
    · exact h.queued hostname' tasks hold path hpath
    · rw [hpending] at hpath
      cases hpath

/-- One more object is queued. -/
theorem Waiting.push {tasks : Tasks} (h : b.Waiting) (htasks : b.tasks hostname = some tasks)
    (path : Bytes) (added : List Bytes) :
    Waiting { b.setTasks hostname
      { tasks with pending := tasks.pending ++ [path], added := added } with
        queued := b.queued ++ [(hostname, path)] } := by
  obtain ⟨b₁, hb₁⟩ : ∃ b₁, b₁ = b.setTasks hostname
    { tasks with pending := tasks.pending ++ [path], added := added } := ⟨_, rfl⟩
  have hself : b₁.tasks hostname =
      some { tasks with pending := tasks.pending ++ [path], added := added } := by
    rw [hb₁]
    exact tasks_setTasks_self htasks _
  have hother : ∀ hostname', hostname' ≠ hostname → b₁.tasks hostname' = b.tasks hostname' := by
    intro hostname' hne
    rw [hb₁]
    exact tasks_setTasks_of_ne hne _
  rw [← hb₁]
  constructor
  · intro hostname' tasks' htasks'
    change b₁.tasks hostname' = some tasks' at htasks'
    by_cases heq : hostname' = hostname
    · rw [heq, hself] at htasks'
      obtain rfl := Option.some.inj htasks'
      exact h.running hostname tasks htasks
    · rw [hother hostname' heq] at htasks'
      exact h.running hostname' tasks' htasks'
  · intro object hobject
    change ∃ tasks', b₁.tasks object.1 = some tasks' ∧ object.2 ∈ tasks'.pending
    rcases List.mem_append.mp hobject with hobject | hobject
    · obtain ⟨tasks', htasks', hmem⟩ := h.waits object hobject
      by_cases heq : object.1 = hostname
      · rw [heq, htasks] at htasks'
        obtain rfl := Option.some.inj htasks'
        rw [heq]
        exact ⟨_, hself, List.mem_append_left _ hmem⟩
      · rw [hother object.1 heq]
        exact ⟨tasks', htasks', hmem⟩
    · obtain rfl := List.mem_singleton.mp hobject
      exact ⟨_, hself, List.mem_append_right _ (List.mem_singleton.mpr rfl)⟩
  · intro hostname' tasks' htasks' path' hpath'
    change b₁.tasks hostname' = some tasks' at htasks'
    by_cases heq : hostname' = hostname
    · rw [heq, hself] at htasks'
      obtain rfl := Option.some.inj htasks'
      rcases List.mem_append.mp hpath' with hpath' | hpath'
      · rw [heq]
        exact List.mem_append_left _ (h.queued hostname tasks htasks path' hpath')
      · rw [List.mem_singleton.mp hpath', heq]
        exact List.mem_append_right _ (List.mem_singleton.mpr rfl)
    · rw [hother hostname' heq] at htasks'
      exact List.mem_append_left _ (h.queued hostname' tasks' htasks' path' hpath')

/-- Queued objects are waited for. -/
theorem Waiting.queueObjects {urls : List Bytes} (h : b.Waiting)
    (hstep : b.queueObjects env urls = .ok b') : b'.Waiting := by
  induction urls generalizing b with
  | nil =>
    obtain rfl := Except.ok.inj hstep
    exact h
  | cons url urls ih =>
    unfold Browser.queueObjects at hstep
    dsimp only at hstep
    split at hstep
    · cases hstep
    · rename_i hostname path hparts
      have hinit := h.initHost env hostname
      split at hstep
      · cases hstep
      · rename_i tasks htasks
        split at hstep
        · have hpush := hinit.push htasks path (path :: tasks.added)
          exact ih hpush hstep
        · exact ih hinit hstep

/-- The embedded objects of the document are waited for. -/
theorem Waiting.getEmbeddedObjects (h : b.Waiting) (hstep : b.getEmbeddedObjects env c = .ok b') :
    b'.Waiting := by
  unfold Browser.getEmbeddedObjects at hstep
  split at hstep
  · cases hstep
  · rename_i b₁ hqueue
    have h₁ := h.queueObjects hqueue
    obtain ⟨b₂, hb₂⟩ : ∃ b₂ : Browser, b₂ = { b₁ with
      downloadTasks := b₁.downloadTasks.map fun p => (p.1, { p.2 with added := [] }) } := ⟨_, rfl⟩
    have htasks : ∀ hostname,
        b₂.tasks hostname = (b₁.tasks hostname).map fun tasks => { tasks with added := [] } := by
      intro hostname
      rw [hb₂]
      exact lookup_map_values b₁.downloadTasks hostname fun tasks => { tasks with added := [] }
    have hqueued : b₂.queued = b₁.queued := by rw [hb₂]
    obtain rfl := Except.ok.inj hstep
    rw [← hb₂]
    constructor
    · intro hostname tasks hsome
      rw [htasks] at hsome
      obtain ⟨tasks', htasks', rfl⟩ := Option.map_eq_some_iff.mp hsome
      exact h₁.running hostname tasks' htasks'
    · intro object hobject
      rw [hqueued] at hobject
      obtain ⟨tasks, hsome, hmem⟩ := h₁.waits object hobject
      refine ⟨{ tasks with added := [] }, ?_, hmem⟩
      rw [htasks, hsome, Option.map_some]
    · intro hostname tasks hsome path hpath
      rw [htasks] at hsome
      obtain ⟨tasks', htasks', rfl⟩ := Option.map_eq_some_iff.mp hsome
      rw [hqueued]
      exact h₁.queued hostname tasks' htasks' path hpath

/-! ## Starting downloads -/

/-- What no step changes but `browser_wakeup`. -/
structure SamePage (b b' : Browser) : Prop where
  docConn : b'.docConn = b.docConn
  firstHostname : b'.firstHostname = b.firstHostname
  maxConcurrentDownloads : b'.maxConcurrentDownloads = b.maxConcurrentDownloads
  wakeups : b'.wakeups = b.wakeups
  nextConn : b.nextConn ≤ b'.nextConn
  host : ∀ c < b.nextConn, b'.host c = b.host c

/-- What the operations that change connections leave as it was. -/
structure Frame (b b' : Browser) : Prop extends b.SamePage b' where
  queued : b'.queued = b.queued
  state : b'.state = b.state

/-- The same page, one step after the other. -/
theorem SamePage.trans {b'' : Browser} (h : b.SamePage b') (h' : b'.SamePage b'') :
    b.SamePage b'' where
  docConn := h'.docConn.trans h.docConn
  firstHostname := h'.firstHostname.trans h.firstHostname
  maxConcurrentDownloads := h'.maxConcurrentDownloads.trans h.maxConcurrentDownloads
  wakeups := h'.wakeups.trans h.wakeups
  nextConn := h.nextConn.trans h'.nextConn
  host := fun c hc => (h'.host c (hc.trans_le h.nextConn)).trans (h.host c hc)

/-- Nothing changes. -/
theorem Frame.refl (b : Browser) : b.Frame b where
  docConn := by rfl
  firstHostname := by rfl
  maxConcurrentDownloads := by rfl
  wakeups := by rfl
  nextConn := le_rfl
  host := fun _ _ => by rfl
  queued := by rfl
  state := by rfl

/-- Two changes are one. -/
theorem Frame.trans {b'' : Browser} (h : b.Frame b') (h' : b'.Frame b'') : b.Frame b'' where
  toSamePage := h.toSamePage.trans h'.toSamePage
  queued := h'.queued.trans h.queued
  state := h'.state.trans h.state

/-- An entry of the table is not about the hosts. -/
theorem host_insert (b : Browser) (c d : ConnId) : (b.insert c).host d = b.host d := by
  unfold Browser.insert
  dsimp only
  split
  · rfl
  · exact host_setFg _ _ _ _

/-- An entry of the table is not about the downloads. -/
theorem downloads_insert (b : Browser) (c d : ConnId) :
    (b.insert c).downloads d = b.downloads d := by
  unfold Browser.insert
  dsimp only
  split
  · rfl
  · exact downloads_setFg _ _ _ _

/-- An entry of the table is not about the tasks. -/
theorem tasks_insert (b : Browser) (c : ConnId) (hostname : Bytes) :
    (b.insert c).tasks hostname = b.tasks hostname := by
  obtain ⟨connections, conns, replaced, hinsert⟩ := insert_eq b c
  rw [hinsert]
  rfl

/-- The table after a new connection was inserted: the connection has a new entry, or the entry is
stuck. -/
theorem Sockets.insert_allocated {object : Option Object} {dial : Dial} (h : b.Sockets)
    (hconn : b.Prepared hostname object dial conn) :
    ((b.allocated conn).insert b.nextConn).Stuck ∨
      (b.allocated conn).insert b.nextConn = { b.allocated conn with
        connections := b.connections ++
          [{ hash := conn.fg.sockd, key := b.nextConn, value := b.nextConn }] } := by
  have hsockd : (b.allocated conn).sockd b.nextConn = conn.fg.sockd := by
    rw [sockd_allocated, if_pos rfl]
  by_cases hzero : conn.fg.sockd = 0
  · refine .inl ?_
    obtain ⟨e, he, hhash, -, -⟩ := HashTable.exists_mem_insert (b.allocated conn).sockd
      (b.allocated conn).connections b.nextConn b.nextConn
    refine ⟨e, ?_, .inl (hhash.trans (hsockd.trans hzero))⟩
    unfold Browser.insert
    dsimp only
    split
    · exact he
    · exact he
  · refine .inr ?_
    rw [insert_of_fresh, hsockd]
    · rfl
    · intro e he hhash hread
      rw [hsockd] at hhash hread
      rcases h.keys e he with hkey | ⟨hnone, -⟩
      · have hlt := h.values e he
        rw [sockd_allocated, hkey, if_neg (ne_of_lt hlt)] at hread
        exact (hconn.free.resolve_left hzero).2 e.value hlt (ne_of_lt hlt) hread
      · exact hzero (hhash.symm.trans hnone)

/-- A connection that is allocated leaves a stuck connection. -/
theorem Stuck.allocated (h : b.Stuck) (hsockets : b.Sockets) (conn : Connection) :
    (b.allocated conn).Stuck := by
  obtain ⟨e, he, hstale⟩ := h
  refine ⟨e, he, ?_⟩
  by_cases hzero : e.hash = 0
  · exact .inl hzero
  · have hkey : e.key = e.value :=
      (hsockets.keys e he).resolve_right fun hnone => hzero hnone.1
    refine .inr ?_
    rw [sockd_allocated, hkey, if_neg (ne_of_lt (hsockets.values e he)), ← hkey]
    exact hstale.resolve_left hzero

/-- The started connection has its download, the others keep theirs. -/
theorem downloads_started (b : Browser) (hostname : Bytes) (tasks : Tasks) (conn : Connection)
    (c : ConnId) : (b.started hostname tasks conn).downloads c =
      if c = b.nextConn then conn.download else b.downloads c :=
  (downloads_insert (b.allocated conn) b.nextConn c).trans (downloads_setConn b b.nextConn c conn)

/-- The started connection has its host, the others keep theirs. -/
theorem host_started (b : Browser) (hostname : Bytes) (tasks : Tasks) (conn : Connection)
    (c : ConnId) :
    (b.started hostname tasks conn).host c =
      if c = b.nextConn then conn.sspec.httpHostname else b.host c :=
  (host_insert (b.allocated conn) b.nextConn c).trans (host_setConn b b.nextConn c conn)

/-- The tasks of other hosts stay. -/
theorem tasks_started_of_ne (b : Browser) {hostname hostname' : Bytes} (h : hostname' ≠ hostname)
    {tasks : Tasks} {conn : Connection} :
    (b.started hostname tasks conn).tasks hostname' = b.tasks hostname' := by
  unfold started
  rw [tasks_setTasks_of_ne h, tasks_insert]
  rfl

/-- The tasks of the host are the new ones. -/
theorem tasks_started_self {tasks : Tasks} (h : b.tasks hostname = some tasks) (tasks' : Tasks)
    (conn : Connection) : (b.started hostname tasks' conn).tasks hostname = some tasks' := by
  apply tasks_setTasks_self
  rw [tasks_insert]
  exact h

/-- A path of a host was started: the host has a connection in the table. -/
theorem Covers.started {path : Bytes} {dial : Dial} (h : b.Covers (hostname :: hosts))
    (hsockets : b.Sockets) (hconn : b.Prepared hostname (some (hostname, path)) dial conn)
    (tasks : Tasks) : (b.started hostname tasks conn).Covers (hostname :: hosts) := by
  rcases hsockets.insert_allocated hconn with hstuck | hinsert
  · have hstuck' : (b.started hostname tasks conn).Stuck := by
      apply hstuck.congr
      · rfl
      · exact List.Subset.refl _
    exact .inl hstuck'
  · have hsockd : (b.started hostname tasks conn).sockd = (b.allocated conn).sockd := by
      unfold Browser.started
      rw [hinsert]
      rfl
    have hconnections : (b.started hostname tasks conn).connections = b.connections ++
        [{ hash := conn.fg.sockd, key := b.nextConn, value := b.nextConn }] := by
      unfold Browser.started
      rw [hinsert]
      rfl
    have hhost := host_started b hostname tasks conn
    have hdownloads := downloads_started b hostname tasks conn
    have hnew : (b.started hostname tasks conn).Serves hostname := by
      refine ⟨{ hash := conn.fg.sockd, key := b.nextConn, value := b.nextConn }, ?_, ?_⟩
      · simp [hconnections]
      · rw [hhost, if_pos rfl, hconn.host]
    rcases h with hstuck | hcovered
    · obtain ⟨e, he, hstale⟩ := hstuck.allocated hsockets conn
      refine .inl ⟨e, ?_, ?_⟩
      · rw [hconnections]
        exact List.mem_append_left _ he
      · rw [Stale, hsockd]
        exact hstale
    · refine .inr ⟨?_, ?_⟩
      · intro hostname' tasks₁ htasks₁ hne
        by_cases heq : hostname' = hostname
        · rw [heq]
          exact .inl hnew
        · rw [tasks_started_of_ne b heq] at htasks₁
          refine (hcovered.serves hostname' tasks₁ htasks₁ hne).imp_left ?_
          rintro ⟨e, he, hserves⟩
          refine ⟨e, by simp [hconnections, he], ?_⟩
          rw [hhost, if_neg (ne_of_lt (hsockets.values e he))]
          exact hserves
      · intro c hc
        rw [hdownloads] at hc
        split at hc
        · rename_i hnext
          refine ⟨{ hash := conn.fg.sockd, key := b.nextConn, value := b.nextConn }, ?_, hnext.symm⟩
          simp [hconnections]
        · obtain ⟨e, he, hvalue⟩ := hcovered.downloads c hc
          exact ⟨e, by simp [hconnections, he], hvalue⟩

/-- The path that was started is downloaded now. -/
theorem Accounted.started {object : Object} {path : Bytes} {tasks tasks' : Tasks} {dial : Dial}
    (h : b.Accounted object) (hsockets : b.Sockets) (htasks : b.tasks hostname = some tasks)
    (hpending : tasks.pending = path :: tasks'.pending)
    (hconn : b.Prepared hostname (some (hostname, path)) dial conn) :
    (b.started hostname tasks' conn).Accounted object := by
  have hdownloads := downloads_started b hostname tasks' conn
  rcases h with ⟨tasks₁, htasks₁, hmem⟩ | ⟨c, hdownload⟩ | ⟨code, houtcome⟩
  · by_cases heq : object.1 = hostname
    · rw [heq, htasks] at htasks₁
      obtain rfl := Option.some.inj htasks₁
      rw [hpending] at hmem
      rcases List.mem_cons.mp hmem with hpath | hmem
      · refine .inr (.inl ⟨b.nextConn, ?_⟩)
        rw [hdownloads, if_pos rfl, hconn.download, ← heq, ← hpath]
      · refine .inl ⟨tasks', ?_, hmem⟩
        rw [heq]
        exact tasks_started_self htasks tasks' conn
    · refine .inl ⟨tasks₁, ?_, hmem⟩
      rw [tasks_started_of_ne b heq]
      exact htasks₁
  · refine .inr (.inl ⟨c, ?_⟩)
    rw [hdownloads, if_neg]
    · exact hdownload
    · rintro rfl
      simp [Browser.downloads, hsockets.unused b.nextConn le_rfl, noConnection] at hdownload
  · refine .inr (.inr ⟨code, ?_⟩)
    obtain ⟨downloadTasks, connections, conns, replaced, hstarted⟩ :=
      started_eq b hostname tasks' conn
    rw [hstarted]
    exact houtcome

/-- What starting the downloads of the hosts keeps. -/
structure Starting (b : Browser) (hosts : List Bytes) : Prop where
  sockets : b.Sockets
  concurrent : 1 ≤ b.maxConcurrentDownloads
  covers : b.Covers hosts
  accounted : ∀ object ∈ b.queued, b.Accounted object

/-- A host that is served need not be started. -/
theorem Covers.of_cons (h : b.Covers (hostname :: hosts))
    (hserved : ∀ tasks, b.tasks hostname = some tasks → tasks.pending ≠ [] →
      b.Stuck ∨ b.Serves hostname) :
    b.Covers hosts := by
  by_cases hstuck : b.Stuck
  · exact .inl hstuck
  · have hcovered := h.resolve_left hstuck
    refine .inr ⟨fun hostname' tasks htasks hne => ?_, hcovered.downloads⟩
    rcases hcovered.serves hostname' tasks htasks hne with hserves | ⟨hmem, hrunning⟩
    · exact .inl hserves
    · rcases List.mem_cons.mp hmem with rfl | hmem
      · exact .inl ((hserved tasks htasks hne).resolve_left hstuck)
      · exact .inr ⟨hmem, hrunning⟩

/-- A started connection changes nothing but its host. -/
theorem frame_started (b : Browser) (hostname : Bytes) (tasks : Tasks) (conn : Connection) :
    b.Frame (b.started hostname tasks conn) := by
  have hhost : ∀ c < b.nextConn, (b.started hostname tasks conn).host c = b.host c := by
    intro c hc
    rw [host_started, if_neg (ne_of_lt hc)]
  obtain ⟨downloadTasks, connections, conns, replaced, hstarted⟩ := started_eq b hostname tasks conn
  rw [hstarted] at hhost ⊢
  exact ⟨⟨rfl, rfl, rfl, rfl, Nat.le_succ _, hhost⟩, rfl, rfl⟩

/-- The sockets of the connections stay apart when one is started. -/
theorem Sockets.started {object : Option Object} {dial : Dial} (h : b.Sockets)
    (hconn : b.Prepared hostname object dial conn) (tasks : Tasks) :
    (b.started hostname tasks conn).Sockets := by
  have hinserted := (h.allocated hconn).insert (Nat.lt_succ_self b.nextConn)
  refine hinserted.congr ?_ ?_ (List.Subset.refl _)
  · rfl
  · rfl

/-- The first downloads of a host are started. -/
theorem Starting.startTasks {pending : List Bytes} {tasks : Tasks} {dials dials' : List Dial}
    (h : b.Starting (hostname :: hosts)) (htasks : b.tasks hostname = some tasks)
    (hpending : tasks.pending = pending)
    (hstep : b.startTasks env hostname pending dials = .ok (b', dials')) :
    b'.Starting hosts ∧ b.Frame b' := by
  induction pending generalizing b tasks dials with
  | nil =>
    obtain ⟨rfl, rfl⟩ := Prod.mk.inj (Except.ok.inj hstep)
    refine ⟨⟨h.sockets, h.concurrent, ?_, h.accounted⟩, Frame.refl b⟩
    refine h.covers.of_cons fun tasks' htasks' hne => ?_
    rw [htasks] at htasks'
    obtain rfl := Option.some.inj htasks'
    exact absurd hpending hne
  | cons path pending ih =>
    rcases startTasks_cons_eq_ok htasks hstep with
      ⟨hfull, heq⟩ | ⟨dial, rest, conn, rfl, hconn, hrest⟩
    · obtain ⟨rfl, rfl⟩ := Prod.mk.inj heq
      refine ⟨⟨h.sockets, h.concurrent, ?_, h.accounted⟩, Frame.refl _⟩
      refine h.covers.of_cons fun tasks' htasks' hne => ?_
      rw [htasks] at htasks'
      obtain rfl := Option.some.inj htasks'
      -- as many downloads are running as are allowed, so at least one
      have hrunning : tasks.running ≠ 0 := by
        intro hzero
        have := h.concurrent
        rw [hzero] at hfull
        omega
      rcases h.covers with hstuck | hcovered
      · exact .inl hstuck
      · refine .inr ((hcovered.serves hostname tasks htasks hne).resolve_right ?_)
        exact fun hwaits => hrunning hwaits.2
    · obtain ⟨tasks', htasks'⟩ : ∃ tasks' : Tasks,
          tasks' = { tasks with running := tasks.running + 1, pending := pending } := ⟨_, rfl⟩
      rw [← htasks'] at hrest
      have hpending' : tasks.pending = path :: tasks'.pending := by
        rw [hpending, htasks']
      have hframe := frame_started b hostname tasks' conn
      have hstarted : (b.started hostname tasks' conn).Starting (hostname :: hosts) := by
        refine ⟨h.sockets.started hconn tasks', ?_, h.covers.started h.sockets hconn tasks', ?_⟩
        · rw [hframe.maxConcurrentDownloads]
          exact h.concurrent
        · intro object hobject
          rw [hframe.queued] at hobject
          exact (h.accounted object hobject).started h.sockets htasks hpending' hconn
      obtain ⟨hstarting, hframe'⟩ := ih hstarted (tasks_started_self htasks tasks' conn)
        (by rw [htasks']) hrest
      exact ⟨hstarting, hframe.trans hframe'⟩

/-- The first downloads of all hosts are started. -/
theorem Starting.startAllTasks {dials : List Dial} (h : b.Starting hosts)
    (hstep : b.startAllTasks env hosts dials = .ok b') : b'.Starting [] ∧ b.Frame b' := by
  induction hosts generalizing b dials with
  | nil =>
    obtain rfl := Except.ok.inj hstep
    exact ⟨h, Frame.refl b⟩
  | cons hostname hosts ih =>
    unfold Browser.startAllTasks at hstep
    split at hstep
    · cases hstep
    · rename_i tasks htasks
      split at hstep
      · cases hstep
      · rename_i b₁ dials₁ hstart
        obtain ⟨h₁, hframe⟩ := h.startTasks htasks rfl hstart
        obtain ⟨h', hframe'⟩ := ih h₁ hstep
        exact ⟨h', hframe.trans hframe'⟩

/-! ## The end of a download -/

/-- The outcome of a download is recorded. -/
theorem Starting.outcome (h : b.Starting []) (hc : c < b.nextConn) (code : GetterCode) :
    (b.outcome c code).Starting [] ∧ (b.outcome c code).downloads c = none := by
  have hsound := h.sockets.sound c hc
  have hsockets : (b.setConn c { b.conn c with download := none }).Sockets := by
    apply h.sockets.setConn_same hc
    · exact ⟨hsound.persistent, hsound.doSave, hsound.established⟩
    · rfl
  have hdownloads : ∀ d, (b.outcome c code).downloads d = if d = c then none else b.downloads d :=
    fun d => downloads_setConn b c d _
  refine ⟨⟨?_, h.concurrent, ?_, fun object hobject => ?_⟩, ?_⟩
  · refine hsockets.congr ?_ ?_ (List.Subset.refl _)
    · rfl
    · rfl
  · rcases h.covers with hstuck | hcovered
    · refine .inl (hstuck.congr ?_ (List.Subset.refl _))
      exact sockd_setConn_same rfl
    · refine .inr ⟨fun hostname tasks htasks hne => ?_, fun d hd => ?_⟩
      · refine (hcovered.serves hostname tasks htasks hne).imp_left ?_
        rintro ⟨e, he, hserves⟩
        refine ⟨e, he, ?_⟩
        rw [← hserves]
        refine (host_setConn b c e.value _).trans ?_
        split
        · rename_i heq
          rw [heq]
          rfl
        · rfl
      · rw [hdownloads] at hd
        split at hd
        · exact absurd rfl hd
        · exact hcovered.downloads d hd
  · rcases h.accounted object hobject with hwaits | ⟨d, hdownload⟩ | ⟨code', houtcome⟩
    · exact .inl hwaits
    · by_cases hd : d = c
      · refine .inr (.inr ⟨code, ?_⟩)
        rw [hd, Browser.downloads] at hdownload
        exact List.mem_append_right _ (by simp [hdownload])
      · refine .inr (.inl ⟨d, ?_⟩)
        rw [hdownloads, if_neg hd]
        exact hdownload
    · exact .inr (.inr ⟨code', List.mem_append_left _ houtcome⟩)
  · rw [hdownloads, if_pos rfl]

/-- The next path of the host is downloaded, or none waits. -/
theorem Starting.reuseConnection {reused : Bool} {e : Entry ConnId ConnId Int}
    (h : b.Starting hosts)
    (he : e ∈ b.connections) (hvalue : e.value = c) (hnone : b.downloads c = none)
    (hestablished : (b.conn c).fg.Established) (hstep : b.reuseConnection c = .ok (b', reused)) :
    b'.Starting hosts ∧ b.Frame b' ∧ b'.connections = b.connections ∧ (reused = false → b' = b ∧
      ∀ tasks, b.tasks (b.host c) = some tasks → tasks.pending = []) := by
  have hc : c < b.nextConn := hvalue ▸ h.sockets.values e he
  obtain ⟨tasks, htasks, hreuse⟩ := h.sockets.reuseConnection_eq_ok hc hestablished hstep
  rcases hreuse with ⟨rfl, hpending, rfl⟩ |
    ⟨path, pending, conn, rfl, hpending, rfl, hsound, hsockd, hhost, hdownload⟩
  · refine ⟨h, Frame.refl _, rfl, fun _ => ⟨rfl, fun tasks' htasks' => ?_⟩⟩
    rw [htasks] at htasks'
    obtain rfl := Option.some.inj htasks'
    exact hpending
  · obtain ⟨b₁, hb₁⟩ : ∃ b₁, b₁ = b.setTasks (b.host c) { tasks with pending := pending } :=
      ⟨_, rfl⟩
    have hsockets₁ : b₁.Sockets := by
      rw [hb₁]
      refine h.sockets.congr ?_ ?_ (List.Subset.refl _)
      · rfl
      · rfl
    have hself : b₁.tasks (b.host c) = some { tasks with pending := pending } := by
      rw [hb₁]
      exact tasks_setTasks_self htasks _
    have hother : ∀ hostname, hostname ≠ b.host c → b₁.tasks hostname = b.tasks hostname := by
      intro hostname hne
      rw [hb₁]
      exact tasks_setTasks_of_ne hne _
    have hsockd₁ : conn.fg.sockd = b₁.sockd c := by
      rw [hsockd, hb₁]
      rfl
    have hconnections : (b₁.setConn c conn).connections = b.connections := by
      rw [hb₁]
      rfl
    have hhost₁ : ∀ d, (b₁.setConn c conn).host d = b.host d := by
      intro d
      rw [host_setConn, hb₁]
      split
      · rename_i hd
        rw [hhost, hd]
      · rfl
    have hdownloads₁ : ∀ d, (b₁.setConn c conn).downloads d =
        if d = c then some (b.host c, path) else b.downloads d := by
      intro d
      rw [downloads_setConn, hdownload, hb₁]
      rfl
    rw [← hb₁]
    refine ⟨⟨hsockets₁.setConn_same ?_ hsound hsockd₁, ?_, ?_, ?_⟩, ?_, hconnections, by simp⟩
    · rw [hb₁]
      exact hc
    · rw [hb₁]
      exact h.concurrent
    · rcases h.covers with hstuck | hcovered
      · refine .inl ((hstuck.congr ?_ ?_).setConn_same hsockd₁)
        · rw [hb₁]
          rfl
        · rw [hb₁]
          exact List.Subset.refl _
      · refine .inr ⟨fun hostname tasks' htasks' hne => ?_, fun d hd => ?_⟩
        · change b₁.tasks hostname = some tasks' at htasks'
          by_cases heq : hostname = b.host c
          · refine .inl ⟨e, hconnections ▸ he, ?_⟩
            rw [hhost₁, hvalue, heq]
          · rw [hother hostname heq] at htasks'
            refine (hcovered.serves hostname tasks' htasks' hne).imp_left ?_
            rintro ⟨e', he', hserves⟩
            refine ⟨e', hconnections ▸ he', ?_⟩
            rw [hhost₁]
            exact hserves
        · rw [hconnections]
          rw [hdownloads₁] at hd
          split at hd
          · rename_i heq
            exact ⟨e, he, hvalue.trans heq.symm⟩
          · exact hcovered.downloads d hd
    · intro object hobject
      rw [hb₁] at hobject
      rcases h.accounted object hobject with ⟨tasks', htasks', hmem⟩ | ⟨d, hd⟩ | houtcome
      · by_cases heq : object.1 = b.host c
        · rw [heq, htasks] at htasks'
          obtain rfl := Option.some.inj htasks'
          rw [hpending] at hmem
          rcases List.mem_cons.mp hmem with hpath | hmem
          · refine .inr (.inl ⟨c, ?_⟩)
            rw [hdownloads₁, if_pos rfl, ← hpath, ← heq]
          · refine .inl ⟨{ tasks with pending := pending }, ?_, hmem⟩
            rw [heq]
            exact hself
        · refine .inl ⟨tasks', ?_, hmem⟩
          exact (hother object.1 heq).trans htasks'
      · refine .inr (.inl ⟨d, ?_⟩)
        rw [hdownloads₁, if_neg]
        · exact hd
        · rintro rfl
          rw [hnone] at hd
          cases hd
      · refine .inr (.inr ?_)
        rw [hb₁]
        exact houtcome
    · rw [hb₁] at hhost₁ ⊢
      exact ⟨⟨rfl, rfl, rfl, rfl, le_rfl, fun d _ => hhost₁ d⟩, rfl, rfl⟩

/-- The host of a connection that leaves the table does not wait for it: no path waits, or the host
has another connection in the table. -/
def Replaceable (b : Browser) (c : ConnId) : Prop :=
  (∀ tasks, b.tasks (b.host c) = some tasks → tasks.pending = []) ∨
    ∃ e ∈ b.connections, e.value ≠ c ∧ b.host e.value = b.host c

/-- A connection whose download has ended leaves the table. -/
theorem Starting.steal_shutdown (h : b.Starting []) (hc : c < b.nextConn) (hne : sockfd ≠ 0)
    (hnone : b.downloads c = none) (hsockd : b.Stuck ∨ b.sockd c = sockfd)
    (hreplaceable : b.Stuck ∨ b.Replaceable c) :
    ((b.steal sockfd).shutdownConnection c).Starting [] := by
  have hdownloads : ∀ d, ((b.steal sockfd).shutdownConnection c).downloads d = b.downloads d :=
    fun d => downloads_setFg (b.steal sockfd) c d _
  refine ⟨(h.sockets.steal sockfd).shutdownConnection hc, h.concurrent, ?_,
    fun object hobject => ?_⟩
  · by_cases hstuck : b.Stuck
    · exact .inl ((hstuck.steal hne).shutdownConnection c)
    · have hcovered := h.covers.resolve_left hstuck
      have hsockd := hsockd.resolve_left hstuck
      have hreplaceable := hreplaceable.resolve_left hstuck
      have hstays : ∀ e ∈ b.connections, e.value ≠ c →
          e ∈ ((b.steal sockfd).shutdownConnection c).connections := by
        intro e he hvalue
        refine HashTable.mem_remove_of_not_found he fun hhash hread => ?_
        have hkey : e.key = c := h.sockets.distinct e.key c (hread.trans hsockd.symm) (hread ▸ hne)
        rcases h.sockets.keys e he with heq | ⟨hzero, -⟩
        · exact hvalue (heq.symm.trans hkey)
        · exact hne (hhash.symm.trans hzero)
      have hserved : ∀ e ∈ b.connections, e.value ≠ c →
          ((b.steal sockfd).shutdownConnection c).Serves (b.host e.value) := by
        intro e he hvalue
        exact ⟨e, hstays e he hvalue, host_setFg _ _ _ _⟩
      refine .inr ⟨fun hostname tasks htasks hwaits => .inl ?_, fun d hd => ?_⟩
      · change b.tasks hostname = some tasks at htasks
        rcases hcovered.serves hostname tasks htasks hwaits with ⟨e, he, hhost⟩ | ⟨hmem, -⟩
        · by_cases hvalue : e.value = c
          · rw [hvalue] at hhost
            rcases hreplaceable with hpending | ⟨e', he', hvalue', hhost'⟩
            · rw [← hhost] at htasks
              exact absurd (hpending tasks htasks) hwaits
            · rw [← hhost, ← hhost']
              exact hserved e' he' hvalue'
          · rw [← hhost]
            exact hserved e he hvalue
        · cases hmem
      · rw [hdownloads] at hd
        obtain ⟨e, he, hvalue⟩ := hcovered.downloads d hd
        refine ⟨e, hstays e he ?_, hvalue⟩
        rintro rfl
        exact hd (hvalue ▸ hnone)
  · rcases h.accounted object hobject with hwaits | ⟨d, hd⟩ | houtcome
    · exact .inl hwaits
    · exact .inr (.inl ⟨d, (hdownloads d).trans hd⟩)
    · exact .inr (.inr houtcome)

/-- A connection for whose host no path waits is taken out of the table. -/
theorem Starting.remove (h : b.Starting []) (hne : sockfd ≠ 0) (hnone : b.downloads c = none)
    (hsockd : b.Stuck ∨ b.sockd c = sockfd)
    (hpending : ∀ tasks, b.tasks (b.host c) = some tasks → tasks.pending = []) :
    (b.remove sockfd).Starting [] := by
  unfold Browser.remove
  split
  · exact h
  · rename_i entry hlookup
    obtain ⟨hmem, hhash, hread⟩ := HashTable.mem_of_lookup hlookup
    have hlt := h.sockets.values entry hmem
    by_cases hstuck : b.Stuck
    · refine ⟨(h.sockets.steal sockfd).shutdownConnection hlt, h.concurrent,
        .inl ((hstuck.steal hne).shutdownConnection _), fun object hobject => ?_⟩
      rcases h.accounted object hobject with hwaits | ⟨d, hd⟩ | houtcome
      · exact .inl hwaits
      · exact .inr (.inl ⟨d, (downloads_setFg _ _ _ _).trans hd⟩)
      · exact .inr (.inr houtcome)
    · have hsockd := hsockd.resolve_left hstuck
      have hvalue : entry.value = c := by
        have hkey : entry.key = c :=
          h.sockets.distinct entry.key c (hread.trans hsockd.symm) (hread ▸ hne)
        rcases h.sockets.keys entry hmem with heq | ⟨hzero, -⟩
        · exact heq.symm.trans hkey
        · exact absurd (hhash.symm.trans hzero) hne
      rw [hvalue] at hlt ⊢
      exact h.steal_shutdown hlt hne hnone (.inr hsockd) (.inr (.inl hpending))

/-- Removing a connection changes nothing but the connections. -/
theorem frame_remove (b : Browser) (sockfd : Int) : b.Frame (b.remove sockfd) := by
  unfold Browser.remove
  split
  · exact Frame.refl b
  · exact ⟨⟨rfl, rfl, rfl, rfl, le_rfl, fun d _ => host_setFg _ _ _ _⟩, rfl, rfl⟩

/-! ## Embedded objects -/

/-- What the condition on a step says of the getter's result. -/
theorem Activates.hostServed {getter : GetterEvent} {dials : List Dial} {code : GetterCode}
    (hsockets : b.Sockets) (hact : b.Activates sockfd getter n fg code)
    (hserved : b.HostServed (.activate sockfd getter dials)) (hstate : b.state = .embeddedObjects)
    (hcode : code ∉ [.ok200, .err404, .errWouldblock]) :
    (b.setFg n.value fg).Stuck ∨ (b.setFg n.value fg).Replaceable n.value := by
  by_cases hsame : fg.sockd = sockfd
  · have hsockds : (b.setFg n.value fg).sockd = b.sockd :=
      sockd_setConn_same (hsame.trans hact.sockd.symm)
    unfold HostServed at hserved
    dsimp only at hserved
    rw [hact.lookup] at hserved
    dsimp only at hserved
    rw [hact.activate] at hserved
    rcases hserved hstate hcode hsame with hpending | ⟨e, he, hne, hother⟩
    · refine .inr (.inl fun tasks htasks => ?_)
      rw [host_setFg] at htasks
      change b.tasks (b.host n.value) = some tasks at htasks
      rw [htasks] at hpending
      simpa using hpending
    · by_cases hstale : b.Stale e
      · refine .inl ⟨e, he, ?_⟩
        rw [Stale, hsockds]
        exact hstale
      · refine .inr (.inr ⟨e, he, fun hvalue => hne ?_, ?_⟩)
        · -- an entry of the same connection that is not stale is the same entry
          obtain ⟨hhash, hread⟩ : e.hash ≠ 0 ∧ e.hash = b.sockd e.key := by
            simpa [Stale, not_or] using hstale
          have hkey : e.key = e.value :=
            (hsockets.keys e he).resolve_right fun hnone => hhash hnone.1
          have hsame' : e.hash = n.hash := by
            rw [hread, hkey, hvalue, hact.sockd, hact.hash]
          have hkey' : e.key = n.key := by
            rw [hkey, hvalue, hact.key]
          cases e
          cases n
          simp only at hsame' hkey' hvalue
          rw [hsame', hkey', hvalue]
        · rw [host_setFg, host_setFg]
          exact hother.resolve_right hstale
  · exact .inl (hact.stuck hsame)

/-- The end of a download starts the next one of its host. -/
theorem Starting.activateEmbedded {code : GetterCode} (h : b.Starting []) (hmem : n ∈ b.connections)
    (hne : sockfd ≠ 0) (hsockd : b.Stuck ∨ b.sockd n.value = sockfd)
    (hestablished : code ≠ .errFatal → (b.conn n.value).fg.Established)
    (hreplaceable : code ∉ [.ok200, .err404, .errWouldblock] → b.Stuck ∨ b.Replaceable n.value)
    (hstep : b.activateEmbedded sockfd n.value code = .ok b') : b'.Starting [] ∧ b.Frame b' := by
  have hc := h.sockets.values n hmem
  obtain ⟨houtcome, hnone⟩ := h.outcome hc code
  have hframe : b.Frame (b.outcome n.value code) := by
    refine ⟨⟨rfl, rfl, rfl, rfl, le_rfl, fun d _ => ?_⟩, rfl, rfl⟩
    refine (host_setConn b n.value d _).trans ?_
    split
    · rename_i hd
      rw [hd]
      rfl
    · rfl
  have hsockds : (b.outcome n.value code).sockd = b.sockd := sockd_setConn_same rfl
  have hstuck : b.Stuck → (b.outcome n.value code).Stuck :=
    fun hstuck => hstuck.congr hsockds (List.Subset.refl _)
  have hsockd' : (b.outcome n.value code).Stuck ∨ (b.outcome n.value code).sockd n.value =
      sockfd := by
    rw [hsockds]
    exact hsockd.imp_left hstuck
  have hestablished' : code ≠ .errFatal →
      ((b.outcome n.value code).conn n.value).fg.Established := by
    simpa [Browser.outcome, Browser.setConn] using hestablished
  unfold Browser.activateEmbedded at hstep
  split at hstep
  · rename_i hcode
    have hestablished' := hestablished' (by simp [hcode])
    unfold downloadedObject at hstep
    split at hstep
    · cases hstep
    · rename_i b₁ hreuse
      obtain rfl := Except.ok.inj hstep
      obtain ⟨h₁, hframe₁, -, -⟩ := houtcome.reuseConnection hmem rfl hnone hestablished' hreuse
      exact ⟨h₁, hframe.trans hframe₁⟩
    · rename_i b₁ hreuse
      obtain ⟨-, -, -, hkept⟩ := houtcome.reuseConnection hmem rfl hnone hestablished' hreuse
      obtain ⟨rfl, hpending⟩ := hkept rfl
      obtain rfl := Except.ok.inj hstep
      refine ⟨houtcome.remove ?_ hnone (.inr rfl) hpending, hframe.trans (frame_remove _ _)⟩
      exact ne_of_gt hestablished'.sockd
  · split at hstep
    · rename_i hcode
      have hestablished' := hestablished' (by simp [hcode])
      split at hstep
      · cases hstep
      · rename_i b₁ hreuse
        obtain rfl := Except.ok.inj hstep
        obtain ⟨h₁, hframe₁, -, -⟩ := houtcome.reuseConnection hmem rfl hnone hestablished' hreuse
        exact ⟨h₁, hframe.trans hframe₁⟩
      · rename_i b₁ hreuse
        obtain ⟨-, -, -, hkept⟩ := houtcome.reuseConnection hmem rfl hnone hestablished' hreuse
        obtain ⟨rfl, hpending⟩ := hkept rfl
        obtain rfl := Except.ok.inj hstep
        exact ⟨houtcome.remove hne hnone hsockd' hpending, hframe.trans (frame_remove _ _)⟩
    · split at hstep
      · rename_i hok h404 hwouldblock
        obtain rfl := Except.ok.inj hstep
        have hreplaceable' : (b.outcome n.value code).Stuck ∨
            (b.outcome n.value code).Replaceable n.value := by
          refine (hreplaceable (by simp [hok, h404, hwouldblock])).imp hstuck ?_
          have hhost : ∀ e ∈ b.connections, (b.outcome n.value code).host e.value =
              b.host e.value :=
            fun e he => hframe.host e.value (h.sockets.values e he)
          unfold Replaceable
          rw [hhost n hmem]
          refine Or.imp_right ?_
          rintro ⟨e, he, hvalue, hsame⟩
          exact ⟨e, he, hvalue, (hhost e he).trans hsame⟩
        refine ⟨houtcome.steal_shutdown hc hne hnone hsockd' hreplaceable', hframe.trans ?_⟩
        exact ⟨⟨rfl, rfl, rfl, rfl, le_rfl, fun d _ => host_setFg _ _ _ _⟩, rfl, rfl⟩
      · obtain rfl := Except.ok.inj hstep
        exact ⟨h, Frame.refl _⟩

/-! ## The document -/

/-- What holds before the document was downloaded. -/
structure Early (b : Browser) : Prop where
  entries : ∀ e ∈ b.connections, e.key = b.docConn ∧ e.value = b.docConn
  downloads : ∀ c, b.downloads c = none
  tasks : ∀ hostname tasks, b.tasks hostname = some tasks → tasks.running = 0 ∧ tasks.pending = []
  queued : b.queued = []

/-- What every step keeps. -/
structure PageRun (b : Browser) : Prop where
  sockets : b.Sockets
  docConn : b.docConn < b.nextConn
  host : b.host b.docConn = b.firstHostname
  concurrent : 1 ≤ b.maxConcurrentDownloads
  wakeups : b.wakeups = 0 ∨ b.wakeups = 1 ∧ b.state = .hibernate
  early : b.state = .document ∨ b.state = .hibernate → b.Early
  embedded : b.state = .embeddedObjects → b.Starting []
  success : b.state = .success → b.Complete

/-- Without tasks running, every host with paths that wait is to be started. -/
theorem Waiting.covered (h : b.Waiting) (hdownloads : ∀ c, b.downloads c = none)
    (hhosts : ∀ hostname tasks, b.tasks hostname = some tasks → hostname ∈ hosts) :
    b.Covered hosts where
  serves := fun hostname tasks htasks _ =>
    .inr ⟨hhosts hostname tasks htasks, h.running hostname tasks htasks⟩
  downloads := fun c hc => absurd (hdownloads c) hc

/-- A host with tasks is in the table of the hosts. -/
theorem mem_keys_of_tasks {tasks : Tasks} (h : b.tasks hostname = some tasks) :
    hostname ∈ b.downloadTasks.map Prod.fst := by
  obtain ⟨l₁, l₂, hsplit, -⟩ := List.lookup_eq_some_iff.mp h
  rw [hsplit]
  simp

/-- The tasks of the first host are running. -/
theorem Starting.setRunning {tasks : Tasks} (h : b.Starting hosts)
    (htasks : b.tasks hostname = some tasks) (hserves : b.Serves hostname) (running : Nat) :
    (b.setTasks hostname { tasks with running := running }).Starting hosts := by
  have hself : (b.setTasks hostname { tasks with running := running }).tasks hostname =
      some { tasks with running := running } := tasks_setTasks_self htasks _
  refine ⟨?_, h.concurrent, ?_, fun object hobject => ?_⟩
  · refine h.sockets.congr ?_ ?_ (List.Subset.refl _)
    · rfl
    · rfl
  · rcases h.covers with hstuck | hcovered
    · refine .inl (hstuck.congr ?_ (List.Subset.refl _))
      rfl
    · refine .inr ⟨fun hostname' tasks' htasks' hne => ?_, hcovered.downloads⟩
      by_cases heq : hostname' = hostname
      · rw [heq]
        exact .inl hserves
      · rw [tasks_setTasks_of_ne heq] at htasks'
        exact hcovered.serves hostname' tasks' htasks' hne
  · rcases h.accounted object hobject with ⟨tasks', htasks', hmem⟩ | hrest
    · by_cases heq : object.1 = hostname
      · rw [heq, htasks] at htasks'
        obtain rfl := Option.some.inj htasks'
        refine .inl ⟨{ tasks with running := running }, ?_, hmem⟩
        rw [heq]
        exact hself
      · refine .inl ⟨tasks', ?_, hmem⟩
        rw [tasks_setTasks_of_ne heq]
        exact htasks'
    · exact .inr hrest

/-- All hosts that have tasks are to be started. -/
theorem Covers.of_tasks {hosts' : List Bytes} (h : b.Covers hosts)
    (hall : ∀ hostname tasks, b.tasks hostname = some tasks → hostname ∈ hosts') :
    b.Covers hosts' := by
  refine h.imp_right fun hcovered => ⟨fun hostname tasks htasks hne => ?_, hcovered.downloads⟩
  exact (hcovered.serves hostname tasks htasks hne).imp_right
    fun hwaits => ⟨hall hostname tasks htasks, hwaits.2⟩

/-- A state behind the document on the same page. -/
theorem PageRun.of_samePage (h : b.PageRun) (hstate : b.state ≠ .hibernate) (hsame : b.SamePage b')
    (hsockets : b'.Sockets) (hdocument : b'.state ≠ .document) (hhibernate : b'.state ≠ .hibernate)
    (hembedded : b'.state = .embeddedObjects → b'.Starting [])
    (hsuccess : b'.state = .success → b'.Complete) : b'.PageRun where
  sockets := hsockets
  docConn := by
    rw [hsame.docConn]
    exact h.docConn.trans_le hsame.nextConn
  host := by
    rw [hsame.docConn, hsame.host _ h.docConn, hsame.firstHostname]
    exact h.host
  concurrent := by
    rw [hsame.maxConcurrentDownloads]
    exact h.concurrent
  wakeups := by
    rw [hsame.wakeups]
    exact .inl (h.wakeups.resolve_right fun hslept => hstate hslept.2)
  early := by
    rintro (heq | heq)
    · exact absurd heq hdocument
    · exact absurd heq hhibernate
  embedded := hembedded
  success := hsuccess

/-- The table is stuck or covers all objects once they were started. -/
theorem PageRun.downloadedDocument {dials : List Dial} (h : b.PageRun)
    (hstate : b.state = .document)
    (hmem : n ∈ b.connections) (hestablished : (b.conn n.value).fg.Established)
    (hstep : b.downloadedDocument env n.value dials = .ok b') : b'.PageRun := by
  have hearly := h.early (.inl hstate)
  have hwaiting : b.Waiting := by
    refine ⟨fun hostname tasks htasks => (hearly.tasks hostname tasks htasks).1, ?_, ?_⟩
    · simp [hearly.queued]
    · intro hostname tasks htasks path hpath
      rw [(hearly.tasks hostname tasks htasks).2] at hpath
      cases hpath
  unfold Browser.downloadedDocument at hstep
  dsimp only at hstep
  split at hstep
  · cases hstep
  · rename_i b₁ hobjects
    have hwaiting₁ := hwaiting.getEmbeddedObjects hobjects
    obtain ⟨downloadTasks, queued, hb₁⟩ := getEmbeddedObjects_eq_ok hobjects
    have hsame₁ : b.SamePage b₁ := by
      rw [hb₁]
      exact ⟨rfl, rfl, rfl, rfl, le_rfl, fun _ _ => rfl⟩
    have hsockets₁ : b₁.Sockets := by
      rw [hb₁]
      refine h.sockets.congr ?_ ?_ (List.Subset.refl _)
      · rfl
      · rfl
    have hdownloads₁ : ∀ c, b₁.downloads c = none := by
      rw [hb₁]
      exact hearly.downloads
    have hmem₁ : n ∈ b₁.connections := by
      rw [hb₁]
      exact hmem
    have hestablished₁ : (b₁.conn n.value).fg.Established := by
      rw [hb₁]
      exact hestablished
    have hhost₁ : b₁.host n.value = b₁.firstHostname := by
      rw [(hearly.entries n hmem).2, hb₁]
      exact h.host
    split at hstep
    · cases hstep
    · rename_i b₂ reused hreuse
      have hstarting₁ : b₁.Starting (b₁.downloadTasks.map Prod.fst) := by
        refine ⟨hsockets₁, ?_, .inr (hwaiting₁.covered hdownloads₁ fun _ _ => mem_keys_of_tasks),
          ?_⟩
        · rw [hb₁]
          exact h.concurrent
        · exact fun object hobject => .inl (hwaiting₁.waits object hobject)
      obtain ⟨hstarting₂, hframe₂, hconnections₂, hkept⟩ :=
        hstarting₁.reuseConnection hmem₁ rfl (hdownloads₁ _) hestablished₁ hreuse
      split at hstep
      · cases hstep
      · rename_i b₃ hfound
        have hstarting₃ : b₃.Starting (b₁.downloadTasks.map Prod.fst) ∧ b₁.Frame b₃ ∧
            (b₁.queued = [] → b₃.Complete) := by
          cases reused with
          | true =>
            simp only [if_true] at hfound
            obtain ⟨tasks, htasks, rfl⟩ := Option.map_eq_some_iff.mp hfound
            have hserves : b₂.Serves b₂.firstHostname := by
              refine ⟨n, hconnections₂ ▸ hmem₁, ?_⟩
              rw [hframe₂.host _ (hsockets₁.values n hmem₁), hframe₂.firstHostname]
              exact hhost₁
            refine ⟨hstarting₂.setRunning htasks hserves 1, hframe₂.trans ?_, fun hnone => ?_⟩
            · exact ⟨⟨rfl, rfl, rfl, rfl, le_rfl, fun _ _ => rfl⟩, rfl, rfl⟩
            · -- a path was waiting, so that an object was queued
              obtain ⟨tasks₁, htasks₁, ⟨hfalse, -⟩ | ⟨path, pending, -, -, hpending, -⟩⟩ :=
                hsockets₁.reuseConnection_eq_ok (hsockets₁.values n hmem₁) hestablished₁ hreuse
              · cases hfalse
              · have hqueued := hwaiting₁.queued _ tasks₁ htasks₁ path (by simp [hpending])
                rw [hnone] at hqueued
                cases hqueued
          | false =>
            obtain ⟨rfl, -⟩ := hkept rfl
            simp only [Bool.false_eq_true, if_false] at hfound
            obtain rfl := Option.some.inj hfound
            refine ⟨⟨hsockets₁.steal _, hstarting₁.concurrent, .inr ?_, hstarting₁.accounted⟩, ?_,
              ?_⟩
            · exact ⟨fun hostname tasks htasks _ =>
                .inr ⟨mem_keys_of_tasks htasks, hwaiting₁.running hostname tasks htasks⟩,
                fun c hc => absurd (hdownloads₁ c) hc⟩
            · exact ⟨⟨rfl, rfl, rfl, rfl, le_rfl, fun _ _ => rfl⟩, rfl, rfl⟩
            · intro hnone
              refine ⟨fun hostname tasks htasks => ?_, hdownloads₁, fun object hobject => ?_⟩
              · refine List.eq_nil_iff_forall_not_mem.mpr fun path hpath => ?_
                have hqueued := hwaiting₁.queued hostname tasks htasks path hpath
                rw [hnone] at hqueued
                cases hqueued
              · change object ∈ b₂.queued at hobject
                rw [hnone] at hobject
                cases hobject
        obtain ⟨hstarting₃, hframe₃, hcomplete⟩ := hstarting₃
        have hsame₃ := hsame₁.trans hframe₃.toSamePage
        have hawake : b.state ≠ .hibernate := by simp [hstate]
        split at hstep
        · rename_i hnone
          obtain rfl := Except.ok.inj hstep
          rw [hearly.queued, List.length_nil, Nat.sub_zero, List.length_eq_zero_iff] at hnone
          have hcomplete := hcomplete hnone
          refine h.of_samePage hawake ?_ ?_ (by simp) (by simp) (by simp) fun _ => ?_
          · exact hsame₃.trans ⟨rfl, rfl, rfl, rfl, le_rfl, fun _ _ => rfl⟩
          · refine hstarting₃.sockets.congr ?_ ?_ (List.Subset.refl _)
            · rfl
            · rfl
          · exact ⟨hcomplete.pending, hcomplete.downloads, hcomplete.outcomes⟩
        · have hstarting₄ : Starting { b₃ with state := .embeddedObjects }
              (env.foreachOrder (b₃.downloadTasks.map Prod.fst)).1 := by
            refine ⟨?_, hstarting₃.concurrent, ?_, hstarting₃.accounted⟩
            · refine hstarting₃.sockets.congr ?_ ?_ (List.Subset.refl _)
              · rfl
              · rfl
            · have hcovers : Covers { b₃ with state := .embeddedObjects }
                  (b₁.downloadTasks.map Prod.fst) := by
                rcases hstarting₃.covers with hstuck | hcovered
                · exact .inl hstuck
                · exact .inr ⟨hcovered.serves, hcovered.downloads⟩
              refine hcovers.of_tasks fun hostname tasks htasks => ?_
              exact (env.foreachOrder _).2.mem_iff.mpr (mem_keys_of_tasks htasks)
          obtain ⟨hstarting', hframe'⟩ := hstarting₄.startAllTasks hstep
          refine h.of_samePage hawake ?_ hstarting'.sockets ?_ ?_ (fun _ => hstarting') ?_
          · have hsame₄ : b₃.SamePage { b₃ with state := .embeddedObjects } :=
              ⟨rfl, rfl, rfl, rfl, le_rfl, fun _ _ => rfl⟩
            exact (hsame₃.trans hsame₄).trans hframe'.toSamePage
          · simp [hframe'.state]
          · simp [hframe'.state]
          · simp [hframe'.state]

/-! ## Steps -/

/-- What is early depends on the document and the tasks. -/
theorem Early.congr (h : b.Early) (hconnections : b'.connections ⊆ b.connections)
    (hdocConn : b'.docConn = b.docConn) (hdownloads : ∀ c, b'.downloads c = b.downloads c)
    (htasks : b'.downloadTasks = b.downloadTasks) (hqueued : b'.queued = b.queued) : b'.Early where
  entries := by
    intro e he
    rw [hdocConn]
    exact h.entries e (hconnections he)
  downloads := fun c => (hdownloads c).trans (h.downloads c)
  tasks := by
    intro hostname tasks
    rw [Browser.tasks, htasks]
    exact h.tasks hostname tasks
  queued := hqueued.trans h.queued

/-- The getter of a connection has changed. -/
theorem PageRun.setFg {getter : GetterEvent} {code : GetterCode} (h : b.PageRun)
    (hact : b.Activates sockfd getter n fg code) : (b.setFg n.value fg).PageRun where
  sockets := hact.sockets
  docConn := h.docConn
  host := (host_setFg _ _ _ _).trans h.host
  concurrent := h.concurrent
  wakeups := h.wakeups
  early := fun hstate => (h.early hstate).congr (List.Subset.refl _) (by rfl)
    (fun c => downloads_setFg b n.value c fg) (by rfl) (by rfl)
  embedded := by
    intro hstate
    have hstarting := h.embedded hstate
    refine ⟨hact.sockets, hstarting.concurrent, ?_, fun object hobject => ?_⟩
    · rcases hstarting.covers with hstuck | hcovered
      · exact .inl (hstuck.setFg hact)
      · refine .inr ⟨fun hostname tasks htasks hne => ?_, fun c hc => ?_⟩
        · refine (hcovered.serves hostname tasks htasks hne).imp_left ?_
          rintro ⟨e, he, hserves⟩
          exact ⟨e, he, (host_setFg _ _ _ _).trans hserves⟩
        · rw [downloads_setFg] at hc
          exact hcovered.downloads c hc
    · rcases hstarting.accounted object hobject with hwaits | ⟨c, hc⟩ | houtcome
      · exact .inl hwaits
      · exact .inr (.inl ⟨c, (downloads_setFg _ _ _ _).trans hc⟩)
      · exact .inr (.inr houtcome)
  success := by
    intro hstate
    have hcomplete := h.success hstate
    exact ⟨hcomplete.pending, fun c => (downloads_setFg _ _ _ _).trans (hcomplete.downloads c),
      hcomplete.outcomes⟩

/-- An activation for the document keeps the run of the page. -/
theorem PageRun.activateDocument {code : GetterCode} {dials : List Dial} (h : b.PageRun)
    (hstate : b.state = .document) (hmem : n ∈ b.connections)
    (hestablished : code ≠ .errFatal → (b.conn n.value).fg.Established)
    (hstep : b.activateDocument env sockfd n.value code dials = .ok b') : b'.PageRun := by
  have hc := h.sockets.values n hmem
  have hawake : b.state ≠ .hibernate := by simp [hstate]
  have hearly := h.early (.inl hstate)
  have hwakeups : b.wakeups = 0 := h.wakeups.resolve_right fun hslept => hawake hslept.2
  have hshutdown : ∀ k, ((b.steal k).shutdownConnection n.value).Sockets :=
    fun k => (h.sockets.steal k).shutdownConnection hc
  unfold Browser.activateDocument at hstep
  split at hstep
  · rename_i hcode
    exact h.downloadedDocument hstate hmem (hestablished (by simp [hcode])) hstep
  · split at hstep
    · obtain rfl := Except.ok.inj hstep
      refine h.of_samePage hawake ?_ ?_ (by simp) (by simp) (by simp) (by simp)
      · exact ⟨rfl, rfl, rfl, rfl, le_rfl, fun _ _ => rfl⟩
      · refine h.sockets.congr ?_ ?_ (List.Subset.refl _)
        · rfl
        · rfl
    · split at hstep
      · obtain rfl := Except.ok.inj hstep
        constructor
        · refine (hshutdown (b.sockd n.value)).congr ?_ ?_ (List.Subset.refl _)
          · rfl
          · rfl
        · exact h.docConn
        · exact (host_setFg _ _ _ _).trans h.host
        · exact h.concurrent
        · refine .inr ⟨?_, rfl⟩
          simp [hwakeups]
        · intro _
          refine hearly.congr (fun e he => HashTable.mem_of_mem_remove he) ?_ (fun c => ?_) ?_ ?_
          · rfl
          · exact downloads_setFg _ _ _ _
          · rfl
          · rfl
        · simp
        · simp
      · split at hstep
        · obtain rfl := Except.ok.inj hstep
          have hsockets :
              Sockets { (b.steal sockfd).shutdownConnection n.value with state := .failure } := by
            refine (hshutdown sockfd).congr ?_ ?_ (List.Subset.refl _)
            · rfl
            · rfl
          obtain ⟨conn, hfree, hhost, hfreed⟩ := hsockets.free
          refine h.of_samePage hawake ?_ hfreed ?_ ?_ ?_ ?_
          · have hhost' := fun c => (hhost c).trans (host_setFg (b.steal sockfd) n.value c _)
            rw [hfree] at hhost' ⊢
            exact ⟨rfl, rfl, rfl, rfl, le_rfl, fun c _ => hhost' c⟩
          · simp [hfree]
          · simp [hfree]
          · simp [hfree]
          · simp [hfree]
        · obtain rfl := Except.ok.inj hstep
          exact h

/-- An activation keeps what is complete complete, if the hosts stay served. -/
theorem PageRun.activate {getter : GetterEvent} {dials : List Dial} (h : b.PageRun)
    (hserved : b.HostServed (.activate sockfd getter dials))
    (hstep : b.activate env sockfd getter dials = .ok b') : b'.PageRun := by
  obtain ⟨-, ⟨-, rfl⟩ | ⟨n, fg, code, hact, hactivated⟩⟩ := h.sockets.activate_eq_ok hstep
  · exact h
  · have hrun := h.setFg hact
    have hmem : n ∈ (b.setFg n.value fg).connections := hact.mem
    unfold activated at hactivated
    split at hactivated
    · rename_i hstate
      exact hrun.activateDocument hstate hmem hact.established hactivated
    · rename_i hstate
      split at hactivated
      · cases hactivated
      · rename_i b₁ hembedded
        have hsockd : (b.setFg n.value fg).Stuck ∨ (b.setFg n.value fg).sockd n.value = sockfd := by
          by_cases hsame : fg.sockd = sockfd
          · refine .inr ?_
            rw [sockd_setFg, if_pos rfl]
            exact hsame
          · exact .inl (hact.stuck hsame)
        obtain ⟨hstarting, hframe⟩ :=
          (hrun.embedded hstate).activateEmbedded hmem hact.nonzero hsockd
          hact.established (hact.hostServed h.sockets hserved hstate) hembedded
        have hstate₁ : b₁.state = .embeddedObjects := hframe.state.trans hstate
        have hawake : (b.setFg n.value fg).state ≠ .hibernate := by simp [hstate]
        obtain rfl := Except.ok.inj hactivated
        split
        · rename_i hempty
          have hcomplete := hstarting.covers.complete hempty hstarting.accounted
          refine hrun.of_samePage hawake ?_ ?_ (by simp) (by simp) (by simp) fun _ => ?_
          · exact hframe.toSamePage.trans ⟨rfl, rfl, rfl, rfl, le_rfl, fun _ _ => rfl⟩
          · refine hstarting.sockets.congr ?_ ?_ (List.Subset.refl _)
            · rfl
            · rfl
          · exact ⟨hcomplete.pending, hcomplete.downloads, hcomplete.outcomes⟩
        · exact hrun.of_samePage hawake hframe.toSamePage hstarting.sockets (by simp [hstate₁])
            (by simp [hstate₁]) (fun _ => hstarting) (by simp [hstate₁])
    · obtain rfl := Except.ok.inj hactivated
      exact hrun

/-- `browser_wakeup` starts the download of the document again. -/
theorem PageRun.wakeup {dial : Dial} (h : b.PageRun) (hne : b.wakeups ≠ 0)
    (hstep : b.wakeup dial = .ok b') : b'.PageRun := by
  obtain ⟨hwakeups, hstate⟩ := h.wakeups.resolve_left hne
  have hearly := h.early (.inr hstate)
  have hsound := h.sockets.sound b.docConn h.docConn
  unfold Browser.wakeup at hstep
  dsimp only at hstep
  split at hstep
  · cases hstep
  · rename_i hcan
    simp only [not_not] at hcan
    obtain ⟨fg, hfg⟩ : ∃ fg, fg = (Filegetter.start.download (b.conn b.docConn).sspec
      (b.conn b.docConn).fspec true dial.connection dial.now).1 := ⟨_, rfl⟩
    have hpos : ∀ sockd incoming, dial.connection = .connected sockd incoming → 0 < sockd := by
      intro sockd incoming hconnected
      rw [hconnected] at hcan
      exact (hcan.2.resolve_left hcan.1).1
    have hstart := Filegetter.download_start (b.conn b.docConn).sspec (b.conn b.docConn).fspec
      dial.connection dial.now hsound.persistent hsound.doSave hpos
    dsimp only at hstart
    rw [← hfg] at hstep hstart
    have hfree : b.Free b.docConn fg.sockd ∧ (fg.sockd ≠ 0 → fg.Established) := by
      rcases hstart with ⟨-, hzero⟩ | ⟨sockd, incoming, hconnected, hsockd, hestablished⟩
      · exact ⟨.inl hzero, fun hne => absurd hzero hne⟩
      · rw [hconnected] at hcan
        rw [hsockd]
        exact ⟨hcan.2, fun _ => hestablished⟩
    obtain ⟨b₁, hb₁⟩ : ∃ b₁ : Browser, b₁ = { b with wakeups := b.wakeups - 1 } := ⟨_, rfl⟩
    rw [← hb₁] at hstep
    have hsockets₁ : b₁.Sockets := by
      rw [hb₁]
      refine h.sockets.congr ?_ ?_ (List.Subset.refl _)
      · rfl
      · rfl
    have hsockets₂ : (b₁.setFg b.docConn fg).Sockets := by
      rw [hb₁] at hsockets₁ ⊢
      refine hsockets₁.setConn h.docConn ⟨hsound.persistent, hsound.doSave, hfree.2⟩ hfree.1 ?_
      exact fun e he _ hkey => absurd (hearly.entries e he).1 hkey
    have hsockets₃ : ((b₁.setFg b.docConn fg).insert b.docConn).Sockets := by
      refine hsockets₂.insert ?_
      rw [hb₁]
      exact h.docConn
    have hdownloads : ∀ c, ((b₁.setFg b.docConn fg).insert b.docConn).downloads c = none := by
      intro c
      rw [downloads_insert, downloads_setFg, hb₁]
      exact hearly.downloads c
    have hhost : ∀ c, ((b₁.setFg b.docConn fg).insert b.docConn).host c = b.host c := by
      intro c
      rw [host_insert, host_setFg, hb₁]
      rfl
    have hentries : ∀ e ∈ ((b₁.setFg b.docConn fg).insert b.docConn).connections,
        e.key = b.docConn ∧ e.value = b.docConn := by
      intro e he
      have hmem : e ∈ HashTable.insert (b₁.setFg b.docConn fg).sockd b.connections b.docConn
          b.docConn := by
        rw [hb₁] at he ⊢
        unfold Browser.insert at he
        dsimp only at he
        split at he
        · exact he
        · exact he
      rcases HashTable.mem_insert hmem with hold | ⟨⟨-, -, hvalue⟩, hkey | ⟨e', he', hkey⟩⟩
      · exact hearly.entries e hold
      · exact ⟨hkey, hvalue⟩
      · exact ⟨hkey ▸ (hearly.entries e' he').1, hvalue⟩
    obtain ⟨connections, conns, replaced, hinsert⟩ := insert_eq (b₁.setFg b.docConn fg) b.docConn
    rw [hinsert, hb₁] at hsockets₃ hdownloads hhost hentries
    rw [hinsert, hb₁] at hstep
    obtain rfl := Except.ok.inj hstep
    constructor
    · refine hsockets₃.congr ?_ ?_ (List.Subset.refl _)
      · rfl
      · rfl
    · exact h.docConn
    · exact (hhost b.docConn).trans h.host
    · exact h.concurrent
    · simp [Browser.setFg, Browser.setConn, hwakeups]
    · exact fun _ => ⟨hentries, hdownloads, hearly.tasks, hearly.queued⟩
    · simp
    · simp

/-- Every event keeps the run of the page. -/
theorem PageRun.step {e : PluginEvent} (h : b.PageRun) (hserved : b.HostServed e)
    (hstep : b.step env e = .ok b') : b'.PageRun := by
  cases e with
  | activate sockfd getter dials => exact h.activate hserved hstep
  | wakeup dial =>
    unfold Browser.step at hstep
    dsimp only at hstep
    split at hstep
    · obtain rfl := Except.ok.inj hstep
      exact h
    · rename_i hne
      exact h.wakeup hne hstep

/-- `browser_launch` starts the download of the document. -/
theorem pageRun_launch {httpServer socksProxy : ServerArgs}
    {maxConcurrentDownloads documentPath : Bytes}
    {dial : Dial} (hconcurrent : 1 ≤ atoi maxConcurrentDownloads)
    (hlaunch : launch env httpServer socksProxy maxConcurrentDownloads documentPath dial = .ok b) :
    b.PageRun := by
  obtain ⟨b₀, conn, hfresh, hconn, hsockets, rfl⟩ := launch_eq_ok hlaunch
  have hhost : (b₀.allocated conn).host b₀.docConn = b₀.firstHostname := by
    refine (host_setConn b₀ b₀.nextConn b₀.docConn conn).trans ?_
    rw [hfresh.docConn, hfresh.nextConn, if_pos rfl, hconn.host, hfresh.firstHostname]
  have hdownloads : ∀ c, (b₀.allocated conn).downloads c = none := by
    intro c
    refine (downloads_setConn b₀ b₀.nextConn c conn).trans ?_
    split
    · exact hconn.download
    · rw [Browser.downloads, hfresh.conn]
      rfl
  constructor
  · exact hsockets
  · change b₀.docConn < b₀.nextConn + 1
    rw [hfresh.docConn]
    exact Nat.succ_pos _
  · exact hhost
  · change 1 ≤ b₀.maxConcurrentDownloads
    rw [hfresh.maxConcurrentDownloads]
    exact hconcurrent
  · exact .inl hfresh.wakeups
  · intro _
    refine ⟨fun e he => ?_, hdownloads, hfresh.tasks, hfresh.queued⟩
    obtain rfl := List.mem_singleton.mp he
    exact ⟨hfresh.docConn.symm, hfresh.docConn.symm⟩
  · intro hstate
    exact absurd (hfresh.state.symm.trans hstate) (by simp)
  · intro hstate
    exact absurd (hfresh.state.symm.trans hstate) (by simp)

/-- Along a run in which no host loses its last connection while paths wait, success is reported
when all objects have had an outcome. -/
theorem complete_of_hostServed {httpServer socksProxy : ServerArgs}
    {maxConcurrentDownloads documentPath : Bytes} {dial : Dial} {es : List PluginEvent}
    (hlaunch : launch env httpServer socksProxy maxConcurrentDownloads documentPath dial = .ok b)
    (hconcurrent : 1 ≤ atoi maxConcurrentDownloads) (hserved : StepsMeet (step env) HostServed b es)
    (hvisit : Visits (step env) b es b') (hsuccess : b'.state = .success) : b'.Complete := by
  obtain ⟨fs, ⟨gs, rfl⟩, hrun⟩ := hvisit
  have hpage : b'.PageRun :=
    invariant_of_stepsMeet PageRun (fun _ _ _ h hmeets hstep => h.step hmeets hstep)
      (pageRun_launch hconcurrent hlaunch) hserved.of_append hrun
  exact hpage.success hsuccess

/-- The proxy accepts the greeting and the request, and names no address. -/
def proxyAccepts : Bytes := [5, 0, 5, 0, 0, 1, 0, 0, 0, 0, 0, 0]

/-- The page is downloaded through the proxy, and a connection to the other host started, on which
`incoming` will arrive. -/
def loadPage (incoming : Bytes) : PluginEvent :=
  .activate 3 (answering [.ready 99, .ready 1, .ready 99, .ready 9, .ready 99, .ready 99])
    [{ connection := .connected 4 incoming, now := ⟨0, 0⟩ }]

/-- Neither object is found, one after the other. -/
def bothNotFound : List PluginEvent :=
  [loadPage (proxyAccepts ++ http404 ++ http404),
    .activate 4 (answering
      [.ready 99, .ready 1, .ready 99, .ready 9, .ready 99, .ready (http404.length - 1)]) [],
    .activate 4 (answering [.ready 99, .ready 99]) []]

/-- The browser reports success when both objects had an outcome. -/
theorem complete_of_hostServed_bothNotFound : ∃ b b',
    launchPage (ascii "9050") (proxyAccepts ++ pageResponse) = .ok b ∧
      Visits (step otherHost) b bothNotFound b' ∧ b'.state = .success ∧ b'.queued.length = 2 ∧
      b'.Complete := by
  have hrun : (launchPage (ascii "9050") (proxyAccepts ++ pageResponse)).bind (fun b =>
      (runSteps (step otherHost) b bothNotFound).map fun b' => (b'.state, b'.queued.length,
        decide (StepsMeet (step otherHost) HostServed b bothNotFound))) =
          .ok (.success, 2, true) := by
    decide +kernel
  obtain ⟨b, hlaunch, hrun⟩ := bind_eq_ok.mp hrun
  obtain ⟨b', hb', hends⟩ := map_eq_ok.mp hrun
  obtain ⟨hstate, hrest⟩ := Prod.mk.inj hends
  obtain ⟨hqueued, hserved⟩ := Prod.mk.inj hrest
  have hvisit : Visits (step otherHost) b bothNotFound b' := ⟨bothNotFound, List.prefix_refl _, hb'⟩
  exact ⟨b, b', hlaunch, hvisit, hstate, hqueued,
    complete_of_hostServed hlaunch (by decide) (of_decide_eq_true hserved) hvisit hstate⟩

/-- The proxy refuses the only connection to the other host. -/
def proxyRefuses : List PluginEvent :=
  [loadPage [5, 255], .activate 4 (answering [.ready 99, .ready 1]) []]

/-- The browser reports success while a path waits. -/
theorem not_complete_proxyRefuses : ∃ b b',
    launchPage (ascii "9050") (proxyAccepts ++ pageResponse) = .ok b ∧
      1 ≤ b.maxConcurrentDownloads ∧ Visits (step otherHost) b proxyRefuses b' ∧
      b'.state = .success ∧ ¬b'.Complete := by
  have hrun : (launchPage (ascii "9050") (proxyAccepts ++ pageResponse)).bind (fun b =>
      (runSteps (step otherHost) b proxyRefuses).map fun b' => (b.maxConcurrentDownloads, b'.state,
        (b'.tasks (ascii "b")).map Tasks.pending)) = .ok (1, .success, some [ascii "/y"]) := by
    decide +kernel
  obtain ⟨b, hlaunch, hrun⟩ := bind_eq_ok.mp hrun
  obtain ⟨b', hb', hends⟩ := map_eq_ok.mp hrun
  obtain ⟨hmax, hrest⟩ := Prod.mk.inj hends
  obtain ⟨hstate, hpending⟩ := Prod.mk.inj hrest
  refine ⟨b, b', hlaunch, le_of_eq hmax.symm, ⟨proxyRefuses, List.prefix_refl _, hb'⟩, hstate, ?_⟩
  intro hcomplete
  obtain ⟨tasks, htasks, hwaits⟩ := Option.map_eq_some_iff.mp hpending
  rw [hcomplete.pending _ tasks htasks] at hwaits
  cases hwaits

end Browser

end ShadowExtras.BrowserPlugin
