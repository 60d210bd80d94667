import ShadowExtras.Foundation.HashTable
import ShadowExtras.Foundation.Lookup
import ShadowExtras.FileTransfer.FilegetterSocket
import ShadowExtras.FileTransfer.ServiceFilegetter

/-!
# The browser plugin

`browser.c` downloads a document and then the objects that are embedded in it, with several
connections to every host. Each connection has a file getter; `b->connections` finds it by its
socket, through a pointer to the member `sockd` of the getter. The paths to be downloaded wait in
one queue for each host, and a connection that has finished a download goes on with the next path of
its host.

A step is a call of `browser_activate` for a socket, or of `browser_wakeup` a minute after the
document could not be got. An event brings what the calls of the getter see, and how the connects of
the call end, in order. The parsers and the resolver are parameters, gathered in `Env`; statistics
are left out, as are the texts of the log. `download`, `queued`, `outcomes` and `replaced` are
history.
-/

namespace ShadowExtras.BrowserPlugin

open Foundation FileTransfer

/-! ## Data -/

/-- `enum browser_state` -/
inductive BrowserState
  | document
  | hibernate
  | embeddedObjects
  | success
  /-- `SB_404` -/
  | notFound
  | failure
  deriving DecidableEq, Repr

/-- What the libraries compute. -/
structure Env where
  /-- `browser_getaddr` -/
  getaddr : Bytes → Octets 4
  htmlParse : Bytes → List Bytes
  /-- `url_get_parts`: the host name and the path. -/
  urlGetParts : Bytes → Option (Bytes × Bytes)
  /-- The order in which `g_hash_table_foreach` visits the keys. -/
  foreachOrder : (hosts : List Bytes) → { order : List Bytes // order.Perm hosts }

/-- `browser_download_tasks_t` -/
structure Tasks where
  running : Nat
  added : List Bytes
  reachable : Bool
  pending : List Bytes
  deriving DecidableEq, Repr

/-- An embedded object: its host and its path. -/
abbrev Object := Bytes × Bytes

/-- A connection, by the order of creation. -/
abbrev ConnId := Nat

/-- `browser_connection_t` -/
structure Connection where
  fg : Filegetter
  fspec : FileSpec
  sspec : ServerSpec
  /-- The embedded object that the connection downloads. -/
  download : Option Object
  deriving DecidableEq, Repr

/-- A call of `filegetter_download` that connects: the outcome, and the reading of the clock. -/
structure Dial where
  connection : Connect
  now : Timespec
  deriving DecidableEq, Repr

/-- The ways a step ends. -/
inductive PluginFault
  /-- In the getter. -/
  | getter (fault : FileTransfer.Fault)
  /-- The connection is `NULL`. -/
  | nullConn
  /-- A url without host name. -/
  | nullHost
  /-- No tasks for the host. -/
  | nullTasks
  /-- A host name that is not terminated in `http_hostname`. -/
  | hostname
  /-- The table of the connections was destroyed. -/
  | freed
  /-- A pointer that `getaddrinfo` did not set. -/
  | unsetPointer
  /-- Not a fault: the event does not say how a connect ends, or says what no kernel does. -/
  | environment
  deriving DecidableEq, Repr

/-- `browser_t` -/
structure Browser where
  state : BrowserState
  firstHostname : Bytes
  socksProxy : ServerArgs
  downloadTasks : List (Bytes × Tasks)
  /-- The keys are pointers to the `sockd` of a connection, the values are connections. -/
  connections : List (Entry ConnId ConnId Int)
  maxConcurrentDownloads : Int
  docConn : ConnId
  /-- The connections that were allocated. -/
  conn : ConnId → Connection
  /-- Their number. -/
  nextConn : ConnId
  /-- The scheduled calls of `browser_wakeup`. -/
  wakeups : Nat
  /-- `b->connections` was destroyed by `browser_free`. -/
  freed : Bool
  /-- The objects that `browser_get_embedded_objects` has queued. -/
  queued : List Object
  /-- How the downloads of objects ended. -/
  outcomes : List (Object × GetterCode)
  /-- The connections that were not shut down when another one was inserted in their place. -/
  replaced : List ConnId

/-- What is called. -/
inductive PluginEvent
  /-- `browser_activate` -/
  | activate (sockfd : Int) (getter : GetterEvent) (dials : List Dial)
  /-- `browser_wakeup` -/
  | wakeup (dial : Dial)
  deriving DecidableEq, Repr

/-- `url_is_absolute` -/
def urlIsAbsolute (url : Bytes) : Bool :=
  (ascii "http://").isPrefixOf url || (ascii "https://").isPrefixOf url ||
    (ascii "//").isPrefixOf url

/-- A connection that was not allocated. -/
def noConnection : Connection where
  fg := Filegetter.start
  fspec := { remotePath := [], localPath := [], doSave := false, saveToMemory := false }
  sspec := ServerSpec.zero
  download := none

namespace Browser

variable (env : Env) (b : Browser)

/-! ## Connections -/

/-- The value of a key of `b->connections`. -/
def sockd (c : ConnId) : Int := (b.conn c).fg.sockd

/-- Change a connection. -/
def setConn (c : ConnId) (conn : Connection) : Browser :=
  { b with conn := Function.update b.conn c conn }

/-- Change the getter of a connection. -/
def setFg (c : ConnId) (fg : Filegetter) : Browser := b.setConn c { b.conn c with fg := fg }

/-- `filegetter_shutdown` for a connection; also `browser_shutdown_connection`, which destroys a
value of `b->connections`. -/
def shutdownConnection (c : ConnId) : Browser := b.setFg c (b.conn c).fg.shutdown

/-- A descriptor that no other connection has; 0 is none. -/
def Free (c : ConnId) (sockd : Int) : Prop :=
  sockd = 0 ∨ 0 < sockd ∧ ∀ d < b.nextConn, d ≠ c → b.sockd d ≠ sockd

instance (c : ConnId) (sockd : Int) : Decidable (b.Free c sockd) := by
  unfold Free
  infer_instance

/-- The outcome of a connect that the kernel may give for this connection. -/
def CanDial (c : ConnId) : Connect → Prop
  | .failed => True
  | .connected sockd _ => sockd ≠ 0 ∧ b.Free c sockd

instance (c : ConnId) (connection : Connect) : Decidable (b.CanDial c connection) := by
  unfold CanDial
  split <;> infer_instance

/-- `g_hash_table_lookup(b->connections, &sockfd)` -/
def lookup (sockfd : Int) : Option (Entry ConnId ConnId Int) :=
  HashTable.lookup b.sockd b.connections sockfd

/-- `g_hash_table_steal(b->connections, &sockfd)` -/
def steal (sockfd : Int) : Browser :=
  { b with connections := HashTable.remove b.sockd b.connections sockfd }

/-- `g_hash_table_remove(b->connections, &sockfd)` -/
def remove (sockfd : Int) : Browser :=
  match b.lookup sockfd with
  | none => b
  | some entry => (b.steal sockfd).shutdownConnection entry.value

/-- `g_hash_table_insert(b->connections, &conn->fg.sockd, conn)`; a value that is replaced is
destroyed. -/
def insert (c : ConnId) : Browser :=
  let b' := { b with connections := HashTable.insert b.sockd b.connections c c }
  match b.lookup (b.sockd c) with
  | none => b'
  | some entry =>
    let live := entry.value ≠ c ∧ (b.conn entry.value).fg.state ≠ .idle
    { b' with
      replaced := if live then b.replaced ++ [entry.value] else b.replaced }.shutdownConnection
        entry.value

/-! ## Tasks -/

/-- `g_hash_table_lookup(b->download_tasks, hostname)` -/
def tasks (hostname : Bytes) : Option Tasks := b.downloadTasks.lookup hostname

/-- Change the tasks of a host. -/
def setTasks (hostname : Bytes) (tasks : Tasks) : Browser :=
  { b with downloadTasks := b.downloadTasks.map fun p =>
      if p.1 = hostname then (p.1, tasks) else p }

/-- `browser_init_host` -/
def initHost (hostname : Bytes) : Browser :=
  match b.tasks hostname with
  | some _ => b
  | none => { b with
    downloadTasks := b.downloadTasks ++ [(hostname,
      { running := 0
        added := []
        reachable := (env.getaddr hostname).1 ≠ [0, 0, 0, 0]
        pending := [] })] }

/-- The loop of `browser_get_embedded_objects` over the urls. -/
def queueObjects : List Bytes → Browser → Except PluginFault Browser
  | [], b => .ok b
  | url :: urls, b =>
    let parts := if urlIsAbsolute url then env.urlGetParts url
      else some (b.firstHostname, if (ascii "/").isPrefixOf url then url else ascii "/" ++ url)
    match parts with
    | none => .error .nullHost
    | some (hostname, path) =>
      let b := b.initHost env hostname
      match b.tasks hostname with
      | none => .error .nullTasks
      | some tasks =>
        if tasks.reachable ∧ path ∉ tasks.added then
          queueObjects urls { b.setTasks hostname { tasks with
              pending := tasks.pending ++ [path]
              added := path :: tasks.added } with
            queued := b.queued ++ [(hostname, path)] }
        else queueObjects urls b

/-- `browser_get_embedded_objects`; the sets of the paths that were added are destroyed. -/
def getEmbeddedObjects (c : ConnId) : Except PluginFault Browser :=
  match b.queueObjects env (env.htmlParse (cString ((b.conn c).fg.content.getD []))) with
  | .error f => .error f
  | .ok b => .ok { b with
    downloadTasks := b.downloadTasks.map fun p => (p.1, { p.2 with added := [] }) }

/-! ## Downloads -/

/-- `browser_prepare_filegetter`: the connection gets the next number. The object is `none` for the
document. -/
def prepareFilegetter (httpServer socksProxy : ServerArgs) (filepath : Bytes)
    (object : Option Object) (dial : Dial) : Except PluginFault Browser :=
  let httpAddr := env.getaddr httpServer.host
  let httpPort := htons (atoi httpServer.port)
  if filepath.head? ≠ some 47 then .error .nullConn
  else if httpAddr.1 = [0, 0, 0, 0] ∨ httpPort.1 = [0, 0] then .error .nullConn
  else if strSize ≤ httpServer.host.length then .error .hostname
  else if ¬b.CanDial b.nextConn dial.connection then .error .environment
  else
    let fspec : FileSpec :=
      { remotePath := filepath.take strSize
        localPath := []
        doSave := false
        saveToMemory := b.state = .document }
    let sspec : ServerSpec :=
      { httpHostname := httpServer.host
        httpAddr := httpAddr
        httpPort := httpPort
        socksAddr := env.getaddr socksProxy.host
        socksPort := htons (atoi socksProxy.port)
        persistent := true
        useHostname := false
        hostnameLength := 0 }
    let fg := (Filegetter.start.download sspec fspec true dial.connection dial.now).1
    .ok { b.setConn b.nextConn { fg := fg, fspec := fspec, sspec := sspec, download := object } with
      nextConn := b.nextConn + 1 }

/-- `browser_reuse_connection`; the connection is established, so that nothing is connected. -/
def reuseConnection (c : ConnId) : Except PluginFault (Browser × Bool) :=
  let conn := b.conn c
  match b.tasks conn.sspec.httpHostname with
  | none => .error .nullTasks
  | some tasks =>
    match tasks.pending with
    | [] => .ok (b, false)
    | path :: pending =>
      let fspec := { conn.fspec with remotePath := path.take strSize }
      let fg := (conn.fg.download conn.sspec fspec true .failed ⟨0, 0⟩).1
      .ok ((b.setTasks conn.sspec.httpHostname { tasks with pending := pending }).setConn c
        { conn with
          fg := fg
          fspec := fspec
          download := some (conn.sspec.httpHostname, path) },
        true)

/-- The loop of `browser_start_tasks` for a host, over its pending paths. -/
def startTasks (hostname : Bytes) :
    List Bytes → Browser → List Dial → Except PluginFault (Browser × List Dial)
  | [], b, dials => .ok (b, dials)
  | path :: pending, b, dials =>
    match b.tasks hostname with
    | none => .error .nullTasks
    | some tasks =>
      if tasks.running < b.maxConcurrentDownloads then
        match dials with
        | [] => .error .environment
        | dial :: dials =>
          let c := b.nextConn
          match b.prepareFilegetter env { host := hostname, port := ascii "80" } b.socksProxy path
              (some (hostname, path)) dial with
          | .error f => .error f
          | .ok b =>
            startTasks hostname pending ((b.insert c).setTasks hostname
              { tasks with running := tasks.running + 1, pending := pending }) dials
      else .ok (b, dials)

/-- `g_hash_table_foreach(b->download_tasks, browser_start_tasks, b)`, over the hosts in some
order. -/
def startAllTasks : List Bytes → Browser → List Dial → Except PluginFault Browser
  | [], b, _ => .ok b
  | hostname :: hostnames, b, dials =>
    match b.tasks hostname with
    | none => .error .nullTasks
    | some tasks =>
      match b.startTasks env hostname tasks.pending dials with
      | .error f => .error f
      | .ok (b, dials) => startAllTasks hostnames b dials

/-- `browser_downloaded_document` -/
def downloadedDocument (c : ConnId) (dials : List Dial) : Except PluginFault Browser :=
  let queuedBefore := b.queued.length
  match b.getEmbeddedObjects env c with
  | .error f => .error f
  | .ok b =>
    let objCount := b.queued.length - queuedBefore
    match b.reuseConnection c with
    | .error f => .error f
    | .ok (b, reused) =>
      let found := if reused then
          (b.tasks b.firstHostname).map fun tasks =>
            b.setTasks b.firstHostname { tasks with running := 1 }
        else some (b.steal (b.sockd c))
      match found with
      | none => .error .nullTasks
      | some b =>
        if objCount = 0 then .ok { b with state := .success }
        else
          let hosts := env.foreachOrder (b.downloadTasks.map Prod.fst)
          { b with state := .embeddedObjects }.startAllTasks env hosts.1 dials

/-- `browser_downloaded_object` -/
def downloadedObject (c : ConnId) : Except PluginFault Browser :=
  match b.reuseConnection c with
  | .error f => .error f
  | .ok (b, true) => .ok b
  | .ok (b, false) => .ok (b.remove (b.sockd c))

/-- `browser_free`, as far as it frees. -/
def free : Browser :=
  { b.connections.foldl (fun b entry => b.shutdownConnection entry.value) b with
    connections := []
    freed := true }

/-! ## Activations -/

/-- The case `SB_DOCUMENT` of `browser_activate`. -/
def activateDocument (sockfd : Int) (c : ConnId) (code : GetterCode) (dials : List Dial) :
    Except PluginFault Browser :=
  if code = .ok200 then b.downloadedDocument env c dials
  else if code = .err404 then .ok { b with state := .notFound }
  else if code = .errFatal ∨ code = .errSocksconn then
    .ok { (b.steal (b.sockd c)).shutdownConnection c with
      state := .hibernate
      wakeups := b.wakeups + 1 }
  else if code ≠ .errWouldblock then
    .ok { (b.steal sockfd).shutdownConnection c with state := .failure }.free
  else .ok b

/-- The download of the connection has ended. -/
def outcome (c : ConnId) (code : GetterCode) : Browser :=
  let conn := b.conn c
  { b.setConn c { conn with download := none } with
    outcomes := b.outcomes ++ conn.download.toList.map fun object => (object, code) }

/-- The case `SB_EMBEDDED_OBJECTS` of `browser_activate`, up to the check for connections. -/
def activateEmbedded (sockfd : Int) (c : ConnId) (code : GetterCode) : Except PluginFault Browser :=
  if code = .ok200 then (b.outcome c code).downloadedObject c
  else if code = .err404 then
    match (b.outcome c code).reuseConnection c with
    | .error f => .error f
    | .ok (b, true) => .ok b
    | .ok (b, false) => .ok (b.remove sockfd)
  else if code ≠ .errWouldblock then
    .ok (((b.outcome c code).steal sockfd).shutdownConnection c)
  else .ok b

/-- The part of `browser_activate` behind `filegetter_activate`. -/
def activated (sockfd : Int) (c : ConnId) (code : GetterCode) (dials : List Dial) :
    Except PluginFault Browser :=
  match b.state with
  | .document => b.activateDocument env sockfd c code dials
  | .embeddedObjects =>
    match b.activateEmbedded sockfd c code with
    | .error f => .error f
    | .ok b => .ok (if b.connections = [] then { b with state := .success } else b)
  | _ => .ok b

/-- `browser_activate` -/
def activate (sockfd : Int) (getter : GetterEvent) (dials : List Dial) :
    Except PluginFault Browser :=
  if b.freed then .error .freed
  else match b.lookup sockfd with
  | none => .ok b
  | some entry =>
    let c := entry.value
    if ¬Possible getter then .error .environment
    else match (b.conn c).fg.activate getter with
    | .error f => .error (.getter f)
    | .ok (fg, code) =>
      if ¬b.Free c fg.sockd then .error .environment
      else (b.setFg c fg).activated env sockfd c code dials

/-- `browser_wakeup` -/
def wakeup (dial : Dial) : Except PluginFault Browser :=
  let c := b.docConn
  let conn := b.conn c
  let b := { b with wakeups := b.wakeups - 1 }
  if ¬b.CanDial c dial.connection then .error .environment
  else
    let fg := (Filegetter.start.download conn.sspec conn.fspec true dial.connection dial.now).1
    .ok { (b.setFg c fg).insert c with state := .document }

/-- One step. A callback that is not scheduled does not happen. -/
def step (b : Browser) : PluginEvent → Except PluginFault Browser
  | .activate sockfd getter dials => b.activate env sockfd getter dials
  | .wakeup dial => if b.wakeups = 0 then .ok b else b.wakeup dial

/-- `browser_launch` -/
def launch (httpServer socksProxy : ServerArgs) (maxConcurrentDownloads documentPath : Bytes)
    (dial : Dial) : Except PluginFault Browser :=
  let b : Browser :=
    { state := .document
      firstHostname := httpServer.host
      socksProxy := socksProxy
      downloadTasks := []
      connections := []
      maxConcurrentDownloads := atoi maxConcurrentDownloads
      docConn := 0
      conn := fun _ => noConnection
      nextConn := 0
      wakeups := 0
      freed := false
      queued := []
      outcomes := []
      replaced := [] }
  match (b.initHost env httpServer.host).prepareFilegetter env httpServer socksProxy documentPath
    none
      dial with
  | .error f => .error f
  | .ok b => .ok (b.insert 0)

end Browser

end ShadowExtras.BrowserPlugin
