import ShadowExtras.Browser.Connections
import ShadowExtras.Foundation.Fallible

/-!
# The keys of the table of connections

An entry of `b->connections` is found as long as its connection has the socket that it was inserted
with. `filegetter_activate` changes the socket when the peer closes the connection, when an I/O call
fails and when the proxy names an address, and the entry is left in the table. A connect that fails
inserts a connection without socket. The table stays keyed by live sockets along the runs in which
neither happens.
-/

namespace ShadowExtras.BrowserPlugin

open Foundation FileTransfer

namespace Browser

variable {env : Env} {b b' : Browser} {c : ConnId} {conn : Connection} {sockfd : Int}

/-- `b->connections` is keyed by live sockets. -/
structure LiveTable (b : Browser) : Prop where
  /-- Every entry is stored under the present socket of its connection, which was not shut down. -/
  entries : ∀ e ∈ b.connections, e.hash = b.sockd e.key ∧ e.key = e.value ∧ b.sockd e.value ≠ 0 ∧
    (b.conn e.value).fg.state ≠ .idle
  /-- No insertion has replaced another live connection. -/
  replaced : b.replaced = []

instance (b : Browser) : Decidable b.LiveTable :=
  decidable_of_iff ((∀ e ∈ b.connections, e.hash = b.sockd e.key ∧ e.key = e.value ∧
    b.sockd e.value ≠ 0 ∧ (b.conn e.value).fg.state ≠ .idle) ∧ b.replaced = [])
    ⟨fun h => ⟨h.1, h.2⟩, fun h => ⟨h.1, h.2⟩⟩

/-- The getter keeps its socket, and every connect succeeds. -/
def SocketsStay (b : Browser) : PluginEvent → Prop
  | .wakeup dial => dial.connection ≠ .failed
  | .activate sockfd getter dials => (∀ dial ∈ dials, dial.connection ≠ .failed) ∧
    match b.lookup sockfd with
    | none => True
    | some n =>
      match (b.conn n.value).fg.activate getter with
      | .error _ => True
      | .ok (fg, _) => fg.sockd = sockfd

instance (b : Browser) (e : PluginEvent) : Decidable (b.SocketsStay e) := by
  match e with
  | .wakeup dial => exact inferInstanceAs (Decidable (dial.connection ≠ .failed))
  | .activate sockfd getter dials =>
    refine @instDecidableAnd _ _ inferInstance ?_
    match b.lookup sockfd with
    | none => exact instDecidableTrue
    | some n =>
      dsimp only
      match (b.conn n.value).fg.activate getter with
      | .error _ => exact instDecidableTrue
      | .ok (fg, _) => exact inferInstanceAs (Decidable (fg.sockd = sockfd))

/-! ## The operations on the table -/

/-- Every entry is found under the socket of its connection. -/
structure Live (b : Browser) : Prop where
  sockets : b.Sockets
  keyed : HashTable.Keyed b.sockd b.connections
  nonzero : ∀ e ∈ b.connections, e.hash ≠ 0

/-- A live connection has its own entry. -/
theorem Live.key_eq (h : b.Live) {e : Entry ConnId ConnId Int} (he : e ∈ b.connections) :
    e.key = e.value := by
  rcases h.sockets.keys e he with hkey | ⟨hzero, -⟩
  · exact hkey
  · exact absurd hzero (h.nonzero e he)

/-- The table of live connections is right when no entry was replaced. -/
theorem Live.liveTable (h : b.Live) (hreplaced : b.replaced = []) : b.LiveTable where
  entries := by
    intro e he
    have hkey := h.key_eq he
    have hhash := h.keyed.hash e he
    have hne : b.sockd e.value ≠ 0 := by
      rw [← hkey, ← hhash]
      exact h.nonzero e he
    have hsound := h.sockets.sound e.value (h.sockets.values e he)
    exact ⟨hhash, hkey, hne, (hsound.established hne).state⟩
  replaced := hreplaced

/-- What is live depends on the connections and the table. -/
theorem Live.congr (h : b.Live) (hconn : b'.conn = b.conn) (hnext : b'.nextConn = b.nextConn)
    (hconnections : b'.connections = b.connections) : b'.Live where
  sockets := h.sockets.congr hconn hnext (hconnections ▸ List.Subset.refl _)
  keyed := by
    rw [hconnections]
    refine h.keyed.congr fun e _ => ?_
    rw [sockd, sockd, hconn]
  nonzero := by
    rw [hconnections]
    exact h.nonzero

/-- An empty table is live. -/
theorem Live.of_empty (h : b.Sockets) (hempty : b.connections = []) : b.Live where
  sockets := h
  keyed := by
    rw [hempty]
    exact HashTable.keyed_nil
  nonzero := by simp [hempty]

/-- A connection changes, but not its socket. -/
theorem Live.setConn_same (h : b.Live) (hc : c < b.nextConn) (hsound : conn.Sound)
    (hsame : conn.fg.sockd = b.sockd c) : (b.setConn c conn).Live where
  sockets := h.sockets.setConn_same hc hsound hsame
  keyed := by
    refine h.keyed.congr fun e _ => ?_
    rw [sockd_setConn]
    split
    · rename_i heq
      rw [heq, hsame]
    · rfl
  nonzero := h.nonzero

/-- Stealing an entry keeps the others live. -/
theorem Live.steal (h : b.Live) (sockfd : Int) : (b.steal sockfd).Live where
  sockets := h.sockets.steal sockfd
  keyed := h.keyed.remove sockfd
  nonzero := fun e he => h.nonzero e (HashTable.mem_of_mem_remove he)

/-- The connection whose socket was taken out of the table is shut down. -/
theorem Live.steal_shutdown (h : b.Live) (hc : c < b.nextConn) (hsockd : b.sockd c = sockfd) :
    ((b.steal sockfd).shutdownConnection c).Live where
  sockets := (h.steal sockfd).sockets.shutdownConnection hc
  keyed := by
    refine (h.steal sockfd).keyed.congr fun e he => ?_
    rw [sockd_shutdownConnection, if_neg]
    rintro rfl
    exact h.keyed.ne_of_mem_remove he hsockd
  nonzero := (h.steal sockfd).nonzero

/-- Removing an entry keeps the others live. -/
theorem Live.remove (h : b.Live) (sockfd : Int) : (b.remove sockfd).Live := by
  unfold Browser.remove
  split
  · exact h
  · rename_i entry hlookup
    obtain ⟨hmem, -, hread⟩ := HashTable.mem_of_lookup hlookup
    refine h.steal_shutdown (h.sockets.values entry hmem) ?_
    rw [← h.key_eq hmem]
    exact hread

/-- A connection whose socket no entry has is inserted. -/
theorem Live.insert (h : b.Live) (hc : c < b.nextConn) (hne : b.sockd c ≠ 0)
    (hfresh : ∀ e ∈ b.connections, b.sockd e.key ≠ b.sockd c) :
    (b.insert c).Live ∧ (b.insert c).replaced = b.replaced := by
  have hinsert := insert_of_fresh fun e he _ => hfresh e he
  have hsockets := h.sockets.insert hc
  have hkeyed : HashTable.Keyed b.sockd (HashTable.insert b.sockd b.connections c c) :=
    h.keyed.insert hfresh
  rw [HashTable.insert_of_forall fun e he _ => hfresh e he] at hkeyed
  rw [hinsert] at hsockets ⊢
  refine ⟨⟨hsockets, hkeyed, ?_⟩, by simp⟩
  intro e he
  rcases List.mem_append.mp he with he | he
  · exact h.nonzero e he
  · rw [List.mem_singleton.mp he]
    exact hne

/-! ## Starting downloads -/

/-- A connection that is allocated keeps the table live. -/
theorem Live.allocated {hostname : Bytes} {object : Option Object} {dial : Dial} (h : b.Live)
    (hconn : b.Prepared hostname object dial conn) : (b.allocated conn).Live where
  sockets := h.sockets.allocated hconn
  keyed := by
    refine h.keyed.congr fun e he => ?_
    rw [sockd_allocated, if_neg]
    rw [h.key_eq he]
    exact ne_of_lt (h.sockets.values e he)
  nonzero := h.nonzero

/-- A new connection with a socket is inserted. -/
theorem Live.insert_allocated {hostname : Bytes} {object : Option Object} {dial : Dial} (h : b.Live)
    (hconn : b.Prepared hostname object dial conn) (hdial : dial.connection ≠ .failed) :
    ((b.allocated conn).insert b.nextConn).Live ∧
      ((b.allocated conn).insert b.nextConn).replaced = b.replaced := by
  have hsockd : (b.allocated conn).sockd b.nextConn = conn.fg.sockd := by
    rw [sockd_allocated, if_pos rfl]
  have hne := hconn.connected hdial
  refine (h.allocated hconn).insert (Nat.lt_succ_self _) (by rw [hsockd]; exact hne) fun e he => ?_
  have hlt := h.sockets.values e he
  rw [hsockd, sockd_allocated, h.key_eq he, if_neg (ne_of_lt hlt)]
  exact (hconn.free.resolve_left hne).2 e.value hlt (ne_of_lt hlt)

/-- What starting downloads leaves as it was. -/
structure Grown (b b' : Browser) : Prop where
  live : b'.Live
  replaced : b'.replaced = b.replaced
  docConn : b'.docConn = b.docConn
  nextConn : b.nextConn ≤ b'.nextConn
  state : b'.state = b.state
  wakeups : b'.wakeups = b.wakeups

/-- Two growths are one. -/
theorem Grown.trans {b'' : Browser} (h : b.Grown b') (h' : b'.Grown b'') : b.Grown b'' where
  live := h'.live
  replaced := h'.replaced.trans h.replaced
  docConn := h'.docConn.trans h.docConn
  nextConn := h.nextConn.trans h'.nextConn
  state := h'.state.trans h.state
  wakeups := h'.wakeups.trans h.wakeups

theorem Live.grown_self (h : b.Live) : b.Grown b := by
  constructor <;> first | exact h | rfl

/-- A started connection is a new entry. -/
theorem Live.grown_started {hostname path : Bytes} {dial : Dial} (h : b.Live)
    (hconn : b.Prepared hostname (some (hostname, path)) dial conn)
    (hdial : dial.connection ≠ .failed) (tasks : Tasks) :
    b.Grown (b.started hostname tasks conn) := by
  obtain ⟨hlive, hreplaced⟩ := h.insert_allocated hconn hdial
  obtain ⟨downloadTasks, connections, conns, replaced, hstarted⟩ := started_eq b hostname tasks conn
  constructor
  · apply hlive.congr <;> rfl
  · exact hreplaced
  · rw [hstarted]
  · rw [hstarted]
    exact Nat.le_succ _
  · rw [hstarted]
  · rw [hstarted]

/-- `browser_start_tasks` inserts live connections. -/
theorem Live.startTasks {hostname : Bytes} {pending : List Bytes} {dials dials' : List Dial}
    (h : b.Live) (hdials : ∀ dial ∈ dials, dial.connection ≠ .failed)
    (hstep : b.startTasks env hostname pending dials = .ok (b', dials')) :
    b.Grown b' ∧ ∀ dial ∈ dials', dial.connection ≠ .failed := by
  induction pending generalizing b dials with
  | nil =>
    obtain ⟨rfl, rfl⟩ := Prod.mk.inj (Except.ok.inj hstep)
    exact ⟨h.grown_self, hdials⟩
  | cons path pending ih =>
    cases htasks : b.tasks hostname with
    | none =>
      unfold Browser.startTasks at hstep
      rw [htasks] at hstep
      cases hstep
    | some tasks =>
      rcases startTasks_cons_eq_ok htasks hstep with
        ⟨-, heq⟩ | ⟨dial, rest, conn, rfl, hconn, hrest⟩
      · obtain ⟨rfl, rfl⟩ := Prod.mk.inj heq
        exact ⟨h.grown_self, hdials⟩
      · have hgrown := h.grown_started hconn (hdials dial (by simp))
          { tasks with running := tasks.running + 1, pending := pending }
        obtain ⟨hgrown', hdials'⟩ := ih hgrown.live
          (fun dial hdial => hdials dial (List.mem_cons_of_mem _ hdial)) hrest
        exact ⟨hgrown.trans hgrown', hdials'⟩

/-- The first downloads of all hosts are new entries. -/
theorem Live.startAllTasks {hostnames : List Bytes} {dials : List Dial} (h : b.Live)
    (hdials : ∀ dial ∈ dials, dial.connection ≠ .failed)
    (hstep : b.startAllTasks env hostnames dials = .ok b') : b.Grown b' := by
  induction hostnames generalizing b dials with
  | nil =>
    obtain rfl := Except.ok.inj hstep
    exact h.grown_self
  | cons hostname hostnames ih =>
    unfold Browser.startAllTasks at hstep
    split at hstep
    · cases hstep
    · split at hstep
      · cases hstep
      · rename_i b₁ dials₁ hstart
        obtain ⟨hgrown, hdials₁⟩ := h.startTasks hdials hstart
        exact hgrown.trans (ih hgrown.live hdials₁ hstep)

/-! ## Steps -/

/-- What every step keeps that lets the sockets stay. -/
structure LiveRun (b : Browser) : Prop where
  live : b.Live
  replaced : b.replaced = []
  docConn : b.docConn < b.nextConn
  document : b.state = .document → ∀ e ∈ b.connections, e.value = b.docConn
  hibernate : b.state = .hibernate → b.connections = []
  wakeups : b.wakeups = 0 ∨ b.wakeups = 1 ∧ b.state = .hibernate

/-- `browser_reuse_connection` keeps the sockets. -/
theorem Live.reuseConnection {reused : Bool} (h : b.Live) (hc : c < b.nextConn)
    (hestablished : (b.conn c).fg.Established) (hstep : b.reuseConnection c = .ok (b', reused)) :
    b.Grown b' ∧ b'.connections = b.connections ∧ b'.sockd c = b.sockd c := by
  obtain ⟨tasks, -, ⟨-, -, rfl⟩ | ⟨path, pending, conn, -, -, rfl, hsound, hsockd, -, -⟩⟩ :=
    h.sockets.reuseConnection_eq_ok hc hestablished hstep
  · exact ⟨h.grown_self, rfl, rfl⟩
  · have h₁ : (b.setTasks (b.host c) { tasks with pending := pending }).Live := by
      apply h.congr <;> rfl
    refine ⟨⟨h₁.setConn_same hc hsound hsockd, ?_, ?_, le_rfl, ?_, ?_⟩, ?_, ?_⟩
    · simp [Browser.setConn, Browser.setTasks]
    · simp [Browser.setConn, Browser.setTasks]
    · simp [Browser.setConn, Browser.setTasks]
    · simp [Browser.setConn, Browser.setTasks]
    · simp [Browser.setConn, Browser.setTasks]
    · rw [sockd_setConn, if_pos rfl, hsockd]

/-- `browser_downloaded_document` ends in a state in which the document is complete. -/
theorem Live.downloadedDocument {dials : List Dial} (h : b.Live) (hc : c < b.nextConn)
    (hestablished : (b.conn c).fg.Established) (hdials : ∀ dial ∈ dials, dial.connection ≠ .failed)
    (hstep : b.downloadedDocument env c dials = .ok b') :
    ∃ state, (state = .success ∨ state = .embeddedObjects) ∧
    Grown { b with state := state } b' := by
  unfold Browser.downloadedDocument at hstep
  dsimp only at hstep
  split at hstep
  · cases hstep
  · rename_i b₁ hobjects
    obtain ⟨downloadTasks, queued, rfl⟩ := getEmbeddedObjects_eq_ok hobjects
    have h₁ : Live { b with downloadTasks := downloadTasks, queued := queued } := by
      apply h.congr <;> rfl
    split at hstep
    · cases hstep
    · rename_i b₂ reused hreuse
      obtain ⟨hgrown₂, -, -⟩ := h₁.reuseConnection hc hestablished hreuse
      split at hstep
      · cases hstep
      · rename_i b₃ hfound
        have hgrown₃ : Grown b₂ b₃ := by
          split at hfound
          · obtain ⟨tasks, -, rfl⟩ := Option.map_eq_some_iff.mp hfound
            refine ⟨?_, ?_, ?_, le_rfl, ?_, ?_⟩
            · apply hgrown₂.live.congr <;> rfl
            · rfl
            · rfl
            · rfl
            · rfl
          · obtain rfl := Option.some.inj hfound
            exact ⟨hgrown₂.live.steal _, rfl, rfl, le_rfl, rfl, rfl⟩
        obtain ⟨hlive, hreplaced, hdocConn, hnextConn, -, hwakeups⟩ := hgrown₂.trans hgrown₃
        split at hstep
        · obtain rfl := Except.ok.inj hstep
          refine ⟨.success, .inl rfl, ?_, hreplaced, hdocConn, hnextConn, rfl, hwakeups⟩
          apply hlive.congr <;> rfl
        · have hembedded : Live { b₃ with state := .embeddedObjects } := by
            apply hlive.congr <;> rfl
          obtain ⟨hlive', hreplaced', hdocConn', hnextConn', hstate, hwakeups'⟩ :=
            hembedded.startAllTasks hdials hstep
          exact ⟨.embeddedObjects, .inr rfl, hlive', hreplaced'.trans hreplaced,
            hdocConn'.trans hdocConn, hnextConn.trans hnextConn', hstate, hwakeups'.trans hwakeups⟩

/-- The case `SB_EMBEDDED_OBJECTS` of `browser_activate`. -/
theorem Live.activateEmbedded {code : GetterCode} (h : b.Live) (hc : c < b.nextConn)
    (hsockd : b.sockd c = sockfd) (hestablished : (b.conn c).fg.Established)
    (hstep : b.activateEmbedded sockfd c code = .ok b') : b.Grown b' := by
  have houtcome : (b.outcome c code).Live := by
    have hsound := h.sockets.sound c hc
    have hset : (b.setConn c { b.conn c with download := none }).Live :=
      h.setConn_same hc ⟨hsound.persistent, hsound.doSave, hsound.established⟩ rfl
    apply hset.congr <;> rfl
  have hsockd' : (b.outcome c code).sockd c = sockfd := by
    simp [outcome, sockd, Browser.setConn] at hsockd ⊢
    exact hsockd
  have hestablished' : ((b.outcome c code).conn c).fg.Established := by
    simpa [outcome, Browser.setConn] using hestablished
  have hgrown : b.Grown (b.outcome c code) := ⟨houtcome, rfl, rfl, le_rfl, rfl, rfl⟩
  have hremove : ∀ {b₁ : Browser} (k : Int), b.Grown b₁ → b.Grown (b₁.remove k) := by
    intro b₁ k h₁
    refine h₁.trans ⟨h₁.live.remove k, ?_, ?_, ?_, ?_, ?_⟩
    all_goals
      unfold Browser.remove
      split <;> rfl
  unfold Browser.activateEmbedded at hstep
  split at hstep
  · unfold downloadedObject at hstep
    split at hstep
    · cases hstep
    · rename_i b₁ hreuse
      obtain rfl := Except.ok.inj hstep
      exact hgrown.trans (houtcome.reuseConnection hc hestablished' hreuse).1
    · rename_i b₁ hreuse
      obtain rfl := Except.ok.inj hstep
      exact hremove _ (hgrown.trans (houtcome.reuseConnection hc hestablished' hreuse).1)
  · split at hstep
    · split at hstep
      · cases hstep
      · rename_i b₁ hreuse
        obtain rfl := Except.ok.inj hstep
        exact hgrown.trans (houtcome.reuseConnection hc hestablished' hreuse).1
      · rename_i b₁ hreuse
        obtain rfl := Except.ok.inj hstep
        exact hremove _ (hgrown.trans (houtcome.reuseConnection hc hestablished' hreuse).1)
    · split at hstep
      · obtain rfl := Except.ok.inj hstep
        exact hgrown.trans ⟨houtcome.steal_shutdown hc hsockd', rfl, rfl, le_rfl, rfl, rfl⟩
      · obtain rfl := Except.ok.inj hstep
        exact h.grown_self

/-- Only a browser that hibernates is to be woken up. -/
theorem LiveRun.wakeups_eq_zero (h : b.LiveRun) (hstate : b.state ≠ .hibernate) :
    b.wakeups = 0 := by
  rcases h.wakeups with hzero | ⟨-, hhibernate⟩
  · exact hzero
  · exact absurd hhibernate hstate

/-- The browser goes to a state behind the document. -/
theorem LiveRun.of_grown {state : BrowserState} (h : b.LiveRun) (hstate : b.state ≠ .hibernate)
    (hdocument : state ≠ .document) (hhibernate : state ≠ .hibernate)
    (hgrown : Grown { b with state := state } b') : b'.LiveRun where
  live := hgrown.live
  replaced := hgrown.replaced.trans h.replaced
  docConn := by
    rw [hgrown.docConn]
    exact h.docConn.trans_le hgrown.nextConn
  document := fun heq => absurd (hgrown.state.symm.trans heq) hdocument
  hibernate := fun heq => absurd (hgrown.state.symm.trans heq) hhibernate
  wakeups := by
    rw [hgrown.wakeups]
    exact .inl (h.wakeups_eq_zero hstate)

/-- An activation for the document keeps the table live. -/
theorem LiveRun.activateDocument {n : Entry ConnId ConnId Int} {code : GetterCode}
    {dials : List Dial} (h : b.LiveRun) (hstate : b.state = .document) (hmem : n ∈ b.connections)
    (hsockd : b.sockd n.value = sockfd) (hestablished : (b.conn n.value).fg.Established)
    (hdials : ∀ dial ∈ dials, dial.connection ≠ .failed)
    (hstep : b.activateDocument env sockfd n.value code dials = .ok b') : b'.LiveRun := by
  have hc := h.live.sockets.values n hmem
  have hawake : b.state ≠ .hibernate := by simp [hstate]
  have hshutdown := h.live.steal_shutdown hc hsockd
  -- every entry is that of the document, so that no other one is left
  have hnone : (b.steal sockfd).connections = [] := by
    apply List.eq_nil_iff_forall_not_mem.mpr
    intro e he
    have hne := h.live.keyed.ne_of_mem_remove he
    have hold := HashTable.mem_of_mem_remove he
    rw [h.live.key_eq hold, h.document hstate e hold, ← h.document hstate n hmem] at hne
    exact hne hsockd
  unfold Browser.activateDocument at hstep
  split at hstep
  · obtain ⟨state, hended, hgrown⟩ := h.live.downloadedDocument hc hestablished hdials hstep
    apply h.of_grown hawake ?_ ?_ hgrown
    · rcases hended with rfl | rfl <;> simp
    · rcases hended with rfl | rfl <;> simp
  · split at hstep
    · obtain rfl := Except.ok.inj hstep
      refine ⟨?_, h.replaced, h.docConn, by simp, by simp, .inl (h.wakeups_eq_zero hawake)⟩
      apply h.live.congr <;> rfl
    · split at hstep
      · obtain rfl := Except.ok.inj hstep
        rw [hsockd]
        refine ⟨?_, h.replaced, h.docConn, by simp, fun _ => hnone, .inr ⟨?_, rfl⟩⟩
        · apply hshutdown.congr <;> rfl
        · simp [h.wakeups_eq_zero hawake]
      · split at hstep
        · obtain rfl := Except.ok.inj hstep
          obtain ⟨conn, hfree, -, hsockets⟩ := Sockets.free
            (b := { (b.steal sockfd).shutdownConnection n.value with state := .failure }) (by
              refine hshutdown.sockets.congr ?_ ?_ (List.Subset.refl _)
              · rfl
              · rfl)
          constructor
          · apply Live.of_empty hsockets
            rw [hfree]
          · rw [hfree]
            exact h.replaced
          · rw [hfree]
            exact h.docConn
          · simp [hfree]
          · simp [hfree]
          · rw [hfree]
            exact .inl (h.wakeups_eq_zero hawake)
        · obtain rfl := Except.ok.inj hstep
          exact h

/-- An activation keeps the sockets, if the getter keeps its own. -/
theorem LiveRun.activate {getter : GetterEvent} {dials : List Dial} (h : b.LiveRun)
    (hstay : b.SocketsStay (.activate sockfd getter dials))
    (hstep : b.activate env sockfd getter dials = .ok b') : b'.LiveRun := by
  obtain ⟨-, ⟨-, rfl⟩ | ⟨n, fg, code, hact, hactivated⟩⟩ := h.live.sockets.activate_eq_ok hstep
  · exact h
  · obtain ⟨hdials, hsame⟩ := hstay
    rw [hact.lookup] at hsame
    dsimp only at hsame
    rw [hact.activate] at hsame
    have hsame : fg.sockd = sockfd := hsame
    have hcode : code ≠ .errFatal := by
      rcases hact.ends with ⟨-, hclosed⟩ | ⟨hcode, -⟩
      · exact absurd (hsame.symm.trans hclosed.sockd) hact.nonzero
      · exact hcode
    have hestablished := hact.established hcode
    have hc : n.value < b.nextConn := h.live.sockets.values n hact.mem
    have hlive : (b.setFg n.value fg).Live := by
      refine h.live.setConn_same hc ?_ (hsame.trans hact.sockd.symm)
      simpa [setFg, Browser.setConn] using hact.sockets.sound n.value hc
    have hrun : (b.setFg n.value fg).LiveRun :=
      ⟨hlive, h.replaced, h.docConn, h.document, h.hibernate, h.wakeups⟩
    have hsockd : (b.setFg n.value fg).sockd n.value = sockfd := by
      rw [sockd_setFg, if_pos rfl]
      exact hsame
    unfold activated at hactivated
    split at hactivated
    · rename_i hstate
      exact hrun.activateDocument hstate hact.mem hsockd hestablished hdials hactivated
    · rename_i hstate
      split at hactivated
      · cases hactivated
      · rename_i b₂ hembedded
        have hgrown := hrun.live.activateEmbedded hc hsockd hestablished hembedded
        have hstate₂ : b₂.state = .embeddedObjects := hgrown.state.trans hstate
        have hrun₂ : b₂.LiveRun := by
          have hgrown' : Grown { b.setFg n.value fg with state := .embeddedObjects } b₂ :=
            ⟨hgrown.live, hgrown.replaced, hgrown.docConn, hgrown.nextConn, hstate₂, hgrown.wakeups⟩
          exact hrun.of_grown (by simp [hstate]) (by simp) (by simp) hgrown'
        obtain rfl := Except.ok.inj hactivated
        split
        · refine ⟨?_, hrun₂.replaced, hrun₂.docConn, by simp, by simp, .inl ?_⟩
          · apply hrun₂.live.congr <;> rfl
          · exact hrun₂.wakeups_eq_zero (by simp [hstate₂])
        · exact hrun₂
    · obtain rfl := Except.ok.inj hactivated
      exact hrun

/-- `browser_wakeup` finds the table empty, and inserts the connection for the document. -/
theorem LiveRun.wakeup {dial : Dial} (h : b.LiveRun) (hwakeups : b.wakeups ≠ 0)
    (hdial : dial.connection ≠ .failed) (hstep : b.wakeup dial = .ok b') : b'.LiveRun := by
  obtain ⟨hone, hstate⟩ := h.wakeups.resolve_left hwakeups
  have hempty := h.hibernate hstate
  have hsound := h.live.sockets.sound b.docConn h.docConn
  unfold Browser.wakeup at hstep
  dsimp only at hstep
  split at hstep
  · cases hstep
  · rename_i hcan
    simp only [not_not] at hcan
    obtain ⟨b₁, hb₁⟩ : ∃ b₁ : Browser,
        b₁ = Browser.setFg { b with wakeups := b.wakeups - 1 } b.docConn
          (Filegetter.start.download (b.conn b.docConn).sspec (b.conn b.docConn).fspec true
            dial.connection dial.now).1 := ⟨_, rfl⟩
    rw [← hb₁] at hstep
    have hpos : ∀ sockd incoming, dial.connection = .connected sockd incoming → 0 < sockd := by
      intro sockd incoming hconnected
      rw [hconnected] at hcan
      exact (hcan.2.resolve_left hcan.1).1
    obtain ⟨hfailed, -⟩ | ⟨sockd, incoming, hconnected, hsockd, hestablished⟩ :=
      Filegetter.download_start (b.conn b.docConn).sspec (b.conn b.docConn).fspec dial.connection
        dial.now hsound.persistent hsound.doSave hpos
    · exact absurd hfailed hdial
    · rw [hconnected] at hcan
      have hempty₁ : b₁.connections = [] := by
        rw [hb₁]
        exact hempty
      have hdocConn₁ : b.docConn < b₁.nextConn := by
        rw [hb₁]
        exact h.docConn
      have hsockd₁ : b₁.sockd b.docConn = sockd := by
        rw [hb₁, sockd_setFg, if_pos rfl]
        exact hsockd
      have hlive : b₁.Live := by
        apply Live.of_empty ?_ hempty₁
        have hsockets : Sockets { b with wakeups := b.wakeups - 1 } := by
          refine h.live.sockets.congr ?_ ?_ (List.Subset.refl _)
          · rfl
          · rfl
        rw [hb₁]
        refine hsockets.setConn h.docConn ⟨hsound.persistent, hsound.doSave,
          fun _ => hestablished⟩ ?_ ?_
        · rw [hsockd]
          exact hcan.2
        · intro e he
          rw [hempty] at he
          cases he
      obtain ⟨hinserted, hreplaced⟩ := hlive.insert hdocConn₁ (by rw [hsockd₁]; exact hcan.1)
        (by simp [hempty₁])
      have hinsert : b₁.insert b.docConn = { b₁ with
          connections := b₁.connections ++
            [{ hash := b₁.sockd b.docConn, key := b.docConn, value := b.docConn }] } :=
        insert_of_fresh (by simp [hempty₁])
      obtain rfl := Except.ok.inj hstep
      constructor
      · apply hinserted.congr <;> rfl
      · rw [hreplaced, hb₁]
        exact h.replaced
      · rw [hinsert, hb₁]
        exact h.docConn
      · intro _ e he
        rw [hinsert, hempty₁] at he
        obtain rfl := List.mem_singleton.mp he
        rw [hinsert, hb₁]
        rfl
      · simp
      · refine .inl ?_
        rw [hinsert, hb₁]
        simp [setFg, Browser.setConn, hone]

/-- A step keeps the sockets, if the getter keeps its own and every connect succeeds. -/
theorem LiveRun.step {e : PluginEvent} (h : b.LiveRun) (hstay : b.SocketsStay e)
    (hstep : b.step env e = .ok b') : b'.LiveRun := by
  cases e with
  | activate sockfd getter dials => exact h.activate hstay hstep
  | wakeup dial =>
    unfold Browser.step at hstep
    dsimp only at hstep
    split at hstep
    · obtain rfl := Except.ok.inj hstep
      exact h
    · rename_i hwakeups
      exact h.wakeup hwakeups hstay hstep

/-- `browser_launch` inserts the connection for the document. -/
theorem liveRun_launch {httpServer socksProxy : ServerArgs}
    {maxConcurrentDownloads documentPath : Bytes} {dial : Dial} (hdial : dial.connection ≠ .failed)
    (hlaunch : launch env httpServer socksProxy maxConcurrentDownloads documentPath dial = .ok b) :
    b.LiveRun := by
  obtain ⟨b₀, conn, hfresh, hconn, hsockets, rfl⟩ := launch_eq_ok hlaunch
  have hsockd : (b₀.allocated conn).sockd 0 = conn.fg.sockd := by
    rw [sockd_allocated, if_pos hfresh.nextConn.symm]
  constructor
  · refine ⟨hsockets, ⟨fun e he => ?_, List.nodup_singleton _⟩, fun e he => ?_⟩
    · obtain rfl := List.mem_singleton.mp he
      exact hsockd.symm
    · obtain rfl := List.mem_singleton.mp he
      exact hconn.connected hdial
  · exact hfresh.replaced
  · change b₀.docConn < b₀.nextConn + 1
    rw [hfresh.docConn]
    exact Nat.succ_pos _
  · intro _ e he
    obtain rfl := List.mem_singleton.mp he
    exact hfresh.docConn.symm
  · intro hstate
    exact absurd (hfresh.state.symm.trans hstate) (by simp)
  · exact .inl hfresh.wakeups

/-- Along a run in which every getter keeps its socket and every connect succeeds, the table is
keyed by live sockets. -/
theorem liveTable_of_socketsStay {httpServer socksProxy : ServerArgs}
    {maxConcurrentDownloads documentPath : Bytes} {dial : Dial} {es : List PluginEvent}
    (hlaunch : launch env httpServer socksProxy maxConcurrentDownloads documentPath dial = .ok b)
    (hdial : dial.connection ≠ .failed) (hstay : StepsMeet (step env) SocketsStay b es)
    (hvisit : Visits (step env) b es b') : b'.LiveTable := by
  obtain ⟨fs, ⟨gs, rfl⟩, hrun⟩ := hvisit
  have hlive : b'.LiveRun :=
    invariant_of_stepsMeet LiveRun (fun _ _ _ h hstays hstep => h.step hstays hstep)
      (liveRun_launch hdial hlaunch) hstay.of_append hrun
  exact hlive.live.liveTable hlive.replaced

/-- The page is downloaded, and a connection to the other host inserted. -/
theorem liveTable_of_socketsStay_pageDownloaded :
    ∃ b b', launchPage (ascii "0") pageResponse = .ok b ∧
    Visits (step otherHost) b [.activate 3 (answering [.ready 99, .ready 99])
      [{ connection := .connected 4 [], now := ⟨0, 0⟩ }]] b' ∧
    b'.connections = [{ hash := 4, key := 1, value := 1 }] ∧ b'.LiveTable := by
  obtain ⟨es, hes⟩ : ∃ es : List PluginEvent, es = [.activate 3 (answering [.ready 99, .ready 99])
    [{ connection := .connected 4 [], now := ⟨0, 0⟩ }]] := ⟨_, rfl⟩
  have hrun : (launchPage (ascii "0") pageResponse).bind (fun b =>
      (runSteps (step otherHost) b es).map fun b' =>
        (b'.connections, decide (StepsMeet (step otherHost) SocketsStay b es))) =
      .ok ([{ hash := 4, key := 1, value := 1 }], true) := by
    rw [hes]
    decide +kernel
  obtain ⟨b, hlaunch, hrun⟩ := bind_eq_ok.mp hrun
  obtain ⟨b', hb', hends⟩ := map_eq_ok.mp hrun
  obtain ⟨hconnections, hstay⟩ := Prod.mk.inj hends
  have hvisit : Visits (step otherHost) b es b' := ⟨es, List.prefix_refl es, hb'⟩
  rw [← hes]
  exact ⟨b, b', hlaunch, hvisit, hconnections,
    liveTable_of_socketsStay hlaunch (by simp) (of_decide_eq_true hstay) hvisit⟩

/-- The server closes the connection, and the entry of the connection that was shut down is left. -/
theorem not_liveTable_closed : ∃ b b', launchPage (ascii "0") [] = .ok b ∧
    Visits (step otherHost) b [.activate 3 (answering [.ready 99, .closed]) []] b' ∧
    ¬b'.LiveTable := by
  obtain ⟨es, hes⟩ : ∃ es : List PluginEvent, es =
      [.activate 3 (answering [.ready 99, .closed]) []] :=
    ⟨_, rfl⟩
  have hrun : (launchPage (ascii "0") []).bind (fun b =>
      (runSteps (step otherHost) b es).map fun b' => decide b'.LiveTable) = .ok false := by
    rw [hes]
    decide +kernel
  obtain ⟨b, hlaunch, hrun⟩ := bind_eq_ok.mp hrun
  obtain ⟨b', hb', hends⟩ := map_eq_ok.mp hrun
  rw [← hes]
  exact ⟨b, b', hlaunch, ⟨es, List.prefix_refl es, hb'⟩, of_decide_eq_false hends⟩

end Browser

end ShadowExtras.BrowserPlugin
