import ShadowExtras.Browser.Connections
import ShadowExtras.FileTransfer.HostAddress
import ShadowExtras.Foundation.Run

/-!
# Queueing the objects of a page

`browser_get_embedded_objects` goes through the urls of the document and queues each new path at its
host. `url.c` takes an absolute url apart with a regular expression; `url_crack` refuses a url that
does not match it, and then the browser goes on with the host name `NULL`. The expression and the
lower case of a host name are computed by a library. The address of a new host is looked up by
`browser_getaddr`, which ends in a fault if there is none.

`wanted` are the objects that should be queued: those on hosts that can be reached, in the order in
which they occur first. A browser that downloads its document has queued nothing (`Untouched`), so
`queuesOnce_iff_not_malformed` is about every run: about the browser that the getter of the document
leaves to `browser_get_embedded_objects`.
-/

namespace ShadowExtras.BrowserPlugin

open Foundation FileTransfer

/-! ## Urls -/

/-- What the browser takes from libraries. -/
structure Libraries where
  resolver : Resolver
  htmlParse : Bytes → List Bytes
  /-- `g_match_info_fetch_all` for the expression of `url_crack`: the match and its groups, nothing
  if the url does not match. -/
  fetchAll : Bytes → List Bytes
  utf8Strdown : Bytes → Bytes
  /-- The order in which `g_hash_table_foreach` visits the keys. -/
  foreachOrder : (hosts : List Bytes) → { order : List Bytes // order.Perm hosts }

variable (lib : Libraries)

/-- `browser_getaddr`, none if `freeaddrinfo` is called with a pointer that was not set. -/
def browserGetaddr (hostname : Bytes) : Option (Octets 4) :=
  (lib.resolver.inetAton hostname).orElse fun _ => hostnameCallback lib.resolver hostname

/-- `url_crack` -/
def urlCrack (url : Bytes) : Option (List Bytes) :=
  let parts := lib.fetchAll url
  if parts.length < 6 then none else some parts

/-- `url_get_parts` -/
def urlGetParts (url : Bytes) : Option (Bytes × Bytes) :=
  match urlCrack lib url with
  | some (_ :: _ :: hostname :: path :: _) => some (lib.utf8Strdown hostname, path)
  | _ => none

/-- The surroundings of the browser. The address of a host that does not resolve is never used. -/
def Libraries.env : Env where
  getaddr hostname := (browserGetaddr lib hostname).getD (octets 0 0 0 0)
  htmlParse := lib.htmlParse
  urlGetParts := urlGetParts lib
  foreachOrder := lib.foreachOrder

/-- A url that `url_crack` refuses. -/
def Malformed (url : Bytes) : Prop := (lib.fetchAll url).length < 6

/-- A url without parts is malformed. -/
theorem urlGetParts_eq_none_iff (url : Bytes) : urlGetParts lib url = none ↔ Malformed lib url := by
  unfold urlGetParts urlCrack Malformed
  dsimp only
  split_ifs with hshort
  · simp [hshort]
  · simp only [hshort, iff_false]
    rcases hparts : lib.fetchAll url with _ | ⟨a, _ | ⟨b, _ | ⟨c, _ | ⟨d, rest⟩⟩⟩⟩
    all_goals simp [hparts] at hshort
    simp

namespace Browser

/-! ## The loop with its counter -/

variable (lib : Libraries) (env : Env) (b : Browser)

/-- `browser_launch`, which looks up the addresses of the server and of the proxy. -/
def launchResolving (httpServer socksProxy : ServerArgs)
    (maxConcurrentDownloads documentPath : Bytes) (dial : Dial) : Except PluginFault Browser :=
  if browserGetaddr lib httpServer.host = none then .error .unsetPointer
  else match launch lib.env httpServer socksProxy maxConcurrentDownloads documentPath dial with
  | .error f => .error f
  | .ok b => if browserGetaddr lib socksProxy.host = none then .error .unsetPointer else .ok b

/-- The host and the path of a url, none if an absolute url is malformed. -/
def objectOf (url : Bytes) : Option Object :=
  if urlIsAbsolute url then env.urlGetParts url
  else some (b.firstHostname, if (ascii "/").isPrefixOf url then url else ascii "/" ++ url)

/-- Add a path to the tasks of a host. -/
def push (hostname path : Bytes) (tasks : Tasks) : Browser :=
  { b.setTasks hostname { tasks with
      pending := tasks.pending ++ [path]
      added := path :: tasks.added } with
    queued := b.queued ++ [(hostname, path)] }

/-- A host for which `browser_init_host` calls `browser_getaddr` in vain. -/
def Unresolved (hostname : Bytes) :
    Prop := b.tasks hostname = none ∧ browserGetaddr lib hostname = none

instance (hostname : Bytes) : Decidable (b.Unresolved lib hostname) :=
  inferInstanceAs (Decidable (_ ∧ _))

/-- The loop of `browser_get_embedded_objects`, with `obj_count`. -/
def countObjects : List Bytes → Browser × ℕ → Except PluginFault (Browser × ℕ)
  | [], r => .ok r
  | url :: urls, (b, objCount) =>
    match b.objectOf lib.env url with
    | none => .error .nullHost
    | some (hostname, path) =>
      if b.Unresolved lib hostname then .error .unsetPointer
      else
        let b := b.initHost lib.env hostname
        match b.tasks hostname with
        | none => .error .nullTasks
        | some tasks =>
          if tasks.reachable ∧ path ∉ tasks.added then
            countObjects urls (b.push hostname path tasks, objCount + 1)
          else countObjects urls (b, objCount)

/-- The urls that are extracted from the document. -/
def urls (c : ConnId) : List Bytes := env.htmlParse (cString ((b.conn c).fg.content.getD []))

/-- The sets of the paths that were added are destroyed. -/
def forgetAdded : Browser :=
  { b with downloadTasks := b.downloadTasks.map fun p => (p.1, { p.2 with added := [] }) }

/-- `browser_get_embedded_objects`, with the value of `obj_count`. -/
def countEmbeddedObjects (c : ConnId) : Except PluginFault (Browser × ℕ) :=
  (countObjects lib (b.urls lib.env c) (b, 0)).map fun r => (r.1.forgetAdded, r.2)

/-- Where the loop with its counter goes through, so does the loop without it. -/
theorem queueObjects_of_countObjects {lib : Libraries} {b b' : Browser} {urls : List Bytes}
    {objCount objCount' : ℕ} (h : countObjects lib urls (b, objCount) = .ok (b', objCount')) :
    b.queueObjects lib.env urls = .ok b' := by
  induction urls generalizing b objCount with
  | nil =>
    obtain ⟨rfl, -⟩ := Prod.mk.inj (Except.ok.inj h)
    rfl
  | cons url urls ih =>
    unfold countObjects at h
    unfold queueObjects
    change (match b.objectOf lib.env url with
      | none => _
      | some (hostname, path) => _) = _
    cases hobject : b.objectOf lib.env url with
    | none => simp [hobject] at h
    | some object =>
      obtain ⟨hostname, path⟩ := object
      simp only [hobject] at h
      split at h
      · cases h
      · split at h
        · cases h
        · rename_i tasks htasks
          simp only [htasks]
          split at h
          · rename_i hnew
            rw [if_pos hnew]
            exact ih h
          · rename_i hskip
            rw [if_neg hskip]
            exact ih h

/-- Where all hosts resolve, neither the lookups nor the counter change what is queued. -/
theorem getEmbeddedObjects_of_countEmbeddedObjects {lib : Libraries} {b b' : Browser} {c : ConnId}
    {objCount : ℕ} (h : b.countEmbeddedObjects lib c = .ok (b', objCount)) :
    b.getEmbeddedObjects lib.env c = .ok b' := by
  unfold countEmbeddedObjects at h
  cases hloop : countObjects lib (b.urls lib.env c) (b, 0) with
  | error fault => simp [hloop, Except.map] at h
  | ok r =>
    obtain ⟨b₁, objCount₁⟩ := r
    rw [hloop] at h
    obtain ⟨rfl, -⟩ := Prod.mk.inj (Except.ok.inj h)
    have hqueue : b.queueObjects lib.env (b.urls lib.env c) = .ok b₁ :=
      queueObjects_of_countObjects hloop
    unfold getEmbeddedObjects
    unfold urls at hqueue
    rw [hqueue]
    rfl

/-! ## The objects that should be queued -/

/-- Is there an address for the host? -/
def Reachable (hostname : Bytes) : Prop := (env.getaddr hostname).1 ≠ [0, 0, 0, 0]

instance (hostname : Bytes) : Decidable (Reachable env hostname) := by
  unfold Reachable
  infer_instance

/-- The different objects on hosts that can be reached, in the order in which they occur first. -/
def wanted (objects : List Object) : List Object :=
  (objects.filter fun o => Reachable env o.1).eraseDups

/-- The paths of the objects on a host. -/
def pathsOn (hostname : Bytes) (objects : List Object) : List Bytes :=
  (objects.filter fun o => o.1 = hostname).map Prod.snd

/-- The paths that wait at a host. -/
def pendingOn (hostname : Bytes) : List Bytes := (b.tasks hostname).elim [] Tasks.pending

/-- Each object that should be queued waits once at its host, in order, and all are counted. -/
def QueuesOnce (c : ConnId) : Prop :=
  ∃ b' objCount, b.countEmbeddedObjects lib c = .ok (b', objCount) ∧
    (∀ hostname, b'.pendingOn hostname =
      pathsOn hostname (wanted lib.env ((b.urls lib.env c).filterMap (b.objectOf lib.env)))) ∧
    objCount = (wanted lib.env ((b.urls lib.env c).filterMap (b.objectOf lib.env))).length

/-- The url has a host that resolves. -/
def Resolves (url : Bytes) : Prop :=
  ∃ hostname path, b.objectOf lib.env url = some (hostname, path) ∧
    browserGetaddr lib hostname ≠ none

/-- The tasks hold the objects seen so far. -/
structure Holds (seen : List Object) (b : Browser) : Prop where
  tasks : ∀ hostname tasks, b.tasks hostname = some tasks →
    (tasks.reachable = true ↔ Reachable env hostname) ∧
      tasks.pending = pathsOn hostname (wanted env seen) ∧ ∀ path, path ∈ tasks.added ↔
        path ∈ tasks.pending
  absent : ∀ hostname, b.tasks hostname = none → pathsOn hostname (wanted env seen) = []

/-- There are tasks for the host of the document only, and nothing was queued yet. -/
def Untouched (host : Bytes) (b : Browser) : Prop :=
  b.firstHostname = host ∧ ∀ hostname tasks, b.tasks hostname = some tasks → hostname = host ∧
    (tasks.reachable = true ↔ Reachable env hostname) ∧ tasks.pending = [] ∧ tasks.added = []

variable {lib : Libraries} {env : Env} {b b' : Browser} {host hostname hostname' path : Bytes}
  {seen : List Object} {tasks : Tasks}

/-- A further element is kept just if it is a new one. -/
theorem eraseDups_concat {α : Type*} [BEq α] [LawfulBEq α] (l : List α) (a : α) :
    (l ++ [a]).eraseDups = if a ∈ l then l.eraseDups else l.eraseDups ++ [a] := by
  rw [List.eraseDups_append]
  by_cases ha : a ∈ l
  · simp [ha, List.removeAll]
  · simp [ha, List.removeAll, List.eraseDups_cons]

/-- The objects are each of the reachable ones. -/
theorem mem_wanted {objects : List Object} {object : Object} :
    object ∈ wanted env objects ↔ object ∈ objects ∧ Reachable env object.1 := by
  simp [wanted]

/-- A further object is wanted just if its host can be reached and it is a new one. -/
theorem wanted_concat (env : Env) (seen : List Object) (object : Object) :
    wanted env (seen ++ [object]) =
      if Reachable env object.1 ∧ object ∉ wanted env seen then wanted env seen ++ [object]
      else wanted env seen := by
  have hmem : object ∈ wanted env seen ↔ object ∈ seen ∧ Reachable env object.1 := mem_wanted
  by_cases hreach : Reachable env object.1
  · have hfilter : (seen ++ [object]).filter (fun o => Reachable env o.1) =
        seen.filter (fun o => Reachable env o.1) ++ [object] := by simp [hreach]
    rw [wanted, hfilter, eraseDups_concat]
    by_cases hseen : object ∈ seen
    · have hwanted : object ∈ wanted env seen := hmem.mpr ⟨hseen, hreach⟩
      rw [if_pos (by simp [hseen, hreach]), if_neg fun h => h.2 hwanted, wanted]
    · have hwanted : object ∉ wanted env seen := fun h => hseen (hmem.mp h).1
      rw [if_neg (by simp [hseen]), if_pos ⟨hreach, hwanted⟩, wanted]
  · have hfilter : (seen ++ [object]).filter (fun o => Reachable env o.1) =
        seen.filter (fun o => Reachable env o.1) := by simp [hreach]
    rw [if_neg fun h => hreach h.1, wanted, hfilter, wanted]

theorem mem_pathsOn {objects : List Object} : path ∈ pathsOn hostname objects ↔
    (hostname, path) ∈ objects := by
  simp [pathsOn]

/-- A further object adds its path to those on its host. -/
theorem pathsOn_concat (hostname : Bytes) (objects : List Object) (object : Object) :
    pathsOn hostname (objects ++ [object]) =
      pathsOn hostname objects ++ if object.1 = hostname then [object.2] else [] := by
  unfold pathsOn
  rw [List.filter_append, List.map_append]
  by_cases heq : object.1 = hostname <;> simp [heq]

/-! ## One url -/

/-- The tasks of a host that is initialized hold the same objects. -/
theorem Holds.initHost (h : b.Holds env seen) (hostname : Bytes) :
    (b.initHost env hostname).Holds env seen := by
  constructor
  · intro hostname' tasks htasks
    rw [tasks_initHost_eq] at htasks
    split_ifs at htasks with heq
    · subst heq
      cases hhost : b.tasks hostname' with
      | some tasks' =>
        rw [hhost, Option.getD_some] at htasks
        obtain rfl := Option.some.inj htasks
        exact h.tasks hostname' tasks' hhost
      | none =>
        rw [hhost, Option.getD_none] at htasks
        obtain rfl := Option.some.inj htasks
        refine ⟨by simp [Reachable], (h.absent hostname' hhost).symm, by simp⟩
    · exact h.tasks hostname' tasks htasks
  · intro hostname' hnone
    rw [tasks_initHost_eq] at hnone
    split_ifs at hnone
    exact h.absent hostname' hnone

/-- An object that is not wanted again changes nothing. -/
theorem Holds.skip (h : b.Holds env seen) (htasks : b.tasks hostname = some tasks)
    (hskip : ¬(tasks.reachable = true ∧ path ∉ tasks.added)) :
    b.Holds env (seen ++ [(hostname, path)]) ∧ wanted env (seen ++ [(hostname, path)]) =
      wanted env seen := by
  obtain ⟨hreach, hpending, hadded⟩ := h.tasks hostname tasks htasks
  have hsame : wanted env (seen ++ [(hostname, path)]) = wanted env seen := by
    rw [wanted_concat, if_neg]
    rw [← hreach, ← mem_pathsOn, ← hpending, ← hadded]
    exact hskip
  refine ⟨⟨?_, ?_⟩, hsame⟩
  · rw [hsame]
    exact h.tasks
  · rw [hsame]
    exact h.absent

/-- A new object is queued. -/
theorem Holds.push (h : b.Holds env seen) (htasks : b.tasks hostname = some tasks)
    (hnew : tasks.reachable = true ∧ path ∉ tasks.added) :
    (b.push hostname path tasks).Holds env (seen ++ [(hostname, path)]) ∧
      wanted env (seen ++ [(hostname, path)]) = wanted env seen ++ [(hostname, path)] := by
  obtain ⟨hreach, hpending, hadded⟩ := h.tasks hostname tasks htasks
  have hmore : wanted env (seen ++ [(hostname, path)]) = wanted env seen ++ [(hostname, path)] := by
    rw [wanted_concat, if_pos]
    rw [← hreach, ← mem_pathsOn, ← hpending, ← hadded]
    exact hnew
  refine ⟨⟨?_, ?_⟩, hmore⟩
  · intro hostname' tasks' htasks'
    rw [hmore, pathsOn_concat]
    by_cases heq : hostname' = hostname
    · subst heq
      have hself := tasks_setTasks_self htasks { tasks with
        pending := tasks.pending ++ [path], added := path :: tasks.added }
      obtain rfl := Option.some.inj (hself.symm.trans htasks')
      rw [if_pos rfl, ← hpending]
      refine ⟨hreach, rfl, fun path' => ?_⟩
      simp only [List.mem_cons, List.mem_append, hadded, List.not_mem_nil, or_false]
      exact or_comm
    · have hother := tasks_setTasks_of_ne (b := b) heq { tasks with
        pending := tasks.pending ++ [path], added := path :: tasks.added }
      rw [if_neg (Ne.symm heq), List.append_nil]
      exact h.tasks hostname' tasks' (hother.symm.trans htasks')
  · intro hostname' hnone
    rw [hmore, pathsOn_concat]
    by_cases heq : hostname' = hostname
    · subst heq
      have hself := tasks_setTasks_self htasks { tasks with
        pending := tasks.pending ++ [path], added := path :: tasks.added }
      cases hself.symm.trans hnone
    · have hother := tasks_setTasks_of_ne (b := b) heq { tasks with
        pending := tasks.pending ++ [path], added := path :: tasks.added }
      rw [if_neg (Ne.symm heq), List.append_nil]
      exact h.absent hostname' (hother.symm.trans hnone)

/-! ## All urls -/

/-- A new host is not the one of the document. -/
theorem firstHostname_initHost (env : Env) (b : Browser) (hostname : Bytes) :
    (b.initHost env hostname).firstHostname = b.firstHostname := by
  unfold initHost
  split <;> rfl

/-- The object of a url depends on the host of the document only. -/
theorem objectOf_congr (h : b'.firstHostname = b.firstHostname) :
    b'.objectOf env = b.objectOf env := by
  funext url
  unfold objectOf
  rw [h]

/-- Whether a url resolves depends on the host of the document only. -/
theorem resolves_congr (h : b'.firstHostname = b.firstHostname) (url : Bytes) :
    b'.Resolves lib url ↔ b.Resolves lib url := by
  unfold Resolves
  rw [objectOf_congr h]

/-- If the hosts of all urls resolve, the loop queues what is wanted and counts it. -/
theorem Holds.countObjects {urls : List Bytes} (h : b.Holds lib.env seen) (objCount : ℕ)
    (hcount : objCount = (wanted lib.env seen).length) (hurls : ∀ url ∈ urls, b.Resolves lib url) :
    ∃ b' objCount', countObjects lib urls (b, objCount) = .ok (b', objCount') ∧
      b'.Holds lib.env (seen ++ urls.filterMap (b.objectOf lib.env)) ∧
      objCount' = (wanted lib.env (seen ++ urls.filterMap (b.objectOf lib.env))).length := by
  induction urls generalizing b seen objCount with
  | nil =>
      exact ⟨b, objCount, by simp [Browser.countObjects], by simpa using h, by simpa using hcount⟩
  | cons url urls ih =>
    rw [List.forall_mem_cons] at hurls
    obtain ⟨⟨hostname, path, hobject, hresolves⟩, hrest⟩ := hurls
    have hinit := h.initHost hostname
    obtain ⟨tasks, htasks⟩ :
        ∃ tasks, (b.initHost lib.env hostname).tasks hostname = some tasks := by
      rw [tasks_initHost_eq, if_pos rfl]
      exact ⟨_, rfl⟩
    unfold Browser.countObjects
    rw [hobject]
    dsimp only
    rw [if_neg fun hnone => hresolves hnone.2, htasks, List.filterMap_cons_some hobject,
      List.append_cons]
    dsimp only
    split
    · rename_i hnew
      obtain ⟨hpush, hmore⟩ := hinit.push htasks hnew
      have hfirst : ((b.initHost lib.env hostname).push hostname path tasks).firstHostname =
          b.firstHostname := firstHostname_initHost lib.env b hostname
      have hobjects : ((b.initHost lib.env hostname).push hostname path tasks).objectOf lib.env =
          b.objectOf lib.env := objectOf_congr hfirst
      rw [← hobjects]
      refine ih hpush (objCount + 1) ?_ fun url hurl =>
        (resolves_congr hfirst url).mpr (hrest url hurl)
      rw [hmore, hcount, List.length_append, List.length_singleton]
    · rename_i hskip
      obtain ⟨hskipped, hequal⟩ := hinit.skip htasks hskip
      have hfirst : (b.initHost lib.env hostname).firstHostname = b.firstHostname :=
        firstHostname_initHost lib.env b hostname
      have hobjects : (b.initHost lib.env hostname).objectOf lib.env = b.objectOf lib.env :=
        objectOf_congr hfirst
      rw [← hobjects]
      refine ih hskipped objCount ?_ fun url hurl =>
        (resolves_congr hfirst url).mpr (hrest url hurl)
      rw [hequal, hcount]

/-- The hosts that have tasks resolve. -/
def Known (lib : Libraries) (b : Browser) : Prop :=
  ∀ hostname, b.tasks hostname ≠ none → browserGetaddr lib hostname ≠ none

/-- The hosts stay known when one that resolves is added. -/
theorem Known.initHost (h : b.Known lib) (hnot : ¬b.Unresolved lib hostname) :
    (b.initHost lib.env hostname).Known lib := by
  intro hostname' htasks
  rw [tasks_initHost_eq] at htasks
  split_ifs at htasks with heq
  · subst heq
    by_cases hnone : b.tasks hostname' = none
    · exact fun hgetaddr => hnot ⟨hnone, hgetaddr⟩
    · exact h hostname' hnone
  · exact h hostname' htasks

/-- A url without a host that resolves is a fault, wherever it is. -/
theorem countObjects_of_not_resolves {urls : List Bytes} {url : Bytes} (h : b.Known lib)
    (objCount : ℕ) (hmem : url ∈ urls) (hnot : ¬b.Resolves lib url) :
    ∃ fault, countObjects lib urls (b, objCount) = .error fault := by
  induction urls generalizing b objCount with
  | nil => simp at hmem
  | cons first urls ih =>
    unfold Browser.countObjects
    cases hobject : b.objectOf lib.env first with
    | none => exact ⟨_, rfl⟩
    | some object =>
      obtain ⟨hostname, path⟩ := object
      dsimp only
      split
      · exact ⟨_, rfl⟩
      · rename_i hresolved
        have hknown := h.initHost hresolved
        split
        · exact ⟨_, rfl⟩
        · rename_i tasks htasks
          have hlater : url ∈ urls := by
            rcases List.mem_cons.mp hmem with rfl | hlater
            · refine absurd ⟨hostname, path, hobject, hknown hostname ?_⟩ hnot
              rw [htasks]
              simp
            · exact hlater
          split
          · have hpushed : ((b.initHost lib.env hostname).push hostname path tasks).Known lib := by
              intro hostname' htasks'
              apply hknown hostname'
              intro hnone
              by_cases heq : hostname' = hostname
              · rw [heq, htasks] at hnone
                cases hnone
              · apply htasks'
                exact (tasks_setTasks_of_ne (b := b.initHost lib.env hostname) heq _).trans hnone
            have hfirst : ((b.initHost lib.env hostname).push hostname path tasks).firstHostname =
                b.firstHostname := firstHostname_initHost lib.env b hostname
            apply ih hpushed _ hlater
            rwa [resolves_congr hfirst]
          · apply ih hknown _ hlater
            rwa [resolves_congr (firstHostname_initHost lib.env b hostname)]

/-- The counters are not about what is pending. -/
theorem pendingOn_forgetAdded (b : Browser) (hostname : Bytes) :
    b.forgetAdded.pendingOn hostname = b.pendingOn hostname := by
  have htasks : b.forgetAdded.tasks hostname = (b.tasks hostname).map fun tasks =>
      { tasks with added := [] } :=
    lookup_map_values b.downloadTasks hostname fun tasks => ({ tasks with added := [] } : Tasks)
  unfold pendingOn
  rw [htasks]
  cases b.tasks hostname <;> simp

/-- What is pending on a host are the wanted paths there. -/
theorem Holds.pendingOn_eq (h : b.Holds env seen) (hostname : Bytes) :
    b.pendingOn hostname = pathsOn hostname (wanted env seen) := by
  unfold pendingOn
  cases htasks : b.tasks hostname with
  | none => exact (h.absent hostname htasks).symm
  | some tasks => exact (h.tasks hostname tasks htasks).2.1

/-- A browser that queued nothing holds no object. -/
theorem Untouched.holds (h : b.Untouched env host) : b.Holds env [] := by
  constructor
  · intro hostname tasks htasks
    obtain ⟨-, hreach, hpending, hadded⟩ := h.2 hostname tasks htasks
    refine ⟨hreach, ?_, ?_⟩
    · rw [hpending]
      simp [wanted, pathsOn]
    · rw [hpending, hadded]
      simp
  · intro hostname _
    simp [wanted, pathsOn]

/-- The only host of a browser that queued nothing is the one of the document. -/
theorem Untouched.known (h : b.Untouched env host) (hhost : browserGetaddr lib host ≠ none) :
    b.Known lib := by
  intro hostname htasks
  obtain ⟨tasks, hsome⟩ := Option.ne_none_iff_exists'.mp htasks
  rw [(h.2 hostname tasks hsome).1]
  exact hhost

/-- From a browser that has queued nothing, each object is queued once exactly if each url has a
host that resolves. -/
theorem Untouched.queuesOnce_iff (h : b.Untouched lib.env host)
    (hhost : browserGetaddr lib host ≠ none)
    (c : ConnId) : b.QueuesOnce lib c ↔ ∀ url ∈ b.urls lib.env c, b.Resolves lib url := by
  constructor
  · rintro ⟨b', objCount, hcount, -⟩ url hmem
    by_contra hnot
    obtain ⟨fault, hfault⟩ := countObjects_of_not_resolves (h.known hhost) 0 hmem hnot
    rw [countEmbeddedObjects, hfault] at hcount
    cases hcount
  · intro hurls
    obtain ⟨b', objCount, hcount, hholds, hlength⟩ :=
      h.holds.countObjects 0 (by simp [wanted]) hurls
    rw [List.nil_append] at hholds hlength
    refine ⟨b'.forgetAdded, objCount, by rw [countEmbeddedObjects, hcount, Except.map],
      fun hostname => ?_,
      hlength⟩
    rw [pendingOn_forgetAdded, hholds.pendingOn_eq]

/-! ## Before the document -/

/-- Neither the state nor the scheduled calls change. -/
def SameStage (b b' : Browser) : Prop := b'.state = b.state ∧ b'.wakeups = b.wakeups

theorem SameStage.refl (b : Browser) : b.SameStage b := ⟨rfl, rfl⟩

theorem SameStage.trans {b'' : Browser} (h : b.SameStage b') (h' : b'.SameStage b'') :
    b.SameStage b'' :=
  ⟨h'.1.trans h.1, h'.2.trans h.2⟩

theorem sameStage_remove (b : Browser) (sockfd : Int) : b.SameStage (b.remove sockfd) := by
  unfold remove
  split <;> exact ⟨rfl, rfl⟩

/-- Reusing a connection stays in the stage. -/
theorem sameStage_reuseConnection {c : ConnId} {reused : Bool}
    (h : b.reuseConnection c = .ok (b', reused)) :
    b.SameStage b' := by
  unfold reuseConnection at h
  dsimp only at h
  split at h
  · cases h
  · split at h
    · obtain ⟨rfl, -⟩ := Prod.mk.inj (Except.ok.inj h)
      exact .refl b
    · obtain ⟨rfl, -⟩ := Prod.mk.inj (Except.ok.inj h)
      exact ⟨rfl, rfl⟩

/-- Starting a connection stays in the stage. -/
theorem sameStage_started (b : Browser) (hostname : Bytes) (tasks : Tasks) (conn : Connection) :
    b.SameStage (b.started hostname tasks conn) := by
  obtain ⟨downloadTasks, connections, conns, replaced, hstarted⟩ := started_eq b hostname tasks conn
  rw [hstarted]
  exact ⟨rfl, rfl⟩

/-- Starting the downloads of a host stays in the stage. -/
theorem sameStage_startTasks {pending : List Bytes} {dials dials' : List Dial}
    (h : b.startTasks env hostname pending dials = .ok (b', dials')) : b.SameStage b' := by
  induction pending generalizing b dials with
  | nil =>
    obtain ⟨rfl, -⟩ := Prod.mk.inj (Except.ok.inj h)
    exact .refl _
  | cons path pending ih =>
    cases htasks : b.tasks hostname with
    | none => simp [startTasks, htasks] at h
    | some tasks =>
      rcases startTasks_cons_eq_ok htasks h with ⟨-, hends⟩ | ⟨dial, dials₁, conn, -, -, hstarted⟩
      · obtain ⟨rfl, -⟩ := Prod.mk.inj hends
        exact .refl _
      · exact (sameStage_started b hostname _ conn).trans (ih hstarted)

/-- Starting the downloads of all hosts stays in the stage. -/
theorem sameStage_startAllTasks {hostnames : List Bytes} {dials : List Dial}
    (h : b.startAllTasks env hostnames dials = .ok b') : b.SameStage b' := by
  induction hostnames generalizing b dials with
  | nil =>
    obtain rfl := Except.ok.inj h
    exact .refl _
  | cons hostname hostnames ih =>
    unfold startAllTasks at h
    split at h
    · cases h
    · split at h
      · cases h
      · rename_i b₁ dials₁ hstart
        exact (sameStage_startTasks hstart).trans (ih h)

/-- When the document is there, the browser goes on to the objects or is done. -/
theorem downloadedDocument_stage {c : ConnId} {dials : List Dial}
    (h : b.downloadedDocument env c dials = .ok b') :
    (b'.state = .success ∨ b'.state = .embeddedObjects) ∧ b'.wakeups = b.wakeups := by
  unfold downloadedDocument at h
  dsimp only at h
  split at h
  · cases h
  · rename_i b₁ hobjects
    obtain ⟨downloadTasks, queued, rfl⟩ := getEmbeddedObjects_eq_ok hobjects
    split at h
    · cases h
    · rename_i b₂ reused hreuse
      obtain ⟨-, hwakeups⟩ := sameStage_reuseConnection hreuse
      split at h
      · cases h
      · rename_i b₃ hfound
        have hwakeups₃ : b₃.wakeups = b₂.wakeups := by
          split_ifs at hfound
          · obtain ⟨tasks, -, rfl⟩ := Option.map_eq_some_iff.mp hfound
            rfl
          · obtain rfl := Option.some.inj hfound
            rfl
        split at h
        · obtain rfl := Except.ok.inj h
          exact ⟨.inl rfl, hwakeups₃.trans hwakeups⟩
        · obtain ⟨hstate, hwakeups₄⟩ := sameStage_startAllTasks h
          exact ⟨.inr hstate, hwakeups₄.trans (hwakeups₃.trans hwakeups)⟩

/-- The download of an embedded object stays in the stage. -/
theorem sameStage_activateEmbedded {sockfd : Int} {c : ConnId} {code : GetterCode}
    (h : b.activateEmbedded sockfd c code = .ok b') : b.SameStage b' := by
  have houtcome : b.SameStage (b.outcome c code) := ⟨rfl, rfl⟩
  unfold activateEmbedded at h
  split_ifs at h
  · unfold downloadedObject at h
    split at h
    · cases h
    · rename_i b₁ hreuse
      obtain rfl := Except.ok.inj h
      exact houtcome.trans (sameStage_reuseConnection hreuse)
    · rename_i b₁ hreuse
      obtain rfl := Except.ok.inj h
      exact houtcome.trans ((sameStage_reuseConnection hreuse).trans (sameStage_remove _ _))
  · split at h
    · cases h
    · rename_i b₁ hreuse
      obtain rfl := Except.ok.inj h
      exact houtcome.trans (sameStage_reuseConnection hreuse)
    · rename_i b₁ hreuse
      obtain rfl := Except.ok.inj h
      exact houtcome.trans ((sameStage_reuseConnection hreuse).trans (sameStage_remove _ _))
  · obtain rfl := Except.ok.inj h
    exact houtcome
  · obtain rfl := Except.ok.inj h
    exact .refl b

/-- Freeing the document stays in the stage. -/
theorem sameStage_free (b : Browser) : b.SameStage b.free := by
  have hfold : ∀ entries : List (Entry ConnId ConnId Int), ∀ b : Browser,
      b.SameStage (entries.foldl (fun b entry => b.shutdownConnection entry.value) b) := by
    intro entries
    induction entries with
    | nil => exact fun b => .refl b
    | cons entry entries ih =>
      intro b
      have hshutdown : b.SameStage (b.shutdownConnection entry.value) := ⟨rfl, rfl⟩
      exact hshutdown.trans (ih _)
  exact hfold b.connections b

/-- A browser that waits for its document has queued nothing. -/
structure Awaits (env : Env) (host : Bytes) (b : Browser) : Prop where
  wakeups : b.wakeups = 0 ∨ b.wakeups = 1 ∧ b.state = .hibernate
  untouched : b.state = .document ∨ b.state = .hibernate → b.Untouched env host

/-- A browser that is not before its document any more. -/
theorem awaits_of_later (hwakeups : b.wakeups = 0) (hdocument : b.state ≠ .document)
    (hhibernate : b.state ≠ .hibernate) : b.Awaits env host where
  wakeups := .inl hwakeups
  untouched hearly := (hearly.elim hdocument hhibernate).elim

/-- An activation leaves a browser that awaits the document as it is, or in a later stage. -/
theorem Awaits.activated {sockfd : Int} {c : ConnId} {code : GetterCode} {dials : List Dial}
    (h : b.Awaits env host) (hstep : b.activated env sockfd c code dials = .ok b') :
    b'.Awaits env host := by
  unfold Browser.activated at hstep
  split at hstep
  · rename_i hstate
    have hwakeups : b.wakeups = 0 := h.wakeups.resolve_right fun hslept =>
        by simp [hstate] at hslept
    unfold activateDocument at hstep
    split_ifs at hstep
    · obtain ⟨hgoes, hsame⟩ := downloadedDocument_stage hstep
      rw [hwakeups] at hsame
      rcases hgoes with hgoes | hgoes
      · exact awaits_of_later hsame (by simp [hgoes]) (by simp [hgoes])
      · exact awaits_of_later hsame (by simp [hgoes]) (by simp [hgoes])
    · obtain rfl := Except.ok.inj hstep
      exact awaits_of_later hwakeups (by simp) (by simp)
    · obtain rfl := Except.ok.inj hstep
      have hone : b.wakeups + 1 = 1 := by rw [hwakeups]
      exact ⟨.inr ⟨hone, rfl⟩, fun _ => h.untouched (.inl hstate)⟩
    · obtain rfl := Except.ok.inj hstep
      obtain ⟨hfailure, hsame⟩ := sameStage_free
        { (b.steal sockfd).shutdownConnection c with state := BrowserState.failure }
      exact awaits_of_later (hsame.trans hwakeups) (by simp [hfailure]) (by simp [hfailure])
    · obtain rfl := Except.ok.inj hstep
      exact h
  · rename_i hstate
    have hwakeups : b.wakeups = 0 := h.wakeups.resolve_right fun hslept =>
        by simp [hstate] at hslept
    split at hstep
    · cases hstep
    · rename_i b₁ hembedded
      obtain ⟨hstate₁, hwakeups₁⟩ := sameStage_activateEmbedded hembedded
      rw [hstate] at hstate₁
      rw [hwakeups] at hwakeups₁
      obtain rfl := Except.ok.inj hstep
      split
      · exact awaits_of_later hwakeups₁ (by simp) (by simp)
      · exact awaits_of_later hwakeups₁ (by simp [hstate₁]) (by simp [hstate₁])
  · obtain rfl := Except.ok.inj hstep
    exact h

/-- Every event leaves a browser that awaits the document as it is, or in a later stage. -/
theorem Awaits.step {e : PluginEvent} (h : b.Awaits env host) (hstep : b.step env e = .ok b') :
    b'.Awaits env host := by
  cases e with
  | activate sockfd getter dials =>
    unfold Browser.step activate at hstep
    dsimp only at hstep
    split at hstep
    · cases hstep
    · split at hstep
      · obtain rfl := Except.ok.inj hstep
        exact h
      · rename_i entry hlookup
        split at hstep
        · cases hstep
        · split at hstep
          · cases hstep
          · rename_i fg code hactivate
            split at hstep
            · cases hstep
            · have hset : (b.setFg entry.value fg).Awaits env host := ⟨h.wakeups, h.untouched⟩
              exact hset.activated hstep
  | wakeup dial =>
    unfold Browser.step at hstep
    dsimp only at hstep
    split at hstep
    · obtain rfl := Except.ok.inj hstep
      exact h
    · rename_i hscheduled
      obtain ⟨hone, hslept⟩ := h.wakeups.resolve_left hscheduled
      unfold wakeup at hstep
      dsimp only at hstep
      split at hstep
      · cases hstep
      · obtain ⟨connections, conns, replaced, hinsert⟩ := insert_eq
          (setFg { b with wakeups := b.wakeups - 1 } b.docConn
            (Filegetter.start.download (b.conn b.docConn).sspec
              (b.conn b.docConn).fspec true dial.connection
              dial.now).1) b.docConn
        rw [hinsert] at hstep
        obtain rfl := Except.ok.inj hstep
        have hzero : b.wakeups - 1 = 0 := by rw [hone]
        exact ⟨.inl hzero, fun _ => h.untouched (.inr hslept)⟩

/-- An entry of the table is not about the document. -/
theorem Awaits.insert (h : b.Awaits env host) (c : ConnId) : (b.insert c).Awaits env host := by
  obtain ⟨connections, conns, replaced, hinsert⟩ := insert_eq b c
  rw [hinsert]
  exact ⟨h.wakeups, h.untouched⟩

/-- The host of the document is awaited. -/
theorem Awaits.initHost (h : b.Awaits env host) : (b.initHost env host).Awaits env host := by
  have hsame : b.SameStage (b.initHost env host) := by
    unfold Browser.initHost
    split <;> exact ⟨rfl, rfl⟩
  constructor
  · rw [hsame.1, hsame.2]
    exact h.wakeups
  · intro hearly
    rw [hsame.1] at hearly
    obtain ⟨hfirst, hall⟩ := h.untouched hearly
    refine ⟨(firstHostname_initHost env b host).trans hfirst, fun hostname' tasks htasks => ?_⟩
    rw [tasks_initHost_eq] at htasks
    split_ifs at htasks with heq
    · subst heq
      cases hhost : b.tasks hostname' with
      | some tasks' =>
        rw [hhost, Option.getD_some] at htasks
        obtain rfl := Option.some.inj htasks
        exact hall hostname' tasks' hhost
      | none =>
        rw [hhost, Option.getD_none] at htasks
        obtain rfl := Option.some.inj htasks
        simp [Reachable]
    · exact hall hostname' tasks htasks

/-- `browser_launch` has queued nothing. -/
theorem awaits_launch {httpServer socksProxy : ServerArgs}
    {maxConcurrentDownloads documentPath : Bytes} {dial : Dial}
    (h : launch env httpServer socksProxy maxConcurrentDownloads documentPath dial = .ok b) :
    b.Awaits env httpServer.host := by
  unfold launch at h
  dsimp only at h
  split at h
  · cases h
  · rename_i b₁ hprepare
    obtain ⟨conn, -, rfl⟩ := prepareFilegetter_eq_ok hprepare
    obtain rfl := Except.ok.inj h
    have hallocated : ∀ b₀ : Browser, b₀.Awaits env httpServer.host →
        (b₀.allocated conn).Awaits env httpServer.host :=
      fun b₀ h₀ => ⟨h₀.wakeups, h₀.untouched⟩
    refine (hallocated _ (Awaits.initHost ⟨.inl rfl, fun _ => ⟨rfl, ?_⟩⟩)).insert 0
    intro hostname tasks htasks
    cases htasks

/-- A launch that succeeds has found the address of the server. -/
theorem launchResolving_eq_ok {httpServer socksProxy : ServerArgs}
    {maxConcurrentDownloads documentPath : Bytes} {dial : Dial}
    (h : launchResolving lib httpServer socksProxy maxConcurrentDownloads documentPath dial =
      .ok b) :
    browserGetaddr lib httpServer.host ≠ none ∧
      launch lib.env httpServer socksProxy maxConcurrentDownloads documentPath dial = .ok b := by
  unfold launchResolving at h
  split at h
  · cases h
  · rename_i hresolved
    split at h
    · cases h
    · rename_i b₁ hlaunch
      split at h
      · cases h
      · obtain rfl := Except.ok.inj h
        exact ⟨hresolved, hlaunch⟩

end Browser

/-! ## Every run -/

section Runs

variable {lib : Libraries} {b₀ b : Browser} {httpServer socksProxy : ServerArgs}
  {maxConcurrentDownloads documentPath : Bytes} {dial : Dial} {events : List PluginEvent}

/-- While the document is downloaded nothing was queued. -/
theorem untouched_of_run
    (hlaunch : Browser.launch lib.env httpServer socksProxy maxConcurrentDownloads documentPath
      dial = .ok b₀)
    (hrun : runSteps (Browser.step lib.env) b₀ events = .ok b) (hdocument : b.state = .document) :
    b.Untouched lib.env httpServer.host := by
  have hawaits : b.Awaits lib.env httpServer.host :=
    invariant_of_steps (Browser.Awaits lib.env httpServer.host) (fun _ _ _ h hstep => h.step hstep)
      (Browser.awaits_launch hlaunch) hrun
  exact hawaits.untouched (.inl hdocument)

/-- The url is not malformed, if it is absolute, and then its host resolves. -/
def Usable (lib : Libraries) (url : Bytes) : Prop :=
  urlIsAbsolute url = true →
    ∃ hostname path, urlGetParts lib url = some (hostname, path) ∧
      browserGetaddr lib hostname ≠ none

/-- Where the host of the document resolves, a url resolves just if it is usable. -/
theorem resolves_iff (hfirst : browserGetaddr lib b.firstHostname ≠ none) (url : Bytes) :
    b.Resolves lib url ↔ Usable lib url := by
  have hparts : lib.env.urlGetParts url = urlGetParts lib url := rfl
  unfold Browser.Resolves Usable Browser.objectOf
  rw [hparts]
  by_cases habsolute : urlIsAbsolute url = true
  · simp [habsolute]
  · simp [habsolute, hfirst]

/-- In every run, when the getter of a connection has returned while the browser waits for the
document, `browser_get_embedded_objects` queues each object once exactly if no absolute url is
malformed and the hosts of all absolute urls resolve. -/
theorem queuesOnce_iff_not_malformed
    (hlaunch : Browser.launchResolving lib httpServer socksProxy maxConcurrentDownloads documentPath
      dial =
      .ok b₀)
    (hrun : runSteps (Browser.step lib.env) b₀ events = .ok b) (hdocument : b.state = .document)
    (c : ConnId) (fg : Filegetter) :
    (b.setFg c fg).QueuesOnce lib c ↔
      ∀ url ∈ (b.setFg c fg).urls lib.env c, Usable lib url := by
  obtain ⟨hhost, hlaunch⟩ := Browser.launchResolving_eq_ok hlaunch
  have huntouched : (b.setFg c fg).Untouched lib.env httpServer.host := by
    obtain ⟨hfirst, hall⟩ := untouched_of_run hlaunch hrun hdocument
    exact ⟨hfirst, hall⟩
  rw [huntouched.queuesOnce_iff hhost]
  have hfirst : browserGetaddr lib (b.setFg c fg).firstHostname ≠ none := by
    rw [huntouched.1]
    exact hhost
  exact forall₂_congr fun url _ => resolves_iff hfirst url

end Runs

/-! ## Pages with given urls -/

/-- The expression of `url_crack`, for urls without ends of lines: the scheme, the host name, and
the path cut behind its last slash. -/
def matchUrl (url : Bytes) : List Bytes :=
  let scheme :=
    if caselessPrefix (ascii "http://") url then 7
    else if caselessPrefix (ascii "https://") url then 8
    else if (ascii "//").isPrefixOf url then 2
    else 0
  let hostname := (url.drop scheme).takeWhile (· ≠ 47)
  let path := (url.drop scheme).dropWhile (· ≠ 47)
  let file := (path.reverse.takeWhile (· ≠ 47)).reverse
  if scheme = 0 ∨ hostname = [] then []
  else [url, url.take scheme, hostname, path, path.take (path.length - file.length), file]

/-- The libraries for a page with some urls, in a network in which the hosts `a`, `b` and `p` have
an address. -/
def pageWith (urls : List Bytes) : Libraries where
  resolver :=
    { inetAton := fun _ => none
      getaddrinfo := fun hostname =>
        if hostname = ascii "a" ∨ hostname = ascii "b" ∨ hostname = ascii "p" then
          some (octets 10 0 0 1)
        else none }
  htmlParse _ := urls
  fetchAll := matchUrl
  utf8Strdown := List.map toLower
  foreachOrder hosts := ⟨hosts, List.Perm.refl _⟩

/-- The browser that downloads the page. -/
def launchWith (urls : List Bytes) : Except PluginFault Browser :=
  Browser.launchResolving (pageWith urls) { host := ascii "a", port := ascii "80" }
    { host := ascii "p", port := ascii "0" } (ascii "1") (ascii "/")
    { connection := .connected 3 [], now := ⟨0, 0⟩ }

/-- A page with an object on another host twice, and one on its own. -/
def threeUrls : List Bytes := [ascii "http://B/x", ascii "y", ascii "//b/x"]

/-- The objects of the page are queued once, when its getter has returned. -/
theorem queuesOnce_iff_not_malformed_threeUrls :
    ∃ b, launchWith threeUrls = .ok b ∧ ∀ fg, (b.setFg 0 fg).QueuesOnce (pageWith threeUrls) 0 := by
  obtain ⟨b, hlaunch, hdocument⟩ : ∃ b, launchWith threeUrls = .ok b ∧ b.state = .document :=
    ⟨_, by rfl, by rfl⟩
  refine ⟨b, hlaunch, fun fg => ?_⟩
  rw [queuesOnce_iff_not_malformed hlaunch runSteps_nil hdocument 0 fg]
  have hothers : ∀ url ∈ threeUrls, Usable (pageWith threeUrls) url := by
    intro url hurl hparts
    simp only [threeUrls, List.mem_cons, List.not_mem_nil, or_false] at hurl
    rcases hurl with rfl | rfl | rfl
    · exact ⟨ascii "b", ascii "/x", by decide +kernel, by decide +kernel⟩
    · exact absurd hparts (by decide)
    · exact ⟨ascii "b", ascii "/x", by decide +kernel, by decide +kernel⟩
  exact hothers

/-- A page with an absolute url without a host name, and one with a host that does not resolve. -/
theorem not_queuesOnce_noHost :
    (∃ b, launchWith [ascii "http://"] = .ok b ∧ b.state = .document ∧
      ∀ fg, ¬(b.setFg 0 fg).QueuesOnce (pageWith [ascii "http://"]) 0) ∧
    ∃ b, launchWith [ascii "//c/x"] = .ok b ∧ b.state = .document ∧
      ∀ fg, ¬(b.setFg 0 fg).QueuesOnce (pageWith [ascii "//c/x"]) 0 := by
  have hfails : ∀ url, ¬Usable (pageWith [url]) url → ∀ b, launchWith [url] = .ok b →
      b.state = .document → ∀ fg, ¬(b.setFg 0 fg).QueuesOnce (pageWith [url]) 0 := by
    intro url hunusable b hlaunch hdocument fg hqueues
    obtain ⟨hhost, hlaunch⟩ := Browser.launchResolving_eq_ok hlaunch
    obtain ⟨hfirst, hall⟩ := untouched_of_run hlaunch runSteps_nil hdocument
    have huntouched : (b.setFg 0 fg).Untouched (pageWith [url]).env (ascii "a") := ⟨hfirst, hall⟩
    have hresolves := (huntouched.queuesOnce_iff hhost 0).mp hqueues url List.mem_cons_self
    apply hunusable
    exact (resolves_iff (by rw [huntouched.1]; exact hhost) url).mp hresolves
  constructor
  · obtain ⟨b, hlaunch, hdocument⟩ :
        ∃ b, launchWith [ascii "http://"] = .ok b ∧ b.state = .document := ⟨_, by rfl, by rfl⟩
    refine ⟨b, hlaunch, hdocument, hfails _ ?_ b hlaunch hdocument⟩
    intro husable
    obtain ⟨hostname, path, hparts, -⟩ := husable (by decide)
    have hnone : urlGetParts (pageWith [ascii "http://"]) (ascii "http://") = none := by
      decide +kernel
    rw [hnone] at hparts
    cases hparts
  · obtain ⟨b, hlaunch, hdocument⟩ :
        ∃ b, launchWith [ascii "//c/x"] = .ok b ∧ b.state = .document := ⟨_, by rfl, by rfl⟩
    refine ⟨b, hlaunch, hdocument, hfails _ ?_ b hlaunch hdocument⟩
    intro husable
    obtain ⟨hostname, path, hparts, hresolved⟩ := husable (by decide)
    have hsome : urlGetParts (pageWith [ascii "//c/x"]) (ascii "//c/x") =
        some (ascii "c", ascii "/x") := by decide +kernel
    obtain ⟨rfl, -⟩ := Prod.mk.inj (Option.some.inj (hsome.symm.trans hparts))
    exact hresolved (by decide +kernel)

end ShadowExtras.BrowserPlugin
