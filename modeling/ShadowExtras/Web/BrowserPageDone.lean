import ShadowExtras.Web.Browser

/-!
# When a page is done

A page is declared done when the number of urls that were received equals the number of urls that
are known to be embedded. A request that is still pending keeps the two apart only if its url was
not received before: `Consistent` says that the embedded urls are the received and the pending ones.
So the browser is right about a page as long as no response leaves it with repeated requests alone
(`AwaitsFirstFetch`); a script that asks again for a url that was received does just that when it is
the last to arrive.
-/

namespace ShadowExtras.Web

open Foundation

/-! ## What a script asks for -/

/-- The urls that the lines of a script ask for. -/
def urlsToFetch (lines : List Bytes) : List Bytes :=
  lines.filterMap fun line => match urlToFetch line with
    | .ok url => url
    | .error _ => none

namespace Browser

variable {env : Env} {s t u : Browser} {req : PageRequest} {url : Bytes} {page : Nat}
  {reqs : List PageRequest} {e : BrowserEvent}

/-! ## Requests -/

/-- The manager has the requests that are pending; they differ in url and number. -/
structure Registered (s : Browser) : Prop where
  submitted : s.submitted = s.pendingRequests
  urls : (s.pendingRequests.map PageRequest.url).Nodup
  nums : (s.pendingRequests.map PageRequest.instNum).Nodup
  fresh : ∀ r ∈ s.pendingRequests, r.instNum < s.nextInstNum

/-- `t` is `s` after the requests `reqs` for embedded objects. -/
structure Asks (s : Browser) (reqs : List PageRequest) (t : Browser) : Prop where
  pending : t.pendingRequests = s.pendingRequests ++ reqs
  embedded : t.embeddedResources = s.embeddedResources ∪ (reqs.map PageRequest.url).toFinset
  received : t.receivedResources = s.receivedResources
  state : t.state = s.state
  doc : t.docReqInstNum = s.docReqInstNum
  later : s.nextInstNum ≤ t.nextInstNum
  nums : ∀ r ∈ reqs, s.nextInstNum ≤ r.instNum
  registered : s.Registered → t.Registered

/-- Nothing is asked for. -/
theorem Asks.refl : Asks s [] s where
  pending := by simp
  embedded := by simp
  received := rfl
  state := rfl
  doc := rfl
  later := le_rfl
  nums := by simp
  registered := id

/-- What is asked for, one after the other. -/
theorem Asks.trans {reqs' : List PageRequest} (h : Asks s reqs t) (h' : Asks t reqs' u) :
    Asks s (reqs ++ reqs') u where
  pending := by rw [h'.pending, h.pending, List.append_assoc]
  embedded := by
    rw [h'.embedded, h.embedded, List.map_append, List.toFinset_append, Finset.union_assoc]
  received := h'.received.trans h.received
  state := h'.state.trans h.state
  doc := h'.doc.trans h.doc
  later := h.later.trans h'.later
  nums := by
    intro r hr
    rcases List.mem_append.mp hr with hr | hr
    · exact h.nums r hr
    · exact h.later.trans (h'.nums r hr)
  registered := fun hs => h'.registered (h.registered hs)

/-- A new request under a url that is not pending. -/
theorem Registered.append (hs : s.Registered)
    (hurl : req.url ∉ s.pendingRequests.map PageRequest.url)
    (hnum : req.instNum = s.nextInstNum) (hpending : t.pendingRequests = s.pendingRequests ++ [req])
    (hsubmitted : t.submitted = s.submitted ++ [req]) (hnext : t.nextInstNum = s.nextInstNum + 1) :
    t.Registered where
  submitted := by rw [hsubmitted, hpending, hs.submitted]
  urls := by
    rw [hpending, List.map_append, List.map_singleton, ← List.concat_eq_append]
    exact List.Nodup.concat hurl hs.urls
  nums := by
    rw [hpending, List.map_append, List.map_singleton, ← List.concat_eq_append]
    refine List.Nodup.concat (fun hmem => ?_) hs.nums
    obtain ⟨r, hr, hrnum⟩ := List.mem_map.mp hmem
    have := hs.fresh r hr
    omega
  fresh := by
    intro r hr
    rw [hpending] at hr
    rcases List.mem_append.mp hr with hr | hr
    · have := hs.fresh r hr
      omega
    · obtain rfl := List.mem_singleton.mp hr
      omega

/-- One url is asked for. -/
theorem requestOneUrl_spec (h : s.requestOneUrl env url = .ok t) :
    ∃ req, req.url = url ∧ Asks s [req] t := by
  unfold requestOneUrl at h
  dsimp only at h
  split at h
  · cases h
  · rename_i hurl
    split at h
    · cases h
    · rename_i parts hparts
      obtain rfl := Except.ok.inj h
      have hfilter : s.pendingRequests.filter (fun r => r.url ≠ url) = s.pendingRequests := by
        apply List.filter_eq_self.mpr
        intro r hr
        have : r.url ≠ url := fun heq => hurl (List.mem_map.mpr ⟨r, hr, heq⟩)
        simpa using this
      refine ⟨s.newRequest url parts.hostname (parts.port.getD 80) parts.path [], rfl, ?_⟩
      constructor
      · exact congrArg (· ++ _) hfilter
      · simp [submitRequest, newRequest]
      · rfl
      · rfl
      · rfl
      · exact Nat.le_succ _
      · simp [newRequest]
      · intro hs
        exact hs.append hurl rfl (congrArg (· ++ _) hfilter) rfl rfl

/-- The lines of a script ask for the urls that they name. -/
theorem processLines_spec {lines : List Bytes} (h : s.processLines env lines = .ok t) :
    ∃ reqs, reqs.map PageRequest.url = urlsToFetch lines ∧ Asks s reqs t := by
  induction lines generalizing s with
  | nil =>
    obtain rfl : s = t := by simpa [processLines] using h
    exact ⟨[], rfl, .refl⟩
  | cons line lines ih =>
    unfold processLines at h
    split at h
    · cases h
    · rename_i hline
      obtain ⟨reqs, hreqs, hasks⟩ := ih h
      exact ⟨reqs, by simpa [urlsToFetch, hline] using hreqs, hasks⟩
    · rename_i url hline
      split at h
      · cases h
      · rename_i u hu
        obtain ⟨req, rfl, hfirst⟩ := requestOneUrl_spec hu
        obtain ⟨reqs, hreqs, hrest⟩ := ih h
        refine ⟨[req] ++ reqs, ?_, hfirst.trans hrest⟩
        simpa [urlsToFetch, hline] using hreqs

/-- A script of the document asks for urls, or for itself. -/
theorem processAScript_spec {sr : ScriptResource} (h : s.processAScript env sr = .ok t) :
    ∃ reqs, Asks s reqs t := by
  unfold processAScript at h
  split at h
  · split at h
    · cases h
    · obtain ⟨req, -, hasks⟩ := requestOneUrl_spec h
      exact ⟨[req], hasks⟩
  · obtain ⟨reqs, -, hasks⟩ := processLines_spec h
    exact ⟨reqs, hasks⟩

/-- Each image is asked for. -/
theorem requestImages_spec {urls : List Bytes} (h : s.requestImages env urls = .ok t) :
    ∃ reqs, Asks s reqs t := by
  induction urls generalizing s with
  | nil =>
    obtain rfl : s = t := by simpa [requestImages] using h
    exact ⟨[], .refl⟩
  | cons url urls ih =>
    unfold requestImages at h
    split at h
    · cases h
    · rename_i u hu
      obtain ⟨req, -, hfirst⟩ := requestOneUrl_spec hu
      obtain ⟨reqs, hrest⟩ := ih h
      exact ⟨[req] ++ reqs, hfirst.trans hrest⟩

/-- The scripts of the document ask for urls. -/
theorem processScripts_spec {scripts : List ScriptResource}
    (h : s.processScripts env scripts = .ok t) : ∃ reqs, Asks s reqs t := by
  induction scripts generalizing s with
  | nil =>
    obtain rfl : s = t := by simpa [processScripts] using h
    exact ⟨[], .refl⟩
  | cons sr scripts ih =>
    unfold processScripts at h
    split at h
    · cases h
    · rename_i u hu
      obtain ⟨reqs, hfirst⟩ := processAScript_spec hu
      obtain ⟨reqs', hrest⟩ := ih h
      exact ⟨reqs ++ reqs', hfirst.trans hrest⟩

/-- The embedded objects are asked for when the document was parsed. -/
theorem requestEmbeddedObjects_spec (h : s.requestEmbeddedObjects env = .ok t) :
    ∃ reqs, Asks { s with docContent := [] } reqs t := by
  unfold requestEmbeddedObjects at h
  dsimp only at h
  split at h
  · cases h
  · rename_i u hu
    obtain ⟨reqs, himages⟩ := requestImages_spec hu
    obtain ⟨reqs', hscripts⟩ := processScripts_spec h
    exact ⟨reqs ++ reqs', himages.trans hscripts⟩

/-- The urls that the script asks for that the request fetches, if it fetches one. -/
def urlsOfScript (s : Browser) (req : PageRequest) : List Bytes :=
  match s.scriptText req with
  | none => []
  | some text => urlsToFetch (scriptLines text)

/-- A fetched script asks for its urls, any other object for none. -/
theorem processFetched_spec (h : s.processFetched env req = .ok t) :
    ∃ reqs, reqs.map PageRequest.url = s.urlsOfScript req ∧ Asks s reqs t := by
  unfold processFetched at h
  unfold urlsOfScript
  cases htext : s.scriptText req with
  | none =>
    simp only [htext] at h ⊢
    obtain rfl := Except.ok.inj h
    exact ⟨[], List.map_nil, .refl⟩
  | some text =>
    simp only [htext, processAScript, ne_eq, not_true_eq_false, if_false] at h ⊢
    obtain ⟨reqs, hreqs, hasks⟩ := processLines_spec h
    exact ⟨reqs, hreqs, ⟨hasks.pending, hasks.embedded, hasks.received, hasks.state, hasks.doc,
      hasks.later, hasks.nums, fun hs =>
        hasks.registered ⟨hs.submitted, hs.urls, hs.nums, hs.fresh⟩⟩⟩

/-! ## The invariant -/

/-- What is pending, received and embedded in each state of a load. -/
def Phase (s : Browser) : Prop :=
  match s.state with
  | .init | .doneDocument =>
    s.pendingRequests = [] ∧ s.receivedResources = ∅ ∧ s.embeddedResources = ∅
  | .fetchingDocument =>
    (∃ r, s.pendingRequests = [r] ∧ s.docReqInstNum = some r.instNum) ∧
      s.receivedResources = ∅ ∧ s.embeddedResources = ∅
  | .fetchingEmbedded | .done =>
    s.embeddedResources =
        s.receivedResources ∪ (s.pendingRequests.map PageRequest.url).toFinset ∧
      ∀ r ∈ s.pendingRequests, s.docReqInstNum ≠ some r.instNum
  | .closed => s.pendingRequests = []

/-- The invariant of the browser. -/
structure Consistent (s : Browser) : Prop where
  registered : s.Registered
  doc : ∀ d ∈ s.docReqInstNum, d < s.nextInstNum
  phase : s.Phase

/-- A page that is declared done is finished: no request is pending, and the manager has none. -/
def Finishes (s : Browser) : Prop := s.state = .done → s.pendingRequests = [] ∧ s.submitted = []

/-- The urls that are awaited after this request is finished: those of the other requests that are
pending and those that its script asks for. -/
def awaited (s : Browser) (req : PageRequest) : List Bytes :=
  ((s.pendingRequests.filter fun r => r.url ≠ req.url).map PageRequest.url) ++ s.urlsOfScript req

/-- A response that leaves requests to be awaited, whether they are pending or its script asks for
them, leaves one whose url was not received before. -/
def AwaitsFirstFetch (s : Browser) : BrowserEvent → Prop
  | .responseFinished instNum _ => ∀ req ∈ s.request instNum, some req.instNum ≠ s.docReqInstNum →
    s.awaited req ≠ [] → ∃ url ∈ s.awaited req, url ≠ req.url ∧ url ∉ s.receivedResources
  | _ => True

instance (s : Browser) (e : BrowserEvent) : Decidable (s.AwaitsFirstFetch e) := by
  unfold AwaitsFirstFetch
  split <;> infer_instance

/-- The page is done when every pending url was received already. -/
theorem isPageDone_iff (hembedded : s.embeddedResources =
      s.receivedResources ∪ (s.pendingRequests.map PageRequest.url).toFinset) :
    s.isPageDone = true ↔ ∀ r ∈ s.pendingRequests, r.url ∈ s.receivedResources := by
  unfold isPageDone
  rw [decide_eq_true_iff, hembedded]
  constructor
  · intro hcard r hr
    have hsub : s.receivedResources ⊆
        s.receivedResources ∪ (s.pendingRequests.map PageRequest.url).toFinset :=
      Finset.subset_union_left
    rw [Finset.eq_of_subset_of_card_le hsub hcard.le]
    exact Finset.mem_union_right _ (List.mem_toFinset.mpr (List.mem_map_of_mem hr))
  · intro h
    congr 1
    apply Finset.union_eq_left.mpr
    intro url hurl
    obtain ⟨r, hr, rfl⟩ := List.mem_map.mp (List.mem_toFinset.mp hurl)
    exact h r hr

/-! ## Operations and the invariant -/

/-- The part of the state that the invariant is about. -/
def view (s : Browser) :=
  (s.state, s.docReqInstNum, s.pendingRequests, s.receivedResources, s.embeddedResources,
    s.nextInstNum, s.submitted)

/-- What is consistent depends on the view only. -/
theorem Consistent.congr (hs : s.Consistent) (h : t.view = s.view) : t.Consistent := by
  simp only [view, Prod.mk.injEq] at h
  obtain ⟨hstate, hdoc, hpending, hreceived, hembedded, hnext, hsubmitted⟩ := h
  constructor
  · constructor
    · rw [hsubmitted, hpending, hs.registered.submitted]
    · rw [hpending]
      exact hs.registered.urls
    · rw [hpending]
      exact hs.registered.nums
    · rw [hpending, hnext]
      exact hs.registered.fresh
  · rw [hdoc, hnext]
    exact hs.doc
  · unfold Phase
    rw [hstate, hdoc, hpending, hreceived, hembedded]
    exact hs.phase

/-- `notify` keeps the collections. -/
theorem notify_spec (h : s.notify = .ok t) : t.view = s.view := by
  unfold notify at h
  split at h
  · cases h
  · obtain rfl := Except.ok.inj h
    rfl

/-- Without pending requests nothing is registered. -/
theorem registered_of_nil (hpending : s.pendingRequests = []) (hsubmitted : s.submitted = []) :
    s.Registered := by
  constructor
  · rw [hpending, hsubmitted]
  all_goals simp [hpending]

/-- After `reset` nothing is pending and no document is awaited. -/
theorem reset_spec (h : s.reset = .ok t) : t.Consistent ∧ t.state = .init := by
  unfold reset at h
  split at h
  · cases h
  · rename_i hlength
    have hnil : s.pendingRequests = [] := by simpa using hlength
    obtain rfl := Except.ok.inj h
    refine ⟨⟨registered_of_nil hnil rfl, by simp, ?_⟩, rfl⟩
    exact ⟨hnil, rfl, rfl⟩

/-- The first request is the only one that is pending. -/
theorem pendingRequests_submitRequest (h : s.pendingRequests = []) :
    (s.submitRequest req).pendingRequests = [req] := by
  simp [submitRequest, h]

/-- A load begins with the document. -/
theorem load_spec (hs : s.Consistent) (hinit : s.state = .init) (h : s.load env url = .ok t) :
    t.Consistent ∧ t.state = .fetchingDocument := by
  obtain ⟨hnil, hreceived, hembedded⟩ : s.pendingRequests = [] ∧ s.receivedResources = ∅ ∧
      s.embeddedResources = ∅ := by
    have := hs.phase
    rwa [Phase, hinit] at this
  have hsubmitted : s.submitted = [] := by rw [hs.registered.submitted, hnil]
  unfold load at h
  split at h
  · cases h
  · split at h
    · cases h
    · obtain rfl := Except.ok.inj h
      refine ⟨⟨?_, ?_, ?_⟩, rfl⟩
      · constructor
        · simp [submitRequest, hnil, hsubmitted]
        all_goals simp [submitRequest, hnil, newRequest]
      · simp [submitRequest, newRequest]
      · exact ⟨⟨_, pendingRequests_submitRequest hnil, rfl⟩, hreceived, hembedded⟩

/-- A finished load leaves the collections consistent. -/
theorem finishLoad_spec (hs : s.Consistent) (h : s.finishLoad = .ok t) :
    t.Consistent ∧ t.state ≠ .done := by
  unfold finishLoad at h
  split at h
  · split at h
    · cases h
    · rename_i u hu
      obtain ⟨hu, hinit⟩ := reset_spec hu
      have hview := notify_spec h
      refine ⟨hu.congr hview, ?_⟩
      have hstate : t.state = u.state := congrArg Prod.fst hview
      rw [hstate, hinit]
      decide
  · rename_i hstate
    obtain rfl := Except.ok.inj h
    exact ⟨hs, hstate⟩

/-- After a document is parsed the embedded urls are the pending ones. -/
theorem Asks.phase (hasks : Asks s reqs t) (hs : s.Consistent) (hpending : s.pendingRequests = [])
    (hreceived : s.receivedResources = ∅) (hembedded : s.embeddedResources = ∅) :
    t.embeddedResources =
        t.receivedResources ∪ (t.pendingRequests.map PageRequest.url).toFinset ∧
      ∀ r ∈ t.pendingRequests, t.docReqInstNum ≠ some r.instNum := by
  rw [hasks.embedded, hasks.received, hasks.pending, hasks.doc, hpending, hreceived, hembedded]
  constructor
  · rfl
  · intro r hr hdoc
    have hlt := hs.doc r.instNum hdoc
    have hle := hasks.nums r hr
    omega

/-- The next load leaves the collections consistent. -/
theorem onNotified_spec (hs : s.Consistent) (h : s.onNotified env page = .ok t) :
    t.Consistent ∧ t.state ≠ .done := by
  unfold onNotified at h
  split at h
  · cases h
  · have hs' : { s with notified := false }.Consistent := hs.congr rfl
    dsimp only at h
    split at h
    · rename_i hstate
      obtain rfl := Except.ok.inj h
      refine ⟨hs', ?_⟩
      simp [hstate]
    · rename_i hstate
      split at h
      · cases h
      · obtain ⟨ht, hfetching⟩ := load_spec hs' hstate h
        refine ⟨ht, ?_⟩
        simp [hfetching]
    · rename_i hstate
      obtain ⟨hnil, hreceived, hembedded⟩ : s.pendingRequests = [] ∧ s.receivedResources = ∅ ∧
          s.embeddedResources = ∅ := by
        have := hs.phase
        rwa [Phase, hstate] at this
      split at h
      · split at h
        · cases h
        · rename_i u hu
          obtain ⟨reqs, hasks⟩ := requestEmbeddedObjects_spec hu
          have hcleared : { s with notified := false, docContent := [] }.Consistent := hs.congr rfl
          have hphase := hasks.phase hcleared hnil hreceived hembedded
          have hregistered : u.Registered := hasks.registered hcleared.registered
          have hdoc : ∀ d ∈ u.docReqInstNum, d < u.nextInstNum := by
            intro d hd
            rw [hasks.doc] at hd
            exact (hs.doc d hd).trans_le hasks.later
          split at h
          · apply finishLoad_spec _ h
            exact ⟨⟨hregistered.submitted, hregistered.urls, hregistered.nums, hregistered.fresh⟩,
              hdoc, hphase⟩
          · apply finishLoad_spec _ h
            exact ⟨⟨hregistered.submitted, hregistered.urls, hregistered.nums, hregistered.fresh⟩,
              hdoc, hphase⟩
      · apply finishLoad_spec _ h
        have hregistered := hs.registered
        refine ⟨⟨hregistered.submitted, hregistered.urls, hregistered.nums, hregistered.fresh⟩,
          hs.doc, ?_⟩
        simp [Phase, hnil, hreceived, hembedded]
    · exact finishLoad_spec hs' h

/-- The timer of the current load stops it, any other does nothing. -/
theorem onTimeoutTimerFired_spec {loadnum : UInt32}
    (h : s.onTimeoutTimerFired loadnum = .ok t) :
    t.view = s.view ∨ t.Consistent ∧ t.state = .init := by
  unfold onTimeoutTimerFired at h
  split at h
  · split at h
    · cases h
    · rename_i u hu
      obtain ⟨hu, hinit⟩ := reset_spec hu
      have hview := notify_spec h
      have hstate : t.state = u.state := congrArg Prod.fst hview
      exact .inr ⟨hu.congr hview, hstate.trans hinit⟩
  · obtain rfl := Except.ok.inj h
    exact .inl rfl

/-- The metadata of a response leaves the collections alone. -/
theorem responseMetaCb_spec {status : Int} {headers : List (Bytes × Bytes)}
    (h : s.responseMetaCb status headers req = .ok t) : t.view = s.view := by
  unfold responseMetaCb at h
  split at h
  · cases h
  · split at h
    · obtain rfl := Except.ok.inj h
      rfl
    · obtain rfl := Except.ok.inj h
      rfl

/-- The data of a response leave the collections alone. -/
theorem view_responseBodyDataCb (data : Bytes) : (s.responseBodyDataCb data req).view = s.view := by
  unfold responseBodyDataCb
  split <;> rfl

/-! ## A response -/

/-- The request that the manager reports. -/
theorem request_spec {instNum : Nat} (hs : s.Registered) (h : s.request instNum = some req) :
    req ∈ s.pendingRequests ∧ req.instNum = instNum := by
  constructor
  · rw [← hs.submitted]
    exact List.mem_of_find?_eq_some h
  · simpa using List.find?_some h

/-- A request that is reported leaves both collections. -/
theorem Registered.remove (hs : s.Registered) (hreq : req ∈ s.pendingRequests)
    (hsubmitted : t.submitted = s.submitted.filter fun r => r.instNum ≠ req.instNum)
    (hpending : t.pendingRequests = s.pendingRequests.filter fun r => r.url ≠ req.url)
    (hnext : t.nextInstNum = s.nextInstNum) : t.Registered := by
  have hsub : t.pendingRequests.Sublist s.pendingRequests := by
    rw [hpending]
    exact List.filter_sublist
  constructor
  · rw [hsubmitted, hpending, hs.submitted]
    apply List.filter_congr
    intro r hr
    have hiff : r.instNum = req.instNum ↔ r.url = req.url := by
      constructor
      · intro heq
        rw [List.inj_on_of_nodup_map hs.nums hr hreq heq]
      · intro heq
        rw [List.inj_on_of_nodup_map hs.urls hr hreq heq]
    simp [hiff]
  · exact hs.urls.sublist (hsub.map _)
  · exact hs.nums.sublist (hsub.map _)
  · intro r hr
    rw [hnext]
    exact hs.fresh r (hsub.subset hr)

/-- The urls that are pending once a response and its script are processed. -/
theorem map_url_eq_awaited (hurls : reqs.map PageRequest.url = s.urlsOfScript req)
    (hpending : t.pendingRequests = (s.pendingRequests.filter fun r => r.url ≠ req.url) ++ reqs) :
    t.pendingRequests.map PageRequest.url = s.awaited req := by
  rw [hpending, List.map_append, hurls]
  rfl

/-- The page is declared done just if every url that is awaited was received before. -/
theorem embeddedFinished_spec (hs : s.Consistent) (hreq : req ∈ s.pendingRequests)
    (h : { s with
        submitted := s.submitted.filter fun r => r.instNum ≠ req.instNum
        pendingRequests := s.pendingRequests.filter fun r =>
          r.url ≠ req.url }.embeddedFinished env req =
      .ok t) :
    t.Consistent ∧ t.pendingRequests.map PageRequest.url = s.awaited req ∧
      (t.state = .done ↔ ∀ url ∈ s.awaited req, url = req.url ∨ url ∈ s.receivedResources) := by
  unfold embeddedFinished at h
  split at h
  · cases h
  · rename_i hstate
    rw [not_not] at hstate
    split at h
    · cases h
    · rename_i u hu
      obtain ⟨reqs, hurls, hasks⟩ := processFetched_spec hu
      obtain ⟨hembedded, hnotdoc⟩ : s.embeddedResources =
          s.receivedResources ∪ (s.pendingRequests.map PageRequest.url).toFinset ∧
          ∀ r ∈ s.pendingRequests, s.docReqInstNum ≠ some r.instNum := by
        have := hs.phase
        rwa [Phase, hstate] at this
      have hregistered : u.Registered :=
        hasks.registered (hs.registered.remove hreq rfl rfl rfl)
      have hawaited : u.pendingRequests.map PageRequest.url = s.awaited req :=
        map_url_eq_awaited hurls hasks.pending
      have hunion : u.embeddedResources =
          u.receivedResources ∪ (u.pendingRequests.map PageRequest.url).toFinset := by
        rw [hasks.embedded, hasks.received, hasks.pending]
        ext url
        simp only [hembedded, Finset.mem_union, Finset.mem_insert, List.mem_toFinset,
          List.map_append, List.mem_append]
        by_cases hurl : url = req.url
        · have hmem : req.url ∈ s.pendingRequests.map PageRequest.url := List.mem_map_of_mem hreq
          simp [hurl, hmem]
        · have hfilter : url ∈ (s.pendingRequests.filter fun r => r.url ≠ req.url).map
              PageRequest.url ↔ url ∈ s.pendingRequests.map PageRequest.url := by
            simp only [List.mem_map, List.mem_filter]
            constructor
            · rintro ⟨r, ⟨hr, -⟩, rfl⟩
              exact ⟨r, hr, rfl⟩
            · rintro ⟨r, hr, rfl⟩
              exact ⟨r, ⟨hr, by simpa using hurl⟩, rfl⟩
          rw [hfilter]
          simp only [hurl, false_or, or_assoc]
      have hphase : u.embeddedResources =
            u.receivedResources ∪ (u.pendingRequests.map PageRequest.url).toFinset ∧
          ∀ r ∈ u.pendingRequests, u.docReqInstNum ≠ some r.instNum := by
        refine ⟨hunion, ?_⟩
        intro r hr
        rw [hasks.pending] at hr
        rw [hasks.doc]
        rcases List.mem_append.mp hr with hr | hr
        · exact hnotdoc r (List.mem_of_mem_filter hr)
        · intro heq
          have hlt := hs.doc r.instNum heq
          have hle := hasks.nums r hr
          simp only at hle
          omega
      have hnums : ∀ d ∈ u.docReqInstNum, d < u.nextInstNum := by
        intro d hd
        rw [hasks.doc] at hd
        exact (hs.doc d hd).trans_le hasks.later
      have hdone : u.isPageDone = true ↔
          ∀ url ∈ s.awaited req, url = req.url ∨ url ∈ s.receivedResources := by
        rw [isPageDone_iff hunion, hasks.received, ← hawaited]
        simp
      split at h
      · rename_i hpage
        have hview := notify_spec h
        have hu' : { u with state := .done }.Consistent :=
          ⟨⟨hregistered.submitted, hregistered.urls, hregistered.nums, hregistered.fresh⟩, hnums,
            hphase⟩
        have hpending : t.pendingRequests = u.pendingRequests :=
          congrArg (fun v => v.2.2.1) hview
        have htstate : t.state = .done := congrArg Prod.fst hview
        refine ⟨hu'.congr hview, by rw [hpending, hawaited], ?_⟩
        simp only [htstate, true_iff]
        exact hdone.mp hpage
      · rename_i hpage
        obtain rfl := Except.ok.inj h
        have hustate : u.state = .fetchingEmbedded := hasks.state.trans hstate
        refine ⟨⟨hregistered, hnums, ?_⟩, hawaited, ?_⟩
        · rw [Phase, hustate]
          exact hphase
        · rw [hustate, ← hdone]
          simp [hpage]

/-- The document is finished. -/
theorem documentFinished_spec (hs : s.Consistent) (hreq : req ∈ s.pendingRequests)
    (hdoc : some req.instNum = s.docReqInstNum)
    (h : { s with
        submitted := s.submitted.filter fun r => r.instNum ≠ req.instNum
        pendingRequests := s.pendingRequests.filter fun r => r.url ≠ req.url
        state := .doneDocument }.notify = .ok t) : t.Consistent ∧ t.state = .doneDocument := by
  have hview := notify_spec h
  have hphase := hs.phase
  have hregistered : { s with
      submitted := s.submitted.filter fun r => r.instNum ≠ req.instNum
      pendingRequests := s.pendingRequests.filter fun r => r.url ≠ req.url
      state := .doneDocument }.Registered := hs.registered.remove hreq rfl rfl rfl
  refine ⟨Consistent.congr ⟨hregistered, hs.doc, ?_⟩ hview, congrArg Prod.fst hview⟩
  have hdocument : s.pendingRequests = [req] ∧ s.receivedResources = ∅ ∧
      s.embeddedResources = ∅ := by
    unfold Phase at hphase
    cases hstate : s.state <;> simp only [hstate] at hphase
    case fetchingDocument =>
      obtain ⟨⟨r, hr, -⟩, hempty⟩ := hphase
      rw [hr, List.mem_singleton] at hreq
      exact ⟨by rw [hr, hreq], hempty⟩
    case fetchingEmbedded | done => exact absurd hdoc.symm (hphase.2 req hreq)
    case init | doneDocument => simp [hphase.1] at hreq
    case closed => simp [hphase] at hreq
  obtain ⟨hpending, hreceived, hembedded⟩ := hdocument
  refine ⟨?_, hreceived, hembedded⟩
  simp [hpending]

/-! ## Steps and runs -/

/-- What is due and happens: a callback changes nothing that the invariant is about, or it ends in a
state other than `SB_DONE`, or it is the response of a request for an embedded object. -/
theorem step_spec (hs : s.Consistent) (h : step env s e = .ok t) :
    t.view = s.view ∧ s.AwaitsFirstFetch e ∨
    (t.Consistent ∧ t.state ≠ .done) ∧ s.AwaitsFirstFetch e ∨
    ∃ instNum success req, e = .responseFinished instNum success ∧ s.request instNum = some req ∧
      some req.instNum ≠ s.docReqInstNum ∧ t.Consistent ∧
      t.pendingRequests.map PageRequest.url = s.awaited req ∧
      (t.state = .done ↔ ∀ url ∈ s.awaited req, url = req.url ∨ url ∈ s.receivedResources) := by
  cases e with
  | notified page =>
    simp only [step] at h
    split at h
    · obtain rfl := Except.ok.inj h
      exact .inl ⟨rfl, trivial⟩
    · have hs' : { s with scheduled := s.scheduled - 1 }.Consistent := hs.congr rfl
      exact .inr (.inl ⟨onNotified_spec hs' h, trivial⟩)
  | timeout loadnum =>
    simp only [step] at h
    split at h
    · rcases onTimeoutTimerFired_spec h with hview | ⟨ht, hstate⟩
      · exact .inl ⟨hview, trivial⟩
      · refine .inr (.inl ⟨⟨ht, ?_⟩, trivial⟩)
        simp [hstate]
    · obtain rfl := Except.ok.inj h
      exact .inl ⟨rfl, trivial⟩
  | responseMeta instNum status headers =>
    simp only [step] at h
    split at h
    · obtain rfl := Except.ok.inj h
      exact .inl ⟨rfl, trivial⟩
    · exact .inl ⟨responseMetaCb_spec h, trivial⟩
  | responseBodyData instNum data =>
    simp only [step] at h
    split at h
    · obtain rfl := Except.ok.inj h
      exact .inl ⟨rfl, trivial⟩
    · obtain rfl := Except.ok.inj h
      exact .inl ⟨view_responseBodyDataCb data, trivial⟩
  | responseFinished instNum success =>
    simp only [step] at h
    split at h
    · rename_i hnone
      obtain rfl := Except.ok.inj h
      refine .inl ⟨rfl, ?_⟩
      simp [AwaitsFirstFetch, hnone]
    · rename_i req hrequest
      obtain ⟨hreq, rfl⟩ := request_spec hs.registered hrequest
      unfold responseFinishedCb at h
      dsimp only at h
      split at h
      · rename_i hdoc
        obtain ⟨ht, hstate⟩ := documentFinished_spec hs hreq hdoc h
        refine .inr (.inl ⟨⟨ht, by simp [hstate]⟩, ?_⟩)
        simp [AwaitsFirstFetch, hrequest, hdoc]
      · rename_i hdoc
        exact .inr
          (.inr ⟨req.instNum, success, req, rfl, hrequest, hdoc, embeddedFinished_spec hs hreq h⟩)
  | close =>
    obtain rfl := Except.ok.inj h
    refine .inr (.inl ⟨⟨⟨registered_of_nil rfl rfl, hs.doc, ?_⟩, ?_⟩, trivial⟩)
    · rfl
    · simp [close]

/-- Every event keeps the collections consistent. -/
theorem Consistent.step (hs : s.Consistent) (h : step env s e = .ok t) : t.Consistent := by
  rcases step_spec hs h with ⟨hview, -⟩ | ⟨⟨ht, -⟩, -⟩ | ⟨_, _, req, -, -, -, ht, -⟩
  · exact hs.congr hview
  · exact ht
  · exact ht

/-- A step keeps the browser right about its page just if a response leaves a first fetch to be
awaited or nothing. -/
theorem finishes_iff (hs : s.Consistent) (hfinishes : s.Finishes) (h : step env s e = .ok t) :
    t.Finishes ↔ s.AwaitsFirstFetch e := by
  rcases step_spec hs h with ⟨hview, he⟩ | ⟨⟨-, hstate⟩, he⟩ |
      ⟨instNum, success, req, rfl, hrequest, hdoc, ht, hpending, hdone⟩
  · simp only [he, iff_true]
    simp only [view, Prod.mk.injEq] at hview
    obtain ⟨hstate, -, hpending, -, -, -, hsubmitted⟩ := hview
    unfold Finishes
    rw [hstate, hpending, hsubmitted]
    exact hfinishes
  · simp only [he, iff_true]
    exact fun hdone => absurd hdone hstate
  · have hnil : t.pendingRequests = [] ↔ s.awaited req = [] := by
      rw [← hpending, List.map_eq_nil_iff]
    have hcond : s.AwaitsFirstFetch (.responseFinished instNum success) ↔
        (s.awaited req ≠ [] → ∃ url ∈ s.awaited req, url ≠ req.url ∧
          url ∉ s.receivedResources) := by
      simp [AwaitsFirstFetch, hrequest, hdoc]
    rw [hcond, Finishes, ht.registered.submitted, and_self, hnil, hdone]
    constructor
    · intro himp hne
      by_contra hall
      push Not at hall
      apply hne
      apply himp
      intro url hurl
      by_cases hreq : url = req.url
      · exact .inl hreq
      · exact .inr (hall url hurl hreq)
    · intro himp hall
      by_contra hne
      obtain ⟨url, hurl, hreq, hreceived⟩ := himp hne
      rcases hall url hurl with h | h
      · exact hreq h
      · exact hreceived h

/-! ## The assertion of `reset` -/

/-- A fault that is handed on. -/
theorem error_ne {σ τ : Type*} {f g : BrowserFault} {x : Except BrowserFault σ} (hx : x ≠ .error g)
    (h : x = .error f) : (Except.error f : Except BrowserFault τ) ≠ .error g := by
  intro heq
  apply hx
  rw [h, Except.error.inj heq]

/-- `notify` does not look at the pending requests. -/
theorem notify_ne : s.notify ≠ .error .pendingRequests := by
  unfold notify
  split <;> simp

/-- Reading a line of a script does not look at the pending requests. -/
theorem urlToFetch_ne {line : Bytes} : urlToFetch line ≠ .error .pendingRequests := by
  unfold urlToFetch
  repeat' split
  all_goals simp

/-- A request does not fail for what is pending. -/
theorem requestOneUrl_ne : s.requestOneUrl env url ≠ .error .pendingRequests := by
  unfold requestOneUrl
  dsimp only
  split
  · simp
  · split <;> simp

/-- The lines of a script do not fail for what is pending. -/
theorem processLines_ne {lines : List Bytes} :
    s.processLines env lines ≠ .error .pendingRequests := by
  induction lines generalizing s with
  | nil => simp [processLines]
  | cons line lines ih =>
    unfold processLines
    split
    · rename_i f hline
      exact error_ne urlToFetch_ne hline
    · exact ih
    · split
      · rename_i f hrequest
        exact error_ne requestOneUrl_ne hrequest
      · exact ih

/-- A script does not fail for what is pending. -/
theorem processAScript_ne {sr : ScriptResource} :
    s.processAScript env sr ≠ .error .pendingRequests := by
  unfold processAScript
  split
  · split
    · simp
    · exact requestOneUrl_ne
  · exact processLines_ne

/-- A fetched object does not fail for what is pending. -/
theorem processFetched_ne : s.processFetched env req ≠ .error .pendingRequests := by
  unfold processFetched
  split
  · simp
  · exact processAScript_ne

/-- The images do not fail for what is pending. -/
theorem requestImages_ne {urls : List Bytes} :
    s.requestImages env urls ≠ .error .pendingRequests := by
  induction urls generalizing s with
  | nil => simp [requestImages]
  | cons url urls ih =>
    unfold requestImages
    split
    · rename_i f hrequest
      exact error_ne requestOneUrl_ne hrequest
    · exact ih

/-- The scripts do not fail for what is pending. -/
theorem processScripts_ne {scripts : List ScriptResource} :
    s.processScripts env scripts ≠ .error .pendingRequests := by
  induction scripts generalizing s with
  | nil => simp [processScripts]
  | cons sr scripts ih =>
    unfold processScripts
    split
    · rename_i f hscript
      exact error_ne processAScript_ne hscript
    · exact ih

/-- The embedded objects do not fail for what is pending. -/
theorem requestEmbeddedObjects_ne :
    s.requestEmbeddedObjects env ≠ .error .pendingRequests := by
  unfold requestEmbeddedObjects
  dsimp only
  split
  · rename_i f himages
    exact error_ne requestImages_ne himages
  · exact processScripts_ne

/-- A new load does not fail for what is pending. -/
theorem load_ne : s.load env url ≠ .error .pendingRequests := by
  unfold load
  split
  · simp
  · split <;> simp

/-- `reset` goes through when nothing is pending. -/
theorem reset_eq_ok (h : s.pendingRequests = []) : ∃ t, s.reset = .ok t := by
  simp [reset, h]

/-- A load is finished only when nothing is pending. -/
theorem finishLoad_ne (h : s.state = .done → s.pendingRequests = []) :
    s.finishLoad ≠ .error .pendingRequests := by
  unfold finishLoad
  split
  · rename_i hdone
    obtain ⟨t, ht⟩ := reset_eq_ok (h hdone)
    rw [ht]
    exact notify_ne
  · simp

/-- A document without embedded objects leaves nothing pending. -/
theorem Asks.pending_eq_nil (hasks : Asks s reqs t) (hpending : s.pendingRequests = [])
    (hreceived : s.receivedResources = ∅) (hembedded : s.embeddedResources = ∅)
    (hdone : t.isPageDone = true) : t.pendingRequests = [] := by
  have hunion : t.embeddedResources =
      t.receivedResources ∪ (t.pendingRequests.map PageRequest.url).toFinset := by
    rw [hasks.embedded, hasks.received, hasks.pending, hpending, hreceived, hembedded]
    rfl
  have hall := (isPageDone_iff hunion).mp hdone
  rw [hasks.received, hreceived] at hall
  exact List.eq_nil_iff_forall_not_mem.mpr fun r hr => absurd (hall r hr) (by simp)

/-- A load that was notified of finishes without pending requests. -/
theorem onNotified_ne (hs : s.Consistent) (hfinishes : s.Finishes) :
    s.onNotified env page ≠ .error .pendingRequests := by
  unfold onNotified
  split
  · simp
  · dsimp only
    split
    · simp
    · split
      · simp
      · exact load_ne
    · rename_i hstate
      obtain ⟨hnil, hreceived, hembedded⟩ : s.pendingRequests = [] ∧ s.receivedResources = ∅ ∧
          s.embeddedResources = ∅ := by
        have := hs.phase
        rwa [Phase, hstate] at this
      split
      · split
        · rename_i f hrequest
          exact error_ne requestEmbeddedObjects_ne hrequest
        · rename_i u hu
          obtain ⟨reqs, hasks⟩ := requestEmbeddedObjects_spec hu
          split
          · rename_i hdone
            apply finishLoad_ne
            exact fun _ => hasks.pending_eq_nil hnil hreceived hembedded hdone
          · apply finishLoad_ne
            simp
      · apply finishLoad_ne
        exact fun _ => hnil
    · apply finishLoad_ne
      exact fun hdone => (hfinishes hdone).1

/-- The end of a response does not fail for what is pending. -/
theorem responseFinishedCb_ne : s.responseFinishedCb env req ≠ .error .pendingRequests := by
  unfold responseFinishedCb
  dsimp only
  split
  · exact notify_ne
  · unfold embeddedFinished
    split
    · simp
    · split
      · rename_i f hscript
        exact error_ne processFetched_ne hscript
      · split
        · exact notify_ne
        · simp

/-- While the browser is right about its page, `reset()` finds no pending request. -/
theorem step_ne (hs : s.Consistent) (hfinishes : s.Finishes) :
    step env s e ≠ .error .pendingRequests := by
  cases e with
  | notified page =>
    simp only [step]
    split
    · simp
    · have hs' : { s with scheduled := s.scheduled - 1 }.Consistent := hs.congr rfl
      exact onNotified_ne hs' hfinishes
  | timeout loadnum =>
    simp only [step]
    split
    · unfold onTimeoutTimerFired stopLoad
      split
      · obtain ⟨t, ht⟩ := reset_eq_ok (s := { s with
          timers := s.timers.erase loadnum, pendingRequests := [] }) rfl
        rw [ht]
        exact notify_ne
      · simp
    · simp
  | responseMeta instNum status headers =>
    simp only [step]
    split
    · simp
    · unfold responseMetaCb
      split
      · simp
      · split <;> simp
  | responseBodyData instNum data =>
    simp only [step]
    split <;> simp
  | responseFinished instNum success =>
    simp only [step]
    split
    · simp
    · exact responseFinishedCb_ne
  | close => simp [step]

/-! ## Runs -/

/-- A new browser is consistent. -/
theorem consistent_new : new.Consistent := by
  refine ⟨registered_of_nil rfl rfl, ?_, rfl, rfl, rfl⟩
  simp [new]

/-- The first load begins consistent. -/
theorem start_spec (h : start env page = .ok s) : s.Consistent ∧ s.Finishes := by
  unfold start at h
  split at h
  · cases h
  · have hnew : { new with loadnum := 1 }.Consistent := consistent_new.congr rfl
    obtain ⟨hs, hstate⟩ := load_spec hnew rfl h
    refine ⟨hs, ?_⟩
    simp [Finishes, hstate]

/-- A run of the browser goes through no state in which an unfinished page is declared done just if
every response leaves a first fetch to be awaited or nothing; then the assertion of `reset()` does
not fail either, not even at the end of the run. -/
theorem finishes_iff_awaitsFirstFetch (env : Env) (page : Nat) (es : List BrowserEvent)
    (s₀ : Browser) (hstart : start env page = .ok s₀) :
    (∀ s, runSteps (step env) s₀ es = .ok s →
      ((∀ t, Visits (step env) s₀ es t → t.Finishes) ↔
        StepsMeet (step env) AwaitsFirstFetch s₀ es)) ∧
    (StepsMeet (step env) AwaitsFirstFetch s₀ es →
      runSteps (step env) s₀ es ≠ .error .pendingRequests) := by
  obtain ⟨hs, hfinishes⟩ := start_spec hstart
  constructor
  · intro s hrun
    exact forall_visits_iff_stepsMeet Consistent Finishes (fun _ _ _ hs h => hs.step h)
      (fun _ _ _ hs hg h => finishes_iff hs hg h) hs hfinishes hrun
  · intro hmeet hrun
    have hfault := fault_of_stepsMeet (fun s : Browser => s.Consistent ∧ s.Finishes)
      (· ≠ BrowserFault.pendingRequests)
      (fun _ _ _ hs hP h => ⟨hs.1.step h, (finishes_iff hs.1 hs.2 h).mpr hP⟩)
      (fun _ _ f hs _ h hf => step_ne hs.1 hs.2 (h.trans (congrArg _ hf)))
        ⟨hs, hfinishes⟩ hmeet hrun
    exact hfault rfl

/-- A page with an image and a script. -/
def imageAndScript : Env where
  pages := [ascii "http://h/"]
  myhostname := ascii "b"
  timeout := false
  urlGetParts := fun _ => some { hostname := ascii "h", port := none, path := ascii "/" }
  htmlParse := fun _ => ([ascii "a.png"], [{ src := ascii "s.js", lines := [] }])

/-- The document arrives, then the image, then a script that asks for one resource. -/
def scriptArrivesLast (url : String) : List BrowserEvent :=
  [.responseMeta 0 200 [(ascii "Content-Type", ascii "text/html")],
    .responseBodyData 0 (ascii "<img src=a.png>"), .responseFinished 0 true, .notified 0,
    .responseFinished 1 true, .responseBodyData 2 (ascii ("// delayed_load: url= " ++ url)),
    .responseFinished 2 true]

/-- The script asks for a resource that was not fetched before. -/
theorem finishes_iff_awaitsFirstFetch_new :
    ∃ s₀, start imageAndScript 0 = .ok s₀ ∧
      (∀ s, runSteps (step imageAndScript) s₀ (scriptArrivesLast "b.png") = .ok s →
        ((∀ t, Visits (step imageAndScript) s₀ (scriptArrivesLast "b.png") t → t.Finishes) ↔
          StepsMeet (step imageAndScript) AwaitsFirstFetch s₀ (scriptArrivesLast "b.png"))) ∧
      (StepsMeet (step imageAndScript) AwaitsFirstFetch s₀ (scriptArrivesLast "b.png") →
        runSteps (step imageAndScript) s₀ (scriptArrivesLast "b.png") ≠ .error .pendingRequests) :=
  ⟨_, rfl, finishes_iff_awaitsFirstFetch imageAndScript 0 (scriptArrivesLast "b.png") _ rfl⟩

/-- The script asks for the image again: the page is declared done while the image is pending, and
`reset()` fails its assertion. -/
theorem not_finishes_again :
    ∃ s₀ s, start imageAndScript 0 = .ok s₀ ∧
      runSteps (step imageAndScript) s₀ (scriptArrivesLast "a.png") = .ok s ∧ ¬s.Finishes ∧
      step imageAndScript s (.notified 0) = .error .pendingRequests := by
  refine ⟨_, _, rfl, rfl, ?_, rfl⟩
  unfold Finishes
  decide

end Browser

end ShadowExtras.Web
