import ShadowExtras.Foundation.Bytes
import ShadowExtras.Foundation.Run
import Mathlib.Data.Finset.Card

/-!
# The browser

`browser_t` loads a page: it requests the document, parses it, requests the embedded objects and
whatever their scripts ask for, and declares the page done when as many resources were received as
are known to be embedded. Then it resets itself and schedules the next load.

A step is one callback: the deferred notification, the timer of a load, or a report of the
connection manager about one of the requests it was given and has not answered yet. The manager
reports a request at most once, as answered or as failed, and `reset()` makes it forget its
requests; both are taken for granted here. What the document contains and what a url means come from
libraries (Tidy, the regular expressions of GLib) and are parameters, gathered in `Env`. The checks
of the received bodies, the counters and the times are reported only and left out.
-/

namespace ShadowExtras.Web

open Foundation

/-! ## Data -/

/-- `enum browser_state`. -/
inductive BrowserState
  | init
  | fetchingDocument
  | doneDocument
  | fetchingEmbedded
  | done
  | closed
  deriving DecidableEq, Repr

/-- `Request`, as far as the browser fills it. -/
structure PageRequest where
  instNum : Nat
  url : Bytes
  host : Bytes
  port : UInt16
  path : Bytes
  headers : List (Bytes × Bytes)
  deriving DecidableEq, Repr

/-- `ScriptResource`. -/
structure ScriptResource where
  src : Bytes
  lines : List Bytes
  deriving DecidableEq, Repr

/-- What `url_get_parts` finds; the port only if there is one. -/
structure UrlParts where
  hostname : Bytes
  port : Option UInt16
  path : Bytes
  deriving DecidableEq, Repr

/-- What the browser is configured with and what its libraries compute. -/
structure Env where
  /-- The urls of `page_specs_`. -/
  pages : List Bytes
  myhostname : Bytes
  /-- `timeout_ms_ > -1`. -/
  timeout : Bool
  urlGetParts : Bytes → Option UrlParts
  /-- The images and the scripts of a document. -/
  htmlParse : Bytes → List Bytes × List ScriptResource

/-- The ways a callback ends the program. -/
inductive BrowserFault
  /-- `rand() % page_specs_.size()` without pages. -/
  | noPage
  /-- A url without host name. -/
  | urlParts
  /-- `status == 200 || status == 206` -/
  | status
  /-- `state == SB_FETCHING_EMBEDDED` in `response_finished_cb`. -/
  | notFetchingEmbedded
  /-- `!inMap(pending_requests_, string(url))` -/
  | alreadyPending
  /-- `0 == sr.lines.size()` -/
  | scriptLines
  /-- `parts[2] == "url="`, or a part that is missing. -/
  | scriptUrl
  /-- `0 < url_to_fetch.length()` -/
  | emptyUrl
  /-- `!notified_` in `notify`. -/
  | notified
  /-- `notified_` in `on_notified`. -/
  | notNotified
  /-- `pending_requests_.size() == 0` in `reset`. -/
  | pendingRequests
  /-- A connection on the event base that `close` has deleted. -/
  | evbase
  deriving DecidableEq, Repr

/-- `browser_t`, with the callbacks that are scheduled and the requests of its connection
manager. -/
structure Browser where
  state : BrowserState
  /-- `evbase_` was not deleted. -/
  evbase : Bool
  firstHostname : Bytes
  docIsHtml : Bool
  /-- `doc_req_instNum_`, `none` for `-1`. -/
  docReqInstNum : Option Nat
  docContent : Bytes
  /-- `pending_requests_`, keyed by the url. -/
  pendingRequests : List PageRequest
  receivedResources : Finset Bytes
  embeddedResources : Finset Bytes
  /-- `scriptReq2BodyText`, keyed by `instNum_`. -/
  scriptReq2BodyText : List (Nat × Bytes)
  notified : Bool
  loadnum : UInt32
  /-- `Request::nextInstNum`. -/
  nextInstNum : Nat
  /-- The requests that were submitted to `connman_` and neither answered nor failed so far. -/
  submitted : List PageRequest
  /-- The scheduled calls of `notified`. -/
  scheduled : Nat
  /-- The scheduled calls of `timeout_timer_fired`, by their `loadnum_`. -/
  timers : List UInt32
  deriving DecidableEq

/-- A callback. -/
inductive BrowserEvent
  /-- `notified`; `page` is what `rand() % page_specs_.size()` gives if it is needed. -/
  | notified (page : Nat)
  /-- `timeout_timer_fired` -/
  | timeout (loadnum : UInt32)
  /-- `response_meta_cb` -/
  | responseMeta (instNum : Nat) (status : Int) (headers : List (Bytes × Bytes))
  /-- `response_body_data_cb` -/
  | responseBodyData (instNum : Nat) (data : Bytes)
  /-- `response_finished_cb`; the request was answered or it failed. -/
  | responseFinished (instNum : Nat) (success : Bool)
  /-- `close` -/
  | close
  deriving DecidableEq, Repr

/-! ## Scripts -/

/-- `boost::trim`. -/
def trim (s : Bytes) : Bytes := ((s.dropWhile isSpace).reverse.dropWhile isSpace).reverse

/-- The lines of a script that was fetched. -/
def scriptLines (text : Bytes) : List Bytes := (trim text).splitOn lf

/-- What marks a line that loads a resource. -/
def delayedLoad : Bytes := ascii "// delayed_load: "

/-- The url a line of a script asks for, if it does so:
`// delayed_load: url= <url> delayms= <delay>`. -/
def urlToFetch (line : Bytes) : Except BrowserFault (Option Bytes) :=
  if delayedLoad <:+: trim line then
    match (trim line).splitOn 32 with
    | _ :: _ :: key :: url :: _ =>
      if key = ascii "url=" then
        if url = [] then .error .emptyUrl else .ok (some (cString url))
      else .error .scriptUrl
    | _ => .error .scriptUrl
  else .ok none

/-- Is the resource a script? -/
def isScript (url : Bytes) : Bool := 3 < url.length && url.drop (url.length - 3) = ascii ".js"

/-- `url_is_absolute`. -/
def urlIsAbsolute (url : Bytes) : Bool :=
  (ascii "http://").isPrefixOf url || (ascii "https://").isPrefixOf url ||
    (ascii "//").isPrefixOf url

namespace Browser

variable (env : Env) (s : Browser)

/-! ## Operations -/

/-- The constructor of `Request`. -/
def newRequest (url host : Bytes) (port : UInt16) (path : Bytes) (headers : List (Bytes × Bytes)) :
    PageRequest where
  instNum := s.nextInstNum
  url := url
  host := host
  port := port
  path := path
  headers := headers

/-- Submit a new request to the manager and remember it by its url. -/
def submitRequest (req : PageRequest) : Browser :=
  { s with
    nextInstNum := s.nextInstNum + 1
    submitted := s.submitted ++ [req]
    pendingRequests := s.pendingRequests.filter (fun r => r.url ≠ req.url) ++ [req] }

/-- `browser_t::notify` -/
def notify : Except BrowserFault Browser :=
  if s.notified then .error .notified
  else .ok { s with notified := true, scheduled := s.scheduled + 1 }

/-- `browser_t::load` -/
def load (url : Bytes) : Except BrowserFault Browser :=
  match env.urlGetParts (cString url) with
  | none => .error .urlParts
  | some parts =>
    if !s.evbase then .error .evbase else
    let loadid := env.myhostname ++ ascii "-load-" ++ decimal s.loadnum.toNat
    let s := { s with timers := if env.timeout then s.timers ++ [s.loadnum] else s.timers }
    let req := s.newRequest url parts.hostname (parts.port.getD 80) parts.path
      [(ascii "x-load-id", loadid)]
    .ok { s.submitRequest req with
      docReqInstNum := some req.instNum
      state := .fetchingDocument
      firstHostname := parts.hostname }

/-- `browser_t::request_one_url`, for the C string that it gets. -/
def requestOneUrl (url : Bytes) : Except BrowserFault Browser :=
  let s := { s with embeddedResources := insert url s.embeddedResources }
  let parts :=
    if urlIsAbsolute url then env.urlGetParts url
    else some
      { hostname := s.firstHostname
        port := none
        path := if (ascii "/").isPrefixOf url then url else ascii "/" ++ url }
  if url ∈ s.pendingRequests.map PageRequest.url then .error .alreadyPending
  else match parts with
  | none => .error .urlParts
  | some parts =>
    let req := s.newRequest url parts.hostname (parts.port.getD 80) parts.path []
    .ok { s.submitRequest req with
      scriptReq2BodyText :=
        if isScript url then s.scriptReq2BodyText ++ [(req.instNum, [])] else s.scriptReq2BodyText }

/-- The loop of `browser_t::process_a_script` over the lines. -/
def processLines : List Bytes → Browser → Except BrowserFault Browser
  | [], s => .ok s
  | line :: lines, s =>
    match urlToFetch line with
    | .error f => .error f
    | .ok none => processLines lines s
    | .ok (some url) =>
      match s.requestOneUrl env url with
      | .error f => .error f
      | .ok s => processLines lines s

/-- `browser_t::process_a_script` -/
def processAScript (sr : ScriptResource) : Except BrowserFault Browser :=
  if sr.src ≠ [] then
    if sr.lines ≠ [] then .error .scriptLines else s.requestOneUrl env (cString sr.src)
  else s.processLines env sr.lines

/-- The loop of `request_embedded_objects` over the images. -/
def requestImages : List Bytes → Browser → Except BrowserFault Browser
  | [], s => .ok s
  | url :: urls, s =>
    match s.requestOneUrl env (cString url) with
    | .error f => .error f
    | .ok s => requestImages urls s

/-- The loop of `request_embedded_objects` over the scripts. -/
def processScripts : List ScriptResource → Browser → Except BrowserFault Browser
  | [], s => .ok s
  | sr :: srs, s =>
    match s.processAScript env sr with
    | .error f => .error f
    | .ok s => processScripts srs s

/-- `browser_t::request_embedded_objects` -/
def requestEmbeddedObjects : Except BrowserFault Browser :=
  let (images, scripts) := env.htmlParse (cString s.docContent)
  match { s with docContent := [] }.requestImages env images with
  | .error f => .error f
  | .ok s => s.processScripts env scripts

/-- `browser_t::is_page_done` -/
def isPageDone : Bool := s.embeddedResources.card = s.receivedResources.card

/-- `browser_t::reset`, up to the assertion and from there on; the manager forgets its requests. -/
def reset : Except BrowserFault Browser :=
  if s.pendingRequests.length ≠ 0 then .error .pendingRequests
  else .ok { s with
    state := .init
    firstHostname := []
    submitted := []
    docIsHtml := false
    docReqInstNum := none
    docContent := []
    notified := false
    receivedResources := ∅
    embeddedResources := ∅ }

/-- `browser_t::stop_load` -/
def stopLoad : Except BrowserFault Browser := { s with pendingRequests := [] }.reset

/-- `browser_t::close` -/
def close : Browser :=
  { s with evbase := false, submitted := [], pendingRequests := [], state := .closed }

/-! ## Callbacks -/

/-- The end of `on_notified`: in `SB_DONE` reset and schedule the next load. -/
def finishLoad : Except BrowserFault Browser :=
  if s.state = .done then
    match s.reset with
    | .error f => .error f
    | .ok s => { s with loadnum := s.loadnum + 1 }.notify
  else .ok s

/-- `browser_t::on_notified` -/
def onNotified (page : Nat) : Except BrowserFault Browser :=
  if !s.notified then .error .notNotified else
  let s := { s with notified := false }
  match s.state with
  | .closed => .ok s
  | .init =>
    match env.pages[page]? with
    | none => .error .noPage
    | some url => s.load env url
  | .doneDocument =>
    if s.docIsHtml then
      match s.requestEmbeddedObjects env with
      | .error f => .error f
      | .ok s =>
        if s.isPageDone then { s with state := .done }.finishLoad
        else { s with state := .fetchingEmbedded }.finishLoad
    else { s with state := .done }.finishLoad
  | _ => s.finishLoad

/-- `browser_t::on_timeout_timer_fired` -/
def onTimeoutTimerFired (loadnum : UInt32) : Except BrowserFault Browser :=
  if loadnum = s.loadnum then
    match s.stopLoad with
    | .error f => .error f
    | .ok s => { s with loadnum := s.loadnum + 1 }.notify
  else .ok s

/-- `browser_t::response_meta_cb`: the last `Content-Type` of the document counts. -/
def responseMetaCb (status : Int) (headers : List (Bytes × Bytes)) (req : PageRequest) :
    Except BrowserFault Browser :=
  if status ≠ 200 ∧ status ≠ 206 then .error .status
  else if some req.instNum = s.docReqInstNum then
    let types := headers.filter fun h => caselessEq h.1 (ascii "content-type")
    .ok { s with
      docIsHtml := match types.getLast? with
        | some h => caselessEq h.2 (ascii "text/html")
        | none => s.docIsHtml }
  else .ok s

/-- `browser_t::response_body_data_cb` -/
def responseBodyDataCb (data : Bytes) (req : PageRequest) : Browser :=
  if some req.instNum = s.docReqInstNum ∧ s.docIsHtml then
    { s with docContent := s.docContent ++ data }
  else
    { s with
      scriptReq2BodyText := s.scriptReq2BodyText.map fun p =>
        if p.1 = req.instNum then (p.1, p.2 ++ data) else p }

/-- The text of the script that the request fetches, if it fetches one. -/
def scriptText (req : PageRequest) : Option Bytes := s.scriptReq2BodyText.lookup req.instNum

/-- The part of `response_finished_cb` that processes the script if the request fetched one. -/
def processFetched (req : PageRequest) : Except BrowserFault Browser :=
  match s.scriptText req with
  | none => .ok s
  | some text =>
    { s with
      scriptReq2BodyText := s.scriptReq2BodyText.filter fun p => p.1 ≠ req.instNum
      }.processAScript env { src := [], lines := scriptLines text }

/-- The part of `response_finished_cb` for a request that is not the one for the document. -/
def embeddedFinished (req : PageRequest) : Except BrowserFault Browser :=
  if s.state ≠ .fetchingEmbedded then .error .notFetchingEmbedded
  else match { s with
      receivedResources := insert req.url s.receivedResources }.processFetched env req with
  | .error f => .error f
  | .ok s => if s.isPageDone then { s with state := .done }.notify else .ok s

/-- `browser_t::response_finished_cb` -/
def responseFinishedCb (req : PageRequest) : Except BrowserFault Browser :=
  let s := { s with pendingRequests := s.pendingRequests.filter fun r => r.url ≠ req.url }
  if some req.instNum = s.docReqInstNum then { s with state := .doneDocument }.notify
  else s.embeddedFinished env req

/-- The request of this number that the manager has not answered yet. -/
def request (instNum : Nat) : Option PageRequest := s.submitted.find? fun r => r.instNum = instNum

/-- One callback. A callback that is not due does not happen. -/
def step (s : Browser) : BrowserEvent → Except BrowserFault Browser
  | .notified page =>
    if s.scheduled = 0 then .ok s
    else { s with scheduled := s.scheduled - 1 }.onNotified env page
  | .timeout loadnum =>
    if loadnum ∈ s.timers
      then { s with timers := s.timers.erase loadnum }.onTimeoutTimerFired loadnum
    else .ok s
  | .responseMeta instNum status headers =>
    match s.request instNum with
    | none => .ok s
    | some req => s.responseMetaCb status headers req
  | .responseBodyData instNum data =>
    match s.request instNum with
    | none => .ok s
    | some req => .ok (s.responseBodyDataCb data req)
  | .responseFinished instNum _ =>
    match s.request instNum with
    | none => .ok s
    | some req =>
      { s with submitted := s.submitted.filter fun r => r.instNum ≠
        instNum }.responseFinishedCb env req
  | .close => .ok s.close

/-- `browser_t::browser_t` -/
def new : Browser where
  state := .init
  evbase := true
  firstHostname := []
  docIsHtml := false
  docReqInstNum := none
  docContent := []
  pendingRequests := []
  receivedResources := ∅
  embeddedResources := ∅
  scriptReq2BodyText := []
  notified := false
  loadnum := 0
  nextInstNum := 0
  submitted := []
  scheduled := 0
  timers := []

/-- `browser_t::start`: the first load. -/
def start (page : Nat) : Except BrowserFault Browser :=
  match env.pages[page]? with
  | none => .error .noPage
  | some url => { new with loadnum := 1 }.load env url

end Browser

end ShadowExtras.Web
