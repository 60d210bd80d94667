import ShadowExtras.Web.Transfers

/-!
# The checks of the received bodies

The browser expects a size and a digest of every object of a page. It takes the digest of a body
while the body arrives: the metadata of a response set up a context, the body data update it, and
the end of the response compares what it amounts to with what was expected. A body that is received
in parts has several metadata; the browser goes by the retry counter of the request to set up one
context for all of them and to count the object once.

The requests are those of a `Transfers`; a step is one of theirs, and then the callbacks of the
browser for what the requests were told. The digest is a parameter. `met`, `counted` and `finishes`
are history.
-/

namespace ShadowExtras.Web

open Foundation

/-! ## Data -/

/-- `ExpectedObj`. -/
structure ExpectedObj where
  bodySize : Nat
  /-- No digest is checked if there is none. -/
  hexMd5Digest : Option Bytes
  deriving DecidableEq, Repr

/-- A call of `response_finished_cb` with the validation of the resource. -/
structure Finish where
  req : ReqId
  success : Bool
  /-- The body as it was delivered to the request. -/
  body : Bytes
  /-- `actual_digest` -/
  digest : Option Bytes
  /-- What was expected. -/
  expected : Option ExpectedObj
  /-- No error was counted. -/
  valid : Bool
  deriving DecidableEq, Repr

/-- The ways a step ends the program. -/
inductive ValidationFault
  | transfer (fault : TransferFault)
  /-- `!inMap(req2mdctx, req->instNum_)` in `response_meta_cb`. -/
  | mdctx
  deriving DecidableEq, Repr

/-- The members of `browser_t` for the checks, and its requests. -/
structure Validation (E : Evbuffer) where
  transfers : Transfers E
  /-- `expected_objects_`, by url. -/
  expectedObjects : List (Bytes × ExpectedObj)
  /-- `req2mdctx`: what every context was updated with. -/
  req2mdctx : List (ReqId × Bytes)
  totalnumobjects : UInt16
  totalnumerrorobjects : UInt16
  /-- `validate_result_` is `VR_FAIL`. -/
  validateFailed : Bool
  /-- The requests that `response_meta_cb` was called for. -/
  met : List ReqId
  /-- The requests that were counted in `totalnumobjects_`. -/
  counted : List ReqId
  finishes : List Finish

namespace Validation

variable {E : Evbuffer} (url : ReqId → Bytes) (md5 : Bytes → Bytes) (v : Validation E)

/-- The beginning of a page load. -/
def new (E : Evbuffer) (maxRetries : Nat) (expectedObjects : List (Bytes × ExpectedObj)) :
    Validation E where
  transfers := .new E maxRetries
  expectedObjects := expectedObjects
  req2mdctx := []
  totalnumobjects := 0
  totalnumerrorobjects := 0
  validateFailed := false
  met := []
  counted := []
  finishes := []

/-- The digest that is expected of the resource, if there is one. -/
def expectedDigest (r : ReqId) : Option Bytes :=
  (v.expectedObjects.lookup (url r)).bind ExpectedObj.hexMd5Digest

/-! ## Callbacks -/

/-- The part of `browser_t::response_meta_cb` that does not look at the headers. -/
def responseMetaCb (r : ReqId) : Except ValidationFault (Validation E) :=
  if (v.transfers.request r).numRetries = 0 then
    if r ∈ v.req2mdctx.map Prod.fst then .error .mdctx
    else .ok { v with
      req2mdctx := if (v.expectedDigest url r).isSome then v.req2mdctx ++ [(r, [])] else v.req2mdctx
      totalnumobjects := v.totalnumobjects + 1
      met := v.met ++ [r]
      counted := v.counted ++ [r] }
  else .ok { v with met := v.met ++ [r] }

/-- The digest's part of `browser_t::response_body_data_cb`. -/
def responseBodyDataCb (r : ReqId) (data : Bytes) : Validation E :=
  { v with req2mdctx := v.req2mdctx.map fun p => if p.1 = r then (p.1, p.2 ++ data) else p }

/-- The comparison of `validate_one_resource`: the digests are not compared if the sizes differ. -/
def matchesExpected (eo : ExpectedObj) (actualBodySize : Nat) (actualDigest : Option Bytes) :
    Bool :=
  if actualBodySize ≠ eo.bodySize then false
  else match eo.hexMd5Digest, actualDigest with
    | some expected, some actual => cString actual = cString expected
    | _, _ => true

/-- `browser_t::validate_one_resource`: is the resource what was expected? -/
def validateOneResource (name : Bytes) (actualBodySize : Nat) (actualDigest : Option Bytes) :
    Validation E × Bool :=
  match v.expectedObjects.lookup name with
  | none =>
    ({ v with validateFailed := true, totalnumerrorobjects := v.totalnumerrorobjects + 1 }, false)
  | some eo =>
    let expectedObjects := v.expectedObjects.filter fun p => p.1 ≠ name
    if matchesExpected eo actualBodySize actualDigest then
      ({ v with expectedObjects := expectedObjects }, true)
    else
      ({ v with
        expectedObjects := expectedObjects
        validateFailed := true
        totalnumerrorobjects := v.totalnumerrorobjects + 1 }, false)

/-- The part of `browser_t::response_finished_cb` that validates the resource. -/
def responseFinishedCb (r : ReqId) (success : Bool) : Validation E :=
  let digest := (v.req2mdctx.lookup r).map md5
  let (v', valid) := { v with
    req2mdctx := v.req2mdctx.filter fun p => p.1 ≠ r }.validateOneResource (url r)
      (v.transfers.request r).bodySize digest
  { v' with
    finishes := v.finishes ++ [{
      req := r
      success := success
      body := v.transfers.data r
      digest := digest
      expected := v.expectedObjects.lookup (url r)
      valid := valid }] }

/-! ## Steps -/

/-- What the browser does when one of its requests is told something. -/
def tell (v : Validation E) : ReqId × Notice → Except ValidationFault (Validation E)
  | (r, .rspMeta _ _) => v.responseMetaCb url r
  | (r, .rspBodyData data) => .ok (v.responseBodyDataCb r data)
  | (r, .rspBodyDone) => .ok (v.responseFinishedCb url md5 r true)

/-- What the requests are told in a step: the active request of the connection, what the round of
the parser hands out. -/
def told (w : Transfers E) (choice : TransferChoice) : List (ReqId × Notice) :=
  match choice, w.label with
  | .go, .handleResponse c found _ =>
    match (w.conn c).http.handleResponse (!(w.conn c).active.isEmpty) found, (w.conn c).active with
    | .ok h, r :: _ => h.notices.map (r, ·)
    | _, _ => []
  | _, _ => []

/-- The requests whose retries are exhausted are reported by `notify_req_error_`. -/
def reportFailed (failed : List ReqId) : Validation E :=
  failed.foldl (fun v r => v.responseFinishedCb url md5 r false) v

/-- One step. -/
def step (ask : ReqId → Resource) (serve : NetLoc → Bytes → Bytes) (v : Validation E)
    (choice : TransferChoice) : Except ValidationFault (Validation E) :=
  match v.transfers.step ask serve choice with
  | .error f => .error (.transfer f)
  | .ok w =>
    match runSteps (tell url md5) { v with transfers := w } (told v.transfers choice) with
    | .error f => .error f
    | .ok v' => .ok (v'.reportFailed url md5 (w.failed.drop v.transfers.failed.length))

/-! ## The property and the condition -/

/-- A resource that was reported finished with success was validated over its own bytes and counted
once. -/
def Validated (v : Validation E) : Prop :=
  ∀ f ∈ v.finishes, f.success = true → v.counted.count f.req = 1 ∧
    ∀ eo ∈ f.expected, ∀ d ∈ eo.hexMd5Digest, f.digest = some (md5 f.body) ∧
      (f.valid = true ↔ f.body.length = eo.bodySize ∧ cString (md5 f.body) = cString d)

/-- `response_finished_cb` was not called for the request. -/
def Unfinished (r : ReqId) : Prop := ∀ f ∈ v.finishes, f.req ≠ r

instance (r : ReqId) : Decidable (v.Unfinished r) := by
  unfold Unfinished
  infer_instance

/-- The first metadata of a request arrive before a retry is charged to it, and a request that is
finished is not finished again. -/
def InTime (v : Validation E) : ReqId × Notice → Prop
  | (r, .rspMeta _ _) => (v.transfers.request r).numRetries = 0 ∨ r ∈ v.met
  | (_, .rspBodyData _) => True
  | (r, .rspBodyDone) => v.Unfinished r

instance (p : ReqId × Notice) : Decidable (v.InTime p) := by
  unfold InTime
  split <;> infer_instance

/-- What the requests are told in the step is told in time. -/
def ToldInTime (v : Validation E) (choice : TransferChoice) : Prop :=
  ∀ p ∈ told v.transfers choice, v.InTime p

instance (v : Validation E) (choice : TransferChoice) : Decidable (v.ToldInTime choice) := by
  unfold ToldInTime
  infer_instance

end Validation

end ShadowExtras.Web
