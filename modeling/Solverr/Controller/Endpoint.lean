import Solverr.Controller.Fields
import Solverr.Controller.Outcome
import Solverr.Controller.Plan
import Solverr.Lib.JsonPlain
import Solverr.Sessions.Ttl

/-!
# The `/v1` endpoint

`controller_v1` up to the answer, for any object a client can send. The stores and the
engines are outside: `Surroundings` answers for them, whatever it likes, and what the
endpoint asks of them is returned beside the answer as a list of `Action`s. One request asks
an engine at most once, so an engine that has a state of its own is covered.

Left out are the log lines.
-/

namespace Solverr.Controller

open Solverr.Lib (Text CaseMap Json Str Unicode)
open Solverr.Lib.Procedure (answer raise change)
open Solverr.Lib.JsonText (Floats dumps loads)

/-! ## The outside -/

/-- `method` of `engine.solve` -/
inductive Method
  | get
  | post
  deriving DecidableEq

/-- What the endpoint asks of the engines and the stores. -/
inductive Action
  | solve (engine : Text) (req : Fields) (method : Method) (share : ℚ)
  | create (engine : Sessions.Engine) (session proxy : Json)
  | destroy (engine : Sessions.Engine) (session : Json)

/-- What a request meets. -/
structure Surroundings where
  unicode : Unicode
  caseMap : CaseMap
  /-- `config.max_timeout_ms()` -/
  ceiling : ℤ
  /-- `STEALTH_ENGINE is not None` -/
  stealthLoaded : Bool
  /-- `config.default_engine()`, where it is an engine's name -/
  defaultEngine : Option Sessions.Engine
  /-- `config.engine_fallback()` -/
  fallback : Bool
  /-- `config.env_proxy()` -/
  envProxy : Option Fields
  /-- `_pool_has(name, session)` -/
  holds : Sessions.Engine → Str → Bool
  /-- `_recalled_engine(_host_of(req))`, for this URL -/
  recalled : Json → Option Sessions.Engine
  createSession : Sessions.Engine → Json → Json → Except Str (Str × Bool)
  sessionIds : Sessions.Engine → List Str
  destroySession : Sessions.Engine → Json → Bool
  /-- `engine.solve(req, method, timeout)` -/
  solve : Sessions.Engine → Fields → Method → ℚ → Attempt
  /-- `time.monotonic()` where `_resolve_challenge` starts -/
  now : ℚ
  /-- `startTimestamp`, `endTimestamp` and `version` of the answer -/
  startTimestamp : ℤ
  endTimestamp : ℤ
  version : Str

namespace Surroundings

/-- `_available_engines()` -/
def available (w : Surroundings) : List Sessions.Engine :=
  .chrome :: if w.stealthLoaded then [.stealth] else []

def planner (w : Surroundings) : Planner where
  available := w.available
  default := w.defaultEngine
  fallback := w.fallback
  nodup := by
    unfold available
    cases w.stealthLoaded <;> decide
  chrome := List.mem_cons_self ..

end Surroundings

/-- A command: it returns the answer's attributes or raises, and asks for things on its
way. -/
abbrev Command := Lib.Procedure (List Action) Str

def act (a : Action) : Command Unit := change (· ++ [a])

/-! ## The checks -/

/-- `setattr(req, name, value)` -/
def setattr (req : Fields) (name : Str) (value : Json) : Fields :=
  if req.any (·.1 = name) then req.map fun f => if f.1 = name then (name, value) else f
  else req ++ [(name, value)]

/-- `str(e)` of what leaves `_validate_max_timeout`. -/
def escapedText : Escaped → Str
  | .exception text => text
  | .fromInt _ => lit "cannot convert float infinity to integer"

/-- `_HTTP_URL.match(url)`: in either case, and without case `ſ` is an `s`. -/
def isHttp (url : Str) : Bool :=
  match url with
  | h :: t :: t' :: p :: rest =>
    h ∈ lit "hH" && t ∈ lit "tT" && t' ∈ lit "tT" && p ∈ lit "pP" &&
      (lit "://" <+: rest || match rest with
        | s :: rest => s ∈ lit "sSſ" && lit "://" <+: rest
        | [] => false)
  | _ => false

def urlMandatory : Str := lit "Request parameter 'url' is mandatory."

def notHttp : Str := lit "Request parameter 'url' must be an 'http://' or 'https://' URL."

/-- `_validate_url(url)`, of a string or nothing. -/
def validateUrl : Json → Except Str Unit
  | .str url =>
    if url.isEmpty then .error urlMandatory
    else if isHttp url then .ok () else .error notHttp
  | _ => .error urlMandatory

/-- `_validate_session_ttl(req)` -/
def validateSessionTtl (req : Fields) : Except Str Unit :=
  Sessions.validateSessionTtl (getattr req (lit "session_ttl_minutes"))

/-- `(engine or '')` -/
def engineText : Json → Str
  | .str engine => engine
  | _ => []

/-- `_validate_engine(engine)`: the engine that is named, if one is. -/
def validateEngine (w : Surroundings) (engine : Json) : Except Str (Option Sessions.Engine) :=
  let forced := w.unicode.lower (Str.strip (engineText engine))
  if forced = [] ∨ forced = lit "auto" then .ok none
  else if forced = lit "chrome" then .ok (some .chrome)
  else if forced = lit "stealth" then .ok (some .stealth)
  else .error (lit "Request parameter 'engine' = '" ++ engineText engine ++
    lit "' is invalid. Use 'chrome', 'stealth', or 'auto'.")

/-! ## The commands -/

def optional (name : Str) (value : Option Json) : Fields :=
  (value.map fun value => (name, value)).toList

def text (s : Text) : Json := .str (.of s)

/-- `ChallengeResolutionResultT`, its attributes in the order in which they are set. -/
def solutionFields (res : ChallengeResolutionResult) : Fields :=
  [(lit "url", text res.url), (lit "status", .int res.status), (lit "cookies", .list res.cookies),
    (lit "userAgent", text res.userAgent),
    (lit "turnstile_token", (res.turnstileToken.map text).getD .null)] ++
  optional (lit "headers") res.headers ++
  optional (lit "response") (res.response.map text) ++
  optional (lit "contentType") (res.contentType.map text) ++
  optional (lit "screenshot") (res.screenshot.map text)

/-- `req.session and _pool_has(name, req.session)` -/
def Surroundings.holdsSession (w : Surroundings) (session : Json) (e : Sessions.Engine) : Bool :=
  match session with
  | .str id => !id.isEmpty && w.holds e id
  | _ => false

/-- `_engine_plan(req)` -/
def enginePlan (w : Surroundings) (req : Fields) : Except Str (List Sessions.Engine) :=
  match validateEngine w (getattr req (lit "engine")) with
  | .error text => .error text
  | .ok forced =>
    let holds := w.holdsSession (getattr req (lit "session"))
    match w.planner.plan forced holds (w.recalled (getattr req (lit "url"))) with
    | some order => .ok order
    | none => .error (lit "Requested engine '" ++
        .of (engineName (forced.getD .chrome)) ++ lit "' is not available.")

/-- An engine, on this request. -/
def engineOn (w : Surroundings) (req : Fields) (method : Method) (e : Sessions.Engine) : Engine :=
  ⟨engineName e, w.solve e req method⟩

/-- The answer to a request that was resolved. -/
def resolved : Except Text ChallengeResolution → Except Str Fields
  | .error e => .error (.of e)
  | .ok res => .ok [(lit "status", text res.status), (lit "message", text res.message),
      (lit "solution", .obj (solutionFields res.result))]

/-- `_resolve_challenge(req, method)`, with `req.maxTimeout` milliseconds. -/
def resolveRequest (w : Surroundings) (req : Fields) (method : Method) (maxTimeout : ℤ) :
    Command Fields := do
  let order ← answer (enginePlan w req)
  let run := resolve w.caseMap (maxTimeout / 1000) w.now (order.map (engineOn w req method))
  change (· ++ run.2.map fun t => Action.solve t.engine req method t.share)
  answer (resolved run.1.response)

/-- `_cmd_request_get(req)` -/
def cmdRequestGet (w : Surroundings) (req : Fields) (maxTimeout : ℤ) : Command Fields := do
  if isNone (getattr req (lit "url")) then
    raise (lit "Request parameter 'url' is mandatory in 'request.get' command.")
  answer (validateUrl (getattr req (lit "url")))
  answer (validateSessionTtl req)
  if isNone (getattr req (lit "postData")) then resolveRequest w req .get maxTimeout
  else raise (lit "Cannot use 'postBody' when sending a GET request.")

/-- `_cmd_request_post(req)` -/
def cmdRequestPost (w : Surroundings) (req : Fields) (maxTimeout : ℤ) : Command Fields := do
  if isNone (getattr req (lit "postData")) then
    raise (lit "Request parameter 'postData' is mandatory in 'request.post' command.")
  answer (validateUrl (getattr req (lit "url")))
  answer (validateSessionTtl req)
  resolveRequest w req .post maxTimeout

/-- The answer of `sessions.create`. -/
def sessionAnswer (message : String) (session : Json) : Fields :=
  [(lit "status", .str (lit "ok")), (lit "message", .str (lit message)), (lit "session", session)]

/-- `_cmd_sessions_create(req)` -/
def cmdSessionsCreate (w : Surroundings) (req : Fields) : Command Fields := do
  let forced ← answer (validateEngine w (getattr req (lit "engine")))
  let engine := forced.getD (w.defaultEngine.getD .chrome)
  let session := getattr req (lit "session")
  if w.available.any (w.holdsSession session) then
    return sessionAnswer "Session already exists." session
  else if engine ∉ w.available then
    raise (lit "Stealth engine is not available (STEALTH_ENGINE disabled or dependencies missing).")
  else do
    let proxy := getattr req (lit "proxy")
    act (.create engine session proxy)
    let (id, fresh) ← answer (w.createSession engine session proxy)
    return sessionAnswer (if fresh then "Session created successfully."
      else "Session already exists.") (.str id)

/-- `_cmd_sessions_list(req)` -/
def cmdSessionsList (w : Surroundings) : Command Fields :=
  let ids := if w.stealthLoaded then
      (Lib.Dict.fromkeys (w.sessionIds .chrome ++ w.sessionIds .stealth)).keys
    else w.sessionIds .chrome
  return [(lit "status", .str (lit "ok")), (lit "message", .str []),
    (lit "sessions", .list (ids.map .str))]

/-- `_cmd_sessions_destroy(req)` -/
def cmdSessionsDestroy (w : Surroundings) (req : Fields) : Command Fields := do
  let session := getattr req (lit "session")
  change (· ++ w.available.map fun e => Action.destroy e session)
  if w.available.any fun e => w.destroySession e session then
    return [(lit "status", .str (lit "ok")),
      (lit "message", .str (lit "The session has been removed."))]
  else raise (lit "The session doesn't exist.")

/-! ## The endpoint -/

/-- The dispatch of `_controller_v1_handler`. -/
def dispatch (w : Surroundings) (req : Fields) (maxTimeout : ℤ) (cmd : Str) : Command Fields :=
  if cmd = lit "sessions.create" then cmdSessionsCreate w req
  else if cmd = lit "sessions.list" then cmdSessionsList w
  else if cmd = lit "sessions.destroy" then cmdSessionsDestroy w req
  else if cmd = lit "request.get" then cmdRequestGet w req maxTimeout
  else if cmd = lit "request.post" then cmdRequestPost w req maxTimeout
  else raise (lit "Request parameter 'cmd' = '" ++ cmd ++ lit "' is invalid.")

/-- `_validate_max_timeout(req)` -/
def maxTimeoutOf (w : Surroundings) (req : Fields) : Except Str ℤ :=
  match validateMaxTimeout w.unicode w.ceiling (getattr req (lit "maxTimeout")) with
  | .ok maxTimeout => .ok maxTimeout
  | .error e => .error (escapedText e)

/-- `req.maxTimeout = value` -/
def budgeted (req : Fields) (maxTimeout : ℤ) : Fields :=
  setattr req (lit "maxTimeout") (.int maxTimeout)

/-- `_controller_v1_handler(req)` -/
def controllerV1Handler (w : Surroundings) (req : Fields) : Command Fields := do
  if isNone (getattr req (lit "cmd")) then raise (lit "Request parameter 'cmd' is mandatory.")
  answer (validateRequestTypes req)
  let maxTimeout ← answer (maxTimeoutOf w req)
  let req := budgeted req maxTimeout
  match getattr req (lit "cmd") with
  | .str cmd => dispatch w req maxTimeout cmd
  -- the types have been checked
  | _ => raise []

/-- The attributes of the exception's answer. -/
def errorFields (text : Str) : Fields :=
  [(lit "__error_500__", .bool true), (lit "status", .str (lit "error")),
    (lit "message", .str (lit "Error: " ++ text))]

/-- What is set on every answer. -/
def stamps (w : Surroundings) : Fields :=
  [(lit "startTimestamp", .int w.startTimestamp), (lit "endTimestamp", .int w.endTimestamp),
    (lit "version", .str w.version)]

/-- `controller_v1_endpoint(req)`: the attributes of the answer, and what was asked for. -/
def controllerV1Endpoint (w : Surroundings) (req : Fields) : Fields × List Action :=
  match controllerV1Handler w req [] with
  | (.ok res, log) => (res ++ stamps w, log)
  | (.error text, log) => (errorFields text ++ stamps w, log)

/-- `object_to_dict(res)` -/
def objectToDict (fl : Floats) (attributes : Fields) : Option Fields :=
  match loads fl (dumps fl (.obj attributes)) with
  | some (.obj fields) => some (fields.filter fun f => !(lit "__" <+: f.1))
  | _ => none

/-- `data['proxy'] = env_proxy`, where the client named none. -/
def withEnvProxy (w : Surroundings) (data : Fields) : Fields :=
  if (getattr data (lit "proxy")).truthy then data
  else match w.envProxy with
    | some proxy => setattr data (lit "proxy") (.obj proxy)
    | none => data

/-- `controller_v1()` on an object: the HTTP status and the body. -/
def controllerV1 (fl : Floats) (w : Surroundings) (data : Fields) :
    (ℕ × Option Fields) × List Action :=
  let (res, log) := controllerV1Endpoint w (withEnvProxy w data)
  let failed := (getattr res (lit "__error_500__")).truthy
  ((if failed then 500 else 200, objectToDict fl res), log)

end Solverr.Controller
