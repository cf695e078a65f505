import Solverr.Lib.Run
import Solverr.Lib.Text
import Solverr.Sessions.Store

/-!
# Calls on the stores as interleaving threads

Every thread runs one call at a time: a `SessionStore` method, a Chrome `solve`
on a session, or a `sessions.create` command. A thread's `Pc` says which section
it is about to enter and carries the locals it needs there; `step` runs one
section of one thread, so a run of `step` is an interleaving of the sections of
any number of calls.

- `create` is called from five places. Its program points (`lookup` … `remember`)
  are written once and carry the caller as a `CreateK`; `resume` is the return.
- `get` ends in `holding`: the session is with the caller, and the caller's next
  step is its `end_use`. A `solve` keeps the session itself and ends it itself.
- Building may raise (`fail`), a lock wait may run out (`fail`), a solve may
  raise (`fail`) or be stopped (`timeout`). Any number of threads may be between
  two sections at once, and the clock a section reads is any value.

`claims` is the record of claims handed out by `create(claim=True)` and not yet
released by `end_use`, with the thread each was handed to. The code keeps only
their number, in `in_use`.
-/

namespace Solverr.Sessions

open Solverr.Lib (Dict Text CaseMap Run)

/-- A thread. -/
abbrev Tid := Nat

variable {Proxy : Type}

/-- What the calls read from the environment: whether the stealth engine is
loaded, `DEFAULT_ENGINE`, and whether response headers are reported. -/
structure Config where
  stealthLoaded : Bool
  defaultEngine : Text
  responseHeaders : Bool
  caseMap : CaseMap

/-- The configuration with nothing set in the environment. -/
def Config.unset : Config where
  stealthLoaded := true
  defaultEngine := "chrome".toList
  responseHeaders := false
  caseMap := .ascii

/-- The fields of a `/v1` response that the session commands set. -/
structure Answer where
  status : String
  message : String
  session : Option String
  deriving DecidableEq, Repr

def Answer.ok (message sessionId : String) : Answer := ⟨"ok", message, some sessionId⟩

/-- What `controller_v1_endpoint` makes of an exception. -/
def Answer.error (text : String) : Answer := ⟨"error", "Error: " ++ text, none⟩

/-- `create`'s arguments, once `session_id or str(uuid1())` is settled. -/
structure CreateArgs (Proxy : Type) where
  store : Engine
  sid : String
  proxy : Option Proxy
  deriving DecidableEq

/-- Who called `get`. -/
inductive GetK
  | caller
  | solve
  deriving DecidableEq

/-- Who called `create`: another thread's code (with its `claim` argument), the
`sessions.create` command, or `get`, for the session or for its replacement. -/
inductive CreateK
  | caller (claim : Bool)
  | command
  | first (ttl : Option Int) (k : GetK)
  | rebuild (k : GetK)
  deriving DecidableEq

/-- The `claim` argument each of them passes. -/
def CreateK.claim : CreateK → Bool
  | .caller claim => claim
  | .command => false
  | .first _ _ => true
  | .rebuild _ => true

/-- The next section of a thread. -/
inductive Pc (Proxy : Type)
  | idle
  /- create -/
  | lookup (a : CreateArgs Proxy) (k : CreateK)
  | build (a : CreateArgs Proxy) (k : CreateK)
  | insert (a : CreateArgs Proxy) (k : CreateK) (s : Ref)
  | extra (a : CreateArgs Proxy) (k : CreateK) (s race : Ref)
  | remember (a : CreateArgs Proxy) (k : CreateK) (s : Ref)
  /- get -/
  | recallProxy (a : CreateArgs Proxy) (ttl : Option Int) (k : GetK)
  | check (e : Engine) (sid : String) (ttl : Option Int) (k : GetK) (s : Ref) (fresh : Bool)
  | expired (e : Engine) (sid : String) (k : GetK) (s : Ref)
  /- the caller of get, until its end_use -/
  | holding (e : Engine) (sid : String) (s : Ref)
  /- destroy and discard -/
  | forget (e : Engine) (sid : String)
  | remove (e : Engine) (sid : String) (op : Remover)
  /- reap_idle and enforce_cap -/
  | reap (e : Engine) (ttl now : Int)
  | cap (e : Engine) (maxSessions : Int)
  | teardown (todo : List Ref)
  /- ChromeEngine.solve on a session -/
  | acquire (e : Engine) (sid : String) (s : Ref)
  | driving (e : Engine) (sid : String) (s : Ref)
  | timedOut (e : Engine) (sid : String) (s : Ref)
  | closing (e : Engine) (sid : String) (s victim : Ref)
  | drain (e : Engine) (sid : String) (s : Ref) (timedOut : Bool)
  | release (e : Engine) (sid : String) (s : Ref) (timedOut : Bool)
  | endUse (e : Engine) (sid : String) (s : Ref) (timedOut : Bool)
  | solved
  /- sessions.create -/
  | checkPools (a : CreateArgs Proxy) (todo : List Engine)
  | answered (ans : Answer)
  deriving DecidableEq

/-- The calls a thread may make. -/
inductive Call (Proxy : Type)
  | create (e : Engine) (sessionId : Option String) (uuid1 : String) (proxy : Option Proxy)
      (claim : Bool)
  | get (e : Engine) (sessionId : String) (ttl : Option Int) (proxy : Option Proxy)
  | destroy (e : Engine) (sessionId : String)
  | discard (e : Engine) (sessionId : String)
  | reapIdle (e : Engine) (ttl : Option Int) (now : Int)
  | enforceCap (e : Engine) (maxSessions : Option Int)
  | solve (session : String) (ttlMinutes : Option Int) (proxy : Option Proxy)
  | sessionsCreate (session : Option String) (uuid1 : String) (engine : Option String)
      (proxy : Option Proxy)

/-- One step of a thread: it makes a call, or runs its next section with the
clock at `now`, or what it waits for there raises, or a solve's `func_timeout`
stops it, or a solve sends its browser one more command. -/
inductive Act (Proxy : Type)
  | start (c : Call Proxy)
  | go (now : Int)
  | fail (text : String)
  | timeout
  | drive

/-- Everything the threads share, and where each of them is. -/
structure World (Proxy : Type) where
  st : Stores Proxy
  claims : List (Tid × Ref)
  pcs : Tid → Pc Proxy

namespace World

/-- Start-up: empty stores, no thread in a call. -/
def init : World Proxy := ⟨.init, [], fun _ => .idle⟩

/-- Thread `t` goes to `p`. -/
def goto (w : World Proxy) (t : Tid) (p : Pc Proxy) : World Proxy :=
  { w with pcs := Function.update w.pcs t p }

def setStores (w : World Proxy) (st : Stores Proxy) : World Proxy := { w with st := st }

/-- `_claim` of `s` for thread `t`, if the caller of `create` asked for it. -/
def claimIf (w : World Proxy) (b : Bool) (t : Tid) (s : Ref) (now : Int) : World Proxy :=
  if b then { w with st := w.st.claim s now, claims := (t, s) :: w.claims } else w

/-- `end_use` of `s` by thread `t`. -/
def endUse (w : World Proxy) (t : Tid) (s : Ref) (now : Int) : World Proxy :=
  { w with st := w.st.endUse s now, claims := w.claims.erase (t, s) }

/-- The claims on `s` handed out and not yet released. -/
def outstanding (w : World Proxy) (s : Ref) : Nat := w.claims.countP fun c => c.2 = s

end World

/-- `session_id or str(uuid1())` -/
def idOr (sessionId : Option String) (uuid1 : String) : String :=
  match sessionId with
  | none => uuid1
  | some sid => if sid = "" then uuid1 else sid

/-- `_validate_engine` -/
def validateEngine (cfg : Config) (engine : Option String) : Except String Text :=
  let forced := cfg.caseMap.lower (Lib.Text.strip (engine.getD "").toList)
  if forced ∈ ["".toList, "auto".toList, "chrome".toList, "stealth".toList] then .ok forced
  else .error ("Request parameter 'engine' = '" ++ engine.getD "" ++
    "' is invalid. Use 'chrome', 'stealth', or 'auto'.")

/-- The engine `_cmd_sessions_create` creates on. -/
def createEngine (cfg : Config) (engine : Option String) : Except String Engine :=
  match validateEngine cfg engine with
  | .error e => .error e
  | .ok forced =>
    let engine := if forced = "chrome".toList ∨ forced = "stealth".toList then forced
      else cfg.caseMap.lower cfg.defaultEngine
    .ok (if engine = "stealth".toList then .stealth else .chrome)

/-- `_available_engines`, in order. -/
def availableEngines (cfg : Config) : List Engine :=
  .chrome :: if cfg.stealthLoaded then [.stealth] else []

def alreadyExists : String := "Session already exists."

def createdSuccessfully : String := "Session created successfully."

def stealthNotAvailable : String :=
  "Stealth engine is not available (STEALTH_ENGINE disabled or dependencies missing)."

/-- Where a call's first section is; `none` for a call the code never makes:
`get` is only called with a session id, which both engines' `solve` tests for. -/
def enter (cfg : Config) : Call Proxy → Option (Pc Proxy)
  | .create e sid uuid1 proxy claim => some (.lookup ⟨e, idOr sid uuid1, proxy⟩ (.caller claim))
  | .get e sid ttl proxy =>
    if sid = "" then none else some (.recallProxy ⟨e, sid, proxy⟩ ttl .caller)
  | .destroy e sid => some (.forget e sid)
  | .discard e sid => some (.remove e sid .discard)
  | .reapIdle e ttl now =>
    match ttl with
    | none => some .idle
    | some ttl => if ttl ≤ 0 then some .idle else some (.reap e ttl now)
  | .enforceCap e maxSessions =>
    match maxSessions with
    | none => some .idle
    | some n => if n ≤ 0 then some .idle else some (.cap e n)
  | .solve sid ttlMinutes proxy =>
    let ttl := match ttlMinutes with
      | none => none
      | some m => if m = 0 then none else some (m * 60000000)
    if sid = "" then none else some (.recallProxy ⟨.chrome, sid, proxy⟩ ttl .solve)
  | .sessionsCreate sid uuid1 engine proxy =>
    match createEngine cfg engine with
    | .error text => some (.answered (.error text))
    | .ok e =>
      some (.checkPools ⟨e, idOr sid uuid1, proxy⟩
        (if sid.getD "" = "" then [] else availableEngines cfg))

/-- `get` returns `session`. -/
def returned (e : Engine) (sid : String) (s : Ref) : GetK → Pc Proxy
  | .caller => .holding e sid s
  | .solve => .acquire e sid s

/-- `create` returns `(session, fresh)`. -/
def resume (a : CreateArgs Proxy) (s : Ref) (fresh : Bool) : CreateK → Pc Proxy
  | .caller claim => if claim then .holding a.store a.sid s else .idle
  | .command => .answered (.ok (if fresh then createdSuccessfully else alreadyExists) a.sid)
  | .first ttl k => .check a.store a.sid ttl k s fresh
  | .rebuild k => returned a.store a.sid s k

/-- `_build` raises, and so does every call up to the request. -/
def raised (text : String) : CreateK → Pc Proxy
  | .caller _ => .idle
  | .command => .answered (.error text)
  | .first _ .caller => .idle
  | .rebuild .caller => .idle
  | .first _ .solve => .solved
  | .rebuild .solve => .solved

/-- After a solve: its `finally`, which drains the network log only when response
headers are reported. -/
def afterSolve (cfg : Config) (e : Engine) (sid : String) (s : Ref) (timedOut : Bool) :
    Pc Proxy :=
  if cfg.responseHeaders then .drain e sid s timedOut else .release e sid s timedOut

/-- Run the next section of thread `t`, which is at `p`, with the clock at `now`. -/
def go (cfg : Config) (w : World Proxy) (t : Tid) (now : Int) : Pc Proxy → Option (World Proxy)
  | .idle | .solved | .answered _ => none
  -- `create`: the first section, the build, the second section, `_remember_proxy`
  | .lookup a k =>
    match (w.st.pools a.store).find? a.sid with
    | some existing => some ((w.claimIf k.claim t existing now).goto t (resume a existing false k))
    | none => some (w.goto t (.build a k))
  | .build a k =>
    some ((w.setStores (w.st.build a.sid a.proxy now)).goto t (.insert a k w.st.built))
  | .insert a k s =>
    match (w.st.pools a.store).find? a.sid with
    | some race => some ((w.claimIf k.claim t race now).goto t (.extra a k s race))
    | none =>
      some (((w.setStores (w.st.insert a.store a.sid s)).claimIf k.claim t s now).goto t
        (.remember a k s))
  -- another thread was first: the extra browser is closed, theirs is returned
  | .extra a k s race => some ((w.setStores (w.st.teardown s)).goto t (resume a race false k))
  | .remember a k s =>
    some ((w.setStores { w.st with memory := rememberProxy w.st.memory a.sid a.proxy }).goto t
      (resume a s true k))
  -- `get`: the remembered proxy wins over the request's
  | .recallProxy a ttl k =>
    let (remembered, memory) := recallProxy w.st.memory a.sid
    some ((w.setStores { w.st with memory := memory }).goto t
      (.lookup { a with proxy := remembered.getD a.proxy } (.first ttl k)))
  | .check e sid ttl k s fresh =>
    if w.st.expired s fresh ttl now then
      some ((w.setStores (w.st.pop e [sid] .expiry)).goto t (.expired e sid k s))
    else some (w.goto t (returned e sid s k))
  -- the rebuild goes out through the session's own proxy
  | .expired e sid k s =>
    some ((w.setStores (w.st.teardown s)).goto t
      (.lookup ⟨e, sid, (w.st.heap s).proxy⟩ (.rebuild k)))
  | .holding _ _ s => some ((w.endUse t s now).goto t .idle)
  -- `destroy` is `_forget_proxy` and `discard`
  | .forget e sid =>
    some ((w.setStores { w.st with memory := forgetProxy w.st.memory sid }).goto t
      (.remove e sid .destroy))
  | .remove e sid op =>
    match (w.st.pools e).find? sid with
    | none => some (w.goto t .idle)
    | some s => some ((w.setStores (w.st.pop e [sid] op)).goto t (.teardown [s]))
  | .reap e ttl now =>
    let (popped, st) := w.st.reapIdle e ttl now
    some ((w.setStores st).goto t (.teardown popped))
  | .cap e n =>
    let (removed, st) := w.st.enforceCap e n
    some ((w.setStores st).goto t (.teardown removed))
  | .teardown [] => some (w.goto t .idle)
  | .teardown (s :: todo) => some ((w.setStores (w.st.teardown s)).goto t (.teardown todo))
  -- a solve waits for `session.lock`, and drives only while it has it
  | .acquire e sid s =>
    if (w.st.heap s).locked then none
    else some ((w.setStores (w.st.setLocked s true)).goto t (.driving e sid s))
  | .driving e sid s => some (w.goto t (afterSolve cfg e sid s false))
  -- `discard` after a timeout: by id, whatever session the pool has now
  | .timedOut e sid s =>
    match (w.st.pools e).find? sid with
    | none => some (w.goto t (afterSolve cfg e sid s true))
    | some victim =>
      some ((w.setStores (w.st.pop e [sid] .discard)).goto t (.closing e sid s victim))
  | .closing e sid s victim =>
    some ((w.setStores (w.st.teardown victim)).goto t (afterSolve cfg e sid s true))
  | .drain e sid s b => some (w.goto t (.release e sid s b))
  | .release e sid s b =>
    some ((w.setStores (w.st.setLocked s false)).goto t (.endUse e sid s b))
  | .endUse _ _ s _ => some ((w.endUse t s now).goto t .solved)
  -- `_cmd_sessions_create` looks into both pools before it creates
  | .checkPools a [] =>
    if a.store = .stealth ∧ cfg.stealthLoaded = false then
      some (w.goto t (.answered (.error stealthNotAvailable)))
    else some (w.goto t (.lookup a .command))
  | .checkPools a (e :: todo) =>
    if ((w.st.pools e).find? a.sid).isSome then
      some (w.goto t (.answered (.ok alreadyExists a.sid)))
    else some (w.goto t (.checkPools a todo))

/-- One step of one thread. -/
def step (cfg : Config) (w : World Proxy) : Tid × Act Proxy → Option (World Proxy)
  | (t, .start c) =>
    match w.pcs t with
    | .idle => (enter cfg c).map (w.goto t)
    | _ => none
  | (t, .go now) => go cfg w t now (w.pcs t)
  | (t, .fail text) =>
    match w.pcs t with
    | .build _ k => some (w.goto t (raised text k))
    | .acquire e sid s => some (w.goto t (.endUse e sid s false))
    | .driving e sid s => some (w.goto t (afterSolve cfg e sid s false))
    | _ => none
  | (t, .timeout) =>
    match w.pcs t with
    | .driving e sid s => some (w.goto t (.timedOut e sid s))
    | _ => none
  | (t, .drive) =>
    match w.pcs t with
    | .driving _ _ _ => some (w.goto t (w.pcs t))
    | _ => none

end Solverr.Sessions
