import Solverr.Engines.Chrome
import Solverr.Launch.Driver
import Solverr.Lib.Procedure
import Solverr.Lib.Strings

/-!
# What a solve takes

`ChromeEngine.solve` and `StealthEngine.solve`, around the solving itself. What they call
is outside and answers anything: a `World` says what each call answers, given what it was
called with. The locals that the `finally` blocks read are the state, with a log of what
was taken and given back.

A `Resource` is what a request may hold for its own time. Taking `mark s` is `get`
returning `s`, and giving it back is `end_use(s)`; `lock s` is `s.lock`; `browser b` is
what the request started for itself, given back by `driver.quit()` or `_close_bounded`.

The browser that the Chrome engine starts for one request comes from `get_webdriver`, so a
solve goes through that model too: a launch that raises may have started a browser, and has
quit it or not.
-/

namespace Solverr.Engines

open Solverr.Lib (Str Json Procedure)
open Solverr.Lib.Procedure (raise change answer)

/-- What a request may hold for its own time. -/
inductive Resource (S B : Type)
  | mark (s : S)
  | lock (s : S)
  | browser (b : B)
  deriving DecidableEq

/-- What a solve does that outlasts it. -/
inductive Event (S B : Type)
  | took (r : Resource S B)
  | gave (r : Resource S B)
  | discarded (sessionId : Str)
  | drained (b : B)
  | windowClosed (b : B)
  deriving DecidableEq

/-- The locals `in_use`, `locked`, `driver` (or `ctx`) and `own_ctx`, and what was done. -/
structure Frame (S B : Type) where
  inUse : Option S
  locked : Option S
  driver : Option B
  ownCtx : Bool
  log : List (Event S B)

/-- An exception. `timedOut` is what the first `except` clause catches: `FunctionTimedOut`
in the Chrome engine, `FuturesTimeout` in the stealth engine. -/
inductive Thrown
  | timedOut
  | exception (text : Str)

/-- What a solve reads of a `V1RequestBase`. -/
structure Asked (P : Type) where
  session : Option Str
  sessionTtlMinutes : Option ℤ
  proxy : Option P

/-- What `SessionStore.get` returns, and the session's payload and proxy. -/
structure Handed (S B P : Type) where
  session : S
  fresh : Bool
  payload : B
  proxy : Option P

variable {S B P G R : Type}

/-- `if req.session` -/
def Asked.named (req : Asked P) : Option Str := req.session.filter fun s => !s.isEmpty

namespace Frame

def start : Frame S B := ⟨none, none, none, false, []⟩

/-- Write something down. -/
def note (f : Frame S B) (e : Event S B) : Frame S B := { f with log := f.log ++ [e] }

/-- `in_use = session` -/
def claim (f : Frame S B) (s : S) : Frame S B := { f.note (.took (.mark s)) with inUse := some s }

/-- `locked = session.lock` -/
def lock (f : Frame S B) (s : S) : Frame S B := { f.note (.took (.lock s)) with locked := some s }

/-- A browser of the request's own. -/
def launch (f : Frame S B) (b : B) : Frame S B :=
  { f.note (.took (.browser b)) with driver := some b }

/-- A browser that a launch started before it raised, which no local holds. -/
def stray (f : Frame S B) (b : B) (quit : Bool) : Frame S B :=
  if quit then (f.note (.took (.browser b))).note (.gave (.browser b))
  else f.note (.took (.browser b))

/-- `if locked is not None: locked.release()` -/
def release (f : Frame S B) : Frame S B :=
  match f.locked with
  | some s => f.note (.gave (.lock s))
  | none => f

/-- `if in_use is not None: self._sessions.end_use(in_use)` -/
def endUse (f : Frame S B) : Frame S B :=
  match f.inUse with
  | some s => f.note (.gave (.mark s))
  | none => f

/-- The browser goes, if it is the request's own. -/
def close (own : Bool) (f : Frame S B) : Frame S B :=
  match f.driver with
  | some b => if own then f.note (.gave (.browser b)) else f
  | none => f

end Frame

/-! ## What both engines do -/

/-- `remaining_share(started, timeout)`, where `time.monotonic()` is `now`. -/
def remainingShare (started timeout now : ℚ) : ℚ := max 1 (timeout - (now - started))

/-- `timedelta.max.days` -/
def maxDays : ℤ := 999999999

/-- `timedelta(minutes=n)` in microseconds; `none` is `OverflowError`. -/
def timedeltaMinutes (n : ℤ) : Option ℤ :=
  if maxDays < |n / 1440| then none else some (n * 60000000)

/-- `timedelta(minutes=n) if n else None`, where `overflow` is what an `OverflowError` says. -/
def sessionTtl (overflow : Str) : Option ℤ → Except Thrown (Option ℤ)
  | none => .ok none
  | some n =>
    if n = 0 then .ok none
    else
      match timedeltaMinutes n with
      | some ttl => .ok (some ttl)
      | none => .error (.exception overflow)

/-- `'Error solving the challenge.'` -/
def errorSolving : Str := .of "Error solving the challenge.".toList

/-- `"Timed out waiting for session '%s' to be free." % session_id` -/
def waitedFor (sessionId : Str) : Str :=
  .of "Timed out waiting for session '".toList ++ sessionId ++ .of "' to be free.".toList

/-- `f'Error solving the challenge. Timeout after {timeout} seconds.'` -/
def timedOutText (timeout : Str) : Str :=
  errorSolving ++ .of " Timeout after ".toList ++ timeout ++ .of " seconds.".toList

/-- `'Error solving the challenge. ' + str(e).replace('\n', '\\n')` -/
def failedText (text : Str) : Str :=
  errorSolving ++ .of " ".toList ++ text.replace (.of ['\n']) (.of ['\\', 'n'])

/-- `if not session.lock.acquire(...): raise`, then `locked = session.lock`. -/
def lockSession (acquired : Except Thrown Bool) (sessionId : Str) (s : S) :
    Procedure (Frame S B) Thrown Unit := do
  let acquired ← answer acquired
  if acquired then change (·.lock s) else raise (.exception (waitedFor sessionId))

/-- The session that the request names, with the wait for its lock; `acquire` is called
with what is left of the share. -/
def takeSession (overflow : Str) (get : Str → Option ℤ → Option P → Except Thrown (Handed S B P))
    (acquire : S → Except Thrown Bool) (req : Asked P) (sessionId : Str) :
    Procedure (Frame S B) Thrown (Handed S B P) := do
  let ttl ← answer (sessionTtl overflow req.sessionTtlMinutes)
  let handed ← answer (get sessionId ttl req.proxy)
  change (·.claim handed.session)
  lockSession (acquire handed.session) sessionId handed.session
  change fun f => { f with driver := some handed.payload }
  return handed

/-! ## The Chrome engine -/

namespace Chrome

/-- What `ChromeEngine.solve` meets: the readings of the clock, and what its calls answer.
`launch` is what `get_webdriver` meets for a proxy of this `proxyValue`; `driver` is the
driver of the browser it has started, and `launchText` what `str` makes of its exception. -/
structure World (S B P R : Type) where
  started : ℚ
  waiting : ℚ
  opened : ℚ
  zoned : ℚ
  overflow : Str
  shown : ℚ → Str
  get : Str → Option ℤ → Option P → Except Thrown (Handed S B P)
  acquire : S → ℚ → Except Thrown Bool
  launch : Launch.World
  proxyValue : Option P → Json
  driver : Launch.Frame → B
  launchText : Launch.Thrown → Str
  applyTimezone : B → Option P → Except Thrown Unit
  evilLogic : B → ℚ → Except Thrown R
  responseHeaders : Bool
  nt : Bool

variable (w : World S B P R) (req : Asked P) (timeout : ℚ)

/-- The browser of the session. -/
def sessionDriver (sessionId : Str) : Procedure (Frame S B) Thrown (B × Option P) := do
  let handed ← takeSession w.overflow w.get
    (fun s => w.acquire s (remainingShare w.started timeout w.waiting)) req sessionId
  return (handed.payload, handed.proxy)

/-- `utils.get_webdriver(proxy)`: how it ends, and what it leaves. -/
def World.getWebdriver (proxy : Option P) : Except Launch.Thrown Unit × Launch.Frame :=
  Launch.getWebdriver w.launch (w.proxyValue proxy) w.launch.frame

/-- A browser for the request alone. Where the launch raises, `driver` stays unset. -/
def ownDriver : Procedure (Frame S B) Thrown (B × Option P) :=
  match w.getWebdriver req.proxy with
  | (.ok _, f) => do
    change (·.launch (w.driver f))
    return (w.driver f, req.proxy)
  | (.error e, f) => do
    change fun frame => f.browser.elim frame fun b => frame.stray (w.driver f) b.quit
    raise (.exception (w.launchText e))

/-- `driver` and `browser_proxy` -/
def driverFor : Procedure (Frame S B) Thrown (B × Option P) :=
  match req.named with
  | some sessionId => sessionDriver w req timeout sessionId
  | none => ownDriver w req

/-- The timezone, if there is budget for it; what is left then. -/
def setTimezone (driver : B) (proxy : Option P) : Procedure (Frame S B) Thrown ℚ :=
  let left := remainingShare w.started timeout w.opened
  if solveMarginSeconds < left then do
    answer (w.applyTimezone driver proxy)
    return remainingShare w.started timeout w.zoned
  else return left

/-- The `try` block. -/
def attempt : Procedure (Frame S B) Thrown R := do
  let (driver, proxy) ← driverFor w req timeout
  let left ← setTimezone w timeout driver proxy
  answer (w.evilLogic driver left)

/-- The `except` clauses. -/
def report : Thrown → Procedure (Frame S B) Str R
  | .timedOut => do
    change fun f => match req.named with
      | some sessionId => f.note (.discarded sessionId)
      | none => f
    raise (timedOutText (w.shown timeout))
  | .exception text => raise (failedText text)

/-- A session's browser has its network log read. -/
def drain (f : Frame S B) : Frame S B :=
  match f.driver with
  | some b => if req.named.isSome && w.responseHeaders then f.note (.drained b) else f
  | none => f

/-- `driver.close()` of a browser of the request's own, on `nt`. -/
def closeWindow (f : Frame S B) : Frame S B :=
  match f.driver with
  | some b => if req.named.isNone && w.nt then f.note (.windowClosed b) else f
  | none => f

/-- The `finally` block. -/
def cleanup (f : Frame S B) : Frame S B :=
  (closeWindow w req (drain w req f).release.endUse).close req.named.isNone

/-- `ChromeEngine.solve(req, method, timeout)` -/
def solve : Procedure (Frame S B) Str R :=
  ((attempt w req timeout).handling (report w req timeout)).cleaning (cleanup w req)

end Chrome

/-! ## The stealth engine -/

namespace Stealth

/-- What `StealthEngine.solve` meets: the readings of the clock, and what its calls answer.
`context` is `StealthContext(cfg)`, and `doSolve ctx left cap` is
`self._runtime.run(self._do_solve(req, ctx, method, left), timeout=cap)`. -/
structure World (S B P G R : Type) where
  started : ℚ
  waiting : ℚ
  starting : ℚ
  opened : ℚ
  overflow : Str
  shown : ℚ → Str
  startTimeout : ℚ
  get : Str → Option ℤ → Option P → Except Thrown (Handed S B P)
  acquire : S → ℚ → Except Thrown Bool
  proxyToConfig : Option P → Except Thrown G
  context : G → B
  start : B → ℚ → Except Thrown Unit
  doSolve : B → ℚ → ℚ → Except Thrown R
  close : B → Except Thrown Unit

variable (w : World S B P G R) (req : Asked P) (timeout : ℚ)

/-- `_close_bounded(ctx)`: the cap on the teardown is only logged. -/
def closeBounded (ctx : B) : Procedure (Frame S B) Thrown Unit := do
  change (·.note (.gave (.browser ctx)))
  match w.close ctx with
  | .ok _ | .error .timedOut => return
  | .error (.exception text) => raise (.exception text)

/-- `_start_context(proxy)`, with `self._launch_budget.seconds`, unless it is not set. -/
def startContext (launchBudget : Option ℚ) (proxy : Option P) :
    Procedure (Frame S B) Thrown B := do
  let cfg ← answer (w.proxyToConfig proxy)
  let ctx := w.context cfg
  change (·.note (.took (.browser ctx)))
  let allowed := min ((launchBudget.filter (· ≠ 0)).getD w.startTimeout) w.startTimeout
  (answer (w.start ctx allowed)).handling fun e => do
    closeBounded w ctx
    raise e
  return ctx

/-- The context of the session. -/
def sessionContext (sessionId : Str) : Procedure (Frame S B) Thrown B := do
  let handed ← takeSession w.overflow w.get
    (fun s => w.acquire s (remainingShare w.started timeout w.waiting)) req sessionId
  return handed.payload

/-- A context for the request alone, owned before it is started. -/
def ownContext : Procedure (Frame S B) Thrown B := do
  let cfg ← answer (w.proxyToConfig req.proxy)
  change fun f => { f.launch (w.context cfg) with ownCtx := true }
  answer (w.start (w.context cfg)
    (min (remainingShare w.started timeout w.starting) w.startTimeout))
  return w.context cfg

/-- `ctx`, started -/
def contextFor : Procedure (Frame S B) Thrown B :=
  match req.named with
  | some sessionId => sessionContext w req timeout sessionId
  | none => ownContext w req timeout

/-- The `try` block. -/
def attempt : Procedure (Frame S B) Thrown R := do
  let ctx ← contextFor w req timeout
  let left := remainingShare w.started timeout w.opened
  answer (w.doSolve ctx left (left + 5))

/-- The `except` clauses. -/
def report : Thrown → Procedure (Frame S B) Str R
  | .timedOut => raise (timedOutText (w.shown timeout))
  | .exception text => raise (failedText text)

/-- The `finally` block. What closing the context raises is only logged. -/
def cleanup (f : Frame S B) : Frame S B := f.release.endUse.close f.ownCtx

/-- `StealthEngine.solve(req, method, timeout)` -/
def solve : Procedure (Frame S B) Str R :=
  ((attempt w req timeout).handling (report w timeout)).cleaning cleanup

end Stealth

end Solverr.Engines
