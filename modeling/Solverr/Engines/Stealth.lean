import Solverr.Engines.Chrome
import Solverr.Engines.Watch

/-!
# The stealth engine

`StealthEngine._navigate_and_solve` and what it calls, as programs that drive a browser.
The wait for a challenge to clear is `waitUntilCleared` on the page as this engine
reads it (`watch`).
-/

namespace Solverr.Engines

open Solverr.Lib (Text CaseMap Json Along Cursor Stop)

/-- `INTERSTITIAL_SELECTORS` are asked for one after the other. -/
def anyOnPage : List Selector → Browse Bool
  | [] => pure false
  | selector :: selectors => do
    if ← Browse.onPage selector then pure true else anyOnPage selectors

namespace Stealth

/-! ## Looking -/

/-- `_past_navigation(read)` -/
def pastNavigation {α : Type} (look : Browse α) : Browse α := do
  match ← Along.attempt Browse.anyFault look with
  | some answer => pure answer
  | none => look

/-- How the stealth engine looks at a page and lets it settle. -/
def looks : (q : Ask) → Browse q.Answer
  | .navigate | .setCookies _ => pure ()
  | .settle => Browse.besides Browse.act
  | .title => Browse.lookAtTitle
  | .selector selector => Browse.onPage selector

/-- `_detect(page, kernel)` -/
def detect (kernel : Kernel Found) : Browse (Verdict × Bool) := do
  let found ← kernel.run looks
  pure (found.verdict, found.verdict ≠ .denied && found.isTurnstile)

/-- `_detect_settled(page, kernel)` -/
def detectSettled (kernel : Kernel Found) : Browse (Verdict × Bool) :=
  pastNavigation (detect kernel)

/-- The value of the Turnstile input, of an input that is there. -/
def inputValue (m : Moment) : Except Fault Text :=
  match m.widget with
  | .ok (some value) => .ok value
  | .ok none => .error ⟨.timeout, []⟩
  | .error fault => .error fault

/-- `input_value() or None` -/
def readValue : Browse (Option Text) := do
  let value ← Along.ask inputValue
  pure (if value = [] then none else some value)

/-- What `_turnstile_token` tries to read. -/
def readToken : Browse (Option Text) := do
  let count ← Along.ask fun m => m.widget.map Option.isSome
  if count then readValue else pure none

/-- `_turnstile_token(page)` -/
def turnstileToken : Browse (Option Text) := do
  let token ← Along.attempt Browse.anyFault readToken
  pure (token.getD none)

/-- `_is_interstitial(page)` -/
def isInterstitial : Browse Bool := pastNavigation (anyOnPage interstitialSelectors)

/-! ## Clicking -/

/-- A container of the size of a checkbox row. -/
def isWidgetSized (box : Box) : Bool :=
  40 < box.width && 20 < box.height && box.height < 120

/-- `_container_box(page)`, over `_WIDGET_ANCESTOR_DEPTHS` -/
def containerBox : List ℕ → Browse (Option Box)
  | [] => pure none
  | depth :: depths => do
    match ← Along.attempt Browse.anyFault (Browse.read fun m => m.containerBox depth) with
    | some (some box) => if isWidgetSized box then pure (some box) else containerBox depths
    | _ => containerBox depths

/-- `_widget_box(page)` -/
def widgetBox : Browse (Option Box) := do
  match ← Along.attempt Browse.anyFault (Browse.read Moment.frameBox) with
  | some (some box) => pure (some box)
  | _ => containerBox [1, 2, 3, 4]

/-- `_click_turnstile(page)` -/
def clickTurnstile : Browse Bool := do
  match ← widgetBox with
  | none => pure false
  | some _ =>
    Browse.act
    pure true

/-! ## Waiting -/

section Driver

variable (set : Setting)

/-- The page title, when debug messages are on. -/
def debugTitle : Browse Unit := if set.debug then Browse.act else pure ()

/-- An answer that is never an exception. -/
def orNone {ε α : Type} : Except ε (Option α) × Cursor → Option α × Cursor
  | (.ok a, c) => (a, c)
  | (.error _, c) => (none, c)

/-- The page as the wait sees it. -/
def watch (e : Evolution) : Watch (Stop Fault) Cursor where
  detectSettled := (detectSettled (verdict set.case true)).run e
  debugTitle := (debugTitle set).run e
  turnstileToken c := orNone (turnstileToken.run e c)
  isInterstitial := isInterstitial.run e
  clickTurnstile := clickTurnstile.run e
  time c := ((e c.moment).now, c.next)
  sleep _ c := c

theorem watch_forward (e : Evolution) : (watch set e).Forward where
  detectSettled := (detectSettled (verdict set.case true)).forward e
  debugTitle := (debugTitle set).forward e
  turnstileToken c := by
    have htoken := turnstileToken.forward e c
    show c ≤ (orNone (turnstileToken.run e c)).2
    unfold orNone
    split
    next heq => rwa [heq] at htoken
    next heq => rwa [heq] at htoken
  isInterstitial := isInterstitial.forward e
  clickTurnstile := clickTurnstile.forward e
  time c := c.le_next
  sleep _ _ := le_rfl

/-- What becomes of the wait in the solve. -/
def outcome : Option (Waited (Stop Fault)) → Except (Stop Fault) Bool
  | none => .error .running
  | some .cleared => .ok true
  | some .expired => .ok false
  | some .blocked => .error (.raised ⟨.other, blockedMessage⟩)
  | some (.raised stop) => .error stop

/-- `_wait_until_cleared(page, deadline)` -/
def waitCleared (deadline : ℚ) : Browse Bool where
  run e c :=
    let (waited, _, d) := waitUntilCleared (watch set e) deadline set.fuel 0 c
    (outcome waited, d)
  forward e c := waitUntilCleared_forward (watch_forward set e) deadline set.fuel 0 c

/-! ## Solving -/

/-- `navigate(target)`: a form is submitted by the page it is on. -/
def navigate : Method → Browse Unit
  | .get => Browse.act
  | .post => do
    Browse.act
    Browse.besides Browse.act

/-- `instrument(target)` -/
def instrument : Browse Unit := if set.disableMedia then Browse.act else pure ()

/-- The page that the request asked for, with the clock's reading at the start. -/
def arrive (req : Request) (method : Method) : Browse ℚ := do
  let started ← Browse.clock
  instrument set
  (approach req.cookies).run fun
    | .navigate => navigate method
    | .setCookies _ => Browse.act
    | .settle => pure ()
    | .title => pure []
    | .selector _ => pure false
  if set.logHtml then Browse.act
  pure started

/-- `_API_SOLVE_SECONDS` -/
def apiSolveSeconds : ℚ := 30

/-- The deadline of the free solve, which leaves the paid one its time. -/
def freeDeadline (deadline : ℚ) : Browse ℚ :=
  if set.apiSolver then do
    let now ← Browse.clock
    pure (if 2 * apiSolveSeconds < deadline - now then deadline - apiSolveSeconds else deadline)
  else pure deadline

/-- `open_click_page()`: the new page, the solver prepared on it, and the navigation. -/
def openClickPage (method : Method) : Browse Unit := do
  Browse.act
  Browse.act
  instrument set
  navigate method

/-- The paid solve of what the free one left. -/
def escalate (method : Method) (solved : Bool) : Browse Bool :=
  if !solved && set.apiSolver then do
    openClickPage set method
    set.apiSolve
    let (kind, _) ← detectSettled (verdict set.case true)
    pure (kind ≠ .challenge)
  else pure solved

/-- One load state after a solve, if there is time left for it. -/
def settleState (deadline : ℚ) : Browse Bool := do
  let now ← Browse.clock
  -- `int()` of the milliseconds left is not positive
  if (deadline - now) * 1000 < 1 then pure false
  else
    Browse.besides Browse.act
    pure true

/-- The load states after a solve. -/
def settle (deadline : ℚ) : Browse Unit := do
  if ← settleState deadline then
    let _ ← settleState deadline

/-- What is done about a challenge. -/
def solveChallenge (method : Method) (started timeout : ℚ) : Browse Unit := do
  let deadline ← freeDeadline set (solveDeadline started timeout)
  let solved ← waitCleared set deadline
  let solved ← escalate set method solved
  if solved then settle deadline
  else Browse.raise "Challenge still present after solving attempts".toList

/-- What the first detection leads to; whether there was a challenge. -/
def face (method : Method) (started timeout : ℚ) : Verdict → Browse Bool
  | .denied => Browse.raise blockedMessage
  | .challenge => do
    solveChallenge set method started timeout
    pure true
  | .none => pure false

/-- What the stealth engine hands over for each read of a response. -/
def reads (isTurnstile : Bool) : (read : Read) → Browse read.Answer
  | .url => Browse.read Moment.url
  | .userAgent => Browse.read Moment.userAgent
  | .token => if isTurnstile then turnstileToken else pure none
  | .wait => pure ()
  | .headers => Browse.read Moment.headers
  | .body => Browse.read fun m =>
    match m.pdf with
    | some pdf => (pdf, some "application/pdf".toList)
    | none => (m.html, none)
  | .screenshot => Browse.read Moment.screenshot
  | .cookies => Browse.read Moment.cookies

/-- `StealthEngine._navigate_and_solve(req, ctx, method, timeout)` -/
def navigateAndSolve (req : Request) (method : Method) (timeout : ℚ) : Browse SolveResult := do
  let started ← arrive set req method
  let (kind, isTurnstile) ← detectSettled (settledVerdict set.case true)
  let solved ← face set method started timeout kind
  (assembly req (Chrome.message solved)).run (reads isTurnstile)

end Driver

end Stealth

end Solverr.Engines
