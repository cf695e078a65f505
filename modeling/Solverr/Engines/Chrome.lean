import Solverr.Engines.Assembly

/-!
# The Chrome engine

`ChromeEngine._evil_logic` and what it calls, as programs that drive a browser. A
`WebDriverWait` tries once and then as often as its time allows, which is `patience`
tries more when it starts at the given moment. The loops that no count bounds take
fuel.

`facePage` is `_evil_logic` up to the end of the clearing loop, with the moments at
which the last pass of that loop began and ended.
-/

namespace Solverr.Engines

open Solverr.Lib (Text CaseMap Json Along)

/-- `BLOCKED_MESSAGE` -/
def blockedMessage : Text :=
  ("Cloudflare has blocked this request. " ++
    "Probably your IP is banned for this site, check in your web browser.").toList

/-- `SOLVE_MARGIN_SECONDS` -/
def solveMarginSeconds : ℚ := 3

/-- `solve_deadline(started, timeout)` -/
def solveDeadline (started timeout : ℚ) : ℚ := started + max 1 (timeout - solveMarginSeconds)

/-- What a solve depends on besides the request and the page. -/
structure Setting where
  case : CaseMap
  logHtml : Bool
  debug : Bool
  disableMedia : Bool
  apiSolver : Bool
  /-- The paid CAPTCHA service and the library that calls it. -/
  apiSolve : Browse Unit
  patience : ℕ → ℕ
  fuel : ℕ

/-- Nothing is logged, nothing is paid for, and no wait tries twice. -/
def Setting.plain : Setting where
  case := .ascii
  logHtml := false
  debug := false
  disableMedia := false
  apiSolver := false
  apiSolve := pure ()
  patience _ := 0
  fuel := 2

namespace Chrome

section Driver

variable (set : Setting)

/-- `WebDriverWait(driver, ...).until(goal)`: whether it was reached in time. -/
def waitUntil (goal : Browse Bool) : Browse Bool := do
  let start ← Along.moment
  Along.poll goal (set.patience start)

/-- `WebDriverWait(driver, ...).until_not(goal)` -/
def waitUntilNot (goal : Browse Bool) : Browse Unit := do
  let gone ← waitUntil set (not <$> goal)
  if gone then pure () else Along.raise ⟨.timeout, []⟩

/-- `add_cookie` of each cookie, in place of the one of its name. -/
def setCookies : List Json → Browse Unit
  | [] => pure ()
  | _ :: cookies => do
    Browse.act
    Browse.act
    setCookies cookies

/-- A letter of `[A-Z_]`. -/
def isCodeChar (c : Char) : Bool := ('A' ≤ c && c ≤ 'Z') || c = '_'

/-- `ERR_[A-Z_]+` at the start of the text. -/
def errorAt (text : Text) : Option Text :=
  if "ERR_".toList.isPrefixOf text then
    match (text.drop 4).takeWhile isCodeChar with
    | [] => none
    | code => some ("ERR_".toList ++ code)
  else none

/-- `re.search` of `net::ERR_[A-Z_]+|ERR_[A-Z_]+` -/
def errorCode : Text → Option Text
  | [] => none
  | c :: text =>
    let here :=
      if "net::".toList.isPrefixOf (c :: text) then
        (errorAt ((c :: text).drop 5)).map ("net::".toList ++ ·)
      else errorAt (c :: text)
    here.or (errorCode text)

/-- `_raise_on_error_page(driver)` -/
def raiseOnErrorPage : Browse Unit := do
  match ← Along.attempt Browse.anyFault (Browse.read Moment.location) with
  | none => pure ()
  | some location =>
    if "chrome-error://".toList.isPrefixOf location then
      let html ← Browse.read Moment.html
      Browse.raise
        ("Navigation failed: ".toList ++ (errorCode html).getD "Chrome error page".toList)

/-- The start of a solve up to the page that the request asked for, with the clock's
reading at its start. -/
def arrive (req : Request) : Browse ℚ := do
  let started ← Browse.clock
  -- `Network.enable` and `Network.setBlockedURLs`
  Browse.besides do
    Browse.act
    Browse.act
  (approach req.cookies).run fun
    | .navigate => Browse.act
    | .setCookies cookies => setCookies cookies
    | .settle => pure ()
    | .title => pure []
    | .selector _ => pure false
  raiseOnErrorPage
  pure started

/-- `_turnstile_token_value(driver)` -/
def turnstileTokenValue : Browse (Option Text) := do
  match ← Along.attempt Browse.aRace (.ask Moment.widget) with
  | some (some (c :: token)) => pure (some (c :: token))
  | _ => pure none

/-- `_has_turnstile_widget(driver)` -/
def hasTurnstileWidget : Browse Bool := do
  let found ← Along.attempt Browse.aTimeout
    (waitUntil set (.ask fun m => m.widget.map Option.isSome))
  pure (found.getD false)

/-- `click_verify(driver, num_tabs)` -/
def clickVerify : Browse Unit := do
  Browse.besides Browse.act
  -- `finally: driver.switch_to.default_content()`
  Browse.act
  Browse.besides Browse.act

/-- The loop of `_get_turnstile_token`, which knows how long its last pass took. -/
def pressUntil (deadline : ℚ) (current : Option Text) : ℕ → ℚ → Browse (Option Text)
  | 0, _ => Along.unfinished
  | fuel + 1, passSeconds => do
    let now ← Browse.clock
    if now + passSeconds < deadline then
      let passStarted ← Browse.clock
      clickVerify
      let token ← turnstileTokenValue
      if token.isSome && token ≠ current then
        pure token
      else
        -- the focus helper
        Browse.act
        let now ← Browse.clock
        pressUntil deadline current fuel (now - passStarted)
    else pure none

/-- `_get_turnstile_token(driver, tabs, deadline)` -/
def getTurnstileToken (deadline : ℚ) : Browse (Option Text) := do
  let current ← turnstileTokenValue
  pressUntil deadline current set.fuel 0

/-- `_resolve_turnstile_captcha(driver, tabs, deadline)` -/
def resolveTurnstileCaptcha (deadline : ℚ) : Browse (Option Text) := do
  if ← hasTurnstileWidget set then getTurnstileToken set deadline else pure none

/-- `_SETTLE_QUIET_POLLS` -/
def settleQuietPolls : ℕ := 5

/-- `_SETTLE_MAX_POLLS` -/
def settleMaxPolls : ℕ := 50

/-- The polls of `_settle`, with the state last read and how often it was quiet. -/
def settlePolls (deadline : ℚ) : ℕ → Option PageState → ℕ → Browse Unit
  | 0, _, _ => pure ()
  | polls + 1, last, quiet => do
    let now ← Browse.clock
    if deadline ≤ now then pure ()
    else
      let state ← Along.attempt Browse.anyFault (Browse.read Moment.pageState)
      if (state.any fun state => state.readyState = "complete".toList) && state = last then
        if settleQuietPolls ≤ quiet + 1 then pure ()
        else settlePolls deadline polls state (quiet + 1)
      else settlePolls deadline polls state 0

/-- `_settle(driver, deadline)` -/
def settle (deadline : ℚ) : Browse Unit := settlePolls deadline settleMaxPolls none 0

/-- How Chrome looks at a page and lets it settle. -/
def looks (deadline : ℚ) : (q : Ask) → Browse q.Answer
  | .navigate | .setCookies _ => pure ()
  | .settle => settle deadline
  | .title => Browse.lookAtTitle
  | .selector selector => Browse.onPage selector

/-- The detection of `_evil_logic`, up to the page it can go on with. -/
def detect (deadline : ℚ) : Browse Found := do
  let found ← (settledVerdict set.case false).run (looks deadline)
  -- `driver.find_element(By.TAG_NAME, "html")`
  Browse.act
  if found.verdict = .denied then Browse.raise blockedMessage else pure found

/-- wait until the title changes -/
def waitForTitles : List Text → Browse Unit
  | [] => pure ()
  | title :: titles => do
    waitUntilNot set (Browse.read fun m => m.title = title)
    waitForTitles titles

/-- then wait until all the selectors disappear -/
def waitForSelectors : List Selector → Browse Unit
  | [] => pure ()
  | selector :: selectors => do
    waitUntilNot set (Browse.onPage selector)
    waitForSelectors selectors

/-- One pass of the clearing loop: every challenge title, then every selector. -/
def clearPass : Browse Unit := do
  waitForTitles set challengeTitles
  waitForSelectors set challengeSelectors

/-- The moments of a pass: from `start`, before `stop`. -/
structure Pass where
  start : ℕ
  stop : ℕ

/-- The clearing loop, and the pass on which it ended. -/
def clear : ℕ → Browse Pass
  | 0 => Along.unfinished
  | fuel + 1 => do
    let start ← Along.moment
    match ← Along.attempt Browse.aTimeout (clearPass set) with
    | some () =>
      let stop ← Along.moment
      pure ⟨start, stop⟩
    | none =>
      clickVerify
      -- the element that the redirect wait watches
      Browse.act
      clear fuel

/-- `presses` -/
def presses (req : Request) (method : Method) : Bool := method ≠ .post && req.tabsTillVerify.isSome

/-- The token pressed for before the page is looked at. -/
def pressFirst (req : Request) (method : Method) (deadline : ℚ) : Browse (Option Text) :=
  if presses req method then resolveTurnstileCaptcha set deadline else pure none

/-- `driver.page_source`, for the log -/
def logPage : Browse Unit := if set.logHtml then Browse.act else pure ()

/-- The clearing loop on a page with a challenge, and its last pass. -/
def clearChallenge (found : Found) : Browse (Option Pass) :=
  if found.verdict = .challenge then some <$> clear set set.fuel else pure none

/-- `_evil_logic` up to the end of the clearing loop: the clock's reading at its start,
the token it pressed for, and the last pass of the loop if there was a challenge. -/
def facePage (req : Request) (method : Method) (timeout : ℚ) :
    Browse (ℚ × Option Text × Option Pass) := do
  let started ← arrive req
  let pressed ← pressFirst set req method (solveDeadline started timeout)
  logPage set
  let found ← detect set (solveDeadline started timeout)
  let pass ← clearChallenge set found
  pure (started, pressed, pass)

/-- `int(_WIDGET_RENDER_SECONDS / _SETTLE_POLL_SECONDS)` -/
def tokenPolls : ℕ := 50

/-- The polls of `_await_turnstile_token`. -/
def awaitPolls (deadline : ℚ) : ℕ → Browse (Option Text)
  | 0 => turnstileTokenValue
  | polls + 1 => do
    let token ← turnstileTokenValue
    if token.isSome then pure token
    else
      let now ← Browse.clock
      if deadline ≤ now then pure token else awaitPolls deadline polls

/-- `_await_turnstile_token(driver, deadline)` -/
def awaitTurnstileToken (deadline : ℚ) : Browse (Option Text) := do
  let widget ← Along.ask fun m => m.widget.map Option.isSome
  if widget then awaitPolls deadline tokenPolls else pure none

/-- What Chrome hands over for each read of a response. -/
def reads (token : Option Text) : (read : Read) → Browse read.Answer
  | .url => Browse.read Moment.url
  | .userAgent => Browse.read Moment.userAgent
  | .token => pure token
  | .wait => pure ()
  | .headers => Browse.read Moment.headers
  | .body => Browse.read fun m => (m.html, none)
  | .screenshot => Browse.read Moment.screenshot
  | .cookies => Browse.read Moment.cookies

/-- `message` -/
def message (solved : Bool) : Text :=
  if solved then "Challenge solved!".toList else "Challenge not detected!".toList

/-- The wait for `staleness_of` after a challenge, whatever comes of it. -/
def awaitRedirect (pass : Option Pass) : Browse Unit :=
  if pass.isSome then Along.idle fun start => set.patience start + 1 else pure ()

/-- `turnstile_token` -/
def lastToken (req : Request) (method : Method) (pressed : Option Text) (deadline : ℚ) :
    Browse (Option Text) :=
  if presses req method then pure pressed else awaitTurnstileToken deadline

/-- `ChromeEngine._evil_logic(req, driver, method, timeout)` -/
def evilLogic (req : Request) (method : Method) (timeout : ℚ) : Browse SolveResult := do
  let (started, pressed, pass) ← facePage set req method timeout
  awaitRedirect set pass
  let token ← lastToken req method pressed (solveDeadline started timeout)
  (assembly req (message pass.isSome)).run (reads token)

end Driver

end Chrome

end Solverr.Engines
