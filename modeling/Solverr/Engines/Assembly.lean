import Solverr.Engines.Browse

/-!
# Assembling the response

`assembly.py`: which values a solved response is made of, and in which order they are
read. Both engines drive it; what they read from the page is their own.
-/

namespace Solverr.Engines

open Solverr.Lib (Text Json Asking Along Cursor)

/-- `method` -/
inductive Method
  | get
  | post
  deriving DecidableEq

/-- What an engine reads of a `V1RequestBase`, besides where to navigate. -/
structure Request where
  cookies : List Json
  tabsTillVerify : Option Int
  returnOnlyCookies : Bool
  waitInSeconds : Option ℚ
  returnScreenshot : Bool

/-- A request that asks for nothing more than the page. -/
def Request.plain : Request := ⟨[], none, false, none, false⟩

/-- `Read`: a value only the engine can fetch. -/
inductive Read
  | url
  | userAgent
  | token
  | wait
  | headers
  | body
  | screenshot
  | cookies

/-- What the engine hands over. -/
def Read.Answer : Read → Type
  | .url | .userAgent | .screenshot => Text
  | .token => Option Text
  | .wait => Unit
  | .headers => Json
  | .body => Text × Option Text
  | .cookies => List Json

/-- An order of reads. -/
abbrev Assembly := Asking Read Read.Answer

/-- `yield` of a read. -/
def fetch (read : Read) : Assembly read.Answer := Asking.put read

/-- The headers and the body, after the wait. -/
def assemblePage (req : Request) (result : SolveResult) : Assembly SolveResult :=
  if req.returnOnlyCookies then pure result
  else do
    let headers ← fetch .headers
    if req.waitInSeconds.any fun seconds => 0 < seconds then
      fetch .wait
    let (response, contentType) ← fetch .body
    pure { result with
      headers := some headers, response := some response, contentType := contentType }

def assembleScreenshot (req : Request) (result : SolveResult) : Assembly SolveResult :=
  if req.returnScreenshot then do
    let screenshot ← fetch .screenshot
    pure { result with screenshot := some screenshot }
  else pure result

/-- What is read after the token. The cookie jar is last. -/
def assembleRest (req : Request) (result : SolveResult) : Assembly SolveResult := do
  let result ← assemblePage req result
  let result ← assembleScreenshot req result
  let cookies ← fetch .cookies
  pure { result with cookies := cookies }

/-- `assembly(req, message)` -/
def assembly (req : Request) (message : Text) : Assembly SolveResult := do
  let url ← fetch .url
  let userAgent ← fetch .userAgent
  let token ← fetch .token
  assembleRest req { SolveResult.blank with
    status := 200, message := message, url := url, userAgent := userAgent, turnstileToken := token }

/-! ## The token of a response -/

/-- The token of a result is `token`. -/
def WithToken (token : Option Text) (result : SolveResult) : Prop := result.turnstileToken = token

theorem assemblePage_token (req : Request) (result : SolveResult) :
    (assemblePage req result).Always (WithToken result.turnstileToken) := by
  unfold assemblePage
  split
  next => rfl
  next =>
    intro headers
    dsimp only
    split
    next => exact fun _ _ => rfl
    next => exact fun _ => rfl

theorem assembleScreenshot_token (req : Request) (result : SolveResult) :
    (assembleScreenshot req result).Always (WithToken result.turnstileToken) := by
  unfold assembleScreenshot
  split
  next => exact fun _ => rfl
  next => rfl

/-- Nothing read after the token replaces it. -/
theorem assembleRest_token {req : Request} {result : SolveResult} {token : Option Text}
    (htoken : WithToken token result) : (assembleRest req result).Always (WithToken token) := by
  refine Asking.Always.bind (fun page hpage => ?_) (assemblePage_token req result)
  refine Asking.Always.bind (fun shot hshot => ?_) (assembleScreenshot_token req page)
  exact fun cookies => hshot.trans (hpage.trans htoken)

/-- **The token of a response is what the engine handed over for it.** -/
theorem assembly_token {req : Request} {message : Text} {reads : (read : Read) → Browse read.Answer}
    {e : Evolution} {c d : Cursor} {r : SolveResult}
    (h : ((assembly req message).run reads).run e c = (.ok r, d)) :
    ∃ m m', c ≤ m ∧ (reads .token).run e m = (.ok r.turnstileToken, m') ∧ m' ≤ d := by
  obtain ⟨url, m₁, hurl, h⟩ := Along.driven_bind_ok.mp h
  obtain ⟨userAgent, m₂, huserAgent, h⟩ := Along.driven_bind_ok.mp h
  obtain ⟨token, m₃, htoken, h⟩ := Along.driven_bind_ok.mp h
  refine ⟨m₂, m₃, (Along.forward_ok hurl).trans (Along.forward_ok huserAgent), ?_,
    Along.forward_ok h⟩
  have hresult : WithToken token r := by
    refine Along.driven_always ?_ h
    exact assembleRest_token rfl
  rw [fetch, Along.driven_put] at htoken
  rwa [show r.turnstileToken = token from hresult]

end Solverr.Engines
