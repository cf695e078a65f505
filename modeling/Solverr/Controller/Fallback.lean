import Mathlib.Algebra.Order.Field.Rat
import Mathlib.Data.List.Basic
import Solverr.Engines.Base
import Solverr.Engines.Detection

/-!
# Trying the planned engines within one budget

`_resolve_challenge`: the loop over the plan, with the two results it carries.
The clock moves while an engine solves and at no other time. A `Trial` is one
call of `engine.solve`, with the share it was granted; the loop returns the
trials it made beside its outcome.

`Tries` says once what a pass of the loop can do: stop for lack of engines or of
time, end with a clean page, or go on with what `Carried.after` carries. What
holds of the loop is proved by induction over it.
-/

namespace Solverr.Controller

open Solverr.Lib (Text CaseMap)
open Solverr.Engines (SolveResult looksLikeChallengeHtml)

/-- What one call of `engine.solve` does: a result or an exception's text, after
some time. -/
structure Attempt where
  outcome : Except Text SolveResult
  spent : ℚ

/-- An engine, on the request at hand: what it does with the share it is given. -/
structure Engine where
  name : Text
  solve : ℚ → Attempt

/-- One call of `engine.solve`. -/
structure Trial where
  engine : Text
  share : ℚ
  attempt : Attempt

/-- The page a trial returned, if any. -/
def Trial.page (t : Trial) : Option SolveResult :=
  match t.attempt.outcome with
  | .ok result => some result
  | .error _ => none

/-- `_MIN_ENGINE_SECONDS` -/
def minEngineSeconds : ℚ := 5

/-- `_looks_challenged(result)` -/
def looksChallenged (u : CaseMap) (result : SolveResult) : Bool :=
  looksLikeChallengeHtml u result.response

/-- How the loop ends: with a clean page, whose engine is remembered, with a page
that still looks challenged, or with an error. -/
inductive Ended
  | solved (engine : Text) (result : SolveResult)
  | unsolved (result : SolveResult)
  | raised (error : Text)

/-- The caller gets a page. -/
def Ended.answered : Ended → Bool
  | .raised _ => false
  | _ => true

/-- The engine to be remembered. -/
def Ended.engine : Ended → Option Text
  | .solved engine _ => some engine
  | _ => none

/-- `last_error` and `last_result`. -/
structure Carried where
  lastError : Option Text
  lastResult : Option SolveResult

def Carried.none : Carried := ⟨.none, .none⟩

/-- "Engine '{name}' returned an unsolved challenge page" -/
def unsolvedText (name : Text) : Text :=
  "Engine '".toList ++ name ++ "' returned an unsolved challenge page".toList

/-- After the loop: the last page received, or the last error. -/
def afterLoop (c : Carried) : Ended :=
  match c.lastResult with
  | some result => .unsolved result
  | none => .raised (c.lastError.getD "All engines failed to solve the challenge.".toList)

/-- What the next engine may spend; `len(order) - i` engines are left. -/
def shareOf (remaining : ℚ) (rest : List Engine) : ℚ :=
  if rest.isEmpty then remaining else remaining / (rest.length + 1 : ℕ)

/-- The loop, from the `i`-th engine of the plan on. -/
def tryEngines (u : CaseMap) (deadline : ℚ) (i : ℕ) :
    List Engine → ℚ → Carried → Ended × List Trial
  | [], _, c => (afterLoop c, [])
  | engine :: rest, now, c =>
    let remaining := deadline - now
    if 0 < i ∧ remaining < minEngineSeconds then (afterLoop c, [])
    else
      let share := shareOf remaining rest
      let a := engine.solve share
      let trial : Trial := ⟨engine.name, share, a⟩
      let continue_ (c : Carried) : Ended × List Trial :=
        let later := tryEngines u deadline (i + 1) rest (now + a.spent) c
        (later.1, trial :: later.2)
      match a.outcome with
      | .error e =>
        if rest.isEmpty then
          match c.lastResult with
          -- an earlier engine did return a page: `break`
          | some _ => (afterLoop { c with lastError := some e }, [trial])
          | none => (.raised e, [trial])
        else continue_ { c with lastError := some e }
      | .ok result =>
        if looksChallenged u result then
          if rest.isEmpty then (.unsolved result, [trial])
          else continue_ ⟨some (unsolvedText engine.name), some result⟩
        else (.solved engine.name result, [trial])

/-! ## What a pass can do -/

/-- The trial returned a page that does not look challenged. -/
def Trial.clean (u : CaseMap) (t : Trial) : Bool :=
  match t.page with
  | some result => !looksChallenged u result
  | none => false

/-- What is carried on after a trial that was not clean. -/
def Carried.after (c : Carried) (t : Trial) : Carried :=
  match t.attempt.outcome with
  | .error e => { c with lastError := some e }
  | .ok result => ⟨some (unsolvedText t.engine), some result⟩

/-- The trial of an engine on its share. -/
def Engine.trial (engine : Engine) (share : ℚ) : Trial :=
  ⟨engine.name, share, engine.solve share⟩

/-- The runs of the loop. -/
inductive Tries (u : CaseMap) (deadline : ℚ) :
    ℕ → List Engine → ℚ → Carried → Ended → List Trial → Prop
  | exhausted {i : ℕ} {now : ℚ} {c : Carried} : Tries u deadline i [] now c (afterLoop c) []
  | spent {i : ℕ} {engine : Engine} {rest : List Engine} {now : ℚ} {c : Carried}
      (later : 0 < i) (short : deadline - now < minEngineSeconds) :
      Tries u deadline i (engine :: rest) now c (afterLoop c) []
  | clean {i : ℕ} {engine : Engine} {rest : List Engine} {now : ℚ} {c : Carried} {t : Trial}
      {result : SolveResult} (enough : 0 < i → minEngineSeconds ≤ deadline - now)
      (made : t = engine.trial (shareOf (deadline - now) rest)) (clean : t.clean u = true)
      (page : t.page = some result) :
      Tries u deadline i (engine :: rest) now c (.solved engine.name result) [t]
  | failed {i : ℕ} {engine : Engine} {rest : List Engine} {now : ℚ} {c : Carried} {t : Trial}
      {ended : Ended} {trials : List Trial} (enough : 0 < i → minEngineSeconds ≤ deadline - now)
      (made : t = engine.trial (shareOf (deadline - now) rest)) (unclean : t.clean u = false)
      (next : Tries u deadline (i + 1) rest (now + t.attempt.spent) (c.after t) ended trials) :
      Tries u deadline i (engine :: rest) now c ended (t :: trials)

/-- A pass that the budget allows: it ends the loop with a clean page, or the loop
goes on. With no engine left, going on is what the exits of the last engine do. -/
theorem tryEngines_pass (u : CaseMap) {deadline : ℚ} {i : ℕ} {engine : Engine}
    {rest : List Engine} {now : ℚ} {c : Carried} {t : Trial}
    (ht : t = engine.trial (shareOf (deadline - now) rest))
    (enough : ¬(0 < i ∧ deadline - now < minEngineSeconds)) :
    (∃ result, t.clean u = true ∧ t.page = some result ∧
      tryEngines u deadline i (engine :: rest) now c = (.solved engine.name result, [t])) ∨
    (t.clean u = false ∧ tryEngines u deadline i (engine :: rest) now c =
      ((tryEngines u deadline (i + 1) rest (now + t.attempt.spent) (c.after t)).1,
        t :: (tryEngines u deadline (i + 1) rest (now + t.attempt.spent) (c.after t)).2)) := by
  subst ht
  unfold tryEngines Trial.clean Trial.page Carried.after
  simp only [if_neg enough]
  cases hout : (engine.solve (shareOf (deadline - now) rest)).outcome with
  | error e =>
    refine Or.inr ⟨by simp [Engine.trial, hout], ?_⟩
    cases rest with
    | nil =>
      simp only [Engine.trial, hout, tryEngines, List.isEmpty_nil, if_true]
      cases hres : c.lastResult with
      | some result => rfl
      | none => simp only [afterLoop]; rfl
    | cons next rest => simp only [Engine.trial, hout]; rfl
  | ok result =>
    cases hch : looksChallenged u result with
    | false =>
      refine Or.inl ⟨result, by simp [Engine.trial, hout, hch], by simp [Engine.trial, hout], ?_⟩
      simp only [Engine.trial, hch]
      rfl
    | true =>
      refine Or.inr ⟨by simp [Engine.trial, hout, hch], ?_⟩
      cases rest with
      | nil => simp only [Engine.trial, hout, hch, tryEngines, List.isEmpty_nil, if_true]; rfl
      | cons next rest => simp only [Engine.trial, hout, hch]; rfl

/-- **The loop runs as `Tries` says.** -/
theorem tryEngines_tries (u : CaseMap) (deadline : ℚ) (order : List Engine) :
    ∀ (i : ℕ) (now : ℚ) (c : Carried), Tries u deadline i order now c
      (tryEngines u deadline i order now c).1 (tryEngines u deadline i order now c).2 := by
  induction order with
  | nil => exact fun _ _ _ => .exhausted
  | cons engine rest ih =>
    intro i now c
    by_cases hstop : 0 < i ∧ deadline - now < minEngineSeconds
    · have hend : tryEngines u deadline i (engine :: rest) now c = (afterLoop c, []) := by
        unfold tryEngines
        exact if_pos hstop
      rw [hend]
      exact .spent hstop.1 hstop.2
    · have enough : 0 < i → minEngineSeconds ≤ deadline - now :=
        fun hi => not_lt.mp fun hlt => hstop ⟨hi, hlt⟩
      rcases tryEngines_pass (c := c) u rfl hstop with ⟨result, hclean, hpage, heq⟩ | ⟨hfail, heq⟩
      · rw [heq]
        exact .clean enough rfl hclean hpage
      · rw [heq]
        exact .failed enough rfl hfail (ih (i + 1) _ _)

/-! ## The response -/

/-- `ChallengeResolutionResultT`, with the fields that were set. -/
structure ChallengeResolutionResult where
  url : Text
  status : Int
  cookies : List Solverr.Lib.Json
  userAgent : Text
  turnstileToken : Option Text
  headers : Option Solverr.Lib.Json
  response : Option Text
  contentType : Option Text
  screenshot : Option Text

/-- `ChallengeResolutionT` -/
structure ChallengeResolution where
  status : Text
  message : Text
  result : ChallengeResolutionResult

/-- `_to_challenge_resolution(result)` -/
def toChallengeResolution (result : SolveResult) : ChallengeResolution where
  status := "ok".toList
  message := result.message
  result :=
    { url := result.url
      status := result.status
      cookies := result.cookies
      userAgent := result.userAgent
      turnstileToken := result.turnstileToken
      headers := result.headers
      response := result.response
      contentType := result.contentType
      screenshot := result.screenshot }

/-- What the caller of `_resolve_challenge` gets. -/
def Ended.response : Ended → Except Text ChallengeResolution
  | .solved _ result | .unsolved result => .ok (toChallengeResolution result)
  | .raised error => .error error

/-- The loop of `_resolve_challenge`, entered at `now` with `timeout` seconds. -/
def resolve (u : CaseMap) (timeout now : ℚ) (order : List Engine) : Ended × List Trial :=
  tryEngines u (now + timeout) 0 order now .none

theorem resolve_tries (u : CaseMap) (timeout now : ℚ) (order : List Engine) :
    Tries u (now + timeout) 0 order now .none (resolve u timeout now order).1
      (resolve u timeout now order).2 :=
  tryEngines_tries u (now + timeout) order 0 now .none

end Solverr.Controller
