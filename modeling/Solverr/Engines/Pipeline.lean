import Solverr.Engines.Detection
import Solverr.Lib.Asking
import Solverr.Lib.Json

/-!
# The verdict about a page

`pipeline.py`: the rules that both engines drive, as programs that ask. `approach`
loads the page, `verdict` looks at it, `settledVerdict` looks again after the page
has settled. `verdictOn` is the verdict about a page that does not change while it is
looked at.
-/

namespace Solverr.Engines

open Solverr.Lib (Text CaseMap Json Asking)

/-- `Step` and `Look`, with what they carry. -/
inductive Ask
  | navigate
  | setCookies (cookies : List Json)
  | settle
  | title
  | selector (selector : Selector)

/-- What an engine answers. -/
def Ask.Answer : Ask → Type
  | .navigate | .setCookies _ | .settle => Unit
  | .title => Text
  | .selector _ => Bool

/-- A rule that the engines drive. -/
abbrev Kernel := Asking Ask Ask.Answer

/-- `Verdict` -/
inductive Verdict
  | denied
  | challenge
  | none
  deriving DecidableEq

/-- What a verdict says: the verdict, whether a widget decided it, and the title or
selector that did. -/
structure Found where
  verdict : Verdict
  isTurnstile : Bool
  reason : Option Text

namespace Kernel

def navigate : Kernel Unit := .put Ask.navigate
def setCookies (cookies : List Json) : Kernel Unit := .put (Ask.setCookies cookies)
def settle : Kernel Unit := .put Ask.settle
def title : Kernel Text := .put Ask.title
def selector (selector : Selector) : Kernel Bool := .put (Ask.selector selector)

end Kernel

/-- `approach(req)` -/
def approach (cookies : List Json) : Kernel Unit := do
  Kernel.navigate
  if !cookies.isEmpty then
    Kernel.setCookies cookies
    Kernel.navigate

/-- The first of the selectors that is on the page, asked for in order. -/
def firstPresent : List Selector → Kernel (Option Selector)
  | [] => pure none
  | selector :: selectors => do
    let present ← Kernel.selector selector
    if present then pure (some selector) else firstPresent selectors

section Rules

variable (u : CaseMap)

/-- The title is one of a challenge, in any letter case. -/
def isChallengeTitle (title : Text) : Bool :=
  challengeTitles.any fun challenge => u.lower challenge = u.lower title

/-- The title of a page that refuses the request. -/
def deniedTitle (title : Text) : Option Text :=
  accessDeniedTitles.find? fun denied => denied.isPrefixOf title

/-- `verdict(turnstile_is_a_challenge=...)` -/
def verdict (turnstileIsAChallenge : Bool) : Kernel Found := do
  let title ← Kernel.title
  match deniedTitle title with
  | some denied => pure ⟨.denied, false, some denied⟩
  | none =>
    match ← firstPresent accessDeniedSelectors with
    | some selector => pure ⟨.denied, false, some selector.toList⟩
    | none =>
      match ← firstPresent (if turnstileIsAChallenge then turnstileSelectors else []) with
      | some selector => pure ⟨.challenge, true, some selector.toList⟩
      | none =>
        if isChallengeTitle u title then pure ⟨.challenge, false, some title⟩
        else
          match ← firstPresent challengeSelectors with
          | some selector => pure ⟨.challenge, false, some selector.toList⟩
          | none => pure ⟨.none, false, none⟩

/-- `settled_verdict(turnstile_is_a_challenge=...)` -/
def settledVerdict (turnstileIsAChallenge : Bool) : Kernel Found := do
  let found ← verdict u turnstileIsAChallenge
  if found.verdict = .none then
    Kernel.settle
    verdict u turnstileIsAChallenge
  else pure found

/-- What a page that stands still answers. -/
def answers (title : Text) (present : Selector → Bool) : (q : Ask) → q.Answer
  | .navigate | .setCookies _ | .settle => ()
  | .title => title
  | .selector selector => present selector

/-- The verdict about a page with the title and the selectors. -/
def verdictOn (turnstileIsAChallenge : Bool) (title : Text) (present : Selector → Bool) : Found :=
  (verdict u turnstileIsAChallenge).eval (answers title present)

end Rules

/-! ## The verdict on a page that stands still -/

variable {u : CaseMap} {title : Text} {present : Selector → Bool}

@[simp] theorem eval_title : Kernel.title.eval (answers title present) = title := rfl

@[simp] theorem eval_selector (s : Selector) :
    (Kernel.selector s).eval (answers title present) = present s := rfl

@[simp] theorem eval_firstPresent (selectors : List Selector) :
    (firstPresent selectors).eval (answers title present) = selectors.find? present := by
  induction selectors with
  | nil => rfl
  | cons selector selectors ih =>
    rw [firstPresent, Asking.eval_bind, eval_selector]
    cases h : present selector with
    | true => simp [h]
    | false => simp [h, ih]

/-- A page is clear when nothing denies it and nothing challenges. -/
theorem verdictOn_none : (verdictOn u false title present).verdict = .none ↔
    deniedTitle title = none ∧ (∀ s ∈ accessDeniedSelectors, present s = false) ∧
      isChallengeTitle u title = false ∧ ∀ s ∈ challengeSelectors, present s = false := by
  have hfind : ∀ selectors : List Selector,
      selectors.find? present = none ↔ ∀ s ∈ selectors, present s = false := fun selectors => by
    simp
  rw [← hfind, ← hfind]
  unfold verdictOn verdict
  rw [Asking.eval_bind, eval_title]
  cases hdenied : deniedTitle title with
  | some denied => simp
  | none =>
    rw [Asking.eval_bind, eval_firstPresent]
    cases hselector : accessDeniedSelectors.find? present with
    | some selector => simp
    | none =>
      rw [Asking.eval_bind, eval_firstPresent]
      cases hchallenge : isChallengeTitle u title with
      | true => simp
      | false => cases hmarkup : challengeSelectors.find? present <;> simp [hmarkup]

end Solverr.Engines
