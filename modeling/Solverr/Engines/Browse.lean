import Mathlib.Algebra.Order.Ring.Rat
import Solverr.Engines.Base
import Solverr.Engines.Pipeline
import Solverr.Lib.Along

/-!
# Driving a browser

A page evolves while an engine drives it: each operation meets the next `Moment`,
whatever that is. `Browse α` is a program of such operations. A detection starts with
a look at the title, and that look marks its moment, so that the mark is where the
engine's last look at the page began.
-/

namespace Solverr.Engines

open Solverr.Lib (Text Json Along Cursor)

/-- The exceptions that the engines tell apart: `NoSuchElementException` and
`StaleElementReferenceException`, which a token read takes for a document being
replaced; `TimeoutException`; and any other. -/
inductive FaultKind
  | race
  | timeout
  | other
  deriving DecidableEq

/-- An exception. -/
structure Fault where
  kind : FaultKind
  text : Text

/-- `_PAGE_STATE_SCRIPT`: the location, the ready state, the time origin and the
number of resources. -/
structure PageState where
  href : Text
  readyState : Text
  timeOrigin : ℚ
  resources : ℕ
  deriving DecidableEq

/-- The rectangle of an element. -/
structure Box where
  x : ℚ
  y : ℚ
  width : ℚ
  height : ℚ

/-- What the browser answers at one moment. `widget` answers a question about the
Turnstile input: none without one, and else its value. `fault` is the exception that
any other operation meets. -/
structure Moment where
  now : ℚ
  fault : Option Fault
  title : Text
  present : Selector → Bool
  widget : Except Fault (Option Text)
  url : Text
  location : Text
  pageState : PageState
  userAgent : Text
  headers : Json
  html : Text
  pdf : Option Text
  screenshot : Text
  cookies : List Json
  frameBox : Option Box
  containerBox : ℕ → Option Box

/-- A page with a title and nothing on it. -/
def Moment.plain (title : Text) : Moment where
  now := 0
  fault := none
  title := title
  present _ := false
  widget := .ok none
  url := []
  location := []
  pageState := ⟨[], [], 0, 0⟩
  userAgent := []
  headers := .obj []
  html := []
  pdf := none
  screenshot := []
  cookies := []
  frameBox := none
  containerBox _ := none

/-- A page over time. -/
abbrev Evolution := ℕ → Moment

/-- A program that drives the browser. -/
abbrev Browse (α : Type) := Along Moment Fault α

namespace Moment

/-- The answer of an operation: it raises, or reads from the page. -/
def answer {α : Type} (f : Moment → α) (m : Moment) : Except Fault α :=
  match m.fault with
  | some fault => .error fault
  | none => .ok (f m)

/-- Whether the selector is on the page. -/
def onPage (selector : Selector) (m : Moment) : Except Fault Bool :=
  if selector ∈ turnstileSelectors then m.widget.map Option.isSome
  else m.answer fun m => m.present selector

end Moment

namespace Browse

/-- An operation that reads from the page. -/
def read {α : Type} (f : Moment → α) : Browse α := .ask (Moment.answer f)

/-- An operation for its effect. -/
def act : Browse Unit := read fun _ => ()

/-- The first look of a detection. -/
def lookAtTitle : Browse Text := .askMarked (Moment.answer Moment.title)

def onPage (selector : Selector) : Browse Bool := .ask (Moment.onPage selector)

/-- The clock, which never raises. -/
def clock : Browse ℚ := .ask fun m => .ok m.now

/-- `raise Exception(text)` -/
def raise {α : Type} (text : Text) : Browse α := Along.raise ⟨.other, text⟩

/-- `except Exception` -/
def anyFault (_ : Fault) : Bool := true

/-- `except (NoSuchElementException, StaleElementReferenceException)` -/
def aRace (fault : Fault) : Bool := fault.kind = .race

/-- `except TimeoutException` -/
def aTimeout (fault : Fault) : Bool := fault.kind = .timeout

/-- `try: x except Exception: ...` where the answer does not matter. -/
def besides (x : Browse Unit) : Browse Unit := do
  let _ ← Along.attempt anyFault x

variable {e : Evolution} {c d : Cursor}

theorem read_ok {α : Type} {f : Moment → α} {a : α} : (read f).run e c = (.ok a, d) ↔
    ((e c.moment).fault = none ∧ a = f (e c.moment)) ∧ d = c.next := by
  unfold read
  rw [Along.ask_ok]
  refine and_congr_left fun _ => ?_
  unfold Moment.answer
  cases hfault : (e c.moment).fault <;> simp [eq_comm]

theorem clock_ok {now : ℚ} :
    clock.run e c = (.ok now, d) ↔ now = (e c.moment).now ∧ d = c.next := by
  unfold clock
  rw [Along.ask_ok, Except.ok.injEq, eq_comm (a := now)]

theorem raise_ne_ok {α : Type} {text : Text} {a : α} :
    (raise text : Browse α).run e c ≠ (.ok a, d) := Along.raise_ne_ok

/-- A look that answered marked its moment. -/
theorem lookAtTitle_ok {title : Text} (h : lookAtTitle.run e c = (.ok title, d)) :
    title = (e c.moment).title ∧ d = c.marked := by
  have hrun : Along.answered (Moment.answer Moment.title (e c.moment)) = .ok title ∧
      c.marked = d := Prod.mk.injEq .. ▸ h
  refine ⟨?_, hrun.2.symm⟩
  have hanswer := Along.answered_ok.mp hrun.1
  unfold Moment.answer at hanswer
  split at hanswer
  next => cases hanswer
  next => exact (Except.ok.injEq .. ▸ hanswer).symm

/-- An operation that is let fail takes its one moment. -/
theorem besides_act : (besides act).run e c = (.ok (), c.next) := by
  have hact : act.run e c =
      (Along.answered (Moment.answer (fun _ => ()) (e c.moment)), c.next) := rfl
  unfold besides
  rw [Along.run_bind]
  unfold Along.attempt
  dsimp only
  rw [hact]
  unfold Moment.answer
  cases (e c.moment).fault <;> rfl

end Browse

end Solverr.Engines
