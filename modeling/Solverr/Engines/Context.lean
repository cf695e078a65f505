import Solverr.Engines.Chrome
import Solverr.Lib.Procedure
import Solverr.Lib.Strings

/-!
# What a request leaves on a session's context

A session keeps one browser context, and every request of the session works on it:
`_navigate_and_solve` listens to its pages, blocks what they load, and for a paid solve opens
a page that carries the solver's init scripts, which cannot be taken off a page again. None of
it may be there for the next request.

`Engines.Stealth` is how a challenge is solved. Here the solving is answers from outside, and
the state is what the request does to the context, with the locals that the `finally` block
reads. Every `await` may raise, and may be where the request is cancelled, which no
`except Exception` catches.

- `context_left_as_found`: however a request ends, the context has the pages, the listeners
  and the routes it had before, where what the `finally` block asks for is done; and never
  have init scripts come onto a page that stays.
- `session_context_clean`: so the requests of a session, one after the other, all find the
  context as it was when the session began.
-/

namespace Solverr.Engines.Context

open Solverr.Lib (Str Procedure)
open Solverr.Lib.Procedure

/-- A page of a context. -/
abbrev Page := ℕ

/-- A handler: a closure that one request made. -/
abbrev Handler := ℕ

/-- What a step raises: an exception, or the `CancelledError` that stops the request. -/
inductive Halt
  | exception (text : Str)
  | cancelled

/-- What came of a step that changes the context. Cut off, it may have been carried out all the
same. -/
inductive Outcome
  | done
  | cutOff (halt : Halt) (carriedOut : Bool)

/-- A context, with what its pages have on them. The pages and handlers there have ever been
are numbered. -/
structure StealthContext where
  pages : List Page
  listeners : List (Page × Handler)
  routes : List (Page × Handler)
  patched : List Page
  opened : ℕ
  made : ℕ

/-- `StealthContext.start()`: the context's own page, with nothing on it. -/
def StealthContext.start : StealthContext := ⟨[0], [], [], [], 1, 0⟩

/-- The context's own page. -/
def ownPage : Page := 0

/-- An entry of `instrumented`. -/
structure Instrumented where
  target : Page
  blockHandler : Option Handler
  responseHandler : Handler

/-- `click`, as far as the `finally` block reads it. -/
structure Click where
  target : Page
  solver : Bool

/-- The context, and the locals of the request. -/
structure Frame where
  ctx : StealthContext
  page : Page
  instrumented : List Instrumented
  click : Option Click

namespace Frame

/-- A request begins. -/
def start (ctx : StealthContext) : Frame := ⟨ctx, ownPage, [], none⟩

/-- `target.route("**/*", handler)`, for a new handler. -/
def route (target : Page) (f : Frame) : Frame :=
  { f with ctx := { f.ctx with
      routes := f.ctx.routes ++ [(target, f.ctx.made)], made := f.ctx.made + 1 } }

/-- `target.on("response", handler)`, for a new handler, and its entry. -/
def listen (target : Page) (blockHandler : Option Handler) (f : Frame) : Frame :=
  { f with
    ctx := { f.ctx with
      listeners := f.ctx.listeners ++ [(target, f.ctx.made)], made := f.ctx.made + 1 }
    instrumented := f.instrumented ++ [⟨target, blockHandler, f.ctx.made⟩] }

/-- `ctx.context.new_page()` -/
def openPage (f : Frame) : Frame :=
  { f with
    ctx := { f.ctx with pages := f.ctx.pages ++ [f.ctx.opened], opened := f.ctx.opened + 1 } }

/-- Init scripts come onto a page. -/
def patch (target : Page) (f : Frame) : Frame :=
  { f with ctx := { f.ctx with patched := target :: f.ctx.patched } }

/-- `target.remove_listener("response", handler)` -/
def removeListener (target : Page) (handler : Handler) (f : Frame) : Frame :=
  { f with ctx := { f.ctx with listeners := f.ctx.listeners.erase (target, handler) } }

/-- `target.unroute("**/*", handler)` -/
def unroute (target : Page) (handler : Handler) (f : Frame) : Frame :=
  { f with ctx := { f.ctx with routes := f.ctx.routes.erase (target, handler) } }

/-- `target.close()`: what was on the page goes with it. -/
def closePage (target : Page) (f : Frame) : Frame :=
  { f with ctx := { f.ctx with
      pages := f.ctx.pages.erase target
      listeners := f.ctx.listeners.filter fun p => p.1 ≠ target
      routes := f.ctx.routes.filter fun p => p.1 ≠ target } }

end Frame

/-- What a request asks for and what it meets. -/
structure World (R : Type) where
  disableMedia : Bool
  apiSolverEnabled : Bool
  route : Page → Outcome
  approach : Page → Except Halt Unit
  detectSettled : Page → Except Halt Verdict
  waitUntilCleared : Page → Except Halt Bool
  newPage : Outcome
  clickSolver : Except Halt Unit
  prepare : Except Halt Unit
  navigate : Page → Except Halt Unit
  apiSolve : Page → Except Halt Unit
  detectAgain : Page → Except Halt Verdict
  settle : Page → Except Halt Unit
  assemble : Page → Except Halt R
  unroute : Page → Except Halt Unit
  leaveSolver : Except Halt Unit
  close : Except Halt Unit

variable {R : Type} (w : World R)

/-! ## The request -/

/-- A step that changes the context. -/
def carryOut (outcome : Outcome) (g : Frame → Frame) : Procedure Frame Halt Unit :=
  match outcome with
  | .done => change g
  | .cutOff halt true => do
    change g
    raise halt
  | .cutOff halt false => raise halt

/-- The block handler of a page, routed, if media is blocked. -/
def blockMedia (target : Page) : Procedure Frame Halt (Option Handler) := fun f =>
  if w.disableMedia then
    (do
      carryOut (w.route target) (Frame.route target)
      return some f.ctx.made) f
  else (.ok none, f)

/-- `instrument(target)` -/
def instrument (target : Page) : Procedure Frame Halt Unit := do
  let blockHandler ← blockMedia w target
  change (Frame.listen target blockHandler)

/-- The throwaway page, registered and made ready; its solver is registered once it is
prepared. -/
def makeClickPage (target : Page) : Procedure Frame Halt Unit := do
  change fun f => { f with click := some ⟨target, false⟩ }
  answer w.clickSolver
  -- what is raised in here may come after the scripts were added
  change (Frame.patch target)
  answer w.prepare
  change fun f => { f with click := some ⟨target, true⟩ }
  instrument w target
  change fun f => { f with page := target }
  answer (w.navigate target)

/-- `open_click_page()` -/
def openClickPage : Procedure Frame Halt Unit := fun f =>
  match f.click with
  | some _ => (.ok (), f)
  | none => (do
      carryOut w.newPage Frame.openPage
      makeClickPage w f.ctx.opened) f

/-- A step on the page the request is on by now. -/
def onPage {α : Type} (step : Page → Except Halt α) : Procedure Frame Halt α := fun f =>
  (step f.page, f)

/-- The paid solver, if it is enabled and there is still a challenge; whether there is none. -/
def escalate (solved : Bool) : Procedure Frame Halt Bool :=
  if !solved && w.apiSolverEnabled then do
    openClickPage w
    onPage w.apiSolve
    let kind ← onPage w.detectAgain
    return kind ≠ .challenge
  else return solved

/-- What is done about a challenge. -/
def solveChallenge : Procedure Frame Halt Unit := do
  let solved ← onPage w.waitUntilCleared
  let solved ← escalate w solved
  if solved then onPage w.settle
  else raise (.exception (.of "Challenge still present after solving attempts".toList))

/-- What the first look leads to. -/
def face : Verdict → Procedure Frame Halt Unit
  | .denied => raise (.exception (.of blockedMessage))
  | .challenge => solveChallenge w
  | .none => return

/-- The `try` block. -/
def attempt : Procedure Frame Halt R := do
  instrument w ownPage
  onPage w.approach
  let kind ← onPage w.detectSettled
  face w kind
  onPage w.assemble

/-! ## The `finally` block -/

/-- `try: m except Exception: …`, which only writes to the log. -/
def quietly (m : Procedure Frame Halt Unit) : Procedure Frame Halt Unit :=
  m.handling fun
    | .exception _ => pure ()
    | .cancelled => raise .cancelled

/-- The block handler of an entry, if it has one, is taken off. -/
def removeRoute (entry : Instrumented) : Procedure Frame Halt Unit :=
  match entry.blockHandler with
  | some handler =>
    quietly do
      answer (w.unroute entry.target)
      change (Frame.unroute entry.target handler)
  | none => pure ()

/-- The loop over `instrumented`. -/
def removeHandlers : List Instrumented → Procedure Frame Halt Unit
  | [] => pure ()
  | entry :: rest => do
    change (Frame.removeListener entry.target entry.responseHandler)
    removeRoute w entry
    removeHandlers rest

/-- What is done about `click`. -/
def closeClick : Option Click → Procedure Frame Halt Unit
  | none => pure ()
  | some click => do
    quietly (if click.solver then answer w.leaveSolver else pure ())
    quietly do
      answer w.close
      change (Frame.closePage click.target)

/-- The `finally` block. -/
def cleanup : Procedure Frame Halt Unit := fun f =>
  (do
    removeHandlers w f.instrumented
    closeClick w f.click) f

/-- `StealthEngine._navigate_and_solve(req, ctx, method, timeout)` -/
def navigateAndSolve : Procedure Frame Halt R := (attempt w).ensuring (cleanup w)

/-! ## What the body leaves to the cleanup -/

/-- What a page has on it was made before, on a page that was opened before. -/
structure StealthContext.Sound (c : StealthContext) : Prop where
  pages : ∀ p ∈ c.pages, p < c.opened
  listeners : ∀ x ∈ c.listeners, x.1 < c.opened ∧ x.2 < c.made
  routes : ∀ x ∈ c.routes, x.1 < c.opened ∧ x.2 < c.made

/-- The listener of an entry. -/
def Instrumented.listener (entry : Instrumented) : Page × Handler :=
  (entry.target, entry.responseHandler)

/-- The route of an entry, if it has one. -/
def Instrumented.route? (entry : Instrumented) : Option (Page × Handler) :=
  entry.blockHandler.map fun handler => (entry.target, handler)

/-- No step that was cut off has been carried out all the same. -/
structure Seen : Prop where
  route : ∀ p h, w.route p ≠ .cutOff h true
  newPage : ∀ h, w.newPage ≠ .cutOff h true

/-- What there is on the context besides what was there is known to the locals: the pages and
the routes if all of it was seen. -/
structure Extends (seen : Prop) (c : StealthContext) (f : Frame) : Prop where
  pages : seen → f.ctx.pages = c.pages ++ (f.click.map Click.target).toList
  click : ∀ k, f.click = some k → c.opened ≤ k.target
  listeners : f.ctx.listeners = c.listeners ++ f.instrumented.map Instrumented.listener
  routes : seen → f.ctx.routes = c.routes ++ f.instrumented.filterMap Instrumented.route?
  new : ∀ e ∈ f.instrumented, c.made ≤ e.responseHandler ∧ ∀ h ∈ e.blockHandler, c.made ≤ h
  patched : ∀ p ∈ f.ctx.patched, p ∈ c.patched ∨ c.opened ≤ p
  made : c.made ≤ f.ctx.made
  opened : c.opened ≤ f.ctx.opened

/-- The steps go on where the locals know of everything. -/
def Tracks (c : StealthContext) {α : Type} (m : Procedure Frame Halt α) : Prop :=
  Meets (Extends True c) m (fun _ => Extends True c) fun _ => Extends (Seen w) c

/-- The frame once media is blocked on a page, or not. -/
def blocked (target : Page) (f : Frame) : Option Handler × Frame :=
  if w.disableMedia then (some f.ctx.made, f.route target) else (none, f)

theorem meets_carryOut {P : Frame → Prop} {Q : Unit → Frame → Prop} {E : Halt → Frame → Prop}
    {outcome : Outcome} {g : Frame → Frame} (hdone : ∀ f, P f → Q () (g f))
    (hanyway : ∀ h, outcome = .cutOff h true → ∀ f, P f → E h (g f))
    (hnot : ∀ h f, P f → E h f) : Meets P (carryOut outcome g) Q E := by
  intro f hf
  match outcome, hanyway with
  | .done, _ => exact hdone f hf
  | .cutOff h true, hanyway => exact hanyway h rfl f hf
  | .cutOff h false, _ => exact hnot h f hf

variable {w}

theorem blockMedia_meets (target : Page) (f₀ : Frame) :
    Meets (fun f => f = f₀) (blockMedia w target) (fun block f => (block, f) = blocked w target f₀)
      fun _ f => f = f₀ ∨ ¬ Seen w ∧ f = f₀.route target := by
  intro f hf
  subst hf
  unfold blockMedia blocked
  by_cases hmedia : w.disableMedia = true
  · rw [if_pos hmedia, if_pos hmedia]
    refine Meets.bind (P := fun f' => f' = f) (Q := fun _ f' => f' = f.route target) ?_
      (fun _ => meets_pure fun f' hf => congrArg (some f.ctx.made, ·) hf) f rfl
    refine meets_carryOut (fun f' hf => ?_) (fun h hcut f' hf => ?_) fun _ _ hf => Or.inl hf
    · exact congrArg (Frame.route target) hf
    · exact Or.inr ⟨fun hseen => hseen.route target h hcut, congrArg (Frame.route target) hf⟩
  · rw [if_neg hmedia, if_neg hmedia]
    exact rfl

namespace Extends

variable {c : StealthContext} {seen : Prop}

theorem start (c : StealthContext) : Extends True c (Frame.start c) where
  pages := fun _ => (List.append_nil _).symm
  click := fun _ h => (by cases h)
  listeners := (List.append_nil _).symm
  routes := fun _ => (List.append_nil _).symm
  new := fun _ h => (by cases h)
  patched := fun _ => Or.inl
  made := Nat.le_refl _
  opened := Nat.le_refl _

theorem listen {f : Frame} (h : Extends seen c f) (target : Page) :
    Extends seen c (f.listen target none) where
  pages := h.pages
  click := h.click
  listeners := by
    show f.ctx.listeners ++ [(target, f.ctx.made)] =
      c.listeners ++ (f.instrumented ++ [_]).map Instrumented.listener
    rw [List.map_append, h.listeners, List.append_assoc]
    rfl
  routes := by
    intro hseen
    show f.ctx.routes = c.routes ++ (f.instrumented ++ [_]).filterMap Instrumented.route?
    rw [List.filterMap_append, h.routes hseen]
    exact congrArg _ (List.append_nil _).symm
  new := by
    intro e he
    rcases List.mem_append.mp he with hold | hnew
    · exact h.new e hold
    · obtain rfl := List.mem_singleton.mp hnew
      exact ⟨h.made, fun _ hh => (by cases hh)⟩
  patched := h.patched
  made := Nat.le_succ_of_le h.made
  opened := h.opened

theorem routeListen {f : Frame} (h : Extends seen c f) (target : Page) :
    Extends seen c ((f.route target).listen target (some f.ctx.made)) where
  pages := h.pages
  click := h.click
  listeners := by
    show f.ctx.listeners ++ [(target, f.ctx.made + 1)] =
      c.listeners ++ (f.instrumented ++ [_]).map Instrumented.listener
    rw [List.map_append, h.listeners, List.append_assoc]
    rfl
  routes := by
    intro hseen
    show f.ctx.routes ++ [(target, f.ctx.made)] =
      c.routes ++ (f.instrumented ++ [_]).filterMap Instrumented.route?
    rw [List.filterMap_append, h.routes hseen, List.append_assoc]
    rfl
  new := by
    intro e he
    rcases List.mem_append.mp he with hold | hnew
    · exact h.new e hold
    · obtain rfl := List.mem_singleton.mp hnew
      refine ⟨Nat.le_succ_of_le h.made, fun handler hh => ?_⟩
      obtain rfl := Option.mem_some.mp hh
      exact h.made
  patched := h.patched
  made := Nat.le_succ_of_le (Nat.le_succ_of_le h.made)
  opened := h.opened

theorem known {f : Frame} (h : Extends True c f) : Extends seen c f :=
  { h with pages := fun _ => h.pages trivial, routes := fun _ => h.routes trivial }

/-- What nobody has seen is not promised to be gone. -/
theorem unseen {f f' : Frame} (h : Extends True c f) (hnot : ¬ seen)
    (hlocals : f'.instrumented = f.instrumented ∧ f'.click = f.click)
    (hctx : f'.ctx.listeners = f.ctx.listeners ∧ f'.ctx.patched = f.ctx.patched)
    (hle : f.ctx.made ≤ f'.ctx.made ∧ f.ctx.opened ≤ f'.ctx.opened) : Extends seen c f' where
  pages := fun hseen => absurd hseen hnot
  click := hlocals.2 ▸ h.click
  listeners := by rw [hctx.1, hlocals.1, h.listeners]
  routes := fun hseen => absurd hseen hnot
  new := hlocals.1 ▸ h.new
  patched := hctx.2 ▸ h.patched
  made := Nat.le_trans h.made hle.1
  opened := Nat.le_trans h.opened hle.2

theorem instrument (target : Page) : Tracks w c (Context.instrument w target) := by
  intro f h
  unfold Context.instrument
  refine Meets.bind ((blockMedia_meets target f).weaken (fun _ => id) (fun _ _ => id)
    fun _ f' hf => ?_) (fun block => ?_) f rfl
  · rcases hf with rfl | ⟨hnot, rfl⟩
    · exact h.known
    · exact h.unseen hnot ⟨rfl, rfl⟩ ⟨rfl, rfl⟩ ⟨Nat.le_succ _, Nat.le_refl _⟩
  · refine meets_change fun f' hblocked => ?_
    unfold blocked at hblocked
    split at hblocked
    next =>
      obtain ⟨rfl, rfl⟩ := Prod.mk.inj hblocked
      exact h.routeListen target
    next =>
      obtain ⟨rfl, rfl⟩ := Prod.mk.inj hblocked
      exact h.listen target

theorem onPage {α : Type} (step : Page → Except Halt α) :
    Tracks w c (Context.onPage step) := by
  intro f h
  show Ends _ _ (step f.page, f)
  cases step f.page with
  | error => exact h.known
  | ok => exact h

/-- The throwaway page is known to be there before anything is done on it. -/
theorem register {f : Frame} (h : Extends seen c f) (hclick : f.click = none) :
    Extends seen c { f.openPage with click := some ⟨f.ctx.opened, false⟩ } where
  pages := by
    intro hseen
    show f.ctx.pages ++ [f.ctx.opened] = c.pages ++ [f.ctx.opened]
    rw [h.pages hseen, hclick]
    exact congrArg (· ++ [f.ctx.opened]) (List.append_nil c.pages)
  click := by
    intro k hk
    obtain rfl := Option.some.inj hk
    exact h.opened
  listeners := h.listeners
  routes := h.routes
  new := h.new
  patched := h.patched
  made := h.made
  opened := Nat.le_succ_of_le h.opened

/-- The page that carries the scripts is the one the cleanup closes. -/
theorem makeClickPage {target : Page} (htarget : c.opened ≤ target) :
    Meets (fun f => Extends True c { f with click := some ⟨target, false⟩ })
      (Context.makeClickPage w target) (fun _ => Extends True c)
      fun _ => Extends (Seen w) c := by
  unfold Context.makeClickPage
  let registered : Frame → Prop := fun f => Extends True c f ∧ f.click = some ⟨target, false⟩
  refine meets_change_bind registered (fun f h => ⟨h, rfl⟩) ?_
  refine meets_answer_bind (fun _ _ => ?_) fun _ _ f h => h.1.known
  refine meets_change_bind registered (fun f h => ?_) ?_
  · refine ⟨{ h.1 with patched := fun p hp => ?_ }, h.2⟩
    rcases List.mem_cons.mp hp with rfl | hold
    · exact Or.inr htarget
    · exact h.1.patched p hold
  refine meets_answer_bind (fun _ _ => ?_) fun _ _ f h => h.1.known
  refine meets_change_bind (Extends True c) (fun f ⟨h, hk⟩ => ?_) ?_
  · refine { h with pages := fun hseen => ?_, click := fun k hk => ?_ }
    · rw [h.pages hseen, hk]
      rfl
    · obtain rfl := Option.some.inj hk
      exact htarget
  refine Meets.bind (Extends.instrument target) fun _ => ?_
  refine meets_change_bind (Extends True c) (fun f h => { h with }) ?_
  exact meets_answer (fun _ _ _ h => h) fun _ _ _ h => h.known

theorem openClickPage : Tracks w c (Context.openClickPage w) := by
  intro f h
  unfold Context.openClickPage
  cases hclick : f.click with
  | some k => exact h
  | none =>
    show Ends _ _ ((carryOut w.newPage Frame.openPage >>= fun _ =>
      Context.makeClickPage w f.ctx.opened) f)
    refine Meets.bind (P := fun f' => f' = f) (Q := fun _ f' =>
      Extends True c { f' with click := some ⟨f.ctx.opened, false⟩ }) ?_
      (fun _ => makeClickPage h.opened) f rfl
    refine meets_carryOut (fun f' hf => ?_) (fun halt hcut f' hf => ?_) fun _ f' hf => hf ▸ h.known
    · subst hf
      exact h.register hclick
    · subst hf
      refine h.unseen (fun hseen => hseen.newPage halt hcut) ⟨rfl, rfl⟩ ⟨rfl, rfl⟩ ?_
      exact ⟨Nat.le_refl _, Nat.le_succ _⟩

theorem escalate (solved : Bool) : Tracks w c (Context.escalate w solved) := by
  unfold Context.escalate
  refine Meets.ite (fun _ => ?_) fun _ => meets_pure fun _ h => h
  refine Meets.bind openClickPage fun _ => Meets.bind (onPage _) fun _ => ?_
  exact Meets.bind (onPage _) fun _ => meets_pure fun _ h => h

theorem solveChallenge : Tracks w c (Context.solveChallenge w) := by
  unfold Context.solveChallenge
  refine Meets.bind (onPage _) fun solved => Meets.bind (escalate solved) fun cleared => ?_
  exact Meets.ite (fun _ => onPage _) fun _ => meets_raise fun _ h => h.known

theorem face (kind : Verdict) : Tracks w c (Context.face w kind) := by
  cases kind with
  | denied => exact meets_raise fun _ h => h.known
  | challenge => exact solveChallenge
  | none => exact meets_pure fun _ h => h

theorem attempt : Tracks w c (Context.attempt w) := by
  unfold Context.attempt
  refine Meets.bind (Extends.instrument ownPage) fun _ => Meets.bind (onPage _) fun _ => ?_
  exact Meets.bind (onPage _) fun kind => Meets.bind (face kind) fun _ => onPage _

end Extends

/-! ## What the cleanup leaves -/

variable (w)

/-- The cleanup is not stopped itself. -/
structure Orderly : Prop where
  unroute : ∀ p, w.unroute p ≠ .error .cancelled
  leaveSolver : w.leaveSolver ≠ .error .cancelled
  close : w.close ≠ .error .cancelled

/-- The cleanup knows of all there is, and what it asks for is done. -/
structure Done : Prop where
  seen : Seen w
  unroute : ∀ p, w.unroute p = .ok ()
  leaveSolver : w.leaveSolver ≠ .error .cancelled
  close : w.close = .ok ()

variable {w}

theorem Done.orderly (h : Done w) : Orderly w := by
  refine ⟨fun p hp => ?_, h.leaveSolver, fun hclose => ?_⟩
  · rw [h.unroute p] at hp
    cases hp
  · rw [h.close] at hclose
    cases hclose

/-- What a page that stays has never got. -/
structure Kept (c : StealthContext) (f : Frame) : Prop where
  patched : ∀ p ∈ c.pages, p ∈ f.ctx.patched → p ∈ c.patched
  opened : c.opened ≤ f.ctx.opened

variable (w) in
/-- In the loop of the cleanup, with the entries still to come. -/
structure Remains (c : StealthContext) (k : Option Click) (rest : List Instrumented) (f : Frame) :
    Prop where
  kept : Kept c f
  pages : Seen w → f.ctx.pages = c.pages ++ (k.map Click.target).toList
  listeners : f.ctx.listeners = c.listeners ++ rest.map Instrumented.listener
  routes : Done w → f.ctx.routes = c.routes ++ rest.filterMap Instrumented.route?
  new : ∀ e ∈ rest, c.made ≤ e.responseHandler ∧ ∀ h ∈ e.blockHandler, c.made ≤ h

/-- What was not there is taken from where it was added. -/
theorem erase_added {α : Type} [BEq α] [LawfulBEq α] {l rest : List α} {x : α} (h : x ∉ l) :
    (l ++ x :: rest).erase x = l ++ rest := by
  rw [List.erase_append_right _ h, List.erase_cons_head]

theorem quietly_answer {P : Frame → Prop} {Q : Unit → Frame → Prop} {E : Halt → Frame → Prop}
    {x : Except Halt Unit} {g : Frame → Frame} (hok : x = .ok () → ∀ f, P f → Q () (g f))
    (hexception : ∀ text, x = .error (.exception text) → ∀ f, P f → Q () f)
    (hcancelled : x = .error .cancelled → ∀ f, P f → E .cancelled f) :
    Meets P (quietly do answer x; change g) Q E := by
  intro f hf
  match x, hok, hexception, hcancelled with
  | .ok (), hok, _, _ => exact hok rfl f hf
  | .error (.exception text), _, hexception, _ => exact hexception text rfl f hf
  | .error .cancelled, _, _, hcancelled => exact hcancelled rfl f hf

namespace Remains

variable {c : StealthContext} {k : Option Click}

/-- One turn of the loop takes off the listener, which is always done. -/
theorem removeListener (hc : c.Sound) {entry : Instrumented} {rest : List Instrumented}
    {f : Frame} (h : Remains w c k (entry :: rest) f) :
    (f.removeListener entry.target entry.responseHandler).ctx.listeners =
      c.listeners ++ rest.map Instrumented.listener := by
  show f.ctx.listeners.erase (entry.target, entry.responseHandler) = _
  rw [h.listeners]
  refine erase_added fun hold => ?_
  have hnew := (h.new entry (List.mem_cons_self ..)).1
  exact absurd (hc.listeners _ hold).2 (Nat.not_lt.mpr hnew)

/-- And the route, where that is done. -/
theorem unroute (hc : c.Sound) {entry : Instrumented} {rest : List Instrumented} {f : Frame}
    (h : Remains w c k (entry :: rest) f) {handler : Handler}
    (hblock : entry.blockHandler = some handler) (hdone : Done w) :
    f.ctx.routes.erase (entry.target, handler) =
      c.routes ++ rest.filterMap Instrumented.route? := by
  have hroute : entry.route? = some (entry.target, handler) := by
    unfold Instrumented.route?
    rw [hblock]
    rfl
  rw [h.routes hdone, List.filterMap_cons_some hroute]
  refine erase_added fun hold => ?_
  have hnew := (h.new entry (List.mem_cons_self ..)).2 handler hblock
  exact absurd (hc.routes _ hold).2 (Nat.not_lt.mpr hnew)

theorem removeHandlers (hc : c.Sound) (entries : List Instrumented) :
    Meets (Remains w c k entries) (removeHandlers w entries) (fun _ => Remains w c k [])
      fun _ f => ¬ Orderly w ∧ Kept c f := by
  induction entries with
  | nil => exact meets_pure fun _ h => h
  | cons entry rest ih =>
    unfold Context.removeHandlers
    -- the listener is off, the route is not
    let between : Frame → Prop := fun f => ∃ f₀, Remains w c k (entry :: rest) f₀ ∧
      f = f₀.removeListener entry.target entry.responseHandler
    refine meets_change_bind between (fun f h => ⟨f, h, rfl⟩) ?_
    refine Meets.bind (Q := fun _ => Remains w c k rest) ?_ fun _ => ih
    unfold Context.removeRoute
    cases hblock : entry.blockHandler with
    | none =>
      refine meets_pure fun f ⟨f₀, h, hf⟩ => ?_
      have hroute : entry.route? = none := by
        unfold Instrumented.route?
        rw [hblock]
        rfl
      subst hf
      refine ⟨⟨h.kept.patched, h.kept.opened⟩, h.pages, h.removeListener hc, fun hdone => ?_,
        fun e he => h.new e (List.mem_cons_of_mem _ he)⟩
      have hroutes := h.routes hdone
      rw [List.filterMap_cons_none hroute] at hroutes
      exact hroutes
    | some handler =>
      refine quietly_answer (fun hok f ⟨f₀, h, hf⟩ => ?_) (fun text hraise f ⟨f₀, h, hf⟩ => ?_)
        fun hstop f ⟨f₀, h, hf⟩ => ?_
      · subst hf
        exact ⟨⟨h.kept.patched, h.kept.opened⟩, h.pages, h.removeListener hc, h.unroute hc hblock,
          fun e he => h.new e (List.mem_cons_of_mem _ he)⟩
      · subst hf
        refine ⟨⟨h.kept.patched, h.kept.opened⟩, h.pages, h.removeListener hc, fun hdone => ?_,
          fun e he => h.new e (List.mem_cons_of_mem _ he)⟩
        rw [hdone.unroute] at hraise
        cases hraise
      · subst hf
        exact ⟨fun horderly => horderly.unroute _ hstop, h.kept.patched, h.kept.opened⟩

end Remains

/-- Nothing of a request is there. -/
structure Clean (c : StealthContext) : Prop where
  pages : c.pages = [ownPage]
  listeners : c.listeners = []
  routes : c.routes = []
  patched : ownPage ∉ c.patched
  opened : ownPage < c.opened

theorem Clean.sound {c : StealthContext} (h : Clean c) : c.Sound := by
  refine ⟨fun p hp => ?_, fun x hx => ?_, fun x hx => ?_⟩
  · rw [h.pages] at hp
    rw [List.mem_singleton.mp hp]
    exact h.opened
  · rw [h.listeners] at hx
    cases hx
  · rw [h.routes] at hx
    cases hx

variable (w) in
/-- What a request left on the context, however it ended. -/
structure Left (c : StealthContext) (f : Frame) : Prop where
  kept : Kept c f
  listeners : Orderly w → f.ctx.listeners = c.listeners
  done : Done w → f.ctx.pages = c.pages ∧ f.ctx.routes = c.routes

theorem closeClick_left {c : StealthContext} (hc : c.Sound) {k : Option Click}
    (hclick : ∀ click, k = some click → c.opened ≤ click.target) :
    Meets (Remains w c k []) (closeClick w k) (fun _ => Left w c) fun _ => Left w c := by
  have nothing : ∀ {f}, Remains w c k [] f → f.ctx.listeners = c.listeners := fun h =>
    h.listeners.trans (List.append_nil _)
  have stopped : ∀ {f}, ¬ Orderly w → Kept c f → Left w c f := fun hnot hkept =>
    ⟨hkept, fun horderly => absurd horderly hnot, fun hdone => absurd hdone.orderly hnot⟩
  cases k with
  | none =>
    exact meets_pure fun f h => ⟨h.kept, fun _ => nothing h, fun hdone =>
      ⟨(h.pages hdone.seen).trans (List.append_nil _), (h.routes hdone).trans (List.append_nil _)⟩⟩
  | some click =>
    have htarget := hclick click rfl
    unfold closeClick
    refine Meets.bind (Q := fun _ => Remains w c (some click) []) (fun f h => ?_) fun _ => ?_
    · unfold quietly
      split
      next =>
        unfold Procedure.handling answer
        match hleave : w.leaveSolver with
        | .ok () => exact h
        | .error (.exception text) => exact h
        | .error .cancelled => exact stopped (fun horderly => horderly.leaveSolver hleave) h.kept
      next => exact h
    · refine quietly_answer (fun hok f h => ?_) (fun text hraise f h => ?_) fun hstop f h => ?_
      · -- what was there before is on other pages
        have helse : ∀ l : List (Page × Handler), (∀ x ∈ l, x.1 < c.opened ∧ x.2 < c.made) →
            (l.filter fun x => x.1 ≠ click.target) = l := by
          intro l hl
          refine List.filter_eq_self.mpr fun x hx => ?_
          rw [decide_eq_true_iff]
          exact Nat.ne_of_lt (Nat.lt_of_lt_of_le (hl x hx).1 htarget)
        refine ⟨⟨h.kept.patched, h.kept.opened⟩, fun _ => ?_, fun hdone => ⟨?_, ?_⟩⟩
        · show (f.ctx.listeners.filter fun x => x.1 ≠ click.target) = _
          rw [nothing h, helse _ hc.listeners]
        · show f.ctx.pages.erase click.target = _
          rw [h.pages hdone.seen]
          show (c.pages ++ click.target :: []).erase click.target = _
          rw [erase_added fun hold => ?_, List.append_nil]
          exact absurd (hc.pages _ hold) (Nat.not_lt.mpr htarget)
        · show (f.ctx.routes.filter fun x => x.1 ≠ click.target) = _
          rw [h.routes hdone]
          exact (congrArg _ (List.append_nil _)).trans (helse _ hc.routes)
      · refine ⟨h.kept, fun _ => nothing h, fun hdone => ?_⟩
        rw [hdone.close] at hraise
        cases hraise
      · exact stopped (fun horderly => horderly.close hstop) h.kept

theorem cleanup_left {c : StealthContext} (hc : c.Sound) :
    Meets (Extends (Seen w) c) (cleanup w) (fun _ => Left w c) fun _ => Left w c := by
  intro f h
  have hkept : Kept c f := by
    refine ⟨fun p hp hpatched => ?_, h.opened⟩
    rcases h.patched p hpatched with hold | hnew
    · exact hold
    · exact absurd (hc.pages p hp) (Nat.not_lt.mpr hnew)
  have hremains : Remains w c f.click f.instrumented f :=
    ⟨hkept, h.pages, h.listeners, fun hdone => h.routes hdone.seen, h.new⟩
  refine Meets.bind ((Remains.removeHandlers hc f.instrumented).weaken (fun _ h => h)
    (fun _ _ h => h) fun _ f' ⟨hnot, hkept⟩ => ?_) (fun _ => closeClick_left hc h.click) f hremains
  exact ⟨hkept, fun horderly => absurd horderly hnot, fun hdone => absurd hdone.orderly hnot⟩

theorem request_left (w : World R) {c : StealthContext} (hc : c.Sound) :
    Left w c (navigateAndSolve w (Frame.start c)).2 := by
  have hends : Ends (fun _ => Left w c) (fun _ => Left w c) (navigateAndSolve w (Frame.start c)) :=
    Meets.ensuring Extends.attempt (fun _ f h => cleanup_left hc f h.known)
      (fun _ => cleanup_left hc) _ (Extends.start c)
  exact hends.state

/-- A challenge that only the paid solver clears, with media blocked. -/
def paidSolve : World Page where
  disableMedia := true
  apiSolverEnabled := true
  route := fun _ => .done
  approach := fun _ => .ok ()
  detectSettled := fun _ => .ok .challenge
  waitUntilCleared := fun _ => .ok false
  newPage := .done
  clickSolver := .ok ()
  prepare := .ok ()
  navigate := fun _ => .ok ()
  apiSolve := fun _ => .ok ()
  detectAgain := fun _ => .ok .none
  settle := fun _ => .ok ()
  assemble := fun page => .ok page
  unroute := fun _ => .ok ()
  leaveSolver := .ok ()
  close := .ok ()

/-- The same, cancelled while the throwaway page loads. -/
def cutOff : World Page := { paidSolve with navigate := fun _ => .error .cancelled }

/-- The context after these requests. -/
def serve (requests : List (World R)) (c : StealthContext) : StealthContext :=
  requests.foldl (fun c w => (navigateAndSolve w (Frame.start c)).2.ctx) c

/-- A request that finds the context clean leaves it so. -/
theorem Clean.request {c : StealthContext} (h : Clean c) (hdone : Done w) :
    Clean (navigateAndSolve w (Frame.start c)).2.ctx := by
  have hleft := request_left w h.sound
  obtain ⟨hpages, hroutes⟩ := hleft.done hdone
  refine ⟨hpages.trans h.pages, (hleft.listeners hdone.orderly).trans h.listeners,
    hroutes.trans h.routes, fun hpatched => ?_, Nat.lt_of_lt_of_le h.opened hleft.kept.opened⟩
  have hown : ownPage ∈ c.pages := by
    rw [h.pages]
    exact List.mem_singleton_self _
  exact h.patched (hleft.kept.patched ownPage hown hpatched)

theorem Clean.serve {requests : List (World R)} {c : StealthContext} (h : Clean c)
    (hdone : ∀ w ∈ requests, Done w) : Clean (serve requests c) := by
  induction requests generalizing c with
  | nil => exact h
  | cons w rest ih =>
    obtain ⟨hw, hrest⟩ := List.forall_mem_cons.mp hdone
    exact ih (h.request hw) hrest

end Solverr.Engines.Context
