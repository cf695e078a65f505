import Mathlib.Tactic.Linarith
import Solverr.Engines.GivingBack
import Solverr.Engines.Stealth

/-!
# Deadlines inside deadlines

A share of the request's time goes through four functions that each take off what has
passed and apply a floor of one second: `remaining_share` before the solve, the wait for
the context on the stealth engine, `solve_deadline` inside, and the reserve for a paid
solve. A `Drive` is one solve on a page that evolves. Put in the place of what `solve`
calls (`World.driving`), it runs under the caps that `solve` gives it, so that
`Chrome.Nests` and `Stealth.Nests` are about the runs of `_evil_logic` and of
`_locked_solve` themselves: the cap that stops them, and the deadline they solve by.

Both programs are split at the deadline (`evilLogic_eq`, `lockedSolve_eq`): what computes
it, and what is done by it. Time is exact: where one function hands over to the next, both
read the same clock. The floors are why an inner deadline could pass an outer cap, and
`Inside` has the one condition under which it does not, a second of the cap left when
solving starts.
-/

namespace Solverr.Engines

open Solverr.Lib (Str Json Along Cursor Stop Procedure)
open Solverr.Lib.Procedure (answer)

variable {S B P G : Type}

/-! ## The arithmetic -/
/-- What is left of a share ends with it, or a second from now. -/
theorem add_remainingShare (started timeout now : ℚ) :
    now + remainingShare started timeout now = max (started + timeout) (now + 1) := by
  rw [remainingShare, ← max_add_add_left, max_comm]
  congr 1
  linarith

/-- A solve that starts at `start` under a cap stops at `deadline`: not after the cap,
after a second of solving at the least, and with three seconds for the response if there
are four. -/
structure Inside (start cap deadline : ℚ) : Prop where
  within : deadline ≤ cap
  second : start + 1 ≤ deadline
  margin : start + 4 ≤ cap → deadline + 3 ≤ cap

/-- The deadline of what is left of a cap is inside it, when a second is left. -/
theorem inside_solveDeadline {start cap : ℚ} (hleft : start + 1 ≤ cap) :
    Inside start cap (solveDeadline start (cap - start)) := by
  have hsecond : start + 1 ≤ solveDeadline start (cap - start) := by
    rw [solveDeadline]
    linarith [le_max_left 1 (cap - start - solveMarginSeconds)]
  refine ⟨?_, hsecond, ?_⟩
  · have hle : max 1 (cap - start - solveMarginSeconds) ≤ cap - start :=
      max_le (by linarith) (by rw [solveMarginSeconds]; linarith)
    rw [solveDeadline]
    linarith
  · intro hfour
    have hle : max 1 (cap - start - solveMarginSeconds) ≤ cap - start - 3 :=
      max_le (by linarith) (by rw [solveMarginSeconds])
    rw [solveDeadline]
    linarith

/-! ## Caps -/

/-- How a program ends that is begun at `c`: its outcome, and the clock then. -/
def ended {R : Type} (x : Browse R) (e : Evolution) (c : Cursor) :
    Option (Except Thrown R × ℚ) :=
  match x.run e c with
  | (.ok a, d) => some (.ok a, (e d.moment).now)
  | (.error (.raised fault), d) =>
    some (.error (.exception (.of fault.text)), (e d.moment).now)
  | (.error .running, _) => none

/-- `func_timeout`, `asyncio.wait_for` or the runtime's `run`, with a cap that ends at
`limit`: what has not ended by then is stopped. -/
def stoppedAt {R : Type} (limit : ℚ) : Option (Except Thrown R × ℚ) → Except Thrown R × ℚ
  | some (x, now) => if now ≤ limit then (x, now) else (.error .timedOut, limit)
  | none => (.error .timedOut, limit)

/-- One solve: what is asked, and the page as it evolves from `start` on. -/
structure Drive where
  set : Setting
  req : Request
  method : Method
  page : Evolution
  start : Cursor

/-- The clock's reading at the `n`-th operation of the solve. -/
def Drive.now (d : Drive) (n : ℕ) : ℚ := (d.page (d.start.moment + n)).now

/-! ## The Chrome engine -/

namespace Chrome

/-- `solve` with this solve in the place of `_evil_logic`, under `func_timeout`. -/
def World.driving (w : World S B P SolveResult) (d : Drive) : World S B P SolveResult :=
  { w with
    evilLogic := fun _ left =>
      (stoppedAt (d.now 0 + left)
        (ended (Chrome.evilLogic d.set d.req d.method left) d.page d.start)).1 }

/-- When the worker starts: after the timezone, if there was budget for it. -/
def solveStart {R : Type} (w : World S B P R) (timeout : ℚ) : ℚ :=
  if solveMarginSeconds < remainingShare w.started timeout w.opened then w.zoned else w.opened

/-- What `func_timeout` is given, and the solve. -/
def left {R : Type} (w : World S B P R) (timeout : ℚ) : ℚ :=
  remainingShare w.started timeout (solveStart w timeout)

/-- The timezone is set if there is budget for it, and what is left then is left to the
solve. -/
theorem setTimezone_eq {R : Type} (w : World S B P R) (timeout : ℚ) (driver : B)
    (proxy : Option P) :
    (setTimezone w timeout driver proxy : Procedure (Frame S B) Thrown ℚ) =
      if solveMarginSeconds < remainingShare w.started timeout w.opened then do
        answer (w.applyTimezone driver proxy)
        return left w timeout
      else return left w timeout := by
  unfold setTimezone left solveStart
  split
  next hbudget => simp only [if_pos hbudget]
  next hbudget => simp only [if_neg hbudget]

/-- The clock's reading at the start of a solve is where it starts. -/
theorem arrive_started {req : Request} {e : Evolution} {c d : Cursor} {started : ℚ}
    (h : (arrive req).run e c = (.ok started, d)) : started = (e c.moment).now := by
  obtain ⟨now, m, hnow, h⟩ := Along.bind_ok.mp h
  obtain ⟨_, m₁, -, h⟩ := Along.bind_ok.mp h
  obtain ⟨_, m₂, -, h⟩ := Along.bind_ok.mp h
  obtain ⟨_, m₃, -, h⟩ := Along.bind_ok.mp h
  rw [(Along.pure_ok.mp h).1]
  exact (Browse.clock_ok.mp hnow).1

/-- `_evil_logic` up to the page, with the deadline for all that follows. -/
def deadline (req : Request) (timeout : ℚ) : Browse ℚ := do
  let started ← arrive req
  pure (solveDeadline started timeout)

/-- `_evil_logic` from the page on, by its deadline. -/
def solveBy (set : Setting) (req : Request) (method : Method) (deadline : ℚ) :
    Browse SolveResult := do
  let pressed ← pressFirst set req method deadline
  logPage set
  let found ← detect set deadline
  let pass ← clearChallenge set found
  awaitRedirect set pass
  let token ← lastToken req method pressed deadline
  (assembly req (message pass.isSome)).run (reads token)

theorem evilLogic_eq (set : Setting) (req : Request) (method : Method) (timeout : ℚ) :
    evilLogic set req method timeout = deadline req timeout >>= solveBy set req method := by
  unfold evilLogic facePage deadline solveBy
  simp only [bind_assoc, pure_bind]

/-- **The deadline of a run of `_evil_logic`**, under a cap that ends with its timeout: the
solve stops on its way to the page, or goes on by a deadline inside the cap. -/
theorem evilLogic_inside {d : Drive} {start cap : ℚ} (hstart : d.now 0 = start)
    (hleft : start + 1 ≤ cap) {x : Except (Stop Fault) SolveResult} {c : Cursor}
    (h : (evilLogic d.set d.req d.method (cap - start)).run d.page d.start = (x, c)) :
    (∃ stop, (deadline d.req (cap - start)).run d.page d.start = (.error stop, c) ∧
      x = .error stop) ∨
    ∃ limit m, (deadline d.req (cap - start)).run d.page d.start = (.ok limit, m) ∧
      (solveBy d.set d.req d.method limit).run d.page m = (x, c) ∧ Inside start cap limit := by
  rw [evilLogic_eq] at h
  rcases Along.bind_cases h with hstop | ⟨limit, m, hlimit, hsolve⟩
  · exact .inl hstop
  · obtain ⟨started, m', harrive, hpure⟩ := Along.bind_ok.mp hlimit
    obtain ⟨rfl, rfl⟩ := Along.pure_ok.mp hpure
    refine .inr ⟨_, _, hlimit, hsolve, ?_⟩
    rw [arrive_started harrive]
    change d.now 0 = start at hstart
    rw [show (d.page d.start.moment).now = start from hstart]
    exact inside_solveDeadline hleft

/-- How the deadlines of a Chrome solve lie: `_evil_logic` is run with what is left of its
share, under a hard cap that ends with the share or a second after it starts, and solves
by a deadline inside. -/
structure Nests (w : World S B P SolveResult) (d : Drive) (req : Asked P) (timeout : ℚ) :
    Prop where
  cap : solveStart w timeout + left w timeout
    = max (w.started + timeout) (solveStart w timeout + 1)
  runs : attempt (w.driving d) req timeout = do
    let (driver, proxy) ← driverFor w req timeout
    if solveMarginSeconds < remainingShare w.started timeout w.opened then
      answer (w.applyTimezone driver proxy)
    answer (stoppedAt (max (w.started + timeout) (solveStart w timeout + 1))
      (ended (evilLogic d.set d.req d.method (left w timeout)) d.page d.start)).1
  inside : ∀ x c,
    (evilLogic d.set d.req d.method (left w timeout)).run d.page d.start = (x, c) →
    (∃ stop, (deadline d.req (left w timeout)).run d.page d.start = (.error stop, c) ∧
      x = .error stop) ∨
    ∃ limit m, (deadline d.req (left w timeout)).run d.page d.start = (.ok limit, m) ∧
      (solveBy d.set d.req d.method limit).run d.page m = (x, c) ∧
      Inside (solveStart w timeout) (max (w.started + timeout) (solveStart w timeout + 1)) limit

theorem nests (w : World S B P SolveResult) (d : Drive) (req : Asked P) (timeout : ℚ)
    (hstart : d.now 0 = solveStart w timeout) : Nests w d req timeout := by
  have hcap := add_remainingShare w.started timeout (solveStart w timeout)
  change solveStart w timeout + left w timeout = _ at hcap
  refine ⟨hcap, ?_, ?_⟩
  · unfold attempt
    refine congrArg _ (funext fun browser => ?_)
    obtain ⟨driver, proxy⟩ := browser
    show (setTimezone w timeout driver proxy >>= fun left =>
      answer ((w.driving d).evilLogic driver left)) = _
    rw [setTimezone_eq, ← hcap, ← hstart]
    split
    next =>
      dsimp only
      cases w.applyTimezone driver proxy <;> rfl
    next => rfl
  · intro x c h
    have hleft : left w timeout = max (w.started + timeout) (solveStart w timeout + 1) -
        solveStart w timeout := by rw [← hcap, add_sub_cancel_left]
    rw [hleft] at h ⊢
    exact evilLogic_inside hstart (le_max_right ..) h

end Chrome

/-! ## The stealth engine -/

namespace Stealth

/-- `async with ctx.lock` in `_locked_solve`, with what is left then. -/
def queue (timeout : ℚ) : Browse ℚ := do
  let queuedAt ← Browse.clock
  let now ← Browse.clock
  pure (max 1 (timeout - (now - queuedAt)))

/-- `StealthEngine._locked_solve(req, ctx, method, timeout)` -/
def lockedSolve (set : Setting) (req : Request) (method : Method) (timeout : ℚ) :
    Browse SolveResult := do
  let left ← queue timeout
  navigateAndSolve set req method left

/-- `solve` with this solve in the place of `_locked_solve`, under `wait_for` in `_do_solve`
and the outer cap of the runtime. -/
def World.driving (w : World S B P G SolveResult) (d : Drive) : World S B P G SolveResult :=
  { w with
    doSolve := fun _ left cap =>
      (stoppedAt (d.now 0 + cap) (some (stoppedAt (d.now 0 + left)
        (ended (lockedSolve d.set d.req d.method left) d.page d.start)))).1 }

/-- What `_do_solve` is given, and `wait_for` inside it. -/
def left {R : Type} (w : World S B P G R) (timeout : ℚ) : ℚ :=
  remainingShare w.started timeout w.opened

theorem queue_ok {timeout left : ℚ} {e : Evolution} {c d : Cursor}
    (h : (queue timeout).run e c = (.ok left, d)) : d.moment = c.moment + 2 ∧
      left = max 1 (timeout - ((e (c.moment + 1)).now - (e c.moment).now)) := by
  obtain ⟨queuedAt, m, hqueued, h⟩ := Along.bind_ok.mp h
  obtain ⟨rfl, rfl⟩ := Browse.clock_ok.mp hqueued
  obtain ⟨now, m, hnow, h⟩ := Along.bind_ok.mp h
  obtain ⟨rfl, rfl⟩ := Browse.clock_ok.mp hnow
  obtain ⟨rfl, rfl⟩ := Along.pure_ok.mp h
  exact ⟨rfl, rfl⟩

/-- The clock's reading at the start of a solve is where it starts. -/
theorem arrive_started {set : Setting} {req : Request} {method : Method} {e : Evolution}
    {c d : Cursor} {started : ℚ} (h : (arrive set req method).run e c = (.ok started, d)) :
    started = (e c.moment).now ∧ c.moment ≤ d.moment := by
  refine ⟨?_, Cursor.moment_le (Along.forward_ok h)⟩
  obtain ⟨now, m, hnow, h⟩ := Along.bind_ok.mp h
  obtain ⟨_, m₁, -, h⟩ := Along.bind_ok.mp h
  obtain ⟨_, m₂, -, h⟩ := Along.bind_ok.mp h
  split at h
  next =>
    obtain ⟨_, m₃, -, h⟩ := Along.bind_ok.mp h
    rw [(Along.pure_ok.mp h).1]
    exact (Browse.clock_ok.mp hnow).1
  next =>
    rw [(Along.pure_ok.mp h).1]
    exact (Browse.clock_ok.mp hnow).1

/-- The reserve for a paid solve is taken only from more than twice itself. -/
theorem freeDeadline_cases {set : Setting} {e : Evolution} {c d : Cursor} {deadline free : ℚ}
    (h : (freeDeadline set deadline).run e c = (.ok free, d)) : free = deadline ∨
      (free = deadline - apiSolveSeconds ∧ (e c.moment).now + apiSolveSeconds < free) ∧
        d.moment = c.moment + 1 := by
  unfold freeDeadline at h
  split at h
  next =>
    obtain ⟨now, m, hnow, h⟩ := Along.bind_ok.mp h
    obtain ⟨rfl, rfl⟩ := Browse.clock_ok.mp hnow
    obtain ⟨rfl, rfl⟩ := Along.pure_ok.mp h
    split
    next hroom => exact .inr ⟨⟨rfl, by linarith⟩, rfl⟩
    next => exact .inl rfl
  next => exact .inl (Along.pure_ok.mp h).1

/-! ### The solve, split at its deadline -/

/-- What the first detection leads to; a challenge has a deadline. -/
inductive Course
  | denied
  | challenge (deadline : ℚ)
  | clear
  deriving DecidableEq

def course (set : Setting) (started timeout : ℚ) : Verdict → Browse Course
  | .denied => pure .denied
  | .challenge => do
    let deadline ← freeDeadline set (solveDeadline started timeout)
    pure (.challenge deadline)
  | .none => pure .clear

/-- `_locked_solve` up to the deadline, and whether the page has a widget. -/
def plan (set : Setting) (req : Request) (method : Method) (timeout : ℚ) :
    Browse (Course × Bool) := do
  let left ← queue timeout
  let started ← arrive set req method
  let (kind, isTurnstile) ← detectSettled (settledVerdict set.case true)
  let course ← course set started left kind
  pure (course, isTurnstile)

/-- What is done about a challenge by its deadline. -/
def clearBy (set : Setting) (method : Method) (deadline : ℚ) : Browse Unit := do
  let solved ← waitCleared set deadline
  let solved ← escalate set method solved
  if solved then settle deadline
  else Browse.raise "Challenge still present after solving attempts".toList

def follow (set : Setting) (method : Method) : Course → Browse Bool
  | .denied => Browse.raise blockedMessage
  | .challenge deadline => do
    clearBy set method deadline
    pure true
  | .clear => pure false

/-- `_locked_solve` from the deadline on. -/
def solveBy (set : Setting) (req : Request) (method : Method) (planned : Course × Bool) :
    Browse SolveResult := do
  let solved ← follow set method planned.1
  (assembly req (Chrome.message solved)).run (reads planned.2)

/-- Facing a verdict is following its course. -/
theorem face_eq (set : Setting) (method : Method) (started timeout : ℚ) (kind : Verdict) :
    face set method started timeout kind =
      course set started timeout kind >>= follow set method := by
  cases kind with
  | denied | none =>
    unfold course
    rw [pure_bind]
    rfl
  | challenge =>
    unfold face course
    simp only [solveChallenge, follow, clearBy, bind_assoc, pure_bind]

theorem lockedSolve_eq (set : Setting) (req : Request) (method : Method) (timeout : ℚ) :
    lockedSolve set req method timeout =
      plan set req method timeout >>= solveBy set req method := by
  unfold lockedSolve navigateAndSolve plan solveBy
  simp only [bind_assoc, pure_bind, face_eq]

/-! ### The bounds -/

/-- What the queue leaves is what is left of the cap. -/
theorem queue_left {opened left left' : ℚ} {e : Evolution} {c m : Cursor}
    (hopened : (e c.moment).now = opened) (hqueue : (queue left).run e c = (.ok left', m))
    (hexact : (e m.moment).now = (e (c.moment + 1)).now)
    (hleft : (e m.moment).now + 1 ≤ opened + left) :
    left' = opened + left - (e m.moment).now := by
  obtain ⟨-, rfl⟩ := queue_ok hqueue
  rw [← hexact, hopened, max_eq_right (by linarith)]
  linarith

/-- A deadline inside the cap, with the reserve for a paid solve or without it. The reserve
is decided on at `now`, and leaves more than thirty seconds. -/
structure Reserved (start cap now limit : ℚ) : Prop extends Inside start cap limit where
  free : limit = solveDeadline start (cap - start) ∨
    limit = solveDeadline start (cap - start) - apiSolveSeconds ∧ now + 30 < limit

/-- The reserve keeps a deadline inside the cap: detection comes after the start, so more
than a second of solving is left. -/
theorem reserved_of_free {set : Setting} {e : Evolution} {c d : Cursor} {start cap limit : ℚ}
    (hleft : start + 1 ≤ cap) (hlater : start ≤ (e c.moment).now)
    (h : (freeDeadline set (solveDeadline start (cap - start))).run e c = (.ok limit, d)) :
    Reserved start cap (e (d.moment - 1)).now limit := by
  have hinside := inside_solveDeadline hleft
  rcases freeDeadline_cases h with rfl | ⟨⟨hreserve, hroom⟩, hd⟩
  · exact ⟨hinside, .inl rfl⟩
  · have hnow : d.moment - 1 = c.moment := by omega
    rw [apiSolveSeconds] at hroom
    rw [hnow]
    refine ⟨⟨?_, ?_, ?_⟩, .inr ⟨hreserve, hroom⟩⟩
    · rw [hreserve, apiSolveSeconds]
      linarith [hinside.within]
    · linarith
    · intro hfour
      rw [hreserve, apiSolveSeconds]
      linarith [hinside.margin hfour]

/-- The deadline that a challenge gets. -/
theorem plan_reserved {d : Drive} {opened cap : ℚ} (hclock : Monotone fun k => (d.page k).now)
    (hopened : d.now 0 = opened) (hexact : d.now 2 = d.now 1) (hleft : d.now 2 + 1 ≤ cap)
    {limit : ℚ} {isTurnstile : Bool} {m : Cursor}
    (h : (plan d.set d.req d.method (cap - opened)).run d.page d.start =
      (.ok (.challenge limit, isTurnstile), m)) :
    Reserved (d.now 2) cap (d.page (m.moment - 1)).now limit := by
  obtain ⟨left, m₁, hqueue, h⟩ := Along.bind_ok.mp h
  obtain ⟨started, m₂, harrive, h⟩ := Along.bind_ok.mp h
  obtain ⟨⟨kind, isTurnstile'⟩, m₃, hdetect, h⟩ := Along.bind_ok.mp h
  obtain ⟨planned, m₄, hcourse, h⟩ := Along.bind_ok.mp h
  obtain ⟨heq, rfl⟩ := Along.pure_ok.mp h
  obtain ⟨rfl, -⟩ := Prod.mk.inj heq
  have hstart : (d.page m₁.moment).now = d.now 2 := by
    rw [Drive.now, (queue_ok hqueue).1]
  have hcap : opened + (cap - opened) = cap := add_sub_cancel ..
  have hleft' : left = cap - d.now 2 := by
    rw [← hcap, ← hstart]
    refine queue_left hopened hqueue ?_ ?_
    · rw [hstart, hexact]
      rfl
    · rw [hstart, hcap]
      exact hleft
  obtain ⟨hstarted, hafter⟩ := arrive_started harrive
  rw [hstart] at hstarted
  subst hstarted hleft'
  cases kind with
  | denied => exact absurd (Along.pure_ok.mp hcourse).1 (by simp)
  | none => exact absurd (Along.pure_ok.mp hcourse).1 (by simp)
  | challenge =>
    obtain ⟨free, m₅, hfree, hpure⟩ := Along.bind_ok.mp hcourse
    obtain ⟨heq, rfl⟩ := Along.pure_ok.mp hpure
    obtain rfl := Course.challenge.inj heq
    refine reserved_of_free hleft ?_ hfree
    rw [← hstart]
    exact hclock (hafter.trans (Cursor.moment_le (Along.forward_ok hdetect)))

/-- How the deadlines of a stealth solve lie: `_locked_solve` is run under a cap that ends
with the share or a second after it starts, the outer cap five seconds later; and when the
context is free with a second of the cap left, it solves by a deadline inside. -/
structure Nests (w : World S B P G SolveResult) (d : Drive) (req : Asked P) (timeout : ℚ) :
    Prop where
  cap : w.opened + left w timeout = max (w.started + timeout) (w.opened + 1)
  runs : attempt (w.driving d) req timeout = do
    let _ ← contextFor w req timeout
    answer (stoppedAt (max (w.started + timeout) (w.opened + 1) + 5)
      (some (stoppedAt (max (w.started + timeout) (w.opened + 1))
        (ended (lockedSolve d.set d.req d.method (left w timeout)) d.page d.start)))).1
  inside : d.now 2 + 1 ≤ max (w.started + timeout) (w.opened + 1) → ∀ x c,
    (lockedSolve d.set d.req d.method (left w timeout)).run d.page d.start = (x, c) →
    (∃ stop, (plan d.set d.req d.method (left w timeout)).run d.page d.start = (.error stop, c) ∧
      x = .error stop) ∨
    ∃ planned m,
      (plan d.set d.req d.method (left w timeout)).run d.page d.start = (.ok planned, m) ∧
      (solveBy d.set d.req d.method planned).run d.page m = (x, c) ∧
      ∀ limit, planned.1 = .challenge limit →
        Reserved (d.now 2) (max (w.started + timeout) (w.opened + 1))
          (d.page (m.moment - 1)).now limit

theorem nests (w : World S B P G SolveResult) (d : Drive) (req : Asked P) (timeout : ℚ)
    (hclock : Monotone fun k => (d.page k).now) (hopened : d.now 0 = w.opened)
    (hexact : d.now 2 = d.now 1) : Nests w d req timeout := by
  have hcap := add_remainingShare w.started timeout w.opened
  change w.opened + left w timeout = _ at hcap
  refine ⟨hcap, ?_, ?_⟩
  · unfold attempt
    refine congrArg _ (funext fun _ => ?_)
    rw [← hcap, ← hopened, add_assoc]
    rfl
  · intro hleft x c h
    have hshare : left w timeout = max (w.started + timeout) (w.opened + 1) - w.opened := by
      rw [← hcap, add_sub_cancel_left]
    rw [lockedSolve_eq] at h
    rcases Along.bind_cases h with hstop | ⟨⟨course, isTurnstile⟩, m, hplan, hsolve⟩
    · exact .inl hstop
    · refine .inr ⟨_, m, hplan, hsolve, fun limit hlimit => ?_⟩
      obtain rfl : course = .challenge limit := hlimit
      rw [hshare] at hplan
      exact plan_reserved hclock hopened hexact hleft hplan

end Stealth

/-- **Nested deadlines stay nested, on both engines**: for every solve that starts when the
cap for it does, on a clock that does not go back. -/
theorem deadlines_nest (chrome : Chrome.World S B P SolveResult)
    (stealth : Stealth.World S B P G SolveResult) (d d' : Drive) (req : Asked P) (timeout : ℚ)
    (hstart : d.now 0 = Chrome.solveStart chrome timeout) (hopened : d'.now 0 = stealth.opened)
    (hexact : d'.now 2 = d'.now 1) (hclock : Monotone fun k => (d'.page k).now) :
    Chrome.Nests chrome d req timeout ∧ Stealth.Nests stealth d' req timeout :=
  ⟨Chrome.nests chrome d req timeout hstart,
    Stealth.nests stealth d' req timeout hclock hopened hexact⟩

/-- A challenge that clears by itself, on a page that takes a second for each operation from
the third on, with the paid solver on. -/
def Drive.challenged : Drive where
  set := { Setting.plain with apiSolver := true }
  req := .plain
  method := .get
  page k :=
    { Moment.plain (if k < 12 then "Just a moment...".toList else "Example".toList) with
      now := (k - 2 : ℕ) }
  start := .start

/-- A context that starts at once. -/
def Stealth.World.calm : Stealth.World Unit Unit Json Unit SolveResult where
  started := 0
  waiting := 0
  starting := 0
  opened := 0
  overflow := []
  shown _ := []
  startTimeout := 60
  get _ _ _ := .error (.exception [])
  acquire _ _ := .ok true
  proxyToConfig _ := .ok ()
  context _ := ()
  start _ _ := .ok ()
  doSolve _ _ _ := .error .timedOut
  close _ := .ok ()

/-- Of a hundred seconds Chrome solves for ninety-seven, and the stealth engine for
sixty-seven: it keeps thirty for the paid solver. -/
theorem deadlines_nest_challenged :
    (∃ m, (Chrome.deadline Drive.challenged.req 100).run
        Drive.challenged.page Drive.challenged.start = (.ok 97, m) ∧ Inside 0 100 97) ∧
    ∃ m, (Stealth.plan Drive.challenged.set Drive.challenged.req Drive.challenged.method 100).run
        Drive.challenged.page Drive.challenged.start = (.ok (.challenge 67, false), m) ∧
      Stealth.Reserved 0 100 (Drive.challenged.page (m.moment - 1)).now 67 := by
  have hclock : Monotone fun k => (Drive.challenged.page k).now := by
    intro i j hij
    show ((i - 2 : ℕ) : ℚ) ≤ (j - 2 : ℕ)
    exact_mod_cast Nat.sub_le_sub_right hij 2
  obtain ⟨⟨-, -, hchrome⟩, -, -, hstealth⟩ :=
    deadlines_nest (.calm Launch.calmWorld : Chrome.World Unit Unit Json SolveResult)
      .calm .challenged .challenged ⟨none, none, none⟩ 100
      (by decide +kernel) (by decide +kernel) (by decide +kernel) hclock
  have hstart : Chrome.solveStart
      (.calm Launch.calmWorld : Chrome.World Unit Unit Json SolveResult) 100 = 0 := by
    decide +kernel
  have hleft : Chrome.left (.calm Launch.calmWorld : Chrome.World Unit Unit Json SolveResult)
      100 = 100 ∧ Stealth.left Stealth.World.calm 100 = 100 := by decide +kernel
  have hcap : max ((0 : ℚ) + 100) (0 + 1) = 100 := by decide +kernel
  obtain ⟨hlimit, hplan⟩ :
      ((Chrome.deadline Drive.challenged.req 100).run
        Drive.challenged.page Drive.challenged.start).1.toOption = some 97 ∧
      ((Stealth.plan Drive.challenged.set Drive.challenged.req Drive.challenged.method 100).run
        Drive.challenged.page Drive.challenged.start).1.toOption =
          some (.challenge 67, false) := by
    decide +kernel
  rw [hleft.1, hstart] at hchrome
  rw [hleft.2] at hstealth
  refine ⟨?_, ?_⟩
  · rcases hchrome _ _ Prod.mk.eta.symm with ⟨stop, hrun, -⟩ | ⟨limit, m, hrun, -, hinside⟩
    · rw [hrun] at hlimit
      cases hlimit
    · rw [hrun] at hlimit
      obtain rfl := Option.some.inj hlimit
      exact ⟨m, hrun, hcap ▸ hinside⟩
  · rcases hstealth (by decide +kernel) _ _ Prod.mk.eta.symm with
      ⟨stop, hrun, -⟩ | ⟨planned, m, hrun, -, hreserved⟩
    · rw [hrun] at hplan
      cases hplan
    · rw [hrun] at hplan
      obtain rfl := Option.some.inj hplan
      exact ⟨m, hrun, hcap ▸ hreserved 67 rfl⟩

end Solverr.Engines
