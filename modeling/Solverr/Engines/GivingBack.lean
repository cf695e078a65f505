import Solverr.Engines.Solve
import Solverr.Launch.LeftBehind

/-!
# A solve gives back what it took

`takes` is what the calls of a solve hand over to it. Up to the `finally` block each thing
is in a local or was given back, once: that is `Frame.Keeps`, and every step of both `try`
blocks leaves it true, whether it returns or raises. The `finally` blocks then give back
what the locals hold (`Keeps.settled`).

One step does not: a launch of Chrome that raises and leaves its browser running
(`Launch.Lost`) has handed nothing over that a local could hold. `solve_gives_back_iff`
says that a request without a session that meets this is the only one to lose something.
A browser that `get` builds is a session's, not the request's own, and is not counted.
-/

namespace Solverr.Engines

open Solverr.Lib (Str Json Procedure)
open Solverr.Lib.Procedure

variable {S B P G R : Type} [DecidableEq S] [DecidableEq B]

/-- What was taken is `takes`, each thing once, and it was given back once. -/
structure Settled (takes : List (Resource S B)) (log : List (Event S B)) : Prop where
  took : ∀ r, log.count (.took r) = takes.count r
  gave : ∀ r, log.count (.gave r) = takes.count r
  once : takes.Nodup

namespace Frame

variable {f : Frame S B} {own : Bool} {takes : List (Resource S B)}

/-- What the locals hold. `own` says whether the browser is the request's. -/
def holds (own : Bool) (f : Frame S B) : Resource S B → Bool
  | .mark s => f.inUse = some s
  | .lock s => f.locked = some s
  | .browser b => own && decide (f.driver = some b)

/-- What was taken is `takes`, each thing once, and the locals hold what was not given
back. -/
structure Keeps (own : Bool) (takes : List (Resource S B)) (f : Frame S B) : Prop where
  took : ∀ r, f.log.count (.took r) = takes.count r
  owed : ∀ r, f.log.count (.gave r) + (f.holds own r).toNat = takes.count r
  once : takes.Nodup

theorem count_note (f : Frame S B) (e e' : Event S B) :
    (f.note e).log.count e' = f.log.count e' + if e = e' then 1 else 0 := by
  show (f.log ++ [e]).count e' = _
  rw [List.count_append, List.count_singleton]
  simp only [beq_iff_eq]

theorem keeps_start (own : Bool) : Keeps own [] (start : Frame S B) where
  took _ := rfl
  owed r := by cases r <;> simp [start, holds]
  once := List.nodup_nil

theorem toNat_decide (p : Prop) [Decidable p] : (decide p).toNat = if p then 1 else 0 := by
  by_cases h : p
  · rw [decide_eq_true h, if_pos h]
    rfl
  · rw [decide_eq_false h, if_neg h]
    rfl

theorem keeps_claim (s : S) : Keeps false [.mark s] (start.claim s : Frame S B) where
  took r := by simp [start, claim, note, List.count_singleton]
  owed r := by cases r <;> simp [start, claim, note, holds, List.count_singleton, toNat_decide]
  once := by simp

theorem keeps_lock (s : S) (driver : Option B) : Keeps false [.mark s, .lock s]
    ({ (start.claim s).lock s with driver := driver } : Frame S B) where
  took r := by simp [start, claim, lock, note, List.count_cons]
  owed r := by
    cases r <;> simp [start, claim, lock, note, holds, List.count_cons, toNat_decide]
  once := by simp

theorem keeps_launch (b : B) (ownCtx : Bool) :
    Keeps true [.browser b] ({ start.launch b with ownCtx := ownCtx } : Frame S B) where
  took r := by simp [start, launch, note, List.count_singleton]
  owed r := by cases r <;> simp [start, launch, note, holds, List.count_singleton, toNat_decide]
  once := by simp

/-- A browser that its launch has quit is owed no more. -/
theorem keeps_stray (b : B) : Keeps true [.browser b] (start.stray b true : Frame S B) where
  took r := by simp [start, stray, note, List.count_cons]
  owed r := by cases r <;> simp [start, stray, note, holds, List.count_cons]
  once := by simp

/-- Writing down something else. -/
theorem Keeps.note {e : Event S B} (h : f.Keeps own takes) (htook : ∀ r, e ≠ .took r)
    (hgave : ∀ r, e ≠ .gave r) : (f.note e).Keeps own takes where
  took r := by
    rw [count_note, if_neg (htook r), h.took]
    rfl
  owed r := by
    rw [count_note, if_neg (hgave r)]
    exact h.owed r
  once := h.once

/-! ## The `finally` blocks -/

theorem count_release (f : Frame S B) (e : Event S B) :
    f.release.log.count e =
      f.log.count e + if ∃ s, f.locked = some s ∧ e = .gave (.lock s) then 1 else 0 := by
  unfold release
  cases hl : f.locked with
  | none => simp
  | some s => simp [count_note, eq_comm]

theorem count_endUse (f : Frame S B) (e : Event S B) :
    f.endUse.log.count e =
      f.log.count e + if ∃ s, f.inUse = some s ∧ e = .gave (.mark s) then 1 else 0 := by
  unfold endUse
  cases hm : f.inUse with
  | none => simp
  | some s => simp [count_note, eq_comm]

theorem count_close (own : Bool) (f : Frame S B) (e : Event S B) :
    (f.close own).log.count e =
      f.log.count e +
        if ∃ b, f.driver = some b ∧ own = true ∧ e = .gave (.browser b) then 1 else 0 := by
  unfold close
  cases hd : f.driver with
  | none => simp
  | some b => cases own <;> simp [count_note, eq_comm]

section Locals

omit [DecidableEq S] [DecidableEq B]

theorem release_inUse (f : Frame S B) : f.release.inUse = f.inUse := by
  unfold release
  split <;> rfl

theorem release_driver (f : Frame S B) : f.release.driver = f.driver := by
  unfold release
  split <;> rfl

theorem endUse_driver (f : Frame S B) : f.endUse.driver = f.driver := by
  unfold endUse
  split <;> rfl

end Locals

/-- **What is kept is given back**, whatever else is written down before the browser goes. -/
theorem Keeps.settled {f' : Frame S B} (h : f.Keeps own takes) (hdriver : f'.driver = f.driver)
    (htook : ∀ r, f'.log.count (.took r) = f.release.endUse.log.count (.took r))
    (hgave : ∀ r, f'.log.count (.gave r) = f.release.endUse.log.count (.gave r)) :
    Settled takes (f'.close own).log where
  took r := by
    rw [count_close, htook, count_endUse, count_release, h.took]
    simp
  gave r := by
    rw [count_close, hgave, count_endUse, count_release, release_inUse, hdriver, ← h.owed r]
    cases r with
    | mark s => by_cases hs : f.inUse = some s <;> simp [holds, hs]
    | lock s => by_cases hs : f.locked = some s <;> simp [holds, hs]
    | browser b => cases own <;> by_cases hb : f.driver = some b <;> simp [holds, hb]
  once := h.once

end Frame

/-! ## What the calls hand over -/

/-- A session, and its lock if the wait for it ends well. -/
def sessionTakes (overflow : Str) (get : Str → Option ℤ → Option P → Except Thrown (Handed S B P))
    (acquire : S → Except Thrown Bool) (req : Asked P) (sessionId : Str) : List (Resource S B) :=
  match sessionTtl overflow req.sessionTtlMinutes with
  | .error _ => []
  | .ok ttl =>
    match get sessionId ttl req.proxy with
    | .error _ => []
    | .ok handed =>
      match acquire handed.session with
      | .ok true => [.mark handed.session, .lock handed.session]
      | _ => [.mark handed.session]

/-- What a solve on the Chrome engine takes: its own browser, if a launch has started it. -/
def Chrome.takes (w : Chrome.World S B P R) (req : Asked P) (timeout : ℚ) :
    List (Resource S B) :=
  match req.named with
  | some sessionId =>
    sessionTakes w.overflow w.get
      (fun s => w.acquire s (remainingShare w.started timeout w.waiting)) req sessionId
  | none =>
    match w.getWebdriver req.proxy with
    | (.ok _, f) => [.browser (w.driver f)]
    | (.error _, f) => f.browser.toList.map fun _ => .browser (w.driver f)

/-- What a solve on the stealth engine takes: its own context before it is started. -/
def Stealth.takes (w : Stealth.World S B P G R) (req : Asked P) (timeout : ℚ) :
    List (Resource S B) :=
  match req.named with
  | some sessionId =>
    sessionTakes w.overflow w.get
      (fun s => w.acquire s (remainingShare w.started timeout w.waiting)) req sessionId
  | none =>
    match w.proxyToConfig req.proxy with
    | .ok cfg => [.browser (w.context cfg)]
    | .error _ => []

/-- What was handed over is given back, and a failure says that the solve failed. -/
def GivesBack (takes : List (Resource S B)) (m : Procedure (Frame S B) Str R) : Prop :=
  Ends (fun _ f => Settled takes f.log)
    (fun text f => Settled takes f.log ∧ errorSolving <+: text) (m Frame.start)

theorem errorSolving_prefix_failed (text : Str) : errorSolving <+: failedText text := by
  rw [failedText, List.append_assoc]
  exact List.prefix_append ..

theorem errorSolving_prefix_timedOut (text : Str) : errorSolving <+: timedOutText text := by
  rw [timedOutText, List.append_assoc, List.append_assoc]
  exact List.prefix_append ..

/-- **The shape of a solve**: both `try` blocks keep what they take, and the `finally` block
gives it back. -/
theorem givesBack_of_keeping {takes : List (Resource S B)} {Keeping : Frame S B → Prop}
    {attempt : Procedure (Frame S B) Thrown R} {report : Thrown → Procedure (Frame S B) Str R}
    {cleanup : Frame S B → Frame S B}
    (hattempt : Meets (fun f => f = .start) attempt (fun _ => Keeping) fun _ => Keeping)
    (hreport : ∀ e, Meets Keeping (report e) (fun _ => Keeping)
      fun text f => Keeping f ∧ errorSolving <+: text)
    (hcleanup : ∀ f, Keeping f → Settled takes (cleanup f).log) :
    GivesBack takes ((attempt.handling report).cleaning cleanup) := by
  have hmeets : Meets (fun f => f = .start) ((attempt.handling report).cleaning cleanup)
      (fun _ f => Settled takes f.log)
      (fun text f => Settled takes f.log ∧ errorSolving <+: text) :=
    (hattempt.handling hreport).cleaning (fun _ f hf => hcleanup f hf)
      fun _ f hf => ⟨hcleanup f hf.1, hf.2⟩
  exact hmeets _ rfl

/-! ## Taking a session -/

/-- A session is kept, and no context of the request's own. -/
def Frame.OnSession (takes : List (Resource S B)) (f : Frame S B) : Prop :=
  f.ownCtx = false ∧ f.Keeps false takes

/-- Wherever taking a session ends, what was handed over is kept. -/
theorem takeSession_meets (overflow : Str)
    (get : Str → Option ℤ → Option P → Except Thrown (Handed S B P))
    (acquire : S → Except Thrown Bool) (req : Asked P) (sessionId : Str) :
    Meets (fun f : Frame S B => f = .start) (takeSession overflow get acquire req sessionId)
      (fun _ f => f.OnSession (sessionTakes overflow get acquire req sessionId))
      (fun _ f => f.OnSession (sessionTakes overflow get acquire req sessionId)) := by
  rintro f rfl
  unfold takeSession sessionTakes
  cases sessionTtl overflow req.sessionTtlMinutes with
  | error e => exact ⟨rfl, Frame.keeps_start false⟩
  | ok ttl =>
    simp only [answer_ok_bind]
    cases get sessionId ttl req.proxy with
    | error e => exact ⟨rfl, Frame.keeps_start false⟩
    | ok handed =>
      simp only [answer_ok_bind, change_bind_apply, lockSession]
      rcases acquire handed.session with e | _ | _
      · exact ⟨rfl, Frame.keeps_claim handed.session⟩
      · exact ⟨rfl, Frame.keeps_claim handed.session⟩
      · exact ⟨rfl, Frame.keeps_lock handed.session (some handed.payload)⟩

namespace Chrome

variable (w : World S B P R) (req : Asked P) (timeout : ℚ)

/-- What is kept up to the `finally` block. -/
def Keeping (f : Frame S B) : Prop := f.Keeps req.named.isNone (takes w req timeout)

/-- No launch for this request loses its browser. -/
def Launches : Prop := req.named = none → ¬ Launch.Lost w.launch (w.proxyValue req.proxy)

theorem driverFor_meets (hlaunches : Launches w req) :
    Meets (fun f : Frame S B => f = .start) (driverFor w req timeout)
      (fun _ => Keeping w req timeout) (fun _ => Keeping w req timeout) := by
  unfold driverFor Keeping takes
  cases hnamed : req.named with
  | some sessionId =>
    refine Meets.bind (Q := fun _ => _) ?_ fun _ => meets_pure fun _ hf => hf
    exact (takeSession_meets _ _ _ _ _).weaken (fun _ hf => hf) (fun _ _ hf => hf.2)
      fun _ _ hf => hf.2
  | none =>
    rintro f rfl
    have hends := Launch.getWebdriver_meets w.launch (w.proxyValue req.proxy) w.launch.frame
      ⟨rfl, rfl⟩
    unfold ownDriver World.getWebdriver
    generalize Launch.getWebdriver w.launch (w.proxyValue req.proxy) w.launch.frame = x at hends ⊢
    obtain ⟨e | u, launched⟩ := x
    · -- the launch raised, so what it had started was quit
      have hquit : Launch.AllQuit launched := hends.1.mpr (hlaunches hnamed)
      show Frame.Keeps true (launched.browser.toList.map fun _ => _)
        (launched.browser.elim Frame.start fun b => Frame.start.stray (w.driver launched) b.quit)
      cases hb : launched.browser with
      | none => exact Frame.keeps_start true
      | some b =>
        rw [Option.elim_some, hquit b hb]
        exact Frame.keeps_stray (w.driver launched)
    · exact Frame.keeps_launch (w.driver launched) false

/-- The `try` block keeps what it takes, until its end or its exception. -/
theorem attempt_meets (hlaunches : Launches w req) :
    Meets (fun f : Frame S B => f = .start) (attempt w req timeout)
      (fun _ => Keeping w req timeout) (fun _ => Keeping w req timeout) := by
  refine (driverFor_meets w req timeout hlaunches).bind fun (driver, proxy) => ?_
  refine Meets.bind (Q := fun _ => Keeping w req timeout) ?_ fun left => ?_
  · unfold setTimezone
    refine Meets.ite (fun _ => ?_) fun _ => meets_pure fun _ hf => hf
    exact (meets_answer (fun _ _ _ hf => hf) fun _ _ _ hf => hf).bind
      fun _ => meets_pure fun _ hf => hf
  · exact meets_answer (fun _ _ _ hf => hf) fun _ _ _ hf => hf

/-- The `except` clauses change nothing of what is kept, and say what failed. -/
theorem report_meets (e : Thrown) :
    Meets (Keeping w req timeout) (report w req timeout e) (fun _ => Keeping w req timeout)
      (fun text f => Keeping w req timeout f ∧ errorSolving <+: text) := by
  cases e with
  | timedOut =>
    refine (meets_change (Q := fun _ => Keeping w req timeout) ?_).bind fun _ => ?_
    · intro f hf
      split
      next sessionId => exact Frame.Keeps.note hf (fun r h => nomatch h) fun r h => nomatch h
      next => exact hf
    · exact meets_raise fun f hf => ⟨hf, errorSolving_prefix_timedOut _⟩
  | exception text => exact meets_raise fun f hf => ⟨hf, errorSolving_prefix_failed text⟩

omit [DecidableEq S] [DecidableEq B] in
theorem closeWindow_eq (f : Frame S B) :
    closeWindow w req f = f ∨ ∃ b, closeWindow w req f = f.note (.windowClosed b) := by
  unfold closeWindow
  split
  next b _ =>
    split
    next => exact .inr ⟨b, rfl⟩
    next => exact .inl rfl
  next => exact .inl rfl

omit [DecidableEq S] [DecidableEq B] in
theorem drain_eq (f : Frame S B) :
    drain w req f = f ∨ ∃ b, drain w req f = f.note (.drained b) := by
  unfold drain
  split
  next b _ =>
    split
    next => exact .inr ⟨b, rfl⟩
    next => exact .inl rfl
  next => exact .inl rfl

/-- The `finally` block gives back what is kept. -/
theorem cleanup_settled {f : Frame S B} (h : Keeping w req timeout f) :
    Settled (takes w req timeout) (cleanup w req f).log := by
  have hdrained : Keeping w req timeout (drain w req f) := by
    rcases drain_eq w req f with he | ⟨b, he⟩ <;> rw [he]
    · exact h
    · exact Frame.Keeps.note h (fun r h => nomatch h) fun r h => nomatch h
  unfold cleanup
  rcases closeWindow_eq w req (drain w req f).release.endUse with he | ⟨b, he⟩ <;> rw [he]
  · refine Frame.Keeps.settled hdrained ?_ (fun _ => rfl) fun _ => rfl
    rw [Frame.endUse_driver, Frame.release_driver]
  · refine Frame.Keeps.settled hdrained ?_ (fun r => Frame.count_note ..)
      fun r => Frame.count_note ..
    show (drain w req f).release.endUse.driver = _
    rw [Frame.endUse_driver, Frame.release_driver]

/-- **The Chrome engine gives everything back**, unless a launch loses its browser. -/
theorem solve_givesBack (hlaunches : Launches w req) :
    GivesBack (takes w req timeout) (solve w req timeout) :=
  givesBack_of_keeping (attempt_meets w req timeout hlaunches) (report_meets w req timeout)
    fun _ hf => cleanup_settled w req timeout hf

omit [DecidableEq S] [DecidableEq B] in
/-- A launch that loses its browser raises, and the browser runs. -/
theorem getWebdriver_lost (hlost : Launch.Lost w.launch (w.proxyValue req.proxy)) :
    ∃ e f b, w.getWebdriver req.proxy = (.error e, f) ∧ f.browser = some b ∧ b.quit = false := by
  have hends := Launch.getWebdriver_meets w.launch (w.proxyValue req.proxy) w.launch.frame
    ⟨rfl, rfl⟩
  unfold World.getWebdriver
  generalize Launch.getWebdriver w.launch (w.proxyValue req.proxy) w.launch.frame = x at hends ⊢
  obtain ⟨e | u, f⟩ := x
  · have hrunning : ¬ Launch.AllQuit f := fun hquit => hends.1.mp hquit hlost
    unfold Launch.AllQuit at hrunning
    push Not at hrunning
    obtain ⟨b, hb, hquit⟩ := hrunning
    exact ⟨e, f, b, rfl, hb, eq_false_of_ne_true hquit⟩
  · exact absurd hlost hends.1

/-- **A browser that is lost is never asked to close.** -/
theorem not_solve_givesBack (hnamed : req.named = none)
    (hlost : Launch.Lost w.launch (w.proxyValue req.proxy)) :
    ¬ GivesBack (takes w req timeout) (solve w req timeout) := by
  obtain ⟨e, f, b, hget, hb, hquit⟩ := getWebdriver_lost w req hlost
  have htakes : takes w req timeout = [.browser (w.driver f)] := by
    unfold takes
    rw [hnamed]
    simp only [hget, hb]
    rfl
  have hattempt : attempt w req timeout Frame.start =
      (.error (.exception (w.launchText e)), Frame.start.note (.took (.browser (w.driver f)))) := by
    unfold attempt driverFor ownDriver
    simp only [hnamed, hget, hb]
    show (_, Frame.start.stray (w.driver f) b.quit) = _
    rw [hquit]
    rfl
  have hsolve : solve w req timeout Frame.start =
      (.error (failedText (w.launchText e)),
        Frame.start.note (.took (.browser (w.driver f)))) := by
    unfold solve Procedure.handling Procedure.cleaning
    simp only [hattempt]
    show (_, cleanup w req _) = _
    simp [report, raise, cleanup, drain, Frame.release, Frame.endUse, closeWindow, Frame.close,
      Frame.note, Frame.start]
  unfold GivesBack
  rw [hsolve, htakes]
  rintro ⟨hsettled, -⟩
  have hgave := hsettled.gave (.browser (w.driver f))
  simp [Frame.start, Frame.note] at hgave

end Chrome

namespace Stealth

variable (w : World S B P G R) (req : Asked P) (timeout : ℚ)

/-- What is kept up to the `finally` block, the context too where it is the request's. -/
def Keeping (f : Frame S B) : Prop := f.Keeps f.ownCtx (takes w req timeout)

theorem contextFor_meets :
    Meets (fun f : Frame S B => f = .start) (contextFor w req timeout)
      (fun _ => Keeping w req timeout) (fun _ => Keeping w req timeout) := by
  unfold contextFor Keeping takes
  cases req.named with
  | some sessionId =>
    refine Meets.bind (Q := fun _ => _) ?_ fun _ => meets_pure fun _ hf => hf
    exact (takeSession_meets _ _ _ _ _).weaken (fun _ hf => hf) (fun _ _ hf => hf.1 ▸ hf.2)
      fun _ _ hf => hf.1 ▸ hf.2
  | none =>
    rintro f rfl
    unfold ownContext
    cases w.proxyToConfig req.proxy with
    | error e => exact Frame.keeps_start false
    | ok cfg =>
      simp only [answer_ok_bind, change_bind_apply]
      cases w.start (w.context cfg)
          (min (remainingShare w.started timeout w.starting) w.startTimeout) with
      | error e => exact Frame.keeps_launch (w.context cfg) true
      | ok u => exact Frame.keeps_launch (w.context cfg) true

/-- The `try` block keeps what it takes, until its end or its exception. -/
theorem attempt_meets :
    Meets (fun f : Frame S B => f = .start) (attempt w req timeout)
      (fun _ => Keeping w req timeout) (fun _ => Keeping w req timeout) :=
  (contextFor_meets w req timeout).bind fun _ =>
    meets_answer (fun _ _ _ hf => hf) fun _ _ _ hf => hf

/-- The `except` clauses say what failed. -/
theorem report_meets (e : Thrown) :
    Meets (Keeping w req timeout) (report w timeout e) (fun _ => Keeping w req timeout)
      (fun text f => Keeping w req timeout f ∧ errorSolving <+: text) := by
  cases e with
  | timedOut => exact meets_raise fun f hf => ⟨hf, errorSolving_prefix_timedOut _⟩
  | exception text => exact meets_raise fun f hf => ⟨hf, errorSolving_prefix_failed text⟩

/-- The `finally` block gives back what is kept. -/
theorem cleanup_settled {f : Frame S B} (h : Keeping w req timeout f) :
    Settled (takes w req timeout) (cleanup f).log := by
  refine Frame.Keeps.settled h ?_ (fun _ => rfl) fun _ => rfl
  rw [Frame.endUse_driver, Frame.release_driver]

/-- **The stealth engine gives everything back.** -/
theorem solve_givesBack : GivesBack (takes w req timeout) (solve w req timeout) :=
  givesBack_of_keeping (attempt_meets w req timeout) (report_meets w req timeout)
    fun _ hf => cleanup_settled w req timeout hf

/-- A context that a session was to get has been closed if it did not start. -/
def ClosesFailed (m : Procedure (Frame S B) Thrown B) (cfg : Except Thrown G) : Prop :=
  Ends (fun ctx f => f.log = [.took (.browser ctx)])
    (fun _ f => Settled ((cfg.toOption.map w.context).toList.map .browser) f.log) (m Frame.start)

omit [DecidableEq S] [DecidableEq B] in
theorem closeBounded_raise (ctx : B) (e : Thrown) (f : Frame S B) :
    ∃ e', (do closeBounded w ctx; raise e : Procedure (Frame S B) Thrown Unit) f =
      (.error e', f.note (.gave (.browser ctx))) := by
  unfold closeBounded
  rcases w.close ctx with (_ | text) | u
  · exact ⟨e, rfl⟩
  · exact ⟨.exception text, rfl⟩
  · exact ⟨e, rfl⟩

theorem startContext_closes (launchBudget : Option ℚ) (proxy : Option P) :
    ClosesFailed w (startContext w launchBudget proxy) (w.proxyToConfig proxy) := by
  unfold startContext ClosesFailed
  cases w.proxyToConfig proxy with
  | error e => exact ⟨fun _ => rfl, fun _ => rfl, List.nodup_nil⟩
  | ok cfg =>
    simp only [answer_ok_bind, change_bind_apply]
    generalize min ((launchBudget.filter (· ≠ 0)).getD w.startTimeout) w.startTimeout = allowed
    have hclosed : Settled [Resource.browser (S := S) (w.context cfg)]
        [.took (.browser (w.context cfg)), .gave (.browser (w.context cfg))] :=
      ⟨fun r => by simp [List.count_cons], fun r => by simp [List.count_cons], by simp⟩
    cases w.start (w.context cfg) allowed with
    | ok u => rfl
    | error e =>
      obtain ⟨e', he⟩ := closeBounded_raise w (w.context cfg) e
        (Frame.start.note (.took (.browser (w.context cfg))))
      simp only [handling_answer_error]
      rw [bind_of_error he]
      exact hclosed

end Stealth

/-- **What a solve took it gives back**, on both engines, whatever each step answers,
exactly when no launch of Chrome for the request alone loses its browser. -/
theorem solve_gives_back_iff {P G : Type} (chrome : Chrome.World S B P R)
    (stealth : Stealth.World S B P G R) (req : Asked P) (timeout : ℚ)
    (launchBudget : Option ℚ) (proxy : Option P) :
    (GivesBack (Chrome.takes chrome req timeout) (Chrome.solve chrome req timeout) ∧
      GivesBack (Stealth.takes stealth req timeout) (Stealth.solve stealth req timeout) ∧
      Stealth.ClosesFailed stealth (Stealth.startContext stealth launchBudget proxy)
        (stealth.proxyToConfig proxy)) ↔
    (req.named = none → ¬ Launch.Lost chrome.launch (chrome.proxyValue req.proxy)) := by
  constructor
  · rintro ⟨hchrome, -⟩ hnamed hlost
    exact Chrome.not_solve_givesBack chrome req timeout hnamed hlost hchrome
  · intro hlaunches
    exact ⟨Chrome.solve_givesBack chrome req timeout hlaunches, Stealth.solve_givesBack ..,
      Stealth.startContext_closes ..⟩

/-- An engine whose launch meets this, and whose solves take too long. -/
def Chrome.World.calm (launch : Launch.World) : Chrome.World Unit Unit Json R where
  started := 0
  waiting := 0
  opened := 0
  zoned := 0
  overflow := []
  shown _ := []
  get _ _ _ := .error (.exception [])
  acquire _ _ := .ok true
  launch := launch
  proxyValue proxy := proxy.getD .null
  driver _ := ()
  launchText _ := []
  applyTimezone _ _ := .ok ()
  evilLogic _ _ := .error .timedOut
  responseHeaders := false
  nt := false

/-- The first poll of the wait for the extension raises. -/
def Chrome.World.pollRaises : Chrome.World Unit Unit Json R :=
  .calm { Launch.calmWorld with polls := fun _ => .error .outside }

/-- A request without a session, on a proxy with credentials, leaves its browser running. -/
theorem lost_browser_not_given_back :
    ¬ GivesBack
      (Chrome.takes (.pollRaises : Chrome.World Unit Unit Json Unit)
        ⟨none, none, some Launch.paidProxy⟩ 60)
      (Chrome.solve (.pollRaises : Chrome.World Unit Unit Json Unit)
        ⟨none, none, some Launch.paidProxy⟩ 60) :=
  Chrome.not_solve_givesBack _ _ _ rfl (Launch.lost_of_runsOn (by decide +kernel))

end Solverr.Engines
