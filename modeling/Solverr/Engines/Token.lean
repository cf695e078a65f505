import Solverr.Engines.Press
import Solverr.Engines.Stealth

/-!
# The Turnstile token of a response

Both engines report `turnstile_token`. Each decides whether to read it from something
it saw earlier: Chrome from whether it pressed, the stealth engine from whether its first
detection was decided by a widget. `token_reported_iff` says exactly when a token that the
page holds from the last detection on is the one reported.
-/

namespace Solverr.Engines

open Solverr.Lib (Text CaseMap Along Asking Cursor Stop)

variable {set : Setting} {e : Evolution} {c d : Cursor}

/-! ## Chrome -/

namespace Chrome

theorem awaitRedirect_unmarked {pass : Option Pass} : (awaitRedirect set pass).Unmarked := by
  unfold awaitRedirect
  split
  · exact .idle
  · exact .pure

theorem reads_unmarked {token : Option Text} : ∀ read, (reads token read).Unmarked
  | .url | .userAgent | .headers | .body | .screenshot | .cookies => .ask
  | .token | .wait => .pure

theorem turnstileTokenValue_unmarked : turnstileTokenValue.Unmarked :=
  .bind (.attempt .ask) fun o => by split <;> exact .pure

theorem awaitPolls_unmarked {deadline : ℚ} : ∀ polls, (awaitPolls deadline polls).Unmarked
  | 0 => turnstileTokenValue_unmarked
  | polls + 1 => .bind turnstileTokenValue_unmarked fun token => by
    split
    · exact .pure
    · refine .bind .ask fun now => ?_
      split
      · exact .pure
      · exact awaitPolls_unmarked polls

theorem lastToken_unmarked {req : Request} {method : Method} {pressed : Option Text}
    {deadline : ℚ} : (lastToken req method pressed deadline).Unmarked := by
  unfold lastToken
  split
  · exact .pure
  · refine .bind .ask fun widget => ?_
    split
    · exact awaitPolls_unmarked _
    · exact .pure

/-- The presses before the page is looked at yield the token. -/
def Pressed (set : Setting) (req : Request) (timeout : ℚ) (e : Evolution) (v : Text) : Prop :=
  ∃ started c d, (arrive req).run e .start = (.ok started, c) ∧
    (hasTurnstileWidget set).run e c = (.ok true, d) ∧
    PressYields e (solveDeadline started timeout) (e d.moment).held v (d.moment + 1) 0

theorem pressFirst_iff {req : Request} {method : Method} {timeout started : ℚ}
    {pressed : Option Text} {v : Text} (hpresses : presses req method = true)
    (harrive : (arrive req).run e .start = (.ok started, c))
    (h : (pressFirst set req method (solveDeadline started timeout)).run e c = (.ok pressed, d)) :
    pressed = some v ↔ Pressed set req timeout e v := by
  unfold pressFirst at h
  rw [if_pos hpresses] at h
  obtain ⟨widget, m, hwidget, h⟩ := Along.bind_ok.mp h
  cases widget with
  | false =>
    obtain ⟨rfl, rfl⟩ := Along.pure_ok.mp h
    refine iff_of_false (fun hnone => by cases hnone) ?_
    rintro ⟨started', c', d', harrive', hwidget', -⟩
    rw [harrive] at harrive'
    cases harrive'
    rw [hwidget] at hwidget'
    cases hwidget'
  | true =>
    obtain ⟨current, m', hcurrent, h⟩ := Along.bind_ok.mp h
    obtain ⟨rfl, rfl⟩ := turnstileTokenValue_ok hcurrent
    rw [pressUntil_iff h]
    constructor
    · exact fun hyields => ⟨started, c, m, harrive, hwidget, hyields⟩
    · rintro ⟨started', c', d', harrive', hwidget', hyields⟩
      rw [harrive] at harrive'
      cases harrive'
      rw [hwidget] at hwidget'
      cases hwidget'
      exact hyields

/-- **The token of a Chrome response**: without pressing it is the one the page holds, and
with pressing the one the presses before the first look yielded. -/
theorem evilLogic_token {req : Request} {method : Method} {timeout : ℚ} {r : SolveResult}
    {v : Text} (hne : v ≠ [])
    (hrun : (evilLogic set req method timeout).run e .start = (.ok r, d))
    (hholds : Holds e v d.mark d.moment) : r.turnstileToken = some v ↔
      (presses req method = true → Pressed set req timeout e v) := by
  obtain ⟨⟨started, pressed, pass⟩, m₁, hface, h⟩ := Along.bind_ok.mp hrun
  obtain ⟨_, m₂, hredirect, h⟩ := Along.bind_ok.mp h
  obtain ⟨token, m₃, htoken, h⟩ := Along.bind_ok.mp h
  obtain ⟨_, _, -, hread, -⟩ := assembly_token h
  obtain ⟨hresult, -⟩ := Along.pure_ok.mp hread
  rw [hresult]
  by_cases hpresses : presses req method = true
  · unfold lastToken at htoken
    rw [if_pos hpresses] at htoken
    obtain ⟨rfl, rfl⟩ := Along.pure_ok.mp htoken
    obtain ⟨started', c₁, harrive, hface⟩ := Along.bind_ok.mp hface
    obtain ⟨pressed', c₂, hpress, hface⟩ := Along.bind_ok.mp hface
    obtain ⟨_, c₃, -, hface⟩ := Along.bind_ok.mp hface
    obtain ⟨_, c₄, -, hface⟩ := Along.bind_ok.mp hface
    obtain ⟨_, c₅, -, hface⟩ := Along.bind_ok.mp hface
    obtain ⟨heq, -⟩ := Along.pure_ok.mp hface
    cases heq
    rw [pressFirst_iff hpresses harrive hpress]
    exact ⟨fun hpressed _ => hpressed, fun hpressed => hpressed hpresses⟩
  · refine iff_of_true ?_ fun hyes => absurd hyes hpresses
    -- nothing after the detection looks again, so its mark is the last one
    have hmark : d.mark = m₁.mark := by
      rw [(Along.Unmarked.driven reads_unmarked _).mark_eq h, lastToken_unmarked.mark_eq htoken,
        awaitRedirect_unmarked.mark_eq hredirect]
    have hlooked : m₁.mark ≤ m₁.moment :=
      Cursor.mark_le (Along.forward_ok hface) (Nat.le_refl 0)
    have hfrom : d.mark ≤ m₂.moment :=
      hmark ▸ hlooked.trans (Cursor.moment_le (Along.forward_ok hredirect))
    have hto : m₃.moment ≤ d.moment := Cursor.moment_le (Along.forward_ok h)
    unfold lastToken at htoken
    rw [if_neg hpresses] at htoken
    refine awaitTurnstileToken_held hne (fun k hstart hstop => ?_) htoken
    exact hholds k (hfrom.trans hstart) (hstop.trans_le hto)

end Chrome

/-! ## The stealth engine -/

namespace Stealth

variable {u : CaseMap}

/-- What a sweep of selectors has seen when it found none. -/
theorem firstPresent_ok : ∀ {selectors : List Selector} {c : Cursor} {found : Option Selector},
    ((firstPresent selectors).run looks).run e c = (.ok found, d) →
      d.mark = c.mark ∧ (found = none → ∀ selector ∈ selectors,
        ∃ k, c.moment ≤ k ∧ k < d.moment ∧ (e k).onPage selector = .ok false)
  | [], c, found, h => by
    obtain ⟨-, rfl⟩ := Along.pure_ok.mp h
    exact ⟨rfl, fun _ _ hmem => absurd hmem List.not_mem_nil⟩
  | first :: selectors, c, found, h => by
    obtain ⟨present, m, hfirst, h⟩ := Along.driven_bind_ok.mp h
    obtain ⟨hanswer, rfl⟩ := Along.ask_ok.mp (Along.driven_put_ok hfirst)
    cases present with
    | true =>
      obtain ⟨rfl, rfl⟩ := Along.pure_ok.mp h
      exact ⟨rfl, fun hnone => by cases hnone⟩
    | false =>
      obtain ⟨hmark, hrest⟩ := firstPresent_ok h
      have hd := Cursor.moment_le (Along.forward_ok h)
      refine ⟨hmark, fun hnone selector hmem => ?_⟩
      rcases List.mem_cons.mp hmem with rfl | hmem
      · exact ⟨c.moment, le_rfl, hd, hanswer⟩
      · obtain ⟨k, hle, hlt, hk⟩ := hrest hnone selector hmem
        exact ⟨k, (Nat.le_succ _).trans hle, hlt, hk⟩

/-- **A clear verdict has seen the page without a token input**, since its first look. -/
theorem verdict_clear {found : Found} (hnone : found.verdict = .none)
    (h : ((verdict u true).run looks).run e c = (.ok found, d)) :
    ∃ k, d.mark ≤ k ∧ k < d.moment ∧ (e k).widget = .ok none := by
  obtain ⟨title, m₁, htitle, h⟩ := Along.driven_bind_ok.mp h
  obtain ⟨-, rfl⟩ := Browse.lookAtTitle_ok (Along.driven_put_ok htitle)
  split at h
  next =>
    obtain ⟨rfl, rfl⟩ := Along.pure_ok.mp h
    cases hnone
  next =>
    obtain ⟨denied, m₂, hdenied, h⟩ := Along.driven_bind_ok.mp h
    cases denied with
    | some selector =>
      obtain ⟨rfl, rfl⟩ := Along.pure_ok.mp h
      cases hnone
    | none =>
      obtain ⟨widget, m₃, hwidget, h⟩ := Along.driven_bind_ok.mp h
      cases widget with
      | some selector =>
        obtain ⟨rfl, rfl⟩ := Along.pure_ok.mp h
        cases hnone
      | none =>
        -- the sweep for the token input, and after it nothing looks at the title
        obtain ⟨hdeniedMark, -⟩ := firstPresent_ok hdenied
        obtain ⟨hwidgetMark, habsent⟩ := firstPresent_ok hwidget
        obtain ⟨k, hstart, hstop, hk⟩ := habsent rfl _ (List.mem_singleton_self _)
        have hmark : d.mark = m₃.mark := by
          by_cases hchallenge : isChallengeTitle u title = true
          · rw [if_pos hchallenge] at h
            rw [(Along.pure_ok.mp h).2]
          · rw [if_neg hchallenge] at h
            obtain ⟨markup, m₄, hmarkup, h⟩ := Along.driven_bind_ok.mp h
            have hlast : d = m₄ := by
              cases markup <;> exact (Along.pure_ok.mp h).2
            exact hlast ▸ (firstPresent_ok hmarkup).1
        refine ⟨k, ?_, hstop.trans_le (Cursor.moment_le (Along.forward_ok h)), ?_⟩
        · rw [hmark, hwidgetMark, hdeniedMark]
          have hdone := Cursor.moment_le (Along.forward_ok hdenied)
          exact (Nat.le_succ _).trans (hdone.trans hstart)
        · unfold Moment.onPage at hk
          rw [if_pos (by decide)] at hk
          cases hvalue : (e k).widget with
          | error fault => simp [hvalue, Except.map] at hk
          | ok value => cases value <;> simp [hvalue, Except.map] at hk ⊢

theorem settledVerdict_clear {found : Found} (hnone : found.verdict = .none)
    (h : ((settledVerdict u true).run looks).run e c = (.ok found, d)) :
    ∃ k, d.mark ≤ k ∧ k < d.moment ∧ (e k).widget = .ok none := by
  obtain ⟨first, m, hfirst, h⟩ := Along.driven_bind_ok.mp h
  split at h
  next =>
    obtain ⟨_, m', -, hsecond⟩ := Along.driven_bind_ok.mp h
    exact verdict_clear hnone hsecond
  next hclear =>
    obtain ⟨rfl, rfl⟩ := Along.pure_ok.mp h
    exact absurd hnone hclear

/-- A read past a navigation is one of its two tries. -/
theorem pastNavigation_ok {α : Type} {look : Browse α} {a : α}
    (h : (pastNavigation look).run e c = (.ok a, d)) : ∃ m, c ≤ m ∧ look.run e m = (.ok a, d) := by
  obtain ⟨first, m, hfirst, h⟩ := Along.bind_ok.mp h
  cases first with
  | some answer =>
    obtain ⟨rfl, rfl⟩ := Along.pure_ok.mp h
    rcases Along.attempt_ok.mp hfirst with ⟨a', heq, hrun⟩ | ⟨hnone, -⟩
    · cases heq
      exact ⟨c, le_rfl, hrun⟩
    · cases hnone
  | none => exact ⟨m, Along.forward_ok hfirst, h⟩

/-- **A detection that finds nothing has seen the page without a token input**, since its
last look began. -/
theorem detectSettled_clear {isTurnstile : Bool}
    (h : (detectSettled (settledVerdict u true)).run e c = (.ok (.none, isTurnstile), d)) :
    ∃ k, d.mark ≤ k ∧ k < d.moment ∧ (e k).widget = .ok none := by
  obtain ⟨m, -, hdetect⟩ := pastNavigation_ok h
  obtain ⟨found, m', hkernel, h⟩ := Along.bind_ok.mp hdetect
  obtain ⟨heq, rfl⟩ := Along.pure_ok.mp h
  exact settledVerdict_clear (congrArg Prod.fst heq).symm hkernel

/-! ### Reading the token -/

theorem readToken_held {v : Text} (hne : v ≠ [])
    (hholds : Holds e v c.moment (readToken.run e c).2.moment) :
    (readToken.run e c).1 = .ok (some v) := by
  have hcount : c.next ≤ (readToken.run e c).2 :=
    Along.forward_bind (Along.ask fun m : Moment => m.widget.map Option.isSome) _
  have hpresent : (e c.moment).widget.map Option.isSome = .ok true := by
    rw [hholds c.moment le_rfl (Cursor.moment_le hcount)]
    rfl
  have hrun : readToken.run e c = readValue.run e c.next := by
    unfold readToken
    exact Along.ask_bind_run (a := true) hpresent
  rw [hrun] at hholds ⊢
  have hread : c.next.next ≤ (readValue.run e c.next).2 :=
    Along.forward_bind (Along.ask inputValue) _
  have hvalue : inputValue (e c.next.moment) = .ok v := by
    unfold inputValue
    rw [hholds c.next.moment (Nat.le_succ _) (Cursor.moment_le hread)]
  have hrun' : readValue.run e c.next = (.ok (if v = [] then none else some v), c.next.next) := by
    unfold readValue
    exact Along.ask_bind_run hvalue
  rw [hrun', if_neg hne]

theorem turnstileToken_held {token : Option Text} {v : Text} (hne : v ≠ [])
    (hholds : Holds e v c.moment d.moment)
    (h : turnstileToken.run e c = (.ok token, d)) : token = some v := by
  obtain ⟨read, m, hread, h⟩ := Along.bind_ok.mp h
  obtain ⟨rfl, rfl⟩ := Along.pure_ok.mp h
  have hheld : Holds e v c.moment (readToken.run e c).2.moment →
      (readToken.run e c).1 = .ok (some v) := readToken_held hne
  rcases Along.attempt_ok.mp hread with ⟨token, rfl, hrun⟩ | ⟨rfl, fault, -, hrun⟩
  · rw [hrun] at hheld
    exact Except.ok.inj (hheld hholds)
  · rw [hrun] at hheld
    cases hheld hholds

/-! ### The response -/

theorem reads_unmarked {isTurnstile : Bool} : ∀ read, (reads isTurnstile read).Unmarked
  | .url | .userAgent | .headers | .body | .screenshot | .cookies => .ask
  | .wait => .pure
  | .token => by
    cases isTurnstile with
    | false => exact .pure
    | true =>
      refine .bind (.attempt (.bind .ask fun count => ?_)) fun _ => .pure
      split
      · exact .bind .ask fun _ => .pure
      · exact .pure

/-- The challenge that came first, at the first detection, has no widget of its own. -/
def InterstitialFirst (set : Setting) (req : Request) (method : Method) (e : Evolution) : Prop :=
  ∃ started c d, (arrive set req method).run e .start = (.ok started, c) ∧
    (detectSettled (settledVerdict set.case true)).run e c = (.ok (.challenge, false), d)

/-- **The token of a stealth response** is the one the page holds unless the challenge that
came first has no widget. -/
theorem navigateAndSolve_token {req : Request} {method : Method} {timeout : ℚ} {r : SolveResult}
    {v : Text} (hne : v ≠ [])
    (hrun : (navigateAndSolve set req method timeout).run e .start = (.ok r, d))
    (hholds : Holds e v d.mark d.moment) :
    r.turnstileToken = some v ↔ ¬InterstitialFirst set req method e := by
  obtain ⟨started, m₁, harrive, h⟩ := Along.bind_ok.mp hrun
  obtain ⟨⟨kind, isTurnstile⟩, m₂, hdetect, h⟩ := Along.bind_ok.mp h
  obtain ⟨solved, m₃, hface, h⟩ := Along.bind_ok.mp h
  have hfirst : InterstitialFirst set req method e ↔ kind = .challenge ∧ isTurnstile = false := by
    constructor
    · rintro ⟨started', c', d', harrive', hdetect'⟩
      rw [harrive] at harrive'
      cases harrive'
      rw [hdetect] at hdetect'
      cases hdetect'
      exact ⟨rfl, rfl⟩
    · rintro ⟨rfl, rfl⟩
      exact ⟨started, m₁, m₂, harrive, hdetect⟩
  -- assembling looks no more, so the mark is the one after the challenge
  have hmark : d.mark = m₃.mark := (Along.Unmarked.driven reads_unmarked _).mark_eq h
  have hlooked : m₃.mark ≤ m₃.moment := by
    have hle := (Along.forward_ok harrive).trans
      ((Along.forward_ok hdetect).trans (Along.forward_ok hface))
    exact Cursor.mark_le hle (Nat.le_refl 0)
  obtain ⟨m₄, m₅, hfrom, hread, hto⟩ := assembly_token h
  rw [hfirst]
  cases isTurnstile with
  | true =>
    refine iff_of_true (turnstileToken_held hne (fun k hstart hstop => ?_) hread) (by simp)
    refine hholds k ?_ (hstop.trans_le (Cursor.moment_le hto))
    exact (hmark ▸ hlooked).trans ((Cursor.moment_le hfrom).trans hstart)
  | false =>
    obtain ⟨hnone, -⟩ := Along.pure_ok.mp hread
    refine iff_of_false (fun hsome => by cases hnone.symm.trans hsome) ?_
    rw [not_not]
    refine ⟨?_, rfl⟩
    cases kind with
    | denied => exact absurd hface Browse.raise_ne_ok
    | challenge => rfl
    | none =>
      -- what finds nothing looks for the token input, and misses it
      obtain ⟨-, rfl⟩ := Along.pure_ok.mp hface
      obtain ⟨k, hstart, hstop, habsent⟩ := detectSettled_clear hdetect
      have hwidget := hholds k (hmark ▸ hstart)
        (hstop.trans_le (Cursor.moment_le (Along.forward_ok h)))
      rw [habsent] at hwidget
      cases hwidget

end Stealth

/-! ## Both engines -/

/-- The engines. -/
inductive Engine
  | chrome
  | stealth

/-- A solve on an engine. -/
def solve (set : Setting) (req : Request) (method : Method) (timeout : ℚ) :
    Engine → Browse SolveResult
  | .chrome => Chrome.evilLogic set req method timeout
  | .stealth => Stealth.navigateAndSolve set req method timeout

/-- Chrome did not press, or its presses yielded this token before its first look; the
stealth engine met no challenge without a widget first. -/
def ReadsToken (set : Setting) (req : Request) (method : Method) (timeout : ℚ) (e : Evolution)
    (v : Text) : Engine → Prop
  | .chrome => Chrome.presses req method = true → Chrome.Pressed set req timeout e v
  | .stealth => ¬Stealth.InterstitialFirst set req method e

/-- **Which token is reported.** Where the page holds a token from the start of the last
detection look until the response is assembled, the response carries it if and only if
the engine reads it. -/
theorem token_reported_iff {engine : Engine} {req : Request} {method : Method} {timeout : ℚ}
    {r : SolveResult} {v : Text} (hne : v ≠ [])
    (hrun : (solve set req method timeout engine).run e .start = (.ok r, d))
    (hholds : Holds e v d.mark d.moment) :
    r.turnstileToken = some v ↔ ReadsToken set req method timeout e v engine := by
  cases engine with
  | chrome => exact Chrome.evilLogic_token hne hrun hholds
  | stealth => exact Stealth.navigateAndSolve_token hne hrun hholds

/-! ### Runs -/

/-- A page that holds a token, at some time. -/
def Moment.holding (token : Text) (now : ℚ) : Moment :=
  { Moment.plain "Home".toList with widget := .ok (some token), now := now }

/-- The token of a run that answered, and where the run ended. -/
def tokenOf : Except (Stop Fault) SolveResult × Cursor → Option (Option Text × Cursor)
  | (.ok r, d) => some (r.turnstileToken, d)
  | (.error _, _) => none

theorem tokenOf_some {run : Except (Stop Fault) SolveResult × Cursor} {token : Option Text}
    (h : tokenOf run = some (token, d)) : ∃ r, run = (.ok r, d) ∧ r.turnstileToken = token := by
  rcases run with ⟨_ | r, d'⟩
  · cases h
  · cases h
    exact ⟨r, rfl, rfl⟩

/-- A page that has held a token from the start. -/
def filledPage : Evolution := fun k => .holding "token".toList (8 * k)

/-- A challenge without a widget, and then the page with its token. -/
def widgetBehind : Evolution := fun k =>
  if k < 6 then .plain "Just a moment...".toList else .holding "token".toList 0

/-- A widget that gets its token when it is pressed. -/
def pressedPage : Evolution := fun k =>
  if k < 10 then { Moment.plain "Home".toList with widget := .ok (some []) }
  else .holding "token".toList 0

/-- Without pressing, both engines report the token of a page that holds one; and Chrome the
one that it pressed for. -/
theorem token_reported_iff_filled :
    (∃ r d, (solve .plain .plain .get 60 .chrome).run filledPage .start = (.ok r, d) ∧
      (r.turnstileToken = some "token".toList ↔
        ReadsToken .plain .plain .get 60 filledPage "token".toList .chrome)) ∧
    (∃ r d, (solve .plain .plain .get 60 .stealth).run filledPage .start = (.ok r, d) ∧
      (r.turnstileToken = some "token".toList ↔
        ReadsToken .plain .plain .get 60 filledPage "token".toList .stealth)) ∧
    ∃ r d, (solve .plain { Request.plain with tabsTillVerify := some 1 } .get 60 .chrome).run
        pressedPage .start = (.ok r, d) ∧
      (r.turnstileToken = some "token".toList ↔
        ReadsToken .plain { Request.plain with tabsTillVerify := some 1 } .get 60 pressedPage
          "token".toList .chrome) := by
  have hholds : ∀ start stop, Holds filledPage "token".toList start stop := fun _ _ _ _ _ => rfl
  refine ⟨?_, ?_, ?_⟩
  · obtain ⟨r, hrun, -⟩ := tokenOf_some (by decide +kernel :
      tokenOf ((solve .plain .plain .get 60 .chrome).run filledPage .start) =
        some (some "token".toList, ⟨46, 22⟩))
    exact ⟨r, _, hrun, token_reported_iff (by decide) hrun (hholds _ _)⟩
  · obtain ⟨r, hrun, -⟩ := tokenOf_some (by decide +kernel :
      tokenOf ((solve .plain .plain .get 60 .stealth).run filledPage .start) =
        some (some "token".toList, ⟨26, 6⟩))
    exact ⟨r, _, hrun, token_reported_iff (by decide) hrun (hholds _ _)⟩
  · obtain ⟨r, hrun, -⟩ := tokenOf_some (by decide +kernel :
      tokenOf ((solve .plain { Request.plain with tabsTillVerify := some 1 } .get 60 .chrome).run
        pressedPage .start) = some (some "token".toList, ⟨151, 129⟩))
    have hpressed : Holds pressedPage "token".toList 129 151 := by
      intro k hstart _
      have hlater : ¬k < 10 := by omega
      simp [pressedPage, Moment.holding, hlater]
    exact ⟨r, _, hrun, token_reported_iff (by decide) hrun hpressed⟩

/-- A token that the page holds from the last look on is reported by an engine. -/
def Reports (engine : Engine) : Prop :=
  ∀ (set : Setting) (req : Request) (method : Method) (timeout : ℚ) (e : Evolution)
    (r : SolveResult) (v : Text) (d : Cursor), v ≠ [] →
    (solve set req method timeout engine).run e .start = (.ok r, d) →
    Holds e v d.mark d.moment → r.turnstileToken = some v

/-- Chrome drops a token that was there before it pressed, and the stealth engine one
whose widget came after a challenge without one. -/
theorem held_token_dropped : ¬Reports .chrome ∧ ¬Reports .stealth := by
  constructor
  · intro h
    obtain ⟨r, hrun, hnone⟩ := tokenOf_some (by decide +kernel :
      tokenOf ((solve .plain { Request.plain with tabsTillVerify := some 1 } .get 60 .chrome).run
        filledPage .start) = some (none, ⟨55, 33⟩))
    have htoken := h _ _ _ _ _ r "token".toList _ (by decide) hrun fun _ _ _ => rfl
    cases hnone.symm.trans htoken
  · intro h
    obtain ⟨r, hrun, hnone⟩ := tokenOf_some (by decide +kernel :
      tokenOf ((solve .plain .plain .get 60 .stealth).run widgetBehind .start) =
        some (none, ⟨27, 6⟩))
    have hholds : Holds widgetBehind "token".toList 6 27 := by
      intro k hstart _
      have hlater : ¬k < 6 := by omega
      simp [widgetBehind, Moment.holding, hlater]
    have htoken := h _ _ _ _ _ r "token".toList _ (by decide) hrun hholds
    cases hnone.symm.trans htoken

end Solverr.Engines
