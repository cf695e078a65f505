import Solverr.Engines.Chrome

/-!
# What the clearing loop ends on

A pass of Chrome's clearing loop ends once each challenge title has been seen gone and
each challenge selector has been seen gone (`clearPass_ok`). On a page that stands still
during the pass, that is less than the verdict asks for: the loop compares titles
exactly and does not look for a page that refuses the request (`clearing_sound_iff`).
-/

namespace Solverr.Engines

open Solverr.Lib (Text CaseMap Along Cursor)

namespace Chrome

variable {set : Setting} {e : Evolution} {c d : Cursor}

/-! ## What a pass has seen -/

/-- A wait for something to go away ended when it was away. -/
theorem waitUntilNot_ok {goal : Browse Bool} {a : Unit}
    (h : (waitUntilNot set goal).run e c = (.ok a, d)) :
    ∃ m m', c ≤ m ∧ goal.run e m = (.ok false, m') ∧ m' ≤ d := by
  obtain ⟨gone, m, hwait, h⟩ := Along.bind_ok.mp h
  cases gone with
  | false => exact absurd h Along.raise_ne_ok
  | true =>
    obtain ⟨n, m₁, hstart, hpoll⟩ := Along.bind_ok.mp hwait
    obtain ⟨m₂, hle, hnot⟩ := Along.poll_true hpoll
    obtain ⟨there, m₃, hgoal, hpure⟩ := Along.bind_ok.mp hnot
    obtain ⟨htrue, rfl⟩ := Along.pure_ok.mp hpure
    have hthere : there = false := by simpa using htrue.symm
    exact ⟨m₂, m, (Along.forward_ok hstart).trans hle, hthere ▸ hgoal, Along.forward_ok h⟩

/-- At some moment from `c` on and before `d`, the page was as `P` says. -/
def Met (e : Evolution) (c d : Cursor) (P : Moment → Prop) : Prop :=
  ∃ k, c.moment ≤ k ∧ k < d.moment ∧ P (e k)

theorem Met.widen {c' d' : Cursor} {P : Moment → Prop} (h : Met e c d P) (hc : c' ≤ c)
    (hd : d ≤ d') : Met e c' d' P := by
  obtain ⟨k, hck, hkd, hP⟩ := h
  exact ⟨k, (Cursor.moment_le hc).trans hck, hkd.trans_le (Cursor.moment_le hd), hP⟩

theorem waitForTitles_ok : ∀ {titles : List Text} {c : Cursor} {a : Unit},
    (waitForTitles set titles).run e c = (.ok a, d) →
      ∀ title ∈ titles, Met e c d fun m => m.title ≠ title
  | [], _, _, _ => fun _ hmem => absurd hmem List.not_mem_nil
  | first :: titles, c, a, h => by
    obtain ⟨u, m, hfirst, hrest⟩ := Along.bind_ok.mp h
    have hd := Along.forward_ok hrest
    intro title hmem
    rcases List.mem_cons.mp hmem with rfl | hmem
    · obtain ⟨m₁, m₂, hle, hread, hle'⟩ := waitUntilNot_ok hfirst
      obtain ⟨⟨-, htitle⟩, rfl⟩ := Browse.read_ok.mp hread
      refine Met.widen ⟨m₁.moment, le_rfl, Nat.lt_succ_self _, ?_⟩ hle (hle'.trans hd)
      exact of_decide_eq_false htitle.symm
    · exact (waitForTitles_ok hrest title hmem).widen (Along.forward_ok hfirst) le_rfl

theorem waitForSelectors_ok : ∀ {selectors : List Selector} {c : Cursor} {a : Unit},
    (waitForSelectors set selectors).run e c = (.ok a, d) →
      ∀ selector ∈ selectors, Met e c d fun m => m.onPage selector = .ok false
  | [], _, _, _ => fun _ hmem => absurd hmem List.not_mem_nil
  | first :: selectors, c, a, h => by
    obtain ⟨u, m, hfirst, hrest⟩ := Along.bind_ok.mp h
    have hd := Along.forward_ok hrest
    intro selector hmem
    rcases List.mem_cons.mp hmem with rfl | hmem
    · obtain ⟨m₁, m₂, hle, hread, hle'⟩ := waitUntilNot_ok hfirst
      obtain ⟨hgone, rfl⟩ := Along.ask_ok.mp hread
      exact Met.widen ⟨m₁.moment, le_rfl, Nat.lt_succ_self _, hgone⟩ hle (hle'.trans hd)
    · exact (waitForSelectors_ok hrest selector hmem).widen (Along.forward_ok hfirst) le_rfl

/-- **A pass that ended has seen every title gone and every selector gone.** -/
theorem clearPass_ok {a : Unit} (h : (clearPass set).run e c = (.ok a, d)) :
    (∀ title ∈ challengeTitles, Met e c d fun m => m.title ≠ title) ∧
      ∀ selector ∈ challengeSelectors, Met e c d fun m => m.onPage selector = .ok false := by
  obtain ⟨u, m, htitles, hselectors⟩ := Along.bind_ok.mp h
  refine ⟨fun title hmem => ?_, fun selector hmem => ?_⟩
  · exact (waitForTitles_ok htitles title hmem).widen le_rfl (Along.forward_ok hselectors)
  · exact (waitForSelectors_ok hselectors selector hmem).widen (Along.forward_ok htitles) le_rfl

/-- The loop ends on a pass that ended. -/
theorem clear_ok : ∀ {fuel : ℕ} {c : Cursor} {pass : Pass},
    (clear set fuel).run e c = (.ok pass, d) → ∃ m m', m.moment = pass.start ∧
      m'.moment = pass.stop ∧ (clearPass set).run e m = (.ok (), m')
  | 0, _, _, h => absurd h Along.unfinished_ne_ok
  | fuel + 1, c, pass, h => by
    obtain ⟨start, m, hstart, h⟩ := Along.bind_ok.mp h
    obtain ⟨rfl, rfl⟩ := Along.moment_ok.mp hstart
    obtain ⟨ended, m', hpass, h⟩ := Along.bind_ok.mp h
    cases ended with
    | some a =>
      obtain ⟨stop, m'', hstop, h⟩ := Along.bind_ok.mp h
      obtain ⟨rfl, rfl⟩ := Along.moment_ok.mp hstop
      obtain ⟨rfl, rfl⟩ := Along.pure_ok.mp h
      rcases Along.attempt_ok.mp hpass with ⟨a', -, hrun⟩ | ⟨hnone, -⟩
      · exact ⟨_, _, rfl, rfl, hrun⟩
      · cases hnone
    | none =>
      obtain ⟨_, _, -, h⟩ := Along.bind_ok.mp h
      obtain ⟨_, _, -, h⟩ := Along.bind_ok.mp h
      exact clear_ok h

/-- Past a challenge, the loop has ended on a pass. -/
theorem facePage_pass {req : Request} {method : Method} {timeout started : ℚ}
    {pressed : Option Text} {pass : Pass}
    (h : (facePage set req method timeout).run e c = (.ok (started, pressed, some pass), d)) :
    ∃ m m', m.moment = pass.start ∧ m'.moment = pass.stop ∧
      (clearPass set).run e m = (.ok (), m') := by
  obtain ⟨started', m₁, -, h⟩ := Along.bind_ok.mp h
  obtain ⟨pressed', m₂, -, h⟩ := Along.bind_ok.mp h
  obtain ⟨_, m₃, -, h⟩ := Along.bind_ok.mp h
  obtain ⟨found, m₄, -, h⟩ := Along.bind_ok.mp h
  obtain ⟨last, m₅, hclear, h⟩ := Along.bind_ok.mp h
  obtain ⟨hresult, rfl⟩ := Along.pure_ok.mp h
  obtain rfl : some pass = last := congrArg (·.2.2) hresult
  unfold clearChallenge at hclear
  split at hclear
  next =>
    obtain ⟨pass', m₆, hclear, hpure⟩ := Along.bind_ok.mp hclear
    obtain ⟨hpass, rfl⟩ := Along.pure_ok.mp hpure
    cases hpass
    exact clear_ok hclear
  next => cases (Along.pure_ok.mp hclear).1

/-! ## The page the loop ends on -/

/-- The page refuses the request. -/
def Refuses (title : Text) (present : Selector → Bool) : Prop :=
  (deniedTitle title).isSome ∨ ∃ selector ∈ accessDeniedSelectors, present selector = true

/-- The title is one of a challenge, but for its letter case. -/
def Respelled (u : CaseMap) (title : Text) : Prop :=
  isChallengeTitle u title = true ∧ title ∉ challengeTitles

/-- **What the clearing loop ends on.** Where the page stands still during the pass on which
the loop ends, the verdict on it is clear if and only if it does not refuse the request
and its title is not a challenge's in another letter case. -/
theorem clearing_sound_iff {req : Request} {method : Method} {timeout started : ℚ}
    {pressed : Option Text} {pass : Pass} {title : Text} {present : Selector → Bool}
    (hrun : (facePage set req method timeout).run e .start =
      (.ok (started, pressed, some pass), d))
    (hstill : ∀ k, pass.start ≤ k → k < pass.stop → (e k).title = title ∧ (e k).present = present) :
    (verdictOn set.case false title present).verdict = .none ↔
      ¬Refuses title present ∧ ¬Respelled set.case title := by
  obtain ⟨m, m', hstart, hstop, hpass⟩ := facePage_pass hrun
  obtain ⟨htitles, hselectors⟩ := clearPass_ok hpass
  rw [← hstart, ← hstop] at hstill
  -- on a page that stands still, what was seen gone is gone
  have htitle : title ∉ challengeTitles := fun hmem => by
    obtain ⟨k, hle, hlt, hne⟩ := htitles title hmem
    exact hne (hstill k hle hlt).1
  have hgone : ∀ selector ∈ challengeSelectors, present selector = false := fun selector hmem => by
    obtain ⟨k, hle, hlt, habsent⟩ := hselectors selector hmem
    have hplain : selector ∉ turnstileSelectors := by
      have hdisjoint : ∀ s ∈ challengeSelectors, s ∉ turnstileSelectors := by decide
      exact hdisjoint selector hmem
    rw [Moment.onPage, if_neg hplain, Moment.answer] at habsent
    split at habsent
    next => cases habsent
    next => exact (hstill k hle hlt).2 ▸ (Except.ok.injEq .. ▸ habsent)
  rw [verdictOn_none]
  unfold Refuses Respelled
  simp only [not_or, not_and, not_exists, Bool.not_eq_true, Option.isSome_eq_false_iff,
    Option.isNone_iff_eq_none]
  constructor
  · rintro ⟨hdenied, hselectors, hchallenge, -⟩
    exact ⟨⟨hdenied, hselectors⟩, fun h => by rw [hchallenge] at h; cases h⟩
  · rintro ⟨⟨hdenied, hselectors⟩, hspelled⟩
    refine ⟨hdenied, hselectors, ?_, hgone⟩
    rw [Bool.eq_false_iff]
    exact fun h => hspelled h htitle

/-- A challenge that is there at the first look and gone right after it. -/
def briefChallenge (after : Text) : Evolution :=
  fun k => .plain (if k < 6 then "Just a moment...".toList else after)

/-- A challenge that gives way to the page is answered with that page. -/
theorem clearing_sound_iff_home :
    (verdictOn Setting.plain.case false "Home".toList fun _ => false).verdict = .none ↔
      ¬Refuses "Home".toList (fun _ => false) ∧ ¬Respelled Setting.plain.case "Home".toList := by
  have hrun : (facePage .plain .plain .get 60).run (briefChallenge "Home".toList) .start =
      (.ok (0, none, some ⟨9, 24⟩), ⟨24, 5⟩) := by rfl
  have hstill : ∀ k, 9 ≤ k → k < 24 → (briefChallenge "Home".toList k).title = "Home".toList ∧
      (briefChallenge "Home".toList k).present = fun _ => false := by
    intro k hle _
    have hlater : ¬k < 6 := by omega
    simp [briefChallenge, Moment.plain, hlater]
  exact clearing_sound_iff hrun hstill

/-- A challenge whose title is in capitals ends the loop at once, unsolved. -/
theorem respelled_challenge_solved : ¬∀ (set : Setting) (req : Request) (method : Method)
    (timeout started : ℚ) (e : Evolution) (d : Cursor) (pressed : Option Text) (pass : Pass)
    (title : Text) (present : Selector → Bool),
    (facePage set req method timeout).run e .start = (.ok (started, pressed, some pass), d) →
    (∀ k, pass.start ≤ k → k < pass.stop → (e k).title = title ∧ (e k).present = present) →
    (verdictOn set.case false title present).verdict = .none := by
  intro h
  have hrun : (facePage .plain .plain .get 60).run (fun _ => .plain "JUST A MOMENT...".toList)
      .start = (.ok (0, none, some ⟨9, 24⟩), ⟨24, 5⟩) := by rfl
  have hclear := h .plain .plain .get 60 0 _ _ none ⟨9, 24⟩ _ _ hrun fun _ _ _ => ⟨rfl, rfl⟩
  exact absurd hclear (by decide)

end Chrome

end Solverr.Engines
