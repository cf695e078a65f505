import Solverr.Controller.Fallback

/-!
# What the caller of a fallback plan gets

The trials decide the answer. `Tries.ends` reads a run off them: either the last
one is clean and the others are not, or none is and what is left to answer with
is what the trials leave in `Carried`. There the newest page wins over the newest
error (`foldl_after_lastResult`), so a plan that had an answer keeps one when
engines are added behind it (`Tries.extended`).
-/

namespace Solverr.Controller

open Solverr.Lib (Text CaseMap)
open Solverr.Engines (SolveResult)

variable {u : CaseMap} {deadline : ℚ} {i : ℕ} {order : List Engine} {now : ℚ} {c : Carried}
  {ended : Ended} {trials : List Trial}

/-- The page of the latest trial that returned one. -/
def latestPage (trials : List Trial) : Option SolveResult :=
  trials.reverse.findSome? Trial.page

/-- The `k`-th trial is the call of the plan's `k`-th engine. -/
def InPlanOrder (order : List Engine) (trials : List Trial) : Prop :=
  ∀ (k : ℕ) (t : Trial), trials[k]? = some t →
    ∃ engine, order[k]? = some engine ∧ t = engine.trial t.share

/-- Two runs whose engines did the same, wherever both tried one. -/
def SameAttempts (trials trials' : List Trial) : Prop :=
  ∀ (k : ℕ) (t t' : Trial), trials[k]? = some t → trials'[k]? = some t' → t.attempt = t'.attempt

theorem Tries.inPlanOrder (h : Tries u deadline i order now c ended trials) :
    InPlanOrder order trials := by
  induction h with
  | exhausted | spent => exact fun k t ht => by simp at ht
  | clean _ made =>
    intro k t ht
    cases k with
    | zero =>
      obtain rfl := Option.some.inj ht
      exact ⟨_, rfl, by rw [made]; rfl⟩
    | succ k => simp at ht
  | failed _ made _ _ ih =>
    intro k t ht
    cases k with
    | zero =>
      obtain rfl := Option.some.inj ht
      exact ⟨_, rfl, by rw [made]; rfl⟩
    | succ k => exact ih k t ht

/-- How a run ends, read off its trials. -/
theorem Tries.ends (h : Tries u deadline i order now c ended trials) :
    (∃ before t result, trials = before ++ [t] ∧ (∀ s ∈ before, s.clean u = false) ∧
      t.clean u = true ∧ t.page = some result ∧ ended = .solved t.engine result) ∨
    ((∀ t ∈ trials, t.clean u = false) ∧ ended = afterLoop (trials.foldl Carried.after c)) := by
  induction h with
  | exhausted | spent => exact Or.inr ⟨List.forall_mem_nil _, rfl⟩
  | clean _ made clean page =>
    refine Or.inl ⟨[], _, _, rfl, List.forall_mem_nil _, clean, page, ?_⟩
    rw [made]
    rfl
  | @failed _ _ _ _ _ t _ _ _ _ unclean _ ih =>
    rcases ih with ⟨before, s, result, rfl, hbefore, hs⟩ | ⟨hall, hended⟩
    · refine Or.inl ⟨t :: before, s, result, rfl, ?_, hs⟩
      exact List.forall_mem_cons.mpr ⟨unclean, hbefore⟩
    · exact Or.inr ⟨List.forall_mem_cons.mpr ⟨unclean, hall⟩, hended⟩

/-! ## What is carried -/

theorem Carried.after_lastResult (c : Carried) (t : Trial) :
    (c.after t).lastResult = t.page.or c.lastResult := by
  unfold Carried.after Trial.page
  cases t.attempt.outcome <;> rfl

/-- Of the pages the trials returned, the latest is carried. -/
theorem foldl_after_lastResult (trials : List Trial) : ∀ c : Carried,
    (trials.foldl Carried.after c).lastResult = (latestPage trials).or c.lastResult := by
  induction trials with
  | nil => exact fun _ => rfl
  | cons t trials ih =>
    intro c
    have hlatest : latestPage (t :: trials) = (latestPage trials).or t.page := by
      simp [latestPage, List.findSome?_append]
    rw [List.foldl_cons, ih, Carried.after_lastResult, hlatest, Option.or_assoc]

/-- A trial that raised leaves its error. -/
theorem Carried.after_lastError {t : Trial} {e : Text} (c : Carried)
    (ht : t.attempt.outcome = .error e) : (c.after t).lastError = some e := by
  simp only [Carried.after, ht]

theorem afterLoop_answered (c : Carried) :
    (afterLoop c).answered = true ↔ c.lastResult.isSome = true := by
  unfold afterLoop
  cases c.lastResult <;> simp [Ended.answered]

/-- With a page in hand the loop does not end in an error. -/
theorem Tries.answered_of_carried (h : Tries u deadline i order now c ended trials)
    (hc : c.lastResult.isSome = true) : ended.answered = true := by
  induction h with
  | exhausted | spent => exact (afterLoop_answered _).mpr hc
  | clean => rfl
  | failed _ _ _ _ ih =>
    refine ih ?_
    rw [Carried.after_lastResult, Option.isSome_or, hc, Bool.or_true]

/-! ## Engines added at the end -/

theorem Trial.clean_congr {t t' : Trial} (h : t.attempt = t'.attempt) :
    t.clean u = t'.clean u := by
  simp only [Trial.clean, Trial.page, h]

theorem Carried.after_congr {t t' : Trial} (c : Carried) (hengine : t.engine = t'.engine)
    (hattempt : t.attempt = t'.attempt) : c.after t = c.after t' := by
  simp only [Carried.after, hengine, hattempt]

theorem SameAttempts.tail {t t' : Trial} {ts ts' : List Trial}
    (h : SameAttempts (t :: ts) (t' :: ts')) : SameAttempts ts ts' :=
  fun k s s' hs hs' => h (k + 1) s s' hs hs'

/-- A plan that had an answer has one when it is made longer: the two runs go the
same way until the shorter plan ends, and there the answer is in hand. -/
theorem Tries.extended (h : Tries u deadline i order now c ended trials) (more : List Engine) :
    ∀ {ended' : Ended} {trials' : List Trial},
      Tries u deadline i (order ++ more) now c ended' trials' → SameAttempts trials trials' →
      ended.answered = true → ended'.answered = true := by
  induction h with
  | exhausted | spent =>
    intro _ _ h' _ hanswered
    exact h'.answered_of_carried ((afterLoop_answered _).mp hanswered)
  | clean enough _ clean =>
    intro _ _ h' hsame _
    cases h' with
    | spent later short => exact absurd short (not_lt.mpr (enough later))
    | clean => rfl
    | failed _ _ unclean =>
      rw [← Trial.clean_congr (hsame 0 _ _ rfl rfl), clean] at unclean
      cases unclean
  | failed enough made unclean _ ih =>
    intro _ _ h' hsame hanswered
    cases h' with
    | spent later short => exact absurd short (not_lt.mpr (enough later))
    | clean => rfl
    | failed _ made' _ next' =>
      have hattempt := hsame 0 _ _ rfl rfl
      have hengine := (congrArg Trial.engine made).trans (congrArg Trial.engine made').symm
      rw [← hattempt, ← Carried.after_congr _ hengine hattempt] at next'
      exact ih next' hsame.tail hanswered

/-! ## The outcome -/

/-- The first engine is tried, whatever is left of the budget. -/
theorem Tries.tried {engine : Engine} {rest : List Engine}
    (h : Tries u deadline 0 (engine :: rest) now c ended trials) : trials ≠ [] := by
  cases h with
  | spent later => exact absurd later (lt_irrefl 0)
  | clean => exact List.cons_ne_nil _ _
  | failed => exact List.cons_ne_nil _ _

/-- A clean page is the answer and the last trial. -/
theorem Tries.answer_of_clean (h : Tries u deadline i order now c ended trials) {t : Trial}
    (ht : t ∈ trials) (hclean : t.clean u = true) :
    trials.getLast? = some t ∧ ∃ result, t.page = some result ∧
      ended = .solved t.engine result := by
  rcases h.ends with ⟨before, s, result, rfl, hbefore, -, hpage, hended⟩ | ⟨hall, -⟩
  · rcases List.mem_append.mp ht with hmem | hmem
    · exact absurd hclean (by simp [hbefore t hmem])
    · obtain rfl := List.mem_singleton.mp hmem
      exact ⟨List.getLast?_concat, result, hpage, hended⟩
  · exact absurd hclean (by simp [hall t ht])

/-- Without a clean page the loop ends with what the trials leave behind. -/
theorem Tries.ended_of_unclean (h : Tries u deadline i order now c ended trials)
    (hall : ∀ t ∈ trials, t.clean u = false) :
    ended = afterLoop (trials.foldl Carried.after c) := by
  rcases h.ends with ⟨before, s, result, rfl, -, hclean, -⟩ | ⟨-, hended⟩
  · have hs := hall s (List.mem_append_right _ (List.mem_singleton_self s))
    exact absurd hclean (by simp [hs])
  · exact hended

/-- The latest page is then the answer. -/
theorem Tries.answer_of_page (h : Tries u deadline i order now c ended trials)
    (hall : ∀ t ∈ trials, t.clean u = false) {result : SolveResult}
    (hlatest : latestPage trials = some result) : ended = .unsolved result := by
  have hcarried := foldl_after_lastResult trials c
  rw [hlatest, Option.some_or] at hcarried
  rw [h.ended_of_unclean hall, afterLoop, hcarried]

theorem latestPage_eq_none {trials : List Trial} (hpages : ∀ t ∈ trials, t.page = none) :
    latestPage trials = none := by
  rw [latestPage, List.findSome?_eq_none_iff]
  exact fun t ht => hpages t (List.mem_reverse.mp ht)

/-- With no page at all, the last engine's error is the answer. -/
theorem Tries.answer_of_errors (h : Tries u deadline i order now .none ended trials)
    (hne : trials ≠ []) (hpages : ∀ t ∈ trials, t.page = none) :
    ∃ t e, trials.getLast? = some t ∧ t.attempt.outcome = .error e ∧ ended = .raised e := by
  have hall : ∀ t ∈ trials, t.clean u = false := fun t ht => by
    simp only [Trial.clean, hpages t ht]
  have hcarried := foldl_after_lastResult trials .none
  rw [latestPage_eq_none hpages] at hcarried
  have hended := h.ended_of_unclean hall
  rw [afterLoop, hcarried] at hended
  obtain ⟨before, t, htrials⟩ := (List.eq_nil_or_concat trials).resolve_left hne
  obtain rfl := htrials.trans (List.concat_eq_append ..)
  have hpage := hpages t (List.mem_append_right _ (List.mem_singleton_self t))
  cases hout : t.attempt.outcome with
  | ok result => simp [Trial.page, hout] at hpage
  | error e =>
    refine ⟨t, e, List.getLast?_concat, hout, ?_⟩
    rw [hended, List.foldl_append, List.foldl_cons, List.foldl_nil,
      Carried.after_lastError _ hout]
    rfl

/-- **The outcome of a plan.** The first engine is always tried and the engines are
tried in plan order. A clean page is the answer, and no engine is tried after it;
without one the answer is the latest page that any engine returned; without a page
it is the error of the last engine tried. A longer plan whose earlier engines do the
same still has an answer where the plan had one. -/
theorem resolve_outcome (u : CaseMap) (timeout now : ℚ) (first : Engine) (rest : List Engine) :
    let run := resolve u timeout now (first :: rest)
    run.2 ≠ [] ∧ InPlanOrder (first :: rest) run.2 ∧
    (∀ t ∈ run.2, t.clean u = true → run.2.getLast? = some t ∧
      ∃ result, t.page = some result ∧ run.1.response = .ok (toChallengeResolution result)) ∧
    ((∀ t ∈ run.2, t.clean u = false) → ∀ result, latestPage run.2 = some result →
      run.1.response = .ok (toChallengeResolution result)) ∧
    ((∀ t ∈ run.2, t.page = none) → ∃ t e, run.2.getLast? = some t ∧
      t.attempt.outcome = .error e ∧ run.1.response = .error e) ∧
    ∀ more : List Engine, SameAttempts run.2 (resolve u timeout now (first :: rest ++ more)).2 →
      run.1.answered = true →
      (resolve u timeout now (first :: rest ++ more)).1.answered = true := by
  intro run
  have htries : Tries u (now + timeout) 0 (first :: rest) now .none run.1 run.2 :=
    resolve_tries u timeout now (first :: rest)
  refine ⟨htries.tried, htries.inPlanOrder, ?_, ?_, ?_, ?_⟩
  · intro t ht hclean
    obtain ⟨hlast, result, hpage, hended⟩ := htries.answer_of_clean ht hclean
    exact ⟨hlast, result, hpage, congrArg Ended.response hended⟩
  · intro hall result hlatest
    exact congrArg Ended.response (htries.answer_of_page hall hlatest)
  · intro hpages
    obtain ⟨t, e, hlast, hout, hended⟩ := htries.answer_of_errors htries.tried hpages
    exact ⟨t, e, hlast, hout, congrArg Ended.response hended⟩
  · intro more hsame hanswered
    exact htries.extended more (resolve_tries u timeout now _) hsame hanswered

end Solverr.Controller
