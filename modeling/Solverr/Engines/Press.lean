import Mathlib.Algebra.Order.Archimedean.Basic
import Mathlib.Tactic.Linarith
import Mathlib.Tactic.NormNum
import Solverr.Engines.Chrome

/-!
# Pressing and waiting for a token on Chrome

A press takes eight moments, and what it comes to depends on the page at each of them
alone: `PressYields` says so without the program, and `pressUntil_iff` that the program
does nothing else. Without pressing, a token that is there is read at once
(`awaitTurnstileToken_held`).

How often it presses is a second reading of the same loop. `pressing` is the loop with
a log of its presses, `pressing_run` that the log does not interfere; the log is empty,
spaced and finite as the clock says.
-/

namespace Solverr.Engines

open Solverr.Lib (Text Along Cursor)

/-- The token that the page's Turnstile input holds, if it can be read and is not empty. -/
def Moment.held (m : Moment) : Option Text :=
  match m.widget with
  | .ok (some (c :: token)) => some (c :: token)
  | _ => none

/-- The page's token input is there and holds the token at each moment of a stretch. -/
def Holds (e : Evolution) (token : Text) (start stop : ℕ) : Prop :=
  ∀ k, start ≤ k → k < stop → (e k).widget = .ok (some token)

theorem Holds.held {e : Evolution} {token : Text} {start stop k : ℕ}
    (h : Holds e token start stop) (hne : token ≠ []) (hstart : start ≤ k) (hstop : k < stop) :
    (e k).held = some token := by
  have hwidget := h k hstart hstop
  unfold Moment.held
  cases token with
  | nil => exact absurd rfl hne
  | cons c token => simp [hwidget]

namespace Chrome

variable {set : Setting} {e : Evolution} {c d : Cursor}

/-! ## One read -/

theorem turnstileTokenValue_ok {token : Option Text} :
    turnstileTokenValue.run e c = (.ok token, d) → token = (e c.moment).held ∧ d = c.next := by
  intro h
  obtain ⟨value, m, hread, h⟩ := Along.bind_ok.mp h
  rcases Along.attempt_ok.mp hread with ⟨widget, rfl, hask⟩ | ⟨rfl, fault, -, hask⟩
  · obtain ⟨hwidget, rfl⟩ := Along.ask_ok.mp hask
    unfold Moment.held
    rw [hwidget]
    rcases widget with _ | _ | ⟨first, rest⟩ <;> exact Along.pure_ok.mp h
  · obtain ⟨rfl, rfl⟩ := Along.pure_ok.mp h
    obtain ⟨hanswer, rfl⟩ := Prod.mk.inj hask
    refine ⟨?_, rfl⟩
    unfold Moment.held
    cases hwidget : (e c.moment).widget with
    | error => rfl
    | ok value => simp [hwidget, Along.answered, Except.mapError] at hanswer

theorem clickVerify_ok {a : Unit} (h : clickVerify.run e c = (.ok a, d)) :
    d = c.next.next.next := by
  obtain ⟨_, m₁, htabs, h⟩ := Along.bind_ok.mp h
  obtain ⟨_, m₂, hfocus, h⟩ := Along.bind_ok.mp h
  rw [Browse.besides_act] at htabs h
  obtain ⟨-, rfl⟩ := Browse.read_ok.mp hfocus
  cases htabs
  cases h
  rfl

/-! ## Pressing -/

/-- The press that would start at moment `k`, when the last one took `spent`, or one after
it, fills in the token `v`: every press starts only if one like the last still fits before
the deadline, and the token is the first that differs from the `current` one. -/
inductive PressYields (e : Evolution) (deadline : ℚ) (current : Option Text) (v : Text) :
    ℕ → ℚ → Prop
  | now {k : ℕ} {spent : ℚ} (fits : (e k).now + spent < deadline)
      (filled : (e (k + 5)).held = some v) (new : some v ≠ current) :
      PressYields e deadline current v k spent
  | later {k : ℕ} {spent : ℚ} (fits : (e k).now + spent < deadline)
      (unchanged : (e (k + 5)).held = none ∨ (e (k + 5)).held = current)
      (next : PressYields e deadline current v (k + 8) ((e (k + 7)).now - (e (k + 1)).now)) :
      PressYields e deadline current v k spent

/-- **The presses yield what the page lets them yield.** -/
theorem pressUntil_iff {deadline : ℚ} {current token : Option Text} {v : Text} :
    ∀ {fuel : ℕ} {spent : ℚ} {c : Cursor},
      (pressUntil deadline current fuel spent).run e c = (.ok token, d) →
        (token = some v ↔ PressYields e deadline current v c.moment spent)
  | 0, _, _, h => absurd h Along.unfinished_ne_ok
  | fuel + 1, spent, c, h => by
    obtain ⟨now, m₁, hnow, h⟩ := Along.bind_ok.mp h
    obtain ⟨rfl, rfl⟩ := Browse.clock_ok.mp hnow
    split at h
    next hfits =>
      obtain ⟨started, m₂, hstarted, h⟩ := Along.bind_ok.mp h
      obtain ⟨rfl, rfl⟩ := Browse.clock_ok.mp hstarted
      obtain ⟨_, m₃, hclick, h⟩ := Along.bind_ok.mp h
      obtain rfl := clickVerify_ok hclick
      obtain ⟨read, m₄, hread, h⟩ := Along.bind_ok.mp h
      obtain ⟨rfl, rfl⟩ := turnstileTokenValue_ok hread
      split at h
      next hchanged =>
        -- this press yields the token
        obtain ⟨rfl, rfl⟩ := Along.pure_ok.mp h
        rw [Bool.and_eq_true, decide_eq_true_eq] at hchanged
        obtain ⟨hsome, hne⟩ : (e (c.moment + 5)).held.isSome = true ∧
            (e (c.moment + 5)).held ≠ current := hchanged
        constructor
        · exact fun hv => .now hfits hv (hv ▸ hne)
        · intro hyields
          cases hyields with
          | now _ filled _ => exact filled
          | later _ unchanged _ =>
            rcases unchanged with hnone | hsame
            · simp [hnone] at hsome
            · exact absurd hsame hne
      next hchanged =>
        -- this press yields nothing, and what is left is for those after it
        have hunchanged : (e (c.moment + 5)).held = none ∨ (e (c.moment + 5)).held = current := by
          rw [Bool.and_eq_true, decide_eq_true_eq, Option.isSome_iff_ne_none] at hchanged
          by_contra hcon
          exact hchanged (not_or.mp hcon)
        obtain ⟨_, m₅, hfocus, h⟩ := Along.bind_ok.mp h
        obtain ⟨-, rfl⟩ := Browse.read_ok.mp hfocus
        obtain ⟨ended, m₆, hended, h⟩ := Along.bind_ok.mp h
        obtain ⟨rfl, rfl⟩ := Browse.clock_ok.mp hended
        rw [pressUntil_iff h]
        constructor
        · exact .later hfits hunchanged
        · intro hyields
          cases hyields with
          | now _ filled new =>
            rcases hunchanged with hnone | hsame
            · rw [hnone] at filled
              cases filled
            · exact absurd (filled ▸ hsame) new
          | later _ _ next => exact next
    next hfits =>
      obtain ⟨rfl, rfl⟩ := Along.pure_ok.mp h
      refine iff_of_false (fun hnone => by cases hnone) fun hyields => ?_
      cases hyields with
      | now fits _ _ => exact hfits fits
      | later fits _ _ => exact hfits fits

/-! ## Waiting for a token that is there -/

/-- A token that the page goes on holding is read by the first poll. -/
theorem awaitPolls_held {deadline : ℚ} {token : Option Text} {v : Text} (hne : v ≠ [])
    {polls : ℕ} (hholds : Holds e v c.moment d.moment)
    (h : (awaitPolls deadline polls).run e c = (.ok token, d)) : token = some v := by
  cases polls with
  | zero =>
    obtain ⟨htoken, rfl⟩ := turnstileTokenValue_ok h
    exact htoken.trans (hholds.held hne le_rfl (Nat.lt_succ_self _))
  | succ polls =>
    obtain ⟨read, m, hread, h⟩ := Along.bind_ok.mp h
    obtain ⟨htoken, rfl⟩ := turnstileTokenValue_ok hread
    have hd := Cursor.moment_le (Along.forward_ok h)
    obtain rfl : read = some v := htoken.trans (hholds.held hne le_rfl hd)
    exact (Along.pure_ok.mp h).1

/-- **A token that the page holds throughout is the one the wait returns.** -/
theorem awaitTurnstileToken_held {deadline : ℚ} {token : Option Text} {v : Text} (hne : v ≠ [])
    (hholds : Holds e v c.moment d.moment)
    (h : (awaitTurnstileToken deadline).run e c = (.ok token, d)) : token = some v := by
  obtain ⟨widget, m, hask, h⟩ := Along.bind_ok.mp h
  obtain ⟨hwidget, rfl⟩ := Along.ask_ok.mp hask
  have hd := Cursor.moment_le (Along.forward_ok h)
  rw [hholds c.moment le_rfl hd] at hwidget
  obtain rfl : true = widget := by simpa [Except.map] using hwidget
  exact awaitPolls_held hne (fun k hstart => hholds k ((Nat.le_succ _).trans hstart)) h

/-! ## What is pressed -/

/-- One pass of the loop: the token that ends it, or how long the pass took. -/
def pass (current : Option Text) : Browse (Option Text ⊕ ℚ) := do
  let passStarted ← Browse.clock
  clickVerify
  let token ← turnstileTokenValue
  if token.isSome && token ≠ current then
    pure (.inl token)
  else
    Browse.act
    let now ← Browse.clock
    pure (.inr (now - passStarted))

/-- **The loop is its test and its passes.** -/
theorem pressUntil_run (deadline : ℚ) (current : Option Text) (fuel : ℕ) (spent : ℚ) :
    (pressUntil deadline current (fuel + 1) spent).run e c =
      if (e c.moment).now + spent < deadline then
        match (pass current).run e c.next with
        | (.ok (.inl token), d) => (.ok token, d)
        | (.ok (.inr took), d) => (pressUntil deadline current fuel took).run e d
        | (.error stop, d) => (.error stop, d)
      else (.ok none, c.next) := by
  have hclock : ∀ c : Cursor, Browse.clock.run e c = (.ok (e c.moment).now, c.next) :=
    fun c => Browse.clock_ok.mpr ⟨rfl, rfl⟩
  rw [pressUntil, Along.run_bind, hclock]
  simp only
  split
  next =>
    rw [pass, Along.run_bind, Along.run_bind, hclock]
    simp only [Along.run_bind]
    rcases clickVerify.run e c.next.next with ⟨stop | _, m₁⟩
    · rfl
    simp only
    rcases turnstileTokenValue.run e m₁ with ⟨stop | token, m₂⟩
    · rfl
    simp only
    by_cases hnew : (token.isSome && decide (token ≠ current)) = true
    · rw [if_pos hnew, if_pos hnew]
      rfl
    · rw [if_neg hnew, if_neg hnew, Along.run_bind, Along.run_bind]
      rcases Browse.act.run e m₂ with ⟨stop | _, m₃⟩
      · rfl
      simp only [Along.run_bind, hclock]
      rfl
  next => rfl

/-- A press: the clock's reading that let it start, and how long its pass took. The pass
that ends the loop measures nothing. -/
structure Press where
  at_ : ℚ
  took : Option ℚ

/-- What a program that presses made of its presses. -/
abbrev Logged := List Press × Except (Lib.Stop Fault) (Option Text) × Cursor

/-- The loop with the presses it makes. -/
def pressing (e : Evolution) (deadline : ℚ) (current : Option Text) :
    ℕ → ℚ → Cursor → Logged
  | 0, _, c => ([], .error .running, c)
  | fuel + 1, spent, c =>
    let now := (e c.moment).now
    if now + spent < deadline then
      match (pass current).run e c.next with
      | (.ok (.inl token), d) => ([⟨now, none⟩], .ok token, d)
      | (.ok (.inr took), d) =>
        let (later, result) := pressing e deadline current fuel took d
        (⟨now, some took⟩ :: later, result)
      | (.error stop, d) => ([⟨now, none⟩], .error stop, d)
    else ([], .ok none, c.next)

/-- `_resolve_turnstile_captcha` with the presses it makes. -/
def resolving (set : Setting) (deadline : ℚ) (e : Evolution) (c : Cursor) : Logged :=
  match (hasTurnstileWidget set).run e c with
  | (.ok true, d) =>
    match turnstileTokenValue.run e d with
    | (.ok current, m) => pressing e deadline current set.fuel 0 m
    | (.error stop, m) => ([], .error stop, m)
  | (.ok false, d) => ([], .ok none, d)
  | (.error stop, d) => ([], .error stop, d)

/-- The log does not interfere. -/
theorem pressing_run (deadline : ℚ) (current : Option Text) : ∀ (fuel : ℕ) (spent : ℚ)
    (c : Cursor), (pressing e deadline current fuel spent c).2
      = (pressUntil deadline current fuel spent).run e c
  | 0, _, _ => rfl
  | fuel + 1, spent, c => by
    rw [pressUntil_run, pressing]
    simp only
    split
    next =>
      rcases (pass current).run e c.next with ⟨stop | token | took, d⟩
      · rfl
      · rfl
      · exact pressing_run deadline current fuel took d
    next => rfl

/-- The function presses as the log says. -/
theorem resolving_run (deadline : ℚ) (c : Cursor) :
    (resolving set deadline e c).2 = (resolveTurnstileCaptcha set deadline).run e c := by
  rw [resolveTurnstileCaptcha, Along.run_bind, resolving]
  rcases (hasTurnstileWidget set).run e c with ⟨stop | found, d⟩
  · rfl
  cases found with
  | false => rfl
  | true =>
    show _ = (getTurnstileToken set deadline).run e d
    rw [getTurnstileToken, Along.run_bind]
    dsimp only
    rcases turnstileTokenValue.run e d with ⟨stop | current, m⟩
    · rfl
    · exact pressing_run deadline current set.fuel 0 m

/-- Every press but the first starts only if one like the last still fits. -/
def Fitting (deadline : ℚ) (presses : List Press) : Prop :=
  presses.IsChain fun p q => ∃ took, p.took = some took ∧ q.at_ + took < deadline

/-- What the loop presses fits, and its first press was let start by the clock. -/
theorem pressing_fits (deadline : ℚ) (current : Option Text) : ∀ (fuel : ℕ) (spent : ℚ)
    (c : Cursor), Fitting deadline (pressing e deadline current fuel spent c).1 ∧
      ∀ p ∈ (pressing e deadline current fuel spent c).1.head?, p.at_ + spent < deadline
  | 0, _, _ => ⟨.nil, by simp [pressing]⟩
  | fuel + 1, spent, c => by
    rw [pressing]
    simp only
    split
    next hfits =>
      rcases (pass current).run e c.next with ⟨stop | token | took, d⟩
      · exact ⟨.singleton _, by simpa using hfits⟩
      · exact ⟨.singleton _, by simpa using hfits⟩
      · -- the next press was let start after this pass
        obtain ⟨hlater, hfirst⟩ := pressing_fits deadline current fuel took d
        refine ⟨?_, by simpa using hfits⟩
        show Fitting deadline (⟨(e c.moment).now, some took⟩ ::
          (pressing e deadline current fuel took d).1)
        generalize (pressing e deadline current fuel took d).1 = later at hlater hfirst ⊢
        cases later with
        | nil => exact .singleton _
        | cons q later => exact .cons_cons ⟨took, rfl, hfirst q rfl⟩ hlater
    next => exact ⟨.nil, by simp⟩

/-- The loop presses exactly when the clock lets it. -/
theorem pressing_ne_nil (deadline : ℚ) (current : Option Text) {fuel : ℕ} (hfuel : 0 < fuel)
    (spent : ℚ) (c : Cursor) : (pressing e deadline current fuel spent c).1 ≠ [] ↔
      (e c.moment).now + spent < deadline := by
  obtain ⟨fuel, rfl⟩ := Nat.exists_eq_add_one.mpr hfuel
  rw [pressing]
  simp only
  split
  next hfits =>
    refine iff_of_true ?_ hfits
    rcases (pass current).run e c.next with ⟨stop | token | took, d⟩ <;> simp
  next hfits => exact iff_of_false (fun h => h rfl) hfits

/-! ## The loop ends -/

/-- A press ends, whatever comes of it. -/
theorem pass_ends (current : Option Text) : Along.Ends (pass current) := by
  have hbesides : Along.Ends (Browse.besides Browse.act) :=
    (Along.Ends.ask.attempt).bind fun _ => .pure
  have hclick : Along.Ends clickVerify :=
    hbesides.bind fun _ => Along.Ends.ask.bind fun _ => hbesides
  have hread : Along.Ends turnstileTokenValue := by
    refine (Along.Ends.ask.attempt).bind fun value => ?_
    rcases value with _ | _ | _ | _ <;> exact .pure
  refine Along.Ends.ask.bind fun _ => hclick.bind fun _ => hread.bind fun token => ?_
  split
  · exact .pure
  · exact Along.Ends.ask.bind fun _ => Along.Ends.ask.bind fun _ => .pure

/-- A pass that goes on takes seven moments, and measures them from its first to its
last. -/
theorem pass_took {current : Option Text} {took : ℚ}
    (h : (pass current).run e c = (.ok (.inr took), d)) :
    d.moment = c.moment + 7 ∧ took = (e (c.moment + 6)).now - (e c.moment).now := by
  obtain ⟨started, m₁, hstarted, h⟩ := Along.bind_ok.mp h
  obtain ⟨rfl, rfl⟩ := Browse.clock_ok.mp hstarted
  obtain ⟨_, m₂, hclick, h⟩ := Along.bind_ok.mp h
  obtain rfl := clickVerify_ok hclick
  obtain ⟨token, m₃, hread, h⟩ := Along.bind_ok.mp h
  obtain ⟨-, rfl⟩ := turnstileTokenValue_ok hread
  split at h
  next =>
    obtain ⟨hinl, -⟩ := Along.pure_ok.mp h
    cases hinl
  next =>
    obtain ⟨_, m₄, hfocus, h⟩ := Along.bind_ok.mp h
    obtain ⟨-, rfl⟩ := Browse.read_ok.mp hfocus
    obtain ⟨ended, m₅, hended, h⟩ := Along.bind_ok.mp h
    obtain ⟨rfl, rfl⟩ := Browse.clock_ok.mp hended
    obtain ⟨hinr, rfl⟩ := Along.pure_ok.mp h
    exact ⟨rfl, Sum.inr.inj hinr⟩

/-- With time for at most `n` more passes of length `ε`, fuel for one more is enough. -/
theorem pressing_ends (hclock : Monotone fun k => (e k).now) {ε : ℚ} (hε : 0 < ε)
    (deadline : ℚ) (current : Option Text) : ∀ (n : ℕ) (spent : ℚ) (c : Cursor), 0 ≤ spent →
      deadline ≤ (e c.moment).now + n * ε → ∀ fuel, n < fuel →
      (∀ p ∈ (pressing e deadline current fuel spent c).1, ∀ took ∈ p.took, ε ≤ took) →
      (pressing e deadline current fuel spent c).2.1 ≠ .error .running
  | n, spent, c, hspent, hdeadline, 0, hfuel, _ => absurd hfuel (Nat.not_lt_zero n)
  | n, spent, c, hspent, hdeadline, fuel + 1, hfuel, hlong => by
    rw [pressing] at hlong ⊢
    simp only at hlong ⊢
    split
    next hfits =>
      rw [if_pos hfits] at hlong
      have hends := pass_ends current e c.next
      rcases hpass : (pass current).run e c.next with ⟨stop | token | took, d⟩
      · rw [hpass] at hends
        exact fun h => hends (by rw [Except.error.inj h])
      · exact fun h => by cases h
      · simp only [hpass] at hlong ⊢
        obtain ⟨hd, htook⟩ := pass_took hpass
        have hd' : d.moment = c.moment + 8 := hd
        have htook' : took = (e (c.moment + 7)).now - (e (c.moment + 1)).now := htook
        have hlast : (e (c.moment + 7)).now ≤ (e d.moment).now := hclock (by omega)
        have hfirst : (e c.moment).now ≤ (e (c.moment + 1)).now := hclock (Nat.le_succ _)
        have hεtook : ε ≤ took := hlong _ (List.mem_cons_self ..) took rfl
        cases n with
        | zero =>
          -- there was no time for this pass
          rw [Nat.cast_zero, zero_mul, add_zero] at hdeadline
          exact absurd hfits (not_lt.mpr (hdeadline.trans (le_add_of_nonneg_right hspent)))
        | succ n =>
          rw [Nat.cast_succ, add_mul, one_mul] at hdeadline
          refine pressing_ends hclock hε deadline current n took d (hε.le.trans hεtook) ?_ fuel
            (Nat.lt_of_succ_lt_succ hfuel) fun p hp => hlong p (List.mem_cons_of_mem _ hp)
          linarith
    next => exact fun h => by cases h

/-! ## The checkbox is tried -/

/-- A token read raises only what is no race with a document being replaced. -/
theorem turnstileTokenValue_answers : (∃ token d, turnstileTokenValue.run e c = (.ok token, d)) ↔
    ∀ fault, (e c.moment).widget = .error fault → fault.kind = .race := by
  unfold turnstileTokenValue
  rw [Along.run_bind, Along.attempt]
  have hask : (Along.ask Moment.widget).run e c
      = (Along.answered (e c.moment).widget, c.next) := rfl
  dsimp only
  rw [hask]
  cases hwidget : (e c.moment).widget with
  | ok value =>
    refine iff_of_true ?_ (by simp)
    rcases value with _ | _ | ⟨first, rest⟩ <;> exact ⟨_, _, rfl⟩
  | error fault =>
    simp only [Along.answered, Except.mapError, Except.error.injEq, forall_eq', Browse.aRace,
      decide_eq_true_eq]
    by_cases hrace : fault.kind = .race
    · rw [if_pos hrace]
      exact iff_of_true ⟨_, _, rfl⟩ hrace
    · rw [if_neg hrace]
      refine iff_of_false ?_ hrace
      intro h
      obtain ⟨token, d, h⟩ := h
      cases h

/-- A page with a widget is tried: at least one press, whatever fuel; never one for
which the last one's time no longer fits; and an end, if every pass takes some time. -/
structure Tried (set : Setting) (deadline : ℚ) (e : Evolution) (c : Cursor) : Prop where
  once : ∀ n, 0 < n → (resolving { set with fuel := n } deadline e c).1 ≠ []
  fits : ∀ n, Fitting deadline (resolving { set with fuel := n } deadline e c).1
  ends : ∀ ε, 0 < ε → (Monotone fun k => (e k).now) →
    (∀ n, ∀ p ∈ (resolving { set with fuel := n } deadline e c).1, ∀ took ∈ p.took, ε ≤ took) →
    ∃ n, ∀ fuel, n < fuel →
      ((resolveTurnstileCaptcha { set with fuel := fuel } deadline).run e c).1 ≠ .error .running

/-- Past the look for the widget, the function is the loop or the exception of the read
before it. -/
theorem resolving_widget (hwidget : (hasTurnstileWidget set).run e c = (.ok true, d))
    (deadline : ℚ) (n : ℕ) : resolving { set with fuel := n } deadline e c =
      match turnstileTokenValue.run e d with
      | (.ok current, m) => pressing e deadline current n 0 m
      | (.error stop, m) => ([], .error stop, m) := by
  have hsame : (hasTurnstileWidget { set with fuel := n }).run e c = (.ok true, d) := hwidget
  rw [resolving, hsame]

/-- **The checkbox of a page with a widget is tried exactly when the clock, after the
token read before the loop, is still before the deadline.** -/
theorem checkbox_tried_iff (hwidget : (hasTurnstileWidget set).run e c = (.ok true, d))
    (deadline : ℚ) : Tried set deadline e c ↔
      (∀ fault, (e d.moment).widget = .error fault → fault.kind = .race) ∧
        (e (d.moment + 1)).now < deadline := by
  have heq := resolving_widget hwidget deadline
  rw [← turnstileTokenValue_answers]
  constructor
  · intro h
    have honce := h.once 1 Nat.one_pos
    rw [heq] at honce
    rcases hread : turnstileTokenValue.run e d with ⟨stop | current, m⟩
    · rw [hread] at honce
      exact absurd rfl honce
    · rw [hread] at honce
      obtain ⟨-, rfl⟩ := turnstileTokenValue_ok hread
      have hfits := (pressing_ne_nil deadline current Nat.one_pos 0 d.next).mp honce
      rw [add_zero] at hfits
      exact ⟨⟨current, d.next, rfl⟩, hfits⟩
  · intro h
    obtain ⟨⟨current, m, hread⟩, hfits⟩ := h
    obtain ⟨-, rfl⟩ := turnstileTokenValue_ok hread
    simp only [hread] at heq
    refine ⟨?_, ?_, ?_⟩
    · intro n hn
      rw [heq, pressing_ne_nil deadline current hn, add_zero]
      exact hfits
    · intro n
      rw [heq]
      exact (pressing_fits deadline current n 0 d.next).1
    · intro ε hε hclock hlong
      obtain ⟨n, hn⟩ := Archimedean.arch (deadline - (e d.next.moment).now) hε
      refine ⟨n, fun fuel hfuel => ?_⟩
      rw [← resolving_run, heq]
      refine pressing_ends hclock hε deadline current n 0 d.next le_rfl ?_ fuel hfuel ?_
      · rw [nsmul_eq_mul] at hn
        linarith
      · intro p hp
        exact hlong fuel p (by rwa [heq])

/-- A page with an empty widget, on which every moment takes a second. -/
def waiting : Evolution := fun k => { Moment.plain [] with now := k, widget := .ok (some []) }

/-- With time left the checkbox is tried. -/
theorem checkbox_tried_in_time : Tried .plain 100 waiting Cursor.start := by
  have hwidget : (hasTurnstileWidget .plain).run waiting Cursor.start
      = (.ok true, Cursor.start.next) := rfl
  refine (checkbox_tried_iff hwidget 100).mpr ⟨nofun, ?_⟩
  show ((2 : ℕ) : ℚ) < 100
  norm_num

/-- A deadline that the load has already used up leaves the checkbox alone. -/
theorem checkbox_not_tried : ¬ ∀ (set : Setting) (e : Evolution) (c d : Cursor) (deadline : ℚ),
    (hasTurnstileWidget set).run e c = (.ok true, d) → Tried set deadline e c := by
  intro h
  have htried := h .plain waiting Cursor.start Cursor.start.next 1 rfl
  refine htried.once 1 Nat.one_pos ?_
  have hlate : ¬ (((2 : ℕ) : ℚ) + 0 < 1) := by norm_num
  exact congrArg Prod.fst (if_neg hlate)

end Chrome

end Solverr.Engines
