import Mathlib.Algebra.Order.Ring.Rat
import Solverr.Engines.Pipeline

/-!
# Waiting for a challenge to clear

`StealthEngine._wait_until_cleared`, over any page: a `Watch` says what each thing
the wait does to the page answers, and what it leaves behind. The wait keeps a log
of what it saw, and runs for as many passes as it is given fuel for.

`Pass` says once what a pass can see and how it can end. A pass that goes on has
last seen a challenge (`wait_run`), so that the looks of a whole run are known up to
its last pass.
-/

namespace Solverr.Engines

open Solverr.Lib (Text)

/-- What the wait can do to a page whose state is an `σ`. An operation may raise an
`ε` instead of answering. -/
structure Watch (ε σ : Type) where
  detectSettled : σ → Except ε (Verdict × Bool) × σ
  debugTitle : σ → Except ε Unit × σ
  turnstileToken : σ → Option Text × σ
  isInterstitial : σ → Except ε Bool × σ
  clickTurnstile : σ → Except ε Bool × σ
  time : σ → ℚ × σ
  sleep : ℚ → σ → σ

/-- Something seen: a look's reading, with whether there is a widget; the token; or
whether the markup of a full-page challenge is there. -/
inductive Seen
  | look (kind : Verdict) (hasWidget : Bool)
  | token (value : Option Text)
  | interstitial (found : Bool)

/-- How the wait ends: it returns `True` or `False`, or raises. -/
inductive Waited (ε : Type)
  | cleared
  | expired
  | blocked
  | raised (error : ε)
  deriving DecidableEq

/-- `_CLICK_COOLDOWN_SECONDS` -/
def clickCooldownSeconds : ℚ := 4

/-- `_POLL_SECONDS` -/
def pollSeconds : ℚ := 3 / 2

/-- `_CHALLENGE_CONFIRM_SECONDS` -/
def challengeConfirmSeconds : ℚ := 1

/-- The truth of a token. -/
def filled : Option Text → Bool
  | none | some [] => false
  | some _ => true

section Wait

variable {ε σ : Type} (w : Watch ε σ) (deadline : ℚ)

/-- The end of a pass that decides nothing: the wait is over, or goes on with the
time of the last click. -/
def passEnd (lastClick : ℚ) (seen : List Seen) (s : σ) : (Waited ε ⊕ ℚ) × List Seen × σ :=
  let (now, s) := w.time s
  if deadline ≤ now then (.inl .expired, seen, s) else (.inr lastClick, seen, w.sleep pollSeconds s)

/-- What a pass does about a challenge with a widget, once its token is read. -/
def widgetPass (lastClick : ℚ) (seen : List Seen) (token : Option Text) (s : σ) :
    (Waited ε ⊕ ℚ) × List Seen × σ :=
  if filled token then
    match w.isInterstitial s with
    | (.error e, s) => (.inl (.raised e), seen, s)
    | (.ok false, s) => (.inl .cleared, seen ++ [.interstitial false], s)
    | (.ok true, s) => passEnd w deadline lastClick (seen ++ [.interstitial true]) s
  else
    let (now, s) := w.time s
    if clickCooldownSeconds ≤ now - lastClick then
      match w.clickTurnstile s with
      | (.error e, s) => (.inl (.raised e), seen, s)
      | (.ok true, s) =>
        let (now, s) := w.time s
        passEnd w deadline now seen s
      | (.ok false, s) => passEnd w deadline lastClick seen s
    else passEnd w deadline lastClick seen s

/-- One pass of the wait. -/
def waitPass (lastClick : ℚ) (s : σ) : (Waited ε ⊕ ℚ) × List Seen × σ :=
  match w.detectSettled s with
  | (.error e, s) => (.inl (.raised e), [], s)
  | (.ok (.denied, hasWidget), s) => (.inl .blocked, [.look .denied hasWidget], s)
  | (.ok (.challenge, hasWidget), s) =>
    match w.debugTitle s with
    | (.error e, s) => (.inl (.raised e), [.look .challenge hasWidget], s)
    | (.ok (), s) =>
      if hasWidget then
        let (token, s) := w.turnstileToken s
        widgetPass w deadline lastClick [.look .challenge true, .token token] token s
      else passEnd w deadline lastClick [.look .challenge false] s
  | (.ok (.none, hasWidget), s) =>
    -- `_challenge_stays_gone`: anything but a challenge confirms
    match w.detectSettled (w.sleep challengeConfirmSeconds s) with
    | (.error e, s) => (.inl (.raised e), [.look .none hasWidget], s)
    | (.ok (.challenge, widget), s) =>
      passEnd w deadline lastClick [.look .none hasWidget, .look .challenge widget] s
    | (.ok (kind, widget), s) =>
      (.inl .cleared, [.look .none hasWidget, .look kind widget], s)

/-- `_wait_until_cleared(page, deadline)`: how it ended, what it saw, and the page it
left; out of fuel it has not ended. -/
def waitUntilCleared : ℕ → ℚ → σ → Option (Waited ε) × List Seen × σ
  | 0, _, s => (none, [], s)
  | fuel + 1, lastClick, s =>
    match waitPass w deadline lastClick s with
    | (.inl waited, seen, s) => (some waited, seen, s)
    | (.inr lastClick, seen, s) =>
      let (waited, later, s) := waitUntilCleared fuel lastClick s
      (waited, seen ++ later, s)

end Wait

/-- The readings of the looks, in order. -/
def looks (seen : List Seen) : List Verdict :=
  seen.filterMap fun
    | .look kind _ => some kind
    | _ => none

@[simp] theorem looks_append (a b : List Seen) : looks (a ++ b) = looks a ++ looks b :=
  List.filterMap_append ..

/-! ## What a pass can do -/

/-- What a pass sees, and how it ends. -/
inductive Pass {ε : Type} : List Seen → Waited ε ⊕ ℚ → Prop
  | denied (widget : Bool) : Pass [.look .denied widget] (.inl .blocked)
  | answered {token : Option Text} (htoken : filled token = true) :
      Pass [.look .challenge true, .token token, .interstitial false] (.inl .cleared)
  | gone {widget widget' : Bool} {kind : Verdict} (hkind : kind ≠ .challenge) :
      Pass [.look .none widget, .look kind widget'] (.inl .cleared)
  | raised {seen : List Seen} {e : ε} (clear : .denied ∉ looks seen) :
      Pass seen (.inl (.raised e))
  | expired {seen : List Seen} (clear : .denied ∉ looks seen) : Pass seen (.inl .expired)
  | goesOn {seen : List Seen} {lastClick : ℚ} {before : List Verdict}
      (clear : .denied ∉ looks seen) (last : looks seen = before ++ [.challenge]) :
      Pass seen (.inr lastClick)

section Runs

variable {ε σ : Type} (w : Watch ε σ) (deadline lastClick : ℚ)

theorem passEnd_pass {seen : List Seen} {before : List Verdict} (clear : .denied ∉ looks seen)
    (last : looks seen = before ++ [.challenge]) (s : σ) :
    Pass (passEnd w deadline lastClick seen s).2.1 (passEnd w deadline lastClick seen s).1 := by
  unfold passEnd
  split
  split
  · exact .expired clear
  · exact .goesOn clear last

theorem widgetPass_pass (token : Option Text) (s : σ) :
    let r := widgetPass w deadline lastClick [.look .challenge true, .token token] token s
    Pass r.2.1 r.1 := by
  have hclear : ∀ more, looks more = [] →
      Verdict.denied ∉ looks ([.look .challenge true, .token token] ++ more) ∧
        looks ([.look .challenge true, .token token] ++ more) = [] ++ [.challenge] := by
    intro more hmore
    rw [looks_append, hmore]
    simp [looks]
  intro r
  unfold r widgetPass
  split
  next htoken =>
    split
    next => exact .raised (hclear [] rfl).1
    next => exact .answered htoken
    next => exact passEnd_pass w deadline _ (hclear [_] rfl).1 (hclear [_] rfl).2 _
  next =>
    split
    split
    next =>
      split
      next => exact .raised (hclear [] rfl).1
      next => exact passEnd_pass w deadline _ (hclear [] rfl).1 (hclear [] rfl).2 _
      next => exact passEnd_pass w deadline _ (hclear [] rfl).1 (hclear [] rfl).2 _
    next => exact passEnd_pass w deadline _ (hclear [] rfl).1 (hclear [] rfl).2 _

/-- **A pass sees and ends as `Pass` says.** -/
theorem waitPass_pass (s : σ) :
    Pass (waitPass w deadline lastClick s).2.1 (waitPass w deadline lastClick s).1 := by
  unfold waitPass
  split
  next => exact .raised List.not_mem_nil
  next => exact .denied _
  next =>
    split
    next => exact .raised (by simp [looks])
    next =>
      split
      next => exact widgetPass_pass w deadline lastClick _ _
      next => exact @passEnd_pass _ _ w deadline _ _ [] (by simp [looks]) (by rfl) _
  next =>
    split
    next => exact .raised (by simp [looks])
    next => exact @passEnd_pass _ _ w deadline _ _ [.none] (by simp [looks]) (by rfl) _
    next hne _ => exact .gone hne

/-- Nothing denied was seen, and the last look, if any, read a challenge. -/
structure Front (seen : List Seen) : Prop where
  clear : .denied ∉ looks seen
  last : looks seen = [] ∨ ∃ before, looks seen = before ++ [.challenge]

theorem Front.nil : Front [] := ⟨List.not_mem_nil, .inl rfl⟩

/-- What a pass that goes on has seen, and then a front, is a front. -/
theorem Front.after {seen later : List Seen} {click : ℚ}
    (h : Pass seen (.inr click : Waited ε ⊕ ℚ))
    (hlater : Front later) : Front (seen ++ later) := by
  cases h with
  | @goesOn _ _ before clear last =>
    refine ⟨?_, .inr ?_⟩
    · rw [looks_append, List.mem_append, not_or]
      exact ⟨clear, hlater.clear⟩
    · rw [looks_append, last]
      rcases hlater.last with hnil | ⟨before', hlast⟩
      · exact ⟨before, by rw [hnil, List.append_nil]⟩
      · exact ⟨before ++ [.challenge] ++ before', by simp [hlast]⟩

/-- A run, up to its last pass, has seen nothing denied. -/
theorem wait_run (fuel : ℕ) : ∀ (lastClick : ℚ) (s : σ),
    let r := waitUntilCleared w deadline fuel lastClick s
    (r.1 = none ∧ Front r.2.1) ∨
    ∃ front seen waited, r.2.1 = front ++ seen ∧ r.1 = some waited ∧ Front front ∧
      Pass seen (.inl waited) := by
  induction fuel with
  | zero => exact fun _ _ => .inl ⟨rfl, .nil⟩
  | succ fuel ih =>
    intro lastClick s
    have hpass := waitPass_pass w deadline lastClick s
    unfold waitUntilCleared
    split
    next waited seen s' heq =>
      rw [heq] at hpass
      exact .inr ⟨[], seen, waited, rfl, rfl, .nil, hpass⟩
    next click seen s' heq =>
      rw [heq] at hpass
      rcases ih click s' with ⟨hnone, hfront⟩ | ⟨front, seen', waited, hlog, hwaited, hfront, hend⟩
      · exact .inl ⟨hnone, .after hpass hfront⟩
      · refine .inr ⟨seen ++ front, seen', waited, ?_, hwaited, .after hpass hfront, hend⟩
        show seen ++ _ = _
        rw [hlog, List.append_assoc]

end Runs

/-! ## Going on -/

/-- The page only goes on. -/
structure Watch.Forward {ε σ : Type} [Preorder σ] (w : Watch ε σ) : Prop where
  detectSettled : ∀ s, s ≤ (w.detectSettled s).2
  debugTitle : ∀ s, s ≤ (w.debugTitle s).2
  turnstileToken : ∀ s, s ≤ (w.turnstileToken s).2
  isInterstitial : ∀ s, s ≤ (w.isInterstitial s).2
  clickTurnstile : ∀ s, s ≤ (w.clickTurnstile s).2
  time : ∀ s, s ≤ (w.time s).2
  sleep : ∀ seconds s, s ≤ w.sleep seconds s

section Forward

variable {ε σ : Type} [Preorder σ] {w : Watch ε σ} (forward : w.Forward) (deadline lastClick : ℚ)
include forward

theorem passEnd_forward (seen : List Seen) (s : σ) :
    s ≤ (passEnd w deadline lastClick seen s).2.2 := by
  have htime := forward.time s
  unfold passEnd
  dsimp only
  split
  next => exact htime
  next => exact htime.trans (forward.sleep ..)

theorem widgetPass_forward (seen : List Seen) (token : Option Text) (s : σ) :
    s ≤ (widgetPass w deadline lastClick seen token s).2.2 := by
  have hinterstitial := forward.isInterstitial s
  have htime := forward.time s
  have hclick := forward.clickTurnstile (w.time s).2
  unfold widgetPass
  dsimp only
  split
  next =>
    split
    next heq => rwa [heq] at hinterstitial
    next heq => rwa [heq] at hinterstitial
    next heq =>
      rw [heq] at hinterstitial
      exact hinterstitial.trans (passEnd_forward forward ..)
  next =>
    split
    next =>
      split
      next heq =>
        rw [heq] at hclick
        exact htime.trans hclick
      next heq =>
        rw [heq] at hclick
        exact (htime.trans hclick).trans ((forward.time _).trans (passEnd_forward forward ..))
      next heq =>
        rw [heq] at hclick
        exact (htime.trans hclick).trans (passEnd_forward forward ..)
    next => exact htime.trans (passEnd_forward forward ..)

theorem waitPass_forward (s : σ) : s ≤ (waitPass w deadline lastClick s).2.2 := by
  have hlook := forward.detectSettled s
  unfold waitPass
  split
  next heq => rwa [heq] at hlook
  next heq => rwa [heq] at hlook
  next m heq =>
    rw [heq] at hlook
    have htitle := forward.debugTitle m
    split
    next heq' =>
      rw [heq'] at htitle
      exact hlook.trans htitle
    next heq' =>
      rw [heq'] at htitle
      split
      next =>
        exact (hlook.trans htitle).trans
          ((forward.turnstileToken _).trans (widgetPass_forward forward ..))
      next => exact (hlook.trans htitle).trans (passEnd_forward forward ..)
  next m heq =>
    rw [heq] at hlook
    have hsleep := hlook.trans (forward.sleep challengeConfirmSeconds m)
    have hagain := forward.detectSettled (w.sleep challengeConfirmSeconds m)
    split
    next heq' =>
      rw [heq'] at hagain
      exact hsleep.trans hagain
    next heq' =>
      rw [heq'] at hagain
      exact (hsleep.trans hagain).trans (passEnd_forward forward ..)
    next heq' =>
      rw [heq'] at hagain
      exact hsleep.trans hagain

/-- **The wait only goes on** where each thing it does to the page goes on. -/
theorem waitUntilCleared_forward (fuel : ℕ) : ∀ (lastClick : ℚ) (s : σ),
    s ≤ (waitUntilCleared w deadline fuel lastClick s).2.2 := by
  induction fuel with
  | zero => exact fun _ s => le_refl s
  | succ fuel ih =>
    intro lastClick s
    have hpass := waitPass_forward forward deadline lastClick s
    unfold waitUntilCleared
    split
    next heq => rwa [heq] at hpass
    next heq =>
      rw [heq] at hpass
      exact hpass.trans (ih _ _)

end Forward

/-! ## What is accepted -/

/-- The page is accepted on two clear looks, or on a widget's token without the markup
of a full-page challenge. -/
def Accepts (seen : List Seen) : Prop :=
  (∃ before, looks seen = before ++ [.none, .none]) ∨
    ∃ before token, filled token = true ∧
      seen = before ++ [.look .challenge true, .token token, .interstitial false]

/-- The wait refuses what is denied and returns `True` only on what it may accept. -/
def SoundWait {ε : Type} (waited : Option (Waited ε)) (seen : List Seen) : Prop :=
  (.denied ∈ looks seen → waited = some .blocked) ∧ (waited = some .cleared → Accepts seen)

/-- A look that reads nothing is confirmed by one that reads denied. -/
def DeniedConfirm (seen : List Seen) : Prop := [.none, .denied] <:+: looks seen

theorem not_deniedConfirm {seen : List Seen} (clear : .denied ∉ looks seen) :
    ¬DeniedConfirm seen :=
  fun h => clear (h.subset (by simp))

/-- A denied look after a front confirms nothing. -/
theorem Front.not_deniedConfirm {front : List Seen} (h : Front front) (widget : Bool) :
    ¬DeniedConfirm (front ++ [.look .denied widget]) := by
  rintro ⟨before, after, heq⟩
  have hlooks : looks (front ++ [.look .denied widget]) = looks front ++ [.denied] := by
    simp [looks]
  rw [hlooks] at heq
  rcases List.eq_nil_or_concat after with rfl | ⟨after, last, rfl⟩
  · -- the look before the denied one would be the last of the front
    have hlast : before ++ [.none] = looks front := by
      simpa using congrArg List.dropLast heq
    rcases h.last with hnil | ⟨before', hchallenge⟩
    · simp [hnil] at hlast
    · have hkind := congrArg List.getLast? (hlast.trans hchallenge)
      simp at hkind
  · -- the denied look would be in the front
    rw [List.concat_eq_append, ← List.append_assoc] at heq
    have hfront : before ++ [.none, .denied] ++ after = looks front :=
      List.append_inj_left' heq rfl
    exact h.clear (hfront ▸ List.mem_append_left _ (List.mem_append_right _ (by simp)))

/-- **What the wait accepts.** Over any page, deadline and number of passes, the wait
refuses everything denied and accepts only a cleared page if and only if no look that
reads nothing is confirmed by one that reads denied. -/
theorem wait_sound_iff {ε σ : Type} (w : Watch ε σ) (deadline : ℚ) (fuel : ℕ) (s : σ) :
    let r := waitUntilCleared w deadline fuel 0 s
    SoundWait r.1 r.2.1 ↔ ¬DeniedConfirm r.2.1 := by
  intro r
  have hquiet : ∀ {waited : Option (Waited ε)} {seen : List Seen}, .denied ∉ looks seen →
      (waited = some .cleared → Accepts seen) → (SoundWait waited seen ↔ ¬DeniedConfirm seen) :=
    fun clear haccept => iff_of_true ⟨fun h => absurd h clear, haccept⟩ (not_deniedConfirm clear)
  have happend : ∀ {front seen : List Seen}, Front front → .denied ∉ looks seen →
      .denied ∉ looks (front ++ seen) := fun hfront clear => by
    rw [looks_append, List.mem_append, not_or]
    exact ⟨hfront.clear, clear⟩
  rcases wait_run w deadline fuel 0 s with
    ⟨hnone, hfront⟩ | ⟨front, seen, waited, hlog, hwaited, hfront, hend⟩
  · rw [show r.1 = none from hnone]
    exact hquiet hfront.clear (fun h => by cases h)
  · rw [show r.1 = some waited from hwaited, show r.2.1 = front ++ seen from hlog]
    cases hend with
    | denied widget =>
      exact iff_of_true ⟨fun _ => rfl, fun h => by cases h⟩ (hfront.not_deniedConfirm widget)
    | answered htoken =>
      exact hquiet (happend hfront (by simp [looks])) fun _ => .inr ⟨front, _, htoken, rfl⟩
    | @gone _ _ kind hkind =>
      cases kind with
      | challenge => exact absurd rfl hkind
      | denied =>
        refine iff_of_false (fun h => ?_) (not_not.mpr ⟨looks front, [], by simp [looks]⟩)
        exact absurd (h.1 (by simp [looks])) (by simp)
      | none =>
        refine hquiet (happend hfront (by simp [looks])) fun _ => .inl ⟨looks front, ?_⟩
        rw [looks_append]
        rfl
    | raised clear => exact hquiet (happend hfront clear) (fun h => by cases h)
    | expired clear => exact hquiet (happend hfront clear) (fun h => by cases h)

/-- A page that answers each look with the next of the readings. -/
def Watch.script : Watch Text (List Verdict) where
  detectSettled
    | [] => (.ok (.none, false), [])
    | kind :: kinds => (.ok (kind, false), kinds)
  debugTitle s := (.ok (), s)
  turnstileToken s := (none, s)
  isInterstitial s := (.ok false, s)
  clickTurnstile s := (.ok false, s)
  time s := (0, s)
  sleep _ s := s

/-- A page that turns out to be blocked on the confirming look is accepted. -/
theorem denied_confirm_accepted : ¬∀ (deadline : ℚ) (fuel : ℕ) (s : List Verdict),
    SoundWait (waitUntilCleared .script deadline fuel 0 s).1
      (waitUntilCleared .script deadline fuel 0 s).2.1 := by
  intro h
  have hblocked := (h 1 2 [.challenge, .none, .denied]).1 (by decide +kernel)
  exact absurd hblocked (by decide +kernel)

end Solverr.Engines
