import Mathlib.Algebra.Order.Field.Basic
import Mathlib.Algebra.BigOperators.Group.List.Basic
import Mathlib.Tactic.FieldSimp
import Mathlib.Tactic.Linarith
import Mathlib.Tactic.Positivity
import Mathlib.Tactic.Ring
import Solverr.Controller.Fallback

/-!
# The budget is shared

`deadline - now` is what is left of the budget; of it the next of `n` engines is
granted the `n`-th part. An engine that stays within its share leaves at least
that much for each engine behind it, so along a run the shares never shrink
below the first one: that is the invariant every bound here is read off.
-/

namespace Solverr.Controller

open Solverr.Lib (Text CaseMap)

variable {u : CaseMap} {deadline : ℚ} {i : ℕ} {order : List Engine} {now : ℚ} {c : Carried}
  {ended : Ended} {trials : List Trial}

/-- The time the trials took. -/
def timeSpent (trials : List Trial) : ℚ := (trials.map fun t => t.attempt.spent).sum

@[simp] theorem timeSpent_nil : timeSpent [] = 0 := rfl

@[simp] theorem timeSpent_cons (t : Trial) (trials : List Trial) :
    timeSpent (t :: trials) = t.attempt.spent + timeSpent trials := by
  simp [timeSpent]

/-- Every engine tried spent no more than its share. -/
def WithinShares (trials : List Trial) : Prop := ∀ t ∈ trials, t.attempt.spent ≤ t.share

/-- The share is the `n`-th part of what is left, for the last engine too. -/
theorem shareOf_eq (remaining : ℚ) (rest : List Engine) :
    shareOf remaining rest = remaining / ((rest.length : ℚ) + 1) := by
  unfold shareOf
  split
  next h => simp [List.isEmpty_iff.mp h]
  next => push_cast; rfl

/-- There is `s` seconds for each of the engines. -/
def Affords (remaining s : ℚ) (order : List Engine) : Prop := order.length * s ≤ remaining

namespace Affords

variable {remaining s spent : ℚ} {engine : Engine} {rest : List Engine}

/-- The share is then at least that much. -/
theorem share (h : Affords remaining s (engine :: rest)) : s ≤ shareOf remaining rest := by
  unfold Affords at h
  rw [List.length_cons] at h
  push_cast at h
  rw [shareOf_eq, le_div_iff₀ (by positivity)]
  linarith

/-- An engine within its share leaves as much for each of the engines behind it. -/
theorem next (h : Affords remaining s (engine :: rest)) (hspent : spent ≤ shareOf remaining rest) :
    Affords (remaining - spent) s rest := by
  have hs : (rest.length : ℚ) * s ≤ rest.length * shareOf remaining rest :=
    mul_le_mul_of_nonneg_left h.share (Nat.cast_nonneg _)
  have hwhole : remaining = (rest.length + 1) * shareOf remaining rest := by
    rw [shareOf_eq]
    field_simp
  unfold Affords
  linarith

theorem nonneg (h : Affords remaining 0 order) : 0 ≤ remaining := by
  unfold Affords at h
  rwa [mul_zero] at h

theorem of_nonneg (order : List Engine) (h : 0 ≤ remaining) : Affords remaining 0 order := by
  unfold Affords
  rwa [mul_zero]

end Affords

/-- The share of a trial that the loop made. -/
theorem Trial.share_of_made {t : Trial} {engine : Engine} {share : ℚ}
    (made : t = engine.trial share) : t.share = share := by
  rw [made]
  rfl

/-- The clock after a trial, as what is left of the budget. -/
theorem left_after (deadline now spent : ℚ) :
    deadline - (now + spent) = deadline - now - spent := by
  ring

/-- Every share is at least `s` when there is `s` for each engine of the plan. -/
theorem Tries.share_ge {s : ℚ} (h : Tries u deadline i order now c ended trials) :
    WithinShares trials → Affords (deadline - now) s order → ∀ t ∈ trials, s ≤ t.share := by
  induction h with
  | exhausted | spent => exact fun _ _ t ht => absurd ht List.not_mem_nil
  | clean _ made =>
    intro _ hs t ht
    obtain rfl := List.mem_singleton.mp ht
    exact hs.share.trans_eq (Trial.share_of_made made).symm
  | failed _ made _ _ ih =>
    intro hwithin hs
    obtain ⟨hspent, hwithin⟩ := List.forall_mem_cons.mp hwithin
    rw [Trial.share_of_made made] at hspent
    refine List.forall_mem_cons.mpr ⟨hs.share.trans_eq (Trial.share_of_made made).symm, ?_⟩
    exact ih hwithin (left_after .. ▸ hs.next hspent)

/-- The trials together stay within what was left at their start. -/
theorem Tries.timeSpent_le (h : Tries u deadline i order now c ended trials) :
    WithinShares trials → 0 ≤ deadline - now → timeSpent trials ≤ deadline - now := by
  induction h with
  | exhausted | spent => exact fun _ hr => hr
  | @clean _ engine rest now _ t _ _ made =>
    intro hwithin hr
    have hspent := hwithin t (List.mem_singleton_self t)
    rw [Trial.share_of_made made] at hspent
    have hleft := (Affords.of_nonneg (engine :: rest) hr).next hspent |>.nonneg
    rw [timeSpent_cons, timeSpent_nil]
    linarith
  | @failed _ engine rest now _ t _ _ _ made _ _ ih =>
    intro hwithin hr
    obtain ⟨hspent, hwithin⟩ := List.forall_mem_cons.mp hwithin
    rw [Trial.share_of_made made] at hspent
    have hleft := (Affords.of_nonneg (engine :: rest) hr).next hspent |>.nonneg
    have hrest := ih hwithin (left_after .. ▸ hleft)
    rw [timeSpent_cons]
    linarith

/-- With the least an engine needs for each of them, every engine is tried or an
earlier one cleared. -/
theorem Tries.reached (h : Tries u deadline i order now c ended trials) :
    WithinShares trials → Affords (deadline - now) minEngineSeconds order →
      trials.length = order.length ∨ ∃ t ∈ trials, t.clean u = true := by
  induction h with
  | exhausted => exact fun _ _ => Or.inl rfl
  | @spent _ _ rest _ _ later short =>
    intro _ hr
    have hmin : (0 : ℚ) ≤ rest.length * minEngineSeconds := by unfold minEngineSeconds; positivity
    unfold Affords at hr
    rw [List.length_cons] at hr
    push_cast at hr
    linarith
  | clean _ _ clean => exact fun _ _ => Or.inr ⟨_, List.mem_singleton_self _, clean⟩
  | failed _ made _ _ ih =>
    intro hwithin hr
    obtain ⟨hspent, hwithin⟩ := List.forall_mem_cons.mp hwithin
    rw [Trial.share_of_made made] at hspent
    rcases ih hwithin (left_after .. ▸ hr.next hspent) with hlen | ⟨s, hs, hclean⟩
    · exact Or.inl (congrArg (· + 1) hlen)
    · exact Or.inr ⟨s, List.mem_cons_of_mem _ hs, hclean⟩

/-- Where the `k`-th engine is tried, its share is cut from what the earlier ones
left, and past the first engine that is no less than the least an engine needs. -/
theorem Tries.granted (h : Tries u deadline i order now c ended trials) :
    ∀ (k : ℕ) (t : Trial), trials[k]? = some t →
      t.share = shareOf (deadline - now - timeSpent (trials.take k)) (order.drop (k + 1)) ∧
      (0 < i + k → minEngineSeconds ≤ deadline - now - timeSpent (trials.take k)) := by
  induction h with
  | exhausted | spent => exact fun k t ht => by simp at ht
  | clean enough made =>
    intro k t ht
    cases k with
    | zero =>
      obtain rfl := Option.some.inj ht
      exact ⟨by rw [made]; simp [Engine.trial], by simpa using enough⟩
    | succ k => simp at ht
  | @failed i _ _ now _ s _ _ enough made _ _ ih =>
    intro k t ht
    cases k with
    | zero =>
      obtain rfl := Option.some.inj ht
      exact ⟨by rw [made]; simp [Engine.trial], by simpa using enough⟩
    | succ k =>
      obtain ⟨hshare, hleast⟩ := ih k t ht
      have hnow : deadline - (now + s.attempt.spent) = deadline - now - s.attempt.spent := by ring
      rw [hnow, sub_sub (deadline - now)] at hshare hleast
      rw [List.take_succ_cons, timeSpent_cons]
      exact ⟨hshare, fun _ => hleast (by omega)⟩

/-- **The budget is split evenly.** If no engine tried overruns its share, every
share is at least the plan's even part, the engines together stay within the budget,
the last one of the plan is granted all that is unspent, and with five seconds for
each engine all of them are reached unless one clears. However the engines overrun,
none after the first is started with less than five seconds left. -/
theorem resolve_budget (u : CaseMap) {timeout : ℚ} (now : ℚ) (first : Engine)
    (rest : List Engine) (positive : 0 < timeout) :
    let n : ℚ := (first :: rest).length
    let trials := (resolve u timeout now (first :: rest)).2
    (WithinShares trials →
      (∀ t ∈ trials, timeout / n ≤ t.share) ∧
      timeSpent trials ≤ timeout ∧
      (∀ t, trials[rest.length]? = some t →
        t.share = timeout - timeSpent (trials.take rest.length)) ∧
      (5 * n ≤ timeout →
        trials.length = (first :: rest).length ∨ ∃ t ∈ trials, t.clean u = true)) ∧
    ∀ (k : ℕ) (t : Trial), 0 < k → trials[k]? = some t →
      5 ≤ timeout - timeSpent (trials.take k) := by
  intro n trials
  have htries : Tries u (now + timeout) 0 (first :: rest) now .none
      (resolve u timeout now (first :: rest)).1 trials := resolve_tries ..
  have hleft : now + timeout - now = timeout := add_sub_cancel_left now timeout
  refine ⟨fun hwithin => ⟨?_, ?_, ?_, ?_⟩, fun k t hk ht => ?_⟩
  · refine htries.share_ge hwithin ?_
    rw [hleft]
    exact (mul_div_cancel₀ timeout (Nat.cast_ne_zero.mpr (Nat.succ_ne_zero _))).le
  · exact (htries.timeSpent_le hwithin (hleft.symm ▸ positive.le)).trans_eq hleft
  · intro t ht
    have hshare := (htries.granted _ _ ht).1
    rw [hleft] at hshare
    simpa [shareOf] using hshare
  · intro hfive
    refine htries.reached hwithin ?_
    rw [hleft]
    exact (mul_comm _ _).trans_le hfive
  · have hleast := (htries.granted k t ht).2 (by omega)
    rwa [hleft] at hleast

/-- An engine that raises when its share is spent. -/
def timesOut (name : Text) : Engine := ⟨name, fun share => ⟨.error "timed out".toList, share⟩⟩

theorem resolve_budget_two :
    (resolve .ascii 60 0 [timesOut "stealth".toList, timesOut "chrome".toList]).2.length = 2 ∧
    timeSpent (resolve .ascii 60 0 [timesOut "stealth".toList, timesOut "chrome".toList]).2 ≤ 60 :=
  ⟨by decide +kernel,
    ((resolve_budget .ascii 0 (timesOut "stealth".toList) [timesOut "chrome".toList]
      (by norm_num)).1 (by unfold WithinShares; decide +kernel)).2.1⟩

end Solverr.Controller
