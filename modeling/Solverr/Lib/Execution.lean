import Mathlib.Data.List.GetD
import Mathlib.Order.Interval.Finset.Nat
import Mathlib.Order.WellFounded
import Solverr.Lib.Run

/-!
# Executions that go on for ever

A `Run` is finite, and so says nothing of what is never done. An `Execution` goes on for
ever, and what it always comes to is its liveness.

- `Execution.comes_to_rest`: what goes down a well-founded order with every step of its
  own, and up only from rest, comes to rest as long as it keeps taking steps.
- `Execution.spent`: and it takes no more such steps than its rank, where that is a number.
- `Execution.turns`: what held and no longer does stopped holding at some one step.
-/

namespace Solverr.Lib

variable {σ α ω : Type} {step : σ → α → Option σ}

/-- An execution of the machine, step by step. -/
structure Execution (step : σ → α → Option σ) where
  state : ℕ → σ
  act : ℕ → α
  next : ∀ n, step (state n) (act n) = some (state (n + 1))

namespace Execution

variable (x : Execution step)

/-- Every part of an execution is a run. -/
theorem run {m n : ℕ} (h : m ≤ n) : Run step Any (x.state m) (x.state n) := by
  induction n, h using Nat.le_induction with
  | base => exact .refl _
  | succ n _ ih => exact ih.tail trivial (x.next n)

/-- **Rule of rest.** `own` are the steps that go down. As long as one of them is still
taken wherever there is no rest, there is rest again and again. -/
theorem comes_to_rest [Preorder ω] [WellFoundedLT ω] (rank : σ → ω) (rest : σ → Prop)
    (own : ℕ → Prop)
    (hle : ∀ n, ¬ rest (x.state n) → rank (x.state (n + 1)) ≤ rank (x.state n))
    (hlt : ∀ n, ¬ rest (x.state n) → own n → rank (x.state (n + 1)) < rank (x.state n))
    (hfair : ∀ n, ¬ rest (x.state n) → ∃ k, n ≤ k ∧ own k) (m : ℕ) :
    ∃ n, m ≤ n ∧ rest (x.state n) := by
  by_contra hnever
  have hno : ∀ n, m ≤ n → ¬ rest (x.state n) := fun n hn hrest => hnever ⟨n, hn, hrest⟩
  have hdown : ∀ n k, m ≤ n → n ≤ k → rank (x.state k) ≤ rank (x.state n) := by
    intro n k hn hk
    induction k, hk using Nat.le_induction with
    | base => exact le_refl _
    | succ k hk ih => exact (hle k (hno k (Nat.le_trans hn hk))).trans ih
  -- the lowest rank that is ever reached is lowered once more
  let reached : Set ω := {r | ∃ n, m ≤ n ∧ rank (x.state n) = r}
  have hsome : reached.Nonempty := ⟨_, m, Nat.le_refl m, rfl⟩
  obtain ⟨n, hn, hlowest⟩ := wellFounded_lt.min_mem reached hsome
  obtain ⟨k, hk, hown⟩ := hfair n (hno n hn)
  have hm : m ≤ k := Nat.le_trans hn hk
  have hlower : rank (x.state (k + 1)) < rank (x.state n) :=
    (hlt k (hno k hm) hown).trans_le (hdown n k hn hk)
  rw [hlowest] at hlower
  exact wellFounded_lt.not_lt_min reached ⟨k + 1, Nat.le_succ_of_le hm, rfl⟩ hlower

/-- Where the rank is a number, it is spent on the steps that go down. -/
theorem spent (rank : σ → ℕ) (rest : σ → Prop) (own : ℕ → Prop) [DecidablePred own]
    (hle : ∀ n, ¬ rest (x.state n) → rank (x.state (n + 1)) ≤ rank (x.state n))
    (hlt : ∀ n, ¬ rest (x.state n) → own n → rank (x.state (n + 1)) < rank (x.state n))
    {m n : ℕ} (hmn : m ≤ n) (hbusy : ∀ k, m ≤ k → k < n → ¬ rest (x.state k)) :
    ((Finset.Ico m n).filter own).card + rank (x.state n) ≤ rank (x.state m) := by
  induction n, hmn using Nat.le_induction with
  | base => simp
  | succ n hmn ih =>
    have hbefore := ih fun k hk hkn => hbusy k hk (Nat.lt_succ_of_lt hkn)
    have hn := hbusy n hmn (Nat.lt_succ_self n)
    have hlast := hle n hn
    rw [Nat.Ico_succ_right_eq_insert_Ico hmn, Finset.filter_insert]
    split
    next hown =>
      have hlower := hlt n hn hown
      rw [Finset.card_insert_of_notMem (by simp)]
      omega
    next => omega

/-- What holds and later does not stops holding at one step. -/
theorem turns {P : σ → Prop} {m n : ℕ} (hmn : m ≤ n) (hm : P (x.state m))
    (hn : ¬ P (x.state n)) : ∃ k, m ≤ k ∧ P (x.state k) ∧ ¬ P (x.state (k + 1)) := by
  by_contra hnever
  refine hn ?_
  induction n, hmn using Nat.le_induction with
  | base => exact hm
  | succ n hmn ih =>
    by_contra hafter
    have hbefore : ¬ ¬ P (x.state n) := fun hnot => hnot (ih hnot)
    exact hnever ⟨n, hmn, not_not.mp hbefore, hafter⟩

end Execution

/-! ## An execution that is listed -/

/-- One list of actions after another. -/
theorem exec_append (s : σ) (as bs : List α) : exec step (fun _ _ => true) s (as ++ bs) =
    (exec step (fun _ _ => true) s as).bind fun s' => exec step (fun _ _ => true) s' bs := by
  induction as generalizing s with
  | nil => rfl
  | cons a as ih =>
    show (step s a).bind (fun s' => exec step (fun _ _ => true) s' (as ++ bs)) = _
    simp only [ih]
    exact (Option.bind_assoc _ _ _).symm

theorem exec_singleton (s : σ) (a : α) : exec step (fun _ _ => true) s [a] = step s a :=
  Option.bind_fun_some (step s a)

namespace Execution

variable {s s' : σ} {as : List α} {a : α}

/-- The listed actions, and then the last one for ever, which changes nothing. -/
def listed (h : exec step (fun _ _ => true) s as = some s') (hlast : step s' a = some s') :
    Execution step where
  state n := (exec step (fun _ _ => true) s (as.take n)).getD s'
  act n := as.getD n a
  next n := by
    by_cases hn : n < as.length
    · have hsplit := @exec_append _ _ step s (as.take n) (as.drop n)
      rw [List.take_append_drop, h] at hsplit
      obtain ⟨r, hr, hrest⟩ := Option.bind_eq_some_iff.mp hsplit.symm
      rw [List.drop_eq_getElem_cons hn] at hrest
      obtain ⟨r', hr', -⟩ := Option.bind_eq_some_iff.mp hrest
      rw [List.take_succ_eq_append_getElem hn, exec_append, hr, List.getD_eq_getElem _ _ hn]
      show step r as[n] = some ((exec step (fun _ _ => true) r [as[n]]).getD s')
      rw [exec_singleton, hr']
      rfl
    · have hle := Nat.le_of_not_lt hn
      rw [List.take_of_length_le hle, List.take_of_length_le (Nat.le_succ_of_le hle), h,
        List.getD_eq_default _ _ hle]
      exact hlast

theorem listed_zero (h : exec step (fun _ _ => true) s as = some s')
    (hlast : step s' a = some s') : (listed h hlast).state 0 = s := rfl

theorem listed_last (h : exec step (fun _ _ => true) s as = some s')
    (hlast : step s' a = some s') {n : ℕ} (hn : as.length ≤ n) :
    (listed h hlast).state n = s' := by
  show (exec step (fun _ _ => true) s (as.take n)).getD s' = s'
  rw [List.take_of_length_le hn, h]
  rfl

/-- What holds of every listed action and of the last one holds of all. -/
theorem listed_act {P : α → Prop} (h : exec step (fun _ _ => true) s as = some s')
    (hlast : step s' a = some s') (hall : ∀ b ∈ as, P b) (ha : P a) (n : ℕ) :
    P ((listed h hlast).act n) := by
  show P (as.getD n a)
  by_cases hn : n < as.length
  · rw [List.getD_eq_getElem _ _ hn]
    exact hall _ (List.getElem_mem hn)
  · rw [List.getD_eq_default _ _ (Nat.le_of_not_lt hn)]
    exact ha

end Execution

end Solverr.Lib
