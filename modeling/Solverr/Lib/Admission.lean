import Mathlib.Data.Finset.Card

/-!
# First come, first admitted

A set has room for `cap` members, takes whoever asks while there is room, and never lets
a member go. A verdict `Stands` when the set still bears it out: who was admitted is a
member, and who was refused is none and found the set full. A set that only `Grows` within
its cap keeps every verdict standing (`Stands.grows`), because a full set that grows within
its cap is the same set; and no two verdicts about one element stand together.
-/

namespace Solverr.Lib

inductive Verdict
  | admitted
  | refused
  deriving DecidableEq

variable {α : Type} {cap : ℕ} {s s' s'' : Finset α} {x : α} {v v' : Verdict}

/-- Members stay, and the cap is kept. -/
structure Grows (cap : ℕ) (s s' : Finset α) : Prop where
  subset : s ⊆ s'
  within : s'.card ≤ cap

/-- What the set says of `x` today is what it said when it was asked. -/
def Stands (cap : ℕ) (s : Finset α) (x : α) : Verdict → Prop
  | .admitted => x ∈ s
  | .refused => cap ≤ s.card ∧ x ∉ s

/-- A full set does not grow. -/
theorem Grows.eq_of_full (h : Grows cap s s') (hfull : cap ≤ s.card) : s = s' :=
  Finset.eq_of_subset_of_card_le h.subset (h.within.trans hfull)

/-- **A verdict stands for good.** -/
theorem Stands.grows (h : Stands cap s x v) (hgrows : Grows cap s s') : Stands cap s' x v := by
  cases v with
  | admitted => exact hgrows.subset h
  | refused =>
    -- it was full, so it has not grown
    have hsame := hgrows.eq_of_full h.1
    exact hsame ▸ h

/-- Nobody is both admitted and refused. -/
theorem Stands.unique (h : Stands cap s x v) (h' : Stands cap s x v') : v = v' := by
  cases v with
  | admitted =>
    cases v' with
    | admitted => rfl
    | refused => exact absurd h h'.2
  | refused =>
    cases v' with
    | admitted => exact absurd h' h.2
    | refused => rfl

/-- There is room for one more. -/
theorem Grows.insert [DecidableEq α] (hroom : s.card < cap) (x : α) :
    Grows cap s (insert x s) where
  subset := Finset.subset_insert x s
  within := (Finset.card_insert_le x s).trans hroom

/-- Those who were ever admitted are no more than there is room for. -/
theorem card_admitted_le (hwithin : s.card ≤ cap) {t : Finset α}
    (h : ∀ x ∈ t, Stands cap s x .admitted) : t.card ≤ cap :=
  (Finset.card_le_card fun x hx => h x hx).trans hwithin

end Solverr.Lib
