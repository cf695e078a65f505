import Mathlib.Logic.Function.Basic
import Mathlib.Logic.Relation
import Mathlib.Data.List.Nodup

/-!
# Custody of one-shot resources

Resources that are acquired once, handed between holders and a keyed store, and
disposed of once. A `Ledger` says where every resource is; the only moves are

    absent → held h → stored k → held h' → … → spent

so a ledger that evolves by `Step` disposes of a resource once and for good. A
program that keeps such resources refines this machine when each of its steps is a
path of `Step`s.
-/

namespace Solverr.Lib

/-- Where a resource is. -/
inductive Place (H K : Type)
  | absent
  | held (h : H)
  | stored (k : K)
  | spent
  deriving DecidableEq

/-- The place of every resource. -/
abbrev Ledger (α H K : Type) := α → Place H K

namespace Ledger

variable {α H K : Type} [DecidableEq α]

/-- One resource moves along its life. -/
inductive Step : Ledger α H K → Ledger α H K → Prop
  | acquire {c : Ledger α H K} {a : α} (h : H) : c a = .absent →
      Step c (Function.update c a (.held h))
  | store {c : Ledger α H K} {a : α} {h : H} (k : K) : c a = .held h → (∀ b, c b ≠ .stored k) →
      Step c (Function.update c a (.stored k))
  | take {c : Ledger α H K} {a : α} {k : K} (h : H) : c a = .stored k →
      Step c (Function.update c a (.held h))
  | spend {c : Ledger α H K} {a : α} {h : H} : c a = .held h →
      Step c (Function.update c a .spent)

/-- Any number of moves. -/
abbrev Steps : Ledger α H K → Ledger α H K → Prop := Relation.ReflTransGen Step

/-- A spent resource stays spent. -/
theorem Steps.spent_final {c c' : Ledger α H K} (h : Steps c c') {a : α} (ha : c a = .spent) :
    c' a = .spent := by
  induction h with
  | refl => exact ha
  | tail _ hs ih =>
    cases hs with
    | acquire _ hb | store _ hb _ | take _ hb | spend hb =>
      rw [Function.update_of_ne, ih]
      rintro rfl
      rw [ih] at hb
      cases hb

/-- Hand every resource of `l` to `h`. -/
def takeAll (c : Ledger α H K) (h : H) (l : List α) : Ledger α H K :=
  fun a => if a ∈ l then .held h else c a

/-- Taking distinct stored resources one by one is a path. -/
theorem steps_takeAll (h : H) :
    ∀ (l : List α) (c : Ledger α H K), l.Nodup → (∀ a ∈ l, ∃ k, c a = .stored k) →
      Steps c (takeAll c h l) := by
  intro l
  induction l with
  | nil =>
    intro c _ _
    have hnil : takeAll c h [] = c := funext fun a => if_neg (List.not_mem_nil)
    exact hnil ▸ .refl
  | cons a l ih =>
    intro c hl hst
    rw [List.nodup_cons] at hl
    obtain ⟨k, hk⟩ := hst a (List.mem_cons_self ..)
    have hrest : ∀ b ∈ l, ∃ k, Function.update c a (.held h) b = .stored k := by
      intro b hb
      have hba : b ≠ a := fun he => hl.1 (he ▸ hb)
      rw [Function.update_of_ne hba]
      exact hst b (List.mem_cons_of_mem _ hb)
    have heq : takeAll (Function.update c a (.held h)) h l = takeAll c h (a :: l) := by
      funext b
      by_cases hb : b ∈ l
      · simp [takeAll, hb]
      · by_cases hba : b = a
        · simp [takeAll, hba]
        · simp [takeAll, hb, hba]
    rw [← heq]
    exact .head (.take h hk) (ih _ hl.2 hrest)

end Ledger

end Solverr.Lib
