import Solverr.Lib.Run

/-!
# A machine with a record beside it

A record is written down as the machine goes, and no step reads it. So a fact about
what happened on the way, which the state alone does not show, is an invariant of
`annotated`; and every run of the machine is the run of an annotated one
(`Run.annotate`), whatever is written down.
-/

namespace Solverr.Lib

variable {σ α ρ : Type}

/-- The machine, with `note` written down before every step. -/
def annotated (step : σ → α → Option σ) (note : σ → α → ρ → ρ) (x : σ × ρ) (a : α) :
    Option (σ × ρ) :=
  (step x.1 a).map fun s => (s, note x.1 a x.2)

variable {step : σ → α → Option σ} {note : σ → α → ρ → ρ} {x x' : σ × ρ} {a : α}

theorem annotated_iff : annotated step note x a = some x' ↔
    step x.1 a = some x'.1 ∧ x'.2 = note x.1 a x.2 := by
  unfold annotated
  rw [Option.map_eq_some_iff]
  constructor
  · rintro ⟨s, hs, rfl⟩
    exact ⟨hs, rfl⟩
  · intro ⟨hs, hnote⟩
    exact ⟨x'.1, hs, Prod.ext rfl hnote.symm⟩

/-- The record can be kept along any run. -/
theorem Run.annotate {s s' : σ} (h : Run step Any s s') (r : ρ) :
    ∃ r', Run (annotated step note) Any (s, r) (s', r') := by
  induction h with
  | refl => exact ⟨r, .refl _⟩
  | tail _ _ hs ih =>
    obtain ⟨r', hrun⟩ := ih
    exact ⟨_, hrun.tail trivial (annotated_iff.mpr ⟨hs, rfl⟩)⟩

end Solverr.Lib
