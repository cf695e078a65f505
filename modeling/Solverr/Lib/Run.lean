import Mathlib.Logic.Relation

/-!
# Guarded runs of a labelled machine

A machine is its step function: `step s a` is the state after action `a`, or
`none` where `a` cannot happen in `s`. A `Run step G` is a finite run all of
whose steps satisfy the guard `G`, a condition on the state before the step and
the action taken; `Any` is the guard that allows everything.

The two induction rules are proved once here: `Run.invariant` (what every
guarded step preserves holds along the run) and `Run.simulates` (what every
guarded step can be matched by in an abstract machine is matched by the run).
`exec` runs an explicit list of actions under a test, so that a concrete guarded
run can be computed.
-/

namespace Solverr.Lib

variable {σ α τ : Type}

/-- The guard that allows every step. -/
def Any (_ : σ) (_ : α) : Prop := True

/-- A finite run of `step` whose every step satisfies `G` beforehand. -/
inductive Run (step : σ → α → Option σ) (G : σ → α → Prop) : σ → σ → Prop
  | refl (s : σ) : Run step G s s
  | tail {s s' s'' : σ} {a : α} : Run step G s s' → G s' a → step s' a = some s'' →
      Run step G s s''

namespace Run

variable {step : σ → α → Option σ} {G H : σ → α → Prop} {s s' s'' : σ}

theorem trans (h₁ : Run step G s s') (h₂ : Run step G s' s'') : Run step G s s'' := by
  induction h₂ with
  | refl => exact h₁
  | tail _ hg hs ih => exact .tail ih hg hs

/-- **Invariant rule.** What every guarded step preserves holds in every state
the run reaches. -/
theorem invariant {I : σ → Prop}
    (hstep : ∀ s a s', I s → G s a → step s a = some s' → I s')
    (h : Run step G s s') (h0 : I s) : I s' := by
  induction h with
  | refl => exact h0
  | tail _ hg hs ih => exact hstep _ _ _ ih hg hs

/-- A run may be replayed under any guard its own guard implies along the way. -/
theorem weaken {I : σ → Prop}
    (hstep : ∀ s a s', I s → G s a → step s a = some s' → I s')
    (hG : ∀ s a, I s → G s a → H s a)
    (h : Run step G s s') (h0 : I s) : Run step H s s' := by
  induction h with
  | refl => exact .refl _
  | tail h' hg hs ih => exact .tail ih (hG _ _ (invariant hstep h' h0) hg) hs

/-- **Simulation rule.** If every guarded step from related states can be matched
by a path of the abstract relation, so can the whole run. -/
theorem simulates {R : σ → τ → Prop} {abs : τ → τ → Prop}
    (hstep : ∀ s a s' c, R s c → G s a → step s a = some s' →
      ∃ c', Relation.ReflTransGen abs c c' ∧ R s' c')
    {c : τ} (h : Run step G s s') (h0 : R s c) :
    ∃ c', Relation.ReflTransGen abs c c' ∧ R s' c' := by
  induction h with
  | refl => exact ⟨c, .refl, h0⟩
  | tail _ hg hs ih =>
    obtain ⟨c₁, hp₁, hR₁⟩ := ih
    obtain ⟨c₂, hp₂, hR₂⟩ := hstep _ _ _ _ hR₁ hg hs
    exact ⟨c₂, hp₁.trans hp₂, hR₂⟩

end Run

/-- Take the listed actions one after the other, each tested beforehand. -/
def exec (step : σ → α → Option σ) (test : σ → α → Bool) : σ → List α → Option σ
  | s, [] => some s
  | s, a :: as => if test s a then (step s a).bind fun s' => exec step test s' as else none

/-- An executed list of actions is a run, guarded by what the test decides. -/
theorem Run.of_exec {step : σ → α → Option σ} {test : σ → α → Bool} {G : σ → α → Prop}
    (htest : ∀ s a, test s a = true → G s a) :
    ∀ {as : List α} {s s' : σ}, exec step test s as = some s' → Run step G s s'
  | [], s, s', h => by
    obtain rfl := Option.some.inj h
    exact .refl _
  | a :: as, s, s', h => by
    rw [exec] at h
    split at h
    next ht =>
      obtain ⟨s₁, h₁, h₂⟩ := Option.bind_eq_some_iff.mp h
      exact (Run.tail (.refl s) (htest s a ht) h₁).trans (Run.of_exec htest h₂)
    next => cases h

/-- A decidable fact about the state a computed run ends in. -/
theorem Run.of_exec_test {step : σ → α → Option σ} {test : σ → α → Bool} {G : σ → α → Prop}
    (htest : ∀ s a, test s a = true → G s a) {s : σ} (as : List α) {P : σ → Prop}
    [DecidablePred P] (h : (exec step test s as).any (fun s' => decide (P s')) = true) :
    ∃ s', Run step G s s' ∧ P s' := by
  cases he : exec step test s as with
  | none => rw [he] at h; simp at h
  | some s' =>
    rw [he] at h
    exact ⟨s', .of_exec htest he, by simpa using h⟩

/-- The same for a run without a guard. -/
theorem Run.of_exec_any {step : σ → α → Option σ} {s : σ} (as : List α) {P : σ → Prop}
    [DecidablePred P]
    (h : (exec step (fun _ _ => true) s as).any (fun s' => decide (P s')) = true) :
    ∃ s', Run step Any s s' ∧ P s' :=
  Run.of_exec_test (fun _ _ _ => trivial) as h

end Solverr.Lib
