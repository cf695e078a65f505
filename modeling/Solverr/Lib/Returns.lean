import Mathlib.Data.List.Forall2
import Mathlib.Data.Option.Basic

/-!
# Computations that may raise

`Returns x` says of a computation in `Except` that it has a value. A sequence of steps
returns exactly when each of them does, on what the ones before it gave.
-/

namespace Solverr.Lib

variable {ε α β γ : Type}

/-- The computation has a value; nothing is raised. -/
def Returns (x : Except ε α) : Prop := ∃ a, x = .ok a

@[simp] theorem returns_ok (a : α) : Returns (.ok a : Except ε α) := ⟨a, rfl⟩

@[simp] theorem returns_pure (a : α) : Returns (pure a : Except ε α) := ⟨a, rfl⟩

@[simp] theorem not_returns_error (e : ε) : ¬ Returns (.error e : Except ε α) :=
  fun ⟨_, h⟩ => nomatch h

/-- What a sequence of two steps gives. -/
theorem bind_eq_ok_iff {x : Except ε α} {f : α → Except ε β} {b : β} :
    (x >>= f) = .ok b ↔ ∃ a, x = .ok a ∧ f a = .ok b := by
  cases x with
  | error e => exact iff_of_false (fun h => nomatch h) fun ⟨_, h, _⟩ => nomatch h
  | ok a =>
    constructor
    · exact fun h => ⟨a, rfl, h⟩
    · rintro ⟨_, h, hf⟩
      exact Except.ok.inj h ▸ hf

/-- Steps in sequence. -/
theorem returns_bind_iff {x : Except ε α} {f : α → Except ε β} :
    Returns (x >>= f) ↔ ∃ a, x = .ok a ∧ Returns (f a) := by
  simp only [Returns, bind_eq_ok_iff]
  exact ⟨fun ⟨b, a, ha, hb⟩ => ⟨a, ha, b, hb⟩, fun ⟨a, ha, b, hb⟩ => ⟨b, a, ha, hb⟩⟩

theorem returns_map_iff {x : Except ε α} {f : α → β} : Returns (x.map f) ↔ Returns x := by
  cases x with
  | error e => exact iff_of_false (not_returns_error e) (not_returns_error e)
  | ok a => exact iff_of_true (returns_ok _) (returns_ok _)

/-- A step whose value is not looked at. -/
theorem map_const_eq_ok_iff {x : Except ε α} {b c : β} :
    (x.map fun _ => b) = .ok c ↔ Returns x ∧ b = c := by
  cases x with
  | error e => exact iff_of_false (fun h => nomatch h) fun h => not_returns_error e h.1
  | ok a => exact ⟨fun h => ⟨returns_ok a, Except.ok.inj h⟩, fun h => congrArg _ h.2⟩

/-! ## A step for each of a list -/

/-- What the steps give, one for one. -/
theorem mapM_eq_ok_iff {f : α → Except ε β} {l : List α} {out : List β} :
    l.mapM f = .ok out ↔ List.Forall₂ (fun a b => f a = .ok b) l out := by
  induction l generalizing out with
  | nil =>
    rw [List.forall₂_nil_left_iff]
    exact ⟨fun h => (Except.ok.inj h).symm, fun h => by rw [h]; rfl⟩
  | cons a l ih =>
    rw [List.mapM_cons, bind_eq_ok_iff, List.forall₂_cons_left_iff]
    constructor
    · rintro ⟨b, hb, h⟩
      obtain ⟨rest, hrest, hout⟩ := bind_eq_ok_iff.mp h
      exact ⟨b, rest, hb, ih.mp hrest, (Except.ok.inj hout).symm⟩
    · rintro ⟨b, rest, hb, hrest, rfl⟩
      exact ⟨b, hb, bind_eq_ok_iff.mpr ⟨rest, ih.mpr hrest, rfl⟩⟩

/-- **All of a list** go well where each one does. -/
theorem mapM_meets_iff {f : α → Except ε β} {R : α → β → Prop} {l : List α} :
    (∃ out, l.mapM f = .ok out ∧ List.Forall₂ R l out) ↔ ∀ a ∈ l, ∃ b, f a = .ok b ∧ R a b := by
  induction l with
  | nil => exact iff_of_true ⟨[], rfl, .nil⟩ nofun
  | cons a l ih =>
    rw [List.forall_mem_cons, ← ih]
    constructor
    · rintro ⟨out, hout, hall⟩
      obtain ⟨b, rest, hb, hrest, rfl⟩ := List.forall₂_cons_left_iff.mp (mapM_eq_ok_iff.mp hout)
      obtain ⟨hR, hall⟩ := List.forall₂_cons.mp hall
      exact ⟨⟨b, hb, hR⟩, rest, mapM_eq_ok_iff.mpr hrest, hall⟩
    · rintro ⟨⟨b, hb, hR⟩, rest, hrest, hall⟩
      exact ⟨b :: rest, mapM_eq_ok_iff.mpr (.cons hb (mapM_eq_ok_iff.mp hrest)), .cons hR hall⟩

/-- Two passes over a list, where each of it goes through both. -/
theorem mapM_mapM_meets {f : α → Except ε β} {g : β → Except ε γ} {R : α → γ → Prop}
    {l : List α} (h : ∀ a ∈ l, ∃ b c, f a = .ok b ∧ g b = .ok c ∧ R a c) :
    ∃ mid out, l.mapM f = .ok mid ∧ mid.mapM g = .ok out ∧ List.Forall₂ R l out := by
  induction l with
  | nil => exact ⟨[], [], rfl, rfl, .nil⟩
  | cons a l ih =>
    obtain ⟨⟨b, c, hb, hc, hR⟩, hrest⟩ := List.forall_mem_cons.mp h
    obtain ⟨mid, out, hmid, hout, hall⟩ := ih hrest
    refine ⟨b :: mid, c :: out, ?_, ?_, .cons hR hall⟩
    · exact mapM_eq_ok_iff.mpr (.cons hb (mapM_eq_ok_iff.mp hmid))
    · exact mapM_eq_ok_iff.mpr (.cons hc (mapM_eq_ok_iff.mp hout))

end Solverr.Lib
