import Mathlib.Order.MinMax
import Solverr.Lib.Strings

/-!
# The budget a request asks for

`_validate_max_timeout` makes a whole number of milliseconds of what the client sent: it
coerces with `int`, falls back to 60000 twice (for nothing, and for what reads as less
than 1), and clamps to the ceiling where there is one. `Budget` is what the rest of the
service relies on. The warning about a clamp is left out.

`int` can raise three exceptions and the `except` clause names two of them.
-/

namespace Solverr.Controller

open Solverr.Lib (Json Str Unicode IntError)

/-- `"Request parameter 'maxTimeout' must be a number of milliseconds."` -/
def notMilliseconds : Str :=
  .of "Request parameter 'maxTimeout' must be a number of milliseconds.".toList

/-- What leaves `_validate_max_timeout`: the exception it raises, or one of `int`'s. -/
inductive Escaped
  | exception (text : Str)
  | fromInt (error : IntError)
  deriving DecidableEq

/-- `if 0 < ceiling < value: value = ceiling` -/
def clamp (ceiling value : ℤ) : ℤ := if 0 < ceiling ∧ ceiling < value then ceiling else value

/-- `_validate_max_timeout(req)`, where `config.max_timeout_ms()` is `ceiling`: what
becomes of `req.maxTimeout`. A missing one is `null`. -/
def validateMaxTimeout (u : Unicode) (ceiling : ℤ) : Json → Except Escaped ℤ
  | .null => .ok (clamp ceiling 60000)
  | .bool _ => .error (.exception notMilliseconds)
  | value =>
    match value.toInt u with
    | .error .typeError | .error .valueError => .error (.exception notMilliseconds)
    | .error .overflowError => .error (.fromInt .overflowError)
    | .ok value =>
      if value < 1 then .ok (clamp ceiling 60000) else .ok (clamp ceiling value)

/-! ## What the service relies on -/

/-- A budget under a ceiling, where a ceiling that is not positive is none. -/
structure Budget (ceiling : ℤ) where
  milliseconds : ℤ
  pos : 1 ≤ milliseconds
  capped : 0 < ceiling → milliseconds ≤ ceiling

/-- The smaller of the ceiling and a number, with no ceiling the number. -/
def Budget.smaller (ceiling : ℤ) {n : ℤ} (hn : 1 ≤ n) : Budget ceiling where
  milliseconds := if 0 < ceiling then min ceiling n else n
  pos := by
    split
    next hceiling => exact le_min hceiling hn
    next => exact hn
  capped hceiling := by
    rw [if_pos hceiling]
    exact min_le_left ..

/-- The budget when nothing usable was asked for. -/
def Budget.default (ceiling : ℤ) : Budget ceiling :=
  .smaller ceiling (show (1 : ℤ) ≤ 60000 by decide)

/-- The code's clamp is the smaller of the two. -/
theorem clamp_eq (ceiling : ℤ) {n : ℤ} (hn : 1 ≤ n) :
    clamp ceiling n = (Budget.smaller ceiling hn).milliseconds := by
  unfold clamp Budget.smaller
  dsimp only
  split
  next h => rw [if_pos h.1, min_eq_left h.2.le]
  next h =>
    split
    next hceiling =>
      have hle : n ≤ ceiling := not_lt.mp fun hlt => h ⟨hceiling, hlt⟩
      rw [min_eq_right hle]
    next => rfl

/-! ## What is accepted -/

/-- What the budget is, when there is one: of a number that reads as 1 or more, the
smaller of the ceiling and that; of nothing, or a number below 1, the default. -/
inductive Granted (u : Unicode) (ceiling : ℤ) (asked : Json) : Budget ceiling → Prop
  | asked {n : ℤ} (reads : asked.toInt u = .ok n) (hn : 1 ≤ n) :
      Granted u ceiling asked (.smaller ceiling hn)
  | nothing (null : asked = .null) : Granted u ceiling asked (.default ceiling)
  | unusable {n : ℤ} (reads : asked.toInt u = .ok n) (hn : n < 1) :
      Granted u ceiling asked (.default ceiling)

/-- The request is left with a budget, or refused by the error that names the field; a
boolean and what cannot be read always are. -/
structure WellFormed (u : Unicode) (ceiling : ℤ) (asked : Json) : Prop where
  budget : ∀ v, validateMaxTimeout u ceiling asked = .ok v →
    ∃ b : Budget ceiling, v = b.milliseconds ∧ Granted u ceiling asked b
  refusal : ∀ escaped, validateMaxTimeout u ceiling asked = .error escaped →
    escaped = .exception notMilliseconds
  boolean : ∀ b, asked = .bool b → ∃ escaped, validateMaxTimeout u ceiling asked = .error escaped
  unreadable : asked ≠ .null → ∀ error, asked.toInt u = .error error →
    ∃ escaped, validateMaxTimeout u ceiling asked = .error escaped

/-- A value that is neither missing nor a boolean goes through `int`. -/
theorem validateMaxTimeout_toInt {u : Unicode} {ceiling : ℤ} {asked : Json}
    (hnull : asked ≠ .null) (hbool : ∀ b, asked ≠ .bool b) :
    validateMaxTimeout u ceiling asked =
      match asked.toInt u with
      | .error .typeError | .error .valueError => .error (.exception notMilliseconds)
      | .error .overflowError => .error (.fromInt .overflowError)
      | .ok value =>
        if value < 1 then .ok (clamp ceiling 60000) else .ok (clamp ceiling value) := by
  cases asked with
  | null => exact absurd rfl hnull
  | bool b => exact absurd rfl (hbool b)
  | int | double | str | list | obj => rfl

/-- What `int` reads is granted, or the default in its place. -/
theorem granted_of_reads {u : Unicode} {ceiling : ℤ} {asked : Json} {n v : ℤ}
    (hreads : asked.toInt u = .ok n)
    (hv : (if n < 1 then clamp ceiling 60000 else clamp ceiling n) = v) :
    ∃ b : Budget ceiling, v = b.milliseconds ∧ Granted u ceiling asked b := by
  split at hv
  next hlow =>
    refine ⟨.default ceiling, ?_, .unusable hreads hlow⟩
    rw [← hv]
    exact clamp_eq ceiling (by decide)
  next hhigh =>
    have hn : 1 ≤ n := not_lt.mp hhigh
    refine ⟨.smaller ceiling hn, ?_, .asked hreads hn⟩
    rw [← hv]
    exact clamp_eq ceiling hn

/-- **The budget is well-formed unless the client asks for an infinity.** -/
theorem maxTimeout_wellFormed_iff (u : Unicode) (ceiling : ℤ) (asked : Json) :
    WellFormed u ceiling asked ↔ ∀ negative, asked ≠ .double (.infinity negative) := by
  constructor
  · intro h negative hinfinity
    subst hinfinity
    -- `int` raises `OverflowError`, which the `except` clause does not name
    have hnamed := h.refusal (.fromInt .overflowError) rfl
    cases hnamed
  · intro hfinite
    have hoverflow : asked.toInt u ≠ .error .overflowError := fun h => by
      obtain ⟨negative, hinfinity⟩ := Lib.Json.toInt_overflow_iff.mp h
      exact hfinite negative hinfinity
    by_cases hnull : asked = .null
    · subst hnull
      refine ⟨?_, nofun, nofun, fun h => absurd rfl h⟩
      intro v hv
      refine ⟨.default ceiling, ?_, .nothing rfl⟩
      rw [← Except.ok.inj hv]
      exact clamp_eq ceiling (by decide)
    by_cases hbool : ∃ b, asked = .bool b
    · -- a boolean is refused before `int` could read it as a number
      obtain ⟨b, rfl⟩ := hbool
      refine ⟨nofun, ?_, fun _ _ => ⟨_, rfl⟩, fun _ _ _ => ⟨_, rfl⟩⟩
      intro escaped h
      exact (Except.error.inj h).symm
    -- what is left goes through `int`, which does not overflow
    have hcoerced := @validateMaxTimeout_toInt u ceiling asked hnull fun b hb => hbool ⟨b, hb⟩
    cases hreads : asked.toInt u with
    | error error =>
      rw [hreads] at hcoerced hoverflow
      have hrefused : validateMaxTimeout u ceiling asked = .error (.exception notMilliseconds) := by
        cases error with
        | overflowError => exact absurd rfl hoverflow
        | typeError | valueError => exact hcoerced
      refine ⟨?_, ?_, fun _ _ => ⟨_, hrefused⟩, fun _ _ _ => ⟨_, hrefused⟩⟩
      · intro v hv
        rw [hrefused] at hv
        cases hv
      · intro escaped h
        rw [hrefused] at h
        exact (Except.error.inj h).symm
    | ok n =>
      rw [hreads] at hcoerced
      have haccepted : validateMaxTimeout u ceiling asked
          = .ok (if n < 1 then clamp ceiling 60000 else clamp ceiling n) := by
        rw [hcoerced]
        dsimp only
        split <;> rfl
      refine ⟨?_, ?_, fun b hb => absurd ⟨b, hb⟩ hbool, ?_⟩
      · intro v hv
        exact granted_of_reads hreads (Except.ok.inj (haccepted.symm.trans hv))
      · intro escaped h
        rw [haccepted] at h
        cases h
      · intro _ error herror
        rw [hreads] at herror
        cases herror

/-- JSON as Python reads it has infinities, and one is no reason for `int` to say that it
is no number. -/
theorem infinite_maxTimeout_escapes :
    ¬ ∀ (ceiling : ℤ) (asked : Json), WellFormed .ascii ceiling asked := by
  intro h
  have hescaped := (h 180000 (.double (.infinity false))).refusal (.fromInt .overflowError) rfl
  cases hescaped

end Solverr.Controller
