import Mathlib.Order.Basic
import Solverr.Lib.Asking

/-!
# Programs along a course of events

The `n`-th operation of a program meets the `n`-th moment of a course of events,
whatever that is. `Along M ε α` is a program of such operations over moments of `M`. It
ends with a value, with an exception of `ε`, or not at all within its fuel.

A program may mark the moment it is at. The cursor only goes on, and a mark is only
ever set at a moment that the program meets: that is a field, so that what is read
later was met later.
-/

namespace Solverr.Lib

/-- Where a program stands: at which moment, and which it marked last. -/
structure Cursor where
  moment : ℕ
  mark : ℕ
  deriving DecidableEq

namespace Cursor

/-- The moments went on from `c` to `d`, and the mark stayed or was set on the way. -/
structure Before (c d : Cursor) : Prop where
  moment_le : c.moment ≤ d.moment
  mark : d.mark = c.mark ∨ c.moment ≤ d.mark ∧ d.mark < d.moment

theorem Before.refl (c : Cursor) : Before c c := ⟨Nat.le_refl _, .inl rfl⟩

theorem Before.trans {c d f : Cursor} (hcd : Before c d) (hdf : Before d f) : Before c f := by
  refine ⟨Nat.le_trans hcd.moment_le hdf.moment_le, ?_⟩
  rcases hdf.mark with heq | ⟨hle, hlt⟩
  · rcases hcd.mark with heq' | ⟨hle', hlt'⟩
    · exact .inl (heq.trans heq')
    · exact .inr ⟨heq ▸ hle', heq ▸ Nat.lt_of_lt_of_le hlt' hdf.moment_le⟩
  · exact .inr ⟨Nat.le_trans hcd.moment_le hle, hlt⟩

instance : Preorder Cursor where
  le := Before
  le_refl := Before.refl
  le_trans _ _ _ := Before.trans

/-- Before any operation. -/
def start : Cursor := ⟨0, 0⟩

/-- After one more operation. -/
def next (c : Cursor) : Cursor := ⟨c.moment + 1, c.mark⟩

/-- After one more operation, whose moment is marked. -/
def marked (c : Cursor) : Cursor := ⟨c.moment + 1, c.moment⟩

/-- After some more operations. -/
def skip (c : Cursor) (n : ℕ) : Cursor := ⟨c.moment + n, c.mark⟩

theorem le_next (c : Cursor) : c ≤ c.next := Before.mk (Nat.le_succ _) (.inl rfl)

theorem le_marked (c : Cursor) : c ≤ c.marked :=
  Before.mk (Nat.le_succ _) (.inr ⟨Nat.le_refl _, Nat.lt_succ_self _⟩)

theorem le_skip (c : Cursor) (n : ℕ) : c ≤ c.skip n := Before.mk (Nat.le_add_right ..) (.inl rfl)

theorem moment_le {c d : Cursor} (h : c ≤ d) : c.moment ≤ d.moment := Before.moment_le h

/-- A mark is never ahead. -/
theorem mark_le {c d : Cursor} (h : c ≤ d) (hc : c.mark ≤ c.moment) : d.mark ≤ d.moment := by
  rcases Before.mark h with heq | ⟨-, hlt⟩
  · exact heq ▸ Nat.le_trans hc (moment_le h)
  · exact Nat.le_of_lt hlt

end Cursor

/-- Why a program has no value: it raised, or it is still running. -/
inductive Stop (ε : Type)
  | raised (error : ε)
  | running

/-- A program along a course of events. -/
structure Along (M ε α : Type) where
  run : (ℕ → M) → Cursor → Except (Stop ε) α × Cursor
  forward : ∀ (e : ℕ → M) (c : Cursor), c ≤ (run e c).2

namespace Along

variable {M ε α β : Type}

/-- A value that takes no operation. -/
def value (a : α) : Along M ε α := ⟨fun _ c => (.ok a, c), fun _ _ => le_rfl⟩

def andThen (x : Along M ε α) (f : α → Along M ε β) : Along M ε β where
  run e c :=
    match x.run e c with
    | (.ok a, d) => (f a).run e d
    | (.error stop, d) => (.error stop, d)
  forward e c := by
    have hx := x.forward e c
    split
    next a d heq =>
      rw [heq] at hx
      exact hx.trans ((f a).forward e d)
    next heq => rwa [heq] at hx

instance : Monad (Along M ε) where
  pure := value
  bind := andThen

/-- Programs that run alike are the same. -/
theorem ext {x y : Along M ε α} (h : ∀ e c, x.run e c = y.run e c) : x = y := by
  obtain ⟨run, forward⟩ := x
  obtain ⟨run', forward'⟩ := y
  obtain rfl : run = run' := funext fun e => funext (h e)
  rfl

/-- Running one program after another, then another. -/
theorem andThen_assoc {γ : Type} (x : Along M ε α) (f : α → Along M ε β) (g : β → Along M ε γ) :
    (x.andThen f).andThen g = x.andThen fun a => (f a).andThen g := by
  refine ext fun e c => ?_
  unfold andThen
  dsimp only
  rcases x.run e c with ⟨_ | a, d⟩ <;> rfl

theorem andThen_value (x : Along M ε α) : x.andThen value = x := by
  refine ext fun e c => ?_
  unfold andThen value
  dsimp only
  rcases x.run e c with ⟨_ | a, d⟩ <;> rfl

instance : LawfulMonad (Along M ε) :=
  LawfulMonad.mk' _ andThen_value (fun _ _ => ext fun _ _ => rfl) andThen_assoc

/-- What an operation leads to. -/
def answered (answer : Except ε α) : Except (Stop ε) α :=
  answer.mapError .raised

/-- An operation, answered by the moment it meets. -/
def ask (f : M → Except ε α) : Along M ε α :=
  ⟨fun e c => (answered (f (e c.moment)), c.next), fun _ c => c.le_next⟩

/-- An operation that marks the moment it meets. -/
def askMarked (f : M → Except ε α) : Along M ε α :=
  ⟨fun e c => (answered (f (e c.moment)), c.marked), fun _ c => c.le_marked⟩

/-- Operations whose answers do not matter; how many depends on when they start. -/
def idle (n : ℕ → ℕ) : Along M ε Unit :=
  ⟨fun _ c => (.ok (), c.skip (n c.moment)), fun _ c => c.le_skip _⟩

/-- Which moment is next. -/
def moment : Along M ε ℕ := ⟨fun _ c => (.ok c.moment, c), fun _ _ => le_rfl⟩

def raise (error : ε) : Along M ε α := ⟨fun _ c => (.error (.raised error), c), fun _ _ => le_rfl⟩

/-- A loop that has used up its fuel. -/
def unfinished : Along M ε α := ⟨fun _ c => (.error .running, c), fun _ _ => le_rfl⟩

/-- `try: x except ...`, for the exceptions that `catches`. -/
def attempt (catches : ε → Bool) (x : Along M ε α) : Along M ε (Option α) where
  run e c :=
    match x.run e c with
    | (.ok a, d) => (.ok (some a), d)
    | (.error (.raised error), d) =>
      if catches error then (.ok none, d) else (.error (.raised error), d)
    | (.error .running, d) => (.error .running, d)
  forward e c := by
    have hx := x.forward e c
    split
    next heq => rwa [heq] at hx
    next heq =>
      rw [heq] at hx
      split <;> exact hx
    next heq => rwa [heq] at hx

/-- Try for a goal, and as many times more until it is reached. -/
def poll (goal : Along M ε Bool) : ℕ → Along M ε Bool
  | 0 => goal
  | n + 1 => do
    if ← goal then pure true else poll goal n

/-! ## What a program that ended did -/

variable {e : ℕ → M} {c d : Cursor}

theorem run_bind (x : Along M ε α) (f : α → Along M ε β) : (x >>= f).run e c =
    match x.run e c with
    | (.ok a, d) => (f a).run e d
    | (.error stop, d) => (.error stop, d) := rfl

/-- A program either stops before `f`, or goes on with `f`. -/
theorem bind_cases {x : Along M ε α} {f : α → Along M ε β} {r : Except (Stop ε) β}
    (h : (x >>= f).run e c = (r, d)) :
    (∃ stop, x.run e c = (.error stop, d) ∧ r = .error stop) ∨
      ∃ a m, x.run e c = (.ok a, m) ∧ (f a).run e m = (r, d) := by
  rw [run_bind] at h
  split at h
  next a m heq => exact .inr ⟨a, m, heq, h⟩
  next stop m heq =>
    obtain ⟨rfl, rfl⟩ := Prod.mk.inj h
    exact .inl ⟨stop, heq, rfl⟩

theorem bind_ok {x : Along M ε α} {f : α → Along M ε β} {b : β} :
    (x >>= f).run e c = (.ok b, d) ↔
      ∃ a m, x.run e c = (.ok a, m) ∧ (f a).run e m = (.ok b, d) := by
  rw [run_bind]
  constructor
  · intro h
    split at h
    next a m heq => exact ⟨a, m, heq, h⟩
    next => cases h
  · rintro ⟨a, m, hx, hf⟩
    simp only [hx, hf]

theorem pure_ok {a b : α} : (pure a : Along M ε α).run e c = (.ok b, d) ↔ b = a ∧ d = c := by
  show ((.ok a, c) : Except (Stop ε) α × Cursor) = _ ↔ _
  simp [eq_comm]

theorem answered_ok {answer : Except ε α} {a : α} : answered answer = .ok a ↔ answer = .ok a := by
  cases answer <;> simp [answered, Except.mapError]

theorem ask_ok {f : M → Except ε α} {a : α} :
    (ask f).run e c = (.ok a, d) ↔ f (e c.moment) = .ok a ∧ d = c.next := by
  show (answered (f (e c.moment)), c.next) = _ ↔ _
  rw [Prod.mk.injEq, answered_ok, eq_comm (a := d)]

/-- An operation that answers goes on with its answer. -/
theorem ask_bind_run {f : M → Except ε α} {g : α → Along M ε β} {a : α}
    (h : f (e c.moment) = .ok a) : (ask f >>= g).run e c = (g a).run e c.next := by
  have hask : (ask f).run e c = (.ok a, c.next) := ask_ok.mpr ⟨h, rfl⟩
  rw [run_bind, hask]

theorem moment_ok {n : ℕ} :
    (moment : Along M ε ℕ).run e c = (.ok n, d) ↔ n = c.moment ∧ d = c := by
  show ((.ok c.moment, c) : Except (Stop ε) ℕ × Cursor) = _ ↔ _
  simp [eq_comm]

theorem raise_ne_ok {error : ε} {a : α} : (raise error : Along M ε α).run e c ≠ (.ok a, d) :=
  fun h => by cases h

theorem unfinished_ne_ok {a : α} : (unfinished : Along M ε α).run e c ≠ (.ok a, d) :=
  fun h => by cases h

/-- What was tried for did not fail, or failed with an exception that is caught. -/
theorem attempt_ok {catches : ε → Bool} {x : Along M ε α} {o : Option α} :
    (attempt catches x).run e c = (.ok o, d) ↔
      (∃ a, o = some a ∧ x.run e c = (.ok a, d)) ∨
        o = none ∧ ∃ error, catches error = true ∧ x.run e c = (.error (.raised error), d) := by
  unfold attempt
  rcases hx : x.run e c with ⟨stop | a, m⟩
  · cases stop with
    | raised error =>
      by_cases hcatch : catches error = true
      · simp only [hx, hcatch, Prod.mk.injEq]
        grind
      · simp only [hx, hcatch, Prod.mk.injEq]
        grind
    | running => simp [hx]
  · simp only [hx, Prod.mk.injEq, Except.ok.injEq]
    grind

theorem forward_ok {x : Along M ε α} {a : α} (h : x.run e c = (.ok a, d)) : c ≤ d := by
  have hx := x.forward e c
  rwa [h] at hx

/-- A program that begins with `x` goes on from where `x` ended. -/
theorem forward_bind (x : Along M ε α) (f : α → Along M ε β) :
    (x.run e c).2 ≤ ((x >>= f).run e c).2 := by
  rw [run_bind]
  split
  next a m heq => exact heq ▸ (f a).forward e m
  next heq => exact heq ▸ le_rfl

/-- A goal that was reached was reached at some try. -/
theorem poll_true {goal : Along M ε Bool} : ∀ {n : ℕ} {c : Cursor},
    (poll goal n).run e c = (.ok true, d) → ∃ m, c ≤ m ∧ goal.run e m = (.ok true, d)
  | 0, c, h => ⟨c, le_rfl, h⟩
  | n + 1, c, h => by
    obtain ⟨reached, m, hgoal, hrest⟩ := bind_ok.mp h
    cases reached with
    | true => exact ⟨c, le_rfl, (pure_ok.mp hrest).2 ▸ hgoal⟩
    | false =>
      obtain ⟨m', hle, hlast⟩ := poll_true hrest
      exact ⟨m', (forward_ok hgoal).trans hle, hlast⟩

/-! ## Programs that mark nothing -/

/-- The mark stays where it is, however the program ends. -/
def Unmarked (x : Along M ε α) : Prop := ∀ e c, (x.run e c).2.mark = c.mark

namespace Unmarked

theorem pure {a : α} : Unmarked (Pure.pure a : Along M ε α) := fun _ _ => rfl

theorem bind {x : Along M ε α} {f : α → Along M ε β} (hx : Unmarked x)
    (hf : ∀ a, Unmarked (f a)) : Unmarked (x >>= f) := by
  intro e c
  rw [run_bind]
  have hmark := hx e c
  split
  next a m heq =>
    rw [heq] at hmark
    exact (hf a e m).trans hmark
  next heq => rwa [heq] at hmark

theorem ask {f : M → Except ε α} : Unmarked (ask f) := fun _ _ => rfl

theorem idle {n : ℕ → ℕ} : Unmarked (idle n : Along M ε Unit) := fun _ _ => rfl

theorem attempt {catches : ε → Bool} {x : Along M ε α} (hx : Unmarked x) :
    Unmarked (attempt catches x) := by
  intro e c
  have hmark := hx e c
  unfold Along.attempt
  dsimp only
  split
  next heq => rwa [heq] at hmark
  next heq =>
    rw [heq] at hmark
    split <;> exact hmark
  next heq => rwa [heq] at hmark

/-- A program that marks nothing ends with the mark it began with. -/
theorem mark_eq {x : Along M ε α} (hx : Unmarked x) {a : α} (h : x.run e c = (.ok a, d)) :
    d.mark = c.mark := by
  have hmark := hx e c
  rwa [h] at hmark

end Unmarked

/-! ## Programs that end -/

/-- The program ends, with a value or an exception, wherever it starts. -/
def Ends (x : Along M ε α) : Prop := ∀ e c, (x.run e c).1 ≠ .error .running

namespace Ends

theorem pure {a : α} : Ends (Pure.pure a : Along M ε α) := fun _ _ h => by cases h

theorem ask {f : M → Except ε α} : Ends (ask f) := by
  intro e c h
  change answered (f (e c.moment)) = _ at h
  cases hf : f (e c.moment) <;> simp [hf, answered, Except.mapError] at h

theorem bind {x : Along M ε α} {f : α → Along M ε β} (hx : Ends x) (hf : ∀ a, Ends (f a)) :
    Ends (x >>= f) := by
  intro e c
  rw [run_bind]
  have hend := hx e c
  split
  next a d heq => exact hf a e d
  next stop d heq =>
    rw [heq] at hend
    exact fun h => hend (by rw [Except.error.inj h])

theorem attempt {catches : ε → Bool} {x : Along M ε α} (hx : Ends x) :
    Ends (attempt catches x) := by
  intro e c
  have hend := hx e c
  unfold Along.attempt
  dsimp only
  split
  next => exact fun h => by cases h
  next => split <;> exact fun h => by cases h
  next d heq => exact absurd (congrArg Prod.fst heq) hend

end Ends

/-! ## Driving a program that asks -/

section Driven

variable {Q : Type} {A : Q → Type} {handle : (q : Q) → Along M ε (A q)}

theorem driven_put {q : Q} : ((Asking.put q).run handle).run e c = (handle q).run e c := by
  show (handle q >>= fun a => Pure.pure a).run e c = _
  rw [run_bind]
  split
  next heq => exact heq.symm
  next heq => exact heq.symm

theorem driven_put_ok {q : Q} {a : A q} (h : ((Asking.put q).run handle).run e c = (.ok a, d)) :
    (handle q).run e c = (.ok a, d) := driven_put ▸ h

theorem driven_bind_ok {f : α → Asking Q A β} {b : β} : ∀ {x : Asking Q A α} {c : Cursor},
    ((x >>= f).run handle).run e c = (.ok b, d) ↔
      ∃ a m, (x.run handle).run e c = (.ok a, m) ∧ ((f a).run handle).run e m = (.ok b, d)
  | .done a, c => by
    show ((f a).run handle).run e c = (.ok b, d) ↔
      ∃ a' m, (Pure.pure a : Along M ε α).run e c = (.ok a', m) ∧ _
    constructor
    · exact fun h => ⟨a, c, rfl, h⟩
    · rintro ⟨a', m, ha, h⟩
      obtain ⟨rfl, rfl⟩ := pure_ok.mp ha
      exact h
  | .ask q next, c => by
    show (handle q >>= fun answer => (next answer >>= f).run handle).run e c = _ ↔
      ∃ a m, (handle q >>= fun answer => (next answer).run handle).run e c = _ ∧ _
    simp only [bind_ok, driven_bind_ok (x := next _)]
    constructor
    · rintro ⟨answer, m, hq, a, m', hnext, hf⟩
      exact ⟨a, m', ⟨answer, m, hq, hnext⟩, hf⟩
    · rintro ⟨a, m', ⟨answer, m, hq, hnext⟩, hf⟩
      exact ⟨answer, m, hq, a, m', hnext, hf⟩

/-- A result has what every result of the program has. -/
theorem driven_always {P : α → Prop} {a : α} : ∀ {x : Asking Q A α} {c : Cursor},
    x.Always P → (x.run handle).run e c = (.ok a, d) → P a
  | .done b, c, hx, h => (pure_ok.mp h).1 ▸ hx
  | .ask q next, c, hx, h => by
    obtain ⟨answer, m, -, hnext⟩ := bind_ok.mp h
    exact driven_always (hx answer) hnext

theorem Unmarked.driven (hhandle : ∀ q, Unmarked (handle q)) :
    ∀ x : Asking Q A α, Unmarked (x.run handle)
  | .done _ => pure
  | .ask q next => (hhandle q).bind fun a => Unmarked.driven hhandle (next a)

end Driven

end Along

end Solverr.Lib
