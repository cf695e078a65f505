import Mathlib.Logic.Basic

/-!
# Procedures that raise and clean up

A procedure works on a state and returns or raises; the state it leaves is there either
way. `handling` is `try … except`, `cleaning` is `try … finally`.

`Meets P m Q E` is the contract of a procedure: begun where `P` holds, it returns where
`Q` holds or raises where `E` holds. There is one rule for each way to put procedures
together, and the contract of a whole body is read off its text with them.
-/

namespace Solverr.Lib

variable {σ ε ε' α β : Type}

/-- A procedure on the state `σ`: what it returns or raises, and the state it leaves. -/
def Procedure (σ ε α : Type) : Type := σ → Except ε α × σ

namespace Procedure

instance : Monad (Procedure σ ε) where
  pure a := fun s => (.ok a, s)
  bind m f := fun s =>
    match m s with
    | (.ok a, s') => f a s'
    | (.error e, s') => (.error e, s')

/-- Raise, and leave the state alone. -/
def raise (e : ε) : Procedure σ ε α := fun s => (.error e, s)

/-- Change the state. -/
def change (f : σ → σ) : Procedure σ ε Unit := fun s => (.ok (), f s)

/-- A step that is outside: its answer is given, and the state is not its business. -/
def answer (x : Except ε α) : Procedure σ ε α := fun s => (x, s)

/-- `try: m except: handler` -/
def handling (m : Procedure σ ε α) (handler : ε → Procedure σ ε' α) : Procedure σ ε' α := fun s =>
  match m s with
  | (.ok a, s') => (.ok a, s')
  | (.error e, s') => handler e s'

/-- `try: m finally: cleanup`, for a cleanup that raises nothing. -/
def cleaning (m : Procedure σ ε α) (cleanup : σ → σ) : Procedure σ ε α := fun s =>
  ((m s).1, cleanup (m s).2)

/-- `try: m finally: cleanup`, for a cleanup that may raise: what it raises is what is raised
then, whatever came before. -/
def ensuring (m : Procedure σ ε α) (cleanup : Procedure σ ε Unit) : Procedure σ ε α := fun s =>
  match cleanup (m s).2 with
  | (.ok _, s') => ((m s).1, s')
  | (.error e, s') => (.error e, s')

@[simp] theorem answer_ok_bind (a : α) (f : α → Procedure σ ε β) : (answer (.ok a) >>= f) = f a :=
  rfl

@[simp] theorem answer_error_bind (e : ε) (f : α → Procedure σ ε β) :
    (answer (.error e) >>= f) = raise e := rfl

@[simp] theorem change_bind_apply (g : σ → σ) (f : Unit → Procedure σ ε β) (s : σ) :
    (change g >>= f) s = f () (g s) := rfl

@[simp] theorem handling_answer_error (e : ε) (h : ε → Procedure σ ε' α) :
    (answer (.error e)).handling h = h e := rfl

theorem bind_of_error {m : Procedure σ ε α} {s s' : σ} {e : ε} (h : m s = (.error e, s'))
    (f : α → Procedure σ ε β) : (m >>= f) s = (.error e, s') := by
  show (match m s with
    | (.ok a, s') => f a s'
    | (.error e, s') => (.error e, s')) = _
  rw [h]

theorem bind_of_ok {m : Procedure σ ε α} {s s' : σ} {a : α} (h : m s = (.ok a, s'))
    (f : α → Procedure σ ε β) : (m >>= f) s = f a s' := by
  show (match m s with
    | (.ok a, s') => f a s'
    | (.error e, s') => (.error e, s')) = _
  rw [h]

/-! ## Contracts -/

/-- It returned where `Q` holds, or raised where `E` does. -/
def Ends (Q : α → σ → Prop) (E : ε → σ → Prop) : Except ε α × σ → Prop
  | (.ok a, s) => Q a s
  | (.error e, s) => E e s

/-- Begun in `P`, the procedure returns in `Q` or raises in `E`. -/
def Meets (P : σ → Prop) (m : Procedure σ ε α) (Q : α → σ → Prop) (E : ε → σ → Prop) : Prop :=
  ∀ s, P s → Ends Q E (m s)

variable {P P' : σ → Prop} {Q Q' : α → σ → Prop} {E E' : ε → σ → Prop} {R : β → σ → Prop}
  {F : ε' → σ → Prop} {m : Procedure σ ε α}

theorem Ends.weaken {x : Except ε α × σ} (h : Ends Q E x) (hQ : ∀ a s, Q a s → Q' a s)
    (hE : ∀ e s, E e s → E' e s) : Ends Q' E' x := by
  obtain ⟨e | a, s⟩ := x
  · exact hE e s h
  · exact hQ a s h

/-- What holds of the state however it ended. -/
theorem Ends.state {I : σ → Prop} {x : Except ε α × σ} (h : Ends (fun _ => I) (fun _ => I) x) :
    I x.2 := by
  obtain ⟨e | a, s⟩ := x
  · exact h
  · exact h

theorem Meets.weaken (h : Meets P m Q E) (hP : ∀ s, P' s → P s) (hQ : ∀ a s, Q a s → Q' a s)
    (hE : ∀ e s, E e s → E' e s) : Meets P' m Q' E' :=
  fun s hs => (h s (hP s hs)).weaken hQ hE

/-- What is known before, and is not about the state. -/
theorem meets_assuming {c : Prop} (h : c → Meets P m Q E) : Meets (fun s => c ∧ P s) m Q E :=
  fun s hs => h hs.1 s hs.2

/-- Two contracts of one procedure. -/
theorem Meets.and (h : Meets P m Q E) (h' : Meets P' m Q' E') :
    Meets (fun s => P s ∧ P' s) m (fun a s => Q a s ∧ Q' a s) fun e s => E e s ∧ E' e s := by
  intro s hs
  have hends := h s hs.1
  have hends' := h' s hs.2
  generalize m s = x at hends hends' ⊢
  obtain ⟨e | a, s'⟩ := x
  · exact ⟨hends, hends'⟩
  · exact ⟨hends, hends'⟩

theorem meets_pure {a : α} (h : ∀ s, P s → Q a s) : Meets P (pure a) Q E := h

theorem meets_raise {e : ε} (h : ∀ s, P s → E e s) : Meets P (raise e) Q E := h

theorem meets_change {f : σ → σ} {Q : Unit → σ → Prop} (h : ∀ s, P s → Q () (f s)) :
    Meets P (change f) Q E := h

theorem meets_answer {x : Except ε α} (hret : ∀ a, x = .ok a → ∀ s, P s → Q a s)
    (hraise : ∀ e, x = .error e → ∀ s, P s → E e s) : Meets P (answer x) Q E := by
  intro s hs
  cases x with
  | ok a => exact hret a rfl s hs
  | error e => exact hraise e rfl s hs

/-- **Sequencing.** The second step begins where the first returned. -/
theorem Meets.bind {f : α → Procedure σ ε β} (hm : Meets P m Q E)
    (hf : ∀ a, Meets (Q a) (f a) R E) : Meets P (m >>= f) R E := by
  intro s hs
  have h := hm s hs
  show Ends R E (match m s with
    | (.ok a, s') => f a s'
    | (.error e, s') => (.error e, s'))
  generalize m s = x at h ⊢
  obtain ⟨e | a, s'⟩ := x
  · exact h
  · exact hf a s' h

/-- An answer from outside, in front of other steps: what it was is known to them. -/
theorem meets_answer_bind {x : Except ε α} {f : α → Procedure σ ε β}
    (hok : ∀ a, x = .ok a → Meets P (f a) R E) (herror : ∀ e, x = .error e → ∀ s, P s → E e s) :
    Meets P (answer x >>= f) R E := by
  cases x with
  | ok a => exact hok a rfl
  | error e => exact herror e rfl

/-- A change in front of other steps. -/
theorem meets_change_bind {g : σ → σ} {f : Unit → Procedure σ ε β} (P' : σ → Prop)
    (hg : ∀ s, P s → P' (g s)) (hf : Meets P' (f ()) R E) : Meets P (change g >>= f) R E :=
  fun s hs => hf (g s) (hg s hs)

/-- **Branching.** -/
theorem Meets.ite {c : Prop} [Decidable c] {m' : Procedure σ ε α} (h : c → Meets P m Q E)
    (h' : ¬ c → Meets P m' Q E) : Meets P (if c then m else m') Q E := by
  split
  next hc => exact h hc
  next hc => exact h' hc

/-- **Handling.** The handler begins where the body raised. -/
theorem Meets.handling {handler : ε → Procedure σ ε' α} (hm : Meets P m Q E)
    (hh : ∀ e, Meets (E e) (handler e) Q F) : Meets P (m.handling handler) Q F := by
  intro s hs
  have h := hm s hs
  unfold Procedure.handling
  generalize m s = x at h ⊢
  obtain ⟨e | a, s'⟩ := x
  · exact hh e s' h
  · exact h

/-- **Cleaning up.** It runs where the body ended, either way. -/
theorem Meets.cleaning {cleanup : σ → σ} (hm : Meets P m Q E)
    (hQ : ∀ a s, Q a s → Q' a (cleanup s)) (hE : ∀ e s, E e s → E' e (cleanup s)) :
    Meets P (m.cleaning cleanup) Q' E' := by
  intro s hs
  have h := hm s hs
  unfold Procedure.cleaning
  generalize m s = x at h ⊢
  obtain ⟨e | a, s'⟩ := x
  · exact hE e s' h
  · exact hQ a s' h

/-- **Ensuring.** The cleanup begins where the body ended, either way. -/
theorem Meets.ensuring {cleanup : Procedure σ ε Unit} (hm : Meets P m Q E)
    (hQ : ∀ a, Meets (Q a) cleanup (fun _ => Q' a) E')
    (hE : ∀ e, Meets (E e) cleanup (fun _ => E' e) E') : Meets P (m.ensuring cleanup) Q' E' := by
  intro s hs
  have h := hm s hs
  unfold Procedure.ensuring
  generalize m s = x at h ⊢
  obtain ⟨e | a, s'⟩ := x
  · have hends := hE e s' h
    dsimp only
    generalize cleanup s' = y at hends ⊢
    obtain ⟨e' | u, s''⟩ := y
    · exact hends
    · exact hends
  · have hends := hQ a s' h
    dsimp only
    generalize cleanup s' = y at hends ⊢
    obtain ⟨e' | u, s''⟩ := y
    · exact hends
    · exact hends

/-! ## Invariants -/

/-- What the procedure keeps, whether it returns or raises. -/
def Keeps (I : σ → Prop) (m : Procedure σ ε α) : Prop := Meets I m (fun _ => I) fun _ => I

section Keeps

variable {I : σ → Prop}

theorem keeps_pure (a : α) : Keeps I (pure a : Procedure σ ε α) := fun _ hs => hs

theorem keeps_raise (e : ε) : Keeps I (raise e : Procedure σ ε α) := fun _ hs => hs

theorem keeps_answer (x : Except ε α) : Keeps I (answer x : Procedure σ ε α) :=
  meets_answer (fun _ _ _ hs => hs) fun _ _ _ hs => hs

theorem keeps_change {g : σ → σ} (hg : ∀ s, I s → I (g s)) :
    Keeps I (change g : Procedure σ ε Unit) := hg

theorem Keeps.bind {f : α → Procedure σ ε β} (hm : Keeps I m) (hf : ∀ a, Keeps I (f a)) :
    Keeps I (m >>= f) :=
  Meets.bind hm hf

theorem Keeps.ite {c : Prop} [Decidable c] {m' : Procedure σ ε α} (h : Keeps I m)
    (h' : Keeps I m') : Keeps I (if c then m else m') :=
  Meets.ite (fun _ => h) fun _ => h'

end Keeps

end Procedure

end Solverr.Lib
