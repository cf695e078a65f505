/-!
# Programs that ask

A generator that yields what it wants to know and is sent the answers: an
`Asking Q A α` says which question comes next after each answer, and what the
result is in the end. `run` drives one with a handler for each question, in any
monad; `eval` answers every question from one fixed world.
-/

namespace Solverr.Lib

/-- A program that puts questions of `Q`; the answer to `q` is an `A q`. -/
inductive Asking (Q : Type) (A : Q → Type) (α : Type)
  | done (result : α)
  | ask (q : Q) (next : A q → Asking Q A α)

namespace Asking

variable {Q : Type} {A : Q → Type} {α β : Type}

def bind : Asking Q A α → (α → Asking Q A β) → Asking Q A β
  | done a, f => f a
  | ask q next, f => ask q fun a => bind (next a) f

instance : Monad (Asking Q A) where
  pure := done
  bind := bind

/-- `yield q` -/
def put (q : Q) : Asking Q A (A q) := ask q done

/-- Drive the program with a handler for each question. -/
def run {m : Type → Type} [Monad m] (handle : (q : Q) → m (A q)) : Asking Q A α → m α
  | done a => Pure.pure a
  | ask q next => handle q >>= fun a => run handle (next a)

/-- The result where every question has one answer. -/
def eval (answer : (q : Q) → A q) : Asking Q A α → α
  | done a => a
  | ask q next => eval answer (next (answer q))

/-- Whatever it is answered, its result satisfies `P`. -/
def Always (P : α → Prop) : Asking Q A α → Prop
  | done a => P a
  | ask _ next => ∀ answer, (next answer).Always P

theorem Always.bind {P : β → Prop} {R : α → Prop} {f : α → Asking Q A β}
    (hf : ∀ a, R a → (f a).Always P) : ∀ {x : Asking Q A α}, x.Always R → (x >>= f).Always P
  | done a, hx => hf a hx
  | ask _ _, hx => fun answer => Always.bind hf (hx answer)

variable (answer : (q : Q) → A q)

@[simp] theorem eval_pure (a : α) : eval answer (pure a : Asking Q A α) = a := rfl

@[simp] theorem eval_put (q : Q) : eval answer (put q) = answer q := rfl

@[simp] theorem eval_bind (x : Asking Q A α) (f : α → Asking Q A β) :
    eval answer (x >>= f) = eval answer (f (eval answer x)) := by
  show eval answer (bind x f) = _
  induction x with
  | done a => rfl
  | ask q next ih => exact ih (answer q)

end Asking

end Solverr.Lib
