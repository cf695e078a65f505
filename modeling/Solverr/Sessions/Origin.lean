import Solverr.Sessions.Effect

/-!
# Which call a thread is in

Several of the guarantees are about runs in which only some of the calls are
made: no `destroy`, only solves, only `sessions.create`. A program point belongs
to the calls that pass through it (`Pc.within`), and a thread leaves a call only
by ending it (`step_within`), so in such a run no thread is ever at a point of
another call (`Within.step`).
-/

namespace Solverr.Sessions

open Solverr.Lib (Run exec)

variable {Proxy : Type}

/-- What a call is for. -/
inductive CallKind
  | create
  | get
  | remove
  | sweep
  | solve
  | command
  deriving DecidableEq

def Call.kind : Call Proxy → CallKind
  | .create .. => .create
  | .get .. => .get
  | .destroy .. | .discard .. => .remove
  | .reapIdle .. | .enforceCap .. => .sweep
  | .solve .. => .solve
  | .sessionsCreate .. => .command

def GetK.kind : GetK → CallKind
  | .caller => .get
  | .solve => .solve

def CreateK.kind : CreateK → CallKind
  | .caller _ => .create
  | .command => .command
  | .first _ k | .rebuild k => k.kind

/-- The point belongs to a call of one of the kinds `S`. -/
def Pc.within (S : List CallKind) : Pc Proxy → Prop
  | .idle => True
  | .lookup _ k | .build _ k | .insert _ k _ | .extra _ k _ _ | .remember _ k _ => k.kind ∈ S
  | .recallProxy _ _ k | .check _ _ _ k _ _ | .expired _ _ k _ => k.kind ∈ S
  | .holding .. => .create ∈ S ∨ .get ∈ S
  | .forget .. | .remove .. => .remove ∈ S
  | .reap .. | .cap .. => .sweep ∈ S
  | .teardown _ => .remove ∈ S ∨ .sweep ∈ S
  | .acquire .. | .driving .. | .timedOut .. | .closing .. | .drain .. | .release ..
  | .endUse .. | .solved => .solve ∈ S
  | .checkPools .. | .answered _ => .command ∈ S

/-- Only calls of the kinds `S` are started. -/
def startsOnly (S : List CallKind) (_ : World Proxy) (a : Tid × Act Proxy) : Bool :=
  match a.2 with
  | .start c => c.kind ∈ S
  | _ => true

theorem enter_within {cfg : Config} {c : Call Proxy} {p : Pc Proxy} {S : List CallKind}
    (h : enter cfg c = some p) (hc : c.kind ∈ S) : p.within S := by
  cases c with
  | create | destroy | discard =>
    obtain rfl := Option.some.inj h
    exact hc
  | get | solve =>
    simp only [enter] at h
    split at h
    next => cases h
    next =>
      obtain rfl := Option.some.inj h
      exact hc
  | reapIdle e ttl now | enforceCap e ttl =>
    cases ttl with
    | none =>
      obtain rfl := Option.some.inj h
      trivial
    | some ttl =>
      simp only [enter] at h
      split at h <;> obtain rfl := Option.some.inj h
      · trivial
      · exact hc
  | sessionsCreate =>
    simp only [enter] at h
    split at h <;> obtain rfl := Option.some.inj h <;> exact hc

theorem returned_within {e : Engine} {sid : String} {s : Ref} {k : GetK} {S : List CallKind}
    (h : k.kind ∈ S) : (returned e sid s k : Pc Proxy).within S := by
  cases k with
  | caller => exact Or.inr h
  | solve => exact h

theorem resume_within {a : CreateArgs Proxy} {s : Ref} {fresh : Bool} {k : CreateK}
    {S : List CallKind} (h : k.kind ∈ S) : (resume a s fresh k).within S := by
  cases k with
  | caller claim =>
    cases claim with
    | true => exact Or.inl h
    | false => trivial
  | command => exact h
  | first => exact h
  | rebuild => exact returned_within h

theorem raised_within {text : String} {k : CreateK} {S : List CallKind} (h : k.kind ∈ S) :
    (raised text k : Pc Proxy).within S := by
  cases k with
  | caller => trivial
  | command => exact h
  | first _ k | rebuild k =>
    cases k with
    | caller => trivial
    | solve => exact h

theorem afterSolve_within {cfg : Config} {e : Engine} {sid : String} {s : Ref} {b : Bool}
    {S : List CallKind} (h : .solve ∈ S) : (afterSolve cfg e sid s b : Pc Proxy).within S := by
  unfold afterSolve
  split <;> exact h

/-- A section leaves its thread at a point of the same call, or outside any. -/
theorem go_within {cfg : Config} {w w' : World Proxy} {t : Tid} {now : Int} {p : Pc Proxy}
    {S : List CallKind} (h : go cfg w t now p = some w') (hp : p.within S) :
    (w'.pcs t).within S := by
  cases p with
  | idle | solved | answered => cases h
  | lookup a k | insert a k s =>
    simp only [go] at h
    split at h <;> obtain rfl := Option.some.inj h <;> rw [World.goto_self]
    · first
        | exact resume_within hp
        | exact hp
    · exact hp
  | build | recallProxy | expired | forget | drain | release | holding | endUse =>
    obtain rfl := Option.some.inj h
    rw [World.goto_self]
    first
      | exact hp
      | trivial
  | extra | remember =>
    obtain rfl := Option.some.inj h
    rw [World.goto_self]
    exact resume_within hp
  | check =>
    simp only [go] at h
    split at h <;> obtain rfl := Option.some.inj h <;> rw [World.goto_self]
    · exact hp
    · exact returned_within hp
  | remove =>
    simp only [go] at h
    split at h <;> obtain rfl := Option.some.inj h <;> rw [World.goto_self]
    · trivial
    · exact Or.inl hp
  | reap | cap =>
    obtain rfl := Option.some.inj h
    rw [World.goto_self]
    exact Or.inr hp
  | teardown todo =>
    cases todo <;> obtain rfl := Option.some.inj h <;> rw [World.goto_self]
    · trivial
    · exact hp
  | acquire =>
    simp only [go] at h
    split at h
    · cases h
    · obtain rfl := Option.some.inj h
      rw [World.goto_self]
      exact hp
  | driving | closing =>
    obtain rfl := Option.some.inj h
    rw [World.goto_self]
    exact afterSolve_within hp
  | timedOut =>
    simp only [go] at h
    split at h <;> obtain rfl := Option.some.inj h <;> rw [World.goto_self]
    · exact afterSolve_within hp
    · exact hp
  | checkPools a todo =>
    cases todo <;> simp only [go] at h <;> split at h <;> obtain rfl := Option.some.inj h <;>
      rw [World.goto_self] <;> exact hp

/-- One step keeps its thread within the started kinds. -/
theorem step_within {cfg : Config} {w w' : World Proxy} {t : Tid} {act : Act Proxy}
    {S : List CallKind} (h : step cfg w (t, act) = some w')
    (hg : startsOnly S w (t, act) = true) (hp : (w.pcs t).within S) : (w'.pcs t).within S := by
  cases act with
  | start c =>
    simp only [step] at h
    split at h
    next =>
      obtain ⟨p, hc, rfl⟩ := Option.map_eq_some_iff.mp h
      rw [World.goto_self]
      exact enter_within hc (by simpa [startsOnly] using hg)
    next => cases h
  | go now => exact go_within h hp
  | fail text =>
    simp only [step] at h
    split at h
    next hb =>
      obtain rfl := Option.some.inj h
      rw [World.goto_self]
      exact raised_within (by rw [hb] at hp; exact hp)
    next hb =>
      obtain rfl := Option.some.inj h
      rw [World.goto_self]
      rw [hb] at hp
      exact hp
    next hb =>
      obtain rfl := Option.some.inj h
      rw [World.goto_self]
      exact afterSolve_within (by rw [hb] at hp; exact hp)
    next => cases h
  | timeout =>
    simp only [step] at h
    split at h
    next hb =>
      obtain rfl := Option.some.inj h
      rw [World.goto_self]
      rw [hb] at hp
      exact hp
    next => cases h
  | drive =>
    simp only [step] at h
    split at h
    next =>
      obtain rfl := Option.some.inj h
      rw [World.goto_self]
      exact hp
    next => cases h

/-- The bookkeeping, and every thread at a point of the kinds `S`. -/
structure Within (S : List CallKind) (w : World Proxy) : Prop where
  wf : WF w
  points : ∀ t, (w.pcs t).within S

theorem within_init (S : List CallKind) : Within S (World.init : World Proxy) :=
  ⟨wf_init, fun _ => trivial⟩

theorem Within.step {cfg : Config} {S : List CallKind} {w w' : World Proxy}
    {a : Tid × Act Proxy} (h : Within S w) (hg : startsOnly S w a = true)
    (hs : step cfg w a = some w') : Within S w' := by
  have he := step_effect h.wf hs
  refine ⟨he.wf h.wf, fun t => ?_⟩
  by_cases ht : t = a.1
  · exact ht ▸ step_within hs hg (h.points a.1)
  · rw [he.pcs_other ht]
    exact h.points t

/-- **No thread is ever in a call that was not started**, so a run may be replayed
under any guard that holds at the points of the calls that were. -/
theorem Run.of_within {cfg : Config} {G H : World Proxy → Tid × Act Proxy → Prop}
    {w : World Proxy} {S : List CallKind} (hS : ∀ w a, G w a → startsOnly S w a = true)
    (hH : ∀ w a, Within S w → G w a → H w a) (h : Run (step cfg) G World.init w) :
    Run (step cfg) H World.init w :=
  h.weaken (fun _ _ _ hw hg hs => hw.step (hS _ _ hg) hs) hH (within_init S)

/-! ## Computed runs -/

/-- `t` takes `n` steps, the clock at 0. -/
def goes (t : Tid) (n : Nat) : List (Tid × Act Proxy) := List.replicate n (t, .go 0)

/-- A computed run of threads below `n`: the others stay out of every call, so its
guard may be checked on the threads below `n` alone. -/
theorem Run.of_exec_below {cfg : Config} {test : World Proxy → Tid × Act Proxy → Bool}
    {G : World Proxy → Tid × Act Proxy → Prop} (n : Nat)
    (hG : ∀ w a, (∀ t, n ≤ t → w.pcs t = .idle) → test w a = true → G w a)
    (as : List (Tid × Act Proxy)) {P : World Proxy → Prop} [DecidablePred P]
    (h : (exec (step cfg) (fun w a => decide (a.1 < n) && test w a) World.init as).any
      (fun w => decide (P w)) = true) :
    ∃ w, Run (step cfg) G World.init w ∧ (∀ t, n ≤ t → w.pcs t = .idle) ∧ P w := by
  have htest : ∀ (w : World Proxy) (a : Tid × Act Proxy),
      (decide (a.1 < n) && test w a) = true → a.1 < n ∧ test w a = true := by simp
  obtain ⟨w, hrun, hw⟩ := Run.of_exec_test htest as h
  have hstep : ∀ (w : World Proxy) a w', WF w ∧ (∀ t, n ≤ t → w.pcs t = .idle) →
      a.1 < n ∧ test w a = true → step cfg w a = some w' →
      WF w' ∧ ∀ t, n ≤ t → w'.pcs t = .idle := by
    rintro w a w' ⟨hwf, hidle⟩ ⟨ha, -⟩ hs
    have he := step_effect hwf hs
    refine ⟨he.wf hwf, fun t ht => ?_⟩
    rw [he.pcs_other (Nat.ne_of_gt (Nat.lt_of_lt_of_le ha ht))]
    exact hidle t ht
  have hinit : WF (World.init : World Proxy) ∧
      ∀ t, n ≤ t → (World.init : World Proxy).pcs t = .idle := ⟨wf_init, fun _ _ => rfl⟩
  exact ⟨w, hrun.weaken hstep (fun w a hI hg => hG w a hI.2 hg.2) hinit,
    (hrun.invariant hstep hinit).2, hw⟩

end Solverr.Sessions
