import Mathlib.Data.Prod.Lex
import Solverr.Lib.Execution
import Solverr.Sessions.Sweep

/-!
# One request at a time on a browser

A session's `lock` is what keeps two requests off one browser. Nothing in the code says
who has it: `lock` is a flag, and a solve that raises, runs out of time or finds its
session discarded has to give it back on its own way out.

- `session_lock_exclusive`: the flag is up exactly when one thread is past its `acquire`
  and before its `release`, whatever the other calls do in between.
- `calls_end`: no call waits for ever, and no lock is kept for ever. Every call goes down
  `Pc.rank` section by section, and the only section that may have to wait is `acquire`,
  for a thread that has none itself.
-/

namespace Solverr.Sessions

open Solverr.Lib (Dict Run Any Execution exec)

variable {Proxy : Type}

/-- The session whose lock a thread has. -/
def Pc.locks : Pc Proxy → Option Ref
  | .driving _ _ s | .timedOut _ _ s | .closing _ _ s _ | .drain _ _ s _ | .release _ _ s _ =>
    some s
  | _ => none

/-- What a thread has locked it has marked. -/
theorem Pc.mark_of_locks {p : Pc Proxy} {s : Ref} (h : p.locks = some s) : p.mark = some s := by
  cases p with
  | driving | timedOut | closing | drain | release => exact h
  | _ => cases h

/-! ## The flag over one step -/

namespace Stores

theorem claim_locked (st : Stores Proxy) (s r : Ref) (now : Int) :
    ((st.claim s now).heap r).locked = (st.heap r).locked := by
  rw [claim, modify_heap]
  split
  next h => rw [h]
  next => rfl

theorem endUse_locked (st : Stores Proxy) (s r : Ref) (now : Int) :
    ((st.endUse s now).heap r).locked = (st.heap r).locked := by
  rw [endUse, modify_heap]
  split
  next h => rw [h]
  next => rfl

theorem setLocked_locked (st : Stores Proxy) (s r : Ref) (b : Bool) :
    ((st.setLocked s b).heap r).locked = if r = s then b else (st.heap r).locked := by
  rw [setLocked, modify_heap]
  split <;> rfl

end Stores

theorem World.claimIf_locked (w : World Proxy) (b : Bool) (t : Tid) (s r : Ref) (now : Int) :
    ((w.claimIf b t s now).st.heap r).locked = (w.st.heap r).locked := by
  cases b
  · rfl
  · exact w.st.claim_locked s r now

/-- What one step of thread `t` does to the locks. -/
inductive LockEffect (w : World Proxy) (t : Tid) (w' : World Proxy) : Prop
  | keep (same : (w'.pcs t).locks = (w.pcs t).locks)
      (flags : ∀ s, (w'.st.heap s).locked = (w.st.heap s).locked)
  | fresh (same : (w'.pcs t).locks = (w.pcs t).locks)
      (flags : ∀ s, (w'.st.heap s).locked = if s = w.st.built then false else (w.st.heap s).locked)
  | take (s : Ref) (free : (w.st.heap s).locked = false) (before : (w.pcs t).locks = none)
      (after : (w'.pcs t).locks = some s)
      (flags : ∀ r, (w'.st.heap r).locked = if r = s then true else (w.st.heap r).locked)
  | give (s : Ref) (before : (w.pcs t).locks = some s) (after : (w'.pcs t).locks = none)
      (flags : ∀ r, (w'.st.heap r).locked = if r = s then false else (w.st.heap r).locked)

theorem returned_locks (e : Engine) (sid : String) (s : Ref) (k : GetK) :
    (returned e sid s k : Pc Proxy).locks = none := by
  cases k <;> rfl

theorem resume_locks (a : CreateArgs Proxy) (s : Ref) (fresh : Bool) (k : CreateK) :
    (resume a s fresh k).locks = none := by
  cases k with
  | caller claim => cases claim <;> rfl
  | command | first => rfl
  | rebuild k => exact returned_locks ..

theorem raised_locks (text : String) (k : CreateK) : (raised text k : Pc Proxy).locks = none := by
  cases k with
  | caller | command => rfl
  | first _ k | rebuild k => cases k <;> rfl

theorem afterSolve_locks (cfg : Config) (e : Engine) (sid : String) (s : Ref) (b : Bool) :
    (afterSolve cfg e sid s b : Pc Proxy).locks = some s := by
  unfold afterSolve
  split <;> rfl

theorem enter_locks {cfg : Config} {c : Call Proxy} {p : Pc Proxy} (h : enter cfg c = some p) :
    p.locks = none := by
  cases hp : p.locks with
  | none => rfl
  | some s =>
    have hmark := Pc.mark_of_locks hp
    unfold Pc.mark at hmark
    rw [(enter_empty h).2.1] at hmark
    cases hmark

/-- A section that leaves the flags alone, and the lock of its thread. -/
theorem LockEffect.plain {w W : World Proxy} {t : Tid} {p : Pc Proxy}
    (same : p.locks = (w.pcs t).locks)
    (flags : ∀ s, (W.st.heap s).locked = (w.st.heap s).locked) : LockEffect w t (W.goto t p) :=
  .keep (by rw [World.goto_self]; exact same) flags

/-- The sections outside a solve: only the launch of a browser touches a flag, its own. -/
theorem go_locks_outside {cfg : Config} {w w' : World Proxy} {t : Tid} {now : Int}
    (h : go cfg w t now (w.pcs t) = some w') (hlocks : (w.pcs t).locks = none)
    (hacquire : ∀ e sid s, w.pcs t ≠ .acquire e sid s) : LockEffect w t w' := by
  have unchanged : ∀ s, (w.st.heap s).locked = (w.st.heap s).locked := fun _ => rfl
  cases hp : w.pcs t with
  | idle | solved | answered =>
    rw [hp] at h
    cases h
  -- the points at which the thread has the lock, and the one where it takes it
  | driving | timedOut | closing | drain | release =>
    rw [hp] at hlocks
    cases hlocks
  | acquire e sid s => exact absurd hp (hacquire e sid s)
  -- `create`: a claim stamps the session and leaves its lock alone
  | lookup a k =>
    rw [hp] at h
    simp only [go] at h
    split at h
    next existing _ =>
      obtain rfl := Option.some.inj h
      exact .plain (by rw [hlocks, resume_locks]) fun s => w.claimIf_locked _ t existing s now
    next =>
      obtain rfl := Option.some.inj h
      exact .plain (by rw [hlocks]; rfl) unchanged
  -- a new session's lock is free
  | build a k =>
    rw [hp] at h
    obtain rfl := Option.some.inj h
    refine .fresh (by rw [World.goto_self, hlocks]; rfl) fun s => ?_
    rw [World.goto_st, World.setStores_st, Stores.build_heap]
    split <;> rfl
  | insert a k s =>
    rw [hp] at h
    simp only [go] at h
    split at h
    next race _ =>
      obtain rfl := Option.some.inj h
      exact .plain (by rw [hlocks]; rfl) fun r => w.claimIf_locked _ t race r now
    next =>
      obtain rfl := Option.some.inj h
      refine .plain (by rw [hlocks]; rfl) fun r => ?_
      rw [World.claimIf_locked]
      rfl
  | extra a k s race =>
    rw [hp] at h
    obtain rfl := Option.some.inj h
    exact .plain (by rw [hlocks, resume_locks]) unchanged
  | remember a k s =>
    rw [hp] at h
    obtain rfl := Option.some.inj h
    exact .plain (by rw [hlocks, resume_locks]) unchanged
  -- the sections that touch no session
  | recallProxy | expired | forget | reap =>
    rw [hp] at h
    obtain rfl := Option.some.inj h
    exact .plain (by rw [hlocks]; rfl) unchanged
  -- `enforce_cap` changes pools only
  | cap e n =>
    rw [hp] at h
    have hnext : w' = (w.setStores (w.st.enforceCap e n).2).goto t
        (.teardown (w.st.enforceCap e n).1) := (Option.some.inj h).symm
    rw [hnext]
    refine .plain (by rw [hlocks]; rfl) fun s => ?_
    rw [World.setStores_st, (w.st.enforceCap_sessions e n).2]
  | check e sid ttl k s fresh =>
    rw [hp] at h
    simp only [go] at h
    split at h
    next =>
      obtain rfl := Option.some.inj h
      exact .plain (by rw [hlocks]; rfl) unchanged
    next =>
      obtain rfl := Option.some.inj h
      exact .plain (by rw [hlocks, returned_locks]) unchanged
  -- `end_use` stamps the session
  | holding e sid s =>
    rw [hp] at h
    obtain rfl := Option.some.inj h
    exact .plain (by rw [hlocks]; rfl) fun r => w.st.endUse_locked s r now
  | endUse e sid s b =>
    rw [hp] at h
    obtain rfl := Option.some.inj h
    exact .plain (by rw [hlocks]; rfl) fun r => w.st.endUse_locked s r now
  | remove e sid op =>
    rw [hp] at h
    simp only [go] at h
    split at h <;> obtain rfl := Option.some.inj h <;>
      exact .plain (by rw [hlocks]; rfl) unchanged
  | teardown todo =>
    rw [hp] at h
    cases todo with
    | nil | cons =>
      obtain rfl := Option.some.inj h
      exact .plain (by rw [hlocks]; rfl) unchanged
  | checkPools a todo =>
    rw [hp] at h
    cases todo with
    | nil | cons =>
      simp only [go] at h
      split at h <;> obtain rfl := Option.some.inj h <;>
        exact .plain (by rw [hlocks]; rfl) unchanged

/-- The sections of a solve take the lock once, and give it back once. -/
theorem go_locks {cfg : Config} {w w' : World Proxy} {t : Tid} {now : Int}
    (h : go cfg w t now (w.pcs t) = some w') : LockEffect w t w' := by
  have unchanged : ∀ s, (w.st.heap s).locked = (w.st.heap s).locked := fun _ => rfl
  cases hp : w.pcs t with
  | acquire e sid s =>
    rw [hp] at h
    simp only [go] at h
    split at h
    next => cases h
    next hfree =>
      obtain rfl := Option.some.inj h
      refine .take s (Bool.eq_false_iff.mpr hfree) (by rw [hp]; rfl) (by rw [World.goto_self]; rfl)
        fun r => ?_
      exact w.st.setLocked_locked s r true
  | driving e sid s =>
    rw [hp] at h
    obtain rfl := Option.some.inj h
    exact .plain (by rw [hp, afterSolve_locks]; rfl) unchanged
  | timedOut e sid s =>
    rw [hp] at h
    simp only [go] at h
    split at h
    next =>
      obtain rfl := Option.some.inj h
      exact .plain (by rw [hp, afterSolve_locks]; rfl) unchanged
    next =>
      obtain rfl := Option.some.inj h
      exact .plain (by rw [hp]; rfl) unchanged
  | closing e sid s victim =>
    rw [hp] at h
    obtain rfl := Option.some.inj h
    exact .plain (by rw [hp, afterSolve_locks]; rfl) unchanged
  | drain e sid s b =>
    rw [hp] at h
    obtain rfl := Option.some.inj h
    exact .plain (by rw [hp]; rfl) unchanged
  | release e sid s b =>
    rw [hp] at h
    obtain rfl := Option.some.inj h
    exact .give s (by rw [hp]; rfl) (by rw [World.goto_self]; rfl) fun r =>
      w.st.setLocked_locked s r false
  | _ =>
    refine go_locks_outside h (by rw [hp]; rfl) fun e sid s hacquire => ?_
    rw [hp] at hacquire
    cases hacquire

/-- **One step, as the locks see it.** -/
theorem step_locks {cfg : Config} {w w' : World Proxy} {t : Tid} {act : Act Proxy}
    (h : step cfg w (t, act) = some w') : LockEffect w t w' := by
  have unchanged : ∀ s, (w.st.heap s).locked = (w.st.heap s).locked := fun _ => rfl
  cases act with
  | go now => exact go_locks h
  | start c =>
    simp only [step] at h
    split at h
    next hp =>
      obtain ⟨p, hc, rfl⟩ := Option.map_eq_some_iff.mp h
      exact .plain (by rw [hp, enter_locks hc]; rfl) unchanged
    next => cases h
  | fail text =>
    simp only [step] at h
    split at h
    next a k hp =>
      obtain rfl := Option.some.inj h
      exact .plain (by rw [hp, raised_locks]; rfl) unchanged
    next e sid s hp =>
      obtain rfl := Option.some.inj h
      exact .plain (by rw [hp]; rfl) unchanged
    next e sid s hp =>
      obtain rfl := Option.some.inj h
      exact .plain (by rw [hp, afterSolve_locks]; rfl) unchanged
    next => cases h
  | timeout =>
    simp only [step] at h
    split at h
    next e sid s hp =>
      obtain rfl := Option.some.inj h
      exact .plain (by rw [hp]; rfl) unchanged
    next => cases h
  | drive =>
    simp only [step] at h
    split at h
    next hp =>
      obtain rfl := Option.some.inj h
      exact .plain rfl unchanged
    next => cases h

/-! ## Who has a lock -/

/-- The flag of a lock is up when a thread has it, and then one thread has it. -/
structure Exclusive (w : World Proxy) : Prop where
  up : ∀ t s, (w.pcs t).locks = some s → (w.st.heap s).locked = true
  held : ∀ s, (w.st.heap s).locked = true → ∃ t, (w.pcs t).locks = some s
  one : ∀ t t' s, (w.pcs t).locks = some s → (w.pcs t').locks = some s → t = t'

theorem exclusive_init : Exclusive (World.init : World Proxy) := by
  refine ⟨fun t s h => ?_, fun s h => ?_, fun t t' s h => ?_⟩
  · cases h
  · cases h
  · cases h

namespace Exclusive

variable {w w' : World Proxy} {t : Tid} {act : Act Proxy}

/-- A step after which its thread has the lock it had, if any. -/
theorem same (h : Exclusive w) (hpcs : ∀ t', t' ≠ t → w'.pcs t' = w.pcs t')
    (same : (w'.pcs t).locks = (w.pcs t).locks)
    (flags : ∀ s, (∃ t, (w.pcs t).locks = some s) →
      (w'.st.heap s).locked = (w.st.heap s).locked)
    (down : ∀ s, (w'.st.heap s).locked = true → (w.st.heap s).locked = true) :
    Exclusive w' := by
  have hall : ∀ t', (w'.pcs t').locks = (w.pcs t').locks := by
    intro t'
    by_cases ht : t' = t
    · rw [ht, same]
    · rw [hpcs t' ht]
  refine ⟨fun t' s hs => ?_, fun s hs => ?_, fun t₁ t₂ s h₁ h₂ => ?_⟩
  · rw [hall] at hs
    rw [flags s ⟨t', hs⟩]
    exact h.up t' s hs
  · obtain ⟨t', ht'⟩ := h.held s (down s hs)
    exact ⟨t', (hall t').trans ht'⟩
  · rw [hall] at h₁ h₂
    exact h.one t₁ t₂ s h₁ h₂

/-- A thread takes a lock that is free: nobody else has it. -/
theorem take (h : Exclusive w) (hpcs : ∀ t', t' ≠ t → w'.pcs t' = w.pcs t') {s : Ref}
    (free : (w.st.heap s).locked = false) (before : (w.pcs t).locks = none)
    (after : (w'.pcs t).locks = some s)
    (flags : ∀ r, (w'.st.heap r).locked = if r = s then true else (w.st.heap r).locked) :
    Exclusive w' := by
  have hfree : ∀ t', (w.pcs t').locks ≠ some s := by
    intro t' ht'
    rw [h.up t' s ht'] at free
    cases free
  refine ⟨fun t' r hr => ?_, fun r hr => ?_, fun t₁ t₂ r h₁ h₂ => ?_⟩
  · rw [flags]
    split
    next => rfl
    next hne =>
      by_cases ht : t' = t
      · rw [ht, after] at hr
        exact absurd (Option.some.inj hr).symm hne
      · rw [hpcs t' ht] at hr
        exact h.up t' r hr
  · rw [flags] at hr
    split at hr
    next heq => exact ⟨t, heq ▸ after⟩
    next =>
      obtain ⟨t', ht'⟩ := h.held r hr
      have hne : t' ≠ t := by
        intro heq
        rw [heq, before] at ht'
        cases ht'
      exact ⟨t', by rw [hpcs t' hne]; exact ht'⟩
  · by_cases e₁ : t₁ = t <;> by_cases e₂ : t₂ = t
    · rw [e₁, e₂]
    · rw [e₁, after] at h₁
      rw [hpcs t₂ e₂] at h₂
      exact absurd (h₂.trans h₁.symm) (hfree t₂)
    · rw [e₂, after] at h₂
      rw [hpcs t₁ e₁] at h₁
      exact absurd (h₁.trans h₂.symm) (hfree t₁)
    · rw [hpcs t₁ e₁] at h₁
      rw [hpcs t₂ e₂] at h₂
      exact h.one t₁ t₂ r h₁ h₂

/-- A thread gives its lock back: it was the only one to have it. -/
theorem give (h : Exclusive w) (hpcs : ∀ t', t' ≠ t → w'.pcs t' = w.pcs t') {s : Ref}
    (before : (w.pcs t).locks = some s) (after : (w'.pcs t).locks = none)
    (flags : ∀ r, (w'.st.heap r).locked = if r = s then false else (w.st.heap r).locked) :
    Exclusive w' := by
  have hmoved : ∀ t' r, (w'.pcs t').locks = some r → t' ≠ t ∧ (w.pcs t').locks = some r := by
    intro t' r hr
    by_cases ht : t' = t
    · rw [ht, after] at hr
      cases hr
    · exact ⟨ht, by rw [← hpcs t' ht]; exact hr⟩
  refine ⟨fun t' r hr => ?_, fun r hr => ?_, fun t₁ t₂ r h₁ h₂ => ?_⟩
  · obtain ⟨ht, hold⟩ := hmoved t' r hr
    have hne : r ≠ s := by
      intro heq
      rw [heq] at hold
      exact ht (h.one t' t s hold before)
    rw [flags, if_neg hne]
    exact h.up t' r hold
  · rw [flags] at hr
    split at hr
    next => cases hr
    next hne =>
      obtain ⟨t', ht'⟩ := h.held r hr
      have ht : t' ≠ t := by
        intro heq
        rw [heq, before] at ht'
        exact hne (Option.some.inj ht').symm
      exact ⟨t', by rw [hpcs t' ht]; exact ht'⟩
  · exact h.one t₁ t₂ r (hmoved t₁ r h₁).2 (hmoved t₂ r h₂).2

/-- **Every step keeps locks exclusive.** -/
theorem step {cfg : Config} (h : Exclusive w) (hw : WF w) (hcounted : Counted w)
    (hstep : Sessions.step cfg w (t, act) = some w') : Exclusive w' := by
  have hpcs : ∀ t', t' ≠ t → w'.pcs t' = w.pcs t' := fun t' ht =>
    (step_effect hw hstep).pcs_other ht
  cases step_locks hstep with
  | keep same flags =>
    exact h.same hpcs same (fun s _ => flags s) fun s hs => (flags s).symm.trans hs
  | fresh same flags =>
    -- nobody can have locked what is only being built
    refine h.same hpcs same (fun s hheld => ?_) fun s hs => ?_
    · obtain ⟨t', ht'⟩ := hheld
      have hbuilt := hcounted.built t' s (hcounted.handed t' s (Pc.mark_of_locks ht'))
      rw [flags, if_neg (Nat.ne_of_lt hbuilt)]
    · rw [flags] at hs
      split at hs
      next => cases hs
      next => exact hs
  | take s free before after flags => exact h.take hpcs free before after flags
  | give s before after flags => exact h.give hpcs before after flags

end Exclusive

/-- What a run keeps, whatever the calls. -/
theorem exclusive_run {cfg : Config} {w : World Proxy}
    (hrun : Run (step cfg) Any World.init w) : WF w ∧ Counted w ∧ Exclusive w := by
  refine hrun.invariant (I := fun w => WF w ∧ Counted w ∧ Exclusive w) (fun w a w' h _ hs => ?_)
    ⟨wf_init, claimed_init.counted, exclusive_init⟩
  obtain ⟨hw, hcounted, hexclusive⟩ := h
  have heff := step_effect hw hs
  exact ⟨heff.wf hw, hcounted.step hw heff, hexclusive.step hw hcounted hs⟩

/-- **One request at a time on a browser**: for every interleaving of any number of calls,
the lock of a session is taken exactly when a thread has it, and no two threads have it. -/
theorem session_lock_exclusive {cfg : Config} {w : World Proxy}
    (hrun : Run (step cfg) Any World.init w) (s : Ref) :
    ((w.st.heap s).locked = true ↔ ∃ t, (w.pcs t).locks = some s) ∧
      ∀ t t', (w.pcs t).locks = some s → (w.pcs t').locks = some s → t = t' := by
  obtain ⟨-, -, h⟩ := exclusive_run hrun
  refine ⟨⟨h.held s, fun hheld => ?_⟩, fun t t' => h.one t t' s⟩
  obtain ⟨t, ht⟩ := hheld
  exact h.up t s ht

/-- One solve drives the browser while another waits for it. -/
theorem one_waits_for_another : ∃ w : World String,
    (w.pcs 1 = .driving .chrome "s" 0 ∧ w.pcs 2 = .acquire .chrome "s" 0) ∧
    ((w.st.heap 0).locked = true ↔ ∃ t, (w.pcs t).locks = some 0) ∧
      ∀ t t', (w.pcs t).locks = some 0 → (w.pcs t').locks = some 0 → t = t' := by
  obtain ⟨w, hrun, hw⟩ : ∃ w : World String, Run (step .unset) Any World.init w ∧
      (w.pcs 1 = .driving .chrome "s" 0 ∧ w.pcs 2 = .acquire .chrome "s" 0) :=
    Run.of_exec_any
      ([(1, .start (.solve "s" none none))] ++ goes 1 7 ++
        [(2, .start (.solve "s" none none))] ++ goes 2 3)
      (by decide)
  exact ⟨w, hw, session_lock_exclusive hrun 0⟩

/-! ## Every call comes to its end -/

/-- A thread with no call under way. -/
def Pc.resting : Pc Proxy → Bool
  | .idle | .solved | .answered _ => true
  | _ => false

/-- How far off the end a `create` is when it returns: at the end, or in its caller. -/
def CreateK.phase : CreateK → ℕ
  | .caller _ | .command => 2
  | .rebuild _ => 10
  | .first _ _ => 16

/-- How far off the end a thread is. -/
def Pc.phase : Pc Proxy → ℕ
  | .idle | .solved | .answered _ => 0
  | .holding _ _ _ | .teardown _ => 1
  | .remove _ _ _ | .reap _ _ _ | .cap _ _ => 2
  | .forget _ _ | .endUse _ _ _ _ => 3
  | .release _ _ _ _ => 4
  | .drain _ _ _ _ => 5
  | .closing _ _ _ _ => 6
  | .timedOut _ _ _ => 7
  | .driving _ _ _ => 8
  | .acquire _ _ _ => 9
  | .expired _ _ _ _ => 14
  | .check _ _ _ _ _ _ => 15
  | .extra _ k _ _ | .remember _ k _ => k.phase
  | .insert _ k _ => k.phase + 1
  | .build _ k => k.phase + 2
  | .lookup _ k => k.phase + 3
  | .recallProxy _ _ _ | .checkPools _ _ => 20

/-- What is left to do of a loop. -/
def Pc.todo : Pc Proxy → ℕ
  | .teardown todo | .checkPools _ todo => todo.length
  | _ => 0

/-- What every section of a call lowers. -/
def Pc.rank (p : Pc Proxy) : ℕ ×ₗ ℕ := toLex (p.phase, p.todo)

theorem Pc.rank_lt_of_phase {p p' : Pc Proxy} (h : p'.phase < p.phase) : p'.rank < p.rank :=
  Prod.Lex.toLex_lt_toLex.mpr (Or.inl h)

theorem Pc.rank_lt_of_todo {p p' : Pc Proxy} (h : p'.phase = p.phase) (htodo : p'.todo < p.todo) :
    p'.rank < p.rank :=
  Prod.Lex.toLex_lt_toLex.mpr (Or.inr ⟨h, htodo⟩)

theorem returned_phase (e : Engine) (sid : String) (s : Ref) (k : GetK) :
    (returned e sid s k : Pc Proxy).phase ≤ 9 := by
  cases k
  · show 1 ≤ 9
    omega
  · exact Nat.le_refl 9

theorem resume_phase (a : CreateArgs Proxy) (s : Ref) (fresh : Bool) (k : CreateK) :
    (resume a s fresh k).phase < k.phase := by
  cases k with
  | caller claim =>
    show (if claim = true then Pc.holding a.store a.sid s else .idle).phase < 2
    split
    · show 1 < 2
      omega
    · show 0 < 2
      omega
  | command =>
    show 0 < 2
    omega
  | first ttl k =>
    show 15 < 16
    omega
  | rebuild k =>
    have hle := @returned_phase Proxy a.store a.sid s k
    show (returned a.store a.sid s k).phase < 10
    omega

theorem raised_phase (text : String) (k : CreateK) : (raised text k : Pc Proxy).phase = 0 := by
  cases k with
  | caller | command => rfl
  | first _ k | rebuild k => cases k <;> rfl

theorem afterSolve_phase (cfg : Config) (e : Engine) (sid : String) (s : Ref) (b : Bool) :
    (afterSolve cfg e sid s b : Pc Proxy).phase ≤ 5 := by
  unfold afterSolve
  split
  · exact Nat.le_refl 5
  · show 4 ≤ 5
    omega

/-- **Every section lowers the rank of its thread.** -/
theorem go_rank {cfg : Config} {w w' : World Proxy} {t : Tid} {now : Int}
    (h : go cfg w t now (w.pcs t) = some w') : (w'.pcs t).rank < (w.pcs t).rank := by
  -- all but the loops come to a later phase
  have goes : ∀ {W : World Proxy} {p : Pc Proxy}, some (W.goto t p) = some w' →
      p.phase < (w.pcs t).phase → (w'.pcs t).rank < (w.pcs t).rank := by
    intro W p hw' hphase
    obtain rfl := Option.some.inj hw'
    rw [World.goto_self]
    exact Pc.rank_lt_of_phase hphase
  cases hp : w.pcs t with
  | idle | solved | answered =>
    -- no section to run
    rw [hp] at h
    cases h
  | lookup a k =>
    -- an existing session ends the creation, and else it goes on to launch
    have hresume := fun s => resume_phase a s false k
    rw [hp] at h goes
    simp only [go] at h
    split at h
    next existing _ => exact goes h (Nat.lt_add_right 3 (hresume existing))
    next => exact goes h (Nat.lt_succ_self _)
  | build a k =>
    rw [hp] at h goes
    exact goes h (Nat.lt_succ_self _)
  | insert a k s =>
    rw [hp] at h goes
    simp only [go] at h
    split at h <;> exact goes h (Nat.lt_succ_self _)
  | extra a k s race =>
    rw [hp] at h goes
    exact goes h (resume_phase a race false k)
  | remember a k s =>
    rw [hp] at h goes
    exact goes h (resume_phase a s true k)
  | recallProxy a ttl k =>
    rw [hp] at h goes
    exact goes h (show 19 < 20 by omega)
  | check e sid ttl k s fresh =>
    -- an expired session is torn down and built anew, which counts below the check
    have hreturned := @returned_phase Proxy e sid s k
    rw [hp] at h goes
    simp only [go] at h
    split at h
    next => exact goes h (show 14 < 15 by omega)
    next => exact goes h (show _ < 15 by omega)
  | expired e sid k s =>
    rw [hp] at h goes
    exact goes h (show 13 < 14 by omega)
  | holding e sid s =>
    rw [hp] at h goes
    exact goes h (show 0 < 1 by omega)
  | forget e sid =>
    rw [hp] at h goes
    exact goes h (show 2 < 3 by omega)
  | remove e sid op =>
    -- nothing there to remove, or one session to tear down
    rw [hp] at h goes
    simp only [go] at h
    split at h
    next => exact goes h (show 0 < 2 by omega)
    next => exact goes h (show 1 < 2 by omega)
  | reap e ttl now =>
    rw [hp] at h goes
    exact goes h (show 1 < 2 by omega)
  | cap e n =>
    rw [hp] at h goes
    exact goes h (show 1 < 2 by omega)
  | teardown todo =>
    rw [hp] at h goes
    cases todo with
    | nil => exact goes h (show 0 < 1 by omega)
    | cons s todo =>
      -- the loop stays in its phase with a session less to do
      obtain rfl := Option.some.inj h
      rw [World.goto_self]
      exact Pc.rank_lt_of_todo rfl (Nat.lt_succ_self todo.length)
  | acquire e sid s =>
    rw [hp] at h goes
    simp only [go] at h
    split at h
    -- a lock that is taken lets no one through
    next => cases h
    next => exact goes h (show 8 < 9 by omega)
  | driving e sid s =>
    have hafter := @afterSolve_phase Proxy cfg e sid s false
    rw [hp] at h goes
    exact goes h (show _ < 8 by omega)
  | timedOut e sid s =>
    -- a session that is gone already is not closed again
    have hafter := @afterSolve_phase Proxy cfg e sid s true
    rw [hp] at h goes
    simp only [go] at h
    split at h
    next => exact goes h (show _ < 7 by omega)
    next => exact goes h (show 6 < 7 by omega)
  | closing e sid s victim =>
    have hafter := @afterSolve_phase Proxy cfg e sid s true
    rw [hp] at h goes
    exact goes h (show _ < 6 by omega)
  | drain e sid s b =>
    rw [hp] at h goes
    exact goes h (show 4 < 5 by omega)
  | release e sid s b =>
    rw [hp] at h goes
    exact goes h (show 3 < 4 by omega)
  | endUse e sid s b =>
    rw [hp] at h goes
    exact goes h (show 0 < 3 by omega)
  | checkPools a todo =>
    rw [hp] at h goes
    cases todo with
    | nil =>
      simp only [go] at h
      split at h
      next => exact goes h (show 0 < 20 by omega)
      next => exact goes h (show 5 < 20 by omega)
    | cons e todo =>
      simp only [go] at h
      split at h
      next => exact goes h (show 0 < 20 by omega)
      next =>
        -- one pool less to look into
        obtain rfl := Option.some.inj h
        rw [World.goto_self]
        exact Pc.rank_lt_of_todo rfl (Nat.lt_succ_self todo.length)

/-- The only action of a thread in a call that brings it no further. -/
def Act.drives : Act Proxy → Bool
  | .drive => true
  | _ => false

theorem step_rank {cfg : Config} {w w' : World Proxy} {t : Tid} {act : Act Proxy}
    (h : step cfg w (t, act) = some w') (hbusy : (w.pcs t).resting = false)
    (hact : act.drives = false) : (w'.pcs t).rank < (w.pcs t).rank := by
  cases act with
  | go now => exact go_rank h
  | drive => cases hact
  | start c =>
    simp only [step] at h
    split at h
    next hp =>
      rw [hp] at hbusy
      cases hbusy
    next => cases h
  | fail text =>
    simp only [step] at h
    split at h
    next a k hp =>
      obtain rfl := Option.some.inj h
      rw [World.goto_self, hp]
      refine Pc.rank_lt_of_phase ?_
      rw [raised_phase]
      exact Nat.succ_pos _
    next e sid s hp =>
      obtain rfl := Option.some.inj h
      rw [World.goto_self, hp]
      exact Pc.rank_lt_of_phase (show 3 < 9 by omega)
    next e sid s hp =>
      obtain rfl := Option.some.inj h
      have hafter := @afterSolve_phase Proxy cfg e sid s false
      rw [World.goto_self, hp]
      exact Pc.rank_lt_of_phase (show _ < 8 by omega)
    next => cases h
  | timeout =>
    simp only [step] at h
    split at h
    next e sid s hp =>
      obtain rfl := Option.some.inj h
      rw [World.goto_self, hp]
      exact Pc.rank_lt_of_phase (show 7 < 8 by omega)
    next => cases h

/-- A thread that drives its browser stays where it is. -/
theorem step_drives {cfg : Config} {w w' : World Proxy} {t : Tid} {act : Act Proxy}
    (h : step cfg w (t, act) = some w') (hact : act.drives = true) : w'.pcs t = w.pcs t := by
  cases act with
  | drive =>
    simp only [step] at h
    split at h
    next =>
      obtain rfl := Option.some.inj h
      exact World.goto_self ..
    next => cases h
  | _ => cases hact

/-- A thread in a call may always go on, or is waiting for a lock and may give up on it. -/
theorem may_go_on (cfg : Config) (w : World Proxy) {t : Tid} (now : Int)
    (hbusy : (w.pcs t).resting = false) : (∃ w', step cfg w (t, .go now) = some w') ∨
      ∃ e sid s, w.pcs t = .acquire e sid s ∧ (w.st.heap s).locked = true ∧
        ∀ text, ∃ w', step cfg w (t, .fail text) = some w' := by
  simp only [step]
  cases hp : w.pcs t with
  | idle | solved | answered =>
    rw [hp] at hbusy
    cases hbusy
  | acquire e sid s =>
    cases hlocked : (w.st.heap s).locked with
    | true => exact Or.inr ⟨e, sid, s, rfl, hlocked, fun _ => ⟨_, rfl⟩⟩
    | false =>
      exact Or.inl ⟨_, if_neg (Bool.eq_false_iff.mp hlocked)⟩
  | build | extra | remember | recallProxy | expired | holding | forget | reap | cap | driving
  | closing | drain | release | endUse => exact Or.inl ⟨_, rfl⟩
  | teardown todo => cases todo <;> exact Or.inl ⟨_, rfl⟩
  | lookup | insert | check | remove | timedOut =>
    simp only [go]
    split <;> exact Or.inl ⟨_, rfl⟩
  | checkPools a todo =>
    cases todo <;> simp only [go] <;> split <;> exact Or.inl ⟨_, rfl⟩

/-- Every thread that is in a call takes one of the steps it may take, sooner or later. -/
def Fair {cfg : Config} (x : Execution (@step Proxy cfg)) : Prop :=
  ∀ t n, ((x.state n).pcs t).resting = false →
    ∃ k, n ≤ k ∧ (x.act k).1 = t ∧ (x.act k).2.drives = false

section Ends

variable {cfg : Config} (x : Execution (@step Proxy cfg))

/-- The states of an execution from start-up. -/
theorem exclusive_execution (hinit : x.state 0 = World.init) (n : ℕ) :
    WF (x.state n) ∧ Counted (x.state n) ∧ Exclusive (x.state n) := by
  have hrun := x.run (Nat.zero_le n)
  rw [hinit] at hrun
  exact exclusive_run hrun

/-- Nobody else moves a thread. -/
theorem pcs_other_execution (hinit : x.state 0 = World.init) {t : Tid} {n : ℕ}
    (ht : t ≠ (x.act n).1) : (x.state (n + 1)).pcs t = (x.state n).pcs t :=
  (step_effect (exclusive_execution x hinit n).1 (x.next n)).pcs_other ht

theorem rests (hinit : x.state 0 = World.init) (hfair : Fair x) (t : Tid) (m : ℕ) :
    ∃ n, m ≤ n ∧ ((x.state n).pcs t).resting = true := by
  let own : ℕ → Prop := fun n => (x.act n).1 = t ∧ (x.act n).2.drives = false
  have hlt : ∀ n, ¬ ((x.state n).pcs t).resting = true → own n →
      ((x.state (n + 1)).pcs t).rank < ((x.state n).pcs t).rank := by
    intro n hbusy ⟨ht, hact⟩
    have hnext : step cfg (x.state n) (t, (x.act n).2) = some (x.state (n + 1)) := by
      rw [← ht]
      exact x.next n
    exact step_rank hnext (Bool.eq_false_iff.mpr hbusy) hact
  refine x.comes_to_rest (fun w => (w.pcs t).rank) (fun w => (w.pcs t).resting = true) own
    (fun n hbusy => ?_) hlt (fun n hbusy => hfair t n (Bool.eq_false_iff.mpr hbusy)) m
  by_cases ht : (x.act n).1 = t
  · cases hact : (x.act n).2.drives with
    | false => exact (hlt n hbusy ⟨ht, hact⟩).le
    | true =>
      have hstays := step_drives (x.next n) hact
      rw [ht] at hstays
      rw [hstays]
  · rw [pcs_other_execution x hinit (Ne.symm ht)]

/-- A thread that has a lock comes to its `release`. -/
theorem comes_to_release (hinit : x.state 0 = World.init) (hfair : Fair x) {t : Tid} {s : Ref}
    {m : ℕ} (hm : ((x.state m).pcs t).locks = some s) :
    ∃ n, m ≤ n ∧ ((x.state n).st.heap s).locked = false := by
  obtain ⟨n, hmn, hrest⟩ := rests x hinit hfair t m
  have hgone : ((x.state n).pcs t).locks ≠ some s := by
    intro hlocks
    cases hp : (x.state n).pcs t with
    | idle | solved | answered =>
      rw [hp] at hlocks
      cases hlocks
    | _ =>
      rw [hp] at hrest
      cases hrest
  obtain ⟨k, hk, hheld, hleft⟩ := x.turns (P := fun w => (w.pcs t).locks = some s) hmn hm hgone
  have ht : (x.act k).1 = t := by
    by_contra hne
    rw [pcs_other_execution x hinit (Ne.symm hne)] at hleft
    exact hleft hheld
  have heff := step_locks (x.next k)
  rw [ht] at heff
  refine ⟨k + 1, Nat.le_succ_of_le hk, ?_⟩
  cases heff with
  | keep same | fresh same => exact absurd (same.trans hheld) hleft
  | take r free before =>
    rw [hheld] at before
    cases before
  | give r before after flags =>
    obtain rfl := Option.some.inj (hheld.symm.trans before)
    rw [flags, if_pos rfl]

/-- **Every call comes to its end, and every lock is given back.** In a call that is not over
a thread may always go on, but where it waits for a lock; and then it may give up, and some
other thread has the lock and may go on. -/
theorem calls_end (hinit : x.state 0 = World.init) (hfair : Fair x) (m : ℕ) :
    (∀ t, ∃ n, m ≤ n ∧ ((x.state n).pcs t).resting = true) ∧
    (∀ s, ∃ n, m ≤ n ∧ ((x.state n).st.heap s).locked = false) ∧
    ∀ t now, ((x.state m).pcs t).resting = false →
      (∃ w', step cfg (x.state m) (t, .go now) = some w') ∨
      ∃ e sid s t', (x.state m).pcs t = .acquire e sid s ∧ t' ≠ t ∧
        ((x.state m).pcs t').locks = some s ∧
        (∃ w', step cfg (x.state m) (t', .go now) = some w') ∧
        ∀ text, ∃ w', step cfg (x.state m) (t, .fail text) = some w' := by
  obtain ⟨-, -, hexclusive⟩ := exclusive_execution x hinit m
  refine ⟨fun t => rests x hinit hfair t m, fun s => ?_, fun t now hbusy => ?_⟩
  · cases hlocked : ((x.state m).st.heap s).locked with
    | false => exact ⟨m, Nat.le_refl m, hlocked⟩
    | true =>
      obtain ⟨t, ht⟩ := hexclusive.held s hlocked
      exact comes_to_release x hinit hfair ht
  · rcases may_go_on cfg (x.state m) now hbusy with hgo | ⟨e, sid, s, hp, hlocked, hfail⟩
    · exact Or.inl hgo
    · obtain ⟨t', ht'⟩ := hexclusive.held s hlocked
      have hne : t' ≠ t := by
        intro heq
        rw [heq, hp] at ht'
        cases ht'
      have hbusy' : ((x.state m).pcs t').resting = false := by
        cases hp' : (x.state m).pcs t' with
        | driving | timedOut | closing | drain | release => rfl
        | _ =>
          rw [hp'] at ht'
          cases ht'
      refine Or.inr ⟨e, sid, s, t', hp, hne, ht', ?_, hfail⟩
      -- who has a lock does not wait for one
      rcases may_go_on cfg (x.state m) now hbusy' with hgo | ⟨e', sid', s', hp', -, -⟩
      · exact hgo
      · rw [hp'] at ht'
        cases ht'

end Ends

/-- A thread at rest that sweeps with no limit set is where it was. -/
theorem sweep_nothing {cfg : Config} {w : World Proxy} {t : Tid} (hidle : w.pcs t = .idle) :
    step cfg w (t, .start (.reapIdle .chrome none 0)) = some w := by
  simp only [step, hidle, enter, Option.map_some, World.goto]
  rw [← hidle, Function.update_eq_self]

/-- The only call is one solve, which takes the lock, drives, and gives it back. -/
def oneSolve : List (Tid × Act String) :=
  [(1, .start (.solve "s" none none))] ++ goes 1 7 ++ [(1, .drive)] ++ goes 1 3

theorem one_solve_ends : ∃ x : Execution (@step String .unset),
    ((x.state 8).pcs 1).locks = some 0 ∧
    (∀ t, ∃ n, 8 ≤ n ∧ ((x.state n).pcs t).resting = true) ∧
    ∀ s, ∃ n, 8 ≤ n ∧ ((x.state n).st.heap s).locked = false := by
  have hany : (exec (step .unset) (fun _ _ => true) World.init oneSolve).any
      (fun w => decide (w.pcs 0 = .idle ∧ w.pcs 1 = .solved)) = true := by decide
  obtain ⟨w, hrun, hw⟩ := (Option.any_eq_true _ _).mp hany
  obtain ⟨hidle, hsolved⟩ := of_decide_eq_true hw
  let x := Execution.listed hrun (sweep_nothing hidle)
  have hinit : x.state 0 = World.init := Execution.listed_zero _ _
  have hlast : ∀ n, oneSolve.length ≤ n → x.state n = w := fun n => Execution.listed_last _ _
  have hacts : ∀ n, n < oneSolve.length →
      (oneSolve.getD n (0, .start (.reapIdle .chrome none 0))).1 = 1 := by decide
  have hothers : ∀ n t, t ≠ 1 → (x.state n).pcs t = .idle := by
    intro n t ht
    induction n with
    | zero => rw [hinit]; rfl
    | succ n ih =>
      by_cases hn : n < oneSolve.length
      · rw [pcs_other_execution x hinit fun heq => ht (heq.trans (hacts n hn))]
        exact ih
      · have hle := Nat.le_of_not_lt hn
        rw [hlast n hle] at ih
        rw [hlast (n + 1) (Nat.le_succ_of_le hle)]
        exact ih
  have hfair : Fair x := by
    intro t n hbusy
    by_cases ht : t = 1
    · by_cases hn : n < oneSolve.length
      · exact ⟨11, Nat.le_of_lt_succ hn, ht ▸ rfl, rfl⟩
      · rw [hlast n (Nat.le_of_not_lt hn), ht, hsolved] at hbusy
        cases hbusy
    · rw [hothers n t ht] at hbusy
      cases hbusy
  have hlocks : ((x.state 8).pcs 1).locks = some 0 := by
    have hpart : (exec (step .unset) (fun _ _ => true) World.init (oneSolve.take 8)).any
        (fun w => decide ((w.pcs 1).locks = some 0)) = true := by decide
    obtain ⟨w', hrun', hw'⟩ := (Option.any_eq_true _ _).mp hpart
    show (((exec (step .unset) (fun _ _ => true) World.init (oneSolve.take 8)).getD w).pcs
      1).locks = some 0
    rw [hrun']
    exact of_decide_eq_true hw'
  have hends := calls_end x hinit hfair 8
  exact ⟨x, hlocks, hends.1, hends.2.1⟩

end Solverr.Sessions
