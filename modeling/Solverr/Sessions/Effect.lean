import Solverr.Sessions.Calls

/-!
# What one step can do

The invariants of the following files do not look at program points. They look
at what a thread has in hand:

- `own`: payloads out of every pool that the thread will put into a pool or tear
  down;
- `marked`: the session whose claim the thread will still release, and where it has
  to be in a pool while the claim protects it.

`step_effect` says once, for every section of every call, how a step changes the
stores and the acting thread's hand: an `Effect`. It needs the bookkeeping facts
`WF` (a pooled session is filed under its own id; a session waiting to be filed
has the id and proxy it was built for), which it preserves.
-/

namespace Solverr.Sessions

open Solverr.Lib (Dict Run)

variable {Proxy : Type}

/-! ## A thread's hand -/

namespace Pc

/-- Payloads the thread will put into a pool or tear down. -/
def own : Pc Proxy → List Ref
  | .insert _ _ s => [s]
  | .extra _ _ s _ => [s]
  | .expired _ _ _ s => [s]
  | .teardown todo => todo
  | .closing _ _ _ victim => [victim]
  | _ => []

/-- The session whose claim the thread will still release with `end_use`, and
where it has to be while the claim protects it (a request that timed out has
discarded its session and only has the release left). -/
def marked : Pc Proxy → Option (Ref × Option (Engine × String))
  | .extra a k _ race => if k.claim then some (race, some (a.store, a.sid)) else none
  | .remember a k s => if k.claim then some (s, some (a.store, a.sid)) else none
  | .check e sid _ _ s _ => some (s, some (e, sid))
  | .holding e sid s => some (s, some (e, sid))
  | .acquire e sid s => some (s, some (e, sid))
  | .driving e sid s => some (s, some (e, sid))
  | .timedOut e sid s => some (s, some (e, sid))
  | .closing _ _ s _ => some (s, none)
  | .drain e sid s b => some (s, if b then none else some (e, sid))
  | .release e sid s b => some (s, if b then none else some (e, sid))
  | .endUse e sid s b => some (s, if b then none else some (e, sid))
  | _ => none

/-- The session a `create` is filing: about to be pooled, or to have its proxy
remembered. -/
def filing : Pc Proxy → Option (CreateArgs Proxy × Ref)
  | .insert a _ s => some (a, s)
  | .remember a _ s => some (a, s)
  | _ => none

/-- The session whose claim the thread will still release. -/
def mark (p : Pc Proxy) : Option Ref := p.marked.map Prod.fst

end Pc

/-! ## Bookkeeping -/

/-- `s` was built for the call `a`. -/
def BuiltFor (st : Stores Proxy) (a : CreateArgs Proxy) (s : Ref) : Prop :=
  s < st.built ∧ (st.heap s).sessionId = a.sid ∧ (st.heap s).proxy = a.proxy

/-- The bookkeeping every run keeps. -/
structure WF (w : World Proxy) : Prop where
  keyed : w.st.Keyed
  filing : ∀ t a s, (w.pcs t).filing = some (a, s) → BuiltFor w.st a s

/-- Sessions that exist keep their id and their proxy. -/
structure Keeps (st st' : Stores Proxy) : Prop where
  built : st.built ≤ st'.built
  sessionId : ∀ s, s < st.built → (st'.heap s).sessionId = (st.heap s).sessionId
  proxy : ∀ s, s < st.built → (st'.heap s).proxy = (st.heap s).proxy

namespace Keeps

theorem of_heap {st st' : Stores Proxy} (hb : st'.built = st.built)
    (hs : ∀ s, (st'.heap s).sessionId = (st.heap s).sessionId)
    (hp : ∀ s, (st'.heap s).proxy = (st.heap s).proxy) : Keeps st st' :=
  ⟨hb ▸ Nat.le_refl _, fun s _ => hs s, fun s _ => hp s⟩

theorem refl (st : Stores Proxy) : Keeps st st := of_heap rfl (fun _ => rfl) fun _ => rfl

theorem trans {st₁ st₂ st₃ : Stores Proxy} (h₁ : Keeps st₁ st₂) (h₂ : Keeps st₂ st₃) :
    Keeps st₁ st₃ :=
  ⟨Nat.le_trans h₁.built h₂.built,
    fun s hs => (h₂.sessionId s (Nat.lt_of_lt_of_le hs h₁.built)).trans (h₁.sessionId s hs),
    fun s hs => (h₂.proxy s (Nat.lt_of_lt_of_le hs h₁.built)).trans (h₁.proxy s hs)⟩

theorem builtFor {st st' : Stores Proxy} (h : Keeps st st') {a : CreateArgs Proxy} {s : Ref}
    (hs : BuiltFor st a s) : BuiltFor st' a s :=
  ⟨Nat.lt_of_lt_of_le hs.1 h.built, (h.sessionId s hs.1).trans hs.2.1,
    (h.proxy s hs.1).trans hs.2.2⟩

theorem keyed {st st' : Stores Proxy} (h : Keeps st st') (hk : st.Keyed)
    (hsub : ∀ e sid s, (st'.pools e).find? sid = some s → (st.pools e).find? sid = some s) :
    st'.Keyed := by
  intro e sid s hs
  obtain ⟨hlt, hid⟩ := hk e sid s (hsub e sid s hs)
  exact ⟨Nat.lt_of_lt_of_le hlt h.built, (h.sessionId s hlt).trans hid⟩

end Keeps

namespace Stores

/-- Changing one session in fields other than its id and its proxy. -/
theorem keeps_modify (st : Stores Proxy) (s : Ref) {f : Session Proxy → Session Proxy}
    (hid : (f (st.heap s)).sessionId = (st.heap s).sessionId)
    (hproxy : (f (st.heap s)).proxy = (st.heap s).proxy) : Keeps st (st.modify s f) := by
  refine .of_heap rfl ?_ ?_
  · intro r
    rw [modify_heap]
    split
    next h => rw [hid, h]
    next => rfl
  · intro r
    rw [modify_heap]
    split
    next h => rw [hproxy, h]
    next => rfl

theorem keeps_claim (st : Stores Proxy) (s : Ref) (now : Int) : Keeps st (st.claim s now) :=
  st.keeps_modify s rfl rfl

theorem keeps_endUse (st : Stores Proxy) (s : Ref) (now : Int) : Keeps st (st.endUse s now) :=
  st.keeps_modify s rfl rfl

theorem keeps_setLocked (st : Stores Proxy) (s : Ref) (b : Bool) : Keeps st (st.setLocked s b) :=
  st.keeps_modify s rfl rfl

/-- A new session takes a fresh place. -/
theorem keeps_build (st : Stores Proxy) (sid : String) (proxy : Option Proxy) (now : Int) :
    Keeps st (st.build sid proxy now) := by
  refine ⟨Nat.le_succ _, ?_, ?_⟩
  · intro s hs
    rw [build_heap, if_neg (Nat.ne_of_lt hs)]
  · intro s hs
    rw [build_heap, if_neg (Nat.ne_of_lt hs)]

theorem builtFor_build (st : Stores Proxy) (a : CreateArgs Proxy) (now : Int) :
    BuiltFor (st.build a.sid a.proxy now) a st.built := by
  refine ⟨Nat.lt_succ_self _, ?_, ?_⟩
  · rw [build_heap, if_pos rfl]
  · rw [build_heap, if_pos rfl]

end Stores

/-! ## Moving a thread -/

namespace World

@[simp] theorem goto_st (w : World Proxy) (t : Tid) (p : Pc Proxy) : (w.goto t p).st = w.st := rfl

@[simp] theorem goto_self (w : World Proxy) (t : Tid) (p : Pc Proxy) :
    (w.goto t p).pcs t = p := Function.update_self ..

theorem goto_other (w : World Proxy) {t t' : Tid} (p : Pc Proxy) (h : t' ≠ t) :
    (w.goto t p).pcs t' = w.pcs t' := Function.update_of_ne h ..

/-- What the threads own after one of them has moved. -/
theorem own_goto (w : World Proxy) (t t' : Tid) (p : Pc Proxy) :
    ((w.goto t p).pcs t').own = if t' = t then p.own else (w.pcs t').own := by
  split
  next h => rw [h, goto_self]
  next h => rw [goto_other w p h]

@[simp] theorem setStores_st (w : World Proxy) (st : Stores Proxy) : (w.setStores st).st = st := rfl

@[simp] theorem setStores_pcs (w : World Proxy) (st : Stores Proxy) :
    (w.setStores st).pcs = w.pcs := rfl

@[simp] theorem claimIf_pcs (w : World Proxy) (b : Bool) (t : Tid) (s : Ref) (now : Int) :
    (w.claimIf b t s now).pcs = w.pcs := by
  cases b <;> rfl

@[simp] theorem claimIf_built (w : World Proxy) (b : Bool) (t : Tid) (s : Ref) (now : Int) :
    (w.claimIf b t s now).st.built = w.st.built := by
  cases b <;> rfl

@[simp] theorem claimIf_torn (w : World Proxy) (b : Bool) (t : Tid) (s : Ref) (now : Int) :
    (w.claimIf b t s now).st.torn = w.st.torn := by
  cases b <;> rfl

@[simp] theorem claimIf_memory (w : World Proxy) (b : Bool) (t : Tid) (s : Ref) (now : Int) :
    (w.claimIf b t s now).st.memory = w.st.memory := by
  cases b <;> rfl

@[simp] theorem claimIf_removedBy (w : World Proxy) (b : Bool) (t : Tid) (s : Ref) (now : Int) :
    (w.claimIf b t s now).st.removedBy = w.st.removedBy := by
  cases b <;> rfl

@[simp] theorem claimIf_pools (w : World Proxy) (b : Bool) (t : Tid) (s : Ref) (now : Int) :
    (w.claimIf b t s now).st.pools = w.st.pools := by
  cases b <;> rfl

theorem keeps_claimIf (w : World Proxy) (b : Bool) (t : Tid) (s : Ref) (now : Int) :
    Keeps w.st (w.claimIf b t s now).st := by
  cases b
  · exact .refl _
  · exact w.st.keeps_claim s now

end World

/-! ## The effects -/

/-- A thread keeps what it has marked, or stops being protected by it. -/
def Weakens (m m' : Option (Ref × Option (Engine × String))) : Prop :=
  m' = m ∨ ∃ s, m.map Prod.fst = some s ∧ m' = some (s, none)

/-- Nobody but the acting thread can have the sessions of `L` in use. -/
inductive Unused (w : World Proxy) (t : Tid) (L : List Ref) : Prop
  | idle : (∀ s ∈ L, (w.st.heap s).inUse = 0) → Unused w t L
  | own {s : Ref} : L = [s] → (w.st.heap s).inUse = 1 → (w.pcs t).mark = some s → Unused w t L

/-- What one step of thread `t` did to the stores and to the thread's hand. -/
inductive Effect (w : World Proxy) (t : Tid) (act : Act Proxy) : World Proxy → Prop
  /-- nothing but the program point -/
  | skip {p : Pc Proxy} (own : p.own = (w.pcs t).own)
      (marked : Weakens (w.pcs t).marked p.marked) (plain : p.filing = none) :
      Effect w t act (w.goto t p)
  /-- a pooled session claimed -/
  | claim {e : Engine} {sid : String} {s : Ref} {p : Pc Proxy} (now : Int)
      (found : (w.st.pools e).find? sid = some s) (own : p.own = (w.pcs t).own)
      (before : (w.pcs t).marked = none) (after : p.marked = some (s, some (e, sid)))
      (plain : p.filing = none) :
      Effect w t act ((w.claimIf true t s now).goto t p)
  /-- a browser launched and its session made -/
  | build {a : CreateArgs Proxy} {k : CreateK} (now : Int) (at_ : w.pcs t = .build a k) :
      Effect w t act ((w.setStores (w.st.build a.sid a.proxy now)).goto t (.insert a k w.st.built))
  /-- the new session put in its pool, and claimed if the caller asked -/
  | insert {a : CreateArgs Proxy} {k : CreateK} {s : Ref} (now : Int)
      (at_ : w.pcs t = .insert a k s) (free : (w.st.pools a.store).find? a.sid = none) :
      Effect w t act (((w.setStores (w.st.insert a.store a.sid s)).claimIf k.claim t s now).goto t
        (.remember a k s))
  /-- the proxy memory read -/
  | recallProxy (sid : String) {p : Pc Proxy} (own : p.own = (w.pcs t).own)
      (marked : p.marked = (w.pcs t).marked) (plain : p.filing = none) :
      Effect w t act
        ((w.setStores { w.st with memory := (recallProxy w.st.memory sid).2 }).goto t p)
  /-- the proxy of a new session remembered -/
  | remember {a : CreateArgs Proxy} {k : CreateK} {s : Ref} (at_ : w.pcs t = .remember a k s) :
      Effect w t act ((w.setStores
        { w.st with memory := rememberProxy w.st.memory a.sid a.proxy }).goto t (resume a s true k))
  /-- an id's proxy forgotten -/
  | forget {e : Engine} {sid : String} (at_ : w.pcs t = .forget e sid) :
      Effect w t act ((w.setStores { w.st with memory := forgetProxy w.st.memory sid }).goto t
        (.remove e sid .destroy))
  /-- sessions taken out of a pool, to be torn down -/
  | take {e : Engine} {L : List Ref} {op : Remover} {p : Pc Proxy} (before : (w.pcs t).own = [])
      (after : p.own = L) (nodup : L.Nodup)
      (pooled : ∀ s ∈ L, (w.st.pools e).find? (w.st.heap s).sessionId = some s)
      (marked : p.marked = none ∨ ∃ s, (w.pcs t).mark = some s ∧ p.marked = some (s, none))
      (hop : op = .destroy → ∃ sid, w.pcs t = .remove e sid .destroy ∧
        L.map (fun s => (w.st.heap s).sessionId) = [sid])
      (unused : Unused w t L ∨ ∃ sid v, L = [v] ∧ (w.st.pools e).find? sid = some v ∧
        (w.pcs t = .remove e sid op ∨ ∃ s, w.pcs t = .timedOut e sid s))
      (plain : p.filing = none) :
      Effect w t act ((w.setStores
        (w.st.pop e (L.map fun s => (w.st.heap s).sessionId) op)).goto t p)
  /-- an expired session given up, with whatever the pool has under its id by now -/
  | stray {e : Engine} {sid : String} {ttl : Option Int} {k : GetK} {s : Ref} {fresh : Bool}
      (now : Int) (at_ : w.pcs t = .check e sid ttl k s fresh) (hact : act = .go now)
      (hexp : w.st.expired s fresh ttl now = true)
      (gone : (w.st.pools e).find? sid ≠ some s) :
      Effect w t act ((w.setStores (w.st.pop e [sid] .expiry)).goto t (.expired e sid k s))
  /-- a payload torn down -/
  | teardown {s : Ref} {p : Pc Proxy} (own : (w.pcs t).own = s :: p.own)
      (marked : p.marked = (w.pcs t).marked) (plain : p.filing = none) :
      Effect w t act ((w.setStores (w.st.teardown s)).goto t p)
  /-- a claim released -/
  | release {s : Ref} {p : Pc Proxy} (now : Int) (before : (w.pcs t).mark = some s)
      (after : p.marked = none) (own : p.own = (w.pcs t).own) (plain : p.filing = none) :
      Effect w t act ((w.endUse t s now).goto t p)
  /-- a session lock taken or released -/
  | lock (s : Ref) (b : Bool) {p : Pc Proxy} (own : p.own = (w.pcs t).own)
      (marked : p.marked = (w.pcs t).marked) (plain : p.filing = none) :
      Effect w t act ((w.setStores (w.st.setLocked s b)).goto t p)

/-- What `reap_idle` and `enforce_cap` do, by their specification in `Store`. -/
theorem Effect.of_idle {w : World Proxy} {t : Tid} {act : Act Proxy} {e : Engine} {L : List Ref}
    {op : Remover} {st' : Stores Proxy} (hp : (w.pcs t).own = []) (hop : op ≠ .destroy)
    (h : w.st.Idle e L ∧ st' = w.st.pop e (L.map fun s => (w.st.heap s).sessionId) op) :
    Effect w t act ((w.setStores st').goto t (.teardown L)) := by
  obtain ⟨hidle, rfl⟩ := h
  exact .take hp rfl hidle.nodup hidle.pooled (Or.inl rfl) (fun he => absurd he hop)
    (Or.inl (.idle hidle.unused)) rfl

/-- What a removal by id does. -/
theorem Effect.of_remove {w : World Proxy} {t : Tid} {act : Act Proxy} {e : Engine} {sid : String}
    {op : Remover} {s : Ref} (hw : w.st.Keyed) (hp : w.pcs t = .remove e sid op)
    (hs : (w.st.pools e).find? sid = some s) :
    Effect w t act ((w.setStores (w.st.pop e [sid] op)).goto t (.teardown [s])) := by
  have hid : [sid] = [s].map fun s => (w.st.heap s).sessionId := by
    rw [List.map_singleton, (hw e sid s hs).2]
  rw [hid]
  refine .take (by rw [hp]; rfl) rfl (List.nodup_singleton s) ?_ (Or.inl rfl) ?_
    (Or.inr ⟨sid, s, rfl, hs, Or.inl hp⟩) rfl
  · intro r hr
    rw [List.mem_singleton.mp hr, (hw e sid s hs).2]
    exact hs
  · rintro rfl
    exact ⟨sid, hp, hid.symm⟩

/-- Returning a claimed session keeps it marked and protected. -/
theorem returned_marked (e : Engine) (sid : String) (s : Ref) (k : GetK) :
    (returned e sid s k : Pc Proxy).marked = some (s, some (e, sid)) := by
  cases k <;> rfl

theorem returned_filing (e : Engine) (sid : String) (s : Ref) (k : GetK) :
    (returned e sid s k : Pc Proxy).filing = none := by
  cases k <;> rfl

theorem returned_own (e : Engine) (sid : String) (s : Ref) (k : GetK) :
    (returned e sid s k : Pc Proxy).own = [] := by
  cases k <;> rfl

theorem resume_marked (a : CreateArgs Proxy) (s : Ref) (fresh : Bool) (k : CreateK) :
    (resume a s fresh k).marked = if k.claim then some (s, some (a.store, a.sid)) else none := by
  cases k with
  | caller claim => cases claim <;> rfl
  | command => rfl
  | first => rfl
  | rebuild k => exact returned_marked ..

theorem resume_own (a : CreateArgs Proxy) (s : Ref) (fresh : Bool) (k : CreateK) :
    (resume a s fresh k).own = [] := by
  cases k with
  | caller claim => cases claim <;> rfl
  | command => rfl
  | first => rfl
  | rebuild k => exact returned_own ..

theorem resume_filing (a : CreateArgs Proxy) (s : Ref) (fresh : Bool) (k : CreateK) :
    (resume a s fresh k).filing = none := by
  cases k with
  | caller claim => cases claim <;> rfl
  | command => rfl
  | first => rfl
  | rebuild k => exact returned_filing ..

/-- A thread with nothing in hand. -/
def Pc.Empty (p : Pc Proxy) : Prop := p.own = [] ∧ p.marked = none ∧ p.filing = none

theorem raised_empty (text : String) (k : CreateK) : (raised text k : Pc Proxy).Empty := by
  cases k with
  | caller | command => exact ⟨rfl, rfl, rfl⟩
  | first _ k | rebuild k => cases k <;> exact ⟨rfl, rfl, rfl⟩

theorem afterSolve_marked (cfg : Config) (e : Engine) (sid : String) (s : Ref) (b : Bool) :
    (afterSolve cfg e sid s b : Pc Proxy).marked = some (s, if b then none else some (e, sid)) ∧
    (afterSolve cfg e sid s b : Pc Proxy).own = [] ∧
    (afterSolve cfg e sid s b : Pc Proxy).filing = none := by
  unfold afterSolve
  split <;> exact ⟨rfl, rfl, rfl⟩

/-- A call starts with empty hands. -/
theorem enter_empty {cfg : Config} {c : Call Proxy} {p : Pc Proxy} (h : enter cfg c = some p) :
    p.Empty := by
  cases c with
  | create | destroy | discard =>
    obtain rfl := Option.some.inj h
    exact ⟨rfl, rfl, rfl⟩
  | get | solve =>
    simp only [enter] at h
    split at h
    next => cases h
    next =>
      obtain rfl := Option.some.inj h
      exact ⟨rfl, rfl, rfl⟩
  | reapIdle e ttl now | enforceCap e ttl =>
    cases ttl with
    | none =>
      obtain rfl := Option.some.inj h
      exact ⟨rfl, rfl, rfl⟩
    | some ttl =>
      simp only [enter] at h
      split at h <;> obtain rfl := Option.some.inj h <;> exact ⟨rfl, rfl, rfl⟩
  | sessionsCreate =>
    simp only [enter] at h
    split at h <;> obtain rfl := Option.some.inj h <;> exact ⟨rfl, rfl, rfl⟩

/-- The sections of `create`. -/
theorem go_effect_create {cfg : Config} {w w' : World Proxy} {t : Tid} {now : Int}
    {a : CreateArgs Proxy} {k : CreateK} :
    (w.pcs t = .lookup a k → go cfg w t now (.lookup a k) = some w' →
      Effect w t (.go now) w') ∧
    (w.pcs t = .build a k → go cfg w t now (.build a k) = some w' → Effect w t (.go now) w') ∧
    (∀ s, w.pcs t = .insert a k s → go cfg w t now (.insert a k s) = some w' →
      Effect w t (.go now) w') ∧
    (∀ s r, w.pcs t = .extra a k s r → go cfg w t now (.extra a k s r) = some w' →
      Effect w t (.go now) w') ∧
    (∀ s, w.pcs t = .remember a k s → go cfg w t now (.remember a k s) = some w' →
      Effect w t (.go now) w') := by
  refine ⟨?_, ?_, ?_, ?_, ?_⟩
  · intro hp h
    simp only [go] at h
    split at h
    next existing hfound =>
      obtain rfl := Option.some.inj h
      cases hk : k.claim with
      | true =>
        exact .claim now hfound (by rw [hp, resume_own]; rfl) (by rw [hp]; rfl)
          (by rw [resume_marked, hk]; rfl) (resume_filing ..)
      | false =>
        refine .skip (by rw [hp, resume_own]; rfl) (Or.inl ?_) (resume_filing ..)
        rw [resume_marked, hk, hp]
        rfl
    next =>
      obtain rfl := Option.some.inj h
      exact .skip (by rw [hp]; rfl) (Or.inl (by rw [hp]; rfl)) rfl
  · intro hp h
    obtain rfl := Option.some.inj h
    exact .build now hp
  · intro s hp h
    simp only [go] at h
    split at h
    next race hfound =>
      obtain rfl := Option.some.inj h
      cases hk : k.claim with
      | true =>
        exact .claim now hfound (by rw [hp]; rfl) (by rw [hp]; rfl)
          (by simp only [Pc.marked, hk, if_true]) rfl
      | false =>
        refine .skip (by rw [hp]; rfl) (Or.inl ?_) rfl
        rw [hp]
        simp only [Pc.marked, hk, Bool.false_eq_true, if_false]
    next hfree =>
      obtain rfl := Option.some.inj h
      exact .insert now hp hfree
  · intro s r hp h
    obtain rfl := Option.some.inj h
    exact .teardown (by rw [hp, resume_own]; rfl) (by rw [hp, resume_marked]; rfl)
      (resume_filing ..)
  · intro s hp h
    obtain rfl := Option.some.inj h
    exact .remember hp

/-- An expiry decision is only made by the session's only holder. -/
theorem inUse_of_expired {st : Stores Proxy} {s : Ref} {fresh : Bool} {ttl : Option Int}
    {now : Int} (h : st.expired s fresh ttl now = true) : (st.heap s).inUse = 1 := by
  unfold Stores.expired at h
  split at h
  next => cases h
  next =>
    simp only [Bool.and_eq_true, beq_iff_eq] at h
    exact h.2

/-- The sections of `get`. -/
theorem go_effect_get {cfg : Config} {w w' : World Proxy} {t : Tid} {now : Int} (hw : WF w) :
    (∀ a ttl k, w.pcs t = .recallProxy a ttl k → go cfg w t now (.recallProxy a ttl k) = some w' →
      Effect w t (.go now) w') ∧
    (∀ e sid ttl k s fresh, w.pcs t = .check e sid ttl k s fresh →
      go cfg w t now (.check e sid ttl k s fresh) = some w' → Effect w t (.go now) w') ∧
    (∀ e sid k s, w.pcs t = .expired e sid k s → go cfg w t now (.expired e sid k s) = some w' →
      Effect w t (.go now) w') ∧
    (∀ e sid s, w.pcs t = .holding e sid s → go cfg w t now (.holding e sid s) = some w' →
      Effect w t (.go now) w') := by
  refine ⟨?_, ?_, ?_, ?_⟩
  · intro a ttl k hp h
    obtain rfl := Option.some.inj h
    exact .recallProxy a.sid (by rw [hp]; rfl) (by rw [hp]; rfl) rfl
  · intro e sid ttl k s fresh hp h
    simp only [go] at h
    split at h
    next hexp =>
      obtain rfl := Option.some.inj h
      by_cases hs : (w.st.pools e).find? sid = some s
      · -- the pool still has the session under this id: it is taken to be torn down
        have hid : [sid] = [s].map fun s => (w.st.heap s).sessionId := by
          rw [List.map_singleton, (hw.keyed e sid s hs).2]
        rw [hid]
        refine .take (by rw [hp]; rfl) rfl (List.nodup_singleton s) ?_ (Or.inl rfl) (by simp)
          (Or.inl (.own rfl (inUse_of_expired hexp) (by rw [hp]; rfl))) rfl
        intro r hr
        rw [List.mem_singleton.mp hr, (hw.keyed e sid s hs).2]
        exact hs
      · exact .stray now hp rfl hexp hs
    next =>
      obtain rfl := Option.some.inj h
      exact .skip (by rw [hp, returned_own]; rfl) (Or.inl (by rw [hp, returned_marked]; rfl))
        (returned_filing ..)
  · intro e sid k s hp h
    obtain rfl := Option.some.inj h
    exact .teardown (by rw [hp]; rfl) (by rw [hp]; rfl) rfl
  · intro e sid s hp h
    obtain rfl := Option.some.inj h
    exact .release now (by rw [hp]; rfl) rfl (by rw [hp]; rfl) rfl

/-- The sections of `destroy`, `discard`, `reap_idle` and `enforce_cap`. -/
theorem go_effect_remove {cfg : Config} {w w' : World Proxy} {t : Tid} {now : Int} (hw : WF w) :
    (∀ e sid, w.pcs t = .forget e sid → go cfg w t now (.forget e sid) = some w' →
      Effect w t (.go now) w') ∧
    (∀ e sid op, w.pcs t = .remove e sid op → go cfg w t now (.remove e sid op) = some w' →
      Effect w t (.go now) w') ∧
    (∀ e ttl at_, w.pcs t = .reap e ttl at_ → go cfg w t now (.reap e ttl at_) = some w' →
      Effect w t (.go now) w') ∧
    (∀ e n, w.pcs t = .cap e n → go cfg w t now (.cap e n) = some w' → Effect w t (.go now) w') ∧
    (∀ todo, w.pcs t = .teardown todo → go cfg w t now (.teardown todo) = some w' →
      Effect w t (.go now) w') := by
  refine ⟨?_, ?_, ?_, ?_, ?_⟩
  · intro e sid hp h
    obtain rfl := Option.some.inj h
    exact .forget hp
  · intro e sid op hp h
    simp only [go] at h
    split at h
    next =>
      obtain rfl := Option.some.inj h
      exact .skip (by rw [hp]; rfl) (Or.inl (by rw [hp]; rfl)) rfl
    next s hs =>
      obtain rfl := Option.some.inj h
      exact .of_remove hw.keyed hp hs
  · intro e ttl at_ hp h
    obtain rfl := Option.some.inj h
    exact .of_idle (by rw [hp]; rfl) (by simp) (Stores.reapIdle_spec hw.keyed e ttl at_)
  · intro e n hp h
    obtain rfl := Option.some.inj h
    exact .of_idle (by rw [hp]; rfl) (by simp) (Stores.enforceCap_spec hw.keyed e n)
  · intro todo hp h
    cases todo with
    | nil =>
      obtain rfl := Option.some.inj h
      exact .skip (by rw [hp]; rfl) (Or.inl (by rw [hp]; rfl)) rfl
    | cons s todo =>
      obtain rfl := Option.some.inj h
      exact .teardown (by rw [hp]; rfl) (by rw [hp]; rfl) rfl

/-- The sections of a solve. -/
theorem go_effect_solve {cfg : Config} {w w' : World Proxy} {t : Tid} {now : Int} (hw : WF w)
    {e : Engine} {sid : String} {s : Ref} :
    (w.pcs t = .acquire e sid s → go cfg w t now (.acquire e sid s) = some w' →
      Effect w t (.go now) w') ∧
    (w.pcs t = .driving e sid s → go cfg w t now (.driving e sid s) = some w' →
      Effect w t (.go now) w') ∧
    (w.pcs t = .timedOut e sid s → go cfg w t now (.timedOut e sid s) = some w' →
      Effect w t (.go now) w') ∧
    (∀ v, w.pcs t = .closing e sid s v → go cfg w t now (.closing e sid s v) = some w' →
      Effect w t (.go now) w') ∧
    (∀ b, w.pcs t = .drain e sid s b → go cfg w t now (.drain e sid s b) = some w' →
      Effect w t (.go now) w') ∧
    (∀ b, w.pcs t = .release e sid s b → go cfg w t now (.release e sid s b) = some w' →
      Effect w t (.go now) w') ∧
    (∀ b, w.pcs t = .endUse e sid s b → go cfg w t now (.endUse e sid s b) = some w' →
      Effect w t (.go now) w') := by
  refine ⟨?_, ?_, ?_, ?_, ?_, ?_, ?_⟩
  · intro hp h
    simp only [go] at h
    split at h
    next => cases h
    next =>
      obtain rfl := Option.some.inj h
      exact .lock s true (by rw [hp]; rfl) (by rw [hp]; rfl) rfl
  · intro hp h
    obtain rfl := Option.some.inj h
    obtain ⟨hm, ho, hf⟩ := @afterSolve_marked Proxy cfg e sid s false
    exact .skip (by rw [hp, ho]; rfl) (Or.inl (by rw [hp, hm]; rfl)) hf
  · intro hp h
    obtain ⟨hm, ho, hf⟩ := @afterSolve_marked Proxy cfg e sid s true
    simp only [go] at h
    split at h
    next =>
      obtain rfl := Option.some.inj h
      exact .skip (by rw [hp, ho]; rfl) (Or.inr ⟨s, by rw [hp]; rfl, hm⟩) hf
    next victim hv =>
      obtain rfl := Option.some.inj h
      have hid : [sid] = [victim].map fun s => (w.st.heap s).sessionId := by
        rw [List.map_singleton, (hw.keyed e sid victim hv).2]
      rw [hid]
      refine .take (by rw [hp]; rfl) rfl (List.nodup_singleton victim) ?_
        (Or.inr ⟨s, by rw [hp]; rfl, rfl⟩) (by simp)
        (Or.inr ⟨sid, victim, rfl, hv, Or.inr ⟨s, hp⟩⟩) rfl
      intro r hr
      rw [List.mem_singleton.mp hr, (hw.keyed e sid victim hv).2]
      exact hv
  · intro v hp h
    obtain rfl := Option.some.inj h
    obtain ⟨hm, ho, hf⟩ := @afterSolve_marked Proxy cfg e sid s true
    exact .teardown (by rw [hp, ho]; rfl) (by rw [hp, hm]; rfl) hf
  · intro b hp h
    obtain rfl := Option.some.inj h
    exact .skip (by rw [hp]; rfl) (Or.inl (by rw [hp]; rfl)) rfl
  · intro b hp h
    obtain rfl := Option.some.inj h
    exact .lock s false (by rw [hp]; rfl) (by rw [hp]; rfl) rfl
  · intro b hp h
    obtain rfl := Option.some.inj h
    exact .release now (by rw [hp]; rfl) rfl (by rw [hp]; rfl) rfl

/-- **One step is one effect.** -/
theorem step_effect {cfg : Config} {w w' : World Proxy} {t : Tid} {act : Act Proxy}
    (hw : WF w) (h : step cfg w (t, act) = some w') : Effect w t act w' := by
  cases act with
  | start c =>
    simp only [step] at h
    split at h
    next hp =>
      obtain ⟨p, hc, rfl⟩ := Option.map_eq_some_iff.mp h
      obtain ⟨ho, hm, hf⟩ := enter_empty hc
      exact .skip (by rw [hp, ho]; rfl) (Or.inl (by rw [hp, hm]; rfl)) hf
    next => cases h
  -- a section, by the call it is of
  | go now =>
    simp only [step] at h
    cases hp : w.pcs t with
    | idle | solved | answered => rw [hp] at h; cases h
    | lookup a k => exact go_effect_create.1 hp (hp ▸ h)
    | build a k => exact go_effect_create.2.1 hp (hp ▸ h)
    | insert a k s => exact go_effect_create.2.2.1 s hp (hp ▸ h)
    | extra a k s r => exact go_effect_create.2.2.2.1 s r hp (hp ▸ h)
    | remember a k s => exact go_effect_create.2.2.2.2 s hp (hp ▸ h)
    | recallProxy a ttl k => exact (go_effect_get hw).1 a ttl k hp (hp ▸ h)
    | check e sid ttl k s fresh => exact (go_effect_get hw).2.1 e sid ttl k s fresh hp (hp ▸ h)
    | expired e sid k s => exact (go_effect_get hw).2.2.1 e sid k s hp (hp ▸ h)
    | holding e sid s => exact (go_effect_get hw).2.2.2 e sid s hp (hp ▸ h)
    | forget e sid => exact (go_effect_remove hw).1 e sid hp (hp ▸ h)
    | remove e sid op => exact (go_effect_remove hw).2.1 e sid op hp (hp ▸ h)
    | reap e ttl at_ => exact (go_effect_remove hw).2.2.1 e ttl at_ hp (hp ▸ h)
    | cap e n => exact (go_effect_remove hw).2.2.2.1 e n hp (hp ▸ h)
    | teardown todo => exact (go_effect_remove hw).2.2.2.2 todo hp (hp ▸ h)
    | acquire e sid s => exact (go_effect_solve hw).1 hp (hp ▸ h)
    | driving e sid s => exact (go_effect_solve hw).2.1 hp (hp ▸ h)
    | timedOut e sid s => exact (go_effect_solve hw).2.2.1 hp (hp ▸ h)
    | closing e sid s v => exact (go_effect_solve hw).2.2.2.1 v hp (hp ▸ h)
    | drain e sid s b => exact (go_effect_solve hw).2.2.2.2.1 b hp (hp ▸ h)
    | release e sid s b => exact (go_effect_solve hw).2.2.2.2.2.1 b hp (hp ▸ h)
    | endUse e sid s b => exact (go_effect_solve hw).2.2.2.2.2.2 b hp (hp ▸ h)
    | checkPools a todo =>
      rw [hp] at h
      cases todo with
      | nil =>
        simp only [go] at h
        split at h <;> obtain rfl := Option.some.inj h <;>
          exact .skip (by rw [hp]; rfl) (Or.inl (by rw [hp]; rfl)) rfl
      | cons e todo =>
        simp only [go] at h
        split at h <;> obtain rfl := Option.some.inj h <;>
          exact .skip (by rw [hp]; rfl) (Or.inl (by rw [hp]; rfl)) rfl
  -- what a thread waits for raises: a build, a lock, a solve
  | fail text =>
    simp only [step] at h
    split at h
    next a k hp =>
      obtain rfl := Option.some.inj h
      obtain ⟨ho, hm, hf⟩ := @raised_empty Proxy text k
      exact .skip (by rw [hp, ho]; rfl) (Or.inl (by rw [hp, hm]; rfl)) hf
    next e sid s hp =>
      obtain rfl := Option.some.inj h
      exact .skip (by rw [hp]; rfl) (Or.inl (by rw [hp]; rfl)) rfl
    next e sid s hp =>
      obtain rfl := Option.some.inj h
      obtain ⟨hm, ho, hf⟩ := @afterSolve_marked Proxy cfg e sid s false
      exact .skip (by rw [hp, ho]; rfl) (Or.inl (by rw [hp, hm]; rfl)) hf
    next => cases h
  | timeout =>
    simp only [step] at h
    split at h
    next e sid s hp =>
      obtain rfl := Option.some.inj h
      exact .skip (by rw [hp]; rfl) (Or.inl (by rw [hp]; rfl)) rfl
    next => cases h
  | drive =>
    simp only [step] at h
    split at h
    next hp =>
      obtain rfl := Option.some.inj h
      exact .skip rfl (Or.inl rfl) (by rw [hp]; rfl)
    next => cases h

/-! ## The bookkeeping is kept -/

/-- Sessions keep their id and their proxy over a step. -/
theorem Effect.keeps {w w' : World Proxy} {t : Tid} {act : Act Proxy} (h : Effect w t act w') :
    Keeps w.st w'.st := by
  cases h with
  | skip => exact .refl _
  | claim now => exact w.keeps_claimIf true t _ now
  | build now => exact w.st.keeps_build _ _ now
  | @insert a k s now =>
    have h₁ : Keeps w.st (w.setStores (w.st.insert a.store a.sid s)).st :=
      .of_heap rfl (fun _ => rfl) fun _ => rfl
    exact h₁.trans (World.keeps_claimIf _ k.claim t s now)
  | recallProxy | remember | forget | take | stray | teardown =>
    exact .of_heap rfl (fun _ => rfl) fun _ => rfl
  | release now => exact w.st.keeps_endUse _ now
  | lock s b => exact w.st.keeps_setLocked s b

/-- A step changes the program point of its own thread only. -/
theorem Effect.pcs_other {w w' : World Proxy} {t t' : Tid} {act : Act Proxy}
    (h : Effect w t act w') (ht : t' ≠ t) :
    w'.pcs t' = w.pcs t' := by
  cases h with
  | claim | insert => exact (World.goto_other _ _ ht).trans (congrFun (World.claimIf_pcs ..) t')
  | _ => exact World.goto_other _ _ ht

/-- A step pools at most the session its own thread is inserting. -/
theorem Effect.find?_pools {w w' : World Proxy} {t : Tid} {act : Act Proxy}
    (h : Effect w t act w') {e : Engine} {sid : String} {s : Ref}
    (hs : (w'.st.pools e).find? sid = some s) :
    (w.st.pools e).find? sid = some s ∨
      ∃ a k, w.pcs t = .insert a k s ∧ w'.pcs t = .remember a k s ∧ e = a.store ∧
        sid = a.sid := by
  cases h with
  | @insert a k r now at_ free =>
    rw [World.goto_st, World.claimIf_pools, World.setStores_st, Stores.find?_insert] at hs
    split at hs
    next heq =>
      obtain rfl := Option.some.inj hs
      exact Or.inr ⟨a, k, at_, World.goto_self .., heq.1, heq.2⟩
    next => exact Or.inl hs
  | claim =>
    rw [World.goto_st, World.claimIf_pools] at hs
    exact Or.inl hs
  | take | stray =>
    rw [World.goto_st, World.setStores_st, Stores.find?_pop] at hs
    split at hs
    next => cases hs
    next => exact Or.inl hs
  | skip | build | recallProxy | remember | forget | teardown | release | lock => exact Or.inl hs

/-- What a thread is filing after a step it was filing before, or has just built. -/
theorem Effect.filing {w w' : World Proxy} {t : Tid} {act : Act Proxy}
    (h : Effect w t act w') {a : CreateArgs Proxy} {s : Ref}
    (hs : (w'.pcs t).filing = some (a, s)) :
    (w.pcs t).filing = some (a, s) ∨ BuiltFor w'.st a s := by
  cases h with
  | build now at_ =>
    rw [World.goto_self] at hs
    obtain ⟨rfl, rfl⟩ := Prod.mk.inj (Option.some.inj hs)
    exact Or.inr (w.st.builtFor_build _ now)
  | insert now at_ free =>
    rw [World.goto_self] at hs
    exact Or.inl (at_ ▸ hs)
  | remember =>
    rw [World.goto_self, resume_filing] at hs
    cases hs
  | forget | stray =>
    rw [World.goto_self] at hs
    cases hs
  | skip _ _ plain | claim _ _ _ _ _ plain | recallProxy _ _ _ plain | take _ _ _ _ _ _ _ plain
  | teardown _ _ plain | release _ _ _ _ plain | lock _ _ _ _ plain =>
    rw [World.goto_self, plain] at hs
    cases hs

/-- **Every step keeps the bookkeeping.** -/
theorem Effect.wf {w w' : World Proxy} {t : Tid} {act : Act Proxy} (h : Effect w t act w')
    (hw : WF w) : WF w' := by
  constructor
  · intro e sid s hs
    rcases h.find?_pools hs with hold | ⟨a, k, hp, -, rfl, rfl⟩
    · obtain ⟨hlt, hid⟩ := hw.keyed e sid s hold
      exact ⟨Nat.lt_of_lt_of_le hlt h.keeps.built, (h.keeps.sessionId s hlt).trans hid⟩
    · have hb := h.keeps.builtFor (hw.filing t a s (by rw [hp]; rfl))
      exact ⟨hb.1, hb.2.1⟩
  · intro t' a s hs
    by_cases ht : t' = t
    · subst ht
      rcases h.filing hs with hold | hnew
      · exact h.keeps.builtFor (hw.filing t' a s hold)
      · exact hnew
    · rw [h.pcs_other ht] at hs
      exact h.keeps.builtFor (hw.filing t' a s hs)

theorem wf_init : WF (World.init : World Proxy) := by
  constructor
  · intro e sid s hs
    cases hs
  · intro t a s hs
    cases hs

/-- The bookkeeping holds in every state any run reaches. -/
theorem wf_run {cfg : Config} {G : World Proxy → Tid × Act Proxy → Prop} {w : World Proxy}
    (h : Run (step cfg) G World.init w) : WF w :=
  h.invariant (fun _ _ _ hw _ hs => (step_effect hw hs).wf hw) wf_init

end Solverr.Sessions
