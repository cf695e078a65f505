import Solverr.Sessions.Custody

/-!
# Destroying a session forgets its proxy

The pool and the proxy memory are two locks, and no call holds both: `create`
pools a session and remembers its proxy afterwards, `destroy` forgets the proxy
and takes the session out afterwards. `Agree` is what the memory says about the
pools between these steps: an entry is the proxy of every pooled session of the
id whose `create` is not still about to remember its own.

What breaks it is a `create` and a `destroy` of one id that overlap between their
two sections, or sessions of one id on two proxies at once: a `create` that comes
between the two sections of another, or in the other engine's pool. `Undivided`
is the guard against both, and it looks at program points and sessions only, never
at the memory.
-/

namespace Solverr.Sessions

open Solverr.Lib (Dict Run)

variable {Proxy : Type}

/-- The id and the proxy that a `create` is about to remember, its session pooled. -/
def Pc.remembering : Pc Proxy → Option (String × Option Proxy)
  | .remember a _ _ => some (a.sid, a.proxy)
  | _ => none

/-- The id that a `destroy` is about to take out, its proxy forgotten. -/
def Pc.destroying : Pc Proxy → Option String
  | .remove _ sid .destroy => some sid
  | _ => none

/-- A `create` of the id is between its two sections. -/
def Creating (w : World Proxy) (sid : String) : Prop :=
  ∃ t p, (w.pcs t).remembering = some (sid, p)

/-- A `destroy` of the id is between its two sections. -/
def Destroying (w : World Proxy) (sid : String) : Prop :=
  ∃ t, (w.pcs t).destroying = some sid

/-- A session of the id exits through this proxy: one that is pooled, or one whose
`create` is still about to remember it. -/
def Carries (w : World Proxy) (sid : String) (proxy : Option Proxy) : Prop :=
  (∃ e r, (w.st.pools e).find? sid = some r ∧ (w.st.heap r).proxy = proxy) ∨
    ∃ t, (w.pcs t).remembering = some (sid, proxy)

/-- No `destroy` forgets an id between the two sections of a `create` of it; no
`create` pools a session between the two sections of a `destroy` of its id, or on
another proxy than the id's sessions have. -/
structure Undivided (w : World Proxy) (act : Tid × Act Proxy) : Prop where
  forget : ∀ e sid, w.pcs act.1 = .forget e sid → ¬ Creating w sid
  insert : ∀ a k s, w.pcs act.1 = .insert a k s → (w.st.pools a.store).find? a.sid = none →
    ¬ Destroying w a.sid ∧ ∀ p, Carries w a.sid p → p = a.proxy

/-- The `create` that filed `r` has yet to remember its proxy. -/
def Pending (w : World Proxy) (r : Ref) : Prop :=
  ∃ t a k, w.pcs t = .remember a k r

/-- No pool has the id. -/
def Unpooled (w : World Proxy) (sid : String) : Prop :=
  ∀ e, (w.st.pools e).find? sid = none

/-- The proxy memory and the pools agree. -/
structure Agree (w : World Proxy) : Prop where
  entry : ∀ i p e r, w.st.memory.find? i = some p → (w.st.pools e).find? i = some r →
    (w.st.heap r).proxy = p ∨ Pending w r
  gone : ∀ i, Unpooled w i → w.st.removedBy i = some .destroy → w.st.memory.find? i = none

/-- They agree, and the calls do not overlap: what they leave between their two
sections is still there when they come to the second. -/
structure Settling (w : World Proxy) : Prop extends Agree w where
  apart : ∀ i, Creating w i → ¬ Destroying w i
  one : ∀ i p q, Carries w i p → Carries w i q → p = q
  forgotten : ∀ i, Destroying w i → w.st.memory.find? i = none
  standing : ∀ i, Creating w i → Unpooled w i → w.st.removedBy i ≠ some .destroy

theorem settling_init : Settling (World.init : World Proxy) := by
  have hnone : ∀ i, ¬ Creating (World.init : World Proxy) i := fun i ⟨t, p, h⟩ => (by cases h)
  have hcarries : ∀ i p, ¬ Carries (World.init : World Proxy) i p := by
    intro i p h
    rcases h with ⟨e, r, hr, -⟩ | ⟨t, h⟩
    · cases hr
    · cases h
  refine ⟨⟨fun i p e r hi => ?_, fun i _ _ => rfl⟩, fun i h => absurd h (hnone i),
    fun i p q h => absurd h (hcarries i p), fun i _ => rfl, fun i h => absurd h (hnone i)⟩
  cases hi

/-! ## One step -/

theorem remembering_of {p : Pc Proxy} {a : CreateArgs Proxy} {k : CreateK} {s : Ref}
    (h : p = .remember a k s) : p.remembering = some (a.sid, a.proxy) := by
  rw [h]
  rfl

/-- Remembering is a point of filing. -/
theorem remembering_of_filing {p : Pc Proxy} (h : p.filing = none) : p.remembering = none := by
  cases p with
  | remember => cases h
  | _ => rfl

/-- A thread comes to remember by pooling its session. -/
theorem Effect.remembering {w w' : World Proxy} {t : Tid} {act : Act Proxy}
    (h : Effect w t act w') {sid : String} {proxy : Option Proxy}
    (hr : (w'.pcs t).remembering = some (sid, proxy)) :
    ∃ a k s, w.pcs t = .insert a k s ∧ (w.st.pools a.store).find? a.sid = none ∧
      a.sid = sid ∧ a.proxy = proxy ∧ (w'.st.pools a.store).find? a.sid = some s := by
  cases h with
  | @insert a k s now at_ free =>
    rw [World.goto_self] at hr
    obtain ⟨rfl, rfl⟩ := Prod.mk.inj (Option.some.inj hr)
    refine ⟨a, k, s, at_, free, rfl, rfl, ?_⟩
    rw [World.goto_st, World.claimIf_pools, World.setStores_st, Stores.find?_insert]
    exact if_pos ⟨rfl, rfl⟩
  | build | forget | stray =>
    rw [World.goto_self] at hr
    cases hr
  | remember =>
    rw [World.goto_self, remembering_of_filing (resume_filing ..)] at hr
    cases hr
  | skip _ _ plain | claim _ _ _ _ _ plain | recallProxy _ _ _ plain | take _ _ _ _ _ _ _ plain
  | teardown _ _ plain | release _ _ _ _ plain | lock _ _ _ _ plain =>
    rw [World.goto_self, remembering_of_filing plain] at hr
    cases hr

theorem resume_destroying (a : CreateArgs Proxy) (s : Ref) (fresh : Bool) (k : CreateK) :
    (resume a s fresh k).destroying = none := by
  cases k with
  | caller claim => cases claim <;> rfl
  | rebuild k => cases k <;> rfl
  | command | first => rfl

theorem raised_destroying (text : String) (k : CreateK) :
    (raised text k : Pc Proxy).destroying = none := by
  cases k with
  | caller | command => rfl
  | first _ k | rebuild k => cases k <;> rfl

theorem returned_destroying (e : Engine) (sid : String) (s : Ref) (k : GetK) :
    (returned e sid s k : Pc Proxy).destroying = none := by
  cases k <;> rfl

theorem afterSolve_destroying (cfg : Config) (e : Engine) (sid : String) (s : Ref) (b : Bool) :
    (afterSolve cfg e sid s b : Pc Proxy).destroying = none := by
  unfold afterSolve
  split <;> rfl

theorem enter_destroying {cfg : Config} {c : Call Proxy} {p : Pc Proxy}
    (h : enter cfg c = some p) : p.destroying = none := by
  cases c with
  | create | destroy | discard =>
    obtain rfl := Option.some.inj h
    rfl
  | get | solve =>
    simp only [enter] at h
    split at h
    next => cases h
    next =>
      obtain rfl := Option.some.inj h
      rfl
  | reapIdle e ttl now | enforceCap e ttl =>
    cases ttl with
    | none =>
      obtain rfl := Option.some.inj h
      rfl
    | some ttl =>
      simp only [enter] at h
      split at h <;> obtain rfl := Option.some.inj h <;> rfl
  | sessionsCreate =>
    simp only [enter] at h
    split at h <;> obtain rfl := Option.some.inj h <;> rfl

/-- A section leads to the second one of a `destroy` only if it is the first. -/
theorem go_destroying {cfg : Config} {w w' : World Proxy} {t : Tid} {now : Int} {p : Pc Proxy}
    (h : go cfg w t now p = some w') (hp : ∀ e sid, p ≠ .forget e sid) :
    (w'.pcs t).destroying = none := by
  cases p with
  | idle | solved | answered => cases h
  | forget e sid => exact absurd rfl (hp e sid)
  | lookup a k =>
    simp only [go] at h
    split at h <;> obtain rfl := Option.some.inj h <;> rw [World.goto_self]
    · exact resume_destroying ..
    · rfl
  | insert | remove =>
    simp only [go] at h
    split at h <;> obtain rfl := Option.some.inj h <;> rw [World.goto_self] <;> rfl
  | build | recallProxy | expired | drain | release | holding | endUse | reap | cap =>
    obtain rfl := Option.some.inj h
    rw [World.goto_self]
    rfl
  | extra | remember =>
    obtain rfl := Option.some.inj h
    rw [World.goto_self]
    exact resume_destroying ..
  | check =>
    simp only [go] at h
    split at h <;> obtain rfl := Option.some.inj h <;> rw [World.goto_self]
    · rfl
    · exact returned_destroying ..
  | teardown todo =>
    cases todo <;> obtain rfl := Option.some.inj h <;> rw [World.goto_self] <;> rfl
  | acquire =>
    simp only [go] at h
    split at h
    · cases h
    · obtain rfl := Option.some.inj h
      rw [World.goto_self]
      rfl
  | driving | closing =>
    obtain rfl := Option.some.inj h
    rw [World.goto_self]
    exact afterSolve_destroying ..
  | timedOut =>
    simp only [go] at h
    split at h <;> obtain rfl := Option.some.inj h <;> rw [World.goto_self]
    · exact afterSolve_destroying ..
    · rfl
  | checkPools a todo =>
    cases todo <;> simp only [go] at h <;> split at h <;> obtain rfl := Option.some.inj h <;>
      rw [World.goto_self] <;> rfl

/-- A thread comes to the second section of a `destroy` from the first. -/
theorem step_destroying {cfg : Config} {w w' : World Proxy} {t : Tid} {act : Act Proxy}
    (h : step cfg w (t, act) = some w') {sid : String}
    (hd : (w'.pcs t).destroying = some sid) :
    (∃ e, w.pcs t = .forget e sid) ∧ w'.st.memory = w.st.memory.erase sid := by
  have hnot : (w'.pcs t).destroying ≠ none := fun hnone => by
    rw [hnone] at hd
    cases hd
  cases act with
  | start c =>
    simp only [step] at h
    split at h
    next =>
      obtain ⟨p, hc, rfl⟩ := Option.map_eq_some_iff.mp h
      rw [World.goto_self] at hnot
      exact absurd (enter_destroying hc) hnot
    next => cases h
  | go now =>
    change go cfg w t now (w.pcs t) = some w' at h
    by_cases hforget : ∃ e i, w.pcs t = .forget e i
    · obtain ⟨e, i, hp⟩ := hforget
      rw [hp] at h
      obtain rfl := Option.some.inj h
      rw [World.goto_self] at hd
      obtain rfl := Option.some.inj hd
      exact ⟨⟨e, hp⟩, rfl⟩
    · exact absurd (go_destroying h fun e i hp => hforget ⟨e, i, hp⟩) hnot
  | fail text =>
    simp only [step] at h
    split at h
    · obtain rfl := Option.some.inj h
      rw [World.goto_self] at hnot
      exact absurd (raised_destroying ..) hnot
    · obtain rfl := Option.some.inj h
      rw [World.goto_self] at hnot
      exact absurd rfl hnot
    · obtain rfl := Option.some.inj h
      rw [World.goto_self] at hnot
      exact absurd (afterSolve_destroying ..) hnot
    · cases h
  | timeout =>
    simp only [step] at h
    split at h
    · obtain rfl := Option.some.inj h
      rw [World.goto_self] at hnot
      exact absurd rfl hnot
    · cases h
  | drive =>
    simp only [step] at h
    split at h
    next hp =>
      obtain rfl := Option.some.inj h
      rw [World.goto_self, hp] at hnot
      exact absurd rfl hnot
    next => cases h

/-- The step of a thread that remembers. -/
theorem step_remember {cfg : Config} {w w' : World Proxy} {t : Tid} {act : Act Proxy}
    {a : CreateArgs Proxy} {k : CreateK} {s : Ref} (hp : w.pcs t = .remember a k s)
    (h : step cfg w (t, act) = some w') :
    w' = (w.setStores { w.st with memory := rememberProxy w.st.memory a.sid a.proxy }).goto t
      (resume a s true k) := by
  cases act with
  | go now =>
    simp only [step, hp] at h
    exact (Option.some.inj h).symm
  | start | fail | timeout | drive => simp [step, hp] at h

/-- Remembering adds its own entry; nothing else adds to the memory. -/
theorem Effect.find?_memory {w w' : World Proxy} {t : Tid} {act : Act Proxy}
    (h : Effect w t act w') {i : String} {p : Option Proxy}
    (hi : w'.st.memory.find? i = some p) :
    (w.pcs t).remembering = some (i, p) ∨ w.st.memory.find? i = some p := by
  cases h with
  | remember at_ =>
    rw [World.goto_st, World.setStores_st] at hi
    rcases find?_rememberProxy hi with ⟨rfl, rfl⟩ | ⟨-, hold⟩
    · exact Or.inl (remembering_of at_)
    · exact Or.inr hold
  | claim | insert =>
    rw [World.goto_st, World.claimIf_memory] at hi
    exact Or.inr hi
  | recallProxy sid =>
    rw [World.goto_st, World.setStores_st, find?_recallProxy] at hi
    exact Or.inr hi
  | forget at_ =>
    rw [World.goto_st, World.setStores_st] at hi
    exact Or.inr (Dict.find?_of_erase hi).2
  | skip | build | take | stray | teardown | release | lock => exact Or.inr hi

/-- An id that a removal leaves in no pool, with `destroy` as the last to take it. -/
theorem unpooled_pop {w : World Proxy} {e : Engine} {ids : List String} {op : Remover}
    {i : String} (hun : Unpooled (w.setStores (w.st.pop e ids op)) i)
    (hby : (w.st.pop e ids op).removedBy i = some .destroy) :
    (Unpooled w i ∧ w.st.removedBy i = some .destroy) ∨ op = .destroy ∧ i ∈ ids := by
  by_cases hhit : i ∈ ids ∧ ((w.st.pools e).find? i).isSome
  · have hop : some op = some Remover.destroy := by
      rw [← hby]
      exact (if_pos hhit).symm
    exact Or.inr ⟨Option.some.inj hop, hhit.1⟩
  · -- the removal left the id as it was
    refine Or.inl ⟨fun e' => ?_, ?_⟩
    · have hpop := hun e'
      rw [World.setStores_st, Stores.find?_pop] at hpop
      split at hpop
      next hc =>
        obtain ⟨rfl, hi⟩ := hc
        simpa [hi] using hhit
      next => exact hpop
    · rw [← hby]
      exact (if_neg hhit).symm

/-- An id comes to be in no pool, taken by a `destroy` last, by the second section of one. -/
theorem Effect.unpooled {w w' : World Proxy} {t : Tid} {act : Act Proxy}
    (h : Effect w t act w') {i : String} (hun : Unpooled w' i)
    (hby : w'.st.removedBy i = some .destroy) :
    (Unpooled w i ∧ w.st.removedBy i = some .destroy) ∨ (w.pcs t).destroying = some i := by
  cases h with
  | remember | skip | build | recallProxy | forget | teardown | release | lock =>
    exact Or.inl ⟨hun, hby⟩
  | claim =>
    refine Or.inl ⟨fun e => ?_, ?_⟩
    · simpa using hun e
    · simpa using hby
  | @insert a k s now at_ free =>
    refine Or.inl ⟨fun e => ?_, ?_⟩
    · have hune := hun e
      rw [World.goto_st, World.claimIf_pools, World.setStores_st, Stores.find?_insert] at hune
      split at hune
      · cases hune
      · exact hune
    · rw [World.goto_st, World.claimIf_removedBy] at hby
      exact hby
  | take before after nodup pooled marked hop unused plain =>
    rcases unpooled_pop hun hby with hold | ⟨rfl, hi⟩
    · exact Or.inl hold
    · obtain ⟨sid, hpc, hids⟩ := hop rfl
      rw [hids, List.mem_singleton] at hi
      subst hi
      rw [hpc]
      exact Or.inr rfl
  | stray now at_ hact hexp gone =>
    rcases unpooled_pop hun hby with hold | ⟨hop, -⟩
    · exact Or.inl hold
    · cases hop

namespace Settling

variable {w w' : World Proxy} {t : Tid} {act : Act Proxy} {i : String}

/-- Who is creating after a step was before, or has just pooled its session. -/
theorem creating (he : Effect w t act w') (h : Creating w' i) :
    Creating w i ∨ ∃ a k s, w.pcs t = .insert a k s ∧
      (w.st.pools a.store).find? a.sid = none ∧ a.sid = i ∧
      (w'.st.pools a.store).find? a.sid = some s := by
  obtain ⟨t', p, hp⟩ := h
  by_cases ht : t' = t
  · subst ht
    obtain ⟨a, k, s, hpc, hfree, hsid, -, hpool⟩ := he.remembering hp
    exact Or.inr ⟨a, k, s, hpc, hfree, hsid, hpool⟩
  · rw [he.pcs_other ht] at hp
    exact Or.inl ⟨t', p, hp⟩

theorem destroying {cfg : Config} (hs : Sessions.step cfg w (t, act) = some w')
    (he : Effect w t act w') (h : Destroying w' i) :
    Destroying w i ∨ (∃ e, w.pcs t = .forget e i) ∧ w'.st.memory = w.st.memory.erase i := by
  obtain ⟨t', hp⟩ := h
  by_cases ht : t' = t
  · subst ht
    exact Or.inr (step_destroying hs hp)
  · rw [he.pcs_other ht] at hp
    exact Or.inl ⟨t', hp⟩

/-- A step gives an id another exit only by pooling a session of it. -/
theorem carries (hw : WF w) (he : Effect w t act w') {p : Option Proxy} (h : Carries w' i p) :
    Carries w i p ∨ ∃ a k s, w.pcs t = .insert a k s ∧
      (w.st.pools a.store).find? a.sid = none ∧ a.sid = i ∧ a.proxy = p := by
  rcases h with ⟨e, r, hr, hproxy⟩ | ⟨t', hp⟩
  · rcases he.find?_pools hr with hold | ⟨a, k, hpc, hrem, rfl, rfl⟩
    · rw [he.keeps.proxy r (hw.keyed e i r hold).1] at hproxy
      exact Or.inl (Or.inl ⟨e, r, hold, hproxy⟩)
    · obtain ⟨a', k', s', hpc', hfree, -, -, -⟩ := he.remembering (remembering_of hrem)
      rw [hpc] at hpc'
      obtain ⟨rfl, -, -⟩ := Pc.insert.inj hpc'
      have hbuilt := he.keeps.builtFor (hw.filing t a r (by rw [hpc]; rfl))
      exact Or.inr ⟨a, k, r, hpc, hfree, rfl, hbuilt.2.2.symm.trans hproxy⟩
  · by_cases ht : t' = t
    · subst ht
      obtain ⟨a, k, s, hpc, hfree, hsid, hproxy, -⟩ := he.remembering hp
      exact Or.inr ⟨a, k, s, hpc, hfree, hsid, hproxy⟩
    · rw [he.pcs_other ht] at hp
      exact Or.inl (Or.inr ⟨t', hp⟩)

/-- An entry stays the proxy of what is pooled. -/
theorem entry_step {cfg : Config} (h : Settling w) (hw : WF w)
    (hs : Sessions.step cfg w (t, act) = some w') (he : Effect w t act w') {p : Option Proxy}
    {e : Engine} {r : Ref} (hi : w'.st.memory.find? i = some p)
    (hr : (w'.st.pools e).find? i = some r) : (w'.st.heap r).proxy = p ∨ Pending w' r := by
  rcases he.find?_pools hr with hold | ⟨a, k, -, hp, rfl, rfl⟩
  · rw [he.keeps.proxy r (hw.keyed e i r hold).1]
    by_cases hrem : (w.pcs t).remembering = some (i, p)
    · exact Or.inl (h.one i _ _ (Or.inl ⟨e, r, hold, rfl⟩) (Or.inr ⟨t, hrem⟩))
    · have hmem := (he.find?_memory hi).resolve_left hrem
      rcases h.entry i p e r hmem hold with hproxy | ⟨t', a, k, hpend⟩
      · exact Or.inl hproxy
      · by_cases ht : t' = t
        · -- this step is the session's own `create` remembering it
          subst ht
          have hbuilt := hw.filing t' a r (by rw [hpend]; rfl)
          have hsid : a.sid = i := hbuilt.2.1.symm.trans (hw.keyed e i r hold).2
          rw [step_remember hpend hs, World.goto_st, World.setStores_st] at hi
          rcases find?_rememberProxy hi with ⟨-, rfl⟩ | ⟨hne, -⟩
          · exact Or.inl hbuilt.2.2
          · exact absurd hsid.symm hne
        · exact Or.inr ⟨t', a, k, (he.pcs_other ht).trans hpend⟩
  · exact Or.inr ⟨t, a, k, hp⟩

/-- **One undivided step keeps the agreement.** -/
theorem step {cfg : Config} (h : Settling w) (hw : WF w) (hg : Undivided w (t, act))
    (hs : Sessions.step cfg w (t, act) = some w') : Settling w' := by
  have he := step_effect hw hs
  -- no `create` is left to remember an id that has just gone
  have hgone : ∀ i, Unpooled w' i → w'.st.removedBy i = some .destroy →
      ¬ Creating w i ∧ w.st.memory.find? i = none := by
    intro i hun hby
    rcases he.unpooled hun hby with ⟨hun', hby'⟩ | hd
    · exact ⟨fun hc => h.standing i hc hun' hby', h.gone i hun' hby'⟩
    · exact ⟨fun hc => h.apart i hc ⟨t, hd⟩, h.forgotten i ⟨t, hd⟩⟩
  have hstill : ∀ i, ¬ Creating w i → w.st.memory.find? i = none →
      w'.st.memory.find? i = none := by
    intro i hc hnone
    refine Option.eq_none_iff_forall_ne_some.mpr fun p hp => ?_
    rcases he.find?_memory hp with hrem | hold
    · exact hc ⟨t, p, hrem⟩
    · rw [hnone] at hold
      cases hold
  refine ⟨⟨fun i p e r hi hr => h.entry_step hw hs he hi hr, ?_⟩, ?_, ?_, ?_, ?_⟩
  · intro i hun hby
    exact hstill i (hgone i hun hby).1 (hgone i hun hby).2
  · -- the guard keeps each from coming between the other's two sections
    intro i hc hd
    rcases creating he hc with hc' | ⟨a, k, s, hpc, hfree, rfl, -⟩
    · rcases destroying hs he hd with hd' | ⟨⟨e, hpc⟩, -⟩
      · exact h.apart i hc' hd'
      · exact hg.forget e i hpc hc'
    · rcases destroying hs he hd with hd' | ⟨⟨e, hpc'⟩, -⟩
      · exact (hg.insert a k s hpc hfree).1 hd'
      · rw [hpc] at hpc'
        cases hpc'
  · intro i p q hp hq
    rcases carries hw he hp with hp' | ⟨a, k, s, hpc, hfree, rfl, rfl⟩
    · rcases carries hw he hq with hq' | ⟨a, k, s, hpc, hfree, rfl, rfl⟩
      · exact h.one i p q hp' hq'
      · exact (hg.insert a k s hpc hfree).2 p hp'
    · rcases carries hw he hq with hq' | ⟨a', k', s', hpc', -, -, rfl⟩
      · exact ((hg.insert a k s hpc hfree).2 q hq').symm
      · rw [hpc] at hpc'
        obtain ⟨rfl, -, -⟩ := Pc.insert.inj hpc'
        rfl
  · intro i hd
    rcases destroying hs he hd with hd' | ⟨-, hmem⟩
    · exact hstill i (fun hc => h.apart i hc hd') (h.forgotten i hd')
    · rw [hmem, Dict.find?_erase, if_pos rfl]
  · intro i hc hun hby
    rcases creating he hc with hc' | ⟨a, k, s, -, -, rfl, hpool⟩
    · exact (hgone i hun hby).1 hc'
    · rw [hun a.store] at hpool
      cases hpool

end Settling

/-! ## The guarantee -/

/-- **At rest, a destroyed id is forgotten and a remembered proxy is the one its
pooled session has**, in every run whose creations and destructions of an id do
not overlap between their sections, on one proxy at a time. -/
theorem destroy_forgets {cfg : Config} {w : World Proxy}
    (h : Run (step cfg) Undivided World.init w) (hrest : AtRest w) (sid : String) :
    (Unpooled w sid → w.st.removedBy sid = some .destroy →
      w.st.memory.find? sid = none ∧ (recallProxy w.st.memory sid).1 = none) ∧
    (∀ e r p, (w.st.pools e).find? sid = some r → w.st.memory.find? sid = some p →
      (w.st.heap r).proxy = p) := by
  have hrun : WF w ∧ Settling w := by
    refine h.invariant (I := fun w => WF w ∧ Settling w) ?_ ⟨wf_init, settling_init⟩
    rintro w₁ ⟨t, act⟩ w₂ ⟨hw, hset⟩ hg hs
    exact ⟨(step_effect hw hs).wf hw, hset.step hw hg hs⟩
  refine ⟨?_, ?_⟩
  · intro hun hby
    have hnone := hrun.2.gone sid hun hby
    exact ⟨hnone, (recallProxy_fst _ _).trans hnone⟩
  · intro e r p hr hp
    rcases hrun.2.entry sid p e r hp hr with hprox | ⟨t, a, k, hpc⟩
    · exact hprox
    · have ht := hrest t
      rw [hpc] at ht
      cases ht

/-- `Undivided` among the threads below `n`. -/
def undividedBelow [DecidableEq Proxy] (n : Nat) (w : World Proxy) (act : Tid × Act Proxy) :
    Bool :=
  match w.pcs act.1 with
  | .forget _ sid => decide (∀ t < n, (w.pcs t).remembering.all fun q => q.1 ≠ sid)
  | .insert a _ _ =>
    ((w.st.pools a.store).find? a.sid).isSome ||
      decide (∀ t < n, (w.pcs t).destroying ≠ some a.sid) &&
      decide (∀ t < n, (w.pcs t).remembering.all fun q => q.1 = a.sid → q.2 = a.proxy) &&
      [Engine.chrome, .stealth].all fun e =>
        ((w.st.pools e).find? a.sid).all fun r => (w.st.heap r).proxy = a.proxy
  | _ => true

theorem undivided_of_below [DecidableEq Proxy] {n : Nat} {w : World Proxy} {act : Tid × Act Proxy}
    (hidle : ∀ t, n ≤ t → w.pcs t = .idle) (h : undividedBelow n w act = true) :
    Undivided w act := by
  -- an idle thread is between no two sections
  have hbelow : ∀ t, w.pcs t ≠ .idle → t < n := fun t ht =>
    Nat.lt_of_not_le fun hle => ht (hidle t hle)
  have hrem : ∀ {t q}, (w.pcs t).remembering = some q → t < n := by
    intro t q hq
    refine hbelow t fun hp => ?_
    rw [hp] at hq
    cases hq
  constructor
  · rintro e sid hp ⟨t, p, hq⟩
    simp only [undividedBelow, hp, decide_eq_true_eq] at h
    have hne := h t (hrem hq)
    rw [hq] at hne
    simp at hne
  · intro a k s hp hfree
    simp only [undividedBelow, hp, hfree, Option.isSome_none, Bool.false_or, Bool.and_eq_true,
      decide_eq_true_eq, List.all_cons, List.all_nil, and_true] at h
    obtain ⟨⟨hdes, hcre⟩, hpools⟩ := h
    refine ⟨fun ⟨t, hd⟩ => hdes t (hbelow t fun hp => ?_) hd, ?_⟩
    · rw [hp] at hd
      cases hd
    · rintro p (⟨e, r, hr, rfl⟩ | ⟨t, hq⟩)
      · cases e with
        | chrome => simpa [hr] using hpools.1
        | stealth => simpa [hr] using hpools.2
      · have heq := hcre t (hrem hq)
        rw [hq] at heq
        simpa using heq

/-- An id that two creations race for, the loser on another proxy, and that is then
destroyed, is forgotten. -/
theorem destroy_forgets_created : ∃ w : World String,
    (w.st.removedBy "s" = some .destroy ∧ w.st.built = 2) ∧ w.st.memory.find? "s" = none := by
  obtain ⟨w, hrun, hidle, hw, hpool, hrest⟩ : ∃ w : World String,
      Run (step .unset) Undivided World.init w ∧ (∀ t, 4 ≤ t → w.pcs t = .idle) ∧
      (w.st.removedBy "s" = some .destroy ∧ w.st.built = 2) ∧
      ((w.st.pools .chrome).find? "s" = none ∧ (w.st.pools .stealth).find? "s" = none) ∧
      ∀ t < 4, (w.pcs t).rest = true :=
    Run.of_exec_below 4 (fun _ _ hidle => undivided_of_below hidle)
      ([(1, .start (.create .chrome (some "s") "" (some "P") false)),
        (2, .start (.create .chrome (some "s") "" (some "Q") false))] ++
        goes 1 2 ++ goes 2 2 ++ goes 1 1 ++ goes 2 1 ++ goes 1 1 ++ goes 2 1 ++
        [(3, .start (.destroy .chrome "s"))] ++ goes 3 4)
      (by decide)
  have hun : Unpooled w "s" := by
    intro e
    cases e with
    | chrome => exact hpool.1
    | stealth => exact hpool.2
  exact ⟨w, hw, ((destroy_forgets hrun (atRest_of_below hidle hrest) "s").1 hun hw.1).1⟩

/-- A `create` that remembers late leaves an entry for an id that `destroy` took
last, or the wrong proxy for the session another `create` has pooled since. -/
theorem late_remember_outlives_destroy :
    (∃ w : World String,
      Run (step .unset) (fun w a => startsOnly [.create, .get, .remove] w a = true)
        World.init w ∧ AtRest w ∧
      ((w.st.pools .chrome).find? "s" = none ∧ (w.st.pools .stealth).find? "s" = none) ∧
      w.st.removedBy "s" = some .destroy ∧ w.st.memory.find? "s" = some (some "P")) ∧
    (∃ w : World String,
      Run (step .unset) (fun w a => startsOnly [.create, .get, .remove] w a = true)
        World.init w ∧ AtRest w ∧
      (w.st.pools .chrome).find? "s" = some 1 ∧ w.st.memory.find? "s" = some (some "P") ∧
      (w.st.heap 1).proxy = some "Q") := by
  refine ⟨?_, ?_⟩
  · obtain ⟨w, hrun, hidle, hw, hrest⟩ : ∃ w : World String,
        Run (step .unset) (fun w a => startsOnly [.create, .get, .remove] w a = true)
          World.init w ∧ (∀ t, 3 ≤ t → w.pcs t = .idle) ∧
        (((w.st.pools .chrome).find? "s" = none ∧ (w.st.pools .stealth).find? "s" = none) ∧
          w.st.removedBy "s" = some .destroy ∧ w.st.memory.find? "s" = some (some "P")) ∧
        ∀ t < 3, (w.pcs t).rest = true :=
      Run.of_exec_below 3 (fun _ _ _ => id)
        ([(1, .start (.create .chrome (some "s") "" (some "P") false))] ++ goes 1 3 ++
          [(2, .start (.destroy .chrome "s"))] ++ goes 2 4 ++ goes 1 1)
        (by decide)
    exact ⟨w, hrun, atRest_of_below hidle hrest, hw⟩
  · obtain ⟨w, hrun, hidle, hw, hrest⟩ : ∃ w : World String,
        Run (step .unset) (fun w a => startsOnly [.create, .get, .remove] w a = true)
          World.init w ∧ (∀ t, 4 ≤ t → w.pcs t = .idle) ∧
        ((w.st.pools .chrome).find? "s" = some 1 ∧ w.st.memory.find? "s" = some (some "P") ∧
          (w.st.heap 1).proxy = some "Q") ∧ ∀ t < 4, (w.pcs t).rest = true :=
      Run.of_exec_below 4 (fun _ _ _ => id)
        ([(1, .start (.create .chrome (some "s") "" (some "P") false))] ++ goes 1 3 ++
          [(2, .start (.destroy .chrome "s"))] ++ goes 2 4 ++
          [(3, .start (.create .chrome (some "s") "" (some "Q") false))] ++ goes 3 4 ++ goes 1 1)
        (by decide)
    exact ⟨w, hrun, atRest_of_below hidle hrest, hw⟩

end Solverr.Sessions
