import Solverr.Lib.Custody
import Solverr.Sessions.Origin
import Solverr.Sessions.Sequential

/-!
# Payload custody

A browser must be closed once and must never be lost. `Accounts w c` reads a
custody ledger `c` off the world: a payload is stored where a pool has it, held
by the thread that will pool it or tear it down, spent once it is torn down. One
step of one thread is then a path of ledger moves (`step_accounts`), so every
run is one (`run_accounts`), and the ledger's own laws give the rest.

One step is not a ledger move. `get` drops an expired session by id, and tears
down the session it looked up: when `destroy` and another `create` came between,
the pool's entry is a session nobody tears down, and the looked-up one is torn
down twice (`expiry_tears_down_twice`). `expiryOwn` is the guard that the entry
still is the session looked up.
-/

namespace Solverr.Sessions

open Solverr.Lib (Place Ledger Run exec)

variable {Proxy : Type}

/-- Where every payload is: with a thread, or in an engine's pool under an id. -/
abbrev Custody := Ledger Ref Tid (Engine × String)

/-- The ledger `c` agrees with the world about every payload. -/
structure Accounts (w : World Proxy) (c : Custody) : Prop where
  absent : ∀ r, c r = .absent ↔ w.st.built ≤ r
  stored : ∀ r e sid, c r = .stored (e, sid) ↔ (w.st.pools e).find? sid = some r
  held : ∀ r t, c r = .held t ↔ r ∈ (w.pcs t).own
  nodup : ∀ t, (w.pcs t).own.Nodup
  torn : ∀ r, w.st.torn.count r = if c r = .spent then 1 else 0

theorem accounts_init : Accounts (World.init : World Proxy) fun _ => .absent := by
  refine ⟨?_, ?_, ?_, ?_, ?_⟩
  · intro r
    exact ⟨fun _ => Nat.zero_le r, fun _ => rfl⟩
  · intro r e sid
    exact ⟨nofun, nofun⟩
  · intro r t
    exact ⟨nofun, nofun⟩
  · intro t
    exact List.nodup_nil
  · intro r
    rfl

namespace Accounts

variable {w w' : World Proxy} {c : Custody}

/-- A step that moves no payload. -/
theorem same (h : Accounts w c) (hbuilt : w'.st.built = w.st.built)
    (hpools : w'.st.pools = w.st.pools) (howns : ∀ t, (w'.pcs t).own = (w.pcs t).own)
    (htorn : w'.st.torn = w.st.torn) : Accounts w' c := by
  refine ⟨?_, ?_, ?_, ?_, ?_⟩
  · intro r
    rw [hbuilt]
    exact h.absent r
  · intro r e sid
    rw [hpools]
    exact h.stored r e sid
  · intro r t
    rw [howns]
    exact h.held r t
  · intro t
    rw [howns]
    exact h.nodup t
  · intro r
    rw [htorn]
    exact h.torn r

/-- A step that moves the one payload `s` to the place `p`. -/
theorem move (h : Accounts w c) {s : Ref} {p : Place Tid (Engine × String)} (hp : p ≠ .absent)
    (hbuilt : ∀ r, w'.st.built ≤ r ↔ w.st.built ≤ r ∧ r ≠ s)
    (hpools : ∀ e sid r, (w'.st.pools e).find? sid = some r ↔
      if r = s then p = .stored (e, sid) else (w.st.pools e).find? sid = some r)
    (howns : ∀ t r, r ∈ (w'.pcs t).own ↔ if r = s then p = .held t else r ∈ (w.pcs t).own)
    (hnodup : ∀ t, (w'.pcs t).own.Nodup)
    (htorn : ∀ r, w'.st.torn.count r
      = if r = s then (if p = .spent then 1 else 0) else w.st.torn.count r) :
    Accounts w' (Function.update c s p) := by
  refine ⟨?_, ?_, ?_, hnodup, ?_⟩
  · intro r
    rw [hbuilt, Function.update_apply]
    split
    next hr => simp [hr, hp]
    next hr => simp [hr, h.absent r]
  · intro r e sid
    rw [hpools, Function.update_apply]
    split
    next => rfl
    next => exact h.stored r e sid
  · intro r t
    rw [howns, Function.update_apply]
    split
    next => rfl
    next => exact h.held r t
  · intro r
    rw [htorn, Function.update_apply]
    split
    next => rfl
    next => exact h.torn r

/-- A payload that is somewhere was built. -/
theorem built_le (h : Accounts w c) {s : Ref} (hs : c s ≠ .absent) (r : Ref) :
    w.st.built ≤ r ↔ w.st.built ≤ r ∧ r ≠ s := by
  refine ⟨fun hr => ⟨hr, ?_⟩, And.left⟩
  rintro rfl
  exact hs ((h.absent r).mpr hr)

/-- A launch: the new payload is with the thread. -/
theorem build (h : Accounts w c) {t : Tid} {a : CreateArgs Proxy} {k : CreateK} (now : Int)
    (at_ : w.pcs t = .build a k) :
    Accounts ((w.setStores (w.st.build a.sid a.proxy now)).goto t (.insert a k w.st.built))
      (Function.update c w.st.built (.held t)) := by
  -- no payload has this number yet
  have hnew : c w.st.built = .absent := (h.absent _).mpr (Nat.le_refl _)
  have hfree : ∀ t', w.st.built ∉ (w.pcs t').own := by
    intro t' hmem
    rw [← h.held, hnew] at hmem
    cases hmem
  refine h.move (by simp) ?_ ?_ ?_ ?_ ?_
  · intro r
    show w.st.built + 1 ≤ r ↔ _
    omega
  · intro e sid r
    show (w.st.pools e).find? sid = some r ↔ _
    split
    next hr =>
      rw [hr, ← h.stored, hnew]
      exact ⟨nofun, nofun⟩
    next => rfl
  · intro t' r
    rw [World.own_goto]
    by_cases ht : t' = t
    · have hempty : (w.pcs t).own = [] := by rw [at_]; rfl
      rw [if_pos ht, ht, hempty]
      by_cases hr : r = w.st.built <;> simp [hr, Pc.own]
    · rw [if_neg ht]
      by_cases hr : r = w.st.built
      · simp [hr, hfree t', Ne.symm ht]
      · rw [if_neg hr]
        rfl
  · intro t'
    rw [World.own_goto]
    split
    · exact List.nodup_singleton _
    · exact h.nodup t'
  · intro r
    show w.st.torn.count r = _
    split
    next hr => rw [hr, h.torn, hnew, if_neg nofun, if_neg nofun]
    next => rfl

/-- A new session filed under a free id. -/
theorem insert (h : Accounts w c) {t : Tid} {a : CreateArgs Proxy} {k : CreateK} {s : Ref}
    (now : Int) (at_ : w.pcs t = .insert a k s) (free : (w.st.pools a.store).find? a.sid = none) :
    Accounts (((w.setStores (w.st.insert a.store a.sid s)).claimIf k.claim t s now).goto t
      (.remember a k s)) (Function.update c s (.stored (a.store, a.sid))) := by
  have hown : (w.pcs t).own = [s] := by rw [at_]; rfl
  have hheld : c s = .held t := (h.held s t).mpr (by rw [hown]; exact List.mem_singleton_self s)
  -- the thread has had it until now, so no pool has
  have hpool : ∀ e sid, (w.st.pools e).find? sid ≠ some s := by
    intro e sid hs
    rw [← h.stored, hheld] at hs
    cases hs
  refine h.move (by simp) ?_ ?_ ?_ ?_ ?_
  · intro r
    rw [World.goto_st, World.claimIf_built]
    exact h.built_le (by simp [hheld]) r
  · intro e sid r
    rw [World.goto_st, World.claimIf_pools, World.setStores_st, Stores.find?_insert]
    by_cases hk : e = a.store ∧ sid = a.sid
    · obtain ⟨rfl, rfl⟩ := hk
      rw [free]
      by_cases hr : r = s
      · simp [hr]
      · simp [hr, Ne.symm hr]
    · rw [if_neg hk]
      by_cases hr : r = s
      · rw [if_pos hr, hr]
        refine ⟨fun hs => absurd hs (hpool e sid), fun hs => absurd ?_ hk⟩
        obtain ⟨h₁, h₂⟩ := Prod.mk.inj (Place.stored.inj hs)
        exact ⟨h₁.symm, h₂.symm⟩
      · rw [if_neg hr]
  · intro t' r
    rw [World.own_goto, World.claimIf_pcs]
    by_cases ht : t' = t
    · rw [if_pos ht, ht, hown]
      by_cases hr : r = s <;> simp [hr, Pc.own]
    · rw [if_neg ht]
      by_cases hr : r = s
      · rw [if_pos hr, hr]
        refine ⟨fun hs => absurd ?_ ht, nofun⟩
        have hs' := (h.held s t').mpr hs
        rw [hheld] at hs'
        exact (Place.held.inj hs').symm
      · rw [if_neg hr]
        rfl
  · intro t'
    rw [World.own_goto, World.claimIf_pcs]
    split
    · exact List.nodup_nil
    · exact h.nodup t'
  · intro r
    rw [World.goto_st, World.claimIf_torn]
    show w.st.torn.count r = _
    split
    next hr => rw [hr, h.torn, hheld, if_neg nofun, if_neg nofun]
    next => rfl

/-- A payload torn down by the thread that holds it. -/
theorem teardown (h : Accounts w c) {t : Tid} {s : Ref} {p : Pc Proxy}
    (own : (w.pcs t).own = s :: p.own) :
    Accounts ((w.setStores (w.st.teardown s)).goto t p) (Function.update c s .spent) := by
  have hheld : c s = .held t := (h.held s t).mpr (by rw [own]; exact List.mem_cons_self ..)
  have hnodup : s ∉ p.own ∧ p.own.Nodup := List.nodup_cons.mp (own ▸ h.nodup t)
  refine h.move (by simp) ?_ ?_ ?_ ?_ ?_
  · intro r
    exact h.built_le (by simp [hheld]) r
  · intro e sid r
    show (w.st.pools e).find? sid = some r ↔ _
    split
    next hr =>
      rw [hr, ← h.stored, hheld]
      exact ⟨nofun, nofun⟩
    next => rfl
  · intro t' r
    rw [World.own_goto]
    by_cases ht : t' = t
    · rw [if_pos ht, ht, own]
      by_cases hr : r = s
      · simp [hr, hnodup.1]
      · simp [hr]
    · rw [if_neg ht]
      by_cases hr : r = s
      · rw [if_pos hr, hr]
        refine ⟨fun hs => absurd ?_ ht, nofun⟩
        have hs' := (h.held s t').mpr hs
        rw [hheld] at hs'
        exact (Place.held.inj hs').symm
      · rw [if_neg hr]
        rfl
  · intro t'
    rw [World.own_goto]
    split
    · exact hnodup.2
    · exact h.nodup t'
  · intro r
    show (w.st.torn ++ [s]).count r = _
    rw [List.count_append]
    by_cases hr : r = s
    · rw [hr, h.torn, hheld, if_neg nofun]
      simp
    · have hz : [s].count r = 0 := List.count_eq_zero.mpr (by simpa using hr)
      rw [if_neg hr, hz, Nat.add_zero]

/-- Sessions taken out of a pool are with the thread that took them. -/
theorem take (h : Accounts w c) {t : Tid} {e : Engine} {L : List Ref}
    {op : Remover} {p : Pc Proxy} (before : (w.pcs t).own = []) (after : p.own = L)
    (nodup : L.Nodup) (pooled : ∀ s ∈ L, (w.st.pools e).find? (w.st.heap s).sessionId = some s) :
    Accounts ((w.setStores (w.st.pop e (L.map fun s => (w.st.heap s).sessionId) op)).goto t p)
      (Ledger.takeAll c t L) := by
  have hstored : ∀ s ∈ L, c s = .stored (e, (w.st.heap s).sessionId) := fun s hs =>
    (h.stored s e _).mpr (pooled s hs)
  refine ⟨?_, ?_, ?_, ?_, ?_⟩
  · intro r
    show Ledger.takeAll c t L r = _ ↔ w.st.built ≤ r
    rw [Ledger.takeAll, ← h.absent]
    split
    next hr => simp [hstored r hr]
    next => rfl
  · intro r e' sid
    show Ledger.takeAll c t L r = _ ↔ ((w.st.pop e _ op).pools e').find? sid = some r
    rw [Ledger.takeAll, Stores.find?_pop]
    by_cases hids : e' = e ∧ sid ∈ L.map fun s => (w.st.heap s).sessionId
    · -- nothing is left under these ids, and what was there is with the thread
      rw [if_pos hids]
      refine ⟨fun hc => ?_, fun hc => (by cases hc)⟩
      split at hc
      next => cases hc
      next hr =>
        obtain ⟨rfl, hsid⟩ := hids
        obtain ⟨s, hs, rfl⟩ := List.mem_map.mp hsid
        rw [h.stored, pooled s hs] at hc
        exact absurd (Option.some.inj hc ▸ hs) hr
    · rw [if_neg hids, ← h.stored]
      split
      next hr =>
        refine ⟨fun hc => (by cases hc), fun hc => absurd ?_ hids⟩
        rw [hstored r hr] at hc
        obtain ⟨rfl, rfl⟩ := Prod.mk.inj (Place.stored.inj hc)
        exact ⟨rfl, List.mem_map_of_mem hr⟩
      next => rfl
  · intro r t'
    rw [World.own_goto, Ledger.takeAll]
    by_cases ht : t' = t
    · rw [if_pos ht, ht, after]
      by_cases hr : r ∈ L
      · simp [hr]
      · rw [if_neg hr, h.held, before]
        simp [hr]
    · rw [if_neg ht]
      by_cases hr : r ∈ L
      · rw [if_pos hr]
        refine ⟨fun hc => absurd (Place.held.inj hc).symm ht, fun hmem => ?_⟩
        have hc := (h.held r t').mpr hmem
        rw [hstored r hr] at hc
        cases hc
      · rw [if_neg hr]
        exact h.held r t'
  · intro t'
    rw [World.own_goto]
    split
    · exact after ▸ nodup
    · exact h.nodup t'
  · intro r
    show w.st.torn.count r = _
    rw [h.torn, Ledger.takeAll]
    by_cases hr : r ∈ L
    · simp [hr, hstored r hr]
    · rw [if_neg hr]

end Accounts

/-! ## The guard -/

/-- A `get` that is about to drop an expired session finds that very session in
the pool. -/
def expiryOwn (w : World Proxy) : Tid × Act Proxy → Bool
  | (t, .go now) =>
    match w.pcs t with
    | .check e sid ttl _ s fresh =>
      !w.st.expired s fresh ttl now || (w.st.pools e).find? sid == some s
    | _ => true
  | _ => true

theorem expiryOwn_check {w : World Proxy} {t : Tid} {now : Int} {e : Engine} {sid : String}
    {ttl : Option Int} {k : GetK} {s : Ref} {fresh : Bool}
    (hg : expiryOwn w (t, .go now) = true) (hp : w.pcs t = .check e sid ttl k s fresh)
    (hexp : w.st.expired s fresh ttl now = true) : (w.st.pools e).find? sid = some s := by
  simpa [expiryOwn, hp, hexp] using hg

/-! ## The refinement -/

/-- **One guarded step is a path of ledger moves.** -/
theorem step_accounts {w w' : World Proxy} {t : Tid} {act : Act Proxy} {c : Custody}
    (h : Accounts w c) (hg : expiryOwn w (t, act) = true) (he : Effect w t act w') :
    ∃ c', Ledger.Steps c c' ∧ Accounts w' c' := by
  have idle : ∀ (W : World Proxy) (p : Pc Proxy), W.pcs = w.pcs → W.st.built = w.st.built →
      W.st.pools = w.st.pools → W.st.torn = w.st.torn → p.own = (w.pcs t).own →
      ∃ c', Ledger.Steps c c' ∧ Accounts (W.goto t p) c' := by
    intro W p hpcs hbuilt hpools htorn hown
    refine ⟨c, .refl, h.same hbuilt hpools ?_ htorn⟩
    intro t'
    rw [World.own_goto, hpcs]
    split
    next ht => rw [ht, hown]
    next => rfl
  have holds : ∀ {s : Ref} {L : List Ref}, (w.pcs t).own = s :: L → c s = .held t :=
    fun hown => (h.held _ t).mpr (by rw [hown]; exact List.mem_cons_self ..)
  cases he with
  | skip own => exact idle w _ rfl rfl rfl rfl own
  | claim now found own => exact idle _ _ rfl rfl rfl rfl own
  | build now at_ =>
    exact ⟨_, .single (.acquire t ((h.absent _).mpr (Nat.le_refl _))), h.build now at_⟩
  | @insert a k s now at_ free =>
    refine ⟨_, .single (.store _ (holds (by rw [at_]; rfl)) ?_), h.insert now at_ free⟩
    intro r hr
    rw [h.stored, free] at hr
    cases hr
  | recallProxy sid own => exact idle _ _ rfl rfl rfl rfl own
  | remember at_ => exact idle _ _ rfl rfl rfl rfl (by rw [at_, resume_own]; rfl)
  | forget at_ => exact idle _ _ rfl rfl rfl rfl (by rw [at_]; rfl)
  | take before after nodup pooled =>
    refine ⟨_, Ledger.steps_takeAll t _ c nodup ?_, h.take before after nodup pooled⟩
    exact fun s hs => ⟨_, (h.stored s _ _).mpr (pooled s hs)⟩
  | stray now at_ hact hexp gone =>
    subst hact
    -- what the guard excludes: the entry is not the session looked up
    exact absurd (expiryOwn_check hg at_ hexp) gone
  | teardown own => exact ⟨_, .single (.spend (holds own)), h.teardown own⟩
  | release now before after own => exact idle _ _ rfl rfl rfl rfl own
  | lock s b own => exact idle _ _ rfl rfl rfl rfl own

/-- **Every guarded run is a path of ledger moves.** -/
theorem run_path {cfg : Config} {w w' : World Proxy} {c : Custody}
    (h : Run (step cfg) (fun w a => expiryOwn w a = true) w w') (hw : WF w) (hc : Accounts w c) :
    ∃ c', Ledger.Steps c c' ∧ WF w' ∧ Accounts w' c' := by
  have matched : ∀ (w : World Proxy) a w' c, WF w ∧ Accounts w c → expiryOwn w a = true →
      step cfg w a = some w' → ∃ c', Ledger.Steps c c' ∧ WF w' ∧ Accounts w' c' := by
    intro w a w' c hR hg hs
    have he := step_effect hR.1 hs
    obtain ⟨c', hpath, hc'⟩ := step_accounts hR.2 hg he
    exact ⟨c', hpath, he.wf hR.1, hc'⟩
  exact h.simulates matched ⟨hw, hc⟩

/-- The same from start-up, where the ledger is empty. -/
theorem run_accounts {cfg : Config} {w : World Proxy}
    (h : Run (step cfg) (fun w a => expiryOwn w a = true) World.init w) :
    ∃ c, Ledger.Steps (fun _ => .absent) c ∧ Accounts w c := by
  obtain ⟨c, hpath, -, hc⟩ := run_path h wf_init accounts_init
  exact ⟨c, hpath, hc⟩

/-! ## What a payload's holder does with it -/

/-- Some pool has the payload. -/
def Pooled (w : World Proxy) (r : Ref) : Prop :=
  ∃ e sid, (w.st.pools e).find? sid = some r

/-- The thread that holds a payload pools it or tears it down in steps of its own. -/
theorem own_settles (cfg : Config) {w : World Proxy} {t : Tid} {r : Ref}
    (h : r ∈ (w.pcs t).own) :
    ∃ w', Run (step cfg) (By t) w w' ∧ (Pooled w' r ∨ r ∈ w'.st.torn) := by
  have tornBy : ∀ (w : World Proxy) (p : Pc Proxy),
      step cfg w (t, .go 0) = some ((w.setStores (w.st.teardown r)).goto t p) →
      ∃ w', Run (step cfg) (By t) w w' ∧ r ∈ w'.st.torn := fun w p hs =>
    ⟨_, Run.go hs, List.mem_append_right _ (List.mem_singleton_self r)⟩
  cases hp : w.pcs t with
  | insert a k s =>
    rw [hp] at h
    obtain rfl := List.mem_singleton.mp h
    cases hfind : (w.st.pools a.store).find? a.sid with
    | none =>
      have hstep : step cfg w (t, .go 0) = some (((w.setStores
          (w.st.insert a.store a.sid r)).claimIf k.claim t r 0).goto t (.remember a k r)) := by
        simp only [step, hp, go, hfind]
      refine ⟨_, Run.go hstep, Or.inl ⟨a.store, a.sid, ?_⟩⟩
      rw [World.goto_st, World.claimIf_pools, World.setStores_st, Stores.find?_insert]
      exact if_pos ⟨rfl, rfl⟩
    | some race =>
      let w₁ := (w.claimIf k.claim t race 0).goto t (.extra a k r race)
      have hstep : step cfg w (t, .go 0) = some w₁ := by
        simp only [step, hp, go, hfind]
        rfl
      have hpc : w₁.pcs t = .extra a k r race := World.goto_self ..
      obtain ⟨w', hrun, htorn⟩ := tornBy w₁ (resume a race false k) (by
        simp only [step, hpc]
        rfl)
      exact ⟨w', (Run.go hstep).trans hrun, Or.inr htorn⟩
  | extra a k s race =>
    rw [hp] at h
    obtain rfl := List.mem_singleton.mp h
    obtain ⟨w', hrun, htorn⟩ := tornBy w _ (by simp only [step, hp]; rfl)
    exact ⟨w', hrun, Or.inr htorn⟩
  | expired e sid k s =>
    rw [hp] at h
    obtain rfl := List.mem_singleton.mp h
    obtain ⟨w', hrun, htorn⟩ := tornBy w _ (by simp only [step, hp]; rfl)
    exact ⟨w', hrun, Or.inr htorn⟩
  | closing e sid s v =>
    rw [hp] at h
    obtain rfl := List.mem_singleton.mp h
    obtain ⟨w', hrun, htorn⟩ := tornBy w _ (by simp only [step, hp]; rfl)
    exact ⟨w', hrun, Or.inr htorn⟩
  | teardown todo =>
    rw [hp] at h
    obtain ⟨w', hrun, hst, -⟩ := alone_teardown cfg todo hp
    refine ⟨w', hrun, Or.inr ?_⟩
    rw [hst, Stores.teardownAll_torn]
    exact List.mem_append_right _ h
  | _ =>
    rw [hp] at h
    cases h

/-! ## The guarantee -/

/-- A thread in no call: it has not started one, it is between `get` and `end_use`,
or its command is done. -/
def Pc.rest : Pc Proxy → Bool
  | .idle | .holding .. | .solved | .answered _ => true
  | _ => false

theorem Pc.own_of_rest {p : Pc Proxy} (h : p.rest = true) : p.own = [] := by
  cases p <;> first | rfl | cases h

/-- No call is in progress. -/
def AtRest (w : World Proxy) : Prop := ∀ t, (w.pcs t).rest = true

/-- A payload that was torn down is with no pool and no thread ever after. -/
theorem torn_for_good {cfg : Config} {w w' : World Proxy}
    (h : Run (step cfg) (fun w a => expiryOwn w a = true) World.init w)
    (h' : Run (step cfg) (fun w a => expiryOwn w a = true) w w') {r : Ref}
    (hr : r ∈ w.st.torn) : ¬Pooled w' r ∧ ∀ t, r ∉ (w'.pcs t).own := by
  obtain ⟨c, -, hw, hc⟩ := run_path h wf_init accounts_init
  obtain ⟨c', hpath, -, hc'⟩ := run_path h' hw hc
  have hspent : c r = .spent := by
    by_contra hne
    have hcount := hc.torn r
    rw [if_neg hne] at hcount
    exact List.count_eq_zero.mp hcount hr
  have hspent' := hpath.spent_final hspent
  refine ⟨?_, fun t ht => ?_⟩
  · rintro ⟨e, sid, hs⟩
    rw [← hc'.stored, hspent'] at hs
    cases hs
  · rw [← hc'.held, hspent'] at ht
    cases ht

/-- **No payload is torn down twice and none is lost**, in every run in which
`get` drops an expired session only while the pool still has it. -/
theorem payload_custody {cfg : Config} {w : World Proxy}
    (h : Run (step cfg) (fun w a => expiryOwn w a = true) World.init w) :
    (∀ r, w.st.torn.count r ≤ 1) ∧
    (∀ r < w.st.built, Pooled w r ∨ r ∈ w.st.torn ∨ ∃ t, r ∈ (w.pcs t).own ∧
      ∃ w', Run (step cfg) (By t) w w' ∧ (Pooled w' r ∨ r ∈ w'.st.torn)) ∧
    (AtRest w → ∀ r < w.st.built,
      (Pooled w r ∧ w.st.torn.count r = 0) ∨ (¬Pooled w r ∧ w.st.torn.count r = 1)) := by
  obtain ⟨c, -, hc⟩ := run_accounts h
  have present : ∀ r < w.st.built, c r ≠ .absent := fun r hr he =>
    absurd ((hc.absent r).mp he) (Nat.not_le.mpr hr)
  refine ⟨?_, ?_, ?_⟩
  · intro r
    rw [hc.torn]
    split <;> omega
  · intro r hr
    cases hcr : c r with
    | absent => exact absurd hcr (present r hr)
    | held t =>
      have hown := (hc.held r t).mp hcr
      exact Or.inr (Or.inr ⟨t, hown, own_settles cfg hown⟩)
    | stored k => exact Or.inl ⟨k.1, k.2, (hc.stored r k.1 k.2).mp hcr⟩
    | spent =>
      refine Or.inr (Or.inl (List.count_pos_iff.mp ?_))
      rw [hc.torn, if_pos hcr]
      omega
  · intro hrest r hr
    cases hcr : c r with
    | absent => exact absurd hcr (present r hr)
    | held t =>
      have hown := (hc.held r t).mp hcr
      rw [Pc.own_of_rest (hrest t)] at hown
      cases hown
    | stored k =>
      refine Or.inl ⟨⟨k.1, k.2, (hc.stored r k.1 k.2).mp hcr⟩, ?_⟩
      rw [hc.torn, hcr, if_neg nofun]
    | spent =>
      refine Or.inr ⟨?_, by rw [hc.torn, if_pos hcr]⟩
      rintro ⟨e, sid, hs⟩
      rw [← hc.stored, hcr] at hs
      cases hs

/-- The threads of a computed run at rest, all threads are. -/
theorem atRest_of_below {w : World Proxy} {n : Nat} (hidle : ∀ t, n ≤ t → w.pcs t = .idle)
    (hrest : ∀ t < n, (w.pcs t).rest = true) : AtRest w := by
  intro t
  by_cases ht : t < n
  · exact hrest t ht
  · rw [hidle t (Nat.le_of_not_lt ht)]
    rfl

/-- A session expires, is dropped and rebuilt, and its old browser is closed. -/
theorem payload_custody_rebuild : ∃ w : World String,
    (w.st.built = 2 ∧ w.st.torn = [0]) ∧ (∀ r, w.st.torn.count r ≤ 1) ∧
    ∀ r < w.st.built,
      (Pooled w r ∧ w.st.torn.count r = 0) ∨ (¬Pooled w r ∧ w.st.torn.count r = 1) := by
  obtain ⟨w, hrun, hidle, hw, hrest⟩ : ∃ w : World String,
      Run (step .unset) (fun w a => expiryOwn w a = true) World.init w ∧
      (∀ t, 2 ≤ t → w.pcs t = .idle) ∧
      (w.st.built = 2 ∧ w.st.torn = [0]) ∧ ∀ t < 2, (w.pcs t).rest = true :=
    Run.of_exec_below 2 (fun _ _ _ => id)
      ([(0, .start (.create .chrome (some "s") "" none false))] ++ goes 0 4 ++
        [(1, .start (.get .chrome "s" (some 5) none))] ++ goes 1 2 ++ [(1, .go 9)] ++ goes 1 5)
      (by decide)
  have hall := payload_custody hrun
  exact ⟨w, hw, hall.1, hall.2.2 (atRest_of_below hidle hrest)⟩

/-- Between `get`'s lookup and its expiry decision, `destroy` tears the session
down and another `create` pools a new one under its id: the old payload is torn
down a second time, and the new one is lost. -/
theorem expiry_tears_down_twice : ∃ w : World String,
    Run (step .unset)
      (fun w a => startsOnly [.create, .get, .remove, .sweep] w a = true) World.init w ∧
    AtRest w ∧ w.st.torn.count 0 = 2 ∧
    (1 < w.st.built ∧ w.st.torn.count 1 = 0 ∧ (w.st.pools .chrome).entries = [("s", 2)] ∧
      (w.st.pools .stealth).entries = []) := by
  obtain ⟨w, hrun, hidle, hw, hrest⟩ : ∃ w : World String,
      Run (step .unset)
        (fun w a => startsOnly [.create, .get, .remove, .sweep] w a = true) World.init w ∧
      (∀ t, 4 ≤ t → w.pcs t = .idle) ∧
      (w.st.torn.count 0 = 2 ∧ 1 < w.st.built ∧ w.st.torn.count 1 = 0 ∧
        (w.st.pools .chrome).entries = [("s", 2)] ∧ (w.st.pools .stealth).entries = []) ∧
      ∀ t < 4, (w.pcs t).rest = true :=
    Run.of_exec_below 4 (fun _ _ _ => id)
      ([(0, .start (.create .chrome (some "s") "" none false))] ++ goes 0 4 ++
        [(1, .start (.get .chrome "s" (some 5) none))] ++ goes 1 2 ++
        [(2, .start (.destroy .chrome "s"))] ++ goes 2 4 ++
        [(3, .start (.create .chrome (some "s") "" none false))] ++ goes 3 4 ++
        [(1, .go 9)] ++ goes 1 5)
      (by decide)
  exact ⟨w, hrun, atRest_of_below hidle hrest, hw.1, hw.2⟩

end Solverr.Sessions
