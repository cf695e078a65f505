import Solverr.Sessions.Custody

/-!
# Claims keep a session alive

`in_use` counts claims, and a claimed session stays in its pool. The two facts
lean on each other: the count tells the reaper, the cap and the expiry decision
to leave a session alone, and the pool having the session is what makes an
expiry decision by id hit the session it is about.

`Counted` is the first alone, and no step breaks it. `Claimed` states them
together. It survives every step but one kind: a removal by id that does not look
at `in_use`, which `destroy` and a timed-out solve both do. `sole` is the guard
that such a removal meets no other holder; where neither call is made it holds by
itself, and that is the guarantee of `get`.
-/

namespace Solverr.Sessions

open Solverr.Lib (Dict Run)

variable {Proxy : Type}

/-- Claims are counted, and every mark is one of them. -/
structure Counted (w : World Proxy) : Prop where
  count : ∀ s, (w.st.heap s).inUse = w.outstanding s
  handed : ∀ t s, (w.pcs t).mark = some s → (t, s) ∈ w.claims
  built : ∀ t s, (t, s) ∈ w.claims → s < w.st.built

/-- Claims are counted, and protect what they are on. -/
structure Claimed (w : World Proxy) : Prop where
  count : ∀ s, (w.st.heap s).inUse = w.outstanding s
  handed : ∀ t s, (w.pcs t).mark = some s → (t, s) ∈ w.claims
  built : ∀ t s, (t, s) ∈ w.claims → s < w.st.built
  live : ∀ t s e sid, (w.pcs t).marked = some (s, some (e, sid)) →
    (w.st.pools e).find? sid = some s

theorem Claimed.counted {w : World Proxy} (h : Claimed w) : Counted w :=
  ⟨h.count, h.handed, h.built⟩

/-- A removal that does not look at `in_use` meets no holder but its own thread. -/
def sole (w : World Proxy) (a : Tid × Act Proxy) : Bool :=
  match w.pcs a.1 with
  | .remove e sid _ =>
    match (w.st.pools e).find? sid with
    | none => true
    | some s => (w.st.heap s).inUse == 0
  | .timedOut _ _ s => (w.st.heap s).inUse == 1
  | _ => true

/-! ## Counting -/

namespace World

theorem outstanding_pos {w : World Proxy} {t : Tid} {s : Ref} (h : (t, s) ∈ w.claims) :
    0 < w.outstanding s :=
  List.countP_pos_iff.mpr ⟨(t, s), h, by simp⟩

/-- A released claim is one less on its own session. -/
theorem outstanding_endUse {w : World Proxy} {t : Tid} {s : Ref} (h : (t, s) ∈ w.claims)
    (now : Int) (r : Ref) :
    (w.endUse t s now).outstanding r = if r = s then w.outstanding s - 1 else w.outstanding r := by
  have hperm : w.claims.Perm ((t, s) :: w.claims.erase (t, s)) := List.perm_cons_erase h
  have hall : w.outstanding r = (w.endUse t s now).outstanding r + if s = r then 1 else 0 := by
    unfold outstanding endUse
    rw [hperm.countP_eq, List.countP_cons]
    simp
  by_cases hr : r = s
  · subst hr
    rw [if_pos rfl] at hall ⊢
    omega
  · rw [if_neg (Ne.symm hr)] at hall
    rw [if_neg hr]
    omega

end World

namespace Claimed

variable {w w' : World Proxy} {t : Tid} {act : Act Proxy}

/-- A session nobody uses is not marked. -/
theorem not_marked (h : Claimed w) {s : Ref} (hs : (w.st.heap s).inUse = 0) :
    (w.pcs t).mark ≠ some s := by
  intro hm
  have hpos := World.outstanding_pos (h.handed t s hm)
  rw [← h.count, hs] at hpos
  exact absurd hpos (Nat.lt_irrefl 0)

/-- A session used once is marked by its one holder only. -/
theorem sole_holder (h : Claimed w) {s : Ref} (hs : (w.st.heap s).inUse = 1)
    (hm : (w.pcs t).mark = some s) {t' : Tid} (ht : t' ≠ t) : (w.pcs t').mark ≠ some s := by
  intro hm'
  have hmem : (t', s) ∈ w.claims.erase (t, s) :=
    (List.mem_erase_of_ne (by simp [ht])).mpr (h.handed t' s hm')
  have hpos : 0 < (w.endUse t s 0).outstanding s := World.outstanding_pos hmem
  rw [World.outstanding_endUse (h.handed t s hm), if_pos rfl, ← h.count, hs] at hpos
  exact absurd hpos (Nat.lt_irrefl 0)

/-- Under the guard, what a step takes out of a pool is in nobody else's use. -/
theorem unused (h : Claimed w) (hg : sole w (t, act) = true) {e : Engine} {sid : String}
    {v : Ref} {op : Remover} (hv : (w.st.pools e).find? sid = some v)
    (hp : w.pcs t = .remove e sid op ∨ ∃ s, w.pcs t = .timedOut e sid s) :
    Unused w t [v] := by
  rcases hp with hp | ⟨s, hp⟩
  · refine .idle fun r hr => ?_
    rw [List.mem_singleton.mp hr]
    simpa [sole, hp, hv] using hg
  · have hlive := h.live t s e sid (by rw [hp]; rfl)
    obtain rfl := Option.some.inj (hv.symm.trans hlive)
    exact .own rfl (by simpa [sole, hp] using hg) (by rw [hp]; rfl)

/-- Nobody who has to find it pooled marks what a step takes out of a pool. -/
theorem not_live (h : Claimed w) {L : List Ref} (hL : Unused w t L) {s : Ref} (hs : s ∈ L)
    {t' : Tid} (ht : t' ≠ t) : (w.pcs t').mark ≠ some s := by
  cases hL with
  | idle hidle => exact h.not_marked (hidle s hs)
  | own hone hu hm =>
    rw [hone] at hs
    obtain rfl := List.mem_singleton.mp hs
    exact h.sole_holder hu hm ht

end Claimed

theorem claimed_init : Claimed (World.init : World Proxy) :=
  ⟨fun _ => rfl, nofun, nofun, nofun⟩

/-! ## One step -/

namespace World

/-- The mark and its place after a thread has moved. -/
theorem marked_goto (w : World Proxy) (t t' : Tid) (p : Pc Proxy) :
    ((w.goto t p).pcs t').marked = if t' = t then p.marked else (w.pcs t').marked := by
  split
  next h => rw [h, goto_self]
  next h => rw [goto_other w p h]

/-- Past a thread that moved on without a mark, only the others have theirs. -/
theorem marked_of_unmarked {w : World Proxy} {t t' : Tid} {p : Pc Proxy} (hp : p.marked = none)
    {m : Ref × Option (Engine × String)} (hm : ((w.goto t p).pcs t').marked = some m) :
    t' ≠ t ∧ (w.pcs t').marked = some m := by
  rw [marked_goto] at hm
  split at hm
  next =>
    rw [hp] at hm
    cases hm
  next ht => exact ⟨ht, hm⟩

theorem mark_of_unmarked {w : World Proxy} {t t' : Tid} {p : Pc Proxy} (hp : p.marked = none)
    {s : Ref} (hm : ((w.goto t p).pcs t').mark = some s) : t' ≠ t ∧ (w.pcs t').mark = some s := by
  obtain ⟨⟨s', place⟩, hmarked, rfl⟩ := Option.map_eq_some_iff.mp hm
  obtain ⟨ht, hold⟩ := marked_of_unmarked hp hmarked
  refine ⟨ht, ?_⟩
  unfold Pc.mark
  rw [hold]
  rfl

end World

namespace Weakens

variable {m m' : Option (Ref × Option (Engine × String))}

/-- What is marked afterwards was marked before. -/
theorem mark (h : Weakens m m') : m'.map Prod.fst = m.map Prod.fst := by
  rcases h with rfl | ⟨s, hs, rfl⟩
  · rfl
  · exact hs.symm

/-- What has to be pooled afterwards had to be pooled before. -/
theorem live (h : Weakens m m') {s : Ref} {key : Engine × String}
    (hm : m' = some (s, some key)) : m = some (s, some key) := by
  rcases h with rfl | ⟨s', hs, rfl⟩
  · exact hm
  · cases hm

end Weakens

/-- After a step that is no removal, what has to be pooled is. -/
theorem World.live_goto {w W : World Proxy} {t : Tid} {p : Pc Proxy} (hpcs : W.pcs = w.pcs)
    (hlive : ∀ t s e sid, (w.pcs t).marked = some (s, some (e, sid)) →
      (w.st.pools e).find? sid = some s)
    (hpools : ∀ e sid s, (w.st.pools e).find? sid = some s → (W.st.pools e).find? sid = some s)
    (hp : ∀ s e sid, p.marked = some (s, some (e, sid)) → (W.st.pools e).find? sid = some s)
    (t' : Tid) (s : Ref) (e : Engine) (sid : String)
    (hm : ((W.goto t p).pcs t').marked = some (s, some (e, sid))) :
    ((W.goto t p).st.pools e).find? sid = some s := by
  rw [World.marked_goto, hpcs] at hm
  rw [World.goto_st]
  split at hm
  next => exact hp s e sid hm
  next => exact hpools e sid s (hlive t' s e sid hm)

/-- An insertion under a free id leaves every other entry where it was. -/
theorem Stores.find?_insert_free {st : Stores Proxy} {e : Engine} {sid : String}
    (free : (st.pools e).find? sid = none) (s : Ref) {e' : Engine} {i : String} {r : Ref}
    (hr : (st.pools e').find? i = some r) : ((st.insert e sid s).pools e').find? i = some r := by
  rw [Stores.find?_insert, if_neg]
  · exact hr
  · rintro ⟨rfl, rfl⟩
    rw [free] at hr
    cases hr

namespace Counted

variable {w w' : World Proxy} {t : Tid} {act : Act Proxy}

/-- A step that moves one thread, which keeps its mark or gives it up. -/
theorem move (h : Counted w) {W : World Proxy} {p : Pc Proxy} (hpcs : W.pcs = w.pcs)
    (hcount : ∀ s, (W.st.heap s).inUse = (w.st.heap s).inUse) (hclaims : W.claims = w.claims)
    (hbuilt : w.st.built ≤ W.st.built)
    (hm : ∀ s, p.mark = some s → (w.pcs t).mark = some s) : Counted (W.goto t p) := by
  refine ⟨?_, ?_, ?_⟩
  · intro s
    rw [World.goto_st, hcount, h.count, World.outstanding, World.outstanding, ← hclaims]
    rfl
  · intro t' s hs
    show (t', s) ∈ W.claims
    rw [hclaims]
    unfold Pc.mark at hs
    rw [World.marked_goto, hpcs] at hs
    split at hs
    next ht => exact h.handed t' s (ht ▸ hm s hs)
    next => exact h.handed t' s hs
  · intro t' s hs
    have hold : (t', s) ∈ w.claims := hclaims ▸ hs
    exact Nat.lt_of_lt_of_le (h.built t' s hold) hbuilt

/-- A claim of a session that exists. -/
theorem claim (h : Counted w) {W : World Proxy} {p : Pc Proxy} {s : Ref} (now : Int)
    (hpcs : W.pcs = w.pcs) (hheap : W.st.heap = w.st.heap) (hclaims : W.claims = w.claims)
    (hs : s < w.st.built) (hbuilt : W.st.built = w.st.built) (hp : p.mark = some s) :
    Counted ((W.claimIf true t s now).goto t p) := by
  refine ⟨?_, ?_, ?_⟩
  · intro r
    show ((W.st.claim s now).heap r).inUse = List.countP _ ((t, s) :: W.claims)
    rw [Stores.claim_inUse, List.countP_cons, hclaims, hheap]
    have hr := h.count r
    unfold World.outstanding at hr
    by_cases hrs : r = s
    · subst hrs
      simp [hr]
    · simp [hrs, hr, Ne.symm hrs]
  · intro t' r hr
    show (t', r) ∈ (t, s) :: W.claims
    unfold Pc.mark at hr
    rw [World.marked_goto, World.claimIf_pcs, hpcs] at hr
    rw [hclaims]
    split at hr
    next ht =>
      obtain rfl := Option.some.inj (hp.symm.trans hr)
      rw [ht]
      exact List.mem_cons_self ..
    next => exact List.mem_cons_of_mem _ (h.handed t' r hr)
  · intro t' r hr
    show r < W.st.built
    rw [hbuilt]
    rcases List.mem_cons.mp hr with heq | hold
    · rw [(Prod.mk.inj heq).2]
      exact hs
    · rw [hclaims] at hold
      exact h.built t' r hold

/-- Nobody has claimed the session that is built next. -/
theorem unbuilt (h : Counted w) : (w.st.heap w.st.built).inUse = 0 := by
  refine Nat.eq_zero_of_not_pos fun hpos => ?_
  rw [h.count] at hpos
  obtain ⟨c, hc, hcs⟩ := List.countP_pos_iff.mp hpos
  have hlt := h.built c.1 c.2 hc
  rw [of_decide_eq_true hcs] at hlt
  exact Nat.lt_irrefl _ hlt

/-- A new session is nobody's. -/
theorem build (h : Counted w) {a : CreateArgs Proxy} {k : CreateK} (now : Int)
    (at_ : w.pcs t = .build a k) :
    Counted ((w.setStores (w.st.build a.sid a.proxy now)).goto t (.insert a k w.st.built)) := by
  refine h.move rfl ?_ rfl (Nat.le_succ _) (by rw [at_]; exact fun _ => id)
  intro s
  rw [World.setStores_st, Stores.build_heap]
  split
  next hs => rw [hs, h.unbuilt]
  next => rfl

/-- A session goes into a pool, claimed if the caller of `create` asked for it. -/
theorem insert (h : Counted w) {a : CreateArgs Proxy} {k : CreateK} {s : Ref} (now : Int)
    (hs : s < w.st.built) :
    Counted (((w.setStores (w.st.insert a.store a.sid s)).claimIf k.claim t s now).goto t
      (.remember a k s)) := by
  cases hk : k.claim with
  | true => exact h.claim now rfl rfl rfl hs rfl (by simp [Pc.mark, Pc.marked, hk])
  | false =>
    -- `create` without a claim: the session is pooled and in nobody's use
    exact h.move rfl (fun _ => rfl) rfl (Nat.le_refl _) (by simp [Pc.mark, Pc.marked, hk])

/-- A thread gives back the session it marks. -/
theorem release (h : Counted w) {s : Ref} {p : Pc Proxy} (now : Int)
    (before : (w.pcs t).mark = some s) (after : p.marked = none) :
    Counted ((w.endUse t s now).goto t p) := by
  refine ⟨?_, ?_, ?_⟩
  · intro r
    show ((w.st.endUse s now).heap r).inUse = (w.endUse t s now).outstanding r
    rw [Stores.endUse_inUse, World.outstanding_endUse (h.handed t s before), h.count, h.count]
  · intro t' r hr
    obtain ⟨ht, hold⟩ := World.mark_of_unmarked after hr
    exact (List.mem_erase_of_ne (by simp [ht])).mpr (h.handed t' r hold)
  · intro t' r hr
    exact h.built t' r (List.mem_of_mem_erase hr)

/-- **Every step keeps claims counted**, whatever it removes. -/
theorem step (h : Counted w) (hw : WF w) (he : Effect w t act w') : Counted w' := by
  have same : ∀ p : Pc Proxy, p.marked = (w.pcs t).marked →
      ∀ s, p.mark = some s → (w.pcs t).mark = some s := by
    intro p hp s hs
    rwa [Pc.mark, hp] at hs
  cases he with
  | skip own marked =>
    exact h.move rfl (fun _ => rfl) rfl (Nat.le_refl _) fun s hs => marked.mark.symm.trans hs
  | claim now found own before after =>
    exact h.claim now rfl rfl rfl (hw.keyed _ _ _ found).1 rfl (by rw [Pc.mark, after]; rfl)
  | build now at_ => exact h.build now at_
  | @insert a k s now at_ free => exact h.insert now (hw.filing t a s (by rw [at_]; rfl)).1
  | recallProxy sid own marked | teardown own marked =>
    exact h.move rfl (fun _ => rfl) rfl (Nat.le_refl _) (same _ marked)
  | remember at_ =>
    refine h.move rfl (fun _ => rfl) rfl (Nat.le_refl _) (same _ ?_)
    rw [at_, resume_marked]
    rfl
  | forget at_ => exact h.move rfl (fun _ => rfl) rfl (Nat.le_refl _) nofun
  | take before after nodup pooled marked hop unused =>
    refine h.move rfl (fun _ => rfl) rfl (Nat.le_refl _) fun s hs => ?_
    rcases marked with hm | ⟨s', hs', hm⟩
    · rw [Pc.mark, hm] at hs
      cases hs
    · rw [Pc.mark, hm] at hs
      exact hs'.trans hs
  | stray => exact h.move rfl (fun _ => rfl) rfl (Nat.le_refl _) nofun
  | release now before after => exact h.release now before after
  | lock s b own marked =>
    exact h.move rfl (fun r => w.st.setLocked_inUse s r b) rfl (Nat.le_refl _) (same _ marked)

end Counted

namespace Claimed

variable {w w' : World Proxy} {t : Tid} {act : Act Proxy}

/-- Sessions that nobody else uses are taken out of a pool: what the other threads
have to find there stays. -/
theorem live_take (h : Claimed w) {e : Engine} {L : List Ref} {op : Remover} {p : Pc Proxy}
    (pooled : ∀ s ∈ L, (w.st.pools e).find? (w.st.heap s).sessionId = some s)
    (marked : p.marked = none ∨ ∃ s, (w.pcs t).mark = some s ∧ p.marked = some (s, none))
    (hL : Unused w t L) (t' : Tid) (s : Ref) (e' : Engine) (i : String)
    (hs : (((w.setStores (w.st.pop e (L.map fun s => (w.st.heap s).sessionId) op)).goto t
      p).pcs t').marked = some (s, some (e', i))) :
    ((w.st.pop e (L.map fun s => (w.st.heap s).sessionId) op).pools e').find? i = some s := by
  rw [World.marked_goto] at hs
  split at hs
  next =>
    rcases marked with hm | ⟨s', -, hm⟩ <;> rw [hm] at hs <;> cases hs
  next ht =>
    have hlive := h.live t' s e' i hs
    rw [Stores.find?_pop]
    split
    next hkey =>
      -- a session taken here would be one this other thread has marked
      obtain ⟨rfl, hi⟩ := hkey
      obtain ⟨r, hr, rfl⟩ := List.mem_map.mp hi
      obtain rfl := Option.some.inj ((pooled r hr).symm.trans hlive)
      refine absurd ?_ (h.not_live hL hr ht)
      unfold Pc.mark
      rw [show (w.pcs t').marked = _ from hs]
      rfl
    next => exact hlive

/-- **One guarded step keeps claimed sessions pooled.** -/
theorem live_step (h : Claimed w) (hg : sole w (t, act) = true) (he : Effect w t act w') :
    ∀ t s e sid, (w'.pcs t).marked = some (s, some (e, sid)) →
      (w'.st.pools e).find? sid = some s := by
  have weakened : ∀ p : Pc Proxy, Weakens (w.pcs t).marked p.marked →
      ∀ s e sid, p.marked = some (s, some (e, sid)) → (w.st.pools e).find? sid = some s :=
    fun p hp s e sid hm => h.live t s e sid (hp.live hm)
  have unmarked : ∀ (s : Ref) (e : Engine) (sid : String), none = some (s, some (e, sid)) →
      (w.st.pools e).find? sid = some s := by
    intro s e sid hm
    cases hm
  cases he with
  | skip own marked => exact World.live_goto rfl h.live (fun _ _ _ hr => hr) (weakened _ marked)
  | @claim e sid s p now found own before after =>
    refine World.live_goto rfl h.live (fun _ _ _ hr => hr) fun r e' i hr => ?_
    rw [after] at hr
    cases hr
    exact found
  | build now at_ => exact World.live_goto rfl h.live (fun _ _ _ hr => hr) unmarked
  | @insert a k s now at_ free =>
    have hfound : ((w.st.insert a.store a.sid s).pools a.store).find? a.sid = some s := by
      rw [Stores.find?_insert, if_pos ⟨rfl, rfl⟩]
    have hpcs : ((w.setStores (w.st.insert a.store a.sid s)).claimIf k.claim t s now).pcs = w.pcs :=
      World.claimIf_pcs ..
    refine World.live_goto hpcs h.live ?_ ?_
    · intro e i r hr
      rw [World.claimIf_pools]
      exact Stores.find?_insert_free free s hr
    · intro r e i hr
      rw [World.claimIf_pools]
      simp only [Pc.marked] at hr
      split at hr
      next =>
        cases hr
        exact hfound
      next => cases hr
  | recallProxy sid own marked | teardown own marked | lock _ _ own marked =>
    exact World.live_goto rfl h.live (fun _ _ _ hr => hr) (weakened _ (Or.inl marked))
  | remember at_ =>
    refine World.live_goto rfl h.live (fun _ _ _ hr => hr) (weakened _ (Or.inl ?_))
    rw [at_, resume_marked]
    rfl
  | forget at_ => exact World.live_goto rfl h.live (fun _ _ _ hr => hr) unmarked
  | take before after nodup pooled marked hop unused =>
    rcases unused with hL | ⟨sid, v, rfl, hv, hp⟩
    · exact h.live_take pooled marked hL
    · exact h.live_take pooled marked (h.unused hg hv hp)
  | stray now at_ hact hexp gone =>
    -- the thread has claimed what it looked up, so the entry is still there
    exact absurd (h.live t _ _ _ (by rw [at_]; rfl)) gone
  | release now before after =>
    refine World.live_goto rfl h.live (fun _ _ _ hr => hr) ?_
    intro s e sid hm
    rw [after] at hm
    cases hm

/-- **One guarded step keeps claims counted and claimed sessions pooled.** -/
theorem step (h : Claimed w) (hw : WF w) (hg : sole w (t, act) = true)
    (he : Effect w t act w') : Claimed w' := by
  have hcounted := h.counted.step hw he
  exact ⟨hcounted.count, hcounted.handed, hcounted.built, h.live_step hg he⟩

/-- A claimed session an expiry decision is about is in the pool. -/
theorem expiry_own (h : Claimed w) (a : Tid × Act Proxy) : expiryOwn w a = true := by
  unfold expiryOwn
  split
  next t now =>
    split
    next e sid ttl k s fresh hp =>
      have hlive := h.live t s e sid (by rw [hp]; rfl)
      simp [hlive]
    next => rfl
  next => rfl

end Claimed

/-! ## Runs -/

/-- In a run of guarded steps, claims are counted, claimed sessions are pooled and
every payload is accounted for. -/
theorem run_claimed {cfg : Config} {w : World Proxy}
    (h : Run (step cfg) (fun w a => sole w a = true) World.init w) :
    Claimed w ∧ ∃ c, Accounts w c := by
  have hstep : ∀ (w : World Proxy) a w', WF w ∧ Claimed w → sole w a = true →
      step cfg w a = some w' → WF w' ∧ Claimed w' := by
    rintro w a w' ⟨hw, hc⟩ hg hs
    have he := step_effect hw hs
    exact ⟨he.wf hw, hc.step hw hg he⟩
  have hinit : WF (World.init : World Proxy) ∧ Claimed (World.init : World Proxy) :=
    ⟨wf_init, claimed_init⟩
  have hown := h.weaken hstep (fun _ a hI _ => hI.2.expiry_own a) hinit
  obtain ⟨c, -, hc⟩ := run_accounts hown
  exact ⟨(h.invariant hstep hinit).2, c, hc⟩

/-- A pooled payload has not been torn down. -/
theorem Accounts.not_torn {w : World Proxy} {c : Custody} (h : Accounts w c) {e : Engine}
    {sid : String} {s : Ref} (hs : (w.st.pools e).find? sid = some s) : s ∉ w.st.torn := by
  rw [← List.count_eq_zero, h.torn, (h.stored s e sid).mpr hs, if_neg nofun]

/-! ## The guarantee of `get` -/

/-- Nothing but `create`, `get`, `reap_idle` and `enforce_cap` is called; `end_use` is
the step of a thread that holds a session. -/
def borrowing : List CallKind := [.create, .get, .sweep]

/-- Where nothing is removed by id, every step meets the guard. -/
theorem sole_of_borrowing {w : World Proxy} (h : Within borrowing w) (a : Tid × Act Proxy) :
    sole w a = true := by
  have hp := h.points a.1
  unfold sole
  split
  next e sid op hpc =>
    rw [hpc] at hp
    simp [Pc.within, borrowing] at hp
  next e sid s hpc =>
    rw [hpc] at hp
    simp [Pc.within, borrowing] at hp
  next => rfl

/-- **A session handed out stays pooled and open until its `end_use`**, `in_use` is
the number of claims outstanding, and no pool ever has a session that was torn
down: in every interleaving of `create`, `get`, `end_use`, `reap_idle` and
`enforce_cap`. -/
theorem handed_out_stays {cfg : Config} {w : World Proxy}
    (h : Run (step cfg) (fun w a => startsOnly borrowing w a = true) World.init w) :
    (∀ s, (w.st.heap s).inUse = w.outstanding s) ∧
    (∀ t e sid s, w.pcs t = .holding e sid s → (w.st.heap s).sessionId = sid ∧
      (w.st.pools e).find? sid = some s ∧ s ∉ w.st.torn) ∧
    (∀ e sid s, (w.st.pools e).find? sid = some s → s ∉ w.st.torn) := by
  have hsole := Run.of_within (fun _ _ hg => hg) (fun _ a hw _ => sole_of_borrowing hw a) h
  obtain ⟨hclaimed, c, hc⟩ := run_claimed hsole
  refine ⟨hclaimed.count, ?_, fun e sid s hs => hc.not_torn hs⟩
  intro t e sid s hp
  have hlive := hclaimed.live t s e sid (by rw [hp]; rfl)
  exact ⟨((wf_run h).keyed e sid s hlive).2, hlive, hc.not_torn hlive⟩

/-- One request holds a session while another finds it expired: it is reused. -/
theorem handed_out_stays_shared : ∃ w : World String,
    (w.pcs 1 = .holding .chrome "s" 0 ∧ w.pcs 2 = .holding .chrome "s" 0) ∧
    (w.st.heap 0).inUse = w.outstanding 0 ∧ (w.st.pools .chrome).find? "s" = some 0 ∧
    0 ∉ w.st.torn := by
  obtain ⟨w, hrun, hw⟩ : ∃ w : World String,
      Run (step .unset) (fun w a => startsOnly borrowing w a = true) World.init w ∧
      (w.pcs 1 = .holding .chrome "s" 0 ∧ w.pcs 2 = .holding .chrome "s" 0) :=
    Run.of_exec_test (fun _ _ => id)
      ([(1, .start (.get .chrome "s" none none))] ++ goes 1 6 ++
        [(2, .start (.get .chrome "s" (some 5) none))] ++ goes 2 2 ++
        [(3, .start (.reapIdle .chrome (some 1) 100))] ++ goes 3 2 ++ [(2, .go 9)])
      (by decide)
  have hall := handed_out_stays hrun
  exact ⟨w, hw, hall.1 0, (hall.2.1 1 _ _ _ hw.1).2⟩

end Solverr.Sessions
