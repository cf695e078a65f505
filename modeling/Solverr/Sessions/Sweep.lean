import Solverr.Lib.Annotated
import Solverr.Sessions.Claims

/-!
# What a pass of the reaper or the cap removes

`reap_idle` and `enforce_cap` decide by `last_used` and `in_use`, which other calls
stamp. This file says what a pass removes in terms of what happened to the
sessions instead: when each was last created, claimed or released, and whether all
its claims have been released.

`recorded` runs the threads and writes a log of those events, newest first.
`Recorded` says that the fields of every session are what the log says, along every
run and whatever else is removed. The pass itself is then a fact about the pool at
that moment (`reapIdle_fst`, `enforceCap_fst`).
-/

namespace Solverr.Sessions

open Solverr.Lib (Dict Run Any annotated exec)

variable {Proxy : Type}

/-! ## The log -/

/-- What can happen to a session. -/
inductive TouchKind
  | created
  | claimed
  | released
  deriving DecidableEq

/-- A session is created, claimed or released, with the clock at `at_`. -/
structure Touch where
  session : Ref
  kind : TouchKind
  at_ : Int
  deriving DecidableEq

/-- When the session was last touched. -/
def lastTouch (log : List Touch) (s : Ref) : Option Int :=
  (log.find? fun x => x.session = s).map Touch.at_

/-- How often the session was created, claimed or released. -/
def times (log : List Touch) (kind : TouchKind) (s : Ref) : Nat :=
  log.countP fun x => x.session = s ∧ x.kind = kind

/-- Every claim of the session has been released. -/
def Unheld (log : List Touch) (s : Ref) : Prop :=
  times log .claimed s = times log .released s

instance (log : List Touch) (s : Ref) : Decidable (Unheld log s) :=
  inferInstanceAs (Decidable (_ = _))

theorem lastTouch_cons (x : Touch) (log : List Touch) (s : Ref) :
    lastTouch (x :: log) s = if x.session = s then some x.at_ else lastTouch log s := by
  unfold lastTouch
  rw [List.find?_cons]
  by_cases h : x.session = s
  · rw [if_pos h, decide_eq_true h]
    rfl
  · rw [if_neg h, decide_eq_false h]

theorem times_cons (x : Touch) (log : List Touch) (kind : TouchKind) (s : Ref) :
    times (x :: log) kind s
      = times log kind s + if x.session = s ∧ x.kind = kind then 1 else 0 := by
  unfold times
  rw [List.countP_cons]
  simp only [decide_eq_true_eq]

/-- What a step does to sessions: the places where `_claim`, `end_use` and
`Session(…)` stamp `last_used`. -/
def touches (w : World Proxy) : Tid × Act Proxy → List Touch
  | (t, .go now) =>
    match w.pcs t with
    | .lookup a k =>
      match (w.st.pools a.store).find? a.sid with
      | some existing => if k.claim then [⟨existing, .claimed, now⟩] else []
      | none => []
    | .build _ _ => [⟨w.st.built, .created, now⟩]
    | .insert a k s =>
      -- the session claimed is that of a thread that was faster, if there is one
      if k.claim then [⟨((w.st.pools a.store).find? a.sid).getD s, .claimed, now⟩] else []
    | .holding _ _ s => [⟨s, .released, now⟩]
    | .endUse _ _ s _ => [⟨s, .released, now⟩]
    | _ => []
  | _ => []

/-- One step of one thread, and what it writes to the log. -/
def recorded (cfg : Config) (r : World Proxy × List Touch) (a : Tid × Act Proxy) :
    Option (World Proxy × List Touch) :=
  (step cfg r.1 a).map fun w => (w, touches r.1 a ++ r.2)

/-- The log records and does not interfere: every run can be recorded. -/
theorem recorded_of_run {cfg : Config} {G : World Proxy → Tid × Act Proxy → Prop}
    {w : World Proxy} (h : Run (step cfg) G World.init w) :
    ∃ log, Run (recorded cfg) Any (World.init, []) (w, log) := by
  have hany : Run (step cfg) Any World.init w :=
    h.weaken (I := fun _ => True) (fun _ _ _ _ _ _ => trivial) (fun _ _ _ _ => trivial) trivial
  show ∃ log, Run (annotated (step cfg) fun w a log => touches w a ++ log) Any (World.init, [])
    (w, log)
  exact hany.annotate []

/-! ## The fields are what the log says -/

/-- What one step did to the fields the log is about. -/
inductive Stamped (w w' : World Proxy) (t : Tid) : List Touch → Prop
  | quiet (built : w'.st.built = w.st.built)
      (lastUsed : ∀ s, (w'.st.heap s).lastUsed = (w.st.heap s).lastUsed)
      (inUse : ∀ s, (w'.st.heap s).inUse = (w.st.heap s).inUse) : Stamped w w' t []
  | created (sid : String) (proxy : Option Proxy) (now : Int)
      (built : w'.st.built = w.st.built + 1)
      (heap : w'.st.heap = (w.st.build sid proxy now).heap) :
      Stamped w w' t [⟨w.st.built, .created, now⟩]
  | claimed {s : Ref} (now : Int) (built : w'.st.built = w.st.built)
      (heap : w'.st.heap = (w.st.claim s now).heap) : Stamped w w' t [⟨s, .claimed, now⟩]
  | released {s : Ref} (now : Int) (held : (w.pcs t).mark = some s)
      (built : w'.st.built = w.st.built) (heap : w'.st.heap = (w.st.endUse s now).heap) :
      Stamped w w' t [⟨s, .released, now⟩]

/-- Neither the count nor the stamp is the lock. -/
theorem Stores.setLocked_lastUsed (st : Stores Proxy) (s r : Ref) (b : Bool) :
    ((st.setLocked s b).heap r).lastUsed = (st.heap r).lastUsed := by
  rw [setLocked, modify_heap]
  split
  next h => rw [h]
  next => rfl

/-- The cap pops and changes no session. -/
theorem Stores.enforceCap_sessions (st : Stores Proxy) (e : Engine) (n : Int) :
    (st.enforceCap e n).2.built = st.built ∧ (st.enforceCap e n).2.heap = st.heap := by
  unfold enforceCap
  split <;> exact ⟨rfl, rfl⟩

/-- A section that claims a session if its caller asked for it. -/
theorem Stamped.of_claimIf {w W : World Proxy} {t : Tid} (b : Bool) (s : Ref) (now : Int)
    (p : Pc Proxy) (hbuilt : W.st.built = w.st.built) (hheap : W.st.heap = w.st.heap) :
    Stamped w ((W.claimIf b t s now).goto t p) t (if b then [⟨s, .claimed, now⟩] else []) := by
  cases b with
  | true =>
    refine .claimed now hbuilt ?_
    show (W.st.claim s now).heap = _
    rw [Stores.claim, Stores.modify, hheap]
    rfl
  | false =>
    refine .quiet hbuilt (fun r => ?_) fun r => ?_
    · exact congrArg (fun heap => (heap r).lastUsed) hheap
    · exact congrArg (fun heap => (heap r).inUse) hheap

/-- **Every step stamps what the log says it does.** -/
theorem step_stamped {cfg : Config} {w w' : World Proxy} {t : Tid} {act : Act Proxy}
    (h : step cfg w (t, act) = some w') : Stamped w w' t (touches w (t, act)) := by
  have same : ∀ {W : World Proxy} {p : Pc Proxy}, W.st.built = w.st.built →
      W.st.heap = w.st.heap → Stamped w (W.goto t p) t [] := fun hbuilt hheap =>
    .quiet hbuilt (fun r => by rw [World.goto_st, hheap]) fun r => by rw [World.goto_st, hheap]
  cases act with
  | start c =>
    simp only [step] at h
    split at h
    next =>
      obtain ⟨p, -, rfl⟩ := Option.map_eq_some_iff.mp h
      exact same rfl rfl
    next => cases h
  | go now =>
    simp only [step] at h
    unfold touches
    cases hp : w.pcs t with
    | idle | solved | answered => rw [hp] at h; cases h
    -- `create` claims what it finds, builds, and claims what it files
    | lookup a k =>
      cases he : (w.st.pools a.store).find? a.sid with
      | some existing =>
        simp only [hp, go, he] at h ⊢
        obtain rfl := Option.some.inj h
        exact .of_claimIf k.claim existing now _ rfl rfl
      | none =>
        simp only [hp, go, he] at h ⊢
        obtain rfl := Option.some.inj h
        exact same rfl rfl
    | build a k =>
      simp only [hp, go] at h ⊢
      obtain rfl := Option.some.inj h
      exact .created a.sid a.proxy now rfl rfl
    | insert a k s =>
      cases hr : (w.st.pools a.store).find? a.sid with
      | some race =>
        simp only [hp, go, hr] at h ⊢
        obtain rfl := Option.some.inj h
        exact .of_claimIf k.claim race now _ rfl rfl
      | none =>
        simp only [hp, go, hr] at h ⊢
        obtain rfl := Option.some.inj h
        exact .of_claimIf k.claim s now _ rfl rfl
    -- a claim is released
    | holding e sid s | endUse e sid s b =>
      simp only [hp, go] at h ⊢
      obtain rfl := Option.some.inj h
      exact .released now (by rw [hp]; rfl) rfl rfl
    -- the pass itself stamps nothing
    | cap e n =>
      simp only [hp, go] at h ⊢
      obtain rfl := Option.some.inj h
      obtain ⟨hbuilt, hheap⟩ := w.st.enforceCap_sessions e n
      exact same hbuilt hheap
    | extra | remember | recallProxy | expired | forget | reap | driving | closing | drain =>
      simp only [hp, go] at h ⊢
      obtain rfl := Option.some.inj h
      exact same rfl rfl
    | check | remove | timedOut =>
      simp only [hp, go] at h ⊢
      split at h <;> obtain rfl := Option.some.inj h <;> exact same rfl rfl
    | teardown todo =>
      cases todo <;> simp only [hp, go] at h ⊢ <;> obtain rfl := Option.some.inj h <;>
        exact same rfl rfl
    | checkPools a todo =>
      cases todo <;> simp only [hp, go] at h ⊢ <;> split at h <;>
        obtain rfl := Option.some.inj h <;> exact same rfl rfl
    -- the lock is another field
    | acquire e sid s =>
      simp only [hp, go] at h ⊢
      split at h
      next => cases h
      next =>
        obtain rfl := Option.some.inj h
        exact .quiet rfl (w.st.setLocked_lastUsed s · true) (w.st.setLocked_inUse s · true)
    | release e sid s b =>
      simp only [hp, go] at h ⊢
      obtain rfl := Option.some.inj h
      exact .quiet rfl (w.st.setLocked_lastUsed s · false) (w.st.setLocked_inUse s · false)
  -- only the thread moves
  | fail text | timeout | drive =>
    simp only [step] at h
    split at h
    all_goals first
      | cases h; done
      | obtain rfl := Option.some.inj h
        exact same rfl rfl

/-- The fields of the sessions are what the log says. -/
structure Recorded (w : World Proxy) (log : List Touch) : Prop where
  last : ∀ s, s < w.st.built → lastTouch log s = some (w.st.heap s).lastUsed
  uses : ∀ s, (w.st.heap s).inUse + times log .released s = times log .claimed s

/-- A session that is stamped with what is written to the log: the log is right about it,
and about the others it is what it was. -/
theorem Recorded.last_stamped {w : World Proxy} {log : List Touch} (h : Recorded w log)
    {heap : Ref → Session Proxy} {s : Ref} {now : Int} (kind : TouchKind)
    (hself : (heap s).lastUsed = now)
    (hothers : ∀ r, r ≠ s → (heap r).lastUsed = (w.st.heap r).lastUsed) {r : Ref}
    (hr : r < w.st.built ∨ r = s) :
    lastTouch (⟨s, kind, now⟩ :: log) r = some (heap r).lastUsed := by
  rw [lastTouch_cons]
  by_cases hrs : r = s
  · rw [hrs, if_pos rfl, hself]
  · rw [if_neg (Ne.symm hrs), hothers r hrs]
    exact h.last r (hr.resolve_right hrs)

/-- One step and its entries. -/
theorem Recorded.step {w w' : World Proxy} {t : Tid} {log new : List Touch}
    (h : Recorded w log) (hc : Counted w) (hs : Stamped w w' t new) :
    Recorded w' (new ++ log) := by
  cases hs with
  | quiet built lastUsed inUse =>
    refine ⟨fun s hs => ?_, fun s => ?_⟩
    · rw [lastUsed]
      exact h.last s (built ▸ hs)
    · rw [inUse]
      exact h.uses s
  | created sid proxy now built heap =>
    refine ⟨fun s hs => ?_, fun s => ?_⟩
    · have hold : s < w.st.built ∨ s = w.st.built := by
        rw [built] at hs
        omega
      refine h.last_stamped .created ?_ (fun r hr => ?_) hold
      · rw [heap, Stores.build_heap, if_pos rfl]
      · rw [heap, Stores.build_heap, if_neg hr]
    · rw [List.singleton_append, times_cons, times_cons, heap, Stores.build_heap]
      have hold := h.uses s
      -- nobody has claimed what was not built yet
      have hfresh := hc.unbuilt
      by_cases hnew : s = w.st.built
      · subst hnew
        simp only [if_true]
        simpa [hfresh] using hold
      · simpa [hnew] using hold
  | @claimed s now built heap =>
    refine ⟨fun r hr => ?_, fun r => ?_⟩
    · refine h.last_stamped .claimed ?_ (fun r hr => ?_) (.inl (built ▸ hr))
      · rw [heap, Stores.claim, Stores.modify_heap, if_pos rfl]
      · rw [heap, Stores.claim, Stores.modify_heap, if_neg hr]
    · rw [List.singleton_append, times_cons, times_cons, heap, Stores.claim_inUse]
      have hold := h.uses r
      by_cases hrs : r = s
      · subst hrs
        simp only [if_true, and_self, reduceCtorEq, and_false, if_false]
        omega
      · simpa [hrs, Ne.symm hrs] using hold
  | @released s now held built heap =>
    -- the count does not go below zero: the thread itself still has its claim
    have hpos : 0 < (w.st.heap s).inUse := by
      rw [hc.count]
      exact World.outstanding_pos (hc.handed t s held)
    refine ⟨fun r hr => ?_, fun r => ?_⟩
    · refine h.last_stamped .released ?_ (fun r hr => ?_) (.inl (built ▸ hr))
      · rw [heap, Stores.endUse, Stores.modify_heap, if_pos rfl]
      · rw [heap, Stores.endUse, Stores.modify_heap, if_neg hr]
    · rw [List.singleton_append, times_cons, times_cons, heap, Stores.endUse_inUse]
      have hold := h.uses r
      by_cases hrs : r = s
      · subst hrs
        simp only [if_true, and_self, reduceCtorEq, and_false, if_false]
        omega
      · simpa [hrs, Ne.symm hrs] using hold

/-- **Along every run the fields are what the log says.** -/
theorem run_recorded {cfg : Config} {w : World Proxy} {log : List Touch}
    (h : Run (recorded cfg) Any (World.init, []) (w, log)) : WF w ∧ Recorded w log := by
  have hstep : ∀ (r : World Proxy × List Touch) a r',
      (WF r.1 ∧ Counted r.1 ∧ Recorded r.1 r.2) → Any r a → recorded cfg r a = some r' →
      WF r'.1 ∧ Counted r'.1 ∧ Recorded r'.1 r'.2 := by
    intro r a r' hinv _ hs
    obtain ⟨hw, hc, hr⟩ := hinv
    obtain ⟨w', hw', rfl⟩ := Option.map_eq_some_iff.mp hs
    have he := step_effect hw hw'
    exact ⟨he.wf hw, hc.step hw he, hr.step hc (step_stamped hw')⟩
  have hinit : WF (World.init : World Proxy) ∧ Counted (World.init : World Proxy) ∧
      Recorded (World.init : World Proxy) [] := by
    refine ⟨wf_init, claimed_init.counted, fun s hs => absurd hs (Nat.not_lt_zero s), ?_⟩
    exact fun _ => rfl
  obtain ⟨hw, -, hr⟩ := h.invariant (I := fun r => WF r.1 ∧ Counted r.1 ∧ Recorded r.1 r.2)
    hstep hinit
  exact ⟨hw, hr⟩

/-- A session is out of use exactly when all its claims were released. -/
theorem Recorded.inUse_eq_zero {w : World Proxy} {log : List Touch} (h : Recorded w log)
    (s : Ref) : (w.st.heap s).inUse = 0 ↔ Unheld log s := by
  have huses := h.uses s
  unfold Unheld
  omega

/-! ## One pass -/

/-- What a thread has to close it closes, one payload after the other. -/
theorem teardown_closes (cfg : Config) (t : Tid) : ∀ (L : List Ref) (w : World Proxy),
    w.pcs t = .teardown L → ∃ w', exec (step cfg) (fun _ _ => true) w (goes t (L.length + 1))
      = some w' ∧ w'.st.torn = w.st.torn ++ L ∧ w'.pcs t = .idle
  | [], w, hp => by
    refine ⟨w.goto t .idle, ?_, (List.append_nil _).symm, World.goto_self ..⟩
    show (step cfg w (t, .go 0)).bind _ = _
    simp only [step, hp, go]
    rfl
  | s :: todo, w, hp => by
    let w₁ := (w.setStores (w.st.teardown s)).goto t (.teardown todo)
    have hstep : step cfg w (t, .go 0) = some w₁ := by
      simp only [step, hp, go]
      rfl
    obtain ⟨w', hrun, htorn, hidle⟩ := teardown_closes cfg t todo w₁ (World.goto_self ..)
    refine ⟨w', ?_, ?_, hidle⟩
    · show (step cfg w (t, .go 0)).bind _ = _
      rw [hstep]
      exact hrun
    · rw [htorn]
      show (w.st.torn ++ [s]) ++ todo = w.st.torn ++ s :: todo
      rw [List.append_assoc, List.singleton_append]

/-- A pass of thread `t` takes the sessions `L` out of the pool of `e`, goes on to
close exactly those, and touches nothing else: no other session, no mark, no other
pool, no other thread. -/
structure Removes (cfg : Config) (w w' : World Proxy) (t : Tid) (e : Engine) (L : List Ref) :
    Prop where
  nodup : L.Nodup
  pooled : ∀ s ∈ L, s ∈ (w.st.pools e).values
  left : (w'.st.pools e).entries = (w.st.pools e).entries.filter fun p => decide (p.2 ∉ L)
  otherPool : ∀ e', e' ≠ e → w'.st.pools e' = w.st.pools e'
  sessions : w'.st.heap = w.st.heap
  built : w'.st.built = w.st.built
  marks : w'.claims = w.claims
  memory : w'.st.memory = w.st.memory
  others : ∀ t', t' ≠ t → w'.pcs t' = w.pcs t'
  closes : ∃ w'', exec (step cfg) (fun _ _ => true) w' (goes t (L.length + 1)) = some w'' ∧
    w''.st.torn = w.st.torn ++ L ∧ w''.pcs t = .idle

/-- A pass pops what it picked, if that is idle. -/
theorem Removes.of_idle {cfg : Config} {w : World Proxy} {t : Tid} {e : Engine} {L : List Ref}
    {op : Remover} {st' : Stores Proxy} (hk : w.st.Keyed)
    (h : w.st.Idle e L ∧ st' = w.st.pop e (L.map fun s => (w.st.heap s).sessionId) op) :
    Removes cfg w ((w.setStores st').goto t (.teardown L)) t e L := by
  obtain ⟨hidle, rfl⟩ := h
  refine ⟨hidle.nodup, ?_, Stores.entries_pop_idle hk hidle op, ?_, rfl, rfl, rfl, rfl, ?_, ?_⟩
  · intro s hs
    exact List.mem_map.mpr ⟨_, Dict.mem_entries.mpr (hidle.pooled s hs), rfl⟩
  · intro e' he'
    exact Function.update_of_ne he' ..
  · intro t' ht'
    exact World.goto_other _ _ ht'
  · exact teardown_closes cfg t L _ (World.goto_self ..)

/-- A pooled session has been touched: at least when it was created. -/
theorem Recorded.pooled {w : World Proxy} {log : List Touch} (h : Recorded w log) (hw : WF w)
    {e : Engine} {s : Ref} (hs : s ∈ (w.st.pools e).values) :
    lastTouch log s = some (w.st.heap s).lastUsed :=
  h.last s (hw.keyed e _ s (hw.keyed.find?_of_mem hs)).1

/-- What the reaper picks, said by the log. -/
theorem Recorded.mem_reapIdle {w : World Proxy} {log : List Touch} (h : Recorded w log)
    (hw : WF w) {e : Engine} {ttl began : Int} {s : Ref} :
    s ∈ (w.st.reapIdle e ttl began).1 ↔ s ∈ (w.st.pools e).values ∧ Unheld log s ∧
      ∃ at_, lastTouch log s = some at_ ∧ ttl < began - at_ := by
  rw [Stores.reapIdle_fst, List.mem_filter, Bool.and_eq_true, beq_iff_eq, decide_eq_true_iff,
    h.inUse_eq_zero]
  constructor
  · intro hmem
    obtain ⟨hs, hidle, hunheld⟩ := hmem
    exact ⟨hs, hunheld, _, h.pooled hw hs, hidle⟩
  · intro hmem
    obtain ⟨hs, hunheld, at_, hat, hidle⟩ := hmem
    obtain rfl := Option.some.inj (hat.symm.trans (h.pooled hw hs))
    exact ⟨hs, hidle, hunheld⟩

/-- Nothing before the last entry about a session counts. -/
theorem lastTouch_append {later earlier : List Touch} {x : Touch} {at_ : Int}
    (hlater : ∀ y ∈ later, y.session = x.session → x.at_ ≤ y.at_)
    (hat : lastTouch (later ++ x :: earlier) x.session = some at_) : x.at_ ≤ at_ := by
  induction later with
  | nil =>
    rw [List.nil_append, lastTouch_cons, if_pos rfl] at hat
    exact Int.le_of_eq (Option.some.inj hat)
  | cons y later ih =>
    rw [List.cons_append, lastTouch_cons] at hat
    split at hat
    next hy =>
      rw [← Option.some.inj hat]
      exact hlater y (List.mem_cons_self ..) hy
    next => exact ih (fun z hz => hlater z (List.mem_cons_of_mem _ hz)) hat

/-- The sessions of a pool all of whose claims have been released. -/
def unheld (w : World Proxy) (log : List Touch) (e : Engine) : List Ref :=
  (w.st.pools e).values.filter fun s => decide (Unheld log s)

theorem Recorded.unused_eq {w : World Proxy} {log : List Touch} (h : Recorded w log)
    (e : Engine) : w.st.unused e = unheld w log e := by
  refine List.filter_congr fun s _ => Bool.eq_iff_iff.mpr ?_
  rw [beq_iff_eq, decide_eq_true_iff]
  exact h.inUse_eq_zero s

/-- What the cap picks, said by the log: the oldest of those that are not held. -/
theorem Recorded.enforceCap_fst {w : World Proxy} {log : List Touch} (h : Recorded w log)
    {e : Engine} {n : Int} (hn : n < ((w.st.pools e).size : Int)) :
    (w.st.enforceCap e n).1 = Lib.oldest (fun s => (w.st.heap s).lastUsed)
      (((w.st.pools e).size : Int) - n).toNat (unheld w log e) := by
  rw [← h.unused_eq]
  exact Stores.enforceCap_fst hn

/-- No session the cap picks was touched after one that it could have picked and did not. -/
theorem Recorded.cap_picks_older {w : World Proxy} {log : List Touch} (h : Recorded w log)
    (hw : WF w) {e : Engine} {n : Int} (hn : n < ((w.st.pools e).size : Int)) {s r : Ref}
    (hs : s ∈ (w.st.enforceCap e n).1) (hr : r ∈ unheld w log e)
    (hleft : r ∉ (w.st.enforceCap e n).1) :
    ∃ a b, lastTouch log s = some a ∧ lastTouch log r = some b ∧ a ≤ b := by
  rw [h.enforceCap_fst hn] at hs hleft
  have hpooled : ∀ r ∈ unheld w log e, lastTouch log r = some (w.st.heap r).lastUsed :=
    fun r hr => h.pooled hw (List.mem_filter.mp hr).1
  refine ⟨_, _, hpooled s (Lib.mem_of_oldest hs), hpooled r hr, ?_⟩
  have hle := Lib.key_le_of_oldest hs hr hleft
  exact hle

/-- **A pass removes exactly what it should.** The reaper's removes the pooled
sessions whose claims have all been released and whose last creation, claim or
release is more than `ttl` before it began, and so none that was touched within
`ttl`. The cap's removes as many as there are too many or as are not held, and none
that was used later than one it leaves. -/
theorem passes_remove_exactly {cfg : Config} {w : World Proxy} {log : List Touch}
    (h : Run (recorded cfg) Any (World.init, []) (w, log)) (t : Tid) (now : Int) :
    (∀ e ttl began, w.pcs t = .reap e ttl began → ∃ w' L,
      step cfg w (t, .go now) = some w' ∧ Removes cfg w w' t e L ∧
      (∀ s, s ∈ L ↔ s ∈ (w.st.pools e).values ∧ Unheld log s ∧
        ∃ at_, lastTouch log s = some at_ ∧ ttl < began - at_) ∧
      (∀ later x earlier, log = later ++ x :: earlier →
        (∀ y ∈ later, y.session = x.session → x.at_ ≤ y.at_) → began - x.at_ ≤ ttl →
        x.session ∉ L)) ∧
    (∀ e n, w.pcs t = .cap e n → n < ((w.st.pools e).size : Int) → ∃ w' L,
      step cfg w (t, .go now) = some w' ∧ Removes cfg w w' t e L ∧
      (L.length : Int) = min ((unheld w log e).length : Int) ((w.st.pools e).size - n) ∧
      (∀ s ∈ L, Unheld log s) ∧
      (∀ s ∈ L, ∀ r ∈ unheld w' log e, ∃ a b, lastTouch log s = some a ∧
        lastTouch log r = some b ∧ a ≤ b) ∧
      ((w'.st.pools e).size : Int) = max n ((w.st.pools e).size - (unheld w log e).length)) := by
  obtain ⟨hw, hr⟩ := run_recorded h
  refine ⟨?_, ?_⟩
  · intro e ttl began hp
    have hmem : ∀ s, s ∈ (w.st.reapIdle e ttl began).1 ↔ _ := fun s => hr.mem_reapIdle hw
    refine ⟨_, (w.st.reapIdle e ttl began).1, by simp only [step, hp, go],
      .of_idle hw.keyed (Stores.reapIdle_spec hw.keyed e ttl began), hmem, ?_⟩
    intro later x earlier hlog hlater hwithin hx
    subst hlog
    obtain ⟨-, -, at_, hat, hidle⟩ := (hmem x.session).mp hx
    have hle := lastTouch_append hlater hat
    omega
  · intro e n hp hn
    let L := (w.st.enforceCap e n).1
    have hspec := Stores.enforceCap_spec hw.keyed e n
    have hlen : (L.length : Int)
        = min ((unheld w log e).length : Int) ((w.st.pools e).size - n) := by
      have hpick : L = _ := hr.enforceCap_fst hn
      rw [hpick, Lib.oldest_length]
      omega
    have hsize := Stores.size_pop_idle hw.keyed hspec.1 .cap
    have hunheld : (unheld w log e).length ≤ (w.st.pools e).size := by
      have hvalues : (w.st.pools e).values.length = (w.st.pools e).size := List.length_map ..
      rw [← hvalues]
      exact List.length_filter_le ..
    have hremoves : Removes cfg w ((w.setStores (w.st.enforceCap e n).2).goto t (.teardown L)) t
      e L := .of_idle hw.keyed hspec
    refine ⟨_, L, by simp only [step, hp, go]; rfl, hremoves, hlen, ?_, ?_, ?_⟩
    · exact fun s hs => (hr.inUse_eq_zero s).mp (hspec.1.unused s hs)
    · intro s hs r hr'
      -- what is in the pool after the pass was in it before, and was not picked
      obtain ⟨hmem, hrunheld⟩ := List.mem_filter.mp hr'
      obtain ⟨p, hp', rfl⟩ := List.mem_map.mp hmem
      rw [hremoves.left, List.mem_filter, decide_eq_true_iff] at hp'
      have hpool : p.2 ∈ (w.st.pools e).values := List.mem_map.mpr ⟨p, hp'.1, rfl⟩
      exact hr.cap_picks_older hw hn hs (List.mem_filter.mpr ⟨hpool, hrunheld⟩) hp'.2
    · have hsize' : (((w.setStores (w.st.enforceCap e n).2).goto t (.teardown L)).st.pools e).size
          + L.length = (w.st.pools e).size := by
        rw [World.goto_st, World.setStores_st, hspec.2]
        exact hsize
      omega

/-- Three sessions, one of them held: the reaper takes the one that is idle too long,
the cap the older of the two that are not held. -/
theorem passes_remove_the_idle : ∃ w : World String,
    (w.pcs 4 = .reap .chrome 10 55 ∧ ∃ w' L, step .unset w (4, .go 60) = some w' ∧
      Removes .unset w w' 4 .chrome L ∧ 0 ∈ L ∧ 1 ∉ L ∧ 2 ∉ L) ∧
    (w.pcs 5 = .cap .chrome 2 ∧ ∃ w' L, step .unset w (5, .go 60) = some w' ∧
      Removes .unset w w' 5 .chrome L ∧ L.length = 1) := by
  let opens (t : Tid) (sid : String) (claim : Bool) (now : Int) : List (Tid × Act String) :=
    (t, .start (.create .chrome (some sid) "" none claim)) :: List.replicate 4 (t, .go now)
  obtain ⟨⟨w, log⟩, hrun, ⟨hreap, hcap, hsize, hunheld⟩, hpool, hfirst, hsecond, hthird⟩ :
      ∃ r : World String × List Touch, Run (recorded .unset) Any (World.init, []) r ∧
      (r.1.pcs 4 = .reap .chrome 10 55 ∧ r.1.pcs 5 = .cap .chrome 2 ∧
        (r.1.st.pools .chrome).size = 3 ∧ (unheld r.1 r.2 .chrome).length = 2) ∧
      0 ∈ (r.1.st.pools .chrome).values ∧
      (Unheld r.2 0 ∧ lastTouch r.2 0 = some 0) ∧ lastTouch r.2 1 = some 50 ∧ ¬ Unheld r.2 2 :=
    Run.of_exec_any
      (opens 1 "a" false 0 ++ opens 2 "b" false 50 ++ opens 3 "c" true 0 ++
        [(4, .start (.reapIdle .chrome (some 10) 55)), (5, .start (.enforceCap .chrome (some 2)))])
      (by decide +kernel)
  refine ⟨w, ⟨hreap, ?_⟩, hcap, ?_⟩
  · obtain ⟨w', L, hstep, hremoves, hmem, -⟩ :=
      (passes_remove_exactly hrun 4 60).1 .chrome 10 55 hreap
    refine ⟨w', L, hstep, hremoves, ?_, ?_, ?_⟩
    · exact (hmem 0).mpr ⟨hpool, hfirst.1, 0, hfirst.2, by decide⟩
    · intro h
      obtain ⟨-, -, at_, hat, hidle⟩ := (hmem 1).mp h
      rw [← Option.some.inj (hsecond.symm.trans hat)] at hidle
      exact absurd hidle (by decide)
    · exact fun h => hthird ((hmem 2).mp h).2.1
  · obtain ⟨w', L, hstep, hremoves, hlen, -⟩ :=
      (passes_remove_exactly hrun 5 60).2 .chrome 2 hcap (by rw [hsize]; decide)
    refine ⟨w', L, hstep, hremoves, ?_⟩
    rw [hsize, hunheld] at hlen
    exact Int.ofNat.inj hlen

end Solverr.Sessions
