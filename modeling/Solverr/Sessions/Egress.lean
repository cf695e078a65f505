import Solverr.Lib.Recency
import Solverr.Sessions.Sequential

/-!
# A session's egress belongs to its id

`Tracker` says what an observer expects of every id: its creation proxy, from
the latest fresh `sessions.create` or the first `get` that found it unknown since
its last `destroy`; the other ids remembered or recalled since the id itself was;
and whether there ever were `_PROXY_MEMORY` of them. It is kept from the logs of
the commands alone.

`Egress` ties it to the stores: while an id has not lapsed, the proxy memory has
its creation proxy, with no more ids after it than were used since, and every
pooled session of the id carries that proxy. Each section keeps it, so every
browser `get` builds is built on what it recalls, which is the creation proxy.

Having lapsed is not having been away for long: an id the memory has let go of
is remembered anew by the next `get` that builds for it, on that request's own
proxy, while a session it had before may still be pooled (`evicted_id_splits`).
-/

namespace Solverr.Sessions

open Solverr.Lib (Dict Run Any exec)
open Solverr.Lib.Dict (Recent Stale)

variable {Proxy : Type}

/-! ## What an observer expects -/

/-- What is expected of every id, from the logs. -/
structure Tracker (Proxy : Type) where
  origin : String → Option (Option Proxy)
  since : String → Finset String
  lapsed : String → Bool

namespace Tracker

def init : Tracker Proxy := ⟨fun _ => none, fun _ => ∅, fun _ => false⟩

/-- `sid` is remembered or recalled. -/
def touch (tr : Tracker Proxy) (sid : String) : Tracker Proxy :=
  { tr with
    since := fun i => if i = sid then ∅ else insert sid (tr.since i)
    lapsed := fun i => tr.lapsed i ||
      decide (i ≠ sid ∧ proxyMemory ≤ (insert sid (tr.since i)).card) }

/-- `sid` is created on `proxy`. -/
def create (tr : Tracker Proxy) (sid : String) (proxy : Option Proxy) : Tracker Proxy :=
  { tr with
    origin := Function.update tr.origin sid (some proxy)
    lapsed := Function.update tr.lapsed sid false }

/-- One event of a log; `command` if it is a `sessions.create`'s. A `get` that
remembers creates only an id that has no creation proxy. -/
def follow (command : Bool) (tr : Tracker Proxy) : Event Proxy → Tracker Proxy
  | .built _ _ => tr
  | .recalled sid found => if found then tr.touch sid else tr
  | .remembered sid proxy =>
    (if command || (tr.origin sid).isNone then tr.create sid proxy else tr).touch sid
  | .forgotten sid => { tr with origin := Function.update tr.origin sid none }

def followAll (command : Bool) (tr : Tracker Proxy) (log : List (Event Proxy)) : Tracker Proxy :=
  log.foldl (follow command) tr

/-- The creation proxy of an id that has not lapsed. -/
def expects (tr : Tracker Proxy) (sid : String) (proxy : Option Proxy) : Prop :=
  tr.origin sid = some proxy ∧ tr.lapsed sid = false

theorem followAll_append (command : Bool) (tr : Tracker Proxy) (log log' : List (Event Proxy)) :
    tr.followAll command (log ++ log') = (tr.followAll command log).followAll command log' :=
  List.foldl_append ..

@[simp] theorem touch_origin (tr : Tracker Proxy) (sid : String) :
    (tr.touch sid).origin = tr.origin := rfl

@[simp] theorem create_origin_self (tr : Tracker Proxy) (sid : String) (proxy : Option Proxy) :
    (tr.create sid proxy).origin sid = some proxy :=
  Function.update_self ..

/-- Creating one id leaves the others. -/
theorem create_other (tr : Tracker Proxy) {sid i : String} (proxy : Option Proxy) (h : i ≠ sid) :
    (tr.create sid proxy).origin i = tr.origin i ∧
    (tr.create sid proxy).lapsed i = tr.lapsed i :=
  ⟨Function.update_of_ne h .., Function.update_of_ne h ..⟩

/-- So does filing it, whether it is created or not. -/
theorem filing_other (tr : Tracker Proxy) {sid i : String} (proxy : Option Proxy) (h : i ≠ sid)
    (creates : Bool) :
    (if creates then tr.create sid proxy else tr).origin i = tr.origin i ∧
    (if creates then tr.create sid proxy else tr).lapsed i = tr.lapsed i ∧
    (if creates then tr.create sid proxy else tr).since = tr.since := by
  cases creates with
  | true => exact ⟨(tr.create_other proxy h).1, (tr.create_other proxy h).2, rfl⟩
  | false => exact ⟨rfl, rfl, rfl⟩

/-- Using an id does not lapse it. -/
@[simp] theorem touch_lapsed_self (tr : Tracker Proxy) (sid : String) :
    (tr.touch sid).lapsed sid = tr.lapsed sid := by
  simp [touch]

@[simp] theorem touch_since_self (tr : Tracker Proxy) (sid : String) :
    (tr.touch sid).since sid = ∅ :=
  if_pos rfl

theorem touch_since_other (tr : Tracker Proxy) {sid i : String} (h : i ≠ sid) :
    (tr.touch sid).since i = insert sid (tr.since i) :=
  if_neg h

/-- An id that using another leaves unlapsed has room for it. -/
theorem touch_lapsed_other {tr : Tracker Proxy} {sid i : String} (h : i ≠ sid)
    (hl : (tr.touch sid).lapsed i = false) :
    tr.lapsed i = false ∧ (insert sid (tr.since i)).card < proxyMemory := by
  simpa [touch, h] using hl

end Tracker

/-- The stores and what is expected of them. -/
structure Watched (Proxy : Type) where
  st : Stores Proxy
  tr : Tracker Proxy

def Watched.init : Watched Proxy := ⟨.init, .init⟩

/-- The command is a `sessions.create`. -/
def Command.creates : Command Proxy → Bool
  | .sessionsCreate .. => true
  | _ => false

/-- One command, watched. -/
def Watched.step (cfg : Config) (s : Watched Proxy) (c : Command Proxy) : Option (Watched Proxy) :=
  (perform cfg s.st c).map fun d => ⟨d.st, s.tr.followAll c.creates d.log⟩

/-! ## The invariant -/

/-- The stores meet what is expected of them. -/
structure Egress (cfg : Config) (st : Stores Proxy) (tr : Tracker Proxy) : Prop where
  keyed : st.Keyed
  loaded : ∀ e, e ∉ availableEngines cfg → ∀ i, (st.pools e).find? i = none
  unknown : ∀ i, tr.origin i = none → (∀ e, (st.pools e).find? i = none) ∧
    st.memory.find? i = none
  known : ∀ i p, tr.expects i p → Recent st.memory i p (tr.since i) ∧
    (tr.since i).card < proxyMemory
  pooled : ∀ i p, tr.expects i p → ∀ e r, (st.pools e).find? i = some r →
    (st.heap r).proxy = p

theorem egress_init (cfg : Config) : Egress cfg (Stores.init : Stores Proxy) .init :=
  ⟨nofun, fun _ _ _ => rfl, fun _ _ => ⟨fun _ => rfl, rfl⟩, nofun, nofun⟩

namespace Egress

variable {cfg : Config} {st st' : Stores Proxy} {tr : Tracker Proxy}

/-- A step that keeps sessions, adds none to a pool and leaves the memory alone. -/
theorem shrink (h : Egress cfg st tr) (hk : Keeps st st')
    (hsub : ∀ e i r, (st'.pools e).find? i = some r → (st.pools e).find? i = some r)
    (hmem : st'.memory = st.memory) : Egress cfg st' tr := by
  have hnone : ∀ e i, (st.pools e).find? i = none → (st'.pools e).find? i = none := by
    intro e i hi
    refine Option.eq_none_iff_forall_ne_some.mpr fun r hr => ?_
    rw [hsub e i r hr] at hi
    cases hi
  refine ⟨hk.keyed h.keyed hsub, ?_, ?_, ?_, ?_⟩
  · exact fun e he i => hnone e i (h.loaded e he i)
  · intro i hi
    rw [hmem]
    exact ⟨fun e => hnone e i ((h.unknown i hi).1 e), (h.unknown i hi).2⟩
  · intro i p hp
    rw [hmem]
    exact h.known i p hp
  · intro i p hp e r hr
    have hold := hsub e i r hr
    rw [hk.proxy r (h.keyed e i r hold).1]
    exact h.pooled i p hp e r hold

/-- Recalling keeps what is expected. -/
theorem recalled (h : Egress cfg st tr) (command : Bool) (sid : String) :
    Egress cfg { st with memory := (recallProxy st.memory sid).2 }
      (tr.follow command (.recalled sid (recallProxy st.memory sid).1.isSome)) := by
  cases hfind : st.memory.find? sid with
  | none =>
    have hmiss : recallProxy st.memory sid = (none, st.memory) := by
      unfold recallProxy
      rw [hfind]
    rw [hmiss]
    exact h
  | some q =>
    have hhit : recallProxy st.memory sid = (some q, st.memory.push sid q) := by
      unfold recallProxy
      rw [hfind]
    rw [hhit]
    show Egress cfg { st with memory := st.memory.push sid q } (tr.touch sid)
    have hexp : ∀ i p, (tr.touch sid).expects i p → tr.expects i p := by
      intro i p hp
      by_cases hi : i = sid
      · subst hi
        exact ⟨hp.1, (tr.touch_lapsed_self i) ▸ hp.2⟩
      · exact ⟨hp.1, (Tracker.touch_lapsed_other hi hp.2).1⟩
    refine ⟨h.keyed, h.loaded, ?_, ?_, ?_⟩
    · intro i hi
      refine ⟨(h.unknown i hi).1, ?_⟩
      rw [Dict.find?_push, if_neg]
      · exact (h.unknown i hi).2
      · rintro rfl
        rw [(h.unknown i hi).2] at hfind
        cases hfind
    · intro i p hp
      have hold := (h.known i p (hexp i p hp)).1
      by_cases hi : i = sid
      · subst hi
        obtain rfl := Option.some.inj (hfind.symm.trans hold.find?)
        rw [Tracker.touch_since_self]
        exact ⟨.push_self .., by decide⟩
      · rw [Tracker.touch_since_other _ hi]
        exact ⟨hold.push_other (Ne.symm hi), (Tracker.touch_lapsed_other hi hp.2).2⟩
    · exact fun i p hp => h.pooled i p (hexp i p hp)

end Egress

/-! ## Creating -/

/-- `S` is `st` with a new session of `sid` on `proxy` filed in `e`'s pool. -/
structure Filed (st S : Stores Proxy) (e : Engine) (sid : String) (proxy : Option Proxy) :
    Prop where
  keeps : Keeps st S
  new : BuiltFor S ⟨e, sid, proxy⟩ st.built
  pools : ∀ e' i, (S.pools e').find? i
    = if e' = e ∧ i = sid then some st.built else (st.pools e').find? i
  memory : S.memory = rememberProxy st.memory sid proxy

theorem Stores.keeps_claimWhen (st : Stores Proxy) (claim : Bool) (s : Ref) (now : Int) :
    Keeps st (st.claimWhen claim s now) := by
  cases claim
  · exact .refl st
  · exact st.keeps_claim s now

theorem Stores.claimWhen_pools (st : Stores Proxy) (claim : Bool) (s : Ref) (now : Int) :
    (st.claimWhen claim s now).pools = st.pools := by
  cases claim <;> rfl

theorem Stores.claimWhen_memory (st : Stores Proxy) (claim : Bool) (s : Ref) (now : Int) :
    (st.claimWhen claim s now).memory = st.memory := by
  cases claim <;> rfl

/-- What `create` does: it finds the session, or files a new one, or raises. -/
inductive Created (st : Stores Proxy) (e : Engine) (sid : String) (proxy : Option Proxy) :
    Done Proxy (Option (Ref × Bool)) → Prop
  | found {s : Ref} {st' : Stores Proxy} : (st.pools e).find? sid = some s → Keeps st st' →
      st'.pools = st.pools → st'.memory = st.memory →
      Created st e sid proxy ⟨st', [], some (s, false)⟩
  | filed {S : Stores Proxy} : (st.pools e).find? sid = none → Filed st S e sid proxy →
      Created st e sid proxy
        ⟨S, [.built sid proxy, .remembered sid proxy], some (st.built, true)⟩
  | raised : Created st e sid proxy ⟨st, [], none⟩

theorem create_spec (st : Stores Proxy) (e : Engine) (sid : String) (proxy : Option Proxy)
    (claim : Bool) (o : Launch) : Created st e sid proxy (st.create e sid proxy claim o) := by
  unfold Stores.create
  split
  next existing hfind =>
    exact .found hfind (st.keeps_claimWhen ..) (st.claimWhen_pools ..) (st.claimWhen_memory ..)
  next hfree =>
    split
    next =>
      let b := st.build sid proxy o.builtAt
      let f := b.insert e sid st.built
      have hbf : Keeps b f := .of_heap rfl (fun _ => rfl) fun _ => rfl
      have hf : Keeps f (f.claimWhen claim st.built o.claimedAt) := f.keeps_claimWhen ..
      have hS : ∀ S : Stores Proxy,
          Keeps S { S with memory := rememberProxy S.memory sid proxy } :=
        fun S => .of_heap rfl (fun _ => rfl) fun _ => rfl
      refine .filed hfree ⟨?_, ?_, ?_, ?_⟩
      · exact (st.keeps_build sid proxy o.builtAt).trans (hbf.trans (hf.trans (hS _)))
      · exact (hbf.trans (hf.trans (hS _))).builtFor (st.builtFor_build ⟨e, sid, proxy⟩ o.builtAt)
      · intro e' i
        show ((f.claimWhen claim st.built o.claimedAt).pools e').find? i = _
        rw [f.claimWhen_pools, Stores.find?_insert]
        rfl
      · show rememberProxy (f.claimWhen claim st.built o.claimedAt).memory sid proxy = _
        rw [f.claimWhen_memory]
        rfl
    next => exact .raised

namespace Egress

variable {cfg : Config} {st st' S : Stores Proxy} {tr : Tracker Proxy} {e : Engine}
  {sid : String} {proxy : Option Proxy}

/-- A fresh `sessions.create` is of an id in no pool, and a `get` that builds for an
id that has not lapsed builds on its creation proxy. -/
def Rightly (command : Bool) (st : Stores Proxy) (tr : Tracker Proxy) (sid : String)
    (proxy : Option Proxy) : Prop :=
  if command then ∀ e, (st.pools e).find? sid = none else ∀ p, tr.expects sid p → proxy = p

/-- After filing, the id is expected on the new proxy only, and so are its other
pooled sessions. -/
theorem filed_expects (h : Egress cfg st tr) {command : Bool}
    (hr : Rightly command st tr sid proxy) {p : Option Proxy}
    (hp : (tr.follow command (.remembered sid proxy)).expects sid p) :
    p = proxy ∧ ∀ e' r, (st.pools e').find? sid = some r → (st.heap r).proxy = proxy := by
  have hnone : (∀ e', (st.pools e').find? sid = none) → ∀ e' r,
      (st.pools e').find? sid = some r → (st.heap r).proxy = proxy := by
    intro hall e' r hr'
    rw [hall e'] at hr'
    cases hr'
  obtain ⟨ho, hl⟩ := hp
  unfold Tracker.follow at ho hl
  rw [Tracker.touch_lapsed_self] at hl
  rw [Tracker.touch_origin] at ho
  by_cases hc : (command || (tr.origin sid).isNone) = true
  · rw [if_pos hc, Tracker.create_origin_self] at ho
    refine ⟨(Option.some.inj ho).symm, hnone ?_⟩
    cases command with
    | true => exact hr
    | false => exact (h.unknown sid (by simpa using hc)).1
  · rw [if_neg hc] at ho hl
    cases command with
    | true => exact absurd rfl hc
    | false =>
      -- a `get` that builds: the id keeps the creation proxy it had
      have hpp : proxy = p := hr p ⟨ho, hl⟩
      exact ⟨hpp.symm, fun e' r hr' => (h.pooled sid p ⟨ho, hl⟩ e' r hr').trans hpp.symm⟩

/-- Filing leaves what is expected of other ids, if they do not lapse by it. -/
theorem filed_expects_other {command : Bool} {i : String} (hi : i ≠ sid) {p : Option Proxy}
    (hp : (tr.follow command (.remembered sid proxy)).expects i p) :
    tr.expects i p ∧ (insert sid (tr.since i)).card < proxyMemory ∧
      (tr.follow command (.remembered sid proxy)).since i = insert sid (tr.since i) := by
  obtain ⟨ho, hl⟩ := hp
  unfold Tracker.follow at ho hl ⊢
  obtain ⟨h₁, h₂, h₃⟩ := tr.filing_other proxy hi (command || (tr.origin sid).isNone)
  obtain ⟨hlapsed, hcard⟩ := Tracker.touch_lapsed_other hi hl
  rw [Tracker.touch_origin, h₁] at ho
  rw [h₃] at hcard
  refine ⟨⟨ho, h₂ ▸ hlapsed⟩, hcard, ?_⟩
  rw [Tracker.touch_since_other _ hi, h₃]

/-- An id that filing leaves unknown is another one, and was unknown. -/
theorem filed_unknown {command : Bool} {i : String}
    (ho : (tr.follow command (.remembered sid proxy)).origin i = none) :
    i ≠ sid ∧ tr.origin i = none := by
  unfold Tracker.follow at ho
  rw [Tracker.touch_origin] at ho
  have hi : i ≠ sid := by
    rintro rfl
    split at ho
    next =>
      rw [Tracker.create_origin_self] at ho
      cases ho
    next hc => simp [ho] at hc
  exact ⟨hi, (tr.filing_other proxy hi _).1.symm.trans ho⟩

/-- **Filing a session keeps what is expected.** -/
theorem filed (h : Egress cfg st tr) (he : e ∈ availableEngines cfg)
    (hS : Filed st S e sid proxy) {command : Bool} (hr : Rightly command st tr sid proxy) :
    Egress cfg S (tr.follow command (.remembered sid proxy)) := by
  have hother : ∀ e' i, i ≠ sid → (S.pools e').find? i = (st.pools e').find? i := by
    intro e' i hi
    rw [hS.pools, if_neg fun hc => hi hc.2]
  refine ⟨?_, ?_, ?_, ?_, ?_⟩
  · intro e' i r hr'
    rw [hS.pools] at hr'
    split at hr'
    next hc =>
      obtain rfl := Option.some.inj hr'
      exact ⟨hS.new.1, hS.new.2.1.trans hc.2.symm⟩
    next =>
      obtain ⟨hlt, hid⟩ := h.keyed e' i r hr'
      exact ⟨Nat.lt_of_lt_of_le hlt hS.keeps.built, (hS.keeps.sessionId r hlt).trans hid⟩
  · intro e' he' i
    rw [hS.pools, if_neg]
    · exact h.loaded e' he' i
    · rintro ⟨rfl, -⟩
      exact he' he
  · intro i ho
    obtain ⟨hi, hold⟩ := filed_unknown ho
    obtain ⟨hpools, hmem⟩ := h.unknown i hold
    refine ⟨fun e' => (hother e' i hi).trans (hpools e'), ?_⟩
    rw [hS.memory]
    refine Option.eq_none_iff_forall_ne_some.mpr fun p hp => ?_
    rcases find?_rememberProxy hp with ⟨heq, -⟩ | ⟨-, hold⟩
    · exact hi heq
    · rw [hmem] at hold
      cases hold
  · intro i p hp
    rw [hS.memory]
    by_cases hi : i = sid
    · subst hi
      obtain ⟨rfl, -⟩ := h.filed_expects hr hp
      have hsince : (tr.follow command (.remembered i p)).since i = ∅ := if_pos rfl
      rw [hsince]
      exact ⟨(Recent.push_self ..).trim (by decide), by decide⟩
    · obtain ⟨hold, hcard, hsince⟩ := filed_expects_other hi hp
      rw [hsince]
      exact ⟨((h.known i p hold).1.push_other (Ne.symm hi)).trim hcard, hcard⟩
  · intro i p hp e' r hr'
    by_cases hi : i = sid
    · subst hi
      obtain ⟨rfl, hall⟩ := h.filed_expects hr hp
      rw [hS.pools] at hr'
      split at hr'
      next =>
        obtain rfl := Option.some.inj hr'
        exact hS.new.2.2
      next =>
        rw [hS.keeps.proxy r (h.keyed e' i r hr').1]
        exact hall e' r hr'
    · rw [hother e' i hi] at hr'
      rw [hS.keeps.proxy r (h.keyed e' i r hr').1]
      exact h.pooled i p (filed_expects_other hi hp).1 e' r hr'

/-- Every browser the log has was built on what is expected at its end. -/
def BuiltRightly (tr : Tracker Proxy) (sid : String) (log : List (Event Proxy)) : Prop :=
  ∀ p q, tr.expects sid p → .built sid q ∈ log → q = p

/-- **`create` keeps what is expected**, and builds on it. -/
theorem created (h : Egress cfg st tr) (he : e ∈ availableEngines cfg) {command : Bool}
    {d : Done Proxy (Option (Ref × Bool))} (hd : Created st e sid proxy d)
    (hr : (st.pools e).find? sid = none → Rightly command st tr sid proxy) :
    Egress cfg d.st (tr.followAll command d.log) ∧
      BuiltRightly (tr.followAll command d.log) sid d.log := by
  cases hd with
  | found hfind hk hpools hmem =>
    refine ⟨h.shrink hk (fun e i r hr' => ?_) hmem, fun _ _ _ hb => nomatch hb⟩
    rw [hpools] at hr'
    exact hr'
  | filed hfree hS =>
    refine ⟨h.filed he hS (hr hfree), ?_⟩
    intro p q hp hb
    have hq : q = proxy := by simpa using hb
    rw [hq]
    exact (h.filed_expects (hr hfree) hp).1.symm
  | raised => exact ⟨h, fun _ _ _ hb => nomatch hb⟩

/-! ## Getting -/

/-- A session that is not fresh was found, and nothing was built. -/
theorem acquire_found {s : Ref} {o : Launch}
    (hv : (st.acquire e sid proxy o).val = some (s, false)) :
    ((st.acquire e sid proxy o).st.pools e).find? sid = some s ∧
      ∀ i q, .built i q ∉ (st.acquire e sid proxy o).log := by
  have hfound : ∀ (st : Stores Proxy) q d, Created st e sid q d → d.val = some (s, false) →
      (d.st.pools e).find? sid = some s ∧ d.log = [] := by
    intro st q d hd hv
    cases hd with
    | found hfind hk hpools =>
      obtain ⟨rfl, -⟩ := Prod.mk.inj (Option.some.inj hv)
      exact ⟨by rw [hpools, hfind], rfl⟩
    | filed => cases hv
    | raised => cases hv
  obtain ⟨hfind, hlog⟩ := hfound _ _ _ (create_spec ..) hv
  refine ⟨hfind, fun i q hb => ?_⟩
  rcases List.mem_cons.mp hb with hb | hb
  · cases hb
  · rw [hlog] at hb
    cases hb

/-- Only a session that was there before expires. -/
theorem fresh_of_expired {s : Ref} {fresh : Bool} {ttl : Option Int} {now : Int}
    (hexp : st.expired s fresh ttl now = true) : fresh = false := by
  unfold Stores.expired at hexp
  split at hexp
  · cases hexp
  · simp only [Bool.and_eq_true, Bool.not_eq_true'] at hexp
    exact hexp.1.1

/-- `get` up to its expiry check. -/
theorem acquire (h : Egress cfg st tr) (he : e ∈ availableEngines cfg)
    (sid : String) (proxy : Option Proxy) (o : Launch) :
    Egress cfg (st.acquire e sid proxy o).st
        (tr.followAll false (st.acquire e sid proxy o).log) ∧
      BuiltRightly (tr.followAll false (st.acquire e sid proxy o).log) sid
        (st.acquire e sid proxy o).log := by
  have h₁ := h.recalled false sid
  let known := (recallProxy st.memory sid).1.getD proxy
  -- while the id has not lapsed the memory has its creation proxy
  have hr : Rightly false { st with memory := (recallProxy st.memory sid).2 }
      (tr.follow false (.recalled sid (recallProxy st.memory sid).1.isSome)) sid known := by
    intro p hp
    have hfind := (h₁.known sid p hp).1.find?
    rw [find?_recallProxy] at hfind
    show (recallProxy st.memory sid).1.getD proxy = p
    rw [recallProxy_fst, hfind]
    rfl
  obtain ⟨hkeep, hbuilt⟩ := h₁.created he
    (create_spec _ e sid known true o) fun _ => hr
  refine ⟨hkeep, fun p q hp hb => hbuilt p q hp ?_⟩
  rcases List.mem_cons.mp hb with hb | hb
  · cases hb
  · exact hb

/-- The expiry check and the rebuild, of a session the pool has. -/
theorem renew (h : Egress cfg st tr) (he : e ∈ availableEngines cfg) {s : Ref} {fresh : Bool}
    (hs : fresh = false → (st.pools e).find? sid = some s) (ttl : Option Int) (checkedAt : Int)
    (o : Launch) :
    Egress cfg (st.renew e sid ttl s fresh checkedAt o).st
        (tr.followAll false (st.renew e sid ttl s fresh checkedAt o).log) ∧
      BuiltRightly (tr.followAll false (st.renew e sid ttl s fresh checkedAt o).log) sid
        (st.renew e sid ttl s fresh checkedAt o).log := by
  unfold Stores.renew
  split
  next hexp =>
    -- the rebuild goes out through the expired session's proxy, the creation proxy
    have hfind := hs (fresh_of_expired hexp)
    have hpop : Egress cfg ((st.pop e [sid] .expiry).teardown s) tr := by
      refine h.shrink (.of_heap rfl (fun _ => rfl) fun _ => rfl) (fun e' i r hr => ?_) rfl
      change ((st.pop e [sid] .expiry).pools e').find? i = some r at hr
      rw [Stores.find?_pop] at hr
      split at hr
      · cases hr
      · exact hr
    refine hpop.created he (create_spec ..) fun _ => ?_
    exact fun p hp => h.pooled sid p hp e s hfind
  next => exact ⟨h, fun _ _ _ hb => nomatch hb⟩

/-- **`get` keeps what is expected**, and builds on it. -/
theorem get (h : Egress cfg st tr) (he : e ∈ availableEngines cfg) (sid : String)
    (ttl : Option Int) (proxy : Option Proxy) (o : Launch) (checkedAt : Int) (o' : Launch) :
    Egress cfg (st.get e sid ttl proxy o checkedAt o').st
        (tr.followAll false (st.get e sid ttl proxy o checkedAt o').log) ∧
      BuiltRightly (tr.followAll false (st.get e sid ttl proxy o checkedAt o').log) sid
        (st.get e sid ttl proxy o checkedAt o').log := by
  obtain ⟨hacq, hbuilt⟩ := h.acquire he sid proxy o
  unfold Stores.get
  cases hval : (st.acquire e sid proxy o).val with
  | none =>
    simp only [hval]
    exact ⟨hacq, hbuilt⟩
  | some r =>
    obtain ⟨s, fresh⟩ := r
    simp only [hval, Tracker.followAll_append]
    cases fresh with
    | true =>
      have hnew : (st.acquire e sid proxy o).st.renew e sid ttl s true checkedAt o'
          = ⟨(st.acquire e sid proxy o).st, [], some (s, true)⟩ := by
        unfold Stores.renew
        rw [if_neg]
        exact fun hexp => nomatch fresh_of_expired hexp
      rw [hnew, List.append_nil]
      exact ⟨hacq, hbuilt⟩
    | false =>
      obtain ⟨hfound, hlog⟩ := acquire_found hval
      obtain ⟨hren, hbuilt'⟩ := hacq.renew he (fun _ => hfound) ttl checkedAt o'
      refine ⟨hren, fun p q hp hb => hbuilt' p q hp ?_⟩
      rcases List.mem_append.mp hb with hb | hb
      · exact absurd hb (hlog sid q)
      · exact hb

/-! ## Removing -/

/-- Taking sessions out of a pool and tearing them down. -/
theorem swept (h : Egress cfg st tr) (ids : List String) (op : Remover) (popped : List Ref) :
    Egress cfg ((st.pop e ids op).teardownAll popped) tr := by
  have hsame : ∀ (l : List Ref) (S : Stores Proxy), (S.teardownAll l).heap = S.heap ∧
      (S.teardownAll l).built = S.built ∧ (S.teardownAll l).pools = S.pools ∧
      (S.teardownAll l).memory = S.memory := by
    intro l
    induction l with
    | nil => exact fun S => ⟨rfl, rfl, rfl, rfl⟩
    | cons r l ih => exact fun S => ih (S.teardown r)
  obtain ⟨hheap, hbuilt, hpools, hmem⟩ := hsame popped (st.pop e ids op)
  refine h.shrink (.of_heap hbuilt (fun _ => ?_) fun _ => ?_) (fun e' i r hr => ?_) hmem
  · rw [hheap]
    rfl
  · rw [hheap]
    rfl
  · rw [hpools, Stores.find?_pop] at hr
    split at hr
    · cases hr
    · exact hr

/-- Removing one id. -/
theorem removed (h : Egress cfg st tr) (op : Remover) : Egress cfg (st.removeId e sid op) tr := by
  unfold Stores.removeId
  split
  next => exact h
  next s _ => exact h.swept [sid] op [s]

end Egress

/-! ## Destroying -/

/-- `st'` is `st` with `sid` forgotten and out of the pools of `es`. -/
structure Destroyed (st st' : Stores Proxy) (es : List Engine) (sid : String) : Prop where
  keeps : Keeps st st'
  pools : ∀ e i r, (st'.pools e).find? i = some r →
    (st.pools e).find? i = some r ∧ ¬(e ∈ es ∧ i = sid)
  recent : ∀ i p T, i ≠ sid → Recent st.memory i p T → Recent st'.memory i p T
  absent : ∀ i, st.memory.find? i = none → st'.memory.find? i = none
  forgotten : es ≠ [] → st'.memory.find? sid = none

theorem destroy_spec (st : Stores Proxy) (e : Engine) (sid : String) :
    Destroyed st (st.destroy e sid) [e] sid := by
  have hmem : (st.destroy e sid).memory = st.memory.erase sid := by
    unfold Stores.destroy Stores.removeId
    split <;> rfl
  refine ⟨?_, ?_, ?_, ?_, ?_⟩
  · unfold Stores.destroy Stores.removeId
    split <;> exact .of_heap rfl (fun _ => rfl) fun _ => rfl
  · intro e' i r hr
    unfold Stores.destroy Stores.removeId at hr
    split at hr
    next hnone =>
      change (st.pools e).find? sid = none at hnone
      change (st.pools e').find? i = some r at hr
      refine ⟨hr, ?_⟩
      rintro ⟨he, rfl⟩
      rw [List.mem_singleton.mp he, hnone] at hr
      cases hr
    next =>
      change (({ st with memory := _ }.pop e [sid] .destroy : Stores Proxy).pools e').find? i
        = some r at hr
      rw [Stores.find?_pop] at hr
      split at hr
      next => cases hr
      next hc =>
        refine ⟨hr, ?_⟩
        rintro ⟨he, rfl⟩
        exact hc ⟨List.mem_singleton.mp he, List.mem_singleton_self i⟩
  · intro i p T hi hrec
    rw [hmem]
    exact hrec.erase_other (Ne.symm hi)
  · intro i hi
    rw [hmem, Dict.find?_erase]
    split
    · rfl
    · exact hi
  · intro _
    rw [hmem, Dict.find?_erase, if_pos rfl]

/-- Destroying on one engine after the other. -/
theorem destroyAll_spec (sid : String) : ∀ (es : List Engine) (st : Stores Proxy),
    Destroyed st (es.foldl (fun st e => st.destroy e sid) st) es sid := by
  intro es
  induction es with
  | nil =>
    exact fun st => ⟨.refl st, fun e i r hr => ⟨hr, fun hc => nomatch hc.1⟩,
      fun _ _ _ _ h => h, fun _ h => h, fun h => absurd rfl h⟩
  | cons e es ih =>
    intro st
    have h₁ := destroy_spec st e sid
    have h₂ := ih (st.destroy e sid)
    refine ⟨h₁.keeps.trans h₂.keeps, ?_, ?_, ?_, ?_⟩
    · intro e' i r hr
      obtain ⟨hr₁, hn₂⟩ := h₂.pools e' i r hr
      obtain ⟨hr₀, hn₁⟩ := h₁.pools e' i r hr₁
      refine ⟨hr₀, ?_⟩
      rintro ⟨he, hi⟩
      rcases List.mem_cons.mp he with he | he
      · exact hn₁ ⟨List.mem_singleton.mpr he, hi⟩
      · exact hn₂ ⟨he, hi⟩
    · exact fun i p T hi hrec => h₂.recent i p T hi (h₁.recent i p T hi hrec)
    · exact fun i hi => h₂.absent i (h₁.absent i hi)
    · exact fun _ => h₂.absent sid (h₁.forgotten (List.cons_ne_nil e []))

/-- Forgetting twice is forgetting once. -/
theorem Tracker.followAll_forgotten (command : Bool) (tr : Tracker Proxy) (sid : String) :
    ∀ es : List Engine, es ≠ [] → tr.followAll command (es.map fun _ => .forgotten sid)
      = { tr with origin := Function.update tr.origin sid none } := by
  have again : ∀ (es : List Engine) (tr : Tracker Proxy),
      tr = { tr with origin := Function.update tr.origin sid none } →
      tr.followAll command (es.map fun _ => .forgotten sid) = tr := by
    intro es
    induction es with
    | nil => exact fun _ _ => rfl
    | cons e es ih =>
      intro tr htr
      show Tracker.followAll command (tr.follow command (.forgotten sid)) _ = tr
      have hone : tr.follow command (.forgotten sid) = tr := htr.symm
      rw [hone]
      exact ih tr htr
  intro es hes
  cases es with
  | nil => exact absurd rfl hes
  | cons e es =>
    refine again es _ ?_
    show _ = { tr with origin := Function.update (Function.update tr.origin sid none) sid none }
    rw [Function.update_idem]
    rfl

/-- Destroying an id on every loaded engine leaves it unknown. -/
theorem Egress.destroyed {cfg : Config} {st st' : Stores Proxy} {tr : Tracker Proxy}
    {sid : String} (h : Egress cfg st tr)
    (hd : Destroyed st st' (availableEngines cfg) sid) :
    Egress cfg st' { tr with origin := Function.update tr.origin sid none } := by
  have hnone : ∀ e i, (st.pools e).find? i = none → (st'.pools e).find? i = none := by
    intro e i hi
    refine Option.eq_none_iff_forall_ne_some.mpr fun r hr => ?_
    rw [(hd.pools e i r hr).1] at hi
    cases hi
  have hother : ∀ i p, i ≠ sid →
      Tracker.expects { tr with origin := Function.update tr.origin sid none } i p →
      tr.expects i p := by
    intro i p hi hp
    exact ⟨(Function.update_of_ne hi ..).symm.trans hp.1, hp.2⟩
  have hself : ∀ p,
      ¬Tracker.expects { tr with origin := Function.update tr.origin sid none } sid p := by
    intro p hp
    have ho : none = some p := (Function.update_self sid none tr.origin).symm.trans hp.1
    cases ho
  refine ⟨hd.keeps.keyed h.keyed fun e i r hr => (hd.pools e i r hr).1, ?_, ?_, ?_, ?_⟩
  · exact fun e he i => hnone e i (h.loaded e he i)
  · intro i ho
    by_cases hi : i = sid
    · subst hi
      refine ⟨fun e => ?_, hd.forgotten (List.cons_ne_nil _ _)⟩
      refine Option.eq_none_iff_forall_ne_some.mpr fun r hr => ?_
      obtain ⟨hold, hnot⟩ := hd.pools e i r hr
      by_cases he : e ∈ availableEngines cfg
      · exact hnot ⟨he, rfl⟩
      · rw [h.loaded e he i] at hold
        cases hold
    · have ho' : tr.origin i = none := (Function.update_of_ne hi ..).symm.trans ho
      obtain ⟨hpools, hmem⟩ := h.unknown i ho'
      exact ⟨fun e => hnone e i (hpools e), hd.absent i hmem⟩
  · intro i p hp
    by_cases hi : i = sid
    · subst hi
      exact absurd hp (hself p)
    · obtain ⟨hrec, hcard⟩ := h.known i p (hother i p hi hp)
      exact ⟨hd.recent i p _ hi hrec, hcard⟩
  · intro i p hp e r hr
    by_cases hi : i = sid
    · subst hi
      exact absurd hp (hself p)
    · have hold := (hd.pools e i r hr).1
      rw [hd.keeps.proxy r (h.keyed e i r hold).1]
      exact h.pooled i p (hother i p hi hp) e r hold

/-! ## Commands and runs -/

/-- **Every command keeps what is expected.** -/
theorem perform_egress {cfg : Config} {st : Stores Proxy} {tr : Tracker Proxy}
    {c : Command Proxy} {d : Done Proxy Unit} (h : Egress cfg st tr)
    (hd : perform cfg st c = some d) : Egress cfg d.st (tr.followAll c.creates d.log) := by
  cases c with
  -- a fresh creation needs the id in no pool, loaded or not
  | sessionsCreate session uuid1 engine proxy o =>
    simp only [perform] at hd
    split at hd
    next =>
      obtain rfl := Option.some.inj hd
      exact h
    next e _ =>
      split at hd
      next =>
        split at hd
        · cases hd
        · obtain rfl := Option.some.inj hd
          exact h
      next hnot =>
        split at hd
        next he =>
          obtain rfl := Option.some.inj hd
          refine (h.created he (create_spec ..) fun _ => ?_).1
          intro e'
          by_cases he' : e' ∈ availableEngines cfg
          · simp only [poolHas, List.any_eq_true, not_exists, not_and] at hnot
            simpa using hnot e' he'
          · exact h.loaded e' he' _
        next =>
          obtain rfl := Option.some.inj hd
          exact h
  | request e sid ttl proxy o checkedAt o' =>
    simp only [perform] at hd
    split at hd
    next he =>
      obtain rfl := Option.some.inj hd
      exact (h.get he.1 sid ttl proxy o checkedAt o').1
    next => cases hd
  -- what only takes sessions out
  | endUse s now =>
    obtain rfl := Option.some.inj hd
    exact h.shrink (st.keeps_endUse s now) (fun _ _ _ hr => hr) rfl
  | reapIdle e ttl now =>
    simp only [perform] at hd
    split at hd <;> obtain rfl := Option.some.inj hd
    · exact h
    · exact h.swept _ .reap _
  | enforceCap e n =>
    simp only [perform] at hd
    split at hd <;> obtain rfl := Option.some.inj hd
    · exact h
    · show Egress cfg ((st.enforceCap e n).2.teardownAll (st.enforceCap e n).1) tr
      rw [(Stores.enforceCap_spec h.keyed e n).2]
      exact h.swept _ .cap _
  | discard e sid =>
    obtain rfl := Option.some.inj hd
    exact h.removed .discard
  -- the id is forgotten once for each engine
  | sessionsDestroy sid =>
    obtain rfl := Option.some.inj hd
    show Egress cfg _ (tr.followAll _ ((availableEngines cfg).map fun _ => .forgotten sid))
    have hes : availableEngines cfg ≠ [] := List.cons_ne_nil _ _
    rw [Tracker.followAll_forgotten _ _ _ _ hes]
    exact h.destroyed (destroyAll_spec sid _ st)

/-- **A session exits where its id was created**: in every sequential run, while
an id has not lapsed, every pooled session of it carries its creation proxy, and
every browser a request builds for it is built on that proxy, whatever proxy the
request carries. -/
theorem session_egress {cfg : Config} {s : Watched Proxy}
    (h : Run (Watched.step cfg) Any Watched.init s) :
    (∀ sid p, s.tr.expects sid p → ∀ e r, (s.st.pools e).find? sid = some r →
      (s.st.heap r).proxy = p) ∧
    (∀ e sid ttl proxy o checkedAt o' d,
      perform cfg s.st (.request e sid ttl proxy o checkedAt o') = some d →
      ∀ p q, (s.tr.followAll false d.log).expects sid p → .built sid q ∈ d.log → q = p) := by
  have hs : Egress cfg s.st s.tr := by
    refine h.invariant (I := fun s => Egress cfg s.st s.tr) ?_ (egress_init cfg)
    intro s₁ c s₂ h₁ _ hstep
    obtain ⟨d, hd, rfl⟩ := Option.map_eq_some_iff.mp hstep
    exact perform_egress h₁ hd
  refine ⟨hs.pooled, ?_⟩
  intro e sid ttl proxy o checkedAt o' d hd
  simp only [perform] at hd
  split at hd
  next he =>
    obtain rfl := Option.some.inj hd
    exact (hs.get he.1 sid ttl proxy o checkedAt o').2
  next => cases hd

/-- An id created on one proxy, reaped, and asked for on the other engine by a
request with another proxy. -/
theorem session_egress_rebuild : ∃ s : Watched String,
    (s.tr.expects "s" (some "P") ∧ (s.st.pools .stealth).find? "s" = some 1) ∧
    (s.st.heap 1).proxy = some "P" := by
  obtain ⟨s, hrun, hs⟩ : ∃ s : Watched String, Run (Watched.step .unset) Any Watched.init s ∧
      ((s.tr.origin "s" = some (some "P") ∧ s.tr.lapsed "s" = false) ∧
        (s.st.pools .stealth).find? "s" = some 1) :=
    Run.of_exec_test (fun _ _ (_ : true = true) => trivial)
      [.sessionsCreate (some "s") "" (some "chrome") (some "P") ⟨true, 0, 0⟩,
        .reapIdle .chrome 5 9,
        .request .stealth "s" none (some "Q") ⟨true, 10, 10⟩ 10 ⟨true, 10, 10⟩]
      (by decide)
  exact ⟨s, hs, (session_egress hrun).1 "s" _ hs.1 .stealth 1 hs.2⟩

/-! ## An id the memory has let go of -/

/-- A `create` that launches files a session of an id that the pool has not. -/
theorem create_files (st : Stores Proxy) {e : Engine} {sid : String} (proxy : Option Proxy)
    (claim : Bool) {o : Launch} (hfree : (st.pools e).find? sid = none)
    (hb : o.builds = true) :
    ∃ S, Filed st S e sid proxy ∧ st.create e sid proxy claim o =
      ⟨S, [.built sid proxy, .remembered sid proxy], some (st.built, true)⟩ := by
  have hval : (st.create e sid proxy claim o).val = some (st.built, true) := by
    unfold Stores.create
    rw [hfree, hb]
    rfl
  have hspec := create_spec st e sid proxy claim o
  generalize st.create e sid proxy claim o = d at hspec hval ⊢
  cases hspec with
  | found hfind =>
    rw [hfree] at hfind
    cases hfind
  | filed _ hS => exact ⟨_, hS, rfl⟩
  | raised => cases hval

/-- A `sessions.create` on chrome for an id that neither pool has. -/
theorem Watched.step_create (s : Watched Proxy) {i : String} (hne : i ≠ "")
    (hfree : ∀ e, (s.st.pools e).find? i = none) (q : Option Proxy) :
    ∃ S, Filed s.st S .chrome i q ∧ Watched.step .unset s
      (.sessionsCreate (some i) "" (some "chrome") q ⟨true, 0, 0⟩) =
        some ⟨S, (s.tr.create i q).touch i⟩ := by
  obtain ⟨S, hS, hcreate⟩ := create_files s.st q false (hfree .chrome) (o := ⟨true, 0, 0⟩) rfl
  have hengine : createEngine .unset (some "chrome") = .ok .chrome := by decide +kernel
  have hid : idOr (some i) "" = i := if_neg hne
  have hhas : poolHas .unset s.st i = false := by simp [poolHas, hfree]
  have hmem : Engine.chrome ∈ availableEngines .unset := List.mem_cons_self ..
  refine ⟨S, hS, ?_⟩
  simp only [Watched.step, perform, hid, hengine, hhas, hmem, hcreate]
  rfl

/-- The chrome pool has `sid` on `proxy`, and every id of `T` was created since. -/
structure Flooded (sid : String) (r : Ref) (proxy : Option Proxy) (T : Finset String)
    (s : Watched Proxy) : Prop where
  pooled : (s.st.pools .chrome).find? sid = some r
  built : r < s.st.built
  exit : (s.st.heap r).proxy = proxy
  chrome : ∀ i, i ∉ insert sid T → (s.st.pools .chrome).find? i = none
  stealth : ∀ i, (s.st.pools .stealth).find? i = none
  origin : s.tr.origin sid = some proxy
  stale : s.st.memory.Stale sid T
  bounded : s.st.memory.size ≤ proxyMemory

namespace Flooded

variable {sid : String} {r : Ref} {proxy : Option Proxy} {T : Finset String} {s : Watched Proxy}

/-- The first `sessions.create`. -/
theorem start (hne : sid ≠ "") (proxy : Option Proxy) :
    ∃ s, Watched.step .unset .init
        (.sessionsCreate (some sid) "" (some "chrome") proxy ⟨true, 0, 0⟩) = some s ∧
      Flooded sid 0 proxy ∅ s := by
  obtain ⟨S, hS, hstep⟩ := Watched.init.step_create hne (fun _ => rfl) proxy
  refine ⟨_, hstep, ?_⟩
  constructor
  · show (S.pools .chrome).find? sid = some 0
    rw [hS.pools, if_pos ⟨rfl, rfl⟩]
    rfl
  · exact hS.new.1
  · exact hS.new.2.2
  · intro j hj
    show (S.pools .chrome).find? j = none
    rw [hS.pools, if_neg fun hc => hj (by simp [hc.2])]
    rfl
  · intro j
    show (S.pools .stealth).find? j = none
    rw [hS.pools, if_neg (by simp)]
    rfl
  · exact Tracker.create_origin_self ..
  · exact fun _ j hj => absurd hj (Finset.notMem_empty j)
  · show S.memory.size ≤ proxyMemory
    rw [hS.memory]
    exact Dict.size_trim_le ..

/-- A `sessions.create` of one more id. -/
theorem create (h : Flooded sid r proxy T s) {i : String} (hi : i ∉ insert sid T) (hne : i ≠ "")
    (q : Option Proxy) :
    ∃ s', Watched.step .unset s
        (.sessionsCreate (some i) "" (some "chrome") q ⟨true, 0, 0⟩) = some s' ∧
      Flooded sid r proxy (insert i T) s' := by
  have his : i ≠ sid := fun heq => hi (heq ▸ Finset.mem_insert_self ..)
  have hfree : ∀ e, (s.st.pools e).find? i = none := by
    intro e
    cases e with
    | chrome => exact h.chrome i hi
    | stealth => exact h.stealth i
  obtain ⟨S, hS, hstep⟩ := s.step_create hne hfree q
  refine ⟨_, hstep, ?_⟩
  have hpools : ∀ e' j, j ≠ i ∨ e' = .stealth →
      (S.pools e').find? j = (s.st.pools e').find? j := by
    intro e' j hj
    rw [hS.pools, if_neg]
    rintro ⟨rfl, rfl⟩
    simp at hj
  constructor
  · exact (hpools .chrome sid (Or.inl his.symm)).trans h.pooled
  · exact Nat.lt_of_lt_of_le h.built hS.keeps.built
  · exact (hS.keeps.proxy r h.built).trans h.exit
  · intro j hj
    simp only [Finset.mem_insert, not_or] at hj
    rw [hpools .chrome j (Or.inl hj.2.1)]
    exact h.chrome j (by simp [hj.1, hj.2.2])
  · exact fun j => (hpools .stealth j (Or.inr rfl)).trans (h.stealth j)
  · exact (s.tr.create_other q his.symm).1.trans h.origin
  · show Stale S.memory sid (insert i T)
    rw [hS.memory]
    exact (h.stale.push_other his).trim proxyMemory
  · show S.memory.size ≤ proxyMemory
    rw [hS.memory]
    exact Dict.size_trim_le ..

/-- One `sessions.create` for each of the ids. -/
theorem run : ∀ (ids : List String) {T : Finset String} {s : Watched Proxy},
    Flooded sid r proxy T s → ids.Nodup → (∀ i ∈ ids, i ∉ insert sid T ∧ i ≠ "") →
    ∃ s', Run (Watched.step .unset) Any s s' ∧ Flooded sid r proxy (ids.toFinset ∪ T) s' := by
  intro ids
  induction ids with
  | nil =>
    intro T s h _ _
    exact ⟨s, .refl s, by simpa using h⟩
  | cons i ids ih =>
    intro T s h hnodup hids
    rw [List.nodup_cons] at hnodup
    obtain ⟨s₁, hs₁, h₁⟩ := h.create (hids i (List.mem_cons_self ..)).1
      (hids i (List.mem_cons_self ..)).2 none
    have hids' : ∀ j ∈ ids, j ∉ insert sid (insert i T) ∧ j ≠ "" := by
      intro j hj
      obtain ⟨hout, hne⟩ := hids j (List.mem_cons_of_mem _ hj)
      have hji : j ≠ i := fun heq => hnodup.1 (heq ▸ hj)
      simp only [Finset.mem_insert, not_or] at hout ⊢
      exact ⟨⟨hout.1, hji, hout.2⟩, hne⟩
    obtain ⟨s₂, hrun, h₂⟩ := ih h₁ hnodup.2 hids'
    refine ⟨s₂, (Run.tail (.refl s) trivial hs₁).trans hrun, ?_⟩
    rw [List.toFinset_cons, Finset.insert_union, ← Finset.union_insert]
    exact h₂

/-- After `_PROXY_MEMORY` others, a request on the other engine builds on its own
proxy, and is the last to have used the id. -/
theorem split (h : Flooded sid r proxy T s) (hsid : sid ∉ T) (hne : sid ≠ "")
    (hT : proxyMemory ≤ T.card) (q : Option Proxy) :
    ∃ s', Watched.step .unset s
        (.request .stealth sid none q ⟨true, 0, 0⟩ 0 ⟨true, 0, 0⟩) = some s' ∧
      (s'.tr.origin sid = some proxy ∧ s'.tr.since sid = ∅) ∧
      ((s'.st.pools .chrome).find? sid = some r ∧ (s'.st.heap r).proxy = proxy) ∧
      ∃ r', (s'.st.pools .stealth).find? sid = some r' ∧ (s'.st.heap r').proxy = q := by
  have hgone := h.stale.find?_eq_none hsid (h.bounded.trans hT)
  have hmiss : recallProxy s.st.memory sid = (none, s.st.memory) := by
    unfold recallProxy
    rw [hgone]
  obtain ⟨S, hS, hcreate⟩ :=
    create_files s.st q true (h.stealth sid) (o := ⟨true, 0, 0⟩) rfl
  have hget : s.st.get .stealth sid none q ⟨true, 0, 0⟩ 0 ⟨true, 0, 0⟩ =
      ⟨S, [.recalled sid false, .built sid q, .remembered sid q], some (s.st.built, true)⟩ := by
    simp only [Stores.get, Stores.acquire, hmiss, Option.getD_none, hcreate]
    rfl
  have hperform : perform .unset s.st (.request .stealth sid none q ⟨true, 0, 0⟩ 0 ⟨true, 0, 0⟩) =
      some ⟨S, [.recalled sid false, .built sid q, .remembered sid q], ()⟩ := by
    simp only [perform]
    rw [if_pos ⟨by decide, hne⟩, hget]
  have hfollow : s.tr.followAll false
      [.recalled sid false, .built sid q, .remembered sid q] = s.tr.touch sid := by
    simp [Tracker.followAll, Tracker.follow, h.origin]
  refine ⟨⟨S, s.tr.touch sid⟩, ?_, ⟨h.origin, s.tr.touch_since_self sid⟩, ⟨?_, ?_⟩,
    s.st.built, ?_, hS.new.2.2⟩
  · rw [← hfollow]
    simp only [Watched.step, hperform]
    rfl
  · rw [hS.pools, if_neg (by simp)]
    exact h.pooled
  · exact (hS.keeps.proxy r h.built).trans h.exit
  · rw [hS.pools, if_pos ⟨rfl, rfl⟩]

end Flooded

/-- Ids of one letter and more. -/
def otherIds (n : Nat) : List String :=
  (List.range n).map fun k => String.ofList (List.replicate (k + 1) 'x')

theorem nodup_otherIds (n : Nat) : (otherIds n).Nodup := by
  refine List.Nodup.map (fun k l hkl => ?_) List.nodup_range
  have hlen := congrArg List.length (String.ofList_injective hkl)
  simpa using hlen

/-- An id created on one proxy, 1024 others created, and the id then asked for on the
other engine with another proxy: it has just been used, and has a session on each. -/
theorem evicted_id_splits : ∃ s : Watched String,
    Run (Watched.step .unset) Any Watched.init s ∧
    (s.tr.origin "s" = some (some "P") ∧ (s.tr.since "s").card < proxyMemory) ∧
    ∃ r r', ((s.st.pools .chrome).find? "s" = some r ∧ (s.st.heap r).proxy = some "P") ∧
      (s.st.pools .stealth).find? "s" = some r' ∧ (s.st.heap r').proxy = some "Q" := by
  have hids : ∀ i ∈ otherIds proxyMemory, i ∉ insert "s" (∅ : Finset String) ∧ i ≠ "" := by
    intro i hi
    obtain ⟨k, -, rfl⟩ := List.mem_map.mp hi
    refine ⟨fun hmem => ?_, fun heq => ?_⟩
    · have heq := congrArg String.toList (Finset.mem_singleton.mp hmem)
      simp [List.replicate_succ] at heq
    · have heq := congrArg String.toList heq
      simp at heq
  obtain ⟨s₁, hs₁, h₁⟩ := Flooded.start (by decide : "s" ≠ "") (some "P")
  obtain ⟨s₂, hrun, h₂⟩ := h₁.run _ (nodup_otherIds proxyMemory) hids
  have hcard : (otherIds proxyMemory).toFinset.card = proxyMemory := by
    rw [List.toFinset_card_of_nodup (nodup_otherIds _), otherIds, List.length_map,
      List.length_range]
  rw [Finset.union_empty] at h₂
  have hout : "s" ∉ (otherIds proxyMemory).toFinset := by
    intro hmem
    exact (hids "s" (List.mem_toFinset.mp hmem)).1 (Finset.mem_insert_self ..)
  obtain ⟨s₃, hs₃, ⟨ho, hsince⟩, hchrome, r', hstealth⟩ :=
    h₂.split hout (by decide) hcard.ge (some "Q")
  refine ⟨s₃, .tail ((Run.tail (.refl _) trivial hs₁).trans hrun) trivial hs₃, ⟨ho, ?_⟩,
    0, r', hchrome, hstealth⟩
  rw [hsince]
  decide

end Solverr.Sessions
