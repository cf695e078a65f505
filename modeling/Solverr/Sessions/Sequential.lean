import Solverr.Sessions.Effect

/-!
# The commands, run one at a time

The same code as in `Calls`, as functions on the stores: each command runs from
its first section to its last with nothing in between. `alone_…` says that this
is what a thread of the interleaving model does when it runs alone.

A command returns what it logged: the browsers it built and what it did to the
proxy memory, in order. The log is what the guarantees are stated about.
-/

namespace Solverr.Sessions

open Solverr.Lib (Dict Run)

variable {Proxy : Type}

/-- What a command did to the browsers and the proxy memory. -/
inductive Event (Proxy : Type)
  | built (sid : String) (proxy : Option Proxy)
  | remembered (sid : String) (proxy : Option Proxy)
  | recalled (sid : String) (found : Bool)
  | forgotten (sid : String)
  deriving DecidableEq

/-- What `create` meets: whether `_build` returns, and the clock. -/
structure Launch where
  builds : Bool
  builtAt : Int
  claimedAt : Int

/-- The stores a command leaves, its log, and what it returns. -/
structure Done (Proxy α : Type) where
  st : Stores Proxy
  log : List (Event Proxy)
  val : α

namespace Stores

def claimWhen (st : Stores Proxy) (claim : Bool) (s : Ref) (now : Int) : Stores Proxy :=
  if claim then st.claim s now else st

/-- `SessionStore.create`; no value where `_build` raises. -/
def create (st : Stores Proxy) (e : Engine) (sid : String) (proxy : Option Proxy) (claim : Bool)
    (o : Launch) : Done Proxy (Option (Ref × Bool)) :=
  match (st.pools e).find? sid with
  | some existing => ⟨st.claimWhen claim existing o.claimedAt, [], some (existing, false)⟩
  | none =>
    if o.builds then
      let stored := ((st.build sid proxy o.builtAt).insert e sid st.built).claimWhen claim
        st.built o.claimedAt
      ⟨{ stored with memory := rememberProxy stored.memory sid proxy },
        [.built sid proxy, .remembered sid proxy], some (st.built, true)⟩
    else ⟨st, [], none⟩

/-- `get` up to its expiry check: the proxy recalled, the session claimed. -/
def acquire (st : Stores Proxy) (e : Engine) (sid : String) (proxy : Option Proxy) (o : Launch) :
    Done Proxy (Option (Ref × Bool)) :=
  let r := recallProxy st.memory sid
  let d := { st with memory := r.2 }.create e sid (r.1.getD proxy) true o
  ⟨d.st, .recalled sid r.1.isSome :: d.log, d.val⟩

/-- The expiry check of `get`, and the rebuild. -/
def renew (st : Stores Proxy) (e : Engine) (sid : String) (ttl : Option Int) (s : Ref)
    (fresh : Bool) (checkedAt : Int) (o : Launch) : Done Proxy (Option (Ref × Bool)) :=
  if st.expired s fresh ttl checkedAt then
    ((st.pop e [sid] .expiry).teardown s).create e sid (st.heap s).proxy true o
  else ⟨st, [], some (s, fresh)⟩

/-- `SessionStore.get`; `checkedAt` is the clock at the expiry check. -/
def get (st : Stores Proxy) (e : Engine) (sid : String) (ttl : Option Int)
    (proxy : Option Proxy) (o : Launch) (checkedAt : Int) (o' : Launch) :
    Done Proxy (Option (Ref × Bool)) :=
  let d := st.acquire e sid proxy o
  match d.val with
  | none => d
  | some (s, fresh) =>
    let d' := d.st.renew e sid ttl s fresh checkedAt o'
    ⟨d'.st, d.log ++ d'.log, d'.val⟩

/-- Remove an id and tear its session down. -/
def removeId (st : Stores Proxy) (e : Engine) (sid : String) (op : Remover) : Stores Proxy :=
  match (st.pools e).find? sid with
  | none => st
  | some s => (st.pop e [sid] op).teardown s

/-- `SessionStore.discard` -/
def discard (st : Stores Proxy) (e : Engine) (sid : String) : Stores Proxy :=
  st.removeId e sid .discard

/-- `SessionStore.destroy` -/
def destroy (st : Stores Proxy) (e : Engine) (sid : String) : Stores Proxy :=
  { st with memory := forgetProxy st.memory sid }.removeId e sid .destroy

/-- `for session in popped: self._teardown(session)` -/
def teardownAll (st : Stores Proxy) (popped : List Ref) : Stores Proxy :=
  popped.foldl teardown st

theorem teardownAll_torn (popped : List Ref) :
    ∀ st : Stores Proxy, (st.teardownAll popped).torn = st.torn ++ popped := by
  induction popped with
  | nil => exact fun st => (List.append_nil _).symm
  | cons s popped ih =>
    intro st
    rw [teardownAll, List.foldl_cons, ← teardownAll, ih]
    exact List.append_assoc st.torn [s] popped

end Stores

/-! ## Commands -/

/-- The commands, each with all it meets on its way. -/
inductive Command (Proxy : Type)
  | sessionsCreate (session : Option String) (uuid1 : String) (engine : Option String)
      (proxy : Option Proxy) (o : Launch)
  | request (e : Engine) (sid : String) (ttl : Option Int) (proxy : Option Proxy) (o : Launch)
      (checkedAt : Int) (o' : Launch)
  | endUse (s : Ref) (now : Int)
  | reapIdle (e : Engine) (ttl now : Int)
  | enforceCap (e : Engine) (maxSessions : Int)
  | discard (e : Engine) (sid : String)
  | sessionsDestroy (sid : String)

/-- Some loaded engine's pool has the id. -/
def poolHas (cfg : Config) (st : Stores Proxy) (sid : String) : Bool :=
  (availableEngines cfg).any fun e => ((st.pools e).find? sid).isSome

/-- Run one command. `none` is what does not happen: a call on the store of an
engine that is not loaded, a `get` without an id, a `uuid1()` that repeats an id. -/
def perform (cfg : Config) (st : Stores Proxy) : Command Proxy → Option (Done Proxy Unit)
  | .sessionsCreate session uuid1 engine proxy o =>
    let sid := idOr session uuid1
    match createEngine cfg engine with
    | .error _ => some ⟨st, [], ()⟩
    | .ok e =>
      if poolHas cfg st sid then
        if session.getD "" = "" then none else some ⟨st, [], ()⟩
      else if e ∈ availableEngines cfg then
        let d := st.create e sid proxy false o
        some ⟨d.st, d.log, ()⟩
      else some ⟨st, [], ()⟩
  | .request e sid ttl proxy o checkedAt o' =>
    if e ∈ availableEngines cfg ∧ sid ≠ "" then
      let d := st.get e sid ttl proxy o checkedAt o'
      some ⟨d.st, d.log, ()⟩
    else none
  | .endUse s now => some ⟨st.endUse s now, [], ()⟩
  | .reapIdle e ttl now =>
    if ttl ≤ 0 then some ⟨st, [], ()⟩
    else
      let (popped, st') := st.reapIdle e ttl now
      some ⟨st'.teardownAll popped, [], ()⟩
  | .enforceCap e maxSessions =>
    if maxSessions ≤ 0 then some ⟨st, [], ()⟩
    else
      let (removed, st') := st.enforceCap e maxSessions
      some ⟨st'.teardownAll removed, [], ()⟩
  | .discard e sid => some ⟨st.discard e sid, [], ()⟩
  | .sessionsDestroy sid =>
    some ⟨(availableEngines cfg).foldl (fun st e => st.destroy e sid) st,
      (availableEngines cfg).map fun _ => .forgotten sid, ()⟩

/-! ## A thread that runs alone -/

/-- `t` alone takes steps, and starts no call. -/
def By (t : Tid) (_ : World Proxy) (a : Tid × Act Proxy) : Prop :=
  a.1 = t ∧ ∀ c, a.2 ≠ .start c

theorem Run.one {cfg : Config} {w w' : World Proxy} {t : Tid} {act : Act Proxy}
    (h : step cfg w (t, act) = some w') (hact : ∀ c, act ≠ .start c) :
    Run (step cfg) (By t) w w' :=
  .tail (.refl w) ⟨rfl, hact⟩ h

theorem Run.go {cfg : Config} {w w' : World Proxy} {t : Tid} {now : Int}
    (h : step cfg w (t, .go now) = some w') : Run (step cfg) (By t) w w' :=
  Run.one h nofun

theorem Run.fail {cfg : Config} {w w' : World Proxy} {t : Tid} {text : String}
    (h : step cfg w (t, .fail text) = some w') : Run (step cfg) (By t) w w' :=
  Run.one h nofun

theorem World.claimIf_st (w : World Proxy) (b : Bool) (t : Tid) (s : Ref) (now : Int) :
    (w.claimIf b t s now).st = w.st.claimWhen b s now := by
  cases b <;> rfl

/-- Where a thread is after `create`. -/
def createdAt (a : CreateArgs Proxy) (k : CreateK) : Option (Ref × Bool) → Pc Proxy
  | none => raised "" k
  | some (s, fresh) => resume a s fresh k

/-- Running alone, a thread's `create` is `Stores.create`. -/
theorem alone_create (cfg : Config) {w : World Proxy} {t : Tid} {a : CreateArgs Proxy}
    {k : CreateK} (hp : w.pcs t = .lookup a k) (o : Launch) :
    ∃ w', Run (step cfg) (By t) w w' ∧
      w'.st = (w.st.create a.store a.sid a.proxy k.claim o).st ∧
      w'.pcs t = createdAt a k (w.st.create a.store a.sid a.proxy k.claim o).val := by
  unfold Stores.create
  cases hfind : (w.st.pools a.store).find? a.sid with
  | some existing =>
    have hstep : step cfg w (t, .go o.claimedAt) =
        some ((w.claimIf k.claim t existing o.claimedAt).goto t (resume a existing false k)) := by
      simp only [step, hp, go, hfind]
    exact ⟨_, Run.go hstep, World.claimIf_st .., World.goto_self ..⟩
  | none =>
    let w₁ := w.goto t (.build a k)
    have h₁ : step cfg w (t, .go 0) = some w₁ := by simp only [step, hp, go, hfind]; rfl
    have hp₁ : w₁.pcs t = .build a k := World.goto_self ..
    cases hb : o.builds with
    | false =>
      have h₂ : step cfg w₁ (t, .fail "") = some (w₁.goto t (raised "" k)) := by
        simp only [step, hp₁]
      exact ⟨_, (Run.go h₁).trans (Run.fail h₂), rfl, World.goto_self ..⟩
    | true =>
      let w₂ := (w₁.setStores (w.st.build a.sid a.proxy o.builtAt)).goto t (.insert a k w.st.built)
      have h₂ : step cfg w₁ (t, .go o.builtAt) = some w₂ := by simp only [step, hp₁, go]; rfl
      have hp₂ : w₂.pcs t = .insert a k w.st.built := World.goto_self ..
      have hfree : (w₂.st.pools a.store).find? a.sid = none := hfind
      let w₃ := ((w₂.setStores (w₂.st.insert a.store a.sid w.st.built)).claimIf k.claim t
        w.st.built o.claimedAt).goto t (.remember a k w.st.built)
      have h₃ : step cfg w₂ (t, .go o.claimedAt) = some w₃ := by
        simp only [step, hp₂, go, hfree]
        rfl
      have hp₃ : w₃.pcs t = .remember a k w.st.built := World.goto_self ..
      let w₄ := (w₃.setStores
        { w₃.st with memory := rememberProxy w₃.st.memory a.sid a.proxy }).goto t
        (resume a w.st.built true k)
      have h₄ : step cfg w₃ (t, .go 0) = some w₄ := by simp only [step, hp₃, go]; rfl
      refine ⟨w₄, (Run.go h₁).trans ((Run.go h₂).trans
        ((Run.go h₃).trans (Run.go h₄))), ?_, World.goto_self ..⟩
      have hst : w₃.st = ((w.st.build a.sid a.proxy o.builtAt).insert a.store a.sid
          w.st.built).claimWhen k.claim w.st.built o.claimedAt := World.claimIf_st ..
      show ({ w₃.st with memory := rememberProxy w₃.st.memory a.sid a.proxy } : Stores Proxy) = _
      rw [hst]
      rfl

/-- Where a thread is after `get`. -/
def gotAt (e : Engine) (sid : String) (k : GetK) : Option (Ref × Bool) → Pc Proxy
  | none => raised "" (.rebuild k)
  | some (s, _) => returned e sid s k

/-- Running alone, a thread's expiry check and rebuild are `Stores.renew`. -/
theorem alone_renew (cfg : Config) {w : World Proxy} {t : Tid} {e : Engine} {sid : String}
    {ttl : Option Int} {k : GetK} {s : Ref} {fresh : Bool}
    (hp : w.pcs t = .check e sid ttl k s fresh) (checkedAt : Int) (o : Launch) :
    ∃ w', Run (step cfg) (By t) w w' ∧ w'.st = (w.st.renew e sid ttl s fresh checkedAt o).st ∧
      w'.pcs t = gotAt e sid k (w.st.renew e sid ttl s fresh checkedAt o).val := by
  unfold Stores.renew
  split
  next hexp =>
    let w₁ := (w.setStores (w.st.pop e [sid] .expiry)).goto t (.expired e sid k s)
    have h₁ : step cfg w (t, .go checkedAt) = some w₁ := by
      simp only [step, hp, go, hexp, if_true]
      rfl
    have hp₁ : w₁.pcs t = .expired e sid k s := World.goto_self ..
    let w₂ := (w₁.setStores (w₁.st.teardown s)).goto t
      (.lookup ⟨e, sid, (w₁.st.heap s).proxy⟩ (.rebuild k))
    have h₂ : step cfg w₁ (t, .go 0) = some w₂ := by simp only [step, hp₁, go]; rfl
    obtain ⟨w₃, hrun, hst, hp₃⟩ := alone_create cfg (World.goto_self .. : w₂.pcs t = _) o
    refine ⟨w₃, (Run.go h₁).trans ((Run.go h₂).trans hrun), hst, hp₃.trans ?_⟩
    show createdAt _ _ (((w.st.pop e [sid] .expiry).teardown s).create e sid (w.st.heap s).proxy
      true o).val = _
    cases (((w.st.pop e [sid] .expiry).teardown s).create e sid (w.st.heap s).proxy true o).val
      <;> rfl
  next hexp =>
    have h₁ : step cfg w (t, .go checkedAt) = some (w.goto t (returned e sid s k)) := by
      simp only [step, hp, go, if_neg hexp]
    exact ⟨_, Run.go h₁, rfl, World.goto_self ..⟩

/-- Running alone, a thread's `get` is `Stores.get`. -/
theorem alone_get (cfg : Config) {w : World Proxy} {t : Tid} {e : Engine} {sid : String}
    {proxy : Option Proxy} {ttl : Option Int} {k : GetK}
    (hp : w.pcs t = .recallProxy ⟨e, sid, proxy⟩ ttl k) (o : Launch) (checkedAt : Int)
    (o' : Launch) :
    ∃ w', Run (step cfg) (By t) w w' ∧ w'.st = (w.st.get e sid ttl proxy o checkedAt o').st ∧
      w'.pcs t = gotAt e sid k (w.st.get e sid ttl proxy o checkedAt o').val := by
  let known := (recallProxy w.st.memory sid).1.getD proxy
  let w₁ := (w.setStores { w.st with memory := (recallProxy w.st.memory sid).2 }).goto t
    (.lookup ⟨e, sid, known⟩ (.first ttl k))
  have h₁ : step cfg w (t, .go 0) = some w₁ := by simp only [step, hp, go]; rfl
  obtain ⟨w₂, hrun₂, hst₂, hp₂⟩ := alone_create cfg (World.goto_self .. : w₁.pcs t = _) o
  have hrun := (Run.go h₁).trans hrun₂
  change w₂.st = (w.st.acquire e sid proxy o).st at hst₂
  change w₂.pcs t = createdAt ⟨e, sid, known⟩ (.first ttl k)
    (w.st.acquire e sid proxy o).val at hp₂
  unfold Stores.get
  cases hval : (w.st.acquire e sid proxy o).val with
  | none =>
    simp only [hval]
    rw [hval] at hp₂
    refine ⟨w₂, hrun, hst₂, hp₂.trans ?_⟩
    cases k <;> rfl
  | some r =>
    obtain ⟨s, fresh⟩ := r
    simp only [hval]
    rw [hval] at hp₂
    obtain ⟨w₃, hrun₃, hst₃, hp₃⟩ :=
      alone_renew cfg (hp₂ : w₂.pcs t = .check e sid ttl k s fresh) checkedAt o'
    rw [hst₂] at hst₃ hp₃
    exact ⟨w₃, hrun.trans hrun₃, hst₃, hp₃⟩

/-- Running alone, a thread's teardown loop tears all of it down. -/
theorem alone_teardown (cfg : Config) {t : Tid} :
    ∀ (todo : List Ref) {w : World Proxy}, w.pcs t = .teardown todo →
      ∃ w', Run (step cfg) (By t) w w' ∧ w'.st = w.st.teardownAll todo ∧ w'.pcs t = .idle := by
  intro todo
  induction todo with
  | nil =>
    intro w hp
    have h₁ : step cfg w (t, .go 0) = some (w.goto t .idle) := by simp only [step, hp, go]
    exact ⟨_, Run.go h₁, rfl, World.goto_self ..⟩
  | cons s todo ih =>
    intro w hp
    let w₁ := (w.setStores (w.st.teardown s)).goto t (.teardown todo)
    have h₁ : step cfg w (t, .go 0) = some w₁ := by simp only [step, hp, go]; rfl
    obtain ⟨w₂, hrun, hst, hp₂⟩ := ih (World.goto_self .. : w₁.pcs t = _)
    exact ⟨w₂, (Run.go h₁).trans hrun, hst, hp₂⟩

/-- Running alone, a thread's removal by id is `Stores.removeId`. -/
theorem alone_removeId (cfg : Config) {w : World Proxy} {t : Tid} {e : Engine} {sid : String}
    {op : Remover} (hp : w.pcs t = .remove e sid op) :
    ∃ w', Run (step cfg) (By t) w w' ∧ w'.st = w.st.removeId e sid op ∧ w'.pcs t = .idle := by
  unfold Stores.removeId
  cases hfind : (w.st.pools e).find? sid with
  | none =>
    have h₁ : step cfg w (t, .go 0) = some (w.goto t .idle) := by simp only [step, hp, go, hfind]
    exact ⟨_, Run.go h₁, rfl, World.goto_self ..⟩
  | some s =>
    let w₁ := (w.setStores (w.st.pop e [sid] op)).goto t (.teardown [s])
    have h₁ : step cfg w (t, .go 0) = some w₁ := by simp only [step, hp, go, hfind]; rfl
    obtain ⟨w₂, hrun, hst, hp₂⟩ := alone_teardown cfg [s] (World.goto_self .. : w₁.pcs t = _)
    exact ⟨w₂, (Run.go h₁).trans hrun, hst, hp₂⟩

/-- Running alone, a thread's `destroy` is `Stores.destroy`. -/
theorem alone_destroy (cfg : Config) {w : World Proxy} {t : Tid} {e : Engine} {sid : String}
    (hp : w.pcs t = .forget e sid) :
    ∃ w', Run (step cfg) (By t) w w' ∧ w'.st = w.st.destroy e sid ∧ w'.pcs t = .idle := by
  let w₁ := (w.setStores { w.st with memory := forgetProxy w.st.memory sid }).goto t
    (.remove e sid .destroy)
  have h₁ : step cfg w (t, .go 0) = some w₁ := by simp only [step, hp, go]; rfl
  obtain ⟨w₂, hrun, hst, hp₂⟩ := alone_removeId cfg (World.goto_self .. : w₁.pcs t = _)
  exact ⟨w₂, (Run.go h₁).trans hrun, hst, hp₂⟩

/-- Running alone, a pass of the reaper or the cap tears down all it popped. -/
theorem alone_sweep (cfg : Config) {w : World Proxy} {t : Tid} :
    (∀ e ttl now, w.pcs t = .reap e ttl now → ∃ w', Run (step cfg) (By t) w w' ∧
      w'.st = (w.st.reapIdle e ttl now).2.teardownAll (w.st.reapIdle e ttl now).1 ∧
      w'.pcs t = .idle) ∧
    (∀ e n, w.pcs t = .cap e n → ∃ w', Run (step cfg) (By t) w w' ∧
      w'.st = (w.st.enforceCap e n).2.teardownAll (w.st.enforceCap e n).1 ∧
      w'.pcs t = .idle) := by
  refine ⟨?_, ?_⟩
  · intro e ttl now hp
    let w₁ := (w.setStores (w.st.reapIdle e ttl now).2).goto t
      (.teardown (w.st.reapIdle e ttl now).1)
    have h₁ : step cfg w (t, .go 0) = some w₁ := by simp only [step, hp, go]; rfl
    obtain ⟨w₂, hrun, hst, hp₂⟩ := alone_teardown cfg _ (World.goto_self .. : w₁.pcs t = _)
    exact ⟨w₂, (Run.go h₁).trans hrun, hst, hp₂⟩
  · intro e n hp
    let w₁ := (w.setStores (w.st.enforceCap e n).2).goto t (.teardown (w.st.enforceCap e n).1)
    have h₁ : step cfg w (t, .go 0) = some w₁ := by simp only [step, hp, go]; rfl
    obtain ⟨w₂, hrun, hst, hp₂⟩ := alone_teardown cfg _ (World.goto_self .. : w₁.pcs t = _)
    exact ⟨w₂, (Run.go h₁).trans hrun, hst, hp₂⟩

end Solverr.Sessions
