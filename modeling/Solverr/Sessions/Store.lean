import Mathlib.Logic.Function.Basic
import Solverr.Lib.Dict
import Solverr.Lib.Eviction

/-!
# The session stores: data and critical sections

`sessions.py` keeps one `SessionStore` for each engine, and one proxy memory,
`_PROXY_BY_ID`, that both share. This file has the data and every step the code
takes on it in one go: a section under `SessionStore._lock`, a section under
`_PROXY_BY_ID_LOCK`, or one of the two things that happen outside any lock (a
browser is built, a browser is torn down). `Calls` strings them together into
the calls that interleave.

Representation:
- A `Session` object is named by its `Ref`, the number of builds before it, and
  lives in `heap`. It keeps the payload it was built with for good, so its `Ref`
  names the payload too and `payload` is not a field.
- Times are `datetime` and `timedelta` values: whole microseconds.
- `torn` and `removedBy` are what an observer outside the process sees: which
  payloads the teardown was called on, and which call took an id out of a pool
  last. No definition here reads them.
-/

namespace Solverr.Sessions

open Solverr.Lib (Dict oldest)

/-- The two engines, each with a store of its own. -/
inductive Engine
  | chrome
  | stealth
  deriving DecidableEq, Repr

/-- The identity of a `Session` object, and of the payload it holds. -/
abbrev Ref := Nat

/-- The fields of a `Session` object; `locked` is the state of its `lock`. -/
structure Session (Proxy : Type) where
  sessionId : String
  createdAt : Int
  lastUsed : Int
  inUse : Nat
  proxy : Option Proxy
  locked : Bool

/-- The calls that take sessions out of a pool. -/
inductive Remover
  | destroy
  | discard
  | expiry
  | reap
  | cap
  deriving DecidableEq, Repr

/-- Both stores, the proxy memory and the `Session` objects they point to. -/
structure Stores (Proxy : Type) where
  heap : Ref → Session Proxy
  built : Nat
  pools : Engine → Dict String Ref
  memory : Dict String (Option Proxy)
  torn : List Ref
  removedBy : String → Option Remover

variable {Proxy : Type}

def Session.lifetime (s : Session Proxy) (now : Int) : Int := now - s.createdAt

def Session.idle (s : Session Proxy) (now : Int) : Int := now - s.lastUsed

/-! ## The proxy memory -/

/-- `_PROXY_MEMORY` -/
def proxyMemory : Nat := 1024

/-- `_remember_proxy`: the id moves to the recent end, the oldest ids go. -/
def rememberProxy (memory : Dict String (Option Proxy)) (sessionId : String)
    (proxy : Option Proxy) : Dict String (Option Proxy) :=
  (memory.push sessionId proxy).trim proxyMemory

/-- `_recall_proxy`: `none` is `_UNKNOWN_SESSION`; a hit moves to the recent end. -/
def recallProxy (memory : Dict String (Option Proxy)) (sessionId : String) :
    Option (Option Proxy) × Dict String (Option Proxy) :=
  match memory.find? sessionId with
  | none => (none, memory)
  | some proxy => (some proxy, memory.push sessionId proxy)

/-- `_forget_proxy` -/
def forgetProxy (memory : Dict String (Option Proxy)) (sessionId : String) :
    Dict String (Option Proxy) :=
  memory.erase sessionId

@[simp] theorem recallProxy_fst (memory : Dict String (Option Proxy)) (sid : String) :
    (recallProxy memory sid).1 = memory.find? sid := by
  unfold recallProxy
  cases memory.find? sid <;> rfl

/-- Recalling reorders the memory and changes no entry. -/
@[simp] theorem find?_recallProxy (memory : Dict String (Option Proxy)) (sid i : String) :
    (recallProxy memory sid).2.find? i = memory.find? i := by
  unfold recallProxy
  cases h : memory.find? sid with
  | none => rfl
  | some p =>
    rw [Dict.find?_push]
    split
    next he => rw [he, h]
    next => rfl

/-- Remembering sets its own entry and can only drop others. -/
theorem find?_rememberProxy {memory : Dict String (Option Proxy)} {sid i : String}
    {proxy p : Option Proxy} (h : (rememberProxy memory sid proxy).find? i = some p) :
    (i = sid ∧ p = proxy) ∨ (i ≠ sid ∧ memory.find? i = some p) := by
  have h' := Dict.find?_of_trim h
  rw [Dict.find?_push] at h'
  by_cases hi : i = sid
  · rw [if_pos hi] at h'
    exact Or.inl ⟨hi, (Option.some.inj h').symm⟩
  · rw [if_neg hi] at h'
    exact Or.inr ⟨hi, h'⟩

/-! ## The sections of `SessionStore` -/

namespace Stores

/-- The stores at start-up. -/
def init : Stores Proxy where
  heap _ := ⟨"", 0, 0, 0, none, false⟩
  built := 0
  pools _ := Dict.empty
  memory := Dict.empty
  torn := []
  removedBy _ := none

/-- One session's fields change in place. -/
def modify (st : Stores Proxy) (s : Ref) (f : Session Proxy → Session Proxy) : Stores Proxy :=
  { st with heap := Function.update st.heap s (f (st.heap s)) }

/-- `_claim` -/
def claim (st : Stores Proxy) (s : Ref) (now : Int) : Stores Proxy :=
  st.modify s fun x => { x with lastUsed := now, inUse := x.inUse + 1 }

/-- `end_use` -/
def endUse (st : Stores Proxy) (s : Ref) (now : Int) : Stores Proxy :=
  st.modify s fun x => { x with inUse := x.inUse - 1, lastUsed := now }

/-- `session.lock` is taken or released. -/
def setLocked (st : Stores Proxy) (s : Ref) (b : Bool) : Stores Proxy :=
  st.modify s fun x => { x with locked := b }

/-- `Session(session_id, self._build(proxy), datetime.now(), proxy=proxy)`. The
new object is `built`; `__post_init__` sets its `last_used`. -/
def build (st : Stores Proxy) (sessionId : String) (proxy : Option Proxy) (now : Int) :
    Stores Proxy :=
  { st with heap := Function.update st.heap st.built ⟨sessionId, now, now, 0, proxy, false⟩
            built := st.built + 1 }

/-- `self.sessions[session_id] = session` -/
def insert (st : Stores Proxy) (e : Engine) (sessionId : String) (s : Ref) : Stores Proxy :=
  { st with pools := Function.update st.pools e ((st.pools e).set sessionId s) }

/-- `self.sessions.pop(…, None)` of every listed id. -/
def pop (st : Stores Proxy) (e : Engine) (ids : List String) (by' : Remover) : Stores Proxy :=
  { st with pools := Function.update st.pools e ((st.pools e).eraseAll ids)
            removedBy := fun i =>
              if i ∈ ids ∧ ((st.pools e).find? i).isSome then some by' else st.removedBy i }

/-- `_teardown`: `_teardown_payload` is called on the session's payload. -/
def teardown (st : Stores Proxy) (s : Ref) : Stores Proxy :=
  { st with torn := st.torn ++ [s] }

/-- The expiry decision of `get`. -/
def expired (st : Stores Proxy) (s : Ref) (fresh : Bool) (ttl : Option Int) (now : Int) : Bool :=
  match ttl with
  | none => false
  | some ttl => !fresh && decide (ttl < (st.heap s).lifetime now) && (st.heap s).inUse == 1

/-- The section of `reap_idle`, for a positive `ttl`: what it popped. -/
def reapIdle (st : Stores Proxy) (e : Engine) (ttl now : Int) : List Ref × Stores Proxy :=
  let stale := ((st.pools e).entries.filter fun p =>
    decide (ttl < (st.heap p.2).idle now) && (st.heap p.2).inUse == 0).map Prod.fst
  (stale.filterMap (st.pools e).find?, st.pop e stale .reap)

/-- The section of `enforce_cap`, for a positive `max_sessions`: what it popped.
`sorted` is stable, and so is `insertionSort`. -/
def enforceCap (st : Stores Proxy) (e : Engine) (maxSessions : Int) :
    List Ref × Stores Proxy :=
  if ((st.pools e).size : Int) ≤ maxSessions then ([], st)
  else
    let idle := (st.pools e).values.filter fun s => (st.heap s).inUse == 0
    let ordered := idle.insertionSort fun s s' => (st.heap s).lastUsed ≤ (st.heap s').lastUsed
    let toRemove := ordered.take (((st.pools e).size : Int) - maxSessions).toNat
    (toRemove, st.pop e (toRemove.map fun s => (st.heap s).sessionId) .cap)

/-! ### What the sections do to a lookup and to a session -/

theorem modify_heap (st : Stores Proxy) (s r : Ref) (f : Session Proxy → Session Proxy) :
    (st.modify s f).heap r = if r = s then f (st.heap s) else st.heap r :=
  Function.update_apply ..

theorem build_heap (st : Stores Proxy) (sid : String) (proxy : Option Proxy) (now : Int)
    (r : Ref) : (st.build sid proxy now).heap r
      = if r = st.built then ⟨sid, now, now, 0, proxy, false⟩ else st.heap r :=
  Function.update_apply ..

/-- A claim is counted on its own session only. -/
theorem claim_inUse (st : Stores Proxy) (s r : Ref) (now : Int) :
    ((st.claim s now).heap r).inUse
      = if r = s then (st.heap s).inUse + 1 else (st.heap r).inUse := by
  rw [claim, modify_heap]
  split <;> rfl

/-- A release is counted on its own session only. -/
theorem endUse_inUse (st : Stores Proxy) (s r : Ref) (now : Int) :
    ((st.endUse s now).heap r).inUse
      = if r = s then (st.heap s).inUse - 1 else (st.heap r).inUse := by
  rw [endUse, modify_heap]
  split <;> rfl

/-- The lock is not the count. -/
theorem setLocked_inUse (st : Stores Proxy) (s r : Ref) (b : Bool) :
    ((st.setLocked s b).heap r).inUse = (st.heap r).inUse := by
  rw [setLocked, modify_heap]
  split
  next h => rw [h]
  next => rfl

/-- A lookup after an insertion. -/
theorem find?_insert (st : Stores Proxy) (e e' : Engine) (sid i : String) (s : Ref) :
    ((st.insert e sid s).pools e').find? i
      = if e' = e ∧ i = sid then some s else (st.pools e').find? i := by
  by_cases he : e' = e
  · subst he
    simp [insert]
  · simp [insert, he]

/-- A lookup after a removal. -/
theorem find?_pop (st : Stores Proxy) (e e' : Engine) (ids : List String) (by' : Remover)
    (i : String) :
    ((st.pop e ids by').pools e').find? i
      = if e' = e ∧ i ∈ ids then none else (st.pools e').find? i := by
  by_cases he : e' = e
  · subst he
    simp [pop, Dict.find?_eraseAll]
  · simp [pop, he]

/-- Popping nothing changes nothing. -/
theorem pop_nil (st : Stores Proxy) (e : Engine) (by' : Remover) : st.pop e [] by' = st := by
  unfold pop
  simp [Dict.eraseAll]

/-! ### What the reaper and the cap pop -/

/-- A pooled session exists and is filed under its own id. -/
def Keyed (st : Stores Proxy) : Prop :=
  ∀ e sid s, (st.pools e).find? sid = some s → s < st.built ∧ (st.heap s).sessionId = sid

/-- In a keyed pool, an entry's key is its session's id. -/
theorem Keyed.fst_eq {st : Stores Proxy} (hk : st.Keyed) {e : Engine} {p : String × Ref}
    (hp : p ∈ (st.pools e).entries) : (st.heap p.2).sessionId = p.1 :=
  (hk e p.1 p.2 (Dict.mem_entries.mp hp)).2

/-- In a keyed pool, a session is filed under its own id. -/
theorem Keyed.find?_of_mem {st : Stores Proxy} (hk : st.Keyed) {e : Engine} {s : Ref}
    (hs : s ∈ (st.pools e).values) : (st.pools e).find? (st.heap s).sessionId = some s := by
  obtain ⟨p, hp, rfl⟩ := List.mem_map.mp hs
  rw [hk.fst_eq hp]
  exact Dict.mem_entries.mp hp

/-- A keyed pool has no session twice. -/
theorem Keyed.values_nodup {st : Stores Proxy} (hk : st.Keyed) (e : Engine) :
    (st.pools e).values.Nodup := by
  have hids : (st.pools e).values.map (fun s => (st.heap s).sessionId)
      = (st.pools e).entries.map Prod.fst := by
    rw [Dict.values, List.map_map]
    exact List.map_congr_left fun p hp => hk.fst_eq hp
  exact List.Nodup.of_map _ (hids ▸ (st.pools e).nodup)

/-- A pass's pick: distinct sessions of the pool, none of them in use. -/
structure Idle (st : Stores Proxy) (e : Engine) (L : List Ref) : Prop where
  nodup : L.Nodup
  pooled : ∀ s ∈ L, (st.pools e).find? (st.heap s).sessionId = some s
  unused : ∀ s ∈ L, (st.heap s).inUse = 0

/-- The sessions of a pool that are not in use. -/
def unused (st : Stores Proxy) (e : Engine) : List Ref :=
  (st.pools e).values.filter fun s => (st.heap s).inUse == 0

theorem mem_unused {st : Stores Proxy} {e : Engine} {s : Ref} :
    s ∈ st.unused e ↔ s ∈ (st.pools e).values ∧ (st.heap s).inUse = 0 := by
  rw [unused, List.mem_filter, beq_iff_eq]

/-- What is picked from the sessions that are not in use is idle. -/
theorem Idle.of_unused {st : Stores Proxy} (hk : st.Keyed) {e : Engine} {L : List Ref}
    (hnodup : L.Nodup) (hL : ∀ s ∈ L, s ∈ st.unused e) : Idle st e L :=
  ⟨hnodup, fun s hs => hk.find?_of_mem (mem_unused.mp (hL s hs)).1,
    fun s hs => (mem_unused.mp (hL s hs)).2⟩

/-- What `reap_idle` pops, as sessions: the ids it lists are looked up again. -/
theorem reapIdle_fst (st : Stores Proxy) (e : Engine) (ttl now : Int) :
    (st.reapIdle e ttl now).1 = (st.pools e).values.filter fun s =>
      decide (ttl < (st.heap s).idle now) && (st.heap s).inUse == 0 := by
  let stale := (st.pools e).entries.filter fun p =>
    decide (ttl < (st.heap p.2).idle now) && (st.heap p.2).inUse == 0
  have hrefs : (stale.map Prod.fst).filterMap (st.pools e).find? = stale.map Prod.snd := by
    rw [List.filterMap_map, ← List.filterMap_eq_map]
    apply List.filterMap_congr
    intro p hp
    exact Dict.mem_entries.mp (List.mem_filter.mp hp).1
  rw [Dict.values, List.filter_map]
  exact hrefs

/-- What `reap_idle` pops is idle, and it pops exactly that. -/
theorem reapIdle_spec {st : Stores Proxy} (hk : st.Keyed) (e : Engine) (ttl now : Int) :
    Idle st e (st.reapIdle e ttl now).1 ∧
    (st.reapIdle e ttl now).2
      = st.pop e ((st.reapIdle e ttl now).1.map fun s => (st.heap s).sessionId) .reap := by
  refine ⟨.of_unused hk ?_ ?_, ?_⟩
  · rw [reapIdle_fst]
    exact (hk.values_nodup e).filter _
  · intro s hs
    rw [reapIdle_fst, List.mem_filter, Bool.and_eq_true, beq_iff_eq] at hs
    exact mem_unused.mpr ⟨hs.1, hs.2.2⟩
  · -- the ids it pops are the ids of the sessions it returns
    rw [reapIdle_fst, Dict.values, List.filter_map, List.map_map]
    refine congrArg (fun ids => st.pop e ids .reap) (List.map_congr_left fun p hp => ?_)
    exact (hk.fst_eq (List.mem_filter.mp hp).1).symm

/-- What `enforce_cap` pops from a pool above the cap: the oldest that are not in use. -/
theorem enforceCap_fst {st : Stores Proxy} {e : Engine} {n : Int}
    (h : n < ((st.pools e).size : Int)) :
    (st.enforceCap e n).1 = oldest (fun s => (st.heap s).lastUsed)
      (((st.pools e).size : Int) - n).toNat (st.unused e) := by
  rw [enforceCap, if_neg (Int.not_le.mpr h)]
  rfl

/-- What `enforce_cap` pops is idle, and it pops exactly that. -/
theorem enforceCap_spec {st : Stores Proxy} (hk : st.Keyed) (e : Engine) (n : Int) :
    Idle st e (st.enforceCap e n).1 ∧
    (st.enforceCap e n).2
      = st.pop e ((st.enforceCap e n).1.map fun s => (st.heap s).sessionId) .cap := by
  by_cases h : n < ((st.pools e).size : Int)
  · refine ⟨?_, ?_⟩
    · rw [enforceCap_fst h]
      exact .of_unused hk (Lib.oldest_nodup ((hk.values_nodup e).filter _)) fun s hs =>
        Lib.mem_of_oldest hs
    · rw [enforceCap, if_neg (Int.not_le.mpr h)]
  · rw [enforceCap, if_pos (Int.not_lt.mp h)]
    exact ⟨⟨List.nodup_nil, by simp, by simp⟩, (st.pop_nil e .cap).symm⟩

/-- What is left of a pool after a pass over it: the entries of the other sessions. -/
theorem entries_pop_idle {st : Stores Proxy} (hk : st.Keyed) {e : Engine} {L : List Ref}
    (hL : st.Idle e L) (by' : Remover) :
    ((st.pop e (L.map fun s => (st.heap s).sessionId) by').pools e).entries
      = (st.pools e).entries.filter fun p => decide (p.2 ∉ L) := by
  have hpool : (st.pop e (L.map fun s => (st.heap s).sessionId) by').pools e
      = (st.pools e).eraseAll (L.map fun s => (st.heap s).sessionId) := Function.update_self ..
  rw [hpool, Dict.entries_eraseAll]
  refine List.filter_congr fun p hp => decide_eq_decide.mpr (not_congr ?_)
  constructor
  · intro hid
    obtain ⟨s, hs, hsid⟩ := List.mem_map.mp hid
    have hfound := hL.pooled s hs
    rw [hsid, Dict.mem_entries.mp hp] at hfound
    exact Option.some.inj hfound ▸ hs
  · exact fun hs => List.mem_map.mpr ⟨p.2, hs, hk.fst_eq hp⟩

/-- A pass makes its pool smaller by what it picked. -/
theorem size_pop_idle {st : Stores Proxy} (hk : st.Keyed) {e : Engine} {L : List Ref}
    (hL : st.Idle e L) (by' : Remover) :
    ((st.pop e (L.map fun s => (st.heap s).sessionId) by').pools e).size + L.length
      = (st.pools e).size := by
  have hpicked : ((st.pools e).values.filter fun s => decide (s ∈ L)).Perm L := by
    rw [List.perm_ext_iff_of_nodup ((hk.values_nodup e).filter _) hL.nodup]
    intro s
    rw [List.mem_filter, decide_eq_true_iff]
    refine ⟨And.right, fun hs => ⟨?_, hs⟩⟩
    exact List.mem_map.mpr ⟨_, Dict.mem_entries.mpr (hL.pooled s hs), rfl⟩
  have hleft : ((st.pop e (L.map fun s => (st.heap s).sessionId) by').pools e).size
      = ((st.pools e).values.filter fun s => !decide (s ∈ L)).length := by
    rw [Dict.size, entries_pop_idle hk hL, Dict.values, List.filter_map, List.length_map]
    simp [Function.comp_def]
  rw [hleft, ← hpicked.length_eq, Nat.add_comm, ← List.length_eq_length_filter_add, Dict.values,
    List.length_map, Dict.size]

end Stores

end Solverr.Sessions
