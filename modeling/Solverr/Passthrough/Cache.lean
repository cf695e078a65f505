import Mathlib.Algebra.Order.BigOperators.Group.List
import Mathlib.Data.List.Sort
import Mathlib.Data.Rat.Defs
import Mathlib.Algebra.Order.Ring.Rat
import Solverr.Lib.Dict
import Solverr.Passthrough.Route

/-!
# The passthrough's body cache

`_cache_store` keeps two things by hand: the bodies, and the running total of
their bytes. In one pass it drops what has expired, drops what it replaces, and
drops live entries in order of expiry until the new body fits under the cap.

`Accounting` says the total is right, and what the cap bounds. `Accepted` says
what an accepted store leaves: the new entry and all the live ones but a shortest
sufficient prefix of them in order of expiry. The clock is exact.
-/

namespace Solverr.Passthrough

open Solverr.Lib (Dict Text)

/-- The bytes of a body. -/
abbrev Bytes := List UInt8

/-- What a solve comes back with, and what is sent. -/
structure Page where
  status : Int
  body : Bytes
  contentType : Text
  deriving DecidableEq

/-- A value of `_cache`. -/
structure Entry where
  expires : ℚ
  page : Page
  deriving DecidableEq

/-- `len(entry[2])` -/
def Entry.size (e : Entry) : Int := e.page.body.length

/-- `_cache` and `_cache_bytes`. -/
structure Cache where
  entries : Dict Text Entry
  bytes : Int

namespace Cache

def empty : Cache := ⟨.empty, 0⟩

/-- `_drop` -/
def drop (c : Cache) (key : Text) : Cache :=
  match c.entries.find? key with
  | none => c
  | some e => ⟨c.entries.erase key, c.bytes - e.size⟩

/-- `for key in keys: _drop(key)` -/
def dropAll (c : Cache) (keys : List Text) : Cache := keys.foldl drop c

/-- The eviction loop over a snapshot of the keys. -/
def evict (cap size : Int) : List Text → Cache → Cache
  | [], c => c
  | key :: keys, c => if c.bytes + size ≤ cap then c else evict cap size keys (c.drop key)

/-- The keys whose entries have expired. -/
def stale (c : Cache) (storedAt : ℚ) : List Text :=
  (c.entries.entries.filter fun p => decide (p.2.expires ≤ storedAt)).map Prod.fst

/-- The entries, soonest-expiring first; `sorted` is stable, and so is
`insertionSort`. -/
def byExpiry (c : Cache) : List (Text × Entry) :=
  c.entries.entries.insertionSort fun p q => p.2.expires ≤ q.2.expires

/-- A body over its share of the cap: `0 < _CACHE_MAX_BYTES < size / 0.25`. -/
def refuses (cap size : Int) : Bool := decide (0 < cap ∧ cap < 4 * size)

/-- The cache without what has expired and without what `key` had. -/
def pruned (c : Cache) (key : Text) (storedAt : ℚ) : Cache :=
  (c.dropAll (c.stale storedAt)).drop key

/-- The pruned cache with room made for `size` more bytes. -/
def roomy (c : Cache) (cap size : Int) : Cache :=
  if 0 < cap then evict cap size (c.byExpiry.map Prod.fst) c else c

/-- The entry a store makes; a page without a `ttl` of its own is kept for
`_CACHE_TTL`. -/
def entryFor (cfg : Config) (page : Page) (ttl : Option Int) (storedAt : ℚ) : Entry :=
  ⟨storedAt + ttl.getD cfg.cacheTtl, page⟩

/-- `_cache_store`, under the lock at `storedAt`. -/
def store (cfg : Config) (c : Cache) (raw : Text) (page : Page) (ttl : Option Int)
    (storedAt : ℚ) : Bool × Cache :=
  let e := entryFor cfg page ttl storedAt
  if refuses cfg.cacheMaxBytes e.size then (false, c)
  else
    let c := (c.pruned raw storedAt).roomy cfg.cacheMaxBytes e.size
    (true, ⟨c.entries.set raw e, c.bytes + e.size⟩)

/-! ## Dropping -/

/-- The bytes of some entries. -/
def sizes (l : List (Text × Entry)) : Int := (l.map fun p => p.2.size).sum

theorem sizes_perm {l l' : List (Text × Entry)} (h : l.Perm l') : sizes l = sizes l' :=
  (h.map _).sum_eq

@[simp] theorem sizes_nil : sizes [] = 0 := rfl

@[simp] theorem sizes_cons (p : Text × Entry) (l : List (Text × Entry)) :
    sizes (p :: l) = p.2.size + sizes l := rfl

/-- The running total is the bytes of the entries. -/
def Accounted (c : Cache) : Prop := c.bytes = sizes c.entries.entries

theorem drop_entries (c : Cache) (key : Text) : (c.drop key).entries = c.entries.erase key := by
  unfold drop
  cases h : c.entries.find? key with
  | none => exact (Dict.erase_eq_self h).symm
  | some e => rfl

theorem dropAll_entries (keys : List Text) :
    ∀ c : Cache, (c.dropAll keys).entries = c.entries.eraseAll keys := by
  induction keys with
  | nil => exact fun _ => rfl
  | cons key keys ih =>
    intro c
    show ((c.drop key).dropAll keys).entries = (c.entries.erase key).eraseAll keys
    rw [ih, drop_entries]

/-- The entry of a key is one of the list. -/
theorem perm_of_find? {c : Cache} {key : Text} {e : Entry} (h : c.entries.find? key = some e) :
    ∃ l, c.entries.entries.Perm ((key, e) :: l) :=
  ⟨_, List.perm_cons_erase (Dict.mem_entries.mpr h)⟩

/-- Dropping an entry takes its bytes off the total. -/
theorem drop_accounted {c : Cache} (h : c.Accounted) (key : Text) : (c.drop key).Accounted := by
  unfold drop
  cases hfind : c.entries.find? key with
  | none => exact h
  | some e =>
    obtain ⟨l, hl⟩ := perm_of_find? hfind
    show c.bytes - e.size = sizes (c.entries.erase key).entries
    rw [h, sizes_perm hl, sizes_perm (Dict.erase_perm hl), sizes_cons, add_sub_cancel_left]

theorem dropAll_accounted (keys : List Text) :
    ∀ {c : Cache}, c.Accounted → (c.dropAll keys).Accounted := by
  induction keys with
  | nil => exact fun h => h
  | cons key keys ih => exact fun h => ih (drop_accounted h key)

/-- What the eviction loop leaves: it drops a prefix of its keys, each dropped while
there was no room yet, and stops when there is or when no key is left. -/
theorem evict_eq (cap size : Int) : ∀ (keys : List Text) (c : Cache), ∃ n ≤ keys.length,
    evict cap size keys c = c.dropAll (keys.take n) ∧
    (n < keys.length → (c.dropAll (keys.take n)).bytes + size ≤ cap) ∧
    ∀ m < n, cap < (c.dropAll (keys.take m)).bytes + size := by
  intro keys
  induction keys with
  | nil => exact fun c => ⟨0, Nat.le_refl _, rfl, nofun, nofun⟩
  | cons key keys ih =>
    intro c
    unfold evict
    by_cases hroom : c.bytes + size ≤ cap
    · rw [if_pos hroom]
      exact ⟨0, Nat.zero_le _, rfl, fun _ => hroom, nofun⟩
    · rw [if_neg hroom]
      obtain ⟨n, hn, heq, hstop, hneed⟩ := ih (c.drop key)
      refine ⟨n + 1, Nat.succ_le_succ hn, heq, ?_, ?_⟩
      · intro hlt
        exact hstop (Nat.lt_of_succ_lt_succ hlt)
      · intro m hm
        cases m with
        | zero => exact Int.not_le.mp hroom
        | succ m => exact hneed m (Nat.lt_of_succ_lt_succ hm)

/-! ## Making room -/

/-- `order` is the entries, soonest-expiring first, and the first `n` have gone. -/
structure Evicted (c c' : Cache) (order : List (Text × Entry)) (n : Nat) : Prop where
  all : c.entries.entries.Perm order
  sorted : order.Pairwise fun p q => p.2.expires ≤ q.2.expires
  rest : c'.entries.entries.Perm (order.drop n)

/-- The keys of the first entries take those entries with them. -/
theorem dropAll_take {c : Cache} {order : List (Text × Entry)}
    (hall : c.entries.entries.Perm order) (m : Nat) :
    (c.dropAll ((order.map Prod.fst).take m)).entries.entries.Perm (order.drop m) := by
  rw [dropAll_entries, ← List.map_take]
  apply Dict.eraseAll_perm
  rwa [List.take_append_drop]

theorem bytes_dropAll_take {c : Cache} (h : c.Accounted) {order : List (Text × Entry)}
    (hall : c.entries.entries.Perm order) (m : Nat) :
    (c.dropAll ((order.map Prod.fst).take m)).bytes = sizes (order.drop m) :=
  (dropAll_accounted _ h).trans (sizes_perm (dropAll_take hall m))

theorem byExpiry_sorted (c : Cache) :
    c.byExpiry.Pairwise fun p q => p.2.expires ≤ q.2.expires := by
  let r : Text × Entry → Text × Entry → Prop := fun p q => p.2.expires ≤ q.2.expires
  have : Std.Total r := ⟨fun p q => le_total p.2.expires q.2.expires⟩
  have : IsTrans (Text × Entry) r := ⟨fun _ _ _ hpq hqr => le_trans hpq hqr⟩
  exact List.pairwise_insertionSort r c.entries.entries

/-- **Making room** drops the soonest-expiring entries, no more than needed. -/
theorem roomy_spec {c : Cache} (h : c.Accounted) {cap size : Int} (hsize : 0 < cap → size ≤ cap) :
    (c.roomy cap size).Accounted ∧ (0 < cap → (c.roomy cap size).bytes + size ≤ cap) ∧
    ∃ order n, Evicted c (c.roomy cap size) order n ∧ (cap ≤ 0 → n = 0) ∧
      (0 < cap → ∀ m < n, cap < sizes (order.drop m) + size) := by
  have hall : c.entries.entries.Perm c.byExpiry := (List.perm_insertionSort _ _).symm
  unfold roomy
  by_cases hcap : 0 < cap
  · rw [if_pos hcap]
    obtain ⟨n, hn, heq, hstop, hneed⟩ := evict_eq cap size (c.byExpiry.map Prod.fst) c
    rw [heq]
    refine ⟨dropAll_accounted _ h, fun _ => ?_, c.byExpiry, n, ⟨hall, byExpiry_sorted c, ?_⟩,
      fun hle => absurd hle (Int.not_le.mpr hcap), fun _ m hm => ?_⟩
    · -- the loop stopped early, or the cache is empty and the body fits by itself
      rcases Nat.lt_or_ge n (c.byExpiry.map Prod.fst).length with hlt | hge
      · exact hstop hlt
      · rw [bytes_dropAll_take h hall, List.drop_eq_nil_of_le (by simpa using hge), sizes_nil,
          Int.zero_add]
        exact hsize hcap
    · exact dropAll_take hall n
    · rw [← bytes_dropAll_take h hall m]
      exact hneed m hm
  · rw [if_neg hcap]
    exact ⟨h, fun hpos => absurd hpos hcap, c.byExpiry, 0, ⟨hall, byExpiry_sorted c, hall⟩,
      fun _ => rfl, fun hpos => absurd hpos hcap⟩

theorem mem_stale {c : Cache} {storedAt : ℚ} {k : Text} :
    k ∈ c.stale storedAt ↔ ∃ v, c.entries.find? k = some v ∧ v.expires ≤ storedAt := by
  simp only [stale, List.mem_map, List.mem_filter, decide_eq_true_eq]
  constructor
  · rintro ⟨⟨k', v⟩, ⟨hmem, hle⟩, rfl⟩
    exact ⟨v, Dict.mem_entries.mp hmem, hle⟩
  · rintro ⟨v, hv, hle⟩
    exact ⟨(k, v), ⟨Dict.mem_entries.mpr hv, hle⟩, rfl⟩

/-- What pruning keeps: the live entries but the one of `key`. -/
theorem find?_pruned {c : Cache} {key : Text} {storedAt : ℚ} {k : Text} {v : Entry} :
    (c.pruned key storedAt).entries.find? k = some v ↔
      k ≠ key ∧ storedAt < v.expires ∧ c.entries.find? k = some v := by
  rw [pruned, drop_entries, dropAll_entries, Dict.find?_erase, Dict.find?_eraseAll]
  by_cases hkey : k = key
  · simp [hkey]
  · by_cases hstale : k ∈ c.stale storedAt
    · obtain ⟨u, hu, hle⟩ := mem_stale.mp hstale
      rw [if_neg hkey, if_pos hstale]
      refine ⟨nofun, fun ⟨_, hlt, hv⟩ => ?_⟩
      rw [hu] at hv
      exact absurd (Option.some.inj hv ▸ hle) (not_le.mpr hlt)
    · rw [if_neg hkey, if_neg hstale]
      refine ⟨fun hv => ⟨hkey, ?_, hv⟩, fun hv => hv.2.2⟩
      exact not_le.mp fun hle => hstale (mem_stale.mpr ⟨v, hv, hle⟩)

theorem pruned_accounted {c : Cache} (h : c.Accounted) (key : Text) (storedAt : ℚ) :
    (c.pruned key storedAt).Accounted :=
  drop_accounted (dropAll_accounted _ h) key

/-! ## A store -/

/-- What holds of the cache after every call: the total is right, and under a
positive cap the total fits and no body takes more than a quarter. -/
structure Accounting (cap : Int) (c : Cache) : Prop where
  total : c.Accounted
  fits : 0 < cap → sizes c.entries.entries ≤ cap
  share : 0 < cap → ∀ k v, c.entries.find? k = some v → 4 * v.size ≤ cap

/-- What an accepted store of `e` under `key` leaves of `c`. `order` is the live
entries of other keys, soonest-expiring first, and `n` the number evicted. -/
structure Accepted (cap : Int) (c c' : Cache) (key : Text) (e : Entry) (storedAt : ℚ)
    (order : List (Text × Entry)) (n : Nat) : Prop where
  live : ∀ k v, (k, v) ∈ order ↔ k ≠ key ∧ storedAt < v.expires ∧ c.entries.find? k = some v
  once : (order.map Prod.fst).Nodup
  sorted : order.Pairwise fun p q => p.2.expires ≤ q.2.expires
  leaves : ∀ k v, c'.entries.find? k = some v ↔ k = key ∧ v = e ∨ (k, v) ∈ order.drop n
  uncapped : cap ≤ 0 → n = 0
  needed : 0 < cap → ∀ m < n, cap < sizes (order.drop m) + e.size

theorem refuses_iff {cap size : Int} : refuses cap size = true ↔ 0 < cap ∧ cap < 4 * size := by
  simp [refuses]

/-- A body that is not refused fits under the cap by itself. -/
theorem size_le_of_accepted {cap : Int} {e : Entry} (h : refuses cap e.size ≠ true)
    (hcap : 0 < cap) : 4 * e.size ≤ cap ∧ e.size ≤ cap := by
  have hnonneg : 0 ≤ e.size := Int.natCast_nonneg _
  rw [Ne, refuses_iff] at h
  omega

theorem store_refused {cfg : Config} {c : Cache} {raw : Text} {page : Page} {ttl : Option Int}
    {storedAt : ℚ} (h : refuses cfg.cacheMaxBytes page.body.length = true) :
    store cfg c raw page ttl storedAt = (false, c) := by
  unfold store
  exact if_pos h

/-- The cache an accepted store of `e` leaves. -/
def stored (cfg : Config) (c : Cache) (raw : Text) (e : Entry) (storedAt : ℚ) : Cache :=
  let r := (c.pruned raw storedAt).roomy cfg.cacheMaxBytes e.size
  ⟨r.entries.set raw e, r.bytes + e.size⟩

theorem store_accepted {cfg : Config} {c : Cache} {raw : Text} {page : Page} {ttl : Option Int}
    {storedAt : ℚ} (h : refuses cfg.cacheMaxBytes page.body.length ≠ true) :
    store cfg c raw page ttl storedAt =
      (true, stored cfg c raw (entryFor cfg page ttl storedAt) storedAt) := by
  unfold store
  exact if_neg h

/-- **A store**, seen from outside: what it returns, and what it leaves. -/
theorem store_spec {cfg : Config} {c : Cache} (h : Accounting cfg.cacheMaxBytes c) (raw : Text)
    (page : Page) (ttl : Option Int) (storedAt : ℚ)
    (hfit : refuses cfg.cacheMaxBytes page.body.length ≠ true) :
    ∃ c', store cfg c raw page ttl storedAt = (true, c') ∧ Accounting cfg.cacheMaxBytes c' ∧
      ∃ order n, Accepted cfg.cacheMaxBytes c c' raw (entryFor cfg page ttl storedAt) storedAt
        order n := by
  have hsize := fun hcap => size_le_of_accepted (e := entryFor cfg page ttl storedAt) hfit hcap
  rw [store_accepted hfit]
  generalize entryFor cfg page ttl storedAt = e at hsize
  obtain ⟨hacc, hroom, order, n, hev, hzero, hneed⟩ :=
    roomy_spec (pruned_accounted h.total raw storedAt) fun hcap => (hsize hcap).2
  unfold stored
  generalize (c.pruned raw storedAt).roomy cfg.cacheMaxBytes e.size = r at hacc hroom hev
  have hlive : ∀ k v, (k, v) ∈ order ↔
      k ≠ raw ∧ storedAt < v.expires ∧ c.entries.find? k = some v := by
    intro k v
    rw [← hev.all.mem_iff, Dict.mem_entries, find?_pruned]
  have hrest : ∀ k v, r.entries.find? k = some v ↔ (k, v) ∈ order.drop n := by
    intro k v
    rw [← Dict.mem_entries, hev.rest.mem_iff]
  -- the replaced entry is dropped before, so the new one is counted in full
  have habsent : r.entries.find? raw = none := by
    rw [Option.eq_none_iff_forall_ne_some]
    intro v hv
    exact ((hlive raw v).mp (List.mem_of_mem_drop ((hrest raw v).mp hv))).1 rfl
  have hleaves : ∀ k v, (r.entries.set raw e).find? k = some v ↔
      k = raw ∧ v = e ∨ (k, v) ∈ order.drop n := by
    intro k v
    rw [Dict.find?_set, ← hrest]
    by_cases hk : k = raw
    · simp [hk, habsent, eq_comm]
    · simp [hk]
  have htotal : r.bytes + e.size = sizes (r.entries.set raw e).entries := by
    rw [Dict.entries_set_of_absent e habsent, sizes_perm (List.perm_append_singleton _ _),
      sizes_cons, hacc, add_comm]
  refine ⟨_, rfl, ⟨htotal, fun hcap => htotal ▸ hroom hcap, ?_⟩, order, n,
    ⟨hlive, (hev.all.map Prod.fst).nodup (Dict.nodup _), hev.sorted, hleaves, hzero, hneed⟩⟩
  intro hcap k v hv
  rcases (hleaves k v).mp hv with ⟨-, rfl⟩ | hold
  · exact (hsize hcap).1
  · exact h.share hcap k v ((hlive k v).mp (List.mem_of_mem_drop hold)).2.2

/-- Making room only removes. -/
theorem find?_of_roomy {c : Cache} {cap size : Int} {k : Text} {v : Entry}
    (h : (c.roomy cap size).entries.find? k = some v) : c.entries.find? k = some v := by
  unfold roomy at h
  split at h
  next =>
    obtain ⟨n, -, heq, -⟩ := evict_eq cap size (c.byExpiry.map Prod.fst) c
    rw [heq, dropAll_entries, Dict.find?_eraseAll] at h
    split at h
    next => cases h
    next => exact h
  next => exact h

/-- A store leaves the entries of other paths alone, or drops them. -/
theorem find?_of_store {cfg : Config} {c : Cache} {raw : Text} {page : Page} {ttl : Option Int}
    {storedAt : ℚ} {k : Text} {v : Entry} (hk : k ≠ raw)
    (h : (store cfg c raw page ttl storedAt).2.entries.find? k = some v) :
    c.entries.find? k = some v := by
  by_cases hfit : refuses cfg.cacheMaxBytes page.body.length = true
  · rwa [store_refused hfit] at h
  · rw [store_accepted hfit, stored, Dict.find?_set, if_neg hk] at h
    exact (find?_pruned.mp (find?_of_roomy h)).2.2

/-- What a store made is there. -/
theorem find?_stored {cfg : Config} {c : Cache} {raw : Text} {page : Page} {ttl : Option Int}
    {storedAt : ℚ} (h : (store cfg c raw page ttl storedAt).1 = true) :
    (store cfg c raw page ttl storedAt).2.entries.find? raw =
      some (entryFor cfg page ttl storedAt) := by
  by_cases hfit : refuses cfg.cacheMaxBytes page.body.length = true
  · rw [store_refused hfit] at h
    cases h
  · rw [store_accepted hfit, stored, Dict.find?_set, if_pos rfl]

/-! ## Any calls -/

/-- A call of `_cache_store`, and when it takes the lock. -/
structure Call where
  raw : Text
  page : Page
  ttl : Option Int
  storedAt : ℚ

def Call.apply (cfg : Config) (c : Cache) (call : Call) : Bool × Cache :=
  c.store cfg call.raw call.page call.ttl call.storedAt

/-- The cache after some calls. -/
def replay (cfg : Config) (calls : List Call) : Cache :=
  calls.foldl (fun c call => (call.apply cfg c).2) empty

theorem accounting_empty (cap : Int) : Accounting cap empty :=
  ⟨rfl, fun h => h.le, fun _ _ _ h => by cases h⟩

theorem accounting_apply {cfg : Config} {c : Cache} (h : Accounting cfg.cacheMaxBytes c)
    (call : Call) : Accounting cfg.cacheMaxBytes (call.apply cfg c).2 := by
  by_cases hfit : refuses cfg.cacheMaxBytes call.page.body.length = true
  · rw [Call.apply, store_refused hfit]
    exact h
  · obtain ⟨c', heq, hc', -⟩ := store_spec h call.raw call.page call.ttl call.storedAt hfit
    rw [Call.apply, heq]
    exact hc'

theorem accounting_replay (cfg : Config) (calls : List Call) :
    Accounting cfg.cacheMaxBytes (replay cfg calls) := by
  unfold replay
  generalize hc : empty = c
  have h : Accounting cfg.cacheMaxBytes c := hc ▸ accounting_empty _
  clear hc
  induction calls generalizing c with
  | nil => exact h
  | cons call calls ih => exact ih _ (accounting_apply h call)

/-- **The cache is accounted for**, after any calls at any times; and the next call is
refused and changes nothing, or is accepted and leaves what `Accepted` says. -/
theorem cache_accounting (cfg : Config) (calls : List Call) :
    Accounting cfg.cacheMaxBytes (replay cfg calls) ∧
    ∀ call : Call,
      (0 < cfg.cacheMaxBytes ∧ cfg.cacheMaxBytes < 4 * (call.page.body.length : Int) ∧
        call.apply cfg (replay cfg calls) = (false, replay cfg calls)) ∨
      (¬ (0 < cfg.cacheMaxBytes ∧ cfg.cacheMaxBytes < 4 * (call.page.body.length : Int)) ∧
        ∃ c', call.apply cfg (replay cfg calls) = (true, c') ∧
          ∃ order n, Accepted cfg.cacheMaxBytes (replay cfg calls) c' call.raw
            (entryFor cfg call.page call.ttl call.storedAt) call.storedAt order n) := by
  have h := accounting_replay cfg calls
  refine ⟨h, fun call => ?_⟩
  by_cases hfit : refuses cfg.cacheMaxBytes call.page.body.length = true
  · obtain ⟨hcap, hover⟩ := refuses_iff.mp hfit
    exact .inl ⟨hcap, hover, store_refused hfit⟩
  · obtain ⟨c', heq, -, horder⟩ :=
      store_spec h call.raw call.page call.ttl call.storedAt hfit
    exact .inr ⟨fun hover => hfit (refuses_iff.mpr hover), c', heq, horder⟩

end Cache

end Solverr.Passthrough
