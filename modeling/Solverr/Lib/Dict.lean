import Mathlib.Data.List.Nodup

/-!
# Insertion-ordered dictionaries

`Dict κ υ` is a dictionary that iterates in the order its keys were inserted:
a list of entries, oldest first, with no key twice (`nodup` is a field, so a
dictionary with a duplicate key cannot be built). Lookups, replacement,
removal, "move to the end" and "pop the oldest" all act on that list.

Everything about contents is read off `find?`: `mem_entries` says an entry is
in the list exactly when `find?` returns it, and each operation has one
`find?_…` equation. Order matters only to the operations that name it
(`push`, `trim`), and they expose the entry list itself.
-/

namespace Solverr.Lib

/-- A dictionary in insertion order, oldest entry first. -/
structure Dict (κ υ : Type) where
  entries : List (κ × υ)
  nodup : (entries.map Prod.fst).Nodup

namespace Dict

variable {κ υ : Type}

/-- The dictionary with no entries. -/
def empty : Dict κ υ := ⟨[], List.nodup_nil⟩

/-- Keys, oldest first. -/
def keys (d : Dict κ υ) : List κ := d.entries.map Prod.fst

/-- Values, oldest first. -/
def values (d : Dict κ υ) : List υ := d.entries.map Prod.snd

/-- Number of entries. -/
def size (d : Dict κ υ) : Nat := d.entries.length

/-- Dropping entries keeps keys distinct. -/
theorem nodup_of_sublist {l : List (κ × υ)} (d : Dict κ υ) (h : List.Sublist l d.entries) :
    (l.map Prod.fst).Nodup :=
  (h.map Prod.fst).nodup d.nodup

/-- The sub-dictionary of the entries that satisfy `p`. -/
def filter (p : κ × υ → Bool) (d : Dict κ υ) : Dict κ υ :=
  ⟨d.entries.filter p, d.nodup_of_sublist List.filter_sublist⟩

variable [DecidableEq κ]

/-- The value under `k`, if any. -/
def find? (d : Dict κ υ) (k : κ) : Option υ :=
  (d.entries.find? fun p => p.1 = k).map Prod.snd

/-- An entry is listed exactly when the lookup returns it: keys are distinct, so
the first entry under a key is the only one. -/
theorem mem_entries {d : Dict κ υ} {k : κ} {v : υ} :
    (k, v) ∈ d.entries ↔ d.find? k = some v := by
  obtain ⟨l, hl⟩ := d
  show (k, v) ∈ l ↔ (l.find? fun p => p.1 = k).map Prod.snd = some v
  induction l with
  | nil => simp
  | cons p l ih =>
    obtain ⟨k', v'⟩ := p
    rw [List.map_cons, List.nodup_cons] at hl
    by_cases hk : k' = k
    · subst hk
      have hnot : (k', v) ∉ l := fun h => hl.1 (List.mem_map.mpr ⟨(k', v), h, rfl⟩)
      simp [hnot, eq_comm]
    · have hne : (k, v) ≠ (k', v') := fun h => hk (Prod.mk.inj h).1.symm
      rw [List.mem_cons, or_iff_right hne, ih hl.2, List.find?_cons_of_neg (by simpa using hk)]

theorem mem_keys {d : Dict κ υ} {k : κ} : k ∈ d.keys ↔ ∃ v, d.find? k = some v := by
  constructor
  · intro h
    obtain ⟨⟨k', v⟩, hp, rfl⟩ := List.mem_map.mp h
    exact ⟨v, mem_entries.mp hp⟩
  · rintro ⟨v, hv⟩
    exact List.mem_map.mpr ⟨(k, v), mem_entries.mpr hv, rfl⟩

theorem find?_eq_none {d : Dict κ υ} {k : κ} : d.find? k = none ↔ k ∉ d.keys := by
  rw [mem_keys]
  cases d.find? k <;> simp

theorem find?_filter {d : Dict κ υ} {p : κ × υ → Bool} {k : κ} {v : υ} :
    (d.filter p).find? k = some v ↔ d.find? k = some v ∧ p (k, v) = true := by
  rw [← mem_entries, ← mem_entries]
  exact List.mem_filter

/-! ## Removal -/

/-- The dictionary without `k`. -/
def erase (d : Dict κ υ) (k : κ) : Dict κ υ := d.filter fun p => p.1 ≠ k

@[simp] theorem find?_erase (d : Dict κ υ) (k j : κ) :
    (d.erase k).find? j = if j = k then none else d.find? j := by
  apply Option.ext
  intro v
  rw [erase, find?_filter]
  by_cases hj : j = k
  · simp [hj]
  · simp [hj]

theorem find?_of_erase {d : Dict κ υ} {k j : κ} {v : υ} (h : (d.erase k).find? j = some v) :
    j ≠ k ∧ d.find? j = some v := by
  rw [find?_erase] at h
  split at h
  next => cases h
  next hj => exact ⟨hj, h⟩

theorem erase_eq_self {d : Dict κ υ} {k : κ} (h : d.find? k = none) : d.erase k = d := by
  obtain ⟨l, hl⟩ := d
  have hl' : l.filter (fun p => decide (p.1 ≠ k)) = l := by
    rw [List.filter_eq_self]
    intro p hp
    have hk := find?_eq_none.mp h
    simpa using fun he : p.1 = k => hk (he ▸ List.mem_map.mpr ⟨p, hp, rfl⟩)
  simp only [erase, filter, hl']

/-- The dictionary without any of `ks`. -/
def eraseAll (d : Dict κ υ) (ks : List κ) : Dict κ υ := ks.foldl erase d

theorem find?_eraseAll (ks : List κ) :
    ∀ (d : Dict κ υ) (j : κ), (d.eraseAll ks).find? j = if j ∈ ks then none else d.find? j := by
  induction ks with
  | nil => intro d j; simp [eraseAll]
  | cons k ks ih =>
    intro d j
    rw [eraseAll, List.foldl_cons, ← eraseAll, ih, find?_erase]
    by_cases hj : j ∈ ks
    · rw [if_pos hj, if_pos (List.mem_cons_of_mem _ hj)]
    · by_cases hk : j = k
      · rw [if_neg hj, if_pos hk, if_pos (hk ▸ List.mem_cons_self ..)]
      · rw [if_neg hj, if_neg hk, if_neg (by simp [hj, hk])]

/-- The entries that are left keep their order. -/
theorem entries_eraseAll (ks : List κ) :
    ∀ d : Dict κ υ, (d.eraseAll ks).entries = d.entries.filter fun p => decide (p.1 ∉ ks) := by
  induction ks with
  | nil =>
    intro d
    simp [eraseAll]
  | cons k ks ih =>
    intro d
    rw [eraseAll, List.foldl_cons, ← eraseAll, ih]
    show (d.entries.filter fun p => decide (p.1 ≠ k)).filter _ = _
    rw [List.filter_filter]
    refine List.filter_congr fun p _ => ?_
    rw [← Bool.decide_and]
    exact decide_eq_decide.mpr (by simp [and_comm])

/-- Removing a key takes its one entry out of the list. -/
theorem erase_perm {d : Dict κ υ} {k : κ} {v : υ} {l : List (κ × υ)}
    (h : d.entries.Perm ((k, v) :: l)) : (d.erase k).entries.Perm l := by
  have hnodup : (((k, v) :: l).map Prod.fst).Nodup := (h.map Prod.fst).nodup d.nodup
  rw [List.map_cons, List.nodup_cons] at hnodup
  have hrest : l.filter (fun p => decide (p.1 ≠ k)) = l := by
    rw [List.filter_eq_self]
    intro p hp
    simpa using fun he : p.1 = k => hnodup.1 (he ▸ List.mem_map.mpr ⟨p, hp, rfl⟩)
  have hf := h.filter fun p => decide (p.1 ≠ k)
  rwa [List.filter_cons_of_neg (by simp), hrest] at hf

/-- Removing the keys of some entries leaves the others. -/
theorem eraseAll_perm : ∀ (l l' : List (κ × υ)) {d : Dict κ υ}, d.entries.Perm (l ++ l') →
    (d.eraseAll (l.map Prod.fst)).entries.Perm l' := by
  intro l
  induction l with
  | nil => exact fun _ _ h => h
  | cons p l ih => exact fun l' _ h => ih l' (erase_perm h)

/-! ## Insertion -/

/-- Put `(k, v)` last, after removing whatever was under `k`. -/
def push (d : Dict κ υ) (k : κ) (v : υ) : Dict κ υ where
  entries := (d.erase k).entries ++ [(k, v)]
  nodup := by
    rw [List.map_append, List.nodup_append]
    refine ⟨(d.erase k).nodup, by simp, ?_⟩
    intro a ha b hb
    obtain ⟨p, hp, rfl⟩ := List.mem_map.mp ha
    have hpk : p.1 ≠ k := by simpa using (List.mem_filter.mp hp).2
    simp only [List.map_cons, List.map_nil, List.mem_singleton] at hb
    rw [hb]
    exact hpk

@[simp] theorem find?_push (d : Dict κ υ) (k j : κ) (v : υ) :
    (d.push k v).find? j = if j = k then some v else d.find? j := by
  apply Option.ext
  intro u
  rw [← mem_entries]
  show (j, u) ∈ (d.erase k).entries ++ [(k, v)] ↔ _
  rw [List.mem_append, mem_entries, find?_erase]
  by_cases hj : j = k
  · simp [hj, eq_comm]
  · simp [hj]

/-- `d[k] = v`: the entry keeps its place when `k` is present, and goes last
when it is not. -/
def set (d : Dict κ υ) (k : κ) (v : υ) : Dict κ υ :=
  if h : k ∈ d.keys then
    ⟨d.entries.map fun p => if p.1 = k then (k, v) else p, by
      have hkeys : (d.entries.map fun p => if p.1 = k then (k, v) else p).map Prod.fst
          = d.entries.map Prod.fst := by
        rw [List.map_map]
        apply List.map_congr_left
        intro p _
        by_cases hp : p.1 = k
        · simp [hp]
        · simp [hp]
      rw [hkeys]
      exact d.nodup⟩
  else
    ⟨d.entries ++ [(k, v)], by
      rw [List.map_append, List.nodup_append]
      refine ⟨d.nodup, by simp, ?_⟩
      intro a ha b hb
      simp only [List.map_cons, List.map_nil, List.mem_singleton] at hb
      rw [hb]
      exact fun he => h (he ▸ ha)⟩

@[simp] theorem find?_set (d : Dict κ υ) (k j : κ) (v : υ) :
    (d.set k v).find? j = if j = k then some v else d.find? j := by
  apply Option.ext
  intro u
  rw [← mem_entries]
  by_cases h : k ∈ d.keys
  · rw [set, dif_pos h]
    show (j, u) ∈ d.entries.map (fun p => if p.1 = k then (k, v) else p) ↔ _
    rw [List.mem_map]
    by_cases hj : j = k
    · subst hj
      rw [if_pos rfl]
      constructor
      · rintro ⟨p, -, hp⟩
        by_cases hpj : p.1 = j
        · rw [if_pos hpj] at hp
          rw [(Prod.mk.inj hp).2]
        · rw [if_neg hpj] at hp
          exact absurd (by rw [hp]) hpj
      · intro hu
        obtain ⟨w, hw⟩ := mem_keys.mp h
        refine ⟨(j, w), mem_entries.mpr hw, ?_⟩
        rw [if_pos rfl, Option.some.inj hu]
    · rw [if_neg hj, ← mem_entries]
      constructor
      · rintro ⟨p, hp, he⟩
        by_cases hpk : p.1 = k
        · rw [if_pos hpk] at he
          exact absurd (Prod.mk.inj he).1.symm hj
        · rw [if_neg hpk] at he
          exact he ▸ hp
      · intro hp
        exact ⟨(j, u), hp, if_neg hj⟩
  · rw [set, dif_neg h]
    show (j, u) ∈ d.entries ++ [(k, v)] ↔ _
    rw [List.mem_append, mem_entries]
    by_cases hj : j = k
    · subst hj
      rw [find?_eq_none.mpr h]
      simp [eq_comm]
    · simp [hj]

/-- `d.setdefault(k, v)` -/
def setdefault (d : Dict κ υ) (k : κ) (v : υ) : Dict κ υ :=
  if (d.find? k).isSome then d else d.set k v

theorem find?_setdefault (d : Dict κ υ) (k j : κ) (v : υ) :
    (d.setdefault k v).find? j = if j = k ∧ d.find? k = none then some v else d.find? j := by
  unfold setdefault
  cases h : d.find? k with
  | some w => simp
  | none => simp

/-- `{**d, **e}` -/
def merge (d e : Dict κ υ) : Dict κ υ := e.entries.foldl (fun d p => d.set p.1 p.2) d

theorem entries_set_of_absent {d : Dict κ υ} {k : κ} (v : υ) (h : d.find? k = none) :
    (d.set k v).entries = d.entries ++ [(k, v)] := by
  rw [set, dif_neg (find?_eq_none.mp h)]

/-! ## Popping the oldest entries -/

/-- `while len(d) > n: d.popitem(last=False)`, on the entry list. -/
def trimEntries (n : Nat) : List (κ × υ) → List (κ × υ)
  | [] => []
  | p :: l => if n < (p :: l).length then trimEntries n l else p :: l

omit [DecidableEq κ] in
theorem trimEntries_suffix (n : Nat) : ∀ l : List (κ × υ), trimEntries n l <:+ l
  | [] => List.suffix_refl _
  | p :: l => by
    unfold trimEntries
    split
    · exact (trimEntries_suffix n l).trans (List.suffix_cons p l)
    · exact List.suffix_refl _

omit [DecidableEq κ] in
theorem trimEntries_length_le (n : Nat) : ∀ l : List (κ × υ), (trimEntries n l).length ≤ n
  | [] => Nat.zero_le _
  | p :: l => by
    unfold trimEntries
    split
    next => exact trimEntries_length_le n l
    next h => exact Nat.le_of_not_lt h

omit [DecidableEq κ] in
/-- A suffix that fits is never popped into. -/
theorem trimEntries_keeps {n : Nat} {post : List (κ × υ)} (hpost : post.length ≤ n) :
    ∀ pre : List (κ × υ), ∃ pre', trimEntries n (pre ++ post) = pre' ++ post
  | [] => by
    refine ⟨[], ?_⟩
    cases post with
    | nil => rfl
    | cons p l =>
      show trimEntries n (p :: l) = p :: l
      unfold trimEntries
      rw [if_neg (by omega)]
  | p :: pre => by
    show ∃ pre', trimEntries n (p :: (pre ++ post)) = pre' ++ post
    unfold trimEntries
    split
    · exact trimEntries_keeps hpost pre
    · exact ⟨p :: pre, rfl⟩

/-- Pop the oldest entries until at most `n` remain. -/
def trim (n : Nat) (d : Dict κ υ) : Dict κ υ :=
  ⟨trimEntries n d.entries, d.nodup_of_sublist (trimEntries_suffix n _).sublist⟩

omit [DecidableEq κ] in
theorem size_trim_le (n : Nat) (d : Dict κ υ) : (d.trim n).size ≤ n :=
  trimEntries_length_le n d.entries

/-- Trimming only removes: what is still there is what was there. -/
theorem find?_of_trim {d : Dict κ υ} {n : Nat} {k : κ} {v : υ}
    (h : (d.trim n).find? k = some v) : d.find? k = some v :=
  mem_entries.mp ((trimEntries_suffix n d.entries).subset (mem_entries.mpr h))

/-- `dict.fromkeys(ks)`: the first of each key stays where it was. -/
def fromkeys (ks : List κ) : Dict κ Unit := ks.foldl (fun d k => d.set k ()) empty

end Dict

end Solverr.Lib
