import Solverr.Lib.Recency

/-!
# What a bounded recency memory holds

`use n` puts a key at the recent end of a dictionary and trims the other end to
`n` entries. After any list of uses the memory holds a key's last value exactly
when fewer than `n` other keys were used since (`find?_uses`).

The invariant is `Holds n d k v T`, for `T` the keys used since `k` was: while
they are fewer than `n`, the entry of `k` is there and the entries behind it have
the keys `T`; from then on it is gone. `use_self` and `use_other` are its two
steps.
-/

namespace Solverr.Lib

namespace Dict

variable {κ υ : Type} [DecidableEq κ]

/-- Put the key last and drop the oldest entries beyond `n`. -/
def use (n : ℕ) (d : Dict κ υ) (p : κ × υ) : Dict κ υ := (d.push p.1 p.2).trim n

omit [DecidableEq κ] in
theorem trimEntries_eq_drop (n : ℕ) : ∀ l : List (κ × υ), trimEntries n l = l.drop (l.length - n)
  | [] => List.drop_nil.symm
  | p :: l => by
    unfold trimEntries
    split
    next h =>
      rw [trimEntries_eq_drop n l, List.length_cons, Nat.sub_add_comm (Nat.le_of_lt_succ h),
        List.drop_succ_cons]
    next h => rw [Nat.sub_eq_zero_of_le (Nat.le_of_not_lt h), List.drop_zero]

/-- The entries behind that of `k` have exactly the keys `T`. -/
def Behind (d : Dict κ υ) (k : κ) (v : υ) (T : Finset κ) : Prop :=
  ∃ pre post, d.entries = pre ++ (k, v) :: post ∧ (post.map Prod.fst).toFinset = T

variable {d : Dict κ υ} {k j : κ} {v w : υ} {T : Finset κ} {n : ℕ}

theorem Behind.recent (h : Behind d k v T) : Recent d k v T := by
  obtain ⟨pre, post, hd, hpost⟩ := h
  exact ⟨pre, post, hd, fun p hp => hpost ▸ List.mem_toFinset.mpr (List.mem_map_of_mem hp)⟩

/-- Using another key puts it behind. -/
theorem Behind.push_other (h : Behind d k v T) (hj : j ≠ k) :
    Behind (d.push j w) k v (insert j T) := by
  obtain ⟨pre, post, hd, rfl⟩ := h
  refine ⟨pre.filter fun p => p.1 ≠ j, post.filter (fun p => p.1 ≠ j) ++ [(j, w)], ?_, ?_⟩
  · show d.entries.filter (fun p => decide (p.1 ≠ j)) ++ [(j, w)] = _
    rw [hd, List.filter_append, List.filter_cons_of_pos (by simpa using hj.symm),
      List.append_assoc, List.cons_append]
  · ext i
    by_cases hi : i = j <;> simp [hi]

/-- Trimming keeps an entry with fewer than `n` keys behind it. -/
theorem Behind.trim (h : Behind d k v T) (hT : T.card < n) : Behind (d.trim n) k v T := by
  obtain ⟨pre, post, hd, hpost⟩ := h
  have hlen : ((k, v) :: post).length ≤ n := by
    have hle := Recent.post_length_le hd (T := T) fun p hp =>
      hpost ▸ List.mem_toFinset.mpr (List.mem_map_of_mem hp)
    rw [List.length_cons]
    omega
  obtain ⟨pre', hpre'⟩ := trimEntries_keeps hlen pre
  refine ⟨pre', post, ?_, hpost⟩
  show trimEntries n d.entries = _
  rw [hd, hpre']

/-- Trimming drops an entry with `n` keys behind it. -/
theorem Behind.trim_gone (h : Behind d k v T) (hT : n ≤ T.card) : (d.trim n).find? k = none := by
  obtain ⟨pre, post, hd, rfl⟩ := h
  have hlen : n ≤ post.length := by
    have hle := List.toFinset_card_le (post.map Prod.fst)
    rw [List.length_map] at hle
    omega
  have hnodup := d.nodup
  rw [hd, List.map_append, List.map_cons] at hnodup
  have hk : k ∉ post.map Prod.fst := (List.nodup_cons.mp hnodup.of_append_right).1
  rw [find?_eq_none]
  intro hmem
  have hdrop : (d.trim n).entries = post.drop (post.length - n) := by
    have hd' : d.entries = (pre ++ [(k, v)]) ++ post := hd.trans (List.append_cons ..)
    have hcount : d.entries.length - n = (pre ++ [(k, v)]).length + (post.length - n) := by
      rw [hd', List.length_append]
      omega
    show trimEntries n d.entries = _
    rw [trimEntries_eq_drop, hcount, hd', ← List.drop_drop, List.drop_left]
  rw [keys, hdrop, List.map_drop] at hmem
  exact hk (List.mem_of_mem_drop hmem)

/-! ## The memory, use after use -/

/-- What the memory has of `k`, last used with `v` and before the keys `T`. -/
def Holds (n : ℕ) (d : Dict κ υ) (k : κ) (v : υ) (T : Finset κ) : Prop :=
  if T.card < n then Behind d k v T else d.find? k = none

theorem Holds.use_self (hn : 0 < n) (d : Dict κ υ) (k : κ) (v : υ) :
    Holds n (d.use n (k, v)) k v ∅ := by
  rw [Holds, Finset.card_empty, if_pos hn]
  exact Behind.trim ⟨(d.erase k).entries, [], rfl, rfl⟩ (by rwa [Finset.card_empty])

theorem Holds.use_other (h : Holds n d k v T) (hj : j ≠ k) :
    Holds n (d.use n (j, w)) k v (insert j T) := by
  have hcard : T.card ≤ (insert j T).card := Finset.card_le_card (Finset.subset_insert j T)
  by_cases hT : T.card < n
  · rw [Holds, if_pos hT] at h
    by_cases hT' : (insert j T).card < n
    · rw [Holds, if_pos hT']
      exact (h.push_other hj).trim hT'
    · rw [Holds, if_neg hT']
      exact (h.push_other hj).trim_gone (Nat.le_of_not_lt hT')
  · rw [Holds, if_neg hT] at h
    rw [Holds, if_neg (by omega)]
    cases hfind : (d.use n (j, w)).find? k with
    | none => rfl
    | some v' =>
      have hpush := find?_of_trim hfind
      rw [find?_push, if_neg hj.symm, h] at hpush
      cases hpush

theorem Holds.uses (post : List (κ × υ)) : ∀ {d : Dict κ υ} {T : Finset κ}, Holds n d k v T →
    k ∉ post.map Prod.fst →
    Holds n (post.foldl (use n) d) k v (T ∪ (post.map Prod.fst).toFinset) := by
  induction post with
  | nil => intro d T h _; simpa using h
  | cons p post ih =>
    intro d T h hk
    rw [List.map_cons, List.mem_cons, not_or] at hk
    have hrest := ih (h.use_other (w := p.2) (Ne.symm hk.1)) hk.2
    rwa [List.foldl_cons, List.map_cons, List.toFinset_cons, Finset.union_insert,
      ← Finset.insert_union]

/-- **What is found of a key after any uses**: its last value, until `n` other keys
have been used. -/
theorem find?_uses (hn : 0 < n) (d : Dict κ υ) (pre : List (κ × υ)) {post : List (κ × υ)}
    (hk : k ∉ post.map Prod.fst) :
    ((pre ++ (k, v) :: post).foldl (use n) d).find? k =
      if n ≤ (post.map Prod.fst).toFinset.card then none else some v := by
  have h := Holds.uses post (Holds.use_self hn (pre.foldl (use n) d) k v) hk
  rw [Finset.empty_union] at h
  rw [List.foldl_append, List.foldl_cons]
  by_cases hcard : (post.map Prod.fst).toFinset.card < n
  · rw [Holds, if_pos hcard] at h
    rw [if_neg (Nat.not_le.mpr hcard)]
    exact h.recent.find?
  · rw [Holds, if_neg hcard] at h
    rw [if_pos (Nat.le_of_not_lt hcard), h]

/-- A key that was never used is not found. -/
theorem find?_uses_of_unused (uses : List (κ × υ)) : ∀ {d : Dict κ υ}, d.find? k = none →
    k ∉ uses.map Prod.fst → (uses.foldl (use n) d).find? k = none := by
  induction uses with
  | nil => exact fun h _ => h
  | cons p uses ih =>
    intro d h hk
    rw [List.map_cons, List.mem_cons, not_or] at hk
    refine ih ?_ hk.2
    cases hfind : (d.use n p).find? k with
    | none => rfl
    | some v' =>
      have hpush := find?_of_trim hfind
      rw [find?_push, if_neg hk.1, h] at hpush
      cases hpush

theorem size_uses_le (uses : List (κ × υ)) : ∀ {d : Dict κ υ}, d.size ≤ n →
    (uses.foldl (use n) d).size ≤ n := by
  induction uses with
  | nil => exact fun h => h
  | cons p uses ih => exact fun _ => ih (size_trim_le n _)

end Dict

end Solverr.Lib
