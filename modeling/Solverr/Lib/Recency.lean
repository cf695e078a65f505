import Mathlib.Data.Finset.Card
import Solverr.Lib.Dict

/-!
# Bounded recency memories

A dictionary whose entries are pushed to the recent end when they are used, and
trimmed at the other end to `n`, forgets a key only after `n` other keys have
been used since. `Recent d k v T` is the invariant behind it: the entry of `k` is
there, and only keys of `T` are more recent. Using another key adds it to `T`,
using `k` empties `T`, and trimming to more than `T`'s size drops nothing from
`k` on.

`Stale d k T` is the other side: the keys of `T` are all more recent than `k`. As
soon as there is room for no more than `T`, `k` is gone.
-/

namespace Solverr.Lib

namespace Dict

variable {κ υ : Type} [DecidableEq κ]

/-- `d` has `v` under `k`, and only keys of `T` are more recent. -/
def Recent (d : Dict κ υ) (k : κ) (v : υ) (T : Finset κ) : Prop :=
  ∃ pre post, d.entries = pre ++ (k, v) :: post ∧ ∀ p ∈ post, p.1 ∈ T

namespace Recent

variable {d : Dict κ υ} {k j : κ} {v u : υ} {T : Finset κ}

theorem find? (h : Recent d k v T) : d.find? k = some v := by
  obtain ⟨pre, post, hd, -⟩ := h
  rw [← mem_entries, hd]
  exact List.mem_append_right _ (List.mem_cons_self ..)

omit [DecidableEq κ] in
theorem mono (h : Recent d k v T) {T' : Finset κ} (hT : T ⊆ T') : Recent d k v T' := by
  obtain ⟨pre, post, hd, hpost⟩ := h
  exact ⟨pre, post, hd, fun p hp => hT (hpost p hp)⟩

/-- A used key is the most recent one. -/
theorem push_self (d : Dict κ υ) (k : κ) (v : υ) : Recent (d.push k v) k v ∅ :=
  ⟨(d.erase k).entries, [], rfl, by simp⟩

/-- Removing another key leaves the entry and its place. -/
theorem erase_other (h : Recent d k v T) (hj : j ≠ k) : Recent (d.erase j) k v T := by
  obtain ⟨pre, post, hd, hpost⟩ := h
  refine ⟨pre.filter fun p => p.1 ≠ j, post.filter fun p => p.1 ≠ j, ?_, ?_⟩
  · show d.entries.filter (fun p => decide (p.1 ≠ j)) = _
    rw [hd, List.filter_append, List.filter_cons_of_pos (by simpa using hj.symm)]
  · intro p hp
    exact hpost p (List.mem_filter.mp hp).1

/-- Using another key makes one more key recent. -/
theorem push_other (h : Recent d k v T) (hj : j ≠ k) :
    Recent (d.push j u) k v (insert j T) := by
  obtain ⟨pre, post, hd, hpost⟩ := h.erase_other hj
  refine ⟨pre, post ++ [(j, u)], ?_, ?_⟩
  · show (d.erase j).entries ++ [(j, u)] = _
    rw [hd, List.append_assoc, List.cons_append]
  · intro p hp
    rcases List.mem_append.mp hp with hold | hnew
    · exact Finset.mem_insert_of_mem (hpost p hold)
    · rw [List.mem_singleton.mp hnew]
      exact Finset.mem_insert_self ..

/-- Distinct recent keys are no more than `T` has. -/
theorem post_length_le {pre post : List (κ × υ)} (hd : d.entries = pre ++ (k, v) :: post)
    (hpost : ∀ p ∈ post, p.1 ∈ T) : post.length ≤ T.card := by
  have hsub : List.Sublist post d.entries := by
    rw [hd]
    exact (List.sublist_cons_self _ _).trans (List.sublist_append_right ..)
  have hnodup : (post.map Prod.fst).Nodup := d.nodup_of_sublist hsub
  have hcard : post.length = (post.map Prod.fst).toFinset.card := by
    rw [List.toFinset_card_of_nodup hnodup, List.length_map]
  rw [hcard]
  refine Finset.card_le_card fun i hi => ?_
  obtain ⟨p, hp, rfl⟩ := List.mem_map.mp (List.mem_toFinset.mp hi)
  exact hpost p hp

/-- Trimming to more entries than there are recent keys keeps the entry. -/
theorem trim (h : Recent d k v T) {n : Nat} (hT : T.card < n) : Recent (d.trim n) k v T := by
  obtain ⟨pre, post, hd, hpost⟩ := h
  have hlen : ((k, v) :: post).length ≤ n := by
    have hle := post_length_le hd hpost
    rw [List.length_cons]
    omega
  obtain ⟨pre', hpre'⟩ := trimEntries_keeps hlen pre
  refine ⟨pre', post, ?_, hpost⟩
  show trimEntries n d.entries = _
  rw [hd, hpre']

end Recent

/-! ## Falling out -/

/-- The keys of `T` are all more recent than `k`, if `k` is there at all. -/
def Stale (d : Dict κ υ) (k : κ) (T : Finset κ) : Prop :=
  k ∈ d.keys → ∀ j ∈ T, List.Sublist [k, j] d.keys

namespace Stale

variable {d : Dict κ υ} {k j : κ} {u : υ} {T : Finset κ}

/-- Using another key puts it after `k`, and leaves the rest of `T` there. -/
theorem push_other (h : Stale d k T) (hj : j ≠ k) : Stale (d.push j u) k (insert j T) := by
  have hkeys : (d.push j u).keys = d.keys.filter (fun i => i ≠ j) ++ [j] := by
    show ((d.entries.filter fun p => p.1 ≠ j) ++ [(j, u)]).map Prod.fst = _
    rw [List.map_append, keys, List.filter_map]
    rfl
  intro hk i hi
  rw [hkeys] at hk ⊢
  have hk' : k ∈ d.keys.filter fun i => i ≠ j :=
    (List.mem_append.mp hk).resolve_right fun hmem => hj (List.mem_singleton.mp hmem).symm
  by_cases hij : i = j
  · subst hij
    exact (List.singleton_sublist.mpr hk').append (List.Sublist.refl [i])
  · have hold := h (List.mem_filter.mp hk').1 i ((Finset.mem_insert.mp hi).resolve_left hij)
    have hboth : [k, i].filter (fun i => i ≠ j) = [k, i] := by simp [hij, hj.symm]
    rw [← hboth]
    exact (hold.filter _).trans (List.sublist_append_left ..)

omit [DecidableEq κ] in
/-- What trimming pops is older than what it leaves. -/
theorem trim (h : Stale d k T) (n : Nat) : Stale (d.trim n) k T := by
  obtain ⟨pre, hpre⟩ := trimEntries_suffix n d.entries
  have hkeys : d.keys = pre.map Prod.fst ++ (d.trim n).keys := by
    rw [keys, ← hpre, List.map_append]
    rfl
  intro hk i hi
  have hnodup : (pre.map Prod.fst ++ (d.trim n).keys).Nodup := hkeys ▸ d.nodup
  have hfresh : k ∉ pre.map Prod.fst := fun hmem =>
    (List.nodup_append.mp hnodup).2.2 k hmem k hk rfl
  have hall := h (hkeys ▸ List.mem_append_right _ hk) i hi
  rw [hkeys] at hall
  obtain ⟨l₁, l₂, hl, h₁, h₂⟩ := List.sublist_append_iff.mp hall
  cases l₁ with
  | nil => exact hl ▸ h₂
  | cons a l₁ =>
    obtain ⟨rfl, -⟩ := List.cons.inj hl
    exact absurd (h₁.subset (List.mem_cons_self ..)) hfresh

/-- A memory with no room left beside `T` has let go of `k`. -/
theorem find?_eq_none (h : Stale d k T) (hk : k ∉ T) (hT : d.size ≤ T.card) :
    d.find? k = none := by
  rw [Dict.find?_eq_none]
  intro hmem
  have hsub : insert k T ⊆ d.keys.toFinset := by
    intro i hi
    rw [List.mem_toFinset]
    rcases Finset.mem_insert.mp hi with rfl | hi
    · exact hmem
    · exact (h hmem i hi).subset (by simp)
  have hcard := Finset.card_le_card hsub
  rw [Finset.card_insert_of_notMem hk] at hcard
  have hlen := List.toFinset_card_le d.keys
  rw [keys, List.length_map] at hlen
  change d.entries.length ≤ T.card at hT
  unfold keys at hcard
  omega

end Stale

end Dict

end Solverr.Lib
