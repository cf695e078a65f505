import Mathlib.Data.List.Sort

/-!
# The oldest of a list

An eviction sorts its candidates by a key, the time each was last used, and takes
the first few. `oldest` is that pick. Three facts are all its users need: how many
it picks, that they are candidates, and that no candidate left behind has a
smaller key than a picked one. The order of equal keys does not enter.
-/

namespace Solverr.Lib

variable {α ι : Type} [LinearOrder ι]

/-- The `n` elements of `l` with the smallest keys, or all of them. -/
def oldest (key : α → ι) (n : Nat) (l : List α) : List α :=
  (l.insertionSort fun a b => key a ≤ key b).take n

theorem oldest_length (key : α → ι) (n : Nat) (l : List α) :
    (oldest key n l).length = min n l.length := by
  rw [oldest, List.length_take, List.length_insertionSort]

theorem mem_of_oldest {key : α → ι} {n : Nat} {l : List α} {a : α} (h : a ∈ oldest key n l) :
    a ∈ l :=
  (List.perm_insertionSort _ l).subset (List.mem_of_mem_take h)

theorem oldest_nodup {key : α → ι} {n : Nat} {l : List α} (h : l.Nodup) :
    (oldest key n l).Nodup :=
  (List.take_sublist ..).nodup ((List.perm_insertionSort _ l).symm.nodup h)

/-- **What is left behind is no older than what is picked.** -/
theorem key_le_of_oldest {key : α → ι} {n : Nat} {l : List α} {a b : α}
    (ha : a ∈ oldest key n l) (hb : b ∈ l) (hleft : b ∉ oldest key n l) : key a ≤ key b := by
  let sorted := l.insertionSort fun a b => key a ≤ key b
  have hsplit : sorted = sorted.take n ++ sorted.drop n := (List.take_append_drop n sorted).symm
  have hordered : sorted.Pairwise fun a b => key a ≤ key b := List.pairwise_insertionSort _ l
  have hmem : b ∈ sorted := (List.perm_insertionSort _ l).symm.subset hb
  rw [hsplit, List.mem_append] at hmem
  rw [hsplit, List.pairwise_append] at hordered
  exact hordered.2.2 a ha b (hmem.resolve_left hleft)

end Solverr.Lib
