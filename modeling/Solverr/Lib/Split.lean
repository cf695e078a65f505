import Mathlib.Data.List.Basic

/-!
# Cutting a sequence at a separator

`str.partition` and `str.rpartition` for a separator of one element, on lists of
anything. A cut of `a ++ sep :: b` gives the two parts back when the part that is
searched has no separator; a list is never cut in two ways.
-/

namespace Solverr.Lib

variable {α : Type} [DecidableEq α] {sep : α}

/-- `s.partition(sep)`: what stands before the first separator, and what stands
after it if there is one. -/
def cut (sep : α) : List α → List α × Option (List α)
  | [] => ([], none)
  | c :: s => if c = sep then ([], some s) else (c :: (cut sep s).1, (cut sep s).2)

/-- `s.rpartition(sep)`: what stands before the last separator, if there is one, and
what stands after it. -/
def rcut (sep : α) (s : List α) : Option (List α) × List α :=
  ((cut sep s.reverse).2.map List.reverse, (cut sep s.reverse).1.reverse)

theorem cut_append {a : List α} (ha : sep ∉ a) (b : List α) :
    cut sep (a ++ sep :: b) = (a, some b) := by
  induction a with
  | nil => exact if_pos rfl
  | cons c a ih =>
    obtain ⟨hc, ha⟩ := not_or.mp (List.mem_cons.not.mp ha)
    rw [List.cons_append, cut, if_neg (Ne.symm hc), ih ha]

theorem cut_of_not_mem {s : List α} (h : sep ∉ s) : cut sep s = (s, none) := by
  induction s with
  | nil => rfl
  | cons c s ih =>
    obtain ⟨hc, hs⟩ := not_or.mp (List.mem_cons.not.mp h)
    rw [cut, if_neg (Ne.symm hc), ih hs]

/-- A cut gives the sequence back. -/
theorem cut_eq (sep : α) (s : List α) :
    sep ∉ (cut sep s).1 ∧
      s = (cut sep s).1 ++ (match (cut sep s).2 with | some b => sep :: b | none => []) := by
  induction s with
  | nil => exact ⟨List.not_mem_nil, rfl⟩
  | cons c s ih =>
    by_cases hc : c = sep
    · rw [cut, if_pos hc, hc]
      exact ⟨List.not_mem_nil, rfl⟩
    · rw [cut, if_neg hc]
      refine ⟨?_, congrArg (c :: ·) ih.2⟩
      rw [List.mem_cons, not_or]
      exact ⟨Ne.symm hc, ih.1⟩

/-- A sequence has no separator, or is cut at its first one. -/
theorem cut_cases (sep : α) (s : List α) :
    sep ∉ s ∨ ∃ a b, sep ∉ a ∧ s = a ++ sep :: b := by
  obtain ⟨hbefore, hs⟩ := cut_eq sep s
  cases hafter : (cut sep s).2 with
  | none =>
    rw [hafter, List.append_nil] at hs
    exact .inl (hs ▸ hbefore)
  | some b =>
    rw [hafter] at hs
    exact .inr ⟨_, b, hbefore, hs⟩

/-- Only the separator is lost in a cut. -/
theorem count_cut {c : α} (hc : c ≠ sep) (s : List α) :
    (cut sep s).1.count c + ((cut sep s).2.getD []).count c = s.count c := by
  obtain ⟨-, hs⟩ := cut_eq sep s
  conv_rhs => rw [hs, List.count_append]
  cases (cut sep s).2 with
  | none => rfl
  | some b =>
    show _ + b.count c = _ + (sep :: b).count c
    rw [List.count_cons_of_ne (Ne.symm hc)]

/-- What stands before the first separator is taken from the front. -/
theorem cut_fst (sep : α) (s : List α) : (cut sep s).1 = s.takeWhile (· ≠ sep) := by
  induction s with
  | nil => rfl
  | cons c s ih =>
    by_cases hc : c = sep
    · rw [cut, if_pos hc, List.takeWhile_cons_of_neg (by simpa using hc)]
    · rw [cut, if_neg hc, List.takeWhile_cons_of_pos (by simpa using hc), ← ih]

theorem rcut_append (a : List α) {b : List α} (hb : sep ∉ b) :
    rcut sep (a ++ sep :: b) = (some a, b) := by
  have hrev : (a ++ sep :: b).reverse = b.reverse ++ sep :: a.reverse := by simp
  rw [rcut, hrev, cut_append (fun h => hb (List.mem_reverse.mp h))]
  simp

omit [DecidableEq α] in
/-- Around the last separator. -/
theorem eq_append_last {s : List α} (h : sep ∈ s) : ∃ a b, s = a ++ sep :: b ∧ sep ∉ b := by
  obtain ⟨a, b, hs, ha⟩ := List.eq_append_cons_of_mem (List.mem_reverse.mpr h)
  refine ⟨b.reverse, a.reverse, ?_, fun hmem => ha (List.mem_reverse.mp hmem)⟩
  rw [← List.reverse_reverse s, hs]
  simp

theorem rcut_of_not_mem {s : List α} (h : sep ∉ s) : rcut sep s = (none, s) := by
  rw [rcut, cut_of_not_mem fun hc => h (List.mem_reverse.mp hc)]
  simp

/-- What stands before the separator is searched from its front. -/
theorem cut_fst_append {a : List α} (ha : sep ∉ a) (b : List α) :
    (cut sep (a ++ b)).1 = a ++ (cut sep b).1 := by
  induction a with
  | nil => rfl
  | cons c a ih =>
    obtain ⟨hc, ha⟩ := not_or.mp (List.mem_cons.not.mp ha)
    rw [List.cons_append, cut, if_neg (Ne.symm hc)]
    exact congrArg (c :: ·) (ih ha)

/-- A sequence is cut in one way only. -/
theorem append_sep_inj {a a' b b' : List α} (ha : sep ∉ a) (ha' : sep ∉ a')
    (h : a ++ sep :: b = a' ++ sep :: b') : a = a' ∧ b = b' := by
  have hcut := (cut_append ha b).symm.trans ((congrArg (cut sep) h).trans (cut_append ha' b'))
  exact ⟨(Prod.mk.inj hcut).1, Option.some.inj (Prod.mk.inj hcut).2⟩

omit [DecidableEq α] in
/-- A part that has no separator stands before it or behind it. -/
theorem infix_of_infix_append_sep {l a b : List α} (hl : sep ∉ l) (h : l <:+: a ++ sep :: b) :
    l <:+: a ∨ l <:+: b := by
  have hbehind : ∀ {l₂ : List α}, l₂ ≠ [] → sep ∉ l₂ → ¬ l₂ <+: sep :: b := fun hne hsep hpre => by
    rcases List.prefix_cons_iff.mp hpre with rfl | ⟨t, rfl, -⟩
    · exact hne rfl
    · exact hsep (List.mem_cons_self ..)
  rcases List.infix_append_iff_ne_nil.mp h with h | h | ⟨l₁, l₂, -, hne, rfl, -, h⟩
  · exact .inl h
  · rcases List.infix_cons_iff.mp h with h | h
    · by_cases hnil : l = []
      · rw [hnil]
        exact .inl List.nil_infix
      · exact absurd h (hbehind hnil hl)
    · exact .inr h
  · exact absurd h (hbehind hne fun hmem => hl (List.mem_append_right _ hmem))

/-! ## Splitting at every separator -/

theorem not_mem_of_mem_splitOn (sep : α) (s : List α) : ∀ piece ∈ s.splitOn sep, sep ∉ piece := by
  induction s with
  | nil =>
    intro piece h
    obtain rfl := List.mem_singleton.mp h
    exact List.not_mem_nil
  | cons c s ih =>
    rw [List.splitOn_cons_eq_if_modifyHead]
    by_cases hc : c = sep
    · simpa [hc] using ih
    · obtain ⟨first, rest, hsplit⟩ := List.exists_cons_of_ne_nil (List.splitOn_ne_nil sep s)
      rw [hsplit] at ih ⊢
      have hfirst : sep ∉ c :: first := by
        rw [List.mem_cons, not_or]
        exact ⟨Ne.symm hc, ih first (List.mem_cons_self ..)⟩
      simpa [hc, hfirst] using fun piece h => ih piece (List.mem_cons_of_mem _ h)

/-- Replacing elements one by one keeps the pieces, if it neither makes nor loses a
separator. -/
theorem splitOn_map {f : α → α} (hf : ∀ c, f c = sep ↔ c = sep) (s : List α) :
    (s.map f).splitOn sep = (s.splitOn sep).map (List.map f) := by
  induction s with
  | nil => rfl
  | cons c s ih =>
    rw [List.map_cons, List.splitOn_cons_eq_if_modifyHead, List.splitOn_cons_eq_if_modifyHead, ih]
    by_cases hc : c = sep
    · simp [hc, (hf sep).mpr rfl]
    · obtain ⟨first, rest, hsplit⟩ := List.exists_cons_of_ne_nil (List.splitOn_ne_nil sep s)
      simp [hc, hf, hsplit]

omit [DecidableEq α] in
/-- What is in no piece and not between them is not in the whole. -/
theorem not_mem_intercalate {c : α} {between : List α} (hbetween : c ∉ between) :
    ∀ {pieces : List (List α)}, (∀ p ∈ pieces, c ∉ p) → c ∉ between.intercalate pieces
  | [], _ => List.not_mem_nil
  | [p], h => by
    rw [List.intercalate_singleton]
    exact h p List.mem_cons_self
  | p :: q :: pieces, h => by
    rw [List.intercalate_cons_cons, List.mem_append, List.mem_append, not_or, not_or]
    refine ⟨⟨h p List.mem_cons_self, hbetween⟩, not_mem_intercalate hbetween fun p' hp' => ?_⟩
    exact h p' (List.mem_cons_of_mem _ hp')

omit [DecidableEq α] in
theorem map_intercalate {β : Type} (f : α → β) (sep : α) : ∀ pieces : List (List α),
    ([sep].intercalate pieces).map f = [f sep].intercalate (pieces.map (List.map f))
  | [] => rfl
  | [p] => by
    rw [List.map_singleton, List.intercalate_singleton, List.intercalate_singleton]
  | p :: q :: pieces => by
    rw [List.map_cons, List.map_cons, List.intercalate_cons_cons, List.intercalate_cons_cons,
      List.map_append, List.map_append, map_intercalate f sep (q :: pieces)]
    rfl

/-- Joined pieces are the same where the pieces are. -/
theorem intercalate_inj {pieces pieces' : List (List α)} (h : ∀ p ∈ pieces, sep ∉ p)
    (h' : ∀ p ∈ pieces', sep ∉ p) (hne : pieces ≠ []) (hne' : pieces' ≠ []) :
    [sep].intercalate pieces = [sep].intercalate pieces' ↔ pieces = pieces' := by
  refine ⟨fun heq => ?_, fun heq => by rw [heq]⟩
  rw [← List.splitOn_intercalate sep h hne, ← List.splitOn_intercalate sep h' hne', heq]

end Solverr.Lib
