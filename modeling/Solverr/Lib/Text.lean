import Mathlib.Data.List.Basic
import Mathlib.Data.List.TakeWhile

/-!
# Text operations

Text is a list of characters. The operations here follow Python's `str`
methods of the same names; `lower` depends on the Unicode tables, so it is the
one field of `CaseMap`, with the facts about those tables that proofs use.
-/

namespace Solverr.Lib

abbrev Text := List Char

/-- Texts that compare equal are equal. -/
instance : LawfulBEq Text := inferInstanceAs (LawfulBEq (List Char))

namespace Text

/-- The characters `str.isspace` accepts. -/
def isSpace (c : Char) : Bool :=
  let n := c.toNat
  (0x09 ≤ n && n ≤ 0x0d) || (0x1c ≤ n && n ≤ 0x20) || n == 0x85 || n == 0xa0 || n == 0x1680 ||
    (0x2000 ≤ n && n ≤ 0x200a) || n == 0x2028 || n == 0x2029 || n == 0x202f || n == 0x205f ||
    n == 0x3000

/-- `s.lstrip()` -/
def lstrip (s : Text) : Text := s.dropWhile isSpace

/-- `s.strip()` -/
def strip (s : Text) : Text := (lstrip s).reverse.dropWhile isSpace |>.reverse

/-- `s.partition(sep)` for a one-character separator: the text before its first
occurrence, whether there is one, and the text after it. -/
def partition (sep : Char) : Text → Text × Bool × Text
  | [] => ([], false, [])
  | c :: s =>
    if c = sep then ([], true, s)
    else
      let (before, found, after) := partition sep s
      (c :: before, found, after)

/-- `s.split(sep, 1)[0]`: the text before the first separator, or all of it. -/
def before (sep : Char) (s : Text) : Text := (partition sep s).1

/-- The parts of a text put together with a separator that the first part lacks. -/
theorem partition_append {sep : Char} (b : Text) : ∀ {a : Text}, sep ∉ a →
    partition sep (a ++ sep :: b) = (a, true, b)
  | [], _ => by
    show partition sep (sep :: b) = _
    rw [partition, if_pos rfl]
  | c :: a, h => by
    rw [List.mem_cons, not_or] at h
    rw [List.cons_append, partition, if_neg (Ne.symm h.1), partition_append b h.2]

/-- A text without the separator. -/
theorem partition_of_not_mem {sep : Char} : ∀ {s : Text}, sep ∉ s →
    partition sep s = (s, false, [])
  | [], _ => rfl
  | c :: s, h => by
    rw [List.mem_cons, not_or] at h
    rw [partition, if_neg (Ne.symm h.1), partition_of_not_mem h.2]

theorem mem_of_mem_strip {s : Text} {c : Char} (h : c ∈ strip s) : c ∈ s := by
  rw [strip, List.mem_reverse] at h
  have hlstrip := List.mem_reverse.mp ((List.dropWhile_suffix isSpace).subset h)
  exact (List.dropWhile_suffix isSpace).subset hlstrip

theorem mem_dropWhile {s : Text} {c : Char} (h : c ∈ s) (hc : isSpace c = false) :
    c ∈ s.dropWhile isSpace := by
  rw [← List.takeWhile_append_dropWhile (p := isSpace) (l := s), List.mem_append] at h
  rcases h with htake | hdrop
  · rw [List.mem_takeWhile_imp htake] at hc
    cases hc
  · exact hdrop

/-- Stripping takes spaces only. -/
theorem mem_strip {s : Text} {c : Char} (h : c ∈ s) (hc : isSpace c = false) : c ∈ strip s := by
  rw [strip, List.mem_reverse]
  exact mem_dropWhile (List.mem_reverse.mpr (mem_dropWhile h hc)) hc

/-- There is nothing after a separator that is not there. -/
theorem partition_not_found (sep : Char) : ∀ {s : Text}, (partition sep s).2.1 = false →
    (partition sep s).2.2 = []
  | [], _ => rfl
  | c :: s, h => by
    unfold partition at h ⊢
    split at h
    next => cases h
    next hne =>
      rw [if_neg hne]
      exact partition_not_found sep h

end Text

/-- `str.lower`: the Unicode tables behind it, with what is known of them. ASCII
text is lowered letter by letter, text with a character in it keeps one, and no
character is mapped to ASCII punctuation. -/
structure CaseMap where
  lower : Text → Text
  lower_ascii : ∀ s : Text, (∀ c ∈ s, c.toNat < 128) → lower s = s.map Char.toLower
  lower_ne_nil : ∀ s : Text, s ≠ [] → lower s ≠ []
  lower_mem : ∀ (s : Text) (c : Char), c ∈ lower s → c = '/' ∨ c = '?' ∨ c = '#' → c ∈ s

/-- Lowering a text that is computed to be ASCII. -/
theorem CaseMap.lower_of_ascii (u : CaseMap) {s : Text}
    (h : s.all (fun c => decide (c.toNat < 128)) = true) : u.lower s = s.map Char.toLower :=
  u.lower_ascii s fun c hc => of_decide_eq_true (List.all_eq_true.mp h c hc)

/-- Lowering an ASCII letter gives a letter, so a character below the letters is its
own image only. -/
theorem eq_of_toLower_lt {c d : Char} (h : d.toLower = c) (hc : c.toNat < 65) : d = c := by
  unfold Char.toLower at h
  split at h
  next hup =>
    exfalso
    have hlow : 65 ≤ d.val.toNat := hup.1
    have hhigh : d.val.toNat ≤ 90 := hup.2
    have hval : d.val.toNat + 32 = c.val.toNat := by
      rw [← h]
      show d.val.toNat + 32 = (d.val + 32).toNat
      rw [UInt32.toNat_add, show UInt32.toNat 32 = 32 from rfl]
      omega
    have hsmall : c.val.toNat < 65 := hc
    omega
  next => exact h

theorem eq_of_toLower {c d : Char} (h : d.toLower = c) (hc : c = '/' ∨ c = '?' ∨ c = '#') :
    d = c :=
  eq_of_toLower_lt h (by rcases hc with rfl | rfl | rfl <;> decide)

theorem isSpace_of_letter {c : Char} (hlow : 65 ≤ c.toNat) (hhigh : c.toNat ≤ 122) :
    Text.isSpace c = false := by
  simp only [Text.isSpace]
  simp
  omega

/-- Lowering takes no character into or out of white space. -/
theorem isSpace_toLower (c : Char) : Text.isSpace c.toLower = Text.isSpace c := by
  unfold Char.toLower
  split
  next hup =>
    have hlow : 65 ≤ c.val.toNat := hup.1
    have hhigh : c.val.toNat ≤ 90 := hup.2
    have hval : (c.val + 32).toNat = c.val.toNat + 32 := by
      rw [UInt32.toNat_add, show UInt32.toNat 32 = 32 from rfl]
      omega
    have hlower : Text.isSpace ⟨c.val + 32, Or.inl (by
        show (c.val + 32).toNat < 0xd800
        omega)⟩ = false := by
      refine isSpace_of_letter ?_ ?_
      · show 65 ≤ (c.val + 32).toNat
        omega
      · show (c.val + 32).toNat ≤ 122
        omega
    have hupper : Text.isSpace c = false :=
      isSpace_of_letter hlow (Nat.le_trans hhigh (by decide))
    exact hlower.trans hupper.symm
  next => rfl

/-- Lowering an ASCII text and stripping it are independent. -/
theorem strip_map_toLower (s : Text) :
    Text.strip (s.map Char.toLower) = (Text.strip s).map Char.toLower := by
  have hspace : Text.isSpace ∘ Char.toLower = Text.isSpace := funext isSpace_toLower
  rw [Text.strip, Text.lstrip, List.dropWhile_map, hspace, ← List.map_reverse, List.dropWhile_map,
    hspace, ← List.map_reverse]
  rfl

/-- The map that only knows ASCII. -/
def CaseMap.ascii : CaseMap where
  lower s := s.map Char.toLower
  lower_ascii _ _ := rfl
  lower_ne_nil s hs h := hs (List.map_eq_nil_iff.mp h)
  lower_mem s c hc hp := by
    obtain ⟨d, hd, hdc⟩ := List.mem_map.mp hc
    exact eq_of_toLower hdc hp ▸ hd

end Solverr.Lib
