import Solverr.Geo.Tags
import Solverr.Lib.Split

/-!
# The one spelling of a language tag

A `Tag` is a language, a script and a region in the case they are written in; a value
spells it when the part before the first dot or at sign is its text up to letter case and
the two separators. `_language_tag` finds the tag that a value spells and gives its text:
both say the same of the pieces between the separators, in lower case.
-/

namespace Solverr.Geo

open Solverr.Lib
open Solverr.Lib.Url (asciiLower asciiUpper)

/-! ## Letters -/

def IsLower (c : ℕ) : Prop := 'a'.toNat ≤ c ∧ c ≤ 'z'.toNat

def IsUpper (c : ℕ) : Prop := 'A'.toNat ≤ c ∧ c ≤ 'Z'.toNat

def IsDigit (c : ℕ) : Prop := '0'.toNat ≤ c ∧ c ≤ '9'.toNat

theorem isLower_iff (c : ℕ) : IsLower c ↔ 97 ≤ c ∧ c ≤ 122 := .rfl

theorem isUpper_iff (c : ℕ) : IsUpper c ↔ 65 ≤ c ∧ c ≤ 90 := .rfl

theorem isDigit_iff (c : ℕ) : IsDigit c ↔ 48 ≤ c ∧ c ≤ 57 := .rfl

/-- What `lower` does to a character. -/
theorem asciiLower_cases (c : ℕ) :
    65 ≤ c ∧ c ≤ 90 ∧ asciiLower c = c + 32 ∨ (c < 65 ∨ 90 < c) ∧ asciiLower c = c := by
  unfold asciiLower
  split
  next h => exact .inl ⟨h.1, h.2, rfl⟩
  next h =>
    rw [← IsUpper, isUpper_iff] at h
    omega

/-- What `upper` does to a character. -/
theorem asciiUpper_cases (c : ℕ) :
    97 ≤ c ∧ c ≤ 122 ∧ asciiUpper c + 32 = c ∨ (c < 97 ∨ 122 < c) ∧ asciiUpper c = c := by
  unfold asciiUpper
  split
  next h =>
    rw [← IsLower, isLower_iff] at h
    omega
  next h =>
    rw [← IsLower, isLower_iff] at h
    omega

theorem isAlpha_iff (c : ℕ) :
    Url.isAlpha c = true ↔ 97 ≤ c ∧ c ≤ 122 ∨ 65 ≤ c ∧ c ≤ 90 := by
  simp [Url.isAlpha]

theorem asciiDigit_isSome (c : ℕ) : (asciiDigit c).isSome = true ↔ IsDigit c := by
  unfold asciiDigit
  split
  next h => exact ⟨fun _ => h, fun _ => rfl⟩
  next h => exact ⟨fun hsome => (by cases hsome), fun hdigit => absurd hdigit h⟩

theorem asciiLower_of_lower {c : ℕ} (h : IsLower c) : asciiLower c = c := by
  rw [isLower_iff] at h
  have := asciiLower_cases c
  omega

theorem asciiUpper_of_upper {c : ℕ} (h : IsUpper c) : asciiUpper c = c := by
  rw [isUpper_iff] at h
  have := asciiUpper_cases c
  omega

theorem asciiUpper_of_digit {c : ℕ} (h : IsDigit c) : asciiUpper c = c := by
  rw [isDigit_iff] at h
  have := asciiUpper_cases c
  omega

theorem asciiLower_asciiUpper (c : ℕ) : asciiLower (asciiUpper c) = asciiLower c := by
  have := asciiLower_cases c
  have := asciiUpper_cases c
  have := asciiLower_cases (asciiUpper c)
  omega

theorem asciiUpper_asciiLower (c : ℕ) : asciiUpper (asciiLower c) = asciiUpper c := by
  have := asciiLower_cases c
  have := asciiUpper_cases c
  have := asciiUpper_cases (asciiLower c)
  omega

theorem asciiLower_idem (c : ℕ) : asciiLower (asciiLower c) = asciiLower c := by
  have := asciiLower_cases c
  have := asciiLower_cases (asciiLower c)
  omega

/-- A character is a letter in either case. -/
theorem isAlpha_asciiLower (c : ℕ) : Url.isAlpha (asciiLower c) = Url.isAlpha c := by
  rw [Bool.eq_iff_iff, isAlpha_iff, isAlpha_iff]
  have := asciiLower_cases c
  omega

theorem asciiDigit_asciiLower (c : ℕ) :
    (asciiDigit (asciiLower c)).isSome = (asciiDigit c).isSome := by
  rw [Bool.eq_iff_iff, asciiDigit_isSome, asciiDigit_isSome, isDigit_iff, isDigit_iff]
  have := asciiLower_cases c
  omega

theorem isLower_asciiLower {c : ℕ} (h : Url.isAlpha c = true) : IsLower (asciiLower c) := by
  rw [isAlpha_iff] at h
  rw [isLower_iff]
  have := asciiLower_cases c
  omega

theorem isUpper_asciiUpper {c : ℕ} (h : Url.isAlpha c = true) : IsUpper (asciiUpper c) := by
  rw [isAlpha_iff] at h
  rw [isUpper_iff]
  have := asciiUpper_cases c
  omega

theorem asciiLower_eq_dash (c : ℕ) : asciiLower c = '-'.toNat ↔ c = '-'.toNat := by
  show asciiLower c = 45 ↔ c = 45
  have := asciiLower_cases c
  omega

theorem asciiUpper_eq_dash (c : ℕ) : asciiUpper c = '-'.toNat ↔ c = '-'.toNat := by
  show asciiUpper c = 45 ↔ c = 45
  have := asciiUpper_cases c
  omega

/-! ## Tags -/

/-- A language of two or three lower-case letters, and maybe a script of four letters in
title case, and maybe a region of two upper-case letters or three digits. -/
@[ext] structure Tag where
  language : Str
  script : Option Str
  region : Option Str
  language_lower : (language.length = 2 ∨ language.length = 3) ∧ ∀ c ∈ language, IsLower c
  script_title : ∀ s ∈ script,
    ∃ first rest, s = first :: rest ∧ rest.length = 3 ∧ IsUpper first ∧ ∀ c ∈ rest, IsLower c
  region_upper : ∀ r ∈ region,
    (r.length = 2 ∧ ∀ c ∈ r, IsUpper c) ∨ (r.length = 3 ∧ ∀ c ∈ r, IsDigit c)

/-- What stands between the separators. -/
def Tag.pieces (t : Tag) : List Str := t.language :: (t.script.toList ++ t.region.toList)

/-- The tag, written with dashes. -/
def Tag.text (t : Tag) : Str := ['-'.toNat].intercalate t.pieces

/-- What the pattern matches, in any case. -/
structure Groups where
  language : Str
  script : Option Str
  region : Option Str
  is_language : isLanguage language = true
  is_script : ∀ s ∈ script, isScript s = true
  is_region : ∀ r ∈ region, isRegion r = true

def Groups.pieces (g : Groups) : List Str := g.language :: (g.script.toList ++ g.region.toList)

theorem isLetters_iff {low high : ℕ} {s : Str} : isLetters low high s = true ↔
    low ≤ s.length ∧ s.length ≤ high ∧ ∀ c ∈ s, Url.isAlpha c = true := by
  simp [isLetters, and_assoc]

theorem isRegion_iff {s : Str} : isRegion s = true ↔
    (s.length = 2 ∧ ∀ c ∈ s, Url.isAlpha c = true) ∨ (s.length = 3 ∧ ∀ c ∈ s, IsDigit c) := by
  rw [isRegion, Bool.or_eq_true, isLetters_iff, Bool.and_eq_true, beq_iff_eq, List.all_eq_true]
  have hlength : (2 ≤ s.length ∧ s.length ≤ 2 ∧ ∀ c ∈ s, Url.isAlpha c = true) ↔
      s.length = 2 ∧ ∀ c ∈ s, Url.isAlpha c = true := by
    rw [← and_assoc]
    refine and_congr_left fun _ => ?_
    omega
  rw [hlength]
  simp only [asciiDigit_isSome]

/-- The groups in the case they are written in. -/
def Groups.tag (g : Groups) : Tag where
  language := g.language.map asciiLower
  script := g.script.map asciiTitle
  region := g.region.map (List.map asciiUpper)
  language_lower := by
    obtain ⟨hlow, hhigh, hletters⟩ := isLetters_iff.mp g.is_language
    rw [List.length_map]
    refine ⟨by omega, ?_⟩
    intro c hc
    obtain ⟨d, hd, hdc⟩ := List.mem_map.mp hc
    exact hdc ▸ isLower_asciiLower (hletters d hd)
  script_title := by
    intro s hs
    obtain ⟨raw, hraw, hs⟩ := Option.map_eq_some_iff.mp hs
    obtain ⟨hlow, hhigh, hletters⟩ := isLetters_iff.mp (g.is_script raw hraw)
    cases raw with
    | nil => cases hlow
    | cons first rest =>
      rw [List.length_cons] at hlow hhigh
      refine ⟨_, _, hs.symm, by rw [List.length_map]; omega, ?_, ?_⟩
      · exact isUpper_asciiUpper (hletters first List.mem_cons_self)
      · intro c hc
        obtain ⟨d, hd, hdc⟩ := List.mem_map.mp hc
        exact hdc ▸ isLower_asciiLower (hletters d (List.mem_cons_of_mem _ hd))
  region_upper := by
    intro r hr
    obtain ⟨raw, hraw, hr⟩ := Option.map_eq_some_iff.mp hr
    rw [← hr, List.length_map]
    refine (isRegion_iff.mp (g.is_region raw hraw)).imp ?_ ?_
    · intro hletters
      refine ⟨hletters.1, fun c hc => ?_⟩
      obtain ⟨d, hd, hdc⟩ := List.mem_map.mp hc
      exact hdc ▸ isUpper_asciiUpper (hletters.2 d hd)
    · intro hdigits
      refine ⟨hdigits.1, fun c hc => ?_⟩
      obtain ⟨d, hd, hdc⟩ := List.mem_map.mp hc
      rw [asciiUpper_of_digit (hdigits.2 d hd)] at hdc
      exact hdc ▸ hdigits.2 d hd

/-- No part is a script and a region: they differ in length. -/
theorem not_isScript {s : Str} (h : isRegion s = true) : isScript s = false := by
  rw [Bool.eq_false_iff]
  intro hscript
  obtain ⟨hlow, -, -⟩ := isLetters_iff.mp hscript
  rcases isRegion_iff.mp h with hregion | hregion
  · omega
  · omega

theorem dropNewline_of_not_mem {s : Str} (h : 10 ∉ s) : dropNewline s = s := by
  unfold dropNewline
  rw [if_neg]
  intro hlast
  exact h (List.mem_of_getLast? hlast)

/-- The pattern on a line, by the pieces between the dashes. -/
theorem languageGroups_of_pieces {s : Str} (hline : 10 ∉ s) (g : Groups)
    (hpieces : s.splitOn '-'.toNat = g.pieces) :
    languageGroups s = some (g.language, g.script, g.region) := by
  obtain ⟨language, script, region, hlanguage, hscript, hregion⟩ := g
  rw [languageGroups, dropNewline_of_not_mem hline, hpieces]
  cases script with
  | none =>
    cases region with
    | none => simp [Groups.pieces, hlanguage]
    | some region =>
      have hregion := hregion region rfl
      simp [Groups.pieces, hlanguage, hregion, not_isScript hregion]
  | some script =>
    have hscript := hscript script rfl
    cases region with
    | none => simp [Groups.pieces, hlanguage, hscript]
    | some region => simp [Groups.pieces, hlanguage, hscript, hregion region rfl]

/-- What the pattern matched is what stands between the dashes. -/
theorem languageGroups_pieces {s : Str} (hline : 10 ∉ s) {groups : Str × Option Str × Option Str}
    (h : languageGroups s = some groups) :
    ∃ g : Groups, groups = (g.language, g.script, g.region) ∧ s.splitOn '-'.toNat = g.pieces := by
  rw [languageGroups, dropNewline_of_not_mem hline] at h
  -- one case for each number of pieces
  split at h
  next language hpieces =>
    split at h
    next hlanguage =>
      refine ⟨⟨language, none, none, hlanguage, ?_, ?_⟩, (Option.some.inj h).symm, hpieces⟩
      · exact fun _ hmem => nomatch hmem
      · exact fun _ hmem => nomatch hmem
    next => cases h
  next language part hpieces =>
    split at h
    next => cases h
    next hlanguage =>
      rw [Bool.not_eq_true, Bool.not_eq_false'] at hlanguage
      split at h
      next hscript =>
        refine ⟨⟨language, some part, none, hlanguage, ?_, ?_⟩, (Option.some.inj h).symm, hpieces⟩
        · exact fun _ hmem => Option.some.inj hmem ▸ hscript
        · exact fun _ hmem => nomatch hmem
      next =>
        split at h
        next hregion =>
          refine ⟨⟨language, none, some part, hlanguage, ?_, ?_⟩, (Option.some.inj h).symm,
            hpieces⟩
          · exact fun _ hmem => nomatch hmem
          · exact fun _ hmem => Option.some.inj hmem ▸ hregion
        next => cases h
  next language script region hpieces =>
    split at h
    next hall =>
      rw [Bool.and_eq_true, Bool.and_eq_true] at hall
      refine ⟨⟨language, some script, some region, hall.1.1, ?_, ?_⟩, (Option.some.inj h).symm,
        hpieces⟩
      · exact fun _ hmem => Option.some.inj hmem ▸ hall.1.2
      · exact fun _ hmem => Option.some.inj hmem ▸ hall.2
    next => cases h
  next => cases h

/-! ## Letter case -/

theorem isLetters_lower (low high : ℕ) (s : Str) :
    isLetters low high (s.map asciiLower) = isLetters low high s := by
  have halpha : Url.isAlpha ∘ asciiLower = Url.isAlpha := funext isAlpha_asciiLower
  rw [isLetters, isLetters, List.length_map, List.all_map, halpha]

theorem isRegion_lower (s : Str) : isRegion (s.map asciiLower) = isRegion s := by
  have hdigit : ((fun c => (asciiDigit c).isSome) ∘ asciiLower) = fun c => (asciiDigit c).isSome :=
    funext asciiDigit_asciiLower
  rw [isRegion, isRegion, isLetters_lower, List.length_map, List.all_map, hdigit]

theorem lower_lower (s : Str) : (s.map asciiLower).map asciiLower = s.map asciiLower := by
  have hcomp : asciiLower ∘ asciiLower = asciiLower := funext asciiLower_idem
  rw [List.map_map, hcomp]

theorem upper_lower (s : Str) : (s.map asciiLower).map asciiUpper = s.map asciiUpper := by
  have hcomp : asciiUpper ∘ asciiLower = asciiUpper := funext asciiUpper_asciiLower
  rw [List.map_map, hcomp]

theorem lower_upper (s : Str) : (s.map asciiUpper).map asciiLower = s.map asciiLower := by
  have hcomp : asciiLower ∘ asciiUpper = asciiLower := funext asciiLower_asciiUpper
  rw [List.map_map, hcomp]

theorem title_lower (s : Str) : asciiTitle (s.map asciiLower) = asciiTitle s := by
  cases s with
  | nil => rfl
  | cons c s =>
    show asciiUpper (asciiLower c) :: (s.map asciiLower).map asciiLower = _
    rw [asciiUpper_asciiLower, lower_lower]
    rfl

theorem lower_title (s : Str) : (asciiTitle s).map asciiLower = s.map asciiLower := by
  cases s with
  | nil => rfl
  | cons c s =>
    show asciiLower (asciiUpper c) :: (s.map asciiLower).map asciiLower = _
    rw [asciiLower_asciiUpper, lower_lower]
    rfl

/-- The parts of a tag are what they are made. -/
theorem Tag.lower_language (t : Tag) : t.language.map asciiLower = t.language := by
  conv_rhs => rw [← List.map_id t.language]
  exact List.map_congr_left fun c hc => asciiLower_of_lower (t.language_lower.2 c hc)

theorem Tag.title_script (t : Tag) : t.script.map asciiTitle = t.script := by
  cases hscript : t.script with
  | none => rfl
  | some s =>
    obtain ⟨first, rest, hs, -, hfirst, hrest⟩ := t.script_title s hscript
    rw [hs, Option.map_some, asciiTitle, asciiUpper_of_upper hfirst]
    conv_rhs => rw [← List.map_id rest]
    rw [List.map_congr_left fun c hc => asciiLower_of_lower (hrest c hc)]
    rfl

theorem Tag.upper_region (t : Tag) : t.region.map (List.map asciiUpper) = t.region := by
  cases hregion : t.region with
  | none => rfl
  | some r =>
    have hfixed : ∀ c ∈ r, asciiUpper c = id c := by
      intro c hc
      rcases t.region_upper r hregion with hletters | hdigits
      · exact asciiUpper_of_upper (hletters.2 c hc)
      · exact asciiUpper_of_digit (hdigits.2 c hc)
    rw [Option.map_some, List.map_congr_left hfixed, List.map_id]

/-- The pattern matches the parts of a tag. -/
def Tag.groups (t : Tag) : Groups where
  language := t.language
  script := t.script
  region := t.region
  is_language := by
    refine isLetters_iff.mpr ⟨by have := t.language_lower.1; omega,
      by have := t.language_lower.1; omega, fun c hc => ?_⟩
    exact (isAlpha_iff c).mpr (.inl (t.language_lower.2 c hc))
  is_script := by
    intro s hs
    obtain ⟨first, rest, hs, hrest, hfirst, hlower⟩ := t.script_title s hs
    rw [hs]
    refine isLetters_iff.mpr ⟨by rw [List.length_cons]; omega, by rw [List.length_cons]; omega, ?_⟩
    intro c hc
    rcases List.mem_cons.mp hc with hc | hc
    · exact (isAlpha_iff c).mpr (.inr (hc ▸ hfirst))
    · exact (isAlpha_iff c).mpr (.inl (hlower c hc))
  is_region := by
    intro r hr
    refine isRegion_iff.mpr ((t.region_upper r hr).imp_left fun hletters => ⟨hletters.1, ?_⟩)
    exact fun c hc => (isAlpha_iff c).mpr (.inr (hletters.2 c hc))

theorem Groups.lower_tag (g : Groups) :
    g.tag.pieces.map (List.map asciiLower) = g.pieces.map (List.map asciiLower) := by
  have hscript : (List.map asciiLower ∘ asciiTitle) = List.map asciiLower := funext lower_title
  have hregion : (List.map asciiLower ∘ List.map asciiUpper) = List.map asciiLower :=
    funext lower_upper
  rw [Tag.pieces, Groups.pieces, Groups.tag, List.map_cons, List.map_cons, lower_lower,
    List.map_append, List.map_append, ← Option.toList_map, ← Option.toList_map,
    ← Option.toList_map, ← Option.toList_map, Option.map_map, Option.map_map, hscript, hregion]

/-! ## Spellings -/

/-- `tag.replace('_', '-')` -/
def dashed (s : Str) : Str := s.map fun c => if c = '_'.toNat then '-'.toNat else c

/-- What stands before the codeset and the modifier. -/
def stem (raw : Str) : Str := raw.takeWhile fun c => c ≠ '.'.toNat ∧ c ≠ '@'.toNat

/-- The same letters in any case, with either separator between the parts. -/
def Spells (s : Str) (t : Tag) : Prop := (dashed s).map asciiLower = t.text.map asciiLower

/-- A part is letters or digits. -/
theorem Groups.chars (g : Groups) :
    ∀ p ∈ g.pieces, ∀ c ∈ p, Url.isAlpha c = true ∨ IsDigit c := by
  intro p hp c hc
  rcases List.mem_cons.mp hp with hp | hp
  · rw [hp] at hc
    exact .inl ((isLetters_iff.mp g.is_language).2.2 c hc)
  rcases List.mem_append.mp hp with hp | hp
  · have hscript := g.is_script p (Option.mem_toList.mp hp)
    exact .inl ((isLetters_iff.mp hscript).2.2 c hc)
  · exact (isRegion_iff.mp (g.is_region p (Option.mem_toList.mp hp))).imp
      (fun hletters => hletters.2 c hc) (fun hdigits => hdigits.2 c hc)

/-- No part has a dash. -/
theorem Groups.no_dash (g : Groups) : ∀ p ∈ g.pieces, '-'.toNat ∉ p := by
  intro p hp hdash
  have hchar := g.chars p hp _ hdash
  rw [isAlpha_iff, isDigit_iff, show '-'.toNat = 45 from rfl] at hchar
  omega

/-- Joined parts are letters, digits and dashes. -/
theorem Groups.text_chars (g : Groups) :
    ∀ c ∈ ['-'.toNat].intercalate g.pieces, c = 45 ∨ Url.isAlpha c = true ∨ IsDigit c := by
  intro c hc
  by_contra hnot
  obtain ⟨hdash, hchar⟩ := not_or.mp hnot
  refine not_mem_intercalate ?_ ?_ hc
  · exact fun hmem => hdash (List.mem_singleton.mp hmem)
  · exact fun p hp hmem => hchar (g.chars p hp c hmem)

theorem join_splitOn (s : Str) : ['-'.toNat].intercalate (s.splitOn '-'.toNat) = s :=
  List.intercalate_splitOn _

theorem Tag.splitOn_text (t : Tag) : t.text.splitOn '-'.toNat = t.pieces :=
  List.splitOn_intercalate _ t.groups.no_dash (List.cons_ne_nil _ _)

/-- Pieces that are an optional one, up to letter case. -/
theorem eq_toList_of_map {pieces : List Str} {o : Option Str}
    (h : pieces.map (List.map asciiLower) = (o.map (List.map asciiLower)).toList) :
    ∃ o' : Option Str, pieces = o'.toList ∧
      o'.map (List.map asciiLower) = o.map (List.map asciiLower) := by
  cases o with
  | none => exact ⟨none, List.map_eq_nil_iff.mp h, rfl⟩
  | some s =>
    obtain ⟨p, rfl, hp⟩ := List.map_eq_singleton_iff.mp h
    exact ⟨some p, rfl, congrArg some hp⟩

/-- What spells a tag is matched, and its groups are the tag's in some case. -/
theorem spells_iff {s : Str} {t : Tag} :
    Spells s t ↔ ∃ g : Groups, (dashed s).splitOn '-'.toNat = g.pieces ∧ g.tag = t := by
  constructor
  · intro h
    have hsplit := congrArg (List.splitOn '-'.toNat) h
    rw [splitOn_map asciiLower_eq_dash, splitOn_map asciiLower_eq_dash, t.splitOn_text, Tag.pieces,
      List.map_cons, List.map_append, ← Option.toList_map, ← Option.toList_map] at hsplit
    -- the pieces of `s` are a language and what stands for a script and for a region
    obtain ⟨language, rest, hpieces, hlanguage, hrest⟩ := List.map_eq_cons_iff.mp hsplit
    obtain ⟨scripts, regions, hrest, hscripts, hregions⟩ := List.map_eq_append_iff.mp hrest
    obtain ⟨script, hscripts, hscript⟩ := eq_toList_of_map hscripts
    obtain ⟨region, hregions, hregion⟩ := eq_toList_of_map hregions
    have hmem : ∀ {o o' : Option Str} {p : Str},
        o'.map (List.map asciiLower) = o.map (List.map asciiLower) → p ∈ o' →
          ∃ q ∈ o, q.map asciiLower = p.map asciiLower := by
      intro o o' p hlower hp
      rw [Option.mem_def.mp hp, Option.map_some] at hlower
      exact Option.map_eq_some_iff.mp hlower.symm
    let g : Groups :=
      { language, script, region
        is_language := by
          rw [isLanguage, ← isLetters_lower, hlanguage, isLetters_lower]
          exact t.groups.is_language
        is_script := by
          intro p hp
          obtain ⟨q, hq, hlower⟩ := hmem hscript hp
          rw [isScript, ← isLetters_lower, ← hlower, isLetters_lower]
          exact t.groups.is_script q hq
        is_region := by
          intro p hp
          obtain ⟨q, hq, hlower⟩ := hmem hregion hp
          rw [← isRegion_lower, ← hlower, isRegion_lower]
          exact t.groups.is_region q hq }
    refine ⟨g, ?_, Tag.ext ?_ ?_ ?_⟩
    · rw [hpieces, hrest, hscripts, hregions]
      rfl
    · exact hlanguage.trans t.lower_language
    · have htitle : (asciiTitle ∘ List.map asciiLower) = asciiTitle := funext title_lower
      rw [← t.title_script, ← htitle, ← Option.map_map, ← hscript, Option.map_map, htitle]
      rfl
    · have hupper : (List.map asciiUpper ∘ List.map asciiLower) = List.map asciiUpper :=
        funext upper_lower
      rw [← t.upper_region, ← hupper, ← Option.map_map, ← hregion, Option.map_map, hupper]
      rfl
  · intro h
    obtain ⟨g, hpieces, htag⟩ := h
    -- either text is its pieces joined, and they agree in lower case
    rw [Spells, ← htag, ← join_splitOn (dashed s), hpieces, Tag.text,
      map_intercalate, map_intercalate, g.lower_tag]

/-- The characters of a spelling: letters, digits and the two separators. -/
theorem Spells.chars {s : Str} {t : Tag} (h : Spells s t) :
    ∀ c ∈ s, c ≠ 10 ∧ c ≠ 46 ∧ c ≠ 64 ∧ c < 128 := by
  obtain ⟨g, hpieces, -⟩ := spells_iff.mp h
  intro c hc
  have hmem : (if c = '_'.toNat then '-'.toNat else c) ∈ dashed s := List.mem_map_of_mem hc
  rw [← join_splitOn (dashed s), hpieces] at hmem
  have hchar := g.text_chars _ hmem
  rw [isAlpha_iff, isDigit_iff, show '-'.toNat = 45 from rfl, show '_'.toNat = 95 from rfl] at hchar
  split at hchar
  next => omega
  next => omega

/-- A tag is a spelling of itself. -/
theorem Tag.spells_text (t : Tag) : Spells t.text t := by
  have hdashed : dashed t.text = t.text := by
    -- there is no underscore to replace
    conv_rhs => rw [← List.map_id t.text]
    refine List.map_congr_left fun c hc => if_neg ?_
    have hchar := t.groups.text_chars c hc
    rw [isAlpha_iff, isDigit_iff] at hchar
    show c ≠ 95
    omega
  rw [Spells, hdashed]

/-- What may follow a spelling: a codeset, a modifier, or both in either order. -/
def Suffix (s : Str) : Prop := ∀ c ∈ s.head?, c = '.'.toNat ∨ c = '@'.toNat

theorem stem_append {s suffix : Str} {t : Tag} (h : Spells s t) (hsuffix : Suffix suffix) :
    stem (s ++ suffix) = s := by
  have hbefore : ∀ c ∈ s, decide (c ≠ '.'.toNat ∧ c ≠ '@'.toNat) = true := by
    intro c hc
    obtain ⟨-, hdot, hat, -⟩ := h.chars c hc
    exact decide_eq_true ⟨hdot, hat⟩
  rw [stem, List.takeWhile_append_of_pos hbefore]
  cases suffix with
  | nil => rw [List.takeWhile_nil, List.append_nil]
  | cons c rest =>
    have hc := hsuffix c rfl
    rw [List.takeWhile_cons_of_neg (by simp; tauto), List.append_nil]

/-- The two cuts. -/
theorem cut_cut (raw : Str) : (cut '@'.toNat (cut '.'.toNat raw).1).1 = stem raw := by
  rw [cut_fst, cut_fst, List.takeWhile_takeWhile, stem]
  congr 1
  funext c
  rw [Bool.eq_iff_iff, decide_eq_true_iff, decide_eq_true_iff]
  simp [and_comm]

/-- What spells a tag is not the name of the locale that has no language. -/
theorem Spells.upper_ne {s : Str} {t : Tag} (h : Spells s t) (u : Unicode) {name : Str}
    (hdash : '-'.toNat ∉ name) (hlength : name.length ≠ 2 ∧ name.length ≠ 3) :
    u.upper (dashed s) ≠ name := by
  intro hupper
  have hascii : ∀ c ∈ dashed s, c < 128 := by
    intro c hc
    obtain ⟨d, hd, hdc⟩ := List.mem_map.mp hc
    have hchar := (h.chars d hd).2.2.2
    rw [← hdc, show '-'.toNat = 45 from rfl]
    split <;> omega
  rw [u.upper_ascii _ hascii] at hupper
  -- without a dash it is a language alone
  have hwhole : '-'.toNat ∉ dashed s := by
    intro hmem
    rw [← hupper] at hdash
    refine hdash (List.mem_map.mpr ⟨_, hmem, (asciiUpper_eq_dash _).mpr rfl⟩)
  obtain ⟨g, hpieces, -⟩ := spells_iff.mp h
  rw [List.splitOn_eq_singleton hwhole, Groups.pieces] at hpieces
  have hlanguage := (List.cons.inj hpieces).1
  obtain ⟨hlow, hhigh, -⟩ := isLetters_iff.mp g.is_language
  rw [← hlanguage, ← List.length_map (f := asciiUpper), hupper] at hlow hhigh
  omega

/-- `_language_tag` finds the tag that is spelled, and says none when there is none. -/
theorem languageTag_eq_some_iff (u : Unicode) {raw text : Str} (hline : 10 ∉ stem raw) :
    languageTag u raw = some text ↔ ∃ t : Tag, Spells (stem raw) t ∧ t.text = text := by
  have hdashed : 10 ∉ dashed (stem raw) := by
    intro hmem
    obtain ⟨c, hc, hten⟩ := List.mem_map.mp hmem
    rw [show '-'.toNat = 45 from rfl] at hten
    split at hten
    next => omega
    next => exact hline (hten ▸ hc)
  rw [languageTag, cut_cut, ← dashed]
  constructor
  · intro h
    split at h
    next => cases h
    next =>
      obtain ⟨groups, hgroups, htext⟩ := Option.map_eq_some_iff.mp h
      obtain ⟨g, hg, hpieces⟩ := languageGroups_pieces hdashed hgroups
      refine ⟨g.tag, spells_iff.mpr ⟨g, hpieces, rfl⟩, ?_⟩
      rw [← htext, hg]
      rfl
  · intro h
    obtain ⟨t, hspells, htext⟩ := h
    rw [if_neg]
    · obtain ⟨g, hpieces, htag⟩ := spells_iff.mp hspells
      rw [languageGroups_of_pieces hdashed g hpieces, ← htext, ← htag]
      rfl
    · -- no tag is spelled `C` or `POSIX`
      intro hname
      rcases hname with hname | hname
      · exact hspells.upper_ne u (by decide) (by decide) hname
      · exact hspells.upper_ne u (by decide) (by decide) hname

theorem not_mem_stem {raw : Str} (h : 10 ∉ raw) : 10 ∉ stem raw :=
  fun hmem => h ((List.takeWhile_prefix _).subset hmem)

/-- A region of letters is read as it stands, one of digits is no country. -/
theorem Tag.country (u : Unicode) {t : Tag} {region : Str} (h : t.region = some region) :
    (if region.length = 2 && region.all u.isAlpha then some (u.upper region) else none) =
      (some region).filter fun r => r.all Url.isAlpha := by
  rcases t.region_upper region h with ⟨hlength, hupper⟩ | ⟨hlength, hdigits⟩
  · have hascii : ∀ c ∈ region, c < 128 := by
      intro c hc
      have hletter := hupper c hc
      rw [isUpper_iff] at hletter
      omega
    have hletters : ∀ c ∈ region, Url.isAlpha c = true :=
      fun c hc => (isAlpha_iff c).mpr (.inr (hupper c hc))
    have halpha : region.all u.isAlpha = true := by
      rw [List.all_eq_true]
      intro c hc
      rw [u.isAlpha_ascii c (hascii c hc)]
      exact hletters c hc
    have hsame : region.map asciiUpper = region := by
      conv_rhs => rw [← List.map_id region]
      exact List.map_congr_left fun c hc => asciiUpper_of_upper (hupper c hc)
    rw [halpha, hlength, u.upper_ascii _ hascii, hsame, Option.filter_some,
      List.all_eq_true.mpr hletters]
    rfl
  · -- three digits are neither two characters nor letters
    have hnone : region.all Url.isAlpha = false := by
      cases region with
      | nil => cases hlength
      | cons c rest =>
        have hdigit := hdigits c List.mem_cons_self
        have hnot : Url.isAlpha c = false := by
          rw [Bool.eq_false_iff]
          intro halpha
          rw [isAlpha_iff] at halpha
          rw [isDigit_iff] at hdigit
          omega
        rw [List.all_cons, hnot, Bool.false_and]
    rw [Option.filter_some, hnone, hlength]
    rfl

/-- Every spelling of a tag, with anything behind it, gives the tag. -/
theorem languageTag_spelling (u : Unicode) {t : Tag} {s suffix : Str} (h : Spells s t)
    (hsuffix : Suffix suffix) : languageTag u (s ++ suffix) = some t.text := by
  have hstem := stem_append h hsuffix
  refine (languageTag_eq_some_iff u ?_).mpr ⟨t, ?_, rfl⟩
  · rw [hstem]
    exact fun hmem => (h.chars 10 hmem).1 rfl
  · rw [hstem]
    exact h

/-- `_region_of` reads the last part, which is a country only if it is two letters. -/
theorem regionOf_text (u : Unicode) (t : Tag) :
    regionOf u t.text = t.region.filter fun r => r.all Url.isAlpha := by
  rw [regionOf, t.splitOn_text, Tag.pieces]
  cases hregion : t.region with
  | none =>
    cases hscript : t.script with
    | none => rfl
    | some script =>
      -- a script is read as a region, but is too long for a country
      obtain ⟨first, rest, hs, hrest, -, -⟩ := t.script_title script hscript
      have hlength : script.length ≠ 2 := by
        rw [hs, List.length_cons]
        omega
      simp [hlength]
  | some region =>
    cases t.script with
    | none => exact Tag.country u hregion
    | some script => exact Tag.country u hregion

/-- **Language tags are canonical**: what is accepted comes out as the text of a `Tag`; a
text that came out comes out again as itself; every spelling of a tag, with any suffix after
a dot or an at sign, comes out as that tag; what spells none is refused; and the region read
off a tag is its own, where that is of letters. -/
theorem language_tag_canonical (u : Unicode) :
    (∀ raw, 10 ∉ raw → languageTag u raw = none ∨ ∃ t : Tag, languageTag u raw = some t.text) ∧
    (∀ raw tag, 10 ∉ raw → languageTag u raw = some tag → languageTag u tag = some tag) ∧
    (∀ (t : Tag) (s suffix : Str), Spells s t → Suffix suffix →
      languageTag u (s ++ suffix) = some t.text) ∧
    (∀ raw, 10 ∉ raw → (∀ t, ¬ Spells (stem raw) t) → languageTag u raw = none) ∧
    ∀ t : Tag, regionOf u t.text = t.region.filter fun r => r.all Url.isAlpha := by
  refine ⟨?_, ?_, fun t s suffix => languageTag_spelling u, ?_, regionOf_text u⟩
  · intro raw hline
    cases htag : languageTag u raw with
    | none => exact .inl rfl
    | some tag =>
      obtain ⟨t, -, htext⟩ := (languageTag_eq_some_iff u (not_mem_stem hline)).mp htag
      exact .inr ⟨t, congrArg some htext.symm⟩
  · intro raw tag hline htag
    obtain ⟨t, -, htext⟩ := (languageTag_eq_some_iff u (not_mem_stem hline)).mp htag
    have hempty : Suffix [] := fun _ hc => nomatch hc
    have hself := languageTag_spelling u t.spells_text hempty
    rw [List.append_nil] at hself
    exact htext ▸ hself
  · intro raw hline hnone
    rw [Option.eq_none_iff_forall_ne_some]
    intro tag htag
    obtain ⟨t, hspells, -⟩ := (languageTag_eq_some_iff u (not_mem_stem hline)).mp htag
    exact hnone t hspells

example : languageTag .ascii (.of "zh_hans_cn.UTF-8@x".toList) =
    some (.of "zh-Hans-CN".toList) := by decide

end Solverr.Geo
