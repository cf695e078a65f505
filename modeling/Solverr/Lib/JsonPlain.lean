import Solverr.Lib.JsonTrip

/-!
# What is written as JSON, and what is read

`dumps` writes printable ASCII (`printable_dumps`). What `loads` returns is `Plain`, so it
comes back from a second trip (`dumps_of_loads`): of text that was itself decoded, which has
no surrogates, since one in the text and one in an escape next to it would be a pair that
`loads` does not join.
-/

namespace Solverr.Lib

namespace JsonText

variable {fl : Floats}

/-! ## What is written is ASCII -/

/-- Printable ASCII. -/
def Printable (s : Str) : Prop := ∀ c ∈ s, 0x20 ≤ c ∧ c ≤ 0x7E

theorem printable_append {s t : Str} (hs : Printable s) (ht : Printable t) :
    Printable (s ++ t) := by
  intro c hc
  rcases List.mem_append.mp hc with hc | hc
  · exact hs c hc
  · exact ht c hc

theorem printable_cons {c : ℕ} {s : Str} (hc : 0x20 ≤ c ∧ c ≤ 0x7E) (hs : Printable s) :
    Printable (c :: s) :=
  List.forall_mem_cons.mpr ⟨hc, hs⟩

theorem printable_nil : Printable [] := List.forall_mem_nil _

theorem printable_hex4 {u : ℕ} (h : u < 0x10000) : Printable (hex4 u) := by
  have hdigit : ∀ n < 16, 0x20 ≤ hexDigit n ∧ hexDigit n ≤ 0x7E := by decide
  intro c hc
  simp only [hex4, List.mem_cons, List.not_mem_nil, or_false] at hc
  rcases hc with rfl | rfl | rfl | rfl
  · exact hdigit _ (by omega)
  · exact hdigit _ (by omega)
  · exact hdigit _ (by omega)
  · exact hdigit _ (by omega)

theorem printable_escaped {c : ℕ} (hc : c < 0x110000) : Printable (escaped c) := by
  have hunit : ∀ {u : ℕ}, u < 0x10000 → Printable (0x5C :: 0x75 :: hex4 u) :=
    fun hu => printable_cons (by decide) (printable_cons (by decide) (printable_hex4 hu))
  unfold escaped
  cases hletter : letterOf c with
  | some e =>
    have hall : ∀ p ∈ letters, 0x20 ≤ p.2 ∧ p.2 ≤ 0x7E := by decide
    obtain ⟨p, hp, rfl⟩ := Option.map_eq_some_iff.mp hletter
    have he := hall p (List.mem_of_find?_eq_some hp)
    exact printable_cons (by decide) (printable_cons he printable_nil)
  | none =>
    dsimp only
    split
    next hprint => exact printable_cons hprint printable_nil
    next =>
      split
      next hsmall => exact hunit hsmall
      next hlarge =>
        have hhigh : highOf c < 0x10000 := by
          unfold highOf
          omega
        have hlow : lowOf c < 0x10000 := by
          unfold lowOf
          omega
        exact printable_append (hunit hhigh) (hunit hlow)

theorem printable_quoted {s : Str} (h : ∀ c ∈ s, c < 0x110000) : Printable (quoted s) := by
  refine printable_cons (by decide) (printable_append ?_ (printable_cons (by decide) printable_nil))
  intro c hc
  obtain ⟨d, hd, hcd⟩ := List.mem_flatMap.mp hc
  exact printable_escaped (h d hd) c hcd

theorem printable_digitText {ds : List ℕ} (h : ∀ d ∈ ds, d < 10) :
    Printable (Numeral.digitText ds) := by
  intro c hc
  obtain ⟨d, hd, rfl⟩ := List.mem_map.mp hc
  have := h d hd
  omega

theorem printable_numeral {l : Numeral} (h : l.Valid) : Printable l.text := by
  refine printable_append ?_ (printable_append (printable_digitText h.digits)
    (printable_append ?_ ?_))
  · cases l.negative with
    | true => exact printable_cons (by decide) printable_nil
    | false => exact printable_nil
  · unfold Numeral.fractionText
    split
    next => exact printable_nil
    next => exact printable_cons (by decide) (printable_digitText h.fraction)
  · rcases he : l.exponent with - | ⟨- | minus, ds⟩
    · exact printable_nil
    · exact printable_cons (by decide) (printable_digitText (h.exponent _ he).2)
    · refine printable_cons (by decide) (printable_cons ?_
        (printable_digitText (h.exponent _ he).2))
      cases minus <;> decide

theorem printable_doubleText (fl : Floats) (d : Double) : Printable (doubleText fl d) := by
  obtain ⟨-, -, -, hnan, hinf, hneg, -⟩ := words_eq
  unfold Printable
  cases d with
  | nan =>
    rw [doubleText, hnan]
    decide
  | infinity negative =>
    cases negative with
    | true =>
      rw [doubleText, if_pos rfl, hneg]
      decide
    | false =>
      rw [doubleText, if_neg (by decide), hinf]
      decide
  | negativeZero =>
    rw [doubleText]
    decide
  | finite q => exact printable_numeral (fl.valid q)

/-- The separators and the closing brackets. -/
theorem printable_separators : Printable (word ", ") ∧ Printable (word ": ") ∧
    Printable [0x5D] ∧ Printable [0x7D] ∧ Printable (word "[]") ∧
    Printable (word "\x7b\x7d") := by
  obtain ⟨-, -, -, -, -, -, hlist, hobj, hcomma, hcolon⟩ := words_eq
  unfold Printable
  rw [hlist, hobj, hcomma, hcolon]
  decide

/-- **`json.dumps` writes printable ASCII**: no newline, and nothing an encoding could fail
on. -/
theorem printable_dumps (fl : Floats) {v : Json} (h : Plain v) : Printable (dumps fl v) := by
  obtain ⟨hnull, htrue, hfalse, -⟩ := words_eq
  obtain ⟨hcomma, hcolon, hbracket, hbrace, hlist, hobj⟩ := printable_separators
  induction h with
  | null =>
    unfold Printable
    rw [dumps, hnull]
    decide
  | bool b =>
    unfold Printable
    cases b with
    | true =>
      rw [dumps, htrue]
      decide
    | false =>
      rw [dumps, hfalse]
      decide
  | int _ => exact printable_numeral (Numeral.valid_ofInt _)
  | double d => exact printable_doubleText fl d
  | str paired =>
    rw [dumps]
    exact printable_quoted paired.points
  | @list items _ ih =>
    have hitems : ∀ items : List Json, (∀ v ∈ items, Printable (dumps fl v)) →
        Printable (dumpsItems fl items) := by
      intro items
      induction items with
      | nil => exact fun _ => printable_nil
      | cons v items ih =>
        intro h
        exact printable_append hcomma (printable_append (h v (List.mem_cons_self ..))
          (ih fun w hw => h w (List.mem_cons_of_mem v hw)))
    cases items with
    | nil => exact hlist
    | cons v items =>
      exact printable_cons (by decide) (printable_append (ih v (List.mem_cons_self ..))
        (printable_append (hitems items fun w hw => ih w (List.mem_cons_of_mem v hw)) hbracket))
  | @obj fields _ keys _ ih =>
    have hfields : ∀ fields : List (Str × Json), (∀ f ∈ fields, Paired f.1) →
        (∀ f ∈ fields, Printable (dumps fl f.2)) → Printable (dumpsFields fl fields) := by
      intro fields
      induction fields with
      | nil => exact fun _ _ => printable_nil
      | cons f fields ih =>
        intro hkeys h
        exact printable_append hcomma (printable_append
          (printable_quoted (hkeys f (List.mem_cons_self ..)).points) (printable_append hcolon
            (printable_append (h f (List.mem_cons_self ..))
              (ih (fun g hg => hkeys g (List.mem_cons_of_mem f hg))
                fun g hg => h g (List.mem_cons_of_mem f hg)))))
    cases fields with
    | nil => exact hobj
    | cons f fields =>
      exact printable_cons (by decide) (printable_append
        (printable_quoted (keys f (List.mem_cons_self ..)).points) (printable_append hcolon
          (printable_append (ih f (List.mem_cons_self ..)) (printable_append
            (hfields fields (fun g hg => keys g (List.mem_cons_of_mem f hg))
              fun g hg => ih g (List.mem_cons_of_mem f hg)) hbrace))))

/-! ## What is read -/

/-- What is left of decoded text is decoded text. -/
theorem Encodable.suffix {s t : Str} (h : s.Encodable) (ht : t <:+ s) : t.Encodable :=
  fun c hc => h c (ht.subset hc)

theorem after_suffix {w s t : Str} (h : after w s = some t) : t <:+ s := by
  unfold after at h
  split at h
  · exact Option.some.inj h ▸ List.drop_suffix _ _
  · cases h

theorem skipSpace_suffix (s : Str) : skipSpace s <:+ s := List.dropWhile_suffix _

theorem hexValue_lt {c d : ℕ} (h : hexValue c = some d) : d < 16 := by
  unfold hexValue at h
  repeat' split at h
  all_goals
    try cases h
    try omega

theorem hex4?_some {s r : Str} {u : ℕ} (h : hex4? s = some (u, r)) : u < 0x10000 ∧ r <:+ s := by
  unfold hex4? at h
  split at h
  next a b c d t =>
    split at h
    next a' b' c' d' ha hb hc hd =>
      obtain ⟨rfl, rfl⟩ := Prod.mk.inj (Option.some.inj h)
      have := hexValue_lt ha
      have := hexValue_lt hb
      have := hexValue_lt hc
      have := hexValue_lt hd
      exact ⟨by omega, ⟨[a, b, c, d], rfl⟩⟩
    next => cases h
  next => cases h

theorem join_bounds {high low : ℕ} (hhigh : isHigh high = true) (hlow : isLow low = true) :
    0x10000 ≤ join high low ∧ join high low < 0x110000 := by
  simp only [isHigh, isLow, Bool.and_eq_true, decide_eq_true_eq] at hhigh hlow
  unfold join
  omega

/-- The text starts with the escape of the code unit. -/
def StartsUnit (u : ℕ) (s : Str) : Prop :=
  ∃ t r, after [0x5C, 0x75] s = some t ∧ hex4? t = some (u, r)

/-- What a step of the string scanner reads: a code point, and after a high surrogate nothing
it is joined with; a low one stands in the text as an escape. -/
structure ReadsChar (s : Str) (c : ℕ) (r : Str) : Prop where
  point : c < 0x110000
  rest : r <:+ s
  follows : Follows c r
  escape : isLow c = true → StartsUnit c s

theorem pairWith_some {u c : ℕ} {s r : Str} (hu : isHigh u = true)
    (h : pairWith u s = some (c, r)) :
    r <:+ s ∧ (c = u ∧ Follows c r ∨ 0x10000 ≤ c ∧ c < 0x110000) := by
  have hcopy := h
  unfold pairWith at h
  split at h
  next hnone =>
    obtain ⟨rfl, rfl⟩ := Prod.mk.inj (Option.some.inj h)
    exact ⟨List.suffix_refl _, Or.inl ⟨rfl, fun _ => hcopy⟩⟩
  next t ht =>
    split at h
    next => cases h
    next low t' hx =>
      split at h
      next hlow =>
        obtain ⟨rfl, rfl⟩ := Prod.mk.inj (Option.some.inj h)
        exact ⟨(hex4?_some hx).2.trans (after_suffix ht), Or.inr (join_bounds hu hlow)⟩
      next =>
        obtain ⟨rfl, rfl⟩ := Prod.mk.inj (Option.some.inj h)
        exact ⟨List.suffix_refl _, Or.inl ⟨rfl, fun _ => hcopy⟩⟩

/-- A code point that is no surrogate. -/
theorem readsChar_plain {s r : Str} {c : ℕ} (hc : c < 0x110000) (hr : r <:+ s)
    (hhigh : isHigh c = false) (hlow : isLow c = false) : ReadsChar s c r :=
  ⟨hc, hr, fun h => absurd h (by simp [hhigh]), fun h => absurd h (by simp [hlow])⟩

theorem not_surrogate {c : ℕ} (h : c < 0xD800 ∨ 0xDFFF < c) :
    isHigh c = false ∧ isLow c = false := by
  simp only [isHigh, isLow, Bool.and_eq_false_iff, decide_eq_false_iff_not]
  omega

theorem readEscape_some {s r : Str} {c : ℕ} (h : readEscape s = some (c, r)) :
    ReadsChar (0x5C :: s) c r := by
  unfold readEscape at h
  split at h
  next => cases h
  next e s =>
    have htail : ∀ {t : Str}, t <:+ s → t <:+ 0x5C :: e :: s :=
      fun ht => ht.trans (List.suffix_append [0x5C, e] s)
    split at h
    next he =>
      subst he
      split at h
      next => cases h
      next u t hx =>
        obtain ⟨hu, ht⟩ := hex4?_some hx
        split at h
        next hhigh =>
          obtain ⟨hr, ⟨rfl, hfollows⟩ | hrange⟩ := pairWith_some hhigh h
          · refine ⟨by omega, htail (hr.trans ht), hfollows, ?_⟩
            intro hlow
            exact absurd hlow (by simp [isLow_of_isHigh hhigh])
          · obtain ⟨hhigh', hlow'⟩ := not_surrogate (c := c) (Or.inr (by omega))
            exact readsChar_plain hrange.2 (htail (hr.trans ht)) hhigh' hlow'
        next hhigh =>
          obtain ⟨rfl, rfl⟩ := Prod.mk.inj (Option.some.inj h)
          refine ⟨by omega, htail ht, fun h => absurd h hhigh, ?_⟩
          intro _
          exact ⟨s, t, after_append [0x5C, 0x75] s, hx⟩
    next he =>
      obtain ⟨d, hd, hdr⟩ := Option.map_eq_some_iff.mp h
      obtain ⟨rfl, rfl⟩ := Prod.mk.inj hdr
      have hletters : ∀ p ∈ letters, p.1 < 0xD800 := by decide
      have hsmall : d < 0xD800 := by
        unfold ofLetter at hd
        split at hd
        next =>
          obtain rfl := Option.some.inj hd
          decide
        next =>
          obtain ⟨p, hp, rfl⟩ := Option.map_eq_some_iff.mp hd
          exact hletters p (List.mem_of_find?_eq_some hp)
      obtain ⟨hhigh, hlow⟩ := not_surrogate (Or.inl hsmall)
      exact readsChar_plain (by omega) (htail (List.suffix_refl _)) hhigh hlow

theorem readChar_some {s r : Str} {c : ℕ} (hs : s.Encodable) (h : readChar s = some (c, r)) :
    ReadsChar s c r := by
  unfold readChar at h
  split at h
  next => cases h
  next d s =>
    split at h
    next hd =>
      rw [hd]
      exact readEscape_some h
    next =>
      split at h
      next => cases h
      next =>
        obtain ⟨rfl, rfl⟩ := Prod.mk.inj (Option.some.inj h)
        have hvalid : d < 0xD800 ∨ 0xDFFF < d ∧ d < 0x110000 := hs d (List.mem_cons_self ..)
        obtain ⟨hhigh, hlow⟩ := not_surrogate (c := d) (by omega)
        exact readsChar_plain (by omega) (List.suffix_cons _ _) hhigh hlow

/-- A string that is read is paired: a low surrogate after a high one would have been joined
with it. -/
theorem scanString_some : ∀ {n : ℕ} {s t r : Str}, s.Encodable →
    scanString n s = some (t, r) →
      Paired t ∧ r <:+ s ∧ ∀ d ∈ t.head?, isLow d = true → StartsUnit d s := by
  intro n
  induction n with
  | zero =>
    intro s t r _ h
    cases s <;> cases h
  | succ n ih =>
    intro s t r hs h
    cases s with
    | nil => cases h
    | cons c s =>
      rw [scanString] at h
      split at h
      next =>
        obtain ⟨rfl, rfl⟩ := Prod.mk.inj (Option.some.inj h)
        exact ⟨⟨List.forall_mem_nil _, .nil⟩, List.suffix_cons _ _, fun d hd => (by cases hd)⟩
      next =>
        split at h
        next => cases h
        next u s' hread =>
          obtain ⟨⟨t', r'⟩, ht, htr⟩ := Option.map_eq_some_iff.mp h
          obtain ⟨rfl, rfl⟩ := Prod.mk.inj htr
          have hchar := readChar_some hs hread
          obtain ⟨hpaired, hsuffix, hhead⟩ := ih (Encodable.suffix hs hchar.rest) ht
          refine ⟨⟨List.forall_mem_cons.mpr ⟨hchar.point, hpaired.points⟩, ?_⟩,
            hsuffix.trans hchar.rest, ?_⟩
          · refine List.isChain_cons.mpr ⟨?_, hpaired.apart⟩
            intro d hd hhigh
            by_contra hlow
            rw [Bool.not_eq_false] at hlow
            obtain ⟨q, q', hafter, hhex⟩ := hhead d hd hlow
            -- the two would have been read as one code point
            have hpair := hchar.follows hhigh
            simp only [pairWith, hafter, hhex, hlow, if_true, Option.some.injEq,
              Prod.mk.injEq] at hpair
            have hbounds := join_bounds hhigh hlow
            simp only [isHigh, Bool.and_eq_true, decide_eq_true_eq] at hhigh
            omega
          · intro d hd hlow
            obtain rfl := Option.some.inj hd
            exact hchar.escape hlow

/-! Numerals. -/

theorem readDigits_some (s : Str) :
    (∀ d ∈ (readDigits s).1, d < 10) ∧ (readDigits s).2 <:+ s := by
  refine ⟨?_, List.dropWhile_suffix _⟩
  intro d hd
  obtain ⟨c, hc, rfl⟩ := List.mem_map.mp hd
  have hdigit := List.mem_takeWhile_imp hc
  simp only [isDigit, Bool.and_eq_true, decide_eq_true_eq] at hdigit
  omega

theorem readWhole_some {s r : Str} {ds : List ℕ} (h : readWhole s = some (ds, r)) :
    (∀ d ∈ ds, d < 10) ∧ r <:+ s := by
  unfold readWhole at h
  split at h
  next => cases h
  next c s =>
    split at h
    next =>
      obtain ⟨rfl, rfl⟩ := Prod.mk.inj (Option.some.inj h)
      exact ⟨by simp, List.suffix_cons _ _⟩
    next =>
      split at h
      next =>
        have hread := readDigits_some (c :: s)
        rw [Option.some.inj h] at hread
        exact hread
      next => cases h

theorem readFraction_suffix (s : Str) : (readFraction s).2 <:+ s := by
  unfold readFraction
  split
  next c d s =>
    split
    next => exact (readDigits_some (d :: s)).2.trans (List.suffix_cons _ _)
    next => exact List.suffix_refl _
  next => exact List.suffix_refl _

theorem readSign_suffix (s : Str) : (readSign s).2 <:+ s := by
  unfold readSign
  split
  next => exact List.suffix_refl _
  next c s =>
    split
    next => exact List.suffix_cons _ _
    next =>
      split
      next => exact List.suffix_cons _ _
      next => exact List.suffix_refl _

theorem readExponent_suffix (s : Str) : (readExponent s).2 <:+ s := by
  unfold readExponent
  split
  next => exact List.suffix_refl _
  next c s =>
    split
    next =>
      dsimp only
      split
      next => exact List.suffix_refl _
      next =>
        exact ((readDigits_some _).2.trans (readSign_suffix s)).trans (List.suffix_cons _ _)
    next => exact List.suffix_refl _

theorem scanNumeral_some {s r : Str} {l : Numeral} (h : scanNumeral s = some (l, r)) :
    (∀ d ∈ l.whole, d < 10) ∧ r <:+ s := by
  have htail : (if decide (s.head? = some 0x2D) then s.tail else s) <:+ s := by
    split
    · exact List.tail_suffix s
    · exact List.suffix_refl s
  unfold scanNumeral at h
  dsimp only at h
  split at h
  next => cases h
  next whole t hwhole =>
    obtain ⟨rfl, rfl⟩ := Prod.mk.inj (Option.some.inj h)
    obtain ⟨hdigits, ht⟩ := readWhole_some hwhole
    exact ⟨hdigits, (readExponent_suffix _).trans ((readFraction_suffix t).trans (ht.trans htail))⟩

/-- The numeral of a value has no more digits than one it was read from. -/
theorem Numeral.length_ofInt_le {l : Numeral} (hdigits : ∀ d ∈ l.whole, d < 10)
    (hlong : l.whole.length ≤ Str.maxDigits) :
    (Numeral.ofInt l.toInt).whole.length ≤ Str.maxDigits := by
  have hvalue : l.toInt.natAbs = Nat.ofDigits 10 l.whole.reverse := by
    unfold toInt
    dsimp only
    split <;> simp
  have hlt : l.toInt.natAbs < 10 ^ l.whole.length := by
    have h := Nat.ofDigits_lt_base_pow_length (by decide : 1 < 10)
      (fun d hd => hdigits d (List.mem_reverse.mp hd) : ∀ d ∈ l.whole.reverse, d < 10)
    rwa [List.length_reverse, ← hvalue] at h
  unfold ofInt
  dsimp only
  split
  next => exact le_of_lt (by decide : 1 < Str.maxDigits)
  next =>
    rw [List.length_reverse]
    exact ((Nat.digits_length_le_iff (by decide) _).mpr hlt).trans hlong

/-! Values. -/

/-- What the scanner reads of decoded text is plain. -/
def ReadsPlain (scan : Str → Option (Json × Str)) : Prop :=
  ∀ {s r : Str} {v : Json}, s.Encodable → scan s = some (v, r) → Plain v ∧ r <:+ s

/-- Past a separator, if it is there, and the whitespace behind it. -/
theorem bind_after_some {α : Type} {w s r : Str} {x : α} {f : Str → Option (α × Str)}
    (h : (after w (skipSpace s)).bind (fun t => f (skipSpace t)) = some (x, r)) :
    ∃ t, t <:+ s ∧ f t = some (x, r) := by
  obtain ⟨t, ht, hf⟩ := Option.bind_eq_some_iff.mp h
  refine ⟨skipSpace t, ?_, hf⟩
  exact (skipSpace_suffix t).trans ((after_suffix ht).trans (skipSpace_suffix s))

section

variable {scan : Str → Option (Json × Str)}

theorem scanItems_some (hscan : ReadsPlain scan) : ∀ {k : ℕ} {s r : Str} {items : List Json},
    s.Encodable → scanItems scan k s = some (items, r) → (∀ v ∈ items, Plain v) ∧ r <:+ s := by
  intro k
  induction k with
  | zero =>
    intro s r items _ h
    cases h
  | succ k ih =>
    intro s r items hs h
    rw [scanItems] at h
    split at h
    next t ht =>
      obtain ⟨rfl, rfl⟩ := Prod.mk.inj (Option.some.inj h)
      exact ⟨List.forall_mem_nil _, (after_suffix ht).trans (skipSpace_suffix s)⟩
    next =>
      split at h
      next => cases h
      next v t hv =>
        obtain ⟨⟨items', r'⟩, hitems, hr⟩ := Option.map_eq_some_iff.mp h
        obtain ⟨rfl, rfl⟩ := Prod.mk.inj hr
        obtain ⟨q, hq, hread⟩ := bind_after_some hv
        obtain ⟨hplain, ht⟩ := hscan (Encodable.suffix hs hq) hread
        obtain ⟨hrest, hr⟩ := ih (Encodable.suffix hs (ht.trans hq)) hitems
        exact ⟨List.forall_mem_cons.mpr ⟨hplain, hrest⟩, hr.trans (ht.trans hq)⟩

theorem scanList_some (hscan : ReadsPlain scan) : ReadsPlain (scanList scan) := by
  intro s r v hs h
  unfold scanList at h
  split at h
  next t ht =>
    obtain ⟨rfl, rfl⟩ := Prod.mk.inj (Option.some.inj h)
    exact ⟨.list (List.forall_mem_nil _), (after_suffix ht).trans (skipSpace_suffix s)⟩
  next =>
    split at h
    next => cases h
    next w t hw =>
      obtain ⟨⟨items, r'⟩, hitems, hr⟩ := Option.map_eq_some_iff.mp h
      obtain ⟨rfl, rfl⟩ := Prod.mk.inj hr
      obtain ⟨hplain, ht⟩ := hscan (Encodable.suffix hs (skipSpace_suffix s)) hw
      have hts := ht.trans (skipSpace_suffix s)
      obtain ⟨hrest, hr⟩ := scanItems_some hscan (Encodable.suffix hs hts) hitems
      exact ⟨.list (List.forall_mem_cons.mpr ⟨hplain, hrest⟩), hr.trans hts⟩

theorem scanField_some (hscan : ReadsPlain scan) {s r : Str} {f : Str × Json} (hs : s.Encodable)
    (h : scanField scan s = some (f, r)) : Paired f.1 ∧ Plain f.2 ∧ r <:+ s := by
  unfold scanField at h
  split at h
  next => cases h
  next key t hkey =>
    obtain ⟨q, hq, hstring⟩ := Option.bind_eq_some_iff.mp hkey
    obtain ⟨hpaired, ht, -⟩ := scanString_some (Encodable.suffix hs (after_suffix hq)) hstring
    have hts := ht.trans (after_suffix hq)
    split at h
    next => cases h
    next v t' hv =>
      obtain ⟨rfl, rfl⟩ := Prod.mk.inj (Option.some.inj h)
      obtain ⟨q', hq', hread⟩ := bind_after_some hv
      obtain ⟨hplain, hr⟩ := hscan (Encodable.suffix hs (hq'.trans hts)) hread
      exact ⟨hpaired, hplain, hr.trans (hq'.trans hts)⟩

theorem scanFields_some (hscan : ReadsPlain scan) :
    ∀ {k : ℕ} {s r : Str} {fields : List (Str × Json)}, s.Encodable →
      scanFields scan k s = some (fields, r) →
        (∀ f ∈ fields, Paired f.1 ∧ Plain f.2) ∧ r <:+ s := by
  intro k
  induction k with
  | zero =>
    intro s r fields _ h
    cases h
  | succ k ih =>
    intro s r fields hs h
    rw [scanFields] at h
    split at h
    next t ht =>
      obtain ⟨rfl, rfl⟩ := Prod.mk.inj (Option.some.inj h)
      exact ⟨List.forall_mem_nil _, (after_suffix ht).trans (skipSpace_suffix s)⟩
    next =>
      split at h
      next => cases h
      next f t hf =>
        obtain ⟨⟨fields', r'⟩, hfields, hr⟩ := Option.map_eq_some_iff.mp h
        obtain ⟨rfl, rfl⟩ := Prod.mk.inj hr
        obtain ⟨q, hq, hread⟩ := bind_after_some hf
        obtain ⟨hpaired, hplain, ht⟩ := scanField_some hscan (Encodable.suffix hs hq) hread
        obtain ⟨hrest, hr⟩ := ih (Encodable.suffix hs (ht.trans hq)) hfields
        exact ⟨List.forall_mem_cons.mpr ⟨⟨hpaired, hplain⟩, hrest⟩, hr.trans (ht.trans hq)⟩

/-- A dictionary of fields has no key twice and nothing but the fields. -/
theorem dictOf_mem (fields : List (Str × Json)) :
    ((dictOf fields).map Prod.fst).Nodup ∧ ∀ f ∈ dictOf fields, f ∈ fields := by
  have hfold : ∀ (l : List (Str × Json)) (d : Dict Str Json),
      ∀ f ∈ (l.foldl (fun d f => d.set f.1 f.2) d).entries, f ∈ d.entries ∨ f ∈ l := by
    intro l
    induction l with
    | nil => exact fun d f hf => Or.inl hf
    | cons g l ih =>
      intro d f hf
      rw [List.foldl_cons] at hf
      rcases ih _ f hf with hmem | hmem
      · obtain ⟨key, v⟩ := f
        have hfind := Dict.mem_entries.mp hmem
        rw [Dict.find?_set] at hfind
        split at hfind
        next hkey =>
          obtain rfl := Option.some.inj hfind
          exact Or.inr (hkey ▸ List.mem_cons_self ..)
        next => exact Or.inl (Dict.mem_entries.mpr hfind)
      · exact Or.inr (List.mem_cons_of_mem g hmem)
  refine ⟨Dict.nodup _, ?_⟩
  intro f hf
  exact (hfold fields Dict.empty f hf).resolve_left List.not_mem_nil

theorem scanObject_some (hscan : ReadsPlain scan) : ReadsPlain (scanObject scan) := by
  intro s r v hs h
  unfold scanObject at h
  split at h
  next t ht =>
    obtain ⟨rfl, rfl⟩ := Prod.mk.inj (Option.some.inj h)
    exact ⟨.obj List.nodup_nil (List.forall_mem_nil _) (List.forall_mem_nil _),
      (after_suffix ht).trans (skipSpace_suffix s)⟩
  next =>
    split at h
    next => cases h
    next f t hf =>
      obtain ⟨⟨fields, r'⟩, hfields, hr⟩ := Option.map_eq_some_iff.mp h
      obtain ⟨rfl, rfl⟩ := Prod.mk.inj hr
      obtain ⟨hpaired, hplain, ht⟩ :=
        scanField_some hscan (Encodable.suffix hs (skipSpace_suffix s)) hf
      have hts := ht.trans (skipSpace_suffix s)
      obtain ⟨hrest, hr⟩ := scanFields_some hscan (Encodable.suffix hs hts) hfields
      have hall : ∀ g ∈ f :: fields, Paired g.1 ∧ Plain g.2 :=
        List.forall_mem_cons.mpr ⟨⟨hpaired, hplain⟩, hrest⟩
      obtain ⟨hnodup, hmem⟩ := dictOf_mem (f :: fields)
      exact ⟨.obj hnodup (fun g hg => (hall g (hmem g hg)).1)
        fun g hg => (hall g (hmem g hg)).2, hr.trans hts⟩

end

theorem plain_words : ∀ w ∈ words, Plain w.2 := by
  intro w hw
  simp only [words, List.mem_cons, List.not_mem_nil, or_false] at hw
  rcases hw with rfl | rfl | rfl | rfl | rfl | rfl
  · exact .null
  · exact .bool true
  · exact .bool false
  · exact .double _
  · exact .double _
  · exact .double _

theorem scanWord_some : ReadsPlain scanWord := by
  intro s r v _ h
  obtain ⟨w, hw, hread⟩ := List.exists_of_findSome?_eq_some h
  obtain ⟨t, ht, hv⟩ := Option.map_eq_some_iff.mp hread
  obtain ⟨rfl, rfl⟩ := Prod.mk.inj hv
  exact ⟨plain_words w hw, after_suffix ht⟩

theorem scanNumber_some (fl : Floats) : ReadsPlain (scanNumber fl) := by
  intro s r v _ h
  unfold scanNumber at h
  split at h
  next => cases h
  next l t hl =>
    obtain ⟨hdigits, ht⟩ := scanNumeral_some hl
    split at h
    next =>
      obtain ⟨rfl, rfl⟩ := Prod.mk.inj (Option.some.inj h)
      exact ⟨.double _, ht⟩
    next =>
      split at h
      next hlong =>
        obtain ⟨rfl, rfl⟩ := Prod.mk.inj (Option.some.inj h)
        exact ⟨.int (Numeral.length_ofInt_le hdigits hlong), ht⟩
      next => cases h

theorem scanValue_some (fl : Floats) : ∀ n, ReadsPlain (scanValue fl n) := by
  intro n
  induction n with
  | zero =>
    intro s r v _ h
    cases h
  | succ n ih =>
    intro s r v hs h
    cases s with
    | nil => cases h
    | cons c s =>
      have htail : Str.Encodable s := Encodable.suffix hs (List.suffix_cons _ _)
      rw [scanValue] at h
      split at h
      next =>
        obtain ⟨⟨t, r'⟩, ht, hr⟩ := Option.map_eq_some_iff.mp h
        obtain ⟨rfl, rfl⟩ := Prod.mk.inj hr
        obtain ⟨hpaired, hsuffix, -⟩ := scanString_some htail ht
        exact ⟨.str hpaired, hsuffix.trans (List.suffix_cons _ _)⟩
      next =>
        split at h
        next =>
          obtain ⟨hplain, hr⟩ := scanObject_some ih htail h
          exact ⟨hplain, hr.trans (List.suffix_cons _ _)⟩
        next =>
          split at h
          next =>
            obtain ⟨hplain, hr⟩ := scanList_some ih htail h
            exact ⟨hplain, hr.trans (List.suffix_cons _ _)⟩
          next =>
            rcases Option.or_eq_some_iff.mp h with hword | ⟨-, hnumber⟩
            · exact scanWord_some hs hword
            · exact scanNumber_some fl hs hnumber

/-- **What `loads` returns is plain.** -/
theorem loads_plain (fl : Floats) {s : Str} {v : Json} (hs : s.Encodable)
    (h : loads fl s = some v) : Plain v := by
  unfold loads at h
  split at h
  next => cases h
  next w t hw =>
    split at h
    next =>
      obtain rfl := Option.some.inj h
      exact (scanValue_some fl _ (Encodable.suffix hs (skipSpace_suffix s)) hw).1
    next => cases h

/-- **A value that was read is written and read again as itself.** -/
theorem dumps_of_loads (fl : Floats) {s : Str} {v : Json} (hs : s.Encodable)
    (h : loads fl s = some v) : loads fl (dumps fl v) = some v :=
  loads_dumps fl (loads_plain fl hs h)

end JsonText

end Solverr.Lib
