import Solverr.Lib.JsonText

/-!
# JSON values come back

`json.loads(json.dumps(v))` is `v` (`loads_dumps`) for every value that `loads` itself can
return (`Plain`). A value is read back wherever it stands, as long as nothing follows that a
numeral would go on with (`scanValue_dumps`); the induction is on the length of the text,
which is what bounds the scanner.
-/

namespace Solverr.Lib

namespace JsonText

/-! ## Numerals come back -/

/-- No digit comes next. -/
def NoDigit (s : Str) : Prop := ∀ c ∈ s.head?, isDigit c = false

/-- Nothing comes next that a numeral would go on with. -/
structure Stops (s : Str) : Prop where
  digit : NoDigit s
  rest : ∀ c ∈ s.head?, c ≠ 0x2E ∧ c ≠ 0x65 ∧ c ≠ 0x45

theorem noDigit_cons {c : ℕ} (h : isDigit c = false) (s : Str) : NoDigit (c :: s) := by
  intro d hd
  obtain rfl := Option.some.inj hd
  exact h

theorem stops_cons {c : ℕ} (hdigit : isDigit c = false) (hrest : c ≠ 0x2E ∧ c ≠ 0x65 ∧ c ≠ 0x45)
    (s : Str) : Stops (c :: s) := by
  refine ⟨noDigit_cons hdigit s, ?_⟩
  intro d hd
  obtain rfl := Option.some.inj hd
  exact hrest

theorem isDigit_add {d : ℕ} (h : d < 10) : isDigit (0x30 + d) = true := by
  have hrange : 0x30 ≤ 0x30 + d ∧ 0x30 + d ≤ 0x39 := by omega
  simp only [isDigit, hrange, decide_true, Bool.and_self]

theorem readDigits_digitText {ds : List ℕ} (hds : ∀ d ∈ ds, d < 10) {s : Str} (hs : NoDigit s) :
    readDigits (Numeral.digitText ds ++ s) = (ds, s) := by
  have hall : ∀ c ∈ Numeral.digitText ds, isDigit c = true := by
    intro c hc
    obtain ⟨d, hd, rfl⟩ := List.mem_map.mp hc
    exact isDigit_add (hds d hd)
  have hstop : s.takeWhile isDigit = [] ∧ s.dropWhile isDigit = s := by
    cases s with
    | nil => exact ⟨rfl, rfl⟩
    | cons c s =>
      have hc : isDigit c = false := hs c rfl
      exact ⟨by rw [List.takeWhile_cons, hc]; rfl, by rw [List.dropWhile_cons, hc]; rfl⟩
  have hback : (Numeral.digitText ds).map (· - 0x30) = ds := by
    rw [Numeral.digitText, List.map_map]
    conv_rhs => rw [← List.map_id ds]
    exact List.map_congr_left fun d _ => Nat.add_sub_cancel_left 0x30 d
  rw [readDigits, List.takeWhile_append_of_pos hall, List.dropWhile_append_of_pos hall, hstop.1,
    hstop.2, List.append_nil, hback]

theorem readWhole_digitText {l : Numeral} (h : l.Valid) {s : Str} (hs : NoDigit s) :
    readWhole (Numeral.digitText l.whole ++ s) = some (l.whole, s) := by
  rcases h.whole with hzero | ⟨d, ds, hwhole, hpos⟩
  · rw [hzero]
    rfl
  · have hd : d < 10 := h.digits d (by rw [hwhole]; exact List.mem_cons_self ..)
    have hread := readDigits_digitText h.digits hs
    rw [hwhole] at hread ⊢
    simp only [Numeral.digitText, List.map_cons, List.cons_append] at hread ⊢
    rw [readWhole, if_neg (by omega), if_pos (isDigit_add hd), hread]

theorem readFraction_fractionText {ds : List ℕ} (hds : ∀ d ∈ ds, d < 10) {s : Str}
    (hs : NoDigit s) (hpoint : ∀ c ∈ s.head?, c ≠ 0x2E) :
    readFraction (Numeral.fractionText ds ++ s) = (ds, s) := by
  cases ds with
  | nil =>
    rcases s with _ | ⟨c, _ | ⟨d, s⟩⟩
    · rfl
    · rfl
    · have hc : c ≠ 0x2E := hpoint c rfl
      simp [Numeral.fractionText, readFraction, hc]
  | cons d ds =>
    have hread := readDigits_digitText hds hs
    have hd := isDigit_add (hds d (List.mem_cons_self ..))
    simp only [Numeral.digitText, List.map_cons, List.cons_append] at hread
    simp only [Numeral.fractionText, List.isEmpty_cons, Bool.false_eq_true, if_false,
      Numeral.digitText, List.map_cons, List.cons_append, readFraction, hd, and_self, if_true,
      hread]

/-- The sign of an exponent is no digit, and its first digit is no sign. -/
theorem readSign_digitText {ds : List ℕ} (hne : ds ≠ []) (s : Str) :
    readSign (Numeral.digitText ds ++ s) = (none, Numeral.digitText ds ++ s) := by
  cases ds with
  | nil => exact absurd rfl hne
  | cons d ds =>
    simp only [Numeral.digitText, List.map_cons, List.cons_append, readSign]
    rw [if_neg (by omega), if_neg (by omega)]

theorem readExponent_exponentText {e : Option (Option Bool × List ℕ)}
    (he : ∀ x ∈ e, x.2 ≠ [] ∧ ∀ d ∈ x.2, d < 10) {s : Str} (hs : Stops s) :
    readExponent (Numeral.exponentText e ++ s) = (e, s) := by
  rcases e with - | ⟨sign, ds⟩
  · cases s with
    | nil => rfl
    | cons c s =>
      obtain ⟨-, he, hE⟩ := hs.rest c rfl
      simp [Numeral.exponentText, readExponent, he, hE]
  · obtain ⟨hne, hds⟩ := he _ rfl
    have hread := readDigits_digitText hds hs.digit
    have hempty : ds.isEmpty = false := by
      cases ds with
      | nil => exact absurd rfl hne
      | cons d ds => rfl
    rcases sign with - | minus
    · simp only [Numeral.exponentText, List.cons_append, readExponent, true_or, if_true,
        readSign_digitText hne s, hread, hempty, Bool.false_eq_true, if_false]
    · cases minus with
      | false =>
        have hsign : readSign (0x2B :: (Numeral.digitText ds ++ s))
            = (some false, Numeral.digitText ds ++ s) := rfl
        simp only [Numeral.exponentText, Bool.false_eq_true, if_false, List.cons_append,
          readExponent, true_or, if_true, hsign, hread, hempty]
      | true =>
        have hsign : readSign (0x2D :: (Numeral.digitText ds ++ s))
            = (some true, Numeral.digitText ds ++ s) := rfl
        simp only [Numeral.exponentText, List.cons_append, readExponent, true_or, if_true, hsign,
          hread, hempty, Bool.false_eq_true, if_false]

/-- What a numeral goes on with behind its whole part. -/
theorem noDigit_exponentText {e : Option (Option Bool × List ℕ)} {s : Str} (hs : Stops s) :
    NoDigit (Numeral.exponentText e ++ s) ∧
      ∀ c ∈ (Numeral.exponentText e ++ s).head?, c ≠ 0x2E := by
  rcases e with - | ⟨- | minus, ds⟩
  · exact ⟨hs.digit, fun c hc => (hs.rest c hc).1⟩
  all_goals
    refine ⟨noDigit_cons (by decide) _, ?_⟩
    intro c hc
    obtain rfl := Option.some.inj hc
    decide

theorem noDigit_fractionText (ds : List ℕ) {s : Str} (hs : NoDigit s) :
    NoDigit (Numeral.fractionText ds ++ s) := by
  cases ds with
  | nil => exact hs
  | cons d ds => exact noDigit_cons (by decide) _

/-- **A numeral comes back**, where nothing follows that it would go on with. -/
theorem scanNumeral_text {l : Numeral} (h : l.Valid) {s : Str} (hs : Stops s) :
    scanNumeral (l.text ++ s) = some (l, s) := by
  obtain ⟨hexponent, hpoint⟩ := noDigit_exponentText (e := l.exponent) hs
  have hwhole := readWhole_digitText h (noDigit_fractionText l.fraction hexponent)
  have hfraction := readFraction_fractionText h.fraction hexponent hpoint
  have hexp := readExponent_exponentText h.exponent hs
  have hsign : (decide ((l.text ++ s).head? = some 0x2D) = l.negative) ∧
      (if l.negative then (l.text ++ s).tail else l.text ++ s) = Numeral.digitText l.whole ++
        (Numeral.fractionText l.fraction ++ (Numeral.exponentText l.exponent ++ s)) := by
    unfold Numeral.text
    cases l.negative with
    | true => exact ⟨rfl, by simp⟩
    | false =>
      refine ⟨?_, by simp⟩
      rcases h.whole with hzero | ⟨d, ds, hd, -⟩
      · rw [hzero]
        rfl
      · rw [hd]
        simp [Numeral.digitText]
        omega
  obtain ⟨hneg, htail⟩ := hsign
  unfold scanNumeral
  simp only [hneg, htail, hwhole, hfraction, hexp]

theorem Numeral.valid_ofInt (n : ℤ) : (Numeral.ofInt n).Valid := by
  have hdigits : ∀ d ∈ (Numeral.ofInt n).whole, d < 10 := by
    intro d hd
    unfold ofInt at hd
    dsimp only at hd
    split at hd
    next =>
      obtain rfl := List.mem_singleton.mp hd
      decide
    next => exact Nat.digits_lt_base (by decide) (List.mem_reverse.mp hd)
  refine ⟨?_, hdigits, fun d hd => absurd hd List.not_mem_nil, fun e he => (by cases he)⟩
  by_cases hn : n = 0
  · exact Or.inl (if_pos hn)
  · right
    have hne : Nat.digits 10 n.natAbs ≠ [] :=
      Nat.digits_ne_nil_iff_ne_zero.mpr (Int.natAbs_ne_zero.mpr hn)
    have hlast := Nat.getLast_digit_ne_zero 10 (Int.natAbs_ne_zero.mpr hn)
    refine ⟨(Nat.digits 10 n.natAbs).getLast hne, (Nat.digits 10 n.natAbs).dropLast.reverse, ?_,
      Nat.pos_of_ne_zero hlast⟩
    have hsplit := congrArg List.reverse (List.dropLast_append_getLast hne)
    rw [List.reverse_append, List.reverse_singleton, List.singleton_append] at hsplit
    exact (if_neg hn).trans hsplit.symm

/-- `int(repr(n))` -/
theorem Numeral.toInt_ofInt (n : ℤ) : (Numeral.ofInt n).toInt = n := by
  have hvalue : Nat.ofDigits 10 (Numeral.ofInt n).whole.reverse = n.natAbs := by
    unfold ofInt
    dsimp only
    split
    next hn =>
      rw [hn]
      rfl
    next => rw [List.reverse_reverse, Nat.ofDigits_digits]
  rw [toInt, hvalue]
  unfold ofInt
  by_cases hn : n < 0
  · simp only [hn, decide_true, if_true]
    omega
  · simp only [hn, decide_false, Bool.false_eq_true, if_false]
    omega

/-- A way to spell floats: the numerator, and the denominator as an exponent. -/
def Floats.fractions : Floats where
  repr q := { Numeral.ofInt q.num with
    fraction := [0], exponent := some (none, (Numeral.ofInt q.den).whole) }
  float l :=
    match l.exponent with
    | none => .negativeZero
    | some (_, den) => .finite (l.toInt / (⟨false, den, [], none⟩ : Numeral).toInt)
  valid q := by
    have hnum := Numeral.valid_ofInt q.num
    have hden := Numeral.valid_ofInt q.den
    refine ⟨hnum.whole, hnum.digits, by simp, ?_⟩
    intro e he
    obtain rfl := Option.some.inj he
    refine ⟨?_, hden.digits⟩
    rcases hden.whole with hzero | ⟨d, ds, hds, -⟩
    · rw [hzero]
      exact List.cons_ne_nil _ _
    · rw [hds]
      exact List.cons_ne_nil _ _
  isFloat _ := rfl
  float_repr q := by
    have hnum : ({ Numeral.ofInt q.num with
        fraction := [0], exponent := some (none, (Numeral.ofInt q.den).whole) } : Numeral).toInt
          = q.num := Numeral.toInt_ofInt q.num
    have hden : (⟨false, (Numeral.ofInt q.den).whole, [], none⟩ : Numeral).toInt = q.den := by
      conv_rhs => rw [← Numeral.toInt_ofInt q.den]
      rfl
    dsimp only
    rw [hnum, hden, Int.cast_natCast, Rat.num_div_den]
  float_negativeZero := rfl

/-! ## Values come back -/

/-- A value that `loads` can return: its strings are paired, its integers are short enough
for `int`, and no object has a key twice. -/
inductive Plain : Json → Prop
  | null : Plain .null
  | bool (b : Bool) : Plain (.bool b)
  | int {n : ℤ} (short : (Numeral.ofInt n).whole.length ≤ Str.maxDigits) : Plain (.int n)
  | double (d : Double) : Plain (.double d)
  | str {s : Str} (paired : Paired s) : Plain (.str s)
  | list {items : List Json} (items_plain : ∀ v ∈ items, Plain v) : Plain (.list items)
  | obj {fields : List (Str × Json)} (distinct : (fields.map Prod.fst).Nodup)
      (keys : ∀ f ∈ fields, Paired f.1) (values : ∀ f ∈ fields, Plain f.2) : Plain (.obj fields)

/-- The fields of a dictionary are the dictionary of them. -/
theorem dictOf_of_nodup {fields : List (Str × Json)} (h : (fields.map Prod.fst).Nodup) :
    dictOf fields = fields := by
  have hfold : ∀ (l : List (Str × Json)) (d : Dict Str Json), (l.map Prod.fst).Nodup →
      (∀ f ∈ l, d.find? f.1 = none) →
      (l.foldl (fun d f => d.set f.1 f.2) d).entries = d.entries ++ l := by
    intro l
    induction l with
    | nil => exact fun d _ _ => (List.append_nil _).symm
    | cons f l ih =>
      intro d hl hd
      obtain ⟨hf, hl⟩ := List.nodup_cons.mp hl
      have hset := Dict.entries_set_of_absent f.2 (hd f (List.mem_cons_self ..))
      rw [List.foldl_cons, ih _ hl, hset, List.append_assoc]
      · rfl
      · intro g hg
        have hne : g.1 ≠ f.1 := fun he => hf (he ▸ List.mem_map_of_mem hg)
        rw [Dict.find?_set, if_neg hne]
        exact hd g (List.mem_cons_of_mem f hg)
  exact hfold fields Dict.empty h fun _ _ => rfl

section

variable {fl : Floats}

/-- A text that starts a value: no whitespace and no bracket that closes a list. -/
def Starts (s : Str) : Prop := ∃ c t, s = c :: t ∧ isSpace c = false ∧ c ≠ 0x5D

theorem Numeral.text_starts {l : Numeral} (h : l.Valid) :
    ∃ c t, l.text = c :: t ∧ (c = 0x2D ∧ (∃ d r, t = d :: r ∧ isDigit d = true) ∨
      isDigit c = true) := by
  have hwhole : ∃ d r, Numeral.digitText l.whole = d :: r ∧ isDigit d = true := by
    have hne : l.whole ≠ [] := by
      rcases h.whole with hzero | ⟨d, ds, hd, -⟩
      · simp [hzero]
      · simp [hd]
    obtain ⟨d, ds, hd⟩ := List.exists_cons_of_ne_nil hne
    refine ⟨0x30 + d, ds.map (0x30 + ·), by rw [hd]; rfl, ?_⟩
    exact isDigit_add (h.digits d (by rw [hd]; exact List.mem_cons_self ..))
  obtain ⟨d, r, hd, hdigit⟩ := hwhole
  unfold text
  rw [hd]
  cases l.negative with
  | true => exact ⟨_, _, rfl, Or.inl ⟨rfl, d, _, rfl, hdigit⟩⟩
  | false => exact ⟨d, _, rfl, Or.inr hdigit⟩

theorem words_eq : word "null" = [0x6E, 0x75, 0x6C, 0x6C] ∧
    word "true" = [0x74, 0x72, 0x75, 0x65] ∧ word "false" = [0x66, 0x61, 0x6C, 0x73, 0x65] ∧
    word "NaN" = [0x4E, 0x61, 0x4E] ∧
    word "Infinity" = [0x49, 0x6E, 0x66, 0x69, 0x6E, 0x69, 0x74, 0x79] ∧
    word "-Infinity" = [0x2D, 0x49, 0x6E, 0x66, 0x69, 0x6E, 0x69, 0x74, 0x79] ∧
    word "[]" = [0x5B, 0x5D] ∧ word "\x7b\x7d" = [0x7B, 0x7D] ∧ word ", " = [0x2C, 0x20] ∧
    word ": " = [0x3A, 0x20] := by decide

/-- A text that starts with none of the words. -/
theorem scanWord_none {c : ℕ} {s : Str}
    (hc : c ≠ 0x6E ∧ c ≠ 0x74 ∧ c ≠ 0x66 ∧ c ≠ 0x4E ∧ c ≠ 0x49)
    (hminus : c = 0x2D → ∀ t, s ≠ 0x49 :: t) : scanWord (c :: s) = none := by
  obtain ⟨hnull, htrue, hfalse, hnan, hinf, hneg, -⟩ := words_eq
  obtain ⟨hn, ht, hf, hN, hI⟩ := hc
  have hlast : after (word "-Infinity") (c :: s) = none := by
    rw [hneg]
    by_cases hm : c = 0x2D
    · cases s with
      | nil => simp [after, List.isPrefixOf]
      | cons d t =>
        have hd : 0x49 ≠ d := fun he => hminus hm t (he ▸ rfl)
        simp [after, List.isPrefixOf, hd]
    · exact after_cons_of_ne _ _ (Ne.symm hm)
  simp only [scanWord, words, List.findSome?_cons, List.findSome?_nil, hlast, hnull, htrue,
    hfalse, hnan, hinf, after_cons_of_ne _ _ hn.symm, after_cons_of_ne _ _ ht.symm,
    after_cons_of_ne _ _ hf.symm, after_cons_of_ne _ _ hN.symm, after_cons_of_ne _ _ hI.symm,
    Option.map_none]

/-- A word is read where it stands: no two of them start alike. -/
theorem scanWord_word {w : Str × Json} (hw : w ∈ words) (s : Str) :
    scanWord (w.1 ++ s) = some (w.2, s) := by
  obtain ⟨hnull, htrue, hfalse, hnan, hinf, hneg, -⟩ := words_eq
  simp only [words, List.mem_cons, List.not_mem_nil, or_false] at hw
  rcases hw with rfl | rfl | rfl | rfl | rfl | rfl <;>
  simp [scanWord, words, hnull, htrue, hfalse, hnan, hinf, hneg, after]

/-- What a value of no quotes and brackets is read as. -/
theorem scanValue_cons {c : ℕ} (n : ℕ) (s : Str) (hc : c ≠ 0x22 ∧ c ≠ 0x7B ∧ c ≠ 0x5B) :
    scanValue fl (n + 1) (c :: s) = (scanWord (c :: s)).or (scanNumber fl (c :: s)) := by
  obtain ⟨hquote, hbrace, hbracket⟩ := hc
  rw [scanValue, if_neg hquote, if_neg hbrace, if_neg hbracket]

theorem scanValue_word {w : Str × Json} (hw : w ∈ words) (n : ℕ) (s : Str) :
    scanValue fl (n + 1) (w.1 ++ s) = some (w.2, s) := by
  have hread := scanWord_word hw s
  have hhead : ∀ w ∈ words, ∃ c t, w.1 = c :: t ∧ c ≠ 0x22 ∧ c ≠ 0x7B ∧ c ≠ 0x5B := by
    obtain ⟨hnull, htrue, hfalse, hnan, hinf, hneg, -⟩ := words_eq
    intro w hw
    simp only [words, List.mem_cons, List.not_mem_nil, or_false] at hw
    rcases hw with rfl | rfl | rfl | rfl | rfl | rfl
    · exact ⟨_, _, hnull, by decide⟩
    · exact ⟨_, _, htrue, by decide⟩
    · exact ⟨_, _, hfalse, by decide⟩
    · exact ⟨_, _, hnan, by decide⟩
    · exact ⟨_, _, hinf, by decide⟩
    · exact ⟨_, _, hneg, by decide⟩
  obtain ⟨c, t, hct, hc⟩ := hhead w hw
  rw [hct, List.cons_append] at hread ⊢
  rw [scanValue_cons n _ hc, hread]
  rfl

/-- A numeral is read as the number it is. -/
theorem scanValue_numeral {l : Numeral} (h : l.Valid) (n : ℕ) {s : Str} (hs : Stops s) :
    scanValue fl (n + 1) (l.text ++ s) = if l.isFloat then some (.double (fl.float l), s)
      else if l.whole.length ≤ Str.maxDigits then some (.int l.toInt, s) else none := by
  have hread := scanNumeral_text h hs
  obtain ⟨c, t, hct, hhead⟩ := Numeral.text_starts h
  rw [hct, List.cons_append] at hread ⊢
  have hword : scanWord (c :: (t ++ s)) = none := by
    rcases hhead with ⟨rfl, d, r, rfl, hd⟩ | hd
    · refine scanWord_none (by decide) ?_
      intro _ t' he
      rw [List.cons_append] at he
      rw [(List.cons.inj he).1] at hd
      exact absurd hd (by decide)
    · simp only [isDigit, Bool.and_eq_true, decide_eq_true_eq] at hd
      exact scanWord_none (by omega) (fun he => by omega)
  have hc : c ≠ 0x22 ∧ c ≠ 0x7B ∧ c ≠ 0x5B := by
    rcases hhead with ⟨rfl, -⟩ | hd
    · decide
    · simp only [isDigit, Bool.and_eq_true, decide_eq_true_eq] at hd
      omega
  rw [scanValue_cons n _ hc, hword, Option.none_or, scanNumber, hread]

theorem starts_numeral {l : Numeral} (h : l.Valid) : Starts l.text := by
  obtain ⟨c, t, hct, hhead⟩ := Numeral.text_starts h
  refine ⟨c, t, hct, ?_⟩
  rcases hhead with ⟨rfl, -⟩ | hd
  · decide
  · simp only [isDigit, Bool.and_eq_true, decide_eq_true_eq] at hd
    have hrange : ¬c = 0x20 ∧ ¬c = 0x09 ∧ ¬c = 0x0A ∧ ¬c = 0x0D := by omega
    refine ⟨by simp [isSpace, hrange], by omega⟩

theorem dumps_starts (fl : Floats) (v : Json) : Starts (dumps fl v) := by
  obtain ⟨hnull, htrue, hfalse, hnan, hinf, hneg, hlist, hobj, -⟩ := words_eq
  cases v with
  | null => exact ⟨_, _, by rw [dumps, hnull], by decide⟩
  | bool b =>
    cases b with
    | true => exact ⟨_, _, by rw [dumps, htrue], by decide⟩
    | false => exact ⟨_, _, by rw [dumps, hfalse], by decide⟩
  | int n =>
    rw [dumps]
    exact starts_numeral (Numeral.valid_ofInt n)
  | double d =>
    rw [dumps]
    cases d with
    | nan => exact ⟨_, _, hnan, by decide⟩
    | infinity negative =>
      cases negative with
      | true => exact ⟨_, _, hneg, by decide⟩
      | false => exact ⟨_, _, hinf, by decide⟩
    | negativeZero => exact ⟨_, _, rfl, by decide⟩
    | finite q => exact starts_numeral (fl.valid q)
  | str s => exact ⟨_, _, by rw [dumps, quoted], by decide⟩
  | list items =>
    cases items with
    | nil => exact ⟨_, _, by rw [dumps, hlist], by decide⟩
    | cons v items => exact ⟨_, _, by rw [dumps], by decide⟩
  | obj fields =>
    cases fields with
    | nil => exact ⟨_, _, by rw [dumps, hobj], by decide⟩
    | cons f fields =>
      obtain ⟨key, v⟩ := f
      exact ⟨_, _, by rw [dumps], by decide⟩

/-- A value starts where whitespace ends. -/
theorem skipSpace_starts {s : Str} (h : Starts s) (t : Str) : skipSpace (s ++ t) = s ++ t := by
  obtain ⟨c, r, rfl, hc, -⟩ := h
  rw [skipSpace, List.cons_append, List.dropWhile_cons, hc]
  rfl

theorem after_starts {s : Str} (h : Starts s) (t : Str) : after [0x5D] (s ++ t) = none := by
  obtain ⟨c, r, rfl, -, hc⟩ := h
  exact after_cons_of_ne _ _ hc.symm

/-- The scanner reads the value back wherever it stands. -/
def Reads (fl : Floats) (scan : Str → Option (Json × Str)) (v : Json) : Prop :=
  ∀ s, Stops s → scan (dumps fl v ++ s) = some (v, s)

theorem stops_separators :
    (∀ s, Stops (word ", " ++ s)) ∧ (∀ s, Stops (0x5D :: s)) ∧ ∀ s, Stops (0x7D :: s) := by
  obtain ⟨-, -, -, -, -, -, -, -, hcomma, -⟩ := words_eq
  refine ⟨fun s => ?_, fun s => stops_cons (by decide) (by decide) s,
    fun s => stops_cons (by decide) (by decide) s⟩
  rw [hcomma]
  exact stops_cons (by decide) (by decide) _

theorem stops_items (fl : Floats) (items : List Json) (s : Str) :
    Stops (dumpsItems fl items ++ 0x5D :: s) := by
  obtain ⟨hcomma, hbracket, -⟩ := stops_separators
  cases items with
  | nil => exact hbracket s
  | cons v items =>
    rw [dumpsItems, List.append_assoc]
    exact hcomma _

theorem stops_fields (fl : Floats) (fields : List (Str × Json)) (s : Str) :
    Stops (dumpsFields fl fields ++ 0x7D :: s) := by
  obtain ⟨hcomma, -, hbrace⟩ := stops_separators
  cases fields with
  | nil => exact hbrace s
  | cons f fields =>
    obtain ⟨key, v⟩ := f
    rw [dumpsFields, List.append_assoc]
    exact hcomma _

/-- The separator `', '`, as the scanner meets it. -/
theorem comma_space (s : Str) : skipSpace (word ", " ++ s) = 0x2C :: 0x20 :: s ∧
    skipSpace (0x20 :: s) = skipSpace s := by
  obtain ⟨-, -, -, -, -, -, -, -, hcomma, -⟩ := words_eq
  rw [hcomma]
  exact ⟨rfl, rfl⟩

/-- The items of a list come back. -/
theorem scanItems_dumpsItems {scan : Str → Option (Json × Str)} (items : List Json)
    (h : ∀ v ∈ items, Reads fl scan v) (s : Str) :
    ∀ k, items.length < k → scanItems scan k (dumpsItems fl items ++ 0x5D :: s)
      = some (items, s) := by
  induction items with
  | nil =>
    intro k hk
    obtain ⟨k, rfl⟩ := Nat.exists_eq_succ_of_ne_zero (show k ≠ 0 by omega)
    rfl
  | cons v items ih =>
    intro k hk
    obtain ⟨k, rfl⟩ := Nat.exists_eq_succ_of_ne_zero (show k ≠ 0 by omega)
    have hrest := ih (fun w hw => h w (List.mem_cons_of_mem v hw)) k
      (by simp only [List.length_cons] at hk; omega)
    have hread := h v (List.mem_cons_self ..) _ (stops_items fl items s)
    have hnone : ∀ t, after [0x5D] (0x2C :: t) = none :=
      fun t => after_cons_of_ne _ _ (by decide)
    have hcomma : ∀ t, after [0x2C] (0x2C :: t) = some t := fun t => after_append [0x2C] t
    rw [dumpsItems, List.append_assoc, List.append_assoc, scanItems, (comma_space _).1, hnone,
      hcomma]
    simp only [Option.bind_some, (comma_space _).2, skipSpace_starts (dumps_starts fl v), hread,
      hrest, Option.map_some]

theorem length_le_flatMap_escaped (s : Str) : s.length ≤ (s.flatMap escaped).length := by
  induction s with
  | nil => exact Nat.le_refl 0
  | cons c s ih =>
    obtain ⟨d, r, hdr, -⟩ := escaped_head c
    rw [List.flatMap_cons, List.length_append, hdr, List.length_cons, List.length_cons]
    omega

/-- A string comes back with the fuel that its text gives. -/
theorem scanString_rest {s : Str} (h : ∀ c ∈ s, c < 0x110000) (t : Str) :
    scanString (s.flatMap escaped ++ 0x22 :: t).length (s.flatMap escaped ++ 0x22 :: t)
      = some (joined s, t) := by
  refine scanString_escaped s h t _ ?_
  have hle := length_le_flatMap_escaped s
  rw [List.length_append, List.length_cons]
  omega

theorem quoted_append (s t : Str) : quoted s ++ t = 0x22 :: (s.flatMap escaped ++ 0x22 :: t) := by
  simp [quoted]

theorem scanValue_quoted (n : ℕ) {s : Str} (h : ∀ c ∈ s, c < 0x110000) (t : Str) :
    scanValue fl (n + 1) (quoted s ++ t) = some (.str (joined s), t) := by
  rw [quoted_append, scanValue, if_pos rfl, scanString_rest h]
  rfl

/-- A field comes back. -/
theorem scanField_quoted {scan : Str → Option (Json × Str)} {key : Str} {v : Json}
    (hkey : Paired key) (hv : Reads fl scan v) {s : Str} (hs : Stops s) :
    scanField scan (quoted key ++ (word ": " ++ (dumps fl v ++ s))) = some ((key, v), s) := by
  obtain ⟨-, -, -, -, -, -, -, -, -, hcolon⟩ := words_eq
  have hquote : ∀ t, after [0x22] (0x22 :: t) = some t := fun t => after_append [0x22] t
  have hafter : ∀ t, after [0x3A] (skipSpace (word ": " ++ t)) = some (0x20 :: t) := by
    intro t
    rw [hcolon]
    exact after_append [0x3A] (0x20 :: t)
  rw [quoted_append, scanField, hquote, Option.bind_some, scanString_rest hkey.points,
    hkey.joined_eq]
  dsimp only
  rw [hafter, Option.bind_some, (comma_space _).2, skipSpace_starts (dumps_starts fl v), hv s hs]

/-- The fields of an object come back. -/
theorem scanFields_dumpsFields {scan : Str → Option (Json × Str)} (fields : List (Str × Json))
    (hkeys : ∀ f ∈ fields, Paired f.1) (h : ∀ f ∈ fields, Reads fl scan f.2) (s : Str) :
    ∀ k, fields.length < k → scanFields scan k (dumpsFields fl fields ++ 0x7D :: s)
      = some (fields, s) := by
  induction fields with
  | nil =>
    intro k hk
    obtain ⟨k, rfl⟩ := Nat.exists_eq_succ_of_ne_zero (show k ≠ 0 by omega)
    rfl
  | cons f fields ih =>
    intro k hk
    obtain ⟨k, rfl⟩ := Nat.exists_eq_succ_of_ne_zero (show k ≠ 0 by omega)
    obtain ⟨key, v⟩ := f
    have hrest := ih (fun g hg => hkeys g (List.mem_cons_of_mem _ hg))
      (fun g hg => h g (List.mem_cons_of_mem _ hg)) k (by simp only [List.length_cons] at hk; omega)
    have hread := scanField_quoted (hkeys _ (List.mem_cons_self ..))
      (h _ (List.mem_cons_self ..)) (stops_fields fl fields s)
    have hspace : ∀ t, skipSpace (quoted key ++ t) = quoted key ++ t := fun t => rfl
    have hnone : ∀ t, after [0x7D] (0x2C :: t) = none :=
      fun t => after_cons_of_ne _ _ (by decide)
    have hcomma : ∀ t, after [0x2C] (0x2C :: t) = some t := fun t => after_append [0x2C] t
    rw [dumpsFields]
    simp only [List.append_assoc]
    rw [scanFields, (comma_space _).1, hnone, hcomma]
    simp only [Option.bind_some, (comma_space _).2, hspace, hread, hrest, Option.map_some]

/-! The fuel: a part of a value has a shorter text. -/

theorem length_dumpsItems (fl : Floats) (items : List Json) :
    items.length ≤ (dumpsItems fl items).length ∧
      ∀ v ∈ items, (dumps fl v).length ≤ (dumpsItems fl items).length := by
  induction items with
  | nil => exact ⟨Nat.le_refl 0, fun v hv => absurd hv List.not_mem_nil⟩
  | cons v items ih =>
    obtain ⟨-, -, -, -, -, -, -, -, hcomma, -⟩ := words_eq
    obtain ⟨hlength, hmem⟩ := ih
    rw [dumpsItems, hcomma]
    simp only [List.length_append, List.length_cons, List.length_nil]
    refine ⟨by omega, ?_⟩
    intro w hw
    rcases List.mem_cons.mp hw with rfl | hw
    · omega
    · have := hmem w hw
      omega

theorem length_dumpsFields (fl : Floats) (fields : List (Str × Json)) :
    fields.length ≤ (dumpsFields fl fields).length ∧
      ∀ f ∈ fields, (dumps fl f.2).length ≤ (dumpsFields fl fields).length := by
  induction fields with
  | nil => exact ⟨Nat.le_refl 0, fun v hv => absurd hv List.not_mem_nil⟩
  | cons f fields ih =>
    obtain ⟨key, v⟩ := f
    obtain ⟨-, -, -, -, -, -, -, -, hcomma, -⟩ := words_eq
    obtain ⟨hlength, hmem⟩ := ih
    rw [dumpsFields, hcomma]
    simp only [List.length_append, List.length_cons, List.length_nil]
    refine ⟨by omega, ?_⟩
    intro g hg
    rcases List.mem_cons.mp hg with rfl | hg
    · dsimp only
      omega
    · have := hmem g hg
      omega

/-- **A value comes back**, with what stands behind it, where that is nothing a numeral would
go on with. -/
theorem scanValue_dumps (fl : Floats) : ∀ (n : ℕ) (v : Json), Plain v →
    (dumps fl v).length ≤ n → Reads fl (scanValue fl n) v := by
  -- on the depth that the scanner may still go, which the length of the text bounds
  intro n
  induction n with
  | zero =>
    -- no text is empty
    intro v _ hn
    obtain ⟨c, t, hct, -⟩ := dumps_starts fl v
    rw [hct] at hn
    exact absurd hn (Nat.not_succ_le_zero _)
  | succ n ih =>
    intro v hv hn s hs
    cases hv with
    | null => exact scanValue_word (w := (word "null", .null)) (by simp [words]) n s
    | bool b =>
      cases b with
      | true => exact scanValue_word (w := (word "true", .bool true)) (by simp [words]) n s
      | false => exact scanValue_word (w := (word "false", .bool false)) (by simp [words]) n s
    | int short =>
      -- read back digit by digit, and short enough for `int`
      rw [dumps, scanValue_numeral (Numeral.valid_ofInt _) n hs, Numeral.toInt_ofInt,
        if_pos short]
      rfl
    | double d =>
      rw [dumps]
      cases d with
      | nan => exact scanValue_word (w := (word "NaN", .double .nan)) (by simp [words]) n s
      | infinity negative =>
        cases negative with
        | true =>
          exact scanValue_word (w := (word "-Infinity", .double (.infinity true)))
            (by simp [words]) n s
        | false =>
          exact scanValue_word (w := (word "Infinity", .double (.infinity false)))
            (by simp [words]) n s
      | negativeZero =>
        -- no `repr` of a rational has this sign, so its text is given
        have hvalid : Numeral.negativeZero.Valid :=
          ⟨Or.inl rfl, by decide, by decide, fun e he => (by cases he)⟩
        rw [doubleText, scanValue_numeral hvalid n hs, fl.float_negativeZero]
        rfl
      | finite q =>
        -- `repr` is a numeral that `float` reads as the same double
        rw [doubleText, scanValue_numeral (fl.valid q) n hs, if_pos (fl.isFloat q),
          fl.float_repr]
    | str paired =>
      rw [dumps, scanValue_quoted n paired.points, paired.joined_eq]
    | list items_plain =>
      rename_i items
      cases items with
      | nil =>
        -- no space inside the brackets
        obtain ⟨-, -, -, -, -, -, hlist, -⟩ := words_eq
        rw [dumps, hlist]
        rfl
      | cons v items =>
        obtain ⟨hcount, hlength⟩ := length_dumpsItems fl items
        rw [dumps] at hn ⊢
        simp only [List.length_cons, List.length_append] at hn
        -- each item is shorter than the list, so it comes back with one level less
        have hread : Reads fl (scanValue fl n) v :=
          ih v (items_plain v (List.mem_cons_self ..)) (by omega)
        have hitems : ∀ w ∈ items, Reads fl (scanValue fl n) w := by
          intro w hw
          have := hlength w hw
          exact ih w (items_plain w (List.mem_cons_of_mem v hw)) (by omega)
        simp only [List.cons_append, List.append_assoc, List.nil_append]
        rw [scanValue, if_neg (by decide), if_neg (by decide), if_pos rfl, scanList,
          skipSpace_starts (dumps_starts fl v), after_starts (dumps_starts fl v)]
        dsimp only
        rw [hread _ (stops_items fl items s)]
        dsimp only
        rw [scanItems_dumpsItems items hitems s _ (by simp; omega)]
        rfl
    | obj distinct keys values =>
      rename_i fields
      cases fields with
      | nil =>
        obtain ⟨-, -, -, -, -, -, -, hobj, -⟩ := words_eq
        rw [dumps, hobj]
        rfl
      | cons f fields =>
        obtain ⟨key, v⟩ := f
        obtain ⟨hcount, hlength⟩ := length_dumpsFields fl fields
        rw [dumps] at hn ⊢
        simp only [List.length_cons, List.length_append] at hn
        -- and so does the value of each field
        have hread : Reads fl (scanValue fl n) v :=
          ih v (values _ (List.mem_cons_self ..)) (by omega)
        have hfields : ∀ g ∈ fields, Reads fl (scanValue fl n) g.2 := by
          intro g hg
          have := hlength g hg
          exact ih g.2 (values g (List.mem_cons_of_mem _ hg)) (by omega)
        have hfield := scanField_quoted (keys _ (List.mem_cons_self ..)) hread
          (stops_fields fl fields s)
        have hspace : ∀ t, skipSpace (quoted key ++ t) = quoted key ++ t := fun t => rfl
        have hnone : ∀ t, after [0x7D] (quoted key ++ t) = none :=
          fun t => after_cons_of_ne _ _ (by decide)
        simp only [List.cons_append, List.append_assoc, List.nil_append]
        rw [scanValue, if_neg (by decide), if_pos rfl, scanObject, hspace, hnone]
        dsimp only
        rw [hfield]
        dsimp only
        rw [scanFields_dumpsFields fields (fun g hg => keys g (List.mem_cons_of_mem _ hg)) hfields
          s _ (by simp; omega)]
        -- no key is there twice, so the dictionary has the fields as they stand
        simp only [Option.map_some, dictOf_of_nodup distinct]

/-- **`json.loads(json.dumps(v))` is `v`.** -/
theorem loads_dumps (fl : Floats) {v : Json} (h : Plain v) : loads fl (dumps fl v) = some v := by
  have hstops : Stops [] := ⟨fun _ hc => (by cases hc), fun _ hc => (by cases hc)⟩
  have hread := scanValue_dumps fl (dumps fl v).length v h (Nat.le_refl _) [] hstops
  have hspace := skipSpace_starts (dumps_starts fl v) []
  rw [List.append_nil] at hread hspace
  rw [loads, hspace, hread]
  rfl

end

end JsonText

end Solverr.Lib
