import Mathlib.Data.Nat.Digits.Lemmas
import Solverr.Lib.Dict
import Solverr.Lib.Strings

/-!
# JSON text

`json.dumps` with its defaults and `json.loads`, on strings of code points. `dumps` writes
ASCII only: what is not printable becomes `\u` escapes, a code point past `0xFFFF` two of
them. `loads` joins such a pair again, so a string in which a high surrogate stands before a
low one is the one thing that does not come back; `loads` itself makes no such string.

Floats are spelled by `float.__repr__` and read by `float`, which `Floats` stands for: the
numeral it spells is one of JSON's and is read back.
-/

namespace Solverr.Lib

namespace JsonText

/-! ## Strings -/

/-- A high surrogate, and a low one. -/
def isHigh (u : ℕ) : Bool := 0xD800 ≤ u && u < 0xDC00
def isLow (u : ℕ) : Bool := 0xDC00 ≤ u && u < 0xE000

/-- The two surrogates of a code point past `0xFFFF`. -/
def highOf (c : ℕ) : ℕ := 0xD800 + (c - 0x10000) / 0x400
def lowOf (c : ℕ) : ℕ := 0xDC00 + (c - 0x10000) % 0x400

/-- The code point that the two surrogates are. -/
def join (high low : ℕ) : ℕ := 0x10000 + (high - 0xD800) * 0x400 + (low - 0xDC00)

/-- A digit of `'{:04x}'`. -/
def hexDigit (n : ℕ) : ℕ := if n < 10 then 0x30 + n else 0x57 + n

/-- The value of a hexadecimal digit, of either case. -/
def hexValue (c : ℕ) : Option ℕ :=
  if 0x30 ≤ c ∧ c ≤ 0x39 then some (c - 0x30)
  else if 0x61 ≤ c ∧ c ≤ 0x66 then some (c - 0x57)
  else if 0x41 ≤ c ∧ c ≤ 0x46 then some (c - 0x37)
  else none

/-- The four digits of a code unit. -/
def hex4 (u : ℕ) : Str :=
  [hexDigit (u / 0x1000), hexDigit (u / 0x100 % 0x10), hexDigit (u / 0x10 % 0x10),
    hexDigit (u % 0x10)]

/-- The code unit that the next four digits are. -/
def hex4? : Str → Option (ℕ × Str)
  | a :: b :: c :: d :: s =>
    match hexValue a, hexValue b, hexValue c, hexValue d with
    | some a, some b, some c, some d => some (((a * 0x10 + b) * 0x10 + c) * 0x10 + d, s)
    | _, _, _, _ => none
  | _ => none

/-- The code points with a short escape, and the letter of it. -/
def letters : List (ℕ × ℕ) :=
  [(0x22, 0x22), (0x5C, 0x5C), (0x0A, 0x6E), (0x0D, 0x72), (0x09, 0x74), (0x0C, 0x66),
    (0x08, 0x62)]

/-- The letter after the backslash, where a code point has a short escape. -/
def letterOf (c : ℕ) : Option ℕ := (letters.find? fun p => p.1 = c).map Prod.snd

/-- What the letter after a backslash stands for: a slash may be escaped too. -/
def ofLetter (e : ℕ) : Option ℕ :=
  if e = 0x2F then some 0x2F else (letters.find? fun p => p.2 = e).map Prod.fst

/-- One code point between the quotes. -/
def escaped (c : ℕ) : Str :=
  match letterOf c with
  | some e => [0x5C, e]
  | none =>
    if 0x20 ≤ c ∧ c ≤ 0x7E then [c]
    else if c < 0x10000 then 0x5C :: 0x75 :: hex4 c
    else 0x5C :: 0x75 :: hex4 (highOf c) ++ 0x5C :: 0x75 :: hex4 (lowOf c)

/-- `json.dumps(s)` of a string -/
def quoted (s : Str) : Str := 0x22 :: (s.flatMap escaped ++ [0x22])

/-- The text after `word`, if it starts with it. -/
def after (word s : Str) : Option Str :=
  if word.isPrefixOf s then some (s.drop word.length) else none

/-- What follows a high surrogate: the escape of a low one, or something else. -/
def pairWith (high : ℕ) (s : Str) : Option (ℕ × Str) :=
  match after [0x5C, 0x75] s with
  | none => some (high, s)
  | some t =>
    match hex4? t with
    | none => none
    | some (low, t) => if isLow low then some (join high low, t) else some (high, s)

/-- What a backslash begins. -/
def readEscape : Str → Option (ℕ × Str)
  | [] => none
  | e :: s =>
    if e = 0x75 then
      match hex4? s with
      | none => none
      | some (u, s) => if isHigh u then pairWith u s else some (u, s)
    else (ofLetter e).map fun c => (c, s)

/-- One code point of a string. A control character has to be escaped. -/
def readChar : Str → Option (ℕ × Str)
  | [] => none
  | c :: s => if c = 0x5C then readEscape s else if c ≤ 0x1F then none else some (c, s)

/-- The rest of a string up to its closing quote. -/
def scanString : ℕ → Str → Option (Str × Str)
  | _, [] => none
  | 0, _ => none
  | n + 1, c :: s =>
    if c = 0x22 then some ([], s)
    else
      match readChar (c :: s) with
      | none => none
      | some (u, s) => (scanString n s).map fun r => (u :: r.1, r.2)

/-! ## Numerals -/

/-- A numeral by its digits: `-?(0|[1-9][0-9]*)(\.[0-9]+)?([eE][-+]?[0-9]+)?` -/
structure Numeral where
  negative : Bool
  whole : List ℕ
  fraction : List ℕ
  exponent : Option (Option Bool × List ℕ)
  deriving DecidableEq

namespace Numeral

/-- No leading zero, and digits where they have to be. -/
structure Valid (l : Numeral) : Prop where
  whole : l.whole = [0] ∨ ∃ d ds, l.whole = d :: ds ∧ 0 < d
  digits : ∀ d ∈ l.whole, d < 10
  fraction : ∀ d ∈ l.fraction, d < 10
  exponent : ∀ e ∈ l.exponent, e.2 ≠ [] ∧ ∀ d ∈ e.2, d < 10

/-- It has a fraction or an exponent. -/
def isFloat (l : Numeral) : Bool := !l.fraction.isEmpty || l.exponent.isSome

def digitText (ds : List ℕ) : Str := ds.map (0x30 + ·)

def fractionText (ds : List ℕ) : Str := if ds.isEmpty then [] else 0x2E :: digitText ds

def exponentText : Option (Option Bool × List ℕ) → Str
  | none => []
  | some (none, ds) => 0x65 :: digitText ds
  | some (some minus, ds) => 0x65 :: (if minus then 0x2D else 0x2B) :: digitText ds

def text (l : Numeral) : Str :=
  (if l.negative then [0x2D] else []) ++
    (digitText l.whole ++ (fractionText l.fraction ++ exponentText l.exponent))

/-- `int(numeral)` -/
def toInt (l : Numeral) : ℤ :=
  let n : ℕ := Nat.ofDigits 10 l.whole.reverse
  if l.negative then -(n : ℤ) else n

/-- `int.__repr__` -/
def ofInt (n : ℤ) : Numeral where
  negative := n < 0
  whole := if n = 0 then [0] else (Nat.digits 10 n.natAbs).reverse
  fraction := []
  exponent := none

/-- `-0.0` -/
def negativeZero : Numeral := ⟨true, [0], [0], none⟩

end Numeral

def isDigit (c : ℕ) : Bool := 0x30 ≤ c && c ≤ 0x39

/-- The digits at the start of a text, and what follows them. -/
def readDigits (s : Str) : List ℕ × Str :=
  ((s.takeWhile isDigit).map (· - 0x30), s.dropWhile isDigit)

/-- The whole part: a zero stands alone. -/
def readWhole : Str → Option (List ℕ × Str)
  | [] => none
  | c :: s =>
    if c = 0x30 then some ([0], s) else if isDigit c then some (readDigits (c :: s)) else none

/-- A fraction, where a digit follows the point. -/
def readFraction : Str → List ℕ × Str
  | c :: d :: s => if c = 0x2E ∧ isDigit d then readDigits (d :: s) else ([], c :: d :: s)
  | s => ([], s)

/-- The sign of an exponent. -/
def readSign : Str → Option Bool × Str
  | [] => (none, [])
  | c :: s =>
    if c = 0x2D then (some true, s) else if c = 0x2B then (some false, s) else (none, c :: s)

/-- An exponent, where digits follow. -/
def readExponent : Str → Option (Option Bool × List ℕ) × Str
  | [] => (none, [])
  | c :: s =>
    if c = 0x65 ∨ c = 0x45 then
      let (sign, t) := readSign s
      let (ds, t) := readDigits t
      if ds.isEmpty then (none, c :: s) else (some (sign, ds), t)
    else (none, c :: s)

/-- The numeral at the start of a text. -/
def scanNumeral (s : Str) : Option (Numeral × Str) :=
  let negative := decide (s.head? = some 0x2D)
  match readWhole (if negative then s.tail else s) with
  | none => none
  | some (whole, s) =>
    let (fraction, s) := readFraction s
    let (exponent, s) := readExponent s
    some (⟨negative, whole, fraction, exponent⟩, s)

/-- `float.__repr__` of a finite float that is not `-0.0`, and `float` of a numeral. -/
structure Floats where
  repr : ℚ → Numeral
  float : Numeral → Double
  valid : ∀ q, (repr q).Valid
  isFloat : ∀ q, (repr q).isFloat = true
  float_repr : ∀ q, float (repr q) = .finite q
  float_negativeZero : float Numeral.negativeZero = .negativeZero

/-! ## Writing -/

/-- The code points of an ASCII word. -/
def word (s : String) : Str := Str.of s.toList

variable (fl : Floats)

/-- `float.__repr__`, with the names JSON has no numeral for. -/
def doubleText : Double → Str
  | .nan => word "NaN"
  | .infinity negative => if negative then word "-Infinity" else word "Infinity"
  | .negativeZero => Numeral.negativeZero.text
  | .finite q => (fl.repr q).text

mutual

/-- `json.dumps(v)` -/
def dumps : Json → Str
  | .null => word "null"
  | .bool true => word "true"
  | .bool false => word "false"
  | .int n => (Numeral.ofInt n).text
  | .double d => doubleText fl d
  | .str s => quoted s
  | .list [] => word "[]"
  | .list (v :: items) => 0x5B :: (dumps v ++ (dumpsItems items ++ [0x5D]))
  | .obj [] => word "\x7b\x7d"
  | .obj ((key, v) :: fields) =>
    0x7B :: (quoted key ++ (word ": " ++ (dumps v ++ (dumpsFields fields ++ [0x7D]))))

/-- The items of a list after the first. -/
def dumpsItems : List Json → Str
  | [] => []
  | v :: items => word ", " ++ (dumps v ++ dumpsItems items)

/-- The fields of an object after the first. -/
def dumpsFields : List (Str × Json) → Str
  | [] => []
  | (key, v) :: fields =>
    word ", " ++ (quoted key ++ (word ": " ++ (dumps v ++ dumpsFields fields)))

end

/-! ## Reading -/

/-- The whitespace of JSON. -/
def isSpace (c : ℕ) : Bool := c == 0x20 || c == 0x09 || c == 0x0A || c == 0x0D

def skipSpace (s : Str) : Str := s.dropWhile isSpace

/-- The items of a list after the first, up to the closing bracket. -/
def scanItems (scan : Str → Option (Json × Str)) : ℕ → Str → Option (List Json × Str)
  | 0, _ => none
  | k + 1, s =>
    match after [0x5D] (skipSpace s) with
    | some s => some ([], s)
    | none =>
      match (after [0x2C] (skipSpace s)).bind fun s => scan (skipSpace s) with
      | none => none
      | some (v, s) => (scanItems scan k s).map fun r => (v :: r.1, r.2)

/-- A list, after its opening bracket. -/
def scanList (scan : Str → Option (Json × Str)) (s : Str) : Option (Json × Str) :=
  match after [0x5D] (skipSpace s) with
  | some s => some (.list [], s)
  | none =>
    match scan (skipSpace s) with
    | none => none
    | some (v, s) => (scanItems scan s.length s).map fun r => (.list (v :: r.1), r.2)

/-- A key, the colon, and a value. -/
def scanField (scan : Str → Option (Json × Str)) (s : Str) : Option ((Str × Json) × Str) :=
  match (after [0x22] s).bind fun s => scanString s.length s with
  | none => none
  | some (key, s) =>
    match (after [0x3A] (skipSpace s)).bind fun s => scan (skipSpace s) with
    | none => none
    | some (v, s) => some ((key, v), s)

/-- The fields of an object after the first, up to the closing brace. -/
def scanFields (scan : Str → Option (Json × Str)) : ℕ → Str → Option (List (Str × Json) × Str)
  | 0, _ => none
  | k + 1, s =>
    match after [0x7D] (skipSpace s) with
    | some s => some ([], s)
    | none =>
      match (after [0x2C] (skipSpace s)).bind fun s => scanField scan (skipSpace s) with
      | none => none
      | some (f, s) => (scanFields scan k s).map fun r => (f :: r.1, r.2)

/-- The dictionary of the fields: of two with one key the last counts. -/
def dictOf (fields : List (Str × Json)) : List (Str × Json) :=
  (fields.foldl (fun d f => d.set f.1 f.2) Dict.empty).entries

/-- An object, after its opening brace. -/
def scanObject (scan : Str → Option (Json × Str)) (s : Str) : Option (Json × Str) :=
  match after [0x7D] (skipSpace s) with
  | some s => some (.obj [], s)
  | none =>
    match scanField scan (skipSpace s) with
    | none => none
    | some (f, s) =>
      (scanFields scan s.length s).map fun r => (.obj (dictOf (f :: r.1)), r.2)

/-- A number; `int` refuses a numeral of more than 4300 digits. -/
def scanNumber (s : Str) : Option (Json × Str) :=
  match scanNumeral s with
  | none => none
  | some (l, s) =>
    if l.isFloat then some (.double (fl.float l), s)
    else if l.whole.length ≤ Str.maxDigits then some (.int l.toInt, s) else none

/-- The words of JSON and of Python's floats. -/
def words : List (Str × Json) :=
  [(word "null", .null), (word "true", .bool true), (word "false", .bool false),
    (word "NaN", .double .nan), (word "Infinity", .double (.infinity false)),
    (word "-Infinity", .double (.infinity true))]

/-- The word a text starts with. -/
def scanWord (s : Str) : Option (Json × Str) :=
  words.findSome? fun w => (after w.1 s).map fun s => (w.2, s)

/-- `scan_once`, as deep as `n`. -/
def scanValue : ℕ → Str → Option (Json × Str)
  | 0, _ => none
  | _ + 1, [] => none
  | n + 1, c :: s =>
    if c = 0x22 then (scanString s.length s).map fun r => (.str r.1, r.2)
    else if c = 0x7B then scanObject (scanValue n) s
    else if c = 0x5B then scanList (scanValue n) s
    else (scanWord (c :: s)).or (scanNumber fl (c :: s))

/-- `json.loads(s)`; `none` is the exception. -/
def loads (s : Str) : Option Json :=
  match scanValue fl s.length (skipSpace s) with
  | none => none
  | some (v, s) => if skipSpace s = [] then some v else none

/-! ## Strings come back -/

theorem after_append (w s : Str) : after w (w ++ s) = some s := by
  have hprefix : w.isPrefixOf (w ++ s) = true := by simp
  rw [after, if_pos hprefix, List.drop_left]

theorem after_cons_of_ne {c d : ℕ} (w s : Str) (h : c ≠ d) : after (c :: w) (d :: s) = none := by
  simp [after, List.isPrefixOf, h]

theorem hexValue_hexDigit {n : ℕ} (h : n < 16) : hexValue (hexDigit n) = some n := by
  unfold hexValue hexDigit
  split
  next => rw [if_pos (by omega), Nat.add_sub_cancel_left]
  next => rw [if_neg (by omega), if_pos (by omega), Nat.add_sub_cancel_left]

theorem hex4?_hex4 {u : ℕ} (h : u < 0x10000) (s : Str) : hex4? (hex4 u ++ s) = some (u, s) := by
  have h₁ := hexValue_hexDigit (show u / 0x1000 < 16 by omega)
  have h₂ := hexValue_hexDigit (show u / 0x100 % 0x10 < 16 by omega)
  have h₃ := hexValue_hexDigit (show u / 0x10 % 0x10 < 16 by omega)
  have h₄ := hexValue_hexDigit (show u % 0x10 < 16 by omega)
  have hu : ((u / 0x1000 * 0x10 + u / 0x100 % 0x10) * 0x10 + u / 0x10 % 0x10) * 0x10 + u % 0x10
      = u := by omega
  simp only [hex4, List.cons_append, List.nil_append, hex4?, h₁, h₂, h₃, h₄, hu]

/-- What is left to read after a code point leaves it alone: a high surrogate is joined with
nothing there. -/
def Follows (c : ℕ) (s : Str) : Prop := isHigh c = true → pairWith c s = some (c, s)

theorem ofLetter_letterOf {c e : ℕ} (h : letterOf c = some e) :
    e ≠ 0x75 ∧ ofLetter e = some c := by
  have hall : ∀ p ∈ letters, p.2 ≠ 0x75 ∧ ofLetter p.2 = some p.1 := by decide
  obtain ⟨p, hp, rfl⟩ := Option.map_eq_some_iff.mp h
  obtain rfl : p.1 = c := by simpa using List.find?_some hp
  exact hall p (List.mem_of_find?_eq_some hp)

/-- The escapes of two surrogates are joined. -/
theorem readEscape_pair {high low : ℕ} (hhigh : isHigh high = true) (hlow : isLow low = true)
    (s : Str) : readEscape (0x75 :: (hex4 high ++ 0x5C :: 0x75 :: (hex4 low ++ s)))
      = some (join high low, s) := by
  have hh : high < 0x10000 := by
    simp only [isHigh, Bool.and_eq_true, decide_eq_true_eq] at hhigh
    omega
  have hl : low < 0x10000 := by
    simp only [isLow, Bool.and_eq_true, decide_eq_true_eq] at hlow
    omega
  have hpair : after [0x5C, 0x75] (0x5C :: 0x75 :: (hex4 low ++ s)) = some (hex4 low ++ s) :=
    after_append [0x5C, 0x75] _
  rw [readEscape, if_pos rfl, hex4?_hex4 hh]
  simp only [hhigh, if_true, pairWith, hpair]
  rw [hex4?_hex4 hl]
  simp only [hlow, if_true]

theorem isHigh_highOf {c : ℕ} (hc : c < 0x110000) : isHigh (highOf c) = true := by
  have hrange : 0xD800 ≤ highOf c ∧ highOf c < 0xDC00 := by
    unfold highOf
    omega
  simp [isHigh, hrange]

theorem isLow_lowOf (c : ℕ) : isLow (lowOf c) = true := by
  have hrange : 0xDC00 ≤ lowOf c ∧ lowOf c < 0xE000 := by
    unfold lowOf
    omega
  simp [isLow, hrange]

theorem join_surrogates {c : ℕ} (h : 0x10000 ≤ c) : join (highOf c) (lowOf c) = c := by
  unfold join highOf lowOf
  omega

/-- A code point is read back from its escape. -/
theorem readChar_escaped {c : ℕ} (hc : c < 0x110000) {s : Str} (h : Follows c s) :
    readChar (escaped c ++ s) = some (c, s) := by
  unfold escaped
  cases hletter : letterOf c with
  | some e =>
    obtain ⟨hne, hof⟩ := ofLetter_letterOf hletter
    simp only [List.cons_append, List.nil_append, readChar, if_true, readEscape, if_neg hne, hof,
      Option.map_some]
  | none =>
    dsimp only
    split
    next hprint =>
      have hslash : c ≠ 0x5C := fun he => by rw [he] at hletter; cases hletter
      simp only [List.cons_append, List.nil_append, readChar, if_neg hslash]
      rw [if_neg (by omega)]
    next =>
      split
      next hsmall =>
        simp only [List.cons_append, readChar, if_true, readEscape, hex4?_hex4 hsmall]
        cases hhigh : isHigh c with
        | false => rfl
        | true => exact h hhigh
      next hlarge =>
        simp only [List.cons_append, List.append_assoc, readChar, if_true]
        rw [readEscape_pair (isHigh_highOf hc) (isLow_lowOf c), join_surrogates (by omega)]

/-- An escape of a code unit at the start of what is written for `d` is that of `d`, or of
a high surrogate. -/
theorem after_escaped {d : ℕ} (hd : d < 0x110000) (r : Str) :
    after [0x5C, 0x75] (escaped d ++ r) = none ∨
      ∃ u r', u < 0x10000 ∧ (u = d ∨ isHigh u = true) ∧
        after [0x5C, 0x75] (escaped d ++ r) = some (hex4 u ++ r') := by
  unfold escaped
  cases hletter : letterOf d with
  | some e =>
    have hne := (ofLetter_letterOf hletter).1
    exact Or.inl (by simp [after, List.isPrefixOf, hne.symm])
  | none =>
    dsimp only
    split
    next =>
      have hslash : d ≠ 0x5C := fun he => by rw [he] at hletter; cases hletter
      exact Or.inl (after_cons_of_ne _ _ hslash.symm)
    next =>
      split
      next hsmall => exact Or.inr ⟨d, r, hsmall, Or.inl rfl, after_append [0x5C, 0x75] _⟩
      next hlarge =>
        refine Or.inr ⟨highOf d, 0x5C :: 0x75 :: (hex4 (lowOf d) ++ r), ?_,
          Or.inr (isHigh_highOf hd), ?_⟩
        · unfold highOf
          omega
        · simp only [List.cons_append, List.append_assoc]
          exact after_append [0x5C, 0x75] _

theorem isLow_of_isHigh {u : ℕ} (h : isHigh u = true) : isLow u = false := by
  simp only [isHigh, isLow, Bool.and_eq_true, decide_eq_true_eq, Bool.and_eq_false_iff,
    decide_eq_false_iff_not] at h ⊢
  omega

/-- What is written after a code point leaves it alone, unless it is a low surrogate after a
high one. -/
theorem follows_escaped {c : ℕ} {s : Str} (hs : ∀ d ∈ s, d < 0x110000)
    (h : ∀ d ∈ s.head?, isHigh c = true → isLow d = false) (t : Str) :
    Follows c (s.flatMap escaped ++ 0x22 :: t) := by
  intro hhigh
  cases s with
  | nil =>
    have hnone : after [0x5C, 0x75] (0x22 :: t) = none := after_cons_of_ne _ _ (by decide)
    rw [List.flatMap_nil, List.nil_append, pairWith, hnone]
  | cons d s =>
    have hd : isLow d = false := h d rfl hhigh
    rw [List.flatMap_cons, List.append_assoc, pairWith]
    rcases after_escaped (hs d (List.mem_cons_self ..)) (s.flatMap escaped ++ 0x22 :: t) with
      hnone | ⟨u, r, hu, hud, hsome⟩
    · rw [hnone]
    · have hlow : isLow u = false := by
        rcases hud with rfl | hhigh'
        · exact hd
        · exact isLow_of_isHigh hhigh'
      rw [hsome]
      dsimp only
      rw [hex4?_hex4 hu]
      simp only [hlow, Bool.false_eq_true, if_false]

/-- What is written for a code point is no quote. -/
theorem escaped_head (c : ℕ) : ∃ d r, escaped c = d :: r ∧ d ≠ 0x22 := by
  unfold escaped
  cases hletter : letterOf c with
  | some e => exact ⟨_, _, rfl, by decide⟩
  | none =>
    dsimp only
    split
    next =>
      refine ⟨c, [], rfl, ?_⟩
      intro he
      rw [he] at hletter
      cases hletter
    next =>
      split
      next => exact ⟨_, _, rfl, by decide⟩
      next => exact ⟨_, _, rfl, by decide⟩

/-- A surrogate is written as an escape of its own. -/
theorem escaped_surrogate {u : ℕ} (h : isHigh u = true ∨ isLow u = true) :
    escaped u = 0x5C :: 0x75 :: hex4 u := by
  have hrange : 0xD800 ≤ u ∧ u < 0xE000 := by
    simp only [isHigh, isLow, Bool.and_eq_true, decide_eq_true_eq] at h
    omega
  have hletters : ∀ p ∈ letters, p.1 < 0xD800 := by decide
  have hletter : letterOf u = none := by
    rw [letterOf, Option.map_eq_none_iff, List.find?_eq_none]
    intro p hp
    have := hletters p hp
    rw [decide_eq_true_eq]
    omega
  rw [escaped, hletter]
  dsimp only
  rw [if_neg (by omega), if_pos (by omega)]

/-- The string with each low surrogate after a high one joined with it. -/
def joined : Str → Str
  | c :: d :: s =>
    if isHigh c = true ∧ isLow d = true then join c d :: joined s else c :: joined (d :: s)
  | s => s

/-- **A string comes back joined**, with what stands behind its closing quote. -/
theorem scanString_escaped (s : Str) (h : ∀ c ∈ s, c < 0x110000) (t : Str) :
    ∀ n, s.length < n → scanString n (s.flatMap escaped ++ 0x22 :: t) = some (joined s, t) := by
  -- a step reads a code point that is left alone
  have hstep : ∀ {c : ℕ} {s : Str} {n : ℕ}, (∀ d ∈ c :: s, d < 0x110000) →
      (∀ d ∈ s.head?, isHigh c = true → isLow d = false) →
      scanString (n + 1) ((c :: s).flatMap escaped ++ 0x22 :: t) =
        (scanString n (s.flatMap escaped ++ 0x22 :: t)).map fun r => (c :: r.1, r.2) := by
    intro c s n hs hcd
    have hread := readChar_escaped (hs c (List.mem_cons_self ..))
      (follows_escaped (fun d hd => hs d (List.mem_cons_of_mem c hd)) hcd t)
    obtain ⟨d, r, hdr, hquote⟩ := escaped_head c
    rw [List.flatMap_cons, List.append_assoc]
    rw [hdr, List.cons_append] at hread ⊢
    rw [scanString, if_neg hquote, hread]
  induction s using joined.induct with
  | case1 c d s hpair ih =>
    intro n hn
    simp only [List.length_cons] at hn
    obtain ⟨n, rfl⟩ := Nat.exists_eq_succ_of_ne_zero (show n ≠ 0 by omega)
    have hrest := ih (fun e he => h e (by simp [he])) n (by omega)
    rw [List.flatMap_cons, List.flatMap_cons, escaped_surrogate (Or.inl hpair.1),
      escaped_surrogate (Or.inr hpair.2)]
    simp only [List.cons_append, List.append_assoc]
    rw [scanString, if_neg (by decide), readChar, if_pos rfl, readEscape_pair hpair.1 hpair.2]
    dsimp only
    rw [hrest, joined, if_pos hpair, Option.map_some]
  | case2 c d s hpair ih =>
    intro n hn
    simp only [List.length_cons] at hn
    obtain ⟨n, rfl⟩ := Nat.exists_eq_succ_of_ne_zero (show n ≠ 0 by omega)
    have hrest := ih (fun e he => h e (List.mem_cons_of_mem c he)) n
      (by simp only [List.length_cons]; omega)
    have hcd : ∀ e ∈ (d :: s).head?, isHigh c = true → isLow e = false := by
      intro e he hhigh
      obtain rfl := Option.some.inj he
      exact Bool.eq_false_iff.mpr fun hlow => hpair ⟨hhigh, hlow⟩
    rw [hstep h hcd, hrest, joined, if_neg hpair, Option.map_some]
  | case3 s hshort =>
    intro n hn
    obtain ⟨n, rfl⟩ := Nat.exists_eq_succ_of_ne_zero (show n ≠ 0 by omega)
    cases s with
    | nil => simp only [List.flatMap_nil, List.nil_append, scanString, if_true, joined]
    | cons c s =>
      cases s with
      | cons d s => exact absurd rfl (hshort c d s)
      | nil =>
        simp only [List.length_cons, List.length_nil] at hn
        obtain ⟨n, rfl⟩ := Nat.exists_eq_succ_of_ne_zero (show n ≠ 0 by omega)
        rw [hstep h fun e he => (by cases he)]
        simp only [List.flatMap_nil, List.nil_append, scanString, if_true, joined,
          Option.map_some]

/-- The code units of a code point, as a language with 16-bit characters counts them. -/
def units (c : ℕ) : List ℕ := if c < 0x10000 then [c] else [highOf c, lowOf c]

/-- Joining changes no code unit. -/
theorem units_joined (s : Str) : (joined s).flatMap units = s.flatMap units := by
  induction s using joined.induct with
  | case1 c d s hpair ih =>
    obtain ⟨hhigh, hlow⟩ := hpair
    rw [joined, if_pos ⟨hhigh, hlow⟩, List.flatMap_cons, List.flatMap_cons, List.flatMap_cons, ih]
    simp only [isHigh, isLow, Bool.and_eq_true, decide_eq_true_eq] at hhigh hlow
    have hjoin : ¬join c d < 0x10000 := by
      unfold join
      omega
    have hback : highOf (join c d) = c ∧ lowOf (join c d) = d := by
      unfold highOf lowOf join
      omega
    have hunits : units c = [c] ∧ units d = [d] :=
      ⟨if_pos (by omega), if_pos (by omega)⟩
    rw [hunits.1, hunits.2, units, if_neg hjoin, hback.1, hback.2]
    rfl
  | case2 c d s hpair ih =>
    rw [joined, if_neg hpair, List.flatMap_cons, ih]
    exact List.flatMap_cons.symm
  | case3 s hshort =>
    rcases s with _ | ⟨c, _ | ⟨d, s⟩⟩
    · rfl
    · rfl
    · exact absurd rfl (hshort c d s)

/-- A string that `loads` can return: code points, and no low surrogate right after a high
one. -/
structure Paired (s : Str) : Prop where
  points : ∀ c ∈ s, c < 0x110000
  apart : s.IsChain fun c d => isHigh c = true → isLow d = false

theorem Paired.joined_eq {s : Str} (h : Paired s) : joined s = s := by
  obtain ⟨-, h⟩ := h
  induction s using joined.induct with
  | case1 c d s hpair =>
    have hcd := (List.isChain_cons_cons.mp h).1 hpair.1
    rw [hpair.2] at hcd
    cases hcd
  | case2 c d s hpair ih => rw [joined, if_neg hpair, ih h.tail]
  | case3 s hshort =>
    rcases s with _ | ⟨c, _ | ⟨d, s⟩⟩
    · rfl
    · rfl
    · exact absurd rfl (hshort c d s)

/-- A string without surrogates has nothing to be joined. -/
theorem paired_of_ascii {s : Str} (h : ∀ c ∈ s, c < 128) : Paired s := by
  refine ⟨fun c hc => (h c hc).trans (by decide), ?_⟩
  induction s with
  | nil => exact .nil
  | cons c s ih =>
    refine List.isChain_cons.mpr ⟨?_, ih fun d hd => h d (List.mem_cons_of_mem c hd)⟩
    intro d _ hhigh
    have hc := h c (List.mem_cons_self ..)
    simp only [isHigh, Bool.and_eq_true, decide_eq_true_eq] at hhigh
    omega

end JsonText

end Solverr.Lib
