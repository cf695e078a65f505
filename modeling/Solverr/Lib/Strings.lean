import Solverr.Lib.Url
import Solverr.Lib.Utf8

/-!
# Python strings

The methods of `str` on strings of code points. What they read from the Unicode tables
is a parameter, `Unicode`, with the facts about ASCII that hold of every version of the
tables. `Str.text?` says which strings have an encoding: those without a lone surrogate.
-/

namespace Solverr.Lib

/-- `str.upper` on ASCII. -/
def Url.asciiUpper (c : ℕ) : ℕ := if 'a'.toNat ≤ c ∧ c ≤ 'z'.toNat then c - 32 else c

/-- The value of an ASCII digit. -/
def asciiDigit (c : ℕ) : Option ℕ :=
  if '0'.toNat ≤ c ∧ c ≤ '9'.toNat then some (c - '0'.toNat) else none

/-- The Unicode tables: `str.lower`, `str.upper`, `str.isalpha` of one code point, and the
value of a decimal digit. -/
structure Unicode where
  lower : Str → Str
  upper : Str → Str
  isAlpha : ℕ → Bool
  decimal : ℕ → Option ℕ
  lower_ascii : ∀ s : Str, (∀ c ∈ s, c < 128) → lower s = s.map Url.asciiLower
  upper_ascii : ∀ s : Str, (∀ c ∈ s, c < 128) → upper s = s.map Url.asciiUpper
  isAlpha_ascii : ∀ c < 128, isAlpha c = Url.isAlpha c
  decimal_ascii : ∀ c < 128, decimal c = asciiDigit c

/-- Tables that only know ASCII. -/
def Unicode.ascii : Unicode where
  lower s := s.map Url.asciiLower
  upper s := s.map Url.asciiUpper
  isAlpha := Url.isAlpha
  decimal := asciiDigit
  lower_ascii _ _ := rfl
  upper_ascii _ _ := rfl
  isAlpha_ascii _ _ := rfl
  decimal_ascii _ _ := rfl

/-- `parts.hostname` -/
def Url.Parts.hostname (parts : Url.Parts) (u : Unicode) : Option Str :=
  let (hostname, _) := parts.hostinfo
  if hostname.isEmpty then none
  else
    let (address, zone) := cut '%'.toNat hostname
    some (u.lower address ++ (zone.map ('%'.toNat :: ·)).getD [])

namespace Str

/-- What `str.isspace` accepts. No surrogate is a space. -/
def isSpace (c : ℕ) : Bool := Text.isSpace (Char.ofNat c)

/-- `s.strip()` -/
def strip (s : Str) : Str := ((s.dropWhile isSpace).reverse.dropWhile isSpace).reverse

/-- The text that a string is, unless it has a lone surrogate. -/
def text? : Str → Option Text
  | [] => some []
  | c :: s => if c.isValidChar then (text? s).map (Char.ofNat c :: ·) else none

/-- `s.encode('utf-8')`; `none` is `UnicodeEncodeError`. -/
def encode? (s : Str) : Option (List ℕ) := s.text?.map Utf8.encode

/-- The text as it goes on after the next `skip` code points, which belong to an `old`
that was replaced. -/
def replaceFrom (old new : Str) : ℕ → Str → Str
  | _, [] => []
  | skip + 1, _ :: s => replaceFrom old new skip s
  | 0, c :: s =>
    if old.isPrefixOf (c :: s) then new ++ replaceFrom old new (old.length - 1) s
    else c :: replaceFrom old new 0 s

/-- `s.replace(old, new)`, for an `old` that is not empty. -/
def replace (old new s : Str) : Str := replaceFrom old new 0 s

/-- The longest numeral that `int` reads, in digits. -/
def maxDigits : ℕ := 4300

/-- The digits of a numeral, with single underscores between them. -/
def digits? (u : Unicode) (s : Str) : Option (List ℕ) :=
  let groups := s.splitOn '_'.toNat
  if groups.any List.isEmpty then none else groups.flatten.mapM u.decimal

/-- The value of a numeral without its sign. -/
def natural? (u : Unicode) (s : Str) : Option ℕ :=
  match digits? u s with
  | some digits =>
    if digits.length ≤ maxDigits then some (digits.foldl (fun n d => 10 * n + d) 0) else none
  | none => none

/-- `int(s)` of stripped text; `none` is `ValueError`. -/
def int? (u : Unicode) (s : Str) : Option ℤ :=
  match s with
  | [] => none
  | c :: digits =>
    if c = '+'.toNat then (natural? u digits).map Int.ofNat
    else if c = '-'.toNat then (natural? u digits).map fun n => -(n : ℤ)
    else (natural? u s).map Int.ofNat

/-- What `int` takes off the ends of a string: fewer of the ASCII controls than `strip`. -/
def isIntSpace (c : ℕ) : Bool := (9 ≤ c && c ≤ 13) || c == 32 || (128 ≤ c && isSpace c)

/-- `int(s)`; `none` is `ValueError`. -/
def readInt? (u : Unicode) (s : Str) : Option ℤ :=
  int? u ((s.dropWhile isIntSpace).reverse.dropWhile isIntSpace).reverse

/-- A string whose every code point is a character. -/
def Encodable (s : Str) : Prop := ∀ c ∈ s, c.isValidChar

instance (s : Str) : Decidable s.Encodable := inferInstanceAs (Decidable (∀ c ∈ s, _))

theorem text?_isSome_iff (s : Str) : (∃ t, s.text? = some t) ↔ s.Encodable := by
  induction s with
  | nil => exact iff_of_true ⟨[], rfl⟩ (fun c hc => nomatch hc)
  | cons c s ih =>
    unfold text? Encodable
    rw [List.forall_mem_cons]
    split
    next hc =>
      rw [and_iff_right hc, ← Encodable, ← ih]
      constructor
      · rintro ⟨t, ht⟩
        obtain ⟨u, hu, -⟩ := Option.map_eq_some_iff.mp ht
        exact ⟨u, hu⟩
      · rintro ⟨t, ht⟩
        exact ⟨_, Option.map_eq_some_iff.mpr ⟨t, ht, rfl⟩⟩
    next hc => exact iff_of_false (fun h => nomatch h.choose_spec) (fun h => hc h.1)

/-- **What can be encoded** is what has no lone surrogate. -/
theorem encode?_isSome_iff (s : Str) : (∃ bytes, s.encode? = some bytes) ↔ s.Encodable := by
  rw [← text?_isSome_iff]
  constructor
  · rintro ⟨bytes, h⟩
    obtain ⟨t, ht, -⟩ := Option.map_eq_some_iff.mp h
    exact ⟨t, ht⟩
  · rintro ⟨t, ht⟩
    exact ⟨_, Option.map_eq_some_iff.mpr ⟨t, ht, rfl⟩⟩

theorem encodable_append {a b : Str} : Encodable (a ++ b) ↔ a.Encodable ∧ b.Encodable :=
  List.forall_mem_append

theorem encodable_cons {c : ℕ} {s : Str} : Encodable (c :: s) ↔ c.isValidChar ∧ s.Encodable :=
  List.forall_mem_cons

end Str

/-- Why `int(value)` raises. -/
inductive IntError
  | typeError
  | valueError
  | overflowError
  deriving DecidableEq

/-- `int(x)` of a double: towards zero. -/
def Double.toInt : Double → Except IntError ℤ
  | .nan => .error .valueError
  | .infinity _ => .error .overflowError
  | .negativeZero => .ok 0
  | .finite q => .ok (q.num.tdiv q.den)

/-- `int(value)` -/
def Json.toInt (u : Unicode) : Json → Except IntError ℤ
  | .null | .list _ | .obj _ => .error .typeError
  | .bool b => .ok (if b then 1 else 0)
  | .int n => .ok n
  | .double x => x.toInt
  | .str s =>
    match s.readInt? u with
    | some n => .ok n
    | none => .error .valueError

/-- **Only an infinity is too large to be an integer.** -/
theorem Json.toInt_overflow_iff {u : Unicode} {value : Json} :
    value.toInt u = .error .overflowError ↔ ∃ negative, value = .double (.infinity negative) := by
  constructor
  · intro h
    cases value with
    | double x =>
      cases x with
      | infinity negative => exact ⟨negative, rfl⟩
      | nan | negativeZero | finite => cases h
    | str s =>
      rw [toInt] at h
      split at h <;> cases h
    | null | bool | int | list | obj => cases h
  · intro h
    obtain ⟨negative, rfl⟩ := h
    rfl

end Solverr.Lib
