import Mathlib.Data.Rat.Defs

/-!
# JSON values

What Python's `json.loads` returns. A string is a list of code points rather
than of `Char`s, because an escape like `\ud800` puts a lone surrogate into it.
Numbers are integers or doubles, and the doubles include `NaN` and the
infinities, which the parser accepts. An object lists its fields in order.
-/

namespace Solverr.Lib

/-- A string of any code points. -/
abbrev Str := List Nat

/-- Strings that compare equal are equal. -/
instance : LawfulBEq Str := inferInstanceAs (LawfulBEq (List Nat))

/-- The code points of a text. -/
def Str.of (s : List Char) : Str := s.map Char.toNat

/-- A double. Zero has a sign, and so has its spelling. -/
inductive Double
  | nan
  | infinity (negative : Bool)
  | negativeZero
  | finite (value : ℚ)
  deriving DecidableEq

inductive Json
  | null
  | bool (value : Bool)
  | int (value : Int)
  | double (value : Double)
  | str (value : Str)
  | list (items : List Json)
  | obj (fields : List (Str × Json))

namespace Json

/-- `bool(value)` -/
def truthy : Json → Bool
  | null => false
  | bool b => b
  | int n => n ≠ 0
  | double .negativeZero => false
  | double (.finite q) => q ≠ 0
  | double _ => true
  | str s => !s.isEmpty
  | list items => !items.isEmpty
  | obj fields => !fields.isEmpty

/-- Neither a list nor an object. -/
def isLeaf : Json → Bool
  | list _ | obj _ => false
  | _ => true

/-- `value.get(key)` of an object's fields. -/
def get? (fields : List (Str × Json)) (key : Str) : Option Json :=
  (fields.find? fun f => f.1 = key).map Prod.snd

end Json

end Solverr.Lib
