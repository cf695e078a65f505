import Solverr.Controller.MaxTimeout

/-!
# The parameters of a request

`V1RequestBase` copies whatever object arrived; `validate_request_types` makes its
annotations binding. The loop goes through the annotations in the order of the class and
raises at the first one that is not met, so what comes through is `WellTyped`
(`validateRequestTypes_ok_iff`). The warning about unknown parameters is left out.
-/

namespace Solverr.Controller

open Solverr.Lib (Json Str)

/-- The code points of a literal. -/
def lit (s : String) : Str := .of s.toList

/-- The attributes of a request, `req.__dict__`. -/
abbrev Fields := List (Str × Json)

/-- `getattr(req, name, None)`: an attribute that is not there is the class's `None`. -/
def getattr (req : Fields) (name : Str) : Json := (Json.get? req name).getD .null

/-- `value is None` -/
def isNone : Json → Bool
  | .null => true
  | _ => false

/-! ## The declared types -/

/-- The types in the annotations, and `(int, float)`. -/
inductive Declared
  | string
  | whole
  | boolean
  | list
  | object
  | number
  deriving DecidableEq

/-- `_type_name(expected)` -/
def Declared.typeName : Declared → Str
  | .string => lit "a string"
  | .whole => lit "a whole number"
  | .boolean => lit "true or false"
  | .list => lit "a list"
  | .object => lit "an object"
  | .number => lit "a number"

/-- `isinstance(value, expected)`: `bool` is a subclass of `int`. -/
def Declared.isInstance : Declared → Json → Bool
  | .string, .str _ => true
  | .whole, .int _ | .whole, .bool _ => true
  | .boolean, .bool _ => true
  | .list, .list _ => true
  | .object, .obj _ => true
  | .number, .int _ | .number, .double _ | .number, .bool _ => true
  | _, _ => false

/-- `isinstance(value, bool)` -/
def isBool : Json → Bool
  | .bool _ => true
  | _ => false

/-- `wants_number` -/
def Declared.wantsNumber (expected : Declared) : Bool :=
  expected = .whole || expected = .number

/-- The condition under which the loop raises. -/
def Declared.refuses (expected : Declared) (value : Json) : Bool :=
  isBool value && expected.wantsNumber || !expected.isInstance value

/-- `V1RequestBase.__annotations__` -/
def annotations : List (Str × Declared) :=
  [(lit "cmd", .string), (lit "cookies", .list), (lit "maxTimeout", .whole),
    (lit "proxy", .object), (lit "session", .string), (lit "session_ttl_minutes", .whole),
    (lit "headers", .list), (lit "userAgent", .string), (lit "url", .string),
    (lit "postData", .string), (lit "returnOnlyCookies", .boolean),
    (lit "returnScreenshot", .boolean), (lit "download", .boolean),
    (lit "returnRawHtml", .boolean), (lit "waitInSeconds", .whole),
    (lit "disableMedia", .boolean), (lit "tabs_till_verify", .whole), (lit "engine", .string)]

/-- `_TYPE_OVERRIDES.get(name, declared)` -/
def typeOverride (name : Str) (declared : Declared) : Option Declared :=
  if name = lit "maxTimeout" ∨ name = lit "headers" then none
  else if name = lit "waitInSeconds" then some .number
  else some declared

/-! ## The check -/

/-- `"Request parameter '%s' must be %s."` -/
def mustBe (name : Str) (expected : Declared) : Str :=
  lit "Request parameter '" ++ name ++ lit "' must be " ++ expected.typeName ++ lit "."

/-- `"Request parameter 'cookies' must be a list of objects."` -/
def cookiesText : Str := lit "Request parameter 'cookies' must be a list of objects."

/-- The loop over the annotations. -/
def checkTypes (req : Fields) : List (Str × Declared) → Except Str Unit
  | [] => .ok ()
  | (name, declared) :: rest =>
    match typeOverride name declared with
    | none => checkTypes req rest
    | some expected =>
      let value := getattr req name
      if isNone value then checkTypes req rest
      else if expected.refuses value then .error (mustBe name expected)
      else checkTypes req rest

/-- `isinstance(cookie, dict)` -/
def isDict : Json → Bool
  | .obj _ => true
  | _ => false

/-- `req.cookies or []`, of a value that is a list or nothing. -/
def cookiesOf (req : Fields) : List Json :=
  match getattr req (lit "cookies") with
  | .list items => items
  | _ => []

/-- `validate_request_types(req)` -/
def validateRequestTypes (req : Fields) : Except Str Unit :=
  match checkTypes req annotations with
  | .error text => .error text
  | .ok () => if (cookiesOf req).all isDict then .ok () else .error cookiesText

/-! ## What comes through -/

/-- The values of a declared type. A boolean is no number. -/
inductive Declared.Has : Declared → Json → Prop
  | string (s : Str) : Has .string (.str s)
  | whole (n : ℤ) : Has .whole (.int n)
  | boolean (b : Bool) : Has .boolean (.bool b)
  | list (items : List Json) : Has .list (.list items)
  | object (fields : Fields) : Has .object (.obj fields)
  | number (n : ℤ) : Has .number (.int n)
  | fraction (d : Solverr.Lib.Double) : Has .number (.double d)

theorem Declared.refuses_eq_false_iff {expected : Declared} {value : Json} :
    expected.refuses value = false ↔ expected.Has value := by
  constructor
  · intro h
    cases expected <;> cases value
    all_goals first | constructor | cases h
  · intro h
    cases h <;> rfl

/-- The parameter is absent, or it has the type it is checked against. -/
def Fits (req : Fields) (name : Str) (declared : Declared) : Prop :=
  ∀ expected, typeOverride name declared = some expected →
    getattr req name = .null ∨ expected.Has (getattr req name)

/-- What the rest of the service relies on. -/
structure WellTyped (req : Fields) : Prop where
  declared : ∀ p ∈ annotations, Fits req p.1 p.2
  cookies : ∀ items, getattr req (lit "cookies") = .list items →
    ∀ cookie ∈ items, ∃ fields, cookie = .obj fields

theorem isNone_iff {value : Json} : isNone value = true ↔ value = .null := by
  cases value <;> simp [isNone]

theorem isDict_iff {value : Json} : isDict value = true ↔ ∃ fields, value = .obj fields := by
  cases value <;> simp [isDict]

/-- One annotation: the loop goes on, or names the parameter. -/
theorem checkTypes_cons (req : Fields) (name : Str) (declared : Declared)
    (rest : List (Str × Declared)) :
    Fits req name declared ∧
      checkTypes req ((name, declared) :: rest) = checkTypes req rest ∨
    ¬ Fits req name declared ∧ ∃ expected, typeOverride name declared = some expected ∧
      checkTypes req ((name, declared) :: rest) = .error (mustBe name expected) := by
  rw [show checkTypes req ((name, declared) :: rest) =
    match typeOverride name declared with
    | none => checkTypes req rest
    | some expected =>
      if isNone (getattr req name) then checkTypes req rest
      else if expected.refuses (getattr req name) then .error (mustBe name expected)
      else checkTypes req rest from rfl]
  unfold Fits
  cases hover : typeOverride name declared with
  | none => exact Or.inl ⟨fun _ h => (by cases h), rfl⟩
  | some expected =>
    dsimp only
    cases hnone : isNone (getattr req name) with
    | true =>
      refine Or.inl ⟨fun e he => Or.inl (isNone_iff.mp hnone), ?_⟩
      simp
    | false =>
      have hvalue : getattr req name ≠ .null := fun h => by
        rw [h] at hnone
        cases hnone
      cases hrefuses : expected.refuses (getattr req name) with
      | false =>
        refine Or.inl ⟨fun e he => Or.inr ?_, by simp⟩
        cases he
        exact Declared.refuses_eq_false_iff.mp hrefuses
      | true =>
        refine Or.inr ⟨fun h => ?_, expected, rfl, by simp⟩
        rcases h expected rfl with h | h
        · exact hvalue h
        · rw [Declared.refuses_eq_false_iff.mpr h] at hrefuses
          cases hrefuses

/-- The loop returns when every parameter meets its annotation; otherwise it names the first
that does not. -/
theorem checkTypes_spec (req : Fields) : ∀ (rest : List (Str × Declared)),
    (checkTypes req rest = .ok () ∧ ∀ p ∈ rest, Fits req p.1 p.2) ∨
    ∃ before name declared after expected, rest = before ++ (name, declared) :: after ∧
      (∀ p ∈ before, Fits req p.1 p.2) ∧ ¬ Fits req name declared ∧
      typeOverride name declared = some expected ∧
      checkTypes req rest = .error (mustBe name expected)
  | [] => Or.inl ⟨rfl, List.forall_mem_nil _⟩
  | (name, declared) :: rest => by
    rcases checkTypes_cons req name declared rest with ⟨hfits, heq⟩ | ⟨hnot, expected, ho, heq⟩
    · rw [heq]
      rcases checkTypes_spec req rest with ⟨hok, hall⟩ | ⟨before, n, d, after, e, hr, hb, hrest⟩
      · exact Or.inl ⟨hok, List.forall_mem_cons.mpr ⟨hfits, hall⟩⟩
      · refine Or.inr ⟨(name, declared) :: before, n, d, after, e, ?_, ?_, hrest⟩
        · rw [hr, List.cons_append]
        · exact List.forall_mem_cons.mpr ⟨hfits, hb⟩
    · exact Or.inr ⟨[], name, declared, rest, expected, rfl, List.forall_mem_nil _, hnot, ho, heq⟩

/-- **A request comes through exactly when it is well typed.** -/
theorem validateRequestTypes_ok_iff (req : Fields) :
    validateRequestTypes req = .ok () ↔ WellTyped req := by
  have hcookies : (cookiesOf req).all isDict = true ↔
      ∀ items, getattr req (lit "cookies") = .list items →
        ∀ cookie ∈ items, ∃ fields, cookie = .obj fields := by
    unfold cookiesOf
    rw [List.all_eq_true]
    constructor
    · intro h items hitems cookie hcookie
      rw [hitems] at h
      exact isDict_iff.mp (h cookie hcookie)
    · intro h cookie hcookie
      split at hcookie
      next items hitems => exact isDict_iff.mpr (h items hitems cookie hcookie)
      next => cases hcookie
  unfold validateRequestTypes
  rcases checkTypes_spec req annotations with ⟨hok, hall⟩ |
    ⟨_, name, declared, _, _, hr, -, hnot, -, heq⟩
  · rw [hok]
    dsimp only
    split
    next hdicts => exact iff_of_true rfl ⟨hall, hcookies.mp hdicts⟩
    next hdicts =>
      exact iff_of_false (fun h => (by cases h)) fun h => hdicts (hcookies.mpr h.cookies)
  · rw [heq]
    refine iff_of_false (fun h => (by cases h)) fun h => hnot ?_
    refine h.declared (name, declared) ?_
    rw [hr]
    exact List.mem_append_right _ (List.mem_cons_self ..)

end Solverr.Controller
