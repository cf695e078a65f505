import Solverr.Lib.Strings

/-!
# Language tags

`config.py`, the part that `geo.py` reads: `LANG` and `BROWSER_GEO` as language tags.
The warnings for values that are no tags are left out.
-/

namespace Solverr.Geo

open Solverr.Lib

/-- `os.environ.get` of the variables that are read here. -/
structure Environ where
  lang : Option Str
  browserGeo : Option Str
  browserTimezone : Option Str
  tz : Option Str
  sessionTtlMinutes : Option Str

/-- The environment with none of them. -/
def Environ.unset : Environ := ⟨none, none, none, none, none⟩

/-- `[A-Za-z]{low,high}` -/
def isLetters (low high : ℕ) (s : Str) : Bool :=
  low ≤ s.length && s.length ≤ high && s.all Url.isAlpha

def isLanguage (s : Str) : Bool := isLetters 2 3 s

def isScript (s : Str) : Bool := isLetters 4 4 s

def isRegion (s : Str) : Bool :=
  isLetters 2 2 s || s.length == 3 && s.all fun c => (asciiDigit c).isSome

/-- What `$` matches before: the end, or a line feed at the end. -/
def dropNewline (s : Str) : Str := if s.getLast? = some 10 then s.dropLast else s

/-- `_LANGUAGE_TAG.match(tag).groups()`. No part has a `-`, and the second and the third
part differ in length. -/
def languageGroups (tag : Str) : Option (Str × Option Str × Option Str) :=
  match (dropNewline tag).splitOn '-'.toNat with
  | [language] => if isLanguage language then some (language, none, none) else none
  | [language, part] =>
    if !isLanguage language then none
    else if isScript part then some (language, some part, none)
    else if isRegion part then some (language, none, some part)
    else none
  | [language, script, region] =>
    if isLanguage language && isScript script && isRegion region then
      some (language, some script, some region)
    else none
  | _ => none

/-- `str.title` of ASCII letters. -/
def asciiTitle : Str → Str
  | [] => []
  | c :: s => Url.asciiUpper c :: s.map Url.asciiLower

/-- `_language_tag(raw, source)` -/
def languageTag (u : Unicode) (raw : Str) : Option Str :=
  let tag := (cut '@'.toNat (cut '.'.toNat raw).1).1.map fun c =>
    if c = '_'.toNat then '-'.toNat else c
  if u.upper tag = .of "C".toList ∨ u.upper tag = .of "POSIX".toList then none
  else
    (languageGroups tag).map fun (language, script, region) =>
      ['-'.toNat].intercalate
        (language.map Url.asciiLower ::
          ((script.map asciiTitle).toList ++ (region.map (List.map Url.asciiUpper)).toList))

/-- `browser_geo()` -/
def browserGeo (u : Unicode) (e : Environ) : Option Str :=
  let raw := (e.browserGeo.getD []).strip
  if raw.isEmpty then none else languageTag u raw

/-- `browser_locale()`. No tag is empty. -/
def browserLocale (u : Unicode) (e : Environ) : Option Str :=
  let raw := (e.lang.getD []).strip
  (if raw.isEmpty then none else languageTag u raw) <|> browserGeo u e

/-- `_region_of(tag)`: the country in a language tag. -/
def regionOf (u : Unicode) (tag : Str) : Option Str :=
  match tag.splitOn '-'.toNat with
  | _ :: part :: parts =>
    let last := (part :: parts).getLast (List.cons_ne_nil _ _)
    if last.length = 2 && last.all u.isAlpha then some (u.upper last) else none
  | _ => none

/-- `_int_env(name, default)` -/
def intEnv (u : Unicode) (value : Option Str) (default : ℤ) : ℤ :=
  match value with
  | none => default
  | some raw => (Str.int? u raw.strip).getD default

/-- `session_ttl_minutes()` -/
def sessionTtlMinutes (u : Unicode) (e : Environ) : ℤ := intEnv u e.sessionTtlMinutes 30

end Solverr.Geo
