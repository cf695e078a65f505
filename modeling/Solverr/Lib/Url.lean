import Mathlib.Data.List.TakeDrop
import Solverr.Lib.Json
import Solverr.Lib.Split

/-!
# Splitting URLs

`urlsplit` and `urlunsplit` of Python's standard library, on strings of code
points. What `urlsplit` reads from Unicode and IP address tables is a parameter,
`UrlTables`. It returns `none` where the library raises `ValueError`.

`urlsplit_withAuthority` reads a URL that is written as `scheme://netloc` and a tail:
the authority ends at the first `/`, `?` or `#`, and the parts that follow do not
depend on it.
-/

namespace Solverr.Lib

/-- `unicodedata.normalize('NFKC', s)`, and whether `_check_bracketed_host` accepts
what stands between brackets. -/
structure UrlTables where
  nfkc : Str → Str
  bracketedHost : Str → Bool

/-- Tables for ASCII URLs without addresses in brackets. -/
def UrlTables.ascii : UrlTables := ⟨id, fun _ => false⟩

namespace Url

/-- The parts of a URL; what is absent is empty. -/
structure Parts where
  scheme : Str
  netloc : Str
  path : Str
  query : Str
  fragment : Str

/-- An ASCII letter. -/
def isAlpha (c : Nat) : Bool :=
  ('a'.toNat ≤ c && c ≤ 'z'.toNat) || ('A'.toNat ≤ c && c ≤ 'Z'.toNat)

/-- `scheme_chars` -/
def isSchemeChar (c : Nat) : Bool :=
  isAlpha c || ('0'.toNat ≤ c && c ≤ '9'.toNat) || c == '+'.toNat || c == '-'.toNat ||
    c == '.'.toNat

/-- `str.lower` on ASCII. -/
def asciiLower (c : Nat) : Nat := if 'A'.toNat ≤ c ∧ c ≤ 'Z'.toNat then c + 32 else c

/-- `_UNSAFE_URL_BYTES_TO_REMOVE`: tab, carriage return and line feed. -/
def removeUnsafe (url : Str) : Str := url.filter fun c => c ≠ 9 ∧ c ≠ 13 ∧ c ≠ 10

/-- What ends the authority. -/
def isDelim (c : Nat) : Bool := c == '/'.toNat || c == '?'.toNat || c == '#'.toNat

/-- The scheme, lowered, and the rest. -/
def splitScheme (url : Str) : Str × Str :=
  match cut ':'.toNat url with
  | (scheme, some rest) =>
    if scheme.head?.any isAlpha && scheme.all isSchemeChar then (scheme.map asciiLower, rest)
    else ([], url)
  | (_, none) => ([], url)

/-- `_splitnetloc(url, 2)` where the URL goes on with `//`. -/
def splitNetloc : Str → Str × Str
  | 47 :: 47 :: url => url.span fun c => !isDelim c
  | url => ([], url)

/-- `_check_bracketed_netloc`, after the test for unbalanced brackets. -/
def bracketsOk (t : UrlTables) (netloc : Str) : Bool :=
  if '['.toNat ∈ netloc then
    if ']'.toNat ∈ netloc then
      let hostport := (rcut '@'.toNat netloc).2
      match cut '['.toNat hostport with
      | (before, some bracketed) =>
        let (host, port) := cut ']'.toNat bracketed
        before.isEmpty && (port.getD []).head?.all (· == ':'.toNat) && t.bracketedHost host
      | (_, none) => t.bracketedHost (cut ':'.toNat hostport).1
    else false
  else !decide (']'.toNat ∈ netloc)

/-- `_checknetloc` -/
def netlocOk (t : UrlTables) (netloc : Str) : Bool :=
  netloc.all (· < 128) ||
    let n := netloc.filter fun c => c ≠ '@'.toNat ∧ c ≠ ':'.toNat ∧ c ≠ '#'.toNat ∧ c ≠ '?'.toNat
    let n' := t.nfkc n
    n == n' || ("/?#@:".toList.map Char.toNat).all fun c => !n'.contains c

/-- The path, the query and the fragment. -/
def splitTail (url : Str) : Str × Str × Str :=
  let (url, fragment) := cut '#'.toNat url
  let (path, query) := cut '?'.toNat url
  (path, query.getD [], fragment.getD [])

/-- `urlsplit(url)` -/
def urlsplit (t : UrlTables) (url : Str) : Option Parts :=
  let url := removeUnsafe (url.dropWhile (· ≤ 0x20))
  let (scheme, url) := splitScheme url
  let (netloc, url) := splitNetloc url
  if bracketsOk t netloc && netlocOk t netloc then
    let (path, query, fragment) := splitTail url
    some ⟨scheme, netloc, path, query, fragment⟩
  else none

/-- `parts.password`: the userinfo ends at the last `@`, the user name at the first `:`. -/
def Parts.password (p : Parts) : Option Str :=
  (rcut '@'.toNat p.netloc).1.bind fun userinfo => (cut ':'.toNat userinfo).2

/-- `parts._hostinfo`, where an absent port is empty. -/
def Parts.hostinfo (p : Parts) : Str × Str :=
  let hostinfo := (rcut '@'.toNat p.netloc).2
  match cut '['.toNat hostinfo with
  | (_, some bracketed) =>
    let (hostname, after) := cut ']'.toNat bracketed
    (hostname, (cut ':'.toNat (after.getD [])).2.getD [])
  | (_, none) =>
    let (hostname, port) := cut ':'.toNat hostinfo
    (hostname, port.getD [])

/-- A digit of ASCII. -/
def isDigit (c : Nat) : Bool := '0'.toNat ≤ c && c ≤ '9'.toNat

/-- The longest numeral that `int` reads, in digits. -/
def maxDigits : Nat := 4300

/-- The number that digits spell. -/
def number (digits : Str) : Nat := digits.foldl (fun n c => 10 * n + (c - '0'.toNat)) 0

/-- `parts.port`: no port, a port, or a `ValueError`. -/
def Parts.port (p : Parts) : Option (Option Nat) :=
  let port := p.hostinfo.2
  if port.isEmpty then some none
  else if port.all isDigit && port.length ≤ maxDigits && number port ≤ 65535 then
    some (some (number port))
  else none

/-- `urlunsplit(parts)`, for parts with a netloc. -/
def urlunsplit (p : Parts) : Str :=
  let path := if p.path.isEmpty || p.path.head? = some '/'.toNat then p.path
    else '/'.toNat :: p.path
  (if p.scheme.isEmpty then [] else p.scheme ++ [':'.toNat]) ++ "//".toList.map Char.toNat ++
    p.netloc ++ path ++
    (if p.query.isEmpty then [] else '?'.toNat :: p.query) ++
    (if p.fragment.isEmpty then [] else '#'.toNat :: p.fragment)

/-- Splitting the tail loses `?` and `#` only. -/
theorem count_splitTail {c : Nat} (hquery : c ≠ '?'.toNat) (hhash : c ≠ '#'.toNat) (url : Str) :
    (splitTail url).1.count c + (splitTail url).2.1.count c + (splitTail url).2.2.count c =
      url.count c := by
  rw [← count_cut hhash url, ← count_cut hquery (cut '#'.toNat url).1]
  rfl

/-! ## A URL with an authority -/

/-- A scheme as `urlsplit` accepts it. -/
def IsScheme (scheme : Str) : Prop :=
  scheme.head?.any isAlpha = true ∧ scheme.all isSchemeChar = true

instance (scheme : Str) : Decidable (IsScheme scheme) := inferInstanceAs (Decidable (_ ∧ _))

/-- What may follow an authority: nothing, or something that starts with a delimiter. -/
def IsTail (tail : Str) : Prop := tail.head?.all isDelim = true

instance (tail : Str) : Decidable (IsTail tail) := inferInstanceAs (Decidable (_ = _))

/-- `scheme://netloc` and a tail. -/
def withAuthority (scheme netloc tail : Str) : Str :=
  scheme ++ ':'.toNat :: '/'.toNat :: '/'.toNat :: (netloc ++ tail)

theorem isAlpha_bounds {c : Nat} (h : isAlpha c = true) : 65 ≤ c ∧ c ≤ 122 := by
  simp [isAlpha] at h
  omega

/-- A scheme character is printable and none of the separators. -/
theorem isSchemeChar_spec {c : Nat} (h : isSchemeChar c = true) :
    32 < c ∧ c ≠ ':'.toNat ∧ c ≠ '@'.toNat ∧ c ≠ '/'.toNat := by
  simp [isSchemeChar, isAlpha] at h ⊢
  omega

theorem removeUnsafe_append (a b : Str) :
    removeUnsafe (a ++ b) = removeUnsafe a ++ removeUnsafe b :=
  List.filter_append ..

theorem removeUnsafe_of_isSchemeChar {s : Str} (h : s.all isSchemeChar = true) :
    removeUnsafe s = s := by
  rw [removeUnsafe, List.filter_eq_self]
  intro c hc
  have hspec := isSchemeChar_spec (List.all_eq_true.mp h c hc)
  simp
  omega

theorem IsTail.removeUnsafe {tail : Str} (h : IsTail tail) : IsTail (removeUnsafe tail) := by
  cases tail with
  | nil => rfl
  | cons c tail =>
    have hc : isDelim c = true := h
    have hkept : c ≠ 9 ∧ c ≠ 13 ∧ c ≠ 10 := by
      simp [isDelim] at hc
      omega
    rw [Url.removeUnsafe, List.filter_cons_of_pos (by simpa using hkept)]
    exact hc

theorem splitScheme_scheme {scheme : Str} (h : IsScheme scheme) (rest : Str) :
    splitScheme (scheme ++ ':'.toNat :: rest) = (scheme.map asciiLower, rest) := by
  have hcolon : ':'.toNat ∉ scheme := fun hc =>
    (isSchemeChar_spec (List.all_eq_true.mp h.2 _ hc)).2.1 rfl
  unfold splitScheme
  rw [cut_append hcolon]
  simp only [h.1, h.2, Bool.and_self, if_true]

theorem splitNetloc_authority {netloc tail : Str} (hn : ∀ c ∈ netloc, isDelim c = false)
    (ht : IsTail tail) :
    splitNetloc ('/'.toNat :: '/'.toNat :: (netloc ++ tail)) = (netloc, tail) := by
  show (netloc ++ tail).span (fun c => !isDelim c) = (netloc, tail)
  have hall : ∀ c ∈ netloc, (!isDelim c) = true := fun c hc => by rw [hn c hc]; rfl
  rw [List.span_eq_takeWhile_dropWhile, List.takeWhile_append_of_pos hall,
    List.dropWhile_append_of_pos hall]
  cases tail with
  | nil => simp
  | cons c tail =>
    have hc : (!isDelim c) = false := by rw [show isDelim c = true from ht]; rfl
    rw [List.takeWhile_cons_of_neg (by simp [hc]), List.dropWhile_cons_of_neg (by simp [hc]),
      List.append_nil]

/-- Whether `urlsplit` refuses an authority. -/
def refuses (t : UrlTables) (netloc : Str) : Bool :=
  !(bracketsOk t (removeUnsafe netloc) && netlocOk t (removeUnsafe netloc))

/-- **The authority ends at the first delimiter**, and what follows it is read alike
after any authority. -/
theorem urlsplit_withAuthority (t : UrlTables) {scheme netloc tail : Str} (hs : IsScheme scheme)
    (hn : ∀ c ∈ netloc, isDelim c = false) (ht : IsTail tail) :
    urlsplit t (withAuthority scheme netloc tail) =
      if refuses t netloc then none
      else
        let (path, query, fragment) := splitTail (removeUnsafe tail)
        some ⟨scheme.map asciiLower, removeUnsafe netloc, path, query, fragment⟩ := by
  have hstart : (withAuthority scheme netloc tail).dropWhile (· ≤ 0x20) =
      withAuthority scheme netloc tail := by
    cases scheme with
    | nil => cases hs.1
    | cons c scheme =>
      have hc : 65 ≤ c := (isAlpha_bounds hs.1).1
      exact List.dropWhile_cons_of_neg (by simp; omega)
  have hclean : removeUnsafe (withAuthority scheme netloc tail) =
      scheme ++ ':'.toNat :: '/'.toNat :: '/'.toNat ::
        (removeUnsafe netloc ++ removeUnsafe tail) := by
    unfold withAuthority
    rw [removeUnsafe_append, removeUnsafe_of_isSchemeChar hs.2, ← removeUnsafe_append]
    rfl
  have hn' : ∀ c ∈ removeUnsafe netloc, isDelim c = false := fun c hc =>
    hn c (List.mem_filter.mp hc).1
  unfold urlsplit refuses
  simp only [hstart, hclean, splitScheme_scheme hs, splitNetloc_authority hn' ht.removeUnsafe]
  cases bracketsOk t (removeUnsafe netloc) && netlocOk t (removeUnsafe netloc) <;> rfl

end Url

end Solverr.Lib
