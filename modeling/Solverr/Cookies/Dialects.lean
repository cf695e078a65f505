import Solverr.Lib.Dict
import Solverr.Lib.Returns
import Solverr.Lib.Rounding
import Solverr.Lib.Strings

/-!
# Two dialects of cookies

`_to_client_cookies` and `_to_playwright_cookies`: Playwright's cookies have `expires`, a
number of seconds that is -1 for a session cookie, and a client's have `expiry`, a whole
number of them, if any. A client's cookie may say too little about where it belongs, and
what is missing is filled in from the URL of the request.

A cookie is a dictionary, and each translation is described by what can be looked up in its
result.
-/

namespace Solverr.Cookies

open Solverr.Lib

abbrev Cookie := Dict Str Json

def key (text : String) : Str := .of text.toList

/-- `_PLAYWRIGHT_COOKIE_KEYS` -/
def playwrightCookieKeys : List Str :=
  [key "name", key "value", key "url", key "domain", key "path", key "expires", key "httpOnly",
    key "secure", key "sameSite"]

/-- What is raised. -/
inductive Failure
  | typeError
  | valueError
  | overflowError

/-- What is outside: the tables of `urlsplit` and of `str`, and how `float` reads a text. -/
structure Tables where
  urls : UrlTables
  unicode : Unicode
  readFloat : Str → Option Double

/-- Tables that only know ASCII. -/
def Tables.ascii : Tables := ⟨.ascii, .ascii, fun _ => none⟩

/-- `cookie.get(key)`, where it counts as true. -/
def truthy (cookie : Cookie) (k : Str) : Bool := (cookie.find? k).any Json.truthy

/-! ## To the client -/

/-- `int(expires)`, if `expires is not None and expires > 0`. -/
def wholeSeconds : Json → Except Failure (Option ℤ)
  | .null | .double .nan | .double .negativeZero | .double (.infinity true) => .ok none
  | .bool b => .ok (if b then some 1 else none)
  | .int n => .ok (if 0 < n then some n else none)
  | .double (.finite q) => .ok (if 0 < q then some ⌊q⌋ else none)
  | .double (.infinity false) => .error .overflowError
  | _ => .error .typeError

/-- One turn of `_to_client_cookies`. -/
def toClientCookie (cookie : Cookie) : Except Failure Cookie := do
  let expiry ← wholeSeconds ((cookie.find? (key "expires")).getD .null)
  let cookie := cookie.erase (key "expires")
  return match expiry with
    | some expiry => cookie.set (key "expiry") (.int expiry)
    | none => cookie

/-- `_to_client_cookies(cookies)` -/
def toClientCookies (cookies : List Cookie) : Except Failure (List Cookie) :=
  cookies.mapM toClientCookie

/-! ## To Playwright -/

/-- `float(value)` -/
def float (t : Tables) : Json → Except Failure Double
  | .bool b => .ok (.finite (if b then 1 else 0))
  | .int n =>
    match Double.ofInt? n with
    | some d => .ok d
    | none => .error .overflowError
  | .double d => .ok d
  | .str s =>
    match t.readFloat s with
    | some d => .ok d
    | none => .error .valueError
  | _ => .error .typeError

/-- `{k: v for k, v in cookie.items() if k in _PLAYWRIGHT_COOKIE_KEYS}` -/
def known (cookie : Cookie) : Cookie := cookie.filter fun f => f.1 ∈ playwrightCookieKeys

/-- `float(cookie["expiry"])`, if `cookie.get("expiry") is not None`. -/
def floatExpiry (t : Tables) (cookie : Cookie) : Except Failure (Option Double) :=
  match cookie.find? (key "expiry") with
  | none | some .null => .ok none
  | some expiry => (float t expiry).map some

/-- `expires`, from `expiry` where it is not there. -/
def withExpires (t : Tables) (cookie translated : Cookie) : Except Failure Cookie :=
  if (translated.find? (key "expires")).isSome then .ok translated
  else (floatExpiry t cookie).map fun
    | some expires => translated.set (key "expires") (.double expires)
    | none => translated

/-- Where the cookie belongs, if it does not say so. -/
def anchored (host : Str) (translated : Cookie) : Cookie :=
  if truthy translated (key "url") then translated
  else
    let placed := if truthy translated (key "domain") then translated
      else translated.set (key "domain") (.str host)
    placed.setdefault (key "path") (.str (key "/"))

/-- One turn of `_to_playwright_cookies`. -/
def toPlaywrightCookie (t : Tables) (host : Str) (cookie : Cookie) : Except Failure Cookie :=
  (withExpires t cookie (known cookie)).map (anchored host)

/-- `urlsplit(url).hostname or ""` -/
def hostOf (t : Tables) (url : Str) : Except Failure Str :=
  match Url.urlsplit t.urls url with
  | some parts => .ok ((parts.hostname t.unicode).getD [])
  | none => .error .valueError

/-- `_to_playwright_cookies(cookies, url)` -/
def toPlaywrightCookies (t : Tables) (cookies : List Cookie) (url : Str) :
    Except Failure (List Cookie) := do
  let host ← hostOf t url
  cookies.mapM (toPlaywrightCookie t host)

theorem toPlaywrightCookies_of_host {t : Tables} {url host : Str} (hurl : hostOf t url = .ok host)
    (cookies : List Cookie) :
    toPlaywrightCookies t cookies url = cookies.mapM (toPlaywrightCookie t host) := by
  unfold toPlaywrightCookies
  rw [hurl]
  rfl

/-! ## What can be looked up -/

section Lookups

variable {t : Tables} {host k : Str} {cookie translated : Cookie}

theorem truthy_of_find? {a b : Cookie} {k : Str} (h : a.find? k = b.find? k) :
    truthy a k = truthy b k := by
  unfold truthy
  rw [h]

theorem find?_known (cookie : Cookie) (k : Str) :
    (known cookie).find? k = if k ∈ playwrightCookieKeys then cookie.find? k else none := by
  apply Option.ext
  intro v
  rw [known, Dict.find?_filter]
  split
  next h => simp [h]
  next h => simp [h]

/-- The seconds that a cookie has for Playwright. -/
def expiresOf (t : Tables) (cookie : Cookie) : Except Failure (Option Json) :=
  match cookie.find? (key "expires") with
  | some expires => .ok (some expires)
  | none => (floatExpiry t cookie).map (Option.map Json.double)

/-- `expires` is all that is added to what is known. -/
theorem withExpires_spec (t : Tables) (cookie : Cookie) :
    match expiresOf t cookie with
    | .error e => withExpires t cookie (known cookie) = .error e
    | .ok expires => ∃ translated, withExpires t cookie (known cookie) = .ok translated ∧
        ∀ k, translated.find? k =
          if k = key "expires" then expires else (known cookie).find? k := by
  have hknown : (known cookie).find? (key "expires") = cookie.find? (key "expires") := by
    rw [find?_known]
    exact if_pos (by decide)
  have hsame : ∀ k, (known cookie).find? k =
      if k = key "expires" then cookie.find? (key "expires") else (known cookie).find? k :=
    fun k => by
      split
      next h => rw [h, hknown]
      next => rfl
  unfold withExpires expiresOf
  rw [hknown]
  cases hexpires : cookie.find? (key "expires") with
  | some expires =>
    rw [hexpires] at hsame
    exact ⟨_, rfl, hsame⟩
  | none =>
    rw [hexpires] at hsame
    rcases floatExpiry t cookie with e | _ | expires
    · rfl
    · exact ⟨_, rfl, hsame⟩
    · exact ⟨_, rfl, fun k => Dict.find?_set ..⟩

/-- What the anchoring fills in. -/
theorem find?_anchored (host : Str) (translated : Cookie) (k : Str) :
    (anchored host translated).find? k =
      if k = key "domain" ∧ truthy translated (key "url") = false ∧
          truthy translated (key "domain") = false then some (.str host)
      else if k = key "path" ∧ truthy translated (key "url") = false ∧
          translated.find? (key "path") = none then some (.str (key "/"))
      else translated.find? k := by
  have hother : key "path" ≠ key "domain" := by decide
  unfold anchored
  cases truthy translated (key "url") with
  | true => simp
  | false =>
    rw [if_neg Bool.false_ne_true, Dict.find?_setdefault]
    cases truthy translated (key "domain") with
    | true => simp
    | false =>
      rw [if_neg Bool.false_ne_true, Dict.find?_set, Dict.find?_set, if_neg hother]
      by_cases hdomain : k = key "domain"
      · simp [hdomain, hother.symm]
      · simp [hdomain]

/-- What a translated cookie has under a key. -/
def fieldOf (host : Str) (cookie : Cookie) (expires : Option Json) (k : Str) : Option Json :=
  if k = key "expires" then expires
  else if k = key "domain" ∧ truthy cookie (key "url") = false ∧
      truthy cookie (key "domain") = false then some (.str host)
  else if k = key "path" ∧ truthy cookie (key "url") = false ∧
      cookie.find? (key "path") = none then some (.str (key "/"))
  else if k ∈ playwrightCookieKeys then cookie.find? k
  else none

theorem fieldOf_domain (host : Str) (cookie : Cookie) (expires : Option Json) :
    fieldOf host cookie expires (key "domain") =
      if truthy cookie (key "url") = false ∧ truthy cookie (key "domain") = false then
        some (.str host)
      else cookie.find? (key "domain") := by
  have hother : key "domain" ≠ key "path" := by decide
  have hin : key "domain" ∈ playwrightCookieKeys := by decide
  unfold fieldOf
  rw [if_neg (show key "domain" ≠ key "expires" by decide)]
  simp only [hother, hin, true_and, false_and, if_false, if_true]

theorem fieldOf_path (host : Str) (cookie : Cookie) (expires : Option Json) :
    fieldOf host cookie expires (key "path") =
      if truthy cookie (key "url") = false ∧ cookie.find? (key "path") = none then
        some (.str (key "/"))
      else cookie.find? (key "path") := by
  have hother : key "path" ≠ key "domain" := by decide
  have hin : key "path" ∈ playwrightCookieKeys := by decide
  unfold fieldOf
  rw [if_neg (show key "path" ≠ key "expires" by decide)]
  simp only [hother, hin, true_and, false_and, if_false, if_true]

/-- **One cookie for Playwright**, where its seconds can be made. -/
theorem toPlaywrightCookie_spec (t : Tables) (host : Str) (cookie : Cookie) :
    match expiresOf t cookie with
    | .error e => toPlaywrightCookie t host cookie = .error e
    | .ok expires => ∃ translated, toPlaywrightCookie t host cookie = .ok translated ∧
        ∀ k, translated.find? k = fieldOf host cookie expires k := by
  have hspec := withExpires_spec t cookie
  unfold toPlaywrightCookie
  cases hexpires : expiresOf t cookie with
  | error e =>
    rw [hexpires] at hspec
    rw [hspec]
    rfl
  | ok expires =>
    rw [hexpires] at hspec
    obtain ⟨translated, htranslated, hfind⟩ := hspec
    -- what the anchoring looks at was there before
    have hkept : ∀ {k}, k ∈ playwrightCookieKeys → k ≠ key "expires" →
        translated.find? k = cookie.find? k := fun hin hne => by
      rw [hfind, if_neg hne, find?_known, if_pos hin]
    have htruthy : ∀ {k}, k ∈ playwrightCookieKeys → k ≠ key "expires" →
        truthy translated k = truthy cookie k := fun hin hne =>
      truthy_of_find? (hkept hin hne)
    refine ⟨_, by rw [htranslated]; rfl, fun k => ?_⟩
    rw [find?_anchored, htruthy (by decide) (by decide), htruthy (by decide) (by decide),
      hkept (by decide) (by decide), hfind, find?_known]
    unfold fieldOf
    by_cases hk : k = key "expires"
    · have hdomain : key "expires" ≠ key "domain" := by decide
      have hpath : key "expires" ≠ key "path" := by decide
      rw [hk]
      simp [hdomain, hpath]
    · simp [hk]

end Lookups

end Solverr.Cookies
