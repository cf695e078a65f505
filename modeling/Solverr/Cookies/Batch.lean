import Solverr.Cookies.Dialects

/-!
# A batch of cookies

Playwright takes a batch whole or not at all. `batch_taken_iff`: of the cookies that a
client may send, the batch is taken exactly when each of them fits (`Fits`). One does not
that has a URL and a path, nor one that has no URL and an empty path, nor one whose `expiry`
is a number beyond the doubles.
-/

namespace Solverr.Cookies

open Solverr.Lib

/-! ## The rule -/

/-- `add_cookies`, of one cookie: it is not refused. -/
def accepts (cookie : Cookie) : Bool :=
  if !truthy cookie (key "url") &&
      !(truthy cookie (key "domain") && truthy cookie (key "path")) then false
  else !(truthy cookie (key "url") && truthy cookie (key "path"))

/-- A number, as JSON has them. -/
def IsNumber : Json → Prop
  | .int _ | .double _ => True
  | _ => False

/-- A cookie that a client may send: its name and its value are texts, what says where it
belongs is texts, and what says how long it lasts is numbers. There may be other keys. -/
structure ClientCookie where
  fields : Cookie
  name : ∃ s, fields.find? (key "name") = some (.str s)
  value : ∃ s, fields.find? (key "value") = some (.str s)
  place : ∀ k ∈ [key "url", key "domain", key "path"], ∀ j ∈ fields.find? k, ∃ s, j = .str s
  seconds : ∀ k ∈ [key "expiry", key "expires"], ∀ j ∈ fields.find? k, IsNumber j

/-- What a cookie is translated to. -/
structure Translated (cookie translated : Cookie) : Prop where
  name : translated.find? (key "name") = cookie.find? (key "name")
  value : translated.find? (key "value") = cookie.find? (key "value")
  keys : ∀ k ∈ translated.keys, k ∈ playwrightCookieKeys
  accepted : accepts translated = true

/-- A cookie that fits. -/
structure Fits (cookie : Cookie) : Prop where
  alone : truthy cookie (key "url") = true → truthy cookie (key "path") = false
  rooted : truthy cookie (key "url") = false → cookie.find? (key "path") ≠ some (.str [])
  bounded : cookie.find? (key "expires") = none → ∀ n,
    cookie.find? (key "expiry") = some (.int n) → |n| < Double.limit

/-! ## One cookie -/

section One

variable {t : Tables} {host : Str} {cookie translated : Cookie} {expires : Option Json}

/-- Whether the seconds can be made. -/
theorem expiresOf_returns_iff (t : Tables) (cookie : ClientCookie) :
    Returns (expiresOf t cookie.fields) ↔
      (cookie.fields.find? (key "expires") = none → ∀ n,
        cookie.fields.find? (key "expiry") = some (.int n) → |n| < Double.limit) := by
  unfold expiresOf
  cases cookie.fields.find? (key "expires") with
  | some expires => exact iff_of_true (returns_ok _) nofun
  | none =>
    rw [returns_map_iff, imp_iff_right rfl]
    unfold floatExpiry
    cases hexpiry : cookie.fields.find? (key "expiry") with
    | none => exact iff_of_true (returns_ok _) nofun
    | some expiry =>
      have hnumber : IsNumber expiry := cookie.seconds _ (List.mem_cons_self ..) expiry hexpiry
      cases expiry with
      | int n =>
        have hsame : (∀ m, some (Json.int n) = some (Json.int m) → |m| < Double.limit) ↔
            ¬ Double.limit ≤ |n| := by
          rw [not_le]
          refine ⟨fun h => h n rfl, ?_⟩
          rintro h _ ⟨⟩
          exact h
        rw [hsame, ← Double.ofInt?_eq_none_iff]
        dsimp only [float]
        cases Double.ofInt? n with
        | none => exact iff_of_false (not_returns_error _) (not_not.mpr rfl)
        | some d => exact iff_of_true (returns_ok _) nofun
      | double d => exact iff_of_true (returns_ok _) nofun
      | _ => cases hnumber

/-- The rule, on what the translated cookie has. -/
theorem accepts_iff_of_fieldOf (hhost : host ≠ [])
    (hfind : ∀ k, translated.find? k = fieldOf host cookie expires k)
    (hpath : ∀ j ∈ cookie.find? (key "path"), ∃ s, j = .str s) :
    accepts translated = true ↔
      (truthy cookie (key "url") = true → truthy cookie (key "path") = false) ∧
        (truthy cookie (key "url") = false → cookie.find? (key "path") ≠ some (.str [])) := by
  have hurl : truthy translated (key "url") = truthy cookie (key "url") :=
    truthy_of_find? (hfind _)
  unfold accepts
  rw [hurl]
  cases hbound : truthy cookie (key "url") with
  | true =>
    have hsame : truthy translated (key "path") = truthy cookie (key "path") := by
      refine truthy_of_find? ((hfind _).trans ?_)
      unfold fieldOf
      rw [hbound]
      rfl
    rw [hsame]
    simp
  | false =>
    have hdomain : truthy translated (key "domain") = true := by
      unfold truthy
      rw [hfind, fieldOf_domain, hbound]
      split
      next => simpa [Json.truthy] using hhost
      next h => exact eq_true_of_ne_false fun hfalse => h ⟨rfl, hfalse⟩
    have hrooted : truthy translated (key "path") = true ↔
        cookie.find? (key "path") ≠ some (.str []) := by
      unfold truthy
      rw [hfind, fieldOf_path, hbound]
      cases hfound : cookie.find? (key "path") with
      | none => exact iff_of_true rfl fun hsome => (by cases hsome)
      | some j =>
        obtain ⟨s, rfl⟩ := hpath j hfound
        simp [Json.truthy]
    rw [hdomain]
    simpa using hrooted

/-- Nothing else is there. -/
theorem mem_of_fieldOf {k : Str} {j : Json} (h : fieldOf host cookie expires k = some j) :
    k ∈ playwrightCookieKeys := by
  unfold fieldOf at h
  split at h
  next hk =>
    rw [hk]
    decide
  split at h
  next hk =>
    rw [hk.1]
    decide
  split at h
  next hk =>
    rw [hk.1]
    decide
  split at h
  next hk => exact hk
  next => cases h

/-- **A cookie is translated** as it should be exactly when it fits. -/
theorem translated_iff (hhost : host ≠ []) (cookie : ClientCookie) :
    (∃ translated, toPlaywrightCookie t host cookie.fields = .ok translated ∧
      Translated cookie.fields translated) ↔ Fits cookie.fields := by
  have hspec := toPlaywrightCookie_spec t host cookie.fields
  have hreturns := expiresOf_returns_iff t cookie
  cases hexpires : expiresOf t cookie.fields with
  | error e =>
    rw [hexpires] at hspec hreturns
    refine iff_of_false ?_ fun hfits => not_returns_error e (hreturns.mpr hfits.bounded)
    rintro ⟨translated, htranslated, -⟩
    exact nomatch hspec.symm.trans htranslated
  | ok expires =>
    rw [hexpires] at hspec hreturns
    obtain ⟨translated, htranslated, hfind⟩ := hspec
    have haccepts := accepts_iff_of_fieldOf hhost hfind
      (cookie.place (key "path") (by decide))
    constructor
    · rintro ⟨translated', htranslated', h⟩
      obtain rfl := Except.ok.inj (htranslated.symm.trans htranslated')
      obtain ⟨halone, hrooted⟩ := haccepts.mp h.accepted
      exact ⟨halone, hrooted, hreturns.mp (returns_ok _)⟩
    · intro hfits
      refine ⟨translated, htranslated, hfind _, hfind _, fun k hk => ?_,
        haccepts.mpr ⟨hfits.alone, hfits.rooted⟩⟩
      obtain ⟨j, hj⟩ := Dict.mem_keys.mp hk
      rw [hfind] at hj
      exact mem_of_fieldOf hj

end One

/-! ## The batch -/

/-- The batch is translated one for one, and taken. -/
def Taken (t : Tables) (url : Str) (cookies : List ClientCookie) : Prop :=
  ∃ translated, toPlaywrightCookies t (cookies.map ClientCookie.fields) url = .ok translated ∧
    List.Forall₂ (fun cookie => Translated cookie.fields) cookies translated

/-- **A batch is taken** exactly when every cookie of it fits. -/
theorem batch_taken_iff (t : Tables) (url host : Str) (hurl : hostOf t url = .ok host)
    (hhost : host ≠ []) (cookies : List ClientCookie) :
    Taken t url cookies ↔ ∀ cookie ∈ cookies, Fits cookie.fields := by
  have hbatch : toPlaywrightCookies t (cookies.map ClientCookie.fields) url =
      cookies.mapM fun cookie => toPlaywrightCookie t host cookie.fields := by
    rw [toPlaywrightCookies_of_host hurl, List.mapM_map]
    rfl
  unfold Taken
  rw [hbatch, mapM_meets_iff]
  exact forall₂_congr fun cookie _ => translated_iff hhost cookie

/-- `{"name": "a", "value": "1"}` -/
def namedCookie : ClientCookie where
  fields := ⟨[(key "name", .str (key "a")), (key "value", .str (key "1"))], by decide⟩
  name := ⟨_, rfl⟩
  value := ⟨_, rfl⟩
  place := by
    simp only [List.forall_mem_cons]
    exact ⟨nofun, nofun, nofun, nofun⟩
  seconds := by
    simp only [List.forall_mem_cons]
    exact ⟨nofun, nofun, nofun⟩

/-- `{"name": "a", "value": "1", "url": "https://other.tld/"}` -/
def urlCookie : ClientCookie where
  fields := ⟨[(key "name", .str (key "a")), (key "value", .str (key "1")),
    (key "url", .str (key "https://other.tld/"))], by decide⟩
  name := ⟨_, rfl⟩
  value := ⟨_, rfl⟩
  place := by
    simp only [List.forall_mem_cons]
    refine ⟨?_, nofun, nofun, nofun⟩
    rintro j ⟨⟩
    exact ⟨_, rfl⟩
  seconds := by
    simp only [List.forall_mem_cons]
    exact ⟨nofun, nofun, nofun⟩

/-- `{"name": "a", "value": "1", "path": "/dl", "expiry": 1900000000}` -/
def keptCookie : ClientCookie where
  fields := ⟨[(key "name", .str (key "a")), (key "value", .str (key "1")),
    (key "path", .str (key "/dl")), (key "expiry", .int 1900000000)], by decide⟩
  name := ⟨_, rfl⟩
  value := ⟨_, rfl⟩
  place := by
    simp only [List.forall_mem_cons]
    refine ⟨nofun, nofun, ?_, nofun⟩
    rintro j ⟨⟩
    exact ⟨_, rfl⟩
  seconds := by
    simp only [List.forall_mem_cons]
    refine ⟨?_, nofun, nofun⟩
    rintro j ⟨⟩
    trivial

/-- `{"name": "a", "value": "1", "url": "https://other.tld/", "path": "/dl"}` -/
def boundCookie : ClientCookie where
  fields := ⟨[(key "name", .str (key "a")), (key "value", .str (key "1")),
    (key "url", .str (key "https://other.tld/")), (key "path", .str (key "/dl"))], by decide⟩
  name := ⟨_, rfl⟩
  value := ⟨_, rfl⟩
  place := by
    simp only [List.forall_mem_cons]
    refine ⟨?_, nofun, ?_, nofun⟩
    · rintro j ⟨⟩
      exact ⟨_, rfl⟩
    · rintro j ⟨⟩
      exact ⟨_, rfl⟩
  seconds := by
    simp only [List.forall_mem_cons]
    exact ⟨nofun, nofun, nofun⟩

/-- The shape of the README, with a cookie on a URL and one that is kept. -/
theorem batch_taken_shapes :
    Taken .ascii (key "https://example.tld/") [namedCookie, urlCookie, keptCookie] := by
  refine (batch_taken_iff .ascii (key "https://example.tld/") (key "example.tld") rfl
    (by decide) [namedCookie, urlCookie, keptCookie]).mpr ?_
  simp only [List.forall_mem_cons]
  refine ⟨?_, ?_, ?_, nofun⟩
  · exact ⟨nofun, fun _ => nofun, fun _ _ => nofun⟩
  · exact ⟨fun _ => rfl, fun _ => nofun, fun _ _ => nofun⟩
  · refine ⟨nofun, fun _ hpath => ?_, fun _ n hn => ?_⟩
    · have hempty : key "/dl" = [] := Json.str.inj (Option.some.inj hpath)
      cases hempty
    · obtain rfl := Json.int.inj (Option.some.inj hn)
      decide +kernel

/-- A cookie with a URL and a path fails the batch that it is in. -/
theorem bound_cookie_refused :
    ¬ Taken .ascii (key "https://example.tld/") [namedCookie, boundCookie] := by
  have hrun : (toPlaywrightCookies .ascii [namedCookie.fields, boundCookie.fields]
      (key "https://example.tld/")).map (List.map accepts) = .ok [true, false] := rfl
  rintro ⟨translated, htranslated, hall⟩
  have hrun' : (Except.ok translated : Except Failure (List Cookie)).map (List.map accepts) =
      .ok [true, false] := htranslated ▸ hrun
  have haccepted : translated.map accepts = [true, false] := Except.ok.inj hrun'
  obtain ⟨first, rest, -, hrest, rfl⟩ := List.forall₂_cons_left_iff.mp hall
  obtain ⟨second, last, hsecond, -, rfl⟩ := List.forall₂_cons_left_iff.mp hrest
  have hrefused : accepts second = false := (List.cons.inj (List.cons.inj haccepted).2).1
  rw [hsecond.accepted] at hrefused
  cases hrefused

end Solverr.Cookies
