import Solverr.Cookies.Dialects

/-!
# There and back

The two translations undo each other on the cookies that each side sends. A dictionary is
compared by what can be looked up in it, as Python compares them. The URL of the request
plays no part where a cookie says where it belongs, but it is read first: a text that
`urlsplit` refuses fails the translation.
-/

namespace Solverr.Cookies

open Solverr.Lib

/-- `a == b`, for dictionaries. -/
def Same (a b : Cookie) : Prop := ∀ k, a.find? k = b.find? k

/-- A number of seconds as Playwright reports it: a double, or an integer that is one. -/
def seconds : Json → Option ℚ
  | .int n => some n
  | .double (.finite q) => some q
  | _ => none

/-- A cookie as Playwright reports it. -/
structure PlaywrightCookie where
  fields : Cookie
  keys : ∀ k ∈ fields.keys, k ∈ playwrightCookieKeys ∧ k ≠ key "url"
  domain : truthy fields (key "domain") = true
  path : truthy fields (key "path") = true
  expires : ∀ j ∈ fields.find? (key "expires"), ∃ q, seconds j = some q ∧ IsDouble q ∧
    (q = -1 ∨ 1 ≤ q)

/-- The keys of a client's cookie. -/
def clientKeys : List Str :=
  [key "name", key "value", key "domain", key "path", key "httpOnly", key "secure",
    key "sameSite", key "expiry"]

theorem clientKeys_known : ∀ k ∈ clientKeys, k = key "expiry" ∨ k ∈ playwrightCookieKeys := by
  decide

/-- A cookie as the client has it from a solve. -/
structure SolvedCookie where
  fields : Cookie
  keys : ∀ k ∈ fields.keys, k ∈ clientKeys
  domain : truthy fields (key "domain") = true
  path : truthy fields (key "path") = true
  expiry : ∀ j ∈ fields.find? (key "expiry"), ∃ n : ℤ, j = .int n ∧ 1 ≤ n ∧ n < 2 ^ 53

/-- The cookie with its seconds truncated: none for a session, and a whole number else. -/
def truncated (cookie : Cookie) (k : Str) : Option Json :=
  if k = key "expires" then
    (cookie.find? (key "expires")).bind seconds |>.bind fun q =>
      if 0 < q then some (.double (.finite ⌊q⌋)) else none
  else cookie.find? k

/-! ## One cookie -/

section One

variable {t : Tables} {host k : Str} {cookie : Cookie} {expires : Option Json}

/-- Seconds that are reported are cut to whole ones, if there are any. -/
theorem wholeSeconds_of_seconds {j : Json} {q : ℚ} (h : seconds j = some q) :
    wholeSeconds j = .ok (if 0 < q then some ⌊q⌋ else none) := by
  unfold seconds at h
  split at h
  next n =>
    obtain rfl := Option.some.inj h
    rw [Int.floor_intCast]
    simp [wholeSeconds]
  next =>
    obtain rfl := Option.some.inj h
    rfl
  next => cases h

/-- What a client's cookie has. -/
theorem toClientCookie_spec {expiry : Option ℤ}
    (h : wholeSeconds ((cookie.find? (key "expires")).getD .null) = .ok expiry) :
    ∃ client, toClientCookie cookie = .ok client ∧ ∀ k, client.find? k =
      if k = key "expires" then none
      else if k = key "expiry" then (expiry.map Json.int).or (cookie.find? (key "expiry"))
      else cookie.find? k := by
  have hother : key "expires" ≠ key "expiry" := by decide
  refine ⟨_, by unfold toClientCookie; rw [h]; rfl, fun k => ?_⟩
  cases expiry with
  | none =>
    dsimp only
    rw [Dict.find?_erase]
    by_cases hk : k = key "expiry" <;> simp [hk]
  | some n =>
    dsimp only
    rw [Dict.find?_set, Dict.find?_erase]
    by_cases hk : k = key "expires"
    · simp [hk, hother]
    · simp [hk]

/-- A cookie that says where it belongs keeps what is known. -/
theorem fieldOf_placed (hdomain : truthy cookie (key "domain") = true)
    (hpath : truthy cookie (key "path") = true) :
    fieldOf host cookie expires k = if k = key "expires" then expires
      else if k ∈ playwrightCookieKeys then cookie.find? k else none := by
  have hthere : cookie.find? (key "path") ≠ none := fun hnone => by
    rw [truthy, hnone] at hpath
    cases hpath
  unfold fieldOf
  rw [hdomain]
  simp [hthere]

/-- The seconds of a cookie that has only `expiry`. -/
theorem expiresOf_of_expiry {expiry : Option ℤ} (hnone : cookie.find? (key "expires") = none)
    (hexpiry : cookie.find? (key "expiry") = expiry.map Json.int)
    (hdouble : ∀ n ∈ expiry, Double.ofInt? n = some (.finite n)) :
    expiresOf t cookie = .ok (expiry.map fun n : ℤ => .double (.finite n)) := by
  unfold expiresOf floatExpiry
  rw [hnone, hexpiry]
  cases expiry with
  | none => rfl
  | some n =>
    dsimp only [Option.map_some, float]
    rw [hdouble n rfl]
    rfl

/-- The whole seconds that a client has of a cookie are a double. -/
theorem PlaywrightCookie.wholeSeconds_spec (c : PlaywrightCookie) : ∃ expiry : Option ℤ,
    wholeSeconds ((c.fields.find? (key "expires")).getD .null) = .ok expiry ∧
    (∀ n ∈ expiry, Double.ofInt? n = some (.finite n)) ∧
    truncated c.fields (key "expires") = expiry.map fun n : ℤ => Json.double (.finite n) := by
  unfold truncated
  rw [if_pos rfl]
  cases hexpires : c.fields.find? (key "expires") with
  | none => exact ⟨none, rfl, nofun, rfl⟩
  | some j =>
    obtain ⟨q, hq, hisDouble, -⟩ := c.expires j hexpires
    refine ⟨_, wholeSeconds_of_seconds hq, fun n hn => ?_, ?_⟩
    · split at hn
      next hpos =>
        obtain rfl := Option.some.inj hn
        exact Double.ofInt?_floor hisDouble hpos.le
      next => cases hn
    · show (seconds j).bind _ = _
      rw [hq]
      show (if 0 < q then _ else _) = _
      split <;> rfl

/-- **From Playwright and back**: the seconds are truncated. -/
theorem playwright_there_and_back (t : Tables) (host : Str) (c : PlaywrightCookie) :
    ∃ client back, toClientCookie c.fields = .ok client ∧
      toPlaywrightCookie t host client = .ok back ∧
      ∀ k, back.find? k = truncated c.fields k := by
  have hnone : c.fields.find? (key "expiry") = none := Dict.find?_eq_none.mpr fun hin =>
    absurd (c.keys _ hin).1 (by decide)
  obtain ⟨expiry, hwhole, hdouble, hcut⟩ := c.wholeSeconds_spec
  obtain ⟨client, hclient, hfind⟩ := toClientCookie_spec hwhole
  have hexpires : client.find? (key "expires") = none := by
    rw [hfind, if_pos rfl]
  have hexpiry : client.find? (key "expiry") = expiry.map Json.int := by
    rw [hfind, if_neg (by decide), if_pos rfl, hnone, Option.or_none]
  have hspec := toPlaywrightCookie_spec t host client
  rw [expiresOf_of_expiry hexpires hexpiry hdouble, ← hcut] at hspec
  obtain ⟨back, hback, hfound⟩ := hspec
  -- the other keys went through unchanged
  have hkept : ∀ {k}, k ≠ key "expires" → k ≠ key "expiry" → client.find? k = c.fields.find? k :=
    fun hne hne' => by rw [hfind, if_neg hne, if_neg hne']
  have htruthy : ∀ {k}, k ≠ key "expires" → k ≠ key "expiry" →
      truthy client k = truthy c.fields k := fun hne hne' =>
    truthy_of_find? (hkept hne hne')
  refine ⟨client, back, hclient, hback, fun k => ?_⟩
  rw [hfound, fieldOf_placed ((htruthy (by decide) (by decide)).trans c.domain)
    ((htruthy (by decide) (by decide)).trans c.path)]
  by_cases hk : k = key "expires"
  · rw [if_pos hk, hk]
  · rw [if_neg hk, truncated, if_neg hk]
    split
    next hin => exact hkept hk fun hexp => absurd (hexp ▸ hin) (by decide)
    next hnot => exact (Dict.find?_eq_none.mpr fun hin => hnot (c.keys k hin).1).symm

/-- The seconds that a client hands back. -/
theorem SolvedCookie.expiry_spec (c : SolvedCookie) : ∃ expiry : Option ℤ,
    c.fields.find? (key "expiry") = expiry.map Json.int ∧ ∀ n ∈ expiry, 1 ≤ n ∧ n < 2 ^ 53 := by
  cases hexpiry : c.fields.find? (key "expiry") with
  | none => exact ⟨none, rfl, nofun⟩
  | some j =>
    obtain ⟨n, rfl, hbound⟩ := c.expiry j hexpiry
    refine ⟨some n, rfl, ?_⟩
    rintro _ ⟨⟩
    exact hbound

/-- Whole seconds from one on are cut to themselves. -/
theorem wholeSeconds_of_expiry {expiry : Option ℤ} (h : ∀ n ∈ expiry, 1 ≤ n) :
    wholeSeconds ((expiry.map fun n : ℤ => Json.double (.finite n)).getD .null) = .ok expiry := by
  cases expiry with
  | none => rfl
  | some n =>
    have hpos : (0 : ℚ) < n := by exact_mod_cast h n rfl
    show wholeSeconds (.double (.finite n)) = _
    unfold wholeSeconds
    dsimp only
    rw [if_pos hpos, Int.floor_intCast]

/-- **From a client and back**: nothing changes. -/
theorem client_there_and_back (t : Tables) (host : Str) (c : SolvedCookie) :
    ∃ translated back, toPlaywrightCookie t host c.fields = .ok translated ∧
      toClientCookie translated = .ok back ∧ Same back c.fields := by
  have hnone : c.fields.find? (key "expires") = none := Dict.find?_eq_none.mpr fun hin =>
    absurd (c.keys _ hin) (by decide)
  obtain ⟨expiry, hexpiry, hbound⟩ := c.expiry_spec
  have hdouble : ∀ n ∈ expiry, Double.ofInt? n = some (.finite n) := fun n hn => by
    obtain ⟨hlow, hhigh⟩ := hbound n hn
    exact Double.ofInt?_of_lt (by omega) hhigh
  have hspec := toPlaywrightCookie_spec t host c.fields
  rw [expiresOf_of_expiry hnone hexpiry hdouble] at hspec
  obtain ⟨translated, htranslated, hfound⟩ := hspec
  have hfound' : ∀ k, translated.find? k =
      if k = key "expires" then expiry.map fun n : ℤ => Json.double (.finite n)
      else if k ∈ playwrightCookieKeys then c.fields.find? k else none := fun k => by
    rw [hfound, fieldOf_placed c.domain c.path]
  have hwhole : wholeSeconds ((translated.find? (key "expires")).getD .null) = .ok expiry := by
    rw [hfound', if_pos rfl]
    exact wholeSeconds_of_expiry fun n hn => (hbound n hn).1
  obtain ⟨back, hback, hfind⟩ := toClientCookie_spec hwhole
  refine ⟨translated, back, htranslated, hback, fun k => ?_⟩
  rw [hfind]
  by_cases hk : k = key "expires"
  · rw [if_pos hk, hk, hnone]
  · rw [if_neg hk]
    by_cases hk' : k = key "expiry"
    · rw [if_pos hk', hfound', if_neg (by decide), if_neg (by decide), Option.or_none, hk', hexpiry]
    · rw [if_neg hk', hfound', if_neg hk]
      split
      next => rfl
      next hnot =>
        refine (Dict.find?_eq_none.mpr fun hin => ?_).symm
        exact (clientKeys_known k (c.keys k hin)).elim hk' hnot

end One

/-! ## The lists -/

/-- **The property**, for the URL of a request. -/
structure RoundTrips (t : Tables) (url : Str) : Prop where
  playwright : ∀ cookies : List PlaywrightCookie, ∃ client back,
    toClientCookies (cookies.map PlaywrightCookie.fields) = .ok client ∧
      toPlaywrightCookies t client url = .ok back ∧
      List.Forall₂ (fun c b => ∀ k, b.find? k = truncated c.fields k) cookies back
  client : ∀ cookies : List SolvedCookie, ∃ translated back,
    toPlaywrightCookies t (cookies.map SolvedCookie.fields) url = .ok translated ∧
      toClientCookies translated = .ok back ∧
      List.Forall₂ (fun c b => Same b c.fields) cookies back

/-- **Cookies go there and back** for every URL that `urlsplit` reads. -/
theorem dialects_round_trip (t : Tables) (url : Str) (hurl : Returns (hostOf t url)) :
    RoundTrips t url := by
  obtain ⟨host, hhost⟩ := hurl
  constructor
  · intro cookies
    obtain ⟨client, back, hclient, hback, hall⟩ := mapM_mapM_meets
      fun c (_ : c ∈ cookies) => playwright_there_and_back t host c
    refine ⟨client, back, ?_, ?_, hall⟩
    · rw [toClientCookies, List.mapM_map]
      exact hclient
    · rw [toPlaywrightCookies_of_host hhost]
      exact hback
  · intro cookies
    obtain ⟨translated, back, htranslated, hback, hall⟩ := mapM_mapM_meets
      fun c (_ : c ∈ cookies) => client_there_and_back t host c
    refine ⟨translated, back, ?_, hback, hall⟩
    rw [toPlaywrightCookies_of_host hhost, List.mapM_map]
    exact htranslated

theorem dialects_round_trip_example : RoundTrips .ascii (key "https://example.tld/") :=
  dialects_round_trip .ascii (key "https://example.tld/") ⟨_, rfl⟩

/-- `{"name": "a", "value": "1", "domain": ".example.tld", "path": "/", "expires": 1893456000.5}` -/
def reportedCookie : PlaywrightCookie where
  fields := ⟨[(key "name", .str (key "a")), (key "value", .str (key "1")),
    (key "domain", .str (key ".example.tld")), (key "path", .str (key "/")),
    (key "expires", .double (.finite (1893456000 + 1 / 2)))], by decide⟩
  keys := by decide
  domain := rfl
  path := rfl
  expires := by
    rintro j ⟨⟩
    refine ⟨_, rfl, ⟨3786912001, -1, by decide, by decide, by decide, ?_⟩, .inr ?_⟩
    · norm_num
    · norm_num

/-- The cookie is not handed back for a URL that `urlsplit` refuses. -/
theorem no_round_trip_without_host : ¬ RoundTrips .ascii (key "http://[") := by
  intro h
  obtain ⟨client, back, -, hback, -⟩ := h.playwright [reportedCookie]
  have hraised : toPlaywrightCookies .ascii client (key "http://[") = .error .valueError := rfl
  exact nomatch hraised.symm.trans hback

end Solverr.Cookies
