import Mathlib.Tactic.SplitIfs
import Solverr.Lib.Changes
import Solverr.Redact.Credentials

/-!
# What the logs depend on

Two policies over a request. `credentials` says what is a credential: the values
that two requests may differ in. `unlogged` says what the rules of `body` do not
show, place by place: every rule renders a list or an object part by part, and the
place of a part is the rule that renders it. Where a credential stands in a place
that is shown, it reaches the log; `body_independent_iff` says that nothing else
makes a difference.
-/

namespace Solverr.Redact

open Solverr.Lib

/-! ## What is a credential -/

/-- The cookie attributes whose values are no secrets. -/
def cookieAttributes : List Str :=
  ["name", "domain", "path", "url", "expires", "expiry", "httpOnly", "secure", "sameSite"].map
    fun key => .of key.toList

/-- A URL with another password. -/
def PasswordChange (a b : Json) : Prop :=
  ∃ (l : LoginUrl) (p q : Str), IsPassword p ∧ IsPassword q ∧
    a = .str (l.text p) ∧ b = .str (l.text q)

/-- Where a value stands, for what is secret about it. -/
inductive Spot
  | request
  | plain
  | cookies
  | proxy
  | password
  | postData
  | postItem

/-- The credentials of a request: the leaves of `cookies` but for attributes, the
passwords in `proxy`, and the values of `postData`. -/
def credentials : Policy where
  Place := Spot
  field
    | .request, key =>
      if key = .of "cookies".toList then .cookies
      else if key = .of "proxy".toList then .proxy
      else if key = .of "postData".toList then .postData
      else .plain
    | .plain, _ => .plain
    | .cookies, key => if key ∈ cookieAttributes then .plain else .cookies
    | .proxy, key | .password, key => if key = .of "password".toList then .password else .proxy
    | .postData, _ | .postItem, _ => .postItem
  item
    | .request | .plain => .plain
    | .cookies => .cookies
    | .proxy | .password => .proxy
    | .postData | .postItem => .postItem
  leaf
    | .request, _, _ | .plain, _, _ => False
    | .cookies, _, _ | .postItem, _, _ => True
    | .proxy, a, b => PasswordChange a b
    | .password, a, b => PasswordChange a b ∨ ∃ x y, x ≠ [] ∧ y ≠ [] ∧ a = .str x ∧ b = .str y
    | .postData, a, b => ∃ x y, SameForm x y ∧ a = .str x ∧ b = .str y

/-! ## What is not shown -/

/-- The rule that renders a value. -/
inductive Rule
  | body
  | cookies
  | cookie
  | headers
  | postData
  | proxy
  | proxyUrl
  | url
  | secret
  | shown
  | gone

section Rules

variable (t : UrlTables) (lower : Str → Str)

/-- What a rule shows of a value. -/
def shows : Rule → Json → Json
  | .body, v => body t lower v
  | .cookies, v => cookies v
  | .cookie, v => cookie v
  | .headers, v => headers lower v
  | .postData, v => postData v
  | .proxy, v => proxy t lower v
  | .proxyUrl, v => proxyUrlValue t v
  | .url, v => urlValue t v
  | .secret, v => if v.truthy = true then .str redacted else v
  | .shown, v => v
  | .gone, _ => .str redacted

/-- A value that `_headers` replaces, whatever it is. -/
def headerGone : Json → Bool
  | .null | .str [] | .list [] => false
  | _ => true

/-- What the rules do not show of the credentials. -/
def unlogged : Policy where
  Place := Rule
  field
    | .body, key =>
      if key ∈ secretKeys then .secret
      else if key = .of "cookies".toList then .cookies
      else if key = .of "headers".toList then .headers
      else if key = .of "postData".toList then .postData
      else if key = .of "proxy".toList then .proxy
      else if key = .of "url".toList then .url
      else .body
    | .proxy, key =>
      if key ∈ secretKeys then .secret else if key = .of "url".toList then .proxyUrl else .body
    | .cookie, key => if key = .of "value".toList then .gone else .shown
    | .headers, key => if lower key ∈ secretHeaders then .gone else .shown
    | .url, _ | .shown, _ => .shown
    | .cookies, _ | .postData, _ | .proxyUrl, _ | .secret, _ | .gone, _ => .gone
  item
    | .body => .body
    | .cookies => .cookie
    | .url | .shown => .shown
    | .cookie | .headers | .postData | .proxy | .proxyUrl | .secret | .gone => .gone
  leaf
    | .body, _, _ | .shown, _, _ => False
    | .cookie, _, _ | .gone, _, _ => True
    | .cookies, a, b => ∃ x y, a = .str x ∧ b = .str y
    | .headers, a, b => headerGone a = true ∧ headerGone b = true
    | .postData, a, b => ∃ x y, SameForm x y ∧ a = .str x ∧ b = .str y
    | .secret, a, b => a.truthy = true ∧ b.truthy = true
    | .url, a, b => ∃ (l : LoginUrl) (p q : Str), IsPassword p ∧ IsPassword q ∧
        a = .str (l.text p) ∧ b = .str (l.text q) ∧
        (Url.urlsplit t (l.text p) = none ↔ Url.urlsplit t (l.text q) = none)
    | .proxy, a, b | .proxyUrl, a, b => ∃ (l : LoginUrl) (p q : Str), IsPassword p ∧
        IsPassword q ∧ a = .str (l.text p) ∧ b = .str (l.text q) ∧
        (KeptWhole t (l.text p) ↔ KeptWhole t (l.text q))

/-! ## The rules render part by part -/

/-- A value that is falsy has no parts to render. -/
theorem body_of_falsy {v : Json} (h : v.truthy = false) : body t lower v = v := by
  cases v with
  | list items => cases items with
    | nil => rfl
    | cons item items => cases h
  | obj fields => cases fields with
    | nil => rfl
    | cons field fields => cases h
  | _ => rfl

theorem bodyItems_eq (items : List Json) : bodyItems t lower items = items.map (body t lower) := by
  induction items with
  | nil => rfl
  | cons item items ih => rw [bodyItems, ih, List.map_cons]

/-- No secret key has another rule. -/
theorem secretKeys_other {key : Str} (h : key ∈ secretKeys) :
    key ≠ .of "cookies".toList ∧ key ≠ .of "headers".toList ∧ key ≠ .of "postData".toList ∧
      key ≠ .of "proxy".toList ∧ key ≠ .of "url".toList := by
  rcases List.mem_cons.mp h with rfl | h
  · decide
  · obtain rfl := List.mem_singleton.mp h
    decide

/-- A field of `body` is rendered by its own rule. -/
theorem bodyFields_eq (fields : List (Str × Json)) : bodyFields t lower fields =
    fields.map fun f => (f.1, shows t lower ((unlogged t lower).field .body f.1) f.2) := by
  induction fields with
  | nil => rfl
  | cons field fields ih =>
    obtain ⟨key, value⟩ := field
    rw [bodyFields, ih, List.map_cons]
    refine congrArg (fun v => (key, v) :: _) ?_
    show _ = shows t lower (if key ∈ secretKeys then .secret else _) value
    by_cases hsecret : key ∈ secretKeys
    · obtain ⟨hcookies, hheaders, hpost, hproxy, hurl⟩ := secretKeys_other hsecret
      rw [if_pos hsecret, if_neg hcookies, if_neg hheaders, if_neg hpost, if_neg hproxy,
        if_neg hurl]
      cases hv : value.truthy with
      | true => simp [shows, hsecret, hv]
      | false => simp [shows, hv, body_of_falsy]
    · rw [if_neg fun h => hsecret h.1, if_neg hsecret]
      split_ifs <;> rfl

/-- So is a field of `_proxy`. -/
theorem proxyFields_eq (fields : List (Str × Json)) : proxyFields t lower fields =
    fields.map fun f => (f.1, shows t lower ((unlogged t lower).field .proxy f.1) f.2) := by
  induction fields with
  | nil => rfl
  | cons field fields ih =>
    obtain ⟨key, value⟩ := field
    rw [proxyFields, ih, List.map_cons]
    refine congrArg (fun v => (key, v) :: _) ?_
    show _ = shows t lower (if key ∈ secretKeys then .secret else _) value
    by_cases hsecret : key ∈ secretKeys
    · obtain ⟨-, -, -, -, hurl⟩ := secretKeys_other hsecret
      rw [if_pos hsecret, if_neg hurl]
      cases hv : value.truthy with
      | true => simp [shows, hsecret, hv]
      | false => simp [shows, hv, body_of_falsy]
    · rw [if_neg fun h => hsecret h.1, if_neg hsecret]
      split_ifs <;> rfl

/-- An object is rendered field by field, or all of it is replaced. -/
theorem shows_obj (r : Rule) :
    (∀ fs, shows t lower r (.obj fs) =
      .obj (fs.map fun f => (f.1, shows t lower ((unlogged t lower).field r f.1) f.2))) ∨
    (∀ fs gs : List (Str × Json), fs.length = gs.length →
      shows t lower r (.obj fs) = shows t lower r (.obj gs)) ∧
      ∀ k x y, shows t lower ((unlogged t lower).field r k) x =
        shows t lower ((unlogged t lower).field r k) y := by
  cases r with
  | body => exact .inl fun fs => congrArg Json.obj (bodyFields_eq t lower fs)
  | proxy => exact .inl fun fs => congrArg Json.obj (proxyFields_eq t lower fs)
  | cookies | postData => exact .inl fun _ => rfl
  | cookie | headers =>
    refine .inl fun fs => congrArg Json.obj (List.map_congr_left fun f _ => ?_)
    show (f.1, ite _ _ _) = (f.1, shows t lower (ite _ _ _) f.2)
    split_ifs <;> rfl
  | url | shown =>
    refine .inl fun fs => congrArg Json.obj ?_
    exact (List.map_id fs).symm
  | proxyUrl | gone => exact .inr ⟨fun _ _ _ => rfl, fun _ _ _ => rfl⟩
  | secret =>
    refine .inr ⟨fun fs gs hlen => ?_, fun _ _ _ => rfl⟩
    cases fs <;> cases gs
    · rfl
    · cases hlen
    · cases hlen
    · rfl

/-- A list is rendered item by item, or all of it is replaced. -/
theorem shows_list (r : Rule) :
    (∀ xs, shows t lower r (.list xs) =
      .list (xs.map (shows t lower ((unlogged t lower).item r)))) ∨
    (∀ xs ys : List Json, xs.length = ys.length →
      shows t lower r (.list xs) = shows t lower r (.list ys)) ∧
      ∀ x y, shows t lower ((unlogged t lower).item r) x =
        shows t lower ((unlogged t lower).item r) y := by
  cases r with
  | body => exact .inl fun xs => congrArg Json.list (bodyItems_eq t lower xs)
  | cookies => exact .inl fun _ => rfl
  | url | shown => exact .inl fun xs => congrArg Json.list (List.map_id xs).symm
  | cookie | postData | proxyUrl | gone => exact .inr ⟨fun _ _ _ => rfl, fun _ _ => rfl⟩
  | headers | proxy | secret =>
    refine .inr ⟨fun xs ys hlen => ?_, fun _ _ => rfl⟩
    cases xs <;> cases ys
    · rfl
    · cases hlen
    · cases hlen
    · rfl

/-! ## Credentials at their places -/

/-- The rules that may render what stands at a spot. -/
def Meets : Spot → Rule → Prop
  | .request, r => r = .body
  | .plain, _ | .proxy, _ => True
  | .cookies, r => r = .cookies ∨ r = .cookie ∨ r = .gone ∨ r = .shown
  | .password, r => r = .secret ∨ r = .gone ∨ r = .shown
  | .postData, r => r = .postData
  | .postItem, r => r = .gone

/-- The value of a `password` is replaced or shown, whatever rule it is under. -/
theorem field_password (r : Rule) :
    Meets .password ((unlogged t lower).field r (.of "password".toList)) := by
  cases r with
  | body | proxy => exact .inl rfl
  | cookies | postData | proxyUrl | secret | gone => exact .inr (.inl rfl)
  | cookie | url | shown => exact .inr (.inr rfl)
  | headers =>
    show Meets .password (if _ then .gone else .shown)
    split
    · exact .inr (.inl rfl)
    · exact .inr (.inr rfl)

theorem meets_field {s : Spot} {r : Rule} (key : Str) (h : Meets s r) :
    Meets (credentials.field s key) ((unlogged t lower).field r key) := by
  cases s with
  | request =>
    obtain rfl := h
    show Meets (if _ then .cookies else if _ then .proxy else if _ then .postData else .plain) _
    split
    next hkey => exact hkey ▸ .inl rfl
    next =>
      split
      next => trivial
      next =>
        split
        next hkey => exact hkey ▸ rfl
        next => trivial
  | plain => trivial
  | cookies =>
    show Meets (if key ∈ cookieAttributes then .plain else .cookies) _
    split
    next => trivial
    next =>
      rcases h with rfl | rfl | rfl | rfl
      · exact .inr (.inr (.inl rfl))
      · show Meets .cookies (if _ then .gone else .shown)
        split
        · exact .inr (.inr (.inl rfl))
        · exact .inr (.inr (.inr rfl))
      · exact .inr (.inr (.inl rfl))
      · exact .inr (.inr (.inr rfl))
  | proxy | password =>
    show Meets (if key = .of "password".toList then .password else .proxy) _
    split
    next hkey => exact hkey ▸ field_password t lower r
    next => trivial
  | postData | postItem =>
    obtain rfl := h
    rfl

theorem meets_item {s : Spot} {r : Rule} (h : Meets s r) :
    Meets (credentials.item s) ((unlogged t lower).item r) := by
  cases s with
  | request | plain | proxy | password => trivial
  | cookies =>
    rcases h with rfl | rfl | rfl | rfl
    · exact .inr (.inl rfl)
    · exact .inr (.inr (.inl rfl))
    · exact .inr (.inr (.inl rfl))
    · exact .inr (.inr (.inr rfl))
  | postData | postItem =>
    obtain rfl := h
    rfl

/-- A string with something in it is truthy, and no header shows it. -/
theorem of_ne_nil {x : Str} (hx : x ≠ []) : (Json.str x).truthy = true ∧
    headerGone (.str x) = true ∧ headers lower (.str x) = .str redacted := by
  cases x with
  | nil => exact absurd rfl hx
  | cons c x => exact ⟨rfl, rfl, rfl⟩

/-- Every rule shows a URL's password as its policy says. -/
theorem shows_passwordChange (r : Rule) {a b : Json} (h : PasswordChange a b) :
    shows t lower r a = shows t lower r b ↔ a = b ∨ (unlogged t lower).leaf r a b := by
  obtain ⟨l, p, q, hp, hq, rfl, rfl⟩ := h
  obtain ⟨htruthy, hhgone, hheaders⟩ := of_ne_nil lower (l.text_ne_nil p)
  obtain ⟨htruthy', hhgone', hheaders'⟩ := of_ne_nil lower (l.text_ne_nil q)
  cases r with
  | body | shown => exact (or_iff_left id).symm
  | cookies => exact iff_of_true rfl (.inr ⟨_, _, rfl, rfl⟩)
  | cookie | gone => exact iff_of_true rfl (.inr trivial)
  | headers => exact iff_of_true (hheaders.trans hheaders'.symm) (.inr ⟨hhgone, hhgone'⟩)
  | secret =>
    refine iff_of_true ?_ (.inr ⟨htruthy, htruthy'⟩)
    simp only [shows, htruthy, htruthy', if_true]
  | postData =>
    show Json.str _ = Json.str _ ↔ _
    rw [Json.str.injEq, form_eq_iff]
    constructor
    · exact fun h => .inr ⟨_, _, h, rfl, rfl⟩
    · rintro (h | ⟨x, y, h, hx, hy⟩)
      · rw [Json.str.inj h, ← form_eq_iff]
      · rwa [Json.str.inj hx, Json.str.inj hy]
  | url =>
    show Json.str _ = Json.str _ ↔ _
    rw [Json.str.injEq]
    constructor
    · exact fun h => .inr ⟨l, p, q, hp, hq, rfl, rfl, (l.url_eq_iff t hp hq).mp h⟩
    · rintro (h | ⟨l', p', q', hp', hq', hx, hy, hsplit⟩)
      · rw [Json.str.inj h]
      · rw [Json.str.inj hx, Json.str.inj hy]
        exact (l'.url_eq_iff t hp' hq').mpr hsplit
  | proxy | proxyUrl =>
    show Json.str _ = Json.str _ ↔ _
    rw [Json.str.injEq]
    constructor
    · exact fun h => .inr ⟨l, p, q, hp, hq, rfl, rfl, (l.proxyUrl_eq_iff t hp hq).mp h⟩
    · rintro (h | ⟨l', p', q', hp', hq', hx, hy, hkept⟩)
      · rw [Json.str.inj h]
      · rw [Json.str.inj hx, Json.str.inj hy]
        exact (l'.proxyUrl_eq_iff t hp' hq').mpr hkept

/-- What the rules show of any two cookie leaves. -/
theorem shows_cookieLeaf {r : Rule} (hr : Meets .cookies r) {a b : Json} (ha : a.isLeaf = true)
    (hb : b.isLeaf = true) :
    shows t lower r a = shows t lower r b ↔ a = b ∨ (unlogged t lower).leaf r a b := by
  rcases hr with rfl | rfl | rfl | rfl
  · -- a string is replaced, any other leaf is shown
    show cookies a = cookies b ↔ a = b ∨ ∃ x y, a = .str x ∧ b = .str y
    cases a with
    | list => cases ha
    | obj => cases ha
    | str x => cases b with
      | list => cases hb
      | obj => cases hb
      | str y => exact iff_of_true rfl (.inr ⟨x, y, rfl, rfl⟩)
      | _ => simp [cookies]
    | _ => cases b with
      | list => cases hb
      | obj => cases hb
      | _ => simp [cookies]
  · have hcookie : ∀ v : Json, v.isLeaf = true → cookie v = .str redacted := fun v hv => by
      cases v with
      | obj => cases hv
      | _ => rfl
    exact iff_of_true ((hcookie a ha).trans (hcookie b hb).symm) (.inr trivial)
  · exact iff_of_true rfl (.inr trivial)
  · exact (or_iff_left id).symm

/-- **The rules hide what their policy says.** -/
theorem body_hides : Hides credentials (unlogged t lower) (shows t lower) Meets where
  field := meets_field t lower
  item := meets_item t lower
  list := shows_list t lower
  obj := shows_obj t lower
  leaf {s r a b} hmeet ha hb hleaf := by
    cases s with
    | request | plain => exact hleaf.elim
    | cookies => exact shows_cookieLeaf t lower hmeet ha hb
    | proxy => exact shows_passwordChange t lower r hleaf
    | password =>
      rcases hleaf with hchange | ⟨x, y, hx, hy, rfl, rfl⟩
      · exact shows_passwordChange t lower r hchange
      · obtain ⟨htruthy, -⟩ := of_ne_nil lower hx
        obtain ⟨htruthy', -⟩ := of_ne_nil lower hy
        rcases hmeet with rfl | rfl | rfl
        · refine iff_of_true ?_ (.inr ⟨htruthy, htruthy'⟩)
          simp only [shows, htruthy, htruthy', if_true]
        · exact iff_of_true rfl (.inr trivial)
        · exact (or_iff_left id).symm
    | postData =>
      obtain rfl := hmeet
      obtain ⟨x, y, hform, rfl, rfl⟩ := hleaf
      exact iff_of_true (congrArg Json.str ((form_eq_iff x y).mpr hform))
        (.inr ⟨x, y, hform, rfl, rfl⟩)
    | postItem =>
      obtain rfl := hmeet
      exact iff_of_true rfl (.inr trivial)

/-- **What the log depends on.** Of two requests that differ only in credentials, the
logged forms are equal if and only if they differ only where the rules show nothing. -/
theorem body_independent_iff {r r' : List (Str × Json)}
    (h : Changed credentials .request (.obj r) (.obj r')) :
    body t lower (.obj r) = body t lower (.obj r') ↔
      Changed (unlogged t lower) .body (.obj r) (.obj r') :=
  (body_hides t lower).exact (.obj r) (show Meets .request .body from rfl) h

end Rules

/-- A request with a proxy password. -/
def proxyRequest (password : Str) : List (Str × Json) :=
  [(.of "proxy".toList, .obj [(.of "password".toList, .str password)])]

theorem proxy_password_hidden :
    body .ascii (·.map Url.asciiLower) (.obj (proxyRequest (.of "first".toList))) =
      body .ascii (·.map Url.asciiLower) (.obj (proxyRequest (.of "second".toList))) := by
  refine (body_independent_iff .ascii _
    (.obj (.cons (.obj (.cons (.leaf rfl rfl ?_) .nil)) .nil))).mpr
    (.obj (.cons (.obj (.cons (.leaf rfl rfl ?_) .nil)) .nil))
  · exact .inr ⟨_, _, by decide, by decide, rfl, rfl⟩
  · exact ⟨rfl, rfl⟩

/-- A request with a cookie written as `{name: value}`. -/
def cookieRequest (value : Str) : List (Str × Json) :=
  [(.of "cookies".toList, .list [.obj [(.of "session".toList, .str value)]])]

/-- Such a cookie's value reaches the log. -/
theorem cookie_value_logged : ¬∀ r r' : List (Str × Json),
    Changed credentials .request (.obj r) (.obj r') →
      body .ascii (·.map Url.asciiLower) (.obj r) =
        body .ascii (·.map Url.asciiLower) (.obj r') := by
  intro h
  have heq := h (cookieRequest (.of "first".toList)) (cookieRequest (.of "second".toList))
    (.obj (.cons (.list (.cons (.obj (.cons (.leaf rfl rfl trivial) .nil)) .nil)) .nil))
  have hlog : ∀ value : Str, body .ascii (·.map Url.asciiLower) (.obj (cookieRequest value)) =
      .obj (cookieRequest value) := fun _ => rfl
  rw [hlog, hlog] at heq
  simp [cookieRequest, Str.of] at heq

end Solverr.Redact
