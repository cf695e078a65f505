import Solverr.Lib.Percent
import Solverr.Lib.Returns
import Solverr.Lib.Strings
import Solverr.Redact.Body

/-!
# The proxy of a request

`proxy_to_config`, which says what a proxy is, and what is done with the result before
and after a lookup: the key that the exit is remembered under, and `redact.proxy_text`.
The credentials are whatever JSON the client sent, as long as it counts as true.

`cacheKey_returns_iff`: there is a key exactly when what makes it is text that can be encoded.
-/

namespace Solverr.Geo

open Solverr.Lib
open Solverr.Redact (redacted)

/-- What is raised on the way, rather than returned. -/
inductive Failure
  | typeError
  | unicodeEncodeError
  | overflowError
  /-- An exception of the library's that is not caught, or one that its text raises. -/
  | library
  deriving DecidableEq

/-- `{server, username, password}`; a credential that counts as false is left out. -/
structure ProxyConfig where
  server : Str
  username : Option Json
  password : Option Json

/-- `"Request parameter 'proxy' must be an object with a 'url' field."` -/
def notObject : Str := .of "Request parameter 'proxy' must be an object with a 'url' field.".toList

/-- `"Request parameter 'proxy' must have a 'url' field naming the proxy server."` -/
def noUrl : Str :=
  .of "Request parameter 'proxy' must have a 'url' field naming the proxy server.".toList

/-- A credential of the request, if it counts as true. -/
def credential (fields : List (Str × Json)) (key : Str) : Option Json :=
  (Json.get? fields key).filter Json.truthy

/-- `proxy_to_config(proxy)`, with the text of the exception it raises. -/
def proxyToConfig : Json → Except Str (Option ProxyConfig)
  | .null => .ok none
  | .obj [] => .ok none
  | .obj fields =>
    match Json.get? fields (.of "url".toList) with
    | some (.str url) =>
      if (Str.strip url).isEmpty then .error noUrl
      else .ok (some
        { server := url
          username := credential fields (.of "username".toList)
          password := credential fields (.of "password".toList) })
    | _ => .error noUrl
  | _ => .error notObject

/-! ## The key -/

/-- `cfg.get(name) or ""`, which `join` takes if it is text. -/
def keyPart : Option Json → Except Failure Str
  | none => .ok []
  | some (.str s) => .ok s
  | some value => if value.truthy then .error .typeError else .ok []

/-- `"\x00".join(parts)` -/
def keyText : Option ProxyConfig → Except Failure Str
  | none => .ok [0, 0]
  | some cfg => do
    let username ← keyPart cfg.username
    let password ← keyPart cfg.password
    return [0].intercalate [cfg.server, username, password]

/-- `text.encode()` -/
def encode (text : Str) : Except Failure (List ℕ) :=
  match text.encode? with
  | some bytes => .ok bytes
  | none => .error .unicodeEncodeError

/-- `_cache_key(proxy_config)` -/
def cacheKey (sha256 : List ℕ → Str) (proxy : Option ProxyConfig) : Except Failure Str := do
  let text ← keyText proxy
  let bytes ← encode text
  return sha256 bytes

/-- A credential that a key is made of: text with an encoding, if it counts as true. -/
def IsText (value : Option Json) : Prop :=
  ∀ j ∈ value, j.truthy = true → ∃ s : Str, j = .str s ∧ s.Encodable

/-- A proxy whose exit has a key. -/
structure ProxyConfig.Keyed (cfg : ProxyConfig) : Prop where
  server : cfg.server.Encodable
  username : IsText cfg.username
  password : IsText cfg.password

theorem isText_str (s : Str) : IsText (some (.str s)) ↔ s.Encodable := by
  unfold IsText
  cases s with
  | nil => exact iff_of_true (fun j hj ht => by cases hj; cases ht) (fun c hc => nomatch hc)
  | cons c s =>
    constructor
    · intro h
      obtain ⟨_, hs, hencodable⟩ := h _ rfl rfl
      cases hs
      exact hencodable
    · rintro h j hj -
      cases hj
      exact ⟨_, rfl, h⟩

theorem keyPart_str {value : Json} (h : ∀ s, value ≠ .str s) :
    keyPart (some value) = if value.truthy then .error .typeError else .ok [] := by
  cases value with
  | str s => exact absurd rfl (h s)
  | _ => rfl

/-- What goes into a key. -/
theorem keyPart_iff (value : Option Json) :
    (∃ s, keyPart value = .ok s ∧ s.Encodable) ↔ IsText value := by
  rcases value with _ | value
  · exact iff_of_true ⟨[], rfl, fun c hc => nomatch hc⟩ (fun j hj => nomatch hj)
  · by_cases hstr : ∃ s, value = .str s
    · obtain ⟨s, rfl⟩ := hstr
      rw [isText_str]
      constructor
      · rintro ⟨_, h, hs⟩
        exact Except.ok.inj h ▸ hs
      · exact fun hs => ⟨s, rfl, hs⟩
    · rw [not_exists] at hstr
      rw [keyPart_str hstr]
      cases ht : value.truthy with
      | true =>
        refine iff_of_false ?_ fun h => ?_
        · rintro ⟨_, h, -⟩
          cases h
        · obtain ⟨s, hs, -⟩ := h value rfl ht
          exact hstr s hs
      | false =>
        refine iff_of_true ⟨[], rfl, fun c hc => nomatch hc⟩ fun j hj htrue => ?_
        cases hj
        rw [ht] at htrue
        cases htrue

theorem encode_returns_iff (text : Str) : Returns (encode text) ↔ text.Encodable := by
  rw [← Str.encode?_isSome_iff]
  unfold encode
  cases text.encode? with
  | none => simp
  | some bytes => simp

theorem keyText_encodable {server username password : Str} :
    Str.Encodable ([0].intercalate [server, username, password]) ↔
      server.Encodable ∧ username.Encodable ∧ password.Encodable := by
  have hzero : Nat.isValidChar 0 := .inl (by decide)
  simp [List.intercalate_cons_cons, Str.encodable_append, Str.encodable_cons, hzero]

theorem keyText_eq_ok_iff (cfg : ProxyConfig) (text : Str) :
    keyText (some cfg) = .ok text ↔ ∃ username, keyPart cfg.username = .ok username ∧
      ∃ password, keyPart cfg.password = .ok password ∧
        [0].intercalate [cfg.server, username, password] = text := by
  simp only [keyText, bind_eq_ok_iff, pure, Except.pure, Except.ok.injEq]

/-- **There is a key** exactly when what makes it is text that can be encoded. -/
theorem cacheKey_returns_iff (sha256 : List ℕ → Str) (proxy : Option ProxyConfig) :
    Returns (cacheKey sha256 proxy) ↔ ∀ cfg ∈ proxy, cfg.Keyed := by
  have hkey : Returns (cacheKey sha256 proxy) ↔
      ∃ text, keyText proxy = .ok text ∧ text.Encodable := by
    simp only [cacheKey, returns_bind_iff, returns_pure, and_true, ← encode_returns_iff]
    rfl
  rw [hkey]
  cases proxy with
  | none =>
    refine iff_of_true ⟨_, rfl, by decide⟩ ?_
    intro cfg hcfg
    cases hcfg
  | some cfg =>
    simp only [keyText_eq_ok_iff]
    constructor
    · rintro ⟨_, ⟨username, hu, password, hp, rfl⟩, htext⟩ _ hcfg
      cases hcfg
      obtain ⟨hserver, husername, hpassword⟩ := keyText_encodable.mp htext
      exact ⟨hserver, (keyPart_iff _).mp ⟨_, hu, husername⟩, (keyPart_iff _).mp ⟨_, hp, hpassword⟩⟩
    · intro h
      obtain ⟨hserver, husername, hpassword⟩ := h cfg rfl
      obtain ⟨username, hu, hu'⟩ := (keyPart_iff _).mpr husername
      obtain ⟨password, hp, hp'⟩ := (keyPart_iff _).mpr hpassword
      exact ⟨_, ⟨username, hu, password, hp, rfl⟩, keyText_encodable.mpr ⟨hserver, hu', hp'⟩⟩

/-! ## The request -/

/-- What `proxy_to_config` accepts, and what it makes of it. -/
theorem proxyToConfig_ok {value : Json} {proxy : Option ProxyConfig}
    (h : proxyToConfig value = .ok proxy) :
    proxy = none ∧ (value = .null ∨ value = .obj []) ∨
      ∃ fields url, value = .obj fields ∧ Json.get? fields (.of "url".toList) = some (.str url) ∧
        proxy = some
          { server := url
            username := credential fields (.of "username".toList)
            password := credential fields (.of "password".toList) } := by
  unfold proxyToConfig at h
  split at h
  next => exact .inl ⟨(Except.ok.inj h).symm, .inl rfl⟩
  next => exact .inl ⟨(Except.ok.inj h).symm, .inr rfl⟩
  next fields _ =>
    split at h
    next url hurl =>
      split at h
      next => cases h
      next => exact .inr ⟨fields, url, rfl, hurl, (Except.ok.inj h).symm⟩
    next => cases h
  next => cases h

/-- The fields that make a key are text that can be encoded, where they count as true. -/
def Keyable (value : Json) : Prop :=
  ∀ fields, value = .obj fields →
    ∀ name ∈ ["url", "username", "password"], IsText (Json.get? fields (.of name.toList))

theorem isText_credential (fields : List (Str × Json)) (key : Str) :
    IsText (credential fields key) ↔ IsText (Json.get? fields key) := by
  unfold IsText credential
  constructor
  · exact fun h j hj ht => h j (Option.mem_filter_iff.mpr ⟨hj, ht⟩) ht
  · exact fun h j hj ht => h j (Option.mem_filter_iff.mp hj).1 ht

/-- The proxy that is accepted has a key exactly when its fields make one. -/
theorem keyed_iff {value : Json} {proxy : Option ProxyConfig}
    (h : proxyToConfig value = .ok proxy) : (∀ cfg ∈ proxy, cfg.Keyed) ↔ Keyable value := by
  rcases proxyToConfig_ok h with ⟨rfl, rfl | rfl⟩ | ⟨fields, url, rfl, hurl, rfl⟩
  · exact iff_of_true (fun cfg hcfg => (nomatch hcfg)) (fun fields hfields => (nomatch hfields))
  · refine iff_of_true (fun cfg hcfg => (nomatch hcfg)) fun fields hfields name _ j hj => ?_
    cases hfields
    cases hj
  · constructor
    · intro hkeyed _ hfields
      cases hfields
      obtain ⟨hserver, husername, hpassword⟩ := hkeyed _ rfl
      rw [List.forall_mem_cons, List.forall_mem_cons, List.forall_mem_singleton]
      exact ⟨hurl ▸ (isText_str url).mpr hserver, (isText_credential ..).mp husername,
        (isText_credential ..).mp hpassword⟩
    · intro hkeyable _ hcfg
      cases hcfg
      have hfields := hkeyable fields rfl
      rw [List.forall_mem_cons, List.forall_mem_cons, List.forall_mem_singleton, hurl] at hfields
      exact ⟨(isText_str url).mp hfields.1, (isText_credential ..).mpr hfields.2.1,
        (isText_credential ..).mpr hfields.2.2⟩

/-! ## Messages of the library -/

/-- `_password_in(value)` -/
def passwordIn (t : UrlTables) (server : Str) : Option Str :=
  (Url.urlsplit t server).bind Url.Parts.password

/-- `quote(password, safe="")` and `quote(password)`, of a password that is text. -/
def quoted : Option Json → Except Failure (List Str)
  | some (.str (c :: s)) =>
    match Str.text? (c :: s) with
    | some password => .ok [.of (Percent.quoteAll password), .of (Percent.quote password)]
    | none => .error .unicodeEncodeError
  | _ => .ok []

/-- `value.replace(secret, REDACTED)`, for a secret that counts as true. -/
def removeSecret (value : Str) : Option Json → Except Failure Str
  | none => .ok value
  | some (.str s) => .ok (if s.isEmpty then value else Str.replace s redacted value)
  | some secret => if secret.truthy then .error .typeError else .ok value

/-- `redact.proxy_text(value, proxy_config)` -/
def proxyText (t : UrlTables) (value : Str) : Option ProxyConfig → Except Failure Str
  | none => .ok value
  | some cfg => do
    let forms ← quoted cfg.password
    let secrets := cfg.password :: (passwordIn t cfg.server).map .str :: forms.map (some ∘ .str)
    let value ← secrets.foldlM removeSecret value
    return if cfg.server.isEmpty then value
      else Str.replace cfg.server (Redact.url t cfg.server) value

theorem quoted_returns {password : Option Json} (h : IsText password) :
    Returns (quoted password) := by
  unfold quoted
  split
  next c s =>
    obtain ⟨text, htext⟩ := (Str.text?_isSome_iff _).mpr ((isText_str _).mp h)
    rw [htext]
    exact returns_ok _
  next => exact returns_ok _

/-- A secret that is text, or counts as false. -/
theorem removeSecret_returns (value : Str) {secret : Option Json}
    (h : ∀ j ∈ secret, j.truthy = true → ∃ s, j = .str s) :
    Returns (removeSecret value secret) := by
  unfold removeSecret
  split
  next => exact returns_ok _
  next => exact returns_ok _
  next secret hstr =>
    split
    next ht =>
      obtain ⟨s, rfl⟩ := h secret rfl ht
      exact absurd rfl (hstr s)
    next => exact returns_ok _

theorem removeSecrets_returns (secrets : List (Option Json))
    (h : ∀ secret ∈ secrets, ∀ j ∈ secret, j.truthy = true → ∃ s, j = .str s) :
    ∀ value : Str, Returns (secrets.foldlM removeSecret value) := by
  induction secrets with
  | nil => exact fun value => returns_ok value
  | cons secret secrets ih =>
    intro value
    rw [List.foldlM_cons, returns_bind_iff]
    obtain ⟨value', hvalue⟩ := removeSecret_returns value (h secret List.mem_cons_self)
    exact ⟨value', hvalue, ih (fun s hs => h s (List.mem_cons_of_mem _ hs)) value'⟩

/-- **The message of a failed lookup can be cleaned** for every proxy that has a key. -/
theorem proxyText_returns (t : UrlTables) (value : Str) {proxy : Option ProxyConfig}
    (h : ∀ cfg ∈ proxy, cfg.Keyed) : Returns (proxyText t value proxy) := by
  cases proxy with
  | none => exact returns_ok _
  | some cfg =>
    have hkeyed := h cfg rfl
    obtain ⟨forms, hforms⟩ := quoted_returns hkeyed.password
    simp only [proxyText, returns_bind_iff, returns_pure, and_true]
    refine ⟨forms, hforms, removeSecrets_returns _ ?_ value⟩
    intro secret hsecret j hj ht
    rcases List.mem_cons.mp hsecret with rfl | hsecret
    · obtain ⟨s, hs, -⟩ := hkeyed.password j hj ht
      exact ⟨s, hs⟩
    · rcases List.mem_cons.mp hsecret with rfl | hsecret
      · obtain ⟨s, -, rfl⟩ := Option.map_eq_some_iff.mp hj
        exact ⟨s, rfl⟩
      · obtain ⟨s, -, rfl⟩ := List.mem_map.mp hsecret
        cases hj
        exact ⟨s, rfl⟩

end Solverr.Geo
