import Solverr.Lib.Url

/-!
# What the request and response logs show

`redact.py`. A value is rendered by the rule of the field it stands in: `body` is
the rule of the request itself and of every field without a rule of its own. The
URL tables and `str.lower` are parameters.
-/

namespace Solverr.Redact

open Solverr.Lib

/-- `REDACTED` -/
def redacted : Str := .of "<redacted>".toList

/-- `_SECRET_KEYS` -/
def secretKeys : List Str := [.of "password".toList, .of "turnstile_token".toList]

/-- `_SECRET_HEADERS` -/
def secretHeaders : List Str :=
  [.of "cookie".toList, .of "set-cookie".toList, .of "authorization".toList,
    .of "proxy-authorization".toList]

/-- `url(value)` of a string. -/
def url (t : UrlTables) (value : Str) : Str :=
  match Url.urlsplit t value with
  | none => redacted
  | some parts =>
    if parts.password.isSome then
      let (userinfo, hostport) := rcut '@'.toNat parts.netloc
      let user := (cut ':'.toNat (userinfo.getD [])).1
      Url.urlunsplit
        { parts with netloc := user ++ ':'.toNat :: redacted ++ '@'.toNat :: hostport }
    else value

/-- `proxy_url(value)` of a string. -/
def proxyUrl (t : UrlTables) (value : Str) : Str :=
  if value.isEmpty then value
  else
    let replaced := url t value
    if replaced ≠ value then replaced
    else if '@'.toNat ∈ value ∧ ':'.toNat ∈ (cut '@'.toNat value).1 then redacted
    else value

/-- `url(value)` of any value. -/
def urlValue (t : UrlTables) : Json → Json
  | .str s => .str (url t s)
  | value => value

/-- The `url` of a proxy object. -/
def proxyUrlValue (t : UrlTables) : Json → Json
  | .str s => .str (proxyUrl t s)
  | _ => .str redacted

/-- One pair of a form, its value replaced. -/
def formPair (pair : Str) : Str :=
  match cut '='.toNat pair with
  | (name, some _) => name ++ '='.toNat :: redacted
  | (_, none) => pair

/-- `form(value)` of a string. -/
def form (value : Str) : Str :=
  if value.isEmpty then value
  else ['&'.toNat].intercalate ((value.splitOn '&'.toNat).map formPair)

/-- An item of a cookie list. -/
def cookie : Json → Json
  | .obj fields =>
    .obj (fields.map fun f => (f.1, if f.1 = .of "value".toList then .str redacted else f.2))
  | _ => .str redacted

/-- `_cookies(value)` -/
def cookies : Json → Json
  | .list items => .list (items.map cookie)
  | .obj fields => .obj (fields.map fun f => (f.1, .str redacted))
  | .str _ => .str redacted
  | value => value

/-- `_headers(value)` -/
def headers (lower : Str → Str) : Json → Json
  | .obj fields => .obj (fields.map fun f =>
      (f.1, if lower f.1 ∈ secretHeaders then .str redacted else f.2))
  | .null => .null
  | .str [] => .str []
  | .list [] => .list []
  | _ => .str redacted

/-- `_post_data(value)` -/
def postData : Json → Json
  | .str s => .str (form s)
  | .obj fields => .obj (fields.map fun f => (f.1, .str redacted))
  | .list _ => .str redacted
  | value => value

section Body

variable (t : UrlTables) (lower : Str → Str)

mutual

/-- `body(obj)` -/
def body : Json → Json
  | .list items => .list (bodyItems items)
  | .obj fields => .obj (bodyFields fields)
  | value => value

def bodyItems : List Json → List Json
  | [] => []
  | item :: items => body item :: bodyItems items

def bodyFields : List (Str × Json) → List (Str × Json)
  | [] => []
  | (key, value) :: fields =>
    (key,
      if key ∈ secretKeys ∧ value.truthy = true then .str redacted
      else if key = .of "cookies".toList then cookies value
      else if key = .of "headers".toList then headers lower value
      else if key = .of "postData".toList then postData value
      else if key = .of "proxy".toList then proxy value
      else if key = .of "url".toList then urlValue t value
      else body value) :: bodyFields fields

/-- `_proxy(value)` -/
def proxy : Json → Json
  | .str s => .str (proxyUrl t s)
  | .obj fields => .obj (proxyFields fields)
  | .null => .null
  | .list [] => .list []
  | _ => .str redacted

def proxyFields : List (Str × Json) → List (Str × Json)
  | [] => []
  | (key, item) :: fields =>
    (key,
      if key ∈ secretKeys ∧ item.truthy = true then .str redacted
      else if key = .of "url".toList then proxyUrlValue t item
      else body item) :: proxyFields fields

end

end Body

end Solverr.Redact
