import Mathlib.Data.Rat.Defs
import Mathlib.Tactic.NormNum
import Solverr.Geo.Proxy
import Solverr.Geo.Zones
import Solverr.Lib.Lru

/-!
# Where an exit is

`_from_egress` asks the library for the zone and the language of an exit, and `_resolved`
remembers the pair that it returns. The library is a parameter: its resolvers return any
object and raise anything. `_resolved` takes the lock twice, and `meanwhile` is what other
calls do to the cache between the two sections, `cachedPair` and `remember`. Seconds are
rationals, and a `float` overflows where its conversion from an integer does.
-/

namespace Solverr.Geo

open Solverr.Lib

/-! ## The library -/

/-- An exception of the library's: whether `except Exception` catches it, and its text,
unless `str` raises on it. -/
structure Raised where
  isException : Bool
  text : Option Str

variable {ω : Type}

/-- What `prepare_session_geo` returns. Reading an attribute may raise. -/
structure Session (ω : Type) where
  timezone : Except Raised ω
  egressIp : Except Raised ω

/-- The two resolvers, and `bool` of the objects that they return. -/
structure Library (ω : Type) where
  prepare : Str → Option ProxyConfig → Except Raised (Session ω)
  resolveLocale : Option ω → Option ProxyConfig → Except Raised ω
  truthy : ω → Except Raised Bool

/-- A half of the pair: text of ours, or an object of the library's. -/
inductive Half (ω : Type)
  | text (s : Str)
  | object (o : ω)

/-- A half that is pinned, unless it counts as false. -/
def pinned (value : Option Str) : Option (Half ω) :=
  (value.filter fun s => !s.isEmpty).map .text

namespace Library

variable (lib : Library ω)

/-- `value or None` -/
def orNone (o : ω) : Except Raised (Option (Half ω)) := do
  let truth ← lib.truthy o
  return if truth then some (.object o) else none

/-- The zone of the exit, and its address. -/
def prepared (proxy : Option ProxyConfig) (pinnedZone : Option Str) :
    Except Raised (Option (Half ω) × ω) := do
  let session ← lib.prepare (pinnedZone.getD []) proxy
  let timezone ← session.timezone
  let zone ← lib.orNone timezone
  let egressIp ← session.egressIp
  return (zone, egressIp)

/-- The language of the exit. -/
def located (egressIp : Option ω) (proxy : Option ProxyConfig) :
    Except Raised (Option (Half ω)) := do
  let language ← lib.resolveLocale egressIp proxy
  lib.orNone language

end Library

/-! ## One lookup -/

/-- `str(e)` -/
def Raised.str (e : Raised) : Except Failure Str :=
  match e.text with
  | some text => .ok text
  | none => .error .library

/-- What the log says of a zone that was not found: the exit, the reason, and the zone
that is used. -/
def warning (h : Host) (proxy : Option ProxyConfig) (e : Raised) :
    Except Failure (Str × Str × Str) := do
  let server := (proxy.map ProxyConfig.server).getD []
  let exit := if server.isEmpty then .of "the direct connection".toList
    else Redact.proxyUrl h.urls server
  let text ← e.str
  let reason ← proxyText h.urls text proxy
  return (exit, reason, h.containerTimezone)

/-- The first `try` of `_from_egress`. -/
def findZone (h : Host) (lib : Library ω) (proxy : Option ProxyConfig)
    (pinnedZone : Option Str) : Except Failure (Option (Half ω) × Option ω) :=
  match lib.prepared proxy pinnedZone with
  | .ok (zone, egressIp) => .ok (zone, some egressIp)
  | .error e =>
    if e.isException then (warning h proxy e).map fun _ => (pinned pinnedZone, none)
    else .error .library

/-- The second `try` of `_from_egress`. -/
def findLanguage (lib : Library ω) (proxy : Option ProxyConfig) (pinnedLanguage : Option Str)
    (egressIp : Option ω) : Except Failure (Option (Half ω)) :=
  match pinned pinnedLanguage with
  | some language => .ok (some language)
  | none =>
    match lib.located egressIp proxy with
    | .ok language => .ok language
    | .error e => if e.isException then .ok none else .error .library

/-- `_from_egress(proxy_config, pinned_zone, pinned_language)`, where `lib` is what
`_load_resolver` returns. -/
def fromEgress (h : Host) (lib : Option (Library ω)) (proxy : Option ProxyConfig)
    (pinnedZone pinnedLanguage : Option Str) :
    Except Failure (Option (Half ω) × Option (Half ω)) :=
  match lib with
  | none => .ok (pinned pinnedZone, pinned pinnedLanguage)
  | some lib => do
    let (zone, egressIp) ← findZone h lib proxy pinnedZone
    let language ← findLanguage lib proxy pinnedLanguage egressIp
    return (zone, language)

/-! ## The cache -/

/-- `_MAX_CACHED_EXITS` -/
def maxCachedExits : ℕ := 512

/-- `_MIN_CACHE_SECONDS` -/
def minCacheSeconds : ℤ := 300

/-- `_FAILURE_CACHE_SECONDS` -/
def failureCacheSeconds : ℤ := 60

/-- `_DEFAULT_LANGUAGE` -/
def defaultLanguage : Str := .of "en-US".toList

/-- `_cache_seconds()` -/
def cacheSeconds (h : Host) : ℤ :=
  max minCacheSeconds (sessionTtlMinutes h.unicode h.environ * 60)

/-- What is remembered of an exit. -/
structure Entry (ω : Type) where
  expires : ℚ
  zone : Half ω
  language : Half ω
  complete : Bool

abbrev Cache (ω : Type) := Dict Str (Entry ω)

/-- The first integer that no `float` is near: halfway beyond the greatest one. -/
def floatLimit : ℤ := 2 ^ 1024 - 2 ^ 970

/-- `time.monotonic() + ttl` -/
def addSeconds (now : ℚ) (ttl : ℤ) : Except Failure ℚ :=
  if floatLimit ≤ |ttl| then .error .overflowError else .ok (now + ttl)

/-- The first section of `_resolved`. -/
def cachedPair (cache : Cache ω) (key : Str) (now : ℚ) : Option (Half ω × Half ω) :=
  match cache.find? key with
  | some entry => if now < entry.expires then some (entry.zone, entry.language) else none
  | none => none

/-- The pair that an incomplete lookup does not displace. -/
def kept (cache : Cache ω) (key : Str) (now : ℚ) (complete : Bool) : Option (Half ω × Half ω) :=
  match cache.find? key with
  | some entry =>
    if !complete && entry.complete && decide (now < entry.expires) then
      some (entry.zone, entry.language)
    else none
  | none => none

/-- The second section of `_resolved`. The entry is gone before `ttl` is added. -/
def remember (seconds : ℤ) (cache : Cache ω) (key : Str) (now stamp : ℚ)
    (zone language : Half ω) (complete : Bool) : Except Failure (Half ω × Half ω) × Cache ω :=
  match kept cache key now complete with
  | some pair => (.ok pair, cache)
  | none =>
    match addSeconds stamp (if complete then seconds else failureCacheSeconds) with
    | .ok expires =>
      (.ok (zone, language), cache.use maxCachedExits (key, ⟨expires, zone, language, complete⟩))
    | .error e => (.error e, cache.erase key)

/-- The moments of a call of `_resolved`: the readings of the clock, and what other calls
do to the cache during the lookup. -/
structure Moments (ω : Type) where
  recalled : ℚ
  meanwhile : Cache ω → Cache ω
  guarded : ℚ
  stamped : ℚ

/-- `_resolved(proxy_config, pinned_zone, pinned_language)` -/
def resolved (h : Host) (lib : Option (Library ω)) (proxy : Option ProxyConfig)
    (pinnedZone pinnedLanguage : Option Str) (m : Moments ω) (cache : Cache ω) :
    Except Failure (Half ω × Half ω) × Cache ω :=
  match cacheKey h.sha256 proxy with
  | .error e => (.error e, cache)
  | .ok key =>
    match cachedPair cache key m.recalled with
    | some pair => (.ok pair, cache)
    | none =>
      match fromEgress h lib proxy pinnedZone pinnedLanguage with
      | .error e => (.error e, m.meanwhile cache)
      | .ok (zone, language) =>
        remember (cacheSeconds h) (m.meanwhile cache) key m.guarded m.stamped
          (zone.getD (.text h.containerTimezone)) (language.getD (.text defaultLanguage))
          (zone.isSome && language.isSome)

/-! ## The two halves -/

/-- `browser_timezone(proxy_config)` -/
def browserTimezone (h : Host) (lib : Option (Library ω)) (proxy : Option ProxyConfig)
    (m : Moments ω) (cache : Cache ω) : Except Failure (Half ω) × Cache ω :=
  match pinned h.pinnedZone with
  | some zone => (.ok zone, cache)
  | none =>
    let (pair, cache) := resolved h lib proxy none (browserLocale h.unicode h.environ) m cache
    (pair.map Prod.fst, cache)

/-- `browser_language(proxy_config)` -/
def browserLanguage (h : Host) (lib : Option (Library ω)) (proxy : Option ProxyConfig)
    (m : Moments ω) (cache : Cache ω) : Except Failure (Half ω) × Cache ω :=
  match pinned (browserLocale h.unicode h.environ) with
  | some language => (.ok language, cache)
  | none =>
    let (pair, cache) := resolved h lib proxy h.pinnedZone none m cache
    (pair.map Prod.snd, cache)

end Solverr.Geo
