import Solverr.Geo.Tags
import Solverr.Lib.Dict

/-!
# Time zones

What `geo.py` knows of zones without asking anybody: the country table and the zone names
of `zone1970.tab`, the zone that configuration pins, and the zone of the container. The
memos of the parsed tables are left out.
-/

namespace Solverr.Geo

open Solverr.Lib

/-- A file of `_ZONE_TAB_PATHS`: the text that is read of it, and whether an `OSError`
ends the reading, at once where there is no such file. -/
structure ZoneTab where
  text : Str
  failed : Bool

/-- What is read of the machine. -/
structure Host where
  environ : Environ
  /-- The files of `_ZONE_TAB_PATHS`, in order. -/
  zoneTabs : List ZoneTab
  /-- `zoneinfo.available_timezones()` -/
  availableTimezones : List Str
  unicode : Unicode
  urls : UrlTables
  /-- `hashlib.sha256(bytes).hexdigest()` -/
  sha256 : List ℕ → Str

/-! ## The table -/

/-- Universal newlines. -/
def newlines : Str → Str
  | [] => []
  | 13 :: 10 :: s => 10 :: newlines s
  | c :: s => (if c = 13 then 10 else c) :: newlines s

/-- The lines of a file, without their ends. -/
def lines (text : Str) : List Str :=
  let pieces := (newlines text).splitOn 10
  if pieces.getLast? = some [] then pieces.dropLast else pieces

/-- The first and the third column of a row, but for comments and shorter rows. -/
def columns (line : Str) : Option (Str × Str) :=
  if line.head? = some '#'.toNat then none
  else
    match line.splitOn 9 with
    | countries :: _ :: zone :: _ => some (countries, Str.strip zone)
    | _ => none

/-- The countries of a row. -/
def countries (u : Unicode) (column : Str) : List Str :=
  (column.splitOn ','.toNat).filterMap fun c =>
    if (Str.strip c).isEmpty then none else some (u.upper (Str.strip c))

/-- `own` and `shared` -/
structure Picks where
  own : Dict Str Str
  shared : Dict Str Str

/-- What a line adds to the picks. -/
def addRow (u : Unicode) (p : Picks) (line : Str) : Picks :=
  match columns line with
  | none => p
  | some (column, zone) =>
    match countries u column with
    | [] => p
    | first :: rest =>
      { own := p.own.setdefault first zone
        shared := (first :: rest).foldl (fun d code => d.setdefault code zone) p.shared }

/-- The picks of a file. -/
def picks (u : Unicode) (text : Str) : Picks :=
  (lines text).foldl (addRow u) ⟨.empty, .empty⟩

/-- `_zone_table()` -/
def zoneTable (u : Unicode) : List ZoneTab → Dict Str Str
  | [] => .empty
  | tab :: tabs =>
    if tab.failed then zoneTable u tabs
    else
      let p := picks u tab.text
      if p.own.entries.isEmpty && p.shared.entries.isEmpty then zoneTable u tabs
      else p.shared.merge p.own

/-- `_all_zone_names()`, after `names` of the files before. -/
def allZoneNames (names : List Str) : List ZoneTab → List Str
  | [] => names
  | tab :: tabs =>
    let names := names ++ (lines tab.text).filterMap fun line => (columns line).map Prod.snd
    if tab.failed || names.isEmpty then allZoneNames names tabs else names

namespace Host

variable (h : Host)

/-- `_known_zones()` -/
def knownZones : List Str := allZoneNames [] h.zoneTabs

/-- `_linked_zones()` -/
def linkedZones : List Str :=
  h.availableTimezones.filter fun name =>
    name ≠ .of "localtime".toList ∧ name ≠ .of "Factory".toList

/-- `is_known_zone(name)` -/
def isKnownZone (name : Str) : Bool :=
  h.knownZones.isEmpty || name ∈ h.knownZones || name ∈ h.linkedZones

/-! ## The zone of a country -/

/-- `_POPULATION_ZONES` -/
def populationZones : List (Str × Str) :=
  [(.of "AU".toList, .of "Australia/Sydney".toList),
    (.of "BR".toList, .of "America/Sao_Paulo".toList),
    (.of "CA".toList, .of "America/Toronto".toList),
    (.of "RU".toList, .of "Europe/Moscow".toList)]

/-- `_zone_for_region(region)` -/
def zoneForRegion (region : Str) : Option Str :=
  match (populationZones.find? fun z => z.1 = region).map Prod.snd with
  | some override =>
    if override ∈ h.knownZones then some override
    else (zoneTable h.unicode h.zoneTabs).find? region
  | none => (zoneTable h.unicode h.zoneTabs).find? region

/-- `_zone_from_geo()` -/
def zoneFromGeo : Option Str :=
  match browserGeo h.unicode h.environ with
  | some tag => (regionOf h.unicode tag).bind h.zoneForRegion
  | none => none

/-! ## The zones of configuration and of the container -/

/-- `"auto"` -/
def auto : Str := .of "auto".toList

/-- `config.browser_timezone()` -/
def browserTimezone : Option Str :=
  let raw := (h.environ.browserTimezone.getD []).strip
  if raw.isEmpty then none
  else if h.unicode.lower raw = auto then some raw
  else if h.isKnownZone raw then some raw
  else none

/-- `_pinned_zone()`. A zone that is empty counts as none to those who ask. -/
def pinnedZone : Option Str :=
  match h.browserTimezone with
  | some configured => if h.unicode.lower configured = auto then none else some configured
  | none => h.zoneFromGeo

/-- `"UTC"` -/
def utc : Str := .of "UTC".toList

/-- `container_timezone()` -/
def containerTimezone : Str :=
  let raw := (h.environ.tz.getD []).strip
  if raw.isEmpty then utc else if h.isKnownZone raw then raw else utc

/-- **What the zone check refuses becomes UTC.** -/
theorem containerTimezone_known :
    h.containerTimezone = utc ∨ h.isKnownZone h.containerTimezone = true := by
  unfold containerTimezone
  dsimp only
  split
  next => exact .inl rfl
  next =>
    split
    next hknown => exact .inr hknown
    next => exact .inl rfl

theorem browserTimezone_known {zone : Str} (hzone : h.browserTimezone = some zone) :
    h.unicode.lower zone = auto ∨ h.isKnownZone zone = true := by
  unfold browserTimezone at hzone
  dsimp only at hzone
  split at hzone
  next => cases hzone
  next =>
    split at hzone
    next hauto => exact .inl (Option.some.inj hzone ▸ hauto)
    next =>
      split at hzone
      next hknown => exact .inr (Option.some.inj hzone ▸ hknown)
      next => cases hzone

/-- **A zone is pinned by name or by country**, and a name has passed the zone check. -/
theorem pinnedZone_cases {zone : Str} (hzone : h.pinnedZone = some zone) :
    h.isKnownZone zone = true ∨ h.browserTimezone = none ∧ h.zoneFromGeo = some zone := by
  unfold pinnedZone at hzone
  split at hzone
  next configured hconfigured =>
    split at hzone
    next => cases hzone
    next hauto =>
      obtain rfl := Option.some.inj hzone
      exact .inl ((h.browserTimezone_known hconfigured).resolve_left hauto)
  next hunset => exact .inr ⟨hunset, hzone⟩

end Host

end Solverr.Geo
