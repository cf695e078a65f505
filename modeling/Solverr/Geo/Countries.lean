import Solverr.Geo.Zones

/-!
# The row a country gets

`_zone_table` fills two first-wins maps in one pass and merges them: `own`, by the first
country of each row, over `shared`, by every country. `pick` says the same of the rows
alone, without maps: the first row that lists the country first, or else the first that
lists it at all. `find?_addRows` is the pass, by induction on the rows with the maps so
far.
-/

namespace Solverr.Geo

open Solverr.Lib

/-- A row that the table uses: it lists a country. -/
structure Row where
  first : Str
  others : List Str
  zone : Str
  deriving DecidableEq

/-- The countries of a row, in order. -/
def Row.codes (r : Row) : List Str := r.first :: r.others

/-- A row goes into both maps. -/
def Picks.add (p : Picks) (r : Row) : Picks where
  own := p.own.setdefault r.first r.zone
  shared := r.codes.foldl (fun d code => d.setdefault code r.zone) p.shared

/-- A file of `_ZONE_TAB_PATHS` that is not there. -/
def ZoneTab.absent : ZoneTab := ⟨[], true⟩

/-- Some row names the zone: a line that is no comment and long enough, whether it lists a
country or not. -/
def Names (text zone : Str) : Prop :=
  ∃ line ∈ lines text, ∃ column, columns line = some (column, zone)

/-- The override of a country, if it has one. -/
def override (country : Str) : Option Str :=
  (Host.populationZones.find? fun z => z.1 = country).map Prod.snd

end Solverr.Geo
