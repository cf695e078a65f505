import Solverr.Lib.Text

/-!
# Where a passthrough path goes

`_Handler._handle` reads the upstream host out of the path the client sent, and
the path is any text at all. `route` is what it makes of it before it looks into
its cache: nothing (a 404), or the URL to solve and the host that names the
session.

The host is taken from the path only when it is on the allow list; otherwise the
whole path goes to the first host of the list. `route_target` is what follows for
the URL: an allowed host, then text that begins with a slash.
-/

namespace Solverr.Passthrough

open Solverr.Lib (Text CaseMap)
open Solverr.Lib.Text (strip partition before)

/-- What `start` populates from the configuration. -/
structure Config where
  allowedHosts : List Text
  cacheTtl : Int
  cacheMaxBytes : Int
  cacheRequires : List UInt8
  timeoutMs : Int
  caseMap : CaseMap

/-- One mirror, and pages kept for an hour. -/
def Config.mirror : Config where
  allowedHosts := ["a.example".toList]
  cacheTtl := 3600
  cacheMaxBytes := 0
  cacheRequires := []
  timeoutMs := 60000
  caseMap := .ascii

/-- `_DEFAULT_HOST` -/
def Config.defaultHost (cfg : Config) : Option Text := cfg.allowedHosts.head?

/-! ## Static assets -/

/-- The extensions `_SKIP_EXT` lists. -/
def skipExt : List Text :=
  ["css", "js", "mjs", "map", "png", "jpeg", "jpg", "gif", "svg", "webp", "ico", "woff", "woff2",
    "ttf", "eot", "mp4", "webm"].map String.toList

/-- `re.IGNORECASE` for a character of the pattern: besides its own two cases,
`i` stands for `İ` and `ı` and `s` for `ſ`. -/
def sameLetter (pattern c : Char) : Bool :=
  c.toLower == pattern || (pattern == 'i' && (c == 'İ' || c == 'ı')) ||
    (pattern == 's' && c == 'ſ')

/-- The text ends in a dot and one of the extensions. -/
def endsInExt (s : Text) : Bool :=
  skipExt.any fun ext =>
    let n := ext.length + 1
    decide (n ≤ s.length) &&
      ((('.' :: ext).zip (s.drop (s.length - n))).all fun p => sameLetter p.1 p.2)

/-- `_SKIP_EXT.search`: `$` also matches before a newline that ends the text. -/
def skips (s : Text) : Bool :=
  endsInExt s || (s.getLast? == some '\n' && endsInExt s.dropLast)

/-! ## The upstream host -/

/-- `raw_path[1:] if raw_path.startswith("/") else raw_path` -/
def unrooted (rawPath : Text) : Text :=
  match rawPath with
  | '/' :: rest => rest
  | _ => rawPath

/-- The first segment as it stands, and the rest of the path with the query. -/
def firstSegment (body : Text) : Text × Text :=
  if '/' ∈ body then ((partition '/' body).1, '/' :: (partition '/' body).2.2)
  else
    let (host, sep, query) := partition '?' body
    (host, '/' :: if sep then '?' :: query else [])

/-- `_split_host`; `none` is `(None, None)`. -/
def splitHost (cm : CaseMap) (rawPath : Text) : Option (Text × Text) :=
  let body := unrooted rawPath
  if body = [] ∨ body.head? = some '?' ∨ body.head? = some '#' then none
  else
    let (segment, remainder) := firstSegment body
    let host := cm.lower (strip segment)
    if host = [] ∨ '?' ∈ host ∨ '#' ∈ host then none else some (host, remainder)

/-- `raw if raw.startswith("/") else "/" + raw` -/
def rooted (raw : Text) : Text :=
  match raw with
  | '/' :: rest => '/' :: rest
  | _ => '/' :: raw

def https : Text := "https://".toList

/-- `_SESSION_PREFIX` -/
def sessionPrefix : Text := "passthrough:".toList

/-- The target and the host of a path, unless it is answered 404. -/
def route (cfg : Config) (raw : Text) : Option (Text × Text) :=
  if skips (before '#' (before '?' raw)) then none
  else
    match splitHost cfg.caseMap raw with
    | none => none
    | some (host, remainder) =>
      if host ∈ cfg.allowedHosts then some (https ++ host ++ remainder, host)
      else
        match cfg.defaultHost with
        | none => none
        | some host => some (https ++ host ++ rooted raw, host)

/-- The request `_solve` hands to the controller. -/
structure SolveRequest where
  cmd : String
  url : Text
  maxTimeout : Int
  session : Text
  deriving DecidableEq

/-- `_solve`, up to the controller. -/
def solveRequest (cfg : Config) (target host : Text) : SolveRequest where
  cmd := "request.get"
  url := target
  maxTimeout := cfg.timeoutMs
  session := sessionPrefix ++ host

/-! ## What follows for the target -/

theorem firstSegment_remainder (body : Text) : ∃ r, (firstSegment body).2 = '/' :: r := by
  unfold firstSegment
  split <;> exact ⟨_, rfl⟩

/-- What the split leaves of the path begins with a slash. -/
theorem splitHost_remainder {cm : CaseMap} {raw host remainder : Text}
    (h : splitHost cm raw = some (host, remainder)) : ∃ r, remainder = '/' :: r := by
  simp only [splitHost] at h
  split at h
  next => cases h
  next =>
    split at h
    next => cases h
    next =>
      obtain ⟨-, rfl⟩ := Prod.mk.inj (Option.some.inj h)
      exact firstSegment_remainder _

theorem rooted_eq (raw : Text) : ∃ r, rooted raw = '/' :: r := by
  unfold rooted
  split <;> exact ⟨_, rfl⟩

/-- **A target is an allowed host and a path**, whatever the client sent. -/
theorem route_target {cfg : Config} {raw target host : Text}
    (h : route cfg raw = some (target, host)) :
    host ∈ cfg.allowedHosts ∧ ∃ r, target = https ++ host ++ '/' :: r := by
  unfold route at h
  split at h
  next => cases h
  next =>
    split at h
    next => cases h
    next found remainder hsplit =>
      split at h
      next hallowed =>
        obtain ⟨rfl, rfl⟩ := Prod.mk.inj (Option.some.inj h)
        obtain ⟨r, rfl⟩ := splitHost_remainder hsplit
        exact ⟨hallowed, r, rfl⟩
      next =>
        split at h
        next => cases h
        next mirror hmirror =>
          obtain ⟨rfl, rfl⟩ := Prod.mk.inj (Option.some.inj h)
          obtain ⟨r, hr⟩ := rooted_eq raw
          rw [hr]
          exact ⟨List.mem_of_head? hmirror, r, rfl⟩

/-! ## Authorities -/

/-- What ends the authority of a URL; browsers read a backslash as a slash. -/
def endsAuthority (c : Char) : Bool := c == '/' || c == '?' || c == '#' || c == '\\'

/-- The authority of an `https` URL. -/
def authority (url : Text) : Text := (url.drop https.length).takeWhile fun c => !endsAuthority c

/-- A bare host name, as the allow list has them. -/
structure Bare (cm : CaseMap) (host : Text) : Prop where
  lower : cm.lower host = host
  plain : ∀ c ∈ host, c ∉ ['/', '?', '#', '@', ':', '\\'] ∧ Solverr.Lib.Text.isSpace c = false

/-- `Bare`, decided. -/
def isBare (cm : CaseMap) (host : Text) : Bool :=
  decide (cm.lower host = host) &&
    host.all fun c => c ∉ ['/', '?', '#', '@', ':', '\\'] && !Solverr.Lib.Text.isSpace c

theorem bare_of_test {cm : CaseMap} {host : Text} (h : isBare cm host = true) : Bare cm host := by
  obtain ⟨hlower, hplain⟩ := Bool.and_eq_true_iff.mp h
  refine ⟨of_decide_eq_true hlower, fun c hc => ?_⟩
  simpa using List.all_eq_true.mp hplain c hc

/-- A bare host followed by a path is the whole authority. -/
theorem authority_bare {cm : CaseMap} {host : Text} (h : Bare cm host) (r : Text) :
    authority (https ++ host ++ '/' :: r) = host := by
  have hstop : ∀ c ∈ host, (!endsAuthority c) = true := by
    intro c hc
    have hplain := (h.plain c hc).1
    simp only [List.mem_cons, List.not_mem_nil, not_or, or_false] at hplain
    simp [endsAuthority, hplain]
  unfold authority
  rw [List.append_assoc, List.drop_left, List.takeWhile_append_of_pos hstop]
  simp [endsAuthority]

end Solverr.Passthrough
