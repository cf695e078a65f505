import Solverr.Geo.Exit

/-!
# When the timezone and the language are returned

A half that configuration pins is returned without a lookup. Otherwise the credentials of
the proxy have to make a key, and where nothing fresh is remembered under it, what the
library raises has to be caught and what is found has to be remembered.
`resolution_returns_iff` puts the conditions together, for every host, library and cache,
and whatever other calls do meanwhile.
-/

namespace Solverr.Geo

open Solverr.Lib

variable {ω : Type}

/-! ## One lookup -/

namespace Library

variable (lib : Library ω) (proxy : Option ProxyConfig) (pinnedZone pinnedLanguage : Option Str)

/-- The zone that a lookup comes to. -/
def zone : Option (Half ω) :=
  match lib.prepared proxy pinnedZone with
  | .ok (zone, _) => zone
  | .error _ => pinned pinnedZone

/-- The address that the language is looked up for. -/
def egressIp : Option ω :=
  match lib.prepared proxy pinnedZone with
  | .ok (_, egressIp) => some egressIp
  | .error _ => none

/-- The language that a lookup comes to. -/
def language : Option (Half ω) :=
  match pinned pinnedLanguage with
  | some language => some language
  | none =>
    match lib.located (lib.egressIp proxy pinnedZone) proxy with
    | .ok language => language
    | .error _ => none

/-- What the library raises in a lookup is caught: it is an `Exception`, and the one that
goes into the log has a text. -/
structure Caught : Prop where
  zone : ∀ e, lib.prepared proxy pinnedZone = .error e → e.isException = true ∧ e.text.isSome = true
  language : pinned (ω := ω) pinnedLanguage = none →
    ∀ e, lib.located (lib.egressIp proxy pinnedZone) proxy = .error e → e.isException = true

/-- Both halves are found. -/
def Complete : Prop :=
  (lib.zone proxy pinnedZone).isSome = true ∧
    (lib.language proxy pinnedZone pinnedLanguage).isSome = true

end Library

section Lookup

variable {h : Host} {lib : Library ω} {proxy : Option ProxyConfig}
  {pinnedZone pinnedLanguage : Option Str}

theorem warning_returns_iff (hkeyed : ∀ cfg ∈ proxy, cfg.Keyed) (e : Raised) :
    Returns (warning h proxy e) ↔ e.text.isSome = true := by
  unfold warning Raised.str
  cases e.text with
  | none => exact iff_of_false (not_returns_error _) Bool.false_ne_true
  | some text =>
    obtain ⟨reason, hreason⟩ := proxyText_returns h.urls text hkeyed
    refine iff_of_true ?_ rfl
    simp only [returns_bind_iff, returns_pure, and_true]
    exact ⟨text, rfl, reason, hreason⟩

/-- What the first `try` comes to. -/
theorem findZone_ok_iff (hkeyed : ∀ cfg ∈ proxy, cfg.Keyed)
    {found : Option (Half ω) × Option ω} :
    findZone h lib proxy pinnedZone = .ok found ↔
      (∀ e, lib.prepared proxy pinnedZone = .error e →
        e.isException = true ∧ e.text.isSome = true) ∧
      (lib.zone proxy pinnedZone, lib.egressIp proxy pinnedZone) = found := by
  unfold findZone Library.zone Library.egressIp
  cases lib.prepared proxy pinnedZone with
  | ok answer =>
    rw [and_iff_right fun e he => nomatch he]
    exact ⟨Except.ok.inj, congrArg _⟩
  | error e =>
    have hall : (∀ e', (.error e : Except Raised (Option (Half ω) × ω)) = .error e' →
        e'.isException = true ∧ e'.text.isSome = true) ↔
          e.isException = true ∧ e.text.isSome = true :=
      ⟨fun h => h e rfl, fun h _ he => Except.error.inj he ▸ h⟩
    rw [hall]
    dsimp only
    split
    next hexception =>
      rw [map_const_eq_ok_iff, warning_returns_iff hkeyed, and_iff_right hexception]
    next hexception => exact iff_of_false (fun h => nomatch h) fun h => hexception h.1.1

/-- What the second `try` comes to. -/
theorem findLanguage_ok_iff {language : Option (Half ω)} :
    findLanguage lib proxy pinnedLanguage (lib.egressIp proxy pinnedZone) = .ok language ↔
      (pinned (ω := ω) pinnedLanguage = none →
        ∀ e, lib.located (lib.egressIp proxy pinnedZone) proxy = .error e → e.isException = true) ∧
      lib.language proxy pinnedZone pinnedLanguage = language := by
  unfold findLanguage Library.language
  cases pinned (ω := ω) pinnedLanguage with
  | some answer =>
    rw [and_iff_right fun h => nomatch h]
    exact ⟨Except.ok.inj, congrArg _⟩
  | none =>
    rw [forall_prop_of_true rfl]
    cases lib.located (lib.egressIp proxy pinnedZone) proxy with
    | ok answer =>
      rw [and_iff_right fun e he => nomatch he]
      exact ⟨Except.ok.inj, congrArg _⟩
    | error e =>
      dsimp only
      split
      next hexception =>
        rw [and_iff_right fun _ he => Except.error.inj he ▸ hexception]
        exact ⟨Except.ok.inj, congrArg _⟩
      next hexception => exact iff_of_false (fun h => nomatch h) fun h => hexception (h.1 e rfl)

/-- **A lookup returns** exactly when what the library raises in it is caught, and what it
returns is what the library found. -/
theorem fromEgress_ok_iff (hkeyed : ∀ cfg ∈ proxy, cfg.Keyed)
    {found : Option (Half ω) × Option (Half ω)} :
    fromEgress h (some lib) proxy pinnedZone pinnedLanguage = .ok found ↔
      lib.Caught proxy pinnedZone pinnedLanguage ∧
        (lib.zone proxy pinnedZone, lib.language proxy pinnedZone pinnedLanguage) = found := by
  simp only [fromEgress, bind_eq_ok_iff, pure, Except.pure, Except.ok.injEq]
  constructor
  · rintro ⟨_, hzone, _, hlanguage, rfl⟩
    obtain ⟨hcaught, rfl⟩ := (findZone_ok_iff hkeyed).mp hzone
    obtain ⟨hcaught', rfl⟩ := findLanguage_ok_iff.mp hlanguage
    exact ⟨⟨hcaught, hcaught'⟩, rfl⟩
  · rintro ⟨⟨hcaught, hcaught'⟩, rfl⟩
    exact ⟨_, (findZone_ok_iff hkeyed).mpr ⟨hcaught, rfl⟩, _,
      findLanguage_ok_iff.mpr ⟨hcaught', rfl⟩, rfl⟩

end Lookup

/-! ## A lookup that is remembered -/

theorem addSeconds_returns_iff (now : ℚ) {ttl : ℤ} (hpos : 0 ≤ ttl) :
    Returns (addSeconds now ttl) ↔ ttl < floatLimit := by
  unfold addSeconds
  rw [abs_of_nonneg hpos]
  split
  next hle => exact iff_of_false (not_returns_error _) (not_lt.mpr hle)
  next hlt => exact iff_of_true (returns_ok _) (not_le.mp hlt)

theorem cacheSeconds_nonneg (h : Host) : 0 ≤ cacheSeconds h :=
  le_trans (by decide) (le_max_left minCacheSeconds _)

/-- Every integer that a `float` holds exactly is far below the limit. -/
theorem lt_floatLimit {ttl : ℤ} (h : ttl ≤ 2 ^ 53) : ttl < floatLimit := by
  have hone : (1 : ℤ) ≤ 2 ^ 970 := one_le_pow₀ (by decide)
  have hsplit : (2 : ℤ) ^ 1024 = 2 ^ 970 * 2 ^ 54 := by rw [← pow_add]
  unfold floatLimit
  rw [hsplit]
  omega

/-- A complete pair displaces whatever is remembered. -/
theorem kept_complete (cache : Cache ω) (key : Str) (now : ℚ) : kept cache key now true = none := by
  unfold kept
  cases cache.find? key <;> rfl

theorem remember_fst {seconds : ℤ} {cache : Cache ω} {key : Str} {now : ℚ} {complete : Bool}
    (hkept : kept cache key now complete = none) (stamp : ℚ) (zone language : Half ω) :
    (remember seconds cache key now stamp zone language complete).1 =
      (addSeconds stamp (if complete then seconds else failureCacheSeconds)).map fun _ =>
        (zone, language) := by
  unfold remember
  rw [hkept]
  dsimp only
  cases addSeconds stamp (if complete then seconds else failureCacheSeconds) <;> rfl

/-- **A pair is remembered** unless it is complete and its time to live is beyond every
`float`. -/
theorem remember_returns_iff (h : Host) (cache : Cache ω) (key : Str) (now stamp : ℚ)
    (zone language : Half ω) (complete : Bool) :
    Returns (remember (cacheSeconds h) cache key now stamp zone language complete).1 ↔
      (complete = true → cacheSeconds h < floatLimit) := by
  cases complete with
  | true =>
    rw [remember_fst (kept_complete ..), returns_map_iff, if_pos rfl,
      addSeconds_returns_iff _ (cacheSeconds_nonneg h)]
    exact ⟨fun hlt _ => hlt, fun hlt => hlt rfl⟩
  | false =>
    refine iff_of_true ?_ (fun h => nomatch h)
    cases hkept : kept cache key now false with
    | some pair =>
      unfold remember
      rw [hkept]
      exact returns_ok _
    | none =>
      rw [remember_fst hkept, returns_map_iff, if_neg Bool.false_ne_true]
      exact (addSeconds_returns_iff _ (by decide)).mpr (lt_floatLimit (by decide))

/-- A pair is remembered of the exit, and is fresh. -/
def Fresh (h : Host) (proxy : Option ProxyConfig) (m : Moments ω) (cache : Cache ω) : Prop :=
  ∃ key entry, cacheKey h.sha256 proxy = .ok key ∧ cache.find? key = some entry ∧
    m.recalled < entry.expires

/-- A lookup returns a pair that can be remembered. -/
structure Resolves (h : Host) (lib : Option (Library ω)) (proxy : Option ProxyConfig)
    (pinnedZone pinnedLanguage : Option Str) : Prop where
  caught : ∀ l ∈ lib, l.Caught proxy pinnedZone pinnedLanguage
  fits : ∀ l ∈ lib, l.Complete proxy pinnedZone pinnedLanguage → cacheSeconds h < floatLimit

theorem fresh_iff {h : Host} {proxy : Option ProxyConfig} {key : Str}
    (hkey : cacheKey h.sha256 proxy = .ok key) (m : Moments ω) (cache : Cache ω) :
    Fresh h proxy m cache ↔ ∃ pair, cachedPair cache key m.recalled = some pair := by
  unfold Fresh cachedPair
  rw [hkey]
  constructor
  · rintro ⟨_, entry, hkey', hfind, hfresh⟩
    cases hkey'
    rw [hfind]
    exact ⟨_, if_pos hfresh⟩
  · rintro ⟨pair, hcached⟩
    cases hfind : cache.find? key with
    | none =>
      rw [hfind] at hcached
      cases hcached
    | some entry =>
      rw [hfind] at hcached
      dsimp only at hcached
      split at hcached
      next hfresh => exact ⟨key, entry, rfl, hfind, hfresh⟩
      next => cases hcached

theorem looked_up_returns_iff {h : Host} {lib : Option (Library ω)} {proxy : Option ProxyConfig}
    {pinnedZone pinnedLanguage : Option Str} {m : Moments ω} {cache : Cache ω} {key : Str}
    (hkeyed : ∀ cfg ∈ proxy, cfg.Keyed)
    (hhalf : pinned (ω := ω) pinnedZone = none ∨ pinned (ω := ω) pinnedLanguage = none)
    (hkey : cacheKey h.sha256 proxy = .ok key)
    (hcached : cachedPair cache key m.recalled = none) :
    Returns (resolved h lib proxy pinnedZone pinnedLanguage m cache).1 ↔
      Resolves h lib proxy pinnedZone pinnedLanguage := by
  unfold resolved
  rw [hkey]
  dsimp only
  rw [hcached]
  dsimp only
  cases lib with
  | none =>
    refine iff_of_true ?_ ⟨fun l hl => (nomatch hl), fun l hl => (nomatch hl)⟩
    refine (remember_returns_iff ..).mpr fun hcomplete => ?_
    rw [Bool.and_eq_true] at hcomplete
    rcases hhalf with hzone | hlanguage
    · rw [hzone] at hcomplete
      cases hcomplete.1
    · rw [hlanguage] at hcomplete
      cases hcomplete.2
  | some lib =>
    cases hfound : fromEgress h (some lib) proxy pinnedZone pinnedLanguage with
    | error e =>
      refine iff_of_false (not_returns_error _) fun hresolves => ?_
      have hok := (fromEgress_ok_iff (h := h) hkeyed).mpr ⟨hresolves.caught lib rfl, rfl⟩
      rw [hfound] at hok
      cases hok
    | ok found =>
      obtain ⟨hcaught, rfl⟩ := (fromEgress_ok_iff hkeyed).mp hfound
      refine (remember_returns_iff ..).trans ?_
      rw [Bool.and_eq_true]
      constructor
      · refine fun hfits => ⟨fun l hl => ?_, fun l hl => ?_⟩
        · exact Option.some.inj hl ▸ hcaught
        · exact Option.some.inj hl ▸ hfits
      · exact fun hresolves => hresolves.fits lib rfl

/-- **A call of `_resolved` returns** exactly when the credentials make a key, and
something fresh is remembered under it or the lookup is all right. -/
theorem resolved_returns_iff {h : Host} {lib : Option (Library ω)} {proxy : Option ProxyConfig}
    {pinnedZone pinnedLanguage : Option Str} {m : Moments ω} {cache : Cache ω}
    (hhalf : pinned (ω := ω) pinnedZone = none ∨ pinned (ω := ω) pinnedLanguage = none) :
    Returns (resolved h lib proxy pinnedZone pinnedLanguage m cache).1 ↔
      (∀ cfg ∈ proxy, cfg.Keyed) ∧
        (Fresh h proxy m cache ∨ Resolves h lib proxy pinnedZone pinnedLanguage) := by
  cases hkey : cacheKey h.sha256 proxy with
  | error e =>
    refine iff_of_false ?_ fun hkeyed => ?_
    · unfold resolved
      rw [hkey]
      exact not_returns_error _
    · obtain ⟨key, hok⟩ := (cacheKey_returns_iff h.sha256 proxy).mpr hkeyed.1
      rw [hkey] at hok
      cases hok
  | ok key =>
    have hkeyed := (cacheKey_returns_iff h.sha256 proxy).mp ⟨key, hkey⟩
    rw [and_iff_right hkeyed, fresh_iff hkey]
    cases hcached : cachedPair cache key m.recalled with
    | some pair =>
      refine iff_of_true ?_ (.inl ⟨pair, rfl⟩)
      unfold resolved
      rw [hkey]
      dsimp only
      rw [hcached]
      exact returns_ok _
    | none =>
      rw [looked_up_returns_iff hkeyed hhalf hkey hcached]
      exact (or_iff_right fun ⟨_, hpair⟩ => nomatch hpair).symm

/-! ## The two halves -/

/-- **The timezone and the language are returned** exactly when configuration pins them, or
the credentials make a key and the exit is remembered or can be resolved. -/
theorem resolution_returns_iff (h : Host) (lib : Option (Library ω)) {value : Json}
    {proxy : Option ProxyConfig} (hproxy : proxyToConfig value = .ok proxy) (m : Moments ω)
    (cache : Cache ω) :
    (Returns (browserTimezone h lib proxy m cache).1 ↔
      (pinned (ω := ω) h.pinnedZone).isSome = true ∨ Keyable value ∧
        (Fresh h proxy m cache ∨
          Resolves h lib proxy none (browserLocale h.unicode h.environ))) ∧
    (Returns (browserLanguage h lib proxy m cache).1 ↔
      (pinned (ω := ω) (browserLocale h.unicode h.environ)).isSome = true ∨ Keyable value ∧
        (Fresh h proxy m cache ∨ Resolves h lib proxy h.pinnedZone none)) := by
  rw [← keyed_iff hproxy]
  constructor
  · unfold browserTimezone
    cases hpinned : pinned (ω := ω) h.pinnedZone with
    | some zone => exact iff_of_true (returns_ok _) (.inl rfl)
    | none =>
      rw [or_iff_right (by simp)]
      exact returns_map_iff.trans (resolved_returns_iff (.inl rfl))
  · unfold browserLanguage
    cases hpinned : pinned (ω := ω) (browserLocale h.unicode h.environ) with
    | some language => exact iff_of_true (returns_ok _) (.inl rfl)
    | none =>
      rw [or_iff_right (by simp)]
      exact returns_map_iff.trans (resolved_returns_iff (.inr rfl))

/-- A machine where nothing is configured. The digest is that of one key. -/
def plainHost : Host where
  environ := .unset
  zoneTabs := [⟨[], true⟩, ⟨[], true⟩]
  availableTimezones := []
  unicode := .ascii
  urls := .ascii
  sha256 _ := .of "65e243ceda2b9e0f451d7682c1aedaba9e057f6d49be12f5bb1aa324c805af92".toList

/-- A request's proxy with the given user name. -/
def userProxy (username : Json) : Json :=
  .obj [(.of "url".toList, .str (.of "http://proxy:8080".toList)),
    (.of "username".toList, username), (.of "password".toList, .str (.of "secret".toList))]

/-- What is made of it. -/
def userConfig (username : Json) : ProxyConfig :=
  ⟨.of "http://proxy:8080".toList, some username, some (.str (.of "secret".toList))⟩

/-- A library that knows where every exit is. -/
def steadyLibrary : Library Str where
  prepare _ _ := .ok ⟨.ok (.of "Europe/Berlin".toList), .ok (.of "203.0.113.7".toList)⟩
  resolveLocale _ _ := .ok (.of "de-DE".toList)
  truthy s := .ok !s.isEmpty

/-- A call that nothing else gets into. -/
def alone : Moments ω := ⟨0, id, 0, 0⟩

theorem steady_resolves (proxy : Option ProxyConfig) :
    Resolves plainHost (some steadyLibrary) proxy none none where
  caught := by
    rintro _ ⟨⟩
    exact ⟨fun e he => (nomatch he), fun _ e he => (nomatch he)⟩
  fits := fun _ _ _ => lt_floatLimit (by decide)

theorem resolution_returns_user :
    Returns (browserTimezone plainHost (some steadyLibrary)
      (some (userConfig (.str (.of "user".toList)))) alone .empty).1 ∧
    Returns (browserLanguage plainHost (some steadyLibrary)
      (some (userConfig (.str (.of "user".toList)))) alone .empty).1 := by
  have hproxy : proxyToConfig (userProxy (.str (.of "user".toList))) =
      .ok (some (userConfig (.str (.of "user".toList)))) := rfl
  have hkeyable : Keyable (userProxy (.str (.of "user".toList))) :=
    (keyed_iff hproxy).mp fun cfg hcfg => by
      cases hcfg
      exact ⟨by decide, (isText_str _).mpr (by decide), (isText_str _).mpr (by decide)⟩
  have hreturns := resolution_returns_iff plainHost (some steadyLibrary) hproxy alone .empty
  exact ⟨hreturns.1.mpr (.inr ⟨hkeyable, .inr (steady_resolves _)⟩),
    hreturns.2.mpr (.inr ⟨hkeyable, .inr (steady_resolves _)⟩)⟩

/-- A user name that is a number is accepted, and no half is returned whatever the library
does. -/
theorem numeric_username_raises :
    proxyToConfig (userProxy (.int 42)) = .ok (some (userConfig (.int 42))) ∧
      ∀ (lib : Option (Library Str)) (m : Moments Str) (cache : Cache Str),
        (browserTimezone plainHost lib (some (userConfig (.int 42))) m cache).1 =
          .error .typeError ∧
        (browserLanguage plainHost lib (some (userConfig (.int 42))) m cache).1 =
          .error .typeError :=
  ⟨rfl, fun _ _ _ => ⟨rfl, rfl⟩⟩

end Solverr.Geo
