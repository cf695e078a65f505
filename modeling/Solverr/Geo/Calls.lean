import Solverr.Geo.Resolving
import Solverr.Lib.Run

/-!
# Calls of `_resolved` side by side

Any number of threads call `_resolved`, alone or from `browser_identity`, which calls it for
the timezone and then for the language. A call is two lock sections with the lookup between
them, and nothing is said of the order in which the threads run them. A lookup finds what it
likes, or raises, and the clock only does not go back.

`outcomes` and `stores` are the history: what every lookup came to, in the order in which
they ended, and what was put into the cache, the newest first. No step reads them but to say
which lookup a pair is from.
-/

namespace Solverr.Geo

open Solverr.Lib

variable {ω : Type}

/-! ## The machine -/

/-- What a lookup comes to, with the fallback where it found nothing. -/
structure Outcome (ω : Type) where
  zone : Half ω
  language : Half ω
  complete : Bool

def Outcome.of (h : Host) (zone language : Option (Half ω)) : Outcome ω where
  zone := zone.getD (.text h.containerTimezone)
  language := language.getD (.text defaultLanguage)
  complete := zone.isSome && language.isSome

/-- What `_resolved` returns, and the lookup that it is from. -/
structure Answer (ω : Type) where
  lookup : ℕ
  pair : Half ω × Half ω

/-- What a call of `_resolved` is for: itself, or a half of `browser_identity`. -/
inductive Task (ω : Type)
  | pair
  | timezone
  | language (first : Answer ω)

inductive Pc (ω : Type)
  | idle
  | consult (key : Str) (task : Task ω)
  | looking (key : Str) (task : Task ω)
  | deciding (key : Str) (task : Task ω) (lookup : ℕ) (found : Outcome ω)
  | returned (key : Str) (task : Task ω) (answer : Answer ω)
  | raised
  | identity (first second : Answer ω)

/-- A thread that can begin another call. -/
def Pc.ended : Pc ω → Bool
  | .idle => true
  | .returned _ .pair _ => true
  | .raised => true
  | .identity _ _ => true
  | _ => false

/-- An entry of the cache, and when and by which lookup it was put there. -/
structure Stored (ω : Type) where
  key : Str
  lookup : ℕ
  stamp : ℚ
  entry : Entry ω

abbrev Tid := ℕ

structure World (ω : Type) where
  clock : ℚ
  cache : Cache ω
  pcs : Tid → Pc ω
  outcomes : List (Outcome ω)
  stores : List (Stored ω)

inductive Move (ω : Type)
  | start (proxy : Option ProxyConfig) (both : Bool)
  | consult
  | find (zone language : Option (Half ω))
  | escape
  | conclude (stamp : ℚ)
  | resume

inductive Act (ω : Type)
  | tick (now : ℚ)
  | run (t : Tid) (move : Move ω)

/-- `_cache_seconds() if complete else _FAILURE_CACHE_SECONDS` -/
def ttl (h : Host) (complete : Bool) : ℤ :=
  if complete then cacheSeconds h else failureCacheSeconds

/-- What is remembered of a lookup. -/
def Outcome.entry (h : Host) (o : Outcome ω) (stamp : ℚ) : Entry ω :=
  ⟨stamp + ttl h o.complete, o.zone, o.language, o.complete⟩

namespace World

/-- A process that has resolved nothing yet. -/
def init (now : ℚ) : World ω := ⟨now, .empty, fun _ => .idle, [], []⟩

def goto (w : World ω) (t : Tid) (pc : Pc ω) : World ω :=
  { w with pcs := Function.update w.pcs t pc }

/-- The last entry that was put under the key. -/
def latest (w : World ω) (key : Str) : Option (Stored ω) := w.stores.find? fun s => s.key = key

/-- The lookup that the entry under the key is from. -/
def source (w : World ω) (key : Str) : ℕ := ((w.latest key).map Stored.lookup).getD 0

/-- A call begins with the key of its exit. -/
def start (h : Host) (w : World ω) (t : Tid) (proxy : Option ProxyConfig) (both : Bool) :
    World ω :=
  match cacheKey h.sha256 proxy with
  | .ok key => w.goto t (.consult key (if both then .timezone else .pair))
  | .error _ => w.goto t .raised

/-- The first section. -/
def consult (w : World ω) (t : Tid) (key : Str) (task : Task ω) : World ω :=
  match cachedPair w.cache key w.clock with
  | some pair => w.goto t (.returned key task ⟨w.source key, pair⟩)
  | none => w.goto t (.looking key task)

/-- A lookup ends. -/
def find (h : Host) (w : World ω) (t : Tid) (key : Str) (task : Task ω)
    (zone language : Option (Half ω)) : World ω :=
  { w with outcomes := w.outcomes ++ [Outcome.of h zone language] }.goto t
    (.deciding key task w.outcomes.length (.of h zone language))

/-- The second section. -/
def conclude (h : Host) (w : World ω) (t : Tid) (key : Str) (task : Task ω) (lookup : ℕ)
    (found : Outcome ω) (stamp : ℚ) : World ω :=
  match kept w.cache key w.clock found.complete,
    remember (cacheSeconds h) w.cache key w.clock stamp found.zone found.language
      found.complete with
  | some pair, (_, cache) =>
    { w with clock := stamp, cache := cache }.goto t (.returned key task ⟨w.source key, pair⟩)
  | none, (.ok pair, cache) =>
    { w with
      clock := stamp, cache := cache
      stores := ⟨key, lookup, stamp, found.entry h stamp⟩ :: w.stores }.goto t
        (.returned key task ⟨lookup, pair⟩)
  | none, (.error _, cache) => { w with clock := stamp, cache := cache }.goto t .raised

end World

def step (h : Host) (w : World ω) : Act ω → Option (World ω)
  | .tick now => if w.clock ≤ now then some { w with clock := now } else none
  | .run t move =>
    match w.pcs t, move with
    | .consult key task, .consult => some (w.consult t key task)
    | .looking key task, .find zone language => some (w.find h t key task zone language)
    | .looking _ _, .escape => some (w.goto t .raised)
    | .deciding key task lookup found, .conclude stamp =>
      if w.clock ≤ stamp then some (w.conclude h t key task lookup found stamp) else none
    | .returned key .timezone first, .resume => some (w.goto t (.consult key (.language first)))
    | .returned _ (.language first) second, .resume => some (w.goto t (.identity first second))
    | pc, .start proxy both => if pc.ended then some (w.start h t proxy both) else none
    | _, _ => none

/-! ## The second section -/

section Conclude

variable {cache : Cache ω} {key : Str} {now stamp : ℚ} {complete : Bool} {h : Host}

/-- What an incomplete lookup does not displace: a complete pair that is fresh. -/
theorem kept_eq_some_iff {pair : Half ω × Half ω} :
    kept cache key now complete = some pair ↔
      ∃ entry, cache.find? key = some entry ∧ complete = false ∧ entry.complete = true ∧
        now < entry.expires ∧ (entry.zone, entry.language) = pair := by
  unfold kept
  cases cache.find? key with
  | none => exact iff_of_false (fun h => nomatch h) fun ⟨_, h, _⟩ => nomatch h
  | some entry =>
    dsimp only
    constructor
    · intro hkept
      split at hkept
      next hguard =>
        simp only [Bool.and_eq_true, Bool.not_eq_true', decide_eq_true_eq] at hguard
        exact ⟨entry, rfl, hguard.1.1, hguard.1.2, hguard.2, Option.some.inj hkept⟩
      next => cases hkept
    · rintro ⟨_, ⟨⟩, rfl, hentry, hfresh, rfl⟩
      rw [if_pos (by rw [hentry, decide_eq_true hfresh]; rfl)]

/-- Only a complete lookup displaces a complete pair that is fresh. -/
theorem complete_of_displaces {entry : Entry ω} (hdisplaces : kept cache key now complete = none)
    (hfind : cache.find? key = some entry) (hcomplete : entry.complete = true)
    (hfresh : now < entry.expires) : complete = true := by
  by_contra hincomplete
  rw [Bool.not_eq_true] at hincomplete
  have hkept := kept_eq_some_iff.mpr ⟨entry, hfind, hincomplete, hcomplete, hfresh, rfl⟩
  rw [hdisplaces] at hkept
  cases hkept

theorem ttl_nonneg (h : Host) (complete : Bool) : 0 ≤ ttl h complete := by
  unfold ttl
  split
  next => exact cacheSeconds_nonneg h
  next => decide

/-- A short time to live never overflows. -/
theorem ttl_overflows (hover : floatLimit ≤ ttl h complete) :
    complete = true ∧ floatLimit ≤ cacheSeconds h := by
  cases complete with
  | true => exact ⟨rfl, hover⟩
  | false =>
    have hfits : failureCacheSeconds < floatLimit := lt_floatLimit (by decide)
    exact absurd hfits (not_lt.mpr hover)

/-- A lookup that displaces what is remembered and fits is put in its place. -/
theorem remember_fits (hkept : kept cache key now complete = none)
    (hfits : ttl h complete < floatLimit) (stamp : ℚ) (zone language : Half ω) :
    remember (cacheSeconds h) cache key now stamp zone language complete =
      (.ok (zone, language),
        cache.use maxCachedExits (key, ⟨stamp + ttl h complete, zone, language, complete⟩)) := by
  have hadd : addSeconds stamp (ttl h complete) = .ok (stamp + ttl h complete) := by
    unfold addSeconds
    rw [abs_of_nonneg (ttl_nonneg h complete), if_neg (not_le.mpr hfits)]
  unfold remember
  rw [hkept]
  dsimp only
  rw [← ttl, hadd]

/-- One that does not fit leaves nothing in its place. -/
theorem remember_overflows (hkept : kept cache key now complete = none)
    (hover : floatLimit ≤ ttl h complete) (stamp : ℚ) (zone language : Half ω) :
    remember (cacheSeconds h) cache key now stamp zone language complete =
      (.error .overflowError, cache.erase key) := by
  have hadd : addSeconds stamp (ttl h complete) = .error .overflowError := by
    unfold addSeconds
    rw [abs_of_nonneg (ttl_nonneg h complete), if_pos hover]
  unfold remember
  rw [hkept]
  dsimp only
  rw [← ttl, hadd]

theorem remember_kept {pair : Half ω × Half ω} (hkept : kept cache key now complete = some pair)
    (seconds : ℤ) (stamp : ℚ) (zone language : Half ω) :
    remember seconds cache key now stamp zone language complete = (.ok pair, cache) := by
  unfold remember
  rw [hkept]

end Conclude

/-! ## The faithful call -/

section Faithful

variable {h : Host} {lib : Option (Library ω)} {proxy : Option ProxyConfig}
  {pinnedZone pinnedLanguage : Option Str} {m : Moments ω} {key : Str} {w : World ω} {t : Tid}
  {task : Task ω}

@[simp] theorem World.goto_self (w : World ω) (t : Tid) (pc : Pc ω) :
    (w.goto t pc).pcs t = pc := Function.update_self ..

theorem World.goto_other (w : World ω) {t t' : Tid} (pc : Pc ω) (ht : t' ≠ t) :
    (w.goto t pc).pcs t' = w.pcs t' := Function.update_of_ne ht ..

/-- What the first section returns is what `resolved` returns. -/
theorem resolved_of_consult (hkey : cacheKey h.sha256 proxy = .ok key)
    (hclock : w.clock = m.recalled) {answer : Answer ω}
    (hat : (w.consult t key task).pcs t = .returned key task answer) :
    resolved h lib proxy pinnedZone pinnedLanguage m w.cache = (.ok answer.pair, w.cache) := by
  unfold World.consult at hat
  unfold resolved
  rw [hkey]
  dsimp only
  rw [← hclock]
  cases hcached : cachedPair w.cache key w.clock with
  | some pair =>
    rw [hcached] at hat
    dsimp only at hat
    rw [World.goto_self] at hat
    cases hat
    rfl
  | none =>
    rw [hcached] at hat
    dsimp only at hat
    rw [World.goto_self] at hat
    cases hat

/-- What the second section does after a lookup is what `resolved` does. -/
theorem resolved_of_conclude {cache : Cache ω} {zone language : Option (Half ω)}
    (hkey : cacheKey h.sha256 proxy = .ok key) (hmiss : cachedPair cache key m.recalled = none)
    (hfound : fromEgress h lib proxy pinnedZone pinnedLanguage = .ok (zone, language))
    (hcache : w.cache = m.meanwhile cache) (hclock : w.clock = m.guarded) (lookup : ℕ) :
    (resolved h lib proxy pinnedZone pinnedLanguage m cache).2 =
        (w.conclude h t key task lookup (.of h zone language) m.stamped).cache ∧
      ∀ pair, (resolved h lib proxy pinnedZone pinnedLanguage m cache).1 = .ok pair ↔
        ∃ source, (w.conclude h t key task lookup (.of h zone language) m.stamped).pcs t =
          .returned key task ⟨source, pair⟩ := by
  have hresolved : resolved h lib proxy pinnedZone pinnedLanguage m cache =
      remember (cacheSeconds h) w.cache key w.clock m.stamped
        (zone.getD (.text h.containerTimezone)) (language.getD (.text defaultLanguage))
        (zone.isSome && language.isSome) := by
    unfold resolved
    rw [hkey]
    dsimp only
    rw [hmiss]
    dsimp only
    rw [hfound, hcache, hclock]
  rw [hresolved]
  unfold World.conclude
  rw [show (Outcome.of h zone language).zone = zone.getD (.text h.containerTimezone) from rfl,
    show (Outcome.of h zone language).language = language.getD (.text defaultLanguage) from rfl,
    show (Outcome.of h zone language).complete = (zone.isSome && language.isSome) from rfl]
  cases hkept : kept w.cache key w.clock (zone.isSome && language.isSome) with
  | some pair =>
    rw [remember_kept hkept]
    refine ⟨rfl, fun pair' => ?_⟩
    dsimp only
    rw [World.goto_self]
    exact ⟨fun h => ⟨_, by rw [Except.ok.inj h]⟩, fun ⟨_, h⟩ => by cases h; rfl⟩
  | none =>
    rcases lt_or_ge (ttl h (zone.isSome && language.isSome)) floatLimit with hfits | hover
    · rw [remember_fits hkept hfits]
      refine ⟨rfl, fun pair' => ?_⟩
      dsimp only
      rw [World.goto_self]
      exact ⟨fun h => ⟨_, by rw [Except.ok.inj h]⟩, fun ⟨_, h⟩ => by cases h; rfl⟩
    · rw [remember_overflows hkept hover]
      refine ⟨rfl, fun pair' => ?_⟩
      dsimp only
      rw [World.goto_self]
      exact iff_of_false (fun h => nomatch h) fun ⟨_, h⟩ => nomatch h

end Faithful

/-! ## What one step can do -/

/-- What a move of a thread makes of the world. -/
inductive Effect (h : Host) (w : World ω) (t : Tid) : World ω → Prop
  | started {pc : Pc ω} (ended : (w.pcs t).ended = true)
      (opens : pc = .raised ∨ ∃ key, pc = .consult key .pair ∨ pc = .consult key .timezone) :
      Effect h w t (w.goto t pc)
  | hit {key : Str} {task : Task ω} {entry : Entry ω} (here : w.pcs t = .consult key task)
      (found : w.cache.find? key = some entry) (fresh : w.clock < entry.expires) :
      Effect h w t (w.goto t (.returned key task ⟨w.source key, entry.zone, entry.language⟩))
  | missed {key : Str} {task : Task ω} (here : w.pcs t = .consult key task)
      (stale : ∀ entry, w.cache.find? key = some entry → entry.expires ≤ w.clock) :
      Effect h w t (w.goto t (.looking key task))
  | found {key : Str} {task : Task ω} {zone language : Option (Half ω)}
      (here : w.pcs t = .looking key task) : Effect h w t (w.find h t key task zone language)
  | escaped {key : Str} {task : Task ω} (here : w.pcs t = .looking key task) :
      Effect h w t (w.goto t .raised)
  | kept {key : Str} {task : Task ω} {lookup : ℕ} {o : Outcome ω} {stamp : ℚ} {entry : Entry ω}
      (here : w.pcs t = .deciding key task lookup o) (later : w.clock ≤ stamp)
      (incomplete : o.complete = false) (found : w.cache.find? key = some entry)
      (complete : entry.complete = true) (fresh : w.clock < entry.expires) :
      Effect h w t ({ w with clock := stamp }.goto t
        (.returned key task ⟨w.source key, entry.zone, entry.language⟩))
  | stored {key : Str} {task : Task ω} {lookup : ℕ} {o : Outcome ω} {stamp : ℚ}
      (here : w.pcs t = .deciding key task lookup o) (later : w.clock ≤ stamp)
      (displaces : kept w.cache key w.clock o.complete = none)
      (fits : ttl h o.complete < floatLimit) :
      Effect h w t ({ w with
        clock := stamp
        cache := w.cache.use maxCachedExits (key, o.entry h stamp)
        stores := ⟨key, lookup, stamp, o.entry h stamp⟩ :: w.stores }.goto t
          (.returned key task ⟨lookup, o.zone, o.language⟩))
  | overflowed {key : Str} {task : Task ω} {lookup : ℕ} {o : Outcome ω} {stamp : ℚ}
      (here : w.pcs t = .deciding key task lookup o) (later : w.clock ≤ stamp)
      (overflows : floatLimit ≤ cacheSeconds h) :
      Effect h w t ({ w with clock := stamp, cache := w.cache.erase key }.goto t .raised)
  | halfway {key : Str} {first : Answer ω} (here : w.pcs t = .returned key .timezone first) :
      Effect h w t (w.goto t (.consult key (.language first)))
  | paired {key : Str} {first second : Answer ω}
      (here : w.pcs t = .returned key (.language first) second) :
      Effect h w t (w.goto t (.identity first second))

/-- The other threads stay where they are. -/
theorem Effect.other {h : Host} {w w' : World ω} {t t' : Tid} (heffect : Effect h w t w')
    (ht : t' ≠ t) : w'.pcs t' = w.pcs t' := by
  cases heffect <;> exact World.goto_other _ _ ht

namespace World

variable {h : Host} {w : World ω} {t : Tid} {key : Str} {task : Task ω}

theorem start_effect (hended : (w.pcs t).ended = true) (proxy : Option ProxyConfig) (both : Bool) :
    Effect h w t (w.start h t proxy both) := by
  unfold start
  cases cacheKey h.sha256 proxy with
  | error e => exact .started hended (.inl rfl)
  | ok key =>
    cases both with
    | true => exact .started hended (.inr ⟨key, .inr rfl⟩)
    | false => exact .started hended (.inr ⟨key, .inl rfl⟩)

theorem consult_effect (hat : w.pcs t = .consult key task) :
    Effect h w t (w.consult t key task) := by
  unfold consult cachedPair
  cases hfind : w.cache.find? key with
  | none => exact .missed hat fun entry he => nomatch hfind.symm.trans he
  | some entry =>
    dsimp only
    by_cases hfresh : w.clock < entry.expires
    · rw [if_pos hfresh]
      exact .hit hat hfind hfresh
    · rw [if_neg hfresh]
      refine .missed hat fun entry' he => ?_
      rw [← Option.some.inj (hfind.symm.trans he)]
      exact not_lt.mp hfresh

theorem conclude_effect {lookup : ℕ} {o : Outcome ω} {stamp : ℚ}
    (hat : w.pcs t = .deciding key task lookup o) (hlater : w.clock ≤ stamp) :
    Effect h w t (w.conclude h t key task lookup o stamp) := by
  unfold conclude
  cases hkept : Geo.kept w.cache key w.clock o.complete with
  | some pair =>
    rw [remember_kept hkept]
    obtain ⟨entry, hfind, hincomplete, hcomplete, hfresh, rfl⟩ := kept_eq_some_iff.mp hkept
    exact .kept hat hlater hincomplete hfind hcomplete hfresh
  | none =>
    rcases lt_or_ge (ttl h o.complete) floatLimit with hfits | hover
    · rw [remember_fits hkept hfits]
      exact .stored hat hlater hkept hfits
    · rw [remember_overflows hkept hover]
      exact .overflowed hat hlater (ttl_overflows hover).2

end World

/-- **What a step can do.** -/
theorem step_effect {h : Host} {w w' : World ω} {t : Tid} {move : Move ω}
    (hstep : step h w (.run t move) = some w') : Effect h w t w' := by
  unfold step at hstep
  dsimp only at hstep
  split at hstep
  next hat =>
    obtain rfl := Option.some.inj hstep
    exact World.consult_effect hat
  next hat =>
    obtain rfl := Option.some.inj hstep
    exact .found hat
  next hat =>
    obtain rfl := Option.some.inj hstep
    exact .escaped hat
  next hat =>
    split at hstep
    next hlater =>
      obtain rfl := Option.some.inj hstep
      exact World.conclude_effect hat hlater
    next => cases hstep
  next hat =>
    obtain rfl := Option.some.inj hstep
    exact .halfway hat
  next hat =>
    obtain rfl := Option.some.inj hstep
    exact .paired hat
  next =>
    split at hstep
    next hended =>
      obtain rfl := Option.some.inj hstep
      exact World.start_effect hended _ _
    next => cases hstep
  next => cases hstep

/-- A thread whose call has ended can only begin another one. -/
theorem move_ended {h : Host} {w w' : World ω} {t : Tid} {move : Move ω}
    (hended : (w.pcs t).ended = true) (hstep : step h w (.run t move) = some w') :
    ∃ proxy both, move = .start proxy both := by
  unfold step at hstep
  dsimp only at hstep
  split at hstep
  next here => exact (nomatch (here ▸ hended : (Pc.consult _ _).ended = true))
  next here => exact (nomatch (here ▸ hended : (Pc.looking _ _).ended = true))
  next here => exact (nomatch (here ▸ hended : (Pc.looking _ _).ended = true))
  next here => exact (nomatch (here ▸ hended : (Pc.deciding _ _ _ _).ended = true))
  next here => exact (nomatch (here ▸ hended : (Pc.returned _ .timezone _).ended = true))
  next here => exact (nomatch (here ▸ hended : (Pc.returned _ (.language _) _).ended = true))
  next => exact ⟨_, _, rfl⟩
  next => cases hstep

theorem step_tick {h : Host} {w w' : World ω} {now : ℚ} (hstep : step h w (.tick now) = some w') :
    w.clock ≤ now ∧ w' = { w with clock := now } := by
  unfold step at hstep
  dsimp only at hstep
  split at hstep
  next hlater => exact ⟨hlater, (Option.some.inj hstep).symm⟩
  next => cases hstep

/-! ## Which lookup a pair is from -/

def Task.answers : Task ω → List (Answer ω)
  | .language first => [first]
  | _ => []

/-- The pairs that a thread has in hand. -/
def Pc.answers : Pc ω → List (Answer ω)
  | .consult _ task => task.answers
  | .looking _ task => task.answers
  | .deciding _ task _ _ => task.answers
  | .returned _ task answer => answer :: task.answers
  | .identity first second => [first, second]
  | _ => []

/-- The pair is what its lookup came to. -/
def Answer.From (a : Answer ω) (outcomes : List (Outcome ω)) : Prop :=
  ∃ o, outcomes[a.lookup]? = some o ∧ a.pair = (o.zone, o.language)

/-- Everything that is remembered or in hand is what its lookup came to. -/
structure Sourced (h : Host) (w : World ω) : Prop where
  found : ∀ key entry, w.cache.find? key = some entry →
    ∃ s, w.latest key = some s ∧ s.entry = entry
  stored : ∀ s ∈ w.stores, ∃ o, w.outcomes[s.lookup]? = some o ∧ s.entry = o.entry h s.stamp
  pending : ∀ t key task lookup o, w.pcs t = .deciding key task lookup o →
    w.outcomes[lookup]? = some o
  answered : ∀ t, ∀ a ∈ (w.pcs t).answers, a.From w.outcomes

namespace Sourced

variable {h : Host} {w w' : World ω} {t : Tid}

/-- An entry is what the lookup under its key came to. -/
theorem source (hw : Sourced h w) {key : Str} {entry : Entry ω}
    (hfind : w.cache.find? key = some entry) :
    ∃ o stamp, w.outcomes[w.source key]? = some o ∧ entry = o.entry h stamp := by
  obtain ⟨s, hlatest, rfl⟩ := hw.found key entry hfind
  obtain ⟨o, ho, hentry⟩ := hw.stored s (List.mem_of_find?_eq_some hlatest)
  refine ⟨o, s.stamp, ?_, hentry⟩
  unfold World.source
  rw [hlatest]
  exact ho

/-- A step that puts nothing into the cache. -/
theorem frame (hw : Sourced h w)
    (hcache : ∀ key entry, w'.cache.find? key = some entry → w.cache.find? key = some entry)
    (hstores : w'.stores = w.stores)
    (houtcomes : ∀ (i : ℕ) o, w.outcomes[i]? = some o → w'.outcomes[i]? = some o) {pc : Pc ω}
    (hpcs : w'.pcs = Function.update w.pcs t pc)
    (hpending : ∀ key task lookup o, pc = .deciding key task lookup o →
      w'.outcomes[lookup]? = some o)
    (hanswered : ∀ a ∈ pc.answers, a.From w'.outcomes) : Sourced h w' := by
  have hlatest : ∀ key, w'.latest key = w.latest key := fun key => by
    unfold World.latest
    rw [hstores]
  refine ⟨?_, ?_, ?_, ?_⟩
  · intro key entry hfind
    rw [hlatest]
    exact hw.found key entry (hcache key entry hfind)
  · intro s hs
    obtain ⟨o, ho, hentry⟩ := hw.stored s (hstores ▸ hs)
    exact ⟨o, houtcomes _ _ ho, hentry⟩
  · intro t' key task lookup o hat
    rw [hpcs] at hat
    by_cases ht : t' = t
    · rw [ht, Function.update_self] at hat
      exact hpending _ _ _ _ hat
    · rw [Function.update_of_ne ht] at hat
      exact houtcomes _ _ (hw.pending t' _ _ _ _ hat)
  · intro t' a ha
    rw [hpcs] at ha
    by_cases ht : t' = t
    · rw [ht, Function.update_self] at ha
      exact hanswered a ha
    · rw [Function.update_of_ne ht] at ha
      obtain ⟨o, ho, hpair⟩ := hw.answered t' a ha
      exact ⟨o, houtcomes _ _ ho, hpair⟩

/-- A thread moves on with pairs that it has in hand. -/
theorem goto (hw : Sourced h w) {pc : Pc ω}
    (hpending : ∀ key task lookup o, pc ≠ .deciding key task lookup o)
    (hanswered : ∀ a ∈ pc.answers, a.From w.outcomes) : Sourced h (w.goto t pc) :=
  hw.frame (fun _ _ h => h) rfl (fun _ _ h => h) rfl
    (fun _ _ _ _ h => absurd h (hpending _ _ _ _)) hanswered

/-- A pair that is remembered is what its lookup came to. -/
theorem recalled (hw : Sourced h w) {key : Str} {entry : Entry ω}
    (hfind : w.cache.find? key = some entry) :
    Answer.From ⟨w.source key, entry.zone, entry.language⟩ w.outcomes := by
  obtain ⟨o, stamp, ho, rfl⟩ := hw.source hfind
  exact ⟨o, ho, rfl⟩

theorem tick (hw : Sourced h w) (now : ℚ) : Sourced h { w with clock := now } :=
  ⟨hw.found, hw.stored, hw.pending, hw.answered⟩

/-- A lookup is put in its place: the entry is the last one under its key, and the entries
that are left are as they were. -/
theorem store (hw : Sourced h w) {key : Str} {task : Task ω} {lookup : ℕ} {o : Outcome ω}
    {stamp : ℚ} (hat : w.pcs t = .deciding key task lookup o) :
    Sourced h ({ w with
      clock := stamp
      cache := w.cache.use maxCachedExits (key, o.entry h stamp)
      stores := ⟨key, lookup, stamp, o.entry h stamp⟩ :: w.stores }.goto t
        (.returned key task ⟨lookup, o.zone, o.language⟩)) := by
  have ho := hw.pending t key task lookup o hat
  have hin : ∀ a ∈ task.answers, a.From w.outcomes := fun a ha =>
    hw.answered t a (by rw [hat]; exact ha)
  refine ⟨?_, ?_, ?_, ?_⟩
  · intro key' entry hfind
    have hpush := Dict.find?_of_trim hfind
    rw [Dict.find?_push] at hpush
    by_cases hkey : key' = key
    · rw [if_pos hkey] at hpush
      exact ⟨_, List.find?_cons_of_pos (by simpa using hkey.symm), Option.some.inj hpush⟩
    · rw [if_neg hkey] at hpush
      obtain ⟨s, hlatest, hentry⟩ := hw.found key' entry hpush
      exact ⟨s, (List.find?_cons_of_neg (by simpa using Ne.symm hkey)).trans hlatest, hentry⟩
  · intro s hs
    rcases List.mem_cons.mp hs with rfl | hold
    · exact ⟨o, ho, rfl⟩
    · exact hw.stored s hold
  · intro t' key' task' lookup' o' hat'
    by_cases ht : t' = t
    · rw [ht, World.goto_self] at hat'
      cases hat'
    · rw [World.goto_other _ _ ht] at hat'
      exact hw.pending t' _ _ _ _ hat'
  · intro t' a ha
    by_cases ht : t' = t
    · rw [ht, World.goto_self] at ha
      rcases List.mem_cons.mp ha with rfl | hold
      · exact ⟨o, ho, rfl⟩
      · exact hin a hold
    · rw [World.goto_other _ _ ht] at ha
      exact hw.answered t' a ha

theorem move (hw : Sourced h w) (heffect : Effect h w t w') : Sourced h w' := by
  have hin : ∀ {pc}, w.pcs t = pc → ∀ a ∈ pc.answers, a.From w.outcomes := fun hat a ha =>
    hw.answered t a (hat ▸ ha)
  cases heffect with
  | started _ hopens =>
    obtain rfl | ⟨key, rfl | rfl⟩ := hopens
    · exact hw.goto (fun _ _ _ _ h => nomatch h) nofun
    · exact hw.goto (fun _ _ _ _ h => nomatch h) nofun
    · exact hw.goto (fun _ _ _ _ h => nomatch h) nofun
  | hit hat hfind _ =>
    refine hw.goto (fun _ _ _ _ h => nomatch h) fun a ha => ?_
    rcases List.mem_cons.mp ha with rfl | hold
    · exact hw.recalled hfind
    · exact hin hat a hold
  | missed hat _ => exact hw.goto (fun _ _ _ _ h => nomatch h) fun a ha => hin hat a ha
  | @found key task zone language hat =>
    have hold : ∀ (i : ℕ) o, w.outcomes[i]? = some o →
        (w.outcomes ++ [Outcome.of h zone language])[i]? = some o := fun i o ho =>
      (List.getElem?_append_left (List.getElem?_eq_some_iff.mp ho).1).trans ho
    refine hw.frame (fun _ _ h => h) rfl hold rfl (fun _ _ _ _ hpc => ?_) fun a ha => ?_
    · cases hpc
      exact List.getElem?_concat_length ..
    · obtain ⟨o, ho, hpair⟩ := hin hat a ha
      exact ⟨o, hold _ _ ho, hpair⟩
  | escaped _ => exact hw.goto (fun _ _ _ _ h => nomatch h) nofun
  | @kept key task lookup o stamp entry hat _ _ hfind _ _ =>
    refine (hw.tick stamp).goto (fun _ _ _ _ h => nomatch h) fun a ha => ?_
    rcases List.mem_cons.mp ha with rfl | hold
    · exact hw.recalled hfind
    · exact hin hat a hold
  | stored hat _ _ _ => exact hw.store hat
  | @overflowed key task lookup o stamp hat _ _ =>
    exact hw.frame (fun _ _ hfind => (Dict.find?_of_erase hfind).2) rfl (fun _ _ h => h) rfl
      (fun _ _ _ _ h => nomatch h) nofun
  | halfway hat => exact hw.goto (fun _ _ _ _ h => nomatch h) fun a ha => hin hat a ha
  | @paired key first second hat =>
    refine hw.goto (fun _ _ _ _ h => nomatch h) fun a ha => hin hat a ?_
    exact (List.Perm.swap ..).subset ha

theorem step (hw : Sourced h w) {a : Act ω} (hstep : Geo.step h w a = some w') :
    Sourced h w' := by
  cases a with
  | tick now =>
    obtain ⟨-, rfl⟩ := step_tick hstep
    exact hw.tick now
  | run t move => exact hw.move (step_effect hstep)

theorem init (now : ℚ) : Sourced h (World.init now : World ω) :=
  ⟨fun _ _ h => (nomatch h), fun _ h => (nomatch h), fun _ _ _ _ _ h => (nomatch h),
    fun _ _ h => (nomatch h)⟩

theorem run (hrun : Run (Geo.step h) Any w w') (hw : Sourced h w) : Sourced h w' :=
  hrun.invariant (fun _ _ _ hw _ hstep => hw.step hstep) hw

end Sourced

end Solverr.Geo
