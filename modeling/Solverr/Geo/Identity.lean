import Solverr.Geo.Calls

/-!
# Whether the two halves are from one lookup

`browser_identity` calls `_resolved` for the timezone and again for the language. The second
call returns the pair that the first half is from exactly when it still finds it: an entry
of another lookup is there, or none that is fresh, and the halves are of two lookups.
`Steady` is the guard that no second call comes too late. That it is needed rests on the
lookups being told apart: `Own` says that one that is not put in yet is nobody's pair, and
`Stale` that what a late second call missed does not come back.
-/

namespace Solverr.Geo

open Solverr.Lib

variable {ω : Type}

/-! ## The two calls -/

/-- `browser_identity(proxy_config)`, where `between` is what other calls do to the cache
between the two. -/
def browserIdentity (h : Host) (lib : Option (Library ω)) (proxy : Option ProxyConfig)
    (m m' : Moments ω) (between : Cache ω → Cache ω) (cache : Cache ω) :
    Except Failure (Half ω × Half ω) × Cache ω :=
  match browserTimezone h lib proxy m cache with
  | (.error e, cache) => (.error e, cache)
  | (.ok zone, cache) =>
    let (language, cache) := browserLanguage h lib proxy m' (between cache)
    (language.map fun language => (zone, language), cache)

/-- Where neither half is pinned, each is a half of what its own call of `_resolved`
returns. -/
theorem browserIdentity_unpinned {h : Host} (lib : Option (Library ω))
    (proxy : Option ProxyConfig) (m m' : Moments ω) (between : Cache ω → Cache ω)
    (cache : Cache ω) (hzone : pinned (ω := ω) h.pinnedZone = none)
    (hlanguage : pinned (ω := ω) (browserLocale h.unicode h.environ) = none)
    {zone language : Half ω} :
    (browserIdentity h lib proxy m m' between cache).1 = .ok (zone, language) ↔
      ∃ first second,
        (resolved h lib proxy none (browserLocale h.unicode h.environ) m cache).1 = .ok first ∧
        (resolved h lib proxy h.pinnedZone none m' (between
          (resolved h lib proxy none (browserLocale h.unicode h.environ) m cache).2)).1 =
            .ok second ∧
        first.1 = zone ∧ second.2 = language := by
  unfold browserIdentity browserTimezone browserLanguage
  rw [hzone, hlanguage]
  dsimp only
  rcases resolved h lib proxy none (browserLocale h.unicode h.environ) m cache with
    ⟨e | first, cache'⟩
  · exact iff_of_false (fun h => nomatch h) fun ⟨_, _, h, _⟩ => nomatch h
  · dsimp only [Except.map]
    rcases resolved h lib proxy h.pinnedZone none m' (between cache') with ⟨e | second, cache''⟩
    · exact iff_of_false (fun h => nomatch h) fun ⟨_, _, _, h, _⟩ => nomatch h
    · constructor
      · intro hpair
        cases hpair
        exact ⟨first, second, rfl, rfl, rfl, rfl⟩
      · rintro ⟨_, _, ⟨⟩, ⟨⟩, rfl, rfl⟩
        rfl

/-! ## What a second call needs -/

/-- The pair of `first` is still remembered, and has not expired. -/
def StillThere (w : World ω) (key : Str) (first : Answer ω) : Prop :=
  ∃ entry, w.cache.find? key = some entry ∧ w.clock < entry.expires ∧
    w.source key = first.lookup

/-- No second call comes after what the first one returned is gone. -/
def Steady (w : World ω) (a : Act ω) : Prop :=
  ∀ t key first, a = .run t .consult → w.pcs t = .consult key (.language first) →
    StillThere w key first

/-- Both halves are from one lookup, and are what it came to. -/
def OneLookup (w : World ω) : Prop :=
  ∀ t first second, w.pcs t = .identity first second → second.lookup = first.lookup ∧
    ∃ o, w.outcomes[first.lookup]? = some o ∧
      (first.pair.1, second.pair.2) = (o.zone, o.language)

/-! ## Steady runs -/

/-- A second call has found the first one's pair. -/
def Pc.Matched : Pc ω → Prop
  | .looking _ (.language _) => False
  | .deciding _ (.language _) _ _ => False
  | .returned _ (.language first) second => second.lookup = first.lookup
  | .identity first second => second.lookup = first.lookup
  | _ => True

namespace Matched

variable {h : Host} {w w' : World ω} {t : Tid}

/-- The other threads stay where they are. -/
theorem goto {w' : World ω} (hw : ∀ t, (w.pcs t).Matched) {pc : Pc ω}
    (hpcs : w'.pcs = Function.update w.pcs t pc) (hpc : pc.Matched) : ∀ t, (w'.pcs t).Matched := by
  intro t'
  rw [hpcs]
  by_cases ht : t' = t
  · rw [ht, Function.update_self]
    exact hpc
  · rw [Function.update_of_ne ht]
    exact hw t'

theorem move (hw : ∀ t, (w.pcs t).Matched)
    (hsteady : ∀ key first, w.pcs t = .consult key (.language first) → StillThere w key first)
    (heffect : Effect h w t w') : ∀ t, (w'.pcs t).Matched := by
  have hat := hw t
  cases heffect with
  | started _ hopens =>
    obtain rfl | ⟨key, rfl | rfl⟩ := hopens
    · exact goto hw rfl trivial
    · exact goto hw rfl trivial
    · exact goto hw rfl trivial
  | @hit key task entry here _ _ =>
    refine goto hw rfl ?_
    cases task with
    | language first =>
      obtain ⟨-, -, -, hsource⟩ := hsteady key first here
      exact hsource
    | _ => trivial
  | @missed key task here hstale =>
    refine goto hw rfl ?_
    cases task with
    | language first =>
      obtain ⟨entry, hfind, hfresh, -⟩ := hsteady key first here
      exact absurd hfresh (not_lt.mpr (hstale entry hfind))
    | _ => trivial
  | @found key task _ _ here =>
    rw [here] at hat
    refine goto hw rfl ?_
    cases task with
    | language first => exact hat
    | _ => trivial
  | escaped _ => exact goto hw rfl trivial
  | @kept key task _ _ _ _ here _ _ _ _ _ =>
    rw [here] at hat
    refine goto hw rfl ?_
    cases task with
    | language first => exact hat.elim
    | _ => trivial
  | @stored key task _ _ _ here _ _ _ =>
    rw [here] at hat
    refine goto hw rfl ?_
    cases task with
    | language first => exact hat.elim
    | _ => trivial
  | overflowed _ _ _ => exact goto hw rfl trivial
  | halfway _ => exact goto hw rfl trivial
  | paired here =>
    rw [here] at hat
    exact goto hw rfl hat

/-- A thread in front of the first section can do nothing else. -/
theorem move_consult {move : Move ω} {key : Str} {task : Task ω}
    (here : w.pcs t = .consult key task) (hstep : Geo.step h w (.run t move) = some w') :
    move = .consult := by
  unfold Geo.step at hstep
  dsimp only at hstep
  rw [here] at hstep
  cases move with
  | consult => rfl
  | start proxy both =>
    dsimp only at hstep
    rw [if_neg (show ¬ (Pc.consult key task).ended = true from Bool.false_ne_true)] at hstep
    cases hstep
  | _ => cases hstep

theorem step (hw : ∀ t, (w.pcs t).Matched) {a : Act ω} (hsteady : Steady w a)
    (hstep : Geo.step h w a = some w') : ∀ t, (w'.pcs t).Matched := by
  cases a with
  | tick now =>
    obtain ⟨-, rfl⟩ := step_tick hstep
    exact hw
  | run t move =>
    refine Matched.move hw (fun key first here => ?_) (step_effect hstep)
    obtain rfl := move_consult here hstep
    exact hsteady t key first rfl here

theorem run {now : ℚ} (hrun : Run (Geo.step h) Steady (World.init now) w) :
    ∀ t, (w.pcs t).Matched := by
  have hinit : ∀ t, ((World.init now : World ω).pcs t).Matched := fun _ => trivial
  exact hrun.invariant (I := fun w => ∀ t, (w.pcs t).Matched)
    (fun _ _ _ hw hsteady hstep => step hw hsteady hstep) hinit

end Matched

/-- In a steady run both halves of every identity are from one lookup. -/
theorem steady_one_lookup {h : Host} {now : ℚ} {w : World ω}
    (hrun : Run (step h) Steady (World.init now) w) : OneLookup w := by
  intro t first second hat
  have hmatched := Matched.run hrun t
  rw [hat] at hmatched
  have hsourced : Sourced h w := hrun.invariant (fun _ _ _ hw _ hstep => hw.step hstep) (.init now)
  have hin : ∀ a ∈ [first, second], a.From w.outcomes := fun a ha =>
    hsourced.answered t a (by rw [hat]; exact ha)
  obtain ⟨o, ho, hfirst⟩ := hin first (by simp)
  obtain ⟨o', ho', hsecond⟩ := hin second (by simp)
  have hlookup : second.lookup = first.lookup := hmatched
  rw [hlookup, ho] at ho'
  obtain rfl := Option.some.inj ho'
  exact ⟨hlookup, o, ho, by rw [hfirst, hsecond]⟩

/-! ## A second call that comes too late -/

/-- The lookup that a thread has not put in yet. -/
def Pc.pending? : Pc ω → Option ℕ
  | .deciding _ _ lookup _ => some lookup
  | _ => none

/-- A lookup that is not put in yet is its thread's own, and nobody's pair. -/
structure Own (w : World ω) : Prop where
  stored : ∀ t lookup, (w.pcs t).pending? = some lookup → ∀ s ∈ w.stores, s.lookup ≠ lookup
  answered : ∀ t lookup, (w.pcs t).pending? = some lookup →
    ∀ t', ∀ a ∈ (w.pcs t').answers, a.lookup ≠ lookup
  alone : ∀ t t' lookup, (w.pcs t).pending? = some lookup →
    (w.pcs t').pending? = some lookup → t = t'

namespace Own

variable {h : Host} {w w' : World ω} {t : Tid}

/-- No other thread has the lookup before it. -/
def Free (w : World ω) (t : Tid) (lookup : ℕ) : Prop :=
  ∀ t', t' ≠ t → (w.pcs t').pending? ≠ some lookup

theorem free_stored (hw : Own w) (t : Tid) {s : Stored ω} (hs : s ∈ w.stores) :
    Free w t s.lookup :=
  fun t' _ hat => hw.stored t' _ hat s hs rfl

theorem free_answer (hw : Own w) (t : Tid) {t' : Tid} {a : Answer ω} (ha : a ∈ (w.pcs t').answers) :
    Free w t a.lookup :=
  fun t'' _ hat => hw.answered t'' _ hat t' a ha rfl

theorem free_pending (hw : Own w) {lookup : ℕ} (hat : (w.pcs t).pending? = some lookup) :
    Free w t lookup :=
  fun t' ht hat' => ht (hw.alone t' t lookup hat' hat)

/-- A remembered pair is of a lookup that was put in. -/
theorem free_source (hw : Own w) (hsourced : Sourced h w) (t : Tid) {key : Str} {entry : Entry ω}
    (hfind : w.cache.find? key = some entry) : Free w t (w.source key) := by
  obtain ⟨s, hlatest, -⟩ := hsourced.found key entry hfind
  have hsource : w.source key = s.lookup := by
    unfold World.source
    rw [hlatest]
    rfl
  rw [hsource]
  exact hw.free_stored t (List.mem_of_find?_eq_some hlatest)

/-- A thread moves on, and puts in or has in hand only what no other thread has before it. -/
theorem frame (hw : Own w) {pc : Pc ω} (hpcs : w'.pcs = Function.update w.pcs t pc)
    (hpending : pc.pending? = none)
    (hstores : ∀ s ∈ w'.stores, s ∈ w.stores ∨ Free w t s.lookup)
    (hanswered : ∀ a ∈ pc.answers, Free w t a.lookup) : Own w' := by
  have hold : ∀ t' lookup, (w'.pcs t').pending? = some lookup →
      t' ≠ t ∧ (w.pcs t').pending? = some lookup := fun t' lookup hat => by
    rw [hpcs] at hat
    by_cases ht : t' = t
    · rw [ht, Function.update_self, hpending] at hat
      cases hat
    · exact ⟨ht, by rwa [Function.update_of_ne ht] at hat⟩
  refine ⟨?_, ?_, ?_⟩
  · intro t' lookup hat s hs hlookup
    obtain ⟨ht, hat⟩ := hold t' lookup hat
    rcases hstores s hs with hin | hfree
    · exact hw.stored t' lookup hat s hin hlookup
    · exact hfree t' ht (hlookup ▸ hat)
  · intro t' lookup hat t'' a ha hlookup
    obtain ⟨ht, hat⟩ := hold t' lookup hat
    rw [hpcs] at ha
    by_cases ht' : t'' = t
    · rw [ht', Function.update_self] at ha
      exact hanswered a ha t' ht (hlookup ▸ hat)
    · rw [Function.update_of_ne ht'] at ha
      exact hw.answered t' lookup hat t'' a ha hlookup
  · intro t₁ t₂ lookup h₁ h₂
    exact hw.alone t₁ t₂ lookup (hold t₁ lookup h₁).2 (hold t₂ lookup h₂).2

/-- A lookup that ends is a new one. -/
theorem find (hw : Own w) (hsourced : Sourced h w) {key : Str} {task : Task ω}
    {zone language : Option (Half ω)} (here : w.pcs t = .looking key task) :
    Own (w.find h t key task zone language) := by
  have hbelow : ∀ {i : ℕ} {o}, w.outcomes[i]? = some o → i ≠ w.outcomes.length := fun ho =>
    Nat.ne_of_lt (List.getElem?_eq_some_iff.mp ho).1
  have hstored : ∀ s ∈ w.stores, s.lookup ≠ w.outcomes.length := fun s hs => by
    obtain ⟨o, ho, -⟩ := hsourced.stored s hs
    exact hbelow ho
  have hanswers : ∀ t', ∀ a ∈ ((w.find h t key task zone language).pcs t').answers,
      a ∈ (w.pcs t').answers := fun t' a ha => by
    by_cases ht : t' = t
    · rw [ht] at ha ⊢
      rw [here]
      rwa [World.find, World.goto_self] at ha
    · rwa [World.find, World.goto_other _ _ ht] at ha
  have hold : ∀ t' lookup, ((w.find h t key task zone language).pcs t').pending? = some lookup →
      t' = t ∧ lookup = w.outcomes.length ∨
        t' ≠ t ∧ (w.pcs t').pending? = some lookup ∧ lookup ≠ w.outcomes.length :=
    fun t' lookup hat => by
      by_cases ht : t' = t
      · rw [ht, World.find, World.goto_self] at hat
        exact .inl ⟨ht, (Option.some.inj hat).symm⟩
      · rw [World.find, World.goto_other _ _ ht] at hat
        have hat' : (w.pcs t').pending? = some lookup := hat
        refine .inr ⟨ht, hat', ?_⟩
        cases hpc : w.pcs t' with
        | deciding key' task' lookup' o =>
          rw [hpc] at hat'
          obtain rfl := Option.some.inj hat'
          exact hbelow (hsourced.pending t' _ _ _ _ hpc)
        | _ =>
          rw [hpc] at hat'
          cases hat'
  refine ⟨?_, ?_, ?_⟩
  · intro t' lookup hat s hs
    rcases hold t' lookup hat with ⟨-, rfl⟩ | ⟨-, hat', -⟩
    · exact hstored s hs
    · exact hw.stored t' lookup hat' s hs
  · intro t' lookup hat t'' a ha
    have hin := hanswers t'' a ha
    rcases hold t' lookup hat with ⟨-, rfl⟩ | ⟨-, hat', -⟩
    · obtain ⟨o, ho, -⟩ := hsourced.answered t'' a hin
      exact hbelow ho
    · exact hw.answered t' lookup hat' t'' a hin
  · intro t₁ t₂ lookup h₁ h₂
    rcases hold t₁ lookup h₁ with ⟨rfl, rfl⟩ | ⟨-, h₁', hne⟩
    · rcases hold t₂ _ h₂ with ⟨rfl, -⟩ | ⟨-, -, hne⟩
      · rfl
      · exact absurd rfl hne
    · rcases hold t₂ lookup h₂ with ⟨-, heq⟩ | ⟨-, h₂', -⟩
      · exact absurd heq hne
      · exact hw.alone t₁ t₂ lookup h₁' h₂'

theorem move (hw : Own w) (hsourced : Sourced h w) (heffect : Effect h w t w') : Own w' := by
  have hin : ∀ {pc}, w.pcs t = pc → ∀ a ∈ pc.answers, Free w t a.lookup := fun here a ha =>
    hw.free_answer t (here ▸ ha)
  cases heffect with
  | started _ hopens =>
    obtain rfl | ⟨key, rfl | rfl⟩ := hopens
    · exact hw.frame rfl rfl (fun _ hs => .inl hs) nofun
    · exact hw.frame rfl rfl (fun _ hs => .inl hs) nofun
    · exact hw.frame rfl rfl (fun _ hs => .inl hs) nofun
  | hit here hfind _ =>
    refine hw.frame rfl rfl (fun _ hs => .inl hs) fun a ha => ?_
    rcases List.mem_cons.mp ha with rfl | hold
    · exact hw.free_source hsourced t hfind
    · exact hin here a hold
  | missed here _ => exact hw.frame rfl rfl (fun _ hs => .inl hs) fun a ha => hin here a ha
  | found here => exact hw.find hsourced here
  | escaped _ => exact hw.frame rfl rfl (fun _ hs => .inl hs) nofun
  | kept here _ _ hfind _ _ =>
    refine hw.frame rfl rfl (fun _ hs => .inl hs) fun a ha => ?_
    rcases List.mem_cons.mp ha with rfl | hold
    · exact hw.free_source hsourced t hfind
    · exact hin here a hold
  | stored here _ _ _ =>
    have hown := hw.free_pending (congrArg Pc.pending? here)
    refine hw.frame rfl rfl (fun s hs => ?_) fun a ha => ?_
    · rcases List.mem_cons.mp hs with rfl | hold
      · exact .inr hown
      · exact .inl hold
    · rcases List.mem_cons.mp ha with rfl | hold
      · exact hown
      · exact hin here a hold
  | overflowed _ _ _ => exact hw.frame rfl rfl (fun _ hs => .inl hs) nofun
  | halfway here => exact hw.frame rfl rfl (fun _ hs => .inl hs) fun a ha => hin here a ha
  | paired here =>
    exact hw.frame rfl rfl (fun _ hs => .inl hs) fun a ha =>
      hin here a ((List.Perm.swap ..).subset ha)

end Own

/-- The second call that a thread is in, after its first section. -/
def Pc.second? : Pc ω → Option (Str × Answer ω)
  | .looking key (.language first) => some (key, first)
  | .deciding key (.language first) _ _ => some (key, first)
  | _ => none

/-- What a late second call missed has expired, if it is there at all. -/
def Stale (w : World ω) : Prop :=
  ∀ t key first, (w.pcs t).second? = some (key, first) →
    ∀ entry, w.cache.find? key = some entry → w.source key = first.lookup →
      entry.expires ≤ w.clock

namespace Stale

variable {h : Host} {w w' : World ω} {t : Tid}

/-- The first half is in hand during the second call. -/
theorem mem_answers {pc : Pc ω} {key : Str} {first : Answer ω}
    (hsecond : pc.second? = some (key, first)) : first ∈ pc.answers := by
  cases pc with
  | looking key' task =>
    cases task with
    | language first' =>
      cases hsecond
      exact List.mem_singleton_self _
    | _ => cases hsecond
  | deciding key' task lookup o =>
    cases task with
    | language first' =>
      cases hsecond
      exact List.mem_singleton_self _
    | _ => cases hsecond
  | _ => cases hsecond

/-- A step that puts nothing into the cache. -/
theorem frame (hw : Stale w)
    (hcache : ∀ key entry, w'.cache.find? key = some entry → w.cache.find? key = some entry)
    (hstores : w'.stores = w.stores) (hclock : w.clock ≤ w'.clock) {pc : Pc ω}
    (hpcs : w'.pcs = Function.update w.pcs t pc)
    (hpc : ∀ key first, pc.second? = some (key, first) → ∀ entry,
      w.cache.find? key = some entry → w.source key = first.lookup → entry.expires ≤ w.clock) :
    Stale w' := by
  intro t' key first hsecond entry hfind hsource
  have hsource' : w.source key = first.lookup := by
    unfold World.source World.latest at hsource ⊢
    rwa [hstores] at hsource
  rw [hpcs] at hsecond
  by_cases ht : t' = t
  · rw [ht, Function.update_self] at hsecond
    exact (hpc key first hsecond entry (hcache key entry hfind) hsource').trans hclock
  · rw [Function.update_of_ne ht] at hsecond
    exact (hw t' key first hsecond entry (hcache key entry hfind) hsource').trans hclock

/-- A lookup that is put in is not the one that another thread's first half is from. -/
theorem store (hw : Stale w) (hown : Own w) {key : Str} {task : Task ω} {lookup : ℕ}
    {o : Outcome ω} {stamp : ℚ} (here : w.pcs t = .deciding key task lookup o)
    (hlater : w.clock ≤ stamp) :
    Stale ({ w with
      clock := stamp
      cache := w.cache.use maxCachedExits (key, o.entry h stamp)
      stores := ⟨key, lookup, stamp, o.entry h stamp⟩ :: w.stores }.goto t
        (.returned key task ⟨lookup, o.zone, o.language⟩)) := by
  intro t' key' first hsecond entry hfind hsource
  by_cases ht : t' = t
  · rw [ht, World.goto_self] at hsecond
    cases hsecond
  · rw [World.goto_other _ _ ht] at hsecond
    have hpush := Dict.find?_of_trim hfind
    rw [Dict.find?_push] at hpush
    unfold World.source World.latest at hsource
    by_cases hkey : key' = key
    · have hlookup : lookup = first.lookup := by
        rwa [World.goto, List.find?_cons_of_pos (by simpa using hkey.symm)] at hsource
      exact absurd hlookup.symm (hown.answered t lookup (congrArg Pc.pending? here) t' first
        (mem_answers hsecond))
    · rw [if_neg hkey] at hpush
      rw [World.goto, List.find?_cons_of_neg (by simpa using Ne.symm hkey)] at hsource
      exact (hw t' key' first hsecond entry hpush hsource).trans hlater

theorem move (hw : Stale w) (hown : Own w) (heffect : Effect h w t w') : Stale w' := by
  have hat := hw t
  cases heffect with
  | started _ hopens =>
    obtain rfl | ⟨key, rfl | rfl⟩ := hopens
    · exact hw.frame (fun _ _ h => h) rfl (le_refl _) rfl nofun
    · exact hw.frame (fun _ _ h => h) rfl (le_refl _) rfl nofun
    · exact hw.frame (fun _ _ h => h) rfl (le_refl _) rfl nofun
  | hit _ _ _ => exact hw.frame (fun _ _ h => h) rfl (le_refl _) rfl nofun
  | @missed key task here hstale =>
    refine hw.frame (fun _ _ h => h) rfl (le_refl _) rfl fun key' first hsecond entry hfind _ => ?_
    cases task with
    | language first' =>
      cases hsecond
      exact hstale entry hfind
    | _ => cases hsecond
  | @found key task zone language here =>
    rw [here] at hat
    refine hw.frame (fun _ _ h => h) rfl (le_refl _) rfl fun key' first hsecond => ?_
    cases task with
    | language first' =>
      cases hsecond
      exact hat key first rfl
    | _ => cases hsecond
  | escaped _ => exact hw.frame (fun _ _ h => h) rfl (le_refl _) rfl nofun
  | kept _ hlater _ _ _ _ => exact hw.frame (fun _ _ h => h) rfl hlater rfl nofun
  | stored here hlater _ _ => exact hw.store hown here hlater
  | @overflowed key _ _ _ _ _ hlater _ =>
    exact hw.frame (fun _ _ hfind => (Dict.find?_of_erase hfind).2) rfl hlater rfl nofun
  | halfway _ => exact hw.frame (fun _ _ h => h) rfl (le_refl _) rfl nofun
  | paired _ => exact hw.frame (fun _ _ h => h) rfl (le_refl _) rfl nofun

end Stale

/-- What tells the lookups apart. -/
structure Told (h : Host) (w : World ω) : Prop where
  sourced : Sourced h w
  own : Own w
  stale : Stale w

namespace Told

variable {h : Host} {w w' : World ω}

theorem step (hw : Told h w) {a : Act ω} (hstep : Geo.step h w a = some w') : Told h w' := by
  cases a with
  | tick now =>
    obtain ⟨hlater, rfl⟩ := step_tick hstep
    exact ⟨hw.sourced.tick now, ⟨hw.own.stored, hw.own.answered, hw.own.alone⟩,
      fun t key first hsecond entry hfind hsource =>
        (hw.stale t key first hsecond entry hfind hsource).trans hlater⟩
  | run t move =>
    have heffect := step_effect hstep
    exact ⟨hw.sourced.move heffect, hw.own.move hw.sourced heffect, hw.stale.move hw.own heffect⟩

theorem init (now : ℚ) : Told h (World.init now : World ω) :=
  ⟨.init now, ⟨fun _ _ h => (nomatch h), fun _ _ h => (nomatch h), fun _ _ _ h => (nomatch h)⟩,
    fun _ _ _ h => (nomatch h)⟩

theorem run {G : World ω → Act ω → Prop} (hrun : Run (Geo.step h) G w w') (hw : Told h w) :
    Told h w' :=
  hrun.invariant (fun _ _ _ hw _ hstep => hw.step hstep) hw

end Told

/-- A call of `browser_identity` whose second half is not from the lookup of its first. -/
def Pc.Late (first : Answer ω) : Pc ω → Prop
  | .looking _ (.language first') => first' = first
  | .deciding _ (.language first') _ _ => first' = first
  | .returned _ (.language first') second => first' = first ∧ second.lookup ≠ first.lookup
  | .identity first' second => first' = first ∧ second.lookup ≠ first.lookup
  | .raised => True
  | _ => False

/-- The thread begins no other call. -/
def Within (t : Tid) (_ : World ω) (a : Act ω) : Prop :=
  ∀ proxy both, a ≠ .run t (.start proxy both)

namespace Late

variable {h : Host} {w w' : World ω} {t : Tid} {first : Answer ω}

/-- A call that comes too late has the other lookup, or is about to. -/
theorem of_consult {key : Str} (here : w.pcs t = .consult key (.language first))
    (hgone : ¬ StillThere w key first) (heffect : Effect h w t w') : (w'.pcs t).Late first := by
  cases heffect with
  | started hended _ =>
    rw [here] at hended
    cases hended
  | @hit key' task entry here' hfind hfresh =>
    cases here.symm.trans here'
    rw [World.goto_self]
    exact ⟨rfl, fun hsource => hgone ⟨entry, hfind, hfresh, hsource⟩⟩
  | missed here' _ =>
    cases here.symm.trans here'
    rw [World.goto_self]
    exact rfl
  | found here' => cases here.symm.trans here'
  | escaped here' => cases here.symm.trans here'
  | kept here' _ _ _ _ _ => cases here.symm.trans here'
  | stored here' _ _ _ => cases here.symm.trans here'
  | overflowed here' _ _ => cases here.symm.trans here'
  | halfway here' => cases here.symm.trans here'
  | paired here' => cases here.symm.trans here'

theorem move (hw : Told h w) (hlate : (w.pcs t).Late first) (hgoing : (w.pcs t).ended = false)
    (heffect : Effect h w t w') : (w'.pcs t).Late first := by
  cases heffect with
  | started hended _ =>
    rw [hgoing] at hended
    cases hended
  | hit here _ _ =>
    rw [here] at hlate
    exact hlate.elim
  | missed here _ =>
    rw [here] at hlate
    exact hlate.elim
  | @found key task _ _ here =>
    rw [here] at hlate
    rw [World.find, World.goto_self]
    cases task with
    | language first' => exact hlate
    | _ => exact hlate.elim
  | escaped _ =>
    rw [World.goto_self]
    trivial
  | @kept key task lookup _ _ entry here _ _ hfind _ hfresh =>
    rw [here] at hlate
    rw [World.goto_self]
    cases task with
    | language first' =>
      obtain rfl : first' = first := hlate
      refine ⟨rfl, fun hsource => ?_⟩
      have hexpired := hw.stale t key first' (by rw [here]; rfl) entry hfind hsource
      exact absurd hfresh (not_lt.mpr hexpired)
    | _ => exact hlate.elim
  | @stored key task lookup _ _ here _ _ _ =>
    rw [here] at hlate
    rw [World.goto_self]
    cases task with
    | language first' =>
      obtain rfl : first' = first := hlate
      refine ⟨rfl, fun hlookup => ?_⟩
      have hmem : first' ∈ (w.pcs t).answers := by
        rw [here]
        exact List.mem_singleton_self _
      exact hw.own.answered t lookup (congrArg Pc.pending? here) t first' hmem hlookup.symm
    | _ => exact hlate.elim
  | overflowed _ _ _ =>
    rw [World.goto_self]
    trivial
  | halfway here =>
    rw [here] at hlate
    exact hlate.elim
  | paired here =>
    rw [here] at hlate
    rw [World.goto_self]
    exact hlate

theorem step (hw : Told h w) (hlate : (w.pcs t).Late first) {a : Act ω} (hwithin : Within t w a)
    (hstep : Geo.step h w a = some w') : (w'.pcs t).Late first := by
  cases a with
  | tick now =>
    obtain ⟨-, rfl⟩ := step_tick hstep
    exact hlate
  | run t' move' =>
    by_cases ht : t = t'
    · subst ht
      refine move hw hlate ?_ (step_effect hstep)
      by_contra hended
      rw [Bool.not_eq_false] at hended
      obtain ⟨proxy, both, rfl⟩ := move_ended hended hstep
      exact hwithin proxy both rfl
    · rw [(step_effect hstep).other ht]
      exact hlate

theorem run (hw : Told h w) (hlate : (w.pcs t).Late first)
    (hrun : Run (Geo.step h) (Within t) w w') : (w'.pcs t).Late first := by
  have hboth : Told h w' ∧ (w'.pcs t).Late first :=
    hrun.invariant (I := fun w => Told h w ∧ (w.pcs t).Late first)
      (fun _ _ _ hw hwithin hstep => ⟨hw.1.step hstep, step hw.1 hw.2 hwithin hstep⟩) ⟨hw, hlate⟩
  exact hboth.2

end Late

/-- **The two halves are from one lookup** in every state of every run in which no second
call comes too late, and a call whose second one does come too late never returns halves of
one lookup. -/
theorem identity_one_lookup (h : Host) {now : ℚ} {w : World ω} :
    (Run (step h) Steady (World.init now) w → OneLookup w) ∧
    (Run (step h) Any (World.init now) w →
      ∀ t key first w₁, w.pcs t = .consult key (.language first) → ¬ StillThere w key first →
        step h w (.run t .consult) = some w₁ → ∀ w₂, Run (step h) (Within t) w₁ w₂ →
          ∀ first' second, w₂.pcs t = .identity first' second →
            first' = first ∧ second.lookup ≠ first.lookup) := by
  refine ⟨steady_one_lookup, ?_⟩
  intro hrun t key first w₁ here hgone hstep w₂ hrest first' second hat
  have htold : Told h w₁ := (Told.run hrun (.init now)).step hstep
  have hlate := Late.run htold (Late.of_consult here hgone (step_effect hstep)) hrest
  rw [hat] at hlate
  exact hlate

/-! ## The halves of two lookups -/

deriving instance DecidableEq for Half

theorem stillThere_iff {w : World ω} {key : Str} {first : Answer ω} :
    ((w.cache.find? key).any fun entry =>
      decide (w.clock < entry.expires) && w.source key == first.lookup) = true ↔
      StillThere w key first := by
  unfold StillThere
  cases w.cache.find? key with
  | none => exact iff_of_false Bool.false_ne_true fun ⟨_, h, _⟩ => nomatch h
  | some entry =>
    rw [Option.any_some, Bool.and_eq_true, decide_eq_true_iff, beq_iff_eq]
    exact ⟨fun hthere => ⟨entry, rfl, hthere⟩, fun ⟨_, hfind, hthere⟩ =>
      Option.some.inj hfind ▸ hthere⟩

instance {w : World ω} {key : Str} {first : Answer ω} : Decidable (StillThere w key first) :=
  decidable_of_iff _ stillThere_iff

/-- The second call that a thread is about to make. -/
def Pc.again? : Pc ω → Option (Str × Answer ω)
  | .consult key (.language first) => some (key, first)
  | _ => none

theorem Pc.again?_eq_some {pc : Pc ω} {key : Str} {first : Answer ω} :
    pc.again? = some (key, first) ↔ pc = .consult key (.language first) := by
  constructor
  · intro hpc
    cases pc with
    | consult key' task =>
      cases task with
      | language first' =>
        cases hpc
        rfl
      | _ => cases hpc
    | _ => cases hpc
  · rintro rfl
    rfl

/-- `Steady`, as a test. -/
def steadily (w : World ω) : Act ω → Bool
  | .run t .consult => (w.pcs t).again?.all fun (key, first) => decide (StillThere w key first)
  | _ => true

theorem steady_of_steadily (w : World ω) (a : Act ω) (htest : steadily w a = true) :
    Steady w a := by
  rintro t key first rfl here
  unfold steadily at htest
  dsimp only at htest
  rw [Pc.again?_eq_some.mpr here, Option.all_some] at htest
  exact of_decide_eq_true htest

/-- The two halves that a thread has returned. -/
def Pc.identity? : Pc ω → Option (Answer ω × Answer ω)
  | .identity first second => some (first, second)
  | _ => none

theorem Pc.eq_identity {pc : Pc ω} {first second : Answer ω}
    (hpc : pc.identity? = some (first, second)) : pc = .identity first second := by
  cases pc with
  | identity first' second' =>
    cases hpc
    rfl
  | _ => cases hpc

/-- Two requests go through one exit, and both look it up. -/
def bothMiss : List (Act Str) :=
  [.run 0 (.start none true), .run 0 .consult, .run 1 (.start none false), .run 1 .consult]

/-- The lookup of the first fails and its fallback is put in. -/
def fallback : List (Act Str) := [.run 0 (.find none none), .run 0 (.conclude 15), .run 0 .resume]

/-- The lookup of the second succeeds. -/
def success : List (Act Str) :=
  [.run 1 (.find (some (.object (.of "Europe/Berlin".toList)))
    (some (.object (.of "de-DE".toList)))), .run 1 (.conclude 16)]

/-- One request, whose lookup succeeds. -/
def untroubled : List (Act Str) :=
  [.run 0 (.start none true), .run 0 .consult,
    .run 0 (.find (some (.object (.of "Europe/Berlin".toList)))
      (some (.object (.of "de-DE".toList)))),
    .run 0 (.conclude 15), .run 0 .resume, .run 0 .consult, .run 0 .resume]

theorem identity_one_lookup_plain :
    (∃ w : World Str, Run (step plainHost) Steady (World.init 0) w ∧
      (∃ first second, w.pcs 0 = .identity first second) ∧ OneLookup w) ∧
    ∃ w : World Str, ∃ first second, w.pcs 0 = .identity first second ∧
      second.lookup ≠ first.lookup := by
  constructor
  · have hends : ∃ w : World Str, Run (step plainHost) Steady (World.init 0) w ∧
        (w.pcs 0).identity?.isSome = true :=
      Run.of_exec_test steady_of_steadily untroubled (by decide +kernel)
    obtain ⟨w, hrun, hpair⟩ := hends
    obtain ⟨pair, hat⟩ := Option.isSome_iff_exists.mp hpair
    exact ⟨w, hrun, ⟨pair.1, pair.2, Pc.eq_identity hat⟩,
      (identity_one_lookup plainHost).1 hrun⟩
  · have hends : ∃ w : World Str, Run (step plainHost) Any (World.init 0) w ∧
        ((w.pcs 0).again?.any (fun (key, first) => !decide (StillThere w key first)) &&
          (step plainHost w (.run 0 .consult)).any fun w₁ =>
            (step plainHost w₁ (.run 0 .resume)).any fun w₂ => (w₂.pcs 0).identity?.isSome) =
          true :=
      Run.of_exec_any (bothMiss ++ fallback ++ success) (by decide +kernel)
    obtain ⟨w, hrun, htest⟩ := hends
    rw [Bool.and_eq_true] at htest
    obtain ⟨⟨key, first⟩, hagain, hgone⟩ := (Option.any_eq_true ..).mp htest.1
    obtain ⟨w₁, h₁, htest₁⟩ := (Option.any_eq_true ..).mp htest.2
    obtain ⟨w₂, h₂, hpair⟩ := (Option.any_eq_true ..).mp htest₁
    obtain ⟨⟨first', second⟩, hat⟩ := Option.isSome_iff_exists.mp hpair
    have hwithin : Within 0 w₁ (.run 0 .resume) := fun _ _ h => nomatch h
    have hrest : Run (step plainHost) (Within 0) w₁ w₂ := .tail (.refl w₁) hwithin h₂
    obtain ⟨rfl, hother⟩ := (identity_one_lookup plainHost).2 hrun 0 key first w₁
      (Pc.again?_eq_some.mp hagain) (by simpa using hgone) h₁ w₂ hrest first' second
      (Pc.eq_identity hat)
    exact ⟨w₂, first', second, Pc.eq_identity hat, hother⟩

/-- The container's timezone goes out with the language of the exit. -/
theorem halves_of_two_lookups : ∃ w : World Str,
    Run (step plainHost) Any (World.init 0) w ∧ ∃ first second,
      w.pcs 0 = .identity first second ∧ second.lookup ≠ first.lookup ∧
        first.pair.1 = .text (.of "UTC".toList) ∧
        second.pair.2 = .object (.of "de-DE".toList) ∧
        ∀ o ∈ w.outcomes, (first.pair.1, second.pair.2) ≠ (o.zone, o.language) := by
  have hends : ∃ w : World Str, Run (step plainHost) Any (World.init 0) w ∧
      (w.pcs 0).identity?.any (fun (first, second) => second.lookup != first.lookup &&
        (first.pair.1 == .text (.of "UTC".toList) &&
          (second.pair.2 == .object (.of "de-DE".toList) &&
            w.outcomes.all fun o => (first.pair.1, second.pair.2) != (o.zone, o.language)))) =
        true :=
    Run.of_exec_any (bothMiss ++ fallback ++ success ++ [.run 0 .consult, .run 0 .resume])
      (by decide +kernel)
  obtain ⟨w, hrun, hpair⟩ := hends
  obtain ⟨⟨first, second⟩, hat, hmixed⟩ := (Option.any_eq_true ..).mp hpair
  simp only [Bool.and_eq_true, bne_iff_ne, beq_iff_eq, List.all_eq_true] at hmixed
  exact ⟨w, hrun, first, second, Pc.eq_identity hat, hmixed⟩

end Solverr.Geo
