import Solverr.Geo.Calls
import Solverr.Lib.Lru

/-!
# How long a pair is remembered

A lookup that fails may end after one that succeeds, and its second section finds the
complete pair and leaves it. So the last complete pair that was put under a key stays until
it expires or enough other exits have pushed it out, and is then only replaced by a complete
one that expires later. `Keeps` is the invariant, over the history of what was put into the
cache: `recent` says of every complete pair in it that is still good that its key is in the
cache with a complete entry, behind none but the exits that were put in since.
-/

namespace Solverr.Geo

open Solverr.Lib

variable {ω : Type}

/-- The other exits of these entries. -/
def others (key : Str) (stores : List (Stored ω)) : Finset Str :=
  (stores.map Stored.key).toFinset.erase key

/-- A complete pair that has not expired, and that few enough other exits were put in after
to push it out. -/
structure Good (w : World ω) (newer : List (Stored ω)) (s : Stored ω) : Prop where
  complete : s.entry.complete = true
  fresh : w.clock < s.entry.expires
  few : (others s.key newer).card < maxCachedExits

/-- What every step keeps. -/
structure Keeps (h : Host) (w : World ω) : Prop where
  size : w.cache.size ≤ maxCachedExits
  timed : ∀ s ∈ w.stores, s.stamp ≤ w.clock ∧ s.entry.expires = s.stamp + ttl h s.entry.complete
  fits : ∀ s ∈ w.stores, ttl h s.entry.complete < floatLimit
  recent : ∀ newer s older, w.stores = newer ++ s :: older → Good w newer s →
    ∃ entry, w.cache.Recent s.key entry (others s.key newer) ∧ entry.complete = true ∧
      s.entry.expires ≤ entry.expires

theorem others_cons_self {key : Str} {s : Stored ω} (hkey : s.key = key)
    (stores : List (Stored ω)) : others key (s :: stores) = others key stores := by
  unfold others
  rw [List.map_cons, List.toFinset_cons, hkey, Finset.erase_insert_eq_erase]

theorem others_cons_of_ne {key : Str} {s : Stored ω} (hkey : s.key ≠ key)
    (stores : List (Stored ω)) : others key (s :: stores) = insert s.key (others key stores) := by
  unfold others
  rw [List.map_cons, List.toFinset_cons, Finset.erase_insert_of_ne hkey]

theorem others_subset_cons (key : Str) (s : Stored ω) (stores : List (Stored ω)) :
    others key stores ⊆ others key (s :: stores) := by
  by_cases hkey : s.key = key
  · rw [others_cons_self hkey]
  · rw [others_cons_of_ne hkey]
    exact Finset.subset_insert ..

namespace Keeps

variable {h : Host} {w w' : World ω} {t : Tid}

/-- Time passes, and nothing else happens to the cache. -/
theorem frame (hw : Keeps h w) (hcache : w'.cache = w.cache) (hstores : w'.stores = w.stores)
    (hclock : w.clock ≤ w'.clock) : Keeps h w' := by
  refine ⟨hcache ▸ hw.size, fun s hs => ?_, fun s hs => hw.fits s (hstores ▸ hs), ?_⟩
  · obtain ⟨hstamp, hexpires⟩ := hw.timed s (hstores ▸ hs)
    exact ⟨hstamp.trans hclock, hexpires⟩
  · intro newer s older hsplit hgood
    rw [hcache]
    exact hw.recent newer s older (hstores ▸ hsplit)
      ⟨hgood.complete, hclock.trans_lt hgood.fresh, hgood.few⟩

/-- A complete pair that was put in later expires no earlier. -/
theorem expires_le (hw : Keeps h w) {s : Stored ω} (hs : s ∈ w.stores)
    (hcomplete : s.entry.complete = true) {stamp : ℚ} (hlater : w.clock ≤ stamp) :
    s.entry.expires ≤ stamp + ttl h true := by
  obtain ⟨hstamp, hexpires⟩ := hw.timed s hs
  rw [hexpires, hcomplete]
  exact add_le_add_left (hstamp.trans hlater) _

/-- **A lookup that is put in its place** leaves every complete pair that is still good. -/
theorem store (hw : Keeps h w) {key : Str} {lookup : ℕ} {o : Outcome ω} {stamp : ℚ}
    {pcs : Tid → Pc ω} (hlater : w.clock ≤ stamp)
    (hkept : kept w.cache key w.clock o.complete = none) (hfits : ttl h o.complete < floatLimit) :
    Keeps h { w with
      clock := stamp
      cache := w.cache.use maxCachedExits (key, o.entry h stamp)
      stores := ⟨key, lookup, stamp, o.entry h stamp⟩ :: w.stores
      pcs := pcs } := by
  refine ⟨Dict.size_trim_le _ _, ?_, ?_, ?_⟩
  · intro s hs
    rcases List.mem_cons.mp hs with rfl | hold
    · exact ⟨le_refl _, rfl⟩
    · exact ⟨(hw.timed s hold).1.trans hlater, (hw.timed s hold).2⟩
  · intro s hs
    rcases List.mem_cons.mp hs with rfl | hold
    · exact hfits
    · exact hw.fits s hold
  · intro newer s older hsplit hgood
    cases newer with
    | nil =>
      -- the pair that is put in now
      obtain ⟨rfl, -⟩ := List.cons.inj hsplit
      refine ⟨o.entry h stamp, ?_, hgood.complete, le_refl _⟩
      exact ((Dict.Recent.push_self w.cache key (o.entry h stamp)).trim (by decide)).mono
        (Finset.empty_subset _)
    | cons s' newer =>
      obtain ⟨rfl, hrest⟩ := List.cons.inj hsplit
      have hmem : s ∈ w.stores := hrest ▸ List.mem_append_right _ (List.mem_cons_self ..)
      have hfew : (others s.key newer).card < maxCachedExits :=
        (Finset.card_le_card (others_subset_cons ..)).trans_lt hgood.few
      have hfresh : w.clock < s.entry.expires := hlater.trans_lt hgood.fresh
      obtain ⟨entry, hrecent, hcomplete, hexpires⟩ :=
        hw.recent newer s older hrest ⟨hgood.complete, hfresh, hfew⟩
      by_cases hkey : key = s.key
      · have hown : o.complete = true :=
          complete_of_displaces hkept (hkey ▸ hrecent.find?) hcomplete (hfresh.trans_le hexpires)
        refine ⟨o.entry h stamp, ?_, hown, ?_⟩
        · rw [← hkey]
          exact ((Dict.Recent.push_self w.cache key (o.entry h stamp)).trim (by decide)).mono
            (Finset.empty_subset _)
        · show s.entry.expires ≤ stamp + ttl h o.complete
          rw [hown]
          exact hw.expires_le hmem hgood.complete hlater
      · refine ⟨entry, ?_, hcomplete, hexpires⟩
        have hothers := hgood.few
        rw [others_cons_of_ne hkey] at hothers ⊢
        exact (hrecent.push_other hkey).trim hothers

theorem move (hw : Keeps h w) (heffect : Effect h w t w') : Keeps h w' := by
  cases heffect with
  | started _ _ => exact hw.frame rfl rfl (le_refl _)
  | hit _ _ _ => exact hw.frame rfl rfl (le_refl _)
  | missed _ _ => exact hw.frame rfl rfl (le_refl _)
  | found _ => exact hw.frame rfl rfl (le_refl _)
  | escaped _ => exact hw.frame rfl rfl (le_refl _)
  | kept _ hlater _ _ _ _ => exact hw.frame rfl rfl hlater
  | stored _ hlater hkept hfits => exact hw.store hlater hkept hfits
  | overflowed _ hlater hover =>
    -- no complete pair was ever put in
    refine ⟨?_, ?_, hw.fits, ?_⟩
    · exact (List.length_filter_le ..).trans hw.size
    · exact fun s hs => ⟨(hw.timed s hs).1.trans hlater, (hw.timed s hs).2⟩
    · intro newer s older hsplit hgood
      have hmem : s ∈ w.stores := hsplit ▸ List.mem_append_right _ (List.mem_cons_self ..)
      have hfits := hw.fits s hmem
      rw [hgood.complete] at hfits
      exact absurd hover (not_le.mpr hfits)
  | halfway _ => exact hw.frame rfl rfl (le_refl _)
  | paired _ => exact hw.frame rfl rfl (le_refl _)

theorem step (hw : Keeps h w) {a : Act ω} (hstep : Geo.step h w a = some w') : Keeps h w' := by
  cases a with
  | tick now =>
    obtain ⟨hlater, rfl⟩ := step_tick hstep
    exact hw.frame rfl rfl hlater
  | run t move => exact hw.move (step_effect hstep)

theorem init (now : ℚ) : Keeps h (World.init now : World ω) := by
  refine ⟨Nat.zero_le _, fun _ hs => (nomatch hs), fun _ hs => (nomatch hs),
    fun newer _ _ hs _ => ?_⟩
  cases newer <;> cases hs

theorem run (hrun : Run (Geo.step h) Any w w') (hw : Keeps h w) : Keeps h w' :=
  hrun.invariant (fun _ _ _ hw _ hstep => hw.step hstep) hw

end Keeps

/-! ## What a call returns meanwhile -/

/-- The exit that a thread is about to look up in the cache, before its lookup or after. -/
def Pc.section? : Pc ω → Option Str
  | .consult key _ => some key
  | .deciding key _ _ _ => some key
  | _ => none

theorem Pc.not_ended {pc : Pc ω} {key : Str} (hsection : pc.section? = some key) :
    pc.ended = false := by
  cases pc with
  | consult => rfl
  | deciding => rfl
  | _ => cases hsection

/-- A section that runs while a complete pair is still good returns a complete pair. -/
theorem returned_complete {h : Host} {w w' : World ω} {t : Tid} {key : Str} {entry : Entry ω}
    (hw : Sourced h w) (hfits : ttl h true < floatLimit)
    (hfind : w.cache.find? key = some entry) (hcomplete : entry.complete = true)
    (hfresh : w.clock < entry.expires) (hsection : (w.pcs t).section? = some key)
    (heffect : Effect h w t w') :
    ∃ task answer o, w'.pcs t = .returned key task answer ∧
      w'.outcomes[answer.lookup]? = some o ∧ o.complete = true ∧
      answer.pair = (o.zone, o.language) := by
  obtain ⟨o, stamp, ho, rfl⟩ := hw.source hfind
  cases heffect with
  | started hended _ =>
    rw [Pc.not_ended hsection] at hended
    cases hended
  | @hit key' task entry' hat hfound _ =>
    rw [hat] at hsection
    cases hsection
    cases hfind.symm.trans hfound
    exact ⟨task, _, o, World.goto_self .., ho, hcomplete, rfl⟩
  | missed hat hstale =>
    rw [hat] at hsection
    cases hsection
    exact absurd hfresh (not_lt.mpr (hstale _ hfind))
  | found hat =>
    rw [hat] at hsection
    cases hsection
  | escaped hat =>
    rw [hat] at hsection
    cases hsection
  | @kept key' task lookup o' stamp' entry' hat _ _ hfound _ _ =>
    rw [hat] at hsection
    cases hsection
    cases hfind.symm.trans hfound
    exact ⟨task, _, o, World.goto_self .., ho, hcomplete, rfl⟩
  | @stored key' task lookup o' stamp' hat _ hkept _ =>
    rw [hat] at hsection
    cases hsection
    have hown := complete_of_displaces hkept hfind hcomplete hfresh
    exact ⟨task, _, o', World.goto_self .., hw.pending _ _ _ _ _ hat, hown, rfl⟩
  | overflowed _ _ hover => exact absurd hover (not_le.mpr hfits)
  | halfway hat =>
    rw [hat] at hsection
    cases hsection
  | paired hat =>
    rw [hat] at hsection
    cases hsection

/-- **A failed lookup never displaces a good one.** Whatever the calls and their lookups do
and in whichever order: a complete pair that was put in stays, or gives way to a complete one
that expires later, until it expires or 512 other exits were put in, and every section of a
call that runs meanwhile returns a complete pair. An incomplete pair is gone 60 seconds after
it was put in, and the cache holds 512 exits at most. -/
theorem good_pair_stays (h : Host) {now : ℚ} {w : World ω}
    (hrun : Run (step h) Any (World.init now) w) :
    (∀ newer s older, w.stores = newer ++ s :: older → Good w newer s →
      (∃ entry, w.cache.find? s.key = some entry ∧ entry.complete = true ∧
        s.entry.expires ≤ entry.expires) ∧
      ∀ t move w', (w.pcs t).section? = some s.key → step h w (.run t move) = some w' →
        ∃ task answer o, w'.pcs t = .returned s.key task answer ∧
          w'.outcomes[answer.lookup]? = some o ∧ o.complete = true ∧
          answer.pair = (o.zone, o.language)) ∧
    (∀ key entry, w.cache.find? key = some entry → entry.complete = false →
      ∃ s ∈ w.stores, s.key = key ∧ s.entry = entry ∧ s.stamp ≤ w.clock ∧
        ∀ now, s.stamp + 60 ≤ now → cachedPair w.cache key now = none) ∧
    w.cache.size ≤ 512 := by
  have hkeeps : Keeps h w := Keeps.run hrun (.init now)
  have hsourced : Sourced h w := Sourced.run hrun (.init now)
  refine ⟨fun newer s older hsplit hgood => ?_, fun key entry hfind hincomplete => ?_,
    hkeeps.size⟩
  · obtain ⟨entry, hrecent, hcomplete, hexpires⟩ := hkeeps.recent newer s older hsplit hgood
    have hmem : s ∈ w.stores := hsplit ▸ List.mem_append_right _ (List.mem_cons_self ..)
    have hfits := hkeeps.fits s hmem
    rw [hgood.complete] at hfits
    refine ⟨⟨entry, hrecent.find?, hcomplete, hexpires⟩, fun t move w' hsection hstep => ?_⟩
    exact returned_complete hsourced hfits hrecent.find? hcomplete
      (hgood.fresh.trans_le hexpires) hsection (step_effect hstep)
  · obtain ⟨s, hlatest, rfl⟩ := hsourced.found key entry hfind
    have hmem := List.mem_of_find?_eq_some hlatest
    obtain ⟨hstamp, hexpires⟩ := hkeeps.timed s hmem
    refine ⟨s, hmem, by simpa using List.find?_some hlatest, rfl, hstamp, fun now hnow => ?_⟩
    have hgone : s.entry.expires ≤ now := by
      rw [hexpires, hincomplete]
      exact hnow
    unfold cachedPair
    rw [hfind]
    exact if_neg (not_lt.mpr hgone)

/-- Two calls miss. The lookup of the first succeeds and is put in, and then that of the
second fails. -/
def slowFailure : List (Act Str) :=
  [.run 0 (.start none false), .run 0 .consult, .run 1 (.start none false), .run 1 .consult,
    .run 0 (.find (some (.object (.of "Europe/Berlin".toList)))
      (some (.object (.of "de-DE".toList)))),
    .run 0 (.conclude 15), .tick 30, .run 1 (.find none none)]

theorem good_pair_stays_slow : ∃ w : World Str, Run (step plainHost) Any (World.init 0) w ∧
    (∃ s entry, w.stores = [s] ∧ (w.pcs 1).section? = some s.key ∧
      w.cache.find? s.key = some entry ∧ entry.complete = true) ∧ w.cache.size ≤ 512 := by
  have hends : ∃ w : World Str, Run (step plainHost) Any (World.init 0) w ∧
      (w.stores.map fun s => s.entry.complete && (decide (w.clock < s.entry.expires) &&
        decide ((w.pcs 1).section? = some s.key))) = [true] :=
    Run.of_exec_any slowFailure (by decide +kernel)
  obtain ⟨w, hrun, hstored⟩ := hends
  obtain ⟨s, hs, hgood⟩ := List.map_eq_singleton_iff.mp hstored
  rw [Bool.and_eq_true, Bool.and_eq_true, decide_eq_true_iff, decide_eq_true_iff] at hgood
  obtain ⟨hcomplete, hfresh, hsection⟩ := hgood
  obtain ⟨hstays, -, hsize⟩ := good_pair_stays plainHost hrun
  obtain ⟨⟨entry, hfind, hentry, -⟩, -⟩ :=
    hstays [] s [] hs ⟨hcomplete, hfresh, by simp [others, maxCachedExits]⟩
  exact ⟨w, hrun, ⟨s, entry, hs, hsection, hfind, hentry⟩, hsize⟩

end Solverr.Geo
