import Solverr.Launch.Driver
import Solverr.Lib.Returns

/-!
# What a failed launch leaves behind

The directory of the extension is always gone: `create_proxy_extension` removes what it
could not fill, and the `finally` block the rest. The browser is another matter. Once the
process runs, only two things quit it: Selenium's constructor, where it fails itself, and
the wait for the extension, where it runs out. Whatever else raises from there on
(`Orphaned`) leaves the process, and `leaves_nothing_iff` says that nothing else does.
-/

namespace Solverr.Launch

open Solverr.Lib
open Solverr.Lib.Procedure

/-! ## The conditions -/

/-- A poll that answers, without the extension's worker. -/
def Quiet (x : Except Thrown (List Target)) : Prop :=
  ∃ targets, x = .ok targets ∧ targets.any Target.isWorker = false

/-- A poll that shows the worker. -/
def Shows (x : Except Thrown (List Target)) : Prop :=
  ∃ targets, x = .ok targets ∧ targets.any Target.isWorker = true

/-- Of so many polls from `i` on, one is like that, and all before it are quiet. -/
def First (like : Except Thrown (List Target) → Prop) (polls : ℕ → Except Thrown (List Target))
    (left i : ℕ) : Prop :=
  ∃ n < left, like (polls (i + n)) ∧ ∀ m < n, Quiet (polls (i + m))

/-- The wait sees the worker. -/
def World.Seen (w : World) : Prop := First Shows w.polls extensionLoadPolls 0

/-- A poll raises before the worker is seen. -/
def World.Breaks (w : World) : Prop := First (¬ Returns ·) w.polls extensionLoadPolls 0

/-- A proxy with credentials. -/
def isAuthenticated : Json → Bool
  | .obj fields => authenticated fields
  | _ => false

/-- The extension of the proxy is written. -/
structure Written (w : World) (fields : List (Str × Json)) : Prop where
  parsed : ∃ parts, urlparse w.urls (field fields (flag "url")) = .ok parts ∧ Returns (port parts)
  mkdtemp : Returns w.mkdtemp
  manifest : Returns w.writeManifest
  background : Returns w.writeBackground

/-- What comes before the `try` block returns. -/
structure Arranged (w : World) (proxy : Json) : Prop where
  configured : ∃ cfg, config proxy = .ok cfg ∧ Returns (w.language cfg)
  extension : ∀ fields, proxy = .obj fields → authenticated fields = true → Written w fields

/-- The `try` block gets as far as the process. -/
structure Ready (w : World) : Prop where
  display : (w.headless && !w.windows) = true → Returns w.display
  version : w.docker = false → Returns w.majorVersion
  chromePath : Returns w.chromePath
  preparation : Returns w.preparation

/-- The constructor of `Chrome` returns, from the process on. -/
structure Constructed (w : World) : Prop where
  process : w.construction.process = .ok ()
  service : Returns w.construction.service
  session : w.construction.session = .ok ()

/-- What raises with the process running and leaves it: the start itself, or the driver's
service; Selenium's constructor without a `quit`; a poll, for a proxy with credentials; the
copy of the patched driver. -/
inductive Orphaned (w : World) (proxy : Json) : Prop
  | process (e : Thrown) (raises : w.construction.process = .error (e, true))
  | service (process : w.construction.process = .ok ())
      (raises : ¬ Returns w.construction.service)
  | session (process : w.construction.process = .ok ()) (service : Returns w.construction.service)
      (e : Thrown) (raises : w.construction.session = .error (e, false))
  | poll (constructed : Constructed w) (credentials : isAuthenticated proxy = true)
      (breaks : w.Breaks)
  | copy (constructed : Constructed w)
      (seen : isAuthenticated proxy = true → w.Seen)
      (patches : w.patches = true) (moves : w.patchedMoves = true) (raises : ¬ Returns w.copy)

/-- The launch gets as far as the process, and loses it. -/
structure Lost (w : World) (proxy : Json) : Prop where
  arranged : Arranged w proxy
  ready : Ready w
  orphaned : Orphaned w proxy

/-! ## The property -/

/-- `quit` was called on every browser that runs. -/
def AllQuit (f : Frame) : Prop := ∀ b ∈ f.browser, b.quit = true

/-- The directory is gone. Where the launch raised, so is the browser; where it returned,
the worker of an extension was seen. -/
def LeavesNothing (proxy : Json) : Except Thrown Unit × Frame → Prop :=
  Ends (fun _ f => f.directory = none ∧ (isAuthenticated proxy = true → f.workerSeen = true))
    fun _ f => f.directory = none ∧ AllQuit f

/-! ## The wait -/

section Wait

variable {polls : ℕ → Except Thrown (List Target)} {left i : ℕ}

theorem Quiet.returns {x : Except Thrown (List Target)} (h : Quiet x) : Returns x := by
  obtain ⟨targets, h, -⟩ := h
  exact ⟨targets, h⟩

theorem Shows.returns {x : Except Thrown (List Target)} (h : Shows x) : Returns x := by
  obtain ⟨targets, h, -⟩ := h
  exact ⟨targets, h⟩

theorem Quiet.not_shows {x : Except Thrown (List Target)} (h : Quiet x) : ¬ Shows x := by
  obtain ⟨targets, rfl, hquiet⟩ := h
  rintro ⟨_, ⟨⟩, hshows⟩
  rw [hquiet] at hshows
  cases hshows

/-- After a quiet poll the others decide. -/
theorem first_succ {like : Except Thrown (List Target) → Prop} (hquiet : Quiet (polls i))
    (hlike : ¬ like (polls i)) : First like polls (left + 1) i ↔ First like polls left (i + 1) := by
  constructor
  · rintro ⟨n, hn, hstop, hbefore⟩
    cases n with
    | zero => exact absurd hstop hlike
    | succ n =>
      refine ⟨n, Nat.lt_of_succ_lt_succ hn, ?_, fun m hm => ?_⟩
      · rwa [Nat.add_assoc, Nat.add_comm 1]
      · rw [Nat.add_assoc, Nat.add_comm 1]
        exact hbefore (m + 1) (Nat.succ_lt_succ hm)
  · rintro ⟨n, hn, hstop, hbefore⟩
    refine ⟨n + 1, Nat.succ_lt_succ hn, ?_, fun m hm => ?_⟩
    · rwa [Nat.add_comm n, ← Nat.add_assoc]
    · cases m with
      | zero => exact hquiet
      | succ m =>
        rw [Nat.add_comm m, ← Nat.add_assoc]
        exact hbefore m (Nat.lt_of_succ_lt_succ hm)

theorem first_zero {like : Except Thrown (List Target) → Prop} : ¬ First like polls 0 i :=
  fun ⟨_, hn, _⟩ => absurd hn (Nat.not_lt_zero _)

theorem first_now {like : Except Thrown (List Target) → Prop} (h : like (polls i)) :
    First like polls (left + 1) i :=
  ⟨0, Nat.succ_pos _, h, fun _ hm => absurd hm (Nat.not_lt_zero _)⟩

/-- The wait cannot end in two ways. -/
theorem not_breaks_of_shows (hseen : First Shows polls left i) :
    ¬ First (¬ Returns ·) polls left i := by
  obtain ⟨n, -, hshows, hbefore⟩ := hseen
  rintro ⟨n', -, hraises, hbefore'⟩
  rcases lt_trichotomy n n' with hlt | rfl | hlt
  · exact (hbefore' n hlt).not_shows hshows
  · exact hraises hshows.returns
  · exact hraises (hbefore n' hlt).returns

/-- **How the wait ends**: with the worker, with the exception of a poll, or with the browser
quit. -/
theorem awaitFrom_ends (polls : ℕ → Except Thrown (List Target)) (left i : ℕ) (f : Frame) :
    First Shows polls left i ∧ awaitFrom polls left i f = (.ok (), f.see) ∨
    First (¬ Returns ·) polls left i ∧ (∃ e, awaitFrom polls left i f = (.error e, f)) ∨
    (¬ First Shows polls left i ∧ ¬ First (¬ Returns ·) polls left i) ∧
      awaitFrom polls left i f = (.error noWorker, f.quit) := by
  induction left generalizing i with
  | zero => exact .inr (.inr ⟨⟨first_zero, first_zero⟩, rfl⟩)
  | succ left ih =>
    cases hpoll : polls i with
    | error e =>
      refine .inr (.inl ⟨first_now (by simp [hpoll]), e, ?_⟩)
      rw [awaitFrom, hpoll]
      rfl
    | ok targets =>
      have hstep : awaitFrom polls (left + 1) i =
          if targets.any Target.isWorker then change Frame.see
          else awaitFrom polls left (i + 1) := by
        rw [awaitFrom, hpoll]
        rfl
      rw [hstep]
      cases hworker : targets.any Target.isWorker with
      | true => exact .inl ⟨first_now ⟨targets, hpoll, hworker⟩, rfl⟩
      | false =>
        have hquiet : Quiet (polls i) := ⟨targets, hpoll, hworker⟩
        rw [first_succ hquiet hquiet.not_shows, first_succ hquiet (not_not.mpr hquiet.returns),
          if_neg Bool.false_ne_true]
        exact ih (i + 1)

end Wait

/-! ## Before the `try` block -/

/-- Nothing was started and nothing is on the disk. -/
structure Bare (f : Frame) : Prop where
  directory : f.directory = none
  browser : f.browser = none

section Arrange

variable {w : World} {proxy : Json} {fields : List (Str × Json)}

/-- The two files are written, or the directory is there and they are not. -/
theorem writeExtension_meets (w : World) (background : Background) :
    Meets (fun f => f.browser = none) (writeExtension w background)
      (fun _ f => Returns w.writeManifest ∧ Returns w.writeBackground ∧ f.browser = none)
      fun _ f => ¬ (Returns w.writeManifest ∧ Returns w.writeBackground) ∧ f.browser = none := by
  unfold writeExtension
  refine meets_answer_bind (fun _ hmanifest => ?_) fun e he f hf => ?_
  · refine meets_answer_bind (fun _ hbackground => ?_) fun e he f hf => ?_
    · exact meets_change fun f hf => ⟨⟨_, hmanifest⟩, ⟨_, hbackground⟩, hf⟩
    · exact ⟨fun hboth => not_returns_error e (he ▸ hboth.2), hf⟩
  · exact ⟨fun hboth => not_returns_error e (he ▸ hboth.1), hf⟩

/-- **The extension** is written, or nothing of it stays on the disk. -/
theorem createProxyExtension_meets (w : World) (fields : List (Str × Json)) :
    Meets Bare (createProxyExtension w fields)
      (fun _ f => Written w fields ∧ f.browser = none)
      fun _ f => ¬ Written w fields ∧ Bare f := by
  unfold createProxyExtension
  refine meets_answer_bind (fun parts hparts => ?_) fun e he f hf => ?_
  · refine meets_answer_bind (fun number hport => ?_) fun e he f hf => ?_
    · refine meets_answer_bind (fun path hpath => ?_) fun e he f hf => ?_
      · refine meets_change_bind (fun f => f.browser = none) (fun f hf => hf.browser) ?_
        have hwrite : ∀ background, Meets (fun f => f.browser = none) (writeExtension w background)
            (fun _ f => Written w fields ∧ f.browser = none)
            fun _ f => ¬ Written w fields ∧ f.browser = none := fun background => by
          refine (writeExtension_meets w background).weaken (fun _ hf => hf) (fun _ f hf => ?_)
            fun _ f hf => ?_
          · exact ⟨⟨⟨parts, hparts, number, hport⟩, ⟨path, hpath⟩, hf.1, hf.2.1⟩, hf.2.2⟩
          · exact ⟨fun hwritten => hf.1 ⟨hwritten.manifest, hwritten.background⟩, hf.2⟩
        refine .bind ((hwrite _).handling fun e => ?_) fun _ => meets_pure fun _ hf => hf
        exact meets_change_bind _ (fun f hf => ⟨hf.1, rfl, hf.2⟩) (meets_raise fun _ hf => hf)
      · exact ⟨fun hwritten => not_returns_error e (he ▸ hwritten.mkdtemp), hf⟩
    · refine ⟨fun hwritten => ?_, hf⟩
      obtain ⟨parts', hparts', hport⟩ := hwritten.parsed
      obtain rfl := Except.ok.inj (hparts.symm.trans hparts')
      exact not_returns_error e (he ▸ hport)
  · refine ⟨fun hwritten => ?_, hf⟩
    obtain ⟨parts, hparts, -⟩ := hwritten.parsed
    exact nomatch he.symm.trans hparts

theorem config_ok {cfg : Option Geo.ProxyConfig} (h : config proxy = .ok cfg) :
    Geo.proxyToConfig proxy = .ok cfg := by
  unfold config at h
  cases hcfg : Geo.proxyToConfig proxy with
  | ok cfg' =>
    rw [hcfg] at h
    exact congrArg _ (Except.ok.inj h)
  | error e =>
    rw [hcfg] at h
    cases h

/-- A proxy that is accepted has a text for a URL. -/
theorem url_of_config {cfg : Option Geo.ProxyConfig} (hconfig : config (.obj fields) = .ok cfg)
    {url : Json} (hurl : Json.get? fields (flag "url") = some url) : ∃ s, url = .str s := by
  rcases Geo.proxyToConfig_ok (config_ok hconfig) with
    ⟨-, hnull | hempty⟩ | ⟨fields', s, hfields, hs, -⟩
  · cases hnull
  · cases hempty
    cases hurl
  · cases hfields
    exact ⟨s, Option.some.inj (hurl.symm.trans hs)⟩

/-- What `proxyArguments` comes to: the directory of an extension, for a proxy with
credentials. -/
def Switched (w : World) (proxy : Json) (directory : Option Str) (f : Frame) : Prop :=
  (∀ fields, proxy = .obj fields → authenticated fields = true → Written w fields) ∧
    directory.isSome = isAuthenticated proxy ∧ f.browser = none ∧
    (directory = none → f.directory = none)

theorem switched_none {f : Frame} (hauth : isAuthenticated proxy = false) (hf : Bare f) :
    Switched w proxy none f := by
  refine ⟨fun fields hproxy hcredentials => ?_, hauth.symm, hf.browser, fun _ => hf.directory⟩
  rw [hproxy, isAuthenticated, hcredentials] at hauth
  cases hauth

theorem withExtension_meets (hauth : authenticated fields = true) :
    Meets Bare (withExtension w fields) (Switched w (.obj fields))
      fun _ f => ¬ Written w fields ∧ Bare f := by
  unfold withExtension
  refine (createProxyExtension_meets w fields).bind fun path f hf => ?_
  obtain ⟨parts, hparts, -⟩ := hf.1.parsed
  rw [hparts, answer_ok_bind, change_bind_apply]
  refine ⟨fun fields' hfields _ => ?_, hauth.symm, hf.2, fun hnone => nomatch hnone⟩
  cases hfields
  exact hf.1

theorem proxyArguments_meets {cfg : Option Geo.ProxyConfig} (hconfig : config proxy = .ok cfg) :
    Meets Bare (proxyArguments w proxy) (Switched w proxy)
      fun _ f => ¬ Arranged w proxy ∧ Bare f := by
  cases proxy with
  | obj fields =>
    unfold proxyArguments
    refine .ite (fun hauth => ?_) fun hplain => ?_
    · refine (withExtension_meets hauth).weaken (fun _ hf => hf) (fun _ _ hf => hf) fun _ f hf => ?_
      exact ⟨fun harranged => hf.1 (harranged.extension fields rfl hauth), hf.2⟩
    · have hauth : isAuthenticated (.obj fields) = false := eq_false_of_ne_true hplain
      cases hurl : Json.get? fields (flag "url") with
      | none => exact meets_pure fun f hf => switched_none hauth hf
      | some url =>
        obtain ⟨s, rfl⟩ := url_of_config hconfig hurl
        refine meets_change_bind Bare (fun f hf => ⟨hf.directory, hf.browser⟩) ?_
        exact meets_pure fun f hf => switched_none hauth hf
  | _ => exact meets_pure fun f hf => switched_none rfl hf

/-- **Before the `try` block** nothing is left behind but the directory that the block is
about to use. -/
theorem arrange_meets (w : World) (proxy : Json) :
    Meets Bare (arrange w proxy)
      (fun directory f => Arranged w proxy ∧ Switched w proxy directory f)
      fun _ f => ¬ Arranged w proxy ∧ Bare f := by
  unfold arrange
  refine meets_answer_bind (fun cfg hconfig => ?_) fun e he f hf => ?_
  · refine meets_answer_bind (fun language hlanguage => ?_) fun e he f hf => ?_
    · refine meets_change_bind Bare (fun f hf => ⟨hf.directory, hf.browser⟩) ?_
      refine meets_change_bind Bare (fun f hf => ⟨hf.directory, hf.browser⟩) ?_
      refine meets_change_bind Bare (fun f hf => ⟨hf.directory, hf.browser⟩) ?_
      refine (proxyArguments_meets hconfig).weaken (fun _ hf => hf) (fun _ f hf => ?_)
        fun _ _ hf => hf
      exact ⟨⟨⟨cfg, hconfig, language, hlanguage⟩, hf.1⟩, hf⟩
    · refine ⟨fun harranged => ?_, hf⟩
      obtain ⟨cfg', hconfig', hlanguage⟩ := harranged.configured
      obtain rfl := Except.ok.inj (hconfig.symm.trans hconfig')
      exact not_returns_error e (he ▸ hlanguage)
  · refine ⟨fun harranged => ?_, hf⟩
    obtain ⟨cfg, hconfig, -⟩ := harranged.configured
    exact nomatch he.symm.trans hconfig

end Arrange

/-! ## The `try` block -/

/-- A browser runs, and `quit` was not called on it. -/
def Running (f : Frame) : Prop := ∃ b, f.browser = some b ∧ b.quit = false

theorem Running.not_allQuit {f : Frame} (h : Running f) : ¬ AllQuit f := by
  obtain ⟨b, hb, hquit⟩ := h
  intro hall
  rw [hall b hb] at hquit
  cases hquit

theorem allQuit_none {f : Frame} (h : f.browser = none) : AllQuit f := by
  intro b hb
  rw [h] at hb
  cases hb

theorem allQuit_quit (f : Frame) : AllQuit f.quit := by
  intro b hb
  obtain ⟨b', -, rfl⟩ := Option.map_eq_some_iff.mp hb
  rfl

section Launch

variable {w : World} {proxy : Json}

/-- What ends a launch with an exception: the browser is left exactly where it is lost. -/
def Raised (w : World) (proxy : Json) (f : Frame) : Prop := AllQuit f ↔ ¬ Lost w proxy

theorem raised_of_quit {f : Frame} (hf : AllQuit f) (hlost : ¬ Lost w proxy) : Raised w proxy f :=
  iff_of_true hf hlost

theorem raised_of_running {f : Frame} (hf : Running f) (hlost : Lost w proxy) :
    Raised w proxy f :=
  iff_of_false hf.not_allQuit (not_not.mpr hlost)

/-- A constructor that returned lost nothing. -/
theorem Constructed.orphaned_iff (h : Constructed w) : Orphaned w proxy ↔
    isAuthenticated proxy = true ∧ w.Breaks ∨ (isAuthenticated proxy = true → w.Seen) ∧
      w.patches = true ∧ w.patchedMoves = true ∧ ¬ Returns w.copy := by
  constructor
  · rintro (⟨e, hraises⟩ | ⟨-, hraises⟩ | ⟨-, -, e, hraises⟩ | ⟨-, hauth, hbreaks⟩ |
      ⟨-, hseen, hpatches, hmoves, hraises⟩)
    · exact nomatch hraises.symm.trans h.process
    · exact absurd h.service hraises
    · exact nomatch hraises.symm.trans h.session
    · exact .inl ⟨hauth, hbreaks⟩
    · exact .inr ⟨hseen, hpatches, hmoves, hraises⟩
  · rintro (⟨hauth, hbreaks⟩ | ⟨hseen, hpatches, hmoves, hraises⟩)
    · exact .poll h hauth hbreaks
    · exact .copy h hseen hpatches hmoves hraises

/-- Nor did a start that raised without a process. -/
theorem not_orphaned_of_process {e : Thrown} (h : w.construction.process = .error (e, false)) :
    ¬ Orphaned w proxy := by
  rintro (⟨e, hraises⟩ | ⟨hprocess, -⟩ | ⟨hprocess, -⟩ | ⟨hmade, -⟩ | ⟨hmade, -⟩)
  · exact nomatch h.symm.trans hraises
  · exact nomatch h.symm.trans hprocess
  · exact nomatch h.symm.trans hprocess
  · exact nomatch h.symm.trans hmade.process
  · exact nomatch h.symm.trans hmade.process

/-- Nor a constructor of Selenium's that called `quit`. -/
theorem not_orphaned_of_session {e : Thrown} (hprocess : w.construction.process = .ok ())
    (hservice : Returns w.construction.service) (h : w.construction.session = .error (e, true)) :
    ¬ Orphaned w proxy := by
  rintro (⟨e, hraises⟩ | ⟨-, hraises⟩ | ⟨-, -, e, hraises⟩ | ⟨hmade, -⟩ | ⟨hmade, -⟩)
  · exact nomatch hprocess.symm.trans hraises
  · exact hraises hservice
  · exact nomatch h.symm.trans hraises
  · exact nomatch h.symm.trans hmade.session
  · exact nomatch h.symm.trans hmade.session

/-- **The constructor** returns with a browser that runs, or raises. -/
theorem chrome_meets (harranged : Arranged w proxy)
    (hready : Returns w.preparation → Ready w) :
    Meets (fun f => f.browser = none) (chrome w)
      (fun _ f => Ready w ∧ Constructed w ∧ Running f) fun _ f => Raised w proxy f := by
  unfold chrome
  refine meets_answer_bind (fun added hadded => ?_) fun e he f hf => ?_
  · have hw := hready ⟨added, hadded⟩
    intro f hf
    show Ends _ _ ((do
      spawn (commandLine added f.arguments) w.construction.process
      answer w.construction.service
      connect w.construction.session : Procedure Frame Thrown Unit) f)
    cases hprocess : w.construction.process with
    | error e =>
      obtain ⟨e, up⟩ := e
      cases up with
      | true => exact raised_of_running ⟨_, rfl, rfl⟩ ⟨harranged, hw, .process e hprocess⟩
      | false =>
        exact raised_of_quit (allQuit_none hf) fun hlost =>
          not_orphaned_of_process hprocess hlost.orphaned
    | ok _ =>
      cases hservice : w.construction.service with
      | error e =>
        have hraises : ¬ Returns w.construction.service := hservice ▸ not_returns_error e
        exact raised_of_running ⟨_, rfl, rfl⟩ ⟨harranged, hw, .service hprocess hraises⟩
      | ok _ =>
        cases hsession : w.construction.session with
        | error e =>
          obtain ⟨e, quit⟩ := e
          cases quit with
          | true =>
            exact raised_of_quit (allQuit_quit _) fun hlost =>
              not_orphaned_of_session hprocess ⟨_, hservice⟩ hsession hlost.orphaned
          | false =>
            exact raised_of_running ⟨_, rfl, rfl⟩
              ⟨harranged, hw, .session hprocess ⟨_, hservice⟩ e hsession⟩
        | ok _ => exact ⟨hw, ⟨hprocess, ⟨_, hservice⟩, hsession⟩, _, rfl, rfl⟩
  · refine raised_of_quit (allQuit_none hf) fun hlost => ?_
    exact not_returns_error e (he ▸ hlost.ready.preparation)

/-- The wait for the extension, after a constructor that returned. -/
theorem awaitIf_meets (harranged : Arranged w proxy) {directory : Option Str}
    (hauth : directory.isSome = isAuthenticated proxy) (hready : Ready w) (hmade : Constructed w) :
    Meets Running (awaitIf w directory)
      (fun _ f => Running f ∧ (isAuthenticated proxy = true → w.Seen ∧ f.workerSeen = true))
      fun _ f => Raised w proxy f := by
  unfold awaitIf
  rw [hauth]
  refine .ite (fun hcredentials f hf => ?_) fun hplain => ?_
  · unfold awaitProxyExtension
    rcases awaitFrom_ends w.polls extensionLoadPolls 0 f with
      ⟨hseen, h⟩ | ⟨hbreaks, e, h⟩ | ⟨⟨hseen, hbreaks⟩, h⟩
    · rw [h]
      exact ⟨hf, fun _ => ⟨hseen, rfl⟩⟩
    · rw [h]
      exact raised_of_running hf ⟨harranged, hready, .poll hmade hcredentials hbreaks⟩
    · rw [h]
      refine raised_of_quit (allQuit_quit f) fun hlost => ?_
      rcases hmade.orphaned_iff.mp hlost.orphaned with ⟨-, h⟩ | ⟨h, -⟩
      · exact hbreaks h
      · exact hseen (h hcredentials)
  · exact meets_pure fun f hf => ⟨hf, fun hcredentials => absurd hcredentials hplain⟩

theorem hideWindow_meets (w : World) (proxy : Json) :
    Meets (fun f => f.browser = none) (hideWindow w)
      (fun _ f => ((w.headless && !w.windows) = true → Returns w.display) ∧ f.browser = none)
      fun _ f => Raised w proxy f := by
  unfold hideWindow
  refine .ite (fun hhide => meets_answer (fun _ h f hf => ?_) fun e h f hf => ?_) fun hhide => ?_
  · exact ⟨fun _ => ⟨_, h⟩, hf⟩
  · refine raised_of_quit (allQuit_none hf) fun hlost => ?_
    exact not_returns_error e (h ▸ hlost.ready.display hhide)
  · exact meets_pure fun f hf => ⟨fun h => absurd h hhide, hf⟩

theorem findVersion_meets (w : World) (proxy : Json) :
    Meets (fun f => f.browser = none) (findVersion w)
      (fun _ f => (w.docker = false → Returns w.majorVersion) ∧ f.browser = none)
      fun _ f => Raised w proxy f := by
  unfold findVersion
  refine .ite (fun hdocker => ?_) fun hdocker =>
    meets_answer (fun _ h f hf => ?_) fun e h f hf => ?_
  · refine meets_pure fun f hf => ⟨fun h => ?_, hf⟩
    rw [hdocker] at h
    cases h
  · exact ⟨fun _ => ⟨_, h⟩, hf⟩
  · refine raised_of_quit (allQuit_none hf) fun hlost => ?_
    exact not_returns_error e (h ▸ hlost.ready.version (eq_false_of_ne_true hdocker))

/-- **The `try` block** returns with a browser that runs, and with the worker of an extension
seen, or raises. -/
theorem launch_meets (harranged : Arranged w proxy) {directory : Option Str}
    (hauth : directory.isSome = isAuthenticated proxy) :
    Meets (fun f => f.browser = none) (launch w directory)
      (fun _ f => (Ready w ∧ Constructed w) ∧ Running f ∧
        (isAuthenticated proxy = true → w.Seen ∧ f.workerSeen = true))
      fun _ f => Raised w proxy f := by
  unfold launch
  refine meets_change_bind (fun f => f.browser = none) (fun f hf => hf) ?_
  refine (hideWindow_meets w proxy).bind fun _ => meets_assuming fun hdisplay => ?_
  refine (findVersion_meets w proxy).bind fun _ => meets_assuming fun hversion => ?_
  refine meets_answer_bind (fun path hpath => ?_) fun e he f hf => ?_
  · have hready : Returns w.preparation → Ready w := fun hpreparation =>
      ⟨hdisplay, hversion, ⟨path, hpath⟩, hpreparation⟩
    refine (chrome_meets harranged hready).bind fun _ => ?_
    refine meets_assuming fun hready => meets_assuming fun hmade => ?_
    refine (awaitIf_meets harranged hauth hready hmade).weaken (fun _ hf => hf) (fun _ f hf => ?_)
      fun _ _ hf => hf
    exact ⟨⟨hready, hmade⟩, hf⟩
  · refine raised_of_quit (allQuit_none hf) fun hlost => ?_
    exact not_returns_error e (he ▸ hlost.ready.chromePath)

/-- Saving the patched driver, after a `try` block that returned. -/
theorem saveIf_meets (harranged : Arranged w proxy) (hready : Ready w) (hmade : Constructed w)
    (hseen : isAuthenticated proxy = true → w.Seen) :
    Meets Running (saveIf w) (fun _ _ => ¬ Lost w proxy) fun _ f => Raised w proxy f := by
  have hlost : (w.patches = true → w.patchedMoves = true → Returns w.copy) → ¬ Lost w proxy :=
      fun hcopied hlost => by
    rcases hmade.orphaned_iff.mp hlost.orphaned with ⟨hauth, hbreaks⟩ | ⟨-, hpatches, hmoves, h⟩
    · exact not_breaks_of_shows (hseen hauth) hbreaks
    · exact h (hcopied hpatches hmoves)
  unfold saveIf
  refine .ite (fun hpatches => ?_) fun hpatches => ?_
  · unfold savePatched
    refine meets_change_bind Running (fun f hf => hf) ?_
    refine .ite (fun hmoves => meets_answer (fun _ h f hf => ?_) fun e h f hf => ?_)
      fun hmoves => ?_
    · exact hlost fun _ _ => ⟨_, h⟩
    · refine raised_of_running hf ⟨harranged, hready, ?_⟩
      exact .copy hmade hseen hpatches hmoves (by simp [h])
    · exact meets_pure fun f hf => hlost fun _ h => absurd h hmoves
  · exact meets_pure fun f hf => hlost fun h => absurd h hpatches

/-! ## The directory -/

/-- Nothing is on the disk. -/
def NoDirectory (f : Frame) : Prop := f.directory = none

theorem spawn_keeps (arguments : List Str) (x : Except (Thrown × Bool) Unit) :
    Keeps NoDirectory (spawn arguments x) := by
  intro f hf
  rcases x with ⟨e, _ | _⟩ | _
  · exact hf
  · exact hf
  · exact hf

theorem connect_keeps (x : Except (Thrown × Bool) Unit) : Keeps NoDirectory (connect x) := by
  intro f hf
  rcases x with ⟨e, _ | _⟩ | _
  · exact hf
  · exact hf
  · exact hf

theorem chrome_keeps (w : World) : Keeps NoDirectory (chrome w) := by
  unfold chrome
  refine (keeps_answer _).bind fun added f hf => ?_
  exact ((spawn_keeps _ _).bind fun _ => (keeps_answer _).bind fun _ => connect_keeps _) f hf

/-- Without an extension the `try` block makes no directory. -/
theorem launch_keeps (w : World) : Keeps NoDirectory (launch w none) := by
  unfold launch hideWindow findVersion
  refine Keeps.bind (keeps_change fun f hf => hf) fun _ => ?_
  refine Keeps.bind (.ite (keeps_answer _) (keeps_pure _)) fun _ => ?_
  refine Keeps.bind (.ite (keeps_pure _) (keeps_answer _)) fun _ => ?_
  refine (keeps_answer _).bind fun _ => (chrome_keeps w).bind fun _ => ?_
  exact keeps_pure _

/-- The `finally` block leaves no directory. -/
theorem cleared_meets (w : World) (directory : Option Str) :
    Meets (fun f => directory = none → NoDirectory f)
      ((launch w directory).cleaning (clear directory)) (fun _ => NoDirectory)
      fun _ => NoDirectory := by
  cases directory with
  | none =>
    exact ((launch_keeps w).weaken (fun f hf => hf rfl) (fun _ _ hf => hf)
      fun _ _ hf => hf).cleaning (fun _ f hf => hf) fun _ f hf => hf
  | some path =>
    have hany : Meets (fun f => some path = none → NoDirectory f) (launch w (some path))
        (fun _ _ => True) fun _ _ => True := fun f _ => by
      cases launch w (some path) f with
      | mk x f' => cases x <;> trivial
    exact hany.cleaning (fun _ f _ => rfl) fun _ f _ => rfl

/-- Saving the patched driver leaves the rest alone. -/
theorem saveIf_keeps (w : World) {I : Frame → Prop}
    (hI : ∀ f path, I f → I { f with patchedDriver := path }) : Keeps I (saveIf w) :=
  .ite ((keeps_change fun f hf => hI f _ hf).bind fun _ => .ite (keeps_answer _) (keeps_pure _))
    (keeps_pure _)

end Launch

/-! ## The whole launch -/

/-- How a launch ends: with the directory gone, and a browser left exactly where it is
lost. -/
theorem getWebdriver_meets (w : World) (proxy : Json) :
    Meets Bare (getWebdriver w proxy)
      (fun _ f => ¬ Lost w proxy ∧ (isAuthenticated proxy = true → f.workerSeen = true) ∧
        NoDirectory f)
      fun _ f => Raised w proxy f ∧ NoDirectory f := by
  unfold getWebdriver
  refine ((arrange_meets w proxy).weaken (fun _ hf => hf) (fun _ _ hf => hf) fun _ f hf => ?_).bind
    fun directory => meets_assuming fun harranged => ?_
  · exact ⟨raised_of_quit (allQuit_none hf.2.browser) fun hlost => hf.1 hlost.arranged,
      hf.2.directory⟩
  have hlaunch : Meets (Switched w proxy directory)
      ((launch w directory).cleaning (clear directory))
      (fun _ f => ((Ready w ∧ Constructed w) ∧ Running f ∧
        (isAuthenticated proxy = true → w.Seen ∧ f.workerSeen = true)) ∧ NoDirectory f)
      fun _ f => Raised w proxy f ∧ NoDirectory f := by
    intro f hf
    obtain ⟨-, hauth, hbrowser, hdirectory⟩ := hf
    have hclear : ∀ f, (clear directory f).browser = f.browser ∧
        (clear directory f).workerSeen = f.workerSeen := fun f => by
      cases directory <;> exact ⟨rfl, rfl⟩
    refine Meets.and ((launch_meets harranged hauth).cleaning (fun _ f hf => ?_) fun _ f hf => ?_)
      (cleared_meets w directory) f ⟨hbrowser, hdirectory⟩
    · rw [Running, (hclear f).1, (hclear f).2]
      exact hf
    · rw [Raised, AllQuit, (hclear f).1]
      exact hf
  refine hlaunch.bind fun _ f hf => ?_
  obtain ⟨⟨⟨hready, hmade⟩, hrunning, hseen⟩, hdirectory⟩ := hf
  have hkeeps : Keeps (fun f => (isAuthenticated proxy = true → f.workerSeen = true) ∧
      NoDirectory f) (saveIf w) := saveIf_keeps w fun _ _ hf => hf
  have hsave := (saveIf_meets harranged hready hmade fun hauth => (hseen hauth).1).and hkeeps
  refine (hsave f ⟨hrunning, fun hauth => (hseen hauth).2, hdirectory⟩).weaken
    (fun _ _ hf => hf) fun _ _ hf => ⟨hf.1, hf.2.2⟩

/-- **A launch leaves nothing behind** exactly where it does not lose its browser. -/
theorem leaves_nothing_iff (w : World) (proxy : Json) :
    LeavesNothing proxy (getWebdriver w proxy w.frame) ↔ ¬ Lost w proxy := by
  have hends := getWebdriver_meets w proxy w.frame ⟨rfl, rfl⟩
  generalize getWebdriver w proxy w.frame = x at hends ⊢
  obtain ⟨e | a, f⟩ := x
  · obtain ⟨hraised, hdirectory⟩ := hends
    exact (and_iff_right hdirectory).trans hraised
  · obtain ⟨hlost, hworker, hdirectory⟩ := hends
    exact iff_of_true ⟨hdirectory, hworker⟩ hlost

/-- A container where every step goes well, and the worker is there at the first poll. -/
def calmWorld : World where
  urls := .ascii
  unicode := .ascii
  armArch := false
  language _ := .ok (flag "en-US")
  responseHeaders := false
  userAgent := none
  mkdtemp := .ok (flag "/tmp/tmp1")
  writeManifest := .ok ()
  writeBackground := .ok ()
  headless := true
  windows := false
  display := .ok ()
  docker := true
  majorVersion := .ok ()
  patchedDriver := none
  chromePath := .ok ()
  preparation := .ok
    { debugPort := flag "9222", profile := some (flag "/tmp/tmp2"), language := flag "en-US"
      headlessMode := some (flag "new"), logLevel := flag "0" }
  construction := ⟨.ok (), .ok (), .ok ()⟩
  polls _ := .ok [⟨flag "service_worker", flag "chrome-extension://abc/background.js"⟩]
  patchedPath := flag "/root/.local/share/undetected_chromedriver/chromedriver"
  patchedMoves := false
  copy := .ok ()

/-- `{"url": "http://proxy:8080", "username": "user", "password": "secret"}` -/
def paidProxy : Json :=
  .obj [(flag "url", .str (flag "http://proxy:8080")), (flag "username", .str (flag "user")),
    (flag "password", .str (flag "secret"))]

/-- The launch raised, and its browser runs on. -/
def runsOn : Except Thrown Unit × Frame → Bool
  | (.error _, f) => f.browser.any fun b => !b.quit
  | (.ok _, _) => false

theorem not_leavesNothing {proxy : Json} {x : Except Thrown Unit × Frame} (h : runsOn x = true) :
    ¬ LeavesNothing proxy x := by
  obtain ⟨e | a, f⟩ := x
  · obtain ⟨b, hb, hquit⟩ := (Option.any_eq_true ..).mp h
    rintro ⟨-, hall⟩
    rw [hall b hb] at hquit
    cases hquit
  · cases h

/-- A launch whose browser runs on has lost it. -/
theorem lost_of_runsOn {w : World} {proxy : Json}
    (h : runsOn (getWebdriver w proxy w.frame) = true) : Lost w proxy := by
  have hends := getWebdriver_meets w proxy w.frame ⟨rfl, rfl⟩
  have hleft : ¬ LeavesNothing proxy _ := not_leavesNothing h
  generalize getWebdriver w proxy w.frame = x at h hends hleft
  obtain ⟨e | a, f⟩ := x
  · obtain ⟨hraised, hdirectory⟩ := hends
    by_contra hlost
    exact hleft ⟨hdirectory, hraised.mpr hlost⟩
  · cases h

/-- The first poll of the wait raises, and the browser runs on. -/
theorem poll_leaves_browser :
    ¬ LeavesNothing paidProxy
      (getWebdriver { calmWorld with polls := fun _ => .error .outside } paidProxy
        calmWorld.frame) :=
  not_leavesNothing (by decide +kernel)

end Solverr.Launch
