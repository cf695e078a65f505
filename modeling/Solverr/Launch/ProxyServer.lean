import Solverr.Launch.Address
import Solverr.Launch.LeftBehind

/-!
# The proxy of a launched browser

Every browser that `get_webdriver` starts has the arguments that were made for its proxy
(`started_arguments`), so its command line names the proxy of the switch or, where the loop
of `undetected_chromedriver` takes the switch for a headless one, none. Without credentials
the switch has the URL as it is; with them, what `urlparse` finds in it. `fails_closed_iff`
says for which URLs both come to the URL's own address.
-/

namespace Solverr.Launch

open Solverr.Lib
open Solverr.Lib.Procedure
open Solverr.Lib.Url (Parts urlsplit IsScheme withAuthority asciiLower)
open Solverr.Geo (proxyToConfig)

/-! ## The arguments of a launch -/

/-- What the proxy adds to the arguments. -/
inductive Switches (t : UrlTables) : Json → List Str → Prop
  | none {proxy : Json} (h : proxyToConfig proxy = .ok none) : Switches t proxy []
  | plain {fields : List (Str × Json)} {url : Str} (hplain : authenticated fields = false)
      (hurl : Json.get? fields (flag "url") = some (.str url)) :
      Switches t (.obj fields) [proxyServer ++ url]
  | extension {fields : List (Str × Json)} {url : Str} {parts : Parts} {number : Option ℕ}
      (hurl : Json.get? fields (flag "url") = some (.str url))
      (hparts : urlsplit t url = some parts) (hport : parts.port = some number) :
      Switches t (.obj fields) [proxyServer ++ bareProxy parts]

theorem no_url_of_none {fields : List (Str × Json)} {url : Str}
    (h : proxyToConfig (.obj fields) = .ok none) :
    Json.get? fields (flag "url") ≠ some (.str url) := by
  rcases Geo.proxyToConfig_ok h with ⟨-, h | h⟩ | ⟨_, _, _, _, h⟩
  · cases h
  · cases h
    exact nofun
  · cases h

/-- No proxy adds nothing. -/
theorem switches_none {t : UrlTables} {proxy : Json} {switches : List Str}
    (h : Switches t proxy switches) (hproxy : proxyToConfig proxy = .ok none) : switches = [] := by
  cases h with
  | none => rfl
  | plain _ hurl => exact absurd hurl (no_url_of_none hproxy)
  | extension hurl => exact absurd hurl (no_url_of_none hproxy)

/-- The arguments before the `try` block. -/
def arranged (w : World) (language : Str) (switches : List Str) : List Str :=
  firstArguments w.armArch ++ languageArguments language ++ userAgentArguments w.userAgent ++
    switches

/-- Nothing was started, and these are the arguments. -/
structure Collected (arguments : List Str) (f : Frame) : Prop where
  browser : f.browser = none
  arguments : f.arguments = arguments

/-- Whatever was started has arguments like these. -/
def Started (like : List Str → Prop) (f : Frame) : Prop := ∀ b ∈ f.browser, like b.arguments

section Run

variable {w : World} {proxy : Json} {like : List Str → Prop} {arguments : List Str}

theorem Collected.started {f : Frame} (h : Collected arguments f) : Started like f := fun b hb => by
  rw [h.browser] at hb
  cases hb

theorem writeExtension_collected (background : Background) :
    Keeps (Collected arguments) (writeExtension w background) := by
  unfold writeExtension
  refine (keeps_answer _).bind fun _ => (keeps_answer _).bind fun _ => ?_
  exact keeps_change fun f hf => ⟨hf.browser, hf.arguments⟩

theorem createProxyExtension_collected (fields : List (Str × Json)) :
    Keeps (Collected arguments) (createProxyExtension w fields) := by
  unfold createProxyExtension
  refine (keeps_answer _).bind fun _ => (keeps_answer _).bind fun _ => (keeps_answer _).bind
    fun path => ?_
  refine Keeps.bind (keeps_change fun f hf => ⟨hf.browser, hf.arguments⟩) fun _ => ?_
  refine Keeps.bind ?_ fun _ => keeps_pure _
  refine (writeExtension_collected _).handling fun e => ?_
  exact Keeps.bind (keeps_change fun f hf => ⟨hf.browser, hf.arguments⟩) fun _ => keeps_raise e

theorem urlparse_ok {t : UrlTables} {url : Str} {parts : Parts}
    (h : urlparse t (.str url) = .ok parts) : urlsplit t url = some parts := by
  unfold urlparse at h
  dsimp only at h
  split at h
  next hsplit =>
    cases h
    exact hsplit
  next => cases h

theorem port_ok {parts : Parts} {number : Option ℕ} (h : port parts = .ok number) :
    parts.port = some number := by
  unfold port at h
  split at h
  next hport =>
    cases h
    exact hport
  next => cases h

/-- What the switch of a proxy with credentials is added to. -/
theorem withExtension_collected {fields : List (Str × Json)} {url : Str}
    (hurl : Json.get? fields (flag "url") = some (.str url)) :
    Meets (fun f => Bare f ∧ Collected arguments f) (withExtension w fields)
      (fun _ f => ∃ switches, Switches w.urls (.obj fields) switches ∧
        Collected (arguments ++ switches) f)
      fun _ f => f.browser = none := by
  have hurl' : field fields (flag "url") = .str url := by
    unfold field
    rw [hurl]
    rfl
  unfold withExtension
  refine Meets.bind (((createProxyExtension_meets w fields).and
    (createProxyExtension_collected fields)).weaken (fun _ hf => hf) (fun _ _ hf => hf)
      fun _ f hf => hf.2.browser) fun path f hf => ?_
  obtain ⟨parts, hparts, number, hport⟩ := hf.1.1.parsed
  rw [hparts, answer_ok_bind, change_bind_apply]
  rw [hurl'] at hparts
  refine ⟨_, .extension hurl (urlparse_ok hparts) (port_ok hport), hf.2.browser, ?_⟩
  exact congrArg (· ++ [proxyServer ++ bareProxy parts]) hf.2.arguments

/-- What the switch of the proxy is added to. -/
theorem proxyArguments_collected (w : World) (arguments : List Str)
    {cfg : Option Geo.ProxyConfig} (hconfig : config proxy = .ok cfg) :
    Meets (fun f => Bare f ∧ Collected arguments f) (proxyArguments w proxy)
      (fun _ f => ∃ switches, Switches w.urls proxy switches ∧
        Collected (arguments ++ switches) f)
      fun _ f => f.browser = none := by
  have hnone : proxyToConfig proxy = .ok none → ∀ (f : Frame), Bare f ∧ Collected arguments f →
      ∃ switches, Switches w.urls proxy switches ∧ Collected (arguments ++ switches) f :=
    fun h f hf => ⟨[], .none h, by rw [List.append_nil]; exact hf.2⟩
  rcases Geo.proxyToConfig_ok (config_ok hconfig) with
    ⟨rfl, rfl | rfl⟩ | ⟨fields, url, rfl, hurl, -⟩
  · exact meets_pure (hnone rfl)
  · exact meets_pure (hnone rfl)
  · unfold proxyArguments
    refine .ite (fun _ => withExtension_collected hurl) fun hplain => ?_
    rw [show Json.get? fields (flag "url") = some (.str url) from hurl]
    refine meets_change_bind _ (fun f hf => ?_) (meets_pure fun _ hf => hf)
    refine ⟨_, .plain (eq_false_of_ne_true hplain) hurl, hf.2.browser, ?_⟩
    exact congrArg (· ++ [proxyServer ++ url]) hf.2.arguments

/-- **Before the `try` block**: the arguments are there, with the switch of the proxy. -/
theorem arrange_collected (w : World) (proxy : Json) :
    Meets (· = w.frame) (arrange w proxy)
      (fun _ f => ∃ language switches, Switches w.urls proxy switches ∧
        Collected (arranged w language switches) f)
      fun _ f => f.browser = none := by
  unfold arrange
  refine meets_answer_bind (fun cfg hconfig => ?_) fun _ _ f hf => by rw [hf]; rfl
  refine meets_answer_bind (fun language hlanguage => ?_) fun _ _ f hf => by rw [hf]; rfl
  have hcollected := proxyArguments_collected w (firstArguments w.armArch ++
    languageArguments language ++ userAgentArguments w.userAgent) hconfig
  rintro f rfl
  rw [change_bind_apply, change_bind_apply, change_bind_apply]
  refine (hcollected _ ⟨⟨rfl, rfl⟩, rfl, rfl⟩).weaken (fun _ f hf => ?_) fun _ _ hf => hf
  exact ⟨language, hf⟩

/-! ## The command line of a launch -/

theorem Started.of_eq {f g : Frame} (h : Started like f) (hb : g.browser = f.browser) :
    Started like g := by
  rw [Started, hb]
  exact h

theorem Started.quit {f : Frame} (h : Started like f) : Started like f.quit := fun b hb => by
  obtain ⟨b', hb', rfl⟩ := Option.map_eq_some_iff.mp hb
  exact h b' hb'

theorem spawn_started {line : List Str} (h : like line) (x : Except (Thrown × Bool) Unit) :
    Meets (Collected arguments) (spawn line x) (fun _ => Started like) fun _ => Started like := by
  have hstart : ∀ f : Frame, Started like (f.start line) := fun f b hb => by
    cases hb
    exact h
  intro f hf
  rcases x with ⟨e, _ | _⟩ | _
  · exact hf.started
  · exact hstart f
  · exact hstart f

theorem connect_started (x : Except (Thrown × Bool) Unit) :
    Keeps (Started like) (connect x) := by
  intro f hf
  rcases x with ⟨e, _ | _⟩ | _
  · exact hf
  · exact hf.quit
  · exact hf

theorem chrome_started (hlike : ∀ added, like (commandLine added arguments)) :
    Meets (Collected arguments) (chrome w) (fun _ => Started like) fun _ => Started like := by
  unfold chrome
  refine meets_answer_bind (fun added _ f hf => ?_) fun _ _ f hf => hf.started
  have hline : like (commandLine added f.arguments) := hf.arguments ▸ hlike added
  refine Meets.bind (spawn_started hline _) (fun _ => ?_) f hf
  exact (keeps_answer _).bind fun _ => connect_started _

theorem awaitIf_started (w : World) (directory : Option Str) :
    Keeps (Started like) (awaitIf w directory) := by
  refine .ite (fun f hf => ?_) (keeps_pure _)
  have hends := awaitFrom_ends w.polls extensionLoadPolls 0 f
  unfold awaitProxyExtension
  rcases hends with ⟨-, h⟩ | ⟨-, e, h⟩ | ⟨-, h⟩
  · rw [h]
    exact hf
  · rw [h]
    exact hf
  · rw [h]
    exact hf.quit

/-- **The `try` block** starts the browser with what was collected, and its own arguments. -/
theorem launch_started {directory : Option Str}
    (hlike : ∀ added, like (commandLine added (arguments ++ lastArguments directory))) :
    Meets (Collected arguments) ((launch w directory).cleaning (clear directory))
      (fun _ => Started like) fun _ => Started like := by
  have hlaunch : Meets (Collected arguments) (launch w directory) (fun _ => Started like)
      fun _ => Started like := by
    unfold launch hideWindow findVersion
    refine meets_change_bind (Collected (arguments ++ lastArguments directory))
      (fun f hf => ⟨hf.browser, congrArg (· ++ lastArguments directory) hf.arguments⟩) ?_
    have hstep : ∀ {α : Type} {m : Procedure Frame Thrown α},
        Keeps (Collected (arguments ++ lastArguments directory)) m →
        Meets (Collected (arguments ++ lastArguments directory)) m
          (fun _ => Collected (arguments ++ lastArguments directory)) fun _ => Started like :=
      fun h => h.weaken (fun _ hf => hf) (fun _ _ hf => hf) fun _ _ hf => hf.started
    refine (hstep (.ite (keeps_answer _) (keeps_pure _))).bind fun _ => ?_
    refine (hstep (.ite (keeps_pure _) (keeps_answer _))).bind fun _ => ?_
    refine (hstep (keeps_answer _)).bind fun _ => ?_
    exact (chrome_started hlike).bind fun _ => awaitIf_started w directory
  have hclear : ∀ f, (clear directory f).browser = f.browser := fun f => by
    cases directory <;> rfl
  exact hlaunch.cleaning (fun _ f hf => hf.of_eq (hclear f)) fun _ f hf => hf.of_eq (hclear f)

end Run

/-- The arguments that a launch may collect for its proxy. -/
def ForProxy (w : World) (proxy : Json) (line : List Str) : Prop :=
  ∃ added language switches directory, Switches w.urls proxy switches ∧
    line = commandLine added (arranged w language switches ++ lastArguments directory)

/-- **Every browser** that a launch starts has the arguments that were made for its proxy,
whether the launch returns or not. -/
theorem getWebdriver_started (w : World) (proxy : Json) :
    Meets (· = w.frame) (getWebdriver w proxy) (fun _ => Started (ForProxy w proxy))
      fun _ => Started (ForProxy w proxy) := by
  unfold getWebdriver
  refine Meets.bind ((arrange_collected w proxy).weaken (fun _ hf => hf) (fun _ _ hf => hf)
    fun _ f hf b hb => ?_) fun directory f hf => ?_
  · rw [hf] at hb
    cases hb
  · obtain ⟨language, switches, hswitches, hcollected⟩ := hf
    have hlaunch : Meets (Collected (arranged w language switches))
        ((launch w directory).cleaning (clear directory))
        (fun _ => Started (ForProxy w proxy)) fun _ => Started (ForProxy w proxy) :=
      launch_started fun added => ⟨added, language, switches, directory, hswitches, rfl⟩
    exact (hlaunch.bind fun _ => saveIf_keeps w fun f path hf => hf) f hcollected

theorem started_arguments {w : World} {proxy : Json} {b : Browser}
    (h : (getWebdriver w proxy w.frame).2.browser = some b) : ForProxy w proxy b.arguments := by
  have hends := getWebdriver_started w proxy w.frame rfl
  generalize getWebdriver w proxy w.frame = x at hends h
  obtain ⟨e | a, f⟩ := x
  · exact hends b h
  · exact hends b h

/-! ## The proxies that are named -/

/-- The switch has `headless` where its proxy has. -/
theorem headless_switch (value : Str) :
    headless <:+: proxyServer ++ value ↔ headless <:+: value := by
  refine ⟨fun h => ?_, fun h => h.trans (List.suffix_append ..).isInfix⟩
  have hsplit : proxyServer ++ value = flag "--proxy-server" ++ '='.toNat :: value := rfl
  rw [hsplit] at h
  rcases infix_of_infix_append_sep (by decide) h with h | h
  · exact absurd h (by decide)
  · exact h

section Named

variable {w : World} {added : Added} {language value : Str} {directory : Option Str}

theorem proxyServers_arranged (w : World) (language : Str) :
    proxyServers (arranged w language []) = [] := by
  have hfirst : proxyServers (firstArguments w.armArch) = [] := by
    cases w.armArch <;> rfl
  have hagent : proxyServers (userAgentArguments w.userAgent) = [] := by
    cases w.userAgent <;> rfl
  have hlanguage : proxyServers (languageArguments language) = [] := rfl
  rw [arranged, proxyServers_append, proxyServers_append, proxyServers_append, hfirst, hagent,
    hlanguage]
  rfl

theorem proxyServers_last (directory : Option Str) :
    proxyServers (lastArguments directory) = [] := by
  cases directory <;> rfl

theorem arranged_switch : arranged w language [proxyServer ++ value] ++ lastArguments directory =
    arranged w language [] ++ (proxyServer ++ value) :: lastArguments directory := by
  unfold arranged
  rw [List.append_nil, List.append_assoc _ [_], List.singleton_append]

/-- No proxy, no switch. -/
theorem names_none : proxyServers
    (commandLine added (arranged w language [] ++ lastArguments directory)) = [] := by
  refine commandLine_plain added ?_
  rw [proxyServers_append, proxyServers_arranged, proxyServers_last]
  rfl

/-- The proxy of the switch. -/
theorem names_switch (hvalue : ¬ headless <:+: value) : proxyServers (commandLine added
    (arranged w language [proxyServer ++ value] ++ lastArguments directory)) = [value] := by
  rw [arranged_switch]
  exact commandLine_names added (proxyServers_arranged w language) (proxyServers_last directory)
    ((headless_switch value).not.mpr hvalue)

end Named

/-! ## The URLs -/

/-- **The property.** Whatever a launch starts for an accepted proxy with this URL has one
proxy server, at the address of the URL. -/
def FailsClosed (t : UrlTables) (url : Str) : Prop :=
  ∀ w : World, w.urls = t → ∀ fields cfg, proxyToConfig (.obj fields) = .ok cfg →
    Json.get? fields (flag "url") = some (.str url) →
    ∀ b, (getWebdriver w (.obj fields) w.frame).2.browser = some b →
      ∃ value address, proxyServers b.arguments = [value] ∧ reading value = some address ∧
        reading url = some address

/-- No extension is made of the URL: `urlparse` raises, or the port does. -/
def Refuses (t : UrlTables) (url : Str) : Prop :=
  ∀ parts, urlsplit t url = some parts → parts.port = none

/-- The URL has an address, behind a scheme, and `headless` is nowhere in it. The scheme is
lowered for an extension, where one is made. -/
structure Served (t : UrlTables) (url : Str) : Prop where
  address : ∃ address, reading url = some address
  scheme : ∃ scheme, (splitSlashes url).1 = some scheme ∧
    (headless <:+: scheme.map asciiLower → Refuses t url)
  kept : ¬ headless <:+: url

/-- `proxy_to_config` accepts the URL. -/
def Accepts (url : Str) : Prop := (Str.strip url).isEmpty = false

section Urls

variable {t : UrlTables} {url : Str} {fields : List (Str × Json)}

theorem accepts_iff (hurl : Json.get? fields (flag "url") = some (.str url)) :
    (∃ cfg, proxyToConfig (.obj fields) = .ok cfg) ↔ Accepts url := by
  cases fields with
  | nil => cases hurl
  | cons first fields =>
    have hurl' : Json.get? (first :: fields) (.of "url".toList) = some (.str url) := hurl
    unfold proxyToConfig Accepts
    dsimp only
    rw [hurl']
    dsimp only
    cases (Str.strip url).isEmpty with
    | true => exact iff_of_false (fun ⟨_, h⟩ => nomatch h) nofun
    | false => exact iff_of_true ⟨_, rfl⟩ rfl

/-- The switch of the extension has the address of the URL, and no `headless`. -/
theorem Served.bareProxy (h : Served t url) {parts : Parts} {number : Option ℕ}
    (hparts : urlsplit t url = some parts) (hport : parts.port = some number) :
    ¬ headless <:+: Launch.bareProxy parts ∧ reading (Launch.bareProxy parts) = reading url := by
  obtain ⟨address, haddress⟩ := h.address
  obtain ⟨scheme, hscheme, hlower⟩ := h.scheme
  rcases splitSlashes_cases url with ⟨scheme', rest, hs, hurl⟩ | hnone
  · have hsame : scheme' = scheme := by
      rw [hurl, splitSlashes_scheme hs] at hscheme
      exact Option.some.inj hscheme
    subst hsame
    obtain ⟨hscheme, hin, hread⟩ := urlsplit_reading hs hurl hparts haddress
    have hbare : Launch.bareProxy parts =
        withAuthority parts.scheme (rcut '@'.toNat parts.netloc).2 [] := by
      unfold Launch.bareProxy withAuthority
      rw [List.append_nil, List.append_assoc]
      rfl
    refine ⟨fun hheadless => ?_, by rw [hbare, hread, haddress]⟩
    have hsplit : Launch.bareProxy parts = parts.scheme ++ ':'.toNat ::
        ([] ++ '/'.toNat :: ([] ++ '/'.toNat :: (rcut '@'.toNat parts.netloc).2)) := by
      unfold Launch.bareProxy
      rw [List.append_assoc]
      rfl
    rw [hsplit] at hheadless
    rcases infix_of_infix_append_sep (by decide) hheadless with hheadless | hheadless
    · rw [hscheme] at hheadless
      rw [hlower hheadless parts hparts] at hport
      cases hport
    rcases infix_of_infix_append_sep (by decide) hheadless with hheadless | hheadless
    · exact absurd hheadless (by decide)
    rcases infix_of_infix_append_sep (by decide) hheadless with hheadless | hheadless
    · exact absurd hheadless (by decide)
    · exact h.kept (hheadless.trans hin)
  · rw [hnone] at hscheme
    cases hscheme

theorem failsClosed_of_served (h : Accepts url → Served t url) : FailsClosed t url := by
  intro w hw fields cfg hcfg hurl b hb
  have hserved := h ((accepts_iff hurl).mp ⟨cfg, hcfg⟩)
  obtain ⟨address, haddress⟩ := hserved.address
  obtain ⟨added, language, switches, directory, hswitches, hline⟩ := started_arguments hb
  rw [hline]
  generalize hproxy : Json.obj fields = proxy at hswitches
  cases hswitches with
  | none hnone =>
    rw [← hproxy] at hnone
    exact absurd hurl (no_url_of_none hnone)
  | plain hplain hurl' =>
    cases hproxy
    obtain rfl : url = _ := Json.str.inj (Option.some.inj (hurl.symm.trans hurl'))
    exact ⟨url, address, names_switch hserved.kept, haddress, haddress⟩
  | extension hurl' hparts hport =>
    cases hproxy
    obtain rfl : url = _ := Json.str.inj (Option.some.inj (hurl.symm.trans hurl'))
    rw [hw] at hparts
    obtain ⟨hkept, hread⟩ := hserved.bareProxy hparts hport
    exact ⟨_, address, names_switch hkept, hread.trans haddress, haddress⟩

end Urls

/-! ## Two launches of one container -/

/-- The container where every step goes well. -/
def container (t : UrlTables) : World := { calmWorld with urls := t }

/-- `{"url": url}` -/
def plainFields (url : Str) : List (Str × Json) := [(flag "url", .str url)]

/-- `{"url": url, "username": "user", "password": "secret"}` -/
def paidFields (url : Str) : List (Str × Json) :=
  [(flag "url", .str url), (flag "username", .str (flag "user")),
    (flag "password", .str (flag "secret"))]

theorem launch_container (t : UrlTables) (directory : Option Str) (f : Frame) :
    ∃ added g, ((launch (container t) directory).cleaning (clear directory)) f = (.ok (), g) ∧
      g.browser = some ⟨commandLine added (f.arguments ++ lastArguments directory), false⟩ := by
  cases directory with
  | none => exact ⟨_, _, rfl, rfl⟩
  | some path => exact ⟨_, _, rfl, rfl⟩

theorem saveIf_container (t : UrlTables) : saveIf (container t) = pure () := rfl

theorem proxyArguments_plain (t : UrlTables) (url : Str) (f : Frame) :
    proxyArguments (container t) (.obj (plainFields url)) f =
      (.ok none, f.add [proxyServer ++ url]) := rfl

theorem proxyArguments_paid {t : UrlTables} {url : Str} {parts : Parts} {number : Option ℕ}
    (hparts : urlsplit t url = some parts) (hport : parts.port = some number) (f : Frame) :
    ∃ directory g, proxyArguments (container t) (.obj (paidFields url)) f = (.ok directory, g) ∧
      g.arguments = f.arguments ++ [proxyServer ++ bareProxy parts] := by
  have hurl : urlparse t (.str url) = .ok parts := by
    unfold urlparse
    dsimp only
    rw [hparts]
  have hport' : port parts = .ok number := by
    unfold port
    rw [hport]
  have hfield : field (paidFields url) (flag "url") = .str url := rfl
  have hshow : proxyArguments (container t) (.obj (paidFields url)) =
      withExtension (container t) (paidFields url) := rfl
  rw [hshow]
  unfold withExtension createProxyExtension
  rw [hfield, show (container t).urls = t from rfl, hurl, answer_ok_bind, hport',
    answer_ok_bind]
  exact ⟨_, _, rfl, rfl⟩

/-- A launch of the container starts a browser, with the switch of its proxy. -/
theorem container_starts {t : UrlTables} {fields : List (Str × Json)} {value : Str}
    (haccept : ∃ cfg, proxyToConfig (.obj fields) = .ok cfg)
    (hswitch : ∀ f, ∃ directory g, proxyArguments (container t) (.obj fields) f =
      (.ok directory, g) ∧ g.arguments = f.arguments ++ [proxyServer ++ value]) :
    ∃ b added directory,
      (getWebdriver (container t) (.obj fields) (container t).frame).2.browser = some b ∧
        b.arguments = commandLine added
          (arranged (container t) (flag "en-US") [proxyServer ++ value] ++
            lastArguments directory) := by
  obtain ⟨cfg, hcfg⟩ := haccept
  have hconfig : config (.obj fields) = .ok cfg := by
    unfold config
    rw [hcfg]
    rfl
  obtain ⟨directory, g, hrun, hg⟩ := hswitch { (container t).frame with
    arguments := firstArguments false ++ languageArguments (flag "en-US") ++ [] }
  have harrange : arrange (container t) (.obj fields) (container t).frame = (.ok directory, g) := by
    unfold arrange
    rw [hconfig, answer_ok_bind]
    exact hrun
  obtain ⟨added, f, hlaunch, hbrowser⟩ := launch_container t directory g
  refine ⟨⟨_, false⟩, added, directory, ?_, rfl⟩
  unfold getWebdriver
  rw [bind_of_ok harrange, bind_of_ok hlaunch, saveIf_container]
  rw [hg] at hbrowser
  exact hbrowser

/-- Nothing before the switch has `headless`. -/
theorem container_clean (t : UrlTables) :
    ∀ argument ∈ arranged (container t) (flag "en-US") [], ¬ headless <:+: argument := by
  show ∀ argument ∈ firstArguments false ++ languageArguments (flag "en-US") ++
    userAgentArguments none ++ [], ¬ headless <:+: argument
  decide +kernel

section Needed

variable {t : UrlTables} {url value : Str}

/-- A launch of the container whose proxy has the property: its switch is that of the URL's
address, without `headless`. -/
theorem container_needs (fields : List (Str × Json)) (h : FailsClosed t url)
    (hurl : Json.get? fields (flag "url") = some (.str url)) (haccept : Accepts url)
    (hswitch : ∀ f, ∃ directory g, proxyArguments (container t) (.obj fields) f =
      (.ok directory, g) ∧ g.arguments = f.arguments ++ [proxyServer ++ value]) :
    ¬ headless <:+: value ∧ ∃ address, reading value = some address ∧
      reading url = some address := by
  obtain ⟨cfg, hcfg⟩ := (accepts_iff hurl).mpr haccept
  obtain ⟨b, added, directory, hb, hline⟩ := container_starts ⟨cfg, hcfg⟩ hswitch
  obtain ⟨value', address, hone, hvalue, haddress⟩ := h (container t) rfl fields cfg hcfg hurl b hb
  rw [hline] at hone
  have hkept : ¬ headless <:+: value := fun hheadless => by
    have hlost := commandLine_loses added (proxyServers_arranged (container t) (flag "en-US"))
      (proxyServers_last directory) (container_clean t) ((headless_switch value).mpr hheadless)
    rw [arranged_switch, hlost] at hone
    cases hone
  rw [names_switch hkept] at hone
  cases hone
  exact ⟨hkept, address, hvalue, haddress⟩

theorem served_of_failsClosed (h : FailsClosed t url) (haccept : Accepts url) : Served t url := by
  obtain ⟨hkept, address, -, haddress⟩ := container_needs (plainFields url) h rfl haccept
    fun f => ⟨_, _, proxyArguments_plain t url f, rfl⟩
  have hpaid : ∀ {parts number}, urlsplit t url = some parts → parts.port = some number →
      ¬ headless <:+: bareProxy parts ∧ ∃ address, reading (bareProxy parts) = some address :=
    fun hparts hport => by
      obtain ⟨hkept, address, hread, -⟩ := container_needs (paidFields url) h rfl haccept
        (proxyArguments_paid hparts hport)
      exact ⟨hkept, address, hread⟩
  refine ⟨⟨address, haddress⟩, ?_, hkept⟩
  rcases splitSlashes_cases url with ⟨scheme, rest, hs, hurl⟩ | hnone
  · refine ⟨scheme, by rw [hurl, splitSlashes_scheme hs], fun hheadless parts hparts => ?_⟩
    obtain ⟨hscheme, -, -⟩ := urlsplit_reading hs hurl hparts haddress
    cases hport : parts.port with
    | none => rfl
    | some number =>
      refine absurd ?_ (hpaid hparts hport).1
      unfold bareProxy
      rw [hscheme, List.append_assoc]
      exact hheadless.trans (List.prefix_append ..).isInfix
  · obtain ⟨parts, hparts, hnetloc, hscheme⟩ := urlsplit_bare (t := t) hnone haddress
    have hport : parts.port = some none := by
      unfold Parts.port Parts.hostinfo
      rw [hnetloc]
      rfl
    have hbare : bareProxy parts = withAuthority parts.scheme [] [] := by
      unfold bareProxy withAuthority
      rw [hnetloc, List.append_assoc]
      rfl
    obtain ⟨-, address', hread⟩ := hpaid hparts hport
    rw [hbare, reading_schemeOnly hscheme] at hread
    cases hread

end Needed

/-- **Chrome fails closed** without a proxy, and for a URL exactly when it is served. -/
theorem fails_closed_iff (t : UrlTables) (url : Str) :
    (∀ (w : World) (proxy : Json), proxyToConfig proxy = .ok none →
      ∀ b, (getWebdriver w proxy w.frame).2.browser = some b → proxyServers b.arguments = []) ∧
    (FailsClosed t url ↔ (Accepts url → Served t url)) := by
  refine ⟨fun w proxy hproxy b hb => ?_, served_of_failsClosed, failsClosed_of_served⟩
  obtain ⟨added, language, switches, directory, hswitches, hline⟩ := started_arguments hb
  rw [hline, switches_none hswitches hproxy]
  exact names_none

/-- With credentials, the switch for `proxy.example.com:8080` is
`--proxy-server=proxy.example.com://`. -/
theorem schemeless_unnamed : ¬ FailsClosed .ascii (flag "proxy.example.com:8080") := by
  intro h
  have hparts : urlsplit .ascii (flag "proxy.example.com:8080") =
      some ⟨flag "proxy.example.com", [], flag "8080", [], []⟩ := rfl
  have hport : Parts.port ⟨flag "proxy.example.com", [], flag "8080", [], []⟩ = some none := rfl
  have haccept : Accepts (flag "proxy.example.com:8080") := by
    show (Str.strip (flag "proxy.example.com:8080")).isEmpty = false
    decide
  -- what stands before the colon is a scheme, so the switch that a launch needs has no host
  obtain ⟨-, address, hread, -⟩ := container_needs (paidFields (flag "proxy.example.com:8080")) h
    rfl haccept (proxyArguments_paid hparts hport)
  have hnone : reading (bareProxy ⟨flag "proxy.example.com", [], flag "8080", [], []⟩) = none := by
    decide
  rw [hnone] at hread
  cases hread

end Solverr.Launch
