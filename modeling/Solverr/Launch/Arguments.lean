import Mathlib.Data.List.Infix
import Solverr.Geo.Proxy

/-!
# The arguments of a browser

What `get_webdriver` puts on Chrome's command line, and what the vendored
`undetected_chromedriver` makes of it before it starts the process. Its loop over the
arguments removes every one that has `headless` in it, from the list that it goes through,
so that the argument behind a removed one is not looked at.
-/

namespace Solverr.Launch

open Solverr.Lib

/-! ## The list of `get_webdriver` -/

def flag (text : String) : Str := .of text.toList

/-- What every launch begins with. -/
def firstArguments (armArch : Bool) : List Str :=
  [flag "--no-sandbox", flag "--window-size=1920,1080",
    flag "--disable-search-engine-choice-screen", flag "--disable-setuid-sandbox",
    flag "--disable-dev-shm-usage", flag "--no-zygote"] ++
  (if armArch then [flag "--disable-gpu-sandbox"] else []) ++
  [flag "--ignore-certificate-errors", flag "--ignore-ssl-errors",
    flag "--disable-component-update"]

/-- `accept_language(tag)` -/
def acceptLanguage (tag : Str) : Str :=
  let base := (cut '-'.toNat tag).1
  if base = tag then tag else tag ++ flag ", " ++ base

def languageArguments (language : Str) : List Str :=
  [flag "--accept-lang=" ++ acceptLanguage language, flag "--lang=" ++ language]

def userAgentArguments (userAgent : Option Str) : List Str :=
  (userAgent.map fun text => flag "--user-agent=" ++ text).toList

def proxyServer : Str := flag "--proxy-server="

/-- `disabled_features` -/
def disabledFeatures (extension : Bool) : List Str :=
  [flag "LocalNetworkAccessChecks", flag "OptimizationGuideOnDeviceModel", flag "GlicActor",
    flag "GlicActorUi", flag "PromptAPIForGeminiNano", flag "PromptAPIX",
    flag "PromptAPINoTranslation", flag "SummarizationAPIForGeminiNano",
    flag "WriterAPIForGeminiNano", flag "TranslationAPI", flag "LanguageDetectionAPI",
    flag "AIPromptAPI", flag "AIRewriteAPI", flag "AIWritingAssistant",
    flag "AIGenerativeSuggestions", flag "AIGeneratedFlags", flag "AICompositionFeature",
    flag "HistoryAI", flag "TabOrganizer", flag "SmartSuggestion"] ++
  if extension then [flag "DisableLoadExtensionCommandLineSwitch"] else []

/-- What the `try` block adds, for an extension in `directory`. -/
def lastArguments (directory : Option Str) : List Str :=
  (directory.map fun path => flag "--load-extension=" ++ path).toList ++
    [flag "--disable-features=" ++ (flag ",").intercalate (disabledFeatures directory.isSome)]

/-! ## What `undetected_chromedriver` makes of it -/

def headless : Str := flag "headless"

/-- The loop over `options.arguments` from index `i` on. There are never more turns than
arguments. -/
def removeHeadless : ℕ → ℕ → List Str → List Str
  | 0, _, arguments => arguments
  | turns + 1, i, arguments =>
    match arguments[i]? with
    | none => arguments
    | some argument =>
      if headless <:+: argument then removeHeadless turns (i + 1) (arguments.erase argument)
      else removeHeadless turns (i + 1) arguments

/-- What the constructor of `Chrome` finds out for its own arguments. The profile is one
that it made unless an argument names one, and the language is what it reads off the last
argument with `lang` in it. -/
structure Added where
  debugPort : Str
  profile : Option Str
  language : Str
  headlessMode : Option Str
  logLevel : Str

/-- The command line of the process. -/
def commandLine (added : Added) (arguments : List Str) : List Str :=
  let arguments := arguments ++ [flag "--remote-debugging-host=127.0.0.1",
    flag "--remote-debugging-port=" ++ added.debugPort]
  removeHeadless arguments.length 0 arguments ++
    (added.profile.map fun path => flag "--user-data-dir=" ++ path).toList ++
    [flag "--lang=" ++ added.language, flag "--no-default-browser-check", flag "--no-first-run",
      flag "--no-sandbox", flag "--test-type"] ++
    (added.headlessMode.map fun mode => flag "--headless=" ++ mode).toList ++
    [flag "--window-size=1920,1080", flag "--start-maximized", flag "--no-sandbox",
      flag "--log-level=" ++ added.logLevel]

/-! ## The proxies that a command line names -/

def isProxyServer (argument : Str) : Bool := proxyServer.isPrefixOf argument

def proxyServers (arguments : List Str) : List Str :=
  (arguments.filter isProxyServer).map fun argument => argument.drop proxyServer.length

theorem proxyServers_append (a b : List Str) :
    proxyServers (a ++ b) = proxyServers a ++ proxyServers b := by
  unfold proxyServers
  rw [List.filter_append, List.map_append]

/-! ## What the loop removes -/

/-- The loop only removes. -/
theorem removeHeadless_sublist (turns i : ℕ) (arguments : List Str) :
    (removeHeadless turns i arguments).Sublist arguments := by
  induction turns generalizing i arguments with
  | zero => exact List.Sublist.refl _
  | succ turns ih =>
    unfold removeHeadless
    split
    next => exact List.Sublist.refl _
    next argument _ =>
      split
      next => exact (ih ..).trans List.erase_sublist
      next => exact ih ..

/-- **A switch without `headless` is kept.** -/
theorem proxyServers_removeHeadless {arguments : List Str}
    (h : ∀ argument ∈ arguments, isProxyServer argument = true → ¬ headless <:+: argument)
    (turns i : ℕ) :
    proxyServers (removeHeadless turns i arguments) = proxyServers arguments := by
  induction turns generalizing i arguments with
  | zero => rfl
  | succ turns ih =>
    unfold removeHeadless
    split
    next => rfl
    next argument hargument =>
      split
      next hheadless =>
        have hother : argument ∉ arguments.filter isProxyServer := fun hin =>
          h argument (List.mem_filter.mp hin).1 (List.mem_filter.mp hin).2 hheadless
        rw [ih fun a ha => h a (List.mem_of_mem_erase ha)]
        unfold proxyServers
        rw [← List.erase_filter, List.erase_of_not_mem hother]
      next => exact ih h ..

/-- The loop goes by what has no `headless`. -/
theorem removeHeadless_skip {before : List Str} (h : ∀ argument ∈ before, ¬ headless <:+: argument)
    (turns i : ℕ) (pre after : List Str) (hi : i = pre.length) :
    removeHeadless (before.length + turns) i (pre ++ (before ++ after)) =
      removeHeadless turns (i + before.length) (pre ++ (before ++ after)) := by
  induction before generalizing i pre with
  | nil => rw [List.length_nil, Nat.zero_add, Nat.add_zero]
  | cons argument before ih =>
    have hat : (pre ++ (argument :: before ++ after))[i]? = some argument := by
      rw [hi, List.getElem?_append_right (Nat.le_refl _), Nat.sub_self]
      rfl
    rw [List.length_cons, Nat.succ_add]
    conv_lhs => unfold removeHeadless
    rw [hat]
    dsimp only
    rw [if_neg (h argument (List.mem_cons_self ..))]
    have hnext := ih (fun a ha => h a (List.mem_cons_of_mem _ ha)) (i + 1) (pre ++ [argument])
      (by rw [hi, List.length_append]; rfl)
    rw [List.append_assoc, List.singleton_append, ← List.cons_append] at hnext
    rw [hnext, Nat.add_assoc, Nat.add_comm 1]

/-- **A switch with `headless` is removed**, where nothing before it is. -/
theorem removeHeadless_removes {before after : List Str} {switch : Str}
    (h : ∀ argument ∈ before, ¬ headless <:+: argument) (hswitch : headless <:+: switch) :
    (removeHeadless (before ++ switch :: after).length 0 (before ++ switch :: after)).Sublist
      (before ++ after) := by
  have hat : (before ++ switch :: after)[before.length]? = some switch := by
    rw [List.getElem?_append_right (Nat.le_refl _), Nat.sub_self]
    rfl
  have hnot : switch ∉ before := fun hin => h switch hin hswitch
  have hskip := removeHeadless_skip h (after.length + 1) 0 [] (switch :: after) rfl
  rw [List.nil_append, Nat.zero_add] at hskip
  rw [List.length_append, List.length_cons, hskip]
  unfold removeHeadless
  rw [hat]
  dsimp only
  rw [if_pos hswitch, List.erase_append_right _ hnot, List.erase_cons_head]
  exact removeHeadless_sublist ..

/-! ## The command line -/

/-- The arguments that the constructor adds are no proxies. -/
theorem proxyServers_commandLine (added : Added) (arguments : List Str) :
    proxyServers (commandLine added arguments) =
      proxyServers (removeHeadless (arguments ++ [flag "--remote-debugging-host=127.0.0.1",
        flag "--remote-debugging-port=" ++ added.debugPort]).length 0
        (arguments ++ [flag "--remote-debugging-host=127.0.0.1",
          flag "--remote-debugging-port=" ++ added.debugPort])) := by
  have hprofile : proxyServers (added.profile.map fun path =>
      flag "--user-data-dir=" ++ path).toList = [] := by
    cases added.profile <;> rfl
  have hmode : proxyServers (added.headlessMode.map fun mode =>
      flag "--headless=" ++ mode).toList = [] := by
    cases added.headlessMode <;> rfl
  have hfirst : proxyServers [flag "--lang=" ++ added.language, flag "--no-default-browser-check",
      flag "--no-first-run", flag "--no-sandbox", flag "--test-type"] = [] := rfl
  have hlast : proxyServers [flag "--window-size=1920,1080", flag "--start-maximized",
      flag "--no-sandbox", flag "--log-level=" ++ added.logLevel] = [] := rfl
  unfold commandLine
  simp only [proxyServers_append, hprofile, hmode, hfirst, hlast, List.append_nil]

/-- The two arguments that end the list before the loop. -/
def debugArguments (added : Added) : List Str :=
  [flag "--remote-debugging-host=127.0.0.1", flag "--remote-debugging-port=" ++ added.debugPort]

section Switch

variable {before after : List Str} (added : Added)

/-- A command line without a proxy among its arguments names none. -/
theorem commandLine_plain {arguments : List Str} (h : proxyServers arguments = []) :
    proxyServers (commandLine added arguments) = [] := by
  have hall : proxyServers (arguments ++ debugArguments added) = [] := by
    rw [proxyServers_append, h]
    rfl
  have hnone : (arguments ++ debugArguments added).filter isProxyServer = [] :=
    List.map_eq_nil_iff.mp hall
  rw [proxyServers_commandLine, ← debugArguments, proxyServers_removeHeadless, hall]
  intro argument hin hproxy
  exact absurd (hnone ▸ List.mem_filter.mpr ⟨hin, hproxy⟩) List.not_mem_nil

/-- One switch among arguments that are none. -/
theorem filter_switch (hbefore : proxyServers before = []) (hafter : proxyServers after = [])
    (value : Str) :
    ((before ++ (proxyServer ++ value) :: after) ++ debugArguments added).filter isProxyServer =
      [proxyServer ++ value] := by
  have hswitch : isProxyServer (proxyServer ++ value) = true :=
    List.isPrefixOf_iff_prefix.mpr (List.prefix_append ..)
  have hnone : ∀ {arguments : List Str}, proxyServers arguments = [] →
      arguments.filter isProxyServer = [] := fun h => List.map_eq_nil_iff.mp h
  rw [List.filter_append, List.filter_append, hnone hbefore, List.filter_cons_of_pos hswitch,
    hnone hafter]
  rfl

theorem proxyServers_one (hbefore : proxyServers before = []) (hafter : proxyServers after = [])
    (value : Str) :
    proxyServers ((before ++ (proxyServer ++ value) :: after) ++ debugArguments added) =
      [value] := by
  unfold proxyServers
  rw [filter_switch added hbefore hafter, List.map_cons, List.map_nil, List.drop_left]

/-- **It names the proxy** where the switch has no `headless`. -/
theorem commandLine_names (hbefore : proxyServers before = []) (hafter : proxyServers after = [])
    {value : Str} (hvalue : ¬ headless <:+: proxyServer ++ value) :
    proxyServers (commandLine added (before ++ (proxyServer ++ value) :: after)) = [value] := by
  rw [proxyServers_commandLine, ← debugArguments, proxyServers_removeHeadless,
    proxyServers_one added hbefore hafter]
  intro argument hin hproxy
  have hone := List.mem_filter.mpr ⟨hin, hproxy⟩
  rw [filter_switch added hbefore hafter, List.mem_singleton] at hone
  rwa [hone]

/-- **It names none** where the switch has `headless`, and nothing before it. -/
theorem commandLine_loses (hbefore : proxyServers before = []) (hafter : proxyServers after = [])
    (hclean : ∀ argument ∈ before, ¬ headless <:+: argument) {value : Str}
    (hvalue : headless <:+: proxyServer ++ value) :
    proxyServers (commandLine added (before ++ (proxyServer ++ value) :: after)) = [] := by
  rw [proxyServers_commandLine, ← debugArguments, List.append_assoc, List.cons_append]
  have hnone : proxyServers (before ++ (after ++ debugArguments added)) = [] := by
    rw [proxyServers_append, proxyServers_append, hbefore, hafter]
    rfl
  have hsub : (proxyServers (removeHeadless
        (before ++ (proxyServer ++ value) :: (after ++ debugArguments added)).length 0
        (before ++ (proxyServer ++ value) :: (after ++ debugArguments added)))).Sublist
      (proxyServers (before ++ (after ++ debugArguments added))) :=
    ((removeHeadless_removes hclean hvalue).filter _).map _
  rw [hnone] at hsub
  exact List.sublist_nil.mp hsub

end Switch

end Solverr.Launch
