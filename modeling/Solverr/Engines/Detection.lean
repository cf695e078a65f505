import Mathlib.Data.List.Infix
import Solverr.Lib.Text

/-!
# Detection constants

The lists of `detection.py`, read by both engines and by the controller, and the
test of a returned page: whether its HTML is itself an unsolved challenge.
-/

namespace Solverr.Engines

open Solverr.Lib (Text CaseMap)

/-- A CSS selector. -/
abbrev Selector := String

/-- `ACCESS_DENIED_TITLES` -/
def accessDeniedTitles : List Text :=
  ["Access denied".toList, "Attention Required! | Cloudflare".toList]

/-- `ACCESS_DENIED_SELECTORS` -/
def accessDeniedSelectors : List Selector :=
  ["div.cf-error-title span.cf-code-label span", "#cf-error-details div.cf-error-overview h1"]

/-- `CHALLENGE_TITLES` -/
def challengeTitles : List Text :=
  ["Just a moment...".toList, "DDoS-Guard".toList]

/-- `CHALLENGE_SELECTORS` -/
def challengeSelectors : List Selector :=
  ["#cf-challenge-running", ".ray_id", ".attack-box", "#cf-please-wait", "#challenge-spinner",
    "#trk_jschal_js", "#turnstile-wrapper", ".lds-ring",
    "script[src*=\"/cdn-cgi/challenge-platform/\"]", "#challenge-form", "#challenge-stage",
    "td.info #js_info", "div.vc div.text-box h2"]

/-- `TURNSTILE_SELECTORS` -/
def turnstileSelectors : List Selector := ["input[name='cf-turnstile-response']"]

/-- `INTERSTITIAL_SELECTORS` -/
def interstitialSelectors : List Selector :=
  ["#challenge-form", "#challenge-stage", "#cf-challenge-running", "#cf-please-wait",
    "#challenge-spinner", "#trk_jschal_js"]

/-- `CHALLENGE_HTML_MARKERS` -/
def challengeHtmlMarkers : List Text :=
  ["window._cf_chl_opt".toList, "cf-challenge-running".toList, "id=\"challenge-form\"".toList,
    "id=\"challenge-stage\"".toList, "id=\"challenge-error".toList]

/-- The shortest text up to the first occurrence of `close`. -/
def upTo (close : Text) : Text → Option Text
  | [] => if close = [] then some [] else none
  | c :: s =>
    if close.isPrefixOf (c :: s) then some [] else (upTo close s).map (c :: ·)

/-- The group of `<title[^>]*>(.*?)</title>`, matched at the start of the text. -/
def titleAt (html : Text) : Option Text :=
  if "<title".toList.isPrefixOf html then
    match (html.drop 6).dropWhile (· ≠ '>') with
    | [] => none
    | _ :: rest => upTo "</title>".toList rest
  else none

/-- `re.search` of the same expression: the first place where it matches. -/
def titleOf : Text → Option Text
  | [] => none
  | c :: html => (titleAt (c :: html)).or (titleOf html)

/-- `needle in text` -/
def contains (needle text : Text) : Bool := decide (needle <:+: text)

/-- `looks_like_challenge_html(html)` -/
def looksLikeChallengeHtml (u : CaseMap) : Option Text → Bool
  | none | some [] => false
  | some html =>
    let low := u.lower html
    (match titleOf low with
      | some title => challengeTitles.any fun t => contains (u.lower t) (Text.strip title)
      | none => false) ||
    challengeHtmlMarkers.any fun marker => contains marker low

end Solverr.Engines
