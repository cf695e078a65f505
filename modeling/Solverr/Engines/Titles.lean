import Solverr.Engines.Pipeline

/-!
# The two rules about challenge titles

`CHALLENGE_TITLES` is read twice. `verdict` compares the live title with each entry
before a solve; `looks_like_challenge_html` looks for each entry inside the title of
the returned HTML after it. This file reads the title back out of a page
(`titleOf_page`), says what each rule makes of it, and from that on which titles the
two agree.
-/

namespace Solverr.Engines

open Solverr.Lib (Text CaseMap Asking)

/-- A page with a title: what is before it, the title, and what is after it. -/
def titledPage (pre title post : Text) : Text :=
  pre ++ ("<title>".toList ++ (title ++ ("</title>".toList ++ post)))

/-! ## Reading the title back -/

/-- The tags, by their first character. -/
theorem title_tags : "<title".toList = '<' :: "title".toList ∧
    "<title>".toList = "<title".toList ++ ['>'] ∧ "</title>".toList = '<' :: "/title>".toList := by
  decide

/-- A text without `<` is what is before the first closing tag. -/
theorem upTo_append {close s : Text} (hs : '<' ∉ s) (post : Text) :
    upTo ('<' :: close) (s ++ ('<' :: close ++ post)) = some s := by
  induction s with
  | nil =>
    have hhere : ('<' :: close).isPrefixOf ('<' :: (close ++ post)) = true :=
      List.isPrefixOf_iff_prefix.mpr ⟨post, rfl⟩
    rw [List.nil_append, List.cons_append, upTo, hhere]
    rfl
  | cons c s ih =>
    rw [List.mem_cons, not_or] at hs
    have hc : ('<' :: close).isPrefixOf (c :: (s ++ ('<' :: close ++ post))) = false := by
      rw [List.isPrefixOf_cons_cons, beq_false_of_ne hs.1, Bool.false_and]
    rw [List.cons_append, upTo, hc, ih hs.2]
    rfl

/-- Where the tag opens, its title is read. -/
theorem titleAt_append {t : Text} (ht : '<' ∉ t) (post : Text) :
    titleAt ("<title>".toList ++ (t ++ ("</title>".toList ++ post))) = some t := by
  have hlen : "<title".toList.length = 6 := by decide
  have hopen : "<title".toList.isPrefixOf
      ("<title".toList ++ ('>' :: (t ++ ("</title>".toList ++ post)))) = true :=
    List.isPrefixOf_iff_prefix.mpr (List.prefix_append ..)
  rw [title_tags.2.1, List.append_assoc, List.singleton_append, titleAt, hopen, if_pos rfl,
    ← hlen, List.drop_left, List.dropWhile_cons_of_neg (by simp), title_tags.2.2]
  exact upTo_append ht post

/-- The opening tag cannot straddle the join of two texts that joins at a `<`. -/
theorem not_prefix_of_append {tag : Text} (htag : '<' ∉ tag) {c : Char} {s rest : Text}
    (hs : ¬ '<' :: tag <+: c :: s) : ('<' :: tag).isPrefixOf (c :: (s ++ '<' :: rest)) = false := by
  rw [Bool.eq_false_iff]
  intro h
  obtain ⟨k, hk⟩ := List.isPrefixOf_iff_prefix.mp h
  rw [← List.cons_append] at hk
  rcases List.append_eq_append_iff.mp hk with ⟨tail, hleft, -⟩ | ⟨tail, hleft, hright⟩
  · exact hs ⟨tail, hleft.symm⟩
  · cases tail with
    | nil => exact hs ⟨[], by rw [hleft, List.append_nil, List.append_nil]⟩
    | cons d tail =>
      -- the tag would have a second `<` in it
      obtain ⟨rfl, -⟩ := List.cons.inj hright
      refine htag ?_
      rw [(List.cons.inj hleft).2]
      exact List.mem_append_right s (List.mem_cons_self ..)

/-- **The title of a page is read back**, whatever is around it. -/
theorem titleOf_page {pre t : Text} (hpre : ¬ "<title".toList <:+: pre) (ht : '<' ∉ t)
    (post : Text) : titleOf (titledPage pre t post) = some t := by
  have htag : '<' ∉ "title".toList := by decide
  induction pre with
  | nil =>
    have hcons : ∃ rest, titledPage [] t post = '<' :: rest := by
      rw [titledPage, title_tags.2.1, title_tags.1]
      exact ⟨_, rfl⟩
    have hhere := titleAt_append ht post
    obtain ⟨rest, hrest⟩ := hcons
    rw [titledPage, List.nil_append] at hrest ⊢
    rw [hrest] at hhere ⊢
    rw [titleOf, hhere, Option.some_or]
  | cons c pre ih =>
    -- the tag does not open here, so the title is that of the rest
    have hhere : titleAt (c :: titledPage pre t post) = none := by
      have hprefix : "<title".toList.isPrefixOf (c :: titledPage pre t post) = false := by
        rw [title_tags.1] at hpre ⊢
        rw [titledPage, title_tags.2.1, title_tags.1]
        exact not_prefix_of_append htag fun h => hpre h.isInfix
      rw [titleAt, hprefix]
      rfl
    have hcons : titledPage (c :: pre) t post = c :: titledPage pre t post := rfl
    rw [hcons, titleOf, hhere, Option.none_or]
    exact ih fun h => hpre (h.trans (List.suffix_cons c pre).isInfix)

/-! ## Lowering a page -/

/-- What the Unicode tables behind `str.lower` do around markup: a `<` or `>` parts
the text, is its own lower case and nobody else's, and white space neither appears
nor goes. -/
structure KeepsMarkup (u : CaseMap) : Prop where
  lower_lt : ∀ a b, u.lower (a ++ '<' :: b) = u.lower a ++ '<' :: u.lower b
  lower_gt : ∀ a b, u.lower (a ++ '>' :: b) = u.lower a ++ '>' :: u.lower b
  lt_mem : ∀ s, '<' ∈ u.lower s → '<' ∈ s
  strip : ∀ s, Text.strip s = s → Text.strip (u.lower s) = u.lower s

/-- A page, cut at its tags. -/
theorem titledPage_eq (pre t post : Text) : titledPage pre t post
    = pre ++ '<' :: ("title".toList ++ '>' :: (t ++ '<' :: ("/title".toList ++ '>' :: post))) := by
  have hopen : "<title>".toList = '<' :: ("title".toList ++ ['>']) := by decide
  have hclose : "</title>".toList = '<' :: ("/title".toList ++ ['>']) := by decide
  rw [titledPage, hopen, hclose]
  simp only [List.cons_append, List.append_assoc, List.nil_append]

/-- Lowering keeps the page's shape. -/
theorem lower_page {u : CaseMap} (hu : KeepsMarkup u) (pre t post : Text) :
    u.lower (titledPage pre t post) = titledPage (u.lower pre) (u.lower t) (u.lower post) := by
  have hopen : u.lower "title".toList = "title".toList := by
    rw [u.lower_of_ascii (by decide)]
    decide
  have hclose : u.lower "/title".toList = "/title".toList := by
    rw [u.lower_of_ascii (by decide)]
    decide
  rw [titledPage_eq, titledPage_eq, hu.lower_lt, hu.lower_gt, hu.lower_lt, hu.lower_gt, hopen,
    hclose]

/-! ## What each rule makes of a title -/

/-- After a solve: some entry is inside the title. -/
theorem looksLikeChallengeHtml_page {u : CaseMap} (hu : KeepsMarkup u) {pre t post : Text}
    (hpre : ¬ "<title".toList <:+: u.lower pre) (ht : '<' ∉ t) (hstrip : Text.strip t = t)
    (hmarkers : ∀ m ∈ challengeHtmlMarkers,
      contains m (u.lower (titledPage pre t post)) = false) :
    looksLikeChallengeHtml u (some (titledPage pre t post)) = true ↔
      ∃ c ∈ challengeTitles, u.lower c <:+: u.lower t := by
  have hmarked : (challengeHtmlMarkers.any fun m =>
      contains m (u.lower (titledPage pre t post))) = false := by
    rw [List.any_eq_false]
    intro m hm
    rw [hmarkers m hm]
    exact Bool.false_ne_true
  have htitle : titleOf (u.lower (titledPage pre t post)) = some (u.lower t) := by
    rw [lower_page hu]
    exact titleOf_page hpre (fun h => ht (hu.lt_mem t h)) _
  have hne : titledPage pre t post ≠ [] := by
    rw [titledPage_eq]
    exact List.append_ne_nil_of_right_ne_nil _ (by simp)
  obtain ⟨c, page, hpage⟩ := List.exists_cons_of_ne_nil hne
  rw [hpage] at hmarked htitle ⊢
  simp only [looksLikeChallengeHtml]
  rw [hmarked, Bool.or_false, htitle]
  simp only [hu.strip t hstrip, List.any_eq_true, contains, decide_eq_true_eq]

/-- Before a solve: the title is some entry. -/
theorem verdictOn_title {u : CaseMap} {t : Text} {present : Selector → Bool}
    (hdenied : deniedTitle t = none) (hpresent : ∀ s, present s = false) (widgets : Bool) :
    (verdictOn u widgets t present).verdict = .challenge ↔
      ∃ c ∈ challengeTitles, u.lower c = u.lower t := by
  have hfind : ∀ selectors : List Selector, selectors.find? present = none := fun selectors => by
    rw [List.find?_eq_none]
    intro s _
    rw [hpresent]
    exact Bool.false_ne_true
  have hrule : isChallengeTitle u t = true ↔ ∃ c ∈ challengeTitles, u.lower c = u.lower t := by
    simp only [isChallengeTitle, List.any_eq_true, decide_eq_true_eq]
  rw [← hrule]
  unfold verdictOn verdict
  rw [Asking.eval_bind, eval_title]
  simp only [hdenied]
  rw [Asking.eval_bind, eval_firstPresent]
  simp only [hfind]
  rw [Asking.eval_bind, eval_firstPresent]
  simp only [hfind]
  cases isChallengeTitle u t with
  | true => simp
  | false => simp [hfind]

/-- No entry is inside another: each has a character the other lacks. -/
theorem challengeTitles_apart (u : CaseMap) {c c' : Text} (hc : c ∈ challengeTitles)
    (hc' : c' ∈ challengeTitles) (h : u.lower c <:+: u.lower c') : u.lower c = u.lower c' := by
  have hmoment : u.lower "Just a moment...".toList = "just a moment...".toList := by
    rw [u.lower_of_ascii (by decide)]
    decide
  have hguard : u.lower "DDoS-Guard".toList = "ddos-guard".toList := by
    rw [u.lower_of_ascii (by decide)]
    decide
  simp only [challengeTitles, List.mem_cons, List.not_mem_nil, or_false] at hc hc'
  rcases hc with rfl | rfl <;> rcases hc' with rfl | rfl
  · rfl
  · have hspace : ' ' ∈ "ddos-guard".toList := by
      rw [hmoment, hguard] at h
      exact h.subset (by decide)
    exact absurd hspace (by decide)
  · have hdash : '-' ∈ "just a moment...".toList := by
      rw [hmoment, hguard] at h
      exact h.subset (by decide)
    exact absurd hdash (by decide)
  · rfl

/-- **The two rules agree about a title exactly when no entry is properly inside it**,
for both engines and whatever else is on the page; and the rule after a solve never
misses a title that the rule before it finds. -/
theorem title_rules_agree_iff {u : CaseMap} (hu : KeepsMarkup u) {pre t post : Text}
    (hpre : ¬ "<title".toList <:+: u.lower pre) (ht : '<' ∉ t) (hstrip : Text.strip t = t)
    (hdenied : deniedTitle t = none)
    (hmarkers : ∀ m ∈ challengeHtmlMarkers,
      contains m (u.lower (titledPage pre t post)) = false)
    {present : Selector → Bool} (hpresent : ∀ s, present s = false) (widgets : Bool) :
    ((looksLikeChallengeHtml u (some (titledPage pre t post)) = true ↔
        (verdictOn u widgets t present).verdict = .challenge) ↔
      ∀ c ∈ challengeTitles, u.lower c <:+: u.lower t → u.lower c = u.lower t) ∧
    ((verdictOn u widgets t present).verdict = .challenge →
      looksLikeChallengeHtml u (some (titledPage pre t post)) = true) := by
  rw [looksLikeChallengeHtml_page hu hpre ht hstrip hmarkers,
    verdictOn_title hdenied hpresent widgets]
  have hsound : (∃ c ∈ challengeTitles, u.lower c = u.lower t) →
      ∃ c ∈ challengeTitles, u.lower c <:+: u.lower t := by
    intro hlisted
    obtain ⟨c, hc, he⟩ := hlisted
    exact ⟨c, hc, he ▸ List.infix_rfl⟩
  refine ⟨⟨?_, ?_⟩, hsound⟩
  · intro hagree c hc hin
    obtain ⟨c', hc', he⟩ := hagree.mp ⟨c, hc, hin⟩
    rw [← he] at hin ⊢
    exact challengeTitles_apart u hc hc' hin
  · intro hexact
    refine ⟨?_, hsound⟩
    intro hlisted
    obtain ⟨c, hc, hin⟩ := hlisted
    exact ⟨c, hc, hexact c hc hin⟩

/-- The ASCII tables keep markup. -/
theorem keepsMarkup_ascii : KeepsMarkup .ascii where
  lower_lt a b := List.map_append
  lower_gt a b := List.map_append
  lt_mem s h := by
    obtain ⟨d, hd, hdc⟩ := List.mem_map.mp h
    exact Lib.eq_of_toLower_lt hdc (by decide) ▸ hd
  strip s hs := by
    show Text.strip (s.map Char.toLower) = s.map Char.toLower
    rw [Lib.strip_map_toLower, hs]

/-- An ordinary title. -/
theorem title_rules_agree_home :
    (looksLikeChallengeHtml .ascii (some (titledPage [] "Home".toList [])) = true ↔
      (verdictOn .ascii true "Home".toList fun _ => false).verdict = .challenge) := by
  refine (@title_rules_agree_iff .ascii keepsMarkup_ascii [] "Home".toList [] ?_ ?_ ?_ ?_ ?_ _
    (fun _ => rfl) true).1.mpr ?_ <;> decide +kernel

/-- A page about a protection service is no challenge before the solve and one after. -/
theorem title_rules_disagree : ¬ ∀ t : Text, '<' ∉ t → '&' ∉ t → Text.strip t = t →
    deniedTitle t = none →
    (∀ m ∈ challengeHtmlMarkers, contains m (CaseMap.ascii.lower (titledPage [] t [])) = false) →
    (looksLikeChallengeHtml .ascii (some (titledPage [] t [])) = true ↔
      (verdictOn .ascii true t fun _ => false).verdict = .challenge) := by
  intro h
  have hreview := h "DDoS-Guard review".toList (by decide +kernel) (by decide +kernel)
    (by decide +kernel) (by decide +kernel) (by decide +kernel)
  revert hreview
  decide +kernel

end Solverr.Engines
