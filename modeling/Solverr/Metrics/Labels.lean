import Solverr.Lib.Admission
import Solverr.Lib.Run
import Solverr.Lib.Strings

/-!
# Metric labels

`bottle_plugins/prometheus_plugin.py`: `parse_domain_url`, called by any number of threads
at once. Each read and each write of `_seen_domains` is a step of its own, under the lock.
`reset_domain_labels`, which exists for the tests, is left out.

The set of hosts is one that only grows, up to its cap: a label is a verdict about a host,
and `Inv` says that every label given so far still stands.
-/

namespace Solverr.Metrics

open Solverr.Lib

abbrev Tid := ℕ

/-- `_MAX_DOMAIN_LABELS` -/
def maxDomainLabels : ℕ := 100

/-- `_OTHER_DOMAIN` -/
def otherDomain : Str := .of "other".toList

/-- `_UNKNOWN_DOMAIN` -/
def unknownDomain : Str := .of "unknown".toList

/-- What a call returns, by its `return` statement: a host may be called `other` too. -/
inductive Label
  | host (hostname : Str)
  | other
  | unknown
  deriving DecidableEq

/-- The label as it stands in the metrics. -/
def Label.text : Label → Str
  | .host hostname => hostname
  | .other => otherDomain
  | .unknown => unknownDomain

/-- Where a thread is in `parse_domain_url`; from `looking` on it holds the lock. -/
inductive Pc
  | idle
  | waiting (hostname : Str)
  | looking (hostname : Str)
  | counting (hostname : Str)
  | adding (hostname : Str)
  | leaving (hostname : Str) (label : Label)

/-- What a call that is over said, and of which host, if there was one. -/
structure Report where
  host : Option Str
  label : Label

/-- `_domains_lock`, `_seen_domains`, the threads, and the calls that are over. -/
structure World where
  lock : Option Tid
  seen : Finset Str
  pcs : Tid → Pc
  reports : List Report

/-- After the start. -/
def World.start : World := ⟨none, ∅, fun _ => .idle, []⟩

def World.goto (w : World) (t : Tid) (p : Pc) : World :=
  { w with pcs := Function.update w.pcs t p }

@[simp] theorem World.goto_self (w : World) (t : Tid) (p : Pc) : (w.goto t p).pcs t = p :=
  Function.update_self ..

theorem World.goto_other (w : World) {t t' : Tid} (p : Pc) (h : t' ≠ t) :
    (w.goto t p).pcs t' = w.pcs t' :=
  Function.update_of_ne h ..

/-- `parse_domain_url(url)` is called, or a thread in it goes on. -/
inductive Act
  | call (t : Tid) (url : Json)
  | resume (t : Tid)

section Step

variable (tables : UrlTables) (u : Unicode)

/-- `urllib.parse.urlparse(url).hostname if url else None`. Splitting fails on some strings,
and on every value that is no string. -/
def hostnameOf (url : Json) : Option (Option Str) :=
  if url.truthy then
    match url with
    | .str s => (Url.urlsplit tables s).map (·.hostname u)
    | _ => none
  else some none

/-- One step. -/
def step (w : World) : Act → Option World
  | .call t url =>
    match w.pcs t with
    | .idle =>
      match hostnameOf tables u url with
      | none => some w
      | some hostname =>
        match hostname.filter (!·.isEmpty) with
        | none => some { w with reports := ⟨none, .unknown⟩ :: w.reports }
        | some hostname => some (w.goto t (.waiting hostname))
    | _ => none
  | .resume t =>
    match w.pcs t with
    | .idle => none
    | .waiting hostname =>
      if w.lock.isNone then some ({ w with lock := some t }.goto t (.looking hostname)) else none
    | .looking hostname =>
      if hostname ∈ w.seen then some (w.goto t (.leaving hostname (.host hostname)))
      else some (w.goto t (.counting hostname))
    | .counting hostname =>
      if w.seen.card ≥ maxDomainLabels then some (w.goto t (.leaving hostname .other))
      else some (w.goto t (.adding hostname))
    | .adding hostname =>
      some ({ w with seen := insert hostname w.seen }.goto t (.leaving hostname (.host hostname)))
    | .leaving hostname label =>
      some ({ w with lock := none, reports := ⟨some hostname, label⟩ :: w.reports }.goto t .idle)

end Step

/-! ## What threads and reports know of the set -/

/-- The point is under the lock. -/
def Pc.Holds : Pc → Prop
  | .idle | .waiting _ => False
  | .looking _ | .counting _ | .adding _ | .leaving _ _ => True

/-- The label that a verdict about a host comes out as. -/
def verdictLabel (hostname : Str) : Verdict → Label
  | .admitted => .host hostname
  | .refused => .other

/-- A label of a host is a verdict that stands. -/
def Right (seen : Finset Str) (hostname : Str) (label : Label) : Prop :=
  ∃ v, label = verdictLabel hostname v ∧ Stands maxDomainLabels seen hostname v

/-- What a thread has found out by the time it is at a point. -/
def Pc.Knows (seen : Finset Str) : Pc → Prop
  | .idle | .waiting _ | .looking _ => True
  | .counting hostname => hostname ∉ seen
  | .adding _ => seen.card < maxDomainLabels
  | .leaving hostname label => Right seen hostname label

def Report.Right (seen : Finset Str) (r : Report) : Prop :=
  match r.host with
  | none => r.label = .unknown
  | some hostname => Metrics.Right seen hostname r.label

/-- What holds between any two steps. -/
structure Inv (w : World) : Prop where
  within : w.seen.card ≤ maxDomainLabels
  alone : ∀ t, (w.pcs t).Holds → w.lock = some t
  knows : ∀ t, (w.pcs t).Knows w.seen
  right : ∀ r ∈ w.reports, r.Right w.seen

theorem Inv.start : Inv World.start where
  within := Nat.zero_le _
  alone := fun _ h => h.elim
  knows := fun _ => trivial
  right := fun _ h => nomatch h

/-- What is reported stays right while the set grows. -/
theorem Report.Right.grows {s s' : Finset Str} {r : Report} (h : r.Right s)
    (hgrows : Grows maxDomainLabels s s') : r.Right s' := by
  unfold Report.Right at h ⊢
  cases hhost : r.host with
  | none =>
    rw [hhost] at h
    exact h
  | some hostname =>
    rw [hhost] at h
    obtain ⟨v, hlabel, hstands⟩ := h
    exact ⟨v, hlabel, hstands.grows hgrows⟩

/-- Who does not hold the lock knows nothing that another thread could change. -/
theorem Pc.Knows.of_not_holds {seen : Finset Str} {p : Pc} (h : ¬ p.Holds) : p.Knows seen := by
  cases p with
  | idle => trivial
  | waiting => trivial
  | looking => trivial
  | counting => exact absurd trivial h
  | adding => exact absurd trivial h
  | leaving => exact absurd trivial h

/-- A thread goes to another point, and the set stays: it may take the lock on its way, if
nobody has it, or give it back. -/
theorem Inv.goto {w : World} (h : Inv w) {t : Tid} {p : Pc} {lock : Option Tid}
    {reports : List Report} (hheld : (w.pcs t).Holds ∨ w.lock = none ∨ lock = w.lock)
    (hlock : p.Holds → lock = some t) (hknows : p.Knows w.seen)
    (hreports : ∀ r ∈ reports, r.Right w.seen) :
    Inv ({ w with lock := lock, reports := reports }.goto t p) := by
  refine ⟨h.within, ?_, ?_, hreports⟩
  · intro u hu
    by_cases hut : u = t
    · rw [hut] at hu ⊢
      rw [World.goto_self] at hu
      exact hlock hu
    · rw [World.goto_other _ _ hut] at hu
      have hmine := h.alone u hu
      -- the lock is with the other thread, so this one did not have it and did not take it
      rcases hheld with hheld | hfree | hsame
      · exact absurd (Option.some.inj (hmine.symm.trans (h.alone t hheld))) hut
      · rw [hfree] at hmine
        cases hmine
      · exact hsame.trans hmine
  · intro u
    by_cases hut : u = t
    · rw [hut, World.goto_self]
      exact hknows
    · rw [World.goto_other _ _ hut]
      exact h.knows u

/-- The thread that holds the lock takes a host into the set. -/
theorem Inv.add {w : World} (h : Inv w) {t : Tid} {hostname : Str}
    (hpc : w.pcs t = .adding hostname) :
    Inv ({ w with seen := insert hostname w.seen }.goto t
      (.leaving hostname (.host hostname))) := by
  have hholds : (w.pcs t).Holds := hpc ▸ trivial
  have hroom : w.seen.card < maxDomainLabels := by
    have hknows := h.knows t
    rw [hpc] at hknows
    exact hknows
  have hgrows := Grows.insert hroom hostname
  refine ⟨hgrows.within, ?_, ?_, fun r hr => (h.right r hr).grows hgrows⟩
  · intro u hu
    by_cases hut : u = t
    · rw [hut]
      exact h.alone t hholds
    · rw [World.goto_other _ _ hut] at hu
      exact h.alone u hu
  · intro u
    by_cases hut : u = t
    · rw [hut, World.goto_self]
      exact ⟨.admitted, rfl, Finset.mem_insert_self hostname w.seen⟩
    · rw [World.goto_other _ _ hut]
      -- the lock is with this thread, so the other one has no say about the set
      refine Pc.Knows.of_not_holds fun hu => hut ?_
      exact Option.some.inj ((h.alone u hu).symm.trans (h.alone t hholds))

section Runs

variable {tables : UrlTables} {u : Unicode}

/-- One step keeps every label right. -/
theorem Inv.step {w w' : World} {a : Act} (h : Inv w) (hs : step tables u w a = some w') :
    Inv w' := by
  cases a with
  | call t url =>
    rw [Metrics.step] at hs
    split at hs
    next hpc =>
      split at hs
      next =>
        -- splitting the URL raised
        obtain rfl := Option.some.inj hs
        exact h
      next =>
        split at hs
        next =>
          -- no host, so the call is over
          obtain rfl := Option.some.inj hs
          refine ⟨h.within, h.alone, h.knows, fun r hr => ?_⟩
          rcases List.mem_cons.mp hr with hr | hr
          · rw [hr]
            rfl
          · exact h.right r hr
        next =>
          obtain rfl := Option.some.inj hs
          exact h.goto (.inr (.inr rfl)) False.elim trivial h.right
    next => cases hs
  | resume t =>
    rw [Metrics.step] at hs
    cases hpc : w.pcs t with
    | idle =>
      rw [hpc] at hs
      cases hs
    | waiting hostname =>
      rw [hpc] at hs
      dsimp only at hs
      split at hs
      next hfree =>
        obtain rfl := Option.some.inj hs
        have hnone := Option.isNone_iff_eq_none.mp hfree
        exact h.goto (.inr (.inl hnone)) (fun _ => rfl) trivial h.right
      next => cases hs
    | looking hostname =>
      have hlock := h.alone t (hpc ▸ trivial)
      rw [hpc] at hs
      dsimp only at hs
      split at hs
      next hmem =>
        obtain rfl := Option.some.inj hs
        exact h.goto (.inr (.inr rfl)) (fun _ => hlock) ⟨.admitted, rfl, hmem⟩ h.right
      next hmem =>
        obtain rfl := Option.some.inj hs
        exact h.goto (.inr (.inr rfl)) (fun _ => hlock) hmem h.right
    | counting hostname =>
      -- the lock has kept the host out since the look
      have hlock := h.alone t (hpc ▸ trivial)
      have hmem := h.knows t
      rw [hpc] at hs hmem
      dsimp only at hs
      split at hs
      next hfull =>
        obtain rfl := Option.some.inj hs
        exact h.goto (.inr (.inr rfl)) (fun _ => hlock) ⟨.refused, rfl, hfull, hmem⟩ h.right
      next hroom =>
        obtain rfl := Option.some.inj hs
        exact h.goto (.inr (.inr rfl)) (fun _ => hlock) (Nat.lt_of_not_le hroom) h.right
    | adding hostname =>
      rw [hpc] at hs
      obtain rfl := Option.some.inj hs
      exact h.add hpc
    | leaving hostname label =>
      have hright := h.knows t
      rw [hpc] at hs hright
      obtain rfl := Option.some.inj hs
      refine h.goto (.inl (hpc ▸ trivial)) False.elim trivial fun r hr => ?_
      rcases List.mem_cons.mp hr with hr | hr
      · rw [hr]
        exact hright
      · exact h.right r hr

theorem Inv.run {w : World} (h : Run (Metrics.step tables u) Any World.start w) : Inv w :=
  h.invariant (fun _ _ _ hi _ hs => hi.step hs) Inv.start

/-! ## What has been reported -/

/-- The hosts that were reported as themselves. -/
def World.named (w : World) : Finset Str :=
  (w.reports.filterMap fun r => r.host.filter fun hostname => r.label = .host hostname).toFinset

/-- The labels that stand in the metrics. -/
def World.labels (w : World) : Finset Str := (w.reports.map fun r => r.label.text).toFinset

theorem mem_named {w : World} {hostname : Str} : hostname ∈ w.named ↔
    ∃ r ∈ w.reports, r.host = some hostname ∧ r.label = .host hostname := by
  rw [World.named, List.mem_toFinset, List.mem_filterMap]
  refine exists_congr fun r => and_congr_right fun _ => ?_
  rw [Option.filter_eq_some_iff, decide_eq_true_iff]

/-- A label that is right is the host's own name, and the host is in the set, or it is the
bucket's. -/
theorem Right.cases {seen : Finset Str} {hostname : Str} {label : Label}
    (h : Right seen hostname label) :
    label = .host hostname ∧ hostname ∈ seen ∨ label = .other := by
  obtain ⟨v, hlabel, hstands⟩ := h
  cases v with
  | admitted => exact .inl ⟨hlabel, hstands⟩
  | refused => exact .inr hlabel

theorem Right.unique {seen : Finset Str} {hostname : Str} {label label' : Label}
    (h : Right seen hostname label) (h' : Right seen hostname label') : label = label' := by
  obtain ⟨v, hlabel, hstands⟩ := h
  obtain ⟨v', hlabel', hstands'⟩ := h'
  rw [hlabel, hlabel', hstands.unique hstands']

/-- What is known of a report of a host. -/
theorem Inv.right_of_host {w : World} (h : Inv w) {r : Report} (hr : r ∈ w.reports)
    {hostname : Str} (hhost : r.host = some hostname) : Right w.seen hostname r.label := by
  have hright := h.right r hr
  rw [Report.Right, hhost] at hright
  exact hright

/-- The hosts reported as themselves were all admitted. -/
theorem Inv.card_named {w : World} (h : Inv w) : w.named.card ≤ maxDomainLabels := by
  refine card_admitted_le h.within fun hostname hnamed => ?_
  obtain ⟨r, hr, hhost, hlabel⟩ := mem_named.mp hnamed
  rcases (h.right_of_host hr hhost).cases with hown | hother
  · exact hown.2
  · rw [hother] at hlabel
    cases hlabel

/-- There are two labels beside the names of hosts. -/
theorem Inv.labels_subset {w : World} (h : Inv w) :
    w.labels ⊆ insert otherDomain (insert unknownDomain w.named) := by
  intro label hlabel
  rw [World.labels, List.mem_toFinset] at hlabel
  obtain ⟨r, hr, htext⟩ := List.mem_map.mp hlabel
  rw [← htext, Finset.mem_insert, Finset.mem_insert]
  cases hhost : r.host with
  | none =>
    have hright := h.right r hr
    rw [Report.Right, hhost] at hright
    exact .inr (.inl (congrArg Label.text hright))
  | some hostname =>
    rcases (h.right_of_host hr hhost).cases with hown | hother
    · have hnamed : hostname ∈ w.named := mem_named.mpr ⟨r, hr, hhost, hown.1⟩
      rw [hown.1]
      exact .inr (.inr hnamed)
    · exact .inl (congrArg Label.text hother)

/-- **Labels are bounded, and a host keeps its label.** -/
theorem labels_bounded_and_stable {w : World} (h : Run (Metrics.step tables u) Any World.start w) :
    w.named.card ≤ 100 ∧ w.labels.card ≤ 102 ∧
      (∀ r ∈ w.reports, ∀ hostname, r.host = some hostname →
        r.label = .host hostname ∨ r.label = .other) ∧
      ∀ r ∈ w.reports, ∀ r' ∈ w.reports, r.host = r'.host → r.label = r'.label := by
  have hinv := Inv.run h
  have hnamed := hinv.card_named
  refine ⟨hnamed, ?_, ?_, ?_⟩
  · have hsubset := Finset.card_le_card hinv.labels_subset
    have hother := Finset.card_insert_le otherDomain (insert unknownDomain w.named)
    have hunknown := Finset.card_insert_le unknownDomain w.named
    rw [maxDomainLabels] at hnamed
    omega
  · intro r hr hostname hhost
    exact (hinv.right_of_host hr hhost).cases.imp_left And.left
  · intro r hr r' hr' hsame
    cases hhost : r.host with
    | none =>
      have hright := hinv.right r hr
      have hright' := hinv.right r' hr'
      rw [Report.Right, hhost] at hright
      rw [Report.Right, ← hsame, hhost] at hright'
      exact hright.trans hright'.symm
    | some hostname =>
      have hright := hinv.right_of_host hr hhost
      exact hright.unique (hinv.right_of_host hr' (hsame ▸ hhost))

end Runs

/-- Two threads ask for one host at once, and a third has a URL without one. -/
theorem labels_bounded_of_two : ∃ w : World,
    w.reports.map Report.label =
      [.host (.of "one.tld".toList), .host (.of "one.tld".toList), .unknown] ∧
    w.named.card ≤ 100 ∧ w.labels.card ≤ 102 ∧
      (∀ r ∈ w.reports, ∀ hostname, r.host = some hostname →
        r.label = .host hostname ∨ r.label = .other) ∧
      ∀ r ∈ w.reports, ∀ r' ∈ w.reports, r.host = r'.host → r.label = r'.label := by
  obtain ⟨w, hrun, hlabels⟩ : ∃ w : World, Run (step .ascii .ascii) Any World.start w ∧
      w.reports.map Report.label =
        [.host (.of "one.tld".toList), .host (.of "one.tld".toList), .unknown] :=
    Run.of_exec_any
      ([.call 1 (.str (.of "https://one.tld/a".toList)),
        .call 2 (.str (.of "https://ONE.tld/b".toList)), .call 3 (.str (.of "not-a-url".toList))] ++
        List.replicate 5 (.resume 1) ++ List.replicate 3 (.resume 2))
      (by decide +kernel)
  exact ⟨w, hlabels, labels_bounded_and_stable hrun⟩

end Solverr.Metrics
