import Solverr.Passthrough.Handler

/-!
# Page links

A page link is a path whose first segment has no delimiter in it, followed by more of the
path, by a query, or by nothing (`Link`). The splitter looks for a slash before it looks
for a question mark. So a link whose only slash is in its query, right after the segment,
has a question mark in what is taken for the host, and no usable host
(`splitHost_slashInQuery`); every other link splits at its segment (`splitHost_link`).

`solvesMade` lists the solves that a thread begins along the steps of a run. A request
that finds its path neither cached nor in flight begins one, and none after it
(`solvesMade_serving`).
-/

namespace Solverr.Passthrough

open Solverr.Lib (Text CaseMap exec)
open Solverr.Lib.Text (strip partition before isSpace)

/-- A link as a page has it, relative to the passthrough's root. -/
structure Link where
  seg : Text
  tail : Text
  seg_plain : ∀ c ∈ seg, c ≠ '/' ∧ c ≠ '?' ∧ c ≠ '#'
  seg_nonblank : strip seg ≠ []
  tail_starts : tail = [] ∨ tail.head? = some '/' ∨ tail.head? = some '?'
  tail_plain : '#' ∉ tail

namespace Link

variable (l : Link)

/-- The path that the client sends. -/
def raw : Text := '/' :: l.seg ++ l.tail

/-- The segment as a host name. -/
def site (cm : CaseMap) : Text := cm.lower (strip l.seg)

/-- The URL that the link stands for, and its host. -/
def target (cfg : Config) (mirror : Text) : Text × Text :=
  if l.site cfg.caseMap ∈ cfg.allowedHosts then
    (https ++ l.site cfg.caseMap ++ rooted l.tail, l.site cfg.caseMap)
  else (https ++ mirror ++ l.raw, mirror)

/-- The query follows the segment, and a slash is in it. -/
def slashInQuery : Prop := l.tail.head? = some '?' ∧ '/' ∈ l.tail

instance : Decidable l.slashInQuery := inferInstanceAs (Decidable (_ ∧ _))

variable {l}

theorem seg_ne_nil (l : Link) : l.seg ≠ [] := by
  intro h
  have hstrip := l.seg_nonblank
  rw [h] at hstrip
  exact hstrip rfl

/-- What `firstSegment` makes of a link without a slash in its query. -/
theorem firstSegment_link (h : ¬ l.slashInQuery) :
    firstSegment (l.seg ++ l.tail) = (l.seg, rooted l.tail) := by
  have hslash : '/' ∉ l.seg := fun hc => (l.seg_plain _ hc).1 rfl
  have hquery : '?' ∉ l.seg := fun hc => (l.seg_plain _ hc).2.1 rfl
  unfold firstSegment
  rcases ht : l.tail with _ | ⟨c, t⟩
  · rw [List.append_nil, if_neg hslash, Text.partition_of_not_mem hquery]
    rfl
  · have hstart := l.tail_starts
    rw [ht, List.head?_cons, Option.some.injEq, Option.some.injEq] at hstart
    rcases hstart with hnil | rfl | rfl
    · cases hnil
    · rw [if_pos (by simp), Text.partition_append t hslash]
      rfl
    · have hnone : '/' ∉ l.seg ++ '?' :: t := by
        intro hc
        rcases List.mem_append.mp hc with hseg | htail
        · exact hslash hseg
        · exact h ⟨by rw [ht]; rfl, ht ▸ htail⟩
      rw [if_neg hnone, Text.partition_append t hquery]
      rfl

/-- What the splitter makes of a link depends on its first segment alone. -/
theorem splitHost_raw (cm : CaseMap) (l : Link) : splitHost cm l.raw =
    let (segment, remainder) := firstSegment (l.seg ++ l.tail)
    let host := cm.lower (strip segment)
    if host = [] ∨ '?' ∈ host ∨ '#' ∈ host then none else some (host, remainder) := by
  have hbody : unrooted l.raw = l.seg ++ l.tail := rfl
  unfold splitHost
  rw [hbody, if_neg]
  rcases hseg : l.seg with _ | ⟨c, s⟩
  · exact absurd hseg l.seg_ne_nil
  · have hc := l.seg_plain c (hseg ▸ List.mem_cons_self ..)
    simp [hc]

/-- **A link splits at its segment**, unless a slash is in its query. -/
theorem splitHost_link (cm : CaseMap) (h : ¬ l.slashInQuery) :
    splitHost cm l.raw = some (l.site cm, rooted l.tail) := by
  have hkept : ∀ c, c = '/' ∨ c = '?' ∨ c = '#' → c ∉ l.site cm := by
    intro c hc hmem
    obtain ⟨hslash, hquery, hhash⟩ :=
      l.seg_plain c (Text.mem_of_mem_strip (cm.lower_mem _ c hmem hc))
    rcases hc with rfl | rfl | rfl <;> contradiction
  rw [splitHost_raw, firstSegment_link h]
  show (if l.site cm = [] ∨ '?' ∈ l.site cm ∨ '#' ∈ l.site cm then none
    else some (l.site cm, rooted l.tail)) = _
  rw [if_neg]
  rintro (hnil | hquery | hhash)
  · exact cm.lower_ne_nil _ l.seg_nonblank hnil
  · exact hkept _ (Or.inr (Or.inl rfl)) hquery
  · exact hkept _ (Or.inr (Or.inr rfl)) hhash

/-- A question mark stays one when the text around it is lowered. -/
def KeepsQuery (cm : CaseMap) : Prop := ∀ s : Text, '?' ∈ s → '?' ∈ cm.lower s

/-- With a slash in its query and nowhere else, what is taken for the host has a
question mark in it. -/
theorem splitHost_slashInQuery {cm : CaseMap} (hkeeps : KeepsQuery cm) (h : l.slashInQuery) :
    splitHost cm l.raw = none := by
  obtain ⟨hhead, hslash⟩ := h
  obtain ⟨q, hq⟩ := List.head?_eq_some_iff.mp hhead
  have hmem : '/' ∈ q := (List.mem_cons.mp (hq ▸ hslash)).resolve_left (by decide)
  obtain ⟨a, b, rfl, ha⟩ := List.eq_append_cons_of_mem hmem
  have hbefore : '/' ∉ l.seg ++ '?' :: a := by
    intro hc
    rcases List.mem_append.mp hc with hseg | hquery
    · exact (l.seg_plain _ hseg).1 rfl
    · exact ha ((List.mem_cons.mp hquery).resolve_left (by decide))
  have hsegment : (firstSegment (l.seg ++ l.tail)).1 = l.seg ++ '?' :: a := by
    rw [hq, ← List.cons_append, ← List.append_assoc]
    unfold firstSegment
    rw [if_pos (by simp), Text.partition_append b hbefore]
  have hhost : '?' ∈ cm.lower (strip (firstSegment (l.seg ++ l.tail)).1) := by
    rw [hsegment]
    exact hkeeps _ (Text.mem_strip (by simp) rfl)
  rw [splitHost_raw]
  exact if_pos (Or.inr (Or.inl hhost))

/-- Not one of the assets that are answered 404 unsolved. -/
def NotAsset (raw : Text) : Prop := skips (before '#' (before '?' raw)) = false

theorem route_link {cfg : Config} {mirror : Text} (hpage : NotAsset l.raw)
    (hmirror : cfg.defaultHost = some mirror) (h : ¬ l.slashInQuery) :
    route cfg l.raw = some (l.target cfg mirror) := by
  unfold route
  rw [hpage, if_neg Bool.false_ne_true, splitHost_link _ h]
  simp only [hmirror]
  unfold target
  split
  next => rfl
  next => rfl

theorem route_slashInQuery {cfg : Config} (hkeeps : KeepsQuery cfg.caseMap)
    (h : l.slashInQuery) : route cfg l.raw = none := by
  unfold route
  rw [splitHost_slashInQuery hkeeps h]
  split <;> rfl

end Link

/-! ## The solves of one request -/

/-- The solve that a thread is in. -/
def Pc.solve? : Pc → Option SolveRequest
  | .owner _ _ (.solving req) => some req
  | _ => none

/-- The solve that a step begins. -/
def begun (before after : Pc) : List SolveRequest :=
  match before.solve?, after.solve? with
  | none, some req => [req]
  | _, _ => []

/-- The solves that thread `t` begins along the steps. -/
def solvesMade (cfg : Config) (t : Tid) : World → List Act → List SolveRequest
  | _, [] => []
  | w, a :: acts =>
    match step cfg w a with
    | none => []
    | some w' => begun (w.pcs t) (w'.pcs t) ++ solvesMade cfg t w' acts

/-- Steps of the others. -/
def Others (t : Tid) (acts : List Act) : Prop := ∀ a ∈ acts, ∀ m, a ≠ .run t m

/-- Steps in which `t` takes no other request. -/
def NoOther (t : Tid) (acts : List Act) : Prop := ∀ a ∈ acts, ∀ raw, a ≠ .run t (.start raw)

/-- The path is neither cached nor in flight. -/
def Fresh (cfg : Config) (w : World) (raw : Text) (now : ℚ) : Prop :=
  w.hit? cfg raw now = none ∧ w.inflight.find? raw = none

/-- Whenever a thread serves `raw` and finds it neither cached nor in flight, it makes
exactly one solve, of the given target and host; and it is never about to answer 404. -/
def ServedBy (cfg : Config) (raw : Text) (target : Text × Text) : Prop :=
  (∀ now, enter cfg raw now ≠ .missing) ∧
  ∀ (w w₁ w₂ : World) (t : Tid) (pre post : List Act),
    w.pcs t = .idle → step cfg w (.run t (.start raw)) = some w₁ → Others t pre →
    exec (step cfg) (fun _ _ => true) w₁ pre = some w₂ → Fresh cfg w₂ raw w.clock →
    NoOther t post →
    solvesMade cfg t w (.run t (.start raw) :: (pre ++ .run t .go :: post)) =
      [solveRequest cfg target.1 target.2]

/-- A thread that has looked its path up, or has none. -/
def Pc.settled : Pc → Bool
  | .lookup .. => false
  | _ => true

@[simp] theorem begun_self (p : Pc) : begun p p = [] := by
  unfold begun
  cases p.solve? <;> rfl

theorem begun_of_none {p p' : Pc} (h : p'.solve? = none) : begun p p' = [] := by
  unfold begun
  rw [h]
  cases p.solve? <;> rfl

variable {cfg : Config} {w w' w₁ w₂ : World} {t : Tid} {acts pre post : List Act} {a : Act}

/-- A thread stays where it is while others move. -/
theorem step_others (h : step cfg w a = some w') (ha : ∀ m, a ≠ .run t m) :
    w'.pcs t = w.pcs t := by
  have heff := step_effect h
  cases a with
  | tick =>
    cases heff
    rfl
  | run u m => exact heff.pcs_other fun hut => ha m (hut ▸ rfl)

theorem solvesMade_others (rest : List Act) : ∀ {acts : List Act} {w w' : World}, Others t acts →
    exec (step cfg) (fun _ _ => true) w acts = some w' →
    w'.pcs t = w.pcs t ∧ solvesMade cfg t w (acts ++ rest) = solvesMade cfg t w' rest := by
  intro acts
  induction acts with
  | nil =>
    intro w w' _ h
    obtain rfl := Option.some.inj h
    exact ⟨rfl, rfl⟩
  | cons a acts ih =>
    intro w w' hothers h
    obtain ⟨ha, hacts⟩ := List.forall_mem_cons.mp hothers
    rw [exec, if_pos rfl] at h
    obtain ⟨w₁, hw₁, hexec⟩ := Option.bind_eq_some_iff.mp h
    obtain ⟨hpcs, hmade⟩ := ih hacts hexec
    have hstay := step_others hw₁ ha
    refine ⟨hpcs.trans hstay, ?_⟩
    rw [List.cons_append, solvesMade, hw₁]
    simp only [hstay, begun_self, List.nil_append]
    exact hmade

/-- A thread that has looked its path up begins no solve, and looks nothing up. -/
theorem step_settled (h : step cfg w a = some w') (ha : ∀ raw, a ≠ .run t (.start raw))
    (hp : (w.pcs t).settled = true) :
    (w'.pcs t).settled = true ∧ begun (w.pcs t) (w'.pcs t) = [] := by
  by_cases hothers : ∀ m, a ≠ .run t m
  · rw [step_others h hothers]
    exact ⟨hp, begun_self _⟩
  · obtain ⟨m, rfl⟩ : ∃ m, a = .run t m := by
      by_contra hnone
      exact hothers fun m hm => hnone ⟨m, hm⟩
    cases step_effect h with
    | enter _ raw => exact absurd rfl (ha raw)
    | hit _ _ _ _ _ _ at_ | join _ _ _ _ _ _ at_ | claim _ _ _ _ _ at_ =>
      rw [at_] at hp
      cases hp
    | turn _ _ _ _ p p' _ turns =>
      rw [World.goto_self]
      exact ⟨rfl, begun_of_none (by cases turns <;> rfl)⟩
    | leave | wake | read | solved | failing | store | putStatus | putBody | putType | unslot
    | signal =>
      rw [World.goto_self]
      exact ⟨rfl, begun_of_none rfl⟩

theorem solvesMade_settled : ∀ {acts : List Act} {w : World}, NoOther t acts →
    (w.pcs t).settled = true → solvesMade cfg t w acts = [] := by
  intro acts
  induction acts with
  | nil => exact fun _ _ => rfl
  | cons a acts ih =>
    intro w hno hp
    obtain ⟨ha, hacts⟩ := List.forall_mem_cons.mp hno
    rw [solvesMade]
    split
    next => rfl
    next w' hw' =>
      obtain ⟨hsettled, hbegun⟩ := step_settled hw' ha hp
      rw [hbegun, List.nil_append]
      exact ih hacts hsettled

theorem step_start {raw : Text} (hidle : w.pcs t = .idle) :
    step cfg w (.run t (.start raw)) = some (w.goto t (enter cfg raw w.clock)) := by
  simp only [step, move, hidle]

/-- **A fresh request begins one solve**, of what its path was routed to. -/
theorem solvesMade_serving {raw target host : Text} (hroute : route cfg raw = some (target, host))
    (hidle : w.pcs t = .idle) (hstart : step cfg w (.run t (.start raw)) = some w₁)
    (hpre : Others t pre) (hexec : exec (step cfg) (fun _ _ => true) w₁ pre = some w₂)
    (hfresh : Fresh cfg w₂ raw w.clock) (hpost : NoOther t post) :
    solvesMade cfg t w (.run t (.start raw) :: (pre ++ .run t .go :: post)) =
      [solveRequest cfg target host] := by
  have henter : enter cfg raw w.clock = .lookup raw target host w.clock := by
    unfold enter
    rw [hroute]
  rw [step_start hidle, henter] at hstart
  obtain rfl := Option.some.inj hstart
  obtain ⟨hstay, hmade⟩ := solvesMade_others (.run t .go :: post) hpre hexec
  rw [World.goto_self] at hstay
  have hgo : step cfg w₂ (.run t .go) = some ((w₂.file raw).goto t
      (.owner raw w₂.made (.solving (solveRequest cfg target host)))) := by
    simp only [step, move, hstay, goLookup, hfresh.1, hfresh.2]
  rw [solvesMade, step_start hidle, henter]
  simp only [World.goto_self]
  rw [begun_of_none rfl, List.nil_append, hmade, solvesMade, hgo]
  simp only [World.goto_self, hstay]
  rw [solvesMade_settled hpost (by rw [World.goto_self]; rfl), List.append_nil]
  rfl

/-- A path that is routed is served. -/
theorem servedBy_of_route {raw : Text} {target : Text × Text}
    (hroute : route cfg raw = some target) : ServedBy cfg raw target := by
  refine ⟨fun now h => ?_, ?_⟩
  · unfold enter at h
    rw [hroute] at h
    cases h
  · intro w w₁ w₂ t pre post hidle hstart hpre hexec hfresh hpost
    exact solvesMade_serving hroute hidle hstart hpre hexec hfresh hpost

theorem not_servedBy_of_route {raw : Text} (target : Text × Text)
    (hroute : route cfg raw = none) : ¬ ServedBy cfg raw target := by
  intro h
  refine h.1 0 ?_
  unfold enter
  rw [hroute]

/-- **Which page links are served**: all but those with a slash in the query that follows
the first segment. -/
theorem link_served_iff {mirror : Text} (hkeeps : Link.KeepsQuery cfg.caseMap)
    (hmirror : cfg.defaultHost = some mirror) (l : Link) (hpage : Link.NotAsset l.raw) :
    ServedBy cfg l.raw (l.target cfg mirror) ↔ ¬ l.slashInQuery := by
  constructor
  · intro hserved hslash
    exact not_servedBy_of_route _ (Link.route_slashInQuery hkeeps hslash) hserved
  · exact fun hslash => servedBy_of_route (Link.route_link hpage hmirror hslash)

theorem keepsQuery_ascii : Link.KeepsQuery .ascii :=
  fun _ hs => List.mem_map.mpr ⟨'?', hs, rfl⟩

/-- `/download.php` with a query. -/
def Link.download (query : Text) (h : '#' ∉ query) : Link where
  seg := "download.php".toList
  tail := '?' :: query
  seg_plain := by
    have hall : ("download.php".toList.all fun c => c != '/' && (c != '?' && c != '#')) = true := by
      decide
    simpa only [List.all_eq_true, Bool.and_eq_true, bne_iff_ne] using hall
  seg_nonblank := by decide
  tail_starts := Or.inr (Or.inr rfl)
  tail_plain := fun hmem => (List.mem_cons.mp hmem).elim (by decide) h

/-- A download by its number is served by the default mirror. -/
theorem link_served_iff_number :
    ServedBy .mirror "/download.php?id=1".toList
      ("https://a.example/download.php?id=1".toList, "a.example".toList) := by
  let link := Link.download "id=1".toList (by decide)
  have hserved : ServedBy .mirror link.raw (link.target .mirror "a.example".toList) :=
    (link_served_iff keepsQuery_ascii rfl link rfl).mpr (by decide)
  exact hserved

/-- A download by its path is answered 404. -/
theorem download_by_path_missing :
    ∃ l : Link, Link.NotAsset l.raw ∧ l.raw = "/download.php?file=a/b".toList ∧
      (∀ now, enter .mirror l.raw now = .missing) ∧
      ¬ ServedBy .mirror l.raw (l.target .mirror "a.example".toList) := by
  have hroute : route .mirror "/download.php?file=a/b".toList = none := by decide
  refine ⟨.download "file=a/b".toList (by decide), rfl, rfl, fun now => ?_,
    not_servedBy_of_route _ hroute⟩
  unfold enter
  exact hroute ▸ rfl

end Solverr.Passthrough
