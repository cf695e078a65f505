import Solverr.Sessions.Origin

/-!
# `sessions.create` on one id

The command looks into both pools before it creates, so that an id open on one
engine is not opened on the other. The look and the creation are separate steps.
`OneBrowser` is what keeps the id in one pool: a command bound for one engine that
has seen the other engine's pool empty finds it empty still (`heading`), as long
as no browser is stored there meanwhile. `NoCrossing` is that guard; without it
both engines open a browser and both report it as new
(`crossing_creates_open_two`).
-/

namespace Solverr.Sessions

open Solverr.Lib (Run)

variable {Proxy : Type}

/-- Every call started is a `sessions.create` that names `sid`. -/
def commandsFor (sid : String) (_ : World Proxy) (a : Tid × Act Proxy) : Bool :=
  match a.2 with
  | .start (.sessionsCreate (some i) _ _ _) => i == sid && i != ""
  | .start _ => false
  | _ => true

namespace Pc

/-- A command bound for the other engine than `e`, past its look into `e`'s pool,
whose browser is not stored yet. -/
def heading (cfg : Config) (e : Engine) : Pc Proxy → Bool
  | .checkPools a todo => a.store != e && decide (e ∈ availableEngines cfg) && decide (e ∉ todo)
  | .lookup a _ | .build a _ | .insert a _ _ => a.store != e
  | _ => false

/-- A point of a command for `sid`, past its engine check if it is past the pools. -/
def commandFor (cfg : Config) (sid : String) : Pc Proxy → Prop
  | .idle | .answered _ => True
  | .checkPools a _ => a.sid = sid
  | .lookup a k | .build a k | .insert a k _ =>
    k = .command ∧ a.sid = sid ∧ a.store ∈ availableEngines cfg
  | .extra a k _ _ | .remember a k _ => k = .command ∧ a.sid = sid
  | _ => False

/-- The command has stored the id's browser, and will report or has reported so. -/
def opened (sid : String) : Pc Proxy → Prop
  | .remember .. => True
  | .answered ans => ans = .ok createdSuccessfully sid
  | _ => False

end Pc

/-- When a browser is stored, no other command is heading for the other engine. -/
def NoCrossing (cfg : Config) (w : World Proxy) (act : Tid × Act Proxy) : Prop :=
  ∀ a k s, w.pcs act.1 = .insert a k s → (w.st.pools a.store).find? a.sid = none →
    ∀ t, t ≠ act.1 → (w.pcs t).heading cfg a.store = false

/-- The id is in one pool at most, and one command at most has opened it. -/
structure OneBrowser (cfg : Config) (sid : String) (w : World Proxy) : Prop where
  points : ∀ t, (w.pcs t).commandFor cfg sid
  heading : ∀ t e, (w.pcs t).heading cfg e = true → (w.st.pools e).find? sid = none
  unavailable : ∀ e, e ∉ availableEngines cfg → (w.st.pools e).find? sid = none
  one : ∀ e e', (w.st.pools e).find? sid ≠ none → (w.st.pools e').find? sid ≠ none → e = e'
  opened : ∀ t, (w.pcs t).opened sid → ∃ e, (w.st.pools e).find? sid ≠ none
  unique : ∀ t t', (w.pcs t).opened sid → (w.pcs t').opened sid → t = t'

theorem oneBrowser_init (cfg : Config) (sid : String) :
    OneBrowser cfg sid (World.init : World Proxy) :=
  ⟨fun _ => trivial, nofun, fun _ _ => rfl, fun _ _ h => absurd rfl h, nofun, nofun⟩

/-! ## One step -/

/-- An error is not a report of a new session. -/
theorem not_opened_error (text sid : String) :
    ¬(Pc.answered (.error text) : Pc Proxy).opened sid :=
  fun h => absurd (congrArg Answer.status h) (by simp [Answer.error, Answer.ok])

/-- Nor is the report of an existing one. -/
theorem not_opened_exists (i sid : String) :
    ¬(Pc.answered (.ok alreadyExists i) : Pc Proxy).opened sid :=
  fun h => absurd (congrArg Answer.message h)
    (by simp [Answer.ok, alreadyExists, createdSuccessfully])

namespace OneBrowser

variable {cfg : Config} {sid : String} {w w' : World Proxy} {t : Tid} {act : Act Proxy}

/-- A step that stores no browser. -/
theorem move (h : OneBrowser cfg sid w) {W : World Proxy} {p : Pc Proxy}
    (hpools : W.st.pools = w.st.pools) (hpcs : W.pcs = w.pcs) (hpoint : p.commandFor cfg sid)
    (hhead : ∀ e, p.heading cfg e = true → (w.st.pools e).find? sid = none)
    (hopen : p.opened sid → (w.pcs t).opened sid) : OneBrowser cfg sid (W.goto t p) := by
  have hopened : ∀ t', ((W.goto t p).pcs t').opened sid → (w.pcs t').opened sid := by
    intro t' ht'
    by_cases ht : t' = t
    · rw [ht, World.goto_self] at ht'
      exact ht ▸ hopen ht'
    · rw [World.goto_other _ _ ht, hpcs] at ht'
      exact ht'
  refine ⟨?_, ?_, ?_, ?_, ?_, ?_⟩
  · intro t'
    by_cases ht : t' = t
    · rw [ht, World.goto_self]
      exact hpoint
    · rw [World.goto_other _ _ ht, hpcs]
      exact h.points t'
  · intro t' e he
    rw [World.goto_st, hpools]
    by_cases ht : t' = t
    · rw [ht, World.goto_self] at he
      exact hhead e he
    · rw [World.goto_other _ _ ht, hpcs] at he
      exact h.heading t' e he
  · intro e he
    rw [World.goto_st, hpools]
    exact h.unavailable e he
  · intro e e' he he'
    rw [World.goto_st, hpools] at he he'
    exact h.one e e' he he'
  · intro t' ht'
    rw [World.goto_st, hpools]
    exact h.opened t' (hopened t' ht')
  · intro t₁ t₂ h₁ h₂
    exact h.unique t₁ t₂ (hopened t₁ h₁) (hopened t₂ h₂)

/-- A step that stores no browser and answers. -/
theorem answer (h : OneBrowser cfg sid w) {W : World Proxy} {ans : Answer}
    (hpools : W.st.pools = w.st.pools) (hpcs : W.pcs = w.pcs)
    (hopen : (Pc.answered ans : Pc Proxy).opened sid → (w.pcs t).opened sid) :
    OneBrowser cfg sid (W.goto t (.answered ans)) :=
  h.move hpools hpcs trivial (fun _ he => absurd he Bool.false_ne_true) hopen

/-- A browser stored while nobody is heading for the other engine. -/
theorem store (h : OneBrowser cfg sid w) {a : CreateArgs Proxy} {s : Ref}
    (hp : w.pcs t = .insert a .command s) (hfree : (w.st.pools a.store).find? a.sid = none)
    (hclear : ∀ t', t' ≠ t → (w.pcs t').heading cfg a.store = false) :
    OneBrowser cfg sid
      ((w.setStores (w.st.insert a.store a.sid s)).goto t (.remember a .command s)) := by
  obtain ⟨-, hsid, havail⟩ : CreateK.command = .command ∧ a.sid = sid ∧
      a.store ∈ availableEngines cfg := by
    have hpt := h.points t
    rw [hp] at hpt
    exact hpt
  subst hsid
  -- it is heading here, so the other pool was empty when it looked and still is
  have hempty : ∀ e, (w.st.pools e).find? a.sid = none := by
    intro e
    by_cases he : a.store = e
    · exact he ▸ hfree
    · exact h.heading t e (by simp [hp, Pc.heading, he])
  -- a command that has reported would have left its browser in a pool
  have hnobody : ∀ t', ¬(w.pcs t').opened a.sid := by
    intro t' ht'
    obtain ⟨e, he⟩ := h.opened t' ht'
    exact he (hempty e)
  have hpool : ∀ e, ((w.st.insert a.store a.sid s).pools e).find? a.sid ≠ none → e = a.store := by
    intro e he
    rw [Stores.find?_insert] at he
    by_contra hne
    rw [if_neg fun hc => hne hc.1] at he
    exact he (hempty e)
  have honly : ∀ t', (((w.setStores (w.st.insert a.store a.sid s)).goto t
      (.remember a .command s)).pcs t').opened a.sid → t' = t := by
    intro t' ht'
    by_contra hne
    rw [World.goto_other _ _ hne] at ht'
    exact hnobody t' ht'
  refine ⟨?_, ?_, ?_, ?_, ?_, ?_⟩
  · intro t'
    by_cases ht : t' = t
    · rw [ht, World.goto_self]
      exact ⟨rfl, rfl⟩
    · rw [World.goto_other _ _ ht]
      exact h.points t'
  · intro t' e he
    by_cases ht : t' = t
    · rw [ht, World.goto_self] at he
      cases he
    · rw [World.goto_other _ _ ht] at he
      rw [World.goto_st, World.setStores_st, Stores.find?_insert, if_neg]
      · exact hempty e
      · rintro ⟨rfl, -⟩
        rw [World.setStores_pcs, hclear t' ht] at he
        cases he
  · intro e he
    rw [World.goto_st, World.setStores_st, Stores.find?_insert, if_neg]
    · exact hempty e
    · rintro ⟨rfl, -⟩
      exact he havail
  · intro e e' he he'
    exact (hpool e he).trans (hpool e' he').symm
  · intro t' _
    refine ⟨a.store, ?_⟩
    rw [World.goto_st, World.setStores_st, Stores.find?_insert, if_pos ⟨rfl, rfl⟩]
    exact nofun
  · intro t₁ t₂ h₁ h₂
    exact (honly t₁ h₁).trans (honly t₂ h₂).symm

/-- A command that starts has looked into no pool. -/
theorem start (h : OneBrowser cfg sid w) {c : Call Proxy} {p : Pc Proxy}
    (hc : commandsFor sid w (t, .start c) = true) (hp : enter cfg c = some p) :
    OneBrowser cfg sid (w.goto t p) := by
  cases c with
  | sessionsCreate session uuid1 engine proxy =>
    cases session with
    | none => simp [commandsFor] at hc
    | some i =>
      simp only [commandsFor, Bool.and_eq_true, beq_iff_eq, bne_iff_ne, ne_eq] at hc
      obtain ⟨rfl, hne⟩ := hc
      simp only [enter] at hp
      split at hp <;> obtain rfl := Option.some.inj hp
      · exact h.answer rfl rfl fun ho => absurd ho (not_opened_error _ _)
      · refine h.move rfl rfl ?_ ?_ False.elim
        · simp [Pc.commandFor, idOr, hne]
        · intro e he
          simp [Pc.heading, hne] at he
          exact absurd he.1.2 he.2
  | create | get | destroy | discard | reapIdle | enforceCap | solve =>
    simp [commandsFor] at hc

/-- The looks into the pools, and the engine check after them. -/
theorem checkPools (h : OneBrowser cfg sid w) {a : CreateArgs Proxy} {todo : List Engine}
    {now : Int} (hp : w.pcs t = .checkPools a todo)
    (hs : go cfg w t now (.checkPools a todo) = some w') : OneBrowser cfg sid w' := by
  have hsid : a.sid = sid := by
    have hpt := h.points t
    rw [hp] at hpt
    exact hpt
  have hlooked : ∀ e, a.store ≠ e → e ∈ availableEngines cfg → e ∉ todo →
      (w.st.pools e).find? sid = none := by
    intro e hne hmem hnot
    exact h.heading t e (by simp [hp, Pc.heading, hne, hmem, hnot])
  cases todo with
  | nil =>
    simp only [go] at hs
    split at hs <;> obtain rfl := Option.some.inj hs
    next => exact h.answer rfl rfl fun ho => absurd ho (not_opened_error _ _)
    next hloaded =>
      refine h.move rfl rfl ⟨rfl, hsid, ?_⟩ ?_ False.elim
      · cases hstore : a.store with
        | chrome => exact List.mem_cons_self ..
        | stealth =>
          have hl : cfg.stealthLoaded = true := by simpa [hstore] using hloaded
          simp [availableEngines, hl]
      · intro e he
        have hne : a.store ≠ e := by simpa [Pc.heading] using he
        by_cases hmem : e ∈ availableEngines cfg
        · exact hlooked e hne hmem (List.not_mem_nil)
        · exact h.unavailable e hmem
  | cons e todo =>
    simp only [go] at hs
    split at hs <;> obtain rfl := Option.some.inj hs
    next => exact h.answer rfl rfl fun ho => absurd ho (not_opened_exists _ _)
    next hnone =>
      refine h.move rfl rfl hsid ?_ False.elim
      intro e' he'
      simp only [Pc.heading, Bool.and_eq_true, bne_iff_ne, ne_eq, decide_eq_true_eq] at he'
      by_cases hee : e' = e
      · rw [hee, ← hsid]
        simpa using hnone
      · exact hlooked e' he'.1.1 he'.1.2 (by simp [hee, he'.2])

/-- **One step without a crossing keeps the id in one pool.** -/
theorem step (h : OneBrowser cfg sid w) (hc : commandsFor sid w (t, act) = true)
    (hg : NoCrossing cfg w (t, act)) (hs : step cfg w (t, act) = some w') :
    OneBrowser cfg sid w' := by
  have hpt := h.points t
  cases hp : w.pcs t with
  | idle =>
    cases act with
    | start c =>
      simp only [Sessions.step, hp] at hs
      obtain ⟨p, hp', rfl⟩ := Option.map_eq_some_iff.mp hs
      exact h.start hc hp'
    | go | fail | timeout | drive => simp [Sessions.step, hp, go] at hs
  | answered ans => cases act <;> simp [Sessions.step, hp, go] at hs
  | checkPools a todo =>
    cases act with
    | go now =>
      simp only [Sessions.step, hp] at hs
      exact h.checkPools hp hs
    | start | fail | timeout | drive => simp [Sessions.step, hp] at hs
  | lookup a k =>
    rw [hp] at hpt
    obtain ⟨rfl, hsid, havail⟩ := hpt
    cases act with
    | go now =>
      simp only [Sessions.step, hp, go] at hs
      split at hs <;> obtain rfl := Option.some.inj hs
      · exact h.answer rfl rfl fun ho => absurd ho (not_opened_exists _ _)
      · exact h.move rfl rfl ⟨rfl, hsid, havail⟩
          (fun e he => h.heading t e (by rw [hp]; exact he)) False.elim
    | start | fail | timeout | drive => simp [Sessions.step, hp] at hs
  | build a k =>
    rw [hp] at hpt
    obtain ⟨rfl, hsid, havail⟩ := hpt
    cases act with
    | go now =>
      simp only [Sessions.step, hp, go] at hs
      obtain rfl := Option.some.inj hs
      exact h.move rfl rfl ⟨rfl, hsid, havail⟩
        (fun e he => h.heading t e (by rw [hp]; exact he)) False.elim
    | fail text =>
      simp only [Sessions.step, hp] at hs
      obtain rfl := Option.some.inj hs
      exact h.answer rfl rfl fun ho => absurd ho (not_opened_error _ _)
    | start | timeout | drive => simp [Sessions.step, hp] at hs
  | insert a k s =>
    rw [hp] at hpt
    obtain ⟨rfl, hsid, havail⟩ := hpt
    cases act with
    | go now =>
      simp only [Sessions.step, hp, go] at hs
      split at hs <;> obtain rfl := Option.some.inj hs
      next => exact h.move rfl rfl ⟨rfl, hsid⟩ (fun _ he => absurd he Bool.false_ne_true) False.elim
      next hfree => exact h.store hp hfree (hg a .command s hp hfree)
    | start | fail | timeout | drive => simp [Sessions.step, hp] at hs
  | extra a k s race =>
    rw [hp] at hpt
    obtain ⟨rfl, hsid⟩ := hpt
    cases act with
    | go now =>
      simp only [Sessions.step, hp, go] at hs
      obtain rfl := Option.some.inj hs
      exact h.answer rfl rfl fun ho => absurd ho (not_opened_exists _ _)
    | start | fail | timeout | drive => simp [Sessions.step, hp] at hs
  | remember a k s =>
    rw [hp] at hpt
    obtain ⟨rfl, hsid⟩ := hpt
    cases act with
    | go now =>
      simp only [Sessions.step, hp, go] at hs
      obtain rfl := Option.some.inj hs
      exact h.answer rfl rfl fun _ => by rw [hp]; trivial
    | start | fail | timeout | drive => simp [Sessions.step, hp] at hs
  -- a `sessions.create` command is at none of these points
  | recallProxy | check | expired | holding | forget | remove | reap | cap | teardown | acquire
  | driving | timedOut | closing | drain | release | endUse | solved =>
    rw [hp] at hpt
    exact hpt.elim

end OneBrowser

/-! ## The guarantee -/

/-- **One command at most reports a new session and one pool at most has the id**,
in every run of `sessions.create` commands for it without a crossing. -/
theorem one_browser_per_id {cfg : Config} {sid : String} {w : World Proxy}
    (h : Run (step cfg) (fun w a => commandsFor sid w a = true ∧ NoCrossing cfg w a)
      World.init w) :
    (∀ t t', w.pcs t = .answered (.ok createdSuccessfully sid) →
      w.pcs t' = .answered (.ok createdSuccessfully sid) → t = t') ∧
    (∀ e e', (w.st.pools e).find? sid ≠ none → (w.st.pools e').find? sid ≠ none → e = e') := by
  have hone : OneBrowser cfg sid w := by
    refine h.invariant (fun w₁ a w₂ hI hg hs => ?_) (oneBrowser_init cfg sid)
    exact hI.step hg.1 hg.2 hs
  refine ⟨?_, hone.one⟩
  intro t t' ht ht'
  exact hone.unique t t' (by rw [ht]; rfl) (by rw [ht']; rfl)

/-- `NoCrossing` among the threads below `n`. -/
def noCrossingBelow (cfg : Config) (n : Nat) (w : World Proxy) (act : Tid × Act Proxy) : Bool :=
  match w.pcs act.1 with
  | .insert a _ _ => decide (∀ t < n, t ≠ act.1 → (w.pcs t).heading cfg a.store = false)
  | _ => true

theorem noCrossing_of_below {cfg : Config} {n : Nat} {w : World Proxy} {act : Tid × Act Proxy}
    (hidle : ∀ t, n ≤ t → w.pcs t = .idle) (h : noCrossingBelow cfg n w act = true) :
    NoCrossing cfg w act := by
  intro a k s hp _ t ht
  by_cases hn : t < n
  · simp only [noCrossingBelow, hp, decide_eq_true_eq] at h
    exact h t hn ht
  · rw [hidle t (Nat.le_of_not_lt hn)]
    rfl

/-- Two commands on the two engines, the second past the pools only when the first
is stored. -/
theorem one_browser_per_id_both : ∃ w : World String,
    (w.pcs 1 = .answered (.ok createdSuccessfully "s") ∧
      w.pcs 2 = .answered (.ok alreadyExists "s")) ∧
    ∀ e e', (w.st.pools e).find? "s" ≠ none → (w.st.pools e').find? "s" ≠ none → e = e' := by
  have hG : ∀ (w : World String) (a : Tid × Act String), (∀ t, 3 ≤ t → w.pcs t = .idle) →
      (commandsFor "s" w a && noCrossingBelow .unset 3 w a) = true →
      commandsFor "s" w a = true ∧ NoCrossing .unset w a := by
    intro w a hidle htest
    rw [Bool.and_eq_true] at htest
    exact ⟨htest.1, noCrossing_of_below hidle htest.2⟩
  obtain ⟨w, hrun, -, hw⟩ : ∃ w : World String,
      Run (step .unset) (fun w a => commandsFor "s" w a = true ∧ NoCrossing .unset w a)
        World.init w ∧ (∀ t, 3 ≤ t → w.pcs t = .idle) ∧
      (w.pcs 1 = .answered (.ok createdSuccessfully "s") ∧
        w.pcs 2 = .answered (.ok alreadyExists "s")) :=
    Run.of_exec_below 3 hG
      ([(1, .start (.sessionsCreate (some "s") "" (some "chrome") none))] ++ goes 1 5 ++
        [(2, .start (.sessionsCreate (some "s") "" (some "stealth") none))] ++
        goes 1 1 ++ goes 2 1 ++ goes 1 1)
      (by decide)
  exact ⟨w, hw, (one_browser_per_id hrun).2⟩

/-- Two commands that both look before either stores open a browser on each engine
and both report a new session. -/
theorem crossing_creates_open_two : ∃ w : World String,
    Run (step .unset) (fun w a => commandsFor "s" w a = true) World.init w ∧
    (w.pcs 1 = .answered (.ok createdSuccessfully "s") ∧
      w.pcs 2 = .answered (.ok createdSuccessfully "s")) ∧
    ((w.st.pools .chrome).find? "s" = some 0 ∧ (w.st.pools .stealth).find? "s" = some 1) :=
  Run.of_exec_test (fun _ _ => id)
    ([(1, .start (.sessionsCreate (some "s") "" (some "chrome") none)),
      (2, .start (.sessionsCreate (some "s") "" (some "stealth") none))] ++
      goes 1 3 ++ goes 2 3 ++ goes 1 4 ++ goes 2 4)
    (by decide)

end Solverr.Sessions
