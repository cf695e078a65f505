import Solverr.Lib.Annotated
import Solverr.Passthrough.Publish

/-!
# Where an answer comes from

A page reaches a client in one of three ways: its request solved it, waited on the
solve of another, or found it in the cache. Whichever it was, and whatever the other
requests did in between, the page was solved for the very path the client asked for,
at the host `route` reads out of that path.

The state does not say what a thread was asked for or who stored an entry, so a
`Record` is kept beside it. `Known` is what the record has of every point a thread can
be at, and `Kept` what it has of an entry of the cache: solved, found to be no
challenge, stored, in that order and for one slot.

A waiter that reads too early does so in one of two ways (`Waiter.Seen`), and sends no
other page for that.
-/

namespace Solverr.Passthrough

open Solverr.Lib (Text Run Any Role Flights exec annotated annotated_iff)

/-- What an owner finds out, and what it does about it. -/
inductive Note
  | solved (n : SlotId) (raw : Text) (req : SolveRequest) (page : Page)
  | checked (n : SlotId) (challenge : Bool)
  | stored (n : SlotId) (raw : Text) (page : Page) (storedAt : ℚ)
  deriving DecidableEq

/-- The path every thread was last asked for, the path every slot was filed under, and
what the owners noted. -/
structure Record where
  asked : Tid → Text
  path : SlotId → Text
  notes : List Note

namespace Record

/-- Nothing has happened. -/
def blank : Record := ⟨fun _ => [], fun _ => [], []⟩

/-- One more note. -/
def add (r : Record) (note : Note) : Record := { r with notes := r.notes ++ [note] }

/-- What a step leaves on record. A lookup notes the path for the slot it may file. -/
def note (cfg : Config) (w : World) (a : Act) (r : Record) : Record :=
  match a with
  | .tick _ => r
  | .run t m =>
    match w.pcs t, m with
    | .idle, .start raw => { r with asked := Function.update r.asked t raw }
    | .lookup raw _ _ _, .go => { r with path := Function.update r.path w.made raw }
    | .owner raw n (.solving req), .solved page => r.add (.solved n raw req page)
    | .owner _ n (.checking _), .checked challenge => r.add (.checked n challenge)
    | .owner raw n (.storing page ttl), .go =>
      -- a body over its share of the cap is not stored
      if (w.cache.store cfg raw page (some ttl) w.clock).1 then
        r.add (.stored n raw page w.clock)
      else r
    | _, _ => r

/-- The page `raw` was last stored with, and when. -/
def lastStored (raw : Text) (r : Record) : Option (Page × ℚ) :=
  r.notes.reverse.findSome? fun
    | .stored _ raw' page storedAt => if raw' = raw then some (page, storedAt) else none
    | _ => none

/-- Slot `n` was solved for `raw`, and its owner got `page`. -/
def Solved (cfg : Config) (r : Record) (n : SlotId) (raw : Text) (page : Page) : Prop :=
  ∃ target host, route cfg raw = some (target, host) ∧
    .solved n raw (solveRequest cfg target host) page ∈ r.notes

/-- Some slot was solved for `raw`, its page was found to be no challenge, and then it was
stored at `storedAt`. -/
def Stored (cfg : Config) (r : Record) (raw : Text) (page : Page) (storedAt : ℚ) : Prop :=
  ∃ n target host, route cfg raw = some (target, host) ∧
    [.solved n raw (solveRequest cfg target host) page, .checked n false,
      .stored n raw page storedAt].Sublist r.notes

/-- An entry kept for `raw` since `storedAt`. -/
structure Kept (cfg : Config) (r : Record) (raw : Text) (e : Entry) (storedAt : ℚ) : Prop where
  stored : r.Stored cfg raw e.page storedAt
  good : asksChallenge cfg e.page = true
  expires : e.expires = storedAt + cacheTtlFor cfg e.page

/-- What stays of a record when a step is taken: the notes, and what is on record of the
slots there are and of the threads that are not idle. -/
structure Grown (w : World) (r r' : Record) : Prop where
  notes : r.notes <+: r'.notes
  path : ∀ n, n < w.made → r'.path n = r.path n
  asked : ∀ t, w.pcs t ≠ .idle → r'.asked t = r.asked t

theorem Grown.refl (w : World) (r : Record) : Grown w r r :=
  ⟨List.prefix_refl _, fun _ _ => rfl, fun _ _ => rfl⟩

theorem grown_add (w : World) (r : Record) (x : Note) : Grown w r (r.add x) :=
  ⟨List.prefix_append _ _, fun _ _ => rfl, fun _ _ => rfl⟩

theorem grown_note (cfg : Config) (w : World) (a : Act) (r : Record) :
    Grown w r (note cfg w a r) := by
  cases a with
  | tick => exact .refl w r
  | run t m =>
    simp only [note]
    split
    next at_ =>
      refine ⟨List.prefix_refl _, fun _ _ => rfl, fun u hu => ?_⟩
      have hne : u ≠ t := fun he => hu (by rw [he, at_])
      exact Function.update_of_ne hne ..
    next =>
      refine ⟨List.prefix_refl _, fun n hn => ?_, fun _ _ => rfl⟩
      exact Function.update_of_ne (Nat.ne_of_lt hn) ..
    next => exact grown_add w r _
    next => exact grown_add w r _
    next =>
      split
      next => exact grown_add w r _
      next => exact .refl w r
    next => exact .refl w r

variable {cfg : Config} {w : World} {r r' : Record}

theorem Solved.grow {n : SlotId} {raw : Text} {page : Page} (h : r.Solved cfg n raw page)
    (hg : Grown w r r') : r'.Solved cfg n raw page := by
  obtain ⟨target, host, hroute, hmem⟩ := h
  exact ⟨target, host, hroute, hg.notes.subset hmem⟩

theorem Stored.grow {raw : Text} {page : Page} {storedAt : ℚ} (h : r.Stored cfg raw page storedAt)
    (hg : Grown w r r') : r'.Stored cfg raw page storedAt := by
  obtain ⟨n, target, host, hroute, hnotes⟩ := h
  exact ⟨n, target, host, hroute, hnotes.trans hg.notes.sublist⟩

theorem Kept.grow {raw : Text} {e : Entry} {storedAt : ℚ} (h : r.Kept cfg raw e storedAt)
    (hg : Grown w r r') : r'.Kept cfg raw e storedAt :=
  { h with stored := h.stored.grow hg }

/-- What was stored was solved. -/
theorem Stored.solved {raw : Text} {page : Page} {storedAt : ℚ}
    (h : r.Stored cfg raw page storedAt) : ∃ n, r.Solved cfg n raw page := by
  obtain ⟨n, target, host, hroute, hnotes⟩ := h
  exact ⟨n, target, host, hroute, hnotes.subset (List.mem_cons_self ..)⟩

/-- Only an owner that stores changes what was stored last. -/
theorem lastStored_note (cfg : Config) (w : World) (a : Act) (r : Record) (raw : Text)
    (hstores : ∀ t raw' n page ttl, a = .run t .go →
      w.pcs t ≠ .owner raw' n (.storing page ttl)) :
    lastStored raw (note cfg w a r) = lastStored raw r := by
  cases a with
  | tick => rfl
  | run t m =>
    simp only [note]
    split
    next => rfl
    next => rfl
    next => simp [lastStored, add]
    next => simp [lastStored, add]
    next at_ => exact absurd at_ (hstores t _ _ _ _ rfl)
    next => rfl

end Record

/-! ## What the record has of a point -/

/-- What is on record of an owner of slot `n` filed under `raw`. -/
def Owner.Known (cfg : Config) (r : Record) (raw : Text) (n : SlotId) : Owner → Prop
  | .solving req => ∃ target host, route cfg raw = some (target, host) ∧
      req = solveRequest cfg target host
  | .checking page | .putStatus page | .putBody page | .putType page | .sending page =>
    r.Solved cfg n raw page
  | .storing page ttl => r.Solved cfg n raw page ∧ asksChallenge cfg page = true ∧
      ttl = cacheTtlFor cfg page ∧ ∃ target host, route cfg raw = some (target, host) ∧
        [Note.solved n raw (solveRequest cfg target host) page, .checked n false].Sublist r.notes
  | .failing _ | .refusing | .unslot => True

/-- What is on record of a thread that was asked for `asked`, when `made` slots are. -/
def Pc.Known (cfg : Config) (r : Record) (asked : Text) (made : Nat) : Pc → Prop
  | .lookup raw target host _ => raw = asked ∧ route cfg raw = some (target, host)
  | .hit e => ∃ storedAt, r.Kept cfg asked e storedAt
  | .waiter n _ => n < made ∧ r.path n = asked
  | .owner raw n o => raw = asked ∧ n < made ∧ r.path n = raw ∧ o.Known cfg r raw n
  | .idle | .missing | .signal _ => True

theorem Owner.Known.grow {cfg : Config} {w : World} {r r' : Record} {raw : Text} {n : SlotId}
    {o : Owner} (h : o.Known cfg r raw n) (hg : r.Grown w r') : o.Known cfg r' raw n := by
  cases o with
  | solving | failing | refusing | unslot => exact h
  | checking | putStatus | putBody | putType | sending => exact Record.Solved.grow h hg
  | storing page ttl =>
    obtain ⟨hsolved, hasks, httl, target, host, hroute, hnotes⟩ := h
    exact ⟨hsolved.grow hg, hasks, httl, target, host, hroute, hnotes.trans hg.notes.sublist⟩

theorem Pc.Known.grow {cfg : Config} {w : World} {r r' : Record} {asked : Text} {made : Nat}
    {p : Pc} (h : p.Known cfg r asked w.made) (hg : r.Grown w r') (hmade : w.made ≤ made) :
    p.Known cfg r' asked made := by
  cases p with
  | idle | missing | lookup | signal => exact h
  | hit e =>
    obtain ⟨storedAt, hkept⟩ := h
    exact ⟨storedAt, hkept.grow hg⟩
  | waiter n p => exact ⟨Nat.lt_of_lt_of_le h.1 hmade, (hg.path n h.1).trans h.2⟩
  | owner raw n o =>
    obtain ⟨hraw, hn, hpath, ho⟩ := h
    exact ⟨hraw, Nat.lt_of_lt_of_le hn hmade, (hg.path n hn).trans hpath, ho.grow hg⟩

/-- What is on record in a state. -/
structure Traced (cfg : Config) (w : World) (r : Record) : Prop where
  staged : Staged w
  points : ∀ t, (w.pcs t).Known cfg r (r.asked t) w.made
  results : ∀ n page, w.results n = some page → n < w.made ∧ r.Solved cfg n (r.path n) page
  cache : ∀ raw e, w.cache.entries.find? raw = some e →
    ∃ storedAt, r.Kept cfg raw e storedAt ∧ r.lastStored raw = some (e.page, storedAt)

/-- An owner comes to store a page by a check that found no challenge. -/
theorem checks_of_storing {cfg : Config} {w w' : World} {t : Tid} {m : Move} {raw : Text}
    {n : SlotId} {page page' : Page} {ttl : Int} (hs : step cfg w (.run t m) = some w')
    (at_ : w.pcs t = .owner raw n (.checking page))
    (to_ : w'.pcs t = .owner raw n (.storing page' ttl)) :
    m = .checked false ∧ asksChallenge cfg page = true ∧ page' = page ∧
      ttl = cacheTtlFor cfg page := by
  simp only [step, move, at_] at hs
  cases m with
  | checked challenge =>
    simp only [goOwner] at hs
    obtain rfl := Option.some.inj hs
    rw [World.goto_self] at to_
    by_cases hc : cacheable cfg page challenge = true
    · rw [if_pos hc] at to_
      obtain ⟨rfl, rfl⟩ := Owner.storing.inj (Pc.owner.inj to_).2.2
      simp only [cacheable, Bool.and_eq_true, Bool.not_eq_true'] at hc
      exact ⟨by rw [hc.2], hc.1, rfl, rfl⟩
    · rw [if_neg hc] at to_
      cases to_
  | raise text =>
    simp only [goOwner] at hs
    split at hs
    next =>
      obtain rfl := Option.some.inj hs
      rw [World.goto_self] at to_
      cases to_
    next => cases hs
  | start | go | solved | abort | timeout => cases hs

/-- A filed slot has an owner, who knows what for. -/
theorem Traced.filed {cfg : Config} {w : World} {r : Record} (h : Traced cfg w r) {raw : Text}
    {n : SlotId} (hfiled : w.inflight.find? raw = some n) : n < w.made ∧ r.path n = raw := by
  obtain ⟨u, hu⟩ := h.staged.sound.led raw n hfiled
  have hrole : (w.pcs u).role = some (.leading raw n) := hu
  have hpoint := h.points u
  cases hp : w.pcs u with
  | owner raw' n' o =>
    rw [hp] at hrole hpoint
    obtain ⟨rfl, rfl⟩ := Role.leading.inj (Option.some.inj hrole)
    exact ⟨hpoint.2.1, hpoint.2.2.1⟩
  | idle | missing | lookup | hit | waiter | signal =>
    rw [hp] at hrole
    cases hrole

section Points

variable {cfg : Config} {w w' : World} {r : Record} {a : Act} {t : Tid}

/-- A thread that stays where it is. -/
theorem Traced.stays (h : Traced cfg w r) {r' : Record} (hg : r.Grown w r')
    (hpcs : w'.pcs t = w.pcs t) (hmade : w.made ≤ w'.made) :
    (w'.pcs t).Known cfg r' (r'.asked t) w'.made := by
  rw [hpcs]
  by_cases hidle : w.pcs t = .idle
  · rw [hidle]
    trivial
  · rw [hg.asked t hidle]
    exact (h.points t).grow hg hmade

/-- An owner at another point of its slot. -/
theorem Traced.own (h : Traced cfg w r) {r' : Record} (hg : r.Grown w r') {raw : Text}
    {n : SlotId} {o o' : Owner} (at_ : w.pcs t = .owner raw n o)
    (ho : o.Known cfg r raw n → o'.Known cfg r' raw n) :
    (Pc.owner raw n o').Known cfg r' (r'.asked t) w.made := by
  have hpoint := h.points t
  rw [at_] at hpoint
  obtain ⟨hraw, hn, hpath, hknown⟩ := hpoint
  have hasked : r'.asked t = r.asked t := hg.asked t (by rw [at_]; exact Pc.noConfusion)
  exact ⟨hraw.trans hasked.symm, hn, (hg.path n hn).trans hpath, ho hknown⟩

/-- The point a thread comes to. -/
theorem Traced.goes (h : Traced cfg w r) {m : Move} (hs : step cfg w (.run t m) = some w') :
    (w'.pcs t).Known cfg (r.note cfg w (.run t m)) ((r.note cfg w (.run t m)).asked t) w'.made := by
  have hg := Record.grown_note cfg w (.run t m) r
  generalize hr' : r.note cfg w (.run t m) = r' at hg ⊢
  have hpoint := h.points t
  have asked : w.pcs t ≠ .idle → r'.asked t = r.asked t := hg.asked t
  cases step_effect hs with
  | enter _ raw at_ =>
    simp only [Record.note, at_] at hr'
    have hasked : r'.asked t = raw := by
      rw [← hr']
      exact Function.update_self ..
    rw [World.goto_self, hasked, enter]
    split
    next => trivial
    next target host hroute => exact ⟨rfl, hroute⟩
  | leave =>
    rw [World.goto_self]
    trivial
  | hit _ raw target host now e at_ found =>
    rw [at_] at hpoint asked
    rw [World.goto_self, asked Pc.noConfusion, ← hpoint.1]
    obtain ⟨storedAt, hkept, -⟩ := h.cache raw e (Option.filter_eq_some_iff.mp found).1
    exact ⟨storedAt, hkept.grow hg⟩
  | join _ raw target host now n at_ missed found =>
    rw [at_] at hpoint asked
    rw [World.goto_self, asked Pc.noConfusion, ← hpoint.1]
    obtain ⟨hn, hpath⟩ := h.filed found
    exact ⟨hn, (hg.path n hn).trans hpath⟩
  | claim _ raw target host now at_ missed absent =>
    simp only [Record.note, at_] at hr'
    rw [at_] at hpoint asked
    rw [World.goto_self, asked Pc.noConfusion]
    have hpath : r'.path w.made = raw := by
      rw [← hr']
      exact Function.update_self ..
    exact ⟨hpoint.1, Nat.lt_succ_self _, hpath, target, host, hpoint.2, rfl⟩
  | wake _ n at_ | read _ n p p' at_ =>
    rw [at_] at hpoint asked
    rw [World.goto_self, asked Pc.noConfusion]
    exact ⟨hpoint.1, (hg.path n hpoint.1).trans hpoint.2⟩
  | turn _ _ raw n p p' at_ turns =>
    rw [World.goto_self]
    refine h.own hg at_ fun hknown => ?_
    cases turns with
    | cacheable page keeps =>
      obtain ⟨rfl, hasks, -, -⟩ := checks_of_storing hs at_ (World.goto_self ..)
      simp only [Record.note, at_] at hr'
      obtain ⟨target, host, hroute, hmem⟩ := hknown
      refine ⟨Record.Solved.grow ⟨target, host, hroute, hmem⟩ hg, hasks, rfl, target, host, hroute,
        ?_⟩
      -- the check comes after everything there was, the solve among it
      rw [← hr']
      exact (List.singleton_sublist.mpr hmem).append (List.Sublist.refl [_])
    | uncached page => exact Record.Solved.grow hknown hg
    | failed | aborted | refused | unchecked | unstored | sent => trivial
  | solved _ raw n req page at_ =>
    rw [World.goto_self]
    refine h.own hg at_ fun hknown => ?_
    obtain ⟨target, host, hroute, rfl⟩ := hknown
    simp only [Record.note, at_] at hr'
    refine ⟨target, host, hroute, ?_⟩
    rw [← hr']
    exact List.mem_append_right _ (List.mem_singleton_self _)
  | failing _ raw n text at_ =>
    rw [World.goto_self]
    exact h.own hg at_ fun _ => trivial
  | store _ raw n page ttl at_ =>
    rw [World.goto_self]
    exact h.own hg at_ fun hknown => Record.Solved.grow hknown.1 hg
  | unslot | signal =>
    rw [World.goto_self]
    trivial
  | putStatus _ raw n page at_ | putBody _ raw n page at_ | putType _ raw n page at_ =>
    rw [World.goto_self]
    exact h.own hg at_ fun hknown => Record.Solved.grow hknown hg

/-- Slots are only solved by their owners. -/
theorem Traced.solves (h : Traced cfg w r) (hs : step cfg w a = some w') {n : SlotId}
    {page : Page} (hpage : w'.results n = some page) : n < w'.made ∧
      (r.note cfg w a).Solved cfg n ((r.note cfg w a).path n) page := by
  have hg := Record.grown_note cfg w a r
  have old : w.results n = some page → n < w'.made ∧
      (r.note cfg w a).Solved cfg n ((r.note cfg w a).path n) page := by
    intro hold
    obtain ⟨hn, hsolved⟩ := h.results n page hold
    rw [hg.path n hn]
    exact ⟨Nat.lt_of_lt_of_le hn (step_made_le hs), hsolved.grow hg⟩
  cases step_effect hs with
  | solved t raw k req page' at_ =>
    have hupdate : Function.update w.results k (some page') n = some page := hpage
    by_cases hnk : n = k
    · subst hnk
      rw [Function.update_self] at hupdate
      obtain rfl := Option.some.inj hupdate
      have hpoint := h.goes hs
      rw [World.goto_self] at hpoint
      obtain ⟨-, hn, hpath, hsolved⟩ := hpoint
      rw [hpath]
      exact ⟨hn, hsolved⟩
    · rw [Function.update_of_ne hnk] at hupdate
      exact old hupdate
  | claim t raw target host now at_ missed absent =>
    have hupdate : Function.update w.results w.made none n = some page := hpage
    by_cases hn : n = w.made
    · rw [hn, Function.update_self] at hupdate
      cases hupdate
    · rw [Function.update_of_ne hn] at hupdate
      exact old hupdate
  | tick | enter | leave | hit | join | wake | read | turn | failing | store | putStatus | putBody
  | putType | unslot | signal => exact old hpage

/-- A page that its share of the cap allows is the last its path was stored with. -/
theorem Traced.storesPage (h : Traced cfg w r) {raw : Text} {n : SlotId} {page : Page} {ttl : Int}
    (at_ : w.pcs t = .owner raw n (.storing page ttl))
    (hstores : (w.cache.store cfg raw page (some ttl) w.clock).1 = true) :
    let r' := r.note cfg w (.run t .go)
    r'.Kept cfg raw (Cache.entryFor cfg page (some ttl) w.clock) w.clock ∧
      r'.lastStored raw = some (page, w.clock) ∧
      ∀ raw', raw' ≠ raw → r'.lastStored raw' = r.lastStored raw' := by
  have hpoint := h.points t
  rw [at_] at hpoint
  obtain ⟨-, -, -, -, hasks, rfl, target, host, hroute, hnotes⟩ := hpoint
  have hnote : r.note cfg w (.run t .go) = r.add (.stored n raw page w.clock) := by
    simp only [Record.note, at_, if_pos hstores]
  intro r'
  have hr' : r' = r.add (.stored n raw page w.clock) := hnote
  rw [hr']
  refine ⟨⟨⟨n, target, host, hroute, ?_⟩, hasks, rfl⟩, ?_, fun raw' hne => ?_⟩
  · exact hnotes.append (List.Sublist.refl [_])
  · simp [Record.lastStored, Record.add]
  · simp [Record.lastStored, Record.add, hne.symm]

/-- An entry of the cache is what its path was last stored with. -/
theorem Traced.keeps (h : Traced cfg w r) (hs : step cfg w a = some w') {raw : Text} {e : Entry}
    (hfind : w'.cache.entries.find? raw = some e) :
    ∃ storedAt, (r.note cfg w a).Kept cfg raw e storedAt ∧
      (r.note cfg w a).lastStored raw = some (e.page, storedAt) := by
  have hg := Record.grown_note cfg w a r
  have old : w.cache.entries.find? raw = some e →
      (r.note cfg w a).lastStored raw = r.lastStored raw →
      ∃ storedAt, (r.note cfg w a).Kept cfg raw e storedAt ∧
        (r.note cfg w a).lastStored raw = some (e.page, storedAt) := by
    intro hold hlast
    obtain ⟨storedAt, hkept, hstored⟩ := h.cache raw e hold
    exact ⟨storedAt, hkept.grow hg, hlast.trans hstored⟩
  by_cases hstoring : ∃ t raw' n page ttl, a = .run t .go ∧
      w.pcs t = .owner raw' n (.storing page ttl)
  · obtain ⟨t, raw', n, page, ttl, rfl, at_⟩ := hstoring
    simp only [step, move, at_, goOwner] at hs
    obtain rfl := Option.some.inj hs
    have hfound : (w.cache.store cfg raw' page (some ttl) w.clock).2.entries.find? raw = some e :=
      hfind
    by_cases hstores : (w.cache.store cfg raw' page (some ttl) w.clock).1 = true
    · obtain ⟨hkept, hlast, hothers⟩ := h.storesPage at_ hstores
      by_cases hraw : raw = raw'
      · subst hraw
        rw [Cache.find?_stored hstores] at hfound
        obtain rfl := Option.some.inj hfound
        exact ⟨w.clock, hkept, hlast⟩
      · exact old (Cache.find?_of_store hraw hfound) (hothers raw hraw)
    · -- a refused page leaves the cache as it was
      have hnote : r.note cfg w (.run t .go) = r := by
        simp only [Record.note, at_, if_neg hstores]
      refine old ?_ (by rw [hnote])
      by_cases hfit : Cache.refuses cfg.cacheMaxBytes page.body.length = true
      · rwa [Cache.store_refused hfit] at hfound
      · exact absurd (by rw [Cache.store_accepted hfit]) hstores
  · have hlast : (r.note cfg w a).lastStored raw = r.lastStored raw := by
      refine Record.lastStored_note cfg w a r raw fun t raw' n page ttl ha at_ => ?_
      exact hstoring ⟨t, raw', n, page, ttl, ha, at_⟩
    cases step_effect hs with
    | store t raw' n page ttl at_ => exact absurd ⟨t, raw', n, page, ttl, rfl, at_⟩ hstoring
    | tick | enter | leave | hit | join | claim | wake | read | turn | solved | failing
    | putStatus | putBody | putType | unslot | signal => exact old hfind hlast

theorem Traced.step (h : Traced cfg w r) (hs : Passthrough.step cfg w a = some w') :
    Traced cfg w' (r.note cfg w a) := by
  have hg := Record.grown_note cfg w a r
  refine ⟨h.staged.step hs, fun u => ?_, fun n page => h.solves hs, fun raw e => h.keeps hs⟩
  cases a with
  | tick =>
    refine h.stays hg ?_ (step_made_le hs)
    cases step_effect hs
    rfl
  | run t m =>
    by_cases hu : u = t
    · subst hu
      exact h.goes hs
    · exact h.stays hg ((step_effect hs).pcs_other hu) (step_made_le hs)

end Points

theorem traced_init (cfg : Config) : Traced cfg .init .blank :=
  ⟨staged_init, fun _ => trivial, nofun, nofun⟩

/-- A recorded run keeps the record's invariant. -/
theorem run_traced {cfg : Config} {x : World × Record}
    (hrun : Run (annotated (step cfg) (Record.note cfg)) Any (World.init, Record.blank) x) :
    Traced cfg x.1 x.2 := by
  refine hrun.invariant (I := fun x => Traced cfg x.1 x.2) (fun x a x' h _ hs => ?_)
    (traced_init cfg)
  obtain ⟨hstep, hnote⟩ := annotated_iff.mp hs
  rw [hnote]
  exact h.step hstep

/-! ## What a waiter has read, in time or not -/

/-- What a waiter knows at each of its points, whenever it read: as much as one that read
in time, but for the two ways of reading too early. -/
def Waiter.Seen (slot : Pending) (result : Option Page) (p : Waiter) : Prop :=
  p.Fair slot result ∨ p = .crashed ∨ ∃ page : Page, result = some page ∧
    p = .replying (some page.status) (some page.body) htmlContentType

theorem Waiter.Seen.grow {slot slot' : Pending} {result result' : Option Page} {p : Waiter}
    (h : p.Seen slot result) (hg : Grows slot slot' result result') : p.Seen slot' result' := by
  rcases h with hfair | hcrashed | ⟨page, hresult, hearly⟩
  · exact Or.inl (hfair.grow hg)
  · exact Or.inr (Or.inl hcrashed)
  · exact Or.inr (Or.inr ⟨page, hg.result page hresult, hearly⟩)

/-- One read of a waiter. -/
theorem Staged.see {w : World} (h : Staged w) {t : Tid} {n : SlotId} {q p : Waiter}
    (at_ : w.pcs t = .waiter n q) (hq : q.Seen (w.slots n) (w.results n))
    (hreads : goWaiter (w.slots n) q = some p) : p.Seen (w.slots n) (w.results n) := by
  rcases hq with hfair | rfl | ⟨page, -, rfl⟩
  · by_cases hintime : InTime w (.run t .go)
    · exact Or.inl (h.read hintime at_ hfair hreads)
    · cases q with
      | readLength =>
        obtain rfl := Option.some.inj hreads
        cases hbody : (w.slots n).body with
        | none => exact Or.inr (Or.inl rfl)
        | some body =>
          left
          rcases h.shows n with hblank | ⟨page, hr, hpage | ⟨-, -, -, hpart⟩ | ⟨-, -, -, hpart⟩⟩
          · exact absurd (hbody.symm.trans (Prod.mk.inj (Prod.mk.inj hblank).2).1) nofun
          · obtain ⟨hstatus, hrest⟩ := Prod.mk.inj hpage
            exact ⟨page, hr, (Prod.mk.inj hrest).1, hstatus⟩
          · exact absurd (hbody.symm.trans (Prod.mk.inj (Prod.mk.inj hpart).2).1) nofun
          · obtain ⟨hstatus, hrest⟩ := Prod.mk.inj hpart
            exact ⟨page, hr, (Prod.mk.inj hrest).1, hstatus⟩
      | replyType status body =>
        obtain rfl := Option.some.inj hreads
        obtain ⟨page, hr, hbody, rfl, rfl⟩ := hfair
        rcases h.shows n with hblank | ⟨page', hr', hpage | ⟨-, -, -, hpart⟩ | ⟨-, -, -, hpart⟩⟩
        · exact absurd (hbody.symm.trans (Prod.mk.inj (Prod.mk.inj hblank).2).1) nofun
        · obtain rfl := Option.some.inj (hr.symm.trans hr')
          left
          refine ⟨page, hr, ?_⟩
          rw [(Prod.mk.inj (Prod.mk.inj hpage).2).2]
          rfl
        · exact absurd (hbody.symm.trans (Prod.mk.inj (Prod.mk.inj hpart).2).1) nofun
        · -- the content type is still the one the slot was made with
          refine Or.inr (Or.inr ⟨page, hr, ?_⟩)
          rw [(Prod.mk.inj (Prod.mk.inj hpart).2).2]
      | waiting | readError | readStatus | replyStatus | replyBody | replying | refusing
      | crashed =>
        refine absurd ⟨fun u k ha hu => ?_, fun u k status body ha hu => ?_⟩ hintime
        all_goals
          obtain ⟨rfl, -⟩ := Act.run.inj ha
          rw [at_] at hu
          cases hu
  · cases hreads
  · cases hreads

/-- Every waiter has read what its slot's owner solved, if anything. -/
def AllSeen (w : World) : Prop := ∀ t n p, w.pcs t = .waiter n p → p.Seen (w.slots n) (w.results n)

theorem Staged.seen {cfg : Config} {w w' : World} {a : Act} (h : Staged w) (hseen : AllSeen w)
    (hs : Passthrough.step cfg w a = some w') : AllSeen w' := by
  intro t n p ht
  rcases step_waiter hs ht with hold | ⟨rfl, -⟩ | rfl | ⟨q, rfl, at_, hreads⟩
  · exact (hseen t n p hold).grow (h.grows hs (h.waiter t n p hold))
  · exact Or.inl trivial
  · exact Or.inl trivial
  · exact (h.see at_ (hseen t n q at_) hreads).grow (h.grows hs (h.waiter t n q at_))

theorem run_seen {cfg : Config} {x : World × Record}
    (hrun : Run (annotated (step cfg) (Record.note cfg)) Any (World.init, Record.blank) x) :
    AllSeen x.1 := by
  have hboth := hrun.invariant (I := fun x => Staged x.1 ∧ AllSeen x.1)
    (fun x a x' ⟨h, hseen⟩ _ hs =>
      have hstep := (annotated_iff.mp hs).1
      ⟨h.step hstep, h.seen hseen hstep⟩) ⟨staged_init, nofun⟩
  exact hboth.2

/-! ## Answers -/

/-- What a thread is about to send, when it is a page. -/
def Pc.sends : Pc → Option Shown
  | .hit e => some e.page.shown
  | .owner _ _ (.sending page) => some page.shown
  | .waiter _ (.replying status body contentType) => some (status, body, contentType)
  | _ => none

/-- **Every answer was solved for the path it answers**, whoever solved it: for every
interleaving of any number of requests, a page about to be sent is one that some owner
got for the client's own path, asking for the URL and under the session `route` reads out
of it. The status and the body are that page's, and so is the content type, unless a
waiter read it before its owner had published it. -/
theorem answer_solved_for_path {cfg : Config} {x : World × Record}
    (hrun : Run (annotated (step cfg) (Record.note cfg)) Any (World.init, Record.blank) x)
    {t : Tid} {answer : Shown} (hsends : (x.1.pcs t).sends = some answer) :
    ∃ page n, x.2.Solved cfg n (x.2.asked t) page ∧
      (answer = page.shown ∨ (∃ m p, x.1.pcs t = .waiter m p) ∧
        answer = (some page.status, some page.body, htmlContentType)) := by
  have htraced := run_traced hrun
  have hpoint := htraced.points t
  cases hp : x.1.pcs t with
  | hit e =>
    rw [hp] at hsends hpoint
    obtain rfl := Option.some.inj hsends
    obtain ⟨storedAt, hkept⟩ := hpoint
    obtain ⟨n, hsolved⟩ := hkept.stored.solved
    exact ⟨e.page, n, hsolved, Or.inl rfl⟩
  | owner raw n o =>
    rw [hp] at hsends hpoint
    obtain ⟨rfl, -, -, hknown⟩ := hpoint
    cases o with
    | sending page =>
      obtain rfl := Option.some.inj hsends
      exact ⟨page, n, hknown, Or.inl rfl⟩
    | solving | failing | refusing | checking | storing | putStatus | putBody | putType | unslot =>
      cases hsends
  | waiter n p =>
    rw [hp] at hsends hpoint
    obtain ⟨-, hpath⟩ := hpoint
    cases p with
    | replying status body contentType =>
      obtain rfl := Option.some.inj hsends
      rcases run_seen hrun t n _ hp with ⟨page, hr, hshown⟩ | hcrashed | ⟨page, hr, hearly⟩
      · obtain ⟨-, hsolved⟩ := htraced.results n page hr
        rw [hpath] at hsolved
        exact ⟨page, n, hsolved, Or.inl hshown⟩
      · cases hcrashed
      · obtain ⟨-, hsolved⟩ := htraced.results n page hr
        rw [hpath] at hsolved
        obtain ⟨rfl, rfl, rfl⟩ := Waiter.replying.inj hearly
        exact ⟨page, n, hsolved, Or.inr ⟨⟨n, _, rfl⟩, rfl⟩⟩
    | waiting | readError | readStatus | readLength | replyStatus | replyBody | replyType
    | refusing | crashed => cases hsends
  | idle | missing | lookup | signal =>
    rw [hp] at hsends
    cases hsends

/-- A waiter times out between the body and the content type of a document, and sends it
as HTML: it is the document all the same. -/
theorem document_sent_as_html : ∃ x : World × Record,
    (x.1.pcs 1).sends = some (some 200, some Page.document.body, htmlContentType) ∧
    ∃ page n, x.2.Solved .mirror n (x.2.asked 1) page ∧
      ((some 200, some Page.document.body, htmlContentType) = page.shown ∨
        (∃ m p, x.1.pcs 1 = .waiter m p) ∧
        (some 200, some Page.document.body, htmlContentType) =
          (some page.status, some page.body, htmlContentType)) := by
  obtain ⟨x, hrun, hsends⟩ : ∃ x : World × Record,
      Run (annotated (step .mirror) (Record.note .mirror)) Any (World.init, Record.blank) x ∧
      (x.1.pcs 1).sends = some (some 200, some Page.document.body, htmlContentType) :=
    Run.of_exec_any
      (joined ++ [.run 0 (.solved .document), .run 0 (.checked true)] ++ goes 0 2 ++
        [.run 1 .timeout] ++ goes 1 6)
      (by decide +kernel)
  exact ⟨x, hsends, answer_solved_for_path hrun hsends⟩

/-- **A hit is fresh and was no challenge**: for every interleaving, what a lookup finds was
solved for the path looked up, found to be no challenge, and stored, in that order; it is
what the path was stored with last, a 2xx, and not yet as old as such a page may get. -/
theorem hit_fresh {cfg : Config} {x : World × Record}
    (hrun : Run (annotated (step cfg) (Record.note cfg)) Any (World.init, Record.blank) x)
    {t : Tid} {raw target host : Text} {now : ℚ} {e : Entry}
    (at_ : x.1.pcs t = .lookup raw target host now) (hfound : x.1.hit? cfg raw now = some e) :
    raw = x.2.asked t ∧ ∃ storedAt : ℚ, x.2.Stored cfg raw e.page storedAt ∧
      x.2.lastStored raw = some (e.page, storedAt) ∧
      200 ≤ e.page.status ∧ e.page.status < 300 ∧
      now < storedAt + cacheTtlFor cfg e.page ∧ cacheTtlFor cfg e.page ≤ cfg.cacheTtl := by
  have htraced := run_traced hrun
  have hpoint := htraced.points t
  rw [at_] at hpoint
  obtain ⟨hfind, hlive⟩ := Option.filter_eq_some_iff.mp hfound
  obtain ⟨storedAt, hkept, hlast⟩ := htraced.cache raw e hfind
  have hgood := hkept.good
  simp only [asksChallenge, decide_eq_true_eq] at hgood hlive
  refine ⟨hpoint.1, storedAt, hkept.stored, hlast, hgood.2.1, hgood.2.2, ?_, ?_⟩
  · rw [← hkept.expires]
    exact hlive.2
  · unfold cacheTtlFor
    split
    · exact le_refl _
    · exact min_le_right _ _

/-- Half an hour after it was solved a page is found again. -/
theorem details_found_again : ∃ (x : World × Record) (e : Entry),
    e.page = .details ∧ "/details/1".toList = x.2.asked 1 ∧
      ∃ storedAt : ℚ, x.2.Stored .mirror "/details/1".toList e.page storedAt ∧
      x.2.lastStored "/details/1".toList = some (e.page, storedAt) ∧
      200 ≤ e.page.status ∧ e.page.status < 300 ∧
      1800 < storedAt + cacheTtlFor .mirror e.page ∧
      cacheTtlFor .mirror e.page ≤ Config.mirror.cacheTtl := by
  obtain ⟨x, hrun, at_, hfound⟩ : ∃ x : World × Record,
      Run (annotated (step .mirror) (Record.note .mirror)) Any (World.init, Record.blank) x ∧
      x.1.pcs 1 = .lookup "/details/1".toList "https://a.example/details/1".toList
        "a.example".toList 1800 ∧
      x.1.hit? .mirror "/details/1".toList 1800 = some ⟨3600, .details⟩ :=
    Run.of_exec_any
      ([.run 0 (.start "/details/1".toList), .run 0 .go, .run 0 (.solved .details),
        .run 0 (.checked false), .run 0 .go, .tick 1800, .run 1 (.start "/details/1".toList)])
      (by decide +kernel)
  exact ⟨x, _, rfl, hit_fresh hrun at_ hfound⟩

end Solverr.Passthrough
