import Mathlib.Data.List.Infix
import Mathlib.Logic.Function.Basic
import Solverr.Lib.Run
import Solverr.Passthrough.Cache

/-!
# The passthrough's requests as interleaving threads

Every thread runs `_handle` for one request at a time. A thread's `Pc` is the next
thing it does that another thread could see or be seen by: taking the lock, or
reading or writing one field of a shared `_Pending`. `step` does one such thing,
so a run of `step` is an interleaving of any number of requests.

- The first request for a path files a slot and is its `owner`; later ones are its
  `waiter`s. An owner solves, checks, stores, publishes into its slot field by
  field, sends, and in its `finally` takes the slot out and sets the event.
- A solve may return any page, raise (`raise`), or raise past `except Exception`
  (`abort`). The challenge check may go either way or raise, and so may storing and
  sending raise.
- A waiter wakes when the event is set (`go`) or its wait runs out (`timeout`), at
  any time. It then reads the slot's fields one by one, without the lock.

`results` is the record of what each slot's owner solved; no step reads it.
-/

namespace Solverr.Passthrough

open Solverr.Lib (Dict Text CaseMap Run)

/-- A thread. -/
abbrev Tid := Nat

/-- A `_Pending` slot. -/
abbrev SlotId := Nat

/-- `_HTML_CONTENT_TYPE` -/
def htmlContentType : Text := "text/html; charset=utf-8".toList

/-- `_Pending` -/
structure Pending where
  event : Bool
  status : Option Int
  body : Option Bytes
  contentType : Text
  error : Option String
  deriving DecidableEq

/-- `_Pending.__init__` -/
def Pending.new : Pending := ⟨false, none, none, htmlContentType, none⟩

/-! ## How long a page is kept -/

/-- `_SUSPECT_CACHE_TTL` -/
def suspectCacheTtl : Int := 60

/-- `_earns_full_ttl` -/
def earnsFullTtl (cfg : Config) (page : Page) : Bool :=
  cfg.cacheRequires = [] ∨ ¬ "html".toList <:+: cfg.caseMap.lower page.contentType ∨
    cfg.cacheRequires <:+: page.body

/-- `_cache_ttl_for` -/
def cacheTtlFor (cfg : Config) (page : Page) : Int :=
  if earnsFullTtl cfg page then cfg.cacheTtl else min suspectCacheTtl cfg.cacheTtl

/-- Whether the challenge check is made: `and` stops before it otherwise. -/
def asksChallenge (cfg : Config) (page : Page) : Bool :=
  0 < cfg.cacheTtl ∧ 200 ≤ page.status ∧ page.status < 300

/-- `cacheable`, when the challenge check says `challenge`. -/
def cacheable (cfg : Config) (page : Page) (challenge : Bool) : Bool :=
  asksChallenge cfg page && !challenge

/-! ## Program points -/

/-- Where an owner is. -/
inductive Owner
  | solving (req : SolveRequest)
  | failing (text : String)
  | refusing
  | checking (page : Page)
  | storing (page : Page) (ttl : Int)
  | putStatus (page : Page)
  | putBody (page : Page)
  | putType (page : Page)
  | sending (page : Page)
  | unslot
  deriving DecidableEq

/-- Where a waiter is. `readLength` is the `len(pending.body)` of the log line, and
`crashed` is what it does on no body. -/
inductive Waiter
  | waiting
  | readError
  | readStatus
  | readLength
  | replyStatus
  | replyBody (status : Option Int)
  | replyType (status : Option Int) (body : Option Bytes)
  | replying (status : Option Int) (body : Option Bytes) (contentType : Text)
  | refusing
  | crashed
  deriving DecidableEq

inductive Pc
  | idle
  | missing
  | lookup (raw target host : Text) (now : ℚ)
  | hit (entry : Entry)
  | waiter (slot : SlotId) (p : Waiter)
  | owner (raw : Text) (slot : SlotId) (p : Owner)
  | signal (slot : SlotId)
  deriving DecidableEq

/-- What a thread does next. -/
inductive Move
  | start (raw : Text)
  | go
  | solved (page : Page)
  | checked (challenge : Bool)
  | raise (text : String)
  | abort
  | timeout
  deriving DecidableEq

/-- One step: the clock goes on to `now`, or a thread makes a move. -/
inductive Act
  | tick (now : ℚ)
  | run (t : Tid) (m : Move)
  deriving DecidableEq

/-- Everything the threads share, and where each of them is. -/
structure World where
  clock : ℚ
  cache : Cache
  inflight : Dict Text SlotId
  slots : SlotId → Pending
  made : Nat
  results : SlotId → Option Page
  pcs : Tid → Pc

namespace World

/-- Start-up: nothing cached, no request under way. -/
def init : World :=
  ⟨0, .empty, .empty, fun _ => .new, 0, fun _ => none, fun _ => .idle⟩

/-- Thread `t` goes to `p`. -/
def goto (w : World) (t : Tid) (p : Pc) : World := { w with pcs := Function.update w.pcs t p }

/-- One write into a slot. -/
def write (w : World) (n : SlotId) (f : Pending → Pending) : World :=
  { w with slots := Function.update w.slots n (f (w.slots n)) }

/-- A new slot under `raw`. -/
def file (w : World) (raw : Text) : World :=
  { w with
    inflight := w.inflight.set raw w.made
    slots := Function.update w.slots w.made .new
    results := Function.update w.results w.made none
    made := w.made + 1 }

/-- The solve of slot `n`'s owner returned `page`. -/
def record (w : World) (n : SlotId) (page : Page) : World :=
  { w with results := Function.update w.results n (some page) }

/-- The hit a lookup of `raw` finds, having read the clock at `now`. -/
def hit? (cfg : Config) (w : World) (raw : Text) (now : ℚ) : Option Entry :=
  (w.cache.entries.find? raw).filter fun e => 0 < cfg.cacheTtl ∧ now < e.expires

end World

/-! ## Steps -/

/-- What a waiter does next, given its slot. -/
def goWaiter (slot : Pending) : Waiter → Option Waiter
  | .waiting => if slot.event then some .readError else none
  -- `pending.error is not None or pending.status is None` stops at the first that holds
  | .readError => some (if slot.error.isSome then .refusing else .readStatus)
  | .readStatus => some (if slot.status.isNone then .refusing else .readLength)
  | .readLength => some (if slot.body.isNone then .crashed else .replyStatus)
  -- the arguments of `_send`, from left to right
  | .replyStatus => some (.replyBody slot.status)
  | .replyBody status => some (.replyType status slot.body)
  | .replyType status body => some (.replying status body slot.contentType)
  | .replying .. | .refusing | .crashed => none

/-- What the owner `t` of slot `n` does next. -/
def goOwner (cfg : Config) (w : World) (t : Tid) (raw : Text) (n : SlotId) :
    Owner → Move → Option World
  -- `_solve`: it returns, raises into the `except`, or raises past it
  | .solving _, .solved page => some ((w.record n page).goto t (.owner raw n (.checking page)))
  | .solving _, .raise text => some (w.goto t (.owner raw n (.failing text)))
  | .solving _, .abort => some (w.goto t (.owner raw n .unslot))
  | .failing text, .go =>
    some ((w.write n fun slot => { slot with error := some text }).goto t (.owner raw n .refusing))
  | .refusing, .go => some (w.goto t (.owner raw n .unslot))
  | .refusing, .raise _ => some (w.goto t (.owner raw n .unslot))
  -- a page that is not cacheable skips `_cache_store`
  | .checking page, .checked challenge =>
    let next : Owner := if cacheable cfg page challenge then .storing page (cacheTtlFor cfg page)
      else .putStatus page
    some (w.goto t (.owner raw n next))
  | .checking page, .raise _ =>
    if asksChallenge cfg page then some (w.goto t (.owner raw n .unslot)) else none
  | .storing page ttl, .go =>
    some ({ w with cache := (w.cache.store cfg raw page (some ttl) w.clock).2 }.goto t
      (.owner raw n (.putStatus page)))
  | .storing _ _, .raise _ => some (w.goto t (.owner raw n .unslot))
  -- the three writes of the result, in the order of the source
  | .putStatus page, .go =>
    some ((w.write n fun slot => { slot with status := some page.status }).goto t
      (.owner raw n (.putBody page)))
  | .putBody page, .go =>
    some ((w.write n fun slot => { slot with body := some page.body }).goto t
      (.owner raw n (.putType page)))
  | .putType page, .go =>
    some ((w.write n fun slot => { slot with contentType := page.contentType }).goto t
      (.owner raw n (.sending page)))
  | .sending _, .go => some (w.goto t (.owner raw n .unslot))
  | .sending _, .raise _ => some (w.goto t (.owner raw n .unslot))
  -- the `finally`, in which the lock is released before the event is set
  | .unslot, .go => some ({ w with inflight := w.inflight.erase raw }.goto t (.signal n))
  | _, _ => none

/-- The locked section at the top of `_handle`. -/
def goLookup (cfg : Config) (w : World) (t : Tid) (raw target host : Text) (now : ℚ) : World :=
  match w.hit? cfg raw now with
  | some e => w.goto t (.hit e)
  | none =>
    match w.inflight.find? raw with
    | some n => w.goto t (.waiter n .waiting)
    | none => (w.file raw).goto t (.owner raw w.made (.solving (solveRequest cfg target host)))

/-- Where a request for `raw` starts, with the clock at `now`. -/
def enter (cfg : Config) (raw : Text) (now : ℚ) : Pc :=
  match route cfg raw with
  | none => .missing
  | some (target, host) => .lookup raw target host now

/-- One move of thread `t`. -/
def move (cfg : Config) (w : World) (t : Tid) (m : Move) : Option World :=
  match w.pcs t, m with
  | .idle, .start raw => some (w.goto t (enter cfg raw w.clock))
  | .missing, .go => some (w.goto t .idle)
  | .lookup raw target host now, .go => some (goLookup cfg w t raw target host now)
  | .hit _, .go => some (w.goto t .idle)
  -- the wait runs out, whatever the slot says
  | .waiter n .waiting, .timeout => some (w.goto t (.waiter n .readError))
  | .waiter _ (.replying ..), .go => some (w.goto t .idle)
  | .waiter _ .refusing, .go => some (w.goto t .idle)
  | .waiter _ .crashed, .go => some (w.goto t .idle)
  | .waiter n p, .go => (goWaiter (w.slots n) p).map fun p' => w.goto t (.waiter n p')
  | .owner raw n p, m => goOwner cfg w t raw n p m
  | .signal n, .go =>
    some ((w.write n fun slot => { slot with event := true }).goto t .idle)
  | _, _ => none

/-- One step. -/
def step (cfg : Config) (w : World) : Act → Option World
  | .tick now => if now < w.clock then none else some { w with clock := now }
  | .run t m => move cfg w t m

/-! ## What a step does -/

namespace World

variable (w : World) {t u : Tid} (p : Pc)

@[simp] theorem goto_self : (w.goto t p).pcs t = p := Function.update_self ..

theorem goto_other (h : u ≠ t) : (w.goto t p).pcs u = w.pcs u := Function.update_of_ne h ..

variable {w p}

/-- What held of every thread's point still does, if it does of the new one. -/
theorem points_goto {P : Tid → Pc → Prop} (h : ∀ u, P u (w.pcs u)) (hp : P t p) :
    ∀ u, P u ((w.goto t p).pcs u) := by
  intro u
  by_cases hu : u = t
  · subst hu
    rw [goto_self]
    exact hp
  · rw [goto_other _ _ hu]
    exact h u

end World

/-- The moves of an owner that concern nobody else. -/
inductive Turn (cfg : Config) : Owner → Owner → Prop
  | failed (req : SolveRequest) (text : String) : Turn cfg (.solving req) (.failing text)
  | aborted (req : SolveRequest) : Turn cfg (.solving req) .unslot
  | refused : Turn cfg .refusing .unslot
  | cacheable (page : Page) (keeps : 0 < cfg.cacheTtl) :
      Turn cfg (.checking page) (.storing page (cacheTtlFor cfg page))
  | uncached (page : Page) : Turn cfg (.checking page) (.putStatus page)
  | unchecked (page : Page) : Turn cfg (.checking page) .unslot
  | unstored (page : Page) (ttl : Int) : Turn cfg (.storing page ttl) .unslot
  | sent (page : Page) : Turn cfg (.sending page) .unslot

/-- What one step does: to the clock, to a thread outside any slot, to a waiter, or to
an owner and what it shares. -/
inductive Effect (cfg : Config) (w : World) : Act → World → Prop
  | tick (now : ℚ) (later : w.clock ≤ now) : Effect cfg w (.tick now) { w with clock := now }
  | enter (t : Tid) (raw : Text) (at_ : w.pcs t = .idle) :
      Effect cfg w (.run t (.start raw)) (w.goto t (enter cfg raw w.clock))
  | leave (t : Tid) (at_ : w.pcs t = .missing ∨ (∃ e, w.pcs t = .hit e) ∨
        ∃ n p, w.pcs t = .waiter n p ∧ goWaiter (w.slots n) p = none) :
      Effect cfg w (.run t .go) (w.goto t .idle)
  | hit (t : Tid) (raw target host : Text) (now : ℚ) (e : Entry)
      (at_ : w.pcs t = .lookup raw target host now) (found : w.hit? cfg raw now = some e) :
      Effect cfg w (.run t .go) (w.goto t (.hit e))
  | join (t : Tid) (raw target host : Text) (now : ℚ) (n : SlotId)
      (at_ : w.pcs t = .lookup raw target host now) (missed : w.hit? cfg raw now = none)
      (found : w.inflight.find? raw = some n) :
      Effect cfg w (.run t .go) (w.goto t (.waiter n .waiting))
  | claim (t : Tid) (raw target host : Text) (now : ℚ)
      (at_ : w.pcs t = .lookup raw target host now) (missed : w.hit? cfg raw now = none)
      (absent : w.inflight.find? raw = none) :
      Effect cfg w (.run t .go)
        ((w.file raw).goto t (.owner raw w.made (.solving (solveRequest cfg target host))))
  | wake (t : Tid) (n : SlotId) (at_ : w.pcs t = .waiter n .waiting) :
      Effect cfg w (.run t .timeout) (w.goto t (.waiter n .readError))
  | read (t : Tid) (n : SlotId) (p p' : Waiter) (at_ : w.pcs t = .waiter n p)
      (reads : goWaiter (w.slots n) p = some p') :
      Effect cfg w (.run t .go) (w.goto t (.waiter n p'))
  | turn (t : Tid) (m : Move) (raw : Text) (n : SlotId) (p p' : Owner)
      (at_ : w.pcs t = .owner raw n p) (turns : Turn cfg p p') :
      Effect cfg w (.run t m) (w.goto t (.owner raw n p'))
  | solved (t : Tid) (raw : Text) (n : SlotId) (req : SolveRequest) (page : Page)
      (at_ : w.pcs t = .owner raw n (.solving req)) :
      Effect cfg w (.run t (.solved page))
        ((w.record n page).goto t (.owner raw n (.checking page)))
  | failing (t : Tid) (raw : Text) (n : SlotId) (text : String)
      (at_ : w.pcs t = .owner raw n (.failing text)) :
      Effect cfg w (.run t .go)
        ((w.write n fun slot => { slot with error := some text }).goto t
          (.owner raw n .refusing))
  | store (t : Tid) (raw : Text) (n : SlotId) (page : Page) (ttl : Int)
      (at_ : w.pcs t = .owner raw n (.storing page ttl)) :
      Effect cfg w (.run t .go)
        ({ w with cache := (w.cache.store cfg raw page (some ttl) w.clock).2 }.goto t
          (.owner raw n (.putStatus page)))
  | putStatus (t : Tid) (raw : Text) (n : SlotId) (page : Page)
      (at_ : w.pcs t = .owner raw n (.putStatus page)) :
      Effect cfg w (.run t .go)
        ((w.write n fun slot => { slot with status := some page.status }).goto t
          (.owner raw n (.putBody page)))
  | putBody (t : Tid) (raw : Text) (n : SlotId) (page : Page)
      (at_ : w.pcs t = .owner raw n (.putBody page)) :
      Effect cfg w (.run t .go)
        ((w.write n fun slot => { slot with body := some page.body }).goto t
          (.owner raw n (.putType page)))
  | putType (t : Tid) (raw : Text) (n : SlotId) (page : Page)
      (at_ : w.pcs t = .owner raw n (.putType page)) :
      Effect cfg w (.run t .go)
        ((w.write n fun slot => { slot with contentType := page.contentType }).goto t
          (.owner raw n (.sending page)))
  | unslot (t : Tid) (raw : Text) (n : SlotId) (at_ : w.pcs t = .owner raw n .unslot) :
      Effect cfg w (.run t .go)
        ({ w with inflight := w.inflight.erase raw }.goto t (.signal n))
  | signal (t : Tid) (n : SlotId) (at_ : w.pcs t = .signal n) :
      Effect cfg w (.run t .go)
        ((w.write n fun slot => { slot with event := true }).goto t .idle)

theorem cacheable_ttl {cfg : Config} {page : Page} {challenge : Bool}
    (h : cacheable cfg page challenge = true) : 0 < cfg.cacheTtl := by
  simp only [cacheable, asksChallenge, Bool.and_eq_true, decide_eq_true_eq] at h
  exact h.1.1

theorem goLookup_effect {cfg : Config} {w : World} {t : Tid} {raw target host : Text} {now : ℚ}
    (at_ : w.pcs t = .lookup raw target host now) :
    Effect cfg w (.run t .go) (goLookup cfg w t raw target host now) := by
  unfold goLookup
  split
  next e found => exact .hit t raw target host now e at_ found
  next missed =>
    split
    next n found => exact .join t raw target host now n at_ missed found
    next absent => exact .claim t raw target host now at_ missed absent

theorem goOwner_effect {cfg : Config} {w w' : World} {t : Tid} {raw : Text} {n : SlotId}
    {p : Owner} {m : Move} (h : goOwner cfg w t raw n p m = some w')
    (at_ : w.pcs t = .owner raw n p) : Effect cfg w (.run t m) w' := by
  unfold goOwner at h
  split at h
  next page => exact Option.some.inj h ▸ .solved t raw n _ page at_
  next text => exact Option.some.inj h ▸ .turn t _ raw n _ _ at_ (.failed _ text)
  next => exact Option.some.inj h ▸ .turn t _ raw n _ _ at_ (.aborted _)
  next text => exact Option.some.inj h ▸ .failing t raw n text at_
  next => exact Option.some.inj h ▸ .turn t _ raw n _ _ at_ .refused
  next => exact Option.some.inj h ▸ .turn t _ raw n _ _ at_ .refused
  next page challenge =>
    obtain rfl := Option.some.inj h
    by_cases hc : cacheable cfg page challenge = true
    · rw [if_pos hc]
      exact .turn t _ raw n _ _ at_ (.cacheable page (cacheable_ttl hc))
    · rw [if_neg hc]
      exact .turn t _ raw n _ _ at_ (.uncached page)
  next page _ =>
    split at h
    next => exact Option.some.inj h ▸ .turn t _ raw n _ _ at_ (.unchecked page)
    next => cases h
  next page ttl => exact Option.some.inj h ▸ .store t raw n page ttl at_
  next page ttl _ => exact Option.some.inj h ▸ .turn t _ raw n _ _ at_ (.unstored page ttl)
  next page => exact Option.some.inj h ▸ .putStatus t raw n page at_
  next page => exact Option.some.inj h ▸ .putBody t raw n page at_
  next page => exact Option.some.inj h ▸ .putType t raw n page at_
  next page => exact Option.some.inj h ▸ .turn t _ raw n _ _ at_ (.sent page)
  next page _ => exact Option.some.inj h ▸ .turn t _ raw n _ _ at_ (.sent page)
  next => exact Option.some.inj h ▸ .unslot t raw n at_
  next => cases h

/-- **Every step is one of these.** -/
theorem step_effect {cfg : Config} {w w' : World} {a : Act} (h : step cfg w a = some w') :
    Effect cfg w a w' := by
  cases a with
  | tick now =>
    simp only [step] at h
    split at h
    next => cases h
    next hle => exact Option.some.inj h ▸ .tick now (not_lt.mp hle)
  | run t m =>
    simp only [step, move] at h
    split at h
    next raw at_ => exact Option.some.inj h ▸ .enter t raw at_
    next at_ => exact Option.some.inj h ▸ .leave t (Or.inl at_)
    next raw target host now at_ => exact Option.some.inj h ▸ goLookup_effect at_
    next e at_ => exact Option.some.inj h ▸ .leave t (Or.inr (Or.inl ⟨e, at_⟩))
    next n at_ => exact Option.some.inj h ▸ .wake t n at_
    next n _ _ _ at_ => exact Option.some.inj h ▸ .leave t (Or.inr (Or.inr ⟨n, _, at_, rfl⟩))
    next n at_ => exact Option.some.inj h ▸ .leave t (Or.inr (Or.inr ⟨n, _, at_, rfl⟩))
    next n at_ => exact Option.some.inj h ▸ .leave t (Or.inr (Or.inr ⟨n, _, at_, rfl⟩))
    next n p _ _ _ at_ =>
      obtain ⟨p', hp', rfl⟩ := Option.map_eq_some_iff.mp h
      exact .read t n p p' at_ hp'
    next raw n p m at_ => exact goOwner_effect h at_
    next n at_ => exact Option.some.inj h ▸ .signal t n at_
    next => cases h

/-- A thread moves by itself. -/
theorem Effect.pcs_other {cfg : Config} {w w' : World} {t u : Tid} {m : Move}
    (h : Effect cfg w (.run t m) w') (hu : u ≠ t) : w'.pcs u = w.pcs u := by
  cases h <;> exact World.goto_other _ _ hu

/-- How a thread comes to wait on a slot, or to be where it is among the reads. -/
theorem step_waiter {cfg : Config} {w w' : World} {a : Act} (hs : step cfg w a = some w')
    {u : Tid} {n : SlotId} {p : Waiter} (hu : w'.pcs u = .waiter n p) :
    w.pcs u = .waiter n p ∨ (p = .waiting ∧ ∃ raw, w.inflight.find? raw = some n) ∨
      p = .readError ∨
      ∃ q, a = .run u .go ∧ w.pcs u = .waiter n q ∧ goWaiter (w.slots n) q = some p := by
  have heff := step_effect hs
  cases a with
  | tick now =>
    cases heff
    exact Or.inl hu
  | run t m =>
    by_cases hut : u = t
    · subst hut
      cases heff with
      | enter _ raw =>
        rw [World.goto_self] at hu
        unfold enter at hu
        split at hu <;> cases hu
      | join _ raw target host now k at_ missed found =>
        rw [World.goto_self] at hu
        obtain ⟨rfl, rfl⟩ := Pc.waiter.inj hu
        exact Or.inr (Or.inl ⟨rfl, raw, found⟩)
      | wake _ k at_ =>
        rw [World.goto_self] at hu
        obtain ⟨rfl, rfl⟩ := Pc.waiter.inj hu
        exact Or.inr (Or.inr (Or.inl rfl))
      | read _ k q q' at_ reads =>
        rw [World.goto_self] at hu
        obtain ⟨rfl, rfl⟩ := Pc.waiter.inj hu
        exact Or.inr (Or.inr (Or.inr ⟨q, rfl, at_, reads⟩))
      | leave | hit | claim | turn | solved | failing | store | putStatus | putBody | putType
      | unslot | signal =>
        rw [World.goto_self] at hu
        cases hu
    · exact Or.inl ((heff.pcs_other hut).symm.trans hu)

theorem step_clock_le {cfg : Config} {w w' : World} {a : Act} (hs : step cfg w a = some w') :
    w.clock ≤ w'.clock := by
  cases step_effect hs with
  | tick now later => exact later
  | _ => exact le_refl _

/-- The points that carry nothing a thread decided on its way: all but a lookup, and an
owner about to solve or to store. -/
def Pc.plain : Pc → Bool
  | .lookup .. | .owner _ _ (.solving _) | .owner _ _ (.storing _ _) => false
  | _ => true

theorem turn_plain {cfg : Config} {p p' : Owner} (h : Turn cfg p p') (raw : Text) (n : SlotId) :
    (Pc.owner raw n p').plain = true ∨
      0 < cfg.cacheTtl ∧ ∃ page ttl, p' = .storing page ttl := by
  cases h with
  | cacheable page keeps => exact Or.inr ⟨keeps, page, _, rfl⟩
  | failed | aborted | refused | uncached | unchecked | unstored | sent => exact Or.inl rfl

/-- **Rule for points.** What holds of every plain point, and of the others where a thread
comes to them, is kept by a step. -/
theorem step_points {cfg : Config} {w w' : World} {a : Act} {P : Pc → Prop}
    (hs : step cfg w a = some w') (hplain : ∀ p, p.plain = true → P p)
    (henter : ∀ raw, P (enter cfg raw w.clock))
    (hclaim : ∀ t raw target host now, w.pcs t = .lookup raw target host now →
      P (.owner raw w.made (.solving (solveRequest cfg target host))))
    (hstoring : 0 < cfg.cacheTtl → ∀ raw n page ttl, P (.owner raw n (.storing page ttl)))
    (h : ∀ t, P (w.pcs t)) : ∀ t, P (w'.pcs t) := by
  have goes : ∀ {t : Tid} {p : Pc}, P p → ∀ u, P ((w.goto t p).pcs u) :=
    fun hp => World.points_goto (P := fun _ => P) h hp
  cases step_effect hs with
  | tick => exact h
  | enter t raw => exact goes (henter raw)
  | claim t raw target host now at_ => exact goes (hclaim t raw target host now at_)
  | turn t m raw n p p' at_ turns =>
    rcases turn_plain turns raw n with hp | ⟨hkeeps, page, ttl, rfl⟩
    · exact goes (hplain _ hp)
    · exact goes (hstoring hkeeps raw n page ttl)
  | leave | hit | join | wake | read => exact goes (hplain _ rfl)
  | solved t raw n req page => exact goes (hplain (.owner raw n (.checking page)) rfl)
  | failing t raw n => exact goes (hplain (.owner raw n .refusing) rfl)
  | store t raw n page => exact goes (hplain (.owner raw n (.putStatus page)) rfl)
  | putStatus t raw n page => exact goes (hplain (.owner raw n (.putBody page)) rfl)
  | putBody t raw n page => exact goes (hplain (.owner raw n (.putType page)) rfl)
  | putType t raw n page => exact goes (hplain (.owner raw n (.sending page)) rfl)
  | unslot t raw n => exact goes (hplain (.signal n) rfl)
  | signal => exact goes (hplain .idle rfl)

end Solverr.Passthrough
