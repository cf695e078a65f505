import Solverr.Lib.SingleFlight
import Solverr.Passthrough.Handler

/-!
# One solve a path

Requests for a path share one solve by way of `_inflight`: that is `Flights`, with
the slots as tickets and their events as what is rung. `flights` is the map, and
`step_flights` that every step of a handler is a step of the protocol or none of its
business; so one owner solves a path at a time, and a slot whose owner has finished
is rung and filed nowhere.

Between its store and its `finally` an owner is covered by its slot, and after it by
the entry it stored: `Kept` is what holds from the store on, for as long as lookups
come before the entry expires and nothing evicts it (`Lasts`).
-/

namespace Solverr.Passthrough

open Solverr.Lib (Text Run Any Role Flights exec)

/-- What a thread still owes the flight of its slot. -/
def Pc.role : Pc → Option (Role Text)
  | .owner raw n _ => some (.leading raw n)
  | .signal n => some (.closing n)
  | _ => none

/-- The flights of a state. -/
def flights (w : World) : Flights Text where
  current := w.inflight
  rung n := (w.slots n).event
  issued := w.made
  role t := (w.pcs t).role

/-- Reading a field of an updated function. -/
theorem map_update {α β : Type} (g : α → β) (f : Nat → α) (n : Nat) (x : α) :
    (fun m => g (Function.update f n x m)) = Function.update (fun m => g (f m)) n (g x) :=
  funext fun m => Function.apply_update (fun _ => g) f n x m

/-- Nothing else changes, nor does the role. -/
theorem flights_goto {w : World} {t : Tid} {p : Pc} (h : p.role = (w.pcs t).role) :
    flights (w.goto t p) = flights w := by
  have hrole : (fun u => ((w.goto t p).pcs u).role) = fun u => (w.pcs u).role := by
    rw [World.goto, map_update, h]
    exact Function.update_eq_self t _
  simp only [flights, hrole]
  rfl

/-- A write that leaves the event alone. -/
theorem flights_write {w : World} {n : SlotId} {f : Pending → Pending}
    (h : (f (w.slots n)).event = (w.slots n).event) : flights (w.write n f) = flights w := by
  have hrung : (fun m => ((w.write n f).slots m).event) = fun m => (w.slots m).event := by
    rw [World.write, map_update Pending.event, h]
    exact Function.update_eq_self n _
  simp only [flights, hrung]
  rfl

/-- An owner at another point of the same slot. -/
theorem role_owner {w : World} {t : Tid} {raw : Text} {n : SlotId} {p p' : Owner}
    (h : w.pcs t = .owner raw n p) : (Pc.owner raw n p').role = (w.pcs t).role := by
  rw [h]
  rfl

theorem flights_file {cfg : Config} {w : World} {t : Tid} {raw target host : Text} :
    flights ((w.file raw).goto t (.owner raw w.made (.solving (solveRequest cfg target host)))) =
      ⟨w.inflight.set raw w.made, Function.update (fun n => (w.slots n).event) w.made false,
        w.made + 1, Function.update (fun u => (w.pcs u).role) t (some (.leading raw w.made))⟩ := by
  simp only [flights, World.goto, World.file, map_update Pc.role, map_update Pending.event]
  rfl

/-- **Every step is one of the protocol, or none of its business.** -/
theorem step_flights {cfg : Config} {w w' : World} {a : Act} (hs : step cfg w a = some w') :
    flights w' = flights w ∨ Flights.Step (flights w) (flights w') := by
  cases step_effect hs with
  | tick => exact Or.inl rfl
  | enter t raw at_ =>
    refine Or.inl (flights_goto ?_)
    rw [at_]
    unfold enter
    split <;> rfl
  | leave t at_ =>
    refine Or.inl (flights_goto ?_)
    rcases at_ with h | ⟨e, h⟩ | ⟨n, p, h, -⟩ <;> rw [h] <;> rfl
  | hit t raw target host now e at_ | join t raw target host now n at_ | wake t n at_
  | read t n p p' at_ =>
    refine Or.inl (flights_goto ?_)
    rw [at_]
    rfl
  | turn t m raw n p p' at_ => exact Or.inl (flights_goto (role_owner at_))
  | solved t raw n req page at_ =>
    exact Or.inl (flights_goto (w := w.record n page) (role_owner at_))
  | store t raw n page ttl at_ =>
    exact Or.inl (flights_goto (w := { w with cache := _ }) (role_owner at_))
  | failing t raw n text at_ | putStatus t raw n page at_ | putBody t raw n page at_
  | putType t raw n page at_ =>
    left
    rw [flights_goto (w := w.write n _) (role_owner at_)]
    exact flights_write rfl
  | claim t raw target host now at_ missed absent =>
    right
    rw [flights_file]
    refine .claim (f := flights w) t raw ?_ absent
    show (w.pcs t).role = none
    rw [at_]
    rfl
  | unslot t raw n at_ =>
    right
    have hleads : (flights w).role t = some (.leading raw n) := by
      show (w.pcs t).role = _
      rw [at_]
      rfl
    have hclose := Flights.Step.close t raw n hleads
    simp only [flights, World.goto, map_update Pc.role]
    exact hclose
  | signal t n at_ =>
    right
    have hclosed : (flights w).role t = some (.closing n) := by
      show (w.pcs t).role = _
      rw [at_]
      rfl
    have hring := Flights.Step.ring t n hclosed
    simp only [flights, World.goto, World.write, map_update Pc.role, map_update Pending.event]
    exact hring

/-- A run is a run of the protocol. -/
theorem run_flights {cfg : Config} {G : World → Act → Prop} {w w' : World}
    (hrun : Run (step cfg) G w w') :
    Relation.ReflTransGen Flights.Step (flights w) (flights w') := by
  have matched : ∀ w a w' f, f = flights w → G w a → step cfg w a = some w' →
      ∃ f', Relation.ReflTransGen Flights.Step f f' ∧ f' = flights w' := by
    intro w a w' f hf _ hs
    subst hf
    rcases step_flights hs with hsame | hstep
    · exact ⟨flights w, .refl, hsame.symm⟩
    · exact ⟨flights w', .single hstep, rfl⟩
  obtain ⟨f, hpath, rfl⟩ := hrun.simulates matched rfl
  exact hpath

theorem flights_init : Flights.Sound (flights .init) :=
  ⟨nofun, nofun, nofun, nofun, nofun⟩

theorem run_sound {cfg : Config} {w : World} (hrun : Run (step cfg) Any World.init w) :
    Flights.Sound (flights w) :=
  flights_init.steps (run_flights hrun)

/-- The step with which a thread ends its part in a slot. -/
theorem step_over {cfg : Config} {w w' : World} {a : Act} (h : Flights.Sound (flights w))
    (hs : step cfg w a = some w') {t : Tid} {r : Role Text} (ht : (w.pcs t).role = some r)
    (ht' : (w'.pcs t).role = none) : Flights.Over r.ticket (flights w') := by
  rcases step_flights hs with hsame | hstep
  · have hrole : (w'.pcs t).role = (w.pcs t).role := congrFun (congrArg Flights.role hsame) t
    rw [ht, ht'] at hrole
    cases hrole
  · exact hstep.over h ht ht'

/-- Only a lookup that finds the slot filed begins to wait on it. -/
theorem step_waits {cfg : Config} {w w' : World} {a : Act} (hs : step cfg w a = some w')
    {n : SlotId} (hgone : ∀ raw, w.inflight.find? raw ≠ some n) {t : Tid}
    (ht : w'.pcs t = .waiter n .waiting) : w.pcs t = .waiter n .waiting := by
  rcases step_waiter hs ht with hold | ⟨-, raw, hfound⟩ | hread | ⟨q, -, -, hreads⟩
  · exact hold
  · exact absurd hfound (hgone raw)
  · cases hread
  · -- no read leads back to the wait
    unfold goWaiter at hreads
    split at hreads <;> first
      | cases hreads
      | split at hreads <;> cases hreads

/-! ## From the store on -/

/-- A lookup's clock is not ahead, and nothing is stored unless pages are kept. -/
def Pc.Timely (cfg : Config) (clock : ℚ) : Pc → Prop
  | .lookup _ _ _ now => now ≤ clock
  | .owner _ _ (.storing _ _) => 0 < cfg.cacheTtl
  | _ => True

theorem Pc.Timely.later {cfg : Config} {clock clock' : ℚ} {p : Pc} (h : p.Timely cfg clock)
    (hle : clock ≤ clock') : p.Timely cfg clock' := by
  unfold Timely at h ⊢
  split
  next => exact le_trans h hle
  next => exact h
  next => trivial

theorem enter_timely (cfg : Config) (raw : Text) (clock : ℚ) :
    (enter cfg raw clock).Timely cfg clock := by
  unfold enter
  split
  next => trivial
  next => exact le_refl clock

theorem plain_timely (cfg : Config) (clock : ℚ) {p : Pc} (h : p.plain = true) :
    p.Timely cfg clock := by
  unfold Pc.plain at h
  split at h
  next => cases h
  next => cases h
  next => cases h
  next hlookup _ hstoring =>
    unfold Pc.Timely
    split
    next => exact absurd rfl (hlookup _ _ _ _)
    next => exact absurd rfl (hstoring _ _ _ _)
    next => trivial

theorem step_timely {cfg : Config} {w w' : World} {a : Act} (hs : step cfg w a = some w')
    (h : ∀ t, (w.pcs t).Timely cfg w.clock) : ∀ t, (w'.pcs t).Timely cfg w'.clock := by
  have hle := step_clock_le hs
  exact step_points hs (fun _ => plain_timely cfg w'.clock)
    (fun raw => (enter_timely cfg raw w.clock).later hle) (fun _ _ _ _ _ _ => trivial)
    (fun hkeeps _ _ _ _ => hkeeps) fun t => (h t).later hle

theorem run_timely {cfg : Config} {G : World → Act → Prop} {w w' : World}
    (hrun : Run (step cfg) G w w') (h : ∀ t, (w.pcs t).Timely cfg w.clock) :
    ∀ t, (w'.pcs t).Timely cfg w'.clock :=
  hrun.invariant (I := fun w => ∀ t, (w.pcs t).Timely cfg w.clock)
    (fun _ _ _ h _ hs => step_timely hs h) h

/-- The owner's solve, or the store of its page, is still to come. -/
def Owner.ahead : Owner → Bool
  | .solving _ | .checking _ | .storing _ _ => true
  | _ => false

/-- The thread does not solve `raw`, nor has it a page to store. -/
def Pc.Quiet (raw : Text) (p : Pc) : Prop := ∀ n o, p = .owner raw n o → o.ahead = false

/-- A step that happens before `e` is gone: a lookup of `raw` comes before `e` expires,
and the step does not evict it. -/
structure Lasts (cfg : Config) (raw : Text) (e : Entry) (w : World) (a : Act) : Prop where
  fresh : ∀ t target host now, a = .run t .go → w.pcs t = .lookup raw target host now →
    w.clock < e.expires
  stays : ∀ w', step cfg w a = some w' → w'.cache.entries.find? raw ≠ none

/-- What covers `raw` from the store of `e` on. -/
structure Kept (cfg : Config) (raw : Text) (e : Entry) (w : World) : Prop where
  keeps : 0 < cfg.cacheTtl
  timely : ∀ t, (w.pcs t).Timely cfg w.clock
  entry : w.cache.entries.find? raw = some e
  quiet : ∀ t, (w.pcs t).Quiet raw

theorem turn_ahead {cfg : Config} {p p' : Owner} (h : Turn cfg p p') (hp : p.ahead = false) :
    p'.ahead = false := by
  cases h with
  | cacheable => cases hp
  | failed | aborted | refused | uncached | unchecked | unstored | sent => rfl

/-- While the entry lasts, a lookup of its path is a hit. -/
theorem Kept.hit {cfg : Config} {raw : Text} {e : Entry} {w : World} (h : Kept cfg raw e w)
    {t : Tid} {target host : Text} {now : ℚ} (at_ : w.pcs t = .lookup raw target host now)
    (hfresh : w.clock < e.expires) : w.hit? cfg raw now = some e := by
  have hnow : (w.pcs t).Timely cfg w.clock := h.timely t
  rw [at_] at hnow
  unfold World.hit?
  rw [h.entry, Option.filter_some, if_pos]
  exact decide_eq_true ⟨h.keeps, lt_of_le_of_lt hnow hfresh⟩

theorem Kept.step {cfg : Config} {raw : Text} {e : Entry} {w w' : World} {a : Act}
    (h : Kept cfg raw e w) (hg : Lasts cfg raw e w a) (hs : step cfg w a = some w') :
    Kept cfg raw e w' := by
  have goes : ∀ {t : Tid} {p : Pc}, p.Quiet raw → ∀ u, ((w.goto t p).pcs u).Quiet raw :=
    fun hp => World.points_goto (P := fun _ q => q.Quiet raw) h.quiet hp
  -- an owner past its store stays there
  have past : ∀ {t : Tid} {raw' : Text} {n : SlotId} {p p' : Owner},
      w.pcs t = .owner raw' n p → (p.ahead = false → p'.ahead = false) →
      (Pc.owner raw' n p').Quiet raw := by
    intro t raw' n p p' at_ hp' m o ho
    obtain ⟨rfl, rfl, rfl⟩ := Pc.owner.inj ho
    exact hp' (h.quiet t n p at_)
  have htimely := step_timely hs h.timely
  have hstays := hg.stays w' hs
  cases step_effect hs with
  | tick => exact ⟨h.keeps, htimely, h.entry, h.quiet⟩
  | enter t raw' =>
    refine ⟨h.keeps, htimely, h.entry, goes fun n o ho => ?_⟩
    unfold enter at ho
    split at ho <;> cases ho
  | leave | hit | join | wake | read => exact ⟨h.keeps, htimely, h.entry, goes nofun⟩
  | claim t raw' target host now at_ missed absent =>
    refine ⟨h.keeps, htimely, h.entry, goes (t := t) fun n o ho => ?_⟩
    -- the lookup would have been a hit
    obtain ⟨rfl, -, -⟩ := Pc.owner.inj ho
    rw [h.hit at_ (hg.fresh t target host now rfl at_)] at missed
    cases missed
  | turn t m raw' n p p' at_ turns =>
    exact ⟨h.keeps, htimely, h.entry, goes (past at_ (turn_ahead turns))⟩
  | solved t raw' n req page at_ =>
    exact ⟨h.keeps, htimely, h.entry, goes (t := t) (past at_ nofun)⟩
  | store t raw' n page ttl at_ =>
    have hraw : raw ≠ raw' := by
      rintro rfl
      cases h.quiet t n _ at_
    refine ⟨h.keeps, htimely, ?_, goes (t := t) (past at_ fun _ => rfl)⟩
    -- another path's store does not replace the entry, and the guard says it stays
    obtain ⟨v, hv⟩ := Option.ne_none_iff_exists'.mp hstays
    have hold := Cache.find?_of_store hraw hv
    rw [hv, ← hold, h.entry]
  | failing t raw' n text at_ | putStatus t raw' n page at_ | putBody t raw' n page at_
  | putType t raw' n page at_ =>
    exact ⟨h.keeps, htimely, h.entry, goes (t := t) (past at_ fun _ => rfl)⟩
  | unslot t raw' n => exact ⟨h.keeps, htimely, h.entry, goes (t := t) (p := .signal n) nofun⟩
  | signal t n => exact ⟨h.keeps, htimely, h.entry, goes (t := t) (p := .idle) nofun⟩

/-- After a store of `raw`, its owner is the only one and has nothing more to store. -/
theorem kept_of_store {cfg : Config} {w w' : World} {t : Tid} {raw : Text} {n : SlotId}
    {page : Page} {ttl : Int} (hsound : Flights.Sound (flights w))
    (htimely : ∀ u, (w.pcs u).Timely cfg w.clock) (at_ : w.pcs t = .owner raw n (.storing page ttl))
    (hs : step cfg w (.run t .go) = some w')
    (hstored : (w.cache.store cfg raw page (some ttl) w.clock).1 = true) :
    Kept cfg raw (Cache.entryFor cfg page (some ttl) w.clock) w' := by
  have hw' : w' = { w with cache := (w.cache.store cfg raw page (some ttl) w.clock).2 }.goto t
      (.owner raw n (.putStatus page)) := by
    simp only [step, move, at_, goOwner] at hs
    exact (Option.some.inj hs).symm
  have hkeeps : (w.pcs t).Timely cfg w.clock := htimely t
  rw [at_] at hkeeps
  have htimely' := step_timely hs htimely
  subst hw'
  refine ⟨hkeeps, htimely', Cache.find?_stored hstored, fun u m o ho => ?_⟩
  by_cases hu : u = t
  · subst hu
    rw [World.goto_self] at ho
    obtain ⟨-, -, rfl⟩ := Pc.owner.inj ho
    rfl
  · rw [World.goto_other _ _ hu] at ho
    -- another owner of the path would be its second leader
    have hleads : (flights w).role u = some (.leading raw m) := congrArg Pc.role ho
    have hleads' : (flights w).role t = some (.leading raw n) := congrArg Pc.role at_
    exact absurd (hsound.one_leader hleads hleads') hu

/-- **Requests for a path are coalesced.** In every interleaving, whatever solves,
checks, stores and sends do: at most one solve of a path runs; a thread that is done
with its slot has set its event and left it filed nowhere, for good, so nobody begins
to wait on it; and from the store of a page on, no solve of its path runs as long as
lookups come before the entry expires and it is not evicted. -/
theorem solves_coalesced {cfg : Config} {w : World} (hrun : Run (step cfg) Any World.init w) :
    (∀ t t' raw n n' req req', w.pcs t = .owner raw n (.solving req) →
      w.pcs t' = .owner raw n' (.solving req') → t = t') ∧
    (∀ t r a w' w₁, (w.pcs t).role = some r → step cfg w a = some w' → (w'.pcs t).role = none →
      Run (step cfg) Any w' w₁ →
        (w₁.slots r.ticket).event = true ∧ (∀ raw, w₁.inflight.find? raw ≠ some r.ticket) ∧
        ∀ a₁ w₂ u, step cfg w₁ a₁ = some w₂ → w₂.pcs u = .waiter r.ticket .waiting →
          w₁.pcs u = .waiter r.ticket .waiting) ∧
    ∀ t raw n page ttl w' w₁, w.pcs t = .owner raw n (.storing page ttl) →
      step cfg w (.run t .go) = some w' →
      (w.cache.store cfg raw page (some ttl) w.clock).1 = true →
      Run (step cfg) (Lasts cfg raw (Cache.entryFor cfg page (some ttl) w.clock)) w' w₁ →
        w₁.cache.entries.find? raw = some (Cache.entryFor cfg page (some ttl) w.clock) ∧
        ∀ u m req, w₁.pcs u ≠ .owner raw m (.solving req) := by
  have hsound := run_sound hrun
  refine ⟨?_, ?_, ?_⟩
  · intro t t' raw n n' req req' ht ht'
    exact hsound.one_leader (congrArg Pc.role ht) (congrArg Pc.role ht')
  · intro t r a w' w₁ hrole hs hnone hrun'
    have hover := (step_over hsound hs hrole hnone).steps (run_flights hrun')
    exact ⟨hover.rung, hover.gone, fun a₁ w₂ u hs₁ hu => step_waits hs₁ hover.gone hu⟩
  · intro t raw n page ttl w' w₁ at_ hs hstored hrun'
    have htimely := run_timely hrun fun _ => trivial
    have hkept := hrun'.invariant (fun _ _ _ h hg hs' => h.step hg hs')
      (kept_of_store hsound htimely at_ hs hstored)
    refine ⟨hkept.entry, fun u m req hu => ?_⟩
    cases hkept.quiet u m _ hu

/-- `Lasts`, decided. -/
def lasts (cfg : Config) (raw : Text) (e : Entry) (w : World) (a : Act) : Bool :=
  (match a with
    | .run t .go =>
      match w.pcs t with
      | .lookup raw' _ _ _ => raw' ≠ raw || decide (w.clock < e.expires)
      | _ => true
    | _ => true) &&
  (match step cfg w a with
    | some w' => (w'.cache.entries.find? raw).isSome
    | none => true)

theorem lasts_of_test {cfg : Config} {raw : Text} {e : Entry} {w : World} {a : Act}
    (h : lasts cfg raw e w a = true) : Lasts cfg raw e w a := by
  obtain ⟨hfresh, hstays⟩ := Bool.and_eq_true_iff.mp h
  constructor
  · rintro t target host now rfl at_
    simpa [at_] using hfresh
  · intro w' hs
    rw [hs] at hstays
    exact Option.isSome_iff_ne_none.mp hstays

/-- The page of the runs below. -/
def Page.details : Page := ⟨200, [60, 112, 62], htmlContentType⟩

/-- A page is solved and stored; the next request, half an hour later and while the
owner has yet to send, is a hit. -/
theorem solves_coalesced_hit : ∃ w : World,
    w.pcs 0 = .owner "/details/1".toList 0 (.sending .details) ∧
    w.pcs 1 = .hit (Cache.entryFor .mirror .details (some 3600) 0) ∧
    ∀ u m req, w.pcs u ≠ .owner "/details/1".toList m (.solving req) := by
  let raw : Text := "/details/1".toList
  let e := Cache.entryFor .mirror .details (some 3600) 0
  obtain ⟨w, hrun, at_, hclock, hstored, hlater⟩ : ∃ w : World,
      Run (step .mirror) Any World.init w ∧ w.pcs 0 = .owner raw 0 (.storing .details 3600) ∧
      w.clock = 0 ∧ (w.cache.store .mirror raw .details (some 3600) w.clock).1 = true ∧
      ((step .mirror w (.run 0 .go)).any fun w' =>
        (exec (step .mirror) (lasts .mirror raw e) w'
          ([.run 0 .go, .run 0 .go, .run 0 .go, .tick 1800] ++
            [.run 1 (.start raw), .run 1 .go])).any fun w₁ =>
          decide (w₁.pcs 0 = .owner raw 0 (.sending .details) ∧ w₁.pcs 1 = .hit e)) = true :=
    Run.of_exec_any [.run 0 (.start raw), .run 0 .go, .run 0 (.solved .details),
      .run 0 (.checked false)] (by decide +kernel)
  obtain ⟨w', hs, hlater⟩ := (Option.any_eq_true _ _).mp hlater
  obtain ⟨w₁, hrun', h₀, h₁⟩ := Run.of_exec_test (fun _ _ => lasts_of_test) _ hlater
  have he : e = Cache.entryFor .mirror .details (some 3600) w.clock := by
    rw [hclock]
  rw [he] at hrun'
  have hall := (solves_coalesced hrun).2.2 0 raw 0 .details 3600 w' w₁ at_ hs hstored hrun'
  exact ⟨w₁, h₀, h₁, hall.2⟩

end Solverr.Passthrough
