import Solverr.Passthrough.Coalesce

/-!
# What a coalesced waiter answers

An owner publishes into its slot field by field: the status, then the body, then the
content type. A waiter whose wait ran out reads them at any time, and the test that
tells it whether there is anything to answer reads the status, which comes first. So
it can pass the test and find no body (`len(None)` raises), or send a body under the
type the slot was made with.

`Staged` says what a slot shows at every point of its owner, and `Fair` what a waiter
may have read so far. Both are kept by every step but the reads that come too early,
and those are what `InTime` excludes.
-/

namespace Solverr.Passthrough

open Solverr.Lib (Text Run Any Flights exec)

/-- The fields a waiter sends. -/
abbrev Shown := Option Int × Option Bytes × Text

def Pending.shown (slot : Pending) : Shown := (slot.status, slot.body, slot.contentType)

/-- What a new slot shows. -/
def blank : Shown := (none, none, htmlContentType)

/-- A page, published. -/
def Page.shown (page : Page) : Shown := (some page.status, some page.body, page.contentType)

/-- A slot its owner has finished with: nothing was published, or everything. -/
def Settled (x : Shown) (r : Option Page) : Prop :=
  x = blank ∨ ∃ page, r = some page ∧ x = page.shown

/-- What a slot shows while its owner is at a point, `r` being what was solved. -/
def Owner.Stage (x : Shown) (r : Option Page) : Owner → Prop
  | .solving _ | .failing _ | .refusing => r = none ∧ x = blank
  | .checking page | .storing page _ | .putStatus page => r = some page ∧ x = blank
  | .putBody page => r = some page ∧ x = (some page.status, none, htmlContentType)
  | .putType page => r = some page ∧ x = (some page.status, some page.body, htmlContentType)
  | .sending page => r = some page ∧ x = page.shown
  | .unslot => Settled x r

theorem turn_stage {cfg : Config} {p p' : Owner} (h : Turn cfg p p') {x : Shown} {r : Option Page}
    (hp : p.Stage x r) : p'.Stage x r := by
  cases h with
  | failed | cacheable | uncached => exact hp
  | aborted | refused | unchecked | unstored => exact Or.inl hp.2
  | sent page => exact Or.inr ⟨page, hp⟩

/-- Every slot shows what its owner's point says, and is settled without one. -/
structure Staged (w : World) : Prop where
  sound : Flights.Sound (flights w)
  owner : ∀ t raw n o, w.pcs t = .owner raw n o → o.Stage (w.slots n).shown (w.results n)
  rest : ∀ n, (∀ t raw o, w.pcs t ≠ .owner raw n o) → Settled (w.slots n).shown (w.results n)
  waiter : ∀ t n p, w.pcs t = .waiter n p → n < w.made

namespace Staged

variable {w w' : World} {t : Tid}

/-- A step of a thread that is no owner, before or after. -/
theorem off (h : Staged w) (hsound : Flights.Sound (flights w')) {p : Pc}
    (hbefore : ∀ raw n o, w.pcs t ≠ .owner raw n o) (hafter : ∀ raw n o, p ≠ .owner raw n o)
    (hwaiter : ∀ n q, p = .waiter n q → n < w.made)
    (hpcs : w'.pcs = Function.update w.pcs t p)
    (hshown : ∀ n, (w'.slots n).shown = (w.slots n).shown) (hresults : w'.results = w.results)
    (hmade : w'.made = w.made) : Staged w' := by
  have hself : w'.pcs t = p := by rw [hpcs, Function.update_self]
  have hother : ∀ {u}, u ≠ t → w'.pcs u = w.pcs u := fun hu => by
    rw [hpcs, Function.update_of_ne hu]
  refine ⟨hsound, fun u raw n o hu => ?_, fun n hnone => ?_, fun u n q hu => ?_⟩
  · have hne : u ≠ t := fun he => hafter raw n o (hself.symm.trans (he ▸ hu))
    rw [hshown, hresults]
    exact h.owner u raw n o ((hother hne).symm.trans hu)
  · rw [hshown, hresults]
    refine h.rest n fun u raw o hu => ?_
    have hne : u ≠ t := fun he => hbefore raw n o (he ▸ hu)
    exact hnone u raw o ((hother hne).trans hu)
  · rw [hmade]
    by_cases hut : u = t
    · exact hwaiter n q (hself.symm.trans (hut ▸ hu))
    · exact h.waiter u n q ((hother hut).symm.trans hu)

/-- A step of an owner within its slot. -/
theorem own (h : Staged w) (hsound : Flights.Sound (flights w')) {raw : Text} {n : SlotId}
    {o o' : Owner} (at_ : w.pcs t = .owner raw n o)
    (hstage : o'.Stage (w'.slots n).shown (w'.results n))
    (hpcs : w'.pcs = Function.update w.pcs t (.owner raw n o'))
    (hslots : ∀ m, m ≠ n → w'.slots m = w.slots m)
    (hresults : ∀ m, m ≠ n → w'.results m = w.results m) (hmade : w'.made = w.made) :
    Staged w' := by
  have hself : w'.pcs t = .owner raw n o' := by rw [hpcs, Function.update_self]
  have hother : ∀ {u}, u ≠ t → w'.pcs u = w.pcs u := fun hu => by
    rw [hpcs, Function.update_of_ne hu]
  refine ⟨hsound, fun u raw' m q hu => ?_, fun m hnone => ?_, fun u m q hu => ?_⟩
  · by_cases hut : u = t
    · subst hut
      rw [hself] at hu
      obtain ⟨-, rfl, rfl⟩ := Pc.owner.inj hu
      exact hstage
    · -- another owner has another slot
      have hold : w.pcs u = .owner raw' m q := (hother hut).symm.trans hu
      have hmn : m ≠ n := fun he =>
        hut (h.sound.once u t _ _ (congrArg Pc.role hold) (congrArg Pc.role at_) he)
      rw [hslots m hmn, hresults m hmn]
      exact h.owner u raw' m q hold
  · have hmn : m ≠ n := fun he => hnone t raw o' (he ▸ hself)
    rw [hslots m hmn, hresults m hmn]
    refine h.rest m fun u raw' q hu => ?_
    by_cases hut : u = t
    · subst hut
      rw [at_] at hu
      exact hmn (Pc.owner.inj hu).2.1.symm
    · exact hnone u raw' q ((hother hut).trans hu)
  · rw [hmade]
    have hut : u ≠ t := fun he => by
      rw [he, hself] at hu
      cases hu
    exact h.waiter u m q ((hother hut).symm.trans hu)

/-- A write of an owner into its slot. -/
theorem write (h : Staged w) {raw : Text} {n : SlotId} {o o' : Owner} {f : Pending → Pending}
    (hsound : Flights.Sound (flights ((w.write n f).goto t (.owner raw n o'))))
    (at_ : w.pcs t = .owner raw n o)
    (hstage : o.Stage (w.slots n).shown (w.results n) →
      o'.Stage (f (w.slots n)).shown (w.results n)) :
    Staged ((w.write n f).goto t (.owner raw n o')) := by
  refine h.own hsound at_ ?_ rfl (fun m hm => Function.update_of_ne hm ..) (fun _ _ => rfl) rfl
  show o'.Stage (Function.update w.slots n (f (w.slots n)) n).shown (w.results n)
  rw [Function.update_self]
  exact hstage (h.owner t raw n o at_)

/-- A new slot. -/
theorem claim (h : Staged w) {cfg : Config} {raw target host : Text} {now : ℚ}
    (at_ : w.pcs t = .lookup raw target host now)
    (hsound : Flights.Sound (flights ((w.file raw).goto t
      (.owner raw w.made (.solving (solveRequest cfg target host)))))) :
    Staged ((w.file raw).goto t (.owner raw w.made (.solving (solveRequest cfg target host)))) := by
  have hslot : ((w.file raw).slots w.made).shown = blank := by
    show (Function.update w.slots w.made Pending.new w.made).shown = blank
    rw [Function.update_self]
    rfl
  have hresult : (w.file raw).results w.made = none := Function.update_self ..
  have hold : ∀ n, n ≠ w.made → (w.file raw).slots n = w.slots n ∧
      (w.file raw).results n = w.results n := fun n hn =>
    ⟨Function.update_of_ne hn .., Function.update_of_ne hn ..⟩
  refine ⟨hsound, fun u raw' m q hu => ?_, fun m hnone => ?_, fun u m q hu => ?_⟩
  · by_cases hut : u = t
    · subst hut
      rw [World.goto_self] at hu
      obtain ⟨-, rfl, rfl⟩ := Pc.owner.inj hu
      exact ⟨hresult, hslot⟩
    · rw [World.goto_other _ _ hut] at hu
      -- a slot that has an owner is not the new one
      have hm : m ≠ w.made := Nat.ne_of_lt (h.sound.issued u _ (congrArg Pc.role hu))
      have hstage := h.owner u raw' m q hu
      rw [← (hold m hm).1, ← (hold m hm).2] at hstage
      exact hstage
  · have hm : m ≠ w.made := fun he => hnone t raw _ (by rw [World.goto_self, he])
    have hsettled : Settled (w.slots m).shown (w.results m) := by
      refine h.rest m fun u raw' q hu => ?_
      have hut : u ≠ t := fun he => by
        rw [he, at_] at hu
        cases hu
      exact hnone u raw' q ((World.goto_other _ _ hut).trans hu)
    rw [← (hold m hm).1, ← (hold m hm).2] at hsettled
    exact hsettled
  · have hut : u ≠ t := fun he => by
      rw [he, World.goto_self] at hu
      cases hu
    rw [World.goto_other _ _ hut] at hu
    exact Nat.lt_succ_of_lt (h.waiter u m q hu)

/-- The owner takes its slot out. -/
theorem unslot (h : Staged w) {raw : Text} {n : SlotId} (at_ : w.pcs t = .owner raw n .unslot)
    (hsound : Flights.Sound
      (flights ({ w with inflight := w.inflight.erase raw }.goto t (.signal n)))) :
    Staged ({ w with inflight := w.inflight.erase raw }.goto t (.signal n)) := by
  refine ⟨hsound, fun u raw' m q hu => ?_, fun m hnone => ?_, fun u m q hu => ?_⟩
  · by_cases hut : u = t
    · rw [hut, World.goto_self] at hu
      cases hu
    · rw [World.goto_other _ _ hut] at hu
      exact h.owner u raw' m q hu
  · by_cases hm : m = n
    · subst hm
      exact h.owner t raw m .unslot at_
    · refine h.rest m fun u raw' q hu => ?_
      by_cases hut : u = t
      · rw [hut, at_] at hu
        exact hm (Pc.owner.inj hu).2.1.symm
      · exact hnone u raw' q ((World.goto_other _ _ hut).trans hu)
  · by_cases hut : u = t
    · rw [hut, World.goto_self] at hu
      cases hu
    · rw [World.goto_other _ _ hut] at hu
      exact h.waiter u m q hu

theorem step (h : Staged w) {cfg : Config} {a : Act} (hs : step cfg w a = some w') :
    Staged w' := by
  have hsound : Flights.Sound (flights w') := by
    rcases step_flights hs with hsame | hstep
    · rw [hsame]
      exact h.sound
    · exact hstep.sound h.sound
  cases step_effect hs with
  | tick => exact ⟨hsound, h.owner, h.rest, h.waiter⟩
  -- a thread that is no owner writes into no slot
  | enter t raw at_ =>
    refine h.off hsound (by simp [at_]) ?_ ?_ rfl (fun _ => rfl) rfl rfl <;> unfold enter
    · split <;> exact fun _ _ _ => Pc.noConfusion
    · split <;> exact fun _ _ => Pc.noConfusion
  | leave t at_ =>
    refine h.off (p := .idle) hsound ?_ nofun nofun rfl (fun _ => rfl) rfl rfl
    rcases at_ with hp | ⟨e, hp⟩ | ⟨n, p, hp, -⟩ <;> simp [hp]
  | hit t raw target host now e at_ =>
    exact h.off (p := .hit e) hsound (by simp [at_]) nofun nofun rfl (fun _ => rfl) rfl rfl
  | join t raw target host now n at_ missed found =>
    refine h.off (p := .waiter n .waiting) hsound (by simp [at_]) nofun ?_ rfl (fun _ => rfl) rfl
      rfl
    intro m q hq
    obtain ⟨rfl, -⟩ := Pc.waiter.inj hq
    obtain ⟨u, hu⟩ := h.sound.led raw n found
    exact h.sound.issued u _ hu
  | wake t n at_ =>
    refine h.off (p := .waiter n .readError) hsound (by simp [at_]) nofun ?_ rfl (fun _ => rfl) rfl
      rfl
    intro m q hq
    obtain ⟨rfl, -⟩ := Pc.waiter.inj hq
    exact h.waiter t n _ at_
  | read t n q q' at_ =>
    refine h.off (p := .waiter n q') hsound (by simp [at_]) nofun ?_ rfl (fun _ => rfl) rfl rfl
    intro m r hr
    obtain ⟨rfl, -⟩ := Pc.waiter.inj hr
    exact h.waiter t n q at_
  -- the owner's own slot: filed blank, then at the stage of its owner
  | claim t raw target host now at_ => exact h.claim at_ hsound
  | turn t m raw n p p' at_ turns =>
    exact h.own hsound at_ (turn_stage turns (h.owner t raw n p at_)) rfl (fun _ _ => rfl)
      (fun _ _ => rfl) rfl
  | solved t raw n req page at_ =>
    refine h.own hsound at_ ?_ rfl (fun _ _ => rfl) (fun m hm => Function.update_of_ne hm ..) rfl
    exact ⟨Function.update_self .., (h.owner t raw n _ at_).2⟩
  | store t raw n page ttl at_ =>
    refine h.own hsound at_ ?_ rfl (fun _ _ => rfl) (fun _ _ => rfl) rfl
    exact h.owner t raw n (.storing page ttl) at_
  -- what it publishes, one field after another
  | failing t raw n text at_ => exact h.write hsound at_ id
  | putStatus t raw n page at_ =>
    refine h.write hsound at_ fun hstage => ⟨hstage.1, ?_⟩
    have hblank := Prod.mk.inj hstage.2
    exact congrArg (Prod.mk (some page.status)) (Prod.ext_iff.mpr (Prod.mk.inj hblank.2))
  | putBody t raw n page at_ =>
    refine h.write hsound at_ fun hstage => ⟨hstage.1, ?_⟩
    obtain ⟨hstatus, hrest⟩ := Prod.mk.inj hstage.2
    obtain ⟨-, htype⟩ := Prod.mk.inj hrest
    show (_, _, _) = _
    rw [hstatus, htype]
  | putType t raw n page at_ =>
    refine h.write hsound at_ fun hstage => ⟨hstage.1, ?_⟩
    obtain ⟨hstatus, hrest⟩ := Prod.mk.inj hstage.2
    obtain ⟨hbody, -⟩ := Prod.mk.inj hrest
    show (_, _, _) = _
    rw [hstatus, hbody]
    rfl
  | unslot t raw n at_ => exact h.unslot at_ hsound
  -- the event is not among the fields
  | signal t n at_ =>
    refine h.off (p := .idle) hsound (by simp [at_]) nofun nofun rfl (fun m => ?_) rfl rfl
    show (Function.update w.slots n _ m).shown = _
    by_cases hm : m = n
    · subst hm
      rw [Function.update_self]
      rfl
    · rw [Function.update_of_ne hm]

end Staged

theorem staged_init : Staged .init :=
  ⟨flights_init, nofun, fun _ _ => Or.inl rfl, nofun⟩

/-! ## What is published stays -/

/-- Nothing published or solved is taken back. -/
structure Grows (slot slot' : Pending) (r r' : Option Page) : Prop where
  status : ∀ x, slot.status = some x → slot'.status = some x
  body : ∀ x, slot.body = some x → slot'.body = some x
  result : ∀ page, r = some page → r' = some page

theorem Grows.refl (slot : Pending) (r : Option Page) : Grows slot slot r r :=
  ⟨fun _ => id, fun _ => id, fun _ => id⟩

/-- A write into one slot, seen from any slot. -/
theorem grows_write {w : World} {n : SlotId} {f : Pending → Pending} {t : Tid} {p : Pc}
    (h : Grows (w.slots n) (f (w.slots n)) (w.results n) (w.results n)) (m : SlotId) :
    Grows (w.slots m) (((w.write n f).goto t p).slots m) (w.results m)
      (((w.write n f).goto t p).results m) := by
  show Grows _ (Function.update w.slots n (f (w.slots n)) m) _ _
  by_cases hm : m = n
  · subst hm
    rw [Function.update_self]
    exact h
  · rw [Function.update_of_ne hm]
    exact .refl _ _

/-- A slot that shows nothing has nothing to take back. -/
theorem grows_of_blank {slot slot' : Pending} {r : Option Page} (h : slot.shown = blank) :
    Grows slot slot' r r := by
  obtain ⟨hstatus, hrest⟩ := Prod.mk.inj h
  obtain ⟨hbody, -⟩ := Prod.mk.inj hrest
  exact ⟨fun x hx => absurd (hstatus.symm.trans hx) nofun,
    fun x hx => absurd (hbody.symm.trans hx) nofun, fun _ => id⟩

theorem Staged.grows {cfg : Config} {w w' : World} {a : Act} (h : Staged w)
    (hs : Passthrough.step cfg w a = some w') {n : SlotId} (hn : n < w.made) :
    Grows (w.slots n) (w'.slots n) (w.results n) (w'.results n) := by
  cases step_effect hs with
  | tick | enter | leave | hit | join | wake | read | turn | store | unslot => exact .refl _ _
  | claim t raw =>
    have hne : n ≠ w.made := Nat.ne_of_lt hn
    show Grows _ (Function.update w.slots w.made _ n) _ (Function.update w.results w.made _ n)
    rw [Function.update_of_ne hne, Function.update_of_ne hne]
    exact .refl _ _
  | solved t raw m req page at_ =>
    show Grows _ (w.slots n) _ (Function.update w.results m _ n)
    by_cases hnm : n = m
    · subst hnm
      -- a slot is solved for once, so there was no result to take back
      have hnone := (h.owner t raw n _ at_).1
      rw [hnone]
      exact ⟨fun _ => id, fun _ => id, nofun⟩
    · rw [Function.update_of_ne hnm]
      exact .refl _ _
  | failing | signal | putType =>
    refine grows_write ?_ n
    exact ⟨fun _ => id, fun _ => id, fun _ => id⟩
  | putStatus t raw m page at_ =>
    refine grows_write ?_ n
    -- the status is the first of the writes
    exact grows_of_blank (h.owner t raw m _ at_).2
  | putBody t raw m page at_ =>
    refine grows_write ?_ n
    refine ⟨fun _ => id, fun x hx => ?_, fun _ => id⟩
    obtain ⟨-, hrest⟩ := Prod.mk.inj (h.owner t raw m _ at_).2
    exact absurd ((Prod.mk.inj hrest).1.symm.trans hx) nofun

theorem step_made_le {cfg : Config} {w w' : World} {a : Act} (hs : step cfg w a = some w') :
    w.made ≤ w'.made := by
  cases step_effect hs <;> first
    | exact Nat.le_refl _
    | exact Nat.le_succ _

/-- What was solved for a slot is what was solved for it ever after. -/
theorem results_stay {cfg : Config} {G : World → Act → Prop} {w w' : World}
    (hrun : Run (step cfg) G w w') (h : Staged w) {n : SlotId} (hn : n < w.made) {page : Page}
    (hpage : w.results n = some page) : w'.results n = some page := by
  have hall := hrun.invariant
    (I := fun w => Staged w ∧ n < w.made ∧ w.results n = some page)
    (fun _ _ _ ⟨h, hn, hpage⟩ _ hs =>
      ⟨h.step hs, Nat.lt_of_lt_of_le hn (step_made_le hs), (h.grows hs hn).result page hpage⟩)
    ⟨h, hn, hpage⟩
  exact hall.2.2

/-! ## What a waiter has read -/

/-- What a waiter knows at each of its points, if it read in time. -/
def Waiter.Fair (slot : Pending) (r : Option Page) : Waiter → Prop
  | .readLength => ∃ status, slot.status = some status
  | .replyStatus => ∃ page, r = some page ∧ slot.body = some page.body ∧
      slot.status = some page.status
  | .replyBody status => ∃ page, r = some page ∧ slot.body = some page.body ∧
      status = some page.status
  | .replyType status body => ∃ page, r = some page ∧ slot.body = some page.body ∧
      status = some page.status ∧ body = some page.body
  | .replying status body contentType => ∃ page, r = some page ∧
      (status, body, contentType) = page.shown
  | .crashed => False
  | .waiting | .readError | .readStatus | .refusing => True

theorem Waiter.Fair.grow {slot slot' : Pending} {r r' : Option Page} {p : Waiter}
    (h : p.Fair slot r) (hg : Grows slot slot' r r') : p.Fair slot' r' := by
  cases p with
  | waiting | readError | readStatus | refusing => trivial
  | readLength =>
    obtain ⟨x, hx⟩ := h
    exact ⟨x, hg.status x hx⟩
  | replyStatus =>
    obtain ⟨page, hr, hbody, hstatus⟩ := h
    exact ⟨page, hg.result _ hr, hg.body _ hbody, hg.status _ hstatus⟩
  | replyBody status =>
    obtain ⟨page, hr, hbody, hstatus⟩ := h
    exact ⟨page, hg.result _ hr, hg.body _ hbody, hstatus⟩
  | replyType status body =>
    obtain ⟨page, hr, hbody, hread⟩ := h
    exact ⟨page, hg.result _ hr, hg.body _ hbody, hread⟩
  | replying status body contentType =>
    obtain ⟨page, hr, hread⟩ := h
    exact ⟨page, hg.result _ hr, hread⟩
  | crashed => exact h

/-- The thread has yet to publish the body of slot `n`. -/
def Pc.owesBody (n : SlotId) : Pc → Bool
  | .owner _ m (.putBody _) => m = n
  | _ => false

/-- The thread has yet to publish for slot `n` a content type that is not the one the
slot was made with. -/
def Pc.owesType (n : SlotId) : Pc → Bool
  | .owner _ m (.putType page) => m = n && page.contentType ≠ htmlContentType
  | _ => false

/-- No waiter reads what its slot's owner is in the middle of publishing. -/
structure InTime (w : World) (a : Act) : Prop where
  length : ∀ t n, a = .run t .go → w.pcs t = .waiter n .readLength →
    ∀ u, (w.pcs u).owesBody n = false
  type : ∀ t n status body, a = .run t .go → w.pcs t = .waiter n (.replyType status body) →
    ∀ u, (w.pcs u).owesType n = false

/-- Slot `n` shows `page`, or as much of it as its owner has written. -/
inductive Written (w : World) (n : SlotId) (page : Page) : Prop
  | all (shown : (w.slots n).shown = page.shown)
  | status (t : Tid) (raw : Text) (at_ : w.pcs t = .owner raw n (.putBody page))
      (shown : (w.slots n).shown = (some page.status, none, htmlContentType))
  | body (t : Tid) (raw : Text) (at_ : w.pcs t = .owner raw n (.putType page))
      (shown : (w.slots n).shown = (some page.status, some page.body, htmlContentType))

theorem Staged.shows {w : World} (h : Staged w) (n : SlotId) :
    (w.slots n).shown = blank ∨ ∃ page, w.results n = some page ∧ Written w n page := by
  have settled : Settled (w.slots n).shown (w.results n) →
      (w.slots n).shown = blank ∨ ∃ page, w.results n = some page ∧ Written w n page := by
    rintro (hblank | ⟨page, hr, hshown⟩)
    · exact Or.inl hblank
    · exact Or.inr ⟨page, hr, .all hshown⟩
  by_cases howner : ∃ t raw o, w.pcs t = .owner raw n o
  · obtain ⟨t, raw, o, at_⟩ := howner
    have hstage := h.owner t raw n o at_
    cases o with
    | solving | failing | refusing | checking | storing | putStatus => exact Or.inl hstage.2
    | putBody page => exact Or.inr ⟨page, hstage.1, .status t raw at_ hstage.2⟩
    | putType page => exact Or.inr ⟨page, hstage.1, .body t raw at_ hstage.2⟩
    | sending page => exact Or.inr ⟨page, hstage.1, .all hstage.2⟩
    | unslot => exact settled hstage
  · exact settled (h.rest n fun t raw o at_ => howner ⟨t, raw, o, at_⟩)

/-- A slot with a status has a body too, unless its owner is about to write it. -/
theorem Staged.body_of_status {w : World} (h : Staged w) {n : SlotId}
    (hstatus : ∃ x, (w.slots n).status = some x) (howes : ∀ u, (w.pcs u).owesBody n = false) :
    ∃ page, w.results n = some page ∧ (w.slots n).body = some page.body ∧
      (w.slots n).status = some page.status := by
  obtain ⟨x, hx⟩ := hstatus
  rcases h.shows n with hblank | ⟨page, hr, hpage | ⟨t, raw, at_, -⟩ | ⟨-, -, -, hpart⟩⟩
  · have hnone : (w.slots n).status = none := (Prod.mk.inj hblank).1
    rw [hx] at hnone
    cases hnone
  · obtain ⟨hs, hrest⟩ := Prod.mk.inj hpage
    exact ⟨page, hr, (Prod.mk.inj hrest).1, hs⟩
  · have hnot := howes t
    rw [at_] at hnot
    simp [Pc.owesBody] at hnot
  · obtain ⟨hs, hrest⟩ := Prod.mk.inj hpart
    exact ⟨page, hr, (Prod.mk.inj hrest).1, hs⟩

/-- A slot with a body has its content type too, unless its owner is about to write
another one. -/
theorem Staged.type_of_body {w : World} (h : Staged w) {n : SlotId} {page : Page}
    (hr : w.results n = some page) (hbody : (w.slots n).body = some page.body)
    (howes : ∀ u, (w.pcs u).owesType n = false) :
    (w.slots n).contentType = page.contentType := by
  have noBody : (w.slots n).body ≠ none := by
    rw [hbody]
    exact Option.some_ne_none _
  rcases h.shows n with hblank | ⟨page', hr', hpage | ⟨-, -, -, hpart⟩ | ⟨t, raw, at_, hpart⟩⟩
  · exact absurd (Prod.mk.inj (Prod.mk.inj hblank).2).1 noBody
  · obtain rfl := Option.some.inj (hr.symm.trans hr')
    exact (Prod.mk.inj (Prod.mk.inj hpage).2).2
  · exact absurd (Prod.mk.inj (Prod.mk.inj hpart).2).1 noBody
  · -- the type still to be written is the one the slot has
    obtain rfl := Option.some.inj (hr.symm.trans hr')
    have hnot := howes t
    rw [at_] at hnot
    have htype : page.contentType = htmlContentType := by simpa [Pc.owesType] using hnot
    rw [htype]
    exact (Prod.mk.inj (Prod.mk.inj hpart).2).2

/-- One read of a waiter that is in time. -/
theorem Staged.read {w : World} (h : Staged w) {t : Tid} {n : SlotId} {q p : Waiter}
    (hg : InTime w (.run t .go)) (at_ : w.pcs t = .waiter n q)
    (hq : q.Fair (w.slots n) (w.results n)) (hreads : goWaiter (w.slots n) q = some p) :
    p.Fair (w.slots n) (w.results n) := by
  cases q with
  | waiting =>
    simp only [goWaiter] at hreads
    split at hreads <;> cases hreads
    trivial
  | readError =>
    obtain rfl := Option.some.inj hreads
    split <;> trivial
  | readStatus =>
    obtain rfl := Option.some.inj hreads
    split
    next => trivial
    next hstatus => exact Option.ne_none_iff_exists'.mp (by simpa using hstatus)
  | readLength =>
    obtain rfl := Option.some.inj hreads
    -- `len(pending.body)`: the status it has seen comes with a body
    obtain ⟨page, hr, hbody, hstatus⟩ := h.body_of_status hq (hg.length t n rfl at_)
    rw [hbody]
    exact ⟨page, hr, hbody, hstatus⟩
  | replyStatus =>
    obtain rfl := Option.some.inj hreads
    exact hq
  | replyBody status =>
    obtain rfl := Option.some.inj hreads
    obtain ⟨page, hr, hbody, hstatus⟩ := hq
    exact ⟨page, hr, hbody, hstatus, hbody⟩
  | replyType status body =>
    obtain rfl := Option.some.inj hreads
    obtain ⟨page, hr, hbody, rfl, rfl⟩ := hq
    refine ⟨page, hr, ?_⟩
    rw [h.type_of_body hr hbody (hg.type t n _ _ rfl at_)]
    rfl
  | replying | refusing | crashed => cases hreads

/-- Every waiter has read in time. -/
def AllFair (w : World) : Prop := ∀ t n p, w.pcs t = .waiter n p → p.Fair (w.slots n) (w.results n)

theorem Staged.fair {cfg : Config} {w w' : World} {a : Act} (h : Staged w) (hf : AllFair w)
    (hg : InTime w a) (hs : Passthrough.step cfg w a = some w') : AllFair w' := by
  intro t n p ht
  rcases step_waiter hs ht with hold | ⟨rfl, -⟩ | rfl | ⟨q, rfl, at_, hreads⟩
  · exact (hf t n p hold).grow (h.grows hs (h.waiter t n p hold))
  · trivial
  · trivial
  · exact (h.read hg at_ (hf t n q at_) hreads).grow (h.grows hs (h.waiter t n q at_))

/-- **A waiter answers consistently** in every run whose waiters read in time: it never
raises, and what it sends that is not a 502 is the page its slot's owner solved. -/
theorem waiter_answers {cfg : Config} {w : World} (hrun : Run (step cfg) InTime World.init w)
    (t : Tid) (n : SlotId) (p : Waiter) (ht : w.pcs t = .waiter n p) :
    p ≠ .crashed ∧ ∀ status body contentType, p = .replying status body contentType →
      ∃ page : Page, (status, body, contentType) = page.shown ∧
        ∀ w', Run (step cfg) Any w w' → w'.results n = some page := by
  obtain ⟨hstaged, hfair⟩ := hrun.invariant (I := fun w => Staged w ∧ AllFair w)
    (fun _ _ _ ⟨h, hf⟩ hg hs => ⟨h.step hs, h.fair hf hg hs⟩) ⟨staged_init, nofun⟩
  have hp := hfair t n p ht
  refine ⟨?_, ?_⟩
  · rintro rfl
    exact hp
  · rintro status body contentType rfl
    obtain ⟨page, hr, hshown⟩ := hp
    exact ⟨page, hshown, fun w' hrun' =>
      results_stay hrun' hstaged (hstaged.waiter t n _ ht) hr⟩

/-! ## Computed runs -/

/-- `InTime`, decided for runs of threads below `n`. -/
def inTime (n : Nat) (w : World) : Act → Bool
  | .tick _ => true
  | .run t m => t < n &&
    match m, w.pcs t with
    | .go, .waiter k .readLength => (List.range n).all fun u => !(w.pcs u).owesBody k
    | .go, .waiter k (.replyType _ _) => (List.range n).all fun u => !(w.pcs u).owesType k
    | _, _ => true

/-- A thread that is idle owes nothing, so the threads below `n` decide. -/
theorem inTime_of_test {n : Nat} {w : World} {a : Act} (hidle : ∀ t, n ≤ t → w.pcs t = .idle)
    (h : inTime n w a = true) : InTime w a := by
  constructor
  · rintro t k rfl at_ u
    simp only [inTime, at_, Bool.and_eq_true, List.all_eq_true, List.mem_range] at h
    rcases Nat.lt_or_ge u n with hu | hu
    · simpa using h.2 u hu
    · rw [hidle u hu]
      rfl
  · rintro t k status body rfl at_ u
    simp only [inTime, at_, Bool.and_eq_true, List.all_eq_true, List.mem_range] at h
    rcases Nat.lt_or_ge u n with hu | hu
    · simpa using h.2 u hu
    · rw [hidle u hu]
      rfl

theorem step_idle {cfg : Config} {n : Nat} {w w' : World} {a : Act} (h : inTime n w a = true)
    (hs : step cfg w a = some w') (hidle : ∀ t, n ≤ t → w.pcs t = .idle) :
    ∀ t, n ≤ t → w'.pcs t = .idle := by
  intro u hu
  have heff := step_effect hs
  cases a with
  | tick now =>
    cases heff
    exact hidle u hu
  | run t m =>
    have ht : t < n := by simpa using (Bool.and_eq_true_iff.mp h).1
    rw [heff.pcs_other (Nat.ne_of_gt (Nat.lt_of_lt_of_le ht hu))]
    exact hidle u hu

/-- A computed run of threads below `n` whose waiters read in time. -/
theorem run_inTime {cfg : Config} (n : Nat) (as : List Act) {P : World → Prop} [DecidablePred P]
    (h : (exec (step cfg) (inTime n) World.init as).any (fun w => decide (P w)) = true) :
    ∃ w, Run (step cfg) InTime World.init w ∧ P w := by
  obtain ⟨w, hrun, hw⟩ := Run.of_exec_test (G := fun w a => inTime n w a = true)
    (fun _ _ => id) as h
  exact ⟨w, hrun.weaken (fun _ _ _ hidle hg hs => step_idle hg hs hidle)
    (fun _ _ hidle hg => inTime_of_test hidle hg) (fun _ _ => rfl), hw⟩

/-- Thread `t` goes on `k` times. -/
def goes (t : Tid) (k : Nat) : List Act := List.replicate k (.run t .go)

/-- A request, and another for the same path that waits on it. -/
def joined : List Act :=
  [.run 0 (.start "/details/1".toList), .run 0 .go, .run 1 (.start "/details/1".toList),
    .run 1 .go]

/-- A waiter times out when the body is published and the content type, which is the
usual one, is not: it answers the page. -/
theorem waiter_answers_page : ∃ w : World,
    (∃ page : Page, (w.pcs 1 = .waiter 0 (.replying (some page.status) (some page.body)
      page.contentType)) ∧ w.results 0 = some page) ∧
    w.pcs 0 = .owner "/details/1".toList 0 (.putType .details) := by
  obtain ⟨w, hrun, hreply, howner⟩ : ∃ w : World, Run (step .mirror) InTime World.init w ∧
      w.pcs 1 = .waiter 0 (.replying (some 200) (some Page.details.body) htmlContentType) ∧
      w.pcs 0 = .owner "/details/1".toList 0 (.putType .details) :=
    run_inTime 2
      (joined ++ [.run 0 (.solved .details), .run 0 (.checked true)] ++ goes 0 2 ++
        [.run 1 .timeout] ++ goes 1 6)
      (by decide)
  obtain ⟨page, hshown, hfinal⟩ := (waiter_answers hrun 1 0 _ hreply).2 _ _ _ rfl
  obtain ⟨hstatus, hrest⟩ := Prod.mk.inj hshown
  obtain ⟨hbody, htype⟩ := Prod.mk.inj hrest
  rw [hstatus, hbody, htype] at hreply
  exact ⟨w, ⟨page, hreply, hfinal w (.refl w)⟩, howner⟩

/-- A document that is not HTML. -/
def Page.document : Page := ⟨200, [37, 80, 68, 70], "application/pdf".toList⟩

/-- Two waiters time out while the owner publishes a document. The first wakes between
the status and the body, and raises; the second between the body and the content type,
and sends the document as HTML. -/
theorem waiters_read_too_early : ∃ w : World, Run (step .mirror) Any World.init w ∧
    w.pcs 1 = .waiter 0 .crashed ∧
    w.pcs 2 = .waiter 0
      (.replying (some 200) (some Page.document.body) htmlContentType) ∧
    w.results 0 = some .document ∧ Page.document.contentType ≠ htmlContentType := by
  obtain ⟨w, hrun, hw⟩ : ∃ w : World, Run (step .mirror) Any World.init w ∧
      (w.pcs 1 = .waiter 0 .crashed ∧
      w.pcs 2 = .waiter 0
        (.replying (some 200) (some Page.document.body) htmlContentType) ∧
      w.results 0 = some .document ∧ Page.document.contentType ≠ htmlContentType) :=
    Run.of_exec_any
      (joined ++ [.run 2 (.start "/details/1".toList), .run 2 .go, .run 0 (.solved .document),
          .run 0 (.checked true)] ++ goes 0 1 ++
        [.run 1 .timeout] ++ goes 1 3 ++ goes 0 1 ++ [.run 2 .timeout] ++ goes 2 6)
      (by decide)
  exact ⟨w, hrun, hw⟩

end Solverr.Passthrough
