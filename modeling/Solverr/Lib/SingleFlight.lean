import Mathlib.Logic.Function.Basic
import Mathlib.Logic.Relation
import Solverr.Lib.Dict

/-!
# Single flight

Workers that want the result of a key share one flight of it. The first worker to
find no flight under the key files one under a new ticket and leads it; it closes
the flight by taking the key out, and then rings, which is what the others wait
for. `Flights` is that protocol and nothing else: what a flight does is its
leader's business.

`Sound` ties the three parts together: the filed flights are exactly the led ones,
and a ticket nobody holds has been rung. From it: a key has at most one leader,
and once a leader is done its ticket is rung and filed nowhere, and stays so.
-/

namespace Solverr.Lib

/-- What a worker still owes a flight: to close it, or only to ring. -/
inductive Role (κ : Type)
  | leading (k : κ) (n : Nat)
  | closing (n : Nat)

variable {κ : Type}

def Role.ticket : Role κ → Nat
  | .leading _ n => n
  | .closing n => n

/-- The flights under way, the tickets rung and issued, and every worker's role. -/
structure Flights (κ : Type) where
  current : Dict κ Nat
  rung : Nat → Bool
  issued : Nat
  role : Nat → Option (Role κ)

namespace Flights

variable [DecidableEq κ]

/-- What workers do to the flights. -/
inductive Step : Flights κ → Flights κ → Prop
  | claim {f : Flights κ} (t : Nat) (k : κ) (free : f.role t = none)
      (absent : f.current.find? k = none) :
      Step f ⟨f.current.set k f.issued, Function.update f.rung f.issued false, f.issued + 1,
        Function.update f.role t (some (.leading k f.issued))⟩
  | close {f : Flights κ} (t : Nat) (k : κ) (n : Nat) (leads : f.role t = some (.leading k n)) :
      Step f { f with
        current := f.current.erase k, role := Function.update f.role t (some (.closing n)) }
  | ring {f : Flights κ} (t n : Nat) (closed : f.role t = some (.closing n)) :
      Step f { f with
        rung := Function.update f.rung n true, role := Function.update f.role t none }

/-- The filed flights are the led ones, and whoever holds a ticket is alone with it. -/
structure Sound (f : Flights κ) : Prop where
  issued : ∀ t r, f.role t = some r → r.ticket < f.issued
  once : ∀ t t' r r', f.role t = some r → f.role t' = some r' → r.ticket = r'.ticket → t = t'
  filed : ∀ t k n, f.role t = some (.leading k n) → f.current.find? k = some n
  led : ∀ k n, f.current.find? k = some n → ∃ t, f.role t = some (.leading k n)
  ended : ∀ n, n < f.issued → (∀ t r, f.role t = some r → r.ticket ≠ n) → f.rung n = true

omit [DecidableEq κ] in
/-- A role after one worker's was set is that one, or an old one of another worker. -/
theorem role_update {role : Nat → Option (Role κ)} {t u : Nat} {x : Option (Role κ)}
    {r : Role κ} (h : Function.update role t x u = some r) :
    u = t ∧ x = some r ∨ u ≠ t ∧ role u = some r := by
  by_cases hu : u = t
  · subst hu
    exact Or.inl ⟨rfl, by rwa [Function.update_self] at h⟩
  · exact Or.inr ⟨hu, by rwa [Function.update_of_ne hu] at h⟩

namespace Sound

variable {f : Flights κ}

/-- Filing under a key nobody leads. -/
theorem claim (h : Sound f) {t : Nat} {k : κ} (free : f.role t = none)
    (absent : f.current.find? k = none) :
    Sound ⟨f.current.set k f.issued, Function.update f.rung f.issued false, f.issued + 1,
      Function.update f.role t (some (.leading k f.issued))⟩ := by
  constructor
  · intro u r hr
    rcases role_update hr with ⟨-, hx⟩ | ⟨-, hold⟩
    · obtain rfl := Option.some.inj hx
      exact Nat.lt_succ_self _
    · exact Nat.lt_succ_of_lt (h.issued u r hold)
  · intro u u' r r' hr hr' heq
    rcases role_update hr with ⟨rfl, hx⟩ | ⟨-, hold⟩ <;>
      rcases role_update hr' with ⟨rfl, hx'⟩ | ⟨-, hold'⟩
    · rfl
    · obtain rfl := Option.some.inj hx
      exact absurd heq (Nat.ne_of_gt (h.issued u' r' hold'))
    · obtain rfl := Option.some.inj hx'
      exact absurd heq (Nat.ne_of_lt (h.issued u r hold))
    · exact h.once u u' r r' hold hold' heq
  · intro u j n hr
    show (f.current.set k f.issued).find? j = some n
    rw [Dict.find?_set]
    rcases role_update hr with ⟨-, hx⟩ | ⟨-, hold⟩
    · obtain ⟨rfl, rfl⟩ := Role.leading.inj (Option.some.inj hx)
      exact if_pos rfl
    · have hfind := h.filed u j n hold
      rw [if_neg fun hj => by rw [hj, absent] at hfind; cases hfind]
      exact hfind
  · intro j n hfind
    have hfind : (f.current.set k f.issued).find? j = some n := hfind
    rw [Dict.find?_set] at hfind
    split at hfind
    next hj =>
      obtain rfl := Option.some.inj hfind
      exact ⟨t, by rw [hj]; exact Function.update_self ..⟩
    next =>
      obtain ⟨u, hu⟩ := h.led j n hfind
      refine ⟨u, ?_⟩
      show Function.update f.role t _ u = _
      rw [Function.update_of_ne fun he => by rw [he, free] at hu; cases hu]
      exact hu
  · intro n hn hnobody
    have hne : n ≠ f.issued := fun he =>
      hnobody t (.leading k f.issued) (Function.update_self ..) he.symm
    show Function.update f.rung f.issued false n = true
    rw [Function.update_of_ne hne]
    refine h.ended n (by have : n < f.issued + 1 := hn; omega) fun u r hr => ?_
    refine hnobody u r ?_
    show Function.update f.role t _ u = _
    rw [Function.update_of_ne fun he => by rw [he, free] at hr; cases hr]
    exact hr

/-- The leader of a key takes it out. -/
theorem close (h : Sound f) {t : Nat} {k : κ} {n : Nat} (leads : f.role t = some (.leading k n)) :
    Sound { f with
      current := f.current.erase k, role := Function.update f.role t (some (.closing n)) } := by
  -- nobody's ticket changes
  have tickets : ∀ u r, Function.update f.role t (some (.closing n)) u = some r →
      ∃ r', f.role u = some r' ∧ r'.ticket = r.ticket := by
    intro u r hr
    rcases role_update hr with ⟨rfl, hx⟩ | ⟨-, hold⟩
    · obtain rfl := Option.some.inj hx
      exact ⟨_, leads, rfl⟩
    · exact ⟨r, hold, rfl⟩
  constructor
  · intro u r hr
    obtain ⟨r', hold, heq⟩ := tickets u r hr
    rw [← heq]
    exact h.issued u r' hold
  · intro u u' r r' hr hr' heq
    obtain ⟨q, hold, hq⟩ := tickets u r hr
    obtain ⟨q', hold', hq'⟩ := tickets u' r' hr'
    exact h.once u u' q q' hold hold' (by rw [hq, hq', heq])
  · intro u j m hr
    rcases role_update hr with ⟨-, hx⟩ | ⟨hu, hold⟩
    · cases Option.some.inj hx
    · have hfind := h.filed u j m hold
      show (f.current.erase k).find? j = some m
      rw [Dict.find?_erase, if_neg fun hj => ?_]
      · exact hfind
      · rw [hj, h.filed t k n leads] at hfind
        exact hu (h.once u t _ _ hold leads (Option.some.inj hfind).symm)
  · intro j m hfind
    obtain ⟨hj, hfind⟩ := Dict.find?_of_erase hfind
    obtain ⟨u, hu⟩ := h.led j m hfind
    refine ⟨u, ?_⟩
    show Function.update f.role t _ u = _
    rw [Function.update_of_ne fun he => ?_]
    · exact hu
    · rw [he, leads] at hu
      exact hj (Role.leading.inj (Option.some.inj hu)).1.symm
  · intro m hm hnobody
    refine h.ended m hm fun u r hr => ?_
    by_cases hu : u = t
    · subst hu
      rw [leads] at hr
      obtain rfl := Option.some.inj hr
      exact hnobody u (.closing n) (Function.update_self ..)
    · refine hnobody u r ?_
      show Function.update f.role t _ u = _
      rw [Function.update_of_ne hu]
      exact hr

/-- The last thing a leader does. -/
theorem ring (h : Sound f) {t n : Nat} (closed : f.role t = some (.closing n)) :
    Sound { f with
      rung := Function.update f.rung n true, role := Function.update f.role t none } := by
  have old : ∀ u r, Function.update f.role t none u = some r → f.role u = some r := by
    intro u r hr
    rcases role_update hr with ⟨-, hx⟩ | ⟨-, hold⟩
    · cases hx
    · exact hold
  constructor
  · exact fun u r hr => h.issued u r (old u r hr)
  · exact fun u u' r r' hr hr' heq => h.once u u' r r' (old u r hr) (old u' r' hr') heq
  · exact fun u j m hr => h.filed u j m (old u _ hr)
  · intro j m hfind
    obtain ⟨u, hu⟩ := h.led j m hfind
    refine ⟨u, ?_⟩
    show Function.update f.role t none u = _
    rw [Function.update_of_ne fun he => by rw [he, closed] at hu; cases hu]
    exact hu
  · intro m hm hnobody
    show Function.update f.rung n true m = true
    by_cases hmn : m = n
    · rw [hmn, Function.update_self]
    · rw [Function.update_of_ne hmn]
      refine h.ended m hm fun u r hr => ?_
      by_cases hu : u = t
      · rw [hu, closed] at hr
        obtain rfl := Option.some.inj hr
        exact fun he => hmn he.symm
      · refine hnobody u r ?_
        show Function.update f.role t none u = _
        rw [Function.update_of_ne hu]
        exact hr

end Sound

theorem Step.sound {f f' : Flights κ} (hs : Step f f') (h : Sound f) : Sound f' := by
  cases hs with
  | claim t k free absent => exact h.claim free absent
  | close t k n leads => exact h.close leads
  | ring t n closed => exact h.ring closed

/-- **One leader a key.** -/
theorem Sound.one_leader {f : Flights κ} (h : Sound f) {t t' : Nat} {k : κ} {n n' : Nat}
    (ht : f.role t = some (.leading k n)) (ht' : f.role t' = some (.leading k n')) : t = t' := by
  refine h.once t t' _ _ ht ht' ?_
  have hn := h.filed t k n ht
  rw [h.filed t' k n' ht'] at hn
  exact (Option.some.inj hn).symm

/-! ## Flights that are over -/

/-- The flight of a ticket is over: rung, and under no key. -/
structure Over (n : Nat) (f : Flights κ) : Prop where
  issued : n < f.issued
  rung : f.rung n = true
  gone : ∀ k, f.current.find? k ≠ some n

/-- **A worker that has nothing left to do has ended its flight.** -/
theorem Step.over {f f' : Flights κ} (hs : Step f f') (h : Sound f) {t : Nat} {r : Role κ}
    (ht : f.role t = some r) (ht' : f'.role t = none) : Over r.ticket f' := by
  have h' := hs.sound h
  have kept : ∀ {u : Nat} {x : Role κ}, Function.update f.role u (some x) t ≠ none := by
    intro u x
    by_cases hu : t = u
    · rw [hu, Function.update_self]
      exact Option.some_ne_none x
    · rw [Function.update_of_ne hu, ht]
      exact Option.some_ne_none r
  cases hs with
  | claim => exact absurd ht' kept
  | close => exact absurd ht' kept
  | ring u n closed =>
    have hu : t = u := by
      by_contra hu
      have ht' : Function.update f.role u none t = none := ht'
      rw [Function.update_of_ne hu, ht] at ht'
      cases ht'
    subst hu
    rw [closed] at ht
    obtain rfl := Option.some.inj ht
    refine ⟨h.issued t _ closed, Function.update_self .., fun k hk => ?_⟩
    obtain ⟨u, hlead⟩ := h.led k n hk
    -- whoever leads the key would have the ticket of the one that closed
    have hut := h.once u t _ _ hlead closed rfl
    rw [hut, closed] at hlead
    cases hlead

/-- A worker keeps its ticket until it has ended its flight. -/
theorem Step.holds_or_over {f f' : Flights κ} (hs : Step f f') (h : Sound f) {t : Nat}
    {r : Role κ} (ht : f.role t = some r) :
    (∃ r', f'.role t = some r' ∧ r'.ticket = r.ticket) ∨ Over r.ticket f' := by
  cases hrole : f'.role t with
  | none => exact Or.inr (hs.over h ht hrole)
  | some r' =>
    refine Or.inl ⟨r', rfl, ?_⟩
    cases hs with
    | claim u k free =>
      rcases role_update hrole with ⟨rfl, -⟩ | ⟨-, hold⟩
      · rw [ht] at free
        cases free
      · exact congrArg Role.ticket (Option.some.inj (hold.symm.trans ht))
    | close u k n leads =>
      rcases role_update hrole with ⟨rfl, hx⟩ | ⟨-, hold⟩
      · obtain rfl := Option.some.inj hx
        rw [leads] at ht
        obtain rfl := Option.some.inj ht
        rfl
      · exact congrArg Role.ticket (Option.some.inj (hold.symm.trans ht))
    | ring u n closed =>
      rcases role_update hrole with ⟨-, hx⟩ | ⟨-, hold⟩
      · cases hx
      · exact congrArg Role.ticket (Option.some.inj (hold.symm.trans ht))

/-- A flight that nobody has anything left to do for is over. -/
theorem Sound.over_of_nobody {f : Flights κ} (h : Sound f) {n : Nat} (hn : n < f.issued)
    (hnobody : ∀ t r, f.role t = some r → r.ticket ≠ n) : Over n f := by
  refine ⟨hn, h.ended n hn hnobody, fun k hk => ?_⟩
  obtain ⟨t, ht⟩ := h.led k n hk
  exact hnobody t _ ht rfl

/-- It stays over. -/
theorem Step.over_stays {f f' : Flights κ} (hs : Step f f') {n : Nat} (h : Over n f) :
    Over n f' := by
  cases hs with
  | claim t k free absent =>
    have hne : n ≠ f.issued := Nat.ne_of_lt h.issued
    refine ⟨Nat.lt_succ_of_lt h.issued, ?_, fun j hj => ?_⟩
    · show Function.update f.rung f.issued false n = true
      rw [Function.update_of_ne hne]
      exact h.rung
    · have hj : (f.current.set k f.issued).find? j = some n := hj
      rw [Dict.find?_set] at hj
      split at hj
      next => exact hne (Option.some.inj hj).symm
      next => exact h.gone j hj
  | close t k m leads =>
    exact ⟨h.issued, h.rung, fun j hj => h.gone j (Dict.find?_of_erase hj).2⟩
  | ring t m closed =>
    refine ⟨h.issued, ?_, h.gone⟩
    show Function.update f.rung m true n = true
    by_cases hnm : n = m
    · rw [hnm, Function.update_self]
    · rw [Function.update_of_ne hnm]
      exact h.rung

/-! ## Any steps -/

theorem Sound.steps {f f' : Flights κ} (h : Sound f)
    (hs : Relation.ReflTransGen Step f f') : Sound f' := by
  induction hs with
  | refl => exact h
  | tail _ hstep ih => exact hstep.sound ih

theorem Over.steps {f f' : Flights κ} {n : Nat} (h : Over n f)
    (hs : Relation.ReflTransGen Step f f') : Over n f' := by
  induction hs with
  | refl => exact h
  | tail _ hstep ih => exact hstep.over_stays ih

end Flights

end Solverr.Lib
