import Solverr.Lib.Execution
import Solverr.Passthrough.Publish

/-!
# Every request comes to its end

What the owner of a path fails to do it fails to do for everybody: a slot that is not taken
out strands every later request for the path, and an event that is not set leaves its
waiters waiting. `requests_end` is that neither happens, in every execution that goes on for
ever and is fair.

Fair is meant weakly: a thread that can move, and goes on being able to, moves. That a wait
runs out is no such move, so no waiter owes its end to the clock; only what a thread does
outside the handler (the solve, the challenge check, the write to its client) has to come
back, with whatever result.

Every move lowers `Pc.left`, the number of moves a request may still make.
-/

namespace Solverr.Passthrough

open Solverr.Lib (Run Any Execution Flights exec)

/-! ## What is left of a request -/

def Owner.left : Owner → ℕ
  | .solving _ => 11
  | .checking _ => 10
  | .storing _ _ => 9
  | .putStatus _ => 8
  | .putBody _ => 7
  | .putType _ => 6
  | .sending _ | .failing _ => 5
  | .refusing => 4
  | .unslot => 3

def Waiter.left : Waiter → ℕ
  | .waiting => 8
  | .readError => 7
  | .readStatus => 6
  | .readLength => 5
  | .replyStatus => 4
  | .replyBody _ => 3
  | .replyType _ _ => 2
  | .replying _ _ _ | .refusing | .crashed => 1

/-- The moves a request may still make. -/
def Pc.left : Pc → ℕ
  | .idle => 0
  | .missing | .hit _ | .signal _ => 1
  | .lookup _ _ _ _ => 12
  | .waiter _ p => p.left
  | .owner _ _ p => p.left

theorem turn_left {cfg : Config} {p p' : Owner} (h : Turn cfg p p') : p'.left < p.left := by
  cases h with
  | failed => show 5 < 11; omega
  | aborted => show 3 < 11; omega
  | refused => show 3 < 4; omega
  | cacheable => show 9 < 10; omega
  | uncached => show 8 < 10; omega
  | unchecked => show 3 < 10; omega
  | unstored => show 3 < 9; omega
  | sent => show 3 < 5; omega

theorem goWaiter_left {slot : Pending} {p p' : Waiter} (h : goWaiter slot p = some p') :
    p'.left < p.left := by
  cases p with
  | waiting =>
    simp only [goWaiter] at h
    split at h
    next =>
      obtain rfl := Option.some.inj h
      show 7 < 8
      omega
    next => cases h
  | readError =>
    obtain rfl := Option.some.inj h
    split
    · show 1 < 7
      omega
    · show 6 < 7
      omega
  | readStatus =>
    obtain rfl := Option.some.inj h
    split
    · show 1 < 6
      omega
    · show 5 < 6
      omega
  | readLength =>
    obtain rfl := Option.some.inj h
    split
    · show 1 < 5
      omega
    · show 4 < 5
      omega
  | replyStatus =>
    obtain rfl := Option.some.inj h
    show 3 < 4
    omega
  | replyBody =>
    obtain rfl := Option.some.inj h
    show 2 < 3
    omega
  | replyType =>
    obtain rfl := Option.some.inj h
    show 1 < 2
    omega
  | replying | refusing | crashed => cases h

/-- **Every move of a request but its first leaves less to do.** -/
theorem step_left {cfg : Config} {w w' : World} {t : Tid} {m : Move}
    (h : step cfg w (.run t m) = some w') (hbusy : w.pcs t ≠ .idle) :
    (w'.pcs t).left < (w.pcs t).left := by
  cases step_effect h with
  | enter _ _ at_ => exact absurd at_ hbusy
  | leave _ at_ =>
    rw [World.goto_self]
    rcases at_ with hp | ⟨e, hp⟩ | ⟨n, p, hp, -⟩
    · rw [hp]
      show 0 < 1
      omega
    · rw [hp]
      show 0 < 1
      omega
    · rw [hp]
      cases p <;> exact Nat.succ_pos _
  -- a lookup: twelve moves are left, and each way on has fewer
  | hit _ _ _ _ _ _ at_ =>
    rw [World.goto_self, at_]
    show 1 < 12
    omega
  | join _ _ _ _ _ _ at_ =>
    rw [World.goto_self, at_]
    show 8 < 12
    omega
  | claim _ _ _ _ _ at_ =>
    rw [World.goto_self, at_]
    show 11 < 12
    omega
  -- a waiter
  | wake _ _ at_ =>
    rw [World.goto_self, at_]
    show 7 < 8
    omega
  | read _ _ _ _ at_ reads =>
    rw [World.goto_self, at_]
    exact goWaiter_left reads
  -- an owner, from its solve to its `finally`
  | turn _ _ _ _ _ _ at_ turns =>
    rw [World.goto_self, at_]
    exact turn_left turns
  | solved _ _ _ _ _ at_ =>
    rw [World.goto_self, at_]
    show 10 < 11
    omega
  | failing _ _ _ _ at_ =>
    rw [World.goto_self, at_]
    show 4 < 5
    omega
  | store _ _ _ _ _ at_ =>
    rw [World.goto_self, at_]
    show 8 < 9
    omega
  | putStatus _ _ _ _ at_ =>
    rw [World.goto_self, at_]
    show 7 < 8
    omega
  | putBody _ _ _ _ at_ =>
    rw [World.goto_self, at_]
    show 6 < 7
    omega
  | putType _ _ _ _ at_ =>
    rw [World.goto_self, at_]
    show 5 < 6
    omega
  | unslot _ _ _ at_ =>
    rw [World.goto_self, at_]
    show 1 < 3
    omega
  | signal _ _ at_ =>
    rw [World.goto_self, at_]
    show 0 < 1
    omega

/-! ## Who can move -/

/-- A thread with a request under way can move, and not only because its wait runs out. -/
def Able (cfg : Config) (w : World) (t : Tid) : Prop :=
  w.pcs t ≠ .idle ∧ ∃ m w', m ≠ .timeout ∧ step cfg w (.run t m) = some w'

/-- What a thread waits for: nothing, or the event of its slot. -/
theorem able_of_busy {cfg : Config} {w : World} {t : Tid} (hbusy : w.pcs t ≠ .idle)
    (hevent : ∀ n, w.pcs t = .waiter n .waiting → (w.slots n).event = true) : Able cfg w t := by
  have goes : (∃ w', step cfg w (.run t .go) = some w') → Able cfg w t := by
    intro hgo
    obtain ⟨w', hgo⟩ := hgo
    exact ⟨hbusy, .go, w', fun h => (by cases h), hgo⟩
  cases hp : w.pcs t with
  | idle => exact absurd hp hbusy
  | missing | lookup | hit | signal =>
    refine goes ?_
    simp only [step, move, hp]
    exact ⟨_, rfl⟩
  | waiter n p =>
    refine goes ?_
    cases p with
    | waiting =>
      simp only [step, move, hp, goWaiter, hevent n hp, if_true]
      exact ⟨_, rfl⟩
    | readError | readStatus | readLength | replyStatus | replyBody | replyType | replying
    | refusing | crashed =>
      simp only [step, move, hp]
      exact ⟨_, rfl⟩
  | owner raw n p =>
    have moves : (∃ m w', m ≠ .timeout ∧ goOwner cfg w t raw n p m = some w') →
        Able cfg w t := by
      intro hgo
      obtain ⟨m, w', hm, hgo⟩ := hgo
      refine ⟨hbusy, m, w', hm, ?_⟩
      simp only [step, move, hp]
      exact hgo
    cases p with
    | solving req => exact moves ⟨.abort, _, fun h => (by cases h), rfl⟩
    | checking page => exact moves ⟨.checked true, _, fun h => (by cases h), rfl⟩
    | failing | refusing | storing | putStatus | putBody | putType | sending | unslot =>
      exact moves ⟨.go, _, fun h => (by cases h), rfl⟩

/-! ## Fair executions -/

/-- The thread that moves. -/
def Act.by (t : Tid) : Act → Prop
  | .tick _ => False
  | .run u _ => u = t

instance (t : Tid) : DecidablePred (Act.by t)
  | .tick _ => inferInstanceAs (Decidable False)
  | .run u _ => inferInstanceAs (Decidable (u = t))

theorem step_other {cfg : Config} {w w' : World} {a : Act} (h : step cfg w a = some w') {t : Tid}
    (ht : ¬ a.by t) : w'.pcs t = w.pcs t := by
  cases a with
  | tick now =>
    cases step_effect h with
    | tick => rfl
  | run u m => exact (step_effect h).pcs_other fun htu => ht htu.symm

theorem step_own {cfg : Config} {w w' : World} {a : Act} (h : step cfg w a = some w') {t : Tid}
    (ht : a.by t) (hbusy : w.pcs t ≠ .idle) : (w'.pcs t).left < (w.pcs t).left := by
  cases a with
  | tick now => cases ht
  | run u m =>
    obtain rfl := ht
    exact step_left h hbusy

theorem left_le (p : Pc) : p.left ≤ 12 := by
  cases p with
  | idle => show 0 ≤ 12; omega
  | missing | hit | signal => show 1 ≤ 12; omega
  | lookup => exact Nat.le_refl 12
  | waiter n p =>
    show p.left ≤ 12
    cases p <;> simp only [Waiter.left] <;> omega
  | owner raw n p =>
    show p.left ≤ 12
    cases p <;> simp only [Owner.left] <;> omega

/-- A thread that can move, and goes on being able to, moves. -/
def Fair {cfg : Config} (x : Execution (step cfg)) : Prop :=
  ∀ t n, (∀ k, n ≤ k → Able cfg (x.state k) t) → ∃ k, n ≤ k ∧ (x.act k).by t

section Fair

variable {cfg : Config} (x : Execution (step cfg)) (hinit : x.state 0 = World.init)
  (hfair : Fair x)

include hinit in
theorem staged_execution (n : ℕ) : Staged (x.state n) := by
  have hrun := x.run (Nat.zero_le n)
  rw [hinit] at hrun
  exact hrun.invariant (fun _ _ _ h _ hs => h.step hs) staged_init

/-- Where a thread is as long as it does not move. -/
theorem stays {t : Tid} {m n : ℕ} (hmn : m ≤ n) (hstill : ∀ k, m ≤ k → ¬ (x.act k).by t) :
    (x.state n).pcs t = (x.state m).pcs t := by
  induction n, hmn using Nat.le_induction with
  | base => rfl
  | succ n hmn ih =>
    rw [step_other (x.next n) (hstill n hmn)]
    exact ih

include hfair in
/-- A thread whose slot, if it waits on one, has its event set for good moves on. -/
theorem moves_on {t : Tid} {m : ℕ} (hbusy : (x.state m).pcs t ≠ .idle)
    (hevent : ∀ n, (x.state m).pcs t = .waiter n .waiting →
      ∀ k, m ≤ k → ((x.state k).slots n).event = true) : ∃ k, m ≤ k ∧ (x.act k).by t := by
  by_contra hnever
  have hstill : ∀ k, m ≤ k → ¬ (x.act k).by t := fun k hk hby => hnever ⟨k, hk, hby⟩
  refine hnever (hfair t m fun k hk => ?_)
  have hstay := stays x hk hstill
  refine able_of_busy (by rw [hstay]; exact hbusy) fun n hn => ?_
  exact hevent n (hstay ▸ hn) k hk

/-- What is left of a request only gets less. -/
theorem moves_left (t : Tid) (n : ℕ) (hbusy : (x.state n).pcs t ≠ .idle) :
    ((x.state (n + 1)).pcs t).left ≤ ((x.state n).pcs t).left := by
  by_cases hby : (x.act n).by t
  · exact (step_own (x.next n) hby hbusy).le
  · rw [step_other (x.next n) hby]

include hfair in
/-- Who has a part in a slot comes to the end of it: it never waits. -/
theorem role_ends (t : Tid) (m : ℕ) : ∃ n, m ≤ n ∧ ((x.state n).pcs t).role = none := by
  have busy : ∀ {p : Pc}, p.role ≠ none → p ≠ .idle ∧ ∀ n, p ≠ .waiter n .waiting := by
    intro p hp
    exact ⟨fun h => hp (h ▸ rfl), fun n h => hp (h ▸ rfl)⟩
  refine x.comes_to_rest (fun w => (w.pcs t).left) (fun w => (w.pcs t).role = none)
    (fun n => (x.act n).by t) (fun n hrole => moves_left x t n (busy hrole).1)
    (fun n hrole hby => step_own (x.next n) hby (busy hrole).1) (fun n hrole => ?_) m
  exact moves_on x hfair (busy hrole).1 fun k hk => absurd hk ((busy hrole).2 k)

include hinit hfair in
/-- **No slot is left behind**: sooner or later its event is set and it is filed nowhere, and
so it stays. -/
theorem slot_ends {m : ℕ} {s : SlotId} (hs : s < (x.state m).made) :
    ∃ n, m ≤ n ∧ ∀ k, n ≤ k → Flights.Over s (flights (x.state k)) := by
  have stays_over : ∀ {n}, m ≤ n → Flights.Over s (flights (x.state n)) →
      ∃ n, m ≤ n ∧ ∀ k, n ≤ k → Flights.Over s (flights (x.state k)) := by
    intro n hn hover
    exact ⟨n, hn, fun k hk => hover.steps (run_flights (x.run hk))⟩
  have hsound := (staged_execution x hinit m).sound
  by_cases hnobody : ∀ t r, (flights (x.state m)).role t = some r → r.ticket ≠ s
  · exact stays_over (Nat.le_refl m) (hsound.over_of_nobody hs hnobody)
  · have hholder : ∃ t r, (flights (x.state m)).role t = some r ∧ r.ticket = s := by
      by_contra hno
      exact hnobody fun t r hr hrs => hno ⟨t, r, hr, hrs⟩
    obtain ⟨t, r, hrole, rfl⟩ := hholder
    obtain ⟨n, hmn, hnone⟩ := role_ends x hfair t m
    -- the step with which it gives the ticket up
    let holds : World → Prop := fun w => ∃ r', (w.pcs t).role = some r' ∧ r'.ticket = r.ticket
    obtain ⟨k, hk, ⟨r', hr', hticket⟩, hleft⟩ := x.turns (P := holds) hmn ⟨r, hrole, rfl⟩
      fun ⟨r', hr', _⟩ => by rw [hnone] at hr'; cases hr'
    refine stays_over (Nat.le_succ_of_le hk) ?_
    rw [← hticket]
    rcases step_flights (x.next k) with hsame | hstep
    · refine absurd ⟨r', ?_, hticket⟩ hleft
      exact (congrFun (congrArg Flights.role hsame) t).trans hr'
    · rcases hstep.holds_or_over (staged_execution x hinit k).sound hr' with hheld | hover
      · obtain ⟨r'', hr'', hsame⟩ := hheld
        exact absurd ⟨r'', hr'', hsame.trans hticket⟩ hleft
      · exact hover

include hinit hfair in
/-- A waiter never waits for ever: its slot is left behind by nobody. -/
theorem rests (t : Tid) (m : ℕ) : ∃ n, m ≤ n ∧ (x.state n).pcs t = .idle := by
  refine x.comes_to_rest (fun w => (w.pcs t).left) (fun w => w.pcs t = .idle)
    (fun n => (x.act n).by t) (moves_left x t) (fun n hbusy hby => step_own (x.next n) hby hbusy)
    (fun n hbusy => ?_) m
  by_contra hnever
  have hstill : ∀ k, n ≤ k → ¬ (x.act k).by t := fun k hk hby => hnever ⟨k, hk, hby⟩
  by_cases hwaits : ∃ s, (x.state n).pcs t = .waiter s .waiting
  · obtain ⟨s, hs⟩ := hwaits
    obtain ⟨n', hn', hover⟩ :=
      slot_ends x hinit hfair ((staged_execution x hinit n).waiter t s _ hs)
    have hstay := stays x hn' hstill
    have hevent : ∀ s', (x.state n').pcs t = .waiter s' .waiting →
        ∀ k, n' ≤ k → ((x.state k).slots s').event = true := by
      intro s' hs' k hk
      rw [hstay, hs] at hs'
      obtain ⟨rfl, -⟩ := Pc.waiter.inj hs'
      exact (hover k hk).rung
    obtain ⟨k, hk, hby⟩ := moves_on x hfair (by rw [hstay]; exact hbusy) hevent
    exact hstill k (Nat.le_trans hn' hk) hby
  · obtain ⟨k, hk, hby⟩ := moves_on x hfair hbusy fun s hs => absurd ⟨s, hs⟩ hwaits
    exact hstill k hk hby

include hinit hfair in
/-- **Every request comes to its end, and leaves no slot behind**: in a fair execution every
thread is done with its request sooner or later, and it has not made more than twelve moves;
and every slot is filed nowhere and has its event set, sooner or later and from then on. -/
theorem requests_end (m : ℕ) :
    (∀ t, ∃ n, m ≤ n ∧ (x.state n).pcs t = .idle) ∧
    (∀ t n, m ≤ n → (∀ k, m ≤ k → k < n → (x.state k).pcs t ≠ .idle) →
      ((Finset.Ico m n).filter fun k => (x.act k).by t).card ≤ 12) ∧
    ∀ s, s < (x.state m).made → ∃ n, m ≤ n ∧ ∀ k, n ≤ k →
      ((x.state k).slots s).event = true ∧ ∀ raw, (x.state k).inflight.find? raw ≠ some s := by
  refine ⟨fun t => rests x hinit hfair t m, fun t n hmn hbusy => ?_, fun s hs => ?_⟩
  · have hspent := x.spent (fun w => (w.pcs t).left) (fun w => w.pcs t = .idle)
      (fun k => (x.act k).by t) (moves_left x t) (fun n hn hby => step_own (x.next n) hby hn) hmn
      hbusy
    have hmost := left_le ((x.state m).pcs t)
    omega
  · obtain ⟨n, hmn, hover⟩ := slot_ends x hinit hfair hs
    exact ⟨n, hmn, fun k hk => ⟨(hover k hk).rung, (hover k hk).gone⟩⟩

end Fair

/-- The owner raises past its `except`, and its waiter answers that. -/
def aborted : List Act := joined ++ [.run 0 .abort] ++ goes 0 2 ++ goes 1 4

theorem aborted_ends : ∃ x : Execution (step .mirror),
    (x.state 4).pcs 1 = .waiter 0 .waiting ∧
    (∀ t, ∃ n, 4 ≤ n ∧ (x.state n).pcs t = .idle) ∧
    ∀ s, s < (x.state 4).made → ∃ n, 4 ≤ n ∧ ∀ k, n ≤ k →
      ((x.state k).slots s).event = true ∧ ∀ raw, (x.state k).inflight.find? raw ≠ some s := by
  have hany : (exec (step .mirror) (fun _ _ => true) World.init aborted).any
      (fun w => decide (w.pcs 0 = .idle ∧ w.pcs 1 = .idle)) = true := by decide
  have hpart : (exec (step .mirror) (fun _ _ => true) World.init (aborted.take 4)).any
      (fun w => decide (w.pcs 1 = .waiter 0 .waiting)) = true := by decide
  obtain ⟨w, hrun, hw⟩ := (Option.any_eq_true _ _).mp hany
  obtain ⟨w', hrun', hw'⟩ := (Option.any_eq_true _ _).mp hpart
  obtain ⟨h₀, h₁⟩ := of_decide_eq_true hw
  have hlast : step .mirror w (.tick w.clock) = some w := if_neg (lt_irrefl w.clock)
  let x := Execution.listed hrun hlast
  have hinit : x.state 0 = World.init := Execution.listed_zero hrun hlast
  have hend : ∀ n, aborted.length ≤ n → x.state n = w := fun n =>
    Execution.listed_last hrun hlast
  have hacts : ∀ a ∈ aborted, a.by 0 ∨ a.by 1 := by decide
  have hidle : ∀ t, w.pcs t = .idle := by
    intro t
    by_cases ht₀ : t = 0
    · exact ht₀ ▸ h₀
    by_cases ht₁ : t = 1
    · exact ht₁ ▸ h₁
    -- nobody else ever moves
    have hstill : ∀ k, 0 ≤ k → ¬ (x.act k).by t := by
      intro k _
      refine Execution.listed_act hrun hlast (P := fun a => ¬ a.by t) (fun a ha hby => ?_) id k
      cases a with
      | tick => cases hby
      | run u m =>
        obtain rfl := hby
        rcases hacts _ ha with hu | hu
        · exact ht₀ hu
        · exact ht₁ hu
    rw [← hend _ (Nat.le_refl _), stays x (Nat.zero_le _) hstill, hinit]
    rfl
  have hfair : Fair x := by
    intro t n hable
    have hbusy := (hable (n + aborted.length) (Nat.le_add_right _ _)).1
    rw [hend _ (Nat.le_add_left _ _)] at hbusy
    exact absurd (hidle t) hbusy
  obtain ⟨hrests, -, hslots⟩ := requests_end x hinit hfair 4
  have hwaits : (x.state 4).pcs 1 = .waiter 0 .waiting := by
    show ((exec (step .mirror) (fun _ _ => true) World.init (aborted.take 4)).getD w).pcs 1 = _
    rw [hrun']
    exact of_decide_eq_true hw'
  exact ⟨x, hwaits, hrests, hslots⟩

end Solverr.Passthrough
