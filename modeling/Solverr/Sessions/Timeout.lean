import Solverr.Sessions.Claims

/-!
# A timed-out solve and its browser

A solve that `func_timeout` stops discards its session by id, and releases the
lock and its claim afterwards. While it is the session's only holder, the id
still means its own session and nobody else can be driving the browser:
`driven_browser_open` is the guarantee for runs in which every such discard is
made by the only holder (`soleTimeout`).

A request that is queued on the lock is a second holder. It gets the lock after
the discard and drives the browser that was closed; should it time out too, it
discards by an id that by then belongs to another request's new browser
(`queued_request_drives_closed_browser`).
-/

namespace Solverr.Sessions

open Solverr.Lib (Run)

variable {Proxy : Type}

/-- Only solves are called. -/
def solving : List CallKind := [.solve]

/-- A solve that discards its session after a timeout is its only holder. -/
def soleTimeout (w : World Proxy) (a : Tid × Act Proxy) : Bool :=
  match w.pcs a.1 with
  | .timedOut _ _ s => (w.st.heap s).inUse == 1
  | _ => true

/-- Where nothing else is called, that is the only removal by id. -/
theorem sole_of_solving {w : World Proxy} {a : Tid × Act Proxy} (h : Within solving w)
    (hg : soleTimeout w a = true) : sole w a = true := by
  have hp := h.points a.1
  unfold sole
  split
  next e sid op hpc =>
    rw [hpc] at hp
    simp [Pc.within, solving] at hp
  next e sid s hpc => simpa [soleTimeout, hpc] using hg
  next => rfl

/-- A section leads to closing a discarded browser only by taking it out of the pool. -/
theorem go_closing {cfg : Config} {w w' : World Proxy} {t : Tid} {now : Int} {p : Pc Proxy}
    {e : Engine} {sid : String} {s v : Ref} (h : go cfg w t now p = some w')
    (hc : w'.pcs t = .closing e sid s v) :
    p = .timedOut e sid s ∧ (w.st.pools e).find? sid = some v := by
  have hown : (w'.pcs t).own = [v] := by rw [hc]; rfl
  cases p with
  | idle | solved | answered => cases h
  | lookup a k =>
    simp only [go] at h
    split at h <;> obtain rfl := Option.some.inj h <;> rw [World.goto_self] at hc hown
    · rw [resume_own] at hown
      cases hown
    · cases hc
  | insert a k s | remove | acquire =>
    simp only [go] at h
    split at h <;> cases h <;> rw [World.goto_self] at hc <;> cases hc
  | build | recallProxy | expired | forget | drain | release | holding | endUse | reap | cap =>
    obtain rfl := Option.some.inj h
    rw [World.goto_self] at hc
    cases hc
  | extra | remember =>
    obtain rfl := Option.some.inj h
    rw [World.goto_self, resume_own] at hown
    cases hown
  | check =>
    simp only [go] at h
    split at h <;> obtain rfl := Option.some.inj h <;> rw [World.goto_self] at hc hown
    · cases hc
    · rw [returned_own] at hown
      cases hown
  | teardown todo =>
    cases todo <;> obtain rfl := Option.some.inj h <;> rw [World.goto_self] at hc <;> cases hc
  | driving | closing =>
    obtain rfl := Option.some.inj h
    rw [World.goto_self, (afterSolve_marked ..).2.1] at hown
    cases hown
  | timedOut e' sid' s' =>
    simp only [go] at h
    split at h
    next =>
      obtain rfl := Option.some.inj h
      rw [World.goto_self, (afterSolve_marked ..).2.1] at hown
      cases hown
    next v' hv =>
      obtain rfl := Option.some.inj h
      rw [World.goto_self] at hc
      cases hc
      exact ⟨rfl, hv⟩
  | checkPools a todo =>
    cases todo <;> simp only [go] at h <;> split at h <;> obtain rfl := Option.some.inj h <;>
      rw [World.goto_self] at hc <;> cases hc

/-- The same of a step. -/
theorem step_closing {cfg : Config} {w w' : World Proxy} {t : Tid} {act : Act Proxy}
    {e : Engine} {sid : String} {s v : Ref} (h : step cfg w (t, act) = some w')
    (hc : w'.pcs t = .closing e sid s v) :
    w.pcs t = .timedOut e sid s ∧ (w.st.pools e).find? sid = some v := by
  have hown : (w'.pcs t).own = [v] := by rw [hc]; rfl
  cases act with
  | go now => exact go_closing h hc
  | start c =>
    simp only [step] at h
    split at h
    next =>
      obtain ⟨p, hp, rfl⟩ := Option.map_eq_some_iff.mp h
      rw [World.goto_self, (enter_empty hp).1] at hown
      cases hown
    next => cases h
  | fail text =>
    simp only [step] at h
    split at h
    next =>
      obtain rfl := Option.some.inj h
      rw [World.goto_self, (raised_empty ..).1] at hown
      cases hown
    next =>
      obtain rfl := Option.some.inj h
      rw [World.goto_self] at hc
      cases hc
    next =>
      obtain rfl := Option.some.inj h
      rw [World.goto_self, (afterSolve_marked ..).2.1] at hown
      cases hown
    next => cases h
  | timeout =>
    simp only [step] at h
    split at h
    next =>
      obtain rfl := Option.some.inj h
      rw [World.goto_self] at hc
      cases hc
    next => cases h
  | drive =>
    simp only [step] at h
    split at h
    next hp =>
      obtain rfl := Option.some.inj h
      rw [World.goto_self, hp] at hc
      cases hc
    next => cases h

/-- Under the guard, what a timed-out solve closes is its own session's browser. -/
theorem run_closes_own {cfg : Config} {w : World Proxy}
    (h : Run (step cfg) (fun w a => sole w a = true) World.init w) :
    ∀ t e sid s v, w.pcs t = .closing e sid s v → v = s := by
  have hrun : (WF w ∧ Claimed w) ∧ ∀ t e sid s v, w.pcs t = .closing e sid s v → v = s := by
    refine h.invariant (I := fun w => (WF w ∧ Claimed w) ∧
      ∀ t e sid s v, w.pcs t = .closing e sid s v → v = s) ?_ ⟨⟨wf_init, claimed_init⟩, nofun⟩
    rintro w₁ ⟨t, act⟩ w₂ ⟨⟨hw, hcl⟩, hI⟩ hg hs
    have he := step_effect hw hs
    refine ⟨⟨he.wf hw, hcl.step hw hg he⟩, fun t' e sid s v hc => ?_⟩
    by_cases ht : t' = t
    · subst ht
      -- it is the only holder until now, so the id is its own session's
      obtain ⟨hp, hv⟩ := step_closing hs hc
      have hlive := hcl.live t' s e sid (by rw [hp]; rfl)
      exact Option.some.inj (hv.symm.trans hlive)
    · rw [he.pcs_other ht] at hc
      exact hI t' e sid s v hc
  exact hrun.2

/-- **No solve drives, or waits to drive, a closed browser, and a timed-out solve
closes its own**, in every run of solves in which each discard after a timeout is
made by the session's only holder. -/
theorem driven_browser_open {cfg : Config} {w : World Proxy}
    (h : Run (step cfg) (fun w a => startsOnly solving w a = true ∧ soleTimeout w a = true)
      World.init w) :
    (∀ t e sid s, w.pcs t = .driving e sid s ∨ w.pcs t = .acquire e sid s ∨
      w.pcs t = .drain e sid s false → s ∉ w.st.torn) ∧
    (∀ t e sid s v, w.pcs t = .closing e sid s v → v = s) := by
  have hsole := Run.of_within (fun _ _ hg => hg.1) (fun _ _ hw hg => sole_of_solving hw hg.2) h
  obtain ⟨hclaimed, c, hc⟩ := run_claimed hsole
  refine ⟨?_, run_closes_own hsole⟩
  intro t e sid s hp
  refine hc.not_torn (hclaimed.live t s e sid ?_)
  rcases hp with hp | hp | hp <;> rw [hp] <;> rfl

/-- A solve times out alone on its session; the next one drives the new browser. -/
theorem driven_browser_open_rebuilt : ∃ w : World String,
    (w.pcs 2 = .driving .chrome "s" 1 ∧ w.st.torn = [0]) ∧ 1 ∉ w.st.torn := by
  have htest : ∀ (w : World String) a, (startsOnly solving w a && soleTimeout w a) = true →
      startsOnly solving w a = true ∧ soleTimeout w a = true := by simp
  obtain ⟨w, hrun, hw⟩ : ∃ w : World String,
      Run (step .unset) (fun w a => startsOnly solving w a = true ∧ soleTimeout w a = true)
        World.init w ∧ (w.pcs 2 = .driving .chrome "s" 1 ∧ w.st.torn = [0]) :=
    Run.of_exec_test htest
      ([(1, .start (.solve "s" none none))] ++ goes 1 7 ++ [(1, .timeout)] ++ goes 1 4 ++
        [(2, .start (.solve "s" none none))] ++ goes 2 7)
      (by decide)
  exact ⟨w, hw, (driven_browser_open hrun).1 2 _ _ _ (Or.inl hw.1)⟩

/-- A request queued on the session's lock when its holder timed out drives the
closed browser; timing out itself, it takes a third request's browser out of the
pool to close it. -/
theorem queued_request_drives_closed_browser :
    (∃ w : World String,
      Run (step .unset) (fun w a => startsOnly solving w a = true) World.init w ∧
      w.pcs 2 = .driving .chrome "s" 0 ∧ 0 ∈ w.st.torn) ∧
    (∃ w : World String,
      Run (step .unset) (fun w a => startsOnly solving w a = true) World.init w ∧
      w.pcs 2 = .closing .chrome "s" 0 1 ∧ w.pcs 3 = .driving .chrome "s" 1) := by
  let queued : List (Tid × Act String) :=
    [(1, .start (.solve "s" none none))] ++ goes 1 7 ++
      [(2, .start (.solve "s" none none))] ++ goes 2 3 ++ [(1, .timeout)] ++ goes 1 2 ++
      [(3, .start (.solve "s" none none))] ++ goes 3 7 ++ goes 1 2 ++ goes 2 1
  exact ⟨Run.of_exec_test (fun _ _ => id) queued (by decide),
    Run.of_exec_test (fun _ _ => id) (queued ++ [(2, .timeout)] ++ goes 2 1) (by decide)⟩

end Solverr.Sessions
