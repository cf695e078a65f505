import Solverr.Passthrough.Handler

/-!
# What the passthrough solves

A request reaches the solver only as the owner of its path, with the target and
the host that `route` made of the path when the request came in (`Pc.Routed`). So
whatever paths the clients send, and however their requests interleave, every URL
solved is on an allowed host, and is solved on that host's session.
-/

namespace Solverr.Passthrough

open Solverr.Lib (Run Any CaseMap Text)

/-- A thread looks up, or solves, what its path was routed to. -/
def Pc.Routed (cfg : Config) : Pc → Prop
  | .lookup raw target host _ => route cfg raw = some (target, host)
  | .owner raw _ (.solving req) =>
    ∃ target host, route cfg raw = some (target, host) ∧ req = solveRequest cfg target host
  | _ => True

theorem enter_routed (cfg : Config) (raw : Text) (now : ℚ) : (enter cfg raw now).Routed cfg := by
  unfold enter
  split
  next => trivial
  next target host h => exact h

theorem plain_routed (cfg : Config) {p : Pc} (h : p.plain = true) : p.Routed cfg := by
  unfold Pc.plain at h
  split at h
  next => cases h
  next => cases h
  next => cases h
  next hlookup hsolving _ =>
    unfold Pc.Routed
    split
    next => exact absurd rfl (hlookup _ _ _ _)
    next => exact absurd rfl (hsolving _ _ _)
    next => trivial

/-- One step keeps every thread routed. -/
theorem step_routed {cfg : Config} {w w' : World} {a : Act} (hs : step cfg w a = some w')
    (h : ∀ t, (w.pcs t).Routed cfg) : ∀ t, (w'.pcs t).Routed cfg := by
  refine step_points hs (fun _ => plain_routed cfg) (enter_routed cfg · w.clock) ?_
    (fun _ _ _ _ _ => trivial) h
  intro t raw target host now at_
  have hroute : (w.pcs t).Routed cfg := h t
  rw [at_] at hroute
  exact ⟨target, host, hroute, rfl⟩

/-- What is solved is what its path was routed to, in every reachable state. -/
theorem solving_routed {cfg : Config} {w : World} (hrun : Run (step cfg) Any World.init w)
    {t : Tid} {raw : Text} {n : SlotId} {req : SolveRequest}
    (ht : w.pcs t = .owner raw n (.solving req)) :
    ∃ target host, route cfg raw = some (target, host) ∧ req = solveRequest cfg target host := by
  have h := hrun.invariant (I := fun w => ∀ t, (w.pcs t).Routed cfg)
    (fun _ _ _ h _ hs => step_routed hs h) (fun _ => trivial)
  have ht' : (w.pcs t).Routed cfg := h t
  rwa [ht] at ht'

/-- **Never an open proxy.** Whatever the solver is asked for is a path on an allowed
host, which is the URL's whole authority, on the session of that host; and with no
host allowed it is asked for nothing. -/
theorem never_open_proxy {cfg : Config} (hbare : ∀ host ∈ cfg.allowedHosts, Bare cfg.caseMap host)
    {w : World} (hrun : Run (step cfg) Any World.init w) (t : Tid) (raw : Text) (n : SlotId)
    (req : SolveRequest) (ht : w.pcs t = .owner raw n (.solving req)) :
    cfg.allowedHosts ≠ [] ∧ ∃ host ∈ cfg.allowedHosts, ∃ r,
      req.url = https ++ host ++ '/' :: r ∧ authority req.url = host ∧
        req.session = sessionPrefix ++ host := by
  obtain ⟨target, host, hroute, rfl⟩ := solving_routed hrun ht
  obtain ⟨hhost, r, rfl⟩ := route_target hroute
  exact ⟨List.ne_nil_of_mem hhost, host, hhost, r, rfl, authority_bare (hbare host hhost) r, rfl⟩

/-- A link that lost its mirror is solved on the default one, and the host it names
stays in the path. -/
theorem never_open_proxy_stray : ∃ (w : World) (req : SolveRequest),
    w.pcs 0 = .owner "/b.example/d?q=@".toList 0 (.solving req) ∧
    req.url = "https://a.example/b.example/d?q=@".toList ∧
    ∃ host ∈ Config.mirror.allowedHosts, authority req.url = host ∧
      req.session = sessionPrefix ++ host := by
  let req := solveRequest .mirror "https://a.example/b.example/d?q=@".toList "a.example".toList
  obtain ⟨w, hrun, hw⟩ : ∃ w : World, Run (step .mirror) Any World.init w ∧
      w.pcs 0 = .owner "/b.example/d?q=@".toList 0 (.solving req) :=
    Run.of_exec_any [.run 0 (.start "/b.example/d?q=@".toList), .run 0 .go] (by decide)
  have hbare : ∀ host ∈ Config.mirror.allowedHosts, Bare Config.mirror.caseMap host := by
    intro host hhost
    obtain rfl := List.mem_singleton.mp hhost
    exact bare_of_test (by decide)
  obtain ⟨-, host, hhost, r, -, hauth, hsession⟩ := never_open_proxy hbare hrun 0 _ 0 req hw
  exact ⟨w, req, hw, rfl, host, hhost, hauth, hsession⟩

end Solverr.Passthrough
