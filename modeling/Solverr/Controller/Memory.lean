import Solverr.Controller.Outcome
import Solverr.Lib.Lru

/-!
# Which engine cleared a host

`_DOMAIN_ENGINE`, request after request. A request's plan and its engines are
arbitrary, so a list of requests covers every use the planner makes of what is
remembered. Only a clean answer for a host is learned (`resolveChallenge_memory`),
and what is learned is put into a bounded recency memory: the rest is that
library's `find?_uses`.
-/

namespace Solverr.Controller

open Solverr.Lib (Text CaseMap Dict)
open Solverr.Engines (SolveResult looksLikeChallengeHtml)

/-- `_MAX_REMEMBERED_HOSTS` -/
def maxRememberedHosts : ℕ := 500

/-- `_DOMAIN_ENGINE` -/
abbrev Memory := Dict Text Text

/-- `_remember_engine(host, name)` -/
def rememberEngine (host : Option Text) (name : Text) (memory : Memory) : Memory :=
  match host with
  | none | some [] => memory
  | some (c :: s) => (memory.push (c :: s) name).trim maxRememberedHosts

/-- `_recalled_engine(host)` -/
def recalledEngine (host : Option Text) (memory : Memory) : Option Text :=
  match host with
  | none | some [] => none
  | some (c :: s) => memory.find? (c :: s)

/-- A request: its URL and budget in milliseconds, what `_engine_plan` plans for
it, and the time at which the loop is entered. -/
structure Request where
  url : Text
  maxTimeout : Int
  plan : Except Text (List Engine)
  start : ℚ

/-- The loop over the request's plan. -/
def Request.run (u : CaseMap) (req : Request) : Ended × List Trial :=
  match req.plan with
  | .error e => (.raised e, [])
  | .ok order => resolve u (req.maxTimeout / 1000) req.start order

section Runs

variable (u : CaseMap) (hostOf : Text → Option Text)

/-- `_resolve_challenge(req, method)`: the answer, and what is remembered after it.
`hostOf` is `_host_of`. -/
def resolveChallenge (memory : Memory) (req : Request) :
    Except Text ChallengeResolution × Memory :=
  let ended := (req.run u).1
  (ended.response,
    match ended with
    | .solved name _ => rememberEngine (hostOf req.url) name memory
    | .unsolved _ | .raised _ => memory)

/-- The memory after the requests, in order. -/
def remembered (memory : Memory) (requests : List Request) : Memory :=
  requests.foldl (fun memory req => (resolveChallenge u hostOf memory req).2) memory

/-- The host and the engine of a request's clean answer. -/
def cleanAnswer (req : Request) : Option (Text × Text) :=
  match hostOf req.url with
  | none | some [] => none
  | some (c :: s) => ((req.run u).2.find? (Trial.clean u)).map fun t => (c :: s, t.engine)

end Runs

variable {u : CaseMap} {hostOf : Text → Option Text} {req : Request}

/-- The engine that the loop names is that of the clean trial. -/
theorem Tries.engine_eq {deadline : ℚ} {i : ℕ} {order : List Engine} {now : ℚ} {c : Carried}
    {ended : Ended} {trials : List Trial} (h : Tries u deadline i order now c ended trials) :
    ended.engine = (trials.find? (Trial.clean u)).map Trial.engine := by
  cases hfind : trials.find? (Trial.clean u) with
  | some t =>
    obtain ⟨-, result, -, rfl⟩ :=
      h.answer_of_clean (List.mem_of_find?_eq_some hfind) (List.find?_some hfind)
    rfl
  | none =>
    have hall : ∀ t ∈ trials, t.clean u = false := by
      simpa using List.find?_eq_none.mp hfind
    rw [h.ended_of_unclean hall, afterLoop]
    split <;> rfl

theorem Request.engine_eq (u : CaseMap) (req : Request) :
    (req.run u).1.engine = ((req.run u).2.find? (Trial.clean u)).map Trial.engine := by
  unfold Request.run
  cases req.plan with
  | error e => rfl
  | ok order => exact (resolve_tries u _ _ order).engine_eq

/-- What one request does to the memory: it uses the host of a clean answer. -/
theorem resolveChallenge_memory (memory : Memory) (req : Request) :
    (resolveChallenge u hostOf memory req).2 =
      ((cleanAnswer u hostOf req).map (memory.use maxRememberedHosts)).getD memory := by
  have hengine := req.engine_eq u
  unfold resolveChallenge cleanAnswer rememberEngine
  cases hended : (req.run u).1 with
  | solved name result =>
    rw [hended] at hengine
    obtain ⟨t, ht, hname⟩ := Option.map_eq_some_iff.mp hengine.symm
    rcases hostOf req.url with - | - | ⟨c, s⟩
    · rfl
    · rfl
    · simp [ht, hname, Dict.use]
  | unsolved | raised =>
    rw [hended] at hengine
    have hnone := Option.map_eq_none_iff.mp hengine.symm
    rcases hostOf req.url with - | - | ⟨c, s⟩
    · rfl
    · rfl
    · simp [hnone]

/-- What a list of requests does: it uses the hosts of the clean answers in order. -/
theorem remembered_eq (requests : List Request) : ∀ memory : Memory,
    remembered u hostOf memory requests =
      (requests.filterMap (cleanAnswer u hostOf)).foldl (Dict.use maxRememberedHosts) memory := by
  induction requests with
  | nil => exact fun _ => rfl
  | cons req requests ih =>
    intro memory
    have hstep := ih (resolveChallenge u hostOf memory req).2
    rw [resolveChallenge_memory] at hstep
    rw [remembered, List.foldl_cons, ← remembered, resolveChallenge_memory, hstep]
    cases hclean : cleanAnswer u hostOf req with
    | none => rw [List.filterMap_cons_none hclean]; rfl
    | some p => rw [List.filterMap_cons_some hclean]; rfl

/-- A page that the loop counts as solved does not look challenged. -/
theorem Tries.solved_clean {deadline : ℚ} {i : ℕ} {order : List Engine} {now : ℚ} {c : Carried}
    {name : Text} {result : SolveResult} {trials : List Trial}
    (h : Tries u deadline i order now c (.solved name result) trials) :
    looksChallenged u result = false := by
  rcases h.ends with ⟨_, t, result', _, _, hclean, hpage, hended⟩ | ⟨_, hended⟩
  · obtain ⟨-, rfl⟩ := Ended.solved.inj hended
    simpa only [Trial.clean, hpage, Bool.not_eq_true'] using hclean
  · unfold afterLoop at hended
    split at hended <;> cases hended

theorem Request.solved_clean {name : Text} {result : SolveResult}
    (h : (req.run u).1 = .solved name result) : looksChallenged u result = false := by
  unfold Request.run at h
  cases hplan : req.plan with
  | error e => simp [hplan] at h
  | ok order =>
    have htries := resolve_tries u (req.maxTimeout / 1000) req.start order
    rw [hplan] at h
    rw [h] at htries
    exact htries.solved_clean

/-- A request without a clean answer for a host leaves the memory as it was. -/
theorem memory_kept {memory : Memory}
    (h : (∃ e, (resolveChallenge u hostOf memory req).1 = .error e) ∨
      (∃ page, (resolveChallenge u hostOf memory req).1 = .ok page ∧
        looksLikeChallengeHtml u page.result.response = true) ∨
      hostOf req.url = none ∨ hostOf req.url = some []) :
    (resolveChallenge u hostOf memory req).2 = memory := by
  unfold resolveChallenge at h ⊢
  cases hended : (req.run u).1 with
  | unsolved | raised => rfl
  | solved name result =>
    rw [hended] at h
    rcases h with ⟨e, he⟩ | ⟨page, hpage, hlooks⟩ | hhost | hhost
    · cases he
    · obtain rfl := Except.ok.inj hpage
      exact absurd hlooks (Bool.eq_false_iff.mp (Request.solved_clean hended))
    · simp [hhost, rememberEngine]
    · simp [hhost, rememberEngine]

/-- A host with a clean answer is one. -/
theorem recalledEngine_of_clean {host name : Text} (memory : Memory)
    (h : cleanAnswer u hostOf req = some (host, name)) :
    recalledEngine (some host) memory = memory.find? host := by
  unfold cleanAnswer at h
  split at h
  next => cases h
  next => cases h
  next =>
    obtain ⟨t, -, ht⟩ := Option.map_eq_some_iff.mp h
    rw [← (Prod.mk.inj ht).1]
    rfl

/-- **The memory over whole runs.** A host is recalled by the engine of its most
recent clean answer, until 500 other hosts have had one since; what was never
answered cleanly is not recalled. An error, a challenged page and a URL without a
host leave the memory as it was, and it never has more than 500 hosts. -/
theorem engine_memory (u : CaseMap) (hostOf : Text → Option Text) (requests : List Request) :
    let memory := remembered u hostOf .empty requests
    let clears := requests.filterMap (cleanAnswer u hostOf)
    (∀ host name pre post, clears = pre ++ (host, name) :: post → host ∉ post.map Prod.fst →
      recalledEngine (some host) memory =
        if 500 ≤ (post.map Prod.fst).toFinset.card then none else some name) ∧
    (∀ host, host ∉ clears.map Prod.fst → recalledEngine (some host) memory = none) ∧
    (∀ req, (∃ e, (resolveChallenge u hostOf memory req).1 = .error e) ∨
        (∃ page, (resolveChallenge u hostOf memory req).1 = .ok page ∧
          looksLikeChallengeHtml u page.result.response = true) ∨
        hostOf req.url = none ∨ hostOf req.url = some [] →
      (resolveChallenge u hostOf memory req).2 = memory) ∧
    memory.size ≤ 500 := by
  intro memory clears
  have hmemory : memory = clears.foldl (Dict.use maxRememberedHosts) .empty := remembered_eq _ _
  refine ⟨?_, ?_, fun req h => memory_kept h, hmemory ▸ Dict.size_uses_le clears (Nat.zero_le _)⟩
  · intro host name pre post hclears hpost
    have hmem : (host, name) ∈ clears := hclears ▸ List.mem_append_right _ (List.mem_cons_self ..)
    obtain ⟨req, -, hreq⟩ := List.mem_filterMap.mp hmem
    rw [recalledEngine_of_clean memory hreq, hmemory, hclears]
    exact Dict.find?_uses (by decide) .empty pre hpost
  · intro host hhost
    cases host with
    | nil => rfl
    | cons c s => exact hmemory ▸ Dict.find?_uses_of_unused clears rfl hhost

end Solverr.Controller
