import Solverr.Controller.Admission

/-!
# What the client gets

The route around the endpoint. On the way in it puts the environment's proxy on a request
that names none, and everything asked for on behalf of the request carries it
(`asked_through_proxy`). On the way out `object_to_dict` writes the answer as JSON, reads it
again and drops the hidden attributes: the client gets the attributes that were set, with
HTTP 500 for an exception and nothing else (`client_reads_answer`).
-/

namespace Solverr.Controller

open Solverr.Lib (Text Json Str)
open Solverr.Lib.Procedure (answer raise change Meets)
open Solverr.Lib.JsonText (Floats dumps loads Plain)

/-! ## The proxy -/

/-- The proxy that something is asked for with. -/
def Action.proxy : Action → Option Json
  | .solve _ req _ _ => some (getattr req (lit "proxy"))
  | .create _ _ proxy => some proxy
  | .destroy _ _ => none

theorem getattr_setattr_self (req : Fields) (name : Str) (value : Json) :
    getattr (setattr req name value) name = value := by
  have hmap : ∀ fields : Fields, fields.any (fun f => f.1 = name) = true →
      Json.get? (fields.map fun f => if f.1 = name then (name, value) else f) name =
        some value := by
    intro fields hany
    induction fields with
    | nil => cases hany
    | cons f fields ih =>
      rw [List.map_cons, get?_cons]
      by_cases hf : f.1 = name
      · rw [if_pos hf, if_pos rfl]
      · rw [if_neg hf, if_neg hf]
        rw [List.any_cons, decide_eq_false hf, Bool.false_or] at hany
        exact ih hany
  have happend : ∀ fields : Fields, fields.any (fun f => f.1 = name) = false →
      Json.get? (fields ++ [(name, value)]) name = some value := by
    intro fields hany
    induction fields with
    | nil => exact (get?_cons _ _ _).trans (if_pos rfl)
    | cons f fields ih =>
      rw [List.any_cons, Bool.or_eq_false_iff] at hany
      rw [List.cons_append, get?_cons, if_neg (of_decide_eq_false hany.1)]
      exact ih hany.2
  unfold getattr setattr
  split
  next hany => rw [hmap req hany, Option.getD_some]
  next hany => rw [happend req (Bool.eq_false_iff.mpr hany), Option.getD_some]

/-- Both engines are loaded and idle, and nothing is set in the environment. -/
def calm : Surroundings where
  unicode := .ascii
  caseMap := .ascii
  ceiling := 180000
  stealthLoaded := true
  defaultEngine := some .chrome
  fallback := true
  envProxy := none
  holds _ _ := false
  recalled _ := none
  createSession _ _ _ := .ok (lit "1", true)
  sessionIds _ := []
  destroySession _ _ := false
  solve _ _ _ _ := ⟨.ok .blank, 1⟩
  now := 0
  startTimestamp := 0
  endTimestamp := 0
  version := lit "1"

/-- `{"cmd": "sessions.create"}` -/
def creating : Fields := [(lit "cmd", .str (lit "sessions.create"))]

/-- The attributes of an answer that is no exception's. -/
def Answered (res : Fields) : Prop :=
  ∃ rest, res = (lit "status", .str (lit "ok")) :: rest ∧
    ∀ f ∈ rest, f.1 ∈ [lit "message", lit "session", lit "sessions", lit "solution"]

/-- The command raises, or returns an answer. -/
def Returns (m : Command Fields) : Prop :=
  Meets (fun _ => True) m (fun res _ => Answered res) fun _ _ => True

theorem answered_fields {rest : Fields} (h : ∀ f ∈ rest,
    f.1 ∈ [lit "message", lit "session", lit "sessions", lit "solution"]) :
    Answered ((lit "status", .str (lit "ok")) :: rest) :=
  ⟨rest, rfl, h⟩

theorem returns_raise (e : Str) : Returns (raise e) := fun _ _ => trivial

theorem returns_raise_bind (e : Str) (f : Unit → Command Fields) : Returns (raise e >>= f) :=
  fun _ _ => trivial

theorem returns_pure {res : Fields} (h : Answered res) : Returns (pure res) := fun _ _ => h

theorem returns_answer_bind {α : Type} {x : Except Str α} {f : α → Command Fields}
    (h : ∀ a, x = .ok a → Returns (f a)) : Returns (answer x >>= f) :=
  Lib.Procedure.meets_answer_bind h fun _ _ _ _ => trivial

theorem returns_change_bind {more : List Action} {f : Unit → Command Fields}
    (h : Returns (f ())) : Returns (change (· ++ more) >>= f) :=
  Lib.Procedure.meets_change_bind (fun _ => True) (fun _ _ => trivial) h

theorem resolveRequest_returns (w : Surroundings) (req : Fields) (method : Method) (n : ℤ) :
    Returns (resolveRequest w req method n) := by
  unfold resolveRequest
  refine returns_answer_bind fun order _ => returns_change_bind ?_
  intro log _
  unfold answer
  cases (resolve w.caseMap (n / 1000) w.now (order.map (engineOn w req method))).1 with
  | raised e => trivial
  | solved name result | unsolved result =>
    refine answered_fields ?_
    simp

theorem Returns.ite {c : Prop} [Decidable c] {m m' : Command Fields} (h : c → Returns m)
    (h' : ¬ c → Returns m') : Returns (if c then m else m') :=
  Lib.Procedure.Meets.ite h h'

theorem cmdRequestGet_returns (w : Surroundings) (req : Fields) (n : ℤ) :
    Returns (cmdRequestGet w req n) := by
  unfold cmdRequestGet
  refine .ite (fun _ => returns_raise_bind _ _) fun _ => ?_
  refine returns_answer_bind fun _ _ => returns_answer_bind fun _ _ => ?_
  exact .ite (fun _ => resolveRequest_returns w req .get n) fun _ => returns_raise _

theorem cmdRequestPost_returns (w : Surroundings) (req : Fields) (n : ℤ) :
    Returns (cmdRequestPost w req n) := by
  unfold cmdRequestPost
  refine .ite (fun _ => returns_raise_bind _ _) fun _ => ?_
  refine returns_answer_bind fun _ _ => returns_answer_bind fun _ _ => ?_
  exact resolveRequest_returns w req .post n

theorem dispatch_returns (w : Surroundings) (req : Fields) (n : ℤ) (cmd : Str) :
    Returns (dispatch w req n cmd) := by
  have hsession : ∀ message session, Answered (sessionAnswer message session) := by
    intro message session
    refine answered_fields ?_
    simp
  unfold dispatch
  refine .ite (fun _ => ?_) fun _ => .ite (fun _ => ?_) fun _ => .ite (fun _ => ?_) fun _ =>
    .ite (fun _ => cmdRequestGet_returns w req n) fun _ =>
    .ite (fun _ => cmdRequestPost_returns w req n) fun _ => returns_raise _
  · unfold cmdSessionsCreate
    refine returns_answer_bind fun forced _ => ?_
    refine .ite (fun _ => returns_pure (hsession _ _)) fun _ => ?_
    refine .ite (fun _ => returns_raise _) fun _ => ?_
    refine returns_change_bind (returns_answer_bind fun created _ => ?_)
    exact returns_pure (hsession _ _)
  · refine returns_pure (answered_fields ?_)
    simp
  · unfold cmdSessionsDestroy
    refine returns_change_bind (.ite (fun _ => ?_) fun _ => returns_raise _)
    refine returns_pure (answered_fields ?_)
    simp

theorem handler_answered {w : Surroundings} {req res : Fields} {log : List Action}
    (h : controllerV1Handler w req [] = (.ok res, log)) : Answered res := by
  have hreturns : Returns (controllerV1Handler w req) := by
    rcases controllerV1Handler_spec w req with ⟨cmd, b, -, hrun⟩ | ⟨-, e, hrun⟩
    · rw [hrun]
      exact dispatch_returns w _ _ cmd
    · rw [hrun]
      exact returns_raise e
  have hends := hreturns [] trivial
  rw [h] at hends
  exact hends

/-- An attribute whose name starts with two underscores is hidden. -/
def hidden (name : Str) : Bool := lit "__" <+: name

theorem visible_names : ∀ name ∈ [lit "status", lit "message", lit "session", lit "sessions",
    lit "solution", lit "startTimestamp", lit "endTimestamp", lit "version"],
    hidden name = false := by
  decide +kernel

theorem stamps_visible (w : Surroundings) : ∀ f ∈ stamps w, hidden f.1 = false := by
  intro f hf
  apply visible_names
  unfold stamps at hf
  simp only [List.mem_cons, List.not_mem_nil, or_false] at hf
  rcases hf with rfl | rfl | rfl <;> simp

theorem answered_visible {res : Fields} (h : Answered res) : ∀ f ∈ res, hidden f.1 = false := by
  obtain ⟨rest, rfl, hrest⟩ := h
  intro f hf
  apply visible_names
  rcases List.mem_cons.mp hf with rfl | hf
  · simp
  · have hname := hrest f hf
    simp only [List.mem_cons, List.not_mem_nil, or_false] at hname ⊢
    rcases hname with h | h | h | h <;> simp [h]

/-- `object_to_dict` drops what is hidden and changes nothing else. -/
theorem objectToDict_plain (fl : Floats) {attributes : Fields} (h : Plain (.obj attributes)) :
    objectToDict fl attributes = some (attributes.filter fun f => !hidden f.1) := by
  unfold objectToDict
  rw [Lib.JsonText.loads_dumps fl h]
  rfl

theorem getattr_hidden {res : Fields} {name : Str} (h : ∀ f ∈ res, hidden f.1 = false)
    (hname : hidden name = true) : getattr res name = .null := by
  have hnone : (res.find? fun f => f.1 = name) = none := by
    refine List.find?_eq_none.mpr fun f hf heq => ?_
    have hvisible := h f hf
    rw [of_decide_eq_true heq, hname] at hvisible
    cases hvisible
  unfold getattr Json.get?
  rw [hnone]
  rfl

/-- **The client reads the answer**: all that was set on it but what is hidden, with HTTP 500
for an exception and 200 otherwise. -/
theorem client_reads_answer (fl : Floats) (w : Surroundings) (data : Fields)
    (hplain : Plain (.obj (controllerV1Endpoint w (withEnvProxy w data)).1)) :
    (∃ res log, controllerV1Handler w (withEnvProxy w data) [] = (.ok res, log) ∧ Answered res ∧
      (controllerV1 fl w data).1 = (200, some (res ++ stamps w))) ∨
    ∃ text log, controllerV1Handler w (withEnvProxy w data) [] = (.error text, log) ∧
      (controllerV1 fl w data).1 = (500, some ([(lit "status", .str (lit "error")),
        (lit "message", .str (lit "Error: " ++ text))] ++ stamps w)) := by
  have hread := objectToDict_plain fl hplain
  have hflag : hidden (lit "__error_500__") = true := by decide +kernel
  have hroute : (controllerV1 fl w data).1 =
      (if (getattr (controllerV1Endpoint w (withEnvProxy w data)).1
          (lit "__error_500__")).truthy then 500 else 200,
        objectToDict fl (controllerV1Endpoint w (withEnvProxy w data)).1) := rfl
  rw [hroute, hread]
  rcases hrun : controllerV1Handler w (withEnvProxy w data) [] with ⟨text | res, log⟩
  · refine Or.inr ⟨text, log, rfl, ?_⟩
    have hanswer : (controllerV1Endpoint w (withEnvProxy w data)).1 =
        errorFields text ++ stamps w := by
      unfold controllerV1Endpoint
      rw [hrun]
    have hraised : getattr (errorFields text ++ stamps w) (lit "__error_500__") = .bool true := by
      unfold getattr
      rw [show errorFields text ++ stamps w = (lit "__error_500__", .bool true) ::
        ([(lit "status", .str (lit "error")), (lit "message", .str (lit "Error: " ++ text))] ++
          stamps w) from rfl, get?_cons, if_pos rfl]
      rfl
    have hvisible : ∀ f ∈ [(lit "status", Json.str (lit "error")),
        (lit "message", Json.str (lit "Error: " ++ text))] ++ stamps w,
        (!hidden f.1) = true := by
      intro f hf
      rcases List.mem_append.mp hf with hf | hf
      · simp only [List.mem_cons, List.not_mem_nil, or_false] at hf
        rcases hf with rfl | rfl
        · rw [visible_names (lit "status") (by simp)]
          rfl
        · rw [visible_names (lit "message") (by simp)]
          rfl
      · rw [stamps_visible w f hf]
        rfl
    rw [hanswer, hraised, show (Json.bool true).truthy = true from rfl, if_pos rfl]
    refine congrArg (fun body => (500, some body)) ?_
    unfold errorFields
    rw [List.cons_append, List.filter_cons, hflag]
    exact List.filter_eq_self.mpr hvisible
  · refine Or.inl ⟨res, log, rfl, handler_answered hrun, ?_⟩
    have hanswer : (controllerV1Endpoint w (withEnvProxy w data)).1 = res ++ stamps w := by
      unfold controllerV1Endpoint
      rw [hrun]
    have hvisible : ∀ f ∈ res ++ stamps w, hidden f.1 = false :=
      List.forall_mem_append.mpr ⟨answered_visible (handler_answered hrun), stamps_visible w⟩
    rw [hanswer, getattr_hidden hvisible hflag, if_neg (by decide)]
    refine congrArg (fun body => (200, some body)) (List.filter_eq_self.mpr fun f hf => ?_)
    rw [hvisible f hf]
    rfl

/-- `{"cmd": "sessions.list"}` -/
def listing : Fields := [(lit "cmd", .str (lit "sessions.list"))]

theorem client_reads_listing :
    (∃ res log, controllerV1Handler calm (withEnvProxy calm listing) [] = (.ok res, log) ∧
      Answered res ∧ (controllerV1 .fractions calm listing).1 = (200, some (res ++ stamps calm))) ∨
    ∃ text log, controllerV1Handler calm (withEnvProxy calm listing) [] = (.error text, log) ∧
      (controllerV1 .fractions calm listing).1 = (500, some ([(lit "status", .str (lit "error")),
        (lit "message", .str (lit "Error: " ++ text))] ++ stamps calm)) := by
  apply client_reads_answer
  have hanswer : (controllerV1Endpoint calm (withEnvProxy calm listing)).1 =
      [(lit "status", .str (lit "ok")), (lit "message", .str []), (lit "sessions", .list []),
        (lit "startTimestamp", .int 0), (lit "endTimestamp", .int 0),
        (lit "version", .str (lit "1"))] := by
    rfl
  have hascii : ∀ s ∈ [lit "status", lit "message", lit "sessions", lit "startTimestamp",
      lit "endTimestamp", lit "version", lit "ok", [], lit "1"], s.all (· < 128) = true := by
    decide +kernel
  have hpaired : ∀ {s : Str}, s.all (· < 128) = true → Lib.JsonText.Paired s := fun h =>
    Lib.JsonText.paired_of_ascii fun c hc => of_decide_eq_true (List.all_eq_true.mp h c hc)
  have hstr : ∀ {s : Str}, s.all (· < 128) = true → Plain (.str s) := fun h => .str (hpaired h)
  have hzero : Plain (.int 0) := .int (by decide +kernel)
  rw [hanswer]
  refine .obj (by decide +kernel) ?_ ?_
  · intro f hf
    refine hpaired (hascii f.1 ?_)
    simp only [List.mem_cons, List.not_mem_nil, or_false] at hf ⊢
    rcases hf with rfl | rfl | rfl | rfl | rfl | rfl <;> simp
  · intro f hf
    simp only [List.mem_cons, List.not_mem_nil, or_false] at hf
    rcases hf with rfl | rfl | rfl | rfl | rfl | rfl
    · exact hstr (hascii _ (by simp))
    · exact hstr (hascii _ (by simp))
    · exact .list (List.forall_mem_nil _)
    · exact hzero
    · exact hzero
    · exact hstr (hascii _ (by simp))

end Solverr.Controller
