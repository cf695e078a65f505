import Solverr.Controller.Answer
import Solverr.Engines.Document
import Solverr.Lib.Utf8
import Solverr.Passthrough.Handler

/-!
# What the passthrough serves

`_solve` is a client of the endpoint inside the process: it makes a request, and reads the
bytes to serve out of the answer. `served` is the second half on the answer as it comes,
`pageOf` what that comes to on an engine's result.

The request is of the passthrough's own making, and the endpoint never refuses it
(`solveFields_admitted`): all that goes wrong is an engine's doing. So `serves_engine_answer`
says of every routed path what is asked of the engines and how the answer is served, and
`document_served` that a PDF goes through all of it byte by byte.
-/

namespace Solverr.Passthrough

open Solverr.Lib (Text CaseMap Json Str Utf8.encodeChar Utf8.encode Base64.decode)
open Solverr.Lib.Procedure (answer raise)
open Solverr.Controller

/-! ## The request -/

/-- `_apply_env_proxy(req)` -/
def applyEnvProxy (w : Surroundings) (req : Fields) : Fields :=
  match w.envProxy with
  | some proxy => setattr req (lit "proxy") (.obj proxy)
  | none => req

/-- The request `_solve` makes. -/
def solveFields (w : Surroundings) (r : SolveRequest) : Fields :=
  applyEnvProxy w [(lit "cmd", .str (lit r.cmd)), (lit "url", text r.url),
    (lit "maxTimeout", .int r.maxTimeout), (lit "session", text r.session)]

/-! ## The answer -/

/-- What `_solve` raises: the `RuntimeError` with its message, or what the decoding of a
document raises. -/
inductive Failure
  | solver (message : Json)
  | undecodable

/-- `value == text` -/
def isText (value : Json) (text : Str) : Bool :=
  match value with
  | .str s => s = text
  | _ => false

/-- `n or 200` -/
def statusOr200 (n : ℤ) : ℤ := if n = 0 then 200 else n

/-- A code point that no character has. -/
def isSurrogate (n : ℕ) : Bool := 0xD800 ≤ n && n ≤ 0xDFFF

/-- `raw.encode("utf-8", errors="replace")` -/
def encodeReplace (raw : Str) : Bytes :=
  raw.flatMap fun n =>
    if isSurrogate n then ['?'.toNat.toUInt8]
    else (Utf8.encodeChar (Char.ofNat n)).map Nat.toUInt8

/-- `base64.b64decode(raw)` -/
def b64decode (raw : Str) : Option Bytes :=
  if raw.all (· < 128) then Base64.decode (raw.map Char.ofNat) else none

def pdfType : Text := "application/pdf".toList

/-- The second half of `_solve`, from a solution on. -/
def served (solution : Fields) : Except Failure Page :=
  let status := match getattr solution (lit "status") with
    | .int n => statusOr200 n
    | _ => 200
  let raw := match getattr solution (lit "response") with
    | .str raw => raw
    | _ => []
  if isText (getattr solution (lit "contentType")) (.of pdfType) then
    match b64decode raw with
    | some body => .ok ⟨status, body, pdfType⟩
    | none => .error .undecodable
  else .ok ⟨status, encodeReplace raw, htmlContentType⟩

/-- `res.message or "solver returned an error"` -/
def messageOf (res : Fields) : Json :=
  let message := getattr res (lit "message")
  if message.truthy then message else .str (lit "solver returned an error")

/-- `_solve(target, host)`: what it returns or raises, and what it asks of the engines. -/
def solve (w : Surroundings) (r : SolveRequest) : Except Failure Page × List Action :=
  let (res, log) := controllerV1Endpoint w (solveFields w r)
  let failed := (getattr res (lit "__error_500__")).truthy ||
    !isText (getattr res (lit "status")) (lit "ok")
  match failed, getattr res (lit "solution") with
  | false, .obj solution => (served solution, log)
  | _, _ => (.error (.solver (messageOf res)), log)

/-- What an engine's result is served as. -/
def pageOf (result : ChallengeResolutionResult) : Except Failure Page :=
  let status := statusOr200 result.status
  let raw := result.response.getD []
  if result.contentType = some pdfType then
    match Base64.decode raw with
    | some body => .ok ⟨status, body, pdfType⟩
    | none => .error .undecodable
  else .ok ⟨status, (Utf8.encode raw).map Nat.toUInt8, htmlContentType⟩

/-- What `_solve` makes of it. -/
def outcomePage : Ended → Except Failure Page
  | .raised e => .error (.solver (.str (lit "Error: " ++ .of e)))
  | .solved _ result | .unsolved result => pageOf (toChallengeResolution result).result

/-! ## The request is admitted -/

section Request

variable (w : Surroundings) (r : SolveRequest)

theorem getattr_cons (f : Str × Json) (fields : Fields) (name : Str) :
    getattr (f :: fields) name = if f.1 = name then f.2 else getattr fields name := by
  unfold getattr
  rw [get?_cons]
  split <;> rfl

/-- An attribute that is set once, read under its name. -/
theorem getattr_of_mem {fields : Fields} {name : Str} {value : Json}
    (hnodup : (fields.map Prod.fst).Nodup) (h : (name, value) ∈ fields) :
    getattr fields name = value := by
  induction fields with
  | nil => cases h
  | cons f fields ih =>
    obtain ⟨hnew, hrest⟩ := List.nodup_cons.mp hnodup
    rw [getattr_cons]
    rcases List.mem_cons.mp h with rfl | hmem
    · exact if_pos rfl
    · have hne : f.1 ≠ name := fun heq => hnew (heq ▸ List.mem_map_of_mem hmem)
      rw [if_neg hne]
      exact ih hrest hmem

theorem getattr_of_not_mem {fields : Fields} {name : Str} (h : name ∉ fields.map Prod.fst) :
    getattr fields name = .null := by
  induction fields with
  | nil => rfl
  | cons f fields ih =>
    obtain ⟨hne, hrest⟩ := List.ne_and_not_mem_of_not_mem_cons h
    rw [getattr_cons, if_neg (Ne.symm hne)]
    exact ih hrest

/-- The attributes `_solve` sets. -/
def ownNames : List Str := [lit "cmd", lit "url", lit "maxTimeout", lit "session"]

theorem own_apart : ownNames.Nodup ∧ lit "proxy" ∉ ownNames ∧
    ∀ name ∈ [lit "engine", lit "postData", lit "session_ttl_minutes", lit "cookies"],
      name ∉ ownNames ∧ name ≠ lit "proxy" := by
  decide +kernel

/-- The environment's proxy is set beside them. -/
theorem getattr_applyEnvProxy {req : Fields} {name : Str} (h : name ≠ lit "proxy") :
    getattr (applyEnvProxy w req) name = getattr req name := by
  unfold applyEnvProxy
  split
  next => exact getattr_setattr_of_ne req _ h
  next => rfl

theorem solveFields_own {name : Str} {value : Json} (h : (name, value) ∈
      [(lit "cmd", .str (lit r.cmd)), (lit "url", text r.url),
        (lit "maxTimeout", .int r.maxTimeout), (lit "session", text r.session)]) :
    getattr (solveFields w r) name = value := by
  have hname : name ∈ List.map Prod.fst _ := List.mem_map.mpr ⟨_, h, rfl⟩
  have hproxy : name ≠ lit "proxy" := fun heq => own_apart.2.1 (heq ▸ hname)
  unfold solveFields
  rw [getattr_applyEnvProxy w hproxy]
  exact getattr_of_mem own_apart.1 h

theorem solveFields_cmd : getattr (solveFields w r) (lit "cmd") = .str (lit r.cmd) :=
  solveFields_own w r (by simp)

theorem solveFields_url : getattr (solveFields w r) (lit "url") = text r.url :=
  solveFields_own w r (by simp)

theorem solveFields_maxTimeout :
    getattr (solveFields w r) (lit "maxTimeout") = .int r.maxTimeout :=
  solveFields_own w r (by simp)

theorem solveFields_session : getattr (solveFields w r) (lit "session") = text r.session :=
  solveFields_own w r (by simp)

/-- What `_solve` does not set is left to its default. -/
theorem solveFields_default {name : Str} (hname : name ∉ ownNames) (hproxy : name ≠ lit "proxy") :
    getattr (solveFields w r) name = .null := by
  unfold solveFields
  rw [getattr_applyEnvProxy w hproxy]
  exact getattr_of_not_mem hname

/-- The proxy is the environment's, if it has one. -/
theorem solveFields_proxy : getattr (solveFields w r) (lit "proxy") =
    match w.envProxy with
    | some proxy => .obj proxy
    | none => .null := by
  unfold solveFields applyEnvProxy
  cases w.envProxy with
  | some proxy => exact getattr_setattr_self _ _ _
  | none => exact getattr_of_not_mem own_apart.2.1

/-- What the parameters `_solve` sets are declared as. -/
theorem own_declared : ∀ p ∈ annotations,
    (p.1 ∈ [lit "cmd", lit "url", lit "session"] → typeOverride p.1 p.2 = some .string) ∧
    (p.1 = lit "maxTimeout" → typeOverride p.1 p.2 = none) ∧
    (p.1 = lit "proxy" → typeOverride p.1 p.2 = some .object) := by
  decide +kernel

theorem solveFields_typed : WellTyped (solveFields w r) := by
  refine ⟨fun p hp expected hexpected => ?_, fun items hitems => ?_⟩
  · obtain ⟨hstring, hbudget, hobject⟩ := own_declared p hp
    have asString : ∀ s, p.1 ∈ [lit "cmd", lit "url", lit "session"] →
        getattr (solveFields w r) p.1 = .str s →
        getattr (solveFields w r) p.1 = .null ∨ expected.Has (getattr (solveFields w r) p.1) := by
      intro s hmem hvalue
      obtain rfl := Option.some.inj (hexpected.symm.trans (hstring hmem))
      rw [hvalue]
      exact Or.inr (.string s)
    by_cases hproxy : p.1 = lit "proxy"
    · obtain rfl := Option.some.inj (hexpected.symm.trans (hobject hproxy))
      rw [hproxy, solveFields_proxy]
      cases w.envProxy with
      | none => exact Or.inl rfl
      | some proxy => exact Or.inr (.object proxy)
    · by_cases hown : p.1 ∈ ownNames
      · unfold ownNames at hown
        simp only [List.mem_cons, List.not_mem_nil, or_false] at hown
        rcases hown with h | h | h | h
        · exact asString (lit r.cmd) (by simp [h]) (by rw [h, solveFields_cmd])
        · exact asString (.of r.url) (by simp [h]) (by rw [h, solveFields_url]; rfl)
        · rw [hbudget h] at hexpected
          cases hexpected
        · exact asString (.of r.session) (by simp [h]) (by rw [h, solveFields_session]; rfl)
      · exact Or.inl (solveFields_default w r hown hproxy)
  · have hnames := own_apart.2.2 (lit "cookies") (by simp)
    rw [solveFields_default w r hnames.1 hnames.2] at hitems
    cases hitems

end Request

/-- The scheme of a target is all the check of a URL asks for. -/
theorem isHttp_https (rest : Text) : IsHttp (.of (https ++ rest)) := by
  have hsplit : Str.of https = lit "https" ++ lit "://" := by decide +kernel
  have hscheme : (lit "https").map fold = lit "https" := by decide +kernel
  refine ⟨lit "https", .of rest, ?_, Or.inr hscheme⟩
  show List.map Char.toNat (https ++ rest) = _
  rw [List.map_append, ← List.append_assoc]
  exact congrArg (· ++ Str.of rest) hsplit

/-- A request that names no engine has a plan. -/
theorem enginePlan_unforced (w : Surroundings) {req : Fields}
    (h : getattr req (lit "engine") = .null) : ∃ order, enginePlan w req = .ok order := by
  have hempty : w.unicode.lower (Lib.Str.strip (engineText .null)) = [] :=
    w.unicode.lower_ascii [] (List.forall_mem_nil _)
  have hforced : validateEngine w .null = .ok none := by
    unfold validateEngine
    rw [hempty]
    exact if_pos (Or.inl rfl)
  unfold enginePlan
  rw [h, hforced]
  exact ⟨_, rfl⟩

/-- **The endpoint refuses nothing the passthrough asks for.** -/
theorem solveFields_admitted (w : Surroundings) {cfg : Config} {raw target host : Text}
    (hroute : route cfg raw = some (target, host)) : ∃ b order,
      Admits w (solveFields w (solveRequest cfg target host)) .get b order := by
  let r := solveRequest cfg target host
  have hbudget : ∃ v, validateMaxTimeout w.unicode w.ceiling
      (getattr (solveFields w r) (lit "maxTimeout")) = .ok v := by
    rw [solveFields_maxTimeout]
    show ∃ v, (if r.maxTimeout < 1 then Except.ok (clamp w.ceiling 60000)
      else .ok (clamp w.ceiling r.maxTimeout)) = .ok v
    split <;> exact ⟨_, rfl⟩
  obtain ⟨v, hv⟩ := hbudget
  obtain ⟨b, rfl⟩ := budget_of_ok hv
  have default : ∀ name ∈ [lit "engine", lit "postData", lit "session_ttl_minutes", lit "cookies"],
      getattr (solveFields w r) name = .null := fun name hname =>
    solveFields_default w r (own_apart.2.2 name hname).1 (own_apart.2.2 name hname).2
  obtain ⟨order, horder⟩ := enginePlan_unforced w (default (lit "engine") (by simp))
  obtain ⟨-, rest, htarget⟩ := route_target hroute
  refine ⟨b, order, ⟨⟨solveFields_typed w r, hv, ?_⟩, ⟨?_, ?_, ?_⟩, horder⟩⟩
  · exact solveFields_cmd w r
  · refine ⟨.of target, solveFields_url w r, ?_⟩
    rw [htarget, List.append_assoc]
    exact isHttp_https _
  · intro n hn
    rw [default (lit "session_ttl_minutes") (by simp)] at hn
    cases hn
  · exact iff_of_true (default (lit "postData") (by simp)) rfl

/-! ## The answer, as it is served -/

/-- A text has no surrogates, so nothing of it is replaced. -/
theorem encodeReplace_of (s : Text) :
    encodeReplace (.of s) = (Utf8.encode s).map Nat.toUInt8 := by
  induction s with
  | nil => rfl
  | cons c s ih =>
    have hvalid := Lib.Utf8.toNat_valid c
    have hnot : isSurrogate c.toNat = false := by
      unfold isSurrogate
      simp only [Bool.and_eq_false_iff, decide_eq_false_iff_not]
      omega
    show encodeReplace (c.toNat :: Str.of s) = _
    unfold encodeReplace at ih ⊢
    rw [List.flatMap_cons, ih, hnot]
    simp only [Bool.false_eq_true, if_false, Char.ofNat_toNat, Utf8.encode, List.flatMap_cons,
      List.map_append]

theorem b64decode_of (s : Text) : b64decode (.of s) = Base64.decode s := by
  have hchars : (Str.of s).map Char.ofNat = s := by
    unfold Str.of
    rw [List.map_map]
    exact (List.map_congr_left fun c _ => Char.ofNat_toNat c).trans (List.map_id s)
  have hascii : (Str.of s).all (· < 128) = s.all fun c => c.toNat < 128 := by
    unfold Str.of
    rw [List.all_map]
    rfl
  unfold b64decode Base64.decode
  rw [hascii, hchars]
  split <;> rfl

section Solution

variable {name name' : Str} (value : Option Json) (rest : Fields)

/-- An attribute that may have been set, read under its name. -/
theorem getattr_optional : getattr (optional name value ++ rest) name =
    value.getD (getattr rest name) := by
  cases value with
  | none => rfl
  | some value => exact (getattr_cons _ _ _).trans (if_pos rfl)

theorem getattr_optional_of_ne (h : name ≠ name') :
    getattr (optional name value ++ rest) name' = getattr rest name' := by
  cases value with
  | none => rfl
  | some value => exact (getattr_cons _ _ _).trans (if_neg h)

/-- The attributes that every solution has, but for the status. -/
theorem getattr_solution {result : ChallengeResolutionResult} (h : name ∉
      [lit "url", lit "status", lit "cookies", lit "userAgent", lit "turnstile_token"]) :
    getattr (solutionFields result) name =
      getattr (optional (lit "headers") result.headers ++
        (optional (lit "response") (result.response.map text) ++
          (optional (lit "contentType") (result.contentType.map text) ++
            optional (lit "screenshot") (result.screenshot.map text)))) name := by
  simp only [List.mem_cons, List.not_mem_nil, or_false, not_or] at h
  obtain ⟨hurl, hstatus, hcookies, hagent, htoken⟩ := h
  unfold solutionFields
  simp only [List.append_assoc, List.cons_append, List.nil_append]
  rw [getattr_cons, if_neg (Ne.symm hurl), getattr_cons, if_neg (Ne.symm hstatus), getattr_cons,
    if_neg (Ne.symm hcookies), getattr_cons, if_neg (Ne.symm hagent), getattr_cons,
    if_neg (Ne.symm htoken)]

end Solution

/-- The attributes of an answer are apart. -/
theorem answer_apart : lit "url" ≠ lit "status" ∧ lit "headers" ≠ lit "response" ∧
    lit "contentType" ≠ lit "response" ∧ lit "screenshot" ≠ lit "response" ∧
    lit "headers" ≠ lit "contentType" ∧ lit "response" ≠ lit "contentType" ∧
    lit "screenshot" ≠ lit "contentType" ∧ lit "status" ≠ lit "solution" ∧
    lit "message" ≠ lit "solution" ∧ lit "__error_500__" ≠ lit "message" ∧
    lit "status" ≠ lit "message" ∧ hidden (lit "__error_500__") = true ∧
    ∀ name ∈ [lit "response", lit "contentType"], name ∉
      [lit "url", lit "status", lit "cookies", lit "userAgent", lit "turnstile_token"] := by
  decide +kernel

/-- **A solution is served as the result it was made of.** -/
theorem served_solution (result : ChallengeResolutionResult) :
    served (solutionFields result) = pageOf result := by
  obtain ⟨hurl, hheaders, htype, hshot, hheaders', hresponse', hshot', -, -, -, -, -, hkept⟩ :=
    answer_apart
  have hstatus : getattr (solutionFields result) (lit "status") = .int result.status := by
    unfold solutionFields
    simp only [List.append_assoc, List.cons_append]
    rw [getattr_cons, if_neg hurl, getattr_cons, if_pos rfl]
  have none_optional : ∀ {name name' : Str} (value : Option Json), name ≠ name' →
      getattr (optional name value) name' = .null := by
    intro name name' value h
    have hread := getattr_optional_of_ne value [] h
    rwa [List.append_nil] at hread
  have hresponse : getattr (solutionFields result) (lit "response") =
      (result.response.map text).getD .null := by
    rw [getattr_solution (hkept _ (by simp)), getattr_optional_of_ne _ _ hheaders,
      getattr_optional, getattr_optional_of_ne _ _ htype, none_optional _ hshot]
  have hcontent : getattr (solutionFields result) (lit "contentType") =
      (result.contentType.map text).getD .null := by
    rw [getattr_solution (hkept _ (by simp)), getattr_optional_of_ne _ _ hheaders',
      getattr_optional_of_ne _ _ hresponse', getattr_optional, none_optional _ hshot']
  have hraw : (match getattr (solutionFields result) (lit "response") with
      | .str raw => raw
      | _ => []) = Str.of (result.response.getD []) := by
    rw [hresponse]
    cases result.response <;> rfl
  have hpdf : isText (getattr (solutionFields result) (lit "contentType")) (.of pdfType) = true ↔
      result.contentType = some pdfType := by
    rw [hcontent]
    cases result.contentType with
    | none => exact iff_of_false (fun h => (by cases h)) fun h => (by cases h)
    | some contentType =>
      show decide (Str.of contentType = Str.of pdfType) = true ↔ _
      rw [decide_eq_true_iff, Option.some.injEq]
      have hinj : Function.Injective Char.toNat := fun _ _ => Char.toNat_inj.mp
      exact ⟨fun h => List.map_injective_iff.mpr hinj h, congrArg _⟩
  unfold served pageOf
  rw [hraw, hstatus]
  dsimp only
  rw [b64decode_of, encodeReplace_of]
  by_cases hp : result.contentType = some pdfType
  · rw [if_pos (hpdf.mpr hp), if_pos hp]
    rfl
  · rw [if_neg (fun h => hp (hpdf.mp h)), if_neg hp]

/-- An answer that was set comes before what every answer gets. -/
theorem getattr_append_of_mem {name : Str} (fields stamps : Fields)
    (h : ∃ f ∈ fields, f.1 = name) : getattr (fields ++ stamps) name = getattr fields name := by
  induction fields with
  | nil =>
    obtain ⟨f, hf, -⟩ := h
    cases hf
  | cons f fields ih =>
    rw [List.cons_append, getattr_cons, getattr_cons]
    by_cases hname : f.1 = name
    · rw [if_pos hname, if_pos hname]
    · rw [if_neg hname, if_neg hname]
      obtain ⟨f', hf', hname'⟩ := h
      rcases List.mem_cons.mp hf' with rfl | hmem
      · exact absurd hname' hname
      · exact ih ⟨f', hmem, hname'⟩

/-- `_solve` on the answer to an admitted request. -/
theorem solve_of_admitted {w : Surroundings} {r : SolveRequest} {b : Budget w.ceiling}
    {order : List Sessions.Engine} (h : Admits w (solveFields w r) .get b order) :
    solve w r = (outcomePage (outcome w (solveFields w r) .get b order),
      (attempts w (budgeted (solveFields w r) b.milliseconds) .get b.milliseconds order).map
        (asked (budgeted (solveFields w r) b.milliseconds) .get)) := by
  obtain ⟨-, -, -, -, -, -, -, hstatus_ne, hmessage_ne, hflag_ne, hstatus_ne', hhidden, -⟩ :=
    answer_apart
  have hhandler := handler_of_admitted h
  generalize (attempts w (budgeted (solveFields w r) b.milliseconds) .get b.milliseconds order).map
    (asked (budgeted (solveFields w r) b.milliseconds) .get) = log at hhandler ⊢
  -- a page: the answer has `status` and `solution`, and no flag
  have answered : ∀ result, outcomePage (outcome w (solveFields w r) .get b order) =
        pageOf (toChallengeResolution result).result →
      (outcome w (solveFields w r) .get b order).response = .ok (toChallengeResolution result) →
      solve w r = (outcomePage (outcome w (solveFields w r) .get b order), log) := by
    intro result hpage hresponse
    let fields : Fields := [(lit "status", .str (lit "ok")), (lit "message", text result.message),
      (lit "solution", .obj (solutionFields (toChallengeResolution result).result))]
    have hend : controllerV1Endpoint w (solveFields w r) = (fields ++ stamps w, log) := by
      unfold controllerV1Endpoint
      rw [hhandler, hresponse]
      rfl
    have hstatus : getattr (fields ++ stamps w) (lit "status") = .str (lit "ok") := by
      rw [getattr_append_of_mem _ _ ⟨_, List.mem_cons_self .., rfl⟩, getattr_cons, if_pos rfl]
    have hsolution : getattr (fields ++ stamps w) (lit "solution") =
        .obj (solutionFields (toChallengeResolution result).result) := by
      rw [getattr_append_of_mem _ _ ⟨_, List.mem_cons_of_mem _ (List.mem_cons_of_mem _
        (List.mem_singleton_self _)), rfl⟩, getattr_cons, if_neg hstatus_ne, getattr_cons,
        if_neg hmessage_ne, getattr_cons, if_pos rfl]
    have hflag : getattr (fields ++ stamps w) (lit "__error_500__") = .null := by
      refine getattr_hidden (List.forall_mem_append.mpr ⟨?_, stamps_visible w⟩) hhidden
      refine answered_visible (answered_fields ?_)
      simp
    have hok : isText (.str (lit "ok")) (lit "ok") = true := by
      unfold isText
      exact decide_eq_true rfl
    unfold solve
    rw [hend, hpage]
    dsimp only
    rw [hflag, hstatus, hok, hsolution, ← served_solution]
    rfl
  cases hended : outcome w (solveFields w r) .get b order with
  | solved name result =>
    rw [← hended]
    exact answered result (by rw [hended]; rfl) (by rw [hended]; rfl)
  | unsolved result =>
    rw [← hended]
    exact answered result (by rw [hended]; rfl) (by rw [hended]; rfl)
  -- an exception: the flag is up, and `message` has its text
  | raised e =>
    have hend : controllerV1Endpoint w (solveFields w r) =
        (errorFields (.of e) ++ stamps w, log) := by
      unfold controllerV1Endpoint
      rw [hhandler, hended]
      rfl
    have hflag : getattr (errorFields (.of e) ++ stamps w) (lit "__error_500__") = .bool true := by
      unfold errorFields
      rw [getattr_append_of_mem _ _ ⟨_, List.mem_cons_self .., rfl⟩, getattr_cons, if_pos rfl]
    have hmessage : getattr (errorFields (.of e) ++ stamps w) (lit "message") =
        .str (lit "Error: " ++ .of e) := by
      unfold errorFields
      rw [getattr_append_of_mem _ _ ⟨_, List.mem_cons_of_mem _ (List.mem_cons_of_mem _
        (List.mem_singleton_self _)), rfl⟩]
      rw [getattr_cons, if_neg hflag_ne, getattr_cons, if_neg hstatus_ne', getattr_cons, if_pos rfl]
    unfold solve
    rw [hend]
    dsimp only
    rw [hflag]
    unfold messageOf
    rw [hmessage]
    rfl

/-! ## What is asked, and what is served -/

/-- An engine is asked for the target, in the session of its host, through the environment's
proxy and for no longer than the budget. -/
structure AsksFor (w : Surroundings) (r : SolveRequest) (b : Budget w.ceiling) (a : Action) :
    Prop where
  solve : ∃ engine req share, a = .solve engine req .get share ∧
    getattr req (lit "url") = text r.url ∧ getattr req (lit "session") = text r.session ∧
    getattr req (lit "maxTimeout") = .int b.milliseconds
  proxy : a.proxy = some (match w.envProxy with
    | some proxy => .obj proxy
    | none => .null)

theorem asksFor_asked (w : Surroundings) (r : SolveRequest) (b : Budget w.ceiling) (t : Trial) :
    AsksFor w r b (asked (budgeted (solveFields w r) b.milliseconds) .get t) := by
  have keeps := fun {name : Str} (h : name ≠ lit "maxTimeout") =>
    getattr_budgeted (solveFields w r) b.milliseconds h
  refine ⟨⟨_, _, _, rfl, ?_, ?_, ?_⟩, ?_⟩
  · rw [keeps (names_apart (lit "url") (by simp)), solveFields_url]
  · rw [keeps (names_apart (lit "session") (by simp)), solveFields_session]
  · exact getattr_setattr_self _ _ _
  · refine congrArg some ?_
    rw [keeps (names_apart (lit "proxy") (by simp)), solveFields_proxy]

theorem outcomePage_of_ok {ended : Ended} {res : ChallengeResolution}
    (h : ended.response = .ok res) : outcomePage ended = pageOf res.result := by
  cases ended with
  | solved name result | unsolved result =>
    obtain rfl := Except.ok.inj h
    rfl
  | raised e => cases h

/-- What is no document is served as its UTF-8, and reads as what it was. -/
theorem pageOf_text {result : ChallengeResolutionResult} (h : result.contentType ≠ some pdfType) :
    ∃ page, pageOf result = .ok page ∧ page.status = statusOr200 result.status ∧
      page.contentType = htmlContentType ∧
      Lib.Utf8.decode (page.body.map UInt8.toNat) = result.response.getD [] := by
  refine ⟨_, if_neg h, rfl, rfl, ?_⟩
  generalize result.response.getD [] = raw
  have hbytes : ((Utf8.encode raw).map Nat.toUInt8).map UInt8.toNat = Utf8.encode raw := by
    rw [List.map_map]
    refine (List.map_congr_left fun n hn => ?_).trans (List.map_id _)
    obtain ⟨c, -, hc⟩ := List.mem_flatMap.mp hn
    exact Nat.mod_eq_of_lt (Lib.Utf8.encodeChar_lt n hc)
  have hread := Lib.Utf8.decode_encode_append raw []
  rw [List.append_nil] at hread
  show Lib.Utf8.decode (((Utf8.encode raw).map Nat.toUInt8).map UInt8.toNat) = raw
  rw [hbytes, hread]
  exact List.append_nil raw

/-- **The passthrough serves what an engine answered.** For every routed path the endpoint
admits the request; it asks at least one engine, each for the target of the path in the
session of its host, and for nothing else; and what is served is the result the engines came
to. What is no document is served as its UTF-8. -/
theorem serves_engine_answer (w : Surroundings) {cfg : Config} {raw target host : Text}
    (hroute : route cfg raw = some (target, host)) :
    let r := solveRequest cfg target host
    ∃ b order, Admits w (solveFields w r) .get b order ∧
      (solve w r).2 ≠ [] ∧ (∀ a ∈ (solve w r).2, AsksFor w r b a) ∧
      (solve w r).1 = outcomePage (outcome w (solveFields w r) .get b order) ∧
      ∀ res, (outcome w (solveFields w r) .get b order).response = .ok res →
        res.result.contentType ≠ some pdfType → ∃ page, (solve w r).1 = .ok page ∧
          page.status = statusOr200 res.result.status ∧ page.contentType = htmlContentType ∧
          Lib.Utf8.decode (page.body.map UInt8.toNat) = res.result.response.getD [] := by
  intro r
  obtain ⟨b, order, hadmits⟩ := solveFields_admitted w hroute
  have hsolve := solve_of_admitted hadmits
  refine ⟨b, order, hadmits, ?_, ?_, by rw [hsolve], fun res hres htype => ?_⟩
  · rw [hsolve]
    obtain ⟨forced, hplanned⟩ := order_planned hadmits.plan
    intro hnone
    exact attempts_ne_nil hplanned.ne_nil (List.map_eq_nil_iff.mp hnone)
  · rw [hsolve]
    intro a ha
    obtain ⟨t, -, rfl⟩ := List.mem_map.mp ha
    exact asksFor_asked w r b t
  · rw [hsolve]
    dsimp only
    rw [outcomePage_of_ok hres]
    exact pageOf_text htype

/-- A path of the only mirror, in calm surroundings. -/
theorem serves_details :
    let r := solveRequest .mirror "https://a.example/details/1".toList "a.example".toList
    ∃ b order, Admits calm (solveFields calm r) .get b order ∧
      (solve calm r).2 ≠ [] ∧ (∀ a ∈ (solve calm r).2, AsksFor calm r b a) ∧
      (solve calm r).1 = outcomePage (outcome calm (solveFields calm r) .get b order) ∧
      ∀ res, (outcome calm (solveFields calm r) .get b order).response = .ok res →
        res.result.contentType ≠ some pdfType → ∃ page, (solve calm r).1 = .ok page ∧
          page.status = statusOr200 res.result.status ∧ page.contentType = htmlContentType ∧
          Lib.Utf8.decode (page.body.map UInt8.toNat) = res.result.response.getD [] :=
  have hroute : route .mirror "/details/1".toList =
      some ("https://a.example/details/1".toList, "a.example".toList) := by decide +kernel
  serves_engine_answer calm hroute

/-- **A document is served byte by byte**: when an engine hands over a PDF, what the
passthrough serves is what the browser received, or what it fetched again from a response
that said it was a PDF. -/
theorem document_served {w : Surroundings} {r : SolveRequest} {b : Budget w.ceiling}
    {order : List Sessions.Engine} (hadmits : Admits w (solveFields w r) .get b order)
    {cm : CaseMap} {main : Option Engines.Reply} {fetched : Except Engines.Fault Engines.Reply}
    {document : Text} (hdocument : Engines.pdfBody cm main fetched = some document)
    {res : ChallengeResolution}
    (hres : (outcome w (solveFields w r) .get b order).response = .ok res)
    (hresponse : res.result.response = some document)
    (htype : res.result.contentType = some pdfType) :
    ∃ reply data, main = some reply ∧ Engines.Fetched cm reply fetched data ∧
      data.length ≤ Engines.maxPdfBytes ∧
      (solve w r).1 = .ok ⟨statusOr200 res.result.status, data, pdfType⟩ := by
  obtain ⟨reply, data, hmain, -, hfetched, hfits, rfl⟩ :=
    Engines.pdfBody_eq_some_iff.mp hdocument
  refine ⟨reply, data, hmain, hfetched, hfits, ?_⟩
  rw [solve_of_admitted hadmits]
  dsimp only
  rw [outcomePage_of_ok hres]
  unfold pageOf
  rw [hresponse, htype]
  dsimp only
  rw [if_pos rfl, Option.getD_some, Lib.Base64.decode_encode]

/-- `%PDF` -/
def leaflet : Bytes := [37, 80, 68, 70]

/-- Both engines hand over the leaflet. -/
def leaflets : Surroundings :=
  { calm with
    solve := fun _ _ _ _ => ⟨.ok { Engines.SolveResult.blank with
      response := some (Lib.Base64.encode leaflet), contentType := some pdfType }, 1⟩ }

theorem leaflet_served :
    let r := solveRequest .mirror "https://a.example/details/1".toList "a.example".toList
    let main : Engines.Reply := ⟨true, some "Application/PDF".toList, .ok leaflet⟩
    ∃ reply data, some main = some reply ∧
      Engines.Fetched .ascii reply (.error ⟨.other, []⟩) data ∧
      data.length ≤ Engines.maxPdfBytes ∧ (solve leaflets r).1 = .ok ⟨200, data, pdfType⟩ := by
  intro r main
  have hroute : route .mirror "/details/1".toList =
      some ("https://a.example/details/1".toList, "a.example".toList) := by decide +kernel
  obtain ⟨b, order, hadmits⟩ := solveFields_admitted leaflets hroute
  have hdocument : Engines.pdfBody .ascii (some main) (.error ⟨.other, []⟩) =
      some (Lib.Base64.encode leaflet) := by decide +kernel
  have hplan : enginePlan leaflets (solveFields leaflets r) = .ok [.chrome, .stealth] := by rfl
  obtain rfl := Except.ok.inj (hplan.symm.trans hadmits.plan)
  have hbudget : b.milliseconds = 60000 :=
    (Except.ok.inj (hadmits.accepted.budget.symm.trans rfl)).trans rfl
  have hended : (outcome leaflets (solveFields leaflets r) .get b [.chrome, .stealth]).response =
      .ok (toChallengeResolution { Engines.SolveResult.blank with
        response := some (Lib.Base64.encode leaflet), contentType := some pdfType }) := by
    unfold outcome
    rw [hbudget]
    rfl
  exact document_served hadmits hdocument hended rfl rfl

end Solverr.Passthrough
