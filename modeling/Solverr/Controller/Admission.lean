import Solverr.Controller.Endpoint

/-!
# Which requests reach a browser

`Admits` is the endpoint's admission, check by check and in no order: the types, the budget,
the URL, the lifetime, the data, the plan. `asked_iff_permitted` is that the checks of the
code come to it: what is asked of the engines and the stores is what the request permits, no
more and no less, and whatever is refused has asked for nothing.

`AsksFor` is the contract of a command, proved for each and then for the dispatch.
-/

namespace Solverr.Controller

open Solverr.Lib (Text Json Str Unicode)
open Solverr.Lib.Procedure (answer raise change)

/-! ## The checks, one at a time -/

/-- Case as `re.IGNORECASE` sees it. -/
def fold (c : ℕ) : ℕ := if c = 'ſ'.toNat then 's'.toNat else Lib.Url.asciiLower c

/-- The URL starts with `http://` or `https://`. -/
def IsHttp (url : Str) : Prop :=
  ∃ scheme rest, url = scheme ++ (lit "://" ++ rest) ∧
    (scheme.map fold = lit "http" ∨ scheme.map fold = lit "https")

theorem lits_eq : lit "hH" = [104, 72] ∧ lit "tT" = [116, 84] ∧ lit "pP" = [112, 80] ∧
    lit "sSſ" = [115, 83, 383] ∧ lit "http" = [104, 116, 116, 112] ∧
    lit "https" = [104, 116, 116, 112, 115] := by
  decide +kernel

theorem names_apart : ∀ name ∈ [lit "cmd", lit "cookies", lit "url", lit "postData",
    lit "session_ttl_minutes", lit "engine", lit "session", lit "proxy"],
    name ≠ lit "maxTimeout" := by
  decide +kernel

theorem declared_as : typeOverride (lit "session_ttl_minutes") .whole = some .whole ∧
    typeOverride (lit "cmd") .string = some .string := by
  decide +kernel

/-- The letters of the schemes. -/
theorem fold_eq_iff {c : ℕ} : (fold c = 104 ↔ c ∈ lit "hH") ∧ (fold c = 116 ↔ c ∈ lit "tT") ∧
    (fold c = 112 ↔ c ∈ lit "pP") ∧ (fold c = 115 ↔ c ∈ lit "sSſ") := by
  obtain ⟨hh, ht, hp, hs, -⟩ := lits_eq
  have hfold : fold c = if c = 383 then 115 else if 65 ≤ c ∧ c ≤ 90 then c + 32 else c := rfl
  rw [hh, ht, hp, hs, hfold]
  simp only [List.mem_cons, List.not_mem_nil, or_false]
  refine ⟨?_, ?_, ?_, ?_⟩ <;> split <;> try split
  all_goals omega

/-- The regular expression is `IsHttp`. -/
theorem isHttp_iff (url : Str) : isHttp url = true ↔ IsHttp url := by
  obtain ⟨-, -, -, -, hhttp, hhttps⟩ := lits_eq
  constructor
  · intro h
    unfold isHttp at h
    split at h
    next h' t t' p rest =>
      simp only [Bool.and_eq_true, Bool.or_eq_true, decide_eq_true_eq] at h
      obtain ⟨⟨⟨⟨hh, ht⟩, ht'⟩, hp⟩, hrest⟩ := h
      have hfour : [h', t, t', p].map fold = [104, 116, 116, 112] := by
        simp only [List.map_cons, List.map_nil, fold_eq_iff.1.mpr hh, fold_eq_iff.2.1.mpr ht,
          fold_eq_iff.2.1.mpr ht', fold_eq_iff.2.2.1.mpr hp]
      rcases hrest with ⟨rest', hrest⟩ | hrest
      · exact ⟨[h', t, t', p], rest', by rw [hrest]; rfl, Or.inl (hfour.trans hhttp.symm)⟩
      · split at hrest
        next s rest =>
          simp only [Bool.and_eq_true, decide_eq_true_eq] at hrest
          obtain ⟨hs, rest', hrest⟩ := hrest
          refine ⟨[h', t, t', p] ++ [s], rest', by rw [hrest]; rfl, Or.inr ?_⟩
          rw [List.map_append, hfour, hhttps, List.map_singleton, fold_eq_iff.2.2.2.mpr hs]
          rfl
        next => cases hrest
    next => cases h
  · intro ⟨scheme, rest, hurl, hscheme⟩
    rw [hurl]
    have hletters : ∀ {s tail : Str}, s.map fold = 104 :: 116 :: 116 :: 112 :: tail →
        ∃ h t t' p s', s = h :: t :: t' :: p :: s' ∧ h ∈ lit "hH" ∧ t ∈ lit "tT" ∧
          t' ∈ lit "tT" ∧ p ∈ lit "pP" ∧ s'.map fold = tail := by
      intro s tail hs
      obtain ⟨h, s, rfl, hh, hs⟩ := List.map_eq_cons_iff.mp hs
      obtain ⟨t, s, rfl, ht, hs⟩ := List.map_eq_cons_iff.mp hs
      obtain ⟨t', s, rfl, ht', hs⟩ := List.map_eq_cons_iff.mp hs
      obtain ⟨p, s, rfl, hp, hs⟩ := List.map_eq_cons_iff.mp hs
      exact ⟨h, t, t', p, s, rfl, fold_eq_iff.1.mp hh, fold_eq_iff.2.1.mp ht,
        fold_eq_iff.2.1.mp ht', fold_eq_iff.2.2.1.mp hp, hs⟩
    rw [hhttp, hhttps] at hscheme
    rcases hscheme with hs | hs
    · obtain ⟨h, t, t', p, s', rfl, hh, ht, ht', hp, hs'⟩ := hletters hs
      obtain rfl := List.map_eq_nil_iff.mp hs'
      simp only [List.cons_append, List.nil_append, isHttp, hh, ht, ht', hp, decide_true,
        Bool.true_and, List.prefix_append, Bool.true_or]
    · obtain ⟨h, t, t', p, s', rfl, hh, ht, ht', hp, hs'⟩ := hletters hs
      obtain ⟨l, s', rfl, hl, hs'⟩ := List.map_eq_cons_iff.mp hs'
      obtain rfl := List.map_eq_nil_iff.mp hs'
      have hl' := fold_eq_iff.2.2.2.mp hl
      simp only [List.cons_append, List.nil_append, isHttp, hh, ht, ht', hp, hl', decide_true,
        Bool.true_and, List.prefix_append, Bool.or_true]

theorem validateUrl_ok_iff {value : Json} :
    validateUrl value = .ok () ↔ ∃ url, value = .str url ∧ IsHttp url := by
  cases value with
  | str url =>
    unfold validateUrl
    dsimp only
    split
    next hempty =>
      refine iff_of_false (fun h => (by cases h)) ?_
      intro ⟨url', hurl, scheme, rest, heq, hscheme⟩
      cases hurl
      rw [List.isEmpty_iff.mp hempty] at heq
      obtain ⟨rfl, -⟩ := List.append_eq_nil_iff.mp heq.symm
      rcases hscheme with h | h <;> cases h
    next =>
      split
      next hhttp => exact iff_of_true rfl ⟨url, rfl, (isHttp_iff url).mp hhttp⟩
      next hhttp =>
        refine iff_of_false (fun h => (by cases h)) ?_
        intro ⟨url', hurl, h⟩
        cases hurl
        exact hhttp ((isHttp_iff url).mpr h)
  | null | bool | int | double | list | obj =>
    exact iff_of_false (fun h => (by cases h)) fun ⟨_, h, _⟩ => (by cases h)

/-- Of a request whose types have been checked. -/
theorem validateSessionTtl_ok_iff {req : Fields} (h : WellTyped req) :
    validateSessionTtl req = .ok () ↔
      ∀ n, getattr req (lit "session_ttl_minutes") = .int n → 0 ≤ n := by
  have hmem : (lit "session_ttl_minutes", Declared.whole) ∈ annotations := by
    unfold annotations
    simp
  unfold validateSessionTtl
  rcases h.declared _ hmem .whole declared_as.1 with hnull | hwhole
  · rw [hnull]
    exact iff_of_true rfl fun n hn => (by cases hn)
  · generalize getattr req (lit "session_ttl_minutes") = value at hwhole
    cases hwhole with
    | whole n =>
      rw [Sessions.validateSessionTtl_ok_iff]
      constructor
      · intro hn m hm
        cases hm
        exact hn
      · exact fun hall => hall n rfl

/-! ## What a command asks for -/

/-- The command asks for these, in this order, whether it returns or raises. -/
def Logs {α : Type} (m : Command α) (actions : List Action) : Prop :=
  ∀ log, (m log).2 = log ++ actions

section Logs

variable {α β : Type} {actions : List Action}

theorem logs_pure (a : α) : Logs (pure a) [] := fun log => (List.append_nil log).symm

theorem logs_answer (x : Except Str α) : Logs (answer x) [] :=
  fun log => (List.append_nil log).symm

theorem logs_raise (e : Str) : Logs (raise e : Command α) [] :=
  fun log => (List.append_nil log).symm

/-- A check that may raise. -/
theorem logs_answer_bind {x : Except Str α} {f : α → Command β}
    (hret : ∀ a, x = .ok a → Logs (f a) actions) (hraise : ∀ e, x = .error e → actions = []) :
    Logs (answer x >>= f) actions := by
  cases x with
  | ok a => exact hret a rfl
  | error e =>
    rw [hraise e rfl]
    exact logs_raise e

theorem logs_change_bind (more : List Action) {f : Unit → Command β}
    (h : Logs (f ()) actions) : Logs (change (· ++ more) >>= f) (more ++ actions) := fun log => by
  rw [Lib.Procedure.change_bind_apply, h, List.append_assoc]

end Logs

section Asked

variable {w : Surroundings} {req : Fields} {order : List Sessions.Engine}

/-- The engines' calls for a request with these milliseconds. -/
def attempts (w : Surroundings) (req : Fields) (method : Method) (maxTimeout : ℤ)
    (order : List Sessions.Engine) : List Trial :=
  (resolve w.caseMap (maxTimeout / 1000) w.now (order.map (engineOn w req method))).2

/-- A call, as it is asked for. -/
def asked (req : Fields) (method : Method) (t : Trial) : Action :=
  .solve t.engine req method t.share

theorem resolveRequest_logs (w : Surroundings) (req : Fields) (method : Method) (n : ℤ) :
    (∃ order, enginePlan w req = .ok order ∧ Logs (resolveRequest w req method n)
      ((attempts w req method n order).map (asked req method))) ∨
    (∀ order, enginePlan w req ≠ .ok order) ∧ Logs (resolveRequest w req method n) [] := by
  unfold resolveRequest
  cases hplan : enginePlan w req with
  | error e =>
    refine Or.inr ⟨fun order h => (by cases h), ?_⟩
    exact logs_answer_bind (fun _ h => (by cases h)) fun _ _ => rfl
  | ok order =>
    refine Or.inl ⟨order, rfl, ?_⟩
    refine logs_answer_bind (fun order' h => ?_) fun _ h => (by cases h)
    cases h
    have hlogs := logs_change_bind ((attempts w req method n order).map (asked req method))
      (f := fun _ => answer (resolved (resolve w.caseMap (n / 1000) w.now
        (order.map (engineOn w req method))).1.response)) (logs_answer _)
    rw [List.append_nil] at hlogs
    exact hlogs

/-- The checks of `request.get` and `request.post`. -/
structure Checked (req : Fields) (method : Method) : Prop where
  url : ∃ url, getattr req (lit "url") = .str url ∧ IsHttp url
  ttl : ∀ n, getattr req (lit "session_ttl_minutes") = .int n → 0 ≤ n
  data : getattr req (lit "postData") = .null ↔ method = .get

/-- `request.get` raises, or resolves the request. -/
theorem cmdRequestGet_spec (w : Surroundings) (h : WellTyped req) (n : ℤ) :
    Checked req .get ∧ cmdRequestGet w req n = resolveRequest w req .get n ∨
    ¬ Checked req .get ∧ ∃ e, cmdRequestGet w req n = raise e := by
  unfold cmdRequestGet
  cases hurl : isNone (getattr req (lit "url")) with
  | true =>
    refine Or.inr ⟨fun hchecked => ?_, _, rfl⟩
    obtain ⟨url, hstr, -⟩ := hchecked.url
    rw [hstr] at hurl
    cases hurl
  | false =>
    simp only [Bool.false_eq_true, if_false]
    cases hvalid : validateUrl (getattr req (lit "url")) with
    | error e =>
      refine Or.inr ⟨fun hchecked => ?_, e, rfl⟩
      rw [validateUrl_ok_iff.mpr hchecked.url] at hvalid
      cases hvalid
    | ok =>
      rw [Lib.Procedure.answer_ok_bind]
      cases httl : validateSessionTtl req with
      | error e =>
        refine Or.inr ⟨fun hchecked => ?_, e, rfl⟩
        rw [(validateSessionTtl_ok_iff h).mpr hchecked.ttl] at httl
        cases httl
      | ok =>
        rw [Lib.Procedure.answer_ok_bind]
        cases hdata : isNone (getattr req (lit "postData")) with
        | true =>
          refine Or.inl ⟨⟨validateUrl_ok_iff.mp hvalid, (validateSessionTtl_ok_iff h).mp httl, ?_⟩,
            if_pos rfl⟩
          exact iff_of_true (isNone_iff.mp hdata) rfl
        | false =>
          refine Or.inr ⟨fun hchecked => ?_, _, rfl⟩
          rw [isNone_iff.mpr (hchecked.data.mpr rfl)] at hdata
          cases hdata

/-- `request.post` raises, or resolves the request. -/
theorem cmdRequestPost_spec (w : Surroundings) (h : WellTyped req) (n : ℤ) :
    Checked req .post ∧ cmdRequestPost w req n = resolveRequest w req .post n ∨
    ¬ Checked req .post ∧ ∃ e, cmdRequestPost w req n = raise e := by
  unfold cmdRequestPost
  cases hdata : isNone (getattr req (lit "postData")) with
  | true =>
    refine Or.inr ⟨fun hchecked => ?_, _, rfl⟩
    cases hchecked.data.mp (isNone_iff.mp hdata)
  | false =>
    simp only [Bool.false_eq_true, if_false]
    cases hvalid : validateUrl (getattr req (lit "url")) with
    | error e =>
      refine Or.inr ⟨fun hchecked => ?_, e, rfl⟩
      rw [validateUrl_ok_iff.mpr hchecked.url] at hvalid
      cases hvalid
    | ok =>
      rw [Lib.Procedure.answer_ok_bind]
      cases httl : validateSessionTtl req with
      | error e =>
        refine Or.inr ⟨fun hchecked => ?_, e, rfl⟩
        rw [(validateSessionTtl_ok_iff h).mpr hchecked.ttl] at httl
        cases httl
      | ok =>
        refine Or.inl ⟨⟨validateUrl_ok_iff.mp hvalid, (validateSessionTtl_ok_iff h).mp httl, ?_⟩,
          rfl⟩
        refine iff_of_false (fun hnull => ?_) fun h => (by cases h)
        rw [isNone_iff.mpr hnull] at hdata
        cases hdata

/-- When `sessions.create` creates a session, and on which engine. -/
structure Creates (w : Surroundings) (req : Fields) (e : Sessions.Engine) : Prop where
  engine : ∃ forced, validateEngine w (getattr req (lit "engine")) = .ok forced ∧
    e = forced.getD (w.defaultEngine.getD .chrome)
  available : e ∈ w.available
  fresh : ∀ e ∈ w.available, w.holdsSession (getattr req (lit "session")) e = false

theorem cmdSessionsCreate_logs (w : Surroundings) (req : Fields) :
    (∃ e, Creates w req e ∧ Logs (cmdSessionsCreate w req)
      [.create e (getattr req (lit "session")) (getattr req (lit "proxy"))]) ∨
    (∀ e, ¬ Creates w req e) ∧ Logs (cmdSessionsCreate w req) [] := by
  unfold cmdSessionsCreate
  cases hengine : validateEngine w (getattr req (lit "engine")) with
  | error text =>
    refine Or.inr ⟨fun e h => ?_, logs_raise text⟩
    obtain ⟨forced, hforced, -⟩ := h.engine
    rw [hengine] at hforced
    cases hforced
  | ok forced =>
    rw [Lib.Procedure.answer_ok_bind]
    have hnone : ¬ (forced.getD (w.defaultEngine.getD .chrome) ∈ w.available ∧
        ∀ e ∈ w.available, w.holdsSession (getattr req (lit "session")) e = false) →
        ∀ e, ¬ Creates w req e := by
      intro hnot e ⟨⟨forced', hforced, he⟩, havailable, hfresh⟩
      rw [hengine] at hforced
      cases hforced
      rw [he] at havailable
      exact hnot ⟨havailable, hfresh⟩
    dsimp only
    split
    next hheld =>
      refine Or.inr ⟨hnone fun h => ?_, logs_pure _⟩
      obtain ⟨e, he, hholds⟩ := List.any_eq_true.mp hheld
      rw [h.2 e he] at hholds
      cases hholds
    next hheld =>
      have hfresh : ∀ e ∈ w.available, w.holdsSession (getattr req (lit "session")) e = false :=
        fun e he => Bool.eq_false_iff.mpr fun h => hheld (List.any_eq_true.mpr ⟨e, he, h⟩)
      split
      next hmissing => exact Or.inr ⟨hnone fun h => hmissing h.1, logs_raise _⟩
      next hthere =>
        refine Or.inl ⟨_, ⟨⟨forced, hengine, rfl⟩, not_not.mp hthere, hfresh⟩, ?_⟩
        refine logs_change_bind [.create _ _ _] ?_
        refine logs_answer_bind (fun created _ => logs_pure _) fun _ _ => rfl

/-! ## The budget set on a request -/

theorem get?_cons (f : Str × Json) (fields : Fields) (name : Str) :
    Json.get? (f :: fields) name = if f.1 = name then some f.2 else Json.get? fields name := by
  unfold Json.get?
  rw [List.find?_cons]
  by_cases h : f.1 = name <;> simp [h]

/-- Setting an attribute leaves the others. -/
theorem getattr_setattr_of_ne (req : Fields) {name name' : Str} (value : Json) (h : name' ≠ name) :
    getattr (setattr req name value) name' = getattr req name' := by
  have hmap : ∀ fields : Fields,
      Json.get? (fields.map fun f => if f.1 = name then (name, value) else f) name' =
        Json.get? fields name' := by
    intro fields
    induction fields with
    | nil => rfl
    | cons f fields ih =>
      rw [List.map_cons, get?_cons, get?_cons, ih]
      by_cases hf : f.1 = name
      · rw [if_pos hf, if_neg h.symm, if_neg fun hf' => h (hf'.symm.trans hf)]
      · rw [if_neg hf]
  have happend : ∀ fields : Fields,
      Json.get? (fields ++ [(name, value)]) name' = Json.get? fields name' := by
    intro fields
    induction fields with
    | nil => exact (get?_cons _ _ _).trans (if_neg h.symm)
    | cons f fields ih => rw [List.cons_append, get?_cons, get?_cons, ih]
  unfold getattr setattr
  split
  next => rw [hmap]
  next => rw [happend]

theorem getattr_budgeted (req : Fields) (n : ℤ) {name : Str} (h : name ≠ lit "maxTimeout") :
    getattr (budgeted req n) name = getattr req name :=
  getattr_setattr_of_ne req _ h

theorem WellTyped.budgeted (h : WellTyped req) (n : ℤ) : WellTyped (budgeted req n) := by
  refine ⟨fun p hp expected hexpected => ?_, fun items hitems => ?_⟩
  · have hname : p.1 ≠ lit "maxTimeout" := fun hname => by
      unfold typeOverride at hexpected
      rw [if_pos (Or.inl hname)] at hexpected
      cases hexpected
    rw [getattr_budgeted req n hname]
    exact h.declared p hp expected hexpected
  · rw [getattr_budgeted req n (names_apart _ (by simp))] at hitems
    exact h.cookies items hitems

theorem checked_budgeted {n : ℤ} {method : Method} :
    Checked (budgeted req n) method ↔ Checked req method := by
  have hurl := getattr_budgeted req n (names_apart (lit "url") (by simp))
  have hdata := getattr_budgeted req n (names_apart (lit "postData") (by simp))
  have httl := getattr_budgeted req n (names_apart (lit "session_ttl_minutes") (by simp))
  constructor
  · intro ⟨hu, ht, hd⟩
    rw [hurl] at hu
    rw [httl] at ht
    rw [hdata] at hd
    exact ⟨hu, ht, hd⟩
  · intro ⟨hu, ht, hd⟩
    refine ⟨?_, ?_, ?_⟩
    · rw [hurl]
      exact hu
    · rw [httl]
      exact ht
    · rw [hdata]
      exact hd

theorem enginePlan_budgeted (w : Surroundings) (req : Fields) (n : ℤ) :
    enginePlan w (budgeted req n) = enginePlan w req := by
  unfold enginePlan
  rw [getattr_budgeted req n (names_apart (lit "engine") (by simp)),
    getattr_budgeted req n (names_apart (lit "session") (by simp)),
    getattr_budgeted req n (names_apart (lit "url") (by simp))]

theorem creates_budgeted {n : ℤ} {e : Sessions.Engine} :
    Creates w (budgeted req n) e ↔ Creates w req e := by
  have hengine := getattr_budgeted req n (names_apart (lit "engine") (by simp))
  have hsession := getattr_budgeted req n (names_apart (lit "session") (by simp))
  constructor
  · intro ⟨he, ha, hf⟩
    rw [hengine] at he
    rw [hsession] at hf
    exact ⟨he, ha, hf⟩
  · intro ⟨he, ha, hf⟩
    refine ⟨?_, ha, ?_⟩
    · rw [hengine]
      exact he
    · rw [hsession]
      exact hf

/-! ## What is asked for, exactly -/

/-- The command of a request that an engine answers. -/
def Method.command : Method → Str
  | .get => lit "request.get"
  | .post => lit "request.post"

/-- The commands are apart. -/
theorem commands_apart : (∀ method ∈ [Method.get, .post], method.command ≠ lit "sessions.create" ∧
      method.command ≠ lit "sessions.list" ∧ method.command ≠ lit "sessions.destroy") ∧
    Method.get.command ≠ Method.post.command ∧ lit "sessions.destroy" ≠ lit "sessions.create" ∧
    lit "sessions.list" ≠ lit "sessions.destroy" := by
  decide +kernel

/-- A request that comes through the checks every command shares. -/
structure Accepted (w : Surroundings) (req : Fields) (cmd : Str) (b : Budget w.ceiling) :
    Prop where
  typed : WellTyped req
  budget : validateMaxTimeout w.unicode w.ceiling (getattr req (lit "maxTimeout")) =
    .ok b.milliseconds
  command : getattr req (lit "cmd") = .str cmd

/-- **A request that may reach a browser**, and the engines it is planned for. -/
structure Admits (w : Surroundings) (req : Fields) (method : Method) (b : Budget w.ceiling)
    (order : List Sessions.Engine) : Prop where
  accepted : Accepted w req method.command b
  checked : Checked req method
  plan : enginePlan w req = .ok order

/-- What may be asked for, on behalf of a request. -/
inductive Permits (w : Surroundings) (req : Fields) : Action → Prop
  | solve {method : Method} {b : Budget w.ceiling} {order : List Sessions.Engine} {t : Trial}
      (admits : Admits w req method b order)
      (made : t ∈ attempts w (budgeted req b.milliseconds) method b.milliseconds order) :
      Permits w req (asked (budgeted req b.milliseconds) method t)
  | create {b : Budget w.ceiling} {e : Sessions.Engine}
      (accepted : Accepted w req (lit "sessions.create") b) (creates : Creates w req e) :
      Permits w req (.create e (getattr req (lit "session")) (getattr req (lit "proxy")))
  | destroy {b : Budget w.ceiling} {e : Sessions.Engine}
      (accepted : Accepted w req (lit "sessions.destroy") b) (available : e ∈ w.available) :
      Permits w req (.destroy e (getattr req (lit "session")))

/-- What `_validate_max_timeout` returns is a budget. -/
theorem budget_of_ok {u : Unicode} {ceiling v : ℤ} {value : Json}
    (h : validateMaxTimeout u ceiling value = .ok v) :
    ∃ b : Budget ceiling, v = b.milliseconds := by
  by_cases hnull : value = .null
  · subst hnull
    exact ⟨.default ceiling, (Except.ok.inj h).symm.trans (clamp_eq ceiling (by decide))⟩
  · have hbool : ∀ b, value ≠ .bool b := fun b hb => by
      rw [hb] at h
      cases h
    rw [validateMaxTimeout_toInt hnull hbool] at h
    split at h
    next => cases h
    next => cases h
    next => cases h
    next n hn =>
      have hv : (if n < 1 then clamp ceiling 60000 else clamp ceiling n) = v := by
        split at h
        next hlow =>
          rw [if_pos hlow]
          exact Except.ok.inj h
        next hhigh =>
          rw [if_neg hhigh]
          exact Except.ok.inj h
      obtain ⟨b, hb, -⟩ := granted_of_reads hn hv
      exact ⟨b, hb⟩

/-- The handler raises, or runs the command of an accepted request. -/
theorem controllerV1Handler_spec (w : Surroundings) (req : Fields) :
    (∃ cmd b, Accepted w req cmd b ∧ controllerV1Handler w req =
      dispatch w (budgeted req b.milliseconds) b.milliseconds cmd) ∨
    (∀ cmd b, ¬ Accepted w req cmd b) ∧ ∃ e, controllerV1Handler w req = raise e := by
  unfold controllerV1Handler
  cases hcmd : isNone (getattr req (lit "cmd")) with
  | true =>
    refine Or.inr ⟨fun cmd b h => ?_, _, rfl⟩
    rw [h.command] at hcmd
    cases hcmd
  | false =>
    simp only [Bool.false_eq_true, if_false]
    cases htypes : validateRequestTypes req with
    | error e =>
      refine Or.inr ⟨fun cmd b h => ?_, e, rfl⟩
      rw [(validateRequestTypes_ok_iff req).mpr h.typed] at htypes
      cases htypes
    | ok =>
      have htyped := (validateRequestTypes_ok_iff req).mp htypes
      rw [Lib.Procedure.answer_ok_bind]
      unfold maxTimeoutOf
      cases hbudget : validateMaxTimeout w.unicode w.ceiling (getattr req (lit "maxTimeout")) with
      | error e =>
        refine Or.inr ⟨fun cmd b h => ?_, _, rfl⟩
        have := h.budget
        rw [hbudget] at this
        cases this
      | ok n =>
        obtain ⟨b, rfl⟩ := budget_of_ok hbudget
        have hstring : ∃ cmd, getattr req (lit "cmd") = .str cmd := by
          have hmem : (lit "cmd", Declared.string) ∈ annotations := by
            unfold annotations
            simp
          rcases htyped.declared _ hmem .string declared_as.2 with hnull | hstr
          · rw [isNone_iff.mpr hnull] at hcmd
            cases hcmd
          · generalize getattr req (lit "cmd") = value at hstr
            cases hstr with
            | string s => exact ⟨s, rfl⟩
        obtain ⟨cmd, hcmd⟩ := hstring
        refine Or.inl ⟨cmd, b, ⟨htyped, hbudget, hcmd⟩, ?_⟩
        rw [Lib.Procedure.answer_ok_bind,
          getattr_budgeted req b.milliseconds (names_apart (lit "cmd") (by simp)), hcmd]

theorem Accepted.unique {cmd cmd' : Str} {b b' : Budget w.ceiling} (h : Accepted w req cmd b)
    (h' : Accepted w req cmd' b') : cmd' = cmd ∧ b'.milliseconds = b.milliseconds := by
  have hcmd := h'.command.symm.trans h.command
  have hbudget := h'.budget.symm.trans h.budget
  exact ⟨Json.str.inj hcmd, Except.ok.inj hbudget⟩

theorem command_ne (method : Method) : method.command ≠ lit "sessions.create" ∧
    method.command ≠ lit "sessions.list" ∧ method.command ≠ lit "sessions.destroy" :=
  commands_apart.1 method (by cases method <;> simp)

theorem command_inj {method method' : Method} (h : method.command = method'.command) :
    method = method' := by
  have hapart := commands_apart.2.1
  cases method <;> cases method'
  · rfl
  · exact absurd h hapart
  · exact absurd h hapart.symm
  · rfl

/-- The command asks for exactly what the request permits. -/
def AsksFor (w : Surroundings) (req : Fields) (m : Command Fields) : Prop :=
  ∃ actions, Logs m actions ∧ ∀ a, a ∈ actions ↔ Permits w req a

theorem asksFor_nothing {m : Command Fields} (hm : Logs m []) (h : ∀ a, ¬ Permits w req a) :
    AsksFor w req m :=
  ⟨[], hm, fun a => iff_of_false List.not_mem_nil (h a)⟩

/-- A command that is none of those that ask for something. -/
theorem not_permits {cmd : Str} {b : Budget w.ceiling} (h : Accepted w req cmd b)
    (hcreate : cmd ≠ lit "sessions.create") (hdestroy : cmd ≠ lit "sessions.destroy")
    (hsolve : ∀ method : Method, cmd ≠ method.command) (a : Action) : ¬ Permits w req a := by
  intro hpermits
  cases hpermits with
  | @solve method _ _ _ admits => exact hsolve method (h.unique admits.accepted).1.symm
  | create accepted => exact hcreate (h.unique accepted).1.symm
  | destroy accepted => exact hdestroy (h.unique accepted).1.symm

theorem asksFor_create {b : Budget w.ceiling} (h : Accepted w req (lit "sessions.create") b) :
    AsksFor w req (cmdSessionsCreate w (budgeted req b.milliseconds)) := by
  have hpermits : ∀ a, Permits w req a ↔ ∃ e, Creates w req e ∧
      a = .create e (getattr req (lit "session")) (getattr req (lit "proxy")) := by
    intro a
    constructor
    · intro hpermits
      cases hpermits with
      | @solve method _ _ _ admits =>
        exact absurd (h.unique admits.accepted).1 (command_ne method).1
      | create _ creates => exact ⟨_, creates, rfl⟩
      | destroy accepted =>
        exact absurd (h.unique accepted).1 commands_apart.2.2.1
    · intro ⟨e, creates, ha⟩
      rw [ha]
      exact .create h creates
  have hsession := getattr_budgeted req b.milliseconds (names_apart (lit "session") (by simp))
  have hproxy := getattr_budgeted req b.milliseconds (names_apart (lit "proxy") (by simp))
  rcases cmdSessionsCreate_logs w (budgeted req b.milliseconds) with
    ⟨e, hcreates, hlogs⟩ | ⟨hnone, hlogs⟩
  · rw [hsession, hproxy] at hlogs
    rw [creates_budgeted] at hcreates
    refine ⟨_, hlogs, fun a => ?_⟩
    rw [hpermits, List.mem_singleton]
    constructor
    · exact fun ha => ⟨e, hcreates, ha⟩
    · intro ⟨e', hcreates', ha⟩
      obtain ⟨forced, hforced, he⟩ := hcreates.engine
      obtain ⟨forced', hforced', he'⟩ := hcreates'.engine
      rw [hforced] at hforced'
      cases hforced'
      rw [ha, he, he']
  · refine asksFor_nothing hlogs fun a ha => ?_
    obtain ⟨e, hcreates, -⟩ := (hpermits a).mp ha
    exact hnone e (creates_budgeted.mpr hcreates)

theorem asksFor_destroy {b : Budget w.ceiling} (h : Accepted w req (lit "sessions.destroy") b) :
    AsksFor w req (cmdSessionsDestroy w (budgeted req b.milliseconds)) := by
  have hsession := getattr_budgeted req b.milliseconds (names_apart (lit "session") (by simp))
  refine ⟨w.available.map fun e => Action.destroy e (getattr req (lit "session")), ?_, ?_⟩
  · unfold cmdSessionsDestroy
    rw [hsession]
    have hlogs : ∀ m : Command Fields, Logs m [] → Logs (change (· ++ w.available.map fun e =>
        Action.destroy e (getattr req (lit "session"))) >>= fun _ => m)
        (w.available.map fun e => Action.destroy e (getattr req (lit "session"))) := by
      intro m hm
      have hthen := logs_change_bind (w.available.map fun e =>
        Action.destroy e (getattr req (lit "session"))) (f := fun _ => m) hm
      rwa [List.append_nil] at hthen
    refine hlogs _ ?_
    split
    next => exact logs_pure _
    next => exact logs_raise _
  · intro a
    constructor
    · intro ha
      obtain ⟨e, he, rfl⟩ := List.mem_map.mp ha
      exact .destroy h he
    · intro hpermits
      cases hpermits with
      | @solve method _ _ _ admits =>
        exact absurd (h.unique admits.accepted).1 (command_ne method).2.2
      | create accepted => exact absurd (h.unique accepted).1 commands_apart.2.2.1.symm
      | destroy _ available => exact List.mem_map_of_mem available

/-- A request that is resolved, or refused by its own checks. -/
theorem asksFor_solve {method : Method} {b : Budget w.ceiling}
    (h : Accepted w req method.command b) {m : Command Fields}
    (hm : Checked (budgeted req b.milliseconds) method ∧
        m = resolveRequest w (budgeted req b.milliseconds) method b.milliseconds ∨
      ¬ Checked (budgeted req b.milliseconds) method ∧ ∃ e, m = raise e) :
    AsksFor w req m := by
  have hpermits : ∀ a, Permits w req a → ∃ order, Checked req method ∧
      enginePlan w req = .ok order ∧
      a ∈ (attempts w (budgeted req b.milliseconds) method b.milliseconds order).map
        (asked (budgeted req b.milliseconds) method) := by
    intro a hpermits
    cases hpermits with
    | @solve method' b' order t admits made =>
      obtain ⟨hcmd, hb⟩ := h.unique admits.accepted
      obtain rfl := command_inj hcmd
      rw [hb] at made ⊢
      exact ⟨order, admits.checked, admits.plan, List.mem_map_of_mem made⟩
    | create accepted => exact absurd (h.unique accepted).1.symm (command_ne method).1
    | destroy accepted => exact absurd (h.unique accepted).1.symm (command_ne method).2.2
  rw [checked_budgeted] at hm
  rcases hm with ⟨hchecked, rfl⟩ | ⟨hnot, e, rfl⟩
  · rcases resolveRequest_logs w (budgeted req b.milliseconds) method b.milliseconds with
      ⟨order, hplan, hlogs⟩ | ⟨hnone, hlogs⟩
    · rw [enginePlan_budgeted] at hplan
      refine ⟨_, hlogs, fun a => ⟨fun ha => ?_, fun ha => ?_⟩⟩
      · obtain ⟨t, ht, rfl⟩ := List.mem_map.mp ha
        exact .solve ⟨h, hchecked, hplan⟩ ht
      · obtain ⟨order', -, hplan', hmem⟩ := hpermits a ha
        rw [hplan] at hplan'
        cases hplan'
        exact hmem
    · refine asksFor_nothing hlogs fun a ha => ?_
      obtain ⟨order, -, hplan, -⟩ := hpermits a ha
      rw [← enginePlan_budgeted w req b.milliseconds] at hplan
      exact hnone order hplan
  · refine asksFor_nothing (logs_raise e) fun a ha => ?_
    obtain ⟨_, hchecked, -⟩ := hpermits a ha
    exact hnot hchecked

theorem dispatch_asksFor {cmd : Str} {b : Budget w.ceiling} (h : Accepted w req cmd b) :
    AsksFor w req (dispatch w (budgeted req b.milliseconds) b.milliseconds cmd) := by
  have htyped := h.typed.budgeted b.milliseconds
  unfold dispatch
  split
  next hcmd =>
    subst hcmd
    exact asksFor_create h
  next hcreate =>
    split
    next hcmd =>
      subst hcmd
      refine asksFor_nothing (logs_pure _) (not_permits h hcreate commands_apart.2.2.2 ?_)
      exact fun method hcmd => (command_ne method).2.1 hcmd.symm
    next =>
      split
      next hcmd =>
        subst hcmd
        exact asksFor_destroy h
      next hdestroy =>
        split
        next hcmd =>
          subst hcmd
          have hget : Accepted w req (Method.command .get) b := h
          exact asksFor_solve hget (cmdRequestGet_spec w htyped b.milliseconds)
        next hget =>
          split
          next hcmd =>
            subst hcmd
            have hpost : Accepted w req (Method.command .post) b := h
            exact asksFor_solve hpost (cmdRequestPost_spec w htyped b.milliseconds)
          next hpost =>
            refine asksFor_nothing (logs_raise _) (not_permits h hcreate hdestroy ?_)
            intro method hcmd
            cases method with
            | get => exact hget hcmd
            | post => exact hpost hcmd

theorem endpoint_log (w : Surroundings) (req : Fields) :
    (controllerV1Endpoint w req).2 = (controllerV1Handler w req []).2 := by
  unfold controllerV1Endpoint
  split
  next heq => rw [heq]
  next heq => rw [heq]

theorem order_planned (h : enginePlan w req = .ok order) :
    ∃ forced, Planned w.planner forced order := by
  unfold enginePlan at h
  split at h
  next => cases h
  next forced _ =>
    dsimp only at h
    split at h
    next hplan =>
      cases h
      exact ⟨forced, plan_planned hplan⟩
    next => cases h

theorem attempts_ne_nil {method : Method} {n : ℤ} {order : List Sessions.Engine}
    (h : order ≠ []) : attempts w req method n order ≠ [] := by
  obtain ⟨first, rest, rfl⟩ := List.exists_cons_of_ne_nil h
  exact (resolve_tries w.caseMap _ w.now _).tried

/-- The answer to a request that raised. -/
def failedWith (w : Surroundings) (text : Str) : Fields := errorFields text ++ stamps w

/-- A request for an engine that is not admitted raises, and asks for nothing. -/
theorem handler_of_refused {method : Method} (hcmd : getattr req (lit "cmd") = .str method.command)
    (h : ∀ b order, ¬ Admits w req method b order) :
    ∃ e, controllerV1Handler w req = raise e := by
  rcases controllerV1Handler_spec w req with ⟨cmd, b, haccepted, hrun⟩ | ⟨-, hraise⟩
  · obtain rfl : cmd = method.command := Json.str.inj (haccepted.command.symm.trans hcmd)
    have htyped := haccepted.typed.budgeted b.milliseconds
    have hplan : Checked req method → ∀ order, enginePlan w req ≠ .ok order :=
      fun hchecked order hplan => h b order ⟨haccepted, hchecked, hplan⟩
    have hresolve : Checked req method → ∃ e,
        resolveRequest w (budgeted req b.milliseconds) method b.milliseconds = raise e := by
      intro hchecked
      unfold resolveRequest
      rw [enginePlan_budgeted]
      cases he : enginePlan w req with
      | ok order => exact absurd he (hplan hchecked order)
      | error e => exact ⟨e, rfl⟩
    rw [hrun]
    cases method with
    | get =>
      rcases cmdRequestGet_spec w htyped b.milliseconds with ⟨hchecked, hget⟩ | ⟨-, e, hget⟩
      · obtain ⟨e, he⟩ := hresolve (checked_budgeted.mp hchecked)
        exact ⟨e, hget.trans he⟩
      · exact ⟨e, hget⟩
    | post =>
      rcases cmdRequestPost_spec w htyped b.milliseconds with ⟨hchecked, hpost⟩ | ⟨-, e, hpost⟩
      · obtain ⟨e, he⟩ := hresolve (checked_budgeted.mp hchecked)
        exact ⟨e, hpost.trans he⟩
      · exact ⟨e, hpost⟩
  · exact hraise

/-- What the engines come to on an admitted request. -/
def outcome (w : Surroundings) (req : Fields) (method : Method) (b : Budget w.ceiling)
    (order : List Sessions.Engine) : Ended :=
  (resolve w.caseMap (b.milliseconds / 1000) w.now
    (order.map (engineOn w (budgeted req b.milliseconds) method))).1

/-- An admitted request is resolved. -/
theorem handler_of_admitted {method : Method} {b : Budget w.ceiling}
    (h : Admits w req method b order) : controllerV1Handler w req [] =
      (resolved (outcome w req method b order).response,
        (attempts w (budgeted req b.milliseconds) method b.milliseconds order).map
          (asked (budgeted req b.milliseconds) method)) := by
  have hresolve : resolveRequest w (budgeted req b.milliseconds) method b.milliseconds [] =
      (resolved (outcome w req method b order).response,
        (attempts w (budgeted req b.milliseconds) method b.milliseconds order).map
          (asked (budgeted req b.milliseconds) method)) := by
    unfold resolveRequest
    rw [enginePlan_budgeted, h.plan]
    rfl
  have hchecked := checked_budgeted (n := b.milliseconds) |>.mpr h.checked
  rcases controllerV1Handler_spec w req with ⟨cmd, b', haccepted, hrun⟩ | ⟨hnone, -⟩
  · obtain ⟨rfl, hb⟩ := h.accepted.unique haccepted
    have htyped := h.accepted.typed.budgeted b.milliseconds
    rw [hrun, hb, ← hresolve]
    cases method with
    | get =>
      rcases cmdRequestGet_spec w htyped b.milliseconds with ⟨-, hget⟩ | ⟨hnot, -⟩
      · have hdispatch : dispatch w (budgeted req b.milliseconds) b.milliseconds
            (Method.command .get) =
              cmdRequestGet w (budgeted req b.milliseconds) b.milliseconds := by
          obtain ⟨hcreate, hlist, hdestroy⟩ := command_ne .get
          unfold dispatch
          rw [if_neg hcreate, if_neg hlist, if_neg hdestroy]
          exact if_pos rfl
        rw [hdispatch, hget]
      · exact absurd hchecked hnot
    | post =>
      rcases cmdRequestPost_spec w htyped b.milliseconds with ⟨-, hpost⟩ | ⟨hnot, -⟩
      · have hdispatch : dispatch w (budgeted req b.milliseconds) b.milliseconds
            (Method.command .post) =
              cmdRequestPost w (budgeted req b.milliseconds) b.milliseconds := by
          obtain ⟨hcreate, hlist, hdestroy⟩ := command_ne .post
          have hget : Method.command .post ≠ lit "request.get" := by
            intro hsame
            have himpossible : Method.post = Method.get := command_inj hsame
            cases himpossible
          unfold dispatch
          rw [if_neg hcreate, if_neg hlist, if_neg hdestroy, if_neg hget]
          exact if_pos rfl
        rw [hdispatch, hpost]
      · exact absurd hchecked hnot
  · exact absurd h.accepted (hnone _ _)

theorem asked_iff (w : Surroundings) (req : Fields) (a : Action) :
    a ∈ (controllerV1Endpoint w req).2 ↔ Permits w req a := by
  rw [endpoint_log]
  rcases controllerV1Handler_spec w req with ⟨cmd, b, haccepted, hrun⟩ | ⟨hnone, e, hrun⟩
  · obtain ⟨actions, hlogs, hiff⟩ := dispatch_asksFor haccepted
    rw [hrun, hlogs, List.nil_append]
    exact hiff a
  · rw [hrun]
    refine iff_of_false (List.not_mem_nil) fun hpermits => ?_
    cases hpermits with
    | solve admits => exact hnone _ _ admits.accepted
    | create accepted => exact hnone _ _ accepted
    | destroy accepted => exact hnone _ _ accepted

/-- **What the endpoint asks for is exactly what the request permits.** The engines of an
admitted request are tried, the first of them always; a request for an engine that is not
admitted is an error and nothing is asked for. -/
theorem asked_iff_permitted (w : Surroundings) (req : Fields) :
    (∀ a, a ∈ (controllerV1Endpoint w req).2 ↔ Permits w req a) ∧
    (∀ method b order, Admits w req method b order → order ≠ [] ∧ (∀ e ∈ order, e ∈ w.available) ∧
      attempts w (budgeted req b.milliseconds) method b.milliseconds order ≠ []) ∧
    ∀ method : Method, getattr req (lit "cmd") = .str method.command →
      (∀ b order, ¬ Admits w req method b order) →
        ∃ text, controllerV1Endpoint w req = (failedWith w text, []) := by
  refine ⟨asked_iff w req, fun method b order h => ?_, fun method hcmd h => ?_⟩
  · obtain ⟨forced, hplanned⟩ := order_planned h.plan
    exact ⟨hplanned.ne_nil, hplanned.available, attempts_ne_nil hplanned.ne_nil⟩
  · obtain ⟨e, he⟩ := handler_of_refused hcmd h
    refine ⟨e, ?_⟩
    unfold controllerV1Endpoint
    rw [he]
    rfl

end Asked

end Solverr.Controller
