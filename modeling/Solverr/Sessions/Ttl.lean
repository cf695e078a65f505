import Solverr.Engines.Solve
import Solverr.Launch.LeftBehind
import Solverr.Sessions.Sequential

/-!
# How old a session's browser may be

`session_ttl_minutes` goes through three layers: `_validate_session_ttl` at the boundary,
the `timedelta` that either engine makes of it, and the comparison in `SessionStore.get`.
The boundary takes every number from zero on. An engine takes zero for no number at all, and
its `timedelta` has no room for a thousand million days. `ttl_honoured_iff`: between the two
a browser is rebuilt exactly when it is older than that.
-/

namespace Solverr.Sessions

open Solverr.Lib (Json Str Procedure)
open Solverr.Lib.Procedure
open Solverr.Engines (Handed Thrown sessionTtl timedeltaMinutes takeSession remainingShare)

/-! ## The boundary -/

/-- `"Request parameter 'session_ttl_minutes' must be a positive number of minutes."` -/
def notMinutes : Str :=
  .of ("Request parameter 'session_ttl_minutes' must be a positive number of minutes.").toList

/-- `_validate_session_ttl(req)`, of the value in the request: a missing one is `null`. -/
def validateSessionTtl : Json → Except Str Unit
  | .null => .ok ()
  | .int ttl => if ttl < 0 then .error notMinutes else .ok ()
  | _ => .error notMinutes

theorem validateSessionTtl_ok_iff (ttl : ℤ) : validateSessionTtl (.int ttl) = .ok () ↔ 0 ≤ ttl := by
  unfold validateSessionTtl
  dsimp only
  split
  next h => exact iff_of_false nofun (not_le.mpr h)
  next h => exact iff_of_true rfl (not_lt.mp h)

/-! ## A session that nobody holds -/

/-- Minutes, in the microseconds of `timedelta`. -/
def minutes (n : ℤ) : ℤ := n * 60000000

/-- A session's id among the pools. -/
def poolKey (id : Str) : String := String.ofList (id.map Char.ofNat)

/-- A browser, by its session, and when it was built. -/
structure Browser where
  session : Ref
  builtAt : Int

/-- What a request meets that names a session which is there and which no other request
holds: the stores, what the two calls of `create` would meet, the clock at the expiry check,
and what a launch raises that fails. -/
structure Visit (P : Type) (e : Engine) where
  st : Stores P
  id : Str
  s : Ref
  named : id.isEmpty = false
  pooled : (st.pools e).find? (poolKey id) = some s
  free : (st.heap s).inUse = 0
  first : Launch
  checkedAt : Int
  rebuild : Launch
  failed : Thrown

namespace Visit

variable {P : Type} {e : Engine} (v : Visit P e)

/-- How old the session is at the expiry check. -/
def age : ℤ := (v.st.heap v.s).lifetime v.checkedAt

/-- The browser of the session. -/
def standing : Browser := ⟨v.s, (v.st.heap v.s).createdAt⟩

/-- The browser that a rebuild would build. -/
def renewed : Browser := ⟨v.st.built, v.rebuild.builtAt⟩

/-- `self._sessions.get(session_id, ttl, proxy)` -/
def get (id : Str) (ttl : Option ℤ) (proxy : Option P) :
    Except Thrown (Handed Ref Browser P) :=
  let d := v.st.get e (poolKey id) ttl proxy v.first v.checkedAt v.rebuild
  match d.val with
  | some (s, fresh) => .ok ⟨s, fresh, ⟨s, (d.st.heap s).createdAt⟩, (d.st.heap s).proxy⟩
  | none => .error v.failed

/-- The stores at the expiry check: the session is claimed. -/
def claimed : Stores P :=
  { v.st with memory := (recallProxy v.st.memory (poolKey v.id)).2 }.claim v.s v.first.claimedAt

theorem acquire_eq (proxy : Option P) :
    (v.st.acquire e (poolKey v.id) proxy v.first).st = v.claimed ∧
      (v.st.acquire e (poolKey v.id) proxy v.first).val = some (v.s, false) := by
  unfold Stores.acquire Stores.create
  dsimp only
  rw [v.pooled]
  exact ⟨rfl, rfl⟩

theorem claimed_createdAt : (v.claimed.heap v.s).createdAt = (v.st.heap v.s).createdAt := by
  unfold claimed Stores.claim
  rw [Stores.modify_heap, if_pos rfl]

/-- The session expires exactly when it is older: its one holder is the request. -/
theorem claimed_expired (ttl : Option ℤ) :
    v.claimed.expired v.s false ttl v.checkedAt = true ↔ ∃ t ∈ ttl, t < v.age := by
  have hone : (v.claimed.heap v.s).inUse = 1 := by
    unfold claimed
    rw [Stores.claim_inUse, if_pos rfl]
    exact congrArg (· + 1) v.free
  have hage : (v.claimed.heap v.s).lifetime v.checkedAt = v.age := by
    unfold age Session.lifetime
    rw [v.claimed_createdAt]
  unfold Stores.expired
  cases ttl with
  | none => exact iff_of_false nofun fun ⟨_, h, _⟩ => nomatch h
  | some t =>
    dsimp only
    rw [hone, hage]
    simp

theorem get_eq (id : Str) (hid : id = v.id) (ttl : Option ℤ) (proxy : Option P) :
    v.get id ttl proxy =
      match (v.claimed.renew e (poolKey v.id) ttl v.s false v.checkedAt v.rebuild).val with
      | some (s, fresh) =>
        let st := (v.claimed.renew e (poolKey v.id) ttl v.s false v.checkedAt v.rebuild).st
        .ok ⟨s, fresh, ⟨s, (st.heap s).createdAt⟩, (st.heap s).proxy⟩
      | none => .error v.failed := by
  obtain ⟨hst, hval⟩ := v.acquire_eq proxy
  rw [hid, get, Stores.get]
  dsimp only
  rw [hval, hst]

/-- **Reuse.** A session that is not older is handed over as it is. -/
theorem get_reused {ttl : Option ℤ} (h : ¬ ∃ t ∈ ttl, t < v.age) (proxy : Option P) :
    ∃ handed, v.get v.id ttl proxy = .ok handed ∧ handed.session = v.s ∧
      handed.payload = v.standing := by
  have hkept : v.claimed.renew e (poolKey v.id) ttl v.s false v.checkedAt v.rebuild =
      ⟨v.claimed, [], some (v.s, false)⟩ := by
    unfold Stores.renew
    exact if_neg ((v.claimed_expired ttl).not.mpr h)
  rw [v.get_eq v.id rfl, hkept]
  refine ⟨_, rfl, rfl, ?_⟩
  show (⟨v.s, (v.claimed.heap v.s).createdAt⟩ : Browser) = ⟨v.s, (v.st.heap v.s).createdAt⟩
  rw [v.claimed_createdAt]

/-- **Rebuild.** An older one is replaced, unless the launch fails. -/
theorem get_rebuilt {ttl : Option ℤ} (h : ∃ t ∈ ttl, t < v.age) (proxy : Option P) :
    if v.rebuild.builds then
      ∃ handed, v.get v.id ttl proxy = .ok handed ∧ handed.session = v.st.built ∧
        handed.payload = v.renewed
    else v.get v.id ttl proxy = .error v.failed := by
  let cleared := (v.claimed.pop e [poolKey v.id] .expiry).teardown v.s
  have hgone : (cleared.pools e).find? (poolKey v.id) = none := by
    show ((v.claimed.pop e [poolKey v.id] .expiry).pools e).find? (poolKey v.id) = none
    rw [Stores.find?_pop, if_pos ⟨rfl, List.mem_singleton_self _⟩]
  have hrenew : v.claimed.renew e (poolKey v.id) ttl v.s false v.checkedAt v.rebuild =
      cleared.create e (poolKey v.id) (v.claimed.heap v.s).proxy true v.rebuild := by
    unfold Stores.renew
    exact if_pos ((v.claimed_expired ttl).mpr h)
  rw [v.get_eq v.id rfl, hrenew]
  unfold Stores.create
  rw [hgone]
  cases v.rebuild.builds with
  | false => rfl
  | true =>
    refine ⟨_, rfl, rfl, ?_⟩
    -- the claim leaves the moment of the build alone
    have hbuilt : ((((cleared.build (poolKey v.id) (v.claimed.heap v.s).proxy
        v.rebuild.builtAt).insert e (poolKey v.id) cleared.built).claim cleared.built
        v.rebuild.claimedAt).heap cleared.built).createdAt = v.rebuild.builtAt := by
      unfold Stores.claim
      rw [Stores.modify_heap, if_pos rfl]
      show ((cleared.build _ _ _).heap cleared.built).createdAt = _
      rw [Stores.build_heap, if_pos rfl]
    exact congrArg (Browser.mk v.st.built) hbuilt

end Visit

/-! ## The property -/

section Property

variable {P G R : Type} {e : Engine}

/-- What the API promises of the browser that a request is given: it is built anew exactly
where the one of the session is older than so many minutes, and no other is older. -/
structure Promised (v : Visit P e) (n : ℤ) (b : Browser) : Prop where
  rebuilt : minutes n < v.age → b = v.renewed
  reused : v.age ≤ minutes n → b = v.standing
  young : b = v.renewed ∨ v.checkedAt - b.builtAt ≤ minutes n

/-- A failure that is none of the number's: the launch of the new browser raised, or the
session's lock was not had. -/
inductive Excused (v : Visit P e) (n : ℤ) (acquire : Ref → Except Thrown Bool) : Prop
  | launch (old : minutes n < v.age) (fails : v.rebuild.builds = false)
  | lock (b : Browser) (promised : Promised v n b) (fails : acquire b.session ≠ .ok true)

/-- A request that gets what the API promises, or fails for another reason. -/
def Kept (v : Visit P e) (n : ℤ) (acquire : Ref → Except Thrown Bool) :
    Except Thrown Browser → Prop
  | .ok b => Promised v n b
  | .error _ => Excused v n acquire

/-- **The property**, for a number of minutes and an age of the session, of either engine. -/
structure Honoured (P G R : Type) (n age : ℤ) : Prop where
  chrome : ∀ v : Visit P .chrome, v.age = age →
    ∀ w : Engines.Chrome.World Ref Browser P R, w.get = v.get → ∀ proxy timeout,
      Kept v n (fun s => w.acquire s (remainingShare w.started timeout w.waiting))
        ((Engines.Chrome.driverFor w ⟨some v.id, some n, proxy⟩ timeout .start).1.map Prod.fst)
  stealth : ∀ v : Visit P .stealth, v.age = age →
    ∀ w : Engines.Stealth.World Ref Browser P G R, w.get = v.get → ∀ proxy timeout,
      Kept v n (fun s => w.acquire s (remainingShare w.started timeout w.waiting))
        (Engines.Stealth.contextFor w ⟨some v.id, some n, proxy⟩ timeout .start).1

/-! ## Where it holds -/

/-- The `timedelta` of the number is the number of minutes. -/
theorem sessionTtl_of_lt {n : ℤ} (hpos : 0 < n) (hlt : n < 1440 * 10 ^ 9) (overflow : Str) :
    sessionTtl overflow (some n) = .ok (some (minutes n)) := by
  have hfits : ¬ Engines.maxDays < |n / 1440| := by
    unfold Engines.maxDays
    rw [abs_of_nonneg (by omega)]
    omega
  have hdelta : timedeltaMinutes n = some (minutes n) := if_neg hfits
  unfold sessionTtl
  dsimp only
  rw [if_neg hpos.ne', hdelta]

/-- There is no room for more. -/
theorem sessionTtl_of_le {n : ℤ} (hle : 1440 * 10 ^ 9 ≤ n) (overflow : Str) :
    sessionTtl overflow (some n) = .error (.exception overflow) := by
  have hfull : Engines.maxDays < |n / 1440| := by
    unfold Engines.maxDays
    rw [abs_of_nonneg (by omega)]
    omega
  have hdelta : timedeltaMinutes n = none := if_pos hfull
  unfold sessionTtl
  dsimp only
  rw [if_neg (by omega), hdelta]

/-- Where the session is not older, its browser is what is promised. -/
theorem promised_standing {v : Visit P e} {n : ℤ} (h : v.age ≤ minutes n) :
    Promised v n v.standing :=
  ⟨fun hold => absurd hold (not_lt.mpr h), fun _ => rfl, .inr h⟩

theorem promised_renewed {v : Visit P e} {n : ℤ} (h : minutes n < v.age) :
    Promised v n v.renewed :=
  ⟨fun _ => rfl, fun hyoung => absurd hyoung (not_le.mpr h), .inl rfl⟩

theorem lockSession_meets (acquired : Except Thrown Bool) (id : Str) (s : Ref) :
    Meets (fun _ : Engines.Frame Ref Browser => True) (Engines.lockSession acquired id s)
      (fun _ _ => True) fun _ _ => acquired ≠ .ok true := by
  unfold Engines.lockSession
  refine meets_answer_bind (fun b hb => .ite (fun _ => ?_) fun hfalse => ?_) fun x hx _ _ => ?_
  · exact meets_change fun _ _ => trivial
  · refine meets_raise fun _ _ => ?_
    rw [hb]
    exact fun htrue => hfalse (Except.ok.inj htrue)
  · rw [hx]
    exact nofun

/-- **A session that is taken**: where the store is asked for the number of minutes, the
browser is the promised one. -/
theorem takeSession_meets (v : Visit P e) {n : ℤ} {overflow : Str} {ttl : Option ℤ}
    (httl : sessionTtl overflow (some n) = .ok ttl)
    (hdue : (∃ t ∈ ttl, t < v.age) ↔ minutes n < v.age) (acquire : Ref → Except Thrown Bool)
    (proxy : Option P) :
    Meets (fun _ => True)
      (takeSession overflow v.get acquire ⟨some v.id, some n, proxy⟩ v.id)
      (fun handed _ => Promised v n handed.payload) fun _ _ => Excused v n acquire := by
  have hget : (∃ handed, v.get v.id ttl proxy = .ok handed ∧
      handed.session = handed.payload.session ∧ Promised v n handed.payload) ∨
      (∃ x, v.get v.id ttl proxy = .error x) ∧ Excused v n acquire := by
    by_cases hold : minutes n < v.age
    · have hrebuilt := v.get_rebuilt (hdue.mpr hold) proxy
      cases hbuilds : v.rebuild.builds with
      | false =>
        rw [hbuilds, if_neg Bool.false_ne_true] at hrebuilt
        exact .inr ⟨⟨_, hrebuilt⟩, .launch hold hbuilds⟩
      | true =>
        rw [hbuilds, if_pos rfl] at hrebuilt
        obtain ⟨handed, hhanded, hsession, hpayload⟩ := hrebuilt
        refine .inl ⟨handed, hhanded, ?_, ?_⟩
        · rw [hsession, hpayload]
          rfl
        · rw [hpayload]
          exact promised_renewed hold
    · obtain ⟨handed, hhanded, hsession, hpayload⟩ := v.get_reused (hdue.not.mpr hold) proxy
      refine .inl ⟨handed, hhanded, ?_, ?_⟩
      · rw [hsession, hpayload]
        rfl
      · rw [hpayload]
        exact promised_standing (not_lt.mp hold)
  unfold takeSession
  rw [httl, answer_ok_bind]
  rcases hget with ⟨handed, hhanded, hsession, hpromised⟩ | ⟨⟨x, hx⟩, hexcused⟩
  · rw [hhanded, answer_ok_bind]
    refine meets_change_bind (fun _ => True) (fun _ _ => trivial) ?_
    refine Meets.bind ((lockSession_meets _ v.id handed.session).weaken (fun _ _ => trivial)
      (fun _ _ _ => trivial) fun _ _ hlock => ?_) fun _ => ?_
    · exact .lock handed.payload hpromised (hsession ▸ hlock)
    · exact meets_change_bind (fun _ => True) (fun _ _ => trivial)
        (meets_pure fun _ _ => hpromised)
  · rw [hx, answer_error_bind]
    exact meets_raise fun _ _ => hexcused

/-- A way to the browser that keeps the promise, begun with nothing. -/
theorem kept_of_meets {α : Type} {v : Visit P e} {n : ℤ} {acquire : Ref → Except Thrown Bool}
    {m : Procedure (Engines.Frame Ref Browser) Thrown α} (browser : α → Browser)
    (h : Meets (fun _ => True) m (fun a _ => Promised v n (browser a))
      fun _ _ => Excused v n acquire) :
    Kept v n acquire ((m .start).1.map browser) := by
  have hends := h .start trivial
  generalize m .start = x at hends ⊢
  obtain ⟨x | a, f⟩ := x
  · exact hends
  · exact hends

/-- **Both engines** keep what the store does with the number of minutes. -/
theorem honoured_of_due {n age : ℤ} (h : ∀ overflow, ∃ ttl,
    sessionTtl overflow (some n) = .ok ttl ∧ ((∃ t ∈ ttl, t < age) ↔ minutes n < age)) :
    Honoured P G R n age := by
  have hnamed : ∀ {e : Engine} (v : Visit P e) (proxy : Option P),
      Engines.Asked.named ⟨some v.id, some n, proxy⟩ = some v.id := fun v proxy => by
    simp [Engines.Asked.named, v.named]
  constructor
  · rintro v rfl w hw proxy timeout
    obtain ⟨ttl, httl, hdue⟩ := h w.overflow
    have htaken := takeSession_meets v httl hdue
      (fun s => w.acquire s (remainingShare w.started timeout w.waiting)) proxy
    refine kept_of_meets Prod.fst ?_
    unfold Engines.Chrome.driverFor
    rw [hnamed]
    unfold Engines.Chrome.sessionDriver
    rw [hw]
    exact htaken.bind fun handed => meets_pure fun _ hpromised => hpromised
  · rintro v rfl w hw proxy timeout
    obtain ⟨ttl, httl, hdue⟩ := h w.overflow
    have htaken := takeSession_meets v httl hdue
      (fun s => w.acquire s (remainingShare w.started timeout w.waiting)) proxy
    have hmeets : Meets (fun _ => True)
        (Engines.Stealth.contextFor w ⟨some v.id, some n, proxy⟩ timeout)
        (fun b _ => Promised v n (id b)) fun _ _ => Excused v n
          fun s => w.acquire s (remainingShare w.started timeout w.waiting) := by
      unfold Engines.Stealth.contextFor
      rw [hnamed]
      unfold Engines.Stealth.sessionContext
      rw [hw]
      exact htaken.bind fun handed => meets_pure fun _ hpromised => hpromised
    have hkept := kept_of_meets id hmeets
    rwa [Except.map_id] at hkept

/-! ## Where it does not -/

/-- A session of this age, alone in the store, whose every launch works. -/
def lone (e : Engine) (age : ℤ) : Visit P e where
  st := ((Stores.init.build (poolKey [97]) none 0).insert e (poolKey [97]) 0)
  id := [97]
  s := 0
  named := rfl
  pooled := by rw [Stores.find?_insert, if_pos ⟨rfl, rfl⟩]
  free := by
    show ((Stores.init.build (poolKey [97]) none 0).heap 0).inUse = 0
    rw [Stores.build_heap]
    rfl
  first := ⟨true, age, age⟩
  checkedAt := age
  rebuild := ⟨true, age, age⟩
  failed := .exception []

theorem lone_age (age : ℤ) : (lone e age : Visit P e).age = age := by
  unfold Visit.age Session.lifetime
  show age - ((Stores.init.build (poolKey [97]) none 0 : Stores P).heap 0).createdAt = age
  rw [Stores.build_heap]
  exact Int.sub_zero age

/-- A request whose lock is free. -/
def freeWorld (v : Visit P .chrome) : Engines.Chrome.World Ref Browser P R where
  started := 0
  waiting := 0
  opened := 0
  zoned := 0
  overflow := []
  shown _ := []
  get := v.get
  acquire _ _ := .ok true
  launch := Launch.calmWorld
  proxyValue _ := .null
  driver _ := v.standing
  launchText _ := []
  applyTimezone _ _ := .ok ()
  evilLogic _ _ := .error .timedOut
  responseHeaders := false
  nt := false

theorem driverFor_free (v : Visit P .chrome) (n : ℤ) :
    (Engines.Chrome.driverFor (freeWorld v : Engines.Chrome.World Ref Browser P R)
      ⟨some v.id, some n, none⟩ 1 .start).1 =
      match sessionTtl [] (some n) with
      | .ok ttl => (v.get v.id ttl none).map fun handed => (handed.payload, handed.proxy)
      | .error x => .error x := by
  have hnamed : Engines.Asked.named (⟨some v.id, some n, none⟩ : Engines.Asked P) = some v.id := by
    simp [Engines.Asked.named, v.named]
  unfold Engines.Chrome.driverFor
  rw [hnamed]
  unfold Engines.Chrome.sessionDriver takeSession
  show (((do
    let ttl ← answer (sessionTtl [] (some n))
    _) >>= _) _).1 = _
  cases sessionTtl [] (some n) with
  | error x => rfl
  | ok ttl =>
    rw [answer_ok_bind]
    dsimp only [freeWorld]
    cases v.get v.id ttl none <;> rfl

/-- A session with an age is reused for zero, and too many minutes fail the request. -/
theorem bounds_of_honoured {n age : ℤ} (hn : 0 ≤ n) (h : Honoured P G R n age) :
    0 < n ∧ n < 1440 * 10 ^ 9 ∨ n = 0 ∧ age ≤ 0 := by
  have hkept := h.chrome (lone .chrome age) (lone_age age) (freeWorld _) rfl none 1
  rw [driverFor_free] at hkept
  rcases hn.eq_or_lt with rfl | hpos
  · refine .inr ⟨rfl, not_lt.mp fun hage => ?_⟩
    have hyoung : ¬ ∃ t ∈ (none : Option ℤ), t < (lone .chrome age : Visit P .chrome).age :=
      fun ⟨_, h, _⟩ => nomatch h
    obtain ⟨handed, hhanded, -, hpayload⟩ := Visit.get_reused _ hyoung none
    have hzero : sessionTtl [] (some 0) = .ok none := rfl
    rw [hzero] at hkept
    dsimp only at hkept
    rw [hhanded] at hkept
    have hpromised : Promised (lone .chrome age : Visit P .chrome) 0 handed.payload := hkept
    have hold : minutes 0 < (lone .chrome age : Visit P .chrome).age := by
      rw [lone_age]
      exact hage
    have hsame := hpayload.symm.trans (hpromised.rebuilt hold)
    have hrefs : (0 : Ref) = 1 := congrArg Browser.session hsame
    cases hrefs
  · refine .inl ⟨hpos, not_le.mp fun hle => ?_⟩
    rw [sessionTtl_of_le hle] at hkept
    cases hkept with
    | launch _ hfails => cases hfails
    | lock _ _ hfails => exact hfails rfl

/-- **A number of minutes is kept** between the two bounds, and zero by a session that has no
age yet. -/
theorem ttl_honoured_iff (n age : ℤ) (haccepted : validateSessionTtl (.int n) = .ok ()) :
    Honoured P G R n age ↔ 0 < n ∧ n < 1440 * 10 ^ 9 ∨ n = 0 ∧ age ≤ 0 := by
  refine ⟨bounds_of_honoured ((validateSessionTtl_ok_iff n).mp haccepted), ?_⟩
  rintro (⟨hpos, hlt⟩ | ⟨rfl, hage⟩)
  · refine honoured_of_due fun overflow => ⟨_, sessionTtl_of_lt hpos hlt overflow, ?_⟩
    simp
  · refine honoured_of_due fun overflow => ⟨none, rfl, ?_⟩
    have hyoung : ¬ minutes 0 < age := by
      unfold minutes
      omega
    exact iff_of_false (fun ⟨_, h, _⟩ => nomatch h) hyoung

end Property

/-- Half an hour. -/
theorem ttl_honoured_half_hour : Honoured Unit Unit Unit 30 3600000000 :=
  (ttl_honoured_iff 30 3600000000 rfl).mpr (.inl ⟨by decide, by decide⟩)

/-- Both are accepted: a session that is two hours old is reused for zero minutes, and no
session is had for a thousand million days. -/
theorem bounds_accepted_and_broken :
    (validateSessionTtl (.int 0) = .ok () ∧ ¬ Honoured Unit Unit Unit 0 7200000000) ∧
      validateSessionTtl (.int 1440000000000) = .ok () ∧
        ¬ Honoured Unit Unit Unit 1440000000000 0 := by
  refine ⟨⟨rfl, fun h => ?_⟩, rfl, fun h => ?_⟩
  · rcases bounds_of_honoured (by decide) h with ⟨hpos, -⟩ | ⟨-, hage⟩
    · exact absurd hpos (by decide)
    · exact absurd hage (by decide)
  · rcases bounds_of_honoured (by decide) h with ⟨-, hlt⟩ | ⟨hzero, -⟩
    · exact absurd hlt (by decide)
    · exact absurd hzero (by decide)

end Solverr.Sessions
