import Solverr.Lib.Url

/-!
# Where a proxy URL points

`reading` is the address as it is written, `[scheme://][userinfo@]host[:port][/...]`, on the
text alone. `urlsplit` agrees where the scheme is there (`urlsplit_reading`). Where it is
not, `urlsplit` takes what stands before the first colon for the scheme, and the netloc is
empty (`urlsplit_bare`).
-/

namespace Solverr.Launch

open Solverr.Lib
open Solverr.Lib.Url

/-! ## The reading -/

/-- The scheme in front of `://`, and what follows it. -/
def splitSlashes (url : Str) : Option Str × Str :=
  match cut ':'.toNat url with
  | (scheme, some (47 :: 47 :: rest)) =>
    if IsScheme scheme then (some scheme, rest) else (none, url)
  | _ => (none, url)

/-- Up to the first delimiter. -/
def authority (rest : Str) : Str := rest.takeWhile fun c => !isDelim c

/-- `host[:port]`: the port is what digits follow the last colon. -/
def splitPort (hostport : Str) : Str × Option Str :=
  match rcut ':'.toNat hostport with
  | (some host, port) =>
    if !port.isEmpty && port.all isDigit then (host, some port) else (hostport, none)
  | (none, _) => (hostport, none)

/-- A name, or an address in brackets. -/
def isHost : Str → Bool
  | [] => false
  | c :: host =>
    if c = '['.toNat then
      match cut ']'.toNat host with
      | (address, some []) => !address.isEmpty && address.all fun c => 32 < c && c != '['.toNat
      | _ => false
    else (c :: host).all fun c =>
      32 < c && c != ':'.toNat && c != '['.toNat && c != ']'.toNat

def readHostport (hostport : Str) : Option (Str × Option Str) :=
  if isHost (splitPort hostport).1 then some (splitPort hostport) else none

/-- The host and the port of a URL. -/
def reading (url : Str) : Option (Str × Option Str) :=
  readHostport (rcut '@'.toNat (authority (splitSlashes url).2)).2

/-! ## A host and a port -/

theorem splitPort_cases (s : Str) :
    (∃ host port, s = host ++ ':'.toNat :: port ∧ port ≠ [] ∧ port.all isDigit = true ∧
      splitPort s = (host, some port)) ∨ splitPort s = (s, none) := by
  by_cases hcolon : ':'.toNat ∈ s
  · obtain ⟨host, port, rfl, hport⟩ := eq_append_last hcolon
    have hsplit : splitPort (host ++ ':'.toNat :: port) =
        if !port.isEmpty && port.all isDigit then (host, some port)
        else (host ++ ':'.toNat :: port, none) := by
      unfold splitPort
      rw [rcut_append host hport]
    by_cases hdigits : (!port.isEmpty && port.all isDigit) = true
    · obtain ⟨hne, hall⟩ := Bool.and_eq_true_iff.mp hdigits
      refine .inl ⟨host, port, rfl, fun hnil => ?_, hall, hsplit.trans (if_pos hdigits)⟩
      rw [hnil] at hne
      cases hne
    · exact .inr (hsplit.trans (if_neg hdigits))
  · refine .inr ?_
    unfold splitPort
    rw [rcut_of_not_mem hcolon]

/-- A host is visible, and does not end in a colon. -/
theorem isHost_spec {host : Str} (h : isHost host = true) :
    (∀ c ∈ host, 32 < c) ∧ ∃ a c, host = a ++ [c] ∧ c ≠ ':'.toNat := by
  cases host with
  | nil => cases h
  | cons c host =>
    rw [isHost] at h
    split at h
    next hbracket =>
      split at h
      next address hcut =>
        obtain ⟨-, hhost⟩ := cut_eq ']'.toNat host
        rw [hcut] at hhost
        obtain ⟨-, hall⟩ := Bool.and_eq_true_iff.mp h
        refine ⟨fun d hd => ?_, c :: address, ']'.toNat, by rw [hhost]; rfl, by decide⟩
        rw [hhost, hbracket, List.mem_cons, List.mem_append, List.mem_singleton] at hd
        rcases hd with rfl | hd | rfl
        · decide
        · have hvisible : 32 < d ∧ d ≠ '['.toNat := by simpa using List.all_eq_true.mp hall d hd
          exact hvisible.1
        · decide
      next => cases h
    next =>
      have hvisible : ∀ d ∈ c :: host, 32 < d ∧ d ≠ ':'.toNat := fun d hd => by
        have hall : ((32 < d ∧ d ≠ ':'.toNat) ∧ d ≠ '['.toNat) ∧ d ≠ ']'.toNat := by
          simpa using List.all_eq_true.mp h d hd
        exact hall.1.1
      refine ⟨fun d hd => (hvisible d hd).1, ?_⟩
      have hne : c :: host ≠ [] := List.cons_ne_nil _ _
      exact ⟨_, _, (List.dropLast_append_getLast hne).symm, (hvisible _ (List.getLast_mem hne)).2⟩

theorem isDigit_spec {c : ℕ} (h : isDigit c = true) : 32 < c ∧ c ≠ ':'.toNat := by
  simp [isDigit] at h ⊢
  omega

/-- So is a host with its port. -/
theorem readHostport_spec {s : Str} {r : Str × Option Str} (h : readHostport s = some r) :
    (∀ c ∈ s, 32 < c) ∧ ∃ a c, s = a ++ [c] ∧ c ≠ ':'.toNat := by
  unfold readHostport at h
  split at h
  next hhost =>
    obtain ⟨host, port, rfl, hne, hall, hsplit⟩ | hsplit := splitPort_cases s
    · rw [hsplit] at hhost
      have hport : ∀ c ∈ port, 32 < c ∧ c ≠ ':'.toNat := fun c hc =>
        isDigit_spec (List.all_eq_true.mp hall c hc)
      constructor
      · intro c hc
        rcases List.mem_append.mp hc with hc | hc
        · exact (isHost_spec hhost).1 c hc
        · rcases List.mem_cons.mp hc with rfl | hc
          · decide
          · exact (hport c hc).1
      · refine ⟨host ++ ':'.toNat :: port.dropLast, port.getLast hne, ?_,
          (hport _ (List.getLast_mem hne)).2⟩
        rw [List.append_assoc, List.cons_append, List.dropLast_append_getLast hne]
    · rw [hsplit] at hhost
      exact isHost_spec hhost
  next => cases h

/-! ## A URL with a scheme -/

section Scheme

variable {t : UrlTables} {scheme netloc rest tail url : Str} {parts : Parts}

theorem authority_append (hn : ∀ c ∈ netloc, isDelim c = false) (ht : IsTail tail) :
    authority (netloc ++ tail) = netloc := by
  have hsplit := splitNetloc_authority hn ht
  have hspan : (netloc ++ tail).span (fun c => !isDelim c) = (netloc, tail) := hsplit
  rw [List.span_eq_takeWhile_dropWhile] at hspan
  exact (Prod.mk.inj hspan).1

theorem not_isDelim_of_mem_authority : ∀ c ∈ authority rest, isDelim c = false :=
  fun c hc => by
    simpa using List.all_eq_true.mp List.all_takeWhile c hc

/-- What follows the authority. -/
theorem authority_tail (rest : Str) : ∃ tail, rest = authority rest ++ tail ∧ IsTail tail := by
  refine ⟨rest.dropWhile fun c => !isDelim c, List.takeWhile_append_dropWhile.symm, ?_⟩
  unfold IsTail
  cases htail : rest.dropWhile fun c => !isDelim c with
  | nil => rfl
  | cons c tail =>
    have hne : rest.dropWhile (fun c => !isDelim c) ≠ [] := htail ▸ List.cons_ne_nil _ _
    have hhead := List.head_dropWhile_not (fun c => !isDelim c) hne
    simpa [htail] using hhead

theorem splitSlashes_scheme (hs : IsScheme scheme) (rest : Str) :
    splitSlashes (scheme ++ ':'.toNat :: 47 :: 47 :: rest) = (some scheme, rest) := by
  have hcolon : ':'.toNat ∉ scheme := fun hc =>
    (isSchemeChar_spec (List.all_eq_true.mp hs.2 _ hc)).2.1 rfl
  unfold splitSlashes
  rw [cut_append hcolon]
  exact if_pos hs

/-- A URL with a scheme, or one that is all behind it. -/
theorem splitSlashes_cases (url : Str) :
    (∃ scheme rest, IsScheme scheme ∧ url = scheme ++ ':'.toNat :: 47 :: 47 :: rest) ∨
      splitSlashes url = (none, url) := by
  unfold splitSlashes
  split
  next scheme rest hcut =>
    obtain ⟨-, hurl⟩ := cut_eq ':'.toNat url
    rw [hcut] at hurl
    split
    next hs => exact .inl ⟨scheme, rest, hs, hurl⟩
    next => exact .inr rfl
  next => exact .inr rfl

theorem reading_withAuthority (hs : IsScheme scheme) (hn : ∀ c ∈ netloc, isDelim c = false)
    (ht : IsTail tail) :
    reading (withAuthority scheme netloc tail) = readHostport (rcut '@'.toNat netloc).2 := by
  unfold reading withAuthority
  rw [show '/'.toNat = 47 from rfl, splitSlashes_scheme hs, authority_append hn ht]

example : reading (.of "socks5://user:p@ss@[::1]:1080/x".toList) =
    some (.of "[::1]".toList, some (.of "1080".toList)) := by decide

/-- What stands behind the last `@` is the same after the cleaning. -/
theorem rcut_removeUnsafe (netloc : Str) :
    (rcut '@'.toNat (removeUnsafe netloc)).2 = removeUnsafe (rcut '@'.toNat netloc).2 := by
  by_cases hat : '@'.toNat ∈ netloc
  · obtain ⟨userinfo, hostport, rfl, hno⟩ := eq_append_last hat
    have hclean : removeUnsafe (userinfo ++ '@'.toNat :: hostport) =
        removeUnsafe userinfo ++ '@'.toNat :: removeUnsafe hostport := by
      rw [removeUnsafe_append]
      rfl
    have hno' : '@'.toNat ∉ removeUnsafe hostport := fun h => hno (List.mem_filter.mp h).1
    rw [hclean, rcut_append _ hno', rcut_append _ hno]
  · have hat' : '@'.toNat ∉ removeUnsafe netloc := fun h => hat (List.mem_filter.mp h).1
    rw [rcut_of_not_mem hat', rcut_of_not_mem hat]

/-- What stands behind the last `@` is part of the whole, and has no `@`. -/
theorem rcut_snd_spec (s : Str) :
    (rcut '@'.toNat s).2 <:+ s ∧ '@'.toNat ∉ (rcut '@'.toNat s).2 := by
  by_cases hat : '@'.toNat ∈ s
  · obtain ⟨userinfo, hostport, rfl, hno⟩ := eq_append_last hat
    rw [rcut_append _ hno]
    exact ⟨⟨userinfo ++ ['@'.toNat], by simp⟩, hno⟩
  · rw [rcut_of_not_mem hat]
    exact ⟨List.suffix_refl _, hat⟩

theorem removeUnsafe_of_visible {s : Str} (h : ∀ c ∈ s, 32 < c) : removeUnsafe s = s := by
  rw [removeUnsafe, List.filter_eq_self]
  intro c hc
  have hvisible := h c hc
  simp
  omega

theorem isScheme_lower (hs : IsScheme scheme) : IsScheme (scheme.map asciiLower) := by
  have hchar : ∀ c, isSchemeChar c = true → isSchemeChar (asciiLower c) = true := fun c hc => by
    unfold asciiLower
    split
    next hup =>
      simp [isSchemeChar, isAlpha] at hup ⊢
      omega
    next => exact hc
  have halpha : ∀ c, isAlpha c = true → isAlpha (asciiLower c) = true := fun c hc => by
    unfold asciiLower
    split
    next hup =>
      simp [isAlpha] at hup ⊢
      omega
    next => exact hc
  constructor
  · cases scheme with
    | nil => cases hs.1
    | cons c scheme => exact halpha c hs.1
  · rw [List.all_map, List.all_eq_true]
    exact fun c hc => hchar c (List.all_eq_true.mp hs.2 c hc)

/-- **`urlsplit` agrees**: a URL with a scheme has the address that its scheme and its netloc
without the userinfo have. -/
theorem urlsplit_reading (hs : IsScheme scheme)
    (hurl : url = scheme ++ ':'.toNat :: 47 :: 47 :: rest) (hsplit : urlsplit t url = some parts)
    {r : Str × Option Str} (hr : reading url = some r) :
    parts.scheme = scheme.map asciiLower ∧ (rcut '@'.toNat parts.netloc).2 <:+: url ∧
      reading (withAuthority parts.scheme (rcut '@'.toNat parts.netloc).2 []) = some r := by
  obtain ⟨tail, hrest, htail⟩ := authority_tail rest
  have hn : ∀ c ∈ authority rest, isDelim c = false := not_isDelim_of_mem_authority
  have hwith : url = withAuthority scheme (authority rest) tail := by
    rw [hurl, withAuthority, ← hrest]
    rfl
  rw [hwith, reading_withAuthority hs hn htail] at hr
  rw [hwith, urlsplit_withAuthority t hs hn htail] at hsplit
  have hparts : parts.scheme = scheme.map asciiLower ∧
      parts.netloc = removeUnsafe (authority rest) := by
    split at hsplit
    next => cases hsplit
    next =>
      cases hsplit
      exact ⟨rfl, rfl⟩
  have hhostport : (rcut '@'.toNat parts.netloc).2 = (rcut '@'.toNat (authority rest)).2 := by
    rw [hparts.2, rcut_removeUnsafe, removeUnsafe_of_visible (readHostport_spec hr).1]
  obtain ⟨hsuffix, hno⟩ := rcut_snd_spec (authority rest)
  refine ⟨hparts.1, ?_, ?_⟩
  · have hin : authority rest <:+: url := by
      refine ⟨scheme ++ [':'.toNat, 47, 47], tail, ?_⟩
      rw [hwith, withAuthority]
      simp
    rw [hhostport]
    exact hsuffix.isInfix.trans hin
  · have hn' : ∀ c ∈ (rcut '@'.toNat (authority rest)).2, isDelim c = false :=
      fun c hc => hn c (hsuffix.subset hc)
    rw [hhostport, hparts.1,
      reading_withAuthority (isScheme_lower hs) hn' (show IsTail [] from rfl),
      rcut_of_not_mem hno]
    exact hr

end Scheme

/-! ## A URL without a scheme -/

section Bare

variable {t : UrlTables} {url : Str}

/-- A text that starts with no delimiter has no netloc. -/
theorem splitNetloc_append {b : Str} {c : ℕ} (h : ∀ d ∈ b ++ [c], isDelim d = false) (rest : Str) :
    (splitNetloc (b ++ c :: rest)).1 = [] := by
  have hfirst : ∀ {d : ℕ}, isDelim d = false → ∀ s, (splitNetloc (d :: s)).1 = [] :=
    fun {d} hd s => by
      unfold splitNetloc
      split
      next heq =>
        obtain ⟨rfl, -⟩ := List.cons.inj heq
        cases hd
      next => rfl
  cases b with
  | nil => exact hfirst (h c (List.mem_singleton_self c)) rest
  | cons d b => exact hfirst (h d (List.mem_cons_self ..)) (b ++ c :: rest)

/-- What `splitScheme` takes for a scheme, of a text with a colon. -/
theorem splitScheme_colon {scheme rest : Str} (h : ':'.toNat ∉ scheme) :
    splitScheme (scheme ++ ':'.toNat :: rest) =
      if IsScheme scheme then (scheme.map asciiLower, rest)
      else ([], scheme ++ ':'.toNat :: rest) := by
  unfold splitScheme
  rw [cut_append h]
  by_cases hs : IsScheme scheme
  · rw [if_pos hs]
    exact if_pos (Bool.and_eq_true_iff.mpr hs)
  · rw [if_neg hs]
    exact if_neg fun hs' => hs (Bool.and_eq_true_iff.mp hs')

theorem splitScheme_all (url : Str) : (splitScheme url).1.all isSchemeChar = true := by
  rcases cut_cases ':'.toNat url with hnone | ⟨scheme, rest, hscheme, rfl⟩
  · unfold splitScheme
    rw [cut_of_not_mem hnone]
    rfl
  · rw [splitScheme_colon hscheme]
    split
    next hs => exact (isScheme_lower hs).2
    next => rfl

/-- An authority without a scheme is none, if it ends in no colon: the part before its first
colon is the scheme, and what follows starts with no delimiter. -/
theorem splitNetloc_bare {a tail : Str} {c : ℕ} (ha : ∀ d ∈ a ++ [c], isDelim d = false)
    (hc : c ≠ ':'.toNat) (ht : IsTail tail) :
    (splitNetloc (splitScheme (a ++ c :: tail)).2).1 = [] := by
  rcases cut_cases ':'.toNat (a ++ c :: tail) with hnone | ⟨scheme, rest, hscheme, heq⟩
  · unfold splitScheme
    rw [cut_of_not_mem hnone]
    exact splitNetloc_append ha tail
  · have hsplit : (splitScheme (a ++ c :: tail)).2 =
        if IsScheme scheme then rest else a ++ c :: tail := by
      rw [heq, splitScheme_colon hscheme]
      split <;> rfl
    rw [hsplit]
    split
    next hs =>
      rcases List.append_eq_append_iff.mp heq with ⟨b, hb, heq⟩ | ⟨b, hb, heq⟩
      · -- the colon is in the tail, and a delimiter before it is in the scheme
        cases b with
        | nil => exact absurd (List.cons.inj heq).1 hc
        | cons d b =>
          obtain ⟨rfl, htail⟩ := List.cons.inj heq
          cases b with
          | nil =>
            rw [htail] at ht
            cases ht
          | cons d b =>
            rw [htail] at ht
            have hin : d ∈ scheme := by simp [hb]
            have hchar := List.all_eq_true.mp hs.2 d hin
            have hdelim : isDelim d = true := ht
            simp [isSchemeChar, isAlpha, isDelim] at hchar hdelim
            omega
      · cases b with
        | nil => exact absurd (List.cons.inj heq).1.symm hc
        | cons d b =>
          obtain ⟨-, rfl⟩ := List.cons.inj heq
          refine splitNetloc_append (fun e he => ha e ?_) tail
          rw [hb, List.append_assoc]
          exact List.mem_append_right _ (List.mem_cons_of_mem _ he)
    next => exact splitNetloc_append ha tail

/-- A scheme and nothing else has no address. -/
theorem reading_schemeOnly {scheme : Str} (h : scheme.all isSchemeChar = true) :
    reading (withAuthority scheme [] []) = none := by
  by_cases hs : IsScheme scheme
  · rw [reading_withAuthority hs (fun c hc => absurd hc List.not_mem_nil) (show IsTail [] from rfl)]
    rfl
  · have hspec : ∀ c ∈ scheme, c ≠ ':'.toNat ∧ c ≠ '@'.toNat ∧ isDelim c = false :=
      fun c hc => by
        have hchar := List.all_eq_true.mp h c hc
        simp [isSchemeChar, isAlpha, isDelim] at hchar ⊢
        omega
    have hcolon : ':'.toNat ∉ scheme := fun hc => (hspec _ hc).1 rfl
    have hat : '@'.toNat ∉ scheme ++ [':'.toNat] := fun hc => by
      rcases List.mem_append.mp hc with hc | hc
      · exact (hspec _ hc).2.1 rfl
      · exact absurd (List.mem_singleton.mp hc) (by decide)
    have hwith : withAuthority scheme [] [] = (scheme ++ [':'.toNat]) ++ [47, 47] := by
      rw [withAuthority, List.append_assoc]
      rfl
    have hsplit : splitSlashes (withAuthority scheme [] []) =
        (none, withAuthority scheme [] []) := by
      unfold splitSlashes withAuthority
      rw [cut_append hcolon]
      exact if_neg hs
    have hdelims : ∀ c ∈ scheme ++ [':'.toNat], isDelim c = false := fun c hc => by
      rcases List.mem_append.mp hc with hc | hc
      · exact (hspec c hc).2.2
      · rw [List.mem_singleton.mp hc]
        rfl
    unfold reading
    rw [hsplit, hwith, authority_append hdelims (show IsTail [47, 47] from rfl),
      rcut_of_not_mem hat]
    -- its one colon is at the end
    cases hread : readHostport (scheme ++ [':'.toNat]) with
    | none => rfl
    | some r =>
      obtain ⟨-, a, c, heq, hc⟩ := readHostport_spec hread
      exact absurd (List.append_inj_right' heq rfl) (by simpa using Ne.symm hc)

/-- What `urlsplit` cleans off leaves a visible end of the authority alone. -/
theorem clean_authority (b tail : Str) {c : ℕ} (hc : 32 < c) :
    ∃ b', removeUnsafe ((b ++ c :: tail).dropWhile (· ≤ 0x20)) = b' ++ c :: removeUnsafe tail ∧
      ∀ d ∈ b', d ∈ b := by
  have hdrop : ∃ b', (b ++ c :: tail).dropWhile (· ≤ 0x20) = b' ++ c :: tail ∧ b' <:+ b := by
    induction b with
    | nil =>
      refine ⟨[], List.dropWhile_cons_of_neg ?_, List.suffix_refl _⟩
      simpa using hc
    | cons d b ih =>
      by_cases hd : d ≤ 0x20
      · obtain ⟨b', hb', hsuffix⟩ := ih
        refine ⟨b', ?_, hsuffix.trans (List.suffix_cons ..)⟩
        rw [List.cons_append, List.dropWhile_cons_of_pos (by simpa using hd), hb']
      · refine ⟨d :: b, ?_, List.suffix_refl _⟩
        rw [List.cons_append, List.dropWhile_cons_of_neg (by simpa using hd)]
  obtain ⟨b', hb', hsuffix⟩ := hdrop
  refine ⟨removeUnsafe b', ?_, fun d hd => hsuffix.subset (List.mem_filter.mp hd).1⟩
  have hkept : c ≠ 9 ∧ c ≠ 13 ∧ c ≠ 10 := by omega
  rw [hb', removeUnsafe_append, removeUnsafe, removeUnsafe,
    List.filter_cons_of_pos (by simpa using hkept)]
  rfl

/-- **`urlsplit` finds no address** in a URL that has one and no scheme. -/
theorem urlsplit_bare (hnone : splitSlashes url = (none, url)) {r : Str × Option Str}
    (hr : reading url = some r) :
    ∃ parts, urlsplit t url = some parts ∧ parts.netloc = [] ∧
      parts.scheme.all isSchemeChar = true := by
  unfold reading at hr
  rw [hnone] at hr
  obtain ⟨-, a, c, hend, hc⟩ := readHostport_spec hr
  have hvisible : 32 < c := by
    refine (readHostport_spec hr).1 c ?_
    rw [hend]
    exact List.mem_append_right _ (List.mem_singleton_self c)
  obtain ⟨b, hb⟩ : ∃ b, authority url = b ++ [c] := by
    obtain ⟨userinfo, huser⟩ := (rcut_snd_spec (authority url)).1
    refine ⟨userinfo ++ a, ?_⟩
    rw [← huser, hend, List.append_assoc]
  obtain ⟨tail, hurl, htail⟩ := authority_tail url
  have hdelims : ∀ d ∈ b ++ [c], isDelim d = false := hb ▸ not_isDelim_of_mem_authority
  rw [hb, List.append_assoc, List.singleton_append] at hurl
  obtain ⟨b', hclean, hsub⟩ := clean_authority b tail hvisible
  have hnetloc : (splitNetloc (splitScheme (b' ++ c :: removeUnsafe tail)).2).1 = [] := by
    refine splitNetloc_bare (fun d hd => hdelims d ?_) hc htail.removeUnsafe
    rcases List.mem_append.mp hd with hd | hd
    · exact List.mem_append_left _ (hsub d hd)
    · exact List.mem_append_right _ hd
  unfold urlsplit
  rw [hurl]
  simp only [hclean, hnetloc]
  exact ⟨_, rfl, rfl, splitScheme_all _⟩

end Bare

end Solverr.Launch
