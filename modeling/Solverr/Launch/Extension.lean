import Mathlib.Data.List.Forall2
import Solverr.Launch.ProxyServer
import Solverr.Lib.JsonPlain

/-!
# The program of the proxy extension

`background.js` is a fixed text with five holes, and `json.dumps` of a value in each. The
values come from the proxy of a request, which anybody who can reach the port chooses.
`readProgram` is a reader of the fixed text that takes a JSON value at each hole: it reads
back exactly the values (`proxy_extension_holds_data`), so none of them ends its literal early
and goes on as program text.

The scheme and the host are taken out of the URL, where they are any code points at all. A
high surrogate that stands before a low one there is read as the code point the two are; it
is the same code units to the browser.
-/

namespace Solverr.Launch

open Solverr.Lib Solverr.Lib.Url
open Solverr.Lib.Procedure
open Solverr.Lib.JsonText (Floats dumps quoted after scanValue joined Plain Stops Printable)

/-! ## Texts with holes -/

/-- A text and what stands in each of its holes: every hole is behind a gap. -/
def filled (last : Str) : List (Str × Str) → Str
  | [] => last
  | (gap, literal) :: holes => gap ++ (literal ++ filled last holes)

/-- The values in the holes of a text with these gaps. -/
def readHoles (fl : Floats) (last : Str) : List Str → Str → Option (List Json)
  | [], s => if s = last then some [] else none
  | gap :: gaps, s =>
    match (after gap s).bind fun t => scanValue fl t.length t with
    | none => none
    | some (v, s) => (readHoles fl last gaps s).map (v :: ·)

/-- The literal is read as the value, where nothing goes on with it. -/
def ReadsAs (fl : Floats) (literal : Str) (v : Json) : Prop :=
  ∀ n s, literal.length ≤ n → Stops s → scanValue fl n (literal ++ s) = some (v, s)

theorem readsAs_dumps (fl : Floats) {v : Json} (h : Plain v) : ReadsAs fl (dumps fl v) v :=
  fun n s hn hs => JsonText.scanValue_dumps fl n v h hn s hs

theorem readsAs_quoted (fl : Floats) {s : Str} (h : ∀ c ∈ s, c < 0x110000) :
    ReadsAs fl (quoted s) (.str (joined s)) := by
  intro n t hn _
  have hpos : n ≠ 0 := by
    rintro rfl
    exact absurd hn (Nat.not_succ_le_zero _)
  obtain ⟨n, rfl⟩ := Nat.exists_eq_succ_of_ne_zero hpos
  exact JsonText.scanValue_quoted n h t

/-- A gap that no numeral goes on into. -/
def Closes (gap : Str) : Prop := ∃ c t, gap = c :: t ∧ Stops [c]

theorem Closes.stops {gap : Str} (h : Closes gap) (s : Str) : Stops (gap ++ s) := by
  obtain ⟨c, t, rfl, hc⟩ := h
  exact JsonText.stops_cons (hc.digit c rfl) (hc.rest c rfl) (t ++ s)

theorem stops_filled {last : Str} (hlast : Closes last) : ∀ {holes : List (Str × Str)},
    (∀ hole ∈ holes, Closes hole.1) → Stops (filled last holes)
  | [], _ => by simpa [filled] using hlast.stops []
  | (gap, literal) :: holes, h => (h _ (List.mem_cons_self ..)).stops _

/-- **Every hole is read as its own value**, and the text between them is the gaps. -/
theorem readHoles_filled (fl : Floats) {last : Str} (hlast : Closes last) :
    ∀ {gaps literals : List Str} {reads : List Json}, gaps.length = literals.length →
      (∀ gap ∈ gaps, Closes gap) → List.Forall₂ (ReadsAs fl) literals reads →
      readHoles fl last gaps (filled last (gaps.zip literals)) = some reads
  | [], _, _, _, _, .nil => if_pos rfl
  | gap :: gaps, literal :: literals, v :: reads, hlength, hgaps, .cons hread hreads => by
    have hlength' : gaps.length = literals.length := Nat.succ_inj.mp hlength
    have hrest := readHoles_filled fl hlast hlength'
      (fun g hg => hgaps g (List.mem_cons_of_mem gap hg)) hreads
    have hstops : Stops (filled last (gaps.zip literals)) := by
      refine stops_filled hlast fun hole hmem => ?_
      exact hgaps hole.1 (List.mem_cons_of_mem gap (List.of_mem_zip hmem).1)
    have hvalue := hread (literal ++ filled last (gaps.zip literals)).length _
      (by rw [List.length_append]; exact Nat.le_add_right _ _) hstops
    simp only [List.zip_cons_cons, filled, readHoles, JsonText.after_append, Option.bind_some]
    rw [hvalue]
    simp only [hrest, Option.map_some]

/-- Lines of printable ASCII. -/
def AsciiLines (s : Str) : Prop := ∀ c ∈ s, c = 0x0A ∨ 0x20 ≤ c ∧ c ≤ 0x7E

theorem asciiLines_filled {last : Str} (hlast : AsciiLines last) : ∀ {holes : List (Str × Str)},
    (∀ hole ∈ holes, AsciiLines hole.1 ∧ Printable hole.2) → AsciiLines (filled last holes)
  | [], _ => hlast
  | (gap, literal) :: holes, h => by
    obtain ⟨hgap, hliteral⟩ := h _ (List.mem_cons_self ..)
    have hrest := asciiLines_filled hlast fun hole hmem => h hole (List.mem_cons_of_mem _ hmem)
    intro c hc
    rcases List.mem_append.mp hc with hc | hc
    · exact hgap c hc
    rcases List.mem_append.mp hc with hc | hc
    · exact Or.inr (hliteral c hc)
    · exact hrest c hc

/-! ## `background.js` -/

/-- Lines of a text. -/
def lines (ls : List String) : Str := [0x0A].intercalate (ls.map flag)

/-- The text before each of the five values. -/
def gaps : List Str :=
  [lines ["", "    var config = \x7b", "        mode: \"fixed_servers\",", "        rules: \x7b",
      "            singleProxy: \x7b", "                scheme: "],
    lines [",", "                host: "],
    lines [",", "                port: "],
    lines ["", "            \x7d,", "            bypassList: [\"localhost\"]", "        \x7d",
      "    \x7d;", "",
      "    chrome.proxy.settings.set(\x7bvalue: config, scope: \"regular\"\x7d, " ++
        "function() \x7b\x7d);",
      "", "    function callbackFn(details) \x7b", "        return \x7b",
      "            authCredentials: \x7b", "                username: "],
    lines [",", "                password: "]]

/-- The text after the last one. -/
def ending : Str :=
  lines ["", "            \x7d", "        \x7d;", "    \x7d", "",
    "    chrome.webRequest.onAuthRequired.addListener(", "        callbackFn,",
    "        \x7b urls: [\"<all_urls>\"] \x7d,", "        ['blocking']", "    );", "    "]

namespace Background

/-- The five values. -/
def values (b : Background) : List Json :=
  [.str b.scheme, (b.host.map Json.str).getD .null,
    (b.port.map fun port => Json.int port).getD .null, b.username, b.password]

/-- `background_js` -/
def program (fl : Floats) (b : Background) : Str :=
  filled ending (gaps.zip (b.values.map (dumps fl)))

end Background

/-- The values of a program. -/
def readProgram (fl : Floats) (s : Str) : Option (List Json) := readHoles fl ending gaps s

/-! ## What is written -/

theorem gaps_close : Closes ending ∧ ∀ gap ∈ gaps, Closes gap := by
  have hline : Stops [0x0A] := JsonText.stops_cons (by decide) (by decide) []
  have hcomma : Stops [0x2C] := JsonText.stops_cons (by decide) (by decide) []
  have hending : ending.head? = some 0x0A := by decide +kernel
  have hgaps : gaps.map List.head? = [some 0x0A, some 0x2C, some 0x2C, some 0x0A, some 0x2C] := by
    decide +kernel
  have hcloses : ∀ {gap : Str} {c : ℕ}, gap.head? = some c → Stops [c] → Closes gap := by
    intro gap c hc hstops
    cases gap with
    | nil => cases hc
    | cons d t =>
      obtain rfl := Option.some.inj hc
      exact ⟨_, t, rfl, hstops⟩
  refine ⟨hcloses hending hline, ?_⟩
  intro gap hgap
  have hhead : gap.head? ∈ gaps.map List.head? := List.mem_map_of_mem hgap
  rw [hgaps] at hhead
  simp only [List.mem_cons, List.not_mem_nil, or_false] at hhead
  rcases hhead with h | h | h | h | h
  · exact hcloses h hline
  · exact hcloses h hcomma
  · exact hcloses h hcomma
  · exact hcloses h hline
  · exact hcloses h hcomma

theorem gaps_ascii : AsciiLines ending ∧ ∀ gap ∈ gaps, AsciiLines gap := by
  have hbool : (ending :: gaps).all (fun s => s.all fun c =>
      c == 0x0A || (decide (0x20 ≤ c) && decide (c ≤ 0x7E))) = true := by decide +kernel
  have hall : ∀ s ∈ ending :: gaps, AsciiLines s := by
    intro s hs c hc
    simpa using List.all_eq_true.mp (List.all_eq_true.mp hbool s hs) c hc
  exact ⟨hall _ (List.mem_cons_self ..), fun gap hgap => hall gap (List.mem_cons_of_mem _ hgap)⟩

/-! ## The values -/

/-- Code points of a string: there are none from `0x110000` on. -/
def IsString (s : Str) : Prop := ∀ c ∈ s, c < 0x110000

theorem cut_subset (sep : ℕ) (s : Str) :
    (cut sep s).1 ⊆ s ∧ ∀ t, (cut sep s).2 = some t → t ⊆ s := by
  obtain ⟨-, heq⟩ := cut_eq sep s
  refine ⟨?_, ?_⟩
  · intro c hc
    rw [heq]
    exact List.mem_append_left _ hc
  · intro t ht c hc
    rw [heq, ht]
    exact List.mem_append_right _ (List.mem_cons_of_mem sep hc)

theorem rcut_subset (sep : ℕ) (s : Str) : (rcut sep s).2 ⊆ s := by
  intro c hc
  have hmem := (cut_subset sep s.reverse).1 (List.mem_reverse.mp hc)
  exact List.mem_reverse.mp hmem

/-- The authority of a URL is a part of it. -/
theorem netloc_subset {t : UrlTables} {url : Str} {parts : Parts}
    (h : urlsplit t url = some parts) : parts.netloc ⊆ url := by
  have hclean : removeUnsafe (url.dropWhile (· ≤ 0x20)) ⊆ url := by
    intro c hc
    exact (List.dropWhile_suffix _).subset (List.mem_filter.mp hc).1
  have hscheme : ∀ s : Str, (splitScheme s).2 ⊆ s := by
    intro s c hc
    unfold splitScheme at hc
    split at hc
    next scheme rest hcut =>
      split at hc
      · exact (cut_subset ':'.toNat s).2 rest (by rw [hcut]) hc
      · exact hc
    next => exact hc
  have hnetloc : ∀ s : Str, (splitNetloc s).1 ⊆ s := by
    intro s c hc
    unfold splitNetloc at hc
    split at hc
    next s =>
      rw [List.span_eq_takeWhile_dropWhile] at hc
      exact List.mem_cons_of_mem _ (List.mem_cons_of_mem _ ((List.takeWhile_prefix _).subset hc))
    next => cases hc
  unfold urlsplit at h
  dsimp only at h
  split at h
  next =>
    obtain rfl := Option.some.inj h
    intro c hc
    exact hclean (hscheme _ (hnetloc _ hc))
  next => cases h

/-- The host of a URL that is a string is a string. -/
theorem isString_hostname {u : Unicode} (hlower : ∀ s, IsString s → IsString (u.lower s))
    {parts : Parts} (h : IsString parts.netloc) {host : Str}
    (hhost : parts.hostname u = some host) : IsString host := by
  have hinfo : IsString parts.hostinfo.1 := by
    intro c hc
    have hmem : c ∈ (rcut '@'.toNat parts.netloc).2 := by
      unfold Parts.hostinfo at hc
      dsimp only at hc
      split at hc
      next before bracketed hcut =>
        have hsub := (cut_subset '['.toNat (rcut '@'.toNat parts.netloc).2).2 bracketed
          (by rw [hcut])
        exact hsub ((cut_subset ']'.toNat bracketed).1 hc)
      next => exact (cut_subset ':'.toNat (rcut '@'.toNat parts.netloc).2).1 hc
    exact h c (rcut_subset _ _ hmem)
  unfold Parts.hostname at hhost
  dsimp only at hhost
  split at hhost
  next => cases hhost
  next =>
    obtain rfl := Option.some.inj hhost
    obtain ⟨haddress, hzone⟩ := cut_subset '%'.toNat parts.hostinfo.1
    intro c hc
    rcases List.mem_append.mp hc with hc | hc
    · exact hlower _ (fun d hd => hinfo d (haddress hd)) c hc
    · cases hcut : (cut '%'.toNat parts.hostinfo.1).2 with
      | none =>
        rw [hcut] at hc
        cases hc
      | some zone =>
        rw [hcut] at hc
        rcases List.mem_cons.mp hc with rfl | hc
        · decide
        · exact hinfo c (hzone zone hcut hc)

/-- The scheme of a URL is ASCII. -/
theorem isString_scheme {t : UrlTables} {url : Str} {parts : Parts}
    (h : urlsplit t url = some parts) : ∀ c ∈ parts.scheme, c < 128 := by
  unfold urlsplit at h
  dsimp only at h
  split at h
  next =>
    obtain rfl := Option.some.inj h
    intro c hc
    have hchar := List.all_eq_true.mp (splitScheme_all _) c hc
    simp [isSchemeChar, isAlpha] at hchar
    omega
  next => cases h

theorem port_le {parts : Parts} {number : ℕ} (h : parts.port = some (some number)) :
    number ≤ 65535 := by
  unfold Parts.port at h
  dsimp only at h
  split at h
  next => cases h
  next =>
    split at h
    next hcond =>
      obtain rfl := Option.some.inj (Option.some.inj h)
      simp only [Bool.and_eq_true, decide_eq_true_eq] at hcond
      exact hcond.2
    next => cases h

/-- A port is a short numeral. -/
theorem plain_port {number : ℕ} (h : number ≤ 65535) : Plain (.int number) := by
  refine .int ?_
  have hlt : (number : ℤ).natAbs < 10 ^ 5 := by omega
  unfold JsonText.Numeral.ofInt
  dsimp only
  split
  next => exact le_of_lt (by decide : 1 < Str.maxDigits)
  next =>
    rw [List.length_reverse]
    exact ((Nat.digits_length_le_iff (by decide) _).mpr hlt).trans (by decide)

/-- Where the values of the program come from. -/
structure Names (w : World) (fields : List (Str × Json)) (b : Background) : Prop where
  url : ∃ url parts, field fields (flag "url") = .str url ∧ urlsplit w.urls url = some parts ∧
    b.scheme = parts.scheme ∧ b.host = parts.hostname w.unicode ∧ parts.port = some b.port
  username : b.username = field fields (flag "username")
  password : b.password = field fields (flag "password")

/-- **The extension holds the values of the proxy.** -/
theorem createProxyExtension_names (w : World) (fields : List (Str × Json)) :
    Meets (fun _ => True) (createProxyExtension w fields)
      (fun path f => ∃ b, f.directory = some ⟨path, some b⟩ ∧ Names w fields b)
      fun _ _ => True := by
  unfold createProxyExtension
  refine meets_answer_bind (fun parts hparts => ?_) fun _ _ _ _ => trivial
  refine meets_answer_bind (fun number hport => ?_) fun _ _ _ _ => trivial
  refine meets_answer_bind (fun path _ => ?_) fun _ _ _ _ => trivial
  have hnames : Names w fields
      { scheme := parts.scheme
        host := parts.hostname w.unicode
        port := number
        username := field fields (flag "username")
        password := field fields (flag "password") } := by
    refine ⟨?_, rfl, rfl⟩
    cases hurl : field fields (flag "url") with
    | str url =>
      rw [hurl] at hparts
      exact ⟨url, parts, rfl, urlparse_ok hparts, rfl, rfl, port_ok hport⟩
    | null | bool | int | double | list | obj =>
      rw [hurl] at hparts
      cases hparts
  refine meets_change_bind (fun f => f.directory = some ⟨path, none⟩) (fun _ _ => rfl) ?_
  refine .bind (Q := fun _ f => ∃ b, f.directory = some ⟨path, some b⟩ ∧ Names w fields b) ?_
    fun _ => meets_pure fun _ hf => hf
  refine Meets.handling (E := fun _ _ => True) ?_ fun e =>
    meets_change_bind (fun _ => True) (fun _ _ => trivial) (meets_raise fun _ _ => trivial)
  unfold writeExtension
  refine meets_answer_bind (fun _ _ => ?_) fun _ _ _ _ => trivial
  refine meets_answer_bind (fun _ _ => ?_) fun _ _ _ _ => trivial
  refine meets_change fun f hf => ⟨_, ?_, hnames⟩
  unfold Frame.fill
  rw [hf]
  rfl

/-- What a browser reads at the five holes. -/
def Background.read (b : Background) : List Json :=
  [.str b.scheme, (b.host.map fun host => Json.str (joined host)).getD .null,
    (b.port.map fun port => Json.int port).getD .null, b.username, b.password]

section Values

variable {w : World} {fields : List (Str × Json)} {b : Background}

/-- A value of the proxy, or the `None` of a key it has not. -/
theorem plain_field (h : Plain (.obj fields)) (key : Str) : Plain (field fields key) := by
  cases h with
  | obj _ _ hvalues =>
    unfold field
    cases hget : Json.get? fields key with
    | none => exact .null
    | some v =>
      obtain ⟨f, hf, rfl⟩ := Option.map_eq_some_iff.mp hget
      exact hvalues f (List.mem_of_find?_eq_some hf)

/-- The literals of the program are literals of what is read. -/
theorem Names.reads (hnames : Names w fields b) (fl : Floats) (hplain : Plain (.obj fields))
    (hlower : ∀ s, IsString s → IsString (w.unicode.lower s)) :
    List.Forall₂ (fun v read => Printable (dumps fl v) ∧ ReadsAs fl (dumps fl v) read)
      b.values b.read := by
  obtain ⟨url, parts, hurl, hparts, hscheme, hhost, hport⟩ := hnames.url
  have hpoints : IsString url := by
    have hstr := plain_field hplain (flag "url")
    rw [hurl] at hstr
    cases hstr with
    | str hpaired => exact hpaired.points
  have hnetloc : IsString parts.netloc := fun c hc => hpoints c (netloc_subset hparts hc)
  have hown : ∀ {v : Json}, Plain v → Printable (dumps fl v) ∧ ReadsAs fl (dumps fl v) v :=
    fun hv => ⟨JsonText.printable_dumps fl hv, readsAs_dumps fl hv⟩
  have htext : ∀ {s : Str}, IsString s →
      Printable (dumps fl (.str s)) ∧ ReadsAs fl (dumps fl (.str s)) (.str (joined s)) := by
    intro s hs
    rw [show dumps fl (.str s) = quoted s from by rw [dumps]]
    exact ⟨JsonText.printable_quoted hs, readsAs_quoted fl hs⟩
  unfold Background.values Background.read
  refine .cons ?_ (.cons ?_ (.cons ?_ (.cons ?_ (.cons ?_ .nil))))
  · have hascii := isString_scheme hparts
    rw [← hscheme] at hascii
    have hread := htext fun c hc => (hascii c hc).trans (by decide)
    rw [(JsonText.paired_of_ascii hascii).joined_eq] at hread
    exact hread
  · cases hb : b.host with
    | none => exact hown .null
    | some host =>
      rw [hb] at hhost
      exact htext (isString_hostname hlower hnetloc hhost.symm)
  · cases hb : b.port with
    | none => exact hown .null
    | some number =>
      rw [hb] at hport
      exact hown (plain_port (port_le hport))
  · rw [hnames.username]
    exact hown (plain_field hplain _)
  · rw [hnames.password]
    exact hown (plain_field hplain _)

end Values

/-- The program is read back hole by hole, and is lines of ASCII. -/
theorem program_reads (fl : Floats) {b : Background}
    (h : List.Forall₂ (fun v read => Printable (dumps fl v) ∧ ReadsAs fl (dumps fl v) read)
      b.values b.read) :
    readProgram fl (b.program fl) = some b.read ∧ AsciiLines (b.program fl) := by
  obtain ⟨hending, hgaps⟩ := gaps_close
  obtain ⟨hascii, hlines⟩ := gaps_ascii
  obtain ⟨hprint, hreads⟩ := (List.forall₂_and_left _ _).mp h
  refine ⟨readHoles_filled fl hending rfl hgaps (List.forall₂_map_left_iff.mpr hreads), ?_⟩
  refine asciiLines_filled hascii fun hole hmem => ?_
  obtain ⟨hgap, hliteral⟩ := List.of_mem_zip hmem
  obtain ⟨v, hv, hdumps⟩ := List.mem_map.mp hliteral
  exact ⟨hlines _ hgap, hdumps ▸ hprint v hv⟩

/-- **The program of the extension holds the proxy as data.** -/
theorem proxy_extension_holds_data (fl : Floats) (w : World) {fields : List (Str × Json)}
    (hplain : Plain (.obj fields)) (hlower : ∀ s, IsString s → IsString (w.unicode.lower s))
    {f f' : Frame} {path : Str} (h : createProxyExtension w fields f = (.ok path, f')) :
    ∃ b, f'.directory = some ⟨path, some b⟩ ∧ Names w fields b ∧
      readProgram fl (b.program fl) = some b.read ∧ AsciiLines (b.program fl) := by
  have hnames := createProxyExtension_names w fields f trivial
  rw [h] at hnames
  obtain ⟨b, hb, hnames⟩ := hnames
  obtain ⟨hread, hascii⟩ := program_reads fl (hnames.reads fl hplain hlower)
  exact ⟨b, hb, hnames, hread, hascii⟩

/-- A password that tries to end its literal. -/
def quotingFields : List (Str × Json) :=
  [(flag "url", .str (flag "http://proxy.example.com:8080")),
    (flag "username", .str (flag "user")), (flag "password", .str (flag "\"\x7d); alert(1) //"))]

theorem quoting_holds_data : ∃ b, Names (container .ascii) quotingFields b ∧
    readProgram .fractions (b.program .fractions) = some b.read := by
  have hascii : ∀ s ∈ [flag "url", flag "username", flag "password",
      flag "http://proxy.example.com:8080", flag "user", flag "\"\x7d); alert(1) //"],
      s.all (· < 128) = true := by
    decide +kernel
  have hpaired : ∀ {s : Str}, s.all (· < 128) = true → JsonText.Paired s := fun h =>
    JsonText.paired_of_ascii fun c hc => of_decide_eq_true (List.all_eq_true.mp h c hc)
  have hplain : Plain (.obj quotingFields) := by
    refine .obj (by decide +kernel) ?_ ?_
    · intro f hf
      refine hpaired (hascii f.1 ?_)
      unfold quotingFields at hf
      simp only [List.mem_cons, List.not_mem_nil, or_false] at hf ⊢
      rcases hf with rfl | rfl | rfl <;> simp
    · intro f hf
      unfold quotingFields at hf
      simp only [List.mem_cons, List.not_mem_nil, or_false] at hf
      rcases hf with rfl | rfl | rfl
      · exact .str (hpaired (hascii _ (by simp)))
      · exact .str (hpaired (hascii _ (by simp)))
      · exact .str (hpaired (hascii _ (by simp)))
  have hlower : ∀ s, IsString s → IsString ((container .ascii).unicode.lower s) := by
    intro s hs c hc
    obtain ⟨d, hd, rfl⟩ := List.mem_map.mp hc
    have hlast : 'Z'.toNat = 90 := rfl
    have hpoint := hs d hd
    unfold Url.asciiLower
    split <;> omega
  obtain ⟨b, -, hnames, hread, -⟩ := proxy_extension_holds_data .fractions (container .ascii)
    hplain hlower (f := (container .ascii).frame) rfl
  exact ⟨b, hnames, hread⟩

end Solverr.Launch
