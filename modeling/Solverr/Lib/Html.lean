import Solverr.Lib.Text

/-!
# HTML

`html.escape` and `html.unescape`, and a reader of HTML documents: a machine that takes
one character at a time and gives the tags and the text of scripts and styles, and from
these the forms of the document and its scripts. The reader decodes the character
references of attribute values. The table of named references is a parameter.
-/

namespace Solverr.Lib

namespace Html

/-! ## Character references -/

/-- A character as `html.escape(s, quote=True)` writes it. -/
def escapeChar (c : Char) : Text :=
  if c = '&' then "&amp;".toList
  else if c = '<' then "&lt;".toList
  else if c = '>' then "&gt;".toList
  else if c = '"' then "&quot;".toList
  else if c = '\'' then "&#x27;".toList
  else [c]

/-- `html.escape(s, quote=True)` -/
def escape (s : Text) : Text := s.flatMap escapeChar

/-- `html.entities.html5`, with the names that `escape` writes. -/
structure Entities where
  table : Text → Option Text
  amp : table "amp;".toList = some ['&']
  lt : table "lt;".toList = some ['<']
  gt : table "gt;".toList = some ['>']
  quot : table "quot;".toList = some ['"']

/-- The table that knows no other name. -/
def Entities.few : Entities where
  table name :=
    if name = "amp;".toList then some ['&']
    else if name = "lt;".toList then some ['<']
    else if name = "gt;".toList then some ['>']
    else if name = "quot;".toList then some ['"']
    else none
  amp := by decide
  lt := by decide
  gt := by decide
  quot := by decide

def isDigit (c : Char) : Bool := '0' ≤ c && c ≤ '9'

def isHexDigit (c : Char) : Bool := isDigit c || ('a' ≤ c && c ≤ 'f') || ('A' ≤ c && c ≤ 'F')

/-- A character of `[^\t\n\f <&#;]`. -/
def isNameChar (c : Char) : Bool :=
  !(c = '\t' || c = '\n' || c = '\x0c' || c = ' ' || c = '<' || c = '&' || c = '#' || c = ';')

/-- A reference is closed by the semicolon that follows, if one does. -/
def withSemicolon (ref rest : Text) : Text :=
  if rest.head? = some ';' then ref ++ [';'] else ref

/-- The reference of `_charref` that the text after an ampersand begins with. -/
def charref (s : Text) : Option Text :=
  match s with
  | '#' :: 'x' :: t | '#' :: 'X' :: t =>
    match t.takeWhile isHexDigit with
    | [] => none
    | digits => some (withSemicolon ((s.take 2) ++ digits) (t.drop digits.length))
  | '#' :: t =>
    match t.takeWhile isDigit with
    | [] => none
    | digits => some (withSemicolon ('#' :: digits) (t.drop digits.length))
  | s =>
    match (s.take 32).takeWhile isNameChar with
    | [] => none
    | name => some (withSemicolon name (s.drop name.length))

def digitValue (c : Char) : ℕ :=
  if isDigit c then c.toNat - 48
  else if 'a' ≤ c && c ≤ 'f' then c.toNat - 87
  else c.toNat - 55

def numberOf (base : ℕ) (digits : Text) : ℕ :=
  digits.foldl (fun n c => base * n + digitValue c) 0

/-- `_invalid_charrefs` from 0x80 to 0x9f -/
def windows1252 : List ℕ :=
  [0x20ac, 0x81, 0x201a, 0x192, 0x201e, 0x2026, 0x2020, 0x2021, 0x2c6, 0x2030, 0x160, 0x2039,
    0x152, 0x8d, 0x17d, 0x8f, 0x90, 0x2018, 0x2019, 0x201c, 0x201d, 0x2022, 0x2013, 0x2014,
    0x2dc, 0x2122, 0x161, 0x203a, 0x153, 0x9d, 0x17e, 0x178]

/-- `_invalid_codepoints` -/
def isInvalid (n : ℕ) : Bool :=
  (0x1 ≤ n && n ≤ 0x8) || n == 0xb || (0xe ≤ n && n ≤ 0x1f) || (0x7f ≤ n && n ≤ 0x9f) ||
    (0xfdd0 ≤ n && n ≤ 0xfdef) || n % 0x10000 == 0xfffe || n % 0x10000 == 0xffff

/-- The character of a number. -/
def numbered (n : ℕ) : Text :=
  if n = 0 then [Char.ofNat 0xfffd]
  else if 0x80 ≤ n ∧ n ≤ 0x9f then [Char.ofNat (windows1252.getD (n - 0x80) n)]
  else if (0xd800 ≤ n ∧ n ≤ 0xdfff) ∨ 0x10ffff < n then [Char.ofNat 0xfffd]
  else if isInvalid n then []
  else [Char.ofNat n]

section Entities

variable (ent : Entities)

/-- The longest prefix of `name`, of `n` characters at most and of two at least, that is
a name of the table, with what is left. -/
def longestName (name : Text) : ℕ → Text
  | 0 | 1 => '&' :: name
  | n + 1 =>
    match ent.table (name.take (n + 1)) with
    | some value => value ++ name.drop (n + 1)
    | none => longestName name n

/-- `_replace_charref` -/
def replaceCharref : Text → Text
  | '#' :: 'x' :: digits | '#' :: 'X' :: digits => numbered (numberOf 16 (digits.filter (· ≠ ';')))
  | '#' :: digits => numbered (numberOf 10 (digits.filter (· ≠ ';')))
  | name =>
    match ent.table name with
    | some value => value
    | none => longestName ent name (name.length - 1)

/-- The rest of a text, of which the first characters belong to a reference that was
replaced. -/
def unescapeFrom : ℕ → Text → Text
  | _, [] => []
  | skip + 1, _ :: s => unescapeFrom skip s
  | 0, c :: s =>
    if c = '&' then
      match charref s with
      | some ref => replaceCharref ent ref ++ unescapeFrom ref.length s
      | none => c :: unescapeFrom 0 s
    else c :: unescapeFrom 0 s

/-- `html.unescape(s)` -/
def unescape (s : Text) : Text := unescapeFrom ent 0 s

variable {ent}

theorem unescapeFrom_append (ref s : Text) :
    unescapeFrom ent ref.length (ref ++ s) = unescapeFrom ent 0 s := by
  induction ref with
  | nil => rfl
  | cons c ref ih => exact ih

/-- A reference is replaced where it stands. -/
theorem unescapeFrom_reference {ref s value : Text} (href : charref (ref ++ s) = some ref)
    (hvalue : replaceCharref ent ref = value) :
    unescapeFrom ent 0 ('&' :: (ref ++ s)) = value ++ unescapeFrom ent 0 s := by
  rw [unescapeFrom, if_pos rfl, href]
  show replaceCharref ent ref ++ unescapeFrom ent ref.length (ref ++ s) = _
  rw [hvalue, unescapeFrom_append]

theorem replaceCharref_named {c : Char} {name value : Text} (hhash : c ≠ '#')
    (h : ent.table (c :: name) = some value) : replaceCharref ent (c :: name) = value := by
  unfold replaceCharref
  split
  next heq => exact absurd (List.cons.inj heq).1 hhash
  next heq => exact absurd (List.cons.inj heq).1 hhash
  next heq => exact absurd (List.cons.inj heq).1 hhash
  next => rw [h]

/-- What `escape` writes for a character is read as the character. -/
theorem unescapeFrom_escapeChar (c : Char) (s : Text) :
    unescapeFrom ent 0 (escapeChar c ++ s) = c :: unescapeFrom ent 0 s := by
  unfold escapeChar
  split
  next h =>
    have href : charref ("amp;".toList ++ s) = some "amp;".toList := by rfl
    exact h ▸ unescapeFrom_reference href (replaceCharref_named (by decide) ent.amp)
  next hamp =>
    split
    next h =>
      have href : charref ("lt;".toList ++ s) = some "lt;".toList := by rfl
      exact h ▸ unescapeFrom_reference href (replaceCharref_named (by decide) ent.lt)
    next =>
      split
      next h =>
        have href : charref ("gt;".toList ++ s) = some "gt;".toList := by rfl
        exact h ▸ unescapeFrom_reference href (replaceCharref_named (by decide) ent.gt)
      next =>
        split
        next h =>
          have href : charref ("quot;".toList ++ s) = some "quot;".toList := by rfl
          exact h ▸ unescapeFrom_reference href (replaceCharref_named (by decide) ent.quot)
        next =>
          split
          next h =>
            have href : charref ("#x27;".toList ++ s) = some "#x27;".toList := by rfl
            exact h ▸ unescapeFrom_reference href (by rfl)
          next => rw [List.singleton_append, unescapeFrom, if_neg hamp]

/-- **What was escaped is read back.** -/
theorem unescape_escape (s : Text) : unescape ent (escape s) = s := by
  have hfrom : ∀ s, unescapeFrom ent 0 (escape s) = s := fun s => by
    induction s with
    | nil => rfl
    | cons c s ih => rw [escape, List.flatMap_cons, unescapeFrom_escapeChar]; exact congrArg _ ih
  exact hfrom s

end Entities

/-- Nothing that closes a quoted value is left. -/
theorem quote_not_mem_escape (s : Text) : '"' ∉ escape s := by
  intro h
  obtain ⟨c, -, hc⟩ := List.mem_flatMap.mp h
  unfold escapeChar at hc
  split at hc
  next => exact absurd hc (by decide)
  next =>
    split at hc
    next => exact absurd hc (by decide)
    next =>
      split at hc
      next => exact absurd hc (by decide)
      next =>
        split at hc
        next => exact absurd hc (by decide)
        next hquot =>
          split at hc
          next => exact absurd hc (by decide)
          next => exact hquot (List.mem_singleton.mp hc).symm

/-! ## Reading a document -/

/-- A start tag, with its attributes in order. -/
structure Tag where
  name : Text
  attrs : List (Text × Text)
  deriving DecidableEq

/-- The value of an attribute. Of two of one name, the first counts. -/
def Tag.attr? (tag : Tag) (name : Text) : Option Text :=
  (tag.attrs.find? fun a => a.1 = name).map Prod.snd

/-- What a document is made of. The text outside of scripts and styles is left out. -/
inductive Token
  | start (tag : Tag)
  | close (name : Text)
  | text (element content : Text)
  deriving DecidableEq

/-- Where the reader is. -/
inductive State
  | data
  | tagOpen
  | closeOpen
  | closeName (name : Text)
  | closing (name : Text)
  | declaration (seen : Text)
  | tagName (name : Text)
  | inTag (tag : Tag)
  | attrName (tag : Tag) (name : Text)
  | afterName (tag : Tag) (name : Text)
  | beforeValue (tag : Tag) (name : Text)
  | quoted (tag : Tag) (name : Text) (quote : Char) (value : Text)
  | bare (tag : Tag) (name value : Text)
  | raw (name content : Text)
  deriving DecidableEq

def isWhite (c : Char) : Bool :=
  c = ' ' || c = '\n' || c = '\t' || c = '\r' || c = '\x0c'

def isLetter (c : Char) : Bool := ('a' ≤ c && c ≤ 'z') || ('A' ≤ c && c ≤ 'Z')

/-- The elements whose content is text up to their end tag. -/
def rawNames : List Text := ["script".toList, "style".toList]

/-- The end of a start tag. -/
def openTag (tag : Tag) : List Token × State :=
  ([.start tag], if tag.name ∈ rawNames then .raw tag.name [] else .data)

def Tag.add (tag : Tag) (name value : Text) : Tag := ⟨tag.name, tag.attrs ++ [(name, value)]⟩

/-- The text after `</` and the name, in an element of raw text. -/
def endsRaw (name content : Text) : Bool :=
  ("</".toList ++ name).isSuffixOf (content.map Char.toLower)

/-- One character. -/
def step (ent : Entities) : State → Char → List Token × State
  | .data, c => ([], if c = '<' then .tagOpen else .data)
  | .tagOpen, c =>
    if c = '/' then ([], .closeOpen)
    else if c = '!' then ([], .declaration [])
    else if c = '?' then ([], .declaration [c])
    else if isLetter c then ([], .tagName [c.toLower])
    else if c = '<' then ([], .tagOpen)
    else ([], .data)
  | .closeOpen, c =>
    if isLetter c then ([], .closeName [c.toLower])
    else if c = '>' then ([], .data)
    else ([], .declaration [c])
  | .closeName name, c =>
    if c = '>' then ([.close name], .data)
    else if isWhite c || c = '/' then ([], .closing name)
    else ([], .closeName (name ++ [c.toLower]))
  | .closing name, c => if c = '>' then ([.close name], .data) else ([], .closing name)
  | .declaration seen, c =>
    -- a comment goes on to its dashes
    if c = '>' && (!"--".toList.isPrefixOf seen || "--".toList.isSuffixOf seen) then ([], .data)
    else ([], .declaration (seen ++ [c]))
  | .tagName name, c =>
    if isWhite c || c = '/' then ([], .inTag ⟨name, []⟩)
    else if c = '>' then openTag ⟨name, []⟩
    else ([], .tagName (name ++ [c.toLower]))
  | .inTag tag, c =>
    if isWhite c || c = '/' then ([], .inTag tag)
    else if c = '>' then openTag tag
    else ([], .attrName tag [c.toLower])
  | .attrName tag name, c =>
    if isWhite c then ([], .afterName tag name)
    else if c = '/' then ([], .inTag (tag.add name []))
    else if c = '=' then ([], .beforeValue tag name)
    else if c = '>' then openTag (tag.add name [])
    else ([], .attrName tag (name ++ [c.toLower]))
  | .afterName tag name, c =>
    if isWhite c then ([], .afterName tag name)
    else if c = '/' then ([], .inTag (tag.add name []))
    else if c = '=' then ([], .beforeValue tag name)
    else if c = '>' then openTag (tag.add name [])
    else ([], .attrName (tag.add name []) [c.toLower])
  | .beforeValue tag name, c =>
    if isWhite c then ([], .beforeValue tag name)
    else if c = '"' || c = '\'' then ([], .quoted tag name c [])
    else if c = '>' then openTag (tag.add name [])
    else ([], .bare tag name [c])
  | .quoted tag name quote value, c =>
    if c = quote then ([], .inTag (tag.add name (unescape ent value)))
    else ([], .quoted tag name quote (value ++ [c]))
  | .bare tag name value, c =>
    if isWhite c then ([], .inTag (tag.add name (unescape ent value)))
    else if c = '>' then openTag (tag.add name (unescape ent value))
    else ([], .bare tag name (value ++ [c]))
  | .raw name content, c =>
    if (c = '>' || isWhite c || c = '/') && endsRaw name content then
      let text := Token.text name (content.take (content.length - (name.length + 2)))
      if c = '>' then ([text, .close name], .data) else ([text], .closing name)
    else ([], .raw name (content ++ [c]))

/-- The tokens of a text, and where the reader is after it. -/
def scan (ent : Entities) : State → Text → List Token × State
  | s, [] => ([], s)
  | s, c :: text =>
    let (tokens, s) := step ent s c
    let (later, s) := scan ent s text
    (tokens ++ later, s)

/-- A field of a form: the name and the value of an `input`. -/
structure Field where
  name : Option Text
  value : Option Text
  deriving DecidableEq

structure Form where
  action : Option Text
  method : Option Text
  fields : List Field
  deriving DecidableEq

/-- A document: its forms, the one that is open, the fields outside of any form, and what
its scripts say. -/
structure Document where
  forms : List Form
  current : Option Form
  loose : List Field
  scripts : List Text
  deriving DecidableEq

namespace Document

def empty : Document := ⟨[], none, [], []⟩

/-- A field goes into the form that is open. -/
def addField (d : Document) (field : Field) : Document :=
  match d.current with
  | some form => { d with current := some { form with fields := form.fields ++ [field] } }
  | none => { d with loose := d.loose ++ [field] }

def addTag (d : Document) (tag : Tag) : Document :=
  if tag.name = "form".toList then
    match d.current with
    | some _ => d
    | none => { d with current := some ⟨tag.attr? "action".toList, tag.attr? "method".toList, []⟩ }
  else if tag.name = "input".toList then
    d.addField ⟨tag.attr? "name".toList, tag.attr? "value".toList⟩
  else if tag.name = "script".toList then { d with scripts := d.scripts ++ [[]] }
  else d

/-- The form that is open is closed, at its end tag or at the end of the document. -/
def closeForm (d : Document) : Document :=
  { d with forms := d.forms ++ d.current.toList, current := none }

def add (d : Document) : Token → Document
  | .start tag => d.addTag tag
  | .close name => if name = "form".toList then d.closeForm else d
  | .text element content =>
    if element = "script".toList then { d with scripts := d.scripts.dropLast ++ [content] } else d

end Document

/-- The document that a text is. -/
def read (ent : Entities) (text : Text) : Document :=
  ((scan ent .data text).1.foldl Document.add .empty).closeForm

/-! ### Piece by piece -/

variable {ent : Entities}

theorem scan_cons (s : State) (c : Char) (text : Text) : scan ent s (c :: text) =
    ((step ent s c).1 ++ (scan ent (step ent s c).2 text).1,
      (scan ent (step ent s c).2 text).2) := rfl

theorem scan_append (s : State) (a b : Text) : scan ent s (a ++ b) =
    ((scan ent s a).1 ++ (scan ent (scan ent s a).2 b).1, (scan ent (scan ent s a).2 b).2) := by
  induction a generalizing s with
  | nil => rfl
  | cons c a ih =>
    rw [List.cons_append, scan_cons, scan_cons, ih]
    dsimp only
    rw [List.append_assoc]

/-- A quoted value goes on up to its quote. -/
theorem scan_quoted {tag : Tag} {name : Text} {quote : Char} {value more : Text}
    (h : quote ∉ more) : scan ent (.quoted tag name quote value) more =
      ([], .quoted tag name quote (value ++ more)) := by
  induction more generalizing value with
  | nil => rw [scan, List.append_nil]
  | cons c more ih =>
    rw [List.mem_cons, not_or] at h
    have hstep : step ent (.quoted tag name quote value) c =
        ([], .quoted tag name quote (value ++ [c])) := by
      rw [step, if_neg (Ne.symm h.1)]
    rw [scan_cons, hstep]
    dsimp only
    rw [ih h.2, List.append_assoc]
    rfl

end Html

end Solverr.Lib
