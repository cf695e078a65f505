import Solverr.Engines.Assembly
import Solverr.Lib.Html
import Solverr.Lib.Percent

/-!
# The form of a POST

`postform.py`: the document that both engines navigate to, and what the browser makes of
it. The browser decodes the whole `data:` document and then parses it. What it parses
is `page`, the same document with its fields only escaped (`unquote_buildPostHtml`), and
parsing that gives the one form with its fields (`read_page`).
-/

namespace Solverr.PostForm

open Solverr.Lib
open Solverr.Lib.Percent (quote unquote Spells)
open Solverr.Lib.Html (escape unescape Entities Document Form Field Token Tag State scan)
open Solverr.Engines (Method)

/-! ## Building -/

/-- `_attr(text)` -/
def attr (text : Text) : Text := quote (escape text)

/-- The form without the question mark that a query string begins with. -/
def queryString : Text → Text
  | '?' :: query => query
  | postData => postData

/-- The markup around the name and the value of a field. -/
def inputMarkup (name value : Text) : Text :=
  "<input type=\"text\" name=\"".toList ++ name ++ "\" value=\"".toList ++ value ++
    "\"><br>".toList

/-- One pass of the loop over the pairs. -/
def addInput (postForm pair : Text) : Text :=
  let (before, found, after) := Text.partition '=' pair
  let name := unquote before
  if name = "submit".toList then postForm
  else
    let value := if found then unquote after else []
    postForm ++ inputMarkup (attr name) (attr value)

/-- The markup around the action of the form. -/
def formMarkup (action : Text) : Text :=
  "<form id=\"hackForm\" action=\"".toList ++ action ++ "\" method=\"POST\">".toList

/-- The script that submits the form. -/
def submitCall : Text := "document.getElementById('hackForm').submit();".toList

/-- The markup around the form. -/
def pageMarkup (postForm : Text) : Text :=
  "\n        <!DOCTYPE html>\n        <html>\n        <body>\n            ".toList ++ postForm ++
    ("\n            <script>".toList ++ submitCall ++
      "</script>\n        </body>\n        </html>".toList)

/-- `build_post_html(url, post_data)` -/
def buildPostHtml (url postData : Text) : Text :=
  let pairs := (queryString postData).splitOn '&'
  pageMarkup (pairs.foldl addInput (formMarkup (attr url)) ++ "</form>".toList)

/-- What Chrome's `driver.get` is given. -/
def chromeDestination (method : Method) (url postData : Text) : Text :=
  if method ≠ .post then url
  else "data:text/html;charset=utf-8,".toList ++ buildPostHtml url postData

/-- What the stealth engine's `target.goto` is given. -/
def stealthDestination (method : Method) (url postData : Text) : Text :=
  if method = .post then "data:text/html;charset=utf-8,".toList ++ buildPostHtml url postData
  else url

/-! ## What is meant -/

/-- The name and the value of a pair: the text before the first equals sign, and the text
after it, or nothing. -/
def meant (pair : Text) : Text × Text :=
  (unquote (Text.partition '=' pair).1, unquote (Text.partition '=' pair).2.2)

/-- The field of a name and a value. -/
def fieldOf (field : Text × Text) : Field := ⟨some field.1, some field.2⟩

/-- The names and values of a form. A field that would submit it is left out. -/
def fieldsOf (pairs : List Text) : List (Text × Text) :=
  (pairs.map meant).filter fun field => field.1 ≠ "submit".toList

/-- The names and values of a form's data. -/
def sent (postData : Text) : List (Text × Text) := fieldsOf ((queryString postData).splitOn '&')

/-- The markup of fields, with `write` for their texts. -/
def inputs (write : Text → Text) (fields : List (Text × Text)) : Text :=
  fields.flatMap fun field => inputMarkup (write field.1) (write field.2)

/-- The document with `write` for its texts. -/
def page (write : Text → Text) (url : Text) (fields : List (Text × Text)) : Text :=
  pageMarkup (formMarkup (write url) ++ inputs write fields ++ "</form>".toList)

theorem addInput_eq (postForm pair : Text) :
    addInput postForm pair = postForm ++ inputs attr (fieldsOf [pair]) := by
  have hvalue : (if (Text.partition '=' pair).2.1 then unquote (Text.partition '=' pair).2.2
      else []) = unquote (Text.partition '=' pair).2.2 := by
    split
    next => rfl
    next h => rw [Text.partition_not_found '=' (Bool.not_eq_true _ ▸ h)]; rfl
  unfold addInput fieldsOf inputs meant
  dsimp only
  rw [hvalue]
  rw [List.map_singleton]
  by_cases hsubmit : unquote (Text.partition '=' pair).1 = "submit".toList
  · rw [if_pos hsubmit,
      List.filter_cons_of_neg (by rw [decide_eq_true_eq]; exact not_not.mpr hsubmit)]
    exact (List.append_nil _).symm
  · rw [if_neg hsubmit, List.filter_cons_of_pos (by rw [decide_eq_true_eq]; exact hsubmit)]
    exact congrArg (postForm ++ ·) (List.append_nil _).symm

/-- The loop writes the fields of the pairs, one after the other. -/
theorem foldl_addInput (pairs : List Text) : ∀ postForm,
    pairs.foldl addInput postForm = postForm ++ inputs attr (fieldsOf pairs) := by
  induction pairs with
  | nil => exact fun postForm => (List.append_nil _).symm
  | cons pair pairs ih =>
    intro postForm
    have hcons : fieldsOf (pair :: pairs) = fieldsOf [pair] ++ fieldsOf pairs := by
      unfold fieldsOf
      rw [← List.filter_append, ← List.map_append]
      rfl
    rw [List.foldl_cons, ih, addInput_eq, hcons, inputs, inputs, inputs, List.flatMap_append,
      List.append_assoc]

/-- The document as the loop writes it. -/
theorem buildPostHtml_eq (url postData : Text) :
    buildPostHtml url postData = page attr url (sent postData) := by
  unfold buildPostHtml page sent
  dsimp only
  rw [foldl_addInput]

/-! ## What the browser reads -/

theorem attr_spells (text : Text) : Spells (attr text) (escape text) :=
  Percent.quote_spells _

theorem inputMarkup_spells {name value name' value' : Text} (hname : Spells name name')
    (hvalue : Spells value value') :
    Spells (inputMarkup name value) (inputMarkup name' value') := by
  refine .append (.append (.append (.append ?_ hname) ?_) hvalue) ?_
  · exact .plain (by rfl)
  · exact .plain (by rfl)
  · exact .plain (by rfl)

theorem pageMarkup_spells {form form' : Text} (hform : Spells form form') :
    Spells (pageMarkup form) (pageMarkup form') := by
  refine .append (.append ?_ hform) ?_
  · exact .plain (by rfl)
  · exact .plain (by rfl)

/-- **What the browser parses is the document with its texts only escaped.** -/
theorem unquote_buildPostHtml (url postData : Text) :
    unquote (buildPostHtml url postData) = page escape url (sent postData) := by
  rw [buildPostHtml_eq]
  refine Spells.unquote_eq (pageMarkup_spells (.append (.append ?_ ?_) (.plain (by rfl))))
  · exact .append (.append (.plain (by rfl)) (attr_spells url)) (.plain (by rfl))
  · exact .flatMap fun field _ => inputMarkup_spells (attr_spells _) (attr_spells _)

variable {ent : Entities}

/-- The tokens of a field. -/
def inputTokens (field : Text × Text) : List Token :=
  [.start ⟨"input".toList, [("type".toList, "text".toList), ("name".toList, field.1),
    ("value".toList, field.2)]⟩, .start ⟨"br".toList, []⟩]

/-- An escaped text in quotes is read as the text. -/
theorem scan_attr {tag : Tag} {name text : Text} :
    scan ent (.quoted tag name '"' []) (escape text) = ([], .quoted tag name '"' (escape text)) :=
  Html.scan_quoted (Html.quote_not_mem_escape text)

theorem scan_inputMarkup (field : Text × Text) :
    scan ent .data (inputMarkup (escape field.1) (escape field.2)) =
      (inputTokens field, .data) := by
  have hopen : scan ent .data "<input type=\"text\" name=\"".toList =
      ([], .quoted ⟨"input".toList, [("type".toList, "text".toList)]⟩ "name".toList '"' []) := by
    rfl
  have hnext : ∀ tag value, scan ent (.quoted tag "name".toList '"' value)
      "\" value=\"".toList =
        ([], .quoted (tag.add "name".toList (unescape ent value)) "value".toList '"' []) := by
    intro tag value
    rfl
  have hend : ∀ attrs value, scan ent (.quoted ⟨"input".toList, attrs⟩ "value".toList '"' value)
      "\"><br>".toList =
        ([.start ⟨"input".toList, attrs ++ [("value".toList, unescape ent value)]⟩,
          .start ⟨"br".toList, []⟩], .data) := by
    intro attrs value
    rfl
  unfold inputMarkup
  rw [Html.scan_append, Html.scan_append, Html.scan_append, Html.scan_append, hopen]
  dsimp only
  rw [scan_attr]
  dsimp only
  rw [hnext]
  dsimp only
  rw [scan_attr]
  dsimp only
  rw [Tag.add, hend, Html.unescape_escape, Html.unescape_escape]
  rfl

theorem scan_inputs (fields : List (Text × Text)) :
    scan ent .data (inputs escape fields) = (fields.flatMap inputTokens, .data) := by
  induction fields with
  | nil => rfl
  | cons field fields ih =>
    rw [inputs, List.flatMap_cons, Html.scan_append, scan_inputMarkup]
    dsimp only
    rw [show (fields.flatMap fun field => inputMarkup (escape field.1) (escape field.2)) =
      inputs escape fields from rfl, ih, List.flatMap_cons]

/-- The tokens before the fields of a form. -/
def openTokens (url : Text) : List Token :=
  [.start ⟨"html".toList, []⟩, .start ⟨"body".toList, []⟩,
    .start ⟨"form".toList, [("id".toList, "hackForm".toList), ("action".toList, url),
      ("method".toList, "POST".toList)]⟩]

/-- The tokens after the fields of a form. -/
def closeTokens : List Token :=
  [.close "form".toList, .start ⟨"script".toList, []⟩, .text "script".toList submitCall,
    .close "script".toList, .close "body".toList, .close "html".toList]

set_option maxRecDepth 2000 in
theorem scan_head : scan ent .data
    "\n        <!DOCTYPE html>\n        <html>\n        <body>\n            ".toList =
      ([.start ⟨"html".toList, []⟩, .start ⟨"body".toList, []⟩], .data) := by rfl

set_option maxRecDepth 2000 in
theorem scan_script : scan ent .data ("\n            <script>".toList ++ submitCall ++
    "</script>\n        </body>\n        </html>".toList) =
      ([.start ⟨"script".toList, []⟩, .text "script".toList submitCall, .close "script".toList,
        .close "body".toList, .close "html".toList], .data) := by rfl

/-- The document is read as the tokens of its form, of each field and of its script. -/
theorem scan_page (url : Text) (fields : List (Text × Text)) :
    (scan ent .data (page escape url fields)).1 =
      openTokens url ++ fields.flatMap inputTokens ++ closeTokens := by
  have hform : scan ent .data "<form id=\"hackForm\" action=\"".toList =
      ([], .quoted ⟨"form".toList, [("id".toList, "hackForm".toList)]⟩ "action".toList '"' []) := by
    rfl
  have hmethod : ∀ attrs value, scan ent (.quoted ⟨"form".toList, attrs⟩ "action".toList '"' value)
      "\" method=\"POST\">".toList =
        ([.start ⟨"form".toList, attrs ++ [("action".toList, unescape ent value)] ++
          [("method".toList, "POST".toList)]⟩], .data) := by
    intro attrs value
    rfl
  have hclose : scan ent .data "</form>".toList = ([.close "form".toList], .data) := by rfl
  unfold page pageMarkup formMarkup
  rw [Html.scan_append, Html.scan_append, scan_head]
  dsimp only
  rw [Html.scan_append, Html.scan_append, Html.scan_append, Html.scan_append, hform]
  dsimp only
  rw [scan_attr]
  dsimp only
  rw [hmethod, Html.unescape_escape]
  dsimp only
  rw [scan_inputs]
  dsimp only
  rw [hclose]
  dsimp only
  rw [scan_script]
  simp [openTokens, closeTokens]

/-- The fields that are read go into the form that is open. -/
theorem add_inputs (fields : List (Text × Text)) : ∀ (d : Document) (form : Form),
    d.current = some form → (fields.flatMap inputTokens).foldl Document.add d =
      { d with current := some { form with fields := form.fields ++ fields.map fieldOf } } := by
  induction fields with
  | nil =>
    intro d form hform
    show d = _
    rw [List.map_nil, List.append_nil, ← hform]
  | cons field fields ih =>
    intro d form hform
    have hone : (inputTokens field).foldl Document.add d =
        { d with current := some { form with fields := form.fields ++ [fieldOf field] } } := by
      show d.addField (fieldOf field) = _
      rw [Document.addField, hform]
    rw [List.flatMap_cons, List.foldl_append, hone, ih _ _ rfl]
    simp only [List.map_cons, List.append_assoc, List.singleton_append]

/-- **What the browser has of a document**: the form with its fields, and the script. -/
theorem read_page (url : Text) (fields : List (Text × Text)) :
    Html.read ent (page escape url fields) =
      ⟨[⟨some url, some "POST".toList, fields.map fieldOf⟩], none, [], [submitCall]⟩ := by
  unfold Html.read
  rw [scan_page, List.foldl_append, List.foldl_append]
  have hopen : (openTokens url).foldl Document.add .empty =
      ⟨[], some ⟨some url, some "POST".toList, []⟩, [], []⟩ := by rfl
  rw [hopen, add_inputs fields _ _ rfl]
  rfl

/-- **The form is embedded exactly.** For every URL and form data, the browser makes of
the document one form with the URL and the fields that were meant, in order, and one
script, the form's own submit call. Both engines navigate to this document. -/
theorem post_form_exact (ent : Entities) (url postData : Text) :
    Html.read ent (unquote (buildPostHtml url postData)) =
        ⟨[⟨some url, some "POST".toList, (sent postData).map fieldOf⟩], none, [], [submitCall]⟩ ∧
      chromeDestination .post url postData =
        "data:text/html;charset=utf-8,".toList ++ buildPostHtml url postData ∧
      stealthDestination .post url postData = chromeDestination .post url postData := by
  refine ⟨?_, rfl, rfl⟩
  rw [unquote_buildPostHtml, read_page]

end Solverr.PostForm
