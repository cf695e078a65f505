import Solverr.Engines.Browse
import Solverr.Lib.Base64

/-!
# A document that is no page

Firefox opens a PDF in its viewer, so the stealth engine hands over the bytes the browser
received, in base64. When they are no longer buffered it fetches the document once more,
and then the second response must say for itself that it is a PDF: an error page must not
go out under that name.

`pdfBody_eq_some_iff` is when a document is handed over, and which.
-/

namespace Solverr.Engines

open Solverr.Lib (Text CaseMap Base64.encode)

/-- A response, as far as `_pdf_body` reads it. `body` raises when the bytes are gone. -/
structure Reply where
  ok : Bool
  contentType : Option Text
  body : Except Fault (List UInt8)

/-- `_MAX_PDF_BYTES` -/
def maxPdfBytes : ℕ := 32 * 1024 * 1024

/-- `headers.get("content-type", "").lower().startswith("application/pdf")` -/
def Reply.isPdf (cm : CaseMap) (r : Reply) : Bool :=
  "application/pdf".toList <+: cm.lower (r.contentType.getD [])

/-- `_refetch_pdf(page, main_response)`: `fetched` is what the fetch returns or raises. -/
def refetchPdf (cm : CaseMap) (fetched : Except Fault Reply) : Option (List UInt8) :=
  match fetched with
  | .error _ => none
  | .ok r => if r.ok && r.isPdf cm then r.body.toOption else none

/-- The bytes of the document, before they are measured. -/
def pdfData (cm : CaseMap) (main : Reply) (fetched : Except Fault Reply) : Option (List UInt8) :=
  match main.body with
  | .ok data => some data
  | .error _ => refetchPdf cm fetched

/-- `_pdf_body(page, main_response)` -/
def pdfBody (cm : CaseMap) (main : Option Reply) (fetched : Except Fault Reply) : Option Text :=
  match main with
  | none => none
  | some main =>
    if main.isPdf cm then
      match pdfData cm main fetched with
      | none => none
      | some data => if maxPdfBytes < data.length then none else some (Base64.encode data)
    else none

/-- `data` is the document, as the browser received it or as it was fetched again. -/
inductive Fetched (cm : CaseMap) (main : Reply) (fetched : Except Fault Reply)
    (data : List UInt8) : Prop
  | received (body : main.body = .ok data)
  | again (fault : Fault) (gone : main.body = .error fault) (r : Reply) (answer : fetched = .ok r)
      (ok : r.ok = true) (pdf : r.isPdf cm = true) (body : r.body = .ok data)

theorem pdfData_eq_some_iff {cm : CaseMap} {main : Reply} {fetched : Except Fault Reply}
    {data : List UInt8} :
    pdfData cm main fetched = some data ↔ Fetched cm main fetched data := by
  unfold pdfData
  constructor
  · intro h
    split at h
    next received hbody =>
      obtain rfl := Option.some.inj h
      exact .received hbody
    next fault hgone =>
      unfold refetchPdf at h
      split at h
      next => cases h
      next r =>
        split at h
        next hgood =>
          obtain ⟨hok, hpdf⟩ := Bool.and_eq_true_iff.mp hgood
          cases hbody : r.body with
          | error e =>
            rw [hbody] at h
            cases h
          | ok received =>
            rw [hbody] at h
            obtain rfl := Option.some.inj h
            exact .again fault hgone r rfl hok hpdf hbody
        next => cases h
  · intro h
    cases h with
    | received hbody => rw [hbody]
    | again fault hgone r hanswer hok hpdf hbody =>
      rw [hgone, hanswer]
      show (if (r.ok && r.isPdf cm) = true then r.body.toOption else none) = some data
      rw [hok, hpdf, hbody]
      rfl

/-- **A document is handed over** when the page is one, its bytes are there and they are not
too many; and it is those bytes. -/
theorem pdfBody_eq_some_iff {cm : CaseMap} {main : Option Reply} {fetched : Except Fault Reply}
    {text : Text} : pdfBody cm main fetched = some text ↔
      ∃ r data, main = some r ∧ r.isPdf cm = true ∧ Fetched cm r fetched data ∧
        data.length ≤ maxPdfBytes ∧ text = Base64.encode data := by
  unfold pdfBody
  constructor
  · intro h
    split at h
    next => cases h
    next r =>
      split at h
      next hpdf =>
        split at h
        next => cases h
        next data hdata =>
          split at h
          next => cases h
          next hfits =>
            obtain rfl := Option.some.inj h
            exact ⟨r, data, rfl, hpdf, pdfData_eq_some_iff.mp hdata, Nat.le_of_not_lt hfits, rfl⟩
      next => cases h
  · intro ⟨r, data, hmain, hpdf, hfetched, hfits, htext⟩
    subst hmain
    dsimp only
    rw [if_pos hpdf, pdfData_eq_some_iff.mpr hfetched]
    dsimp only
    rw [if_neg (Nat.not_lt.mpr hfits), htext]

end Solverr.Engines
