import Solverr.Lib.Json
import Solverr.Lib.Text

/-!
# What an engine returns

`SolveResult`, the engine-agnostic result of one request. The optional fields
stay unset when they were not asked for.
-/

namespace Solverr.Engines

open Solverr.Lib (Text Json)

/-- `SolveResult` -/
structure SolveResult where
  url : Text
  status : Int
  cookies : List Json
  userAgent : Text
  message : Text
  headers : Option Json
  response : Option Text
  contentType : Option Text
  screenshot : Option Text
  turnstileToken : Option Text

/-- `SolveResult()` -/
def SolveResult.blank : SolveResult :=
  ⟨[], 200, [], [], [], none, none, none, none, none⟩

end Solverr.Engines
