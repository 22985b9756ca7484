import Inlay.Files
import Inlay.Json.Fault

/-!
# Failures

What can go wrong when a declaration is replaced by data: its module cannot be read, or is no JSON,
or holds data that the declaration cannot take apart.

* `Failure.message` is the wording of each.
-/

namespace Inlay

/-- **Why a declaration cannot be replaced.** -/
inductive Failure where
  /-- The file at `path` cannot be read. -/
  | unreadable (path : String) (cause : ReadError)
  /-- The file at `path` is no JSON text. -/
  | malformed (path : String) (cause : Json.Error)
  /-- Names are picked from data that is no object. -/
  | notObject (module : String)
  /-- Positions are picked from data that is neither a list nor a string. -/
  | notSequence (module : String)
  /-- The rest of a list goes to something else than a plain name. -/
  | unsupportedRest (module : String)
deriving DecidableEq, Repr

/-- A text between plain double quotes. -/
def Failure.between (s : String) : String := "\"" ++ s ++ "\""

/-- **The wording of a failure.** -/
def Failure.message : Failure → String
  | unreadable path cause => "Unable to read JSON module " ++ between path ++ ": " ++ cause.message
  | malformed path cause => "Unable to parse JSON module " ++ between path ++ ": " ++ cause.message
  | notObject module =>
    "Attempting to destructure from non-object JSON module " ++ between module
  | notSequence module =>
    "Attempting to positionally destructure from non-array/string JSON module " ++ between module
  | unsupportedRest module =>
    "Unrecognized rest spread argument in JSON module " ++ between module

end Inlay
