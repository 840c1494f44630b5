import FormCheck.FieldMap
import FormCheck.Json.Printer

/-!
# Results of validation

The result of validating a record gives each field that failed its message. A record is valid if
there is none.
-/
namespace FormCheck

/-- Field names and the messages of their errors. -/
abbrev ErrorMap := FieldMap String

namespace ErrorMap

/-- Whether no field failed. -/
def isValid (errors : ErrorMap) : Bool := errors.isEmpty

/-- The first field that failed, in order of names. -/
def first? (errors : ErrorMap) : Option String := errors.entries.head?.map Prod.fst

/-- An object with one member for each field that failed, in order of names. -/
def toJson (errors : ErrorMap) : Json :=
  .record (errors.entries.map fun e => (e.1, .text e.2))

end ErrorMap
end FormCheck
