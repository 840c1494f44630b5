import FormCheck.FieldMap
import FormCheck.File
import FormCheck.Json.Number
import FormCheck.Json.Parser
import FormCheck.LoadError
import FormCheck.Value

/-!
# Submitted records

A record gives field names their submitted values. It is read from a JSON object all of whose
members are scalars; of members with one name the last counts, but all of them must be scalars.
-/
namespace FormCheck

/-- Field names and what was submitted for them. -/
abbrev Record := FieldMap Value

/-- The scalar that a document stands for. -/
def Value.ofJson? : Json → Option Value
  | .null => some null
  | .bool b => some (bool b)
  | .number n => n.value?.map number
  | .string s => s.map string
  | .array _ | .object _ => none

/-- A scalar as a document. -/
def Value.toJson : Value → Json
  | null => .null
  | bool b => .bool b
  | number n => .ofNumber n
  | string s => .text s

namespace Record

/-- The entry that a member stands for. -/
def entryOfMember? (member : JsonText × Json) : Option (String × Value) := do
  return (← member.1, ← Value.ofJson? member.2)

/-- The record that a document stands for. -/
def ofJson? : Json → Option Record
  | .object members => (members.mapM entryOfMember?).map FieldMap.ofList
  | _ => none

/-- The record that a JSON text stands for. -/
def parse (json : String) : Except LoadError Record :=
  match (Json.parse? json).bind ofJson? with
  | some record => .ok record
  | none => .error (.during .parsingRecord .json)

/-- The record of a file. -/
def ofFile (path : String) : FileState → Except LoadError Record
  | .text content => (parse content).mapError (.within (.loadingRecord path))
  | _ => .error (.during (.readingRecord path) .unreadable)

end Record
end FormCheck
