import FormCheck.Document
import FormCheck.Json.Basic

/-!
# Decoding JSON

How a decoder sees a JSON document. An alternative is picked by its name, or by an object whose only
member has that name and the value null.
-/
namespace FormCheck.Json

/-- What a decoder sees of a JSON document. -/
def view : Json → View Json
  | null => .null
  | bool b => .bool b
  | number _ => .other
  | string s => .text s
  | array items => .list items
  | object members => .record members

/-- The alternative that a JSON document picks. -/
def choice? : Json → Option String
  | string s => s
  | object [(name, null)] => name
  | _ => none

/-- JSON as a format of structures. -/
def format : Format Json where
  view := view
  allowsSurplus := false
  choice? := choice?

end FormCheck.Json
