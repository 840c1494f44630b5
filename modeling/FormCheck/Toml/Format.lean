import FormCheck.Document
import FormCheck.Toml.Basic

/-!
# Decoding TOML

How a decoder sees a TOML document. A date or a time counts as a record without any of the fields
asked for. An alternative is picked by its name, or by a table whose only entry has that name and no
content.
-/
namespace FormCheck.Toml

namespace Node

/-- What a decoder sees of a node. -/
def view : Node → View Node
  | string s => .text (some s)
  | boolean b => .bool b
  | array items => .list items
  | tables elements => .list elements
  | table _ entries => .record (entries.map fun e => (some e.1, e.2))
  | moment _ => .record []
  | integer _ | float _ => .other

/-- Whether a node is an array or a table without content. -/
def isVacant : Node → Bool
  | array [] | tables [] | table _ [] => true
  | _ => false

/-- The name of an entry without content. -/
def vacantName? (entry : String × Node) : Option String :=
  if entry.2.isVacant then some entry.1 else none

/-- The alternative that a node picks. -/
def choice? : Node → Option String
  | string s => some s
  | table _ [entry] => vacantName? entry
  | _ => none

end Node

/-- TOML as a format of structures. -/
def format : Format Node where
  view := Node.view
  allowsSurplus := true
  choice? := Node.choice?

end FormCheck.Toml
