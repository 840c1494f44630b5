import FormCheck.Number.Binary64

/-!
# TOML documents

A document is a table of nodes. Entries keep the order in which they were written. How a table came
about decides what may still be added to it, so a table remembers that.
-/
namespace FormCheck.Toml

/-- A calendar date. -/
structure Date where
  year : Nat
  month : Nat
  day : Nat
deriving DecidableEq

/-- A time of day; the fraction of the second is kept as its digits. -/
structure Time where
  hour : Nat
  minute : Nat
  second : Nat
  fraction : List Char
deriving DecidableEq

/-- A date, a time of day, or both with or without an offset in minutes. -/
structure Moment where
  date : Option Date
  time : Option Time
  offset : Option Int
deriving DecidableEq

/-- How a table came about. -/
inductive TableKind where
  /-- By a header of its own. -/
  | header
  /-- On the way to the table of a header. -/
  | implied
  /-- On the way to a dotted key. -/
  | dotted
  /-- In braces. -/
  | inline
  /-- On the way to a dotted key in braces. -/
  | inlineDotted
deriving DecidableEq

/-- A node of a document. -/
inductive Node where
  | string (s : String)
  | integer (n : Int)
  | float (x : Binary64)
  | boolean (b : Bool)
  | moment (m : Moment)
  | array (items : List Node)
  | table (kind : TableKind) (entries : List (String × Node))
  /-- Tables of one name, each with a header of its own. -/
  | tables (elements : List Node)

/-- The names and nodes of a table. -/
abbrev Entries := List (String × Node)

namespace Entries

/-- The node of a name. -/
def lookup (entries : Entries) (name : String) : Option Node :=
  (entries.find? fun e => e.1 = name).map Prod.snd

/-- Another node for a name. -/
def replace (entries : Entries) (name : String) (node : Node) : Entries :=
  entries.map fun e => if e.1 = name then (name, node) else e

/-- A new name goes to the end. -/
def append (entries : Entries) (name : String) (node : Node) : Entries :=
  List.append entries [(name, node)]

end Entries
end FormCheck.Toml
