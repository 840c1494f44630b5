import FormCheck.Toml.Basic

/-!
# Building tables

Keys with several parts and headers lead through tables, which come about on the way if need be. A
name is defined once. A table on the way to a dotted key must not have a header of its own, and a
header must not name a table that a dotted key made.
-/
namespace FormCheck.Toml

namespace TableKind

/-- Whether a path that makes tables of kind `made` may lead through a table of kind `met`. -/
def admits : (made met : TableKind) → Bool
  | implied, header | implied, implied | implied, dotted => true
  | dotted, implied | dotted, dotted => true
  | inlineDotted, inlineDotted => true
  | _, _ => false

/-- Whether a table came about on the way to a dotted key. -/
def isDotted : TableKind → Bool
  | dotted | inlineDotted => true
  | _ => false

end TableKind

namespace Entries

/-- Follows a path and changes the entries at its end. Tables that are missing are made with kind
`made`; of tables with headers the last one is entered. -/
def update (made : TableKind) (change : TableKind → Entries → Option Entries) :
    List String → TableKind → Entries → Option Entries
  | [], kind, entries => change kind entries
  | name :: path, _, entries =>
    match entries.lookup name with
    | none => do
      return entries.append name (.table made (← update made change path made []))
    | some (.table kind inner) =>
      if made.admits kind then do
        return entries.replace name (.table kind (← update made change path kind inner))
      else none
    | some (.tables elements) =>
      match made, elements.getLast? with
      | .inlineDotted, _ => none
      | _, some (.table kind inner) => do
        let last ← update made change path kind inner
        return entries.replace name (.tables (elements.dropLast ++ [.table kind last]))
      | _, _ => none
    | some _ => none

/-- Defines a name behind a path of parents. A path of dotted parts has to end in a table that such
a path made. -/
def define (made : TableKind) (path : List String) (name : String) (node : Node) (kind : TableKind)
    (entries : Entries) : Option Entries :=
  update made
    (fun kind entries =>
      if kind.isDotted == path.isEmpty || (entries.lookup name).isSome then none
      else some (entries.append name node))
    path kind entries

/-- Opens the table of a header, be it a new one or one on the way to an earlier header. -/
def openTable (path : List String) (name : String) (root : Entries) : Option Entries :=
  update .implied
    (fun _ entries =>
      match entries.lookup name with
      | none => some (entries.append name (.table .header []))
      | some (.table .implied inner) => some (entries.replace name (.table .header inner))
      | some _ => none)
    path .header root

/-- Opens one more table of the header's name. -/
def openElement (path : List String) (name : String) (root : Entries) : Option Entries :=
  update .implied
    (fun _ entries =>
      match entries.lookup name with
      | none => some (entries.append name (.tables [.table .header []]))
      | some (.tables elements) =>
        some (entries.replace name (.tables (elements ++ [.table .header []])))
      | some _ => none)
    path .header root

/-- Defines a key in the table of the header before it. -/
def defineUnder (header path : List String) (name : String) (node : Node) (root : Entries) :
    Option Entries :=
  update .implied (define .dotted path name node) header .header root

end Entries
end FormCheck.Toml
