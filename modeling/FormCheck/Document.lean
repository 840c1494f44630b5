/-!
# Decoding documents

Schemas and settings are decoded from documents of several formats. `View` is what a decoder sees of
one node, and `Format` says how to see it and where formats differ. A structure is written either as
a record, whose order does not matter and whose unknown members are ignored, or as a list of its
fields in order.
-/
namespace FormCheck

/-- One node of a document. The name of a member or a text may stand for no characters. -/
inductive View (α : Type) where
  | null
  | bool (b : Bool)
  | text (s : Option String)
  | list (items : List α)
  | record (members : List (Option String × α))
  | other

/-- How the documents of a format are decoded. -/
structure Format (α : Type) where
  view : α → View α
  /-- Whether a list may go on behind the last field of a structure. -/
  allowsSurplus : Bool
  /-- The name of the alternative that a node picks from a list of names. -/
  choice? : α → Option String

/-- The fields of a structure. -/
inductive Fields (α : Type) where
  | named (members : List (String × α))
  | positional (items : List α)

variable {α β : Type}

namespace Fields

/-- The node of a field, if it is there. A field has one position and may have several names, of
which at most one may occur, and only once. -/
def get? (names : List String) (position : Nat) : Fields α → Option (Option α)
  | named members =>
    match members.filter fun m => names.contains m.1 with
    | [] => some none
    | [m] => some (some m.2)
    | _ => none
  | positional items => some items[position]?

/-- Decodes a field that has to be there. -/
def required (decode : α → Option β) (names : List String) (position : Nat) (fields : Fields α) :
    Option β := do
  decode (← (← fields.get? names position))

/-- Decodes a field that may be left out. -/
def withDefault (default : β) (decode : α → Option β) (names : List String) (position : Nat)
    (fields : Fields α) : Option β := do
  match ← fields.get? names position with
  | some node => decode node
  | none => some default

end Fields

namespace Format

/-- A member whose name stands for characters. -/
def named? (member : Option String × α) : Option (String × α) :=
  member.1.map fun name => (name, member.2)

/-- The fields of a structure of `count` fields. -/
def fields? (format : Format α) (count : Nat) (node : α) : Option (Fields α) :=
  match format.view node with
  | .record members => (members.mapM named?).map .named
  | .list items =>
    if format.allowsSurplus || items.length ≤ count then some (.positional items) else none
  | _ => none

/-- A record all of whose names stand for characters is a structure with these fields. -/
theorem fields?_of_view {format : Format α} {node : α} {members : List (String × α)}
    (h : format.view node = .record (members.map fun m => (some m.1, m.2))) (count : Nat) :
    format.fields? count node = some (.named members) := by
  have hnamed (l : List (String × α)) :
      (l.map fun m => (some m.1, m.2)).mapM named? = some l := by
    induction l with
    | nil => rfl
    | cons m l ih =>
      rw [List.map_cons, List.mapM_cons, ih]
      rfl
  rw [fields?, h]
  simp only [hnamed, Option.map_some]

/-- A text. -/
def text? (format : Format α) (node : α) : Option String :=
  match format.view node with
  | .text s => s
  | _ => none

/-- A text or null. -/
def nullableText? (format : Format α) (node : α) : Option (Option String) :=
  match format.view node with
  | .null => some none
  | .text s => s.map some
  | _ => none

/-- A truth value. -/
def bool? (format : Format α) (node : α) : Option Bool :=
  match format.view node with
  | .bool b => some b
  | _ => none

/-- A list all of whose items can be decoded. -/
def list? (format : Format α) (decode : α → Option β) (node : α) : Option (List β) :=
  match format.view node with
  | .list items => items.mapM decode
  | _ => none

end Format
end FormCheck
