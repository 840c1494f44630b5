import FormCheck.Text.Split

/-!
# Paths

A path is a text with slashes between its pieces. Empty pieces and single dots name no step.
-/
namespace FormCheck.Path

/-- The pieces that name a step. -/
def steps (path : String) : List (List Char) :=
  (Text.split '/' path.toList).filter fun piece => piece ≠ [] && piece ≠ ['.']

/-- The name that a path ends in, unless it ends in a step upwards. -/
def name? (path : String) : Option (List Char) :=
  (steps path).getLast?.filter fun name => name ≠ ['.', '.']

/-- What stands behind the last dot of a name, unless the dot comes first. -/
def extensionOf? (name : List Char) : Option (List Char) :=
  match Text.split '.' name with
  | [] | [_] | [[], _] => none
  | pieces => pieces.getLast?

/-- The extension of the name that a path ends in. -/
def extension? (path : String) : Option String :=
  ((name? path).bind extensionOf?).map String.ofList

/-- Whether a path names a JSON file; the case of ASCII letters does not matter. -/
def isJson (path : String) : Bool :=
  (extension? path).any fun e => e.toList.map Char.toLower == "json".toList

end FormCheck.Path
