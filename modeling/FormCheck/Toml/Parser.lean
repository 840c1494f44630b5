import FormCheck.Toml.Scalar
import FormCheck.Toml.Table

/-!
# Reading TOML

`Toml.parse?` reads a document line by line: a header, a key and its value, a comment or nothing.
Arrays may go over several lines, tables in braces may not. Values nest at most 79 levels deep, and
a key has at most 79 parts.
-/
namespace FormCheck.Toml

/-- Line ends of two characters become line feeds. -/
def normalizeLines : List Char → List Char
  | '\r' :: '\n' :: rest => '\n' :: normalizeLines rest
  | c :: rest => c :: normalizeLines rest
  | [] => []

/-- The rest of a line behind its last value: blanks, and perhaps a comment. -/
def readLineEnd (s : List Char) : Option (List Char) :=
  let rest := match skipSpace s with
    | '#' :: comment => comment.dropWhile isAllowed
    | rest => rest
  match rest with
  | [] => some []
  | '\n' :: rest => some rest
  | _ => none

/-- Blanks, line ends and comments inside an array. -/
def skipLines : Nat → List Char → Option (List Char)
  | 0, _ => none
  | fuel + 1, s =>
    match skipSpace s with
    | '\n' :: rest => skipLines fuel rest
    | '#' :: comment =>
      match comment.dropWhile isAllowed with
      | '\n' :: rest => skipLines fuel rest
      | _ => none
    | rest => some rest

/-- A character of a key without quotes. -/
def isBare (c : Char) : Bool := c.isAlphanum || c == '_' || c == '-'

/-- One part of a key. -/
def readPart : List Char → Option (String × List Char)
  | '"' :: rest => (readBasic (rest.length + 1) rest).map fun r => (String.ofList r.1, r.2)
  | '\'' :: rest => (readLiteral rest).map fun r => (String.ofList r.1, r.2)
  | s =>
    if (s.takeWhile isBare).isEmpty then none
    else some (String.ofList (s.takeWhile isBare), s.dropWhile isBare)

/-- Parts with dots between them and blanks around them. -/
def readParts : Nat → List Char → Option (List String × List Char)
  | 0, _ => none
  | fuel + 1, s => do
    let (part, rest) ← readPart (skipSpace s)
    match skipSpace rest with
    | '.' :: rest =>
      let (parts, rest) ← readParts fuel rest
      return (part :: parts, rest)
    | rest => return ([part], rest)

/-- How deep values nest and how many parts a key has, at most. -/
def maxDepth : Nat := 79

/-- The parts before the last part of a key, and the last part. -/
def readKey (s : List Char) : Option ((List String × String) × List Char) := do
  let (parts, rest) ← readParts (s.length + 1) s
  if parts.length ≤ maxDepth then
    return ((parts.dropLast, ← parts.getLast?), rest)
  else none

/-- A key and the equals sign behind it. -/
def readKeySign (s : List Char) : Option ((List String × String) × List Char) := do
  let (key, rest) ← readKey s
  return (key, skipSpace (← readChar '=' rest))

mutual

/-- A value with at most `room` levels of arrays and tables in it. -/
def readValue (room : Nat) : Nat → List Char → Option (Node × List Char)
  | 0, _ => none
  | fuel + 1, s =>
    match s, room with
    | '[' :: _, 0 | '{' :: _, 0 => none
    | '[' :: rest, room + 1 => do
      match ← skipLines (rest.length + 1) rest with
      | ']' :: rest => return (.array [], rest)
      | rest =>
        let (items, rest) ← readItems room fuel rest
        return (.array items, rest)
    | '{' :: rest, room + 1 =>
      match skipSpace rest with
      | '}' :: rest => some (.table .inline [], rest)
      | rest => do
        let (entries, rest) ← readPairs room [] fuel rest
        return (.table .inline entries, rest)
    | s, _ => readScalar s

/-- One or more items, of which the last may have a comma behind it, and the closing bracket. -/
def readItems (room : Nat) : Nat → List Char → Option (List Node × List Char)
  | 0, _ => none
  | fuel + 1, s => do
    let (item, rest) ← readValue room fuel s
    match ← skipLines (rest.length + 1) rest with
    | ']' :: rest => return ([item], rest)
    | ',' :: rest =>
      match ← skipLines (rest.length + 1) rest with
      | ']' :: rest => return ([item], rest)
      | rest =>
        let (items, rest) ← readItems room fuel rest
        return (item :: items, rest)
    | _ => none

/-- One or more keys with their values, added to the entries before them, and the closing brace. -/
def readPairs (room : Nat) (entries : Entries) : Nat → List Char → Option (Entries × List Char)
  | 0, _ => none
  | fuel + 1, s => do
    let ((path, name), rest) ← readKeySign s
    let (node, rest) ← readValue room fuel rest
    let entries ← entries.define .inlineDotted path name node .inline
    match skipSpace rest with
    | '}' :: rest => return (entries, rest)
    | ',' :: rest => readPairs room entries fuel rest
    | _ => none

end

/-- A header behind its opening brackets: its key, its closing brackets and the end of its line. -/
def readHeader (closing : List Char) (s : List Char) :
    Option ((List String × String) × List Char) := do
  let (key, rest) ← readKey s
  if closing.isPrefixOf rest then return (key, ← readLineEnd (rest.drop closing.length)) else none

/-- The lines of a document, from the entries and the header before them on. -/
def readExpressions (root : Entries) (header : List String) : Nat → List Char → Option Entries
  | 0, _ => none
  | fuel + 1, s =>
    match skipSpace s with
    | [] => some root
    | '\n' :: rest => readExpressions root header fuel rest
    | '#' :: rest => do readExpressions root header fuel (← readLineEnd ('#' :: rest))
    | '[' :: '[' :: rest => do
      let ((path, name), rest) ← readHeader [']', ']'] rest
      readExpressions (← root.openElement path name) (path ++ [name]) fuel rest
    | '[' :: rest => do
      let ((path, name), rest) ← readHeader [']'] rest
      readExpressions (← root.openTable path name) (path ++ [name]) fuel rest
    | s => do
      let ((path, name), rest) ← readKeySign s
      let (node, rest) ← readValue maxDepth (rest.length + 1) rest
      let root ← root.defineUnder header path name node
      readExpressions root header fuel (← readLineEnd rest)

/-- The byte order mark at the front of a document does not belong to it. -/
def dropMark : List Char → List Char
  | '\uFEFF' :: rest => rest
  | s => s

/-- The document that a text holds. -/
def parse? (content : String) : Option Node :=
  let s := normalizeLines (dropMark content.toList)
  (readExpressions [] [] (s.length + 1) s).map (.table .header)

end FormCheck.Toml
