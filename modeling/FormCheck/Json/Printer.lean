import FormCheck.Json.Basic

/-!
# Writing JSON

`Json.compact` writes a document without any blank, `Json.pretty` with one member or item to a line
and two blanks to a level. Inside a text only quotes, backslashes and control characters are
escaped.
-/
namespace FormCheck

namespace Numeral

/-- The text of an exponent, always with a sign. -/
def exponentChars : Option Int → List Char
  | none => []
  | some e => 'e' :: (if e < 0 then '-' else '+') :: Nat.toDigits 10 e.natAbs

/-- The text of a numeral. -/
def chars (n : Numeral) : List Char :=
  (if n.negative then ['-'] else []) ++ n.whole ++
    (if n.fraction.isEmpty then [] else '.' :: n.fraction) ++ exponentChars n.exponent

end Numeral

namespace Json

/-- The hexadecimal digit of a number below sixteen, in lower case. -/
def hexDigit (n : Nat) : Char := Nat.digitChar n

/-- One character of a text, escaped where it has to be. -/
def escape (c : Char) : List Char :=
  if c = '"' then ['\\', '"']
  else if c = '\\' then ['\\', '\\']
  else if c = '\x08' then ['\\', 'b']
  else if c = '\x0c' then ['\\', 'f']
  else if c = '\n' then ['\\', 'n']
  else if c = '\r' then ['\\', 'r']
  else if c = '\t' then ['\\', 't']
  else if c.toNat < 0x20 then
    ['\\', 'u', '0', '0', hexDigit (c.toNat / 16), hexDigit (c.toNat % 16)]
  else [c]

/-- A text in quotes. One that stands for no characters is written as a lone surrogate. -/
def quote : JsonText → List Char
  | some s => '"' :: s.toList.flatMap escape ++ ['"']
  | none => "\"\\ud800\"".toList

mutual

/-- A document without blanks. -/
def compact : Json → List Char
  | null => "null".toList
  | bool b => (if b then "true" else "false").toList
  | number n => n.chars
  | string s => quote s
  | array items => '[' :: compactItems items ++ [']']
  | object members => '{' :: compactMembers members ++ ['}']

def compactItems : List Json → List Char
  | [] => []
  | [item] => compact item
  | item :: next :: rest => compact item ++ ',' :: compactItems (next :: rest)

def compactMembers : List (JsonText × Json) → List Char
  | [] => []
  | [(name, value)] => quote name ++ ':' :: compact value
  | (name, value) :: next :: rest =>
    quote name ++ ':' :: compact value ++ ',' :: compactMembers (next :: rest)

end

/-- The start of a line at a level. -/
def newline (level : Nat) : List Char := '\n' :: List.replicate (2 * level) ' '

mutual

/-- A document whose items and members have lines of their own. -/
def pretty (level : Nat) : Json → List Char
  | array (item :: rest) =>
    '[' :: prettyItems (level + 1) (item :: rest) ++ newline level ++ [']']
  | object (member :: rest) =>
    '{' :: prettyMembers (level + 1) (member :: rest) ++ newline level ++ ['}']
  | null => compact null
  | bool b => compact (bool b)
  | number n => compact (number n)
  | string s => compact (string s)
  | array [] => compact (array [])
  | object [] => compact (object [])

def prettyItems (level : Nat) : List Json → List Char
  | [] => []
  | [item] => newline level ++ pretty level item
  | item :: next :: rest =>
    newline level ++ pretty level item ++ ',' :: prettyItems level (next :: rest)

def prettyMembers (level : Nat) : List (JsonText × Json) → List Char
  | [] => []
  | [(name, value)] => newline level ++ quote name ++ ':' :: ' ' :: pretty level value
  | (name, value) :: next :: rest =>
    newline level ++ quote name ++ ':' :: ' ' :: pretty level value ++
      ',' :: prettyMembers level (next :: rest)

end

/-- A document as one line of text. -/
def compactText (j : Json) : String := String.ofList j.compact

/-- A document as indented text. -/
def prettyText (j : Json) : String := String.ofList (j.pretty 0)

end Json
end FormCheck
