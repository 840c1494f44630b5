/-!
# JSON documents

A document keeps the order of members and repeated names, since both matter to whoever decodes it.
A numeral is kept as written and not as a number. A text may hold an escape for half of a surrogate
pair; such a text stands for no string of characters.
-/
namespace FormCheck

/-- A number as it is written: a sign, the digits before and behind a point, and an exponent. -/
structure Numeral where
  negative : Bool
  whole : List Char
  fraction : List Char
  exponent : Option Int
deriving DecidableEq

/-- The characters of a text, unless half of a surrogate pair is among its escapes. -/
abbrev JsonText := Option String

/-- A JSON document. -/
inductive Json where
  | null
  | bool (b : Bool)
  | number (n : Numeral)
  | string (s : JsonText)
  | array (items : List Json)
  | object (members : List (JsonText × Json))

namespace Json

/-- A text without surrogate escapes. -/
def text (s : String) : Json := string (some s)

/-- A natural number. -/
def nat (n : Nat) : Json := number ⟨false, Nat.toDigits 10 n, [], none⟩

/-- An object whose names hold no surrogate escapes. -/
def record (members : List (String × Json)) : Json :=
  object (members.map fun m => (some m.1, m.2))

end Json
end FormCheck
