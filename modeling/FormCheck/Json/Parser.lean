import FormCheck.Json.Basic
import FormCheck.Text.Hex

/-!
# Reading JSON

`Json.parse?` accepts a text that is exactly one document with blanks around it. The readers below
take a text and return what they read from its front together with the rest.
-/
namespace FormCheck.Json

/-- A blank between the parts of a document. -/
def isSpace (c : Char) : Bool := c == ' ' || c == '\t' || c == '\n' || c == '\r'

def skipSpace (s : List Char) : List Char := s.dropWhile isSpace

/-- A part of a text: a character, or the 16-bit unit of an escape. -/
inductive Unit16 where
  | char (c : Char)
  | unit (n : Nat)
deriving DecidableEq

/-- The character of an escape of one letter. -/
def shortEscape? : Char → Option Char
  | '"' => some '"'
  | '\\' => some '\\'
  | '/' => some '/'
  | 'b' => some '\x08'
  | 'f' => some '\x0c'
  | 'n' => some '\n'
  | 'r' => some '\r'
  | 't' => some '\t'
  | _ => none

/-- The parts of a text up to its closing quote. -/
def readUnits : List Char → Option (List Unit16 × List Char)
  | [] => none
  | '"' :: rest => some ([], rest)
  | '\\' :: 'u' :: a :: b :: c :: d :: rest => do
    let n ← Text.hexNumber? [a, b, c, d]
    let (units, rest) ← readUnits rest
    return (.unit n :: units, rest)
  | '\\' :: letter :: rest => do
    let c ← shortEscape? letter
    let (units, rest) ← readUnits rest
    return (.char c :: units, rest)
  | c :: rest =>
    if c.toNat < 0x20 ∨ c = '\\' then none
    else do
      let (units, rest) ← readUnits rest
      return (.char c :: units, rest)

/-- The first half of a surrogate pair. -/
def isHigh (n : Nat) : Bool := 0xD800 ≤ n && n ≤ 0xDBFF

/-- The second half of a surrogate pair. -/
def isLow (n : Nat) : Bool := 0xDC00 ≤ n && n ≤ 0xDFFF

/-- The characters of a text, with the halves of surrogate pairs joined. -/
def joinPairs? : List Unit16 → Option (List Char)
  | [] => some []
  | .char c :: rest => (joinPairs? rest).map (c :: ·)
  | .unit high :: .unit low :: rest =>
    if isHigh high then
      if isLow low then
        (joinPairs? rest).map
          (Char.ofNat (0x10000 + (high - 0xD800) * 0x400 + (low - 0xDC00)) :: ·)
      else none
    else if isLow high then none
    else (joinPairs? (.unit low :: rest)).map (Char.ofNat high :: ·)
  | .unit n :: rest =>
    if isHigh n || isLow n then none else (joinPairs? rest).map (Char.ofNat n :: ·)

/-- A text behind its opening quote. -/
def readText (s : List Char) : Option (JsonText × List Char) :=
  (readUnits s).map fun r => ((joinPairs? r.1).map String.ofList, r.2)

/-- One or more digits. -/
def readDigits (s : List Char) : Option (List Char × List Char) :=
  if (s.takeWhile Char.isDigit).isEmpty then none
  else some (s.takeWhile Char.isDigit, s.dropWhile Char.isDigit)

/-- The digits before the point: a zero stands alone. -/
def readWhole : List Char → Option (List Char × List Char)
  | '0' :: rest => some (['0'], rest)
  | s => readDigits s

/-- The digits behind a point, if there is one. -/
def readFraction : List Char → Option (List Char × List Char)
  | '.' :: rest => readDigits rest
  | s => some ([], s)

/-- The exponent behind its mark, with an optional sign. -/
def readSignedExponent : List Char → Option (Int × List Char)
  | '-' :: rest => (readDigits rest).map fun r => (-(Nat.ofDigitChars 10 r.1 0 : Int), r.2)
  | '+' :: rest => (readDigits rest).map fun r => ((Nat.ofDigitChars 10 r.1 0 : Int), r.2)
  | s => (readDigits s).map fun r => ((Nat.ofDigitChars 10 r.1 0 : Int), r.2)

/-- The exponent, if there is one. -/
def readExponent (s : List Char) : Option (Option Int × List Char) :=
  match s with
  | 'e' :: rest => (readSignedExponent rest).map fun r => (some r.1, r.2)
  | 'E' :: rest => (readSignedExponent rest).map fun r => (some r.1, r.2)
  | s => some (none, s)

/-- A numeral behind its sign. -/
def readUnsigned (negative : Bool) (s : List Char) : Option (Numeral × List Char) := do
  let (whole, s) ← readWhole s
  let (fraction, s) ← readFraction s
  let (exponent, s) ← readExponent s
  return (⟨negative, whole, fraction, exponent⟩, s)

/-- A numeral. -/
def readNumeral : List Char → Option (Numeral × List Char)
  | '-' :: rest => readUnsigned true rest
  | s => readUnsigned false s

/-- A member's name and the colon behind it. -/
def readName (s : List Char) : Option (JsonText × List Char) :=
  match skipSpace s with
  | '"' :: rest => do
    let (name, rest) ← readText rest
    match skipSpace rest with
    | ':' :: rest => some (name, rest)
    | _ => none
  | _ => none

mutual

/-- A document with blanks before it. Each nested part takes one unit of fuel. -/
def readValue : Nat → List Char → Option (Json × List Char)
  | 0, _ => none
  | fuel + 1, s =>
    match skipSpace s with
    | 'n' :: 'u' :: 'l' :: 'l' :: rest => some (null, rest)
    | 't' :: 'r' :: 'u' :: 'e' :: rest => some (bool true, rest)
    | 'f' :: 'a' :: 'l' :: 's' :: 'e' :: rest => some (bool false, rest)
    | '"' :: rest => (readText rest).map fun r => (string r.1, r.2)
    | '[' :: rest =>
      match skipSpace rest with
      | ']' :: rest => some (array [], rest)
      | rest => (readItems fuel rest).map fun r => (array r.1, r.2)
    | '{' :: rest =>
      match skipSpace rest with
      | '}' :: rest => some (object [], rest)
      | rest => (readMembers fuel rest).map fun r => (object r.1, r.2)
    | s => (readNumeral s).map fun r => (number r.1, r.2)

/-- One or more items and the closing bracket. -/
def readItems : Nat → List Char → Option (List Json × List Char)
  | 0, _ => none
  | fuel + 1, s => do
    let (item, rest) ← readValue fuel s
    match skipSpace rest with
    | ']' :: rest => some ([item], rest)
    | ',' :: rest =>
      let (items, rest) ← readItems fuel rest
      return (item :: items, rest)
    | _ => none

/-- One or more members and the closing brace. -/
def readMembers : Nat → List Char → Option (List (JsonText × Json) × List Char)
  | 0, _ => none
  | fuel + 1, s => do
    let (name, rest) ← readName s
    let (value, rest) ← readValue fuel rest
    match skipSpace rest with
    | '}' :: rest => some ([(name, value)], rest)
    | ',' :: rest =>
      let (members, rest) ← readMembers fuel rest
      return ((name, value) :: members, rest)
    | _ => none

end

/-- The document that a text holds. A part of `n` characters takes at most `n` units of fuel. -/
def parse? (s : String) : Option Json :=
  match readValue (s.toList.length + 1) s.toList with
  | some (j, rest) => if (skipSpace rest).isEmpty then some j else none
  | none => none

end FormCheck.Json
