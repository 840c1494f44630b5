import FormCheck.Number.Text
import FormCheck.Text.Hex
import FormCheck.Toml.Basic

/-!
# Reading scalars

The readers take a text and return what they read from its front together with the rest. Lines end
in a line feed; a carriage return is an ordinary character here, and not an allowed one.
-/
namespace FormCheck.Toml

/-- A blank inside a line. -/
def isSpace (c : Char) : Bool := c == ' ' || c == '\t'

def skipSpace (s : List Char) : List Char := s.dropWhile isSpace

/-- A character that may stand in a comment or a text: a tab, or no control character. -/
def isAllowed (c : Char) : Bool := c == '\t' || (0x20 ≤ c.toNat && c.toNat != 0x7F)

/-! ## Texts -/

/-- The character of a code point in hexadecimal digits. -/
def codePoint? (digits : List Char) : Option Char := do
  let n ← Text.hexNumber? digits
  if n.isValidChar then some (Char.ofNat n) else none

/-- The character of an escape behind its backslash. -/
def readEscape : List Char → Option (Char × List Char)
  | 'b' :: rest => some ('\x08', rest)
  | 't' :: rest => some ('\t', rest)
  | 'n' :: rest => some ('\n', rest)
  | 'f' :: rest => some ('\x0c', rest)
  | 'r' :: rest => some ('\r', rest)
  | '"' :: rest => some ('"', rest)
  | '\\' :: rest => some ('\\', rest)
  | 'u' :: rest =>
    if 4 ≤ rest.length then (codePoint? (rest.take 4)).map fun c => (c, rest.drop 4) else none
  | 'U' :: rest =>
    if 8 ≤ rest.length then (codePoint? (rest.take 8)).map fun c => (c, rest.drop 8) else none
  | _ => none

/-- A text of one line with escapes, behind its opening quote. -/
def readBasic : Nat → List Char → Option (List Char × List Char)
  | 0, _ => none
  | fuel + 1, s =>
    match s with
    | '"' :: rest => some ([], rest)
    | '\\' :: rest => do
      let (c, rest) ← readEscape rest
      let (text, rest) ← readBasic fuel rest
      return (c :: text, rest)
    | c :: rest =>
      if isAllowed c then (readBasic fuel rest).map fun r => (c :: r.1, r.2) else none
    | [] => none

/-- A text of one line without escapes, behind its opening quote. -/
def readLiteral : List Char → Option (List Char × List Char)
  | '\'' :: rest => some ([], rest)
  | c :: rest =>
    if isAllowed c then (readLiteral rest).map fun r => (c :: r.1, r.2) else none
  | [] => none

/-- The quotes at the front of a text of several lines. Fewer than three stand for themselves; three
close the text, and up to two before them belong to it. The text is closed if the last part is
true. -/
def readQuotes (quote : Char) (s : List Char) : List Char × List Char × Bool :=
  let count := (s.takeWhile (· == quote)).length
  if count < 3 then (List.replicate count quote, s.drop count, false)
  else if count < 5 then (List.replicate (count - 3) quote, s.drop count, true)
  else ([quote, quote], s.drop 5, true)

/-- A backslash at the end of a line takes the blanks and line ends after it away. -/
def readContinuation? (s : List Char) : Option (List Char) :=
  match skipSpace s with
  | '\n' :: rest => some (rest.dropWhile fun c => isSpace c || c == '\n')
  | _ => none

/-- A text of several lines, behind its opening quotes, with escapes if the quotes are double. -/
def readLines (quote : Char) : Nat → List Char → Option (List Char × List Char)
  | 0, _ => none
  | fuel + 1, s =>
    match s with
    | [] => none
    | c :: rest =>
      if c = quote then
        match readQuotes quote s with
        | (quotes, rest, true) => some (quotes, rest)
        | (quotes, rest, false) => (readLines quote fuel rest).map fun r => (quotes ++ r.1, r.2)
      else if c = '\\' ∧ quote = '"' then
        match readContinuation? rest with
        | some rest => readLines quote fuel rest
        | none => do
          let (c, rest) ← readEscape rest
          let (text, rest) ← readLines quote fuel rest
          return (c :: text, rest)
      else if isAllowed c || c == '\n' then
        (readLines quote fuel rest).map fun r => (c :: r.1, r.2)
      else none

/-- A line end directly behind the opening quotes is not part of the text. -/
def dropFirstLineEnd : List Char → List Char
  | '\n' :: rest => rest
  | s => s

/-- A text of any of the four forms. -/
def readString (s : List Char) : Option (String × List Char) :=
  let read := match s with
    | '"' :: '"' :: '"' :: rest => readLines '"' (rest.length + 1) (dropFirstLineEnd rest)
    | '"' :: rest => readBasic (rest.length + 1) rest
    | '\'' :: '\'' :: '\'' :: rest => readLines '\'' (rest.length + 1) (dropFirstLineEnd rest)
    | '\'' :: rest => readLiteral rest
    | _ => none
  read.map fun r => (String.ofList r.1, r.2)

/-! ## Numbers -/

/-- Digits with single underscores between them. -/
def moreDigits (isDigit : Char → Bool) : List Char → List Char × List Char
  | '_' :: c :: rest =>
    if isDigit c then
      let (digits, rest) := moreDigits isDigit rest
      (c :: digits, rest)
    else ([], '_' :: c :: rest)
  | c :: rest =>
    if isDigit c then
      let (digits, rest) := moreDigits isDigit rest
      (c :: digits, rest)
    else ([], c :: rest)
  | [] => ([], [])

/-- One or more digits with single underscores between them. -/
def readDigits (isDigit : Char → Bool) : List Char → Option (List Char × List Char)
  | c :: rest =>
    if isDigit c then
      let (digits, rest) := moreDigits isDigit rest
      some (c :: digits, rest)
    else none
  | [] => none

/-- Decimal digits without a leading zero, or a zero. -/
def readWhole : List Char → Option (List Char × List Char)
  | '0' :: rest => some (['0'], rest)
  | s => readDigits Char.isDigit s

/-- An integer in the range of 64 bits with a sign. -/
def integer64? (n : Int) : Option Int :=
  if -Nat.pow 2 63 ≤ n ∧ n < Nat.pow 2 63 then some n else none

/-- Digits of a base, given by its mark, as an integer. -/
def readInBase (base : Nat) (s : List Char) : Option (Node × List Char) := do
  let isDigit := fun c => (Text.hexValue? c).any fun d => decide (d < base)
  let (digits, rest) ← readDigits isDigit s
  let n := (digits.filterMap Text.hexValue?).foldl (fun n d => n * base + d) 0
  return (.integer (← integer64? n), rest)

/-- An integer. -/
def readInteger : List Char → Option (Node × List Char)
  | '0' :: 'x' :: rest => readInBase 16 rest
  | '0' :: 'o' :: rest => readInBase 8 rest
  | '0' :: 'b' :: rest => readInBase 2 rest
  | s => do
    let (negative, s) := Binary64.splitSign s
    let (digits, rest) ← readWhole s
    let n : Int := Nat.ofDigitChars 10 digits 0
    return (.integer (← integer64? (if negative then -n else n)), rest)

/-- The digits behind a point, if there is one. -/
def readFraction : List Char → Option (List Char × List Char)
  | '.' :: rest => readDigits Char.isDigit rest
  | s => some ([], s)

/-- The exponent behind its mark, if there is one. -/
def readExponent : List Char → Option (Option Int × List Char)
  | mark :: rest =>
    if mark == 'e' || mark == 'E' then do
      let (negative, rest) := Binary64.splitSign rest
      let (digits, rest) ← readDigits Char.isDigit rest
      let n : Int := Nat.ofDigitChars 10 digits 0
      return (some (if negative then -n else n), rest)
    else some (none, mark :: rest)
  | [] => some (none, [])

/-- A number with a point or an exponent. One that is too large is refused, unless it is
negative. -/
def readDecimal (s : List Char) : Option (Node × List Char) := do
  let (negative, s) := Binary64.splitSign s
  let (whole, s) ← readWhole s
  let (fraction, s) ← readFraction s
  let (exponent, s) ← readExponent s
  if fraction.isEmpty && exponent.isNone then none
  else
    let digits := Nat.ofDigitChars 10 (whole ++ fraction) 0
    let x := Binary64.signed negative
      (Magnitude.ofDecimal? digits (exponent.getD 0 - fraction.length))
    if x = .infinite false then none else some (.float x, s)

/-- The name of a special number with an optional sign. -/
def readSpecial (s : List Char) : Option (Node × List Char) :=
  match Binary64.splitSign s with
  | (negative, 'i' :: 'n' :: 'f' :: rest) => some (.float (.infinite negative), rest)
  | (_, 'n' :: 'a' :: 'n' :: rest) => some (.float .nan, rest)
  | _ => none

/-! ## Dates and times -/

/-- A number of exactly `count` digits between two bounds. -/
def readTwo (low high : Nat) : List Char → Option (Nat × List Char)
  | a :: b :: rest =>
    if a.isDigit && b.isDigit then
      let n := Nat.ofDigitChars 10 [a, b] 0
      if low ≤ n ∧ n ≤ high then some (n, rest) else none
    else none
  | _ => none

/-- One given character. -/
def readChar (c : Char) : List Char → Option (List Char)
  | d :: rest => if d = c then some rest else none
  | [] => none

/-- How many days a month has. -/
def daysIn (year month : Nat) : Nat :=
  if month = 2 then
    if year % 4 = 0 ∧ (year % 100 ≠ 0 ∨ year % 400 = 0) then 29 else 28
  else if month = 4 ∨ month = 6 ∨ month = 9 ∨ month = 11 then 30
  else 31

def readDate (s : List Char) : Option (Date × List Char) := do
  let digits := s.take 4
  if digits.length = 4 && digits.all Char.isDigit then
    let year := Nat.ofDigitChars 10 digits 0
    let (month, s) ← readTwo 1 12 (← readChar '-' (s.drop 4))
    let (day, s) ← readTwo 1 (daysIn year month) (← readChar '-' s)
    return (⟨year, month, day⟩, s)
  else none

def readTime (s : List Char) : Option (Time × List Char) := do
  let (hour, s) ← readTwo 0 23 s
  let (minute, s) ← readTwo 0 59 (← readChar ':' s)
  let (second, s) ← readTwo 0 60 (← readChar ':' s)
  match s with
  | '.' :: c :: rest =>
    if c.isDigit then
      return (⟨hour, minute, second, c :: rest.takeWhile Char.isDigit⟩,
        rest.dropWhile Char.isDigit)
    else return (⟨hour, minute, second, []⟩, s)
  | s => return (⟨hour, minute, second, []⟩, s)

/-- An offset in minutes, if there is one. -/
def readOffset : List Char → Option (Option Int × List Char)
  | 'Z' :: rest | 'z' :: rest => some (some 0, rest)
  | '+' :: rest => do
    let (hours, rest) ← readTwo 0 23 rest
    let (minutes, rest) ← readTwo 0 59 (← readChar ':' rest)
    return (some (hours * 60 + minutes), rest)
  | '-' :: rest => do
    let (hours, rest) ← readTwo 0 23 rest
    let (minutes, rest) ← readTwo 0 59 (← readChar ':' rest)
    return (some (-(hours * 60 + minutes : Int)), rest)
  | s => some (none, s)

/-- The time of day behind a date, if there is one. -/
def readDateTime (date : Date) (s : List Char) : Option (Node × List Char) :=
  let time := match s with
    | mark :: rest =>
      if mark == 'T' || mark == 't' || mark == ' ' then readTime rest else none
    | [] => none
  match time with
  | none => some (.moment ⟨some date, none, none⟩, s)
  | some (time, rest) =>
    (readOffset rest).map fun r => (.moment ⟨some date, some time, r.1⟩, r.2)

/-- A date, a time of day, or both. -/
def readMoment (s : List Char) : Option (Node × List Char) :=
  match readDate s with
  | some (date, rest) => readDateTime date rest
  | none => (readTime s).map fun r => (.moment ⟨none, some r.1, none⟩, r.2)

/-! ## All scalars -/

/-- A node that is no array and no table. -/
def readScalar (s : List Char) : Option (Node × List Char) :=
  match s with
  | 't' :: 'r' :: 'u' :: 'e' :: rest => some (.boolean true, rest)
  | 'f' :: 'a' :: 'l' :: 's' :: 'e' :: rest => some (.boolean false, rest)
  | '"' :: _ | '\'' :: _ => (readString s).map fun r => (.string r.1, r.2)
  | _ => readMoment s <|> readDecimal s <|> readSpecial s <|> readInteger s

end FormCheck.Toml
