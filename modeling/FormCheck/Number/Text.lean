import FormCheck.Number.Shortest

/-!
# Numbers as text

`Binary64.text` writes a number in the notation of a browser: the fewest digits that read back, in
positional notation from `10 ^ -6` up to `10 ^ 21` and with a signed exponent outside. The number
itself is compared with these bounds, not its digits. Of two equally close decimals the upper one is
written, where a browser takes the one with even digits. `Binary64.read?` reads a decimal text as
the nearest number.
-/
namespace FormCheck

namespace Decimal

/-- An exponent mark and the digits of an exponent, with a sign if it is negative. -/
def exponentText (exponent : Int) : List Char :=
  'e' :: (if exponent < 0 then ['-'] else []) ++ Nat.toDigits 10 exponent.natAbs

/-- The first digit, the others behind a point, and the exponent of the first digit. -/
def scientific (d : Decimal) : List Char :=
  match d.digits with
  | [] => []
  | [first] => first :: exponentText (d.point - 1)
  | first :: rest => first :: '.' :: rest ++ exponentText (d.point - 1)

/-- A point inside the digits, or zeros on the side where the digits do not reach the point. -/
def positional (d : Decimal) : List Char :=
  if d.point ≤ 0 then '0' :: '.' :: List.replicate (-d.point).toNat '0' ++ d.digits
  else if d.digits.length ≤ d.point then
    d.digits ++ List.replicate (d.point - d.digits.length).toNat '0'
  else d.digits.take d.point.toNat ++ '.' :: d.digits.drop d.point.toNat

end Decimal

/-- The nearest number to a power of ten, in quanta. -/
def powerOfTen (exponent : Int) : Nat :=
  roundedQuotient (Nat.pow 10 exponent.toNat * quantaPerUnit) (Nat.pow 10 (-exponent).toNat)

/-- Whether a magnitude is written in positional notation. -/
def Magnitude.isPositional (x : Magnitude) : Bool :=
  powerOfTen (-6) ≤ x.quanta && x.quanta < powerOfTen 21

/-- A plus sign in front of an exponent without a sign. -/
def signExponent (s : List Char) : List Char :=
  match s.dropWhile (· ≠ 'e') with
  | [] => s
  | mark :: exponent =>
    if exponent.head? = some '-' then s else s.takeWhile (· ≠ 'e') ++ mark :: '+' :: exponent

namespace Binary64

/-- The text of a number. Both zeros are written without a sign. -/
def text : Binary64 → List Char
  | nan => "NaN".toList
  | infinite false => "Infinity".toList
  | infinite true => "-Infinity".toList
  | finite negative magnitude =>
    if magnitude.quanta = 0 then ['0']
    else
      let sign := if negative then ['-'] else []
      let decimal := magnitude.shortest .up
      if magnitude.isPositional then sign ++ decimal.positional
      else signExponent (sign ++ decimal.scientific)

/-- An optional sign and what follows it. -/
def splitSign : List Char → Bool × List Char
  | '+' :: rest => (false, rest)
  | '-' :: rest => (true, rest)
  | s => (false, s)

/-- The exponent behind the digits: none at all, or a mark, an optional sign and digits. -/
def readExponent? : List Char → Option Int
  | [] => some 0
  | mark :: rest =>
    let (negative, digits) := splitSign rest
    if (mark == 'e' || mark == 'E') && digits ≠ [] && digits.all Char.isDigit then
      let n : Int := Nat.ofDigitChars 10 digits 0
      some (if negative then -n else n)
    else none

/-- Digits with an optional point among them and an optional exponent, as an integer times a power
of ten. -/
def readDigits? (s : List Char) : Option (Nat × Int) :=
  let whole := s.takeWhile Char.isDigit
  let (fraction, rest) := match s.dropWhile Char.isDigit with
    | '.' :: t => (t.takeWhile Char.isDigit, t.dropWhile Char.isDigit)
    | t => ([], t)
  if whole ++ fraction = [] then none
  else (readExponent? rest).map fun exponent =>
    (Nat.ofDigitChars 10 (whole ++ fraction) 0, exponent - fraction.length)

/-- The number nearest to a decimal text; the names of the special numbers are read in any case of
letters. -/
def read? (s : List Char) : Option Binary64 :=
  let (negative, rest) := splitSign s
  let name := String.ofList (rest.map Char.toLower)
  if name = "nan" then some nan
  else if name = "inf" ∨ name = "infinity" then some (infinite negative)
  else (readDigits? rest).map fun d => signed negative (Magnitude.ofDecimal? d.1 d.2)

end Binary64
end FormCheck
