import FormCheck.Json.Basic
import FormCheck.Number.Text

/-!
# Numerals and floating point numbers

`Numeral.value?` reads a numeral in two steps. The leading digits that fit 64 bits make an integer;
the point and the digits left out only move its exponent. The integer is then scaled by powers of
ten that are floating point numbers themselves, and every scaling is rounded. `Json.ofNumber` writes
a number with the fewest digits that read back, where equally close decimals go to the even one.
-/
namespace FormCheck

namespace Numeral

/-- The value of a digit. -/
def digitValue (c : Char) : Nat := c.toNat - '0'.toNat

/-- Takes digits before the point while the integer fits 64 bits; each digit left out counts one in
the exponent. -/
def leadingWhole (n : Nat) : List Char → Nat × Int
  | [] => (n, 0)
  | c :: rest =>
    if n * 10 + digitValue c < UInt64.size then leadingWhole (n * 10 + digitValue c) rest
    else (n, (c :: rest).length)

/-- Takes digits behind the point while the integer fits 64 bits; each digit taken counts one less
in the exponent. -/
def leadingFraction (n : Nat) (exponent : Int) : List Char → Nat × Int
  | [] => (n, exponent)
  | c :: rest =>
    if n * 10 + digitValue c < UInt64.size then
      leadingFraction (n * 10 + digitValue c) (exponent - 1) rest
    else (n, exponent)

/-- The integer and the power of ten that stand for a numeral. -/
def leading (n : Numeral) : Nat × Int :=
  let whole := leadingWhole 0 n.whole
  let all := leadingFraction whole.1 whole.2 n.fraction
  (all.1, all.2 + n.exponent.getD 0)

/-- The floating point number `10 ^ k`, for `k` up to 308. -/
def power? (k : Nat) : Option Magnitude := Magnitude.ofNat? (Nat.pow 10 k)

/-- Divides by `10 ^ 308` while the exponent is below -308, then by what is left of it. A zero stays
as it is, and three divisions leave nothing of an integer of 64 bits. -/
def scaleDown? (rounds : Nat) (x : Magnitude) (exponent : Nat) : Option Magnitude :=
  match rounds with
  | 0 => some x
  | rounds + 1 =>
    if x.quanta = 0 then some x
    else if exponent ≤ 308 then (power? exponent).bind x.div?
    else ((power? 308).bind x.div?).bind fun y => scaleDown? rounds y (exponent - 308)

/-- Scales by a power of ten. -/
def scale? (x : Magnitude) (exponent : Int) : Option Magnitude :=
  if 0 ≤ exponent then
    if exponent ≤ 308 then (power? exponent.toNat).bind x.mul?
    else if x.quanta = 0 then some x
    else none
  else scaleDown? 4 x exponent.natAbs

/-- The number of a numeral, unless it is too large. -/
def value? (n : Numeral) : Option Binary64 :=
  let (digits, exponent) := n.leading
  ((Magnitude.ofNat? digits).bind fun x =>
    if exponent = 0 then some x else scale? x exponent).map (.finite n.negative)

/-- A decimal as a numeral: positional from `10 ^ -5` up to `10 ^ 16`, always with a digit behind
the point, and with an exponent outside. -/
def ofDecimal (negative : Bool) (d : Decimal) : Numeral :=
  if -5 < d.point ∧ d.point ≤ 16 then
    if d.point ≤ 0 then ⟨negative, ['0'], List.replicate (-d.point).toNat '0' ++ d.digits, none⟩
    else if d.digits.length ≤ d.point then
      ⟨negative, d.digits ++ List.replicate (d.point - d.digits.length).toNat '0', ['0'], none⟩
    else ⟨negative, d.digits.take d.point.toNat, d.digits.drop d.point.toNat, none⟩
  else ⟨negative, d.digits.take 1, d.digits.drop 1, some (d.point - 1)⟩

/-- The numeral of a magnitude. -/
def ofMagnitude (negative : Bool) (x : Magnitude) : Numeral :=
  if x.quanta = 0 then ⟨negative, ['0'], ['0'], none⟩ else ofDecimal negative (x.shortest .even)

end Numeral

/-- A number as a document. What is not finite has no numeral and is written as `null`. -/
def Json.ofNumber : Binary64 → Json
  | .finite negative x => number (.ofMagnitude negative x)
  | _ => null

end FormCheck
