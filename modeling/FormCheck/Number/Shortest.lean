import FormCheck.Number.Binary64

/-!
# The fewest digits that read back

A magnitude of `q` quanta is exactly `q * 5 ^ 1074` in units of `10 ^ -1074`, so its decimal
expansion is finite. `Magnitude.shortest` takes the first length at which one of the two decimals
around the value is nearest to no other magnitude, and of two such decimals the closer one. Where
both are equally close, the caller says which way to go.
-/
namespace FormCheck

/-- What to do when two decimals of the same length are equally close. -/
inductive Tie where
  | up
  | even
deriving DecidableEq

/-- The decimal `0.d₁d₂…` times `10 ^ point`. -/
structure Decimal where
  digits : List Char
  point : Int
deriving DecidableEq

namespace Magnitude

/-- Units of `10 ^ -1074` in one quantum. -/
def unitsPerQuantum : Nat := Nat.pow 5 1074

/-- The value in units of `10 ^ -1074`. -/
def expansion (x : Magnitude) : Nat := x.quanta * unitsPerQuantum

/-- Whether a decimal, given in units of `10 ^ -1074`, rounds to this magnitude. -/
def readsBack (x : Magnitude) (units : Nat) : Bool :=
  roundedQuotient units unitsPerQuantum == x.quanta

/-- The multiple of `step` to write for a number that is `rest` above `below` steps, if it or the
next one reads back. -/
def neighbour? (tie : Tie) (step below rest : Nat) (belowReads aboveReads : Bool) : Option Nat :=
  match belowReads, aboveReads with
  | false, false => none
  | true, false => some below
  | false, true => some (below + 1)
  | true, true =>
    if 2 * rest < step then some below
    else if step < 2 * rest then some (below + 1)
    else match tie with
      | .up => some (below + 1)
      | .even => some (below + below % 2)

/-- The multiple of `step` to write for `x`, if one of the two around it reads back. -/
def candidate? (tie : Tie) (x : Magnitude) (step : Nat) : Option Nat :=
  let below := x.expansion / step
  neighbour? tie step below (x.expansion % step) (x.readsBack (below * step))
    (x.readsBack ((below + 1) * step))

/-- Searches steps `10 ^ k` from the coarsest. Step one is the value itself. -/
def search (tie : Tie) (x : Magnitude) : Nat → Nat × Nat
  | 0 => (x.expansion, 0)
  | k + 1 => ((candidate? tie x (Nat.pow 10 (k + 1))).map (·, k + 1)).getD (search tie x k)

/-- The shortest decimal that reads back, without trailing zeros. -/
def shortest (tie : Tie) (x : Magnitude) : Decimal :=
  let found := search tie x ((Nat.toDigits 10 x.expansion).length - 1)
  let digits := Nat.toDigits 10 found.1
  ⟨(digits.reverse.dropWhile (· == '0')).reverse, digits.length + found.2 - 1074⟩

end Magnitude
end FormCheck
