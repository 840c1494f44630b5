/-!
# Rules

A rule constrains the text of one field. Its token is its written form: `required`, `email`, or
`min:` and a number. `Rule.parse` accepts a token only if it is written exactly so, except that the
number may have a plus sign and leading zeros.
-/
namespace FormCheck

/-- A single constraint. -/
inductive Rule where
  /-- The text holds more than padding. -/
  | required
  /-- The text passes the email check. -/
  | email
  /-- A text that is not empty has at least this many 16-bit units. -/
  | min (units : UInt64)
deriving DecidableEq

namespace Rule

/-- A number with one more digit, unless that takes more than 64 bits. -/
def pushDigit? (n : UInt64) (c : Char) : Option UInt64 :=
  let next := 10 * n.toNat + (c.toNat - '0'.toNat)
  if h : c.isDigit = true ∧ next < UInt64.size then some (UInt64.ofNatLT next h.2) else none

theorem pushDigit?_eq_some_iff {n m : UInt64} {c : Char} :
    pushDigit? n c = some m ↔
      c.isDigit = true ∧ 10 * n.toNat + (c.toNat - '0'.toNat) = m.toNat := by
  simp only [pushDigit?]
  split
  · rename_i h
    rw [Option.some_inj, ← UInt64.toNat_inj, UInt64.toNat_ofNatLT]
    simp [h.1]
  · rename_i h
    constructor
    · simp
    · rintro ⟨hc, hm⟩
      exact absurd ⟨hc, hm ▸ m.toNat_lt⟩ h

/-- A number of at most 64 bits in decimal digits, with an optional plus sign. It is built digit by
digit, and the first digit too many ends the reading. -/
def count? (s : List Char) : Option UInt64 :=
  let digits := match s with
    | '+' :: rest => rest
    | s => s
  if digits.isEmpty then none else digits.foldlM pushDigit? 0

/-- The rule that a token stands for. -/
def ofChars? : List Char → Option Rule
  | 'm' :: 'i' :: 'n' :: ':' :: digits => (count? digits).map min
  | token =>
    if token = "required".toList then some required
    else if token = "email".toList then some email
    else none

/-- The rule that a token stands for. -/
def parse (token : String) : Option Rule := ofChars? token.toList

/-- The written form of a rule. -/
def token : Rule → String
  | required => "required"
  | email => "email"
  | min n => "min:" ++ Nat.repr n.toNat

/-- What to tell the user of a field with this label. -/
def message (label : String) : Rule → String
  | required => label ++ " is required"
  | email => label ++ " is not a valid email"
  | min n => label ++ " must be at least " ++ Nat.repr n.toNat ++ " characters"

end Rule
end FormCheck
