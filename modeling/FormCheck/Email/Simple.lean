import FormCheck.Text.Blank

/-!
# The simple email check

The text holds no blank character and exactly one `@`, with something before it. Behind it some dot
has a character on either side.
-/
namespace FormCheck.Email

/-- A character that may stand on either side of the `@`. -/
def isPlain (c : Char) : Bool := !Text.isBlank c && c != '@'

/-- Whether some dot is neither the first nor the last character. -/
def hasInnerDot (domain : List Char) : Bool :=
  (domain.drop 1).dropLast.contains '.'

/-- The simple check. -/
def isSimple (s : List Char) : Bool :=
  match s.dropWhile isPlain with
  | '@' :: domain =>
    !(s.takeWhile isPlain).isEmpty && domain.all isPlain && hasInnerDot domain
  | _ => false

@[simp] theorem isPlain_at : isPlain '@' = false := by decide

end FormCheck.Email
