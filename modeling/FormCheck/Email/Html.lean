import FormCheck.Text.Split

/-!
# The email check of a browser's input field

A non-empty local part of letters, digits and certain marks, an `@`, and labels separated by dots.
All of it is ASCII. A label has 1 to 63 letters, digits or hyphens and neither begins nor ends with
a hyphen.
-/
namespace FormCheck.Email

/-- A character of the local part. -/
def isLocal (c : Char) : Bool :=
  c.isAlphanum || ".!#$%&'*+/=?^_`\x7b|\x7d~-".toList.contains c

/-- A character of a label. -/
def isLabelChar (c : Char) : Bool := c.isAlphanum || c == '-'

/-- One label of a domain. -/
def isLabel (label : List Char) : Bool :=
  label.all isLabelChar && label.length ≤ 63 &&
    label.head?.any Char.isAlphanum && label.getLast?.any Char.isAlphanum

/-- The check of a browser's input field. -/
def isHtml (s : List Char) : Bool :=
  match s.dropWhile isLocal with
  | '@' :: domain => !(s.takeWhile isLocal).isEmpty && (Text.split '.' domain).all isLabel
  | _ => false

@[simp] theorem isLocal_at : isLocal '@' = false := by decide

@[simp] theorem isLabel_nil : isLabel [] = false := rfl

end FormCheck.Email
