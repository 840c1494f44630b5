import FormCheck.Text.Printable.Extending
import FormCheck.Text.Printable.Invisible

/-!
# Printable characters

A character is printable if it is visible on its own: it shows something, and not on the character
before it.
-/
namespace FormCheck.Text

/-- A character that is visible on its own. -/
def isPrintable (c : Char) : Bool := !isInvisible c && !isExtending c

end FormCheck.Text
