import FormCheck.Text.Ranges

/-!
# Blank characters

`isBlank` is the Unicode property White_Space. `isPadding` adds the byte order mark, which a browser
also strips from both ends of a text.
-/
namespace FormCheck.Text

/-- The code points with the Unicode property White_Space. -/
def blankRanges : Ranges :=
  [(0x09, 0x0D), (0x20, 0x20), (0x85, 0x85), (0xA0, 0xA0), (0x1680, 0x1680), (0x2000, 0x200A),
   (0x2028, 0x2029), (0x202F, 0x202F), (0x205F, 0x205F), (0x3000, 0x3000)]

example : blankRanges.ascending = true ∧ blankRanges.size = 25 := by decide

/-- A character with the property White_Space. -/
def isBlank (c : Char) : Bool := blankRanges.contains c.toNat

/-- A character that does not count at either end of a submitted text. -/
def isPadding (c : Char) : Bool := isBlank c || c == '\uFEFF'

theorem isBlank_eq_true_iff {c : Char} :
    isBlank c = true ↔ ∃ r ∈ blankRanges, r.1 ≤ c.toNat ∧ c.toNat ≤ r.2 :=
  Ranges.contains_eq_true_iff

end FormCheck.Text
