/-!
# Ranges of code points

A property of characters is a list of closed ranges of code points. The two checks at the end say
that such a list is in order and how many code points it holds.
-/
namespace FormCheck.Text

/-- Closed ranges of code points. -/
abbrev Ranges := List (Nat × Nat)

namespace Ranges

/-- Whether a code point lies in one of the ranges. -/
def contains (ranges : Ranges) (n : Nat) : Bool :=
  ranges.any fun r => r.1 ≤ n && n ≤ r.2

@[simp] theorem contains_nil (n : Nat) : contains [] n = false := rfl

@[simp] theorem contains_cons (r : Nat × Nat) (rest : Ranges) (n : Nat) :
    contains (r :: rest) n = (r.1 ≤ n && n ≤ r.2 || contains rest n) := rfl

theorem contains_eq_true_iff {ranges : Ranges} {n : Nat} :
    contains ranges n = true ↔ ∃ r ∈ ranges, r.1 ≤ n ∧ n ≤ r.2 := by
  simp [contains]

/-- Every range is ascending, and each begins beyond the end of the one before. -/
def ascending : Ranges → Bool
  | [] => true
  | [r] => r.1 ≤ r.2
  | r :: s :: rest => r.1 ≤ r.2 && r.2 + 1 < s.1 && ascending (s :: rest)

/-- How many code points lie in ascending ranges. -/
def size (ranges : Ranges) : Nat :=
  ranges.foldl (fun n r => n + (r.2 + 1 - r.1)) 0

end Ranges
end FormCheck.Text
