/-!
# Length in 16-bit units

Lengths of submitted texts are counted in 16-bit units, as browsers count them: one unit for a
character below U+10000 and two for any other.
-/
namespace FormCheck.Text

/-- The 16-bit units that one character takes. -/
def unitsOf (c : Char) : Nat := if c.toNat < 0x10000 then 1 else 2

/-- The 16-bit units that a text takes. -/
def units : List Char → Nat
  | [] => 0
  | c :: s => unitsOf c + units s

@[simp] theorem units_nil : units [] = 0 := rfl

@[simp] theorem units_cons (c : Char) (s : List Char) : units (c :: s) = unitsOf c + units s := rfl

theorem unitsOf_pos (c : Char) : 0 < unitsOf c := by
  unfold unitsOf
  split <;> decide

@[simp] theorem units_append (s t : List Char) : units (s ++ t) = units s + units t := by
  induction s with
  | nil => simp
  | cons c s ih => simp [ih, Nat.add_assoc]

/-- Only the empty text has no unit. -/
@[simp] theorem units_eq_zero_iff {s : List Char} : units s = 0 ↔ s = [] := by
  cases s with
  | nil => simp
  | cons c s =>
    have := unitsOf_pos c
    simp
    omega

end FormCheck.Text
