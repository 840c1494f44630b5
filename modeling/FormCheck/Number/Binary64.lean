/-!
# Binary floating point numbers of 64 bits

Every finite number of the format is a whole multiple of `2 ^ -1074`, the *quantum*. A magnitude is
kept as that multiple, so numbers are compared and rounded as naturals. `roundedQuotient` rounds a
quotient of naturals to a magnitude: to the nearest one, and a tie to the one with an even
significand.
-/
namespace FormCheck

/-- The nearest natural to `n / d`; a tie goes to the even one. -/
def nearest (n d : Nat) : Nat :=
  if 2 * (n % d) < d then n / d
  else if d < 2 * (n % d) then n / d + 1
  else n / d + n / d % 2

theorem nearest_le_succ (n d : Nat) : nearest n d ≤ n / d + 1 := by
  unfold nearest
  split
  · omega
  · split <;> omega

theorem le_nearest (n d : Nat) : n / d ≤ nearest n d := by
  unfold nearest
  split
  · omega
  · split <;> omega

@[simp] theorem nearest_mul (m d : Nat) (hd : 0 < d) : nearest (m * d) d = m := by
  simp [nearest, Nat.mul_div_cancel _ hd, hd]

/-- Two to the given power. -/
def powTwo (n : Nat) : Nat := Nat.pow 2 n

@[simp] theorem powTwo_zero : powTwo 0 = 1 := rfl

theorem powTwo_succ (n : Nat) : powTwo (n + 1) = 2 * powTwo n := by
  simp [powTwo, Nat.pow_succ, Nat.mul_comm]

theorem powTwo_add (m n : Nat) : powTwo (m + n) = powTwo m * powTwo n := by
  simp [powTwo, Nat.pow_add]

theorem powTwo_pos (n : Nat) : 0 < powTwo n := Nat.pow_pos (by decide)

/-- The gap between neighbouring magnitudes of `n` quanta: significands have at most 53 bits. -/
def spacing (n : Nat) : Nat := powTwo (n.log2 - 52)

theorem spacing_pos (n : Nat) : 0 < spacing n := powTwo_pos _

/-- A multiple of the quantum whose significand fits 53 bits. -/
def Representable (quanta : Nat) : Prop :=
  ∃ significand shift, significand < powTwo 53 ∧ quanta = significand * powTwo shift

/-- The quotient `n / d` as a multiple of the quantum with a significand of 53 bits. The unit of
both `n` and the result is the quantum. -/
def roundedQuotient (n d : Nat) : Nat :=
  nearest n (d * spacing (n / d)) * spacing (n / d)

theorem representable_zero : Representable 0 := ⟨0, 0, by decide, by decide⟩

/-- Rounded significands have 53 bits, unless they are carried to the next power of two. -/
theorem nearest_spacing_le (n d : Nat) : nearest n (d * spacing (n / d)) ≤ powTwo 53 := by
  have hlt : n / (d * spacing (n / d)) < powTwo 53 := by
    rw [← Nat.div_div_eq_div_mul, spacing]
    refine (Nat.div_lt_iff_lt_mul (powTwo_pos _)).mpr ?_
    rw [← powTwo_add]
    exact Nat.lt_of_lt_of_le Nat.lt_log2_self (Nat.pow_le_pow_right (by decide) (by omega))
  have hle := nearest_le_succ n (d * spacing (n / d))
  omega

theorem representable_roundedQuotient (n d : Nat) : Representable (roundedQuotient n d) := by
  by_cases h : nearest n (d * spacing (n / d)) < powTwo 53
  · exact ⟨_, (n / d).log2 - 52, h, rfl⟩
  · have hc : nearest n (d * spacing (n / d)) = powTwo 53 :=
      Nat.le_antisymm (nearest_spacing_le n d) (Nat.le_of_not_lt h)
    refine ⟨powTwo 52, (n / d).log2 - 52 + 1, by decide, ?_⟩
    rw [roundedQuotient, hc, powTwo_succ 52, spacing, powTwo_succ (_ - 52), Nat.mul_assoc,
      Nat.mul_left_comm]

/-- How many quanta make one. -/
def quantaPerUnit : Nat := powTwo 1074

/-- The first multiple of the quantum beyond the format: `2 ^ 1024` in quanta. -/
def quantaLimit : Nat := powTwo 2098

theorem quantaPerUnit_pos : 0 < quantaPerUnit := powTwo_pos 1074

theorem quantaLimit_pos : 0 < quantaLimit := powTwo_pos 2098

/-- The absolute value of a finite number, in quanta. -/
structure Magnitude where
  quanta : Nat
  representable : Representable quanta
  quanta_lt : quanta < quantaLimit
deriving DecidableEq

namespace Magnitude

@[ext] theorem ext {a b : Magnitude} (h : a.quanta = b.quanta) : a = b := by
  cases a
  cases b
  cases h
  rfl

def zero : Magnitude := ⟨0, representable_zero, quantaLimit_pos⟩

/-- The magnitude nearest to a quotient of naturals, unless the quotient is too large. -/
def ofQuotient? (n d : Nat) : Option Magnitude :=
  let quanta := roundedQuotient (n * quantaPerUnit) d
  if h : quanta < quantaLimit then some ⟨quanta, representable_roundedQuotient _ _, h⟩ else none

/-- The magnitude nearest to a natural, unless the natural is too large. -/
def ofNat? (n : Nat) : Option Magnitude := ofQuotient? n 1

/-- The rounded product, unless it is too large. -/
def mul? (a b : Magnitude) : Option Magnitude :=
  ofQuotient? (a.quanta * b.quanta) (quantaPerUnit * quantaPerUnit)

/-- The rounded quotient, unless it is too large. -/
def div? (a b : Magnitude) : Option Magnitude := ofQuotient? a.quanta b.quanta

/-- The magnitude nearest to `digits * 10 ^ exponent`, unless that is too large. Far outside the
format's range the answer is known from the count of digits alone. -/
def ofDecimal? (digits : Nat) (exponent : Int) : Option Magnitude :=
  let size := (Nat.toDigits 10 digits).length
  if digits = 0 ∨ size + exponent < -400 then some zero
  else if 400 < size + exponent then none
  else ofQuotient? (digits * Nat.pow 10 exponent.toNat) (Nat.pow 10 (-exponent).toNat)

end Magnitude

/-- A floating point number. The two zeros differ in sign only. -/
inductive Binary64 where
  | nan
  | infinite (negative : Bool)
  | finite (negative : Bool) (magnitude : Magnitude)
deriving DecidableEq

namespace Binary64

/-- Numerical equality: not-a-number differs from itself, and the two zeros are equal. -/
def equal : Binary64 → Binary64 → Bool
  | infinite s, infinite t => s == t
  | finite s a, finite t b => a.quanta == b.quanta && (s == t || a.quanta == 0)
  | _, _ => false

/-- A magnitude with its sign; one that is too large becomes infinite. -/
def signed (negative : Bool) : Option Magnitude → Binary64
  | some magnitude => finite negative magnitude
  | none => infinite negative

/-- The nearest number to an integer. -/
def ofInt (n : Int) : Binary64 := signed (n < 0) (Magnitude.ofNat? n.natAbs)

end Binary64
end FormCheck
