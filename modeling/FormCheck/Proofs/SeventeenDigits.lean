import FormCheck.Proofs.RoundingErrors
import FormCheck.Proofs.ShortestDigits

/-!
# Seventeen digits are enough

Among the multiples of a step that is one part in `10 ^ 16` of a magnitude, the nearest one is
closer to it than half of the gap to the next magnitude. So it reads back, and the shortest decimal
has no more digits than that multiple: seventeen. No shortest decimal is beyond that of the largest
number.
-/
namespace FormCheck.Magnitude

variable {x : Magnitude}

/-- What is close to a magnitude, in units of `10 ^ -1074`, is rounded to it. -/
theorem covers_of_abs_sub_lt {units : ℚ} (hclose : 2 ^ 54 * |units - x.expansion| < x.expansion) :
    x.Covers units := by
  have hpos : (0 : ℚ) < unitsPerQuantum := by exact_mod_cast unitsPerQuantum_pos
  have hquanta : (x.quanta : ℚ) = x.expansion / unitsPerQuantum := by
    rw [expansion, Nat.cast_mul, mul_div_cancel_right₀ _ hpos.ne']
  refine RoundsTo.of_abs_sub_lt x.representable ?_
  rw [hquanta, ← sub_div, abs_div, abs_of_pos hpos, mul_div_assoc',
    div_lt_div_iff_of_pos_right hpos]
  exact hclose

/-- The multiple of a fine step that is nearest to a magnitude is rounded to it. -/
theorem covers_nearest {step : ℕ} (hstep : 0 < step) (hfine : 10 ^ 16 * step ≤ x.expansion) :
    x.Covers (nearest x.expansion step * step) := by
  obtain ⟨hup, hlow, -⟩ := nearest_spec x.expansion hstep
  have hstepq : (0 : ℚ) < step := by exact_mod_cast hstep
  have hfineq : (10 ^ 16 * step : ℚ) ≤ x.expansion := by exact_mod_cast hfine
  have hupq : (2 * x.expansion : ℚ) ≤ (2 * nearest x.expansion step + 1) * step := by
    exact_mod_cast hup
  have hlowq : (2 * nearest x.expansion step * step : ℚ) ≤ 2 * x.expansion + step := by
    exact_mod_cast hlow
  have hhalf : |(nearest x.expansion step * step : ℚ) - x.expansion| ≤ step / 2 := by
    rw [abs_le]
    constructor <;> linarith
  refine covers_of_abs_sub_lt ?_
  linarith

/-- A positive magnitude has many digits when it is written out in full. -/
theorem seventeen_lt_length (hx : x.quanta ≠ 0) : 17 < (Nat.toDigits 10 x.expansion).length := by
  have hunits : 10 ^ 17 ≤ unitsPerQuantum := by decide +kernel
  have hle : unitsPerQuantum ≤ x.expansion := Nat.le_mul_of_pos_left _ (Nat.pos_of_ne_zero hx)
  have hne : x.expansion ≠ 0 := Nat.mul_ne_zero hx unitsPerQuantum_pos.ne'
  have hlt := (hunits.trans hle).trans_lt (pow_length_toDigits_bounds hne).2
  exact (Nat.pow_lt_pow_iff_right (by decide)).mp hlt

/-- Every positive magnitude is read from a decimal of seventeen digits or less. -/
theorem exists_isReadFrom (hx : x.quanta ≠ 0) :
    ∃ e : Decimal, x.IsReadFrom e ∧ e.digits.length ≤ 17 := by
  have hne : x.expansion ≠ 0 := Nat.mul_ne_zero hx unitsPerQuantum_pos.ne'
  obtain ⟨hlow, hhigh⟩ := pow_length_toDigits_bounds hne
  obtain ⟨places, hplaces⟩ := Nat.exists_eq_add_of_lt (seventeen_lt_length hx)
  rw [hplaces] at hlow hhigh
  have hstep : 0 < 10 ^ (places + 1) := Nat.pow_pos (by decide)
  have hfine : 10 ^ 16 * 10 ^ (places + 1) ≤ x.expansion := by
    rw [← Nat.pow_add]
    refine le_trans (Nat.le_of_eq ?_) hlow
    congr 1
    omega
  have hcount : nearest x.expansion (10 ^ (places + 1)) ≤ 10 ^ 17 := by
    have hdiv : x.expansion / 10 ^ (places + 1) < 10 ^ 17 := by
      rw [Nat.div_lt_iff_lt_mul hstep, ← Nat.pow_add]
      exact hhigh
    exact (nearest_le_succ _ _).trans hdiv
  have hcovers := covers_nearest hstep hfine
  generalize nearest x.expansion (10 ^ (places + 1)) = count at hcount hcovers
  have hpositive : count ≠ 0 := by
    rintro rfl
    rw [Nat.cast_zero, zero_mul] at hcovers
    exact not_covers_zero hx hcovers
  refine ⟨Decimal.trimmed count (places + 1 - 1074),
    ⟨(Decimal.isNormal_trimmed hpositive _).isDigit, ?_⟩,
    Decimal.length_trimmed_le (by decide) hcount _⟩
  rw [isNearestTo_iff, Decimal.value_trimmed, unitsPerOne_eq, mul_assoc,
    ← zpow_add₀ (by norm_num), sub_add_cancel]
  exact_mod_cast hcovers

/-- The shortest decimal of a number has seventeen digits or less. -/
theorem IsShortest.length_le {tie : Tie} {d : Decimal} (hd : IsShortest tie x d)
    (hx : x.quanta ≠ 0) : d.digits.length ≤ 17 := by
  obtain ⟨e, hread, hlength⟩ := exists_isReadFrom hx
  exact (hd.shortest e hread).trans hlength

/-! ## The largest number -/

/-- The largest number of the format. -/
def largest : Magnitude :=
  ⟨(powTwo 53 - 1) * powTwo 2045, ⟨_, _, by decide, rfl⟩, by decide +kernel⟩

/-- The seventeen digits of the largest number of the format. -/
def largestDigits : ℕ := 17976931348623157

theorem quanta_le_largest (x : Magnitude) : x.quanta ≤ largest.quanta := by
  obtain ⟨significand, shift, hsignificand, hquanta⟩ := x.representable
  have hlt := x.quanta_lt
  rw [quantaLimit, hquanta] at hlt
  change x.quanta ≤ (powTwo 53 - 1) * powTwo 2045
  rw [hquanta]
  rcases Nat.le_total shift 2045 with hle | hge
  · exact Nat.mul_le_mul (Nat.le_sub_one_of_lt hsignificand) (powTwo_le_powTwo hle)
  · obtain ⟨k, rfl⟩ := Nat.exists_eq_add_of_le hge
    have hlimit : powTwo 2098 = powTwo 53 * powTwo 2045 := powTwo_add 53 2045
    rw [powTwo_add, Nat.mul_comm (powTwo 2045), ← Nat.mul_assoc] at hlt ⊢
    rw [hlimit] at hlt
    exact Nat.mul_le_mul_right _ (Nat.le_sub_one_of_lt (Nat.lt_of_mul_lt_mul_right hlt))

theorem shortest_largest : largest.shortest .even = ⟨Nat.toDigits 10 largestDigits, 309⟩ := by
  decide +kernel

/-- No shortest decimal is beyond that of the largest number. -/
theorem value_shortest_le (hx : x.quanta ≠ 0) :
    (x.shortest .even).value ≤ largestDigits * 10 ^ 292 := by
  have hlargest : (largest.shortest .even).value = largestDigits * 10 ^ 292 := by
    have hlength : (Nat.toDigits 10 largestDigits).length = 17 := by decide
    have hexponent : (309 - (17 : ℕ) : ℤ) = (292 : ℕ) := rfl
    rw [shortest_largest, Decimal.value, Nat.ofDigitChars_ten_toDigits, hlength, hexponent,
      zpow_natCast]
  by_contra hgt
  rw [← hlargest, not_le] at hgt
  have hshortest := isShortest_shortest .even hx
  have hle := RoundsTo.mono (mul_le_mul_of_nonneg_right hgt.le quantaPerUnit_cast_pos.le)
    (isShortest_shortest .even (x := largest) (by decide +kernel)).nearest hshortest.nearest
  rw [Magnitude.ext (le_antisymm x.quanta_le_largest hle)] at hgt
  exact lt_irrefl _ hgt

end FormCheck.Magnitude
