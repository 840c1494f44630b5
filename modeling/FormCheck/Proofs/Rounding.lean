import FormCheck.Number.Binary64
import Mathlib.Algebra.Order.Field.Basic
import Mathlib.Algebra.Order.Field.Rat
import Mathlib.Tactic.Linarith
import Mathlib.Tactic.Ring

/-!
# Rounding to the nearest number

A quotient of naturals is rounded to the representable number that is nearest to it, and of two that
are equally near to the one with an even significand. Between two numbers with even significands
there is a third, so this determines the rounded number. Rounding keeps the order, and what lies
between two values that are rounded alike is rounded alike.
-/
namespace FormCheck

/-- The larger of two numbers is nearer to what is above their mean. -/
theorem abs_sub_le_abs_sub_iff_of_lt {v a b : ℚ} (h : a < b) :
    |v - b| ≤ |v - a| ↔ a + b ≤ 2 * v := by
  have hsquares : (v - a) ^ 2 - (v - b) ^ 2 = (b - a) * (2 * v - (a + b)) := by ring
  rw [← sq_le_sq, ← sub_nonneg, hsquares, mul_nonneg_iff_of_pos_left (sub_pos.mpr h), sub_nonneg]

/-- The smaller of two numbers is nearer to what is below their mean. -/
theorem abs_sub_le_abs_sub_iff_of_gt {v a b : ℚ} (h : a < b) :
    |v - a| ≤ |v - b| ↔ 2 * v ≤ a + b := by
  have hsquares : (v - b) ^ 2 - (v - a) ^ 2 = (b - a) * (a + b - 2 * v) := by ring
  rw [← sq_le_sq, ← sub_nonneg, hsquares, mul_nonneg_iff_of_pos_left (sub_pos.mpr h), sub_nonneg]

/-- A multiple of the quantum whose significand of 53 bits is even. -/
def HasEvenSignificand (quanta : ℕ) : Prop :=
  ∃ half shift, half < powTwo 52 ∧ quanta = 2 * half * powTwo shift

theorem representable_powTwo (n : ℕ) : Representable (powTwo n) :=
  ⟨1, n, by decide, (Nat.one_mul _).symm⟩

/-- What a value, in quanta, is rounded to: the nearest representable number, and of two that are
equally near the one with an even significand. -/
structure RoundsTo (v : ℚ) (q : ℕ) : Prop where
  representable : Representable q
  nearest : ∀ r, Representable r → |v - q| ≤ |v - r|
  even : ∀ r, Representable r → r ≠ q → |v - r| = |v - q| → HasEvenSignificand q

/-- The same in terms of means: a value is not beyond the mean of its rounded number and another. -/
theorem roundsTo_iff {v : ℚ} {q : ℕ} :
    RoundsTo v q ↔ Representable q ∧
      (∀ r, Representable r → r < q → (r + q : ℚ) ≤ 2 * v ∧
        ((r + q : ℚ) = 2 * v → HasEvenSignificand q)) ∧
      ∀ r, Representable r → q < r → 2 * v ≤ (q + r : ℚ) ∧
        (2 * v = (q + r : ℚ) → HasEvenSignificand q) := by
  constructor
  · intro h
    refine ⟨h.representable, ?_, ?_⟩
    · intro r hr hlt
      have hcast : (r : ℚ) < q := by exact_mod_cast hlt
      refine ⟨(abs_sub_le_abs_sub_iff_of_lt hcast).mp (h.nearest r hr), fun hmean => ?_⟩
      have hle := (abs_sub_le_abs_sub_iff_of_gt hcast).mpr hmean.ge
      exact h.even r hr hlt.ne (le_antisymm hle (h.nearest r hr))
    · intro r hr hlt
      have hcast : (q : ℚ) < r := by exact_mod_cast hlt
      refine ⟨(abs_sub_le_abs_sub_iff_of_gt hcast).mp (h.nearest r hr), fun hmean => ?_⟩
      have hle := (abs_sub_le_abs_sub_iff_of_lt hcast).mpr hmean.ge
      exact h.even r hr hlt.ne' (le_antisymm hle (h.nearest r hr))
  · rintro ⟨hq, hbelow, habove⟩
    refine ⟨hq, ?_, ?_⟩
    · intro r hr
      rcases lt_trichotomy r q with hlt | rfl | hlt
      · exact (abs_sub_le_abs_sub_iff_of_lt (by exact_mod_cast hlt)).mpr (hbelow r hr hlt).1
      · exact le_rfl
      · exact (abs_sub_le_abs_sub_iff_of_gt (by exact_mod_cast hlt)).mpr (habove r hr hlt).1
    · intro r hr hne htie
      rcases lt_or_gt_of_ne hne with hlt | hlt
      · have hge := (abs_sub_le_abs_sub_iff_of_gt (by exact_mod_cast hlt)).mp htie.le
        exact (hbelow r hr hlt).2 (le_antisymm (hbelow r hr hlt).1 hge)
      · have hge := (abs_sub_le_abs_sub_iff_of_lt (by exact_mod_cast hlt)).mp htie.le
        exact (habove r hr hlt).2 (le_antisymm (habove r hr hlt).1 hge)

theorem HasEvenSignificand.representable {q : ℕ} (h : HasEvenSignificand q) : Representable q := by
  obtain ⟨half, shift, hhalf, rfl⟩ := h
  have hbits : powTwo 53 = 2 * powTwo 52 := powTwo_succ 52
  exact ⟨2 * half, shift, by omega, rfl⟩

/-- Two numbers with even significands are no neighbours: one with an odd significand of the finer
of their steps is between them. -/
theorem HasEvenSignificand.exists_between {q r : ℕ} (hq : HasEvenSignificand q)
    (hr : HasEvenSignificand r) (hlt : q < r) : ∃ m, Representable m ∧ q < m ∧ m < r := by
  obtain ⟨a, s, ha, rfl⟩ := hq
  obtain ⟨b, t, hb, rfl⟩ := hr
  have hbits : powTwo 53 = 2 * powTwo 52 := powTwo_succ 52
  rcases Nat.le_total s t with hst | hts
  · obtain ⟨k, rfl⟩ := Nat.exists_eq_add_of_le hst
    have hpos := powTwo_pos s
    rw [powTwo_add] at hlt ⊢
    have hab : a < b * powTwo k := by
      by_contra h
      nlinarith
    exact ⟨(2 * a + 1) * powTwo s, ⟨_, s, by omega, rfl⟩, by nlinarith, by nlinarith⟩
  · obtain ⟨k, rfl⟩ := Nat.exists_eq_add_of_le hts
    have hpos := powTwo_pos t
    rw [powTwo_add] at hlt ⊢
    have hab : a * powTwo k < b := by
      by_contra h
      nlinarith
    obtain ⟨c, rfl⟩ := Nat.exists_eq_add_of_lt hab
    refine ⟨(2 * (a * powTwo k + c) + 1) * powTwo t, ⟨_, t, by omega, rfl⟩, ?_, ?_⟩
    · nlinarith
    · nlinarith

namespace RoundsTo

variable {u v w : ℚ} {q r : ℕ}

/-- Rounding keeps the order. -/
theorem mono (hle : v ≤ w) (hq : RoundsTo v q) (hr : RoundsTo w r) : q ≤ r := by
  by_contra hlt
  have hlt : r < q := Nat.lt_of_not_le hlt
  -- Both values would be the mean of `r` and `q`, though no two rounded numbers share a mean.
  obtain ⟨hv, hqeven⟩ := (roundsTo_iff.mp hq).2.1 r hr.representable hlt
  obtain ⟨hw, hreven⟩ := (roundsTo_iff.mp hr).2.2 q hq.representable hlt
  have hvmean : (r + q : ℚ) = 2 * v := by linarith
  have hwmean : 2 * w = (r + q : ℚ) := by linarith
  obtain ⟨m, hm, hrm, hmq⟩ := (hreven hwmean).exists_between (hqeven hvmean) hlt
  have hmv := ((roundsTo_iff.mp hq).2.1 m hm hmq).1
  have hcast : (r : ℚ) < m := by exact_mod_cast hrm
  linarith

theorem unique (hq : RoundsTo v q) (hr : RoundsTo v r) : q = r :=
  le_antisymm (mono le_rfl hq hr) (mono le_rfl hr hq)

/-- What lies between two values that are rounded alike is rounded alike. -/
theorem of_between (hv : RoundsTo v q) (hw : RoundsTo w q) (hvu : v ≤ u) (huw : u ≤ w) :
    RoundsTo u q := by
  obtain ⟨hq, hbelow, -⟩ := roundsTo_iff.mp hv
  obtain ⟨-, -, habove⟩ := roundsTo_iff.mp hw
  refine roundsTo_iff.mpr ⟨hq, ?_, ?_⟩
  · intro r hr hlt
    obtain ⟨hle, heven⟩ := hbelow r hr hlt
    exact ⟨by linarith, fun hmean => heven (by linarith)⟩
  · intro r hr hlt
    obtain ⟨hle, heven⟩ := habove r hr hlt
    exact ⟨by linarith, fun hmean => heven (by linarith)⟩

/-- A representable number is rounded to itself. -/
theorem self (hq : Representable q) : RoundsTo q q := by
  refine ⟨hq, fun r _ => by simp, fun r _ hne htie => absurd htie ?_⟩
  have hcast : (q : ℚ) - r ≠ 0 := sub_ne_zero.mpr (by exact_mod_cast hne.symm)
  simpa using hcast

theorem zero : RoundsTo 0 0 := by simpa using self representable_zero

end RoundsTo

/-- `nearest n d * d` is within half of `d` from `n`, and if it is half of `d` away the quotient is
even. -/
theorem nearest_spec (n : ℕ) {d : ℕ} (hd : 0 < d) :
    2 * n ≤ (2 * nearest n d + 1) * d ∧ 2 * nearest n d * d ≤ 2 * n + d ∧
      (2 * n = (2 * nearest n d + 1) * d ∨ 2 * nearest n d * d = 2 * n + d →
        nearest n d % 2 = 0) := by
  have hdiv := Nat.div_add_mod n d
  have hmod := Nat.mod_lt n hd
  have hupper (m : ℕ) : (2 * (n / d + m) + 1) * d = 2 * (d * (n / d)) + (2 * m + 1) * d := by ring
  have hlower (m : ℕ) : 2 * (n / d + m) * d = 2 * (d * (n / d)) + 2 * m * d := by ring
  unfold nearest
  split
  · have hup := hupper 0
    have hlow := hlower 0
    simp only [Nat.add_zero] at hup hlow
    omega
  · split
    · have hup := hupper 1
      have hlow := hlower 1
      omega
    · -- The remainder is half of `d`, and an odd quotient is made even.
      have hup := hupper (n / d % 2)
      have hlow := hlower (n / d % 2)
      rcases Nat.mod_two_eq_zero_or_one (n / d) with heven | hodd
      · rw [heven] at hup hlow ⊢
        omega
      · rw [hodd] at hup hlow ⊢
        omega

/-- A representable number is a multiple of the spacing at `n`, unless it is below the power of two
at which that spacing begins. -/
theorem Representable.dvd_or_lt {r : ℕ} (hr : Representable r) (n : ℕ) :
    spacing n ∣ r ∨ r < powTwo 52 * spacing n ∧ powTwo 52 * spacing n ≤ n := by
  obtain ⟨significand, shift, hsignificand, rfl⟩ := hr
  by_cases hshift : n.log2 - 52 ≤ shift
  · left
    obtain ⟨k, rfl⟩ := Nat.exists_eq_add_of_le hshift
    rw [spacing, powTwo_add]
    exact Dvd.intro_left (significand * powTwo k) (by ring)
  · right
    have hn : n ≠ 0 := by
      rintro rfl
      simp at hshift
    obtain ⟨k, hk⟩ := Nat.exists_eq_add_of_lt (Nat.lt_of_not_le hshift)
    have hlog : 52 + (n.log2 - 52) = n.log2 := by omega
    constructor
    · have hscale : powTwo 52 * spacing n = powTwo 53 * powTwo k * powTwo shift := by
        rw [spacing, hk, ← powTwo_add, ← powTwo_add, ← powTwo_add]
        congr 1
        omega
      have hpos := powTwo_pos shift
      have hk : powTwo 53 ≤ powTwo 53 * powTwo k := Nat.le_mul_of_pos_right _ (powTwo_pos k)
      rw [hscale]
      exact Nat.mul_lt_mul_of_pos_right (lt_of_lt_of_le hsignificand hk) hpos
    · rw [spacing, ← powTwo_add, hlog]
      exact Nat.log2_self_le hn

/-- A rounded quotient is not above its mean with a multiple of the spacing below it. -/
theorem mean_le_of_multiple_lt (n : ℕ) {d k : ℕ} (hd : 0 < d)
    (hlt : k < nearest n (d * spacing (n / d))) :
    (k * spacing (n / d) + roundedQuotient n d) * d ≤ 2 * n ∧
      ((k * spacing (n / d) + roundedQuotient n d) * d = 2 * n →
        nearest n (d * spacing (n / d)) % 2 = 0) := by
  obtain ⟨-, hlow, heven⟩ := nearest_spec n (Nat.mul_pos hd (spacing_pos (n / d)))
  rw [roundedQuotient]
  generalize nearest n (d * spacing (n / d)) = m at hlt hlow heven ⊢
  have hmean : (k * spacing (n / d) + m * spacing (n / d)) * d =
      (k + m) * (d * spacing (n / d)) := by ring
  have hstep : (k + m + 1) * (d * spacing (n / d)) ≤ 2 * m * (d * spacing (n / d)) :=
    Nat.mul_le_mul_right _ (by omega)
  rw [Nat.add_mul, Nat.one_mul] at hstep
  rw [hmean]
  exact ⟨by omega, fun htie => heven (.inr (by omega))⟩

/-- A rounded quotient is not below its mean with a multiple of the spacing above it. -/
theorem le_mean_of_multiple_gt (n : ℕ) {d k : ℕ} (hd : 0 < d)
    (hlt : nearest n (d * spacing (n / d)) < k) :
    2 * n ≤ (roundedQuotient n d + k * spacing (n / d)) * d ∧
      (2 * n = (roundedQuotient n d + k * spacing (n / d)) * d →
        nearest n (d * spacing (n / d)) % 2 = 0) := by
  obtain ⟨hup, -, heven⟩ := nearest_spec n (Nat.mul_pos hd (spacing_pos (n / d)))
  rw [roundedQuotient]
  generalize nearest n (d * spacing (n / d)) = m at hlt hup heven ⊢
  have hmean : (m * spacing (n / d) + k * spacing (n / d)) * d =
      (m + k) * (d * spacing (n / d)) := by ring
  have hstep : (2 * m + 1) * (d * spacing (n / d)) ≤ (m + k) * (d * spacing (n / d)) :=
    Nat.mul_le_mul_right _ (by omega)
  rw [hmean]
  exact ⟨by omega, fun htie => heven (.inl (by omega))⟩

/-- Rounding does not fall below the power of two at which the spacing begins. -/
theorem le_roundedQuotient {n d : ℕ} (hle : powTwo 52 * spacing (n / d) ≤ n / d) :
    powTwo 52 * spacing (n / d) ≤ roundedQuotient n d := by
  have hquotient : powTwo 52 ≤ n / (d * spacing (n / d)) := by
    rw [← Nat.div_div_eq_div_mul]
    exact (Nat.le_div_iff_mul_le (spacing_pos _)).mpr hle
  exact Nat.mul_le_mul_right _ (hquotient.trans (le_nearest _ _))

/-- Below a rounded quotient there is no representable number that is nearer. -/
theorem Representable.mean_le_of_lt {n d r : ℕ} (hr : Representable r) (hd : 0 < d)
    (hlt : r < roundedQuotient n d) :
    (r + roundedQuotient n d) * d ≤ 2 * n ∧
      ((r + roundedQuotient n d) * d = 2 * n → nearest n (d * spacing (n / d)) % 2 = 0) := by
  rcases hr.dvd_or_lt (n / d) with ⟨k, rfl⟩ | ⟨hstart, hle⟩
  · rw [Nat.mul_comm (spacing _)] at hlt ⊢
    exact mean_le_of_multiple_lt n hd (Nat.lt_of_mul_lt_mul_right hlt)
  · -- A number of finer spacing is farther than the power of two above it.
    have hn := (Nat.le_div_iff_mul_le hd).mp hle
    have hmul := Nat.mul_lt_mul_of_pos_right hstart hd
    have hstrict : (r + roundedQuotient n d) * d < 2 * n := by
      rw [Nat.add_mul]
      rcases (le_roundedQuotient hle).eq_or_lt with heq | hgt
      · rw [← heq]
        omega
      · have hmean := (mean_le_of_multiple_lt n hd (Nat.lt_of_mul_lt_mul_right hgt)).1
        rw [Nat.add_mul] at hmean
        omega
    exact ⟨hstrict.le, fun htie => absurd htie hstrict.ne⟩

/-- Above a rounded quotient there is no representable number that is nearer. -/
theorem Representable.le_mean_of_gt {n d r : ℕ} (hr : Representable r) (hd : 0 < d)
    (hlt : roundedQuotient n d < r) :
    2 * n ≤ (roundedQuotient n d + r) * d ∧
      (2 * n = (roundedQuotient n d + r) * d → nearest n (d * spacing (n / d)) % 2 = 0) := by
  rcases hr.dvd_or_lt (n / d) with ⟨k, rfl⟩ | ⟨hstart, hle⟩
  · rw [Nat.mul_comm (spacing _)] at hlt ⊢
    exact le_mean_of_multiple_gt n hd (Nat.lt_of_mul_lt_mul_right hlt)
  · have := le_roundedQuotient hle
    omega

/-- An even multiple of the spacing has an even significand. -/
theorem hasEvenSignificand_roundedQuotient {n d : ℕ}
    (heven : nearest n (d * spacing (n / d)) % 2 = 0) :
    HasEvenSignificand (roundedQuotient n d) := by
  have hle := nearest_spacing_le n d
  have hbits : powTwo 53 = 2 * powTwo 52 := powTwo_succ 52
  rw [roundedQuotient]
  generalize nearest n (d * spacing (n / d)) = m at heven hle ⊢
  obtain ⟨half, rfl⟩ := Nat.dvd_of_mod_eq_zero heven
  by_cases hhalf : half < powTwo 52
  · exact ⟨half, (n / d).log2 - 52, hhalf, rfl⟩
  · have hcarry : half = 2 * powTwo 51 := by
      have : powTwo 52 = 2 * powTwo 51 := powTwo_succ 51
      omega
    refine ⟨powTwo 51, (n / d).log2 - 52 + 1, by decide, ?_⟩
    rw [hcarry, spacing, powTwo_succ (_ - 52)]
    ring

/-- The rounded quotient is what the quotient is rounded to. -/
theorem roundsTo_roundedQuotient (n : ℕ) {d : ℕ} (hd : 0 < d) :
    RoundsTo (n / d : ℚ) (roundedQuotient n d) := by
  have hdq : (0 : ℚ) < d := by exact_mod_cast hd
  have hdouble : 2 * (n / d : ℚ) = (2 * n : ℕ) / d := by
    push_cast
    ring
  have hcast (r q : ℕ) : (r + q : ℚ) = ((r + q) * d : ℕ) / d := by
    push_cast
    rw [mul_div_cancel_right₀ _ hdq.ne']
  have hle (x y : ℕ) : (x : ℚ) / d ≤ y / d ↔ x ≤ y :=
    (div_le_div_iff_of_pos_right hdq).trans Nat.cast_le
  have heq (x y : ℕ) : (x : ℚ) / d = y / d ↔ x = y := (div_left_inj' hdq.ne').trans Nat.cast_inj
  refine roundsTo_iff.mpr ⟨representable_roundedQuotient n d, ?_, ?_⟩
  · intro r hr hlt
    rw [hdouble, hcast, hle, heq]
    obtain ⟨hmean, heven⟩ := hr.mean_le_of_lt hd hlt
    exact ⟨hmean, fun htie => hasEvenSignificand_roundedQuotient (heven htie)⟩
  · intro r hr hlt
    rw [hdouble, hcast, hle, heq]
    obtain ⟨hmean, heven⟩ := hr.le_mean_of_gt hd hlt
    exact ⟨hmean, fun htie => hasEvenSignificand_roundedQuotient (heven htie)⟩

/-- A number that the quotient is rounded to is the rounded quotient. -/
theorem roundsTo_iff_eq_roundedQuotient {n d q : ℕ} (hd : 0 < d) :
    RoundsTo (n / d : ℚ) q ↔ roundedQuotient n d = q := by
  constructor
  · exact (roundsTo_roundedQuotient n hd).unique
  · rintro rfl
    exact roundsTo_roundedQuotient n hd

/-- A natural times a power of ten is rounded as a quotient. A negative exponent makes the divisor.
-/
theorem roundsTo_scaled (m : ℕ) (exponent : ℤ) :
    RoundsTo (m * 10 ^ exponent * quantaPerUnit)
      (roundedQuotient (m * Nat.pow 10 exponent.toNat * quantaPerUnit)
        (Nat.pow 10 (-exponent).toNat)) := by
  have hdivisor : 0 < Nat.pow 10 (-exponent).toNat := Nat.pow_pos (by decide)
  have hrounds := roundsTo_roundedQuotient (m * Nat.pow 10 exponent.toNat * quantaPerUnit) hdivisor
  have hvalue : (m * 10 ^ exponent * quantaPerUnit : ℚ) =
      (m * Nat.pow 10 exponent.toNat * quantaPerUnit : ℕ) / (Nat.pow 10 (-exponent).toNat : ℕ) := by
    rw [Nat.cast_mul, Nat.cast_mul, mul_div_right_comm, mul_div_assoc, Nat.pow_eq, Nat.pow_eq,
      Nat.cast_pow, Nat.cast_pow]
    congr 2
    obtain ⟨k, rfl | rfl⟩ := exponent.eq_nat_or_neg
    · simp
    · simp
  rwa [hvalue]

namespace Magnitude

/-- The number that a magnitude stands for. -/
def value (x : Magnitude) : ℚ := x.quanta / quantaPerUnit

/-- Whether a value is rounded to a magnitude. -/
def IsNearestTo (x : Magnitude) (v : ℚ) : Prop := RoundsTo (v * quantaPerUnit) x.quanta

theorem quantaPerUnit_cast_pos : (0 : ℚ) < quantaPerUnit := by exact_mod_cast quantaPerUnit_pos

/-- A value is rounded to one magnitude only. -/
theorem IsNearestTo.unique {x y : Magnitude} {v : ℚ} (hx : x.IsNearestTo v) (hy : y.IsNearestTo v) :
    x = y :=
  Magnitude.ext (RoundsTo.unique hx hy)

end Magnitude
end FormCheck
