import FormCheck.Number.Shortest
import FormCheck.Proofs.Digits
import FormCheck.Text.Trim
import Mathlib.Algebra.Order.Field.Basic
import Mathlib.Algebra.Order.Field.Rat

/-!
# Decimals and their value

The value of a decimal without a zero in front is between the powers of ten around its first digit.
Zeros at the end are left out of its digits; the value keeps them in the place of the point.
-/
namespace FormCheck

theorem scaled_lt_pow {n length : ℕ} (h : n < 10 ^ length) (exponent : ℤ) :
    (n * 10 ^ exponent : ℚ) < 10 ^ (length + exponent) := by
  have hn : (n : ℚ) < 10 ^ (length : ℤ) := by
    rw [zpow_natCast]
    exact_mod_cast h
  rw [zpow_add₀ (by norm_num)]
  exact mul_lt_mul_of_pos_right hn (zpow_pos (by norm_num) _)

theorem pow_le_scaled {n length : ℕ} (h : 10 ^ length ≤ n) (exponent : ℤ) :
    (10 : ℚ) ^ (length + exponent) ≤ n * 10 ^ exponent := by
  have hn : (10 : ℚ) ^ (length : ℤ) ≤ n := by
    rw [zpow_natCast]
    exact_mod_cast h
  rw [zpow_add₀ (by norm_num)]
  exact mul_le_mul_of_nonneg_right hn (zpow_pos (by norm_num) _).le

/-- Zeros at the end multiply the value of digits. -/
theorem ofDigitChars_trimEnd (s : List Char) :
    Nat.ofDigitChars 10 s 0 = Nat.ofDigitChars 10 (Text.trimEnd (· == '0') s) 0 *
      10 ^ (s.length - (Text.trimEnd (· == '0') s).length) := by
  obtain ⟨zeros, hs, hzeros⟩ := Text.exists_append_trimEnd (· == '0') s
  have hreplicate : zeros = List.replicate zeros.length '0' :=
    List.eq_replicate_of_mem fun c hc => beq_iff_eq.mp (hzeros c hc)
  generalize Text.trimEnd (· == '0') s = t at hs ⊢
  rw [hs, List.length_append, Nat.add_sub_cancel_left, Nat.ofDigitChars_append, hreplicate,
    Nat.ofDigitChars_replicate_zero, List.length_replicate, Nat.mul_comm]

namespace Decimal

/-- The number that a decimal stands for. -/
def value (d : Decimal) : ℚ :=
  Nat.ofDigitChars 10 d.digits 0 * 10 ^ (d.point - d.digits.length)

/-- Whether a decimal has digits, and no zero in front of them. -/
structure IsNormal (d : Decimal) : Prop where
  isDigit : ∀ c ∈ d.digits, c.isDigit = true
  ne_nil : d.digits ≠ []
  head_ne : ∀ rest, d.digits ≠ '0' :: rest

theorem value_mul_pow (d : Decimal) (k : ℤ) : d.value * 10 ^ k =
    Nat.ofDigitChars 10 d.digits 0 * 10 ^ (d.point - d.digits.length + k) := by
  rw [value, mul_assoc, ← zpow_add₀ (by norm_num)]

variable {d e : Decimal}

theorem value_lt_pow (h : ∀ c ∈ d.digits, c.isDigit = true) : d.value < 10 ^ d.point := by
  have hlt := scaled_lt_pow (ofDigitChars_lt h) (d.point - d.digits.length)
  rwa [add_sub_cancel] at hlt

theorem IsNormal.pow_le_value (h : d.IsNormal) : (10 : ℚ) ^ (d.point - 1) ≤ d.value := by
  obtain ⟨c, rest, hcons⟩ := List.exists_cons_of_ne_nil h.ne_nil
  have hc : c.isDigit = true := h.isDigit c (by rw [hcons]; exact List.mem_cons_self)
  have hzero : c ≠ '0' := by
    rintro rfl
    exact h.head_ne rest hcons
  have hdigits : 10 ^ rest.length ≤ Nat.ofDigitChars 10 d.digits 0 := by
    rw [hcons]
    exact le_ofDigitChars_cons hc hzero
  have hle := pow_le_scaled hdigits (d.point - d.digits.length)
  have hpoint : (rest.length + (d.point - d.digits.length) : ℤ) = d.point - 1 := by
    rw [hcons, List.length_cons]
    push_cast
    ring
  rwa [hpoint] at hle

/-- Decimals of the same length are equal if their values are. -/
theorem IsNormal.eq_of_value_eq (hd : d.IsNormal) (he : e.IsNormal)
    (hlength : d.digits.length = e.digits.length) (hvalue : d.value = e.value) : d = e := by
  have hpoint : d.point = e.point := by
    have hle := hd.pow_le_value.trans_lt (hvalue ▸ value_lt_pow he.isDigit)
    have hge := he.pow_le_value.trans_lt (hvalue ▸ value_lt_pow hd.isDigit)
    rw [zpow_lt_zpow_iff_right₀ (by norm_num)] at hle hge
    omega
  have hdigits : Nat.ofDigitChars 10 d.digits 0 = Nat.ofDigitChars 10 e.digits 0 := by
    rw [value, value, hpoint, hlength] at hvalue
    exact_mod_cast mul_right_cancel₀ (zpow_pos (by norm_num) _).ne' hvalue
  have hsame := eq_of_ofDigitChars_eq hd.isDigit he.isDigit hlength hdigits
  cases d
  cases e
  cases hpoint
  cases hsame
  rfl

section Power

variable (exponent : ℤ)

/-- A power of ten, with a single digit. -/
def power : Decimal := ⟨['1'], exponent + 1⟩

theorem value_power : (power exponent).value = 10 ^ exponent := by
  simp [value, power, Nat.ofDigitChars_cons]

theorem isNormal_power : (power exponent).IsNormal := by
  refine ⟨fun c hc => ?_, List.cons_ne_nil _ _, fun rest hdigits => ?_⟩
  · rw [List.mem_singleton.mp hc]
    decide
  · cases hdigits

end Power

section Trimmed

variable {c : ℕ} {exponent : ℤ}

/-- A number times a power of ten as a decimal, with no zeros at the end of its digits. -/
def trimmed (c : ℕ) (exponent : ℤ) : Decimal :=
  ⟨Text.trimEnd (· == '0') (Nat.toDigits 10 c), (Nat.toDigits 10 c).length + exponent⟩

theorem value_trimmed (c : ℕ) (exponent : ℤ) :
    (trimmed c exponent).value = c * 10 ^ exponent := by
  have hle := Text.length_trimEnd_le (· == '0') (Nat.toDigits 10 c)
  have hc := ofDigitChars_trimEnd (Nat.toDigits 10 c)
  rw [Nat.ofDigitChars_ten_toDigits] at hc
  rw [Decimal.value, trimmed]
  generalize Text.trimEnd (· == '0') (Nat.toDigits 10 c) = s at hc hle ⊢
  have hexponent : ((Nat.toDigits 10 c).length + exponent - s.length : ℤ) =
      ((Nat.toDigits 10 c).length - s.length : ℕ) + exponent := by
    rw [Nat.cast_sub hle]
    ring
  rw [hexponent, zpow_add₀ (by norm_num), zpow_natCast, ← mul_assoc]
  congr 1
  exact_mod_cast hc.symm

theorem isNormal_trimmed (hc : c ≠ 0) (exponent : ℤ) :
    (trimmed c exponent).IsNormal := by
  obtain ⟨zeros, hdigits, -⟩ := Text.exists_append_trimEnd (· == '0') (Nat.toDigits 10 c)
  have hvalue := ofDigitChars_trimEnd (Nat.toDigits 10 c)
  rw [Nat.ofDigitChars_ten_toDigits] at hvalue
  unfold trimmed
  generalize Text.trimEnd (· == '0') (Nat.toDigits 10 c) = s at hdigits hvalue ⊢
  refine ⟨fun a ha => ?_, ?_, ?_⟩
  · have hmem : a ∈ Nat.toDigits 10 c := by
      rw [hdigits]
      exact List.mem_append_left zeros ha
    exact isDigit_of_mem_toDigits a hmem
  · rintro rfl
    rw [Nat.ofDigitChars_nil, Nat.zero_mul] at hvalue
    exact hc hvalue
  · rintro rest rfl
    exact toDigits_ne_zero_cons hc _ hdigits

/-- A number that ends in no zero has the digits of its decimal. -/
theorem ofDigitChars_trimmed (hc : ¬ 10 ∣ c) (exponent : ℤ) :
    Nat.ofDigitChars 10 (trimmed c exponent).digits 0 = c := by
  have hvalue := ofDigitChars_trimEnd (Nat.toDigits 10 c)
  rw [Nat.ofDigitChars_ten_toDigits] at hvalue
  unfold trimmed
  generalize Text.trimEnd (· == '0') (Nat.toDigits 10 c) = s at hvalue ⊢
  have hnone : (Nat.toDigits 10 c).length - s.length = 0 := by
    by_contra hzeros
    rw [hvalue] at hc
    exact hc (Dvd.dvd.mul_left (dvd_pow_self 10 hzeros) _)
  rw [hnone, Nat.pow_zero, Nat.mul_one] at hvalue
  exact hvalue.symm

/-- A power of ten has a single digit, and what is below it fits the places below it. -/
theorem length_trimmed_le {places : ℕ} (hplaces : 0 < places) (hc : c ≤ 10 ^ places)
    (exponent : ℤ) : (trimmed c exponent).digits.length ≤ places := by
  rcases hc.lt_or_eq with hlt | rfl
  · have hle := (Nat.length_toDigits_le_iff (b := 10) (by decide) hplaces).mpr hlt
    exact (Text.length_trimEnd_le _ _).trans hle
  · have hdigit : Text.trimEnd (· == '0') (Nat.toDigits 10 (10 ^ places)) = ['1'] := by
      rw [toDigits_pow_ten]
      refine Text.trimEnd_append ['1'] fun a ha => ?_
      rw [List.eq_of_mem_replicate ha, beq_self_eq_true]
    rw [trimmed, hdigit]
    exact hplaces

end Trimmed

end Decimal
end FormCheck
