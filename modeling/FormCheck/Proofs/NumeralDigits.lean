import FormCheck.Json.Number
import FormCheck.Proofs.JsonTokens
import FormCheck.Proofs.SeventeenDigits

/-!
# The digits of numerals

A numeral stands for the integer of all its digits times a power of ten: the places behind the point
lower its exponent. These are what is read from it if the integer fits 64 bits. The numeral of a
decimal of seventeen digits or less fits in each of the four ways to write it, and it stands for the
value of the decimal.
-/
namespace FormCheck

namespace Numeral

theorem mul_ten_add_digitValue (n : ℕ) (c : Char) :
    n * 10 + digitValue c = 10 * n + (c.toNat - '0'.toNat) := by
  rw [digitValue, Nat.mul_comm]

/-- Digits that make a number of 64 bits are all taken. -/
theorem leadingWhole_of_lt {digits : List Char} {n : ℕ}
    (h : Nat.ofDigitChars 10 digits n < UInt64.size) :
    leadingWhole n digits = (Nat.ofDigitChars 10 digits n, 0) := by
  induction digits generalizing n with
  | nil => rfl
  | cons c digits ih =>
    rw [Nat.ofDigitChars_cons] at h ⊢
    rw [leadingWhole, mul_ten_add_digitValue, if_pos ((le_ofDigitChars digits _).trans_lt h), ih h]

theorem leadingFraction_of_lt {digits : List Char} {n : ℕ} {exponent : ℤ}
    (h : Nat.ofDigitChars 10 digits n < UInt64.size) :
    leadingFraction n exponent digits =
      (Nat.ofDigitChars 10 digits n, exponent - digits.length) := by
  induction digits generalizing n exponent with
  | nil => simp [leadingFraction]
  | cons c digits ih =>
    rw [Nat.ofDigitChars_cons] at h ⊢
    rw [leadingFraction, mul_ten_add_digitValue, if_pos ((le_ofDigitChars digits _).trans_lt h), ih h]
    congr 1
    push_cast [List.length_cons]
    ring

/-- The integer of all digits of a numeral. -/
def integer (n : Numeral) : ℕ := Nat.ofDigitChars 10 (n.whole ++ n.fraction) 0

/-- The power of ten that scales the integer of all digits. -/
def tenPower (n : Numeral) : ℤ := n.exponent.getD 0 - n.fraction.length

/-- The integer and the power that are read are those of all digits if these fit 64 bits. -/
theorem leading_of_lt {n : Numeral} (hfits : n.integer < UInt64.size) :
    n.leading = (n.integer, n.tenPower) := by
  rw [integer, Nat.ofDigitChars_append] at hfits
  have hwhole := leadingWhole_of_lt ((le_ofDigitChars n.fraction _).trans_lt hfits)
  rw [leading, hwhole, leadingFraction_of_lt hfits, integer, Nat.ofDigitChars_append, tenPower]
  congr 1
  ring

/-- The four ways to write a decimal as a numeral. -/
theorem ofDecimal_cases (negative : Bool) (d : Decimal) :
    (d.point ≤ 0 ∧ ofDecimal negative d =
        ⟨negative, ['0'], List.replicate (-d.point).toNat '0' ++ d.digits, none⟩) ∨
      (d.digits.length ≤ d.point ∧ d.point ≤ 16 ∧ ofDecimal negative d =
        ⟨negative, d.digits ++ List.replicate (d.point - d.digits.length).toNat '0', ['0'],
          none⟩) ∨
      (0 < d.point ∧ d.point < d.digits.length ∧ ofDecimal negative d =
        ⟨negative, d.digits.take d.point.toNat, d.digits.drop d.point.toNat, none⟩) ∨
      ofDecimal negative d =
        ⟨negative, d.digits.take 1, d.digits.drop 1, some (d.point - 1)⟩ := by
  unfold ofDecimal
  split
  next hpositional =>
    split
    next hsmall => exact .inl ⟨hsmall, rfl⟩
    next hpositive =>
      split
      next hwhole => exact .inr (.inl ⟨hwhole, hpositional.2, rfl⟩)
      next hinside => exact .inr (.inr (.inl ⟨by omega, by omega, rfl⟩))
  next => exact .inr (.inr (.inr rfl))

end Numeral

namespace Decimal

variable {d : Decimal}

open Numeral

section Written

variable (hd : d.IsNormal)
include hd

/-- Decimals are written as numerals are: no zero in front of other digits. -/
theorem IsNormal.wellFormed_ofDecimal (negative : Bool) :
    (ofDecimal negative d).WellFormed := by
  have hzeros {n : ℕ} : ∀ c ∈ List.replicate n '0', c.isDigit = true := isDigit_of_mem_zeros
  have htake (n : ℕ) : ∀ c ∈ d.digits.take n, c.isDigit = true :=
    fun c hc => hd.isDigit c (List.mem_of_mem_take hc)
  have hdrop (n : ℕ) : ∀ c ∈ d.digits.drop n, c.isDigit = true :=
    fun c hc => hd.isDigit c (List.mem_of_mem_drop hc)
  have hhead (s : List Char) (hs : s.head? = d.digits.head?) : s.head? = some '0' → s = ['0'] := by
    intro hzero
    rw [hs] at hzero
    obtain ⟨rest, hrest⟩ := List.head?_eq_some_iff.mp hzero
    exact absurd hrest (hd.head_ne rest)
  have htakeNe {n : ℕ} (hn : n ≠ 0) : d.digits.take n ≠ [] := by
    rw [ne_eq, List.take_eq_nil_iff]
    exact not_or.mpr ⟨hn, hd.ne_nil⟩
  have htakeHead {n : ℕ} (hn : n ≠ 0) : (d.digits.take n).head? = d.digits.head? := by
    rw [List.head?_take, if_neg hn]
  rcases ofDecimal_cases negative d with ⟨-, heq⟩ | ⟨-, -, heq⟩ | ⟨hpositive, -, heq⟩ | heq
  · rw [heq]
    exact ⟨List.cons_ne_nil _ _, hzeros (n := 1), fun _ => rfl,
      List.forall_mem_append.mpr ⟨hzeros, hd.isDigit⟩⟩
  · rw [heq]
    refine ⟨List.append_ne_nil_of_left_ne_nil hd.ne_nil _,
      List.forall_mem_append.mpr ⟨hd.isDigit, hzeros⟩, hhead _ ?_, hzeros (n := 1)⟩
    exact List.head?_append_of_ne_nil _ hd.ne_nil
  · have hn : d.point.toNat ≠ 0 := by omega
    rw [heq]
    exact ⟨htakeNe hn, htake _, hhead _ (htakeHead hn), hdrop _⟩
  · rw [heq]
    exact ⟨htakeNe Nat.one_ne_zero, htake _, hhead _ (htakeHead Nat.one_ne_zero), hdrop _⟩

/-- The digits of a decimal make the integer of its numeral, with zeros behind them only in front of
the point. -/
theorem IsNormal.integer_ofDecimal (negative : Bool) :
    ((ofDecimal negative d).integer = Nat.ofDigitChars 10 d.digits 0 ∧
        (ofDecimal negative d).tenPower = d.point - d.digits.length) ∨
      ∃ zeros : ℕ, d.point = d.digits.length + zeros ∧ d.point ≤ 16 ∧
        (ofDecimal negative d).integer = Nat.ofDigitChars 10 d.digits 0 * 10 ^ (zeros + 1) ∧
        (ofDecimal negative d).tenPower = -1 := by
  have hpos := List.length_pos_iff.mpr hd.ne_nil
  unfold integer tenPower
  rcases ofDecimal_cases negative d with ⟨hsmall, heq⟩ | ⟨hwhole, hle, heq⟩ |
    ⟨hpositive, hlt, heq⟩ | heq
  · refine .inl ⟨?_, ?_⟩
    · rw [heq]
      simp [Nat.ofDigitChars_append, Nat.ofDigitChars_cons]
    · rw [heq]
      simp only [Option.getD_none, List.length_append, List.length_replicate]
      omega
  · obtain ⟨zeros, hzeros⟩ : ∃ zeros : ℕ, d.point = d.digits.length + zeros :=
      ⟨(d.point - d.digits.length).toNat, by omega⟩
    refine .inr ⟨zeros, hzeros, hle, ?_, ?_⟩
    · rw [heq, hzeros, add_sub_cancel_left, Int.toNat_natCast, Nat.ofDigitChars_append,
        Nat.ofDigitChars_append, Nat.ofDigitChars_replicate_zero, Nat.ofDigitChars_cons,
        Nat.ofDigitChars_nil, Nat.sub_self, Nat.add_zero]
      ring
    · rw [heq]
      rfl
  · refine .inl ⟨?_, ?_⟩
    · rw [heq, List.take_append_drop]
    · rw [heq]
      simp only [Option.getD_none, List.length_drop]
      omega
  · refine .inl ⟨?_, ?_⟩
    · rw [heq, List.take_append_drop]
    · rw [heq]
      simp only [Option.getD_some, List.length_drop]
      omega

/-- The numeral of a decimal stands for its value. -/
theorem IsNormal.value_ofDecimal (negative : Bool) :
    ((ofDecimal negative d).integer * 10 ^ (ofDecimal negative d).tenPower : ℚ) = d.value := by
  rcases hd.integer_ofDecimal negative with ⟨hinteger, hpower⟩ |
    ⟨zeros, hpoint, -, hinteger, hpower⟩
  · rw [hinteger, hpower, value]
  · rw [hinteger, hpower, value, hpoint, add_sub_cancel_left, zpow_natCast, zpow_neg_one, pow_succ]
    push_cast
    rw [mul_assoc, mul_inv_cancel_right₀ (by norm_num)]

/-- The numeral of a decimal of seventeen digits has an integer of seventeen digits. -/
theorem IsNormal.integer_ofDecimal_le (hlength : d.digits.length ≤ 17) (negative : Bool) :
    (ofDecimal negative d).integer ≤ 10 ^ 17 := by
  have hvalue := (ofDigitChars_lt hd.isDigit).le
  rcases hd.integer_ofDecimal negative with ⟨hinteger, -⟩ | ⟨zeros, hpoint, hle, hinteger, -⟩
  · rw [hinteger]
    exact hvalue.trans (Nat.pow_le_pow_right (by decide) hlength)
  · rw [hinteger]
    calc Nat.ofDigitChars 10 d.digits 0 * 10 ^ (zeros + 1)
        ≤ 10 ^ d.digits.length * 10 ^ (zeros + 1) := Nat.mul_le_mul_right _ hvalue
      _ = 10 ^ (d.digits.length + (zeros + 1)) := (Nat.pow_add _ _ _).symm
      _ ≤ 10 ^ 17 := Nat.pow_le_pow_right (by decide) (by omega)

end Written

end Decimal

namespace Numeral

/-- The numeral of a magnitude other than zero: its integer has seventeen digits at most, and with
its power of ten it stands for the shortest decimal. -/
theorem ofMagnitude_of_ne_zero (negative : Bool) {x : Magnitude} (hx : x.quanta ≠ 0) :
    (ofMagnitude negative x).integer ≤ 10 ^ 17 ∧
      ((ofMagnitude negative x).integer * 10 ^ (ofMagnitude negative x).tenPower : ℚ) =
        (x.shortest .even).value := by
  have hshortest := Magnitude.isShortest_shortest .even hx
  rw [ofMagnitude, if_neg hx]
  exact ⟨hshortest.normal.integer_ofDecimal_le (hshortest.length_le hx) negative,
    hshortest.normal.value_ofDecimal negative⟩

theorem wellFormed_ofMagnitude (negative : Bool) (x : Magnitude) :
    (ofMagnitude negative x).WellFormed := by
  unfold ofMagnitude
  split
  next =>
    have hzero : ∀ c ∈ ['0'], c.isDigit = true := isDigit_of_mem_zeros (n := 1)
    exact ⟨List.cons_ne_nil _ _, hzero, fun _ => rfl, hzero⟩
  next hx => exact (Magnitude.isShortest_shortest .even hx).normal.wellFormed_ofDecimal negative

end Numeral
end FormCheck
