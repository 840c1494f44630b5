import Mathlib.Algebra.Order.Ring.Nat
import Mathlib.Tactic.Linarith
import Mathlib.Tactic.Ring

/-!
# Decimal digits and their value

A text of digits has a value below the power of ten that its length gives, and at least the one
before it unless it begins with a zero. So texts of one length are equal if their values are, and
the digits of a positive number do not begin with a zero.
-/
namespace FormCheck

/-- More digits never make a number smaller. -/
theorem le_ofDigitChars (digits : List Char) (n : ℕ) : n ≤ Nat.ofDigitChars 10 digits n := by
  rw [Nat.ofDigitChars_eq_ofDigitChars_zero]
  have hle := Nat.le_mul_of_pos_left n (Nat.pow_pos (n := digits.length) (show 0 < 10 by decide))
  omega

theorem ofDigitChars_cons_zero (c : Char) (digits : List Char) :
    Nat.ofDigitChars 10 (c :: digits) 0 =
      10 ^ digits.length * (c.toNat - '0'.toNat) + Nat.ofDigitChars 10 digits 0 := by
  rw [Nat.ofDigitChars_cons, Nat.ofDigitChars_eq_ofDigitChars_zero, Nat.mul_zero, Nat.zero_add]

theorem isDigit_of_mem_toDigits {n : ℕ} : ∀ c ∈ Nat.toDigits 10 n, c.isDigit = true :=
  fun _ => Nat.isDigit_of_mem_toDigits (by decide) (by decide)

theorem isDigit_of_mem_zeros {n : ℕ} : ∀ c ∈ List.replicate n '0', c.isDigit = true := by
  intro c hc
  rw [List.eq_of_mem_replicate hc]
  decide

/-- The value of a single digit. -/
theorem digit_lt_ten {c : Char} (h : c.isDigit = true) : c.toNat - '0'.toNat < 10 := by
  have hrange := (Char.isDigit_iff_toNat.mp h).2
  have hzero : '0'.toNat = 48 := rfl
  have hnine : '9'.toNat = 57 := rfl
  omega

theorem ofDigitChars_lt {digits : List Char} (h : ∀ c ∈ digits, c.isDigit = true) :
    Nat.ofDigitChars 10 digits 0 < 10 ^ digits.length := by
  induction digits with
  | nil => decide
  | cons c digits ih =>
    rw [List.forall_mem_cons] at h
    have hc := digit_lt_ten h.1
    have hrest := ih h.2
    rw [ofDigitChars_cons_zero, List.length_cons, Nat.pow_succ]
    nlinarith

/-- Digits that do not begin with a zero use the whole length. -/
theorem le_ofDigitChars_cons {c : Char} {digits : List Char} (hc : c.isDigit = true)
    (hzero : c ≠ '0') : 10 ^ digits.length ≤ Nat.ofDigitChars 10 (c :: digits) 0 := by
  have hpos : 1 ≤ c.toNat - '0'.toNat := by
    have hle := (Char.isDigit_iff_toNat.mp hc).1
    have hne : c.toNat ≠ '0'.toNat := fun h => hzero (Char.toNat_inj.mp h)
    omega
  rw [ofDigitChars_cons_zero]
  nlinarith [Nat.pow_pos (n := digits.length) (show 0 < 10 by decide)]

/-- Digits of one length are determined by their value. -/
theorem eq_of_ofDigitChars_eq {s t : List Char} (hs : ∀ c ∈ s, c.isDigit = true)
    (ht : ∀ c ∈ t, c.isDigit = true) (hlength : s.length = t.length)
    (hvalue : Nat.ofDigitChars 10 s 0 = Nat.ofDigitChars 10 t 0) : s = t := by
  induction s generalizing t with
  | nil => exact (List.length_eq_zero_iff.mp hlength.symm).symm
  | cons c s ih =>
    cases t with
    | nil => cases hlength
    | cons d t =>
      rw [List.forall_mem_cons] at hs ht
      have hlen : s.length = t.length := by simpa using hlength
      have hslt := ofDigitChars_lt hs.2
      have htlt := ofDigitChars_lt ht.2
      rw [ofDigitChars_cons_zero, ofDigitChars_cons_zero, ← hlen] at hvalue
      rw [← hlen] at htlt
      have hfirst : c.toNat - '0'.toNat = d.toNat - '0'.toNat := by
        have hquotient := congrArg (· / 10 ^ s.length) hvalue
        simpa [Nat.mul_add_div, hslt, htlt, Nat.div_eq_of_lt] using hquotient
      have hchar : c = d := by
        have hc := (Char.isDigit_iff_toNat.mp hs.1).1
        have hd := (Char.isDigit_iff_toNat.mp ht.1).1
        exact Char.toNat_inj.mp (by omega)
      rw [hfirst] at hvalue
      rw [hchar, ih hs.2 ht.2 hlen (by omega)]

/-- The digits of a positive number do not begin with a zero. -/
theorem toDigits_ne_zero_cons {n : ℕ} (hn : n ≠ 0) (rest : List Char) :
    Nat.toDigits 10 n ≠ '0' :: rest := by
  intro h
  have hdigits : ∀ c ∈ '0' :: rest, c.isDigit = true := by
    rw [← h]
    exact isDigit_of_mem_toDigits
  have hvalue : Nat.ofDigitChars 10 rest 0 = n := by
    rw [← Nat.ofDigitChars_ten_toDigits (n := n), h, ofDigitChars_cons_zero]
    simp
  have hlt : n < 10 ^ rest.length := by
    rw [← hvalue]
    exact ofDigitChars_lt fun c hc => hdigits c (List.mem_cons_of_mem _ hc)
  by_cases hrest : rest.length = 0
  · rw [hrest, Nat.pow_zero] at hlt
    omega
  · have hpos := Nat.pos_of_ne_zero hrest
    have hle := (Nat.length_toDigits_le_iff (b := 10) (by decide) hpos).mpr hlt
    rw [h, List.length_cons] at hle
    omega

/-- The length of the digits tells the power of ten that a positive number reaches. -/
theorem pow_length_toDigits_bounds {n : ℕ} (hn : n ≠ 0) :
    10 ^ ((Nat.toDigits 10 n).length - 1) ≤ n ∧ n < 10 ^ (Nat.toDigits 10 n).length := by
  constructor
  · by_cases hlength : (Nat.toDigits 10 n).length - 1 = 0
    · rw [hlength, Nat.pow_zero]
      omega
    · refine Nat.le_of_not_lt fun hlt => ?_
      have hle := (Nat.length_toDigits_le_iff (by decide) (Nat.pos_of_ne_zero hlength)).mpr hlt
      omega
  · exact (Nat.length_toDigits_le_iff (by decide) Nat.length_toDigits_pos).mp le_rfl

theorem toDigits_pow_ten (k : ℕ) : Nat.toDigits 10 (10 ^ k) = '1' :: List.replicate k '0' := by
  induction k with
  | zero => decide
  | succ k ih =>
    have hle : 10 ≤ 10 ^ (k + 1) := Nat.le_self_pow (by omega) 10
    rw [Nat.toDigits_of_base_le (by decide) hle, Nat.pow_succ, Nat.mul_div_cancel _ (by decide), ih,
      Nat.mul_mod_left, List.cons_append, List.replicate_succ']
    rfl

end FormCheck
