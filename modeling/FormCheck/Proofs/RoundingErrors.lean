import FormCheck.Proofs.Rounding
import Mathlib.Algebra.Order.Floor.Semiring
import Mathlib.Data.Rat.Floor
import Mathlib.Tactic.FieldSimp
import Mathlib.Tactic.Positivity

/-!
# How far rounding goes

A value that is rounded moves by half a quantum at most, or by one part in `2 ^ 53`. Numbers of the
format are at least one part in `2 ^ 53` apart, so what is closer than half of that to a number is
rounded to it. When rounded values are multiplied or divided, their errors add up: `Within k` says
that two values differ by no more than `k` roundings.
-/
namespace FormCheck

theorem powTwo_cast (n : ℕ) : (powTwo n : ℚ) = 2 ^ n := by
  rw [powTwo, Nat.pow_eq, Nat.cast_pow, Nat.cast_ofNat]

theorem powTwo_le_powTwo {m n : ℕ} (h : m ≤ n) : powTwo m ≤ powTwo n :=
  Nat.pow_le_pow_right (by decide) h

/-- Neighbours are a quantum apart, or one part in `2 ^ 52`. -/
theorem spacing_eq_one_or_le (n : ℕ) : spacing n = 1 ∨ powTwo 52 * spacing n ≤ n := by
  rcases Nat.le_total n.log2 52 with hsmall | hlarge
  · left
    rw [spacing, Nat.sub_eq_zero_of_le hsmall, powTwo_zero]
  · right
    have hn : n ≠ 0 := by
      rintro rfl
      simp at hlarge
    rw [spacing, ← powTwo_add, Nat.add_sub_cancel' hlarge]
    exact Nat.log2_self_le hn

theorem div_spacing_lt (n : ℕ) : n / spacing n < powTwo 53 := by
  refine (Nat.div_lt_iff_lt_mul (spacing_pos n)).mpr ?_
  rw [spacing, ← powTwo_add]
  exact Nat.lt_log2_self.trans_le (powTwo_le_powTwo (by omega))

theorem representable_mul_spacing {m : ℕ} (hm : m ≤ powTwo 53) (n : ℕ) :
    Representable (m * spacing n) := by
  rcases hm.lt_or_eq with hlt | rfl
  · exact ⟨m, _, hlt, rfl⟩
  · rw [spacing, ← powTwo_add]
    exact representable_powTwo _

namespace RoundsTo

variable {v : ℚ} {q : ℕ}

/-- A rounded value is at most as far away as the nearer of the two multiples of the spacing around
the value. -/
theorem two_mul_abs_sub_le_spacing (h : RoundsTo v q) (hv : 0 ≤ v) :
    2 * |v - q| ≤ spacing ⌊v⌋₊ := by
  have hfits := div_spacing_lt ⌊v⌋₊
  have hlow := Nat.div_mul_le_self ⌊v⌋₊ (spacing ⌊v⌋₊)
  have hhigh := Nat.lt_mul_of_div_lt (Nat.lt_succ_self (⌊v⌋₊ / spacing ⌊v⌋₊)) (spacing_pos ⌊v⌋₊)
  have hbelow := h.nearest _ (representable_mul_spacing hfits.le ⌊v⌋₊)
  have habove := h.nearest _ (representable_mul_spacing (Nat.succ_le_of_lt hfits) ⌊v⌋₊)
  generalize ⌊v⌋₊ / spacing ⌊v⌋₊ = m at *
  have hle : ((m * spacing ⌊v⌋₊ : ℕ) : ℚ) ≤ v :=
    le_trans (Nat.cast_le.mpr hlow) (Nat.floor_le hv)
  have hlt : v ≤ (m.succ * spacing ⌊v⌋₊ : ℕ) :=
    (Nat.lt_floor_add_one v).le.trans (by exact_mod_cast hhigh)
  rw [abs_of_nonneg (sub_nonneg.mpr hle)] at hbelow
  rw [abs_of_nonpos (sub_nonpos.mpr hlt)] at habove
  push_cast at hbelow habove
  linarith

/-- The error of rounding. -/
theorem error_le (h : RoundsTo v q) (hv : 0 ≤ v) : |v - q| ≤ 1 / 2 ∨ 2 ^ 53 * |v - q| ≤ v := by
  have herror := h.two_mul_abs_sub_le_spacing hv
  rcases spacing_eq_one_or_le ⌊v⌋₊ with hone | hle
  · left
    rw [hone, Nat.cast_one] at herror
    linarith
  · right
    have hfloor : (powTwo 52 * spacing ⌊v⌋₊ : ℚ) ≤ v :=
      le_trans (by exact_mod_cast hle) (Nat.floor_le hv)
    rw [powTwo_cast] at hfloor
    linarith

/-- Half a quantum is little for all but the smallest values. -/
theorem error_le_of_le (h : RoundsTo v q) {n : ℕ} (hn : n ≤ 53) (hv : 2 ^ n ≤ 2 * v) :
    2 ^ n * |v - q| ≤ v := by
  have hpos : (0 : ℚ) < 2 ^ n := by positivity
  rcases h.error_le (by linarith) with hhalf | hpart
  · nlinarith
  · refine le_trans (mul_le_mul_of_nonneg_right ?_ (abs_nonneg _)) hpart
    exact pow_le_pow_right₀ (by norm_num) hn

end RoundsTo

/-- Numbers with a common step, one of which has a significand of 53 bits at that step, are at least
one part in `2 ^ 53` apart. -/
theorem mul_le_mul_abs_sub {a b : ℕ} (h : a < powTwo 53 ∨ b < powTwo 53) (hne : b ≠ a) (step : ℕ) :
    ((a * step : ℕ) : ℤ) ≤ powTwo 53 * |((b * step : ℕ) : ℤ) - (a * step : ℕ)| := by
  have hsignificands : (a : ℤ) ≤ powTwo 53 * |(b : ℤ) - a| := by
    have hbits : powTwo 53 = 9007199254740992 := rfl
    have hone : 1 ≤ |(b : ℤ) - a| := Int.one_le_abs (sub_ne_zero.mpr (by exact_mod_cast hne))
    have hle : (a : ℤ) ≤ b + |(b : ℤ) - a| := by linarith [neg_abs_le ((b : ℤ) - a)]
    rw [hbits] at h ⊢
    omega
  push_cast
  rw [← sub_mul, abs_mul, Nat.abs_cast, ← mul_assoc]
  exact mul_le_mul_of_nonneg_right hsignificands (Nat.cast_nonneg step)

/-- Two numbers of the format are at least one part in `2 ^ 53` apart. -/
theorem Representable.le_mul_abs_sub {q r : ℕ} (hq : Representable q) (hr : Representable r)
    (hne : r ≠ q) : (q : ℚ) ≤ 2 ^ 53 * |(r : ℚ) - q| := by
  have hapart : (q : ℤ) ≤ powTwo 53 * |(r : ℤ) - q| := by
    obtain ⟨a, s, ha, rfl⟩ := hq
    obtain ⟨b, t, hb, rfl⟩ := hr
    rcases Nat.le_total s t with hst | hts
    · obtain ⟨k, rfl⟩ := Nat.exists_eq_add_of_le hst
      rw [Nat.add_comm, powTwo_add, ← Nat.mul_assoc] at hne ⊢
      exact mul_le_mul_abs_sub (.inl ha) (fun h => hne (by rw [h])) _
    · obtain ⟨k, rfl⟩ := Nat.exists_eq_add_of_le hts
      rw [Nat.add_comm, powTwo_add, ← Nat.mul_assoc] at hne ⊢
      exact mul_le_mul_abs_sub (.inr hb) (fun h => hne (by rw [h])) _
  rw [← powTwo_cast]
  exact_mod_cast hapart

/-- What is closer to a number of the format than half of the least gap is rounded to it. -/
theorem RoundsTo.of_abs_sub_lt {v : ℚ} {q : ℕ} (hq : Representable q)
    (hclose : 2 ^ 54 * |v - q| < q) : RoundsTo v q := by
  have hstrict (r : ℕ) (hr : Representable r) (hne : r ≠ q) : |v - q| < |v - r| := by
    have hgap := hq.le_mul_abs_sub hr hne
    have htriangle := abs_sub_le (r : ℚ) v q
    rw [abs_sub_comm (r : ℚ) v] at htriangle
    linarith
  refine ⟨hq, fun r hr => ?_, fun r hr hne htie => absurd htie (hstrict r hr hne).ne'⟩
  rcases eq_or_ne r q with rfl | hne
  · exact le_rfl
  · exact (hstrict r hr hne).le

/-! ## Errors of several roundings -/

/-- How much a value can shrink by one rounding, as a factor. -/
def slack : ℚ := 2 ^ 53 / (2 ^ 53 - 1)

theorem one_le_slack : 1 ≤ slack := by norm_num [slack]

theorem slack_pos : 0 < slack := by norm_num [slack]

/-- Whether two values differ by no more than a number of roundings. -/
structure Within (roundings : ℕ) (a b : ℚ) : Prop where
  le : a ≤ b * slack ^ roundings
  ge : b ≤ a * slack ^ roundings

namespace Within

variable {a b c d : ℚ} {j k : ℕ}

theorem refl (a : ℚ) : Within 0 a a := by
  constructor <;> rw [pow_zero, mul_one]

theorem symm (h : Within k a b) : Within k b a := ⟨h.ge, h.le⟩

theorem trans (hab : Within j a b) (hbc : Within k b c) : Within (j + k) a c := by
  have hj : 0 ≤ slack ^ j := (pow_pos slack_pos j).le
  have hk : 0 ≤ slack ^ k := (pow_pos slack_pos k).le
  constructor
  · calc a ≤ b * slack ^ j := hab.le
      _ ≤ c * slack ^ k * slack ^ j := mul_le_mul_of_nonneg_right hbc.le hj
      _ = c * slack ^ (j + k) := by ring
  · calc c ≤ b * slack ^ k := hbc.ge
      _ ≤ a * slack ^ j * slack ^ k := mul_le_mul_of_nonneg_right hab.ge hk
      _ = a * slack ^ (j + k) := by ring

theorem mul (hab : Within j a b) (hcd : Within k c d) (ha : 0 ≤ a) (hb : 0 ≤ b) (hc : 0 ≤ c)
    (hd : 0 ≤ d) : Within (j + k) (a * c) (b * d) := by
  have hj : 0 ≤ slack ^ j := (pow_pos slack_pos j).le
  constructor
  · calc a * c ≤ b * slack ^ j * (d * slack ^ k) := mul_le_mul hab.le hcd.le hc (mul_nonneg hb hj)
      _ = b * d * slack ^ (j + k) := by ring
  · calc b * d ≤ a * slack ^ j * (c * slack ^ k) := mul_le_mul hab.ge hcd.ge hd (mul_nonneg ha hj)
      _ = a * c * slack ^ (j + k) := by ring

theorem inv (h : Within k a b) (ha : 0 < a) (hb : 0 < b) : Within k a⁻¹ b⁻¹ := by
  have hle := h.le
  have hge := h.ge
  constructor
  · rw [inv_mul_eq_div, inv_eq_one_div, div_le_div_iff₀ ha hb]
    linarith
  · rw [inv_mul_eq_div, inv_eq_one_div, div_le_div_iff₀ hb ha]
    linarith

theorem div (hab : Within j a b) (hcd : Within k c d) (ha : 0 ≤ a) (hb : 0 ≤ b) (hc : 0 < c)
    (hd : 0 < d) : Within (j + k) (a / c) (b / d) := by
  rw [div_eq_mul_inv, div_eq_mul_inv]
  exact hab.mul (hcd.inv hc hd) ha hb (inv_pos.mpr hc).le (inv_pos.mpr hd).le

theorem of_mul (h : Within k (a * c) (b * c)) (hc : 0 < c) : Within k a b := by
  constructor
  · refine le_of_mul_le_mul_right ?_ hc
    rw [mul_right_comm]
    exact h.le
  · refine le_of_mul_le_mul_right ?_ hc
    rw [mul_right_comm]
    exact h.ge

theorem of_le (h : Within j a b) (ha : 0 ≤ a) (hb : 0 ≤ b) (hjk : j ≤ k) : Within k a b := by
  have hpow : slack ^ j ≤ slack ^ k := pow_le_pow_right₀ one_le_slack hjk
  exact ⟨h.le.trans (mul_le_mul_of_nonneg_left hpow hb),
    h.ge.trans (mul_le_mul_of_nonneg_left hpow ha)⟩

theorem pos (h : Within k a b) (ha : 0 < a) : 0 < b :=
  pos_of_mul_pos_left (ha.trans_le h.le) (pow_pos slack_pos k).le

/-- What differs by a number of roundings differs by a small part. -/
theorem error_le (h : Within k a b) : |a - b| ≤ (slack ^ k - 1) * b := by
  have hone : 1 ≤ slack ^ k := one_le_pow₀ one_le_slack
  have hle := h.le
  have hge := h.ge
  rw [abs_le]
  constructor
  · nlinarith
  · linarith

end Within

namespace RoundsTo

variable {v w : ℚ} {q r : ℕ}

/-- A value that is not small is rounded within a factor. -/
theorem within_of_le (h : RoundsTo v q) {n k : ℕ} (hn : n ≤ 53)
    (hk : 2 ^ n ≤ (2 ^ n - 1) * slack ^ k) (hv : 2 ^ n ≤ 2 * v) : Within k q v := by
  have hpos : (0 : ℚ) < 2 ^ n := by positivity
  have hslack : 1 ≤ slack ^ k := one_le_pow₀ one_le_slack
  obtain ⟨hlow, hhigh⟩ := abs_le.mp ((le_div_iff₀' hpos).mpr (h.error_le_of_le hn hv))
  obtain ⟨part, hpart⟩ : ∃ part, part = v / 2 ^ n := ⟨_, rfl⟩
  have hvalue : v = part * 2 ^ n := by rw [hpart, div_mul_cancel₀ v hpos.ne']
  have hnonneg : 0 ≤ part := by
    rw [hpart]
    exact div_nonneg (by linarith) hpos.le
  rw [← hpart] at hlow hhigh
  constructor
  · calc (q : ℚ) ≤ part * (2 ^ n + 1) := by linarith
      _ ≤ part * (2 ^ n * slack ^ k) := mul_le_mul_of_nonneg_left (by linarith) hnonneg
      _ = v * slack ^ k := by rw [hvalue, mul_assoc]
  · calc v = part * 2 ^ n := hvalue
      _ ≤ part * ((2 ^ n - 1) * slack ^ k) := mul_le_mul_of_nonneg_left hk hnonneg
      _ = part * (2 ^ n - 1) * slack ^ k := (mul_assoc _ _ _).symm
      _ ≤ q * slack ^ k := mul_le_mul_of_nonneg_right (by linarith) (by linarith)

/-- A number and what is read in place of it differ by little if the one is rounded from a value and
the other from what eight roundings make of that value. -/
theorem abs_sub_le_of_within (hq : RoundsTo v q) (hr : RoundsTo w r) (h : Within 8 w v) (hv : 0 ≤ v)
    (hw : 0 ≤ w) (hpos : 0 < q) : 2 ^ 49 * |(r : ℚ) - q| ≤ q + 2 ^ 49 := by
  have herror {u : ℚ} {p : ℕ} (hp : RoundsTo u p) (hu : 0 ≤ u) : |u - p| ≤ 1 / 2 + u / 2 ^ 53 := by
    have hpart : 0 ≤ u / 2 ^ 53 := by positivity
    rcases hp.error_le hu with hhalf | hle
    · linarith
    · linarith
  have hfactor : slack ^ 8 - 1 ≤ 17 / 2 / 2 ^ 53 := by norm_num [slack]
  have hscaled : |w - v| ≤ 17 / 2 / 2 ^ 53 * v :=
    h.error_le.trans (mul_le_mul_of_nonneg_right hfactor hv)
  have hqerror := herror hq hv
  have hrerror := herror hr hw
  have hone : (1 : ℚ) ≤ q := by exact_mod_cast hpos
  have htriangle : |(r : ℚ) - q| ≤ |w - r| + |w - v| + |v - q| := by
    have hfirst := abs_sub_le (r : ℚ) w q
    have hsecond := abs_sub_le w v q
    rw [abs_sub_comm (r : ℚ) w] at hfirst
    linarith
  have hwv := (abs_le.mp hscaled).2
  have hvq := (abs_le.mp hqerror).2
  linarith

end RoundsTo
end FormCheck
