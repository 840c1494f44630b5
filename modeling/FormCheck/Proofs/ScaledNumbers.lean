import FormCheck.Json.Number
import FormCheck.Proofs.NumberReading
import FormCheck.Proofs.SeventeenDigits

/-!
# Numbers scaled by powers of ten

A numeral is read as an integer that is multiplied or divided by a power of ten, and each step is
rounded: the integer, the power, and the product or quotient. So what is read is the nearest number
to a value that is a few roundings away from the value of the numeral. If the integer and the power
are numbers of the format, it is the nearest number to the value of the numeral itself.
-/
namespace FormCheck

namespace Magnitude

variable {x y z : Magnitude} {v w : ℚ}

theorem value_nonneg (x : Magnitude) : 0 ≤ x.value :=
  div_nonneg (Nat.cast_nonneg _) (Nat.cast_nonneg _)

theorem value_pos_iff : 0 < x.value ↔ x.quanta ≠ 0 := by
  rw [value, div_pos_iff_of_pos_right quantaPerUnit_cast_pos, Nat.cast_pos, Nat.pos_iff_ne_zero]

theorem value_mul_quantaPerUnit (x : Magnitude) : x.value * quantaPerUnit = x.quanta :=
  div_mul_cancel₀ _ quantaPerUnit_cast_pos.ne'

theorem isNearestTo_value (x : Magnitude) : x.IsNearestTo x.value := by
  rw [IsNearestTo, value_mul_quantaPerUnit]
  exact RoundsTo.self x.representable

theorem IsNearestTo.mono (hx : x.IsNearestTo v) (hy : y.IsNearestTo w) (hle : v ≤ w) :
    x.value ≤ y.value := by
  have hquanta := RoundsTo.mono (mul_le_mul_of_nonneg_right hle quantaPerUnit_cast_pos.le) hx hy
  exact div_le_div_of_nonneg_right (by exact_mod_cast hquanta) quantaPerUnit_cast_pos.le

/-! ## Arithmetic -/

theorem ofQuotient?_eq_some_iff_isNearestTo {n d : ℕ} (hd : 0 < d) :
    ofQuotient? n d = some x ↔ x.IsNearestTo (n / d) := by
  rw [ofQuotient?_eq_some_iff, ← roundsTo_iff_eq_roundedQuotient hd, IsNearestTo, Nat.cast_mul,
    div_mul_eq_mul_div]

theorem ofNat?_eq_some_iff {n : ℕ} : ofNat? n = some x ↔ x.IsNearestTo n := by
  rw [ofNat?, ofQuotient?_eq_some_iff_isNearestTo Nat.one_pos, Nat.cast_one, div_one]

theorem mul?_eq_some_iff : x.mul? y = some z ↔ z.IsNearestTo (x.value * y.value) := by
  rw [mul?, ofQuotient?_eq_some_iff_isNearestTo (Nat.mul_pos quantaPerUnit_pos quantaPerUnit_pos),
    Nat.cast_mul, Nat.cast_mul, value, value, div_mul_div_comm]

theorem div?_eq_some_iff (hy : y.quanta ≠ 0) :
    x.div? y = some z ↔ z.IsNearestTo (x.value / y.value) := by
  rw [div?, ofQuotient?_eq_some_iff_isNearestTo (Nat.pos_of_ne_zero hy), value, value,
    div_div_div_cancel_right₀ quantaPerUnit_cast_pos.ne']

/-- What is below a value that has a nearest number has one. -/
theorem IsNearestTo.exists_of_le (hx : x.IsNearestTo w) (hv : 0 ≤ v) (hle : v ≤ w) :
    ∃ y : Magnitude, y.IsNearestTo v := by
  have hden : 0 < v.den := v.den_pos
  have hnum : ((v.num.toNat : ℕ) / v.den : ℚ) = v := by
    rw [← Int.cast_natCast, Int.toNat_of_nonneg (Rat.num_nonneg.mpr hv), Rat.num_div_den]
  have hrounds := roundsTo_roundedQuotient (v.num.toNat * quantaPerUnit) hden
  rw [Nat.cast_mul, mul_div_right_comm, hnum] at hrounds
  have hquanta := hrounds.mono (mul_le_mul_of_nonneg_right hle quantaPerUnit_cast_pos.le) hx
  exact ⟨⟨_, hrounds.representable, hquanta.trans_lt x.quanta_lt⟩, hrounds⟩

/-! ## Numbers of the format -/

theorem value_eq_of_representable {n : ℕ} (hn : Representable (n * quantaPerUnit))
    (hx : x.IsNearestTo n) : x.value = n := by
  have hself : RoundsTo (n * quantaPerUnit : ℚ) (n * quantaPerUnit : ℕ) := by
    rw [← Nat.cast_mul]
    exact RoundsTo.self hn
  rw [value, RoundsTo.unique hx hself, Nat.cast_mul,
    mul_div_cancel_right₀ _ quantaPerUnit_cast_pos.ne']

/-- Integers of 53 bits are numbers of the format. -/
theorem representable_of_le {n : ℕ} (h : n ≤ powTwo 53) : Representable (n * quantaPerUnit) := by
  rw [quantaPerUnit]
  rcases h.lt_or_eq with hlt | rfl
  · exact ⟨n, _, hlt, rfl⟩
  · rw [← powTwo_add]
    exact representable_powTwo _

/-- The powers of ten up to `10 ^ 22` are numbers of the format, since these powers of five are
integers of 53 bits. -/
theorem representable_power {k : ℕ} (hk : k ≤ 22) : Representable (10 ^ k * quantaPerUnit) := by
  have hfactors : 10 ^ k = 5 ^ k * powTwo k := by rw [powTwo, Nat.pow_eq, ← Nat.mul_pow]
  rw [quantaPerUnit, hfactors, Nat.mul_assoc, ← powTwo_add]
  exact ⟨5 ^ k, _, (Nat.pow_le_pow_right (by decide) hk).trans_lt (by decide), rfl⟩

/-! ## Errors -/

/-- A value that is not small is rounded within a factor. -/
theorem IsNearestTo.within_of_le (h : x.IsNearestTo v) {n k : ℕ} (hn : n ≤ 53)
    (hk : 2 ^ n ≤ (2 ^ n - 1) * slack ^ k) (hv : 2 ^ n ≤ 2 * (v * quantaPerUnit)) :
    Within k x.value v := by
  refine Within.of_mul ?_ quantaPerUnit_cast_pos
  rw [value_mul_quantaPerUnit]
  exact RoundsTo.within_of_le h hn hk hv

theorem IsNearestTo.within_of_one_le (h : x.IsNearestTo v) (hv : 1 ≤ v) : Within 1 x.value v := by
  have hunit : (2 : ℚ) ^ 53 ≤ quantaPerUnit := by
    have hle : 2 ^ 53 ≤ quantaPerUnit := by decide +kernel
    exact_mod_cast hle
  refine h.within_of_le le_rfl (by norm_num [slack]) ?_
  nlinarith

theorem IsNearestTo.one_le (h : x.IsNearestTo v) (hv : 1 ≤ v) : 1 ≤ x.value := by
  have hone : RoundsTo quantaPerUnit quantaPerUnit := RoundsTo.self (representable_powTwo 1074)
  have hle := le_mul_of_one_le_left quantaPerUnit_cast_pos.le hv
  rw [value, one_le_div quantaPerUnit_cast_pos]
  exact_mod_cast hone.mono hle h

/-- Whether a magnitude is nearest to a value that eight roundings make of another. -/
def IsRoundedNear (x : Magnitude) (v : ℚ) : Prop :=
  ∃ w, 0 ≤ w ∧ Within 8 w v ∧ x.IsNearestTo w

end Magnitude

namespace Numeral

open Magnitude

variable {x y : Magnitude} {digits : ℕ}

/-- The powers of ten up to `10 ^ 308` are rounded to numbers of the format. -/
theorem exists_power? {k : ℕ} (hk : k ≤ 308) :
    ∃ p, power? k = some p ∧ p.IsNearestTo (10 ^ k) := by
  obtain ⟨limit, hlimit⟩ : ∃ limit, power? 308 = some limit :=
    Option.isSome_iff_exists.mp (by decide +kernel)
  generalize 308 = bound at hk hlimit
  have hnearest := ofNat?_eq_some_iff.mp hlimit
  rw [Nat.pow_eq, Nat.cast_pow, Nat.cast_ofNat] at hnearest
  obtain ⟨p, hp⟩ := hnearest.exists_of_le (by positivity) (pow_le_pow_right₀ (by norm_num) hk)
  refine ⟨p, ofNat?_eq_some_iff.mpr ?_, hp⟩
  rwa [Nat.pow_eq, Nat.cast_pow, Nat.cast_ofNat]

/-- Division by a power of ten. -/
theorem exists_div_power {v : ℚ} {j k : ℕ} (hx : Within j x.value v) (hpos : 0 < x.value)
    (hk : k ≤ 308) : ∃ p y w, power? k = some p ∧ x.div? p = some y ∧ 0 < w ∧ y.IsNearestTo w ∧
      Within (j + 1) w (v / 10 ^ k) := by
  obtain ⟨p, hpower, hp⟩ := exists_power? hk
  have hten : (1 : ℚ) ≤ 10 ^ k := one_le_pow₀ (by norm_num)
  have hone := hp.one_le hten
  have hppos : 0 < p.value := zero_lt_one.trans_le hone
  obtain ⟨y, hy⟩ := x.isNearestTo_value.exists_of_le (div_pos hpos hppos).le
    (div_le_self hpos.le hone)
  refine ⟨p, y, x.value / p.value, hpower, (div?_eq_some_iff (value_pos_iff.mp hppos)).mpr hy,
    div_pos hpos hppos, hy, ?_⟩
  exact hx.div (hp.within_of_one_le hten) hpos.le (hx.pos hpos).le hppos (by positivity)

theorem scaleDown?_of_le {rounds exponent : ℕ} (hx : x.quanta ≠ 0) (hexponent : exponent ≤ 308) :
    scaleDown? (rounds + 1) x exponent = (power? exponent).bind x.div? := by
  rw [scaleDown?, if_neg hx, if_pos hexponent]

theorem scaleDown?_of_lt {rounds exponent : ℕ} (hx : x.quanta ≠ 0) (hexponent : 308 < exponent) :
    scaleDown? (rounds + 1) x exponent =
      ((power? 308).bind x.div?).bind fun y => scaleDown? rounds y (exponent - 308) := by
  rw [scaleDown?, if_neg hx, if_neg (Nat.not_le.mpr hexponent)]

/-- A quotient by `10 ^ 308` is not so small that half a quantum is much of it. -/
theorem le_div_power {v w : ℚ} (hv : 1 ≤ v) (h : Within 2 w (v / 10 ^ 308)) (hw : 0 < w) :
    2 ^ 51 ≤ 2 * (w * quantaPerUnit) := by
  have hlarge : 2 ^ 51 * (3 * 10 ^ 308) ≤ 4 * quantaPerUnit := by decide +kernel
  have hlargeq : (2 ^ 51 * (3 * 10 ^ 308) : ℚ) ≤ 4 * quantaPerUnit := by exact_mod_cast hlarge
  have hslack : slack ^ 2 ≤ 3 / 2 := by norm_num [slack]
  have hpower : (0 : ℚ) < 10 ^ 308 := by positivity
  have hge := h.ge
  generalize (10 : ℚ) ^ 308 = power at *
  have hone : 1 ≤ w * (3 / 2 * power) := by
    calc 1 ≤ v := hv
      _ = v / power * power := (div_mul_cancel₀ v hpower.ne').symm
      _ ≤ w * slack ^ 2 * power := mul_le_mul_of_nonneg_right hge hpower.le
      _ ≤ w * (3 / 2) * power :=
        mul_le_mul_of_nonneg_right (mul_le_mul_of_nonneg_left hslack hw.le) hpower.le
      _ = w * (3 / 2 * power) := mul_assoc _ _ _
  calc (2 : ℚ) ^ 51 ≤ 2 ^ 51 * (w * (3 / 2 * power)) := le_mul_of_one_le_right (by norm_num) hone
    _ = w / 2 * (2 ^ 51 * (3 * power)) := by ring
    _ ≤ w / 2 * (4 * quantaPerUnit) := mul_le_mul_of_nonneg_left hlargeq (by linarith)
    _ = 2 * (w * quantaPerUnit) := by ring

/-- Division by a power of ten in two steps at most. -/
theorem exists_scaleDown? (hx : x.IsNearestTo digits) (hdigits : digits ≠ 0) {exponent : ℕ}
    (hexponent : exponent ≤ 616) :
    ∃ y, scaleDown? 4 x exponent = some y ∧ y.IsRoundedNear (digits / 10 ^ exponent) := by
  have hone : (1 : ℚ) ≤ digits := by exact_mod_cast Nat.one_le_iff_ne_zero.mpr hdigits
  have hpos : 0 < x.value := zero_lt_one.trans_le (hx.one_le hone)
  have hquanta := value_pos_iff.mp hpos
  have hxdigits := hx.within_of_one_le hone
  rcases Nat.lt_or_ge 308 exponent with hlarge | hsmall
  · obtain ⟨p, g, v, hp, hg, hv, hnearest, hwithin⟩ := exists_div_power hxdigits hpos le_rfl
    have hgv : Within 5 g.value v := hnearest.within_of_le (n := 51) (by decide)
      (by norm_num [slack]) (le_div_power hone hwithin hv)
    have hgpos : 0 < g.value := hgv.symm.pos hv
    obtain ⟨r, y, w, hr, hy, hw, hynearest, hywithin⟩ :=
      exists_div_power (hgv.trans hwithin) hgpos (k := exponent - 308) (by omega)
    refine ⟨y, ?_, w, hw.le, ?_, hynearest⟩
    · rw [scaleDown?_of_lt hquanta hlarge, hp, Option.bind_some, hg, Option.bind_some,
        scaleDown?_of_le (value_pos_iff.mp hgpos) (by omega), hr, Option.bind_some, hy]
    · rwa [div_div, ← pow_add, Nat.add_sub_cancel' hlarge.le] at hywithin
  · obtain ⟨p, y, w, hp, hy, hw, hnearest, hwithin⟩ := exists_div_power hxdigits hpos hsmall
    refine ⟨y, ?_, w, hw.le, hwithin.of_le hw.le (hwithin.pos hw).le (by decide), hnearest⟩
    rw [scaleDown?_of_le hquanta hsmall, hp, Option.bind_some, hy]

/-- Up to the largest decimal, an integer and a power of ten have a product in the format. -/
theorem exists_mul?_of_bounds {m e : ℕ}
    (hbound : ((ofNat? m).bind fun a => (power? e).bind a.mul?).isSome) (hx : x.IsNearestTo digits)
    (hdigits : digits ≤ m) {exponent : ℕ} {p : Magnitude} (hp : p.IsNearestTo (10 ^ exponent))
    (hexponent : exponent ≤ e) : ∃ y : Magnitude, y.IsNearestTo (x.value * p.value) := by
  obtain ⟨z, hz⟩ := Option.isSome_iff_exists.mp hbound
  obtain ⟨a, ha, hz⟩ := Option.bind_eq_some_iff.mp hz
  obtain ⟨b, hb, hz⟩ := Option.bind_eq_some_iff.mp hz
  have hxa : x.value ≤ a.value := hx.mono (ofNat?_eq_some_iff.mp ha) (by exact_mod_cast hdigits)
  have hpb : p.value ≤ b.value := by
    refine hp.mono (ofNat?_eq_some_iff.mp hb) ?_
    rw [Nat.pow_eq, Nat.cast_pow, Nat.cast_ofNat]
    exact pow_le_pow_right₀ (by norm_num) hexponent
  exact (mul?_eq_some_iff.mp hz).exists_of_le (mul_nonneg x.value_nonneg p.value_nonneg)
    (mul_le_mul hxa hpb p.value_nonneg a.value_nonneg)

theorem isSome_mul?_below : ((ofNat? (10 ^ 17)).bind fun a => (power? 291).bind a.mul?).isSome := by
  decide +kernel

theorem isSome_mul?_largest : ∀ k < 17,
    ((ofNat? (largestDigits / 10 ^ k)).bind fun a => (power? (292 + k)).bind a.mul?).isSome := by
  decide +kernel

theorem mul_pow_le_of_mul_pow_add_le {bound n k : ℕ}
    (h : digits * 10 ^ (n + k) ≤ bound * 10 ^ n) : digits * 10 ^ k ≤ bound := by
  rw [Nat.pow_add, Nat.mul_comm (10 ^ n), ← Nat.mul_assoc] at h
  exact Nat.le_of_mul_le_mul_right h (Nat.pow_pos (by decide))

/-- An integer and a power of ten whose product is not beyond the largest decimal are bounded by a
pair of which the product is in the format. -/
theorem exists_bounds (hdigits : digits ≠ 0) (hle : digits ≤ 10 ^ 17) {exponent : ℕ}
    (hlargest : digits * 10 ^ exponent ≤ largestDigits * 10 ^ 292) :
    ∃ m e, ((ofNat? m).bind fun a => (power? e).bind a.mul?).isSome ∧ digits ≤ m ∧
      exponent ≤ e ∧ e ≤ 308 := by
  rcases Nat.lt_or_ge exponent 292 with hsmall | hlarge
  · exact ⟨10 ^ 17, 291, isSome_mul?_below, hle, Nat.le_of_lt_succ hsmall, by decide⟩
  · obtain ⟨k, rfl⟩ := Nat.exists_eq_add_of_le hlarge
    have hscaled := mul_pow_le_of_mul_pow_add_le hlargest
    have hk : k < 17 := by
      have hpow : 10 ^ k ≤ digits * 10 ^ k := Nat.le_mul_of_pos_left _ (Nat.pos_of_ne_zero hdigits)
      have hlt : largestDigits < 10 ^ 17 := by decide
      exact (Nat.pow_lt_pow_iff_right (by decide)).mp ((hpow.trans hscaled).trans_lt hlt)
    exact ⟨largestDigits / 10 ^ k, 292 + k, isSome_mul?_largest k hk,
      (Nat.le_div_iff_mul_le (Nat.pow_pos (by decide))).mpr hscaled, le_rfl, by omega⟩

/-- Multiplication by a power of ten. -/
theorem exists_mul_power (hx : x.IsNearestTo digits) (hdigits : digits ≠ 0)
    (hle : digits ≤ 10 ^ 17) {exponent : ℕ}
    (hlargest : digits * 10 ^ exponent ≤ largestDigits * 10 ^ 292) :
    ∃ p y, exponent ≤ 308 ∧ power? exponent = some p ∧ x.mul? p = some y ∧
      y.IsRoundedNear (digits * 10 ^ exponent) := by
  obtain ⟨m, e, hbound, hm, he, hhigh⟩ := exists_bounds hdigits hle hlargest
  obtain ⟨p, hpower, hp⟩ := exists_power? (he.trans hhigh)
  obtain ⟨y, hy⟩ := exists_mul?_of_bounds hbound hx hm hp he
  have hone : (1 : ℚ) ≤ digits := by exact_mod_cast Nat.one_le_iff_ne_zero.mpr hdigits
  have hten : (1 : ℚ) ≤ 10 ^ exponent := one_le_pow₀ (by norm_num)
  have hnonneg := mul_nonneg x.value_nonneg p.value_nonneg
  have hscaled : (0 : ℚ) ≤ digits * 10 ^ exponent := by positivity
  have hwithin := (hx.within_of_one_le hone).mul (hp.within_of_one_le hten) x.value_nonneg
    (by positivity) p.value_nonneg (by positivity)
  exact ⟨p, y, he.trans hhigh, hpower, mul?_eq_some_iff.mpr hy, x.value * p.value, hnonneg,
    hwithin.of_le hnonneg hscaled (by decide), hy⟩

/-! ## What is read -/

/-- The number that is read from an integer and a power of ten. -/
def scaled? (digits : ℕ) (exponent : ℤ) : Option Magnitude :=
  (ofNat? digits).bind fun x => if exponent = 0 then some x else scale? x exponent

theorem value?_eq_scaled? (n : Numeral) :
    n.value? = (scaled? n.leading.1 n.leading.2).map (.finite n.negative) := rfl

/-- A power of ten that is not negative multiplies the integer. For one itself there is nothing to
do, and the product is the integer. -/
theorem scaled?_natCast {k : ℕ} {p : Magnitude} (hx : ofNat? digits = some x) (hk : k ≤ 308)
    (hp : power? k = some p) : scaled? digits k = x.mul? p := by
  rw [scaled?, hx, Option.bind_some]
  split
  next hzero =>
    obtain rfl : k = 0 := by exact_mod_cast hzero
    have hone : p.value = 1 := by
      have hnearest := ofNat?_eq_some_iff.mp hp
      rw [Nat.pow_eq, Nat.pow_zero] at hnearest
      simpa using value_eq_of_representable (representable_of_le (by decide)) hnearest
    have hproduct := x.isNearestTo_value
    rw [← mul_one x.value, ← hone, ← mul?_eq_some_iff] at hproduct
    exact hproduct.symm
  next =>
    rw [scale?, if_pos (Int.natCast_nonneg k), if_pos (by exact_mod_cast hk), Int.toNat_natCast, hp,
      Option.bind_some]

theorem scaled?_neg {k : ℕ} (hx : ofNat? digits = some x) (hk : k ≠ 0) :
    scaled? digits (-k) = scaleDown? 4 x k := by
  have hneg : (-k : ℤ) < 0 := by omega
  rw [scaled?, hx, Option.bind_some, if_neg hneg.ne, scale?, if_neg (not_le.mpr hneg),
    Int.natAbs_neg, Int.natAbs_natCast]

theorem exists_ofNat? (hle : digits ≤ 10 ^ 17) :
    ∃ x, ofNat? digits = some x ∧ x.IsNearestTo digits := by
  obtain ⟨z, hz⟩ : ∃ z, ofNat? (10 ^ 17) = some z :=
    Option.isSome_iff_exists.mp (by decide +kernel)
  obtain ⟨x, hx⟩ := (ofNat?_eq_some_iff.mp hz).exists_of_le (Nat.cast_nonneg digits)
    (by exact_mod_cast hle)
  exact ⟨x, ofNat?_eq_some_iff.mpr hx, hx⟩

/-- An integer of seventeen digits and a power of ten are read as the nearest number to a value that
is eight roundings away from their product. -/
theorem exists_scaled? (hdigits : digits ≠ 0) (hle : digits ≤ 10 ^ 17) {exponent : ℤ}
    (hlow : -616 ≤ exponent) (hhigh : (digits * 10 ^ exponent : ℚ) ≤ largestDigits * 10 ^ 292) :
    ∃ y, scaled? digits exponent = some y ∧ y.IsRoundedNear (digits * 10 ^ exponent) := by
  obtain ⟨x, hsome, hx⟩ := exists_ofNat? hle
  rcases lt_or_ge exponent 0 with hneg | hnonneg
  · obtain ⟨k, rfl⟩ := Int.exists_eq_neg_ofNat hneg.le
    obtain ⟨y, hy, hnear⟩ := exists_scaleDown? hx hdigits (show k ≤ 616 by omega)
    rw [zpow_neg, zpow_natCast, ← div_eq_mul_inv]
    exact ⟨y, (scaled?_neg hsome (by omega)).trans hy, hnear⟩
  · obtain ⟨k, rfl⟩ := Int.eq_ofNat_of_zero_le hnonneg
    rw [zpow_natCast] at hhigh ⊢
    obtain ⟨p, y, hk, hp, hy, hnear⟩ := exists_mul_power hx hdigits hle (by exact_mod_cast hhigh)
    exact ⟨y, (scaled?_natCast hsome hk hp).trans hy, hnear⟩

/-- The powers of ten up to `10 ^ 22` are read as they are. -/
theorem exists_power?_eq {k : ℕ} (hk : k ≤ 22) :
    ∃ p, power? k = some p ∧ p.value = 10 ^ k ∧ p.quanta ≠ 0 := by
  obtain ⟨p, hpower, hp⟩ := exists_power? (hk.trans (by decide))
  have hvalue : p.value = 10 ^ k := by
    rw [← Nat.cast_ofNat, ← Nat.cast_pow] at hp ⊢
    exact value_eq_of_representable (representable_power hk) hp
  refine ⟨p, hpower, hvalue, value_pos_iff.mp ?_⟩
  rw [hvalue]
  positivity

/-- An integer of 53 bits and a power of ten of the format are read as the nearest number to their
product. -/
theorem scaled?_eq_some_of_isNearestTo (hne : digits ≠ 0) (hdigits : digits ≤ powTwo 53)
    {exponent : ℤ} (hexponent : exponent.natAbs ≤ 22)
    (hy : y.IsNearestTo (digits * 10 ^ exponent)) : scaled? digits exponent = some y := by
  obtain ⟨x, hsome, hx⟩ := exists_ofNat? (hdigits.trans (by decide))
  have hvalue := value_eq_of_representable (representable_of_le hdigits) hx
  have hquanta : x.quanta ≠ 0 := by
    rw [← value_pos_iff, hvalue]
    exact_mod_cast Nat.pos_of_ne_zero hne
  rcases lt_or_ge exponent 0 with hneg | hnonneg
  · obtain ⟨k, rfl⟩ := Int.exists_eq_neg_ofNat hneg.le
    rw [Int.natAbs_neg, Int.natAbs_natCast] at hexponent
    obtain ⟨p, hp, hpvalue, hpquanta⟩ := exists_power?_eq hexponent
    rw [zpow_neg, zpow_natCast, ← div_eq_mul_inv, ← hvalue, ← hpvalue] at hy
    rw [scaled?_neg hsome (by omega), scaleDown?_of_le hquanta (by omega), hp, Option.bind_some,
      (div?_eq_some_iff hpquanta).mpr hy]
  · obtain ⟨k, rfl⟩ := Int.eq_ofNat_of_zero_le hnonneg
    rw [Int.natAbs_natCast] at hexponent
    obtain ⟨p, hp, hpvalue, -⟩ := exists_power?_eq hexponent
    rw [zpow_natCast, ← hvalue, ← hpvalue] at hy
    rw [scaled?_natCast hsome (by omega) hp, mul?_eq_some_iff.mpr hy]

end Numeral
end FormCheck
