import FormCheck.Proofs.NumberNotation

/-!
# Numbers read from their texts

A decimal text stands for an integer times a power of ten, and it is read as the nearest number. The
text of a number stands for its shortest digits in every notation, and these are nearest to the
number, so a number is read back from its text. Only the sign of a zero is lost. For the same reason
a number whose digits are not those of a browser has another text there.
-/
namespace FormCheck

namespace Magnitude

variable {x : Magnitude}

theorem ofQuotient?_eq_some_iff {n d : ℕ} :
    ofQuotient? n d = some x ↔ roundedQuotient (n * quantaPerUnit) d = x.quanta := by
  unfold ofQuotient?
  dsimp only
  split
  next hlt => exact Option.some_inj.trans Magnitude.ext_iff
  next hge =>
    refine ⟨fun h => (Option.some_ne_none x h.symm).elim, fun h => absurd x.quanta_lt ?_⟩
    rwa [← h]

/-- At most half a quantum is rounded to zero. -/
theorem roundsTo_zero {v : ℚ} (hnonneg : 0 ≤ v) (hhalf : v ≤ 1 / 2) : RoundsTo v 0 := by
  have hround : RoundsTo ((1 : ℕ) / (2 : ℕ)) 0 :=
    (roundsTo_iff_eq_roundedQuotient (by decide)).mpr (by decide)
  rw [Nat.cast_one, Nat.cast_ofNat] at hround
  exact RoundsTo.zero.of_between hround hnonneg hhalf

/-- A value that is rounded to a number of the format is below the limit. -/
theorem IsNearestTo.value_lt {v : ℚ} (h : x.IsNearestTo v) :
    v * quantaPerUnit < quantaLimit := by
  refine lt_of_not_ge fun hge => ?_
  have hlimit : Representable quantaLimit := representable_powTwo _
  exact absurd ((RoundsTo.self hlimit).mono hge h) (Nat.not_le.mpr x.quanta_lt)

theorem isNearestTo_iff_of_small {v : ℚ} (hnonneg : 0 ≤ v) (hle : v * quantaPerUnit ≤ 1 / 2) :
    x.IsNearestTo v ↔ x = zero := by
  have hzero : zero.IsNearestTo v :=
    roundsTo_zero (mul_nonneg hnonneg quantaPerUnit_cast_pos.le) hle
  constructor
  · intro h
    exact h.unique hzero
  · rintro rfl
    exact hzero

/-- A decimal of few digits is far below the smallest positive number. -/
theorem mul_quantaPerUnit_le {v : ℚ} {place : ℤ} (hv : v < 10 ^ place) (hplace : place < -400) :
    v * quantaPerUnit ≤ 1 / 2 := by
  have hquanta : (quantaPerUnit : ℚ) ≤ 10 ^ (400 : ℤ) := by
    have hle : quantaPerUnit ≤ 10 ^ 400 := by decide +kernel
    exact_mod_cast hle
  have hpow : v ≤ 10 ^ (-401 : ℤ) := hv.le.trans (zpow_le_zpow_right₀ (by norm_num) (by omega))
  calc v * quantaPerUnit ≤ 10 ^ (-401 : ℤ) * 10 ^ (400 : ℤ) :=
        mul_le_mul hpow hquanta (Nat.cast_nonneg _) (zpow_pos (by norm_num) _).le
    _ ≤ 1 / 2 := by
        rw [← zpow_add₀ (by norm_num)]
        norm_num

/-- A decimal of many digits is beyond the format. -/
theorem quantaLimit_le_mul {v : ℚ} {place : ℤ} (hv : 10 ^ place ≤ v) (hplace : 400 ≤ place) :
    quantaLimit ≤ v * quantaPerUnit := by
  have hlimit : (quantaLimit : ℚ) ≤ 10 ^ (400 : ℤ) * quantaPerUnit := by
    have hle : quantaLimit ≤ 10 ^ 400 * quantaPerUnit := by decide +kernel
    exact_mod_cast hle
  have hpow : 10 ^ (400 : ℤ) ≤ v := (zpow_le_zpow_right₀ (by norm_num) hplace).trans hv
  exact hlimit.trans (mul_le_mul_of_nonneg_right hpow quantaPerUnit_cast_pos.le)

/-- A decimal is read as the magnitude that its value is rounded to. -/
theorem ofDecimal?_eq_some_iff {digits : ℕ} {exponent : ℤ} :
    ofDecimal? digits exponent = some x ↔ x.IsNearestTo (digits * 10 ^ exponent) := by
  have hnonneg : (0 : ℚ) ≤ digits * 10 ^ exponent :=
    mul_nonneg (Nat.cast_nonneg _) (zpow_pos (by norm_num) _).le
  unfold ofDecimal?
  dsimp only
  split
  next hsmall =>
    have hle : digits * 10 ^ exponent * quantaPerUnit ≤ (1 / 2 : ℚ) := by
      by_cases hzero : digits = 0
      · rw [hzero, Nat.cast_zero, zero_mul, zero_mul]
        norm_num
      · have hlt := scaled_lt_pow (pow_length_toDigits_bounds hzero).2 exponent
        exact mul_quantaPerUnit_le hlt (hsmall.resolve_left hzero)
    rw [isNearestTo_iff_of_small hnonneg hle, Option.some_inj, eq_comm]
  next hlarge =>
    obtain ⟨hdigits, -⟩ := not_or.mp hlarge
    split
    next hplace =>
      have hlength : 0 < (Nat.toDigits 10 digits).length := Nat.length_toDigits_pos
      have hle := pow_le_scaled (pow_length_toDigits_bounds hdigits).1 exponent
      have hbeyond := quantaLimit_le_mul hle (by omega)
      exact ⟨fun h => (Option.some_ne_none x h.symm).elim,
        fun h => absurd hbeyond (not_le.mpr h.value_lt)⟩
    next =>
      rw [ofQuotient?_eq_some_iff, IsNearestTo]
      have hrounds := roundsTo_scaled digits exponent
      constructor
      · intro h
        rwa [h] at hrounds
      · exact hrounds.unique

end Magnitude

/-- Digits are taken from a text up to the first character that is none. -/
theorem span_digits {s t : List Char} (hs : ∀ c ∈ s, c.isDigit = true)
    (ht : t.takeWhile Char.isDigit = []) :
    (s ++ t).takeWhile Char.isDigit = s ∧ (s ++ t).dropWhile Char.isDigit = t := by
  have hdrop := List.takeWhile_append_dropWhile (p := Char.isDigit) (l := t)
  rw [ht, List.nil_append] at hdrop
  rw [List.takeWhile_append_of_pos hs, List.dropWhile_append_of_pos hs, ht, List.append_nil, hdrop]
  exact ⟨rfl, rfl⟩

namespace Binary64

variable {whole fraction rest : List Char}

/-- Digits without a point are read up to the mark of an exponent. -/
theorem readDigits?_whole (hne : whole ≠ []) (hwhole : ∀ c ∈ whole, c.isDigit = true)
    (hrest : rest = [] ∨ ∃ t, rest = 'e' :: t) :
    readDigits? (whole ++ rest) =
      (readExponent? rest).map fun exponent => (Nat.ofDigitChars 10 whole 0, exponent) := by
  have hstop : rest.takeWhile Char.isDigit = [] := by
    obtain rfl | ⟨t, rfl⟩ := hrest <;> rfl
  obtain ⟨htake, hdrop⟩ := span_digits hwhole hstop
  obtain rfl | ⟨t, rfl⟩ := hrest
  all_goals simp only [readDigits?, htake, hdrop]
  all_goals simp [hne]

/-- Digits behind the point count in the exponent. -/
theorem readDigits?_fraction (hne : whole ≠ []) (hwhole : ∀ c ∈ whole, c.isDigit = true)
    (hfraction : ∀ c ∈ fraction, c.isDigit = true) (hrest : rest = [] ∨ ∃ t, rest = 'e' :: t) :
    readDigits? (whole ++ '.' :: (fraction ++ rest)) = (readExponent? rest).map fun exponent : ℤ =>
      (Nat.ofDigitChars 10 (whole ++ fraction) 0, exponent - fraction.length) := by
  have hstop : rest.takeWhile Char.isDigit = [] := by
    obtain rfl | ⟨t, rfl⟩ := hrest <;> rfl
  obtain ⟨htake, hdrop⟩ := span_digits (t := '.' :: (fraction ++ rest)) hwhole rfl
  obtain ⟨htakeFraction, hdropFraction⟩ := span_digits hfraction hstop
  simp only [readDigits?, htake, hdrop]
  simp [hne, htakeFraction, hdropFraction]

/-- A signed exponent is read back. -/
theorem readExponent?_signedExponent (exponent : ℤ) :
    readExponent? (Decimal.signedExponent exponent) = some exponent := by
  have hdigits : (Nat.toDigits 10 exponent.natAbs).all Char.isDigit = true :=
    List.all_eq_true.mpr isDigit_of_mem_toDigits
  unfold Decimal.signedExponent
  split
  next hneg => simp [readExponent?, splitSign, hdigits, Nat.toDigits_ne_nil, abs_of_neg hneg]
  next hpos =>
    simp [readExponent?, splitSign, hdigits, Nat.toDigits_ne_nil, abs_of_nonneg (not_lt.mp hpos)]

end Binary64

namespace Decimal

open Binary64

variable {d : Decimal}

section Layouts

variable (hd : d.IsNormal)
include hd

/-- Zeros behind the digits multiply their value. -/
theorem IsNormal.readDigits?_padded (zeros : ℕ) :
    readDigits? (d.digits ++ List.replicate zeros '0') =
      some (10 ^ zeros * Nat.ofDigitChars 10 d.digits 0, 0) := by
  have hdigits := List.forall_mem_append.mpr ⟨hd.isDigit, isDigit_of_mem_zeros (n := zeros)⟩
  have hread := readDigits?_whole (List.append_ne_nil_of_left_ne_nil hd.ne_nil _) hdigits (.inl rfl)
  rwa [List.append_nil, Nat.ofDigitChars_append, Nat.ofDigitChars_replicate_zero] at hread

/-- A point inside the digits. -/
theorem IsNormal.readDigits?_inside {n : ℕ} (hn : n ≠ 0) {rest : List Char} {exponent : ℤ}
    (hrest : rest = [] ∨ ∃ t, rest = 'e' :: t) (hexponent : readExponent? rest = some exponent) :
    readDigits? (d.digits.take n ++ '.' :: (d.digits.drop n ++ rest)) =
      some (Nat.ofDigitChars 10 d.digits 0, exponent - (d.digits.length - n : ℕ)) := by
  have hne : d.digits.take n ≠ [] := by
    rw [ne_eq, List.take_eq_nil_iff]
    exact not_or.mpr ⟨hn, hd.ne_nil⟩
  have hfraction : ∀ c ∈ d.digits.drop n, c.isDigit = true :=
    fun c hc => hd.isDigit c (List.mem_of_mem_drop hc)
  have hread := readDigits?_fraction hne (fun c hc => hd.isDigit c (List.mem_of_mem_take hc))
    hfraction hrest
  rwa [hexponent, List.take_append_drop, List.length_drop] at hread

/-- Zeros between the point and the digits. -/
theorem IsNormal.readDigits?_below (zeros : ℕ) :
    readDigits? ('0' :: '.' :: List.replicate zeros '0' ++ d.digits) =
      some (Nat.ofDigitChars 10 d.digits 0, (0 : ℤ) - (zeros + d.digits.length : ℕ)) := by
  have hdigits := List.forall_mem_append.mpr ⟨isDigit_of_mem_zeros (n := zeros), hd.isDigit⟩
  have hzero : ∀ c ∈ ['0'], c.isDigit = true := isDigit_of_mem_zeros (n := 1)
  have hread := readDigits?_fraction (List.cons_ne_nil '0' []) hzero hdigits (.inl rfl)
  have hvalue : Nat.ofDigitChars 10 (['0'] ++ (List.replicate zeros '0' ++ d.digits)) 0 =
      Nat.ofDigitChars 10 d.digits 0 := by
    simp [Nat.ofDigitChars_append, Nat.ofDigitChars_cons]
  rwa [hvalue, List.append_nil, List.length_append, List.length_replicate] at hread

end Layouts

/-- In every notation the text of digits stands for their value. -/
theorem IsNormal.readDigits?_browserText (hd : d.IsNormal) : ∃ digits exponent,
    readDigits? d.browserText = some (digits, exponent) ∧
      (digits * 10 ^ exponent : ℚ) = d.value := by
  have hlength := List.length_pos_iff.mpr hd.ne_nil
  have hmark : signedExponent (d.point - 1) = [] ∨ ∃ t, signedExponent (d.point - 1) = 'e' :: t :=
    .inr ⟨_, rfl⟩
  have hexponent := readExponent?_signedExponent (d.point - 1)
  unfold browserText
  split
  next h =>
    refine ⟨_, _, hd.readDigits?_padded _, ?_⟩
    have hpoint : d.point - d.digits.length = ((d.point - d.digits.length).toNat : ℤ) := by omega
    rw [value, hpoint, Int.toNat_natCast, zpow_natCast, zpow_zero, mul_one, Nat.cast_mul,
      Nat.cast_pow, Nat.cast_ofNat, mul_comm]
  next hwhole =>
    -- In the other notations the digits are written as they are.
    refine ⟨Nat.ofDigitChars 10 d.digits 0, d.point - d.digits.length, ?_, rfl⟩
    split
    next h =>
      have hpoint : d.point.toNat ≠ 0 := by omega
      have hread := hd.readDigits?_inside hpoint (.inl rfl) rfl
      rw [List.append_nil] at hread
      rw [hread]
      congr 2
      omega
    next =>
      split
      next h =>
        rw [hd.readDigits?_below]
        congr 2
        omega
      next =>
        split
        next hone =>
          rw [readDigits?_whole hd.ne_nil hd.isDigit hmark, hexponent, Option.map_some, hone]
          rfl
        next =>
          rw [List.append_assoc, List.cons_append,
            hd.readDigits?_inside Nat.one_ne_zero hmark hexponent]
          congr 2
          omega

end Decimal

theorem toLower_of_isDigit {c : Char} (h : c.isDigit = true) : c.toLower = c := by
  unfold Char.toLower
  rw [dif_neg]
  rintro ⟨hupper, -⟩
  have hle : 'A'.toNat ≤ c.toNat := hupper
  have hdigit := (Char.isDigit_iff_toNat.mp h).2
  have hnine : '9'.toNat = 57 := rfl
  have hletter : 'A'.toNat = 65 := rfl
  omega

namespace Binary64

section Reading

variable {s rest : List Char} {negative : Bool} {digits : ℕ} {exponent : ℤ} {x : Magnitude}

/-- A decimal text begins with a digit or a point. -/
theorem exists_cons_of_readDigits? (h : readDigits? s = some (digits, exponent)) :
    ∃ c t, s = c :: t ∧ (c.isDigit = true ∨ c = '.') := by
  cases s with
  | nil => cases h
  | cons c t =>
    refine ⟨c, t, rfl, ?_⟩
    by_contra hc
    obtain ⟨hdigit, hpoint⟩ := not_or.mp hc
    simp [readDigits?, hdigit, hpoint] at h

theorem splitSign_of_readDigits? (h : readDigits? s = some (digits, exponent)) :
    splitSign s = (false, s) := by
  obtain ⟨c, t, rfl, hc⟩ := exists_cons_of_readDigits? h
  unfold splitSign
  split
  next rest heq =>
    obtain ⟨rfl, -⟩ := List.cons.inj heq
    exact absurd hc (by decide)
  next rest heq =>
    obtain ⟨rfl, -⟩ := List.cons.inj heq
    exact absurd hc (by decide)
  next => rfl

/-- No name of a special number is a decimal text. -/
theorem map_toLower_ne_of_readDigits? (h : readDigits? s = some (digits, exponent)) {name : String}
    (hname : name = "nan" ∨ name = "inf" ∨ name = "infinity") :
    String.ofList (s.map Char.toLower) ≠ name := by
  obtain ⟨c, t, rfl, hc⟩ := exists_cons_of_readDigits? h
  have hlower : c.toLower = c := by
    rcases hc with hc | rfl
    · exact toLower_of_isDigit hc
    · rfl
  intro heq
  have hlist := congrArg String.toList heq
  rw [String.toList_ofList, List.map_cons, hlower] at hlist
  rcases hname with rfl | rfl | rfl
  all_goals
    obtain ⟨rfl, -⟩ := List.cons.inj hlist
    exact absurd hc (by decide)

/-- A decimal text with a sign is read as the number nearest to its value. -/
theorem read?_of_readDigits? (hs : splitSign s = (negative, rest))
    (h : readDigits? rest = some (digits, exponent)) :
    read? s = some (signed negative (Magnitude.ofDecimal? digits exponent)) := by
  have hnan := map_toLower_ne_of_readDigits? h (.inl rfl)
  have hinf := map_toLower_ne_of_readDigits? h (.inr (.inl rfl))
  have hinfinity := map_toLower_ne_of_readDigits? h (.inr (.inr rfl))
  unfold read?
  rw [hs]
  simp only [hnan, hinf, hinfinity, h, if_false, or_self, Option.map_some]

/-- Whether a text is a decimal with a sign whose value is rounded to a magnitude. -/
def IsReadAs (s : List Char) (negative : Bool) (x : Magnitude) : Prop :=
  ∃ rest digits exponent, splitSign s = (negative, rest) ∧
    readDigits? rest = some (digits, exponent) ∧ x.IsNearestTo (digits * 10 ^ exponent)

/-- What is read as a finite number is a decimal, and it is read as the nearest number. -/
theorem read?_eq_some_finite_iff : read? s = some (finite negative x) ↔ IsReadAs s negative x := by
  constructor
  · intro h
    obtain ⟨sign, rest, hs⟩ : ∃ sign rest, splitSign s = (sign, rest) := ⟨_, _, rfl⟩
    unfold read? at h
    rw [hs] at h
    dsimp only at h
    split at h
    · cases h
    · split at h
      · cases h
      · obtain ⟨⟨digits, exponent⟩, hread, hsigned⟩ := Option.map_eq_some_iff.mp h
        cases hdecimal : Magnitude.ofDecimal? digits exponent with
        | none =>
          rw [hdecimal] at hsigned
          cases hsigned
        | some y =>
          rw [hdecimal] at hsigned
          cases hsigned
          exact ⟨rest, digits, exponent, hs, hread, Magnitude.ofDecimal?_eq_some_iff.mp hdecimal⟩
  · rintro ⟨rest, digits, exponent, hs, hread, hnearest⟩
    rw [read?_of_readDigits? hs hread, Magnitude.ofDecimal?_eq_some_iff.mpr hnearest]
    rfl

end Reading

/-- The text of a finite number is read as the number; only the sign of a zero is lost. -/
theorem read?_text (negative : Bool) (x : Magnitude) :
    read? (finite negative x).text = some (finite (negative && x.quanta ≠ 0) x) := by
  by_cases hx : x.quanta = 0
  · have hzero : x = .zero := Magnitude.ext hx
    subst hzero
    have htext : (finite negative .zero).text = ['0'] := rfl
    have hread : read? ['0'] = some (finite false .zero) := rfl
    rw [htext, hread, decide_eq_false (not_not.mpr hx), Bool.and_false]
  · obtain ⟨d, hd⟩ : ∃ d, x.IsShortest .up d := ⟨_, Magnitude.isShortest_shortest .up hx⟩
    obtain ⟨digits, exponent, hread, hvalue⟩ := hd.normal.readDigits?_browserText
    have hsign : splitSign ((if negative then ['-'] else []) ++ d.browserText) =
        (negative, d.browserText) := by
      cases negative
      · exact splitSign_of_readDigits? hread
      · rfl
    rw [text_of_isShortest negative hx hd, decide_eq_true hx, Bool.and_true,
      read?_eq_some_finite_iff]
    exact ⟨_, digits, exponent, hsign, hread, hvalue ▸ hd.nearest⟩

/-- Two shortest decimals with the same text are the same. -/
theorem eq_of_browserText_eq {x : Magnitude} {tie other : Tie} {d e : Decimal}
    (hd : x.IsShortest tie d) (he : x.IsShortest other e) (h : d.browserText = e.browserText) :
    d = e := by
  obtain ⟨digits, exponent, hread, hvalue⟩ := hd.normal.readDigits?_browserText
  obtain ⟨digits', exponent', hread', hvalue'⟩ := he.normal.readDigits?_browserText
  rw [h, hread'] at hread
  cases hread
  exact hd.normal.eq_of_value_eq he.normal (hd.length_eq he) (hvalue.symm.trans hvalue')

/-- The text of a number is the one that a browser gives to it exactly if its digits are those of
the browser. -/
theorem isBrowserText_text_iff {n : Binary64} : IsBrowserText n n.text ↔ n.HasBrowserDigits := by
  rw [isBrowserText_iff, eq_comm]
  refine ⟨?_, text_eq_browserText⟩
  rintro h negative x rfl hx
  have hup := Magnitude.isShortest_shortest .up hx
  have heven := Magnitude.isShortest_shortest .even hx
  rw [text_of_isShortest negative hx hup, browserText_finite negative hx heven,
    List.append_cancel_left_eq] at h
  rwa [eq_of_browserText_eq hup heven h]

/-- Halfway between two decimals of seventeen digits. -/
example : (read? "2.98023223876953125e-8".toList).map
    (fun n => (String.ofList n.text, String.ofList n.browserText)) =
      some ("2.9802322387695313e-8", "2.9802322387695312e-8") := by
  decide +kernel

theorem equal_finite_iff {s t : Bool} {x y : Magnitude} :
    (finite s x).equal (finite t y) = true ↔ x = y ∧ (s = t ∨ x.quanta = 0) := by
  simp [equal, Magnitude.ext_iff]

/-- Numbers have the same text exactly if they are equal as numbers. -/
theorem text_eq_text_iff {s t : Bool} {x y : Magnitude} :
    (finite s x).text = (finite t y).text ↔ (finite s x).equal (finite t y) = true := by
  rw [equal_finite_iff]
  constructor
  · intro h
    have hread : some (finite (s && x.quanta ≠ 0) x) = some (finite (t && y.quanta ≠ 0) y) := by
      rw [← read?_text, ← read?_text, h]
    obtain ⟨hsign, rfl⟩ := finite.inj (Option.some.inj hread)
    refine ⟨rfl, Classical.or_iff_not_imp_right.mpr fun hx => ?_⟩
    rwa [decide_eq_true hx, Bool.and_true, Bool.and_true] at hsign
  · rintro ⟨rfl, rfl | hx⟩
    · rfl
    · have hzero (sign : Bool) : (finite sign x).text = ['0'] := if_pos hx
      rw [hzero, hzero]

end Binary64

/-- The text of a finite number is a decimal that is rounded to the number, so it is read as the
number but for the sign of a zero. Equal numbers and no others have the same text, and no finite
number has the text of a value of another kind. -/
theorem Value.finite_number_text_faithful :
    (∀ (negative : Bool) (x : Magnitude), ∃ sign,
      Binary64.IsReadAs (number (.finite negative x)).text.toList sign x ∧
      Binary64.read? (number (.finite negative x)).text.toList = some (.finite sign x) ∧
      Binary64.equal (.finite sign x) (.finite negative x) = true ∧
      (sign = negative ∨ x.quanta = 0)) ∧
    (∀ (s t : Bool) (x y : Magnitude),
      (number (.finite s x)).text = (number (.finite t y)).text ↔
        Binary64.equal (.finite s x) (.finite t y) = true) ∧
    ∀ (negative : Bool) (x : Magnitude),
      (number (.finite negative x)).text ∉
        [null, bool false, bool true, number .nan, number (.infinite false),
          number (.infinite true)].map text := by
  refine ⟨fun negative x => ?_, fun s t x y => ?_, fun negative x hmem => ?_⟩
  · have hread := Binary64.read?_text negative x
    rw [text, String.toList_ofList]
    refine ⟨_, Binary64.read?_eq_some_finite_iff.mp hread, hread, ?_⟩
    by_cases hx : x.quanta = 0
    · exact ⟨Binary64.equal_finite_iff.mpr ⟨rfl, .inr hx⟩, .inr hx⟩
    · have hsign : (negative && decide (x.quanta ≠ 0)) = negative := by
        rw [decide_eq_true hx, Bool.and_true]
      exact ⟨Binary64.equal_finite_iff.mpr ⟨rfl, .inl hsign⟩, .inl hsign⟩
  · rw [text, text, String.ofList_inj, Binary64.text_eq_text_iff]
  · obtain ⟨v, hv, htext⟩ := List.mem_map.mp hmem
    have hread : Binary64.read? v.text.toList = some (.finite (negative && x.quanta ≠ 0) x) := by
      rw [htext, text, String.toList_ofList, Binary64.read?_text]
    simp only [List.mem_cons, List.not_mem_nil, or_false] at hv
    rcases hv with rfl | rfl | rfl | rfl | rfl | rfl
    all_goals cases hread

end FormCheck
