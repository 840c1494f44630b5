import FormCheck.Proofs.ShortestDigits
import FormCheck.Value

/-!
# Numbers as browsers write them

A browser chooses between positional notation and an exponent by where the point of the shortest
digits is. `Binary64.text` compares the number itself with two powers of ten and then edits a text.
The two agree: a number is below a power of ten exactly if the point of its shortest digits is not
beyond it. A number that is rounded from the power would be written as its only digit, and between
that and the longest row of nines there is room for other numbers.

The digits themselves differ where two decimals are as short and as close: a browser takes the one
with even digits, and `Binary64.text` the upper one. In a browser `2 ^ -25` is
`2.9802322387695312e-8`, and its text here ends in `13e-8`. So a text is compared with that of a
browser for numbers whose digits agree, and these are all but such halfway cases.
-/
namespace FormCheck

namespace Decimal

/-- An exponent with its sign, behind a mark. -/
def signedExponent (exponent : ℤ) : List Char :=
  'e' :: (if exponent < 0 then '-' else '+') :: Nat.toDigits 10 exponent.natAbs

/-- The text that a browser gives to the digits of a positive number. -/
def browserText (d : Decimal) : List Char :=
  if d.digits.length ≤ d.point ∧ d.point ≤ 21 then
    d.digits ++ List.replicate (d.point - d.digits.length).toNat '0'
  else if 0 < d.point ∧ d.point ≤ 21 then
    d.digits.take d.point.toNat ++ '.' :: d.digits.drop d.point.toNat
  else if -6 < d.point ∧ d.point ≤ 0 then
    '0' :: '.' :: List.replicate (-d.point).toNat '0' ++ d.digits
  else if d.digits.length = 1 then d.digits ++ signedExponent (d.point - 1)
  else d.digits.take 1 ++ '.' :: d.digits.drop 1 ++ signedExponent (d.point - 1)

end Decimal

/-- The texts that browsers give to numbers. The digits are the shortest that read back. Of several
as short they are the closest, and of two as close the even ones. -/
inductive IsBrowserText : Binary64 → List Char → Prop where
  | nan : IsBrowserText .nan "NaN".toList
  | infinity : IsBrowserText (.infinite false) "Infinity".toList
  | negativeInfinity : IsBrowserText (.infinite true) "-Infinity".toList
  | zero (negative : Bool) {x : Magnitude} (hx : x.quanta = 0) :
      IsBrowserText (.finite negative x) ['0']
  | positive {x : Magnitude} {d : Decimal} (hx : x.quanta ≠ 0) (hd : x.IsShortest .even d) :
      IsBrowserText (.finite false x) d.browserText
  | negative {x : Magnitude} {d : Decimal} (hx : x.quanta ≠ 0) (hd : x.IsShortest .even d) :
      IsBrowserText (.finite true x) ('-' :: d.browserText)

namespace Magnitude

variable {x : Magnitude} {d : Decimal} {tie : Tie}

theorem roundsTo_powerOfTen (exponent : ℤ) :
    RoundsTo (10 ^ exponent * quantaPerUnit) (powerOfTen exponent) := by
  have hrounds := roundsTo_scaled 1 exponent
  rwa [Nat.cast_one, one_mul, Nat.one_mul] at hrounds

/-- A number is not below a power of ten that its shortest digits reach. -/
theorem IsShortest.powerOfTen_le (hd : IsShortest tie x d) {exponent : ℤ}
    (hle : exponent < d.point) : powerOfTen exponent ≤ x.quanta := by
  refine RoundsTo.mono ?_ (roundsTo_powerOfTen exponent) hd.nearest
  refine mul_le_mul_of_nonneg_right ?_ quantaPerUnit_cast_pos.le
  exact (zpow_le_zpow_right₀ (by norm_num) (by omega)).trans hd.normal.pow_le_value

/-- A row of nines is below the number that is rounded from the next power of ten, so that number is
written as the power. -/
theorem IsShortest.lt_powerOfTen (hd : IsShortest tie x d) {exponent : ℤ}
    (hnine : roundedQuotient (9 * Nat.pow 10 (exponent - 1).toNat * quantaPerUnit)
      (Nat.pow 10 (-(exponent - 1)).toNat) < powerOfTen exponent)
    (hle : d.point ≤ exponent) : x.quanta < powerOfTen exponent := by
  have hvalue : d.value < 10 ^ exponent :=
    (Decimal.value_lt_pow hd.normal.isDigit).trans_le (zpow_le_zpow_right₀ (by norm_num) hle)
  have hpower := roundsTo_powerOfTen exponent
  have hquanta : x.quanta ≤ powerOfTen exponent :=
    hd.nearest.mono (mul_le_mul_of_nonneg_right hvalue.le quantaPerUnit_cast_pos.le) hpower
  refine lt_of_le_of_ne hquanta fun heq => ?_
  -- Rounded from the power, the number has the power's digit or another single one.
  rw [← heq] at hpower
  have hone : x.IsNearestTo (Decimal.power exponent).value := by
    rwa [IsNearestTo, Decimal.value_power]
  have hlength := hd.shortest _ ⟨(Decimal.isNormal_power exponent).isDigit, hone⟩
  obtain ⟨c, hdigits⟩ : ∃ c, d.digits = [c] :=
    List.length_eq_one_iff.mp (le_antisymm hlength (List.length_pos_iff.mpr hd.normal.ne_nil))
  have hc := digit_lt_ten (hd.normal.isDigit c (by rw [hdigits]; exact List.mem_singleton_self c))
  have hsmall : d.value ≤ (9 : ℕ) * 10 ^ (exponent - 1) := by
    rw [Decimal.value, hdigits, ofDigitChars_cons_zero, List.length_nil, List.length_singleton]
    refine mul_le_mul ?_ (zpow_le_zpow_right₀ (by norm_num) ?_) (zpow_pos (by norm_num) _).le
      (Nat.cast_nonneg _)
    · rw [Nat.pow_zero, Nat.one_mul, Nat.ofDigitChars_nil, Nat.add_zero]
      exact_mod_cast Nat.le_of_lt_succ hc
    · push_cast
      omega
  have hnines := hd.nearest.mono (mul_le_mul_of_nonneg_right hsmall quantaPerUnit_cast_pos.le)
    (roundsTo_scaled 9 (exponent - 1))
  omega

/-- Where the point is tells whether a number is below a power of ten. -/
theorem IsShortest.point_le_iff (hd : IsShortest tie x d) (exponent : ℤ)
    (hnine : roundedQuotient (9 * Nat.pow 10 (exponent - 1).toNat * quantaPerUnit)
      (Nat.pow 10 (-(exponent - 1)).toNat) < powerOfTen exponent) :
    d.point ≤ exponent ↔ x.quanta < powerOfTen exponent := by
  refine ⟨hd.lt_powerOfTen hnine, fun hlt => Int.not_lt.mp fun hpoint => ?_⟩
  exact absurd (hd.powerOfTen_le hpoint) (Nat.not_le.mpr hlt)

/-- Numbers are written in positional notation by where the point of their shortest digits is. -/
theorem IsShortest.isPositional_iff (hd : IsShortest tie x d) :
    x.isPositional = true ↔ -6 < d.point ∧ d.point ≤ 21 := by
  have hsmall := hd.point_le_iff (-6) (by decide +kernel)
  have hlarge := hd.point_le_iff 21 (by decide +kernel)
  rw [isPositional, Bool.and_eq_true, decide_eq_true_eq, decide_eq_true_eq, ← hlarge,
    ← Nat.not_lt, ← hsmall, Int.not_le]

end Magnitude

/-- The exponent of a text with a single mark gets a plus sign if it has no minus sign. -/
theorem signExponent_append {s : List Char} (hs : 'e' ∉ s) (exponent : List Char) :
    signExponent (s ++ 'e' :: exponent) =
      s ++ 'e' :: (if exponent.head? = some '-' then exponent else '+' :: exponent) := by
  have hbefore : ∀ c ∈ s, decide (c ≠ 'e') = true := by
    intro c hc
    exact decide_eq_true (ne_of_mem_of_not_mem hc hs)
  have hdrop : (s ++ 'e' :: exponent).dropWhile (· ≠ 'e') = 'e' :: exponent := by
    rw [List.dropWhile_append_of_pos hbefore]
    rfl
  have htake : (s ++ 'e' :: exponent).takeWhile (· ≠ 'e') = s := by
    rw [List.takeWhile_append_of_pos hbefore]
    simp
  rw [signExponent, hdrop, htake]
  split
  next h => cases h
  next h =>
    cases h
    split
    · rfl
    · rfl

namespace Decimal

variable {d : Decimal}

theorem positional_eq_browserText (hdigits : d.digits ≠ []) (hlow : -6 < d.point)
    (hhigh : d.point ≤ 21) : d.positional = d.browserText := by
  have hlength := List.length_pos_iff.mpr hdigits
  unfold positional browserText
  by_cases hsmall : d.point ≤ 0
  · rw [if_pos hsmall, if_neg (by omega), if_neg (by omega), if_pos ⟨hlow, hsmall⟩]
  · rw [if_neg hsmall]
    by_cases hwhole : (d.digits.length : ℤ) ≤ d.point
    · rw [if_pos hwhole, if_pos ⟨hwhole, hhigh⟩]
    · rw [if_neg hwhole, if_neg (fun h => hwhole h.1), if_pos ⟨by omega, hhigh⟩]

/-- The digits in front of the exponent, with a point behind the first if there are others. -/
def mantissa (d : Decimal) : List Char :=
  if d.digits.length = 1 then d.digits else d.digits.take 1 ++ '.' :: d.digits.drop 1

theorem scientific_eq (hdigits : d.digits ≠ []) :
    d.scientific = d.mantissa ++ exponentText (d.point - 1) := by
  unfold scientific mantissa
  match d.digits, hdigits with
  | [first], _ => rfl
  | first :: second :: rest, _ => simp

theorem browserText_eq_mantissa (hdigits : d.digits ≠ [])
    (houtside : ¬ (-6 < d.point ∧ d.point ≤ 21)) :
    d.browserText = d.mantissa ++ signedExponent (d.point - 1) := by
  have hlength := List.length_pos_iff.mpr hdigits
  unfold browserText mantissa
  rw [if_neg (by omega), if_neg (by omega), if_neg (by omega)]
  split
  · rfl
  · rfl

theorem IsNormal.mark_notMem (hd : d.IsNormal) : 'e' ∉ d.mantissa := by
  have hmark : ∀ c ∈ d.digits, 'e' ≠ c := by
    rintro c hc rfl
    exact absurd (hd.isDigit _ hc) (by decide)
  unfold mantissa
  split
  · exact fun h => hmark _ h rfl
  · intro h
    rcases List.mem_append.mp h with h | h
    · exact hmark _ (List.mem_of_mem_take h) rfl
    · rcases List.mem_cons.mp h with h | h
      · exact absurd h (by decide)
      · exact hmark _ (List.mem_of_mem_drop h) rfl

/-- With a plus sign in front of exponents that have no sign, every exponent has one. -/
theorem signExponent_exponentText {s : List Char} (hs : 'e' ∉ s) (exponent : ℤ) :
    signExponent (s ++ exponentText exponent) = s ++ signedExponent exponent := by
  by_cases hneg : exponent < 0
  · have htext : exponentText exponent = 'e' :: '-' :: Nat.toDigits 10 exponent.natAbs := by
      rw [exponentText, if_pos hneg]
      rfl
    rw [htext, signExponent_append hs, signedExponent, if_pos hneg, List.head?_cons, if_pos rfl]
  · have htext : exponentText exponent = 'e' :: Nat.toDigits 10 exponent.natAbs := by
      rw [exponentText, if_neg hneg]
      rfl
    have hhead : (Nat.toDigits 10 exponent.natAbs).head? ≠ some '-' := by
      intro h
      exact absurd (isDigit_of_mem_toDigits _ (List.mem_of_mem_head? h)) (by decide)
    rw [htext, signExponent_append hs, signedExponent, if_neg hneg, if_neg hhead]

end Decimal

namespace Binary64

/-- A finite number other than zero is written with its sign, and its digits as a browser writes
them. -/
theorem text_of_isShortest (negative : Bool) {x : Magnitude} {d : Decimal} (hx : x.quanta ≠ 0)
    (hd : x.IsShortest .up d) :
    (finite negative x).text = (if negative then ['-'] else []) ++ d.browserText := by
  have htext : (finite negative x).text =
      if x.isPositional then (if negative then ['-'] else []) ++ (x.shortest .up).positional
      else signExponent ((if negative then ['-'] else []) ++ (x.shortest .up).scientific) :=
    if_neg hx
  rw [htext, (Magnitude.isShortest_shortest .up hx).unique hd]
  by_cases hpositional : x.isPositional = true
  · obtain ⟨hlow, hhigh⟩ := hd.isPositional_iff.mp hpositional
    rw [if_pos hpositional, Decimal.positional_eq_browserText hd.normal.ne_nil hlow hhigh]
  · have hmark : 'e' ∉ (if negative then ['-'] else []) ++ d.mantissa := by
      cases negative <;> simp [hd.normal.mark_notMem]
    rw [if_neg hpositional, Decimal.scientific_eq hd.normal.ne_nil, ← List.append_assoc,
      Decimal.signExponent_exponentText hmark, List.append_assoc,
      Decimal.browserText_eq_mantissa hd.normal.ne_nil (mt hd.isPositional_iff.mpr hpositional)]

/-- Whether the digits written for a number are those that a browser takes. Both are the shortest
and the closest, so they differ only if two decimals are as short and as close. -/
def HasBrowserDigits (n : Binary64) : Prop :=
  ∀ negative x, n = finite negative x → x.quanta ≠ 0 → x.IsShortest .even (x.shortest .up)

theorem hasBrowserDigits_finite_iff {negative : Bool} {x : Magnitude} (hx : x.quanta ≠ 0) :
    (finite negative x).HasBrowserDigits ↔ x.shortest .up = x.shortest .even := by
  have heven := Magnitude.isShortest_shortest .even hx
  constructor
  · intro h
    exact (h negative x rfl hx).unique heven
  · rintro h sign y hy -
    cases hy
    rwa [h]

instance : DecidablePred HasBrowserDigits := fun n => match n with
  | nan | infinite _ => isTrue fun _ _ h => nomatch h
  | finite _ x =>
    if hx : x.quanta = 0 then isTrue fun _ _ h hne => absurd (by cases h; exact hx) hne
    else decidable_of_iff _ (hasBrowserDigits_finite_iff hx).symm

/-- The digits are not those of a browser exactly if the even ones are as close and below. -/
theorem not_hasBrowserDigits_finite_iff {negative : Bool} {x : Magnitude} (hx : x.quanta ≠ 0) :
    ¬ (finite negative x).HasBrowserDigits ↔ ∃ d, x.IsShortest .even d ∧
      |d.value - x.value| = |(x.shortest .up).value - x.value| ∧
      d.value < (x.shortest .up).value := by
  have hup := Magnitude.isShortest_shortest .up hx
  have heven := Magnitude.isShortest_shortest .even hx
  rw [hasBrowserDigits_finite_iff hx]
  constructor
  · intro hne
    refine ⟨_, heven, heven.distance_eq hup, lt_of_le_of_ne ?_ fun heq => hne ?_⟩
    · exact hup.upper rfl _ heven.isReadFrom (heven.length_eq hup) (heven.distance_eq hup)
    · exact hup.normal.eq_of_value_eq heven.normal (hup.length_eq heven) heq.symm
  · rintro ⟨d, hd, -, hlt⟩ heq
    rw [hd.unique heven, heq] at hlt
    exact lt_irrefl _ hlt

/-- The text that a browser gives to a number. -/
def browserText : Binary64 → List Char
  | nan => "NaN".toList
  | infinite false => "Infinity".toList
  | infinite true => "-Infinity".toList
  | finite negative x =>
    if x.quanta = 0 then ['0']
    else (if negative then ['-'] else []) ++ (x.shortest .even).browserText

theorem browserText_finite (negative : Bool) {x : Magnitude} {d : Decimal} (hx : x.quanta ≠ 0)
    (hd : x.IsShortest .even d) : (finite negative x).browserText =
      (if negative then ['-'] else []) ++ d.browserText := by
  rw [hd.unique (Magnitude.isShortest_shortest .even hx)]
  exact if_neg hx

theorem isBrowserText_iff {n : Binary64} {t : List Char} :
    IsBrowserText n t ↔ n.browserText = t := by
  constructor
  · intro h
    cases h with
    | nan => rfl
    | infinity => rfl
    | negativeInfinity => rfl
    | zero negative hx => exact if_pos hx
    | positive hx hd => exact browserText_finite false hx hd
    | negative hx hd => exact browserText_finite true hx hd
  · rintro rfl
    cases n with
    | nan => exact .nan
    | infinite negative =>
      cases negative
      · exact .infinity
      · exact .negativeInfinity
    | finite negative x =>
      by_cases hx : x.quanta = 0
      · rw [show (finite negative x).browserText = ['0'] from if_pos hx]
        exact .zero negative hx
      · obtain ⟨d, hd⟩ : ∃ d, x.IsShortest .even d := ⟨_, Magnitude.isShortest_shortest .even hx⟩
        rw [browserText_finite negative hx hd]
        cases negative
        · exact .positive hx hd
        · exact .negative hx hd

theorem text_eq_browserText {n : Binary64} (h : n.HasBrowserDigits) : n.text = n.browserText := by
  cases n with
  | nan => rfl
  | infinite negative => cases negative <;> rfl
  | finite negative x =>
    by_cases hx : x.quanta = 0
    · rw [show (finite negative x).text = ['0'] from if_pos hx]
      exact (if_pos hx).symm
    · rw [text_of_isShortest negative hx (Magnitude.isShortest_shortest .up hx),
        browserText_finite negative hx (h negative x rfl hx)]

end Binary64

/-- A number has the text that a browser gives to it, and no other text is one, if its digits are
those of the browser. -/
theorem Value.text_number_eq_iff_isBrowserText {n : Binary64} (h : n.HasBrowserDigits)
    (t : String) : (Value.number n).text = t ↔ IsBrowserText n t.toList := by
  rw [Binary64.isBrowserText_iff, ← Binary64.text_eq_browserText h, Value.text]
  constructor
  · rintro rfl
    rw [String.toList_ofList]
  · intro htext
    rw [htext, String.ofList_toList]

/-- The digits of a power of ten that is written with an exponent. -/
theorem Value.text_number_eq_iff_isBrowserText_power :
    (Binary64.ofInt (-1000000000000000000000)).HasBrowserDigits ∧
      IsBrowserText (.ofInt (-1000000000000000000000)) "-1e+21".toList := by
  have hdigits : (Binary64.ofInt (-1000000000000000000000)).HasBrowserDigits := by decide +kernel
  refine ⟨hdigits, (text_number_eq_iff_isBrowserText hdigits "-1e+21").mp ?_⟩
  decide +kernel

end FormCheck
