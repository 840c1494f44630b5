import FormCheck.Proofs.FieldMaps
import FormCheck.Proofs.JsonLayouts
import FormCheck.Proofs.NumeralDigits
import FormCheck.Proofs.ScaledNumbers
import FormCheck.Record
import Mathlib.Algebra.Order.Field.Power

/-!
# Values written as documents

A value that is written as a member of an object is read back from the text. The kind of a value is
told by how its document begins, so null, truth values and texts come back as they are. A number is
written with its shortest digits, which are at most seventeen, and what is read from them is the
number itself or close to it: an integer of seventeen digits is rounded before it is scaled. What is
not finite is written as null.
-/
namespace FormCheck

namespace Numeral

variable {x : Magnitude} {digits : ℕ} {exponent : ℤ}

theorem negative_ofMagnitude (negative : Bool) (x : Magnitude) :
    (ofMagnitude negative x).negative = negative := by
  unfold ofMagnitude ofDecimal
  split_ifs <;> rfl

/-- What is rounded to a number other than zero is not zero and not far below the format. -/
theorem ne_zero_and_le_of_isNearestTo (hx : x.quanta ≠ 0)
    (hnearest : x.IsNearestTo (digits * 10 ^ exponent)) (hle : digits ≤ 10 ^ 17) :
    digits ≠ 0 ∧ -616 ≤ exponent := by
  have hnonneg : (0 : ℚ) ≤ digits * 10 ^ exponent := by positivity
  have hsmall {v : ℚ} (hv : 0 ≤ v) (hle : v * quantaPerUnit ≤ 1 / 2) : ¬ x.IsNearestTo v := by
    intro h
    rw [(Magnitude.isNearestTo_iff_of_small hv hle).mp h] at hx
    exact hx rfl
  constructor
  · rintro rfl
    refine hsmall hnonneg ?_ hnearest
    rw [Nat.cast_zero, zero_mul, zero_mul]
    exact one_half_pos.le
  · by_contra hlow
    have hlt : digits < 10 ^ 18 := hle.trans_lt (by decide)
    exact hsmall hnonneg (Magnitude.mul_quantaPerUnit_le (scaled_lt_pow hlt exponent)
      (by push_cast; omega)) hnearest

/-- A number is read back from its numeral with its sign and an error of at most one part in
`2 ^ 49` and one quantum. If its digits make an integer of 53 bits and their power of ten is a
number of the format, it is read back as it is. -/
theorem value?_ofMagnitude (negative : Bool) (x : Magnitude) :
    ∃ y, (ofMagnitude negative x).value? = some (.finite negative y) ∧
      2 ^ 49 * |(y.quanta - x.quanta : ℤ)| ≤ x.quanta + 2 ^ 49 ∧
      ((ofMagnitude negative x).integer ≤ 2 ^ 53 →
        (ofMagnitude negative x).tenPower.natAbs ≤ 22 → y = x) := by
  by_cases hx : x.quanta = 0
  · have hzero : x = .zero := Magnitude.ext hx
    subst hzero
    refine ⟨.zero, ?_, by simp [Magnitude.zero], fun _ _ => rfl⟩
    cases negative <;> decide +kernel
  · obtain ⟨hdigits, hvalue⟩ := ofMagnitude_of_ne_zero negative hx
    have hnearest := (Magnitude.isShortest_shortest .even hx).nearest
    have hhigh := Magnitude.value_shortest_le hx
    rw [← hvalue] at hnearest hhigh
    have hsign : (ofMagnitude negative x).negative = negative := negative_ofMagnitude negative x
    generalize ofMagnitude negative x = n at *
    obtain ⟨hne, hlow⟩ := ne_zero_and_le_of_isNearestTo hx hnearest hdigits
    obtain ⟨y, hy, w, hw, hwithin, hynearest⟩ := exists_scaled? hne hdigits hlow hhigh
    have hleading := leading_of_lt (hdigits.trans_lt (by decide))
    refine ⟨y, ?_, ?_, fun hbits hpower => ?_⟩
    · rw [value?_eq_scaled?, hleading, hy, hsign]
      rfl
    · have hunit := Magnitude.quantaPerUnit_cast_pos.le
      have hnonneg : (0 : ℚ) ≤ n.integer * 10 ^ n.tenPower := by positivity
      have herror := RoundsTo.abs_sub_le_of_within hnearest hynearest
        (hwithin.mul (Within.refl _) hw hnonneg hunit hunit) (mul_nonneg hnonneg hunit)
        (mul_nonneg hw hunit) (Nat.pos_of_ne_zero hx)
      exact_mod_cast herror
    · rw [scaled?_eq_some_of_isNearestTo hne hbits hpower hnearest] at hy
      exact (Option.some.inj hy).symm

end Numeral

/-- The text of an object with one member. -/
def memberText (name : String) (v : Value) : String :=
  (Json.record [(name, v.toJson)]).compactText

namespace Value

theorem wellFormed_toJson (v : Value) : v.toJson.WellFormed := by
  cases v with
  | null => exact .null
  | bool b => exact .bool b
  | string s => exact Json.wellFormed_text s
  | number n =>
    cases n with
    | nan => exact .null
    | infinite negative => exact .null
    | finite negative x => exact .number (Numeral.wellFormed_ofMagnitude negative x)

end Value

theorem Record.parse_memberText {v w : Value} (name : String)
    (h : Value.ofJson? v.toJson = some w) :
    Record.parse (memberText name v) = .ok (.ofList [(name, w)]) := by
  have hread : Json.parse? (memberText name v) = some (Json.record [(name, v.toJson)]) := by
    refine Json.parse?_compactText (Json.wellFormed_record fun m hm => ?_)
    rw [List.mem_singleton.mp hm]
    exact v.wellFormed_toJson
  have hentries : ([(some name, v.toJson)] : List (JsonText × Json)).mapM entryOfMember? =
      some [(name, w)] := by
    simp [entryOfMember?, h]
  rw [parse, hread, Option.bind_some, Json.record, List.map_singleton, ofJson?, hentries]
  rfl

/-- A value written as the only member of an object is read back from the text. Null, truth values
and texts come back as they are, and what is not finite comes back as null. A finite number comes
back with its sign, and with an error of at most one part in `2 ^ 49` and one quantum; if its digits
make an integer of 53 bits and their power of ten is a number of the format, it comes back as it is.
-/
theorem value_survives_text (name : String) :
    (∀ v : Value, (∀ n, v ≠ .number n) →
      Record.parse (memberText name v) = .ok (.ofList [(name, v)])) ∧
    (∀ n : Binary64, (∀ negative x, n ≠ .finite negative x) →
      Record.parse (memberText name (.number n)) = .ok (.ofList [(name, .null)])) ∧
    ∀ (negative : Bool) (x : Magnitude), ∃ y : Magnitude,
      Record.parse (memberText name (.number (.finite negative x))) =
        .ok (.ofList [(name, .number (.finite negative y))]) ∧
      2 ^ 49 * |(y.quanta - x.quanta : ℤ)| ≤ x.quanta + 2 ^ 49 ∧
      ((Numeral.ofMagnitude negative x).integer ≤ 2 ^ 53 →
        (Numeral.ofMagnitude negative x).tenPower.natAbs ≤ 22 → y = x) := by
  refine ⟨fun v hv => ?_, fun n hn => ?_, fun negative x => ?_⟩
  · refine Record.parse_memberText name ?_
    cases v with
    | null => rfl
    | bool b => rfl
    | string s => rfl
    | number n => exact absurd rfl (hv n)
  · refine Record.parse_memberText name ?_
    cases n with
    | nan => rfl
    | infinite negative => rfl
    | finite negative x => exact absurd rfl (hn negative x)
  · obtain ⟨y, hread, hclose, hexact⟩ := Numeral.value?_ofMagnitude negative x
    refine ⟨y, Record.parse_memberText name ?_, hclose, hexact⟩
    rw [Value.toJson, Json.ofNumber, Value.ofJson?, hread, Option.map_some]

/-- The magnitude of one and a half. -/
def oneAndHalf : Magnitude := ⟨3 * powTwo 1073, ⟨3, 1073, by decide, rfl⟩, by decide +kernel⟩

/-- A text, an infinity and a number with few digits. -/
theorem value_survives_text_oneAndHalf :
    Record.parse (memberText "n" (.string "1")) = .ok (.ofList [("n", .string "1")]) ∧
      Record.parse (memberText "n" (.number (.infinite true))) = .ok (.ofList [("n", .null)]) ∧
      Record.parse (memberText "n" (.number (.finite true oneAndHalf))) =
        .ok (.ofList [("n", .number (.finite true oneAndHalf))]) := by
  obtain ⟨hscalar, hspecial, hnumber⟩ := value_survives_text "n"
  refine ⟨hscalar _ (fun n h => nomatch h), hspecial _ (fun negative x h => nomatch h), ?_⟩
  obtain ⟨y, hread, -, hexact⟩ := hnumber true oneAndHalf
  rwa [hexact (by decide +kernel) (by decide +kernel)] at hread

/-- With the zero behind its point, a whole number of sixteen digits has seventeen. It is rounded
and divided by ten, and can come back as its neighbour. -/
theorem whole_number_comes_back_smaller :
    memberText "n" (.number (.ofInt 7205759403792799)) = "\x7b\"n\":7205759403792799.0\x7d" ∧
      Record.parse (memberText "n" (.number (.ofInt 7205759403792799))) =
        .ok (.ofList [("n", .number (.ofInt 7205759403792798))]) ∧
      (Binary64.ofInt 7205759403792799).equal (.ofInt 7205759403792798) = false := by
  refine ⟨by decide +kernel, Record.parse_memberText "n" ?_, by decide +kernel⟩
  decide +kernel

end FormCheck
