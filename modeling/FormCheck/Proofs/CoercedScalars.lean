import FormCheck.Proofs.NumberNotation
import FormCheck.Proofs.ReducedRules
import FormCheck.Proofs.Validation

/-!
# Numbers and truth values under the rules

The text of a number or a truth value is not empty and is made of ASCII letters, digits, points and
signs. None of these is padding or an `@`, and each is one unit long. So such a value passes
`required` and fails `email`, and among minima the first that is beyond its length is reported.
-/
namespace FormCheck

/-! ## The characters of their texts -/

/-- A character of the text of a number or a truth value. -/
def IsScalarChar (c : Char) : Prop :=
  Email.IsLetterOrDigit c ∨ c = '.' ∨ c = '+' ∨ c = '-'

instance : DecidablePred IsScalarChar := fun c =>
  inferInstanceAs (Decidable (Email.IsLetterOrDigit c ∨ c = '.' ∨ c = '+' ∨ c = '-'))

theorem isScalarChar_of_isDigit {c : Char} (h : c.isDigit = true) : IsScalarChar c := by
  have hdigit := Char.isDigit_iff_toNat.mp h
  exact .inl (.inr (.inr hdigit))

namespace IsScalarChar

variable {c : Char}

theorem toNat_lt (h : IsScalarChar c) : c.toNat < 128 := by
  rcases h with h | rfl | rfl | rfl
  · exact h.toNat_lt
  all_goals decide

theorem isPadding_eq_false (h : IsScalarChar c) : Text.isPadding c = false := by
  rcases h with h | rfl | rfl | rfl
  · have hmark : c ≠ '\uFEFF' := by
      rintro rfl
      exact absurd h.toNat_lt (by decide)
    simp [Text.isPadding, h.isBlank_eq_false, hmark]
  all_goals decide

theorem ne_at (h : IsScalarChar c) : c ≠ '@' := by
  rintro rfl
  exact absurd h (by decide)

theorem unitsOf_eq_one (h : IsScalarChar c) : Text.unitsOf c = 1 := by
  have hlt := h.toNat_lt
  exact if_pos (by omega)

end IsScalarChar

theorem units_eq_length {s : List Char} (h : ∀ c ∈ s, IsScalarChar c) :
    Text.units s = s.length := by
  induction s with
  | nil => rfl
  | cons c s ih =>
    rw [List.forall_mem_cons] at h
    rw [Text.units_cons, h.1.unitsOf_eq_one, ih h.2, List.length_cons, Nat.add_comm]

namespace Decimal

variable {d : Decimal}

theorem isScalarChar_of_mem_signedExponent (exponent : ℤ) :
    ∀ c ∈ signedExponent exponent, IsScalarChar c := by
  have hsign : IsScalarChar (if exponent < 0 then '-' else '+') := by
    split
    · decide
    · decide
  have hdigits : ∀ c ∈ Nat.toDigits 10 exponent.natAbs, IsScalarChar c :=
    fun c hc => isScalarChar_of_isDigit (isDigit_of_mem_toDigits c hc)
  exact List.forall_mem_cons.mpr ⟨by decide, List.forall_mem_cons.mpr ⟨hsign, hdigits⟩⟩

/-- Every notation consists of digits, zeros, a point and an exponent. -/
theorem IsNormal.isScalarChar_of_mem (hd : d.IsNormal) : ∀ c ∈ d.browserText, IsScalarChar c := by
  have hzero : IsScalarChar '0' := by decide
  have hpoint : IsScalarChar '.' := by decide
  have hzeros (n : ℕ) : ∀ c ∈ List.replicate n '0', IsScalarChar c :=
    fun c hc => isScalarChar_of_isDigit (isDigit_of_mem_zeros c hc)
  have hdigits : ∀ c ∈ d.digits, IsScalarChar c :=
    fun c hc => isScalarChar_of_isDigit (hd.isDigit c hc)
  have hinside (n : ℕ) : ∀ c ∈ d.digits.take n ++ '.' :: d.digits.drop n, IsScalarChar c :=
    List.forall_mem_append.mpr ⟨fun c hc => hdigits c (List.mem_of_mem_take hc),
      List.forall_mem_cons.mpr ⟨hpoint, fun c hc => hdigits c (List.mem_of_mem_drop hc)⟩⟩
  have hexponent := isScalarChar_of_mem_signedExponent (d.point - 1)
  unfold browserText
  split_ifs
  · exact List.forall_mem_append.mpr ⟨hdigits, hzeros _⟩
  · exact hinside _
  · exact List.forall_mem_append.mpr ⟨List.forall_mem_cons.mpr
      ⟨hzero, List.forall_mem_cons.mpr ⟨hpoint, hzeros _⟩⟩, hdigits⟩
  · exact List.forall_mem_append.mpr ⟨hdigits, hexponent⟩
  · exact List.forall_mem_append.mpr ⟨hinside 1, hexponent⟩

theorem IsNormal.browserText_ne_nil (hd : d.IsNormal) : d.browserText ≠ [] := by
  have hne := hd.ne_nil
  unfold browserText
  split_ifs
  all_goals simp [hne]

end Decimal

/-- A text that is not empty and holds nothing but letters, digits, points and signs. -/
def IsScalarText (s : List Char) : Prop := s ≠ [] ∧ ∀ c ∈ s, IsScalarChar c

-- The second part goes over the text, not over all characters.
instance : DecidablePred IsScalarText := fun s =>
  @instDecidableAnd (s ≠ []) _ _ (List.decidableBAll IsScalarChar s)

theorem Binary64.isScalarText_text (n : Binary64) : IsScalarText n.text := by
  cases n with
  | nan => decide
  | infinite negative =>
    cases negative
    · decide
    · decide
  | finite negative x =>
    by_cases hx : x.quanta = 0
    · rw [show (finite negative x).text = ['0'] from if_pos hx]
      decide
    · obtain ⟨d, hd⟩ : ∃ d, x.IsShortest .up d := ⟨_, Magnitude.isShortest_shortest .up hx⟩
      have hchars := hd.normal.isScalarChar_of_mem
      rw [text_of_isShortest negative hx hd]
      cases negative
      · exact ⟨hd.normal.browserText_ne_nil, hchars⟩
      · exact ⟨List.cons_ne_nil _ _, List.forall_mem_cons.mpr ⟨by decide, hchars⟩⟩

namespace Value

/-- A number or a truth value. -/
def IsCoerced : Value → Prop
  | number _ | bool _ => True
  | null | string _ => False

variable {v : Value}

theorem IsCoerced.isScalarText (hv : v.IsCoerced) : IsScalarText v.text.toList := by
  cases v with
  | null => cases hv
  | bool b =>
    cases b
    · decide
    · decide
  | number n =>
    rw [text, String.toList_ofList]
    exact n.isScalarText_text
  | string s => cases hv

end Value

/-! ## What the rules make of them -/

/-- The first of the rules, in order, that is a minimum beyond a length; none if there is none. -/
def FirstExceeding (length : ℕ) (rules : List Rule) : Option Rule → Prop
  | none => ∀ n, .min n ∈ rules → n.toNat ≤ length
  | some rule => ∃ n before after, rule = .min n ∧ rules = before ++ .min n :: after ∧
      length < n.toNat ∧ ∀ m, .min m ∈ before → m.toNat ≤ length

namespace Value.IsCoerced

variable {v : Value} (hv : v.IsCoerced) (pattern : EmailPattern)
include hv

theorem accepts_required : Rule.required.accepts pattern (some v) = true := by
  obtain ⟨hne, hchars⟩ := hv.isScalarText
  obtain ⟨c, hc⟩ := List.exists_mem_of_ne_nil _ hne
  rw [Rule.accepts_eq_acceptsText]
  exact hasContent_eq_true_iff.mpr ⟨c, hc, (hchars c hc).isPadding_eq_false⟩

theorem accepts_email : Rule.email.accepts pattern (some v) = false := by
  rw [Rule.accepts_eq_acceptsText, submittedText_some, Rule.acceptsText, ← Bool.not_eq_true]
  intro haccepts
  exact (hv.isScalarText.2 _ (EmailPattern.at_mem_of_accepts haccepts)).ne_at rfl

theorem accepts_min_iff (n : UInt64) :
    (Rule.min n).accepts pattern (some v) = true ↔ n.toNat ≤ v.text.length := by
  obtain ⟨hne, hchars⟩ := hv.isScalarText
  have hempty : v.text ≠ "" := by
    intro h
    exact hne (by rw [h]; rfl)
  rw [Rule.accepts_min_iff, submittedText_some, units_eq_length hchars, String.length_toList,
    or_iff_right hempty]

/-- Without `email` a rule is rejected if it is a minimum beyond the length. -/
theorem accepts_eq_true_iff {rule : Rule} (hrule : rule ≠ .email) :
    rule.accepts pattern (some v) = true ↔ ∀ n, rule = .min n → n.toNat ≤ v.text.length := by
  cases rule with
  | required => simp [hv.accepts_required]
  | email => exact absurd rfl hrule
  | min n => simp [hv.accepts_min_iff]

theorem firstRejecting_iff {rules : List Rule} (hrules : .email ∉ rules) (failure : Option Rule) :
    FirstRejecting pattern rules (some v) failure ↔
      FirstExceeding v.text.length rules failure := by
  have haccepts {rule : Rule} (hmem : rule ∈ rules) :=
    hv.accepts_eq_true_iff pattern (ne_of_mem_of_not_mem hmem hrules)
  have hall {l : List Rule} (hl : ∀ r ∈ l, r ∈ rules) :
      (∀ r ∈ l, r.accepts pattern (some v) = true) ↔ ∀ m, .min m ∈ l → m.toNat ≤ v.text.length := by
    constructor
    · intro h m hm
      exact (haccepts (hl _ hm)).mp (h _ hm) m rfl
    · rintro h r hr
      refine (haccepts (hl r hr)).mpr ?_
      rintro m rfl
      exact h m hr
  cases failure with
  | none => exact hall fun r hr => hr
  | some rule =>
    constructor
    · rintro ⟨before, after, rfl, hrejects, hbefore⟩
      have hmem : rule ∈ before ++ rule :: after := by simp
      rw [← Bool.not_eq_true, haccepts hmem] at hrejects
      push Not at hrejects
      obtain ⟨n, rfl, hlt⟩ := hrejects
      exact ⟨n, before, after, rfl, rfl, hlt,
        (hall fun r hr => List.mem_append_left _ hr).mp hbefore⟩
    · rintro ⟨n, before, after, rfl, rfl, hlt, hbefore⟩
      refine ⟨before, after, rfl, ?_, (hall fun r hr => List.mem_append_left _ hr).mpr hbefore⟩
      rw [← Bool.not_eq_true, hv.accepts_min_iff]
      omega

end Value.IsCoerced

/-- A number or a truth value passes `required` and fails `email`, by either check. So a set of
rules with `email` always has a failure for it, and a form reports one for the field. Without
`email` the failure is the first minimum that is beyond the length of its text. -/
theorem Value.coerced_scalar_under_rules {v : Value} (hv : v.IsCoerced) (pattern : EmailPattern) :
    Rule.required.accepts pattern (some v) = true ∧
    Rule.email.accepts pattern (some v) = false ∧
    (∀ set : RuleSet, .email ∈ set.rules →
      ∃ rule ∈ set.rules, set.firstFailure pattern (some v) = some rule) ∧
    (∀ fields field, IsLast fields field →
      .email ∈ (RuleSet.parse (field.rule.getD "")).value.rules →
      ∀ record : Record, record.get? field.name = some v →
        ∃ rule : Rule, ((Validator.compile fields pattern).value.validate record).value.get?
          field.name = some (rule.message field.label)) ∧
    ∀ set : RuleSet, .email ∉ set.rules → ∀ failure,
      set.firstFailure pattern (some v) = failure ↔
        FirstExceeding v.text.length set.rules failure := by
  have hemail := hv.accepts_email pattern
  have hfails (set : RuleSet) (hmem : .email ∈ set.rules) :
      ∃ rule ∈ set.rules, set.firstFailure pattern (some v) = some rule := by
    cases hfailure : set.firstFailure pattern (some v) with
    | none =>
      have haccepts := RuleSet.firstFailure_eq_none_iff.mp hfailure .email hmem
      rw [hemail] at haccepts
      cases haccepts
    | some rule => exact ⟨rule, List.mem_of_find?_eq_some hfailure, rfl⟩
  refine ⟨hv.accepts_required pattern, hemail, hfails, ?_, ?_⟩
  · intro fields field hlast hmem record hrecord
    obtain ⟨rule, -, hrule⟩ := hfails _ hmem
    have hfield : FormSchema.field? ⟨fields⟩ field.name = some field :=
      (FormSchema.field?_eq_some_iff _ _ _).mpr ⟨rfl, hlast⟩
    refine ⟨rule, ?_⟩
    rw [Validator.value_validate,
      Validator.get?_errors (Validator.nodup_names_compile fields pattern),
      Validator.validateField_compile, hfield, Option.bind_some, hrecord, hrule, Option.map_some]
  · intro set hset failure
    rw [RuleSet.firstFailure_eq_iff, hv.firstRejecting_iff pattern hset]

/-- A number whose text has nine characters, a minimum of ten, and a field that wants an address. -/
theorem Value.coerced_scalar_under_rules_infinite :
    let v : Value := .number (.infinite true)
    let field : FieldDescriptor := { name := "a", label := "A", rule := some "min:9|email" }
    let record : Record := .ofList [("a", v)]
    (v.IsCoerced ∧ Rule.required.accepts .html (some v) = true ∧
      Rule.email.accepts .html (some v) = false) ∧
    (.email ∈ (⟨[.min 9, .email]⟩ : RuleSet).rules ∧ ∃ rule ∈ [.min 9, .email],
      RuleSet.firstFailure .html ⟨[.min 9, .email]⟩ (some v) = some rule) ∧
    (IsLast [field] field ∧ .email ∈ (RuleSet.parse (field.rule.getD "")).value.rules ∧
      record.get? field.name = some v ∧
      ∃ rule : Rule, ((Validator.compile [field] .html).value.validate record).value.get?
        field.name = some (rule.message field.label)) ∧
    (.email ∉ (⟨[.min 9, .required, .min 10]⟩ : RuleSet).rules ∧
      (RuleSet.firstFailure .html ⟨[.min 9, .required, .min 10]⟩ (some v) = some (.min 10) ↔
        FirstExceeding v.text.length [.min 9, .required, .min 10] (some (.min 10)))) := by
  intro v field record
  have hv : v.IsCoerced := trivial
  obtain ⟨hrequired, hemail, hset, hform, hminima⟩ := coerced_scalar_under_rules hv .html
  have hmem : .email ∈ (⟨[.min 9, .email]⟩ : RuleSet).rules := by decide
  have hlast : IsLast [field] field := ⟨[], [], rfl, by simp⟩
  have hparsed : .email ∈ (RuleSet.parse (field.rule.getD "")).value.rules := by decide +kernel
  have hrecord : record.get? field.name = some v := by decide +kernel
  have hnone : .email ∉ (⟨[.min 9, .required, .min 10]⟩ : RuleSet).rules := by decide
  exact ⟨⟨hv, hrequired, hemail⟩, ⟨hmem, hset _ hmem⟩,
    ⟨hlast, hparsed, hrecord, hform [field] field hlast hparsed record hrecord⟩,
    hnone, hminima _ hnone _⟩

end FormCheck
