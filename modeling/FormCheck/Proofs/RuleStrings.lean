import FormCheck.Proofs.Compilation
import FormCheck.Proofs.RuleTokens

/-!
# Reading back rule strings

The written form of a set of rules is read back as that set, and nothing in it is reported. For
this the digits of a number must be read as the number, over all 64 bits, and no token may hold the
bar between tokens. So writing out what was read from a rule string is a normal form of it, and a
form may be normalized before it is compiled.
-/
namespace FormCheck

namespace Rule

theorem count?_toDigits (n : UInt64) : count? (Nat.toDigits 10 n.toNat) = some n := by
  exact count?_eq_some_iff.mpr
    ⟨_, ⟨Nat.toDigits_ne_nil, isDigit_of_mem_toDigits, Nat.ofDigitChars_ten_toDigits⟩, .inl rfl⟩

theorem toList_token_min (n : UInt64) :
    (min n).token.toList = 'm' :: 'i' :: 'n' :: ':' :: Nat.toDigits 10 n.toNat := by
  rw [token, String.toList_append, Nat.toList_repr]
  rfl

/-- A rule is read back from its token. -/
theorem parse_token (rule : Rule) : parse rule.token = some rule := by
  cases rule with
  | required => decide
  | email => decide
  | min n => rw [parse, toList_token_min, ofChars?, count?_toDigits, Option.map_some]

/-- The characters that a token is written in: letters, digits and a colon. -/
def isTokenChar (c : Char) : Bool := c.isAlphanum || c = ':'

theorem all_isTokenChar_token (rule : Rule) : rule.token.toList.all isTokenChar = true := by
  cases rule with
  | required => decide
  | email => decide
  | min n =>
    rw [toList_token_min, List.all_cons, List.all_cons, List.all_cons, List.all_cons]
    have hdigits : (Nat.toDigits 10 n.toNat).all isTokenChar = true := by
      rw [List.all_eq_true]
      intro c hc
      rw [isTokenChar, Char.isAlphanum, isDigit_of_mem_toDigits c hc, Bool.or_true, Bool.true_or]
    rw [hdigits]
    decide

/-- What is no character of tokens, such as the bar between them, is in none of them. -/
theorem notMem_token {c : Char} (h : isTokenChar c = false) (rule : Rule) :
    c ∉ rule.token.toList := by
  intro hmem
  have htoken := List.all_eq_true.mp rule.all_isTokenChar_token c hmem
  rw [h] at htoken
  cases htoken

end Rule

namespace RuleSet

/-- The tokens of a written set are those of its rules. Without rules there is one empty token. -/
theorem tokens_text {set : RuleSet} (h : set.rules ≠ []) :
    tokens set.text = set.rules.map Rule.token := by
  have hne : (set.rules.map fun rule => rule.token.toList) ≠ [] := by simpa using h
  have hbar : ∀ piece ∈ set.rules.map fun rule => rule.token.toList, '|' ∉ piece := by
    intro piece hpiece
    obtain ⟨rule, -, rfl⟩ := List.mem_map.mp hpiece
    exact rule.notMem_token (by decide)
  rw [tokens, text, String.toList_ofList, Text.split_join hne hbar, List.map_map]
  simp [Function.comp_def]

/-- A set of rules is read back from its written form, and nothing is reported. -/
theorem parse_text (set : RuleSet) : parse set.text = ⟨set, []⟩ := by
  by_cases h : set.rules = []
  · cases set with
    | mk rules =>
      subst h
      decide
  · have hvalue : (tokens set.text).filterMap Rule.parse = set.rules := by
      rw [tokens_text h, List.filterMap_map]
      simp [Rule.parse_token]
    have hevents : (tokens set.text).filter isUnrecognized = [] := by
      rw [tokens_text h, List.filter_eq_nil_iff]
      intro token htoken
      obtain ⟨rule, -, rfl⟩ := List.mem_map.mp htoken
      simp [isUnrecognized, Rule.parse_token]
    rw [parse, hvalue, hevents, List.map_nil]

end RuleSet

/-- The field with its rule string in normal form. A missing rule string becomes an empty one or
stays missing. -/
def FieldDescriptor.normalizeRule (fill : Bool) (field : FieldDescriptor) : FieldDescriptor :=
  { field with
    rule := match field.rule with
      | some raw => some (RuleSet.parse raw).value.text
      | none => if fill then some "" else none }

/-- Normal form keeps the rules, and reading them reports nothing. -/
theorem FieldDescriptor.rules_normalizeRule (fill : Bool) (field : FieldDescriptor) :
    (field.normalizeRule fill).rules = ⟨field.rules.value, []⟩ := by
  rw [rules_eq_parse, rules_eq_parse field]
  cases h : field.rule with
  | some raw =>
    simp only [normalizeRule, h, Option.getD_some]
    exact RuleSet.parse_text _
  | none =>
    simp only [normalizeRule, h]
    cases fill with
    | false => decide
    | true => decide

/-- Fields in normal form compile to the same. -/
theorem compile_normalizeRule (fill : Bool) (fields : List FieldDescriptor) (email : EmailPattern) :
    (Validator.compile (fields.map (FieldDescriptor.normalizeRule fill)) email).value =
      (Validator.compile fields email).value := by
  have hrules (field : FieldDescriptor) :
      (field.normalizeRule fill).rules.value = field.rules.value := by
    rw [field.rules_normalizeRule fill]
  exact Validator.value_compile_map (FieldDescriptor.normalizeRule fill) (fun _ => rfl)
    (fun _ => rfl) hrules fields email

/-- Reading inverts writing on every set of rules, and nothing is reported on the way. So what was
read from a rule string has a normal form, and a form in normal form compiles to the same fields
and gives the same results, whatever becomes of missing rule strings. -/
theorem ruleString_round_trip :
    (∀ set : RuleSet, (RuleSet.parse set.text).value = set ∧ (RuleSet.parse set.text).events = []) ∧
    (∀ raw : String,
      let normal := (RuleSet.parse raw).value.text
      (RuleSet.parse normal).value.text = normal) ∧
    ∀ (fill : Bool) (fields : List FieldDescriptor) (email : EmailPattern),
      let compiled := (Validator.compile fields email).value
      let normalized :=
        (Validator.compile (fields.map (FieldDescriptor.normalizeRule fill)) email).value
      normalized.fields = compiled.fields ∧
      (∀ record, normalized.validate record = compiled.validate record) ∧
      ∀ name value, normalized.validateField name value = compiled.validateField name value := by
  refine ⟨?_, ?_, ?_⟩
  · intro set
    rw [RuleSet.parse_text]
    exact ⟨rfl, rfl⟩
  · intro raw normal
    rw [RuleSet.parse_text]
  · intro fill fields email compiled normalized
    have heq : normalized = compiled := compile_normalizeRule fill fields email
    rw [heq]
    exact ⟨rfl, fun _ => rfl, fun _ _ => rfl⟩

/-- A token that is no rule and leading zeros are lost in the normal form. -/
example : (RuleSet.parse "required|bogus|min:08").value.text = "required|min:8" := by decide

end FormCheck
