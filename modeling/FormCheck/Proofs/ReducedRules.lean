import FormCheck.Proofs.EmailAddresses
import FormCheck.Proofs.Evaluation

/-!
# Rules that decide

Whether a value passes a set of rules depends on few of them. Beside `email` the rule `required`
says nothing new, as an address has an `@` and so is not all padding. Of several minima the largest
decides, and a minimum below two is met by every text. What is left is the reduced set. The order
and the number of the rules have a say in which of them is reported, and in nothing else.
-/
namespace FormCheck

/-- An accepted text has an `@`. -/
theorem EmailPattern.at_mem_of_accepts {pattern : EmailPattern} {s : String}
    (h : pattern.accepts s = true) : '@' ∈ s.toList := by
  cases pattern with
  | simple =>
    obtain ⟨address, hs⟩ := accepts_simple_iff.mp h
    simp [hs, Email.SimpleAddress.text]
  | html =>
    obtain ⟨address, hs⟩ := accepts_html_iff.mp h
    simp [hs, Email.HtmlAddress.text]

namespace Rule

variable {pattern : EmailPattern} {value : Option Value}

/-- What `email` accepts has content, as no trimming takes the `@` away. -/
theorem accepts_required_of_email (h : email.accepts pattern value = true) :
    required.accepts pattern value = true := by
  rw [accepts_eq_acceptsText] at h ⊢
  exact hasContent_eq_true_iff.mpr ⟨'@', EmailPattern.at_mem_of_accepts h, by decide⟩

theorem accepts_min_iff {n : UInt64} :
    (min n).accepts pattern value = true ↔
      submittedText value = "" ∨ n.toNat ≤ Text.units (submittedText value).toList := by
  rw [accepts_eq_acceptsText, acceptsText, Bool.or_eq_true, String.isEmpty_iff, decide_eq_true_iff]

/-- A smaller minimum asks for less. -/
theorem accepts_min_of_le {m n : UInt64} (hle : n ≤ m)
    (h : (min m).accepts pattern value = true) : (min n).accepts pattern value = true := by
  rw [accepts_min_iff] at h ⊢
  rw [UInt64.le_iff_toNat_le] at hle
  rcases h with h | h
  · exact .inl h
  · exact .inr (by omega)

/-- A text that is not empty has one unit at least. -/
theorem accepts_min_of_lt_two {n : UInt64} (h : n < 2) :
    (min n).accepts pattern value = true := by
  rw [accepts_min_iff]
  have hn : n.toNat < 2 := by simpa [UInt64.lt_iff_toNat_lt] using h
  by_cases hempty : submittedText value = ""
  · exact .inl hempty
  · have hunits : Text.units (submittedText value).toList ≠ 0 := by
      simpa using hempty
    exact .inr (by omega)

end Rule

namespace RuleSet

/-- The largest minimum among rules, or zero. -/
def largestMinimum : List Rule → UInt64
  | [] => 0
  | .min n :: rest => if largestMinimum rest ≤ n then n else largestMinimum rest
  | _ :: rest => largestMinimum rest

/-- What rules ask of a text whatever its length. -/
def presenceRules (rules : List Rule) : List Rule :=
  if .email ∈ rules then [.email] else if .required ∈ rules then [.required] else []

/-- What rules ask of the length of a text. -/
def lengthRules (rules : List Rule) : List Rule :=
  if 2 ≤ largestMinimum rules then [.min (largestMinimum rules)] else []

/-- The rules of a set that decide. -/
def reduced (set : RuleSet) : RuleSet := ⟨presenceRules set.rules ++ lengthRules set.rules⟩

theorem le_largestMinimum {rules : List Rule} {n : UInt64} (h : .min n ∈ rules) :
    n ≤ largestMinimum rules := by
  induction rules with
  | nil => cases h
  | cons rule rest ih =>
    cases rule with
    | required => exact ih (by simpa using h)
    | email => exact ih (by simpa using h)
    | min m =>
      unfold largestMinimum
      rcases List.mem_cons.mp h with heq | hrest
      · injection heq with heq
        subst heq
        split
        · exact UInt64.le_refl n
        · exact UInt64.le_of_lt (UInt64.not_le.mp ‹_›)
      · have hle := ih hrest
        split
        · exact UInt64.le_trans hle ‹_›
        · exact hle

/-- Unless it is zero, the largest minimum is that of a rule. -/
theorem min_largestMinimum_mem {rules : List Rule} (h : 0 < largestMinimum rules) :
    .min (largestMinimum rules) ∈ rules := by
  induction rules with
  | nil => exact absurd h (by decide)
  | cons rule rest ih =>
    cases rule with
    | required => exact List.mem_cons_of_mem _ (ih h)
    | email => exact List.mem_cons_of_mem _ (ih h)
    | min m =>
      unfold largestMinimum at h ⊢
      split
      · exact List.mem_cons_self
      · rw [if_neg ‹_›] at h
        exact List.mem_cons_of_mem _ (ih h)

/-- What holds of all rules holds of each kind. -/
theorem forall_mem_rules_iff {rules : List Rule} {P : Rule → Prop} :
    (∀ rule ∈ rules, P rule) ↔
      ((.email ∈ rules → P .email) ∧ (.required ∈ rules → P .required)) ∧
      ∀ n, .min n ∈ rules → P (.min n) := by
  constructor
  · intro h
    exact ⟨⟨h .email, h .required⟩, fun n => h (.min n)⟩
  · rintro ⟨⟨hemail, hrequired⟩, hmin⟩ rule hrule
    cases rule with
    | required => exact hrequired hrule
    | email => exact hemail hrule
    | min n => exact hmin n hrule

variable {pattern : EmailPattern} {value : Option Value}

/-- Beside `email` there is no need of `required`. -/
theorem forall_mem_presenceRules_iff {rules : List Rule} :
    (∀ rule ∈ presenceRules rules, rule.accepts pattern value = true) ↔
      (.email ∈ rules → Rule.email.accepts pattern value = true) ∧
      (.required ∈ rules → Rule.required.accepts pattern value = true) := by
  unfold presenceRules
  by_cases hemail : .email ∈ rules
  · rw [if_pos hemail, List.forall_mem_singleton]
    constructor
    · intro h
      exact ⟨fun _ => h, fun _ => Rule.accepts_required_of_email h⟩
    · exact fun h => h.1 hemail
  · rw [if_neg hemail]
    by_cases hrequired : .required ∈ rules
    · simp [hemail, hrequired]
    · simp [hemail, hrequired]

/-- Of several minima the largest decides, and none that is below two. -/
theorem forall_mem_lengthRules_iff {rules : List Rule} :
    (∀ rule ∈ lengthRules rules, rule.accepts pattern value = true) ↔
      ∀ n, .min n ∈ rules → (Rule.min n).accepts pattern value = true := by
  unfold lengthRules
  by_cases htwo : 2 ≤ largestMinimum rules
  · rw [if_pos htwo, List.forall_mem_singleton]
    constructor
    · intro h n hn
      exact Rule.accepts_min_of_le (le_largestMinimum hn) h
    · intro h
      have hpos : 0 < largestMinimum rules := UInt64.lt_of_lt_of_le (by decide) htwo
      exact h _ (min_largestMinimum_mem hpos)
  · rw [if_neg htwo]
    constructor
    · intro _ n hn
      have hlt := UInt64.lt_of_le_of_lt (le_largestMinimum hn) (UInt64.not_le.mp htwo)
      exact Rule.accepts_min_of_lt_two hlt
    · simp

/-- A set and what is left of it pass the same values. -/
theorem firstFailure_reduced_eq_none_iff (set : RuleSet) :
    set.reduced.firstFailure pattern value = none ↔ set.firstFailure pattern value = none := by
  rw [firstFailure_eq_none_iff, firstFailure_eq_none_iff, reduced, List.forall_mem_append,
    forall_mem_presenceRules_iff, forall_mem_lengthRules_iff, forall_mem_rules_iff]

/-- Sets of the same rules, in whatever order and number, pass the same values. -/
theorem firstFailure_eq_none_congr {a b : RuleSet} (h : ∀ rule, rule ∈ a.rules ↔ rule ∈ b.rules) :
    a.firstFailure pattern value = none ↔ b.firstFailure pattern value = none := by
  simp only [firstFailure_eq_none_iff, h]

theorem mem_rules_parse_iff {raw : String} {rule : Rule} :
    rule ∈ (parse raw).value.rules ↔ ∃ token ∈ tokens raw, Rule.parse token = some rule :=
  List.mem_filterMap

/-- Rules behind one that fails are not looked at. -/
theorem firstFailure_append {set : RuleSet} {failure : Rule}
    (h : set.firstFailure pattern value = some failure) (more : List Rule) :
    (⟨set.rules ++ more⟩ : RuleSet).firstFailure pattern value = some failure := by
  unfold firstFailure at h ⊢
  rw [List.find?_append, h, Option.some_or]

/-- The message of the first failure of a rule string. -/
def messageOf (pattern : EmailPattern) (label raw : String) (value : Option Value) :
    Option String :=
  ((parse raw).value.firstFailure pattern value).map (Rule.message label)

/-- A set of rules passes the values that its reduced set passes: `email`, or else `required`, and
the largest minimum if that is two or more. Rule strings with the same tokens, in whatever order
and number, pass the same values, though they may report different rules. Once a value fails, what
is reported does not change with rules put behind the others. -/
theorem passes_iff_reduced_passes (pattern : EmailPattern) :
    (∀ value : Option Value,
      (∀ set : RuleSet, set.firstFailure pattern value = none ↔
        set.reduced.firstFailure pattern value = none) ∧
      (Rule.email.accepts pattern value = true → Rule.required.accepts pattern value = true) ∧
      (∀ m n, n ≤ m → (Rule.min m).accepts pattern value = true →
        (Rule.min n).accepts pattern value = true) ∧
      (∀ n, n < 2 → (Rule.min n).accepts pattern value = true) ∧
      (∀ raw raw', (∀ token, token ∈ tokens raw ↔ token ∈ tokens raw') →
        ((parse raw).value.firstFailure pattern value = none ↔
          (parse raw').value.firstFailure pattern value = none)) ∧
      ∀ (set : RuleSet) (more : List Rule) (failure : Rule),
        set.firstFailure pattern value = some failure →
        (⟨set.rules ++ more⟩ : RuleSet).firstFailure pattern value = some failure) ∧
    ∃ raw reordered repeated label value,
      (tokens reordered).Perm (tokens raw) ∧
      (tokens raw).Sublist (tokens repeated) ∧ tokens repeated ⊆ tokens raw ∧
      messageOf pattern label reordered value ≠ messageOf pattern label raw value ∧
      messageOf pattern label repeated value ≠ messageOf pattern label raw value := by
  refine ⟨fun value => ⟨?_, ?_, ?_, ?_, ?_, ?_⟩, ?_⟩
  · intro set
    exact set.firstFailure_reduced_eq_none_iff.symm
  · exact Rule.accepts_required_of_email
  · exact fun m n => Rule.accepts_min_of_le
  · exact fun n => Rule.accepts_min_of_lt_two
  · intro raw raw' htokens
    apply firstFailure_eq_none_congr
    intro rule
    simp only [mem_rules_parse_iff, htokens]
  · exact fun set more failure h => firstFailure_append h more
  · refine ⟨"required|min:2", "min:2|required", "min:2|required|min:2", "Name",
      some (.string " "), by decide, by decide, by decide, ?_⟩
    cases pattern with
    | simple => decide +kernel
    | html => decide +kernel

/-- A minimum in front, one that is implied, one that says nothing, and `required` beside
`email`. -/
theorem passes_iff_reduced_passes_fiveRules :
    let set : RuleSet := ⟨[.min 3, .required, .email, .min 4, .min 0]⟩
    let short : Option Value := some (.string "x@y")
    let long : Option Value := some (.string "x@yz")
    set.reduced = ⟨[.email, .min 4]⟩ ∧
    (set.firstFailure .html short = none ↔ set.reduced.firstFailure .html short = none) ∧
    (Rule.email.accepts .html short = true ∧ Rule.required.accepts .html short = true) ∧
    ((3 : UInt64) ≤ 4 ∧ (Rule.min 4).accepts .html long = true ∧
      (Rule.min 3).accepts .html long = true) ∧
    ((0 : UInt64) < 2 ∧ (Rule.min 0).accepts .html short = true) ∧
    ((parse "email|min:4").value.firstFailure .html long = none ↔
      (parse "min:4|email|min:4").value.firstFailure .html long = none) ∧
    (set.firstFailure .html short = some (.min 4) ∧
      (⟨set.rules ++ [.min 9]⟩ : RuleSet).firstFailure .html short = some (.min 4)) := by
  intro set short long
  obtain ⟨hshort, -⟩ := passes_iff_reduced_passes .html
  obtain ⟨hreduced, hrequired, -, hsmall, -, happend⟩ := hshort short
  obtain ⟨-, -, hle, -, htokens, -⟩ := hshort long
  have hemail : Rule.email.accepts .html short = true := by decide +kernel
  have hfour : (Rule.min 4).accepts .html long = true := by decide +kernel
  have hfailure : set.firstFailure .html short = some (.min 4) := by decide +kernel
  have hlt : (3 : UInt64) ≤ 4 := by decide
  have hsame : ∀ token, token ∈ tokens "email|min:4" ↔ token ∈ tokens "min:4|email|min:4" := by
    have hleft : tokens "email|min:4" = ["email", "min:4"] := by decide
    have hright : tokens "min:4|email|min:4" = ["min:4", "email", "min:4"] := by decide
    rw [hleft, hright]
    intro token
    simp only [List.mem_cons, List.not_mem_nil, or_false]
    grind
  exact ⟨by decide, hreduced set, ⟨hemail, hrequired hemail⟩, ⟨hlt, hfour, hle 4 3 hlt hfour⟩,
    ⟨by decide, hsmall 0 (by decide)⟩, htokens _ _ hsame,
    ⟨hfailure, happend set [.min 9] (.min 4) hfailure⟩⟩

end RuleSet
end FormCheck
