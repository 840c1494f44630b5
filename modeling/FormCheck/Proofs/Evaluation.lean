import FormCheck.Rule.Evaluation
import Mathlib.Data.List.TakeWhile

/-!
# What rules see of a value

Every rule judges a value by its text alone, where nothing submitted counts as the empty text. The
three kinds of rule treat a missing value each in its own way, so this is shown for each kind. A
text has content if not all of it is padding, wherever the rest stands. The first failure of a set
of rules is described without a search: the rule rejects the value, and all rules before it accept
it.
-/
namespace FormCheck

/-- Nothing is left of a text if all of it may be trimmed, and only then. -/
theorem Text.trim_eq_nil_iff {p : Char → Bool} {s : List Char} :
    trim p s = [] ↔ ∀ c ∈ s, p c = true := by
  rw [trim, trimEnd, List.reverse_eq_nil_iff, List.dropWhile_eq_nil_iff]
  constructor
  · intro h c hc
    rw [← List.takeWhile_append_dropWhile (p := p) (l := s), List.mem_append] at hc
    rcases hc with hc | hc
    · exact List.all_eq_true.mp List.all_takeWhile c hc
    · exact h c (List.mem_reverse.mpr hc)
  · intro h c hc
    exact h c ((List.dropWhile_sublist p).subset (List.mem_reverse.mp hc))

theorem hasContent_eq_true_iff {s : String} :
    hasContent s = true ↔ ∃ c ∈ s.toList, Text.isPadding c = false := by
  rw [hasContent, Bool.not_eq_true', List.isEmpty_eq_false_iff, ne_eq, Text.trim_eq_nil_iff]
  simp

/-- The text of what was submitted; nothing has the empty text. -/
def submittedText (value : Option Value) : String := (value.map Value.text).getD ""

@[simp] theorem submittedText_none : submittedText none = "" := rfl

@[simp] theorem submittedText_some (v : Value) : submittedText (some v) = v.text := rfl

/-- A value that does not count as submitted has the empty text. -/
theorem submittedText_of_submitted_eq_none {value : Option Value} (h : submitted value = none) :
    submittedText value = "" := by
  cases value with
  | none => rfl
  | some v =>
    have hnull : v = .null := by simpa [submitted] using h
    rw [hnull]
    rfl

theorem submittedText_of_submitted_eq_some {value : Option Value} {v : Value}
    (h : submitted value = some v) : submittedText value = v.text := by
  have hvalue : value = some v := (Option.filter_eq_some_iff.mp h).1
  rw [hvalue, submittedText_some]

@[simp] theorem hasContent_empty : hasContent "" = false := rfl

namespace Rule

/-- Whether a rule accepts a text. -/
def acceptsText (pattern : EmailPattern) (text : String) : Rule → Bool
  | required => hasContent text
  | email => pattern.accepts text
  | min n => text.isEmpty || n.toNat ≤ Text.units text.toList

/-- A rule decides by the text of the value. -/
theorem accepts_eq_acceptsText (pattern : EmailPattern) (rule : Rule) (value : Option Value) :
    rule.accepts pattern value = rule.acceptsText pattern (submittedText value) := by
  cases h : submitted value with
  | none =>
    rw [submittedText_of_submitted_eq_none h]
    cases rule with
    | required => simp [accepts, acceptsText, h]
    | email => simp [accepts, acceptsText, h]
    | min n => simp [accepts, acceptsText, h]
  | some v =>
    rw [submittedText_of_submitted_eq_some h]
    cases rule with
    | required => simp [accepts, acceptsText, h]
    | email => simp [accepts, acceptsText, h]
    | min n => simp [accepts, acceptsText, h]

end Rule

/-- The first of the rules, in order, that rejects the value; none if all accept it. -/
def FirstRejecting (pattern : EmailPattern) (rules : List Rule) (value : Option Value) :
    Option Rule → Prop
  | none => ∀ rule ∈ rules, rule.accepts pattern value = true
  | some rule => ∃ before after, rules = before ++ rule :: after ∧
      rule.accepts pattern value = false ∧ ∀ r ∈ before, r.accepts pattern value = true

namespace RuleSet

theorem firstFailure_eq_iff (pattern : EmailPattern) (set : RuleSet) (value : Option Value)
    (failure : Option Rule) :
    set.firstFailure pattern value = failure ↔
      FirstRejecting pattern set.rules value failure := by
  cases failure with
  | none => simp [firstFailure, FirstRejecting]
  | some rule =>
    rw [firstFailure, List.find?_eq_some_iff_append, FirstRejecting]
    constructor
    · rintro ⟨hrule, before, after, hrules, hbefore⟩
      refine ⟨before, after, hrules, by simpa using hrule, ?_⟩
      intro r hr
      simpa using hbefore r hr
    · rintro ⟨before, after, hrules, hrule, hbefore⟩
      refine ⟨by simpa using hrule, before, after, hrules, ?_⟩
      intro r hr
      simpa using hbefore r hr

/-- There is no failure if every rule accepts the value. -/
theorem firstFailure_eq_none_iff {pattern : EmailPattern} {set : RuleSet} {value : Option Value} :
    set.firstFailure pattern value = none ↔
      ∀ rule ∈ set.rules, rule.accepts pattern value = true :=
  firstFailure_eq_iff pattern set value none

/-- Values with the same text have the same first failure. -/
theorem firstFailure_congr (pattern : EmailPattern) (set : RuleSet) {v w : Option Value}
    (h : submittedText v = submittedText w) :
    set.firstFailure pattern v = set.firstFailure pattern w := by
  simp only [firstFailure, Rule.accepts_eq_acceptsText, h]

end RuleSet
end FormCheck
