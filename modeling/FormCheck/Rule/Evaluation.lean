import FormCheck.Rule.Set
import FormCheck.Text.Trim
import FormCheck.Text.Units
import FormCheck.Value

/-!
# Evaluating rules

A rule accepts or rejects what was submitted for a field. Nothing submitted, `null` and the empty
text mean the same to every rule.
-/
namespace FormCheck

/-- What was submitted, unless that is nothing or `null`. -/
def submitted (value : Option Value) : Option Value := value.filter fun v => !v.isNull

/-- Whether a text holds more than padding. -/
def hasContent (s : String) : Bool := !(Text.trim Text.isPadding s.toList).isEmpty

namespace Rule

/-- Whether a rule accepts what was submitted. The email check fails on nothing, a minimum does
not. -/
def accepts (pattern : EmailPattern) (rule : Rule) (value : Option Value) : Bool :=
  match rule, submitted value with
  | required, none => false
  | required, some v => hasContent v.text
  | email, none => pattern.accepts ""
  | email, some v => pattern.accepts v.text
  | min _, none => true
  | min n, some v => v.text.isEmpty || n.toNat ≤ Text.units v.text.toList

end Rule

namespace RuleSet

/-- The first rule that rejects the value. -/
def firstFailure (pattern : EmailPattern) (set : RuleSet) (value : Option Value) : Option Rule :=
  set.rules.find? fun rule => !rule.accepts pattern value

end RuleSet

/-- The message of the first rule of a rule string that rejects the value, by the simple email
check. -/
def checkField (label : String) (raw : String) (value : Option Value) : Traced (Option String) := do
  let set ← RuleSet.parse raw
  return (set.firstFailure .simple value).map (Rule.message label)

@[simp] theorem value_checkField (label raw : String) (value : Option Value) :
    (checkField label raw value).value =
      ((RuleSet.parse raw).value.firstFailure .simple value).map (Rule.message label) := rfl

end FormCheck
