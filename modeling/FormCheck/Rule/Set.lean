import FormCheck.Event
import FormCheck.Rule.Basic
import FormCheck.Text.Split

/-!
# Rule strings

The rules of a field are written as one string with a bar between tokens. A token that is no rule is
left out; unless it is empty, an event reports it.
-/
namespace FormCheck

/-- The rules of one field in order of declaration. -/
structure RuleSet where
  rules : List Rule
deriving DecidableEq

namespace RuleSet

def empty : RuleSet := ⟨[]⟩

/-- The tokens of a rule string. -/
def tokens (raw : String) : List String := (Text.split '|' raw.toList).map String.ofList

/-- Whether a token is to be reported. -/
def isUnrecognized (token : String) : Bool := token ≠ "" && (Rule.parse token).isNone

/-- The rules of a rule string. -/
def parse (raw : String) : Traced RuleSet where
  value := ⟨(tokens raw).filterMap Rule.parse⟩
  events := ((tokens raw).filter isUnrecognized).map .unrecognizedRule

/-- The rule string of a set. -/
def text (set : RuleSet) : String :=
  String.ofList (Text.join '|' (set.rules.map fun rule => rule.token.toList))

end RuleSet
end FormCheck
