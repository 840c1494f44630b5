import FormCheck.Number.Text

/-!
# Submitted values

A form submits one scalar for a field. Every rule looks at the value's text only.
-/
namespace FormCheck

/-- A submitted scalar. `null` stands for nothing submitted. -/
inductive Value where
  | null
  | bool (b : Bool)
  | number (n : Binary64)
  | string (s : String)
deriving DecidableEq

namespace Value

/-- Whether nothing was submitted. -/
def isNull : Value → Bool
  | null => true
  | _ => false

@[simp] theorem isNull_eq_true_iff {v : Value} : v.isNull = true ↔ v = null := by
  cases v <;> simp [isNull]

/-- The text that the rules see. -/
def text : Value → String
  | null => ""
  | bool b => if b then "true" else "false"
  | number n => String.ofList n.text
  | string s => s

@[simp] theorem text_null : text null = "" := rfl

@[simp] theorem text_string (s : String) : text (string s) = s := rfl

/-- Equality of values; numbers are compared as numbers. -/
def equal : Value → Value → Bool
  | null, null => true
  | bool a, bool b => a == b
  | number a, number b => a.equal b
  | string a, string b => a == b
  | _, _ => false

end Value
end FormCheck
