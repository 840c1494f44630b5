import FormCheck.Email.Html
import FormCheck.Email.Simple
import FormCheck.NameError

/-!
# Email patterns

The `email` rule applies one of two structural checks. Neither decides whether an address exists.
-/
namespace FormCheck

/-- Which check the `email` rule applies. -/
inductive EmailPattern where
  | simple
  | html
deriving DecidableEq

namespace EmailPattern

/-- Whether a text passes the check. -/
def accepts : EmailPattern → String → Bool
  | simple, s => Email.isSimple s.toList
  | html, s => Email.isHtml s.toList

/-- The name of a pattern. -/
def name : EmailPattern → String
  | simple => "simple"
  | html => "html"

/-- The pattern of a name. -/
def ofName? (s : String) : Except NameError EmailPattern :=
  if s = "simple" then .ok simple
  else if s = "html" then .ok html
  else .error (.emailPattern s)

@[simp] theorem ofName?_name (p : EmailPattern) : ofName? p.name = .ok p := by
  cases p <;> rfl

theorem ofName?_eq_ok_iff (s : String) (p : EmailPattern) : ofName? s = .ok p ↔ s = p.name := by
  constructor
  · intro h
    unfold ofName? at h
    split at h
    · rename_i hs
      cases h
      exact hs
    · split at h
      · rename_i hs
        cases h
        exact hs
      · cases h
  · rintro rfl
    exact ofName?_name p

end EmailPattern

/-- The simple check, for callers that choose no pattern. -/
def isValidEmail (s : String) : Bool := EmailPattern.simple.accepts s

end FormCheck
