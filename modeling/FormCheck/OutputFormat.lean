import FormCheck.NameError

/-!
# Output formats

A report is written as lines of text or as JSON.
-/
namespace FormCheck

/-- How a report is written. -/
inductive OutputFormat where
  | text
  | json
deriving DecidableEq

namespace OutputFormat

/-- The name of a format. -/
def name : OutputFormat → String
  | text => "text"
  | json => "json"

/-- The format of a name. -/
def ofName? (s : String) : Except NameError OutputFormat :=
  if s = "text" then .ok text
  else if s = "json" then .ok json
  else .error (.outputFormat s)

@[simp] theorem ofName?_name (f : OutputFormat) : ofName? f.name = .ok f := by
  cases f <;> rfl

theorem ofName?_eq_ok_iff (s : String) (f : OutputFormat) : ofName? s = .ok f ↔ s = f.name := by
  constructor
  · intro h
    unfold ofName? at h
    split at h
    · rename_i hs
      cases h
      exact hs
    · split at h
      · rename_i hs
        cases h
        exact hs
      · cases h
  · rintro rfl
    exact ofName?_name f

end OutputFormat
end FormCheck
