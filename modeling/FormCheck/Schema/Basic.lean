import FormCheck.Rule.Set

/-!
# Form schemas

A schema lists the fields of a form. Each has a name, a label for messages, a kind that says how it
is shown, an optional rule string and the choices of a select field.
-/
namespace FormCheck

/-- How a field is shown. -/
inductive FieldKind where
  | text
  | password
  | email
  | number
  | textarea
  | select
  | checkbox
  /-- Any kind that is not on the list. -/
  | other
deriving DecidableEq

namespace FieldKind

def name : FieldKind → String
  | text => "text"
  | password => "password"
  | email => "email"
  | number => "number"
  | textarea => "textarea"
  | select => "select"
  | checkbox => "checkbox"
  | other => "other"

/-- The kinds with a name of their own. -/
def listed : List FieldKind := [text, password, email, number, textarea, select, checkbox]

/-- The kind of a name. -/
def ofName (s : String) : FieldKind := (listed.find? fun kind => kind.name = s).getD other

@[simp] theorem ofName_name (kind : FieldKind) : ofName kind.name = kind := by
  cases kind <;> decide

end FieldKind

/-- One choice of a select field. -/
structure SelectOption where
  value : String
  label : String
deriving DecidableEq

/-- One field of a form. -/
structure FieldDescriptor where
  name : String
  label : String
  kind : FieldKind := .text
  rule : Option String := none
  options : List SelectOption := []
deriving DecidableEq

/-- The rules of a field; without a rule string there are none. -/
def FieldDescriptor.rules (field : FieldDescriptor) : Traced RuleSet :=
  match field.rule with
  | some raw => RuleSet.parse raw
  | none => pure .empty

theorem FieldDescriptor.rules_eq_parse (field : FieldDescriptor) :
    field.rules = RuleSet.parse (field.rule.getD "") := by
  cases h : field.rule with
  | none =>
    rw [rules, h]
    decide
  | some raw => rw [rules, h, Option.getD_some]

/-- The fields of a form in order. Names are meant to differ; where they do not, the last field
counts. -/
structure FormSchema where
  fields : List FieldDescriptor
deriving DecidableEq

namespace FormSchema

def empty : FormSchema := ⟨[]⟩

/-- The last field of a name. -/
def field? (schema : FormSchema) (name : String) : Option FieldDescriptor :=
  schema.fields.reverse.find? fun field => field.name = name

/-- A form to sign up with. -/
def signUp : FormSchema where
  fields := [
    { name := "email", label := "Email Address", rule := some "required|email" },
    { name := "password", label := "Password", kind := .password, rule := some "required|min:6" },
    { name := "role", label := "Role", kind := .select, rule := some "required",
      options := [⟨"admin", "Admin"⟩, ⟨"user", "User"⟩] }]

end FormSchema
end FormCheck
