import FormCheck.ErrorMap
import FormCheck.Record
import FormCheck.Rule.Evaluation
import FormCheck.Schema.Basic

/-!
# Validators

Compiling a schema parses each rule string once and leaves one field for each name. A field whose
name occurred before takes the place of the earlier one. A validator checks records, field by field,
against the first rule that fails.
-/
namespace FormCheck

/-- A field with its rules. -/
structure CompiledField where
  name : String
  label : String
  rules : RuleSet
deriving DecidableEq

namespace CompiledField

/-- Parses the rules of a field. -/
def ofDescriptor (field : FieldDescriptor) : Traced CompiledField := do
  return ⟨field.name, field.label, ← field.rules⟩

@[simp] theorem value_ofDescriptor (field : FieldDescriptor) :
    (ofDescriptor field).value = ⟨field.name, field.label, field.rules.value⟩ := rfl

/-- The message of the first rule that rejects the value. -/
def check (pattern : EmailPattern) (field : CompiledField) (value : Option Value) :
    Option String :=
  (field.rules.firstFailure pattern value).map (Rule.message field.label)

end CompiledField

/-- Compiled fields and the email check. -/
structure Validator where
  fields : List CompiledField
  email : EmailPattern
deriving DecidableEq

namespace Validator

/-- Without fields every record is valid. -/
def empty : Validator := ⟨[], .simple⟩

/-- Puts a field in the place of the first one of its name, or at the end. -/
def replace (field : CompiledField) : List CompiledField → List CompiledField
  | [] => [field]
  | f :: rest => if f.name = field.name then field :: rest else f :: replace field rest

/-- Adds a compiled field; a name that occurred before is reported. -/
def add (compiled : List CompiledField) (field : FieldDescriptor) :
    Traced (List CompiledField) := do
  let entry ← CompiledField.ofDescriptor field
  if compiled.any fun f => f.name = entry.name then
    Traced.emit (.duplicateField entry.name)
  return replace entry compiled

@[simp] theorem value_add (compiled : List CompiledField) (field : FieldDescriptor) :
    (add compiled field).value = replace (CompiledField.ofDescriptor field).value compiled := by
  simp only [add, Traced.value_bind]
  split <;> rfl

/-- Compiles the fields of a form. -/
def compile (fields : List FieldDescriptor) (email : EmailPattern) : Traced Validator := do
  let compiled ← fields.foldlM add []
  Traced.emit (.compiled compiled.length email)
  return ⟨compiled, email⟩

/-- The field of a name. -/
def field? (validator : Validator) (name : String) : Option CompiledField :=
  validator.fields.find? fun field => field.name = name

/-- The errors of a record. What the record does not name is not submitted. -/
def errors (validator : Validator) (record : Record) : ErrorMap :=
  .ofList (validator.fields.filterMap fun field =>
    (field.check validator.email (record.get? field.name)).map fun message =>
      (field.name, message))

/-- Checks a record against every field. -/
def validate (validator : Validator) (record : Record) : Traced ErrorMap := do
  let errors := validator.errors record
  Traced.emit (.validated validator.fields.length errors.size)
  return errors

@[simp] theorem value_validate (validator : Validator) (record : Record) :
    (validator.validate record).value = validator.errors record := rfl

/-- Checks one value. A name without a field has no rules. -/
def validateField (validator : Validator) (name : String) (value : Option Value) :
    Option String :=
  (validator.field? name).bind fun field => field.check validator.email value

end Validator
end FormCheck
