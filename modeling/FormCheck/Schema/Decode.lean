import FormCheck.Document
import FormCheck.Json.Format
import FormCheck.Json.Parser
import FormCheck.Json.Printer
import FormCheck.LoadError
import FormCheck.Schema.Basic

/-!
# Schemas in documents

The decoders read a schema from a document of any format. The encoders write it as JSON, without a
rule string that is absent and without an empty list of choices.
-/
namespace FormCheck

variable {α : Type}

namespace SelectOption

def decode (format : Format α) (node : α) : Option SelectOption := do
  let fields ← format.fields? 2 node
  return {
    value := ← fields.required format.text? ["value"] 0
    label := ← fields.required format.text? ["label"] 1 }

def toJson (option : SelectOption) : Json :=
  .record [("value", .text option.value), ("label", .text option.label)]

end SelectOption

/-- A kind is decoded from its name; an unknown name is a kind of its own. -/
def FieldKind.decode (format : Format α) (node : α) : Option FieldKind :=
  (format.choice? node).map ofName

namespace FieldDescriptor

/-- The rule string has two names. -/
def decode (format : Format α) (node : α) : Option FieldDescriptor := do
  let fields ← format.fields? 5 node
  return {
    name := ← fields.required format.text? ["name"] 0
    label := ← fields.required format.text? ["label"] 1
    kind := ← fields.withDefault .text (FieldKind.decode format) ["type"] 2
    rule := ← fields.withDefault none format.nullableText? ["validation", "rule"] 3
    options := ← fields.withDefault [] (format.list? (SelectOption.decode format)) ["options"] 4 }

def toJson (field : FieldDescriptor) : Json :=
  .record (
    [("name", .text field.name), ("label", .text field.label), ("type", .text field.kind.name)] ++
    (match field.rule with
      | some raw => [("validation", .text raw)]
      | none => []) ++
    if field.options.isEmpty then []
    else [("options", .array (field.options.map SelectOption.toJson))])

end FieldDescriptor

namespace FormSchema

def decode (format : Format α) (node : α) : Option FormSchema := do
  let fields ← format.fields? 1 node
  return {
    fields := ←
      fields.withDefault [] (format.list? (FieldDescriptor.decode format)) ["fields"] 0 }

def toJson (schema : FormSchema) : Json :=
  .record [("fields", .array (schema.fields.map FieldDescriptor.toJson))]

/-- The schema that a JSON text stands for. -/
def parseJson (content : String) : Except LoadError FormSchema :=
  match (Json.parse? content).bind (decode Json.format) with
  | some schema => .ok schema
  | none => .error (.during .parsingJsonSchema .json)

end FormSchema
end FormCheck
