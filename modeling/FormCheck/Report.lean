import FormCheck.Json.Printer
import FormCheck.OutputFormat
import FormCheck.Terminal
import FormCheck.Validator

/-!
# Reports

The text of a checked record has one line for each compiled field, a blank line and a summary. The
list of a schema shows each field with its rules and its choices. The verdict on a single value is
one line.
-/
namespace FormCheck.Report

def cross : Span := Style.red.span "✗"

def tick : Span := Style.green.span "✓"

/-- A field and the message of its error, if it failed. -/
structure Verdict where
  name : String
  error : Option String
deriving DecidableEq

/-- The line of a verdict. -/
def Verdict.line (verdict : Verdict) : Line :=
  match verdict.error with
  | some message =>
    [cross, .plain " ", Style.bold.span verdict.name, .plain ": ", Style.red.span message]
  | none => [tick, .plain " ", .plain verdict.name]

/-- The verdicts on the fields of a validator, in their order. -/
def verdicts (validator : Validator) (errors : ErrorMap) : List Verdict :=
  validator.fields.map fun field => ⟨field.name, errors.get? field.name⟩

/-- What all verdicts come to. -/
def summary (errors : ErrorMap) : Line :=
  if errors.isValid then [Style.boldGreen.span "Record is valid"]
  else [Style.boldRed.span (Nat.repr errors.size ++ " field(s) failed validation")]

/-- The report on a record in lines. -/
def recordLines (validator : Validator) (errors : ErrorMap) : List Line :=
  (verdicts validator errors).map Verdict.line ++ [[], summary errors]

/-- The report on a record in a format. -/
def ofRecord (format : OutputFormat) (color : Bool) (validator : Validator) (errors : ErrorMap) :
    String :=
  match format with
  | .text => Line.renderAll color (recordLines validator errors)
  | .json => errors.toJson.prettyText ++ "\n"

/-- The choices of a field, each with its label. -/
def optionList (options : List SelectOption) : String :=
  ", ".intercalate (options.map fun option => option.value ++ " (" ++ option.label ++ ")")

/-- The lines of a field with its rules. -/
def fieldLines (field : FieldDescriptor) (rules : RuleSet) : List Line :=
  [[Style.bold.span field.name, .plain " ", Style.cyan.span ("(" ++ field.kind.name ++ ")"),
      .plain " ", .plain field.label],
    [.plain "  rules:   ",
      if rules.rules.isEmpty then Style.dimmed.span "none" else .plain rules.text]] ++
  if field.options.isEmpty then []
  else [[.plain "  options: ", .plain (optionList field.options)]]

/-- The list of a schema's fields. -/
def schemaLines (schema : FormSchema) : Traced (List Line) := do
  if schema.fields.isEmpty then return [[Style.yellow.span "Schema has no fields"]]
  let blocks ← schema.fields.mapM fun field => do return fieldLines field (← field.rules)
  return blocks.flatten

/-- The verdict on one value under its label, by the first rule that rejects it. -/
def valueLine (label : String) (rules : RuleSet) (failure : Option Rule) : Line :=
  match failure with
  | some rule =>
    [cross, .plain " ", Style.red.span (rule.message label), .plain (" (" ++ rule.token ++ ")")]
  | none =>
    if rules.rules.isEmpty then [tick, .plain (" " ++ label ++ " has no recognized rules")]
    else [tick, .plain (" " ++ label ++ " passes " ++ rules.text)]

end FormCheck.Report
