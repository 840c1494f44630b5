import FormCheck.Command.Basic
import FormCheck.Report
import FormCheck.Schema.Load

/-!
# Running commands

A command reads the settings, then its schema, then its record, and stops with a report at the first
of them that cannot be loaded. Nothing is printed before all are loaded. What stands at a path is
asked of a function `look`, so that a run can be observed on given files as well as on a disk.
-/
namespace FormCheck

/-- Whether what was checked passed, and the text that says so. -/
structure Finding where
  passed : Bool
  output : String
deriving DecidableEq

/-- What a run leaves behind. -/
structure Outcome where
  exit : Nat
  output : String := ""
  /-- Why nothing was checked. -/
  report : Option String := none
  events : List Event := []
deriving DecidableEq

namespace Outcome

/-- A finding ends in 0 or 1. -/
def ofFinding (finding : Traced Finding) : Outcome where
  exit := if finding.value.passed then 0 else 1
  output := finding.value.output
  events := finding.events

/-- An error of loading ends in 1 without any output. -/
def ofError (error : LoadError) : Outcome where
  exit := 1
  report := some error.report

end Outcome

namespace Command

/-- The names in a record that no field has. -/
def unmatched (validator : Validator) (record : Record) : List String :=
  (record.entries.map Prod.fst).filter fun name => (validator.field? name).isNone

/-- Checks a record. -/
def checkRecord (schema : FormSchema) (record : Record) (pattern : EmailPattern)
    (format : OutputFormat) (color : Bool) : Traced Finding := do
  let validator ← Validator.compile schema.fields pattern
  Traced.emitAll ((unmatched validator record).map .unmatchedValue)
  let errors ← validator.validate record
  return ⟨errors.isValid, Report.ofRecord format color validator errors⟩

/-- Lists the fields of a schema. -/
def listFields (schema : FormSchema) (color : Bool) : Traced Finding := do
  return ⟨true, Line.renderAll color (← Report.schemaLines schema)⟩

/-- Checks one value against a rule string. -/
def checkValue (rules label : String) (value : Option String) (pattern : EmailPattern)
    (color : Bool) : Traced Finding := do
  let set ← RuleSet.parse rules
  let failure := set.firstFailure pattern (value.map Value.string)
  return ⟨failure.isNone, Line.renderAll color [Report.valueLine label set failure]⟩

variable {m : Type → Type} [Monad m] {α : Type}

/-- Loads what stands at a path. -/
def load (look : String → m FileState) (read : String → FileState → Except LoadError α)
    (path : String) : ExceptT LoadError m α :=
  ExceptT.mk (read path <$> look path)

/-- Loads a schema from its source. -/
def loadSchema (look : String → m FileState) (config : Config) :
    SchemaSource → ExceptT LoadError m FormSchema
  | .configured => load look FormSchema.ofFile config.schemaPath
  | .file path => load look FormSchema.ofFile path
  | .signUp => pure .signUp

/-- Carries a command out under given settings. -/
def perform (look : String → m FileState) (color : Bool) (config : Config) :
    Command → ExceptT LoadError m (Traced Finding)
  | .check source record format pattern => do
    let schema ← loadSchema look config source
    let record ← load look Record.ofFile record
    return checkRecord schema record (pattern.getD config.emailPattern)
      (format.getD config.format) color
  | .fields source => do
    let schema ← loadSchema look config source
    return listFields schema color
  | .rule rules label value pattern =>
    return checkValue rules label value (pattern.getD config.emailPattern) color

end Command

variable {m : Type → Type} [Monad m]

/-- Loads the settings and carries the command out. Colours need both the terminal's consent and
that of the settings. -/
def Invocation.run (look : String → m FileState) (color : Bool) (invocation : Invocation) :
    m Outcome := do
  let finding ← ExceptT.run do
    let config ← Command.load look Config.ofFile invocation.configPath
    Command.perform look (color && config.color) config invocation.command
  match finding with
  | .ok finding => return .ofFinding finding
  | .error error => return .ofError error

namespace Notice

/-- The name and the version of the program. -/
def versionText : String := "formgen 0.1.0\n"

/-- A notice that was asked for ends in 0, misuse ends in 2 without any output. -/
def outcome : Notice → Outcome
  | version => { exit := 0, output := versionText }
  | help topic => { exit := 0, output := topic.page.text }
  | misuse => { exit := 2 }

end Notice

/-- Runs a program's arguments. -/
def run (look : String → m FileState) (color : Bool) (arguments : List String) : m Outcome :=
  match Invocation.ofArguments arguments with
  | .ok invocation => invocation.run look color
  | .error notice => pure notice.outcome

end FormCheck
