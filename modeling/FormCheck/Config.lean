import FormCheck.Document
import FormCheck.Email.Pattern
import FormCheck.File
import FormCheck.Json.Printer
import FormCheck.LoadError
import FormCheck.OutputFormat
import FormCheck.Toml.Format
import FormCheck.Toml.Parser

/-!
# Settings

Settings come from a TOML file of three sections. A setting that the file does not give has its
default, and so has every setting if there is no file or nothing in it.
-/
namespace FormCheck

/-- The settings. -/
structure Config where
  /-- The schema file to use when none is named. -/
  schemaPath : String := "form.toml"
  /-- The check of the `email` rule. -/
  emailPattern : EmailPattern := .html
  /-- How a report is written. -/
  format : OutputFormat := .text
  /-- Whether reports may be coloured. -/
  color : Bool := true
deriving DecidableEq

namespace Config

/-- Where the settings are looked for when no file is named. -/
def defaultPath : String := "formgen.toml"

variable {α : Type}

/-- A name on a list of names. -/
def decodeName {β : Type} (format : Format α) (ofName? : String → Except NameError β) (node : α) :
    Option β :=
  (format.choice? node).bind fun name => (ofName? name).toOption

/-- The settings of a document, over those given. -/
def decode (format : Format α) (base : Config) (node : α) : Option Config := do
  let sections ← format.fields? 3 node
  let config ← sections.withDefault base (fun node => do
    let fields ← format.fields? 1 node
    return { base with
      schemaPath := ← fields.withDefault base.schemaPath format.text? ["path"] 0 }) ["schema"] 0
  let config ← sections.withDefault config (fun node => do
    let fields ← format.fields? 1 node
    return { config with
      emailPattern := ← fields.withDefault config.emailPattern
        (decodeName format EmailPattern.ofName?) ["email_pattern"] 0 }) ["validation"] 1
  sections.withDefault config (fun node => do
    let fields ← format.fields? 2 node
    return { config with
      format := ← fields.withDefault config.format
        (decodeName format OutputFormat.ofName?) ["format"] 0
      color := ← fields.withDefault config.color format.bool? ["color"] 1 }) ["output"] 2

/-- The settings that a TOML text stands for. -/
def parse? (content : String) : Option Config :=
  (Toml.parse? content).bind (decode Toml.format {})

/-- The settings of a file. -/
def ofFile (path : String) : FileState → Except LoadError Config
  | .missing => .ok {}
  | .text content =>
    if content.toList.all Text.isBlank then .ok {}
    else match parse? content with
      | some config => .ok config
      | none => .error (.during (.parsingConfig path) .toml)
  | _ => .error (.during (.readingConfig path) .unreadable)

/-- All settings as a document. -/
def toJson (config : Config) : Json :=
  .record [
    ("schema", .record [("path", .text config.schemaPath)]),
    ("validation", .record [("email_pattern", .text config.emailPattern.name)]),
    ("output", .record [("format", .text config.format.name), ("color", .bool config.color)])]

end Config
end FormCheck
