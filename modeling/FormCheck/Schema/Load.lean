import FormCheck.File
import FormCheck.Path
import FormCheck.Schema.Decode
import FormCheck.Toml.Format
import FormCheck.Toml.Parser

/-!
# Schema files

A schema file is JSON if its path has that extension and TOML otherwise. The content decides
nothing.
-/
namespace FormCheck.FormSchema

/-- The schema that a TOML text stands for. -/
def parseToml (content : String) : Except LoadError FormSchema :=
  match (Toml.parse? content).bind (decode Toml.format) with
  | some schema => .ok schema
  | none => .error (.during .parsingTomlSchema .toml)

/-- The schema that a text stands for at a path. -/
def parseAt (path : String) (content : String) : Except LoadError FormSchema :=
  if Path.isJson path then parseJson content else parseToml content

/-- The schema of a file. -/
def ofFile (path : String) : FileState → Except LoadError FormSchema
  | .text content => (parseAt path content).mapError (.within (.loadingSchema path))
  | _ => .error (.during (.readingSchema path) .unreadable)

end FormCheck.FormSchema
