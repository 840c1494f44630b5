import FormCheck.Text.Quoted

/-!
# Errors of loading

Loading a file fails for one of three causes. The error also says what was being done, from the
outermost step inwards, with the path as it was given.
-/
namespace FormCheck

/-- Why a text could not be used. -/
inductive Cause where
  /-- Not a JSON document, or one of the wrong shape. -/
  | json
  /-- Not a TOML document, or one of the wrong shape. -/
  | toml
  /-- No such file, a directory, or bytes that are no text. -/
  | unreadable
deriving DecidableEq

/-- What was being done. -/
inductive Step where
  | readingConfig (path : String)
  | parsingConfig (path : String)
  | readingSchema (path : String)
  | loadingSchema (path : String)
  | parsingTomlSchema
  | parsingJsonSchema
  | readingRecord (path : String)
  | loadingRecord (path : String)
  | parsingRecord
deriving DecidableEq

/-- What to say of a step that failed. -/
def Step.message : Step → String
  | readingConfig path => "Failed to read config file: " ++ Text.quoted path
  | parsingConfig path => "Failed to parse config file: " ++ Text.quoted path
  | readingSchema path => "Failed to read schema file: " ++ Text.quoted path
  | loadingSchema path => "Invalid schema file: " ++ Text.quoted path
  | parsingTomlSchema => "Failed to parse TOML schema"
  | parsingJsonSchema => "Failed to parse JSON schema"
  | readingRecord path => "Failed to read record file: " ++ Text.quoted path
  | loadingRecord path => "Invalid record file: " ++ Text.quoted path
  | parsingRecord => "Record must be a JSON object of scalar values"

/-- A cause, the outermost step, and the steps inside it. -/
structure LoadError where
  cause : Cause
  outer : Step
  inner : List Step
deriving DecidableEq

namespace LoadError

/-- An error of a single step. -/
def during (step : Step) (cause : Cause) : LoadError := ⟨cause, step, []⟩

/-- The same error seen from a step around it. -/
def within (step : Step) (e : LoadError) : LoadError := ⟨e.cause, step, e.outer :: e.inner⟩

/-- What to report in one line: the outermost step. -/
def report (e : LoadError) : String := e.outer.message

/-- All steps from the outermost inwards. -/
def message (e : LoadError) : String :=
  ": ".intercalate ((e.outer :: e.inner).map Step.message)

end LoadError
end FormCheck
