import FormCheck.Command.Help
import FormCheck.Config

/-!
# Commands

An invocation is a command with its arguments, behind options that hold for every command. Those
options may also stand behind the command's name, where they count before those in front. Each
option is given at most once on either side. Arguments are read from left to right, and the first
one that asks for something else, cannot be understood or is a word too many ends the reading.
-/
namespace FormCheck

/-- Where a schema comes from. -/
inductive SchemaSource where
  /-- The path in the settings. -/
  | configured
  | file (path : String)
  /-- The form to sign up with. -/
  | signUp
deriving DecidableEq

/-- What to do. -/
inductive Command where
  /-- Checks a record against a schema. -/
  | check (source : SchemaSource) (record : String) (format : Option OutputFormat)
      (pattern : Option EmailPattern)
  /-- Lists the fields of a schema. -/
  | fields (source : SchemaSource)
  /-- Checks one value, or none, against a rule string. -/
  | rule (rules : String) (label : String) (value : Option String) (pattern : Option EmailPattern)
deriving DecidableEq

/-- A command with the options that hold for every command. -/
structure Invocation where
  command : Command
  configPath : String := Config.defaultPath
  verbose : Bool := false
deriving DecidableEq

/-- What is shown instead of carrying out a command. -/
inductive Notice where
  | version
  | help (topic : HelpTopic)
  /-- The arguments are no invocation. -/
  | misuse
deriving DecidableEq

/-- What may be given on one side of a command's name. -/
structure ArgumentSpec where
  /-- What help is about if it is asked for here. -/
  topic : HelpTopic
  options : List OptionSpec
  /-- Which texts the plain words may be, place by place. -/
  words : List (String → Bool) := []

/-- What was given on one side of a command's name. -/
structure Given where
  values : List (String × String) := []
  flags : List String := []
  words : List String := []
deriving DecidableEq

namespace Given

/-- The value of an option. -/
def value? (given : Given) (name : String) : Option String :=
  (given.values.find? fun v => v.1 = name).map Prod.snd

/-- Whether an option without a value was given. -/
def has (given : Given) (name : String) : Bool := given.flags.any (· = name)

/-- Adds an item, unless it asks for something else, repeats an option or is a word without a place.
No command stands among the arguments of a command. -/
def add (spec : ArgumentSpec) (given : Given) : Item → Except Notice Given
  | .value name text =>
    if (given.value? name).isSome then .error .misuse
    else .ok { given with values := given.values ++ [(name, text)] }
  | .flag name =>
    if name = "help" then .error (.help spec.topic)
    else if name = "version" then .error .version
    else if given.has name then .error .misuse
    else .ok { given with flags := given.flags ++ [name] }
  | .word text =>
    if spec.words[given.words.length]?.any (· text) then
      .ok { given with words := given.words ++ [text] }
    else .error .misuse
  | .command _ _ | .unreadable => .error .misuse

/-- Reads the arguments of a command. -/
def read (spec : ArgumentSpec) (arguments : List String) : Except Notice Given :=
  (Item.readAll spec.options false none [] arguments).foldlM (add spec) {}

/-- Where the schema comes from, unless two places were given. -/
def source (given : Given) : Except Notice SchemaSource :=
  match given.value? "schema", given.has "example" with
  | some _, true => .error .misuse
  | some path, false => .ok (.file path)
  | none, true => .ok .signUp
  | none, false => .ok .configured

/-- The one word given. -/
def word (given : Given) : Except Notice String :=
  match given.words with
  | [text] => .ok text
  | _ => .error .misuse

/-- The format given. -/
def format? (given : Given) : Option OutputFormat :=
  (given.value? "format").bind fun name => (OutputFormat.ofName? name).toOption

/-- The email check given. -/
def pattern? (given : Given) : Option EmailPattern :=
  (given.value? "email-pattern").bind fun name => (EmailPattern.ofName? name).toOption

end Given

namespace Invocation

/-- A path cannot be empty. -/
def isPath (text : String) : Bool := text ≠ ""

/-- The label of a value when none is given. -/
def defaultLabel : String := "Value"

section Options

def configOption : OptionSpec where
  name := "config"
  letter := some 'c'
  accepts := some isPath
  preset := some Config.defaultPath
  about := "Configuration file"

def verboseOption : OptionSpec where
  name := "verbose"
  letter := some 'v'
  about := "Log compilation and validation details"

def helpOption : OptionSpec where
  name := "help"
  letter := some 'h'
  about := "Print help"

def versionOption : OptionSpec where
  name := "version"
  letter := some 'V'
  about := "Print version"

def schemaOption : OptionSpec where
  name := "schema"
  letter := some 's'
  accepts := some isPath
  about := "Schema file (TOML, or JSON by extension); defaults to [schema] path in the config"

def exampleOption : OptionSpec where
  name := "example"
  about := "Use the built-in sign-up form"

def formatOption : OptionSpec where
  name := "format"
  letter := some 'f'
  accepts := some fun name => (OutputFormat.ofName? name).isOk
  about := "Output format: text or json"

def patternOption : OptionSpec where
  name := "email-pattern"
  accepts := some fun name => (EmailPattern.ofName? name).isOk
  about := "Email check: html or simple"

def labelOption : OptionSpec where
  name := "label"
  letter := some 'l'
  accepts := some fun _ => true
  preset := some defaultLabel
  about := "Label used in the error message"

def valueOption : OptionSpec where
  name := "value"
  accepts := some fun _ => true
  about := "Value to check (absent when omitted)"

/-- The options that hold for every command. -/
def common : List OptionSpec := [configOption, verboseOption, helpOption]

end Options

/-- What stands in front of a command's name. -/
def front : ArgumentSpec where
  topic := .program
  options := common ++ [versionOption]

def checkArguments : ArgumentSpec where
  topic := .check
  options := common ++ [schemaOption, exampleOption, formatOption, patternOption]
  words := [isPath]

def fieldsArguments : ArgumentSpec where
  topic := .fields
  options := common ++ [schemaOption, exampleOption]

def ruleArguments : ArgumentSpec where
  topic := .rule
  options := common ++ [labelOption, valueOption, patternOption]
  words := [fun _ => true]

/-- What help can be asked for by name. -/
def topics : List (String × HelpTopic) :=
  [("check", .check), ("fields", .fields), ("rule", .rule), ("help", .help)]

/-- Help is about the whole program or about one topic. -/
def helpOn : List String → Notice
  | [] => .help .program
  | [name] => ((topics.lookup name).map Notice.help).getD .misuse
  | _ => .misuse

/-- The command of a name, and what was given behind the name. -/
def readCommand (name : String) (arguments : List String) : Except Notice (Command × Given) := do
  if name = "check" then
    let given ← Given.read checkArguments arguments
    return (.check (← given.source) (← given.word) given.format? given.pattern?, given)
  else if name = "fields" then
    let given ← Given.read fieldsArguments arguments
    return (.fields (← given.source), given)
  else if name = "rule" then
    let given ← Given.read ruleArguments arguments
    let label := (given.value? "label").getD defaultLabel
    return (.rule (← given.word) label (given.value? "value") given.pattern?, given)
  else throw (if name = "help" then helpOn arguments else .misuse)

/-- What is known of an invocation on the way: what stands in front of the command's name, then the
command and what was given behind its name. -/
abbrev Progress := Given × Option (Command × Given)

/-- Adds an item. A command is read as a whole. -/
def add (progress : Progress) : Item → Except Notice Progress
  | .command name arguments => return (progress.1, some (← readCommand name arguments))
  | item => return (← progress.1.add front item, progress.2)

/-- The invocation that a program's arguments are. -/
def ofArguments (arguments : List String) : Except Notice Invocation := do
  let items := Item.readAll front.options true none [] arguments
  let (before, found) ← items.foldlM add ({}, none)
  match found with
  | none => throw .misuse
  | some (command, given) =>
    let path := (given.value? "config" <|> before.value? "config").getD Config.defaultPath
    return { command, configPath := path, verbose := before.has "verbose" || given.has "verbose" }

end Invocation

namespace HelpTopic

open Invocation

/-- What a topic is. -/
def about : HelpTopic → String
  | program => "formgen CLI - validate form submissions against field schemas"
  | check => "Validate a JSON record against a schema"
  | fields => "List the fields of a schema with their parsed rules"
  | rule => "Evaluate a rule string against a single value"
  | help => "Print this message or the help of the given subcommand(s)"

/-- The commands of a topic. -/
def commands : HelpTopic → List HelpEntry
  | program => topics.map fun entry => ⟨entry.1, entry.2.about⟩
  | _ => []

/-- The words that go with a topic. -/
def words : HelpTopic → List HelpEntry
  | check => [⟨"<RECORD>", "JSON file with the submitted values"⟩]
  | rule => [⟨"<RULES>", "Pipe-delimited rules, e.g. \"required|min:6\""⟩]
  | help => [⟨"[COMMAND]...", "Print help for the subcommand(s)"⟩]
  | program | fields => []

/-- The options of a topic, by their places in the declarations of the program and of the command.
Of two in the same place the one with the smaller letter is first. -/
def options : HelpTopic → List OptionSpec
  | program => [configOption, verboseOption, helpOption, versionOption]
  | check => [configOption, schemaOption, exampleOption, verboseOption, formatOption, patternOption,
      helpOption]
  | fields => [configOption, schemaOption, exampleOption, verboseOption, helpOption]
  | rule => [configOption, labelOption, verboseOption, valueOption, patternOption, helpOption]
  | help => []

def usage : HelpTopic → String
  | program => "formgen [OPTIONS] <COMMAND>"
  | check => "formgen check [OPTIONS] <RECORD>"
  | fields => "formgen fields [OPTIONS]"
  | rule => "formgen rule [OPTIONS] <RULES>"
  | help => "formgen help [COMMAND]..."

/-- The page on a topic. Lists without entries are left out. -/
def page (topic : HelpTopic) : HelpPage where
  about := topic.about
  usage := topic.usage
  sections :=
    [⟨"Commands", topic.commands⟩, ⟨"Arguments", topic.words⟩,
      ⟨"Options", topic.options.map OptionSpec.entry⟩].filter fun list => list.entries ≠ []

end HelpTopic
end FormCheck
