/-!
# Options and words

The arguments of a command are options and plain words. A long option starts with two dashes and
takes its value behind an equals sign or from the next argument. Letters behind one dash are short
options; the first of them that takes a value takes what is left, without an equals sign in front,
or else the next argument. Behind two dashes alone every argument is a plain word.

A value that is an argument of its own counts together with the argument behind it. Right before a
command's name it therefore counts last, after all that the command makes of its arguments.
-/
namespace FormCheck

/-- An option that a command knows. -/
structure OptionSpec where
  /-- The name behind two dashes. -/
  name : String
  /-- The letter behind one dash. -/
  letter : Option Char := none
  /-- Which values the option accepts, if it takes one. -/
  accepts : Option (String → Bool) := none
  /-- The value in force where none is given, as help shows it. -/
  preset : Option String := none
  /-- What help says about the option. -/
  about : String

/-- What arguments say, one by one. -/
inductive Item where
  /-- An option with its value. -/
  | value (name : String) (text : String)
  /-- An option that takes no value. -/
  | flag (name : String)
  | word (text : String)
  /-- The name of a command and the arguments for it. -/
  | command (name : String) (arguments : List String)
  /-- Something that cannot be understood, and what follows it neither. -/
  | unreadable
deriving DecidableEq

namespace OptionSpec

/-- The option with a value, unless it does not accept it. -/
def item (option : OptionSpec) (text : String) : Item :=
  if option.accepts.any (· text) then .value option.name text else .unreadable

end OptionSpec

namespace Item

/-- Whether an argument is options. A dash alone is a plain word. -/
def isOptions (argument : String) : Bool :=
  match argument.toList with
  | '-' :: _ :: _ => true
  | _ => false

/-- What one argument says, and the option that waits for its value. -/
abbrev Reading := List Item × Option OptionSpec

/-- The option behind two dashes. -/
def readLong (options : List OptionSpec) (s : List Char) : Reading :=
  let name := String.ofList (s.takeWhile (· ≠ '='))
  match options.find? fun option => option.name = name, s.dropWhile (· ≠ '=') with
  | none, _ => ([unreadable], none)
  | some option, [] => if option.accepts.isSome then ([], some option) else ([flag name], none)
  | some option, _ :: text => ([option.item (String.ofList text)], none)

/-- The options behind one dash. -/
def readShort (options : List OptionSpec) : List Char → Reading
  | [] => ([], none)
  | letter :: rest =>
    match options.find? fun option => option.letter = some letter with
    | none => ([unreadable], none)
    | some option =>
      if option.accepts.isSome then
        match rest with
        | [] => ([], some option)
        | '=' :: text => ([option.item (String.ofList text)], none)
        | text => ([option.item (String.ofList text)], none)
      else
        let (items, waiting) := readShort options rest
        (flag option.name :: items, waiting)

/-- The options of one argument. -/
def readOptions (options : List OptionSpec) (argument : String) : Reading :=
  match argument.toList with
  | '-' :: '-' :: rest => readLong options rest
  | s => readShort options (s.drop 1)

/-- Reads arguments from left to right. Before a command, the first plain word is its name. The
items held are those of a value that still waits for the argument behind it. -/
def readAll (options : List OptionSpec) (commands : Bool) :
    Option OptionSpec → List Item → List String → List Item
  | none, held, [] => held
  | some _, _, [] => [unreadable]
  | some option, _, argument :: rest =>
    if isOptions argument then [unreadable]
    else readAll options commands none [option.item argument] rest
  | none, held, argument :: rest =>
    if argument = "--" then held ++ if commands then [unreadable] else rest.map word
    else if isOptions argument then
      let (items, waiting) := readOptions options argument
      held ++ items ++ readAll options commands waiting [] rest
    else if commands then command argument rest :: held
    else held ++ word argument :: readAll options commands none [] rest

end Item
end FormCheck
