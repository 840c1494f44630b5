import FormCheck.Command.Options

/-!
# Pages of help

A page says what a command is for and how it is called, and then lists its commands, words and
options in two columns. Descriptions that do not fit beside a wide first column stand on lines of
their own.
-/
namespace FormCheck

/-- What help can be about. -/
inductive HelpTopic where
  /-- The program as a whole. -/
  | program
  | check
  | fields
  | rule
  | help
deriving DecidableEq

/-- A term and its description. -/
structure HelpEntry where
  term : String
  about : String
deriving DecidableEq

/-- Entries under a title. -/
structure HelpSection where
  title : String
  entries : List HelpEntry
deriving DecidableEq

/-- What is shown on a topic. -/
structure HelpPage where
  about : String
  usage : String
  sections : List HelpSection
deriving DecidableEq

/-- The placeholder for the value of an option. -/
def OptionSpec.placeholder (option : OptionSpec) : String :=
  String.ofList (option.name.toList.map fun c => if c = '-' then '_' else c.toUpper)

/-- The entry of an option, with its letter or in the place behind one. -/
def OptionSpec.entry (option : OptionSpec) : HelpEntry where
  term :=
    (match option.letter with
      | some letter => String.ofList ['-', letter, ',', ' ']
      | none => "    ") ++
    "--" ++ option.name ++ if option.accepts.isSome then " <" ++ option.placeholder ++ ">" else ""
  about := option.about ++
    match option.preset with
    | some text => " [default: " ++ text ++ "]"
    | none => ""

namespace HelpSection

/-- The columns of a line. -/
def lineWidth : Nat := 100

/-- The width of the first column. -/
def width (list : HelpSection) : Nat :=
  list.entries.foldl (fun width entry => max width entry.term.length) 2

/-- Whether descriptions stand on lines of their own: the first column takes two fifths of a line,
and one of them is longer than the rest. -/
def isWide (list : HelpSection) : Bool :=
  let taken := list.width + 12
  taken ≤ lineWidth && 2 * lineWidth < 5 * taken &&
    list.entries.any fun entry => lineWidth - taken < entry.about.length

def spaces (n : Nat) : String := String.ofList (List.replicate n ' ')

/-- The lines of a list. -/
def text (list : HelpSection) : String :=
  list.title ++ ":\n" ++ String.join (list.entries.map fun entry =>
    let gap :=
      if list.isWide then "\n" ++ spaces 10 else spaces (list.width - entry.term.length + 2)
    "  " ++ entry.term ++ gap ++ entry.about ++ "\n")

end HelpSection

/-- The lines of a page. -/
def HelpPage.text (page : HelpPage) : String :=
  page.about ++ "\n\nUsage: " ++ page.usage ++ "\n" ++
    String.join (page.sections.map fun list => "\n" ++ list.text)

end FormCheck
