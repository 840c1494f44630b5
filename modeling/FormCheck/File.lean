import FormCheck.Text.Split

/-!
# Files

Loading depends on what stands at a path. A `Folder` is a working directory given as a list of its
files: it says for every path what stands there.
-/
namespace FormCheck

/-- What stands at a path. -/
inductive FileState where
  | missing
  | directory
  /-- A file whose bytes are no text. -/
  | binary
  | text (content : String)
deriving DecidableEq

/-- Files and directories by the steps of their paths, below a working directory. A file's parents
are directories. -/
structure Folder where
  nodes : List (List (List Char) × FileState)

namespace Folder

/-- A folder from paths without steps upwards. -/
def ofList (files : List (String × FileState)) : Folder where
  nodes := files.map fun f =>
    ((Text.split '/' f.1.toList).filter fun step => step ≠ [] && step ≠ ['.'], f.2)

/-- What stands at the end of steps downwards. -/
def stateAt (folder : Folder) (steps : List (List Char)) : FileState :=
  match folder.nodes.find? fun node => node.1 = steps with
  | some node => node.2
  | none =>
    if steps.isEmpty || folder.nodes.any fun node => steps.isPrefixOf node.1 then .directory
    else .missing

/-- Steps from above the working directory, where nothing else is known to be. -/
def outside : List (List Char) → FileState
  | [] => .directory
  | step :: rest => if step = [] ∨ step = ['.'] ∨ step = ['.', '.'] then outside rest else .missing

/-- Follows steps from a directory below the working directory. Only a directory has anything
behind it, be it an empty step or a single dot. -/
def walk (folder : Folder) (here : List (List Char)) : List (List Char) → FileState
  | [] => .directory
  | step :: rest =>
    if step = [] ∨ step = ['.'] then walk folder here rest
    else if step = ['.', '.'] then
      if here.isEmpty then outside rest else walk folder here.dropLast rest
    else
      match folder.stateAt (here ++ [step]) with
      | .directory => walk folder (here ++ [step]) rest
      | state => if rest.isEmpty then state else .missing

/-- The number of bytes from which on a path is too long to lead anywhere. -/
def pathLimit : Nat := 4096

/-- What stands at a path. An absolute path leads outside. -/
def look (folder : Folder) (path : String) : FileState :=
  if pathLimit ≤ path.utf8ByteSize then .missing
  else
    match path.toList with
    | [] => .missing
    | '/' :: rest => outside (Text.split '/' rest)
    | s => walk folder [] (Text.split '/' s)

end Folder
end FormCheck
