import FormCheck.Command.Run

/-!
# The program

Reads files, the environment and the terminal for `run`, prints what it leaves behind and ends with
its exit status. Errors and events go to the error output; of the events only warnings do,
unless more is asked for.
-/
namespace FormCheck

/-- What stands at a path on disk. -/
def lookOnDisk (path : String) : IO FileState := do
  match ← (IO.FS.Handle.mk path .read).toBaseIO with
  | .error (.noFileOrDirectory ..) => return .missing
  | .error (.inappropriateType ..) => return .missing
  | .error _ => return .binary
  | .ok handle =>
    match ← handle.readBinToEnd.toBaseIO with
    | .error _ => return .directory
    | .ok bytes =>
      match String.fromUTF8? bytes with
      | some content => return .text content
      | none => return .binary

/-- Whether the environment and the terminal want colours. -/
def colorWanted : IO Bool := do
  let force ← IO.getEnv "CLICOLOR_FORCE"
  let refuse ← IO.getEnv "NO_COLOR"
  let allow ← IO.getEnv "CLICOLOR"
  return wantsColor force refuse allow (← (← IO.getStdout).isTty)

/-- Prints what a run leaves behind. -/
def printOutcome (verbose : Bool) (outcome : Outcome) : IO Unit := do
  for event in outcome.events do
    if verbose || event.level = .warn then IO.eprintln event.line
  IO.print outcome.output
  match outcome.report with
  | some report => IO.eprintln ("Error: " ++ report)
  | none => pure ()

/-- Whether more is to be printed than warnings. -/
def isVerbose (arguments : List String) : Bool :=
  match Invocation.ofArguments arguments with
  | .ok invocation => invocation.verbose
  | .error _ => false

end FormCheck

def main (arguments : List String) : IO UInt32 := do
  let outcome ← FormCheck.run FormCheck.lookOnDisk (← FormCheck.colorWanted) arguments
  FormCheck.printOutcome (FormCheck.isVerbose arguments) outcome
  if outcome.exit = 2 then IO.eprint FormCheck.HelpTopic.program.page.text
  return outcome.exit.toUInt32
