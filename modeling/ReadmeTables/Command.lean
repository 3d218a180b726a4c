import ReadmeTables.Arguments
import ReadmeTables.Run
import ReadmeTables.Usage
/-!
The command line program.

A command line that cannot be used ends it with status 2, a run that fails or that leaves a
README as it was with status 1. Errors that are no fault of the project or of its document
leave the program as they are.
-/

namespace ReadmeTables

namespace Command

inductive Error where
  | logFile (error : FileError)
  | noLogFile
  | run (error : Run.Error)
deriving DecidableEq

def Error.message : Error → Text
  | logFile error => error.message
  | noLogFile => "'list' object has no attribute 'parent'"
  | run error => error.message

-- How the program ends: with a status, or by an error that leaves it.
inductive Ending where
  | exit (status : Nat)
  | raised (error : Error)
deriving DecidableEq

def requestOf (arguments : Arguments) : Run.Request :=
  let input :=
    match arguments.input with
    | some (.text t) => t
    | _ => []
  ⟨arguments.project, input, arguments.dryRun⟩

def logPathOf (arguments : Arguments) : Except Error (Option Path) :=
  match arguments.logFile with
  | none => .ok none
  | some (.text t) => .ok (some (.ofText t))
  | some .void => .error .noLogFile

-- Sets the log up as the arguments say.
def openLog (s : Session) (arguments : Arguments) : Session × Except Error Unit :=
  match logPathOf arguments with
  | .error error => ((s.configure arguments.verbose none).1, .error error)
  | .ok path =>
    let (s, result) := s.configure arguments.verbose path
    (s, result.mapError .logFile)

-- A path as it is seen from the current directory, if it lies there.
def shownPath (w : World) (p : Path) : Text :=
  match w.resolve p with
  | .ok resolved => ((resolved.relativeTo? w.current).getD p).text
  | .error _ => p.text

-- A diff as it is printed; an empty one is named.
def shownDiff (diff : Text) : Text :=
  if diff = [] then "(no diff)" else diff

-- What is printed for an outcome. Failed ones are left to the log.
def outcomeText (w : World) (outcome : Patch.Outcome) : Text :=
  if ¬ outcome.isOk then []
  else if outcome.dryRun then
    shownPath w outcome.path ++ " (dry-run):\n" ++ shownDiff outcome.diff ++ "\n"
  else if outcome.changed then "README updated at " ++ shownPath w outcome.path ++ "\n"
  else []

def failuresText (count : Nat) : Text :=
  Text.ofNat count ++ " README(s) could not be updated. Run with --verbose for more details.\n"

-- Prints what a run has done.
def report (s : Session) (result : Run.Report) : Session × Ending :=
  let s := s.print (result.outcomes.flatMap (outcomeText s.world))
  let failures := result.failures.length
  if failures = 0 then (s, .exit 0) else (s.printError (failuresText failures), .exit 1)

def fail (s : Session) (error : Run.Error) : Session × Ending :=
  if error.isReported then
    (s.printError (Log.programName ++ " failed: " ++ error.message ++ "\n"), .exit 1)
  else (s, .raised (.run error))

def start (s : Session) (arguments : Arguments) : Session × Ending :=
  match openLog s arguments with
  | (s, .error error) => (s, .raised error)
  | (s, .ok ()) =>
    match run s (requestOf arguments) with
    | (s, .error error) => fail s error
    | (s, .ok result) => report s result

-- Says what is wrong with a command line.
def refuse (s : Session) (mistake : Arguments.Mistake) : Session × Ending :=
  (s.printError (Usage.summary ++ Log.programName ++ ": error: " ++ mistake.message ++ "\n"),
    .exit 2)

end Command

-- The program with the arguments of its command line.
def command (s : Session) (texts : List Text) : Session × Command.Ending :=
  match Arguments.ofTexts texts with
  | .error .help => (s.print Usage.help, .exit 0)
  | .error (.mistake mistake) => Command.refuse s mistake
  | .ok arguments => Command.start s arguments

end ReadmeTables
