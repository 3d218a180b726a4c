import ReadmeTables.Command
import ReadmeTables.Patch.Tasks
/-!
The program where it runs.

Threads patch the READMEs, so a run may go in any order of their steps. The readers of settings and
of documents call themselves for what lies in lists and objects, and a host gives up where a text
is too deep for its stack. What is printed must have an encoding on standard output; standard error
takes any text.
-/

namespace ReadmeTables

namespace Run

-- What a run hands over to its flush.
structure Stage where
  session : Session
  job : Job
  fragments : Fragments

-- The stage before the flush; none if the run fails earlier.
def stage? (s : Session) (request : Request) : Option Stage :=
  match prepare s.world request with
  | .error _ => none
  | .ok job =>
    let reading := s.log (readingRecord job.source)
    match collect reading.world job with
    | .error _ => none
    | .ok state =>
      some ⟨(reading.logAll state.log).log (collectedRecord state.fragments), job, state.fragments⟩

-- How a run may go, whatever the order in which the tasks of its flush take their steps.
def Goes (s : Session) (request : Request) (s' : Session) (result : Except Error Report) : Prop :=
  match stage? s request with
  | none => run s request = (s', result)
  | some stage =>
    ∃ flushed, Patch.Flushes stage.job.plan stage.session stage.fragments s' flushed ∧
      result = (flushed.map fun outcomes => ⟨stage.fragments, outcomes⟩).mapError .patching

-- The text of the settings of a run, if there is one to be read.
def settingsText? (w : World) (request : Request) : Option (List Char) := do
  let root ← (rootOf w request.project).toOption
  let file ← (Settings.fileFor w root).toOption
  (w.readText file).toOption

-- The text of the document of a run, if it gets there and there is one to be read.
def documentText? (s : Session) (request : Request) : Option (List Char) := do
  let job ← (prepare s.world request).toOption
  ((s.log (readingRecord job.source)).world.readText job.source).toOption

end Run

-- What a host can do: the texts of settings and of documents that are too deep for its stack, and
-- the code points that the encoding of its standard output has.
structure Host where
  deepSettings : List Char → Bool
  deepDocument : List Char → Bool
  encodes : CodePoint → Bool

-- Where a host breaks a program off.
inductive Breakdown where
  | settings
  | document
  | output
deriving DecidableEq

namespace Host

-- What follows a run: its error is told or leaves the program, or what it did is printed.
def conclude (host : Host) (s : Session) :
    Except Run.Error Run.Report → Except Breakdown (Session × Command.Ending)
  | .error error => .ok (Command.fail s error)
  | .ok report =>
    let printed := report.outcomes.flatMap (Command.outcomeText s.world)
    if printed.all host.encodes then .ok (Command.report s report)
    else .error .output

-- How a program whose log is set up may end.
def Finishes (host : Host) (s : Session) (request : Run.Request)
    (ending : Except Breakdown (Session × Command.Ending)) : Prop :=
  if (Run.settingsText? s.world request).any host.deepSettings then ending = .error .settings
  else if (Run.documentText? s request).any host.deepDocument then ending = .error .document
  else ∃ after result, Run.Goes s request after result ∧ host.conclude after result = ending

-- How the program with the arguments of its command line may end.
def Ends (host : Host) (s : Session) (texts : List Text)
    (ending : Except Breakdown (Session × Command.Ending)) : Prop :=
  match Arguments.ofTexts texts with
  | .error _ => ending = .ok (command s texts)
  | .ok arguments =>
    match Command.openLog s arguments with
    | (s, .error error) => ending = .ok (s, .raised error)
    | (s, .ok ()) => host.Finishes s (Command.requestOf arguments) ending

end Host

end ReadmeTables
