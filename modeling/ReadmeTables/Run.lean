import ReadmeTables.Document
import ReadmeTables.Extraction
import ReadmeTables.Patch
import ReadmeTables.Settings
/-!
A run: the settings of a project, its reflection document, the fragments of the document,
and the READMEs they are put into.

All fragments are collected before the first README is touched, so a run that fails earlier
has written nothing.
-/

namespace ReadmeTables

namespace Run

-- What is asked for: a project, its document if it is not the one of the settings, and
-- whether READMEs are only looked at.
structure Request where
  project : Text
  input : Text
  dryRun : Bool
deriving DecidableEq

-- A run whose settings are known.
structure Job where
  settings : Settings
  source : Path
  dryRun : Bool
deriving DecidableEq

inductive Error where
  | noHome
  | badPath (error : FileError)
  | notDirectory (root : Path)
  | settings (error : Settings.Error)
  | document (source : Path) (error : Document.Error)
  | notIterable (error : Extraction.NotIterable)
  | patching (error : FileError)
deriving DecidableEq

namespace Error

def message : Error → Text
  | noHome => Settings.Error.noHomeMessage
  | badPath error => error.message
  | notDirectory root => "Project root is not a directory: " ++ root.text
  | settings error => error.message
  | document source error => error.message source
  | notIterable error => error.message
  | patching error => error.message

-- Errors that are told in one line. Others end the program as they are.
def isReported : Error → Bool
  | notDirectory _ => true
  | settings error => error.isReported
  | document _ error => error.isReported
  | _ => false

end Error

-- What a run has done.
structure Report where
  fragments : Fragments
  outcomes : List Patch.Outcome
deriving DecidableEq

def Report.failures (report : Report) : List Patch.Outcome :=
  report.outcomes.filter fun outcome => ¬ outcome.isOk

-- A path as it was asked for, with the home written out.
def givenPath (w : World) (t : Text) : Except Error Path := do
  match ← (w.expandHome (.ofText t)).mapError .badPath with
  | some p => .ok p
  | none => .error .noHome

-- Where the project lies. There must be a directory.
def rootOf (w : World) (project : Text) : Except Error Path := do
  let root ← (w.resolve (← givenPath w project)).mapError .badPath
  if ← (w.isDirectory root).mapError .badPath then .ok root else .error (.notDirectory root)

def sourceOf (w : World) (settings : Settings) (input : Text) : Except Error Path :=
  if input = [] then .ok settings.inputPath else givenPath w input

def prepare (w : World) (request : Request) : Except Error Job := do
  let root ← rootOf w request.project
  let settings ← (Settings.load w root).mapError .settings
  let source ← sourceOf w settings request.input
  .ok ⟨settings, source, request.dryRun⟩

-- The fragments of the document, and what is logged while they are collected.
def collect (w : World) (job : Job) : Except Error Extraction.State := do
  let members ← (Document.load w job.source).mapError (.document job.source)
  (Extraction.addDocument job.settings.modulePrefix .initial (.value (.object members))).mapError
    .notIterable

def Job.plan (job : Job) : Patch.Plan :=
  ⟨job.settings.packagesPath, job.settings.filter, job.dryRun⟩

def record (message : Text) : Log.Record :=
  ⟨.debug, Log.running, message⟩

def readingRecord (source : Path) : Log.Record :=
  record ("Reading reflection JSON from " ++ source.text)

def collectedRecord (fragments : Fragments) : Log.Record :=
  record ("Collected fragments for " ++ Text.ofNat fragments.size ++ " component(s)")

-- Puts collected fragments into the READMEs.
def finish (s : Session) (job : Job) (fragments : Fragments) : Session × Except Error Report :=
  match Patch.flush job.plan s fragments with
  | (s, .ok outcomes) => (s, .ok ⟨fragments, outcomes⟩)
  | (s, .error error) => (s, .error (.patching error))

end Run

def run (s : Session) (request : Run.Request) : Session × Except Run.Error Run.Report :=
  match Run.prepare s.world request with
  | .error error => (s, .error error)
  | .ok job =>
    let s := s.log (Run.readingRecord job.source)
    match Run.collect s.world job with
    | .error error => (s, .error error)
    | .ok state =>
      let s := (s.logAll state.log).log (Run.collectedRecord state.fragments)
      Run.finish s job state.fragments

end ReadmeTables
