import ReadmeTables.Console
import ReadmeTables.Diff.Unified
import ReadmeTables.Fragments
import ReadmeTables.Region
/-!
Writing collected fragments into the READMEs of their components.

The README of a component lies in its directory below the packages. Each one is read, gets
its region replaced, and is written. What the system refuses is noted with the component and
stops no other. Every component has a task of its own, and the tasks take their steps in any
order; here a task is done before the next one begins, which is one of these orders.
-/

namespace ReadmeTables

namespace Patch

def defaultPackages : Path := .ofText "packages"

def defaultFilter : Text := "mdc-drawer"

def readmeName : Text := "README.md"

structure Plan where
  packages : Path
  filter : Text
  dryRun : Bool

inductive Failure where
  | read (error : ReadError)
  | write (error : FileError)
deriving DecidableEq

def Failure.message : Failure → Text
  | read error => "read failed: " ++ error.message
  | write error => "write failed: " ++ error.message

-- What became of a component.
structure Outcome where
  key : Text
  path : Path
  changed : Bool
  diff : Text
  failure : Option Failure
  dryRun : Bool
deriving DecidableEq

def Outcome.isOk (o : Outcome) : Bool :=
  o.failure.isNone

namespace Plan

-- Where the README of a component lies.
def destination (plan : Plan) (key : Text) : Path :=
  (plan.packages.child key).child readmeName

-- A component is written if its key holds the filter.
def selects (plan : Plan) (key : Text) : Bool :=
  Text.includes plan.filter key

def selected (plan : Plan) (f : Fragments) : List (Text × List Text) :=
  f.entries.filter fun entry => plan.selects entry.1

def render (fragments : List Text) : Text :=
  Text.join "\n" fragments

-- The outcome of a component of which nothing is known yet.
def blank (plan : Plan) (key : Text) : Outcome :=
  ⟨key, plan.destination key, false, [], none, plan.dryRun⟩

end Plan

-- Errors that are noted with a component. Others end the run.
def isNoted : FileError → Bool
  | .refused _ _ => true
  | _ => false

def record (level : Log.Level) (message : Text) : Log.Record :=
  ⟨level, Log.patching, message⟩

def readFailure (path : Path) (error : ReadError) : Log.Record :=
  record .error ("Failed to read " ++ path.text ++ ": " ++ error.message)

def writeFailure (path : Path) (error : FileError) : Log.Record :=
  record .error ("Failed to write " ++ path.text ++ ": " ++ error.message)

def generated (path : Path) : Log.Record :=
  record .info ("~~ generated " ++ path.text)

def misplaced (path : Path) : Log.Record :=
  record .debug ("Replacer markers are not the first and last lines of " ++ path.text
    ++ "; content unchanged")

def skipped (filter : Text) (count : Nat) : Log.Record :=
  record .debug ("Filter " ++ Text.quoted filter ++ " skipped " ++ Text.ofNat count
    ++ " component(s)")

def misplacedIf (lacking : Bool) (path : Path) : List Log.Record :=
  if lacking then [misplaced path] else []

-- What a README calls for once it was looked at: nothing more, or a text to be written to it.
inductive Sight where
  | settled (result : Except FileError Outcome)
  | toWrite (outcome : Outcome) (updated : Text)

-- What the text of a README calls for that is to take in a body.
def Plan.revision (plan : Plan) (key former body : Text) : Sight :=
  let updated := Region.replace former body
  let outcome := { plan.blank key with changed := updated ≠ former }
  if plan.dryRun then
    .settled (.ok { outcome with diff := Diff.unified former updated outcome.path.text })
  else .toWrite outcome updated

-- What is to be done for a component, from what came out when its README was read.
def Plan.sight (plan : Plan) (key body : Text) : Except ReadError (List Char) → Sight
  | .ok chars => plan.revision key (Text.ofChars chars) body
  | .error (.file (.refused refusal shown)) =>
    .settled (.ok { plan.blank key with failure := some (.read (.file (.refused refusal shown))) })
  | .error (.undecodable e) =>
    .settled (.ok { plan.blank key with failure := some (.read (.undecodable e)) })
  | .error (.file e) => .settled (.error e)

-- What is logged when a README was read.
def Plan.remarks (plan : Plan) (key : Text) : Except ReadError (List Char) → List Log.Record
  | .ok chars => misplacedIf (!Region.hasRegion (Text.ofChars chars)) (plan.destination key)
  | .error (.file (.refused refusal shown)) =>
    [readFailure (plan.destination key) (.file (.refused refusal shown))]
  | .error (.undecodable e) => [readFailure (plan.destination key) (.undecodable e)]
  | .error (.file _) => []

-- Looks at what came out when a README was read.
def look (plan : Plan) (s : Session) (key body : Text) (seen : Except ReadError (List Char)) :
    Session × Sight :=
  (s.logAll (plan.remarks key seen), plan.sight key body seen)

-- What becomes of a component, from what came out when its README was written.
def Outcome.concluded (outcome : Outcome) : Except FileError Unit → Except FileError Outcome
  | .ok () => .ok outcome
  | .error e => if isNoted e then .ok { outcome with failure := some (.write e) } else .error e

-- What is logged when a README was written.
def Outcome.closing (outcome : Outcome) : Except FileError Unit → List Log.Record
  | .ok () => [generated outcome.path]
  | .error e => if isNoted e then [writeFailure outcome.path e] else []

-- Notes what came out when a README was written.
def note (s : Session) (outcome : Outcome) (result : Except FileError Unit) :
    Session × Except FileError Outcome :=
  (s.logAll (outcome.closing result), outcome.concluded result)

-- Writes the text of a README and notes how that went.
def write (s : Session) (outcome : Outcome) (updated : Text) :
    Session × Except FileError Outcome :=
  let (world, result) := s.world.writeText outcome.path updated
  note { s with world := world } outcome result

def component (plan : Plan) (s : Session) (key body : Text) :
    Session × Except FileError Outcome :=
  match look plan s key body (s.world.readText (plan.destination key)) with
  | (s, .settled result) => (s, result)
  | (s, .toWrite outcome updated) => write s outcome updated

def components (plan : Plan) : Session → List (Text × List Text) →
    Session × List (Except FileError Outcome)
  | s, [] => (s, [])
  | s, (key, fragments) :: rest =>
    let (s, result) := component plan s key (Plan.render fragments)
    let (s, results) := components plan s rest
    (s, result :: results)

-- The outcomes, or the first error among them.
def gather : List (Except FileError Outcome) → Except FileError (List Outcome)
  | [] => .ok []
  | .error e :: _ => .error e
  | .ok outcome :: rest => (gather rest).map (outcome :: ·)

-- A flush before its first component: it notes how many the filter skips.
def opened (plan : Plan) (s : Session) (f : Fragments) : Session :=
  if f.size - (plan.selected f).length = 0 then s
  else s.log (skipped plan.filter (f.size - (plan.selected f).length))

-- Writes the selected components in their order. An error that is not noted with its
-- component is told when all have had their turn.
def flush (plan : Plan) (s : Session) (fragments : Fragments) :
    Session × Except FileError (List Outcome) :=
  let (s, results) := components plan (opened plan s fragments) (plan.selected fragments)
  (s, gather results)

end Patch

end ReadmeTables
