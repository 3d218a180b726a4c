import ReadmeTables.Files.World
import ReadmeTables.Log
/-!
Where log records go.

Progress goes to standard output: plain messages, and if asked for also debugging messages,
which carry their level. Warnings and worse go to standard error. A log file gets every
record. Setting the log up again takes the place of the former set-up. Before the first
set-up only warnings and worse are shown, as they are, on standard error, and so it stays for
records that are not the program's own. The streams hold the texts that are given to them; which of
these have an encoding is a matter of the host.
-/

namespace ReadmeTables

-- Where the lines of records go.
inductive Sink where
  | output
  | errors
  | file (location : Location)
deriving DecidableEq

-- A handler takes records from one level on and, perhaps, below another.
structure Handler where
  sink : Sink
  least : Log.Level
  below : Option Log.Level
deriving DecidableEq

def Handler.takes (handler : Handler) (record : Log.Record) : Bool :=
  handler.least.rank ≤ record.level.rank
    && handler.below.all fun level => record.level.rank < level.rank

-- How the log is set up.
structure Routing where
  verbose : Bool
  file : Option Location
deriving DecidableEq

-- The program at work: the world, the set-up of the log, what has been printed, and every
-- record so far. `mark` is the number of records when the log was last set up, and `clock` tells
-- the time that a log file shows, by the number of a record.
structure Session where
  world : World
  routing : Option Routing
  output : Text
  errors : Text
  records : List Log.Record
  mark : Nat
  clock : Nat → Text

namespace Routing

-- The least level that is shown as progress.
def progressLevel (r : Routing) : Log.Level :=
  if r.verbose then .debug else .info

-- The least level of a record that is looked at.
def least (r : Routing) : Log.Level :=
  if r.file.isSome then .debug else r.progressLevel

def handlers (r : Routing) : List Handler :=
  [⟨.output, r.progressLevel, some .warning⟩, ⟨.errors, .warning, none⟩]
    ++ (r.file.map fun location => ⟨.file location, .debug, none⟩).toList

def isTrouble (record : Log.Record) : Bool :=
  Log.Level.warning.rank ≤ record.level.rank

end Routing

namespace Session

def start (world : World) (clock : Text) : Session :=
  ⟨world, none, [], [], [], 0, fun _ => clock⟩

def print (s : Session) (t : Text) : Session :=
  { s with output := s.output ++ t }

def printError (s : Session) (t : Text) : Session :=
  { s with errors := s.errors ++ t }

def line (t : Text) : Text := t ++ "\n"

-- The line of a log file for a record.
def fileLine (clock : Text) (record : Log.Record) : Text :=
  line (clock ++ " " ++ record.level.label ++ " " ++ record.sourceName ++ ": " ++ record.message)

-- Adds the line of a record to the log file. A record without an encoding is left out.
def writeRecord (s : Session) (location : Location) (record : Log.Record) : Session :=
  match Utf8.encode (fileLine (s.clock s.records.length) record) with
  | .ok bytes => { s with world := s.world.appendBytes location bytes }
  | .error _ => s

-- The records until a logger was asked about a level for the first time.
def untilAsked (fresh : List Log.Record) (record : Log.Record) : List Log.Record :=
  fresh.take ((fresh.takeWhile fun other => !other.asksAs record).length + 1)

-- Whether a record counts as the program's own, where some records were logged before the log was
-- last set up and some since then. The names of records are in use. For what is no trouble a logger
-- keeps the answer of the first time until the log is set up again, though names that came into use
-- later may have changed where it hangs.
def isOwn (earlier fresh : List Log.Record) (record : Log.Record) : Bool :=
  let named (records : List Log.Record) := record.isOwn (records.map Log.Record.sourceName)
  named (earlier ++ fresh) &&
    (Routing.isTrouble record || named (earlier ++ untilAsked fresh record))

-- The set-up that holds for a record.
def routingFor (s : Session) (record : Log.Record) : Option Routing :=
  if isOwn (s.records.take s.mark) (s.records.drop s.mark) record then s.routing else none

-- What a handler does with a record.
def handle (record : Log.Record) (s : Session) (handler : Handler) : Session :=
  if handler.takes record then
    match handler.sink with
    | .output => s.print (line record.progressText)
    | .errors => s.printError (line record.taggedText)
    | .file location => s.writeRecord location record
  else s

def route (s : Session) (record : Log.Record) : Session :=
  match s.routingFor record with
  | none => if Routing.isTrouble record then s.printError (line record.message) else s
  | some routing =>
    if routing.least.rank ≤ record.level.rank then routing.handlers.foldl (handle record) s else s

def log (s : Session) (record : Log.Record) : Session :=
  { s with records := s.records ++ [record] }.route record

def logAll (s : Session) (records : List Log.Record) : Session :=
  records.foldl log s

-- Sets the log up. The directories of a log file are made, and the file is there from now on.
-- Where that fails, only the console is set up.
def configure (s : Session) (verbose : Bool) (file : Option Path) :
    Session × Except FileError Unit :=
  let console := { s with routing := some ⟨verbose, none⟩, mark := s.records.length }
  match file with
  | none => (console, .ok ())
  | some p =>
    match s.world.makeDirectories p.parent with
    | (world, .error e) => ({ console with world := world }, .error e)
    | (world, .ok ()) =>
      match world.openForAppend p with
      | .error e => ({ console with world := world }, .error e)
      | .ok (world, location) =>
        ({ console with world := world, routing := some ⟨verbose, some location⟩ }, .ok ())

end Session

end ReadmeTables
