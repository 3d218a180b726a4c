import ReadmeTables.Patch
/-!
The tasks of a flush, in any order of their steps.

A task reads its README, looks at what came out, empties the README, writes it piece by piece,
and notes how that went. Threads read and write, so whenever a task is between two steps any
other one may go on. An error that is not noted with its component ends the flush: from then
on tasks may be given up, but not while they write.
-/

namespace ReadmeTables

namespace Patch

-- How far a task is that has read its README.
inductive Phase where
  | read
  | ready (outcome : Outcome) (updated : Text)
  | writing (outcome : Outcome) (location : Location) (done rest : Utf8.Bytes)
  | written (outcome : Outcome) (result : Except FileError Unit)
  | ended (result : Except FileError Outcome)

inductive Stage where
  | waiting
  | begun (seen : Except ReadError (List Char)) (phase : Phase)
  | givenUp

-- The task of a component, which is given by its key and its fragments.
structure Task where
  entry : Text × List Text
  stage : Stage

-- What may happen next: a task takes a step, in which at most one byte more than `size` is
-- written, or is given up.
inductive Move where
  | step (i size : Nat)
  | giveUp (i : Nat)

namespace Phase

def ofSight : Sight → Phase
  | .settled result => .ended result
  | .toWrite outcome updated => .ready outcome updated

-- A README was opened to be written, and a text is to be put into it.
def opened (outcome : Outcome) (updated : Text) (location : Location) : Phase :=
  match Utf8.encode updated with
  | .error e => .written outcome (.error (.unencodable e))
  | .ok bytes => .writing outcome location [] bytes

-- The step of a task that has read its README.
def next (plan : Plan) (size : Nat) (s : Session) (key body : Text)
    (seen : Except ReadError (List Char)) : Phase → Session × Phase
  | read =>
    let (s, sight) := look plan s key body seen
    (s, ofSight sight)
  | ready outcome updated =>
    match s.world.openToWrite outcome.path with
    | .error e => (s, .written outcome (.error e))
    | .ok (world, location) => ({ s with world := world }, opened outcome updated location)
  | writing outcome location done rest =>
    let piece := rest.take (size + 1)
    let left := rest.drop (size + 1)
    ({ s with world := s.world.writeAt location done.length piece },
      if left = [] then .written outcome (.ok ())
      else .writing outcome location (done ++ piece) left)
  | written outcome result =>
    let (s, result) := note s outcome result
    (s, .ended result)
  | ended result => (s, .ended result)

end Phase

namespace Stage

def next (plan : Plan) (size : Nat) (s : Session) (key body : Text) :
    Stage → Session × Stage
  | waiting => (s, .begun (s.world.readText (plan.destination key)) .read)
  | begun seen phase =>
    let (s, phase) := phase.next plan size s key body seen
    (s, .begun seen phase)
  | givenUp => (s, .givenUp)

-- Gives a task up, unless it writes or has ended.
def giveUp : Stage → Stage
  | begun seen (.writing outcome location done rest) =>
    .begun seen (.writing outcome location done rest)
  | begun seen (.ended result) => .begun seen (.ended result)
  | _ => .givenUp

def isOver : Stage → Bool
  | begun _ (.ended _) | givenUp => true
  | _ => false

-- The error with which a task has ended.
def error? : Stage → Option FileError
  | begun _ (.ended (.error e)) => some e
  | _ => none

def outcome? : Stage → Option Outcome
  | begun _ (.ended (.ok outcome)) => some outcome
  | _ => none

end Stage

-- What a task does next, in a session.
def Task.next (plan : Plan) (size : Nat) (s : Session) (task : Task) : Session × Stage :=
  task.stage.next plan size s task.entry.1 (Plan.render task.entry.2)

-- A flush under way. `raised` is the first error that was not noted with its component.
structure Progress where
  session : Session
  tasks : List Task
  raised : Option FileError

namespace Progress

-- A task takes a step.
def advance (plan : Plan) (p : Progress) (i size : Nat) (task : Task) : Progress :=
  let (s, stage) := task.next plan size p.session
  ⟨s, p.tasks.set i { task with stage := stage }, p.raised.or stage.error?⟩

def drop (p : Progress) (i : Nat) (task : Task) : Progress :=
  { p with tasks := p.tasks.set i { task with stage := task.stage.giveUp } }

-- A move that cannot be made changes nothing.
def move (plan : Plan) (p : Progress) : Move → Progress
  | .step i size =>
    match p.tasks[i]? with
    | some task => p.advance plan i size task
    | none => p
  | .giveUp i =>
    match p.tasks[i]?, p.raised with
    | some task, some _ => p.drop i task
    | _, _ => p

def moves (plan : Plan) (p : Progress) (schedule : List Move) : Progress :=
  schedule.foldl (move plan) p

-- How a flush ends, once all of its tasks are over.
def result? (p : Progress) : Option (Except FileError (List Outcome)) :=
  if p.tasks.all fun task => task.stage.isOver then
    match p.raised with
    | some e => some (.error e)
    | none => some (.ok (p.tasks.filterMap fun task => task.stage.outcome?))
  else none

end Progress

-- A flush at its beginning, when all tasks wait.
def launch (plan : Plan) (s : Session) (f : Fragments) : Progress where
  session := opened plan s f
  tasks := (plan.selected f).map fun entry => ⟨entry, .waiting⟩
  raised := none

-- A flush after some moves of its tasks.
def launchAnd (plan : Plan) (s : Session) (f : Fragments) (schedule : List Move) : Progress :=
  (launch plan s f).moves plan schedule

-- Whether a flush can end so, in some order of the steps of its tasks.
def Flushes (plan : Plan) (s : Session) (f : Fragments) (s' : Session)
    (result : Except FileError (List Outcome)) : Prop :=
  ∃ schedule, (launchAnd plan s f schedule).session = s' ∧
    (launchAnd plan s f schedule).result? = some result

end Patch

end ReadmeTables
