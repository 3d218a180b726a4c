import ReadmeTables.Command
import Std.Time.Format
/-!
The program on the file system.

Before the program runs, the places that it can reach are looked at. It then runs on what was
found, and what it has changed is written back. All lines that it adds to a log file bear the time
at which it began.
-/

namespace ReadmeTables.Main

def stringOf (t : Text) : String :=
  String.ofList t.chars

-- The place of a location; none if a name is not UTF-8.
def placeOf? (location : Location) : Option String :=
  String.fromUTF8? (location.reverse.flatMap fun name => 0x2F :: name).toByteArray

-- What stands at a place. What cannot be read counts as missing.
def entryAt (place : String) : IO (Option Entry) := do
  try
    let path ← IO.FS.realPath place
    if ← path.isDir then pure (some .directory)
    else some <$> (Entry.file ∘ ByteArray.toList) <$> IO.FS.readBinFile path
  catch _ => pure none

-- Whether a file that is there can be written.
def isWritable (place : String) : IO Bool := do
  try
    let _ ← IO.FS.Handle.mk place .readWrite
    pure true
  catch _ => pure false

-- Notes what stands at a location.
def note (w : World) (location : Location) : IO World := do
  match placeOf? location with
  | none => pure w
  | some place =>
    match ← entryAt place with
    | none => pure w
    | some .directory => pure { w with tree := w.tree.set location .directory }
    | some (.file bytes) =>
      let w := w.setFile location bytes
      if ← isWritable place then pure w else pure { w with locked := location :: w.locked }

-- Looks at a location and at those above it.
def look (w : World) : Location → IO World
  | [] => pure w
  | name :: above => do
    let w ← look w above
    note w (name :: above)

-- Looks at all that a path goes through.
def follow (w : World) (p : Path) : IO World :=
  (List.range (p.parts.length + 1)).foldlM
    (fun w count => look w (World.locationOf (Path.from_ w.current ⟨p.anchor, p.parts.take count⟩)))
    w

-- Looks at the directory of a project and at its settings.
def followProject (w : World) (project : Text) : IO World := do
  match Run.givenPath w project with
  | .error _ => pure w
  | .ok p =>
    let w ← follow w p
    match w.resolve p with
    | .error _ => pure w
    | .ok root => follow w (root.child Settings.fileName)

-- Looks at the document of a project and at the READMEs that it asks for.
def followDocument (w : World) (request : Run.Request) : IO World := do
  match Run.prepare w request with
  | .error _ => pure w
  | .ok job =>
    let w ← follow w job.source
    match Run.collect w job with
    | .error _ => pure w
    | .ok state => (state.fragments.keys.map job.plan.destination).foldlM follow w

-- Looks at all that the program can reach with its arguments.
def survey (w : World) (texts : List Text) : IO World := do
  match Arguments.ofTexts texts with
  | .error _ => pure w
  | .ok arguments =>
    let w ← follow w w.current
    let w ←
      match Command.logPathOf arguments with
      | .ok (some p) => follow w p
      | _ => pure w
    let request := Command.requestOf arguments
    let w ← followProject w request.project
    followDocument w request

-- Writes an entry that was not there before.
def writeBack (former : Tree) (location : Location) (entry : Entry) : IO Unit := do
  match placeOf? location with
  | none => pure ()
  | some place =>
    if former.get? location = some entry then pure ()
    else
      match entry with
      | .directory => IO.FS.createDirAll place
      | .file bytes => IO.FS.writeBinFile place bytes.toByteArray

def writeAll (former latter : Tree) : IO Unit :=
  latter.entries.forM fun (location, entry) => writeBack former location entry

-- The homes of all accounts, from the lines of a table.
def accountsOf (table : String) : List (Text × Text) :=
  (table.splitOn "\n").filterMap fun line =>
    match line.splitOn ":" with
    | [name, _, _, _, _, home, _] => some (Text.ofString name, Text.ofString home)
    | _ => none

def accounts : IO (List (Text × Text)) := do
  try
    accountsOf <$> IO.FS.readFile "/etc/passwd"
  catch _ => pure []

-- The time as a log file shows it, to the millisecond.
def clock : IO Text := do
  let now ← Std.Time.PlainDateTime.now
  pure (Text.ofString (now.format "uuuu-MM-dd HH:mm:ss,SSS"))

def startWorld : IO World := do
  let current ← IO.currentDir
  let home := (← IO.getEnv "HOME").getD "/"
  pure ⟨⟨[]⟩, .ofText (Text.ofString current.toString), Text.ofString home, ← accounts, []⟩

-- Runs the program and gives its exit status. An error that leaves it is told on standard
-- error.
def runWith (texts : List Text) : IO UInt32 := do
  let world ← survey (← startWorld) texts
  let (session, ending) := command (Session.start world (← clock)) texts
  writeAll world.tree session.world.tree
  IO.print (stringOf session.output)
  IO.eprint (stringOf session.errors)
  match ending with
  | .exit status => pure status.toUInt32
  | .raised error =>
    IO.eprintln (stringOf error.message)
    pure 1

end ReadmeTables.Main

def main (args : List String) : IO UInt32 :=
  ReadmeTables.Main.runWith (args.map ReadmeTables.Text.ofString)
