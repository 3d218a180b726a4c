import ReadmeTables.Files.Path
import ReadmeTables.Files.Tree
import ReadmeTables.Text.Lines
import ReadmeTables.Text.Quoted
/-!
Files as a program meets them: a tree, a current directory, a home, and files that cannot be
written.

A path is turned into bytes before the system sees it. Texts are UTF-8; reading one makes
its line ends equal. Writing opens the file, which empties it, and encodes afterwards, so a
text that has no encoding leaves an empty file.
-/

namespace ReadmeTables

-- Why a path could not be used: the system refused it, or it is no name for the system.
inductive FileError where
  | refused (refusal : Refusal) (path : Text)
  | nullByte
  | unencodable (error : Utf8.EncodeError)
deriving DecidableEq

namespace FileError

def refusalMessage (refusal : Refusal) (path : Text) : Text :=
  "[Errno " ++ Text.ofNat refusal.code ++ "] " ++ refusal.phrase ++ ": " ++ Text.quoted path

def message : FileError → Text
  | refused refusal path => refusalMessage refusal path
  | nullByte => "embedded null byte"
  | unencodable error => error.message

end FileError

inductive ReadError where
  | file (error : FileError)
  | undecodable (error : Utf8.DecodeError)
deriving DecidableEq

def ReadError.message : ReadError → Text
  | file error => error.message
  | undecodable error => error.message

-- `current` and `home` are where the program runs and whose files it works on; `accounts`
-- are the homes of others. `locked` are the files that are refused to whoever wants to write
-- to them or to add to them.
structure World where
  tree : Tree
  current : Path
  home : Text
  accounts : List (Text × Text)
  locked : List Location

namespace World

-- The bytes of a path.
def pathBytes (p : Path) : Except FileError Utf8.Bytes :=
  match Utf8.encodeName p.text with
  | .error e => .error (.unencodable e)
  | .ok bytes => if 0 ∈ bytes then .error .nullByte else .ok bytes

-- The bytes of names, one by one.
def names (parts : List Text) : List Name :=
  parts.map fun part => (Utf8.encodeName part).toOption.getD []

-- The location that a path leads to by its names alone.
def locationOf (p : Path) : Location :=
  (names p.parts).reverse

-- One more than the most bytes of a path.
def pathLimit : Nat := 4096

-- Where a path leads to.
def locate (w : World) (p : Path) : Except FileError Location := do
  let bytes ← pathBytes p
  if pathLimit ≤ bytes.length then .error (.refused .nameTooLong p.text)
  else
    let start := if p.isAbsolute then [] else locationOf w.current
    match w.tree.walk start (names p.parts) with
    | .ok location => .ok location
    | .error refusal => .error (.refused refusal p.text)

-- The entry that a path leads to.
def entry (w : World) (p : Path) : Except FileError Entry := do
  let location ← w.locate p
  match w.tree.get? location with
  | some e => .ok e
  | none => .error (.refused .missing p.text)

-- An answer about a path that may lead nowhere. Only a name that is too long for the system
-- is an error.
def ask (answer : Except FileError Bool) : Except FileError Bool :=
  match answer with
  | .error (.refused .nameTooLong path) => .error (.refused .nameTooLong path)
  | .error _ => .ok false
  | .ok b => .ok b

def isDirectory (w : World) (p : Path) : Except FileError Bool :=
  ask ((w.entry p).map fun e => e = .directory)

def isPresent (w : World) (p : Path) : Except FileError Bool :=
  ask ((w.entry p).map fun _ => true)

-- The path of the same place from the root. The names need not lead anywhere, but each
-- must be one that the system could be asked for.
def resolve (w : World) (p : Path) : Except FileError Path :=
  let anchor : Anchor := if p.isAbsolute then .root else .here
  let step (passed : List Text) (part : Text) : Except FileError (List Text) :=
    let next := Path.climb p.isAbsolute passed part
    if part = Path.dots then .ok next
    else (pathBytes ⟨anchor, next.reverse⟩).map fun _ => next
  (p.parts.foldlM step []).map fun passed => Path.from_ w.current ⟨anchor, passed.reverse⟩

-- The home that a first part with a tilde stands for.
def homeOf (w : World) (user : Text) : Except FileError (Option Text) :=
  if user = [] then .ok (some w.home)
  else
    match Utf8.encodeName user with
    | .error e => .error (.unencodable e)
    | .ok bytes =>
      if 0 ∈ bytes then .error .nullByte
      else .ok ((w.accounts.find? fun account => account.1 = user).map Prod.snd)

-- The path with a tilde in front written out; none if there is no such home.
def expandHome (w : World) (p : Path) : Except FileError (Option Path) :=
  match p.anchor, p.parts with
  | .here, (.scalar '~' :: user) :: rest => do
    let home ← w.homeOf user
    .ok (home.map fun t => (Path.ofText t).append ⟨.here, rest⟩)
  | _, _ => .ok (some p)

def readBytes (w : World) (p : Path) : Except FileError Utf8.Bytes := do
  match ← w.entry p with
  | .file bytes => .ok bytes
  | .directory => .error (.refused .isDirectory p.text)

-- The text of a file, with equal line ends.
def readText (w : World) (p : Path) : Except ReadError (List Char) :=
  match w.readBytes p with
  | .error e => .error (.file e)
  | .ok bytes =>
    match Utf8.decode bytes with
    | .error e => .error (.undecodable e)
    | .ok chars => .ok (Text.unifyLineEnds chars)

def setFile (w : World) (location : Location) (bytes : Utf8.Bytes) : World :=
  { w with tree := w.tree.set location (.file bytes) }

-- The location of a file to be written, which may be new.
def target (w : World) (p : Path) : Except FileError Location := do
  let location ← w.locate p
  if w.tree.get? location = some .directory then .error (.refused .isDirectory p.text)
  else .ok location

-- Opens a file to be written anew, which empties it.
def openToWrite (w : World) (p : Path) : Except FileError (World × Location) := do
  let location ← w.target p
  if location ∈ w.locked then .error (.refused .locked p.text)
  else .ok (w.setFile location [], location)

-- Writes bytes over what an open file holds from a place on. If it ends before that place,
-- zeros fill the gap.
def writeAt (w : World) (location : Location) (place : Nat) (bytes : Utf8.Bytes) : World :=
  let former := (w.tree.bytes? location).getD []
  w.setFile location (former.take place ++ List.replicate (place - former.length) 0 ++ bytes
    ++ former.drop (place + bytes.length))

-- Writes a text; the file is emptied before the text is encoded.
def writeText (w : World) (p : Path) (t : Text) : World × Except FileError Unit :=
  match w.openToWrite p with
  | .error e => (w, .error e)
  | .ok (w, location) =>
    match Utf8.encode t with
    | .error e => (w, .error (.unencodable e))
    | .ok bytes => (w.writeAt location 0 bytes, .ok ())

-- Makes a directory where nothing is yet.
def makeDirectory (w : World) (p : Path) : World × Except FileError Unit :=
  match w.locate p with
  | .error e => (w, .error e)
  | .ok location =>
    match w.tree.get? location with
    | some _ => (w, .error (.refused .present p.text))
    | none => ({ w with tree := w.tree.set location .directory }, .ok ())

-- Makes a directory; one that is there already is as good.
def makeOrKeep (w : World) (p : Path) : World × Except FileError Unit :=
  match w.makeDirectory p with
  | (_, .error (.refused .missing path)) => (w, .error (.refused .missing path))
  | (_, .error (.refused refusal path)) =>
    match w.isDirectory p with
    | .ok true => (w, .ok ())
    | .ok false => (w, .error (.refused refusal path))
    | .error e => (w, .error e)
  | result => result

-- Makes a directory, after those above it if they are missing, from the parts of its path in
-- reverse. Directories that were made stay when a later one fails.
def makeDirectoriesFrom (w : World) (anchor : Anchor) : List Text → World × Except FileError Unit
  | [] => w.makeOrKeep ⟨anchor, []⟩
  | part :: above =>
    let p : Path := ⟨anchor, (part :: above).reverse⟩
    match w.makeOrKeep p with
    | (_, .error (.refused .missing _)) =>
      match w.makeDirectoriesFrom anchor above with
      | (next, .ok ()) => next.makeOrKeep p
      | (next, .error e) => (next, .error e)
    | result => result

def makeDirectories (w : World) (p : Path) : World × Except FileError Unit :=
  w.makeDirectoriesFrom p.anchor p.parts.reverse

-- Opens a file for additions, and makes it if there is none. The path is taken from the
-- root first, by its names alone.
def openForAppend (w : World) (p : Path) : Except FileError (World × Location) := do
  let p := Path.from_ w.current p
  let location ← w.target p
  if location ∈ w.locked then .error (.refused .locked p.text)
  else
    match w.tree.get? location with
    | some _ => .ok (w, location)
    | none => .ok (w.setFile location [], location)

-- Adds to a file that is open for additions.
def appendBytes (w : World) (location : Location) (bytes : Utf8.Bytes) : World :=
  w.setFile location ((w.tree.bytes? location).getD [] ++ bytes)

end World

end ReadmeTables
