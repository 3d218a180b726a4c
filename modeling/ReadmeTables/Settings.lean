import ReadmeTables.Files.World
import ReadmeTables.Number.Shortest
import ReadmeTables.Text.Blank
import ReadmeTables.Yaml.Value
/-!
The settings of a project.

They are read from a file in its root, which may be missing. A setting that is not a text or
a number is passed over, and so is an empty one, except that an empty filter selects all
components.
-/

namespace ReadmeTables

structure Settings where
  root : Path
  input : Text
  packages : Text
  filter : Text
  modulePrefix : Text
deriving DecidableEq

namespace Settings

def fileName : Text := ".tsdocgen.yml"

inductive Error where
  | noHome
  | path (error : FileError)
  | unreadable (error : ReadError)
  | malformed
  | value (error : Yaml.Error)
  | notMapping
  | longNumber
deriving DecidableEq

namespace Error

def noHomeMessage : Text := "Could not determine home directory."

def longNumberMessage : Text :=
  "Exceeds the limit (" ++ Text.ofNat Number.digitLimit
    ++ " digits) for integer string conversion; use sys.set_int_max_str_digits() to increase the limit"

def message : Error → Text
  | noHome => noHomeMessage
  | path error => error.message
  | unreadable error => error.message
  | malformed => "Failed to parse " ++ fileName ++ ": "
  | value error => error.message
  | notMapping => fileName ++ " must contain a mapping at the root"
  | longNumber => longNumberMessage

-- Errors in what the file says as a whole. They are told in one line; others end the program.
def isReported : Error → Bool
  | malformed | notMapping => true
  | _ => false

end Error

-- The settings of a project that says nothing.
def default (root : Path) : Settings :=
  ⟨root, "jsDoc.json", "packages", "mdc-drawer", "MDC"⟩

def inputPath (s : Settings) : Path :=
  s.root.child s.input

def packagesPath (s : Settings) : Path :=
  s.root.child s.packages

-- The file with the settings for a path: in the directory that it leads to, or else beside it.
def fileFor (w : World) (p : Path) : Except Error Path := do
  match ← (w.expandHome p).mapError .path with
  | none => .error .noHome
  | some p =>
    let isDirectory ← (w.isDirectory p).mapError .path
    let file :=
      if isDirectory then p.child fileName
      else if p.name = fileName then p
      else p.parent.child fileName
    (w.resolve file).mapError .path

-- The value of a setting as a text. Whole numbers beyond the limit have none.
def textOf? : Yaml.Item → Except Error (Option Text)
  | .scalar (.text t) => .ok (some t)
  | .scalar (.whole n) =>
    if Number.digitLimit < (Text.ofNat n.natAbs).length then .error .longNumber
    else .ok (some (Text.ofInt n))
  | .scalar (.real x) => .ok (some x.text)
  | _ => .ok none

abbrev Entries := List (Yaml.Scalar × Yaml.Item)

-- The last entry of a name counts.
def entry? (entries : Entries) (name : Text) : Option Yaml.Item :=
  (entries.reverse.find? fun entry => entry.1 = .text name).map Prod.snd

-- The text of a setting; none if it is missing or has no text.
def get? (entries : Entries) (name : Text) : Except Error (Option Text) :=
  match entry? entries name with
  | some item => textOf? item
  | none => .ok none

-- A setting whose text must not be empty, with what counts otherwise.
def getOr (entries : Entries) (name fallback : Text) : Except Error Text := do
  match ← get? entries name with
  | some t => .ok (if t = [] then fallback else t)
  | none => .ok fallback

-- The filter is empty if there is an entry for it without a text.
def filterOf (entries : Entries) (fallback : Text) : Except Error Text := do
  match entry? entries "component_filter" with
  | none => .ok fallback
  | some item => (fun text? => text?.getD []) <$> textOf? item

def ofEntries (root : Path) (entries : Entries) : Except Error Settings := do
  let s := default root
  let input ← getOr entries "input" s.input
  let packages ← getOr entries "packages_dir" s.packages
  let filter ← filterOf entries s.filter
  let modulePrefix ← getOr entries "module_prefix" s.modulePrefix
  .ok ⟨root, input, packages, filter, modulePrefix⟩

-- Whether a value other than a mapping counts as nothing.
def isNothing : Yaml.Value → Bool
  | .nothing => true
  | .scalar .null => true
  | .scalar (.truth b) => !b
  | .scalar (.whole n) => n = 0
  | .scalar (.real x) => x.isZero
  | .scalar (.text t) => t = []
  | .scalar (.bytes isEmpty) => isEmpty
  | .scalar .moment => false
  | .list isEmpty => isEmpty
  | .set isEmpty => isEmpty
  | .mapping _ => false

def ofValue (root : Path) : Yaml.Value → Except Error Settings
  | .mapping entries => ofEntries root entries
  | value => if isNothing value then .ok (default root) else .error .notMapping

-- The settings that a text writes. White space alone writes none.
def ofText (root : Path) (chars : List Char) : Except Error Settings :=
  if chars.all Text.isSpace then .ok (default root)
  else
    match Yaml.read chars with
    | .ok value => ofValue root value
    | .error .malformed => .error .malformed
    | .error error => .error (.value error)

-- The settings of the project that a path leads to. Its root is the directory of the file, which
-- has been resolved with the file (`resolve_parent_of_fileFor`).
def load (w : World) (p : Path) : Except Error Settings := do
  let file ← fileFor w p
  let root := file.parent
  if ← (w.isPresent file).mapError .path then do
    let chars ← (w.readText file).mapError .unreadable
    ofText root chars
  else .ok (default root)

end Settings

end ReadmeTables
