import ReadmeTables.Files.World
import ReadmeTables.Json.Reader
/-!
Loading a reflection document from its file.

What is wrong with the file or with its text is reported with the path of the file. Two
errors are not: a path that is no name for the system, and a number of too many digits.
-/

namespace ReadmeTables.Document

open Json (Members)

inductive Error where
  | missing
  | unreadable (error : ReadError)
  | malformed (error : Json.Error)
  | notObject
  | badPath (error : FileError)
  | longNumber (digits : Nat)
deriving DecidableEq

namespace Error

def ofReadError : ReadError → Error
  | .file (.refused .missing _) => missing
  | .file (.refused refusal path) => unreadable (.file (.refused refusal path))
  | .file error => badPath error
  | .undecodable error => unreadable (.undecodable error)

def ofJsonError : Json.Error → Error
  | .tooManyDigits digits => longNumber digits
  | error => malformed error

def isReported : Error → Bool
  | badPath _ | longNumber _ => false
  | _ => true

-- The message of an error with the file at a path.
def message (source : Path) : Error → Text
  | missing => "Reflection JSON not found: " ++ source.text
  | unreadable error => "Failed to load " ++ source.text ++ ": " ++ error.message
  | malformed error => "Failed to load " ++ source.text ++ ": " ++ error.message
  | notObject => source.text ++ " must contain a JSON object at the root"
  | badPath error => error.message
  | longNumber digits => Json.digitLimitMessage digits

end Error

-- The object that a text writes.
def ofText (chars : List Char) : Except Error Members :=
  match Json.read chars with
  | .ok (.object members) => .ok members
  | .ok _ => .error .notObject
  | .error error => .error (.ofJsonError error)

-- The document of a file.
def load (w : World) (source : Path) : Except Error Members :=
  match w.readText source with
  | .ok chars => ofText chars
  | .error error => .error (.ofReadError error)

end ReadmeTables.Document
