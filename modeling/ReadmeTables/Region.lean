import ReadmeTables.Text.Affix
import ReadmeTables.Text.Basic
/-!
The generated region of a README.

A region begins with the start marker as the first line and ends with the end marker, which
is the last of the text but for one line feed. Replacing asks no more of the end marker;
extracting asks that it begins its line.
-/

namespace ReadmeTables.Region

def startMarker : Text := "<!-- docgen-tsdoc-replacer:start -->"

def endMarker : Text := "<!-- docgen-tsdoc-replacer:end -->"

def lineFeed : Text := [CodePoint.scalar '\n']

-- A body between the markers.
def wrap (body : Text) : Text :=
  startMarker ++ lineFeed ++ body ++ lineFeed ++ endMarker

-- A text in two parts: all but a final line feed, and that line feed if there is one.
def splitFinal (t : Text) : Text × Text :=
  match beforeSuffix? lineFeed t with
  | some rest => (rest, lineFeed)
  | none => (t, [])

-- What stands between the first line and the end marker, and what follows the end marker.
def inner? (t : Text) : Option (Text × Text) := do
  let afterStart ← afterPrefix? (startMarker ++ lineFeed) t
  let (rest, final) := splitFinal afterStart
  let inner ← beforeSuffix? endMarker rest
  some (inner, final)

def hasRegion (t : Text) : Bool :=
  (inner? t).isSome

-- Puts a new body in the region; a text without one stays as it is.
def replace (t body : Text) : Text :=
  match inner? t with
  | some (_, final) => wrap body ++ final
  | none => t

-- The body of the region, if the end marker stands on a line of its own.
def extract (t : Text) : Option Text := do
  let (inner, _) ← inner? t
  if inner.isEmpty then some [] else beforeSuffix? lineFeed inner

end ReadmeTables.Region
