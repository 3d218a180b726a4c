import ReadmeTables.Diff.Hunk
import ReadmeTables.Text.Lines
/-!
The unified format of a difference between two texts.

Two header lines name the texts, and each hunk is headed by its place in them. A line keeps
the end that it has, so a last line without one runs into what follows. Texts that do not
differ give nothing.
-/

namespace ReadmeTables.Diff

-- A range of lines: the number of the first and their count, which is left out if it is 1.
-- A range without lines names the line before it.
def rangeText (before count : Nat) : Text :=
  if count = 1 then Text.ofNat (before + 1)
  else if count = 0 then Text.ofNat before ++ ",0"
  else Text.ofNat (before + 1) ++ "," ++ Text.ofNat count

def editText : Edit Text → Text
  | .keep line => " " ++ line
  | .drop line => "-" ++ line
  | .add line => "+" ++ line

def hunkHead (hunk : Hunk Text) : Text :=
  let old := (hunk.edits.filterMap Edit.old?).length
  let new := (hunk.edits.filterMap Edit.new?).length
  "@@ -" ++ rangeText hunk.old old ++ " +" ++ rangeText hunk.new new ++ " @@\n"

def hunkLines (hunk : Hunk Text) : List Text :=
  hunkHead hunk :: hunk.edits.map editText

def fileHead (path : Text) : List Text :=
  ["--- " ++ path ++ " (current)\n", "+++ " ++ path ++ " (generated)\n"]

-- The lines of the difference between two texts.
def unifiedLines (old new path : Text) : List Text :=
  match hunks (script old.lines new.lines) with
  | [] => []
  | found => fileHead path ++ found.flatMap hunkLines

def unified (old new path : Text) : Text :=
  (unifiedLines old new path).flatten

end ReadmeTables.Diff
