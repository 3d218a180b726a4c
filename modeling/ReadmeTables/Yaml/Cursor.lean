import ReadmeTables.Text.Basic
/-!
Characters of a YAML text and places in it.

A cursor is what is left of a text with its place. The column counts characters since the
last line break, byte order marks left out. Carriage returns do not occur, since line ends
have been made equal before.
-/

namespace ReadmeTables.Yaml

def isBreak (c : Char) : Bool :=
  c == '\n' || c == '\x85' || c == '\u2028' || c == '\u2029'

def isBlank (c : Char) : Bool :=
  c == ' ' || c == '\t'

-- The break that a line break counts as.
def breakValue (c : Char) : Char :=
  if c = '\x85' then '\n' else c

-- Whether a text is at its end or at white space.
def atSpace : List Char → Bool
  | [] => true
  | c :: _ => isBlank c || isBreak c

-- Whether a text is at its end or at a line break.
def atLineEnd : List Char → Bool
  | [] => true
  | c :: _ => isBreak c

-- Whether a text is at its end, at a line break or at a plain space.
def atSpaceOrLineEnd : List Char → Bool
  | [] => true
  | c :: _ => c == ' ' || isBreak c

-- Whether a line begins with three marks that stand alone.
def beginsWithMark (mark : Char) : List Char → Bool
  | a :: b :: c :: rest => a == mark && b == mark && c == mark && atSpace rest
  | _ => false

-- Whether a line starts or ends a document.
def atDocumentMark (line : List Char) : Bool :=
  beginsWithMark '-' line || beginsWithMark '.' line

def byteOrderMark : Char := '\uFEFF'

-- Characters that a document may hold as they are.
def isAllowed (c : Char) : Bool :=
  let n := c.toNat
  n == 0x09 || n == 0x0A || n == 0x0D || (0x20 ≤ n && n ≤ 0x7E) || n == 0x85
    || (0xA0 ≤ n && n ≤ 0xFFFD) || 0x10000 ≤ n

structure Cursor where
  rest : List Char
  index : Nat
  line : Nat
  column : Nat

namespace Cursor

def start (chars : List Char) : Cursor :=
  ⟨chars, 0, 0, 0⟩

-- The place after a character.
def pass (cursor : Cursor) (c : Char) : Cursor :=
  let rest := cursor.rest.drop 1
  if isBreak c then ⟨rest, cursor.index + 1, cursor.line + 1, 0⟩
  else if c = byteOrderMark then ⟨rest, cursor.index + 1, cursor.line, cursor.column⟩
  else ⟨rest, cursor.index + 1, cursor.line, cursor.column + 1⟩

def skip (cursor : Cursor) (count : Nat) : Cursor :=
  (cursor.rest.take count).foldl pass cursor

-- The place at which `rest`, an end of what is left, begins.
def moveTo (cursor : Cursor) (rest : List Char) : Cursor :=
  cursor.skip (cursor.rest.length - rest.length)

-- Passes spaces.
def skipSpaces (cursor : Cursor) : Cursor :=
  cursor.moveTo (cursor.rest.dropWhile (· == ' '))

-- Passes a comment, up to the end of its line.
def skipComment (cursor : Cursor) : Cursor :=
  if cursor.rest.head? = some '#' then
    cursor.moveTo (cursor.rest.dropWhile fun c => !isBreak c)
  else cursor

end Cursor

end ReadmeTables.Yaml
