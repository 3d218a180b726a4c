import ReadmeTables.Yaml.Cursor
/-!
Block scalars.

The head tells whether lines are folded, how far the text is indented, and what becomes of
the line breaks at its end. The text goes on over all lines that are indented so far; empty
lines between them belong to it.
-/

namespace ReadmeTables.Yaml.Block

-- What becomes of the line breaks at the end: one stays, all stay, or none.
inductive Chomp where
  | clip
  | keep
  | strip
deriving DecidableEq

structure Head where
  folded : Bool
  chomp : Chomp
  increment : Option Nat

def chomp? : Char → Option Chomp
  | '+' => some .keep
  | '-' => some .strip
  | _ => none

-- A digit from 1 to 9; a zero is no width.
def width? (c : Char) : Option Nat :=
  if '1' ≤ c ∧ c ≤ '9' then some (c.toNat - '0'.toNat) else none

-- Reads what follows the mark: a sign and a digit, in any order, then a comment if there is
-- one, up to the end of the line. Gives what follows the line.
def readHead? (folded : Bool) (chars : List Char) : Option (Head × List Char) :=
  let (head, rest) : Head × List Char :=
    match chars with
    | [] => (⟨folded, .clip, none⟩, [])
    | c :: rest =>
      match chomp? c, width? c with
      | some chomp, _ =>
        match rest with
        | d :: more =>
          match width? d with
          | some n => (⟨folded, chomp, some n⟩, more)
          | none => (⟨folded, chomp, none⟩, rest)
        | [] => (⟨folded, chomp, none⟩, [])
      | none, some n =>
        match rest with
        | d :: more =>
          match chomp? d with
          | some chomp => (⟨folded, chomp, some n⟩, more)
          | none => (⟨folded, .clip, some n⟩, rest)
        | [] => (⟨folded, .clip, some n⟩, [])
      | none, none => (⟨folded, .clip, none⟩, c :: rest)
  if atSpaceOrLineEnd rest then
    let rest := rest.dropWhile (· == ' ')
    let rest := if rest.head? = some '#' then rest.dropWhile fun c => !isBreak c else rest
    if atLineEnd rest then some (head, rest.drop 1) else none
  else none

-- A line of the text, with the break that ends it.
structure Line where
  text : List Char
  ending : Option Char

def Line.spaces (line : Line) : Nat :=
  (line.text.takeWhile (· == ' ')).length

def Line.size (line : Line) : Nat :=
  line.text.length + (if line.ending.isSome then 1 else 0)

def extendLine (c : Char) : List Line → List Line
  | [] => [⟨[c], none⟩]
  | line :: rest => { line with text := c :: line.text } :: rest

-- The lines of a text; no line is empty at the end of the text.
def linesOf : List Char → List Line
  | [] => []
  | c :: rest => if isBreak c then ⟨[], some c⟩ :: linesOf rest else extendLine c (linesOf rest)

-- Whether a line is a break and no more than an indentation before it.
def Line.isEmptyAt (indent : Nat) (line : Line) : Bool :=
  line.ending.isSome && line.spaces == line.text.length && line.spaces ≤ indent

-- Whether a line belongs to a text of some indentation.
def Line.isInside (indent : Nat) (line : Line) : Bool :=
  indent ≤ line.spaces && indent < line.text.length

def isSpaces (line : Line) : Bool :=
  line.ending.isSome && line.spaces == line.text.length

-- The indentation of the first lines: the most spaces of those that are spaces alone and of
-- the one that follows them.
def foundIndent (lines : List Line) : Nat :=
  let empty := lines.takeWhile isSpaces
  let next := (lines.dropWhile isSpaces).take 1
  ((empty ++ next).map Line.spaces).foldl max 0

-- A line of the text without its indentation, and the breaks of the empty lines before it.
structure Piece where
  before : List Char
  text : List Char
  ending : Option Char

-- The pieces of a text, the breaks after the last one, and how many characters they take.
structure Body where
  pieces : List Piece
  trailing : List Char
  size : Nat

def collect (indent : Nat) (before : List Char) : List Line → Body
  | [] => ⟨[], before, 0⟩
  | line :: rest =>
    if line.isEmptyAt indent then
      let body := collect indent (before ++ line.ending.toList.map breakValue) rest
      { body with size := line.size + body.size }
    else if line.isInside indent then
      let body := collect indent [] rest
      let piece : Piece := ⟨before, line.text.drop indent, line.ending.map breakValue⟩
      { body with pieces := piece :: body.pieces, size := line.size + body.size }
    else ⟨[], before, 0⟩

def startsBlank (piece : Piece) : Bool :=
  (piece.text.head?.map isBlank).getD false

-- What stands between a line and the next one.
def between (folded : Bool) (piece next : Piece) : List Char :=
  if folded && piece.ending == some '\n' && !startsBlank piece && !startsBlank next then
    if next.before.isEmpty then [' '] else []
  else piece.ending.toList

-- What stays of the breaks at the end.
def atEnd (chomp : Chomp) (ending : Option Char) (trailing : List Char) : List Char :=
  match chomp with
  | .strip => []
  | .clip => ending.toList
  | .keep => ending.toList ++ trailing

def assemble (head : Head) (trailing : List Char) : List Piece → List Char
  | [] => atEnd head.chomp none trailing
  | [piece] => piece.before ++ piece.text ++ atEnd head.chomp piece.ending trailing
  | piece :: next :: rest =>
    piece.before ++ piece.text ++ between head.folded piece next
      ++ assemble head trailing (next :: rest)

-- The text of a block scalar after its mark, inside a block of the given indentation, and
-- what follows it.
def scan? (folded : Bool) (outer : Int) (chars : List Char) : Option (List Char × List Char) := do
  let (head, after) ← readHead? folded chars
  let least := (max (outer + 1) 1).toNat
  let lines := linesOf after
  let indent :=
    match head.increment with
    | none => max least (foundIndent lines)
    | some n => least + n - 1
  let body := collect indent [] lines
  some (assemble head body.trailing body.pieces, after.drop body.size)

end ReadmeTables.Yaml.Block
