import ReadmeTables.Yaml.Block
import ReadmeTables.Yaml.Plain
import ReadmeTables.Yaml.Property
import ReadmeTables.Yaml.Quoted
/-!
The tokens of a YAML text.

Blocks are told by indentation, so the layout keeps the columns of the open ones and closes
them at lines that are indented less. A word turns out to be a key only at the colon after
it: the place of each word that may be a key is kept until then, and its slot gets the tokens
that begin a key. A key ends on the line on which it began, within 1024 characters.
-/

namespace ReadmeTables.Yaml

inductive Token where
  | directive (directive : Directive)
  | documentStart
  | documentEnd
  | streamEnd
  | blockSequenceStart
  | blockMappingStart
  | blockEnd
  | flowSequenceStart
  | flowSequenceEnd
  | flowMappingStart
  | flowMappingEnd
  | entry
  | separator
  | key
  | value
  | alias (name : List Char)
  | anchor (name : List Char)
  | tag (name : TagName)
  | scalar (text : Text) (plain : Bool)

-- How the tokens of a text end: at its end, or where a character has no meaning.
inductive Ending where
  | complete
  | broken (error : Error)

structure Stream where
  tokens : List Token
  ending : Ending

namespace Layout

-- A word that may turn out to be a key: its slot, its place, and whether it must be one.
structure Candidate where
  slot : Nat
  required : Bool
  index : Nat
  line : Nat
  column : Nat

-- A token with those that were put before it later.
structure Slot where
  before : List Token
  token : Token

-- `keyAllowed` says whether a key may begin here. `candidates` has at most one word for each
-- level of brackets.
structure State where
  cursor : Cursor
  slots : Array Slot
  indent : Int
  indents : List Int
  level : Nat
  keyAllowed : Bool
  candidates : List (Nat × Candidate)

def State.start (chars : List Char) : State :=
  ⟨Cursor.start chars, #[], -1, [], 0, true, []⟩

def tokensOf (slots : List Slot) : List Token :=
  slots.flatMap fun slot => slot.before ++ [slot.token]

namespace State

def emit (s : State) (token : Token) : State :=
  { s with slots := s.slots.push ⟨[], token⟩ }

def moveTo (s : State) (rest : List Char) : State :=
  { s with cursor := s.cursor.moveTo rest }

def inFlow (s : State) : Bool := s.level ≠ 0

-- Whether a candidate can be no key any more.
def isStale (s : State) (c : Candidate) : Bool :=
  c.line ≠ s.cursor.line || 1024 < s.cursor.index - c.index

-- Forgets the words that can be no key any more; none of them may be one that must be.
def dropStale (s : State) : Except Error State :=
  if s.candidates.any fun (_, c) => s.isStale c && c.required then .error .malformed
  else .ok { s with candidates := s.candidates.filter fun (_, c) => !s.isStale c }

def candidate? (s : State) : Option Candidate :=
  (s.candidates.find? fun (level, _) => level = s.level).map Prod.snd

def forgetCandidate (s : State) : State :=
  { s with candidates := s.candidates.filter fun (level, _) => level ≠ s.level }

-- Gives up the word of this level.
def dropCandidate (s : State) : Except Error State :=
  match s.candidate? with
  | some c => if c.required then .error .malformed else .ok s.forgetCandidate
  | none => .ok s

-- Keeps the place of the word that begins here.
def keepCandidate (s : State) : Except Error State :=
  if s.keyAllowed then do
    let s ← s.dropCandidate
    let required := !s.inFlow && s.indent = s.cursor.column
    let c : Candidate :=
      ⟨s.slots.size, required, s.cursor.index, s.cursor.line, s.cursor.column⟩
    .ok { s with candidates := (s.level, c) :: s.candidates }
  else .ok s

-- Closes the blocks of larger columns, from the columns of the blocks around them.
def closeBlocks (column : Int) : List Int → State → State
  | [], s => s
  | outer :: rest, s =>
    if column < s.indent then
      closeBlocks column rest { s.emit .blockEnd with indent := outer, indents := rest }
    else s

def closeTo (s : State) (column : Int) : State :=
  if s.inFlow then s else closeBlocks column s.indents s

-- Opens a block at a column, unless one is open there; says whether it did.
def openAt (s : State) (column : Nat) : State × Bool :=
  if s.indent < column then ({ s with indents := s.indent :: s.indents, indent := column }, true)
  else (s, false)

-- Opens a block here, and emits its first token if it is new.
def openBlock (s : State) (token : Token) : State :=
  match s.openAt s.cursor.column with
  | (s, true) => s.emit token
  | (s, false) => s

-- Passes blanks, comments and line breaks; after a break a key may begin, except between
-- brackets.
def passBlanks : Nat → State → State
  | 0, s => s
  | fuel + 1, s =>
    let cursor := s.cursor.skipSpaces.skipComment
    match cursor.rest with
    | c :: _ =>
      if isBreak c then
        passBlanks fuel { s with cursor := cursor.skip 1, keyAllowed := s.keyAllowed || !s.inFlow }
      else { s with cursor := cursor }
    | [] => { s with cursor := cursor }

-- Goes to the next token. A byte order mark at the beginning is passed, too.
def toNext (s : State) : State :=
  let s :=
    if s.cursor.index = 0 ∧ s.cursor.rest.head? = some byteOrderMark then
      { s with cursor := s.cursor.skip 1 }
    else s
  passBlanks (s.cursor.rest.length + 1) s

-- Ends what is open outside of brackets, as a document mark or a directive does.
def endDocument (s : State) : Except Error State := do
  let s ← (s.closeTo (-1)).dropCandidate
  .ok { s with keyAllowed := false }

def takeDocumentMark (s : State) (token : Token) : Except Error State := do
  let s ← s.endDocument
  .ok ({ s with cursor := s.cursor.skip 3 }.emit token)

def takeDirective (s : State) (rest : List Char) : Except Error State := do
  let s ← s.endDocument
  let (directive, after) ← Property.directive rest
  .ok ((s.moveTo after).emit (.directive directive))

def openFlow (s : State) (token : Token) : Except Error State := do
  let s ← s.keepCandidate
  .ok ({ s with level := s.level + 1, keyAllowed := true, cursor := s.cursor.skip 1 }.emit token)

-- Closes brackets; there must be open ones.
def closeFlow (s : State) (token : Token) : Except Error State := do
  let s ← s.dropCandidate
  if s.level = 0 then .error .malformed
  else
    .ok ({ s with level := s.level - 1, keyAllowed := false, cursor := s.cursor.skip 1 }.emit token)

def takeSeparator (s : State) : Except Error State := do
  let s ← { s with keyAllowed := true }.dropCandidate
  .ok ({ s with cursor := s.cursor.skip 1 }.emit .separator)

-- Takes the mark of an entry. Between brackets the mark is kept, and has no place there.
def takeEntry (s : State) : Except Error State := do
  if !s.inFlow && !s.keyAllowed then .error .malformed
  else
    let s := if s.inFlow then s else s.openBlock .blockSequenceStart
    let s ← { s with keyAllowed := true }.dropCandidate
    .ok ({ s with cursor := s.cursor.skip 1 }.emit .entry)

def takeKey (s : State) : Except Error State := do
  if !s.inFlow && !s.keyAllowed then .error .malformed
  else
    let s := if s.inFlow then s else s.openBlock .blockMappingStart
    let s ← { s with keyAllowed := !s.inFlow }.dropCandidate
    .ok ({ s with cursor := s.cursor.skip 1 }.emit .key)

-- Makes a word a key: the tokens that begin a key go before its slot.
def makeKey (s : State) (c : Candidate) : State :=
  let s := s.forgetCandidate
  let (s, isNew) := if s.inFlow then (s, false) else s.openAt c.column
  let before := if isNew then [Token.blockMappingStart, .key] else [.key]
  { s with slots := s.slots.modify c.slot fun slot => { slot with before := before }
           keyAllowed := false }

def takeValue (s : State) : Except Error State := do
  let s ←
    match s.candidate? with
    | some c => .ok (s.makeKey c)
    | none =>
      if !s.inFlow && !s.keyAllowed then .error .malformed
      else
        let s := if s.inFlow then s else s.openBlock .blockMappingStart
        { s with keyAllowed := !s.inFlow }.dropCandidate
  .ok ({ s with cursor := s.cursor.skip 1 }.emit .value)

-- Takes something that may be, or begin, a key.
def takeWord (s : State) (scan : Except Error (Token × List Char)) : Except Error State := do
  let s ← s.keepCandidate
  let (token, rest) ← scan
  .ok (({ s with keyAllowed := false }.moveTo rest).emit token)

def takePlain (s : State) (chars : List Char) : Except Error State := do
  let s ← s.keepCandidate
  let scan := Plain.scan ⟨s.inFlow, s.indent + 1⟩ chars
  .ok (({ s with keyAllowed := scan.crossed }.moveTo scan.rest).emit
    (.scalar (Text.ofChars scan.text) true))

def takeBlock (s : State) (folded : Bool) (rest : List Char) : Except Error State := do
  let s ← { s with keyAllowed := true }.dropCandidate
  let (text, after) ← Property.orMalformed (Block.scan? folded s.indent rest)
  .ok ((s.moveTo after).emit (.scalar (Text.ofChars text) false))

def quoted (style : Quoted.Style) (rest : List Char) : Except Error (Token × List Char) :=
  (Quoted.scan style rest).map fun (t, after) => (.scalar t false, after)

def named (make : List Char → Token) (rest : List Char) : Except Error (Token × List Char) :=
  (Property.orMalformed (Property.anchor? rest)).map fun (name, after) => (make name, after)

def tagToken (chars : List Char) : Except Error (Token × List Char) :=
  (Property.orMalformed (Property.tag? chars)).map fun (name, after) => (.tag name, after)

-- Marks that a plain scalar does not begin with, unless a word goes on after them.
def isIndicator (c : Char) : Bool :=
  "-?:,[]\x7b\x7d#&*!|>'\"%@\x60".toList.contains c

-- Whether a plain scalar begins here.
def startsPlain (s : State) (c : Char) (rest : List Char) : Bool :=
  !(isBlank c || isBreak c || isIndicator c)
    || (!atSpace rest && (c == '-' || (!s.inFlow && (c == '?' || c == ':'))))

-- Takes the token that begins with `c`.
def take (s : State) (c : Char) (rest : List Char) : Except Error State :=
  let lineStart := s.cursor.column = 0
  if lineStart ∧ c = '%' then s.takeDirective rest
  else if lineStart ∧ beginsWithMark '-' (c :: rest) then s.takeDocumentMark .documentStart
  else if lineStart ∧ beginsWithMark '.' (c :: rest) then s.takeDocumentMark .documentEnd
  else if c = '[' then s.openFlow .flowSequenceStart
  else if c = '\x7b' then s.openFlow .flowMappingStart
  else if c = ']' then s.closeFlow .flowSequenceEnd
  else if c = '\x7d' then s.closeFlow .flowMappingEnd
  else if c = ',' then s.takeSeparator
  else if c = '-' ∧ atSpace rest then s.takeEntry
  else if c = '?' ∧ (s.inFlow ∨ atSpace rest) then s.takeKey
  else if c = ':' ∧ (s.inFlow ∨ atSpace rest) then s.takeValue
  else if c = '*' then s.takeWord (named .alias rest)
  else if c = '&' then s.takeWord (named .anchor rest)
  else if c = '!' then s.takeWord (tagToken (c :: rest))
  else if c = '|' ∧ ¬ s.inFlow then s.takeBlock false rest
  else if c = '>' ∧ ¬ s.inFlow then s.takeBlock true rest
  else if c = '\'' then s.takeWord (quoted .single rest)
  else if c = '"' then s.takeWord (quoted .double rest)
  else if s.startsPlain c rest then s.takePlain (c :: rest)
  else .error .malformed

-- Takes the next token; none at the end of the text, where all that is open is closed.
def step (s : State) : Except Error (State × Bool) := do
  let s ← s.toNext.dropStale
  let s := s.closeTo s.cursor.column
  match s.cursor.rest with
  | [] => do
    let s ← s.endDocument
    .ok (s.emit .streamEnd, false)
  | c :: rest => do
    let next ← s.take c rest
    .ok (next, true)

-- How many slots are certain to get no more tokens before them.
def settled (s : State) : Nat :=
  s.candidates.foldl (fun n (_, c) => min n c.slot) s.slots.size

-- Takes all tokens. Where a character has no meaning, only the tokens that were certain by
-- then are given.
def run : Nat → State → Stream
  | 0, s => ⟨tokensOf s.slots.toList, .complete⟩
  | fuel + 1, s =>
    match s.dropStale with
    | .error e => ⟨[], .broken e⟩
    | .ok s =>
      match s.step with
      | .error e => ⟨tokensOf (s.slots.toList.take s.settled), .broken e⟩
      | .ok (next, true) => run fuel next
      | .ok (next, false) => ⟨tokensOf next.slots.toList, .complete⟩

end State

end Layout

-- The tokens of a text. Each takes a character at least, and one is left for the end.
def Stream.ofChars (chars : List Char) : Stream :=
  if chars.all isAllowed then Layout.State.run (chars.length + 1) (Layout.State.start chars)
  else ⟨[], .broken .malformed⟩

end ReadmeTables.Yaml
