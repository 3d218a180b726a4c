import ReadmeTables.Yaml.Cursor
/-!
Plain scalars.

A plain scalar goes on over spaces and line breaks as long as words follow. Line breaks fold
as in quoted scalars. It ends before a comment, before a colon that ends a key, at a line
that is not indented enough or starts or ends a document, and inside brackets at their marks.
-/

namespace ReadmeTables.Yaml.Plain

-- What is around a scalar: whether it stands inside brackets, and the least column at which
-- a further line of it may begin.
structure Context where
  inFlow : Bool
  indent : Int

inductive Mode where
  | word
  | gap (spaces : List Char)
  | lines (first : Char) (more : List Char) (column : Nat) (fresh : Bool)

-- Marks that end a word inside brackets.
def isFlowMark (c : Char) : Bool :=
  c == ',' || c == '?' || c == '[' || c == ']' || c == '\x7b' || c == '\x7d'

-- Marks that make the colon before them end a key inside brackets.
def endsFlowKey (c : Char) : Bool :=
  c == ',' || c == '[' || c == ']' || c == '\x7b' || c == '\x7d'

-- Whether a word ends before `c`, which `rest` follows.
def stops (context : Context) (c : Char) (rest : List Char) : Bool :=
  isBlank c || isBreak c
    || (c == ':' && (atSpace rest || (context.inFlow && (rest.head?.map endsFlowKey).getD false)))
    || (context.inFlow && isFlowMark c)

-- What line breaks between two words become.
def foldText (first : Char) (more : List Char) : List Char :=
  if first ≠ '\n' then first :: more
  else if more.isEmpty then [' ']
  else more

-- The text of a scalar, what follows it, and whether a line break was passed after the last
-- word.
structure Scan where
  text : List Char
  rest : List Char
  crossed : Bool

def Scan.prepend (chars : List Char) (scan : Scan) : Scan :=
  { scan with text := chars ++ scan.text }

def scanFrom (context : Context) : Mode → List Char → Scan
  | .lines _ _ _ _, [] => ⟨[], [], true⟩
  | _, [] => ⟨[], [], false⟩
  | .word, c :: rest =>
    if c = ' ' then scanFrom context (.gap [' ']) rest
    else if isBreak c then scanFrom context (.lines (breakValue c) [] 0 true) rest
    else if stops context c rest then ⟨[], c :: rest, false⟩
    else (scanFrom context .word rest).prepend [c]
  | .gap spaces, c :: rest =>
    if c = ' ' then scanFrom context (.gap (spaces ++ [' '])) rest
    else if isBreak c then scanFrom context (.lines (breakValue c) [] 0 true) rest
    else if c = '#' || stops context c rest then ⟨[], c :: rest, false⟩
    else (scanFrom context .word rest).prepend (spaces ++ [c])
  | .lines first more column fresh, c :: rest =>
    if fresh && atDocumentMark (c :: rest) then ⟨[], c :: rest, true⟩
    else if c = ' ' then scanFrom context (.lines first more (column + 1) false) rest
    else if isBreak c then scanFrom context (.lines first (more ++ [breakValue c]) 0 true) rest
    else if c = '#' || stops context c rest || (!context.inFlow && (column : Int) < context.indent) then
      ⟨[], c :: rest, true⟩
    else (scanFrom context .word rest).prepend (foldText first more ++ [c])

def scan (context : Context) (chars : List Char) : Scan :=
  scanFrom context .word chars

end ReadmeTables.Yaml.Plain
