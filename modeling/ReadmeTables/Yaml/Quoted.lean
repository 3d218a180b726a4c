import ReadmeTables.Yaml.Cursor
import ReadmeTables.Yaml.Error
/-!
Quoted scalars.

Between single quotes a quote is written twice. Between double quotes a backslash begins an
escape. In both, a line break with the white space around it is folded: one break becomes a
space, and of more the first is left out.
-/

namespace ReadmeTables.Yaml.Quoted

inductive Style where
  | single
  | double
deriving DecidableEq

def Style.mark : Style → Char
  | single => '\''
  | double => '"'

-- What follows a line break inside a scalar: the line breaks after it, and whether the next
-- character begins a line. `first` is the break itself, unless it was escaped.
structure Fold where
  first : Option Char
  more : List Char
  fresh : Bool

-- What folded line breaks become.
def Fold.text (fold : Fold) : List Char :=
  match fold.first with
  | none => fold.more
  | some c =>
    if c ≠ '\n' then c :: fold.more
    else if fold.more.isEmpty then [' ']
    else fold.more

inductive Mode where
  | text (pending : List Char)
  | folding (fold : Fold)

def Mode.rank : Mode → Nat
  | text _ => 0
  | folding _ => 1

-- The escapes that stand for one character.
def escape? : Char → Option Char
  | '0' => some '\x00'
  | 'a' => some '\x07'
  | 'b' => some '\x08'
  | 't' => some '\t'
  | '\t' => some '\t'
  | 'n' => some '\n'
  | 'v' => some '\x0b'
  | 'f' => some '\x0c'
  | 'r' => some '\r'
  | 'e' => some '\x1b'
  | ' ' => some ' '
  | '"' => some '"'
  | '\\' => some '\\'
  | '/' => some '/'
  | 'N' => some '\x85'
  | '_' => some '\xa0'
  | 'L' => some '\u2028'
  | 'P' => some '\u2029'
  | _ => none

-- How many hexadecimal digits an escape by number has.
def escapeWidth? : Char → Option Nat
  | 'x' => some 2
  | 'u' => some 4
  | 'U' => some 8
  | _ => none

def hexValue? (c : Char) : Option Nat :=
  if '0' ≤ c ∧ c ≤ '9' then some (c.toNat - '0'.toNat)
  else if 'a' ≤ c ∧ c ≤ 'f' then some (c.toNat - 'a'.toNat + 10)
  else if 'A' ≤ c ∧ c ≤ 'F' then some (c.toNat - 'A'.toNat + 10)
  else none

-- The number of the digits, if there are as many as there should be.
def hexNumber? (width : Nat) (digits : List Char) : Option Nat :=
  if digits.length < width then none
  else digits.foldlM (fun n c => (hexValue? c).map fun v => n * 16 + v) 0

def codePoint (n : Nat) : Except Error CodePoint :=
  match CodePoint.ofNat? n with
  | some c => .ok c
  | none => if n < 0x80000000 then .error .codePointRange else .error .codePointSize

abbrev Scan := Except Error (Text × List Char)

def prepend (t : Text) (scan : Scan) : Scan :=
  scan.map fun (rest, after) => (t ++ rest, after)

-- Scans the inside of a scalar up to its closing mark; gives its text and what follows.
def scanFrom (style : Style) : Mode → List Char → Scan
  | .text _, [] => .error .malformed
  | .folding _, [] => .error .malformed
  | .folding fold, c :: rest =>
    if fold.fresh && atDocumentMark (c :: rest) then .error .malformed
    else if isBlank c then scanFrom style (.folding { fold with fresh := false }) rest
    else if isBreak c then
      scanFrom style (.folding { fold with more := fold.more ++ [breakValue c], fresh := true }) rest
    else prepend (Text.ofChars fold.text) (scanFrom style (.text []) (c :: rest))
  | .text pending, c :: rest =>
    if isBlank c then scanFrom style (.text (pending ++ [c])) rest
    else if isBreak c then scanFrom style (.folding ⟨some (breakValue c), [], true⟩) rest
    else
      let before := Text.ofChars pending
      if c = style.mark then
        match style, rest with
        | .single, '\'' :: more => prepend (before ++ "'") (scanFrom style (.text []) more)
        | _, rest => .ok (before, rest)
      else if style = .double ∧ c = '\\' then
        match rest with
        | [] => .error .malformed
        | e :: more =>
          match escape? e, escapeWidth? e with
          | some value, _ => prepend (before ++ [↑value]) (scanFrom style (.text []) more)
          | none, some width =>
            match hexNumber? width (more.take width) with
            | none => .error .malformed
            | some n => do
              let value ← codePoint n
              prepend (before ++ [value]) (scanFrom style (.text []) (more.drop width))
          | none, none =>
            if isBreak e then prepend before (scanFrom style (.folding ⟨none, [], true⟩) more)
            else .error .malformed
      else prepend (before ++ [↑c]) (scanFrom style (.text []) rest)
termination_by mode chars => (chars.length, mode.rank)
decreasing_by
  all_goals
    simp only [Prod.lex_def, Mode.rank, List.length_cons, List.length_drop, true_and]
    omega

def scan (style : Style) (chars : List Char) : Scan :=
  scanFrom style (.text []) chars

end ReadmeTables.Yaml.Quoted
