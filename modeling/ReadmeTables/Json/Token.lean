import ReadmeTables.Json.Value
import ReadmeTables.Number.Literal
import ReadmeTables.Text.Affix
/-!
The tokens of a JSON text.

`scan` gives each token with its position. A spot where no token can be read becomes a last
token that says so, and the reader reports it only if it gets there with nothing else amiss.
-/

namespace ReadmeTables.Json

-- What is wrong with the text.
inductive Fault where
  | byteOrderMark
  | value
  | key
  | colon
  | comma
  | extraData
  | openString
  | control
  | escape
  | numberEscape
deriving DecidableEq

namespace Fault

def message : Fault → Text
  | byteOrderMark => "Unexpected UTF-8 BOM (decode using utf-8-sig)"
  | value => "Expecting value"
  | key => "Expecting property name enclosed in double quotes"
  | colon => "Expecting ':' delimiter"
  | comma => "Expecting ',' delimiter"
  | extraData => "Extra data"
  | openString => "Unterminated string starting at"
  | control => "Invalid control character at"
  | escape => "Invalid \\escape"
  | numberEscape => "Invalid \\uXXXX escape"

end Fault

inductive Token where
  | beginList
  | endList
  | beginObject
  | endObject
  | colon
  | comma
  | scalar (value : Value)
  | text (t : Text)
  | brokenText (fault : Fault) (position : Nat)
  | longNumber (digits : Nat)
  | unknown

-- A string that goes on, with where the rest of it is, or why it does not end.
abbrev StringScan := Except (Fault × Nat) (Text × Nat × List Char)

def hexValue? (c : Char) : Option Nat :=
  if '0' ≤ c ∧ c ≤ '9' then some (c.toNat - '0'.toNat)
  else if 'a' ≤ c ∧ c ≤ 'f' then some (c.toNat - 'a'.toNat + 10)
  else if 'A' ≤ c ∧ c ≤ 'F' then some (c.toNat - 'A'.toNat + 10)
  else none

def hexUnit? (a b c d : Char) : Option Nat := do
  let a ← hexValue? a
  let b ← hexValue? b
  let c ← hexValue? c
  let d ← hexValue? d
  some (((a * 16 + b) * 16 + c) * 16 + d)

-- The code point of a unit of 16 bits.
def codeUnit (n : Nat) : CodePoint :=
  (CodePoint.ofNat? n).getD ' '

-- The code point of two surrogates, if they are a high and a low one.
def joinSurrogates? (high low : Nat) : Option CodePoint :=
  if 0xD800 ≤ high ∧ high < 0xDC00 ∧ 0xDC00 ≤ low ∧ low < 0xE000 then
    CodePoint.ofNat? (0x10000 + (high - 0xD800) * 0x400 + (low - 0xDC00))
  else none

def shortEscape? : Char → Option Char
  | '"' => some '"'
  | '\\' => some '\\'
  | '/' => some '/'
  | 'b' => some '\x08'
  | 'f' => some '\x0c'
  | 'n' => some '\n'
  | 'r' => some '\r'
  | 't' => some '\t'
  | _ => none

def prepend (c : CodePoint) (rest : StringScan) : StringScan :=
  rest.map fun (t, after) => (c :: t, after)

-- Scans a string from `i`, after its opening mark at `start`. An escape by number needs four
-- hexadecimal digits and one more character after them; two such escapes are joined only if
-- the second one is followed by a character, too.
def scanString (start : Nat) (i : Nat) : List Char → StringScan
  | [] => .error (.openString, start)
  | '"' :: rest => .ok ([], i + 1, rest)
  | ['\\'] => .error (.openString, start)
  | '\\' :: 'u' :: a :: b :: c :: d :: rest =>
    if rest.isEmpty then .error (.numberEscape, i + 1)
    else
      match hexUnit? a b c d with
      | none => .error (.numberEscape, i + 1)
      | some high =>
        match rest with
        | '\\' :: 'u' :: e :: f :: g :: h :: more =>
          if 0xD800 ≤ high ∧ high < 0xDC00 ∧ ¬ more.isEmpty then
            match hexUnit? e f g h with
            | none => .error (.numberEscape, i + 7)
            | some low =>
              match joinSurrogates? high low with
              | some joined => prepend joined (scanString start (i + 12) more)
              | none =>
                prepend (codeUnit high) (scanString start (i + 6) ('\\' :: 'u' :: e :: f :: g :: h :: more))
          else
            prepend (codeUnit high)
              (scanString start (i + 6) ('\\' :: 'u' :: e :: f :: g :: h :: more))
        | rest => prepend (codeUnit high) (scanString start (i + 6) rest)
  | '\\' :: 'u' :: _ => .error (.numberEscape, i + 1)
  | '\\' :: c :: rest =>
    match shortEscape? c with
    | some e => prepend e (scanString start (i + 2) rest)
    | none => .error (.escape, i)
  | c :: rest =>
    if c.toNat < 0x20 then .error (.control, i) else prepend c (scanString start (i + 1) rest)
termination_by chars => chars.length

-- A number at the front of a text: its sign, its whole digits, its fraction and exponent if
-- it has them, and what follows.
structure NumberScan where
  negative : Bool
  whole : List Char
  fraction : List Char
  exponent : Option (Bool × List Char)
  rest : List Char

def isDigit (c : Char) : Bool := '0' ≤ c && c ≤ '9'

-- The whole digits: a zero alone, or digits that begin with another.
def scanWhole : List Char → List Char × List Char
  | '0' :: rest => (['0'], rest)
  | chars => (chars.takeWhile isDigit, chars.dropWhile isDigit)

def scanFraction : List Char → List Char × List Char
  | '.' :: rest =>
    if (rest.takeWhile isDigit).isEmpty then ([], '.' :: rest)
    else (rest.takeWhile isDigit, rest.dropWhile isDigit)
  | chars => ([], chars)

def scanExponent : List Char → Option (Bool × List Char) × List Char
  | [] => (none, [])
  | c :: rest =>
    let (negative, digits) := Number.splitSign rest
    if (c == 'e' || c == 'E') && !(digits.takeWhile isDigit).isEmpty then
      (some (negative, digits.takeWhile isDigit), digits.dropWhile isDigit)
    else (none, c :: rest)

def scanNumber? (chars : List Char) : Option NumberScan :=
  let (negative, body) :=
    match chars with
    | '-' :: rest => (true, rest)
    | chars => (false, chars)
  let (whole, afterWhole) := scanWhole body
  if whole.isEmpty then none
  else
    let (fraction, afterFraction) := scanFraction afterWhole
    let (exponent, rest) := scanExponent afterFraction
    some ⟨negative, whole, fraction, exponent, rest⟩

def digitsValue (digits : List Char) : Nat :=
  digits.foldl (fun n c => n * 10 + (c.toNat - '0'.toNat)) 0

def NumberScan.token (n : NumberScan) : Token :=
  match n.fraction, n.exponent with
  | [], none =>
    if Number.digitLimit < n.whole.length then .longNumber n.whole.length
    else
      let value := digitsValue n.whole
      .scalar (.whole (if n.negative then -(value : Int) else value))
  | fraction, exponent =>
    let power : Int :=
      match exponent with
      | none => 0
      | some (negative, digits) => if negative then -(digitsValue digits : Int) else digitsValue digits
    .scalar (.real (.ofDecimal n.negative (digitsValue (n.whole ++ fraction)) (power - fraction.length)))

-- The words that stand for a value.
def words : List (List Char × Value) :=
  [("null".toList, .null), ("true".toList, .bool true), ("false".toList, .bool false),
   ("NaN".toList, .real .nan), ("Infinity".toList, .real (.infinite false)),
   ("-Infinity".toList, .real (.infinite true))]

def scanWord? (chars : List Char) : Option (Value × List Char) :=
  words.findSome? fun (word, value) => (afterPrefix? word chars).map fun rest => (value, rest)

def isBlank (c : Char) : Bool := c == ' ' || c == '\t' || c == '\n' || c == '\r'

def punctuation? : Char → Option Token
  | '[' => some .beginList
  | ']' => some .endList
  | '{' => some .beginObject
  | '}' => some .endObject
  | ':' => some .colon
  | ',' => some .comma
  | _ => none

-- The token at the front of a text that starts at `i`, and the rest with its position;
-- no rest where scanning stops.
def scanToken (i : Nat) (c : Char) (rest : List Char) : Token × Option (Nat × List Char) :=
  match punctuation? c with
  | some token => (token, some (i + 1, rest))
  | none =>
    if c = '"' then
      match scanString i (i + 1) rest with
      | .ok (t, j, after) => (.text t, some (j, after))
      | .error (fault, position) => (.brokenText fault position, none)
    else
      match scanWord? (c :: rest) with
      | some (value, after) => (.scalar value, some (i + (rest.length + 1 - after.length), after))
      | none =>
        match scanNumber? (c :: rest) with
        | some n => (n.token, some (i + (rest.length + 1 - n.rest.length), n.rest))
        | none => (.unknown, none)

-- The tokens of a text from position `i` on and the position of its end; `fuel` bounds their
-- number.
def scanFrom : Nat → Nat → List Char → List (Nat × Token) × Nat
  | 0, i, _ => ([], i)
  | _ + 1, i, [] => ([], i)
  | fuel + 1, i, c :: rest =>
    if isBlank c then scanFrom fuel (i + 1) rest
    else
      match scanToken i c rest with
      | (token, none) => ([(i, token)], i)
      | (token, some (j, after)) =>
        let (tokens, last) := scanFrom fuel j after
        ((i, token) :: tokens, last)

-- Each token takes a character at least, so their number is bounded by the text's length.
def scan (chars : List Char) : List (Nat × Token) × Nat :=
  scanFrom (chars.length + 1) 0 chars

end ReadmeTables.Json
