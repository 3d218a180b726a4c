import ReadmeTables.Text.Utf8
import ReadmeTables.Yaml.Cursor
import ReadmeTables.Yaml.Error
/-!
Anchors, tags and directives.

Each is read from the text after its mark, and what follows it must end it.
-/

namespace ReadmeTables.Yaml

-- Characters of anchors, of tag handles and of the names of directives.
def isWordChar (c : Char) : Bool :=
  ('0' ≤ c && c ≤ '9') || ('A' ≤ c && c ≤ 'Z') || ('a' ≤ c && c ≤ 'z') || c == '-' || c == '_'

-- Characters of the address of a tag.
def isAddressChar (c : Char) : Bool :=
  isWordChar c || ";/?:@&=+$,.!~*'()[]".toList.contains c

-- A tag as it is written: a handle, unless the tag is given in full, and a suffix.
structure TagName where
  handle : Option (List Char)
  suffix : List Char

inductive Directive where
  | version (major : Nat)
  | tag (handle address : List Char)
  | other

namespace Property

-- Whether an anchor or an alias may end here.
def endsAnchor (rest : List Char) : Bool :=
  atSpace rest || (rest.head?.map fun c => "?:,]\x7d%@\x60".toList.contains c).getD false

-- The name of an anchor or alias.
def anchor? (chars : List Char) : Option (List Char × List Char) :=
  let name := chars.takeWhile isWordChar
  let rest := chars.dropWhile isWordChar
  if name.isEmpty || !endsAnchor rest then none else some (name, rest)

def hexDigit? (c : Char) : Option Nat :=
  if '0' ≤ c ∧ c ≤ '9' then some (c.toNat - '0'.toNat)
  else if 'a' ≤ c ∧ c ≤ 'f' then some (c.toNat - 'a'.toNat + 10)
  else if 'A' ≤ c ∧ c ≤ 'F' then some (c.toNat - 'A'.toNat + 10)
  else none

def hexByte? (a b : Char) : Option UInt8 := do
  let high ← hexDigit? a
  let low ← hexDigit? b
  some (UInt8.ofNat (high * 16 + low))

-- The address of a tag, where bytes may be written as escapes; `bytes` are those of the
-- escapes just passed.
def addressFrom? (bytes : Utf8.Bytes) : List Char → Option (List Char × List Char)
  | '%' :: a :: b :: rest => do
    let byte ← hexByte? a b
    addressFrom? (bytes ++ [byte]) rest
  | '%' :: _ => none
  | c :: rest => do
    let decoded ← (Utf8.decode bytes).toOption
    if isAddressChar c then
      let (more, after) ← addressFrom? [] rest
      some (decoded ++ c :: more, after)
    else some (decoded, c :: rest)
  | [] => do
    let decoded ← (Utf8.decode bytes).toOption
    some (decoded, [])

def address? (chars : List Char) : Option (List Char × List Char) := do
  let (address, rest) ← addressFrom? [] chars
  if rest.length = chars.length then none else some (address, rest)

-- A handle: one mark, two of them, or a word between two. In a directive a mark and a space
-- are a handle, too.
def handle? : List Char → Option (List Char × List Char)
  | '!' :: rest =>
    if rest.head? = some ' ' then some (['!'], rest)
    else
      match rest.dropWhile isWordChar with
      | '!' :: after => some ('!' :: rest.takeWhile isWordChar ++ ['!'], after)
      | _ => none
  | _ => none

-- Whether a second mark stands in what is left of a word.
def holdsMark (chars : List Char) : Bool :=
  (chars.takeWhile fun c => !(c == ' ' || isBreak c)).contains '!'

-- A tag, from its mark on.
def tag? (chars : List Char) : Option (TagName × List Char) := do
  let (name, rest) ← (match chars.drop 1 with
    | '<' :: inner => do
      let (address, rest) ← address? inner
      match rest with
      | '>' :: after => some ((⟨none, address⟩ : TagName), after)
      | _ => none
    | inner =>
      if atSpace inner then some (⟨none, ['!']⟩, inner)
      else do
        let (handle, rest) ← if holdsMark inner then handle? chars else some (['!'], inner)
        let (suffix, after) ← address? rest
        some (⟨some handle, suffix⟩, after))
  if atSpaceOrLineEnd rest then some (name, rest) else none

def isDigit (c : Char) : Bool := '0' ≤ c && c ≤ '9'

-- A number of a version; it is read as a whole number of any program is.
def number (chars : List Char) : Except Error (Nat × List Char) :=
  let digits := chars.takeWhile isDigit
  if digits.isEmpty then .error .malformed
  else if Number.digitLimit < digits.length then .error (.tooManyDigits digits.length)
  else .ok (digits.foldl (fun n c => n * 10 + (c.toNat - '0'.toNat)) 0, chars.dropWhile isDigit)

def orMalformed (o : Option α) : Except Error α :=
  match o with
  | some a => .ok a
  | none => .error .malformed

def dropSpaces (chars : List Char) : List Char :=
  chars.dropWhile (· == ' ')

def version (chars : List Char) : Except Error (Directive × List Char) := do
  let (major, rest) ← number (dropSpaces chars)
  match rest with
  | '.' :: rest =>
    let (_, rest) ← number rest
    if atSpaceOrLineEnd rest then .ok (.version major, rest) else .error .malformed
  | _ => .error .malformed

def tagDirective? (chars : List Char) : Option (Directive × List Char) := do
  let (handle, rest) ← handle? (dropSpaces chars)
  if rest.head? = some ' ' then
    let (address, rest) ← address? (dropSpaces rest)
    if atSpaceOrLineEnd rest then some (.tag handle address, rest) else none
  else none

-- What must stand after a directive: nothing but a comment.
def endLine? (chars : List Char) : Option (List Char) :=
  let rest := dropSpaces chars
  let rest := if rest.head? = some '#' then rest.dropWhile fun c => !isBreak c else rest
  if atLineEnd rest then some (rest.drop 1) else none

-- A directive, after its mark.
def directive (chars : List Char) : Except Error (Directive × List Char) := do
  let name := chars.takeWhile isWordChar
  let rest := chars.dropWhile isWordChar
  if name.isEmpty || !atSpaceOrLineEnd rest then .error .malformed
  else
    let (directive, rest) ←
      if name = "YAML".toList then version rest
      else if name = "TAG".toList then orMalformed (tagDirective? rest)
      else .ok (.other, rest.dropWhile fun c => !isBreak c)
    let rest ← orMalformed (endLine? rest)
    .ok (directive, rest)

end Property

end ReadmeTables.Yaml
