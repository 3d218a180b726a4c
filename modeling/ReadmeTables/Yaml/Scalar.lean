import ReadmeTables.Text.Lowercase
import ReadmeTables.Yaml.Error
/-!
The types of scalars and their values.

A plain scalar without a tag has the type whose form its text has, or else it is a text. A
final line feed is no part of the form. No form holds a lone surrogate. A mark of an anchor, an
alias or a tag, alone, has the form of a type without values.
-/

namespace ReadmeTables.Yaml

inductive Tag where
  | null
  | truth
  | whole
  | real
  | text
  | bytes
  | moment
  | sequence
  | mapping
  | set
  | orderedMap
  | pairs
  | merge
  | default
  | unknown
deriving DecidableEq

namespace Tag

-- The tags by their full names.
def standardPrefix : List Char := "tag:yaml.org,2002:".toList

def standard : List (List Char × Tag) :=
  [("null".toList, null), ("bool".toList, truth), ("int".toList, whole), ("float".toList, real),
   ("str".toList, text), ("binary".toList, bytes), ("timestamp".toList, moment),
   ("seq".toList, sequence), ("map".toList, mapping), ("set".toList, set),
   ("omap".toList, orderedMap), ("pairs".toList, pairs), ("merge".toList, merge),
   ("value".toList, default)]

def ofName (name : List Char) : Tag :=
  ((standard.find? fun entry => standardPrefix ++ entry.1 = name).map Prod.snd).getD unknown

end Tag

-- Forms of text.

namespace Form

def isDigit (c : Char) : Bool := '0' ≤ c && c ≤ '9'

def isDigitOrGap (c : Char) : Bool := isDigit c || c == '_'

def isBinary (c : Char) : Bool := c == '0' || c == '1' || c == '_'

def isOctal (c : Char) : Bool := ('0' ≤ c && c ≤ '7') || c == '_'

def isHex (c : Char) : Bool :=
  isDigitOrGap c || ('a' ≤ c && c ≤ 'f') || ('A' ≤ c && c ≤ 'F')

def dropSign : List Char → List Char
  | '-' :: rest => rest
  | '+' :: rest => rest
  | chars => chars

def someAll (p : Char → Bool) (chars : List Char) : Bool :=
  !chars.isEmpty && chars.all p

-- Cuts a text at every colon.
def fields : List Char → List (List Char)
  | [] => [[]]
  | c :: rest =>
    if c = ':' then [] :: fields rest
    else
      match fields rest with
      | [] => [[c]]
      | field :: more => (c :: field) :: more

-- A field of base sixty: one digit, or two of which the first is at most five.
def isSixty : List Char → Bool
  | [a] => isDigit a
  | [a, b] => '0' ≤ a && a ≤ '5' && isDigit b
  | _ => false

def isSixties : List (List Char) → Bool
  | [] => false
  | [_] => false
  | _ :: rest => rest.all isSixty

def startsNonZero : List Char → Bool
  | c :: rest => '1' ≤ c && c ≤ '9' && rest.all isDigitOrGap
  | [] => false

def isWholeBody : List Char → Bool
  | '0' :: 'b' :: rest => someAll isBinary rest
  | '0' :: 'x' :: rest => someAll isHex rest
  | ['0'] => true
  | '0' :: rest => rest.all isOctal
  | chars =>
    startsNonZero chars
      || (isSixties (fields chars) && startsNonZero ((fields chars).headD []))

def isWhole (chars : List Char) : Bool :=
  isWholeBody (dropSign chars)

-- The exponent of a number: nothing, or a mark with a sign and digits.
def isExponent : List Char → Bool
  | [] => true
  | [_] => false
  | e :: sign :: digits =>
    (e == 'e' || e == 'E') && (sign == '-' || sign == '+') && someAll isDigit digits

def startsDigit : List Char → Bool
  | c :: rest => isDigit c && rest.all isDigitOrGap
  | [] => false

-- Digits, a point, more digits, and an exponent.
def isPointed (chars : List Char) : Bool :=
  let whole := chars.takeWhile isDigitOrGap
  match chars.dropWhile isDigitOrGap with
  | '.' :: rest => startsDigit whole && isExponent (rest.dropWhile isDigitOrGap)
  | _ => false

-- Fields of base sixty, with a point after the last one.
def isPointedSixties (chars : List Char) : Bool :=
  let whole := chars.takeWhile (· ≠ '.')
  match chars.dropWhile (· ≠ '.') with
  | '.' :: rest =>
    isSixties (fields whole) && startsDigit ((fields whole).headD []) && rest.all isDigitOrGap
  | _ => false

def isInfinity (chars : List Char) : Bool :=
  chars = ".inf".toList || chars = ".Inf".toList || chars = ".INF".toList

def isNan (chars : List Char) : Bool :=
  chars = ".nan".toList || chars = ".NaN".toList || chars = ".NAN".toList

-- A point and digits, without a sign.
def isFraction : List Char → Bool
  | '.' :: c :: rest => isDigit c && isExponent (rest.dropWhile isDigitOrGap)
  | _ => false

def isReal (chars : List Char) : Bool :=
  let body := dropSign chars
  isPointed body || isFraction chars || isPointedSixties body || isInfinity body || isNan chars

def truths : List (List Char × Bool) :=
  [("yes".toList, true), ("no".toList, false), ("true".toList, true), ("false".toList, false),
   ("on".toList, true), ("off".toList, false)]

-- A word in small letters, in capitals, or with a capital in front.
def isSpelling (word chars : List Char) : Bool :=
  chars = word || chars = word.map Char.toUpper
    || chars = (word.take 1).map Char.toUpper ++ word.drop 1

def isTruth (chars : List Char) : Bool :=
  truths.any fun (word, _) => isSpelling word chars

def isNull (chars : List Char) : Bool :=
  chars.isEmpty || chars = ['~'] || isSpelling "null".toList chars

end Form

-- The parts of a date and time, as they are written.
structure MomentText where
  year : Nat
  month : Nat
  day : Nat
  time : Option (Nat × Nat × Nat)
  offset : Option (Bool × Nat × Nat)

namespace MomentText

def value (digits : List Char) : Nat :=
  digits.foldl (fun n c => n * 10 + (c.toNat - '0'.toNat)) 0

-- Between `least` and `most` digits; none if there are fewer.
def digits? (least most : Nat) (chars : List Char) : Option (List Char × List Char) :=
  let digits := (chars.take most).takeWhile Form.isDigit
  if digits.length < least then none else some (digits, chars.drop digits.length)

def char? (c : Char) : List Char → Option (List Char)
  | d :: rest => if d = c then some rest else none
  | [] => none

def isGap (c : Char) : Bool := c == ' ' || c == '\t'

-- What stands between a date and a time: a letter, or white space.
def gap? : List Char → Option (List Char)
  | [] => none
  | c :: rest =>
    if c = 'T' ∨ c = 't' then some rest
    else if isGap c then some (rest.dropWhile isGap)
    else none

-- The offset of a time: nothing, the letter for none, or a sign, hours and maybe minutes.
def offset? (chars : List Char) : Option (Option (Bool × Nat × Nat)) :=
  match chars.dropWhile isGap with
  | [] => if chars.isEmpty then some none else none
  | ['Z'] => some none
  | sign :: rest =>
    if sign = '-' ∨ sign = '+' then do
      let (hours, rest) ← digits? 1 2 rest
      match rest with
      | [] => some (some (sign == '-', value hours, 0))
      | rest =>
        let (minutes, rest) ← (char? ':' rest).bind (digits? 2 2)
        if rest.isEmpty then some (some (sign == '-', value hours, value minutes)) else none
    else none

def time? (chars : List Char) : Option ((Nat × Nat × Nat) × Option (Bool × Nat × Nat)) := do
  let (hour, rest) ← digits? 1 2 chars
  let (minute, rest) ← (char? ':' rest).bind (digits? 2 2)
  let (second, rest) ← (char? ':' rest).bind (digits? 2 2)
  let rest :=
    match rest with
    | '.' :: more => more.dropWhile Form.isDigit
    | rest => rest
  let offset ← offset? rest
  some ((value hour, value minute, value second), offset)

-- A date, alone or with a time. Where `strict`, a date alone has two digits for the month
-- and the day.
def read? (strict : Bool) (chars : List Char) : Option MomentText := do
  let (year, rest) ← digits? 4 4 chars
  let (month, rest) ← (char? '-' rest).bind (digits? 1 2)
  let (day, rest) ← (char? '-' rest).bind (digits? 1 2)
  match rest with
  | [] =>
    if strict ∧ (month.length < 2 ∨ day.length < 2) then none
    else some ⟨value year, value month, value day, none, none⟩
  | rest =>
    let (time, offset) ← (gap? rest).bind time?
    some ⟨value year, value month, value day, some time, offset⟩

def isLeap (year : Nat) : Bool :=
  year % 4 = 0 ∧ (year % 100 ≠ 0 ∨ year % 400 = 0)

def daysIn (year month : Nat) : Nat :=
  if month = 2 then (if isLeap year then 29 else 28)
  else if month = 4 ∨ month = 6 ∨ month = 9 ∨ month = 11 then 30
  else 31

def checkDate (m : MomentText) : Except MomentFault Unit :=
  if m.year = 0 then .error .year
  else if m.month < 1 ∨ 12 < m.month then .error .month
  else if m.day < 1 ∨ daysIn m.year m.month < m.day then .error .day
  else .ok ()

def checkTime (hour minute second : Nat) : Except MomentFault Unit :=
  if 23 < hour then .error .hour
  else if 59 < minute then .error .minute
  else if 59 < second then .error .second
  else .ok ()

def checkOffset : Option (Bool × Nat × Nat) → Except MomentFault Unit
  | none => .ok ()
  | some (negative, hours, minutes) =>
    if 24 * 60 ≤ hours * 60 + minutes then .error (.offset negative hours minutes) else .ok ()

-- Whether the parts make a date and time. The offset is looked at first.
def check (m : MomentText) : Except MomentFault Unit :=
  match m.time with
  | none => m.checkDate
  | some (hour, minute, second) => do
    checkOffset m.offset
    m.checkDate
    checkTime hour minute second

end MomentText

-- Whether a text is nothing but a mark that begins an anchor, an alias or a tag.
def Form.isMark (chars : List Char) : Bool :=
  chars = ['&'] || chars = ['*'] || chars = ['!']

def withoutFinalFeed (chars : List Char) : List Char :=
  if chars.getLast? = some '\n' then chars.dropLast else chars

-- The type that the form of characters tells.
def Tag.ofChars (chars : List Char) : Tag :=
  let body := withoutFinalFeed chars
  if chars = ['\n'] then text
  else if Form.isTruth body then truth
  else if Form.isReal body then real
  else if Form.isWhole body then whole
  else if body = ['<', '<'] then merge
  else if Form.isNull body then null
  else if (MomentText.read? true body).isSome then moment
  else if body = ['='] then default
  else if Form.isMark body then unknown
  else text

-- The type that the form of a plain scalar tells.
def Tag.ofForm (t : Text) : Tag :=
  match t.chars? with
  | some chars => ofChars chars
  | none => text

-- The value of a scalar.
inductive Scalar where
  | null
  | truth (b : Bool)
  | whole (n : Int)
  | real (x : Double)
  | text (t : Text)
  | moment
  | bytes (isEmpty : Bool)
deriving DecidableEq

namespace Scalar

def withoutGaps (t : Text) : Text :=
  t.without '_'

def readWhole (base : Nat) (t : Text) : Except Error Int :=
  match Number.readInt base t with
  | .ok n => .ok n
  | .error (.tooManyDigits count) => .error (.tooManyDigits count)
  | .error .malformed => .error (.badWhole base t)

-- The sum of fields of base sixty, the last one counting once.
def sixties (values : List Int) : Int :=
  values.foldl (fun n v => n * 60 + v) 0

def wholeBody (t : Text) : Except Error Int :=
  match t with
  | [.scalar '0'] => .ok 0
  | .scalar '0' :: .scalar 'b' :: rest => readWhole 2 rest
  | .scalar '0' :: .scalar 'x' :: rest => readWhole 16 rest
  | .scalar '0' :: _ => readWhole 8 t
  | _ =>
    if CodePoint.scalar ':' ∈ t then sixties <$> (t.cutAt ':').mapM (readWhole 10)
    else readWhole 10 t

def isMinus (c : CodePoint) : Bool :=
  c = .scalar '-'

def isSign (c : CodePoint) : Bool :=
  isMinus c || c = .scalar '+'

-- A sign in front counts once; the number after it may have one of its own.
def readWholeScalar (t : Text) : Except Error Int :=
  match withoutGaps t with
  | [] => .error .emptyNumber
  | c :: rest =>
    let body := if isSign c then rest else c :: rest
    if body.isEmpty then .error .emptyNumber
    else (fun n => if isMinus c then -n else n) <$> wholeBody body

def readReal (t : Text) : Except Error Double :=
  match Number.readDouble? t with
  | some x => .ok x
  | none => .error (.badReal t)

-- The sum of fields of base sixty from the last one on, each step rounded.
def realSixties : (base : Nat) → (sum : Double) → List Double → Except Error Double
  | _, sum, [] => .ok sum
  | base, sum, x :: rest =>
    match Double.ofNat base with
    | .infinite _ => .error .realTooLarge
    | factor => realSixties (base * 60) (sum.add (x.mul factor)) rest

def realBody (t : Text) : Except Error Double :=
  if t = ".inf" then .ok (.infinite false)
  else if t = ".nan" then .ok .nan
  else if CodePoint.scalar ':' ∈ t then do
    let fields ← (t.cutAt ':').mapM readReal
    realSixties 1 Double.zero fields.reverse
  else readReal t

def readRealScalar (t : Text) : Except Error Double :=
  match (withoutGaps t).lowercase with
  | [] => .error .emptyNumber
  | c :: rest =>
    let body := if isSign c then rest else c :: rest
    (fun x => if isMinus c then x.neg else x) <$> realBody body

def readTruth (t : Text) : Except Error Bool :=
  match Form.truths.find? fun (word, _) => Text.ofChars word = t.lowercase with
  | some (_, b) => .ok b
  | none => .error (.badTruth t.lowercase)

def checkMoment (t : Text) : Except Error Unit :=
  match t.chars?.bind fun chars => MomentText.read? false (withoutFinalFeed chars) with
  | none => .error .badMoment
  | some m => m.check.mapError .momentRange

def isBase64 (c : Char) : Bool :=
  ('A' ≤ c && c ≤ 'Z') || ('a' ≤ c && c ≤ 'z') || ('0' ≤ c && c ≤ '9') || c == '+' || c == '/'

-- Whether bytes in base 64 are complete. Other characters are passed over. `place` counts
-- the characters of a group of four, `padding` the marks that fill it up, and `isEmpty`
-- tells whether no byte has come yet.
def base64? (place padding : Nat) (isEmpty : Bool) : List Char → Option Bool
  | [] => if place = 0 then some isEmpty else none
  | c :: rest =>
    if c = '=' then
      if 2 ≤ place then
        if 4 ≤ place + (padding + 1) then some isEmpty else base64? place (padding + 1) isEmpty rest
      else base64? place padding isEmpty rest
    else if isBase64 c then
      base64? ((place + 1) % 4) 0 (isEmpty && place == 0) rest
    else base64? place padding isEmpty rest

def readBytes (t : Text) : Except Error Bool :=
  match t.chars? with
  | none => .error .malformed
  | some chars =>
    if chars.all (·.toNat < 0x80) then
      match base64? 0 0 true chars with
      | some isEmpty => .ok isEmpty
      | none => .error .malformed
    else .error .malformed

-- The value of a text as a type, or what is wrong with it.
def read (tag : Tag) (t : Text) : Except Error Scalar :=
  match tag with
  | .null => .ok null
  | .truth => truth <$> readTruth t
  | .whole => whole <$> readWholeScalar t
  | .real => real <$> readRealScalar t
  | .text => .ok (text t)
  | .moment => (fun _ => moment) <$> checkMoment t
  | .bytes => bytes <$> readBytes t
  | _ => .error .malformed

end Scalar

end ReadmeTables.Yaml
