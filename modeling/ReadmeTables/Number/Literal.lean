import ReadmeTables.Number.Double
import ReadmeTables.Text.Blank
/-!
Reading numbers from text.

White space around a number is ignored and a sign may stand before it. Decimal digits of
every script count, and nothing else past ASCII does but white space. The separators of ASCII
are no white space here. A whole number of more than 4300 decimal digits is refused.
-/

namespace ReadmeTables.Number

-- The zeros of the scripts that have decimal digits; the other nine follow each of them.
def scriptZeros : List Nat :=
  [0x30, 0x660, 0x6F0, 0x7C0, 0x966, 0x9E6, 0xA66, 0xAE6, 0xB66, 0xBE6, 0xC66, 0xCE6, 0xD66,
  0xDE6, 0xE50, 0xED0, 0xF20, 0x1040, 0x1090, 0x17E0, 0x1810, 0x1946, 0x19D0, 0x1A80, 0x1A90,
  0x1B50, 0x1BB0, 0x1C40, 0x1C50, 0xA620, 0xA8D0, 0xA900, 0xA9D0, 0xA9F0, 0xAA50, 0xABF0,
  0xFF10, 0x104A0, 0x10D30, 0x11066, 0x110F0, 0x11136, 0x111D0, 0x112F0, 0x11450, 0x114D0,
  0x11650, 0x116C0, 0x11730, 0x118E0, 0x11950, 0x11C50, 0x11D50, 0x11DA0, 0x16A60, 0x16AC0,
  0x16B50, 0x1D7CE, 0x1D7D8, 0x1D7E2, 0x1D7EC, 0x1D7F6, 0x1E140, 0x1E2F0, 0x1E950, 0x1FBF0]

-- The value of a decimal digit of any script.
def decimalValue? (c : Char) : Option Nat :=
  (scriptZeros.find? fun first => first ≤ c.toNat && c.toNat < first + 10).map (c.toNat - ·)

-- What a code point stands for in a number: past ASCII a decimal digit stands for its value,
-- white space for a blank, and all else for a character that no number holds.
def plainChar : CodePoint → Char
  | .surrogate _ => '?'
  | .scalar c =>
    if c.toNat < 0x80 then c
    else if Text.isSpace c then ' '
    else
      match decimalValue? c with
      | some v => Nat.digitChar v
      | none => '?'

def isGap (c : Char) : Bool :=
  c == ' ' || (0x09 ≤ c.toNat && c.toNat ≤ 0x0D)

-- The characters of a number without the white space at either end.
def body (t : Text) : List Char :=
  (((t.map plainChar).dropWhile isGap).reverse.dropWhile isGap).reverse

def isDecimal (c : Char) : Bool :=
  '0' ≤ c && c ≤ '9'

-- The value of a digit or Latin letter, counted on from nine.
def digitValue? (c : Char) : Option Nat :=
  if isDecimal c then some (c.toNat - '0'.toNat)
  else if 'a' ≤ c ∧ c ≤ 'z' then some (c.toNat - 'a'.toNat + 10)
  else if 'A' ≤ c ∧ c ≤ 'Z' then some (c.toNat - 'A'.toNat + 10)
  else none

-- A number in a base, from its digits; none if one is no digit of the base.
def ofDigits? (base : Nat) (digits : List Char) : Option Nat :=
  digits.foldlM (fun n c => do
    let v ← digitValue? c
    if v < base then some (n * base + v) else none) 0

-- The most decimal digits that are turned into a whole number, or written for one.
def digitLimit : Nat := 4300

inductive IntFault where
  | malformed
  | tooManyDigits (count : Nat)
deriving DecidableEq

def splitSign : List Char → Bool × List Char
  | '-' :: rest => (true, rest)
  | '+' :: rest => (false, rest)
  | chars => (false, chars)

-- The mark that a number in a base of two, eight or sixteen may carry.
def baseMark (base : Nat) (c : Char) : Bool :=
  (base == 2 && (c == 'b' || c == 'B')) || (base == 8 && (c == 'o' || c == 'O'))
    || (base == 16 && (c == 'x' || c == 'X'))

def dropBaseMark (base : Nat) : List Char → List Char
  | '0' :: c :: rest => if baseMark base c then rest else '0' :: c :: rest
  | chars => chars

def readInt (base : Nat) (t : Text) : Except IntFault Int :=
  let (negative, magnitude) := splitSign (body t)
  let digits := dropBaseMark base magnitude
  if base = 10 ∧ digitLimit < (digits.takeWhile isDecimal).length then
    .error (.tooManyDigits (digits.takeWhile isDecimal).length)
  else if digits.isEmpty then .error .malformed
  else
    match ofDigits? base digits with
    | some n => .ok (if negative then -(n : Int) else n)
    | none => .error .malformed

-- The exponent after a mantissa: nothing, or a letter, a sign and digits.
def readExponent? : List Char → Option Int
  | [] => some 0
  | c :: rest =>
    let (negative, digits) := splitSign rest
    if (c == 'e' || c == 'E') && !digits.isEmpty then
      (ofDigits? 10 digits).map fun n => if negative then -(n : Int) else n
    else none

def readMagnitude? (negative : Bool) (chars : List Char) : Option Double :=
  let whole := chars.takeWhile isDecimal
  let afterWhole := chars.dropWhile isDecimal
  let (fraction, rest) :=
    match afterWhole with
    | '.' :: more => (more.takeWhile isDecimal, more.dropWhile isDecimal)
    | more => ([], more)
  if whole.isEmpty && fraction.isEmpty then none
  else do
    let digits ← ofDigits? 10 (whole ++ fraction)
    let exponent ← readExponent? rest
    some (Double.ofDecimal negative digits (exponent - fraction.length))

def readDouble? (t : Text) : Option Double :=
  let (negative, magnitude) := splitSign (body t)
  let lower := magnitude.map Char.toLower
  if lower = "inf".toList ∨ lower = "infinity".toList then some (.infinite negative)
  else if lower = "nan".toList then some .nan
  else readMagnitude? negative magnitude

end ReadmeTables.Number
