import ReadmeTables.Number.Double
import ReadmeTables.Text.Basic
/-!
The shortest decimal text of a double.

The digits are the fewest that read back as the same number, and of those the nearest to it.
They are written out from 10^-4 up to 10^16 and with a power of ten elsewhere, and a text
without either mark gets a zero after the point.
-/

namespace ReadmeTables.Double

-- Digits and the power of ten of the first of them.
structure Decimal where
  digits : Nat
  lead : Int

-- The power of ten of the first digit of a positive ratio below 1: the least `k` from `from`
-- on with which ten to it brings the ratio to 1 or more.
def leadBelowOne (num den : Nat) : Nat → Nat → Nat
  | 0, k => k
  | fuel + 1, k => if den ≤ num * Nat.pow 10 k then k else leadBelowOne num den fuel (k + 1)

-- The power of ten of the first digit of a positive ratio.
def leadOf (num den : Nat) : Int :=
  if den ≤ num then ((Nat.toDigits 10 (num / den)).length : Int) - 1
  else -(leadBelowOne num den 400 1 : Int)

-- The ratio in units of a power of ten.
def inUnits (num den : Nat) (power : Int) : Nat × Nat :=
  match power with
  | .ofNat p => (num, den * Nat.pow 10 p)
  | .negSucc p => (num * Nat.pow 10 (p + 1), den)

-- The nearer of the two decimals of `count` digits around a number that read back as it.
def nearest? (mantissa : Nat) (exponent : Int) (count : Nat) : Option Decimal :=
  let (num, den) := ratio mantissa exponent
  let lead := leadOf num den
  let power := lead - (count : Int) + 1
  let (n, d) := inUnits num den power
  let below := n / d
  let best := roundHalfEven n d
  let other := if best = below then below + 1 else below
  let same (digits : Nat) : Bool := ofDecimal false digits power = finite false mantissa exponent
  if same best then some ⟨best, power⟩
  else if same other then some ⟨other, power⟩
  else none

-- Tries one digit, then two, up to 17, which are always enough.
def shortest (mantissa : Nat) (exponent : Int) : Decimal :=
  ((List.range 17).findSome? fun n => nearest? mantissa exponent (n + 1)).getD ⟨0, 0⟩

-- Writes digits at the power of ten of the last of them.
def positional (digits : List Char) (power : Int) : List Char :=
  match power with
  | .ofNat p => digits ++ List.replicate p '0' ++ ['.', '0']
  | .negSucc p =>
    let places := p + 1
    let padded := List.replicate (places + 1 - digits.length) '0' ++ digits
    padded.take (padded.length - places) ++ ['.'] ++ padded.drop (padded.length - places)

def scientific (digits : List Char) (lead : Int) : List Char :=
  let fraction := digits.drop 1
  let sign := if lead < 0 then '-' else '+'
  let power := Nat.toDigits 10 lead.natAbs
  digits.take 1 ++ (if fraction.isEmpty then [] else '.' :: fraction) ++ ['e', sign]
    ++ List.replicate (2 - power.length) '0' ++ power

-- Takes the zeros off the end of the digits.
def stripZeros (digits : List Char) (power : Int) : List Char × Int :=
  let kept := (digits.reverse.dropWhile (· == '0')).reverse
  (kept, power + ((digits.length - kept.length : Nat) : Int))

def magnitudeText (mantissa : Nat) (exponent : Int) : List Char :=
  if mantissa = 0 then ['0', '.', '0']
  else
    let d := shortest mantissa exponent
    let (digits, power) := stripZeros (Nat.toDigits 10 d.digits) d.lead
    let lead := power + digits.length - 1
    if -4 ≤ lead ∧ lead < 16 then positional digits power else scientific digits lead

def text : Double → Text
  | finite negative mantissa exponent =>
    Text.ofChars ((if negative then ['-'] else []) ++ magnitudeText mantissa exponent)
  | infinite negative => if negative then "-inf" else "inf"
  | nan => "nan"

end ReadmeTables.Double
