/-!
Double precision numbers, by exact arithmetic.

A finite number is a mantissa below 2^53 times a power of two not below 2^-1074. Every
operation computes the exact ratio and rounds it to the nearest such number, to the even
mantissa if two are as near.
-/

namespace ReadmeTables

inductive Double where
  | finite (negative : Bool) (mantissa : Nat) (exponent : Int)
  | infinite (negative : Bool)
  | nan
deriving DecidableEq

namespace Double

def zero : Double := finite false 0 (-1074)

def isZero : Double → Bool
  | finite _ mantissa _ => mantissa == 0
  | _ => false

-- The ratio rounded to a whole number, a half to the even one.
def roundHalfEven (num den : Nat) : Nat :=
  let q := num / den
  let twice := 2 * (num % den)
  if twice < den then q
  else if den < twice then q + 1
  else if q % 2 = 0 then q
  else q + 1

-- A ratio divided by a power of two.
def scaled (num den : Nat) (exponent : Int) : Nat × Nat :=
  match exponent with
  | .ofNat e => (num, den * Nat.pow 2 e)
  | .negSucc e => (num * Nat.pow 2 (e + 1), den)

-- The exponent with which a positive ratio has a mantissa of 53 bits, or the least one.
def exponentOf (num den : Nat) : Int :=
  let e : Int := (Nat.log2 num : Int) - (Nat.log2 den : Int) - 52
  let (n, d) := scaled num den e
  max (-1074) (if n / d < Nat.pow 2 52 then e - 1 else e)

-- The double next to a ratio.
def ofRatio (negative : Bool) (num den : Nat) : Double :=
  if num = 0 then finite negative 0 (-1074)
  else
    let e := exponentOf num den
    let (n, d) := scaled num den e
    let m := roundHalfEven n d
    let (m, e) := if m = Nat.pow 2 53 then (Nat.pow 2 52, e + 1) else (m, e)
    if 971 < e then infinite negative else finite negative m e

-- The double next to `digits` times a power of ten. Exponents so far out that the number is
-- past the largest double, or nearer to zero than to any other, are not multiplied out.
def ofDecimal (negative : Bool) (digits : Nat) (exponent : Int) : Double :=
  let size : Int := (Nat.toDigits 10 digits).length
  if digits = 0 then ofRatio negative 0 1
  else if 400 < exponent + size then infinite negative
  else if exponent + size < -400 then ofRatio negative 0 1
  else
    match exponent with
    | .ofNat e => ofRatio negative (digits * Nat.pow 10 e) 1
    | .negSucc e => ofRatio negative digits (Nat.pow 10 (e + 1))

-- The double next to a whole number; infinite if it is too large.
def ofNat (n : Nat) : Double :=
  ofRatio false n 1

def neg : Double → Double
  | finite negative mantissa exponent => finite (!negative) mantissa exponent
  | infinite negative => infinite (!negative)
  | nan => nan

-- A dyadic number as a ratio.
def ratio (mantissa : Nat) (exponent : Int) : Nat × Nat :=
  match exponent with
  | .ofNat e => (mantissa * Nat.pow 2 e, 1)
  | .negSucc e => (mantissa, Nat.pow 2 (e + 1))

def mul : Double → Double → Double
  | finite s m e, finite t n f =>
    let (num, den) := ratio (m * n) (e + f)
    ofRatio (s != t) num den
  | finite s m _, infinite t => if m = 0 then nan else infinite (s != t)
  | infinite s, finite t m _ => if m = 0 then nan else infinite (s != t)
  | infinite s, infinite t => infinite (s != t)
  | nan, _ => nan
  | _, nan => nan

def add : Double → Double → Double
  | finite s m e, finite t n f =>
    let (a, b) := ratio m e
    let (c, d) := ratio n f
    let left : Int := if s then -(a * d : Nat) else (a * d : Nat)
    let right : Int := if t then -(c * b : Nat) else (c * b : Nat)
    let sum := left + right
    let negative := if sum = 0 then s && t else decide (sum < 0)
    ofRatio negative sum.natAbs (b * d)
  | finite _ _ _, infinite t => infinite t
  | infinite s, finite _ _ _ => infinite s
  | infinite s, infinite t => if s = t then infinite s else nan
  | nan, _ => nan
  | _, nan => nan

end Double

end ReadmeTables
