import ReadmeTables.Text.Basic
/-!
UTF-8.

Decoding reads one byte at a time. The first byte of a sequence fixes how many follow and
in which range the second one lies, so overlong forms, surrogates and numbers past U+10FFFF
are refused at the byte that makes them impossible. Encoding refuses lone surrogates only.
-/

namespace ReadmeTables.Utf8

abbrev Bytes := List UInt8

inductive Fault where
  | badStart
  | badContinuation
  | truncated
deriving DecidableEq

namespace Fault

def message : Fault → Text
  | badStart => "invalid start byte"
  | badContinuation => "invalid continuation byte"
  | truncated => "unexpected end of data"

end Fault

-- Where decoding stopped: the bytes from `start` up to `stop`, the first of them, and why.
structure DecodeError where
  start : Nat
  stop : Nat
  first : UInt8
  fault : Fault
deriving DecidableEq

-- Where encoding stopped: the run of surrogates from `start` up to `stop`, and the first.
structure EncodeError where
  start : Nat
  stop : Nat
  first : Fin 2048
deriving DecidableEq

-- A hexadecimal number of at least `width` digits.
def hex (width n : Nat) : Text :=
  let digits := Nat.toDigits 16 n
  Text.ofChars (List.replicate (width - digits.length) '0' ++ digits)

namespace DecodeError

def message (e : DecodeError) : Text :=
  let place : Text :=
    if e.stop = e.start + 1 then
      "byte 0x" ++ hex 2 e.first.toNat ++ " in position " ++ Text.ofNat e.start
    else
      "bytes in position " ++ Text.ofNat e.start ++ "-" ++ Text.ofNat (e.stop - 1)
  "'utf-8' codec can't decode " ++ place ++ ": " ++ e.fault.message

end DecodeError

namespace EncodeError

def message (e : EncodeError) : Text :=
  let place : Text :=
    if e.stop = e.start + 1 then
      "character '\\u" ++ hex 4 (CodePoint.surrogate e.first).value ++ "' in position "
        ++ Text.ofNat e.start
    else
      "characters in position " ++ Text.ofNat e.start ++ "-" ++ Text.ofNat (e.stop - 1)
  "'utf-8' codec can't encode " ++ place ++ ": surrogates not allowed"

end EncodeError

-- A sequence that has begun at `start` with `first`: how many bytes are still to come, the
-- range of the next one, and the bits read so far.
structure Pending where
  start : Nat
  first : UInt8
  left : Nat
  low : Nat
  high : Nat
  bits : Nat

-- What a first byte promises.
def Pending.begin? (start : Nat) (b : UInt8) : Option Pending :=
  let n := b.toNat
  if n < 0xC2 then none
  else if n < 0xE0 then some ⟨start, b, 1, 0x80, 0xBF, n - 0xC0⟩
  else if n = 0xE0 then some ⟨start, b, 2, 0xA0, 0xBF, n - 0xE0⟩
  else if n = 0xED then some ⟨start, b, 2, 0x80, 0x9F, n - 0xE0⟩
  else if n < 0xF0 then some ⟨start, b, 2, 0x80, 0xBF, n - 0xE0⟩
  else if n = 0xF0 then some ⟨start, b, 3, 0x90, 0xBF, n - 0xF0⟩
  else if n = 0xF4 then some ⟨start, b, 3, 0x80, 0x8F, n - 0xF0⟩
  else if n < 0xF4 then some ⟨start, b, 3, 0x80, 0xBF, n - 0xF0⟩
  else none

-- The sequence after one more byte.
def Pending.next (p : Pending) (b : UInt8) : Pending :=
  { p with left := p.left - 1, low := 0x80, high := 0xBF, bits := p.bits * 64 + (b.toNat - 0x80) }

-- Decodes from position `i`, inside a sequence or between two.
def decodeFrom (i : Nat) : Option Pending → Bytes → Except DecodeError (List Char)
  | none, [] => .ok []
  | some p, [] => .error ⟨p.start, i, p.first, .truncated⟩
  | none, b :: rest =>
    if b.toNat < 0x80 then (Char.ofNat b.toNat :: ·) <$> decodeFrom (i + 1) none rest
    else
      match Pending.begin? i b with
      | some p => decodeFrom (i + 1) (some p) rest
      | none => .error ⟨i, i + 1, b, .badStart⟩
  | some p, b :: rest =>
    if p.low ≤ b.toNat ∧ b.toNat ≤ p.high then
      let q := p.next b
      if q.left = 0 then (Char.ofNat q.bits :: ·) <$> decodeFrom (i + 1) none rest
      else decodeFrom (i + 1) (some q) rest
    else .error ⟨p.start, i, p.first, .badContinuation⟩

def decode (bytes : Bytes) : Except DecodeError (List Char) :=
  decodeFrom 0 none bytes

-- Encodes from position `i`; `escape` gives the bytes of the surrogates that have any.
def encodeFrom (escape : Fin 2048 → Option UInt8) (i : Nat) : Text → Except EncodeError Bytes
  | [] => .ok []
  | .scalar c :: rest => (String.utf8EncodeChar c ++ ·) <$> encodeFrom escape (i + 1) rest
  | .surrogate s :: rest =>
    match escape s with
    | some b => (b :: ·) <$> encodeFrom escape (i + 1) rest
    | none => .error ⟨i, i + 1 + (rest.takeWhile CodePoint.isSurrogate).length, s⟩

def encode (t : Text) : Except EncodeError Bytes :=
  encodeFrom (fun _ => none) 0 t

-- File names may hold bytes that are not UTF-8. The upper half of a byte then stands in a
-- text as one of U+DC80 to U+DCFF, and goes back to that byte.
def escapedByte (offset : Fin 2048) : Option UInt8 :=
  if 0x480 ≤ offset.val ∧ offset.val < 0x500 then some (UInt8.ofNat (offset.val - 0x400)) else none

def encodeName (t : Text) : Except EncodeError Bytes :=
  encodeFrom escapedByte 0 t

end ReadmeTables.Utf8
