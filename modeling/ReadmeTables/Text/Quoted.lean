import ReadmeTables.Text.Printable
import ReadmeTables.Text.Utf8
/-!
Quoted texts, as messages show them.

A text stands between single quotes, or between double ones if it holds a single quote and
no double one. What is not printable is written as an escape.
-/

namespace ReadmeTables.Text

-- The escape of a code point by number, as short as it can be.
def numberEscape (n : Nat) : Text :=
  if n < 0x100 then "\\x" ++ Utf8.hex 2 n
  else if n < 0x10000 then "\\u" ++ Utf8.hex 4 n
  else "\\U" ++ Utf8.hex 8 n

def quoteMark (t : Text) : CodePoint :=
  if CodePoint.scalar '\'' ∈ t ∧ CodePoint.scalar '"' ∉ t then '"' else '\''

def quoteCodePoint (mark c : CodePoint) : Text :=
  if c = mark ∨ c = CodePoint.scalar '\\' then [CodePoint.scalar '\\', c]
  else if c = CodePoint.scalar '\t' then "\\t"
  else if c = CodePoint.scalar '\n' then "\\n"
  else if c = CodePoint.scalar '\r' then "\\r"
  else if isPrintable c then [c]
  else numberEscape c.value

def quoted (t : Text) : Text :=
  let mark := quoteMark t
  [mark] ++ t.flatMap (quoteCodePoint mark) ++ [mark]

end ReadmeTables.Text
