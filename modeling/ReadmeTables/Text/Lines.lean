import ReadmeTables.Text.Basic
/-!
Lines.

A file that is read has its line ends made equal: a carriage return, alone or before a line
feed, becomes a line feed. A text that is compared is cut after each line boundary of
Unicode, and the boundary stays with its line. Main statement: the lines of a text are the
text.
-/

namespace ReadmeTables.Text

-- Makes all line ends line feeds.
def unifyLineEnds : List Char → List Char
  | [] => []
  | '\r' :: '\n' :: rest => '\n' :: unifyLineEnds rest
  | '\r' :: rest => '\n' :: unifyLineEnds rest
  | c :: rest => c :: unifyLineEnds rest

-- The code points that end a line, a carriage return among them.
def isLineEnd : CodePoint → Bool
  | .surrogate _ => false
  | .scalar c =>
    let n := c.toNat
    (0x0A ≤ n && n ≤ 0x0D) || (0x1C ≤ n && n ≤ 0x1E) || n == 0x85 || n == 0x2028 || n == 0x2029

-- Puts a code point in front of the first line.
def extendFirst (c : CodePoint) : List Text → List Text
  | [] => [[c]]
  | line :: rest => (c :: line) :: rest

-- The lines of a text, each with its end.
def lines : Text → List Text
  | [] => []
  | .scalar '\r' :: .scalar '\n' :: rest => Text.ofString "\r\n" :: lines rest
  | c :: rest => if isLineEnd c then [c] :: lines rest else extendFirst c (lines rest)

theorem flatten_extendFirst (c : CodePoint) (ls : List Text) :
    (extendFirst c ls).flatten = c :: ls.flatten := by
  cases ls with
  | nil => rfl
  | cons line rest => rfl

theorem flatten_lines (t : Text) : (lines t).flatten = t := by
  fun_induction lines t with
  | case1 => rfl
  | case2 rest ih => simp [ih]; rfl
  | case3 c rest _ h ih => simp [ih]
  | case4 c rest _ h ih => rw [flatten_extendFirst, ih]

end ReadmeTables.Text
