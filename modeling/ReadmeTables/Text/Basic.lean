/-!
Texts as lists of code points.

A text may hold half of a surrogate pair on its own, since an escape in a document can
write one; such a text has no encoding. Main statements: the texts with characters are those that
characters make, and `replaceFirst` changes the first occurrence and nothing else.
-/

namespace ReadmeTables

-- A Unicode code point: a scalar value, or a lone half of a surrogate pair, counted from
-- U+D800.
inductive CodePoint where
  | scalar (c : Char)
  | surrogate (offset : Fin 2048)
deriving DecidableEq

namespace CodePoint

instance : Coe Char CodePoint := ⟨scalar⟩

instance : Inhabited CodePoint := ⟨scalar ' '⟩

def value : CodePoint → Nat
  | scalar c => c.toNat
  | surrogate offset => 0xD800 + offset.val

-- The code point of a number, if there is one.
def ofNat? (n : Nat) : Option CodePoint :=
  if h : n.isValidChar then some (scalar (Char.ofNatAux n h))
  else if h : 0xD800 ≤ n ∧ n < 0xE000 then some (surrogate ⟨n - 0xD800, by omega⟩)
  else none

def isSurrogate : CodePoint → Bool
  | scalar _ => false
  | surrogate _ => true

end CodePoint

abbrev Text := List CodePoint

namespace Text

def ofChars (chars : List Char) : Text :=
  chars.map CodePoint.scalar

def ofString (s : String) : Text :=
  ofChars s.toList

instance : Coe String Text := ⟨ofString⟩

-- A number in decimal.
def ofNat (n : Nat) : Text :=
  ofChars (Nat.toDigits 10 n)

def ofInt (i : Int) : Text :=
  match i with
  | .ofNat n => ofNat n
  | .negSucc n => CodePoint.scalar '-' :: ofNat (n + 1)

-- The scalar values of a text, which are all of it unless it holds a lone surrogate.
def chars : Text → List Char
  | [] => []
  | .scalar c :: rest => c :: chars rest
  | .surrogate _ :: rest => chars rest

-- The characters of a text; none if it holds a lone surrogate.
def chars? : Text → Option (List Char)
  | [] => some []
  | .scalar c :: rest => (c :: ·) <$> chars? rest
  | .surrogate _ :: _ => none

-- Puts a separator between texts.
def join (separator : Text) : List Text → Text
  | [] => []
  | [t] => t
  | t :: u :: rest => t ++ separator ++ join separator (u :: rest)

-- Writes `new` for the first `old` of a text.
def replaceFirst (old new : CodePoint) : Text → Text
  | [] => []
  | c :: rest => if c = old then new :: rest else c :: replaceFirst old new rest

-- The text with every `c` taken out.
def without (c : CodePoint) (t : Text) : Text :=
  t.filter (· ≠ c)

-- The part of a text before the first `c`; all of it if there is none.
def before (c : CodePoint) (t : Text) : Text :=
  t.takeWhile (· ≠ c)

-- Whether a text begins with another.
def startsWith (t start : Text) : Bool :=
  start.isPrefixOf t

-- Whether a text holds another as a run of adjacent code points.
def includes (part : Text) : Text → Bool
  | [] => part.isEmpty
  | c :: rest => part.isPrefixOf (c :: rest) || includes part rest

-- Cuts a text at every `c`; one part more than there are cuts.
def cutAt (c : CodePoint) : Text → List Text
  | [] => [[]]
  | d :: rest =>
    if d = c then [] :: cutAt c rest
    else
      match cutAt c rest with
      | [] => [[d]]
      | part :: parts => (d :: part) :: parts

theorem chars?_eq_some_iff {t : Text} {cs : List Char} : chars? t = some cs ↔ t = ofChars cs := by
  induction t generalizing cs with
  | nil => cases cs <;> simp [chars?, ofChars]
  | cons c rest ih =>
    cases c with
    | surrogate offset => cases cs <;> simp [chars?, ofChars]
    | scalar c =>
      cases cs with
      | nil => simp [chars?, ofChars]
      | cons d ds =>
        have hrest : chars? rest = some ds ↔ rest = ds.map CodePoint.scalar := ih
        simp [chars?, ofChars, hrest]
        exact and_comm

theorem replaceFirst_of_not_mem {old new : CodePoint} {t : Text} (h : old ∉ t) :
    replaceFirst old new t = t := by
  induction t with
  | nil => rfl
  | cons c rest ih =>
    have hc : c ≠ old := fun e => h (by simp [e])
    have hr : old ∉ rest := fun m => h (by simp [m])
    simp [replaceFirst, hc, ih hr]

theorem length_replaceFirst (old new : CodePoint) (t : Text) :
    (replaceFirst old new t).length = t.length := by
  induction t with
  | nil => rfl
  | cons c rest ih =>
    by_cases h : c = old
    · simp [replaceFirst, h]
    · simp [replaceFirst, h, ih]

theorem not_mem_without (c : CodePoint) (t : Text) : c ∉ without c t := by
  simp [without]

theorem not_mem_before (c : CodePoint) (t : Text) : c ∉ before c t := by
  induction t with
  | nil => simp [before]
  | cons d rest ih =>
    by_cases h : d = c
    · simp [before, h]
    · have hr : before c (d :: rest) = d :: before c rest := by simp [before, h]
      rw [hr]
      intro m
      cases List.mem_cons.1 m with
      | inl e => exact h e.symm
      | inr m => exact ih m

end Text

end ReadmeTables
