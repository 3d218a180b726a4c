import ReadmeTables.Diff.Unified
import ReadmeTables.Proofs.Text.Cuts
import ReadmeTables.Text.Affix
/-!
Reading a difference in the unified format.

A hunk goes on up to the next head, and must have the lines that its own head counts. Main
statement: hunks are read back as they were written.
-/

namespace ReadmeTables.Diff

-- The lines of a hunk in either text.
def oldLines {α : Type} (edits : List (Edit α)) : List α :=
  edits.filterMap Edit.old?

def newLines {α : Type} (edits : List (Edit α)) : List α :=
  edits.filterMap Edit.new?

def readNumber (t : Text) : Option Nat := do
  let digits ← t.chars?
  if digits ≠ [] ∧ digits.all Char.isDigit then some (Nat.ofDigitChars 10 digits 0) else none

-- A range of lines, with how many come before it.
structure Range where
  before : Nat
  count : Nat
deriving DecidableEq

-- A count of 1 is left out, and a range without lines names the line before it.
def readRange (t : Text) : Option Range :=
  match t.cutAt ',' with
  | [first] => do
    match ← readNumber first with
    | 0 => none
    | before + 1 => some ⟨before, 1⟩
  | [first, count] => do
    match ← readNumber first, ← readNumber count with
    | before, 0 => some ⟨before, 0⟩
    | _, 1 => none
    | 0, _ => none
    | before + 1, count => some ⟨before, count⟩
  | _ => none

-- The ranges of a head without its line feed.
def readHead (t : Text) : Option (Range × Range) :=
  match t.cutAt ' ' with
  | [opening, .scalar '-' :: old, .scalar '+' :: new, closing] =>
    if opening = "@@" ∧ closing = "@@" then do
      return (← readRange old, ← readRange new)
    else none
  | _ => none

def readEdit : Text → Option (Edit Text)
  | .scalar ' ' :: line => some (.keep line)
  | .scalar '-' :: line => some (.drop line)
  | .scalar '+' :: line => some (.add line)
  | _ => none

-- The edits before the first head, and the hunks from there on.
def readLines : List Text → Option (List (Edit Text) × List (Hunk Text))
  | [] => some ([], [])
  | line :: rest => do
    let (edits, hunks) ← readLines rest
    match readEdit line with
    | some e => return (e :: edits, hunks)
    | none =>
      let (old, new) ← readHead (← beforeSuffix? "\n" line)
      if old.count = (oldLines edits).length ∧ new.count = (newLines edits).length then
        return ([], ⟨old.before, new.before, edits⟩ :: hunks)
      else none

def readHunks (lines : List Text) : Option (List (Hunk Text)) :=
  match readLines lines with
  | some ([], hunks) => some hunks
  | _ => none

theorem exists_digit_of_mem_ofNat {n : Nat} {p : CodePoint} (h : p ∈ Text.ofNat n) :
    ∃ c : Char, c.isDigit = true ∧ p = c := by
  obtain ⟨c, hc, rfl⟩ := List.mem_map.mp h
  exact ⟨c, Nat.isDigit_of_mem_toDigits (by decide) (by decide) hc, rfl⟩

theorem not_mem_ofNat {c : Char} (h : c.isDigit = false) (n : Nat) :
    CodePoint.scalar c ∉ Text.ofNat n := by
  intro hmem
  obtain ⟨d, hd, hcd⟩ := exists_digit_of_mem_ofNat hmem
  obtain rfl := CodePoint.scalar.inj hcd
  simp [h] at hd

theorem readNumber_ofNat (n : Nat) : readNumber (Text.ofNat n) = some n := by
  have hdigits : (Text.ofNat n).chars? = some (Nat.toDigits 10 n) :=
    Text.chars?_eq_some_iff.mpr rfl
  have hall : (Nat.toDigits 10 n).all Char.isDigit = true := List.all_eq_true.mpr fun c hc =>
    Nat.isDigit_of_mem_toDigits (by decide) (by decide) hc
  rw [readNumber, hdigits, Option.bind_eq_bind, Option.bind_some,
    if_pos ⟨Nat.toDigits_ne_nil, hall⟩, Nat.ofDigitChars_ten_toDigits]

theorem cutAt_ofNat_append (n m : Nat) :
    (Text.ofNat n ++ "," ++ Text.ofNat m).cutAt ',' = [Text.ofNat n, Text.ofNat m] := by
  have hcut : Text.ofNat n ++ "," ++ Text.ofNat m =
      Text.ofNat n ++ .scalar ',' :: Text.ofNat m := by
    rw [List.append_assoc]
    rfl
  rw [hcut, Text.cutAt_append (not_mem_ofNat (by decide) n),
    Text.cutAt_of_not_mem (not_mem_ofNat (by decide) m)]

theorem readRange_rangeText (before count : Nat) :
    readRange (rangeText before count) = some ⟨before, count⟩ := by
  by_cases hone : count = 1
  · subst hone
    rw [rangeText, if_pos rfl, readRange, Text.cutAt_of_not_mem (not_mem_ofNat (by decide) _)]
    simp [readNumber_ofNat]
  by_cases hzero : count = 0
  · have hcut := cutAt_ofNat_append before 0
    subst hzero
    have htext : rangeText before 0 = Text.ofNat before ++ "," ++ Text.ofNat 0 := by
      rw [List.append_assoc]
      rfl
    rw [htext, readRange, hcut]
    simp [readNumber_ofNat]
  rw [rangeText, if_neg hone, if_neg hzero, readRange, cutAt_ofNat_append]
  obtain ⟨more, rfl⟩ := Nat.exists_eq_add_of_le (show 2 ≤ count by omega)
  rw [Nat.add_comm 2]
  simp [readNumber_ofNat]

theorem not_mem_rangeText {c : Char} (hdigit : c.isDigit = false) (hcomma : c ≠ ',')
    (before count : Nat) : .scalar c ∉ rangeText before count := by
  have hnumber (n : Nat) : .scalar c ∉ Text.ofNat n := not_mem_ofNat hdigit n
  have hzero : c ≠ '0' := by
    rintro rfl
    simp at hdigit
  rw [rangeText]
  split
  · exact hnumber _
  · split <;> simp [Text.ofString, Text.ofChars, hnumber, hcomma, hzero]

-- The head of a hunk without its line feed.
def headText (hunk : Hunk Text) : Text :=
  "@@ -" ++ rangeText hunk.old (oldLines hunk.edits).length ++
    " +" ++ rangeText hunk.new (newLines hunk.edits).length ++ " @@"

theorem hunkHead_eq (hunk : Hunk Text) : hunkHead hunk = headText hunk ++ "\n" := by
  simp [hunkHead, headText, oldLines, newLines, Text.ofString, Text.ofChars]

theorem readHead_headText (hunk : Hunk Text) :
    readHead (headText hunk) = some
      (⟨hunk.old, (oldLines hunk.edits).length⟩, ⟨hunk.new, (newLines hunk.edits).length⟩) := by
  have hhead : headText hunk = Text.ofString "@@" ++ .scalar ' ' ::
      (.scalar '-' :: rangeText hunk.old (oldLines hunk.edits).length ++ .scalar ' ' ::
        (.scalar '+' :: rangeText hunk.new (newLines hunk.edits).length ++ .scalar ' ' ::
          Text.ofString "@@")) := by
    simp [headText, Text.ofString, Text.ofChars]
  have hmark : .scalar ' ' ∉ Text.ofString "@@" := by decide
  have hsigned (sign : CodePoint) (hsign : sign ≠ .scalar ' ') (before count : Nat) :
      .scalar ' ' ∉ sign :: rangeText before count := by
    rw [List.mem_cons]
    rintro (h | h)
    · exact hsign h.symm
    · exact not_mem_rangeText (by decide) (by decide) before count h
  rw [hhead, readHead, Text.cutAt_append hmark, Text.cutAt_append (hsigned _ (by decide) _ _),
    Text.cutAt_append (hsigned _ (by decide) _ _), Text.cutAt_of_not_mem hmark]
  simp [readRange_rangeText]

theorem readEdit_editText (e : Edit Text) : readEdit (editText e) = some e := by
  cases e <;> rfl

theorem readEdit_hunkHead (hunk : Hunk Text) : readEdit (hunkHead hunk) = none :=
  rfl

theorem readLines_append {lines : List Text} {edits : List (Edit Text)} {hunks : List (Hunk Text)}
    (h : readLines lines = some (edits, hunks)) (more : List (Edit Text)) :
    readLines (more.map editText ++ lines) = some (more ++ edits, hunks) := by
  induction more with
  | nil => exact h
  | cons e more ih =>
    rw [List.map_cons, List.cons_append, readLines, ih]
    simp [readEdit_editText]

theorem readLines_hunkLines (hunks : List (Hunk Text)) :
    readLines (hunks.flatMap hunkLines) = some ([], hunks) := by
  induction hunks with
  | nil => rfl
  | cons hunk rest ih =>
    have hedits := readLines_append ih hunk.edits
    rw [List.append_nil] at hedits
    have hhead : beforeSuffix? "\n" (hunkHead hunk) = some (headText hunk) :=
      beforeSuffix?_eq_some_iff.mpr (hunkHead_eq hunk)
    rw [List.flatMap_cons, hunkLines, List.cons_append, readLines, hedits]
    simp [readEdit_hunkHead, hhead, readHead_headText]

-- Hunks are read back as they were written.
theorem readHunks_hunkLines (hunks : List (Hunk Text)) :
    readHunks (hunks.flatMap hunkLines) = some hunks := by
  rw [readHunks, readLines_hunkLines]

end ReadmeTables.Diff
