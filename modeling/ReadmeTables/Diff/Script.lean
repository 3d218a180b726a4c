/-!
Edit scripts between two lists of lines.

The longest common run of lines is kept, and the lines before it and after it are compared
in the same way. In a long text the lines that come very often do not begin a run, but a run
that is found goes on over them. Of runs as long as each other the first one wins, by its
place in the old text and then in the new one.
-/

namespace ReadmeTables.Diff

variable {α : Type} [DecidableEq α]

inductive Edit (α : Type) where
  | keep (line : α)
  | drop (line : α)
  | add (line : α)
deriving DecidableEq

namespace Edit

def isChange : Edit α → Bool
  | keep _ => false
  | _ => true

-- The line of the old text that an edit stands for.
def old? : Edit α → Option α
  | keep line => some line
  | drop line => some line
  | add _ => none

-- The line of the new text that an edit stands for.
def new? : Edit α → Option α
  | keep line => some line
  | drop _ => none
  | add line => some line

end Edit

-- A line of the new text, and whether a run may be found by it.
structure Candidate (α : Type) where
  line : α
  usable : Bool

-- A text of 200 lines or more has common lines: those that make up over a hundredth of it.
def isCommon (lines : List α) (line : α) : Bool :=
  200 ≤ lines.length && lines.length / 100 + 1 < lines.count line

def candidates (lines : List α) : List (Candidate α) :=
  lines.map fun line => ⟨line, !isCommon lines line⟩

-- Where a run begins in either text, and how long it is.
structure Run where
  old : Nat
  new : Nat
  length : Nat
deriving DecidableEq

-- The lengths of the runs that end at `line` of the old text and at each line of the new
-- one. `corner` and `row` are those lengths for the line before in the old text, `corner`
-- standing one line further back in the new one.
def nextRow (line : α) : (corner : Nat) → (row : List Nat) → List (Candidate α) → List Nat
  | corner, n :: row, c :: new =>
    (if c.usable && c.line = line then corner + 1 else 0) :: nextRow line n row new
  | _, _, _ => []

-- The best run so far, and those that end at line `i` of the old text.
def bestInRow (i : Nat) : (j : Nat) → Run → List Nat → Run
  | _, best, [] => best
  | j, best, n :: row =>
    bestInRow i (j + 1) (if best.length < n then ⟨i + 1 - n, j + 1 - n, n⟩ else best) row

def longestFrom (new : List (Candidate α)) : (i : Nat) → (row : List Nat) → Run → List α → Run
  | _, _, best, [] => best
  | i, row, best, line :: old =>
    let next := nextRow line 0 row new
    longestFrom new (i + 1) next (bestInRow i 0 best next) old

-- How many lines two texts have in common at their beginnings.
def commonStart : List α → List α → Nat
  | a :: as, b :: bs => if a = b then commonStart as bs + 1 else 0
  | _, _ => 0

-- The longest run, made as long as equal lines around it allow.
def longestRun (old : List α) (new : List (Candidate α)) : Run :=
  let best := longestFrom new 0 (new.map fun _ => 0) ⟨0, 0, 0⟩ old
  let lines := new.map Candidate.line
  let back := commonStart (old.take best.old).reverse (lines.take best.new).reverse
  let ahead := commonStart (old.drop (best.old + best.length)) (lines.drop (best.new + best.length))
  ⟨best.old - back, best.new - back, back + best.length + ahead⟩

-- The edits that turn the old lines into the new ones.
def scriptOf (old : List α) (new : List (Candidate α)) : List (Edit α) :=
  let run := longestRun old new
  match _found : (old.drop run.old).take run.length with
  | [] => old.map Edit.drop ++ new.map fun c => Edit.add c.line
  | line :: more =>
    scriptOf (old.take run.old) (new.take run.new)
      ++ (line :: more).map Edit.keep
      ++ scriptOf (old.drop (run.old + run.length)) (new.drop (run.new + run.length))
termination_by old.length + new.length
decreasing_by
  all_goals
    have hl := congrArg List.length _found
    simp +zetaDelta only [List.length_take, List.length_drop, List.length_cons] at hl ⊢
    omega

def script (old new : List α) : List (Edit α) :=
  scriptOf old (candidates new)

end ReadmeTables.Diff
