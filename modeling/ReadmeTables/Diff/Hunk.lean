import ReadmeTables.Diff.Script
/-!
Hunks: the parts of an edit script around its changes.

A kept line is shown if a change stands at most three lines away from it. The lines that are
shown one after another make a hunk.
-/

namespace ReadmeTables.Diff

variable {α : Type}

-- Some adjacent edits, with the number of lines that come before them in either text.
structure Hunk (α : Type) where
  old : Nat
  new : Nat
  edits : List (Edit α)
deriving DecidableEq

def contextLines : Nat := 3

-- For each edit, whether it is a change or stands at most three lines after one; `left` is
-- how many more lines the last change reaches.
def reached : (left : Nat) → List (Edit α) → List Bool
  | _, [] => []
  | left, e :: rest =>
    if e.isChange then true :: reached contextLines rest
    else (0 < left) :: reached (left - 1) rest

-- For each edit, whether it is shown.
def shown (edits : List (Edit α)) : List Bool :=
  List.zipWith (· || ·) (reached 0 edits) (reached 0 edits.reverse).reverse

def oldCount (e : Edit α) : Nat := e.old?.toList.length

def newCount (e : Edit α) : Nat := e.new?.toList.length

-- Puts an edit in front of the hunk that follows it at once, or makes it a hunk of its own.
def attach (old new : Nat) (e : Edit α) (adjacent : Bool) : List (Hunk α) → List (Hunk α)
  | [] => [⟨old, new, [e]⟩]
  | hunk :: rest =>
    if adjacent then ⟨old, new, e :: hunk.edits⟩ :: rest else ⟨old, new, [e]⟩ :: hunk :: rest

-- The hunks of a script of which `old` and `new` lines have passed.
def hunksFrom (old new : Nat) : List (Edit α × Bool) → List (Hunk α)
  | [] => []
  | (e, isShown) :: rest =>
    let later := hunksFrom (old + oldCount e) (new + newCount e) rest
    if isShown then attach old new e ((rest.head?.map Prod.snd).getD false) later else later

def hunks (edits : List (Edit α)) : List (Hunk α) :=
  hunksFrom 0 0 (edits.zip (shown edits))

end ReadmeTables.Diff
