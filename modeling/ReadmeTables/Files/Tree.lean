import ReadmeTables.Text.Utf8
/-!
File trees.

A tree has entries at locations, and each entry is a directory or a file with its bytes. The
root is always a directory. A location lists names from the innermost one outwards, so the
location of a directory is the tail of the locations in it.
-/

namespace ReadmeTables

abbrev Name := Utf8.Bytes

abbrev Location := List Name

inductive Entry where
  | directory
  | file (bytes : Utf8.Bytes)
deriving DecidableEq

structure Tree where
  entries : List (Location × Entry)
deriving DecidableEq

-- Why the system refuses to open or to make something.
inductive Refusal where
  | missing
  | notDirectory
  | isDirectory
  | present
  | nameTooLong
  | locked
deriving DecidableEq

namespace Refusal

def code : Refusal → Nat
  | missing => 2
  | locked => 13
  | present => 17
  | notDirectory => 20
  | isDirectory => 21
  | nameTooLong => 36

def phrase : Refusal → Text
  | missing => "No such file or directory"
  | locked => "Permission denied"
  | present => "File exists"
  | notDirectory => "Not a directory"
  | isDirectory => "Is a directory"
  | nameTooLong => "File name too long"

end Refusal

namespace Tree

def find (location : Location) : List (Location × Entry) → Option Entry
  | [] => none
  | (l, e) :: rest => if l = location then some e else find location rest

def get? (tree : Tree) (location : Location) : Option Entry :=
  if location = [] then some .directory else find location tree.entries

def put (location : Location) (entry : Entry) : List (Location × Entry) → List (Location × Entry)
  | [] => [(location, entry)]
  | (l, e) :: rest =>
    if l = location then (l, entry) :: rest else (l, e) :: put location entry rest

def set (tree : Tree) (location : Location) (entry : Entry) : Tree :=
  ⟨put location entry tree.entries⟩

-- The bytes of a file.
def bytes? (tree : Tree) (location : Location) : Option Utf8.Bytes :=
  match tree.get? location with
  | some (.file bytes) => some bytes
  | _ => none

def twoDots : Name := [0x2E, 0x2E]

-- The most bytes of a name.
def nameLimit : Nat := 255

-- Follows names from a location. All but the last must lead to directories; the last one may
-- lead to nothing.
def walk (tree : Tree) : Location → List Name → Except Refusal Location
  | location, [] => .ok location
  | location, name :: rest =>
    match tree.get? location with
    | none => .error .missing
    | some (.file _) => .error .notDirectory
    | some .directory =>
      if name = twoDots then tree.walk location.tail rest
      else if nameLimit < name.length then .error .nameTooLong
      else tree.walk (name :: location) rest

theorem find_put (location other : Location) (entry : Entry) (entries : List (Location × Entry)) :
    find other (put location entry entries) =
      if other = location then some entry else find other entries := by
  induction entries with
  | nil =>
    by_cases h : other = location
    · simp [put, find, h]
    · simp [put, find, h, Ne.symm h]
  | cons first rest ih =>
    obtain ⟨l, e⟩ := first
    by_cases hl : l = location
    · subst hl
      by_cases h : other = l
      · simp [put, find, h]
      · simp [put, find, h, Ne.symm h]
    · by_cases ho : l = other
      · subst ho
        simp [put, find, hl]
      · simp [put, find, hl, ho, ih]

theorem put_put (location : Location) (former entry : Entry) (entries : List (Location × Entry)) :
    put location entry (put location former entries) = put location entry entries := by
  induction entries with
  | nil => simp [put]
  | cons first rest ih =>
    obtain ⟨l, e⟩ := first
    by_cases hl : l = location
    · simp [put, hl]
    · simp [put, hl, ih]

theorem set_set (tree : Tree) (location : Location) (former entry : Entry) :
    (tree.set location former).set location entry = tree.set location entry := by
  simp only [set, put_put]

theorem get?_set (tree : Tree) {location : Location} (other : Location) (entry : Entry)
    (h : location ≠ []) :
    (tree.set location entry).get? other =
      if other = location then some entry else tree.get? other := by
  by_cases ho : other = []
  · simp [get?, ho, Ne.symm h]
  · simp [get?, ho, set, find_put]

end Tree

end ReadmeTables
