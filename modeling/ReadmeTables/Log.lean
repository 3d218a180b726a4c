import ReadmeTables.Text.Basic
/-!
Log records.

A record has a level, the part of the program that wrote it, and a message. The name of a
part stands behind the name of the program; a record without a part is the program's own.
Names are nested at their points, and a record is the program's as long as its name is nested
in the program's. Main statement: the record of a part whose name does not begin with a point
always is.
-/

namespace ReadmeTables

namespace Log

-- The numbers of the levels that have a name, and of none at all.
def namedRanks : List Nat := [0, 10, 20, 30, 40, 50]

inductive Level where
  | debug
  | info
  | warning
  | error
  | critical
  | numbered (rank : Nat) (unnamed : rank ∉ namedRanks)
deriving DecidableEq

namespace Level

def rank : Level → Nat
  | debug => 10
  | info => 20
  | warning => 30
  | error => 40
  | critical => 50
  | numbered rank _ => rank

def label : Level → Text
  | debug => "DEBUG"
  | info => "INFO"
  | warning => "WARNING"
  | error => "ERROR"
  | critical => "CRITICAL"
  | numbered rank _ => "Level " ++ Text.ofNat rank

end Level

structure Record where
  level : Level
  source : Text
  message : Text
deriving DecidableEq

def programName : Text := "tsdocgen"

-- A message with its level.
def Record.taggedText (record : Record) : Text :=
  "[" ++ programName ++ "] " ++ record.level.label ++ " " ++ record.message

-- A record as progress: a plain message as it is, and all else with its level.
def Record.progressText (record : Record) : Text :=
  if record.level = .info then record.message else record.taggedText

-- The full name of the source of a record.
def Record.sourceName (record : Record) : Text :=
  if record.source = [] then programName else programName ++ "." ++ record.source

-- Whether a record has the name and the level of another one.
def Record.asksAs (record other : Record) : Bool :=
  record.sourceName = other.sourceName && record.level.rank = other.level.rank

-- Whether a name, read backwards, is nested in the program's. The name around a name is what
-- stands before a point. Points are looked for from the end on, and what stands right before a
-- point is passed over, unless that name is itself in use.
def isNested (used : List Text) : Text → Bool
  | [] => false
  | c :: rest =>
    if c = .scalar '.' then
      rest.reverse = programName || isNested used (if rest.reverse ∈ used then rest else rest.drop 1)
    else isNested used rest
termination_by name => name.length
decreasing_by
  · rw [List.length_cons]
    split
    · omega
    · rw [List.length_drop]
      omega
  · simp

-- Whether a record is the program's, where some names are in use.
def Record.isOwn (used : List Text) (record : Record) : Bool :=
  record.sourceName = programName || isNested used record.sourceName.reverse

theorem isNested_append (used : List Text) {name : Text}
    (h : name.getLast? ≠ some (.scalar '.')) :
    isNested used (name ++ .scalar '.' :: programName.reverse) := by
  induction hn : name.length using Nat.strongRecOn generalizing name with
  | ind n ih =>
    cases name with
    | nil => simp [isNested]
    | cons c rest =>
      -- what is left of the name does not end with a point either
      have ends (left : Text) (hleft : left <:+ rest) :
          left.getLast? ≠ some (.scalar '.') := by
        intro e
        obtain ⟨front, rfl⟩ := hleft
        apply h
        rw [← List.cons_append, List.getLast?_append, e]
        rfl
      have step (left : Text) (hleft : left <:+ rest) :
          isNested used (left ++ .scalar '.' :: programName.reverse) := by
        have hlength := hleft.length_le
        simp only [List.length_cons] at hn
        exact ih left.length (by omega) (ends left hleft) rfl
      rw [List.cons_append, isNested]
      split
      · rw [Bool.or_eq_true]
        right
        split
        · exact step rest (List.suffix_refl rest)
        · cases rest with
          | nil => simp_all
          | cons d left => exact step left (List.suffix_cons d left)
      · exact step rest (List.suffix_refl rest)

-- A part may have any name that does not begin with a point.
theorem Record.isOwn_of_head {record : Record} (used : List Text)
    (h : record.source.head? ≠ some (.scalar '.')) : record.isOwn used := by
  rw [isOwn, Bool.or_eq_true]
  by_cases hs : record.source = []
  · left
    simp [sourceName, hs]
  · right
    have hlast : record.source.reverse.getLast? ≠ some (.scalar '.') := by simpa using h
    have hname : record.sourceName.reverse
        = record.source.reverse ++ .scalar '.' :: programName.reverse := by
      simp [sourceName, hs, Text.ofString, Text.ofChars]
    rw [hname]
    exact isNested_append used hlast

def extraction : Text := "extractor"

def patching : Text := "patcher"

def running : Text := "orchestrator"

end Log

end ReadmeTables
