import ReadmeTables.Text.Basic
/-!
Paths.

A path is a list of names, from where it starts. Empty names and single dots are left out
when a path is read; two dots are kept, since what they mean depends on the directory before
them. Exactly two slashes in front are kept, too, and mean the same as one.
-/

namespace ReadmeTables

-- Where a path starts.
inductive Anchor where
  | here
  | root
  | doubleRoot
deriving DecidableEq

namespace Anchor

def text : Anchor → Text
  | here => []
  | root => "/"
  | doubleRoot => "//"

def ofText (t : Text) : Anchor :=
  match (t.takeWhile (· = CodePoint.scalar '/')).length with
  | 0 => here
  | 2 => doubleRoot
  | _ => root

end Anchor

structure Path where
  anchor : Anchor
  parts : List Text
deriving DecidableEq

namespace Path

def dot : Text := "."

def dots : Text := ".."

-- A part that is no name and not two dots either.
def isVoid (part : Text) : Bool :=
  part = [] ∨ part = dot

def ofText (t : Text) : Path :=
  ⟨.ofText t, (t.cutAt '/').filter fun part => ¬ isVoid part⟩

-- The text of a path; a dot for a path without parts.
def text (p : Path) : Text :=
  if p.anchor = .here ∧ p.parts = [] then dot else p.anchor.text ++ Text.join "/" p.parts

-- A path that goes on from another, unless it starts at a root itself.
def append (p q : Path) : Path :=
  match q.anchor with
  | .here => ⟨p.anchor, p.parts ++ q.parts⟩
  | _ => q

-- Goes on from a path by a text.
def child (p : Path) (t : Text) : Path :=
  p.append (ofText t)

def isAbsolute (p : Path) : Bool :=
  p.anchor ≠ .here

-- The last part of a path; empty if there is none.
def name (p : Path) : Text :=
  p.parts.getLast?.getD []

def parent (p : Path) : Path :=
  ⟨p.anchor, p.parts.dropLast⟩

-- Adds a part to parts in reverse, where two dots take back the part before them. At a root
-- there is nothing to take back, and at the start of a relative path the dots stay.
def climb (absolute : Bool) (passed : List Text) (part : Text) : List Text :=
  if part = dots then
    match passed with
    | [] => if absolute then [] else [dots]
    | last :: rest => if last = dots then dots :: last :: rest else rest
  else part :: passed

-- The parts without two dots, as far as they can be taken back.
def collapse (absolute : Bool) (parts : List Text) : List Text :=
  (parts.foldl (climb absolute) []).reverse

-- The same place from a root, by the names alone.
def from_ (current p : Path) : Path :=
  let whole := current.append p
  ⟨whole.anchor, collapse true whole.parts⟩

-- What a path is seen from a directory above it.
def relativeTo? (p directory : Path) : Option Path :=
  if p.anchor = directory.anchor ∧ directory.parts.isPrefixOf p.parts then
    some ⟨.here, p.parts.drop directory.parts.length⟩
  else none

end Path

end ReadmeTables
