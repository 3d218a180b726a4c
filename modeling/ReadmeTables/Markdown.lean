import ReadmeTables.Reflection.Node
/-!
The Markdown of a module: the events that it fires, and a table of its methods and accessors.

A line feed in a description would break a row, so the first one becomes a space. Functions
and methods are described by their first signature, accessors by their own comment.
-/

namespace ReadmeTables.Markdown

open Reflection (Tag Comment Node Kind)

-- A description with its first line feed turned into a space.
def clean (t : Text) : Text :=
  Text.replaceFirst '\n' ' ' t

def eventItem (text : Text) : Text :=
  "- " ++ clean text ++ "\n"

-- The list of events, one for each tag.
def eventList (tags : List Tag) : Text :=
  "### Events\n\n" ++ tags.flatMap (fun tag => eventItem tag.text) ++ "\n"

def firesTag : Text := "fires"

def firedEvents (comment : Option Comment) : List Tag :=
  match comment with
  | some c => c.tags.filter fun tag => tag.name = firesTag
  | none => []

-- The list of the events that a module fires; nothing if there are none.
def events (module : Node) : Text :=
  let tags := firedEvents module.comment
  if tags.isEmpty then [] else eventList tags

-- The row of a function or method whose first signature has a description.
def functionRow (member : Node) : Text :=
  match member.signatures with
  | some (signature :: _) =>
    match signature.comment.bind Comment.shortText with
    | some (c :: rest) => member.name ++ " | " ++ clean (c :: rest) ++ " \n"
    | _ => []
  | _ => []

-- The row of an accessor that has a comment. The name is cleaned together with the
-- description.
def accessorRow (member : Node) : Text :=
  match member.comment with
  | some comment => clean (member.name ++ " | " ++ comment.shortText.getD []) ++ "\n"
  | none => []

def row (member : Node) : Text :=
  if member.kind = Kind.functionKind ∨ member.kind = Kind.method then functionRow member
  else if member.kind = Kind.accessor then accessorRow member
  else []

def tableHead : Text := "Method Signature | Description \n--- | --- \n"

-- The heading of a module and the table of its members.
def memberTable (module : Node) : Text :=
  "### " ++ module.name ++ "\n\n" ++ tableHead ++ module.members.flatMap row

-- What is written for a module.
def fragment (module : Node) : Text :=
  events module ++ memberTable module

end ReadmeTables.Markdown
