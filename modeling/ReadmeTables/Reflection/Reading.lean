import ReadmeTables.Json.Value
import ReadmeTables.Reflection.Node
/-!
Reflection trees from JSON.

Whatever a field should not hold is read as if the field were absent, and entries of a list
that should not be there are passed over. Only objects are nodes, comments, signatures and
tags.
-/

namespace ReadmeTables.Reflection

open Json (Value Members)

def textField? (key : Text) (members : Members) : Option Text :=
  (Members.get? key members).bind Value.text?

-- A tag is an object with a name; a text of another type counts as empty.
def Tag.ofValue? : Value → Option Tag
  | .object members =>
    (textField? "tag" members).map fun name => ⟨name, (textField? "text" members).getD []⟩
  | _ => none

def tagsOf : Option Value → List Tag
  | some (.list items) => items.filterMap Tag.ofValue?
  | _ => []

def Comment.ofValue? : Value → Option Comment
  | .object members =>
    some ⟨textField? "shortText" members, textField? "text" members,
      tagsOf (Members.get? "tags" members)⟩
  | _ => none

def commentField? (members : Members) : Option Comment :=
  (Members.get? "comment" members).bind Comment.ofValue?

def Signature.ofValue? : Value → Option Signature
  | .object members => some ⟨(textField? "name" members).getD [], commentField? members⟩
  | _ => none

def signaturesOf : Option Value → Option (List Signature)
  | some (.list items) => some (items.filterMap Signature.ofValue?)
  | _ => none

-- A kind is a whole number; neither a truth value nor a number with a fraction is one.
def kindOf : Option Value → Kind
  | some (.whole n) => ⟨n⟩
  | _ => Kind.global

mutual

def Node.ofValue? : Value → Option Node
  | .object members => some
      { name := (textField? "name" members).getD []
        kind := kindOf (Members.get? "kind" members)
        children := childrenIn members
        comment := commentField? members
        signatures := signaturesOf (Members.get? "signatures" members) }
  | _ => none

-- The children that the members of an object tell of.
def childrenIn : List (Text × Value) → Option (List Node)
  | [] => none
  | (key, value) :: rest => if key = "children" then childList value else childrenIn rest

def childList : Value → Option (List Node)
  | .list items => some (nodesIn items)
  | _ => none

-- The nodes among the items of a list.
def nodesIn : List Value → List Node
  | [] => []
  | item :: rest =>
    match Node.ofValue? item with
    | some node => node :: nodesIn rest
    | none => nodesIn rest

end

theorem nodesIn_eq_filterMap (items : List Value) :
    nodesIn items = items.filterMap Node.ofValue? := by
  induction items with
  | nil => simp [nodesIn]
  | cons item rest ih => cases h : Node.ofValue? item <;> simp [nodesIn, h, ih]

end ReadmeTables.Reflection
