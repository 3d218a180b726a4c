import ReadmeTables.Reflection.Kind
/-!
The reflection tree: sections, the modules in them and the members of those.
-/

namespace ReadmeTables.Reflection

-- A tag of a comment with the text that follows it.
structure Tag where
  name : Text
  text : Text
deriving DecidableEq

structure Comment where
  shortText : Option Text
  text : Option Text
  tags : List Tag
deriving DecidableEq

structure Signature where
  name : Text
  comment : Option Comment
deriving DecidableEq

structure Node where
  name : Text
  kind : Kind
  children : Option (List Node)
  comment : Option Comment
  signatures : Option (List Signature)

-- The children of a node; a node without a list of them has none.
def Node.members (node : Node) : List Node :=
  node.children.getD []

-- Nodes are compared along with the nodes below them.
mutual

def Node.decEq : (a b : Node) → Decidable (a = b)
  | ⟨name, kind, children, comment, signatures⟩,
    ⟨name', kind', children', comment', signatures'⟩ =>
    have := Node.decEqChildren children children'
    decidable_of_iff (name = name' ∧ kind = kind' ∧ children = children' ∧ comment = comment' ∧
      signatures = signatures') (by rw [Node.mk.injEq])

def Node.decEqChildren : (a b : Option (List Node)) → Decidable (a = b)
  | none, none => isTrue rfl
  | none, some _ => isFalse nofun
  | some _, none => isFalse nofun
  | some a, some b =>
    have := Node.decEqList a b
    decidable_of_iff (a = b) (by rw [Option.some.injEq])

def Node.decEqList : (a b : List Node) → Decidable (a = b)
  | [], [] => isTrue rfl
  | [], _ :: _ => isFalse nofun
  | _ :: _, [] => isFalse nofun
  | a :: as, b :: bs =>
    have := Node.decEq a b
    have := Node.decEqList as bs
    decidable_of_iff (a = b ∧ as = bs) (by rw [List.cons.injEq])

end

instance : DecidableEq Node := Node.decEq

end ReadmeTables.Reflection
