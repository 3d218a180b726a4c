import ReadmeTables.Yaml.Merge
/-!
The value of a YAML document.

All of a document is read, so that any fault in it is found, level by level from the root;
what is kept are the items of the root. A node that is met again is not read again. Any depth is
read here, too.
-/

namespace ReadmeTables.Yaml

-- What a node says: a scalar, or some collection.
inductive Item where
  | scalar (value : Scalar)
  | collection

-- The value of a root. The items of a list or of a set are not kept.
inductive Value where
  | nothing
  | scalar (value : Scalar)
  | list (isEmpty : Bool)
  | set (isEmpty : Bool)
  | mapping (entries : List (Scalar × Item))

def Tag.isCollection : Tag → Bool
  | sequence | mapping | set | orderedMap | pairs => true
  | _ => false

namespace Reader

-- A document whose values are being read: its nodes, the items of those that have been met,
-- the collections whose own items are still to be read, and the number of pairs there were.
structure State where
  nodes : Graph
  items : Array (Option Item)
  queue : List Nat
  pairs : Nat

abbrev Reading := StateT State (Except Error)

def malformed : Reading α :=
  throw .malformed

-- The text of a node that is read as a scalar. A mapping stands for the value of its default
-- key.
def scalarText (g : Graph) : (fuel id : Nat) → Except Error Text
  | 0, _ => .error .malformed
  | fuel + 1, id =>
    match g[id]? with
    | some ⟨_, .scalar text⟩ => .ok text
    | some ⟨_, .mapping pairs⟩ =>
      match pairs.find? fun pair => g.tagOf pair.1 = .default with
      | some (_, value) => scalarText g fuel value
      | none => .error .malformed
    | _ => .error .malformed

-- The scalar of a node. Only a moment must be written as one.
def scalarOf (g : Graph) (id : Nat) (node : Node) : Except Error Scalar := do
  let text ← scalarText g (g.size + 1) id
  match node.tag, node.content with
  | .moment, .mapping _ => .error .momentOfPairs
  | tag, _ => Scalar.read tag text

def setItem (id : Nat) (item : Item) : Reading Unit :=
  modify fun s => { s with items := s.items.setIfInBounds id (some item) }

-- The item of a node. A collection gets in line when it is met first.
def item (id : Nat) : Reading Item := do
  let s ← get
  match s.items[id]?, s.nodes[id]? with
  | some (some item), _ => pure item
  | _, none => malformed
  | _, some node =>
    if node.tag.isCollection then do
      setItem id .collection
      modify fun s => { s with queue := s.queue ++ [id] }
      pure .collection
    else do
      let value ← scalarOf s.nodes id node
      setItem id (.scalar value)
      pure (.scalar value)

-- A key of a mapping cannot be a collection.
def key (id : Nat) : Reading Scalar := do
  match ← item id with
  | .scalar value => pure value
  | .collection => malformed

-- The entries of a mapping, with its merge keys written out.
def entries (id : Nat) : Reading (List (Scalar × Item)) := do
  let s ← get
  let nodes ← s.nodes.mergeKeys s.pairs id
  set { s with nodes := nodes }
  (nodes.pairsOf id).mapM fun (keyId, valueId) => do
    let key ← key keyId
    let value ← item valueId
    pure (key, value)

-- A single pair as an item of a list.
def singlePair (id : Nat) : Reading Unit := do
  match (← get).nodes[id]? with
  | some ⟨_, .mapping [(keyId, valueId)]⟩ => do
    let _ ← item keyId
    let _ ← item valueId
  | _ => malformed

-- The value of a collection. It must be written as its type asks.
def collection (id : Nat) : Reading Value := do
  match (← get).nodes[id]? with
  | some ⟨.sequence, .sequence items⟩ => do
    items.forM fun id => do
      let _ ← item id
    pure (.list items.isEmpty)
  | some ⟨.orderedMap, .sequence items⟩ | some ⟨.pairs, .sequence items⟩ => do
    items.forM singlePair
    pure (.list items.isEmpty)
  | some ⟨.mapping, .mapping _⟩ => .mapping <$> entries id
  | some ⟨.set, .mapping _⟩ => (fun list => .set list.isEmpty) <$> entries id
  | _ => malformed

-- Reads the collections in line, which come in once each, so `fuel` need not exceed the
-- number of nodes.
def rest : (fuel : Nat) → Reading Unit
  | 0 => pure ()
  | fuel + 1 => do
    let s ← get
    match s.queue with
    | [] => pure ()
    | id :: queue => do
      set { s with queue := queue }
      let _ ← collection id
      rest fuel

def root (id : Nat) : Reading Value := do
  match ← item id with
  | .scalar value => pure (.scalar value)
  | .collection => do
    modify fun s => { s with queue := [] }
    let value ← collection id
    rest (← get).nodes.size
    pure value

end Reader

-- The value of a document.
def Value.ofDocument (document : Document) : Except Error Value :=
  match document.root with
  | none => .ok .nothing
  | some id =>
    let nodes := document.nodes
    let start : Reader.State := ⟨nodes, Array.replicate nodes.size none, [], nodes.pairCount⟩
    (Reader.root id).run' start

-- The value that a text writes.
def read (chars : List Char) : Except Error Value := do
  let document ← Document.ofStream (Stream.ofChars chars)
  Value.ofDocument document

end ReadmeTables.Yaml
