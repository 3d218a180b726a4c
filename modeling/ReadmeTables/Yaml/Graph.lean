import ReadmeTables.Yaml.Scalar
import ReadmeTables.Yaml.Token
/-!
The nodes of a YAML document.

Nodes are numbered in the order in which they begin, and collections hold the numbers of
their items. An alias gives the number of the node with its anchor, which may be a node that
is still open, so a collection may hold itself.
-/

namespace ReadmeTables.Yaml

inductive Content where
  | scalar (text : Text)
  | sequence (items : List Nat)
  | mapping (pairs : List (Nat × Nat))

structure Node where
  tag : Tag
  content : Content

abbrev Graph := Array Node

namespace Graph

-- A document being read: the tokens to come and how they end, the nodes so far, their
-- anchors, and the handles of tags.
structure State where
  tokens : List Token
  ending : Ending
  nodes : Graph
  anchors : List (List Char × Nat)
  handles : List (List Char × List Char)

abbrev Reading := StateT State (Except Error)

def malformed : Reading α :=
  throw .malformed

-- The next token. Where the tokens break off, so does the reading.
def next : Reading Token := do
  let s ← get
  match s.tokens with
  | token :: _ => pure token
  | [] =>
    match s.ending with
    | .broken e => throw e
    | .complete => malformed

def advance : Reading Unit :=
  modify fun s => { s with tokens := s.tokens.drop 1 }

def isKey : Token → Bool
  | .key => true
  | _ => false

def isValue : Token → Bool
  | .value => true
  | _ => false

def isEntry : Token → Bool
  | .entry => true
  | _ => false

def isSeparator : Token → Bool
  | .separator => true
  | _ => false

def isBlockEnd : Token → Bool
  | .blockEnd => true
  | _ => false

def isFlowSequenceEnd : Token → Bool
  | .flowSequenceEnd => true
  | _ => false

def isFlowMappingEnd : Token → Bool
  | .flowMappingEnd => true
  | _ => false

def isDocumentStart : Token → Bool
  | .documentStart => true
  | _ => false

def isDocumentEnd : Token → Bool
  | .documentEnd => true
  | _ => false

def isStreamEnd : Token → Bool
  | .streamEnd => true
  | _ => false

def isDirective : Token → Bool
  | .directive _ => true
  | _ => false

-- Takes the next token if it is of a sort; says whether it was.
def accept (isSort : Token → Bool) : Reading Bool := do
  if isSort (← next) then
    advance
    pure true
  else pure false

def require (isSort : Token → Bool) : Reading Unit := do
  if ← accept isSort then pure () else malformed

-- Adds a node, and names it if it has an anchor.
def addNode (anchor : Option (List Char)) (node : Node) : Reading Nat := do
  let s ← get
  let id := s.nodes.size
  let anchors :=
    match anchor with
    | some name => (name, id) :: s.anchors
    | none => s.anchors
  set { s with nodes := s.nodes.push node, anchors := anchors }
  pure id

def setContent (id : Nat) (content : Content) : Reading Unit :=
  modify fun s => { s with nodes := s.nodes.modify id fun node => { node with content := content } }

-- A scalar that is not written.
def emptyNode : Reading Nat :=
  addNode none ⟨.null, .scalar []⟩

-- What may stand before a node.
structure Properties where
  anchor : Option (List Char)
  tag : Option TagName

def acceptAnchor : Reading (Option (List Char)) := do
  match ← next with
  | .anchor name =>
    advance
    pure (some name)
  | _ => pure none

def acceptTag : Reading (Option TagName) := do
  match ← next with
  | .tag name =>
    advance
    pure (some name)
  | _ => pure none

-- An anchor and a tag, in either order.
def properties : Reading Properties := do
  match ← acceptAnchor with
  | some anchor => do
    let tag ← acceptTag
    pure ⟨some anchor, tag⟩
  | none =>
    match ← acceptTag with
    | some tag => do
      let anchor ← acceptAnchor
      pure ⟨anchor, some tag⟩
    | none => pure ⟨none, none⟩

-- The full name of a tag; its handle must be known.
def fullName (tag : TagName) : Reading (List Char) := do
  match tag.handle with
  | none => pure tag.suffix
  | some handle =>
    match (← get).handles.find? fun entry => entry.1 = handle with
    | some (_, address) => pure (address ++ tag.suffix)
    | none => malformed

-- The tag that a node has by its properties; none where its form tells the tag.
def givenName (properties : Properties) : Reading (Option (List Char)) := do
  match properties.tag with
  | none => pure none
  | some tag => some <$> fullName tag

def openTag : List Char := ['!']

-- An anchor must be new.
def checkAnchor (anchor : Option (List Char)) : Reading Unit := do
  match anchor with
  | none => pure ()
  | some name => if ((← get).anchors.any fun entry => entry.1 = name) then malformed else pure ()

def scalarTag (name : Option (List Char)) (text : Text) (plain : Bool) : Tag :=
  match name with
  | none => if plain then Tag.ofForm text else .text
  | some name => if name = openTag then Tag.ofForm text else Tag.ofName name

def collectionTag (name : Option (List Char)) (byForm : Tag) : Tag :=
  match name with
  | none => byForm
  | some name => if name = openTag then byForm else Tag.ofName name

def aliasNode (name : List Char) : Reading Nat := do
  match (← get).anchors.find? fun entry => entry.1 = name with
  | some (_, id) => pure id
  | none => malformed

-- Which forms a node may have in its place: block collections, and entries without an
-- indentation of their own.
structure Place where
  block : Bool
  entries : Bool

def inFlow : Place := ⟨false, false⟩

def inBlock : Place := ⟨true, false⟩

def inMapping : Place := ⟨true, true⟩

-- Adds a collection whose content `read` gives.
def collection (properties : Properties) (name : Option (List Char)) (byForm : Tag)
    (empty : Content) (read : Reading Content) : Reading Nat := do
  checkAnchor properties.anchor
  let id ← addNode properties.anchor ⟨collectionTag name byForm, empty⟩
  let content ← read
  setContent id content
  pure id

-- A node that may be left out before some tokens.
def nodeUnless (ends : Token → Bool) (read : Reading Nat) : Reading Nat := do
  if ends (← next) then emptyNode else read

mutual

-- Reads a node; `fuel` bounds the depth and the number of steps.
def node : Nat → Place → Reading Nat
  | 0, _ => malformed
  | fuel + 1, place => do
    match ← next with
    | .alias name => do
      advance
      aliasNode name
    | _ => do
      let properties ← properties
      let name ← givenName properties
      match ← next with
      | .scalar text plain => do
        advance
        checkAnchor properties.anchor
        addNode properties.anchor ⟨scalarTag name text plain, .scalar text⟩
      | .flowSequenceStart =>
        collection properties name .sequence (.sequence []) do
          advance
          .sequence <$> flowItems fuel true
      | .flowMappingStart =>
        collection properties name .mapping (.mapping []) do
          advance
          .mapping <$> flowPairs fuel true
      | .blockSequenceStart =>
        if place.block then
          collection properties name .sequence (.sequence []) do
            advance
            .sequence <$> blockItems fuel
        else malformed
      | .blockMappingStart =>
        if place.block then
          collection properties name .mapping (.mapping []) do
            advance
            .mapping <$> blockPairs fuel
        else malformed
      | .entry =>
        if place.entries then
          collection properties name .sequence (.sequence []) (.sequence <$> bareItems fuel)
        else leftOut properties name
      | _ => leftOut properties name

-- A node of which only the properties are written.
def leftOut (properties : Properties) (name : Option (List Char)) : Reading Nat := do
  if properties.anchor.isNone && properties.tag.isNone then malformed
  else do
    checkAnchor properties.anchor
    addNode properties.anchor ⟨scalarTag name [] true, .scalar []⟩

-- The entries of a block, up to its end.
def blockItems : Nat → Reading (List Nat)
  | 0 => malformed
  | fuel + 1 => do
    if ← accept isEntry then do
      let item ← nodeUnless (fun t => isEntry t || isBlockEnd t) (node fuel inBlock)
      (item :: ·) <$> blockItems fuel
    else do
      require isBlockEnd
      pure []

-- Entries that stand at the column of the mapping around them.
def bareItems : Nat → Reading (List Nat)
  | 0 => malformed
  | fuel + 1 => do
    if ← accept isEntry then do
      let item ← nodeUnless (fun t => isEntry t || isKey t || isValue t || isBlockEnd t)
        (node fuel inBlock)
      (item :: ·) <$> bareItems fuel
    else pure []

-- The pairs of a block, up to its end.
def blockPairs : Nat → Reading (List (Nat × Nat))
  | 0 => malformed
  | fuel + 1 => do
    if ← accept isKey then do
      let ends (t : Token) : Bool := isKey t || isValue t || isBlockEnd t
      let key ← nodeUnless ends (node fuel inMapping)
      let value ←
        if ← accept isValue then nodeUnless ends (node fuel inMapping) else emptyNode
      ((key, value) :: ·) <$> blockPairs fuel
    else do
      require isBlockEnd
      pure []

-- The items of a sequence in brackets, up to its end; an item may be a single pair.
def flowItems : Nat → Bool → Reading (List Nat)
  | 0, _ => malformed
  | fuel + 1, isFirst => do
    if ← accept isFlowSequenceEnd then pure []
    else do
      if isFirst then pure () else require isSeparator
      if isKey (← next) then do
        let item ← collection ⟨none, none⟩ none .mapping (.mapping []) do
          advance
          let ends (t : Token) : Bool := isSeparator t || isFlowSequenceEnd t
          let key ← nodeUnless (fun t => isValue t || ends t) (node fuel inFlow)
          let value ←
            if ← accept isValue then nodeUnless ends (node fuel inFlow) else emptyNode
          pure (.mapping [(key, value)])
        (item :: ·) <$> flowItems fuel false
      else if ← accept isFlowSequenceEnd then pure []
      else do
        let item ← node fuel inFlow
        (item :: ·) <$> flowItems fuel false

-- The pairs of a mapping in brackets, up to its end; a value may be left out.
def flowPairs : Nat → Bool → Reading (List (Nat × Nat))
  | 0, _ => malformed
  | fuel + 1, isFirst => do
    if ← accept isFlowMappingEnd then pure []
    else do
      if isFirst then pure () else require isSeparator
      let ends (t : Token) : Bool := isSeparator t || isFlowMappingEnd t
      if ← accept isKey then do
        let key ← nodeUnless (fun t => isValue t || ends t) (node fuel inFlow)
        let value ←
          if ← accept isValue then nodeUnless ends (node fuel inFlow) else emptyNode
        ((key, value) :: ·) <$> flowPairs fuel false
      else if ← accept isFlowMappingEnd then pure []
      else do
        let key ← node fuel inFlow
        let value ← emptyNode
        ((key, value) :: ·) <$> flowPairs fuel false

end

def defaultHandles : List (List Char × List Char) :=
  [(['!'], ['!']), (['!', '!'], Tag.standardPrefix)]

-- Reads the directives before a document. There is one version at most, which must be 1, and
-- a handle is set once.
def directives : Nat → Bool → List (List Char × List Char) → Reading Unit
  | 0, _, _ => malformed
  | fuel + 1, hasVersion, handles => do
    match ← next with
    | .directive (.version major) => do
      advance
      if hasVersion || major ≠ 1 then malformed else directives fuel true handles
    | .directive (.tag handle address) => do
      advance
      if handles.any fun entry => entry.1 = handle then malformed
      else directives fuel hasVersion ((handle, address) :: handles)
    | .directive .other => do
      advance
      directives fuel hasVersion handles
    | _ => modify fun s => { s with handles := handles ++ defaultHandles }

def acceptDocumentEnds : Nat → Reading Unit
  | 0 => pure ()
  | fuel + 1 => do
    if ← accept isDocumentEnd then acceptDocumentEnds fuel else pure ()

-- Reads the only document of a text, if there is one, and gives its root.
def document (fuel : Nat) : Reading (Option Nat) := do
  let first ← next
  if isStreamEnd first then pure none
  else do
    let root ←
      if isDirective first || isDocumentStart first then do
        directives fuel false []
        require isDocumentStart
        nodeUnless
          (fun t => isDirective t || isDocumentStart t || isDocumentEnd t || isStreamEnd t)
          (node fuel inBlock)
      else do
        modify fun s => { s with handles := defaultHandles }
        node fuel inBlock
    acceptDocumentEnds fuel
    if isStreamEnd (← next) then pure (some root)
    else do
      directives fuel false []
      let _ ← next
      malformed

end Graph

-- A document: its nodes and its root, if there is one.
structure Document where
  nodes : Graph
  root : Option Nat

-- The document that tokens write. Every step takes a token or goes down by one that does.
def Document.ofStream (stream : Stream) : Except Error Document := do
  let start : Graph.State := ⟨stream.tokens, stream.ending, #[], [], []⟩
  let (root, s) ← (Graph.document (4 * stream.tokens.length + 8)).run start
  .ok ⟨s.nodes, root⟩

end ReadmeTables.Yaml
