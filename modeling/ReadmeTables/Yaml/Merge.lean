import ReadmeTables.Yaml.Graph
/-!
Merge keys.

A merge key brings the pairs of another mapping, or of several, into its own. They come
before the pairs that are written there, so those win; of several mappings the first wins,
so it comes last. A mapping may bring in itself.
-/

namespace ReadmeTables.Yaml

namespace Graph

abbrev Pairs := List (Nat × Nat)

def pairsOf (g : Graph) (id : Nat) : Pairs :=
  match g[id]? with
  | some ⟨_, .mapping pairs⟩ => pairs
  | _ => []

def tagOf (g : Graph) (id : Nat) : Tag :=
  (g[id]?.map Node.tag).getD .unknown

def setPairs (g : Graph) (id : Nat) (pairs : Pairs) : Graph :=
  g.modify id fun node => { node with content := .mapping pairs }

-- As a key of a mapping, a default key is a text like others.
def keyAsText (g : Graph) (id : Nat) : Graph :=
  g.modify id fun node => if node.tag = .default then { node with tag := .text } else node

-- The number of pairs of all mappings.
def pairCount (g : Graph) : Nat :=
  g.foldl (fun count node =>
    match node.content with
    | .mapping pairs => count + pairs.length
    | _ => count) 0

-- The pairs of mappings that are merged together; `merge` writes out the merge keys of each.
def mergeItems (merge : Nat → Graph → Except Error Graph) :
    List Nat → Graph → Except Error (Graph × Pairs)
  | [], g => .ok (g, [])
  | item :: rest, g =>
    match g[item]? with
    | some ⟨_, .mapping _⟩ => do
      let g ← merge item g
      let here := pairsOf g item
      let (g, later) ← mergeItems merge rest g
      .ok (g, later ++ here)
    | _ => .error .malformed

-- The pairs that the value of a merge key brings in.
def mergeValue (merge : Nat → Graph → Except Error Graph) (value : Nat) (g : Graph) :
    Except Error (Graph × Pairs) :=
  match g[value]? with
  | some ⟨_, .mapping _⟩ => mergeItems merge [value] g
  | some ⟨_, .sequence items⟩ => mergeItems merge items g
  | _ => .error .malformed

-- Writes out the merge keys of a mapping from the pair at `index` on; `merged` are the pairs
-- that earlier ones brought in. A merge key is taken out before its value is looked at, and
-- none is ever put back, so `fuel` need not exceed their number by more than one.
def mergeFrom : (fuel id index : Nat) → (merged : Pairs) → Graph → Except Error Graph
  | 0, _, _, _, _ => .error .malformed
  | fuel + 1, id, index, merged, g =>
    let pairs := pairsOf g id
    let passed := (pairs.drop index).takeWhile fun pair => tagOf g pair.1 ≠ .merge
    let g := passed.foldl (fun g pair => keyAsText g pair.1) g
    let here := index + passed.length
    match pairs[here]? with
    | none => .ok (setPairs g id (merged ++ pairs))
    | some (_, value) => do
      let g := setPairs g id (pairs.eraseIdx here)
      let (g, more) ← mergeValue (fun id g => mergeFrom fuel id 0 [] g) value g
      mergeFrom fuel id here (merged ++ more) g

-- Writes out the merge keys of a mapping. `fuel` is at least the number of pairs that the
-- document has.
def mergeKeys (fuel id : Nat) (g : Graph) : Except Error Graph :=
  mergeFrom (fuel + 1) id 0 [] g

end Graph

end ReadmeTables.Yaml
