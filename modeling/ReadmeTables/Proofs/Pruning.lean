import ReadmeTables.Proofs.Walk
/-!
Reflection trees without what they should not hold.

Every object of a document has a form: it is a node, a signature, a comment or a tag. A form has
fields, each with the form of what should stand in it. Pruning takes away the members that are no
fields or do not hold what they should, and the items of lists that are not what should be listed.
Main statement: what is pruned has its form, is read as before, and so changes nothing that a walk
collects or logs.
-/

namespace ReadmeTables

namespace Json

-- What holds of a list or an object whenever it holds of all values in it holds of every value.
@[elab_as_elim]
theorem Value.inductionOn {motive : Value → Prop} (value : Value)
    (null : motive .null) (bool : ∀ b, motive (.bool b)) (whole : ∀ n, motive (.whole n))
    (real : ∀ x, motive (.real x)) (text : ∀ t, motive (.text t))
    (list : ∀ items, (∀ item ∈ items, motive item) → motive (.list items))
    (object : ∀ members : Members, (∀ member ∈ members, motive member.2) →
      motive (.object members)) : motive value :=
  match value with
  | .null => null
  | .bool b => bool b
  | .whole n => whole n
  | .real x => real x
  | .text t => text t
  | .list items => list items fun item hitem =>
      have := List.sizeOf_lt_of_mem hitem
      Value.inductionOn item null bool whole real text list object
  | .object members => object members fun member hmember =>
      have hmembers := List.sizeOf_lt_of_mem hmember
      have : sizeOf member.2 < sizeOf member := by
        cases member
        simp only [Prod.mk.sizeOf_spec]
        omega
      Value.inductionOn member.2 null bool whole real text list object

namespace Members

-- The members with every one of a key taken out.
def without (key : Text) (members : Members) : Members :=
  members.filter fun member => member.1 ≠ key

theorem mem_of_get? {key : Text} {value : Value} {members : Members}
    (h : get? key members = some value) : (key, value) ∈ members := by
  induction members with
  | nil => simp [get?] at h
  | cons member rest ih =>
    obtain ⟨k, v⟩ := member
    by_cases hk : k = key
    · simp only [get?, hk, if_true, Option.some.injEq] at h
      simp [hk, h]
    · simp only [get?, hk, if_false] at h
      exact List.mem_cons_of_mem _ (ih h)

theorem get?_without (key other : Text) (members : Members) :
    get? key (without other members) = if key = other then none else get? key members := by
  induction members with
  | nil => simp [without, get?]
  | cons member rest ih =>
    obtain ⟨k, v⟩ := member
    rw [without] at ih ⊢
    by_cases hk : k = other
    · by_cases hkey : key = other
      · simpa [hk, hkey] using ih
      · simpa [hk, hkey, Ne.symm hkey, get?] using ih
    · by_cases hkey : k = key
      · subst hkey
        simp [hk, get?]
      · simpa [hk, hkey, get?] using ih

end Members

end Json

namespace Reflection

open Json (Value Members)

-- What a place in a document should hold.
inductive Form where
  | text
  | whole
  | list (item : Form)
  | tag
  | comment
  | signature
  | node
deriving DecidableEq

namespace Form

-- The fields of an object, each with its form.
def fields : Form → List (Text × Form)
  | tag => [("tag", text), ("text", text)]
  | comment => [("shortText", text), ("text", text), ("tags", list tag)]
  | signature => [("name", text), ("comment", comment)]
  | node =>
    [("name", text), ("kind", whole), ("children", list node), ("comment", comment),
      ("signatures", list signature)]
  | text | whole | list _ => []

-- The fields without which an object is not of a form: only the name of a tag is asked for.
def required : Form → List Text
  | tag => ["tag"]
  | _ => []

def isObject (form : Form) : Bool :=
  !form.fields.isEmpty

def field? (form : Form) (key : Text) : Option Form :=
  form.fields.lookup key

def hasRequired (form : Form) (members : Members) : Bool :=
  form.required.all fun key => (Members.get? key members).isSome

end Form

mutual

-- A value without all that its form does not have; none if it is not of the form.
def prune? (form : Form) : Value → Option Value
  | .text t => if form = .text then some (.text t) else none
  | .whole n => if form = .whole then some (.whole n) else none
  | .list items =>
    match form with
    | .list item => some (.list (pruneItems item items))
    | _ => none
  | .object members =>
    if form.isObject && form.hasRequired (prune form members) then
      some (.object (prune form members))
    else none
  | _ => none

-- The members that are fields and hold what they should. Only the first member of a key is looked
-- at when an object is read, so a later one must not come into its place.
def prune (form : Form) : List (Text × Value) → List (Text × Value)
  | [] => []
  | (key, value) :: rest =>
    match (form.field? key).bind fun field => prune? field value with
    | none => Members.without key (prune form rest)
    | some kept => (key, kept) :: Members.without key (prune form rest)

def pruneItems (item : Form) : List Value → List Value
  | [] => []
  | value :: rest =>
    match prune? item value with
    | none => pruneItems item rest
    | some kept => kept :: pruneItems item rest

end

-- What becomes of each sort of value.
section Sorts

variable (form item : Form) (value : Value) (items : List Value) (key : Text) (members : Members)

@[simp] theorem prune?_null : prune? form .null = none := rfl

@[simp] theorem prune?_bool (b : Bool) : prune? form (.bool b) = none := rfl

@[simp] theorem prune?_real (x : Double) : prune? form (.real x) = none := rfl

@[simp] theorem prune?_text (t : Text) :
    prune? form (.text t) = if form = .text then some (.text t) else none := rfl

@[simp] theorem prune?_whole (n : Int) :
    prune? form (.whole n) = if form = .whole then some (.whole n) else none := rfl

@[simp] theorem prune?_list : prune? form (.list items) =
    match form with
    | .list item => some (.list (pruneItems item items))
    | _ => none := rfl

@[simp] theorem prune?_members : prune? form (.object members) =
    if form.isObject && form.hasRequired (prune form members) then
      some (.object (prune form members))
    else none := rfl

@[simp] theorem prune_nil : prune form [] = [] := rfl

@[simp] theorem prune_cons : prune form ((key, value) :: members) =
    match (form.field? key).bind fun field => prune? field value with
    | none => Members.without key (prune form members)
    | some kept => (key, kept) :: Members.without key (prune form members) := rfl

@[simp] theorem pruneItems_nil : pruneItems item [] = [] := rfl

@[simp] theorem pruneItems_cons : pruneItems item (value :: items) =
    match prune? item value with
    | none => pruneItems item items
    | some kept => kept :: pruneItems item items := rfl

end Sorts

theorem pruneItems_eq_filterMap (item : Form) (items : List Value) :
    pruneItems item items = items.filterMap (prune? item) := by
  induction items with
  | nil => rfl
  | cons value rest ih => cases h : prune? item value <;> simp [h, ih]

theorem get?_prune (form : Form) (key : Text) (members : Members) :
    Members.get? key (prune form members) =
      (form.field? key).bind fun field => (Members.get? key members).bind (prune? field) := by
  induction members with
  | nil => cases form.field? key <;> rfl
  | cons member rest ih =>
    obtain ⟨k, v⟩ := member
    have hlater := Members.get?_without key k (prune form rest)
    by_cases hk : k = key
    · subst hk
      rw [if_pos rfl] at hlater
      have hhead : Members.get? k ((k, v) :: rest) = some v := by simp [Members.get?]
      simp only [hhead, Option.bind_some]
      cases hkept : (form.field? k).bind fun field => prune? field v with
      | none => simpa only [prune_cons, hkept] using hlater
      | some kept => simp [hkept, Members.get?]
    · rw [if_neg (Ne.symm hk), ih] at hlater
      cases hkept : (form.field? k).bind fun field => prune? field v with
      | none => simpa [hkept, Members.get?, hk] using hlater
      | some kept => simpa [hkept, Members.get?, hk] using hlater

-- What reads a value alike after it is pruned reads the field alike that should hold it.
theorem read_prune {α : Type} {form field : Form} {key : Text} (read : Option Value → α)
    (hfield : form.field? key = some field) {members : Members}
    (h : ∀ value, Members.get? key members = some value →
      read (prune? field value) = read (some value)) :
    read (Members.get? key (prune form members)) = read (Members.get? key members) := by
  rw [get?_prune, hfield, Option.bind_some]
  cases hvalue : Members.get? key members with
  | none => rfl
  | some value => exact h value hvalue

theorem textField?_prune (form : Form) {key : Text} (hfield : form.field? key = some .text)
    (members : Members) : textField? key (prune form members) = textField? key members := by
  refine read_prune (fun held => held.bind Value.text?) hfield fun value _ => ?_
  cases value <;> simp [Form.isObject, Form.fields, Value.text?]

theorem prune?_object {form : Form} (hobject : form.isObject) (hfree : form.required = [])
    (members : Members) : prune? form (.object members) = some (.object (prune form members)) := by
  simp [hobject, Form.hasRequired, hfree]

-- What reads items alike after they are pruned reads lists of them alike.
theorem filterMap_pruneItems {α : Type} {item : Form} (read : Value → Option α)
    {items : List Value} (h : ∀ value ∈ items, (prune? item value).bind read = read value) :
    (pruneItems item items).filterMap read = items.filterMap read := by
  rw [pruneItems_eq_filterMap, List.filterMap_filterMap]
  exact List.filterMap_congr h

theorem hasRequired_tag (members : Members) :
    Form.tag.hasRequired (prune .tag members) = (textField? "tag" members).isSome := by
  rw [← textField?_prune .tag rfl]
  simp only [Form.hasRequired, Form.required, List.all_cons, List.all_nil, Bool.and_true,
    textField?]
  rw [get?_prune]
  cases Members.get? "tag" members with
  | none => rfl
  | some value =>
    cases value <;> simp [Form.isObject, Form.fields, Form.field?, Value.text?]

theorem tag_prune (members : Members) :
    Tag.ofValue? (.object (prune .tag members)) = Tag.ofValue? (.object members) := by
  simp only [Tag.ofValue?]
  rw [textField?_prune .tag rfl, textField?_prune .tag rfl]

-- An object that is no tag for want of a name is read as none.
theorem tag_prune? (value : Value) :
    (prune? .tag value).bind Tag.ofValue? = Tag.ofValue? value := by
  cases value with
  | object members =>
    have hobject : Form.tag.isObject := rfl
    simp only [prune?_members, hobject, hasRequired_tag, Bool.true_and]
    cases hname : textField? "tag" members with
    | none => simp [Tag.ofValue?, hname]
    | some name => simpa using tag_prune members
  | _ => simp [Tag.ofValue?]

theorem tagsOf_prune? (value : Value) :
    tagsOf (prune? (.list .tag) value) = tagsOf (some value) := by
  cases value with
  | list items =>
    simp only [prune?_list, tagsOf]
    exact filterMap_pruneItems _ fun item _ => tag_prune? item
  | _ => simp [tagsOf, Form.isObject, Form.fields]

theorem comment_prune (members : Members) :
    Comment.ofValue? (.object (prune .comment members)) = Comment.ofValue? (.object members) := by
  have htags : tagsOf (Members.get? "tags" (prune .comment members)) =
      tagsOf (Members.get? "tags" members) :=
    read_prune tagsOf rfl fun value _ => tagsOf_prune? value
  simp only [Comment.ofValue?]
  rw [textField?_prune .comment rfl, textField?_prune .comment rfl, htags]

theorem comment_prune? (value : Value) :
    (prune? .comment value).bind Comment.ofValue? = Comment.ofValue? value := by
  cases value with
  | object members =>
    rw [prune?_object rfl rfl, Option.bind_some, comment_prune]
  | _ => simp [Comment.ofValue?]

theorem commentField?_prune (form : Form) (hfield : form.field? "comment" = some .comment)
    (members : Members) : commentField? (prune form members) = commentField? members :=
  read_prune (fun held => held.bind Comment.ofValue?) hfield fun value _ => comment_prune? value

theorem signature_prune? (value : Value) :
    (prune? .signature value).bind Signature.ofValue? = Signature.ofValue? value := by
  cases value with
  | object members =>
    rw [prune?_object rfl rfl, Option.bind_some]
    simp only [Signature.ofValue?]
    rw [textField?_prune .signature rfl, commentField?_prune .signature rfl]
  | _ => simp [Signature.ofValue?]

theorem signaturesOf_prune? (value : Value) :
    signaturesOf (prune? (.list .signature) value) = signaturesOf (some value) := by
  cases value with
  | list items =>
    simp only [prune?_list, signaturesOf]
    rw [filterMap_pruneItems _ fun item _ => signature_prune? item]
  | _ => simp [signaturesOf, Form.isObject, Form.fields]

theorem kindOf_prune? (value : Value) : kindOf (prune? .whole value) = kindOf (some value) := by
  cases value <;> simp [kindOf, Form.isObject, Form.fields]

-- A value is read alike as a node, and as the children of one, after it is pruned. By induction on
-- both at once: an object needs it of the list that it holds, and the list of the nodes in it.
theorem node_prune? (value : Value) :
    (prune? .node value).bind Node.ofValue? = Node.ofValue? value ∧
      (prune? (.list .node) value).bind childList = childList value := by
  induction value using Value.inductionOn with
  | list items ih =>
    refine ⟨by simp [Node.ofValue?], ?_⟩
    simp only [prune?_list, Option.bind_some, childList, nodesIn_eq_filterMap]
    rw [filterMap_pruneItems _ fun item hitem => (ih item hitem).1]
  | object members ih =>
    refine ⟨?_, by simp [childList, Form.isObject, Form.fields]⟩
    have hchildren : childrenIn (prune .node members) = childrenIn members := by
      rw [Extraction.childrenIn_eq, Extraction.childrenIn_eq]
      exact read_prune (fun held => held.bind childList) rfl fun value hvalue =>
        (ih _ (Members.mem_of_get? hvalue)).2
    have hkind : kindOf (Members.get? "kind" (prune .node members)) =
        kindOf (Members.get? "kind" members) :=
      read_prune kindOf rfl fun value _ => kindOf_prune? value
    have hsignatures : signaturesOf (Members.get? "signatures" (prune .node members)) =
        signaturesOf (Members.get? "signatures" members) :=
      read_prune signaturesOf rfl fun value _ => signaturesOf_prune? value
    rw [prune?_object rfl rfl, Option.bind_some]
    simp only [Node.ofValue?]
    rw [textField?_prune .node rfl, commentField?_prune .node rfl, hchildren,
      hkind, hsignatures]
  | _ => simp [Node.ofValue?, childList]

-- Values of a form: no member is there that is not a field, and whatever is held or listed is of
-- its form itself.
inductive Fits : Form → Value → Prop where
  | text (t : Text) : Fits .text (.text t)
  | whole (n : Int) : Fits .whole (.whole n)
  | list {item : Form} {items : List Value} (hitems : ∀ value ∈ items, Fits item value) :
      Fits (.list item) (.list items)
  | object {form : Form} {members : Members} (hobject : form.isObject)
      (hrequired : form.hasRequired members)
      (honce : (members.map Prod.fst).Nodup)
      (hknown : ∀ member ∈ members, (form.field? member.1).isSome)
      (hmembers : ∀ member ∈ members, ∀ field, form.field? member.1 = some field →
        Fits field member.2) : Fits form (.object members)

theorem mem_prune {form : Form} {members : Members} {member : Text × Value}
    (h : member ∈ prune form members) :
    ∃ field value, form.field? member.1 = some field ∧ (member.1, value) ∈ members ∧
      prune? field value = some member.2 := by
  induction members with
  | nil => simp at h
  | cons first rest ih =>
    obtain ⟨k, v⟩ := first
    have later (h : member ∈ Members.without k (prune form rest)) :
        ∃ field value, form.field? member.1 = some field ∧ (member.1, value) ∈ (k, v) :: rest ∧
          prune? field value = some member.2 := by
      obtain ⟨field, value, hfield, hvalue, hkept⟩ := ih (List.mem_of_mem_filter h)
      exact ⟨field, value, hfield, List.mem_cons_of_mem _ hvalue, hkept⟩
    cases hkept : (form.field? k).bind fun field => prune? field v with
    | none =>
      simp only [prune_cons, hkept] at h
      exact later h
    | some kept =>
      simp only [prune_cons, hkept] at h
      rcases List.mem_cons.mp h with rfl | h
      · obtain ⟨field, hfield, hvalue⟩ := Option.bind_eq_some_iff.mp hkept
        exact ⟨field, v, hfield, List.mem_cons_self, hvalue⟩
      · exact later h

theorem nodup_keys_prune (form : Form) (members : Members) :
    ((prune form members).map Prod.fst).Nodup := by
  induction members with
  | nil => exact List.nodup_nil
  | cons first rest ih =>
    obtain ⟨k, v⟩ := first
    have hrest : ((Members.without k (prune form rest)).map Prod.fst).Nodup :=
      ih.sublist (List.filter_sublist.map _)
    cases hkept : (form.field? k).bind fun field => prune? field v with
    | none => simpa only [prune_cons, hkept] using hrest
    | some kept =>
      simp only [prune_cons, hkept, List.map_cons, List.nodup_cons]
      exact ⟨by simp [Members.without], hrest⟩

theorem fits_of_prune? {form : Form} {value pruned : Value} (h : prune? form value = some pruned) :
    Fits form pruned := by
  induction value using Value.inductionOn generalizing form pruned with
  | text t =>
    simp only [prune?_text, Option.ite_none_right_eq_some, Option.some.injEq] at h
    obtain ⟨rfl, rfl⟩ := h
    exact .text t
  | whole n =>
    simp only [prune?_whole, Option.ite_none_right_eq_some, Option.some.injEq] at h
    obtain ⟨rfl, rfl⟩ := h
    exact .whole n
  | list items ih =>
    cases form with
    | list item =>
      simp only [prune?_list, Option.some.injEq] at h
      subst h
      refine .list fun value hvalue => ?_
      rw [pruneItems_eq_filterMap, List.mem_filterMap] at hvalue
      obtain ⟨original, horiginal, hpruned⟩ := hvalue
      exact ih original horiginal hpruned
    | _ => simp at h
  | object members ih =>
    simp only [prune?_members, Option.ite_none_right_eq_some, Option.some.injEq,
      Bool.and_eq_true] at h
    obtain ⟨⟨hobject, hrequired⟩, rfl⟩ := h
    refine .object hobject hrequired (nodup_keys_prune form members) ?_ ?_
    · intro member hmember
      obtain ⟨field, _, hfield, -⟩ := mem_prune hmember
      simp [hfield]
    · intro member hmember field hfield
      obtain ⟨found, original, hfound, horiginal, hpruned⟩ := mem_prune hmember
      obtain rfl := Option.some.inj (hfound.symm.trans hfield)
      exact ih _ horiginal hpruned
  | _ => simp at h

theorem prune_of_members {form : Form} {members : Members}
    (honce : (members.map Prod.fst).Nodup)
    (h : ∀ member ∈ members, ∃ field, form.field? member.1 = some field ∧
      prune? field member.2 = some member.2) : prune form members = members := by
  induction members with
  | nil => rfl
  | cons first rest ih =>
    obtain ⟨k, v⟩ := first
    rw [List.map_cons, List.nodup_cons] at honce
    obtain ⟨field, hfield, hkept⟩ := h (k, v) List.mem_cons_self
    have hrest : Members.without k rest = rest := by
      refine List.filter_eq_self.mpr fun member hmember => decide_eq_true fun hkey => honce.1 ?_
      exact List.mem_map.mpr ⟨member, hmember, hkey⟩
    simp only [prune_cons, hfield, Option.bind_some, hkept]
    rw [ih honce.2 fun member hmember => h member (List.mem_cons_of_mem _ hmember), hrest]

theorem prune?_of_fits {form : Form} {value : Value} (h : Fits form value) :
    prune? form value = some value := by
  induction h with
  | text t => simp
  | whole n => simp
  | list hitems ih =>
    simp only [prune?_list, pruneItems_eq_filterMap]
    rw [List.filterMap_congr ih, List.filterMap_some]
  | object hobject hrequired honce hknown hmembers ih =>
    have hkept := prune_of_members honce fun member hmember => by
      obtain ⟨field, hfield⟩ := Option.isSome_iff_exists.mp (hknown member hmember)
      exact ⟨field, hfield, ih member hmember field hfield⟩
    simp [hkept, hobject, hrequired]

-- Pruning leaves alone what fits, and nothing else.
theorem prune_eq_self_iff {form : Form} (hobject : form.isObject) (hfree : form.required = [])
    {members : Members} : prune form members = members ↔ Fits form (.object members) := by
  have hpruned := prune?_object hobject hfree members
  constructor
  · intro h
    exact fits_of_prune? (h ▸ hpruned)
  · intro h
    rw [prune?_of_fits h, Option.some.injEq, Value.object.injEq] at hpruned
    exact hpruned.symm

end Reflection

namespace Extraction

open Json (Value Members)
open Reflection (Node Fits prune)

def objectsIn (items : List Value) : List Members :=
  items.filterMap fun item =>
    match item with
    | .object members => some members
    | _ => none

def prunedObjects (items : List Value) : List Value :=
  (objectsIn items).map fun members => .object (prune .node members)

theorem node_prune (members : Members) :
    Node.ofValue? (.object (prune .node members)) = Node.ofValue? (.object members) := by
  rw [← (Reflection.node_prune? (.object members)).1, Reflection.prune?_object rfl rfl,
    Option.bind_some]

theorem filterMap_prunedObjects (items : List Value) :
    (prunedObjects items).filterMap Node.ofValue? = items.filterMap Node.ofValue? := by
  rw [prunedObjects, objectsIn, List.map_filterMap, List.filterMap_filterMap]
  refine List.filterMap_congr fun item _ => ?_
  cases item with
  | object members => exact node_prune members
  | _ => rfl

-- Pruning an object leaves nothing in it that does not belong there, nothing else goes, and it is
-- read as before. A list of sections comes to the same as its objects do, each of them pruned.
theorem pruning_changes_nothing :
    (∀ members : Members,
      Fits .node (.object (prune .node members)) ∧
      (prune .node members = members ↔ Fits .node (.object members)) ∧
      Node.ofValue? (.object (prune .node members)) = Node.ofValue? (.object members)) ∧
    ∀ (start : Text) (s : State) (items : List Value), ∃ state,
      addDocument start s (.value (.list items)) = .ok state ∧
      addDocument start s (.value (.list (prunedObjects items))) = .ok state := by
  refine ⟨fun members => ⟨?_, Reflection.prune_eq_self_iff rfl rfl, node_prune members⟩, ?_⟩
  · exact Reflection.fits_of_prune? (Reflection.prune?_object rfl rfl members)
  · intro start s items
    have hpruned : (Root.value (.list (prunedObjects items))).sections =
        .ok (items.filterMap Node.ofValue?) := by
      rw [← filterMap_prunedObjects]
      rfl
    exact ⟨_, addDocument_of_sections rfl start s, addDocument_of_sections hpruned start s⟩

example : prune .node
    [("name", .text "MDCList"), ("kind", .bool true), ("flags", .object []),
      ("children", .list [.null, .object [("kind", .whole 2048), ("comment", .text "none")]])] =
    ([("name", .text "MDCList"), ("children", .list [.object [("kind", .whole 2048)]])] :
      Members) := by
  rfl

end Extraction

end ReadmeTables
