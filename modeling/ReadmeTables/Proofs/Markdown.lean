import ReadmeTables.Markdown
import ReadmeTables.Proofs.Fragments
/-!
What the Markdown of a module is made of.

It comes to the same whether the tags are collected under their names first and the fired events
are looked up there, and whether a table is written member by member. A row is made of a kind of
row, a name and a description. Main statement: the Markdown of a module is made of its name, the
texts of its fired events and the parts of its rows, in order, so modules that agree in these have
the same Markdown.
-/

namespace ReadmeTables.Markdown

open Reflection (Tag Comment Signature Node Kind)

section Events

def tagsOf (module : Node) : List Tag :=
  (module.comment.map Comment.tags).getD []

-- The tags of a module that tell of an event, in their order.
def fired (module : Node) : List Tag :=
  (tagsOf module).filter fun tag => tag.name = firesTag

def firedTexts (module : Node) : List Text :=
  (fired module).map Tag.text

-- The texts of tags, collected under the names of the tags.
def textsByName (tags : List Tag) : Fragments :=
  .ofList (tags.map fun tag => (tag.name, tag.text))

theorem get_textsByName (module : Node) :
    (textsByName (tagsOf module)).get firesTag = firedTexts module := by
  rw [textsByName, Fragments.get_ofList, List.filter_map, List.map_map]
  rfl

-- The list of events with these texts; nothing if there are none.
def eventsText (texts : List Text) : Text :=
  if texts = [] then [] else "### Events\n\n" ++ texts.flatMap eventItem ++ "\n"

theorem firedEvents_eq (module : Node) : firedEvents module.comment = fired module := by
  cases h : module.comment <;> simp [firedEvents, fired, tagsOf, h]

theorem events_eq (module : Node) : events module = eventsText (firedTexts module) := by
  rw [events, firedEvents_eq, eventsText, firedTexts]
  simp [eventList, List.flatMap_map]

end Events

section Table

-- Functions and methods have rows of one kind, accessors of another.
inductive RowKind where
  | callable
  | accessor
deriving DecidableEq

structure RowParts where
  kind : RowKind
  name : Text
  shortText : Text
deriving DecidableEq

def RowParts.text : RowParts → Text
  | ⟨.callable, name, shortText⟩ => name ++ " | " ++ clean shortText ++ " \n"
  | ⟨.accessor, name, shortText⟩ => clean (name ++ " | " ++ shortText) ++ "\n"

-- The description of a function: that of its first signature, if it is not empty.
def signatureText? (member : Node) : Option Text :=
  (((member.signatures.bind List.head?).bind Signature.comment).bind Comment.shortText).filter
    (· ≠ [])

-- What the row of a member is made of, if it has one.
def rowParts? (member : Node) : Option RowParts :=
  if member.kind = Kind.functionKind ∨ member.kind = Kind.method then
    (signatureText? member).map fun shortText => ⟨.callable, member.name, shortText⟩
  else if member.kind = Kind.accessor then
    member.comment.map fun comment => ⟨.accessor, member.name, comment.shortText.getD []⟩
  else none

def rows (module : Node) : List RowParts :=
  module.members.filterMap rowParts?

theorem functionRow_eq (member : Node) :
    functionRow member = ((signatureText? member).map fun shortText =>
      RowParts.text ⟨.callable, member.name, shortText⟩).getD [] := by
  rw [functionRow, signatureText?]
  cases hsignatures : member.signatures with
  | none => rfl
  | some signatures =>
    cases signatures with
    | nil => rfl
    | cons signature later =>
      simp only [Option.bind_some, List.head?_cons]
      cases hshort : signature.comment.bind Comment.shortText with
      | none => rfl
      | some shortText => cases shortText <;> rfl

theorem row_eq (member : Node) : row member = ((rowParts? member).map RowParts.text).getD [] := by
  rw [row, rowParts?]
  split
  · rw [functionRow_eq, Option.map_map]
    rfl
  · split
    · rw [accessorRow]
      cases member.comment <;> rfl
    · rfl

theorem flatMap_row (members : List Node) :
    members.flatMap row = (members.filterMap rowParts?).flatMap RowParts.text := by
  induction members with
  | nil => rfl
  | cons member rest ih =>
    rw [List.flatMap_cons, row_eq, ih, List.filterMap_cons]
    cases rowParts? member <;> rfl

def heading (module : Node) : Text :=
  "### " ++ module.name ++ "\n\n" ++ tableHead

theorem memberTable_eq (module : Node) :
    memberTable module = heading module ++ (rows module).flatMap RowParts.text := by
  rw [memberTable, flatMap_row, rows, heading]

end Table

theorem fragment_eq (module : Node) :
    fragment module = eventsText (firedTexts module) ++
      (heading module ++ (rows module).flatMap RowParts.text) := by
  rw [fragment, events_eq, memberTable_eq]

-- The events of a module are its tags of one name, in their order, as they are when the tags are
-- collected under their names, and its table is written member by member, each adding at most the
-- one row that its own parts make. Two modules of one name that fire events with the same texts and
-- have rows of the same parts have the same Markdown, whatever else they hold.
theorem fragment_of_parts :
    (∀ module : Node,
      fragment module = events module ++ memberTable module ∧
      events module = (if fired module = [] then [] else eventList (fired module)) ∧
      events module = eventsText ((textsByName (tagsOf module)).get firesTag) ∧
      memberTable module =
        module.members.foldl (fun table member => table ++ row member) (heading module) ∧
      memberTable module =
        heading module ++ (module.members.filterMap rowParts?).flatMap RowParts.text) ∧
    (∀ member : Node, row member = ((rowParts? member).map RowParts.text).getD []) ∧
    ∀ a b : Node, a.name = b.name → firedTexts a = firedTexts b → rows a = rows b →
      fragment a = fragment b := by
  refine ⟨fun module => ?_, row_eq, fun a b hname hfired hrows => ?_⟩
  · refine ⟨rfl, ?_, ?_, ?_, memberTable_eq module⟩
    · simp only [events, firedEvents_eq, List.isEmpty_iff]
    · rw [get_textsByName, events_eq]
    · rw [memberTable, List.foldl_append_eq_append, List.flatMap_def, heading]
  · rw [fragment_eq, fragment_eq, hfired, hrows, heading, hname, ← heading]

-- A class and an interface. They fire the same two events between other tags, and each has a row
-- for a callable and one for an accessor, between members that have none.
theorem fragment_of_two_modules :
    let described (text : Text) : Option Comment := some ⟨some text, none, []⟩
    let member (kind : Kind) (comment : Option Comment) (signatures : List Signature) : Node :=
      ⟨"open", kind, none, comment, some signatures⟩
    let a : Node := ⟨"MDCDrawer", ⟨128⟩,
      some [member .method none [⟨"open", described "Opens\nit."⟩, ⟨"open", described "again"⟩],
        member ⟨1024⟩ (described "A property.") [], member .accessor (described "Is it open?") []],
      some ⟨some "A drawer.", none, [⟨"fires", "opened"⟩, ⟨"see", "MDCList"⟩, ⟨"fires", "closed"⟩]⟩,
      none⟩
    let b : Node := ⟨"MDCDrawer", ⟨256⟩,
      some [member .functionKind (described "Unused.") [⟨"", described "Opens\nit."⟩],
        member .method none [], member .accessor (described "Is it open?") [⟨"open", none⟩]],
      some ⟨none, some "More.", [⟨"since", "1"⟩, ⟨"fires", "opened"⟩, ⟨"fires", "closed"⟩]⟩,
      some []⟩
    a.name = b.name ∧ firedTexts a = firedTexts b ∧ rows a = rows b ∧ fragment a = fragment b ∧
      fragment a = ("### Events\n\n- opened\n- closed\n\n### MDCDrawer\n\n" ++
        "Method Signature | Description \n--- | --- \nopen | Opens it. \nopen | Is it open?\n" :
        String) := by
  intro described member a b
  have hfired : firedTexts a = firedTexts b := by decide +kernel
  have hrows : rows a = rows b := by decide +kernel
  exact ⟨rfl, hfired, hrows, fragment_of_parts.2.2 a b rfl hfired hrows, by decide +kernel⟩

end ReadmeTables.Markdown
