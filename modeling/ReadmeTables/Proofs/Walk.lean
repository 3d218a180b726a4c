import ReadmeTables.Proofs.Extraction
/-!
What a walk does to what was there before.

A walk puts the documented modules behind what is collected, and its records behind what is
logged, and what it puts there depends on the sections alone. Main statements: two walks come to
one through the sections of both, it does not matter how a document is handed over, and a walk
fails exactly where sections cannot be asked for, before it has done anything.
-/

namespace ReadmeTables.Extraction

open Json (Value Members)
open Reflection (Node)

-- Something collected and logged, and after it what a walk through sections adds.
def State.followedBy (s : State) (start : Text) (sections : List Node) : State :=
  ⟨s.fragments.appendAll ((documented start sections).map arrival),
    s.log ++ sections.flatMap (sectionRecords start)⟩

theorem addSections_eq (start : Text) (s : State) (sections : List Node) :
    addSections start s sections = s.followedBy start sections := by
  rw [State.followedBy, ← addSections_fragments, ← addSections_log]

theorem followedBy_nil (start : Text) (s : State) : s.followedBy start [] = s :=
  (addSections_eq start s []).symm

theorem followedBy_append (start : Text) (s : State) (earlier later : List Node) :
    s.followedBy start (earlier ++ later) =
      (s.followedBy start earlier).followedBy start later := by
  rw [← addSections_eq, ← addSections_eq, ← addSections_eq]
  exact List.foldl_append

theorem addDocument_of_sections {root : Root} {sections : List Node}
    (h : root.sections = .ok sections) (start : Text) (s : State) :
    addDocument start s root = .ok (s.followedBy start sections) := by
  rw [addDocument, h, ← addSections_eq]
  rfl

-- Two walks one after the other are one walk through the sections of both. A list of JSON values
-- comes to the same as the children of an object, as a list of sections that are still JSON, and
-- as the sections that are read from its objects.
theorem walks_add_up (start : Text) (s : State) :
    (∀ earlier later : List Entry, ∃ middle final,
      addDocument start s (.entries earlier) = .ok middle ∧
      addDocument start middle (.entries later) = .ok final ∧
      addDocument start s (.entries (earlier ++ later)) = .ok final ∧
      middle = s.followedBy start (earlier.filterMap Entry.node?) ∧
      final = middle.followedBy start (later.filterMap Entry.node?)) ∧
    ∀ (items : List Value) (members : Members), ∃ final,
      addDocument start s (.value (.object (Members.insert "children" (.list items) members))) =
        .ok final ∧
      addDocument start s (.value (.list items)) = .ok final ∧
      addDocument start s (.entries (items.map .value)) = .ok final ∧
      addDocument start s (.entries ((items.filterMap Node.ofValue?).map .node)) = .ok final ∧
      final = s.followedBy start (items.filterMap Node.ofValue?) := by
  constructor
  · intro earlier later
    refine ⟨_, _, addDocument_of_sections rfl start s, addDocument_of_sections rfl start _, ?_, rfl,
      rfl⟩
    rw [← followedBy_append, ← List.filterMap_append]
    exact addDocument_of_sections rfl start s
  · intro items members
    have hchildren :
        (Root.value (.object (Members.insert "children" (.list items) members))).sections =
          .ok (items.filterMap Node.ofValue?) := by
      simp [Root.sections, sectionsValue, Members.get?_insert, Extraction.items, Except.map]
    have hvalues : (Root.entries (items.map .value)).sections =
        .ok (items.filterMap Node.ofValue?) := by
      rw [Root.sections, List.filterMap_map]
      rfl
    have hnodes : (Root.entries ((items.filterMap Node.ofValue?).map .node)).sections =
        .ok (items.filterMap Node.ofValue?) := by
      rw [Root.sections, List.filterMap_map]
      exact congrArg Except.ok (List.filterMap_some)
    exact ⟨_, addDocument_of_sections hchildren start s, addDocument_of_sections rfl start s,
      addDocument_of_sections hvalues start s, addDocument_of_sections hnodes start s, rfl⟩

-- Actions that collect and log, and may fail. What is collected and logged by then stays.
abbrev Walk := ExceptT NotIterable (StateM State)

def visitModule (start component : Text) (module : Node) : Walk Unit :=
  modify fun s => addModule start component s module

def visitSection (start : Text) (section_ : Node) : Walk Unit := do
  let path := SectionPath.ofName section_.name
  unless section_.members.isEmpty do
    modify fun s => s.record .info ("-- generating docs for " ++ path.file)
    section_.members.forM (visitModule start path.component)

-- Goes through the sections of a document one by one and gives back all that is collected.
def visit (start : Text) (root : Root) : Walk Fragments := do
  let sections ← MonadExcept.ofExcept root.sections
  sections.forM (visitSection start)
  return (← get).fragments

theorem run_bind_of_ok {α β : Type} {action : Walk α} {s left : State} {a : α}
    (h : action.run.run s = (.ok a, left)) (next : α → Walk β) :
    (action >>= next).run.run s = (next a).run.run left := by
  rw [ExceptT.run_bind, StateT.run_bind, h]
  rfl

-- Actions that all end well are taken one after another.
theorem run_forM {α : Type} {action : α → Walk Unit} {change : State → α → State}
    (h : ∀ s item, (action item).run.run s = (.ok (), change s item)) (s : State)
    (items : List α) : (items.forM action).run.run s = (.ok (), items.foldl change s) := by
  induction items generalizing s with
  | nil => rfl
  | cons item rest ih =>
    rw [List.foldl_cons, ← ih]
    exact run_bind_of_ok (h s item) _

theorem run_visitSection (start : Text) (s : State) (section_ : Node) :
    (visitSection start section_).run.run s = (.ok (), addSection start s section_) := by
  rw [visitSection, addSection]
  by_cases hempty : section_.members.isEmpty = true
  · simp only [hempty]
    rfl
  · simp only [hempty]
    exact run_forM (fun _ _ => rfl) _ section_.members

theorem run_visit (start : Text) (s : State) (root : Root) :
    (visit start root).run.run s =
      match addDocument start s root with
      | .ok left => (.ok left.fragments, left)
      | .error error => (.error error, s) := by
  rw [visit, addDocument]
  cases root.sections with
  | error error => rfl
  | ok sections => exact run_bind_of_ok (run_forM (run_visitSection start) s sections) _

theorem eq_nil_or_list_of_items {value : Value} {listed : List Value}
    (h : items value = .ok listed) : listed = [] ∨ value = .list listed := by
  cases value with
  | list values => exact .inr (congrArg Value.list (Except.ok.inj h))
  | bool b => cases b <;> simp_all [items]
  | whole n => by_cases hn : n = 0 <;> simp_all [items]
  | real x => cases hx : x.isZero <;> simp_all [items]
  | _ => exact .inl (Except.ok.inj h).symm

-- A walk fails exactly where the sections of a document should stand and something stands that
-- counts and has no items: a truth, a whole number or a number with a fraction. Then nothing is
-- collected or logged. Every other walk gives back what is collected, and what has no list of
-- sections leaves everything as it was.
theorem visit_fails_iff (start : Text) (s : State) (document : Value) :
    ∃ result left, (visit start (.value document)).run.run s = (result, left) ∧
      addDocument start s (.value document) = result.map (fun _ => left) ∧
      (∀ error, result = .error error ↔
        error = .bool ∧ sectionsValue document = .bool true ∨
        error = .whole ∧ (∃ n, n ≠ 0 ∧ sectionsValue document = .whole n) ∨
        error = .real ∧ ∃ x : Double, x.isZero = false ∧ sectionsValue document = .real x) ∧
      ((∃ error, result = .error error ∧ left = s) ∨ result = .ok left.fragments) ∧
      (left = s ∨ ∃ items, sectionsValue document = .list items) := by
  simp only [run_visit, ← items_eq_error_iff]
  cases hitems : items (sectionsValue document) with
  | error error =>
    have hfails : addDocument start s (.value document) = .error error := by
      rw [addDocument, Root.sections, hitems]
      rfl
    rw [hfails]
    exact ⟨_, _, rfl, rfl, fun _ => by simp, .inl ⟨error, rfl, rfl⟩, .inl rfl⟩
  | ok listed =>
    have hsections : (Root.value document).sections = .ok (listed.filterMap Node.ofValue?) := by
      rw [Root.sections, hitems]
      rfl
    rw [addDocument_of_sections hsections]
    refine ⟨_, _, rfl, rfl, fun _ => by simp, .inr rfl, ?_⟩
    rcases eq_nil_or_list_of_items hitems with rfl | hlist
    · exact .inl (followedBy_nil start s)
    · exact .inr ⟨listed, hlist⟩

example (start : Text) (s : State) :
    (visit start (.value (.object [("children", .real .nan)]))).run.run s = (.error .real, s) := by
  rfl

end ReadmeTables.Extraction
