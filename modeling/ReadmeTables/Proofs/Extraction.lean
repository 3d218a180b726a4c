import Mathlib.Data.List.Basic
import ReadmeTables.Extraction
import ReadmeTables.Proofs.Failing
import ReadmeTables.Proofs.Fragments
/-!
What a walk through a document collects.

A walk adds the fragments of the documented modules and the records of its sections in their order
and changes nothing that it added before. Main statement: what is collected are the documented
modules of the document, grouped by the components of their sections without a change of order,
and each section with modules is announced once.
-/

namespace ReadmeTables.Extraction

open Json (Value Members)
open Reflection (Node)

-- A module that gets a fragment: its name begins as asked, and it is no value and no type.
def isDocumented (start : Text) (module : Node) : Bool :=
  module.name.startsWith start && !isSkipped module.kind

-- The documented modules of sections, each with the component of its section.
def documented (start : Text) (sections : List Node) : List (Text × Node) :=
  sections.flatMap fun section_ =>
    (section_.members.filter (isDocumented start)).map fun module =>
      ((SectionPath.ofName section_.name).component, module)

theorem documented_cons (start : Text) (section_ : Node) (rest : List Node) :
    documented start (section_ :: rest) =
      ((section_.members.filter (isDocumented start)).map fun module =>
        ((SectionPath.ofName section_.name).component, module)) ++ documented start rest :=
  List.flatMap_cons

-- What documented modules add to fragments.
def arrival (found : Text × Node) : Text × Text :=
  (found.1, Markdown.fragment found.2)

def announcement (path : SectionPath) : Log.Record :=
  ⟨.info, Log.extraction, "-- generating docs for " ++ path.file⟩

-- A section is announced if it has modules.
def announcement? (section_ : Node) : Option Log.Record :=
  if section_.members.isEmpty then none else some (announcement (.ofName section_.name))

-- A module that is passed over for its kind, which is noted.
def isPassedOver (start : Text) (module : Node) : Bool :=
  module.name.startsWith start && isSkipped module.kind

def skipRecord (module : Node) : Log.Record :=
  ⟨.debug, Log.extraction, "Skipping " ++ module.name ++ " (" ++ module.kind.label ++ ")"⟩

def skipRecords (start : Text) (modules : List Node) : List Log.Record :=
  (modules.filter (isPassedOver start)).map skipRecord

-- What is logged about a section: its announcement, then the modules that are passed over.
def sectionRecords (start : Text) (section_ : Node) : List Log.Record :=
  (announcement? section_).toList ++ skipRecords start section_.members

def State.infos (s : State) : List Log.Record :=
  s.log.filter fun record => record.level = .info

theorem addModule_fragments (start component : Text) (s : State) (module : Node) :
    (addModule start component s module).fragments =
      if isDocumented start module then s.fragments.append component (Markdown.fragment module)
      else s.fragments := by
  rw [addModule, isDocumented]
  by_cases hname : module.name.startsWith start = true
  · by_cases hskipped : isSkipped module.kind = true
    · simp [hname, hskipped, State.record]
    · simp [hname, hskipped]
  · simp [hname]

theorem addModules_fragments (start component : Text) (s : State) (modules : List Node) :
    (modules.foldl (addModule start component) s).fragments =
      s.fragments.appendAll
        (((modules.filter (isDocumented start)).map (component, ·)).map arrival) := by
  induction modules generalizing s with
  | nil => rfl
  | cons module rest ih =>
    rw [List.foldl_cons, ih, addModule_fragments]
    by_cases h : isDocumented start module = true
    · simp [h, Fragments.appendAll, arrival]
    · simp [h]

theorem addSection_fragments (start : Text) (s : State) (section_ : Node) :
    (addSection start s section_).fragments =
      s.fragments.appendAll ((documented start [section_]).map arrival) := by
  simp only [addSection, documented, List.flatMap_cons, List.flatMap_nil, List.append_nil]
  split
  · rename_i h
    rw [List.isEmpty_iff] at h
    simp [h, Fragments.appendAll]
  · exact addModules_fragments _ _ _ _

theorem addSections_fragments (start : Text) (s : State) (sections : List Node) :
    (addSections start s sections).fragments =
      s.fragments.appendAll ((documented start sections).map arrival) := by
  rw [addSections]
  induction sections generalizing s with
  | nil => rfl
  | cons section_ rest ih =>
    have hcons : documented start (section_ :: rest) =
        documented start [section_] ++ documented start rest := by simp [documented]
    rw [List.foldl_cons, ih, addSection_fragments, hcons, List.map_append,
      Fragments.appendAll_append]

theorem addModule_log (start component : Text) (s : State) (module : Node) :
    (addModule start component s module).log = s.log ++ skipRecords start [module] := by
  rw [addModule, skipRecords, List.filter_singleton, isPassedOver]
  by_cases hname : module.name.startsWith start = true
  · by_cases hskipped : isSkipped module.kind = true
    · simp [hname, hskipped, State.record, skipRecord]
    · simp [hname, hskipped]
  · simp [hname]

theorem addModules_log (start component : Text) (s : State) (modules : List Node) :
    (modules.foldl (addModule start component) s).log = s.log ++ skipRecords start modules := by
  induction modules generalizing s with
  | nil => simp [skipRecords]
  | cons module rest ih =>
    have hcons : skipRecords start (module :: rest) =
        skipRecords start [module] ++ skipRecords start rest := by
      rw [skipRecords, ← List.singleton_append, List.filter_append, List.map_append]
      rfl
    rw [List.foldl_cons, ih, addModule_log, hcons, List.append_assoc]

theorem addSection_log (start : Text) (s : State) (section_ : Node) :
    (addSection start s section_).log = s.log ++ sectionRecords start section_ := by
  simp only [addSection, sectionRecords, announcement?]
  split
  · rename_i h
    simp [List.isEmpty_iff.mp h, skipRecords]
  · rw [addModules_log]
    simp [State.record, announcement]

theorem addSections_log (start : Text) (s : State) (sections : List Node) :
    (addSections start s sections).log = s.log ++ sections.flatMap (sectionRecords start) := by
  rw [addSections]
  induction sections generalizing s with
  | nil => simp
  | cons section_ rest ih =>
    rw [List.foldl_cons, ih, addSection_log, List.append_assoc, List.flatMap_cons]

-- Passing over a module is noted, but never as progress.
theorem infos_sectionRecords (start : Text) (section_ : Node) :
    (sectionRecords start section_).filter (fun record => record.level = .info) =
      (announcement? section_).toList := by
  have hskips : (skipRecords start section_.members).filter (fun record => record.level = .info) =
      [] := by
    refine List.filter_eq_nil_iff.mpr fun record hrecord => ?_
    obtain ⟨module, -, rfl⟩ := List.mem_map.mp hrecord
    simp [skipRecord]
  rw [sectionRecords, List.filter_append, hskips, List.append_nil, announcement?]
  split <;> simp [announcement]

theorem addSections_infos (start : Text) (s : State) (sections : List Node) :
    (addSections start s sections).infos = s.infos ++ sections.filterMap announcement? := by
  rw [State.infos, addSections_log, List.filter_append, List.filter_flatMap,
    List.filterMap_eq_flatMap_toList]
  simp only [infos_sectionRecords]
  rfl

-- Whatever a walk logs is logged by this part of the program.
def State.LogsAsExtraction (s : State) : Prop :=
  ∀ record ∈ s.log, record.source = Log.extraction

theorem source_of_mem_sectionRecords {start : Text} {section_ : Node} {record : Log.Record}
    (h : record ∈ sectionRecords start section_) : record.source = Log.extraction := by
  rcases List.mem_append.mp h with h | h
  · rw [announcement?] at h
    split at h
    · simp at h
    · rw [Option.toList_some, List.mem_singleton] at h
      rw [h, announcement]
  · obtain ⟨module, -, rfl⟩ := List.mem_map.mp h
    rfl

theorem addSections_logsAsExtraction {s : State} (h : s.LogsAsExtraction) (start : Text)
    (sections : List Node) : (addSections start s sections).LogsAsExtraction := by
  rw [State.LogsAsExtraction, addSections_log, List.forall_mem_append]
  refine ⟨h, fun record hrecord => ?_⟩
  obtain ⟨section_, -, hlogged⟩ := List.mem_flatMap.mp hrecord
  exact source_of_mem_sectionRecords hlogged

-- From nothing, a walk collects the documented modules as they arrive.
theorem addSections_initial (start : Text) (sections : List Node) :
    (addSections start .initial sections).fragments =
      Fragments.ofList ((documented start sections).map arrival) :=
  addSections_fragments start .initial sections

theorem get_addSections (start : Text) (sections : List Node) (key : Text) :
    (addSections start .initial sections).fragments.get key =
      ((documented start sections).filter fun found => found.1 = key).map fun found =>
        Markdown.fragment found.2 := by
  rw [addSections_initial, Fragments.get_ofList, List.filter_map, List.map_map]
  rfl

theorem keys_addSections (start : Text) (sections : List Node) :
    (addSections start .initial sections).fragments.keys =
      ((documented start sections).map Prod.fst).eraseDups := by
  rw [addSections_initial, Fragments.keys_ofList, List.map_map]
  rfl

theorem nodup_keys_addSections (start : Text) (sections : List Node) :
    (addSections start .initial sections).fragments.keys.Nodup := by
  rw [addSections_initial]
  exact Fragments.nodup_keys_ofList _

-- The sections of a component.
def sectionsOf (key : Text) (sections : List Node) : List Node :=
  sections.filter fun section_ => (SectionPath.ofName section_.name).component = key

theorem documented_sectionsOf (start key : Text) (sections : List Node) :
    documented start (sectionsOf key sections) =
      (documented start sections).filter fun found => found.1 = key := by
  induction sections with
  | nil => rfl
  | cons section_ rest ih =>
    rw [documented_cons, List.filter_append, ← ih, List.filter_map, sectionsOf, List.filter_cons]
    by_cases h : (SectionPath.ofName section_.name).component = key
    · simp [h, Function.comp_def, documented_cons, sectionsOf]
    · simp [h, Function.comp_def, sectionsOf]

-- What is collected for a component comes from its sections alone.
theorem only_addSections (start key : Text) (sections : List Node) :
    (addSections start .initial sections).fragments.only key =
      (addSections start .initial (sectionsOf key sections)).fragments := by
  rw [addSections_initial, addSections_initial, Fragments.only_ofList, documented_sectionsOf,
    List.filter_map]
  rfl

theorem exists_sections_of_addDocument {start : Text} {s state : State} {root : Root}
    (h : addDocument start s root = .ok state) :
    ∃ sections, root.sections = .ok sections ∧ state = addSections start s sections := by
  obtain ⟨sections, hsections, hstate⟩ := Failing.map_eq_ok_iff.mp h
  exact ⟨sections, hsections, hstate.symm⟩

-- Values whose items cannot be asked for: what counts as something and holds nothing.
inductive HasNoItems : Value → Prop
  | bool : HasNoItems (.bool true)
  | whole {n : Int} (h : n ≠ 0) : HasNoItems (.whole n)
  | real {x : Double} (h : x.isZero = false) : HasNoItems (.real x)

-- The items of what counts as something and holds nothing cannot be asked for.
theorem items_eq_error_iff {value : Value} {error : NotIterable} :
    items value = .error error ↔
      error = .bool ∧ value = .bool true ∨
      error = .whole ∧ (∃ n, n ≠ 0 ∧ value = .whole n) ∨
      error = .real ∧ ∃ x : Double, x.isZero = false ∧ value = .real x := by
  cases value with
  | bool b =>
    cases b with
    | false => simp [items]
    | true => simpa [items] using eq_comm
  | whole n =>
    by_cases h : n = 0
    · simp [items, h]
    · simpa [items, h] using eq_comm
  | real x =>
    cases h : x.isZero with
    | true => simp [items, h]
    | false => simpa [items, h] using eq_comm
  | _ => simp [items]

theorem exists_items_eq_error_iff {value : Value} :
    (∃ error, items value = .error error) ↔ HasNoItems value := by
  simp only [items_eq_error_iff]
  constructor
  · rintro ⟨error, ⟨-, rfl⟩ | ⟨-, n, hn, rfl⟩ | ⟨-, x, hx, rfl⟩⟩
    · exact .bool
    · exact .whole hn
    · exact .real hx
  · rintro (_ | hn | hx)
    · exact ⟨.bool, .inl ⟨rfl, rfl⟩⟩
    · exact ⟨.whole, .inr (.inl ⟨rfl, _, hn, rfl⟩)⟩
    · exact ⟨.real, .inr (.inr ⟨rfl, _, hx, rfl⟩)⟩

-- A walk fails at what should be the list of sections, and nowhere else.
theorem exists_addDocument_eq_error_iff {start : Text} {s : State} {value : Value} :
    (∃ error, addDocument start s (.value value) = .error error) ↔
      HasNoItems (sectionsValue value) := by
  simp only [addDocument, Root.sections, Failing.map_eq_error_iff, exists_items_eq_error_iff]

section Collected

variable {start : Text} {root : Root} {state : State}

-- What is collected stands under the components of sections, each of them once.
theorem exists_name_of_mem_keys (h : addDocument start .initial root = .ok state) {key : Text}
    (hkey : key ∈ state.fragments.keys) : ∃ name, key = (SectionPath.ofName name).component := by
  obtain ⟨sections, -, rfl⟩ := exists_sections_of_addDocument h
  rw [keys_addSections, List.mem_eraseDups, List.mem_map] at hkey
  obtain ⟨found, hfound, rfl⟩ := hkey
  obtain ⟨section_, -, hmodules⟩ := List.mem_flatMap.mp hfound
  obtain ⟨module, -, rfl⟩ := List.mem_map.mp hmodules
  exact ⟨section_.name, rfl⟩

theorem logsAsExtraction_of_addDocument (h : addDocument start .initial root = .ok state) :
    state.LogsAsExtraction := by
  obtain ⟨sections, -, rfl⟩ := exists_sections_of_addDocument h
  have hinitial : State.initial.LogsAsExtraction := List.forall_mem_nil _
  exact addSections_logsAsExtraction hinitial start sections

theorem nodup_keys_of_addDocument (h : addDocument start .initial root = .ok state) :
    state.fragments.keys.Nodup := by
  obtain ⟨sections, -, rfl⟩ := exists_sections_of_addDocument h
  exact nodup_keys_addSections _ _

end Collected

section Document

-- The objects among the children that an object lists.
def childObjects : Value → List Node
  | .object members =>
    match Members.get? "children" members with
    | some (.list items) => items.filterMap Node.ofValue?
    | _ => []
  | _ => []

-- The path of a section; what is no object is no section.
def sectionPath? : Value → Option SectionPath
  | .object members => some (.ofName ((Reflection.textField? "name" members).getD []))
  | _ => none

-- The documented modules among the items of a document, each with the component of its section.
def documentedIn (start : Text) (items : List Value) : List (Text × Node) :=
  items.flatMap fun item =>
    match sectionPath? item with
    | some path =>
      ((childObjects item).filter (isDocumented start)).map fun module => (path.component, module)
    | none => []

-- The announcements of the sections with modules.
def announcements (items : List Value) : List Log.Record :=
  items.filterMap fun item =>
    if childObjects item = [] then none else (sectionPath? item).map announcement

theorem childrenIn_eq (members : Members) :
    Reflection.childrenIn members =
      (Members.get? "children" members).bind Reflection.childList := by
  induction members with
  | nil => rfl
  | cons member rest ih =>
    obtain ⟨key, value⟩ := member
    by_cases h : key = "children"
    · simp [Reflection.childrenIn, Members.get?, h]
    · simp [Reflection.childrenIn, Members.get?, h, ih]

-- A section that is read has the path of its object and the objects among its children.
theorem path_of_ofValue? {item : Value} {section_ : Node} (h : Node.ofValue? item = some section_) :
    sectionPath? item = some (.ofName section_.name) ∧ section_.members = childObjects item := by
  cases item with
  | object members =>
    obtain rfl := Option.some.inj h
    refine ⟨rfl, ?_⟩
    simp only [Node.members, childrenIn_eq, childObjects]
    cases Members.get? "children" members with
    | none => rfl
    | some value =>
      cases value with
      | list items => exact Reflection.nodesIn_eq_filterMap items
      | _ => rfl
  | _ => simp [Node.ofValue?] at h

theorem sectionPath?_eq_none {item : Value} (h : Node.ofValue? item = none) :
    sectionPath? item = none := by
  cases item with
  | object members => simp [Node.ofValue?] at h
  | _ => rfl

theorem documented_filterMap (start : Text) (items : List Value) :
    documented start (items.filterMap Node.ofValue?) = documentedIn start items := by
  induction items with
  | nil => rfl
  | cons item rest ih =>
    cases h : Node.ofValue? item with
    | none => simpa [h, documented, documentedIn, sectionPath?_eq_none h] using ih
    | some section_ =>
      obtain ⟨hpath, hmembers⟩ := path_of_ofValue? h
      simpa [h, documented, documentedIn, hpath, hmembers] using ih

theorem filterMap_announcement? (items : List Value) :
    (items.filterMap Node.ofValue?).filterMap announcement? = announcements items := by
  rw [List.filterMap_filterMap, announcements]
  refine List.filterMap_congr fun item _ => ?_
  cases h : Node.ofValue? item with
  | none => simp [sectionPath?_eq_none h]
  | some section_ =>
    obtain ⟨hpath, hmembers⟩ := path_of_ofValue? h
    simp [announcement?, hpath, hmembers]

end Document

-- A walk groups the documented modules of a document by their components, keeps their order,
-- and announces each section with modules once.
theorem fragments_grouped_by_component (start : Text) {members : Members} {items : List Value}
    (hitems : Members.get? "children" members = some (.list items)) :
    ∃ state, addDocument start .initial (.value (.object members)) = .ok state ∧
      (∀ key, state.fragments.get key =
        ((documentedIn start items).filter fun found => found.1 = key).map fun found =>
          Markdown.events found.2 ++ Markdown.memberTable found.2) ∧
      (∀ key, key ∈ state.fragments.keys ↔ ∃ module, (key, module) ∈ documentedIn start items) ∧
      state.fragments.keys = ((documentedIn start items).map Prod.fst).eraseDups ∧
      state.fragments.entries =
        state.fragments.keys.map (fun key => (key, state.fragments.get key)) ∧
      state.infos = announcements items := by
  have hsections : (Root.value (.object members)).sections = .ok (items.filterMap Node.ofValue?) := by
    simp [Root.sections, sectionsValue, hitems, Extraction.items, Except.map]
  have hkeys := keys_addSections start (items.filterMap Node.ofValue?)
  rw [documented_filterMap] at hkeys
  refine ⟨addSections start .initial (items.filterMap Node.ofValue?), ?_, fun key => ?_,
    fun key => ?_, hkeys, ?_, ?_⟩
  · rw [addDocument, hsections]
    rfl
  · rw [get_addSections, documented_filterMap]
    rfl
  · rw [hkeys, List.mem_eraseDups, List.mem_map]
    exact ⟨fun ⟨found, hfound, hkey⟩ => ⟨found.2, hkey ▸ hfound⟩,
      fun ⟨module, hmodule⟩ => ⟨_, hmodule, rfl⟩⟩
  · exact Fragments.entries_eq_map_keys (nodup_keys_addSections _ _)
  · rw [addSections_infos, filterMap_announcement?]
    rfl

-- Two sections of a drawer around one of a list, with a section that has no documented module,
-- a module and a section that are no objects, and a module of another name.
theorem fragments_grouped_of_interleaved_sections :
    let named (name : Text) (children : List Value) : Value :=
      .object [("name", .text name), ("kind", .whole 128), ("children", .list children)]
    let items : List Value :=
      [named "\"mdc-drawer/adapter\"" [named "MDCAdapter" [], .null], .whole 1,
        named "mdc-list" [named "MDCList" [], named "util" []], named "mdc-util" [named "util" []],
        named "mdc-drawer/component" [named "MDCDrawer" []]]
    ∃ state, addDocument defaultPrefix .initial (.value (.object [("children", .list items)])) =
        .ok state ∧
      state.fragments.keys = ["mdc-drawer", "mdc-list"] ∧
      state.fragments.get "mdc-drawer" =
        ["### MDCAdapter\n\n" ++ Markdown.tableHead, "### MDCDrawer\n\n" ++ Markdown.tableHead] ∧
      state.fragments.get "mdc-list" = ["### MDCList\n\n" ++ Markdown.tableHead] ∧
      state.infos.map Log.Record.message =
        ["-- generating docs for mdc-drawer/adapter", "-- generating docs for mdc-list",
          "-- generating docs for mdc-util", "-- generating docs for mdc-drawer/component"] := by
  intro named items
  have hitems : Members.get? "children" [("children", .list items)] = some (.list items) := rfl
  obtain ⟨state, hstate, hget, -, hkeys, -, hinfos⟩ :=
    fragments_grouped_by_component defaultPrefix hitems
  refine ⟨state, hstate, ?_, ?_, ?_, ?_⟩
  · rw [hkeys]
    decide +kernel
  · rw [hget]
    decide +kernel
  · rw [hget]
    decide +kernel
  · rw [hinfos]
    decide +kernel

end ReadmeTables.Extraction
