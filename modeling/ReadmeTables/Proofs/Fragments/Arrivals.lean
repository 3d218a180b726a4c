import Mathlib.Algebra.Ring.Nat
import ReadmeTables.Proofs.Fragments.Shared
import ReadmeTables.Proofs.Walk
/-!
What fragments tell of what arrived.

After arrivals one after another, no key is without fragments, and there are as many fragments as
there were arrivals. Main statement: whatever is called before, and whatever becomes of the lists
that were given out, a call answers what the arrivals before it say, grouped by their keys; where
the arrivals come from documents, the keys have no slash and no quotation mark.
-/

namespace ReadmeTables

namespace Fragments

-- The keys of arrivals, each where it came first.
def keysIn (arrivals : List (Text × Text)) : List Text :=
  (arrivals.map Prod.fst).eraseDups

-- What arrived under a key.
def arrivedUnder (arrivals : List (Text × Text)) (key : Text) : List Text :=
  (arrivals.filter fun arrival => arrival.1 = key).map Prod.snd

-- What a call answers, told by the arrivals before it.
def Call.expected (arrivals : List (Text × Text)) : Call → Answer
  | .append _ _ | .change _ _ => .done
  | .get key => .texts (arrivedUnder arrivals key)
  | .contains key => .truth (arrivals.any fun arrival => arrival.1 = key)
  | .size => .count (keysIn arrivals).length
  | .keys | .iterate => .texts (keysIn arrivals)
  | .items => .entries ((keysIn arrivals).map fun key => (key, arrivedUnder arrivals key))

def Call.isArrival (call : Call) : Bool :=
  call.arrival?.isSome

theorem filterMap_filter_isArrival (calls : List Call) :
    (calls.filter Call.isArrival).filterMap Call.arrival? = calls.filterMap Call.arrival? := by
  rw [List.filterMap_filter]
  refine List.filterMap_congr fun call _ => ?_
  cases h : call.arrival? <;> simp [Call.isArrival, h]

theorem entries_ofList (arrivals : List (Text × Text)) :
    (ofList arrivals).entries =
      (keysIn arrivals).map fun key => (key, arrivedUnder arrivals key) := by
  rw [entries_eq_map_keys (nodup_keys_ofList arrivals), keys_ofList]
  exact List.map_congr_left fun key _ => by rw [get_ofList]; rfl

theorem contains_ofList (arrivals : List (Text × Text)) (key : Text) :
    (ofList arrivals).contains key = arrivals.any fun arrival => arrival.1 = key := by
  rw [Bool.eq_iff_iff, contains, List.contains_iff_mem, keys_ofList, List.mem_eraseDups]
  simp

theorem answer_ofList (arrivals : List (Text × Text)) (call : Call) :
    call.answer (ofList arrivals) = call.expected arrivals := by
  cases call with
  | get key => exact congrArg Answer.texts (get_ofList arrivals key)
  | contains key => exact congrArg Answer.truth (contains_ofList arrivals key)
  | size =>
    refine congrArg Answer.count ?_
    rw [size, entries_ofList, List.length_map]
  | keys => exact congrArg Answer.texts (keys_ofList arrivals)
  | iterate => exact congrArg Answer.texts (keys_ofList arrivals)
  | items => exact congrArg Answer.entries (entries_ofList arrivals)
  | _ => rfl

theorem ne_nil_of_mem_ofList {arrivals : List (Text × Text)} {entry : Text × List Text}
    (h : entry ∈ (ofList arrivals).entries) : entry.2 ≠ [] := by
  rw [entries_ofList] at h
  obtain ⟨key, hkey, rfl⟩ := List.mem_map.mp h
  rw [keysIn, List.mem_eraseDups] at hkey
  obtain ⟨arrival, harrival, hsame⟩ := List.mem_map.mp hkey
  have hmem : arrival.2 ∈ arrivedUnder arrivals key :=
    List.mem_map_of_mem (List.mem_filter.mpr ⟨harrival, by simpa using hsame⟩)
  exact List.ne_nil_of_mem hmem

-- How many fragments there are under all keys.
def total (f : Fragments) : Nat :=
  (f.entries.map fun entry => entry.2.length).sum

theorem total_append (f : Fragments) (key fragment : Text) :
    (f.append key fragment).total = f.total + 1 := by
  obtain ⟨entries⟩ := f
  simp only [total, append]
  induction entries with
  | nil => simp [appendTo]
  | cons entry rest ih =>
    obtain ⟨k, fragments⟩ := entry
    rw [appendTo]
    split
    · simp only [List.map_cons, List.sum_cons, List.length_append, List.length_singleton]
      omega
    · simp only [List.map_cons, List.sum_cons, ih]
      omega

theorem total_ofList (arrivals : List (Text × Text)) :
    (ofList arrivals).total = arrivals.length := by
  induction arrivals using List.reverseRecOn with
  | nil => rfl
  | append_singleton arrivals last ih =>
    rw [ofList_append_singleton, total_append, ih, List.length_append, List.length_singleton]

end Fragments

namespace Extraction

-- Goes through documents one after another. One that fails adds nothing.
def addDocuments (start : Text) (s : State) (roots : List Root) : State :=
  roots.foldl (fun s root => (addDocument start s root).toOption.getD s) s

theorem exists_sections_of_addDocuments (start : Text) (s : State) (roots : List Root) :
    ∃ sections, addDocuments start s roots = s.followedBy start sections := by
  induction roots generalizing s with
  | nil => exact ⟨[], (followedBy_nil start s).symm⟩
  | cons root rest ih =>
    rw [addDocuments, List.foldl_cons, ← addDocuments]
    cases hroot : addDocument start s root with
    | error error => exact ih s
    | ok next =>
      obtain ⟨earlier, -, rfl⟩ := exists_sections_of_addDocument hroot
      obtain ⟨later, hlater⟩ := ih (addSections start s earlier)
      refine ⟨earlier ++ later, ?_⟩
      rw [followedBy_append, ← addSections_eq start s earlier]
      exact hlater

-- What documents leave is what their documented modules bring, in order.
theorem exists_documented_of_addDocuments (start : Text) (roots : List Root) :
    ∃ sections, (addDocuments start .initial roots).fragments =
      .ofList ((documented start sections).map arrival) := by
  obtain ⟨sections, hsections⟩ := exists_sections_of_addDocuments start .initial roots
  exact ⟨sections, congrArg State.fragments hsections⟩

theorem not_mem_component (name : Text) :
    CodePoint.scalar '/' ∉ (SectionPath.ofName name).component ∧
      CodePoint.scalar '"' ∉ (SectionPath.ofName name).component := by
  refine ⟨Text.not_mem_before _ _, fun hquote => ?_⟩
  have hfile : CodePoint.scalar '"' ∈ (SectionPath.ofName name).file :=
    List.takeWhile_subset _ hquote
  exact Text.not_mem_without _ _ hfile

end Extraction

namespace Fragments

open Extraction (Root addDocuments documented arrival)

-- However it came to be, what keeps fragments in lists of its own has the fragments that arrived,
-- with each key once and none without fragments, and answers every call by the arrivals alone, as
-- if nothing had been read and no list that was given out had been changed. What is collected from
-- documents came to be so, and its keys have neither slashes nor quotation marks.
theorem answers_tell_arrivals :
    (∀ calls : List Call,
      let arrivals := calls.filterMap Call.arrival?
      let f := (Shared.after calls).fragments
      f = .ofList arrivals ∧ f.keys.Nodup ∧ f.keys = keysIn arrivals ∧
      (∀ entry ∈ f.entries, entry.2 ≠ []) ∧ f.total = arrivals.length ∧
      ∀ call : Call,
        ((Shared.after calls).step call).1 = call.expected arrivals ∧
        call.answer f = call.expected arrivals ∧
        ((Shared.after calls).step call).1 =
          ((Shared.after (calls.filter Call.isArrival)).step call).1) ∧
    ∀ (start : Text) (roots : List Root),
      let f := (addDocuments start .initial roots).fragments
      (∃ calls, f = (Shared.after calls).fragments) ∧
      ∀ key ∈ f.keys, CodePoint.scalar '/' ∉ key ∧ CodePoint.scalar '"' ∉ key := by
  constructor
  · intro calls arrivals f
    have hf : f = .ofList arrivals := Shared.after_fragments calls
    refine ⟨hf, ?_, ?_, fun entry hentry => ?_, ?_, fun call => ?_⟩
    · rw [hf]
      exact nodup_keys_ofList _
    · rw [hf]
      exact keys_ofList _
    · rw [hf] at hentry
      exact ne_nil_of_mem_ofList hentry
    · rw [hf, total_ofList]
    · have hanswer : call.answer f = call.expected arrivals := by rw [hf, answer_ofList]
      refine ⟨(Shared.step_answer _ _).trans hanswer, hanswer, ?_⟩
      rw [Shared.step_answer, Shared.step_answer, Shared.after_fragments, Shared.after_fragments,
        filterMap_filter_isArrival]
  · intro start roots f
    obtain ⟨sections, hsections⟩ := Extraction.exists_documented_of_addDocuments start roots
    constructor
    · refine ⟨((documented start sections).map arrival).map fun came => .append came.1 came.2, ?_⟩
      rw [Shared.after_fragments, List.filterMap_map]
      exact hsections.trans (congrArg ofList List.filterMap_some.symm)
    · intro key hkey
      rw [show f = _ from hsections, keys_ofList, List.mem_eraseDups, List.map_map] at hkey
      obtain ⟨found, hfound, rfl⟩ := List.mem_map.mp hkey
      obtain ⟨section_, -, hmodules⟩ := List.mem_flatMap.mp hfound
      obtain ⟨module, -, rfl⟩ := List.mem_map.mp hmodules
      exact Extraction.not_mem_component section_.name

-- Two keys, one of them empty, with a copy of the first one changed and the copy of the other one
-- emptied, and a document behind one that fails.
theorem answers_of_changed_copies :
    let calls : List Call :=
      [.append "a" "1", .get "a", .append "" "2", .change 0 ["x", "y"], .items, .change 2 [],
        .append "a" "3"]
    let s := Shared.after calls
    let named (name : Text) (children : List Json.Value) : Json.Value :=
      .object [("name", .text name), ("children", .list children)]
    let roots : List Root :=
      [.value (.bool true), .value (.list [named "\"mdc-drawer/adapter\"" [named "MDCAdapter" []]])]
    let f := (addDocuments Extraction.defaultPrefix .initial roots).fragments
    let key : Text := "mdc-drawer"
    let entry : Text × List Text := ("", ["2"])
    s.lent.map s.listAt = ([["x", "y"], ["1"], []] : List (List Text)) ∧
      (s.step (.get "a")).1 = .texts ["1", "3"] ∧
      entry ∈ s.fragments.entries ∧ entry.2 ≠ [] ∧
      f.keys = [key] ∧ CodePoint.scalar '/' ∉ key ∧ CodePoint.scalar '"' ∉ key := by
  intro calls s named roots f key entry
  have hanswer := ((answers_tell_arrivals.1 calls).2.2.2.2.2 (.get "a")).1
  have hentry : entry ∈ s.fragments.entries := by decide +kernel
  have hkeys : f.keys = [key] := by decide +kernel
  have hkey : key ∈ f.keys := by rw [hkeys, List.mem_singleton]
  exact ⟨by decide +kernel, hanswer, hentry, (answers_tell_arrivals.1 calls).2.2.2.1 _ hentry,
    hkeys, (answers_tell_arrivals.2 Extraction.defaultPrefix roots).2 key hkey⟩

end Fragments

end ReadmeTables
