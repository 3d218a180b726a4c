import ReadmeTables.Proofs.Fragments
/-!
Fragments in lists that can be changed in place.

The list of a key is one of many lists, each known by its place, and whoever knows a place can
change the list there. An arrival under a key that is known changes the key's list; lists that are
given out are copies at new places. Main statement: as long as the places of the keys are given to
nobody, every call answers as the fragments do that the keys' lists make up, and only arrivals
change these.
-/

namespace ReadmeTables.Fragments

section Keys

variable {key : Text} {before : List (Text × List Text)}

-- Entries of other keys are passed over.
theorem appendTo_append (h : key ∉ before.map Prod.fst) (fragment : Text)
    (after : List (Text × List Text)) :
    appendTo key fragment (before ++ after) = before ++ appendTo key fragment after := by
  induction before with
  | nil => rfl
  | cons entry rest ih =>
    rw [List.map_cons] at h
    obtain ⟨hne, hrest⟩ := List.ne_and_not_mem_of_not_mem_cons h
    rw [List.cons_append, appendTo, if_neg (Ne.symm hne), ih hrest, List.cons_append]

theorem find_append (h : key ∉ before.map Prod.fst) (after : List (Text × List Text)) :
    find key (before ++ after) = find key after := by
  induction before with
  | nil => rfl
  | cons entry rest ih =>
    rw [List.map_cons] at h
    obtain ⟨hne, hrest⟩ := List.ne_and_not_mem_of_not_mem_cons h
    rw [List.cons_append, find, if_neg (Ne.symm hne), ih hrest]

theorem appendTo_of_new (h : key ∉ before.map Prod.fst) (fragment : Text) :
    appendTo key fragment before = before ++ [(key, [fragment])] := by
  have hpassed := appendTo_append h fragment []
  rwa [List.append_nil] at hpassed

theorem appendTo_of_first (h : key ∉ before.map Prod.fst) (fragment : Text)
    (fragments : List Text) (after : List (Text × List Text)) :
    appendTo key fragment (before ++ (key, fragments) :: after) =
      before ++ (key, fragments ++ [fragment]) :: after := by
  rw [appendTo_append h, appendTo, if_pos rfl]

theorem find_of_new (h : key ∉ before.map Prod.fst) : find key before = [] := by
  have hpassed := find_append h []
  rwa [List.append_nil] at hpassed

theorem find_of_first (h : key ∉ before.map Prod.fst) (fragments : List Text)
    (after : List (Text × List Text)) :
    find key (before ++ (key, fragments) :: after) = fragments := by
  rw [find_append h, find, if_pos rfl]

end Keys

-- `lists` are all the lists there are, `slots` the keys with the places of their lists, and
-- `lent` the places that were given out, the earliest first.
structure Shared where
  lists : List (List Text)
  slots : List (Text × Nat)
  lent : List Nat

-- What can be asked and done. A list that was given out is changed by saying which one it is and
-- what it holds from then on.
inductive Call where
  | append (key fragment : Text)
  | get (key : Text)
  | contains (key : Text)
  | size
  | keys
  | iterate
  | items
  | change (which : Nat) (content : List Text)

inductive Answer where
  | done
  | texts (texts : List Text)
  | truth (b : Bool)
  | count (n : Nat)
  | entries (entries : List (Text × List Text))
deriving DecidableEq

-- How fragments answer a call.
def Call.answer (f : Fragments) : Call → Answer
  | .append _ _ | .change _ _ => .done
  | .get key => .texts (f.get key)
  | .contains key => .truth (f.contains key)
  | .size => .count f.size
  | .keys | .iterate => .texts f.keys
  | .items => .entries f.entries

def Call.arrival? : Call → Option (Text × Text)
  | .append key fragment => some (key, fragment)
  | _ => none

namespace Shared

def empty : Shared := ⟨[], [], []⟩

def listAt (s : Shared) (place : Nat) : List Text :=
  s.lists[place]?.getD []

def place? (s : Shared) (key : Text) : Option Nat :=
  (s.slots.find? fun slot => slot.1 = key).map Prod.snd

-- Changes a list where it is.
def extend (s : Shared) (place : Nat) (fragment : Text) : Shared :=
  { s with lists := s.lists.modify place (· ++ [fragment]) }

-- Makes a list for a new key.
def enter (s : Shared) (key fragment : Text) : Shared :=
  { s with lists := s.lists ++ [[fragment]], slots := s.slots ++ [(key, s.lists.length)] }

def append (s : Shared) (key fragment : Text) : Shared :=
  match s.place? key with
  | some place => s.extend place fragment
  | none => s.enter key fragment

def get (s : Shared) (key : Text) : List Text :=
  match s.place? key with
  | some place => s.listAt place
  | none => []

def keys (s : Shared) : List Text :=
  s.slots.map Prod.fst

def entryAt (s : Shared) (slot : Text × Nat) : Text × List Text :=
  (slot.1, s.listAt slot.2)

def items (s : Shared) : List (Text × List Text) :=
  s.slots.map s.entryAt

-- Gives out a new list.
def lend (s : Shared) (copy : List Text) : Shared :=
  { s with lists := s.lists ++ [copy], lent := s.lent ++ [s.lists.length] }

def change (s : Shared) (which : Nat) (content : List Text) : Shared :=
  match s.lent[which]? with
  | some place => { s with lists := s.lists.set place content }
  | none => s

-- Answers a call. The iterator over the keys is used up by its answer; other lists stay with the
-- caller.
def step (s : Shared) : Call → Answer × Shared
  | .append key fragment => (.done, s.append key fragment)
  | .get key => (.texts (s.get key), s.lend (s.get key))
  | .contains key => (.truth (s.place? key).isSome, s)
  | .size => (.count s.slots.length, s)
  | .keys => (.texts s.keys, s.lend s.keys)
  | .iterate => (.texts s.keys, s)
  | .items => (.entries s.items, (s.items.map Prod.snd).foldl lend s)
  | .change which content => (.done, s.change which content)

def after (calls : List Call) : Shared :=
  calls.foldl (fun s call => (s.step call).2) empty

-- The fragments that the lists of the keys make up.
def fragments (s : Shared) : Fragments :=
  ⟨s.items⟩

-- Every key has a list of its own, and none of these lists was given out.
structure IsApart (s : Shared) : Prop where
  slot_lt : ∀ slot ∈ s.slots, slot.2 < s.lists.length
  lent_lt : ∀ place ∈ s.lent, place < s.lists.length
  nodup : (s.slots.map Prod.snd).Nodup
  not_lent : ∀ slot ∈ s.slots, slot.2 ∉ s.lent

variable {s : Shared} {key fragment : Text} {place : Nat}

theorem empty_isApart : IsApart empty :=
  ⟨by simp [empty], by simp [empty], by simp [empty], by simp [empty]⟩

section Answers

theorem keys_items (s : Shared) : s.items.map Prod.fst = s.keys := by
  rw [items, List.map_map]
  rfl

theorem not_mem_of_place? (h : s.place? key = none) : key ∉ s.items.map Prod.fst := by
  rw [place?, Option.map_eq_none_iff, List.find?_eq_none] at h
  rw [keys_items]
  intro hkey
  obtain ⟨slot, hslot, rfl⟩ := List.mem_map.mp hkey
  simpa using h slot hslot

-- A known key has one first entry.
theorem exists_split_of_place? (h : s.place? key = some place) :
    ∃ before after, s.slots = before ++ (key, place) :: after ∧
      key ∉ (before.map s.entryAt).map Prod.fst := by
  obtain ⟨slot, hfind, rfl⟩ := Option.map_eq_some_iff.mp h
  obtain ⟨hslot, before, after, hsplit, hbefore⟩ := List.find?_eq_some_iff_append.mp hfind
  have hkey : slot.1 = key := by simpa using hslot
  refine ⟨before, after, by rw [hsplit, ← hkey], fun hmem => ?_⟩
  rw [List.map_map] at hmem
  obtain ⟨other, hother, hsame⟩ := List.mem_map.mp hmem
  have hne : other.1 ≠ key := by simpa using hbefore other hother
  exact hne hsame

theorem get_eq (s : Shared) (key : Text) : s.get key = s.fragments.get key := by
  rw [get, Fragments.get, fragments]
  cases hplace : s.place? key with
  | none => exact (find_of_new (not_mem_of_place? hplace)).symm
  | some place =>
    obtain ⟨before, after, hsplit, hbefore⟩ := exists_split_of_place? hplace
    rw [items, hsplit, List.map_append, List.map_cons, entryAt, find_of_first hbefore]

theorem isSome_place? (s : Shared) (key : Text) :
    (s.place? key).isSome = s.fragments.contains key := by
  rw [Bool.eq_iff_iff, contains, List.contains_iff_mem, Fragments.keys, fragments]
  cases hplace : s.place? key with
  | none => simpa using not_mem_of_place? hplace
  | some place =>
    obtain ⟨before, after, hsplit, -⟩ := exists_split_of_place? hplace
    simp [items, hsplit, entryAt]

end Answers

section Changes

-- Lists at other places than those of the keys make no difference.
theorem map_entryAt_congr {other : Shared} {slots : List (Text × Nat)}
    (h : ∀ slot ∈ slots, other.listAt slot.2 = s.listAt slot.2) :
    slots.map other.entryAt = slots.map s.entryAt :=
  List.map_congr_left fun slot hslot => by rw [entryAt, entryAt, h slot hslot]

theorem listAt_enter (h : place < s.lists.length) :
    (s.enter key fragment).listAt place = s.listAt place := by
  rw [listAt, enter, List.getElem?_append_left h, listAt]

theorem listAt_lend (h : place < s.lists.length) (copy : List Text) :
    (s.lend copy).listAt place = s.listAt place := by
  rw [listAt, lend, List.getElem?_append_left h, listAt]

theorem listAt_extend (h : place < s.lists.length) :
    (s.extend place fragment).listAt place = s.listAt place ++ [fragment] := by
  simp [listAt, extend, h]

theorem listAt_extend_of_ne {other : Nat} (h : place ≠ other) :
    (s.extend place fragment).listAt other = s.listAt other := by
  simp [listAt, extend, h]

theorem IsApart.extend (h : s.IsApart) : (s.extend place fragment).IsApart := by
  have hlength : (s.extend place fragment).lists.length = s.lists.length :=
    List.length_modify ..
  refine ⟨fun slot hslot => ?_, fun other hother => ?_, h.nodup, h.not_lent⟩
  · rw [hlength]
    exact h.slot_lt slot hslot
  · rw [hlength]
    exact h.lent_lt other hother

theorem IsApart.enter (h : s.IsApart) : (s.enter key fragment).IsApart := by
  have hlength : (s.enter key fragment).lists.length = s.lists.length + 1 := List.length_append
  -- the new place is behind those of all other keys and of all lists that were given out
  have hslot : ∀ slot ∈ s.slots, slot.2 ≠ s.lists.length := fun slot hslot =>
    Nat.ne_of_lt (h.slot_lt slot hslot)
  have hlent : s.lists.length ∉ s.lent := fun hmem => Nat.lt_irrefl _ (h.lent_lt _ hmem)
  refine ⟨?_, fun other hother => ?_, ?_, ?_⟩
  · rw [hlength, Shared.enter, List.forall_mem_append, List.forall_mem_singleton]
    exact ⟨fun slot hslot => Nat.lt_succ_of_lt (h.slot_lt slot hslot), Nat.lt_succ_self _⟩
  · rw [hlength]
    exact Nat.lt_succ_of_lt (h.lent_lt other hother)
  · rw [Shared.enter, List.map_append, List.map_singleton, List.nodup_append]
    refine ⟨h.nodup, List.nodup_singleton _, fun other hother new hnew => ?_⟩
    obtain ⟨slot, hmem, rfl⟩ := List.mem_map.mp hother
    rw [List.mem_singleton.mp hnew]
    exact hslot slot hmem
  · rw [Shared.enter, List.forall_mem_append, List.forall_mem_singleton]
    exact ⟨h.not_lent, hlent⟩

theorem IsApart.append (h : s.IsApart) : (s.append key fragment).IsApart := by
  rw [Shared.append]
  split
  · exact h.extend
  · exact h.enter

theorem items_append (h : s.IsApart) :
    (s.append key fragment).items = appendTo key fragment s.items := by
  rw [Shared.append]
  cases hplace : s.place? key with
  | none =>
    have hold : s.slots.map (s.enter key fragment).entryAt = s.items :=
      map_entryAt_congr fun slot hslot => listAt_enter (h.slot_lt slot hslot)
    have hnew : (s.enter key fragment).entryAt (key, s.lists.length) = (key, [fragment]) := by
      simp [entryAt, listAt, Shared.enter]
    rw [appendTo_of_new (not_mem_of_place? hplace), ← hold, ← hnew, ← List.map_singleton,
      ← List.map_append]
    rfl
  | some place =>
    obtain ⟨before, after, hsplit, hbefore⟩ := exists_split_of_place? hplace
    have hlt : place < s.lists.length := h.slot_lt (key, place) (by simp [hsplit])
    have honce : place ∉ before.map Prod.snd ++ after.map Prod.snd := by
      have hnodup := h.nodup
      rw [hsplit, List.map_append, List.map_cons, List.nodup_middle, List.nodup_cons] at hnodup
      exact hnodup.1
    rw [List.mem_append, not_or] at honce
    -- the lists of all other keys stay as they are
    have hsame (slots : List (Text × Nat)) (hslots : place ∉ slots.map Prod.snd) :
        slots.map (s.extend place fragment).entryAt = slots.map s.entryAt := by
      refine map_entryAt_congr fun slot hslot => listAt_extend_of_ne ?_
      rintro rfl
      exact hslots (List.mem_map_of_mem hslot)
    calc (s.extend place fragment).items
        = (before ++ (key, place) :: after).map (s.extend place fragment).entryAt := by
          rw [← hsplit]
          rfl
      _ = before.map s.entryAt ++ (key, s.listAt place ++ [fragment]) :: after.map s.entryAt := by
          rw [List.map_append, List.map_cons, hsame before honce.1, hsame after honce.2, entryAt,
            listAt_extend hlt]
      _ = appendTo key fragment (before.map s.entryAt ++ (key, s.listAt place) ::
            after.map s.entryAt) := (appendTo_of_first hbefore _ _ _).symm
      _ = appendTo key fragment s.items := by
          rw [items, hsplit, List.map_append, List.map_cons]
          rfl

theorem IsApart.lend (h : s.IsApart) (copy : List Text) : (s.lend copy).IsApart := by
  have hlength : (s.lend copy).lists.length = s.lists.length + 1 := List.length_append
  refine ⟨fun slot hslot => ?_, ?_, h.nodup, fun slot hslot => ?_⟩
  · rw [hlength]
    exact Nat.lt_succ_of_lt (h.slot_lt slot hslot)
  · rw [hlength, Shared.lend, List.forall_mem_append, List.forall_mem_singleton]
    exact ⟨fun other hother => Nat.lt_succ_of_lt (h.lent_lt other hother), Nat.lt_succ_self _⟩
  · rw [Shared.lend, List.mem_append, List.mem_singleton, not_or]
    exact ⟨h.not_lent slot hslot, Nat.ne_of_lt (h.slot_lt slot hslot)⟩

theorem items_lend (h : s.IsApart) (copy : List Text) : (s.lend copy).items = s.items :=
  map_entryAt_congr fun slot hslot => listAt_lend (h.slot_lt slot hslot) copy

theorem lendAll (h : s.IsApart) (copies : List (List Text)) :
    (copies.foldl lend s).IsApart ∧ (copies.foldl lend s).items = s.items := by
  induction copies generalizing s with
  | nil => exact ⟨h, rfl⟩
  | cons copy rest ih =>
    obtain ⟨hapart, hitems⟩ := ih (h.lend copy)
    exact ⟨hapart, hitems.trans (items_lend h copy)⟩

theorem IsApart.change (h : s.IsApart) (which : Nat) (content : List Text) :
    (s.change which content).IsApart := by
  rw [Shared.change]
  split
  · rename_i place _
    have hlength : (s.lists.set place content).length = s.lists.length := List.length_set
    refine ⟨fun slot hslot => ?_, fun other hother => ?_, h.nodup, h.not_lent⟩
    · rw [hlength]
      exact h.slot_lt slot hslot
    · rw [hlength]
      exact h.lent_lt other hother
  · exact h

-- A list that was given out is no list of a key.
theorem items_change (h : s.IsApart) (which : Nat) (content : List Text) :
    (s.change which content).items = s.items := by
  rw [Shared.change]
  split
  · rename_i place hlent
    refine map_entryAt_congr fun slot hslot => ?_
    have hne : place ≠ slot.2 := by
      rintro rfl
      exact h.not_lent slot hslot (List.mem_of_getElem? hlent)
    rw [listAt, listAt, List.getElem?_set_ne hne]
  · rfl

end Changes

section Steps

variable {call : Call}

theorem step_answer (s : Shared) (call : Call) : (s.step call).1 = call.answer s.fragments := by
  cases call with
  | get key => exact congrArg Answer.texts (get_eq s key)
  | contains key => exact congrArg Answer.truth (isSome_place? s key)
  | size => exact congrArg Answer.count (List.length_map ..).symm
  | keys => exact congrArg Answer.texts (keys_items s).symm
  | iterate => exact congrArg Answer.texts (keys_items s).symm
  | _ => rfl

theorem IsApart.step (h : s.IsApart) : (s.step call).2.IsApart := by
  cases call with
  | append key fragment => exact h.append
  | get key => exact h.lend _
  | keys => exact h.lend _
  | items => exact (lendAll h _).1
  | change which content => exact h.change which content
  | _ => exact h

-- Nothing but an arrival changes the fragments, whatever is given out and changed there.
theorem step_fragments (h : s.IsApart) :
    (s.step call).2.fragments = s.fragments.appendAll call.arrival?.toList := by
  have hitems {other : Shared} (hsame : other.items = s.items) : other.fragments = s.fragments :=
    congrArg Fragments.mk hsame
  cases call with
  | append key fragment => exact congrArg Fragments.mk (items_append h)
  | get key => exact hitems (items_lend h _)
  | keys => exact hitems (items_lend h _)
  | items => exact hitems (lendAll h _).2
  | change which content => exact hitems (items_change h which content)
  | _ => rfl

theorem after_append_singleton (calls : List Call) (last : Call) :
    after (calls ++ [last]) = ((after calls).step last).2 := by
  rw [after, List.foldl_append]
  rfl

theorem after_isApart (calls : List Call) : (after calls).IsApart := by
  induction calls using List.reverseRecOn with
  | nil => exact empty_isApart
  | append_singleton calls last ih =>
    rw [after_append_singleton]
    exact ih.step

theorem after_fragments (calls : List Call) :
    (after calls).fragments = ofList (calls.filterMap Call.arrival?) := by
  induction calls using List.reverseRecOn with
  | nil => rfl
  | append_singleton calls last ih =>
    rw [after_append_singleton, step_fragments (after_isApart calls), ih, List.filterMap_append]
    cases harrival : last.arrival? with
    | none => simp [harrival, appendAll]
    | some arrival => simp [harrival, ofList_append_singleton, appendAll]

end Steps

end Shared

end ReadmeTables.Fragments
