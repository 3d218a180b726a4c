import ReadmeTables.Text.Basic
/-!
Fragments of documentation, collected under keys.

Keys stand in the order in which they first came, and the fragments of a key in the order of
their arrival. Main statements: what a key holds after an arrival, and which keys there are.
-/

namespace ReadmeTables

structure Fragments where
  entries : List (Text × List Text)
deriving DecidableEq

namespace Fragments

def empty : Fragments := ⟨[]⟩

-- Adds a fragment to the entry of a key, or makes an entry at the end.
def appendTo (key fragment : Text) : List (Text × List Text) → List (Text × List Text)
  | [] => [(key, [fragment])]
  | (k, fragments) :: rest =>
    if k = key then (k, fragments ++ [fragment]) :: rest
    else (k, fragments) :: appendTo key fragment rest

def append (f : Fragments) (key fragment : Text) : Fragments :=
  ⟨appendTo key fragment f.entries⟩

def find (key : Text) : List (Text × List Text) → List Text
  | [] => []
  | (k, fragments) :: rest => if k = key then fragments else find key rest

-- The fragments of a key; none if the key never came.
def get (f : Fragments) (key : Text) : List Text :=
  find key f.entries

def keys (f : Fragments) : List Text :=
  f.entries.map Prod.fst

def contains (f : Fragments) (key : Text) : Bool :=
  f.keys.contains key

def size (f : Fragments) : Nat :=
  f.entries.length

-- Collects fragments that come one after another.
def ofList (arrivals : List (Text × Text)) : Fragments :=
  arrivals.foldl (fun f (key, fragment) => f.append key fragment) empty

theorem find_appendTo (key other fragment : Text) (entries : List (Text × List Text)) :
    find other (appendTo key fragment entries) =
      if other = key then find other entries ++ [fragment] else find other entries := by
  induction entries with
  | nil =>
    by_cases h : other = key
    · simp [appendTo, find, h]
    · simp [appendTo, find, h, Ne.symm h]
  | cons entry rest ih =>
    obtain ⟨k, fragments⟩ := entry
    by_cases hk : k = key
    · subst hk
      by_cases h : other = k
      · simp [appendTo, find, h]
      · simp [appendTo, find, h, Ne.symm h]
    · by_cases ho : k = other
      · subst ho
        simp [appendTo, find, hk]
      · simp [appendTo, find, hk, ho, ih]

theorem get_append (f : Fragments) (key other fragment : Text) :
    (f.append key fragment).get other =
      if other = key then f.get other ++ [fragment] else f.get other :=
  find_appendTo key other fragment f.entries

theorem keys_appendTo (key fragment : Text) (entries : List (Text × List Text)) :
    (appendTo key fragment entries).map Prod.fst =
      if key ∈ entries.map Prod.fst then entries.map Prod.fst
      else entries.map Prod.fst ++ [key] := by
  induction entries with
  | nil => simp [appendTo]
  | cons entry rest ih =>
    obtain ⟨k, fragments⟩ := entry
    by_cases hk : k = key
    · simp [appendTo, hk]
    · by_cases hr : key ∈ rest.map Prod.fst
      · simp [appendTo, hk, ih, hr]
      · simp only [appendTo, hk, if_false, List.map_cons, ih, hr, List.mem_cons, Ne.symm hk,
          or_self, List.cons_append]

theorem keys_append (f : Fragments) (key fragment : Text) :
    (f.append key fragment).keys = if key ∈ f.keys then f.keys else f.keys ++ [key] :=
  keys_appendTo key fragment f.entries

theorem nodup_keys_ofList (arrivals : List (Text × Text)) :
    (ofList arrivals).keys.Nodup := by
  rw [ofList]
  refine List.foldlRecOn (motive := fun f : Fragments => f.keys.Nodup) arrivals _ ?_ ?_
  · exact List.nodup_nil
  · intro f hf arrival _
    rw [keys_append]
    split
    · exact hf
    · rename_i hnew
      refine List.nodup_append.mpr ⟨hf, by simp, fun key hkey other hother hsame => ?_⟩
      rw [hsame, List.mem_singleton.mp hother] at hkey
      exact hnew hkey

end Fragments

end ReadmeTables
