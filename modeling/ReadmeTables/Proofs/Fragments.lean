import Mathlib.Data.List.Induction
import Mathlib.Data.List.Nodup
import ReadmeTables.Fragments
/-!
What fragments hold after they arrived one after another.

Main statements: a key holds what arrived for it, in order, the keys are the arrivals' keys
without their repetitions, and the entries are the keys with what they hold.
-/

namespace ReadmeTables.Fragments

def appendAll (f : Fragments) (arrivals : List (Text × Text)) : Fragments :=
  arrivals.foldl (fun f (key, fragment) => f.append key fragment) f

theorem appendAll_append (f : Fragments) (arrivals more : List (Text × Text)) :
    f.appendAll (arrivals ++ more) = (f.appendAll arrivals).appendAll more :=
  List.foldl_append

theorem ofList_append_singleton (arrivals : List (Text × Text)) (last : Text × Text) :
    ofList (arrivals ++ [last]) = (ofList arrivals).append last.1 last.2 := by
  rw [ofList, List.foldl_append]
  rfl

theorem get_ofList (arrivals : List (Text × Text)) (key : Text) :
    (ofList arrivals).get key = (arrivals.filter fun arrival => arrival.1 = key).map Prod.snd := by
  induction arrivals using List.reverseRecOn with
  | nil => rfl
  | append_singleton arrivals last ih =>
    rw [ofList_append_singleton, get_append, ih, List.filter_append, List.map_append]
    by_cases h : key = last.1
    · simp [h]
    · simp [h, Ne.symm h]

theorem keys_ofList (arrivals : List (Text × Text)) :
    (ofList arrivals).keys = (arrivals.map Prod.fst).eraseDups := by
  induction arrivals using List.reverseRecOn with
  | nil => rfl
  | append_singleton arrivals last ih =>
    rw [ofList_append_singleton, keys_append, ih, List.map_append, List.eraseDups_append]
    simp only [List.mem_eraseDups]
    by_cases h : last.1 ∈ arrivals.map Prod.fst
    · simp [h, List.removeAll]
    · simp [h, List.removeAll, List.eraseDups_cons]

theorem get_of_mem {f : Fragments} (honce : f.keys.Nodup) {entry : Text × List Text}
    (h : entry ∈ f.entries) : f.get entry.1 = entry.2 := by
  obtain ⟨entries⟩ := f
  rw [get]
  rw [keys] at honce
  simp only at h honce ⊢
  induction entries with
  | nil => simp at h
  | cons first rest ih =>
    rw [List.map_cons, List.nodup_cons] at honce
    rcases List.mem_cons.mp h with rfl | h
    · rw [find, if_pos rfl]
    · have hne : first.1 ≠ entry.1 := fun e => honce.1 (e ▸ List.mem_map_of_mem h)
      rw [find, if_neg hne, ih honce.2 h]

theorem entries_eq_map_keys {f : Fragments} (honce : f.keys.Nodup) :
    f.entries = f.keys.map fun key => (key, f.get key) := by
  rw [keys, List.map_map, List.map_congr_left (g := id), List.map_id]
  intro entry hentry
  rw [Function.comp_apply, get_of_mem honce hentry, id]

-- What fragments hold under one key.
def only (f : Fragments) (key : Text) : Fragments :=
  ⟨f.entries.filter fun entry => entry.1 = key⟩

theorem entries_only {f : Fragments} (honce : f.keys.Nodup) {key : Text} (hkey : key ∈ f.keys) :
    (f.only key).entries = [(key, f.get key)] := by
  have hone : f.keys.filter (· = key) = [key] := by
    rw [List.filter_eq, List.count_eq_one_of_mem honce hkey]
    rfl
  rw [only, entries_eq_map_keys honce, List.filter_map]
  exact congrArg (List.map _) hone

theorem filter_appendTo (key arriving fragment : Text) (entries : List (Text × List Text)) :
    (appendTo arriving fragment entries).filter (fun entry => entry.1 = key) =
      if arriving = key then appendTo arriving fragment (entries.filter fun entry => entry.1 = key)
      else entries.filter fun entry => entry.1 = key := by
  induction entries with
  | nil => by_cases h : arriving = key <;> simp [appendTo, h]
  | cons entry rest ih =>
    obtain ⟨k, fragments⟩ := entry
    by_cases hk : k = arriving
    · subst hk
      by_cases h : k = key <;> simp [appendTo, h]
    · rw [appendTo, if_neg hk, List.filter_cons, ih]
      by_cases h : k = key
      · subst h
        simp [Ne.symm hk]
      · by_cases h' : arriving = key <;> simp [h, h']

-- Arrivals under other keys do not matter to a key.
theorem only_ofList (arrivals : List (Text × Text)) (key : Text) :
    (ofList arrivals).only key = ofList (arrivals.filter fun arrival => arrival.1 = key) := by
  induction arrivals using List.reverseRecOn with
  | nil => rfl
  | append_singleton arrivals last ih =>
    have hlast : ((ofList arrivals).append last.1 last.2).only key =
        if last.1 = key then ((ofList arrivals).only key).append last.1 last.2
        else (ofList arrivals).only key := by
      simp only [only, append, filter_appendTo]
      split <;> rfl
    rw [ofList_append_singleton, hlast, ih, List.filter_append]
    by_cases h : last.1 = key
    · simp [h, ofList_append_singleton]
    · simp [h]

end ReadmeTables.Fragments
