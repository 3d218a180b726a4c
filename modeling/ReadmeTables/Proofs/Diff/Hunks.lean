import Mathlib.Data.List.Forall2
import ReadmeTables.Proofs.Diff.Applying
/-!
The edits that hunks show.

Main statements: the edits of all hunks are those that are marked, in their order, and changes at
the end of a script are the last ones.
-/

namespace ReadmeTables.Diff

variable {α : Type}

theorem flatMap_edits_attach (i j : Nat) (e : Edit α) (adjacent : Bool) (later : List (Hunk α)) :
    (attach i j e adjacent later).flatMap Hunk.edits = e :: later.flatMap Hunk.edits := by
  cases later with
  | nil => rfl
  | cons hunk rest => cases adjacent <;> rfl

theorem flatMap_edits_hunksFrom (i j : Nat) (marked : List (Edit α × Bool)) :
    (hunksFrom i j marked).flatMap Hunk.edits = (marked.filter Prod.snd).map Prod.fst := by
  induction marked generalizing i j with
  | nil => rfl
  | cons pair rest ih =>
    obtain ⟨e, isShown⟩ := pair
    rw [hunksFrom]
    cases isShown with
    | false => simpa using ih _ _
    | true => simp [flatMap_edits_attach, ih]

-- The edits that are shown.
def shownEdits (edits : List (Edit α)) : List (Edit α) :=
  (hunks edits).flatMap Hunk.edits

theorem shownEdits_eq (edits : List (Edit α)) :
    shownEdits edits = ((edits.zip (shown edits)).filter Prod.snd).map Prod.fst :=
  flatMap_edits_hunksFrom 0 0 _

theorem map_fst_zip_shown (edits : List (Edit α)) :
    (edits.zip (shown edits)).map Prod.fst = edits :=
  List.map_fst_zip (Nat.le_of_eq (shown_marksChanges edits).length_eq)

theorem shownEdits_sublist (edits : List (Edit α)) : (shownEdits edits).Sublist edits := by
  have hsub := (List.filter_sublist (p := Prod.snd) (l := edits.zip (shown edits))).map Prod.fst
  rwa [map_fst_zip_shown, ← shownEdits_eq] at hsub

-- Changes at the end are shown there.
theorem exists_shownEdits_append {front tail : List (Edit α)}
    (htail : ∀ e ∈ tail, e.isChange = true) :
    ∃ front', front'.Sublist front ∧ shownEdits (front ++ tail) = front' ++ tail := by
  obtain ⟨-, hmarks⟩ := List.forall₂_iff_zip.mp (shown_marksChanges (front ++ tail))
  obtain ⟨marked, marked', hsplit, hfront, htail'⟩ :=
    List.map_eq_append_iff.mp (map_fst_zip_shown (front ++ tail))
  have hall : marked'.filter Prod.snd = marked' := by
    refine List.filter_eq_self.mpr fun pair hpair => ?_
    refine hmarks (a := pair.1) (b := pair.2) (hsplit ▸ List.mem_append_right _ hpair) ?_
    exact htail pair.1 (htail' ▸ List.mem_map_of_mem hpair)
  refine ⟨(marked.filter Prod.snd).map Prod.fst, ?_, ?_⟩
  · rw [← hfront]
    exact List.filter_sublist.map Prod.fst
  · rw [shownEdits_eq, hsplit, List.filter_append, List.map_append, hall, htail']

theorem Turns.edits_ne_nil {i j : Nat} {hunks : List (Hunk α)} {old new : List α}
    (h : Turns i j hunks old new) : ∀ hunk ∈ hunks, hunk.edits ≠ [] := by
  induction h with
  | same => simp
  | hunk kept hold hnew hedits later ih => exact List.forall_mem_cons.mpr ⟨hedits, ih⟩

-- Whether a string of a hunk is no head.
def isEditText (t : Text) : Bool :=
  (readEdit t).isSome

theorem isEditText_editText (e : Edit Text) : isEditText (editText e) = true := by
  rw [isEditText, readEdit_editText]
  rfl

theorem isEditText_hunkHead (hunk : Hunk Text) : isEditText (hunkHead hunk) = false := by
  rw [isEditText, readEdit_hunkHead]
  rfl

theorem filter_hunkLines (found : List (Hunk Text)) :
    (found.flatMap hunkLines).filter isEditText = (found.flatMap Hunk.edits).map editText := by
  induction found with
  | nil => rfl
  | cons hunk rest ih =>
    have hedits : (hunk.edits.map editText).filter isEditText = hunk.edits.map editText := by
      refine List.filter_eq_self.mpr fun t ht => ?_
      obtain ⟨e, -, rfl⟩ := List.mem_map.mp ht
      exact isEditText_editText e
    rw [List.flatMap_cons, List.filter_append, ih, hunkLines, List.filter_cons_of_neg,
      hedits, List.flatMap_cons, List.map_append]
    rw [isEditText_hunkHead]
    exact Bool.false_ne_true

-- The strings of hunks before, at and behind an edit.
theorem exists_split_hunkLines {found : List (Hunk Text)} {front tail : List (Edit Text)}
    {e : Edit Text} (h : found.flatMap Hunk.edits = front ++ e :: tail) :
    ∃ before after, found.flatMap hunkLines = before ++ editText e :: after ∧
      before.filter isEditText = front.map editText ∧
      after.filter isEditText = tail.map editText := by
  have hfilter := filter_hunkLines found
  rw [h, List.map_append, List.map_cons] at hfilter
  obtain ⟨first, later, hsplit, hfirst, hlater⟩ := List.filter_eq_append_iff.mp hfilter
  obtain ⟨heads, after, rfl, hheads, -, hafter⟩ := List.filter_eq_cons_iff.mp hlater
  have hnone : heads.filter isEditText = [] := List.filter_eq_nil_iff.mpr hheads
  refine ⟨first ++ heads, after, ?_, ?_, hafter⟩
  · rw [hsplit, List.append_assoc]
  · rw [List.filter_append, hfirst, hnone, List.append_nil]

theorem mem_flatMap_hunkLines {found : List (Hunk Text)} {t : Text}
    (h : t ∈ found.flatMap hunkLines) :
    (∃ hunk ∈ found, t = hunkHead hunk) ∨ ∃ e ∈ found.flatMap Hunk.edits, t = editText e := by
  obtain ⟨hunk, hhunk, ht⟩ := List.mem_flatMap.mp h
  rcases List.mem_cons.mp ht with rfl | ht
  · exact .inl ⟨hunk, hhunk, rfl⟩
  · obtain ⟨e, he, rfl⟩ := List.mem_map.mp ht
    exact .inr ⟨e, List.mem_flatMap.mpr ⟨hunk, hhunk, he⟩, rfl⟩

-- Hunks do not end with a head.
theorem isEditText_of_getLast? {found : List (Hunk Text)}
    (hedits : ∀ hunk ∈ found, hunk.edits ≠ []) {t : Text}
    (h : (found.flatMap hunkLines).getLast? = some t) : isEditText t = true := by
  rcases List.eq_nil_or_concat' found with rfl | ⟨init, hunk, rfl⟩
  · simp at h
  · obtain ⟨front, e, he⟩ :=
      (List.eq_nil_or_concat' hunk.edits).resolve_left (hedits hunk (by simp))
    have hlast : (init ++ [hunk]).flatMap hunkLines =
        init.flatMap hunkLines ++ hunkHead hunk :: front.map editText ++ [editText e] := by
      simp [hunkLines, he]
    rw [hlast, List.getLast?_concat] at h
    rw [← Option.some.inj h]
    exact isEditText_editText e

theorem dropLast_filter {p : α → Bool} {list : List α}
    (h : ∀ a, list.getLast? = some a → p a = true) :
    (list.filter p).dropLast = list.dropLast.filter p := by
  rcases List.eq_nil_or_concat' list with rfl | ⟨init, a, rfl⟩
  · rfl
  · have ha := h a List.getLast?_concat
    rw [List.filter_append, List.filter_cons_of_pos ha, List.filter_nil, List.dropLast_concat,
      List.dropLast_concat]

theorem dropLast_sublist_dropLast {list list' : List α} (h : list.Sublist list') :
    list.dropLast.Sublist list'.dropLast := by
  have htail := h.reverse.tail
  rwa [List.tail_reverse, List.tail_reverse, List.reverse_sublist] at htail

end ReadmeTables.Diff
