import ReadmeTables.Proofs.Diff.Reading
import ReadmeTables.Proofs.Diff.Unchanged
/-!
Applying a difference.

Hunks lead from one list of lines to another if each stands at its places in both, its lines are
the lines there, and the lines between hunks are the same in both. Main statement: the hunks that
are read in the difference of two texts lead from the one to the other.
-/

namespace ReadmeTables.Diff

section

variable {α : Type}

-- The hunks lead from the old lines to the new ones, before which `i` and `j` lines have passed.
inductive Turns : (i j : Nat) → List (Hunk α) → (old new : List α) → Prop where
  | same (i j : Nat) (lines : List α) : Turns i j [] lines lines
  | hunk {i j : Nat} (kept : List α) {hunk : Hunk α} {hunks : List (Hunk α)} {old new : List α}
    (hold : hunk.old = i + kept.length) (hnew : hunk.new = j + kept.length)
    (hedits : hunk.edits ≠ [])
    (later : Turns (hunk.old + (oldLines hunk.edits).length)
      (hunk.new + (newLines hunk.edits).length) hunks old new) :
    Turns i j (hunk :: hunks) (kept ++ oldLines hunk.edits ++ old)
      (kept ++ newLines hunk.edits ++ new)

-- The lines that hunks make of others, before which `i` lines have passed; none if a hunk does
-- not fit.
def applyHunks [DecidableEq α] (i : Nat) : List (Hunk α) → List α → Option (List α)
  | [], lines => some lines
  | hunk :: rest, lines =>
    let former := oldLines hunk.edits
    let kept := lines.take (hunk.old - i)
    let here := lines.drop (hunk.old - i)
    if i + kept.length = hunk.old ∧ former <+: here then do
      let after ← applyHunks (hunk.old + former.length) rest (here.drop former.length)
      return kept ++ newLines hunk.edits ++ after
    else none

theorem Turns.applyHunks [DecidableEq α] {i j : Nat} {hunks : List (Hunk α)} {old new : List α}
    (h : Turns i j hunks old new) : applyHunks i hunks old = some new := by
  induction h with
  | same i j lines => rfl
  | @hunk i j kept hunk hunks old new hold hnew hedits later ih =>
    have hplace : hunk.old - i = kept.length := by omega
    have hkept : (kept ++ oldLines hunk.edits ++ old).take kept.length = kept := by
      rw [List.append_assoc, List.take_left]
    have hhere : (kept ++ oldLines hunk.edits ++ old).drop kept.length =
        oldLines hunk.edits ++ old := by
      rw [List.append_assoc, List.drop_left]
    have hfits : i + kept.length = hunk.old ∧
        oldLines hunk.edits <+: oldLines hunk.edits ++ old :=
      ⟨hold.symm, List.prefix_append _ _⟩
    simp only [Diff.applyHunks, hplace, hkept, hhere, List.drop_left, ih]
    rw [if_pos hfits]
    rfl

theorem oldLines_cons (e : Edit α) (edits : List (Edit α)) :
    oldLines (e :: edits) = e.old?.toList ++ oldLines edits := by
  cases e <;> rfl

theorem newLines_cons (e : Edit α) (edits : List (Edit α)) :
    newLines (e :: edits) = e.new?.toList ++ newLines edits := by
  cases e <;> rfl

theorem length_oldLines_cons (e : Edit α) (edits : List (Edit α)) :
    (oldLines (e :: edits)).length = oldCount e + (oldLines edits).length := by
  rw [oldLines_cons, List.length_append, oldCount]

theorem length_newLines_cons (e : Edit α) (edits : List (Edit α)) :
    (newLines (e :: edits)).length = newCount e + (newLines edits).length := by
  rw [newLines_cons, List.length_append, newCount]

theorem oldLines_append (front back : List (Edit α)) :
    oldLines (front ++ back) = oldLines front ++ oldLines back :=
  List.filterMap_append

theorem newLines_append (front back : List (Edit α)) :
    newLines (front ++ back) = newLines front ++ newLines back :=
  List.filterMap_append

theorem oldLines_script [DecidableEq α] (old new : List α) : oldLines (script old new) = old :=
  old_script old new

theorem newLines_script [DecidableEq α] (old new : List α) : newLines (script old new) = new :=
  new_script old new

-- A line that both lists begin with may stand before all hunks.
theorem Turns.keep {i j : Nat} {hunks : List (Hunk α)} {old new : List α} (line : α)
    (h : Turns (i + 1) (j + 1) hunks old new) : Turns i j hunks (line :: old) (line :: new) := by
  cases h with
  | same => exact .same i j (line :: old)
  | hunk kept hold hnew hedits later =>
    refine .hunk (line :: kept) ?_ ?_ hedits later
    · rw [hold, List.length_cons]
      omega
    · rw [hnew, List.length_cons]
      omega

-- An edit at the place that was reached begins a hunk.
theorem Turns.edit {i j : Nat} {hunks : List (Hunk α)} {old new : List α} (e : Edit α)
    (edits : List (Edit α))
    (h : Turns (i + oldCount e + (oldLines edits).length) (j + newCount e + (newLines edits).length)
      hunks old new) :
    Turns i j (⟨i, j, e :: edits⟩ :: hunks) (e.old?.toList ++ (oldLines edits ++ old))
      (e.new?.toList ++ (newLines edits ++ new)) := by
  have hold : i + (oldLines (e :: edits)).length = i + oldCount e + (oldLines edits).length := by
    rw [length_oldLines_cons, Nat.add_assoc]
  have hnew : j + (newLines (e :: edits)).length = j + newCount e + (newLines edits).length := by
    rw [length_newLines_cons, Nat.add_assoc]
  have hturns : Turns i j (⟨i, j, e :: edits⟩ :: hunks) ([] ++ oldLines (e :: edits) ++ old)
      ([] ++ newLines (e :: edits) ++ new) :=
    .hunk [] rfl rfl (List.cons_ne_nil e edits) (by rwa [hold, hnew])
  simpa only [List.nil_append, oldLines_cons, newLines_cons, List.append_assoc] using hturns

-- The hunk that follows at once takes the edit in.
theorem Turns.attach {i j : Nat} {edits : List (Edit α)} {hunks : List (Hunk α)}
    {old new : List α} (e : Edit α)
    (h : Turns (i + oldCount e) (j + newCount e) (⟨i + oldCount e, j + newCount e, edits⟩ :: hunks)
      old new) :
    Turns i j (⟨i, j, e :: edits⟩ :: hunks) (e.old?.toList ++ old) (e.new?.toList ++ new) := by
  cases h with
  | @hunk _ _ kept _ _ old new hold hnew hedits later =>
    -- no line stands between the edit and the hunk
    have hkept : kept = [] := by
      rw [← List.length_eq_zero_iff]
      simp only at hold
      omega
    subst hkept
    exact Turns.edit e edits later

-- What is shown first begins the first hunk.
theorem exists_hunksFrom_shown (i j : Nat) (e : Edit α) (rest : List (Edit α × Bool)) :
    ∃ edits hunks, hunksFrom i j ((e, true) :: rest) = ⟨i, j, e :: edits⟩ :: hunks := by
  rw [hunksFrom]
  simp only [if_true]
  cases hunksFrom (i + oldCount e) (j + newCount e) rest with
  | nil => exact ⟨[], [], rfl⟩
  | cons hunk later =>
    rw [Diff.attach]
    split
    · exact ⟨hunk.edits, later, rfl⟩
    · exact ⟨[], hunk :: later, rfl⟩

theorem attach_apart (i j : Nat) (e : Edit α) (later : List (Hunk α)) :
    attach i j e false later = ⟨i, j, [e]⟩ :: later := by
  cases later <;> rfl

-- The edits that are not shown are kept lines.
theorem hunksFrom_turns (i j : Nat) {marked : List (Edit α × Bool)}
    (h : ∀ pair ∈ marked, pair.1.isChange = true → pair.2 = true) :
    Turns i j (hunksFrom i j marked) (oldLines (marked.map Prod.fst))
      (newLines (marked.map Prod.fst)) := by
  induction marked generalizing i j with
  | nil => exact .same i j []
  | cons pair rest ih =>
    obtain ⟨e, isShown⟩ := pair
    rw [List.forall_mem_cons] at h
    have hrest := ih (i + oldCount e) (j + newCount e) h.2
    rw [List.map_cons, oldLines_cons, newLines_cons]
    cases isShown with
    | false =>
      cases e with
      | keep line => exact hrest.keep line
      | drop line => simp [Edit.isChange] at h
      | add line => simp [Edit.isChange] at h
    | true =>
      cases rest with
      | nil => exact Turns.edit e [] hrest
      | cons next rest =>
        obtain ⟨e', isShown'⟩ := next
        cases isShown' with
        | true =>
          obtain ⟨edits, hunks, hfound⟩ :=
            exists_hunksFrom_shown (i + oldCount e) (j + newCount e) e' rest
          rw [hfound] at hrest
          rw [hunksFrom, hfound]
          exact hrest.attach e
        | false =>
          rw [hunksFrom]
          simp only [if_true, List.head?_cons, Option.map_some, Option.getD_some, attach_apart]
          exact Turns.edit e [] hrest

theorem hunks_turns (edits : List (Edit α)) :
    Turns 0 0 (hunks edits) (oldLines edits) (newLines edits) := by
  obtain ⟨hlength, hmarks⟩ := List.forall₂_iff_zip.mp (shown_marksChanges edits)
  have hturns := hunksFrom_turns 0 0 fun pair hpair => hmarks (a := pair.1) (b := pair.2) hpair
  rwa [List.map_fst_zip (Nat.le_of_eq hlength)] at hturns

end

-- The hunks that are read in a difference lead from the old lines to the new ones.
theorem read_hunks_turn_old_into_new (old new path : Text) :
    unifiedLines old new path = [] ∧ old = new ∨
    ∃ body hunks, unifiedLines old new path = fileHead path ++ body ∧ hunks ≠ [] ∧
      readHunks body = some hunks ∧ Turns 0 0 hunks old.lines new.lines ∧
      (applyHunks 0 hunks old.lines).map List.flatten = some new := by
  have hturns := hunks_turns (script old.lines new.lines)
  rw [oldLines_script, newLines_script] at hturns
  cases hfound : hunks (script old.lines new.lines) with
  | nil =>
    left
    have hlines : unifiedLines old new path = [] := by rw [unifiedLines, hfound]
    have hempty : unified old new path = [] := unified_eq_nil_iff_hunks.mpr hfound
    exact ⟨hlines, unified_eq_nil_iff.mp hempty⟩
  | cons hunk rest =>
    right
    rw [hfound] at hturns
    refine ⟨(hunk :: rest).flatMap hunkLines, hunk :: rest, ?_, List.cons_ne_nil _ _,
      readHunks_hunkLines _, hturns, ?_⟩
    · rw [unifiedLines, hfound]
    · rw [hturns.applyHunks, Option.map_some, Text.flatten_lines]

example : readHunks ["@@ -0,0 +1 @@\n", "+a\n", "@@ -3,2 +4 @@\n", " b\n", "-c"] =
    some [⟨0, 0, [.add "a\n"]⟩, ⟨2, 3, [.keep "b\n", .drop "c"]⟩] := by
  decide +kernel

end ReadmeTables.Diff
