import Mathlib.Algebra.Ring.Int.Defs
import ReadmeTables.Proofs.Diff.Hunks
import ReadmeTables.Proofs.Text.Cuts
/-!
Counting the lines of a difference that is printed.

Each line of a hunk counts by its sign, and each head must count the lines that follow it. Main
statements: the strings of a difference count right, and they do not if one of them runs into the
next one.
-/

namespace ReadmeTables.Diff

-- How many lines of the old and of the new text come before the first head among some parts; none
-- if a head counts its lines otherwise.
def tally : List Text → Option (Nat × Nat)
  | [] => some (0, 0)
  | part :: rest =>
    match tally rest with
    | none => none
    | some (old, new) =>
      match readHead part with
      | some (oldRange, newRange) =>
        if oldRange.count = old ∧ newRange.count = new then some (0, 0) else none
      | none =>
        match readEdit part with
        | some e => some (oldCount e + old, newCount e + new)
        | none => some (old, new)

-- What a part adds to the count of its hunk, where a head counts against its lines.
def weight (part : Text) : Int :=
  match readHead part with
  | some (old, new) => old.count + new.count
  | none =>
    match readEdit part with
    | some e => -(oldCount e + newCount e : Nat)
    | none => 0

theorem sum_weight_of_tally {parts : List Text} {old new : Nat}
    (h : tally parts = some (old, new)) : (parts.map weight).sum = -(old + new : Nat) := by
  induction parts generalizing old new with
  | nil =>
    obtain ⟨rfl, rfl⟩ := Prod.mk.inj (Option.some.inj h)
    rfl
  | cons part rest ih =>
    rw [tally] at h
    rw [List.map_cons, List.sum_cons, weight]
    cases hrest : tally rest with
    | none => simp [hrest] at h
    | some counts =>
      obtain ⟨m, n⟩ := counts
      have hsum := ih hrest
      simp only [hrest] at h
      cases hhead : readHead part with
      | some ranges =>
        simp only [hhead] at h ⊢
        split at h
        · rename_i hcounts
          obtain ⟨rfl, rfl⟩ := Prod.mk.inj (Option.some.inj h)
          omega
        · simp at h
      | none =>
        simp only [hhead] at h ⊢
        cases hedit : readEdit part with
        | none =>
          simp only [hedit] at h ⊢
          obtain ⟨rfl, rfl⟩ := Prod.mk.inj (Option.some.inj h)
          omega
        | some e =>
          simp only [hedit] at h ⊢
          obtain ⟨rfl, rfl⟩ := Prod.mk.inj (Option.some.inj h)
          omega

-- A part that begins with a sign is no head.
theorem readHead_eq_none {c : CodePoint} (hc : c ≠ .scalar '@') (t : Text) :
    readHead (c :: t) = none := by
  have hmark : Text.ofString "@@" = .scalar '@' :: [.scalar '@'] := rfl
  have hopening (opening : Text) (parts : List Text)
      (hcut : Text.cutAt ' ' (c :: t) = opening :: parts) : opening ≠ "@@" := by
    rintro rfl
    rw [Text.cutAt, hmark] at hcut
    split at hcut
    · simp at hcut
    · split at hcut
      · obtain ⟨rfl, -⟩ := List.cons.inj (List.cons.inj hcut).1
        exact hc rfl
      · obtain ⟨rfl, -⟩ := List.cons.inj (List.cons.inj hcut).1
        exact hc rfl
  rw [readHead]
  split
  · rename_i opening old new closing hcut
    rw [if_neg fun h => hopening _ _ hcut h.1]
  · rfl

theorem readHead_editText (e : Edit Text) (t : Text) : readHead (editText e ++ t) = none := by
  cases e <;> exact readHead_eq_none (by decide) _

-- An edit counts by its sign, whatever runs into it.
theorem weight_editText (e : Edit Text) (t : Text) :
    weight (editText e ++ t) = -(oldCount e + newCount e : Nat) := by
  rw [weight, readHead_editText]
  cases e <;> rfl

-- The lines of an edit without its line feed.
theorem exists_without_editText (e : Edit Text) :
    ∃ e', (editText e).without (.scalar '\n') = editText e' ∧
      oldCount e' = oldCount e ∧ newCount e' = newCount e := by
  cases e with
  | keep line => exact ⟨.keep (line.without (.scalar '\n')), rfl, rfl, rfl⟩
  | drop line => exact ⟨.drop (line.without (.scalar '\n')), rfl, rfl, rfl⟩
  | add line => exact ⟨.add (line.without (.scalar '\n')), rfl, rfl, rfl⟩

theorem not_mem_headText (hunk : Hunk Text) : .scalar '\n' ∉ headText hunk := by
  have hrange (before count : Nat) : .scalar '\n' ∉ rangeText before count :=
    not_mem_rangeText (by decide) (by decide) before count
  simp [headText, Text.ofString, Text.ofChars, hrange]

theorem without_hunkHead (hunk : Hunk Text) :
    (hunkHead hunk).without (.scalar '\n') = headText hunk := by
  rw [hunkHead_eq]
  exact Text.without_concat (not_mem_headText hunk)

theorem tally_edits {parts : List Text} (h : tally parts = some (0, 0))
    (edits : List (Edit Text)) :
    tally ((edits.map editText).map (Text.without (.scalar '\n')) ++ parts) =
      some ((oldLines edits).length, (newLines edits).length) := by
  induction edits with
  | nil => exact h
  | cons e edits ih =>
    obtain ⟨e', htext, hold, hnew⟩ := exists_without_editText e
    have hhead := readHead_editText e' []
    rw [List.append_nil] at hhead
    rw [List.map_cons, List.map_cons, List.cons_append, tally, ih, htext]
    simp only [hhead, readEdit_editText, hold, hnew, length_oldLines_cons, length_newLines_cons]

-- The strings of a difference count right.
theorem tally_hunkLines (found : List (Hunk Text)) :
    tally ((found.flatMap hunkLines).map (Text.without (.scalar '\n'))) = some (0, 0) := by
  induction found with
  | nil => rfl
  | cons hunk rest ih =>
    rw [List.flatMap_cons, List.map_append, hunkLines, List.map_cons, List.cons_append, tally,
      tally_edits ih, without_hunkHead]
    simp [readHead_headText]

theorem tally_concat_nil (parts : List Text) : tally (parts ++ [[]]) = tally parts := by
  induction parts with
  | nil => rfl
  | cons part rest ih => rw [List.cons_append, tally, ih, tally]

theorem weight_ne_zero {found : List (Hunk Text)} (hedits : ∀ hunk ∈ found, hunk.edits ≠ [])
    {t : Text} (ht : t ∈ found.flatMap hunkLines) : weight (t.without (.scalar '\n')) ≠ 0 := by
  have hcounts (e : Edit Text) : oldCount e + newCount e ≠ 0 := by
    cases e <;> exact Nat.succ_ne_zero _
  rcases mem_flatMap_hunkLines ht with ⟨hunk, hhunk, rfl⟩ | ⟨e, -, rfl⟩
  · obtain ⟨e, edits, he⟩ := List.exists_cons_of_ne_nil (hedits hunk hhunk)
    have hold := length_oldLines_cons e edits
    have hnew := length_newLines_cons e edits
    have hcount := hcounts e
    rw [without_hunkHead, weight, readHead_headText, he]
    simp only
    omega
  · obtain ⟨e', htext, -, -⟩ := exists_without_editText e
    have hweight := weight_editText e' []
    have hcount := hcounts e'
    rw [List.append_nil] at hweight
    rw [htext, hweight]
    omega

-- The count is wrong if one string, which is no head, runs into the next one.
theorem tally_ne_of_run {before after : List Text} {e : Edit Text} {next : Text}
    (hbefore : ∀ t ∈ before, t.IsLine ∧ t.EndsInFeed) (hrun : .scalar '\n' ∉ editText e)
    (hlines : ∀ t ∈ next :: after, t.IsLine) (hafter : Text.FeedsBetween (next :: after))
    (hnext : weight (next.without (.scalar '\n')) ≠ 0)
    (hstrings : tally ((before ++ editText e :: next :: after).map
      (Text.without (.scalar '\n'))) = some (0, 0)) :
    tally (Text.printedLines (before ++ editText e :: next :: after).flatten) ≠ some (0, 0) := by
  have hprinted : Text.printedLines (editText e :: next :: after).flatten =
      (editText e ++ next.without (.scalar '\n')) :: after.map (Text.without (.scalar '\n')) :=
    Text.printedLines_run hrun ((Text.printedLines_flatten_iff hlines).mpr hafter)
  intro hright
  rw [Text.printedLines_flatten_append hbefore, hprinted] at hright
  have hsum := sum_weight_of_tally hright
  have hsum' := sum_weight_of_tally hstrings
  have hweight := weight_editText e []
  rw [List.append_nil] at hweight
  simp only [List.map_append, List.map_cons, List.sum_append, List.sum_cons, weight_editText,
    Text.without_of_not_mem hrun, hweight] at hsum hsum'
  omega

example : tally ["@@ -1,2 +1,2 @@", " a", "-b", "+c"] = some (0, 0) ∧
    tally ["@@ -1,2 +1,2 @@", " a", "-b+c"] = none := by
  decide +kernel

end ReadmeTables.Diff
