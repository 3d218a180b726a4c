import Mathlib.Data.List.Forall2
import ReadmeTables.Diff.Unified
import ReadmeTables.Proofs.Diff.Script
/-!
Texts that do not differ.

A list is compared with itself by the runs on its diagonal: no other run is longer, and the
first of the longest ones is on it, whichever lines are too common to begin a run. Main
statements: a list that did not change is kept line by line, a script has hunks if something
changes, and the difference of two texts is empty exactly if they are the same.
-/

namespace ReadmeTables.Diff

section Diagonal

variable {α : Type} [DecidableEq α]

-- How many usable lines a list, read backwards, begins with.
def usableBack (lines : List (Candidate α)) : Nat :=
  (lines.takeWhile Candidate.usable).length

-- Equal lines are usable alike.
def AreAlike (lines : List (Candidate α)) : Prop :=
  ∀ c ∈ lines, ∀ d ∈ lines, c.line = d.line → c.usable = d.usable

theorem candidates_areAlike (lines : List α) : AreAlike (candidates lines) := by
  intro c hc d hd hline
  obtain ⟨a, -, rfl⟩ := List.mem_map.mp hc
  obtain ⟨b, -, rfl⟩ := List.mem_map.mp hd
  obtain rfl : a = b := hline
  rfl

omit [DecidableEq α] in
theorem usableBack_cons (c : Candidate α) (lines : List (Candidate α)) :
    usableBack (c :: lines) = if c.usable then usableBack lines + 1 else 0 := by
  rw [usableBack, List.takeWhile_cons]
  split <;> rfl

theorem runBack_self (lines : List (Candidate α)) :
    runBack (lines.map Candidate.line) lines = usableBack lines := by
  induction lines with
  | nil => rfl
  | cons c lines ih => simp [runBack, usableBack_cons, ih]

theorem runBack_le_new (old : List α) (new : List (Candidate α)) :
    runBack old new ≤ usableBack new := by
  induction old generalizing new with
  | nil => simp [runBack_nil_left]
  | cons line old ih =>
    cases new with
    | nil => simp [runBack]
    | cons c new =>
      rw [runBack, usableBack_cons]
      have := ih new
      by_cases hc : c.usable = true
      · simp only [hc, Bool.true_and, decide_eq_true_eq, if_true]
        split <;> omega
      · simp [hc]

theorem runBack_le_old {old new : List (Candidate α)}
    (h : ∀ c ∈ new, ∀ d ∈ old, c.line = d.line → c.usable = d.usable) :
    runBack (old.map Candidate.line) new ≤ usableBack old := by
  induction old generalizing new with
  | nil => simp [runBack_nil_left]
  | cons d old ih =>
    cases new with
    | nil => simp [runBack]
    | cons c new =>
      rw [List.map_cons, runBack, usableBack_cons]
      split
      · rename_i hrun
        rw [Bool.and_eq_true, decide_eq_true_eq] at hrun
        have hd : d.usable = true :=
          (h c List.mem_cons_self d List.mem_cons_self hrun.2).symm.trans hrun.1
        have hrest := ih fun c' hc' d' hd' =>
          h c' (List.mem_cons_of_mem _ hc') d' (List.mem_cons_of_mem _ hd')
        rw [if_pos hd]
        omega
      · exact Nat.zero_le _

-- The best run between a list and itself, when `passed` of it, read backwards, was looked at: it
-- has the same place in both, and no usable lines that end in `passed` are more.
structure Run.IsDiagonal (run : Run) (passed : List (Candidate α)) : Prop where
  same : run.old = run.new
  longest : ∀ lines, lines <:+ passed → usableBack lines ≤ run.length

-- Before the diagonal a run is no longer than one that was found in an earlier row, and after
-- it no longer than the one on it.
theorem bestInRow_isDiagonal {passed rest : List (Candidate α)} {c : Candidate α} {best : Run}
    (halike : AreAlike (passed.reverse ++ c :: rest)) (h : best.IsDiagonal passed) :
    (bestInRow passed.length 0 best
      (runsBack ((c :: passed).map Candidate.line) [] (passed.reverse ++ c :: rest))).IsDiagonal
        (c :: passed) := by
  have hbefore : ∀ n ∈ runsBack ((c :: passed).map Candidate.line) [] passed.reverse,
      n ≤ best.length := by
    intro n hn
    obtain ⟨front, hfront, rfl⟩ := exists_of_mem_runsBack hn
    rw [List.append_nil]
    have hsuffix : front.reverse <:+ passed := by
      rw [← List.reverse_reverse passed]
      exact List.reverse_suffix.mpr hfront
    exact Nat.le_trans (runBack_le_new _ _) (h.longest _ hsuffix)
  have hafter : ∀ n ∈ runsBack ((c :: passed).map Candidate.line) (c :: passed) rest,
      n ≤ usableBack (c :: passed) := by
    intro n hn
    obtain ⟨front, hfront, rfl⟩ := exists_of_mem_runsBack hn
    -- the lines up to the end of such a run are lines of the whole list
    have hlines : ∀ d ∈ front.reverse ++ (c :: passed), d ∈ passed.reverse ++ c :: rest := by
      intro d hd
      simp only [List.mem_append, List.mem_reverse, List.mem_cons] at hd ⊢
      rcases hd with hd | rfl | hd
      · exact .inr (.inr (hfront.subset hd))
      · exact .inr (.inl rfl)
      · exact .inl hd
    exact runBack_le_old fun d hd e he =>
      halike d (hlines d hd) e (hlines e (List.mem_append_right _ he))
  rw [runsBack_append, bestInRow_append, bestInRow_of_le hbefore, runsBack, length_runsBack,
    List.length_reverse, List.reverse_reverse, List.append_nil, runBack_self, Nat.zero_add, bestInRow]
  split
  · rename_i hless
    rw [bestInRow_of_le hafter]
    refine ⟨rfl, fun lines hlines => ?_⟩
    rcases List.suffix_cons_iff.mp hlines with rfl | hlines
    · exact Nat.le_refl _
    · exact Nat.le_trans (h.longest lines hlines) (Nat.le_of_lt hless)
  · rename_i hless
    rw [Nat.not_lt] at hless
    rw [bestInRow_of_le fun n hn => Nat.le_trans (hafter n hn) hless]
    refine ⟨h.same, fun lines hlines => ?_⟩
    rcases List.suffix_cons_iff.mp hlines with rfl | hlines
    · exact hless
    · exact h.longest lines hlines

theorem longestFrom_isDiagonal (passed rest : List (Candidate α)) {best : Run}
    (halike : AreAlike (passed.reverse ++ rest)) (h : best.IsDiagonal passed) :
    (longestFrom (passed.reverse ++ rest) passed.length
      (runsBack (passed.map Candidate.line) [] (passed.reverse ++ rest)) best
      (rest.map Candidate.line)).IsDiagonal (rest.reverse ++ passed) := by
  induction rest generalizing passed best with
  | nil => exact h
  | cons c rest ih =>
    have hbest := bestInRow_isDiagonal halike h
    have hstep := longestFrom_runsBack (passed.reverse ++ c :: rest) best
      (passed.map Candidate.line) (rest.map Candidate.line) c.line
    rw [← List.map_cons, ← List.map_cons, List.length_map, List.length_map] at hstep
    have hmove : passed.reverse ++ c :: rest = (c :: passed).reverse ++ rest := by simp
    rw [hmove] at halike hbest hstep ⊢
    rw [hstep]
    have hlater := ih (c :: passed) halike hbest
    simpa using hlater

-- A list and itself have all of it in common.
theorem longestRun_self (lines : List α) :
    longestRun lines (candidates lines) = ⟨0, 0, lines.length⟩ := by
  have hnone : (⟨0, 0, 0⟩ : Run).IsDiagonal ([] : List (Candidate α)) :=
    ⟨rfl, fun lines hlines => by simp [List.suffix_nil.mp hlines, usableBack]⟩
  have hbest := longestFrom_isDiagonal [] (candidates lines) (candidates_areAlike lines) hnone
  have hshared := longestFrom_isShared (candidates lines) [] lines (isShared_empty _ _)
  rw [List.map_nil, runsBack_nil, map_line_candidates] at hbest
  rw [runsBack_nil] at hshared
  simp only [List.reverse_nil, List.nil_append, List.length_nil] at hbest hshared
  have hlength := hshared.le_length
  rw [longestRun]
  simp only [map_line_candidates, ← hbest.same, commonStart_self, List.length_reverse,
    List.length_take, List.length_drop, Run.mk.injEq]
  omega

-- A list that did not change is kept line by line.
theorem script_self (lines : List α) : script lines lines = lines.map Edit.keep := by
  have hlength : (candidates lines).length = lines.length := List.length_map _
  rw [script, scriptOf, longestRun_self]
  split
  · rename_i hrun
    rw [List.drop_zero, List.take_length] at hrun
    subst hrun
    rfl
  · rename_i line more hrun
    rw [List.drop_zero, List.take_length] at hrun
    simp only [Nat.zero_add, List.take_zero, List.drop_length]
    rw [← hlength, List.drop_length, scriptOf_nil_nil, List.nil_append, List.append_nil, hrun]

end Diagonal

section Hunks

variable {α : Type}

theorem attach_ne_nil (old new : Nat) (e : Edit α) (adjacent : Bool) (later : List (Hunk α)) :
    attach old new e adjacent later ≠ [] := by
  cases later with
  | nil => simp [attach]
  | cons hunk rest => cases adjacent <;> simp [attach]

theorem hunksFrom_eq_nil_iff {old new : Nat} {marked : List (Edit α × Bool)} :
    hunksFrom old new marked = [] ↔ ∀ pair ∈ marked, pair.2 = false := by
  induction marked generalizing old new with
  | nil => simp [hunksFrom]
  | cons pair rest ih =>
    obtain ⟨e, isShown⟩ := pair
    rw [List.forall_mem_cons]
    cases isShown with
    | true => simp [hunksFrom, attach_ne_nil]
    | false => simp [hunksFrom, ih]

theorem length_reached (left : Nat) (edits : List (Edit α)) :
    (reached left edits).length = edits.length := by
  induction edits generalizing left with
  | nil => rfl
  | cons e rest ih =>
    rw [reached]
    split <;> simp [ih]

-- Every change of a script is marked.
def MarksChanges (edits : List (Edit α)) (marks : List Bool) : Prop :=
  List.Forall₂ (fun e mark => e.isChange = true → mark = true) edits marks

theorem MarksChanges.or {edits : List (Edit α)} {marks others : List Bool}
    (h : MarksChanges edits marks) (hlength : others.length = marks.length) :
    MarksChanges edits (List.zipWith (· || ·) marks others) := by
  induction h generalizing others with
  | nil => exact .nil
  | cons hfirst hrest ih =>
    cases others with
    | nil => simp at hlength
    | cons other others =>
      exact .cons (fun hchange => by simp [hfirst hchange]) (ih (by simpa using hlength))

theorem MarksChanges.no_change {edits : List (Edit α)} {marks : List Bool}
    (h : MarksChanges edits marks) (hmarks : ∀ pair ∈ edits.zip marks, pair.2 = false) :
    ∀ e ∈ edits, e.isChange = false := by
  induction h with
  | nil => simp
  | cons hfirst hrest ih =>
    rw [List.zip_cons_cons, List.forall_mem_cons] at hmarks
    rw [List.forall_mem_cons]
    refine ⟨?_, ih hmarks.2⟩
    rw [Bool.eq_false_iff]
    exact fun hchange => Bool.eq_false_iff.mp hmarks.1 (hfirst hchange)

theorem reached_marksChanges (left : Nat) (edits : List (Edit α)) :
    MarksChanges edits (reached left edits) := by
  induction edits generalizing left with
  | nil => exact .nil
  | cons e rest ih =>
    rw [reached]
    split
    · exact .cons (fun _ => rfl) (ih _)
    · rename_i h
      exact .cons (fun hchange => (h hchange).elim) (ih _)

theorem reached_of_no_change {edits : List (Edit α)} (h : ∀ e ∈ edits, e.isChange = false) :
    ∀ b ∈ reached 0 edits, b = false := by
  induction edits with
  | nil => simp [reached]
  | cons e rest ih =>
    rw [List.forall_mem_cons] at h
    rw [reached, if_neg (by simp [h.1]), List.forall_mem_cons]
    exact ⟨by simp, ih h.2⟩

theorem shown_marksChanges (edits : List (Edit α)) : MarksChanges edits (shown edits) :=
  (reached_marksChanges 0 edits).or (by simp [length_reached])

theorem shown_of_no_change {edits : List (Edit α)} (h : ∀ e ∈ edits, e.isChange = false) :
    ∀ b ∈ shown edits, b = false := by
  intro b hb
  obtain ⟨i, hi, rfl⟩ := List.getElem_of_mem hb
  have hback : ∀ e ∈ edits.reverse, e.isChange = false := fun e he => h e (List.mem_reverse.mp he)
  simp only [shown, List.getElem_zipWith, Bool.or_eq_false_iff]
  refine ⟨reached_of_no_change h _ (List.getElem_mem _), ?_⟩
  exact reached_of_no_change hback _ (List.mem_reverse.mp (List.getElem_mem _))

-- A script has no hunks exactly if nothing in it is a change.
theorem hunks_eq_nil_iff {edits : List (Edit α)} :
    hunks edits = [] ↔ ∀ e ∈ edits, e.isChange = false := by
  rw [hunks, hunksFrom_eq_nil_iff]
  constructor
  · exact (shown_marksChanges edits).no_change
  · intro h pair hpair
    exact shown_of_no_change h pair.2 (List.of_mem_zip hpair).2

end Hunks

theorem eq_of_no_change {α : Type} {edits : List (Edit α)} (h : ∀ e ∈ edits, e.isChange = false) :
    edits.filterMap Edit.old? = edits.filterMap Edit.new? := by
  refine List.filterMap_congr fun e he => ?_
  cases e with
  | keep line => rfl
  | drop line => simpa [Edit.isChange] using h _ he
  | add line => simpa [Edit.isChange] using h _ he

theorem unifiedLines_of_ne_nil {old new : Text} (h : hunks (script old.lines new.lines) ≠ [])
    (path : Text) : unifiedLines old new path =
      fileHead path ++ (hunks (script old.lines new.lines)).flatMap hunkLines := by
  obtain ⟨hunk, rest, hfound⟩ := List.exists_cons_of_ne_nil h
  rw [unifiedLines, hfound]

theorem unified_eq_nil_iff_hunks {old new path : Text} :
    unified old new path = [] ↔ hunks (script old.lines new.lines) = [] := by
  constructor
  · intro h
    by_contra hne
    rw [unified, unifiedLines_of_ne_nil hne] at h
    simp [fileHead, Text.ofString, Text.ofChars] at h
  · intro h
    rw [unified, unifiedLines, h]
    rfl

-- The difference of two texts is empty exactly if they are the same.
theorem unified_eq_nil_iff {old new path : Text} : unified old new path = [] ↔ old = new := by
  rw [unified_eq_nil_iff_hunks, hunks_eq_nil_iff]
  constructor
  · intro h
    have hlines := eq_of_no_change h
    rw [old_script, new_script] at hlines
    rw [← Text.flatten_lines old, hlines, Text.flatten_lines]
  · rintro rfl e he
    rw [script_self] at he
    obtain ⟨line, -, rfl⟩ := List.mem_map.mp he
    rfl

end ReadmeTables.Diff
