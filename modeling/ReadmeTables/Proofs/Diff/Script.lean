import ReadmeTables.Diff.Script
/-!
What an edit script says about the two lists of lines that it stands between.

How long a run is that ends at some place depends on what stands before that place in either
list. Main statements: the old lines of a script are the old list and its new lines are the
new one.
-/

namespace ReadmeTables.Diff

variable {α : Type} [DecidableEq α]

-- The length of the run at the end of two lists, both read backwards.
def runBack : (old : List α) → (new : List (Candidate α)) → Nat
  | line :: old, c :: new => if c.usable && c.line = line then runBack old new + 1 else 0
  | _, _ => 0

-- The lengths of the runs that end where the old list ends and at each line of the new one.
-- `old` and `before`, which comes before the new lines, are read backwards.
def runsBack (old : List α) : (before : List (Candidate α)) → List (Candidate α) → List Nat
  | _, [] => []
  | before, c :: new => runBack old (c :: before) :: runsBack old (c :: before) new

theorem runBack_nil_left (new : List (Candidate α)) : runBack [] new = 0 := by
  cases new <;> rfl

theorem runBack_nil_right (old : List α) : runBack old [] = 0 := by
  cases old <;> rfl

theorem runsBack_nil (before new : List (Candidate α)) :
    runsBack [] before new = new.map fun _ => 0 := by
  induction new generalizing before with
  | nil => rfl
  | cons c new ih => rw [runsBack, ih, List.map_cons, runBack_nil_left]

theorem runsBack_append (old : List α) (before front back : List (Candidate α)) :
    runsBack old before (front ++ back) =
      runsBack old before front ++ runsBack old (front.reverse ++ before) back := by
  induction front generalizing before with
  | nil => rfl
  | cons c front ih =>
    rw [List.cons_append, runsBack, ih, runsBack, List.reverse_cons, List.append_assoc]
    rfl

theorem length_runsBack (old : List α) (before new : List (Candidate α)) :
    (runsBack old before new).length = new.length := by
  induction new generalizing before with
  | nil => rfl
  | cons c new ih => rw [runsBack, List.length_cons, ih, List.length_cons]

theorem exists_of_mem_runsBack {old : List α} {before new : List (Candidate α)} {n : Nat}
    (h : n ∈ runsBack old before new) :
    ∃ front, front <+: new ∧ n = runBack old (front.reverse ++ before) := by
  induction new generalizing before with
  | nil => simp [runsBack] at h
  | cons c new ih =>
    rw [runsBack, List.mem_cons] at h
    rcases h with rfl | h
    · exact ⟨[c], List.prefix_cons_inj c |>.mpr (List.nil_prefix), rfl⟩
    · obtain ⟨front, hfront, rfl⟩ := ih h
      exact ⟨c :: front, List.prefix_cons_inj c |>.mpr hfront, by simp⟩

-- A row of run lengths is made from the row before it.
theorem nextRow_runsBack (line : α) (old : List α) (before new : List (Candidate α)) :
    nextRow line (runBack old before) (runsBack old before new) new =
      runsBack (line :: old) before new := by
  induction new generalizing before with
  | nil => rfl
  | cons c new ih => rw [runsBack, nextRow, ih, runsBack, runBack]

-- One step of the search. The rows hold the lengths of the runs that end in them.
theorem longestFrom_runsBack (new : List (Candidate α)) (best : Run) (passed rest : List α)
    (line : α) :
    longestFrom new passed.length (runsBack passed [] new) best (line :: rest) =
      longestFrom new (line :: passed).length (runsBack (line :: passed) [] new)
        (bestInRow passed.length 0 best (runsBack (line :: passed) [] new)) rest := by
  have hnext := nextRow_runsBack line passed [] new
  rw [runBack_nil_right] at hnext
  simp only [longestFrom, hnext]
  rfl

theorem bestInRow_append (i j : Nat) (best : Run) (row more : List Nat) :
    bestInRow i j best (row ++ more) =
      bestInRow i (j + row.length) (bestInRow i j best row) more := by
  induction row generalizing j best with
  | nil => rfl
  | cons n row ih =>
    rw [List.cons_append, bestInRow, ih, bestInRow, List.length_cons]
    congr 1
    omega

theorem bestInRow_of_le {i j : Nat} {best : Run} {row : List Nat}
    (h : ∀ n ∈ row, n ≤ best.length) : bestInRow i j best row = best := by
  induction row generalizing j with
  | nil => rfl
  | cons n row ih =>
    rw [List.forall_mem_cons] at h
    rw [bestInRow, if_neg (by omega), ih h.2]

-- The lines of a run stand at its places in both lists.
def Run.IsShared (run : Run) (old new : List α) : Prop :=
  ∃ shared before after before' after', old = before ++ (shared ++ after) ∧
    new = before' ++ (shared ++ after') ∧ before.length = run.old ∧ before'.length = run.new ∧
    shared.length = run.length

theorem commonStart_split (as bs : List α) :
    ∃ shared as' bs', as = shared ++ as' ∧ bs = shared ++ bs' ∧
      shared.length = commonStart as bs := by
  induction as generalizing bs with
  | nil => exact ⟨[], [], bs, rfl, rfl, rfl⟩
  | cons a as ih =>
    cases bs with
    | nil => exact ⟨[], a :: as, [], rfl, rfl, rfl⟩
    | cons b bs =>
      by_cases h : a = b
      · subst h
        obtain ⟨shared, as', bs', rfl, rfl, hlength⟩ := ih bs
        exact ⟨a :: shared, as', bs', rfl, rfl, by simp [commonStart, ← hlength]⟩
      · exact ⟨[], a :: as, b :: bs, rfl, rfl, by simp [commonStart, h]⟩

theorem commonStart_self (as : List α) : commonStart as as = as.length := by
  induction as with
  | nil => rfl
  | cons a as ih => simp [commonStart, ih]

theorem runBack_le_commonStart (old : List α) (new : List (Candidate α)) :
    runBack old new ≤ commonStart old (new.map Candidate.line) := by
  induction old generalizing new with
  | nil => simp [runBack]
  | cons line old ih =>
    cases new with
    | nil => simp [runBack]
    | cons c new =>
      rw [runBack]
      split
      · rename_i h
        rw [Bool.and_eq_true, decide_eq_true_eq] at h
        simpa [commonStart, h.2] using ih new
      · exact Nat.zero_le _

-- Lines that two lists, read backwards, begin with are a run at the end of both.
theorem isShared_of_le_commonStart {back back' : List α} {n : Nat} (h : n ≤ commonStart back back')
    (after after' : List α) :
    (⟨back.length - n, back'.length - n, n⟩ : Run).IsShared (back.reverse ++ after)
      (back'.reverse ++ after') := by
  obtain ⟨shared, rest, rest', rfl, rfl, hlength⟩ := commonStart_split back back'
  rw [← hlength] at h
  have hparts : shared.reverse = (shared.drop n).reverse ++ (shared.take n).reverse := by
    rw [← List.reverse_append, List.take_append_drop]
  refine ⟨(shared.take n).reverse, rest.reverse ++ (shared.drop n).reverse, after,
    rest'.reverse ++ (shared.drop n).reverse, after', ?_, ?_, ?_, ?_, ?_⟩
  · simp only [List.reverse_append, hparts, List.append_assoc]
  · simp only [List.reverse_append, hparts, List.append_assoc]
  · simp only [List.length_append, List.length_reverse, List.length_drop]
    omega
  · simp only [List.length_append, List.length_reverse, List.length_drop]
    omega
  · simp only [List.length_reverse, List.length_take]
    omega

theorem bestInRow_isShared {old after : List α} {best : Run} {i : Nat} (hi : old.length = i + 1)
    (before new : List (Candidate α))
    (hbest : best.IsShared (old.reverse ++ after) ((before.reverse ++ new).map Candidate.line)) :
    (bestInRow i before.length best (runsBack old before new)).IsShared (old.reverse ++ after)
      ((before.reverse ++ new).map Candidate.line) := by
  induction new generalizing before best with
  | nil => exact hbest
  | cons c new ih =>
    have hmove : before.reverse ++ c :: new = (c :: before).reverse ++ new := by simp
    rw [hmove] at hbest ⊢
    rw [runsBack, bestInRow]
    refine ih (c :: before) ?_
    split
    · have hrun := isShared_of_le_commonStart (runBack_le_commonStart old (c :: before)) after
        (new.map Candidate.line)
      rw [List.length_map, List.length_cons, hi] at hrun
      simpa only [List.map_append, List.map_reverse] using hrun
    · exact hbest

theorem longestFrom_isShared (new : List (Candidate α)) (passed rest : List α) {best : Run}
    (hbest : best.IsShared (passed.reverse ++ rest) (new.map Candidate.line)) :
    (longestFrom new passed.length (runsBack passed [] new) best rest).IsShared
      (passed.reverse ++ rest) (new.map Candidate.line) := by
  induction rest generalizing passed best with
  | nil => exact hbest
  | cons line rest ih =>
    have hmove : passed.reverse ++ line :: rest = (line :: passed).reverse ++ rest := by simp
    rw [hmove] at hbest ⊢
    rw [longestFrom_runsBack]
    exact ih (line :: passed) (bestInRow_isShared (by simp) [] new hbest)

-- Equal lines around a run make a longer one.
theorem Run.IsShared.extend {run : Run} {old new : List α} (h : run.IsShared old new) :
    (⟨run.old - commonStart (old.take run.old).reverse (new.take run.new).reverse,
      run.new - commonStart (old.take run.old).reverse (new.take run.new).reverse,
      commonStart (old.take run.old).reverse (new.take run.new).reverse + run.length +
        commonStart (old.drop (run.old + run.length)) (new.drop (run.new + run.length))⟩ :
      Run).IsShared old new := by
  obtain ⟨shared, before, after, before', after', rfl, rfl, hold, hnew, hlength⟩ := h
  rw [← hold, ← hnew, ← hlength, ← List.append_assoc before, ← List.append_assoc before',
    ← List.length_append, ← List.length_append, List.drop_left, List.drop_left,
    List.append_assoc before, List.append_assoc before', List.take_left, List.take_left]
  obtain ⟨back, front, front', hfront, hfront', hback⟩ :=
    commonStart_split before.reverse before'.reverse
  obtain ⟨ahead, rest, rest', rfl, rfl, hahead⟩ := commonStart_split after after'
  rw [← hback, ← hahead]
  obtain rfl : before = front.reverse ++ back.reverse := by
    rw [← List.reverse_append, ← hfront, List.reverse_reverse]
  obtain rfl : before' = front'.reverse ++ back.reverse := by
    rw [← List.reverse_append, ← hfront', List.reverse_reverse]
  refine ⟨back.reverse ++ shared ++ ahead, front.reverse, rest, front'.reverse, rest', ?_⟩
  simp [Nat.add_assoc]

omit [DecidableEq α] in
theorem isShared_empty (old new : List α) : (⟨0, 0, 0⟩ : Run).IsShared old new :=
  ⟨[], [], old, [], new, rfl, rfl, rfl, rfl, rfl⟩

theorem longestRun_isShared (old : List α) (new : List (Candidate α)) :
    (longestRun old new).IsShared old (new.map Candidate.line) := by
  have hbest := longestFrom_isShared new [] old (isShared_empty _ _)
  rw [runsBack_nil] at hbest
  exact hbest.extend

omit [DecidableEq α] in
theorem Run.IsShared.le_length {run : Run} {old new : List α} (h : run.IsShared old new) :
    run.old + run.length ≤ old.length := by
  obtain ⟨shared, before, after, before', after', rfl, rfl, hold, hnew, hlength⟩ := h
  simp only [List.length_append]
  omega

omit [DecidableEq α] in
theorem Run.IsShared.lines_eq {run : Run} {old new : List α} (h : run.IsShared old new) :
    (old.drop run.old).take run.length = (new.drop run.new).take run.length := by
  obtain ⟨shared, before, after, before', after', rfl, rfl, hold, hnew, hlength⟩ := h
  rw [← hold, ← hnew, ← hlength, List.drop_left, List.drop_left, List.take_left, List.take_left]

omit [DecidableEq α] in
theorem take_append_take_drop_append_drop (lines : List α) (start length : Nat) :
    lines.take start ++ (lines.drop start).take length ++ lines.drop (start + length) = lines := by
  rw [← List.drop_drop, List.append_assoc, List.take_append_drop, List.take_append_drop]

omit [DecidableEq α] in
theorem filterMap_old?_keep (lines : List α) :
    (lines.map Edit.keep).filterMap Edit.old? = lines := by
  rw [List.filterMap_map]
  exact List.filterMap_some

omit [DecidableEq α] in
theorem filterMap_new?_keep (lines : List α) :
    (lines.map Edit.keep).filterMap Edit.new? = lines := by
  rw [List.filterMap_map]
  exact List.filterMap_some

theorem scriptOf_nil_nil : scriptOf ([] : List α) [] = [] := by
  rw [scriptOf]
  split
  · rfl
  · rename_i line more hrun
    simp at hrun

theorem old_scriptOf (old : List α) (new : List (Candidate α)) :
    (scriptOf old new).filterMap Edit.old? = old := by
  fun_induction scriptOf old new with
  | case1 old new run hrun =>
    have hdrop : (old.map Edit.drop).filterMap Edit.old? = old := by
      rw [List.filterMap_map]
      exact List.filterMap_some
    have hadd : (new.map fun c => Edit.add c.line).filterMap Edit.old? = [] := by
      simp [Edit.old?]
    rw [List.filterMap_append, hdrop, hadd, List.append_nil]
  | case2 old new run line more hrun ihfront ihback =>
    rw [List.filterMap_append, List.filterMap_append, ihfront, ihback, filterMap_old?_keep, ← hrun,
      take_append_take_drop_append_drop]

theorem new_scriptOf (old : List α) (new : List (Candidate α)) :
    (scriptOf old new).filterMap Edit.new? = new.map Candidate.line := by
  fun_induction scriptOf old new with
  | case1 old new run hrun =>
    have hdrop : (old.map Edit.drop).filterMap Edit.new? = [] := by
      simp [Edit.new?]
    have hadd : (new.map fun c => Edit.add c.line).filterMap Edit.new? =
        new.map Candidate.line := by
      rw [List.filterMap_map, ← List.filterMap_eq_map]
      rfl
    rw [List.filterMap_append, hdrop, hadd, List.nil_append]
  | case2 old new run line more hrun ihfront ihback =>
    have hshared : line :: more = ((new.map Candidate.line).drop run.new).take run.length :=
      hrun.symm.trans (longestRun_isShared old new).lines_eq
    rw [List.filterMap_append, List.filterMap_append, ihfront, ihback, filterMap_new?_keep, hshared,
      List.map_take, List.map_drop, take_append_take_drop_append_drop]

theorem map_line_candidates (lines : List α) :
    (candidates lines).map Candidate.line = lines := by
  rw [candidates, List.map_map]
  exact List.map_id lines

-- The old lines of a script are the old list, and the new ones the new list.
theorem old_script (old new : List α) : (script old new).filterMap Edit.old? = old :=
  old_scriptOf old (candidates new)

theorem new_script (old new : List α) : (script old new).filterMap Edit.new? = new := by
  rw [script, new_scriptOf, map_line_candidates]

end ReadmeTables.Diff
