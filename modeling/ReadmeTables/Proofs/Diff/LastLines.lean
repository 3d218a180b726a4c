import Mathlib.Data.List.Basic
import ReadmeTables.Proofs.Diff.Script
/-!
What becomes of the last lines of two lists.

A run is found wherever a line may begin one. Main statements: a last line that both lists have,
and nowhere else, is kept at the end, and last lines that the other list has nowhere are dropped
and added at the end.
-/

namespace ReadmeTables.Diff

variable {α : Type} [DecidableEq α]

theorem length_le_bestInRow (i j : Nat) (best : Run) (row : List Nat) :
    best.length ≤ (bestInRow i j best row).length := by
  induction row generalizing j best with
  | nil => exact Nat.le_refl _
  | cons n row ih =>
    rw [bestInRow]
    refine Nat.le_trans ?_ (ih (j + 1) _)
    split
    · rename_i hless
      exact Nat.le_of_lt hless
    · exact Nat.le_refl _

theorem le_bestInRow_of_mem {n : Nat} {row : List Nat} (h : n ∈ row) (i j : Nat) (best : Run) :
    n ≤ (bestInRow i j best row).length := by
  induction row generalizing j best with
  | nil => simp at h
  | cons m row ih =>
    rw [bestInRow]
    rcases List.mem_cons.mp h with rfl | h
    · refine Nat.le_trans ?_ (length_le_bestInRow i (j + 1) _ row)
      split
      · exact Nat.le_refl _
      · rename_i hless
        exact Nat.le_of_not_lt hless
    · exact ih h (j + 1) _

theorem length_le_longestFrom (new : List (Candidate α)) (i : Nat) (row : List Nat) (best : Run)
    (old : List α) : best.length ≤ (longestFrom new i row best old).length := by
  induction old generalizing i row best with
  | nil => exact Nat.le_refl _
  | cons line old ih =>
    rw [longestFrom]
    exact Nat.le_trans (length_le_bestInRow i 0 best _) (ih (i + 1) _ _)

theorem runBack_mem_runsBack (old : List α) (front back : List (Candidate α)) (c : Candidate α) :
    runBack old (c :: front.reverse) ∈ runsBack old [] (front ++ c :: back) := by
  rw [runsBack_append, runsBack, List.append_nil]
  exact List.mem_append_right _ List.mem_cons_self

-- A line of the new list by which a run may be found makes one wherever the old list has it.
theorem one_le_longestFrom {new : List (Candidate α)} {c : Candidate α} (hc : c ∈ new)
    (husable : c.usable = true) (passed : List α) (best : Run) {rest : List α}
    (hline : c.line ∈ rest) :
    1 ≤ (longestFrom new passed.length (runsBack passed [] new) best rest).length := by
  induction rest generalizing passed best with
  | nil => simp at hline
  | cons line rest ih =>
    rw [longestFrom_runsBack]
    by_cases hfirst : c.line = line
    · obtain ⟨front, back, rfl⟩ := List.append_of_mem hc
      have hrow := runBack_mem_runsBack (line :: passed) front back c
      have hone : 1 ≤ runBack (line :: passed) (c :: front.reverse) := by
        rw [runBack, husable, decide_eq_true hfirst]
        exact Nat.le_add_left 1 _
      have hbest := le_bestInRow_of_mem hrow passed.length 0 best
      exact Nat.le_trans (Nat.le_trans hone hbest) (length_le_longestFrom _ _ _ _ _)
    · have hlater : c.line ∈ rest := (List.mem_cons.mp hline).resolve_left hfirst
      exact ih (line :: passed) _ hlater

theorem one_le_longestRun {old : List α} {new : List (Candidate α)} {c : Candidate α}
    (hc : c ∈ new) (husable : c.usable = true) (hline : c.line ∈ old) :
    1 ≤ (longestRun old new).length := by
  have hbest := one_le_longestFrom hc husable [] ⟨0, 0, 0⟩ hline
  rw [runsBack_nil] at hbest
  rw [longestRun]
  simp only [List.length_nil] at hbest ⊢
  omega

omit [DecidableEq α] in
theorem Run.IsShared.le_length_new {run : Run} {old new : List α} (h : run.IsShared old new) :
    run.new + run.length ≤ new.length := by
  obtain ⟨shared, before, after, before', after', rfl, rfl, hold, hnew, hlength⟩ := h
  simp only [List.length_append]
  omega

omit [DecidableEq α] in
-- Lines of a list among which its last line is not end before it.
theorem end_le_of_not_mem {lines : List α} {last : α} {start length : Nat}
    (hend : start + length ≤ (lines ++ [last]).length) (hlength : 0 < length)
    (hlast : last ∉ ((lines ++ [last]).drop start).take length) :
    start + length ≤ lines.length := by
  rw [List.length_append, List.length_singleton] at hend
  by_contra hless
  apply hlast
  have hstart : start ≤ lines.length := by omega
  rw [List.drop_append_of_le_length hstart, List.take_of_length_le]
  · exact List.mem_append_right _ (List.mem_singleton_self last)
  · rw [List.length_append, List.length_drop, List.length_singleton]
    omega

section

variable {old olds : List α} {new news : List (Candidate α)} {last : α} {c : Candidate α}

-- The lines of a run are before the last line of either list if they are not that line.
theorem longestRun_ends_before (hold : old = olds ++ [last]) (hnew : new = news ++ [c])
    {line : α} {more : List α}
    (hrun : (old.drop (longestRun old new).old).take (longestRun old new).length = line :: more)
    (hlast : last ∉ line :: more) (hc : c.line ∉ line :: more) :
    (longestRun old new).old + (longestRun old new).length ≤ olds.length ∧
      (longestRun old new).new + (longestRun old new).length ≤ news.length := by
  have hshared := longestRun_isShared old new
  have hlines := hshared.lines_eq
  have hend := hshared.le_length
  have hend' := hshared.le_length_new
  have hlength : 0 < (longestRun old new).length := by
    by_contra hzero
    rw [Nat.eq_zero_of_not_pos hzero, List.take_zero] at hrun
    simp at hrun
  generalize longestRun old new = run at *
  constructor
  · rw [← hrun, hold] at hlast
    rw [hold] at hend
    exact end_le_of_not_mem hend hlength hlast
  · rw [← hrun, hlines, hnew, List.map_append, List.map_singleton] at hc
    rw [hnew, List.map_append, List.map_singleton] at hend'
    have hbefore := end_le_of_not_mem hend' hlength hc
    rwa [List.length_map] at hbefore

-- Last lines that the other list has nowhere are dropped and added behind everything else.
theorem scriptOf_last_apart (hold : old = olds ++ [last]) (hnew : new = news ++ [c])
    (hlast : last ∉ new.map Candidate.line) (hc : c.line ∉ old) :
    ∃ (front : List (Edit α)) (adds : List α), scriptOf old new =
      front ++ .drop last :: (adds.map Edit.add ++ [.add c.line]) := by
  fun_induction scriptOf old new generalizing olds news with
  | case1 old new run =>
    subst hold hnew
    refine ⟨olds.map Edit.drop, news.map Candidate.line, ?_⟩
    simp
  | case2 old new run line more hrun =>
    rename_i ihfront ihback
    have hlines := (longestRun_isShared old new).lines_eq
    have hlastline : last ∉ line :: more := by
      rw [← hrun, hlines]
      exact fun hmem => hlast (List.mem_of_mem_drop (List.mem_of_mem_take hmem))
    have hcline : c.line ∉ line :: more := by
      rw [← hrun]
      exact fun hmem => hc (List.mem_of_mem_drop (List.mem_of_mem_take hmem))
    obtain ⟨hbefore, hbefore'⟩ := longestRun_ends_before hold hnew hrun hlastline hcline
    have hold' : old.drop (run.old + run.length) = olds.drop (run.old + run.length) ++ [last] := by
      rw [hold, List.drop_append_of_le_length hbefore]
    have hnew' : new.drop (run.new + run.length) = news.drop (run.new + run.length) ++ [c] := by
      rw [hnew, List.drop_append_of_le_length hbefore']
    obtain ⟨front, adds, hback⟩ := ihback hold' hnew'
      (fun hmem => hlast ((List.Sublist.map _ (List.drop_sublist _ _)).subset hmem))
      (fun hmem => hc (List.mem_of_mem_drop hmem))
    refine ⟨scriptOf (old.take run.old) (new.take run.new) ++ (line :: more).map Edit.keep ++ front,
      adds, ?_⟩
    rw [hback, List.append_assoc _ front]

omit [DecidableEq α] in
-- What ends a list and is nowhere else in it is followed by nothing.
theorem eq_nil_of_last_mem {front back : List α} (h : front ++ back = olds ++ [last])
    (hmem : last ∈ front) (hlast : last ∉ olds) : back = [] := by
  by_contra hne
  obtain ⟨rest, a, rfl⟩ := (List.eq_nil_or_concat' back).resolve_left hne
  rw [← List.append_assoc] at h
  have holds := (List.append_inj' h rfl).1
  exact hlast (holds ▸ List.mem_append_left rest hmem)

-- A last line that both lists have, and nowhere else, is kept at the end.
theorem scriptOf_last_common (hold : old = olds ++ [last]) (hnew : new = news ++ [⟨last, true⟩])
    (hlast : last ∉ olds) (hlast' : last ∉ news.map Candidate.line) :
    ∃ front : List (Edit α), scriptOf old new = front ++ [.keep last] := by
  fun_induction scriptOf old new generalizing olds news with
  | case1 old new run =>
    rename_i hrun
    have hone : 1 ≤ run.length := by
      refine one_le_longestRun (c := ⟨last, true⟩) ?_ rfl ?_
      · simp [hnew]
      · simp [hold]
    have hend : run.old + run.length ≤ old.length := (longestRun_isShared old new).le_length
    have hlength := congrArg List.length hrun
    simp only [List.length_take, List.length_drop, List.length_nil] at hlength
    omega
  | case2 old new run line more hrun =>
    rename_i ihfront ihback
    have hshared : run.IsShared old (new.map Candidate.line) := longestRun_isShared old new
    by_cases hmem : last ∈ line :: more
    · -- the run goes up to the end of both lists
      obtain ⟨shared, before, after, before', after', hparts, hparts', hbefore, hbefore',
        hlength⟩ := hshared
      obtain rfl : shared = line :: more := by
        rw [← hrun, hparts, ← hbefore, List.drop_left, ← hlength, List.take_left]
      have hafter : after = [] := by
        refine eq_nil_of_last_mem ?_ (List.mem_append_right before hmem) hlast
        rw [List.append_assoc, ← hparts, hold]
      have hafter' : after' = [] := by
        refine eq_nil_of_last_mem ?_ (List.mem_append_right before' hmem) hlast'
        rw [List.append_assoc, ← hparts', hnew, List.map_append]
        rfl
      subst hafter hafter'
      rw [List.append_nil] at hparts hparts'
      have hdrop : old.drop (run.old + run.length) = [] := by
        rw [hparts, ← hbefore, ← hlength, ← List.length_append, List.drop_length]
      have hdrop' : new.drop (run.new + run.length) = [] := by
        rw [← List.map_eq_nil_iff (f := Candidate.line), List.map_drop, hparts', ← hbefore',
          ← hlength, ← List.length_append, List.drop_length]
      obtain ⟨init, final, hshared⟩ :=
        (List.eq_nil_or_concat' (line :: more)).resolve_left (List.cons_ne_nil _ _)
      have hfinal : final = last := by
        rw [hshared, ← List.append_assoc] at hparts
        exact List.singleton_inj.mp (List.append_inj' (hparts.symm.trans hold) rfl).2
      refine ⟨scriptOf (old.take run.old) (new.take run.new) ++ init.map Edit.keep, ?_⟩
      rw [hdrop, hdrop', scriptOf_nil_nil, hshared, hfinal, List.append_nil, List.map_append,
        List.append_assoc]
      rfl
    · obtain ⟨hbefore, hbefore'⟩ := longestRun_ends_before hold hnew hrun hmem hmem
      have hold' : old.drop (run.old + run.length) =
          olds.drop (run.old + run.length) ++ [last] := by
        rw [hold, List.drop_append_of_le_length hbefore]
      have hnew' : new.drop (run.new + run.length) =
          news.drop (run.new + run.length) ++ [⟨last, true⟩] := by
        rw [hnew, List.drop_append_of_le_length hbefore']
      obtain ⟨front, hback⟩ := ihback hold' hnew'
        (fun hmem => hlast (List.mem_of_mem_drop hmem))
        (fun hmem => hlast' ((List.Sublist.map _ (List.drop_sublist _ _)).subset hmem))
      refine ⟨scriptOf (old.take run.old) (new.take run.new) ++ (line :: more).map Edit.keep ++
        front, ?_⟩
      rw [hback, List.append_assoc _ front]

end

theorem script_last_common {olds news : List α} {last : α} (hlast : last ∉ olds)
    (hlast' : last ∉ news) :
    ∃ front, script (olds ++ [last]) (news ++ [last]) = front ++ [.keep last] := by
  have hcommon : isCommon (news ++ [last]) last = false := by
    have hcount : (news ++ [last]).count last = 1 := by
      rw [List.count_append, List.count_eq_zero_of_not_mem hlast', List.count_singleton_self]
    rw [isCommon, hcount]
    simp
  have hcandidates : candidates (news ++ [last]) =
      (news.map fun line => ⟨line, !isCommon (news ++ [last]) line⟩) ++ [⟨last, true⟩] := by
    rw [candidates, List.map_append, List.map_singleton, hcommon]
    rfl
  refine scriptOf_last_common rfl hcandidates hlast ?_
  rw [List.map_map]
  simpa using hlast'

theorem script_last_apart {olds news : List α} {last last' : α} (hlast : last ∉ news ++ [last'])
    (hlast' : last' ∉ olds ++ [last]) :
    ∃ (front : List (Edit α)) (adds : List α), script (olds ++ [last]) (news ++ [last']) =
      front ++ .drop last :: (adds.map Edit.add ++ [.add last']) := by
  have hcandidates : candidates (news ++ [last']) =
      (news.map fun line => ⟨line, !isCommon (news ++ [last']) line⟩) ++
        [⟨last', !isCommon (news ++ [last']) last'⟩] := by
    rw [candidates, List.map_append, List.map_singleton]
  refine scriptOf_last_apart rfl hcandidates ?_ hlast'
  rwa [map_line_candidates]

end ReadmeTables.Diff
