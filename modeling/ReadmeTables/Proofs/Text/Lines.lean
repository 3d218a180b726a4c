import Mathlib.Data.List.Basic
import ReadmeTables.Proofs.Text.Cuts
/-!
The lines of a text.

Main statements: a line feed of a line is at its end, and where no other line ends are in use the
lines of a text are cut after its line feeds.
-/

namespace ReadmeTables.Text

theorem mem_extendFirst {c : CodePoint} {ls : List Text} {line : Text}
    (h : line ∈ extendFirst c ls) : line = [c] ∨ (∃ first ∈ ls, line = c :: first) ∨ line ∈ ls := by
  cases ls with
  | nil => exact .inl (List.mem_singleton.mp h)
  | cons first rest =>
    rcases List.mem_cons.mp h with rfl | h
    · exact .inr (.inl ⟨first, List.mem_cons_self, rfl⟩)
    · exact .inr (.inr (List.mem_cons_of_mem _ h))

theorem ne_nil_of_mem_lines (t : Text) : ∀ line ∈ lines t, line ≠ [] := by
  intro line hline
  fun_induction lines t with
  | case1 => simp at hline
  | case2 rest ih =>
    rcases List.mem_cons.mp hline with rfl | hline
    · decide
    · exact ih hline
  | case3 c rest _ _ ih =>
    rcases List.mem_cons.mp hline with rfl | hline
    · exact List.cons_ne_nil _ _
    · exact ih hline
  | case4 c rest _ _ ih =>
    rcases mem_extendFirst hline with rfl | ⟨first, -, rfl⟩ | hline
    · exact List.cons_ne_nil _ _
    · exact List.cons_ne_nil _ _
    · exact ih hline

-- A line feed of a line is its last code point.
theorem not_mem_dropLast_of_mem_lines (t : Text) :
    ∀ line ∈ lines t, .scalar '\n' ∉ line.dropLast := by
  fun_induction lines t with
  | case1 => simp
  | case2 rest ih =>
    rw [List.forall_mem_cons]
    exact ⟨by decide, ih⟩
  | case3 c rest _ _ ih =>
    rw [List.forall_mem_cons]
    exact ⟨List.not_mem_nil, ih⟩
  | case4 c rest _ hc ih =>
    have hfeed : .scalar '\n' ≠ c := by
      rintro rfl
      exact hc (by decide)
    intro line hline
    rcases mem_extendFirst hline with rfl | ⟨first, hfirst, rfl⟩ | hline
    · exact List.not_mem_nil
    · rw [List.dropLast_cons_of_ne_nil (ne_nil_of_mem_lines rest first hfirst), List.mem_cons,
        not_or]
      exact ⟨hfeed, ih first hfirst⟩
    · exact ih line hline

-- No line ends are in use but line feeds.
def FeedsOnly (t : Text) : Prop :=
  ∀ p ∈ t, isLineEnd p = true → p = .scalar '\n'

instance (t : Text) : Decidable t.FeedsOnly :=
  inferInstanceAs (Decidable (∀ p ∈ t, _))

theorem lines_cons {c : CodePoint} (hc : isLineEnd c = true → c = .scalar '\n') (rest : Text) :
    lines (c :: rest) =
      if c = .scalar '\n' then [c] :: lines rest else extendFirst c (lines rest) := by
  have hreturn : c ≠ .scalar '\r' := by
    rintro rfl
    simp [isLineEnd] at hc
  have hend : isLineEnd c = true ↔ c = .scalar '\n' := by
    refine ⟨hc, ?_⟩
    rintro rfl
    decide
  rw [lines, if_congr hend rfl rfl]
  exact fun more h _ => hreturn h

theorem feedsOnly_append_iff {t u : Text} : FeedsOnly (t ++ u) ↔ FeedsOnly t ∧ FeedsOnly u :=
  List.forall_mem_append

theorem feedsOnly_cons_iff {c : CodePoint} {t : Text} :
    FeedsOnly (c :: t) ↔ (isLineEnd c = true → c = .scalar '\n') ∧ FeedsOnly t :=
  List.forall_mem_cons

-- A line feed ends a line, and what is behind it has its own lines.
theorem exists_lines_feed {t : Text} (h : FeedsOnly t) :
    ∃ first more, EndsInFeed first ∧ (∀ line ∈ more, EndsInFeed line) ∧
      ∀ rest, lines (t ++ .scalar '\n' :: rest) = first :: more ++ lines rest := by
  induction t with
  | nil =>
    refine ⟨[.scalar '\n'], [], rfl, by simp, fun rest => ?_⟩
    rw [List.nil_append, lines_cons (fun _ => rfl), if_pos rfl]
    rfl
  | cons c t ih =>
    rw [feedsOnly_cons_iff] at h
    obtain ⟨first, more, hfirst, hmore, hlines⟩ := ih h.2
    by_cases hc : c = .scalar '\n'
    · refine ⟨[c], first :: more, hc ▸ rfl, List.forall_mem_cons.mpr ⟨hfirst, hmore⟩,
        fun rest => ?_⟩
      rw [List.cons_append, lines_cons h.1, if_pos hc, hlines]
      rfl
    · have hne : first ≠ [] := by
        rintro rfl
        simp [EndsInFeed] at hfirst
      refine ⟨c :: first, more, (endsInFeed_cons c hne).mpr hfirst, hmore, fun rest => ?_⟩
      rw [List.cons_append, lines_cons h.1, if_neg hc, hlines]
      rfl

theorem lines_of_no_end {t final : Text} (hne : t ≠ []) (h : ∀ p ∈ t, isLineEnd p = false)
    (hfinal : final = [] ∨ final = [.scalar '\n']) : lines (t ++ final) = [t ++ final] := by
  induction t with
  | nil => exact (hne rfl).elim
  | cons c t ih =>
    rw [List.forall_mem_cons] at h
    have hc : c ≠ .scalar '\n' := by
      rintro rfl
      exact Bool.noConfusion h.1
    rw [List.cons_append, lines_cons (fun hend => by simp [h.1] at hend), if_neg hc]
    by_cases ht : t = []
    · subst ht
      rcases hfinal with rfl | rfl <;> rfl
    · rw [ih ht h.2]
      rfl

-- The last line of a text is what stands behind its last line feed but one at the end.
theorem exists_lines_last {front last final : Text} (hfront : FeedsOnly front) (hne : last ≠ [])
    (hlast : ∀ p ∈ last, isLineEnd p = false) (hfinal : final = [] ∨ final = [.scalar '\n']) :
    ∃ before, (∀ line ∈ before, EndsInFeed line) ∧
      lines (front ++ .scalar '\n' :: (last ++ final)) = before ++ [last ++ final] := by
  obtain ⟨first, more, hfirst, hmore, hlines⟩ := exists_lines_feed hfront
  refine ⟨first :: more, List.forall_mem_cons.mpr ⟨hfirst, hmore⟩, ?_⟩
  rw [hlines, lines_of_no_end hne hlast hfinal]

theorem FeedsOnly.isLineEnd_eq_false {t : Text} (h : FeedsOnly t) (hfeed : .scalar '\n' ∉ t) :
    ∀ p ∈ t, isLineEnd p = false := by
  intro p hp
  rw [Bool.eq_false_iff]
  intro hend
  exact hfeed (h p hp hend ▸ hp)

-- A text with a line feed is what stands before its last line feed and what stands behind it.
theorem exists_eq_append_feed {t : Text} (h : .scalar '\n' ∈ t) :
    ∃ front back, t = front ++ .scalar '\n' :: back ∧ .scalar '\n' ∉ back := by
  obtain ⟨back, front, hsplit, hback⟩ := List.eq_append_cons_of_mem (List.mem_reverse.mpr h)
  refine ⟨front.reverse, back.reverse, ?_, fun hmem => hback (List.mem_reverse.mp hmem)⟩
  rw [← List.reverse_reverse t, hsplit]
  simp

end ReadmeTables.Text
