import ReadmeTables.Text.Lines
/-!
Equal line ends.

Main statements: making line ends equal changes a text exactly if it holds a carriage return,
doing it twice is doing it once, and it can be done on both sides of a cut that splits no line
end.
-/

namespace ReadmeTables.Text

theorem not_mem_unifyLineEnds (cs : List Char) : '\r' ∉ unifyLineEnds cs := by
  fun_induction unifyLineEnds cs with
  | case1 => simp
  | case2 rest ih => simpa using ih
  | case3 rest _ ih => simpa using ih
  | case4 c rest _ hc ih =>
    intro h
    cases List.mem_cons.mp h with
    | inl he => exact hc he.symm
    | inr hr => exact ih hr

-- Characters before the first carriage return stay as they are.
theorem unifyLineEnds_append_left {cs : List Char} (ds : List Char) (h : '\r' ∉ cs) :
    unifyLineEnds (cs ++ ds) = cs ++ unifyLineEnds ds := by
  induction cs with
  | nil => rfl
  | cons c cs ih =>
    have hc : c ≠ '\r' := fun e => h (by simp [e])
    have hcs : '\r' ∉ cs := fun m => h (by simp [m])
    rw [List.cons_append, unifyLineEnds.eq_4 c _ (fun _ e _ => hc e) hc, ih hcs]
    rfl

theorem unifyLineEnds_eq_self {cs : List Char} (h : '\r' ∉ cs) : unifyLineEnds cs = cs := by
  simpa [unifyLineEnds] using unifyLineEnds_append_left [] h

theorem unifyLineEnds_eq_self_iff {cs : List Char} : unifyLineEnds cs = cs ↔ '\r' ∉ cs :=
  ⟨fun h => h ▸ not_mem_unifyLineEnds cs, unifyLineEnds_eq_self⟩

theorem unifyLineEnds_idem (cs : List Char) :
    unifyLineEnds (unifyLineEnds cs) = unifyLineEnds cs :=
  unifyLineEnds_eq_self (not_mem_unifyLineEnds cs)

-- A cut before anything but a line feed splits no line end.
theorem unifyLineEnds_append (cs : List Char) {ds : List Char} (h : ds.head? ≠ some '\n') :
    unifyLineEnds (cs ++ ds) = unifyLineEnds cs ++ unifyLineEnds ds := by
  fun_induction unifyLineEnds cs with
  | case1 => rfl
  | case2 rest ih =>
    change unifyLineEnds ('\r' :: '\n' :: (rest ++ ds)) = _
    rw [unifyLineEnds.eq_2, ih, List.cons_append]
  | case3 rest hrest ih =>
    have hnext : ∀ tail, rest ++ ds = '\n' :: tail → False := by
      intro tail he
      cases rest with
      | nil => exact h (by simp_all)
      | cons c rest => exact hrest rest (by simp_all)
    rw [List.cons_append, unifyLineEnds.eq_3 _ hnext, ih, List.cons_append]
  | case4 c rest hpair hc ih =>
    rw [List.cons_append, unifyLineEnds.eq_4 c _ (fun _ e _ => hc e) hc, ih, List.cons_append]

end ReadmeTables.Text
