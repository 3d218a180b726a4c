import Mathlib.Data.List.Basic
import ReadmeTables.Text.Lines
/-!
Cutting a text at a code point, and the lines of a text that is printed.

Main statements: the first cut is at the first such code point, and strings that are put together
are printed line by line exactly if all of them but the last end in a line feed.
-/

namespace ReadmeTables.Text

theorem cutAt_of_not_mem {c : CodePoint} {t : Text} (h : c ∉ t) : cutAt c t = [t] := by
  induction t with
  | nil => rfl
  | cons d rest ih =>
    have hd : d ≠ c := fun e => h (by simp [e])
    have hrest : c ∉ rest := fun m => h (List.mem_cons_of_mem _ m)
    rw [cutAt, if_neg hd, ih hrest]

theorem cutAt_append {c : CodePoint} {t : Text} (h : c ∉ t) (rest : Text) :
    cutAt c (t ++ c :: rest) = t :: cutAt c rest := by
  induction t with
  | nil => rw [List.nil_append, cutAt, if_pos rfl]
  | cons d t ih =>
    have hd : d ≠ c := fun e => h (by simp [e])
    have ht : c ∉ t := fun m => h (List.mem_cons_of_mem _ m)
    rw [List.cons_append, cutAt, if_neg hd, ih ht]

def EndsInFeed (t : Text) : Prop :=
  t.getLast? = some (.scalar '\n')

instance (t : Text) : Decidable t.EndsInFeed :=
  inferInstanceAs (Decidable (_ = _))

theorem endsInFeed_concat (t : Text) : EndsInFeed (t ++ [.scalar '\n']) :=
  List.getLast?_concat

theorem endsInFeed_append (t : Text) {rest : Text} (h : rest ≠ []) :
    EndsInFeed (t ++ rest) ↔ rest.EndsInFeed := by
  obtain ⟨front, c, rfl⟩ := (List.eq_nil_or_concat' rest).resolve_left h
  rw [EndsInFeed, EndsInFeed, ← List.append_assoc, List.getLast?_concat, List.getLast?_concat]

theorem endsInFeed_cons (c : CodePoint) {rest : Text} (h : rest ≠ []) :
    EndsInFeed (c :: rest) ↔ rest.EndsInFeed :=
  endsInFeed_append [c] h

theorem endsInFeed_split_iff {front back : Text} (hback : .scalar '\n' ∉ back) :
    EndsInFeed (front ++ .scalar '\n' :: back) ↔ back = [] := by
  constructor
  · intro hfeed
    by_contra hne
    rw [← List.singleton_append, ← List.append_assoc, endsInFeed_append _ hne] at hfeed
    exact hback (List.mem_of_getLast? hfeed)
  · rintro rfl
    exact endsInFeed_concat front

-- The lines of a text as they are printed, without their line feeds. A line feed at the end does
-- not begin another line.
def printedLines : Text → List Text
  | [] => []
  | c :: rest =>
    if c = .scalar '\n' then [] :: printedLines rest else extendFirst c (printedLines rest)

theorem printedLines_append {t : Text} (h : .scalar '\n' ∉ t) (rest : Text) :
    printedLines (t ++ .scalar '\n' :: rest) = t :: printedLines rest := by
  induction t with
  | nil => rw [List.nil_append, printedLines, if_pos rfl]
  | cons c t ih =>
    have hc : c ≠ .scalar '\n' := fun e => h (by simp [e])
    have ht : .scalar '\n' ∉ t := fun m => h (List.mem_cons_of_mem _ m)
    rw [List.cons_append, printedLines, if_neg hc, ih ht, extendFirst]

-- What has no line feed runs into the line after it.
theorem printedLines_run {t : Text} (h : .scalar '\n' ∉ t) {rest first : Text} {more : List Text}
    (hrest : printedLines rest = first :: more) :
    printedLines (t ++ rest) = (t ++ first) :: more := by
  induction t with
  | nil => exact hrest
  | cons c t ih =>
    have hc : c ≠ .scalar '\n' := fun e => h (by simp [e])
    have ht : .scalar '\n' ∉ t := fun m => h (List.mem_cons_of_mem _ m)
    rw [List.cons_append, printedLines, if_neg hc, ih ht]
    rfl

theorem printedLines_of_not_mem {t : Text} (h : .scalar '\n' ∉ t) (hne : t ≠ []) :
    printedLines t = [t] := by
  obtain ⟨front, c, rfl⟩ := (List.eq_nil_or_concat' t).resolve_left hne
  rw [List.mem_append, List.mem_singleton, not_or] at h
  have hlast : printedLines [c] = [[c]] := by rw [printedLines, if_neg (Ne.symm h.2)]; rfl
  exact printedLines_run h.1 hlast

theorem printedLines_ne_nil {t : Text} (h : t ≠ []) : printedLines t ≠ [] := by
  cases t with
  | nil => exact (h rfl).elim
  | cons c rest =>
    rw [printedLines]
    split
    · exact List.cons_ne_nil _ _
    · cases printedLines rest <;> exact List.cons_ne_nil _ _

-- What stands behind a line feed has lines of its own.
theorem printedLines_append_feed (t rest : Text) :
    printedLines (t ++ .scalar '\n' :: rest) =
      printedLines (t ++ [.scalar '\n']) ++ printedLines rest := by
  induction t with
  | nil => rfl
  | cons c t ih =>
    have hne : printedLines (t ++ [.scalar '\n']) ≠ [] := printedLines_ne_nil (by simp)
    obtain ⟨first, more, hlines⟩ := List.exists_cons_of_ne_nil hne
    simp only [List.cons_append, printedLines, ih, hlines]
    split <;> rfl

-- A text is its lines, each but the last with its line feed.
theorem eq_of_printedLines {t last : Text} {before : List Text}
    (h : printedLines t = before ++ [last]) :
    ∃ final, (final = [] ∨ final = [.scalar '\n']) ∧
      t = before.flatMap (· ++ [.scalar '\n']) ++ last ++ final := by
  induction t generalizing before last with
  | nil => simp [printedLines] at h
  | cons c rest ih =>
    rw [printedLines] at h
    by_cases hc : c = .scalar '\n'
    · rw [if_pos hc] at h
      subst hc
      cases before with
      | nil =>
        obtain ⟨rfl, hrest⟩ := List.cons.inj h
        have hnil : rest = [] := by_contra fun hne => printedLines_ne_nil hne hrest
        exact ⟨[.scalar '\n'], .inr rfl, by rw [hnil]; rfl⟩
      | cons first before =>
        obtain ⟨rfl, hrest⟩ := List.cons.inj h
        obtain ⟨final, hfinal, rfl⟩ := ih hrest
        exact ⟨final, hfinal, rfl⟩
    · rw [if_neg hc] at h
      cases hlines : printedLines rest with
      | nil =>
        have hnil : rest = [] := by_contra fun hne => printedLines_ne_nil hne hlines
        rw [hlines] at h
        cases before with
        | nil =>
          obtain ⟨rfl, -⟩ := List.cons.inj h
          exact ⟨[], .inl rfl, by rw [hnil]; rfl⟩
        | cons line before => simp [extendFirst] at h
      | cons first more =>
        rw [hlines, extendFirst] at h
        -- the line that `c` begins is the last one, or one of those before it
        cases before with
        | nil =>
          obtain ⟨rfl, rfl⟩ := List.cons.inj h
          have hlast : printedLines rest = [] ++ [first] := hlines
          obtain ⟨final, hfinal, hrest⟩ := ih hlast
          exact ⟨final, hfinal, by rw [hrest]; rfl⟩
        | cons line before =>
          obtain ⟨rfl, rfl⟩ := List.cons.inj h
          have hmore : printedLines rest = (first :: before) ++ [last] := hlines
          obtain ⟨final, hfinal, hrest⟩ := ih hmore
          exact ⟨final, hfinal, by rw [hrest]; rfl⟩

-- Cutting at the line feeds gives those lines, and an empty part behind a line feed at the end.
theorem cutAt_lineFeed {t : Text} (h : t ≠ []) :
    cutAt (.scalar '\n') t = printedLines t ++ if t.EndsInFeed then [[]] else [] := by
  induction t with
  | nil => exact (h rfl).elim
  | cons c rest ih =>
    by_cases hrest : rest = []
    · subst hrest
      by_cases hc : c = .scalar '\n' <;> simp [cutAt, printedLines, EndsInFeed, extendFirst, hc]
    · obtain ⟨first, more, hlines⟩ := List.exists_cons_of_ne_nil (printedLines_ne_nil hrest)
      have hcut := ih hrest
      rw [cutAt, hcut, printedLines, hlines, if_congr (endsInFeed_cons c hrest) rfl rfl]
      by_cases hc : c = .scalar '\n'
      · rw [if_pos hc, if_pos hc]
        rfl
      · rw [if_neg hc, if_neg hc]
        rfl

-- A string with something before its line feed, which is at its end if it has one.
structure IsLine (t : Text) : Prop where
  head : ∃ c rest, t = c :: rest ∧ c ≠ .scalar '\n'
  feed : .scalar '\n' ∉ t.dropLast

theorem IsLine.ne_nil {t : Text} (h : t.IsLine) : t ≠ [] := by
  obtain ⟨c, rest, rfl, -⟩ := h.head
  exact List.cons_ne_nil c rest

-- A line ends in a line feed, or it has none.
theorem IsLine.eq_concat_or_not_mem {t : Text} (h : t.IsLine) :
    (∃ u, t = u ++ [.scalar '\n'] ∧ .scalar '\n' ∉ u) ∨
      ¬t.EndsInFeed ∧ .scalar '\n' ∉ t := by
  have hfeed := h.feed
  obtain ⟨front, c, rfl⟩ := (List.eq_nil_or_concat' t).resolve_left h.ne_nil
  rw [List.dropLast_concat] at hfeed
  by_cases hc : c = .scalar '\n'
  · subst hc
    exact .inl ⟨front, rfl, hfeed⟩
  · right
    constructor
    · rw [EndsInFeed, List.getLast?_concat]
      exact fun e => hc (Option.some.inj e)
    · rw [List.mem_append, List.mem_singleton]
      rintro (hmem | hmem)
      · exact hfeed hmem
      · exact hc hmem.symm

theorem IsLine.not_mem_of_not_endsInFeed {t : Text} (h : t.IsLine) (hends : ¬t.EndsInFeed) :
    .scalar '\n' ∉ t := by
  rcases h.eq_concat_or_not_mem with ⟨u, rfl, -⟩ | ⟨-, hmem⟩
  · exact (hends (endsInFeed_concat u)).elim
  · exact hmem

-- All strings but the last end in a line feed.
def FeedsBetween (strings : List Text) : Prop :=
  ∀ t ∈ strings.dropLast, t.EndsInFeed

theorem feedsBetween_cons_iff {t : Text} {rest : List Text} (h : rest ≠ []) :
    FeedsBetween (t :: rest) ↔ t.EndsInFeed ∧ FeedsBetween rest := by
  rw [FeedsBetween, List.dropLast_cons_of_ne_nil h, List.forall_mem_cons]
  rfl

theorem without_concat {t : Text} (h : .scalar '\n' ∉ t) :
    without (.scalar '\n') (t ++ [.scalar '\n']) = t := by
  rw [without, List.filter_append, List.filter_eq_self.mpr fun p hp => ?_]
  · exact List.append_nil t
  · exact decide_eq_true fun e : p = .scalar '\n' => h (e ▸ hp)

theorem without_of_not_mem {t : Text} (h : .scalar '\n' ∉ t) : without (.scalar '\n') t = t :=
  List.filter_eq_self.mpr fun p hp => decide_eq_true fun e : p = .scalar '\n' => h (e ▸ hp)

theorem printedLines_flatten_cons {t : Text} (h : .scalar '\n' ∉ t) (rest : List Text) :
    printedLines ((t ++ [.scalar '\n']) :: rest).flatten = t :: printedLines rest.flatten := by
  rw [List.flatten_cons, List.append_assoc]
  exact printedLines_append h rest.flatten

theorem printedLines_flatten_append {strings : List Text}
    (h : ∀ t ∈ strings, t.IsLine ∧ t.EndsInFeed) (rest : List Text) :
    printedLines (strings ++ rest).flatten =
      strings.map (without (.scalar '\n')) ++ printedLines rest.flatten := by
  induction strings with
  | nil => rfl
  | cons t strings ih =>
    rw [List.forall_mem_cons] at h
    obtain ⟨⟨hline, hends⟩, hstrings⟩ := h
    rcases hline.eq_concat_or_not_mem with ⟨u, rfl, hu⟩ | ⟨hnot, -⟩
    · rw [List.cons_append, printedLines_flatten_cons hu, ih hstrings, List.map_cons,
        without_concat hu]
      rfl
    · exact (hnot hends).elim

theorem exists_printedLines_of_isLine {t : Text} (h : t.IsLine) (rest : Text) :
    ∃ c first more, printedLines (t ++ rest) = (c :: first) :: more := by
  obtain ⟨c, more, rfl, hc⟩ := h.head
  rw [List.cons_append, printedLines, if_neg hc]
  refine ⟨c, ?_⟩
  cases printedLines (more ++ rest) with
  | nil => exact ⟨[], [], rfl⟩
  | cons first lines => exact ⟨first, lines, rfl⟩

-- Strings are printed line by line exactly if all of them but the last end in a line feed.
theorem printedLines_flatten_iff {strings : List Text} (h : ∀ t ∈ strings, t.IsLine) :
    printedLines strings.flatten = strings.map (without (.scalar '\n')) ↔
      FeedsBetween strings := by
  induction strings with
  | nil => simp [printedLines, FeedsBetween]
  | cons t rest ih =>
    rw [List.forall_mem_cons] at h
    obtain ⟨ht, hrest⟩ := h
    have hlater := ih hrest
    rcases ht.eq_concat_or_not_mem with ⟨u, rfl, hu⟩ | ⟨hends, hmem⟩
    · rw [printedLines_flatten_cons hu, List.map_cons, without_concat hu, List.cons.injEq, hlater]
      by_cases hnil : rest = []
      · subst hnil
        simp [FeedsBetween]
      · simp [feedsBetween_cons_iff hnil, endsInFeed_concat]
    · by_cases hnil : rest = []
      · subst hnil
        simp [printedLines_of_not_mem hmem ht.ne_nil, without_of_not_mem hmem, FeedsBetween]
      · -- the first line of the rest runs into this one
        obtain ⟨s, others, rfl⟩ := List.exists_cons_of_ne_nil hnil
        obtain ⟨c, first, more, hlines⟩ :=
          exists_printedLines_of_isLine (hrest s List.mem_cons_self) others.flatten
        have hrun := printedLines_run hmem hlines
        rw [feedsBetween_cons_iff hnil, List.flatten_cons, List.flatten_cons, hrun, List.map_cons,
          without_of_not_mem hmem]
        constructor
        · intro hsame
          simp at hsame
        · exact fun hfeeds => (hends hfeeds.1).elim

end ReadmeTables.Text
