import ReadmeTables.Proofs.Diff.LastLines
import ReadmeTables.Proofs.Diff.Tally
import ReadmeTables.Proofs.Framing
/-!
A difference as it is printed.

The strings of a difference keep the line ends of the texts, and nothing is put between them. Main
statement: they are printed line by line exactly if all lines that are shown but the last end in a
line feed, and where no other line ends are in use this goes wrong, and with it the counts of a
head, exactly for a README without a line feed at its end whose end marker shares its line.
-/

namespace ReadmeTables.Diff

open Text (EndsInFeed IsLine FeedsBetween printedLines)

-- Each string of the difference is a line of its own.
def LinesStandAlone (old new path : Text) : Prop :=
  (unified old new path).printedLines =
    (unifiedLines old new path).map (Text.without (.scalar '\n'))

-- How the header lines name the texts.
def fileNames (path : Text) : List Text :=
  ["--- " ++ path ++ " (current)", "+++ " ++ path ++ " (generated)"]

-- A difference that is cut at its line feeds has the names of the texts and then hunks, each head
-- of which counts the lines up to the next one.
def HasRightCounts (path difference : Text) : Prop :=
  let parts := difference.cutAt '\n'
  parts.take 2 = fileNames path ∧
    ((parts.drop 2).head?.bind readHead).isSome = true ∧ tally (parts.drop 2) = some (0, 0)

instance (old new path : Text) : Decidable (LinesStandAlone old new path) :=
  inferInstanceAs (Decidable (_ = _))

instance (path difference : Text) : Decidable (HasRightCounts path difference) :=
  inferInstanceAs (Decidable (_ ∧ _))

section Strings

variable {α : Type}

def Edit.line : Edit α → α
  | keep line => line
  | drop line => line
  | add line => line

theorem mem_of_mem_edits {e : Edit α} {edits : List (Edit α)} (h : e ∈ edits) :
    e.line ∈ oldLines edits ∨ e.line ∈ newLines edits := by
  cases e with
  | keep line => exact .inl (List.mem_filterMap.mpr ⟨_, h, rfl⟩)
  | drop line => exact .inl (List.mem_filterMap.mpr ⟨_, h, rfl⟩)
  | add line => exact .inr (List.mem_filterMap.mpr ⟨_, h, rfl⟩)

theorem mem_of_mem_script [DecidableEq α] {old new : List α} {e : Edit α}
    (h : e ∈ script old new) : e.line ∈ old ∨ e.line ∈ new := by
  have hmem := mem_of_mem_edits h
  rwa [oldLines_script, newLines_script] at hmem

theorem exists_sign (e : Edit Text) :
    ∃ sign, sign ≠ .scalar '\n' ∧ editText e = sign :: e.line := by
  cases e <;> exact ⟨_, by decide, rfl⟩

theorem endsInFeed_editText_iff {e : Edit Text} :
    (editText e).EndsInFeed ↔ e.line.EndsInFeed := by
  obtain ⟨sign, hsign, he⟩ := exists_sign e
  rw [he]
  by_cases hnil : e.line = []
  · simp [EndsInFeed, hnil, hsign]
  · exact Text.endsInFeed_cons sign hnil

theorem isLine_editText {e : Edit Text} (h : .scalar '\n' ∉ e.line.dropLast) :
    (editText e).IsLine := by
  obtain ⟨sign, hsign, he⟩ := exists_sign e
  rw [he]
  refine ⟨⟨sign, e.line, rfl, hsign⟩, ?_⟩
  by_cases hnil : e.line = []
  · simp [hnil]
  · rw [List.dropLast_cons_of_ne_nil hnil, List.mem_cons, not_or]
    exact ⟨hsign.symm, h⟩

theorem endsInFeed_hunkHead (hunk : Hunk Text) : (hunkHead hunk).EndsInFeed := by
  rw [hunkHead_eq]
  exact Text.endsInFeed_concat _

theorem isLine_hunkHead (hunk : Hunk Text) : (hunkHead hunk).IsLine := by
  refine ⟨⟨.scalar '@', _, rfl, by decide⟩, ?_⟩
  have hhead : hunkHead hunk = headText hunk ++ [.scalar '\n'] := hunkHead_eq hunk
  rw [hhead, List.dropLast_concat]
  exact not_mem_headText hunk

theorem fileHead_eq (path : Text) :
    fileHead path = (fileNames path).map fun name => name ++ [.scalar '\n'] := by
  simp [fileHead, fileNames, Text.ofString, Text.ofChars]

end Strings

section Difference

variable {old new path : Text}

theorem not_mem_fileNames (hpath : .scalar '\n' ∉ path) :
    ∀ t ∈ fileNames path, .scalar '\n' ∉ t := by
  intro t ht
  simp only [fileNames, List.mem_cons, List.not_mem_nil, or_false] at ht
  rcases ht with rfl | rfl <;> simp [Text.ofString, Text.ofChars, hpath]

theorem map_without_fileHead (hpath : .scalar '\n' ∉ path) :
    (fileHead path).map (Text.without (.scalar '\n')) = fileNames path := by
  have hnames : (fileNames path).map
      (Text.without (.scalar '\n') ∘ fun name => name ++ [.scalar '\n']) =
      (fileNames path).map id :=
    List.map_congr_left fun t ht => Text.without_concat (not_mem_fileNames hpath t ht)
  rw [fileHead_eq, List.map_map, hnames, List.map_id]

theorem isLine_of_mem_fileHead (hpath : .scalar '\n' ∉ path) :
    ∀ t ∈ fileHead path, t.IsLine ∧ t.EndsInFeed := by
  intro t ht
  have hhead : ∃ c more, t = c :: more ∧ c ≠ .scalar '\n' := by
    simp only [fileHead, List.mem_cons, List.not_mem_nil, or_false] at ht
    rcases ht with rfl | rfl
    · exact ⟨.scalar '-', _, rfl, by decide⟩
    · exact ⟨.scalar '+', _, rfl, by decide⟩
  rw [fileHead_eq] at ht
  obtain ⟨name, hname, rfl⟩ := List.mem_map.mp ht
  refine ⟨⟨hhead, ?_⟩, Text.endsInFeed_concat name⟩
  rw [List.dropLast_concat]
  exact not_mem_fileNames hpath name hname

theorem isLine_of_mem_hunkLines (old new : Text) :
    ∀ t ∈ (hunks (script old.lines new.lines)).flatMap hunkLines, t.IsLine := by
  intro t ht
  rcases mem_flatMap_hunkLines ht with ⟨hunk, -, rfl⟩ | ⟨e, he, rfl⟩
  · exact isLine_hunkHead hunk
  · apply isLine_editText
    have hmem := (shownEdits_sublist (script old.lines new.lines)).subset he
    rcases mem_of_mem_script hmem with hline | hline
    · exact Text.not_mem_dropLast_of_mem_lines old e.line hline
    · exact Text.not_mem_dropLast_of_mem_lines new e.line hline

-- The strings are lines of their own exactly if all but the last end in a line feed.
theorem linesStandAlone_iff (hpath : .scalar '\n' ∉ path) :
    LinesStandAlone old new path ↔ FeedsBetween (unifiedLines old new path) := by
  refine Text.printedLines_flatten_iff fun t ht => ?_
  by_cases hfound : hunks (script old.lines new.lines) = []
  · simp [unifiedLines, hfound] at ht
  · rw [unifiedLines_of_ne_nil hfound, List.mem_append] at ht
    rcases ht with ht | ht
    · exact (isLine_of_mem_fileHead hpath t ht).1
    · exact isLine_of_mem_hunkLines old new t ht

-- A hunk begins with its head.
theorem exists_hunkLines_eq_cons {found : List (Hunk Text)} (h : found ≠ []) :
    ∃ hunk more, found.flatMap hunkLines = (headText hunk ++ [.scalar '\n']) :: more := by
  obtain ⟨hunk, rest, rfl⟩ := List.exists_cons_of_ne_nil h
  refine ⟨hunk, hunk.edits.map editText ++ rest.flatMap hunkLines, ?_⟩
  rw [List.flatMap_cons, hunkLines, hunkHead_eq]
  rfl

theorem feedsBetween_unifiedLines_iff (hpath : .scalar '\n' ∉ path)
    (hfound : hunks (script old.lines new.lines) ≠ []) :
    FeedsBetween (unifiedLines old new path) ↔
      FeedsBetween ((hunks (script old.lines new.lines)).flatMap hunkLines) := by
  have hne : (hunks (script old.lines new.lines)).flatMap hunkLines ≠ [] := by
    obtain ⟨hunk, more, hbody⟩ := exists_hunkLines_eq_cons hfound
    rw [hbody]
    exact List.cons_ne_nil _ _
  have hhead := isLine_of_mem_fileHead hpath
  rw [unifiedLines_of_ne_nil hfound, FeedsBetween, List.dropLast_append_of_ne_nil hne,
    List.forall_mem_append]
  exact and_iff_right fun t ht => (hhead t ht).2

theorem printedLines_unified (hpath : .scalar '\n' ∉ path)
    (hfound : hunks (script old.lines new.lines) ≠ []) :
    (unified old new path).printedLines = fileNames path ++
      printedLines ((hunks (script old.lines new.lines)).flatMap hunkLines).flatten := by
  rw [unified, unifiedLines_of_ne_nil hfound,
    Text.printedLines_flatten_append (isLine_of_mem_fileHead hpath), map_without_fileHead hpath]

-- The counts are right exactly if they are for the lines below the header.
theorem hasRightCounts_iff (hpath : .scalar '\n' ∉ path)
    (hfound : hunks (script old.lines new.lines) ≠ []) :
    HasRightCounts path (unified old new path) ↔
      tally (printedLines ((hunks (script old.lines new.lines)).flatMap hunkLines).flatten) =
        some (0, 0) := by
  have hne : unified old new path ≠ [] := mt unified_eq_nil_iff_hunks.mp hfound
  have hcut := Text.cutAt_lineFeed hne
  rw [printedLines_unified hpath hfound] at hcut
  obtain ⟨hunk, more, hbody⟩ := exists_hunkLines_eq_cons hfound
  have hlines := Text.printedLines_flatten_cons (not_mem_headText hunk) more
  rw [← hbody] at hlines
  have hhead : (readHead (headText hunk)).isSome = true := by
    rw [readHead_headText]
    rfl
  have htally (parts : List Text) :
      tally (parts ++ if (unified old new path).EndsInFeed then [[]] else []) = tally parts := by
    split
    · exact tally_concat_nil parts
    · rw [List.append_nil]
  have htake (parts : List Text) : (fileNames path ++ parts).take 2 = fileNames path := rfl
  have hdrop (parts : List Text) : (fileNames path ++ parts).drop 2 = parts := rfl
  simp only [HasRightCounts, hcut, List.append_assoc, htake, hdrop, htally, true_and]
  rw [hlines]
  exact and_iff_right hhead

-- Heads end in a line feed, so only the edits count.
theorem feedsBetween_filter_iff {strings : List Text}
    (hlast : ∀ t, strings.getLast? = some t → isEditText t = true)
    (hheads : ∀ t ∈ strings, isEditText t = false → t.EndsInFeed) :
    FeedsBetween (strings.filter isEditText) ↔ FeedsBetween strings := by
  rw [FeedsBetween, dropLast_filter hlast]
  constructor
  · intro h t ht
    by_cases hedit : isEditText t = true
    · exact h t (List.mem_filter.mpr ⟨ht, hedit⟩)
    · exact hheads t (List.dropLast_subset strings ht) (Bool.eq_false_iff.mpr hedit)
  · exact fun h t ht => h t (List.mem_of_mem_filter ht)

theorem endsInFeed_of_not_isEditText (found : List (Hunk Text)) :
    ∀ t ∈ found.flatMap hunkLines, isEditText t = false → t.EndsInFeed := by
  intro t ht hhead
  rcases mem_flatMap_hunkLines ht with ⟨hunk, -, rfl⟩ | ⟨e, -, rfl⟩
  · exact endsInFeed_hunkHead hunk
  · rw [isEditText_editText] at hhead
    simp at hhead

theorem feedsBetween_editTexts_iff {edits : List (Edit Text)} :
    FeedsBetween (edits.map editText) ↔ ∀ e ∈ edits.dropLast, e.line.EndsInFeed := by
  rw [FeedsBetween, ← List.map_dropLast, List.forall_mem_map]
  exact forall₂_congr fun _ _ => endsInFeed_editText_iff

theorem feedsBetween_hunkLines_iff {edits : List (Edit Text)} :
    FeedsBetween ((hunks edits).flatMap hunkLines) ↔
      ∀ e ∈ (shownEdits edits).dropLast, e.line.EndsInFeed := by
  rw [← feedsBetween_editTexts_iff, shownEdits, ← filter_hunkLines]
  refine (feedsBetween_filter_iff (fun t ht => ?_) (endsInFeed_of_not_isEditText _)).symm
  exact isEditText_of_getLast? (hunks_turns edits).edits_ne_nil ht

-- The counts are right if all strings but the last end in a line feed.
theorem tally_of_feedsBetween
    (h : FeedsBetween ((hunks (script old.lines new.lines)).flatMap hunkLines)) :
    tally (printedLines ((hunks (script old.lines new.lines)).flatMap hunkLines).flatten) =
      some (0, 0) := by
  rw [(Text.printedLines_flatten_iff (isLine_of_mem_hunkLines old new)).mpr h]
  exact tally_hunkLines _

-- Where all lines end in a line feed, so do all strings.
theorem feedsBetween_of_all (h : ∀ line ∈ old.lines ++ new.lines, line.EndsInFeed) :
    FeedsBetween ((hunks (script old.lines new.lines)).flatMap hunkLines) := by
  refine feedsBetween_hunkLines_iff.mpr fun e he => h e.line ?_
  have hmem := (shownEdits_sublist (script old.lines new.lines)).subset (List.dropLast_subset _ he)
  exact List.mem_append.mpr (mem_of_mem_script hmem)

-- Strings of which the edits end in a line feed.
theorem endsInFeed_of_filter {strings : List Text} {edits : List (Edit Text)}
    (hheads : ∀ t ∈ strings, isEditText t = false → t.EndsInFeed)
    (hfilter : strings.filter isEditText = edits.map editText)
    (hedits : ∀ e ∈ edits, e.line.EndsInFeed) : ∀ t ∈ strings, t.EndsInFeed := by
  intro t ht
  by_cases hedit : isEditText t = true
  · have hmem : t ∈ edits.map editText := hfilter ▸ List.mem_filter.mpr ⟨ht, hedit⟩
    obtain ⟨e, he, rfl⟩ := List.mem_map.mp hmem
    exact endsInFeed_editText_iff.mpr (hedits e he)
  · exact hheads t ht (Bool.eq_false_iff.mpr hedit)

-- A string without a line feed, which is no head, makes the counts wrong if it is not the last one
-- and all others end in a line feed.
theorem tally_ne_of_shown {front tail : List (Edit Text)} {e : Edit Text}
    (hshown : shownEdits (script old.lines new.lines) = front ++ e :: tail) (htail : tail ≠ [])
    (he : ¬e.line.EndsInFeed) (hfront : ∀ e' ∈ front, e'.line.EndsInFeed)
    (hafter : ∀ e' ∈ tail.dropLast, e'.line.EndsInFeed) :
    tally (printedLines ((hunks (script old.lines new.lines)).flatMap hunkLines).flatten) ≠
      some (0, 0) := by
  have hedits := (hunks_turns (script old.lines new.lines)).edits_ne_nil
  have hlines := isLine_of_mem_hunkLines old new
  have hheads := endsInFeed_of_not_isEditText (hunks (script old.lines new.lines))
  have hlast (t : Text) := isEditText_of_getLast? hedits (t := t)
  have hweight (t : Text) := weight_ne_zero hedits (t := t)
  have hright := tally_hunkLines (hunks (script old.lines new.lines))
  obtain ⟨before, after, hsplit, hbefore, hlater⟩ := exists_split_hunkLines hshown
  rw [hsplit] at hlines hheads hlast hweight hright ⊢
  rw [List.forall_mem_append, List.forall_mem_cons] at hlines hheads
  obtain ⟨hlinesBefore, hlineEdit, hlinesAfter⟩ := hlines
  obtain ⟨hheadsBefore, -, hheadsAfter⟩ := hheads
  have hrun : .scalar '\n' ∉ editText e :=
    hlineEdit.not_mem_of_not_endsInFeed fun hends => he (endsInFeed_editText_iff.mp hends)
  have hfeedsBefore := endsInFeed_of_filter hheadsBefore hbefore hfront
  have hne : after ≠ [] := by
    rintro rfl
    exact htail (List.map_eq_nil_iff.mp hlater.symm)
  obtain ⟨next, rest, rfl⟩ := List.exists_cons_of_ne_nil hne
  have hfeedsAfter : FeedsBetween (next :: rest) := by
    refine (feedsBetween_filter_iff (fun t ht => hlast t ?_) hheadsAfter).mp ?_
    · rw [List.getLast?_append, List.getLast?_cons_cons, ht]
      rfl
    · rw [hlater]
      exact feedsBetween_editTexts_iff.mpr hafter
  exact tally_ne_of_run (fun t ht => ⟨hlinesBefore t ht, hfeedsBefore t ht⟩) hrun hlinesAfter
    hfeedsAfter (hweight next (by simp)) hright

variable {olds news adds : List Text} {last last' : Text}

theorem lines_of_script_append {front tail : List (Edit Text)}
    (hscript : script old.lines new.lines = front ++ tail) (hold : old.lines = olds ++ [last])
    (hnew : new.lines = news ++ [last']) (htail : oldLines tail = [last])
    (htail' : newLines tail = adds ++ [last']) :
    oldLines front = olds ∧ newLines front ++ adds = news := by
  have hlines := oldLines_script old.lines new.lines
  have hlines' := newLines_script old.lines new.lines
  rw [hscript, oldLines_append, htail, hold] at hlines
  rw [hscript, newLines_append, htail', hnew, ← List.append_assoc] at hlines'
  exact ⟨(List.append_inj' hlines rfl).1, (List.append_inj' hlines' rfl).1⟩

-- A last line that both texts have is the last string, if it is shown.
theorem feedsBetween_of_last_common (hold : old.lines = olds ++ [last])
    (hnew : new.lines = news ++ [last]) (holds : ∀ line ∈ olds, line.EndsInFeed)
    (hnews : ∀ line ∈ news, line.EndsInFeed) (hlast : ¬last.EndsInFeed) :
    FeedsBetween ((hunks (script old.lines new.lines)).flatMap hunkLines) := by
  obtain ⟨front, hscript⟩ := script_last_common (fun hmem => hlast (holds last hmem))
    (fun hmem => hlast (hnews last hmem))
  rw [← hold, ← hnew] at hscript
  have hkept : newLines [.keep last] = [] ++ [last] := rfl
  obtain ⟨hfront, hfront'⟩ := lines_of_script_append hscript hold hnew rfl hkept
  rw [List.append_nil] at hfront'
  refine feedsBetween_hunkLines_iff.mpr fun e he => ?_
  have hmem := (dropLast_sublist_dropLast (shownEdits_sublist _)).subset he
  rw [hscript, List.dropLast_concat] at hmem
  rcases mem_of_mem_edits hmem with hline | hline
  · exact holds e.line (hfront ▸ hline)
  · exact hnews e.line (hfront' ▸ hline)

theorem oldLines_adds (lines : List Text) : oldLines (lines.map Edit.add) = [] := by
  rw [oldLines, List.filterMap_map]
  exact List.filterMap_eq_nil_iff.mpr fun _ _ => rfl

theorem newLines_adds (lines : List Text) : newLines (lines.map Edit.add) = lines := by
  rw [newLines, List.filterMap_map]
  exact List.filterMap_some

-- Last lines without a line feed that are not the same: the dropped one runs into what is added.
theorem tally_ne_of_last_apart (hold : old.lines = olds ++ [last])
    (hnew : new.lines = news ++ [last']) (holds : ∀ line ∈ olds, line.EndsInFeed)
    (hnews : ∀ line ∈ news, line.EndsInFeed) (hlast : ¬last.EndsInFeed)
    (hlast' : ¬last'.EndsInFeed) (hne : last ≠ last') :
    tally (printedLines ((hunks (script old.lines new.lines)).flatMap hunkLines).flatten) ≠
      some (0, 0) := by
  have hapart : last ∉ news ++ [last'] := by
    rw [List.mem_append, List.mem_singleton]
    rintro (hmem | hmem)
    · exact hlast (hnews last hmem)
    · exact hne hmem
  have hapart' : last' ∉ olds ++ [last] := by
    rw [List.mem_append, List.mem_singleton]
    rintro (hmem | hmem)
    · exact hlast' (holds last' hmem)
    · exact hne hmem.symm
  obtain ⟨front, adds, hscript⟩ := script_last_apart hapart hapart'
  rw [← hold, ← hnew] at hscript
  have hdropped : oldLines (.drop last :: (adds.map Edit.add ++ [.add last'])) = [last] := by
    rw [oldLines_cons, oldLines_append, oldLines_adds]
    rfl
  have hadded : newLines (.drop last :: (adds.map Edit.add ++ [.add last'])) = adds ++ [last'] := by
    rw [newLines_cons, newLines_append, newLines_adds]
    rfl
  obtain ⟨hfront, hfront'⟩ := lines_of_script_append hscript hold hnew hdropped hadded
  have htail : ∀ e ∈ .drop last :: (adds.map Edit.add ++ [.add last']), e.isChange = true := by
    intro e he
    simp only [List.mem_cons, List.mem_append, List.mem_map, List.not_mem_nil, or_false] at he
    rcases he with rfl | ⟨line, -, rfl⟩ | rfl <;> rfl
  obtain ⟨front', hsub, hshown⟩ := exists_shownEdits_append htail
  rw [← hscript] at hshown
  refine tally_ne_of_shown hshown (by simp) hlast (fun e he => ?_) fun e he => ?_
  · rcases mem_of_mem_edits (hsub.subset he) with hline | hline
    · exact holds e.line (hfront ▸ hline)
    · exact hnews e.line (hfront' ▸ List.mem_append_left adds hline)
  · rw [List.dropLast_concat] at he
    obtain ⟨line, hline, rfl⟩ := List.mem_map.mp he
    exact hnews line (hfront' ▸ List.mem_append_right _ hline)

end Difference

section Region

open Region (startMarker endMarker lineFeed inner? extract isSome_extract_iff)

variable {original body path : Text}

theorem isLineEnd_endMarker : ∀ p ∈ endMarker, Text.isLineEnd p = false := by
  decide

theorem not_endsInFeed_endMarker (t : Text) : ¬EndsInFeed (t ++ endMarker) := by
  rw [EndsInFeed, Region.getLast?_append_endMarker]
  decide

-- The last lines of a README and of the README with another body.
theorem exists_lines_of_region (hfeeds : Text.FeedsOnly (original ++ body)) {inner final : Text}
    (h : inner? original = some (inner, final)) :
    ∃ olds news back, (∀ line ∈ olds, line.EndsInFeed) ∧ (∀ line ∈ news, line.EndsInFeed) ∧
      original.lines = olds ++ [back ++ endMarker ++ final] ∧
      (Region.replace original body).lines = news ++ [endMarker ++ final] ∧
      ((extract original).isSome = true ↔ back = []) := by
  obtain ⟨hfinal, horiginal⟩ := Region.inner?_eq_some_iff.mp h
  rw [Text.feedsOnly_append_iff] at hfeeds
  obtain ⟨holds, hbody⟩ := hfeeds
  have hmem : .scalar '\n' ∈ startMarker ++ lineFeed ++ inner := by simp [lineFeed]
  obtain ⟨front, back, hsplit, hback⟩ := Text.exists_eq_append_feed hmem
  rw [horiginal, hsplit] at holds
  simp only [Text.feedsOnly_append_iff, Text.feedsOnly_cons_iff] at holds
  obtain ⟨⟨⟨hfront, -, hbackFeeds⟩, -⟩, -⟩ := holds
  have hend : endMarker ≠ [] := by decide
  have hlast : ∀ p ∈ back ++ endMarker, Text.isLineEnd p = false :=
    List.forall_mem_append.mpr ⟨hbackFeeds.isLineEnd_eq_false hback, isLineEnd_endMarker⟩
  have hstart : Text.FeedsOnly (startMarker ++ lineFeed ++ body) := by
    have hmarker : Text.FeedsOnly (startMarker ++ lineFeed) := by decide
    exact Text.feedsOnly_append_iff.mpr ⟨hmarker, hbody⟩
  obtain ⟨olds, hfeeds, hlines⟩ := Text.exists_lines_last hfront
    (List.append_ne_nil_of_right_ne_nil back hend) hlast hfinal
  obtain ⟨news, hfeeds', hlines'⟩ := Text.exists_lines_last hstart hend isLineEnd_endMarker hfinal
  refine ⟨olds, news, back, hfeeds, hfeeds', ?_, ?_, ?_⟩
  · rw [← hlines, horiginal, hsplit]
    simp only [List.append_assoc, List.cons_append]
  · rw [← hlines', Region.replace_of_inner? h, Region.wrap]
    simp only [List.append_assoc, lineFeed, List.cons_append, List.nil_append]
  · rw [isSome_extract_iff h, hsplit, Text.endsInFeed_split_iff hback]

-- What has no region stays as it is, and then there is no difference.
theorem exists_inner_of_unified_ne_nil
    (hdiff : unified original (Region.replace original body) path ≠ []) :
    ∃ inner final, inner? original = some (inner, final) := by
  refine Region.hasRegion_eq_true_iff.mp (of_not_not fun h => hdiff ?_)
  rw [Region.replace_of_not_hasRegion (Bool.eq_false_iff.mpr h)]
  exact unified_eq_nil_iff.mpr rfl

-- Where no other line ends are in use, all strings but the last end in a line feed exactly if the
-- README does or the end marker has a line of its own, and without that the counts are wrong.
theorem feedsBetween_or_tally_ne (hfeeds : Text.FeedsOnly (original ++ body))
    {inner final : Text} (h : inner? original = some (inner, final)) :
    ((extract original).isSome = true ∨ original.EndsInFeed) ∧
        FeedsBetween ((hunks (script original.lines
          (Region.replace original body).lines)).flatMap hunkLines) ∨
      ¬((extract original).isSome = true ∨ original.EndsInFeed) ∧
        tally (printedLines ((hunks (script original.lines
          (Region.replace original body).lines)).flatMap hunkLines).flatten) ≠ some (0, 0) := by
  obtain ⟨olds, news, back, holds, hnews, hold, hnew, hextract⟩ := exists_lines_of_region hfeeds h
  have hfinal : final = if original.EndsInFeed then lineFeed else [] :=
    Region.final_eq_of_inner? h
  by_cases hends : original.EndsInFeed
  · refine .inl ⟨.inr hends, feedsBetween_of_all ?_⟩
    rw [hfinal, if_pos hends] at hold hnew
    have hlast (t : Text) : EndsInFeed (t ++ lineFeed) := Text.endsInFeed_concat t
    simp only [hold, hnew, List.forall_mem_append, List.forall_mem_singleton]
    exact ⟨⟨holds, hlast _⟩, hnews, hlast _⟩
  · rw [hfinal, if_neg hends, List.append_nil] at hold hnew
    have hmarker : ¬endMarker.EndsInFeed := not_endsInFeed_endMarker []
    by_cases hback : back = []
    · subst hback
      exact .inl ⟨.inl (hextract.mpr rfl),
        feedsBetween_of_last_common hold hnew holds hnews hmarker⟩
    · refine .inr ⟨?_, tally_ne_of_last_apart hold hnew holds hnews
        (not_endsInFeed_endMarker back) hmarker ?_⟩
      · rw [hextract, not_or]
        exact ⟨hback, hends⟩
      · exact fun hsame => hback (List.append_left_eq_self.mp hsame)

-- A difference is printed line by line exactly if all lines it shows but the last end in a line
-- feed, and then its counts are right.
theorem lines_stand_alone_iff (hpath : .scalar '\n' ∉ path)
    (hdiff : unified original (Region.replace original body) path ≠ []) :
    (LinesStandAlone original (Region.replace original body) path ↔
      ∀ e ∈ (shownEdits (script original.lines
        (Region.replace original body).lines)).dropLast, e.line.EndsInFeed) ∧
    (LinesStandAlone original (Region.replace original body) path →
      HasRightCounts path (unified original (Region.replace original body) path)) ∧
    (Text.FeedsOnly (original ++ body) →
      (LinesStandAlone original (Region.replace original body) path ↔
        (extract original).isSome = true ∨ original.EndsInFeed) ∧
      (HasRightCounts path (unified original (Region.replace original body) path) ↔
        (extract original).isSome = true ∨ original.EndsInFeed)) := by
  obtain ⟨inner, final, hinner⟩ := exists_inner_of_unified_ne_nil hdiff
  have hfound := mt unified_eq_nil_iff_hunks.mpr hdiff
  have halone := (linesStandAlone_iff hpath).trans
    (feedsBetween_unifiedLines_iff hpath hfound)
  have hcounts := hasRightCounts_iff hpath hfound
  refine ⟨halone.trans feedsBetween_hunkLines_iff, ?_, fun hfeeds => ?_⟩
  · rw [halone, hcounts]
    exact tally_of_feedsBetween
  · rw [halone, hcounts]
    rcases feedsBetween_or_tally_ne hfeeds hinner with ⟨hgood, hbetween⟩ | ⟨hbad, htally⟩
    · exact ⟨iff_of_true hbetween hgood, iff_of_true (tally_of_feedsBetween hbetween) hgood⟩
    · refine ⟨iff_of_false (fun hbetween => ?_) hbad, iff_of_false htally hbad⟩
      exact htally (tally_of_feedsBetween hbetween)

theorem lines_stand_alone_of_no_final_feed :
    let original : Text :=
      "<!-- docgen-tsdoc-replacer:start -->\nold\n<!-- docgen-tsdoc-replacer:end -->"
    let updated := Region.replace original "new"
    .scalar '\n' ∉ Text.ofString "README.md" ∧ unified original updated "README.md" ≠ [] ∧
      Text.FeedsOnly (original ++ "new") ∧ LinesStandAlone original updated "README.md" ∧
      HasRightCounts "README.md" (unified original updated "README.md") := by
  intro original updated
  have hpath : .scalar '\n' ∉ Text.ofString "README.md" := by decide
  have hdiff : unified original updated "README.md" ≠ [] := by decide +kernel
  have hfeeds : Text.FeedsOnly (original ++ "new") := by decide +kernel
  have hextract : (extract original).isSome = true := by decide +kernel
  obtain ⟨-, hcounts, hexact⟩ := lines_stand_alone_iff hpath hdiff
  have halone := (hexact hfeeds).1.mpr (.inl hextract)
  exact ⟨hpath, hdiff, hfeeds, halone, hcounts halone⟩

-- A dropped line without a line feed runs into what is added for it, or dropped behind it.
theorem lines_run_together_of_shared_line :
    let shared : Text :=
      "<!-- docgen-tsdoc-replacer:start -->\nold <!-- docgen-tsdoc-replacer:end -->"
    let fed : Text :=
      "<!-- docgen-tsdoc-replacer:start -->\nold\x0cmore\n<!-- docgen-tsdoc-replacer:end -->\n"
    Region.hasRegion shared = true ∧
      unified shared (Region.replace shared "new") "README.md" =
        "--- README.md (current)\n+++ README.md (generated)\n@@ -1,2 +1,3 @@\n" ++
        " <!-- docgen-tsdoc-replacer:start -->\n" ++
        "-old <!-- docgen-tsdoc-replacer:end -->+new\n" ++
        "+<!-- docgen-tsdoc-replacer:end -->" ∧
      ¬LinesStandAlone shared (Region.replace shared "new") "README.md" ∧
      ¬HasRightCounts "README.md" (unified shared (Region.replace shared "new") "README.md") ∧
      Region.hasRegion fed = true ∧
      unified fed (Region.replace fed "new") "README.md" =
        "--- README.md (current)\n+++ README.md (generated)\n@@ -1,4 +1,3 @@\n" ++
        " <!-- docgen-tsdoc-replacer:start -->\n-old\x0c-more\n+new\n" ++
        " <!-- docgen-tsdoc-replacer:end -->\n" ∧
      ¬LinesStandAlone fed (Region.replace fed "new") "README.md" ∧
      ¬HasRightCounts "README.md" (unified fed (Region.replace fed "new") "README.md") := by
  decide +kernel

end Region

end ReadmeTables.Diff
