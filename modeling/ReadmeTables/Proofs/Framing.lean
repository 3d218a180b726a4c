import ReadmeTables.Proofs.Region
import ReadmeTables.Proofs.Text.Lines
/-!
What replacing a body and extracting it have to do with each other, and with the lines of a text.

Main statements: replacing gives back what was put in and forgets what was put in before it, and
the two agree on what a region is exactly for the texts whose last line is not an end marker
behind something else.
-/

namespace ReadmeTables.Region

open Text (EndsInFeed printedLines)

variable {t body inner final : Text}

theorem hasRegion_wrap (body : Text) (h : final = [] ∨ final = lineFeed) :
    hasRegion (wrap body ++ final) = true :=
  hasRegion_of_inner? (inner?_wrap body h)

theorem replace_wrap (body next : Text) (h : final = [] ∨ final = lineFeed) :
    replace (wrap body ++ final) next = wrap next ++ final :=
  replace_of_inner? (inner?_wrap body h) next

-- A region of two lines, the markers.
def IsBare (t : Text) : Prop :=
  t = startMarker ++ lineFeed ++ endMarker ∨ t = startMarker ++ lineFeed ++ endMarker ++ lineFeed

instance (t : Text) : Decidable (IsBare t) :=
  inferInstanceAs (Decidable (_ ∨ _))

theorem isBare_iff : IsBare t ↔ ∃ final, inner? t = some ([], final) := by
  simp only [IsBare, inner?_eq_some_iff, or_and_right, exists_or, exists_eq_left, List.append_nil]

-- What is extracted stands between the markers on lines of its own, or the markers are all.
theorem extract_eq_some_iff :
    extract t = some body ↔
      ∃ inner final, inner? t = some (inner, final) ∧
        (inner = body ++ lineFeed ∨ inner = [] ∧ body = []) := by
  rw [extract, Option.bind_eq_bind, Option.bind_eq_some_iff, Prod.exists]
  refine exists₂_congr fun inner final => and_congr_right fun _ => ?_
  by_cases hempty : inner = []
  · subst hempty
    constructor
    · intro h
      exact .inr ⟨rfl, (Option.some.inj h).symm⟩
    · rintro (h | ⟨-, rfl⟩)
      · simp [lineFeed] at h
      · rfl
  · simp [hempty, beforeSuffix?_eq_some_iff]

theorem eq_wrap_of_inner? (h : inner? t = some (body ++ lineFeed, final)) :
    (final = [] ∨ final = lineFeed) ∧ t = wrap body ++ final := by
  obtain ⟨hfinal, rfl⟩ := inner?_eq_some_iff.mp h
  exact ⟨hfinal, by simp only [wrap, List.append_assoc]⟩

-- Putting back what was extracted changes nothing, unless it makes a third line.
theorem replace_extracted_iff (h : extract t = some body) : replace t body = t ↔ ¬IsBare t := by
  obtain ⟨inner, final, hinner, rfl | ⟨rfl, rfl⟩⟩ := extract_eq_some_iff.mp h
  · obtain ⟨hfinal, rfl⟩ := eq_wrap_of_inner? hinner
    refine iff_of_true (replace_wrap body body hfinal) ?_
    rw [isBare_iff, hinner]
    simp [lineFeed]
  · have hbare : IsBare t := isBare_iff.mpr ⟨final, hinner⟩
    refine iff_of_false (fun hsame => ?_) (not_not_intro hbare)
    rw [replace_of_inner? hinner] at hsame
    have hwrapped := inner?_wrap [] (inner?_eq_some_iff.mp hinner).1
    rw [hsame, hinner] at hwrapped
    simp [lineFeed] at hwrapped

-- Replacing is putting, and extracting is getting: what was put in is got back, a second body takes
-- the place of the first, and what was got may be put back.
theorem replace_puts_what_extract_gets (t : Text) :
    (hasRegion t = true → ∀ body,
      replace t body = wrap body ++ (if t.EndsInFeed then lineFeed else []) ∧
        hasRegion (replace t body) = true ∧ extract (replace t body) = some body ∧
        ∀ next, replace (replace t body) next = replace t next) ∧
    (hasRegion t = false → ∀ body, replace t body = t) ∧
    ∀ body, extract t = some body → (replace t body = t ↔ ¬IsBare t) := by
  refine ⟨fun hregion body => ?_, replace_of_not_hasRegion, fun body => replace_extracted_iff⟩
  obtain ⟨inner, final, hinner⟩ := hasRegion_eq_true_iff.mp hregion
  have hfinal := (inner?_eq_some_iff.mp hinner).1
  have hreplaced := replace_of_inner? hinner
  have hends : final = if t.EndsInFeed then lineFeed else [] := final_eq_of_inner? hinner
  refine ⟨hends ▸ hreplaced body, ?_, ?_, fun next => ?_⟩
  · rw [hreplaced]
    exact hasRegion_wrap body hfinal
  · rw [hreplaced]
    exact extract_wrap body hfinal
  · rw [hreplaced, hreplaced]
    exact replace_wrap body next hfinal

-- A region that already holds markers, and a body that holds them, too.
theorem replace_puts_markers :
    let t : Text := wrap ("old\n" ++ endMarker ++ "\n" ++ startMarker) ++ lineFeed
    let body : Text := wrap "new\\1" ++ lineFeed
    hasRegion t = true ∧ replace t body = wrap body ++ lineFeed ∧
      extract (replace t body) = some body ∧ replace (replace t body) "next" = replace t "next" ∧
      replace (replace t body) body = replace t body := by
  intro t body
  have hregion : hasRegion t = true := by decide +kernel
  obtain ⟨hput, -, hget, hforget⟩ := (replace_puts_what_extract_gets t).1 hregion body
  have hends : t.EndsInFeed := by decide +kernel
  rw [if_pos hends] at hput
  exact ⟨hregion, hput, hget, hforget "next", hforget body⟩

-- The first and the last line of a text. A line feed at the end begins no other line.
def firstLine (t : Text) : Text :=
  (printedLines t).head?.getD []

def lastLine (t : Text) : Text :=
  (printedLines t).getLast?.getD []

-- The start marker is the whole first line, and the end marker the whole last line.
def IsFramed (t : Text) : Prop :=
  firstLine t = startMarker ∧ lastLine t = endMarker

-- The start marker is the whole first line, and the end marker stands on the last line behind
-- something else.
def SharesLastLine (t : Text) : Prop :=
  firstLine t = startMarker ∧ endMarker <:+ lastLine t ∧ lastLine t ≠ endMarker

instance (t : Text) : Decidable (IsFramed t) :=
  inferInstanceAs (Decidable (_ ∧ _))

instance (t : Text) : Decidable (SharesLastLine t) :=
  inferInstanceAs (Decidable (_ ∧ _))

-- The end marker has a line of its own if a line feed stands right before it.
theorem isSome_extract_iff (h : inner? t = some (inner, final)) :
    (extract t).isSome = true ↔ EndsInFeed (startMarker ++ lineFeed ++ inner) := by
  rw [Option.isSome_iff_exists]
  simp only [extract_eq_some_iff, h, Option.some.injEq, Prod.mk.injEq]
  by_cases hinner : inner = []
  · subst hinner
    exact iff_of_true ⟨[], [], final, ⟨rfl, rfl⟩, .inr ⟨rfl, rfl⟩⟩ (by decide)
  · rw [Text.endsInFeed_append _ hinner, EndsInFeed, List.getLast?_eq_some_iff]
    constructor
    · rintro ⟨body, _, _, ⟨rfl, rfl⟩, rfl | ⟨rfl, -⟩⟩
      · exact ⟨body, rfl⟩
      · exact (hinner rfl).elim
    · rintro ⟨body, rfl⟩
      exact ⟨body, _, final, ⟨rfl, rfl⟩, .inl rfl⟩

theorem firstLine_append (first rest : Text) (h : .scalar '\n' ∉ first) :
    firstLine (first ++ .scalar '\n' :: rest) = first := by
  rw [firstLine, Text.printedLines_append h]
  rfl

theorem lastLine_append (front : Text) {last final : Text} (h : .scalar '\n' ∉ last)
    (hne : last ≠ []) (hfinal : final = [] ∨ final = lineFeed) :
    lastLine (front ++ .scalar '\n' :: (last ++ final)) = last := by
  have hlast : printedLines (last ++ final) = [last] := by
    rcases hfinal with rfl | rfl
    · rw [List.append_nil]
      exact Text.printedLines_of_not_mem h hne
    · exact Text.printedLines_append h []
  rw [lastLine, Text.printedLines_append_feed, hlast, List.getLast?_concat]
  rfl

-- A region begins with the line of the start marker, and ends with a line that the end marker ends.
theorem exists_lines_of_inner? (h : inner? t = some (inner, final)) :
    firstLine t = startMarker ∧ ∃ back, lastLine t = back ++ endMarker ∧
      ((extract t).isSome = true ↔ back = []) := by
  have hmarkers : .scalar '\n' ∉ startMarker ∧ .scalar '\n' ∉ endMarker := by decide
  obtain ⟨hfinal, ht⟩ := inner?_eq_some_iff.mp h
  have hmem : .scalar '\n' ∈ startMarker ++ lineFeed ++ inner := by simp [lineFeed]
  obtain ⟨front, back, hsplit, hback⟩ := Text.exists_eq_append_feed hmem
  refine ⟨?_, back, ?_, ?_⟩
  · have hfirst := firstLine_append startMarker (inner ++ endMarker ++ final) hmarkers.1
    rw [ht]
    simpa only [lineFeed, List.append_assoc, List.cons_append, List.nil_append] using hfirst
  · have hend : .scalar '\n' ∉ back ++ endMarker := by
      rw [List.mem_append]
      exact not_or_intro hback hmarkers.2
    have hne : back ++ endMarker ≠ [] := List.append_ne_nil_of_right_ne_nil back (by decide)
    have hlast := lastLine_append front hend hne hfinal
    rw [ht, hsplit]
    simpa only [List.append_assoc, List.cons_append] using hlast
  · rw [isSome_extract_iff h, hsplit, Text.endsInFeed_split_iff hback]

-- A text whose first line is the start marker and whose last line ends with the end marker has a
-- region.
theorem hasRegion_of_lines (hfirst : firstLine t = startMarker)
    (hlast : endMarker <:+ lastLine t) : hasRegion t = true := by
  have hstart : startMarker ≠ [] := by decide
  have hapart : ¬endMarker <:+ startMarker := by decide
  obtain ⟨back, hback⟩ := hlast
  cases hlines : printedLines t with
  | nil => simp [firstLine, hlines, hstart.symm] at hfirst
  | cons first more =>
    rw [firstLine, hlines] at hfirst
    obtain rfl : first = startMarker := hfirst
    rw [lastLine, hlines] at hback
    rcases List.eq_nil_or_concat' more with rfl | ⟨middle, last, rfl⟩
    · exact (hapart ⟨back, hback⟩).elim
    · rw [← List.cons_append, List.getLast?_concat, Option.getD_some] at hback
      subst hback
      rw [← List.cons_append] at hlines
      obtain ⟨final, hfinal, ht⟩ := Text.eq_of_printedLines hlines
      have hinner : inner? t =
          some (middle.flatMap (· ++ [.scalar '\n']) ++ back, final) := by
        refine inner?_eq_some_iff.mpr ⟨hfinal, ht.trans ?_⟩
        simp only [List.flatMap_cons, lineFeed, List.append_assoc]
      exact hasRegion_of_inner? hinner

-- Replacing finds a region exactly where the start marker is the first line and the end marker ends
-- the last one.
theorem hasRegion_iff_lines :
    hasRegion t = true ↔ firstLine t = startMarker ∧ endMarker <:+ lastLine t := by
  constructor
  · intro h
    obtain ⟨inner, final, hinner⟩ := hasRegion_eq_true_iff.mp h
    obtain ⟨hfirst, back, hlast, -⟩ := exists_lines_of_inner? hinner
    exact ⟨hfirst, back, hlast.symm⟩
  · rintro ⟨hfirst, hlast⟩
    exact hasRegion_of_lines hfirst hlast

-- Extracting finds one exactly where both markers are whole lines.
theorem isSome_extract_iff_isFramed : (extract t).isSome = true ↔ IsFramed t := by
  constructor
  · intro h
    obtain ⟨body, hbody⟩ := Option.isSome_iff_exists.mp h
    obtain ⟨inner, final, hinner, -⟩ := extract_eq_some_iff.mp hbody
    obtain ⟨hfirst, back, hlast, hown⟩ := exists_lines_of_inner? hinner
    rw [hown.mp h, List.nil_append] at hlast
    exact ⟨hfirst, hlast⟩
  · rintro ⟨hfirst, hlast⟩
    have hregion := hasRegion_of_lines hfirst (hlast ▸ List.suffix_refl endMarker)
    obtain ⟨inner, final, hinner⟩ := hasRegion_eq_true_iff.mp hregion
    obtain ⟨-, back, hback, hown⟩ := exists_lines_of_inner? hinner
    rw [hlast] at hback
    exact hown.mpr (List.append_left_eq_self.mp hback.symm)

theorem hasRegion_iff_framed_or_shares :
    hasRegion t = true ↔ IsFramed t ∨ SharesLastLine t := by
  rw [hasRegion_iff_lines, IsFramed, SharesLastLine, ← and_or_left]
  refine and_congr_right fun _ => ⟨fun h => ?_, ?_⟩
  · exact (em (lastLine t = endMarker)).imp_right fun hne => ⟨h, hne⟩
  · rintro (h | ⟨h, -⟩)
    · exact h ▸ List.suffix_refl endMarker
    · exact h

theorem not_isFramed_of_shares (h : SharesLastLine t) : ¬IsFramed t :=
  fun hframed => h.2.2 hframed.2

-- What has a region is framed once its body was replaced.
theorem isFramed_replace (h : hasRegion t = true) (body : Text) : IsFramed (replace t body) := by
  obtain ⟨inner, final, hinner⟩ := hasRegion_eq_true_iff.mp h
  rw [← isSome_extract_iff_isFramed, replace_of_inner? hinner,
    extract_wrap body (inner?_eq_some_iff.mp hinner).1]
  rfl

-- Replacing and extracting agree on what a region is, and leave alone whatever is not framed by the
-- markers, exactly if the end marker does not stand behind something else on the last line.
theorem regions_agree_iff (t : Text) :
    ((extract t).isSome = true ↔ IsFramed t) ∧
    (hasRegion t = true ↔ IsFramed t ∨ SharesLastLine t) ∧
    ((hasRegion t = true ↔ (extract t).isSome = true) ↔ ¬SharesLastLine t) ∧
    ∀ body, (IsFramed t ∨ replace t body = t) ↔ ¬SharesLastLine t := by
  refine ⟨isSome_extract_iff_isFramed, hasRegion_iff_framed_or_shares, ?_, fun body => ?_⟩
  · rw [hasRegion_iff_framed_or_shares, isSome_extract_iff_isFramed, or_iff_left_iff_imp]
    exact ⟨fun h hshares => not_isFramed_of_shares hshares (h hshares), fun h => h.elim⟩
  · by_cases hshares : SharesLastLine t
    · refine iff_of_false ?_ (not_not_intro hshares)
      have hnot := not_isFramed_of_shares hshares
      rintro (hframed | hsame)
      · exact hnot hframed
      · have hregion := hasRegion_iff_framed_or_shares.mpr (.inr hshares)
        exact hnot (hsame ▸ isFramed_replace hregion body)
    · refine iff_of_true ?_ hshares
      rw [or_iff_not_imp_left]
      intro hnot
      refine replace_of_not_hasRegion (Bool.eq_false_iff.mpr fun hregion => ?_) body
      exact (hasRegion_iff_framed_or_shares.mp hregion).elim hnot hshares

-- Text before the end marker on its line is no body to extracting, and is gone after replacing.
theorem replace_drops_shared_last_line :
    let t : Text := "<!-- docgen-tsdoc-replacer:start -->\nold <!-- docgen-tsdoc-replacer:end -->"
    SharesLastLine t ∧ ¬IsFramed t ∧ hasRegion t = true ∧ extract t = none ∧
      replace t "new" = wrap "new" ∧ replace t "new" ≠ t := by
  intro t
  have hshares : SharesLastLine t := by decide +kernel
  have hreplaced : replace t "new" = wrap "new" := by decide +kernel
  have hregion : hasRegion t = true := hasRegion_iff_framed_or_shares.mpr (.inr hshares)
  have hnot : ¬IsFramed t := not_isFramed_of_shares hshares
  refine ⟨hshares, hnot, hregion, ?_, hreplaced, fun hsame => ?_⟩
  · rw [← Option.not_isSome_iff_eq_none, isSome_extract_iff_isFramed]
    exact hnot
  · exact hnot (hsame ▸ isFramed_replace hregion "new")

end ReadmeTables.Region
