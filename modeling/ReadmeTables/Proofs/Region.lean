import ReadmeTables.Region
import ReadmeTables.Proofs.Text.Characters
import ReadmeTables.Proofs.Text.LineEnds
/-!
Where a region is, and what becomes of it when a text is written and read again.

Main statements: the parts of a region are those whose pieces make up the text, replacing a
body leaves a region with the new body, and a region that was replaced is one again after all
line ends were made equal.
-/

namespace ReadmeTables.Region

theorem splitFinal_append_lineFeed (t : Text) : splitFinal (t ++ lineFeed) = (t, lineFeed) := by
  rw [splitFinal, beforeSuffix?_eq_some_iff.mpr rfl]

theorem splitFinal_of_last {t : Text} (h : t.getLast? ≠ some (.scalar '\n')) :
    splitFinal t = (t, []) := by
  cases hs : beforeSuffix? lineFeed t with
  | none => rw [splitFinal, hs]
  | some rest =>
    rw [beforeSuffix?_eq_some_iff] at hs
    subst hs
    simp [lineFeed] at h

theorem splitFinal_cases (t : Text) :
    (splitFinal t).1 ++ (splitFinal t).2 = t ∧
      ((splitFinal t).2 = [] ∨ (splitFinal t).2 = lineFeed) := by
  cases hs : beforeSuffix? lineFeed t with
  | none => simp [splitFinal, hs]
  | some rest =>
    rw [beforeSuffix?_eq_some_iff] at hs
    subst hs
    simp [splitFinal_append_lineFeed]

theorem getLast?_append_endMarker (t : Text) :
    (t ++ endMarker).getLast? = some (.scalar '>') := by
  rw [List.getLast?_append]
  rfl

-- A region is a first line, what it holds, an end marker and at most one line feed.
theorem inner?_eq_some_iff {t inner final : Text} :
    inner? t = some (inner, final) ↔
      (final = [] ∨ final = lineFeed) ∧
        t = startMarker ++ lineFeed ++ inner ++ endMarker ++ final := by
  constructor
  · intro h
    simp only [inner?, Option.bind_eq_bind, Option.bind_eq_some_iff, afterPrefix?_eq_some_iff,
      beforeSuffix?_eq_some_iff, Option.some.injEq, Prod.mk.injEq] at h
    obtain ⟨after, rfl, found, hinner, rfl, rfl⟩ := h
    obtain ⟨hsplit, hfinal⟩ := splitFinal_cases after
    refine ⟨hfinal, ?_⟩
    calc startMarker ++ lineFeed ++ after
        = startMarker ++ lineFeed ++ ((splitFinal after).1 ++ (splitFinal after).2) := by rw [hsplit]
      _ = startMarker ++ lineFeed ++ (found ++ endMarker ++ (splitFinal after).2) := by rw [hinner]
      _ = startMarker ++ lineFeed ++ found ++ endMarker ++ (splitFinal after).2 := by
        simp only [List.append_assoc]
  · rintro ⟨hfinal, rfl⟩
    have hsplit : splitFinal (inner ++ endMarker ++ final) = (inner ++ endMarker, final) := by
      rcases hfinal with rfl | rfl
      · rw [List.append_nil]
        apply splitFinal_of_last
        rw [getLast?_append_endMarker]
        decide
      · exact splitFinal_append_lineFeed _
    have hstart : afterPrefix? (startMarker ++ lineFeed)
        (startMarker ++ lineFeed ++ inner ++ endMarker ++ final) =
        some (inner ++ endMarker ++ final) :=
      afterPrefix?_eq_some_iff.mpr (by simp only [List.append_assoc])
    have hend : beforeSuffix? endMarker (inner ++ endMarker) = some inner :=
      beforeSuffix?_eq_some_iff.mpr rfl
    simp only [inner?, hstart, hsplit, hend, Option.bind_eq_bind, Option.bind_some]

theorem inner?_wrap (body : Text) {final : Text} (h : final = [] ∨ final = lineFeed) :
    inner? (wrap body ++ final) = some (body ++ lineFeed, final) :=
  inner?_eq_some_iff.mpr ⟨h, by simp only [wrap, List.append_assoc]⟩

theorem extract_wrap (body : Text) {final : Text} (h : final = [] ∨ final = lineFeed) :
    extract (wrap body ++ final) = some body := by
  have hbody : beforeSuffix? lineFeed (body ++ lineFeed) = some body :=
    beforeSuffix?_eq_some_iff.mpr rfl
  have hne : (body ++ lineFeed).isEmpty = false := by simp [lineFeed]
  simp only [extract, inner?_wrap body h, Option.bind_eq_bind, Option.bind_some, hne, hbody,
    Bool.false_eq_true, if_false]

-- What follows the end marker is the line feed that the text ends with, if it ends with one.
theorem final_eq_of_inner? {t inner final : Text} (h : inner? t = some (inner, final)) :
    final = if t.getLast? = some (.scalar '\n') then lineFeed else [] := by
  obtain ⟨hfinal, rfl⟩ := inner?_eq_some_iff.mp h
  rcases hfinal with rfl | rfl
  · rw [List.append_nil, getLast?_append_endMarker]
    rfl
  · rw [lineFeed, List.getLast?_concat]
    rfl

theorem replace_of_inner? {t inner final : Text} (h : inner? t = some (inner, final))
    (body : Text) : replace t body = wrap body ++ final := by
  rw [replace, h]

theorem replace_of_not_hasRegion {t : Text} (h : hasRegion t = false) (body : Text) :
    replace t body = t := by
  rw [hasRegion, Option.isSome_eq_false_iff, Option.isNone_iff_eq_none] at h
  rw [replace, h]

theorem hasRegion_eq_true_iff {t : Text} :
    hasRegion t = true ↔ ∃ inner final, inner? t = some (inner, final) := by
  rw [hasRegion, Option.isSome_iff_exists]
  exact Prod.exists

-- The characters of the markers.
def startChars : List Char := "<!-- docgen-tsdoc-replacer:start -->".toList

def endChars : List Char := "<!-- docgen-tsdoc-replacer:end -->".toList

theorem startMarker_eq : startMarker = Text.ofChars startChars := rfl

theorem endMarker_eq : endMarker = Text.ofChars endChars := rfl

theorem lineFeed_eq : lineFeed = Text.ofChars ['\n'] := rfl

theorem not_hasRegion_of_inner? {t : Text} (h : inner? t = none) : hasRegion t = false := by
  rw [hasRegion, h]
  rfl

theorem hasRegion_of_inner? {t inner final : Text} (h : inner? t = some (inner, final)) :
    hasRegion t = true := by
  rw [hasRegion, h]
  rfl

theorem exists_chars_of_wrap_iff {body final : Text} (h : final = [] ∨ final = lineFeed) :
    (∃ cs, wrap body ++ final = Text.ofChars cs) ↔ ∀ p ∈ body, p.isSurrogate = false := by
  have hstart : ∀ p ∈ startMarker ++ lineFeed, p.isSurrogate = false := by decide
  have hend : ∀ p ∈ lineFeed ++ endMarker ++ final, p.isSurrogate = false := by
    rcases h with rfl | rfl <;> decide
  rw [Text.exists_chars_iff]
  constructor
  · intro hall p hp
    exact hall p (by simp [wrap, hp])
  · intro hbody p hp
    have hparts : p ∈ startMarker ++ lineFeed ∨ p ∈ body ∨ p ∈ lineFeed ++ endMarker ++ final := by
      simpa [wrap, or_assoc] using hp
    rcases hparts with hp | hp | hp
    · exact hstart p hp
    · exact hbody p hp
    · exact hend p hp

theorem return_mem_wrap_iff {body final : Text} (h : final = [] ∨ final = lineFeed) :
    CodePoint.scalar '\r' ∈ wrap body ++ final ↔ CodePoint.scalar '\r' ∈ body := by
  have hstart : CodePoint.scalar '\r' ∉ startMarker ++ lineFeed := by decide
  have hend : CodePoint.scalar '\r' ∉ lineFeed ++ endMarker ++ final := by
    rcases h with rfl | rfl <;> decide
  have hparts : wrap body ++ final =
      (startMarker ++ lineFeed) ++ (body ++ (lineFeed ++ endMarker ++ final)) := by
    simp only [wrap, List.append_assoc]
  rw [hparts]
  constructor
  · intro h
    have hrest := (List.mem_append.mp h).resolve_left hstart
    exact (List.mem_append.mp hrest).resolve_right hend
  · intro h
    exact List.mem_append_right _ (List.mem_append_left _ h)

-- The characters of a region keep their first line and their end marker when line ends are
-- made equal, whatever stands between the two.
theorem unifyLineEnds_region (inner : List Char) {final : List Char}
    (h : final = [] ∨ final = ['\n']) :
    Text.unifyLineEnds (startChars ++ ['\n'] ++ inner ++ endChars ++ final) =
      startChars ++ ['\n'] ++ Text.unifyLineEnds inner ++ endChars ++ final := by
  have hstart : '\r' ∉ startChars ++ ['\n'] := by decide
  have hend : '\r' ∉ endChars ++ final := by
    rcases h with rfl | rfl <;> decide
  have hhead : (endChars ++ final).head? ≠ some '\n' := by
    rcases h with rfl | rfl <;> decide
  calc Text.unifyLineEnds (startChars ++ ['\n'] ++ inner ++ endChars ++ final)
      = Text.unifyLineEnds (startChars ++ ['\n'] ++ (inner ++ (endChars ++ final))) := by
        simp only [List.append_assoc]
    _ = startChars ++ ['\n'] ++ (Text.unifyLineEnds inner ++ (endChars ++ final)) := by
        rw [Text.unifyLineEnds_append_left _ hstart, Text.unifyLineEnds_append _ hhead,
          Text.unifyLineEnds_eq_self hend]
    _ = startChars ++ ['\n'] ++ Text.unifyLineEnds inner ++ endChars ++ final := by
        simp only [List.append_assoc]

-- What was written between the markers is a region again when it is read, with the same end.
theorem inner?_reread {body final : Text} {cs : List Char} (hfinal : final = [] ∨ final = lineFeed)
    (h : wrap body ++ final = Text.ofChars cs) :
    ∃ inner, inner? (Text.ofChars (Text.unifyLineEnds cs)) = some (inner, final) := by
  obtain ⟨fs, hfs, hf⟩ : ∃ fs, final = Text.ofChars fs ∧ (fs = [] ∨ fs = ['\n']) := by
    rcases hfinal with rfl | rfl
    · exact ⟨[], rfl, .inl rfl⟩
    · exact ⟨['\n'], rfl, .inr rfl⟩
  have hparts : (startMarker ++ lineFeed ++ (body ++ lineFeed)) ++ (endMarker ++ final) =
      Text.ofChars cs := by
    rw [← h]
    simp only [wrap, List.append_assoc]
  obtain ⟨front, back, hfront, hback, rfl⟩ := Text.exists_chars_of_append hparts
  obtain ⟨start, inner, hstart, hinner, rfl⟩ := Text.exists_chars_of_append hfront
  have hs : start = startChars ++ ['\n'] := by
    apply Text.ofChars_injective
    rw [← hstart, Text.ofChars_append, startMarker_eq, lineFeed_eq]
  have hb : back = endChars ++ fs := by
    apply Text.ofChars_injective
    rw [← hback, Text.ofChars_append, endMarker_eq, hfs]
  subst hs hb
  refine ⟨Text.ofChars (Text.unifyLineEnds inner), inner?_eq_some_iff.mpr ⟨hfinal, ?_⟩⟩
  rw [← List.append_assoc, unifyLineEnds_region inner hf, startMarker_eq, lineFeed_eq, endMarker_eq,
    hfs]
  simp only [Text.ofChars_append]

end ReadmeTables.Region
