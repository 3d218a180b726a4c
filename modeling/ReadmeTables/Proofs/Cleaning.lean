import ReadmeTables.Proofs.Markdown
/-!
Cleaning a description before or after it is joined with a name.

Cleaning writes a space for the first line feed and keeps every other code point, so of texts that
are joined it changes the first one that has a line feed, and no other. Main statement: the row of
an accessor and that of a function differ by a space at the end alone exactly if their name has no
line feed, and a list of events has the texts of its tags, each with its first line feed turned
into a space.
-/

namespace ReadmeTables

namespace Text

variable {old new : CodePoint} {t : Text}

theorem replaceFirst_append_of_mem (h : old ∈ t) (u : Text) :
    replaceFirst old new (t ++ u) = replaceFirst old new t ++ u := by
  induction t with
  | nil => simp at h
  | cons c rest ih =>
    rw [List.cons_append, replaceFirst, replaceFirst]
    by_cases hc : c = old
    · simp [hc]
    · have hrest : old ∈ rest := (List.mem_cons.mp h).resolve_left (Ne.symm hc)
      simp [hc, ih hrest]

theorem replaceFirst_append_of_not_mem (h : old ∉ t) (u : Text) :
    replaceFirst old new (t ++ u) = t ++ replaceFirst old new u := by
  induction t with
  | nil => rfl
  | cons c rest ih =>
    obtain ⟨hc, hrest⟩ := List.ne_and_not_mem_of_not_mem_cons h
    rw [List.cons_append, replaceFirst, if_neg (Ne.symm hc), ih hrest, List.cons_append]

-- Where there is something to replace, the text changes.
theorem replaceFirst_eq_self_iff (hne : new ≠ old) : replaceFirst old new t = t ↔ old ∉ t := by
  constructor
  · intro hsame hmem
    induction t with
    | nil => simp at hmem
    | cons c rest ih =>
      rw [replaceFirst] at hsame
      by_cases hc : c = old
      · rw [if_pos hc, List.cons.injEq] at hsame
        exact hne (hsame.1.trans hc)
      · rw [if_neg hc, List.cons.injEq] at hsame
        exact ih hsame.2 ((List.mem_cons.mp hmem).resolve_left (Ne.symm hc))
  · exact replaceFirst_of_not_mem

-- The first `c` of a text stands at place `i`.
def IsFirstAt (c : CodePoint) (t : Text) (i : Nat) : Prop :=
  t[i]? = some c ∧ c ∉ t.take i

instance (c : CodePoint) (t : Text) (i : Nat) : Decidable (IsFirstAt c t i) :=
  inferInstanceAs (Decidable (_ ∧ _))

theorem isFirstAt_zero {c d : CodePoint} : IsFirstAt c (d :: t) 0 ↔ d = c := by
  simp [IsFirstAt]

theorem isFirstAt_succ {c d : CodePoint} {i : Nat} :
    IsFirstAt c (d :: t) (i + 1) ↔ d ≠ c ∧ IsFirstAt c t i := by
  simp only [IsFirstAt, List.getElem?_cons_succ, List.take_succ_cons, List.mem_cons, not_or]
  constructor
  · rintro ⟨hat, hne, hbefore⟩
    exact ⟨Ne.symm hne, hat, hbefore⟩
  · rintro ⟨hne, hat, hbefore⟩
    exact ⟨hat, Ne.symm hne, hbefore⟩

theorem getElem?_replaceFirst (old new : CodePoint) (t : Text) (i : Nat) :
    (replaceFirst old new t)[i]? = if IsFirstAt old t i then some new else t[i]? := by
  induction t generalizing i with
  | nil => simp [replaceFirst, IsFirstAt]
  | cons c rest ih =>
    rw [replaceFirst]
    cases i with
    | zero => by_cases hc : c = old <;> simp [isFirstAt_zero, hc]
    | succ i =>
      by_cases hc : c = old
      · simp [isFirstAt_succ, hc]
      · simp [isFirstAt_succ, hc, ih]

end Text

namespace Markdown

open Reflection (Tag Comment Signature Node)

variable {callable accessor : Node} {shortText : Text}

def lineFeed : CodePoint := .scalar '\n'

def space : CodePoint := .scalar ' '

-- A text has a space where another has its first line feed, and is the same everywhere else.
def IsCleaned (t cleaned : Text) : Prop :=
  ∀ i : Nat, cleaned[i]? = if Text.IsFirstAt lineFeed t i then some space else t[i]?

theorem isCleaned_iff {t cleaned : Text} : IsCleaned t cleaned ↔ cleaned = clean t := by
  constructor
  · intro h
    refine List.ext_getElem? fun i => ?_
    rw [h i, clean, Text.getElem?_replaceFirst]
    rfl
  · rintro rfl i
    exact Text.getElem?_replaceFirst _ _ _ _

theorem clean_append (t u : Text) :
    clean (t ++ u) = if lineFeed ∈ t then clean t ++ u else t ++ clean u := by
  split
  · rename_i h
    exact Text.replaceFirst_append_of_mem h u
  · rename_i h
    exact Text.replaceFirst_append_of_not_mem h u

theorem clean_eq_self_iff {t : Text} : clean t = t ↔ lineFeed ∉ t :=
  Text.replaceFirst_eq_self_iff (by decide)

-- What is between the name and the description of a row.
def gap : Text := " | "

theorem functionRow_of_signatureText (h : signatureText? callable = some shortText) :
    functionRow callable = callable.name ++ gap ++ clean shortText ++ " \n" := by
  rw [functionRow_eq, h]
  rfl

theorem accessorRow_of_shortText (h : accessor.comment.bind Comment.shortText = some shortText) :
    accessorRow accessor = clean (accessor.name ++ gap ++ shortText) ++ "\n" := by
  obtain ⟨comment, hcomment, hshort⟩ := Option.bind_eq_some_iff.mp h
  rw [accessorRow, hcomment]
  simp only [hshort, Option.getD_some]
  rfl

-- Joined with a name in front, a description is cleaned as it is alone exactly if the name has no
-- line feed: otherwise the one in the name is taken for it.
theorem clean_row_iff (name shortText : Text) :
    clean (name ++ gap ++ shortText) = name ++ gap ++ clean shortText ↔ lineFeed ∉ name := by
  by_cases hname : lineFeed ∈ name
  · have hjoined : clean (name ++ gap ++ shortText) = clean name ++ (gap ++ shortText) := by
      rw [List.append_assoc, clean_append, if_pos hname]
    rw [hjoined, List.append_assoc]
    refine iff_of_false (fun hsame => ?_) (not_not_intro hname)
    have hlength : (clean name).length = name.length := Text.length_replaceFirst _ _ _
    exact clean_eq_self_iff.mp (List.append_inj_left hsame hlength) hname
  · have hfront : lineFeed ∉ name ++ gap := by
      rw [List.mem_append, not_or]
      exact ⟨hname, by decide⟩
    rw [clean_append, if_neg hfront]
    exact iff_of_true rfl hname

-- The item of a list whose text is clean.
def itemOf (cleaned : Text) : Text :=
  "- " ++ cleaned ++ "\n"

-- Of two joined texts, cleaning changes the first if it has a line feed, and the second otherwise.
-- So a callable and an accessor of one name and one description have rows that differ by the space
-- at the end of the callable's exactly if the name has no line feed. A list of events has the texts
-- of its tags, in order, each with its first line feed turned into a space.
theorem rows_differ_by_space_iff :
    (∀ t u : Text, clean (t ++ u) = if lineFeed ∈ t then clean t ++ u else t ++ clean u) ∧
    (∀ (callable accessor : Node) (name shortText : Text),
      callable.name = name → accessor.name = name → signatureText? callable = some shortText →
      accessor.comment.bind Comment.shortText = some shortText →
      ∃ line : Text, functionRow callable = line ++ " \n" ∧
        (accessorRow accessor = line ++ "\n" ↔ lineFeed ∉ name)) ∧
    ∀ tags : List Tag, ∃ texts : List Text,
      List.Forall₂ (fun tag text => IsCleaned tag.text text) tags texts ∧
      eventList tags = "### Events\n\n" ++ texts.flatMap itemOf ++ "\n" := by
  refine ⟨clean_append, ?_, fun tags => ?_⟩
  · rintro callable accessor name shortText rfl hname hsignature hcomment
    refine ⟨_, functionRow_of_signatureText hsignature, ?_⟩
    rw [accessorRow_of_shortText hcomment, hname, List.append_left_inj]
    exact clean_row_iff callable.name shortText
  · refine ⟨tags.map fun tag => clean tag.text, ?_, ?_⟩
    · rw [List.forall₂_map_right_iff, List.forall₂_same]
      exact fun tag _ => isCleaned_iff.mpr rfl
    · rw [List.flatMap_map]
      rfl

-- A method and an accessor, under a name in one line and under a name in two.
theorem rows_differ_of_two_names :
    let described : Option Comment := some ⟨some "Opens\nit.", none, []⟩
    let callable (name : Text) : Node := ⟨name, .method, none, none, some [⟨"", described⟩]⟩
    let accessor (name : Text) : Node := ⟨name, .accessor, none, described, none⟩
    (∀ name ∈ (["open", "open\nall"] : List Text),
      signatureText? (callable name) = some "Opens\nit." ∧
      (accessor name).comment.bind Comment.shortText = some "Opens\nit." ∧
      ∃ line : Text, functionRow (callable name) = line ++ " \n" ∧
        (accessorRow (accessor name) = line ++ "\n" ↔ lineFeed ∉ name)) ∧
    functionRow (callable "open\nall") = ("open\nall | Opens it. \n" : String) ∧
    accessorRow (accessor "open\nall") = ("open all | Opens\nit.\n" : String) := by
  intro described callable accessor
  refine ⟨fun name _ => ?_, rfl, rfl⟩
  have hsignature : signatureText? (callable name) = some "Opens\nit." := rfl
  have hcomment : (accessor name).comment.bind Comment.shortText = some "Opens\nit." := rfl
  exact ⟨hsignature, hcomment,
    rows_differ_by_space_iff.2.1 _ _ name _ rfl rfl hsignature hcomment⟩

end Markdown

end ReadmeTables
