import ReadmeTables.Extraction
import ReadmeTables.Proofs.Patch.Own
import ReadmeTables.Proofs.Text.Cuts
import ReadmeTables.Proofs.Text.Names
/-!
Where the READMEs of components lie.

A key without a slash is the name of a directory as it stands, unless it is empty or one or two
dots. Main statements: a path that goes on by such a name leads into the directory that the path
before it leads to, and components whose keys are such names, and different names for the system,
have READMEs of their own.
-/

namespace ReadmeTables

namespace Text

theorem mem_of_includes {part t : Text} (h : includes part t = true) {p : CodePoint}
    (hp : p ∈ part) : p ∈ t := by
  induction t with
  | nil =>
    rw [includes, List.isEmpty_iff] at h
    subst h
    simp at hp
  | cons c rest ih =>
    rw [includes, Bool.or_eq_true, List.isPrefixOf_iff_prefix] at h
    rcases h with hprefix | hrest
    · exact hprefix.subset hp
    · exact List.mem_cons_of_mem _ (ih hrest)

theorem mem_join {separator part : Text} {parts : List Text} (hpart : part ∈ parts)
    {p : CodePoint} (hp : p ∈ part) : p ∈ join separator parts := by
  induction parts with
  | nil => simp at hpart
  | cons first rest ih =>
    cases rest with
    | nil =>
      obtain rfl := List.mem_singleton.mp hpart
      exact hp
    | cons second others =>
      rw [join, List.mem_append, List.mem_append]
      rcases List.mem_cons.mp hpart with rfl | hpart
      · exact .inl (.inl hp)
      · exact .inr (ih hpart)

theorem mem_of_mem_join {separator : Text} {parts : List Text} {p : CodePoint}
    (h : p ∈ join separator parts) : p ∈ separator ∨ ∃ part ∈ parts, p ∈ part := by
  induction parts with
  | nil => simp [join] at h
  | cons first rest ih =>
    cases rest with
    | nil => exact .inr ⟨first, List.mem_cons_self, h⟩
    | cons second others =>
      rw [join, List.mem_append, List.mem_append] at h
      rcases h with (hfirst | hseparator) | hrest
      · exact .inr ⟨first, List.mem_cons_self, hfirst⟩
      · exact .inl hseparator
      · obtain hseparator | ⟨part, hpart, hp⟩ := ih hrest
        · exact .inl hseparator
        · exact .inr ⟨part, List.mem_cons_of_mem _ hpart, hp⟩

theorem join_prefix (separator : Text) (parts more : List Text) :
    join separator parts <+: join separator (parts ++ more) := by
  induction parts with
  | nil => exact List.nil_prefix
  | cons first rest ih =>
    cases rest with
    | nil =>
      cases more with
      | nil => exact List.prefix_refl _
      | cons next others =>
        simp only [List.cons_append, List.nil_append, join, List.append_assoc]
        exact List.prefix_append _ _
    | cons second others =>
      simp only [List.cons_append, join]
      exact (List.prefix_append_right_inj _).mpr ih

end Text

namespace Path

-- A part that is the name of an entry of a directory, as it stands.
def IsName (part : Text) : Prop :=
  CodePoint.scalar '/' ∉ part ∧ isVoid part = false ∧ part ≠ dots

-- Going on by a text without a slash is going on by one part, or staying.
theorem child_of_not_mem {t : Text} (h : CodePoint.scalar '/' ∉ t) (p : Path) :
    p.child t = ⟨p.anchor, p.parts ++ if isVoid t then [] else [t]⟩ := by
  have hnone : t.takeWhile (· = CodePoint.scalar '/') = [] := by
    cases t with
    | nil => rfl
    | cons first rest =>
      have hfirst : first ≠ CodePoint.scalar '/' := fun e => h (by simp [e])
      simp [hfirst]
  have hanchor : Anchor.ofText t = .here := by
    rw [Anchor.ofText, hnone]
    rfl
  rw [child, ofText, hanchor, Text.cutAt_of_not_mem h, append]
  by_cases hvoid : isVoid t = true <;> simp [hvoid]

theorem child_of_isName {t : Text} (h : IsName t) (p : Path) :
    p.child t = ⟨p.anchor, p.parts ++ [t]⟩ := by
  rw [child_of_not_mem h.1, if_neg (by simp [h.2.1])]

theorem mem_text {p : Path} {part : Text} (hpart : part ∈ p.parts) {c : CodePoint}
    (hc : c ∈ part) : c ∈ p.text := by
  have hparts : p.parts ≠ [] := List.ne_nil_of_mem hpart
  rw [text, if_neg fun h => hparts h.2]
  exact List.mem_append_right _ (Text.mem_join hpart hc)

theorem text_prefix {p : Path} (h : ¬(p.anchor = .here ∧ p.parts = [])) (more : List Text) :
    p.text <+: text ⟨p.anchor, p.parts ++ more⟩ := by
  have hmore : ¬(p.anchor = .here ∧ p.parts ++ more = []) := fun e =>
    h ⟨e.1, (List.append_eq_nil_iff.mp e.2).1⟩
  rw [text, if_neg h, text, if_neg hmore]
  exact (List.prefix_append_right_inj _).mpr (Text.join_prefix _ _ _)

end Path

namespace Tree

-- Where a name leads to from a directory.
def below (location : Location) (name : Name) : Location :=
  if name = twoDots then location.tail else name :: location

-- A walk that ends with a name ends in the directory that the names before it lead to.
theorem walk_concat {tree : Tree} {start l : Location} {names : List Name} {last : Name}
    (h : tree.walk start (names ++ [last]) = .ok l) :
    ∃ base, tree.walk start names = .ok base ∧ tree.get? base = some .directory ∧
      l = below base last := by
  induction names generalizing start with
  | nil =>
    rw [List.nil_append, walk] at h
    refine ⟨start, rfl, ?_⟩
    split at h
    · simp at h
    · simp at h
    · rename_i hdirectory
      refine ⟨hdirectory, ?_⟩
      split at h
      · rename_i hdots
        rw [below, if_pos hdots]
        exact (Except.ok.inj h).symm
      · rename_i hdots
        split at h
        · simp at h
        · rw [below, if_neg hdots]
          exact (Except.ok.inj h).symm
  | cons name rest ih =>
    rw [List.cons_append, walk] at h
    rw [walk]
    split at h
    · simp at h
    · simp at h
    · split at h
      · rename_i hdots
        simp only [hdots, if_true]
        exact ih h
      · rename_i hdots
        split at h
        · simp at h
        · rename_i hlong
          simp only [hdots, hlong, if_false]
          exact ih h

end Tree

namespace World

theorem pathBytes_eq_ok_iff {p : Path} {bytes : Utf8.Bytes} :
    pathBytes p = .ok bytes ↔ Utf8.encodeName p.text = .ok bytes ∧ 0 ∉ bytes := by
  rw [pathBytes]
  cases hname : Utf8.encodeName p.text with
  | error e => simp
  | ok found =>
    by_cases hnull : 0 ∈ found
    · simp only [hnull, if_true, reduceCtorEq, false_iff, not_and, Except.ok.injEq]
      rintro rfl
      exact not_not_intro hnull
    · simp only [hnull, if_false, Except.ok.injEq, iff_self_and]
      rintro rfl
      exact hnull

-- A path that the system may be asked for goes on from one that it may be asked for.
theorem exists_pathBytes_of_append {p : Path} {more : List Text} {bytes : Utf8.Bytes}
    (h : pathBytes ⟨p.anchor, p.parts ++ more⟩ = .ok bytes) (hshort : bytes.length < pathLimit) :
    ∃ front, pathBytes p = .ok front ∧ front.length < pathLimit := by
  by_cases hdot : p.anchor = .here ∧ p.parts = []
  · -- nothing but a dot is shown for the path where it starts
    have htext : p.text = Text.ofChars ['.'] := if_pos hdot
    refine ⟨Utf8.bytesOf ['.'], pathBytes_eq_ok_iff.mpr ⟨?_, by decide⟩, by decide⟩
    rw [htext]
    exact Utf8.encodeFrom_ofChars _ 0 _
  · obtain ⟨hname, hnull⟩ := pathBytes_eq_ok_iff.mp h
    obtain ⟨tail, htail⟩ := Path.text_prefix hdot more
    rw [← htail] at hname
    obtain ⟨front, back, hfront, -, rfl⟩ := Utf8.encodeName_append_eq_ok_iff.mp hname
    rw [List.length_append] at hshort
    refine ⟨front, pathBytes_eq_ok_iff.mpr ⟨hfront, fun hmem => ?_⟩, by omega⟩
    exact hnull (List.mem_append_left _ hmem)

-- A path with one more part leads into the directory that the path leads to.
theorem locate_concat {w : World} {p : Path} {part : Text} {l : Location}
    (h : w.locate ⟨p.anchor, p.parts ++ [part]⟩ = .ok l) :
    ∃ name base, Utf8.encodeName part = .ok name ∧ w.locate p = .ok base ∧
      w.tree.get? base = some .directory ∧ l = Tree.below base name := by
  obtain ⟨bytes, hbytes, hshort, hwalk⟩ := locate_eq_ok_iff.mp h
  -- the code points of the part are among those of the path, so it has a name itself
  obtain ⟨name, hname⟩ : ∃ name, Utf8.encodeName part = .ok name := by
    rw [Utf8.exists_encodeName_iff]
    intro c hc
    have hwhole := (pathBytes_eq_ok_iff.mp hbytes).1
    exact Utf8.exists_encodeName_iff.mp ⟨bytes, hwhole⟩ c (Path.mem_text (by simp) hc)
  have hnames : names (p.parts ++ [part]) = names p.parts ++ [name] := by
    simp [names, hname, Except.toOption]
  rw [hnames] at hwalk
  obtain ⟨base, hbase, hdirectory, hl⟩ := Tree.walk_concat hwalk
  obtain ⟨front, hfront, hfits⟩ := exists_pathBytes_of_append hbytes hshort
  exact ⟨name, base, hname, locate_eq_ok_iff.mpr ⟨front, hfront, hfits, hbase⟩, hdirectory, hl⟩

end World

namespace Patch

-- A key that names a directory as it stands.
def NamesDirectory (key : Text) : Prop :=
  CodePoint.scalar '/' ∉ key ∧ ∃ p ∈ key, p ≠ CodePoint.scalar '.'

theorem NamesDirectory.isName {key : Text} (h : NamesDirectory key) : Path.IsName key := by
  obtain ⟨hslash, c, hc, hdot⟩ := h
  refine ⟨hslash, ?_, ?_⟩
  · rw [Path.isVoid, decide_eq_false_iff_not]
    rintro (rfl | rfl)
    · simp at hc
    · exact hdot (by simpa [Path.dot, Text.ofString, Text.ofChars] using hc)
  · rintro rfl
    exact hdot (by simpa [Path.dots, Text.ofString, Text.ofChars] using hc)

theorem isName_readmeName : Path.IsName readmeName := by
  refine ⟨?_, ?_, ?_⟩ <;> decide

theorem destination_of_isName {key : Text} (h : Path.IsName key) (plan : Plan) :
    plan.destination key =
      ⟨plan.packages.anchor, plan.packages.parts ++ [key] ++ [readmeName]⟩ := by
  rw [Plan.destination, Path.child_of_isName h, Path.child_of_isName isName_readmeName]

theorem ne_twoDots {key : Text} {name : Name} (h : Path.IsName key)
    (hname : Utf8.encodeName key = .ok name) : name ≠ Tree.twoDots := by
  rintro rfl
  exact h.2.2 (Utf8.eq_of_encodeName_dots (n := 2) hname)

def readmeBytes : Name := Utf8.bytesOf "README.md".toList

theorem encodeName_readmeName : Utf8.encodeName readmeName = .ok readmeBytes :=
  Utf8.encodeFrom_ofChars _ 0 _

-- Whatever its key is, a component leads to a README.
theorem head?_of_leadsTo {plan : Plan} {w : World} {key : Text} {l : Location}
    (h : plan.leadsTo w key l) : l.head? = some readmeBytes := by
  rw [Plan.leadsTo, Plan.destination, Path.child_of_isName isName_readmeName] at h
  obtain ⟨readme, base, hreadme, -, -, rfl⟩ := World.locate_concat h
  obtain rfl := Except.ok.inj (hreadme.symm.trans encodeName_readmeName)
  rw [Tree.below, if_neg (by decide), List.head?_cons]

-- The README of a component lies in the directory of its key, and that one in the packages.
theorem location_of_leadsTo {plan : Plan} {w : World} {key : Text} {l : Location}
    (hkey : Path.IsName key) (h : plan.leadsTo w key l) :
    ∃ name base, Utf8.encodeName key = .ok name ∧ w.locate plan.packages = .ok base ∧
      w.tree.get? base = some .directory ∧ w.tree.get? (name :: base) = some .directory ∧
      l = readmeBytes :: name :: base := by
  rw [Plan.leadsTo, destination_of_isName hkey] at h
  obtain ⟨readme, inner, hreadme, hinner, hdirectory, rfl⟩ := World.locate_concat
    (p := ⟨plan.packages.anchor, plan.packages.parts ++ [key]⟩) h
  obtain ⟨name, base, hname, hbase, hpackages, rfl⟩ := World.locate_concat hinner
  obtain rfl := Except.ok.inj (hreadme.symm.trans encodeName_readmeName)
  rw [Tree.below, if_neg (ne_twoDots hkey hname)] at hdirectory
  refine ⟨name, base, hname, hbase, hpackages, hdirectory, ?_⟩
  rw [Tree.below, if_neg (by decide), Tree.below, if_neg (ne_twoDots hkey hname)]

-- Two components that lead to one README have one name for the system.
theorem encodeName_eq_of_leadsTo {plan : Plan} {w : World} {key other : Text} {l : Location}
    (hkey : Path.IsName key) (hother : Path.IsName other) (hl : plan.leadsTo w key l)
    (hl' : plan.leadsTo w other l) : Utf8.encodeName key = Utf8.encodeName other := by
  obtain ⟨name, base, hname, -, -, -, hlocation⟩ := location_of_leadsTo hkey hl
  obtain ⟨name', base', hname', -, -, -, hlocation'⟩ := location_of_leadsTo hother hl'
  obtain ⟨rfl, -⟩ : name = name' ∧ base = base' := by simpa using hlocation.symm.trans hlocation'
  exact hname.trans hname'.symm

theorem haveOwnReadmes_of_names {plan : Plan} (w : World) {entries : List (Text × List Text)}
    (hkeys : ∀ entry ∈ entries, Path.IsName entry.1)
    (hnames : entries.Pairwise fun a b => Utf8.encodeName a.1 ≠ Utf8.encodeName b.1) :
    plan.HaveOwnReadmes w entries :=
  hnames.imp_of_mem fun {a b} ha hb hne _ hla hlb =>
    hne (encodeName_eq_of_leadsTo (hkeys a ha) (hkeys b hb) hla hlb)

-- A selected key of a section names a directory, unless the filter is made of dots.
theorem namesDirectory_of_selects {plan : Plan}
    (hfilter : ∃ p ∈ plan.filter, p ≠ CodePoint.scalar '.') {name : Text}
    (hselects : plan.selects (SectionPath.ofName name).component = true) :
    NamesDirectory (SectionPath.ofName name).component := by
  obtain ⟨p, hp, hdot⟩ := hfilter
  exact ⟨Text.not_mem_before _ _, p, Text.mem_of_includes hselects hp, hdot⟩

end Patch

end ReadmeTables
