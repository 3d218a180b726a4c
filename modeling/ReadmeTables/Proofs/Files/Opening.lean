import ReadmeTables.Proofs.Files.Frame
/-!
What opening a file for additions leaves as it is.

The directories above the file are made first, and those that were made stay if a later one
cannot be made. Main statements: making directories puts directories where nothing was and does
nothing else, the file that is opened is the one that the path leads to, new and empty or there
before, and a path goes on to lead there while everything stays that was there.
-/

namespace ReadmeTables

-- What leads somewhere goes on to do so while everything stays that was there.
theorem Tree.walk_of_kept {tree other : Tree}
    (h : ∀ l, tree.shape l ≠ none → other.shape l = tree.shape l) {location l : Location}
    {names : List Name} (hwalk : tree.walk location names = .ok l) :
    other.walk location names = .ok l := by
  induction names generalizing location with
  | nil => exact hwalk
  | cons name rest ih =>
    cases he : tree.get? location with
    | none => simp [walk, he] at hwalk
    | some entry =>
      cases entry with
      | file bytes => simp [walk, he] at hwalk
      | directory =>
        have hshape : tree.shape location = some true := shape_eq_some_true_iff.mpr he
        have ho : other.get? location = some .directory := by
          rw [← shape_eq_some_true_iff, h location (by simp [hshape]), hshape]
        simp only [walk, he, ho] at hwalk ⊢
        by_cases hdots : name = twoDots
        · rw [if_pos hdots] at hwalk ⊢
          exact ih hwalk
        · rw [if_neg hdots] at hwalk ⊢
          by_cases hlong : nameLimit < name.length
          · simp [hlong] at hwalk
          · rw [if_neg hlong] at hwalk ⊢
            exact ih hwalk

namespace World

-- A world with more directories, all of them where nothing was.
structure MoreDirectories (w w' : World) : Prop where
  current : w'.current = w.current
  made : ∀ l, w'.tree.get? l = w.tree.get? l ∨
    w.tree.get? l = none ∧ w'.tree.get? l = some .directory

namespace MoreDirectories

variable {w w' w'' : World}

theorem refl (w : World) : MoreDirectories w w :=
  ⟨rfl, fun _ => .inl rfl⟩

theorem trans (h : MoreDirectories w w') (h' : MoreDirectories w' w'') :
    MoreDirectories w w'' where
  current := h'.current.trans h.current
  made l := by
    rcases h.made l with hsame | ⟨hnone, hmade⟩
    · simpa only [hsame] using h'.made l
    · refine .inr ⟨hnone, ?_⟩
      rcases h'.made l with hsame | ⟨hgone, -⟩
      · rw [hsame, hmade]
      · simp [hmade] at hgone

-- Directories hold no bytes.
theorem bytes?_eq (h : MoreDirectories w w') (l : Location) :
    w'.tree.bytes? l = w.tree.bytes? l := by
  rcases h.made l with hsame | ⟨hnone, hmade⟩
  · simp only [Tree.bytes?, hsame]
  · simp only [Tree.bytes?, hnone, hmade]

end MoreDirectories

-- A world with new files at most where they may be made, all of them empty.
def MakesOnly (made : Location → Prop) (w w' : World) : Prop :=
  ∀ l, w'.tree.bytes? l = w.tree.bytes? l ∨
    made l ∧ w.tree.bytes? l = none ∧ w'.tree.bytes? l = some []

namespace MakesOnly

variable {made other : Location → Prop} {w w' : World} {l : Location}

theorem refl (made : Location → Prop) (w : World) : MakesOnly made w w :=
  fun _ => .inl rfl

theorem mono (h : MakesOnly made w w') (hsub : ∀ l, made l → other l) : MakesOnly other w w' :=
  fun l => (h l).imp_right (And.imp_left (hsub l))

-- A file that was there holds what it held.
theorem bytes?_of_some (h : MakesOnly made w w') {bytes : Utf8.Bytes}
    (hbytes : w.tree.bytes? l = some bytes) : w'.tree.bytes? l = some bytes := by
  rcases h l with hsame | ⟨-, hnone, -⟩
  · rw [hsame, hbytes]
  · simp [hnone] at hbytes

end MakesOnly

theorem MoreDirectories.makesOnly (made : Location → Prop) {w w' : World}
    (h : MoreDirectories w w') : MakesOnly made w w' :=
  fun l => .inl (h.bytes?_eq l)

theorem makeDirectory_more (w : World) (p : Path) : MoreDirectories w (w.makeDirectory p).1 := by
  unfold makeDirectory
  split
  · exact .refl w
  · rename_i location _
    split
    · exact .refl w
    · rename_i hnone
      refine ⟨rfl, fun l => ?_⟩
      rw [Tree.get?_set _ _ _ (Tree.ne_root_of_none hnone)]
      split
      · subst l
        exact .inr ⟨hnone, rfl⟩
      · exact .inl rfl

theorem makeOrKeep_more (w : World) (p : Path) : MoreDirectories w (w.makeOrKeep p).1 := by
  have hmade := makeDirectory_more w p
  unfold makeOrKeep
  split
  · exact .refl w
  · -- what is there already is looked at and left as it is
    split <;> exact .refl w
  · exact hmade

theorem makeDirectoriesFrom_more (w : World) (anchor : Anchor) (parts : List Text) :
    MoreDirectories w (w.makeDirectoriesFrom anchor parts).1 := by
  induction parts with
  | nil => exact makeOrKeep_more w _
  | cons part above ih =>
    have hfirst := makeOrKeep_more w ⟨anchor, (part :: above).reverse⟩
    rw [makeDirectoriesFrom]
    split
    · split
      · rename_i next habove
        rw [habove] at ih
        exact ih.trans (makeOrKeep_more next _)
      · rename_i next e habove
        rw [habove] at ih
        exact ih
    · exact hfirst

theorem makeDirectories_more (w : World) (p : Path) : MoreDirectories w (w.makeDirectories p).1 :=
  makeDirectoriesFrom_more w p.anchor p.parts.reverse

-- The file that is opened is there before, or is new and empty.
theorem openForAppend_cases {w w' : World} {p : Path} {l : Location}
    (h : w.openForAppend p = .ok (w', l)) :
    w.locate (Path.from_ w.current p) = .ok l ∧
      (w' = w ∧ (∃ bytes, w.tree.get? l = some (.file bytes)) ∨
        w.tree.get? l = none ∧ w' = w.setFile l []) := by
  cases hlocate : w.locate (Path.from_ w.current p) with
  | error e => simp [openForAppend, target, hlocate, bind, Except.bind] at h
  | ok location =>
    by_cases hlocked : location ∈ w.locked
    · cases hentry : w.tree.get? location with
      | none => simp [openForAppend, target, hlocate, hentry, hlocked, bind, Except.bind] at h
      | some found =>
        cases found <;>
          simp [openForAppend, target, hlocate, hentry, hlocked, bind, Except.bind] at h
    · cases hentry : w.tree.get? location with
      | none =>
        simp only [openForAppend, target, hlocate, hentry, hlocked, bind, Except.bind,
          reduceCtorEq, if_false, Except.ok.injEq, Prod.mk.injEq] at h
        obtain ⟨rfl, rfl⟩ := h
        exact ⟨rfl, .inr ⟨hentry, rfl⟩⟩
      | some found =>
        cases found with
        | directory => simp [openForAppend, target, hlocate, hentry, bind, Except.bind] at h
        | file bytes =>
          simp only [openForAppend, target, hlocate, hentry, hlocked, bind, Except.bind,
            Option.some.injEq, reduceCtorEq, if_false, Except.ok.injEq, Prod.mk.injEq] at h
          obtain ⟨rfl, rfl⟩ := h
          exact ⟨rfl, .inl ⟨rfl, bytes, hentry⟩⟩

theorem exists_file_of_openForAppend {w w' : World} {p : Path} {l : Location}
    (h : w.openForAppend p = .ok (w', l)) : ∃ bytes, w'.tree.get? l = some (.file bytes) := by
  obtain ⟨-, ⟨rfl, hfile⟩ | ⟨hnone, rfl⟩⟩ := openForAppend_cases h
  · exact hfile
  · exact ⟨[], by simp only [setFile, Tree.get?_set _ _ _ (Tree.ne_root_of_none hnone), if_true]⟩

theorem openForAppend_makesOnly {w w' : World} {p : Path} {l : Location}
    (h : w.openForAppend p = .ok (w', l)) : MakesOnly (· = l) w w' := by
  intro m
  obtain ⟨-, ⟨rfl, -⟩ | ⟨hnone, rfl⟩⟩ := openForAppend_cases h
  · exact .inl rfl
  · have hroot := Tree.ne_root_of_none hnone
    by_cases hm : m = l
    · subst hm
      refine .inr ⟨rfl, ?_, ?_⟩
      · simp only [Tree.bytes?, hnone]
      · simp only [Tree.bytes?, setFile, Tree.get?_set _ _ _ hroot, if_true]
    · refine .inl ?_
      simp only [Tree.bytes?, setFile, Tree.get?_set _ _ _ hroot, hm, if_false]

-- Everything that was there is there, a directory or a file as before.
structure Keeps (w w' : World) : Prop where
  current : w'.current = w.current
  kept : ∀ l, w.tree.shape l ≠ none → w'.tree.shape l = w.tree.shape l

-- Whether a path that is opened for additions leads to a location.
def opens (w : World) (p : Path) (l : Location) : Bool :=
  (w.locate (Path.from_ w.current p)).toOption = some l

variable {w w' w'' : World} {p : Path} {l m : Location}

theorem opens_iff : w.opens p l = true ↔ w.locate (Path.from_ w.current p) = .ok l := by
  rw [opens, decide_eq_true_eq]
  cases w.locate (Path.from_ w.current p) <;> simp [Except.toOption]

theorem eq_of_opens (h : w.opens p l = true) (h' : w.opens p m = true) : l = m :=
  Except.ok.inj ((opens_iff.mp h).symm.trans (opens_iff.mp h'))

namespace Keeps

theorem refl (w : World) : Keeps w w :=
  ⟨rfl, fun _ _ => rfl⟩

theorem trans (h : Keeps w w') (h' : Keeps w' w'') : Keeps w w'' where
  current := h'.current.trans h.current
  kept l hl := by
    have hfirst := h.kept l hl
    rw [h'.kept l (by rwa [hfirst]), hfirst]

theorem opens (h : Keeps w w') (hp : w.opens p l = true) : w'.opens p l = true := by
  rw [opens_iff, locate_eq_ok_iff] at hp ⊢
  obtain ⟨bytes, hbytes, hshort, hwalk⟩ := hp
  rw [h.current]
  exact ⟨bytes, hbytes, hshort, Tree.walk_of_kept h.kept hwalk⟩

end Keeps

theorem SameBut.keeps {touched : Location → Prop} (h : SameBut touched w w') : Keeps w w' :=
  ⟨h.current, fun l _ => h.shape l⟩

theorem MoreDirectories.keeps (h : MoreDirectories w w') : Keeps w w' where
  current := h.current
  kept l hl := by
    rcases h.made l with hsame | ⟨hnone, -⟩
    · rw [Tree.shape, Tree.shape, hsame]
    · exact (hl (Tree.shape_eq_none_iff.mpr hnone)).elim

theorem setFile_keeps (bytes : Utf8.Bytes) (hnone : w.tree.get? l = none) :
    Keeps w (w.setFile l bytes) where
  current := rfl
  kept m hm := by
    have hne : m ≠ l := by
      rintro rfl
      exact hm (Tree.shape_eq_none_iff.mpr hnone)
    simp only [Tree.shape, setFile, Tree.get?_set _ _ _ (Tree.ne_root_of_none hnone), hne, if_false]

theorem openForAppend_keeps (h : w.openForAppend p = .ok (w', l)) : Keeps w w' := by
  obtain ⟨-, ⟨rfl, -⟩ | ⟨hnone, rfl⟩⟩ := openForAppend_cases h
  · exact .refl _
  · exact setFile_keeps [] hnone

theorem opens_of_openForAppend (h : w.openForAppend p = .ok (w', l)) : w'.opens p l = true :=
  (openForAppend_keeps h).opens (opens_iff.mpr (openForAppend_cases h).1)

end World

end ReadmeTables
