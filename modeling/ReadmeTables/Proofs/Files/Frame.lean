import ReadmeTables.Files.World
/-!
What writing to a file leaves as it is.

Where a path leads depends on which entries there are and which of them are directories, and on
no file's bytes. Main statements: two worlds that differ in the bytes of some files lead every
path to the same location, and writing to a file that is there makes such a world.
-/

namespace ReadmeTables

def Entry.isDirectory : Entry → Bool
  | .directory => true
  | .file _ => false

namespace Tree

-- Whether there is nothing at a location, a file or a directory.
def shape (tree : Tree) (location : Location) : Option Bool :=
  (tree.get? location).map Entry.isDirectory

theorem get?_root (tree : Tree) : tree.get? [] = some .directory :=
  if_pos rfl

theorem bytes?_eq_some_iff {tree : Tree} {location : Location} {bytes : Utf8.Bytes} :
    tree.bytes? location = some bytes ↔ tree.get? location = some (.file bytes) := by
  rw [bytes?]
  split
  · rename_i h
    simp [h]
  · rename_i h
    simp only [reduceCtorEq, false_iff]
    exact h bytes

theorem bytes?_eq_none_iff {tree : Tree} {location : Location} :
    tree.bytes? location = none ↔ ∀ bytes, tree.get? location ≠ some (.file bytes) := by
  rw [Option.eq_none_iff_forall_ne_some]
  exact forall_congr' fun bytes => not_congr bytes?_eq_some_iff

theorem ne_root_of_file {tree : Tree} {location : Location} {bytes : Utf8.Bytes}
    (h : tree.get? location = some (.file bytes)) : location ≠ [] := by
  rintro rfl
  simp [get?_root] at h

theorem ne_root_of_none {tree : Tree} {location : Location} (h : tree.get? location = none) :
    location ≠ [] := by
  rintro rfl
  simp [get?_root] at h

theorem shape_eq_some_false_iff {tree : Tree} {location : Location} :
    tree.shape location = some false ↔ ∃ bytes, tree.get? location = some (.file bytes) := by
  cases h : tree.get? location with
  | none => simp [shape, h]
  | some entry => cases entry <;> simp [shape, h, Entry.isDirectory]

theorem shape_eq_none_iff {tree : Tree} {location : Location} :
    tree.shape location = none ↔ tree.get? location = none := by
  simp [shape]

theorem shape_eq_some_true_iff {tree : Tree} {location : Location} :
    tree.shape location = some true ↔ tree.get? location = some .directory := by
  cases h : tree.get? location with
  | none => simp [shape, h]
  | some entry => cases entry <;> simp [shape, h, Entry.isDirectory]

theorem walk_congr {tree other : Tree} (h : ∀ l, other.shape l = tree.shape l)
    (location : Location) (names : List Name) :
    other.walk location names = tree.walk location names := by
  induction names generalizing location with
  | nil => rfl
  | cons name rest ih =>
    have hl := h location
    cases he : tree.get? location with
    | none =>
      have ho : other.get? location = none := by
        rw [← shape_eq_none_iff, hl, shape_eq_none_iff, he]
      simp [walk, he, ho]
    | some entry =>
      cases entry with
      | file bytes =>
        obtain ⟨others, ho⟩ : ∃ others, other.get? location = some (.file others) := by
          rw [← shape_eq_some_false_iff, hl, shape_eq_some_false_iff]
          exact ⟨bytes, he⟩
        simp [walk, he, ho]
      | directory =>
        have ho : other.get? location = some .directory := by
          rw [← shape_eq_some_true_iff, hl, shape_eq_some_true_iff, he]
        simp [walk, he, ho, ih]

end Tree

namespace World

-- Two worlds that differ at most in the bytes of files at some locations.
structure SameBut (touched : Location → Prop) (w w' : World) : Prop where
  current : w'.current = w.current
  home : w'.home = w.home
  accounts : w'.accounts = w.accounts
  locked : w'.locked = w.locked
  shape : ∀ l, w'.tree.shape l = w.tree.shape l
  kept : ∀ l, ¬touched l → w'.tree.get? l = w.tree.get? l

namespace SameBut

variable {touched other : Location → Prop} {w w' w'' : World}

theorem refl (touched : Location → Prop) (w : World) : SameBut touched w w :=
  ⟨rfl, rfl, rfl, rfl, fun _ => rfl, fun _ _ => rfl⟩

theorem trans (h : SameBut touched w w') (h' : SameBut touched w' w'') :
    SameBut touched w w'' where
  current := h'.current.trans h.current
  home := h'.home.trans h.home
  accounts := h'.accounts.trans h.accounts
  locked := h'.locked.trans h.locked
  shape l := (h'.shape l).trans (h.shape l)
  kept l hl := (h'.kept l hl).trans (h.kept l hl)

theorem symm (h : SameBut touched w w') : SameBut touched w' w where
  current := h.current.symm
  home := h.home.symm
  accounts := h.accounts.symm
  locked := h.locked.symm
  shape l := (h.shape l).symm
  kept l hl := (h.kept l hl).symm

theorem mono (h : SameBut touched w w') (hsub : ∀ l, touched l → other l) :
    SameBut other w w' :=
  ⟨h.current, h.home, h.accounts, h.locked, h.shape, fun l hl => h.kept l fun ht => hl (hsub l ht)⟩

theorem locate_eq (h : SameBut touched w w') (p : Path) : w'.locate p = w.locate p := by
  simp only [locate, h.current, Tree.walk_congr h.shape]

theorem bytes?_eq (h : SameBut touched w w') {l : Location} (hl : ¬touched l) :
    w'.tree.bytes? l = w.tree.bytes? l := by
  simp only [Tree.bytes?, h.kept l hl]

theorem bytes?_eq_none_iff (h : SameBut touched w w') {l : Location} :
    w'.tree.bytes? l = none ↔ w.tree.bytes? l = none := by
  simp only [Tree.bytes?_eq_none_iff, ← not_exists, ← Tree.shape_eq_some_false_iff, h.shape]

theorem exists_file (h : SameBut touched w w') {l : Location} {bytes : Utf8.Bytes}
    (hl : w.tree.get? l = some (.file bytes)) : ∃ after, w'.tree.get? l = some (.file after) := by
  rw [← Tree.shape_eq_some_false_iff, h.shape, Tree.shape_eq_some_false_iff]
  exact ⟨bytes, hl⟩

end SameBut

theorem setFile_sameBut {w : World} {l : Location} {former : Utf8.Bytes} (bytes : Utf8.Bytes)
    (h : w.tree.get? l = some (.file former)) : SameBut (· = l) w (w.setFile l bytes) where
  current := rfl
  home := rfl
  accounts := rfl
  locked := rfl
  shape m := by
    simp only [setFile, Tree.shape, Tree.get?_set _ _ _ (Tree.ne_root_of_file h)]
    split
    · subst m
      simp [h, Entry.isDirectory]
    · rfl
  kept m hm := by
    simp only [setFile, Tree.get?_set _ _ _ (Tree.ne_root_of_file h), hm, if_false]

theorem get?_setFile {w : World} {l : Location} {former : Utf8.Bytes} (bytes : Utf8.Bytes)
    (h : w.tree.get? l = some (.file former)) :
    (w.setFile l bytes).tree.get? l = some (.file bytes) := by
  simp only [setFile, Tree.get?_set _ _ _ (Tree.ne_root_of_file h), if_true]

-- Files hold what they held, and perhaps more behind it, but for some locations.
def GrowsBut (touched : Location → Prop) (w w' : World) : Prop :=
  ∀ l bytes, ¬touched l → w.tree.bytes? l = some bytes →
    ∃ added, w'.tree.bytes? l = some (bytes ++ added)

namespace GrowsBut

variable {touched other : Location → Prop} {w w' w'' : World}

theorem trans (h : GrowsBut touched w w') (h' : GrowsBut touched w' w'') :
    GrowsBut touched w w'' := by
  intro l bytes hl hbytes
  obtain ⟨first, hfirst⟩ := h l bytes hl hbytes
  obtain ⟨second, hsecond⟩ := h' l _ hl hfirst
  exact ⟨first ++ second, by rw [hsecond, List.append_assoc]⟩

theorem mono (h : GrowsBut touched w w') (hsub : ∀ l, touched l → other l) :
    GrowsBut other w w' :=
  fun l bytes hl => h l bytes fun ht => hl (hsub l ht)

end GrowsBut

theorem SameBut.growsBut {touched : Location → Prop} {w w' : World} (h : SameBut touched w w') :
    GrowsBut touched w w' :=
  fun l bytes hl hbytes => ⟨[], by rw [h.bytes?_eq hl, hbytes, List.append_nil]⟩

theorem appendBytes_growsBut {w : World} {l : Location} {former : Utf8.Bytes}
    (touched : Location → Prop) (bytes : Utf8.Bytes)
    (h : w.tree.get? l = some (.file former)) : GrowsBut touched w (w.appendBytes l bytes) := by
  intro m held _ hheld
  by_cases hm : m = l
  · subst hm
    refine ⟨bytes, ?_⟩
    rw [appendBytes, Tree.bytes?_eq_some_iff, hheld]
    exact get?_setFile _ h
  · refine ⟨[], ?_⟩
    rw [appendBytes, (setFile_sameBut _ h).bytes?_eq hm, hheld, List.append_nil]

theorem locate_eq_ok_iff {w : World} {p : Path} {l : Location} :
    w.locate p = .ok l ↔
      ∃ bytes, pathBytes p = .ok bytes ∧ bytes.length < pathLimit ∧
        w.tree.walk (if p.isAbsolute then [] else locationOf w.current) (names p.parts) =
          .ok l := by
  rw [locate]
  cases hbytes : pathBytes p with
  | error e => simp [bind, Except.bind]
  | ok bytes =>
    simp only [bind, Except.bind, Except.ok.injEq, exists_eq_left']
    by_cases hlong : pathLimit ≤ bytes.length
    · simp [hlong, Nat.not_lt.mpr hlong]
    · rw [if_neg hlong]
      cases w.tree.walk (if p.isAbsolute then [] else locationOf w.current) (names p.parts) <;>
        simp [Nat.not_le.mp hlong]

theorem readBytes_eq_ok_iff {w : World} {p : Path} {bytes : Utf8.Bytes} :
    w.readBytes p = .ok bytes ↔
      ∃ l, w.locate p = .ok l ∧ w.tree.get? l = some (.file bytes) := by
  cases hl : w.locate p with
  | error e => simp [readBytes, entry, hl, bind, Except.bind]
  | ok l =>
    cases he : w.tree.get? l with
    | none => simp [readBytes, entry, hl, he, bind, Except.bind]
    | some e => cases e <;> simp [readBytes, entry, hl, he, bind, Except.bind]

-- A text is read where the bytes are there and are text.
theorem readText_of_error {w : World} {p : Path} {e : FileError}
    (hread : w.readBytes p = .error e) : w.readText p = .error (.file e) := by
  rw [readText, hread]

theorem readText_of_undecodable {w : World} {p : Path} {bytes : Utf8.Bytes} {e : Utf8.DecodeError}
    (hread : w.readBytes p = .ok bytes) (hdecode : Utf8.decode bytes = .error e) :
    w.readText p = .error (.undecodable e) := by
  simp only [readText, hread, hdecode]

theorem readText_of_decode {w : World} {p : Path} {bytes : Utf8.Bytes} {chars : List Char}
    (hread : w.readBytes p = .ok bytes) (hdecode : Utf8.decode bytes = .ok chars) :
    w.readText p = .ok (Text.unifyLineEnds chars) := by
  simp only [readText, hread, hdecode]

theorem readText_eq_ok_iff {w : World} {p : Path} {shown : List Char} :
    w.readText p = .ok shown ↔
      ∃ bytes chars, w.readBytes p = .ok bytes ∧ Utf8.decode bytes = .ok chars ∧
        Text.unifyLineEnds chars = shown := by
  rw [readText]
  cases hread : w.readBytes p with
  | error e => simp
  | ok bytes => cases hdecode : Utf8.decode bytes <;> simp [hdecode]

-- Files with the same bytes are the same entries.
theorem SameBut.get?_eq {touched : Location → Prop} {w w' : World} (h : SameBut touched w w')
    {l : Location} (hb : w'.tree.bytes? l = w.tree.bytes? l) :
    w'.tree.get? l = w.tree.get? l := by
  have hshape := h.shape l
  cases hw : w.tree.get? l with
  | none => rwa [← Tree.shape_eq_none_iff, hshape, Tree.shape_eq_none_iff]
  | some entry =>
    cases entry with
    | directory => rwa [← Tree.shape_eq_some_true_iff, hshape, Tree.shape_eq_some_true_iff]
    | file bytes => rw [← Tree.bytes?_eq_some_iff, hb, Tree.bytes?_eq_some_iff, hw]

theorem SameBut.get?_eq_of_both {touched other : Location → Prop} {w w' w'' : World}
    (h : SameBut touched w w') (h' : SameBut other w w'') {l : Location}
    (hb : w''.tree.bytes? l = w'.tree.bytes? l) : w''.tree.get? l = w'.tree.get? l := by
  have hanywhere : SameBut (fun _ => True) w' w'' :=
    (h.symm.mono fun _ _ => trivial).trans (h'.mono fun _ _ => trivial)
  exact hanywhere.get?_eq hb

-- What is read is decided by where the path leads and by what is there.
theorem readBytes_congr {w w' : World} {p : Path} (hlocate : w'.locate p = w.locate p)
    (hget : ∀ l, w.locate p = .ok l → w'.tree.get? l = w.tree.get? l) :
    w'.readBytes p = w.readBytes p := by
  simp only [readBytes, entry, hlocate]
  cases hl : w.locate p with
  | error e => rfl
  | ok l => simp only [bind, Except.bind, hget l hl]

theorem SameBut.readBytes_error {touched : Location → Prop} {w w' : World}
    (h : SameBut touched w w') {p : Path} {e : FileError} (he : w.readBytes p = .error e) :
    w'.readBytes p = .error e := by
  refine (readBytes_congr (h.locate_eq p) fun l hl => ?_).trans he
  apply h.get?_eq
  have hnone : ∀ bytes, w.tree.get? l ≠ some (.file bytes) := by
    intro bytes hf
    rw [readBytes_eq_ok_iff.mpr ⟨l, hl, hf⟩] at he
    simp at he
  have hother : ∀ bytes, w'.tree.get? l ≠ some (.file bytes) := by
    intro bytes hf
    obtain ⟨former, hformer⟩ := Tree.shape_eq_some_false_iff.mp
      ((h.shape l).symm.trans (Tree.shape_eq_some_false_iff.mpr ⟨bytes, hf⟩))
    exact hnone former hformer
  rw [Tree.bytes?_eq_none_iff.mpr hother, Tree.bytes?_eq_none_iff.mpr hnone]

theorem SameBut.readBytes_eq {touched : Location → Prop} {w w' : World} (h : SameBut touched w w')
    {p : Path} (hp : ∀ l, w.locate p = .ok l → ¬touched l) : w'.readBytes p = w.readBytes p :=
  readBytes_congr (h.locate_eq p) fun l hl => h.kept l (hp l hl)

theorem setFile_setFile (w : World) (l : Location) (former bytes : Utf8.Bytes) :
    (w.setFile l former).setFile l bytes = w.setFile l bytes := by
  simp only [setFile, Tree.set_set]

-- A file that is there opens to be written unless it is locked.
theorem openToWrite_eq {w : World} {p : Path} {l : Location} {former : Utf8.Bytes}
    (hp : w.locate p = .ok l) (hl : w.tree.get? l = some (.file former)) :
    w.openToWrite p =
      if l ∈ w.locked then .error (.refused .locked p.text) else .ok (w.setFile l [], l) := by
  simp [openToWrite, target, hp, hl, bind, Except.bind]

-- Bytes that are written where a file ends are added to it.
theorem writeAt_end {w : World} {l : Location} {former : Utf8.Bytes} (bytes : Utf8.Bytes)
    (hl : w.tree.get? l = some (.file former)) :
    w.writeAt l former.length bytes = w.setFile l (former ++ bytes) := by
  have hformer : w.tree.bytes? l = some former := Tree.bytes?_eq_some_iff.mpr hl
  have hnothing : former.drop (former.length + bytes.length) = [] :=
    List.drop_eq_nil_of_le (Nat.le_add_right _ _)
  simp [writeAt, hformer, hnothing]

-- Writing to a file that is there: it is refused, fails with the file empty, or is done.
theorem writeText_eq {w : World} {p : Path} {l : Location} {former : Utf8.Bytes} (t : Text)
    (hp : w.locate p = .ok l) (hl : w.tree.get? l = some (.file former)) :
    w.writeText p t =
      if l ∈ w.locked then (w, .error (.refused .locked p.text))
      else
        match Utf8.encode t with
        | .error e => (w.setFile l [], .error (.unencodable e))
        | .ok bytes => (w.setFile l bytes, .ok ()) := by
  have hempty : (w.setFile l []).tree.get? l = some (.file []) := get?_setFile [] hl
  rw [writeText, openToWrite_eq hp hl]
  by_cases hlocked : l ∈ w.locked
  · simp only [hlocked, if_true]
  · cases hencode : Utf8.encode t with
    | error e => simp only [hlocked, if_false]
    | ok bytes =>
      have hwritten := writeAt_end bytes hempty
      rw [List.length_nil, List.nil_append, setFile_setFile] at hwritten
      simp only [hlocked, if_false, hwritten]

end World

end ReadmeTables
