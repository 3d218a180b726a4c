import ReadmeTables.Proofs.Files.Resolving
import ReadmeTables.Proofs.Settings
/-!
Which paths lead to the same settings.

A project is named by a path to its directory, by a path to anything in it that is no directory,
or by the place of its directory from the root. The system is asked about that path before the
file with the settings is looked for. Main statement: from a directory, from a name in it, and
from its place, wherever that is followed from, the same is read, unless the path itself is too
long for the system; the root of the settings is the place of the directory.
-/

namespace ReadmeTables

open Failing

namespace Path

-- A path from the home of someone.
def startsAtHome (p : Path) : Bool :=
  match p.anchor, p.parts with
  | .here, (.scalar '~' :: _) :: _ => true
  | _, _ => false

end Path

namespace Settings

variable {w : World} {p file root : Path} {n : Text} {entries : Entries} {settings : Settings}

theorem isName_fileName : Path.IsName fileName :=
  ⟨by decide, by decide, by decide⟩

theorem isUsable_fileName : World.IsUsable fileName :=
  Utf8.exists_nameable_iff.mp
    ⟨Utf8.bytesOf ".tsdocgen.yml".toList, Utf8.encodeFrom_ofChars _ 0 _, by decide⟩

theorem expandHome_eq (h : p.startsAtHome = false) : w.expandHome p = .ok (some p) := by
  rw [World.expandHome]
  split
  · rename_i user rest hanchor hparts
    simp [Path.startsAtHome, hanchor, hparts] at h
  · rfl

-- The file with the settings is resolved when it is found, so resolving its directory once more, as
-- the root of the project, changes nothing.
theorem resolve_parent_of_fileFor (hw : w.IsGrounded) (h : fileFor w p = .ok file) :
    w.resolve file.parent = .ok file.parent := by
  simp only [fileFor, bind_eq_ok_iff] at h
  obtain ⟨expanded, -, h⟩ := h
  cases expanded with
  | none => simp at h
  | some found =>
    simp only [bind_eq_ok_iff, mapError_eq_ok_iff] at h
    obtain ⟨isDirectory, -, hresolve⟩ := h
    exact (hw.resolve_again hresolve).2

theorem fileFor_of_isDirectory (hhome : p.startsAtHome = false)
    (hd : w.isDirectory p = .ok true) :
    fileFor w p = (w.resolve (p.child fileName)).mapError .path := by
  simp only [fileFor, expandHome_eq hhome, hd, mapError_ok, ok_bind, if_true]

-- The settings for a name in a directory are those of the directory.
theorem fileFor_child (hn : Path.IsName n) (hhome : (p.child n).startsAtHome = false)
    (hother : w.isDirectory (p.child n) = .ok false) :
    fileFor w (p.child n) = (w.resolve (p.child fileName)).mapError .path := by
  have hchild := Path.child_of_isName hn p
  have hname : (p.child n).name = n := by simp [hchild, Path.name]
  have hparent : (p.child n).parent = p := by simp [hchild, Path.parent]
  simp only [fileFor, expandHome_eq hhome, hother, mapError_ok, ok_bind, Bool.false_eq_true,
    if_false, hname, hparent]
  by_cases hfile : n = fileName
  · rw [if_pos hfile, hfile]
  · rw [if_neg hfile]

theorem load_of_isDirectory_error {e : FileError} (hhome : p.startsAtHome = false)
    (h : w.isDirectory p = .error e) : load w p = .error (.path e) := by
  simp only [load, fileFor, expandHome_eq hhome, h, mapError_ok, mapError_error, ok_bind,
    error_bind]

theorem root_of_ofEntries (h : ofEntries root entries = .ok settings) : settings.root = root := by
  simp only [ofEntries, bind_eq_ok_iff] at h
  obtain ⟨_, -, _, -, _, -, _, -, h⟩ := h
  exact (congrArg Settings.root (Except.ok.inj h)).symm

theorem root_of_ofText {chars : List Char} (h : ofText root chars = .ok settings) :
    settings.root = root := by
  rw [ofText] at h
  split at h
  · exact (congrArg Settings.root (Except.ok.inj h)).symm
  · split at h
    · rename_i value _
      cases value with
      | mapping entries => exact root_of_ofEntries h
      | _ =>
        simp only [ofValue] at h
        split at h
        · exact (congrArg Settings.root (Except.ok.inj h)).symm
        · simp at h
    · simp at h
    · simp at h

theorem root_of_load (hfile : fileFor w p = .ok file) (h : load w p = .ok settings) :
    settings.root = file.parent := by
  rw [load, hfile, ok_bind, bind_eq_ok_iff] at h
  obtain ⟨isPresent, -, h⟩ := h
  cases isPresent with
  | false => exact (congrArg Settings.root (Except.ok.inj h)).symm
  | true =>
    obtain ⟨chars, -, h⟩ := bind_eq_ok_iff.mp h
    exact root_of_ofText h

theorem load_congr {p' : Path} (h : fileFor w p' = fileFor w p) : load w p' = load w p := by
  simp only [load, h]

-- What is read from a file that is named from the root does not depend on the current directory.
theorem load_of_current {current p' : Path} (hfile : fileFor w p = .ok file)
    (hfile' : fileFor { w with current := current } p' = .ok file)
    (habsolute : file.isAbsolute = true) : load { w with current := current } p' = load w p := by
  have hlocate : World.locate { w with current := current } file = w.locate file := by
    simp only [World.locate, habsolute, if_true]
  simp only [load, hfile, hfile', ok_bind, World.isPresent, World.readText, World.readBytes,
    World.entry, hlocate]

-- A file is not looked for by a path that is too long.
theorem load_of_limit {bytes : Utf8.Bytes} (hfile : fileFor w p = .ok file)
    (hbytes : World.pathBytes file = .ok bytes) (hlong : World.pathLimit ≤ bytes.length) :
    load w p = .error (.path (.refused .nameTooLong file.text)) := by
  have hasked : w.isPresent file = .error (.refused .nameTooLong file.text) := by
    rw [World.isPresent, World.entry, World.locate_of_limit hbytes hlong]
    rfl
  rw [load, hfile, ok_bind, hasked]
  rfl

-- The file for a directory is in its place.
theorem fileFor_eq (hp : Path.HasPlace w.current p) (hhome : p.startsAtHome = false)
    (hd : w.isDirectory p = .ok true) :
    fileFor w p = .ok ((Path.place w.current p).child fileName) := by
  rw [fileFor_of_isDirectory hhome hd,
    World.resolve_child hp hd isName_fileName isUsable_fileName, mapError_ok]

-- A directory and a name in it that is no directory. Neither of them starts at a home.
structure IsNamed (w : World) (p : Path) (n : Text) : Prop where
  grounded : w.IsGrounded
  directory : w.isDirectory p = .ok true
  name : Path.IsName n
  other : w.isDirectory (p.child n) ≠ .ok true
  away : p.startsAtHome = false
  childAway : (p.child n).startsAtHome = false

-- A name is refused if it is too long, and leads to the settings of its directory otherwise.
theorem IsNamed.load_child (h : IsNamed w p n) :
    load w (p.child n) =
      if World.IsTooLong (p.child n) then .error (.path (.refused .nameTooLong (p.child n).text))
      else load w p := by
  split
  · rename_i hlong
    exact load_of_isDirectory_error h.childAway
      (World.isDirectory_child_of_isTooLong h.name h.directory hlong)
  · rename_i hshort
    obtain ⟨b, hb⟩ := World.exists_isDirectory (w := w) hshort
    have hfalse : w.isDirectory (p.child n) = .ok false := by
      cases b with
      | true => exact absurd hb h.other
      | false => exact hb
    exact load_congr ((fileFor_child h.name h.childAway hfalse).trans
      (fileFor_of_isDirectory h.away h.directory).symm)

-- So is the place of a directory, wherever it is followed from.
theorem load_place (hw : w.IsGrounded) (hd : w.isDirectory p = .ok true)
    (haway : p.startsAtHome = false) (current : Path) :
    load { w with current := current } (Path.place w.current p) =
      if World.IsTooLong (Path.place w.current p) then
        .error (.path (.refused .nameTooLong (Path.place w.current p).text))
      else load w p := by
  have hplace := hw.isDirectory_place hd current
  split
  · rename_i hlong
    rw [if_pos hlong] at hplace
    exact load_of_isDirectory_error rfl hplace
  · rename_i hshort
    rw [if_neg hshort] at hplace
    have hsame := fileFor_eq (w := { w with current := current })
      (Path.hasPlace_of_isAbsolute rfl _) rfl hplace
    rw [Path.place_place (hw.dots_not_mem_place hd)] at hsame
    have habsolute : ((Path.place w.current p).child fileName).isAbsolute = true :=
      Path.isAbsolute_child isName_fileName _
    exact load_of_current (fileFor_eq (hw.hasPlace p) haway hd) hsame habsolute

-- A directory, a name in it and the place of the directory from anywhere lead to the same settings,
-- or to the same error, and the place is their root. Only a name or a place that is too long for
-- the system is refused as it stands.
theorem settings_of_every_path (h : IsNamed w p n) :
    ∃ place, w.resolve p = .ok place ∧
      (∀ settings, load w p = .ok settings → settings.root = place) ∧
      (load w (p.child n) =
        if World.IsTooLong (p.child n) then
          .error (.path (.refused .nameTooLong (p.child n).text))
        else load w p) ∧
      ∀ current, load { w with current := current } place =
        if World.IsTooLong place then .error (.path (.refused .nameTooLong place.text))
        else load w p := by
  have hp := h.grounded.hasPlace p
  refine ⟨Path.place w.current p, World.resolve_of_isDirectory hp h.directory,
    fun settings hload => ?_, h.load_child, load_place h.grounded h.directory h.away⟩
  rw [root_of_load (fileFor_eq hp h.away h.directory) hload, Path.child_of_isName isName_fileName]
  simp [Path.parent, Path.place]

-- A world in the documents of a project whose settings name its packages.
def worldInDocs : World :=
  ⟨⟨[(World.locationOf (.ofText "/project"), .directory),
      (World.locationOf (.ofText "/project/docs"), .directory),
      (World.locationOf (.ofText "/project/.tsdocgen.yml"),
        .file (Utf8.bytesOf "packages_dir: components\n".toList))]⟩,
    .ofText "/project/docs", [], [], []⟩

theorem isGrounded_worldInDocs : worldInDocs.IsGrounded := by
  have hbytes : World.pathBytes worldInDocs.current =
      .ok (Utf8.bytesOf "/project/docs".toList) := by decide +kernel
  have husable (part : Text) (hpart : part ∈ worldInDocs.current.parts.reverse) :
      World.IsUsable part :=
    World.isUsable_of_pathBytes hbytes (List.mem_reverse.mp hpart)
  exact ⟨by decide, husable, by decide, by decide +kernel⟩

theorem settings_from_docs :
    let w := worldInDocs
    let settings : Settings :=
      ⟨.ofText "/project", "jsDoc.json", "components", "mdc-drawer", "MDC"⟩
    IsNamed w (.ofText "..") "README.md" ∧ load w (.ofText "..") = .ok settings ∧
      load w (.ofText "../README.md") = .ok settings ∧
      load { w with current := .ofText "/" } (.ofText "/project") = .ok settings := by
  intro w settings
  have hnamed : IsNamed w (.ofText "..") "README.md" :=
    ⟨isGrounded_worldInDocs, by decide +kernel, ⟨by decide, by decide, by decide⟩,
      by decide +kernel, by decide, by decide⟩
  have hload : load w (.ofText "..") = .ok settings := by decide +kernel
  have hresolved : w.resolve (.ofText "..") = .ok (.ofText "/project") := by decide +kernel
  obtain ⟨place, hplace, -, hname, hcurrent⟩ := settings_of_every_path hnamed
  obtain rfl := Except.ok.inj (hplace.symm.trans hresolved)
  rw [if_neg (by decide +kernel), hload] at hname
  refine ⟨hnamed, hload, hname, ?_⟩
  rw [hcurrent, if_neg (by decide +kernel), hload]

-- Into a directory and out of it again, so many times.
def detour : Nat → List Text
  | 0 => []
  | times + 1 => "a" :: Path.dots :: detour times

theorem isPlain_of_mem_detour {times : Nat} {part : Text} (h : part ∈ detour times) :
    ∀ c ∈ part, Utf8.isPlain c = true := by
  induction times with
  | zero => simp [detour] at h
  | succ times ih =>
    rw [detour, List.mem_cons, List.mem_cons] at h
    rcases h with rfl | rfl | h
    · decide
    · decide
    · exact ih h

theorem length_text_detour (times : Nat) (more : List Text) :
    (Path.text ⟨.here, detour (times + 1) ++ more⟩).length + 1 =
      5 * (times + 1) + (more.map fun part => part.length + 1).sum := by
  have hsum (times : Nat) : ((detour times).map fun part => part.length + 1).sum = 5 * times := by
    induction times with
    | zero => rfl
    | succ times ih =>
      rw [detour, List.map_cons, List.map_cons, List.sum_cons, List.sum_cons, ih]
      have hname : List.length ("a" : Text) = 1 := rfl
      have hdots : List.length Path.dots = 2 := rfl
      omega
  rw [Path.length_text (by simp [detour]), List.map_append, List.sum_append, hsum]
  exact Nat.zero_add _

-- A world at the root with one directory.
def worldWithDirectory : World :=
  ⟨⟨[([[0x61]], .directory)]⟩, ⟨.root, []⟩, [], [], []⟩

theorem isGrounded_worldWithDirectory : worldWithDirectory.IsGrounded :=
  ⟨rfl, World.reached_nil _⟩

theorem place_detour (times : Nat) :
    Path.place worldWithDirectory.current ⟨.here, detour times⟩ = ⟨.root, []⟩ := by
  have hsettled : Path.settled worldWithDirectory.current ⟨.here, detour times⟩ = [] := by
    induction times with
    | zero => rfl
    | succ times ih => exact ih
  rw [Path.place, hsettled]
  rfl

theorem walk_detour (times : Nat) :
    worldWithDirectory.tree.walk [] (World.names (detour times)) = .ok [] := by
  induction times with
  | zero => rfl
  | succ times ih => exact ih

theorem isDirectory_detour {times : Nat} (h : 5 * (times + 1) ≤ World.pathLimit) :
    worldWithDirectory.isDirectory ⟨.here, detour (times + 1)⟩ = .ok true := by
  obtain ⟨bytes, hbytes, hlength⟩ := World.exists_pathBytes_of_isPlain
    (p := ⟨.here, detour (times + 1)⟩) fun _ => isPlain_of_mem_detour
  have htext := length_text_detour times []
  rw [List.append_nil, List.map_nil, List.sum_nil] at htext
  exact World.isDirectory_eq_true_iff.mpr
    ⟨[], World.locate_eq_ok_iff.mpr ⟨bytes, hbytes, by omega, walk_detour _⟩, rfl⟩

theorem load_detour (times : Nat) (h : 5 * (times + 1) ≤ World.pathLimit) :
    load worldWithDirectory ⟨.here, detour (times + 1)⟩ = .ok (default ⟨.root, []⟩) := by
  have hfile := fileFor_eq (isGrounded_worldWithDirectory.hasPlace _) rfl (isDirectory_detour h)
  rw [place_detour] at hfile
  have hmissing : worldWithDirectory.isPresent (Path.child ⟨.root, []⟩ fileName) = .ok false := by
    decide +kernel
  rw [load, hfile, ok_bind, hmissing]
  rfl

def notes : Text := "notes.md"

theorem isName_notes : Path.IsName notes :=
  ⟨by decide, by decide, by decide⟩

theorem child_detour (times : Nat) :
    Path.child ⟨.here, detour times⟩ notes = ⟨.here, detour times ++ [notes]⟩ :=
  Path.child_of_isName isName_notes _

theorem isTooLong_detour (times : Nat) (h : World.pathLimit ≤ 5 * (times + 1) + 8) :
    World.IsTooLong (Path.child ⟨.here, detour (times + 1)⟩ notes) := by
  rw [child_detour]
  refine World.isTooLong_of_isPlain
    (List.forall_mem_append.mpr ⟨fun _ => isPlain_of_mem_detour, by decide⟩) ?_
  have htext := length_text_detour times [notes]
  have hsum : (List.map (fun part : Text => part.length + 1) [notes]).sum = 9 := by decide
  omega

theorem isNamed_detour (times : Nat) (hshort : 5 * (times + 1) ≤ World.pathLimit)
    (hlong : World.pathLimit ≤ 5 * (times + 1) + 8) :
    IsNamed worldWithDirectory ⟨.here, detour (times + 1)⟩ notes where
  grounded := isGrounded_worldWithDirectory
  directory := isDirectory_detour hshort
  name := isName_notes
  other := by
    rw [World.isDirectory_child_of_isTooLong isName_notes (isDirectory_detour hshort)
      (isTooLong_detour times hlong)]
    simp
  away := rfl
  childAway := by
    rw [child_detour]
    rfl

def longName : Text := List.replicate 250 (.scalar 'a')

-- A world so deep that the path of its place is too long.
def worldInDepth : World :=
  ⟨⟨(List.range 17).map fun above =>
      (List.replicate (above + 1) (List.replicate 250 0x61), .directory)⟩,
    ⟨.root, List.replicate 17 longName⟩, [], [], []⟩

theorem isPlain_of_mem_current {part : Text} (h : part ∈ worldInDepth.current.parts) :
    ∀ c ∈ part, Utf8.isPlain c = true := by
  intro c hc
  rw [List.eq_of_mem_replicate h] at hc
  rw [List.eq_of_mem_replicate hc]
  rfl

theorem isGrounded_worldInDepth : worldInDepth.IsGrounded where
  absolute := rfl
  reached := {
    usable := fun part hpart c hc => Utf8.isNameable_of_isPlain
      (isPlain_of_mem_current (List.mem_reverse.mp hpart) c hc)
    plain := by decide +kernel
    walk := by decide +kernel }

theorem length_text_current (more : List Text) :
    (Path.text ⟨.root, worldInDepth.current.parts ++ more⟩).length =
      17 * 251 + (more.map fun part => part.length + 1).sum := by
  have hsum : (worldInDepth.current.parts.map fun part => part.length + 1).sum = 17 * 251 := by
    decide +kernel
  have htext := Path.length_text (p := ⟨.root, worldInDepth.current.parts ++ more⟩)
    (List.append_ne_nil_of_left_ne_nil (List.cons_ne_nil _ _) _)
  rw [List.map_append, List.sum_append, hsum] at htext
  have hanchor : (Path.mk .root (worldInDepth.current.parts ++ more)).anchor.text.length = 1 := rfl
  omega

theorem exists_pathBytes_of_depth (more : List Text)
    (hplain : ∀ part ∈ more, ∀ c ∈ part, Utf8.isPlain c = true) :
    ∃ bytes, World.pathBytes ⟨.root, worldInDepth.current.parts ++ more⟩ = .ok bytes ∧
      World.pathLimit ≤ bytes.length := by
  obtain ⟨bytes, hbytes, hlength⟩ := World.exists_pathBytes_of_isPlain
    (p := ⟨.root, worldInDepth.current.parts ++ more⟩)
    (List.forall_mem_append.mpr ⟨fun _ => isPlain_of_mem_current, hplain⟩)
  refine ⟨bytes, hbytes, ?_⟩
  rw [hlength, length_text_current]
  exact Nat.le_trans (by decide) (Nat.le_add_right _ _)

-- From so deep, a place is refused as it stands, and its directory for the file in it.
theorem load_current_ne :
    load worldInDepth worldInDepth.current ≠ load worldInDepth (.ofText ".") := by
  have hd : worldInDepth.isDirectory (.ofText ".") = .ok true := by decide +kernel
  have hplace : Path.place worldInDepth.current (.ofText ".") = worldInDepth.current :=
    congrArg (Path.mk .root) (List.reverse_reverse _)
  obtain ⟨bytes, hbytes, hlimit⟩ := exists_pathBytes_of_depth [] (by simp)
  rw [List.append_nil] at hbytes
  have hrefused := load_place isGrounded_worldInDepth hd rfl worldInDepth.current
  rw [hplace, if_pos ⟨bytes, hbytes, .inl hlimit⟩] at hrefused
  have hfile := fileFor_eq (isGrounded_worldInDepth.hasPlace _) rfl hd
  rw [hplace, Path.child_of_isName isName_fileName] at hfile
  obtain ⟨bytes, hbytes, hlimit⟩ := exists_pathBytes_of_depth [fileName] (by decide)
  rw [load_of_limit hfile hbytes hlimit, hrefused]
  -- the paths that are refused differ in their lengths
  intro hsame
  simp only [Except.error.injEq, Error.path.injEq, FileError.refused.injEq, true_and] at hsame
  have hlength : (Path.text ⟨.root, worldInDepth.current.parts ++ []⟩).length =
      (Path.text ⟨.root, worldInDepth.current.parts ++ [fileName]⟩).length := by
    rw [List.append_nil]
    exact congrArg List.length hsame
  rw [length_text_current, length_text_current] at hlength
  exact absurd hlength (by decide)

-- A name in a directory, and the place of a directory, may be too long where the directory is read.
theorem settings_unlike_of_long_paths :
    (let p : Path := ⟨.here, detour 818⟩
     IsNamed worldWithDirectory p notes ∧
       load worldWithDirectory p = .ok (default ⟨.root, []⟩) ∧
       load worldWithDirectory (p.child notes) =
         .error (.path (.refused .nameTooLong (p.child notes).text))) ∧
    IsNamed worldInDepth (.ofText ".") notes ∧
      worldInDepth.resolve (.ofText ".") = .ok worldInDepth.current ∧
      load worldInDepth worldInDepth.current ≠ load worldInDepth (.ofText ".") := by
  have hnamed : IsNamed worldWithDirectory ⟨.here, detour 818⟩ notes :=
    isNamed_detour 817 (by decide) (by decide)
  have hrefused := hnamed.load_child
  rw [if_pos (isTooLong_detour 817 (by decide))] at hrefused
  have hdeep : IsNamed worldInDepth (.ofText ".") notes :=
    ⟨isGrounded_worldInDepth, by decide +kernel, isName_notes, by decide +kernel, rfl, rfl⟩
  exact ⟨⟨hnamed, load_detour 817 (by decide), hrefused⟩, hdeep, by decide +kernel,
    load_current_ne⟩

end Settings

end ReadmeTables
