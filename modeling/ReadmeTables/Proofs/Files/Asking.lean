import Mathlib.Algebra.Ring.Nat
import ReadmeTables.Proofs.Failing
import ReadmeTables.Proofs.Patch.Destination
/-!
What the system can be asked about a path.

A path is usable if its code points are, and it may still be too long, or have a name that is.
Main statements: whether a path leads to a directory can be asked unless it is too long, and of the
names in a directory exactly those are refused that are too long or make the path too long.
-/

namespace ReadmeTables

open Failing

namespace Text

theorem length_join (separator first : Text) (rest : List Text) :
    (join separator (first :: rest)).length + separator.length =
      ((first :: rest).map fun part => part.length + separator.length).sum := by
  induction rest generalizing first with
  | nil => simp [join]
  | cons second others ih =>
    have hrest := ih second
    rw [List.map_cons, List.sum_cons, ← hrest, join, List.length_append, List.length_append]
    omega

end Text

namespace Path

theorem of_mem_text {p : Path} {c : CodePoint} (h : c ∈ p.text) :
    c = .scalar '.' ∨ c = .scalar '/' ∨ ∃ part ∈ p.parts, c ∈ part := by
  rw [text] at h
  split at h
  · exact .inl (by simpa [dot, Text.ofString, Text.ofChars] using h)
  · refine .inr ?_
    rcases List.mem_append.mp h with h | h
    · have hanchor : ∀ c ∈ p.anchor.text, c = .scalar '/' := by cases p.anchor <;> decide
      exact .inl (hanchor c h)
    · rcases Text.mem_of_mem_join h with h | hpart
      · exact .inl (by simpa [Text.ofString, Text.ofChars] using h)
      · exact .inr hpart

-- The parts of a path, each with a slash but the last, after those that it starts with.
theorem length_text {p : Path} (h : p.parts ≠ []) :
    p.text.length + 1 = p.anchor.text.length + (p.parts.map fun part => part.length + 1).sum := by
  obtain ⟨first, rest, hparts⟩ := List.exists_cons_of_ne_nil h
  have hjoin := Text.length_join "/" first rest
  rw [← hparts] at hjoin
  rw [text, if_neg fun hnone => h hnone.2, List.length_append, Nat.add_assoc]
  exact congrArg (p.anchor.text.length + ·) hjoin

theorem isAbsolute_child {n : Text} (hn : IsName n) (p : Path) :
    (p.child n).isAbsolute = p.isAbsolute := by
  rw [child_of_isName hn]
  rfl

end Path

namespace Utf8

-- A code point that may stand in a name.
def IsNameable (c : CodePoint) : Prop :=
  ∃ bytes, nameBytes? c = some bytes ∧ 0 ∉ bytes

theorem exists_nameable_iff {t : Text} :
    (∃ bytes, encodeName t = .ok bytes ∧ 0 ∉ bytes) ↔ ∀ c ∈ t, IsNameable c := by
  have hfrom (i : Nat) : (∃ bytes, encodeFrom escapedByte i t = .ok bytes ∧ 0 ∉ bytes) ↔
      ∀ c ∈ t, IsNameable c := by
    induction t generalizing i with
    | nil => simp [encodeFrom]
    | cons c rest ih =>
      rw [List.forall_mem_cons, ← ih (i + 1), IsNameable]
      simp only [encodeFrom_cons_iff]
      constructor
      · rintro ⟨_, ⟨first, others, hfirst, hothers, rfl⟩, hnull⟩
        rw [List.mem_append, not_or] at hnull
        exact ⟨⟨first, hfirst, hnull.1⟩, others, hothers, hnull.2⟩
      · rintro ⟨⟨first, hfirst, hnull⟩, others, hothers, hnull'⟩
        refine ⟨_, ⟨first, others, hfirst, hothers, rfl⟩, ?_⟩
        rw [List.mem_append, not_or]
        exact ⟨hnull, hnull'⟩
  exact hfrom 0

-- A code point that is one byte in a name.
def isPlain (c : CodePoint) : Bool :=
  match nameBytes? c with
  | some [b] => b ≠ 0
  | _ => false

theorem isPlain_eq_true_iff {c : CodePoint} :
    isPlain c = true ↔ ∃ b, nameBytes? c = some [b] ∧ b ≠ 0 := by
  rw [isPlain]
  split
  · rename_i b hb
    simp [hb]
  · rename_i hother
    simp only [Bool.false_eq_true, false_iff, not_exists, not_and]
    intro b hb
    exact absurd hb (hother b)

theorem isNameable_of_isPlain {c : CodePoint} (h : isPlain c = true) : IsNameable c := by
  obtain ⟨b, hb, hnull⟩ := isPlain_eq_true_iff.mp h
  exact ⟨_, hb, fun hmem => hnull (List.mem_singleton.mp hmem).symm⟩

theorem length_of_encodeFrom {i : Nat} {t : Text} {bytes : Bytes}
    (hplain : ∀ c ∈ t, isPlain c = true) (h : encodeFrom escapedByte i t = .ok bytes) :
    bytes.length = t.length := by
  induction t generalizing i bytes with
  | nil =>
    obtain rfl := Except.ok.inj h
    rfl
  | cons c rest ih =>
    obtain ⟨first, others, hfirst, hothers, rfl⟩ := encodeFrom_cons_iff.mp h
    obtain ⟨hc, hrest⟩ := List.forall_mem_cons.mp hplain
    obtain ⟨b, hb, -⟩ := isPlain_eq_true_iff.mp hc
    obtain rfl := Option.some.inj (hfirst.symm.trans hb)
    rw [List.length_append, ih hrest hothers, List.length_singleton, List.length_cons, Nat.add_comm]

end Utf8

namespace Tree

variable {tree : Tree} {location base l : Location} {name : Name} {names : List Name}

theorem walk_cons_iff :
    tree.walk location (name :: names) = .ok l ↔
      tree.get? location = some .directory ∧ (name ≠ twoDots → name.length ≤ nameLimit) ∧
        tree.walk (below location name) names = .ok l := by
  rw [walk, below]
  cases tree.get? location with
  | none => simp
  | some entry =>
    cases entry with
    | file bytes => simp
    | directory =>
      by_cases hdots : name = twoDots
      · simp [hdots]
      · by_cases hlong : nameLimit < name.length
        · simp [hdots, hlong, Nat.not_le.mpr hlong]
        · simp [hdots, hlong, Nat.not_lt.mp hlong]

theorem walk_append (tree : Tree) (location : Location) (names more : List Name) :
    tree.walk location (names ++ more) =
      tree.walk location names >>= fun base => tree.walk base more := by
  induction names generalizing location with
  | nil => rfl
  | cons name rest ih =>
    rw [List.cons_append, walk, walk]
    cases tree.get? location with
    | none => rfl
    | some entry =>
      cases entry with
      | file bytes => rfl
      | directory =>
        by_cases hdots : name = twoDots
        · simp only [hdots, if_true, ih]
        · by_cases hlong : nameLimit < name.length
          · simp only [hdots, hlong, if_false, if_true]
            rfl
          · simp only [hdots, hlong, if_false, ih]

theorem length_le_of_walk (h : tree.walk location names = .ok l) (hname : name ∈ names) :
    name.length ≤ nameLimit := by
  induction names generalizing location with
  | nil => simp at hname
  | cons first rest ih =>
    obtain ⟨-, hfits, hrest⟩ := walk_cons_iff.mp h
    rcases List.mem_cons.mp hname with rfl | hname
    · by_cases hdots : name = twoDots
      · rw [hdots]
        decide
      · exact hfits hdots
    · exact ih hrest hname

theorem exists_long_of_walk (h : tree.walk location names = .error .nameTooLong) :
    ∃ name ∈ names, nameLimit < name.length := by
  induction names generalizing location with
  | nil => simp [walk] at h
  | cons first rest ih =>
    rw [walk] at h
    split at h
    · simp at h
    · simp at h
    · split at h
      · obtain ⟨name, hname, hlong⟩ := ih h
        exact ⟨name, List.mem_cons_of_mem _ hname, hlong⟩
      · split at h
        · rename_i hlong
          exact ⟨first, List.mem_cons_self, hlong⟩
        · obtain ⟨name, hname, hlong⟩ := ih h
          exact ⟨name, List.mem_cons_of_mem _ hname, hlong⟩

theorem walk_concat_of_long (h : tree.walk location names = .ok base)
    (hdirectory : tree.get? base = some .directory) (hlong : nameLimit < name.length) :
    tree.walk location (names ++ [name]) = .error .nameTooLong := by
  have hdots : name ≠ twoDots := by
    rintro rfl
    exact absurd hlong (by decide)
  rw [walk_append, h, ok_bind, walk, hdirectory]
  simp only [hdots, hlong, if_true, if_false]

end Tree

namespace World

variable {w : World} {p : Path}

-- A part that may stand in the path of something.
def IsUsable (part : Text) : Prop :=
  ∀ c ∈ part, Utf8.IsNameable c

theorem exists_pathBytes_iff :
    (∃ bytes, pathBytes p = .ok bytes) ↔ ∀ c ∈ p.text, Utf8.IsNameable c := by
  simp only [pathBytes_eq_ok_iff, Utf8.exists_nameable_iff]

theorem isUsable_of_pathBytes {bytes : Utf8.Bytes} (h : pathBytes p = .ok bytes) {part : Text}
    (hpart : part ∈ p.parts) : IsUsable part :=
  fun c hc => exists_pathBytes_iff.mp ⟨bytes, h⟩ c (Path.mem_text hpart hc)

theorem exists_pathBytes_of_parts (h : ∀ part ∈ p.parts, IsUsable part) :
    ∃ bytes, pathBytes p = .ok bytes := by
  rw [exists_pathBytes_iff]
  intro c hc
  rcases Path.of_mem_text hc with rfl | rfl | ⟨part, hpart, hc⟩
  · exact ⟨_, rfl, by decide⟩
  · exact ⟨_, rfl, by decide⟩
  · exact h part hpart c hc

-- A path with one byte for each code point.
theorem exists_pathBytes_of_isPlain
    (h : ∀ part ∈ p.parts, ∀ c ∈ part, Utf8.isPlain c = true) :
    ∃ bytes, pathBytes p = .ok bytes ∧ bytes.length = p.text.length := by
  obtain ⟨bytes, hbytes⟩ := exists_pathBytes_of_parts
    fun part hpart c hc => Utf8.isNameable_of_isPlain (h part hpart c hc)
  refine ⟨bytes, hbytes, Utf8.length_of_encodeFrom ?_ (pathBytes_eq_ok_iff.mp hbytes).1⟩
  intro c hc
  rcases Path.of_mem_text hc with rfl | rfl | ⟨part, hpart, hc⟩
  · rfl
  · rfl
  · exact h part hpart c hc

-- A path, or a name in it, that is too long for the system.
def IsTooLong (p : Path) : Prop :=
  ∃ bytes, pathBytes p = .ok bytes ∧
    (pathLimit ≤ bytes.length ∨ ∃ name ∈ names p.parts, Tree.nameLimit < name.length)

instance (p : Path) : Decidable (IsTooLong p) :=
  match h : pathBytes p with
  | .ok bytes =>
    decidable_of_iff
      (pathLimit ≤ bytes.length ∨ ∃ name ∈ names p.parts, Tree.nameLimit < name.length)
      (by simp [IsTooLong, h])
  | .error _ => .isFalse (by simp [IsTooLong, h])

theorem isTooLong_of_isPlain (hplain : ∀ part ∈ p.parts, ∀ c ∈ part, Utf8.isPlain c = true)
    (hlong : pathLimit ≤ p.text.length) : IsTooLong p := by
  obtain ⟨bytes, hbytes, hlength⟩ := exists_pathBytes_of_isPlain hplain
  exact ⟨bytes, hbytes, .inl (hlength ▸ hlong)⟩

theorem locate_of_limit {bytes : Utf8.Bytes} (hbytes : pathBytes p = .ok bytes)
    (hlong : pathLimit ≤ bytes.length) :
    w.locate p = .error (.refused .nameTooLong p.text) := by
  rw [locate, hbytes, ok_bind, if_pos hlong]

theorem isTooLong_of_locate {path : Text}
    (h : w.locate p = .error (.refused .nameTooLong path)) : IsTooLong p := by
  rw [locate] at h
  cases hbytes : pathBytes p with
  | error e =>
    rw [hbytes, error_bind] at h
    obtain rfl := Except.error.inj h
    rw [pathBytes] at hbytes
    split at hbytes
    · simp at hbytes
    · split at hbytes <;> simp at hbytes
  | ok bytes =>
    rw [hbytes, ok_bind] at h
    by_cases hlong : pathLimit ≤ bytes.length
    · exact ⟨bytes, hbytes, .inl hlong⟩
    · rw [if_neg hlong] at h
      simp only at h
      split at h
      · simp at h
      · rename_i hwalk
        simp only [Except.error.injEq, FileError.refused.injEq] at h
        exact ⟨bytes, hbytes, .inr (Tree.exists_long_of_walk (h.1 ▸ hwalk))⟩

theorem ask_eq_true_iff {answer : Except FileError Bool} :
    ask answer = .ok true ↔ answer = .ok true := by
  unfold ask
  split <;> simp

theorem ask_eq_error_iff {answer : Except FileError Bool} {e : FileError} :
    ask answer = .error e ↔ answer = .error e ∧ ∃ path, e = .refused .nameTooLong path := by
  unfold ask
  split
  · rename_i path
    simp only [Except.error.injEq, iff_self_and]
    rintro rfl
    exact ⟨path, rfl⟩
  · rename_i other hother
    simp only [reduceCtorEq, Except.error.injEq, false_iff, not_and, not_exists]
    rintro rfl path rfl
    exact hother path rfl
  · simp

theorem isDirectory_eq_true_iff :
    w.isDirectory p = .ok true ↔ ∃ l, w.locate p = .ok l ∧ w.tree.get? l = some .directory := by
  rw [isDirectory, ask_eq_true_iff, map_eq_ok_iff, entry]
  simp only [bind_eq_ok_iff, decide_eq_true_eq, exists_eq_right]
  refine exists_congr fun l => and_congr_right fun _ => ?_
  split <;> simp_all

-- Whether a path leads to a directory can be asked unless the path is too long.
theorem isDirectory_eq_error_iff {e : FileError} :
    w.isDirectory p = .error e ↔
      w.locate p = .error e ∧ ∃ path, e = .refused .nameTooLong path := by
  rw [isDirectory, ask_eq_error_iff, map_eq_error_iff, entry, bind_eq_error_iff]
  refine and_congr_left fun hrefused => or_iff_left ?_
  obtain ⟨path, hpath⟩ := hrefused
  rintro ⟨l, -, h⟩
  split at h
  · simp at h
  · simp [hpath] at h

theorem exists_isDirectory (h : ¬IsTooLong p) : ∃ b, w.isDirectory p = .ok b := by
  cases hask : w.isDirectory p with
  | ok b => exact ⟨b, rfl⟩
  | error e =>
    obtain ⟨hlocate, path, rfl⟩ := isDirectory_eq_error_iff.mp hask
    exact absurd (isTooLong_of_locate hlocate) h

theorem length_le_of_locate {l : Location} (h : w.locate p = .ok l) {name : Name}
    (hname : name ∈ names p.parts) : name.length ≤ Tree.nameLimit := by
  obtain ⟨-, -, -, hwalk⟩ := locate_eq_ok_iff.mp h
  exact Tree.length_le_of_walk hwalk hname

-- In a directory, a name that is too long or makes the path too long is refused.
theorem isDirectory_child_of_isTooLong {n : Text} (hn : Path.IsName n)
    (hd : w.isDirectory p = .ok true) (h : IsTooLong (p.child n)) :
    w.isDirectory (p.child n) = .error (.refused .nameTooLong (p.child n).text) := by
  obtain ⟨l, hl, hdirectory⟩ := isDirectory_eq_true_iff.mp hd
  obtain ⟨bytes, hbytes, hlong⟩ := h
  refine isDirectory_eq_error_iff.mpr ⟨?_, _, rfl⟩
  by_cases hlimit : pathLimit ≤ bytes.length
  · exact locate_of_limit hbytes hlimit
  · obtain ⟨name, hname, hlong⟩ := hlong.resolve_left hlimit
    have hnames : names (p.child n).parts = names p.parts ++ names [n] := by
      rw [Path.child_of_isName hn]
      exact List.map_append
    -- the names of the directory have been followed, so it is the last one
    have hlast : names [n] = [name] := by
      rw [hnames, List.mem_append] at hname
      rcases hname with hname | hname
      · exact absurd (length_le_of_locate hl hname) (Nat.not_le.mpr hlong)
      · rw [List.mem_singleton.mp hname]
        rfl
    obtain ⟨-, -, -, hwalk⟩ := locate_eq_ok_iff.mp hl
    have hrefused := Tree.walk_concat_of_long hwalk hdirectory hlong
    rw [locate, hbytes, ok_bind, if_neg hlimit, Path.isAbsolute_child hn, hnames, hlast]
    simp only [hrefused]

end World

end ReadmeTables
