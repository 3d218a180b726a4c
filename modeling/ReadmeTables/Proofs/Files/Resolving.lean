import ReadmeTables.Proofs.Files.Asking
/-!
Where resolved paths lead.

A path is resolved by its names alone, and two dots take back the name before them. Where a path
leads to a directory, all names that are taken back have led to directories as well, so the
resolved path leads to the same place, from wherever it is followed. Main statements: a directory
is resolved to its place, and its place is a directory from everywhere unless its path is too long.
-/

namespace ReadmeTables

open Failing

namespace Path

variable {part : Text} {parts passed : List Text} {absolute : Bool}

theorem climb_of_ne (h : part ≠ dots) : climb absolute passed part = part :: passed :=
  if_neg h

theorem climb_dots (h : dots ∉ passed) : climb true passed dots = passed.tail := by
  cases passed with
  | nil => rfl
  | cons last rest =>
    have hlast : last ≠ dots := Ne.symm (List.ne_and_not_mem_of_not_mem_cons h).1
    simp [climb, hlast]

theorem mem_climb {q : Text} (h : q ∈ climb absolute passed part) : q = part ∨ q ∈ passed := by
  unfold climb at h
  split at h
  · rename_i hpart
    split at h
    · split at h
      · simp at h
      · exact .inl ((List.mem_singleton.mp h).trans hpart.symm)
    · split at h
      · rcases List.mem_cons.mp h with rfl | h
        · exact .inl hpart.symm
        · exact .inr h
      · exact .inr (List.mem_cons_of_mem _ h)
  · exact List.mem_cons.mp h

-- From a root no two dots are kept.
theorem dots_not_mem_foldl_climb (h : dots ∉ passed) (parts : List Text) :
    dots ∉ parts.foldl (climb true) passed := by
  induction parts generalizing passed with
  | nil => exact h
  | cons part rest ih =>
    rw [List.foldl_cons]
    apply ih
    by_cases hpart : part = dots
    · rw [hpart, climb_dots h]
      exact fun hmem => h (List.mem_of_mem_tail hmem)
    · rw [climb_of_ne hpart]
      exact List.not_mem_cons_of_ne_of_not_mem (Ne.symm hpart) h

theorem mem_foldl_climb {parts : List Text} {q : Text}
    (h : q ∈ parts.foldl (climb absolute) passed) : q ∈ parts ∨ q ∈ passed := by
  induction parts generalizing passed with
  | nil => exact .inr h
  | cons part rest ih =>
    rcases ih h with hrest | hclimbed
    · exact .inl (List.mem_cons_of_mem _ hrest)
    · rcases mem_climb hclimbed with rfl | hpassed
      · exact .inl List.mem_cons_self
      · exact .inr hpassed

-- Without two dots nothing is taken back.
theorem foldl_climb_of_not_mem (h : dots ∉ parts) (passed : List Text) :
    parts.foldl (climb absolute) passed = parts.reverse ++ passed := by
  induction parts generalizing passed with
  | nil => rfl
  | cons part rest ih =>
    obtain ⟨hne, hrest⟩ := List.ne_and_not_mem_of_not_mem_cons h
    rw [List.foldl_cons, climb_of_ne (Ne.symm hne), ih hrest, List.reverse_cons, List.append_assoc,
      List.singleton_append]

-- What is kept of a step is as good as the step itself, wherever it is taken later.
theorem foldl_reverse_climb {start : List Text} (h : absolute = true → start = []) :
    (climb absolute passed part).reverse.foldl (climb true) start =
      climb true (passed.reverse.foldl (climb true) start) part := by
  by_cases hpart : part = dots
  · subst hpart
    cases passed with
    | nil =>
      cases absolute with
      | true => simp [climb, h rfl]
      | false => rfl
    | cons last rest =>
      by_cases hlast : last = dots
      · have hkept : climb absolute (last :: rest) dots = dots :: last :: rest := by
          simp [climb, hlast]
        rw [hkept, List.reverse_cons, List.foldl_append, List.foldl_cons, List.foldl_nil]
      · have htaken : climb absolute (last :: rest) dots = rest := by simp [climb, hlast]
        rw [htaken, List.reverse_cons, List.foldl_append, List.foldl_cons, List.foldl_nil,
          climb_of_ne hlast]
        simp [climb, hlast]
  · rw [climb_of_ne hpart, List.reverse_cons, List.foldl_append, List.foldl_cons, List.foldl_nil]

theorem foldl_collapse {start : List Text} (h : absolute = true → start = []) :
    (collapse absolute parts).foldl (climb true) start = parts.foldl (climb true) start := by
  rw [collapse]
  induction parts using List.reverseRecOn with
  | nil => rfl
  | append_singleton parts part ih =>
    rw [List.foldl_append, List.foldl_cons, List.foldl_nil, foldl_reverse_climb h, ih,
      List.foldl_append, List.foldl_cons, List.foldl_nil]

-- The parts of a path after those of where it starts, without two dots.
def settled (before p : Path) : List Text :=
  p.parts.foldl (climb true) (if p.isAbsolute then [] else before.parts.reverse)

-- The place that a path names from a root, without two dots.
def place (before p : Path) : Path :=
  ⟨.root, (settled before p).reverse⟩

-- A path starts at a root, or else what is before it does and has no two dots.
def HasPlace (before p : Path) : Prop :=
  p.isAbsolute = false → before.anchor = .root ∧ dots ∉ before.parts

theorem hasPlace_of_isAbsolute {p : Path} (h : p.isAbsolute = true) (before : Path) :
    HasPlace before p :=
  fun hrelative => absurd hrelative (by simp [h])

theorem from_collapse {before p : Path} (h : HasPlace before p) :
    from_ before ⟨if p.isAbsolute then .root else .here, collapse p.isAbsolute p.parts⟩ =
      place before p := by
  rw [place, settled]
  cases hp : p.isAbsolute with
  | true =>
    have hsame : collapse true (collapse true p.parts) = collapse true p.parts :=
      congrArg List.reverse (foldl_collapse fun _ => rfl)
    exact congrArg (Path.mk .root) hsame
  | false =>
    obtain ⟨hanchor, hdots⟩ := h hp
    have hbefore : before.parts.foldl (climb true) [] = before.parts.reverse := by
      rw [foldl_climb_of_not_mem hdots, List.append_nil]
    have hsame : collapse true (before.parts ++ collapse false p.parts) =
        (p.parts.foldl (climb true) before.parts.reverse).reverse := by
      have hrelative : false = true → before.parts.reverse = [] := nofun
      rw [collapse, List.foldl_append, hbefore, foldl_collapse hrelative]
    calc from_ before ⟨.here, collapse false p.parts⟩
      _ = ⟨before.anchor, collapse true (before.parts ++ collapse false p.parts)⟩ := rfl
      _ = ⟨.root, (p.parts.foldl (climb true) before.parts.reverse).reverse⟩ := by
          rw [hanchor, hsame]

-- A name in a directory is a name in its place.
theorem place_child {n : Text} (hn : IsName n) (before p : Path) :
    place before (p.child n) = (place before p).child n := by
  rw [child_of_isName hn (place before p), place, settled, isAbsolute_child hn,
    child_of_isName hn p]
  simp [place, settled, climb_of_ne hn.2.2]

theorem place_place {before p : Path} (h : dots ∉ (place before p).parts) (current : Path) :
    place current (place before p) = place before p := by
  have hsettled : settled current (place before p) = (place before p).parts.reverse := by
    rw [settled, foldl_climb_of_not_mem h]
    exact List.append_nil _
  rw [place, hsettled, List.reverse_reverse]
  rfl

end Path

namespace World

variable {w : World} {p : Path} {parts : List Text}

-- As long as all parts are usable, no step of resolving fails.
theorem foldlM_climb {absolute : Bool} {passed : List Text} (anchor : Anchor)
    (hpassed : ∀ part ∈ passed, IsUsable part) (hparts : ∀ part ∈ parts, IsUsable part) :
    parts.foldlM (fun passed part =>
      let next := Path.climb absolute passed part
      if part = Path.dots then .ok next
      else (pathBytes ⟨anchor, next.reverse⟩).map fun _ => next) passed =
      .ok (parts.foldl (Path.climb absolute) passed) := by
  induction parts generalizing passed with
  | nil => rfl
  | cons part rest ih =>
    obtain ⟨hpart, hrest⟩ := List.forall_mem_cons.mp hparts
    have hnext (q : Text) (hq : q ∈ Path.climb absolute passed part) : IsUsable q := by
      rcases Path.mem_climb hq with rfl | hq
      · exact hpart
      · exact hpassed q hq
    obtain ⟨bytes, hbytes⟩ := exists_pathBytes_of_parts
      (p := ⟨anchor, (Path.climb absolute passed part).reverse⟩)
      fun q hq => hnext q (List.mem_reverse.mp hq)
    rw [List.foldlM_cons, List.foldl_cons, ← ih hnext hrest]
    by_cases hdots : part = Path.dots
    · simp only [hdots, if_true]
      rfl
    · simp only [hdots, if_false, hbytes]
      rfl

-- A path of usable parts is resolved by its names alone.
theorem resolve_eq (h : ∀ part ∈ p.parts, IsUsable part) :
    w.resolve p = .ok (Path.from_ w.current
      ⟨if p.isAbsolute then .root else .here, Path.collapse p.isAbsolute p.parts⟩) := by
  rw [resolve]
  simp only [foldlM_climb _ (List.forall_mem_nil _) h]
  rfl

-- A path of usable parts is resolved to its place.
theorem resolve_eq_place (h : ∀ part ∈ p.parts, IsUsable part)
    (hp : Path.HasPlace w.current p) : w.resolve p = .ok (Path.place w.current p) := by
  rw [resolve_eq h, Path.from_collapse hp]

-- Each part of a path that is resolved was one that the system could be asked for.
theorem isUsable_of_foldlM_climb {absolute : Bool} {passed kept : List Text} {anchor : Anchor}
    (h : parts.foldlM (fun passed part =>
      let next := Path.climb absolute passed part
      if part = Path.dots then .ok next
      else (pathBytes ⟨anchor, next.reverse⟩).map fun _ => next) passed = .ok kept) :
    ∀ part ∈ parts, IsUsable part := by
  induction parts generalizing passed with
  | nil => exact List.forall_mem_nil _
  | cons part rest ih =>
    rw [List.foldlM_cons, bind_eq_ok_iff] at h
    obtain ⟨next, hnext, hrest⟩ := h
    refine List.forall_mem_cons.mpr ⟨?_, ih hrest⟩
    by_cases hdots : part = Path.dots
    · subst hdots
      exact Utf8.exists_nameable_iff.mp ⟨_, rfl, by decide⟩
    · simp only [hdots, if_false, map_eq_ok_iff] at hnext
      obtain ⟨bytes, hbytes, -⟩ := hnext
      refine isUsable_of_pathBytes hbytes ?_
      rw [Path.climb_of_ne hdots]
      simp

theorem isUsable_of_resolve {q : Path} (h : w.resolve p = .ok q) :
    ∀ part ∈ p.parts, IsUsable part := by
  rw [resolve, map_eq_ok_iff] at h
  obtain ⟨kept, hkept, -⟩ := h
  exact isUsable_of_foldlM_climb hkept

-- A path from the root that has usable parts and no two dots is resolved to itself.
theorem resolve_eq_self (hroot : p.anchor = .root) (hplain : Path.dots ∉ p.parts)
    (husable : ∀ part ∈ p.parts, IsUsable part) : w.resolve p = .ok p := by
  have habsolute : p.isAbsolute = true := by simp [Path.isAbsolute, hroot]
  have hsettled : Path.settled w.current p = p.parts.reverse := by
    rw [Path.settled, if_pos habsolute, Path.foldl_climb_of_not_mem hplain, List.append_nil]
  rw [resolve_eq_place husable (Path.hasPlace_of_isAbsolute habsolute _), Path.place, hsettled,
    List.reverse_reverse, ← hroot]

theorem IsUsable.encodeName {part : Text} (h : IsUsable part) :
    ∃ name, Utf8.encodeName part = .ok name := by
  obtain ⟨name, hname, -⟩ := Utf8.exists_nameable_iff.mpr h
  exact ⟨name, hname⟩

theorem names_cons (part : Text) : names (part :: parts) = names [part] ++ names parts := rfl

theorem names_reverse (parts : List Text) : names parts.reverse = (names parts).reverse :=
  List.map_reverse

theorem names_dots : names [Path.dots] = [Tree.twoDots] := by decide

-- The bytes of a usable part are two dots only if the part is.
theorem exists_names_eq {part : Text} (h : IsUsable part) (hdots : part ≠ Path.dots) :
    ∃ name, names [part] = [name] ∧ name ≠ Tree.twoDots := by
  obtain ⟨name, hname⟩ := h.encodeName
  refine ⟨name, by simp [names, hname, Except.toOption], ?_⟩
  rintro rfl
  exact hdots (Utf8.eq_of_encodeName_dots (n := 2) hname)

-- Parts without two dots, from the innermost one outwards, that lead where their names say.
structure Reached (tree : Tree) (passed : List Text) : Prop where
  usable : ∀ part ∈ passed, IsUsable part
  plain : Path.dots ∉ passed
  walk : tree.walk [] (names passed).reverse = .ok (names passed)

theorem reached_nil (tree : Tree) : Reached tree [] :=
  ⟨List.forall_mem_nil _, List.not_mem_nil, rfl⟩

theorem Reached.tail {tree : Tree} {passed : List Text} (h : Reached tree passed) :
    Reached tree passed.tail := by
  cases passed with
  | nil => exact reached_nil tree
  | cons last rest =>
    obtain ⟨hlast, hrest⟩ := List.forall_mem_cons.mp h.usable
    obtain ⟨hne, hplain⟩ := List.ne_and_not_mem_of_not_mem_cons h.plain
    obtain ⟨name, hname, hdots⟩ := exists_names_eq hlast (Ne.symm hne)
    have hwalk := h.walk
    rw [names_cons, hname, List.singleton_append, List.reverse_cons] at hwalk
    obtain ⟨base, hbase, -, hbelow⟩ := Tree.walk_concat hwalk
    rw [Tree.below, if_neg hdots, List.cons.injEq] at hbelow
    exact ⟨hrest, hplain, hbelow.2 ▸ hbase⟩

-- Where a part leads, the same place is reached by its name, or without the name that two dots
-- take back.
theorem Reached.climb {tree : Tree} {passed : List Text} {part : Text} {l : Location}
    (h : Reached tree passed) (hpart : IsUsable part)
    (hwalk : tree.walk (names passed) (names [part]) = .ok l) :
    Reached tree (Path.climb true passed part) ∧ l = names (Path.climb true passed part) := by
  by_cases hdots : part = Path.dots
  · subst hdots
    rw [names_dots, Tree.walk_cons_iff, Tree.below, if_pos rfl] at hwalk
    rw [Path.climb_dots h.plain]
    refine ⟨h.tail, (Except.ok.inj hwalk.2.2).symm.trans ?_⟩
    exact List.map_tail.symm
  · obtain ⟨name, hname, hne⟩ := exists_names_eq hpart hdots
    rw [Path.climb_of_ne hdots, names_cons part, hname]
    rw [hname] at hwalk
    have hl : l = name :: names passed := by
      have hbelow := (Tree.walk_cons_iff.mp hwalk).2.2
      rw [Tree.below, if_neg hne] at hbelow
      exact (Except.ok.inj hbelow).symm
    refine ⟨⟨List.forall_mem_cons.mpr ⟨hpart, h.usable⟩,
      List.not_mem_cons_of_ne_of_not_mem (Ne.symm hdots) h.plain, ?_⟩, hl⟩
    rw [names_cons, hname, List.singleton_append, List.reverse_cons, Tree.walk_append, h.walk]
    exact hl ▸ hwalk

-- Where a path leads, the same place is reached without two dots.
theorem Reached.foldl_climb {tree : Tree} {passed parts : List Text} {l : Location}
    (h : Reached tree passed) (hparts : ∀ part ∈ parts, IsUsable part)
    (hwalk : tree.walk (names passed) (names parts) = .ok l) :
    Reached tree (parts.foldl (Path.climb true) passed) ∧
      l = names (parts.foldl (Path.climb true) passed) := by
  induction parts generalizing passed with
  | nil => exact ⟨h, (Except.ok.inj hwalk).symm⟩
  | cons part rest ih =>
    obtain ⟨hpart, hrest⟩ := List.forall_mem_cons.mp hparts
    rw [names_cons, Tree.walk_append, bind_eq_ok_iff] at hwalk
    obtain ⟨base, hstep, hwalk⟩ := hwalk
    obtain ⟨hnext, rfl⟩ := h.climb hpart hstep
    exact ih hnext hrest hwalk

-- The current directory is where its path says, without two dots.
structure IsGrounded (w : World) : Prop where
  absolute : w.current.anchor = .root
  reached : Reached w.tree w.current.parts.reverse

theorem IsGrounded.hasPlace (h : w.IsGrounded) (p : Path) : Path.HasPlace w.current p :=
  fun _ => ⟨h.absolute, fun hmem => h.reached.plain (List.mem_reverse.mpr hmem)⟩

-- A path leads where its place says.
theorem IsGrounded.reached_settled (h : w.IsGrounded) {l : Location} (hl : w.locate p = .ok l) :
    Reached w.tree (Path.settled w.current p) ∧ l = names (Path.settled w.current p) := by
  obtain ⟨bytes, hbytes, -, hwalk⟩ := locate_eq_ok_iff.mp hl
  have husable : ∀ part ∈ p.parts, IsUsable part := fun _ => isUsable_of_pathBytes hbytes
  rw [Path.settled]
  by_cases habsolute : p.isAbsolute
  · rw [if_pos habsolute] at hwalk ⊢
    exact (reached_nil w.tree).foldl_climb husable hwalk
  · rw [if_neg habsolute] at hwalk ⊢
    rw [locationOf, ← names_reverse] at hwalk
    exact h.reached.foldl_climb husable hwalk

-- What a path is resolved to is resolved to itself, and so is the directory above it.
theorem IsGrounded.resolve_again (h : w.IsGrounded) {q : Path} (hq : w.resolve p = .ok q) :
    w.resolve q = .ok q ∧ w.resolve q.parent = .ok q.parent := by
  have husable := isUsable_of_resolve hq
  rw [resolve_eq_place husable (h.hasPlace p)] at hq
  obtain rfl := Except.ok.inj hq
  have hplain : Path.dots ∉ (Path.place w.current p).parts := by
    rw [Path.place, Path.settled, List.mem_reverse]
    split
    · exact Path.dots_not_mem_foldl_climb List.not_mem_nil _
    · exact Path.dots_not_mem_foldl_climb h.reached.plain _
  have hparts : ∀ part ∈ (Path.place w.current p).parts, IsUsable part := by
    intro part hpart
    rw [Path.place, Path.settled, List.mem_reverse] at hpart
    rcases Path.mem_foldl_climb hpart with hpart | hpart
    · exact husable part hpart
    · split at hpart
      · simp at hpart
      · exact h.reached.usable part hpart
  exact ⟨resolve_eq_self rfl hplain hparts,
    resolve_eq_self rfl (fun hmem => hplain (List.dropLast_subset _ hmem))
      fun part hpart => hparts part (List.dropLast_subset _ hpart)⟩

theorem isUsable_of_isDirectory (hd : w.isDirectory p = .ok true) {part : Text}
    (hpart : part ∈ p.parts) : IsUsable part := by
  obtain ⟨l, hl, -⟩ := isDirectory_eq_true_iff.mp hd
  obtain ⟨bytes, hbytes, -⟩ := locate_eq_ok_iff.mp hl
  exact isUsable_of_pathBytes hbytes hpart

-- A directory, and what is in it by name, is resolved to its place.
theorem resolve_of_isDirectory (hp : Path.HasPlace w.current p)
    (hd : w.isDirectory p = .ok true) : w.resolve p = .ok (Path.place w.current p) :=
  resolve_eq_place (fun _ => isUsable_of_isDirectory hd) hp

theorem resolve_child (hp : Path.HasPlace w.current p) (hd : w.isDirectory p = .ok true)
    {n : Text} (hn : Path.IsName n) (husable : IsUsable n) :
    w.resolve (p.child n) = .ok ((Path.place w.current p).child n) := by
  rw [← Path.place_child hn]
  refine resolve_eq_place (fun part hpart => ?_) fun h =>
    hp ((Path.isAbsolute_child hn p).symm.trans h)
  rw [Path.child_of_isName hn, List.mem_append, List.mem_singleton] at hpart
  rcases hpart with hpart | rfl
  · exact isUsable_of_isDirectory hd hpart
  · exact husable

theorem IsGrounded.reached_place (h : w.IsGrounded) (hd : w.isDirectory p = .ok true) :
    Reached w.tree (Path.place w.current p).parts.reverse ∧
      w.tree.get? (locationOf (Path.place w.current p)) = some .directory := by
  obtain ⟨l, hl, hdirectory⟩ := isDirectory_eq_true_iff.mp hd
  obtain ⟨hreached, rfl⟩ := h.reached_settled hl
  rw [locationOf, ← names_reverse, Path.place, List.reverse_reverse]
  exact ⟨hreached, hdirectory⟩

theorem IsGrounded.dots_not_mem_place (h : w.IsGrounded) (hd : w.isDirectory p = .ok true) :
    Path.dots ∉ (Path.place w.current p).parts :=
  fun hmem => (h.reached_place hd).1.plain (List.mem_reverse.mpr hmem)

-- The place of a directory is a directory from everywhere, unless its path is too long.
theorem IsGrounded.isDirectory_place (h : w.IsGrounded) (hd : w.isDirectory p = .ok true)
    (current : Path) :
    isDirectory { w with current := current } (Path.place w.current p) =
      if IsTooLong (Path.place w.current p) then
        .error (.refused .nameTooLong (Path.place w.current p).text)
      else .ok true := by
  obtain ⟨hreached, hdirectory⟩ := h.reached_place hd
  obtain ⟨bytes, hbytes⟩ := exists_pathBytes_of_parts (p := Path.place w.current p)
    fun part hpart => hreached.usable part (List.mem_reverse.mpr hpart)
  have hwalk : w.tree.walk [] (names (Path.place w.current p).parts) =
      .ok (locationOf (Path.place w.current p)) := by
    have hwalk := hreached.walk
    rwa [names_reverse, List.reverse_reverse] at hwalk
  split
  · rename_i hlong
    obtain ⟨found, hfound, hlong⟩ := hlong
    obtain ⟨name, hname, hlong⟩ | hlimit := hlong.symm
    · exact absurd (Tree.length_le_of_walk hwalk hname) (Nat.not_le.mpr hlong)
    · exact isDirectory_eq_error_iff.mpr ⟨locate_of_limit hfound hlimit, _, rfl⟩
  · rename_i hshort
    have hfits : bytes.length < pathLimit :=
      Nat.not_le.mp fun hlong => hshort ⟨bytes, hbytes, .inl hlong⟩
    exact isDirectory_eq_true_iff.mpr
      ⟨_, locate_eq_ok_iff.mpr ⟨bytes, hbytes, hfits, hwalk⟩, hdirectory⟩

end World

end ReadmeTables
