import ReadmeTables.Proofs.Extraction
import ReadmeTables.Proofs.Patch.Destination
/-!
Which READMEs the components of a document can have.

The key of a component has no slash, so below the packages it is one name, unless it is empty or
made of one or two dots. Main statement: but for these three keys a README lies in a directory
right below the packages, and two components share one only if they are one name for the system.
-/

namespace ReadmeTables.Patch

-- Keys that name no directory below the packages.
def strayKeys : List Text := [[], Path.dot, Path.dots]

theorem mem_strayKeys_iff {key : Text} :
    key ∈ strayKeys ↔ Path.isVoid key = true ∨ key = Path.dots := by
  simp [strayKeys, Path.isVoid, or_assoc]

theorem isName_of_not_mem_strayKeys {key : Text} (hslash : CodePoint.scalar '/' ∉ key)
    (h : key ∉ strayKeys) : Path.IsName key := by
  rw [mem_strayKeys_iff, not_or, Bool.not_eq_true] at h
  exact ⟨hslash, h.1, h.2⟩

-- A key without a slash adds its name to the packages, or nothing.
theorem destination_of_not_mem {key : Text} (h : CodePoint.scalar '/' ∉ key) (plan : Plan) :
    plan.destination key = ⟨plan.packages.anchor,
      plan.packages.parts ++ ((if Path.isVoid key then [] else [key]) ++ [readmeName])⟩ := by
  rw [Plan.destination, Path.child_of_not_mem h, Path.child_of_isName isName_readmeName,
    List.append_assoc]

theorem destination_eq_iff {key other : Text} (hkey : CodePoint.scalar '/' ∉ key)
    (hother : CodePoint.scalar '/' ∉ other) (plan : Plan) :
    plan.destination key = plan.destination other ↔
      key = other ∨ Path.isVoid key = true ∧ Path.isVoid other = true := by
  rw [destination_of_not_mem hkey, destination_of_not_mem hother, Path.mk.injEq]
  simp only [true_and, List.append_cancel_left_eq, List.append_cancel_right_eq]
  cases hvoid : Path.isVoid key <;> cases hvoid' : Path.isVoid other
  · simp
  · have hne : key ≠ other := fun e => by simp [e, hvoid'] at hvoid
    simp [hne]
  · have hne : key ≠ other := fun e => by simp [e, hvoid'] at hvoid
    simp [hne]
  · simp

theorem slash_not_mem_of_collected {start : Text} {root : Extraction.Root}
    {state : Extraction.State} (h : Extraction.addDocument start .initial root = .ok state)
    {key : Text} (hkey : key ∈ state.fragments.keys) : CodePoint.scalar '/' ∉ key := by
  obtain ⟨name, rfl⟩ := Extraction.exists_name_of_mem_keys h hkey
  exact Text.not_mem_before _ _

-- But for three keys the README of a component of a document lies in a directory of its own,
-- right below the packages, and a filter with something else than dots selects none of the three.
theorem destinations_confined {start : Text} {root : Extraction.Root} {state : Extraction.State}
    (hcollected : Extraction.addDocument start .initial root = .ok state) (plan : Plan)
    (w : World) :
    (∀ key ∈ state.fragments.keys, key ∉ strayKeys →
      plan.destination key = ⟨plan.packages.anchor, plan.packages.parts ++ [key, readmeName]⟩ ∧
      ∀ l, plan.leadsTo w key l →
        ∃ name base, Utf8.encodeName key = .ok name ∧ w.locate plan.packages = .ok base ∧
          w.tree.get? base = some .directory ∧ w.tree.get? (name :: base) = some .directory ∧
          l = readmeBytes :: name :: base) ∧
    (∀ key ∈ state.fragments.keys, ∀ other ∈ state.fragments.keys,
      key ∉ strayKeys → other ∉ strayKeys → key ≠ other →
        plan.destination key ≠ plan.destination other ∧
        (Utf8.encodeName key ≠ Utf8.encodeName other →
          ∀ l, plan.leadsTo w key l → ¬plan.leadsTo w other l)) ∧
    (∀ key ∈ state.fragments.keys, key ∈ [[], Path.dot] →
      plan.destination key = ⟨plan.packages.anchor, plan.packages.parts ++ [readmeName]⟩) ∧
    (Path.dots ∈ state.fragments.keys → plan.destination Path.dots =
      ⟨plan.packages.anchor, plan.packages.parts ++ [Path.dots, readmeName]⟩) ∧
    ((∃ p ∈ plan.filter, p ≠ CodePoint.scalar '.') →
      ∀ key ∈ state.fragments.keys, plan.selects key = true → key ∉ strayKeys) := by
  have hslash (key : Text) (hkey : key ∈ state.fragments.keys) : CodePoint.scalar '/' ∉ key :=
    slash_not_mem_of_collected hcollected hkey
  have hname (key : Text) (hkey : key ∈ state.fragments.keys) (hstray : key ∉ strayKeys) :
      Path.IsName key := isName_of_not_mem_strayKeys (hslash key hkey) hstray
  refine ⟨fun key hkey hstray => ⟨?_, fun l hl => ?_⟩,
    fun key hkey other hother hstray hstray' hne => ⟨fun hsame => ?_, fun hnames l hl hl' => ?_⟩,
    fun key hkey hvoid => ?_, fun hkey => ?_, fun hfilter key hkey hselects hstray => ?_⟩
  · rw [destination_of_isName (hname key hkey hstray), List.append_assoc]
    rfl
  · exact location_of_leadsTo (hname key hkey hstray) hl
  · rcases (destination_eq_iff (hslash key hkey) (hslash other hother) plan).mp hsame with
      heq | ⟨hvoid, -⟩
    · exact hne heq
    · exact hstray (mem_strayKeys_iff.mpr (.inl hvoid))
  · exact hnames (encodeName_eq_of_leadsTo (hname key hkey hstray) (hname other hother hstray')
      hl hl')
  · have hvoid : Path.isVoid key = true := by simpa [Path.isVoid] using hvoid
    rw [destination_of_not_mem (hslash key hkey), if_pos hvoid]
    rfl
  · rw [destination_of_not_mem (hslash _ hkey), if_neg (by decide)]
    rfl
  · obtain ⟨name, rfl⟩ := Extraction.exists_name_of_mem_keys hcollected hkey
    obtain ⟨-, hvoid, hdots⟩ := (namesDirectory_of_selects hfilter hselects).isName
    rcases mem_strayKeys_iff.mp hstray with hstray | hstray
    · simp [hvoid] at hstray
    · exact hdots hstray

open Json (Value)

-- A document with one documented module in each section.
def documentOf (sections : List Text) : Extraction.Root :=
  .value (.object [("children", .list (sections.map fun name => .object [("name", .text name),
    ("children", .list [.object [("name", .text "MDCDrawer"), ("kind", .whole 128)]])]))])

-- Two drawers, of which one has a README.
theorem destinations_confined_of_drawers :
    let other : Text := "mdc-drawer-modal"
    let root := documentOf ["\"mdc-drawer/adapter\"", "mdc-drawer-modal"]
    let plan : Plan := ⟨defaultPackages, defaultFilter, false⟩
    let w := packagesHolding [(defaultFilter, [])]
    ∃ state, Extraction.addDocument Extraction.defaultPrefix .initial root = .ok state ∧
      state.fragments.keys = [defaultFilter, other] ∧
      plan.destination defaultFilter = ⟨.here, ["packages", defaultFilter, readmeName]⟩ ∧
      plan.destination defaultFilter ≠ plan.destination other ∧
      ∃ l, plan.leadsTo w defaultFilter l ∧ ¬plan.leadsTo w other l := by
  intro other root plan w
  obtain ⟨state, hstate, hkeys⟩ : ∃ state,
      Extraction.addDocument Extraction.defaultPrefix .initial root = .ok state ∧
        state.fragments.keys = [defaultFilter, other] := ⟨_, rfl, by decide +kernel⟩
  have hfirst : defaultFilter ∈ state.fragments.keys := by simp [hkeys]
  have hsecond : other ∈ state.fragments.keys := by simp [hkeys]
  obtain ⟨hplace, hapart, -⟩ := destinations_confined hstate plan w
  obtain ⟨hne, hfiles⟩ :=
    hapart defaultFilter hfirst other hsecond (by decide) (by decide) (by decide)
  have hleads :
      plan.leadsTo w defaultFilter (World.locationOf (plan.destination defaultFilter)) := by
    rw [Plan.leadsTo]
    decide +kernel
  exact ⟨state, hstate, hkeys, (hplace defaultFilter hfirst (by decide)).1, hne, _, hleads,
    hfiles (by decide +kernel) _ hleads⟩

-- An empty filter selects the three keys. Two of them share the README of the packages, and the
-- third has one beside the packages.
theorem destinations_of_strayKeys_meet_and_leave :
    let root := documentOf strayKeys
    let plan : Plan := ⟨defaultPackages, [], false⟩
    let w := packagesHolding []
    (Extraction.addDocument Extraction.defaultPrefix .initial root).map
        (fun state => state.fragments.keys) = .ok strayKeys ∧
      (∀ key ∈ strayKeys, plan.selects key = true) ∧
      plan.destination [] = plan.destination Path.dot ∧
      w.locate plan.packages = .ok [Utf8.bytesOf "packages".toList] ∧
      w.locate (plan.destination []) = .ok [readmeBytes, Utf8.bytesOf "packages".toList] ∧
      w.locate (plan.destination Path.dots) = .ok [readmeBytes] := by
  intro root plan w
  exact ⟨by decide +kernel, by decide, by decide, by decide +kernel, by decide +kernel,
    by decide +kernel⟩

end ReadmeTables.Patch
