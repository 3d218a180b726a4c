import ReadmeTables.Proofs.Independence
import ReadmeTables.Proofs.Patch.Flag
/-!
Reading a README back.

A README with a region takes in a body as it stands, and if the body holds no carriage return,
nothing of it is lost when the file is read again. Main statement: after a flush the README of a
component holds the markers around its fragments, is read as that text, and gives its fragments
back.
-/

namespace ReadmeTables

namespace Patch

variable {plan : Plan} {s s' : Session} {f : Fragments} {key : Text} {outcomes : List Outcome}
  {bytes : Utf8.Bytes} {chars cs : List Char} {body : Text}

theorem return_not_mem_render {fragments : List Text}
    (h : ∀ fragment ∈ fragments, CodePoint.scalar '\r' ∉ fragment) :
    CodePoint.scalar '\r' ∉ Plan.render fragments := by
  intro hmem
  rcases Text.mem_of_mem_join hmem with hseparator | ⟨fragment, hfragment, hp⟩
  · revert hseparator
    decide
  · exact h fragment hfragment hp

-- A README with a region, with a body in it.
theorem revised_of_hasRegion
    (h : Region.hasRegion (Text.ofChars (Text.unifyLineEnds chars)) = true) (body : Text) :
    revised chars body = Region.startMarker ++ Region.lineFeed ++ body ++ Region.lineFeed ++
      Region.endMarker ++
      if (Text.unifyLineEnds chars).getLast? = some '\n' then Region.lineFeed else [] := by
  obtain ⟨inner, final, hinner⟩ := Region.hasRegion_eq_true_iff.mp h
  have hlast : (Text.ofChars (Text.unifyLineEnds chars)).getLast? = some (.scalar '\n') ↔
      (Text.unifyLineEnds chars).getLast? = some '\n' := by
    simp [Text.ofChars, List.getLast?_map]
  rw [revised, Region.replace_of_inner? hinner, Region.final_eq_of_inner? hinner]
  simp only [Region.wrap, hlast]

-- The body of such a README is found in it again.
theorem extract_revised (h : Region.hasRegion (Text.ofChars (Text.unifyLineEnds chars)) = true)
    (body : Text) : Region.extract (revised chars body) = some body := by
  obtain ⟨inner, final, hinner⟩ := Region.hasRegion_eq_true_iff.mp h
  rw [revised, Region.replace_of_inner? hinner]
  exact Region.extract_wrap body (Region.inner?_eq_some_iff.mp hinner).1

-- A file with a text that has no carriage return is read as that text.
theorem readText_of_readBytes {w : World} {p : Path} (hread : w.readBytes p = .ok (Utf8.bytesOf cs))
    (hreturn : '\r' ∉ cs) : w.readText p = .ok cs := by
  rw [World.readText_of_decode hread (Utf8.decode_bytesOf cs),
    Text.unifyLineEnds_eq_self hreturn]

namespace SoleFlush

-- The outcome of a component that is among those of the flush.
theorem outcomeIn_of_mem (h : SoleFlush plan key s f s' outcomes) (hkey : key ∈ f.keys)
    (hselects : plan.selects key = true) {outcome : Outcome} (hmem : outcome ∈ outcomes)
    (houtcome : outcome.key = key) :
    plan.outcomeIn s.world (key, f.get key) = .ok outcome := by
  have hentries : plan.selected (f.only key) = [(key, f.get key)] := by
    rw [Plan.selected, Fragments.entries_only h.once hkey]
    exact Plan.selected_singleton hselects
  have htold := h.outcomes_of_key
  rw [hentries] at htold
  obtain ⟨found, rest, ⟨-, hfound⟩, hrest, hfilter⟩ := List.forall₂_cons_left_iff.mp htold
  obtain rfl := List.forall₂_nil_left_iff.mp hrest
  have hmem' : outcome ∈ outcomes.filter fun outcome => outcome.key = key :=
    List.mem_filter.mpr ⟨hmem, by simpa using houtcome⟩
  rw [hfilter, List.mem_singleton] at hmem'
  rwa [hmem']

-- A component that ends well leaves its README with the text that its fragments make of it.
theorem readBytes_of_isOk (h : SoleFlush plan key s f s' outcomes) (hdry : plan.dryRun = false)
    (hkey : key ∈ f.keys) (hselects : plan.selects key = true)
    (hread : s.world.readBytes (plan.destination key) = .ok bytes)
    (hdecode : Utf8.decode bytes = .ok chars)
    (hok : ∃ outcome ∈ outcomes, outcome.key = key ∧ outcome.isOk = true) :
    ∃ cs, revised chars (Plan.render (f.get key)) = Text.ofChars cs ∧
      s'.world.readBytes (plan.destination key) = .ok (Utf8.bytesOf cs) := by
  obtain ⟨outcome, hmem, houtcome, hisOk⟩ := hok
  obtain ⟨found, decoded, cs, hfound, hlocked, hdecoded, hcs⟩ :=
    exists_readme_of_isOk hdry (h.outcomeIn_of_mem hkey hselects hmem houtcome) hisOk
  obtain rfl := Except.ok.inj (hread.symm.trans hfound)
  obtain rfl := Except.ok.inj (hdecode.symm.trans hdecoded)
  obtain ⟨l, hl, hf⟩ := World.readBytes_eq_ok_iff.mp hread
  have hafter := h.bytes?_of_key hl
  have hstill : plan.isStill s.world l = false := by
    rw [Plan.isStill_eq, hdry, ← Plan.isLocked_of_leadsTo hl, hlocked]
    rfl
  have hentries : plan.selected (f.only key) = [(key, f.get key)] := by
    rw [Plan.selected, Fragments.entries_only h.once hkey]
    exact Plan.selected_singleton hselects
  rw [hentries, Tree.bytes?_eq_some_iff.mpr hf, hstill, Option.map_some, List.map_singleton,
    List.foldl_cons, List.foldl_nil, left_of_decode hdecode, hcs, stored_ofChars,
    Tree.bytes?_eq_some_iff] at hafter
  refine ⟨cs, hcs, World.readBytes_eq_ok_iff.mpr ⟨l, ?_, hafter⟩⟩
  rwa [h.touches.world.locate_eq]

end SoleFlush

-- A README with a region that takes in fragments without a carriage return holds the markers
-- around them, is read as that text, and gives the fragments back.
theorem readme_reads_back (hopen : s.LogIsOpen)
    (hlog : ∀ l, plan.leadsTo s.world key l → s.logFile? ≠ some l) (hdry : plan.dryRun = false)
    (hfilter : ∃ p ∈ plan.filter, p ≠ CodePoint.scalar '.')
    (hsections : ∀ other ∈ f.keys, ∃ name, other = (SectionPath.ofName name).component)
    (honce : f.keys.Nodup) (hkey : key ∈ f.keys) (hselects : plan.selects key = true)
    (hnames : ∀ other ∈ f.keys, plan.selects other = true →
      Utf8.encodeName other = Utf8.encodeName key → other = key)
    (hreturn : ∀ fragment ∈ f.get key, CodePoint.scalar '\r' ∉ fragment)
    (hread : s.world.readBytes (plan.destination key) = .ok bytes)
    (hdecode : Utf8.decode bytes = .ok chars)
    (hregion : Region.hasRegion (Text.ofChars (Text.unifyLineEnds chars)) = true)
    (hflush : flush plan s f = (s', .ok outcomes))
    (hok : ∃ outcome ∈ outcomes, outcome.key = key ∧ outcome.isOk = true) :
    ∃ cs, Text.ofChars cs = Region.startMarker ++ Region.lineFeed ++ Text.join "\n" (f.get key) ++
        Region.lineFeed ++ Region.endMarker ++
        (if (Text.unifyLineEnds chars).getLast? = some '\n' then Region.lineFeed else []) ∧
      s'.world.readBytes (plan.destination key) = .ok (Utf8.bytesOf cs) ∧
      s'.world.readText (plan.destination key) = .ok cs ∧
      Region.extract (Text.ofChars cs) = some (Plan.render (f.get key)) := by
  have hsole : SoleFlush plan key s f s' outcomes :=
    ⟨hopen, hlog, honce, Plan.ownsReadme_of_names s.world hfilter hsections (hsections key hkey)
      hselects hnames, hflush⟩
  obtain ⟨cs, hcs, hafter⟩ := hsole.readBytes_of_isOk hdry hkey hselects hread hdecode hok
  have hclean : '\r' ∉ cs := by
    rw [return_mem_iff hcs]
    exact fun h => return_not_mem_render hreturn h.2
  refine ⟨cs, ?_, hafter, readText_of_readBytes hafter hclean, ?_⟩
  · rw [← hcs, revised_of_hasRegion hregion]
    rfl
  · rw [← hcs, extract_revised hregion]

theorem exists_flush_of_snd (h : (flush plan s f).2 = .ok outcomes) :
    ∃ s', flush plan s f = (s', .ok outcomes) :=
  ⟨_, Prod.ext rfl h⟩

-- Fragments with both markers, a backslash and a dollar sign, in a README with other line ends.
theorem readme_reads_back_of_drawer :
    let plan : Plan := ⟨defaultPackages, defaultFilter, false⟩
    let s : Session := .start (packagesHolding [(defaultFilter, Utf8.bytesOf
      "<!-- docgen-tsdoc-replacer:start -->\r\nold\r\n<!-- docgen-tsdoc-replacer:end -->\r\n".toList)]) []
    let f := Fragments.ofList [(defaultFilter, "<!-- docgen-tsdoc-replacer:end -->"),
      (defaultFilter, "\\1$&\n<!-- docgen-tsdoc-replacer:start -->\n")]
    ∃ s' outcomes cs, flush plan s f = (s', .ok outcomes) ∧
      s'.world.readText (plan.destination defaultFilter) = .ok cs ∧
      Region.extract (Text.ofChars cs) = some (Plan.render (f.get defaultFilter)) := by
  intro plan s f
  have hopen : s.LogIsOpen := Session.start_logIsOpen _ _
  have hlog (l : Location) : s.logFile? ≠ some l := Session.logFile?_start_ne _ _ l
  have hread : s.world.readBytes (plan.destination defaultFilter) = .ok (Utf8.bytesOf
      "<!-- docgen-tsdoc-replacer:start -->\r\nold\r\n<!-- docgen-tsdoc-replacer:end -->\r\n".toList) := by
    decide +kernel
  have hshown : (flush plan s f).2 = .ok [{ plan.blank defaultFilter with changed := true }] := by
    decide +kernel
  obtain ⟨s', hflush⟩ := exists_flush_of_snd hshown
  obtain ⟨cs, -, -, htext, hextract⟩ := readme_reads_back hopen
    (fun l _ => hlog l) rfl (by decide) (fun key hkey => ⟨key, by revert key; decide +kernel⟩)
    (Fragments.nodup_keys_ofList _) (by decide +kernel) (by decide) (by decide +kernel)
    (by decide +kernel) hread (Utf8.decode_bytesOf _) (by decide +kernel) hflush
    ⟨_, List.mem_singleton_self _, rfl, rfl⟩
  exact ⟨s', _, cs, hflush, htext, hextract⟩

-- Two components of one name: both end well, and the README of the first one holds the fragments
-- of the second.
theorem readme_reads_back_as_component_of_same_name :
    let plan : Plan := ⟨defaultPackages, defaultFilter, false⟩
    let letter : Text := "mdc-drawer-é"
    let escaped : Text :=
      defaultFilter ++ [.scalar '-', .surrogate (0xDCC3 - 0xD800), .surrogate (0xDCA9 - 0xD800)]
    let s : Session := .start (packagesHolding [(letter, Utf8.bytesOf
      "<!-- docgen-tsdoc-replacer:start -->\nold\n<!-- docgen-tsdoc-replacer:end -->".toList)]) []
    let f := Fragments.ofList [(letter, "first"), (escaped, "second")]
    (∀ key ∈ f.keys, key = (SectionPath.ofName key).component ∧ plan.selects key = true) ∧
      (flush plan s f).2.map (fun outcomes => outcomes.map fun outcome => (outcome.key, outcome.isOk))
        = .ok [(letter, true), (escaped, true)] ∧
      (flush plan s f).1.world.readText (plan.destination letter) = .ok
        "<!-- docgen-tsdoc-replacer:start -->\nsecond\n<!-- docgen-tsdoc-replacer:end -->".toList ∧
      f.get letter = ["first"] := by
  intro plan letter escaped s f
  exact ⟨by decide +kernel, by decide +kernel, by decide +kernel, by decide⟩

end Patch

end ReadmeTables
