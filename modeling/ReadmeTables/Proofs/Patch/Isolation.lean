import ReadmeTables.Proofs.Patch.Destination
/-!
What components have to do with each other.

Main statement: if the keys of sections are different names for the system, a flush treats each
selected component as if it were the only one, changes no other file, and does the same in
every order.
-/

namespace ReadmeTables.Patch

namespace Plan

variable {plan : Plan} {w : World} {l : Location} {entries others : List (Text × List Text)}

theorem HaveOwnReadmes.of_perm (hown : plan.HaveOwnReadmes w entries) (h : others.Perm entries) :
    plan.HaveOwnReadmes w others := by
  refine hown.perm h.symm ?_
  intro a b hab l hb ha
  exact hab l ha hb

theorem selected_perm (plan : Plan) {f g : Fragments} (h : g.entries.Perm f.entries) :
    (plan.selected g).Perm (plan.selected f) :=
  h.filter _

-- The order of components with READMEs of their own does not matter to a file.
theorem bodiesAt_perm (hown : plan.HaveOwnReadmes w entries) (h : others.Perm entries) :
    plan.bodiesAt w l others = plan.bodiesAt w l entries := by
  -- at most one component leads to the file, so there is nothing to put in order
  by_cases hsome : ∃ entry ∈ entries, plan.leadsTo w entry.1 l
  · obtain ⟨entry, hentry, hl⟩ := hsome
    rw [bodiesAt_of_own hown hentry hl, bodiesAt_of_own (hown.of_perm h) (h.mem_iff.mpr hentry) hl]
  · rw [bodiesAt_eq_nil fun entry hentry hl => hsome ⟨entry, hentry, hl⟩,
      bodiesAt_eq_nil fun entry hentry hl => hsome ⟨entry, h.mem_iff.mp hentry, hl⟩]

theorem selected_singleton {entry : Text × List Text} (h : plan.selects entry.1 = true) :
    plan.selected ⟨[entry]⟩ = [entry] :=
  List.filter_eq_self.mpr fun other hother => by rwa [List.mem_singleton.mp hother]

end Plan

-- Who has which result, if each result is a function of who has it.
theorem mem_zip_iff {α β ε : Type} {result : α → Except ε β} {as : List α} {bs : List β}
    (h : List.Forall₂ (fun a b => result a = .ok b) as bs) {a : α} {b : β} :
    (a, b) ∈ as.zip bs ↔ a ∈ as ∧ result a = .ok b := by
  constructor
  · intro hmem
    exact ⟨(List.of_mem_zip hmem).1, List.forall₂_zip h hmem⟩
  · rintro ⟨ha, hb⟩
    induction h with
    | nil => simp at ha
    | cons hfirst hrest ih =>
      rcases List.mem_cons.mp ha with rfl | ha
      · obtain rfl := Except.ok.inj (hb.symm.trans hfirst)
        exact List.mem_cons_self
      · exact List.mem_cons_of_mem _ (ih ha)

section Flush

variable {plan : Plan} {s s' : Session} {f g : Fragments} {outcomes : List Outcome}
  {entry : Text × List Text} {outcome : Outcome}

theorem flush_alone (hopen : s.LogIsOpen) (happart : plan.LogsApart s (plan.selected f))
    (hown : plan.HaveOwnReadmes s.world (plan.selected f)) (hentry : entry ∈ plan.selected f)
    (houtcome : plan.outcomeIn s.world entry = .ok outcome) :
    ∃ alone, flush plan s ⟨[entry]⟩ = (alone, .ok [outcome]) ∧
      (flush plan s f).1.world.readBytes (plan.destination entry.1) =
        alone.world.readBytes (plan.destination entry.1) := by
  have hselected : plan.selected ⟨[entry]⟩ = [entry] :=
    Plan.selected_singleton (mem_selected_iff.mp hentry).2
  have hmem : entry ∈ plan.selected ⟨[entry]⟩ := by simp [hselected]
  have happart₁ : plan.LogsApart s (plan.selected ⟨[entry]⟩) := by
    rw [hselected]
    intro other hother
    rw [List.mem_singleton.mp hother]
    exact happart entry hentry
  have hown₁ : plan.HaveOwnReadmes s.world (plan.selected ⟨[entry]⟩) := by
    rw [hselected]
    exact List.pairwise_singleton _ _
  obtain ⟨alone, single, hflush⟩ := (exists_flush_iff hopen plan ⟨[entry]⟩ happart₁).mpr (by
    rw [hselected]
    intro other hother
    rw [List.mem_singleton.mp hother]
    exact ⟨outcome, houtcome⟩)
  have honeByOne := flush_outcomes hopen happart₁ hown₁ hflush
  rw [hselected] at honeByOne
  obtain ⟨found, rest, hfound, hrest, rfl⟩ := List.forall₂_cons_left_iff.mp honeByOne
  obtain rfl := List.forall₂_nil_left_iff.mp hrest
  obtain rfl := Except.ok.inj (houtcome.symm.trans hfound)
  refine ⟨alone, hflush, ?_⟩
  obtain rfl : (flush plan s ⟨[entry]⟩).1 = alone := congrArg Prod.fst hflush
  rw [flush_readBytes_of_own hopen happart hown hentry,
    flush_readBytes_of_own hopen happart₁ hown₁ hmem]

theorem flush_perm (hopen : s.LogIsOpen) (happart : plan.LogsApart s (plan.selected f))
    (hown : plan.HaveOwnReadmes s.world (plan.selected f))
    (hflush : flush plan s f = (s', .ok outcomes)) (h : g.entries.Perm f.entries) :
    ∃ s'' others, flush plan s g = (s'', .ok others) ∧
      (∀ l, s.logFile? ≠ some l → s''.world.tree.get? l = s'.world.tree.get? l) ∧
      ∀ pair, pair ∈ (plan.selected g).zip others ↔ pair ∈ (plan.selected f).zip outcomes := by
  obtain rfl : (flush plan s f).1 = s' := congrArg Prod.fst hflush
  have hperm := plan.selected_perm h
  have happart' : plan.LogsApart s (plan.selected g) := fun entry hentry =>
    happart entry (hperm.mem_iff.mp hentry)
  have hown' := hown.of_perm hperm
  have hall := (exists_flush_iff hopen plan f happart).mp ⟨_, _, hflush⟩
  obtain ⟨s'', others, hflush'⟩ := (exists_flush_iff hopen plan g happart').mpr fun entry hentry =>
    hall entry (hperm.mem_iff.mp hentry)
  refine ⟨s'', others, hflush', fun l hlog => ?_, fun pair => ?_⟩
  · obtain rfl : (flush plan s g).1 = s'' := congrArg Prod.fst hflush'
    apply (flush_touches hopen plan f).world.get?_eq_of_both (flush_touches hopen plan g).world
    rw [flush_bytes? hopen plan g hlog, flush_bytes? hopen plan f hlog,
      Plan.bodiesAt_perm hown hperm]
  · obtain ⟨entry, outcome⟩ := pair
    rw [mem_zip_iff (flush_outcomes hopen happart' hown' hflush'),
      mem_zip_iff (flush_outcomes hopen happart hown hflush), hperm.mem_iff]

end Flush

-- Selected keys of sections have READMEs of their own if they are different names.
theorem haveOwnReadmes_of_sections {plan : Plan} (w : World) {f : Fragments}
    (hfilter : ∃ p ∈ plan.filter, p ≠ CodePoint.scalar '.')
    (hsections : ∀ key ∈ f.keys, ∃ name, key = (SectionPath.ofName name).component)
    (honce : f.keys.Nodup)
    (hnames : ∀ key ∈ f.keys, ∀ other ∈ f.keys, plan.selects key = true →
      plan.selects other = true → Utf8.encodeName key = Utf8.encodeName other → key = other) :
    plan.HaveOwnReadmes w (plan.selected f) := by
  have hkey (entry : Text × List Text) (hentry : entry ∈ plan.selected f) :
      entry.1 ∈ f.keys ∧ plan.selects entry.1 = true := by
    obtain ⟨hmem, hselects⟩ := mem_selected_iff.mp hentry
    exact ⟨List.mem_map_of_mem hmem, hselects⟩
  have hdiffer : (plan.selected f).Pairwise fun a b => a.1 ≠ b.1 :=
    (List.pairwise_map.mp honce).filter _
  apply haveOwnReadmes_of_names
  · intro entry hentry
    obtain ⟨hmem, hselects⟩ := hkey entry hentry
    obtain ⟨name, hname⟩ := hsections entry.1 hmem
    rw [hname] at hselects ⊢
    exact (namesDirectory_of_selects hfilter hselects).isName
  · refine hdiffer.imp_of_mem fun {a b} ha hb hne hsame => hne ?_
    obtain ⟨hamem, haselects⟩ := hkey a ha
    obtain ⟨hbmem, hbselects⟩ := hkey b hb
    exact hnames a.1 hamem b.1 hbmem haselects hbselects hsame

-- Selected components of sections that are different names for the system do not meet: each
-- ends as it does on its own, other files stay, and the order does not matter.
theorem flush_isolates_components {plan : Plan} {s s' : Session} {f : Fragments}
    {outcomes : List Outcome} (hopen : s.LogIsOpen)
    (happart : plan.LogsApart s (plan.selected f))
    (hfilter : ∃ p ∈ plan.filter, p ≠ CodePoint.scalar '.')
    (hsections : ∀ key ∈ f.keys, ∃ name, key = (SectionPath.ofName name).component)
    (honce : f.keys.Nodup)
    (hnames : ∀ key ∈ f.keys, ∀ other ∈ f.keys, plan.selects key = true →
      plan.selects other = true → Utf8.encodeName key = Utf8.encodeName other → key = other)
    (hflush : flush plan s f = (s', .ok outcomes)) :
    List.Forall₂ (fun entry outcome =>
        ∃ alone, flush plan s ⟨[entry]⟩ = (alone, .ok [outcome]) ∧
          s'.world.readBytes (plan.destination entry.1) =
            alone.world.readBytes (plan.destination entry.1))
      (plan.selected f) outcomes ∧
    (∀ l, s.logFile? ≠ some l → (∀ entry ∈ plan.selected f, ¬plan.leadsTo s.world entry.1 l) →
      s'.world.tree.get? l = s.world.tree.get? l) ∧
    ∀ g : Fragments, g.entries.Perm f.entries →
      ∃ s'' others, flush plan s g = (s'', .ok others) ∧
        (∀ l, s.logFile? ≠ some l → s''.world.tree.get? l = s'.world.tree.get? l) ∧
        ∀ pair, pair ∈ (plan.selected g).zip others ↔ pair ∈ (plan.selected f).zip outcomes := by
  have hown := haveOwnReadmes_of_sections s.world hfilter hsections honce hnames
  refine ⟨?_, ?_, fun g hperm => flush_perm hopen happart hown hflush hperm⟩
  · obtain rfl : (flush plan s f).1 = s' := congrArg Prod.fst hflush
    have honeByOne := flush_outcomes hopen happart hown hflush
    refine ((List.forall₂_and_left _ _).mpr ⟨fun _ hentry => hentry, honeByOne⟩).imp ?_
    rintro entry outcome ⟨hentry, houtcome⟩
    exact flush_alone hopen happart hown hentry houtcome
  · obtain rfl : (flush plan s f).1 = s' := congrArg Prod.fst hflush
    intro l hlog hnone
    apply (flush_touches hopen plan f).world.kept
    rintro (hl | ⟨entry, hentry, hl⟩)
    · exact hlog hl
    · exact hnone entry hentry hl

-- Two drawers of which only one has a README.
theorem flush_isolates_components_of_drawers :
    let plan : Plan := ⟨defaultPackages, defaultFilter, false⟩
    let s : Session := .start (packagesHolding [(defaultFilter, Utf8.bytesOf
      "<!-- docgen-tsdoc-replacer:start -->\nold\n<!-- docgen-tsdoc-replacer:end -->".toList)]) []
    let missing : Text := "mdc-drawer-missing"
    let f := Fragments.ofList [(missing, "lost"), (defaultFilter, "new")]
    ∃ s' outcomes, flush plan s f = (s', .ok outcomes) ∧
      List.Forall₂ (fun entry outcome =>
          ∃ alone, flush plan s ⟨[entry]⟩ = (alone, .ok [outcome]) ∧
            s'.world.readBytes (plan.destination entry.1) =
              alone.world.readBytes (plan.destination entry.1))
        (plan.selected f) outcomes := by
  intro plan s missing f
  have hopen : s.LogIsOpen := Session.start_logIsOpen _ _
  have happart : plan.LogsApart s (plan.selected f) := Plan.logsApart_of_logFile?_eq_none rfl _
  have hall : ∀ entry ∈ plan.selected f, plan.Accepts s.world entry := by decide +kernel
  obtain ⟨s', outcomes, hflush⟩ := (exists_flush_iff hopen plan f happart).mpr hall
  have hsections : ∀ key ∈ f.keys, key = (SectionPath.ofName key).component := by decide +kernel
  have hclean : ∀ key ∈ f.keys, ∀ p ∈ key, p.isSurrogate = false := by decide +kernel
  obtain ⟨halone, -⟩ := flush_isolates_components hopen happart (by decide)
    (fun key hkey => ⟨key, hsections key hkey⟩) (Fragments.nodup_keys_ofList _)
    (fun key hkey other hother _ _ =>
      Utf8.eq_of_encodeName_eq (hclean key hkey) (hclean other hother)) hflush
  exact ⟨s', outcomes, hflush, halone⟩

-- A letter and the two surrogates that stand for its bytes are one name, so one README holds the
-- body that comes last, and on their own the two components leave it with different bytes.
theorem flush_confuses_components_of_one_name :
    let plan : Plan := ⟨defaultPackages, defaultFilter, false⟩
    let letter : Text := "mdc-drawer-é"
    let escaped : Text :=
      defaultFilter ++ [.scalar '-', .surrogate (0xDCC3 - 0xD800), .surrogate (0xDCA9 - 0xD800)]
    let s : Session := .start (packagesHolding [(letter, Utf8.bytesOf
      "<!-- docgen-tsdoc-replacer:start -->\nold\n<!-- docgen-tsdoc-replacer:end -->".toList)]) []
    let readme (entries : List (Text × List Text)) :=
      (flush plan s ⟨entries⟩).1.world.readBytes (plan.destination letter)
    let first : Text × List Text := (letter, ["first"])
    let second : Text × List Text := (escaped, ["second"])
    letter ≠ escaped ∧
      (SectionPath.ofName letter).component = letter ∧
      (SectionPath.ofName escaped).component = escaped ∧
      (flush plan s ⟨[first, second]⟩).2 = .ok
        [{ plan.blank letter with changed := true }, { plan.blank escaped with changed := true }] ∧
      readme [first, second] ≠ readme [first] ∧
      readme [second, first] ≠ readme [first, second] := by
  intro plan letter escaped s readme first second
  exact ⟨by decide, by decide, by decide, by decide +kernel, by decide +kernel, by decide +kernel⟩

end ReadmeTables.Patch
