import ReadmeTables.Proofs.Extraction
import ReadmeTables.Proofs.Patch.Isolation
import ReadmeTables.Proofs.Run
/-!
What one component depends on.

A walk collects for a component what its own sections hold, and a flush handles it by that and by
its README. Main statement: two runs whose documents have the same sections of a component agree on
its fragments, its outcome and its README, unless another component is the same name for the system.
-/

namespace ReadmeTables

namespace Patch

open Session (Touches LogIsOpen)

variable {plan : Plan} {w w' : World} {s s' : Session} {key : Text} {l : Location} {f : Fragments}
  {entries : List (Text × List Text)} {outcomes : List Outcome}

namespace Plan

-- No other component leads to the README of a key.
def OwnsReadme (plan : Plan) (w : World) (key : Text) (entries : List (Text × List Text)) : Prop :=
  ∀ entry ∈ entries, entry.1 ≠ key → ∀ l, plan.leadsTo w key l → ¬plan.leadsTo w entry.1 l

theorem OwnsReadme.of_sameBut {touched : Location → Prop} (h : plan.OwnsReadme w key entries)
    (hsame : World.SameBut touched w w') : plan.OwnsReadme w' key entries := by
  intro entry hentry hne l hl
  rw [leadsTo_congr hsame] at hl ⊢
  exact h entry hentry hne l hl

theorem selected_only (plan : Plan) (f : Fragments) (key : Text) :
    plan.selected (f.only key) = (plan.selected f).filter fun entry => entry.1 = key := by
  rw [selected, Fragments.only, selected, List.filter_filter, List.filter_filter]
  exact List.filter_congr fun entry _ => Bool.and_comm _ _

-- Only the bodies of a key go to a README that it owns.
theorem bodiesAt_of_ownsReadme (h : plan.OwnsReadme w key (plan.selected f))
    (hl : plan.leadsTo w key l) :
    plan.bodiesAt w l (plan.selected f) = (plan.selected (f.only key)).map fun entry =>
      render entry.2 := by
  rw [selected_only, bodiesAt]
  congr 1
  refine List.filter_congr fun entry hentry => ?_
  rw [decide_eq_decide, ← leadsTo_iff]
  constructor
  · intro hentryl
    by_contra hne
    exact h entry hentry hne l hl hentryl
  · rintro rfl
    exact hl

-- A selected component of a section owns its README, if it shares its name with no other one.
theorem ownsReadme_of_names (w : World)
    (hfilter : ∃ p ∈ plan.filter, p ≠ CodePoint.scalar '.')
    (hsections : ∀ other ∈ f.keys, ∃ name, other = (SectionPath.ofName name).component)
    (hkey : ∃ name, key = (SectionPath.ofName name).component)
    (hselects : plan.selects key = true)
    (hnames : ∀ other ∈ f.keys, plan.selects other = true →
      Utf8.encodeName other = Utf8.encodeName key → other = key) :
    plan.OwnsReadme w key (plan.selected f) := by
  have hname {other : Text} (hsection : ∃ name, other = (SectionPath.ofName name).component)
      (hselected : plan.selects other = true) : Path.IsName other := by
    obtain ⟨name, rfl⟩ := hsection
    exact (namesDirectory_of_selects hfilter hselected).isName
  intro entry hentry hne l hl hl'
  obtain ⟨hmem, hselected⟩ := mem_selected_iff.mp hentry
  have hother : entry.1 ∈ f.keys := List.mem_map_of_mem hmem
  have hsame := encodeName_eq_of_leadsTo (hname (hsections _ hother) hselected)
    (hname hkey hselects) hl' hl
  exact hne (hnames entry.1 hother hselected hsame)

theorem outcomeIn_key {entry : Text × List Text} {outcome : Outcome}
    (h : plan.outcomeIn w entry = .ok outcome) : outcome.key = entry.1 := by
  rcases outcomeIn_cases h with ⟨_, _, _, rfl⟩ | ⟨_, _, _, _, rfl⟩ | ⟨_, _, _, _, hwritten⟩
  · rfl
  · rfl
  · rw [written] at hwritten
    split at hwritten
    · rw [← Except.ok.inj hwritten]
      rfl
    · split at hwritten
      · rw [← Except.ok.inj hwritten]
        rfl
      · split at hwritten
        · rw [← Except.ok.inj hwritten]
          rfl
        · simp at hwritten

end Plan

-- A component that owns its README has the outcome that is told before all components.
theorem components_outcomes_of_ownsReadme (hopen : s.LogIsOpen)
    (hlog : ∀ l, plan.leadsTo s.world key l → s.logFile? ≠ some l)
    (honce : (entries.map Prod.fst).Nodup) (hown : plan.OwnsReadme s.world key entries)
    (h : (components plan s entries).2 = outcomes.map .ok) :
    List.Forall₂ (fun entry outcome => entry.1 = key ∧ plan.outcomeIn s.world entry = .ok outcome)
      (entries.filter fun entry => entry.1 = key)
      (outcomes.filter fun outcome => outcome.key = key) := by
  have hapart : entries.Pairwise fun a b => b.1 = key →
      ∀ l, plan.leadsTo s.world b.1 l → ¬plan.leadsTo s.world a.1 l := by
    refine (List.pairwise_map.mp honce).imp_of_mem fun {a b} ha _ hne hb l hl => ?_
    subst hb
    exact hown a ha hne l hl
  have hresults := components_results hopen plan (fun entry => entry.1 = key)
    (fun entry _ hentry l hl => hlog l (hentry ▸ hl)) hapart
  rw [h, List.forall₂_map_right_iff] at hresults
  -- the outcomes of the key stand where its entries stand
  have hfiltered := List.rel_filter (p := fun entry => entry.1 = key)
    (q := fun outcome : Outcome => outcome.key = key) (fun {entry outcome} hresult => by
      obtain ⟨⟨w, hw⟩, -⟩ := hresult
      simp [Plan.outcomeIn_key hw.symm]) hresults
  refine ((List.forall₂_and_left _ _).mpr ⟨fun _ hentry => hentry, hfiltered⟩).imp ?_
  rintro entry outcome ⟨hentry, -, houtcome⟩
  have hkey : entry.1 = key := of_decide_eq_true (List.mem_filter.mp hentry).2
  exact ⟨hkey, (houtcome hkey).symm⟩

-- A flush that ends with outcomes and in which a component has its README to itself.
structure SoleFlush (plan : Plan) (key : Text) (s : Session) (f : Fragments) (s' : Session)
    (outcomes : List Outcome) : Prop where
  isOpen : s.LogIsOpen
  apart : ∀ l, plan.leadsTo s.world key l → s.logFile? ≠ some l
  once : f.keys.Nodup
  owns : plan.OwnsReadme s.world key (plan.selected f)
  flush : flush plan s f = (s', .ok outcomes)

namespace SoleFlush

theorem touches (h : SoleFlush plan key s f s' outcomes) :
    Touches (fun l => ∃ entry ∈ plan.selected f, plan.leadsTo s.world entry.1 l) s s' := by
  obtain rfl : (Patch.flush plan s f).1 = s' := congrArg Prod.fst h.flush
  exact flush_touches h.isOpen plan f

theorem outcomes_of_key (h : SoleFlush plan key s f s' outcomes) :
    List.Forall₂ (fun entry outcome => entry.1 = key ∧ plan.outcomeIn s.world entry = .ok outcome)
      (plan.selected (f.only key)) (outcomes.filter fun outcome => outcome.key = key) := by
  have hopened := opened_touches h.isOpen plan f
  have hgathered := gather_eq_ok_iff.mp (congrArg Prod.snd (flush_eq plan s f ▸ h.flush))
  have honce : ((plan.selected f).map Prod.fst).Nodup :=
    h.once.sublist (List.filter_sublist.map Prod.fst)
  have hlog (l : Location) (hl : plan.leadsTo (opened plan s f).world key l) :
      (opened plan s f).logFile? ≠ some l := by
    rw [hopened.logFile?_eq]
    exact h.apart l ((Plan.leadsTo_congr hopened.world plan key l).mp hl)
  have htold := components_outcomes_of_ownsReadme (hopened.logIsOpen h.isOpen) hlog honce
    (h.owns.of_sameBut hopened.world) hgathered
  rw [← Plan.selected_only] at htold
  refine htold.imp ?_
  rintro entry outcome ⟨rfl, houtcome⟩
  rw [Plan.outcomeIn_congr hopened.world plan fun l hl => Session.untouched (h.apart l hl)]
    at houtcome
  exact ⟨rfl, houtcome⟩

-- The README takes in what is under the key.
theorem bytes?_of_key (h : SoleFlush plan key s f s' outcomes) (hl : plan.leadsTo s.world key l) :
    s'.world.tree.bytes? l =
      (s.world.tree.bytes? l).map (((plan.selected (f.only key)).map fun entry =>
        Plan.render entry.2).foldl (left (plan.isStill s.world l))) := by
  obtain rfl : (Patch.flush plan s f).1 = s' := congrArg Prod.fst h.flush
  rw [flush_bytes? h.isOpen plan f (h.apart l hl), Plan.bodiesAt_of_ownsReadme h.owns hl]

end SoleFlush

-- Flushes of the same fragments under a key agree on its outcome and its README, if that holds the
-- same before them.
theorem SoleFlush.agree {s₁ s₂ s₁' s₂' : Session} {f₁ f₂ : Fragments}
    {outcomes₁ outcomes₂ : List Outcome} {touched : Location → Prop}
    (h₁ : SoleFlush plan key s₁ f₁ s₁' outcomes₁) (h₂ : SoleFlush plan key s₂ f₂ s₂' outcomes₂)
    (hworlds : World.SameBut touched s₁.world s₂.world)
    (hkept : ∀ l, plan.leadsTo s₁.world key l → ¬touched l)
    (hfragments : f₁.only key = f₂.only key) :
    (outcomes₁.filter fun outcome => outcome.key = key) =
        outcomes₂.filter (fun outcome => outcome.key = key) ∧
      s₁'.world.readBytes (plan.destination key) = s₂'.world.readBytes (plan.destination key) := by
  constructor
  · have htold₂ := h₂.outcomes_of_key
    rw [← hfragments] at htold₂
    rw [← List.forall₂_eq_eq_eq]
    refine forall₂_of_common ?_ htold₂ h₁.outcomes_of_key
    rintro entry outcome₂ outcome₁ ⟨rfl, houtcome₂⟩ ⟨-, houtcome₁⟩
    rw [Plan.outcomeIn_congr hworlds plan hkept] at houtcome₂
    exact Except.ok.inj (houtcome₁.symm.trans houtcome₂)
  · have hafter : World.SameBut (fun _ => True) s₁'.world s₂'.world :=
      (h₁.touches.world.symm.mono fun _ _ => trivial).trans
        ((hworlds.mono fun _ _ => trivial).trans (h₂.touches.world.mono fun _ _ => trivial))
    refine (World.readBytes_congr (hafter.locate_eq _) fun l hl => hafter.get?_eq ?_).symm
    have hl₁ : plan.leadsTo s₁.world key l := (h₁.touches.world.locate_eq _).symm.trans hl
    have hl₂ : plan.leadsTo s₂.world key l := (Plan.leadsTo_congr hworlds plan key l).mpr hl₁
    rw [h₁.bytes?_of_key hl₁, h₂.bytes?_of_key hl₂, hfragments, Plan.isStill_congr hworlds,
      hworlds.bytes?_eq (hkept l hl₁)]

end Patch

namespace Run

open Patch (SoleFlush)

variable {s s' : Session} {request : Request} {job : Job} {report : Report} {key : Text}

-- The sections of a component in the document that a job reads; none if there is no document.
def sectionsUnder (s : Session) (job : Job) (key : Text) : Option (List Reflection.Node) :=
  match Document.load (s.log (readingRecord job.source)).world job.source with
  | .error _ => none
  | .ok members =>
    (Extraction.Root.value (.object members)).sections.toOption.map (Extraction.sectionsOf key)

theorem only_of_collect {state : Extraction.State} (key : Text)
    (h : collect (s.log (readingRecord job.source)).world job = .ok state) :
    ∃ sections, sectionsUnder s job key = some sections ∧
      state.fragments.only key =
        (Extraction.addSections job.settings.modulePrefix .initial sections).fragments := by
  obtain ⟨members, hload, hdocument⟩ := exists_members_of_collect h
  obtain ⟨sections, hsections, rfl⟩ := Extraction.exists_sections_of_addDocument hdocument
  refine ⟨Extraction.sectionsOf key sections, ?_, Extraction.only_addSections _ _ _⟩
  simp only [sectionsUnder, hload, hsections, Except.toOption, Option.map_some]

-- In the flush of a run a component has its README to itself, if it shares its name with no other.
theorem soleFlush_of_run (hopen : s.LogIsOpen) (hprepare : prepare s.world request = .ok job)
    (hfilter : ∃ p ∈ job.settings.filter, p ≠ CodePoint.scalar '.')
    (hkey : ∃ name, key = (SectionPath.ofName name).component)
    (hselects : job.plan.selects key = true)
    (hlog : ∀ l, job.plan.leadsTo s.world key l → s.logFile? ≠ some l)
    (hnames : ∀ other ∈ report.fragments.keys, job.plan.selects other = true →
      Utf8.encodeName other = Utf8.encodeName key → other = key)
    (hrun : run s request = (s', .ok report)) :
    ∃ state, collect (s.log (readingRecord job.source)).world job = .ok state ∧
      report.fragments = state.fragments ∧
      SoleFlush job.plan key (collected s job state) state.fragments s' report.outcomes := by
  obtain ⟨found, state, hfound, hcollect, hfragments, hflush⟩ := run_eq_ok_iff.mp hrun
  obtain rfl := Except.ok.inj (hprepare.symm.trans hfound)
  obtain ⟨members, -, hdocument⟩ := exists_members_of_collect hcollect
  have htouches := collected_touches hopen job state
  have howns := Patch.Plan.ownsReadme_of_names (collected s job state).world hfilter
    (fun _ hother => Extraction.exists_name_of_mem_keys hdocument hother) hkey hselects
    (hfragments ▸ hnames)
  refine ⟨state, hcollect, hfragments, htouches.logIsOpen hopen, fun l hl => ?_,
    Extraction.nodup_keys_of_addDocument hdocument, howns, hflush⟩
  rw [htouches.logFile?_eq]
  exact hlog l ((Patch.Plan.leadsTo_congr htouches.world _ _ l).mp hl)

-- Two runs on documents with the same sections of a component agree on what is collected for it,
-- on its outcome and on its README, if it shares its name with no other component.
theorem run_depends_on_own_sections {s₁ s₂ s₁' s₂' : Session} {report₁ report₂ : Report}
    {document : Location} (hopen₁ : s₁.LogIsOpen) (hopen₂ : s₂.LogIsOpen)
    (htrees : World.SameBut (· = document) s₁.world s₂.world)
    (hprepare₁ : prepare s₁.world request = .ok job)
    (hprepare₂ : prepare s₂.world request = .ok job)
    (hfilter : ∃ p ∈ job.settings.filter, p ≠ CodePoint.scalar '.')
    (hkey : ∃ name, key = (SectionPath.ofName name).component)
    (hselects : job.plan.selects key = true)
    (hdocument : ¬job.plan.leadsTo s₁.world key document)
    (hlog₁ : ∀ l, job.plan.leadsTo s₁.world key l → s₁.logFile? ≠ some l)
    (hlog₂ : ∀ l, job.plan.leadsTo s₂.world key l → s₂.logFile? ≠ some l)
    (hsections : sectionsUnder s₁ job key = sectionsUnder s₂ job key)
    (hnames₁ : ∀ other ∈ report₁.fragments.keys, job.plan.selects other = true →
      Utf8.encodeName other = Utf8.encodeName key → other = key)
    (hnames₂ : ∀ other ∈ report₂.fragments.keys, job.plan.selects other = true →
      Utf8.encodeName other = Utf8.encodeName key → other = key)
    (hrun₁ : run s₁ request = (s₁', .ok report₁)) (hrun₂ : run s₂ request = (s₂', .ok report₂)) :
    report₁.fragments.only key = report₂.fragments.only key ∧
      (report₁.outcomes.filter fun outcome => outcome.key = key) =
        report₂.outcomes.filter (fun outcome => outcome.key = key) ∧
      s₁'.world.readBytes (job.plan.destination key) =
        s₂'.world.readBytes (job.plan.destination key) := by
  obtain ⟨state₁, hcollect₁, hfragments₁, hflush₁⟩ :=
    soleFlush_of_run hopen₁ hprepare₁ hfilter hkey hselects hlog₁ hnames₁ hrun₁
  obtain ⟨state₂, hcollect₂, hfragments₂, hflush₂⟩ :=
    soleFlush_of_run hopen₂ hprepare₂ hfilter hkey hselects hlog₂ hnames₂ hrun₂
  have honly : state₁.fragments.only key = state₂.fragments.only key := by
    obtain ⟨sections₁, hunder₁, hfound₁⟩ := only_of_collect key hcollect₁
    obtain ⟨sections₂, hunder₂, hfound₂⟩ := only_of_collect key hcollect₂
    rw [hsections, hunder₂] at hunder₁
    rw [hfound₁, hfound₂, Option.some.inj hunder₁]
  have hlogged₁ := collected_touches hopen₁ job state₁
  have hlogged₂ := collected_touches hopen₂ job state₂
  -- before their flushes the two differ in the document and in what was logged
  have hworlds : World.SameBut
      (fun l => s₁.logFile? = some l ∨ l = document ∨ s₂.logFile? = some l)
      (collected s₁ job state₁).world (collected s₂ job state₂).world :=
    (hlogged₁.world.symm.mono fun _ hl => .inl (hl.resolve_right id)).trans
      ((htrees.mono fun _ hl => .inr (.inl hl)).trans
        (hlogged₂.world.mono fun _ hl => .inr (.inr (hl.resolve_right id))))
  rw [hfragments₁, hfragments₂]
  refine ⟨honly, hflush₁.agree hflush₂ hworlds (fun l hl => ?_) honly⟩
  have hl₁ := (Patch.Plan.leadsTo_congr hlogged₁.world job.plan key l).mp hl
  have hl₂ := (Patch.Plan.leadsTo_congr htrees job.plan key l).mpr hl₁
  rintro (hlog | rfl | hlog)
  · exact hlog₁ l hl₁ hlog
  · exact hdocument hl₁
  · exact hlog₂ l hl₂ hlog

-- A section of a list beside the one of a drawer.
theorem run_depends_on_own_sections_of_drawer :
    let s (names : List String) : Session := .start (projectHolding (documentNaming names)
      [(Patch.defaultFilter, Utf8.bytesOf
        "<!-- docgen-tsdoc-replacer:start -->\n<!-- docgen-tsdoc-replacer:end -->".toList)]) []
    let request : Request := ⟨".", [], false⟩
    let job : Job := ⟨.default (.ofText "/"), .ofText "/jsDoc.json", false⟩
    ∃ s₁ report₁ s₂ report₂, run (s ["mdc-drawer"]) request = (s₁, .ok report₁) ∧
      run (s ["mdc-list", "mdc-drawer"]) request = (s₂, .ok report₂) ∧
      report₁.fragments.only Patch.defaultFilter = report₂.fragments.only Patch.defaultFilter ∧
      s₁.world.readBytes (job.plan.destination Patch.defaultFilter) =
        s₂.world.readBytes (job.plan.destination Patch.defaultFilter) := by
  intro s request job
  have hapart : ¬job.plan.leadsTo (s ["mdc-drawer"]).world Patch.defaultFilter
      (World.locationOf (.ofText "jsDoc.json")) := by
    rw [Patch.Plan.leadsTo]
    decide +kernel
  have hlog (names : List String) (l : Location) : (s names).logFile? ≠ some l := by
    rw [show (s names).logFile? = none from rfl]
    simp
  obtain ⟨hshown₁, hshown₂, hsections⟩ :
      (run (s ["mdc-drawer"]) request).2.map (·.fragments.keys) = .ok [Patch.defaultFilter] ∧
      (run (s ["mdc-list", "mdc-drawer"]) request).2.map (·.fragments.keys) =
        .ok ["mdc-list", Patch.defaultFilter] ∧
      sectionsUnder (s ["mdc-drawer"]) job Patch.defaultFilter =
        sectionsUnder (s ["mdc-list", "mdc-drawer"]) job Patch.defaultFilter := by
    decide +kernel
  obtain ⟨s₁, report₁, hrun₁, hkeys₁⟩ := exists_report_of_map hshown₁
  obtain ⟨s₂, report₂, hrun₂, hkeys₂⟩ := exists_report_of_map hshown₂
  obtain ⟨honly, -, hreadme⟩ := run_depends_on_own_sections (Session.start_logIsOpen _ _)
    (Session.start_logIsOpen _ _) (projectHolding_sameBut _ _ _) (by decide +kernel)
    (by decide +kernel) (by decide) ⟨Patch.defaultFilter, by decide⟩ (by decide) hapart
    (fun l _ => hlog _ l) (fun l _ => hlog _ l) hsections (by rw [hkeys₁]; decide +kernel)
    (by rw [hkeys₂]; decide +kernel) hrun₁ hrun₂
  exact ⟨s₁, report₁, s₂, report₂, hrun₁, hrun₂, honly, hreadme⟩

-- Two components of one name: what the README holds in the end is the body of the other one.
theorem run_depends_on_section_of_same_name :
    let letter : Text := "mdc-drawer-é"
    let s (sections : List (String × String)) : Session := .start (projectHolding
      (documentOf sections) [(letter, Utf8.bytesOf
        "<!-- docgen-tsdoc-replacer:start -->\n<!-- docgen-tsdoc-replacer:end -->".toList)]) []
    let request : Request := ⟨".", [], false⟩
    let job : Job := ⟨.default (.ofText "/"), .ofText "/jsDoc.json", false⟩
    let one := [("mdc-drawer-é", "MDCFirst")]
    let both := one ++ [("mdc-drawer-\\udcc3\\udca9", "MDCSecond")]
    let readme (sections : List (String × String)) :=
      (run (s sections) request).1.world.readBytes (job.plan.destination letter)
    sectionsUnder (s one) job letter = sectionsUnder (s both) job letter ∧
      (run (s one) request).2.isOk = true ∧ (run (s both) request).2.isOk = true ∧
      readme one ≠ readme both := by
  intro letter s request job one both readme
  decide +kernel

end Run

end ReadmeTables
