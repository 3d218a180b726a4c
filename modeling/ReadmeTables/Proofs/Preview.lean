import ReadmeTables.Proofs.Diff.Unchanged
import ReadmeTables.Proofs.Extraction
import ReadmeTables.Proofs.Patch.Isolation
import ReadmeTables.Proofs.Run
/-!
What a run that only looks tells of the run that writes.

Such a run has the same stages up to its flush, and its flush changes no file. Main statement:
where no two selected components are one name for the system, it foretells each outcome of the
run that writes but for failures to write, and shows a difference exactly where there is one.
-/

namespace ReadmeTables

namespace Patch

-- The failure that can be told without writing.
def foreseen : Option Failure → Option Failure
  | some (.write _) => none
  | failure => failure

-- An outcome without writing that agrees with the outcome of writing.
structure Foretells (preview real : Outcome) : Prop where
  key : preview.key = real.key
  path : preview.path = real.path
  changed : preview.changed = real.changed
  failure : preview.failure = foreseen real.failure
  diff : preview.diff = [] ↔ preview.changed = false

-- The plan that only looks at READMEs.
def Plan.preview (plan : Plan) : Plan :=
  { plan with dryRun := true }

variable {plan : Plan} {w : World} {s s' : Session} {f : Fragments} {outcomes : List Outcome}
  {entry : Text × List Text} {outcome : Outcome}

theorem written_foretells {key : Text} {locked : Bool} {former updated : Text}
    (hreal : plan.dryRun = false)
    (h : plan.written (plan.blank key) locked former updated = .ok outcome) :
    ∃ preview, plan.preview.written (plan.preview.blank key) locked former updated = .ok preview ∧
      Foretells preview outcome := by
  refine ⟨_, if_pos rfl, ?_⟩
  have hdiff : Diff.unified former updated (plan.destination key).text = [] ↔
      decide (updated ≠ former) = false := by
    rw [Diff.unified_eq_nil_iff, decide_eq_false_iff_not, not_ne_iff, eq_comm]
  rw [Plan.written, hreal, if_neg Bool.false_ne_true] at h
  cases locked with
  | true =>
    obtain rfl := Except.ok.inj h
    exact ⟨rfl, rfl, rfl, rfl, hdiff⟩
  | false =>
    rw [if_neg Bool.false_ne_true] at h
    split at h
    · obtain rfl := Except.ok.inj h
      exact ⟨rfl, rfl, rfl, rfl, hdiff⟩
    · simp at h

-- A plan that only looks accepts what the plan accepts, and foretells its outcome.
theorem outcomeIn_foretells (hreal : plan.dryRun = false)
    (h : plan.outcomeIn w entry = .ok outcome) :
    ∃ preview, plan.preview.outcomeIn w entry = .ok preview ∧ Foretells preview outcome := by
  have hdestination : plan.preview.destination entry.1 = plan.destination entry.1 := rfl
  have hlocked : plan.preview.isLocked w entry.1 = plan.isLocked w entry.1 := rfl
  rw [Plan.outcomeIn, hdestination, hlocked]
  rcases Plan.outcomeIn_cases h with ⟨refusal, shown, hread, rfl⟩ |
    ⟨bytes, e, hread, hdecode, rfl⟩ | ⟨bytes, chars, hread, hdecode, hwritten⟩
  · rw [hread]
    exact ⟨_, rfl, rfl, rfl, rfl, rfl, by simp [Plan.blank]⟩
  · simp only [hread, Plan.verdict, hdecode]
    exact ⟨_, rfl, rfl, rfl, rfl, rfl, by simp [Plan.blank]⟩
  · simp only [hread, Plan.verdict, hdecode]
    exact written_foretells hreal hwritten

-- A flush that only looks changes no file but the log.
theorem flush_preview_get? (hopen : s.LogIsOpen) (plan : Plan) (f : Fragments) {l : Location}
    (hlog : s.logFile? ≠ some l) :
    (flush plan.preview s f).1.world.tree.get? l = s.world.tree.get? l := by
  apply (flush_writes hopen plan.preview f).world.kept
  rintro (hfile | ⟨entry, -, hreal, -⟩)
  · exact hlog hfile
  · simp [Plan.preview] at hreal

theorem flush_foretells (hopen : s.LogIsOpen) (happart : plan.LogsApart s (plan.selected f))
    (hown : plan.HaveOwnReadmes s.world (plan.selected f)) (hreal : plan.dryRun = false)
    (hflush : flush plan s f = (s', .ok outcomes)) :
    ∃ s'' previews, flush plan.preview s f = (s'', .ok previews) ∧
      (∀ l, s.logFile? ≠ some l → s''.world.tree.get? l = s.world.tree.get? l) ∧
      List.Forall₂ Foretells previews outcomes := by
  have hall := (exists_flush_iff hopen plan f happart).mp ⟨_, _, hflush⟩
  obtain ⟨s'', previews, hpreview⟩ := (exists_flush_iff hopen plan.preview f happart).mpr
    fun entry hentry => by
      obtain ⟨outcome, houtcome⟩ := hall entry hentry
      obtain ⟨preview, hpreview, -⟩ := outcomeIn_foretells hreal houtcome
      exact ⟨preview, hpreview⟩
  refine ⟨s'', previews, hpreview, fun l hlog => ?_, ?_⟩
  · obtain rfl : (flush plan.preview s f).1 = s'' := congrArg Prod.fst hpreview
    exact flush_preview_get? hopen plan f hlog
  · have htold : List.Forall₂
        (fun entry preview => plan.preview.outcomeIn s.world entry = .ok preview)
        (plan.selected f) previews := flush_outcomes hopen happart hown hpreview
    refine forall₂_of_common ?_ (flush_outcomes hopen happart hown hflush) htold
    intro entry outcome preview houtcome hfound
    obtain ⟨told, htold, hforetells⟩ := outcomeIn_foretells hreal houtcome
    obtain rfl := Except.ok.inj (htold.symm.trans hfound)
    exact hforetells

end Patch

namespace Run

open Patch (Foretells)

-- A run that only looks foretells the run that writes, and changes no file but the log.
theorem dry_run_foretells_run {s s' : Session} {project input : Text} {job : Job} {report : Report}
    (hopen : s.LogIsOpen) (hprepare : prepare s.world ⟨project, input, false⟩ = .ok job)
    (hfilter : ∃ p ∈ job.settings.filter, p ≠ CodePoint.scalar '.')
    (hnames : ∀ key ∈ report.fragments.keys, ∀ other ∈ report.fragments.keys,
      job.plan.selects key = true → job.plan.selects other = true →
        Utf8.encodeName key = Utf8.encodeName other → key = other)
    (happart : job.plan.LogsApart s (job.plan.selected report.fragments))
    (hrun : run s ⟨project, input, false⟩ = (s', .ok report)) :
    ∃ s'' preview, run s ⟨project, input, true⟩ = (s'', .ok preview) ∧
      (∀ l, s.logFile? ≠ some l → s''.world.tree.get? l = s.world.tree.get? l) ∧
      preview.fragments = report.fragments ∧
      List.Forall₂ Foretells preview.outcomes report.outcomes := by
  obtain ⟨found, state, hfound, hcollect, hfragments, hflush⟩ := run_eq_ok_iff.mp hrun
  obtain rfl := Except.ok.inj (hprepare.symm.trans hfound)
  rw [hfragments] at hnames happart
  have htouches := collected_touches hopen job state
  obtain ⟨members, -, hdocument⟩ := exists_members_of_collect hcollect
  have hown : job.plan.HaveOwnReadmes (collected s job state).world
      (job.plan.selected state.fragments) :=
    Patch.haveOwnReadmes_of_sections _ hfilter
      (fun key hkey => Extraction.exists_name_of_mem_keys hdocument hkey)
      (Extraction.nodup_keys_of_addDocument hdocument) hnames
  obtain ⟨s'', previews, hpreview, hkept, hforetells⟩ := Patch.flush_foretells
    (htouches.logIsOpen hopen) (happart.of_touches htouches) hown (prepare_dryRun hprepare) hflush
  refine ⟨s'', ⟨state.fragments, previews⟩, run_eq_ok_iff.mpr
    ⟨_, state, prepare_of_dryRun hprepare true, hcollect, rfl, hpreview⟩, fun l hlog => ?_,
    hfragments.symm, hforetells⟩
  rw [hkept l (by rwa [htouches.logFile?_eq]), htouches.world.kept l]
  simpa [Session.nowhere] using hlog

-- A drawer whose README is to change.
theorem dry_run_foretells_run_of_drawer :
    let s : Session := .start (projectHolding (documentNaming ["mdc-drawer"])
      [(Patch.defaultFilter, Utf8.bytesOf
        "<!-- docgen-tsdoc-replacer:start -->\n<!-- docgen-tsdoc-replacer:end -->".toList)]) []
    ∃ s' report s'' preview, run s ⟨".", [], false⟩ = (s', .ok report) ∧
      report.fragments.keys = [Patch.defaultFilter] ∧
      run s ⟨".", [], true⟩ = (s'', .ok preview) ∧
      List.Forall₂ Foretells preview.outcomes report.outcomes := by
  intro s
  have hopen : s.LogIsOpen := Session.start_logIsOpen _ _
  have hprepare : prepare s.world ⟨".", [], false⟩ =
      .ok ⟨.default (.ofText "/"), .ofText "/jsDoc.json", false⟩ := by decide +kernel
  have hshown : (run s ⟨".", [], false⟩).2.map (fun report => report.fragments.keys) =
      .ok [Patch.defaultFilter] := by decide +kernel
  obtain ⟨s', report, hrun, hkeys⟩ := exists_report_of_map hshown
  obtain ⟨s'', preview, hpreview, -, -, hforetells⟩ := dry_run_foretells_run hopen hprepare
    (by decide) (by simp [hkeys]) (Patch.Plan.logsApart_of_logFile?_eq_none rfl _) hrun
  exact ⟨s', report, s'', preview, hrun, hkeys, hpreview, hforetells⟩

-- Two components of one name: the second one finds its body there when the first one was
-- written, and the run that only looks does not know.
theorem dry_run_misses_shared_readme :
    let letter : Text := "mdc-drawer-é"
    let escaped : Text := Patch.defaultFilter ++
      [.scalar '-', .surrogate (0xDCC3 - 0xD800), .surrogate (0xDCA9 - 0xD800)]
    let s : Session := .start (projectHolding
      (documentNaming ["mdc-drawer-é", "mdc-drawer-\\udcc3\\udca9"])
      [(letter, Utf8.bytesOf
        "<!-- docgen-tsdoc-replacer:start -->\n<!-- docgen-tsdoc-replacer:end -->".toList)]) []
    let flags (report : Report) := report.outcomes.map fun outcome => (outcome.key, outcome.changed)
    letter ≠ escaped ∧
      (run s ⟨".", [], false⟩).2.map flags = .ok [(letter, true), (escaped, false)] ∧
      (run s ⟨".", [], true⟩).2.map flags = .ok [(letter, true), (escaped, true)] := by
  intro letter escaped s flags
  decide +kernel

end Run

end ReadmeTables
