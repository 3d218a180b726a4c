import ReadmeTables.Proofs.Diff.Unchanged
import ReadmeTables.Proofs.Footprint
import ReadmeTables.Proofs.Patch.Turns
/-!
What is shown for READMEs that are only looked at.

Main statement: a difference is empty exactly if the texts are the same, and a README is shown
without a difference exactly if its text would stay as it is when its turn comes.
-/

namespace ReadmeTables

namespace Command

open Patch (Plan)

-- What is shown for a component that is only looked at: nothing if its README has no text, and
-- no difference exactly if the text would stay as it is.
def ShowsDiff (w : World) (plan : Plan) (turn : World × Text × List Text) (shown : Text) : Prop :=
  match turn.1.readText (plan.destination turn.2.1) with
  | .error _ => shown = []
  | .ok chars => ∃ diff,
    shown = shownPath w (plan.destination turn.2.1) ++ " (dry-run):\n" ++ diff ++ "\n" ∧
    (diff = "(no diff)" ↔
      Region.replace (Text.ofChars chars) (Plan.render turn.2.2) = Text.ofChars chars)

-- A difference begins with the names of the texts, so none of them reads as if there were none.
theorem head?_unified {old new path : Text} (h : Diff.unified old new path ≠ []) :
    (Diff.unified old new path).head? = some (.scalar '-') := by
  have hne := mt Diff.unified_eq_nil_iff_hunks.mpr h
  rw [Diff.unified, Diff.unifiedLines_of_ne_nil hne]
  rfl

theorem shownDiff_unified_iff {old new path : Text} :
    shownDiff (Diff.unified old new path) = "(no diff)" ↔ old = new := by
  have hempty : Diff.unified old new path = [] ↔ old = new := Diff.unified_eq_nil_iff
  rw [shownDiff, ← hempty]
  by_cases hnone : Diff.unified old new path = []
  · rw [if_pos hnone]
    exact ⟨fun _ => hnone, fun _ => rfl⟩
  · rw [if_neg hnone]
    refine ⟨fun htext => ?_, fun h => (hnone h).elim⟩
    have hhead := head?_unified hnone
    rw [htext] at hhead
    simp [Text.ofString, Text.ofChars] at hhead

theorem outcomeText_of_dryRun {outcome : Patch.Outcome} (hok : outcome.failure = none)
    (hdry : outcome.dryRun = true) (w : World) :
    outcomeText w outcome =
      shownPath w outcome.path ++ " (dry-run):\n" ++ shownDiff outcome.diff ++ "\n" := by
  have hisOk : outcome.isOk = true := by rw [Patch.Outcome.isOk, hok, Option.isNone_none]
  rw [outcomeText, if_neg (not_not_intro hisOk), if_pos hdry]

theorem outcomeText_shows {plan : Plan} (hdry : plan.dryRun = true) (w : World)
    {turn : World × Text × List Text} {outcome : Patch.Outcome}
    (h : plan.outcomeIn turn.1 turn.2 = .ok outcome) :
    ShowsDiff w plan turn (outcomeText w outcome) := by
  rw [ShowsDiff]
  rcases Plan.outcomeIn_cases h with ⟨refusal, shown, hread, rfl⟩ |
    ⟨bytes, e, hread, hdecode, rfl⟩ | ⟨bytes, chars, hread, hdecode, hwritten⟩
  · rw [World.readText_of_error hread]
    rfl
  · rw [World.readText_of_undecodable hread hdecode]
    rfl
  · rw [Plan.written, if_pos hdry] at hwritten
    rw [World.readText_of_decode hread hdecode]
    obtain rfl := Except.ok.inj hwritten
    exact ⟨_, outcomeText_of_dryRun rfl hdry w, shownDiff_unified_iff.trans eq_comm⟩

theorem report_output (s : Session) (result : Run.Report) :
    (report s result).1.output =
      s.output ++ (result.outcomes.map (outcomeText s.world)).flatten := by
  rw [report, List.flatMap_def]
  split <;> rfl

-- A run that ends with a report is what the program ends with.
theorem command_of_run {s opened ran : Session} {texts : List Text} {arguments : Arguments}
    {result : Run.Report} (harguments : Arguments.ofTexts texts = .ok arguments)
    (hopened : openLog s arguments = (opened, .ok ()))
    (hrun : run opened (requestOf arguments) = (ran, .ok result)) :
    command s texts = report ran result := by
  simp only [command, harguments, start_eq hopened, hrun]

theorem command_output_of_run {s opened ran : Session} {texts : List Text}
    {arguments : Arguments} {result : Run.Report}
    (harguments : Arguments.ofTexts texts = .ok arguments)
    (hopened : openLog s arguments = (opened, .ok ()))
    (hrun : run opened (requestOf arguments) = (ran, .ok result)) :
    (command s texts).1.output =
      ran.output ++ (result.outcomes.map (outcomeText ran.world)).flatten := by
  rw [command_of_run harguments hopened hrun, report_output]

-- The components of a run that only looks are shown one after another.
theorem dry_run_shows {s ran : Session} {request : Run.Request} {result : Run.Report}
    (hopen : s.LogIsOpen) (hdry : request.dryRun = true)
    (hrun : run s request = (ran, .ok result)) :
    ∃ stage, Run.stage? s request = some stage ∧
      List.Forall₂ (ShowsDiff ran.world stage.job.plan)
        (Patch.turns stage.job.plan (Patch.opened stage.job.plan stage.session stage.fragments)
          (stage.job.plan.selected stage.fragments))
        (result.outcomes.map (outcomeText ran.world)) := by
  have hstages := Run.run_eq_ok_iff.mp hrun
  obtain ⟨job, state, hprepare, hcollect, -, hflush⟩ := hstages
  have hplan : job.plan.dryRun = true := (Run.prepare_dryRun hprepare).trans hdry
  have hcollected := Run.collected_touches hopen job state
  have hturns := Patch.flush_turns (hcollected.logIsOpen hopen) hflush
  refine ⟨⟨Run.collected s job state, job, state.fragments⟩, ?_, ?_⟩
  · simp only [Run.stage?, hprepare, hcollect]
    rfl
  · rw [List.forall₂_map_right_iff]
    exact hturns.imp fun turn outcome houtcome => outcomeText_shows hplan ran.world houtcome

-- A difference is empty exactly if the texts are the same, and so `(no diff)` is shown exactly for
-- the READMEs whose text would stay as it is.
theorem no_diff_shown_iff_unchanged :
    (∀ old new path : Text, Diff.unified old new path = [] ↔ old = new) ∧
    ∀ {s opened ran : Session} {texts : List Text} {arguments : Arguments} {result : Run.Report},
      Arguments.ofTexts texts = .ok arguments → arguments.dryRun = true →
      openLog s arguments = (opened, .ok ()) →
      run opened (requestOf arguments) = (ran, .ok result) →
      ∃ stage shown, Run.stage? opened (requestOf arguments) = some stage ∧
        (command s texts).1.output = ran.output ++ shown.flatten ∧
        List.Forall₂ (ShowsDiff ran.world stage.job.plan)
          (Patch.turns stage.job.plan (Patch.opened stage.job.plan stage.session stage.fragments)
            (stage.job.plan.selected stage.fragments)) shown := by
  refine ⟨fun old new path => Diff.unified_eq_nil_iff, ?_⟩
  intro s opened ran texts arguments result harguments hdry hopened hrun
  have hopen := openLog_logIsOpen s arguments
  rw [hopened] at hopen
  obtain ⟨stage, hstage, hshown⟩ := dry_run_shows hopen hdry hrun
  exact ⟨stage, _, hstage, command_output_of_run harguments hopened hrun, hshown⟩

-- A drawer's README that is up to date.
theorem no_diff_shown_of_drawer :
    let s : Session := .start (Run.projectHolding (Run.documentNaming ["mdc-drawer"])
      [(Patch.defaultFilter, Utf8.bytesOf ("<!-- docgen-tsdoc-replacer:start -->\n### MDC\n\n" ++
        "Method Signature | Description \n--- | --- \n\n" ++
        "<!-- docgen-tsdoc-replacer:end -->").toList)]) []
    let arguments : Arguments := { Arguments.default with dryRun := true }
    ∃ opened ran result stage shown, Arguments.ofTexts ["--dry-run"] = .ok arguments ∧
      arguments.dryRun = true ∧ openLog s arguments = (opened, .ok ()) ∧
      run opened (requestOf arguments) = (ran, .ok result) ∧
      Run.stage? opened (requestOf arguments) = some stage ∧
      List.Forall₂ (ShowsDiff ran.world stage.job.plan)
        (Patch.turns stage.job.plan (Patch.opened stage.job.plan stage.session stage.fragments)
          (stage.job.plan.selected stage.fragments)) shown ∧
      shown.flatten = "packages/mdc-drawer/README.md (dry-run):\n(no diff)\n" := by
  intro s arguments
  have harguments : Arguments.ofTexts ["--dry-run"] = .ok arguments := rfl
  have hopened : openLog s arguments = ((openLog s arguments).1, .ok ()) := rfl
  have hran : (run (openLog s arguments).1 (requestOf arguments)).2.map (fun _ => ()) = .ok () := by
    decide +kernel
  obtain ⟨ran, result, hrun, -⟩ := Run.exists_report_of_map hran
  obtain ⟨stage, shown, hstage, houtput, hshown⟩ :=
    no_diff_shown_iff_unchanged.2 harguments rfl hopened hrun
  refine ⟨_, ran, result, stage, shown, harguments, rfl, hopened, hrun, hstage, hshown, ?_⟩
  have hbefore : (run (openLog s arguments).1 (requestOf arguments)).1.output =
      "-- generating docs for mdc-drawer\n" := by
    decide +kernel
  have hall : (command s ["--dry-run"]).1.output = "-- generating docs for mdc-drawer\n" ++
      "packages/mdc-drawer/README.md (dry-run):\n(no diff)\n" := by
    decide +kernel
  rw [hrun] at hbefore
  rw [hall, hbefore] at houtput
  exact (List.append_cancel_left houtput).symm

end Command

end ReadmeTables
