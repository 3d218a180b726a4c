import ReadmeTables.Proofs.Extraction
import ReadmeTables.Proofs.Patch.Turns
import ReadmeTables.Proofs.Shown
/-!
How the program sums up the READMEs of a run.

Main statement: the program ends with status 0 if no README failed, and otherwise with status 1
and the number of those that did; and behind the lines of its log it tells of each README that was
updated or looked at, and of no other.
-/

namespace ReadmeTables

namespace Run

variable {s s' : Session} {request : Request} {report : Report}

theorem logs_record (s : Session) (message : Text) :
    s.Logs (s.log (record message)) [record message] :=
  Session.log_logs s (by simp [record, Log.running, Text.ofString, Text.ofChars])

theorem collected_logs {w : World} {job : Job} {state : Extraction.State}
    (h : collect w job = .ok state) (s : Session) :
    s.Logs (collected s job state)
      ([readingRecord job.source] ++ state.log ++ [collectedRecord state.fragments]) := by
  obtain ⟨members, -, hwalk⟩ := exists_members_of_collect h
  have hsources (record : Log.Record) (hrecord : record ∈ state.log) :
      record.source.head? ≠ some (.scalar '.') := by
    rw [Extraction.logsAsExtraction_of_addDocument hwalk record hrecord]
    decide
  have hreading : s.Logs (s.log (readingRecord job.source)) [readingRecord job.source] :=
    logs_record s _
  have hwalked := hreading.trans (Session.logAll_logs _ hsources)
  exact hwalked.trans (logs_record _ _)

-- A run that ends with a report has logged records of the program's own, and its outcomes say
-- whether READMEs were only looked at.
theorem run_logs (h : run s request = (s', .ok report)) :
    (∃ logged, s.Logs s' logged) ∧ ∀ o ∈ report.outcomes, o.dryRun = request.dryRun := by
  obtain ⟨job, state, hprepare, hcollect, -, hflush⟩ := run_eq_ok_iff.mp h
  obtain ⟨hsettles, hlogs⟩ := Patch.flush_settles hflush
  refine ⟨⟨_, (collected_logs hcollect s).trans hlogs⟩, fun o ho => ?_⟩
  obtain ⟨turn, hturn⟩ := Patch.exists_turn_of_mem hsettles ho
  exact hturn.dryRun.trans (prepare_dryRun hprepare)

end Run

namespace Command

variable {s opened ran : Session} {texts : List Text} {arguments : Arguments}
  {result : Run.Report}

-- The line for a README that was updated.
def updatedText (w : World) (outcome : Patch.Outcome) : Text :=
  "README updated at " ++ shownPath w outcome.path ++ "\n"

-- The block for a README that was only looked at.
def lookedText (w : World) (outcome : Patch.Outcome) : Text :=
  shownPath w outcome.path ++ " (dry-run):\n" ++ shownDiff outcome.diff ++ "\n"

theorem outcomeText_eq (w : World) {outcome : Patch.Outcome} {dryRun : Bool}
    (hdry : outcome.dryRun = dryRun) :
    outcomeText w outcome =
      if dryRun then if outcome.isOk then lookedText w outcome else []
      else if outcome.isOk && outcome.changed then updatedText w outcome else [] := by
  subst hdry
  rw [outcomeText, lookedText, updatedText]
  cases outcome.isOk <;> cases outcome.dryRun <;> simp

-- What is told of the outcomes of a run: those that are well, or of these the changed ones.
def summary (w : World) (dryRun : Bool) (outcomes : List Patch.Outcome) : Text :=
  if dryRun then (outcomes.filter Patch.Outcome.isOk).flatMap (lookedText w)
  else (outcomes.filter fun outcome => outcome.isOk && outcome.changed).flatMap (updatedText w)

theorem flatMap_outcomeText (w : World) {dryRun : Bool} {outcomes : List Patch.Outcome}
    (hdry : ∀ o ∈ outcomes, o.dryRun = dryRun) :
    outcomes.flatMap (outcomeText w) = summary w dryRun outcomes := by
  rw [List.flatMap_congr fun o ho => outcomeText_eq w (hdry o ho), summary]
  cases dryRun with
  | false => exact Patch.flatMap_if outcomes _ _
  | true => exact Patch.flatMap_if outcomes _ _

theorem length_failures :
    result.failures.length = result.outcomes.countP fun outcome => !outcome.isOk := by
  rw [Run.Report.failures, List.countP_eq_length_filter]
  simp

theorem report_eq (s : Session) (result : Run.Report) :
    report s result =
      if ∀ o ∈ result.outcomes, o.isOk = true then
        (s.print (result.outcomes.flatMap (outcomeText s.world)), .exit 0)
      else
        ((s.print (result.outcomes.flatMap (outcomeText s.world))).printError
          (failuresText (result.outcomes.countP fun outcome => !outcome.isOk)), .exit 1) := by
  have hnone : (result.outcomes.countP fun outcome => !outcome.isOk) = 0 ↔
      ∀ o ∈ result.outcomes, o.isOk = true := by
    simp [List.countP_eq_zero]
  simp only [report, length_failures, hnone]

theorem report_errors (s : Session) (result : Run.Report) :
    (report s result).1.errors = s.errors ++
      if ∀ o ∈ result.outcomes, o.isOk = true then []
      else failuresText (result.outcomes.countP fun outcome => !outcome.isOk) := by
  rw [report_eq]
  split
  · exact (List.append_nil _).symm
  · rfl

theorem report_ending_iff (s : Session) (result : Run.Report) :
    ((report s result).2 = .exit 0 ↔ ∀ o ∈ result.outcomes, o.isOk = true) ∧
      ((report s result).2 = .exit 1 ↔ ∃ o ∈ result.outcomes, o.isOk = false) := by
  rw [report_eq]
  split
  · rename_i hall
    simpa using hall
  · rename_i hnot
    simpa using hnot

theorem exists_configure_of_openLog (h : openLog s arguments = (opened, .ok ())) :
    ∃ file, s.configure arguments.verbose file = (opened, .ok ()) := by
  rw [openLog] at h
  cases hpath : logPathOf arguments with
  | error error => simp [hpath] at h
  | ok file =>
    simp only [hpath, Prod.mk.injEq, Failing.mapError_eq_ok_iff] at h
    exact ⟨file, Prod.ext h.1 h.2⟩

-- Setting the log up prints nothing, and what is logged next is told as the arguments say.
theorem openLog_logs {logged : List Log.Record} (h : openLog s arguments = (opened, .ok ()))
    (hlogs : opened.Logs ran logged) :
    ran.output = s.output ++ Session.progressOf arguments.verbose logged ∧
      ran.errors = s.errors ++ Session.troubleOf arguments.verbose logged := by
  obtain ⟨file, hconfigure⟩ := exists_configure_of_openLog h
  obtain ⟨hforce, -, hsame⟩ := Session.configure_cases hconfigure
  obtain ⟨r, hr, hverbose⟩ := hforce.exists_routing
  have houtput : opened.output = s.output := by rw [hsame]
  have herrors : opened.errors = s.errors := by rw [hsame]
  exact ⟨by rw [hlogs.output hr, houtput, hverbose], by rw [hlogs.errors hr, herrors, hverbose]⟩

-- A run that ends with outcomes is summed up: by the status, by a last line with the number of
-- READMEs that failed, and behind the lines of the log by what is told of the others.
theorem command_sums_up_outcomes (harguments : Arguments.ofTexts texts = .ok arguments)
    (hopened : openLog s arguments = (opened, .ok ()))
    (hrun : run opened (requestOf arguments) = (ran, .ok result)) :
    ((command s texts).2 = .exit 0 ↔ ∀ o ∈ result.outcomes, o.isOk = true) ∧
    ((command s texts).2 = .exit 1 ↔ ∃ o ∈ result.outcomes, o.isOk = false) ∧
    ∃ logged, ran.records = opened.records ++ logged ∧
      (command s texts).1.errors = s.errors ++ Session.troubleOf arguments.verbose logged ++
        (if ∀ o ∈ result.outcomes, o.isOk = true then []
        else failuresText (result.outcomes.countP fun outcome => !outcome.isOk)) ∧
      (command s texts).1.output = s.output ++ Session.progressOf arguments.verbose logged ++
        summary ran.world arguments.dryRun result.outcomes := by
  obtain ⟨⟨logged, hlogs⟩, hdry⟩ := Run.run_logs hrun
  obtain ⟨houtput, herrors⟩ := openLog_logs hopened hlogs
  obtain ⟨hwell, hfailed⟩ := report_ending_iff ran result
  rw [command_of_run harguments hopened hrun]
  refine ⟨hwell, hfailed, logged, hlogs.records, ?_, ?_⟩
  · rw [report_errors, herrors]
  · rw [report_output, houtput, ← List.flatMap_def, flatMap_outcomeText ran.world hdry]
    rfl

-- A README that is updated, and a locked one that would have changed.
theorem command_sums_up_updated_and_locked :
    let readme : Utf8.Bytes := Utf8.bytesOf
      "<!-- docgen-tsdoc-replacer:start -->\n<!-- docgen-tsdoc-replacer:end -->".toList
    let world := Run.projectHolding (Run.documentNaming ["mdc-drawer", "mdc-drawer-locked"])
      [("mdc-drawer", readme), ("mdc-drawer-locked", readme)]
    let s : Session := .start { world with
      locked := [World.locationOf (.ofText "packages/mdc-drawer-locked/README.md")] } []
    ∃ opened ran result logged, Arguments.ofTexts [] = .ok .default ∧
      openLog s .default = (opened, .ok ()) ∧
      run opened (requestOf .default) = (ran, .ok result) ∧
      result.outcomes.map (fun o => (o.isOk, o.changed)) = [(true, true), (false, true)] ∧
      (command s []).2 = .exit 1 ∧
      (command s []).1.errors = Session.troubleOf false logged ++
        "1 README(s) could not be updated. Run with --verbose for more details.\n" ∧
      (command s []).1.output = Session.progressOf false logged ++
        "README updated at packages/mdc-drawer/README.md\n" := by
  intro readme world s
  have harguments : Arguments.ofTexts [] = .ok .default := rfl
  have hopened : openLog s .default = ((openLog s .default).1, .ok ()) := rfl
  have hran : (run (openLog s .default).1 (requestOf .default)).2.map
      (fun result => (result.outcomes.map fun o => (o.isOk, o.changed),
        summary (run (openLog s .default).1 (requestOf .default)).1.world false result.outcomes)) =
      .ok ([(true, true), (false, true)], "README updated at packages/mdc-drawer/README.md\n") := by
    decide +kernel
  obtain ⟨ran, result, hrun, hshown⟩ := Run.exists_report_of_map hran
  obtain ⟨houtcomes, hsummary⟩ := Prod.mk.inj hshown
  obtain ⟨-, hfailed, logged, -, herrors, houtput⟩ :=
    command_sums_up_outcomes harguments hopened hrun
  rw [hrun] at hsummary
  have hcount : result.outcomes.countP (fun o => !o.isOk) = 1 := by
    have hshownCount := List.countP_map (p := fun shown : Bool × Bool => !shown.1)
      (f := fun o : Patch.Outcome => (o.isOk, o.changed)) (l := result.outcomes)
    rw [houtcomes] at hshownCount
    exact hshownCount.symm
  have hfailure : ∃ o ∈ result.outcomes, o.isOk = false := by
    have hpositive := List.countP_pos_iff.mp (Nat.lt_of_lt_of_eq Nat.one_pos hcount.symm)
    simpa using hpositive
  have hnot : ¬∀ o ∈ result.outcomes, o.isOk = true := by simpa using hfailure
  refine ⟨_, ran, result, logged, harguments, hopened, hrun, houtcomes, hfailed.mpr hfailure,
    ?_, ?_⟩
  · rw [herrors, if_neg hnot, hcount]
    rfl
  · rw [houtput]
    exact congrArg _ hsummary

end Command

end ReadmeTables
