import ReadmeTables.Proofs.Atomicity
import ReadmeTables.Proofs.Extraction
import ReadmeTables.Proofs.Footprint
import ReadmeTables.Proofs.Settings
/-!
Which failures the program reports.

The program reports that there is no project, that its settings are malformed or that its document
cannot be loaded, and ends with status 1. Any other error leaves it, and so does what its host
cannot do. Main statement: from any command line whose log file can be opened, and in any order of
the tasks of its flush, the program is left by an error exactly in the ways that are listed here,
as long as no two components share a README and none has the log file for one. Where its run fails
early in another way, the program reports that.
-/

namespace ReadmeTables

namespace Run

open Failing

variable {s : Session} {w : World} {request : Request} {project t : Text} {p : Path}
  {error : Error}

-- A path that begins with a tilde for which there is no home.
def HasNoHome (w : World) (t : Text) : Prop :=
  ∀ p, w.expandHome (.ofText t) ≠ .ok (some p)

-- A project whose path could not be followed to see whether there is a directory.
inductive HasNoPlace (w : World) (project : Text) : Prop where
  | home (h : HasNoHome w project)
  | path {p : Path} {error : FileError} (hgiven : w.expandHome (.ofText project) = .ok (some p))
      (h : w.resolve p = .error error)
  | name {p root : Path} {error : FileError}
      (hgiven : w.expandHome (.ofText project) = .ok (some p)) (hroot : w.resolve p = .ok root)
      (h : w.isDirectory root = .error error)

-- The ways in which a run ends, before its flush, with an error that is not reported: at the path
-- of the project, at its settings, at the path of its document, at the document, and at what should
-- be the list of its sections.
inductive EscapesEarly (s : Session) (request : Request) : Prop where
  | project (h : HasNoPlace s.world request.project)
  | settings {root : Path} (hroot : rootOf s.world request.project = .ok root)
      (h : Settings.Escapes s.world root)
  | source {root : Path} {settings : Settings}
      (hroot : rootOf s.world request.project = .ok root)
      (hsettings : Settings.load s.world root = .ok settings) (hinput : request.input ≠ [])
      (h : HasNoHome s.world request.input)
  | document {job : Job} (hprepare : prepare s.world request = .ok job)
      (h : Document.Escapes (s.log (readingRecord job.source)).world job.source)
  | walk {job : Job} {members : Json.Members} (hprepare : prepare s.world request = .ok job)
      (hdocument : Document.IsIn (s.log (readingRecord job.source)).world job.source members)
      (h : Extraction.HasNoItems (Extraction.sectionsValue (.object members)))

-- A run may also end so at a README.
inductive Escapes (s : Session) (request : Request) : Prop where
  | early (h : EscapesEarly s request)
  | readme {stage : Stage} {entry : Text × List Text} (hstage : stage? s request = some stage)
      (hentry : entry ∈ stage.job.plan.selected stage.fragments)
      (h : stage.job.plan.Rejects stage.session.world entry)

-- Each of the components that are selected has its own README, which is not the log file.
def KeepsApart (s : Session) (request : Request) : Prop :=
  ∀ stage, stage? s request = some stage →
    stage.job.plan.LogsApart stage.session (stage.job.plan.selected stage.fragments) ∧
    stage.job.plan.HaveOwnReadmes stage.session.world (stage.job.plan.selected stage.fragments)

theorem givenPath_eq_ok_iff :
    givenPath w t = .ok p ↔ w.expandHome (.ofText t) = .ok (some p) := by
  rw [givenPath, bind_eq_ok_iff]
  constructor
  · rintro ⟨expanded, hexpanded, h⟩
    cases expanded with
    | none => simp at h
    | some found => rw [mapError_eq_ok_iff.mp hexpanded, Except.ok.inj h]
  · exact fun h => ⟨some p, mapError_eq_ok_iff.mpr h, rfl⟩

theorem exists_givenPath_eq_error_iff :
    (∃ error, givenPath w t = .error error) ↔ HasNoHome w t := by
  simp only [HasNoHome, Ne, ← givenPath_eq_ok_iff]
  cases givenPath w t <;> simp

theorem isReported_of_givenPath (h : givenPath w t = .error error) : error.isReported = false := by
  rw [givenPath, bind_eq_error_iff] at h
  rcases h with h | ⟨expanded, -, h⟩
  · obtain ⟨e, -, rfl⟩ := mapError_eq_error_iff.mp h
    rfl
  · cases expanded with
    | none =>
      obtain rfl := Except.error.inj h
      rfl
    | some found => simp at h

theorem rootOf_unreported_iff :
    (∃ error, rootOf w project = .error error ∧ error.isReported = false) ↔
      HasNoPlace w project := by
  constructor
  · rintro ⟨error, h, hunreported⟩
    rw [rootOf, bind_eq_error_iff] at h
    rcases h with h | ⟨p, hgiven, h⟩
    · exact .home (exists_givenPath_eq_error_iff.mp ⟨error, h⟩)
    rw [givenPath_eq_ok_iff] at hgiven
    simp only [bind_eq_error_iff, mapError_eq_error_iff, mapError_eq_ok_iff] at h
    rcases h with ⟨e, h, -⟩ | ⟨root, hroot, ⟨e, h, -⟩ | ⟨isDirectory, -, h⟩⟩
    · exact .path hgiven h
    · exact .name hgiven hroot h
    · split at h
      · simp at h
      · obtain rfl := Except.error.inj h
        simp [Error.isReported] at hunreported
  · intro hnowhere
    cases hnowhere with
    | home h =>
      obtain ⟨error, herror⟩ := exists_givenPath_eq_error_iff.mpr h
      exact ⟨error, by rw [rootOf, herror]; rfl, isReported_of_givenPath herror⟩
    | @path p error hgiven h =>
      refine ⟨.badPath error, ?_, rfl⟩
      simp [rootOf, givenPath_eq_ok_iff.mpr hgiven, h, ok_bind, error_bind, mapError_error]
    | @name p root error hgiven hroot h =>
      refine ⟨.badPath error, ?_, rfl⟩
      simp [rootOf, givenPath_eq_ok_iff.mpr hgiven, hroot, h, ok_bind, error_bind, mapError_ok,
        mapError_error]

theorem exists_sourceOf_eq_error_iff {settings : Settings} :
    (∃ error, sourceOf w settings t = .error error) ↔ t ≠ [] ∧ HasNoHome w t := by
  rw [sourceOf]
  split
  · rename_i hempty
    simp [hempty]
  · rename_i hgiven
    rw [exists_givenPath_eq_error_iff]
    simp [hgiven]

theorem isReported_of_sourceOf {settings : Settings} (h : sourceOf w settings t = .error error) :
    error.isReported = false := by
  rw [sourceOf] at h
  split at h
  · simp at h
  · exact isReported_of_givenPath h

theorem escapes_of_prepare (h : prepare s.world request = .error error)
    (hunreported : error.isReported = false) : EscapesEarly s request := by
  rcases prepare_eq_error_iff.mp h with hroot | ⟨root, hroot, ⟨e, hsettings, rfl⟩ |
    ⟨settings, hsettings, hsource⟩⟩
  · exact .project (rootOf_unreported_iff.mp ⟨error, hroot, hunreported⟩)
  · exact .settings hroot (Settings.load_unreported_iff.mp ⟨e, hsettings, hunreported⟩)
  · obtain ⟨hinput, hhome⟩ := exists_sourceOf_eq_error_iff.mp ⟨error, hsource⟩
    exact .source hroot hsettings hinput hhome

theorem escapes_of_collect {job : Job} (hprepare : prepare s.world request = .ok job)
    (h : collect (s.log (readingRecord job.source)).world job = .error error)
    (hunreported : error.isReported = false) : EscapesEarly s request := by
  rcases collect_eq_error_iff.mp h with ⟨e, hload, rfl⟩ | ⟨members, hload, e, hwalk, -⟩
  · exact .document hprepare (Document.load_unreported_iff.mp ⟨e, hload, hunreported⟩)
  · exact .walk hprepare (Document.load_eq_ok_iff.mp hload)
      (Extraction.exists_addDocument_eq_error_iff.mp ⟨e, hwalk⟩)

theorem run_of_prepare (h : prepare s.world request = .error error) :
    (run s request).2 = .error error := by
  rw [run, h]

theorem run_of_collect {job : Job} (hprepare : prepare s.world request = .ok job)
    (h : collect (s.log (readingRecord job.source)).world job = .error error) :
    (run s request).2 = .error error := by
  simp only [run, hprepare, h]

theorem escapesEarly_iff :
    EscapesEarly s request ↔ FailsEarly s request ∧
      ∃ error, (run s request).2 = .error error ∧ error.isReported = false := by
  constructor
  · have hprepare {error : Error} (h : prepare s.world request = .error error)
        (hunreported : error.isReported = false) : FailsEarly s request ∧
          ∃ error, (run s request).2 = .error error ∧ error.isReported = false :=
      ⟨failsEarly_of_prepare h, error, run_of_prepare h, hunreported⟩
    have hcollect {job : Job} {error : Error} (hjob : prepare s.world request = .ok job)
        (h : collect (s.log (readingRecord job.source)).world job = .error error)
        (hunreported : error.isReported = false) : FailsEarly s request ∧
          ∃ error, (run s request).2 = .error error ∧ error.isReported = false :=
      ⟨failsEarly_of_collect hjob h, error, run_of_collect hjob h, hunreported⟩
    intro hescapes
    cases hescapes with
    | project h =>
      obtain ⟨error, hroot, hunreported⟩ := rootOf_unreported_iff.mpr h
      exact hprepare (prepare_eq_error_iff.mpr (.inl hroot)) hunreported
    | settings hroot h =>
      obtain ⟨e, hsettings, hunreported⟩ := Settings.load_unreported_iff.mpr h
      exact hprepare (prepare_eq_error_iff.mpr (.inr ⟨_, hroot, .inl ⟨e, hsettings, rfl⟩⟩))
        hunreported
    | source hroot hsettings hinput h =>
      obtain ⟨error, hsource⟩ := exists_sourceOf_eq_error_iff.mpr ⟨hinput, h⟩
      exact hprepare (prepare_eq_error_iff.mpr (.inr ⟨_, hroot, .inr ⟨_, hsettings, hsource⟩⟩))
        (isReported_of_sourceOf hsource)
    | document hjob h =>
      obtain ⟨e, hload, hunreported⟩ := Document.load_unreported_iff.mpr h
      exact hcollect hjob (collect_eq_error_iff.mpr (.inl ⟨e, hload, rfl⟩)) hunreported
    | walk hjob hdocument h =>
      obtain ⟨e, hwalk⟩ := Extraction.exists_addDocument_eq_error_iff.mpr h
      exact hcollect hjob (collect_eq_error_iff.mpr
        (.inr ⟨_, Document.load_eq_ok_iff.mpr hdocument, e, hwalk, rfl⟩)) rfl
  · rintro ⟨hearly, error, herror, hunreported⟩
    rw [failsEarly_iff_stage?, stage?] at hearly
    cases hprepare : prepare s.world request with
    | error e =>
      obtain rfl := Except.error.inj ((run_of_prepare hprepare).symm.trans herror)
      exact escapes_of_prepare hprepare hunreported
    | ok job =>
      cases hcollect : collect (s.log (readingRecord job.source)).world job with
      | error e =>
        obtain rfl := Except.error.inj ((run_of_collect hprepare hcollect).symm.trans herror)
        exact escapes_of_collect hprepare hcollect hunreported
      | ok state => simp [hprepare, hcollect] at hearly

variable {s' : Session} {result : Except Error Report}

-- Before the flush there are no tasks, and so no order of theirs.
theorem FailsEarly.goes_iff (h : FailsEarly s request) :
    Goes s request s' result ↔ run s request = (s', result) := by
  rw [Goes, failsEarly_iff_stage?.mp h]

-- A run either fails before its flush, or goes as its flush does.
theorem Goes.cases (hopen : s.LogIsOpen) (h : Goes s request s' result) :
    (FailsEarly s request ∧ run s request = (s', result)) ∨
      ∃ stage flushed, stage? s request = some stage ∧
        Session.Touches Session.nowhere s stage.session ∧
        run s request = finish stage.session stage.job stage.fragments ∧
        Patch.Flushes stage.job.plan stage.session stage.fragments s' flushed ∧
        ((∃ e, flushed = .error e ∧ result = .error (.patching e)) ∨
          ∃ outcomes, flushed = .ok outcomes ∧ result = .ok ⟨stage.fragments, outcomes⟩) := by
  rcases run_cases hopen request with ⟨hstage, -⟩ | ⟨stage, hstage, htouches, -, hrun⟩
  · have hearly := failsEarly_iff_stage?.mpr hstage
    exact .inl ⟨hearly, hearly.goes_iff.mp h⟩
  · rw [Goes, hstage] at h
    obtain ⟨flushed, hflushes, rfl⟩ := h
    refine .inr ⟨stage, flushed, hstage, htouches, hrun, hflushes, ?_⟩
    cases flushed with
    | error e => exact .inl ⟨e, rfl, rfl⟩
    | ok outcomes => exact .inr ⟨outcomes, rfl, rfl⟩

theorem not_failsEarly_of_stage? {stage : Stage} (h : stage? s request = some stage) :
    ¬FailsEarly s request := by
  rw [failsEarly_iff_stage?, h]
  simp

-- A run ends with an error that is not reported exactly in the ways that are listed.
theorem Goes.unreported_iff (hopen : s.LogIsOpen) (hapart : KeepsApart s request)
    (h : Goes s request s' result) :
    (∃ error, result = .error error ∧ error.isReported = false) ↔ Escapes s request := by
  rcases h.cases hopen with
    ⟨hearly, hrun⟩ | ⟨stage, flushed, hstage, htouches, -, hflushes, hresult⟩
  · obtain rfl : (run s request).2 = result := congrArg Prod.snd hrun
    constructor
    · exact fun hunreported => .early (escapesEarly_iff.mpr ⟨hearly, hunreported⟩)
    · rintro (hescapes | ⟨hstage, -, -⟩)
      · exact (escapesEarly_iff.mp hescapes).2
      · exact absurd hearly (not_failsEarly_of_stage? hstage)
  · obtain ⟨happart, hown⟩ := hapart stage hstage
    have hfails := hflushes.exists_error_iff (htouches.logIsOpen hopen) happart hown
    constructor
    · rintro ⟨error, rfl, -⟩
      obtain ⟨e, he, -⟩ := hresult.resolve_right (by simp)
      obtain ⟨entry, hentry, hrejects⟩ := hfails.mp ⟨e, he⟩
      exact .readme hstage hentry hrejects
    · rintro (hescapes | ⟨hfound, hentry, hrejects⟩)
      · exact absurd (escapesEarly_iff.mp hescapes).1 (not_failsEarly_of_stage? hstage)
      · obtain rfl := Option.some.inj (hstage.symm.trans hfound)
        obtain ⟨e, rfl⟩ := hfails.mpr ⟨_, hentry, hrejects⟩
        obtain ⟨found, -, rfl⟩ := hresult.resolve_right (by simp)
        exact ⟨_, rfl, rfl⟩

-- What a run reports does not depend on the order of its tasks.
theorem Goes.eq_ok_iff (hopen : s.LogIsOpen) (hapart : KeepsApart s request)
    (h : Goes s request s' result) {report : Report} :
    result = .ok report ↔ (run s request).2 = .ok report := by
  rcases h.cases hopen with
    ⟨-, hrun⟩ | ⟨stage, flushed, hstage, htouches, hrun, hflushes, hresult⟩
  · rw [hrun]
  · obtain ⟨happart, hown⟩ := hapart stage hstage
    have hstageOpen := htouches.logIsOpen hopen
    obtain ⟨schedule, -, hflushed⟩ := hflushes
    rw [hrun]
    rcases hresult with ⟨e, rfl, rfl⟩ | ⟨outcomes, rfl, rfl⟩
    · -- a flush that fails in one order does not end with outcomes in another one
      have hnone : (finish stage.session stage.job stage.fragments).2 ≠ .ok report := by
        intro hreport
        obtain ⟨-, hflush⟩ := finish_eq_ok_iff.mp (Prod.ext rfl hreport)
        have hall := (Patch.exists_flush_iff hstageOpen _ _ happart).mp ⟨_, _, hflush⟩
        obtain ⟨outcomes, houtcomes⟩ :=
          (Patch.launchAnd_ok_iff hstageOpen happart hown hflushed).mpr hall
        simp at houtcomes
      simp [hnone]
    · obtain ⟨hflush, -⟩ := Patch.launchAnd_eq_flush hstageOpen happart hown hflushed
      have hreport : finish stage.session stage.job stage.fragments =
          (_, .ok ⟨stage.fragments, outcomes⟩) := finish_eq_ok_iff.mpr ⟨rfl, hflush⟩
      rw [hreport]

theorem Goes.current_eq (hopen : s.LogIsOpen) (h : Goes s request s' result) :
    s'.world.current = s.world.current := by
  rcases h.cases hopen with ⟨-, hrun⟩ | ⟨stage, flushed, -, htouches, -, ⟨schedule, rfl, -⟩, -⟩
  · obtain rfl : (run s request).1 = s' := congrArg Prod.fst hrun
    exact (run_touches hopen request).world.current
  · have hwrites := Patch.launchAnd_writes (htouches.logIsOpen hopen) stage.job.plan
      stage.fragments schedule
    exact hwrites.world.current.trans htouches.world.current

end Run

namespace Host

variable {host : Host} {s s' : Session} {request : Run.Request} {texts : List Text}
  {ending : Except Breakdown (Session × Command.Ending)}

-- Where a host breaks off what follows a command line: at settings or a document that are too deep,
-- and at what a run has to print.
inductive BreaksOff (host : Host) (s : Session) (request : Run.Request) : Prop where
  | settings {chars : List Char} (h : Run.settingsText? s.world request = some chars)
      (hdeep : host.deepSettings chars = true)
  | document {chars : List Char} (h : Run.documentText? s request = some chars)
      (hdeep : host.deepDocument chars = true)
  | output {report : Run.Report} {outcome : Patch.Outcome} {p : CodePoint}
      (hrun : (run s request).2 = .ok report) (houtcome : outcome ∈ report.outcomes)
      (hp : p ∈ Command.outcomeText s.world outcome) (hcode : host.encodes p = false)

-- The program was left by an error, of its own or of its host.
def IsLeft : Except Breakdown (Session × Command.Ending) → Prop
  | .error _ => True
  | .ok (_, .raised _) => True
  | .ok (_, .exit _) => False

theorem outcomeText_congr {w w' : World} (h : w'.current = w.current) (outcome : Patch.Outcome) :
    Command.outcomeText w' outcome = Command.outcomeText w outcome := by
  simp only [Command.outcomeText, Command.shownPath, World.resolve, h]

theorem isLeft_fail {error : Run.Error} :
    IsLeft (.ok (Command.fail s error)) ↔ error.isReported = false := by
  rw [Command.fail]
  cases error.isReported <;> simp [IsLeft]

theorem not_isLeft_report (result : Run.Report) : ¬IsLeft (.ok (Command.report s result)) := by
  rw [Command.report]
  split <;> simp [IsLeft]

-- What a run did is printed if all of it has an encoding.
theorem conclude_of_encodes {report : Run.Report} (h : ∀ outcome ∈ report.outcomes,
      ∀ p ∈ Command.outcomeText s.world outcome, host.encodes p = true) :
    host.conclude s (.ok report) = .ok (Command.report s report) := by
  have hall : (report.outcomes.flatMap (Command.outcomeText s.world)).all host.encodes = true := by
    rw [List.all_flatMap]
    exact List.all_eq_true.mpr fun outcome houtcome => List.all_eq_true.mpr (h outcome houtcome)
  rw [conclude]
  exact if_pos hall

theorem isLeft_conclude {result : Except Run.Error Run.Report} :
    IsLeft (host.conclude s result) ↔
      (∃ error, result = .error error ∧ error.isReported = false) ∨
        ∃ report, result = .ok report ∧ ∃ outcome ∈ report.outcomes,
          ∃ p ∈ Command.outcomeText s.world outcome, host.encodes p = false := by
  cases result with
  | error error => simp [conclude, isLeft_fail]
  | ok report =>
    by_cases hall : ∀ outcome ∈ report.outcomes,
        ∀ p ∈ Command.outcomeText s.world outcome, host.encodes p = true
    · simp only [conclude_of_encodes hall, not_isLeft_report, reduceCtorEq, false_and, exists_false,
        false_or, false_iff]
      rintro ⟨found, hfound, outcome, houtcome, p, hp, hcode⟩
      obtain rfl := Except.ok.inj hfound
      simp [hall outcome houtcome p hp] at hcode
    · have hsome : ∃ outcome ∈ report.outcomes,
          ∃ p ∈ Command.outcomeText s.world outcome, host.encodes p = false := by
        simpa using hall
      have hbroken : host.conclude s (.ok report) = .error .output := by
        rw [conclude]
        exact if_neg (by simpa [List.all_flatMap] using hall)
      rw [hbroken]
      exact iff_of_true trivial (.inr ⟨report, rfl, hsome⟩)

-- However a program goes on once its log is set up, it is left by an error exactly if its run ends
-- with one that is not reported, or the host breaks it off.
theorem Finishes.isLeft_iff (hopen : s.LogIsOpen) (hapart : Run.KeepsApart s request)
    (h : host.Finishes s request ending) :
    IsLeft ending ↔ Run.Escapes s request ∨ host.BreaksOff s request := by
  rw [Finishes] at h
  split at h
  · rename_i hdeep
    obtain ⟨chars, hchars, hdeep⟩ := (Option.any_eq_true _ _).mp hdeep
    subst h
    exact iff_of_true trivial (.inr (.settings hchars hdeep))
  · rename_i hsettings
    split at h
    · rename_i hdeep
      obtain ⟨chars, hchars, hdeep⟩ := (Option.any_eq_true _ _).mp hdeep
      subst h
      exact iff_of_true trivial (.inr (.document hchars hdeep))
    · rename_i hdocument
      obtain ⟨after, result, hgoes, rfl⟩ := h
      have hcurrent := hgoes.current_eq hopen
      rw [isLeft_conclude, hgoes.unreported_iff hopen hapart]
      refine or_congr_right ?_
      simp only [hgoes.eq_ok_iff hopen hapart, outcomeText_congr hcurrent]
      constructor
      · rintro ⟨report, hrun, outcome, houtcome, p, hp, hcode⟩
        exact .output hrun houtcome hp hcode
      · rintro (⟨hchars, hdeep⟩ | ⟨hchars, hdeep⟩ | ⟨hrun, houtcome, hp, hcode⟩)
        · simp [hchars, hdeep] at hsettings
        · simp [hchars, hdeep] at hdocument
        · exact ⟨_, hrun, _, houtcome, _, hp, hcode⟩

-- A run that fails early and does not leave the program is told in one line.
theorem Finishes.of_failsEarly (hearly : Run.FailsEarly s request)
    (h : host.Finishes s request ending) (hstays : ¬IsLeft ending) :
    ∃ error told after, (run s request).2 = .error error ∧ error.isReported = true ∧
      ending = .ok (after, .exit 1) ∧
      after.errors = told ++ (Log.programName ++ " failed: " ++ error.message ++ "\n") := by
  obtain ⟨error, -, herror, -⟩ := hearly.run_eq
  rw [Finishes] at h
  split at h
  · subst h
    exact absurd trivial hstays
  · split at h
    · subst h
      exact absurd trivial hstays
    · obtain ⟨after, result, hgoes, rfl⟩ := h
      have hrun := hearly.goes_iff.mp hgoes
      rw [hrun] at herror
      subst herror
      have hreported : error.isReported = true := by
        rw [← Bool.not_eq_false, ← isLeft_fail (s := after)]
        exact hstays
      have hfail : host.conclude after (.error error) = .ok (after.printError
          (Log.programName ++ " failed: " ++ error.message ++ "\n"), .exit 1) := by
        simp only [conclude, Command.fail, hreported, if_true]
      exact ⟨error, after.errors, _, by rw [hrun], hreported, hfail, rfl⟩

-- Where nothing is broken off, the program whose components take turns is one of the ways to go.
theorem finishes_of_not_breaksOff (hopen : s.LogIsOpen) (h : ¬host.BreaksOff s request) :
    host.Finishes s request (.ok (match run s request with
      | (s, .error error) => Command.fail s error
      | (s, .ok result) => Command.report s result)) := by
  have hsettings : (Run.settingsText? s.world request).any host.deepSettings = false := by
    rw [Bool.eq_false_iff]
    intro hdeep
    obtain ⟨chars, hchars, hdeep⟩ := (Option.any_eq_true _ _).mp hdeep
    exact h (.settings hchars hdeep)
  have hdocument : (Run.documentText? s request).any host.deepDocument = false := by
    rw [Bool.eq_false_iff]
    intro hdeep
    obtain ⟨chars, hchars, hdeep⟩ := (Option.any_eq_true _ _).mp hdeep
    exact h (.document hchars hdeep)
  rw [Finishes, hsettings, hdocument]
  refine ⟨_, _, Run.goes_run hopen request, ?_⟩
  have hcurrent := (Run.goes_run hopen request).current_eq hopen
  cases hrun : run s request with
  | mk after result =>
    rw [hrun] at hcurrent
    cases result with
    | error error => rfl
    | ok report =>
      refine conclude_of_encodes fun outcome houtcome p hp => ?_
      rw [outcomeText_congr hcurrent] at hp
      rw [← Bool.not_eq_false]
      exact fun hcode => h (.output (congrArg Prod.snd hrun) houtcome hp hcode)

theorem exists_finishes (host : Host) (hopen : s.LogIsOpen) (request : Run.Request) :
    ∃ ending, host.Finishes s request ending := by
  simp only [Finishes]
  split
  · exact ⟨_, rfl⟩
  · split
    · exact ⟨_, rfl⟩
    · exact ⟨_, _, _, Run.goes_run hopen request, rfl⟩

end Host

namespace Command

variable {s : Session} {texts : List Text} {ending : Except Breakdown (Session × Ending)}

theorem ends_of_ofTexts_error (host : Host) {stop : Arguments.Stop}
    (h : Arguments.ofTexts texts = .error stop) :
    host.Ends s texts ending ↔ ending = .ok (command s texts) := by
  rw [Host.Ends, h]

theorem ends_of_openLog (host : Host) {arguments : Arguments}
    (harguments : Arguments.ofTexts texts = .ok arguments)
    (h : (openLog s arguments).2 = .ok ()) :
    host.Ends s texts ending ↔
      host.Finishes (openLog s arguments).1 (requestOf arguments) ending := by
  have hopened : openLog s arguments = ((openLog s arguments).1, .ok ()) := Prod.ext rfl h
  rw [Host.Ends, harguments]
  dsimp only
  rw [hopened]

theorem not_isLeft_of_stop {stop : Arguments.Stop} (h : Arguments.ofTexts texts = .error stop) :
    ¬Host.IsLeft (.ok (command s texts)) := by
  rw [command, h]
  cases stop <;> simp [Host.IsLeft, refuse]

-- The program that patches one README after the other ends as one of the orders has it.
theorem command_ends {host : Host}
    (h : ∀ arguments, Arguments.ofTexts texts = .ok arguments →
      ¬host.BreaksOff (openLog s arguments).1 (requestOf arguments)) :
    host.Ends s texts (.ok (command s texts)) := by
  cases harguments : Arguments.ofTexts texts with
  | error stop => exact (ends_of_ofTexts_error host harguments).mpr rfl
  | ok arguments =>
    cases hopened : openLog s arguments with
    | mk opened result =>
      have hcommand : command s texts = start s arguments := by rw [command, harguments]
      cases result with
      | error error =>
        rw [Host.Ends, harguments]
        simp only [hopened, hcommand, start]
      | ok done =>
        rw [ends_of_openLog host harguments (congrArg Prod.snd hopened), hcommand, start_eq hopened]
        have hopen := openLog_logIsOpen s arguments
        rw [hopened] at hopen ⊢
        exact Host.finishes_of_not_breaksOff hopen (hopened ▸ h arguments harguments)

-- From any command line whose log file can be opened, the program is left by an error exactly if
-- its run ends in one of the ways that are not reported or its host breaks it off, in whatever
-- order the tasks of its flush take their steps. Where the run fails early in another way, the
-- program ends with status 1 and says why.
theorem command_raises_iff (host : Host)
    (hlog : ∀ arguments, Arguments.ofTexts texts = .ok arguments →
      (openLog s arguments).2 = .ok ())
    (hapart : ∀ arguments, Arguments.ofTexts texts = .ok arguments →
      Run.KeepsApart (openLog s arguments).1 (requestOf arguments)) :
    (∃ ending, host.Ends s texts ending) ∧
    ∀ ending, host.Ends s texts ending →
      (Host.IsLeft ending ↔ ∃ arguments, Arguments.ofTexts texts = .ok arguments ∧
        (Run.Escapes (openLog s arguments).1 (requestOf arguments) ∨
          host.BreaksOff (openLog s arguments).1 (requestOf arguments))) ∧
      ∀ arguments, Arguments.ofTexts texts = .ok arguments →
        Run.FailsEarly (openLog s arguments).1 (requestOf arguments) → ¬Host.IsLeft ending →
          ∃ error told after, (run (openLog s arguments).1 (requestOf arguments)).2 = .error error ∧
            error.isReported = true ∧ ending = .ok (after, .exit 1) ∧
            after.errors = told ++ (Log.programName ++ " failed: " ++ error.message ++ "\n") := by
  cases harguments : Arguments.ofTexts texts with
  | error stop =>
    simp only [ends_of_ofTexts_error host harguments, reduceCtorEq, false_and, exists_false,
      false_implies, implies_true, and_true, forall_eq, exists_eq, true_and, iff_false]
    exact not_isLeft_of_stop harguments
  | ok arguments =>
    have hlog := hlog arguments harguments
    have hapart := hapart arguments harguments
    have hopen := openLog_logIsOpen s arguments
    simp only [ends_of_openLog host harguments hlog, Except.ok.injEq, exists_eq_left', forall_eq']
    exact ⟨Host.exists_finishes host hopen _, fun ending hends =>
      ⟨hends.isLeft_iff hopen hapart, fun hearly hstays => hends.of_failsEarly hearly hstays⟩⟩

-- The most brackets that are open at once.
def depthOf (chars : List Char) : Nat :=
  (chars.foldl (fun (depths : Nat × Nat) c =>
    if c = '[' ∨ c = '\x7b' then (depths.1 + 1, max depths.2 (depths.1 + 1))
    else if c = ']' ∨ c = '\x7d' then (depths.1 - 1, depths.2)
    else depths) (0, 0)).2

-- A host whose stack takes a thousand calls, two of them for each level of settings, and whose
-- standard output is UTF-8.
def usualHost : Host where
  deepSettings chars := 500 ≤ depthOf chars
  deepDocument chars := 1000 ≤ depthOf chars
  encodes p := !p.isSurrogate

-- The document of a project at the root is read as it is.
theorem documentText?_projectHolding (document : String) :
    Run.documentText? (openLog (.start (Run.projectHolding document []) []) .default).1
      ⟨".", [], false⟩ = some (Text.unifyLineEnds document.toList) := by
  let opened := (openLog (.start (Run.projectHolding document []) []) .default).1
  let source : Path := .ofText "/jsDoc.json"
  have hprepare : Run.prepare opened.world ⟨".", [], false⟩ =
      .ok ⟨.default ⟨.root, []⟩, source, false⟩ := rfl
  have hlog : opened.logFile? ≠ some (World.locationOf (.ofText "jsDoc.json")) := by
    rw [show opened.logFile? = none from rfl]
    simp
  have hopen : opened.LogIsOpen := openLog_logIsOpen _ _
  have hsame := (Session.log_touches hopen (Run.readingRecord source)).world
  have hread : (opened.log (Run.readingRecord source)).world.readBytes source =
      .ok (Utf8.bytesOf document.toList) := by
    refine World.readBytes_eq_ok_iff.mpr ⟨World.locationOf (.ofText "jsDoc.json"), ?_, ?_⟩
    · rw [hsame.locate_eq]
      rfl
    · rw [hsame.kept _ (Session.untouched hlog)]
      rfl
  have htext : (opened.log (Run.readingRecord source)).world.readText source =
      .ok (Text.unifyLineEnds document.toList) :=
    World.readText_of_decode hread (Utf8.decode_bytesOf _)
  have hresult : Run.documentText? opened ⟨".", [], false⟩ =
      some (Text.unifyLineEnds document.toList) := by
    simp only [Run.documentText?, hprepare, Except.toOption, Option.bind_eq_bind, Option.bind_some,
      htext]
  exact hresult

-- A project without a document, and one with a document of a thousand lists in each other.
theorem command_raises_iff_of_missing_document :
    let missing : Session := .start (Patch.packagesHolding []) []
    let deep : Session :=
      .start (Run.projectHolding (String.ofList (List.replicate 1000 '[')) []) []
    (∀ ending, usualHost.Ends missing [] ending → ∃ told after, ending = .ok (after, .exit 1) ∧
      after.errors = told ++ "tsdocgen failed: Reflection JSON not found: /jsDoc.json\n") ∧
    ∀ ending, usualHost.Ends deep [] ending → Host.IsLeft ending := by
  intro missing deep
  have hdefault : Arguments.ofTexts [] = .ok .default := rfl
  have hlog (s : Session) (arguments : Arguments)
      (harguments : Arguments.ofTexts [] = .ok arguments) : (openLog s arguments).2 = .ok () := by
    obtain rfl := Except.ok.inj (hdefault.symm.trans harguments)
    rfl
  constructor
  · let opened := (openLog missing .default).1
    have hopen : opened.LogIsOpen := openLog_logIsOpen missing .default
    have hfailed : (run opened (requestOf .default)).2.map (fun _ => ()) =
        .error (.document (.ofText "/jsDoc.json") .missing) := by
      decide +kernel
    have hrun := Failing.map_eq_error_iff.mp hfailed
    have hearly : Run.FailsEarly opened (requestOf .default) :=
      (Run.run_fails_early_iff hopen _).1.mpr ⟨_, hrun, by simp⟩
    have hapart : Run.KeepsApart opened (requestOf .default) := by
      intro stage hstage
      exact absurd hearly (Run.not_failsEarly_of_stage? hstage)
    intro ending hends
    obtain ⟨hleft, hreported⟩ := (command_raises_iff usualHost (hlog missing) (by
      intro arguments harguments
      obtain rfl := Except.ok.inj (hdefault.symm.trans harguments)
      exact hapart)).2 ending hends
    have hstays : ¬Host.IsLeft ending := by
      rw [hleft]
      rintro ⟨arguments, harguments, hescapes⟩
      obtain rfl := Except.ok.inj (hdefault.symm.trans harguments)
      rcases hescapes with hescapes | ⟨h, -⟩ | ⟨h, -⟩ | ⟨h, -⟩
      · obtain ⟨error, herror, hunreported⟩ :=
          ((Run.goes_run hopen (requestOf .default)).unreported_iff hopen hapart).mpr hescapes
        obtain rfl := Except.error.inj (hrun.symm.trans herror)
        simp [Run.Error.isReported, Document.Error.isReported] at hunreported
      · have hnone : Run.settingsText? opened.world (requestOf .default) = none := by decide +kernel
        exact Option.some_ne_none _ (h.symm.trans hnone)
      · have hnone : Run.documentText? opened (requestOf .default) = none := by decide +kernel
        exact Option.some_ne_none _ (h.symm.trans hnone)
      · have herror := hrun.symm.trans h
        simp at herror
    obtain ⟨error, told, after, herror, -, hending, herrors⟩ :=
      hreported .default hdefault hearly hstays
    obtain rfl := Except.error.inj (hrun.symm.trans herror)
    refine ⟨told, after, hending, herrors.trans (congrArg (told ++ ·) ?_)⟩
    decide +kernel
  · intro ending hends
    rw [ends_of_openLog usualHost hdefault (hlog deep .default hdefault), Host.Finishes] at hends
    have hchars : Run.documentText? (openLog deep .default).1 (requestOf .default) =
        some (List.replicate 1000 '[') := by
      refine (documentText?_projectHolding _).trans ?_
      rw [String.toList_ofList]
      decide +kernel
    have hdeep : usualHost.deepDocument (List.replicate 1000 '[') = true := by decide +kernel
    rw [hchars, Option.any_some, hdeep] at hends
    split at hends <;> subst hends <;> trivial

-- A file of settings that is no text. Every host is left by an error, in every order.
theorem command_raises_of_undecodable_settings :
    let s : Session := .start ((Patch.packagesHolding []).setFile
      (World.locationOf (.ofText ".tsdocgen.yml")) [0xFF]) []
    let error : Error := .run (.settings (.unreadable (.undecodable ⟨0, 1, 0xFF, .badStart⟩)))
    (command s []).2 = .raised error ∧
    ∀ (host : Host) ending, host.Ends s [] ending →
      ∃ after, ending = .ok (after, .raised error) := by
  intro s error
  refine ⟨by decide +kernel, fun host ending hends => ?_⟩
  have hdefault : Arguments.ofTexts [] = .ok .default := rfl
  let opened := (openLog s .default).1
  rw [ends_of_openLog host hdefault rfl, Host.Finishes] at hends
  have hsettings : Run.settingsText? opened.world (requestOf .default) = none := by decide +kernel
  have hdocument : Run.documentText? opened (requestOf .default) = none := by decide +kernel
  have hfailed : (run opened (requestOf .default)).2.map (fun _ => ()) =
      .error (.settings (.unreadable (.undecodable ⟨0, 1, 0xFF, .badStart⟩))) := by
    decide +kernel
  have hrun := Failing.map_eq_error_iff.mp hfailed
  have hearly : Run.FailsEarly opened (requestOf .default) :=
    (Run.run_fails_early_iff (openLog_logIsOpen s .default) _).1.mpr ⟨_, hrun, by simp⟩
  simp only [show (openLog s .default).1 = opened from rfl, hsettings, hdocument, Option.any_none,
    Bool.false_eq_true, if_false] at hends
  obtain ⟨after, result, hgoes, rfl⟩ := hends
  rw [hearly.goes_iff.mp hgoes] at hrun
  subst hrun
  exact ⟨after, rfl⟩

end Command

end ReadmeTables
