import ReadmeTables.Proofs.Document
import ReadmeTables.Proofs.Patch.Rejection
/-!
How a run fails.

A run reads the settings and the document and collects all fragments before it looks at the first
README. Main statement: it fails before its flush exactly if its error is not one of patching,
and then it has changed no file and logged nothing about READMEs; what its flush can fail with is
a path that is no name for the system or a text without an encoding.
-/

namespace ReadmeTables

namespace Run

open Failing

variable {s : Session} {request : Request}

-- The ways in which a run fails before its flush: at its root, at its settings, at the path of its
-- document, at the document, and at what should be the list of its sections.
inductive FailsEarly (s : Session) (request : Request) : Prop where
  | root {error : Error} (h : rootOf s.world request.project = .error error)
  | settings {root : Path} {error : Settings.Error}
      (hroot : rootOf s.world request.project = .ok root)
      (h : Settings.load s.world root = .error error)
  | source {root : Path} {settings : Settings} {error : Error}
      (hroot : rootOf s.world request.project = .ok root)
      (hsettings : Settings.load s.world root = .ok settings)
      (h : sourceOf s.world settings request.input = .error error)
  | document {job : Job} (hprepare : prepare s.world request = .ok job)
      (h : ∀ members, ¬Document.IsIn (s.log (readingRecord job.source)).world job.source members)
  | walk {job : Job} {members : Json.Members} {error : Extraction.NotIterable}
      (hprepare : prepare s.world request = .ok job)
      (hdocument : Document.IsIn (s.log (readingRecord job.source)).world job.source members)
      (h : Extraction.addDocument job.settings.modulePrefix .initial (.value (.object members)) =
        .error error)

theorem prepare_eq_error_iff {w : World} {error : Error} :
    prepare w request = .error error ↔
      rootOf w request.project = .error error ∨
      ∃ root, rootOf w request.project = .ok root ∧
        ((∃ e, Settings.load w root = .error e ∧ .settings e = error) ∨
          ∃ settings, Settings.load w root = .ok settings ∧
            sourceOf w settings request.input = .error error) := by
  simp only [prepare, bind_eq_error_iff, mapError_eq_error_iff, mapError_eq_ok_iff, reduceCtorEq,
    and_false, exists_false, or_false]

theorem collect_eq_error_iff {w : World} {job : Job} {error : Error} :
    collect w job = .error error ↔
      (∃ e, Document.load w job.source = .error e ∧ .document job.source e = error) ∨
      ∃ members, Document.load w job.source = .ok members ∧ ∃ e,
        Extraction.addDocument job.settings.modulePrefix .initial (.value (.object members)) =
          .error e ∧ .notIterable e = error := by
  simp only [collect, bind_eq_error_iff, mapError_eq_error_iff, mapError_eq_ok_iff]

theorem failsEarly_of_prepare {error : Error} (h : prepare s.world request = .error error) :
    FailsEarly s request := by
  rcases prepare_eq_error_iff.mp h with hroot | ⟨root, hroot, ⟨e, hsettings, -⟩ |
    ⟨settings, hsettings, hsource⟩⟩
  · exact .root hroot
  · exact .settings hroot hsettings
  · exact .source hroot hsettings hsource

theorem failsEarly_of_collect {job : Job} {error : Error}
    (hprepare : prepare s.world request = .ok job)
    (h : collect (s.log (readingRecord job.source)).world job = .error error) :
    FailsEarly s request := by
  rcases collect_eq_error_iff.mp h with ⟨e, hload, -⟩ | ⟨members, hload, e, hwalk, -⟩
  · exact .document hprepare (Document.exists_load_eq_error_iff.mp ⟨e, hload⟩)
  · exact .walk hprepare (Document.load_eq_ok_iff.mp hload) hwalk

-- A run that fails early hands nothing over to its flush.
theorem failsEarly_iff_stage? : FailsEarly s request ↔ stage? s request = none := by
  constructor
  · intro h
    have hprepare {error : Error} (hfails : prepare s.world request = .error error) :
        stage? s request = none := by
      rw [stage?, hfails]
    have hcollect {job : Job} {error : Error} (hjob : prepare s.world request = .ok job)
        (hfails : collect (s.log (readingRecord job.source)).world job = .error error) :
        stage? s request = none := by
      simp only [stage?, hjob, hfails]
    cases h with
    | root h => exact hprepare (prepare_eq_error_iff.mpr (.inl h))
    | settings hroot h =>
      exact hprepare (prepare_eq_error_iff.mpr (.inr ⟨_, hroot, .inl ⟨_, h, rfl⟩⟩))
    | source hroot hsettings h =>
      exact hprepare (prepare_eq_error_iff.mpr (.inr ⟨_, hroot, .inr ⟨_, hsettings, h⟩⟩))
    | document hjob h =>
      obtain ⟨e, hload⟩ := Document.exists_load_eq_error_iff.mpr h
      exact hcollect hjob (collect_eq_error_iff.mpr (.inl ⟨e, hload, rfl⟩))
    | walk hjob hdocument h =>
      have hload := Document.load_eq_ok_iff.mpr hdocument
      exact hcollect hjob (collect_eq_error_iff.mpr (.inr ⟨_, hload, _, h, rfl⟩))
  · intro h
    rw [stage?] at h
    cases hprepare : prepare s.world request with
    | error e => exact failsEarly_of_prepare hprepare
    | ok job =>
      cases hcollect : collect (s.log (readingRecord job.source)).world job with
      | error e => exact failsEarly_of_collect hprepare hcollect
      | ok state => simp [hprepare, hcollect] at h

-- An error of the stages before the flush is none of patching.
theorem givenPath_ne_patching {w : World} {t : Text} (e : FileError) :
    givenPath w t ≠ .error (.patching e) := by
  rw [Ne, givenPath, bind_eq_error_iff]
  rintro (h | ⟨expanded, -, h⟩)
  · simp [mapError_eq_error_iff] at h
  · cases expanded <;> simp at h

theorem rootOf_ne_patching {w : World} {project : Text} (e : FileError) :
    rootOf w project ≠ .error (.patching e) := by
  rw [Ne, rootOf, bind_eq_error_iff]
  rintro (h | ⟨p, -, h⟩)
  · exact givenPath_ne_patching e h
  · simp only [bind_eq_error_iff, mapError_eq_error_iff, reduceCtorEq, and_false, exists_false,
      false_or] at h
    obtain ⟨root, -, isDirectory, -, h⟩ := h
    split at h <;> simp at h

theorem prepare_ne_patching {w : World} (request : Request) (e : FileError) :
    prepare w request ≠ .error (.patching e) := by
  rw [Ne, prepare_eq_error_iff]
  rintro (h | ⟨root, -, ⟨found, -, h⟩ | ⟨settings, -, h⟩⟩)
  · exact rootOf_ne_patching e h
  · simp at h
  · rw [sourceOf] at h
    split at h
    · simp at h
    · exact givenPath_ne_patching e h

theorem collect_ne_patching {w : World} (job : Job) (e : FileError) :
    collect w job ≠ .error (.patching e) := by
  rw [Ne, collect_eq_error_iff]
  rintro (⟨found, -, h⟩ | ⟨members, -, found, -, h⟩) <;> simp at h

-- A run that fails early is its preparation, or its collecting after the record of what is read.
theorem FailsEarly.run_eq (h : FailsEarly s request) :
    ∃ error logged, (run s request).2 = .error error ∧ (∀ e, error ≠ .patching e) ∧
      (run s request).1 = s.logAll logged ∧ ∀ record ∈ logged, record.source = Log.running := by
  rw [failsEarly_iff_stage?, stage?] at h
  rw [run]
  cases hprepare : prepare s.world request with
  | error e =>
    refine ⟨e, [], rfl, ?_, rfl, by simp⟩
    rintro found rfl
    exact prepare_ne_patching request found hprepare
  | ok job =>
    cases hcollect : collect (s.log (readingRecord job.source)).world job with
    | error e =>
      refine ⟨e, [readingRecord job.source], by simp only [hcollect], ?_, ?_, ?_⟩
      · rintro found rfl
        exact collect_ne_patching job found hcollect
      · simp only [hcollect]
        rfl
      · simp [readingRecord, record]
    | ok state => simp [hprepare, hcollect] at h

-- A run that does not fail early is a flush, and so are its errors.
theorem exists_finish_of_not_failsEarly (hopen : s.LogIsOpen) (h : ¬FailsEarly s request) :
    ∃ stage, stage? s request = some stage ∧ stage.session.LogIsOpen ∧
      run s request = finish stage.session stage.job stage.fragments := by
  rw [failsEarly_iff_stage?] at h
  rcases run_cases hopen request with ⟨hnone, -⟩ | ⟨stage, hstage, htouches, -, hrun⟩
  · exact (h hnone).elim
  · exact ⟨stage, hstage, htouches.logIsOpen hopen, hrun⟩

theorem finish_eq_error_iff {job : Job} {fragments : Fragments} {error : Error} :
    (finish s job fragments).2 = .error error ↔
      ∃ e, (Patch.flush job.plan s fragments).2 = .error e ∧ .patching e = error := by
  rw [finish]
  cases Patch.flush job.plan s fragments with
  | mk after result => cases result <;> simp

-- A run fails before its flush exactly if its error is none of patching; then nothing was written
-- but the log, and nothing was logged about READMEs. Errors of patching are about names and
-- encodings only.
theorem run_fails_early_iff (hopen : s.LogIsOpen) (request : Request) :
    (FailsEarly s request ↔
      ∃ error, (run s request).2 = .error error ∧ ∀ e, error ≠ .patching e) ∧
    (∀ e, (run s request).2 = .error (.patching e) → Patch.isNoted e = false) ∧
    (FailsEarly s request →
      (∀ l, s.logFile? ≠ some l →
        (run s request).1.world.tree.get? l = s.world.tree.get? l) ∧
      ∃ logged, (run s request).1.records = s.records ++ logged ∧
        ∀ record ∈ logged, record.source ≠ Log.patching) := by
  refine ⟨⟨fun h => ?_, fun ⟨error, herror, hne⟩ => ?_⟩, fun e he => ?_,
    fun h => ⟨fun l hl => ?_, ?_⟩⟩
  · obtain ⟨error, -, herror, hne, -⟩ := h.run_eq
    exact ⟨error, herror, hne⟩
  · by_contra h
    obtain ⟨stage, -, -, hrun⟩ := exists_finish_of_not_failsEarly hopen h
    rw [hrun, finish_eq_error_iff] at herror
    obtain ⟨e, -, rfl⟩ := herror
    exact hne e rfl
  · have hlate : ¬FailsEarly s request := by
      intro h
      obtain ⟨error, -, herror, hne, -⟩ := h.run_eq
      exact hne e (Except.error.inj (herror.symm.trans he))
    obtain ⟨stage, -, hstage, hrun⟩ := exists_finish_of_not_failsEarly hopen hlate
    rw [hrun, finish_eq_error_iff] at he
    obtain ⟨found, hfound, hsame⟩ := he
    obtain rfl := Error.patching.inj hsame
    exact Patch.isNoted_of_flush hstage hfound
  · obtain ⟨-, logged, -, -, hrun, -⟩ := h.run_eq
    rw [hrun]
    exact (Session.logAll_touches hopen logged).world.kept l (Session.untouched hl)
  · obtain ⟨-, logged, -, -, hrun, hsources⟩ := h.run_eq
    refine ⟨logged, by rw [hrun, Session.logAll_records], fun record hrecord => ?_⟩
    rw [hsources record hrecord]
    decide

-- A document with a section of a drawer that is no JSON at its end.
theorem run_fails_early_of_bad_end :
    let s : Session := .start (projectHolding (documentNaming ["mdc-drawer"] ++ ",")
      [(Patch.defaultFilter, Utf8.bytesOf
        "<!-- docgen-tsdoc-replacer:start -->\n<!-- docgen-tsdoc-replacer:end -->".toList)]) []
    let request : Request := ⟨".", [], false⟩
    FailsEarly s request ∧
      (∃ error, (run s request).2 = .error error ∧ error.isReported = true) ∧
      ∀ l, (run s request).1.world.tree.get? l = s.world.tree.get? l := by
  intro s request
  have hopen : s.LogIsOpen := Session.start_logIsOpen _ _
  obtain ⟨hearly, -, hkept⟩ := run_fails_early_iff hopen request
  have hreported : (run s request).2.mapError Error.isReported = .error true := by
    have h : ((run s request).2.mapError Error.isReported).map (fun _ => ()) = .error true := by
      decide +kernel
    exact Failing.map_eq_error_iff.mp h
  obtain ⟨error, herror, hisReported⟩ := mapError_eq_error_iff.mp hreported
  have hfails : FailsEarly s request := by
    refine hearly.mpr ⟨error, herror, ?_⟩
    rintro e rfl
    simp [Error.isReported] at hisReported
  exact ⟨hfails, ⟨error, herror, hisReported⟩,
    fun l => (hkept hfails).1 l (Session.logFile?_start_ne _ _ l)⟩

end Run

end ReadmeTables
