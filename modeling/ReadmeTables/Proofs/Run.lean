import ReadmeTables.Host
import ReadmeTables.Proofs.Failing
import ReadmeTables.Proofs.Patch.Serial
/-!
What a run does to files.

The stages of a run before its flush only read and log. Main statements: a run either fails with
nothing done but logging or is a flush after nothing but logging, and it touches no file but the
READMEs it may write and the log.
-/

namespace ReadmeTables.Run

open Failing
open Session (Touches LogIsOpen)

variable {s : Session} {request : Request} {l : Location}

theorem prepare_eq_ok_iff {w : World} {job : Job} :
    prepare w request = .ok job ↔
      ∃ root, rootOf w request.project = .ok root ∧
        ∃ settings, Settings.load w root = .ok settings ∧
          ∃ source, sourceOf w settings request.input = .ok source ∧
            ⟨settings, source, request.dryRun⟩ = job := by
  simp only [prepare, bind_eq_ok_iff, mapError_eq_ok_iff, Except.ok.injEq]

theorem prepare_dryRun {w : World} {job : Job} (h : prepare w request = .ok job) :
    job.dryRun = request.dryRun := by
  obtain ⟨root, -, settings, -, source, -, rfl⟩ := prepare_eq_ok_iff.mp h
  rfl

-- A run that only looks is prepared as any other.
theorem prepare_of_dryRun {w : World} {project input : Text} {dryRun : Bool} {job : Job}
    (h : prepare w ⟨project, input, dryRun⟩ = .ok job) (other : Bool) :
    prepare w ⟨project, input, other⟩ = .ok { job with dryRun := other } := by
  obtain ⟨root, hroot, settings, hload, source, hsource, rfl⟩ := prepare_eq_ok_iff.mp h
  exact prepare_eq_ok_iff.mpr ⟨root, hroot, settings, hload, source, hsource, rfl⟩

theorem finish_fst (s : Session) (job : Job) (fragments : Fragments) :
    (finish s job fragments).1 = (Patch.flush job.plan s fragments).1 := by
  rw [finish]
  cases h : Patch.flush job.plan s fragments with
  | mk after result => cases result <;> rfl

theorem finish_eq_ok_iff {s' : Session} {job : Job} {fragments : Fragments} {report : Report} :
    finish s job fragments = (s', .ok report) ↔
      report.fragments = fragments ∧
        Patch.flush job.plan s fragments = (s', .ok report.outcomes) := by
  obtain ⟨found, outcomes⟩ := report
  rw [finish]
  cases h : Patch.flush job.plan s fragments with
  | mk after result =>
    cases result with
    | error e => simp
    | ok others =>
      simp only [Prod.mk.injEq, Except.ok.injEq, Report.mk.injEq]
      constructor
      · rintro ⟨rfl, rfl, rfl⟩
        exact ⟨rfl, rfl, rfl⟩
      · rintro ⟨rfl, rfl, rfl⟩
        exact ⟨rfl, rfl, rfl⟩

-- The session before the flush of what a job collected.
def collected (s : Session) (job : Job) (state : Extraction.State) : Session :=
  ((s.log (readingRecord job.source)).logAll state.log).log (collectedRecord state.fragments)

theorem collected_touches (hopen : s.LogIsOpen) (job : Job) (state : Extraction.State) :
    Touches Session.nowhere s (collected s job state) := by
  have hreading := Session.log_touches hopen (readingRecord job.source)
  have hlogged := hreading.trans (Session.logAll_touches (hreading.logIsOpen hopen) state.log)
  exact hlogged.trans (Session.log_touches (hlogged.logIsOpen hopen) _)

-- A run that ends with a report has gone through all its stages.
theorem run_eq_ok_iff {s' : Session} {report : Report} :
    run s request = (s', .ok report) ↔
      ∃ job state, prepare s.world request = .ok job ∧
        collect (s.log (readingRecord job.source)).world job = .ok state ∧
        report.fragments = state.fragments ∧
        Patch.flush job.plan (collected s job state) state.fragments =
          (s', .ok report.outcomes) := by
  rw [run]
  cases hprepare : prepare s.world request with
  | error e => simp
  | ok job =>
    simp only [Except.ok.injEq, exists_and_left, exists_eq_left']
    cases hcollect : collect (s.log (readingRecord job.source)).world job with
    | error e => simp
    | ok state =>
      simp only [Except.ok.injEq, exists_eq_left']
      exact finish_eq_ok_iff

theorem exists_report_of_map {α : Type} {shown : Report → α} {a : α}
    (h : (run s request).2.map shown = .ok a) :
    ∃ s' report, run s request = (s', .ok report) ∧ shown report = a := by
  obtain ⟨report, hreport, hshown⟩ := map_eq_ok_iff.mp h
  exact ⟨_, report, Prod.ext rfl hreport, hshown⟩

theorem exists_members_of_collect {w : World} {job : Job} {state : Extraction.State}
    (h : collect w job = .ok state) :
    ∃ members, Document.load w job.source = .ok members ∧
      Extraction.addDocument job.settings.modulePrefix .initial (.value (.object members)) =
        .ok state := by
  simpa only [collect, bind_eq_ok_iff, mapError_eq_ok_iff] using h

-- A run either fails with nothing done but logging, or is a flush after nothing but logging.
theorem run_cases (hopen : s.LogIsOpen) (request : Request) :
    (stage? s request = none ∧ Touches Session.nowhere s (run s request).1) ∨
      ∃ stage, stage? s request = some stage ∧ Touches Session.nowhere s stage.session ∧
        stage.job.dryRun = request.dryRun ∧
        run s request = finish stage.session stage.job stage.fragments := by
  rw [stage?, run]
  cases hprepare : prepare s.world request with
  | error e => exact .inl ⟨rfl, .refl _ _⟩
  | ok job =>
    cases hcollect : collect (s.log (readingRecord job.source)).world job with
    | error e =>
      refine .inl ?_
      simp only [hcollect]
      exact ⟨trivial, Session.log_touches hopen _⟩
    | ok state =>
      refine .inr ?_
      simp only [hcollect]
      exact ⟨_, rfl, collected_touches hopen job state, prepare_dryRun hprepare, rfl⟩

-- A run may write to the READMEs of the components that it selects among those it collects,
-- unless it only looks.
def Writes (s : Session) (request : Request) (l : Location) : Prop :=
  request.dryRun = false ∧ ∃ stage, stage? s request = some stage ∧
    ∃ key ∈ stage.fragments.keys, stage.job.plan.selects key = true ∧
      stage.job.plan.leadsTo s.world key l

theorem run_touches (hopen : s.LogIsOpen) (request : Request) :
    Touches (Writes s request) s (run s request).1 := by
  rcases run_cases hopen request with ⟨-, hrun⟩ | ⟨stage, hstage, htouches, hdry, hrun⟩
  · exact hrun.of_nowhere
  · have hflush := Patch.flush_writes (htouches.logIsOpen hopen) stage.job.plan stage.fragments
    rw [hrun, finish_fst]
    refine htouches.of_nowhere.trans (hflush.mono ?_)
    rintro l ⟨entry, hentry, hreal, hl⟩
    obtain ⟨hcollected, hselects⟩ := Patch.mem_selected_iff.mp hentry
    refine ⟨hdry ▸ hreal, stage, hstage, entry.1, List.mem_map_of_mem hcollected, hselects, ?_⟩
    exact (Patch.Plan.leadsTo_congr htouches.world _ _ l).mp hl

-- The bodies that a run collects for a location, in their order.
def bodiesAt (s : Session) (request : Request) (l : Location) : List Text :=
  match stage? s request with
  | none => []
  | some stage =>
    stage.job.plan.bodiesAt s.world l (stage.job.plan.selected stage.fragments)

theorem goes_run (hopen : s.LogIsOpen) (request : Request) :
    Goes s request (run s request).1 (run s request).2 := by
  rw [Goes]
  rcases run_cases hopen request with ⟨hstage, -⟩ | ⟨stage, hstage, -, -, hrun⟩
  · rw [hstage]
  · rw [hstage, hrun, finish]
    refine ⟨(Patch.flush stage.job.plan stage.session stage.fragments).2, ?_, ?_⟩
    · have hflush := Patch.flush_flushes stage.job.plan stage.session stage.fragments
      cases h : Patch.flush stage.job.plan stage.session stage.fragments with
      | mk after result =>
        rw [h] at hflush
        cases result <;> exact hflush
    · cases h : Patch.flush stage.job.plan stage.session stage.fragments with
      | mk after result => cases result <;> rfl

-- The text of a document with a section of each name, and in it a module.
def documentOf (sections : List (String × String)) : String :=
  "\x7b\"children\": [" ++ ", ".intercalate (sections.map fun (name, module) =>
    "\x7b\"name\": \"" ++ name ++ "\", \"children\": [\x7b\"name\": \"" ++ module ++
      "\"\x7d]\x7d") ++ "]\x7d"

def documentNaming (names : List String) : String :=
  documentOf (names.map fun name => (name, "MDC"))

-- A world at the root in which there are a document and some packages with READMEs.
def projectHolding (document : String) (readmes : List (Text × Utf8.Bytes)) : World :=
  (Patch.packagesHolding readmes).setFile (World.locationOf (.ofText "jsDoc.json"))
    (Utf8.bytesOf document.toList)

-- Two of these worlds with the same READMEs differ in their documents.
theorem projectHolding_sameBut (first second : String) (readmes : List (Text × Utf8.Bytes)) :
    World.SameBut (· = World.locationOf (.ofText "jsDoc.json")) (projectHolding first readmes)
      (projectHolding second readmes) := by
  have hroot : World.locationOf (.ofText "jsDoc.json") ≠ [] := by decide
  refine ⟨rfl, rfl, rfl, rfl, fun l => ?_, fun l hl => ?_⟩
  · simp only [projectHolding, World.setFile, Tree.shape, Tree.get?_set _ _ _ hroot]
    split <;> rfl
  · simp only [projectHolding, World.setFile, Tree.get?_set _ _ _ hroot, hl, if_false]

end ReadmeTables.Run
