import ReadmeTables.Command
import ReadmeTables.Proofs.Patch.Destination
import ReadmeTables.Proofs.Run
/-!
Which files the program touches.

Setting the log up makes directories and perhaps the log file, a run writes to READMEs that are
there and adds to the log file, and what is told at the end is only printed. Main statement: from
any command line the program changes the log file and the READMEs of selected components, makes
no file but the log file, and takes nothing out of other files.
-/

namespace ReadmeTables.Command

open Session (Touches)

variable {s s' : Session} {texts : List Text} {arguments : Arguments} {l : Location}

-- The log file of a command line: where its path leads once the directories above it were made.
def IsLogFile (s : Session) (texts : List Text) (l : Location) : Prop :=
  ∃ arguments t, Arguments.ofTexts texts = .ok arguments ∧ arguments.logFile = some (.text t) ∧
    (s.world.makeDirectories (Path.ofText t).parent).1.locate
      (Path.from_ s.world.current (.ofText t)) = .ok l

-- A README that the program may write to: that of a component that its run collects and selects,
-- unless READMEs are only looked at.
def Rewrites (s : Session) (texts : List Text) (l : Location) : Prop :=
  ∃ arguments opened, Arguments.ofTexts texts = .ok arguments ∧
    openLog s arguments = (opened, .ok ()) ∧ Run.Writes opened (requestOf arguments) l

-- The log is set up with the path that the arguments give, if they give one.
theorem openLog_fst (s : Session) (arguments : Arguments) :
    ∃ file, (openLog s arguments).1 = (s.configure arguments.verbose file).1 ∧
      ∀ p, file = some p → ∃ t, arguments.logFile = some (.text t) ∧ p = .ofText t := by
  cases hfile : arguments.logFile with
  | none => exact ⟨none, by simp only [openLog, logPathOf, hfile], by simp⟩
  | some value =>
    cases value with
    | void => exact ⟨none, by simp only [openLog, logPathOf, hfile], by simp⟩
    | text t => exact ⟨some (.ofText t), by simp only [openLog, logPathOf, hfile], by simp⟩

theorem openLog_logIsOpen (s : Session) (arguments : Arguments) :
    (openLog s arguments).1.LogIsOpen := by
  obtain ⟨file, hopened, -⟩ := openLog_fst s arguments
  rw [hopened]
  exact Session.configure_logIsOpen s arguments.verbose file

theorem isLogFile_of_openLog (harguments : Arguments.ofTexts texts = .ok arguments)
    (hl : (openLog s arguments).1.logFile? = some l) : IsLogFile s texts l := by
  obtain ⟨file, hopened, hfile⟩ := openLog_fst s arguments
  rw [hopened] at hl
  obtain ⟨p, hp, hlocate⟩ := Session.locate_of_configure hl
  obtain ⟨t, ht, rfl⟩ := hfile p hp
  exact ⟨arguments, t, harguments, ht, hlocate⟩

theorem openLog_makesOnly (harguments : Arguments.ofTexts texts = .ok arguments) :
    World.MakesOnly (IsLogFile s texts) s.world (openLog s arguments).1.world := by
  obtain ⟨file, hopened, -⟩ := openLog_fst s arguments
  have hmade := Session.configure_makesOnly s arguments.verbose file
  rw [← hopened] at hmade
  exact hmade.mono fun l hl => isLogFile_of_openLog harguments hl

theorem report_touches (s : Session) (result : Run.Report) :
    Touches Session.nowhere s (report s result).1 := by
  rw [report]
  split <;> exact .of_world_eq _ rfl rfl

theorem fail_touches (s : Session) (error : Run.Error) :
    Touches Session.nowhere s (fail s error).1 := by
  rw [fail]
  split <;> exact .of_world_eq _ rfl rfl

-- Once the log is set up, the program ends as its run does: an error of the run leaves it or is
-- told in one line, and outcomes are told one by one.
theorem start_eq {opened : Session} (hopened : openLog s arguments = (opened, .ok ())) :
    start s arguments =
      match run opened (requestOf arguments) with
      | (after, .error error) => fail after error
      | (after, .ok result) => report after result := by
  cases hrun : run opened (requestOf arguments) with
  | mk after result => cases result <;> simp only [start, hopened, hrun]

-- So it does what its run does, and prints.
theorem start_touches (harguments : Arguments.ofTexts texts = .ok arguments) :
    Touches (Rewrites s texts) (openLog s arguments).1 (start s arguments).1 := by
  have hopen := openLog_logIsOpen s arguments
  cases hopened : openLog s arguments with
  | mk opened result =>
    rw [hopened] at hopen
    cases result with
    | error e =>
      simp only [start, hopened]
      exact .refl _ _
    | ok done =>
      have hrun : Touches (Rewrites s texts) opened (run opened (requestOf arguments)).1 :=
        (Run.run_touches hopen _).mono fun l hl => ⟨arguments, opened, harguments, hopened, hl⟩
      rw [start_eq hopened]
      cases hresult : run opened (requestOf arguments) with
      | mk after result =>
        rw [hresult] at hrun
        cases result with
        | error e => exact hrun.trans (fail_touches after e).of_nowhere
        | ok result => exact hrun.trans (report_touches after result).of_nowhere

-- The program from any command line: first at most a log file is made, and from then on at most
-- this file and READMEs change, and nothing is taken out but from READMEs.
theorem exists_command_worlds (s : Session) (texts : List Text) :
    ∃ w : World, World.MakesOnly (IsLogFile s texts) s.world w ∧
      World.SameBut (fun l => IsLogFile s texts l ∨ Rewrites s texts l) w
        (command s texts).1.world ∧
      World.GrowsBut (Rewrites s texts) w (command s texts).1.world := by
  rw [command]
  cases harguments : Arguments.ofTexts texts with
  | error stop =>
    refine ⟨s.world, .refl _ _, ?_⟩
    cases stop <;> exact ⟨.refl _ _, (World.SameBut.refl _ _).growsBut⟩
  | ok arguments =>
    have hstart := start_touches (s := s) harguments
    refine ⟨(openLog s arguments).1.world, openLog_makesOnly harguments,
      hstart.world.mono fun l hl => ?_, hstart.grows⟩
    exact hl.imp_left (isLogFile_of_openLog harguments)

theorem head?_of_rewrites (h : Rewrites s texts l) : l.head? = some Patch.readmeBytes := by
  obtain ⟨arguments, opened, -, -, -, stage, -, key, -, -, hl⟩ := h
  exact Patch.head?_of_leadsTo hl

-- However the program ends, it has changed no file but the log file and READMEs of selected
-- components, has made no file but the log file and deleted none, and a file that is no such
-- README holds what it held, and perhaps more behind it.
theorem command_touches_log_and_readmes (s : Session) (texts : List Text) :
    (∀ l, (command s texts).1.world.tree.bytes? l ≠ s.world.tree.bytes? l →
      IsLogFile s texts l ∨ Rewrites s texts l ∧ l.head? = some Patch.readmeBytes ∧
        ∃ bytes, s.world.tree.bytes? l = some bytes) ∧
    (∀ l, s.world.tree.bytes? l = none → (command s texts).1.world.tree.bytes? l ≠ none →
      IsLogFile s texts l) ∧
    (∀ l, s.world.tree.bytes? l ≠ none → (command s texts).1.world.tree.bytes? l ≠ none) ∧
    (∀ l bytes, ¬Rewrites s texts l → s.world.tree.bytes? l = some bytes →
      ∃ added, (command s texts).1.world.tree.bytes? l = some (bytes ++ added)) := by
  obtain ⟨w, hopened, hkept, hgrows⟩ := exists_command_worlds s texts
  have hmade (l : Location) (hnone : s.world.tree.bytes? l = none)
      (hsome : (command s texts).1.world.tree.bytes? l ≠ none) : IsLogFile s texts l := by
    rcases hopened l with hsame | ⟨hlog, -⟩
    · exact (hsome (hkept.bytes?_eq_none_iff.mpr (hsame.trans hnone))).elim
    · exact hlog
  refine ⟨fun l hchanged => ?_, hmade, fun l hsome hnone => ?_, fun l bytes hl hbytes => ?_⟩
  · rw [or_iff_not_imp_left]
    intro hlog
    cases hbytes : s.world.tree.bytes? l with
    | none => exact (hlog (hmade l hbytes (hbytes ▸ hchanged))).elim
    | some bytes =>
      have hrewrites : Rewrites s texts l := by
        by_contra hnot
        apply hchanged
        rw [hkept.bytes?_eq (not_or_intro hlog hnot), hopened.bytes?_of_some hbytes, hbytes]
      exact ⟨hrewrites, head?_of_rewrites hrewrites, bytes, rfl⟩
  · obtain ⟨bytes, hbytes⟩ := Option.ne_none_iff_exists'.mp hsome
    have hgone := hkept.bytes?_eq_none_iff.mp hnone
    simp [hopened.bytes?_of_some hbytes] at hgone
  · exact hgrows l bytes hl (hopened.bytes?_of_some hbytes)

example :
    let readme := World.locationOf (.ofText "packages/mdc-drawer/README.md")
    let s : Session := .start (Run.projectHolding (Run.documentNaming ["mdc-drawer"])
      [(Patch.defaultFilter, Utf8.bytesOf
        "<!-- docgen-tsdoc-replacer:start -->\n<!-- docgen-tsdoc-replacer:end -->".toList)]) []
    let after := (command s ["--log-file", "logs/run.log"]).1.world.tree
    after.bytes? readme ≠ s.world.tree.bytes? readme ∧
      (after.bytes? (World.locationOf (.ofText "logs/run.log"))).isSome = true := by
  decide +kernel

end ReadmeTables.Command
