import ReadmeTables.Console
import ReadmeTables.Proofs.Files.Opening
/-!
What logging leaves as it is.

A record can add to the log file and to what is printed, and to nothing else. Main statements:
setting the log up opens the log file, and logging keeps it open, takes nothing out of it and
changes no other file.
-/

namespace ReadmeTables

-- Only the log file has a handler that writes to a file.
theorem Routing.file_of_mem_handlers {r : Routing} {handler : Handler} {l : Location}
    (h : handler ∈ r.handlers) (hl : handler.sink = .file l) : r.file = some l := by
  rw [handlers, List.mem_append] at h
  rcases h with h | h
  · simp only [List.mem_cons, List.not_mem_nil, or_false] at h
    rcases h with rfl | rfl
    · simp at hl
    · simp at hl
  · rw [Option.mem_toList, Option.map_eq_some_iff] at h
    obtain ⟨location, hfile, rfl⟩ := h
    rw [hfile, Sink.file.inj hl]

namespace Session

def logFile? (s : Session) : Option Location :=
  s.routing.bind Routing.file

-- The log file is there, as it is from the moment when the log was set up.
def LogIsOpen (s : Session) : Prop :=
  ∀ l, s.logFile? = some l → ∃ bytes, s.world.tree.get? l = some (.file bytes)

-- A session after some work: its log is set up as before, and at most the log file and some
-- other files hold something else. Those files apart, nothing is taken out of the log file.
structure Touches (touched : Location → Prop) (s s' : Session) : Prop where
  routing : s'.routing = s.routing
  world : World.SameBut (fun l => s.logFile? = some l ∨ touched l) s.world s'.world
  grows : World.GrowsBut touched s.world s'.world

def nowhere (_ : Location) : Prop := False

theorem untouched {s : Session} {l : Location} (h : s.logFile? ≠ some l) :
    ¬(s.logFile? = some l ∨ nowhere l) :=
  fun hl => hl.elim h id

namespace Touches

variable {touched other : Location → Prop} {s s' s'' : Session}

-- What is done to a session apart from its world and the set-up of its log is no matter here.
theorem of_world_eq (touched : Location → Prop) (hrouting : s'.routing = s.routing)
    (hworld : s'.world = s.world) : Touches touched s s' :=
  ⟨hrouting, hworld ▸ .refl _ _, hworld ▸ (World.SameBut.refl _ _).growsBut⟩

theorem refl (touched : Location → Prop) (s : Session) : Touches touched s s :=
  of_world_eq touched rfl rfl

theorem logFile?_eq (h : Touches touched s s') : s'.logFile? = s.logFile? := by
  rw [logFile?, logFile?, h.routing]

theorem trans (h : Touches touched s s') (h' : Touches touched s' s'') : Touches touched s s'' where
  routing := h'.routing.trans h.routing
  world := h.world.trans (by simpa only [h.logFile?_eq] using h'.world)
  grows := h.grows.trans h'.grows

theorem mono (h : Touches touched s s') (hsub : ∀ l, touched l → other l) : Touches other s s' :=
  ⟨h.routing, h.world.mono fun l hl => hl.imp_right (hsub l), h.grows.mono hsub⟩

theorem of_nowhere (h : Touches nowhere s s') : Touches touched s s' :=
  h.mono fun _ hl => hl.elim

theorem logIsOpen (h : Touches touched s s') (hopen : s.LogIsOpen) : s'.LogIsOpen := by
  intro l hl
  rw [h.logFile?_eq] at hl
  obtain ⟨bytes, hbytes⟩ := hopen l hl
  exact h.world.exists_file hbytes

end Touches

theorem print_touches (s : Session) (t : Text) : Touches nowhere s (s.print t) :=
  .of_world_eq _ rfl rfl

theorem printError_touches (s : Session) (t : Text) : Touches nowhere s (s.printError t) :=
  .of_world_eq _ rfl rfl

theorem writeRecord_touches {s : Session} (hopen : s.LogIsOpen) {l : Location}
    (hl : s.logFile? = some l) (record : Log.Record) :
    Touches nowhere s (s.writeRecord l record) := by
  unfold writeRecord
  split
  · obtain ⟨former, hformer⟩ := hopen l hl
    refine ⟨rfl, (World.setFile_sameBut _ hformer).mono ?_,
      World.appendBytes_growsBut _ _ hformer⟩
    rintro m rfl
    exact .inl hl
  · exact .refl _ _

theorem handle_touches {s : Session} (hopen : s.LogIsOpen) {handler : Handler}
    (hsink : ∀ l, handler.sink = .file l → s.logFile? = some l) (record : Log.Record) :
    Touches nowhere s (handle record s handler) := by
  unfold handle
  split
  · split
    · exact print_touches _ _
    · exact printError_touches _ _
    · rename_i l hl
      exact writeRecord_touches hopen (hsink l hl) record
  · exact .refl _ _

theorem handleAll_touches {s : Session} (hopen : s.LogIsOpen) {handlers : List Handler}
    (hsinks : ∀ handler ∈ handlers, ∀ l, handler.sink = .file l → s.logFile? = some l)
    (record : Log.Record) : Touches nowhere s (handlers.foldl (handle record) s) := by
  induction handlers generalizing s with
  | nil => exact .refl _ _
  | cons handler rest ih =>
    rw [List.forall_mem_cons] at hsinks
    have hfirst := handle_touches hopen hsinks.1 record
    refine hfirst.trans (ih (hfirst.logIsOpen hopen) fun later hlater l hl => ?_)
    rw [hfirst.logFile?_eq]
    exact hsinks.2 later hlater l hl

theorem route_touches {s : Session} (hopen : s.LogIsOpen) (record : Log.Record) :
    Touches nowhere s (s.route record) := by
  unfold route
  split
  · split
    · exact printError_touches _ _
    · exact .refl _ _
  · rename_i routing hrouting
    have hset : s.routing = some routing := by
      unfold routingFor at hrouting
      split at hrouting
      · exact hrouting
      · simp at hrouting
    split
    · refine handleAll_touches hopen (fun handler hhandler l hl => ?_) record
      rw [logFile?, hset, Option.bind_some]
      exact Routing.file_of_mem_handlers hhandler hl
    · exact .refl _ _

theorem log_touches {s : Session} (hopen : s.LogIsOpen) (record : Log.Record) :
    Touches nowhere s (s.log record) := by
  have hrecord : Touches nowhere s { s with records := s.records ++ [record] } :=
    .of_world_eq _ rfl rfl
  exact hrecord.trans (route_touches (hrecord.logIsOpen hopen) record)

-- What printing and files have no part in is the same after a record was handled.
section Kept

variable {α : Type} {f : Session → α} (hprint : ∀ s t, f (print s t) = f s)
  (hprintError : ∀ s t, f (printError s t) = f s)
  (hworld : ∀ (s : Session) world, f { s with world := world } = f s)

include hprint hprintError hworld

theorem handle_kept (record : Log.Record) (s : Session) (handler : Handler) :
    f (handle record s handler) = f s := by
  unfold handle
  split
  · split
    · exact hprint _ _
    · exact hprintError _ _
    · unfold writeRecord
      split
      · exact hworld _ _
      · rfl
  · rfl

theorem handleAll_kept (record : Log.Record) (s : Session) (handlers : List Handler) :
    f (handlers.foldl (handle record) s) = f s := by
  induction handlers generalizing s with
  | nil => rfl
  | cons handler rest ih =>
    rw [List.foldl_cons, ih, handle_kept hprint hprintError hworld]

theorem log_kept (s : Session) (record : Log.Record) :
    f (s.log record) = f { s with records := s.records ++ [record] } := by
  unfold log route
  split
  · split
    · exact hprintError _ _
    · rfl
  · split
    · exact handleAll_kept hprint hprintError hworld _ _ _
    · rfl

end Kept

theorem log_records (s : Session) (record : Log.Record) :
    (s.log record).records = s.records ++ [record] :=
  log_kept (fun _ _ => rfl) (fun _ _ => rfl) (fun _ _ => rfl) s record

theorem log_routing (s : Session) (record : Log.Record) : (s.log record).routing = s.routing :=
  log_kept (fun _ _ => rfl) (fun _ _ => rfl) (fun _ _ => rfl) s record

theorem logAll_records (s : Session) (records : List Log.Record) :
    (s.logAll records).records = s.records ++ records := by
  unfold logAll
  induction records generalizing s with
  | nil => simp
  | cons record rest ih =>
    rw [List.foldl_cons, ih, log_records, List.append_assoc, List.singleton_append]

theorem logAll_touches {s : Session} (hopen : s.LogIsOpen) (records : List Log.Record) :
    Touches nowhere s (s.logAll records) := by
  unfold logAll
  induction records generalizing s with
  | nil => exact .refl _ _
  | cons record rest ih =>
    have h := log_touches hopen record
    exact h.trans (ih (h.logIsOpen hopen))

theorem logFile?_start_ne (world : World) (clock : Text) (l : Location) :
    (start world clock).logFile? ≠ some l := by
  simp [start, logFile?]

theorem start_logIsOpen (world : World) (clock : Text) : (start world clock).LogIsOpen := by
  intro l hl
  simp [start, logFile?] at hl

-- The log file is open as soon as the log was set up with it.
theorem configure_logIsOpen (s : Session) (verbose : Bool) (file : Option Path) :
    (s.configure verbose file).1.LogIsOpen := by
  intro l hl
  cases file with
  | none => simp [configure, logFile?] at hl
  | some p =>
    simp only [configure] at hl ⊢
    cases hmade : s.world.makeDirectories p.parent with
    | mk world result =>
      cases result with
      | error e => simp [hmade, logFile?] at hl
      | ok made =>
        cases hopened : world.openForAppend p with
        | error e => simp [hmade, hopened, logFile?] at hl
        | ok opened =>
          obtain ⟨after, location⟩ := opened
          simp only [hmade, hopened, logFile?, Option.bind_some, Option.some.injEq] at hl ⊢
          subst hl
          exact World.exists_file_of_openForAppend hopened

-- The log file is where the path for it leads once the directories above it were made.
theorem locate_of_configure {s : Session} {verbose : Bool} {file : Option Path} {l : Location}
    (h : (s.configure verbose file).1.logFile? = some l) :
    ∃ p, file = some p ∧
      (s.world.makeDirectories p.parent).1.locate (Path.from_ s.world.current p) = .ok l := by
  cases file with
  | none => simp [configure, logFile?] at h
  | some p =>
    have hmore := World.makeDirectories_more s.world p.parent
    simp only [configure] at h
    cases hmade : s.world.makeDirectories p.parent with
    | mk world result =>
      rw [hmade] at hmore
      cases result with
      | error e => simp [hmade, logFile?] at h
      | ok made =>
        cases hopened : world.openForAppend p with
        | error e => simp [hmade, hopened, logFile?] at h
        | ok opened =>
          obtain ⟨after, location⟩ := opened
          simp only [hmade, hopened, logFile?, Option.bind_some, Option.some.injEq] at h
          subst h
          refine ⟨p, rfl, ?_⟩
          rw [← hmore.current, hmade]
          exact (World.openForAppend_cases hopened).1

-- Setting the log up makes no file but the log file, and changes none.
theorem configure_makesOnly (s : Session) (verbose : Bool) (file : Option Path) :
    World.MakesOnly (fun l => (s.configure verbose file).1.logFile? = some l) s.world
      (s.configure verbose file).1.world := by
  cases file with
  | none => exact .refl _ _
  | some p =>
    have hmore := World.makeDirectories_more s.world p.parent
    simp only [configure]
    cases hmade : s.world.makeDirectories p.parent with
    | mk world result =>
      rw [hmade] at hmore
      cases result with
      | error e => exact hmore.makesOnly _
      | ok made =>
        cases hopened : world.openForAppend p with
        | error e =>
          simp only [hopened]
          exact hmore.makesOnly _
        | ok opened =>
          obtain ⟨after, location⟩ := opened
          intro l
          simp only [hopened, logFile?, Option.bind_some, ← hmore.bytes?_eq l]
          refine (World.openForAppend_makesOnly hopened l).imp_right (And.imp_left ?_)
          rintro rfl
          rfl

end Session

end ReadmeTables
