import ReadmeTables.Proofs.Routing
/-!
What a stretch of work logs.

Work on READMEs writes to files of its own between its records, so what is said of it here leaves
the files out. Main statement: the records of one stretch after another are kept in order, and
where the log is set up their lines, and nothing else, are printed.
-/

namespace ReadmeTables.Session

-- A record of the program's own; its time is no matter where only streams are looked at.
def Told.own (verbose : Bool) (record : Log.Record) : Told :=
  ⟨verbose, none, true, [], record⟩

-- The lines of the program's own records on standard output.
def progressOf (verbose : Bool) (records : List Log.Record) : Text :=
  records.flatMap fun record => (Told.own verbose record).outputText

-- Their lines on standard error.
def troubleOf (verbose : Bool) (records : List Log.Record) : Text :=
  records.flatMap fun record => (Told.own verbose record).errorsText

-- A session after some work that logged just these records.
structure Logs (s s' : Session) (logged : List Log.Record) : Prop where
  routing : s'.routing = s.routing
  records : s'.records = s.records ++ logged
  output {r : Routing} : s.routing = some r →
    s'.output = s.output ++ progressOf r.verbose logged
  errors {r : Routing} : s.routing = some r →
    s'.errors = s.errors ++ troubleOf r.verbose logged

namespace Logs

variable {s s' s'' : Session} {front back : List Log.Record}

-- What is done to files alone is not logged.
theorem of_world (s : Session) (world : World) : s.Logs { s with world := world } [] where
  routing := rfl
  records := (List.append_nil _).symm
  output _ := (List.append_nil _).symm
  errors _ := (List.append_nil _).symm

theorem refl (s : Session) : s.Logs s [] :=
  of_world s s.world

theorem trans (h : s.Logs s' front) (h' : s'.Logs s'' back) : s.Logs s'' (front ++ back) where
  routing := h'.routing.trans h.routing
  records := by rw [h'.records, h.records, List.append_assoc]
  output hset := by
    rw [h'.output (h.routing.trans hset), h.output hset, progressOf, progressOf, progressOf,
      List.flatMap_append, List.append_assoc]
  errors hset := by
    rw [h'.errors (h.routing.trans hset), h.errors hset, troubleOf, troubleOf, troubleOf,
      List.flatMap_append, List.append_assoc]

end Logs

theorem log_logs (s : Session) {record : Log.Record}
    (hsource : record.source.head? ≠ some (.scalar '.')) : s.Logs (s.log record) [record] where
  routing := log_routing s record
  records := log_records s record
  output {r} hset := by
    have hown : (s.telling r.verbose none record).isOwn = true := isOwn_of_head _ _ hsource
    rw [log_output hset none, Told.outputText, hown, progressOf, List.flatMap_singleton]
    rfl
  errors {r} hset := by
    have hown : (s.telling r.verbose none record).isOwn = true := isOwn_of_head _ _ hsource
    rw [log_errors hset none, Told.errorsText, hown, troubleOf, List.flatMap_singleton]
    rfl

theorem logAll_logs (s : Session) {records : List Log.Record}
    (hsource : ∀ record ∈ records, record.source.head? ≠ some (.scalar '.')) :
    s.Logs (s.logAll records) records := by
  unfold logAll
  induction records generalizing s with
  | nil => exact .refl s
  | cons record rest ih =>
    rw [List.forall_mem_cons] at hsource
    exact (log_logs s hsource.1).trans (ih (s.log record) hsource.2)

end ReadmeTables.Session
