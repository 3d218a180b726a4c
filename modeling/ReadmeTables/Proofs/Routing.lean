import ReadmeTables.Proofs.Console
import ReadmeTables.Proofs.Failing
import ReadmeTables.Proofs.Text.Characters
import ReadmeTables.Proofs.Text.RoundTrip
import Mathlib.Data.List.Basic
/-!
Where each record ends up when the log is set up again and again.

A record is told by the set-up that is in force when it is written, and by nothing that was in
force before or comes after. Main statement: after any sequence of set-ups and records, what was
printed on either stream and what was added to each file are the lines of the records that
belong there, each of them once and in order.
-/

namespace ReadmeTables

-- Adds a line to a file, if it has an encoding.
def World.addLine (w : World) (l : Location) (t : Text) : World :=
  match Utf8.encode t with
  | .ok bytes => w.appendBytes l bytes
  | .error _ => w

namespace Session

-- What the log is asked for: another set-up, or to tell a record.
inductive Call where
  | configure (verbose : Bool) (file : Option Path)
  | log (record : Log.Record)

def call (s : Session) : Call → Except FileError Session
  | .configure verbose file =>
    match s.configure verbose file with
    | (s, .ok ()) => .ok s
    | (_, .error e) => .error e
  | .log record => .ok (s.log record)

def callAll (s : Session) : List Call → Except FileError Session
  | [] => .ok s
  | c :: rest => do
    let s ← s.call c
    s.callAll rest

def Call.withoutFile : Call → Call
  | .configure verbose _ => .configure verbose none
  | .log record => .log record

-- A record, with the set-up that was in force, whether it is the program's own, and its time.
structure Told where
  verbose : Bool
  file : Option Path
  isOwn : Bool
  time : Text
  record : Log.Record

-- The records of some calls, after others that were logged before the log was last set up and since
-- then.
def told (clock : Nat → Text) (verbose : Bool) (file : Option Path)
    (earlier fresh : List Log.Record) : List Call → List Told
  | [] => []
  | .configure verbose file :: rest => told clock verbose file (earlier ++ fresh) [] rest
  | .log record :: rest =>
    ⟨verbose, file, isOwn earlier (fresh ++ [record]) record,
        clock (earlier ++ fresh ++ [record]).length, record⟩ ::
      told clock verbose file earlier (fresh ++ [record]) rest

namespace Told

-- The line of a record on standard output, if it has one there.
def outputText (t : Told) : Text :=
  let least : Log.Level := if t.verbose then .debug else .info
  if t.isOwn ∧ least.rank ≤ t.record.level.rank ∧ t.record.level.rank < Log.Level.warning.rank then
    line t.record.progressText
  else []

-- The line of a record on standard error. Records that are not the program's own are shown as
-- they are.
def errorsText (t : Told) : Text :=
  if Log.Level.warning.rank ≤ t.record.level.rank then
    line (if t.isOwn then t.record.taggedText else t.record.message)
  else []

-- Whether a record belongs into the file at a location.
def isFor (w : World) (l : Location) (t : Told) : Bool :=
  t.isOwn && Log.Level.debug.rank ≤ t.record.level.rank && t.file.any fun p => w.opens p l

-- The line of a record in the file at a location.
def fileText (w : World) (l : Location) (t : Told) : Text :=
  if t.isFor w l then fileLine t.time t.record else []

-- What is shown of a record has no lone surrogate: its message, where it has a line on a stream,
-- and its whole line where a file is to hold it.
structure IsEncodable (t : Told) : Prop where
  message : t.outputText ≠ [] ∨ t.errorsText ≠ [] →
    ∀ p ∈ t.record.message, p.isSurrogate = false
  fileLine : t.isOwn = true → t.file.isSome = true →
    ∀ p ∈ Session.fileLine t.time t.record, p.isSurrogate = false

theorem isEncodable_iff {t : Told} : t.IsEncodable ↔
    (t.outputText ≠ [] ∨ t.errorsText ≠ [] → ∀ p ∈ t.record.message, p.isSurrogate = false) ∧
      (t.isOwn = true → t.file.isSome = true →
        ∀ p ∈ Session.fileLine t.time t.record, p.isSurrogate = false) :=
  ⟨fun h => ⟨h.message, h.fileLine⟩, fun h => ⟨h.1, h.2⟩⟩

instance (t : Told) : Decidable t.IsEncodable :=
  decidable_of_iff' _ isEncodable_iff

theorem IsEncodable.exists_bytes {t : Told} (h : t.IsEncodable)
    (hown : t.isOwn = true) (hfile : t.file.isSome = true) :
    ∃ bytes, Utf8.encode (Session.fileLine t.time t.record) = .ok bytes := by
  obtain ⟨chars, hchars⟩ := Text.exists_chars_iff.mpr (h.fileLine hown hfile)
  exact ⟨_, hchars ▸ Utf8.encode_ofChars chars⟩

theorem encode_fileText_of_not_isFor {w : World} {l : Location} {t : Told}
    (h : t.isFor w l = false) : Utf8.encode (t.fileText w l) = .ok [] := by
  rw [fileText, h]
  rfl

end Told

-- What was printed on a stream.
def shownOn (s : Session) : Sink → Text
  | .output => s.output
  | .errors => s.errors
  | .file _ => []

-- The line of a record on a stream.
def streamLine (record : Log.Record) : Sink → Text
  | .output => line record.progressText
  | .errors => line record.taggedText
  | .file _ => []

theorem handle_shownOn (record : Log.Record) (s : Session) (handler : Handler) (sink : Sink) :
    (handle record s handler).shownOn sink = s.shownOn sink ++
      if handler.takes record ∧ handler.sink = sink then streamLine record sink else [] := by
  unfold handle
  by_cases htakes : handler.takes record = true
  · rw [if_pos htakes]
    cases hsink : handler.sink with
    | output => cases sink <;> simp [htakes, shownOn, streamLine, print]
    | errors => cases sink <;> simp [htakes, shownOn, streamLine, printError]
    | file l =>
      have hkept : (s.writeRecord l record).shownOn sink = s.shownOn sink := by
        unfold writeRecord
        split <;> rfl
      cases sink <;> simp [hkept, streamLine]
  · simp [htakes]

theorem handleAll_shownOn (record : Log.Record) (s : Session) (handlers : List Handler)
    (sink : Sink) :
    (handlers.foldl (handle record) s).shownOn sink = s.shownOn sink ++
      handlers.flatMap fun handler =>
        if handler.takes record ∧ handler.sink = sink then streamLine record sink else [] := by
  induction handlers generalizing s with
  | nil => simp
  | cons handler rest ih =>
    rw [List.foldl_cons, ih, handle_shownOn, List.flatMap_cons, List.append_assoc]

-- The session in which a record is routed.
def noting (s : Session) (record : Log.Record) : Session :=
  { s with records := s.records ++ [record] }

-- A record as it is told where the log is set up as it is.
def telling (s : Session) (verbose : Bool) (file : Option Path) (record : Log.Record) : Told :=
  let records := (s.noting record).records
  ⟨verbose, file, isOwn (records.take s.mark) (records.drop s.mark) record,
    s.clock records.length, record⟩

@[simp]
theorem telling_verbose (s : Session) (verbose : Bool) (file : Option Path) (record : Log.Record) :
    (s.telling verbose file record).verbose = verbose := rfl

@[simp]
theorem telling_file (s : Session) (verbose : Bool) (file : Option Path) (record : Log.Record) :
    (s.telling verbose file record).file = file := rfl

@[simp]
theorem telling_record (s : Session) (verbose : Bool) (file : Option Path) (record : Log.Record) :
    (s.telling verbose file record).record = record := rfl

theorem least_le_progressLevel (r : Routing) : r.least.rank ≤ r.progressLevel.rank := by
  obtain ⟨verbose, file⟩ := r
  cases verbose <;> cases file <;> simp [Routing.least, Routing.progressLevel, Log.Level.rank]

theorem progressLevel_lt_warning (r : Routing) :
    r.progressLevel.rank < Log.Level.warning.rank := by
  obtain ⟨verbose, file⟩ := r
  cases verbose <;> simp [Routing.progressLevel, Log.Level.rank]

-- Of all handlers one writes to standard output, and one to standard error.
theorem flatMap_handlers_output (r : Routing) (record : Log.Record) (t : Text) :
    (r.handlers.flatMap fun handler =>
      if handler.takes record ∧ handler.sink = .output then t else []) =
      if r.progressLevel.rank ≤ record.level.rank ∧
        record.level.rank < Log.Level.warning.rank then t
      else [] := by
  cases hfile : r.file <;> simp [Routing.handlers, hfile, Handler.takes]

theorem flatMap_handlers_errors (r : Routing) (record : Log.Record) (t : Text) :
    (r.handlers.flatMap fun handler =>
      if handler.takes record ∧ handler.sink = .errors then t else []) =
      if Log.Level.warning.rank ≤ record.level.rank then t else [] := by
  cases hfile : r.file <;> simp [Routing.handlers, hfile, Handler.takes]

theorem route_shownOn {s : Session} {r : Routing} {record : Log.Record}
    (h : s.routingFor record = some r) (sink : Sink) :
    (s.route record).shownOn sink = s.shownOn sink ++
      if r.least.rank ≤ record.level.rank then
        r.handlers.flatMap fun handler =>
          if handler.takes record ∧ handler.sink = sink then streamLine record sink else []
      else [] := by
  rw [route, h]
  dsimp only
  split
  · exact handleAll_shownOn record s r.handlers sink
  · rw [List.append_nil]

theorem routingFor_noting (s : Session) (verbose : Bool) (file : Option Path)
    (record : Log.Record) :
    (s.noting record).routingFor record =
      if (s.telling verbose file record).isOwn then s.routing else none :=
  rfl

theorem log_output {s : Session} {r : Routing} (h : s.routing = some r) (file : Option Path)
    (record : Log.Record) :
    (s.log record).output = s.output ++ (s.telling r.verbose file record).outputText := by
  have hrouting := routingFor_noting s r.verbose file record
  change ((s.noting record).route record).shownOn .output = _
  by_cases hown : (s.telling r.verbose file record).isOwn = true
  · rw [if_pos hown, h] at hrouting
    rw [route_shownOn hrouting, flatMap_handlers_output]
    have hleast := least_le_progressLevel r
    change s.output ++ _ = s.output ++
      if _ ∧ r.progressLevel.rank ≤ record.level.rank ∧ _ then _ else _
    by_cases hprogress : r.progressLevel.rank ≤ record.level.rank
    · rw [if_pos (Nat.le_trans hleast hprogress)]
      simp [hown, streamLine]
    · simp [hprogress]
  · rw [if_neg hown] at hrouting
    have hkept : ((s.noting record).route record).shownOn .output = s.output := by
      rw [route, hrouting]
      dsimp only
      split <;> rfl
    simp [hkept, Told.outputText, hown]

theorem log_errors {s : Session} {r : Routing} (h : s.routing = some r) (file : Option Path)
    (record : Log.Record) :
    (s.log record).errors = s.errors ++ (s.telling r.verbose file record).errorsText := by
  have hrouting := routingFor_noting s r.verbose file record
  change ((s.noting record).route record).shownOn .errors = _
  by_cases hown : (s.telling r.verbose file record).isOwn = true
  · rw [if_pos hown, h] at hrouting
    rw [route_shownOn hrouting, flatMap_handlers_errors]
    have hleast := least_le_progressLevel r
    have hwarning := progressLevel_lt_warning r
    by_cases htrouble : Log.Level.warning.rank ≤ record.level.rank
    · rw [if_pos (by omega)]
      simp [Told.errorsText, hown, streamLine, shownOn, noting, htrouble]
    · simp [Told.errorsText, shownOn, noting, htrouble]
  · rw [if_neg hown] at hrouting
    rw [route, hrouting]
    simp only [Routing.isTrouble, decide_eq_true_eq, Told.errorsText, telling_record, hown]
    split
    · rfl
    · rw [List.append_nil]
      rfl

-- What one record does to files.

-- The time of the last record.
def now (s : Session) : Text :=
  s.clock s.records.length

theorem handle_now (record : Log.Record) (s : Session) (handler : Handler) :
    (handle record s handler).now = s.now :=
  handle_kept (fun _ _ => rfl) (fun _ _ => rfl) (fun _ _ => rfl) record s handler

theorem handle_world (record : Log.Record) (s : Session) (handler : Handler) :
    (handle record s handler).world =
      match handler.sink with
      | .file l =>
        if handler.takes record then s.world.addLine l (fileLine s.now record) else s.world
      | _ => s.world := by
  rw [handle]
  cases hsink : handler.sink with
  | output => split <;> rfl
  | errors => split <;> rfl
  | file l =>
    split
    · have hwrite : (s.writeRecord l record).world = s.world.addLine l (fileLine s.now record) := by
        rw [writeRecord, World.addLine, now]
        cases Utf8.encode (fileLine (s.clock s.records.length) record) <;> rfl
      simpa using hwrite
    · rfl

-- Only the handler of the log file does anything to a file.
theorem route_world {s : Session} {r : Routing} {record : Log.Record}
    (h : s.routingFor record = some r) :
    (s.route record).world =
      match r.file with
      | some l =>
        if Log.Level.debug.rank ≤ record.level.rank then
          s.world.addLine l (fileLine s.now record)
        else s.world
      | none => s.world := by
  rw [route, h]
  obtain ⟨verbose, file⟩ := r
  cases file with
  | none =>
    dsimp only
    split
    · simp [Routing.handlers, handle_world]
    · rfl
  | some l =>
    simp only [Routing.least, Option.isSome_some, if_true]
    split
    · rename_i hlevel
      simp [Routing.handlers, handle_world, handle_now, Handler.takes, hlevel]
    · rfl

theorem log_clock (s : Session) (record : Log.Record) : (s.log record).clock = s.clock :=
  log_kept (fun _ _ => rfl) (fun _ _ => rfl) (fun _ _ => rfl) s record

-- The log is set up with these options, and its file is open.
inductive InForce (s : Session) (verbose : Bool) : Option Path → Prop where
  | console (h : s.routing = some ⟨verbose, none⟩) : s.InForce verbose none
  | file {p : Path} {l : Location} (h : s.routing = some ⟨verbose, some l⟩)
    (hp : s.world.opens p l = true) : s.InForce verbose (some p)

namespace InForce

variable {s s' : Session} {verbose : Bool} {file : Option Path}

theorem exists_routing (h : s.InForce verbose file) :
    ∃ r, s.routing = some r ∧ r.verbose = verbose := by
  cases h with
  | console h => exact ⟨_, h, rfl⟩
  | file h _ => exact ⟨_, h, rfl⟩

-- The path leads to the open file, and later on still does.
theorem opens_iff {p : Path} (h : s.InForce verbose (some p)) {w : World}
    (hkeeps : World.Keeps s.world w) (l : Location) :
    w.opens p l = true ↔ s.logFile? = some l := by
  cases h with
  | @file _ m h hp =>
    rw [logFile?, h, Option.bind_some, Option.some.injEq]
    constructor
    · exact World.eq_of_opens (hkeeps.opens hp)
    · rintro rfl
      exact hkeeps.opens hp

theorem of_keeps (h : s.InForce verbose file) (hrouting : s'.routing = s.routing)
    (hkeeps : World.Keeps s.world s'.world) : s'.InForce verbose file := by
  cases h with
  | console h => exact .console (hrouting.trans h)
  | file h hp => exact .file (hrouting.trans h) (hkeeps.opens hp)

end InForce

theorem bytes?_addLine {w : World} {l m : Location} {t : Text} {former bytes : Utf8.Bytes}
    (hfile : w.tree.get? m = some (.file former)) (hencode : Utf8.encode t = .ok bytes) :
    ((w.addLine m t).tree.bytes? l).getD [] =
      (w.tree.bytes? l).getD [] ++ if l = m then bytes else [] := by
  have hformer : w.tree.bytes? m = some former := Tree.bytes?_eq_some_iff.mpr hfile
  simp only [World.addLine, hencode, World.appendBytes, hformer, Option.getD_some]
  split
  · rename_i hl
    subst hl
    have hadded := Tree.bytes?_eq_some_iff.mpr (World.get?_setFile (former ++ bytes) hfile)
    rw [hadded, hformer]
    rfl
  · rename_i hl
    rw [(World.setFile_sameBut _ hfile).bytes?_eq hl, List.append_nil]

-- What a record adds to the file at a location; `w` is a later world, which tells where paths
-- lead.
theorem log_file {s : Session} {verbose : Bool} {file : Option Path} {record : Log.Record}
    {w : World} (hforce : s.InForce verbose file) (hopen : s.LogIsOpen)
    (hkeeps : World.Keeps s.world w)
    (hencodable : (s.telling verbose file record).IsEncodable) (l : Location) :
    ∃ added, Utf8.encode ((s.telling verbose file record).fileText w l) = .ok added ∧
      ((s.log record).world.tree.bytes? l).getD [] = (s.world.tree.bytes? l).getD [] ++ added := by
  have hrouting := routingFor_noting s verbose file record
  change ∃ added, _ ∧ (((s.noting record).route record).world.tree.bytes? l).getD [] = _
  by_cases hown : (s.telling verbose file record).isOwn = true
  · rw [if_pos hown] at hrouting
    cases hforce with
    | console h =>
      rw [route_world (hrouting.trans h)]
      have hfor : (s.telling verbose none record).isFor w l = false := by
        simp [Told.isFor]
      exact ⟨[], Told.encode_fileText_of_not_isFor hfor, (List.append_nil _).symm⟩
    | @file p m h hp =>
      rw [route_world (hrouting.trans h)]
      by_cases hlevel : Log.Level.debug.rank ≤ record.level.rank
      · obtain ⟨bytes, hbytes⟩ := hencodable.exists_bytes hown rfl
        obtain ⟨former, hformer⟩ := hopen m (by rw [logFile?, h]; rfl)
        refine ⟨if l = m then bytes else [], ?_, ?_⟩
        · by_cases hl : l = m
          · have hfor : (s.telling verbose (some p) record).isFor w l = true := by
              simp [Told.isFor, hown, hlevel, hl, hkeeps.opens hp]
            rw [Told.fileText, if_pos hfor, if_pos hl]
            exact hbytes
          · -- the path leads to the file of the log, also later on, and so nowhere else
            have hfor : (s.telling verbose (some p) record).isFor w l = false := by
              have hother : w.opens p l = false :=
                Bool.eq_false_iff.mpr fun hother =>
                  hl (World.eq_of_opens hother (hkeeps.opens hp))
              simp [Told.isFor, hother]
            rw [if_neg hl]
            exact Told.encode_fileText_of_not_isFor hfor
        · simp only [hlevel, if_true]
          exact bytes?_addLine hformer hbytes
      · have hfor : (s.telling verbose (some p) record).isFor w l = false := by
          simp [Told.isFor, hlevel]
        refine ⟨[], Told.encode_fileText_of_not_isFor hfor, ?_⟩
        simp only [hlevel, if_false, List.append_nil]
        rfl
  · rw [if_neg hown] at hrouting
    have hfor : (s.telling verbose file record).isFor w l = false := by
      simp [Told.isFor, hown]
    refine ⟨[], Told.encode_fileText_of_not_isFor hfor, ?_⟩
    rw [route, hrouting, List.append_nil]
    dsimp only
    split <;> rfl

-- A session in which just these records were told since an earlier one.
structure Tells (s s' : Session) (told : List Told) : Prop where
  output : s'.output = s.output ++ told.flatMap Told.outputText
  errors : s'.errors = s.errors ++ told.flatMap Told.errorsText
  clock : s'.clock = s.clock
  keeps : World.Keeps s.world s'.world
  -- where a path leads may be asked in any later world
  files : ∀ w, World.Keeps s'.world w → (∀ t ∈ told, t.IsEncodable) → ∀ l, ∃ added,
    Utf8.encode (told.flatMap (Told.fileText w l)) = .ok added ∧
      (s'.world.tree.bytes? l).getD [] = (s.world.tree.bytes? l).getD [] ++ added

namespace Tells

variable {s s' s'' : Session} {front back : List Told}

theorem refl (s : Session) : s.Tells s [] where
  output := (List.append_nil _).symm
  errors := (List.append_nil _).symm
  clock := rfl
  keeps := .refl _
  files _ _ _ _ := ⟨[], rfl, (List.append_nil _).symm⟩

theorem trans (h : s.Tells s' front) (h' : s'.Tells s'' back) : s.Tells s'' (front ++ back) where
  output := by rw [h'.output, h.output, List.flatMap_append, List.append_assoc]
  errors := by rw [h'.errors, h.errors, List.flatMap_append, List.append_assoc]
  clock := h'.clock.trans h.clock
  keeps := h.keeps.trans h'.keeps
  files w hw hencodable l := by
    rw [List.forall_mem_append] at hencodable
    obtain ⟨first, hfirst, hbefore⟩ := h.files w (h'.keeps.trans hw) hencodable.1 l
    obtain ⟨second, hsecond, hafter⟩ := h'.files w hw hencodable.2 l
    refine ⟨first ++ second, ?_, by rw [hafter, hbefore, List.append_assoc]⟩
    rw [List.flatMap_append]
    exact Utf8.encode_append hfirst hsecond

end Tells

theorem log_tells {s : Session} {verbose : Bool} {file : Option Path}
    (hforce : s.InForce verbose file) (hopen : s.LogIsOpen) (record : Log.Record) :
    s.Tells (s.log record) [s.telling verbose file record] := by
  obtain ⟨r, hr, rfl⟩ := hforce.exists_routing
  have hkeeps := (log_touches hopen record).world.keeps
  refine ⟨?_, ?_, log_clock s record, hkeeps, fun w hw hencodable l => ?_⟩
  · rw [List.flatMap_singleton, log_output hr file]
  · rw [List.flatMap_singleton, log_errors hr file]
  · rw [List.forall_mem_singleton] at hencodable
    rw [List.flatMap_singleton]
    exact log_file hforce hopen (hkeeps.trans hw) hencodable l

-- What setting the log up does besides: it makes directories and opens the file.
theorem configure_cases {s s' : Session} {verbose : Bool} {file : Option Path}
    (h : s.configure verbose file = (s', .ok ())) :
    s'.InForce verbose file ∧ World.Keeps s.world s'.world ∧
      s' = { s with world := s'.world, routing := s'.routing, mark := s.records.length } := by
  cases file with
  | none =>
    obtain rfl := congrArg Prod.fst h
    exact ⟨.console rfl, .refl _, rfl⟩
  | some p =>
    have hmore := World.makeDirectories_more s.world p.parent
    simp only [configure] at h
    cases hmade : s.world.makeDirectories p.parent with
    | mk world result =>
      rw [hmade] at h hmore
      cases result with
      | error e => simp at h
      | ok made =>
        cases hopened : world.openForAppend p with
        | error e => simp [hopened] at h
        | ok opened =>
          simp only [hopened, Prod.mk.injEq, and_true] at h
          subst h
          exact ⟨.file rfl (World.opens_of_openForAppend hopened),
            hmore.keeps.trans (World.openForAppend_keeps hopened), rfl⟩

theorem configure_tells {s s' : Session} {verbose : Bool} {file : Option Path}
    (h : s.configure verbose file = (s', .ok ())) : s.Tells s' [] := by
  obtain ⟨-, hkeeps, hsame⟩ := configure_cases h
  have hmade := configure_makesOnly s verbose file
  rw [h] at hmade
  refine ⟨?_, ?_, ?_, hkeeps, fun w _ _ l => ⟨[], rfl, ?_⟩⟩
  · rw [hsame]
    exact (List.append_nil _).symm
  · rw [hsame]
    exact (List.append_nil _).symm
  · rw [hsame]
  · rcases hmade l with hl | ⟨-, hnone, hempty⟩
    · rw [hl, List.append_nil]
    · rw [hnone, hempty]
      rfl

theorem exists_configure_of_call {s s' : Session} {verbose : Bool} {file : Option Path}
    (h : s.call (.configure verbose file) = .ok s') :
    s.configure verbose file = (s', .ok ()) := by
  rw [call] at h
  split at h
  · rename_i hconfigure
    rw [hconfigure, Except.ok.inj h]
  · simp at h

-- The records of a session before the log was last set up, and since then.
structure Parts (s : Session) (earlier fresh : List Log.Record) : Prop where
  records : s.records = earlier ++ fresh
  mark : s.mark = earlier.length

theorem Parts.of_configure {s s' : Session} {verbose : Bool} {file : Option Path}
    (h : s.configure verbose file = (s', .ok ())) : s'.Parts s.records [] := by
  obtain ⟨-, -, hsame⟩ := configure_cases h
  rw [hsame]
  exact ⟨(List.append_nil _).symm, rfl⟩

theorem Parts.log {s : Session} {earlier fresh : List Log.Record} (h : s.Parts earlier fresh)
    (record : Log.Record) : (s.log record).Parts earlier (fresh ++ [record]) where
  records := by rw [log_records, h.records, List.append_assoc]
  mark := (log_kept (fun _ _ => rfl) (fun _ _ => rfl) (fun _ _ => rfl) s record).trans h.mark

theorem Parts.telling {s : Session} {earlier fresh : List Log.Record} (h : s.Parts earlier fresh)
    (verbose : Bool) (file : Option Path) (record : Log.Record) :
    s.telling verbose file record = ⟨verbose, file, isOwn earlier (fresh ++ [record]) record,
      s.clock (earlier ++ fresh ++ [record]).length, record⟩ := by
  simp only [Session.telling, noting, h.records, h.mark, List.append_assoc, List.take_left,
    List.drop_left]

-- Calls after a set-up tell their records.
theorem callAll_tells {s s' : Session} {verbose : Bool} {file : Option Path} {calls : List Call}
    {earlier fresh : List Log.Record} (hforce : s.InForce verbose file) (hopen : s.LogIsOpen)
    (hparts : s.Parts earlier fresh) (hcalls : s.callAll calls = .ok s') :
    s.Tells s' (told s.clock verbose file earlier fresh calls) := by
  induction calls generalizing s verbose file earlier fresh with
  | nil =>
    obtain rfl := Except.ok.inj hcalls
    exact .refl _
  | cons c rest ih =>
    obtain ⟨next, hnext, hrest⟩ := Failing.bind_eq_ok_iff.mp hcalls
    cases c with
    | configure verbose' file' =>
      have hset := exists_configure_of_call hnext
      obtain ⟨hforce', -, hsame⟩ := configure_cases hset
      have hopen' := configure_logIsOpen s verbose' file'
      rw [hset] at hopen'
      have htells := configure_tells hset
      have hagain : next.Parts (earlier ++ fresh) [] := hparts.records ▸ .of_configure hset
      have hlater := ih hforce' hopen' hagain hrest
      rw [htells.clock] at hlater
      exact htells.trans hlater
    | log record =>
      obtain rfl := Except.ok.inj hnext
      have htouches := log_touches hopen record
      have hlater := ih (hforce.of_keeps htouches.routing htouches.world.keeps)
        (htouches.logIsOpen hopen) (hparts.log record) hrest
      rw [log_clock] at hlater
      have hfirst := log_tells hforce hopen record
      rw [hparts.telling] at hfirst
      exact hfirst.trans hlater

-- So do calls that begin with a set-up, whatever was set up before.
theorem callAll_of_configure_tells {s s' : Session} {verbose : Bool} {file : Option Path}
    {calls : List Call} (hcalls : s.callAll (.configure verbose file :: calls) = .ok s') :
    s.Tells s' (told s.clock verbose file s.records [] calls) := by
  obtain ⟨next, hnext, hrest⟩ := Failing.bind_eq_ok_iff.mp hcalls
  have hset := exists_configure_of_call hnext
  obtain ⟨hforce, -, -⟩ := configure_cases hset
  have hopen := configure_logIsOpen s verbose file
  rw [hset] at hopen
  have htells := configure_tells hset
  have hlater := callAll_tells hforce hopen (Parts.of_configure hset) hrest
  rw [htells.clock] at hlater
  exact htells.trans hlater

-- The log was set up with a path that leads to a location.
def IsSetUp (calls : List Call) (w : World) (l : Location) : Prop :=
  ∃ verbose p, Call.configure verbose (some p) ∈ calls ∧ w.opens p l = true

-- A file that the log is set up with is there, and no other one is new.
theorem configure_bytes?_ne_none {s s' : Session} {verbose : Bool} {file : Option Path} {w : World}
    (h : s.configure verbose file = (s', .ok ())) (hkeeps : World.Keeps s'.world w) (l : Location) :
    s'.world.tree.bytes? l ≠ none ↔
      s.world.tree.bytes? l ≠ none ∨ IsSetUp [.configure verbose file] w l := by
  have hforce := (configure_cases h).1
  have hmade := configure_makesOnly s verbose file
  have hopen := configure_logIsOpen s verbose file
  rw [h] at hmade hopen
  have hset : IsSetUp [.configure verbose file] w l ↔ s'.logFile? = some l := by
    cases file with
    | none =>
      cases hforce with
      | console h => simp [IsSetUp, logFile?, h]
    | some p =>
      rw [← hforce.opens_iff hkeeps l]
      constructor
      · rintro ⟨verbose', p', hmem, hp⟩
        obtain ⟨-, hfile⟩ := Call.configure.inj (List.mem_singleton.mp hmem)
        exact Option.some.inj hfile ▸ hp
      · exact fun hp => ⟨verbose, p, List.mem_singleton.mpr rfl, hp⟩
  rw [hset]
  constructor
  · intro hthere
    rcases hmade l with hsame | ⟨hl, -⟩
    · rw [hsame] at hthere
      exact .inl hthere
    · exact .inr hl
  · rintro (hthere | hl)
    · obtain ⟨former, hformer⟩ := Option.ne_none_iff_exists'.mp hthere
      rw [hmade.bytes?_of_some hformer]
      exact Option.some_ne_none _
    · obtain ⟨bytes, hbytes⟩ := hopen l hl
      rw [Tree.bytes?_eq_some_iff.mpr hbytes]
      exact Option.some_ne_none _

theorem isSetUp_cons {c : Call} {rest : List Call} {w : World} {l : Location} :
    IsSetUp (c :: rest) w l ↔ IsSetUp [c] w l ∨ IsSetUp rest w l := by
  simp only [IsSetUp, List.mem_cons, List.not_mem_nil, or_false, or_and_right, exists_or]

-- The files after some calls are those of before and those that the log was set up with.
theorem callAll_bytes?_ne_none {s s' : Session} {calls : List Call} (hopen : s.LogIsOpen)
    (hcalls : s.callAll calls = .ok s') {w : World} (hkeeps : World.Keeps s'.world w)
    (l : Location) :
    World.Keeps s.world s'.world ∧ (s'.world.tree.bytes? l ≠ none ↔
      s.world.tree.bytes? l ≠ none ∨ IsSetUp calls w l) := by
  induction calls generalizing s with
  | nil =>
    obtain rfl := Except.ok.inj hcalls
    exact ⟨.refl _, by simp [IsSetUp]⟩
  | cons c rest ih =>
    obtain ⟨next, hnext, hrest⟩ := Failing.bind_eq_ok_iff.mp hcalls
    rw [isSetUp_cons, ← or_assoc]
    cases c with
    | configure verbose file =>
      have hset := exists_configure_of_call hnext
      have hopen' := configure_logIsOpen s verbose file
      rw [hset] at hopen'
      obtain ⟨hlater, hfiles⟩ := ih hopen' hrest
      rw [← configure_bytes?_ne_none hset (hlater.trans hkeeps) l]
      exact ⟨(configure_cases hset).2.1.trans hlater, hfiles⟩
    | log record =>
      obtain rfl := Except.ok.inj hnext
      have htouches := log_touches hopen record
      obtain ⟨hlater, hfiles⟩ := ih (htouches.logIsOpen hopen) hrest
      have hnone : ¬IsSetUp [.log record] w l := by simp [IsSetUp]
      rw [htouches.world.bytes?_eq_none_iff.ne] at hfiles
      exact ⟨htouches.world.keeps.trans hlater, by simpa [hnone] using hfiles⟩

-- Without a file every set-up succeeds.
theorem exists_callAll_withoutFile (s : Session) (calls : List Call) :
    ∃ s', s.callAll (calls.map Call.withoutFile) = .ok s' := by
  induction calls generalizing s with
  | nil => exact ⟨s, rfl⟩
  | cons c rest ih =>
    cases c with
    | configure verbose file =>
      exact ih { s with routing := some ⟨verbose, none⟩, mark := s.records.length }
    | log record => exact ih (s.log record)

theorem told_withoutFile (clock : Nat → Text) (verbose : Bool) (file : Option Path)
    (earlier fresh : List Log.Record) (calls : List Call) :
    told clock verbose none earlier fresh (calls.map Call.withoutFile) =
      (told clock verbose file earlier fresh calls).map fun t => { t with file := none } := by
  induction calls generalizing verbose file earlier fresh with
  | nil => rfl
  | cons c rest ih =>
    cases c with
    | configure verbose' file' => exact ih verbose' file' _ _
    | log record => exact congrArg _ (ih verbose file _ _)

-- A part may have any name that does not begin with a point.
theorem isOwn_of_head {record : Log.Record} (earlier fresh : List Log.Record)
    (h : record.source.head? ≠ some (.scalar '.')) : isOwn earlier fresh record = true := by
  simp only [isOwn, Log.Record.isOwn_of_head _ h, Bool.or_true, Bool.and_true]

theorem isOwn_of_mem_told {clock : Nat → Text} {verbose : Bool} {file : Option Path}
    {earlier fresh : List Log.Record} {calls : List Call} {t : Told}
    (ht : t ∈ told clock verbose file earlier fresh calls)
    (hname : t.record.source.head? ≠ some (.scalar '.')) : t.isOwn = true := by
  induction calls generalizing verbose file earlier fresh with
  | nil => simp [told] at ht
  | cons c rest ih =>
    cases c with
    | configure verbose' file' => exact ih ht
    | log record =>
      rw [told, List.mem_cons] at ht
      rcases ht with rfl | ht
      · exact isOwn_of_head _ _ hname
      · exact ih ht

-- Every record is told once, where the set-up in force sends it.
theorem records_routed_once {s s' : Session} {verbose : Bool} {file : Option Path}
    {calls : List Call} (hcalls : s.callAll (.configure verbose file :: calls) = .ok s')
    (hencodable : ∀ t ∈ told s.clock verbose file s.records [] calls, t.IsEncodable) :
    s'.output = s.output ++
      (told s.clock verbose file s.records [] calls).flatMap Told.outputText ∧
    s'.errors = s.errors ++
      (told s.clock verbose file s.records [] calls).flatMap Told.errorsText ∧
    (∀ l, ∃ added,
      Utf8.encode ((told s.clock verbose file s.records [] calls).flatMap
        (Told.fileText s'.world l)) = .ok added ∧
      (s'.world.tree.bytes? l).getD [] = (s.world.tree.bytes? l).getD [] ++ added) ∧
    (∀ l, s'.world.tree.bytes? l ≠ none ↔
      s.world.tree.bytes? l ≠ none ∨ IsSetUp (.configure verbose file :: calls) s'.world l) ∧
    (∃ silent,
      s.callAll ((Call.configure verbose file :: calls).map Call.withoutFile) = .ok silent ∧
      silent.output = s'.output ∧ silent.errors = s'.errors) ∧
    ∀ t ∈ told s.clock verbose file s.records [] calls,
      t.record.source.head? ≠ some (.scalar '.') → t.isOwn = true := by
  have htells := callAll_of_configure_tells hcalls
  refine ⟨htells.output, htells.errors, htells.files s'.world (.refl _) hencodable, fun l => ?_,
    ?_, fun t ht hname => isOwn_of_mem_told ht hname⟩
  · obtain ⟨next, hnext, hrest⟩ := Failing.bind_eq_ok_iff.mp hcalls
    have hset := exists_configure_of_call hnext
    have hopen := configure_logIsOpen s verbose file
    rw [hset] at hopen
    obtain ⟨hkeeps, hfiles⟩ := callAll_bytes?_ne_none hopen hrest (.refl s'.world) l
    rw [isSetUp_cons, ← or_assoc, ← configure_bytes?_ne_none hset hkeeps l]
    exact hfiles
  · obtain ⟨silent, hsilent⟩ :=
      exists_callAll_withoutFile s (.configure verbose file :: calls)
    have hbare := callAll_of_configure_tells hsilent
    rw [told_withoutFile s.clock verbose file] at hbare
    refine ⟨silent, hsilent, ?_, ?_⟩
    · rw [hbare.output, htells.output, List.flatMap_map]
      rfl
    · rw [hbare.errors, htells.errors, List.flatMap_map]
      rfl

-- A verbose set-up with a file, one without, and one with the file again.
theorem records_routed_once_of_three_set_ups :
    let s : Session := .start ⟨⟨[]⟩, .ofText "/", "/", [], []⟩ "now"
    let file : Path := .ofText "logs/run.log"
    let calls : List Call := [.log ⟨.debug, "extractor", "first"⟩, .configure false none,
      .log ⟨.debug, [], "second"⟩, .log ⟨.warning, "patcher", "third"⟩,
      .configure false (some file), .log ⟨.debug, [], "fourth"⟩]
    ∃ s', s.callAll (.configure true (some file) :: calls) = .ok s' ∧
      (∀ t ∈ told s.clock true (some file) s.records [] calls, t.IsEncodable) ∧
      s'.output = "[tsdocgen] DEBUG first\n" ∧ s'.errors = "[tsdocgen] WARNING third\n" ∧
      s'.world.tree.bytes? (World.locationOf file) = some (Utf8.bytesOf
        "now DEBUG tsdocgen.extractor: first\nnow DEBUG tsdocgen: fourth\n".toList) := by
  intro s file calls
  have hcalls : ((s.callAll (.configure true (some file) :: calls)).map fun s' =>
      s'.world.tree.bytes? (World.locationOf file)) = .ok (some (Utf8.bytesOf
        "now DEBUG tsdocgen.extractor: first\nnow DEBUG tsdocgen: fourth\n".toList)) := by
    decide +kernel
  obtain ⟨s', hs', hbytes⟩ := Failing.map_eq_ok_iff.mp hcalls
  have hencodable : ∀ t ∈ told s.clock true (some file) s.records [] calls, t.IsEncodable := by
    decide +kernel
  obtain ⟨houtput, herrors, -⟩ := records_routed_once hs' hencodable
  exact ⟨s', hs', hencodable, houtput.trans (by decide +kernel), herrors.trans (by decide +kernel),
    hbytes⟩

-- A record under a name that begins with a point is lost, also where a name that came into use
-- later makes it nested in the program's, if its logger was asked before. So is the line in the file
-- of a record without an encoding.
theorem records_lost_of_point_and_surrogate :
    let s : Session := .start ⟨⟨[]⟩, .ofText "/", "/", [], []⟩ "now"
    let file : Path := .ofText "run.log"
    (s.callAll [.configure false none, .log ⟨.info, ".x", "lost"⟩]).map (·.output) = .ok [] ∧
      (s.callAll [.configure false none, .log ⟨.info, "...x", "lost"⟩, .log ⟨.info, "..", "shown"⟩,
        .log ⟨.info, "...x", "lost again"⟩]).map (·.output) = .ok "shown\n" ∧
      (s.callAll [.configure false (some file), .log ⟨.info, [], [.surrogate 0]⟩]).map
        (·.world.tree.bytes? (World.locationOf file)) = .ok (some []) := by
  decide +kernel

end Session

end ReadmeTables
