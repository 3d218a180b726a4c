import ReadmeTables.Proofs.Patch.Own
import ReadmeTables.Proofs.Patch.Serial
/-!
A flush in one order and in another.

A task with a README of its own finds it as it was before the flush, and no other task writes to it.
Main statement: where all components have READMEs of their own, a flush ends with outcomes in every
order or in none, and always with the same ones and with the same bytes in all files but the log.
-/

namespace ReadmeTables.Patch

open Session (Touches LogIsOpen)

variable {plan : Plan} {s s' : Session} {f : Fragments} {schedule : List Move} {l : Location}
  {key body updated : Text} {entry : Text × List Text} {seen : Except ReadError (List Char)}
  {outcome : Outcome} {outcomes : List Outcome} {phase : Phase} {stage : Stage}

-- The bytes of the README of a component after its body was put into it.
def Plan.leftIn (plan : Plan) (w : World) (entry : Text × List Text) :
    Except FileError Utf8.Bytes :=
  (w.readBytes (plan.destination entry.1)).map fun bytes =>
    left (plan.dryRun || plan.isLocked w entry.1) bytes (Plan.render entry.2)

variable {w w' : World}

-- A README that was only to be looked at, or could not be read, keeps its bytes.
theorem Plan.of_settled {result : Except FileError Outcome}
    (h : plan.sight entry.1 (Plan.render entry.2)
      (w.readText (plan.destination entry.1)) = .settled result) :
    plan.outcomeIn w entry = result ∧
      plan.leftIn w entry = w.readBytes (plan.destination entry.1) := by
  rw [outcomeIn, leftIn]
  cases hread : w.readBytes (plan.destination entry.1) with
  | error e =>
    rw [World.readText_of_error hread] at h
    refine ⟨?_, rfl⟩
    cases e <;> exact Sight.settled.inj h
  | ok bytes =>
    cases hd : Utf8.decode bytes with
    | error e =>
      rw [World.readText_of_undecodable hread hd] at h
      simp only [verdict, hd, Except.map, left_of_error hd]
      exact ⟨Sight.settled.inj h, trivial⟩
    | ok chars =>
      rw [World.readText_of_decode hread hd, sight, revision] at h
      by_cases hdry : plan.dryRun = true
      · simp only [hdry, if_true] at h
        simp only [verdict, hd, written, hdry, if_true, Bool.true_or, Except.map, left_still]
        exact ⟨Sight.settled.inj h, trivial⟩
      · simp [hdry] at h

-- A README that is to be written takes in the body, unless it is locked.
theorem Plan.of_toWrite
    (h : plan.sight entry.1 (Plan.render entry.2)
      (w.readText (plan.destination entry.1)) = .toWrite outcome updated) :
    plan.outcomeIn w entry =
        (if plan.isLocked w entry.1 then
          .ok { outcome with failure := some (.write (.refused .locked outcome.path.text)) }
        else
          match Utf8.encode updated with
          | .ok _ => .ok outcome
          | .error e => .error (.unencodable e)) ∧
      plan.leftIn w entry = (w.readBytes (plan.destination entry.1)).map fun before =>
        if plan.isLocked w entry.1 then before else stored updated := by
  obtain ⟨hdry, shown, hseen, rfl, rfl⟩ := toWrite_cases h
  obtain ⟨bytes, chars, hread, hd, rfl⟩ := World.readText_eq_ok_iff.mp hseen
  rw [outcomeIn, leftIn, hread, hdry]
  refine ⟨?_, ?_⟩
  · simp only [verdict, hd, written, hdry, Bool.false_eq_true, if_false]
    rfl
  · simp only [Except.map, Bool.false_or]
    cases plan.isLocked w entry.1 with
    | true => rfl
    | false => rw [left_of_decode hd]; rfl

-- What the README of a task holds, and what came out for it, told from the world before the flush.
def Phase.Stands (plan : Plan) (before after : World) (entry : Text × List Text) : Phase → Prop
  | writing outcome _ done rest =>
    after.readBytes (plan.destination entry.1) = .ok done ∧
      plan.leftIn before entry = .ok (done ++ rest) ∧ plan.outcomeIn before entry = .ok outcome
  | written outcome result =>
    after.readBytes (plan.destination entry.1) = plan.leftIn before entry ∧
      plan.outcomeIn before entry = outcome.concluded result
  | ended result =>
    after.readBytes (plan.destination entry.1) = plan.leftIn before entry ∧
      plan.outcomeIn before entry = result
  | _ => after.readBytes (plan.destination entry.1) = before.readBytes (plan.destination entry.1)

def Stage.Stands (plan : Plan) (before after : World) (entry : Text × List Text) : Stage → Prop
  | waiting =>
    after.readBytes (plan.destination entry.1) = before.readBytes (plan.destination entry.1)
  | begun seen phase => seen = before.readText (plan.destination entry.1) ∧
    phase.Stands plan before after entry
  | givenUp =>
    after.readBytes (plan.destination entry.1) = before.readBytes (plan.destination entry.1) ∨
      after.readBytes (plan.destination entry.1) = plan.leftIn before entry

theorem Phase.Stands.congr {before after : World} (h : phase.Stands plan before after entry)
    (hread : w.readBytes (plan.destination entry.1) =
      after.readBytes (plan.destination entry.1)) : phase.Stands plan before w entry := by
  cases phase <;> simpa only [Stands, hread] using h

theorem Stage.Stands.congr {before after : World} (h : stage.Stands plan before after entry)
    (hread : w.readBytes (plan.destination entry.1) =
      after.readBytes (plan.destination entry.1)) : stage.Stands plan before w entry := by
  cases stage with
  | waiting => exact hread.trans h
  | begun seen phase => exact ⟨h.1, h.2.congr hread⟩
  | givenUp => exact h.imp hread.trans hread.trans

theorem Stage.Stands.giveUp {before after : World} (h : stage.Stands plan before after entry) :
    stage.giveUp.Stands plan before after entry := by
  cases stage with
  | waiting => exact .inl h
  | givenUp => exact h
  | begun seen phase =>
    obtain ⟨-, hphase⟩ := id h
    cases phase with
    | read => exact .inl hphase
    | ready outcome updated => exact .inl hphase
    | writing outcome location done rest => exact h
    | written outcome result => exact .inr hphase.1
    | ended result => exact h

variable {before : World} {touched : Location → Prop}

theorem Plan.HasReadme.readBytes_setFile (h : plan.HasReadme w key l) (bytes : Utf8.Bytes) :
    (w.setFile l bytes).readBytes (plan.destination key) = .ok bytes := by
  obtain ⟨hl, former, hformer⟩ := h
  have hset := World.setFile_sameBut bytes hformer
  exact World.readBytes_eq_ok_iff.mpr
    ⟨l, (leadsTo_congr hset plan key l).mpr hl, World.get?_setFile bytes hformer⟩

-- A step of a task whose README no other one and no log file shares.
theorem Phase.Stands.next (hopen : s.LogIsOpen) (hsame : World.SameBut touched before s.world)
    (hlog : ∀ l, plan.leadsTo s.world entry.1 l → s.logFile? ≠ some l)
    (hfollows : phase.Follows plan entry.1 (Plan.render entry.2)
      (before.readText (plan.destination entry.1)))
    (hplaced : (Stage.begun (before.readText (plan.destination entry.1)) phase).IsPlaced plan
      s.world entry.1)
    (h : phase.Stands plan before s.world entry) (size : Nat) :
    (phase.next plan size s entry.1 (Plan.render entry.2)
        (before.readText (plan.destination entry.1))).2.Stands plan before
      (phase.next plan size s entry.1 (Plan.render entry.2)
        (before.readText (plan.destination entry.1))).1.world entry := by
  have hlogged (records : List Log.Record) :
      (s.logAll records).world.readBytes (plan.destination entry.1) =
        s.world.readBytes (plan.destination entry.1) :=
    (Session.logAll_touches hopen records).world.readBytes_eq fun l hl =>
      Session.untouched (hlog l hl)
  have hlocked (l : Location) (hl : plan.leadsTo s.world entry.1 l) :
      plan.isLocked before entry.1 = decide (l ∈ s.world.locked) := by
    rw [← Plan.isLocked_congr hsame, Plan.isLocked_of_leadsTo hl]
  cases hfollows with
  | read =>
    simp only [Phase.next, look]
    cases hsight : plan.sight entry.1 (Plan.render entry.2)
      (before.readText (plan.destination entry.1)) with
    | settled result =>
      obtain ⟨houtcome, hleft⟩ := Plan.of_settled hsight
      exact ⟨((hlogged _).trans h).trans hleft.symm, houtcome⟩
    | toWrite outcome updated => exact (hlogged _).trans h
  | ready hsight =>
    rename_i outcome updated
    obtain ⟨houtcome, hleft⟩ := Plan.of_toWrite hsight
    obtain ⟨-, shown, hseen, -, -⟩ := Plan.toWrite_cases hsight
    obtain ⟨bytes, chars, hread, -, -⟩ := World.readText_eq_ok_iff.mp hseen
    rw [hseen] at hplaced
    obtain ⟨l, hl, -⟩ := hplaced
    obtain ⟨former, hformer⟩ := hl.2
    rw [Phase.next_ready hsight hl.1 hformer]
    rw [hlocked l hl.1] at houtcome hleft
    rw [hread] at hleft
    by_cases hmem : l ∈ s.world.locked
    · simp only [hmem, decide_true, if_true] at houtcome hleft ⊢
      exact ⟨(h.trans hread).trans hleft.symm, houtcome⟩
    · simp only [hmem, decide_false, if_false, Bool.false_eq_true] at houtcome hleft ⊢
      have hempty := hl.readBytes_setFile []
      cases hencode : Utf8.encode updated with
      | error e =>
        simp only [Phase.opened, hencode, stored, Except.toOption] at houtcome hleft ⊢
        exact ⟨hempty.trans hleft.symm, houtcome⟩
      | ok all =>
        simp only [Phase.opened, hencode, stored, Except.toOption] at houtcome hleft ⊢
        exact ⟨hempty, hleft, houtcome⟩
  | writing hsight hencode =>
    rename_i outcome updated location done rest
    obtain ⟨hdone, hleft, houtcome⟩ := h
    obtain ⟨-, shown, hseen, -, -⟩ := Plan.toWrite_cases hsight
    rw [hseen] at hplaced
    obtain ⟨l, hl, hplace⟩ := hplaced
    obtain rfl : location = l := hplace location rfl
    obtain ⟨m, hm, hformer⟩ := World.readBytes_eq_ok_iff.mp hdone
    obtain rfl : location = m := Except.ok.inj (hl.1.symm.trans hm)
    simp only [Phase.next, World.writeAt_end _ hformer]
    have hpiece := hl.readBytes_setFile (done ++ rest.take (size + 1))
    -- what is written by now and what is left make up the whole
    rw [← List.take_append_drop (size + 1) rest, ← List.append_assoc] at hleft
    by_cases hnone : rest.drop (size + 1) = []
    · rw [if_pos hnone]
      rw [hnone, List.append_nil] at hleft
      exact ⟨hpiece.trans hleft.symm, houtcome⟩
    · rw [if_neg hnone]
      exact ⟨hpiece, hleft, houtcome⟩
  | written result hsight => exact ⟨(hlogged _).trans h.1, h.2⟩
  | ended hends => exact h

theorem Stage.Stands.next (hopen : s.LogIsOpen) (hsame : World.SameBut touched before s.world)
    (hlog : ∀ l, plan.leadsTo s.world entry.1 l → s.logFile? ≠ some l)
    (hfollows : stage.Follows plan entry.1 (Plan.render entry.2))
    (hplaced : stage.IsPlaced plan s.world entry.1)
    (h : stage.Stands plan before s.world entry) (size : Nat) :
    (stage.next plan size s entry.1 (Plan.render entry.2)).2.Stands plan before
      (stage.next plan size s entry.1 (Plan.render entry.2)).1.world entry := by
  cases stage with
  | waiting =>
    refine ⟨?_, h⟩
    simp only [World.readText, show s.world.readBytes (plan.destination entry.1) = _ from h]
  | begun seen phase =>
    obtain ⟨rfl, hphase⟩ := h
    exact ⟨rfl, hphase.next hopen hsame hlog hfollows hplaced size⟩
  | givenUp => exact h

-- No two components share one of the READMEs that are watched.
def Plan.OwnAt (plan : Plan) (watched : Location → Prop) (w : World)
    (entries : List (Text × List Text)) : Prop :=
  entries.Pairwise fun a b => ∀ l, watched l → plan.leadsTo w a.1 l → ¬plan.leadsTo w b.1 l

theorem Plan.OwnAt.of_middle {watched : Location → Prop} {front back : List (Text × List Text)}
    (h : plan.OwnAt watched w (front ++ entry :: back)) :
    ∀ other ∈ front ++ back, ∀ l, watched l → plan.leadsTo w other.1 l →
      ¬plan.leadsTo w entry.1 l := by
  obtain ⟨-, hback, hfront⟩ := List.pairwise_append.mp h
  intro other hother l hl hthere hentry
  rcases List.mem_append.mp hother with hother | hother
  · exact hfront other hother entry List.mem_cons_self l hl hthere hentry
  · exact (List.pairwise_cons.mp hback).1 other hother l hl hentry hthere

-- At any moment of a flush, a task stands as is told from the world before it, if the log and
-- other tasks stay away from its README.
theorem launchAnd_stands (hopen : s.LogIsOpen) (watched : Location → Prop)
    (hlog : ∀ l, watched l → s.logFile? ≠ some l)
    (hown : plan.OwnAt watched s.world (plan.selected f)) (schedule : List Move) :
    ∀ task ∈ (launchAnd plan s f schedule).tasks,
      (∀ l, plan.leadsTo s.world task.entry.1 l → watched l) →
        task.stage.Stands plan s.world (launchAnd plan s f schedule).session.world task.entry := by
  have hopened := opened_touches hopen plan f
  refine (Progress.moves_induction plan (P := fun q =>
    q.tasks.map Task.entry = plan.selected f ∧ q.IsSound plan ∧
      Touches (fun _ => True) s q.session ∧
      ∀ task ∈ q.tasks, (∀ l, plan.leadsTo s.world task.entry.1 l → watched l) →
        task.stage.Stands plan s.world q.session.world task.entry) ?_ ?_ ?_ schedule).2.2.2
  · rintro now front task back raised size ⟨hentries, hsound, hsame, hstands⟩
    obtain ⟨hstep, hnext⟩ := hsound.next size
    refine ⟨by simpa using hentries, hnext, hsame.trans (hstep.mono fun _ _ => trivial), ?_⟩
    simp only [List.map_append, List.map_cons] at hentries
    rw [← hentries] at hown
    -- the other tasks lead elsewhere
    have hkept (other : Task) (hother : other ∈ front ++ back)
        (hwatched : ∀ l, plan.leadsTo s.world other.entry.1 l → watched l)
        (h : other.stage.Stands plan s.world now.world other.entry) :
        other.stage.Stands plan s.world (task.next plan size now).1.world other.entry := by
      refine h.congr (hstep.world.readBytes_eq fun l hl => ?_)
      have hthere := (Plan.leadsTo_congr hsame.world plan _ l).mp hl
      refine not_or_intro ?_ fun hwrites => ?_
      · rw [hsame.logFile?_eq]
        exact hlog l (hwatched l hthere)
      · have hmem : other.entry ∈ front.map Task.entry ++ back.map Task.entry := by
          rw [← List.map_append]
          exact List.mem_map_of_mem hother
        exact hown.of_middle _ hmem l (hwatched l hthere) hthere
          ((Plan.leadsTo_congr hsame.world plan _ l).mp hwrites.2)
    simp only [List.forall_mem_append, List.forall_mem_cons] at hstands ⊢
    refine ⟨fun other hother hwatched => ?_, fun hwatched => ?_, fun other hother hwatched => ?_⟩
    · exact hkept other (List.mem_append_left _ hother) hwatched (hstands.1 other hother hwatched)
    · have htask : task ∈ front ++ task :: back := by simp
      refine (hstands.2.1 hwatched).next hsound.logIsOpen hsame.world (fun l hl => ?_)
        (hsound.follows task htask) (hsound.placed task htask) size
      rw [hsame.logFile?_eq]
      exact hlog l (hwatched l ((Plan.leadsTo_congr hsame.world plan _ l).mp hl))
    · have hthere := hstands.2.2 other hother hwatched
      exact hkept other (List.mem_append_right _ hother) hwatched hthere
  · rintro now front task back raised - ⟨hentries, hsound, hsame, hstands⟩
    refine ⟨by simpa using hentries, hsound.giveUp, hsame, ?_⟩
    simp only [List.forall_mem_append, List.forall_mem_cons] at hstands ⊢
    exact ⟨hstands.1, fun hwatched => (hstands.2.1 hwatched).giveUp, hstands.2.2⟩
  · refine ⟨entries_launchAnd plan s f [], launch_isSound hopen plan f, hopened.of_nowhere, ?_⟩
    intro task htask hwatched
    obtain ⟨entry, -, rfl⟩ := exists_entry_of_mem_launch htask
    exact hopened.world.readBytes_eq fun l hl => Session.untouched (hlog l (hwatched l hl))

theorem isOver_of_result? {p : Progress} {result : Except FileError (List Outcome)}
    (h : p.result? = some result) : ∀ task ∈ p.tasks, task.stage.isOver = true := by
  rw [Progress.result?] at h
  split at h
  · rename_i hover
    exact List.all_eq_true.mp hover
  · simp at h

theorem raised_of_result? {p : Progress} {e : FileError} (h : p.result? = some (.error e)) :
    p.raised = some e := by
  rw [Progress.result?] at h
  split at h
  · cases hraised : p.raised with
    | none => simp [hraised] at h
    | some found => simpa [hraised] using h
  · simp at h

theorem Stage.Stands.of_isOver {after : World} (h : stage.Stands plan before after entry)
    (hover : stage.isOver = true) :
    after.readBytes (plan.destination entry.1) = before.readBytes (plan.destination entry.1) ∨
      after.readBytes (plan.destination entry.1) = plan.leftIn before entry := by
  cases stage with
  | waiting => simp [isOver] at hover
  | givenUp => exact h
  | begun seen phase =>
    cases phase with
    | ended result => exact .inr h.2.1
    | _ => simp [isOver] at hover

-- Where a task has ended, one has still done so after one of them has gone on.
theorem exists_ended_of_replaced {front back : List Task} {task : Task} {stage' : Stage}
    {result : Except FileError Outcome}
    (h : ∃ found ∈ front ++ task :: back, ∃ seen, found.stage = .begun seen (.ended result))
    (hkept : ∀ seen, task.stage = .begun seen (.ended result) →
      stage' = .begun seen (.ended result)) :
    ∃ found ∈ front ++ { task with stage := stage' } :: back, ∃ seen,
      found.stage = .begun seen (.ended result) := by
  obtain ⟨found, hfound, seen, hstage⟩ := h
  rcases List.mem_append.mp hfound with hfound | hfound
  · exact ⟨found, List.mem_append_left _ hfound, seen, hstage⟩
  · rcases List.mem_cons.mp hfound with rfl | hfound
    · exact ⟨{ found with stage := stage' }, by simp, seen, hkept seen hstage⟩
    · exact ⟨found, List.mem_append_right _ (List.mem_cons_of_mem _ hfound), seen, hstage⟩

theorem Stage.exists_ended_of_error? {e : FileError} (h : stage.error? = some e) :
    ∃ seen, stage = .begun seen (.ended (.error e)) := by
  cases stage with
  | waiting => simp [error?] at h
  | givenUp => simp [error?] at h
  | begun seen phase =>
    cases phase with
    | ended result => cases result <;> simp_all [error?]
    | _ => simp [error?] at h

-- The error that a flush ends with is one that a task has ended with.
theorem exists_task_of_raised {e : FileError} (h : (launchAnd plan s f schedule).raised = some e) :
    ∃ task ∈ (launchAnd plan s f schedule).tasks, ∃ seen,
      task.stage = .begun seen (.ended (.error e)) := by
  refine Progress.moves_induction plan (P := fun q => q.raised = some e → ∃ task ∈ q.tasks, ∃ seen,
    task.stage = .begun seen (.ended (.error e))) ?_ ?_ (fun hnone => by simp [launch] at hnone)
    schedule h
  · intro now front task back raised size hraised hnext
    cases raised with
    | some e' =>
      refine exists_ended_of_replaced (hraised hnext) fun seen hstage => ?_
      simp only [Task.next, hstage, Stage.next, Phase.next]
    | none =>
      rw [Option.none_or] at hnext
      exact ⟨{ task with stage := (task.next plan size now).2 }, by simp,
        Stage.exists_ended_of_error? hnext⟩
  · intro now front task back raised _ hraised hsome
    refine exists_ended_of_replaced (hraised hsome) fun seen hstage => ?_
    simp only [hstage, Stage.giveUp]

-- A README that holds the same in two worlds is the same entry there.
theorem get?_eq_of_readBytes {w' : World} {other : Location → Prop}
    (hsame : World.SameBut touched before w) (hsame' : World.SameBut other before w')
    (hl : plan.leadsTo before key l)
    (hread : w'.readBytes (plan.destination key) = w.readBytes (plan.destination key)) :
    w'.tree.get? l = w.tree.get? l := by
  have hboth : World.SameBut (fun _ => True) w w' :=
    (hsame.symm.mono fun _ _ => trivial).trans (hsame'.mono fun _ _ => trivial)
  have hlw := (Plan.leadsTo_congr hsame plan key l).mpr hl
  apply hboth.get?_eq
  cases hbytes : w.tree.bytes? l with
  | none => rw [hboth.bytes?_eq_none_iff.mpr hbytes]
  | some bytes =>
    have hthere := World.readBytes_eq_ok_iff.mpr ⟨l, hlw, Tree.bytes?_eq_some_iff.mp hbytes⟩
    obtain ⟨m, hm, hf⟩ := World.readBytes_eq_ok_iff.mp (hread.trans hthere)
    obtain rfl : m = l :=
      Except.ok.inj (hm.symm.trans ((Plan.leadsTo_congr hsame' plan key l).mpr hl))
    exact Tree.bytes?_eq_some_iff.mpr hf

variable {result : Except FileError (List Outcome)} (hopen : s.LogIsOpen)
  (happart : plan.LogsApart s (plan.selected f))
  (hown : plan.HaveOwnReadmes s.world (plan.selected f))

include hopen happart hown

theorem launchAnd_stands_of_own (schedule : List Move) :
    ∀ task ∈ (launchAnd plan s f schedule).tasks,
      task.stage.Stands plan s.world (launchAnd plan s f schedule).session.world task.entry := by
  intro task htask
  have hentry : task.entry ∈ plan.selected f := by
    rw [← entries_launchAnd plan s f schedule]
    exact List.mem_map_of_mem htask
  exact launchAnd_stands hopen (fun l => s.logFile? ≠ some l) (fun _ hl => hl)
    (hown.imp fun hab l _ => hab l) schedule task htask fun l hl => happart task.entry hentry l hl

-- A flush that ends with outcomes has those that are told before it, and the READMEs have taken in
-- their bodies.
theorem launchAnd_of_own (hresult : (launchAnd plan s f schedule).result? = some (.ok outcomes)) :
    List.Forall₂ (fun entry outcome => plan.outcomeIn s.world entry = .ok outcome ∧
        (launchAnd plan s f schedule).session.world.readBytes (plan.destination entry.1) =
          plan.leftIn s.world entry)
      (plan.selected f) outcomes := by
  obtain ⟨-, hended⟩ := Progress.tasks_of_result? (launchAnd_isCalm plan s f schedule) hresult
  have hstands := launchAnd_stands_of_own hopen happart hown schedule
  rw [← entries_launchAnd plan s f schedule, List.forall₂_map_left_iff]
  refine ((List.forall₂_and_left _ _).mpr ⟨fun _ htask => htask, hended⟩).imp ?_
  rintro task outcome ⟨htask, seen, hstage⟩
  have hthere := hstands task htask
  rw [hstage] at hthere
  exact ⟨hthere.2.2, hthere.2.1⟩

-- Whether a flush ends with outcomes does not depend on the order of its tasks.
theorem launchAnd_ok_iff (hresult : (launchAnd plan s f schedule).result? = some result) :
    (∃ outcomes, result = .ok outcomes) ↔
      ∀ entry ∈ plan.selected f, plan.Accepts s.world entry := by
  constructor
  · rintro ⟨outcomes, rfl⟩ entry hentry
    obtain ⟨outcome, houtcome, -⟩ :=
      exists_right_of_mem (launchAnd_of_own hopen happart hown hresult) hentry
    exact ⟨outcome, houtcome⟩
  · intro hall
    cases result with
    | ok outcomes => exact ⟨outcomes, rfl⟩
    | error e =>
      obtain ⟨task, htask, seen, hstage⟩ := exists_task_of_raised (raised_of_result? hresult)
      have hthere := launchAnd_stands_of_own hopen happart hown schedule task htask
      rw [hstage] at hthere
      have hentry : task.entry ∈ plan.selected f := by
        rw [← entries_launchAnd plan s f schedule]
        exact List.mem_map_of_mem htask
      obtain ⟨outcome, houtcome⟩ := hall task.entry hentry
      have herror := hthere.2.2
      rw [houtcome] at herror
      simp at herror

-- A flush that ends with outcomes does so in every order, with the same outcomes and the same bytes
-- in all files but the log.
theorem launchAnd_eq_flush (hresult : (launchAnd plan s f schedule).result? = some (.ok outcomes)) :
    flush plan s f = ((flush plan s f).1, .ok outcomes) ∧ ∀ l, s.logFile? ≠ some l →
      (launchAnd plan s f schedule).session.world.tree.get? l =
        (flush plan s f).1.world.tree.get? l := by
  have hended := launchAnd_of_own hopen happart hown hresult
  have hall := (launchAnd_ok_iff hopen happart hown hresult).mp ⟨outcomes, rfl⟩
  obtain ⟨s', others, hflush⟩ := (exists_flush_iff hopen plan f happart).mpr hall
  obtain rfl : (flush plan s f).1 = s' := congrArg Prod.fst hflush
  constructor
  · have hothers := flush_outcomes hopen happart hown hflush
    have hsame : List.Forall₂ (· = ·) others outcomes :=
      forall₂_of_common (fun _ _ _ h h' => Except.ok.inj (h'.symm.trans h.1)) hended hothers
    rw [List.forall₂_eq_eq_eq] at hsame
    rw [hflush, hsame]
  · intro l hlog
    have hwrites := launchAnd_writes hopen plan f schedule
    have hflushed := flush_writes hopen plan f
    by_cases hsome : ∃ entry ∈ plan.selected f, plan.leadsTo s.world entry.1 l
    · obtain ⟨entry, hentry, hl⟩ := hsome
      obtain ⟨outcome, -, hread⟩ := exists_right_of_mem hended hentry
      rw [Plan.leftIn, ← flush_readBytes_of_own hopen happart hown hentry] at hread
      exact get?_eq_of_readBytes hflushed.world hwrites.world hl hread
    · have hnone (s' : Session) (h : Touches (fun l => ∃ entry ∈ plan.selected f,
          plan.writes s.world entry.1 l) s s') : s'.world.tree.get? l = s.world.tree.get? l := by
        refine h.world.kept l (not_or_intro hlog ?_)
        rintro ⟨entry, hentry, hl⟩
        exact hsome ⟨entry, hentry, hl.2⟩
      rw [hnone _ hwrites, hnone _ hflushed]

end ReadmeTables.Patch
