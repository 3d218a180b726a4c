import ReadmeTables.Patch
import ReadmeTables.Proofs.Console
import ReadmeTables.Proofs.Patch.Content
/-!
What becomes of one component.

Its outcome and its README are functions of what the README held and of whether it may be
written. Main statements: handling a component gives that outcome, leaves the README with those
bytes and touches no other file but the log.
-/

namespace ReadmeTables.Patch

open Session (Touches LogIsOpen)

def flagged (outcome : Outcome) (former updated : Text) : Outcome :=
  { outcome with changed := updated ≠ former }

namespace Plan

-- The outcome of writing a README that can be read.
def written (plan : Plan) (outcome : Outcome) (locked : Bool) (former updated : Text) :
    Except FileError Outcome :=
  if plan.dryRun then
    .ok { flagged outcome former updated with
      diff := Diff.unified former updated outcome.path.text }
  else if locked then
    .ok { flagged outcome former updated with
      failure := some (.write (.refused .locked outcome.path.text)) }
  else
    match Utf8.encode updated with
    | .ok _ => .ok (flagged outcome former updated)
    | .error e => .error (.unencodable e)

-- The outcome of a component, from what its README holds or why it cannot be read.
def verdict (plan : Plan) (key body : Text) (locked : Bool)
    (former : Except FileError Utf8.Bytes) : Except FileError Outcome :=
  match former with
  | .error (.refused refusal shown) =>
    .ok { plan.blank key with failure := some (.read (.file (.refused refusal shown))) }
  | .error e => .error e
  | .ok bytes =>
    match Utf8.decode bytes with
    | .error e => .ok { plan.blank key with failure := some (.read (.undecodable e)) }
    | .ok chars =>
      plan.written (plan.blank key) locked (Text.ofChars (Text.unifyLineEnds chars))
        (revised chars body)

def isLocked (plan : Plan) (w : World) (key : Text) : Bool :=
  match w.locate (plan.destination key) with
  | .ok l => w.locked.contains l
  | .error _ => false

-- Whether a file is still under a plan.
def isStill (plan : Plan) (w : World) (l : Location) : Bool :=
  plan.dryRun || w.locked.contains l

theorem isStill_eq (plan : Plan) (w : World) (l : Location) :
    plan.isStill w l = (plan.dryRun || l ∈ w.locked) := by
  rw [isStill, List.contains_eq_mem]

-- A component leads to a location if its README is there.
def leadsTo (plan : Plan) (w : World) (key : Text) (l : Location) : Prop :=
  w.locate (plan.destination key) = .ok l

-- A component may write where it leads to, unless READMEs are only looked at.
def writes (plan : Plan) (w : World) (key : Text) (l : Location) : Prop :=
  plan.dryRun = false ∧ plan.leadsTo w key l

end Plan

variable {s : Session} {l : Location} {former : Utf8.Bytes}

-- Writing a README that is there is refused, fails with the file empty, or is done.
theorem write_eq (outcome : Outcome) (hl : s.world.locate outcome.path = .ok l)
    (hf : s.world.tree.get? l = some (.file former)) (updated : Text) :
    write s outcome updated =
      if l ∈ s.world.locked then
        (s.log (writeFailure outcome.path (.refused .locked outcome.path.text)),
          .ok { outcome with failure := some (.write (.refused .locked outcome.path.text)) })
      else
        match Utf8.encode updated with
        | .error e => ({ s with world := s.world.setFile l [] }, .error (.unencodable e))
        | .ok bytes =>
          (({ s with world := s.world.setFile l bytes } : Session).log (generated outcome.path),
            .ok outcome) := by
  rw [write, World.writeText_eq updated hl hf]
  by_cases hlocked : l ∈ s.world.locked
  · simp only [hlocked, if_true]
    rfl
  · simp only [hlocked, if_false]
    cases Utf8.encode updated <;> rfl

theorem setFile_touches (hf : s.world.tree.get? l = some (.file former)) (bytes : Utf8.Bytes) :
    Touches (· = l) s { s with world := s.world.setFile l bytes } :=
  have hset := World.setFile_sameBut bytes hf
  ⟨rfl, hset.mono fun _ h => .inr h, hset.growsBut⟩

theorem write_touches (hopen : s.LogIsOpen) (outcome : Outcome)
    (hl : s.world.locate outcome.path = .ok l) (hf : s.world.tree.get? l = some (.file former))
    (updated : Text) : Touches (· = l) s (write s outcome updated).1 := by
  rw [write_eq outcome hl hf]
  split
  · exact (Session.log_touches hopen _).of_nowhere
  · cases Utf8.encode updated with
    | error e => exact setFile_touches hf []
    | ok bytes =>
      have hset := setFile_touches hf bytes
      exact hset.trans (Session.log_touches (hset.logIsOpen hopen) _).of_nowhere

theorem write_bytes? (hopen : s.LogIsOpen) (outcome : Outcome)
    (hl : s.world.locate outcome.path = .ok l) (hf : s.world.tree.get? l = some (.file former))
    (hlog : s.logFile? ≠ some l) (updated : Text) :
    (write s outcome updated).1.world.tree.bytes? l =
      some (if l ∈ s.world.locked then former else stored updated) := by
  have hbytes : s.world.tree.bytes? l = some former := Tree.bytes?_eq_some_iff.mpr hf
  -- logging leaves the README alone, for it is not the log file
  have hlogged (s' : Session) (hs' : Touches (· = l) s s') (record : Log.Record) :
      (s'.log record).world.tree.bytes? l = s'.world.tree.bytes? l := by
    refine (Session.log_touches (hs'.logIsOpen hopen) record).world.bytes?_eq ?_
    rw [hs'.logFile?_eq]
    exact Session.untouched hlog
  have hset (bytes : Utf8.Bytes) : (s.world.setFile l bytes).tree.bytes? l = some bytes :=
    Tree.bytes?_eq_some_iff.mpr (World.get?_setFile bytes hf)
  rw [write_eq outcome hl hf]
  split
  · rw [hlogged s (.refl _ _), hbytes]
  · cases hencode : Utf8.encode updated with
    | error e => simp only [hset, stored, hencode, Except.toOption, Option.getD_none]
    | ok bytes =>
      simp only [hlogged _ (setFile_touches hf bytes), hset, stored, hencode, Except.toOption,
        Option.getD_some]

-- The session after a README without a region was noted.
def noted (s : Session) (former : Text) (path : Path) : Session :=
  if Region.hasRegion former then s else s.log (misplaced path)

theorem noted_touches (hopen : s.LogIsOpen) (former : Text) (path : Path) :
    Touches Session.nowhere s (noted s former path) := by
  unfold noted
  split
  · exact .refl _ _
  · exact Session.log_touches hopen _

-- What becomes of a component whose README holds a text.
def revise (plan : Plan) (s : Session) (outcome : Outcome) (former body : Text) :
    Session × Except FileError Outcome :=
  if plan.dryRun then
    (noted s former outcome.path,
      .ok { flagged outcome former (Region.replace former body) with
        diff := Diff.unified former (Region.replace former body) outcome.path.text })
  else
    write (noted s former outcome.path) (flagged outcome former (Region.replace former body))
      (Region.replace former body)

theorem noted_eq_logAll (s : Session) (former : Text) (path : Path) :
    noted s former path = s.logAll (misplacedIf (!Region.hasRegion former) path) := by
  rw [noted, misplacedIf]
  cases Region.hasRegion former <;> rfl

-- A README that could be read is revised.
theorem component_of_read (plan : Plan) {s : Session} {key : Text} {chars : List Char}
    (hread : s.world.readText (plan.destination key) = .ok chars) (body : Text) :
    component plan s key body = revise plan s (plan.blank key) (Text.ofChars chars) body := by
  simp only [component, look, hread, Plan.sight, Plan.remarks, Plan.revision, revise,
    noted_eq_logAll]
  by_cases hdry : plan.dryRun = true
  · simp only [hdry, if_true]
    rfl
  · simp only [hdry, if_false, Bool.false_eq_true]
    rfl

-- A component is handled by what its README holds.
theorem component_eq (plan : Plan) (s : Session) (key body : Text) :
    component plan s key body =
      match s.world.readBytes (plan.destination key) with
      | .error (.refused refusal shown) =>
        (s.log (readFailure (plan.destination key) (.file (.refused refusal shown))),
          .ok { plan.blank key with failure := some (.read (.file (.refused refusal shown))) })
      | .error e => (s, .error e)
      | .ok bytes =>
        match Utf8.decode bytes with
        | .error e =>
          (s.log (readFailure (plan.destination key) (.undecodable e)),
            .ok { plan.blank key with failure := some (.read (.undecodable e)) })
        | .ok chars =>
          revise plan s (plan.blank key) (Text.ofChars (Text.unifyLineEnds chars)) body := by
  cases hread : s.world.readBytes (plan.destination key) with
  | error e =>
    rw [component, World.readText_of_error hread]
    cases e <;> rfl
  | ok bytes =>
    cases hd : Utf8.decode bytes with
    | error e =>
      simp only [component, World.readText_of_undecodable hread hd, hd]
      rfl
    | ok chars => simp only [component_of_read plan (World.readText_of_decode hread hd), hd]

theorem revise_touches (hopen : s.LogIsOpen) (plan : Plan) (outcome : Outcome)
    (hl : s.world.locate outcome.path = .ok l) (hf : s.world.tree.get? l = some (.file former))
    (text body : Text) :
    Touches (fun m => plan.dryRun = false ∧ m = l) s (revise plan s outcome text body).1 := by
  have hnoted := noted_touches hopen text outcome.path
  rw [revise]
  split
  · exact hnoted.of_nowhere
  · rename_i hdry
    obtain ⟨bytes, hbytes⟩ := hnoted.world.exists_file hf
    have hlocate := (hnoted.world.locate_eq outcome.path).trans hl
    refine hnoted.of_nowhere.trans ((write_touches (hnoted.logIsOpen hopen)
      (flagged outcome text _) hlocate hbytes _).mono fun m hm => ?_)
    exact ⟨Bool.eq_false_iff.mpr hdry, hm⟩

theorem component_writes (hopen : s.LogIsOpen) (plan : Plan) (key body : Text) :
    Touches (plan.writes s.world key) s (component plan s key body).1 := by
  rw [component_eq]
  cases hread : s.world.readBytes (plan.destination key) with
  | error e =>
    cases e with
    | refused refusal shown => exact (Session.log_touches hopen _).of_nowhere
    | nullByte => exact .refl _ _
    | unencodable e => exact .refl _ _
  | ok bytes =>
    obtain ⟨l, hl, hf⟩ := World.readBytes_eq_ok_iff.mp hread
    cases hd : Utf8.decode bytes with
    | error e => simpa only [hd] using (Session.log_touches hopen _).of_nowhere
    | ok chars =>
      simp only [hd]
      apply (revise_touches hopen plan (plan.blank key) hl hf _ body).mono
      rintro m ⟨hdry, rfl⟩
      exact ⟨hdry, hl⟩

theorem component_touches (hopen : s.LogIsOpen) (plan : Plan) (key body : Text) :
    Touches (plan.leadsTo s.world key) s (component plan s key body).1 :=
  (component_writes hopen plan key body).mono fun _ hl => hl.2

theorem revise_snd (hopen : s.LogIsOpen) (plan : Plan) (outcome : Outcome)
    (hl : s.world.locate outcome.path = .ok l) (hf : s.world.tree.get? l = some (.file former))
    (text body : Text) :
    (revise plan s outcome text body).2 =
      plan.written outcome (l ∈ s.world.locked) text (Region.replace text body) := by
  have hnoted := noted_touches hopen text outcome.path
  obtain ⟨bytes, hbytes⟩ := hnoted.world.exists_file hf
  have hlocate := (hnoted.world.locate_eq outcome.path).trans hl
  rw [revise, Plan.written]
  by_cases hdry : plan.dryRun = true
  · rw [if_pos hdry, if_pos hdry]
  · rw [if_neg hdry, if_neg hdry, write_eq (flagged outcome text _) hlocate hbytes,
      hnoted.world.locked]
    by_cases hlocked : l ∈ s.world.locked
    · simp [hlocked, flagged]
    · simp only [hlocked, if_false, decide_false, Bool.false_eq_true]
      cases Utf8.encode (Region.replace text body) <;> rfl

theorem component_snd (hopen : s.LogIsOpen) (plan : Plan) (key body : Text) :
    (component plan s key body).2 =
      plan.verdict key body (plan.isLocked s.world key)
        (s.world.readBytes (plan.destination key)) := by
  rw [component_eq]
  unfold Plan.verdict
  cases hread : s.world.readBytes (plan.destination key) with
  | error e => cases e <;> rfl
  | ok bytes =>
    obtain ⟨l, hl, hf⟩ := World.readBytes_eq_ok_iff.mp hread
    cases hd : Utf8.decode bytes with
    | error e => simp only [hd]
    | ok chars =>
      simp only [hd, Plan.isLocked, hl, List.contains_eq_mem]
      exact revise_snd hopen plan (plan.blank key) hl hf _ body

theorem revise_bytes? (hopen : s.LogIsOpen) (plan : Plan) (outcome : Outcome)
    (hl : s.world.locate outcome.path = .ok l) (hf : s.world.tree.get? l = some (.file former))
    (hlog : s.logFile? ≠ some l) (text body : Text) :
    (revise plan s outcome text body).1.world.tree.bytes? l =
      some (if plan.isStill s.world l then former else stored (Region.replace text body)) := by
  have hnoted := noted_touches hopen text outcome.path
  have hkept : (noted s text outcome.path).world.tree.bytes? l = some former := by
    rw [hnoted.world.bytes?_eq (Session.untouched hlog),
      Tree.bytes?_eq_some_iff.mpr hf]
  have hlocate := (hnoted.world.locate_eq outcome.path).trans hl
  rw [revise, Plan.isStill_eq]
  by_cases hdry : plan.dryRun = true
  · simp [hdry, hkept]
  · rw [if_neg hdry, write_bytes? (hnoted.logIsOpen hopen) (flagged outcome text _) hlocate
      (Tree.bytes?_eq_some_iff.mp hkept) (by rwa [hnoted.logFile?_eq]), hnoted.world.locked]
    simp [hdry]

theorem component_bytes? (hopen : s.LogIsOpen) (plan : Plan) {key : Text}
    (hl : plan.leadsTo s.world key l) (hlog : s.logFile? ≠ some l) (body : Text) :
    (component plan s key body).1.world.tree.bytes? l =
      (s.world.tree.bytes? l).map fun bytes => left (plan.isStill s.world l) bytes body := by
  rw [component_eq]
  cases hread : s.world.readBytes (plan.destination key) with
  | error e =>
    have hnone : s.world.tree.bytes? l = none := by
      cases hb : s.world.tree.bytes? l with
      | none => rfl
      | some bytes =>
        rw [World.readBytes_eq_ok_iff.mpr ⟨l, hl, Tree.bytes?_eq_some_iff.mp hb⟩] at hread
        simp at hread
    cases e with
    | refused refusal shown =>
      rw [hnone]
      exact ((Session.log_touches hopen _).world.bytes?_eq (Session.untouched hlog)).trans hnone
    | nullByte => simp [hnone]
    | unencodable e => simp [hnone]
  | ok bytes =>
    obtain ⟨m, hm, hf⟩ := World.readBytes_eq_ok_iff.mp hread
    obtain rfl : l = m := Except.ok.inj (hl.symm.trans hm)
    have hbytes := Tree.bytes?_eq_some_iff.mpr hf
    rw [hbytes, Option.map_some]
    cases hd : Utf8.decode bytes with
    | error e =>
      simp only [hd, left]
      rw [(Session.log_touches hopen _).world.bytes?_eq (Session.untouched hlog),
        hbytes, ite_self]
    | ok chars =>
      simp only [hd, left]
      exact revise_bytes? hopen plan (plan.blank key) hl hf hlog _ body

end ReadmeTables.Patch
