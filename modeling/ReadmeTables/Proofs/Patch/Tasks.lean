import ReadmeTables.Patch.Tasks
import ReadmeTables.Proofs.Patch.Turns
/-!
What the tasks of a flush do, whatever the order of their steps.

A task follows what its README called for when it was read, and others have no part in that. Main
statements: a flush touches no file but the READMEs of its components and the log, and what it
logs is what its tasks tell, one by one, in some order.
-/

namespace ReadmeTables.Patch

open Session (Touches LogIsOpen)

variable {plan : Plan} {s s' : Session} {w w' : World} {key body updated : Text}
  {seen : Except ReadError (List Char)} {outcome : Outcome} {phase : Phase} {stage : Stage}
  {size : Nat} {l : Location}

-- A task follows what its README called for when it was read.
inductive Phase.Follows (plan : Plan) (key body : Text) (seen : Except ReadError (List Char)) :
    Phase → Prop where
  | read : Follows plan key body seen .read
  | ready {outcome : Outcome} {updated : Text}
      (h : plan.sight key body seen = .toWrite outcome updated) :
      Follows plan key body seen (.ready outcome updated)
  | writing {outcome : Outcome} {updated : Text} {location : Location} {done rest : Utf8.Bytes}
      (h : plan.sight key body seen = .toWrite outcome updated)
      (hencode : Utf8.encode updated = .ok (done ++ rest)) :
      Follows plan key body seen (.writing outcome location done rest)
  | written {outcome : Outcome} {updated : Text} (result : Except FileError Unit)
      (h : plan.sight key body seen = .toWrite outcome updated) :
      Follows plan key body seen (.written outcome result)
  | ended {result : Except FileError Outcome} (h : (plan.sight key body seen).Ends result) :
      Follows plan key body seen (.ended result)

theorem Phase.follows_ofSight :
    (ofSight (plan.sight key body seen)).Follows plan key body seen := by
  cases h : plan.sight key body seen with
  | settled result => exact .ended (h ▸ .settled result)
  | toWrite outcome updated => exact .ready h

theorem Phase.follows_opened (h : plan.sight key body seen = .toWrite outcome updated)
    (l : Location) : (opened outcome updated l).Follows plan key body seen := by
  rw [opened]
  cases hencode : Utf8.encode updated with
  | error e => exact .written _ h
  | ok bytes => exact .writing h hencode

theorem Phase.Follows.next (h : phase.Follows plan key body seen) (size : Nat) (s : Session) :
    (phase.next plan size s key body seen).2.Follows plan key body seen := by
  cases h with
  | read => exact follows_ofSight
  | ready h =>
    rw [Phase.next]
    split
    · exact .written _ h
    · exact follows_opened h _
  | writing h hencode =>
    simp only [Phase.next]
    split
    · exact .written _ h
    · refine .writing h ?_
      rw [List.append_assoc, List.take_append_drop, hencode]
  | written result h => exact .ended (h ▸ .written _ _ result)
  | ended h => exact .ended h

theorem Phase.Follows.ends {result : Except FileError Outcome}
    (h : (Phase.ended result).Follows plan key body seen) :
    (plan.sight key body seen).Ends result := by
  cases h with
  | ended h => exact h

-- What a task has logged so far.
def Phase.told (plan : Plan) (key : Text) (seen : Except ReadError (List Char)) :
    Phase → List Log.Record
  | read => []
  | ended result => plan.told key seen result
  | _ => plan.remarks key seen

namespace Stage

def Follows (plan : Plan) (key body : Text) : Stage → Prop
  | begun seen phase => phase.Follows plan key body seen
  | _ => True

def told (plan : Plan) (key : Text) : Stage → List Log.Record
  | begun seen phase => phase.told plan key seen
  | _ => []

theorem Follows.next (h : stage.Follows plan key body) (size : Nat) (s : Session) :
    (stage.next plan size s key body).2.Follows plan key body := by
  cases stage with
  | waiting => exact .read
  | begun seen phase => exact Phase.Follows.next h size s
  | givenUp => exact h

theorem Follows.giveUp (h : stage.Follows plan key body) : stage.giveUp.Follows plan key body := by
  cases stage with
  | begun seen phase => cases phase <;> first | exact h | trivial
  | _ => trivial

end Stage

-- The README of a component is there.
def Plan.HasReadme (plan : Plan) (w : World) (key : Text) (l : Location) : Prop :=
  plan.leadsTo w key l ∧ ∃ bytes, w.tree.get? l = some (.file bytes)

theorem Plan.HasReadme.of_sameBut {touched : Location → Prop} (h : plan.HasReadme w key l)
    (hw : World.SameBut touched w w') : plan.HasReadme w' key l := by
  obtain ⟨hl, bytes, hbytes⟩ := h
  exact ⟨(leadsTo_congr hw plan key l).mpr hl, hw.exists_file hbytes⟩

theorem Plan.HasReadme.readBytes (h : plan.HasReadme w key l) :
    ∃ bytes, w.tree.get? l = some (.file bytes) ∧
      w.readBytes (plan.destination key) = .ok bytes := by
  obtain ⟨hl, bytes, hbytes⟩ := h
  exact ⟨bytes, hbytes, World.readBytes_eq_ok_iff.mpr ⟨l, hl, hbytes⟩⟩

theorem Plan.exists_hasReadme_of_readText {chars : List Char}
    (h : w.readText (plan.destination key) = .ok chars) : ∃ l, plan.HasReadme w key l := by
  obtain ⟨bytes, -, hread, -⟩ := World.readText_eq_ok_iff.mp h
  obtain ⟨l, hl, hbytes⟩ := World.readBytes_eq_ok_iff.mp hread
  exact ⟨l, hl, bytes, hbytes⟩

-- Where a task writes to.
def Phase.location? : Phase → Option Location
  | writing _ location _ _ => some location
  | _ => none

-- A README that could be read is there, and it is where the task writes to.
def Stage.IsPlaced (plan : Plan) (w : World) (key : Text) : Stage → Prop
  | begun (.ok _) phase => ∃ l, plan.HasReadme w key l ∧ ∀ m, phase.location? = some m → m = l
  | _ => True

theorem Stage.IsPlaced.of_sameBut {touched : Location → Prop} (h : stage.IsPlaced plan w key)
    (hw : World.SameBut touched w w') : stage.IsPlaced plan w' key := by
  cases stage with
  | waiting => trivial
  | givenUp => trivial
  | begun seen phase =>
    cases seen with
    | error e => trivial
    | ok chars =>
      obtain ⟨l, hl, hplace⟩ := h
      exact ⟨l, hl.of_sameBut hw, hplace⟩

theorem Stage.IsPlaced.giveUp (h : stage.IsPlaced plan w key) :
    stage.giveUp.IsPlaced plan w key := by
  cases stage with
  | begun seen phase => cases phase <;> first | exact h | trivial
  | _ => trivial

theorem Phase.location?_ofSight (sight : Sight) : (ofSight sight).location? = none := by
  cases sight <;> rfl

theorem Phase.eq_of_location?_opened {m : Location}
    (h : (opened outcome updated l).location? = some m) : m = l := by
  rw [opened] at h
  split at h
  · simp [location?] at h
  · simpa [location?] using h.symm

-- A README that is there is emptied, unless it is locked.
theorem Phase.next_ready (hsight : plan.sight key body seen = .toWrite outcome updated)
    (hl : plan.leadsTo s.world key l) {former : Utf8.Bytes}
    (hformer : s.world.tree.get? l = some (.file former)) (size : Nat) :
    (ready outcome updated).next plan size s key body seen =
      if l ∈ s.world.locked then
        (s, .written outcome (.error (.refused .locked outcome.path.text)))
      else ({ s with world := s.world.setFile l [] }, opened outcome updated l) := by
  obtain ⟨-, chars, -, -, rfl⟩ := Plan.toWrite_cases hsight
  have hopened := World.openToWrite_eq hl hformer
  by_cases hlocked : l ∈ s.world.locked
  · rw [if_pos hlocked] at hopened ⊢
    simp only [next, flagged, Plan.blank, hopened]
  · rw [if_neg hlocked] at hopened ⊢
    simp only [next, flagged, Plan.blank, hopened]

-- A step touches no file but the README of the task and the log.
theorem Phase.next_touches (hopen : s.LogIsOpen) (hfollows : phase.Follows plan key body seen)
    (hplaced : (Stage.begun seen phase).IsPlaced plan s.world key) (size : Nat) :
    Touches (plan.writes s.world key) s (phase.next plan size s key body seen).1 ∧
      (Stage.begun seen (phase.next plan size s key body seen).2).IsPlaced plan
        (phase.next plan size s key body seen).1.world key := by
  have hlogged (records : List Log.Record) (after : Phase) (hnone : after.location? = none) :
      Touches (plan.writes s.world key) s (s.logAll records) ∧
        (Stage.begun seen after).IsPlaced plan (s.logAll records).world key := by
    have htouches := Session.logAll_touches hopen records
    refine ⟨htouches.of_nowhere, ?_⟩
    cases seen with
    | error e => trivial
    | ok chars =>
      obtain ⟨l, hl, -⟩ := hplaced
      exact ⟨l, hl.of_sameBut htouches.world, by simp [hnone]⟩
  have hwritten {outcome : Outcome} {updated : Text} {l : Location}
      (hsight : plan.sight key body seen = .toWrite outcome updated)
      (hl : plan.HasReadme s.world key l) (bytes : Utf8.Bytes) :
      Touches (plan.writes s.world key) s { s with world := s.world.setFile l bytes } ∧
        plan.HasReadme (s.world.setFile l bytes) key l := by
    obtain ⟨former, hformer⟩ := hl.2
    have htouches := setFile_touches hformer bytes
    refine ⟨htouches.mono fun m hm => ?_, hl.of_sameBut htouches.world⟩
    exact ⟨(Plan.toWrite_cases hsight).1, hm ▸ hl.1⟩
  cases hfollows with
  | read => exact hlogged _ _ (location?_ofSight _)
  | ready hsight =>
    obtain ⟨-, chars, rfl, -, -⟩ := Plan.toWrite_cases hsight
    obtain ⟨l, hl, -⟩ := hplaced
    obtain ⟨former, hformer⟩ := hl.2
    rw [next_ready hsight hl.1 hformer]
    by_cases hlocked : l ∈ s.world.locked
    · rw [if_pos hlocked]
      exact ⟨.refl _ _, l, hl, by simp [location?]⟩
    · rw [if_neg hlocked]
      obtain ⟨htouches, hthere⟩ := hwritten hsight hl []
      exact ⟨htouches, l, hthere, fun m hm => eq_of_location?_opened hm⟩
  | writing hsight hencode =>
    obtain ⟨-, chars, rfl, -, -⟩ := Plan.toWrite_cases hsight
    obtain ⟨l, hl, hplace⟩ := hplaced
    obtain rfl := hplace _ rfl
    obtain ⟨htouches, hthere⟩ := hwritten hsight hl _
    refine ⟨htouches, _, hthere, fun m hm => ?_⟩
    simp only [next] at hm
    split at hm
    · simp [location?] at hm
    · simpa [location?] using hm.symm
  | written result hsight => exact hlogged _ _ rfl
  | ended hends => exact ⟨.refl _ _, hplaced⟩

theorem Stage.next_touches (hopen : s.LogIsOpen) (hfollows : stage.Follows plan key body)
    (hplaced : stage.IsPlaced plan s.world key) (size : Nat) :
    Touches (plan.writes s.world key) s (stage.next plan size s key body).1 ∧
      (stage.next plan size s key body).2.IsPlaced plan
        (stage.next plan size s key body).1.world key := by
  cases stage with
  | waiting =>
    refine ⟨.refl _ _, ?_⟩
    cases hread : s.world.readText (plan.destination key) with
    | error e => simp only [next, hread, IsPlaced]
    | ok chars =>
      obtain ⟨l, hl⟩ := Plan.exists_hasReadme_of_readText hread
      simp only [next, hread]
      exact ⟨l, hl, by simp [Phase.location?]⟩
  | begun seen phase => exact Phase.next_touches hopen hfollows hplaced size
  | givenUp => exact ⟨.refl _ _, trivial⟩

end ReadmeTables.Patch
