import ReadmeTables.Proofs.Patch.Progress
/-!
A flush that handles one component after the other.

Main statement: this is one of the orders in which the tasks of a flush may take their steps.
-/

namespace ReadmeTables.Patch

variable {plan : Plan} {s s' : Session} {entry : Text × List Text}
  {seen : Except ReadError (List Char)} {outcomes : List Outcome} {stage : Stage}

-- Some moves lead from one state of a flush to another.
def Progress.Reaches (plan : Plan) (p q : Progress) : Prop :=
  ∃ schedule, p.moves plan schedule = q

theorem Progress.Reaches.trans {p q r : Progress} (h : p.Reaches plan q) (h' : q.Reaches plan r) :
    p.Reaches plan r := by
  obtain ⟨first, rfl⟩ := h
  obtain ⟨second, rfl⟩ := h'
  exact ⟨first ++ second, moves_append plan p first second⟩

variable {front back : List Task} {raised : Option FileError}

theorem reaches_next (plan : Plan) (s : Session) (front back : List Task)
    (raised : Option FileError) (entry : Text × List Text) (stage : Stage) (size : Nat) :
    Progress.Reaches plan ⟨s, front ++ ⟨entry, stage⟩ :: back, raised⟩
      ⟨(stage.next plan size s entry.1 (Plan.render entry.2)).1,
        front ++ ⟨entry, (stage.next plan size s entry.1 (Plan.render entry.2)).2⟩ :: back,
        raised.or (stage.next plan size s entry.1 (Plan.render entry.2)).2.error?⟩ := by
  refine ⟨[.step front.length size], ?_⟩
  have htask : (front ++ ⟨entry, stage⟩ :: back)[front.length]? = some ⟨entry, stage⟩ := by simp
  simp only [Progress.moves, List.foldl_cons, List.foldl_nil, Progress.move, htask,
    Progress.advance, Task.next, List.set_append_right _ _ (Nat.le_refl _), Nat.sub_self,
    List.set_cons_zero]

-- A step in which no error is raised.
theorem reaches_of_next {stage' : Stage} (size : Nat)
    (h : stage.next plan size s entry.1 (Plan.render entry.2) = (s', stage'))
    (hnone : stage'.error? = none) :
    Progress.Reaches plan ⟨s, front ++ ⟨entry, stage⟩ :: back, raised⟩
      ⟨s', front ++ ⟨entry, stage'⟩ :: back, raised⟩ := by
  have hreaches := reaches_next plan s front back raised entry stage size
  rwa [h, hnone, Option.or_none] at hreaches

-- A task whose README could be opened writes all of it at once, and notes how that went.
theorem reaches_write (plan : Plan) (s : Session) (outcome : Outcome) (updated : Text) :
    Progress.Reaches plan
      ⟨s, front ++ ⟨entry, .begun seen (.ready outcome updated)⟩ :: back, raised⟩
      ⟨(write s outcome updated).1,
        front ++ ⟨entry, .begun seen (.ended (write s outcome updated).2)⟩ :: back,
        raised.or (Stage.begun seen (.ended (write s outcome updated).2)).error?⟩ := by
  have hnoted (s : Session) (result : Except FileError Unit) : Progress.Reaches plan
      ⟨s, front ++ ⟨entry, .begun seen (.written outcome result)⟩ :: back, raised⟩
      ⟨(note s outcome result).1,
        front ++ ⟨entry, .begun seen (.ended (note s outcome result).2)⟩ :: back,
        raised.or (Stage.begun seen (.ended (note s outcome result).2)).error?⟩ :=
    reaches_next plan s front back raised entry (.begun seen (.written outcome result)) 0
  rw [write, World.writeText]
  cases hopened : s.world.openToWrite outcome.path with
  | error e =>
    refine (reaches_of_next 0 ?_ rfl).trans (hnoted s (.error e))
    simp only [Stage.next, Phase.next, hopened]
  | ok opened =>
    obtain ⟨world, l⟩ := opened
    cases hencode : Utf8.encode updated with
    | error e =>
      refine (reaches_of_next 0 ?_ rfl).trans (hnoted { s with world := world } _)
      simp only [Stage.next, Phase.next, hopened, Phase.opened, hencode]
    | ok bytes =>
      have hopening : Stage.next plan 0 s entry.1 (Plan.render entry.2)
          (.begun seen (.ready outcome updated)) =
            ({ s with world := world }, .begun seen (.writing outcome l [] bytes)) := by
        simp only [Stage.next, Phase.next, hopened, Phase.opened, hencode]
      have hwriting : Stage.next plan bytes.length { s with world := world } entry.1
          (Plan.render entry.2) (.begun seen (.writing outcome l [] bytes)) =
            ({ s with world := world.writeAt l 0 bytes },
              .begun seen (.written outcome (.ok ()))) := by
        have hall : bytes.take (bytes.length + 1) = bytes :=
          List.take_of_length_le (Nat.le_succ _)
        have hnone : bytes.drop (bytes.length + 1) = [] := List.drop_of_length_le (Nat.le_succ _)
        simp only [Stage.next, Phase.next, hall, hnone, if_true, List.length_nil]
      exact ((reaches_of_next _ hopening rfl).trans (reaches_of_next _ hwriting rfl)).trans
        (hnoted { s with world := world.writeAt l 0 bytes } (.ok ()))

-- A task may do all that its component calls for before another one has a step.
theorem reaches_component (plan : Plan) (s : Session) (front back : List Task)
    (raised : Option FileError) (entry : Text × List Text) :
    ∃ seen, Progress.Reaches plan ⟨s, front ++ ⟨entry, .waiting⟩ :: back, raised⟩
      ⟨(component plan s entry.1 (Plan.render entry.2)).1,
        front ++ ⟨entry, .begun seen
          (.ended (component plan s entry.1 (Plan.render entry.2)).2)⟩ :: back,
        raised.or (Stage.begun seen
          (.ended (component plan s entry.1 (Plan.render entry.2)).2)).error?⟩ := by
  have hread : Stage.next plan 0 s entry.1 (Plan.render entry.2) .waiting =
      (s, .begun (s.world.readText (plan.destination entry.1)) .read) := rfl
  refine ⟨s.world.readText (plan.destination entry.1), (reaches_of_next 0 hread rfl).trans ?_⟩
  have hlooked := reaches_next plan s front back raised entry
    (.begun (s.world.readText (plan.destination entry.1)) .read) 0
  simp only [Stage.next, Phase.next, look] at hlooked
  simp only [component, look]
  cases hsight : plan.sight entry.1 (Plan.render entry.2)
    (s.world.readText (plan.destination entry.1)) with
  | settled result =>
    rw [hsight] at hlooked
    exact hlooked
  | toWrite outcome updated =>
    rw [hsight] at hlooked
    rw [show Stage.error? (.begun _ (Phase.ofSight (.toWrite outcome updated))) = none from rfl,
      Option.or_none] at hlooked
    exact hlooked.trans (reaches_write plan _ outcome updated)

-- The error of a result.
def errorOf {α : Type} : Except FileError α → Option FileError
  | .error e => some e
  | .ok _ => none

theorem error?_of_ended (seen : Except ReadError (List Char)) (result : Except FileError Outcome) :
    (Stage.begun seen (.ended result)).error? = errorOf result := by
  cases result <;> rfl

theorem errorOf_gather_cons (result : Except FileError Outcome)
    (rest : List (Except FileError Outcome)) :
    errorOf (gather (result :: rest)) = (errorOf result).or (errorOf (gather rest)) := by
  cases result with
  | error e => rfl
  | ok outcome =>
    rw [gather]
    cases gather rest <;> rfl

theorem reaches_components (plan : Plan) (s : Session) (front : List Task)
    (raised : Option FileError) (entries : List (Text × List Text)) :
    ∃ tasks, Progress.Reaches plan ⟨s, front ++ entries.map fun entry => ⟨entry, .waiting⟩, raised⟩
        ⟨(components plan s entries).1, front ++ tasks,
          raised.or (errorOf (gather (components plan s entries).2))⟩ ∧
      List.Forall₂ (fun task result => ∃ seen, task.stage = .begun seen (.ended result)) tasks
        (components plan s entries).2 := by
  induction entries generalizing s front raised with
  | nil => exact ⟨[], ⟨[], by simp [components, gather, errorOf, Progress.moves]⟩, .nil⟩
  | cons entry rest ih =>
    obtain ⟨seen, hfirst⟩ := reaches_component plan s front
      (rest.map fun entry => ⟨entry, .waiting⟩) raised entry
    let result := (component plan s entry.1 (Plan.render entry.2)).2
    let first : Task := ⟨entry, .begun seen (.ended result)⟩
    obtain ⟨tasks, hrest, hended⟩ := ih (component plan s entry.1 (Plan.render entry.2)).1
      (front ++ [first]) (raised.or first.stage.error?)
    rw [List.append_assoc, List.append_assoc] at hrest
    refine ⟨first :: tasks, ?_, .cons ⟨seen, rfl⟩ hended⟩
    have hraised : raised.or (errorOf (gather (components plan s (entry :: rest)).2)) =
        (raised.or first.stage.error?).or (errorOf (gather (components plan
          (component plan s entry.1 (Plan.render entry.2)).1 rest).2)) := by
      rw [Option.or_assoc, error?_of_ended]
      exact congrArg raised.or (errorOf_gather_cons result _)
    rw [hraised]
    exact hfirst.trans hrest

theorem outcomes_of_ended {tasks : List Task}
    (h : List.Forall₂ (fun task outcome => ∃ seen, task.stage = .begun seen (.ended (.ok outcome)))
      tasks outcomes) : (tasks.filterMap fun task => task.stage.outcome?) = outcomes := by
  induction h with
  | nil => rfl
  | cons hfirst _ ih =>
    obtain ⟨seen, hstage⟩ := hfirst
    rw [List.filterMap_cons, hstage, ih]
    rfl

theorem result?_of_ended {tasks : List Task} {results : List (Except FileError Outcome)}
    (h : List.Forall₂ (fun task result => ∃ seen, task.stage = .begun seen (.ended result)) tasks
      results) (s : Session) :
    (⟨s, tasks, errorOf (gather results)⟩ : Progress).result? = some (gather results) := by
  have hover : (tasks.all fun task => task.stage.isOver) = true := by
    induction h with
    | nil => rfl
    | cons hfirst _ ih =>
      obtain ⟨seen, hstage⟩ := hfirst
      rw [List.all_cons, ih, hstage]
      rfl
  rw [Progress.result?, if_pos hover]
  cases hgathered : gather results with
  | error e => rfl
  | ok outcomes =>
    obtain rfl := gather_eq_ok_iff.mp hgathered
    simp only [errorOf, outcomes_of_ended (List.forall₂_map_right_iff.mp h)]

-- Handling one component after the other is one of the orders of a flush.
theorem flush_flushes (plan : Plan) (s : Session) (f : Fragments) :
    Flushes plan s f (flush plan s f).1 (flush plan s f).2 := by
  obtain ⟨tasks, ⟨schedule, hschedule⟩, hended⟩ :=
    reaches_components plan (opened plan s f) [] none (plan.selected f)
  simp only [List.nil_append, Option.none_or] at hschedule
  refine ⟨schedule, ?_, ?_⟩
  · exact congrArg Progress.session hschedule
  · exact (congrArg Progress.result? hschedule).trans (result?_of_ended hended _)

theorem flushes_of_flush {f : Fragments} {result : Except FileError (List Outcome)}
    (h : flush plan s f = (s', result)) : Flushes plan s f s' result := by
  have hflushes := flush_flushes plan s f
  rwa [h] at hflushes

end ReadmeTables.Patch
