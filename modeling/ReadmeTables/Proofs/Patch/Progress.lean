import ReadmeTables.Proofs.Patch.Tasks
/-!
What a flush keeps with every move, and so in every order of the steps of its tasks.

Main statements: a flush that ends with outcomes has one of each task, it logs what its tasks tell
in some order, and it touches no file but the READMEs of its components and the log.
-/

namespace ReadmeTables.Patch

open Session (Touches LogIsOpen)

variable {plan : Plan} {s : Session} {f : Fragments} {p q : Progress} {schedule : List Move}
  {w w' : World} {l : Location} {outcomes : List Outcome}

namespace Progress

theorem exists_split {α : Type} {items : List α} {i : Nat} {item : α} (h : items[i]? = some item) :
    ∃ front back, items = front ++ item :: back ∧
      ∀ other, items.set i other = front ++ other :: back := by
  obtain ⟨hi, rfl⟩ := List.getElem?_eq_some_iff.mp h
  refine ⟨items.take i, items.drop (i + 1), ?_, fun other => ?_⟩
  · rw [← List.drop_eq_getElem_cons hi, List.take_append_drop]
  · rw [List.set_eq_take_append_cons_drop, if_pos hi]

-- A task takes a step, or it is given up after an error, or nothing happens.
theorem move_cases (plan : Plan) (p : Progress) (m : Move) :
    p.move plan m = p ∨
      ∃ front task back, p.tasks = front ++ task :: back ∧
        ((∃ size, p.move plan m = ⟨(task.next plan size p.session).1,
            front ++ { task with stage := (task.next plan size p.session).2 } :: back,
            p.raised.or (task.next plan size p.session).2.error?⟩) ∨
          p.raised ≠ none ∧ p.move plan m =
            { p with tasks := front ++ { task with stage := task.stage.giveUp } :: back }) := by
  cases m with
  | step i size =>
    rw [move]
    split
    · rename_i task htask
      obtain ⟨front, back, hsplit, hset⟩ := exists_split htask
      refine .inr ⟨front, task, back, hsplit, .inl ⟨size, ?_⟩⟩
      simp only [advance, hset]
    · exact .inl rfl
  | giveUp i =>
    rw [move]
    split
    · rename_i task e htask hraised
      obtain ⟨front, back, hsplit, hset⟩ := exists_split htask
      refine .inr ⟨front, task, back, hsplit, .inr ⟨by simp [hraised], ?_⟩⟩
      simp only [drop, hset]
    · exact .inl rfl

-- What holds at first, and is kept when a task takes a step or is given up, holds after all moves.
theorem moves_induction (plan : Plan) {P : Progress → Prop}
    (hstep : ∀ s front task back raised size, P ⟨s, front ++ task :: back, raised⟩ →
      P ⟨(task.next plan size s).1,
        front ++ { task with stage := (task.next plan size s).2 } :: back,
        raised.or (task.next plan size s).2.error?⟩)
    (hdrop : ∀ s front task back raised, raised ≠ none → P ⟨s, front ++ task :: back, raised⟩ →
      P ⟨s, front ++ { task with stage := task.stage.giveUp } :: back, raised⟩)
    (h : P p) (schedule : List Move) : P (p.moves plan schedule) := by
  induction schedule generalizing p with
  | nil => exact h
  | cons m rest ih =>
    refine ih ?_
    obtain ⟨s, tasks, raised⟩ := p
    rcases move_cases plan ⟨s, tasks, raised⟩ m with
      hmove | ⟨front, task, back, rfl, ⟨size, hmove⟩ | ⟨hraised, hmove⟩⟩
    · rwa [hmove]
    · rw [hmove]
      exact hstep s front task back raised size h
    · rw [hmove]
      exact hdrop s front task back raised hraised h

theorem moves_append (plan : Plan) (p : Progress) (front back : List Move) :
    p.moves plan (front ++ back) = (p.moves plan front).moves plan back :=
  List.foldl_append

-- The tasks are those of the same components all along.
theorem map_entry_moves (plan : Plan) (p : Progress) (schedule : List Move) :
    (p.moves plan schedule).tasks.map Task.entry = p.tasks.map Task.entry :=
  moves_induction plan (P := fun q => q.tasks.map Task.entry = p.tasks.map Task.entry)
    (fun s front task back raised size h => by simpa using h)
    (fun s front task back raised _ h => by simpa using h) rfl schedule

-- As long as no error was raised, no task has ended with one, and none was given up.
def IsCalm (p : Progress) : Prop :=
  p.raised = none → ∀ task ∈ p.tasks, task.stage.error? = none ∧ task.stage ≠ .givenUp

theorem next_ne_givenUp {size : Nat} {task : Task} (h : task.stage ≠ .givenUp) :
    (task.next plan size s).2 ≠ .givenUp := by
  rw [Task.next]
  cases hstage : task.stage with
  | givenUp => exact (h hstage).elim
  | waiting => simp [Stage.next]
  | begun seen phase => simp [Stage.next]

theorem isCalm_moves (h : p.IsCalm) (schedule : List Move) : (p.moves plan schedule).IsCalm := by
  refine moves_induction plan (P := IsCalm) ?_ ?_ h schedule
  · intro s front task back raised size h hraised
    obtain ⟨hnone, hcalm⟩ := Option.or_eq_none_iff.mp hraised
    have hbefore := h hnone
    simp only [List.forall_mem_append, List.forall_mem_cons] at hbefore ⊢
    exact ⟨hbefore.1, ⟨hcalm, next_ne_givenUp hbefore.2.1.2⟩, hbefore.2.2⟩
  · intro s front task back raised hraised _ hnone
    exact (hraised hnone).elim

-- Of a calm flush that is over, every task has an outcome.
theorem tasks_of_result? (hcalm : p.IsCalm) (h : p.result? = some (.ok outcomes)) :
    p.raised = none ∧ List.Forall₂ (fun task outcome =>
      ∃ seen, task.stage = .begun seen (.ended (.ok outcome))) p.tasks outcomes := by
  rw [result?] at h
  split at h
  · rename_i hover
    cases hraised : p.raised with
    | some e => simp [hraised] at h
    | none =>
      simp only [hraised, Option.some.injEq, Except.ok.injEq] at h
      refine ⟨rfl, ?_⟩
      have hall := hcalm hraised
      rw [List.all_eq_true] at hover
      subst h
      generalize p.tasks = tasks at hall hover
      induction tasks with
      | nil => exact .nil
      | cons task rest ih =>
        rw [List.forall_mem_cons] at hall hover
        have hrest := ih hall.2 hover.2
        obtain ⟨seen, outcome, hstage⟩ : ∃ seen outcome,
            task.stage = .begun seen (.ended (.ok outcome)) := by
          obtain ⟨⟨hnoError, hkept⟩, -⟩ := hall
          have hdone := hover.1
          revert hnoError hkept hdone
          cases task.stage with
          | waiting => simp [Stage.isOver]
          | givenUp => simp
          | begun seen phase =>
            cases phase with
            | ended result => cases result <;> simp [Stage.error?]
            | _ => simp [Stage.isOver]
        rw [List.filterMap_cons, hstage]
        exact .cons ⟨seen, hstage⟩ hrest
  · simp at h

-- What all tasks have logged so far, one task after another.
def told (plan : Plan) (p : Progress) : List Log.Record :=
  p.tasks.flatMap fun task => task.stage.told plan task.entry.1

-- A flush under way whose tasks follow what their READMEs called for, and are where they lie.
structure IsSound (plan : Plan) (p : Progress) : Prop where
  logIsOpen : p.session.LogIsOpen
  follows : ∀ task ∈ p.tasks, task.stage.Follows plan task.entry.1 (Plan.render task.entry.2)
  placed : ∀ task ∈ p.tasks, task.stage.IsPlaced plan p.session.world task.entry.1

-- A task has a step or is given up, and the others are as they were.
theorem IsSound.next {front back : List Task} {task : Task} {raised : Option FileError}
    (h : IsSound plan ⟨s, front ++ task :: back, raised⟩) (size : Nat) :
    Touches (plan.writes s.world task.entry.1) s (task.next plan size s).1 ∧
      IsSound plan ⟨(task.next plan size s).1,
        front ++ { task with stage := (task.next plan size s).2 } :: back,
        raised.or (task.next plan size s).2.error?⟩ := by
  obtain ⟨hopen, hfollows, hplaced⟩ := h
  simp only [List.forall_mem_append, List.forall_mem_cons] at hfollows hplaced
  obtain ⟨htouches, hthere⟩ := Stage.next_touches hopen hfollows.2.1 hplaced.2.1 size
  refine ⟨htouches, htouches.logIsOpen hopen, ?_, ?_⟩
  · simp only [List.forall_mem_append, List.forall_mem_cons]
    exact ⟨hfollows.1, hfollows.2.1.next size s, hfollows.2.2⟩
  · simp only [List.forall_mem_append, List.forall_mem_cons]
    exact ⟨fun other hother => (hplaced.1 other hother).of_sameBut htouches.world, hthere,
      fun other hother => (hplaced.2.2 other hother).of_sameBut htouches.world⟩

theorem IsSound.giveUp {front back : List Task} {task : Task} {raised : Option FileError}
    (h : IsSound plan ⟨s, front ++ task :: back, raised⟩) :
    IsSound plan ⟨s, front ++ { task with stage := task.stage.giveUp } :: back, raised⟩ := by
  obtain ⟨hopen, hfollows, hplaced⟩ := h
  simp only [List.forall_mem_append, List.forall_mem_cons] at hfollows hplaced
  refine ⟨hopen, ?_, ?_⟩
  · simp only [List.forall_mem_append, List.forall_mem_cons]
    exact ⟨hfollows.1, hfollows.2.1.giveUp, hfollows.2.2⟩
  · simp only [List.forall_mem_append, List.forall_mem_cons]
    exact ⟨hplaced.1, hplaced.2.1.giveUp, hplaced.2.2⟩

-- A flush touches no file but the READMEs of its components and the log, at any moment.
theorem IsSound.moves (h : p.IsSound plan) (schedule : List Move) :
    Touches (fun l => ∃ task ∈ p.tasks, plan.writes p.session.world task.entry.1 l) p.session
      (p.moves plan schedule).session ∧ (p.moves plan schedule).IsSound plan := by
  refine (moves_induction plan (P := fun q => q.tasks.map Task.entry = p.tasks.map Task.entry ∧
    Touches (fun l => ∃ task ∈ p.tasks, plan.writes p.session.world task.entry.1 l) p.session
      q.session ∧ q.IsSound plan) ?_ ?_ ⟨rfl, .refl _ _, h⟩ schedule).2
  · rintro s front task back raised size ⟨hentries, htouches, hsound⟩
    obtain ⟨hstep, hnext⟩ := hsound.next size
    refine ⟨by simpa using hentries, htouches.trans (hstep.mono fun l hl => ?_), hnext⟩
    have hmem : task.entry ∈ p.tasks.map Task.entry := by simp [← hentries]
    obtain ⟨first, hfirst, hentry⟩ := List.mem_map.mp hmem
    rw [← hentry] at hl
    exact ⟨first, hfirst, (Plan.writes_congr htouches.world plan _ l).mp hl⟩
  · rintro s front task back raised - ⟨hentries, htouches, hsound⟩
    exact ⟨by simpa using hentries, htouches, hsound.giveUp⟩

end Progress

theorem entries_launchAnd (plan : Plan) (s : Session) (f : Fragments) (schedule : List Move) :
    (launchAnd plan s f schedule).tasks.map Task.entry = plan.selected f := by
  rw [launchAnd, Progress.map_entry_moves, launch, List.map_map]
  exact List.map_id _

theorem exists_entry_of_mem_launch {task : Task} (h : task ∈ (launch plan s f).tasks) :
    ∃ entry ∈ plan.selected f, task = ⟨entry, .waiting⟩ := by
  obtain ⟨entry, hentry, rfl⟩ := List.mem_map.mp h
  exact ⟨entry, hentry, rfl⟩

theorem launch_isSound (hopen : s.LogIsOpen) (plan : Plan) (f : Fragments) :
    (launch plan s f).IsSound plan := by
  refine ⟨(opened_touches hopen plan f).logIsOpen hopen, ?_, ?_⟩
  · intro task htask
    obtain ⟨entry, -, rfl⟩ := exists_entry_of_mem_launch htask
    trivial
  · intro task htask
    obtain ⟨entry, -, rfl⟩ := exists_entry_of_mem_launch htask
    trivial

-- A flush touches no file but the READMEs of its components and the log, in any order.
theorem launchAnd_writes (hopen : s.LogIsOpen) (plan : Plan) (f : Fragments)
    (schedule : List Move) :
    Touches (fun l => ∃ entry ∈ plan.selected f, plan.writes s.world entry.1 l) s
      (launchAnd plan s f schedule).session := by
  have hopened := opened_touches hopen plan f
  obtain ⟨htouches, -⟩ := (launch_isSound hopen plan f).moves schedule
  refine hopened.of_nowhere.trans (htouches.mono ?_)
  rintro l ⟨task, htask, hl⟩
  obtain ⟨entry, hentry, rfl⟩ := List.mem_map.mp htask
  exact ⟨entry, hentry, (Plan.writes_congr hopened.world plan _ l).mp hl⟩

theorem launchAnd_isCalm (plan : Plan) (s : Session) (f : Fragments) (schedule : List Move) :
    (launchAnd plan s f schedule).IsCalm := by
  refine Progress.isCalm_moves (fun _ task htask => ?_) schedule
  obtain ⟨entry, -, rfl⟩ := exists_entry_of_mem_launch htask
  exact ⟨rfl, by simp⟩

end ReadmeTables.Patch
