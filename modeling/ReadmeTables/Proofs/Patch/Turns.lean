import Mathlib.Data.List.Forall2
import ReadmeTables.Proofs.Logging
import ReadmeTables.Proofs.Patch.Flush
import ReadmeTables.Proofs.Region
/-!
A flush, one turn after another.

Each component has its turn in the world that the components before it left. Main statement: the
outcomes of a flush are those of its turns, and it logs how many components were skipped and then,
turn by turn, whether the README has no region and how the component ended.
-/

namespace ReadmeTables.Patch

variable {s s' : Session} {plan : Plan} {outcome : Outcome} {outcomes : List Outcome}
  {former body updated : Text}

-- The components, each with the world in which its turn comes.
def turns (plan : Plan) : Session → List (Text × List Text) → List (World × Text × List Text)
  | _, [] => []
  | s, entry :: rest =>
    (s.world, entry) :: turns plan (component plan s entry.1 (Plan.render entry.2)).1 rest

theorem components_turns (hopen : s.LogIsOpen) (plan : Plan) (entries : List (Text × List Text)) :
    List.Forall₂ (fun turn result => plan.outcomeIn turn.1 turn.2 = result) (turns plan s entries)
      (components plan s entries).2 := by
  induction entries generalizing s with
  | nil => exact .nil
  | cons entry rest ih =>
    have hstep := component_touches hopen plan entry.1 (Plan.render entry.2)
    have hsnd : (component plan s entry.1 (Plan.render entry.2)).2 = plan.outcomeIn s.world entry :=
      component_snd hopen plan entry.1 (Plan.render entry.2)
    exact .cons hsnd.symm (ih (hstep.logIsOpen hopen))

theorem flush_turns (hopen : s.LogIsOpen) {f : Fragments}
    (h : flush plan s f = (s', .ok outcomes)) :
    List.Forall₂ (fun turn outcome => plan.outcomeIn turn.1 turn.2 = .ok outcome)
      (turns plan (opened plan s f) (plan.selected f)) outcomes := by
  have hturns := components_turns ((opened_touches hopen plan f).logIsOpen hopen) plan
    (plan.selected f)
  have hgathered := gather_eq_ok_iff.mp (congrArg Prod.snd (flush_eq plan s f ▸ h))
  rw [hgathered] at hturns
  exact List.forall₂_map_right_iff.mp hturns

-- A README could be read and has no region.
def lacksRegion : Except ReadError (List Char) → Bool
  | .error _ => false
  | .ok chars => !Region.hasRegion (Text.ofChars chars)

-- So it is with the README of a component when its turn comes.
def Plan.lacksRegion (plan : Plan) (turn : World × Text × List Text) : Bool :=
  Patch.lacksRegion (turn.1.readText (plan.destination turn.2.1))

-- The record of how a component ended. There is none for a README that was only looked at.
def Outcome.ending? (outcome : Outcome) : Option Log.Record :=
  match outcome.failure with
  | some (.read error) => some (readFailure outcome.path error)
  | some (.write error) => some (writeFailure outcome.path error)
  | none => if outcome.dryRun then none else some (generated outcome.path)

-- The records of a component whose turn has come.
def Plan.recordsOf (plan : Plan) (turn : World × Text × List Text) (outcome : Outcome) :
    List Log.Record :=
  misplacedIf (plan.lacksRegion turn) outcome.path ++ outcome.ending?.toList

-- An outcome is that of the component whose turn it was.
structure Plan.Settles (plan : Plan) (turn : World × Text × List Text) (outcome : Outcome) :
    Prop where
  key : outcome.key = turn.2.1
  path : outcome.path = plan.destination turn.2.1
  dryRun : outcome.dryRun = plan.dryRun
  unread (error : ReadError) : outcome.failure = some (.read error) ↔
    turn.1.readText (plan.destination turn.2.1) = .error error
  unwritten : plan.dryRun = true → ∀ error, outcome.failure ≠ some (.write error)
  unchanged : plan.lacksRegion turn = true → outcome.changed = false

theorem exists_right_of_mem {α β : Type} {R : α → β → Prop} {as : List α} {bs : List β}
    (h : List.Forall₂ R as bs) {a : α} (ha : a ∈ as) : ∃ b, R a b := by
  induction h with
  | nil => simp at ha
  | cons hfirst _ ih =>
    rcases List.mem_cons.mp ha with rfl | hrest
    · exact ⟨_, hfirst⟩
    · exact ih hrest

theorem exists_turn_of_mem {settled : List (World × Text × List Text)}
    (h : List.Forall₂ plan.Settles settled outcomes) (houtcome : outcome ∈ outcomes) :
    ∃ turn, plan.Settles turn outcome :=
  exists_right_of_mem h.flip houtcome

variable {w : World} {key : Text} {seen : Except ReadError (List Char)}

theorem Plan.toWrite_cases (h : plan.sight key body seen = .toWrite outcome updated) :
    plan.dryRun = false ∧ ∃ chars, seen = .ok chars ∧
      updated = Region.replace (Text.ofChars chars) body ∧
      outcome = flagged (plan.blank key) (Text.ofChars chars) updated := by
  cases seen with
  | ok chars =>
    rw [sight, revision] at h
    by_cases hdry : plan.dryRun = true
    · simp [hdry] at h
    · simp only [hdry, if_false, Bool.false_eq_true] at h
      obtain ⟨rfl, rfl⟩ := Sight.toWrite.inj h
      exact ⟨Bool.eq_false_iff.mpr hdry, chars, rfl, rfl, rfl⟩
  | error error =>
    cases error with
    | undecodable e => simp [sight] at h
    | file e => cases e <;> simp [sight] at h

-- A README was only to be looked at, or could not be read.
theorem Plan.settled_cases {result : Except FileError Outcome}
    (h : plan.sight key body seen = .settled result) :
    (plan.dryRun = true ∧ ∃ chars diff, seen = .ok chars ∧
      result = .ok { flagged (plan.blank key) (Text.ofChars chars)
        (Region.replace (Text.ofChars chars) body) with diff := diff }) ∨
    (∃ error, seen = .error error ∧
      result = .ok { plan.blank key with failure := some (.read error) }) ∨
    ∃ e, seen = .error (.file e) ∧ result = .error e := by
  cases seen with
  | ok chars =>
    rw [sight, revision] at h
    by_cases hdry : plan.dryRun = true
    · simp only [hdry, if_true] at h
      exact .inl ⟨hdry, chars, _, rfl, (Sight.settled.inj h).symm⟩
    · simp [hdry] at h
  | error error =>
    cases error with
    | undecodable e => exact .inr (.inl ⟨_, rfl, (Sight.settled.inj h).symm⟩)
    | file e =>
      cases e with
      | refused refusal shown => exact .inr (.inl ⟨_, rfl, (Sight.settled.inj h).symm⟩)
      | nullByte => exact .inr (.inr ⟨_, rfl, (Sight.settled.inj h).symm⟩)
      | unencodable e => exact .inr (.inr ⟨_, rfl, (Sight.settled.inj h).symm⟩)

theorem Outcome.concluded_cases {ended : Outcome} {result : Except FileError Unit}
    (h : outcome.concluded result = .ok ended) :
    ended = outcome ∨ ∃ error, ended = { outcome with failure := some (.write error) } := by
  cases result with
  | ok done => exact .inl (Except.ok.inj h).symm
  | error e =>
    rw [concluded] at h
    split at h
    · exact .inr ⟨e, (Except.ok.inj h).symm⟩
    · simp at h

-- How a component may end by what its README called for.
inductive Sight.Ends : Sight → Except FileError Outcome → Prop where
  | settled (result : Except FileError Outcome) : Ends (.settled result) result
  | written (outcome : Outcome) (updated : Text) (result : Except FileError Unit) :
    Ends (.toWrite outcome updated) (outcome.concluded result)

-- The step of a flush: a component that ends by what its README called for settles its turn.
theorem Sight.Ends.settles {entry : Text × List Text}
    (h : (plan.sight entry.1 (Plan.render entry.2)
      (w.readText (plan.destination entry.1))).Ends (.ok outcome)) :
    plan.Settles (w, entry) outcome := by
  generalize hsight : plan.sight entry.1 (Plan.render entry.2)
    (w.readText (plan.destination entry.1)) = sight at h
  generalize hresult : (Except.ok outcome : Except FileError Outcome) = result at h
  -- without a region the text stays as it is
  have hstill (chars : List Char) (hseen : w.readText (plan.destination entry.1) = .ok chars)
      (hlacks : plan.lacksRegion (w, entry) = true) :
      Region.replace (Text.ofChars chars) (Plan.render entry.2) = Text.ofChars chars := by
    simp only [Plan.lacksRegion, Patch.lacksRegion, hseen, Bool.not_eq_true'] at hlacks
    exact Region.replace_of_not_hasRegion hlacks _
  cases h with
  | settled result =>
    subst hresult
    rcases Plan.settled_cases hsight with
      ⟨hdry, chars, diff, hseen, houtcome⟩ | ⟨error, hseen, houtcome⟩ | ⟨e, -, houtcome⟩
    · obtain rfl := Except.ok.inj houtcome
      refine ⟨rfl, rfl, rfl, fun error => ?_, by simp [flagged, Plan.blank], fun hlacks => ?_⟩
      · simp [hseen, flagged, Plan.blank]
      · simp [flagged, hstill chars hseen hlacks]
    · obtain rfl := Except.ok.inj houtcome
      refine ⟨rfl, rfl, rfl, fun other => ?_, by simp, fun hlacks => rfl⟩
      simp [hseen]
    · simp at houtcome
  | written planned updated result =>
    obtain ⟨hdry, chars, hseen, rfl, rfl⟩ := Plan.toWrite_cases hsight
    rcases Outcome.concluded_cases hresult.symm with rfl | ⟨error, rfl⟩
    · refine ⟨rfl, rfl, rfl, fun error => ?_, by simp [hdry], fun hlacks => ?_⟩
      · simp [hseen, flagged, Plan.blank]
      · simp [flagged, hstill chars hseen hlacks]
    · refine ⟨rfl, rfl, rfl, fun error => ?_, by simp [hdry], fun hlacks => ?_⟩
      · simp [hseen]
      · simp [flagged, hstill chars hseen hlacks]

-- What has been logged about a component that has ended.
def Plan.told (plan : Plan) (key : Text) (seen : Except ReadError (List Char))
    (result : Except FileError Outcome) : List Log.Record :=
  misplacedIf (Patch.lacksRegion seen) (plan.destination key) ++
    (result.toOption.bind Outcome.ending?).toList

theorem Plan.remarks_of_settled {result : Except FileError Outcome}
    (h : plan.sight key body seen = .settled result) :
    plan.remarks key seen = plan.told key seen result := by
  rcases settled_cases h with ⟨hdry, chars, diff, rfl, rfl⟩ | ⟨error, rfl, rfl⟩ | ⟨e, rfl, rfl⟩
  · simp [remarks, told, Patch.lacksRegion, Except.toOption, Outcome.ending?, flagged, blank, hdry]
  · cases error with
    | undecodable e => rfl
    | file e => cases e <;> first | rfl | simp [sight] at h
  · cases e <;> first | rfl | simp [sight] at h

-- A README was to be written, so there is a record of how that went unless it ends the flush.
theorem Plan.told_concluded (h : plan.sight key body seen = .toWrite outcome updated)
    (result : Except FileError Unit) :
    plan.told key seen (outcome.concluded result) =
      plan.remarks key seen ++ outcome.closing result := by
  obtain ⟨hdry, chars, rfl, -, rfl⟩ := toWrite_cases h
  cases result with
  | ok done =>
    simp [told, remarks, Patch.lacksRegion, Outcome.concluded, Outcome.closing, Except.toOption,
      Outcome.ending?, flagged, blank, hdry]
  | error e =>
    by_cases hnoted : isNoted e = true
    · simp [told, remarks, Patch.lacksRegion, Outcome.concluded, Outcome.closing, Except.toOption,
        Outcome.ending?, flagged, blank, hnoted]
    · simp [told, remarks, Patch.lacksRegion, Outcome.concluded, Outcome.closing, Except.toOption,
        hnoted]

-- All records of a flush are the program's own.
theorem logAll_logs (s : Session) {records : List Log.Record}
    (h : ∀ record ∈ records, record.source = Log.patching) : s.Logs (s.logAll records) records := by
  refine Session.logAll_logs s fun record hrecord => ?_
  rw [h record hrecord]
  decide

theorem source_of_mem_remarks {record : Log.Record} (h : record ∈ plan.remarks key seen) :
    record.source = Log.patching := by
  cases seen with
  | ok chars =>
    rw [Plan.remarks, misplacedIf] at h
    split at h
    · rw [List.mem_singleton.mp h]
      rfl
    · simp at h
  | error error =>
    cases error with
    | undecodable e =>
      rw [List.mem_singleton.mp h]
      rfl
    | file e =>
      cases e with
      | refused refusal shown =>
        rw [List.mem_singleton.mp h]
        rfl
      | nullByte => simp [Plan.remarks] at h
      | unencodable e => simp [Plan.remarks] at h

theorem source_of_mem_closing {record : Log.Record} {result : Except FileError Unit}
    (h : record ∈ outcome.closing result) : record.source = Log.patching := by
  cases result with
  | ok done =>
    rw [List.mem_singleton.mp h]
    rfl
  | error e =>
    rw [Outcome.closing] at h
    split at h
    · rw [List.mem_singleton.mp h]
      rfl
    · simp at h

-- A component ends by what its README called for, and what is told about it is logged.
theorem component_ends (plan : Plan) (s : Session) (key body : Text) :
    (plan.sight key body (s.world.readText (plan.destination key))).Ends
        (component plan s key body).2 ∧
      s.Logs (component plan s key body).1 (plan.told key
        (s.world.readText (plan.destination key)) (component plan s key body).2) := by
  have hlooked : s.Logs (s.logAll (plan.remarks key (s.world.readText (plan.destination key))))
      (plan.remarks key (s.world.readText (plan.destination key))) :=
    logAll_logs s fun record => source_of_mem_remarks
  simp only [component, look]
  cases hsight : plan.sight key body (s.world.readText (plan.destination key)) with
  | settled result =>
    refine ⟨.settled result, ?_⟩
    rw [Plan.remarks_of_settled hsight] at hlooked ⊢
    exact hlooked
  | toWrite outcome updated =>
    refine ⟨.written outcome updated _, ?_⟩
    simp only [write, note]
    rw [Plan.told_concluded hsight]
    exact hlooked.trans ((Session.Logs.of_world _ _).trans
      (logAll_logs _ fun record => source_of_mem_closing))

theorem component_settles {entry : Text × List Text}
    (h : (component plan s entry.1 (Plan.render entry.2)).2 = .ok outcome) :
    plan.Settles (s.world, entry) outcome ∧
      s.Logs (component plan s entry.1 (Plan.render entry.2)).1
        (plan.recordsOf (s.world, entry) outcome) := by
  obtain ⟨hends, hlogs⟩ := component_ends plan s entry.1 (Plan.render entry.2)
  rw [h] at hends hlogs
  have hsettles := hends.settles
  refine ⟨hsettles, ?_⟩
  rw [Plan.recordsOf, hsettles.path]
  exact hlogs

-- Where an item has something to tell only if it is picked, the picked items tell all.
theorem flatMap_if {α β : Type} (items : List α) (picks : α → Bool) (tells : α → List β) :
    (items.flatMap fun item => if picks item then tells item else []) =
      (items.filter picks).flatMap tells := by
  induction items with
  | nil => rfl
  | cons item rest ih =>
    cases hpicks : picks item <;> simp [hpicks, ih]

-- The records of some turns, each with its outcome.
def Plan.recordsOfAll (plan : Plan) (settled : List ((World × Text × List Text) × Outcome)) :
    List Log.Record :=
  settled.flatMap fun (turn, outcome) => plan.recordsOf turn outcome

theorem components_settle {entries : List (Text × List Text)}
    (h : (components plan s entries).2 = outcomes.map .ok) :
    List.Forall₂ plan.Settles (turns plan s entries) outcomes ∧
      s.Logs (components plan s entries).1
        (plan.recordsOfAll ((turns plan s entries).zip outcomes)) := by
  induction entries generalizing s outcomes with
  | nil =>
    obtain rfl := List.map_eq_nil_iff.mp h.symm
    exact ⟨.nil, .refl s⟩
  | cons entry rest ih =>
    cases outcomes with
    | nil => simp [components] at h
    | cons outcome others =>
      obtain ⟨hfirst, hrest⟩ := List.cons.inj h
      obtain ⟨hsettles, hlogs⟩ := component_settles hfirst
      obtain ⟨hall, hlater⟩ := ih hrest
      exact ⟨.cons hsettles hall, hlogs.trans hlater⟩

-- How many components the filter skips.
def Plan.skippedCount (plan : Plan) (f : Fragments) : Nat :=
  (f.keys.filter fun key => !plan.selects key).length

theorem keys_selected (plan : Plan) (f : Fragments) :
    (plan.selected f).map Prod.fst = f.keys.filter plan.selects := by
  rw [Plan.selected, Fragments.keys, List.filter_map]
  rfl

theorem size_sub_length_selected (plan : Plan) (f : Fragments) :
    f.size - (plan.selected f).length = plan.skippedCount f := by
  have hsplit := List.length_eq_length_filter_add (l := f.keys) plan.selects
  rw [← keys_selected, List.length_map, Fragments.keys, List.length_map] at hsplit
  rw [Fragments.size, Plan.skippedCount, Fragments.keys]
  omega

-- What is logged about components that are skipped.
def Plan.skipRecords (plan : Plan) (f : Fragments) : List Log.Record :=
  if plan.skippedCount f = 0 then [] else [skipped plan.filter (plan.skippedCount f)]

theorem opened_logs (plan : Plan) (s : Session) (f : Fragments) :
    s.Logs (opened plan s f) (plan.skipRecords f) := by
  rw [opened, size_sub_length_selected, Plan.skipRecords]
  split
  · exact .refl s
  · change s.Logs (s.logAll [skipped plan.filter (plan.skippedCount f)]) _
    refine logAll_logs s fun record hrecord => ?_
    rw [List.mem_singleton.mp hrecord]
    rfl

-- The turns of a flush.
def flushTurns (plan : Plan) (s : Session) (f : Fragments) : List (World × Text × List Text) :=
  turns plan (opened plan s f) (plan.selected f)

-- The outcomes of a flush are those of its turns, and so are its records.
theorem flush_settles {f : Fragments} (h : flush plan s f = (s', .ok outcomes)) :
    List.Forall₂ plan.Settles (flushTurns plan s f) outcomes ∧
      s.Logs s' (plan.skipRecords f ++
        plan.recordsOfAll ((flushTurns plan s f).zip outcomes)) := by
  rw [flush_eq, Prod.mk.injEq, gather_eq_ok_iff] at h
  obtain ⟨rfl, hresults⟩ := h
  obtain ⟨hsettled, hlogs⟩ := components_settle hresults
  exact ⟨hsettled, (opened_logs plan s f).trans hlogs⟩

end ReadmeTables.Patch
