import ReadmeTables.Proofs.Failing
import ReadmeTables.Proofs.Patch.Component
/-!
What becomes of many components, one after another.

Main statements: a flush touches the READMEs of its components and the log file only, each file
takes in the bodies of its own components in their order, and whether a flush ends with outcomes
can be told from the READMEs as they were before it.
-/

namespace ReadmeTables.Patch

open Session (Touches LogIsOpen)

variable {s : Session} {l : Location}

namespace Plan

-- The bodies that go to a location, in their order.
def bodiesAt (plan : Plan) (w : World) (l : Location) (entries : List (Text × List Text)) :
    List Text :=
  (entries.filter fun entry => (w.locate (plan.destination entry.1)).toOption = some l).map
    fun entry => render entry.2

-- The outcome of an entry, as it is told from a world.
def outcomeIn (plan : Plan) (w : World) (entry : Text × List Text) : Except FileError Outcome :=
  plan.verdict entry.1 (render entry.2) (plan.isLocked w entry.1)
    (w.readBytes (plan.destination entry.1))

theorem leadsTo_iff {plan : Plan} {w : World} {key : Text} {l : Location} :
    plan.leadsTo w key l ↔ (w.locate (plan.destination key)).toOption = some l := by
  rw [leadsTo]
  cases w.locate (plan.destination key) <;> simp [Except.toOption]

theorem bodiesAt_cons_of_leadsTo {plan : Plan} {w : World} {l : Location}
    {entry : Text × List Text} (h : plan.leadsTo w entry.1 l) (rest : List (Text × List Text)) :
    plan.bodiesAt w l (entry :: rest) = render entry.2 :: plan.bodiesAt w l rest := by
  simp [bodiesAt, leadsTo_iff.mp h]

theorem bodiesAt_cons_of_not_leadsTo {plan : Plan} {w : World} {l : Location}
    {entry : Text × List Text} (h : ¬plan.leadsTo w entry.1 l) (rest : List (Text × List Text)) :
    plan.bodiesAt w l (entry :: rest) = plan.bodiesAt w l rest := by
  rw [leadsTo_iff] at h
  simp [bodiesAt, h]

theorem mem_bodiesAt_iff {plan : Plan} {w : World} {l : Location} {body : Text}
    {entries : List (Text × List Text)} :
    body ∈ plan.bodiesAt w l entries ↔
      ∃ entry ∈ entries, plan.leadsTo w entry.1 l ∧ render entry.2 = body := by
  simp only [bodiesAt, List.mem_map, List.mem_filter, decide_eq_true_eq, leadsTo_iff, and_assoc]

variable {touched : Location → Prop} {w w' : World}

theorem leadsTo_congr (h : World.SameBut touched w w') (plan : Plan) (key : Text) (l : Location) :
    plan.leadsTo w' key l ↔ plan.leadsTo w key l := by
  rw [leadsTo, leadsTo, h.locate_eq]

theorem writes_congr (h : World.SameBut touched w w') (plan : Plan) (key : Text) (l : Location) :
    plan.writes w' key l ↔ plan.writes w key l :=
  and_congr_right' (leadsTo_congr h plan key l)

theorem bodiesAt_congr (h : World.SameBut touched w w') (plan : Plan) (l : Location)
    (entries : List (Text × List Text)) :
    plan.bodiesAt w' l entries = plan.bodiesAt w l entries := by
  simp only [bodiesAt, h.locate_eq]

theorem isLocked_congr (h : World.SameBut touched w w') (plan : Plan) (key : Text) :
    plan.isLocked w' key = plan.isLocked w key := by
  simp only [isLocked, h.locate_eq, h.locked]

theorem isStill_congr (h : World.SameBut touched w w') (plan : Plan) (l : Location) :
    plan.isStill w' l = plan.isStill w l := by
  simp only [isStill, h.locked]

theorem isLocked_of_leadsTo {plan : Plan} {key : Text} {l : Location} (h : plan.leadsTo w key l) :
    plan.isLocked w key = decide (l ∈ w.locked) := by
  rw [leadsTo] at h
  simp only [isLocked, h, List.contains_eq_mem]

theorem outcomeIn_congr (h : World.SameBut touched w w') (plan : Plan) {entry : Text × List Text}
    (hentry : ∀ l, plan.leadsTo w entry.1 l → ¬touched l) :
    plan.outcomeIn w' entry = plan.outcomeIn w entry := by
  rw [outcomeIn, outcomeIn, isLocked_congr h, h.readBytes_eq hentry]

-- An outcome is that of a README that is refused, of one that is no text, or of writing one.
theorem outcomeIn_cases {plan : Plan} {entry : Text × List Text} {outcome : Outcome}
    (h : plan.outcomeIn w entry = .ok outcome) :
    (∃ refusal shown, w.readBytes (plan.destination entry.1) = .error (.refused refusal shown) ∧
      outcome = { plan.blank entry.1 with
        failure := some (.read (.file (.refused refusal shown))) }) ∨
    (∃ bytes e, w.readBytes (plan.destination entry.1) = .ok bytes ∧ Utf8.decode bytes = .error e ∧
      outcome = { plan.blank entry.1 with failure := some (.read (.undecodable e)) }) ∨
    ∃ bytes chars, w.readBytes (plan.destination entry.1) = .ok bytes ∧
      Utf8.decode bytes = .ok chars ∧
      plan.written (plan.blank entry.1) (plan.isLocked w entry.1)
        (Text.ofChars (Text.unifyLineEnds chars)) (revised chars (render entry.2)) =
        .ok outcome := by
  rw [outcomeIn] at h
  cases hread : w.readBytes (plan.destination entry.1) with
  | error e =>
    rw [hread] at h
    cases e with
    | refused refusal shown => exact .inl ⟨refusal, shown, rfl, (Except.ok.inj h).symm⟩
    | nullByte => simp [verdict] at h
    | unencodable e => simp [verdict] at h
  | ok bytes =>
    rw [hread] at h
    cases hd : Utf8.decode bytes with
    | error e =>
      simp only [verdict, hd] at h
      exact .inr (.inl ⟨bytes, e, rfl, hd, (Except.ok.inj h).symm⟩)
    | ok chars =>
      simp only [verdict, hd] at h
      exact .inr (.inr ⟨bytes, chars, rfl, hd, h⟩)

end Plan

theorem components_writes (hopen : s.LogIsOpen) (plan : Plan)
    (entries : List (Text × List Text)) :
    Touches (fun l => ∃ entry ∈ entries, plan.writes s.world entry.1 l) s
      (components plan s entries).1 := by
  induction entries generalizing s with
  | nil => exact .refl _ _
  | cons entry rest ih =>
    have hstep := component_writes hopen plan entry.1 (Plan.render entry.2)
    have hrest := ih (hstep.logIsOpen hopen)
    refine (hstep.mono ?_).trans (hrest.mono ?_)
    · intro l hl
      exact ⟨entry, List.mem_cons_self, hl⟩
    · rintro l ⟨other, hother, hl⟩
      exact ⟨other, List.mem_cons_of_mem _ hother, (Plan.writes_congr hstep.world plan _ l).mp hl⟩

-- Each file takes in the bodies that go to it.
theorem components_bytes? (hopen : s.LogIsOpen) (plan : Plan) (entries : List (Text × List Text))
    (hlog : s.logFile? ≠ some l) :
    (components plan s entries).1.world.tree.bytes? l =
      (s.world.tree.bytes? l).map
        ((plan.bodiesAt s.world l entries).foldl (left (plan.isStill s.world l))) := by
  induction entries generalizing s with
  | nil => simp [components, Plan.bodiesAt]
  | cons entry rest ih =>
    have hstep := component_touches hopen plan entry.1 (Plan.render entry.2)
    have hrest := ih (hstep.logIsOpen hopen) (by rwa [hstep.logFile?_eq])
    rw [Plan.bodiesAt_congr hstep.world, Plan.isStill_congr hstep.world] at hrest
    refine hrest.trans ?_
    by_cases hl : plan.leadsTo s.world entry.1 l
    · rw [component_bytes? hopen plan hl hlog, Plan.bodiesAt_cons_of_leadsTo hl, Option.map_map]
      rfl
    · rw [hstep.world.bytes?_eq (not_or_intro hlog hl), Plan.bodiesAt_cons_of_not_leadsTo hl]

namespace Plan

-- A component is accepted if it ends with an outcome, though that may be a failure.
def Accepts (plan : Plan) (w : World) (entry : Text × List Text) : Prop :=
  ∃ outcome, plan.outcomeIn w entry = .ok outcome

theorem accepts_iff_isOk {plan : Plan} {w : World} {entry : Text × List Text} :
    plan.Accepts w entry ↔ (plan.outcomeIn w entry).isOk = true := by
  rw [Accepts]
  cases plan.outcomeIn w entry <;> simp [Except.isOk, Except.toBool]

instance (plan : Plan) (w : World) (entry : Text × List Text) :
    Decidable (plan.Accepts w entry) :=
  decidable_of_iff' _ accepts_iff_isOk

-- The log file is the README of no component.
def LogsApart (plan : Plan) (s : Session) (entries : List (Text × List Text)) : Prop :=
  ∀ entry ∈ entries, ∀ l, plan.leadsTo s.world entry.1 l → s.logFile? ≠ some l

theorem LogsApart.of_touches {plan : Plan} {s s' : Session} {touched : Location → Prop}
    {entries : List (Text × List Text)} (h : plan.LogsApart s entries)
    (ht : Touches touched s s') : plan.LogsApart s' entries := by
  intro entry hentry l hl
  rw [ht.logFile?_eq]
  exact h entry hentry l ((leadsTo_congr ht.world plan _ l).mp hl)

theorem logsApart_of_logFile?_eq_none {plan : Plan} {s : Session} (h : s.logFile? = none)
    (entries : List (Text × List Text)) : plan.LogsApart s entries := by
  intro entry _ l _
  simp [h]

theorem exists_written_iff {plan : Plan} {outcome : Outcome} {locked : Bool}
    {former updated : Text} :
    (∃ o, plan.written outcome locked former updated = .ok o) ↔
      (plan.dryRun || locked) = true ∨ ∃ cs, updated = Text.ofChars cs := by
  rw [written]
  by_cases hdry : plan.dryRun = true
  · rw [if_pos hdry]
    simp [hdry]
  by_cases hlocked : locked = true
  · rw [if_neg hdry, if_pos hlocked]
    simp [hlocked]
  rw [if_neg hdry, if_neg hlocked]
  cases hencode : Utf8.encode updated with
  | ok bytes =>
    obtain ⟨cs, hcs, _⟩ := Utf8.encode_eq_ok_iff.mp hencode
    simp [hcs]
  | error e =>
    have hnone : ∀ cs, updated ≠ Text.ofChars cs := by
      rintro cs rfl
      simp [Utf8.encode_ofChars] at hencode
    simp [hdry, hlocked, hnone]

theorem accepts_of_file {plan : Plan} {w : World} {entry : Text × List Text} {l : Location}
    {bytes : Utf8.Bytes} (hl : plan.leadsTo w entry.1 l) (hf : w.tree.get? l = some (.file bytes)) :
    plan.Accepts w entry ↔ Storable (plan.isStill w l) bytes (render entry.2) := by
  have hread := World.readBytes_eq_ok_iff.mpr ⟨l, hl, hf⟩
  rw [Accepts, outcomeIn, hread, isLocked_of_leadsTo hl, isStill_eq, Storable]
  cases hd : Utf8.decode bytes with
  | error e => simp [verdict, hd]
  | ok chars => simp only [verdict, hd, exists_written_iff, Except.ok.injEq, forall_eq']

-- Whether a component is accepted is the same before and after another one that was.
theorem accepts_component_iff (hopen : s.LogIsOpen) (plan : Plan) {entry other : Text × List Text}
    (hother : plan.Accepts s.world other)
    (hlog : ∀ l, plan.leadsTo s.world entry.1 l → s.logFile? ≠ some l) :
    plan.Accepts (component plan s other.1 (render other.2)).1.world entry ↔
      plan.Accepts s.world entry := by
  have hstep := component_touches hopen plan other.1 (render other.2)
  -- the two may share a README; then the other body comes between, and can be stored
  by_cases hshared : ∃ l, plan.leadsTo s.world entry.1 l ∧ plan.leadsTo s.world other.1 l
  · obtain ⟨l, hl, hl'⟩ := hshared
    cases hb : s.world.tree.bytes? l with
    | none =>
      have hnone (e : Except FileError Utf8.Bytes)
          (he : e = s.world.readBytes (plan.destination entry.1)) : ∃ error, e = .error error := by
        cases e with
        | error error => exact ⟨error, rfl⟩
        | ok bytes =>
          obtain ⟨m, hm, hf⟩ := World.readBytes_eq_ok_iff.mp he.symm
          obtain rfl : l = m := Except.ok.inj (hl.symm.trans hm)
          rw [Tree.bytes?_eq_some_iff.mpr hf] at hb
          simp at hb
      obtain ⟨error, herror⟩ := hnone _ rfl
      rw [Accepts, Accepts, outcomeIn, outcomeIn, hstep.world.readBytes_error herror, herror,
        isLocked_congr hstep.world]
    | some bytes =>
      have hf := Tree.bytes?_eq_some_iff.mp hb
      have hafter := component_bytes? hopen plan hl' (hlog l hl) (render other.2)
      rw [hb, Option.map_some, Tree.bytes?_eq_some_iff] at hafter
      rw [accepts_of_file ((leadsTo_congr hstep.world plan _ l).mpr hl) hafter,
        accepts_of_file hl hf, isStill_congr hstep.world]
      exact storable_left_iff ((accepts_of_file hl' hf).mp hother) _
  · have hsame : plan.outcomeIn (component plan s other.1 (render other.2)).1.world entry =
        plan.outcomeIn s.world entry :=
      outcomeIn_congr hstep.world plan fun l hl =>
        not_or_intro (hlog l hl) fun hl' => hshared ⟨l, hl, hl'⟩
    rw [Accepts, Accepts, hsame]

end Plan

theorem gather_eq_ok_iff {results : List (Except FileError Outcome)} {outcomes : List Outcome} :
    gather results = .ok outcomes ↔ results = outcomes.map .ok := by
  induction results generalizing outcomes with
  | nil => cases outcomes <;> simp [gather]
  | cons result rest ih =>
    cases result with
    | error e => cases outcomes <;> simp [gather]
    | ok outcome =>
      rw [gather, Failing.map_eq_ok_iff]
      constructor
      · rintro ⟨others, hothers, rfl⟩
        rw [ih.mp hothers, List.map_cons]
      · intro h
        cases outcomes with
        | nil => simp at h
        | cons first others =>
          obtain ⟨hfirst, hrest⟩ := List.cons.inj h
          exact ⟨others, ih.mpr hrest, by rw [Except.ok.inj hfirst]⟩

-- A flush ends with outcomes if its components are accepted as things are before it.
theorem exists_gather_components_iff (hopen : s.LogIsOpen) (plan : Plan)
    (entries : List (Text × List Text)) (happart : plan.LogsApart s entries) :
    (∃ outcomes, gather (components plan s entries).2 = .ok outcomes) ↔
      ∀ entry ∈ entries, plan.Accepts s.world entry := by
  induction entries generalizing s with
  | nil => simp [components, gather]
  | cons entry rest ih =>
    have hstep := component_touches hopen plan entry.1 (Plan.render entry.2)
    have hsnd : (component plan s entry.1 (Plan.render entry.2)).2 = plan.outcomeIn s.world entry :=
      component_snd hopen plan entry.1 (Plan.render entry.2)
    have hrest := ih (hstep.logIsOpen hopen)
      (Plan.LogsApart.of_touches (fun e he => happart e (List.mem_cons_of_mem _ he)) hstep)
    simp only [components, hsnd, gather_eq_ok_iff, List.forall_mem_cons] at hrest ⊢
    constructor
    · rintro ⟨outcomes, houtcomes⟩
      cases outcomes with
      | nil => simp at houtcomes
      | cons outcome others =>
        obtain ⟨hfirst, hothers⟩ := List.cons.inj houtcomes
        have haccepts : plan.Accepts s.world entry := ⟨outcome, hfirst⟩
        refine ⟨haccepts, fun other hother => ?_⟩
        exact (Plan.accepts_component_iff hopen plan haccepts
          (happart other (List.mem_cons_of_mem _ hother))).mp (hrest.mp ⟨others, hothers⟩ other hother)
    · rintro ⟨haccepts, hall⟩
      obtain ⟨others, hothers⟩ := hrest.mpr fun other hother =>
        (Plan.accepts_component_iff hopen plan haccepts
          (happart other (List.mem_cons_of_mem _ hother))).mpr (hall other hother)
      obtain ⟨outcome, houtcome⟩ := haccepts
      exact ⟨outcome :: others, by rw [houtcome, hothers, List.map_cons]⟩

theorem mem_selected_iff {plan : Plan} {f : Fragments} {entry : Text × List Text} :
    entry ∈ plan.selected f ↔ entry ∈ f.entries ∧ plan.selects entry.1 = true :=
  List.mem_filter

theorem exists_selected_of_key {plan : Plan} {f : Fragments} {key : Text} (hkey : key ∈ f.keys)
    (hselects : plan.selects key = true) : ∃ entry ∈ plan.selected f, entry.1 = key := by
  obtain ⟨entry, hentry, rfl⟩ := List.mem_map.mp hkey
  exact ⟨entry, mem_selected_iff.mpr ⟨hentry, hselects⟩, rfl⟩

theorem flush_eq (plan : Plan) (s : Session) (f : Fragments) :
    flush plan s f =
      ((components plan (opened plan s f) (plan.selected f)).1,
        gather (components plan (opened plan s f) (plan.selected f)).2) := rfl

theorem opened_touches (hopen : s.LogIsOpen) (plan : Plan) (f : Fragments) :
    Touches Session.nowhere s (opened plan s f) := by
  unfold opened
  split
  · exact .refl _ _
  · exact Session.log_touches hopen _

theorem flush_writes (hopen : s.LogIsOpen) (plan : Plan) (f : Fragments) :
    Touches (fun l => ∃ entry ∈ plan.selected f, plan.writes s.world entry.1 l) s
      (flush plan s f).1 := by
  have hopened := opened_touches hopen plan f
  have hrest := components_writes (hopened.logIsOpen hopen) plan (plan.selected f)
  simp only [Plan.writes_congr hopened.world] at hrest
  exact hopened.of_nowhere.trans hrest

theorem flush_touches (hopen : s.LogIsOpen) (plan : Plan) (f : Fragments) :
    Touches (fun l => ∃ entry ∈ plan.selected f, plan.leadsTo s.world entry.1 l) s
      (flush plan s f).1 :=
  (flush_writes hopen plan f).mono fun _ ⟨entry, hentry, hl⟩ => ⟨entry, hentry, hl.2⟩

theorem flush_bytes? (hopen : s.LogIsOpen) (plan : Plan) (f : Fragments)
    (hlog : s.logFile? ≠ some l) :
    (flush plan s f).1.world.tree.bytes? l =
      (s.world.tree.bytes? l).map
        ((plan.bodiesAt s.world l (plan.selected f)).foldl (left (plan.isStill s.world l))) := by
  have hopened := opened_touches hopen plan f
  have hkept := hopened.world.bytes?_eq (l := l) (Session.untouched hlog)
  have hrest := components_bytes? (hopened.logIsOpen hopen) plan (plan.selected f)
    (by rwa [hopened.logFile?_eq])
  rwa [Plan.bodiesAt_congr hopened.world, Plan.isStill_congr hopened.world, hkept] at hrest

theorem accepts_opened_iff (hopen : s.LogIsOpen) (plan : Plan) (f : Fragments)
    {entry : Text × List Text} (hlog : ∀ l, plan.leadsTo s.world entry.1 l → s.logFile? ≠ some l) :
    plan.Accepts (opened plan s f).world entry ↔ plan.Accepts s.world entry := by
  rw [Plan.Accepts, Plan.Accepts, Plan.outcomeIn_congr (opened_touches hopen plan f).world plan]
  intro l hl
  exact Session.untouched (hlog l hl)

theorem exists_flush_iff (hopen : s.LogIsOpen) (plan : Plan) (f : Fragments)
    (happart : plan.LogsApart s (plan.selected f)) :
    (∃ s' outcomes, flush plan s f = (s', .ok outcomes)) ↔
      ∀ entry ∈ plan.selected f, plan.Accepts s.world entry := by
  have hopened := opened_touches hopen plan f
  have hgathered := exists_gather_components_iff (hopened.logIsOpen hopen) plan _
    (happart.of_touches hopened)
  simp only [flush_eq, Prod.mk.injEq, exists_and_left, exists_eq_left', hgathered]
  exact forall₂_congr fun entry hentry => accepts_opened_iff hopen plan f (happart entry hentry)

theorem storable_of_accepts {plan : Plan} {w : World} {entries : List (Text × List Text)}
    (hall : ∀ entry ∈ entries, plan.Accepts w entry) {bytes : Utf8.Bytes}
    (hf : w.tree.bytes? l = some bytes) :
    ∀ body ∈ plan.bodiesAt w l entries, Storable (plan.isStill w l) bytes body := by
  intro body hbody
  obtain ⟨entry, hentry, hl, rfl⟩ := Plan.mem_bodiesAt_iff.mp hbody
  exact (Plan.accepts_of_file hl (Tree.bytes?_eq_some_iff.mp hf)).mp (hall entry hentry)

-- If all components are accepted, the last body that goes to a file is the one that counts.
theorem flush_bytes?_of_accepts (hopen : s.LogIsOpen) (plan : Plan) {f : Fragments}
    (hall : ∀ entry ∈ plan.selected f, plan.Accepts s.world entry) (hlog : s.logFile? ≠ some l) :
    (flush plan s f).1.world.tree.bytes? l =
      (s.world.tree.bytes? l).map
        (leftByLast (plan.isStill s.world l) (plan.bodiesAt s.world l (plan.selected f))) := by
  rw [flush_bytes? hopen plan f hlog]
  cases hb : s.world.tree.bytes? l with
  | none => rfl
  | some bytes =>
    rw [Option.map_some, Option.map_some, foldl_left (storable_of_accepts hall hb)]

-- What a flush leaves that ends with outcomes: it has accepted all components, and of the bodies
-- that go to a file the last one counts.
structure Plan.HasFlushed (plan : Plan) (s : Session) (f : Fragments) (s' : Session) : Prop where
  touches : Touches (fun l => ∃ entry ∈ plan.selected f, plan.leadsTo s.world entry.1 l) s s'
  accepted : ∀ entry ∈ plan.selected f, plan.Accepts s.world entry
  bytes? : ∀ l, s.logFile? ≠ some l → s'.world.tree.bytes? l = (s.world.tree.bytes? l).map
    (leftByLast (plan.isStill s.world l) (plan.bodiesAt s.world l (plan.selected f)))

theorem flush_hasFlushed (hopen : s.LogIsOpen) (plan : Plan) {f : Fragments}
    (hall : ∀ entry ∈ plan.selected f, plan.Accepts s.world entry) :
    plan.HasFlushed s f (flush plan s f).1 :=
  ⟨flush_touches hopen plan f, hall, fun _ hlog => flush_bytes?_of_accepts hopen plan hall hlog⟩

-- What is accepted before a flush that ends with outcomes is accepted after it, and the other way
-- round.
theorem Plan.HasFlushed.accepts_iff {plan : Plan} {s' : Session} {f : Fragments}
    {entry : Text × List Text} (h : plan.HasFlushed s f s')
    (hlog : ∀ l, plan.leadsTo s.world entry.1 l → s.logFile? ≠ some l) :
    plan.Accepts s'.world entry ↔ plan.Accepts s.world entry := by
  have hsame := h.touches.world
  cases hread : s.world.readBytes (plan.destination entry.1) with
  | error e =>
    rw [Accepts, Accepts, outcomeIn, outcomeIn, hsame.readBytes_error hread, hread,
      isLocked_congr hsame]
  | ok bytes =>
    obtain ⟨l, hl, hf⟩ := World.readBytes_eq_ok_iff.mp hread
    have hbefore := Tree.bytes?_eq_some_iff.mpr hf
    have hafter := h.bytes? l (hlog l hl)
    rw [hbefore, Option.map_some, Tree.bytes?_eq_some_iff] at hafter
    rw [accepts_of_file ((leadsTo_congr hsame plan _ l).mpr hl) hafter, accepts_of_file hl hf,
      isStill_congr hsame]
    exact storable_leftByLast_iff (storable_of_accepts h.accepted hbefore) _

-- A world at the root in which some packages hold READMEs.
def packagesHolding (readmes : List (Text × Utf8.Bytes)) : World where
  tree := ⟨(World.locationOf defaultPackages, .directory) ::
    readmes.flatMap fun (key, bytes) =>
      [(World.locationOf (defaultPackages.child key), .directory),
        (World.locationOf ((defaultPackages.child key).child readmeName), .file bytes)]⟩
  current := .ofText "/"
  home := "/home"
  accounts := []
  locked := []

end ReadmeTables.Patch
