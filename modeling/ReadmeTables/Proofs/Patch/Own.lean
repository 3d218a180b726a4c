import Mathlib.Data.List.Forall2
import ReadmeTables.Proofs.Patch.Flush
/-!
Components with READMEs of their own.

Main statements: where no two components share a README, each one has the outcome that is told
before all of them, and each README takes in one body.
-/

namespace ReadmeTables.Patch

open Session (Touches LogIsOpen)

-- What two lists have to do with each other if both come from a third one.
theorem forall₂_of_common {α β γ : Type} {r : α → β → Prop} {r' : α → γ → Prop}
    {agree : γ → β → Prop} (h : ∀ a b c, r a b → r' a c → agree c b) {as : List α} {bs : List β}
    {cs : List γ} (hbs : List.Forall₂ r as bs) (hcs : List.Forall₂ r' as cs) :
    List.Forall₂ agree cs bs := by
  induction hbs generalizing cs with
  | nil =>
    obtain rfl := List.forall₂_nil_left_iff.mp hcs
    exact .nil
  | cons hab _ ih =>
    obtain ⟨c, rest, hac, hrest, rfl⟩ := List.forall₂_cons_left_iff.mp hcs
    exact .cons (h _ _ _ hab hac) (ih hrest)

namespace Plan

variable {plan : Plan} {w : World} {l : Location} {entries : List (Text × List Text)}

-- No two components lead to the same README.
def HaveOwnReadmes (plan : Plan) (w : World) (entries : List (Text × List Text)) : Prop :=
  entries.Pairwise fun a b => ∀ l, plan.leadsTo w a.1 l → ¬plan.leadsTo w b.1 l

theorem bodiesAt_eq_nil (h : ∀ entry ∈ entries, ¬plan.leadsTo w entry.1 l) :
    plan.bodiesAt w l entries = [] := by
  apply List.eq_nil_iff_forall_not_mem.mpr
  intro body hbody
  obtain ⟨entry, hentry, hl, -⟩ := mem_bodiesAt_iff.mp hbody
  exact h entry hentry hl

theorem bodiesAt_of_own (hown : plan.HaveOwnReadmes w entries) {entry : Text × List Text}
    (hentry : entry ∈ entries) (hl : plan.leadsTo w entry.1 l) :
    plan.bodiesAt w l entries = [render entry.2] := by
  induction entries with
  | nil => simp at hentry
  | cons first rest ih =>
    obtain ⟨hfirst, hrest⟩ := List.pairwise_cons.mp hown
    rcases List.mem_cons.mp hentry with rfl | hentry
    · rw [bodiesAt_cons_of_leadsTo hl, bodiesAt_eq_nil fun other hother => hfirst other hother l hl]
    · have hother : ¬plan.leadsTo w first.1 l := fun h => hfirst entry hentry l h hl
      rw [bodiesAt_cons_of_not_leadsTo hother, ih hrest hentry]

theorem HaveOwnReadmes.of_sameBut {touched : Location → Prop} {w' : World}
    (hown : plan.HaveOwnReadmes w entries) (h : World.SameBut touched w w') :
    plan.HaveOwnReadmes w' entries := by
  refine hown.imp fun {a b} hab l ha hb => ?_
  rw [leadsTo_congr h] at ha hb
  exact hab l ha hb

end Plan

-- A component has the outcome that is told before all of them, if the log and the components
-- before it stay away from its README.
theorem components_results {s : Session} (hopen : s.LogIsOpen) (plan : Plan)
    (apart : Text × List Text → Prop) {entries : List (Text × List Text)}
    (hlog : ∀ entry ∈ entries, apart entry →
      ∀ l, plan.leadsTo s.world entry.1 l → s.logFile? ≠ some l)
    (hown : entries.Pairwise fun a b => apart b →
      ∀ l, plan.leadsTo s.world b.1 l → ¬plan.leadsTo s.world a.1 l) :
    List.Forall₂ (fun entry result => (∃ w, result = plan.outcomeIn w entry) ∧
        (apart entry → result = plan.outcomeIn s.world entry))
      entries (components plan s entries).2 := by
  induction entries generalizing s with
  | nil => exact .nil
  | cons entry rest ih =>
    obtain ⟨hfirst, hothers⟩ := List.pairwise_cons.mp hown
    have hstep := component_touches hopen plan entry.1 (Plan.render entry.2)
    have hsnd : (component plan s entry.1 (Plan.render entry.2)).2 = plan.outcomeIn s.world entry :=
      component_snd hopen plan entry.1 (Plan.render entry.2)
    rw [List.forall_mem_cons] at hlog
    have hrest := ih (hstep.logIsOpen hopen)
      (by simpa only [hstep.logFile?_eq, Plan.leadsTo_congr hstep.world] using hlog.2)
      (by simpa only [Plan.leadsTo_congr hstep.world] using hothers)
    refine .cons ⟨⟨_, hsnd⟩, fun _ => hsnd⟩ ?_
    refine ((List.forall₂_and_left _ _).mpr ⟨fun _ hother => hother, hrest⟩).imp ?_
    rintro other result ⟨hother, htold, hresult⟩
    refine ⟨htold, fun hapart => (hresult hapart).trans ?_⟩
    -- the first component leaves the README of the other one alone
    exact Plan.outcomeIn_congr hstep.world plan fun l hl =>
      not_or_intro (hlog.2 other hother hapart l hl) (hfirst other hother hapart l hl)

-- Components with READMEs of their own have the outcomes that are told before all of them.
theorem components_snd {s : Session} (hopen : s.LogIsOpen) (plan : Plan)
    {entries : List (Text × List Text)} (happart : plan.LogsApart s entries)
    (hown : plan.HaveOwnReadmes s.world entries) :
    (components plan s entries).2 = entries.map (plan.outcomeIn s.world) := by
  have hresults := components_results hopen plan (fun _ => True)
    (fun entry hentry _ => happart entry hentry)
    (hown.imp fun hab _ l hb ha => hab l ha hb)
  rw [eq_comm, ← List.forall₂_eq_eq_eq, List.forall₂_map_left_iff]
  exact hresults.imp fun _ _ h => (h.2 trivial).symm

variable {plan : Plan} {s s' : Session} {f : Fragments} {outcomes : List Outcome} {l : Location}

theorem flush_outcomes (hopen : s.LogIsOpen) (happart : plan.LogsApart s (plan.selected f))
    (hown : plan.HaveOwnReadmes s.world (plan.selected f))
    (hflush : flush plan s f = (s', .ok outcomes)) :
    List.Forall₂ (fun entry outcome => plan.outcomeIn s.world entry = .ok outcome)
      (plan.selected f) outcomes := by
  have hopened := opened_touches hopen plan f
  have hgathered := gather_eq_ok_iff.mp (congrArg Prod.snd (flush_eq plan s f ▸ hflush))
  rw [components_snd (hopened.logIsOpen hopen) plan (happart.of_touches hopened)
    (hown.of_sameBut hopened.world)] at hgathered
  have htold : (plan.selected f).map (plan.outcomeIn (opened plan s f).world) =
      (plan.selected f).map (plan.outcomeIn s.world) := by
    refine List.map_congr_left fun entry hentry => ?_
    refine Plan.outcomeIn_congr hopened.world plan fun l hl => ?_
    exact Session.untouched (happart entry hentry l hl)
  rw [htold, ← List.forall₂_eq_eq_eq] at hgathered
  exact List.forall₂_map_right_iff.mp (List.forall₂_map_left_iff.mp hgathered)

theorem flush_bytes?_of_own (hopen : s.LogIsOpen) (happart : plan.LogsApart s (plan.selected f))
    (hown : plan.HaveOwnReadmes s.world (plan.selected f)) {entry : Text × List Text}
    (hentry : entry ∈ plan.selected f) (hl : plan.leadsTo s.world entry.1 l) :
    (flush plan s f).1.world.tree.bytes? l =
      (s.world.tree.bytes? l).map fun bytes =>
        left (plan.isStill s.world l) bytes (Plan.render entry.2) := by
  rw [flush_bytes? hopen plan f (happart entry hentry l hl), Plan.bodiesAt_of_own hown hentry hl]
  rfl

theorem flush_readBytes_of_own (hopen : s.LogIsOpen)
    (happart : plan.LogsApart s (plan.selected f))
    (hown : plan.HaveOwnReadmes s.world (plan.selected f)) {entry : Text × List Text}
    (hentry : entry ∈ plan.selected f) :
    (flush plan s f).1.world.readBytes (plan.destination entry.1) =
      (s.world.readBytes (plan.destination entry.1)).map fun bytes =>
        left (plan.dryRun || plan.isLocked s.world entry.1) bytes (Plan.render entry.2) := by
  have htouches := flush_touches hopen plan f
  cases hread : s.world.readBytes (plan.destination entry.1) with
  | error e => exact htouches.world.readBytes_error hread
  | ok bytes =>
    obtain ⟨l, hl, hf⟩ := World.readBytes_eq_ok_iff.mp hread
    have hafter := flush_bytes?_of_own hopen happart hown hentry hl
    rw [Tree.bytes?_eq_some_iff.mpr hf, Option.map_some, Plan.isStill_eq] at hafter
    rw [Plan.isLocked_of_leadsTo hl]
    refine World.readBytes_eq_ok_iff.mpr ⟨l, ?_, Tree.bytes?_eq_some_iff.mp hafter⟩
    rwa [htouches.world.locate_eq]

end ReadmeTables.Patch
