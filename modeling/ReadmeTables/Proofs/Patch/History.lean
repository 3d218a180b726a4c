import ReadmeTables.Proofs.Patch.Orders
/-!
A flush forgets what was flushed before it.

Main statement: after two flushes that end with outcomes, the READMEs of the second one hold
what it leaves them with on its own, and doing a flush again changes no file but the log. The tasks
may take their steps in any order, as long as no two of them share a README.
-/

namespace ReadmeTables.Patch

open Session (Touches LogIsOpen)

variable {s s₁ s₂ s₃ : Session} {plan : Plan} {f first second : Fragments} {l : Location}
  {outcomes : List Outcome}

theorem leftByLast_leftByLast {still : Bool} {bytes : Utf8.Bytes} {before after : List Text}
    (h : ∀ body ∈ before, Storable still bytes body) (hne : after ≠ []) :
    leftByLast still after (leftByLast still before bytes) = leftByLast still after bytes := by
  obtain ⟨front, last, rfl⟩ := (List.eq_nil_or_concat after).resolve_left hne
  rw [List.concat_eq_append, leftByLast_append_singleton, leftByLast_append_singleton,
    left_leftByLast h]

theorem leftByLast_self {still : Bool} {bytes : Utf8.Bytes} {bodies : List Text}
    (h : ∀ body ∈ bodies, Storable still bytes body) :
    leftByLast still bodies (leftByLast still bodies bytes) = leftByLast still bodies bytes := by
  by_cases hne : bodies = []
  · subst hne
    rfl
  · exact leftByLast_leftByLast h hne

-- Of two flushes the second one comes last.
theorem Plan.HasFlushed.bytes?_twice (h₁ : plan.HasFlushed s first s₁)
    (h₂ : plan.HasFlushed s₁ second s₂) (hlog : s.logFile? ≠ some l) :
    s₂.world.tree.bytes? l = (s.world.tree.bytes? l).map fun bytes =>
      leftByLast (plan.isStill s.world l) (plan.bodiesAt s.world l (plan.selected second))
        (leftByLast (plan.isStill s.world l) (plan.bodiesAt s.world l (plan.selected first))
          bytes) := by
  have hsame := h₁.touches.world
  rw [h₂.bytes? l (by rwa [h₁.touches.logFile?_eq]), h₁.bytes? l hlog,
    Plan.bodiesAt_congr hsame, Plan.isStill_congr hsame, Option.map_map]
  rfl

-- The READMEs of the second flush hold what they hold after it alone.
theorem Plan.HasFlushed.readBytes_twice (happart : plan.LogsApart s (plan.selected second))
    (h₁ : plan.HasFlushed s first s₁) (h₂ : plan.HasFlushed s₁ second s₂)
    (h₃ : plan.HasFlushed s second s₃) {entry : Text × List Text}
    (hentry : entry ∈ plan.selected second) :
    s₂.world.readBytes (plan.destination entry.1) =
      s₃.world.readBytes (plan.destination entry.1) := by
  have hboth : World.SameBut (fun _ => True) s.world s₂.world :=
    (h₁.touches.world.mono fun _ _ => trivial).trans (h₂.touches.world.mono fun _ _ => trivial)
  have halone := h₃.touches.world
  refine World.readBytes_congr (by rw [hboth.locate_eq, halone.locate_eq]) fun l hl => ?_
  rw [halone.locate_eq] at hl
  have hlog := happart entry hentry l hl
  have hbodies : plan.bodiesAt s.world l (plan.selected second) ≠ [] :=
    List.ne_nil_of_mem (Plan.mem_bodiesAt_iff.mpr ⟨entry, hentry, hl, rfl⟩)
  apply halone.get?_eq_of_both hboth
  rw [h₁.bytes?_twice h₂ hlog, h₃.bytes? l hlog]
  refine Option.map_congr fun bytes hbytes => ?_
  exact leftByLast_leftByLast (storable_of_accepts h₁.accepted hbytes) hbodies

theorem Plan.HasFlushed.get?_again (h₁ : plan.HasFlushed s f s₁) (h₂ : plan.HasFlushed s₁ f s₂)
    (hlog : s.logFile? ≠ some l) : s₂.world.tree.get? l = s₁.world.tree.get? l := by
  apply h₂.touches.world.get?_eq
  rw [h₁.bytes?_twice h₂ hlog, h₁.bytes? l hlog]
  refine Option.map_congr fun bytes hbytes => ?_
  exact leftByLast_self (storable_of_accepts h₁.accepted hbytes)

theorem Flushes.hasFlushed (hopen : s.LogIsOpen) (happart : plan.LogsApart s (plan.selected f))
    (hown : plan.HaveOwnReadmes s.world (plan.selected f))
    (h : Flushes plan s f s₁ (.ok outcomes)) : plan.HasFlushed s f s₁ := by
  obtain ⟨schedule, rfl, hresult⟩ := h
  have hall := (launchAnd_ok_iff hopen happart hown hresult).mp ⟨outcomes, rfl⟩
  obtain ⟨-, hsame⟩ := launchAnd_eq_flush hopen happart hown hresult
  refine ⟨(launchAnd_writes hopen plan f schedule).mono ?_, hall, fun l hlog => ?_⟩
  · rintro l ⟨entry, hentry, hl⟩
    exact ⟨entry, hentry, hl.2⟩
  · rw [← flush_bytes?_of_accepts hopen plan hall hlog, Tree.bytes?, Tree.bytes?, hsame l hlog]

-- After two flushes that end with outcomes, the second one alone would have ended so too, and its
-- READMEs hold what it leaves them with on its own; with the same fragments the second one changes
-- no file but the log.
theorem flush_forgets_earlier_flush {firstOutcomes secondOutcomes : List Outcome}
    (hopen : s.LogIsOpen) (hfirstApart : plan.LogsApart s (plan.selected first))
    (hsecondApart : plan.LogsApart s (plan.selected second))
    (hfirstOwn : plan.HaveOwnReadmes s.world (plan.selected first))
    (hsecondOwn : plan.HaveOwnReadmes s.world (plan.selected second))
    (hfirst : Flushes plan s first s₁ (.ok firstOutcomes))
    (hsecond : Flushes plan s₁ second s₂ (.ok secondOutcomes)) :
    (∃ s₃ result, Flushes plan s second s₃ result) ∧
    (∀ s₃ result, Flushes plan s second s₃ result → (∃ outcomes, result = .ok outcomes) ∧
      ∀ key ∈ second.keys, plan.selects key = true →
        s₂.world.readBytes (plan.destination key) = s₃.world.readBytes (plan.destination key)) ∧
    (first = second → ∀ l, s.logFile? ≠ some l →
      s₂.world.tree.get? l = s₁.world.tree.get? l) := by
  have h₁ := hfirst.hasFlushed hopen hfirstApart hfirstOwn
  have h₂ := hsecond.hasFlushed (h₁.touches.logIsOpen hopen) (hsecondApart.of_touches h₁.touches)
    (hsecondOwn.of_sameBut h₁.touches.world)
  refine ⟨⟨_, _, flush_flushes plan s second⟩, fun s₃ result hthird => ?_, ?_⟩
  · -- what the second flush accepts after the first one, it accepts before it
    have hall : ∀ entry ∈ plan.selected second, plan.Accepts s.world entry := fun entry hentry =>
      (h₁.accepts_iff (hsecondApart entry hentry)).mp (h₂.accepted entry hentry)
    obtain ⟨schedule, hsession, hresult⟩ := id hthird
    obtain ⟨outcomes, rfl⟩ := (launchAnd_ok_iff hopen hsecondApart hsecondOwn hresult).mpr hall
    have h₃ := hthird.hasFlushed hopen hsecondApart hsecondOwn
    refine ⟨⟨outcomes, rfl⟩, fun key hkey hselects => ?_⟩
    obtain ⟨entry, hentry, rfl⟩ := exists_selected_of_key hkey hselects
    exact h₁.readBytes_twice hsecondApart h₂ h₃ hentry
  · rintro rfl l hlog
    exact h₁.get?_again h₂ hlog

-- A body in a drawer's README that ends in a carriage return and holds an end marker, and
-- another one after it.
theorem flush_forgets_earlier_flush_of_drawer :
    let plan : Plan := ⟨defaultPackages, defaultFilter, false⟩
    let s : Session := .start (packagesHolding [(defaultFilter, Utf8.bytesOf
      "<!-- docgen-tsdoc-replacer:start -->\nold\n<!-- docgen-tsdoc-replacer:end -->".toList)]) []
    let first : Fragments :=
      ⟨[(defaultFilter, ["<!-- docgen-tsdoc-replacer:end -->", "left\r"])]⟩
    let second : Fragments := ⟨[(defaultFilter, ["right"])]⟩
    ∃ s₁ s₂ outcomes₁ outcomes₂,
      Flushes plan s first s₁ (.ok outcomes₁) ∧ Flushes plan s₁ second s₂ (.ok outcomes₂) ∧
      ∀ s₃ result, Flushes plan s second s₃ result →
        s₂.world.readBytes (plan.destination defaultFilter) =
          s₃.world.readBytes (plan.destination defaultFilter) := by
  intro plan s first second
  have hopen : s.LogIsOpen := Session.start_logIsOpen _ _
  have happart (f : Fragments) : plan.LogsApart s (plan.selected f) :=
    Plan.logsApart_of_logFile?_eq_none rfl _
  have hown₁ : plan.HaveOwnReadmes s.world (plan.selected first) := List.pairwise_singleton _ _
  have hown₂ : plan.HaveOwnReadmes s.world (plan.selected second) := List.pairwise_singleton _ _
  have hall₁ : ∀ entry ∈ plan.selected first, plan.Accepts s.world entry := by decide +kernel
  have hall₂ : ∀ entry ∈ plan.selected second, plan.Accepts s.world entry := by decide +kernel
  have hflushed := flush_hasFlushed hopen plan hall₁
  obtain ⟨s₁, outcomes₁, hfirst⟩ := (exists_flush_iff hopen plan first (happart _)).mpr hall₁
  obtain rfl : (flush plan s first).1 = s₁ := congrArg Prod.fst hfirst
  have hopen₁ := hflushed.touches.logIsOpen hopen
  have happart₁ := (happart second).of_touches hflushed.touches
  obtain ⟨s₂, outcomes₂, hsecond⟩ := (exists_flush_iff hopen₁ plan second happart₁).mpr
    fun entry hentry =>
      (hflushed.accepts_iff (happart second entry hentry)).mpr (hall₂ entry hentry)
  have hflushes₁ := flushes_of_flush hfirst
  have hflushes₂ := flushes_of_flush hsecond
  obtain ⟨-, hany, -⟩ := flush_forgets_earlier_flush hopen (happart first) (happart second) hown₁
    hown₂ hflushes₁ hflushes₂
  exact ⟨_, s₂, outcomes₁, outcomes₂, hflushes₁, hflushes₂, fun s₃ result hthird =>
    (hany s₃ result hthird).2 defaultFilter (by decide) (by decide)⟩

-- Where two keys share a README, what it holds afterwards is decided by the order of the tasks.
-- Where there is a log file, each flush adds to it.
theorem flush_shows_order_and_log :
    let plan : Plan := ⟨defaultPackages, defaultFilter, false⟩
    let s : Session := .start (packagesHolding [(defaultFilter, Utf8.bytesOf
      "<!-- docgen-tsdoc-replacer:start -->\nold\n<!-- docgen-tsdoc-replacer:end -->".toList)]) []
    let shared : Fragments := ⟨[("mdc-drawer", ["left"]), ("mdc-drawer/", ["right"])]⟩
    let single : Fragments := ⟨[("mdc-drawer", ["left"])]⟩
    let logging := (s.configure false (some (.ofText "run.log"))).1
    (∃ s₁ s₂ s₃ outcomes₁ outcomes₂ outcomes₃, Flushes plan s ⟨[]⟩ s₁ (.ok outcomes₁) ∧
      Flushes plan s₁ shared s₂ (.ok outcomes₂) ∧ Flushes plan s shared s₃ (.ok outcomes₃) ∧
      s₂.world.readBytes (plan.destination "mdc-drawer") ≠
        s₃.world.readBytes (plan.destination "mdc-drawer")) ∧
    ∃ s₁ s₂ outcomes₁ outcomes₂, Flushes plan logging single s₁ (.ok outcomes₁) ∧
      Flushes plan s₁ single s₂ (.ok outcomes₂) ∧
      s₂.world.readBytes (.ofText "run.log") ≠ s₁.world.readBytes (.ofText "run.log") := by
  intro plan s shared single logging
  let changed (key : Text) : Outcome := { plan.blank key with changed := true }
  let forth := List.replicate 5 (Move.step 0 99) ++ List.replicate 5 (.step 1 99)
  let back := List.replicate 5 (Move.step 1 99) ++ List.replicate 5 (.step 0 99)
  constructor
  · exact ⟨_, _, _, [], [changed "mdc-drawer", changed "mdc-drawer/"],
      [changed "mdc-drawer", changed "mdc-drawer/"], ⟨[], rfl, rfl⟩,
      ⟨forth, rfl, by decide +kernel⟩, ⟨back, rfl, by decide +kernel⟩, by decide +kernel⟩
  · exact ⟨_, _, [changed "mdc-drawer"], [plan.blank "mdc-drawer"],
      ⟨forth, rfl, by decide +kernel⟩, ⟨forth, rfl, by decide +kernel⟩, by decide +kernel⟩

end ReadmeTables.Patch
